import OpenPms.LedgerHoles
import OpenPms.Lib.Upsert
import OpenPms.RatesCoverage

/-!
The bulk updates of rates and of the ledger collect their rows in a dictionary and write
them with one statement. The rows are those of writing the segments one at a time. A row
that a later segment replaces is never sent, so that its values are not checked either.
-/
namespace OpenPms

open KeyedTable Transaction Prog Upsert Ari

/-! The bulk update of rates -/

abbrev RateKey := UUID × UUID × ℤ

namespace Ari

def BulkRateSegment.keys (seg : BulkRateSegment) : List RateKey :=
  (iterInclusiveDates seg.startDate seg.endDate).map fun d => (seg.roomTypeId, seg.ratePlanId, d)

/-- What the segment writes besides the key. -/
def BulkRateSegment.values (seg : BulkRateSegment) : ℚ × RateRestrictions :=
  (seg.price, ⟨seg.stopSell, seg.minStayArrival, seg.maxStay⟩)

def BulkRateSegment.keyed (seg : BulkRateSegment) : List (RateKey × (ℚ × RateRestrictions)) :=
  seg.keys.map fun key => (key, seg.values)

end Ari

def Ari.AriDb.setRates (db : AriDb) (rates : UUID → UUID → ℤ → Option Money)
    (restrictions : UUID → UUID → ℤ → RateRestrictions) : AriDb :=
  { db with rates := rates, restrictions := restrictions }

/-- INSERT of a rate, or UPDATE of the columns of the row that has the key. -/
def putRate (key : RateKey) (values : ℚ × RateRestrictions) (db : AriDb) : AriDb :=
  db.setRates
    (fun rt rp d => if (rt, rp, d) = key then some (storedPrice values.1 : ℤ) else db.rates rt rp d)
    fun rt rp d => if (rt, rp, d) = key then values.2 else db.restrictions rt rp d

inductive BulkRatesError where
  | refused (e : RatesError)
  | cardinalityViolation
  deriving DecidableEq

def ratesByKey (db : AriDb) : List BulkRateSegment → Dict RateKey (ℚ × RateRestrictions) →
    Except BulkRatesError (Dict RateKey (ℚ × RateRestrictions))
  | [], byKey => .ok byKey
  | seg :: rest, byKey => do
    (checkSegment seg db).mapError .refused
    ratesByKey db rest (byKey.update seg.keyed)

def insertRates (rows : List (RateKey × (ℚ × RateRestrictions))) (db : AriDb) :
    Except BulkRatesError AriDb :=
  if ∃ row ∈ rows, ¬ Storable row.2.1 row.2.2 then .error (.refused .dataError)
  else match statement putRate rows db with
    | none => .error .cardinalityViolation
    | some db' => .ok db'

/-- The keys that are written, in their order. -/
def bulkUpsertSegments (segments : List BulkRateSegment) (db : AriDb) :
    Except BulkRatesError (AriDb × List RateKey) := do
  let byKey ← ratesByKey db segments .empty
  if byKey.entries = [] then .ok (db, [])
  else do
    let db' ← insertRates byKey.entries db
    .ok (db', byKey.keys)

/-! Its rows -/

def rateRows (segments : List BulkRateSegment) : List (RateKey × (ℚ × RateRestrictions)) :=
  rowsOf BulkRateSegment.keys BulkRateSegment.values segments

/-- The last of the segments that has the night. -/
def lastRateSegment (segments : List BulkRateSegment) (key : RateKey) : Option BulkRateSegment :=
  lastOf BulkRateSegment.keys segments key

/-- Its room type and its rate plan are of one property, and there is a day after its last. -/
def Ari.BulkRateSegment.Known (db : AriDb) (seg : BulkRateSegment) : Prop :=
  checkSegment seg db = .ok ()

/-- The columns take the values of the segment. -/
def Ari.BulkRateSegment.Fits (seg : BulkRateSegment) : Prop := Storable seg.values.1 seg.values.2

theorem putRate_lastWins : LastWins putRate where
  again k u v db := by
    refine congrArg₂ db.setRates ?_ ?_
    · funext rt rp d
      by_cases h : (rt, rp, d) = k <;> simp [putRate, AriDb.setRates, h]
    · funext rt rp d
      by_cases h : (rt, rp, d) = k <;> simp [putRate, AriDb.setRates, h]
  comm k k' v v' db hne := by
    refine congrArg₂ db.setRates ?_ ?_
    · funext rt rp d
      by_cases h : (rt, rp, d) = k <;> simp [putRate, AriDb.setRates, h, hne]
    · funext rt rp d
      by_cases h : (rt, rp, d) = k <;> simp [putRate, AriDb.setRates, h, hne]

def Ari.AriDb.rateRow (db : AriDb) (key : RateKey) : Option Rate := db.rate key.1 key.2.1 key.2.2

def placeRate (values : ℚ × RateRestrictions) (_ : Option Rate) : Rate :=
  ⟨values.2, (storedPrice values.1 : ℤ)⟩

theorem putRate_reads : Reads putRate AriDb.rateRow placeRate where
  self k v db := by simp [AriDb.rateRow, AriDb.rate, putRate, AriDb.setRates, placeRate]
  other k k' v db hne := by
    obtain ⟨rt, rp, d⟩ := k'
    simp [AriDb.rateRow, AriDb.rate, putRate, AriDb.setRates, hne]
  again _ _ _ := rfl

section Rates
variable {segments : List BulkRateSegment} {db : AriDb}

theorem roomTypes_writes (rows : List (RateKey × (ℚ × RateRestrictions))) (db : AriDb) :
    (writes putRate rows db).roomTypes = db.roomTypes ∧
      (writes putRate rows db).ratePlans = db.ratePlans := by
  induction rows generalizing db with
  | nil => exact ⟨rfl, rfl⟩
  | cons row rest ih => exact ih (putRate row.1 row.2 db)

theorem ratesByKey_eq (byKey : Dict RateKey (ℚ × RateRestrictions)) :
    ratesByKey db segments byKey =
      ((segments.forM fun seg => checkSegment seg db).mapError .refused).map fun _ =>
        byKey.update (rateRows segments) := by
  induction segments generalizing byKey with
  | nil => rfl
  | cons seg rest ih =>
    unfold ratesByKey
    have hstep : ((seg :: rest).forM fun seg => checkSegment seg db) =
      checkSegment seg db >>= fun _ => rest.forM fun seg => checkSegment seg db := rfl
    rw [hstep]
    cases hcheck : checkSegment seg db with
    | error e => rfl
    | ok u =>
      refine (ih (byKey.update seg.keyed)).trans ?_
      rw [← Dict.update_append]
      rfl

theorem forM_known : (segments.forM fun seg => checkSegment seg db) = .ok () ↔
    ∀ seg ∈ segments, seg.Known db := by
  induction segments with
  | nil => exact iff_of_true rfl fun seg hseg => absurd hseg List.not_mem_nil
  | cons seg rest ih =>
    rw [List.forall_mem_cons, ← ih]
    change (checkSegment seg db >>= fun _ =>
      rest.forM _) = _ ↔ _
    unfold BulkRateSegment.Known
    cases checkSegment seg db with
    | error e => exact iff_of_false (by intro h; cases h) fun h => nomatch h.1
    | ok u => exact ⟨fun h => ⟨rfl, h⟩, fun h => h.2⟩

/-- Only the last segment of a night is sent. -/
theorem exists_unfit_entry :
    (∃ row ∈ (Dict.empty.update (rateRows segments)).entries, ¬ Storable row.2.1 row.2.2) ↔
      ∃ key seg, lastRateSegment segments key = some seg ∧ ¬ seg.Fits := by
  constructor
  · rintro ⟨⟨key, values⟩, hrow, hnot⟩
    have hlast := mem_entries_update.mp hrow
    rw [rateRows, lastFor_rowsOf] at hlast
    obtain ⟨seg, hseg, rfl⟩ := Option.map_eq_some_iff.mp hlast
    exact ⟨key, seg, hseg, hnot⟩
  · rintro ⟨key, seg, hseg, hnot⟩
    refine ⟨(key, seg.values), mem_entries_update.mpr ?_, hnot⟩
    rw [rateRows, lastFor_rowsOf]
    exact Option.map_eq_some_iff.mpr ⟨seg, hseg, rfl⟩

/-- What a bulk update writes, and when it is not refused. -/
theorem bulkUpsertSegments_ok {db' : AriDb} {keys : List RateKey} :
    bulkUpsertSegments segments db = .ok (db', keys) ↔ (∀ seg ∈ segments, seg.Known db) ∧
      (∀ key seg, lastRateSegment segments key = some seg → seg.Fits) ∧
      db' = writes putRate (rateRows segments) db ∧
      keys = (Dict.empty.update (rateRows segments)).keys := by
  have hwrites := putRate_lastWins.statement_update (rateRows segments) db
  have hfits : (∀ key seg, lastRateSegment segments key = some seg → seg.Fits) ↔
      ¬ ∃ row ∈ (Dict.empty.update (rateRows segments)).entries, ¬ Storable row.2.1 row.2.2 := by
    rw [exists_unfit_entry]
    push Not
    rfl
  unfold bulkUpsertSegments
  rw [ratesByKey_eq]
  cases hforM : segments.forM fun seg => checkSegment seg db with
  | error e =>
    refine iff_of_false (by intro h; cases h) fun h => ?_
    have hok := forM_known.mpr h.1
    rw [hforM] at hok
    cases hok
  | ok u =>
    rw [and_iff_right (forM_known.mp hforM), hfits]
    change (if _ then _ else _) = _ ↔ _
    by_cases hnil : (Dict.empty.update (rateRows segments)).entries = []
    · have hsame : writes putRate (rateRows segments) db = db := by
        have hempty : statement putRate [] db = some db := rfl
        rw [hnil, hempty] at hwrites
        exact (Option.some.inj hwrites).symm
      rw [if_pos hnil, hsame, Dict.keys, hnil]
      constructor
      · intro h
        cases h
        exact ⟨fun hrow => by obtain ⟨row, hrow, -⟩ := hrow; exact absurd hrow List.not_mem_nil,
          rfl, rfl⟩
      · rintro ⟨-, rfl, rfl⟩
        rfl
    · rw [if_neg hnil, insertRates, hwrites]
      by_cases hunfit : ∃ row ∈ (Dict.empty.update (rateRows segments)).entries,
          ¬ Storable row.2.1 row.2.2
      · rw [if_pos hunfit]
        exact iff_of_false (by intro h; cases h) fun h => h.1 hunfit
      · rw [if_neg hunfit]
        constructor
        · intro h
          cases h
          exact ⟨hunfit, rfl, rfl⟩
        · rintro ⟨-, rfl, rfl⟩
          rfl

/-! One segment at a time -/

/-- A request for each segment. -/
def upsertOneByOne (segments : List BulkRateSegment) (db : AriDb) : Except BulkRatesError AriDb :=
  segments.foldlM (fun db seg => (bulkUpsertSegments [seg] db).map (·.1)) db

theorem lastRateSegment_singleton {seg seg' : BulkRateSegment} {key : RateKey} :
    lastRateSegment [seg] key = some seg' ↔ key ∈ seg.keys ∧ seg = seg' := by
  unfold lastRateSegment lastOf
  rw [List.reverse_singleton, List.find?_singleton]
  by_cases hkey : key ∈ seg.keys <;> simp [hkey]

theorem start_mem_keys (seg : BulkRateSegment) :
    (seg.roomTypeId, seg.ratePlanId, seg.startDate) ∈ seg.keys :=
  List.mem_map_of_mem (mem_iterInclusiveDates.mpr ⟨le_refl _, seg.start_le⟩)

theorem bulkUpsertSegments_one {seg : BulkRateSegment} {db' : AriDb} :
    (bulkUpsertSegments [seg] db).map (·.1) = .ok db' ↔
      seg.Known db ∧ seg.Fits ∧ db' = writes putRate seg.keyed db := by
  have hrows : rateRows [seg] = seg.keyed := List.flatMap_singleton ..
  constructor
  · intro h
    cases hbulk : bulkUpsertSegments [seg] db with
    | error e =>
      rw [hbulk] at h
      cases h
    | ok r =>
      obtain ⟨db₁, keys⟩ := r
      rw [hbulk] at h
      cases h
      obtain ⟨hknown, hfits, hdb, -⟩ := bulkUpsertSegments_ok.mp hbulk
      exact ⟨hknown seg (List.mem_singleton_self seg),
        hfits _ seg (lastRateSegment_singleton.mpr ⟨start_mem_keys seg, rfl⟩), hrows ▸ hdb⟩
  · rintro ⟨hknown, hfits, rfl⟩
    have hbulk := (@bulkUpsertSegments_ok [seg] db _ _).mpr ⟨fun seg' hseg' => ?_,
      fun key seg' hlast => ?_, rfl, rfl⟩
    · rw [hbulk, hrows]
      rfl
    · rw [List.mem_singleton.mp hseg']
      exact hknown
    · rw [← (lastRateSegment_singleton.mp hlast).2]
      exact hfits

theorem known_writes {seg : BulkRateSegment} (rows : List (RateKey × (ℚ × RateRestrictions))) :
    seg.Known (writes putRate rows db) ↔ seg.Known db := by
  obtain ⟨htypes, hplans⟩ := roomTypes_writes rows db
  unfold BulkRateSegment.Known checkSegment requireRoomTypeAndPlanSameProperty
  rw [htypes, hplans]

/-- One at a time the segments are checked each by itself. -/
theorem upsertOneByOne_ok {db' : AriDb} : upsertOneByOne segments db = .ok db' ↔
    (∀ seg ∈ segments, seg.Known db ∧ seg.Fits) ∧
      db' = writes putRate (rateRows segments) db := by
  induction segments generalizing db with
  | nil =>
    constructor
    · intro h
      cases h
      exact ⟨fun seg hseg => absurd hseg List.not_mem_nil, rfl⟩
    · rintro ⟨-, rfl⟩
      rfl
  | cons seg rest ih =>
    have hrows : rateRows (seg :: rest) = seg.keyed ++ rateRows rest := rfl
    rw [List.forall_mem_cons, hrows, writes_append]
    change ((bulkUpsertSegments [seg] db).map (·.1) >>= upsertOneByOne rest) = _ ↔ _
    cases hone : (bulkUpsertSegments [seg] db).map (·.1) with
    | error e =>
      refine iff_of_false (by intro h; cases h) fun h => ?_
      have hok := bulkUpsertSegments_one.mpr ⟨h.1.1.1, h.1.1.2, rfl⟩
      rw [hone] at hok
      cases hok
    | ok db₁ =>
      obtain ⟨hknown, hfits, rfl⟩ := bulkUpsertSegments_one.mp hone
      refine (@ih (writes putRate seg.keyed db)).trans ?_
      simp only [known_writes, and_iff_right (And.intro hknown hfits)]

/-! The same request, as the pushes use it -/

theorem writes_putRate (rows : List (RateKey × (ℚ × RateRestrictions))) (db : AriDb) :
    writes putRate rows db = db.setRates
      (fun rt rp d => match lastFor rows (rt, rp, d) with
        | some values => some (storedPrice values.1 : ℤ)
        | none => db.rates rt rp d)
      fun rt rp d => match lastFor rows (rt, rp, d) with
        | some values => values.2
        | none => db.restrictions rt rp d := by
  induction rows using List.reverseRecOn with
  | nil => rfl
  | append_singleton rows row ih =>
    rw [writes_append, ih]
    refine congrArg₂ db.setRates ?_ ?_
    · funext rt rp d
      rw [lastFor_append_singleton]
      by_cases hkey : row.1 = (rt, rp, d) <;> simp [AriDb.setRates, hkey, eq_comm]
    · funext rt rp d
      rw [lastFor_append_singleton]
      by_cases hkey : row.1 = (rt, rp, d) <;> simp [AriDb.setRates, hkey, eq_comm]

def Ari.RateRow.keyed (row : RateRow) : RateKey × (ℚ × RateRestrictions) :=
  (row.key, (row.price, row.restrictions))

theorem rateRows_body (body : BulkRatesPutRequest) :
    rateRows body.segments = body.rows.map RateRow.keyed := by
  unfold rateRows rowsOf BulkRatesPutRequest.rows
  rw [List.map_flatMap]
  refine congrArg (body.segments.flatMap ·) (funext fun seg => ?_)
  unfold BulkRateSegment.keys BulkRateSegment.rows
  rw [List.map_map, List.map_map]
  rfl

theorem lastFor_keyed (rows : List RateRow) (key : RateKey) :
    lastFor (rows.map RateRow.keyed) key =
      (rowFor rows key).map fun row => (row.price, row.restrictions) := by
  induction rows using List.reverseRecOn with
  | nil => rfl
  | append_singleton rows row ih =>
    rw [List.map_append, List.map_singleton, lastFor_append_singleton, ih]
    unfold rowFor
    rw [List.reverse_append, List.reverse_singleton, List.singleton_append, List.find?_cons]
    by_cases hkey : row.key = key <;> simp [RateRow.keyed, hkey]

theorem exists_unfit_merged (body : BulkRatesPutRequest) :
    (∃ row ∈ body.merged, ¬ Storable row.price row.restrictions) ↔
      ∃ row ∈ (Dict.empty.update (rateRows body.segments)).entries,
        ¬ Storable row.2.1 row.2.2 := by
  rw [rateRows_body]
  constructor
  · rintro ⟨row, hrow, hnot⟩
    obtain ⟨key, -, hkey⟩ := List.mem_filterMap.mp hrow
    refine ⟨(key, (row.price, row.restrictions)), mem_entries_update.mpr ?_, hnot⟩
    rw [lastFor_keyed, hkey]
    rfl
  · rintro ⟨⟨key, values⟩, hentry, hnot⟩
    have hlast := mem_entries_update.mp hentry
    rw [lastFor_keyed] at hlast
    obtain ⟨row, hrow, rfl⟩ := Option.map_eq_some_iff.mp hlast
    refine ⟨row, List.mem_filterMap.mpr ⟨key, ?_, hrow⟩, hnot⟩
    obtain ⟨hmem, rfl⟩ := rowFor_some hrow
    exact List.mem_eraseDups.mpr (List.mem_map_of_mem hmem)

theorem keys_body (body : BulkRatesPutRequest) :
    (Dict.empty.update (rateRows body.segments)).keys = body.keys := by
  rw [Dict.keys_update, rateRows_body, List.map_map]
  rfl

theorem upsertRates_eq (body : BulkRatesPutRequest) (db : AriDb) :
    upsertRates body db = writes putRate (rateRows body.segments) db := by
  rw [writes_putRate, rateRows_body]
  refine congrArg₂ db.setRates ?_ ?_
  · funext rt rp d
    rw [lastFor_keyed]
    cases rowFor body.rows (rt, rp, d) <;> rfl
  · funext rt rp d
    rw [lastFor_keyed]
    cases rowFor body.rows (rt, rp, d) <;> rfl

theorem bulkUpsertRates_eq (body : BulkRatesPutRequest) (db : AriDb) :
    (bulkUpsertRates body db).mapError .refused = bulkUpsertSegments body.segments db := by
  have hentries : (Dict.empty.update (rateRows body.segments)).entries ≠ [] := by
    intro hnil
    obtain ⟨seg, hseg⟩ := List.exists_mem_of_ne_nil _ body.segments_ne
    have hrow : _ ∈ (rateRows body.segments).map Prod.fst :=
      mem_keys_rowsOf.mpr ⟨seg, hseg, start_mem_keys seg⟩
    have hmem := Dict.mem_keys_update (d := .empty) |>.mpr (.inl hrow)
    rw [Dict.keys, hnil] at hmem
    exact List.not_mem_nil hmem
  unfold bulkUpsertSegments bulkUpsertRates
  rw [ratesByKey_eq]
  cases body.segments.forM fun seg => checkSegment seg db with
  | error e => rfl
  | ok u =>
    change Except.mapError _ (if _ then _ else _) = if _ then _ else _
    rw [if_neg hentries, insertRates, putRate_lastWins.statement_update]
    by_cases hunfit : ∃ row ∈ body.merged, ¬ Storable row.price row.restrictions
    · rw [if_pos hunfit, if_pos ((exists_unfit_merged body).mp hunfit)]
      rfl
    · rw [if_neg hunfit, if_neg fun h => hunfit ((exists_unfit_merged body).mpr h),
        upsertRates_eq, ← keys_body]
      rfl

end Rates

/-! The bulk seed of the ledger -/

def AvailabilityLedgerSeedSegment.keys (seg : AvailabilityLedgerSeedSegment) : List (UUID × ℤ) :=
  (iterInclusiveDates seg.startDate seg.endDate).map fun d => (seg.roomTypeId, d)

/-- INSERT of a day without bookings and blocks, or UPDATE of the total. -/
def putDay (key : UUID × ℤ) (totalRooms : ℤ) (db : Db) : Db :=
  { db with
    ledger := db.ledger.upsert key.1 [key.2] ⟨totalRooms, 0, 0⟩
      fun c => { c with totalRooms := totalRooms } }

def seedByKey : List AvailabilityLedgerSeedSegment → Dict (UUID × ℤ) ℤ → Tx (Dict (UUID × ℤ) ℤ)
  | [], byKey => pure byKey
  | seg :: rest, byKey => do
    let found ← select fun db => db.roomTypes.find seg.roomTypeId
    raiseIf (found = none) (.ledgerSeed "room_type not found" 404)
    let totalRooms ← select fun db => (countRoomsForRoomType seg.roomTypeId db : ℤ)
    raiseIf (dateMax ≤ seg.endDate) .overflowError
    seedByKey rest (byKey.update (seg.keys.map fun key => (key, totalRooms)))

/-- The statement for rows with a key twice would be refused. -/
def bulkSeedSegments (segments : List AvailabilityLedgerSeedSegment) : Tx ℕ := do
  let byKey ← seedByKey segments .empty
  if byKey.entries = [] then pure 0
  else do
    raiseIf (¬ (byKey.entries.map Prod.fst).Nodup) .dataError
    modify (writes putDay byKey.entries)
    pure byKey.entries.length

def seedOneByOne (segments : List AvailabilityLedgerSeedSegment) : Tx Unit :=
  forEach segments fun seg => do
    let _ ← bulkSeedSegments [seg]
    pure ()

theorem putDay_row (key : UUID × ℤ) (totalRooms : ℤ) (db : Db) (rt : UUID) (d : ℤ) :
    (putDay key totalRooms db).ledger.row rt d = if (rt, d) = key then
      some ((db.ledger.row rt d).elim ⟨totalRooms, 0, 0⟩ fun c => { c with totalRooms := totalRooms })
      else db.ledger.row rt d := by
  obtain ⟨rt', d'⟩ := key
  simp [putDay]

theorem putDay_eq {key : UUID × ℤ} {totalRooms : ℤ} {db db' : Db} {l : Ledger}
    (h : ∀ rt d, (putDay key totalRooms db).ledger.row rt d = l.row rt d)
    (hdb : db' = { db with ledger := l }) : putDay key totalRooms db = db' := by
  have hledger : (putDay key totalRooms db).ledger = l := Ledger.ext_row h
  rw [hdb, ← hledger]
  rfl

theorem putDay_lastWins : LastWins putDay where
  again k u v db := by
    have hrows : ∀ rt d, (putDay k v (putDay k u db)).ledger.row rt d =
        (putDay k v db).ledger.row rt d := by
      intro rt d
      rw [putDay_row, putDay_row, putDay_row]
      by_cases h : (rt, d) = k
      · simp only [h, if_true]
        cases db.ledger.row rt d <;> rfl
      · simp only [h, if_false]
    exact putDay_eq hrows rfl
  comm k k' v v' db hne := by
    have hrows : ∀ rt d, (putDay k v (putDay k' v' db)).ledger.row rt d =
        (putDay k' v' (putDay k v db)).ledger.row rt d := by
      intro rt d
      rw [putDay_row, putDay_row, putDay_row, putDay_row]
      by_cases h : (rt, d) = k
      · simp only [h, if_true, hne, if_false]
      · simp only [h, if_false]
    exact putDay_eq hrows rfl

def Db.dayRow (db : Db) (key : UUID × ℤ) : Option Counts := db.ledger.row key.1 key.2

/-- A new day has no bookings and blocks, and an existing one keeps them. -/
def placeDay (totalRooms : ℤ) (row : Option Counts) : Counts :=
  row.elim ⟨totalRooms, 0, 0⟩ fun c => { c with totalRooms := totalRooms }

theorem putDay_reads : Reads putDay Db.dayRow placeDay where
  self k v db := by
    rw [Db.dayRow, putDay_row, if_pos rfl]
    rfl
  other k k' v db hne := by
    rw [Db.dayRow, putDay_row, if_neg hne]
    rfl
  again u v row := by cases row <;> rfl

/-- The rows of the seed, with the rooms that there are now. -/
def seedEntries (db : Db) (segments : List AvailabilityLedgerSeedSegment) :
    List ((UUID × ℤ) × ℤ) :=
  rowsOf AvailabilityLedgerSeedSegment.keys
    (fun seg => (countRoomsForRoomType seg.roomTypeId db : ℤ)) segments

/-- Its room type is there, and so is a day after its last. -/
def AvailabilityLedgerSeedSegment.Known (db : Db) (seg : AvailabilityLedgerSeedSegment) : Prop :=
  db.roomTypes.find seg.roomTypeId ≠ none ∧ seg.endDate < dateMax

/-- The first refusal of the segments. -/
def seedRefusal (db : Db) (segments : List AvailabilityLedgerSeedSegment) : Option Err :=
  segments.findSome? fun seg =>
    if db.roomTypes.find seg.roomTypeId = none then some (.ledgerSeed "room_type not found" 404)
    else if dateMax ≤ seg.endDate then some .overflowError
    else none

section Seeds
variable {segments : List AvailabilityLedgerSeedSegment} {db : Db}

/-- Days change no other table. -/
theorem writes_putDay_eq (rows : List ((UUID × ℤ) × ℤ)) (db : Db) :
    writes putDay rows db = { db with ledger := (writes putDay rows db).ledger } := by
  induction rows generalizing db with
  | nil => rfl
  | cons row rest ih => exact ih (putDay row.1 row.2 db)

theorem seedRefusal_eq_none : seedRefusal db segments = none ↔ ∀ seg ∈ segments, seg.Known db := by
  unfold seedRefusal
  rw [List.findSome?_eq_none_iff]
  refine forall₂_congr fun seg _ => ?_
  unfold AvailabilityLedgerSeedSegment.Known
  by_cases hfound : db.roomTypes.find seg.roomTypeId = none
  · simp [hfound]
  · by_cases hday : dateMax ≤ seg.endDate
    · simp [hfound, hday]
    · simp [hfound, hday, not_le.mp hday]

/-- A segment is refused for its room type before it is for its days. -/
theorem seedRefusal_cons (seg : AvailabilityLedgerSeedSegment) :
    seedRefusal db (seg :: segments) =
      if db.roomTypes.find seg.roomTypeId = none then some (.ledgerSeed "room_type not found" 404)
      else if dateMax ≤ seg.endDate then some .overflowError
      else seedRefusal db segments := by
  unfold seedRefusal
  rw [List.findSome?_cons]
  by_cases hfound : db.roomTypes.find seg.roomTypeId = none
  · simp only [hfound, if_true]
  · by_cases hday : dateMax ≤ seg.endDate
    · simp only [hfound, if_false, hday, if_true]
    · simp only [hfound, if_false, hday]

theorem exec_seedByKey (byKey : Dict (UUID × ℤ) ℤ) : (seedByKey segments byKey).exec db =
    match seedRefusal db segments with
    | none => (.ok (byKey.update (seedEntries db segments)), db)
    | some e => (.error e, db) := by
  induction segments generalizing byKey with
  | nil => rfl
  | cons seg rest ih =>
    rw [seedByKey, seedRefusal_cons, exec_bind, exec_select]
    simp only [exec_bind, exec_raiseIf, exec_select]
    by_cases hfound : db.roomTypes.find seg.roomTypeId = none
    · simp only [hfound, if_true]
    · by_cases hday : dateMax ≤ seg.endDate
      · simp only [hfound, if_false, hday, if_true]
      · have happend := Dict.update_append byKey (seg.keys.map fun key =>
          (key, (countRoomsForRoomType seg.roomTypeId db : ℤ))) (seedEntries db rest)
        simp only [hfound, if_false, hday, ih, ← happend]
        rfl

/-- What a bulk seed writes, and when it is not refused. -/
theorem exec_bulkSeedSegments : (bulkSeedSegments segments).exec db =
    match seedRefusal db segments with
    | none => (.ok ((seedEntries db segments).map Prod.fst).dedup.length,
        writes putDay (seedEntries db segments) db)
    | some e => (.error e, db) := by
  have hlength := Dict.length_entries_update (seedEntries db segments)
  have hwrites := putDay_lastWins.writes_update .empty (seedEntries db segments) db
  rw [bulkSeedSegments, exec_bind, exec_seedByKey]
  cases seedRefusal db segments with
  | some e => rfl
  | none =>
    simp only
    by_cases hnil : (Dict.empty.update (seedEntries db segments)).entries = []
    · simp only [hnil, if_true]
      rw [hnil] at hlength hwrites
      rw [← hlength]
      exact congrArg (Prod.mk _) hwrites
    · have hnodup := (Dict.empty.update (seedEntries db segments)).nodup
      simp only [hnil, if_false, exec_bind, exec_raiseIf, hnodup, not_true_eq_false, exec_modify,
        exec_pure]
      rw [hlength]
      exact congrArg (Prod.mk _) hwrites

/-- Days change neither the room types nor the number of rooms. -/
theorem seedEntries_writes (rows : List ((UUID × ℤ) × ℤ)) :
    seedEntries (writes putDay rows db) segments = seedEntries db segments := by
  rw [writes_putDay_eq]
  rfl

theorem seedKnown_writes {seg : AvailabilityLedgerSeedSegment} (rows : List ((UUID × ℤ) × ℤ)) :
    seg.Known (writes putDay rows db) ↔ seg.Known db := by
  rw [writes_putDay_eq]
  rfl

theorem exec_seedOneByOne {db' : Db} : (seedOneByOne segments).exec db = (.ok (), db') ↔
    (∀ seg ∈ segments, seg.Known db) ∧ db' = writes putDay (seedEntries db segments) db := by
  induction segments generalizing db with
  | nil =>
    constructor
    · intro h
      cases h
      exact ⟨fun seg hseg => absurd hseg List.not_mem_nil, rfl⟩
    · rintro ⟨-, rfl⟩
      rfl
  | cons seg rest ih =>
    have hrows : seedEntries db (seg :: rest) = seedEntries db [seg] ++ seedEntries db rest := by
      unfold seedEntries rowsOf
      rw [List.flatMap_singleton, List.flatMap_cons]
    have hone : seedRefusal db [seg] = none ↔ seg.Known db :=
      seedRefusal_eq_none.trans List.forall_mem_singleton
    rw [List.forall_mem_cons, hrows, writes_append]
    have hexec : (seedOneByOne (seg :: rest)).exec db = ((do
      let _ ← bulkSeedSegments [seg]
      pure () : Tx Unit) >>= fun _ => seedOneByOne rest).exec db := rfl
    rw [hexec, exec_bind, exec_bind, exec_bulkSeedSegments]
    cases hrefusal : seedRefusal db [seg] with
    | none =>
      rw [and_iff_right (hone.mp hrefusal)]
      refine ih.trans ?_
      simp only [seedKnown_writes, seedEntries_writes]
    | some e =>
      refine iff_of_false (by intro h; cases h) fun h => ?_
      cases hrefusal.symm.trans (hone.mpr h.1.1)

/-- The request as it is called elsewhere. -/
theorem exec_seedRows : (seedRows segments).exec db =
    match seedRefusal db segments with
    | none => (.ok ((seedEntries db segments).map fun row => ⟨row.1.1, row.1.2, row.2⟩), db)
    | some e => (.error e, db) := by
  induction segments with
  | nil => rfl
  | cons seg rest ih =>
    rw [seedRows, seedRefusal_cons, exec_bind, exec_select]
    simp only [exec_bind, exec_raiseIf, exec_select]
    by_cases hfound : db.roomTypes.find seg.roomTypeId = none
    · simp only [hfound, if_true]
    · by_cases hday : dateMax ≤ seg.endDate
      · simp only [hfound, if_false, hday, if_true]
      · have hrows : seedEntries db (seg :: rest) = (seg.keys.map fun key =>
            (key, (countRoomsForRoomType seg.roomTypeId db : ℤ))) ++ seedEntries db rest := rfl
        simp only [hfound, if_false, hday, ih, hrows]
        cases seedRefusal db rest with
        | some e => rfl
        | none =>
          simp only [exec_pure, List.map_append, List.map_map, AvailabilityLedgerSeedSegment.keys]
          rfl

theorem bulkSeedAvailabilityLedger_eq (body : BulkAvailabilityLedgerSeedRequest) :
    (bulkSeedAvailabilityLedger body).exec db = (bulkSeedSegments body.segments).exec db := by
  rw [bulkSeedAvailabilityLedger, exec_bind, exec_seedRows, exec_bulkSeedSegments]
  cases seedRefusal db body.segments with
  | some e => rfl
  | none =>
    simp only [exec_bind, exec_modify, exec_pure, List.map_map, List.foldl_map]
    rfl

end Seeds

/-! Bulk writes and single writes -/

/-- The rates after a bulk update: those of the last segment with the night, and the others
as they were. -/
structure RatesWritten (segments : List BulkRateSegment) (db db' : AriDb) (keys : List RateKey) :
    Prop where
  rows : ∀ key, db'.rateRow key = match lastRateSegment segments key with
    | some seg => some ⟨seg.values.2, (storedPrice seg.price : ℤ)⟩
    | none => db.rateRow key
  others : db' = db.setRates db'.rates db'.restrictions
  keys_nodup : keys.Nodup
  mem_keys : ∀ key, key ∈ keys ↔ ∃ seg ∈ segments, key ∈ seg.keys

/-- The ledger after a bulk seed: the days of the segments have the number of rooms and keep
what is booked and blocked, and the others are as they were. -/
structure DaysWritten (segments : List AvailabilityLedgerSeedSegment) (db db' : Db) (n : ℕ) :
    Prop where
  rows : ∀ rt d, db'.ledger.row rt d = if ∃ seg ∈ segments, (rt, d) ∈ seg.keys then
      some (placeDay (countRoomsForRoomType rt db) (db.ledger.row rt d))
    else db.ledger.row rt d
  others : db' = { db with ledger := db'.ledger }
  count : ∃ keys : List (UUID × ℤ), keys.Nodup ∧ keys.length = n ∧
    ∀ key, key ∈ keys ↔ ∃ seg ∈ segments, key ∈ seg.keys

theorem bulkUpsertSegments_written {segments : List BulkRateSegment} {db db' : AriDb}
    {keys : List RateKey} (h : bulkUpsertSegments segments db = .ok (db', keys)) :
    RatesWritten segments db db' keys := by
  obtain ⟨-, -, rfl, rfl⟩ := bulkUpsertSegments_ok.mp h
  refine ⟨fun key => ?_, ?_, (Dict.empty.update (rateRows segments)).nodup, fun key => ?_⟩
  · rw [putRate_reads.read_writes, rateRows, lastFor_rowsOf, lastRateSegment]
    cases lastOf BulkRateSegment.keys segments key <;> rfl
  · rw [writes_putRate]
    rfl
  · rw [Dict.mem_keys_update, rateRows, mem_keys_rowsOf]
    exact or_iff_left List.not_mem_nil

theorem bulkSeedSegments_written {segments : List AvailabilityLedgerSeedSegment} {db db' : Db}
    {n : ℕ} (h : (bulkSeedSegments segments).exec db = (.ok n, db')) :
    DaysWritten segments db db' n := by
  rw [exec_bulkSeedSegments] at h
  split at h
  · cases h
    refine ⟨fun rt d => ?_, writes_putDay_eq _ _, _, List.nodup_dedup _, rfl, fun key => ?_⟩
    · refine (putDay_reads.read_writes (seedEntries db segments) db (rt, d)).trans ?_
      rw [seedEntries, lastFor_rowsOf]
      have hsome := @lastOf_isSome (UUID × ℤ) _ _ AvailabilityLedgerSeedSegment.keys segments (rt, d)
      cases hlast : lastOf AvailabilityLedgerSeedSegment.keys segments (rt, d) with
      | none =>
        rw [hlast] at hsome
        rw [if_neg fun hex => Bool.false_ne_true (hsome.mpr hex)]
        rfl
      | some seg =>
        obtain ⟨hseg, hkey⟩ := lastOf_some hlast
        obtain ⟨d', -, hsame⟩ := List.mem_map.mp hkey
        have hrt : seg.roomTypeId = rt := congrArg Prod.fst hsame
        rw [if_pos ⟨seg, hseg, hkey⟩, ← hrt]
        rfl
    · rw [List.mem_dedup, seedEntries, mem_keys_rowsOf]
  · cases h

/-- A bulk update that returns has written what the segments write one at a time, with the
last segment of a night on top; it is refused when a segment names unknown rows or ends on
the last day there is, or when the last segment of a night has values that its columns do not
take. -/
theorem bulk_writes_one_by_one :
    (∀ segments db,
      (∀ db' keys, bulkUpsertSegments segments db = .ok (db', keys) →
        RatesWritten segments db db' keys) ∧
      (∀ db', upsertOneByOne segments db = .ok db' ↔
        (∃ keys, bulkUpsertSegments segments db = .ok (db', keys)) ∧ ∀ seg ∈ segments, seg.Fits) ∧
      ((∃ e, bulkUpsertSegments segments db = .error e) ↔ (∃ seg ∈ segments, ¬ seg.Known db) ∨
        ∃ key seg, lastRateSegment segments key = some seg ∧ ¬ seg.Fits)) ∧
    ∀ segments db,
      (∀ n db', (bulkSeedSegments segments).exec db = (.ok n, db') →
        DaysWritten segments db db' n) ∧
      (∀ db', (seedOneByOne segments).exec db = (.ok (), db') ↔
        ∃ n, (bulkSeedSegments segments).exec db = (.ok n, db')) ∧
      (∀ e db', (bulkSeedSegments segments).exec db = (.error e, db') → db' = db) ∧
      ((∃ e db', (bulkSeedSegments segments).exec db = (.error e, db')) ↔
        ∃ seg ∈ segments, ¬ seg.Known db) := by
  constructor
  · intro segments db
    refine ⟨fun db' keys => bulkUpsertSegments_written, fun db' => ?_, ?_⟩
    · rw [upsertOneByOne_ok]
      constructor
      · rintro ⟨hall, rfl⟩
        refine ⟨⟨_, bulkUpsertSegments_ok.mpr ⟨fun seg hseg => (hall seg hseg).1, ?_, rfl, rfl⟩⟩,
          fun seg hseg => (hall seg hseg).2⟩
        exact fun key seg hlast => (hall seg (lastOf_some hlast).1).2
      · rintro ⟨⟨keys, hbulk⟩, hfits⟩
        obtain ⟨hknown, -, rfl, -⟩ := bulkUpsertSegments_ok.mp hbulk
        exact ⟨fun seg hseg => ⟨hknown seg hseg, hfits seg hseg⟩, rfl⟩
    · cases hbulk : bulkUpsertSegments segments db with
      | ok r =>
        obtain ⟨hknown, hfits, -⟩ := bulkUpsertSegments_ok.mp hbulk
        refine iff_of_false (by rintro ⟨e, h⟩; cases h) ?_
        rintro (⟨seg, hseg, hnot⟩ | ⟨key, seg, hlast, hnot⟩)
        · exact hnot (hknown seg hseg)
        · exact hnot (hfits key seg hlast)
      | error e =>
        refine iff_of_true ⟨e, rfl⟩ (by_contra fun hnone => ?_)
        push Not at hnone
        have hok := bulkUpsertSegments_ok.mpr ⟨hnone.1, hnone.2, rfl, rfl⟩
        rw [hbulk] at hok
        cases hok
  · intro segments db
    refine ⟨fun n db' => bulkSeedSegments_written, fun db' => ?_, fun e db' h => ?_, ?_⟩
    · rw [exec_seedOneByOne, exec_bulkSeedSegments, ← seedRefusal_eq_none]
      cases seedRefusal db segments with
      | none =>
        refine (and_iff_right rfl).trans ⟨fun h => ⟨_, by rw [h]⟩, ?_⟩
        rintro ⟨n, h⟩
        exact (congrArg Prod.snd h).symm
      | some e => exact iff_of_false nofun fun ⟨n, h⟩ => nomatch congrArg Prod.fst h
    · rw [exec_bulkSeedSegments] at h
      split at h
      · cases h
      · cases h
        rfl
    · rw [exec_bulkSeedSegments]
      cases hrefusal : seedRefusal db segments with
      | none =>
        refine iff_of_false (fun ⟨e, db', h⟩ => nomatch h) ?_
        rintro ⟨seg, hseg, hnot⟩
        exact hnot (seedRefusal_eq_none.mp hrefusal seg hseg)
      | some e =>
        refine iff_of_true ⟨e, db, rfl⟩ (by_contra fun hknown => ?_)
        push Not at hknown
        cases hrefusal.symm.trans (seedRefusal_eq_none.mpr hknown)

namespace Ari.Demo

/-- A price that the column does not take. -/
def dear : BulkRateSegment :=
  { oneDay 10 5 with price := 10 ^ 12, price_nonneg := by norm_num }

end Ari.Demo

/-- A later segment has the only night of the first, whose price is then not looked at. -/
theorem bulk_update_skips_replaced :
    ¬ Ari.Demo.dear.Fits ∧
      (upsertOneByOne [Ari.Demo.dear, Ari.Demo.oneDay 10 5] Ari.Demo.twoHotels).isOk = false ∧
      ∃ db', bulkUpsertSegments [Ari.Demo.dear, Ari.Demo.oneDay 10 5] Ari.Demo.twoHotels =
        .ok (db', [(10, 5, 3)]) := by
  have hdear : ¬ Ari.Demo.dear.Fits := by
    unfold BulkRateSegment.Fits
    decide +kernel
  have hday : (Ari.Demo.oneDay 10 5).Fits := by
    unfold BulkRateSegment.Fits
    decide +kernel
  refine ⟨hdear, by decide +kernel, _, bulkUpsertSegments_ok.mpr ⟨fun seg hseg => ?_,
    fun key seg hlast => ?_, rfl, by decide⟩⟩
  · rcases List.mem_pair.mp hseg with rfl | rfl <;> rfl
  · obtain ⟨hseg, hkey⟩ := lastOf_some hlast
    rcases List.mem_pair.mp hseg with rfl | rfl
    · have hlater : lastRateSegment [Ari.Demo.dear, Ari.Demo.oneDay 10 5] key =
          some (Ari.Demo.oneDay 10 5) := by
        refine (lastOf_append_singleton [Ari.Demo.dear] (Ari.Demo.oneDay 10 5) key).trans ?_
        exact if_pos hkey
      have hsame := Option.some.inj (hlast.symm.trans hlater)
      exact absurd (congrArg BulkRateSegment.price hsame) (by decide)
    · exact hday

end OpenPms
