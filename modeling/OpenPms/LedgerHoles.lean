import Mathlib.Data.Int.ConditionallyCompleteOrder
import Mathlib.Order.ConditionallyCompletePartialOrder.Basic
import OpenPms.Announcements

/-!
Whether the ledger has holes. The extension appends days after the largest ledger date
and looks at no other day, so what it leaves depends on the days that were there
before: on the seeds of the history and on the time between two runs.
-/
namespace OpenPms

open KeyedTable Transaction Prog

/-! Sets of days -/

/-- From `t` on no day before a day of the set is missing. -/
def NoGapFrom (t : ℤ) (days : Set ℤ) : Prop := ∀ d e, t ≤ d → d ≤ e → e ∈ days → d ∈ days

theorem noGapFrom_empty (t : ℤ) : NoGapFrom t ∅ := fun _ _ _ _ he => he.elim

theorem NoGapFrom.mono {t t' : ℤ} {days : Set ℤ} (h : NoGapFrom t days) (hle : t ≤ t') :
    NoGapFrom t' days := fun d e hd hde he => h d e (hle.trans hd) hde he

theorem noGapFrom_Ico (t n : ℤ) : NoGapFrom t (Set.Ico t n) :=
  fun _ _ hd hde he => ⟨hd, hde.trans_lt he.2⟩

/-- Days that follow the last one close no gap and leave none. -/
theorem noGapFrom_append {t m n : ℤ} {days : Set ℤ} (hmax : IsGreatest days m) :
    NoGapFrom t (days ∪ Set.Ico (m + 1) n) ↔ NoGapFrom t days := by
  constructor
  · intro h d e hd hde he
    have hle : e ≤ m := hmax.2 he
    rcases h d e hd hde (.inl he) with hmem | hmem
    · exact hmem
    · have hlt : m + 1 ≤ d := hmem.1
      omega
  · intro h d e hd hde he
    rcases le_or_gt d m with hdm | hmd
    · exact .inl (h d m hd hdm hmax.1)
    · rcases he with he | he
      · have hle : e ≤ m := hmax.2 he
        omega
      · exact .inr ⟨by omega, hde.trans_lt he.2⟩

theorem isGreatest_append {m n : ℤ} {days : Set ℤ} (hmax : IsGreatest days m) (hn : m + 1 < n) :
    IsGreatest (days ∪ Set.Ico (m + 1) n) (n - 1) := by
  refine ⟨.inr ⟨by omega, by omega⟩, ?_⟩
  rintro d (hd | hd)
  · have hle : d ≤ m := hmax.2 hd
    omega
  · have hlt : d < n := hd.2
    omega

theorem isGreatest_Ico {t n : ℤ} (hn : t < n) : IsGreatest (Set.Ico t n) (n - 1) :=
  ⟨⟨by omega, by omega⟩, fun _ hd => Int.le_sub_one_of_lt hd.2⟩

/-! The days of a room type -/

/-- The days on which the room type has a row. -/
def Ledger.days (l : Ledger) (rt : UUID) : Set ℤ := {d | (l.row rt d).isSome}

theorem Ledger.mem_days {l : Ledger} {rt : UUID} {d : ℤ} :
    d ∈ l.days rt ↔ (l.row rt d).isSome := Iff.rfl

theorem Ledger.maxDate_eq_some {l : Ledger} {rt : UUID} {m : ℤ} :
    l.maxDate rt = some m ↔ IsGreatest (l.days rt) m := by
  constructor
  · intro hm
    refine ⟨l.row_maxDate rt m hm, fun d hd => ?_⟩
    obtain ⟨m', hm', hle⟩ := l.le_maxDate rt d hd
    rw [hm] at hm'
    cases hm'
    exact hle
  · intro hmax
    obtain ⟨m', hm', hle⟩ := l.le_maxDate rt m hmax.1
    have hle' : m' ≤ m := hmax.2 (l.row_maxDate rt m' hm')
    rw [hm', le_antisymm hle' hle]

theorem Ledger.maxDate_eq_none {l : Ledger} {rt : UUID} :
    l.maxDate rt = none ↔ l.days rt = ∅ := by
  constructor
  · intro hnone
    refine Set.eq_empty_of_forall_notMem fun d hd => ?_
    obtain ⟨m, hm, -⟩ := l.le_maxDate rt d hd
    rw [hnone] at hm
    cases hm
  · intro hempty
    cases hm : l.maxDate rt with
    | none => rfl
    | some m =>
      have hmem : m ∈ l.days rt := l.row_maxDate rt m hm
      rw [hempty] at hmem
      exact hmem.elim

theorem Ledger.days_upsert (l : Ledger) (rt : UUID) (dates : List ℤ) (fresh : OpenPms.Counts)
    (refresh : OpenPms.Counts → OpenPms.Counts) (r : UUID) :
    (l.upsert rt dates fresh refresh).days r =
      if r = rt then l.days r ∪ {d | d ∈ dates} else l.days r := by
  ext d
  rw [mem_days, upsert_row]
  by_cases hr : r = rt
  · by_cases hd : d ∈ dates
    · simp [hr, hd]
    · simp [hr, hd, mem_days]
  · simp [hr, mem_days]

theorem days_daysBetween (start stop : ℤ) :
    {d | d ∈ daysBetween start stop} = Set.Ico start stop :=
  Set.ext fun _ => mem_daysBetween

/-! One run of the extension -/

/-- The days that a run appends for a room type. -/
def Ledger.appended (l : Ledger) (today : ℤ) (extra : ℕ) (rt : UUID) : Set ℤ :=
  match l.maxDate rt with
  | none => Set.Ico today (today + extra)
  | some last => Set.Ico (last + 1) (last + 1 + extra)

/-- No day that a run appends lies beyond the last day of the calendar. -/
def Db.Extendable (db : Db) (extra : ℕ) (rt : UUID) : Prop :=
  ∀ d ∈ db.ledger.appended db.today extra rt, d ≤ dateMax

theorem extendable_Ico {start : ℤ} {extra : ℕ} (hextra : 0 < extra) :
    (∀ d ∈ Set.Ico start (start + extra), d ≤ dateMax) ↔ start + extra ≤ dateMax + 1 := by
  constructor
  · intro h
    have hlast : start + extra - 1 ≤ dateMax := h _ ⟨by omega, by omega⟩
    omega
  · intro h d hd
    have hlt : d < start + extra := hd.2
    omega

theorem Ledger.appended_congr {l l' : Ledger} {today : ℤ} {extra : ℕ} {rt : UUID}
    (h : l'.days rt = l.days rt) : l'.appended today extra rt = l.appended today extra rt := by
  have hmax : l'.maxDate rt = l.maxDate rt := by
    refine maxDate_eq fun d => ?_
    have hmem : d ∈ l'.days rt ↔ d ∈ l.days rt := by rw [h]
    rw [mem_days, mem_days, ← Bool.eq_iff_iff] at hmem
    exact hmem
  unfold appended
  rw [hmax]

/-- Seeding of days that have no row. -/
theorem exec_seedYearForward (rt : UUID) (total : ℤ) (start : Option ℤ) (horizon : ℕ) (db : Db)
    (hfree : ∀ d ∈ daysBetween (start.getD db.today) (start.getD db.today + horizon),
      d ∉ db.ledger.days rt) (hmax : start.getD db.today + horizon ≤ dateMax + 1) :
    (seedEmptyAvailabilityLedgerYearForward rt total start horizon).exec db = (.ok (),
      { db with
        ledger := db.ledger.upsert rt
          (daysBetween (start.getD db.today) (start.getD db.today + horizon))
          ⟨total, 0, 0⟩ id }) := by
  have hclash : ((daysBetween (start.getD db.today) (start.getD db.today + horizon)).any
      fun d => (db.ledger.row rt d).isSome) = false := by
    rw [List.any_eq_false]
    exact hfree
  unfold seedEmptyAvailabilityLedgerYearForward
  simp only [exec_bind, exec_select, exec_raiseIf, not_lt.mpr hmax, if_false, hclash, exec_modify]
  rfl

/-- A room type whose days end within the calendar gets them, and no other row is added. -/
theorem exec_extendRoomType {rt : UUID} {extra : ℕ} {db : Db} (hextra : 0 < extra)
    (hdays : db.Extendable extra rt) :
    ∃ n l, (extendRoomType rt extra).exec db = (.ok n, { db with ledger := l }) ∧
      ∀ r, l.days r = if r = rt then db.ledger.days r ∪ db.ledger.appended db.today extra r
        else db.ledger.days r := by
  have hupsert : ∀ start : ℤ, ∀ fresh : Counts, ∀ r,
      db.ledger.appended db.today extra rt = Set.Ico start (start + extra) →
      (db.ledger.upsert rt (daysBetween start (start + extra)) fresh id).days r =
        if r = rt then db.ledger.days r ∪ db.ledger.appended db.today extra r
        else db.ledger.days r := by
    intro start fresh r happ
    rw [Ledger.days_upsert, days_daysBetween]
    by_cases hr : r = rt
    · rw [if_pos hr, if_pos hr, hr, happ]
    · rw [if_neg hr, if_neg hr]
  cases hmax : db.ledger.maxDate rt with
  | none =>
    have hempty := Ledger.maxDate_eq_none.mp hmax
    have happ : db.ledger.appended db.today extra rt = Set.Ico db.today (db.today + extra) := by
      simp only [Ledger.appended, hmax]
    have hlast : db.today + extra ≤ dateMax + 1 := by
      rw [Db.Extendable, happ] at hdays
      exact (extendable_Ico hextra).mp hdays
    have hseed := exec_seedYearForward rt (countRoomsForRoomType rt db) none extra db (by
      intro d _ hd
      rw [hempty] at hd
      exact hd) hlast
    refine ⟨extra, _, ?_, fun r => hupsert db.today ⟨countRoomsForRoomType rt db, 0, 0⟩ r happ⟩
    unfold extendRoomType
    simp only [exec_bind, exec_select, hmax, hseed, exec_pure]
    rfl
  | some last =>
    have happ : db.ledger.appended db.today extra rt = Set.Ico (last + 1) (last + 1 + extra) := by
      simp only [Ledger.appended, hmax]
    have hlast : ¬ dateMax < last + extra := by
      rw [Db.Extendable, happ, extendable_Ico hextra] at hdays
      omega
    refine ⟨((daysBetween (last + 1) (last + 1 + extra)).filter
      fun d => db.ledger.row rt d = none).length, _, ?_,
      fun r => hupsert (last + 1) ⟨countRoomsForRoomType rt db, 0, 0⟩ r happ⟩
    unfold extendRoomType
    simp only [exec_bind, exec_select, hmax, exec_raiseIf, hlast, if_false, exec_modify, exec_pure]

/-- Otherwise the date arithmetic overflows before the first row. -/
theorem exec_extendRoomType_overflow {rt : UUID} {extra : ℕ} {db : Db} (hextra : 0 < extra)
    (hdays : ¬ db.Extendable extra rt) :
    (extendRoomType rt extra).exec db = (.error .overflowError, db) := by
  cases hmax : db.ledger.maxDate rt with
  | none =>
    have happ : db.ledger.appended db.today extra rt = Set.Ico db.today (db.today + extra) := by
      simp only [Ledger.appended, hmax]
    have hlast : dateMax + 1 < db.today + extra := by
      rw [Db.Extendable, happ, extendable_Ico hextra] at hdays
      omega
    unfold extendRoomType
    simp only [exec_bind, exec_select, hmax, seedEmptyAvailabilityLedgerYearForward,
      Option.getD_none, exec_raiseIf, hlast, if_true]
  | some last =>
    have happ : db.ledger.appended db.today extra rt = Set.Ico (last + 1) (last + 1 + extra) := by
      simp only [Ledger.appended, hmax]
    have hlast : dateMax < last + extra := by
      rw [Db.Extendable, happ, extendable_Ico hextra] at hdays
      omega
    unfold extendRoomType
    simp only [exec_bind, exec_select, hmax, exec_raiseIf, hlast, if_true]

/-- The days of the others are not those of the first room type. -/
theorem extendable_rest {extra : ℕ} {db : Db} {l : Ledger} {rt r : UUID} (hr : r ≠ rt)
    (hdays : ∀ r, l.days r = if r = rt then db.ledger.days r ∪ db.ledger.appended db.today extra r
      else db.ledger.days r) :
    ({ db with ledger := l } : Db).Extendable extra r ↔ db.Extendable extra r := by
  have hsame : l.days r = db.ledger.days r := by rw [hdays r, if_neg hr]
  unfold Db.Extendable
  rw [Ledger.appended_congr hsame]

/-- Room types are extended one after the other, each from its own last day. -/
theorem exec_extendRoomTypes {types : List RoomType} (hnodup : (types.map (·.id)).Nodup)
    {extra : ℕ} (hextra : 0 < extra) {db : Db} (hall : ∀ t ∈ types, db.Extendable extra t.id) :
    ∃ n l, (extendRoomTypes extra types).exec db = (.ok n, { db with ledger := l }) ∧
      ∀ r, l.days r = if r ∈ types.map (·.id)
        then db.ledger.days r ∪ db.ledger.appended db.today extra r else db.ledger.days r := by
  induction types generalizing db with
  | nil => exact ⟨0, db.ledger, rfl, fun r => by simp⟩
  | cons t rest ih =>
    rw [List.map_cons, List.nodup_cons] at hnodup
    obtain ⟨n, l, hfst, hdays⟩ := exec_extendRoomType hextra (hall t (List.mem_cons_self ..))
    have hothers : ∀ t' ∈ rest, ({ db with ledger := l } : Db).Extendable extra t'.id := by
      intro t' ht'
      have hne : t'.id ≠ t.id := fun heq => hnodup.1 (heq ▸ List.mem_map_of_mem ht')
      exact (extendable_rest hne hdays).mpr (hall t' (List.mem_cons_of_mem _ ht'))
    obtain ⟨n', l', hrest, hdays'⟩ := ih hnodup.2 hothers
    refine ⟨n + n', l', ?_, ?_⟩
    · unfold extendRoomTypes
      simp only [exec_bind, hfst, hrest, exec_pure]
    · intro r
      rw [hdays' r, List.map_cons]
      by_cases hr : r = t.id
      · have hnot : r ∉ rest.map (·.id) := hr ▸ hnodup.1
        rw [if_neg hnot, hdays r, if_pos hr, if_pos (hr ▸ List.mem_cons_self ..)]
      · have hsame : l.days r = db.ledger.days r := by rw [hdays r, if_neg hr]
        by_cases hmem : r ∈ rest.map (·.id)
        · rw [if_pos hmem, if_pos (List.mem_cons_of_mem _ hmem)]
          dsimp only
          rw [hsame, Ledger.appended_congr hsame]
        · rw [if_neg hmem, if_neg (by simp [hr, hmem])]
          exact hsame

/-- One room type whose days overflow ends the run. -/
theorem exec_extendRoomTypes_overflow {types : List RoomType} (hnodup : (types.map (·.id)).Nodup)
    {extra : ℕ} (hextra : 0 < extra) {db : Db} (hsome : ∃ t ∈ types, ¬ db.Extendable extra t.id) :
    ∃ db', (extendRoomTypes extra types).exec db = (.error .overflowError, db') := by
  induction types generalizing db with
  | nil =>
    obtain ⟨t, ht, -⟩ := hsome
    exact absurd ht List.not_mem_nil
  | cons t rest ih =>
    rw [List.map_cons, List.nodup_cons] at hnodup
    unfold extendRoomTypes
    by_cases hfirst : db.Extendable extra t.id
    · obtain ⟨n, l, hfst, hdays⟩ := exec_extendRoomType hextra hfirst
      have hothers : ∃ t' ∈ rest, ¬ ({ db with ledger := l } : Db).Extendable extra t'.id := by
        obtain ⟨t', ht', hover⟩ := hsome
        rcases List.mem_cons.mp ht' with rfl | hrest
        · exact absurd hfirst hover
        · have hne : t'.id ≠ t.id := fun heq => hnodup.1 (heq ▸ List.mem_map_of_mem hrest)
          exact ⟨t', hrest, fun h => hover ((extendable_rest hne hdays).mp h)⟩
      obtain ⟨db', hover⟩ := ih hnodup.2 hothers
      exact ⟨db', by simp only [exec_bind, hfst, hover]⟩
    · exact ⟨db, by simp only [exec_bind, exec_extendRoomType_overflow hextra hfirst]⟩

/-- No room type of the tenant gets a day beyond the calendar. -/
def Db.WithinCalendar (db : Db) (extra : ℤ) : Prop :=
  ∀ t ∈ db.roomTypes.rows, db.Extendable extra.toNat t.id

theorem extendLedger_eq {extra : ℤ} (hextra : 1 ≤ extra) (db : Db) :
    (extendAvailabilityLedgerDays extra).exec db =
      (extendRoomTypes extra.toNat db.roomTypes.rows).exec db := by
  have hlt : ¬ extra < 1 := by omega
  unfold extendAvailabilityLedgerDays
  rw [if_neg hlt, exec_bind, exec_select]

theorem extendLedger_overflow {extra : ℤ} (hextra : 1 ≤ extra) {db : Db}
    (hall : ¬ db.WithinCalendar extra) :
    ∃ db', (extendAvailabilityLedgerDays extra).exec db = (.error .overflowError, db') := by
  unfold Db.WithinCalendar at hall
  push Not at hall
  rw [extendLedger_eq hextra]
  exact exec_extendRoomTypes_overflow db.roomTypes.nodup (by omega) hall

/-- The run appends to every room type of the tenant. -/
theorem exec_extendLedger {extra : ℤ} (hextra : 1 ≤ extra) {db : Db}
    (hall : db.WithinCalendar extra) :
    ∃ n l, (extendAvailabilityLedgerDays extra).exec db = (.ok n, { db with ledger := l }) ∧
      ∀ r, l.days r = if r ∈ db.roomTypes.rows.map (·.id)
        then db.ledger.days r ∪ db.ledger.appended db.today extra.toNat r
        else db.ledger.days r := by
  rw [extendLedger_eq hextra]
  exact exec_extendRoomTypes db.roomTypes.nodup (by omega) hall

/-! What a run leaves -/

/-- The room type has a row for every day from today up to its largest ledger date,
which is not before today. -/
def Db.SeededAhead (db : Db) (rt : UUID) : Prop :=
  ∃ m, db.ledger.maxDate rt = some m ∧ db.today ≤ m ∧
    ∀ d, db.today ≤ d → d ≤ m → (db.ledger.row rt d).isSome

theorem Db.seededAhead_iff {db : Db} {rt : UUID} :
    db.SeededAhead rt ↔
      NoGapFrom db.today (db.ledger.days rt) ∧
        ∃ m, IsGreatest (db.ledger.days rt) m ∧ db.today ≤ m := by
  constructor
  · rintro ⟨m, hm, htoday, hrows⟩
    have hmax := Ledger.maxDate_eq_some.mp hm
    exact ⟨fun d e hd hde he => hrows d hd (hde.trans (hmax.2 he)), m, hmax, htoday⟩
  · rintro ⟨hgap, m, hmax, htoday⟩
    exact ⟨m, Ledger.maxDate_eq_some.mpr hmax, htoday,
      fun d hd hdm => hgap d m hd hdm hmax.1⟩

/-- From today on the rows have no gap, and the run comes no later than `extra` days
after the last of them. -/
structure Db.Extensible (db : Db) (extra : ℤ) (rt : UUID) : Prop where
  noGap : NoGapFrom db.today (db.ledger.days rt)
  timely : ∀ m, db.ledger.maxDate rt = some m → db.today ≤ m + extra

/-- Exactly then the appended days leave the room type without a hole. -/
theorem seededAhead_appended {extra : ℤ} (hextra : 1 ≤ extra) {db : Db} {l : Ledger} {rt : UUID}
    (hdays : l.days rt = db.ledger.days rt ∪ db.ledger.appended db.today extra.toNat rt) :
    ({ db with ledger := l } : Db).SeededAhead rt ↔ db.Extensible extra rt := by
  have hcast : ((extra.toNat : ℕ) : ℤ) = extra := Int.toNat_of_nonneg (by omega)
  rw [Db.seededAhead_iff]
  dsimp only
  rw [hdays]
  cases hmax : db.ledger.maxDate rt with
  | none =>
    have hempty := Ledger.maxDate_eq_none.mp hmax
    have happ : db.ledger.appended db.today extra.toNat rt =
        Set.Ico db.today (db.today + extra) := by
      simp only [Ledger.appended, hmax, hcast]
    rw [happ, hempty, Set.empty_union]
    constructor
    · intro _
      refine ⟨hempty ▸ noGapFrom_empty _, fun m hm => ?_⟩
      rw [hmax] at hm
      cases hm
    · intro _
      exact ⟨noGapFrom_Ico _ _, _, isGreatest_Ico (by omega), by omega⟩
  | some last =>
    have hlast := Ledger.maxDate_eq_some.mp hmax
    have happ : db.ledger.appended db.today extra.toNat rt =
        Set.Ico (last + 1) (last + 1 + extra) := by
      simp only [Ledger.appended, hmax, hcast]
    have hgreatest := isGreatest_append (n := last + 1 + extra) hlast (by omega)
    rw [happ, noGapFrom_append hlast]
    constructor
    · rintro ⟨hgap, m, hm, htoday⟩
      have hmeq := hgreatest.unique hm
      refine ⟨hgap, fun m' hm' => ?_⟩
      rw [hmax] at hm'
      cases hm'
      omega
    · intro h
      have htimely := h.timely last hmax
      exact ⟨h.noGap, _, hgreatest, by omega⟩

/-- The run leaves no hole exactly where the room type could be extended. -/
theorem extendLedger_leaves {extra : ℤ} (hextra : 1 ≤ extra) {db : Db}
    (hall : db.WithinCalendar extra) :
    ∃ n l, (extendAvailabilityLedgerDays extra).exec db = (.ok n, { db with ledger := l }) ∧
      ∀ t ∈ db.roomTypes.rows,
        ({ db with ledger := l } : Db).SeededAhead t.id ↔ db.Extensible extra t.id := by
  obtain ⟨n, l, hexec, hdays⟩ := exec_extendLedger hextra hall
  refine ⟨n, l, hexec, fun t ht => seededAhead_appended hextra ?_⟩
  rw [hdays t.id, if_pos (List.mem_map_of_mem ht)]

/-! Bookings in the horizon -/

def Err.IsNotSeeded : Err → Prop
  | .ledgerNotSeeded _ => True
  | _ => False

theorem claim_seeded {rt : UUID} {nights : List ℤ} (hnodup : nights.Nodup) :
    RaisesFrom (fun db => ∀ d ∈ nights, (db.ledger.row rt d).isSome) (¬ ·.IsNotSeeded)
      (claimAvailabilityForNewBooking rt nights 1) := by
  intro db e db' hrows h
  have hseeded : (selectLedger rt nights db).length = nights.dedup.length := by
    have hall : ∀ d ∈ sortedDates nights, (db.ledger.row rt d).isSome = true := by
      intro d hd
      exact hrows d (mem_sortedDates.mp hd)
    rw [← List.length_map (·.date), map_date_selectLedger, List.filter_eq_self.mpr hall,
      sortedDates, List.length_insertionSort]
  have hlen : nights.dedup.length = nights.length := by rw [hnodup.dedup]
  unfold claimAvailabilityForNewBooking at h
  split at h
  · cases h
  · simp only [exec_bind, exec_raiseIf, exec_select, hlen, hseeded, ne_eq, not_true_eq_false,
      if_false, exec_selectLedgerForUpdate, exec_incrementBookedRooms] at h
    split at h
    · cases h
      exact id
    · cases h

/-- A stay whose nights all have rows is never refused for a missing one. -/
theorem createBooking_seeded (env : Env) (body : BookingCreateRequest) :
    RaisesFrom (fun db => ∀ d ∈ daysBetween body.checkIn body.checkOut,
      (db.ledger.row body.roomTypeId d).isSome) (¬ ·.IsNotSeeded) (createBooking env body) := by
  have hnights : ∀ {checkIn checkOut : ℤ}, Keeps Db.ledger (stayNights checkIn checkOut) :=
    keeps_ofExcept _
  have hsum : Keeps Db.ledger (sumRatesForStay body.roomTypeId body.ratePlanId body.checkIn
      body.checkOut) :=
    keeps_bind hnights fun _ => keeps_bind (keeps_select _) fun _ =>
      keeps_bind (keeps_raiseIf _) fun _ => keeps_pure _
  have hinsert : ∀ b rt perNight description,
      Raises (¬ ·.IsNotSeeded) (insertBooking env b rt perNight description) := by
    intro b rt perNight description db e db' h hseeded
    refine unhandled_insertBooking db e db' h ?_
    cases e with
    | ledgerNotSeeded message => trivial
    | _ => exact hseeded.elim
  let C : Ledger → Prop := fun l =>
    ∀ d ∈ daysBetween body.checkIn body.checkOut, (l.row body.roomTypeId d).isSome
  have hclaim : ∀ {γ : Type} {f : Unit → Tx γ}, (∀ u, Raises (¬ ·.IsNotSeeded) (f u)) →
      RaisesFrom (fun db => C db.ledger) (¬ ·.IsNotSeeded)
        (claimAvailabilityForNewBooking body.roomTypeId
          (daysBetween body.checkIn body.checkOut) 1 >>= f) := fun hf =>
    raisesFrom_bind (J := fun _ _ => True) (claim_seeded (nodup_daysBetween _ _))
      (fun _ _ _ _ _ => trivial) fun u => (hf u).from
  refine raisesFrom_bind (J := fun nights db => nights = daysBetween body.checkIn body.checkOut ∧
      C db.ledger) (raises_stayNights fun _ => id).from ?_ fun nights => ?_
  · intro db nights db' hrows h
    obtain ⟨hiter, rfl⟩ := exec_stayNights_ok.mp h
    exact ⟨(iterStayNights_ok hiter).2.2, hrows⟩
  · by_cases hnights : nights = daysBetween body.checkIn body.checkOut
    · subst hnights
      refine RaisesFrom.mono (I := fun db => C db.ledger) ?_ fun _ hJ => hJ.2
      refine raisesFrom_keeps_bind (raises_select _) (keeps_select _) fun _ =>
        raisesFrom_keeps_bind (raises_raiseIf id) (keeps_raiseIf _) fun _ => ?_
      refine raisesFrom_keeps_bind
        (raises_bind (raises_select _) fun _ => raises_raiseIf id)
        (keeps_bind (keeps_select _) fun _ => keeps_raiseIf _) fun _ => ?_
      refine raisesFrom_keeps_bind
        (raises_bind (raises_select _) fun _ => raises_raiseIf id)
        (keeps_bind (keeps_select _) fun _ => keeps_raiseIf _) fun _ => ?_
      refine raisesFrom_keeps_bind (raises_sumRates (fun _ => id) fun _ => id) hsum
        fun priced => ?_
      exact hclaim fun _ => raises_bind (raises_getOrCreateGuest id fun _ => id) fun _ =>
        raises_bind (hinsert _ _ _ _) fun _ => raises_pure _
    · exact fun db e db' hJ _ => absurd hJ.1 hnights

/-! Histories -/

/-- The days that a bulk seed asks for. -/
def BulkAvailabilityLedgerSeedRequest.days (body : BulkAvailabilityLedgerSeedRequest)
    (rt : UUID) : Set ℤ :=
  {d | ∃ seg ∈ body.segments, seg.roomTypeId = rt ∧ seg.startDate ≤ d ∧ d ≤ seg.endDate}

/-- Room-type creation, bulk seeds, runs of the extension and the passing of time. -/
def Op.Seeding : Op → Prop
  | .createRoomType _ _ => True
  | .bulkSeed _ => True
  | .extendLedger _ => True
  | .administer _ _ => True
  | .pass _ => True
  | _ => False

/-- The days of a bulk seed and those that are there leave no gap from today on. -/
def Op.Joins (op : Op) (db : Db) : Prop :=
  ∀ body, op = .bulkSeed body → ∀ rt, NoGapFrom db.today (db.ledger.days rt ∪ body.days rt)

def joiningOp (op : Op) (db : Db) : Prop := op.Seeding ∧ op.Joins db

/-- Only room types of the tenant have rows, and from today on without a gap. -/
structure Db.Gapless (db : Db) : Prop where
  typed : ∀ rt d, d ∈ db.ledger.days rt → (db.roomTypes.find rt).isSome
  noGap : ∀ rt, NoGapFrom db.today (db.ledger.days rt)

section Step
variable {db db' : Db}

theorem createRoomType_gapless {env : Env} {data : RoomTypeCreate} {t : RoomType}
    (hI : db.Gapless) (h : (createRoomType env data).exec db = (.ok t, db')) : db'.Gapless := by
  simp only [createRoomType, exec_bind_ok, exec_select, exec_raiseIf_ok, exec_modify, exec_pure,
    Prod.mk.injEq, Except.ok.injEq, not_not] at h
  obtain ⟨_, _, ⟨rfl, rfl⟩, _, _, ⟨-, rfl⟩, _, _, ⟨rfl, rfl⟩, _, _, ⟨hfresh, rfl⟩, _, _, ⟨-, rfl⟩,
    _, _, ⟨rfl, rfl⟩, _, _, hseed, -, rfl⟩ := h
  obtain ⟨-, rfl⟩ := exec_seedYearForward_ok hseed
  have hempty : db.ledger.days env.roomTypeId = ∅ := by
    refine Set.eq_empty_of_forall_notMem fun d hd => ?_
    have hsome := hI.typed env.roomTypeId d hd
    rw [hfresh] at hsome
    cases hsome
  constructor
  · intro rt d hd
    dsimp only at hd ⊢
    rw [Ledger.days_upsert] at hd
    by_cases hrt : rt = env.roomTypeId
    · subst hrt
      exact Option.isSome_of_eq_some (Table.find_insert_self hfresh)
    · rw [if_neg hrt] at hd
      obtain ⟨v, hv⟩ := Option.isSome_iff_exists.mp (hI.typed rt d hd)
      exact Option.isSome_of_eq_some (Table.find_insert_of_some hfresh hv)
  · intro rt
    dsimp only
    rw [Ledger.days_upsert, days_daysBetween]
    by_cases hrt : rt = env.roomTypeId
    · rw [if_pos hrt, hrt, hempty, Set.empty_union]
      exact noGapFrom_Ico _ _
    · rw [if_neg hrt]
      exact hI.noGap rt

theorem exec_seedRows_found {segments : List AvailabilityLedgerSeedSegment} {rows : List SeedRow}
    (h : (seedRows segments).exec db = (.ok rows, db')) {seg : AvailabilityLedgerSeedSegment}
    (hseg : seg ∈ segments) : (db.roomTypes.find seg.roomTypeId).isSome := by
  induction segments generalizing rows db' with
  | nil => exact absurd hseg List.not_mem_nil
  | cons first rest ih =>
    simp only [seedRows, exec_bind_ok, exec_select, exec_raiseIf_ok, exec_pure, Prod.mk.injEq,
      Except.ok.injEq] at h
    obtain ⟨_, _, ⟨rfl, rfl⟩, _, _, ⟨hfound, rfl⟩, _, _, ⟨rfl, rfl⟩, _, _, ⟨-, rfl⟩, more, _, hmore,
      rfl, -⟩ := h
    rcases List.mem_cons.mp hseg with rfl | hrest
    · exact Option.isSome_iff_ne_none.mpr hfound
    · exact ih hmore hrest

/-- A bulk seed adds the days it asks for, to room types that exist. -/
theorem exec_bulkSeed_days {body : BulkAvailabilityLedgerSeedRequest} {n : ℕ}
    (h : (bulkSeedAvailabilityLedger body).exec db = (.ok n, db')) :
    ∃ l, db' = { db with ledger := l } ∧ (∀ rt, l.days rt = db.ledger.days rt ∪ body.days rt) ∧
      ∀ rt d, d ∈ body.days rt → (db.roomTypes.find rt).isSome := by
  simp only [bulkSeedAvailabilityLedger, exec_bind_ok, exec_modify, exec_pure,
    Prod.mk.injEq] at h
  obtain ⟨rows, _, hrows, _, _, ⟨-, rfl⟩, -, rfl⟩ := h
  obtain ⟨rfl, htotals⟩ := exec_seedRows_ok hrows
  refine ⟨db.ledger.seedAll rows, upsertSeedRows_eq rows db, ?_, ?_⟩
  · intro rt
    ext d
    rw [Ledger.mem_days, seedAll_row (fun rt => (countRoomsForRoomType rt db : ℤ)) htotals]
    have hkeys := exec_seedRows_keys hrows rt d
    by_cases hrow : ∃ row ∈ rows, row.roomTypeId = rt ∧ row.date = d
    · rw [if_pos hrow]
      exact ⟨fun _ => .inr (hkeys.mp hrow), fun _ => rfl⟩
    · rw [if_neg hrow]
      exact ⟨.inl, fun hd => hd.resolve_right fun hseg => hrow (hkeys.mpr hseg)⟩
  · rintro rt d ⟨seg, hseg, rfl, -⟩
    exact exec_seedRows_found hrows hseg

theorem extendLedger_gapless {extra : ℤ} {n : ℕ} (hI : db.Gapless)
    (h : (extendAvailabilityLedgerDays extra).exec db = (.ok n, db')) : db'.Gapless := by
  by_cases hextra : 1 ≤ extra
  · have hall : db.WithinCalendar extra := by
      by_contra hnot
      obtain ⟨_, hover⟩ := extendLedger_overflow hextra hnot
      rw [h] at hover
      cases hover
    obtain ⟨n', l, hexec, hdays⟩ := exec_extendLedger hextra hall
    rw [h] at hexec
    obtain ⟨-, rfl⟩ := Prod.mk.inj hexec
    constructor
    · intro rt d hd
      dsimp only at hd ⊢
      rw [hdays rt] at hd
      by_cases hmem : rt ∈ db.roomTypes.rows.map (·.id)
      · obtain ⟨t, ht, rfl⟩ := List.mem_map.mp hmem
        exact Option.isSome_of_eq_some (Table.find_of_mem ht)
      · rw [if_neg hmem] at hd
        exact hI.typed rt d hd
    · intro rt
      dsimp only
      rw [hdays rt]
      split
      · cases hmax : db.ledger.maxDate rt with
        | none =>
          rw [Ledger.maxDate_eq_none.mp hmax, Set.empty_union]
          simp only [Ledger.appended, hmax]
          exact noGapFrom_Ico _ _
        | some last =>
          simp only [Ledger.appended, hmax]
          exact (noGapFrom_append (Ledger.maxDate_eq_some.mp hmax)).mpr (hI.noGap rt)
      · exact hI.noGap rt
  · unfold extendAvailabilityLedgerDays at h
    rw [if_pos (by omega)] at h
    cases h
    exact hI

/-- Each operation of a history whose bulk seeds join leaves no gap. -/
theorem Op.gapless {op : Op} {u : Unit} (hadm : joiningOp op db) (hI : db.Gapless)
    (h : op.prog.exec db = (.ok u, db')) : db'.Gapless := by
  obtain ⟨hseeding, hjoins⟩ := hadm
  cases op with
  | createRoomType env data =>
    obtain ⟨_, hexec⟩ := exec_discard h
    exact createRoomType_gapless hI hexec
  | bulkSeed body =>
    obtain ⟨_, hexec⟩ := exec_discard h
    obtain ⟨l, rfl, hdays, hfound⟩ := exec_bulkSeed_days hexec
    refine ⟨fun rt d hd => ?_, fun rt => ?_⟩
    · rcases (hdays rt ▸ hd : d ∈ db.ledger.days rt ∪ body.days rt) with hold | hnew
      · exact hI.typed rt d hold
      · exact hfound rt d hnew
    · dsimp only
      rw [hdays rt]
      exact hjoins body rfl rt
  | extendLedger extra =>
    obtain ⟨_, hexec⟩ := exec_discard h
    exact extendLedger_gapless hI hexec
  | administer f hf =>
    cases h
    have hledger : (f db).ledger = db.ledger := congrArg Hotel.ledger (hf db)
    have htypes : (f db).roomTypes = db.roomTypes := congrArg Hotel.roomTypes (hf db)
    have htoday : (f db).today = db.today := congrArg Hotel.today (hf db)
    refine ⟨fun rt d hd => ?_, fun rt => ?_⟩
    · rw [htypes]
      exact hI.typed rt d (hledger ▸ hd)
    · rw [hledger, htoday]
      exact hI.noGap rt
  | pass days =>
    cases h
    exact ⟨hI.typed, fun rt => (hI.noGap rt).mono (by dsimp only; omega)⟩
  | _ => exact hseeding.elim

end Step

theorem Reachable.gapless {db : Db} (h : Reachable joiningOp db) : db.Gapless := by
  induction h with
  | empty today =>
    have hempty : ∀ rt, (Db.empty today).ledger.days rt = ∅ := fun rt =>
      Ledger.maxDate_eq_none.mp rfl
    refine ⟨fun rt d hd => ?_, fun rt => ?_⟩
    · rw [hempty rt] at hd
      exact hd.elim
    · rw [hempty rt]
      exact noGapFrom_empty _
  | @tail db op _ hadm ih =>
    rcases hexec : op.prog.exec db with ⟨e | u, db₁⟩
    · rw [transact_error hexec]
      exact ih
    · rw [transact_ok hexec]
      exact op.gapless hadm ih hexec

/-- A run with `1 ≤ extra` returns exactly if it appends no day beyond the calendar, and
raises an overflow otherwise. Right after it a room type of the tenant has a row for every day
from today up to its largest date, which is not before today, exactly if its rows had no gap
from today on and the run came no later than `extra` days after the largest date. Every history
whose bulk seeds leave no gap has the first of these, and nights between today and the largest
date are then never refused as not seeded. -/
theorem ledger_without_holes {extra : ℤ} (hextra : 1 ≤ extra) (db : Db) :
    (¬ db.WithinCalendar extra →
      ∃ db', (extendAvailabilityLedgerDays extra).exec db = (.error .overflowError, db')) ∧
    (db.WithinCalendar extra →
      ∃ n db', (extendAvailabilityLedgerDays extra).exec db = (.ok n, db') ∧
      db'.today = db.today ∧ db'.roomTypes = db.roomTypes ∧
      (∀ t ∈ db.roomTypes.rows, db'.SeededAhead t.id ↔ db.Extensible extra t.id) ∧
      (Reachable joiningOp db →
        (∀ t ∈ db.roomTypes.rows, ∀ m, db.ledger.maxDate t.id = some m → db.today ≤ m + extra) →
        ∀ t ∈ db.roomTypes.rows, db'.SeededAhead t.id) ∧
      ∀ (env : Env) (body : BookingCreateRequest) (m : ℤ), db'.SeededAhead body.roomTypeId →
        db'.ledger.maxDate body.roomTypeId = some m →
        db'.today ≤ body.checkIn → body.checkOut ≤ m + 1 →
        ∀ message, ((createBooking env body).exec db').1 ≠ .error (.ledgerNotSeeded message)) := by
  refine ⟨extendLedger_overflow hextra, fun hall => ?_⟩
  obtain ⟨n, l, hexec, hleaves⟩ := extendLedger_leaves hextra hall
  refine ⟨n, _, hexec, rfl, rfl, hleaves, ?_, ?_⟩
  · intro hreach htimely t ht
    exact (hleaves t ht).mpr ⟨hreach.gapless.noGap t.id, htimely t ht⟩
  · intro env body m hahead hm htoday hout message herror
    have hrows : ∀ d ∈ daysBetween body.checkIn body.checkOut,
        (l.row body.roomTypeId d).isSome := by
      intro d hd
      obtain ⟨hin, hlt⟩ := mem_daysBetween.mp hd
      obtain ⟨m', hm', -, hall⟩ := hahead
      rw [hm] at hm'
      cases hm'
      exact hall d (by omega) (by omega)
    exact createBooking_seeded env body _ _ _ hrows (exec_of_fst herror) trivial

/-! A room type is created on the first day, 390 days pass, and a run with 30 days comes -/

namespace Demo

def typeThenPause (days : ℕ) : Db :=
  run (.empty 1) [.administer configure hotel_configure, addType 10, .pass days]

/-- Two days are seeded for day 400, beyond the year of the creation. -/
def farSeed : BulkAvailabilityLedgerSeedRequest where
  segments := [⟨10, 400, 401, by decide⟩]
  segments_ne := by decide
  total_span_le := by decide

def typeThenFarSeed : Db :=
  run (.empty 1) [.administer configure hotel_configure, addType 10, .bulkSeed farSeed]

def extended (db : Db) : Db := ((extendAvailabilityLedgerDays 1).exec db).2

def stayOn (day : ℤ) : BookingCreateRequest :=
  { stay with
    checkIn := day
    checkOut := day + 1
    checkIn_lt := by omega
    span_le := by change day + 1 - day ≤ 365; omega }

end Demo

theorem ledger_without_holes_demo :
    ∃ n db', (extendAvailabilityLedgerDays 30).exec (Demo.typeThenPause 390) = (.ok n, db') ∧
      ∀ t ∈ (Demo.typeThenPause 390).roomTypes.rows, db'.SeededAhead t.id := by
  have hreach : Reachable joiningOp (Demo.typeThenPause 390) := by
    refine reachable_run (.empty 1) fun op hop db => ?_
    simp only [Demo.addType, List.mem_cons, List.not_mem_nil, or_false] at hop
    rcases hop with rfl | rfl | rfl <;> exact ⟨trivial, fun _ hbulk => by cases hbulk⟩
  have htypes : ∀ t ∈ (Demo.typeThenPause 390).roomTypes.rows,
      (Demo.typeThenPause 390).ledger.maxDate t.id = some 365 := by
    decide +kernel
  have htoday : (Demo.typeThenPause 390).today = 391 := by decide +kernel
  have hall : (Demo.typeThenPause 390).WithinCalendar 30 := by
    intro t ht
    have happ : (Demo.typeThenPause 390).ledger.appended 391 30 t.id = Set.Ico 366 396 := by
      simp only [Ledger.appended, htypes t ht]
      rfl
    rw [Db.Extendable, htoday]
    change ∀ d ∈ (Demo.typeThenPause 390).ledger.appended 391 30 t.id, d ≤ dateMax
    rw [happ]
    intro d hd
    have hlt : d < 396 := hd.2
    have hmax : dateMax = 3652059 := rfl
    omega
  obtain ⟨n, db', hexec, -, -, -, hruns, -⟩ :=
    (ledger_without_holes (by decide : (1 : ℤ) ≤ 30) (Demo.typeThenPause 390)).2 hall
  refine ⟨n, db', hexec, hruns hreach fun t ht m hm => ?_⟩
  rw [htypes t ht] at hm
  cases hm
  omega

theorem not_seededAhead_of_row {db : Db} {rt : UUID} {m d : ℤ} (hm : db.ledger.maxDate rt = some m)
    (hrow : db.ledger.row rt d = none) (htoday : db.today ≤ d) (hle : d ≤ m) :
    ¬ db.SeededAhead rt := by
  rintro ⟨m', hm', -, hrows⟩
  rw [hm] at hm'
  cases hm'
  have hsome := hrows d htoday hle
  rw [hrow] at hsome
  cases hsome

theorem error_of_map {α : Type} {x : Except Err α} {e : Err}
    (h : x.map (fun _ => ()) = .error e) : x = .error e := by
  cases x with
  | error e' => exact congrArg Except.error (Except.error.inj h)
  | ok a => cases h

/-- A seed ahead of the year leaves a hole that no run fills, and after a pause the days
that a run appends lie in the past. -/
theorem ledger_holes :
    Reachable (fun op _ => op.Seeding) Demo.typeThenFarSeed ∧
      ¬ (Demo.extended Demo.typeThenFarSeed).SeededAhead 10 ∧
      ((createBooking (Demo.env 1000 0 0) (Demo.stayOn 380)).exec
        (Demo.extended Demo.typeThenFarSeed)).1 = .error notSeeded ∧
      Reachable (fun op _ => op.Seeding) (Demo.typeThenPause 400) ∧
      ¬ (Demo.extended (Demo.typeThenPause 400)).SeededAhead 10 ∧
      ((createBooking (Demo.env 1000 0 0) (Demo.stayOn 401)).exec
        (Demo.extended (Demo.typeThenPause 400))).1 = .error notSeeded := by
  have hseeding : ∀ op : Op, op = .bulkSeed Demo.farSeed ∨ op = .pass 400 →
      ∀ op' ∈ [Op.administer Demo.configure Demo.hotel_configure, Demo.addType 10, op], op'.Seeding := by
    intro op hop op' hop'
    simp only [Demo.addType, List.mem_cons, List.not_mem_nil, or_false] at hop'
    rcases hop' with rfl | rfl | rfl
    · trivial
    · trivial
    · rcases hop with rfl | rfl <;> trivial
  refine ⟨reachable_run (.empty 1) fun op hop _ => hseeding _ (.inl rfl) op hop,
    not_seededAhead_of_row (m := 402) (d := 380) (by decide +kernel) (by decide +kernel)
      (by decide +kernel) (by decide), error_of_map (by decide +kernel),
    reachable_run (.empty 1) fun op hop _ => hseeding _ (.inr rfl) op hop, ?_,
    error_of_map (by decide +kernel)⟩
  rintro ⟨m, hm, htoday, -⟩
  have hmax : (Demo.extended (Demo.typeThenPause 400)).ledger.maxDate 10 = some 366 := by
    decide +kernel
  have hday : (Demo.extended (Demo.typeThenPause 400)).today = 401 := by decide +kernel
  rw [hmax] at hm
  cases hm
  omega

end OpenPms
