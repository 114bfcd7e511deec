import OpenPms.Database
import OpenPms.Lib.Decimal
import OpenPms.Lib.Tally

/-!
The revenue and KPI reports of a property. Room revenue is the price of the lines of active
bookings by night, the folio is grouped by its local date, and every amount is quantized
again when it is added. The figures are the sums of the stored rows of their days, so a
report of a range is made of those of its parts.
-/
namespace OpenPms.Reports

open Decimals Tally KeyedTable

/-! Amounts -/

/-- What the driver makes of a sum of stored amounts. -/
def money : Money → Decimal
  | ⊤ => .nan
  | (n : ℤ) => .finite (n / 100)

/-- Quantizing by the default rounding. A NaN passes. -/
def q2 : Decimal → Except Signal Decimal
  | .finite x => (quantizeBy halfEven x).map .finite
  | .nan => .ok .nan
  | .infinite _ => .error .invalidOperation

def addQ2 (a b : Decimal) : Except Signal Decimal := do
  let sum ← a.add b
  q2 sum

/-- The text has two places; it is kept as its cents. -/
def moneyStr (v : Decimal) : Except Signal Money := do
  let quantized ← q2 v
  match quantized with
  | .finite x => pure ((cents x : ℤ) : Money)
  | _ => pure ⊤

def zero : Decimal := .finite 0

def pctStr (numerator denominator : ℤ) : Except Signal Money :=
  if denominator = 0 then pure (0 : ℤ)
  else do
    let hundredfold ← Decimal.mul (.finite numerator) (.finite 100)
    let share ← hundredfold.div (.finite denominator)
    moneyStr share

/-! Tables -/

/-- The pages of a table times the rows of a page. -/
def tableRows : ℕ := 2 ^ 32 * 291

/-- `createdAt` is by the id of the folio row, in microseconds. -/
structure ReportsDb extends Db where
  timezone : UUID → String
  currency : UUID → String
  createdAt : UUID → ℤ
  lines_le : (bookings.rows.flatMap (·.lines)).length ≤ tableRows
  folio_le : folio.length ≤ tableRows
  prices_fit : ∀ b ∈ bookings.rows, ∀ ln ∈ b.lines, ln.priceForDate.fits
  amounts_fit : ∀ t ∈ folio, t.amount.fits

/-- The time zone data: the identifiers, and the calendar date of an instant. -/
structure Zones where
  known : String → Bool
  localDate : String → ℤ → ℤ

/-- A grouped query answers in any order. -/
structure GroupOrder where
  arrange : ∀ {γ : Type}, List γ → List γ
  perm : ∀ {γ : Type} (l : List γ), (arrange l).Perm l

inductive ReportsError where
  | reportsService (detail : String) (statusCode : ℕ)
  | signal (s : Signal)
  deriving DecidableEq

def requireProperty (p : UUID) (db : ReportsDb) : Except ReportsError Unit :=
  if p ∈ db.properties then .ok () else .error (.reportsService "property not found" 404)

def propertyZoneinfo (zones : Zones) (p : UUID) (db : ReportsDb) : Except ReportsError String :=
  let tz := Text.strip (db.timezone p)
  if tz = "" then .error (.reportsService "property timezone is empty" 400)
  else if zones.known tz then .ok tz
  else .error (.reportsService ("Invalid IANA timezone for property: " ++ db.timezone p ++
    ". Use a valid identifier such as Europe/Berlin or Asia/Bangkok.") 400)

/-! Queries -/

def activeLines (p : UUID) (db : ReportsDb) : List BookingLine :=
  (db.bookings.rows.filter fun b => b.propertyId = p ∧ b.status.Active).flatMap (·.lines)

def linesBetween (p : UUID) (dateFrom dateTo : ℤ) (db : ReportsDb) : List BookingLine :=
  (activeLines p db).filter fun ln => dateFrom ≤ ln.date ∧ ln.date ≤ dateTo

def occupiedByDate (order : GroupOrder) (p : UUID) (dateFrom dateTo : ℤ) (db : ReportsDb) :
    List (ℤ × ℤ) :=
  order.arrange (groupSums (·.date) (fun _ => 1) (linesBetween p dateFrom dateTo db))

def availableByDate (order : GroupOrder) (p : UUID) (dateFrom dateTo : ℤ) (db : ReportsDb) :
    List (ℤ × ℤ) :=
  order.arrange (groupSums (·.1) (·.2)
    (db.roomTypes.rows.flatMap fun t => if t.propertyId = p then
      (daysBetween dateFrom (dateTo + 1)).filterMap fun d =>
        (db.ledger.row t.id d).map fun c => (d, c.totalRooms - c.blockedRooms)
      else []))

def roomRevenueByDate (order : GroupOrder) (p : UUID) (dateFrom dateTo : ℤ) (db : ReportsDb) :
    Except Signal (List (ℤ × Decimal)) :=
  (order.arrange (groupSums (·.date) (·.priceForDate) (linesBetween p dateFrom dateTo db))).mapM
    fun group => do
      let sum ← q2 (money group.2)
      pure (group.1, sum)

def localDate (zones : Zones) (tz : String) (db : ReportsDb) (t : FolioTransaction) : ℤ :=
  zones.localDate tz (db.createdAt t.id)

/-- The folio rows of the property's bookings. -/
def folioOf (p : UUID) (db : ReportsDb) : List FolioTransaction :=
  db.folio.filter fun t => (db.bookings.find t.bookingId).any (·.propertyId = p)

def folioBetween (zones : Zones) (tz : String) (p : UUID) (dateFrom dateTo : ℤ) (db : ReportsDb) :
    List FolioTransaction :=
  (folioOf p db).filter fun t =>
    dateFrom ≤ localDate zones tz db t ∧ localDate zones tz db t ≤ dateTo

abbrev FolioKey := ℤ × FolioType × String

structure FolioDates where
  other : List ((ℤ × String) × Decimal)
  tax : List (ℤ × Decimal)
  payments : List (ℤ × Decimal)

/-- `table[key] = _q2(table[key] + amount)`, where a key that is missing counts as zero. -/
def tallyQ2 {κ : Type} [DecidableEq κ] (key : κ) (amount : Decimal) :
    List (κ × Decimal) → Except Signal (List (κ × Decimal))
  | [] => do
    let sum ← addQ2 zero amount
    pure [(key, sum)]
  | (key', v) :: rest =>
    if key' = key then do
      let sum ← addQ2 v amount
      pure ((key', sum) :: rest)
    else do
      let rest' ← tallyQ2 key amount rest
      pure ((key', v) :: rest')

def addGroup (dates : FolioDates) (group : FolioKey × Money) : Except Signal FolioDates := do
  let amount ← q2 (money group.2)
  match group.1.2.1 with
  | .payment => do
    let payments ← tallyQ2 group.1.1 amount dates.payments
    pure { dates with payments := payments }
  | .charge =>
    if group.1.2.2 = "tax" then do
      let tax ← tallyQ2 group.1.1 amount dates.tax
      pure { dates with tax := tax }
    else if group.1.2.2 ≠ "room_charge" then do
      let other ← tallyQ2 (group.1.1, group.1.2.2) amount dates.other
      pure { dates with other := other }
    else pure dates

def folioAggregatesByDate (order : GroupOrder) (zones : Zones) (tz : String) (p : UUID)
    (dateFrom dateTo : ℤ) (db : ReportsDb) : Except Signal FolioDates :=
  (order.arrange (groupSums (fun t => (localDate zones tz db t, t.transactionType, t.category))
    (·.amount) (folioBetween zones tz p dateFrom dateTo db))).foldlM addGroup ⟨[], [], []⟩

/-! The revenue report -/

structure RevenueRow where
  date : ℤ
  roomRevenue : Money
  otherCharges : List (String × Money)
  taxTotal : Money
  paymentsTotal : Money

structure RevenueReport where
  propertyId : UUID
  dateFrom : ℤ
  dateTo : ℤ
  currency : String
  rows : List RevenueRow
  roomRevenueTotal : Money
  otherChargesTotal : List (String × Money)
  taxTotal : Money
  paymentsTotal : Money

def getD {κ : Type} [DecidableEq κ] (table : List (κ × Decimal)) (key : κ) : Decimal :=
  ((table.find? fun e => e.1 = key).map (·.2)).getD zero

/-- Sorted by category, as texts. -/
def chargeTexts (charges : List (String × Decimal)) : Except Signal (List (String × Money)) :=
  (sortKeys (· ≤ ·) charges).mapM fun e => do
    let text ← moneyStr e.2
    pure (e.1, text)

structure RevenueTotals where
  room : Decimal
  other : List (String × Decimal)
  tax : Decimal
  payments : Decimal

def chargesOn (other : List ((ℤ × String) × Decimal)) (d : ℤ) : List (String × Decimal) :=
  (other.filter fun e => e.1.1 = d).map fun e => (e.1.2, e.2)

def revenueDays (room : List (ℤ × Decimal)) (folio : FolioDates) :
    List ℤ → RevenueTotals → Except Signal (List RevenueRow × RevenueTotals)
  | [], totals => pure ([], totals)
  | d :: rest, totals => do
    let charges := chargesOn folio.other d
    let roomTotal ← addQ2 totals.room (getD room d)
    let taxTotal ← addQ2 totals.tax (getD folio.tax d)
    let paymentsTotal ← addQ2 totals.payments (getD folio.payments d)
    let otherTotals ← charges.foldlM (fun table e => tallyQ2 e.1 e.2 table) totals.other
    let roomText ← moneyStr (getD room d)
    let chargeTexts ← chargeTexts charges
    let taxText ← moneyStr (getD folio.tax d)
    let paymentsText ← moneyStr (getD folio.payments d)
    let (rows, totals') ← revenueDays room folio rest
      ⟨roomTotal, otherTotals, taxTotal, paymentsTotal⟩
    pure (⟨d, roomText, chargeTexts, taxText, paymentsText⟩ :: rows, totals')

def revenueFigures (order : GroupOrder) (zones : Zones) (tz : String) (p : UUID)
    (dateFrom dateTo : ℤ) (db : ReportsDb) : Except Signal RevenueReport := do
  let room ← roomRevenueByDate order p dateFrom dateTo db
  let folio ← folioAggregatesByDate order zones tz p dateFrom dateTo db
  let (rows, totals) ← revenueDays room folio (daysBetween dateFrom (dateTo + 1))
    ⟨zero, [], zero, zero⟩
  let roomText ← moneyStr totals.room
  let otherTexts ← chargeTexts totals.other
  let taxText ← moneyStr totals.tax
  let paymentsText ← moneyStr totals.payments
  pure ⟨p, dateFrom, dateTo, db.currency p, rows, roomText, otherTexts, taxText, paymentsText⟩

def getRevenueReport (order : GroupOrder) (zones : Zones) (p : UUID) (dateFrom dateTo : ℤ)
    (db : ReportsDb) : Except ReportsError RevenueReport := do
  requireProperty p db
  let tz ← propertyZoneinfo zones p db
  (revenueFigures order zones tz p dateFrom dateTo db).mapError .signal

/-! The KPI report -/

structure KpiReport where
  propertyId : UUID
  dateFrom : ℤ
  dateTo : ℤ
  currency : String
  soldNights : ℤ
  availableNights : ℤ
  roomRevenue : Money
  occupancyPct : Money
  adr : Money
  revpar : Money

/-- The revenue for each night, or zero without nights. -/
def perNight (revenue : Decimal) (nights : ℤ) : Except Signal Decimal :=
  if nights = 0 then pure zero
  else do
    let share ← revenue.div (.finite nights)
    q2 share

def kpiFigures (order : GroupOrder) (p : UUID) (dateFrom dateTo : ℤ) (db : ReportsDb) :
    Except Signal KpiReport := do
  let room ← roomRevenueByDate order p dateFrom dateTo db
  let occupied := occupiedByDate order p dateFrom dateTo db
  let available := availableByDate order p dateFrom dateTo db
  let days := daysBetween dateFrom (dateTo + 1)
  let roomRevenue ← days.foldlM (fun revenue d => addQ2 revenue (getD room d)) zero
  let soldNights := (days.map (valueAt occupied)).sum
  let availableNights := (days.map (valueAt available)).sum
  let adr ← perNight roomRevenue soldNights
  let revpar ← perNight roomRevenue availableNights
  let roomText ← moneyStr roomRevenue
  let pctText ← pctStr soldNights availableNights
  let adrText ← moneyStr adr
  let revparText ← moneyStr revpar
  pure ⟨p, dateFrom, dateTo, db.currency p, soldNights, availableNights, roomText, pctText,
    adrText, revparText⟩

def getKpiReport (order : GroupOrder) (p : UUID) (dateFrom dateTo : ℤ) (db : ReportsDb) :
    Except ReportsError KpiReport := do
  requireProperty p db
  (kpiFigures order p dateFrom dateTo db).mapError .signal

/-! Exact amounts -/

/-- The cents of an amount, without its sign. -/
def size : Money → ℕ
  | ⊤ => 0
  | (n : ℤ) => n.natAbs

theorem measure_size : Measure size where
  zero := rfl
  add_le := by
    intro a b
    cases a using WithTop.recTopCoe with
    | top => exact Nat.zero_le _
    | coe m =>
      cases b using WithTop.recTopCoe with
      | top => exact Nat.zero_le _
      | coe n => exact Int.natAbs_add_le m n

/-- So many cents are exact. -/
def exactCents : ℕ := 10 ^ 28

theorem money_add (m n : Money) (h : size m + size n ≤ exactCents) :
    (money m).add (money n) = .ok (money (m + n)) := by
  cases m using WithTop.recTopCoe with
  | top => rfl
  | coe m =>
    cases n using WithTop.recTopCoe with
    | top => rfl
    | coe n =>
      have hwhole : Whole ((m : ℚ) / 100 + n / 100) := ⟨m + n, by push_cast; ring⟩
      have hbound : |(m : ℚ) / 100 + n / 100| ≤ 10 ^ 26 := by
        have hint : |m + n| ≤ 10 ^ 28 := by
          have hsize : m.natAbs + n.natAbs ≤ 10 ^ 28 := h
          have hadd := Int.natAbs_add_le m n
          rw [Int.abs_eq_natAbs]
          exact_mod_cast hadd.trans hsize
        have hcast : |((m + n : ℤ) : ℚ)| ≤ 10 ^ 28 := by exact_mod_cast hint
        push_cast at hcast
        rw [abs_le] at hcast ⊢
        exact ⟨by linarith [hcast.1], by linarith [hcast.2]⟩
      have hsum : (m : ℚ) / 100 + n / 100 = ((m + n : ℤ) : ℚ) / 100 := by
        push_cast
        ring
      change (result ((m : ℚ) / 100 + n / 100)).map Decimal.finite = _
      rw [result_whole hwhole hbound, hsum]
      rfl

theorem q2_finite {x : ℚ} {n : ℕ} (h : |x * 100| ≤ n) (hn : n < exactCents) :
    ∃ k : ℤ, q2 (.finite x) = .ok (money k) ∧ k.natAbs ≤ n ∧ k = halfEven (x * 100) := by
  obtain ⟨hlow, hhigh⟩ := abs_le.mp h
  have hbelow : -(n : ℤ) ≤ halfEven (x * 100) := le_halfEven (by push_cast; exact hlow)
  have habove : halfEven (x * 100) ≤ (n : ℤ) := halfEven_le (by push_cast; exact hhigh)
  have hfit : ¬ 10 ^ 28 ≤ |halfEven (x * 100)| := by
    have hcast : (n : ℤ) < 10 ^ 28 := by exact_mod_cast hn
    have habs := abs_le.mpr ⟨hbelow, habove⟩
    omega
  refine ⟨halfEven (x * 100), ?_, by omega, rfl⟩
  change (quantizeBy halfEven x).map Decimal.finite = _
  rw [quantizeBy, if_neg hfit]
  rfl

theorem q2_money {m : Money} (h : size m < exactCents) : q2 (money m) = .ok (money m) := by
  cases m using WithTop.recTopCoe with
  | top => rfl
  | coe n =>
    have hcents : (n : ℚ) / 100 * 100 = n := div_mul_cancel₀ _ (by norm_num)
    have habs : |(n : ℚ) / 100 * 100| ≤ (n.natAbs : ℕ) := by
      rw [hcents, Nat.cast_natAbs, Int.cast_abs]
    obtain ⟨k, hq2, -, hk⟩ := q2_finite habs h
    rw [hcents, halfEven_intCast] at hk
    rw [hk] at hq2
    exact hq2

theorem addQ2_money {m n : Money} (h : size m + size n < exactCents) :
    addQ2 (money m) (money n) = .ok (money (m + n)) := by
  have hadd := measure_size.add_le m n
  unfold addQ2
  rw [money_add m n h.le]
  exact q2_money (by omega)

theorem moneyStr_money {m : Money} (h : size m < exactCents) : moneyStr (money m) = .ok m := by
  unfold moneyStr
  rw [q2_money h]
  cases m using WithTop.recTopCoe with
  | top => rfl
  | coe n => exact congrArg (fun k : ℤ => Except.ok (k : Money)) (cents_whole n)

theorem zero_eq : zero = money 0 := by
  change Decimal.finite 0 = .finite ((0 : ℤ) / 100)
  norm_num

/-! Exact tables -/

/-- A table of amounts as the reports hold it. -/
def decimals {κ : Type} (l : List (κ × Money)) : List (κ × Decimal) :=
  l.map fun e => (e.1, money e.2)

section Tables
variable {κ : Type} [DecidableEq κ]

theorem getD_decimals (l : List (κ × Money)) (k : κ) :
    getD (decimals l) k = money (valueAt l k) := by
  unfold getD valueAt decimals
  rw [List.find?_map]
  cases hfind : l.find? ((fun e => decide (e.1 = k)) ∘ fun e => (e.1, money e.2)) with
  | none =>
    have hnone : l.find? (fun e => e.1 = k) = none := hfind
    rw [hnone]
    exact zero_eq
  | some e =>
    have hsome : l.find? (fun e => e.1 = k) = some e := hfind
    rw [hsome]
    rfl

theorem tallyQ2_decimals {k : κ} {m : Money} {l : List (κ × Money)}
    (h : size m + sizes size l < exactCents) :
    tallyQ2 k (money m) (decimals l) = .ok (decimals (tally k m l)) := by
  induction l with
  | nil =>
    have hsize : size 0 + size m < exactCents := by
      change 0 + size m < exactCents
      simp only [sizes, List.map_nil, List.sum_nil] at h
      omega
    change (do let sum ← addQ2 zero (money m); pure [(k, sum)]) = _
    rw [zero_eq, addQ2_money hsize]
    rfl
  | cons e rest ih =>
    obtain ⟨k', v⟩ := e
    have hsplit : sizes size ((k', v) :: rest) = size v + sizes size rest := rfl
    change (if k' = k then _ else _) = _
    unfold tally
    by_cases hk : k' = k
    · have hsum : size v + size m < exactCents := by omega
      rw [if_pos hk, if_pos hk, addQ2_money hsum]
      rfl
    · rw [if_neg hk, if_neg hk]
      change (do let rest' ← tallyQ2 k (money m) (decimals rest); pure _) = _
      rw [ih (by omega)]
      rfl

theorem tallyAll_decimals {rows l : List (κ × Money)}
    (h : sizes size rows + sizes size l < exactCents) :
    (decimals rows).foldlM (fun table e => tallyQ2 e.1 e.2 table) (decimals l) =
      .ok (decimals (tallyAll rows l)) := by
  induction rows generalizing l with
  | nil => rfl
  | cons row rest ih =>
    rw [sizes_cons] at h
    have hstep := measure_size.tally_le row.1 row.2 l
    change (tallyQ2 row.1 (money row.2) (decimals l) >>= fun table =>
      (decimals rest).foldlM (fun table e => tallyQ2 e.1 e.2 table) table) = _
    rw [tallyQ2_decimals (by omega)]
    exact ih (by omega)

end Tables

theorem texts_decimals {l : List (String × Money)} (h : sizes size l < exactCents) :
    (decimals l).mapM (fun e => do let text ← moneyStr e.2; pure (e.1, text)) = .ok l := by
  induction l with
  | nil => rfl
  | cons e rest ih =>
    rw [sizes_cons] at h
    have htext : moneyStr (money e.2) = .ok e.2 := moneyStr_money (by omega)
    have hrest := ih (by omega)
    unfold decimals at hrest ⊢
    rw [List.map_cons, List.mapM_cons, hrest, htext]
    rfl

theorem chargeTexts_decimals {l : List (String × Money)} (h : sizes size l < exactCents) :
    chargeTexts (decimals l) = .ok (sortKeys (· ≤ ·) l) := by
  have hsorted : sortKeys (· ≤ ·) (decimals l) = decimals (sortKeys (· ≤ ·) l) :=
    sortKeys_map money l
  unfold chargeTexts
  rw [hsorted]
  exact texts_decimals ((sizes_perm (perm_sortKeys l)).trans_lt h)

/-! Buckets -/

/-- The totals in which the report counts the folio. -/
inductive Bucket where
  | payments
  | tax
  | other (category : String)
  deriving DecidableEq

def bucket : FolioType → String → Option Bucket
  | .payment, _ => some .payments
  | .charge, category =>
    if category = "tax" then some .tax
    else if category = "room_charge" then none
    else some (.other category)

theorem bucket_charge (category : String) : bucket .charge category =
    if category = "tax" then some .tax
    else if category = "room_charge" then none
    else some (.other category) := rfl

theorem bucket_eq_none {type : FolioType} {category : String} :
    bucket type category = none ↔ type = .charge ∧ category = "room_charge" := by
  cases type with
  | payment => simp [bucket]
  | charge =>
    rw [bucket_charge]
    by_cases htax : category = "tax"
    · rw [if_pos htax, htax]
      simp
    · rw [if_neg htax]
      by_cases hroom : category = "room_charge" <;> simp [hroom]

theorem bucket_eq_other {type : FolioType} {category cat : String}
    (h : bucket type category = some (.other cat)) : category = cat := by
  cases type with
  | payment => cases h
  | charge =>
    rw [bucket_charge] at h
    split at h
    · cases h
    · split at h
      · cases h
      · exact Bucket.other.inj (Option.some.inj h)

def otherKey (key : FolioKey) : Prop := bucket key.2.1 key.2.2 = some (.other key.2.2)

instance : DecidablePred otherKey := fun _ => inferInstanceAs (Decidable (_ = _))

/-- The groups of one bucket by date, and the others by date and category. -/
def groupsIn (b : Bucket) (groups : List (FolioKey × Money)) : List (ℤ × Money) :=
  pick (fun key => bucket key.2.1 key.2.2 = some b) (·.1) groups

def otherGroups (groups : List (FolioKey × Money)) : List ((ℤ × String) × Money) :=
  pick otherKey (fun key => (key.1, key.2.2)) groups

theorem addGroup_decimals {o : List ((ℤ × String) × Money)} {t y : List (ℤ × Money)}
    {group : FolioKey × Money} (ho : size group.2 + sizes size o < exactCents)
    (ht : size group.2 + sizes size t < exactCents)
    (hy : size group.2 + sizes size y < exactCents) :
    addGroup ⟨decimals o, decimals t, decimals y⟩ group =
      .ok ⟨decimals (tallyAll (otherGroups [group]) o),
        decimals (tallyAll (groupsIn .tax [group]) t),
        decimals (tallyAll (groupsIn .payments [group]) y)⟩ := by
  obtain ⟨⟨d, type, category⟩, m⟩ := group
  simp only at ho ht hy
  unfold addGroup
  rw [q2_money (by simp only; omega)]
  cases type with
  | payment =>
    change (tallyQ2 d (money m) (decimals y) >>= fun payments => _) = _
    rw [tallyQ2_decimals hy]
    rfl
  | charge =>
    by_cases htax : category = "tax"
    · subst htax
      change (tallyQ2 d (money m) (decimals t) >>= fun tax => _) = _
      rw [tallyQ2_decimals ht]
      rfl
    · by_cases hroom : category = "room_charge"
      · subst hroom
        rfl
      · have hbucket : bucket .charge category = some (.other category) := by
          rw [bucket_charge, if_neg htax, if_neg hroom]
        change (if category = "tax" then _ else if category ≠ "room_charge" then
          tallyQ2 (d, category) (money m) (decimals o) >>= fun other => _ else _) = _
        rw [if_neg htax, if_pos hroom, tallyQ2_decimals ho]
        have hother : otherKey (d, .charge, category) := hbucket
        simp [otherGroups, groupsIn, pick, hother, hbucket, tallyAll]

/-- Every group is added to the table of its bucket. -/
theorem addGroups_decimals {groups : List (FolioKey × Money)} {o : List ((ℤ × String) × Money)}
    {t y : List (ℤ × Money)} (ho : sizes size groups + sizes size o < exactCents)
    (ht : sizes size groups + sizes size t < exactCents)
    (hy : sizes size groups + sizes size y < exactCents) :
    groups.foldlM addGroup ⟨decimals o, decimals t, decimals y⟩ =
      .ok ⟨decimals (tallyAll (otherGroups groups) o), decimals (tallyAll (groupsIn .tax groups) t),
        decimals (tallyAll (groupsIn .payments groups) y)⟩ := by
  induction groups generalizing o t y with
  | nil => rfl
  | cons group rest ih =>
    have hone : sizes size [group] = size group.2 := Nat.add_zero _
    have hsplit : sizes size (group :: rest) = size group.2 + sizes size rest := rfl
    have ho' := measure_size.tallyAll_le (otherGroups [group]) o
    have ht' := measure_size.tallyAll_le (groupsIn .tax [group]) t
    have hy' := measure_size.tallyAll_le (groupsIn .payments [group]) y
    have hog : sizes size (otherGroups [group]) ≤ sizes size [group] := sizes_pick_le ..
    have htg : sizes size (groupsIn .tax [group]) ≤ sizes size [group] := sizes_pick_le ..
    have hyg : sizes size (groupsIn .payments [group]) ≤ sizes size [group] := sizes_pick_le ..
    rw [List.foldlM_cons, addGroup_decimals (by omega) (by omega) (by omega)]
    have hrest := ih (o := tallyAll (otherGroups [group]) o)
      (t := tallyAll (groupsIn .tax [group]) t) (y := tallyAll (groupsIn .payments [group]) y)
      (by omega) (by omega) (by omega)
    refine hrest.trans ?_
    rw [← tallyAll_append, ← tallyAll_append, ← tallyAll_append]
    simp only [otherGroups, groupsIn, ← pick_append, List.singleton_append]

end OpenPms.Reports
