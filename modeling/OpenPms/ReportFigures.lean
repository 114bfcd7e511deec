import Mathlib.Data.List.Flatten
import OpenPms.ReportSums

/-!
The figures that the reports compute. The stored amounts are small enough that no rounding
changes a sum of them, so the tables hold the sums of their rows and the loop over the days
gives the totals of the range.
-/
namespace OpenPms.Reports

open Decimals Tally KeyedTable

/-! Sizes -/

theorem size_lt_of_fits {m : Money} (h : m.fits) : size m ≤ 10 ^ 14 := by
  cases m using WithTop.recTopCoe with
  | top => exact Nat.zero_le _
  | coe n => exact (of_decide_eq_true h).le

/-- A table of amounts that fit their column is exact. -/
theorem sum_size_lt {α : Type} {rows : List α} {val : α → Money} (hlen : rows.length ≤ tableRows)
    (hfits : ∀ x ∈ rows, (val x).fits) : (rows.map fun x => size (val x)).sum < exactCents := by
  have hsum := List.sum_le_card_nsmul (rows.map fun x => size (val x)) (10 ^ 14) (by
    intro n hn
    obtain ⟨x, hx, rfl⟩ := List.mem_map.mp hn
    exact size_lt_of_fits (hfits x hx))
  rw [List.length_map] at hsum
  change _ ≤ rows.length * 10 ^ 14 at hsum
  have hrows := Nat.mul_le_mul_right (10 ^ 14) hlen
  have hsmall : tableRows * 10 ^ 14 < exactCents := by decide
  omega

theorem linesBetween_sublist (p : UUID) (a b : ℤ) (db : ReportsDb) :
    (linesBetween p a b db).Sublist (db.bookings.rows.flatMap (·.lines)) :=
  List.filter_sublist.trans (List.filter_sublist.flatMap _)

theorem lines_lt (p : UUID) (a b : ℤ) (db : ReportsDb) :
    ((linesBetween p a b db).map fun ln => size ln.priceForDate).sum < exactCents := by
  have hsub := linesBetween_sublist p a b db
  refine sum_size_lt (hsub.length_le.trans db.lines_le) fun ln hln => ?_
  obtain ⟨bk, hbk, hmem⟩ := List.mem_flatMap.mp (hsub.subset hln)
  exact db.prices_fit bk hbk ln hmem

theorem folio_lt (zones : Zones) (tz : String) (p : UUID) (a b : ℤ) (db : ReportsDb) :
    ((folioBetween zones tz p a b db).map fun t => size t.amount).sum < exactCents := by
  have hsub : (folioBetween zones tz p a b db).Sublist db.folio :=
    List.filter_sublist.trans List.filter_sublist
  exact sum_size_lt (hsub.length_le.trans db.folio_le) fun t ht =>
    db.amounts_fit t (hsub.subset ht)

theorem size_lineSum (p : UUID) (a b : ℤ) (db : ReportsDb) :
    size (lineSum (linesBetween p a b db)) < exactCents := by
  have hsum := measure_size.sum_le ((linesBetween p a b db).map (·.priceForDate))
  rw [List.map_map] at hsum
  exact hsum.trans_lt (lines_lt p a b db)

theorem size_bucketSum (bucket : Bucket) (zones : Zones) (tz : String) (p : UUID) (a b : ℤ)
    (db : ReportsDb) : size (bucketSum bucket (folioBetween zones tz p a b db)) < exactCents := by
  have hsum := measure_size.sum_le (((folioBetween zones tz p a b db).filter fun t =>
    bucketOf t = some bucket).map (·.amount))
  rw [List.map_map] at hsum
  refine hsum.trans_lt (lt_of_le_of_lt ?_ (folio_lt zones tz p a b db))
  exact (List.filter_sublist.map _).sum_le_sum fun _ _ => Nat.zero_le _

/-! The tables of the queries -/

theorem mapM_q2 {κ : Type} {l : List (κ × Money)} (h : sizes size l < exactCents) :
    l.mapM (fun group => do let sum ← q2 (money group.2); pure (group.1, sum)) =
      .ok (decimals l) := by
  induction l with
  | nil => rfl
  | cons e rest ih =>
    rw [sizes_cons] at h
    have hone : q2 (money e.2) = .ok (money e.2) := q2_money (by omega)
    rw [List.mapM_cons, ih (by omega), hone]
    rfl

/-- The prices of the nights, by date. -/
def roomTable (order : GroupOrder) (p : UUID) (a b : ℤ) (db : ReportsDb) : List (ℤ × Money) :=
  order.arrange (groupSums (·.date) (·.priceForDate) (linesBetween p a b db))

def folioGroups (order : GroupOrder) (zones : Zones) (tz : String) (p : UUID) (a b : ℤ)
    (db : ReportsDb) : List (FolioKey × Money) :=
  order.arrange (groupSums (fun t => (localDate zones tz db t, t.transactionType, t.category))
    (·.amount) (folioBetween zones tz p a b db))

section Tables
variable (order : GroupOrder) (zones : Zones) (tz : String) (p : UUID) (a b : ℤ) (db : ReportsDb)

theorem sizes_roomTable : sizes size (roomTable order p a b db) < exactCents := by
  unfold roomTable
  rw [sizes_perm (order.perm _)]
  exact (measure_size.groupSums_le _ _ _).trans_lt (lines_lt p a b db)

theorem sizes_folioGroups : sizes size (folioGroups order zones tz p a b db) < exactCents := by
  unfold folioGroups
  rw [sizes_perm (order.perm _)]
  exact (measure_size.groupSums_le _ _ _).trans_lt (folio_lt zones tz p a b db)

theorem roomRevenueByDate_eq :
    roomRevenueByDate order p a b db = .ok (decimals (roomTable order p a b db)) :=
  mapM_q2 (sizes_roomTable order p a b db)

theorem valueAt_roomTable {d : ℤ} (ha : a ≤ d) (hb : d ≤ b) :
    valueAt (roomTable order p a b db) d = lineSum (linesOn p d db) := by
  unfold roomTable
  rw [valueAt_of_perm (order.perm _)]
  unfold lineSum linesOn linesBetween
  rw [List.filter_filter]
  congr 2
  refine List.filter_congr fun ln _ => ?_
  rw [← Bool.decide_and]
  refine decide_eq_decide.mpr ⟨And.left, ?_⟩
  rintro rfl
  exact ⟨rfl, ha, hb⟩

/-- The three tables that the loop over the groups fills. -/
def otherTable : List ((ℤ × String) × Money) :=
  tallyAll (otherGroups (folioGroups order zones tz p a b db)) []

def bucketTable (bucket : Bucket) : List (ℤ × Money) :=
  tallyAll (groupsIn bucket (folioGroups order zones tz p a b db)) []

theorem folioAggregatesByDate_eq : folioAggregatesByDate order zones tz p a b db =
    .ok ⟨decimals (otherTable order zones tz p a b db),
      decimals (bucketTable order zones tz p a b db .tax),
      decimals (bucketTable order zones tz p a b db .payments)⟩ := by
  have hsizes := sizes_folioGroups order zones tz p a b db
  exact addGroups_decimals (o := []) (t := []) (y := []) hsizes hsizes hsizes

theorem sizes_otherTable : sizes size (otherTable order zones tz p a b db) < exactCents := by
  have htally := measure_size.tallyAll_le (otherGroups (folioGroups order zones tz p a b db)) []
  have hpick : sizes size (otherGroups (folioGroups order zones tz p a b db)) ≤
    sizes size (folioGroups order zones tz p a b db) := sizes_pick_le ..
  have hsizes := sizes_folioGroups order zones tz p a b db
  have hnil : sizes size ([] : List ((ℤ × String) × Money)) = 0 := rfl
  unfold otherTable
  omega

theorem sizes_bucketTable (bucket : Bucket) :
    sizes size (bucketTable order zones tz p a b db bucket) < exactCents := by
  have htally := measure_size.tallyAll_le (groupsIn bucket (folioGroups order zones tz p a b db)) []
  have hpick : sizes size (groupsIn bucket (folioGroups order zones tz p a b db)) ≤
    sizes size (folioGroups order zones tz p a b db) := sizes_pick_le ..
  have hsizes := sizes_folioGroups order zones tz p a b db
  have hnil : sizes size ([] : List (ℤ × Money)) = 0 := rfl
  unfold bucketTable
  omega

theorem nodup_otherTable : ((otherTable order zones tz p a b db).map Prod.fst).Nodup :=
  nodup_keys_tallyAll _ List.nodup_nil

/-- The amounts of the groups with some property are those of their rows. -/
theorem sumWhere_folioGroups (q : FolioKey → Prop) [DecidablePred q] :
    sumWhere q (folioGroups order zones tz p a b db) =
      (((folioBetween zones tz p a b db).filter fun t =>
        q (localDate zones tz db t, t.transactionType, t.category)).map (·.amount)).sum := by
  unfold folioGroups
  rw [sumWhere_perm (order.perm _), sumWhere_groupSums]

theorem folioBetween_on {d : ℤ} (ha : a ≤ d) (hb : d ≤ b) :
    (folioBetween zones tz p a b db).filter (fun t => localDate zones tz db t = d) =
      folioOn zones tz p d db := by
  unfold folioBetween folioOn
  rw [List.filter_filter]
  refine List.filter_congr fun t _ => ?_
  rw [← Bool.decide_and]
  refine decide_eq_decide.mpr ⟨And.left, ?_⟩
  rintro rfl
  exact ⟨rfl, ha, hb⟩

theorem valueAt_bucketTable (b' : Bucket) {d : ℤ} (ha : a ≤ d) (hb : d ≤ b) :
    valueAt (bucketTable order zones tz p a b db b') d =
      bucketSum b' (folioOn zones tz p d db) := by
  unfold bucketTable
  rw [valueAt_tallyAll, groupsIn, sumWhere_pick, sumWhere_folioGroups]
  unfold bucketSum
  rw [← folioBetween_on zones tz p a b db ha hb, List.filter_filter]
  change 0 + _ = _
  rw [zero_add]
  congr 2
  refine List.filter_congr fun t _ => ?_
  exact Bool.decide_and ..

end Tables

/-! The loop over the days -/

def chargesAt (other : List ((ℤ × String) × Money)) (d : ℤ) : List (String × Money) :=
  pick (·.1 = d) (·.2) other

theorem chargesOn_decimals (other : List ((ℤ × String) × Money)) (d : ℤ) :
    chargesOn (decimals other) d = decimals (chargesAt other d) := by
  unfold chargesOn chargesAt pick decimals
  rw [List.filter_map, List.map_map, List.map_map]
  rfl

theorem nodup_chargesAt {other : List ((ℤ × String) × Money)} (h : (other.map Prod.fst).Nodup)
    (d : ℤ) : ((chargesAt other d).map Prod.fst).Nodup := by
  refine nodup_keys_pick _ _ h fun x y hx hy hxy => ?_
  exact Prod.ext (hx.trans hy.symm) hxy

/-- The dates are different, so that no entry is read twice. -/
theorem sum_chargesAt_le (other : List ((ℤ × String) × Money)) {days : List ℤ}
    (hdays : days.Nodup) :
    (days.map fun d => sizes size (chargesAt other d)).sum ≤ sizes size other := by
  have hkeys := sum_keys (fun e : (ℤ × String) × Money => e.1.1) (fun e => size e.2) other hdays
  have hone : ∀ d, sizes size (chargesAt other d) =
      ((other.filter fun e => e.1.1 = d).map fun e => size e.2).sum := by
    intro d
    unfold sizes chargesAt pick
    rw [List.map_map]
    rfl
  simp only [hone]
  rw [hkeys]
  exact (List.filter_sublist.map _).sum_le_sum fun _ _ => Nat.zero_le _

/-- Adding what each day has. -/
theorem foldlM_addQ2 (table : List (ℤ × Money)) {days : List ℤ} {m : Money}
    (h : size m + (days.map fun d => size (valueAt table d)).sum < exactCents) :
    days.foldlM (fun revenue d => addQ2 revenue (getD (decimals table) d)) (money m) =
      .ok (money (m + (days.map (valueAt table)).sum)) := by
  induction days generalizing m with
  | nil =>
    rw [List.map_nil, List.sum_nil, add_zero]
    rfl
  | cons d rest ih =>
    simp only [List.map_cons, List.sum_cons] at h ⊢
    have hstep := measure_size.add_le m (valueAt table d)
    rw [List.foldlM_cons, getD_decimals, addQ2_money (by omega)]
    refine (ih (m := m + valueAt table d) (by omega)).trans ?_
    rw [add_assoc]

/-- What the rows of the report are made of. -/
structure DayTables where
  room : List (ℤ × Money)
  other : List ((ℤ × String) × Money)
  tax : List (ℤ × Money)
  payments : List (ℤ × Money)

def DayTables.row (tables : DayTables) (d : ℤ) : RevenueRow where
  date := d
  roomRevenue := valueAt tables.room d
  otherCharges := sortKeys (· ≤ ·) (chargesAt tables.other d)
  taxTotal := valueAt tables.tax d
  paymentsTotal := valueAt tables.payments d

theorem revenueDays_decimals (tables : DayTables) {days : List ℤ} {r t y : Money}
    {o : List (String × Money)}
    (hr : size r + (days.map fun d => size (valueAt tables.room d)).sum < exactCents)
    (ho : sizes size o + (days.map fun d => sizes size (chargesAt tables.other d)).sum < exactCents)
    (ht : size t + (days.map fun d => size (valueAt tables.tax d)).sum < exactCents)
    (hy : size y + (days.map fun d => size (valueAt tables.payments d)).sum < exactCents) :
    revenueDays (decimals tables.room)
        ⟨decimals tables.other, decimals tables.tax, decimals tables.payments⟩ days
        ⟨money r, decimals o, money t, money y⟩ =
      .ok (days.map tables.row, ⟨money (r + (days.map (valueAt tables.room)).sum),
        decimals (tallyAll (days.flatMap (chargesAt tables.other)) o),
        money (t + (days.map (valueAt tables.tax)).sum),
        money (y + (days.map (valueAt tables.payments)).sum)⟩) := by
  induction days generalizing r t y o with
  | nil => simp [revenueDays, tallyAll]; rfl
  | cons d rest ih =>
    simp only [List.map_cons, List.sum_cons] at hr ho ht hy ⊢
    have hroom := measure_size.add_le r (valueAt tables.room d)
    have htax := measure_size.add_le t (valueAt tables.tax d)
    have hpay := measure_size.add_le y (valueAt tables.payments d)
    have hother := measure_size.tallyAll_le (chargesAt tables.other d) o
    unfold revenueDays
    simp only [chargesOn_decimals, getD_decimals]
    rw [addQ2_money (by omega), addQ2_money (by omega), addQ2_money (by omega)]
    simp only [bind, Except.bind]
    rw [tallyAll_decimals (by omega), moneyStr_money (by omega), chargeTexts_decimals (by omega),
      moneyStr_money (by omega), moneyStr_money (by omega)]
    simp only
    rw [ih (by omega) (by omega) (by omega) (by omega)]
    simp only [add_assoc, List.flatMap_cons, tallyAll_append]
    rfl

theorem mem_keys_chargesAt {other : List ((ℤ × String) × Money)} {d : ℤ} {cat : String} :
    cat ∈ (chargesAt other d).map Prod.fst ↔ (d, cat) ∈ other.map Prod.fst := by
  unfold chargesAt
  rw [mem_keys_pick]
  constructor
  · rintro ⟨⟨d', cat'⟩, hmem, rfl, rfl⟩
    exact hmem
  · exact fun hmem => ⟨(d, cat), hmem, rfl, rfl⟩

theorem valueAt_chargesAt {other : List ((ℤ × String) × Money)} (h : (other.map Prod.fst).Nodup)
    (d : ℤ) (cat : String) : valueAt (chargesAt other d) cat = valueAt other (d, cat) := by
  rw [valueAt_eq_sumWhere (nodup_chargesAt h d), valueAt_eq_sumWhere h]
  unfold chargesAt
  rw [sumWhere_pick]
  simp only [sumWhere, Prod.ext_iff]

section Report
variable (order : GroupOrder) (zones : Zones) (tz : String) (p : UUID) (a b : ℤ) (db : ReportsDb)

theorem mem_keys_otherTable {d : ℤ} {cat : String} :
    (d, cat) ∈ (otherTable order zones tz p a b db).map Prod.fst ↔
      ∃ t ∈ folioBetween zones tz p a b db,
        localDate zones tz db t = d ∧ bucketOf t = some (.other cat) := by
  unfold otherTable
  rw [mem_keys_tallyAll, otherGroups, mem_keys_pick, or_iff_left (by simp)]
  unfold folioGroups
  simp only [((order.perm _).map _).mem_iff, mem_keys_groupSums]
  constructor
  · rintro ⟨key, ⟨t, ht, rfl⟩, hother, hkey⟩
    obtain ⟨hdate, hcat⟩ := Prod.ext_iff.mp hkey
    exact ⟨t, ht, hdate, bucketOf_other.mpr ⟨hother, hcat⟩⟩
  · rintro ⟨t, ht, hdate, hcat⟩
    obtain ⟨hother, hsame⟩ := bucketOf_other.mp hcat
    exact ⟨_, ⟨t, ht, rfl⟩, hother, Prod.ext hdate hsame⟩

theorem valueAt_otherTable {d : ℤ} (ha : a ≤ d) (hb : d ≤ b) (cat : String) :
    valueAt (otherTable order zones tz p a b db) (d, cat) =
      bucketSum (.other cat) (folioOn zones tz p d db) := by
  unfold otherTable
  rw [valueAt_tallyAll, otherGroups, sumWhere_pick, sumWhere_folioGroups]
  unfold bucketSum
  rw [← folioBetween_on zones tz p a b db ha hb, List.filter_filter]
  change 0 + _ = _
  rw [zero_add]
  congr 2
  refine List.filter_congr fun t _ => ?_
  rw [← Bool.decide_and]
  refine decide_eq_decide.mpr ?_
  rw [bucketOf_other, Prod.ext_iff]
  exact ⟨fun h => ⟨⟨h.1, h.2.2⟩, h.2.1⟩, fun h => ⟨h.1.1, h.2, h.1.2⟩⟩

def dayTables : DayTables where
  room := roomTable order p a b db
  other := otherTable order zones tz p a b db
  tax := bucketTable order zones tz p a b db .tax
  payments := bucketTable order zones tz p a b db .payments

theorem otherCharges_eq {d : ℤ} (ha : a ≤ d) (hb : d ≤ b) :
    sortKeys (· ≤ ·) (chargesAt (otherTable order zones tz p a b db) d) =
      otherSums (folioOn zones tz p d db) := by
  have hnodup := nodup_otherTable order zones tz p a b db
  refine sortKeys_eq (nodup_chargesAt hnodup d) (nodup_keys_groupSums ..) (fun cat => ?_)
    fun cat => ?_
  · rw [mem_keys_chargesAt, mem_keys_otherTable, ← folioBetween_on zones tz p a b db ha hb,
      mem_keys_groupSums]
    simp only [List.mem_filter, decide_eq_true_iff, and_assoc, ← bucketOf_other]
  · rw [valueAt_chargesAt hnodup, valueAt_otherTable order zones tz p a b db ha hb,
      ← valueAt_otherSums, otherSums, valueAt_sortKeys (nodup_keys_groupSums ..)]

theorem dayTables_row {d : ℤ} (hd : d ∈ daysBetween a (b + 1)) :
    (dayTables order zones tz p a b db).row d = revenueRow zones tz p db d := by
  obtain ⟨ha, hlt⟩ := mem_daysBetween.mp hd
  have hb : d ≤ b := Int.lt_add_one_iff.mp hlt
  unfold DayTables.row revenueRow dayTables
  simp only
  rw [valueAt_roomTable order p a b db ha hb, otherCharges_eq order zones tz p a b db ha hb,
    valueAt_bucketTable order zones tz p a b db .tax ha hb,
    valueAt_bucketTable order zones tz p a b db .payments ha hb]

theorem sum_roomTable : ((daysBetween a (b + 1)).map (valueAt (roomTable order p a b db))).sum =
    lineSum (linesBetween p a b db) := by
  refine Eq.trans ?_ (sum_days _ _ _ a b)
  refine congrArg List.sum (List.map_congr_left fun d hd => ?_)
  obtain ⟨ha, hlt⟩ := mem_daysBetween.mp hd
  exact valueAt_roomTable order p a b db ha (Int.lt_add_one_iff.mp hlt)

theorem sum_bucketTable (bucket : Bucket) :
    ((daysBetween a (b + 1)).map (valueAt (bucketTable order zones tz p a b db bucket))).sum =
      bucketSum bucket (folioBetween zones tz p a b db) := by
  rw [bucketSum_days]
  refine congrArg List.sum (List.map_congr_left fun d hd => ?_)
  obtain ⟨ha, hlt⟩ := mem_daysBetween.mp hd
  exact valueAt_bucketTable order zones tz p a b db bucket ha (Int.lt_add_one_iff.mp hlt)

/-- The totals of the other charges are those of their rows. -/
theorem otherTotals_eq :
    sortKeys (· ≤ ·) (tallyAll ((daysBetween a (b + 1)).flatMap
      (chargesAt (otherTable order zones tz p a b db))) []) =
      otherSums (folioBetween zones tz p a b db) := by
  have hnodup := nodup_otherTable order zones tz p a b db
  refine sortKeys_eq (nodup_keys_tallyAll _ List.nodup_nil) (nodup_keys_groupSums ..)
    (fun cat => ?_) fun cat => ?_
  · rw [mem_keys_tallyAll, or_iff_left (by simp), List.map_flatMap, List.mem_flatMap,
      mem_keys_groupSums]
    simp only [mem_keys_chargesAt, mem_keys_otherTable, List.mem_filter, decide_eq_true_iff,
      and_assoc, ← bucketOf_other]
    constructor
    · rintro ⟨d, -, t, ht, -, hcat⟩
      exact ⟨t, ht, hcat⟩
    · rintro ⟨t, ht, hcat⟩
      obtain ⟨hfrom, hto⟩ := of_decide_eq_true (List.mem_filter.mp ht).2
      exact ⟨_, mem_daysBetween.mpr ⟨hfrom, Int.lt_add_one_iff.mpr hto⟩, t, ht, rfl, hcat⟩
  · rw [valueAt_tallyAll, sumWhere_flatMap]
    have hzero : valueAt ([] : List (String × Money)) cat = 0 := rfl
    have hsum : valueAt (groupSums (·.category) (·.amount)
        ((folioBetween zones tz p a b db).filter fun t =>
          bucketOf t = some (.other t.category))) cat =
        bucketSum (.other cat) (folioBetween zones tz p a b db) := by
      rw [← valueAt_otherSums, otherSums, valueAt_sortKeys (nodup_keys_groupSums ..)]
    rw [hzero, zero_add, hsum, bucketSum_days]
    refine congrArg List.sum (List.map_congr_left fun d hd => ?_)
    obtain ⟨ha, hlt⟩ := mem_daysBetween.mp hd
    rw [← valueAt_eq_sumWhere (nodup_chargesAt hnodup d), valueAt_chargesAt hnodup]
    exact valueAt_otherTable order zones tz p a b db ha (Int.lt_add_one_iff.mp hlt) cat

/-- The report is made of the sums of its rows, in whatever order the queries answer. -/
theorem revenueFigures_eq : revenueFigures order zones tz p a b db =
    .ok (revenueOf zones tz p a b db) := by
  have hdays := nodup_daysBetween a (b + 1)
  have hroom := measure_size.sum_valueAt_le (roomTable order p a b db) hdays
  have htax := measure_size.sum_valueAt_le (bucketTable order zones tz p a b db .tax) hdays
  have hpay := measure_size.sum_valueAt_le (bucketTable order zones tz p a b db .payments) hdays
  have hother := sum_chargesAt_le (otherTable order zones tz p a b db) hdays
  have hroomSize := sizes_roomTable order p a b db
  have htaxSize := sizes_bucketTable order zones tz p a b db .tax
  have hpaySize := sizes_bucketTable order zones tz p a b db .payments
  have hotherSize := sizes_otherTable order zones tz p a b db
  have hzero : size 0 = 0 := rfl
  have hnil : sizes size ([] : List (String × Money)) = 0 := rfl
  have hloop := revenueDays_decimals (dayTables order zones tz p a b db) (r := 0) (o := [])
    (t := 0) (y := 0) (by rw [hzero, zero_add]; exact hroom.trans_lt hroomSize)
    (by rw [hnil, zero_add]; exact hother.trans_lt hotherSize)
    (by rw [hzero, zero_add]; exact htax.trans_lt htaxSize)
    (by rw [hzero, zero_add]; exact hpay.trans_lt hpaySize)
  have htotals : sizes size (tallyAll ((daysBetween a (b + 1)).flatMap
      (chargesAt (otherTable order zones tz p a b db))) []) < exactCents := by
    have htally := measure_size.tallyAll_le ((daysBetween a (b + 1)).flatMap
      (chargesAt (otherTable order zones tz p a b db))) []
    rw [sizes_flatMap] at htally
    omega
  have hempty : decimals ([] : List (String × Money)) = [] := rfl
  simp only [zero_add, dayTables, sum_roomTable, sum_bucketTable, hempty] at hloop
  unfold revenueFigures
  rw [roomRevenueByDate_eq, folioAggregatesByDate_eq, zero_eq]
  simp only [bind, Except.bind]
  rw [hloop]
  simp only
  rw [moneyStr_money (size_lineSum p a b db), chargeTexts_decimals htotals,
    moneyStr_money (size_bucketSum .tax zones tz p a b db),
    moneyStr_money (size_bucketSum .payments zones tz p a b db), otherTotals_eq]
  have hrows : (daysBetween a (b + 1)).map (dayTables order zones tz p a b db).row =
      (daysBetween a (b + 1)).map (revenueRow zones tz p db) :=
    List.map_congr_left fun d hd => dayTables_row order zones tz p a b db hd
  unfold dayTables at hrows
  simp only [hrows]
  rfl

end Report

/-! The KPI report -/

theorem abs_div_le {x : ℚ} {n : ℤ} (hn : n ≠ 0) : |x / n| ≤ |x| := by
  have hone : (1 : ℚ) ≤ |(n : ℚ)| := by exact_mod_cast Int.one_le_abs hn
  rw [abs_div]
  exact div_le_self (abs_nonneg x) hone

/-- A share of an exact amount is rounded to no more than the amount. -/
theorem share_q2 {k n : ℤ} (hk : k.natAbs < exactCents) (hn : n ≠ 0) :
    ∃ share, (money k).div (.finite n) = .ok share ∧
      ∃ v : ℤ, q2 share = .ok (money v) ∧ v.natAbs ≤ k.natAbs := by
  have habs : |(k : ℚ) / 100| ≤ 10 ^ 26 := by
    have hint : |k| ≤ 10 ^ 28 := by
      rw [Int.abs_eq_natAbs]
      exact_mod_cast hk.le
    have hcast : |(k : ℚ)| ≤ 10 ^ 28 := by exact_mod_cast hint
    rw [abs_div, abs_of_pos (by norm_num : (0 : ℚ) < 100), div_le_iff₀ (by norm_num)]
    linarith
  have hshort : Short |(k : ℚ) / 100| := by
    have hwhole : Short ((k : ℚ) / 100) := Whole.short ⟨k, rfl⟩ habs
    rcases abs_choice ((k : ℚ) / 100) with hpos | hneg
    · rwa [hpos]
    · rw [hneg]
      exact hwhole.neg
  have hquotient : |(k : ℚ) / 100 / n| ≤ |(k : ℚ) / 100| := abs_div_le hn
  obtain ⟨hlow, hhigh⟩ := abs_le.mp hquotient
  have hround : |round28 ((k : ℚ) / 100 / n)| ≤ |(k : ℚ) / 100| :=
    abs_le.mpr ⟨le_round28 hshort.neg hlow, round28_le hshort hhigh⟩
  have hcents : |round28 ((k : ℚ) / 100 / n) * 100| ≤ (k.natAbs : ℕ) := by
    rw [abs_div, abs_of_pos (by norm_num : (0 : ℚ) < 100), le_div_iff₀ (by norm_num)] at hround
    rw [abs_mul, abs_of_pos (by norm_num : (0 : ℚ) < 100), Nat.cast_natAbs, Int.cast_abs]
    exact hround
  obtain ⟨v, hq2, hv, -⟩ := q2_finite hcents hk
  refine ⟨.finite (round28 ((k : ℚ) / 100 / n)), ?_, v, hq2, hv⟩
  change Decimal.div (.finite (k / 100)) (.finite n) = _
  rw [Decimal.div_finite, if_neg (by exact_mod_cast hn),
    result_of_lt (hquotient.trans (habs.trans (by norm_num)))]
  rfl

theorem perNight_money {m : Money} (h : size m < exactCents) (n : ℤ) :
    ∃ v, perNight (money m) n = .ok (money v) ∧ size v < exactCents := by
  unfold perNight
  by_cases hn : n = 0
  · rw [if_pos hn]
    exact ⟨0, congrArg Except.ok zero_eq, by decide⟩
  · rw [if_neg hn]
    cases m using WithTop.recTopCoe with
    | top => exact ⟨⊤, rfl, h⟩
    | coe k =>
      obtain ⟨share, hshare, v, hq2, hv⟩ := share_q2 h hn
      rw [hshare]
      exact ⟨v, hq2, hv.trans_lt h⟩

theorem pctStr_ok {numerator : ℤ} (h : numerator.natAbs ≤ tableRows) (denominator : ℤ) :
    ∃ text, pctStr numerator denominator = .ok text := by
  unfold pctStr
  by_cases hn : denominator = 0
  · rw [if_pos hn]
    exact ⟨_, rfl⟩
  · have hsmall : tableRows * 10000 < exactCents := by decide
    have hsize : (numerator * 10000).natAbs < exactCents := by
      have hfactor : (numerator * 10000).natAbs = numerator.natAbs * 10000 := by
        rw [Int.natAbs_mul]
        rfl
      exact hfactor.trans_lt ((Nat.mul_le_mul_right 10000 h).trans_lt hsmall)
    have hmul : Decimal.mul (.finite numerator) (.finite 100) =
        .ok (money (numerator * 10000 : ℤ)) := by
      have hcents : (numerator : ℚ) * 100 = ((numerator * 10000 : ℤ) : ℚ) / 100 := by
        push_cast
        ring
      have hbound : |(numerator : ℚ) * 100| ≤ 10 ^ 26 := by
        have hint : |numerator * 100| ≤ 10 ^ 26 := by
          have hrows : tableRows ≤ 10 ^ 13 := by decide
          rw [Int.abs_eq_natAbs]
          omega
        exact_mod_cast hint
      change (result ((numerator : ℚ) * 100)).map Decimal.finite = _
      rw [result_whole ⟨numerator * 10000, hcents⟩ hbound, hcents]
      rfl
    obtain ⟨share, hshare, v, hq2, -⟩ := share_q2 hsize hn
    rw [if_neg hn, hmul]
    simp only [bind, Except.bind]
    rw [hshare]
    simp only [moneyStr, bind, Except.bind]
    rw [hq2]
    exact ⟨_, rfl⟩

section Kpi
variable (order : GroupOrder) (p : UUID) (a b : ℤ) (db : ReportsDb)

theorem soldNights_le :
    (((daysBetween a (b + 1)).map (valueAt (occupiedByDate order p a b db))).sum).natAbs ≤
      tableRows := by
  have hsum : ((daysBetween a (b + 1)).map (valueAt (occupiedByDate order p a b db))).sum =
      (((linesBetween p a b db).filter fun ln => a ≤ ln.date ∧ ln.date ≤ b).length : ℤ) := by
    have hdays := sum_days (·.date) (fun _ => (1 : ℤ)) (linesBetween p a b db) a b
    rw [List.map_const', List.sum_replicate, nsmul_one] at hdays
    rw [← hdays]
    refine congrArg List.sum (List.map_congr_left fun d _ => ?_)
    exact valueAt_of_perm (order.perm _) d
  have hlen := ((linesBetween_sublist p a b db).length_le).trans db.lines_le
  have hfilter := List.length_filter_le (fun ln => decide (a ≤ ln.date ∧ ln.date ≤ b))
    (linesBetween p a b db)
  rw [hsum, Int.natAbs_natCast]
  exact hfilter.trans hlen

theorem kpiFigures_ok : ∃ report, kpiFigures order p a b db = .ok report ∧
    report.roomRevenue = lineSum (linesBetween p a b db) := by
  have hsize := size_lineSum p a b db
  have hvalues := measure_size.sum_valueAt_le (roomTable order p a b db)
    (nodup_daysBetween a (b + 1))
  have hzero : size 0 = 0 := rfl
  have hloop := foldlM_addQ2 (roomTable order p a b db) (m := 0)
    (by rw [hzero, zero_add]; exact hvalues.trans_lt (sizes_roomTable order p a b db))
  rw [zero_add, sum_roomTable] at hloop
  unfold kpiFigures
  rw [roomRevenueByDate_eq, zero_eq]
  simp only [bind, Except.bind]
  rw [hloop]
  simp only
  obtain ⟨adr, hadr, hadrSize⟩ := perNight_money hsize
    ((daysBetween a (b + 1)).map (valueAt (occupiedByDate order p a b db))).sum
  obtain ⟨revpar, hrevpar, hrevparSize⟩ := perNight_money hsize
    ((daysBetween a (b + 1)).map (valueAt (availableByDate order p a b db))).sum
  obtain ⟨pct, hpct⟩ := pctStr_ok (soldNights_le order p a b db)
    ((daysBetween a (b + 1)).map (valueAt (availableByDate order p a b db))).sum
  rw [hadr, hrevpar]
  simp only
  rw [moneyStr_money hsize, hpct, moneyStr_money hadrSize, moneyStr_money hrevparSize]
  exact ⟨_, rfl, rfl⟩

end Kpi

theorem propertyZoneinfo_ok {zones : Zones} {p : UUID} {db : ReportsDb} {tz : String}
    (h : propertyZoneinfo zones p db = .ok tz) : tz = Text.strip (db.timezone p) := by
  unfold propertyZoneinfo at h
  simp only at h
  split at h
  · cases h
  · split at h
    · exact (Except.ok.inj h).symm
    · cases h

theorem propertyZoneinfo_error {zones : Zones} {p : UUID} {db : ReportsDb} {e : ReportsError}
    (h : propertyZoneinfo zones p db = .error e) :
    ∃ detail code, e = .reportsService detail code := by
  unfold propertyZoneinfo at h
  simp only at h
  split at h
  · exact ⟨_, _, (Except.error.inj h).symm⟩
  · split at h
    · cases h
    · exact ⟨_, _, (Except.error.inj h).symm⟩

theorem getRevenueReport_eq (order : GroupOrder) (zones : Zones) (p : UUID) (a b : ℤ)
    (db : ReportsDb) : getRevenueReport order zones p a b db =
      (requireProperty p db >>= fun _ => propertyZoneinfo zones p db).map
        fun tz => revenueOf zones tz p a b db := by
  unfold getRevenueReport
  simp only [revenueFigures_eq, bind, Except.bind, Except.mapError]
  cases requireProperty p db with
  | error e => rfl
  | ok found =>
    cases propertyZoneinfo zones p db with
    | error e => rfl
    | ok tz => rfl

/-- Reports of two adjoining ranges make up the report of both: either each of the three
is refused alike, or the rows and totals of the parts give those of the whole, the totals
are the sums of the rows and of the folio by bucket, and the KPI report agrees. -/
theorem reports_additive (order order₁ order₂ order₃ : GroupOrder) (zones : Zones) (p : UUID)
    (db : ReportsDb) {a b c : ℤ} (hab : a ≤ b) (hbc : b < c) :
    (∃ detail code, getRevenueReport order zones p a c db = .error (.reportsService detail code) ∧
      getRevenueReport order₁ zones p a b db = .error (.reportsService detail code) ∧
      getRevenueReport order₂ zones p (b + 1) c db = .error (.reportsService detail code)) ∨
    ∃ whole left right kpi, getRevenueReport order zones p a c db = .ok whole ∧
      getRevenueReport order₁ zones p a b db = .ok left ∧
      getRevenueReport order₂ zones p (b + 1) c db = .ok right ∧
      getKpiReport order₃ p a c db = .ok kpi ∧
      Joined whole left right ∧ SumOfRows whole ∧ kpi.roomRevenue = whole.roomRevenueTotal ∧
      CountedOnce whole (folioBetween zones (Text.strip (db.timezone p)) p a c db) := by
  rw [getRevenueReport_eq, getRevenueReport_eq, getRevenueReport_eq]
  by_cases hproperty : p ∈ db.properties
  · have hfound : requireProperty p db = .ok () := if_pos hproperty
    rw [hfound]
    cases hzone : propertyZoneinfo zones p db with
    | error e =>
      obtain ⟨detail, code, rfl⟩ := propertyZoneinfo_error hzone
      exact .inl ⟨detail, code, rfl, rfl, rfl⟩
    | ok tz =>
      obtain ⟨kpi, hkpi, hroom⟩ := kpiFigures_ok order₃ p a c db
      have hreport : getKpiReport order₃ p a c db = .ok kpi := by
        unfold getKpiReport
        rw [hfound, hkpi]
        rfl
      rw [← propertyZoneinfo_ok hzone]
      exact .inr ⟨_, _, _, kpi, rfl, rfl, rfl, hreport, joined_revenueOf zones tz p db hab hbc,
        sumOfRows_revenueOf zones tz p db a c, hroom, countedOnce_revenueOf zones tz p db a c⟩
  · have hmissing : requireProperty p db = .error (.reportsService "property not found" 404) :=
      if_neg hproperty
    rw [hmissing]
    exact .inl ⟨_, _, rfl, rfl, rfl⟩

def Demo.utc : Zones where
  known tz := tz = "UTC"
  localDate _ instant := instant / 86400000000

def Demo.asRead : GroupOrder where
  arrange l := l
  perm _ := .refl _

def Demo.stay : Booking where
  id := 7
  propertyId := 1
  guestId := 5
  ratePlanId := none
  externalBookingId := none
  status := .checkedIn
  source := "direct"
  totalAmount := (20000 : ℤ)
  notes := none
  lines := [⟨3, 10, none, (9500 : ℤ)⟩, ⟨4, 10, none, (10500 : ℤ)⟩]

/-- Two nights, with a bar bill and a tax on the second day. -/
def Demo.billed : ReportsDb where
  toDb := { Db.empty 0 with
    properties := [1]
    bookings := ⟨[Demo.stay], by decide⟩
    folio := [⟨20, 7, .charge, (20000 : ℤ), none, none, "room_charge"⟩,
      ⟨21, 7, .charge, (1250 : ℤ), none, none, "bar"⟩,
      ⟨22, 7, .charge, (333 : ℤ), none, none, "tax"⟩,
      ⟨23, 7, .payment, (21583 : ℤ), none, none, "payment"⟩] }
  timezone _ := "UTC"
  currency _ := "EUR"
  createdAt id := if id = 20 then 3 * 86400000000 else 4 * 86400000000 + 1
  lines_le := by decide
  folio_le := by decide
  prices_fit := by decide
  amounts_fit := by decide

theorem reports_additive_demo : ∃ whole left right kpi,
    getRevenueReport Demo.asRead Demo.utc 1 3 4 Demo.billed = .ok whole ∧
      getRevenueReport Demo.asRead Demo.utc 1 3 3 Demo.billed = .ok left ∧
      getRevenueReport Demo.asRead Demo.utc 1 4 4 Demo.billed = .ok right ∧
      getKpiReport Demo.asRead 1 3 4 Demo.billed = .ok kpi ∧
      Joined whole left right ∧ SumOfRows whole ∧ kpi.roomRevenue = whole.roomRevenueTotal ∧
      CountedOnce whole (folioBetween Demo.utc "UTC" 1 3 4 Demo.billed) := by
  have hok : getRevenueReport Demo.asRead Demo.utc 1 3 4 Demo.billed =
      .ok (revenueOf Demo.utc "UTC" 1 3 4 Demo.billed) := by
    rw [getRevenueReport_eq]
    rfl
  rcases reports_additive Demo.asRead Demo.asRead Demo.asRead Demo.asRead Demo.utc 1 Demo.billed
    (show (3 : ℤ) ≤ 3 by decide) (show (3 : ℤ) < 4 by decide) with ⟨_, _, hfail, -⟩ | hreports
  · rw [hok] at hfail
    cases hfail
  · exact hreports

end OpenPms.Reports
