import OpenPms.Reports

/-!
What the revenue report says: for each day and for the whole range, the sums of the stored
lines and folio rows by bucket. The sums of two adjoining ranges add up, and so do the days
of one range.
-/
namespace OpenPms.Reports

open Decimals Tally KeyedTable

instance totalStringLe : Std.Total (α := String) (· ≤ ·) := ⟨String.le_total⟩
instance transStringLe : IsTrans String (· ≤ ·) := ⟨fun _ _ _ => String.le_trans⟩
instance antisymmStringLe : Std.Antisymm (α := String) (· ≤ ·) := ⟨fun _ _ => String.le_antisymm⟩

/-! Ranges of days -/

section Days
variable {α M : Type} [AddCommMonoid M] (day : α → ℤ) (val : α → M) (rows : List α)

theorem sum_days (a b : ℤ) :
    ((daysBetween a (b + 1)).map fun d => ((rows.filter fun x => day x = d).map val).sum).sum =
      ((rows.filter fun x => a ≤ day x ∧ day x ≤ b).map val).sum := by
  rw [sum_keys day val rows (nodup_daysBetween a (b + 1))]
  simp only [mem_daysBetween, Int.lt_add_one_iff]

theorem sum_between {a b c : ℤ} (hab : a ≤ b) (hbc : b < c) :
    ((rows.filter fun x => a ≤ day x ∧ day x ≤ c).map val).sum =
      ((rows.filter fun x => a ≤ day x ∧ day x ≤ b).map val).sum +
        ((rows.filter fun x => b + 1 ≤ day x ∧ day x ≤ c).map val).sum := by
  rw [← sum_filter_or val fun x _ hleft hright => by omega]
  congr 2
  refine List.filter_congr fun x _ => decide_eq_decide.mpr ?_
  omega

end Days

theorem daysBetween_split {a b c : ℤ} (hab : a ≤ b) (hbc : b < c) :
    daysBetween a (c + 1) = daysBetween a (b + 1) ++ daysBetween (b + 1) (c + 1) := by
  unfold daysBetween
  have hlen : (c + 1 - a).toNat = (b + 1 - a).toNat + (c + 1 - (b + 1)).toNat := by omega
  rw [hlen, List.range_add, List.map_append, List.map_map]
  congr 1
  refine List.map_congr_left fun i _ => ?_
  simp only [Function.comp_apply]
  omega

/-! Sums of rows -/

def bucketOf (t : FolioTransaction) : Option Bucket := bucket t.transactionType t.category

def bucketSum (b : Bucket) (rows : List FolioTransaction) : Money :=
  ((rows.filter fun t => bucketOf t = some b).map (·.amount)).sum

def lineSum (lines : List BookingLine) : Money := (lines.map (·.priceForDate)).sum

/-- The other charges by category, in their order. -/
def otherSums (rows : List FolioTransaction) : List (String × Money) :=
  sortKeys (· ≤ ·) (groupSums (·.category) (·.amount)
    (rows.filter fun t => bucketOf t = some (.other t.category)))

theorem bucketOf_other {t : FolioTransaction} {cat : String} :
    bucketOf t = some (.other cat) ↔ bucketOf t = some (.other t.category) ∧ t.category = cat := by
  constructor
  · intro h
    have hcat : t.category = cat := bucket_eq_other h
    exact ⟨h.trans (by rw [hcat]), hcat⟩
  · rintro ⟨h, rfl⟩
    exact h

theorem nodup_keys_otherSums (rows : List FolioTransaction) :
    ((otherSums rows).map Prod.fst).Nodup :=
  ((perm_sortKeys _).map _).nodup_iff.mpr (nodup_keys_groupSums ..)

theorem mem_keys_otherSums {rows : List FolioTransaction} {cat : String} :
    cat ∈ (otherSums rows).map Prod.fst ↔ ∃ t ∈ rows, bucketOf t = some (.other cat) := by
  unfold otherSums
  rw [((perm_sortKeys _).map _).mem_iff, mem_keys_groupSums]
  simp only [List.mem_filter, decide_eq_true_iff, and_assoc, ← bucketOf_other]

theorem valueAt_otherSums (rows : List FolioTransaction) (cat : String) :
    valueAt (otherSums rows) cat = bucketSum (.other cat) rows := by
  unfold otherSums bucketSum
  rw [valueAt_sortKeys (nodup_keys_groupSums ..), valueAt_eq_sumWhere (nodup_keys_groupSums ..),
    sumWhere_groupSums, List.filter_filter]
  congr 2
  refine List.filter_congr fun t _ => ?_
  rw [← Bool.decide_and]
  exact decide_eq_decide.mpr (and_comm.trans bucketOf_other.symm)

theorem bucketSum_filter (b : Bucket) (rows : List FolioTransaction) (p : FolioTransaction → Prop)
    [DecidablePred p] : bucketSum b (rows.filter fun t => p t) =
      (((rows.filter fun t => bucketOf t = some b).filter fun t => p t).map (·.amount)).sum := by
  unfold bucketSum
  rw [List.filter_filter, List.filter_filter]
  simp only [Bool.and_comm]

/-! The figures -/

def linesOn (p : UUID) (d : ℤ) (db : ReportsDb) : List BookingLine :=
  (activeLines p db).filter fun ln => ln.date = d

def folioOn (zones : Zones) (tz : String) (p : UUID) (d : ℤ) (db : ReportsDb) :
    List FolioTransaction :=
  (folioOf p db).filter fun t => localDate zones tz db t = d

def revenueRow (zones : Zones) (tz : String) (p : UUID) (db : ReportsDb) (d : ℤ) : RevenueRow where
  date := d
  roomRevenue := lineSum (linesOn p d db)
  otherCharges := otherSums (folioOn zones tz p d db)
  taxTotal := bucketSum .tax (folioOn zones tz p d db)
  paymentsTotal := bucketSum .payments (folioOn zones tz p d db)

def revenueOf (zones : Zones) (tz : String) (p : UUID) (a b : ℤ) (db : ReportsDb) :
    RevenueReport where
  propertyId := p
  dateFrom := a
  dateTo := b
  currency := db.currency p
  rows := (daysBetween a (b + 1)).map (revenueRow zones tz p db)
  roomRevenueTotal := lineSum (linesBetween p a b db)
  otherChargesTotal := otherSums (folioBetween zones tz p a b db)
  taxTotal := bucketSum .tax (folioBetween zones tz p a b db)
  paymentsTotal := bucketSum .payments (folioBetween zones tz p a b db)

/-- The rows follow each other, and every total is the sum of both. -/
structure Joined (whole left right : RevenueReport) : Prop where
  rows : whole.rows = left.rows ++ right.rows
  room : whole.roomRevenueTotal = left.roomRevenueTotal + right.roomRevenueTotal
  other : ∀ cat, valueAt whole.otherChargesTotal cat =
    valueAt left.otherChargesTotal cat + valueAt right.otherChargesTotal cat
  categories : ∀ cat, cat ∈ whole.otherChargesTotal.map Prod.fst ↔
    cat ∈ left.otherChargesTotal.map Prod.fst ∨ cat ∈ right.otherChargesTotal.map Prod.fst
  tax : whole.taxTotal = left.taxTotal + right.taxTotal
  payments : whole.paymentsTotal = left.paymentsTotal + right.paymentsTotal

/-- The totals are the sums of the rows. -/
structure SumOfRows (report : RevenueReport) : Prop where
  room : report.roomRevenueTotal = (report.rows.map (·.roomRevenue)).sum
  other : ∀ cat, valueAt report.otherChargesTotal cat =
    (report.rows.map fun row => valueAt row.otherCharges cat).sum
  categories : ∀ cat, cat ∈ report.otherChargesTotal.map Prod.fst ↔
    ∃ row ∈ report.rows, cat ∈ row.otherCharges.map Prod.fst
  tax : report.taxTotal = (report.rows.map (·.taxTotal)).sum
  payments : report.paymentsTotal = (report.rows.map (·.paymentsTotal)).sum

/-- Every row is counted in the total of its one bucket; room charges have none. -/
structure CountedOnce (report : RevenueReport) (rows : List FolioTransaction) : Prop where
  payments : report.paymentsTotal = bucketSum .payments rows
  tax : report.taxTotal = bucketSum .tax rows
  other : ∀ cat, valueAt report.otherChargesTotal cat = bucketSum (.other cat) rows
  listed : ∀ t ∈ rows, ∀ cat, bucketOf t = some (.other cat) →
    cat ∈ report.otherChargesTotal.map Prod.fst
  unrepeated : (report.otherChargesTotal.map Prod.fst).Nodup
  left_out : ∀ t ∈ rows, bucketOf t = none ↔
    t.transactionType = .charge ∧ t.category = "room_charge"

section Figures
variable (zones : Zones) (tz : String) (p : UUID) (db : ReportsDb)

theorem bucketSum_between (bucket : Bucket) {a b c : ℤ} (hab : a ≤ b) (hbc : b < c) :
    bucketSum bucket (folioBetween zones tz p a c db) =
      bucketSum bucket (folioBetween zones tz p a b db) +
        bucketSum bucket (folioBetween zones tz p (b + 1) c db) := by
  unfold folioBetween
  rw [bucketSum_filter, bucketSum_filter, bucketSum_filter]
  exact sum_between _ _ _ hab hbc

theorem bucketSum_days (bucket : Bucket) (a b : ℤ) :
    bucketSum bucket (folioBetween zones tz p a b db) =
      ((daysBetween a (b + 1)).map fun d => bucketSum bucket (folioOn zones tz p d db)).sum := by
  unfold folioBetween folioOn
  rw [bucketSum_filter, ← sum_days]
  simp only [bucketSum_filter]

theorem joined_revenueOf {a b c : ℤ} (hab : a ≤ b) (hbc : b < c) :
    Joined (revenueOf zones tz p a c db) (revenueOf zones tz p a b db)
      (revenueOf zones tz p (b + 1) c db) where
  rows := by
    unfold revenueOf
    rw [daysBetween_split hab hbc, List.map_append]
  room := sum_between _ _ _ hab hbc
  other cat := by
    unfold revenueOf
    rw [valueAt_otherSums, valueAt_otherSums, valueAt_otherSums]
    exact bucketSum_between zones tz p db (.other cat) hab hbc
  categories cat := by
    unfold revenueOf
    rw [mem_keys_otherSums, mem_keys_otherSums, mem_keys_otherSums]
    simp only [folioBetween, List.mem_filter, decide_eq_true_iff]
    constructor
    · rintro ⟨t, ⟨hmem, hfrom, hto⟩, hcat⟩
      rcases le_or_gt (localDate zones tz db t) b with hle | hgt
      · exact .inl ⟨t, ⟨hmem, hfrom, hle⟩, hcat⟩
      · exact .inr ⟨t, ⟨hmem, by omega, hto⟩, hcat⟩
    · rintro (⟨t, ⟨hmem, hfrom, hto⟩, hcat⟩ | ⟨t, ⟨hmem, hfrom, hto⟩, hcat⟩)
      · exact ⟨t, ⟨hmem, hfrom, by omega⟩, hcat⟩
      · exact ⟨t, ⟨hmem, by omega, hto⟩, hcat⟩
  tax := bucketSum_between zones tz p db .tax hab hbc
  payments := bucketSum_between zones tz p db .payments hab hbc

theorem sumOfRows_revenueOf (a b : ℤ) : SumOfRows (revenueOf zones tz p a b db) where
  room := by
    unfold revenueOf
    rw [List.map_map]
    exact (sum_days _ _ _ a b).symm
  other cat := by
    unfold revenueOf
    rw [valueAt_otherSums, List.map_map, bucketSum_days]
    refine congrArg List.sum (List.map_congr_left fun d _ => ?_)
    exact (valueAt_otherSums _ cat).symm
  categories cat := by
    unfold revenueOf
    rw [mem_keys_otherSums]
    constructor
    · rintro ⟨t, ht, hcat⟩
      obtain ⟨hmem, hrange⟩ := List.mem_filter.mp ht
      obtain ⟨hfrom, hto⟩ := of_decide_eq_true hrange
      have hday : localDate zones tz db t ∈ daysBetween a (b + 1) :=
        mem_daysBetween.mpr ⟨hfrom, by omega⟩
      refine ⟨_, List.mem_map_of_mem hday, mem_keys_otherSums.mpr ⟨t, ?_, hcat⟩⟩
      exact List.mem_filter.mpr ⟨hmem, decide_eq_true rfl⟩
    · rintro ⟨row, hrow, hcat⟩
      obtain ⟨d, hd, rfl⟩ := List.mem_map.mp hrow
      obtain ⟨t, ht, hbucket⟩ := mem_keys_otherSums.mp hcat
      obtain ⟨hmem, hdate⟩ := List.mem_filter.mp ht
      obtain rfl := of_decide_eq_true hdate
      obtain ⟨hfrom, hto⟩ := mem_daysBetween.mp hd
      refine ⟨t, List.mem_filter.mpr ⟨hmem, decide_eq_true ⟨hfrom, ?_⟩⟩, hbucket⟩
      omega
  tax := by
    unfold revenueOf
    rw [List.map_map]
    exact bucketSum_days zones tz p db .tax a b
  payments := by
    unfold revenueOf
    rw [List.map_map]
    exact bucketSum_days zones tz p db .payments a b

theorem countedOnce_revenueOf (a b : ℤ) :
    CountedOnce (revenueOf zones tz p a b db) (folioBetween zones tz p a b db) where
  payments := rfl
  tax := rfl
  other := valueAt_otherSums _
  listed t ht _ hcat := mem_keys_otherSums.mpr ⟨t, ht, hcat⟩
  unrepeated := nodup_keys_otherSums _
  left_out _ _ := bucket_eq_none

end Figures

end OpenPms.Reports
