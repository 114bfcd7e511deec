import Mathlib.Algebra.Order.Monoid.Unbundled.WithTop
import Mathlib.Data.List.Nodup
import Mathlib.Data.List.Sort
import Mathlib.Data.List.Dedup
import Mathlib.Data.List.DropRight
import Mathlib.Algebra.Order.Ring.Int

/-!
The vocabulary shared by all services: identifiers, calendar days, money, the text
functions of the request schemas, and the night arithmetic of a stay.
Days are their ordinal numbers; a stay covers the half-open [check_in, check_out).
-/
namespace OpenPms

abbrev UUID := ℕ

/-- Columns of type numeric(14,2), in cents. The top element is the column's NaN,
which equals itself, exceeds every number and absorbs sums. -/
abbrev Money := WithTop ℤ

namespace Money

def fits : Money → Bool
  | ⊤ => true
  | (n : ℤ) => n.natAbs < 10 ^ 14

def sub : Money → Money → Money
  | (a : ℤ), (b : ℤ) => ((a - b : ℤ) : Money)
  | _, _ => ⊤

end Money

namespace Text

/-- The characters that `str.strip` removes. -/
def isSpace (c : Char) : Bool :=
  let n := c.toNat
  (9 ≤ n && n ≤ 13) || (28 ≤ n && n ≤ 32) || n == 0x85 || n == 0xA0 || n == 0x1680 ||
    (0x2000 ≤ n && n ≤ 0x200A) || n == 0x2028 || n == 0x2029 || n == 0x202F ||
    n == 0x205F || n == 0x3000

def strip (s : String) : String :=
  String.ofList ((s.toList.dropWhile isSpace).reverse.dropWhile isSpace).reverse

/-- Lower case as far as ASCII results go: besides A to Z only the Kelvin sign
has an ASCII lower case letter. Other capitals stay, where `str.lower` has É become é. -/
def lowerChar (c : Char) : Char :=
  if c.toNat = 0x212A then 'k' else c.toLower

def lower (s : String) : String := String.ofList (s.toList.map lowerChar)

def take (n : ℕ) (s : String) : String := String.ofList (s.toList.take n)

end Text

theorem strip_strip (s : String) : Text.strip (Text.strip s) = Text.strip s := by
  unfold Text.strip
  simp only [String.toList_ofList]
  congr 2
  have hstart : (List.dropWhile Text.isSpace (List.rdropWhile Text.isSpace
      (List.dropWhile Text.isSpace s.toList))) =
      List.rdropWhile Text.isSpace (List.dropWhile Text.isSpace s.toList) := by
    refine List.dropWhile_eq_self_iff.mpr fun hpos => ?_
    have htrimmed := List.rdropWhile_prefix Text.isSpace (List.dropWhile Text.isSpace s.toList)
    have hpos' : 0 < (List.dropWhile Text.isSpace s.toList).length :=
      hpos.trans_le htrimmed.length_le
    rw [htrimmed.getElem hpos]
    exact List.dropWhile_get_zero_not _ _ hpos'
  have hend := List.rdropWhile_idempotent Text.isSpace (List.dropWhile Text.isSpace s.toList)
  unfold List.rdropWhile at hstart hend
  rw [hstart, ← List.reverse_inj, hend]

private theorem dropWhile_isSpace {cs : List Char} (h : ∀ c ∈ cs, Text.isSpace c = false) :
    cs.dropWhile Text.isSpace = cs := by
  cases cs with
  | nil => rfl
  | cons c rest => simp [h c (List.mem_cons_self ..)]

theorem strip_of_no_space {s : String} (h : ∀ c ∈ s.toList, Text.isSpace c = false) :
    Text.strip s = s := by
  have hrev : ∀ c ∈ s.toList.reverse, Text.isSpace c = false := by simpa using h
  simp [Text.strip, dropWhile_isSpace h, dropWhile_isSpace hrev]

/-- A long text, in parts that are checked one by one. -/
def Text.ofParts (parts : List String) : String := String.ofList (parts.flatMap String.toList)

theorem isSpace_ofParts {parts : List String}
    (h : (parts.all fun part => part.toList.all fun c => ! Text.isSpace c) = true) :
    ∀ c ∈ (Text.ofParts parts).toList, Text.isSpace c = false := by
  intro c hc
  rw [Text.ofParts, String.toList_ofList, List.mem_flatMap] at hc
  obtain ⟨part, hpart, hc⟩ := hc
  simpa using List.all_eq_true.mp (List.all_eq_true.mp h part hpart) c hc

theorem ofParts_ne_empty {parts : List String} (h : (parts.any fun part => part ≠ "") = true) :
    Text.ofParts parts ≠ "" := by
  intro heq
  rw [Text.ofParts, ← String.toList_inj, String.toList_ofList, String.toList_empty,
    List.flatMap_eq_nil_iff] at heq
  obtain ⟨part, hpart, hne⟩ := List.any_eq_true.mp h
  exact of_decide_eq_true hne (String.toList_eq_nil_iff.mp (heq part hpart))

/-! Night arithmetic -/

/-- `date.max` -/
def dateMax : ℤ := 3652059

def maxStayNights : ℕ := 365

/-- The days `start, start + 1, ...` before `stop`. -/
def daysBetween (start stop : ℤ) : List ℤ :=
  (List.range (stop - start).toNat).map fun (i : ℕ) => start + (i : ℤ)

theorem mem_daysBetween {start stop d : ℤ} :
    d ∈ daysBetween start stop ↔ start ≤ d ∧ d < stop := by
  simp only [daysBetween, List.mem_map, List.mem_range]
  constructor
  · rintro ⟨i, hi, rfl⟩
    omega
  · intro h
    exact ⟨(d - start).toNat, by omega, by omega⟩

theorem nodup_daysBetween (start stop : ℤ) : (daysBetween start stop).Nodup := by
  apply List.Nodup.map _ List.nodup_range
  intro i j hij
  simpa using hij

theorem length_daysBetween (start stop : ℤ) :
    (daysBetween start stop).length = (stop - start).toNat := by
  simp [daysBetween]

theorem daysBetween_ne_nil {start stop : ℤ} (h : start < stop) :
    daysBetween start stop ≠ [] := by
  intro hnil
  have hmem : start ∈ daysBetween start stop := mem_daysBetween.mpr ⟨le_refl _, h⟩
  simp [hnil] at hmem

/-- The nights of a stay, or the text of the `ValueError`. -/
def iterStayNights (checkIn checkOut : ℤ) : Except String (List ℤ) :=
  if checkOut ≤ checkIn then .error "check_out must be after check_in"
  else
    let nights := daysBetween checkIn checkOut
    if maxStayNights < nights.length then .error "stay cannot exceed 365 nights"
    else .ok nights

theorem iterStayNights_ok {checkIn checkOut : ℤ} {nights : List ℤ}
    (h : iterStayNights checkIn checkOut = .ok nights) :
    checkIn < checkOut ∧ checkOut - checkIn ≤ maxStayNights ∧
      nights = daysBetween checkIn checkOut := by
  unfold iterStayNights at h
  split at h
  · cases h
  · next hlt =>
    simp only [length_daysBetween] at h
    split at h
    · cases h
    · next hlen =>
      cases h
      exact ⟨by omega, by omega, rfl⟩

theorem iterStayNights_of_span {checkIn checkOut : ℤ} (hlt : checkIn < checkOut)
    (hspan : checkOut - checkIn ≤ maxStayNights) :
    iterStayNights checkIn checkOut = .ok (daysBetween checkIn checkOut) := by
  have hlen : ¬ maxStayNights < (daysBetween checkIn checkOut).length := by
    rw [length_daysBetween]
    omega
  simp [iterStayNights, hlt.not_ge, hlen]

/-- Both ends included, as the override and seeding ranges are. -/
def iterInclusiveDates (start stop : ℤ) : List ℤ := daysBetween start (stop + 1)

/-- Sorted without repetition: the order of `sorted(set(nights))` and of
`ORDER BY date`. -/
def sortedDates (dates : List ℤ) : List ℤ := dates.dedup.insertionSort (· ≤ ·)

theorem mem_sortedDates {dates : List ℤ} {d : ℤ} : d ∈ sortedDates dates ↔ d ∈ dates := by
  simp [sortedDates, List.mem_dedup]

theorem nodup_sortedDates (dates : List ℤ) : (sortedDates dates).Nodup :=
  (List.perm_insertionSort _ _).nodup_iff.mpr (List.nodup_dedup dates)

end OpenPms
