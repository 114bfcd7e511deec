import Mathlib.Algebra.Order.Ring.Int
import Mathlib.Data.List.DropRight

/-!
Numbers in texts, as Python's `int` reads them: blanks around, a sign, a prefix for base 16,
single underscores between the digits, and the decimal digits of every script. A number of
fixed width in hexadecimal is read back.
-/
namespace Numerals

/-- `0` to `9`, and `a` to `f` in both cases. -/
def asciiDigit (c : Char) : Option ℕ :=
  if '0' ≤ c ∧ c ≤ '9' then some (c.toNat - 48)
  else if 'a' ≤ c ∧ c ≤ 'f' then some (c.toNat - 87)
  else if 'A' ≤ c ∧ c ≤ 'F' then some (c.toNat - 55)
  else none

/-- The decimal zeros of Unicode 15; the other nine digits of a script follow its zero. -/
def zeros : List ℕ :=
  [0x30, 0x660, 0x6F0, 0x7C0, 0x966, 0x9E6, 0xA66, 0xAE6, 0xB66, 0xBE6, 0xC66, 0xCE6, 0xD66,
    0xDE6, 0xE50, 0xED0, 0xF20, 0x1040, 0x1090, 0x17E0, 0x1810, 0x1946, 0x19D0, 0x1A80, 0x1A90,
    0x1B50, 0x1BB0, 0x1C40, 0x1C50, 0xA620, 0xA8D0, 0xA900, 0xA9D0, 0xA9F0, 0xAA50, 0xABF0,
    0xFF10, 0x104A0, 0x10D30, 0x11066, 0x110F0, 0x11136, 0x111D0, 0x112F0, 0x11450, 0x114D0,
    0x11650, 0x116C0, 0x11730, 0x118E0, 0x11950, 0x11C50, 0x11D50, 0x11DA0, 0x11F50, 0x16A60,
    0x16AC0, 0x16B50, 0x1D7CE, 0x1D7D8, 0x1D7E2, 0x1D7EC, 0x1D7F6, 0x1E140, 0x1E2F0, 0x1E4F0,
    0x1E950, 0x1FBF0]

def decimalDigit (c : Char) : Option ℕ :=
  (zeros.find? fun start => start ≤ c.toNat ∧ c.toNat < start + 10).map (c.toNat - ·)

def digit (base : ℕ) (c : Char) : Option ℕ :=
  ((asciiDigit c).orElse fun _ => decimalDigit c).filter (· < base)

/-- Unlike `str.strip`, `int` keeps the separators 28 to 31. -/
def isBlank (c : Char) : Bool :=
  let n := c.toNat
  (9 ≤ n && n ≤ 13) || n == 32 || n == 0x85 || n == 0xA0 || n == 0x1680 ||
    (0x2000 ≤ n && n ≤ 0x200A) || n == 0x2028 || n == 0x2029 || n == 0x202F ||
    n == 0x205F || n == 0x3000

def joined (value : Char → Option ℕ) (base : ℕ) (text : List Char) : Option ℕ :=
  text.foldlM (fun n c => (value c).map (n * base + ·)) 0

/-- More decimal digits than these are refused. -/
def maxStrDigits : ℕ := 4300

def magnitude (base : ℕ) (text : List Char) : Option ℕ :=
  let groups := text.splitOn '_'
  if [] ∈ groups then none
  else if base = 10 ∧ maxStrDigits < groups.flatten.length then none
  else joined (digit base) base groups.flatten

/-- One underscore may follow the prefix. -/
def dropHexPrefix (text : List Char) : List Char :=
  if text.take 2 = ['0', 'x'] ∨ text.take 2 = ['0', 'X'] then
    match text.drop 2 with
    | '_' :: rest => rest
    | rest => rest
  else text

def unsigned (base : ℕ) (text : List Char) : Option ℕ :=
  magnitude base (if base = 16 then dropHexPrefix text else text)

/-- `int(text, base)` for base 10 and 16; `none` stands for its `ValueError`. -/
def parseInt (base : ℕ) (text : List Char) : Option ℤ :=
  match (text.dropWhile isBlank).rdropWhile isBlank with
  | '-' :: rest => (unsigned base rest).map fun n => -(n : ℤ)
  | '+' :: rest => (unsigned base rest).map fun n => (n : ℤ)
  | rest => (unsigned base rest).map fun n => (n : ℤ)

/-! Hexadecimal of a fixed width -/

def fixedHex : ℕ → ℕ → List Char
  | 0, _ => []
  | width + 1, n => fixedHex width (n / 16) ++ [Nat.digitChar (n % 16)]

def hexAlphabet : List Char :=
  ['0', '1', '2', '3', '4', '5', '6', '7', '8', '9', 'a', 'b', 'c', 'd', 'e', 'f']

/-- A property of all sixteen digits. -/
theorem forall_mem_hex {p : Char → Prop} [DecidablePred p]
    (h : (hexAlphabet.all fun c => decide (p c)) = true) : ∀ c ∈ hexAlphabet, p c :=
  fun c hc => of_decide_eq_true (List.all_eq_true.mp h c hc)

@[simp] theorem length_fixedHex (width n : ℕ) : (fixedHex width n).length = width := by
  induction width generalizing n with
  | zero => rfl
  | succ width ih => simp [fixedHex, ih]

theorem digitChar_mem {d : ℕ} (hd : d < 16) : Nat.digitChar d ∈ hexAlphabet := by
  have hall : ∀ d : Fin 16, Nat.digitChar d ∈ hexAlphabet := by decide
  exact hall ⟨d, hd⟩

theorem asciiDigit_digitChar {d : ℕ} (hd : d < 16) : asciiDigit (Nat.digitChar d) = some d := by
  have hall : ∀ d : Fin 16, asciiDigit (Nat.digitChar d) = some d.val := by decide
  exact hall ⟨d, hd⟩

theorem digit_digitChar {d : ℕ} (hd : d < 16) : digit 16 (Nat.digitChar d) = some d := by
  simp [digit, asciiDigit_digitChar hd, hd]

theorem mem_fixedHex {width n : ℕ} : ∀ c ∈ fixedHex width n, c ∈ hexAlphabet := by
  induction width generalizing n with
  | zero => simp [fixedHex]
  | succ width ih =>
    intro c hc
    rw [fixedHex, List.mem_append, List.mem_singleton] at hc
    rcases hc with hc | rfl
    · exact ih c hc
    · exact digitChar_mem (Nat.mod_lt _ (by omega))

theorem joined_fixedHex {value : Char → Option ℕ}
    (hvalue : ∀ d < 16, value (Nat.digitChar d) = some d) (width n : ℕ) :
    joined value 16 (fixedHex width n) = some (n % 16 ^ width) := by
  induction width generalizing n with
  | zero => simp [joined, fixedHex, Nat.mod_one]
  | succ width ih =>
    have hlast : n % 16 < 16 := Nat.mod_lt _ (by omega)
    have hinit := ih (n / 16)
    unfold joined at hinit ⊢
    rw [fixedHex, List.foldlM_append, hinit]
    simp only [Option.bind_eq_bind, Option.bind_some, List.foldlM_cons, List.foldlM_nil,
      hvalue _ hlast, Option.map_some, Option.pure_def, Option.some.injEq]
    rw [Nat.pow_succ', Nat.mod_mul]
    omega

/-- A text of hexadecimal digits has no blanks, sign, prefix or underscores to read. -/
theorem parseInt_of_hex {text : List Char} (htext : ∀ c ∈ text, c ∈ hexAlphabet)
    (hne : text ≠ []) :
    parseInt 16 text = (joined (digit 16) 16 text).map fun n => (n : ℤ) := by
  have hblank : ∀ c ∈ hexAlphabet, isBlank c = false := forall_mem_hex (by decide)
  have hplain : ∀ c ∈ hexAlphabet, c ≠ '_' ∧ c ≠ '-' ∧ c ≠ '+' ∧ c ≠ 'x' ∧ c ≠ 'X' :=
    forall_mem_hex (by decide)
  have hstart : text.dropWhile isBlank = text := by
    rw [List.dropWhile_eq_self_iff]
    intro hpos
    simp [hblank _ (htext _ (List.getElem_mem hpos))]
  have hend : text.rdropWhile isBlank = text := by
    rw [List.rdropWhile_eq_self_iff]
    intro hlast
    simp [hblank _ (htext _ (List.getLast_mem hlast))]
  have hsplit : text.splitOn '_' = [text] :=
    List.splitOn_eq_singleton fun hmem => (hplain _ (htext _ hmem)).1 rfl
  have hprefix : dropHexPrefix text = text := by
    refine if_neg ?_
    rintro (hx | hx)
    · have hmem : 'x' ∈ text := List.mem_of_mem_take (hx ▸ by simp : 'x' ∈ text.take 2)
      exact (hplain _ (htext _ hmem)).2.2.2.1 rfl
    · have hmem : 'X' ∈ text := List.mem_of_mem_take (hx ▸ by simp : 'X' ∈ text.take 2)
      exact (hplain _ (htext _ hmem)).2.2.2.2 rfl
  have hunsigned : unsigned 16 text = joined (digit 16) 16 text := by
    simp [unsigned, magnitude, hprefix, hsplit, Ne.symm hne]
  rw [parseInt, hstart, hend, ← hunsigned]
  split
  · exact absurd rfl (hplain _ (htext _ List.mem_cons_self)).2.1
  · exact absurd rfl (hplain _ (htext _ List.mem_cons_self)).2.2.1
  · rfl

theorem parseInt_fixedHex {width n : ℕ} (hwidth : 0 < width) (hn : n < 16 ^ width) :
    parseInt 16 (fixedHex width n) = some (n : ℤ) := by
  have hne : fixedHex width n ≠ [] := by
    intro hnil
    have hlength := length_fixedHex width n
    rw [hnil] at hlength
    simp only [List.length_nil] at hlength
    omega
  rw [parseInt_of_hex mem_fixedHex hne, joined_fixedHex fun d hd => digit_digitChar hd,
    Nat.mod_eq_of_lt hn]
  rfl

end Numerals
