import Mathlib.Data.List.DropRight
import Mathlib.Data.List.GetD

/-!
Base64 in the alphabet for URLs. The reader is lenient: it passes by every character it does
not know and ends where the padding fills a group of four. Its writer's text may lose the
padding on the way, since the length of the rest tells how much there was.
-/
namespace Base64

def alphabet : List Char :=
  "ABCDEFGHIJKLMNOPQRSTUVWXYZabcdefghijklmnopqrstuvwxyz0123456789-_".toList

def symbol (n : ℕ) : Char := alphabet.getD n '='

/-- The reader also takes the two symbols of the standard alphabet. -/
def value (c : Char) : Option ℕ :=
  if c = '+' then some 62 else if c = '/' then some 63 else alphabet.idxOf? c

def symbols : List UInt8 → List Char
  | [] => []
  | [a] => [symbol (a.toNat / 4), symbol (a.toNat % 4 * 16)]
  | [a, b] =>
    [symbol (a.toNat / 4), symbol (a.toNat % 4 * 16 + b.toNat / 16), symbol (b.toNat % 16 * 4)]
  | a :: b :: c :: rest =>
    symbol (a.toNat / 4) :: symbol (a.toNat % 4 * 16 + b.toNat / 16) ::
      symbol (b.toNat % 16 * 4 + c.toNat / 64) :: symbol (c.toNat % 64) :: symbols rest

def encode (bytes : List UInt8) : List Char :=
  symbols bytes ++ List.replicate ((3 - bytes.length % 3) % 3) '='

/-- The reader within a group of four: the symbols it has, the bits of the last one that are
in no byte yet, and the padding since. -/
def read : (quad left pads : ℕ) → List Char → Option (List UInt8)
  | quad, _, _, [] => if quad = 0 then some [] else none
  | quad, left, pads, c :: rest =>
    if c = '=' then
      if 2 ≤ quad ∧ 4 ≤ quad + (pads + 1) then some []
      else read quad left (if 2 ≤ quad then pads + 1 else pads) rest
    else
      match value c with
      | none => read quad left pads rest
      | some v =>
        match quad with
        | 0 => read 1 v 0 rest
        | 1 => (read 2 (v % 16) 0 rest).map (UInt8.ofNat (left * 4 + v / 16) :: ·)
        | 2 => (read 3 (v % 4) 0 rest).map (UInt8.ofNat (left * 16 + v / 4) :: ·)
        | _ => (read 0 0 0 rest).map (UInt8.ofNat (left * 64 + v) :: ·)

def decode (text : List Char) : Option (List UInt8) := read 0 0 0 text

/-- Without its padding. -/
def bare (text : List Char) : List Char := text.rdropWhile (· = '=')

def padding (text : List Char) : List Char :=
  List.replicate ((4 - text.length % 4) % 4) '='

/-! Symbols -/

theorem pad_not_mem : '=' ∉ alphabet := by
  decide

theorem symbol_mem {n : ℕ} (hn : n < 64) : symbol n ∈ alphabet := by
  have hlength : alphabet.length = 64 := by decide
  rw [symbol, List.getD_eq_getElem _ _ (by omega : n < alphabet.length)]
  exact List.getElem_mem _

theorem value_symbol {n : ℕ} (hn : n < 64) : value (symbol n) = some n := by
  have hall : ∀ n : Fin 64, value (symbol n) = some n.val := by decide +kernel
  exact hall ⟨n, hn⟩

theorem symbol_ne_pad {n : ℕ} (hn : n < 64) : symbol n ≠ '=' := by
  intro heq
  have hmem := symbol_mem hn
  rw [heq] at hmem
  exact pad_not_mem hmem

theorem mem_alphabet_of_mem_symbols (bytes : List UInt8) : ∀ c ∈ symbols bytes, c ∈ alphabet := by
  have hlt (a : UInt8) : a.toNat < 256 := a.toNat_lt
  induction bytes using symbols.induct with
  | case1 => simp [symbols]
  | case2 a =>
    have ha := hlt a
    intro c hc
    simp only [symbols, List.mem_cons, List.not_mem_nil, or_false] at hc
    rcases hc with rfl | rfl <;> exact symbol_mem (by omega)
  | case3 a b =>
    have ha := hlt a
    have hb := hlt b
    intro c hc
    simp only [symbols, List.mem_cons, List.not_mem_nil, or_false] at hc
    rcases hc with rfl | rfl | rfl <;> exact symbol_mem (by omega)
  | case4 a b d rest ih =>
    have ha := hlt a
    have hb := hlt b
    have hd := hlt d
    intro c hc
    simp only [symbols, List.mem_cons] at hc
    rcases hc with rfl | rfl | rfl | rfl | hc
    · exact symbol_mem (by omega)
    · exact symbol_mem (by omega)
    · exact symbol_mem (by omega)
    · exact symbol_mem (by omega)
    · exact ih c hc

theorem length_symbols (bytes : List UInt8) :
    (symbols bytes).length = (4 * bytes.length + 2) / 3 := by
  induction bytes using symbols.induct with
  | case1 => simp [symbols]
  | case2 a => simp [symbols]
  | case3 a b => simp [symbols]
  | case4 a b c rest ih =>
    simp only [symbols, List.length_cons, ih]
    omega

/-! The text without padding -/

theorem rdropWhile_append_replicate {α : Type} {p : α → Bool} {x : α} (hx : p x = true)
    (l : List α) (n : ℕ) : (l ++ List.replicate n x).rdropWhile p = l.rdropWhile p := by
  induction n with
  | zero => simp
  | succ n ih =>
    rw [List.replicate_succ', ← List.append_assoc, List.rdropWhile_concat_pos _ _ _ hx, ih]

theorem bare_encode (bytes : List UInt8) : bare (encode bytes) = symbols bytes := by
  rw [bare, encode, rdropWhile_append_replicate (by simp)]
  rw [List.rdropWhile_eq_self_iff]
  intro hne
  have hmem := mem_alphabet_of_mem_symbols bytes _ (List.getLast_mem hne)
  intro heq
  rw [of_decide_eq_true heq] at hmem
  exact pad_not_mem hmem

/-- The length tells how much padding a text has lost. -/
theorem bare_append_padding (bytes : List UInt8) :
    bare (encode bytes) ++ padding (bare (encode bytes)) = encode bytes := by
  rw [bare_encode, padding, encode, length_symbols]
  congr 2
  obtain h | h | h : bytes.length % 3 = 0 ∨ bytes.length % 3 = 1 ∨ bytes.length % 3 = 2 := by
    omega
  · omega
  · omega
  · omega

/-! The round trip -/

theorem read_symbol {n : ℕ} (hn : n < 64) (quad left pads : ℕ) (rest : List Char) :
    read quad left pads (symbol n :: rest) =
      match quad with
      | 0 => read 1 n 0 rest
      | 1 => (read 2 (n % 16) 0 rest).map (UInt8.ofNat (left * 4 + n / 16) :: ·)
      | 2 => (read 3 (n % 4) 0 rest).map (UInt8.ofNat (left * 16 + n / 4) :: ·)
      | _ => (read 0 0 0 rest).map (UInt8.ofNat (left * 64 + n) :: ·) := by
  rw [read, if_neg (symbol_ne_pad hn), value_symbol hn]

theorem read_symbol_zero {n : ℕ} (hn : n < 64) (left pads : ℕ) (rest : List Char) :
    read 0 left pads (symbol n :: rest) = read 1 n 0 rest :=
  read_symbol hn 0 left pads rest

theorem read_symbol_one {n : ℕ} (hn : n < 64) (left pads : ℕ) (rest : List Char) :
    read 1 left pads (symbol n :: rest) =
      (read 2 (n % 16) 0 rest).map (UInt8.ofNat (left * 4 + n / 16) :: ·) :=
  read_symbol hn 1 left pads rest

theorem read_symbol_two {n : ℕ} (hn : n < 64) (left pads : ℕ) (rest : List Char) :
    read 2 left pads (symbol n :: rest) =
      (read 3 (n % 4) 0 rest).map (UInt8.ofNat (left * 16 + n / 4) :: ·) :=
  read_symbol hn 2 left pads rest

theorem read_symbol_three {n : ℕ} (hn : n < 64) (left pads : ℕ) (rest : List Char) :
    read 3 left pads (symbol n :: rest) =
      (read 0 0 0 rest).map (UInt8.ofNat (left * 64 + n) :: ·) :=
  read_symbol hn 3 left pads rest

/-- A byte that two symbols carry. -/
theorem ofNat_of_eq {a : UInt8} {n : ℕ} (h : n = a.toNat) : UInt8.ofNat n = a := by
  rw [h, UInt8.ofNat_toNat]

theorem decode_encode (bytes : List UInt8) : decode (encode bytes) = some bytes := by
  have hlt (a : UInt8) : a.toNat < 256 := a.toNat_lt
  unfold decode encode
  induction bytes using symbols.induct with
  | case1 => rfl
  | case2 a =>
    have ha := hlt a
    have hbyte : UInt8.ofNat (a.toNat / 4 * 4 + a.toNat % 4 * 16 / 16) = a :=
      ofNat_of_eq (by omega)
    simp only [symbols, List.cons_append]
    rw [read_symbol_zero (by omega), read_symbol_one (by omega), hbyte]
    simp [read]
  | case3 a b =>
    have ha := hlt a
    have hb := hlt b
    have hfirst : UInt8.ofNat (a.toNat / 4 * 4 + (a.toNat % 4 * 16 + b.toNat / 16) / 16) = a :=
      ofNat_of_eq (by omega)
    have hsecond : UInt8.ofNat ((a.toNat % 4 * 16 + b.toNat / 16) % 16 * 16 +
        b.toNat % 16 * 4 / 4) = b := ofNat_of_eq (by omega)
    simp only [symbols, List.cons_append]
    rw [read_symbol_zero (by omega), read_symbol_one (by omega), read_symbol_two (by omega),
      hfirst, hsecond]
    simp [read]
  | case4 a b c rest ih =>
    have ha := hlt a
    have hb := hlt b
    have hc := hlt c
    have hfirst : UInt8.ofNat (a.toNat / 4 * 4 + (a.toNat % 4 * 16 + b.toNat / 16) / 16) = a :=
      ofNat_of_eq (by omega)
    have hsecond : UInt8.ofNat ((a.toNat % 4 * 16 + b.toNat / 16) % 16 * 16 +
        (b.toNat % 16 * 4 + c.toNat / 64) / 4) = b := ofNat_of_eq (by omega)
    have hthird : UInt8.ofNat ((b.toNat % 16 * 4 + c.toNat / 64) % 4 * 64 + c.toNat % 64) = c :=
      ofNat_of_eq (by omega)
    have hpads : (3 - (a :: b :: c :: rest).length % 3) % 3 = (3 - rest.length % 3) % 3 := by
      simp only [List.length_cons]
      omega
    rw [hpads]
    simp only [symbols, List.cons_append]
    rw [read_symbol_zero (by omega), read_symbol_one (by omega), read_symbol_two (by omega),
      read_symbol_three (by omega), hfirst, hsecond, hthird, ih]
    rfl

end Base64
