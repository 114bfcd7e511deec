import OpenPms.Lib.Numerals

/-!
JSON texts, as Python's `json` reads and writes them. The reader takes every JSON text and,
like the original, the three words for floats that are not finite; a key that stands twice
keeps both entries, the last of which counts. The writer is that of a flat object, without
spaces and in ASCII, and the reader takes back what it wrote.
-/
namespace JsonText

open Numerals

inductive Value where
  | null
  | bool (b : Bool)
  | int (n : ℤ)
  /-- A number with a point or an exponent, `mantissa * 10 ^ exponent` as it is written. -/
  | decimal (mantissa exponent : ℤ)
  | nan
  | infinity (negative : Bool)
  | str (s : List Char)
  | arr (items : List Value)
  | obj (fields : List (List Char × Value))

def lookup (fields : List (List Char × Value)) (key : List Char) : Option Value :=
  (fields.reverse.find? fun field => field.1 = key).map (·.2)

theorem lookup_nil (key : List Char) : lookup [] key = none := rfl

/-- A later member of the same name wins. -/
theorem lookup_cons (field : List Char × Value) (rest : List (List Char × Value))
    (key : List Char) :
    lookup (field :: rest) key =
      (lookup rest key).or (if field.1 = key then some field.2 else none) := by
  unfold lookup
  rw [List.reverse_cons, List.find?_append]
  cases rest.reverse.find? fun field => field.1 = key with
  | some found => rfl
  | none =>
    by_cases h : field.1 = key
    · simp [h]
    · simp [h]

def isSpace (c : Char) : Bool := c == ' ' || c == '\t' || c == '\n' || c == '\r'

def skipSpace (text : List Char) : List Char := text.dropWhile isSpace

/-! Strings -/

def simpleEscape (c : Char) : Option ℕ :=
  if c = '"' ∨ c = '\\' ∨ c = '/' then some c.toNat
  else if c = 'b' then some 8
  else if c = 'f' then some 12
  else if c = 'n' then some 10
  else if c = 'r' then some 13
  else if c = 't' then some 9
  else none

/-- The code units up to the closing quote. Control characters must be escaped. -/
def scanString : List Char → Option (List ℕ × List Char)
  | [] => none
  | '"' :: rest => some ([], rest)
  | '\\' :: 'u' :: a :: b :: c :: d :: rest => do
    let unit ← joined asciiDigit 16 [a, b, c, d]
    let (units, rest) ← scanString rest
    some (unit :: units, rest)
  | '\\' :: c :: rest => do
    let unit ← simpleEscape c
    let (units, rest) ← scanString rest
    some (unit :: units, rest)
  | c :: rest => do
    if c.toNat < 32 ∨ c = '\\' then none
    else
      let (units, rest) ← scanString rest
      some (c.toNat :: units, rest)

def isHigh (n : ℕ) : Bool := 0xD800 ≤ n && n < 0xDC00

def isLow (n : ℕ) : Bool := 0xDC00 ≤ n && n < 0xE000

/-- No character stands for a lone surrogate: the replacement character takes its place. -/
def unitChar (n : ℕ) : Char := if n.isValidChar then Char.ofNat n else '\uFFFD'

def joinUnits : List ℕ → List Char
  | [] => []
  | [n] => [unitChar n]
  | high :: low :: rest =>
    if isHigh high && isLow low then
      Char.ofNat (0x10000 + (high - 0xD800) * 0x400 + (low - 0xDC00)) :: joinUnits rest
    else unitChar high :: joinUnits (low :: rest)

/-! Numbers -/

def scanSign : List Char → ℤ × List Char
  | '-' :: rest => (-1, rest)
  | rest => (1, rest)

/-- The digits after a point, if there are any. -/
def scanFraction : List Char → List Char × List Char
  | '.' :: rest =>
    let digits := rest.takeWhile Char.isDigit
    if digits = [] then ([], '.' :: rest) else (digits, rest.drop digits.length)
  | rest => ([], rest)

def scanExponent : List Char → Option ℤ × List Char
  | [] => (none, [])
  | c :: rest =>
    if c = 'e' ∨ c = 'E' then
      let (sign, body) := match rest with
        | '+' :: body => (1, body)
        | body => scanSign body
      let digits := body.takeWhile Char.isDigit
      if digits = [] then (none, c :: rest)
      else (some (sign * Nat.ofDigitChars 10 digits 0), body.drop digits.length)
    else (none, c :: rest)

/-- A whole part starts with zero only if it is zero. -/
def scanWhole : List Char → List Char
  | '0' :: _ => ['0']
  | text => text.takeWhile Char.isDigit

def scanNumber (text : List Char) : Option (Value × List Char) :=
  let (sign, body) := scanSign text
  let whole := scanWhole body
  if whole = [] then none
  else
    let (fraction, rest) := scanFraction (body.drop whole.length)
    let (exponent, rest) := scanExponent rest
    if fraction = [] ∧ exponent = none then
      if maxStrDigits < whole.length then none
      else some (.int (sign * Nat.ofDigitChars 10 whole 0), rest)
    else
      some (.decimal (sign * Nat.ofDigitChars 10 (whole ++ fraction) 0)
        (exponent.getD 0 - fraction.length), rest)

/-! Values -/

def literals : List (List Char × Value) :=
  [("null".toList, .null), ("true".toList, .bool true), ("false".toList, .bool false),
    ("NaN".toList, .nan), ("Infinity".toList, .infinity false),
    ("-Infinity".toList, .infinity true)]

def scanScalar (text : List Char) : Option (Value × List Char) :=
  match literals.find? fun literal => literal.1.isPrefixOf text with
  | some (word, value) => some (value, text.drop word.length)
  | none => scanNumber text

mutual

/-- Every step of the fuel takes a character of the text at least. -/
def scanOnce : ℕ → List Char → Option (Value × List Char)
  | _ + 1, '"' :: rest => do
    let (units, rest) ← scanString rest
    some (.str (joinUnits units), rest)
  | fuel + 1, '\x7b' :: rest =>
    match skipSpace rest with
    | '\x7d' :: rest => some (.obj [], rest)
    | rest => do
      let (fields, rest) ← scanMembers fuel rest
      some (.obj fields, rest)
  | fuel + 1, '[' :: rest =>
    match skipSpace rest with
    | ']' :: rest => some (.arr [], rest)
    | rest => do
      let (items, rest) ← scanItems fuel rest
      some (.arr items, rest)
  | _ + 1, text => scanScalar text
  | 0, _ => none

def scanMembers : ℕ → List Char → Option (List (List Char × Value) × List Char)
  | fuel + 1, '"' :: rest => do
    let (units, rest) ← scanString rest
    match skipSpace rest with
    | ':' :: rest => do
      let (value, rest) ← scanOnce fuel (skipSpace rest)
      match skipSpace rest with
      | '\x7d' :: rest => some ([(joinUnits units, value)], rest)
      | ',' :: rest => do
        let (fields, rest) ← scanMembers fuel (skipSpace rest)
        some ((joinUnits units, value) :: fields, rest)
      | _ => none
    | _ => none
  | _, _ => none

def scanItems : ℕ → List Char → Option (List Value × List Char)
  | fuel + 1, text => do
    let (value, rest) ← scanOnce fuel text
    match skipSpace rest with
    | ']' :: rest => some ([value], rest)
    | ',' :: rest => do
      let (items, rest) ← scanItems fuel (skipSpace rest)
      some (value :: items, rest)
    | _ => none
  | 0, _ => none

end

/-- `none` stands for a `JSONDecodeError`. -/
def loads (text : List Char) : Option Value :=
  if text.head? = some '\uFEFF' then none
  else do
    let (value, rest) ← scanOnce (text.length + 1) (skipSpace text)
    if skipSpace rest = [] then some value else none

/-! Writing -/

def codeUnits (c : Char) : List ℕ :=
  if c.toNat < 0x10000 then [c.toNat]
  else [0xD800 + (c.toNat - 0x10000) / 0x400, 0xDC00 + (c.toNat - 0x10000) % 0x400]

def escapeUnit (n : ℕ) : List Char := '\\' :: 'u' :: fixedHex 4 n

def dumpChar (c : Char) : List Char :=
  if c = '"' ∨ c = '\\' then ['\\', c]
  else if c = '\n' then ['\\', 'n']
  else if c = '\r' then ['\\', 'r']
  else if c = '\t' then ['\\', 't']
  else if c.toNat = 12 then ['\\', 'f']
  else if c.toNat = 8 then ['\\', 'b']
  else if 32 ≤ c.toNat ∧ c.toNat ≤ 126 then [c]
  else (codeUnits c).flatMap escapeUnit

def dumpText (s : List Char) : List Char := '"' :: s.flatMap dumpChar ++ ['"']

def dumpInt (n : ℤ) : List Char :=
  if n < 0 then '-' :: Nat.toDigits 10 n.natAbs else Nat.toDigits 10 n.natAbs

inductive Scalar where
  | text (s : List Char)
  | number (n : ℤ)
  deriving DecidableEq

namespace Scalar

def value : Scalar → Value
  | text s => .str s
  | number n => .int n

def dump : Scalar → List Char
  | text s => dumpText s
  | number n => dumpInt n

/-- The decimal digits of the number are few enough to be read again. -/
def Fits : Scalar → Prop
  | text _ => True
  | number n => n.natAbs < 10 ^ maxStrDigits

end Scalar

def dumpMember (field : List Char × Scalar) : List Char :=
  dumpText field.1 ++ ':' :: field.2.dump

def dumpMembers : List (List Char × Scalar) → List Char
  | [] => []
  | [field] => dumpMember field
  | field :: rest => dumpMember field ++ ',' :: dumpMembers rest

/-- `json.dumps` with the separators `,` and `:`. -/
def dumps (fields : List (List Char × Scalar)) : List Char :=
  '\x7b' :: dumpMembers fields ++ ['\x7d']

/-! Reading strings again -/

theorem scanString_escape {n : ℕ} (hn : n < 16 ^ 4) (rest : List Char) :
    scanString (escapeUnit n ++ rest) =
      (scanString rest).map fun read => (n :: read.1, read.2) := by
  have hhex := joined_fixedHex (fun d hd => asciiDigit_digitChar hd) 4 n
  rw [Nat.mod_eq_of_lt hn] at hhex
  have hlength := length_fixedHex 4 n
  rw [escapeUnit]
  generalize fixedHex 4 n = hex at hhex hlength
  match hex, hlength with
  | [a, b, c, d], _ =>
    simp only [List.cons_append, List.nil_append, scanString, hhex]
    cases scanString rest <;> rfl

theorem scanString_simple {c : Char} {n : ℕ} (hu : c ≠ 'u') (hc : simpleEscape c = some n)
    (rest : List Char) :
    scanString ('\\' :: c :: rest) =
      (scanString rest).map fun read => (n :: read.1, read.2) := by
  rw [scanString.eq_4, hc]
  · cases scanString rest <;> rfl
  · simp [hu]

theorem scanString_plain {c : Char} (hquote : c ≠ '"') (hback : c ≠ '\\') (hc : 32 ≤ c.toNat)
    (rest : List Char) :
    scanString (c :: rest) =
      (scanString rest).map fun read => (c.toNat :: read.1, read.2) := by
  rw [scanString.eq_5]
  · have hnot : ¬ (c.toNat < 32 ∨ c = '\\') := by
      rintro (hlt | heq)
      · omega
      · exact hback heq
    rw [if_neg hnot]
    cases scanString rest <;> rfl
  · simp [hquote]
  · simp [hback]
  · simp [hback]

theorem toNat_bounds (c : Char) :
    c.toNat < 0xD800 ∨ 0xE000 ≤ c.toNat ∧ c.toNat < 0x110000 := by
  have hvalid : c.toNat.isValidChar := c.valid
  unfold Nat.isValidChar at hvalid
  omega

theorem codeUnits_small {c : Char} (hc : c.toNat < 0x10000) : codeUnits c = [c.toNat] :=
  if_pos hc

theorem scanString_dumpChar (c : Char) (rest : List Char) :
    scanString (dumpChar c ++ rest) =
      (scanString rest).map fun read => (codeUnits c ++ read.1, read.2) := by
  have hbounds := toNat_bounds c
  unfold dumpChar
  split
  · next hc =>
    rcases hc with rfl | rfl
    · exact scanString_simple (by decide) rfl rest
    · exact scanString_simple (by decide) rfl rest
  split
  · next hc =>
    subst hc
    exact scanString_simple (by decide) rfl rest
  split
  · next hc =>
    subst hc
    exact scanString_simple (by decide) rfl rest
  split
  · next hc =>
    subst hc
    exact scanString_simple (by decide) rfl rest
  split
  · next hc =>
    rw [codeUnits_small (by omega), hc]
    exact scanString_simple (by decide) rfl rest
  split
  · next hc =>
    rw [codeUnits_small (by omega), hc]
    exact scanString_simple (by decide) rfl rest
  split
  · next hquote _ _ _ _ _ hc =>
    rw [codeUnits_small (by omega)]
    exact scanString_plain (fun h => hquote (.inl h)) (fun h => hquote (.inr h)) hc.1 rest
  · unfold codeUnits
    split
    · next hsmall =>
      rw [List.flatMap_singleton, scanString_escape (by omega)]
      rfl
    · have hhigh : 0xD800 + (c.toNat - 0x10000) / 0x400 < 16 ^ 4 := by omega
      have hlow : 0xDC00 + (c.toNat - 0x10000) % 0x400 < 16 ^ 4 := by omega
      rw [List.flatMap_cons, List.flatMap_singleton, List.append_assoc,
        scanString_escape hhigh, scanString_escape hlow]
      cases scanString rest <;> rfl

theorem scanString_dump (s rest : List Char) :
    scanString (s.flatMap dumpChar ++ '"' :: rest) = some (s.flatMap codeUnits, rest) := by
  induction s with
  | nil => simp [scanString]
  | cons c s ih =>
    rw [List.flatMap_cons, List.append_assoc, scanString_dumpChar, ih]
    rfl

theorem joinUnits_cons {n : ℕ} (hn : isHigh n = false) (units : List ℕ) :
    joinUnits (n :: units) = unitChar n :: joinUnits units := by
  cases units with
  | nil => rfl
  | cons low rest => simp [joinUnits, hn]

theorem joinUnits_codeUnits (c : Char) (units : List ℕ) :
    joinUnits (codeUnits c ++ units) = c :: joinUnits units := by
  have hbounds := toNat_bounds c
  unfold codeUnits
  split
  · have hhigh : isHigh c.toNat = false := by
      simp [isHigh]
      omega
    have hvalid : c.toNat.isValidChar := c.valid
    rw [List.singleton_append, joinUnits_cons hhigh, unitChar, if_pos hvalid, Char.ofNat_toNat]
  · have hhigh : isHigh (0xD800 + (c.toNat - 0x10000) / 0x400) = true := by
      simp [isHigh]
      omega
    have hlow : isLow (0xDC00 + (c.toNat - 0x10000) % 0x400) = true := by
      simp [isLow]
      omega
    have hchar : 0x10000 + (0xD800 + (c.toNat - 0x10000) / 0x400 - 0xD800) * 0x400 +
        (0xDC00 + (c.toNat - 0x10000) % 0x400 - 0xDC00) = c.toNat := by
      omega
    simp only [List.cons_append, List.nil_append, joinUnits, hhigh, hlow, Bool.and_self,
      if_true, hchar, Char.ofNat_toNat]

theorem joinUnits_flatMap (s : List Char) : joinUnits (s.flatMap codeUnits) = s := by
  induction s with
  | nil => rfl
  | cons c s ih => rw [List.flatMap_cons, joinUnits_codeUnits, ih]

/-! Reading numbers again -/

/-- What may follow a number. -/
def Stops (rest : List Char) : Prop :=
  ∀ c ∈ rest.head?, c.isDigit = false ∧ c ≠ '.' ∧ c ≠ 'e' ∧ c ≠ 'E'

theorem stops_cons {c : Char} {rest : List Char} (h : c = ',' ∨ c = '\x7d') :
    Stops (c :: rest) := by
  intro d hd
  simp only [List.head?_cons, Option.mem_some_iff] at hd
  subst hd
  rcases h with rfl | rfl <;> decide

theorem toDigits_start {n : ℕ} (hn : 0 < n) :
    ∃ c rest, Nat.toDigits 10 n = c :: rest ∧ c ≠ '0' := by
  induction n using Nat.strongRecOn with
  | ind n ih =>
    by_cases hlt : n < 10
    · refine ⟨n.digitChar, [], Nat.toDigits_of_lt_base hlt, ?_⟩
      simp
      omega
    · obtain ⟨c, rest, hdigits, hc⟩ := ih (n / 10) (by omega) (by omega)
      refine ⟨c, rest ++ [(n % 10).digitChar], ?_, hc⟩
      rw [Nat.toDigits_of_base_le (by omega) (by omega), hdigits]
      rfl

theorem takeWhile_digits {digits rest : List Char} (hdigits : ∀ c ∈ digits, c.isDigit = true)
    (hrest : Stops rest) : (digits ++ rest).takeWhile Char.isDigit = digits := by
  rw [List.takeWhile_append_of_pos hdigits]
  cases rest with
  | nil => simp
  | cons c rest => simp [(hrest c rfl).1]

theorem scanWhole_toDigits (n : ℕ) {rest : List Char} (hrest : Stops rest) :
    scanWhole (Nat.toDigits 10 n ++ rest) = Nat.toDigits 10 n := by
  have hdigits : ∀ c ∈ Nat.toDigits 10 n, c.isDigit = true := fun c hc =>
    Nat.isDigit_of_mem_toDigits (by omega) (by omega) hc
  rcases Nat.eq_zero_or_pos n with rfl | hn
  · rfl
  · obtain ⟨c, tail, heq, hc⟩ := toDigits_start hn
    have hwhole : scanWhole (Nat.toDigits 10 n ++ rest) =
        (Nat.toDigits 10 n ++ rest).takeWhile Char.isDigit := by
      rw [heq, List.cons_append, scanWhole]
      intro rest' hcons
      simp only [List.cons.injEq] at hcons
      exact hc hcons.1
    rw [hwhole, takeWhile_digits hdigits hrest]

theorem scanFraction_stops {rest : List Char} (hrest : Stops rest) :
    scanFraction rest = ([], rest) := by
  cases rest with
  | nil => rfl
  | cons c rest =>
    rw [scanFraction]
    intro rest' hcons
    simp only [List.cons.injEq] at hcons
    exact (hrest c rfl).2.1 hcons.1

theorem scanExponent_stops {rest : List Char} (hrest : Stops rest) :
    scanExponent rest = (none, rest) := by
  cases rest with
  | nil => rfl
  | cons c rest =>
    have hc := (hrest c rfl).2.2
    have hnot : ¬ (c = 'e' ∨ c = 'E') := by
      simp [hc.1, hc.2]
    simp only [scanExponent, if_neg hnot]

theorem scanSign_toDigits (n : ℕ) (rest : List Char) :
    scanSign (Nat.toDigits 10 n ++ rest) = (1, Nat.toDigits 10 n ++ rest) := by
  have hdigits : ∀ c ∈ Nat.toDigits 10 n, c.isDigit = true := fun c hc =>
    Nat.isDigit_of_mem_toDigits (by omega) (by omega) hc
  obtain ⟨c, tail, heq⟩ := List.exists_cons_of_ne_nil (Nat.toDigits_ne_nil (n := n) (b := 10))
  rw [heq, List.cons_append, scanSign]
  intro rest' hcons
  simp only [List.cons.injEq] at hcons
  have hdigit := hdigits c (heq ▸ List.mem_cons_self)
  rw [hcons.1] at hdigit
  exact absurd hdigit (by decide)

theorem scanNumber_dumpInt {n : ℤ} (hn : n.natAbs < 10 ^ maxStrDigits) {rest : List Char}
    (hrest : Stops rest) : scanNumber (dumpInt n ++ rest) = some (.int n, rest) := by
  have hlength : ¬ maxStrDigits < (Nat.toDigits 10 n.natAbs).length := by
    have hle := (Nat.length_toDigits_le_iff (by omega) (by decide)).mpr hn
    omega
  have hsign : ∃ sign : ℤ, scanSign (dumpInt n ++ rest) =
      (sign, Nat.toDigits 10 n.natAbs ++ rest) ∧ sign * n.natAbs = n := by
    unfold dumpInt
    split
    · exact ⟨-1, rfl, by omega⟩
    · exact ⟨1, scanSign_toDigits _ _, by omega⟩
  obtain ⟨sign, hscan, hvalue⟩ := hsign
  simp only [scanNumber, hscan, scanWhole_toDigits _ hrest, Nat.toDigits_ne_nil, if_false,
    List.drop_left, scanFraction_stops hrest, scanExponent_stops hrest, hlength, and_self, if_true,
    Nat.ofDigitChars_ten_toDigits, hvalue]

/-! The round trip -/

theorem scanOnce_string (fuel : ℕ) (s rest : List Char) :
    scanOnce (fuel + 1) (dumpText s ++ rest) = some (.str s, rest) := by
  simp only [dumpText, List.cons_append, List.append_assoc, List.nil_append, scanOnce,
    scanString_dump, Option.bind_eq_bind, Option.bind_some, joinUnits_flatMap]

theorem toDigits_head (n : ℕ) :
    ∃ c rest, Nat.toDigits 10 n = c :: rest ∧ c.isDigit = true := by
  obtain ⟨c, rest, heq⟩ := List.exists_cons_of_ne_nil (Nat.toDigits_ne_nil (n := n) (b := 10))
  refine ⟨c, rest, heq, ?_⟩
  exact Nat.isDigit_of_mem_toDigits (by omega) (by omega) (heq ▸ List.mem_cons_self)

/-- A number is none of the words: a digit stands where they have a letter. -/
theorem find_literals_dumpInt (n : ℤ) (rest : List Char) :
    (literals.find? fun literal => literal.1.isPrefixOf (dumpInt n ++ rest)) = none := by
  obtain ⟨c, tail, heq, hc⟩ := toDigits_head n.natAbs
  have hletter : c ≠ 'n' ∧ c ≠ 't' ∧ c ≠ 'f' ∧ c ≠ 'N' ∧ c ≠ 'I' ∧ c ≠ '-' := by
    refine ⟨?_, ?_, ?_, ?_, ?_, ?_⟩ <;> rintro rfl <;> exact absurd hc (by decide)
  obtain ⟨hn, ht, hf, hnan, hinf, hminus⟩ := hletter
  unfold dumpInt
  rw [heq]
  split
  · simp [literals, List.isPrefixOf, Ne.symm hinf]
  · simp [literals, List.isPrefixOf, Ne.symm hn, Ne.symm ht, Ne.symm hf, Ne.symm hnan,
      Ne.symm hinf, Ne.symm hminus]

theorem scanOnce_dumpInt (fuel : ℕ) (n : ℤ) (rest : List Char) :
    scanOnce (fuel + 1) (dumpInt n ++ rest) = scanScalar (dumpInt n ++ rest) := by
  obtain ⟨c, tail, heq, hc⟩ := toDigits_head n.natAbs
  have hopen : c ≠ '"' ∧ c ≠ '\x7b' ∧ c ≠ '[' := by
    refine ⟨?_, ?_, ?_⟩ <;> rintro rfl <;> exact absurd hc (by decide)
  unfold dumpInt
  rw [heq]
  split
  · simp [scanOnce]
  · rw [List.cons_append, scanOnce]
    · simp [hopen.1]
    · simp [hopen.2.1]
    · simp [hopen.2.2]

theorem scanOnce_dump {field : Scalar} (hfits : field.Fits) {rest : List Char}
    (hrest : Stops rest) (fuel : ℕ) :
    scanOnce (fuel + 1) (field.dump ++ rest) = some (field.value, rest) := by
  cases field with
  | text s => exact scanOnce_string fuel s rest
  | number n =>
    rw [Scalar.dump, scanOnce_dumpInt, scanScalar, find_literals_dumpInt]
    exact scanNumber_dumpInt hfits hrest

theorem skipSpace_cons {c : Char} (hc : isSpace c = false) (rest : List Char) :
    skipSpace (c :: rest) = c :: rest := by
  simp [skipSpace, hc]

/-- No space stands before what was written. -/
theorem skipSpace_dump (field : Scalar) (rest : List Char) :
    skipSpace (field.dump ++ rest) = field.dump ++ rest := by
  cases field with
  | text s => exact skipSpace_cons (by decide) _
  | number n =>
    obtain ⟨c, tail, heq, hc⟩ := toDigits_head n.natAbs
    have hspace : isSpace c = false := by
      by_contra hspace
      simp only [isSpace, Bool.or_eq_true, beq_iff_eq, Bool.not_eq_false] at hspace
      rcases hspace with ((rfl | rfl) | rfl) | rfl <;> exact absurd hc (by decide)
    simp only [Scalar.dump, dumpInt, heq]
    split
    · exact skipSpace_cons (by decide) _
    · exact skipSpace_cons hspace _

theorem dumpMembers_cons (field : List Char × Scalar) {fields : List (List Char × Scalar)}
    (hne : fields ≠ []) :
    dumpMembers (field :: fields) = dumpMember field ++ ',' :: dumpMembers fields := by
  cases fields with
  | nil => exact absurd rfl hne
  | cons next fields => rfl

/-- The entries start with the quote of the first key. -/
theorem dumpMembers_start {fields : List (List Char × Scalar)} (hne : fields ≠ []) :
    ∃ text, dumpMembers fields = '"' :: text := by
  match fields with
  | [field] => exact ⟨_, rfl⟩
  | field :: next :: fields => exact ⟨_, rfl⟩

theorem skipSpace_dumpMembers {fields : List (List Char × Scalar)} (hne : fields ≠ [])
    (rest : List Char) :
    skipSpace (dumpMembers fields ++ rest) = dumpMembers fields ++ rest := by
  obtain ⟨text, htext⟩ := dumpMembers_start hne
  rw [htext]
  exact skipSpace_cons (by decide) _

/-- An entry is read, and then its separator tells whether another one follows. -/
theorem scanMembers_dumpMembers {fields : List (List Char × Scalar)} (hne : fields ≠ [])
    (hfits : ∀ field ∈ fields, field.2.Fits) {fuel : ℕ} (hfuel : fields.length < fuel)
    (rest : List Char) :
    scanMembers fuel (dumpMembers fields ++ '\x7d' :: rest) =
      some (fields.map fun field => (field.1, field.2.value), rest) := by
  induction fields generalizing fuel with
  | nil => exact absurd rfl hne
  | cons field fields ih =>
    rw [List.length_cons] at hfuel
    obtain ⟨fuel, rfl⟩ : ∃ n, fuel = n + 2 := ⟨fuel - 2, by omega⟩
    have hfield := hfits field List.mem_cons_self
    have hcolon : isSpace ':' = false := by decide
    by_cases hlast : fields = []
    · subst hlast
      have hstops : Stops ('\x7d' :: rest) := stops_cons (.inr rfl)
      have hvalue := scanOnce_dump hfield hstops fuel
      have hclose : isSpace '\x7d' = false := by decide
      simp only [dumpMembers, dumpMember, dumpText, List.cons_append, List.append_assoc,
        List.nil_append, scanMembers, scanString_dump, Option.bind_eq_bind, Option.bind_some,
        skipSpace_cons hcolon, skipSpace_dump, hvalue, skipSpace_cons hclose, joinUnits_flatMap,
        List.map_cons, List.map_nil]
    · have hothers := ih hlast (fun f hf => hfits f (List.mem_cons_of_mem _ hf))
        (show fields.length < fuel + 1 by omega)
      have hstops : Stops (',' :: (dumpMembers fields ++ '\x7d' :: rest)) :=
        stops_cons (.inl rfl)
      have hvalue := scanOnce_dump hfield hstops fuel
      have hcomma : isSpace ',' = false := by decide
      simp only [dumpMembers_cons field hlast, dumpMember, dumpText, List.cons_append,
        List.append_assoc, List.nil_append, scanMembers, scanString_dump, Option.bind_eq_bind,
        Option.bind_some, skipSpace_cons hcolon, skipSpace_dump, hvalue, skipSpace_cons hcomma,
        skipSpace_dumpMembers hlast, hothers, joinUnits_flatMap, List.map_cons]

theorem length_le_dumpMembers (fields : List (List Char × Scalar)) :
    fields.length ≤ (dumpMembers fields).length := by
  induction fields with
  | nil => simp
  | cons field fields ih =>
    by_cases hlast : fields = []
    · subst hlast
      simp only [dumpMembers, dumpMember, List.length_append, List.length_cons, List.length_nil]
      omega
    · simp only [dumpMembers_cons field hlast, List.length_append, List.length_cons]
      omega

/-- What the writer makes of an object is read as that object. -/
theorem loads_dumps {fields : List (List Char × Scalar)}
    (hfits : ∀ field ∈ fields, field.2.Fits) :
    loads (dumps fields) =
      some (.obj (fields.map fun field => (field.1, field.2.value))) := by
  have hstart : skipSpace (dumps fields) = dumps fields := skipSpace_cons (by decide) _
  have hmark : ¬ (dumps fields).head? = some '\uFEFF' := by
    simp [dumps]
  have hobject : scanOnce ((dumps fields).length + 1) (dumps fields) =
      some (.obj (fields.map fun field => (field.1, field.2.value)), []) := by
    by_cases hne : fields = []
    · subst hne
      rfl
    · have hlength := length_le_dumpMembers fields
      have hfuel : fields.length < (dumps fields).length := by
        simp only [dumps, List.cons_append, List.length_cons, List.length_append]
        omega
      have hmembers := scanMembers_dumpMembers hne hfits hfuel []
      obtain ⟨text, htext⟩ := dumpMembers_start hne
      have hspace := skipSpace_dumpMembers hne ['\x7d']
      generalize (dumps fields).length = fuel at hmembers
      rw [dumps, List.cons_append, scanOnce, hspace]
      rw [htext, List.cons_append] at hmembers ⊢
      change ((scanMembers fuel ('"' :: (text ++ ['\x7d']))).bind fun read =>
        some (Value.obj read.1, read.2)) = _
      rw [hmembers]
      rfl
  rw [loads, if_neg hmark, hstart, hobject]
  rfl

end JsonText
