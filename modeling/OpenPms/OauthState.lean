import OpenPms.Basic
import OpenPms.Lib.Base64
import OpenPms.Lib.Decimal
import OpenPms.Lib.JsonText

/-!
The state of the Stripe OAuth flow: the tenant, the property and the time as a JSON object in
base64, and after a dot a keyed digest of it. The callback gets the state from the query of
its URL, so whoever calls it chooses the text.
-/
namespace OpenPms.OauthState

open Numerals JsonText

/-! Exceptions -/

/-- The exceptions that Python's own functions raise here. -/
inductive Raised where
  | keyError
  | valueError
  | typeError
  | overflowError
  deriving DecidableEq

inductive OauthError where
  | stripeConnect (detail : String) (statusCode : ℕ)
  | raised (exception : Raised)
  deriving DecidableEq

def orValueError {α : Type} : Option α → Except Raised α
  | some a => .ok a
  | none => .error .valueError

/-! Settings -/

/-- Upper case as far as it yields a letter of ASCII. -/
def upperChar (c : Char) : Char := if c.toNat = 0x17F then 'S' else c.toUpper

def upper (s : String) : String := String.ofList (s.toList.map upperChar)

structure Settings where
  stripeOauthStateSecret : Option String
  jwtAlgorithm : String
  jwtSecret : String
  webhookSecretFernetKey : Option String
  algorithm_known : upper jwtAlgorithm = "HS256" ∨ upper jwtAlgorithm = "RS256"
  fernet_required : upper jwtAlgorithm = "RS256" →
    Text.strip (webhookSecretFernetKey.getD "") ≠ ""

def oauthStateHmacKey (settings : Settings) : Except OauthError String :=
  if Text.strip (settings.stripeOauthStateSecret.getD "") ≠ "" then
    .ok (Text.strip (settings.stripeOauthStateSecret.getD ""))
  else if upper settings.jwtAlgorithm = "HS256" then .ok settings.jwtSecret
  else
    let w := Text.strip (settings.webhookSecretFernetKey.getD "")
    if w ≠ "" then .ok w else .error (.raised .valueError)

/-- The settings are refused at the start if no key could be found. -/
theorem oauthStateHmacKey_ok (settings : Settings) :
    ∃ key, oauthStateHmacKey settings = .ok key := by
  unfold oauthStateHmacKey
  split
  · exact ⟨_, rfl⟩
  split
  · exact ⟨_, rfl⟩
  · next hhs =>
    have hrs := settings.algorithm_known.resolve_left hhs
    rw [if_pos (settings.fernet_required hrs)]
    exact ⟨_, rfl⟩

/-! The digest -/

/-- HMAC-SHA256 as hexadecimal text. -/
structure Hmac where
  hexdigest : (key : String) → (message : List Char) → List Char
  hex : ∀ key message, ∀ c ∈ hexdigest key message, c ∈ hexAlphabet
  length : ∀ key message, (hexdigest key message).length = 64

def isAscii (c : Char) : Bool := c.toNat < 128

/-- `hmac.compare_digest` of two texts. -/
def compareDigest (a b : List Char) : Except Raised Bool :=
  if a.all isAscii && b.all isAscii then .ok (a == b) else .error .typeError

/-! Identifiers -/

abbrev Uuid := BitVec 128

def uuidText (u : Uuid) : List Char :=
  let hex := fixedHex 32 u.toNat
  hex.take 8 ++ '-' :: ((hex.drop 8).take 4 ++ '-' :: ((hex.drop 12).take 4 ++
    '-' :: ((hex.drop 16).take 4 ++ '-' :: hex.drop 20)))

/-- `str.replace(word, "")`; so many characters of an occurrence are still to be left out. -/
def removeWord (word : List Char) : ℕ → List Char → List Char
  | _, [] => []
  | skip + 1, _ :: rest => removeWord word skip rest
  | 0, c :: rest =>
    if word.isPrefixOf (c :: rest) then removeWord word (word.length - 1) rest
    else c :: removeWord word 0 rest

def isBrace (c : Char) : Bool := c == '\x7b' || c == '\x7d'

/-- `UUID(text)` -/
def parseUuid (text : List Char) : Except Raised Uuid := do
  let hex := removeWord "uuid:".toList 0 (removeWord "urn:".toList 0 text)
  let hex := ((hex.dropWhile isBrace).rdropWhile isBrace).filter (· ≠ '-')
  if hex.length ≠ 32 then .error .valueError
  else
    let n ← orValueError (parseInt 16 hex)
    if 0 ≤ n ∧ n < 2 ^ 128 then .ok (BitVec.ofInt 128 n) else .error .valueError

/-! The payload -/

/-- `int` of a float: the number is first rounded half-even to 53 binary digits. -/
def doubleWhole (mantissa exponent : ℤ) : Except Raised ℤ :=
  let x : ℚ := mantissa * 10 ^ exponent
  let unit : ℚ := 2 ^ (Int.log 2 |x| - 52)
  let nearest := Decimals.halfEven (x / unit) * unit
  if 2 ^ 1024 ≤ |nearest| then .error .overflowError else .ok (Decimals.truncate nearest)

/-- `int(value)` -/
def intOf : Value → Except Raised ℤ
  | .int n => .ok n
  | .bool b => .ok (if b then 1 else 0)
  | .decimal mantissa exponent => doubleWhole mantissa exponent
  | .nan => .error .valueError
  | .infinity _ => .error .overflowError
  | .str s => orValueError (parseInt 10 s)
  | .null | .arr _ | .obj _ => .error .typeError

/-- `UUID(str(value))`. The text of a float is too short, and those of the other values have
letters, brackets or quotes that no number has. -/
def uuidOf : Value → Except Raised Uuid
  | .str s => parseUuid s
  | .int n => parseUuid (dumpInt n)
  | _ => .error .valueError

def subscript (payload : Value) (key : List Char) : Except Raised Value :=
  match payload with
  | .obj fields =>
    match lookup fields key with
    | some value => .ok value
    | none => .error .keyError
  | _ => .error .typeError

/-! The clock -/

/-- What `time.time()` returns: a finite float. -/
structure Clock where
  seconds : ℚ
  finite : |seconds| < 2 ^ 1024

def Clock.whole (now : Clock) : ℤ := Decimals.truncate now.seconds

/-! Encoding and decoding -/

def stateMaxAgeSec : ℤ := 3600

def encodeUtf8 (text : List Char) : List UInt8 := (String.ofList text).toByteArray.data.toList

def decodeUtf8 (raw : List UInt8) : Option (List Char) :=
  (ByteArray.mk raw.toArray).utf8Decode?.map Array.toList

def statePayload (now : Clock) (tenantId propertyId : Uuid) : List (List Char × Scalar) :=
  [("p".toList, .text (uuidText propertyId)), ("t".toList, .text (uuidText tenantId)),
    ("ts".toList, .number now.whole)]

def stateBody (now : Clock) (tenantId propertyId : Uuid) : List Char :=
  Base64.bare (Base64.encode (encodeUtf8 (dumps (statePayload now tenantId propertyId))))

def encodeOauthState (h : Hmac) (settings : Settings) (now : Clock)
    (tenantId propertyId : Uuid) : Except OauthError String := do
  let key ← oauthStateHmacKey settings
  let b64 := stateBody now tenantId propertyId
  pure (String.ofList (b64 ++ '.' :: h.hexdigest key b64))

/-- `state.split(".", 1)` into two parts. -/
def splitDot (text : List Char) : Option (List Char × List Char) :=
  match text.dropWhile (· ≠ '.') with
  | [] => none
  | _ :: rest => some (text.takeWhile (· ≠ '.'), rest)

/-- What is read of the first part once its digest is right. -/
def readState (b64 : List Char) : Except Raised (Uuid × Uuid × ℤ) := do
  if ¬ b64.all isAscii then .error .valueError
  else
    let raw ← orValueError (Base64.decode (b64 ++ Base64.padding b64))
    let text ← orValueError (decodeUtf8 raw)
    let payload ← orValueError (loads text)
    let t ← subscript payload "t".toList
    let tenantId ← uuidOf t
    let p ← subscript payload "p".toList
    let propertyId ← uuidOf p
    let ts ← subscript payload "ts".toList
    let ts ← intOf ts
    pure (tenantId, propertyId, ts)

def invalidState : OauthError := .stripeConnect "invalid state" 400

def stateExpired : OauthError := .stripeConnect "state expired" 400

def decodeOauthState (h : Hmac) (settings : Settings) (now : Clock) (state : String) :
    Except OauthError (Uuid × Uuid) := do
  let key ← oauthStateHmacKey settings
  match splitDot state.toList with
  | none => .error invalidState
  | some (b64, sig) =>
    match compareDigest (h.hexdigest key b64) sig with
    | .error exception => .error (.raised exception)
    | .ok false => .error invalidState
    | .ok true =>
      match readState b64 with
      | .error .keyError | .error .valueError => .error invalidState
      | .error exception => .error (.raised exception)
      | .ok (tenantId, propertyId, ts) =>
        if now.whole - ts > stateMaxAgeSec then .error stateExpired
        else .ok (tenantId, propertyId)

/-! Identifiers are read back -/

theorem removeWord_of_notMem {first : Char} {word : List Char} {text : List Char}
    (h : first ∉ text) : removeWord (first :: word) 0 text = text := by
  induction text with
  | nil => rfl
  | cons c text ih =>
    have hfirst : ¬ (first :: word).isPrefixOf (c :: text) := by
      intro hpre
      rw [List.isPrefixOf_iff_prefix, List.cons_prefix_cons] at hpre
      exact h (hpre.1 ▸ List.mem_cons_self)
    rw [removeWord, if_neg hfirst, ih fun hmem => h (List.mem_cons_of_mem _ hmem)]

theorem mem_uuidText {u : Uuid} : ∀ c ∈ uuidText u, c ∈ hexAlphabet ∨ c = '-' := by
  intro c hc
  by_cases hdash : c = '-'
  · exact .inr hdash
  · left
    simp only [uuidText, List.mem_append, List.mem_cons, hdash, false_or] at hc
    rcases hc with hc | hc | hc | hc | hc
    · exact mem_fixedHex c (List.mem_of_mem_take hc)
    · exact mem_fixedHex c (List.mem_of_mem_drop (List.mem_of_mem_take hc))
    · exact mem_fixedHex c (List.mem_of_mem_drop (List.mem_of_mem_take hc))
    · exact mem_fixedHex c (List.mem_of_mem_drop (List.mem_of_mem_take hc))
    · exact mem_fixedHex c (List.mem_of_mem_drop hc)

theorem take_drop_append_drop {α : Type} (l : List α) (m n : ℕ) :
    (l.drop m).take n ++ l.drop (m + n) = l.drop m := by
  rw [← List.drop_drop, List.take_append_drop]

theorem filter_uuidText (u : Uuid) :
    (uuidText u).filter (· ≠ '-') = fixedHex 32 u.toNat := by
  have hall : ∀ c ∈ hexAlphabet, decide (c ≠ '-') = true := forall_mem_hex (by decide)
  have htake (part : List Char) (n : ℕ) (hpart : part ⊆ fixedHex 32 u.toNat) :
      (part.take n).filter (· ≠ '-') = part.take n := by
    rw [List.filter_eq_self]
    intro c hc
    exact hall c (mem_fixedHex c (hpart (List.mem_of_mem_take hc)))
  have hlast : ((fixedHex 32 u.toNat).drop 20).filter (· ≠ '-') =
      (fixedHex 32 u.toNat).drop 20 := by
    rw [List.filter_eq_self]
    intro c hc
    exact hall c (mem_fixedHex c (List.mem_of_mem_drop hc))
  have hdash (rest : List Char) :
      ('-' :: rest).filter (· ≠ '-') = rest.filter (· ≠ '-') := by
    simp
  simp only [uuidText, List.filter_append, hdash, htake _ _ (List.Subset.refl _),
    htake _ _ (List.drop_subset _ _), hlast]
  rw [take_drop_append_drop _ 16 4, take_drop_append_drop _ 12 4, take_drop_append_drop _ 8 4,
    List.take_append_drop]

theorem parseUuid_uuidText (u : Uuid) : parseUuid (uuidText u) = .ok u := by
  have hnotMem {c : Char} (hc : ¬ (c ∈ hexAlphabet ∨ c = '-')) : c ∉ uuidText u :=
    fun hmem => hc (mem_uuidText c hmem)
  have hurn : removeWord "urn:".toList 0 (uuidText u) = uuidText u :=
    removeWord_of_notMem (hnotMem (by decide))
  have huuid : removeWord "uuid:".toList 0 (uuidText u) = uuidText u :=
    removeWord_of_notMem (hnotMem (by decide))
  have hbrace : ∀ c ∈ uuidText u, isBrace c = false := by
    have hall : ∀ c ∈ hexAlphabet, isBrace c = false := forall_mem_hex (by decide)
    intro c hc
    rcases mem_uuidText c hc with hhex | rfl
    · exact hall c hhex
    · rfl
  have hstart : (uuidText u).dropWhile isBrace = uuidText u := by
    rw [List.dropWhile_eq_self_iff]
    intro hpos
    simp [hbrace _ (List.getElem_mem hpos)]
  have hend : (uuidText u).rdropWhile isBrace = uuidText u := by
    rw [List.rdropWhile_eq_self_iff]
    intro hlast
    simp [hbrace _ (List.getLast_mem hlast)]
  have hbound : u.toNat < 16 ^ 32 := by
    have hlt := u.isLt
    norm_num at hlt ⊢
    exact hlt
  have hrange : 0 ≤ (u.toNat : ℤ) ∧ (u.toNat : ℤ) < 2 ^ 128 := by
    have hlt := u.isLt
    refine ⟨by omega, ?_⟩
    exact_mod_cast hlt
  have hvalue : BitVec.ofInt 128 (u.toNat : ℤ) = u := by
    rw [BitVec.ofInt_natCast, BitVec.ofNat_toNat, BitVec.setWidth_eq]
  simp only [parseUuid, hurn, huuid, hstart, hend, filter_uuidText, length_fixedHex,
    parseInt_fixedHex (by omega : 0 < 32) hbound, orValueError, ne_eq, not_true_eq_false,
    if_false, bind, Except.bind]
  rw [if_pos hrange, hvalue]

/-! The round trip -/

theorem decodeUtf8_encodeUtf8 (text : List Char) : decodeUtf8 (encodeUtf8 text) = some text := by
  have hbytes : ByteArray.mk (encodeUtf8 text).toArray = text.utf8Encode := by
    simp [encodeUtf8, String.toByteArray_ofList]
  rw [decodeUtf8, hbytes, List.utf8Decode?_utf8Encode]
  rfl

theorem abs_truncate_le (x : ℚ) : ((|Decimals.truncate x| : ℤ) : ℚ) ≤ |x| := by
  unfold Decimals.truncate
  split
  · next hx =>
    have hfloor : 0 ≤ ⌊x⌋ := Int.floor_nonneg.mpr hx
    rw [abs_of_nonneg hfloor, abs_of_nonneg hx]
    exact Int.floor_le x
  · next hx =>
    have hneg : x ≤ 0 := by linarith
    have hceil : ⌈x⌉ ≤ 0 := Int.ceil_nonpos.mpr hneg
    rw [abs_of_nonpos hceil, abs_of_nonpos hneg]
    push_cast
    linarith [Int.le_ceil x]

theorem two_pow_le_ten_pow {k n : ℕ} (h : k ≤ n) : 2 ^ k ≤ 10 ^ n :=
  calc
    2 ^ k ≤ 10 ^ k := Nat.pow_le_pow_left (by omega) k
    _ ≤ 10 ^ n := Nat.pow_le_pow_right (by omega) h

/-- A finite float has few digits before its point. -/
theorem whole_fits (now : Clock) : Scalar.Fits (.number now.whole) := by
  have hlt : ((|now.whole| : ℤ) : ℚ) < ((2 ^ 1024 : ℤ) : ℚ) := by
    refine (abs_truncate_le now.seconds).trans_lt ?_
    exact_mod_cast now.finite
  have hwhole : now.whole.natAbs < 2 ^ 1024 := by
    refine Int.ofNat_lt.mp ?_
    rw [Int.natCast_natAbs, Nat.cast_pow, Nat.cast_ofNat]
    exact Int.cast_lt.mp hlt
  have hle : 1024 ≤ maxStrDigits := by decide
  exact hwhole.trans_le (two_pow_le_ten_pow hle)

theorem loads_statePayload (now : Clock) (tenantId propertyId : Uuid) :
    loads (dumps (statePayload now tenantId propertyId)) =
      some (.obj [("p".toList, .str (uuidText propertyId)),
        ("t".toList, .str (uuidText tenantId)), ("ts".toList, .int now.whole)]) := by
  refine loads_dumps fun field hfield => ?_
  simp only [statePayload, List.mem_cons, List.not_mem_nil, or_false] at hfield
  rcases hfield with rfl | rfl | rfl
  · trivial
  · trivial
  · exact whole_fits now

theorem mem_stateBody {now : Clock} {tenantId propertyId : Uuid} :
    ∀ c ∈ stateBody now tenantId propertyId, c ∈ Base64.alphabet := by
  rw [stateBody, Base64.bare_encode]
  exact Base64.mem_alphabet_of_mem_symbols _

theorem readState_stateBody (now : Clock) (tenantId propertyId : Uuid) :
    readState (stateBody now tenantId propertyId) = .ok (tenantId, propertyId, now.whole) := by
  have hascii : (stateBody now tenantId propertyId).all isAscii = true := by
    rw [List.all_eq_true]
    intro c hc
    have hall : Base64.alphabet.all isAscii = true := by decide
    exact List.all_eq_true.mp hall c (mem_stateBody c hc)
  have hdecode : Base64.decode (stateBody now tenantId propertyId ++
      Base64.padding (stateBody now tenantId propertyId)) =
      some (encodeUtf8 (dumps (statePayload now tenantId propertyId))) := by
    rw [stateBody, Base64.bare_append_padding, Base64.decode_encode]
  simp only [readState, hascii, not_true_eq_false, if_false, hdecode, orValueError,
    decodeUtf8_encodeUtf8, loads_statePayload, bind, Except.bind]
  simp [subscript, lookup, uuidOf, intOf, parseUuid_uuidText, pure, Except.pure]

/-! The two parts of a state -/

theorem splitDot_append {b64 sig : List Char} (hdot : '.' ∉ b64) :
    splitDot (b64 ++ '.' :: sig) = some (b64, sig) := by
  have hall : ∀ c ∈ b64, decide (c ≠ '.') = true := by
    intro c hc
    refine decide_eq_true ?_
    rintro rfl
    exact hdot hc
  have hdrop : (b64 ++ '.' :: sig).dropWhile (· ≠ '.') = '.' :: sig := by
    rw [List.dropWhile_append_of_pos hall]
    rfl
  have htake : (b64 ++ '.' :: sig).takeWhile (· ≠ '.') = b64 := by
    rw [List.takeWhile_append_of_pos hall]
    simp
  rw [splitDot, hdrop, htake]

theorem isAscii_of_hex : ∀ c ∈ hexAlphabet, isAscii c = true :=
  forall_mem_hex (by decide)

theorem all_isAscii_hexdigest (h : Hmac) (key : String) (message : List Char) :
    (h.hexdigest key message).all isAscii = true := by
  rw [List.all_eq_true]
  intro c hc
  exact isAscii_of_hex c (h.hex key message c hc)

theorem compareDigest_hexdigest (h : Hmac) (key : String) (message sig : List Char) :
    compareDigest (h.hexdigest key message) sig =
      if sig.all isAscii then .ok (h.hexdigest key message == sig) else .error .typeError := by
  simp [compareDigest, all_isAscii_hexdigest h key message]

theorem encode_ok (h : Hmac) (settings : Settings) (sent : Clock) (tenantId propertyId : Uuid) :
    ∃ state, encodeOauthState h settings sent tenantId propertyId = .ok state := by
  obtain ⟨key, hkey⟩ := oauthStateHmacKey_ok settings
  rw [encodeOauthState, hkey]
  exact ⟨_, rfl⟩

theorem splitDot_encoded {h : Hmac} {settings : Settings} {sent : Clock}
    {tenantId propertyId : Uuid} {state key : String}
    (hkey : oauthStateHmacKey settings = .ok key)
    (hstate : encodeOauthState h settings sent tenantId propertyId = .ok state) :
    splitDot state.toList = some (stateBody sent tenantId propertyId,
      h.hexdigest key (stateBody sent tenantId propertyId)) := by
  simp only [encodeOauthState, hkey, bind, Except.bind, pure, Except.pure,
    Except.ok.injEq] at hstate
  rw [← hstate, String.toList_ofList]
  refine splitDot_append fun hmem => ?_
  exact absurd (mem_stateBody _ hmem) (by decide)

theorem decode_encoded {h : Hmac} {settings : Settings} {sent : Clock}
    {tenantId propertyId : Uuid} {state : String}
    (hstate : encodeOauthState h settings sent tenantId propertyId = .ok state) (now : Clock) :
    decodeOauthState h settings now state =
      if now.whole - sent.whole ≤ stateMaxAgeSec then .ok (tenantId, propertyId)
      else .error stateExpired := by
  obtain ⟨key, hkey⟩ := oauthStateHmacKey_ok settings
  simp only [decodeOauthState, hkey, splitDot_encoded hkey hstate, compareDigest_hexdigest,
    all_isAscii_hexdigest, if_true, beq_self_eq_true, readState_stateBody, bind, Except.bind]
  by_cases hage : now.whole - sent.whole ≤ stateMaxAgeSec
  · rw [if_pos hage, if_neg (by omega)]
  · rw [if_neg hage, if_pos (by omega)]

/-- Cutting off the fractions of both readings of the clock never makes a state older than
3600 seconds when it is not. -/
theorem whole_age_le {sent now : Clock} (hage : now.seconds - sent.seconds ≤ 3600) :
    now.whole - sent.whole ≤ 3600 := by
  have hfloor : ⌊now.seconds⌋ ≤ ⌊sent.seconds⌋ + 3600 := by
    rw [← Int.floor_add_ofNat]
    exact Int.floor_mono (by linarith)
  have hceil : ⌈now.seconds⌉ ≤ ⌈sent.seconds⌉ + 3600 := by
    rw [← Int.ceil_add_ofNat]
    exact Int.ceil_mono (by linarith)
  have hsent : ⌊sent.seconds⌋ ≤ ⌈sent.seconds⌉ := Int.floor_le_ceil _
  unfold Clock.whole Decimals.truncate
  split <;> split
  · omega
  · omega
  · next hnow hsent' =>
    have hnonpos : ⌈now.seconds⌉ ≤ 0 := Int.ceil_nonpos.mpr (by linarith)
    have hnonneg : 0 ≤ ⌊sent.seconds⌋ := Int.floor_nonneg.mpr hsent'
    omega
  · omega

/-! Other states -/

def Produced (h : Hmac) (settings : Settings) (state : String) : Prop :=
  ∃ sent tenantId propertyId, encodeOauthState h settings sent tenantId propertyId = .ok state

/-- The digest does not stand in a state unless that state was encoded. -/
def Unforged (h : Hmac) (settings : Settings) (state : String) : Prop :=
  ∀ key b64 sig, oauthStateHmacKey settings = .ok key →
    splitDot state.toList = some (b64, sig) → sig = h.hexdigest key b64 →
      Produced h settings state

/-- After its first dot the state has a character outside ASCII. -/
def ForeignSignature (state : String) : Prop :=
  ∃ b64 sig, splitDot state.toList = some (b64, sig) ∧ sig.all isAscii = false

theorem decode_other {h : Hmac} {settings : Settings} {state : String}
    (hunforged : Unforged h settings state) (hother : ¬ Produced h settings state)
    (now : Clock) :
    decodeOauthState h settings now state = .error invalidState ∧ ¬ ForeignSignature state ∨
      decodeOauthState h settings now state = .error (.raised .typeError) ∧
        ForeignSignature state := by
  obtain ⟨key, hkey⟩ := oauthStateHmacKey_ok settings
  cases hsplit : splitDot state.toList with
  | none =>
    left
    refine ⟨by simp only [decodeOauthState, hkey, hsplit, bind, Except.bind], ?_⟩
    rintro ⟨b64, sig, hsome, -⟩
    rw [hsplit] at hsome
    cases hsome
  | some parts =>
    obtain ⟨b64, sig⟩ := parts
    have hne : (h.hexdigest key b64 == sig) = false := by
      rw [beq_eq_false_iff_ne]
      exact fun heq => hother (hunforged key b64 sig hkey hsplit heq.symm)
    cases hascii : sig.all isAscii with
    | true =>
      left
      refine ⟨by simp only [decodeOauthState, hkey, hsplit, compareDigest_hexdigest, hascii,
        if_true, hne, bind, Except.bind], ?_⟩
      rintro ⟨b64', sig', hsome, hforeign⟩
      rw [hsplit] at hsome
      cases hsome
      rw [hascii] at hforeign
      cases hforeign
    | false =>
      right
      refine ⟨?_, b64, sig, hsplit, hascii⟩
      simp only [decodeOauthState, hkey, hsplit, compareDigest_hexdigest, hascii,
        Bool.false_eq_true, if_false, bind, Except.bind]

/-- Every state of the server ends with 64 characters of ASCII. -/
theorem signature_of_produced {h : Hmac} {settings : Settings} {state : String}
    (hproduced : Produced h settings state) :
    ∃ b64 sig, splitDot state.toList = some (b64, sig) ∧ sig.length = 64 ∧
      sig.all isAscii = true := by
  obtain ⟨sent, tenantId, propertyId, hstate⟩ := hproduced
  obtain ⟨key, hkey⟩ := oauthStateHmacKey_ok settings
  exact ⟨_, _, splitDot_encoded hkey hstate, h.length _ _, all_isAscii_hexdigest h _ _⟩

/-- A state of the server gives its identifiers back for 3600 whole seconds and is expired
from then on. Any other text is refused as an invalid state, except that the comparison of
the digests raises when the part after the first dot is not ASCII. -/
theorem decodeOauthState_iff (h : Hmac) (settings : Settings) :
    (∀ sent tenantId propertyId, ∃ state,
      encodeOauthState h settings sent tenantId propertyId = .ok state ∧
        ∀ now, decodeOauthState h settings now state =
          if now.whole - sent.whole ≤ 3600 then .ok (tenantId, propertyId)
          else .error (.stripeConnect "state expired" 400)) ∧
      ∀ state, Unforged h settings state → ¬ Produced h settings state →
        ∀ now, (∃ detail statusCode, decodeOauthState h settings now state =
          .error (.stripeConnect detail statusCode)) ↔ ¬ ForeignSignature state := by
  constructor
  · intro sent tenantId propertyId
    obtain ⟨state, hstate⟩ := encode_ok h settings sent tenantId propertyId
    exact ⟨state, hstate, fun now => decode_encoded hstate now⟩
  · intro state hunforged hother now
    rcases decode_other hunforged hother now with ⟨hdecode, hforeign⟩ | ⟨hdecode, hforeign⟩
    · exact ⟨fun _ => hforeign, fun _ => ⟨_, _, hdecode⟩⟩
    · constructor
      · rintro ⟨detail, statusCode, hconnect⟩
        rw [hdecode] at hconnect
        cases hconnect
      · exact fun hnot => absurd hforeign hnot

namespace Demo

def settings : Settings where
  stripeOauthStateSecret := some "connect-state-secret"
  jwtAlgorithm := "HS256"
  jwtSecret := "change-me-to-at-least-32-characters"
  webhookSecretFernetKey := none
  algorithm_known := by decide
  fernet_required := by decide

/-- The digests of the two first parts below. -/
def hmac : Hmac where
  hexdigest _ message :=
    fixedHex 64 (if message = "x".toList then
      0xccd3d6fa9bfd479c60972aacd20bc760ec9d8d9ed087284ee7861702f5f4937c
    else 0x0157383a706f94fbc27cb22f159496ca945980d59c03ecb064e215c6fb6d2cd9)
  hex _ _ := mem_fixedHex
  length _ _ := length_fixedHex _ _

def sent : Clock where
  seconds := 1700000000
  finite := by
    have hsmall : |(1700000000 : ℚ)| < 2 ^ 31 := by norm_num
    exact hsmall.trans_le (pow_le_pow_right₀ (by norm_num) (by norm_num))

theorem unforged_of_split {state : String} {sig : List Char}
    (hsplit : splitDot state.toList = some ("x".toList, sig)) (hlength : sig.length ≠ 64) :
    Unforged hmac settings state ∧ ¬ Produced hmac settings state := by
  constructor
  · intro key b64 sig' _ hsome hsig
    rw [hsplit] at hsome
    cases hsome
    exact absurd (hsig ▸ hmac.length key "x".toList) hlength
  · intro hproduced
    obtain ⟨b64, sig', hsome, hsixtyFour, -⟩ := signature_of_produced hproduced
    rw [hsplit] at hsome
    cases hsome
    exact hlength hsixtyFour

end Demo

theorem decodeOauthState_iff_demo :
    (∃ state, encodeOauthState Demo.hmac Demo.settings Demo.sent 1 2 = .ok state ∧
      decodeOauthState Demo.hmac Demo.settings Demo.sent state = .ok (1, 2)) ∧
      ∃ detail statusCode, decodeOauthState Demo.hmac Demo.settings Demo.sent "x.0" =
        .error (.stripeConnect detail statusCode) := by
  obtain ⟨hstates, hothers⟩ := decodeOauthState_iff Demo.hmac Demo.settings
  constructor
  · obtain ⟨state, hstate, hdecode⟩ := hstates Demo.sent 1 2
    refine ⟨state, hstate, ?_⟩
    rw [hdecode Demo.sent, if_pos (by omega)]
  · have hsplit : splitDot "x.0".toList = some ("x".toList, "0".toList) := by decide
    obtain ⟨hunforged, hother⟩ := Demo.unforged_of_split hsplit (by decide)
    refine (hothers "x.0" hunforged hother Demo.sent).mpr ?_
    rintro ⟨b64, sig, hsome, hforeign⟩
    rw [hsplit] at hsome
    cases hsome
    exact absurd hforeign (by decide)

/-- A made-up state whose second part is not ASCII is answered by a `TypeError`. -/
theorem typeError_on_foreign_signature :
    Unforged Demo.hmac Demo.settings "x.é" ∧ ¬ Produced Demo.hmac Demo.settings "x.é" ∧
      decodeOauthState Demo.hmac Demo.settings Demo.sent "x.é" = .error (.raised .typeError) := by
  have hsplit : splitDot "x.é".toList = some ("x".toList, "é".toList) := by decide
  obtain ⟨hunforged, hother⟩ := Demo.unforged_of_split hsplit (by decide)
  refine ⟨hunforged, hother, ?_⟩
  rcases decode_other hunforged hother Demo.sent with ⟨-, hnot⟩ | ⟨hdecode, -⟩
  · exact absurd ⟨_, _, hsplit, by decide⟩ hnot
  · exact hdecode

end OpenPms.OauthState
