import OpenPms.TaxEngine
import OpenPms.Lib.KeyedTable

/-!
Country packs as they are created and edited. Creation dumps each tax rule in JSON mode, an
edit dumps the whole body in Python mode, with what the client has left out left out; the
rates of the latter are still decimals, which the JSON column does not take.
-/
namespace OpenPms.Packs

open KeyedTable Tax

/-! Decimals and dumps -/

/-- A finite decimal as it was written. -/
structure WrittenDecimal where
  negative : Bool
  coefficient : ℕ
  exponent : ℤ
  deriving DecidableEq

namespace WrittenDecimal

def value (d : WrittenDecimal) : ℚ :=
  (if d.negative then -1 else 1) * d.coefficient * 10 ^ d.exponent

/-- `str`: without an exponent unless the number is very small or has one that is positive. -/
def text (d : WrittenDecimal) : String :=
  let digits := toString d.coefficient
  let left : ℤ := d.exponent + digits.length
  let point : ℤ := if d.exponent ≤ 0 ∧ -6 < left then left else 1
  let zeros (n : ℤ) := String.ofList (List.replicate n.toNat '0')
  let number :=
    if point ≤ 0 then "0." ++ zeros (-point) ++ digits
    else if digits.length ≤ point then digits ++ zeros (point - digits.length)
    else String.ofList (digits.toList.take point.toNat) ++ "." ++
      String.ofList (digits.toList.drop point.toNat)
  let shift := left - point
  let scale := if shift = 0 then "" else "E" ++ (if 0 < shift then "+" else "") ++ toString shift
  (if d.negative then "-" else "") ++ number ++ scale

end WrittenDecimal

example : ([⟨false, 70, -3⟩, ⟨false, 5, -1⟩, ⟨false, 1, 0⟩, ⟨false, 1, -9⟩].map
    WrittenDecimal.text) = ["0.070", "0.5", "1", "1E-9"] := by
  decide

/-- What `model_dump` makes of a model. -/
inductive PyValue where
  | none
  | bool (b : Bool)
  | str (s : String)
  | decimal (d : WrittenDecimal)
  | list (items : List PyValue)
  | dict (fields : List (String × PyValue))

inductive PackError where
  | countryPackService (detail : String) (statusCode : ℕ)
  | typeError
  | statementError
  | integrityError
  deriving DecidableEq

mutual

/-- `json.dumps` as a column is written, with the value that is read back. -/
def jsonDumps : PyValue → Except PackError Json
  | .none => .ok .null
  | .bool b => .ok (.bool b)
  | .str s => .ok (.str s)
  | .decimal _ => .error .statementError
  | .list items => do
    let dumped ← dumpItems items
    pure (.arr dumped)
  | .dict fields => do
    let dumped ← dumpFields fields
    pure (.obj dumped)

def dumpItems : List PyValue → Except PackError (List Json)
  | [] => .ok []
  | item :: rest => do
    let first ← jsonDumps item
    let others ← dumpItems rest
    pure (first :: others)

def dumpFields : List (String × PyValue) → Except PackError (List (String × Json))
  | [] => .ok []
  | (key, item) :: rest => do
    let first ← jsonDumps item
    let others ← dumpFields rest
    pure ((key, first) :: others)

end

/-! Requests -/

/-- The outer level of an optional field tells whether the client has sent it. -/
structure TaxRuleSchema where
  code : String
  name : String
  rate : WrittenDecimal
  inclusive : Bool
  appliesTo : List String
  compoundAfter : Option (Option String)
  displayOnFolio : Option Bool
  active : Option Bool
  code_length : 1 ≤ code.length ∧ code.length ≤ 32
  name_length : 1 ≤ name.length ∧ name.length ≤ 100
  rate_bounds : 0 ≤ rate.value ∧ rate.value ≤ 1
  appliesTo_ne : appliesTo ≠ []
  compoundAfter_length : ∀ s ∈ compoundAfter.join, s.length ≤ 32

def textOrNone : Option String → PyValue
  | none => .none
  | some s => .str s

/-- `model_dump(mode="json")`: all fields, the rate as its text. -/
def TaxRuleSchema.dumpJson (r : TaxRuleSchema) : PyValue :=
  .dict [("code", .str r.code), ("name", .str r.name), ("rate", .str r.rate.text),
    ("inclusive", .bool r.inclusive), ("applies_to", .list (r.appliesTo.map .str)),
    ("compound_after", textOrNone (r.compoundAfter.getD none)),
    ("display_on_folio", .bool (r.displayOnFolio.getD true)), ("active", .bool (r.active.getD true))]

/-- `model_dump(exclude_unset=True)`: the fields that were sent, the rate as it is. -/
def TaxRuleSchema.dumpSet (r : TaxRuleSchema) : PyValue :=
  .dict ([("code", .str r.code), ("name", .str r.name), ("rate", .decimal r.rate),
    ("inclusive", .bool r.inclusive), ("applies_to", .list (r.appliesTo.map .str))] ++
    (r.compoundAfter.toList.map fun after => ("compound_after", textOrNone after)) ++
    (r.displayOnFolio.toList.map fun b => ("display_on_folio", .bool b)) ++
    r.active.toList.map fun b => ("active", .bool b))

structure CountryPack where
  code : String
  tenantId : Option UUID
  name : String
  currencyCode : String
  currencySymbol : String
  currencySymbolPosition : String
  currencyDecimalPlaces : ℤ
  timezone : String
  dateFormat : String
  locale : String
  defaultCheckinTime : ℕ
  defaultCheckoutTime : ℕ
  taxes : Json
  paymentMethods : List String
  fiscalYearStart : Option String
  isBuiltin : Bool

abbrev PacksDb := Table CountryPack.code

/-- The schema has bounded the texts and numbers. -/
structure CountryPackCreate where
  code : String
  name : String
  currencyCode : String
  currencySymbol : String
  currencySymbolPosition : String
  currencyDecimalPlaces : ℤ
  timezone : String
  dateFormat : String
  locale : String
  defaultCheckinTime : ℕ
  defaultCheckoutTime : ℕ
  taxes : List TaxRuleSchema
  paymentMethods : List String
  fiscalYearStart : Option String

/-- Each field is absent, null or set. -/
structure CountryPackPatch where
  name : Option (Option String) := none
  currencyCode : Option (Option String) := none
  currencySymbol : Option (Option String) := none
  currencySymbolPosition : Option (Option String) := none
  currencyDecimalPlaces : Option (Option ℤ) := none
  timezone : Option (Option String) := none
  dateFormat : Option (Option String) := none
  locale : Option (Option String) := none
  defaultCheckinTime : Option (Option ℕ) := none
  defaultCheckoutTime : Option (Option ℕ) := none
  taxes : Option (Option (List TaxRuleSchema)) := none
  paymentMethods : Option (Option (List String)) := none
  fiscalYearStart : Option (Option String) := none

/-! The service -/

/-- A blank text is no start of the year, and others are stripped. -/
def yearStart (text : Option String) : Option String :=
  (text.filter fun s => s ≠ "").map Text.strip

def createCountryPack (tenantId : UUID) (data : CountryPackCreate) (db : PacksDb) :
    Except PackError (PacksDb × CountryPack) := do
  let code := Text.strip data.code
  if (db.find code).isSome then
    .error (.countryPackService "country pack code already exists" 409)
  else do
    let taxes ← jsonDumps (.list (data.taxes.map (·.dumpJson)))
    let row : CountryPack :=
      { code := code, tenantId := some tenantId, name := Text.strip data.name,
        currencyCode := data.currencyCode, currencySymbol := Text.strip data.currencySymbol,
        currencySymbolPosition := data.currencySymbolPosition,
        currencyDecimalPlaces := data.currencyDecimalPlaces,
        timezone := Text.strip data.timezone, dateFormat := Text.strip data.dateFormat,
        locale := Text.strip data.locale, defaultCheckinTime := data.defaultCheckinTime,
        defaultCheckoutTime := data.defaultCheckoutTime, taxes := taxes,
        paymentMethods := data.paymentMethods, fiscalYearStart := yearStart data.fiscalYearStart,
        isBuiltin := false }
    pure (db.insert row, row)

/-- `str(value).strip()` of a field that was sent. -/
def strippedOr (current : String) : Option (Option String) → String
  | none => current
  | some value => Text.strip (value.getD "None")

/-- A null is refused by the column when the row is written. -/
def columnOr {α : Type} (current : α) : Option (Option α) → Except PackError α
  | none => .ok current
  | some none => .error .integrityError
  | some (some value) => .ok value

/-- `int(None)` raises. -/
def numberOr (current : ℤ) : Option (Option ℤ) → Except PackError ℤ
  | none => .ok current
  | some none => .error .typeError
  | some (some n) => .ok n

/-- No item of the dump is a `TaxRuleSchema` any more. -/
def taxesOr (current : Json) : Option (Option (List TaxRuleSchema)) → Except PackError Json
  | none => .ok current
  | some none => .ok current
  | some (some rules) => jsonDumps (.list (rules.map (·.dumpSet)))

def editedRow (row : CountryPack) (data : CountryPackPatch) : Except PackError CountryPack := do
  let decimalPlaces ← numberOr row.currencyDecimalPlaces data.currencyDecimalPlaces
  let taxes ← taxesOr row.taxes data.taxes
  let currencyCode ← columnOr row.currencyCode data.currencyCode
  let position ← columnOr row.currencySymbolPosition data.currencySymbolPosition
  let checkin ← columnOr row.defaultCheckinTime data.defaultCheckinTime
  let checkout ← columnOr row.defaultCheckoutTime data.defaultCheckoutTime
  pure { row with
    name := strippedOr row.name data.name
    currencyCode := currencyCode
    currencySymbol := strippedOr row.currencySymbol data.currencySymbol
    currencySymbolPosition := position
    currencyDecimalPlaces := decimalPlaces
    timezone := strippedOr row.timezone data.timezone
    dateFormat := strippedOr row.dateFormat data.dateFormat
    locale := strippedOr row.locale data.locale
    defaultCheckinTime := checkin
    defaultCheckoutTime := checkout
    taxes := taxes
    paymentMethods := data.paymentMethods.elim row.paymentMethods (·.getD [])
    fiscalYearStart := data.fiscalYearStart.elim row.fiscalYearStart yearStart }

def notFound : PackError := .countryPackService "country pack not found" 404

def replaceRow (row : CountryPack) (db : PacksDb) : PacksDb :=
  (db.erase row.code).insert row

def updateCountryPack (tenantId : UUID) (code : String) (data : CountryPackPatch) (db : PacksDb) :
    Except PackError (PacksDb × CountryPack) :=
  match db.find (Text.strip code) with
  | none => .error notFound
  | some row =>
    if row.isBuiltin then .error (.countryPackService "cannot modify builtin country pack" 403)
    else if row.tenantId ≠ some tenantId then .error notFound
    else do
      let edited ← editedRow row data
      pure (replaceRow edited db, edited)

/-! What the two ways store -/

/-- A dump in Python mode holds the rate as a decimal. -/
theorem jsonDumps_dumpSet (r : TaxRuleSchema) : jsonDumps r.dumpSet = .error .statementError := rfl

theorem taxesOr_rules (current : Json) (rules : List TaxRuleSchema) :
    taxesOr current (some (some rules)) =
      if rules = [] then .ok (.arr []) else .error .statementError := by
  cases rules with
  | nil => rfl
  | cons r rest =>
    rw [if_neg (by simp)]
    simp only [taxesOr, List.map_cons, jsonDumps, dumpItems, jsonDumps_dumpSet]
    rfl

section Edits
variable {db db' : PacksDb} {tenantId tenantId' : UUID} {code : String} {row created : CountryPack}
  {data : CountryPackCreate}

theorem createCountryPack_ok
    (h : createCountryPack tenantId data db = .ok (db', created)) :
    jsonDumps (.list (data.taxes.map (·.dumpJson))) = .ok created.taxes := by
  unfold createCountryPack at h
  simp only at h
  split at h
  · cases h
  · cases hdump : jsonDumps (.list (data.taxes.map (·.dumpJson))) with
    | error e =>
      rw [hdump] at h
      cases h
    | ok taxes =>
      rw [hdump] at h
      cases h
      rfl

/-- An edit of the taxes alone stores the list exactly if it is empty. -/
theorem update_taxes (hfind : db.find (Text.strip code) = some row)
    (howner : row.tenantId = some tenantId) (hbuiltin : row.isBuiltin = false)
    (rules : List TaxRuleSchema) :
    updateCountryPack tenantId code { taxes := some (some rules) } db =
      if rules = [] then
        .ok (replaceRow { row with taxes := .arr [] } db, { row with taxes := .arr [] })
      else .error .statementError := by
  simp only [updateCountryPack, hfind, hbuiltin, howner, ne_eq, not_true_eq_false, if_false,
    Bool.false_eq_true, editedRow, numberOr, columnOr, strippedOr, taxesOr_rules, Option.elim]
  split
  · rfl
  · rfl

/-- An edit of a tenant's own pack stores a list of rules as a creation does, and makes the
engine compute the same, exactly if the list is empty. -/
theorem pack_edit_iff (hfind : db.find (Text.strip code) = some row)
    (howner : row.tenantId = some tenantId) (hbuiltin : row.isBuiltin = false) {other : PacksDb}
    (hcreate : createCountryPack tenantId' data other = .ok (db', created)) :
    (∃ db₂ edited,
      updateCountryPack tenantId code { taxes := some (some data.taxes) } db = .ok (db₂, edited) ∧
      edited.taxes = created.taxes ∧ ∀ price category,
        calculateTaxesFromRules price edited.taxes category =
          calculateTaxesFromRules price created.taxes category) ↔ data.taxes = [] := by
  have hdump := createCountryPack_ok hcreate
  rw [update_taxes hfind howner hbuiltin]
  constructor
  · rintro ⟨db₂, edited, hupdate, -⟩
    by_contra hne
    rw [if_neg hne] at hupdate
    cases hupdate
  · intro hnil
    rw [hnil] at hdump
    have hempty : created.taxes = .arr [] := (Except.ok.inj hdump).symm
    rw [if_pos hnil]
    exact ⟨_, _, rfl, hempty.symm, fun price category => by rw [hempty]⟩

end Edits

namespace Demo

/-- A pack with these rules. -/
def packOf (taxes : List TaxRuleSchema) : CountryPackCreate where
  code := "AT"
  name := "Austria"
  currencyCode := "EUR"
  currencySymbol := "EUR"
  currencySymbolPosition := "after"
  currencyDecimalPlaces := 2
  timezone := "Europe/Vienna"
  dateFormat := "DD.MM.YYYY"
  locale := "de"
  defaultCheckinTime := 15
  defaultCheckoutTime := 11
  taxes := taxes
  paymentMethods := ["cash"]
  fiscalYearStart := none

def storedPack : CountryPack where
  code := "AT"
  tenantId := some 1
  name := "Austria"
  currencyCode := "EUR"
  currencySymbol := "EUR"
  currencySymbolPosition := "after"
  currencyDecimalPlaces := 2
  timezone := "Europe/Vienna"
  dateFormat := "DD.MM.YYYY"
  locale := "de"
  defaultCheckinTime := 15
  defaultCheckoutTime := 11
  taxes := .arr []
  paymentMethods := ["cash"]
  fiscalYearStart := none
  isBuiltin := false

def storedPacks : PacksDb := ⟨[storedPack], by decide⟩

/-- Ten percent, with the optional fields left out. -/
def vat : TaxRuleSchema where
  code := "VAT"
  name := "VAT"
  rate := ⟨false, 10, -2⟩
  inclusive := true
  appliesTo := ["all"]
  compoundAfter := none
  displayOnFolio := none
  active := none
  code_length := by decide
  name_length := by decide
  rate_bounds := by
    unfold WrittenDecimal.value
    norm_num
  appliesTo_ne := by simp
  compoundAfter_length := by simp

end Demo

theorem pack_edit_empty : ∃ db₂ edited,
    updateCountryPack 1 "AT" { taxes := some (some (Demo.packOf []).taxes) } Demo.storedPacks =
      .ok (db₂, edited) ∧ edited.taxes = .arr [] := by
  have hcreate : ∃ db' created,
      createCountryPack 1 (Demo.packOf []) .empty = .ok (db', created) ∧ created.taxes = .arr [] :=
    ⟨_, _, rfl, rfl⟩
  obtain ⟨db', created, hcreate, hempty⟩ := hcreate
  have hfind : Demo.storedPacks.find (Text.strip "AT") = some Demo.storedPack := rfl
  obtain ⟨db₂, edited, hupdate, htaxes, -⟩ := (pack_edit_iff hfind rfl rfl hcreate).mpr rfl
  exact ⟨db₂, edited, hupdate, htaxes.trans hempty⟩

/-- One rule can be created but not edited in. -/
theorem pack_edit_refuses_rules :
    (createCountryPack 1 (Demo.packOf [Demo.vat]) .empty).isOk = true ∧
    Demo.storedPacks.find (Text.strip "AT") = some Demo.storedPack ∧
    Demo.storedPack.tenantId = some 1 ∧ Demo.storedPack.isBuiltin = false ∧
    updateCountryPack 1 "AT" { taxes := some (some [Demo.vat]) } Demo.storedPacks =
      .error .statementError :=
  ⟨rfl, rfl, rfl, rfl, rfl⟩

end OpenPms.Packs
