import OpenPms.Basic
import OpenPms.Lib.Decimal
import OpenPms.Lib.Toposort
import OpenPms.Lib.Transaction
import Mathlib.Data.List.Sort
import Mathlib.Data.String.Basic

/-!
The tax engine of the country packs. A pack stores its rules as JSON; the engine reads what
it needs of each, keeps those that apply to the category, first takes every tax on the base
price and then the compound ones on a running total, in an order found by a topological
sort. A folio posting turns the result into charges, by the property's tax mode.
-/
namespace OpenPms.Tax

open Decimals Toposort

/-! Values of a JSON column -/

/-- A float comes with the text that `str` makes of it. -/
inductive Json where
  | null
  | bool (b : Bool)
  | int (n : ℤ)
  | float (text : String)
  | str (s : String)
  | arr (items : List Json)
  | obj (fields : List (String × Json))

namespace Json

/-- Python's `bool`. -/
def truthy : Json → Bool
  | null => false
  | bool b => b
  | int n => n ≠ 0
  | float text => text ≠ "0.0" ∧ text ≠ "-0.0"
  | str s => s ≠ ""
  | arr items => !items.isEmpty
  | obj fields => !fields.isEmpty

/-- How `repr` writes a character between such quotes. -/
def escaped (quote c : Char) : List Char :=
  if c = quote ∨ c = '\\' then ['\\', c]
  else if c = '\n' then "\\n".toList
  else if c = '\r' then "\\r".toList
  else if c = '\t' then "\\t".toList
  else if c.toNat < 16 then "\\x0".toList ++ Nat.toDigits 16 c.toNat
  else if c.toNat < 32 ∨ 127 ≤ c.toNat ∧ c.toNat ≤ 160 ∨ c.toNat = 173 then
    "\\x".toList ++ Nat.toDigits 16 c.toNat
  else [c]

def quoted (s : String) : String :=
  let quote := if '\'' ∈ s.toList ∧ '"' ∉ s.toList then '"' else '\''
  String.ofList (quote :: s.toList.flatMap (escaped quote) ++ [quote])

mutual

/-- Python's `repr`. -/
def repr : Json → String
  | null => "None"
  | bool b => if b then "True" else "False"
  | int n => toString n
  | float text => text
  | str s => quoted s
  | arr items => "[" ++ ", ".intercalate (reprItems items) ++ "]"
  | obj fields => "\x7b" ++ ", ".intercalate (reprFields fields) ++ "\x7d"

def reprItems : List Json → List String
  | [] => []
  | item :: rest => repr item :: reprItems rest

def reprFields : List (String × Json) → List String
  | [] => []
  | (key, value) :: rest => (quoted key ++ ": " ++ repr value) :: reprFields rest

end

/-- Python's `str`. -/
def text : Json → String
  | str s => s
  | value => repr value

end Json

/-! Rules -/

/-- What `compound_after` says: nothing or a blank text, the code of a rule, or something
that is not a text. -/
inductive After where
  | absent
  | code (key : String)
  | other
  deriving DecidableEq

/-- What the engine reads of a rule. Its rate is `none` where `Decimal` does not parse it. -/
structure Rule where
  active : Bool
  appliesTo : Option (List String)
  code : String
  name : Option String
  rate : Option Decimal
  inclusive : Bool
  compoundAfter : After
  deriving DecidableEq

namespace Rule

/-- `None`, or a text of spaces only, makes a rule that is not compound. -/
def afterOf : Option Json → After
  | none | some .null => .absent
  | some (.str s) => if Text.strip s = "" then .absent else .code (Text.strip s)
  | some _ => .other

def ofFields (fields : List (String × Json)) : Rule where
  active := (fields.lookup "active").elim true Json.truthy
  appliesTo := match fields.lookup "applies_to" with
    | some (.arr items) => some (items.map Json.text)
    | _ => none
  code := (fields.lookup "code").elim "" Json.text
  name := (fields.lookup "name").map Json.text
  rate := Decimal.ofText (Text.strip ((fields.lookup "rate").elim "0" Json.text))
  inclusive := (fields.lookup "inclusive").elim false Json.truthy
  compoundAfter := afterOf (fields.lookup "compound_after")

/-- The code without the spaces around it. -/
def key (r : Rule) : String := Text.strip r.code

def compound (r : Rule) : Bool := r.compoundAfter ≠ .absent

/-- The code that it comes after. -/
def dependency (r : Rule) : Option String :=
  match r.compoundAfter with
  | .code key => some key
  | _ => none

def applies (category : String) (r : Rule) : Bool :=
  r.appliesTo.any fun appliesTo =>
    let norm := appliesTo.map fun x => Text.lower (Text.strip x)
    "all" ∈ norm ∨ Text.lower (Text.strip category) ∈ norm

/-- Whether the engine goes on with the rule. -/
def eligible (category : String) (r : Rule) : Bool :=
  r.active && r.applies category && r.key ≠ ""

/-- `Decimal(str(r.get("rate", 0)))` -/
def parsedRate (r : Rule) : Except Signal Decimal :=
  match r.rate with
  | none => .error .invalidOperation
  | some rate => .ok rate

end Rule

def ruleOf : Json → Option Rule
  | .obj fields => some (Rule.ofFields fields)
  | _ => none

def parseRules : Json → List Rule
  | .arr items => items.filterMap ruleOf
  | _ => []

/-! The engine -/

structure TaxLine where
  code : String
  name : String
  amount : ℚ
  deriving DecidableEq

structure TaxCalculation where
  lines : List TaxLine
  subtotal : ℚ
  totalWithTaxes : ℚ
  deriving DecidableEq

/-- The first loop. A rate that does not parse counts as zero here, and one below zero is
replaced by it, but what is kept is the rule. -/
def selectActive (category : String) : List Rule → Except Signal (List Rule)
  | [] => .ok []
  | r :: rest =>
    if r.eligible category then do
      let _ ← (r.rate.getD (.finite 0)).isNegative
      let active ← selectActive category rest
      return r :: active
    else selectActive category rest

/-- What is left of a gross amount without its tax. -/
def netOf (gross : ℚ) (rate : Decimal) : Except Signal ℚ := do
  let divisor ← Decimal.add (.finite 1) rate
  let net ← Decimal.div (.finite gross) divisor
  net.quantize

def nonCompoundAmount (basePrice : ℚ) (r : Rule) : Except Signal ℚ := do
  let rate ← r.parsedRate
  if r.inclusive then
    if rate = .finite 0 then return 0
    else
      let net ← netOf basePrice rate
      let amt ← minus basePrice net
      (Decimal.finite amt).quantize
  else
    let amt ← Decimal.mul (.finite basePrice) rate
    amt.quantize

def compoundAmount (running : ℚ) (r : Rule) : Except Signal ℚ := do
  let rate ← r.parsedRate
  if r.inclusive then
    let netBefore ← if rate = .finite 0 then .ok running else netOf running rate
    let amt ← minus running netBefore
    (Decimal.finite amt).quantize
  else
    let amt ← Decimal.mul (.finite running) rate
    amt.quantize

/-- The running total after a line; `running += amt` unless the rule is inclusive. -/
def runningAfter (running : ℚ) (r : Rule) (amt : ℚ) : Except Signal ℚ :=
  if r.inclusive then .ok running else plus running amt

/-- A loop over rules, each of which adds a line. -/
def addLines (code : Rule → String) (amount : ℚ → Rule → Except Signal ℚ) :
    List Rule → ℚ → Except Signal (List TaxLine × ℚ)
  | [], running => .ok ([], running)
  | r :: rest, running => do
    let amt ← amount running r
    let running ← runningAfter running r amt
    let (lines, total) ← addLines code amount rest running
    return (⟨code r, r.name.getD (code r), amt⟩ :: lines, total)

/-- The rule that a dictionary of them keeps under a code: the last. -/
def codeToRule (rules : List Rule) (key : String) : Option Rule :=
  rules.reverse.find? fun r => r.key = key

/-- The active code that a compound one comes after. -/
def link (active : List Rule) (key : String) : Option String :=
  ((codeToRule (active.filter Rule.compound) key).bind Rule.dependency).filter fun d =>
    d ∈ active.map Rule.key

def nodes (active : List Rule) : List String := (active.filter Rule.compound).map Rule.key

/-- `sorted(adj[d])` -/
def successors (active : List Rule) (d : String) : List String :=
  ((nodes active).dedup.filter fun c => link active c = some d).insertionSort (· ≤ ·)

def inDegree (active : List Rule) (key : String) : ℤ := if (link active key).isSome then 1 else 0

/-- What leaves the queue. -/
def queueOrder (active : List Rule) : List String :=
  let queue := ((nodes active).filter fun c => inDegree active c = 0).insertionSort (· ≤ ·)
  drain (successors active) (nodes active).length queue (inDegree active)

def compoundOrder (active : List Rule) : List String :=
  complete (queueOrder active) (nodes active)

/-- The rules that the second loop goes through. -/
def compoundRules (active : List Rule) : List Rule :=
  (compoundOrder active).filterMap (codeToRule (active.filter Rule.compound))

def calculateTaxes (basePrice : ℚ) (rules : List Rule) (category : String) :
    Except Signal TaxCalculation := do
  let active ← selectActive category rules
  let (lines, running) ← addLines Rule.code (fun _ r => nonCompoundAmount basePrice r)
    (active.filter fun r => !r.compound) basePrice
  let (compoundLines, running) ← addLines Rule.key compoundAmount (compoundRules active) running
  let total ← (Decimal.finite running).quantize
  return ⟨lines ++ compoundLines, basePrice, total⟩

def calculateTaxesFromRules (basePrice : ℚ) (rawRules : Json) (category : String) :
    Except Signal TaxCalculation :=
  calculateTaxes basePrice (parseRules rawRules) category

/-! Rules that the schema accepts -/

/-- A rate between zero and one, with the text that is stored for it. -/
structure Rate where
  text : String
  value : ℚ
  parses : Decimal.ofText (Text.strip text) = some (.finite value)
  nonneg : 0 ≤ value
  le_one : value ≤ 1

structure TaxRuleSchema where
  code : String
  name : String
  rate : Rate
  inclusive : Bool
  appliesTo : List String
  compoundAfter : Option String
  displayOnFolio : Bool
  active : Bool
  code_length : 1 ≤ code.length ∧ code.length ≤ 32
  name_length : 1 ≤ name.length ∧ name.length ≤ 100
  appliesTo_length : 1 ≤ appliesTo.length
  compoundAfter_length : ∀ c ∈ compoundAfter, c.length ≤ 32

namespace TaxRuleSchema

theorem appliesTo_all : 1 ≤ ["all"].length := le_rfl

theorem compoundAfter_none : ∀ c ∈ (none : Option String), c.length ≤ 32 := nofun

/-- `model_dump(mode="json")` -/
def dump (t : TaxRuleSchema) : Json :=
  .obj [("code", .str t.code), ("name", .str t.name), ("rate", .str t.rate.text),
    ("inclusive", .bool t.inclusive), ("applies_to", .arr (t.appliesTo.map .str)),
    ("compound_after", t.compoundAfter.elim .null .str),
    ("display_on_folio", .bool t.displayOnFolio), ("active", .bool t.active)]

/-- What the engine reads of a stored rule. -/
def rule (t : TaxRuleSchema) : Rule where
  active := t.active
  appliesTo := some t.appliesTo
  code := t.code
  name := some t.name
  rate := some (.finite t.rate.value)
  inclusive := t.inclusive
  compoundAfter := Rule.afterOf (t.compoundAfter.map .str)

end TaxRuleSchema

def storedTaxes (rules : List TaxRuleSchema) : Json := .arr (rules.map TaxRuleSchema.dump)

theorem parseRules_storedTaxes (rules : List TaxRuleSchema) :
    parseRules (storedTaxes rules) = rules.map TaxRuleSchema.rule := by
  change (rules.map TaxRuleSchema.dump).filterMap ruleOf = _
  rw [List.filterMap_map, ← List.filterMap_eq_map]
  refine List.filterMap_congr fun t _ => ?_
  have htexts : (t.appliesTo.map Json.str).map Json.text = t.appliesTo := by
    rw [List.map_map]
    exact List.map_id _
  have hafter : Rule.afterOf (some (t.compoundAfter.elim .null .str)) = t.rule.compoundAfter := by
    unfold TaxRuleSchema.rule
    cases t.compoundAfter <;> rfl
  change some (Rule.ofFields _) = some t.rule
  congr 1
  unfold Rule.ofFields
  simp only [List.lookup_cons, beq_self_eq_true, String.reduceBEq,
    Option.elim_some, Option.map_some, Json.text, Json.truthy, t.rate.parses, htexts, hafter]
  rfl

/-! Folio postings -/

inductive TaxMode where
  | off
  | inclusive
  | exclusive
  deriving DecidableEq

structure CountryPackTaxPosting where
  lines : List TaxLine
  roomChargeAmount : ℚ
  totalAmount : ℚ
  deriving DecidableEq

/-- `sum` from zero. -/
def sumAmounts : List TaxLine → ℚ → Except Signal ℚ
  | [], total => .ok total
  | line :: rest, total => do
    let total ← plus total line.amount
    sumAmounts rest total

def setInclusive (r : Rule) : Rule := { r with inclusive := true }

def countryPackTaxPosting (basePrice : ℚ) (rawRules : Json) (category : String)
    (mode : Option TaxMode) : Except Signal CountryPackTaxPosting := do
  let gross ← (Decimal.finite basePrice).quantize
  match mode with
  | some .off => return ⟨[], gross, gross⟩
  | some .inclusive =>
    let calculation ← calculateTaxes gross ((parseRules rawRules).map setInclusive) category
    let sum ← sumAmounts calculation.lines 0
    let taxTotal ← (Decimal.finite sum).quantize
    let room ← minus gross taxTotal
    let roomChargeAmount ← (Decimal.finite room).quantize
    return ⟨calculation.lines, roomChargeAmount, gross⟩
  | _ =>
    let calculation ← calculateTaxes gross (parseRules rawRules) category
    let total ← (Decimal.finite calculation.totalWithTaxes).quantize
    return ⟨calculation.lines, gross, total⟩

/-- The posting in cents, as the folio takes it. -/
def inCents (p : CountryPackTaxPosting) : Money × List (Money × String) :=
  ((cents p.roomChargeAmount : ℤ),
    p.lines.map fun l => ((cents l.amount : ℤ), l.code ++ ": " ++ l.name))

end OpenPms.Tax
