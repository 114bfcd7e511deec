import OpenPms.TaxEngine

/-!
What the two loops of the tax engine do, as one walk over the rules that it uses. An entry
is a rule with the amount of its line; only the exclusive ones move the running total.
-/
namespace OpenPms.Tax

open Decimals

/-! The first loop -/

/-- The rules that the engine goes on with. -/
def selected (category : String) (rules : List Rule) : List Rule :=
  rules.filter (Rule.eligible category)

theorem rate_ne_nan {rate : Option Decimal} {b : Bool}
    (h : (rate.getD (.finite 0)).isNegative = .ok b) : rate ≠ some .nan := by
  rintro rfl
  cases h

/-- Only a NaN cannot be compared. -/
theorem isNegative_of_ne {rate : Option Decimal} (h : rate ≠ some .nan) :
    ∃ b, (rate.getD (.finite 0)).isNegative = .ok b := by
  cases rate with
  | none => exact ⟨_, rfl⟩
  | some rate =>
    cases rate with
    | finite q => exact ⟨_, rfl⟩
    | infinite s => exact ⟨_, rfl⟩
    | nan => exact absurd rfl h

theorem selectActive_ok {category : String} {rules active : List Rule} :
    selectActive category rules = .ok active ↔
      active = selected category rules ∧ ∀ r ∈ selected category rules, r.rate ≠ some .nan := by
  induction rules generalizing active with
  | nil =>
    rw [selectActive, Except.ok.injEq]
    simp [selected, eq_comm]
  | cons r rest ih =>
    unfold selected at ih ⊢
    by_cases he : r.eligible category
    · rw [selectActive, if_pos he, List.filter_cons_of_pos he]
      rw [Except.bind_eq_ok]
      constructor
      · rintro ⟨negative, hneg, h⟩
        obtain ⟨active', hrest, h⟩ := Except.bind_eq_ok.mp h
        obtain ⟨rfl, hall⟩ := ih.mp hrest
        exact ⟨(Except.ok.inj h).symm, List.forall_mem_cons.mpr ⟨rate_ne_nan hneg, hall⟩⟩
      · rintro ⟨rfl, hall⟩
        obtain ⟨hr, hall⟩ := List.forall_mem_cons.mp hall
        obtain ⟨negative, hneg⟩ := isNegative_of_ne hr
        exact ⟨negative, hneg, Except.bind_eq_ok.mpr ⟨_, ih.mpr ⟨rfl, hall⟩, rfl⟩⟩
    · rw [selectActive, if_neg he, List.filter_cons_of_neg he]
      exact ih

/-! Amounts -/

theorem minus_self (x : ℚ) : minus x x = .ok 0 := by
  unfold minus
  rw [sub_self]
  exact result_short short_zero (by norm_num)

theorem quantize_zero : (Decimal.finite 0).quantize = .ok 0 :=
  Decimal.quantize_whole whole_zero (by norm_num)

/-- Both loops take the same amount from a price: what the second takes for the rate zero
is zero as well. -/
theorem nonCompoundAmount_eq (x : ℚ) (r : Rule) : nonCompoundAmount x r = compoundAmount x r := by
  unfold nonCompoundAmount compoundAmount
  cases r.parsedRate with
  | error e => rfl
  | ok rate =>
    change (if r.inclusive then _ else _) = if r.inclusive then _ else _
    by_cases hinc : r.inclusive
    · rw [if_pos hinc, if_pos hinc]
      by_cases hzero : rate = .finite 0
      · rw [if_pos hzero, if_pos hzero]
        change Except.ok 0 = (minus x x).bind fun amt => (Decimal.finite amt).quantize
        rw [minus_self]
        exact quantize_zero.symm
      · rw [if_neg hzero, if_neg hzero]
    · rw [if_neg hinc, if_neg hinc]

/-- The tax that a rule takes from a price. -/
def shareOf (price : ℚ) (r : Rule) : ℚ := (compoundAmount price r).toOption.getD 0

theorem shareOf_eq {price a : ℚ} {r : Rule} (h : compoundAmount price r = .ok a) :
    shareOf price r = a := by
  unfold shareOf
  rw [h]
  rfl

/-! Walks -/

/-- The entries that are made from a running total on, up to the last one. -/
inductive Walk (amount : ℚ → Rule → Except Signal ℚ) : ℚ → List (Rule × ℚ) → ℚ → Prop
  | nil (x : ℚ) : Walk amount x [] x
  | step {x x' y a : ℚ} {r : Rule} {entries : List (Rule × ℚ)} (ha : amount x r = .ok a)
    (hx : runningAfter x r a = .ok x') (rest : Walk amount x' entries y) :
    Walk amount x ((r, a) :: entries) y

def lineOf (code : Rule → String) (entry : Rule × ℚ) : TaxLine :=
  ⟨code entry.1, entry.1.name.getD (code entry.1), entry.2⟩

section Walks
variable {amount : ℚ → Rule → Except Signal ℚ} {code : Rule → String}

theorem addLines_ok {rules : List Rule} {x y : ℚ} {lines : List TaxLine} :
    addLines code amount rules x = .ok (lines, y) ↔
      ∃ entries, entries.map Prod.fst = rules ∧ entries.map (lineOf code) = lines ∧
        Walk amount x entries y := by
  induction rules generalizing x y lines with
  | nil =>
    rw [addLines, Except.ok.injEq, Prod.mk.injEq]
    constructor
    · rintro ⟨rfl, rfl⟩
      exact ⟨[], rfl, rfl, .nil x⟩
    · rintro ⟨entries, hrules, rfl, hwalk⟩
      obtain rfl := List.map_eq_nil_iff.mp hrules
      cases hwalk
      exact ⟨rfl, rfl⟩
  | cons r rest ih =>
    rw [addLines, Except.bind_eq_ok]
    constructor
    · rintro ⟨a, ha, h⟩
      obtain ⟨x', hx, h⟩ := Except.bind_eq_ok.mp h
      obtain ⟨⟨lines', y'⟩, hrest, h⟩ := Except.bind_eq_ok.mp h
      obtain ⟨rfl, rfl⟩ := Prod.mk.inj (Except.ok.inj h)
      obtain ⟨entries, rfl, rfl, hwalk⟩ := ih.mp hrest
      exact ⟨(r, a) :: entries, rfl, rfl, .step ha hx hwalk⟩
    · rintro ⟨entries, hrules, rfl, hwalk⟩
      cases hwalk with
      | nil => cases hrules
      | @step _ x' _ a _ entries ha hx hwalk =>
        obtain ⟨rfl, rfl⟩ := List.cons.inj hrules
        refine ⟨a, ha, Except.bind_eq_ok.mpr ⟨x', hx, Except.bind_eq_ok.mpr ?_⟩⟩
        exact ⟨_, ih.mpr ⟨entries, rfl, rfl, hwalk⟩, rfl⟩

theorem Walk.append {x y z : ℚ} {first second : List (Rule × ℚ)} (h : Walk amount x first y)
    (h' : Walk amount y second z) : Walk amount x (first ++ second) z := by
  induction h with
  | nil => exact h'
  | step ha hx _ ih => exact .step ha hx (ih h')

theorem Walk.split {x z : ℚ} {first second : List (Rule × ℚ)}
    (h : Walk amount x (first ++ second) z) :
    ∃ y, Walk amount x first y ∧ Walk amount y second z := by
  induction first generalizing x with
  | nil => exact ⟨x, .nil x, h⟩
  | cons entry first ih =>
    cases h with
    | step ha hx rest =>
      obtain ⟨y, hfirst, hsecond⟩ := ih rest
      exact ⟨y, .step ha hx hfirst, hsecond⟩

theorem Walk.congr {amount' : ℚ → Rule → Except Signal ℚ} {x y : ℚ} {entries : List (Rule × ℚ)}
    (h : Walk amount x entries y)
    (heq : ∀ r ∈ entries.map Prod.fst, ∀ x, amount x r = amount' x r) :
    Walk amount' x entries y := by
  induction h with
  | nil => exact .nil _
  | step ha hx _ ih =>
    rw [List.map_cons, List.forall_mem_cons] at heq
    exact .step (heq.1 _ ▸ ha) hx (ih heq.2)

end Walks

/-! The whole calculation -/

theorem codeToRule_some {rules : List Rule} {key : String} {r : Rule}
    (h : codeToRule rules key = some r) : r ∈ rules ∧ r.key = key :=
  ⟨List.mem_reverse.mp (List.mem_of_find?_eq_some h), by simpa using List.find?_some h⟩

theorem of_mem_compoundRules {active : List Rule} {r : Rule} (h : r ∈ compoundRules active) :
    r ∈ active ∧ r.compound = true := by
  obtain ⟨key, -, hkey⟩ := List.mem_filterMap.mp h
  exact List.mem_filter.mp (codeToRule_some hkey).1

/-- The rules that the two loops go through, one after the other. -/
def usedRules (active : List Rule) : List Rule :=
  active.filter (fun r => !r.compound) ++ compoundRules active

theorem of_mem_usedRules {active : List Rule} {r : Rule} (h : r ∈ usedRules active) :
    r ∈ active := by
  rcases List.mem_append.mp h with hplain | hcomp
  · exact List.mem_of_mem_filter hplain
  · exact (of_mem_compoundRules hcomp).1

/-- A tax is taken from the base price, a compound one from the running total. -/
def priceOf (basePrice running : ℚ) (r : Rule) : ℚ := if r.compound then running else basePrice

def usedAmount (basePrice running : ℚ) (r : Rule) : Except Signal ℚ :=
  compoundAmount (priceOf basePrice running r) r

def lineCode (r : Rule) : String := if r.compound then r.key else r.code

theorem lines_eq {first second : List (Rule × ℚ)} (hfirst : ∀ e ∈ first, e.1.compound = false)
    (hsecond : ∀ e ∈ second, e.1.compound = true) :
    first.map (lineOf Rule.code) ++ second.map (lineOf Rule.key) =
      (first ++ second).map (lineOf lineCode) := by
  rw [List.map_append]
  congr 1
  · refine List.map_congr_left fun e he => ?_
    unfold lineOf lineCode
    rw [hfirst e he]
    rfl
  · refine List.map_congr_left fun e he => ?_
    unfold lineOf lineCode
    rw [hsecond e he]
    rfl

/-- What the calculation returns is one walk over the rules that it uses. -/
theorem calculateTaxes_ok {basePrice : ℚ} {rules : List Rule} {category : String}
    {c : TaxCalculation} :
    calculateTaxes basePrice rules category = .ok c ↔
      (∀ r ∈ selected category rules, r.rate ≠ some .nan) ∧
      ∃ entries final, entries.map Prod.fst = usedRules (selected category rules) ∧
        Walk (usedAmount basePrice) basePrice entries final ∧
        (Decimal.finite final).quantize = .ok c.totalWithTaxes ∧
        c.lines = entries.map (lineOf lineCode) ∧ c.subtotal = basePrice := by
  unfold calculateTaxes
  rw [Except.bind_eq_ok]
  constructor
  · rintro ⟨active, hactive, h⟩
    obtain ⟨rfl, hnan⟩ := selectActive_ok.mp hactive
    obtain ⟨⟨lines, running⟩, hfirst, h⟩ := Except.bind_eq_ok.mp h
    obtain ⟨⟨compoundLines, final⟩, hsecond, h⟩ := Except.bind_eq_ok.mp h
    obtain ⟨total, htotal, h⟩ := Except.bind_eq_ok.mp h
    obtain rfl := Except.ok.inj h
    obtain ⟨first, hrules, rfl, hwalk⟩ := addLines_ok.mp hfirst
    obtain ⟨second, hrules', rfl, hwalk'⟩ := addLines_ok.mp hsecond
    have hplain : ∀ r ∈ first.map Prod.fst, r.compound = false := by
      intro r hr
      rw [hrules] at hr
      simpa using (List.mem_filter.mp hr).2
    have hcomp : ∀ r ∈ second.map Prod.fst, r.compound = true := by
      intro r hr
      rw [hrules'] at hr
      exact (of_mem_compoundRules hr).2
    refine ⟨hnan, first ++ second, final, ?_, ?_, htotal, ?_, rfl⟩
    · rw [List.map_append, hrules, hrules', usedRules]
    · refine (hwalk.congr fun r hr x => ?_).append (hwalk'.congr fun r hr x => ?_)
      · rw [nonCompoundAmount_eq, usedAmount, priceOf, hplain r hr]
        rfl
      · rw [usedAmount, priceOf, hcomp r hr]
        rfl
    · exact lines_eq (fun e he => hplain _ (List.mem_map_of_mem he))
        (fun e he => hcomp _ (List.mem_map_of_mem he))
  · rintro ⟨hnan, entries, final, hrules, hwalk, htotal, hlines, hsub⟩
    obtain ⟨first, second, rfl, hfirst, hsecond⟩ := List.map_eq_append_iff.mp hrules
    obtain ⟨running, hwalk, hwalk'⟩ := hwalk.split
    have hplain : ∀ r ∈ first.map Prod.fst, r.compound = false := by
      intro r hr
      rw [hfirst] at hr
      simpa using (List.mem_filter.mp hr).2
    have hcomp : ∀ r ∈ second.map Prod.fst, r.compound = true := by
      intro r hr
      rw [hsecond] at hr
      exact (of_mem_compoundRules hr).2
    refine ⟨_, selectActive_ok.mpr ⟨rfl, hnan⟩, Except.bind_eq_ok.mpr
      ⟨(_, running), addLines_ok.mpr ⟨first, hfirst, rfl, hwalk.congr fun r hr x => ?_⟩,
        Except.bind_eq_ok.mpr ⟨(_, final), addLines_ok.mpr
          ⟨second, hsecond, rfl, hwalk'.congr fun r hr x => ?_⟩,
            Except.bind_eq_ok.mpr ⟨_, htotal, ?_⟩⟩⟩⟩
    · rw [nonCompoundAmount_eq, usedAmount, priceOf, hplain r hr]
      rfl
    · rw [usedAmount, priceOf, hcomp r hr]
      rfl
    · obtain ⟨lines, subtotal, total⟩ := c
      obtain rfl : lines = _ := hlines
      obtain rfl : subtotal = _ := hsub
      rw [← lines_eq (fun e he => hplain _ (List.mem_map_of_mem he))
        (fun e he => hcomp _ (List.mem_map_of_mem he))]
      rfl

/-- The rules that a calculation went through, with the amounts that it took. -/
structure Accounts (basePrice : ℚ) (rules : List Rule) (category : String) (c : TaxCalculation)
    (entries : List (Rule × ℚ)) : Prop where
  rules : entries.map Prod.fst = usedRules (selected category rules)
  walk : ∃ final, Walk (usedAmount basePrice) basePrice entries final ∧
    (Decimal.finite final).quantize = .ok c.totalWithTaxes
  lines : c.lines = entries.map (lineOf lineCode)

theorem exists_accounts {basePrice : ℚ} {rules : List Rule} {category : String}
    {c : TaxCalculation} (h : calculateTaxes basePrice rules category = .ok c) :
    ∃ entries, Accounts basePrice rules category c entries := by
  obtain ⟨-, entries, final, hrules, hwalk, htotal, hlines, -⟩ := calculateTaxes_ok.mp h
  exact ⟨entries, hrules, ⟨final, hwalk, htotal⟩, hlines⟩

end OpenPms.Tax
