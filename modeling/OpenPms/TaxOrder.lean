import OpenPms.TaxLines

/-!
Which rules the second loop goes through, and in what order. The rules are keyed by their
codes, so a repeated code stands for the last rule that has it; a rule whose chain starts
at a compound one is put after the rule that it names, and the others stay as they come.
-/
namespace OpenPms.Tax

open Decimals Toposort

section Order
variable {active : List Rule}

theorem mem_nodes {c : String} : c ∈ nodes active ↔ ∃ r ∈ active, r.compound = true ∧ r.key = c := by
  unfold nodes
  simp only [List.mem_map, List.mem_filter, and_assoc]

theorem successors_nodes (active : List Rule) :
    Successors (link active) (nodes active) (successors active) := by
  have hperm (d : String) := List.perm_insertionSort (· ≤ ·)
    ((nodes active).dedup.filter fun c => link active c = some d)
  refine ⟨fun d => ?_, fun c d => ?_⟩
  · exact (hperm d).nodup_iff.mpr ((List.nodup_dedup _).filter _)
  · rw [successors, (hperm d).mem_iff, List.mem_filter, List.mem_dedup, decide_eq_true_eq]

/-- The queue is emptied. -/
theorem queued_queueOrder (active : List Rule) :
    Queued (link active) (nodes active) (queueOrder active) (queueOrder active) := by
  have hfree : ((nodes active).filter fun c => inDegree active c = 0) =
      (nodes active).filter fun c => link active c = none := by
    refine List.filter_congr fun c _ => ?_
    unfold inDegree
    cases link active c <;> simp
  have hqueue : (((nodes active).filter fun c => inDegree active c = 0).insertionSort
      (· ≤ ·)).Perm ((nodes active).filter fun c => link active c = none) := by
    rw [← hfree]
    exact List.perm_insertionSort _ _
  have hcounts : InDegrees (link active) (nodes active) [] (inDegree active) := by
    intro c _ d hlink
    unfold inDegree
    rw [hlink]
    rfl
  have hrun := (queued_start hqueue).drain (successors_nodes active) (nodes active).length hcounts
    (by rw [List.length_nil, Nat.zero_add])
  rwa [List.nil_append] at hrun

theorem mem_compoundOrder {c : String} : c ∈ compoundOrder active ↔ c ∈ nodes active := by
  have h := queued_queueOrder active
  obtain ⟨rest, heq, -, hmem⟩ := h.complete_eq
  rw [compoundOrder, heq, List.mem_append, hmem, h.mem_iff]
  constructor
  · rintro (hroot | ⟨hc, -⟩)
    · exact hroot.mem
    · exact hc
  · intro hc
    by_cases hroot : Rooted (link active) (nodes active) c
    · exact .inl hroot
    · exact .inr ⟨hc, hroot⟩

theorem codeToRule_of_mem {rules : List Rule} {c : String} (h : c ∈ rules.map Rule.key) :
    ∃ r, codeToRule rules c = some r := by
  obtain ⟨r, hr, rfl⟩ := List.mem_map.mp h
  refine Option.isSome_iff_exists.mp (List.find?_isSome.mpr ⟨r, List.mem_reverse.mpr hr, ?_⟩)
  simp

theorem compoundRules_map_key : (compoundRules active).map Rule.key = compoundOrder active := by
  unfold compoundRules
  rw [List.map_filterMap]
  refine Eq.trans (List.filterMap_congr fun c hc => ?_) List.filterMap_some
  obtain ⟨r, hr⟩ := codeToRule_of_mem (mem_compoundOrder.mp hc)
  rw [hr, Option.map_some, (codeToRule_some hr).2]

/-- A rule that the second loop goes through is the one kept under its code. -/
theorem codeToRule_of_mem_compoundRules {r : Rule} (h : r ∈ compoundRules active) :
    codeToRule (active.filter Rule.compound) r.key = some r := by
  obtain ⟨c, -, hc⟩ := List.mem_filterMap.mp h
  rwa [(codeToRule_some hc).2]

/-! Each rule once -/

/-- Where compound rules share a code, they are the same rule, name and all, and it comes after
no rule in use. -/
structure Unambiguous (active : List Rule) : Prop where
  same : ∀ r ∈ active.filter Rule.compound,
    codeToRule (active.filter Rule.compound) r.key = some r
  free : ∀ c ∈ nodes active, 1 < (nodes active).count c → link active c = none

theorem count_compoundOrder {c : String} (hc : c ∈ nodes active) :
    (compoundOrder active).count c = if link active c = none then (nodes active).count c else 1 :=
  (queued_queueOrder active).count_complete hc

theorem compoundOrder_subperm (active : List Rule) :
    (compoundOrder active).Subperm (nodes active) := by
  refine List.subperm_ext_iff.mpr fun c hc => ?_
  have hmem := mem_compoundOrder.mp hc
  have hpos := List.count_pos_iff.mpr hmem
  rw [count_compoundOrder hmem]
  split <;> omega

theorem compoundRules_perm_iff :
    (compoundRules active).Perm (active.filter Rule.compound) ↔ Unambiguous active := by
  constructor
  · intro hperm
    have hkeys : (compoundOrder active).Perm (nodes active) := by
      rw [← compoundRules_map_key]
      exact hperm.map Rule.key
    refine ⟨fun r hr => ?_, fun c hc hmany => ?_⟩
    · exact codeToRule_of_mem_compoundRules (hperm.mem_iff.mpr hr)
    · have hcount := hkeys.count_eq c
      rw [count_compoundOrder hc] at hcount
      by_contra hlink
      rw [if_neg hlink] at hcount
      omega
  · intro h
    have hkeys : (compoundOrder active).Perm (nodes active) := by
      refine List.perm_iff_count.mpr fun c => ?_
      by_cases hc : c ∈ nodes active
      · have hpos := List.count_pos_iff.mpr hc
        rw [count_compoundOrder hc]
        split
        · rfl
        · next hlink =>
          have hfree := h.free c hc
          by_contra hne
          exact hlink (hfree (by omega))
      · rw [List.count_eq_zero.mpr hc, List.count_eq_zero.mpr fun hin => hc (mem_compoundOrder.mp hin)]
    refine (hkeys.filterMap _).trans (.of_eq ?_)
    unfold nodes
    rw [List.filterMap_map]
    refine Eq.trans (List.filterMap_congr fun r hr => ?_) List.filterMap_some
    exact h.same r hr

end Order

/-- The active rules that apply to the category. -/
def applicable (category : String) (rules : List Rule) : List Rule :=
  rules.filter fun r => r.active && r.applies category

theorem selected_eq_filter (category : String) (rules : List Rule) :
    selected category rules = (applicable category rules).filter fun r => r.key ≠ "" := by
  unfold selected applicable Rule.eligible
  rw [List.filter_filter]
  exact List.filter_congr fun r _ => Bool.and_comm _ _

theorem length_usedRules_le (active : List Rule) : (usedRules active).length ≤ active.length := by
  have hcomp : (compoundRules active).length ≤ (active.filter Rule.compound).length := by
    have hle := (compoundOrder_subperm active).length_le
    rw [nodes, List.length_map, ← compoundRules_map_key, List.length_map] at hle
    exact hle
  have hall := (List.filter_append_perm Rule.compound active).length_eq
  rw [List.length_append] at hall
  rw [usedRules, List.length_append]
  omega

/-- The rules in use are the applicable ones, each once, exactly if every one of these has
a code and shared codes are unambiguous. -/
theorem usedRules_perm_iff (category : String) (rules : List Rule) :
    (usedRules (selected category rules)).Perm (applicable category rules) ↔
      (∀ r ∈ applicable category rules, r.key ≠ "") ∧ Unambiguous (selected category rules) := by
  have hparts : (selected category rules).Perm
      (((selected category rules).filter fun r => !r.compound) ++
        (selected category rules).filter Rule.compound) :=
    (List.filter_append_perm Rule.compound _).symm.trans List.perm_append_comm
  have hused : (usedRules (selected category rules)).Perm (selected category rules) ↔
      Unambiguous (selected category rules) := by
    rw [usedRules, ← compoundRules_perm_iff]
    exact ⟨fun h => (List.perm_append_left_iff _).mp (h.trans hparts),
      fun h => ((List.perm_append_left_iff _).mpr h).trans hparts.symm⟩
  have hcoded : (∀ r ∈ applicable category rules, r.key ≠ "") ↔
      selected category rules = applicable category rules := by
    rw [selected_eq_filter, List.filter_eq_self]
    simp
  constructor
  · intro hperm
    have hlen := hperm.length_eq
    have hle := length_usedRules_le (selected category rules)
    have heq : selected category rules = applicable category rules := by
      have hsub : (selected category rules).Sublist (applicable category rules) := by
        rw [selected_eq_filter]
        exact List.filter_sublist
      exact hsub.eq_of_length_le (by omega)
    exact ⟨hcoded.mpr heq, hused.mp (heq ▸ hperm)⟩
  · rintro ⟨hkeys, hunamb⟩
    have heq := hcoded.mp hkeys
    rw [heq] at hused hunamb ⊢
    exact hused.mpr hunamb

/-- Every line is that of a rule in use, with its name, rate and flag. Those rules are the
active ones that apply to the category, each once, exactly if each of these has a code and
compound ones with a shared code are the same rule, which comes after none in use. -/
theorem one_line_each_iff {basePrice : ℚ} {taxes : List TaxRuleSchema} {category : String}
    {c : TaxCalculation}
    (h : calculateTaxesFromRules basePrice (storedTaxes taxes) category = .ok c) :
    ∃ entries, Accounts basePrice (taxes.map TaxRuleSchema.rule) category c entries ∧
      ((entries.map Prod.fst).Perm (applicable category (taxes.map TaxRuleSchema.rule)) ↔
        (∀ r ∈ applicable category (taxes.map TaxRuleSchema.rule), r.key ≠ "") ∧
          Unambiguous (selected category (taxes.map TaxRuleSchema.rule))) := by
  unfold calculateTaxesFromRules at h
  rw [parseRules_storedTaxes] at h
  obtain ⟨entries, hentries⟩ := exists_accounts h
  refine ⟨entries, hentries, ?_⟩
  rw [hentries.rules]
  exact usedRules_perm_iff category (taxes.map TaxRuleSchema.rule)

namespace Demo

def rate (percent : ℕ) (text : String) (value : ℚ)
    (h : Decimal.ofText (Text.strip text) = some (.finite value))
    (hv : value = percent / 100) (hp : percent ≤ 100) : Rate where
  text := text
  value := value
  parses := h
  nonneg := by rw [hv]; positivity
  le_one := by
    have hcast : (percent : ℚ) ≤ 100 := by exact_mod_cast hp
    rw [hv]
    linarith

def tenth : Rate := rate 10 "0.10" (1 / 10) (by decide +kernel) (by norm_num) (by norm_num)

def fifth : Rate := rate 20 "0.2" (1 / 5) (by decide +kernel) (by norm_num) (by norm_num)

/-- A tax on everything with a code of one letter. -/
def tax (code : Char) (rate : Rate) (inclusive : Bool) (after : Option Char) : TaxRuleSchema where
  code := String.singleton code
  name := "Tax"
  rate := rate
  inclusive := inclusive
  appliesTo := ["all"]
  compoundAfter := after.map String.singleton
  displayOnFolio := true
  active := true
  code_length := by simp
  name_length := by decide
  appliesTo_length := TaxRuleSchema.appliesTo_all
  compoundAfter_length := by
    intro c hc
    obtain ⟨a, -, rfl⟩ := Option.map_eq_some_iff.mp hc
    simp

end Demo

set_option maxRecDepth 100000 in
/-- A rule of another code may come after one that is not compound. -/
theorem one_line_each_iff_two : Unambiguous (selected "room_charge"
    ([Demo.tax 'v' Demo.tenth false none, Demo.tax 'c' Demo.fifth false (some 'v')].map
      TaxRuleSchema.rule)) := by
  obtain ⟨entries, hentries, hiff⟩ := @one_line_each_iff 100
    [Demo.tax 'v' Demo.tenth false none, Demo.tax 'c' Demo.fifth false (some 'v')] "room_charge"
    ⟨[⟨"v", "Tax", 10⟩, ⟨"c", "Tax", 22⟩], 100, 132⟩ (by decide +kernel)
  rw [hentries.rules] at hiff
  exact (hiff.mp (by decide +kernel)).2

set_option maxRecDepth 100000 in
/-- Two compound rules with one code: the second makes both lines. -/
theorem shared_code_twice :
    calculateTaxesFromRules 100 (storedTaxes [Demo.tax 'c' Demo.tenth false (some 'x'),
        Demo.tax 'c' Demo.fifth false (some 'x')]) "room_charge" =
      .ok ⟨[⟨"c", "Tax", 20⟩, ⟨"c", "Tax", 24⟩], 100, 144⟩ ∧
    ∃ entries, Accounts 100 ([Demo.tax 'c' Demo.tenth false (some 'x'),
        Demo.tax 'c' Demo.fifth false (some 'x')].map TaxRuleSchema.rule) "room_charge"
        ⟨[⟨"c", "Tax", 20⟩, ⟨"c", "Tax", 24⟩], 100, 144⟩ entries ∧
      ¬ (entries.map Prod.fst).Perm (applicable "room_charge"
        ([Demo.tax 'c' Demo.tenth false (some 'x'), Demo.tax 'c' Demo.fifth false (some 'x')].map
          TaxRuleSchema.rule)) := by
  have hrun : calculateTaxesFromRules 100 (storedTaxes [Demo.tax 'c' Demo.tenth false (some 'x'),
        Demo.tax 'c' Demo.fifth false (some 'x')]) "room_charge" =
      .ok ⟨[⟨"c", "Tax", 20⟩, ⟨"c", "Tax", 24⟩], 100, 144⟩ := by decide +kernel
  refine ⟨hrun, ?_⟩
  unfold calculateTaxesFromRules at hrun
  rw [parseRules_storedTaxes] at hrun
  obtain ⟨entries, hentries⟩ := exists_accounts hrun
  refine ⟨entries, hentries, ?_⟩
  rw [hentries.rules]
  decide +kernel

end OpenPms.Tax
