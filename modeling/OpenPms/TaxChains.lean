import OpenPms.TaxOrder
import Mathlib.Data.List.Chain

/-!
The order of the compound rules where no code is repeated. A pair stands as
`compound_after` asks if the chain starts at a compound rule that comes after no other rule
in use; where it starts at a rule that is not compound, the pair stays as it was listed. A
single chain of the first kind makes the result the same for every order of the rules.
-/
namespace OpenPms.Tax

open Decimals Toposort

/-- The second rule comes after the first. -/
def Follows (a b : Rule) : Prop := b.compoundAfter = .code a.key

theorem Follows.compound {a b : Rule} (h : Follows a b) : b.compound = true := by
  unfold Rule.compound
  rw [h]
  rfl

theorem Follows.dependency {a b : Rule} (h : Follows a b) : b.dependency = some a.key := by
  unfold Rule.dependency
  rw [h]

/-- Two entries of a list whose images are all different. -/
theorem pair_sublist_map {α β : Type} {f : α → β} {l : List α} (hnodup : (l.map f).Nodup)
    {a b : α} (ha : a ∈ l) (hb : b ∈ l) :
    [f a, f b].Sublist (l.map f) ↔ [a, b].Sublist l := by
  constructor
  · intro h
    obtain ⟨l', hl', heq⟩ := List.sublist_map_iff.mp h
    obtain ⟨a', b', rfl⟩ : ∃ a' b', l' = [a', b'] := by
      have hlen := congrArg List.length heq
      rw [List.length_map] at hlen
      exact List.length_eq_two.mp hlen.symm
    obtain ⟨hfa, hfb⟩ : f a = f a' ∧ f b = f b' := by simpa using heq
    have hinj := List.inj_on_of_nodup_map hnodup
    rwa [hinj ha (hl'.subset (by simp)) hfa, hinj hb (hl'.subset (by simp)) hfb]
  · exact fun h => h.map f

theorem eq_of_perm_short {α : Type} {l l' : List α} (h : l.Perm l') (hlen : l'.length ≤ 1) :
    l = l' := by
  cases l' with
  | nil => exact h.eq_nil
  | cons a rest =>
    have hrest : rest = [] := by
      rw [List.length_cons] at hlen
      exact List.length_eq_zero_iff.mp (by omega)
    rw [hrest] at h ⊢
    exact List.perm_singleton.mp h

section Distinct
variable {active : List Rule} (hkeys : (active.map Rule.key).Nodup)
include hkeys

theorem nodup_nodes : (nodes active).Nodup :=
  hkeys.sublist (List.filter_sublist.map Rule.key)

theorem codeToRule_self {r : Rule} (hr : r ∈ active) (hc : r.compound = true) :
    codeToRule (active.filter Rule.compound) r.key = some r := by
  have hmem : r ∈ active.filter Rule.compound := List.mem_filter.mpr ⟨hr, hc⟩
  obtain ⟨s, hs⟩ := codeToRule_of_mem (List.mem_map_of_mem hmem)
  obtain ⟨hmem', hkey⟩ := codeToRule_some hs
  rw [hs, List.inj_on_of_nodup_map hkeys (List.mem_of_mem_filter hmem') hr hkey]

theorem link_of_follows {a b : Rule} (ha : a ∈ active) (hb : b ∈ active) (h : Follows a b) :
    link active b.key = some a.key := by
  unfold link
  rw [codeToRule_self hkeys hb h.compound, Option.bind_some, h.dependency]
  exact Option.filter_some_pos (by simpa using ⟨a, ha, rfl⟩)

theorem compoundOrder_perm : (compoundOrder active).Perm (nodes active) := by
  refine (compoundOrder_subperm active).perm_of_length_le ?_
  refine (List.subperm_ext_iff.mpr fun c hc => ?_).length_le
  rw [count_compoundOrder hc]
  split
  · exact le_rfl
  · exact List.nodup_iff_count_le_one.mp (nodup_nodes hkeys) c

theorem nodup_compoundRules : ((compoundRules active).map Rule.key).Nodup := by
  rw [compoundRules_map_key]
  exact (compoundOrder_perm hkeys).nodup_iff.mpr (nodup_nodes hkeys)

theorem mem_compoundRules {r : Rule} (hr : r ∈ active) (hc : r.compound = true) :
    r ∈ compoundRules active := by
  refine List.mem_filterMap.mpr ⟨r.key, mem_compoundOrder.mpr ?_, codeToRule_self hkeys hr hc⟩
  exact mem_nodes.mpr ⟨r, hr, hc, rfl⟩

/-- How two rules stand of which the second comes after the first. -/
theorem pair_usedRules_iff {a b : Rule} (ha : a ∈ active) (hac : a.compound = true)
    (hb : b ∈ active) (h : Follows a b) :
    [a, b].Sublist (usedRules active) ↔
      Rooted (link active) (nodes active) a.key ∨ [a, b].Sublist active := by
  have hbc := h.compound
  have hfilter : [a, b].filter Rule.compound = [a, b] := by simp [hac, hbc]
  have hlisted : [a, b].Sublist (active.filter Rule.compound) ↔ [a, b].Sublist active :=
    ⟨fun hsub => hsub.trans List.filter_sublist, fun hsub => hfilter ▸ hsub.filter _⟩
  have hused : [a, b].Sublist (usedRules active) ↔ [a, b].Sublist (compoundRules active) := by
    constructor
    · intro hsub
      have hkept := hsub.filter Rule.compound
      have hplain : (active.filter fun r => !r.compound).filter Rule.compound = [] := by
        rw [List.filter_filter, List.filter_eq_nil_iff]
        simp
      rw [hfilter, usedRules, List.filter_append, hplain, List.nil_append] at hkept
      exact hkept.trans List.filter_sublist
    · exact fun hsub => hsub.trans (List.sublist_append_right _ _)
  have hcompound : ∀ r ∈ [a, b], r ∈ active.filter Rule.compound := by
    simp [ha, hac, hb, hbc]
  rw [hused, ← hlisted, ← pair_sublist_map (nodup_compoundRules hkeys)
    (mem_compoundRules hkeys ha hac) (mem_compoundRules hkeys hb hbc), compoundRules_map_key,
    ← pair_sublist_map (nodup_nodes hkeys) (hcompound a (by simp)) (hcompound b (by simp))]
  exact (queued_queueOrder active).pair_iff (nodup_nodes hkeys)
    (mem_nodes.mpr ⟨b, hb, hbc, rfl⟩) (link_of_follows hkeys ha hb h)

/-! A single chain -/

section Chain
variable {chain : List Rule} (hperm : chain.Perm (active.filter Rule.compound))
  (hchain : chain.IsChain Follows)
include hperm

omit hkeys in
theorem mem_of_chain {r : Rule} (hr : r ∈ chain) : r ∈ active ∧ r.compound = true :=
  List.mem_filter.mp (hperm.mem_iff.mp hr)

theorem compoundRules_perm_chain : (compoundRules active).Perm chain := by
  refine (List.perm_ext_iff_of_nodup ?_ ?_).mpr fun r => ⟨fun hr => ?_, fun hr => ?_⟩
  · exact (nodup_compoundRules hkeys).of_map
  · exact hperm.nodup_iff.mpr (hkeys.of_map.filter _)
  · exact hperm.mem_iff.mpr (List.mem_filter.mpr (of_mem_compoundRules hr))
  · obtain ⟨hr, hc⟩ := mem_of_chain hperm hr
    exact mem_compoundRules hkeys hr hc

include hchain

theorem chain_links : (chain.map Rule.key).IsChain fun a b => link active b = some a := by
  rw [List.isChain_map]
  refine List.IsChain.imp_of_mem_imp ?_ hchain
  intro a b ha hb h
  exact link_of_follows hkeys (mem_of_chain hperm ha).1 (mem_of_chain hperm hb).1 h

/-- The second loop goes through a chain from its start, if that comes after no rule in
use. -/
theorem compoundRules_eq_chain
    (hstart : ∀ r, chain.head? = some r → link active r.key = none) :
    compoundRules active = chain := by
  have hlinks := chain_links hkeys hperm hchain
  have h := queued_queueOrder active
  have hmem : ∀ c ∈ chain.map Rule.key, c ∈ nodes active := fun c hc =>
    (hperm.map Rule.key).mem_iff.mp hc
  have hall : ∀ c ∈ nodes active, Rooted (link active) (nodes active) c := by
    intro c hc
    have hin : c ∈ chain.map Rule.key := (hperm.map Rule.key).mem_iff.mpr hc
    cases chain with
    | nil => cases hin
    | cons k ks =>
      have hk := hmem k.key List.mem_cons_self
      exact rooted_of_chain (.free hk (hstart k rfl)) hlinks
        (fun c hc => hmem c (List.mem_cons_of_mem _ hc)) c hin
  have horder : compoundOrder active = queueOrder active := by
    obtain ⟨rest, heq, -, hrest⟩ := h.complete_eq
    have hnone : rest = [] := List.eq_nil_iff_forall_not_mem.mpr fun c hc =>
      ((hrest c).mp hc).2 (hall c ((hrest c).mp hc).1)
    rw [compoundOrder, heq, hnone, List.append_nil]
  have hkeysEq : compoundOrder active = chain.map Rule.key := by
    have hperm' : (compoundOrder active).Perm (chain.map Rule.key) :=
      (compoundOrder_perm hkeys).trans (hperm.map Rule.key).symm
    have hnodup := (compoundOrder_perm hkeys).nodup_iff.mpr (nodup_nodes hkeys)
    rw [horder] at hperm' hnodup ⊢
    have hbefore := h.before
    rw [← List.nil_append (queueOrder active)] at hnodup hbefore
    exact eq_chain hlinks hperm' hnodup hbefore
  unfold compoundRules
  rw [hkeysEq, List.filterMap_map]
  refine Eq.trans (List.filterMap_congr fun r hr => ?_) List.filterMap_some
  obtain ⟨hr, hc⟩ := mem_of_chain hperm hr
  exact codeToRule_self hkeys hr hc

end Chain

theorem link_key {r : Rule} (hr : r ∈ active) (hc : r.compound = true) :
    link active r.key = r.dependency.filter fun d => d ∈ active.map Rule.key := by
  unfold link
  rw [codeToRule_self hkeys hr hc, Option.bind_some]

theorem link_perm {active' : List Rule} (hperm : active'.Perm active) {r : Rule} (hr : r ∈ active)
    (hc : r.compound = true) : link active' r.key = link active r.key := by
  have hkeys' : (active'.map Rule.key).Nodup := (hperm.map Rule.key).nodup_iff.mpr hkeys
  rw [link_key hkeys hr hc, link_key hkeys' (hperm.mem_iff.mpr hr) hc]
  congr 1
  funext d
  exact decide_eq_decide.mpr (hperm.map Rule.key).mem_iff

/-- A chain of two or more is followed in whatever order the rules stand exactly if it
starts at a rule that comes after none in use. -/
theorem chain_order_iff {chain : List Rule} (hperm : chain.Perm (active.filter Rule.compound))
    (hchain : chain.IsChain Follows) :
    (∀ active', active'.Perm active → compoundRules active' = chain) ↔
      chain.length ≤ 1 ∨ ∀ r, chain.head? = some r → link active r.key = none := by
  constructor
  · intro horder
    by_contra hno
    rw [not_or, not_le] at hno
    obtain ⟨hlen, hstart⟩ := hno
    obtain ⟨a, b, rest, rfl⟩ : ∃ a b rest, chain = a :: b :: rest := by
      obtain ⟨a, chain, rfl⟩ := List.exists_cons_of_length_pos (Nat.zero_lt_of_lt hlen)
      obtain ⟨b, rest, rfl⟩ := List.exists_cons_of_length_pos (Nat.lt_of_succ_lt_succ hlen)
      exact ⟨a, b, rest, rfl⟩
    have hlinks := chain_links hkeys hperm hchain
    have ha := mem_of_chain hperm List.mem_cons_self
    have hb := mem_of_chain hperm (List.mem_cons_of_mem a List.mem_cons_self)
    have hab : Follows a b := (List.isChain_cons_cons.mp hchain).1
    -- no compound rule starts a chain
    have hlinked : ∀ c ∈ nodes active, link active c ≠ none := by
      intro c hc
      have hin : c ∈ (a :: b :: rest).map Rule.key := (hperm.map Rule.key).mem_iff.mpr hc
      rcases List.mem_cons.mp hin with rfl | hin
      · exact fun hnone => hstart fun r hr => Option.some.inj hr ▸ hnone
      · obtain ⟨d, -, hd⟩ := exists_pred_of_chain hlinks hin
        rw [hd]
        exact Option.some_ne_none d
    -- the second rule of the chain is listed first
    obtain ⟨l₁, l₂, hsplit⟩ := List.append_of_mem hb.1
    have hmoved : (b :: (l₁ ++ l₂)).Perm active := hsplit ▸ List.perm_middle.symm
    have hkeys' : ((b :: (l₁ ++ l₂)).map Rule.key).Nodup :=
      (hmoved.map Rule.key).nodup_iff.mpr hkeys
    have hlinked' : ∀ c ∈ nodes (b :: (l₁ ++ l₂)), link (b :: (l₁ ++ l₂)) c ≠ none := by
      intro c hc
      obtain ⟨r, hr, hrc, rfl⟩ := mem_nodes.mp hc
      have hr' := hmoved.mem_iff.mp hr
      rw [link_perm hkeys hmoved hr' hrc]
      exact hlinked _ (mem_nodes.mpr ⟨r, hr', hrc, rfl⟩)
    have hpair := (pair_usedRules_iff hkeys' (hmoved.mem_iff.mpr ha.1) ha.2
      List.mem_cons_self hab).mp ?_
    · rcases hpair with hroot | hsub
      · exact not_rooted hlinked' _ hroot
      · have hne : a ≠ b := by
          rintro rfl
          have hnodup := hperm.nodup_iff.mpr (hkeys.of_map.filter _)
          exact (List.nodup_cons.mp hnodup).1 List.mem_cons_self
        have htail : [a, b].Sublist (l₁ ++ l₂) := by
          cases hsub with
          | cons _ hsub => exact hsub
          | cons_cons => exact absurd rfl hne
        exact (List.nodup_cons.mp hkeys'.of_map).1 (htail.subset (by simp))
    · rw [usedRules, horder _ hmoved]
      exact ((List.nil_sublist rest).cons_cons b |>.cons_cons a).trans
        (List.sublist_append_right _ _)
  · intro hcond active' hmoved
    have hkeys' : (active'.map Rule.key).Nodup := (hmoved.map Rule.key).nodup_iff.mpr hkeys
    have hperm' : chain.Perm (active'.filter Rule.compound) :=
      hperm.trans (hmoved.symm.filter _)
    rcases hcond with hlen | hstart
    · exact eq_of_perm_short (compoundRules_perm_chain hkeys' hperm') hlen
    · have hstart' : ∀ r, chain.head? = some r → link active' r.key = none := by
        intro r hr
        obtain ⟨hr', hc⟩ := mem_of_chain hperm (List.mem_of_mem_head? hr)
        rw [link_perm hkeys hmoved hr' hc]
        exact hstart r hr
      exact compoundRules_eq_chain hkeys' hperm' hchain hstart'

end Distinct

/-! Results -/

/-- What the first loop adds to the base price. -/
def addedShares (basePrice : ℚ) (rules : List Rule) : List ℚ :=
  (rules.filter fun r => !r.inclusive).map (shareOf basePrice)

/-- The digits do not run out, in whatever order the shares are added. -/
def ExactSums (basePrice : ℚ) (shares : List ℚ) : Prop :=
  ∀ l : List ℚ, l.Subperm shares → result (basePrice + l.sum) = .ok (basePrice + l.sum)

/-- Whole cents add up exactly while they fit the digits. -/
theorem exactSums_of_whole {basePrice : ℚ} {shares : List ℚ} (hbase : Whole basePrice)
    (hshares : ∀ s ∈ shares, Whole s)
    (hsum : |basePrice| + (shares.map abs).sum ≤ 10 ^ 26) : ExactSums basePrice shares := by
  intro l hl
  have hwhole : Whole l.sum := by
    have hmem : ∀ s ∈ l, Whole s := fun s hs => hshares s (hl.subset hs)
    clear hl hsum hshares
    induction l with
    | nil => exact whole_zero
    | cons s l ih =>
      obtain ⟨hs, hmem⟩ := List.forall_mem_cons.mp hmem
      rw [List.sum_cons]
      exact hs.add (ih hmem)
  have habs : |l.sum| ≤ (shares.map abs).sum := by
    obtain ⟨l', hperm, hsub⟩ := hl
    rw [← hperm.sum_eq]
    clear hperm hwhole hsum hshares
    induction hsub with
    | slnil => simp
    | @cons l₁ l₂ a _ ih =>
      rw [List.map_cons, List.sum_cons]
      linarith [abs_nonneg a]
    | @cons_cons l₁ l₂ a _ ih =>
      rw [List.map_cons, List.sum_cons, List.sum_cons]
      linarith [abs_add_le a l₁.sum]
  refine result_whole (hbase.add hwhole) ?_
  linarith [abs_add_le basePrice l.sum]

section Plain
variable {basePrice : ℚ} {plain : List Rule}

/-- The entries of the first loop do not depend on the running total. -/
theorem entries_plain {x y : ℚ} {entries : List (Rule × ℚ)}
    (h : Walk (usedAmount basePrice) x entries y)
    (hplain : ∀ r ∈ entries.map Prod.fst, r.compound = false) :
    entries = (entries.map Prod.fst).map (fun r => (r, shareOf basePrice r)) ∧
      ∀ r ∈ entries.map Prod.fst, compoundAmount basePrice r = .ok (shareOf basePrice r) := by
  induction h with
  | nil => exact ⟨rfl, fun r hr => by cases hr⟩
  | @step x x' y a r entries ha hx _ ih =>
    obtain ⟨hr, hplain⟩ := List.forall_mem_cons.mp hplain
    obtain ⟨heq, hall⟩ := ih hplain
    have ha' : compoundAmount basePrice r = .ok a := by
      unfold usedAmount priceOf at ha
      rwa [hr, if_neg Bool.false_ne_true] at ha
    have hshare := shareOf_eq ha'
    refine ⟨?_, ?_⟩
    · rw [List.map_cons, List.map_cons, ← heq, hshare]
    · rw [List.map_cons, List.forall_mem_cons, hshare]
      exact ⟨ha', hall⟩

/-- With exact sums the first loop arrives at the price and all that was added. -/
theorem walk_plain {shares done : List ℚ} (hexact : ExactSums basePrice shares)
    (hplain : ∀ r ∈ plain, r.compound = false)
    (hall : ∀ r ∈ plain, compoundAmount basePrice r = .ok (shareOf basePrice r))
    (hsub : (done ++ addedShares basePrice plain).Subperm shares) :
    Walk (usedAmount basePrice) (basePrice + done.sum)
      (plain.map fun r => (r, shareOf basePrice r))
      (basePrice + (done ++ addedShares basePrice plain).sum) := by
  induction plain generalizing done with
  | nil =>
    rw [show addedShares basePrice [] = [] from rfl, List.append_nil]
    exact .nil _
  | cons r rest ih =>
    obtain ⟨hr, hplain⟩ := List.forall_mem_cons.mp hplain
    obtain ⟨ha, hall⟩ := List.forall_mem_cons.mp hall
    have hamount (x : ℚ) : usedAmount basePrice x r = .ok (shareOf basePrice r) := by
      unfold usedAmount priceOf
      rwa [hr, if_neg Bool.false_ne_true]
    cases hinc : r.inclusive with
    | true =>
      have hsame : addedShares basePrice (r :: rest) = addedShares basePrice rest := by
        unfold addedShares
        rw [List.filter_cons_of_neg (by simp [hinc])]
      rw [hsame] at hsub ⊢
      refine .step (hamount _) ?_ (ih hplain hall hsub)
      unfold runningAfter
      rw [if_pos hinc]
    | false =>
      have hmore : done ++ addedShares basePrice (r :: rest) =
          done ++ [shareOf basePrice r] ++ addedShares basePrice rest := by
        unfold addedShares
        rw [List.filter_cons_of_pos (by simp [hinc]), List.map_cons, List.append_assoc,
          List.singleton_append]
      rw [hmore] at hsub ⊢
      have hnext : (done ++ [shareOf basePrice r]).Subperm shares :=
        (List.sublist_append_left _ _).subperm.trans hsub
      have hsum : basePrice + done.sum + shareOf basePrice r =
          basePrice + (done ++ [shareOf basePrice r]).sum := by
        rw [List.sum_append, List.sum_singleton]
        ring
      refine .step (hamount _) ?_ (ih hplain hall hsub)
      unfold runningAfter plus
      rw [if_neg (by simp [hinc]), hsum]
      exact hexact _ hnext

/-- A walk over given rules arrives at one total. -/
theorem Walk.unique {amount : ℚ → Rule → Except Signal ℚ} {x y z : ℚ}
    {entries entries' : List (Rule × ℚ)} (h : Walk amount x entries y)
    (h' : Walk amount x entries' z) (hrules : entries.map Prod.fst = entries'.map Prod.fst) :
    entries = entries' ∧ y = z := by
  induction h generalizing entries' with
  | nil =>
    obtain rfl := List.map_eq_nil_iff.mp hrules.symm
    cases h'
    exact ⟨rfl, rfl⟩
  | @step _ _ _ a r entries ha hx _ ih =>
    cases h' with
    | nil => cases hrules
    | step ha' hx' rest' =>
      obtain ⟨rfl, htail⟩ := List.cons.inj hrules
      obtain rfl := Except.ok.inj (ha.symm.trans ha')
      obtain rfl := Except.ok.inj (hx.symm.trans hx')
      obtain ⟨rfl, rfl⟩ := ih rest' htail
      exact ⟨rfl, rfl⟩

end Plain

/-- With exact sums, rules in another order whose second loop is the same make the same
lines and the same total. -/
theorem calculateTaxes_perm {basePrice : ℚ} {rules rules' : List Rule} {category : String}
    {c : TaxCalculation} (h : calculateTaxes basePrice rules category = .ok c)
    (hperm : rules'.Perm rules)
    (hsame : compoundRules (selected category rules') = compoundRules (selected category rules))
    (hexact : ExactSums basePrice
      (addedShares basePrice ((selected category rules).filter fun r => !r.compound))) :
    ∃ c', calculateTaxes basePrice rules' category = .ok c' ∧ c'.lines.Perm c.lines ∧
      c'.totalWithTaxes = c.totalWithTaxes := by
  obtain ⟨hnan, entries, final, hrules, hwalk, htotal, hlines, hsub⟩ := calculateTaxes_ok.mp h
  obtain ⟨first, second, rfl, hfirst, hsecond⟩ := List.map_eq_append_iff.mp hrules
  obtain ⟨running, hwalk, hwalk'⟩ := hwalk.split
  have hsel : (selected category rules').Perm (selected category rules) := hperm.filter _
  have hplainPerm := hsel.filter fun r => !r.compound
  have hplain : ∀ r ∈ first.map Prod.fst, r.compound = false := by
    intro r hr
    rw [hfirst] at hr
    simpa using (List.mem_filter.mp hr).2
  obtain ⟨hentries, hall⟩ := entries_plain hwalk hplain
  rw [hfirst] at hentries hall hplain
  -- both orders of the first loop arrive at the same total
  have hfrom : basePrice + ([] : List ℚ).sum = basePrice := by rw [List.sum_nil, add_zero]
  have hthis := @walk_plain _ _ _ [] hexact hplain hall (List.Subperm.refl _)
  have hadded : (addedShares basePrice ((selected category rules').filter fun r => !r.compound)).Perm
      (addedShares basePrice ((selected category rules).filter fun r => !r.compound)) :=
    (hplainPerm.filter _).map _
  have hthat := @walk_plain _ ((selected category rules').filter fun r => !r.compound) _ []
    hexact (fun r hr => hplain r (hplainPerm.mem_iff.mp hr))
    (fun r hr => hall r (hplainPerm.mem_iff.mp hr)) hadded.subperm
  rw [hfrom, List.nil_append] at hthis hthat
  obtain ⟨-, hrunning⟩ := hwalk.unique hthis (by rw [hfirst, List.map_map]; exact (List.map_id _).symm)
  rw [hadded.sum_eq, ← hrunning] at hthat
  have hnew : (((selected category rules').filter fun r => !r.compound).map
      (fun r => (r, shareOf basePrice r)) ++ second).Perm (first ++ second) := by
    rw [hentries]
    exact (hplainPerm.map _).append_right second
  have hused : (((selected category rules').filter fun r => !r.compound).map
      (fun r => (r, shareOf basePrice r)) ++ second).map Prod.fst =
        usedRules (selected category rules') := by
    rw [List.map_append, hsecond, ← hsame, List.map_map]
    exact congrArg (· ++ _) (List.map_id _)
  refine ⟨⟨(((selected category rules').filter fun r => !r.compound).map
    (fun r => (r, shareOf basePrice r)) ++ second).map (lineOf lineCode), basePrice,
    c.totalWithTaxes⟩, ?_, ?_, rfl⟩
  · refine calculateTaxes_ok.mpr ⟨fun r hr => hnan r (hsel.mem_iff.mp hr), _, final, hused, ?_,
      htotal, rfl, rfl⟩
    exact hthat.append hwalk'
  · rw [hlines]
    exact hnew.map _

/-- What a list is mapped to can be put in any order by putting the list in one. -/
theorem exists_perm_filterMap {α β : Type} {f : α → Option β} {l : List α} {p : List β}
    (h : p.Perm (l.filterMap f)) : ∃ l' : List α, l'.Perm l ∧ l'.filterMap f = p := by
  induction p generalizing l with
  | nil => exact ⟨l, .refl l, h.symm.eq_nil⟩
  | cons x p ih =>
    obtain ⟨y, hy, hfy⟩ := List.mem_filterMap.mp (h.mem_iff.mp List.mem_cons_self)
    obtain ⟨l₁, l₂, rfl⟩ := List.append_of_mem hy
    have hmoved : ((l₁ ++ y :: l₂).filterMap f).Perm (x :: (l₁ ++ l₂).filterMap f) := by
      rw [← List.filterMap_cons_some hfy]
      exact List.perm_middle.filterMap f
    obtain ⟨l', hl', rfl⟩ := ih (h.trans hmoved).cons_inv
    exact ⟨y :: l', (hl'.cons y).trans List.perm_middle.symm, List.filterMap_cons_some hfy⟩

/-- Where no two rules in use share a code: of two compound rules that follow each other,
the first is computed first exactly if its chain starts at a compound rule that comes after
no rule in use, or it is listed first. The rules of a single chain are computed in its
order however they are listed exactly if it is so for its start, or it is no longer than
one; then every order makes the same lines and the same total. -/
theorem compound_order_iff {basePrice : ℚ} {items : List Json} {category : String}
    {c : TaxCalculation} {active : List Rule}
    (h : calculateTaxesFromRules basePrice (.arr items) category = .ok c)
    (hactive : active = selected category (parseRules (.arr items)))
    (hkeys : (active.map Rule.key).Nodup) :
    (∃ entries, Accounts basePrice (parseRules (.arr items)) category c entries ∧
      ∀ a ∈ active, ∀ b ∈ active, a.compound = true → Follows a b →
        ([a, b].Sublist (entries.map Prod.fst) ↔
          Rooted (link active) (nodes active) a.key ∨ [a, b].Sublist active)) ∧
    ∀ chain, chain.Perm (active.filter Rule.compound) → chain.IsChain Follows →
      ((∀ items', items'.Perm items →
          compoundRules (selected category (parseRules (.arr items'))) = chain) ↔
        chain.length ≤ 1 ∨ ∀ r, chain.head? = some r → link active r.key = none) ∧
      ((chain.length ≤ 1 ∨ ∀ r, chain.head? = some r → link active r.key = none) →
        ExactSums basePrice (addedShares basePrice (active.filter fun r => !r.compound)) →
        ∀ items', items'.Perm items → ∃ c',
          calculateTaxesFromRules basePrice (.arr items') category = .ok c' ∧
            c'.lines.Perm c.lines ∧ c'.totalWithTaxes = c.totalWithTaxes) := by
  have hparsed {items' : List Json} (hperm : items'.Perm items) :
      (parseRules (.arr items')).Perm (parseRules (.arr items)) := hperm.filterMap ruleOf
  have hselected {items' : List Json} (hperm : items'.Perm items) :
      (selected category (parseRules (.arr items'))).Perm active :=
    hactive ▸ (hparsed hperm).filter _
  refine ⟨?_, fun chain hchain hfollows => ⟨?_, fun hstart hexact items' hperm => ?_⟩⟩
  · obtain ⟨entries, hentries⟩ := exists_accounts h
    refine ⟨entries, hentries, fun a ha b hb hac hab => ?_⟩
    rw [hentries.rules, ← hactive]
    exact pair_usedRules_iff hkeys ha hac hb hab
  · rw [← chain_order_iff hkeys hchain hfollows]
    constructor
    · intro horder active' hmoved
      have hfrom : active'.Perm (items.filterMap fun item =>
          (ruleOf item).filter (Rule.eligible category)) := by
        rw [hactive, selected, parseRules, List.filter_filterMap] at hmoved
        exact hmoved
      obtain ⟨items', hitems, rfl⟩ := exists_perm_filterMap hfrom
      have hthis := horder items' hitems
      rwa [selected, parseRules, List.filter_filterMap] at hthis
    · exact fun horder items' hperm => horder _ (hselected hperm)
  · have horder := (chain_order_iff hkeys hchain hfollows).mpr hstart
    refine calculateTaxes_perm h (hparsed hperm) ?_ (hactive ▸ hexact)
    rw [horder _ (hselected hperm), ← hactive, horder _ (.refl active)]

namespace Demo

/-- A plain tax, and a chain of two listed from its end. -/
def chained : List TaxRuleSchema :=
  [tax 'v' tenth false none, tax 'b' tenth false (some 'a'), tax 'a' fifth false (some 'x')]

/-- The same where the chain starts at the plain tax. -/
def anchored : List TaxRuleSchema :=
  [tax 'v' tenth false none, tax 'b' tenth false (some 'a'), tax 'a' fifth false (some 'v')]

end Demo

set_option maxRecDepth 100000 in
theorem compound_order_iff_chained :
    compoundRules (selected "room_charge" (parseRules (storedTaxes Demo.chained))) =
        [(Demo.tax 'a' Demo.fifth false (some 'x')).rule,
          (Demo.tax 'b' Demo.tenth false (some 'a')).rule] ∧
      ∀ items', items'.Perm (Demo.chained.map TaxRuleSchema.dump) → ∃ c',
        calculateTaxesFromRules 100 (.arr items') "room_charge" = .ok c' ∧
          c'.totalWithTaxes = 726 / 5 := by
  have h := @compound_order_iff 100 (Demo.chained.map TaxRuleSchema.dump) "room_charge"
    ⟨[⟨"v", "Tax", 10⟩, ⟨"a", "Tax", 22⟩, ⟨"b", "Tax", 66 / 5⟩], 100, 726 / 5⟩ _
    (by decide +kernel) rfl (by decide)
  obtain ⟨horder, hsame⟩ := h.2 [(Demo.tax 'a' Demo.fifth false (some 'x')).rule,
    (Demo.tax 'b' Demo.tenth false (some 'a')).rule] (by decide +kernel)
    (List.isChain_pair.mpr (show _ = _ by decide))
  have hstart : ∀ r, [(Demo.tax 'a' Demo.fifth false (some 'x')).rule,
      (Demo.tax 'b' Demo.tenth false (some 'a')).rule].head? = some r →
      link (selected "room_charge" (parseRules (.arr (Demo.chained.map TaxRuleSchema.dump))))
        r.key = none := by
    intro r hr
    obtain rfl := Option.some.inj hr
    decide
  have hshares : addedShares 100 ((selected "room_charge" (parseRules
      (.arr (Demo.chained.map TaxRuleSchema.dump)))).filter fun r => !r.compound) = [10] := by
    decide +kernel
  have hexact : ExactSums 100 [10] :=
    exactSums_of_whole ⟨10000, by norm_num⟩ (by simpa using ⟨1000, by norm_num⟩) (by norm_num)
  refine ⟨horder.mpr (.inr hstart) _ (.refl _), fun items' hperm => ?_⟩
  obtain ⟨c', hc, -, htotal⟩ := hsame (.inr hstart) (hshares ▸ hexact) items' hperm
  exact ⟨c', hc, htotal⟩

set_option maxRecDepth 100000 in
/-- The rule `b` comes after `a`, but is computed before it where it is listed first. -/
theorem anchored_chain_as_listed :
    Follows (Demo.tax 'a' Demo.fifth false (some 'v')).rule
        (Demo.tax 'b' Demo.tenth false (some 'a')).rule ∧
      calculateTaxesFromRules 100 (storedTaxes Demo.anchored) "room_charge" =
        .ok ⟨[⟨"v", "Tax", 10⟩, ⟨"b", "Tax", 11⟩, ⟨"a", "Tax", 121 / 5⟩], 100, 726 / 5⟩ ∧
      calculateTaxesFromRules 100 (storedTaxes Demo.anchored.reverse) "room_charge" =
        .ok ⟨[⟨"v", "Tax", 10⟩, ⟨"a", "Tax", 22⟩, ⟨"b", "Tax", 66 / 5⟩], 100, 726 / 5⟩ :=
  ⟨show _ = _ by decide, by decide +kernel, by decide +kernel⟩

end OpenPms.Tax
