import Mathlib.Data.List.Count
import Mathlib.Data.List.Infix
import Mathlib.Data.List.Nodup
import Mathlib.Data.List.Perm.Subperm
import Mathlib.Algebra.Group.Int.Defs

/-!
Kahn's algorithm where every node follows at most one other. The nodes come from a list
that may repeat them. Those whose chain starts at a node that follows nothing are put in
order, each after the one that it follows; the others are appended as they come.
-/
namespace Toposort

variable {α : Type} [DecidableEq α]

/-- One edge of each node in the list is removed; returns those that are free now. -/
def release : List α → (α → ℤ) → List α × (α → ℤ)
  | [], indeg => ([], indeg)
  | m :: rest, indeg =>
    let indeg := Function.update indeg m (indeg m - 1)
    let (freed, left) := release rest indeg
    (if indeg m = 0 then m :: freed else freed, left)

/-- The nodes in the order in which they leave the queue. -/
def drain (succ : α → List α) : ℕ → List α → (α → ℤ) → List α
  | 0, _, _ => []
  | _ + 1, [], _ => []
  | fuel + 1, n :: queue, indeg =>
    let (freed, indeg) := release (succ n) indeg
    n :: drain succ fuel (queue ++ freed) indeg

/-- Each node that is not there yet is appended. -/
def appendMissing (ordered : List α) : List α → List α
  | [] => ordered
  | n :: rest =>
    if n ∈ ordered then appendMissing ordered rest else appendMissing (ordered ++ [n]) rest

/-- The nodes in order; where that is not all of them, the others after it. -/
def complete (ordered nodes : List α) : List α :=
  if ordered.length ≠ nodes.length then appendMissing ordered nodes else ordered

/-! Releasing -/

theorem release_of_nodup {l : List α} (h : l.Nodup) (indeg : α → ℤ) :
    release l indeg =
      (l.filter fun x => indeg x = 1, fun x => if x ∈ l then indeg x - 1 else indeg x) := by
  induction l generalizing indeg with
  | nil => simp [release]
  | cons m rest ih =>
    obtain ⟨hm, hrest⟩ := List.nodup_cons.mp h
    have hfilter : (rest.filter fun x => Function.update indeg m (indeg m - 1) x = 1) =
        rest.filter fun x => indeg x = 1 := by
      refine List.filter_congr fun x hx => ?_
      have hne : x ≠ m := fun heq => hm (heq ▸ hx)
      rw [Function.update_of_ne hne]
    have hleft : (fun x => if x ∈ rest then Function.update indeg m (indeg m - 1) x - 1
        else Function.update indeg m (indeg m - 1) x) =
        fun x => if x ∈ m :: rest then indeg x - 1 else indeg x := by
      funext x
      by_cases hxm : x = m
      · subst hxm
        simp [hm]
      · simp [hxm]
    simp only [release, ih hrest, hfilter, hleft, Function.update_self]
    by_cases hone : indeg m = 1
    · rw [if_pos (by omega), List.filter_cons_of_pos (by simpa using hone)]
    · rw [if_neg (by omega), List.filter_cons_of_neg (by simpa using hone)]

/-! The queue -/

/-- `succ d` lists the nodes that follow `d`. -/
structure Successors (link : α → Option α) (nodes : List α) (succ : α → List α) : Prop where
  nodup : ∀ d, (succ d).Nodup
  mem : ∀ c d, c ∈ succ d ↔ c ∈ nodes ∧ link c = some d

/-- `seq` consists of the nodes that have left the queue, which are `done`, and of those
that are in it. -/
structure Queued (link : α → Option α) (nodes done seq : List α) : Prop where
  free : ∀ c ∈ nodes, link c = none → seq.count c = nodes.count c
  linked : ∀ c ∈ nodes, ∀ d, link c = some d → seq.count c = if d ∈ done then 1 else 0
  within : ∀ c ∈ seq, c ∈ nodes
  before : ∀ l₁ c l₂, seq = l₁ ++ c :: l₂ → ∀ d, link c = some d → d ∈ l₁

/-- What the in-degrees count. -/
def InDegrees (link : α → Option α) (nodes done : List α) (indeg : α → ℤ) : Prop :=
  ∀ c ∈ nodes, ∀ d, link c = some d → indeg c = 1 - done.count d

section Queue
variable {link : α → Option α} {nodes done queue : List α} {succ : α → List α} {indeg : α → ℤ}

theorem Queued.length_le {seq : List α} (h : Queued link nodes done seq) :
    seq.length ≤ nodes.length := by
  refine (List.subperm_ext_iff.mpr fun c hc => ?_).length_le
  have hmem := h.within c hc
  cases hlink : link c with
  | none => exact (h.free c hmem hlink).le
  | some d =>
    have hpos := List.count_pos_iff.mpr hmem
    rw [h.linked c hmem d hlink]
    split <;> omega

/-- A node leaves the queue, and those that it frees enter. -/
theorem Queued.next {n : α} (hs : Successors link nodes succ)
    (h : Queued link nodes done (done ++ n :: queue)) (hi : InDegrees link nodes done indeg) :
    Queued link nodes (done ++ [n])
        (done ++ [n] ++ (queue ++ (succ n).filter fun x => indeg x = 1)) ∧
      InDegrees link nodes (done ++ [n]) fun x => if x ∈ succ n then indeg x - 1 else indeg x := by
  have hseq : done ++ [n] ++ (queue ++ (succ n).filter fun x => indeg x = 1) =
      done ++ n :: queue ++ (succ n).filter fun x => indeg x = 1 := by simp
  rw [hseq]
  have hfreed : ∀ c ∈ nodes, ∀ d, link c = some d →
      ((succ n).filter fun x => indeg x = 1).count c = if d = n ∧ d ∉ done then 1 else 0 := by
    intro c hc d hlink
    have hone : indeg c = 1 ↔ d ∉ done := by
      rw [hi c hc d hlink, ← List.count_eq_zero (a := d)]
      omega
    have hsucc : c ∈ succ n ↔ d = n := by
      rw [hs.mem, hlink, Option.some.injEq]
      exact ⟨fun h => h.2, fun h => ⟨hc, h⟩⟩
    split
    · next hd =>
      have hmem : c ∈ (succ n).filter fun x => indeg x = 1 :=
        List.mem_filter.mpr ⟨hsucc.mpr hd.1, decide_eq_true (hone.mpr hd.2)⟩
      exact List.count_eq_one_of_mem ((hs.nodup n).filter _) hmem
    · next hd =>
      refine List.count_eq_zero.mpr fun hmem => hd ?_
      obtain ⟨hmem, hdeg⟩ := List.mem_filter.mp hmem
      exact ⟨hsucc.mp hmem, hone.mp (of_decide_eq_true hdeg)⟩
  have hfollows : ∀ c ∈ (succ n).filter fun x => indeg x = 1, c ∈ nodes ∧ link c = some n :=
    fun c hc => (hs.mem c n).mp (List.mem_of_mem_filter hc)
  refine ⟨⟨?_, ?_, ?_, ?_⟩, ?_⟩
  · intro c hc hlink
    have hzero : ((succ n).filter fun x => indeg x = 1).count c = 0 := by
      refine List.count_eq_zero.mpr fun hmem => ?_
      rw [(hfollows c hmem).2] at hlink
      cases hlink
    rw [List.count_append, h.free c hc hlink, hzero, Nat.add_zero]
  · intro c hc d hlink
    rw [List.count_append, h.linked c hc d hlink, hfreed c hc d hlink]
    rcases Decidable.em (d ∈ done) with hd | hd
    · rw [if_pos hd, if_neg fun h => h.2 hd, if_pos (List.mem_append_left _ hd)]
    · rcases Decidable.em (d = n) with hdn | hdn
      · rw [if_neg hd, if_pos ⟨hdn, hd⟩, if_pos (by simp [hdn])]
      · rw [if_neg hd, if_neg fun h => hdn h.1, if_neg (by simp [hd, hdn])]
  · intro c hc
    rcases List.mem_append.mp hc with hold | hnew
    · exact h.within c hold
    · exact (hfollows c hnew).1
  · intro l₁ c l₂ hsplit d hlink
    rcases List.append_eq_append_iff.mp hsplit with ⟨more, hl₁, hnew⟩ | ⟨more, hold, hnew⟩
    · -- the node is one of those that enter
      have hmem : c ∈ (succ n).filter fun x => indeg x = 1 := by
        rw [hnew]
        exact List.mem_append_right _ List.mem_cons_self
      have hd : n = d := Option.some.inj ((hfollows c hmem).2.symm.trans hlink)
      rw [hl₁, ← hd]
      exact List.mem_append_left _ (List.mem_append_right _ List.mem_cons_self)
    · cases more with
      | nil =>
        have hmem : c ∈ (succ n).filter fun x => indeg x = 1 := by
          rw [← List.nil_append (List.filter _ _), ← hnew]
          exact List.mem_cons_self
        have hd : n = d := Option.some.inj ((hfollows c hmem).2.symm.trans hlink)
        rw [List.append_nil] at hold
        rw [← hold, ← hd]
        exact List.mem_append_right _ List.mem_cons_self
      | cons x more =>
        obtain ⟨rfl, -⟩ := List.cons.inj hnew
        exact h.before l₁ c more hold d hlink
  · intro c hc d hlink
    have hsucc : c ∈ succ n ↔ d = n := by
      rw [hs.mem, hlink, Option.some.injEq]
      exact ⟨fun h => h.2, fun h => ⟨hc, h⟩⟩
    have hdeg := hi c hc d hlink
    rw [List.count_append, List.count_singleton]
    change (if c ∈ succ n then indeg c - 1 else indeg c) = _
    by_cases hdn : d = n
    · rw [if_pos (hsucc.mpr hdn), hdeg, if_pos (by simp [hdn])]
      push_cast
      omega
    · rw [if_neg fun h => hdn (hsucc.mp h), hdeg, if_neg (by simpa using fun h => hdn h.symm)]
      push_cast
      omega

/-- At first the free nodes are in the queue, in any order. -/
theorem queued_start (hq : queue.Perm (nodes.filter fun c => link c = none)) :
    Queued link nodes [] ([] ++ queue) := by
  have hmem : ∀ c ∈ queue, c ∈ nodes ∧ link c = none := by
    intro c hc
    obtain ⟨hnode, hlink⟩ := List.mem_filter.mp (hq.mem_iff.mp hc)
    exact ⟨hnode, of_decide_eq_true hlink⟩
  rw [List.nil_append]
  refine ⟨?_, ?_, fun c hc => (hmem c hc).1, ?_⟩
  · intro c _ hlink
    rw [hq.count_eq]
    exact List.count_filter (by simpa using hlink)
  · intro c _ d hlink
    rw [if_neg List.not_mem_nil]
    refine List.count_eq_zero.mpr fun hc => ?_
    rw [(hmem c hc).2] at hlink
    cases hlink
  · intro l₁ c l₂ hsplit d hlink
    have hc : c ∈ queue := hsplit ▸ List.mem_append_right _ List.mem_cons_self
    rw [(hmem c hc).2] at hlink
    cases hlink

/-- As many turns as there are nodes empty the queue. -/
theorem Queued.drain (hs : Successors link nodes succ) (fuel : ℕ)
    (h : Queued link nodes done (done ++ queue)) (hi : InDegrees link nodes done indeg)
    (hfuel : nodes.length ≤ done.length + fuel) :
    Queued link nodes (done ++ drain succ fuel queue indeg)
      (done ++ Toposort.drain succ fuel queue indeg) := by
  induction fuel generalizing done queue indeg with
  | zero =>
    have hlen := h.length_le
    rw [List.length_append] at hlen
    have hempty : queue = [] := List.length_eq_zero_iff.mp (by omega)
    rw [hempty, List.append_nil] at h
    rwa [Toposort.drain, List.append_nil]
  | succ fuel ih =>
    cases queue with
    | nil =>
      rw [Toposort.drain, List.append_nil]
      rwa [List.append_nil] at h
    | cons n queue =>
      obtain ⟨hnext, hcounts⟩ := h.next hs hi
      have hrun := ih hnext hcounts (by rw [List.length_append, List.length_singleton]; omega)
      rw [Toposort.drain, release_of_nodup (hs.nodup n)]
      rwa [List.append_assoc, List.singleton_append] at hrun

end Queue

/-! What is in order -/

/-- A node whose chain starts at one that follows nothing. -/
inductive Rooted (link : α → Option α) (nodes : List α) : α → Prop
  | free {c : α} (hc : c ∈ nodes) (hlink : link c = none) : Rooted link nodes c
  | follows {c d : α} (hc : c ∈ nodes) (hlink : link c = some d) (hd : Rooted link nodes d) :
    Rooted link nodes c

section Ordered
variable {link : α → Option α} {nodes ordered : List α}

omit [DecidableEq α] in
theorem Rooted.mem {c : α} (h : Rooted link nodes c) : c ∈ nodes := by
  cases h with
  | free hc _ => exact hc
  | follows hc _ _ => exact hc

omit [DecidableEq α] in
theorem Rooted.of_link {c d : α} (h : Rooted link nodes c) (hlink : link c = some d) :
    Rooted link nodes d := by
  cases h with
  | free _ hnone =>
    rw [hnone] at hlink
    cases hlink
  | follows _ hsome hd =>
    rw [hsome] at hlink
    exact Option.some.inj hlink ▸ hd

/-- The nodes in order are those with a root. -/
theorem Queued.mem_iff (h : Queued link nodes ordered ordered) (c : α) :
    c ∈ ordered ↔ Rooted link nodes c := by
  constructor
  · intro hc
    obtain ⟨l₁, l₂, hsplit⟩ := List.append_of_mem hc
    -- the node that it follows stands further left
    generalize hlen : l₁.length = n
    induction n using Nat.strong_induction_on generalizing c l₁ l₂ with
    | _ n ih =>
      have hnode := h.within c hc
      cases hlink : link c with
      | none => exact .free hnode hlink
      | some d =>
        have hd := h.before l₁ c l₂ hsplit d hlink
        obtain ⟨k₁, k₂, rfl⟩ := List.append_of_mem hd
        have hsplit' : ordered = k₁ ++ d :: (k₂ ++ c :: l₂) := by rw [hsplit]; simp
        have hmem : d ∈ ordered := by
          rw [hsplit']
          exact List.mem_append_right _ List.mem_cons_self
        rw [List.length_append, List.length_cons] at hlen
        exact .follows hnode hlink (ih k₁.length (by omega) d hmem k₁ _ hsplit' rfl)
  · intro hroot
    induction hroot with
    | free hc hlink =>
      rw [← List.count_pos_iff, h.free _ hc hlink]
      exact List.count_pos_iff.mpr hc
    | follows hc hlink _ ih =>
      rw [← List.count_pos_iff, h.linked _ hc _ hlink, if_pos ih]
      exact Nat.one_pos

theorem appendMissing_eq (nodes : List α) :
    ∃ rest, appendMissing ordered nodes = ordered ++ rest ∧ rest.Nodup ∧
      ∀ c, c ∈ rest ↔ c ∈ nodes ∧ c ∉ ordered := by
  induction nodes generalizing ordered with
  | nil => exact ⟨[], by rw [appendMissing, List.append_nil], List.nodup_nil, by simp⟩
  | cons n nodes ih =>
    by_cases hn : n ∈ ordered
    · obtain ⟨rest, heq, hnodup, hmem⟩ := @ih ordered
      refine ⟨rest, by rw [appendMissing, if_pos hn, heq], hnodup, fun c => ?_⟩
      rw [hmem, List.mem_cons]
      constructor
      · exact fun ⟨hc, ho⟩ => ⟨.inr hc, ho⟩
      · rintro ⟨rfl | hc, ho⟩
        · exact absurd hn ho
        · exact ⟨hc, ho⟩
    · obtain ⟨rest, heq, hnodup, hmem⟩ := @ih (ordered ++ [n])
      refine ⟨n :: rest, ?_, ?_, fun c => ?_⟩
      · rw [appendMissing, if_neg hn, heq, List.append_assoc, List.singleton_append]
      · refine List.nodup_cons.mpr ⟨fun hin => ?_, hnodup⟩
        exact ((hmem n).mp hin).2 (List.mem_append_right _ List.mem_cons_self)
      · rw [List.mem_cons, List.mem_cons, hmem, List.mem_append, List.mem_singleton]
        by_cases hcn : c = n
        · simp [hcn, hn]
        · simp [hcn]

/-- Of nodes that are all different, the missing ones keep their order. -/
theorem appendMissing_of_nodup (hnodup : nodes.Nodup) :
    appendMissing ordered nodes = ordered ++ nodes.filter (· ∉ ordered) := by
  induction nodes generalizing ordered with
  | nil => rw [appendMissing, List.filter_nil, List.append_nil]
  | cons n nodes ih =>
    obtain ⟨hn, hrest⟩ := List.nodup_cons.mp hnodup
    by_cases hin : n ∈ ordered
    · rw [appendMissing, if_pos hin, ih hrest, List.filter_cons_of_neg (by simpa using hin)]
    · have hsame : nodes.filter (· ∉ ordered ++ [n]) = nodes.filter (· ∉ ordered) := by
        refine List.filter_congr fun x hx => ?_
        have hne : x ≠ n := fun heq => hn (heq ▸ hx)
        simp [hne]
      rw [appendMissing, if_neg hin, ih hrest, hsame, List.filter_cons_of_pos (by simpa using hin),
        List.append_assoc, List.singleton_append]

/-- Where the lengths agree, no node is missing. -/
theorem Queued.missing_nil (h : Queued link nodes ordered ordered)
    (hlen : ordered.length = nodes.length) {c : α} (hc : c ∈ nodes) : c ∈ ordered := by
  have hperm : ordered.Perm nodes := by
    refine (List.subperm_ext_iff.mpr fun c hc => ?_).perm_of_length_le hlen.ge
    have hmem := h.within c hc
    cases hlink : link c with
    | none => exact (h.free c hmem hlink).le
    | some d =>
      have hpos := List.count_pos_iff.mpr hmem
      rw [h.linked c hmem d hlink]
      split <;> omega
  exact hperm.mem_iff.mpr hc

theorem Queued.complete_eq (h : Queued link nodes ordered ordered) :
    ∃ rest, complete ordered nodes = ordered ++ rest ∧ rest.Nodup ∧
      ∀ c, c ∈ rest ↔ c ∈ nodes ∧ ¬ Rooted link nodes c := by
  simp only [← h.mem_iff]
  unfold complete
  split
  · exact appendMissing_eq nodes
  · next hlen =>
    refine ⟨[], (List.append_nil _).symm, List.nodup_nil, fun c => ?_⟩
    simpa using fun hc => h.missing_nil (not_not.mp hlen) hc

/-- Of nodes that are all different, those without a root keep their order. -/
theorem Queued.complete_of_nodup (h : Queued link nodes ordered ordered)
    (hnodup : nodes.Nodup) : complete ordered nodes = ordered ++ nodes.filter (· ∉ ordered) := by
  unfold complete
  split
  · exact appendMissing_of_nodup hnodup
  · next hlen =>
    have hnone : nodes.filter (· ∉ ordered) = [] := by
      refine List.filter_eq_nil_iff.mpr fun c hc => ?_
      simpa using h.missing_nil (not_not.mp hlen) hc
    rw [hnone, List.append_nil]

/-- A node that follows nothing stands there as often as it was given, any other once. -/
theorem Queued.count_complete (h : Queued link nodes ordered ordered) {c : α} (hc : c ∈ nodes) :
    (complete ordered nodes).count c = if link c = none then nodes.count c else 1 := by
  obtain ⟨rest, heq, hnodup, hmem⟩ := h.complete_eq
  rw [heq, List.count_append]
  cases hlink : link c with
  | none =>
    have hroot : Rooted link nodes c := .free hc hlink
    have hzero : rest.count c = 0 := List.count_eq_zero.mpr fun hin => ((hmem c).mp hin).2 hroot
    rw [if_pos rfl, h.free c hc hlink, hzero, Nat.add_zero]
  | some d =>
    rw [if_neg (by simp), h.linked c hc d hlink]
    by_cases hroot : Rooted link nodes c
    · have hzero : rest.count c = 0 := List.count_eq_zero.mpr fun hin => ((hmem c).mp hin).2 hroot
      rw [if_pos ((h.mem_iff d).mpr (hroot.of_link hlink)), hzero]
    · have hd : d ∉ ordered := fun hin => hroot (.follows hc hlink ((h.mem_iff d).mp hin))
      rw [if_neg hd, List.count_eq_one_of_mem hnodup ((hmem c).mpr ⟨hc, hroot⟩)]

/-! Pairs and chains -/

theorem Queued.pair_sublist (h : Queued link nodes ordered ordered) {c d : α}
    (hc : c ∈ ordered) (hlink : link c = some d) : [d, c].Sublist ordered := by
  obtain ⟨l₁, l₂, rfl⟩ := List.append_of_mem hc
  have hd := h.before l₁ c l₂ rfl d hlink
  exact (List.singleton_sublist.mpr hd).append
    (List.singleton_sublist.mpr (List.mem_cons_self (a := c) (l := l₂)))

/-- A node stands after the one that it follows if the latter has a root. Otherwise the two
stand as they were given. -/
theorem Queued.pair_iff (h : Queued link nodes ordered ordered) (hnodup : nodes.Nodup) {c d : α}
    (hc : c ∈ nodes) (hlink : link c = some d) :
    [d, c].Sublist (complete ordered nodes) ↔ Rooted link nodes d ∨ [d, c].Sublist nodes := by
  rw [h.complete_of_nodup hnodup]
  have hmissing : (nodes.filter (· ∉ ordered)).Sublist nodes := List.filter_sublist
  by_cases hroot : Rooted link nodes d
  · refine ⟨fun _ => .inl hroot, fun _ => ?_⟩
    have hc' := (h.mem_iff c).mpr (.follows hc hlink hroot)
    exact (h.pair_sublist hc' hlink).trans (List.sublist_append_left _ _)
  · have hd : d ∉ ordered := fun hin => hroot ((h.mem_iff d).mp hin)
    have hc' : c ∉ ordered := fun hin => hroot (((h.mem_iff c).mp hin).of_link hlink)
    constructor
    · intro hsub
      obtain ⟨a, b, hab, ha, hb⟩ := List.sublist_append_iff.mp hsub
      cases a with
      | nil => exact .inr (hab ▸ hb.trans hmissing)
      | cons x a =>
        obtain ⟨rfl, -⟩ := List.cons.inj hab
        exact absurd (ha.subset List.mem_cons_self) hd
    · rintro (hd' | hsub)
      · exact absurd hd' hroot
      · have hkept : [d, c].filter (· ∉ ordered) = [d, c] := by simp [hd, hc']
        exact (hkept ▸ hsub.filter _).trans (List.sublist_append_right _ _)

omit [DecidableEq α] in
theorem exists_pred_of_chain {k c : α} {ks : List α}
    (hchain : (k :: ks).IsChain fun a b => link b = some a) (hc : c ∈ ks) :
    ∃ d ∈ k :: ks, link c = some d := by
  induction ks generalizing k with
  | nil => cases hc
  | cons k' ks ih =>
    obtain ⟨hlink, hrest⟩ := List.isChain_cons_cons.mp hchain
    rcases List.mem_cons.mp hc with rfl | hc
    · exact ⟨k, List.mem_cons_self, hlink⟩
    · obtain ⟨d, hd, hlink⟩ := ih hrest hc
      exact ⟨d, List.mem_cons_of_mem _ hd, hlink⟩

omit [DecidableEq α] in
/-- A chain from a node that follows nothing. -/
theorem rooted_of_chain {k : α} {ks : List α} (hk : Rooted link nodes k)
    (hchain : (k :: ks).IsChain fun a b => link b = some a) (hks : ∀ c ∈ ks, c ∈ nodes) :
    ∀ c ∈ k :: ks, Rooted link nodes c := by
  induction ks generalizing k with
  | nil => exact fun c hc => List.mem_singleton.mp hc ▸ hk
  | cons k' ks ih =>
    obtain ⟨hlink, hrest⟩ := List.isChain_cons_cons.mp hchain
    obtain ⟨hk', hks⟩ := List.forall_mem_cons.mp hks
    intro c hc
    rcases List.mem_cons.mp hc with rfl | hc
    · exact hk
    · exact ih (.follows hk' hlink hk) hrest hks c hc

omit [DecidableEq α] in
/-- Where every node follows one, no chain has a start. -/
theorem not_rooted (h : ∀ c ∈ nodes, link c ≠ none) (c : α) : ¬ Rooted link nodes c := by
  intro hroot
  induction hroot with
  | free hc hlink => exact h _ hc hlink
  | follows _ _ _ ih => exact ih

omit [DecidableEq α] in
/-- Where each node stands after the one that it follows, the nodes of a chain stand as in
the chain. -/
theorem eq_chain {done rest ks : List α} (hchain : ks.IsChain fun a b => link b = some a)
    (hperm : rest.Perm ks) (hnodup : (done ++ rest).Nodup)
    (hbefore : ∀ l₁ c l₂, done ++ rest = l₁ ++ c :: l₂ → ∀ d, link c = some d → d ∈ l₁) :
    rest = ks := by
  induction ks generalizing done rest with
  | nil => exact hperm.eq_nil
  | cons k ks ih =>
    cases rest with
    | nil => exact absurd hperm.symm.eq_nil (List.cons_ne_nil k ks)
    | cons c rest =>
      have hck : c = k := by
        rcases List.mem_cons.mp (hperm.mem_iff.mp List.mem_cons_self) with hck | hc
        · exact hck
        · -- the one that it follows would stand both before it and after it
          obtain ⟨d, hd, hlink⟩ := exists_pred_of_chain hchain hc
          exact absurd (hperm.mem_iff.mpr hd)
            ((List.nodup_append.mp hnodup).2.2 d (hbefore done c rest rfl d hlink) d · rfl)
      subst hck
      have hsplit : done ++ c :: rest = done ++ [c] ++ rest := by simp
      rw [hsplit] at hnodup hbefore
      rw [ih hchain.of_cons hperm.cons_inv hnodup hbefore]

end Ordered

end Toposort
