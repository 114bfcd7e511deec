import OpenPms.ChannexProvisioning

/-!
Provisionings one after the other. A title is compared as it is wanted with the titles that
Channex lists, without the blanks around them: so, as long as a listing has one page, no title
comes to Channex twice, unless the answer to a post was lost, but for those that begin or end
with a blank.
-/
namespace OpenPms.Channex

open Ari

/-! Titles that are wanted -/

theorem length_strip_le (s : String) : (Text.strip s).length ≤ s.length := by
  unfold Text.strip
  rw [String.length_ofList, List.length_reverse]
  refine (List.length_dropWhile_le _ _).trans ?_
  rw [List.length_reverse]
  exact List.length_dropWhile_le _ _

theorem take_of_length_le {n : ℕ} {s : String} (h : s.length ≤ n) : Text.take n s = s := by
  unfold Text.take
  rw [List.take_of_length_le h, String.ofList_toList]

section Wanted
variable {property : UUID} {db : ProvisionDb} {a x : String}

theorem listedTitle_eq (ha : a ∈ wantedRatePlans property db) : listedTitle a = Text.strip a := by
  obtain ⟨pair, -, rfl⟩ := List.mem_map.mp ha
  have hlen : (ratePlanTitle db pair.1 pair.2).length ≤ 255 := by
    unfold ratePlanTitle Text.take
    rw [String.length_ofList]
    exact List.length_take_le _ _
  unfold listedTitle
  rw [take_of_length_le ((length_strip_le _).trans hlen), strip_strip]

theorem ne_empty_of_wanted (ha : a ∈ wantedRatePlans property db) : a ≠ "" := by
  obtain ⟨pair, -, rfl⟩ := List.mem_map.mp ha
  intro hempty
  have hlen := congrArg String.length hempty
  unfold ratePlanTitle Text.take at hlen
  rw [String.length_ofList, List.length_take, String.length_toList, String.length_append,
    String.length_append] at hlen
  have hthree : " / ".length = 3 := by decide
  have hzero : "".length = 0 := by decide
  omega

theorem strip_of_wanted (ha : a ∈ wantedRoomTypes property db) : Text.strip a = a := by
  obtain ⟨rt, -, rfl⟩ := List.mem_map.mp ha
  exact strip_strip rt.name

end Wanted

/-! Any number of provisionings -/

/-- As the connecting of a property stores its identifier at Channex. -/
def LinksStripped (db : ProvisionDb) : Prop :=
  ∀ link ∈ db.links, Text.strip link.channexPropertyId = link.channexPropertyId

/-- One provisioning after the other, each of them with the data of its time. -/
def provisionAll {c : Service} (runs : List (UUID × ProvisionDb)) (w : World c) : World c :=
  runs.foldl (fun w run => (provisionChannexFromOpenpms run.1 run.2 w).2) w

section Runs
variable {c : Service} {property : UUID} {db : ProvisionDb} {cxPid x : String} {w : World c}
  {k : ℕ} {runs : List (UUID × ProvisionDb)}

theorem provision_cases (hc : c.Documented) (property : UUID) (w : World c)
    (hlinks : LinksStripped db) :
    (∃ e, provisionChannexFromOpenpms property db w = (.error e, w)) ∨
      ∃ pid, Provisioning property db pid w (provisionChannexFromOpenpms property db w) := by
  cases hlink : getLink property db.toAriDb with
  | none =>
    left
    unfold provisionChannexFromOpenpms
    rw [hlink]
    exact ⟨_, rfl⟩
  | some link =>
    have hpid := hlinks link (List.mem_of_find?_eq_some hlink)
    exact .inr ⟨_, provisioning_cases hc hlink hpid⟩

theorem Provisioning.titles_suffix {kind : Post → Option String} {pid : String}
    {out : Except ProvisionError ChannexProvisionRead × World c}
    (h : Provisioning property db pid w out) : w.titles kind <:+ out.2.titles kind := by
  cases h with
  | refused e => exact List.suffix_rfl
  | first e h => exact h.posting.titles_suffix
  | second e h h' => exact h.posting.titles_suffix.trans h'.posting.titles_suffix
  | done k l h h' => exact h.posting.titles_suffix.trans h'.posting.titles_suffix

theorem titles_suffix_all {kind : Post → Option String} (hc : c.Documented)
    (hlinks : ∀ run ∈ runs, LinksStripped run.2) :
    w.titles kind <:+ (provisionAll runs w).titles kind := by
  induction runs generalizing w with
  | nil => exact List.suffix_rfl
  | cons run rest ih =>
    obtain ⟨hlinked, hlinks⟩ := List.forall_mem_cons.mp hlinks
    refine List.IsSuffix.trans ?_ (ih hlinks)
    change _ <:+ (provisionChannexFromOpenpms run.1 run.2 w).2.titles kind
    rcases provision_cases hc run.1 w hlinked with ⟨e, hout⟩ | ⟨pid, hout⟩
    · rw [hout]
    · exact hout.titles_suffix

/-- The title is there once for each of its lost effects and once more, or `k` times. -/
def World.AtMost (kind : Post → Option String) (x : String) (k : ℕ) (w : World c) : Prop :=
  (w.titles kind).count x ≤ max k (1 + (w.lostTitles kind).count x)

/-- The resources of the kind are no more than the first page of a listing. -/
def World.OnePage (kind : Post → Option String) (w : World c) : Prop :=
  (w.titles kind).length ≤ c.pageSize

instance (kind : Post → Option String) (w : World c) : Decidable (w.OnePage kind) :=
  inferInstanceAs (Decidable ((w.titles kind).length ≤ c.pageSize))

/-- The posts of a phase are of another kind, or the title is wanted in its normal form only. -/
def Admits (kind kind' : Post → Option String) (norm : String → String) (wanted : List String)
    (x : String) : Prop :=
  (∀ p, kind' p ≠ none → kind p = none) ∨ kind' = kind ∧ ∀ a ∈ wanted, norm a = x → a = x

theorem Phase.atMost {kind kind' : Post → Option String} {norm : String → String}
    {wanted : List String} {w' : World c} {b : Bool} {n : ℕ}
    (h : Phase kind' norm wanted w b w' n) (hx : x ≠ "") (hadmits : Admits kind kind' norm wanted x)
    (hpage : w.OnePage kind) (hk : w.AtMost kind x k) : w'.AtMost kind x k := by
  rcases hadmits with hother | ⟨rfl, hplain⟩
  · unfold World.AtMost
    rw [h.posting.titles_eq hother, h.posting.lostTitles_eq hother]
    exact hk
  · exact h.count_le hx hpage hplain hk

theorem Provisioning.atMost {kind : Post → Option String} {pid : String}
    {out : Except ProvisionError ChannexProvisionRead × World c}
    (h : Provisioning property db pid w out) (hx : x ≠ "")
    (hrooms : Admits kind (Post.roomTypeOf pid) Text.strip (wantedRoomTypes property db) x)
    (hplans : Admits kind (Post.ratePlanOf pid) listedTitle (wantedRatePlans property db) x)
    (hpage : out.2.OnePage kind) (hk : w.AtMost kind x k) : out.2.AtMost kind x k := by
  have hfirst : w.OnePage kind := h.titles_suffix.length_le.trans hpage
  cases h with
  | refused e => exact hk
  | first e h => exact h.atMost hx hrooms hfirst hk
  | second e h h' | done _ _ h h' =>
    have hsecond : World.OnePage kind _ := h'.posting.titles_suffix.length_le.trans hpage
    exact h'.atMost hx hplans hsecond (h.atMost hx hrooms hfirst hk)

theorem roomTypeOf_of_ratePlan {pid : String} {p : Post} (h : Post.ratePlanOf pid p ≠ none) :
    Post.roomTypeOf cxPid p = none := by
  cases p with
  | ratePlan body => rfl
  | roomType body => exact absurd rfl h
  | webhook url events => exact absurd rfl h

theorem ratePlanOf_of_roomType {pid : String} {p : Post} (h : Post.roomTypeOf pid p ≠ none) :
    Post.ratePlanOf cxPid p = none := by
  cases p with
  | roomType body => rfl
  | ratePlan body => exact absurd rfl h
  | webhook url events => exact absurd rfl h

theorem roomTypeOf_of_ne {pid : String} (hne : pid ≠ cxPid) {p : Post}
    (h : Post.roomTypeOf pid p ≠ none) : Post.roomTypeOf cxPid p = none := by
  cases p with
  | roomType body =>
    have hpid : body.propertyId = pid := by
      by_contra hother
      exact h (if_neg hother)
    exact if_neg (hpid ▸ hne)
  | ratePlan body => rfl
  | webhook url events => rfl

theorem ratePlanOf_of_ne {pid : String} (hne : pid ≠ cxPid) {p : Post}
    (h : Post.ratePlanOf pid p ≠ none) : Post.ratePlanOf cxPid p = none := by
  cases p with
  | roomType body => rfl
  | webhook url events => rfl
  | ratePlan body =>
    have hpid : body.propertyId = pid := by
      by_contra hother
      exact h (if_neg hother)
    exact if_neg (hpid ▸ hne)

theorem admits_roomTypes (pid : String) :
    Admits (Post.roomTypeOf cxPid) (Post.roomTypeOf pid) Text.strip (wantedRoomTypes property db)
      x := by
  by_cases heq : pid = cxPid
  · subst heq
    refine .inr ⟨rfl, fun a ha hax => ?_⟩
    rw [← hax, strip_of_wanted ha]
  · exact .inl fun p hp => roomTypeOf_of_ne heq hp

theorem admits_ratePlans (pid : String)
    (hplain : ∀ a ∈ wantedRatePlans property db, Text.strip a = x → a = x) :
    Admits (Post.ratePlanOf cxPid) (Post.ratePlanOf pid) listedTitle (wantedRatePlans property db)
      x := by
  by_cases heq : pid = cxPid
  · subst heq
    refine .inr ⟨rfl, fun a ha hax => hplain a ha ?_⟩
    rw [← listedTitle_eq ha, hax]
  · exact .inl fun p hp => ratePlanOf_of_ne heq hp

/-- However often a property is provisioned, with whatever data, and however its requests
fail or are repeated, a title comes to Channex once, and once more for each post of it that
took effect without an answer, as long as a listing of the property has one page. A title of a
rate plan counts that no run wants with blanks around it. -/
theorem provision_no_duplicates (hc : c.Documented) (hlinks : ∀ run ∈ runs, LinksStripped run.2)
    (hx : x ≠ "") :
    ((provisionAll runs w).OnePage (Post.roomTypeOf cxPid) →
        (provisionAll runs w).AtMost (Post.roomTypeOf cxPid) x
          ((w.titles (Post.roomTypeOf cxPid)).count x)) ∧
      ((provisionAll runs w).OnePage (Post.ratePlanOf cxPid) →
        (∀ run ∈ runs, ∀ a ∈ wantedRatePlans run.1 run.2, Text.strip a = x → a = x) →
        (provisionAll runs w).AtMost (Post.ratePlanOf cxPid) x
          ((w.titles (Post.ratePlanOf cxPid)).count x)) := by
  have hrun : ∀ {kind : Post → Option String} {k : ℕ},
      (∀ run ∈ runs, ∀ pid,
        Admits kind (Post.roomTypeOf pid) Text.strip (wantedRoomTypes run.1 run.2) x ∧
        Admits kind (Post.ratePlanOf pid) listedTitle (wantedRatePlans run.1 run.2) x) →
      (provisionAll runs w).OnePage kind → w.AtMost kind x k →
      (provisionAll runs w).AtMost kind x k := by
    intro kind k hadmits hpage hk
    induction runs generalizing w with
    | nil => exact hk
    | cons run rest ih =>
      obtain ⟨hlinked, hlinks⟩ := List.forall_mem_cons.mp hlinks
      obtain ⟨hfirst, hadmits⟩ := List.forall_mem_cons.mp hadmits
      refine ih hlinks hadmits hpage ?_
      have hone : (provisionChannexFromOpenpms run.1 run.2 w).2.OnePage kind :=
        (titles_suffix_all hc hlinks).length_le.trans hpage
      change (provisionChannexFromOpenpms run.1 run.2 w).2.AtMost kind x k
      rcases provision_cases hc run.1 w hlinked with ⟨e, hout⟩ | ⟨pid, hout⟩
      · rw [hout]
        exact hk
      · exact hout.atMost hx (hfirst pid).1 (hfirst pid).2 hone hk
  constructor
  · refine fun hpage => hrun (fun run _ pid => ⟨admits_roomTypes pid, .inl fun p hp => ?_⟩) hpage
      (le_max_left _ _)
    exact roomTypeOf_of_ratePlan hp
  · refine fun hpage hplain => hrun (fun run hmem pid => ⟨.inl fun p hp => ?_, ?_⟩) hpage
      (le_max_left _ _)
    · exact ratePlanOf_of_roomType hp
    · exact admits_ratePlans pid (hplain run hmem)

theorem length_dedup_filter_eq {α : Type} [DecidableEq α] {x : α} {l : List α} :
    (l.filter (· = x)).dedup.length = if x ∈ l then 1 else 0 := by
  have hmem : ∀ y, y ∈ (l.filter (· = x)).dedup ↔ y = x ∧ x ∈ l := by
    intro y
    rw [List.mem_dedup, List.mem_filter, decide_eq_true_eq]
    exact ⟨fun h => ⟨h.2, h.2 ▸ h.1⟩, fun h => ⟨h.1 ▸ h.2, h.1⟩⟩
  split
  · next hx =>
    refine List.length_eq_one_iff.mpr ⟨x, List.perm_singleton.mp ?_⟩
    refine (List.perm_ext_iff_of_nodup (List.nodup_dedup _) (List.nodup_singleton x)).mpr ?_
    intro y
    rw [hmem, List.mem_singleton]
    exact and_iff_left hx
  · next hx =>
    refine List.length_eq_zero_iff.mpr (List.eq_nil_iff_forall_not_mem.mpr fun y hy => ?_)
    exact hx ((hmem y).mp hy).2

theorem Provisioning.of_ok {pid : String} {read : ChannexProvisionRead}
    {out : Except ProvisionError ChannexProvisionRead × World c}
    (h : Provisioning property db pid w out) (hok : out.1 = .ok read) :
    ∃ w₁, Phase (Post.roomTypeOf pid) Text.strip (wantedRoomTypes property db) w true w₁
        read.roomTypesCreated ∧
      Phase (Post.ratePlanOf pid) listedTitle (wantedRatePlans property db) w₁ true out.2
        read.ratePlansCreated := by
  cases h with
  | refused e => exact absurd hok (by simp)
  | first e h => exact absurd hok (by simp)
  | second e h h' => exact absurd hok (by simp)
  | @done w₁ _ n m k l h h' =>
    obtain rfl := Except.ok.inj hok
    exact ⟨w₁, h, h'⟩

/-- When a provisioning has gone through, a later one with the same data, whatever came of
others in between, creates anew what it creates every time: a room type without a name, and
the rate plans whose title begins or ends with a blank. What it finds fits on a page. -/
theorem reprovision_creates (hc : c.Documented) {link : Ari.ChannexPropertyLink}
    {read read' : ChannexProvisionRead} (runs : List (UUID × ProvisionDb))
    (hlinked : LinksStripped db) (hlink : getLink property db.toAriDb = some link)
    (hfirst : (provisionChannexFromOpenpms property db w).1 = .ok read)
    (hlinks : ∀ run ∈ runs, LinksStripped run.2)
    (hagain : (provisionChannexFromOpenpms property db
      (provisionAll runs (provisionChannexFromOpenpms property db w).2)).1 = .ok read') :
    ((provisionAll runs (provisionChannexFromOpenpms property db w).2).OnePage
        (Post.roomTypeOf link.channexPropertyId) →
      read'.roomTypesCreated = if "" ∈ wantedRoomTypes property db then 1 else 0) ∧
    ((provisionAll runs (provisionChannexFromOpenpms property db w).2).OnePage
        (Post.ratePlanOf link.channexPropertyId) →
      read'.ratePlansCreated =
        ((wantedRatePlans property db).filter fun a => Text.strip a ≠ a).dedup.length) := by
  have hpid := hlinked link (List.mem_of_find?_eq_some hlink)
  obtain ⟨w₁, hrooms, hplans⟩ := (provisioning_cases (w := w) hc hlink hpid).of_ok hfirst
  obtain ⟨w₂, hrooms', hplans'⟩ := (provisioning_cases hc hlink hpid).of_ok hagain
  have hroom : ∀ a ∈ wantedRoomTypes property db, Text.strip a = a → Text.strip a = a :=
    fun _ _ h => h
  have hplan : ∀ a ∈ wantedRatePlans property db, Text.strip a = a → listedTitle a = a :=
    fun a ha h => (listedTitle_eq ha).trans h
  constructor
  · intro hpage
    refine Eq.trans (hrooms'.created_again hpage hroom fun a ha => ?_) ?_
    · exact (titles_suffix_all hc hlinks).subset
        (hplans.posting.titles_suffix.subset (hrooms.mem_titles hroom ha))
    rw [← length_dedup_filter_eq]
    refine congrArg (fun names : List String => names.dedup.length) ?_
    refine List.filter_congr fun a ha => decide_eq_decide.mpr ?_
    simp [strip_of_wanted ha]
  · intro hpage
    -- the posts of room types leave the listing of the rate plans as it was
    have hplanless : ∀ p, Post.roomTypeOf link.channexPropertyId p ≠ none →
        Post.ratePlanOf link.channexPropertyId p = none := fun _ => ratePlanOf_of_roomType
    have hsame := hrooms'.posting.titles_eq hplanless
    have hpage' : w₂.OnePage (Post.ratePlanOf link.channexPropertyId) :=
      (congrArg List.length hsame).trans_le hpage
    refine Eq.trans (hplans'.created_again hpage' hplan fun a ha => ?_) ?_
    · rw [hsame]
      exact (titles_suffix_all hc hlinks).subset (hplans.mem_titles hplan ha)
    refine congrArg (fun names : List String => names.dedup.length) ?_
    refine List.filter_congr fun a ha => decide_eq_decide.mpr ?_
    simp [listedTitle_eq ha, ne_empty_of_wanted ha]

end Runs

/-! A Channex that follows a script -/

namespace Demo

structure Failure where
  reply : Reply
  isError : reply.IsError

/-- What becomes of a request on its way. -/
inductive Fate where
  | answered
  | refused (failure : Failure)
  | lost (failure : Failure)

/-- What a request comes to that takes effect. -/
def effect (id : RemoteId) (remote : Remote) : Call → Remote
  | .create post => (id, post) :: remote
  | .deleteWebhook webhookId => remote.deleteWebhook webhookId
  | .roomTypes _ | .ratePlans _ => remote

/-- `sent` requests have been made, and each assigns its own identifier at most. -/
structure Script (ids : ℕ → RemoteId) where
  remote : Remote
  sent : ℕ
  assigned : ∀ r ∈ remote, ∃ n < sent, ids n = r.1

namespace Script
variable {ids : ℕ → RemoteId}

def empty : Script ids := ⟨[], 0, List.forall_mem_nil _⟩

theorem mem_effect {id : RemoteId} {remote : Remote} {call : Call} {r : RemoteId × Post}
    (h : r ∈ effect id remote call) : r.1 = id ∨ r ∈ remote := by
  cases call with
  | create post =>
    rcases List.mem_cons.mp h with rfl | hmem
    · exact .inl rfl
    · exact .inr hmem
  | deleteWebhook webhookId => exact .inr (List.mem_of_mem_filter h)
  | roomTypes propertyId => exact .inr h
  | ratePlans propertyId => exact .inr h

def refuse (s : Script ids) : Script ids where
  remote := s.remote
  sent := s.sent + 1
  assigned r hr := by
    obtain ⟨n, hn, hid⟩ := s.assigned r hr
    exact ⟨n, hn.trans (Nat.lt_succ_self _), hid⟩

def perform (call : Call) (s : Script ids) : Script ids where
  remote := effect (ids s.sent) s.remote call
  sent := s.sent + 1
  assigned r hr := by
    rcases mem_effect hr with hid | hmem
    · exact ⟨s.sent, Nat.lt_succ_self _, hid.symm⟩
    · exact s.refuse.assigned r hmem

end Script

/-- The requests meet with their `fates`, and the identifiers go by the number of the request. -/
def channex (pageSize : ℕ) (fates : ℕ → Fate) (ids : ℕ → RemoteId) : Service where
  State := Script ids
  holds := Script.remote
  assigned s := {x | ∃ n < s.sent, (ids n).text = x}
  pageSize := pageSize
  serve call s := match fates s.sent with
    | .answered =>
      (⟨.response 200 "", some (ids s.sent), (call.lists.elim [] s.remote.list).take pageSize⟩,
        s.perform call)
    | .refused failure => (⟨failure.reply, none, []⟩, s.refuse)
    | .lost failure => (⟨failure.reply, none, []⟩, s.perform call)

section Channex
variable {pageSize : ℕ} {fates : ℕ → Fate} {ids : ℕ → RemoteId}

/-- A request is refused, or performed; then its answer may be lost. -/
inductive Served (pageSize : ℕ) (call : Call) (s : Script ids) : Answer × Script ids → Prop
  | refused (failure : Failure) : Served pageSize call s (⟨failure.reply, none, []⟩, s.refuse)
  | lost (failure : Failure) : Served pageSize call s (⟨failure.reply, none, []⟩, s.perform call)
  | answered : Served pageSize call s (⟨.response 200 "", some (ids s.sent),
      (call.lists.elim [] s.remote.list).take pageSize⟩, s.perform call)

theorem served (pageSize : ℕ) (fates : ℕ → Fate) (call : Call) (s : Script ids) :
    Served pageSize call s ((channex pageSize fates ids).serve call s) := by
  unfold channex
  simp only
  split
  · exact .answered
  · exact .refused _
  · exact .lost _

theorem effect_listing {call : Call} {kind : Post → Option String} (h : call.lists = some kind)
    (id : RemoteId) (remote : Remote) : effect id remote call = remote := by
  cases call with
  | create post => exact absurd h (by simp [Call.lists])
  | deleteWebhook webhookId => exact absurd h (by simp [Call.lists])
  | roomTypes propertyId => rfl
  | ratePlans propertyId => rfl

theorem channex_documented : (channex pageSize fates ids).Documented where
  created post s := by
    have hserved := served pageSize fates (.create post) s
    unfold Service.after
    generalize (channex pageSize fates ids).serve (.create post) s = out at hserved
    cases hserved with
    | refused failure => exact .inl rfl
    | lost failure => exact .inr ⟨_, rfl⟩
    | answered => exact .inr ⟨_, rfl⟩
  answered post s h := by
    have hserved := served pageSize fates (.create post) s
    unfold Service.answer at h ⊢
    unfold Service.after
    generalize (channex pageSize fates ids).serve (.create post) s = out at hserved h
    cases hserved with
    | refused failure => exact absurd failure.isError h
    | lost failure => exact absurd failure.isError h
    | answered => exact ⟨_, rfl, rfl⟩
  looked {call} {kind} h s := by
    have hserved := served pageSize fates call s
    unfold Service.after
    generalize (channex pageSize fates ids).serve call s = out at hserved
    cases hserved with
    | refused failure => rfl
    | lost failure => exact effect_listing h _ _
    | answered => exact effect_listing h _ _
  shown {call} {kind} h s hok := by
    have hserved := served pageSize fates call s
    unfold Service.answer at hok ⊢
    generalize (channex pageSize fates ids).serve call s = out at hserved hok
    cases hserved with
    | refused failure => exact absurd failure.isError hok
    | lost failure => exact absurd failure.isError hok
    | answered =>
      rw [h]
      exact List.take_subset _ _
  page {call} {kind} h s hok hpage := by
    have hserved := served pageSize fates call s
    unfold Service.answer at hok ⊢
    generalize (channex pageSize fates ids).serve call s = out at hserved hok
    cases hserved with
    | refused failure => exact absurd failure.isError hok
    | lost failure => exact absurd failure.isError hok
    | answered =>
      rw [h]
      intro r hr
      exact (List.take_of_length_le hpage).symm ▸ hr

theorem channex_identifies (hids : ∀ m n, (ids m).text = (ids n).text → m = n) :
    (channex pageSize fates ids).Identifies where
  held s r hr := by
    obtain ⟨n, hn, hid⟩ := s.assigned r hr
    exact ⟨n, hn, congrArg RemoteId.text hid⟩
  kept call s x hx := by
    obtain ⟨n, hn, hid⟩ := hx
    have hserved := served pageSize fates call s
    unfold Service.after
    generalize (channex pageSize fates ids).serve call s = out at hserved
    cases hserved with
    | refused failure => exact ⟨n, hn.trans (Nat.lt_succ_self _), hid⟩
    | lost failure => exact ⟨n, hn.trans (Nat.lt_succ_self _), hid⟩
    | answered => exact ⟨n, hn.trans (Nat.lt_succ_self _), hid⟩
  fresh {post} {s} {id} h := by
    have hserved := served pageSize fates (.create post) s
    unfold Service.after at h
    generalize (channex pageSize fates ids).serve (.create post) s = out at hserved h
    rintro ⟨n, hn, hid⟩
    have hnew : ids s.sent ≠ id := by
      rintro rfl
      exact absurd (hids n s.sent hid) hn.ne
    cases hserved with
    | refused failure => exact absurd (congrArg List.length h).symm (Nat.succ_ne_self _)
    | lost failure => exact hnew (congrArg Prod.fst (List.cons.inj h).1)
    | answered => exact hnew (congrArg Prod.fst (List.cons.inj h).1)
  deleted webhookId s := by
    have hserved := served pageSize fates (.deleteWebhook webhookId) s
    unfold Service.after
    generalize (channex pageSize fates ids).serve (.deleteWebhook webhookId) s = out at hserved
    cases hserved with
    | refused failure => exact .inl rfl
    | lost failure => exact .inr rfl
    | answered => exact .inr rfl

end Channex

/-- The identifiers differ in their lengths. -/
def remoteId (n : ℕ) : RemoteId where
  text := String.ofList (List.replicate (n + 1) 'x')
  nonempty h := by
    have hlength := congrArg String.length h
    rw [String.length_ofList, List.length_replicate] at hlength
    exact absurd hlength (Nat.succ_ne_zero n)
  stripped := strip_of_no_space fun ch hch => by
    rw [String.toList_ofList] at hch
    rw [(List.mem_replicate.mp hch).2]
    decide

theorem remoteId_injective (m n : ℕ) (h : (remoteId m).text = (remoteId n).text) : m = n := by
  have hlength := congrArg String.length h
  unfold remoteId at hlength
  rw [String.length_ofList, String.length_ofList, List.length_replicate,
    List.length_replicate] at hlength
  exact Nat.succ_injective hlength

end Demo

/-! A property with one room type, and a rate plan without a name -/

namespace Demo

def provisionDb : ProvisionDb where
  toDb := { Db.empty 0 with
    properties := [1]
    roomTypes := KeyedTable.Table.empty.insert ⟨1, 1, "Suite", 2, 2, false⟩
    ratePlans := [⟨1, 1⟩] }
  currency := fun _ => some "EUR"
  links := [⟨⟨1, 1⟩, "hotel", "active"⟩]
  restrictions := fun _ _ _ => ⟨false, none, none⟩
  planName := fun _ => ""

theorem isError_unavailable : (Reply.response 503 "").IsError := Nat.le.intro (k := 103) rfl

def unavailable : Failure := ⟨.response 503 "", isError_unavailable⟩

/-- The answer to the second request is lost, and it is sent again. -/
def provisionChannex : Service :=
  channex 10 (fun n => if n = 1 then .lost unavailable else .answered) remoteId

def provisionWorld : World provisionChannex := ⟨.empty, []⟩

theorem linksStripped : LinksStripped provisionDb :=
  List.forall_mem_singleton.mpr (by decide)

def twice : List (UUID × ProvisionDb) := [(1, provisionDb), (1, provisionDb)]

theorem twice_linksStripped : ∀ run ∈ twice, LinksStripped run.2 :=
  List.forall_mem_cons.mpr ⟨linksStripped, List.forall_mem_singleton.mpr linksStripped⟩

end Demo

theorem provision_no_duplicates_demo :
    (provisionAll Demo.twice Demo.provisionWorld).titles (Post.roomTypeOf "hotel") =
        ["Suite", "Suite"] ∧
      (provisionAll Demo.twice Demo.provisionWorld).AtMost (Post.roomTypeOf "hotel") "Suite" 0 ∧
      (provisionAll Demo.twice Demo.provisionWorld).AtMost (Post.ratePlanOf "hotel") "Suite" 0 := by
  have hname : "Suite" ≠ "" := by decide
  refine ⟨by decide, ?_, ?_⟩
  · exact (provision_no_duplicates Demo.channex_documented Demo.twice_linksStripped hname).1
      (by decide)
  · exact (provision_no_duplicates Demo.channex_documented Demo.twice_linksStripped hname).2
      (by decide) (by decide)

/-- Where a page is too short for the room types, the ones it leaves out are posted again. -/
example :
    let db : ProvisionDb := { Demo.provisionDb with
      roomTypes := Demo.provisionDb.roomTypes.insert ⟨2, 1, "Attic", 2, 2, false⟩ }
    let w : World (Demo.channex 1 (fun _ => .answered) Demo.remoteId) := ⟨.empty, []⟩
    (provisionAll [(1, db), (1, db)] w).titles (Post.roomTypeOf "hotel") =
      ["Attic", "Suite", "Attic"] := by
  decide

/-- The title of the rate plan begins with a blank, and Channex lists it without. -/
theorem reprovision_creates_demo :
    ∃ read read', (provisionChannexFromOpenpms 1 Demo.provisionDb Demo.provisionWorld).1 =
        .ok read ∧
      (provisionChannexFromOpenpms 1 Demo.provisionDb
        (provisionChannexFromOpenpms 1 Demo.provisionDb Demo.provisionWorld).2).1 = .ok read' ∧
      read'.roomTypesCreated = 0 ∧ read'.ratePlansCreated = 1 := by
  have hlink : Ari.getLink 1 Demo.provisionDb.toAriDb = some ⟨⟨1, 1⟩, "hotel", "active"⟩ := by
    decide
  have hfirst : (provisionChannexFromOpenpms 1 Demo.provisionDb Demo.provisionWorld).1 =
      .ok ⟨1, 0, 1, 0⟩ := by decide
  have hagain : (provisionChannexFromOpenpms 1 Demo.provisionDb
      (provisionChannexFromOpenpms 1 Demo.provisionDb Demo.provisionWorld).2).1 =
      .ok ⟨0, 1, 1, 0⟩ := by decide
  have hcreated := reprovision_creates Demo.channex_documented [] Demo.linksStripped hlink hfirst
    (List.forall_mem_nil _) hagain
  exact ⟨_, _, hfirst, hagain, (hcreated.1 (by decide)).trans (by decide),
    (hcreated.2 (by decide)).trans (by decide)⟩

end OpenPms.Channex
