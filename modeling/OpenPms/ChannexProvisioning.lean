import OpenPms.ChannexWorld
import OpenPms.Lib.Ensure

/-!
Provisioning: the room types and rate plans of a property that Channex lacks are created
there, by their titles. An error ends the provisioning where it stands, to be started again
by hand.
-/
namespace OpenPms.Channex

open Ari

/-! The service -/

inductive ProvisionError where
  | service (detail : String) (statusCode : ℕ)
  | escaped (e : ClientError)
  deriving DecidableEq

/-- Only the client's own error is turned into one of the service. -/
def channexHttpToService : ClientError → ProvisionError
  | .channexApi message statusCode body =>
    let code := if statusCode = 0 then 502 else statusCode
    if code = 401 ∨ code = 403 then .service "Invalid or unauthorized Channex API key" 401
    else if code = 404 then .service "Channex resource not found" 404
    else if code = 422 then
      if body ≠ "" ∧ body.length < 800 then .service body 422
      else .service "Channex rejected the request (validation error)" 422
    else .service message 502
  | e => .escaped e

structure ChannexProvisionRead where
  roomTypesCreated : ℕ
  roomTypesSkipped : ℕ
  ratePlansCreated : ℕ
  ratePlansSkipped : ℕ
  deriving DecidableEq

/-- The names of the rate plans are read here only. -/
structure ProvisionDb extends AriDb where
  planName : UUID → String

def listRoomTypes (property : UUID) (db : ProvisionDb) : List RoomType :=
  (db.roomTypes.rows.filter fun r => r.propertyId = property && !r.deleted).insertionSort
    fun a b => a.name ≤ b.name

def listRatePlans (property : UUID) (db : ProvisionDb) : List RatePlan :=
  (db.ratePlans.filter fun p => p.propertyId = property).insertionSort
    fun a b => db.planName a.id ≤ db.planName b.id

/-- The variables of the first loop; an entry of a dictionary hides the older ones of its key. -/
structure RoomTypeLoop where
  cxByTitle : List (String × RemoteId)
  omRtToCx : List (UUID × RemoteId)
  created : ℕ
  skipped : ℕ

def cxByTitle (listed : List Listed) : List (String × RemoteId) :=
  (listed.filterMap fun r =>
    let t := Text.strip r.title
    if t ≠ "" then some (t, r.id) else none).reverse

def newRoomType (cxPid : String) (db : ProvisionDb) (rt : RoomType) : RoomTypeBody where
  propertyId := cxPid
  title := rt.name
  countOfRooms := max 1 (countRoomsForRoomType rt.id db.toDb : ℤ)
  occAdults := max 1 rt.maxOccupancy
  occChildren := 0
  occInfants := 0
  defaultOccupancy := max 1 (min rt.baseOccupancy (max 1 rt.maxOccupancy))

def provisionRoomTypes {c : Service} (cxPid : String) (db : ProvisionDb) :
    List RoomType → RoomTypeLoop → World c → Except ProvisionError RoomTypeLoop × World c
  | [], loop, w => (.ok loop, w)
  | rt :: rest, loop, w =>
    let key := Text.strip rt.name
    match loop.cxByTitle.lookup key with
    | some cx =>
      provisionRoomTypes cxPid db rest
        { loop with omRtToCx := (rt.id, cx) :: loop.omRtToCx, skipped := loop.skipped + 1 } w
    | none =>
      match createRoomType (newRoomType cxPid db rt) w with
      | (.error e, w') => (.error (channexHttpToService e), w')
      | (.ok cx, w') =>
        provisionRoomTypes cxPid db rest
          { loop with
            cxByTitle := (key, cx) :: loop.cxByTitle
            omRtToCx := (rt.id, cx) :: loop.omRtToCx
            created := loop.created + 1 } w'

structure RatePlanLoop where
  titles : List String
  created : ℕ
  skipped : ℕ

def ratePlanTitle (db : ProvisionDb) (rp : RatePlan) (rt : RoomType) : String :=
  Text.take 255 (Text.strip (db.planName rp.id) ++ " / " ++ Text.strip rt.name)

def newRatePlan (cxPid : String) (db : ProvisionDb) (currency : String) (cx : RemoteId)
    (rp : RatePlan) (rt : RoomType) : RatePlanBody where
  title := ratePlanTitle db rp rt
  propertyId := cxPid
  roomTypeId := cx.text
  occupancy := max 1 rt.maxOccupancy
  currency := currency

/-- The two loops over the rate plans and their room types in one. -/
def provisionRatePlans {c : Service} (cxPid : String) (db : ProvisionDb) (currency : String)
    (omRtToCx : List (UUID × RemoteId)) :
    List (RatePlan × RoomType) → RatePlanLoop → World c →
      Except ProvisionError RatePlanLoop × World c
  | [], loop, w => (.ok loop, w)
  | (rp, rt) :: rest, loop, w =>
    match omRtToCx.lookup rt.id with
    | none => provisionRatePlans cxPid db currency omRtToCx rest loop w
    | some cx =>
      let title := ratePlanTitle db rp rt
      if title ∈ loop.titles then
        provisionRatePlans cxPid db currency omRtToCx rest
          { loop with skipped := loop.skipped + 1 } w
      else
        match createRatePlan (newRatePlan cxPid db currency cx rp rt) w with
        | (.error e, w') => (.error (channexHttpToService e), w')
        | (.ok _, w') =>
          provisionRatePlans cxPid db currency omRtToCx rest
            { loop with titles := title :: loop.titles, created := loop.created + 1 } w'

/-- The pairs in the order of the two loops. -/
def ratePlanPairs (property : UUID) (db : ProvisionDb) : List (RatePlan × RoomType) :=
  (listRatePlans property db).flatMap fun rp => (listRoomTypes property db).map fun rt => (rp, rt)

def rpTitlesExisting (listed : List Listed) : List String :=
  (listed.map fun r => Text.strip r.title).filter fun t => t ≠ ""

def provisionChannexFromOpenpms {c : Service} (property : UUID) (db : ProvisionDb) (w : World c) :
    Except ProvisionError ChannexProvisionRead × World c :=
  match getLink property db.toAriDb with
  | none => (.error (.service "Channex is not connected for this property" 404), w)
  | some link =>
    if property ∉ db.properties then (.error (.service "Property not found" 404), w)
    else if listRoomTypes property db = [] then
      (.error (.service
        "No room categories in OpenPMS for this property; add room types first" 422), w)
    else
      let cxPid := link.channexPropertyId
      match getRoomTypes cxPid w with
      | (.error e, w₁) => (.error (channexHttpToService e), w₁)
      | (.ok existingRt, w₁) =>
        match provisionRoomTypes cxPid db (listRoomTypes property db)
            ⟨cxByTitle existingRt, [], 0, 0⟩ w₁ with
        | (.error e, w₂) => (.error e, w₂)
        | (.ok rts, w₂) =>
          match getRatePlans cxPid w₂ with
          | (.error e, w₃) => (.error (channexHttpToService e), w₃)
          | (.ok existingRp, w₃) =>
            let currency := Text.upper (Text.strip (orText (db.currency property) "USD"))
            match provisionRatePlans cxPid db currency rts.omRtToCx (ratePlanPairs property db)
                ⟨rpTitlesExisting existingRp, 0, 0⟩ w₃ with
            | (.error e, w₄) => (.error e, w₄)
            | (.ok rps, w₄) => (.ok ⟨rts.created, rts.skipped, rps.created, rps.skipped⟩, w₄)

/-! The two loops as passes -/

/-- What a pass knows of the world. -/
structure Shown {c : Service} (kind : Post → Option String) (w : World c)
    (s : Ensure.State String) : Prop where
  stored : s.stored = w.titles kind
  lost : s.lost = w.lostTitles kind

/-- A loop goes through its names as a pass does, and posts resources of one kind. -/
inductive Provisioned {c : Service} {β : Type} (kind : Post → Option String)
    (norm : String → String) (wanted : List String) (w : World c) (s : Ensure.State String)
    (R : Ensure.State String → β → Prop) : Except ProvisionError β × World c → Prop
  | error {w' : World c} {t : Ensure.State String} (e : ProvisionError)
      (hpass : Ensure.Pass norm wanted s t false) (hshown : Shown kind w' t)
      (hposting : World.Posting (fun p => kind p ≠ none) w w') :
      Provisioned kind norm wanted w s R (.error e, w')
  | ok {w' : World c} {t : Ensure.State String} {loop : β}
      (hpass : Ensure.Pass norm wanted s t true) (hshown : Shown kind w' t)
      (hposting : World.Posting (fun p => kind p ≠ none) w w') (hR : R t loop) :
      Provisioned kind norm wanted w s R (.ok loop, w')

section Loops
variable {c : Service} {β : Type} {kind : Post → Option String} {norm : String → String}
  {wanted : List String} {w w' : World c} {s : Ensure.State String}
  {R R' : Ensure.State String → β → Prop} {out : Except ProvisionError β × World c}
  {name title : String} {post : Post} {made : List RemoteId} {id : RemoteId}

theorem Shown.same (hs : Shown kind w s) (h : w.Same w') : Shown kind w' s :=
  ⟨hs.stored.trans h.titles_eq.symm, hs.lost.trans h.lostTitles_eq.symm⟩

theorem Shown.create (hs : Shown kind w s) (hkind : kind post = some title)
    (hnorm : Text.strip title = norm name) (h : w.Later post (id :: made) made.length w') :
    Shown kind w' (s.create norm name made.length) where
  stored := by
    rw [h.titles_eq hkind, hnorm, List.length_cons, ← hs.stored]
    rfl
  lost := by
    rw [h.lostTitles_eq hkind, hnorm, ← hs.lost]
    rfl

theorem Shown.lose (hs : Shown kind w s) (hkind : kind post = some title)
    (hnorm : Text.strip title = norm name) (h : w.Later post made made.length w') :
    Shown kind w' (s.lose norm name made.length) where
  stored := by
    rw [h.titles_eq hkind, hnorm, ← hs.stored]
    rfl
  lost := by
    rw [h.lostTitles_eq hkind, hnorm, ← hs.lost]
    rfl

theorem Provisioned.skip (hmem : name ∈ s.known) (hR : ∀ t loop, R' t loop → R t loop)
    (h : Provisioned kind norm wanted w s R' out) :
    Provisioned kind norm (name :: wanted) w s R out := by
  cases h with
  | error e hpass hshown hposting => exact .error e (.skip hmem hpass) hshown hposting
  | ok hpass hshown hposting hR' => exact .ok (.skip hmem hpass) hshown hposting (hR _ _ hR')

theorem Provisioned.create (hnew : name ∉ s.known) (hkind : kind post = some title)
    (hR : ∀ t loop, R' t loop → R t loop) (hlater : w.Later post (id :: made) made.length w')
    (h : Provisioned kind norm wanted w' (s.create norm name made.length) R' out) :
    Provisioned kind norm (name :: wanted) w s R out := by
  have hpost : World.Posting (fun p => kind p ≠ none) w w' := by
    refine .later ?_ hlater
    rw [hkind]
    exact Option.some_ne_none title
  cases h with
  | error e hpass hshown hposting =>
    exact .error e (.create hnew _ hpass) hshown (hpost.trans hposting)
  | ok hpass hshown hposting hR' =>
    exact .ok (.create hnew _ hpass) hshown (hpost.trans hposting) (hR _ _ hR')

theorem Provisioned.cut (e : ProvisionError) (hs : Shown kind w s) (hnew : name ∉ s.known)
    (hkind : kind post = some title) (hnorm : Text.strip title = norm name)
    (h : w.Later post made made.length w') :
    Provisioned kind norm (name :: wanted) w s R (.error e, w') := by
  refine .error e (.cut hnew made.length) (hs.lose hkind hnorm h) (.later ?_ h)
  rw [hkind]
  exact Option.some_ne_none title

end Loops

/-! The two loops of the service -/

/-- What a rate plan is listed as after it was created. -/
def listedTitle (title : String) : String := Text.strip (Text.take 255 (Text.strip title))

section Service
variable {c : Service} {cxPid : String} {db : ProvisionDb} {w : World c}
  {s : Ensure.State String}

theorem isSome_lookup {κ ν : Type} [DecidableEq κ] {k : κ} {l : List (κ × ν)} :
    (l.lookup k).isSome ↔ k ∈ l.map Prod.fst := by
  rw [List.lookup_isSome_iff, List.mem_map]
  exact exists_congr fun p => and_congr_right fun _ => by rw [beq_iff_eq, eq_comm]

/-- The room types of the loop, with the entries that it makes. -/
def RoomTypesDone (types : List RoomType) (s : Ensure.State String) (loop : RoomTypeLoop)
    (t : Ensure.State String) (loop' : RoomTypeLoop) : Prop :=
  t.created.length + loop.created = s.created.length + loop'.created ∧
    (loop.omRtToCx.map Prod.fst ++ types.map (·.id)) ⊆ loop'.omRtToCx.map Prod.fst

theorem provisionRoomTypes_pass (hc : c.Documented) (hpid : Text.strip cxPid = cxPid)
    {types : List RoomType} {loop : RoomTypeLoop} (hs : Shown (Post.roomTypeOf cxPid) w s)
    (hknown : s.known = loop.cxByTitle.map Prod.fst) :
    Provisioned (Post.roomTypeOf cxPid) Text.strip (types.map fun rt => Text.strip rt.name) w s
      (RoomTypesDone types s loop) (provisionRoomTypes cxPid db types loop w) := by
  induction types generalizing loop w s with
  | nil =>
    refine .ok .done hs (.same ⟨rfl, rfl⟩) ⟨rfl, ?_⟩
    rw [List.map_nil, List.append_nil]
    exact List.Subset.refl _
  | cons rt rest ih =>
    unfold provisionRoomTypes
    simp only [List.map_cons]
    split
    · next cx hcx =>
      have hmem : Text.strip rt.name ∈ s.known := by
        rw [hknown, ← isSome_lookup, hcx]
        rfl
      refine .skip hmem ?_ (ih hs ?_)
      · intro t loop' hdone
        refine ⟨hdone.1, List.Subset.trans ?_ hdone.2⟩
        rw [List.map_cons, List.map_cons]
        exact List.perm_middle.subset
      · exact hknown
    · next hnone =>
      have hnew : Text.strip rt.name ∉ s.known := by
        rw [hknown, ← isSome_lookup, hnone]
        exact Bool.false_ne_true
      have hkind : Post.roomTypeOf cxPid (.roomType (newRoomType cxPid db rt).sent) =
          some (Text.strip rt.name) := if_pos hpid
      have hmade : Made _ w (createRoomType (newRoomType cxPid db rt) w) :=
        create_made hc "room type" _ w
      generalize createRoomType (newRoomType cxPid db rt) w = out at hmade
      cases hmade with
      | error e made hlater => exact .cut _ hs hnew hkind rfl hlater
      | ok cx made hlater =>
        have hs' := hs.create hkind rfl hlater
        refine .create hnew hkind ?_ hlater (ih hs' ?_)
        · intro t loop' hdone
          refine ⟨?_, List.Subset.trans ?_ hdone.2⟩
          · have hcount := hdone.1
            simp only [Ensure.State.create, List.length_append, List.length_singleton] at hcount
            omega
          · rw [List.map_cons, List.map_cons]
            exact List.perm_middle.subset
        · rw [List.map_cons, ← hknown]
          rfl

theorem provisionRatePlans_pass (hc : c.Documented) (hpid : Text.strip cxPid = cxPid)
    {currency : String} {omRtToCx : List (UUID × RemoteId)} {pairs : List (RatePlan × RoomType)}
    {loop : RatePlanLoop}
    (hall : ∀ pair ∈ pairs, pair.2.id ∈ omRtToCx.map Prod.fst)
    (hs : Shown (Post.ratePlanOf cxPid) w s) (hknown : s.known = loop.titles) :
    Provisioned (Post.ratePlanOf cxPid) listedTitle
      (pairs.map fun pair => ratePlanTitle db pair.1 pair.2) w s
      (fun t loop' => t.created.length + loop.created = s.created.length + loop'.created)
      (provisionRatePlans cxPid db currency omRtToCx pairs loop w) := by
  induction pairs generalizing loop w s with
  | nil => exact .ok .done hs (.same ⟨rfl, rfl⟩) rfl
  | cons pair rest ih =>
    obtain ⟨rp, rt⟩ := pair
    have hrest : ∀ pair ∈ rest, pair.2.id ∈ omRtToCx.map Prod.fst :=
      fun pair hpair => hall pair (List.mem_cons_of_mem _ hpair)
    have hrt : (omRtToCx.lookup rt.id).isSome :=
      isSome_lookup.mpr (hall (rp, rt) (List.mem_cons_self ..))
    unfold provisionRatePlans
    simp only [List.map_cons]
    split
    · next hnone =>
      rw [hnone] at hrt
      exact absurd hrt Bool.false_ne_true
    · next cx hcx =>
      split
      · next hmem =>
        rw [← hknown] at hmem
        refine .skip hmem ?_ (ih hrest hs ?_)
        · exact fun t loop' hdone => hdone
        · exact hknown
      · next hnew =>
        rw [← hknown] at hnew
        have hkind : Post.ratePlanOf cxPid
            (.ratePlan (newRatePlan cxPid db currency cx rp rt).sent) =
            some (Text.take 255 (Text.strip (ratePlanTitle db rp rt))) := if_pos hpid
        have hmade : Made _ w (createRatePlan (newRatePlan cxPid db currency cx rp rt) w) :=
          create_made hc "rate plan" _ w
        generalize createRatePlan (newRatePlan cxPid db currency cx rp rt) w = out at hmade
        cases hmade with
        | error e made hlater => exact .cut _ hs hnew hkind rfl hlater
        | ok cx made hlater =>
          have hs' := hs.create hkind
            (show _ = listedTitle (ratePlanTitle db rp rt) from rfl) hlater
          refine .create hnew hkind ?_ hlater (ih hrest hs' ?_)
          · intro t loop' hdone
            simp only [Ensure.State.create, List.length_append, List.length_singleton] at hdone
            omega
          · rw [← hknown]
            rfl

end Service

/-! A listing and the loop that compares with it -/

/-- The state in which a loop begins: it knows titles that are there, all of them if they are no
more than a page, and has created nothing yet. -/
structure Listing {c : Service} (kind : Post → Option String) (w : World c)
    (s : Ensure.State String) : Prop extends Shown kind w s where
  known : s.known ⊆ s.stored
  listed : (w.titles kind).length ≤ c.pageSize → Ensure.Listed (· ≠ "") s
  created : s.created = []

/-- The listing fails, or the loop goes through the wanted titles or is cut off. -/
inductive Phase {c : Service} (kind : Post → Option String) (norm : String → String)
    (wanted : List String) (w : World c) : Bool → World c → ℕ → Prop
  | unlisted {w' : World c} (h : w.Same w') : Phase kind norm wanted w false w' 0
  | listed {w' : World c} {s t : Ensure.State String} {b : Bool} (hlisting : Listing kind w s)
      (hpass : Ensure.Pass norm wanted s t b) (hshown : Shown kind w' t)
      (hposting : World.Posting (fun p => kind p ≠ none) w w') :
      Phase kind norm wanted w b w' t.created.length

namespace Phase
variable {c : Service} {kind : Post → Option String} {norm : String → String}
  {wanted : List String} {w w' : World c} {b : Bool} {n k : ℕ} {x : String}

theorem posting (h : Phase kind norm wanted w b w' n) :
    World.Posting (fun p => kind p ≠ none) w w' := by
  cases h with
  | unlisted h => exact .same h
  | listed _ _ _ hposting => exact hposting

/-- A title is there once for each of its lost effects and once more, or as often as before. -/
theorem count_le (h : Phase kind norm wanted w b w' n) (hx : x ≠ "")
    (hpage : (w.titles kind).length ≤ c.pageSize) (hplain : ∀ a ∈ wanted, norm a = x → a = x)
    (hk : (w.titles kind).count x ≤ max k (1 + (w.lostTitles kind).count x)) :
    (w'.titles kind).count x ≤ max k (1 + (w'.lostTitles kind).count x) := by
  cases h with
  | unlisted h =>
    rw [h.titles_eq, h.lostTitles_eq]
    exact hk
  | @listed _ s t _ hlisting hpass hshown _ =>
    rw [← hlisting.stored, ← hlisting.lost] at hk
    rw [← hshown.stored, ← hshown.lost]
    refine hpass.count_le hplain (fun hmem => ?_) hk
    exact (hlisting.listed hpage x).mpr ⟨hmem, decide_eq_true hx⟩

/-- After a phase that went through, every wanted title is there. -/
theorem mem_titles (h : Phase kind norm wanted w true w' n)
    (hnorm : ∀ a ∈ wanted, Text.strip a = a → norm a = a) {a : String} (ha : a ∈ wanted) :
    norm a ∈ w'.titles kind := by
  cases h with
  | @listed _ s t _ hlisting hpass hshown _ =>
    rw [← hshown.stored]
    rcases hpass.mem_stored ha with hknown | hstored
    · have hmem : a ∈ s.stored := hlisting.known hknown
      have hstrip : Text.strip a = a := strip_of_mem_titles (hlisting.stored ▸ hmem)
      rw [hnorm a ha hstrip]
      exact hpass.stored_subset hmem
    · exact hstored

/-- Where all wanted titles are listed in their normal form, those are created again that
are not in it. -/
theorem created_again (h : Phase kind norm wanted w true w' n)
    (hpage : (w.titles kind).length ≤ c.pageSize)
    (hnorm : ∀ a ∈ wanted, Text.strip a = a → norm a = a)
    (hstored : ∀ a ∈ wanted, norm a ∈ w.titles kind) :
    n = (wanted.filter fun a => ¬ (norm a = a ∧ a ≠ "")).dedup.length := by
  cases h with
  | @listed _ s t _ hlisting hpass hshown _ =>
    have hcreated := hpass.created_again (hlisting.listed hpage)
      (fun a ha => hlisting.stored ▸ hstored a ha) fun a ha hne hmem => hne ?_
    · rw [hlisting.created, List.length_nil, Nat.zero_add] at hcreated
      simpa only [ne_eq, decide_not, Bool.not_eq_true', decide_eq_false_iff_not] using hcreated
    · exact hnorm a ha (strip_of_mem_titles (hlisting.stored ▸ hmem))

end Phase

/-- A phase with what its loop returns. -/
inductive PhaseEnds {c : Service} {β : Type} (kind : Post → Option String)
    (norm : String → String) (wanted : List String) (w : World c) (R : ℕ → β → Prop) :
    Except ProvisionError β × World c → Prop
  | error {w' : World c} {n : ℕ} (e : ProvisionError) (h : Phase kind norm wanted w false w' n) :
      PhaseEnds kind norm wanted w R (.error e, w')
  | ok {w' : World c} {n : ℕ} {loop : β} (h : Phase kind norm wanted w true w' n)
      (hR : R n loop) : PhaseEnds kind norm wanted w R (.ok loop, w')

section PhaseEnds
variable {c : Service} {β : Type} {kind : Post → Option String} {norm : String → String}
  {wanted : List String} {w w' : World c} {out : Except ProvisionError β × World c}

theorem PhaseEnds.imp {R R' : ℕ → β → Prop} (h : PhaseEnds kind norm wanted w R out)
    (hR : ∀ n loop, R n loop → R' n loop) : PhaseEnds kind norm wanted w R' out := by
  cases h with
  | error e h => exact .error e h
  | ok h hloop => exact .ok h (hR _ _ hloop)

/-- The listing has come, and the loop begins. -/
theorem phase_cases {s : Ensure.State String} {R : Ensure.State String → β → Prop}
    (hlisting : Listing kind w s) (hsame : w.Same w')
    (h : Provisioned kind norm wanted w' s R out) :
    PhaseEnds kind norm wanted w (fun n loop => ∃ t, t.created.length = n ∧ R t loop) out := by
  cases h with
  | error e hpass hshown hposting =>
    exact .error e (.listed hlisting hpass hshown ((World.Posting.same hsame).trans hposting))
  | ok hpass hshown hposting hR =>
    refine .ok (.listed hlisting hpass hshown ?_) ⟨_, rfl, hR⟩
    exact (World.Posting.same hsame).trans hposting

end PhaseEnds

/-! A provisioning -/

def wantedRoomTypes (property : UUID) (db : ProvisionDb) : List String :=
  (listRoomTypes property db).map fun rt => Text.strip rt.name

def wantedRatePlans (property : UUID) (db : ProvisionDb) : List String :=
  (ratePlanPairs property db).map fun pair => ratePlanTitle db pair.1 pair.2

/-- A phase for the room types and a phase for the rate plans, as far as they go. -/
inductive Provisioning {c : Service} (property : UUID) (db : ProvisionDb) (cxPid : String)
    (w : World c) : Except ProvisionError ChannexProvisionRead × World c → Prop
  | refused (e : ProvisionError) : Provisioning property db cxPid w (.error e, w)
  | first {w' : World c} {n : ℕ} (e : ProvisionError)
      (h : Phase (Post.roomTypeOf cxPid) Text.strip (wantedRoomTypes property db) w false w' n) :
      Provisioning property db cxPid w (.error e, w')
  | second {w₁ w' : World c} {n m : ℕ} (e : ProvisionError)
      (h : Phase (Post.roomTypeOf cxPid) Text.strip (wantedRoomTypes property db) w true w₁ n)
      (h' : Phase (Post.ratePlanOf cxPid) listedTitle (wantedRatePlans property db) w₁ false w' m) :
      Provisioning property db cxPid w (.error e, w')
  | done {w₁ w' : World c} {n m : ℕ} (k l : ℕ)
      (h : Phase (Post.roomTypeOf cxPid) Text.strip (wantedRoomTypes property db) w true w₁ n)
      (h' : Phase (Post.ratePlanOf cxPid) listedTitle (wantedRatePlans property db) w₁ true w' m) :
      Provisioning property db cxPid w (.ok ⟨n, k, m, l⟩, w')

section Provisioning
variable {c : Service} {property : UUID} {db : ProvisionDb} {link : Ari.ChannexPropertyLink}
  {w w' : World c} {listed : List Listed}

theorem mem_cxByTitle {x : String} :
    x ∈ (cxByTitle listed).map Prod.fst ↔
      x ∈ (listed.map fun r => Text.strip r.title) ∧ x ≠ "" := by
  unfold cxByTitle
  rw [List.map_reverse, List.mem_reverse, List.map_filterMap]
  simp only [List.mem_filterMap, List.mem_map]
  constructor
  · rintro ⟨r, hr, hx⟩
    split at hx
    · next hne =>
      obtain rfl := Option.some_injective _ hx
      exact ⟨⟨r, hr, rfl⟩, hne⟩
    · exact absurd hx (Option.some_ne_none x).symm
  · rintro ⟨⟨r, hr, rfl⟩, hne⟩
    exact ⟨r, hr, by rw [if_pos hne]; rfl⟩

theorem mem_rpTitlesExisting {x : String} :
    x ∈ rpTitlesExisting listed ↔ x ∈ (listed.map fun r => Text.strip r.title) ∧ x ≠ "" := by
  unfold rpTitlesExisting
  rw [List.mem_filter, decide_eq_true_eq]

/-- What a loop knows of a listing: the titles in it that are not empty. -/
theorem listing_of_looked {kind : Post → Option String} {known : List String}
    (hshown : listed ⊆ w.remote.list kind)
    (hpage : (w.remote.list kind).length ≤ c.pageSize → w.remote.list kind ⊆ listed)
    (hknown : ∀ x, x ∈ known ↔ x ∈ (listed.map fun r => Text.strip r.title) ∧ x ≠ "") :
    Listing kind w ⟨known, w.titles kind, [], w.lostTitles kind⟩ where
  stored := rfl
  lost := rfl
  known x hx := by
    change x ∈ (w.remote.filterMap fun r => kind r.2).map Text.strip
    rw [← map_title_list]
    exact List.map_subset _ hshown ((hknown x).mp hx).1
  listed hlength x := by
    rw [World.length_titles] at hlength
    rw [hknown, decide_eq_true_eq]
    refine and_congr_left fun _ => ?_
    change _ ↔ x ∈ (w.remote.filterMap fun r => kind r.2).map Text.strip
    rw [← map_title_list]
    exact ⟨fun h => List.map_subset _ hshown h, fun h => List.map_subset _ (hpage hlength) h⟩
  created := rfl

/-- The room types are compared with the listing that has come. -/
theorem roomTypes_phase (hc : c.Documented) (property : UUID) (db : ProvisionDb) {cxPid : String}
    (hpid : Text.strip cxPid = cxPid) (hsame : w.Same w')
    (hlisting : Listing (Post.roomTypeOf cxPid) w
      ⟨(cxByTitle listed).map Prod.fst, w.titles (Post.roomTypeOf cxPid), [],
        w.lostTitles (Post.roomTypeOf cxPid)⟩) :
    PhaseEnds (Post.roomTypeOf cxPid) Text.strip (wantedRoomTypes property db) w
      (fun created rts => rts.created = created ∧
        ∀ pair ∈ ratePlanPairs property db, pair.2.id ∈ rts.omRtToCx.map Prod.fst)
      (provisionRoomTypes cxPid db (listRoomTypes property db)
        ⟨cxByTitle listed, [], 0, 0⟩ w') := by
  refine .imp (phase_cases hlisting hsame
    (provisionRoomTypes_pass hc hpid (hlisting.toShown.same hsame) rfl)) ?_
  intro created rts hdone
  obtain ⟨t, rfl, hcount, hids⟩ := hdone
  refine ⟨(hcount.trans (Nat.zero_add _)).symm, fun pair hpair => ?_⟩
  obtain ⟨rp, -, hmem⟩ := List.mem_flatMap.mp hpair
  obtain ⟨rt, hrt, rfl⟩ := List.mem_map.mp hmem
  exact hids (List.mem_append_right _ (List.mem_map_of_mem hrt))

theorem ratePlans_phase (hc : c.Documented) {cxPid : String} (currency : String)
    {omRtToCx : List (UUID × RemoteId)} (hpid : Text.strip cxPid = cxPid)
    (hall : ∀ pair ∈ ratePlanPairs property db, pair.2.id ∈ omRtToCx.map Prod.fst)
    (hsame : w.Same w')
    (hlisting : Listing (Post.ratePlanOf cxPid) w
      ⟨rpTitlesExisting listed, w.titles (Post.ratePlanOf cxPid), [],
        w.lostTitles (Post.ratePlanOf cxPid)⟩) :
    PhaseEnds (Post.ratePlanOf cxPid) listedTitle (wantedRatePlans property db) w
      (fun created rps => rps.created = created)
      (provisionRatePlans cxPid db currency omRtToCx (ratePlanPairs property db)
        ⟨rpTitlesExisting listed, 0, 0⟩ w') := by
  refine .imp (phase_cases hlisting hsame
    (provisionRatePlans_pass hc hpid hall (hlisting.toShown.same hsame) rfl)) ?_
  intro created rps hdone
  obtain ⟨t, rfl, hcount⟩ := hdone
  exact (hcount.trans (Nat.zero_add _)).symm

theorem provisioning_cases (hc : c.Documented) (hlink : getLink property db.toAriDb = some link)
    (hpid : Text.strip link.channexPropertyId = link.channexPropertyId) :
    Provisioning property db link.channexPropertyId w
      (provisionChannexFromOpenpms property db w) := by
  unfold provisionChannexFromOpenpms
  rw [hlink]
  simp only
  split
  · exact .refused _
  · split
    · exact .refused _
    · have hlooked := getRoomTypes_looked hc link.channexPropertyId w
      generalize getRoomTypes link.channexPropertyId w = out at hlooked
      cases hlooked with
      | error e hsame => exact .first _ (.unlisted hsame)
      | @ok _ listed hsame hshown hpage =>
        have hrooms := roomTypes_phase hc property db hpid hsame
          (listing_of_looked hshown hpage fun _ => mem_cxByTitle)
        simp only
        generalize provisionRoomTypes _ _ _ _ _ = out at hrooms
        cases hrooms with
        | error e h => exact .first e h
        | @ok w₂ created rts h hdone =>
          obtain ⟨rfl, hall⟩ := hdone
          have hlooked := getRatePlans_looked hc link.channexPropertyId w₂
          simp only
          generalize getRatePlans link.channexPropertyId w₂ = out at hlooked
          cases hlooked with
          | error e hsame => exact .second _ h (.unlisted hsame)
          | @ok _ listed hsame hshown hpage =>
            have hplans := ratePlans_phase hc
              (Text.upper (Text.strip (orText (db.currency property) "USD"))) hpid hall hsame
              (listing_of_looked hshown hpage fun _ => mem_rpTitlesExisting)
            simp only
            generalize provisionRatePlans _ _ _ _ _ _ _ = out at hplans
            cases hplans with
            | error e h' => exact .second e h h'
            | ok h' hcreated =>
              subst hcreated
              exact .done _ _ h h'

end Provisioning

end OpenPms.Channex
