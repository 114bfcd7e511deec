import OpenPms.ChannexOnboarding

/-!
What becomes of the connections of a tenant. The maps of a link are always such that the
pushes can use them. A link that a revision or a push refers to is never deleted, although the
webhook it records is.
-/
namespace OpenPms.Channex

open Ari

/-! The maps of a link -/

/-- The rows that the pushes and the provisioning read. -/
def OnboardingDb.provision (db : OnboardingDb) (base : ProvisionDb) : ProvisionDb :=
  { base with
    properties := db.properties
    roomTypes := db.roomTypes
    ratePlans := db.ratePlans
    links := db.links.map (·.ariLink)
    roomTypeMaps := db.roomTypeMaps.map (·.toChannexRoomTypeMap)
    ratePlanMaps := db.ratePlanMaps.map (·.toChannexRatePlanMap) }

section Maps
variable {db : OnboardingDb} {base : ProvisionDb} {link : LinkRow}

namespace OnboardingDb.WellFormed

theorem linksStripped (h : db.WellFormed) : LinksStripped (db.provision base) := by
  intro link hlink
  obtain ⟨row, hrow, rfl⟩ := List.mem_map.mp hlink
  exact (h.sound row hrow).stripped

theorem getLink_eq (h : db.WellFormed) (hlink : link ∈ db.links) :
    db.getLink link.propertyId = some link := by
  refine find?_eq_of_unique hlink (decide_eq_true rfl) fun l hl hproperty => ?_
  exact h.eq_of_property hl hlink (of_decide_eq_true hproperty)

theorem uniqueMaps (h : db.WellFormed) (hlink : link ∈ db.links)
    (hactive : link.status = "active") :
    UniqueMaps link.propertyId link.ariLink (db.provision base).toAriDb where
  found := by
    refine find?_eq_of_unique (List.mem_map_of_mem hlink) (decide_eq_true rfl) ?_
    intro l hl hproperty
    obtain ⟨row, hrow, rfl⟩ := List.mem_map.mp hl
    rw [h.eq_of_property hrow hlink (of_decide_eq_true hproperty)]
  active := hactive
  ids := by
    intro m hm m' hm' heq
    obtain ⟨row, hrow, rfl⟩ := List.mem_map.mp (mem_roomMapsOf.mp hm).1
    obtain ⟨row', hrow', rfl⟩ := List.mem_map.mp (mem_roomMapsOf.mp hm').1
    rw [List.inj_on_of_nodup_map h.roomMapIds hrow hrow' heq]
  roomTypes := by
    intro m hm m' hm' heq
    obtain ⟨hmem, hof⟩ := mem_roomMapsOf.mp hm
    obtain ⟨hmem', hof'⟩ := mem_roomMapsOf.mp hm'
    obtain ⟨row, hrow, rfl⟩ := List.mem_map.mp hmem
    obtain ⟨row', hrow', rfl⟩ := List.mem_map.mp hmem'
    have hkey : (row.propertyLinkId, row.roomTypeId) = (row'.propertyLinkId, row'.roomTypeId) :=
      Prod.ext (hof.trans hof'.symm) heq
    rw [List.inj_on_of_nodup_map h.roomMapTypes hrow hrow' hkey]
  ratePlans := by
    intro m hm m' hm' hmap hplan
    obtain ⟨row, hrow, rfl⟩ := List.mem_map.mp (mem_syncRateMaps.mp hm).1
    obtain ⟨row', hrow', rfl⟩ := List.mem_map.mp (mem_syncRateMaps.mp hm').1
    have hkey : (row.roomTypeMapId, row.ratePlanId) = (row'.roomTypeMapId, row'.ratePlanId) :=
      Prod.ext hmap hplan
    rw [List.inj_on_of_nodup_map h.rateMapPlans hrow hrow' hkey]

end OnboardingDb.WellFormed

/-- Whatever the requests of a tenant, and however those to Channex end: a property has at
most one link, its maps are unique and within the property, a link that was never activated
has no webhook, and the pushes of an active link find its maps. -/
theorem onboarding_maps {c : Service} {db₀ : OnboardingDb} {w₀ : World c}
    {s : OnboardingDb × World c} (h₀ : db₀.Unconnected) (hrun : OnboardingRun (db₀, w₀) s) :
    s.1.WellFormed ∧ ∀ base, LinksStripped (s.1.provision base) ∧
      ∀ link ∈ s.1.links, link.status = "active" →
        UniqueMaps link.propertyId link.ariLink (s.1.provision base).toAriDb := by
  have h : s.1.WellFormed := wellFormed_run (.unconnected h₀) hrun
  exact ⟨h, fun base => ⟨h.linksStripped, fun link hlink => h.uniqueMaps hlink⟩⟩

end Maps

namespace Demo

theorem cx_ne : "suite" ≠ "" := by decide

def tenantDb : OnboardingDb where
  properties := [1]
  roomTypes := KeyedTable.Table.empty.insert ⟨1, 1, "Suite", 2, 2, false⟩
  ratePlans := [⟨1, 1⟩]
  links := []
  roomTypeMaps := []
  ratePlanMaps := []
  references := []

def tenantEnv : OnboardingEnv where
  newId := fun n => 7 + n
  now := 0
  webhookUrl := "url"
  encrypt := some
  decrypt := some
  account := fun _ _ => .ok ["hotel"]
  commits := true

def tenantChannex : Service := channex 10 (fun _ => .answered) remoteId

def tenantWorld : World tenantChannex := ⟨.empty, []⟩

theorem tenantDb_unconnected : tenantDb.Unconnected :=
  ⟨List.nodup_singleton _, rfl, rfl, rfl⟩

/-- Connected, mapped and activated. -/
def tenantState : OnboardingDb × World tenantChannex :=
  serveOnboarding tenantEnv (.activate 1)
    (serveOnboarding tenantEnv (.saveRoomMappings 1 [⟨1, "suite", none, cx_ne⟩])
      (serveOnboarding tenantEnv (.connect 1 ⟨"key", "sandbox", " hotel "⟩)
        (tenantDb, tenantWorld)))

theorem tenant_run : OnboardingRun (tenantDb, tenantWorld) tenantState :=
  ((Relation.ReflTransGen.single (.request _ _)).tail (.request _ _)).tail (.request _ _)

def tenantLink : LinkRow :=
  ⟨⟨⟨7, 1⟩, "hotel", "active"⟩, some "x", "key", "sandbox", some 0, none, none⟩

theorem tenant_links : tenantState.1.links = [tenantLink] := by decide

end Demo

theorem onboarding_maps_demo :
    Demo.tenantState.1.roomTypeMaps.length = 1 ∧
      UniqueMaps 1 Demo.tenantLink.ariLink
        (Demo.tenantState.1.provision Demo.provisionDb).toAriDb := by
  refine ⟨by decide, ?_⟩
  have hmaps := onboarding_maps Demo.tenantDb_unconnected Demo.tenant_run
  exact (hmaps.2 Demo.provisionDb).2 Demo.tenantLink
    (Demo.tenant_links ▸ List.mem_singleton_self _) rfl

/-! The webhooks of Channex -/

section Webhooks
variable {c : Service} {w w' w'' : World c} {x : String}

namespace World.Advances

theorem refl (w : World c) : w.Advances w := ⟨Set.Subset.rfl, fun _ hx => .inl hx⟩

theorem trans (h : w.Advances w') (h' : w'.Advances w'') : w.Advances w'' where
  assigned := h.assigned.trans h'.assigned
  webhooks x hx := by
    rcases h'.webhooks x hx with hold | hnew
    · exact h.webhooks x hold
    · exact .inr fun hassigned => hnew (h.assigned hassigned)

/-- A webhook that is gone does not come back. -/
theorem gone (h : w.Advances w') (hgone : x ∉ w.webhooks) (hassigned : x ∈ c.assigned w.state) :
    x ∉ w'.webhooks := by
  intro hx
  rcases h.webhooks x hx with hold | hnew
  · exact hgone hold
  · exact hnew hassigned

/-- A request creates at most one webhook, under a new identifier, or deletes one. -/
theorem attempt (hc : c.Documented) (hi : c.Identifies) (call : Call) (w : World c) :
    w.Advances (World.attempt call w) where
  assigned := hi.kept call w.state
  webhooks x hx := by
    have hsame : ∀ {remote : Remote}, c.holds (c.after call w.state) = remote →
        x ∈ remote.webhooks := by
      rintro _ rfl
      exact hx
    cases call with
    | create post =>
      rcases hc.created post w.state with hnone | ⟨id, hid⟩
      · exact .inl (hsame hnone)
      · have hmem := hsame hid
        unfold Remote.webhooks at hmem
        rw [List.filterMap_cons] at hmem
        cases post with
        | webhook url events =>
          rcases List.mem_cons.mp hmem with rfl | hold
          · exact .inr (hi.fresh hid)
          · exact .inl hold
        | roomType body => exact .inl hmem
        | ratePlan body => exact .inl hmem
    | deleteWebhook webhookId =>
      rcases hi.deleted webhookId w.state with hnone | hdeleted
      · exact .inl (hsame hnone)
      · exact .inl ((List.filter_sublist.filterMap _).subset (hsame hdeleted))
    | roomTypes propertyId => exact .inl (hsame (hc.looked rfl w.state))
    | ratePlans propertyId => exact .inl (hsame (hc.looked rfl w.state))

theorem attempts (hc : c.Documented) (hi : c.Identifies) (call : Call) (n : ℕ) (w : World c) :
    w.Advances ((World.attempt call)^[n] w) := by
  induction n generalizing w with
  | zero => exact .refl w
  | succ n ih => exact (attempt hc hi call w).trans (ih _)

theorem call (hc : c.Documented) (hi : c.Identifies) (call : Call) (w : World c) :
    w.Advances (w.call call).2 :=
  attempts hc hi call _ w

end World.Advances

/-- A deletion whose first request takes effect has deleted the webhook, whatever becomes of
the answers. -/
theorem gone_of_deleteWebhook (hc : c.Documented) (hi : c.Identifies) {webhookId : String}
    (heffect : webhookId ∉ (World.attempt (.deleteWebhook webhookId) w).webhooks)
    (hassigned : webhookId ∈ c.assigned w.state) :
    webhookId ∉ (deleteWebhook webhookId w).2.webhooks := by
  have hcalled := World.call_cases (.deleteWebhook webhookId) w
  have hfirst := World.Advances.attempt hc hi (.deleteWebhook webhookId) w
  have hrequest : ∃ m, (w.call (.deleteWebhook webhookId)).2 =
      (World.attempt (.deleteWebhook webhookId))^[m + 1] w := by
    generalize w.call (.deleteWebhook webhookId) = out at hcalled
    cases hcalled with
    | error _ _ => exact ⟨_, rfl⟩
    | ok _ _ => exact ⟨_, rfl⟩
  obtain ⟨m, hm⟩ := hrequest
  change webhookId ∉ (w.call (.deleteWebhook webhookId)).2.webhooks
  rw [hm, Function.iterate_succ_apply]
  exact (World.Advances.attempts hc hi _ m _).gone heffect (hfirst.assigned hassigned)

/-- The webhook that a creation returns is assigned. -/
theorem createWebhook_assigned (hc : c.Documented) (hi : c.Identifies) {url : String}
    {events : List String} {resp : Answer} {wid : RemoteId}
    (hok : (createWebhook url events w).1 = .ok resp) (hwid : resp.createdId = some wid) :
    wid.text ∈ c.assigned (createWebhook url events w).2.state := by
  have hcalled := World.call_cases (.create (.webhook url events)) w
  unfold createWebhook at hok ⊢
  generalize w.call (.create (.webhook url events)) = out at hcalled hok
  cases hcalled with
  | error e _ => exact absurd hok (by simp)
  | @ok n _ hanswer =>
    obtain rfl := Except.ok.inj hok
    obtain ⟨id, hid, hholds⟩ := hc.answered _ _ hanswer
    obtain rfl : id = wid := Option.some.inj (hid.symm.trans hwid)
    rw [Function.iterate_succ_apply']
    refine hi.held _ (id, .webhook url events) ?_
    change _ ∈ c.holds (c.after _ _)
    rw [hholds]
    exact List.mem_cons_self ..

end Webhooks

/-! A link that stays -/

section InUse
variable {c : Service} {id property : UUID} {webhook : String} {env : OnboardingEnv}

/-- The property has a link that is referred to, whose webhook is not at Channex. -/
structure Stranded (id property : UUID) (webhook : String) (s : OnboardingDb × World c) :
    Prop where
  wellFormed : s.1.WellFormed
  link : ∃ l ∈ s.1.links, l.id = id ∧ l.propertyId = property ∧ l.webhookId = webhook
  referred : id ∈ s.1.references
  gone : webhook ∉ s.2.webhooks
  assigned : webhook ∈ c.assigned s.2.state

theorem disconnectRows_referred {link : LinkRow} {db : OnboardingDb}
    (h : link.id ∈ db.references) : disconnectRows link db = .error .integrity :=
  if_pos h

/-- What a request leaves of a link that is in use and has a webhook. -/
theorem keeps_link {db db' : OnboardingDb} {w w' : World c} (h : db.WellFormed) {l : LinkRow}
    (hl : l ∈ db.links) (hused : l.id ∈ db.references) (hwebhook : l.webhookId ≠ "")
    {req : OnboardingRequest} (hok : req.result env db w = (.ok db', w')) :
    db'.references = db.references ∧ ∃ l' ∈ db'.links, l'.id = l.id ∧
      l'.propertyId = l.propertyId ∧ l'.webhookId = l.webhookId := by
  cases req with
  | connect property body =>
    obtain ⟨row, _, _, _, _, rfl⟩ := connect_ok (Prod.mk.inj hok).1
    exact ⟨rfl, l, List.mem_cons_of_mem _ hl, rfl, rfl, rfl⟩
  | saveRoomMappings property mappings =>
    obtain ⟨_, _, rows, _, _, _, _, rfl⟩ := saveRoomMappings_ok (Prod.mk.inj hok).1
    exact ⟨rfl, l, hl, rfl, rfl, rfl⟩
  | saveRateMappings property mappings =>
    obtain ⟨_, _, rows, _, _, _, rfl⟩ := saveRateMappings_ok h (Prod.mk.inj hok).1
    exact ⟨rfl, l, hl, rfl, rfl, rfl⟩
  | activate property =>
    have hcases := activate_cases env property db w
    rw [show activate env property db w = _ from hok] at hcases
    cases hcases with
    | @posted link hlink hnone _ _ _ hout =>
      obtain ⟨wid, resp, _, _, rfl⟩ := hout db' rfl
      refine ⟨rfl, l, List.mem_map.mpr ⟨l, hl, if_neg fun heq => hwebhook ?_⟩, rfl, rfl, rfl⟩
      rw [h.eq_of_id hl (getLink_mem hlink).1 heq, hnone]
    | @kept link hlink =>
      refine ⟨rfl, _, List.mem_map_of_mem hl, ?_⟩
      split
      · next heq =>
        obtain rfl : l = link := h.eq_of_id hl (getLink_mem hlink).1 heq
        exact ⟨rfl, rfl, rfl⟩
      · exact ⟨rfl, rfl, rfl⟩
  | disconnect property =>
    have hcases := disconnect_cases env property db w
    rw [show disconnect env property db w = _ from hok] at hcases
    generalize hout : Except.ok db' = out at hcases
    cases hcases with
    | none =>
      obtain rfl := Except.ok.inj hout
      exact ⟨rfl, l, hl, rfl, rfl, rfl⟩
    | failed hlink e _ hw => exact absurd hout (by simp)
    | @rows link hlink _ hw =>
      unfold disconnectRows deleteLink at hout
      split_ifs at hout with hin
      obtain rfl := Except.ok.inj hout
      refine ⟨rfl, l, List.mem_filter.mpr ⟨hl, decide_eq_true fun heq => hin ?_⟩, rfl, rfl, rfl⟩
      exact heq ▸ hused

theorem advances_result (hc : c.Documented) (hi : c.Identifies) (env : OnboardingEnv)
    (req : OnboardingRequest) (db : OnboardingDb) (w : World c) :
    w.Advances (req.result env db w).2 := by
  cases req with
  | connect property body => exact .refl w
  | saveRoomMappings property mappings => exact .refl w
  | saveRateMappings property mappings => exact .refl w
  | activate property =>
    have hcases := activate_cases env property db w
    change w.Advances (activate env property db w).2
    generalize activate env property db w = out at hcases
    cases hcases with
    | unchanged e => exact .refl w
    | posted _ _ _ _ _ _ => exact .call hc hi _ w
    | kept _ => exact .refl w
  | disconnect property =>
    have hcases := disconnect_cases env property db w
    change w.Advances (disconnect env property db w).2
    generalize disconnect env property db w = out at hcases
    cases hcases with
    | none => exact .refl w
    | rows _ w' hw | failed _ _ w' hw =>
      rcases hw with hw | hw
      · exact hw ▸ .refl w
      · exact hw ▸ .call hc hi _ w

theorem serveOnboarding_world (req : OnboardingRequest) (s : OnboardingDb × World c) :
    (serveOnboarding env req s).2 = (req.result env s.1 s.2).2 := by
  unfold serveOnboarding
  split <;> next heq => rw [heq]

/-- The webhooks that the links record have been at Channex. -/
def Recorded (s : OnboardingDb × World c) : Prop :=
  ∀ link ∈ s.1.links, link.webhookId ≠ "" → link.webhookId ∈ c.assigned s.2.state

theorem Recorded.advance {db : OnboardingDb} {w w' : World c} (h : Recorded (db, w))
    (hadv : w.Advances w') : Recorded (db, w') :=
  fun link hlink hne => hadv.assigned (h link hlink hne)

theorem mem_setLink {db : OnboardingDb} {l link : LinkRow} (h : l ∈ (db.setLink link).links) :
    l = link ∨ l ∈ db.links := by
  obtain ⟨l', hl', rfl⟩ := List.mem_map.mp h
  split
  · exact .inl rfl
  · exact .inr hl'

/-- Only an activation records a webhook, the one it has created. -/
theorem recorded_result (hc : c.Documented) (hi : c.Identifies) {db db' : OnboardingDb}
    {w w' : World c} (hw : db.WellFormed) (h : Recorded (db, w)) {req : OnboardingRequest}
    (hok : req.result env db w = (.ok db', w')) : Recorded (db', w') := by
  have hworld : (req.result env db w).2 = w' := congrArg Prod.snd hok
  have hadv : Recorded (db, w') := h.advance (hworld ▸ advances_result hc hi env req db w)
  cases req with
  | connect property body =>
    obtain ⟨row, _, _, _, hnone, rfl⟩ := connect_ok (Prod.mk.inj hok).1
    refine List.forall_mem_cons.mpr ⟨fun hne => absurd ?_ hne, hadv⟩
    unfold LinkRow.webhookId
    rw [hnone]
    decide
  | saveRoomMappings property mappings =>
    obtain ⟨_, _, rows, _, _, _, _, rfl⟩ := saveRoomMappings_ok (Prod.mk.inj hok).1
    exact hadv
  | saveRateMappings property mappings =>
    obtain ⟨_, _, rows, _, _, _, rfl⟩ := saveRateMappings_ok hw (Prod.mk.inj hok).1
    exact hadv
  | activate property =>
    have hcases := activate_cases env property db w
    rw [show activate env property db w = _ from hok] at hcases
    cases hcases with
    | @posted link hlink _ _ _ _ hout =>
      obtain ⟨wid, resp, hresp, hwid, rfl⟩ := hout db' rfl
      intro l hl hne
      rcases mem_setLink hl with rfl | hold
      · have hassigned := createWebhook_assigned hc hi hresp hwid
        rw [← wid.stripped] at hassigned
        exact hassigned
      · exact hadv l hold hne
    | @kept link hlink =>
      intro l hl hne
      rcases mem_setLink hl with rfl | hold
      · exact hadv link (getLink_mem hlink).1 hne
      · exact hadv l hold hne
  | disconnect property =>
    have hcases := disconnect_cases env property db w
    rw [show disconnect env property db w = _ from hok] at hcases
    generalize hout : Except.ok db' = out at hcases
    cases hcases with
    | none =>
      obtain rfl := Except.ok.inj hout
      exact hadv
    | failed hlink e _ _ => exact absurd hout (by simp)
    | @rows link hlink _ _ =>
      unfold disconnectRows deleteLink at hout
      split_ifs at hout
      obtain rfl := Except.ok.inj hout
      exact fun l hl => hadv l (List.mem_of_mem_filter hl)

theorem recorded_step (hc : c.Documented) (hi : c.Identifies) {s s' : OnboardingDb × World c}
    (hw : s.1.WellFormed) (h : Recorded s) (hstep : OnboardingStep s s') : Recorded s' := by
  cases hstep with
  | request env req =>
    have hadv : Recorded (s.1, (req.result env s.1 s.2).2) :=
      h.advance (advances_result hc hi env req s.1 s.2)
    unfold serveOnboarding
    split
    · next db' w' hok =>
      rw [hok] at hadv
      change Recorded ((if env.commits then db' else s.1), w')
      split
      · exact recorded_result hc hi hw h hok
      · exact hadv
    · next hfail =>
      rw [hfail] at hadv
      exact hadv
  | sync link now =>
    intro l hl hne
    obtain ⟨l', hl', rfl⟩ := List.mem_map.mp hl
    have hsame : (if l'.id = link then { l' with lastSyncAt := some now } else l').webhookId =
        l'.webhookId := by split <;> rfl
    rw [hsame] at hne ⊢
    exact h l' hl' hne
  | refer link hlink => exact h
  | catalogue hcat => exact h
  | channex hadv => exact h.advance hadv

theorem recorded_run (hc : c.Documented) (hi : c.Identifies) {db₀ : OnboardingDb} {w₀ : World c}
    {s : OnboardingDb × World c} (h₀ : db₀.Unconnected) (hrun : OnboardingRun (db₀, w₀) s) :
    Recorded s := by
  induction hrun with
  | refl =>
    intro link hlink
    rw [show db₀.links = [] from h₀.2.1] at hlink
    exact absurd hlink List.not_mem_nil
  | tail hrun hstep ih =>
    exact recorded_step hc hi (wellFormed_run (.unconnected h₀) hrun) ih hstep

/-- Whatever becomes of the webhook, a link that is referred to stays, with its maps. -/
theorem serve_disconnect_referred (env : OnboardingEnv) {s : OnboardingDb × World c}
    {link : LinkRow} (h : s.1.WellFormed) (hlink : link ∈ s.1.links)
    (hused : link.id ∈ s.1.references) :
    (serveOnboarding env (.disconnect link.propertyId) s).1 = s.1 := by
  have hkept : ∀ db' w', disconnect env link.propertyId s.1 s.2 = (.ok db', w') → db' = s.1 := by
    intro db' w' hok
    have hcases := disconnect_cases env link.propertyId s.1 s.2
    rw [hok] at hcases
    generalize hout : Except.ok db' = out at hcases
    cases hcases with
    | none => exact Except.ok.inj hout
    | failed _ _ _ _ => exact absurd hout (by simp)
    | rows hfound _ _ =>
      rw [h.getLink_eq hlink] at hfound
      obtain rfl := Option.some.inj hfound
      exact absurd (hout.trans (disconnectRows_referred hused)) (by simp)
  unfold serveOnboarding
  split
  · next db' w' hok =>
    change (if env.commits then db' else s.1) = s.1
    rw [hkept db' w' hok, ite_self]
  · rfl

theorem disconnect_world {db : OnboardingDb} {w : World c} {link : LinkRow} (h : db.WellFormed)
    (hlink : link ∈ db.links) (hwebhook : link.webhookId ≠ "")
    (hkey : env.decrypt link.channexApiKey ≠ none) :
    (disconnect env link.propertyId db w).2 = (deleteWebhook link.webhookId w).2 := by
  unfold disconnect
  rw [h.getLink_eq hlink]
  simp only [if_neg hwebhook]
  split
  · next hnone => exact absurd hnone hkey
  · split <;> next hdelete => rw [hdelete]

namespace Stranded

theorem advance {db : OnboardingDb} {w w' : World c} (h : Stranded id property webhook (db, w))
    (hadv : w.Advances w') : Stranded id property webhook (db, w') where
  wellFormed := h.wellFormed
  link := h.link
  referred := h.referred
  gone := hadv.gone h.gone h.assigned
  assigned := hadv.assigned h.assigned

theorem serve (hc : c.Documented) (hi : c.Identifies) (hwebhook : webhook ≠ "")
    {s : OnboardingDb × World c} (h : Stranded id property webhook s) (req : OnboardingRequest) :
    Stranded id property webhook (serveOnboarding env req s) := by
  have hadv : Stranded id property webhook (s.1, (req.result env s.1 s.2).2) :=
    h.advance (advances_result hc hi env req s.1 s.2)
  have hwell : (serveOnboarding env req s).1.WellFormed := wellFormed_serve h.wellFormed req
  rw [← serveOnboarding_world req s] at hadv
  obtain ⟨l, hl, rfl, rfl, rfl⟩ := h.link
  unfold serveOnboarding at hadv hwell ⊢
  split
  · next db' w' hok =>
    rw [hok] at hadv hwell
    change (if env.commits then db' else s.1).WellFormed at hwell
    obtain ⟨hrefs, hlink⟩ := keeps_link h.wellFormed hl h.referred hwebhook hok
    refine ⟨hwell, ?_, ?_, hadv.gone, hadv.assigned⟩
    · change ∃ l' ∈ (if env.commits then db' else s.1).links, _
      split
      · exact hlink
      · exact ⟨l, hl, rfl, rfl, rfl⟩
    · change l.id ∈ (if env.commits then db' else s.1).references
      split
      · exact hrefs ▸ h.referred
      · exact h.referred
  · next e w' hfail =>
    rw [hfail] at hadv
    exact hadv

theorem step (hc : c.Documented) (hi : c.Identifies) (hwebhook : webhook ≠ "")
    {s s' : OnboardingDb × World c} (h : Stranded id property webhook s)
    (hstep : OnboardingStep s s') :
    Stranded id property webhook s' := by
  have hwell : s'.1.WellFormed := wellFormed_step h.wellFormed hstep
  obtain ⟨l, hl, hkeys⟩ := h.link
  cases hstep with
  | request env req => exact h.serve hc hi hwebhook req
  | sync link now =>
    refine ⟨hwell, ⟨_, List.mem_map_of_mem hl, ?_⟩, h.referred, h.gone, h.assigned⟩
    split
    · exact hkeys
    · exact hkeys
  | refer link hlink =>
    exact ⟨hwell, ⟨l, hl, hkeys⟩, List.mem_cons_of_mem _ h.referred, h.gone, h.assigned⟩
  | catalogue hcat => exact ⟨hwell, ⟨l, hl, hkeys⟩, h.referred, h.gone, h.assigned⟩
  | channex hadv => exact h.advance hadv

theorem run (hc : c.Documented) (hi : c.Identifies) (hwebhook : webhook ≠ "")
    {s s' : OnboardingDb × World c} (h : Stranded id property webhook s)
    (hrun : OnboardingRun s s') :
    Stranded id property webhook s' := by
  induction hrun with
  | refl => exact h
  | tail _ hstep ih => exact ih.step hc hi hwebhook hstep

/-- An activation is content with the webhook that the link records. -/
theorem activate (hwebhook : webhook ≠ "") {s : OnboardingDb × World c}
    (h : Stranded id property webhook s) :
    ∃ db', Channex.activate env property s.1 s.2 = (.ok db', s.2) := by
  obtain ⟨l, hl, rfl, rfl, rfl⟩ := h.link
  refine ⟨s.1.setLink (l.activated env.now), ?_⟩
  unfold Channex.activate
  rw [h.wellFormed.getLink_eq hl]
  exact if_neg fun hnone => hwebhook hnone.2

theorem disconnect {s : OnboardingDb × World c}
    (h : Stranded id property webhook s) :
    (serveOnboarding env (.disconnect property) s).1 = s.1 := by
  obtain ⟨l, hl, rfl, rfl, rfl⟩ := h.link
  exact serve_disconnect_referred env h.wellFormed hl h.referred

end Stranded

/-- A property whose link a revision or a push refers to is never disconnected: the rows of
each try are rolled back, while the webhook is deleted at Channex. From then on the link
records a webhook that is not there; activations go through, without one. -/
theorem disconnect_in_use (hc : c.Documented) (hi : c.Identifies) (env : OnboardingEnv)
    {db₀ : OnboardingDb} {w₀ : World c} {s t : OnboardingDb × World c} {link : LinkRow}
    (h₀ : db₀.Unconnected) (hrun : OnboardingRun (db₀, w₀) s) (hlink : link ∈ s.1.links)
    (hused : link.id ∈ s.1.references) (hwebhook : link.webhookId ≠ "")
    (hkey : env.decrypt link.channexApiKey ≠ none)
    (heffect : link.webhookId ∉ (World.attempt (.deleteWebhook link.webhookId) s.2).webhooks)
    (hafter : OnboardingRun (serveOnboarding env (.disconnect link.propertyId) s) t) :
    (serveOnboarding env (.disconnect link.propertyId) s).1 = s.1 ∧
      (∃ l ∈ t.1.links, l.id = link.id ∧ l.propertyId = link.propertyId ∧
        l.webhookId = link.webhookId) ∧ link.webhookId ∉ t.2.webhooks ∧
      ∀ env', (∃ db', activate env' link.propertyId t.1 t.2 = (.ok db', t.2)) ∧
        (serveOnboarding env' (.disconnect link.propertyId) t).1 = t.1 := by
  have hwell : s.1.WellFormed := wellFormed_run (.unconnected h₀) hrun
  have hrows := serve_disconnect_referred env hwell hlink hused
  have hassigned : link.webhookId ∈ c.assigned s.2.state :=
    recorded_run hc hi h₀ hrun link hlink hwebhook
  have hstranded : Stranded link.id link.propertyId link.webhookId
      (serveOnboarding env (.disconnect link.propertyId) s) := by
    have hadv := advances_result hc hi env (.disconnect link.propertyId) s.1 s.2
    rw [← serveOnboarding_world] at hadv
    refine ⟨hrows ▸ hwell, hrows ▸ ⟨link, hlink, rfl, rfl, rfl⟩, hrows ▸ hused, ?_,
      hadv.assigned hassigned⟩
    rw [serveOnboarding_world]
    change link.webhookId ∉ (disconnect env link.propertyId s.1 s.2).2.webhooks
    rw [disconnect_world hwell hlink hwebhook hkey]
    exact gone_of_deleteWebhook hc hi heffect hassigned
  have ht := hstranded.run hc hi hwebhook hafter
  exact ⟨hrows, ht.link, ht.gone, fun env' => ⟨ht.activate hwebhook, ht.disconnect⟩⟩

end InUse

namespace Demo

/-- A revision has come in. -/
def tenantInUse : OnboardingDb × World tenantChannex :=
  ({ tenantState.1 with references := 7 :: tenantState.1.references }, tenantState.2)

theorem tenantInUse_run : OnboardingRun (tenantDb, tenantWorld) tenantInUse :=
  tenant_run.tail (.refer 7 (by decide))

/-- Disconnected in vain, and activated again. -/
def tenantStranded : OnboardingDb × World tenantChannex :=
  serveOnboarding tenantEnv (.activate 1) (serveOnboarding tenantEnv (.disconnect 1) tenantInUse)

end Demo

theorem disconnect_in_use_demo :
    (serveOnboarding Demo.tenantEnv (.disconnect 1) Demo.tenantInUse).1 = Demo.tenantInUse.1 ∧
      "x" ∈ Demo.tenantInUse.2.webhooks ∧ "x" ∉ Demo.tenantStranded.2.webhooks := by
  have hlinks : Demo.tenantInUse.1.links = [Demo.tenantLink] := Demo.tenant_links
  have hout := disconnect_in_use Demo.channex_documented
    (Demo.channex_identifies Demo.remoteId_injective) Demo.tenantEnv Demo.tenantDb_unconnected
    Demo.tenantInUse_run (hlinks ▸ List.mem_singleton_self _) (List.mem_cons_self ..)
    (by decide) (Option.some_ne_none _) (by decide) (t := Demo.tenantStranded)
    (Relation.ReflTransGen.single (.request _ _))
  exact ⟨hout.1, by decide, hout.2.2.1⟩

end OpenPms.Channex
