import OpenPms.AriAgreement
import OpenPms.ProvisioningRuns

/-!
Connecting a property to Channex: the link, the maps of its room types and rate plans, and
the webhook that Channex calls. Each request is one transaction. What it does at Channex
stays done when the transaction fails.
-/
namespace OpenPms.Channex

open KeyedTable

/-! Rows -/

structure LinkRow extends ariLink : Ari.ChannexPropertyLink where
  channexWebhookId : Option String
  channexApiKey : String
  channexEnv : String
  connectedAt : Option ℤ
  lastSyncAt : Option ℤ
  errorMessage : Option String
  deriving DecidableEq

structure RoomTypeMapRow extends ChannexRoomTypeMap where
  channexRoomTypeName : Option String
  deriving DecidableEq

structure RatePlanMapRow extends ChannexRatePlanMap where
  channexRatePlanName : Option String
  deriving DecidableEq

/-- `references` are the links of the booking revisions and of the logged pushes, which are
never deleted. -/
structure OnboardingDb where
  properties : List UUID
  roomTypes : Table RoomType.id
  ratePlans : List RatePlan
  links : List LinkRow
  roomTypeMaps : List RoomTypeMapRow
  ratePlanMaps : List RatePlanMapRow
  references : List UUID

inductive OnboardingError where
  | service (detail : String) (statusCode : ℕ)
  | escaped (e : ClientError)
  | cipher
  | tooLong
  | integrity
  deriving DecidableEq

def ProvisionError.onboarding : ProvisionError → OnboardingError
  | .service detail statusCode => .service detail statusCode
  | .escaped e => .escaped e

/-- `account` is what the listing of the properties of an API key comes to, and `none` of the
ciphers is an exception of theirs. A transaction that is not killed `commits`. -/
structure OnboardingEnv where
  newId : ℕ → UUID
  now : ℤ
  webhookUrl : String
  encrypt : String → Option String
  decrypt : String → Option String
  account : String → String → Except ClientError (List String)
  commits : Bool

/-! The connection -/

structure ChannexConnectRequest where
  apiKey : String
  env : String
  channexPropertyId : String

def normalizeEnv (env : String) : Except OnboardingError String :=
  let e := Text.lower (Text.strip (if env = "" then "production" else env))
  if e = "production" ∨ e = "sandbox" then .ok e
  else .error (.service "env must be 'production' or 'sandbox'" 422)

def OnboardingDb.getLink (property : UUID) (db : OnboardingDb) : Option LinkRow :=
  db.links.find? fun l => l.propertyId = property

def notConnected : OnboardingError := .service "Channex is not connected for this property" 404

def flushLink (row : LinkRow) (db : OnboardingDb) : Except OnboardingError OnboardingDb :=
  if 36 < row.channexPropertyId.length then .error .tooLong
  else if row.propertyId ∉ db.properties ∨ row.id ∈ db.links.map (·.id) ∨
      row.propertyId ∈ db.links.map (·.propertyId) then .error .integrity
  else .ok { db with links := row :: db.links }

def connect (env : OnboardingEnv) (property : UUID) (body : ChannexConnectRequest)
    (db : OnboardingDb) : Except OnboardingError OnboardingDb :=
  match normalizeEnv body.env with
  | .error e => .error e
  | .ok e =>
    let key := Text.strip body.apiKey
    let cxProp := Text.strip body.channexPropertyId
    if (db.getLink property).isSome then
      .error (.service "Channex is already connected for this property" 409)
    else
      match env.account key e with
      | .error err => .error (channexHttpToService err).onboarding
      | .ok props =>
        if cxProp ∉ props then
          .error (.service "Selected Channex property is not available for this API key" 422)
        else
          match env.encrypt key with
          | none => .error .cipher
          | some encrypted =>
            flushLink ⟨⟨⟨env.newId 0, property⟩, cxProp, "pending"⟩, none, encrypted, e, none,
              none, none⟩ db

/-! The maps -/

/-- The identifiers at Channex have a least length of one. -/
structure RoomMappingItem where
  roomTypeId : UUID
  channexRoomTypeId : String
  channexRoomTypeName : Option String
  nonempty : channexRoomTypeId ≠ ""

structure RateMappingItem where
  roomTypeMapId : UUID
  ratePlanId : UUID
  channexRatePlanId : String
  channexRatePlanName : Option String
  nonempty : channexRatePlanId ≠ ""

def OnboardingDb.mapIdsOf (link : LinkRow) (db : OnboardingDb) : List UUID :=
  (db.roomTypeMaps.filter fun m => m.propertyLinkId = link.id).map (·.id)

def deleteRatePlanMaps (link : LinkRow) (db : OnboardingDb) : OnboardingDb :=
  { db with ratePlanMaps := db.ratePlanMaps.filter fun m => m.roomTypeMapId ∉ db.mapIdsOf link }

def deleteRoomTypeMaps (link : LinkRow) (db : OnboardingDb) : OnboardingDb :=
  { db with roomTypeMaps := db.roomTypeMaps.filter fun m => m.propertyLinkId ≠ link.id }

/-- The count of the rows of `ids` that belong to the property is that of the set of `ids`. -/
def roomTypesBelongToProperty (property : UUID) (ids : List UUID) (db : OnboardingDb) : Bool :=
  ids = [] || (db.roomTypes.rows.filter fun rt =>
    rt.propertyId = property ∧ rt.id ∈ ids ∧ rt.deleted = false).length = ids.dedup.length

def ratePlansBelongToProperty (property : UUID) (ids : List UUID) (db : OnboardingDb) : Bool :=
  ids = [] || (db.ratePlans.filter fun rp =>
    rp.propertyId = property ∧ rp.id ∈ ids).length = ids.dedup.length

def tooLongName (name : Option String) : Prop := ∃ s ∈ name, 255 < s.length

instance (name : Option String) : Decidable (tooLongName name) :=
  inferInstanceAs (Decidable (∃ s ∈ name, 255 < s.length))

def flushRoomTypeMaps (rows : List RoomTypeMapRow) (db : OnboardingDb) :
    Except OnboardingError OnboardingDb :=
  let all := rows ++ db.roomTypeMaps
  if ∃ m ∈ rows, 36 < m.channexRoomTypeId.length ∨ tooLongName m.channexRoomTypeName then
    .error .tooLong
  else if ¬ (all.map (·.id)).Nodup ∨ ¬ (all.map fun m => (m.propertyLinkId, m.roomTypeId)).Nodup ∨
      ¬ (all.map fun m => (m.propertyLinkId, m.channexRoomTypeId)).Nodup then .error .integrity
  else .ok { db with roomTypeMaps := all }

def flushRatePlanMaps (rows : List RatePlanMapRow) (db : OnboardingDb) :
    Except OnboardingError OnboardingDb :=
  let all := rows ++ db.ratePlanMaps
  if ∃ m ∈ rows, 36 < m.channexRatePlanId.length ∨ tooLongName m.channexRatePlanName then
    .error .tooLong
  else if ¬ (all.map (·.id)).Nodup ∨ ¬ (all.map fun m => (m.roomTypeMapId, m.ratePlanId)).Nodup then
    .error .integrity
  else .ok { db with ratePlanMaps := all }

def roomTypeMapRows (env : OnboardingEnv) (link : LinkRow) (mappings : List RoomMappingItem) :
    List RoomTypeMapRow :=
  mappings.mapIdx fun i m =>
    ⟨⟨env.newId i, link.id, m.roomTypeId, Text.strip m.channexRoomTypeId⟩, m.channexRoomTypeName⟩

def ratePlanMapRows (env : OnboardingEnv) (mappings : List RateMappingItem) :
    List RatePlanMapRow :=
  mappings.mapIdx fun i m =>
    ⟨⟨env.newId i, m.roomTypeMapId, m.ratePlanId, Text.strip m.channexRatePlanId⟩,
      m.channexRatePlanName⟩

def saveRoomMappings (env : OnboardingEnv) (property : UUID) (mappings : List RoomMappingItem)
    (db : OnboardingDb) : Except OnboardingError OnboardingDb :=
  match db.getLink property with
  | none => .error notConnected
  | some link =>
    if ¬ (mappings.map (·.roomTypeId)).Nodup then
      .error (.service "Duplicate OpenPMS room type in mappings" 422)
    else if ¬ (mappings.map (·.channexRoomTypeId)).Nodup then
      .error (.service "Duplicate Channex room type in mappings" 422)
    else if roomTypesBelongToProperty property (mappings.map (·.roomTypeId)) db = false then
      .error (.service "One or more room types are invalid for this property" 422)
    else flushRoomTypeMaps (roomTypeMapRows env link mappings)
      (deleteRoomTypeMaps link (deleteRatePlanMaps link db))

def saveRateMappings (env : OnboardingEnv) (property : UUID) (mappings : List RateMappingItem)
    (db : OnboardingDb) : Except OnboardingError OnboardingDb :=
  match db.getLink property with
  | none => .error notConnected
  | some link =>
    if mappings.isEmpty then .ok (deleteRatePlanMaps link db)
    else if ¬ (mappings.map fun m => (m.roomTypeMapId, m.ratePlanId)).Nodup then
      .error (.service "Duplicate room category and rate plan combination in mappings" 422)
    else if ¬ ∀ m ∈ mappings, m.roomTypeMapId ∈ db.mapIdsOf link then
      .error (.service "One or more room type mappings are invalid for this connection" 422)
    else if ratePlansBelongToProperty property (mappings.map (·.ratePlanId)) db = false then
      .error (.service "One or more rate plans are invalid for this property" 422)
    else flushRatePlanMaps (ratePlanMapRows env mappings) (deleteRatePlanMaps link db)

/-! The webhook -/

def World.webhooks {c : Service} (w : World c) : List String := w.remote.webhooks

def createWebhook {c : Service} (url : String) (events : List String) (w : World c) :
    Except ClientError Answer × World c :=
  w.call (.create (.webhook url events))

def deleteWebhook {c : Service} (webhookId : String) (w : World c) :
    Except ClientError Unit × World c :=
  let out := w.call (.deleteWebhook webhookId)
  (out.1.map fun _ => (), out.2)

def LinkRow.webhookId (link : LinkRow) : String := Text.strip (link.channexWebhookId.getD "")

def OnboardingDb.setLink (link : LinkRow) (db : OnboardingDb) : OnboardingDb :=
  { db with links := db.links.map fun l => if l.id = link.id then link else l }

/-- The link as it is when it is active. -/
def LinkRow.activated (link : LinkRow) (now : ℤ) : LinkRow :=
  { link with
    status := "active", connectedAt := some (link.connectedAt.getD now), errorMessage := none }

def activate {c : Service} (env : OnboardingEnv) (property : UUID) (db : OnboardingDb)
    (w : World c) : Except OnboardingError OnboardingDb × World c :=
  match db.getLink property with
  | none => (.error notConnected, w)
  | some link =>
    if Text.strip env.webhookUrl ≠ "" ∧ link.webhookId = "" then
      match env.decrypt link.channexApiKey with
      | none => (.error .cipher, w)
      | some _ =>
        match createWebhook (Text.strip env.webhookUrl) ["booking", "ari"] w with
        | (.error e, w') => (.error (channexHttpToService e).onboarding, w')
        | (.ok resp, w') =>
          match resp.createdId with
          | none => (.error (.service "Channex webhook response missing id" 502), w')
          | some wid =>
            if 36 < wid.text.length then (.error .tooLong, w')
            else (.ok (db.setLink
              ({ link with channexWebhookId := some wid.text }.activated env.now)), w')
    else (.ok (db.setLink (link.activated env.now)), w)

/-- A row that is referred to is not deleted. -/
def deleteLink (link : LinkRow) (db : OnboardingDb) : Except OnboardingError OnboardingDb :=
  if link.id ∈ db.references then .error .integrity
  else .ok { db with links := db.links.filter fun l => l.id ≠ link.id }

def disconnectRows (link : LinkRow) (db : OnboardingDb) : Except OnboardingError OnboardingDb :=
  deleteLink link (deleteRoomTypeMaps link (deleteRatePlanMaps link db))

/-- An error of Channex is only logged. -/
def disconnect {c : Service} (env : OnboardingEnv) (property : UUID) (db : OnboardingDb)
    (w : World c) : Except OnboardingError OnboardingDb × World c :=
  match db.getLink property with
  | none => (.ok db, w)
  | some link =>
    if link.webhookId = "" then (disconnectRows link db, w)
    else
      match env.decrypt link.channexApiKey with
      | none => (.error .cipher, w)
      | some _ =>
        match deleteWebhook link.webhookId w with
        | (.ok (), w') => (disconnectRows link db, w')
        | (.error (.channexApi _ _ _), w') => (disconnectRows link db, w')
        | (.error e, w') => (.error (.escaped e), w')

/-! Requests -/

inductive OnboardingRequest where
  | connect (property : UUID) (body : ChannexConnectRequest)
  | saveRoomMappings (property : UUID) (mappings : List RoomMappingItem)
  | saveRateMappings (property : UUID) (mappings : List RateMappingItem)
  | activate (property : UUID)
  | disconnect (property : UUID)

def OnboardingRequest.result {c : Service} (env : OnboardingEnv) (db : OnboardingDb)
    (w : World c) : OnboardingRequest → Except OnboardingError OnboardingDb × World c
  | connect property body => (Channex.connect env property body db, w)
  | saveRoomMappings property mappings => (Channex.saveRoomMappings env property mappings db, w)
  | saveRateMappings property mappings => (Channex.saveRateMappings env property mappings db, w)
  | activate property => Channex.activate env property db w
  | disconnect property => Channex.disconnect env property db w

/-- The rows of a request that fails, or is killed, are rolled back. -/
def serveOnboarding {c : Service} (env : OnboardingEnv) (req : OnboardingRequest)
    (s : OnboardingDb × World c) : OnboardingDb × World c :=
  match req.result env s.1 s.2 with
  | (.ok db, w) => (if env.commits then db else s.1, w)
  | (.error _, w) => (s.1, w)

/-! Runs -/

/-- A revision that is done writes of its link when it was synced. -/
def synced (link : UUID) (now : ℤ) (db : OnboardingDb) : OnboardingDb :=
  { db with
    links := db.links.map fun l => if l.id = link then { l with lastSyncAt := some now } else l }

/-- Room types and rate plans come and change, but keep their property; those that are mapped
stay. -/
structure Catalogue (db : OnboardingDb) (roomTypes : Table RoomType.id) (ratePlans : List RatePlan) :
    Prop where
  planIds : (ratePlans.map (·.id)).Nodup
  roomTypes : ∀ m ∈ db.roomTypeMaps, ∀ rt ∈ db.roomTypes.rows, rt.id = m.roomTypeId →
    ∃ rt' ∈ roomTypes.rows, rt'.id = rt.id ∧ rt'.propertyId = rt.propertyId
  ratePlans : ∀ m ∈ db.ratePlanMaps, ∀ rp ∈ db.ratePlans, rp.id = m.ratePlanId →
    ∃ rp' ∈ ratePlans, rp'.id = rp.id ∧ rp'.propertyId = rp.propertyId

/-- Later at Channex: a webhook was there before, or has a new identifier. -/
structure World.Advances {c : Service} (w w' : World c) : Prop where
  assigned : c.assigned w.state ⊆ c.assigned w'.state
  webhooks : ∀ x ∈ w'.webhooks, x ∈ w.webhooks ∨ x ∉ c.assigned w.state

inductive OnboardingStep {c : Service} : OnboardingDb × World c → OnboardingDb × World c → Prop
  | request {s : OnboardingDb × World c} (env : OnboardingEnv) (req : OnboardingRequest) :
      OnboardingStep s (serveOnboarding env req s)
  | sync {db : OnboardingDb} {w : World c} (link : UUID) (now : ℤ) :
      OnboardingStep (db, w) (synced link now db, w)
  | refer {db : OnboardingDb} {w : World c} (link : UUID) (h : link ∈ db.links.map (·.id)) :
      OnboardingStep (db, w) ({ db with references := link :: db.references }, w)
  | catalogue {db : OnboardingDb} {w : World c} {roomTypes : Table RoomType.id}
      {ratePlans : List RatePlan} (h : Catalogue db roomTypes ratePlans) :
      OnboardingStep (db, w) ({ db with roomTypes := roomTypes, ratePlans := ratePlans }, w)
  | channex {db : OnboardingDb} {w w' : World c} (h : w.Advances w') :
      OnboardingStep (db, w) (db, w')

abbrev OnboardingRun {c : Service} : OnboardingDb × World c → OnboardingDb × World c → Prop :=
  Relation.ReflTransGen OnboardingStep

/-- A tenant that has connected nothing. -/
def OnboardingDb.Unconnected (db : OnboardingDb) : Prop :=
  (db.ratePlans.map (·.id)).Nodup ∧ db.links = [] ∧ db.roomTypeMaps = [] ∧ db.ratePlanMaps = []

/-! What every state keeps -/

/-- A link that was never activated has no webhook. -/
structure LinkRow.Sound (link : LinkRow) : Prop where
  stripped : Text.strip link.channexPropertyId = link.channexPropertyId
  state : link.status = "pending" ∧ link.connectedAt = none ∧ link.channexWebhookId = none ∨
    link.status = "active" ∧ link.connectedAt ≠ none

theorem LinkRow.Sound.activated {link : LinkRow} (h : link.Sound) (wid : Option String) (now : ℤ) :
    (LinkRow.activated { link with channexWebhookId := wid } now).Sound where
  stripped := h.stripped
  state := .inr ⟨rfl, Option.some_ne_none _⟩

structure OnboardingDb.WellFormed (db : OnboardingDb) : Prop where
  planIds : (db.ratePlans.map (·.id)).Nodup
  linkIds : (db.links.map (·.id)).Nodup
  linkProperties : (db.links.map (·.propertyId)).Nodup
  sound : ∀ link ∈ db.links, link.Sound
  roomMapIds : (db.roomTypeMaps.map (·.id)).Nodup
  roomMapTypes : (db.roomTypeMaps.map fun m => (m.propertyLinkId, m.roomTypeId)).Nodup
  roomMapTargets : (db.roomTypeMaps.map fun m => (m.propertyLinkId, m.channexRoomTypeId)).Nodup
  rateMapIds : (db.ratePlanMaps.map (·.id)).Nodup
  rateMapPlans : (db.ratePlanMaps.map fun m => (m.roomTypeMapId, m.ratePlanId)).Nodup
  roomMaps : ∀ m ∈ db.roomTypeMaps, ∃ link ∈ db.links, link.id = m.propertyLinkId ∧
    ∃ rt ∈ db.roomTypes.rows, rt.id = m.roomTypeId ∧ rt.propertyId = link.propertyId
  rateMaps : ∀ m ∈ db.ratePlanMaps, ∃ rm ∈ db.roomTypeMaps, rm.id = m.roomTypeMapId ∧
    ∃ link ∈ db.links, link.id = rm.propertyLinkId ∧
      ∃ rp ∈ db.ratePlans, rp.id = m.ratePlanId ∧ rp.propertyId = link.propertyId

namespace OnboardingDb.WellFormed
variable {db : OnboardingDb} {link : LinkRow} {property : UUID}

theorem unconnected (h : db.Unconnected) : db.WellFormed := by
  obtain ⟨hplans, hlinks, hrooms, hrates⟩ := h
  constructor <;> simp_all

theorem eq_of_id (h : db.WellFormed) {l l' : LinkRow} (hl : l ∈ db.links) (hl' : l' ∈ db.links)
    (heq : l.id = l'.id) : l = l' :=
  List.inj_on_of_nodup_map h.linkIds hl hl' heq

theorem eq_of_property (h : db.WellFormed) {l l' : LinkRow} (hl : l ∈ db.links)
    (hl' : l' ∈ db.links) (heq : l.propertyId = l'.propertyId) : l = l' :=
  List.inj_on_of_nodup_map h.linkProperties hl hl' heq

theorem insertLink (h : db.WellFormed) {row : LinkRow} (hid : row.id ∉ db.links.map (·.id))
    (hproperty : row.propertyId ∉ db.links.map (·.propertyId))
    (hsound : row.Sound) :
    ({ db with links := row :: db.links } : OnboardingDb).WellFormed where
  planIds := h.planIds
  linkIds := List.nodup_cons.mpr ⟨hid, h.linkIds⟩
  linkProperties := List.nodup_cons.mpr ⟨hproperty, h.linkProperties⟩
  sound := List.forall_mem_cons.mpr ⟨hsound, h.sound⟩
  roomMapIds := h.roomMapIds
  roomMapTypes := h.roomMapTypes
  roomMapTargets := h.roomMapTargets
  rateMapIds := h.rateMapIds
  rateMapPlans := h.rateMapPlans
  roomMaps m hm := by
    obtain ⟨link, hlink, hrest⟩ := h.roomMaps m hm
    exact ⟨link, List.mem_cons_of_mem _ hlink, hrest⟩
  rateMaps m hm := by
    obtain ⟨rm, hrm, hid, link, hlink, hrest⟩ := h.rateMaps m hm
    exact ⟨rm, hrm, hid, link, List.mem_cons_of_mem _ hlink, hrest⟩

/-- Links change in columns that no other row looks at. -/
theorem mapLinks (h : db.WellFormed) {f : LinkRow → LinkRow}
    (hf : ∀ l ∈ db.links, (f l).id = l.id ∧ (f l).propertyId = l.propertyId ∧ (f l).Sound) :
    ({ db with links := db.links.map f } : OnboardingDb).WellFormed where
  planIds := h.planIds
  linkIds := by
    have hids : db.links.map (fun l => (f l).id) = db.links.map (·.id) :=
      List.map_congr_left fun l hl => (hf l hl).1
    rw [List.map_map]
    exact hids ▸ h.linkIds
  linkProperties := by
    have hproperties : db.links.map (fun l => (f l).propertyId) = db.links.map (·.propertyId) :=
      List.map_congr_left fun l hl => (hf l hl).2.1
    rw [List.map_map]
    exact hproperties ▸ h.linkProperties
  sound := by
    intro link hlink
    obtain ⟨l, hl, rfl⟩ := List.mem_map.mp hlink
    exact (hf l hl).2.2
  roomMapIds := h.roomMapIds
  roomMapTypes := h.roomMapTypes
  roomMapTargets := h.roomMapTargets
  rateMapIds := h.rateMapIds
  rateMapPlans := h.rateMapPlans
  roomMaps m hm := by
    obtain ⟨link, hlink, hid, rt, hrt, hrtid, hproperty⟩ := h.roomMaps m hm
    exact ⟨f link, List.mem_map_of_mem hlink, (hf link hlink).1.trans hid, rt, hrt, hrtid,
      hproperty.trans (hf link hlink).2.1.symm⟩
  rateMaps m hm := by
    obtain ⟨rm, hrm, hrmid, link, hlink, hid, rp, hrp, hrpid, hproperty⟩ := h.rateMaps m hm
    exact ⟨rm, hrm, hrmid, f link, List.mem_map_of_mem hlink, (hf link hlink).1.trans hid, rp, hrp,
      hrpid, hproperty.trans (hf link hlink).2.1.symm⟩

theorem deleteRatePlanMaps (h : db.WellFormed) :
    (Channex.deleteRatePlanMaps link db).WellFormed where
  planIds := h.planIds
  linkIds := h.linkIds
  linkProperties := h.linkProperties
  sound := h.sound
  roomMapIds := h.roomMapIds
  roomMapTypes := h.roomMapTypes
  roomMapTargets := h.roomMapTargets
  rateMapIds := h.rateMapIds.sublist (List.filter_sublist.map _)
  rateMapPlans := h.rateMapPlans.sublist (List.filter_sublist.map _)
  roomMaps := h.roomMaps
  rateMaps m hm := h.rateMaps m (List.mem_of_mem_filter hm)

/-- The rate plans of a link are unmapped before its room types. -/
theorem cleared (h : db.WellFormed) :
    (deleteRoomTypeMaps link (Channex.deleteRatePlanMaps link db)).WellFormed where
  planIds := h.planIds
  linkIds := h.linkIds
  linkProperties := h.linkProperties
  sound := h.sound
  roomMapIds := h.roomMapIds.sublist (List.filter_sublist.map _)
  roomMapTypes := h.roomMapTypes.sublist (List.filter_sublist.map _)
  roomMapTargets := h.roomMapTargets.sublist (List.filter_sublist.map _)
  rateMapIds := h.rateMapIds.sublist (List.filter_sublist.map _)
  rateMapPlans := h.rateMapPlans.sublist (List.filter_sublist.map _)
  roomMaps m hm := h.roomMaps m (List.mem_of_mem_filter hm)
  rateMaps m hm := by
    obtain ⟨hmem, hout⟩ := List.mem_filter.mp hm
    obtain ⟨rm, hrm, hid, hrest⟩ := h.rateMaps m hmem
    refine ⟨rm, List.mem_filter.mpr ⟨hrm, decide_eq_true fun hlink => ?_⟩, hid, hrest⟩
    refine of_decide_eq_true hout (hid ▸ ?_)
    exact List.mem_map_of_mem (List.mem_filter.mpr ⟨hrm, decide_eq_true hlink⟩)

/-- Room types of the property of a link are mapped. -/
theorem insertRoomTypeMaps (h : db.WellFormed) {rows : List RoomTypeMapRow}
    (hids : ((rows ++ db.roomTypeMaps).map (·.id)).Nodup)
    (htypes : ((rows ++ db.roomTypeMaps).map fun m => (m.propertyLinkId, m.roomTypeId)).Nodup)
    (htargets : ((rows ++ db.roomTypeMaps).map fun m =>
      (m.propertyLinkId, m.channexRoomTypeId)).Nodup)
    (hrows : ∀ m ∈ rows, ∃ link ∈ db.links, link.id = m.propertyLinkId ∧
      ∃ rt ∈ db.roomTypes.rows, rt.id = m.roomTypeId ∧ rt.propertyId = link.propertyId) :
    ({ db with roomTypeMaps := rows ++ db.roomTypeMaps } : OnboardingDb).WellFormed where
  planIds := h.planIds
  linkIds := h.linkIds
  linkProperties := h.linkProperties
  sound := h.sound
  roomMapIds := hids
  roomMapTypes := htypes
  roomMapTargets := htargets
  rateMapIds := h.rateMapIds
  rateMapPlans := h.rateMapPlans
  roomMaps m hm := (List.mem_append.mp hm).elim (hrows m) (h.roomMaps m)
  rateMaps m hm := by
    obtain ⟨rm, hrm, hrest⟩ := h.rateMaps m hm
    exact ⟨rm, List.mem_append_right _ hrm, hrest⟩

theorem insertRatePlanMaps (h : db.WellFormed) {rows : List RatePlanMapRow}
    (hids : ((rows ++ db.ratePlanMaps).map (·.id)).Nodup)
    (hplans : ((rows ++ db.ratePlanMaps).map fun m => (m.roomTypeMapId, m.ratePlanId)).Nodup)
    (hrows : ∀ m ∈ rows, ∃ rm ∈ db.roomTypeMaps, rm.id = m.roomTypeMapId ∧
      ∃ link ∈ db.links, link.id = rm.propertyLinkId ∧
        ∃ rp ∈ db.ratePlans, rp.id = m.ratePlanId ∧ rp.propertyId = link.propertyId) :
    ({ db with ratePlanMaps := rows ++ db.ratePlanMaps } : OnboardingDb).WellFormed :=
  { h with
    rateMapIds := hids
    rateMapPlans := hplans
    rateMaps := fun m hm => (List.mem_append.mp hm).elim (hrows m) (h.rateMaps m) }

/-- The link goes last, when no map is left of it. -/
theorem eraseLink (h : db.WellFormed) (hnone : ∀ m ∈ db.roomTypeMaps, m.propertyLinkId ≠ link.id) :
    ({ db with links := db.links.filter fun l => l.id ≠ link.id } : OnboardingDb).WellFormed where
  planIds := h.planIds
  linkIds := h.linkIds.sublist (List.filter_sublist.map _)
  linkProperties := h.linkProperties.sublist (List.filter_sublist.map _)
  sound l hl := h.sound l (List.mem_of_mem_filter hl)
  roomMapIds := h.roomMapIds
  roomMapTypes := h.roomMapTypes
  roomMapTargets := h.roomMapTargets
  rateMapIds := h.rateMapIds
  rateMapPlans := h.rateMapPlans
  roomMaps m hm := by
    obtain ⟨l, hl, hid, hrest⟩ := h.roomMaps m hm
    exact ⟨l, List.mem_filter.mpr ⟨hl, decide_eq_true (hid ▸ hnone m hm)⟩, hid, hrest⟩
  rateMaps m hm := by
    obtain ⟨rm, hrm, hrmid, l, hl, hid, hrest⟩ := h.rateMaps m hm
    exact ⟨rm, hrm, hrmid, l, List.mem_filter.mpr ⟨hl, decide_eq_true (hid ▸ hnone rm hrm)⟩, hid,
      hrest⟩

theorem recatalogue (h : db.WellFormed) {roomTypes : Table RoomType.id}
    {ratePlans : List RatePlan} (hcat : Catalogue db roomTypes ratePlans) :
    ({ db with roomTypes := roomTypes, ratePlans := ratePlans } : OnboardingDb).WellFormed :=
  { h with
    planIds := hcat.planIds
    roomMaps := fun m hm => by
      obtain ⟨link, hlink, hid, rt, hrt, hrtid, hproperty⟩ := h.roomMaps m hm
      obtain ⟨rt', hrt', hid', hproperty'⟩ := hcat.roomTypes m hm rt hrt hrtid
      exact ⟨link, hlink, hid, rt', hrt', hid'.trans hrtid, hproperty'.trans hproperty⟩
    rateMaps := fun m hm => by
      obtain ⟨rm, hrm, hrmid, link, hlink, hid, rp, hrp, hrpid, hproperty⟩ := h.rateMaps m hm
      obtain ⟨rp', hrp', hid', hproperty'⟩ := hcat.ratePlans m hm rp hrp hrpid
      exact ⟨rm, hrm, hrmid, link, hlink, hid, rp', hrp', hid'.trans hrpid,
        hproperty'.trans hproperty⟩ }

end OnboardingDb.WellFormed

/-! What the requests write -/

section Requests
variable {c : Service} {env : OnboardingEnv} {db db' : OnboardingDb} {link : LinkRow}
  {property : UUID}

theorem getLink_mem (h : db.getLink property = some link) :
    link ∈ db.links ∧ link.propertyId = property :=
  ⟨List.mem_of_find?_eq_some h, by simpa using List.find?_some h⟩

/-- As many rows of `ids` as `ids` are: each of them has one. -/
theorem exists_of_count {α : Type} {rows : List α} {key : α → UUID} {q : α → Bool}
    {ids : List UUID} (hnodup : (rows.map key).Nodup) (hq : ∀ r, q r = true → key r ∈ ids)
    (hcount : (rows.filter q).length = ids.dedup.length) {id : UUID} (hid : id ∈ ids) :
    ∃ r ∈ rows, key r = id ∧ q r = true := by
  have hkeys : ((rows.filter q).map key).Nodup := hnodup.sublist (List.filter_sublist.map key)
  have hsubset : (rows.filter q).map key ⊆ ids.dedup := by
    intro k hk
    obtain ⟨r, hr, rfl⟩ := List.mem_map.mp hk
    exact List.mem_dedup.mpr (hq r (List.mem_filter.mp hr).2)
  have hlength : ids.dedup.length ≤ ((rows.filter q).map key).length := by
    rw [List.length_map, hcount]
  have hperm := (hkeys.subperm hsubset).perm_of_length_le hlength
  obtain ⟨r, hr, rfl⟩ := List.mem_map.mp (hperm.mem_iff.mpr (List.mem_dedup.mpr hid))
  exact ⟨r, (List.mem_filter.mp hr).1, rfl, (List.mem_filter.mp hr).2⟩

theorem roomType_of_belongs {ids : List UUID}
    (h : roomTypesBelongToProperty property ids db = true) {id : UUID} (hid : id ∈ ids) :
    ∃ rt ∈ db.roomTypes.rows, rt.id = id ∧ rt.propertyId = property := by
  unfold roomTypesBelongToProperty at h
  rcases (Bool.or_eq_true _ _).mp h with hnil | hcount
  · rw [of_decide_eq_true hnil] at hid
    exact absurd hid List.not_mem_nil
  · obtain ⟨rt, hrt, hrtid, hq⟩ := exists_of_count db.roomTypes.nodup
      (fun rt hrt => (of_decide_eq_true hrt).2.1) (of_decide_eq_true hcount) hid
    exact ⟨rt, hrt, hrtid, (of_decide_eq_true hq).1⟩

theorem ratePlan_of_belongs {ids : List UUID} (hplans : (db.ratePlans.map (·.id)).Nodup)
    (h : ratePlansBelongToProperty property ids db = true) {id : UUID} (hid : id ∈ ids) :
    ∃ rp ∈ db.ratePlans, rp.id = id ∧ rp.propertyId = property := by
  unfold ratePlansBelongToProperty at h
  rcases (Bool.or_eq_true _ _).mp h with hnil | hcount
  · rw [of_decide_eq_true hnil] at hid
    exact absurd hid List.not_mem_nil
  · obtain ⟨rp, hrp, hrpid, hq⟩ := exists_of_count hplans
      (fun rp hrp => (of_decide_eq_true hrp).2) (of_decide_eq_true hcount) hid
    exact ⟨rp, hrp, hrpid, (of_decide_eq_true hq).1⟩

/-- A link with keys of its own is inserted. -/
theorem connect_ok {body : ChannexConnectRequest} (hok : connect env property body db = .ok db') :
    ∃ row : LinkRow, row.id ∉ db.links.map (·.id) ∧ row.propertyId ∉ db.links.map (·.propertyId) ∧
      row.Sound ∧ row.channexWebhookId = none ∧ db' = { db with links := row :: db.links } := by
  unfold connect at hok
  split at hok
  · exact absurd hok (by simp)
  · simp only at hok
    split at hok
    · exact absurd hok (by simp)
    · split at hok
      · exact absurd hok (by simp)
      · split at hok
        · exact absurd hok (by simp)
        · split at hok
          · exact absurd hok (by simp)
          · unfold flushLink at hok
            split_ifs at hok with _ hfree
            push Not at hfree
            exact ⟨_, hfree.2.1, hfree.2.2, ⟨strip_strip _, .inl ⟨rfl, rfl, rfl⟩⟩, rfl,
              (Except.ok.inj hok).symm⟩

/-- The maps of the link make way for rows of its property. -/
theorem saveRoomMappings_ok {mappings : List RoomMappingItem}
    (hok : saveRoomMappings env property mappings db = .ok db') :
    ∃ link ∈ db.links, ∃ rows : List RoomTypeMapRow,
      let kept := deleteRoomTypeMaps link (deleteRatePlanMaps link db)
      ((rows ++ kept.roomTypeMaps).map (·.id)).Nodup ∧
      ((rows ++ kept.roomTypeMaps).map fun m => (m.propertyLinkId, m.roomTypeId)).Nodup ∧
      ((rows ++ kept.roomTypeMaps).map fun m => (m.propertyLinkId, m.channexRoomTypeId)).Nodup ∧
      (∀ m ∈ rows, m.propertyLinkId = link.id ∧
        ∃ rt ∈ db.roomTypes.rows, rt.id = m.roomTypeId ∧ rt.propertyId = link.propertyId) ∧
      db' = { kept with roomTypeMaps := rows ++ kept.roomTypeMaps } := by
  unfold saveRoomMappings at hok
  split at hok
  · exact absurd hok (by simp)
  · next link hlink =>
    split_ifs at hok with _ _ hbelongs
    unfold flushRoomTypeMaps at hok
    simp only at hok
    split_ifs at hok with _ hunique
    push Not at hunique
    obtain ⟨hmem, rfl⟩ := getLink_mem hlink
    refine ⟨link, hmem, _, hunique.1, hunique.2.1, hunique.2.2, fun m hm => ?_,
      (Except.ok.inj hok).symm⟩
    obtain ⟨i, hi, rfl⟩ := List.mem_mapIdx.mp hm
    have hid : (mappings[i]).roomTypeId ∈ mappings.map (·.roomTypeId) :=
      List.mem_map_of_mem (List.getElem_mem hi)
    exact ⟨rfl, roomType_of_belongs (Bool.not_eq_false _ ▸ hbelongs) hid⟩

theorem saveRateMappings_ok {mappings : List RateMappingItem} (h : db.WellFormed)
    (hok : saveRateMappings env property mappings db = .ok db') :
    ∃ link ∈ db.links, ∃ rows : List RatePlanMapRow,
      let kept := deleteRatePlanMaps link db
      ((rows ++ kept.ratePlanMaps).map (·.id)).Nodup ∧
      ((rows ++ kept.ratePlanMaps).map fun m => (m.roomTypeMapId, m.ratePlanId)).Nodup ∧
      (∀ m ∈ rows, ∃ rm ∈ db.roomTypeMaps, rm.id = m.roomTypeMapId ∧
        ∃ link ∈ db.links, link.id = rm.propertyLinkId ∧
          ∃ rp ∈ db.ratePlans, rp.id = m.ratePlanId ∧ rp.propertyId = link.propertyId) ∧
      db' = { kept with ratePlanMaps := rows ++ kept.ratePlanMaps } := by
  unfold saveRateMappings at hok
  split at hok
  · exact absurd hok (by simp)
  · next link hlink =>
    obtain ⟨hmem, rfl⟩ := getLink_mem hlink
    split_ifs at hok with _ _ hmaps hbelongs
    · have hkept : (deleteRatePlanMaps link db).WellFormed := h.deleteRatePlanMaps
      exact ⟨link, hmem, [], hkept.rateMapIds, hkept.rateMapPlans, List.forall_mem_nil _,
        (Except.ok.inj hok).symm⟩
    · unfold flushRatePlanMaps at hok
      simp only at hok
      split_ifs at hok with _ hunique
      push Not at hunique
      refine ⟨link, hmem, _, hunique.1, hunique.2, fun m hm => ?_, (Except.ok.inj hok).symm⟩
      obtain ⟨i, hi, rfl⟩ := List.mem_mapIdx.mp hm
      have hid : (mappings[i]).ratePlanId ∈ mappings.map (·.ratePlanId) :=
        List.mem_map_of_mem (List.getElem_mem hi)
      obtain ⟨rm, hrm, hrmid⟩ := List.mem_map.mp (hmaps _ (List.getElem_mem hi))
      obtain ⟨hrm, hrmlink⟩ := List.mem_filter.mp hrm
      exact ⟨rm, hrm, hrmid, link, hmem, (of_decide_eq_true hrmlink).symm,
        ratePlan_of_belongs h.planIds (Bool.not_eq_false _ ▸ hbelongs) hid⟩

/-- The keys of a link that its activation leaves. -/
theorem setLink_keeps (h : db.WellFormed) (hlink : link ∈ db.links) {link' : LinkRow}
    (hid : link'.id = link.id) (hproperty : link'.propertyId = link.propertyId)
    (hsound : link'.Sound) (l : LinkRow) (hl : l ∈ db.links) :
    (if l.id = link'.id then link' else l).id = l.id ∧
      (if l.id = link'.id then link' else l).propertyId = l.propertyId ∧
      (if l.id = link'.id then link' else l).Sound := by
  split
  · next heq =>
    obtain rfl : l = link := h.eq_of_id hl hlink (heq.trans hid)
    exact ⟨hid, hproperty, hsound⟩
  · exact ⟨rfl, rfl, h.sound l hl⟩

/-- An activation sets its link, and posts a webhook where the link has none. -/
inductive Activated (env : OnboardingEnv) (property : UUID) (db : OnboardingDb) (w : World c) :
    Except OnboardingError OnboardingDb × World c → Prop
  | unchanged (e : OnboardingError) : Activated env property db w (.error e, w)
  | posted {link : LinkRow} (hlink : db.getLink property = some link) (hnone : link.webhookId = "")
      (out : Except OnboardingError OnboardingDb) (url : String) (events : List String)
      (hout : ∀ db', out = .ok db' → ∃ wid resp, (createWebhook url events w).1 = .ok resp ∧
        resp.createdId = some wid ∧
        db' = db.setLink ({ link with channexWebhookId := some wid.text }.activated env.now)) :
      Activated env property db w (out, (createWebhook url events w).2)
  | kept {link : LinkRow} (hlink : db.getLink property = some link) :
      Activated env property db w (.ok (db.setLink (link.activated env.now)), w)

theorem activate_cases (env : OnboardingEnv) (property : UUID) (db : OnboardingDb) (w : World c) :
    Activated env property db w (activate env property db w) := by
  unfold activate
  split
  · exact .unchanged _
  · next link hlink =>
    split
    · next hmissing =>
      have hposted := @Activated.posted _ env _ _ w _ hlink hmissing.2
      split
      · exact .unchanged _
      · split
        · next e w' hcreate =>
          have hworld := congrArg Prod.snd hcreate
          obtain rfl : _ = w' := hworld
          exact hposted _ _ _ fun db' hdb' => absurd hdb' (by simp)
        · next resp w' hcreate =>
          have hresp := congrArg Prod.fst hcreate
          have hworld := congrArg Prod.snd hcreate
          obtain rfl : _ = w' := hworld
          split
          · exact hposted _ _ _ fun db' hdb' => absurd hdb' (by simp)
          · next wid hwid =>
            split
            · exact hposted _ _ _ fun db' hdb' => absurd hdb' (by simp)
            · refine hposted _ _ _ fun db' hdb' => ⟨wid, resp, hresp, hwid, ?_⟩
              exact (Except.ok.inj hdb').symm
    · exact .kept hlink

theorem wellFormed_activate {w w' : World c} (h : db.WellFormed)
    (hok : activate env property db w = (.ok db', w')) : db'.WellFormed := by
  have hcases := activate_cases env property db w
  rw [hok] at hcases
  cases hcases with
  | posted hlink _ _ _ _ hout =>
    obtain ⟨wid, resp, _, _, rfl⟩ := hout db' rfl
    have hmem := (getLink_mem hlink).1
    exact h.mapLinks (setLink_keeps h hmem rfl rfl ((h.sound _ hmem).activated _ _))
  | kept hlink =>
    have hmem := (getLink_mem hlink).1
    exact h.mapLinks (setLink_keeps h hmem rfl rfl ((h.sound _ hmem).activated _ _))

/-- A disconnection deletes the rows of the link, or fails, and may delete its webhook. -/
inductive Disconnected (property : UUID) (db : OnboardingDb) (w : World c) :
    Except OnboardingError OnboardingDb × World c → Prop
  | none : Disconnected property db w (.ok db, w)
  | rows {link : LinkRow} (hlink : db.getLink property = some link) (w' : World c)
      (hw : w' = w ∨ w' = (deleteWebhook link.webhookId w).2) :
      Disconnected property db w (disconnectRows link db, w')
  | failed {link : LinkRow} (hlink : db.getLink property = some link) (e : OnboardingError)
      (w' : World c) (hw : w' = w ∨ w' = (deleteWebhook link.webhookId w).2) :
      Disconnected property db w (.error e, w')

theorem disconnect_cases (env : OnboardingEnv) (property : UUID) (db : OnboardingDb)
    (w : World c) :
    Disconnected property db w (disconnect env property db w) := by
  unfold disconnect
  split
  · exact .none
  · next link hlink =>
    split
    · exact .rows hlink w (.inl rfl)
    · split
      · exact .failed hlink _ w (.inl rfl)
      · split
        · next hdelete => exact .rows hlink _ (.inr (by rw [hdelete]))
        · next hdelete => exact .rows hlink _ (.inr (by rw [hdelete]))
        · next hdelete => exact .failed hlink _ _ (.inr (by rw [hdelete]))

theorem wellFormed_disconnectRows (h : db.WellFormed) (hok : disconnectRows link db = .ok db') :
    db'.WellFormed := by
  unfold disconnectRows deleteLink at hok
  split_ifs at hok
  obtain rfl := Except.ok.inj hok
  refine h.cleared.eraseLink fun m hm => ?_
  exact of_decide_eq_true (List.mem_filter.mp hm).2

theorem wellFormed_disconnect {w w' : World c} (h : db.WellFormed)
    (hok : disconnect env property db w = (.ok db', w')) : db'.WellFormed := by
  have hcases := disconnect_cases env property db w
  rw [hok] at hcases
  generalize hout : Except.ok db' = out at hcases
  cases hcases with
  | none => exact Except.ok.inj hout ▸ h
  | rows hlink _ hw => exact wellFormed_disconnectRows h hout.symm
  | failed hlink e _ hw => exact absurd hout (by simp)

theorem wellFormed_serve {s : OnboardingDb × World c} (h : s.1.WellFormed)
    (req : OnboardingRequest) : (serveOnboarding env req s).1.WellFormed := by
  have hresult : ∀ db' w', req.result env s.1 s.2 = (.ok db', w') → db'.WellFormed := by
    intro db' w' hok
    cases req with
    | connect property body =>
      obtain ⟨row, hid, hproperty, hsound, -, rfl⟩ := connect_ok (Prod.mk.inj hok).1
      exact h.insertLink hid hproperty hsound
    | saveRoomMappings property mappings =>
      obtain ⟨link, hlink, rows, hids, htypes, htargets, hrows, rfl⟩ :=
        saveRoomMappings_ok (Prod.mk.inj hok).1
      refine h.cleared.insertRoomTypeMaps hids htypes htargets fun m hm => ?_
      exact ⟨link, hlink, (hrows m hm).1.symm, (hrows m hm).2⟩
    | saveRateMappings property mappings =>
      obtain ⟨link, hlink, rows, hids, hplans, hrows, rfl⟩ :=
        saveRateMappings_ok h (Prod.mk.inj hok).1
      exact h.deleteRatePlanMaps.insertRatePlanMaps hids hplans hrows
    | activate property => exact wellFormed_activate h hok
    | disconnect property => exact wellFormed_disconnect h hok
  unfold serveOnboarding
  split
  · next db' w' hok =>
    change (if env.commits then db' else s.1).WellFormed
    split
    · exact hresult db' w' hok
    · exact h
  · exact h

theorem wellFormed_step {s s' : OnboardingDb × World c} (h : s.1.WellFormed)
    (hstep : OnboardingStep s s') : s'.1.WellFormed := by
  cases hstep with
  | request env req => exact wellFormed_serve h req
  | sync link now =>
    refine h.mapLinks fun l hl => ?_
    split
    · exact ⟨rfl, rfl, (h.sound l hl).stripped, (h.sound l hl).state⟩
    · exact ⟨rfl, rfl, h.sound l hl⟩
  | refer link hlink => exact { h with }
  | catalogue hcat => exact h.recatalogue hcat
  | channex _ => exact h

theorem wellFormed_run {s s' : OnboardingDb × World c} (h : s.1.WellFormed)
    (hrun : OnboardingRun s s') : s'.1.WellFormed := by
  induction hrun with
  | refl => exact h
  | tail _ hstep ih => exact wellFormed_step ih hstep

end Requests

end OpenPms.Channex
