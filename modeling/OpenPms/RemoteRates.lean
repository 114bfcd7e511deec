import OpenPms.RatesAdmin

/-!
What Channex holds for a mapped rate plan and day. Each push sends at most one record there,
which says what the stored row and the ledger say when the push is delivered; so what Channex
ends up with depends on the order of the pushes alone.
-/
namespace OpenPms.Ari

open Transaction Prog Outbox

/-! Mapped rate plans -/

structure Mapping where
  link : ChannexPropertyLink
  room : ChannexRoomTypeMap
  plan : ChannexRatePlanMap

namespace Mapping

def remoteProperty (k : Mapping) : String := Text.strip k.link.channexPropertyId

def remotePlan (k : Mapping) : String := Text.strip k.plan.channexRatePlanId

/-- What Channex holds for the plan on the day. -/
def held (k : Mapping) (remote : Remote) (d : ℤ) : Restrictions :=
  remote k.remoteProperty k.remotePlan d

def stored (k : Mapping) (db : AriDb) (d : ℤ) : Option Rate :=
  db.rate k.room.roomTypeId k.plan.ratePlanId d

end Mapping

/-- The maps of a rate plan under an active link. -/
structure Mapped (k : Mapping) (db : AriDb) : Prop where
  found : getLink k.link.propertyId db = some k.link
  active : k.link.status = "active"
  room : k.room ∈ roomMapsOf k.link db
  plan : k.plan ∈ db.ratePlanMaps
  ofRoom : k.plan.roomTypeMapId = k.room.id

/-- The maps are unique and of room types of the property, and no two of them name one rate
plan of Channex. -/
structure WellMapped (db : AriDb) : Prop where
  unique : ∀ property link, getLink property db = some link → link.status = "active" →
    UniqueMaps property link db
  nodup : db.ratePlanMaps.Nodup
  belongs : ∀ k, Mapped k db → propertyOf k.room.roomTypeId db = some k.link.propertyId
  targets : ∀ k k', Mapped k db → Mapped k' db → k'.remoteProperty = k.remoteProperty →
    k'.remotePlan = k.remotePlan → k' = k

variable {db : AriDb} {k : Mapping} {d : ℤ}

theorem Mapped.uniqueMaps (hk : Mapped k db) (h : WellMapped db) :
    UniqueMaps k.link.propertyId k.link db := h.unique _ _ hk.found hk.active

theorem mapped_of_unique {property : UUID} {link : ChannexPropertyLink} {rm : ChannexRoomTypeMap}
    {rpm : ChannexRatePlanMap} (h : UniqueMaps property link db) (hrm : rm ∈ roomMapsOf link db)
    (hrpm : rpm ∈ db.ratePlanMaps) (hmap : rpm.roomTypeMapId = rm.id) :
    Mapped ⟨link, rm, rpm⟩ db where
  found := by rw [h.propertyId, h.found]
  active := h.active
  room := hrm
  plan := hrpm
  ofRoom := hmap

/-! The record of a plan on one day -/

def rateRecord (k : Mapping) (d : ℤ) (db : AriDb) : Option RestrictionRecord :=
  (k.stored db d).bind fun rrow => restrictionRow k.remoteProperty k.remotePlan d rrow
    (propertyCurrencyCode k.link.propertyId db)

/-- What a push sends for the plan and the day. -/
def sentTo (k : Mapping) (d : ℤ) (db : AriDb) : Push → List RestrictionRecord
  | .availability _ _ _ => []
  | .rates property rt rp dates =>
    if property = k.link.propertyId ∧ rt = k.room.roomTypeId ∧ rp = k.plan.ratePlanId ∧ d ∈ dates
      then (rateRecord k d db).toList else []
  | .stopSell property rt dates =>
    if property = k.link.propertyId ∧ rt = k.room.roomTypeId ∧ d ∈ dates
      then [stopSellRecord k.link rt db k.plan d] else []
  | .fullSync property start =>
    if property = k.link.propertyId ∧ d ∈ syncDates start then (rateRecord k d db).toList else []

def atKey (k : Mapping) (d : ℤ) (r : RestrictionRecord) : Bool :=
  r.propertyId = k.remoteProperty && r.ratePlanId = k.remotePlan && r.date = d

/-- All records are for the plan of the mapping. -/
def Addressed (k : Mapping) (records : List RestrictionRecord) : Prop :=
  ∀ r ∈ records, r.propertyId = k.remoteProperty ∧ r.ratePlanId = k.remotePlan

theorem filter_atKey_self {records : List RestrictionRecord} (h : Addressed k records) :
    records.filter (atKey k d) = records.filter fun r => r.date = d := by
  apply List.filter_congr
  intro r hr
  simp [atKey, h r hr]

theorem filter_atKey_other {k' : Mapping} {records : List RestrictionRecord}
    (h : Addressed k' records)
    (hne : ¬ (k'.remoteProperty = k.remoteProperty ∧ k'.remotePlan = k.remotePlan)) :
    records.filter (atKey k d) = [] := by
  apply List.filter_eq_nil_iff.mpr
  intro r hr
  obtain ⟨hproperty, hplan⟩ := h r hr
  simp only [atKey, hproperty, hplan, Bool.and_eq_true, decide_eq_true_eq]
  exact fun hkey => hne hkey.1

theorem restrictionRow_some {propCx cxRp : String} {rrow : Rate} {code : String}
    {r : RestrictionRecord} (h : restrictionRow propCx cxRp d rrow code = some r) :
    r.propertyId = propCx ∧ r.ratePlanId = cxRp ∧ r.date = d := by
  unfold restrictionRow at h
  split at h
  · cases h
    exact ⟨rfl, rfl, rfl⟩
  · cases h

/-- Days without a record and other days leave at most the record of the day. -/
theorem filter_filterMap_date_mem {β : Type} {dates : List ℤ} {build : ℤ → Option β}
    {date : β → ℤ} (hdate : ∀ d r, build d = some r → date r = d) (hnodup : dates.Nodup) :
    (dates.filterMap build).filter (fun r => date r = d) =
      if d ∈ dates then (build d).toList else [] := by
  split
  · next hd => exact filter_filterMap_date hdate hnodup hd
  · next hd =>
    apply List.filter_eq_nil_iff.mpr
    intro r hr
    obtain ⟨x, hx, hbuild⟩ := List.mem_filterMap.mp hr
    simp only [decide_eq_true_eq]
    intro hrd
    exact hd (by rw [← hrd, hdate x r hbuild]; exact hx)

theorem filter_flatMap_unique {α β : Type} {xs : List α} {f : α → List β} {p : β → Bool} {x : α}
    (hnodup : xs.Nodup) (hx : x ∈ xs) (hother : ∀ y ∈ xs, y ≠ x → (f y).filter p = []) :
    (xs.flatMap f).filter p = (f x).filter p := by
  obtain ⟨l₁, l₂, rfl⟩ := List.append_of_mem hx
  have hnone : ∀ l : List α, (∀ y ∈ l, (f y).filter p = []) → (l.flatMap f).filter p = [] := by
    intro l hl
    apply List.filter_eq_nil_iff.mpr
    intro r hr
    obtain ⟨y, hy, hry⟩ := List.mem_flatMap.mp hr
    exact List.filter_eq_nil_iff.mp (hl y hy) r hry
  have hmiddle := List.nodup_middle.mp hnodup
  have hnot : ∀ y ∈ l₁ ++ l₂, y ≠ x := by
    rintro y hy rfl
    exact (List.nodup_cons.mp hmiddle).1 hy
  rw [List.flatMap_append, List.flatMap_cons, List.filter_append, List.filter_append,
    hnone l₁ fun y hy => hother y (by simp [hy]) (hnot y (by simp [hy])),
    hnone l₂ fun y hy => hother y (by simp [hy]) (hnot y (by simp [hy])),
    List.nil_append, List.append_nil]

/-! Each push, seen from one plan and day -/

theorem activeRoomMap_some {property rt : UUID} {link : ChannexPropertyLink}
    {rm : ChannexRoomTypeMap} (h : activeRoomMap property rt db = some (link, rm)) :
    getLink property db = some link ∧ link.status = "active" ∧ rm ∈ roomMapsOf link db ∧
      rm.roomTypeId = rt := by
  unfold activeRoomMap at h
  obtain ⟨l, hlink, h⟩ := Option.bind_eq_some_iff.mp h
  split at h
  · cases h
  · next hactive =>
    obtain ⟨m, hroom, h⟩ := Option.bind_eq_some_iff.mp h
    cases h
    have hp := List.find?_some hroom
    simp only [Bool.and_eq_true, decide_eq_true_eq] at hp
    exact ⟨hlink, not_not.mp hactive, mem_roomMapsOf.mpr ⟨List.mem_of_find?_eq_some hroom, hp.1⟩,
      hp.2⟩

theorem rateMapFor_some {rm : ChannexRoomTypeMap} {rp : UUID} {rpm : ChannexRatePlanMap}
    (h : rateMapFor rm rp db = some rpm) :
    rpm ∈ db.ratePlanMaps ∧ rpm.roomTypeMapId = rm.id ∧ rpm.ratePlanId = rp := by
  have hp := List.find?_some h
  simp only [Bool.and_eq_true, decide_eq_true_eq] at hp
  exact ⟨List.mem_of_find?_eq_some h, hp⟩

theorem addressed_incrementalRates {link : ChannexPropertyLink} {rm : ChannexRoomTypeMap}
    {rpm : ChannexRatePlanMap} {rt rp : UUID} {dates : List ℤ} :
    Addressed ⟨link, rm, rpm⟩ (incrementalRates link rpm rt rp dates db) := by
  intro r hr
  obtain ⟨d, -, hr⟩ := List.mem_filterMap.mp hr
  obtain ⟨rrow, -, hr⟩ := Option.bind_eq_some_iff.mp hr
  have hrow := restrictionRow_some hr
  exact ⟨hrow.1, hrow.2.1⟩

theorem addressed_stopSell {link : ChannexPropertyLink} {rm : ChannexRoomTypeMap}
    {rpm : ChannexRatePlanMap} {rt : UUID} {dates : List ℤ} :
    Addressed ⟨link, rm, rpm⟩ (dates.map (stopSellRecord link rt db rpm)) := by
  intro r hr
  obtain ⟨d, -, rfl⟩ := List.mem_map.mp hr
  exact ⟨rfl, rfl⟩

theorem addressed_syncRestrictions {property : UUID} {link : ChannexPropertyLink}
    {rm : ChannexRoomTypeMap} {rpm : ChannexRatePlanMap} {start : ℤ} :
    Addressed ⟨link, rm, rpm⟩ (syncRestrictions property link start db rpm) := by
  intro r hr
  unfold syncRestrictions at hr
  split at hr
  · cases hr
  · obtain ⟨d, -, hr⟩ := List.mem_filterMap.mp hr
    obtain ⟨rrow, -, hr⟩ := Option.bind_eq_some_iff.mp hr
    have hrow := restrictionRow_some hr
    exact ⟨hrow.1, hrow.2.1⟩

section Sent
variable (h : WellMapped db) (hk : Mapped k db)
include h hk

/-- Records for another mapped plan do not reach this one. -/
theorem filter_atKey_ne {k' : Mapping} {records : List RestrictionRecord} (hk' : Mapped k' db)
    (hne : k' ≠ k) (haddr : Addressed k' records) : records.filter (atKey k d) = [] :=
  filter_atKey_other haddr fun heq => hne (h.targets k k' hk hk' heq.1 heq.2)

theorem sent_rates_at {property rt rp : UUID} {dates : List ℤ} :
    (restrictionsSent (runPushChannexRates property rt rp dates db)).filter (atKey k d) =
      sentTo k d db (.rates property rt rp dates) := by
  by_cases hkey : property = k.link.propertyId ∧ rt = k.room.roomTypeId ∧ rp = k.plan.ratePlanId
  · obtain ⟨rfl, rfl, rfl⟩ := hkey
    rw [(hk.uniqueMaps h).sent_rates hk.room hk.plan hk.ofRoom,
      restrictionsSent_pushRestrictions, filter_atKey_self (k := k) addressed_incrementalRates]
    unfold incrementalRates
    rw [filter_filterMap_date_mem (fun x r hr => ?_) (nodup_sortedDates dates)]
    · simp only [sentTo, mem_sortedDates, true_and]
      rfl
    · obtain ⟨rrow, -, hr⟩ := Option.bind_eq_some_iff.mp hr
      exact (restrictionRow_some hr).2.2
  · have hnone : sentTo k d db (.rates property rt rp dates) = [] :=
      if_neg fun hall => hkey ⟨hall.1, hall.2.1, hall.2.2.1⟩
    rw [hnone]
    unfold runPushChannexRates
    cases hmap : activeRoomMap property rt db with
    | none => rfl
    | some found =>
      obtain ⟨link, rtm⟩ := found
      obtain ⟨hlink, hactive, hroom, hrt⟩ := activeRoomMap_some hmap
      have hunique := h.unique property link hlink hactive
      simp only
      cases hplan : rateMapFor rtm rp db with
      | none => rfl
      | some rpm =>
        obtain ⟨hmem, hof, hrp⟩ := rateMapFor_some hplan
        simp only [restrictionsSent_pushRestrictions]
        refine filter_atKey_ne h hk (mapped_of_unique hunique hroom hmem hof) ?_
          addressed_incrementalRates
        rintro rfl
        exact hkey ⟨hunique.propertyId.symm, hrt.symm, hrp.symm⟩

theorem sent_stopSell_at {property rt : UUID} {dates : List ℤ} :
    (restrictionsSent (runPushChannexStopSell property rt dates db)).filter (atKey k d) =
      sentTo k d db (.stopSell property rt dates) := by
  by_cases hkey : property = k.link.propertyId ∧ rt = k.room.roomTypeId
  · obtain ⟨rfl, rfl⟩ := hkey
    have hunique := hk.uniqueMaps h
    unfold runPushChannexStopSell
    rw [hunique.activeRoomMap_eq hk.room]
    simp only [restrictionsSent_pushRestrictions]
    have hplan : k.plan ∈ rateMapsOf k.room db := by
      simp [rateMapsOf, hk.plan, hk.ofRoom]
    have hnodup : (rateMapsOf k.room db).Nodup := h.nodup.filter _
    rw [filter_flatMap_unique hnodup hplan]
    · rw [filter_atKey_self (k := k) addressed_stopSell, map_eq_filterMap_some,
        filter_filterMap_date_mem (fun x r hr => by cases hr; rfl) (nodup_sortedDates dates)]
      simp only [sentTo, mem_sortedDates, true_and, Option.toList_some]
    · intro rpm hrpm hne
      have hmem : rpm ∈ db.ratePlanMaps ∧ rpm.roomTypeMapId = k.room.id := by
        simpa [rateMapsOf] using hrpm
      refine filter_atKey_ne h hk (mapped_of_unique hunique hk.room hmem.1 hmem.2) ?_
        addressed_stopSell
      intro heq
      exact hne (congrArg Mapping.plan heq)
  · have hnone : sentTo k d db (.stopSell property rt dates) = [] :=
      if_neg fun hall => hkey ⟨hall.1, hall.2.1⟩
    rw [hnone]
    unfold runPushChannexStopSell
    cases hmap : activeRoomMap property rt db with
    | none => rfl
    | some found =>
      obtain ⟨link, rtm⟩ := found
      obtain ⟨hlink, hactive, hroom, hrt⟩ := activeRoomMap_some hmap
      have hunique := h.unique property link hlink hactive
      simp only [restrictionsSent_pushRestrictions]
      rw [List.filter_flatMap, List.flatMap_eq_nil_iff]
      intro rpm hrpm
      have hmem : rpm ∈ db.ratePlanMaps ∧ rpm.roomTypeMapId = rtm.id := by
        simpa [rateMapsOf] using hrpm
      refine filter_atKey_ne h hk (mapped_of_unique hunique hroom hmem.1 hmem.2) ?_
        addressed_stopSell
      rintro rfl
      exact hkey ⟨hunique.propertyId.symm, hrt.symm⟩

omit hk in
theorem mapped_of_syncRateMaps {property : UUID} {link : ChannexPropertyLink}
    (hlink : getLink property db = some link) (hactive : link.status = "active")
    {rpm : ChannexRatePlanMap} (hrpm : rpm ∈ syncRateMaps link db) :
    ∃ rm, Mapped ⟨link, rm, rpm⟩ db := by
  obtain ⟨hmem, rm, hroom, hof⟩ := mem_syncRateMaps.mp hrpm
  exact ⟨rm, mapped_of_unique (h.unique property link hlink hactive) hroom hmem hof.symm⟩

theorem sent_fullSync_at {property : UUID} {start : ℤ} :
    (restrictionsSent (runChannexFullAriSync property start db)).filter (atKey k d) =
      sentTo k d db (.fullSync property start) := by
  by_cases hkey : property = k.link.propertyId
  · subst hkey
    have hunique := hk.uniqueMaps h
    have hplan : k.plan ∈ syncRateMaps k.link db :=
      mem_syncRateMaps.mpr ⟨hk.plan, k.room, hk.room, hk.ofRoom.symm⟩
    have hnodup : (syncRateMaps k.link db).Nodup := h.nodup.filter _
    rw [hunique.restrictionsSent_full, filter_flatMap_unique hnodup hplan]
    · have haddr : Addressed k (syncRestrictions k.link.propertyId k.link start db k.plan) :=
        addressed_syncRestrictions
      rw [filter_atKey_self haddr]
      unfold syncRestrictions
      rw [hunique.find_roomMap hk.room hk.ofRoom]
      simp only
      rw [filter_filterMap_date_mem (fun x r hr => ?_) (nodup_syncDates start)]
      · simp only [sentTo, true_and]
        split
        · next hd =>
          have hrow : rateRowsByKey k.link start db k.room.roomTypeId k.plan.ratePlanId d =
              db.rate k.room.roomTypeId k.plan.ratePlanId d := by
            unfold rateRowsByKey
            exact if_pos ⟨List.mem_map_of_mem hk.room, List.mem_map_of_mem hplan,
              mem_syncDates.mp hd⟩
          rw [hrow]
          rfl
        · rfl
      · obtain ⟨rrow, -, hr⟩ := Option.bind_eq_some_iff.mp hr
        exact (restrictionRow_some hr).2.2
    · intro rpm hrpm hne
      obtain ⟨rm, hmapped⟩ := mapped_of_syncRateMaps h hk.found hk.active hrpm
      refine filter_atKey_ne h hk hmapped ?_ addressed_syncRestrictions
      intro heq
      exact hne (congrArg Mapping.plan heq)
  · have hnone : sentTo k d db (.fullSync property start) = [] :=
      if_neg fun hall => hkey hall.1
    rw [hnone]
    cases hlink : getLink property db with
    | none =>
      unfold runChannexFullAriSync
      rw [hlink]
      rfl
    | some link =>
      by_cases hactive : link.status = "active"
      · have hunique := h.unique property link hlink hactive
        rw [hunique.restrictionsSent_full, List.filter_flatMap, List.flatMap_eq_nil_iff]
        intro rpm hrpm
        obtain ⟨rm, hmapped⟩ := mapped_of_syncRateMaps h hlink hactive hrpm
        refine filter_atKey_ne h hk hmapped ?_ addressed_syncRestrictions
        rintro rfl
        exact hkey hunique.propertyId.symm
      · unfold runChannexFullAriSync
        simp only [hlink, ne_eq, hactive, not_false_eq_true, if_true]
        rfl

/-- What any push sends for a plan and day is what the push says of that plan. -/
theorem sent_at (p : Push) :
    (restrictionsSent (p.calls db)).filter (atKey k d) = sentTo k d db p := by
  cases p with
  | availability property rt dates =>
    show (restrictionsSent (runPushChannexAvailability property rt dates db)).filter _ = []
    unfold runPushChannexAvailability
    cases activeRoomMap property rt db with
    | none => rfl
    | some found =>
      obtain ⟨link, rm⟩ := found
      simp only [restrictionsSent_pushAvailability, List.filter_nil]
  | rates property rt rp dates => exact sent_rates_at h hk
  | stopSell property rt dates => exact sent_stopSell_at h hk
  | fullSync property start => exact sent_fullSync_at h hk

end Sent

/-! What Channex holds after a push -/

theorem held_receive (remote : Remote) (r : RestrictionRecord) :
    k.held (remote.receive r) d =
      if atKey k d r then (k.held remote d).merge r else k.held remote d := by
  simp only [Mapping.held, Remote.receive, atKey, Bool.and_eq_true, decide_eq_true_eq, and_assoc]

theorem held_foldl (records : List RestrictionRecord) (remote : Remote) :
    k.held (records.foldl Remote.receive remote) d =
      (records.filter (atKey k d)).foldl Restrictions.merge (k.held remote d) := by
  induction records generalizing remote with
  | nil => rfl
  | cons r rest ih =>
    rw [List.foldl_cons, ih, held_receive, List.filter_cons]
    split
    · rfl
    · rfl

/-- The records that the queue still sends for the plan and the day. -/
def due (k : Mapping) (d : ℤ) (db : AriDb) (queue : List Push) : List RestrictionRecord :=
  queue.flatMap (sentTo k d db)

theorem due_append (q q' : List Push) : due k d db (q ++ q') = due k d db q ++ due k d db q' :=
  List.flatMap_append

theorem held_queue (h : WellMapped db) (hk : Mapped k db) (queue : List Push) (remote : Remote) :
    k.held (queue.foldl (channel.deliver db) remote) d =
      (due k d db queue).foldl Restrictions.merge (k.held remote d) := by
  induction queue generalizing remote with
  | nil => rfl
  | cons p rest ih =>
    have hp : k.held (channel.deliver db remote p) d =
        (sentTo k d db p).foldl Restrictions.merge (k.held remote d) := by
      show k.held ((restrictionsSent (p.calls db)).foldl Remote.receive remote) d = _
      rw [held_foldl, sent_at h hk]
    rw [List.foldl_cons, ih, hp]
    show _ = (sentTo k d db p ++ due k d db rest).foldl Restrictions.merge _
    rw [List.foldl_append]

/-! What the requests leave as it is -/

structure SameMaps (db db' : AriDb) : Prop where
  links : db'.links = db.links
  roomTypeMaps : db'.roomTypeMaps = db.roomTypeMaps
  ratePlanMaps : db'.ratePlanMaps = db.ratePlanMaps
  currency : db'.currency = db.currency
  roomTypes : db'.roomTypes = db.roomTypes

namespace SameMaps
variable {db' : AriDb} (h : SameMaps db db')
include h

theorem symm : SameMaps db' db where
  links := h.links.symm
  roomTypeMaps := h.roomTypeMaps.symm
  ratePlanMaps := h.ratePlanMaps.symm
  currency := h.currency.symm
  roomTypes := h.roomTypes.symm

theorem getLink_eq (property : UUID) : getLink property db' = getLink property db := by
  unfold getLink
  rw [h.links]

theorem roomMapsOf_eq (link : ChannexPropertyLink) : roomMapsOf link db' = roomMapsOf link db := by
  unfold roomMapsOf
  rw [h.roomTypeMaps]

theorem syncRateMaps_eq (link : ChannexPropertyLink) :
    syncRateMaps link db' = syncRateMaps link db := by
  unfold syncRateMaps
  rw [h.ratePlanMaps, h.roomMapsOf_eq]

theorem currencyCode_eq (property : UUID) :
    propertyCurrencyCode property db' = propertyCurrencyCode property db := by
  unfold propertyCurrencyCode
  rw [h.currency]

theorem propertyOf_eq (rt : UUID) : propertyOf rt db' = propertyOf rt db := by
  unfold propertyOf
  rw [h.roomTypes]

theorem mapped (hk : Mapped k db) : Mapped k db' where
  found := by rw [h.getLink_eq, hk.found]
  active := hk.active
  room := by
    rw [h.roomMapsOf_eq]
    exact hk.room
  plan := by
    rw [h.ratePlanMaps]
    exact hk.plan
  ofRoom := hk.ofRoom

theorem uniqueMaps {property : UUID} {link : ChannexPropertyLink}
    (hu : UniqueMaps property link db) : UniqueMaps property link db' where
  found := by rw [h.getLink_eq, hu.found]
  active := hu.active
  ids := by
    rw [h.roomMapsOf_eq]
    exact hu.ids
  roomTypes := by
    rw [h.roomMapsOf_eq]
    exact hu.roomTypes
  ratePlans := by
    rw [h.syncRateMaps_eq]
    exact hu.ratePlans

theorem wellMapped (hw : WellMapped db) : WellMapped db' where
  unique := fun property link hfound hactive =>
    h.uniqueMaps (hw.unique property link (by rw [← h.getLink_eq, hfound]) hactive)
  nodup := by
    rw [h.ratePlanMaps]
    exact hw.nodup
  belongs := by
    intro k hk
    rw [h.propertyOf_eq]
    exact hw.belongs k (h.symm.mapped hk)
  targets := fun k k' hk hk' => hw.targets k k' (h.symm.mapped hk) (h.symm.mapped hk')

/-- Only the row of the day and the currency are read. -/
theorem sentTo_eq (hrow : k.stored db' d = k.stored db d) (p : Push) :
    sentTo k d db' p = sentTo k d db p := by
  have hrecord : rateRecord k d db' = rateRecord k d db := by
    unfold rateRecord
    rw [hrow, h.currencyCode_eq]
  cases p with
  | availability property rt dates => rfl
  | rates property rt rp dates =>
    simp only [sentTo, hrecord]
  | stopSell property rt dates =>
    simp only [sentTo]
    split
    · next hkey =>
      obtain ⟨-, rfl, -⟩ := hkey
      unfold stopSellRecord
      rw [h.currencyCode_eq]
      unfold Mapping.stored at hrow
      rw [hrow]
    · rfl
  | fullSync property start =>
    simp only [sentTo, hrecord]

theorem due_eq (hrow : k.stored db' d = k.stored db d) (queue : List Push) :
    due k d db' queue = due k d db queue := by
  unfold due
  rw [funext (h.sentTo_eq hrow)]

end SameMaps

/-! The requests -/

theorem exec_blockRows {rows : List AvailabilityLedger} {rt : UUID} {n : ℕ} {u : Unit}
    {core core' : Db} (hrows : ∀ row ∈ rows, row.roomTypeId = rt)
    (h : (forEach rows fun row => do
      let maxBlock := row.counts.totalRooms - row.counts.bookedRooms
      raiseIf (maxBlock < n) (.availabilityOverride row.date maxBlock 409)
      modify fun db => db.setBlocked row.roomTypeId row.date n : Tx Unit).exec core =
        (.ok u, core')) :
    ∃ l, core' = core.setLedger l ∧ ∀ r x, l.row r x = (core.ledger.row r x).map fun c =>
      if r = rt ∧ x ∈ rows.map (·.date) then { c with blockedRooms := n } else c := by
  induction rows generalizing core with
  | nil =>
    cases h
    refine ⟨_, rfl, fun r x => ?_⟩
    simp
  | cons row rest ih =>
    simp only [forEach, exec_bind_ok, exec_raiseIf_ok, exec_modify, Prod.mk.injEq] at h
    obtain ⟨_, _, ⟨_, _, ⟨-, rfl⟩, -, rfl⟩, h⟩ := h
    obtain ⟨l, rfl, hl⟩ := ih (fun row' hrow' => hrows row' (List.mem_cons_of_mem _ hrow')) h
    refine ⟨l, rfl, fun r x => ?_⟩
    rw [hl]
    simp only [Db.setBlocked, Ledger.adjust_row, Option.map_map, hrows row (List.mem_cons_self ..),
      List.map_cons, List.mem_cons]
    cases core.ledger.row r x with
    | none => rfl
    | some c =>
      simp only [Option.map_some, Function.comp_apply, Option.some.injEq]
      by_cases hr : r = rt
      · by_cases hx : x = row.date
        · simp [hr, hx]
        · simp [hr, hx]
      · simp [hr]

/-- The override has found a row for each of its dates, and sets its block there. -/
theorem exec_override {body : AvailabilityOverridePutRequest} {core core' : Db}
    {r : ℕ × UUID × List ℤ} (h : (applyBlockedRoomsOverride body).exec core = (.ok r, core')) :
    r.2 = (body.roomTypeId, iterInclusiveDates body.startDate body.endDate) ∧
    ∃ l, core' = core.setLedger l ∧ ∀ rt d, l.row rt d = (core.ledger.row rt d).map fun c =>
      if rt = body.roomTypeId ∧ d ∈ iterInclusiveDates body.startDate body.endDate then
        { c with blockedRooms := body.blockedRooms } else c := by
  unfold applyBlockedRoomsOverride at h
  obtain ⟨_, _, hday, h⟩ := exec_bind_ok.mp h
  obtain ⟨-, rfl⟩ := exec_raiseIf_ok.mp hday
  simp only at h
  split at h
  · next hnil =>
    cases h
    refine ⟨by rw [hnil], core.ledger, rfl, fun rt d => ?_⟩
    simp [hnil]
  · simp only [exec_bind_ok, exec_selectLedgerForUpdate, exec_raiseIf_ok, exec_pure,
      Prod.mk.injEq, Except.ok.injEq] at h
    obtain ⟨_, _, ⟨rfl, rfl⟩, _, _, ⟨-, rfl⟩, _, _, hloop, rfl, rfl⟩ := h
    obtain ⟨l, hl, hrow⟩ := exec_blockRows
      (fun row hrow => (mem_selectLedger.mp hrow).1) hloop
    refine ⟨rfl, l, hl, fun rt d => ?_⟩
    rw [hrow]
    cases hc : core.ledger.row rt d with
    | none => rfl
    | some c =>
      have hmem : rt = body.roomTypeId → (d ∈ (selectLedger body.roomTypeId
          (iterInclusiveDates body.startDate body.endDate) core).map (·.date) ↔
            d ∈ iterInclusiveDates body.startDate body.endDate) := by
        rintro rfl
        constructor
        · intro hd
          obtain ⟨row, hrow, rfl⟩ := List.mem_map.mp hd
          exact (mem_selectLedger.mp hrow).2.1
        · intro hd
          exact List.mem_map.mpr ⟨⟨body.roomTypeId, d, c⟩, mem_selectLedger.mpr ⟨rfl, hd, hc⟩, rfl⟩
      by_cases hrt : rt = body.roomTypeId
      · simp only [Option.map_some, hrt, true_and, hmem hrt]
      · simp only [Option.map_some, hrt, false_and, if_false]

/-- What an override changes and schedules. -/
structure Overridden (body : AvailabilityOverridePutRequest) (db db' : AriDb)
    (pushes : List Push) : Prop where
  maps : SameMaps db db'
  rate : ∀ rt rp d, db'.rate rt rp d = db.rate rt rp d
  row : ∀ rt d, db'.ledger.row rt d = (db.ledger.row rt d).map fun c =>
    if rt = body.roomTypeId ∧ d ∈ iterInclusiveDates body.startDate body.endDate then
      { c with blockedRooms := body.blockedRooms } else c
  pushes : pushes = match propertyOf body.roomTypeId db with
    | none => []
    | some property =>
      scheduled (.availability property body.roomTypeId)
          (iterInclusiveDates body.startDate body.endDate) ++
        scheduled (.stopSell property body.roomTypeId)
          ((iterInclusiveDates body.startDate body.endDate).filter fun d =>
            db'.Blocked body.roomTypeId d)

theorem perform_override {body : AvailabilityOverridePutRequest} {db' : AriDb}
    {pushes : List Push} (h : perform (.override body) db = some (db', pushes)) :
    Overridden body db db' pushes := by
  simp only [perform, putAvailabilityOverrides] at h
  cases hexec : (applyBlockedRoomsOverride body).exec db.toDb with
  | mk r core =>
    rw [hexec] at h
    cases r with
    | error e => cases h
    | ok r =>
      obtain ⟨hr, l, rfl, hrow⟩ := exec_override hexec
      obtain ⟨n, rt, dates⟩ := r
      cases hr
      cases h
      exact {
        maps := ⟨rfl, rfl, rfl, rfl, rfl⟩
        rate := fun _ _ _ => rfl
        row := hrow
        pushes := rfl }

theorem perform_bulkRates {body : BulkRatesPutRequest} {db' : AriDb} {pushes : List Push}
    (h : perform (.bulkRates body) db = some (db', pushes)) :
    db' = upsertRates body db ∧
    pushes = match body.segments.head?.bind fun seg => propertyOf seg.roomTypeId db with
      | none => []
      | some property => ((body.keys.map fun u => (u.1, u.2.1)).eraseDups).flatMap fun pair =>
        scheduled (.rates property pair.1 pair.2)
          ((body.keys.filter fun u => (u.1, u.2.1) = pair).map (·.2.2)) := by
  simp only [perform, putRatesBulk] at h
  cases hbulk : bulkUpsertRates body db with
  | error e =>
    rw [hbulk] at h
    cases h
  | ok r =>
    have hr : r = (upsertRates body db, body.keys) := by
      unfold bulkUpsertRates at hbulk
      cases hforM : body.segments.forM fun seg =>
          checkSegment seg db with
      | error e =>
        rw [hforM] at hbulk
        cases hbulk
      | ok u =>
        rw [hforM] at hbulk
        change (if _ then _ else _) = _ at hbulk
        split at hbulk
        · cases hbulk
        · cases hbulk
          rfl
    subst hr
    rw [hbulk] at h
    cases h
    exact ⟨rfl, rfl⟩

theorem sameMaps_upsertRates (body : BulkRatesPutRequest) : SameMaps db (upsertRates body db) :=
  ⟨rfl, rfl, rfl, rfl, rfl⟩

theorem upsertRates_rate (db : AriDb) (body : BulkRatesPutRequest) (rt rp : UUID) (d : ℤ) :
    (upsertRates body db).rate rt rp d = match rowFor body.rows (rt, rp, d) with
      | some row => some ⟨row.restrictions, (storedPrice row.price : ℤ)⟩
      | none => db.rate rt rp d := by
  unfold AriDb.rate upsertRates
  cases h : rowFor body.rows (rt, rp, d) with
  | none => simp only [h]
  | some row => simp only [h, Option.map_some]

end OpenPms.Ari
