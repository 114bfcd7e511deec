import OpenPms.ChannexAri

/-!
The full sync and the incremental pushes build the same records. Both read the ledger and
the rates with a default for the days without a row, clamp at zero, leave out rates that
are not positive and format with the currency of the property.
-/
namespace OpenPms.Ari

/-! Batches -/

theorem flatten_slices {α : Type} (values : List α) (b n : ℕ) :
    ((List.range n).map fun k => (values.drop (k * b)).take b).flatten = values.take (n * b) := by
  induction n with
  | zero => simp
  | succ n ih =>
    rw [List.range_succ, List.map_append, List.flatten_append, ih, List.map_singleton,
      List.flatten_singleton, Nat.add_mul, Nat.one_mul, List.take_add]

/-- Every record is in exactly one batch, in the order of the list. -/
theorem flatten_batches {α : Type} (values : List α) : (batches values).flatten = values := by
  unfold batches
  rw [flatten_slices]
  apply List.take_of_length_le
  unfold batchSize
  omega

theorem length_of_mem_batches {α : Type} {values batch : List α} (h : batch ∈ batches values) :
    0 < batch.length ∧ batch.length ≤ batchSize := by
  obtain ⟨k, hk, rfl⟩ := List.mem_map.mp h
  rw [List.mem_range] at hk
  rw [List.length_take, List.length_drop]
  unfold batchSize at hk ⊢
  omega

namespace ClientCall

def availability : ClientCall → List AvailabilityRecord
  | pushAvailability values => values
  | pushRestrictions _ => []

def restrictions : ClientCall → List RestrictionRecord
  | pushAvailability _ => []
  | pushRestrictions values => values

/-- The number of records that the call sends. -/
def size (c : ClientCall) : ℕ := c.availability.length + c.restrictions.length

end ClientCall

def availabilitySent (calls : List ClientCall) : List AvailabilityRecord :=
  calls.flatMap (·.availability)

def restrictionsSent (calls : List ClientCall) : List RestrictionRecord :=
  calls.flatMap (·.restrictions)

theorem availabilitySent_pushAvailability (values : List AvailabilityRecord) :
    availabilitySent ((batches values).map .pushAvailability) = values := by
  unfold availabilitySent
  rw [List.flatMap_map, List.flatMap_def]
  exact (congrArg List.flatten (List.map_id _)).trans (flatten_batches values)

theorem restrictionsSent_pushRestrictions (values : List RestrictionRecord) :
    restrictionsSent ((batches values).map .pushRestrictions) = values := by
  unfold restrictionsSent
  rw [List.flatMap_map, List.flatMap_def]
  exact (congrArg List.flatten (List.map_id _)).trans (flatten_batches values)

theorem availabilitySent_pushRestrictions (values : List RestrictionRecord) :
    availabilitySent ((batches values).map .pushRestrictions) = [] := by
  simp [availabilitySent, ClientCall.availability]

theorem restrictionsSent_pushAvailability (values : List AvailabilityRecord) :
    restrictionsSent ((batches values).map .pushAvailability) = [] := by
  simp [restrictionsSent, ClientCall.restrictions]

/-- The calls send at least one record each, and no more than a batch. -/
def Batched (calls : List ClientCall) : Prop := ∀ c ∈ calls, 0 < c.size ∧ c.size ≤ batchSize

theorem batched_pushAvailability (values : List AvailabilityRecord) :
    Batched ((batches values).map .pushAvailability) := by
  intro c hc
  obtain ⟨batch, hbatch, rfl⟩ := List.mem_map.mp hc
  exact length_of_mem_batches hbatch

theorem batched_pushRestrictions (values : List RestrictionRecord) :
    Batched ((batches values).map .pushRestrictions) := by
  intro c hc
  obtain ⟨batch, hbatch, rfl⟩ := List.mem_map.mp hc
  simpa [ClientCall.size, ClientCall.availability, ClientCall.restrictions] using
    length_of_mem_batches hbatch

/-! The maps of an active link -/

/-- The link is active, and its maps are unique as their constraints have it. -/
structure UniqueMaps (property : UUID) (link : ChannexPropertyLink) (db : AriDb) : Prop where
  found : getLink property db = some link
  active : link.status = "active"
  ids : ∀ m ∈ roomMapsOf link db, ∀ m' ∈ roomMapsOf link db, m.id = m'.id → m = m'
  roomTypes : ∀ m ∈ roomMapsOf link db, ∀ m' ∈ roomMapsOf link db,
    m.roomTypeId = m'.roomTypeId → m = m'
  ratePlans : ∀ m ∈ syncRateMaps link db, ∀ m' ∈ syncRateMaps link db,
    m.roomTypeMapId = m'.roomTypeMapId → m.ratePlanId = m'.ratePlanId → m = m'

theorem find?_eq_of_unique {α : Type} {xs : List α} {p : α → Bool} {x : α} (hx : x ∈ xs)
    (hp : p x = true) (hunique : ∀ y ∈ xs, p y = true → y = x) : xs.find? p = some x := by
  obtain ⟨y, hy⟩ := Option.isSome_iff_exists.mp (List.find?_isSome.mpr ⟨x, hx, hp⟩)
  rw [hy, hunique y (List.mem_of_find?_eq_some hy) (List.find?_some hy)]

section Agreement
variable {property : UUID} {link : ChannexPropertyLink} {db : AriDb}

theorem mem_roomMapsOf {m : ChannexRoomTypeMap} :
    m ∈ roomMapsOf link db ↔ m ∈ db.roomTypeMaps ∧ m.propertyLinkId = link.id := by
  simp [roomMapsOf]

theorem mem_syncRateMaps {m : ChannexRatePlanMap} :
    m ∈ syncRateMaps link db ↔
      m ∈ db.ratePlanMaps ∧ ∃ rm ∈ roomMapsOf link db, rm.id = m.roomTypeMapId := by
  simp [syncRateMaps]

namespace UniqueMaps
variable (h : UniqueMaps property link db) {rm : ChannexRoomTypeMap} {rpm : ChannexRatePlanMap}
include h

theorem propertyId : link.propertyId = property := by
  simpa using List.find?_some h.found

theorem activeRoomMap_eq (hrm : rm ∈ roomMapsOf link db) :
    activeRoomMap property rm.roomTypeId db = some (link, rm) := by
  have hfind : roomMapFor link rm.roomTypeId db = some rm := by
    refine find?_eq_of_unique (mem_roomMapsOf.mp hrm).1 ?_ ?_
    · simp [(mem_roomMapsOf.mp hrm).2]
    · intro m hm hp
      simp only [Bool.and_eq_true, decide_eq_true_eq] at hp
      exact h.roomTypes m (mem_roomMapsOf.mpr ⟨hm, hp.1⟩) rm hrm hp.2
  simp [activeRoomMap, h.found, h.active, hfind]

theorem rateMapFor_eq (hrm : rm ∈ roomMapsOf link db) (hrpm : rpm ∈ db.ratePlanMaps)
    (hmap : rpm.roomTypeMapId = rm.id) : rateMapFor rm rpm.ratePlanId db = some rpm := by
  have hsync : ∀ m ∈ db.ratePlanMaps, m.roomTypeMapId = rm.id → m ∈ syncRateMaps link db :=
    fun m hm hid => mem_syncRateMaps.mpr ⟨hm, rm, hrm, hid.symm⟩
  refine find?_eq_of_unique hrpm (by simp [hmap]) ?_
  intro m hm hp
  simp only [Bool.and_eq_true, decide_eq_true_eq] at hp
  exact h.ratePlans m (hsync m hm hp.1) rpm (hsync rpm hrpm hmap) (hp.1.trans hmap.symm) hp.2

theorem find_roomMap (hrm : rm ∈ roomMapsOf link db) (hmap : rpm.roomTypeMapId = rm.id) :
    ((roomMapsOf link db).find? fun x => x.id = rpm.roomTypeMapId) = some rm := by
  refine find?_eq_of_unique hrm (by simp [hmap]) ?_
  intro m hm hp
  exact h.ids m hm rm hrm ((of_decide_eq_true hp).trans hmap)

end UniqueMaps

/-! Records of one day -/

theorem mem_syncDates {start d : ℤ} :
    d ∈ syncDates start ↔ start ≤ d ∧ d ≤ start + (syncDays - 1) := by
  simp only [syncDates, List.mem_map, List.mem_range]
  unfold syncDays
  constructor
  · rintro ⟨i, hi, rfl⟩
    omega
  · intro hd
    exact ⟨(d - start).toNat, by omega, by omega⟩

theorem nodup_syncDates (start : ℤ) : (syncDates start).Nodup := by
  apply List.Nodup.map _ List.nodup_range
  intro i j hij
  simpa using hij

/-- Of records built day by day, one at most is that of the day. -/
theorem filter_filterMap_date {β : Type} {dates : List ℤ} {build : ℤ → Option β} {date : β → ℤ}
    (hdate : ∀ d r, build d = some r → date r = d) (hnodup : dates.Nodup) {d : ℤ}
    (hd : d ∈ dates) :
    (dates.filterMap build).filter (fun r => date r = d) = (build d).toList := by
  rw [List.filter_filterMap]
  have hone : dates.filterMap (fun x => (build x).filter fun r => date r = d) =
      (dates.filter (· = d)).filterMap build := by
    rw [List.filterMap_filter]
    apply List.filterMap_congr
    intro x _
    cases hx : build x with
    | none => simp
    | some r =>
      by_cases hxd : x = d
      · simp [hdate x r hx, hxd]
      · simp [hdate x r hx, hxd]
  rw [hone, List.filter_eq, List.count_eq_one_of_mem hnodup hd]
  cases hbuild : build d with
  | none => simp [hbuild]
  | some r => simp [hbuild]

theorem map_eq_filterMap_some {α β : Type} (f : α → β) (xs : List α) :
    xs.map f = xs.filterMap fun x => some (f x) := by
  rw [← List.filterMap_eq_map]
  rfl

theorem filter_map_date {β : Type} {dates : List ℤ} {build : ℤ → β} {date : β → ℤ}
    (hdate : ∀ d, date (build d) = d) (hnodup : dates.Nodup) {d : ℤ} (hd : d ∈ dates) :
    (dates.map build).filter (fun r => date r = d) = [build d] := by
  rw [map_eq_filterMap_some, filter_filterMap_date (fun x r hr => ?_) hnodup hd]
  · rfl
  · cases hr
    exact hdate x

namespace UniqueMaps
variable (h : UniqueMaps property link db) {rm : ChannexRoomTypeMap} {rpm : ChannexRatePlanMap}
  {start : ℤ} {dates : List ℤ}
include h

theorem sent_availability (hrm : rm ∈ roomMapsOf link db) :
    runPushChannexAvailability property rm.roomTypeId dates db =
      (batches (incrementalAvailability link rm rm.roomTypeId (sortedDates dates) db)).map
        .pushAvailability := by
  unfold runPushChannexAvailability
  rw [h.activeRoomMap_eq hrm]

theorem sent_rates (hrm : rm ∈ roomMapsOf link db) (hrpm : rpm ∈ db.ratePlanMaps)
    (hmap : rpm.roomTypeMapId = rm.id) :
    runPushChannexRates property rm.roomTypeId rpm.ratePlanId dates db =
      (batches (incrementalRates link rpm rm.roomTypeId rpm.ratePlanId (sortedDates dates)
        db)).map .pushRestrictions := by
  unfold runPushChannexRates
  rw [h.activeRoomMap_eq hrm]
  simp only [h.rateMapFor_eq hrm hrpm hmap]

/-- A day has one availability record, the same in both. -/
theorem availability_agrees (hrm : rm ∈ roomMapsOf link db) {d : ℤ} (hd : d ∈ syncDates start)
    (hmem : d ∈ dates) : ∃ r,
      (syncAvailability link start db rm).filter (fun r => r.date = d) = [r] ∧
      (availabilitySent (runPushChannexAvailability property rm.roomTypeId dates db)).filter
        (fun r => r.date = d) = [r] := by
  have hwindow := mem_syncDates.mp hd
  have hmap : availMap link start db rm.roomTypeId d =
      (db.ledger.row rm.roomTypeId d).map fun c =>
        max 0 (c.totalRooms - c.bookedRooms - c.blockedRooms) := by
    unfold availMap
    exact if_pos ⟨List.mem_map_of_mem hrm, hwindow⟩
  refine ⟨⟨Text.strip link.channexPropertyId, Text.strip rm.channexRoomTypeId, d,
    (availMap link start db rm.roomTypeId d).getD 0⟩, ?_, ?_⟩
  · unfold syncAvailability
    rw [filter_map_date (fun _ => rfl) (nodup_syncDates start) hd]
  · rw [h.sent_availability hrm, availabilitySent_pushAvailability]
    unfold incrementalAvailability
    rw [filter_map_date (fun _ => rfl) (nodup_sortedDates dates) (mem_sortedDates.mpr hmem), hmap]
    cases db.ledger.row rm.roomTypeId d with
    | none => rfl
    | some c => rfl

/-- A day has one restriction record or none, and the same in both. -/
theorem restrictions_agree (hrm : rm ∈ roomMapsOf link db) (hrpm : rpm ∈ db.ratePlanMaps)
    (hmap : rpm.roomTypeMapId = rm.id) {d : ℤ} (hd : d ∈ syncDates start) (hmem : d ∈ dates) :
    ∃ r : Option RestrictionRecord,
      (syncRestrictions property link start db rpm).filter (fun r => r.date = d) = r.toList ∧
      (restrictionsSent (runPushChannexRates property rm.roomTypeId rpm.ratePlanId dates
        db)).filter (fun r => r.date = d) = r.toList := by
  have hwindow := mem_syncDates.mp hd
  have hsync : rpm ∈ syncRateMaps link db := mem_syncRateMaps.mpr ⟨hrpm, rm, hrm, hmap.symm⟩
  have hrow : rateRowsByKey link start db rm.roomTypeId rpm.ratePlanId d =
      db.rate rm.roomTypeId rpm.ratePlanId d := by
    unfold rateRowsByKey
    exact if_pos ⟨List.mem_map_of_mem hrm, List.mem_map_of_mem hsync, hwindow⟩
  refine ⟨(db.rate rm.roomTypeId rpm.ratePlanId d).bind fun rrow =>
    restrictionRow (Text.strip link.channexPropertyId) (Text.strip rpm.channexRatePlanId) d rrow
      (syncCurrencyCode property db), ?_, ?_⟩
  · unfold syncRestrictions
    rw [h.find_roomMap hrm hmap]
    simp only
    rw [filter_filterMap_date (fun x r hr => ?_) (nodup_syncDates start) hd]
    · rw [hrow]
      rfl
    · obtain ⟨rrow, -, hr⟩ := Option.bind_eq_some_iff.mp hr
      unfold restrictionRow at hr
      split at hr
      · cases hr
        rfl
      · cases hr
  · rw [h.sent_rates hrm hrpm hmap, restrictionsSent_pushRestrictions]
    unfold incrementalRates
    rw [filter_filterMap_date (fun x r hr => ?_) (nodup_sortedDates dates)
      (mem_sortedDates.mpr hmem)]
    · rw [h.propertyId]
      rfl
    · obtain ⟨rrow, -, hr⟩ := Option.bind_eq_some_iff.mp hr
      split at hr
      · cases hr
        rfl
      · cases hr

theorem availabilitySent_full :
    availabilitySent (runChannexFullAriSync property start db) =
      (roomMapsOf link db).flatMap (syncAvailability link start db) := by
  unfold runChannexFullAriSync
  simp only [h.found, h.active, ne_eq, not_true_eq_false, if_false]
  split
  · next hnil =>
    rw [hnil]
    rfl
  · unfold availabilitySent
    rw [List.flatMap_append]
    change availabilitySent _ ++ availabilitySent _ = _
    rw [availabilitySent_pushAvailability, availabilitySent_pushRestrictions, List.append_nil]

theorem restrictionsSent_full :
    restrictionsSent (runChannexFullAriSync property start db) =
      (syncRateMaps link db).flatMap (syncRestrictions property link start db) := by
  unfold runChannexFullAriSync
  simp only [h.found, h.active, ne_eq, not_true_eq_false, if_false]
  split
  · next hnil =>
    have hnone : syncRateMaps link db = [] := by simp [syncRateMaps, hnil]
    rw [hnone]
    rfl
  · unfold restrictionsSent
    rw [List.flatMap_append]
    change restrictionsSent _ ++ restrictionsSent _ = _
    rw [restrictionsSent_pushAvailability, restrictionsSent_pushRestrictions, List.nil_append]

omit h in
theorem batched_full : Batched (runChannexFullAriSync property start db) := by
  unfold runChannexFullAriSync
  split
  · exact fun c hc => absurd hc List.not_mem_nil
  · split
    · exact fun c hc => absurd hc List.not_mem_nil
    · split
      · exact fun c hc => absurd hc List.not_mem_nil
      · intro c hc
        rcases List.mem_append.mp hc with hc | hc
        · exact batched_pushAvailability _ c hc
        · exact batched_pushRestrictions _ c hc

end UniqueMaps

/-- For every day of the sync window the full sync and the incremental pushes build the same
availability record and the same restriction record, if any. Both send their records in
batches that keep the order and neither lose nor repeat one. -/
theorem full_and_incremental_agree (h : UniqueMaps property link db) (start : ℤ) :
    (∀ rm ∈ roomMapsOf link db, ∀ d ∈ syncDates start, ∀ dates, d ∈ dates → ∃ r,
      (syncAvailability link start db rm).filter (fun r => r.date = d) = [r] ∧
      (availabilitySent (runPushChannexAvailability property rm.roomTypeId dates db)).filter
        (fun r => r.date = d) = [r]) ∧
    (∀ rm ∈ roomMapsOf link db, ∀ rpm ∈ db.ratePlanMaps, rpm.roomTypeMapId = rm.id →
      ∀ d ∈ syncDates start, ∀ dates, d ∈ dates → ∃ r : Option RestrictionRecord,
        (syncRestrictions property link start db rpm).filter (fun r => r.date = d) = r.toList ∧
        (restrictionsSent (runPushChannexRates property rm.roomTypeId rpm.ratePlanId dates
          db)).filter (fun r => r.date = d) = r.toList) ∧
    (availabilitySent (runChannexFullAriSync property start db) =
        (roomMapsOf link db).flatMap (syncAvailability link start db) ∧
      restrictionsSent (runChannexFullAriSync property start db) =
        (syncRateMaps link db).flatMap (syncRestrictions property link start db) ∧
      Batched (runChannexFullAriSync property start db)) ∧
    ∀ rm ∈ roomMapsOf link db, ∀ dates,
      (availabilitySent (runPushChannexAvailability property rm.roomTypeId dates db) =
          incrementalAvailability link rm rm.roomTypeId (sortedDates dates) db ∧
        Batched (runPushChannexAvailability property rm.roomTypeId dates db)) ∧
      ∀ rpm ∈ db.ratePlanMaps, rpm.roomTypeMapId = rm.id →
        restrictionsSent (runPushChannexRates property rm.roomTypeId rpm.ratePlanId dates db) =
            incrementalRates link rpm rm.roomTypeId rpm.ratePlanId (sortedDates dates) db ∧
          Batched (runPushChannexRates property rm.roomTypeId rpm.ratePlanId dates db) := by
  refine ⟨fun rm hrm d hd dates hmem => h.availability_agrees hrm hd hmem,
    fun rm hrm rpm hrpm hmap d hd dates hmem => h.restrictions_agree hrm hrpm hmap hd hmem,
    ⟨h.availabilitySent_full, h.restrictionsSent_full, UniqueMaps.batched_full⟩, ?_⟩
  intro rm hrm dates
  refine ⟨?_, fun rpm hrpm hmap => ?_⟩
  · rw [h.sent_availability hrm, availabilitySent_pushAvailability]
    exact ⟨rfl, batched_pushAvailability _⟩
  · rw [h.sent_rates hrm hrpm hmap, restrictionsSent_pushRestrictions]
    exact ⟨rfl, batched_pushRestrictions _⟩

end Agreement

/-! A property with one mapped room type and rate plan, priced on day 3 -/

namespace Demo

def link : ChannexPropertyLink := ⟨⟨1, 1⟩, "hotel", "active"⟩

def roomMap : ChannexRoomTypeMap := ⟨20, 1, 10, "double"⟩

def rateMap : ChannexRatePlanMap := ⟨30, 20, 5, "flexible"⟩

def mapped : AriDb where
  toDb := { Db.empty 0 with
    properties := [1], roomTypes := ⟨[⟨10, 1, "Double", 1, 2, false⟩], by decide⟩
    ratePlans := [⟨5, 1⟩], roomTypeMaps := [roomMap], ratePlanMaps := [rateMap]
    ledger := Ledger.upsert .empty 10 [3] ⟨2, 0, 0⟩ id
    rates := fun rt rp d => if rt = 10 ∧ rp = 5 ∧ d = 3 then some (10000 : ℤ) else none }
  currency := fun _ => some "EUR"
  links := [link]
  restrictions := fun _ _ _ => ⟨false, none, none⟩

theorem uniqueMaps_mapped : UniqueMaps 1 link mapped where
  found := by decide
  active := rfl
  ids := by decide
  roomTypes := by decide
  ratePlans := by decide

end Demo

theorem full_and_incremental_agree_demo :
    availabilitySent (runPushChannexAvailability 1 10 [3] Demo.mapped) =
        [⟨"hotel", "double", 3, 2⟩] ∧
      restrictionsSent (runPushChannexRates 1 10 5 [3, 4] Demo.mapped) =
        [⟨"hotel", "flexible", 3, some "100.00", some false, none, none⟩] ∧
      (∃ r, (syncAvailability Demo.link 0 Demo.mapped Demo.roomMap).filter
          (fun r => r.date = 3) = [r] ∧
        (availabilitySent (runPushChannexAvailability 1 10 [3] Demo.mapped)).filter
          (fun r => r.date = 3) = [r]) ∧
      ∃ r : Option RestrictionRecord,
        (syncRestrictions 1 Demo.link 0 Demo.mapped Demo.rateMap).filter
          (fun r => r.date = 3) = r.toList ∧
        (restrictionsSent (runPushChannexRates 1 10 5 [3, 4] Demo.mapped)).filter
          (fun r => r.date = 3) = r.toList := by
  have hagree := full_and_incremental_agree Demo.uniqueMaps_mapped 0
  have hday : (3 : ℤ) ∈ syncDates 0 := mem_syncDates.mpr (by decide)
  refine ⟨by decide, by decide, ?_, ?_⟩
  · exact hagree.1 Demo.roomMap (by decide) 3 hday [3] (by simp)
  · exact hagree.2.1 Demo.roomMap (by decide) Demo.rateMap (by decide) rfl 3 hday [3, 4] (by simp)

end OpenPms.Ari
