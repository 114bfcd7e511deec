import OpenPms.RatesFollow

/-!
Whether the pushes of a bulk update reach every property. The segments are checked one by
one, and each may be for another property. The pushes are all scheduled for the property of
the first one.
-/
namespace OpenPms.Ari

open Outbox

/-- The push of these rates finds the maps of the plan under an active link. -/
def Finds (property rt rp : UUID) (db : AriDb) : Prop :=
  ∃ link rtm rpm, activeRoomMap property rt db = some (link, rtm) ∧ rateMapFor rtm rp db = some rpm

/-- The day is in a push under the room type's own property. -/
def Covered (db : AriDb) (pushes : List Push) (rt rp : UUID) (d : ℤ) : Prop :=
  ∃ property dates, propertyOf rt db = some property ∧
    Push.rates property rt rp dates ∈ pushes ∧ d ∈ dates

section Bulk
variable {body : BulkRatesPutRequest} {db db' : AriDb} {pushes : List Push} {rt rp : UUID} {d : ℤ}

theorem perform_of_putRatesBulk (h : putRatesBulk body db = .ok (db', pushes)) :
    perform (.bulkRates body) db = some (db', pushes) := by
  change (putRatesBulk body db).toOption = _
  rw [h]
  rfl

/-- What is scheduled says that the rates were written. -/
theorem putRatesBulk_of_pushes (h : (putRatesBulk body db).map (·.2) = .ok pushes) :
    putRatesBulk body db = .ok (upsertRates body db, pushes) := by
  cases hput : putRatesBulk body db with
  | error e =>
    rw [hput] at h
    cases h
  | ok r =>
    rw [hput] at h
    obtain rfl := Except.ok.inj h
    rw [← (perform_bulkRates (perform_of_putRatesBulk hput)).1]

/-- Every segment's room type exists. -/
theorem forM_checked {segments : List BulkRateSegment}
    (h : (segments.forM fun seg => checkSegment seg db) = .ok ()) :
    ∀ seg ∈ segments, ∃ property, propertyOf seg.roomTypeId db = some property := by
  induction segments with
  | nil => exact fun _ hseg => absurd hseg List.not_mem_nil
  | cons first rest ih =>
    change (checkSegment first db).bind (fun _ => rest.forM _) = .ok () at h
    cases hcheck : checkSegment first db with
    | error e =>
      rw [hcheck] at h
      cases h
    | ok u =>
      rw [hcheck] at h
      intro seg hseg
      rcases List.mem_cons.mp hseg with rfl | hrest
      · unfold checkSegment requireRoomTypeAndPlanSameProperty at hcheck
        cases hfind : db.roomTypes.find seg.roomTypeId with
        | none =>
          rw [hfind] at hcheck
          cases hcheck
        | some t => exact ⟨t.propertyId, by rw [propertyOf, hfind]; rfl⟩
      · exact ih h seg hrest

theorem segments_found (h : putRatesBulk body db = .ok (db', pushes)) :
    ∀ seg ∈ body.segments, ∃ property, propertyOf seg.roomTypeId db = some property := by
  refine forM_checked ?_
  unfold putRatesBulk bulkUpsertRates at h
  cases hforM : body.segments.forM fun seg => checkSegment seg db with
  | error e =>
    rw [hforM] at h
    cases h
  | ok u => rfl

theorem mem_iterInclusiveDates {start stop : ℤ} :
    d ∈ iterInclusiveDates start stop ↔ start ≤ d ∧ d ≤ stop := by
  rw [iterInclusiveDates, mem_daysBetween]
  omega

theorem mem_keys : (rt, rp, d) ∈ body.keys ↔ ∃ seg ∈ body.segments,
    seg.roomTypeId = rt ∧ seg.ratePlanId = rp ∧ seg.startDate ≤ d ∧ d ≤ seg.endDate := by
  unfold BulkRatesPutRequest.keys BulkRatesPutRequest.rows
  rw [List.mem_eraseDups, List.mem_map]
  constructor
  · rintro ⟨row, hrow, hkey⟩
    obtain ⟨seg, hseg, hmem⟩ := List.mem_flatMap.mp hrow
    obtain ⟨day, hday, rfl⟩ := List.mem_map.mp hmem
    obtain ⟨rfl, rfl, rfl⟩ : seg.roomTypeId = rt ∧ seg.ratePlanId = rp ∧ day = d := by
      simpa [RateRow.key] using hkey
    exact ⟨seg, hseg, rfl, rfl, mem_iterInclusiveDates.mp hday⟩
  · rintro ⟨seg, hseg, rfl, rfl, hd⟩
    exact ⟨_, List.mem_flatMap.mpr ⟨seg, hseg,
      List.mem_map_of_mem (mem_iterInclusiveDates.mpr hd)⟩, rfl⟩

/-- All pushes are for the property of the first segment. -/
theorem property_of_push (h : putRatesBulk body db = .ok (db', pushes)) {property : UUID}
    {dates : List ℤ} (hpush : Push.rates property rt rp dates ∈ pushes) :
    body.propertyId db = some property := by
  have hperform := perform_of_putRatesBulk h
  cases hfirst : body.propertyId db with
  | none =>
    rw [pushes_bulkRates_none hperform hfirst] at hpush
    cases hpush
  | some first =>
    rw [pushes_bulkRates_some hperform hfirst] at hpush
    obtain ⟨pair, -, hmem⟩ := List.mem_flatMap.mp hpush
    unfold scheduled at hmem
    split at hmem
    · cases hmem
    · cases List.mem_singleton.mp hmem
      rfl

theorem covered_iff (h : putRatesBulk body db = .ok (db', pushes)) (hkey : (rt, rp, d) ∈ body.keys) :
    Covered db pushes rt rp d ↔ propertyOf rt db = body.propertyId db := by
  constructor
  · rintro ⟨property, dates, hproperty, hpush, -⟩
    rw [hproperty, property_of_push h hpush]
  · intro hsame
    obtain ⟨seg, hseg, rfl, rfl, hd⟩ := mem_keys.mp hkey
    obtain ⟨property, hproperty⟩ := segments_found h seg hseg
    obtain ⟨row, hrow⟩ : ∃ row, rowFor body.rows (seg.roomTypeId, seg.ratePlanId, d) = some row := by
      obtain ⟨row, hmem, hk⟩ := List.mem_map.mp (List.mem_eraseDups.mp hkey)
      refine Option.isSome_iff_exists.mp (List.find?_isSome.mpr ⟨row, List.mem_reverse.mpr hmem, ?_⟩)
      exact decide_eq_true hk
    obtain ⟨dates, hpush, hdates⟩ :=
      exists_rates_push (perform_of_putRatesBulk h) (hsame ▸ hproperty) hrow
    exact ⟨property, dates, hproperty, hpush, hdates⟩

/-- A mapped plan is found by a push under its property. -/
theorem finds_of_mapped {k : Mapping} (hk : Mapped k db)
    (hunique : UniqueMaps k.link.propertyId k.link db) :
    Finds k.link.propertyId k.room.roomTypeId k.plan.ratePlanId db := by
  refine ⟨k.link, k.room, k.plan, hunique.activeRoomMap_eq hk.room, ?_⟩
  refine find?_eq_of_unique hk.plan (by simp [hk.ofRoom]) ?_
  intro m hm hp
  simp only [Bool.and_eq_true, decide_eq_true_eq] at hp
  exact hunique.ratePlans m (mem_syncRateMaps.mpr ⟨hm, k.room, hk.room, hp.1.symm⟩) k.plan
    (mem_syncRateMaps.mpr ⟨hk.plan, k.room, hk.room, hk.ofRoom.symm⟩)
    (hp.1.trans hk.ofRoom.symm) hp.2

/-- The pushes cover every rate that was written, and find the maps of its plan where the
room type's own property has them, when all segments are for the first one's property. -/
theorem bulk_pushes_cover_iff (h : putRatesBulk body db = .ok (db', pushes)) :
    (∀ rt rp d, (rt, rp, d) ∈ body.keys → Covered db pushes rt rp d ∧
      ∀ k, Mapped k db' → UniqueMaps k.link.propertyId k.link db' → k.room.roomTypeId = rt →
        k.plan.ratePlanId = rp → propertyOf rt db = some k.link.propertyId →
        ∃ dates, Push.rates k.link.propertyId rt rp dates ∈ pushes ∧ d ∈ dates ∧
          Finds k.link.propertyId rt rp db') ↔
      ∀ seg ∈ body.segments, propertyOf seg.roomTypeId db = body.propertyId db := by
  constructor
  · intro hall seg hseg
    have hkey : (seg.roomTypeId, seg.ratePlanId, seg.startDate) ∈ body.keys :=
      mem_keys.mpr ⟨seg, hseg, rfl, rfl, le_rfl, seg.start_le⟩
    exact (covered_iff h hkey).mp (hall _ _ _ hkey).1
  · intro hsame rt rp d hkey
    obtain ⟨seg, hseg, rfl, rfl, -⟩ := mem_keys.mp hkey
    have hcovered := (covered_iff h hkey).mpr (hsame seg hseg)
    refine ⟨hcovered, ?_⟩
    intro k hk hunique hroom hplan hproperty
    obtain ⟨property, dates, hown, hpush, hd⟩ := hcovered
    obtain rfl : property = k.link.propertyId := Option.some.inj (hown.symm.trans hproperty)
    refine ⟨dates, hpush, hd, ?_⟩
    rw [← hroom, ← hplan]
    exact finds_of_mapped hk hunique

end Bulk

/-! Two hotels of one tenant -/

namespace Demo

/-- The second hotel is linked as well. -/
def twoHotels : AriDb :=
  { mapped with
    properties := [1, 2]
    roomTypes := ⟨[⟨10, 1, "Double", 1, 2, false⟩, ⟨11, 2, "Suite", 1, 2, false⟩], by decide⟩
    ratePlans := [⟨5, 1⟩, ⟨6, 2⟩]
    roomTypeMaps := [roomMap, ⟨21, 2, 11, "suite"⟩]
    ratePlanMaps := [rateMap, ⟨31, 21, 6, "flexible"⟩]
    links := [link, ⟨⟨2, 2⟩, "resort", "active"⟩] }

def oneDay (rt rp : UUID) : BulkRateSegment where
  roomTypeId := rt
  ratePlanId := rp
  startDate := 3
  endDate := 3
  price := 120
  stopSell := false
  minStayArrival := none
  maxStay := none
  price_nonneg := by norm_num
  min_pos := one_le_of_none
  max_pos := one_le_of_none
  start_le := day_le
  min_le_max := none_le_none

def bothHotels : BulkRatesPutRequest where
  segments := [oneDay 10 5, oneDay 11 6]
  segments_ne := List.cons_ne_nil _ _
  total_span_le := by decide

/-- The day of the first segment and the next one, for one hotel. -/
def oneHotel (rt rp : UUID) : BulkRatesPutRequest where
  segments := [oneDay rt rp, { oneDay rt rp with startDate := 4, endDate := 4, start_le := le_rfl }]
  segments_ne := List.cons_ne_nil _ _
  total_span_le := by simp [oneDay]

/-- The plan of the second hotel, as it is mapped. -/
def resort : Mapping :=
  ⟨⟨⟨2, 2⟩, "resort", "active"⟩, ⟨21, 2, 11, "suite"⟩, ⟨31, 21, 6, "flexible"⟩⟩

theorem mapped_resort : Mapped resort twoHotels where
  found := by decide
  active := rfl
  room := by decide
  plan := by decide
  ofRoom := rfl

theorem uniqueMaps_resort : UniqueMaps 2 resort.link twoHotels where
  found := by decide
  active := rfl
  ids := by decide
  roomTypes := by decide
  ratePlans := by decide

end Demo

/-- Each hotel alone, with two segments, and the maps of the second one. -/
theorem bulk_pushes_cover_mapped :
    (∀ rt rp d, (rt, rp, d) ∈ (Demo.oneHotel 10 5).keys →
        Covered Demo.twoHotels [.rates 1 10 5 [3, 4]] rt rp d) ∧
      (∀ rt rp d, (rt, rp, d) ∈ (Demo.oneHotel 11 6).keys →
        Covered Demo.twoHotels [.rates 2 11 6 [3, 4]] rt rp d) ∧
      (11, 6, 4) ∈ (Demo.oneHotel 11 6).keys ∧
      Finds 2 11 6 (upsertRates (Demo.oneHotel 11 6) Demo.twoHotels) := by
  have hput : putRatesBulk (Demo.oneHotel 10 5) Demo.twoHotels =
      .ok (upsertRates (Demo.oneHotel 10 5) Demo.twoHotels, [.rates 1 10 5 [3, 4]]) :=
    putRatesBulk_of_pushes (by decide +kernel)
  have hput' : putRatesBulk (Demo.oneHotel 11 6) Demo.twoHotels =
      .ok (upsertRates (Demo.oneHotel 11 6) Demo.twoHotels, [.rates 2 11 6 [3, 4]]) :=
    putRatesBulk_of_pushes (by decide +kernel)
  have hhotel := (bulk_pushes_cover_iff hput).mpr (by decide)
  have hresort := (bulk_pushes_cover_iff hput').mpr (by decide)
  have hkey : (11, 6, 4) ∈ (Demo.oneHotel 11 6).keys := by decide
  have hmaps : SameMaps Demo.twoHotels (upsertRates (Demo.oneHotel 11 6) Demo.twoHotels) :=
    sameMaps_upsertRates _
  refine ⟨fun rt rp d h => (hhotel rt rp d h).1, fun rt rp d h => (hresort rt rp d h).1, hkey, ?_⟩
  obtain ⟨_, _, _, hfinds⟩ := (hresort 11 6 4 hkey).2 Demo.resort (hmaps.mapped Demo.mapped_resort)
    (hmaps.uniqueMaps Demo.uniqueMaps_resort) rfl rfl (by decide)
  exact hfinds

/-- The rates of the second hotel are pushed under the first one, where no map is found. -/
theorem bulk_pushes_miss_second :
    putRatesBulk Demo.bothHotels Demo.twoHotels =
        .ok (upsertRates Demo.bothHotels Demo.twoHotels,
          [.rates 1 10 5 [3], .rates 1 11 6 [3]]) ∧
      (11, 6, 3) ∈ Demo.bothHotels.keys ∧
      ¬ Covered Demo.twoHotels [.rates 1 10 5 [3], .rates 1 11 6 [3]] 11 6 3 ∧
      Finds 2 11 6 (upsertRates Demo.bothHotels Demo.twoHotels) ∧
      runPushChannexRates 1 11 6 [3] (upsertRates Demo.bothHotels Demo.twoHotels) = [] := by
  have hfinds : Finds 2 11 6 (upsertRates Demo.bothHotels Demo.twoHotels) :=
    ⟨Demo.resort.link, Demo.resort.room, Demo.resort.plan, by decide, by decide⟩
  refine ⟨putRatesBulk_of_pushes (by decide +kernel), by decide, ?_, hfinds, rfl⟩
  rintro ⟨property, dates, hproperty, hpush, -⟩
  have hown : property = 2 := (Option.some.inj hproperty).symm
  rw [hown] at hpush
  simp at hpush

end OpenPms.Ari
