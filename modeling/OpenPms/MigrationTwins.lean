import Mathlib.Data.List.DropRight
import OpenPms.MigrationRecords

/-!
What a request that is sent twice leaves twice. The server looks for the email of a guest
and for the external id of a booking before it stores one, so these never get a twin. It
does not look for the name of a room type or a rate plan: there the migration looks, and
only once, before the request that may be repeated. Names get no twin as long as no answer
to a request that creates one is lost.
-/
namespace OpenPms.Migration

open Transaction Prog KeyedTable

/-! Values that are added once -/

/-- Each value that has been added is new, and added once. -/
def Grown {α : Type} (old new : List α) : Prop :=
  ∃ added, new = old ++ added ∧ added.Nodup ∧ ∀ a ∈ added, a ∉ old

/-- At most one value is added, and it is new. -/
def Adds {α : Type} (old new : List α) : Prop := new = old ∨ ∃ a, a ∉ old ∧ new = old ++ [a]

/-- The value may have been added. -/
def Appends {α : Type} (a : α) (old new : List α) : Prop := new = old ∨ new = old ++ [a]

section Grown
variable {α : Type} {a : α} {old mid new : List α}

theorem Appends.adds (h : Appends a old new) (ha : a ∉ old) : Adds old new :=
  h.imp_right fun h => ⟨a, ha, h⟩

theorem Appends.mem {b : α} (h : Appends a old new) (hb : b ∈ new) : b ∈ old ∨ b = a := by
  rcases h with rfl | rfl
  · exact .inl hb
  · exact (List.mem_append.mp hb).imp_right List.mem_singleton.mp

theorem Adds.refl (old : List α) : Adds old old := .inl rfl

theorem Grown.refl (old : List α) : Grown old old :=
  ⟨[], (List.append_nil old).symm, List.nodup_nil, fun _ h => absurd h List.not_mem_nil⟩

theorem Adds.grown (h : Adds old new) : Grown old new := by
  rcases h with rfl | ⟨a, ha, rfl⟩
  · exact .refl _
  · refine ⟨[a], rfl, List.nodup_singleton a, fun b hb => ?_⟩
    rwa [List.mem_singleton.mp hb]

theorem Grown.trans (h : Grown old mid) (h' : Grown mid new) : Grown old new := by
  obtain ⟨added, rfl, hnodup, hfresh⟩ := h
  obtain ⟨more, rfl, hnodup', hfresh'⟩ := h'
  refine ⟨added ++ more, List.append_assoc .., ?_, fun a ha => ?_⟩
  · refine List.nodup_append.mpr ⟨hnodup, hnodup', ?_⟩
    rintro a ha b hb rfl
    exact hfresh' a hb (List.mem_append_right _ ha)
  · rcases List.mem_append.mp ha with ha | ha
    · exact hfresh a ha
    · exact fun hold => hfresh' a ha (List.mem_append_left _ hold)

/-- What was there at most once is there at most once. -/
theorem Grown.nodup (h : Grown old new) (hold : old.Nodup) : new.Nodup := by
  obtain ⟨added, rfl, hnodup, hfresh⟩ := h
  refine List.nodup_append.mpr ⟨hold, hnodup, ?_⟩
  rintro a ha b hb rfl
  exact hfresh a hb ha

end Grown

/-! Guests -/

def guestEmails (db : Db) : List String := db.guests.rows.map (·.email)

theorem ignoresStays_guestEmails : IgnoresStays guestEmails where
  rooms _ _ := rfl
  ledger _ _ := rfl
  bookings _ _ := rfl
  folio _ _ := rfl

theorem not_mem_guestEmails {email : String} {db : Db} (h : findGuestByEmail email db = none) :
    email ∉ guestEmails db := by
  intro hmem
  obtain ⟨g, hg, heq⟩ := List.mem_map.mp hmem
  have hne := List.find?_eq_none.mp h g hg
  simp [heq] at hne

theorem guestEmails_insert {g : Guest} {db : Db} (hemail : findGuestByEmail g.email db = none)
    (hid : db.guests.find g.id = none) :
    Adds (guestEmails db) (guestEmails { db with guests := db.guests.insert g }) := by
  refine .inr ⟨g.email, not_mem_guestEmails hemail, ?_⟩
  simp [guestEmails, Table.insert_rows hid]

theorem adds_flushGuest {g : Guest} : Relates guestEmails Adds (flushGuest g) := by
  intro db inserted db' h
  simp only [flushGuest, exec_bind_ok, exec_select, Prod.mk.injEq, Except.ok.injEq] at h
  obtain ⟨clash, _, ⟨hclash, rfl⟩, h⟩ := h
  split at h
  · cases h
    exact .refl _
  · next hfree =>
    cases h
    rw [← hclash, Bool.or_eq_true, not_or, Option.not_isSome_iff_eq_none,
      Option.not_isSome_iff_eq_none] at hfree
    exact guestEmails_insert hfree.1 hfree.2

theorem adds_getOrCreateGuest {env : Env} {payload : GuestPayload} {force : Bool} :
    Relates guestEmails Adds (getOrCreateGuestForBooking env payload force) := by
  unfold getOrCreateGuestForBooking
  split
  · exact relates_bind_keeps adds_flushGuest fun _ => keeps_bind (keeps_raiseIf _) fun _ =>
      keeps_pure _
  · refine relates_keeps_bind (keeps_select _) fun existing => ?_
    split
    · exact (keeps_pure _).relates .refl
    · refine relates_bind_keeps adds_flushGuest fun inserted => ?_
      split
      · exact keeps_pure _
      · refine keeps_bind (keeps_select _) fun again => ?_
        split
        · exact keeps_pure _
        · exact keeps_raise _

theorem emails_update {guests : Table Guest.id} {id : UUID} {g : Guest → Guest}
    {hg : ∀ v, (g v).id = v.id} (hemail : ∀ v, (g v).email = v.email) :
    (guests.update id g hg).rows.map (·.email) = guests.rows.map (·.email) := by
  unfold Table.update
  rw [List.map_map]
  apply List.map_congr_left
  intro v _
  by_cases hv : v.id = id
  · simp [hv, hemail]
  · simp [hv]

/-! Bookings -/

def bookingIds (db : Db) : List String := db.externals.filterMap (·.2)

theorem keeps_bookingIds {α : Type} {tx : Tx α} (h : Writes ExternalsKept tx) :
    Keeps bookingIds tx := fun db =>
  congrArg (List.filterMap fun x : UUID × Option String => x.2)
    (h.keeps (f := Db.externals) (fun _ hg => hg) db)

theorem adds_flushBooking {b : Booking} {db db' : Db} {u : Unit}
    (hfree : ∀ e, b.externalBookingId = some e → e ∉ bookingIds db)
    (h : (flushBooking b).exec db = (.ok u, db')) : Adds (bookingIds db) (bookingIds db') := by
  simp only [flushBooking, exec_bind_ok, exec_raiseIf_ok, exec_select, exec_modify,
    Prod.mk.injEq, Except.ok.injEq] at h
  obtain ⟨-, s1, ⟨-, rfl⟩, clash, s2, ⟨rfl, rfl⟩, -, s3, ⟨hclash, rfl⟩, -, rfl⟩ := h
  have hfresh : db.bookings.find b.id = none := not_not.mp hclash
  have hrows : bookingIds { db with bookings := db.bookings.insert b } =
      bookingIds db ++ [(b.id, b.externalBookingId)].filterMap (·.2) := by
    simp only [bookingIds, Db.externals, Table.insert_rows hfresh, List.map_append,
      List.filterMap_append, List.map_cons, List.map_nil]
  rw [hrows]
  cases hext : b.externalBookingId with
  | none => exact .inl (List.append_nil _)
  | some e => exact .inr ⟨e, hfree e hext, rfl⟩

theorem adds_createBooking {env : Env} {body : BookingCreateRequest} :
    Relates bookingIds Adds (createBooking env body) := by
  intro db out db' h
  obtain ⟨nights, s1, hnights, h⟩ := exec_bind_ok.mp h
  obtain ⟨dup, s2, hdup, h⟩ := exec_bind_ok.mp h
  obtain ⟨_, s3, hunique, h⟩ := exec_bind_ok.mp h
  obtain ⟨_, s4, htype, h⟩ := exec_bind_ok.mp h
  obtain ⟨_, s5, hplan, h⟩ := exec_bind_ok.mp h
  obtain ⟨_, s6, hsum, h⟩ := exec_bind_ok.mp h
  obtain ⟨_, s7, hclaim, h⟩ := exec_bind_ok.mp h
  obtain ⟨_, s8, hguest, h⟩ := exec_bind_ok.mp h
  obtain ⟨_, s9, hinsert, h⟩ := exec_bind_ok.mp h
  cases h
  have hstart : bookingIds s1 = bookingIds db := (keeps_bookingIds (writes_ofExcept _)).eq hnights
  simp only [exec_select, Prod.mk.injEq, Except.ok.injEq] at hdup
  obtain ⟨rfl, rfl⟩ := hdup
  obtain ⟨hnone, rfl⟩ := exec_raiseIf_ok.mp hunique
  have hcheck : bookingIds s5 = bookingIds s4 ∧ bookingIds s4 = bookingIds s1 :=
    ⟨(keeps_bind (keeps_select _) fun _ => keeps_raiseIf _).eq hplan,
      (keeps_bind (keeps_select _) fun _ => keeps_raiseIf _).eq htype⟩
  have hkept : bookingIds s8 = bookingIds s1 := by
    rw [(keeps_bookingIds (kept_plain plain_getOrCreateGuest)).eq hguest,
      (keeps_bookingIds (kept_counts counts_claim)).eq hclaim,
      (keeps_bookingIds (kept_plain plain_sumRates)).eq hsum, hcheck.1, hcheck.2]
  obtain ⟨_, s10, hrows, hpick⟩ := exec_bind_ok.mp hinsert
  obtain ⟨_, s11, hflush, hrest⟩ := exec_bind_ok.mp hrows
  have hadds := adds_flushBooking ?_ hflush
  · rw [hkept, hstart, ← (keeps_bookingIds (kept_insertRest ..)).eq hrest] at hadds
    rwa [(keeps_bookingIds (writes_bind (kept_plain plain_pickFirstFreeRoom) fun _ =>
      kept_plain plain_assignPicked)).eq hpick]
  · intro e he hmem
    rw [hkept] at hmem
    have hext : externalRef body.externalBookingId = some e := he
    obtain ⟨x, hx, hxe⟩ := List.mem_filterMap.mp hmem
    obtain ⟨b, hb, rfl⟩ := List.mem_map.mp hx
    have hbe : b.externalBookingId = some e := hxe
    refine hnone (List.any_eq_true.mpr ⟨b, hb, ?_⟩)
    simp [hext, hbe]

/-! The endpoints -/

/-- What a booking or a guest is found by: only their creation adds to it, and nothing that
is there already. -/
structure Unrepeated (keys : Db → List String) : Prop extends IgnoresRooms keys where
  roomTypes : ∀ (db : Db) roomTypes, keys { db with roomTypes := roomTypes } = keys db
  ratePlans : ∀ (db : Db) ratePlans, keys { db with ratePlans := ratePlans } = keys db
  rates : ∀ body (db : Ari.AriDb), keys (Ari.upsertRates body db).toDb = keys db.toDb
  guest : ∀ (g : Guest) (db : Db), findGuestByEmail g.email db = none →
    db.guests.find g.id = none → Adds (keys db) (keys { db with guests := db.guests.insert g })
  patchedGuest : ∀ (db : Db) id body, keys { db with
    guests := db.guests.update id (patchedGuest body) (id_patchedGuest body) } = keys db
  booking : ∀ env body, Relates keys Adds (createBooking env body)
  patchedBooking : ∀ env bid s,
    Keeps keys (OpenPms.patchBooking env bid { status := some (some s) })

theorem unrepeated_guestEmails : Unrepeated guestEmails where
  toIgnoresRooms := ignoresStays_guestEmails.toIgnoresRooms
  roomTypes _ _ := rfl
  ratePlans _ _ := rfl
  rates _ _ := rfl
  guest _ _ := guestEmails_insert
  patchedGuest _ _ body := @emails_update _ _ _ (id_patchedGuest body) fun _ => rfl
  booking _ _ := stays_createBooking ignoresStays_guestEmails adds_getOrCreateGuest
  patchedBooking _ _ _ := stays_patchBooking ignoresStays_guestEmails

theorem unrepeated_bookingIds : Unrepeated bookingIds where
  rooms _ _ := rfl
  ledger _ _ := rfl
  roomTypes _ _ := rfl
  ratePlans _ _ := rfl
  rates _ _ := rfl
  guest _ _ _ _ := .refl _
  patchedGuest _ _ _ := rfl
  booking _ _ := adds_createBooking
  patchedBooking _ _ _ := keeps_bookingIds (kept_patchStatusOnly ..)

section Unrepeated
variable {keys : Db → List String} (hkeys : Unrepeated keys)
include hkeys

theorem Unrepeated.createRoomType {env : Env} {data : RoomTypeCreate} :
    Keeps keys (OpenPms.createRoomType env data) :=
  keeps_bind (keeps_select _) fun _ => keeps_bind (keeps_raiseIf _) fun _ =>
    keeps_bind (keeps_select _) fun _ => keeps_bind (keeps_raiseIf _) fun _ =>
      keeps_bind (keeps_modify fun db => hkeys.roomTypes db _) fun _ =>
        keeps_bind (keeps_select _) fun _ =>
          keeps_bind (keeps_seedYear hkeys.toIgnoresRooms) fun _ => keeps_pure _

omit hkeys in
theorem adds_transaction {α β : Type} {t : Tenant} {tx : Tx α} {status : Err → ℕ}
    {commit : α → Tenant → Reply β × Tenant} (htx : Relates keys Adds tx)
    (hcommit : ∀ a t, (commit a t).2.db.toDb = t.db.toDb) :
    Adds (keys t.db.toDb) (keys (transaction t tx status commit).2.db.toDb) := by
  unfold transaction
  split
  · next a core hexec =>
    rw [hcommit]
    exact htx _ _ _ hexec
  · exact .refl _

/-- No request stores a second guest under an email, or a second booking under an id. -/
theorem adds_openPms (draws : Draws) (q : Request) (t : Tenant) :
    Adds (keys t.db.toDb) (keys (openPms draws q t).2.db.toDb) := by
  have hrooms := hkeys.toIgnoresRooms
  cases q with
  | listRoomTypes | listRatePlans | listGuests | listBookings | listBookingsWindow => exact .refl _
  | createRoomType propertyId rt =>
    simp only [openPms, createRoomType]
    split
    · exact adds_transaction (hkeys.createRoomType.relates .refl) fun _ _ => rfl
    · exact .refl _
  | bulkCreateRooms rt rooms =>
    simp only [openPms, bulkCreateRooms]
    split
    · refine adds_transaction ((keeps_createRoomsBulk hrooms).relates .refl) fun _ _ => ?_
      split <;> rfl
    · exact .refl _
  | createRatePlan propertyId name policy =>
    simp only [openPms, createRatePlan]
    split
    · exact .refl _
    · split
      · exact .refl _
      · split
        · exact .refl _
        · exact .inl (hkeys.ratePlans ..)
  | bulkPutRates rt rp start stop price =>
    simp only [openPms, bulkPutRates]
    split
    · split
      · next hupsert =>
        rw [bulkUpsertRates_db hupsert]
        exact .inl (hkeys.rates ..)
      · exact .refl _
    · exact .refl _
  | seedAvailability rt start stop =>
    simp only [openPms, seedAvailability]
    split
    · exact adds_transaction ((keeps_bulkSeed hrooms).relates .refl) fun _ _ => rfl
    · exact .refl _
  | createGuest body =>
    simp only [openPms, createGuest]
    split
    · split
      · exact .refl _
      · split
        · exact .refl _
        · next hfree =>
          rw [not_or, Option.not_isSome_iff_eq_none, Option.not_isSome_iff_eq_none] at hfree
          exact hkeys.guest _ _ hfree.1 hfree.2
    · exact .refl _
  | patchGuest id body =>
    simp only [openPms, patchGuest]
    split
    · exact .refl _
    · split
      · exact .refl _
      · split
        · exact .refl _
        · exact .inl (hkeys.patchedGuest ..)
  | createBooking body =>
    simp only [openPms, postBooking]
    split
    · refine adds_transaction (hkeys.booking _ _) fun _ _ => ?_
      split <;> rfl
    · exact .refl _
  | patchBooking id status =>
    exact adds_transaction ((hkeys.patchedBooking _ _ _).relates .refl) fun _ _ => rfl

end Unrepeated

/-! Names -/

theorem nameKey_strip (name : String) : nameKey (Text.strip name) = nameKey name := by
  unfold nameKey
  rw [strip_strip]

/-- The names of the property's room types, as they are compared. -/
def roomTypeNames (propertyId : UUID) (t : Tenant) : List String :=
  (t.db.roomTypes.rows.filter fun r => r.propertyId = propertyId && !r.deleted).map
    fun r => nameKey r.name

def ratePlanNames (propertyId : UUID) (t : Tenant) : List String :=
  (t.db.ratePlans.filter fun r => r.propertyId = propertyId).map
    fun r => nameKey (t.planColumns r.id).name

theorem SameNames.roomTypeNames {t t' : Tenant} (h : SameNames t t') (propertyId : UUID) :
    roomTypeNames propertyId t' = roomTypeNames propertyId t := by
  unfold Migration.roomTypeNames
  rw [h.roomTypes]

theorem SameNames.ratePlanNames {t t' : Tenant} (h : SameNames t t') (propertyId : UUID) :
    ratePlanNames propertyId t' = ratePlanNames propertyId t := by
  unfold Migration.ratePlanNames
  rw [h.ratePlans, h.columns]

section Created
variable {draws : Draws} {propertyId : UUID} {t : Tenant}

theorem roomTypeNames_created {env : Env} {data : RoomTypeCreate} {row : RoomType} {core : Db}
    (h : (OpenPms.createRoomType env data).exec t.db.toDb = (.ok row, core)) :
    roomTypeNames data.propertyId (t.setCore core) =
      roomTypeNames data.propertyId t ++ [nameKey data.name] := by
  simp only [OpenPms.createRoomType, exec_bind_ok, exec_select, exec_raiseIf_ok, exec_modify,
    Prod.mk.injEq, Except.ok.injEq] at h
  obtain ⟨_, _, ⟨rfl, rfl⟩, _, _, ⟨-, rfl⟩, _, _, ⟨rfl, rfl⟩, _, _, ⟨hclash, rfl⟩, _, _,
    ⟨-, rfl⟩, _, _, ⟨rfl, rfl⟩, _, _, hseed, h⟩ := h
  cases h
  have hkept := (keeps_seedYear ignoresStays_catalog.toIgnoresRooms).eq hseed
  have hrows : core.roomTypes = t.db.roomTypes.insert ⟨env.roomTypeId, data.propertyId,
      Text.strip data.name, data.baseOccupancy, data.maxOccupancy, false⟩ :=
    congrArg Prod.fst hkept
  have hfresh : t.db.roomTypes.find env.roomTypeId = none := not_not.mp hclash
  unfold roomTypeNames
  change (core.roomTypes.rows.filter _).map _ = _
  rw [hrows, Table.insert_rows hfresh]
  simp [nameKey_strip]

theorem ratePlanNames_created {env : Env} {data : RoomTypeCreate} {row : RoomType} {core : Db}
    (h : (OpenPms.createRoomType env data).exec t.db.toDb = (.ok row, core)) :
    ratePlanNames propertyId (t.setCore core) = ratePlanNames propertyId t := by
  have hplans : Keeps Db.ratePlans (OpenPms.createRoomType env data) :=
    keeps_bind (keeps_select _) fun _ => keeps_bind (keeps_raiseIf _) fun _ =>
      keeps_bind (keeps_select _) fun _ => keeps_bind (keeps_raiseIf _) fun _ =>
        keeps_bind (keeps_modify fun _ => rfl) fun _ => keeps_bind (keeps_select _) fun _ =>
          keeps_bind (keeps_seedYear ⟨fun _ _ => rfl, fun _ _ => rfl⟩) fun _ => keeps_pure _
  unfold ratePlanNames
  change (core.ratePlans.filter _).map _ = _
  rw [hplans.eq h]
  rfl

/-- A room type is stored under the name it was sent with, if it is stored. -/
theorem names_createRoomType {rt : RoomTypeRecord} :
    Appends (nameKey rt.name) (roomTypeNames propertyId t)
      (roomTypeNames propertyId (openPms draws (.createRoomType propertyId rt) t).2) ∧
    ratePlanNames propertyId (openPms draws (.createRoomType propertyId rt) t).2 =
      ratePlanNames propertyId t := by
  simp only [openPms, createRoomType]
  split
  · unfold transaction
    split
    · next row core hexec => exact ⟨.inr (roomTypeNames_created hexec), ratePlanNames_created hexec⟩
    · exact ⟨.inl rfl, rfl⟩
  · exact ⟨.inl rfl, rfl⟩

theorem names_createRatePlan {name policy : String} :
    Appends (nameKey name) (ratePlanNames propertyId t)
      (ratePlanNames propertyId (openPms draws (.createRatePlan propertyId name policy) t).2) ∧
    roomTypeNames propertyId (openPms draws (.createRatePlan propertyId name policy) t).2 =
      roomTypeNames propertyId t := by
  simp only [openPms, createRatePlan]
  split
  · exact ⟨.inl rfl, rfl⟩
  · split
    · exact ⟨.inl rfl, rfl⟩
    · split
      · exact ⟨.inl rfl, rfl⟩
      · next hfresh =>
        refine ⟨.inr ?_, rfl⟩
        have hother : ∀ r ∈ t.db.ratePlans, r.id ≠ draws.ratePlanId t.drawn := by
          intro r hr heq
          exact hfresh (List.any_eq_true.mpr ⟨r, hr, by simp [heq]⟩)
        simp only [ratePlanNames, Tenant.setCore, Tenant.setPlanColumns, Tenant.draw,
          List.filter_append, List.map_append]
        refine congrArg₂ (· ++ ·) (List.map_congr_left fun r hr => ?_) ?_
        · rw [if_neg (hother r (List.mem_of_mem_filter hr))]
        · have hown : [(⟨draws.ratePlanId t.drawn, propertyId⟩ : RatePlan)].filter
              (fun r => r.propertyId = propertyId) = [⟨draws.ratePlanId t.drawn, propertyId⟩] := by
            simp
          rw [hown, List.map_singleton, if_pos rfl, nameKey_strip]

end Created

end OpenPms.Migration
