import OpenPms.IngestRefusals
import OpenPms.PatchErrors

/-!
Three queries for a free room: the list that the front desk is offered, the check of an
assignment, and the room that a new booking gets. The first two look at the deletion of
the type and the first at the status of the room. The last one looks at neither, and it
agrees with them when the first free room by name is one that the list offers.
-/
namespace OpenPms

open KeyedTable Transaction Prog

/-- The schema has validated the dates. -/
structure AssignableRoomsQueryParams where
  propertyId : UUID
  roomTypeId : UUID
  checkIn : ℤ
  checkOut : ℤ
  checkIn_lt : checkIn < checkOut
  span_le : checkOut - checkIn ≤ maxStayNights

def roomsAvailable (rt : UUID) (db : Db) : List Room :=
  (db.rooms.rows.filter fun r => r.roomTypeId = rt && !r.deleted &&
    r.status = "available").insertionSort fun a b => a.name ≤ b.name

/-- The rooms that some active booking has on one of the nights. -/
def busyIds (roomIds : List UUID) (nights : List ℤ) (db : Db) : List UUID :=
  (((db.bookings.rows.filter (·.status.Active)).flatMap (·.lines)).filter fun ln =>
    ln.date ∈ nights).filterMap (·.roomId) |>.filter (· ∈ roomIds) |>.dedup

def listAssignableRoomsForStay (params : AssignableRoomsQueryParams) :
    Tx (Option (List Room)) := do
  let known ← select fun db => decide (params.propertyId ∈ db.properties)
  if known = false then pure none
  else do
    let rt ← select fun db => db.roomTypes.rows.find? fun t => t.id = params.roomTypeId &&
      (decide (t.propertyId = params.propertyId) && !t.deleted)
    if rt = none then pure none
    else do
      let nights ← stayNights params.checkIn params.checkOut
      let rooms ← select (roomsAvailable params.roomTypeId)
      if rooms = [] then pure (some [])
      else do
        let busy ← select (busyIds (rooms.map (·.id)) nights)
        pure (some (rooms.filter (·.id ∉ busy)))

/-- The picker, with the answer of its query as a parameter. -/
def pickFrom (query : Db → List Room) (nights : List ℤ) (exclude : UUID) : Tx (Option UUID) :=
  if sortedDates nights = [] then pure none
  else do
    let rooms ← select query
    firstFreeRoom (sortedDates nights) exclude rooms

theorem pickFirstFreeRoomForStay_eq {propertyId rt : UUID} :
    pickFirstFreeRoomForStay propertyId rt = pickFrom (candidateRooms propertyId rt) := rfl

/-- An answer of the picker's query: rooms of the same name come in any order. -/
structure ByName (db : Db) (propertyId rt : UUID) (rooms : List Room) : Prop where
  perm : rooms.Perm (candidateRooms propertyId rt db)
  sorted : rooms.Pairwise fun a b => a.name ≤ b.name

/-- The query of the front desk for the booking. -/
structure AssignableRoomsQueryParams.For (params : AssignableRoomsQueryParams) (b : Booking) :
    Prop where
  property : params.propertyId = b.propertyId
  roomType : lineRoomTypes b.lines = [params.roomTypeId]
  dates : (params.checkIn, params.checkOut) = stayBounds b.lines

/-- What is picked from the listed rooms: the first one by name. -/
def FirstByName (rooms : List Room) : Option UUID → Prop
  | none => rooms = []
  | some rid => ∃ r ∈ rooms, r.id = rid ∧ ∀ r' ∈ rooms, r.name ≤ r'.name

/-- Every listed room is accepted, and the picked one is the first of the list. -/
structure RoomPickersAgree (db : Db) (b : Booking) (params : AssignableRoomsQueryParams) :
    Prop where
  accepted : ∀ rooms db₁, (listAssignableRoomsForStay params).exec db = (.ok (some rooms), db₁) →
    ∀ r ∈ rooms, ∃ db', (assignBookingRoom b.id (some r.id)).exec db = (.ok (), db')
  picked : ∀ query : Db → List Room, ByName db b.propertyId params.roomTypeId (query db) →
    ∃ listed rid, (listAssignableRoomsForStay params).exec db = (.ok listed, db) ∧
      (pickFrom query b.nights b.id).exec db = (.ok rid, db) ∧ FirstByName (listed.getD []) rid

/-! The rooms of the three queries -/

/-- The front desk sees the type. -/
def RoomTypeListed (db : Db) (propertyId rt : UUID) : Prop :=
  propertyId ∈ db.properties ∧
    ∃ t, db.roomTypes.find rt = some t ∧ t.propertyId = propertyId ∧ t.deleted = false

/-- A room of the type for the stay, as the picker sees it. -/
structure FreeRoom (db : Db) (b : Booking) (rt : UUID) (r : Room) : Prop where
  room : r ∈ db.rooms.rows
  roomType : r.roomTypeId = rt
  kept : r.deleted = false
  property : ∃ t, db.roomTypes.find rt = some t ∧ t.propertyId = b.propertyId
  free : ¬ RoomTaken db r.id b.nights b.id

/-- The free rooms that come first by name are available, and their type is listed. -/
def FirstFreeListed (db : Db) (b : Booking) (rt : UUID) : Prop :=
  ∀ r, FreeRoom db b rt r → (∀ r', FreeRoom db b rt r' → r.name ≤ r'.name) →
    r.status = "available" ∧ RoomTypeListed db b.propertyId rt

section Queries
variable {db : Db} {b : Booking} {rt : UUID} {r : Room}

theorem roomTaken_nights {room exclude : UUID} {nights nights' : List ℤ}
    (h : ∀ d, d ∈ nights ↔ d ∈ nights') :
    RoomTaken db room nights exclude ↔ RoomTaken db room nights' exclude := by
  simp only [RoomTaken, h]

theorem freeRoom_iff : FreeRoom db b rt r ↔
    r ∈ candidateRooms b.propertyId rt db ∧ ¬ RoomTaken db r.id (sortedDates b.nights) b.id := by
  have htaken := @roomTaken_nights db r.id b.id b.nights (sortedDates b.nights)
    fun d => mem_sortedDates.symm
  rw [mem_candidateRooms, ← htaken]
  constructor
  · intro h
    exact ⟨⟨h.room, h.roomType, h.kept, h.property⟩, h.free⟩
  · rintro ⟨⟨hroom, htype, hkept, hproperty⟩, hfree⟩
    exact ⟨hroom, htype, hkept, hproperty, hfree⟩

theorem mem_busyIds {roomIds : List UUID} {nights : List ℤ} {room : UUID}
    (hroom : room ∈ roomIds) : room ∈ busyIds roomIds nights db ↔
      ∃ b ∈ db.bookings.rows, b.status.Active ∧
        ∃ ln ∈ b.lines, ln.roomId = some room ∧ ln.date ∈ nights := by
  simp only [busyIds, List.mem_dedup, List.mem_filter, List.mem_filterMap, List.mem_flatMap,
    decide_eq_true_eq, hroom, and_true]
  constructor
  · rintro ⟨ln, ⟨⟨b, ⟨hb, hactive⟩, hln⟩, hdate⟩, hassigned⟩
    exact ⟨b, hb, hactive, ln, hln, hassigned, hdate⟩
  · rintro ⟨b, hb, hactive, ln, hln, hassigned, hdate⟩
    exact ⟨ln, ⟨⟨b, ⟨hb, hactive⟩, hln⟩, hdate⟩, hassigned⟩

/-- A booking without a room keeps no room busy. -/
theorem mem_busyIds_iff_taken {roomIds : List UUID} {nights : List ℤ} {room : UUID}
    (hfind : db.bookings.find b.id = some b) (hroomless : ∀ ln ∈ b.lines, ln.roomId = none)
    (hroom : room ∈ roomIds) :
    room ∈ busyIds roomIds nights db ↔ RoomTaken db room nights b.id := by
  rw [mem_busyIds hroom]
  constructor
  · rintro ⟨b', hb', hactive, ln, hln, hassigned, hdate⟩
    refine ⟨b', hb', ?_, hactive, ln, hln, hassigned, hdate⟩
    intro hid
    have hsame : b' = b := by
      have hfound := Table.find_of_mem hb'
      rw [hid] at hfound
      exact Option.some.inj (hfound.symm.trans hfind)
    rw [hroomless ln (hsame ▸ hln)] at hassigned
    cases hassigned
  · rintro ⟨b', hb', -, hrest⟩
    exact ⟨b', hb', hrest⟩

theorem mem_roomsAvailable : r ∈ roomsAvailable rt db ↔ r ∈ db.rooms.rows ∧ r.roomTypeId = rt ∧
    r.deleted = false ∧ r.status = "available" := by
  simp [roomsAvailable, List.mem_insertionSort, and_assoc]

theorem find_listedType {propertyId : UUID} :
    (db.roomTypes.rows.find? fun t => t.id = rt &&
      (decide (t.propertyId = propertyId) && !t.deleted)) ≠ none ↔
    ∃ t, db.roomTypes.find rt = some t ∧ t.propertyId = propertyId ∧ t.deleted = false := by
  rw [Table.find?_and]
  cases hfind : db.roomTypes.find rt with
  | none => simp
  | some t => simp [Option.filter]

theorem Booking.Shape.stayBounds (h : b.Shape) :
    (OpenPms.stayBounds b.lines).1 < (OpenPms.stayBounds b.lines).2 ∧
      (OpenPms.stayBounds b.lines).2 - (OpenPms.stayBounds b.lines).1 ≤ maxStayNights := by
  obtain ⟨ci, co, hlt, hspan, hnights⟩ := h.stay
  have hmem : ∀ d, d ∈ daysBetween ci co ↔ _ := fun d => hnights ▸ h.mem_nights_iff d
  simp only [mem_daysBetween] at hmem
  have hfirst := hmem ci
  have hlast := hmem (co - 1)
  have hbefore := hmem (OpenPms.stayBounds b.lines).1
  have hafter := hmem ((OpenPms.stayBounds b.lines).2 - 1)
  omega

/-- The answer to the front desk for a booking without a room. -/
theorem exec_listAssignableRooms {params : AssignableRoomsQueryParams} (hshape : b.Shape)
    (hfor : params.For b) (hfind : db.bookings.find b.id = some b)
    (hroomless : ∀ ln ∈ b.lines, ln.roomId = none) :
    ∃ listed, (listAssignableRoomsForStay params).exec db = (.ok listed, db) ∧
      ∀ r, r ∈ listed.getD [] ↔ FreeRoom db b params.roomTypeId r ∧ r.status = "available" ∧
        RoomTypeListed db b.propertyId params.roomTypeId := by
  have hnights : ∀ d, d ∈ daysBetween params.checkIn params.checkOut ↔ d ∈ b.nights := by
    intro d
    rw [hshape.mem_nights_iff, ← hfor.dates, mem_daysBetween]
  have hstay : (stayNights params.checkIn params.checkOut).exec db =
      (.ok (daysBetween params.checkIn params.checkOut), db) :=
    exec_stayNights_ok.mpr ⟨iterStayNights_of_span params.checkIn_lt params.span_le, rfl⟩
  simp only [listAssignableRoomsForStay, exec_bind, exec_select, decide_eq_false_iff_not]
  by_cases hknown : params.propertyId ∈ db.properties
  · rw [if_neg (not_not.mpr hknown)]
    simp only [exec_bind, exec_select]
    by_cases htype : (db.roomTypes.rows.find? fun t => t.id = params.roomTypeId &&
        (decide (t.propertyId = params.propertyId) && !t.deleted)) = none
    · rw [if_pos htype]
      refine ⟨none, rfl, fun r => iff_of_false List.not_mem_nil ?_⟩
      intro h
      obtain ⟨-, -, -, htyped⟩ := h
      rw [← hfor.property] at htyped
      exact find_listedType.mpr htyped htype
    · rw [if_neg htype]
      have hlisted : RoomTypeListed db b.propertyId params.roomTypeId := by
        rw [← hfor.property]
        exact ⟨hknown, find_listedType.mp htype⟩
      obtain ⟨-, t, ht, hproperty, -⟩ := id hlisted
      have hfree : ∀ r ∈ roomsAvailable params.roomTypeId db,
          ¬ RoomTaken db r.id (daysBetween params.checkIn params.checkOut) b.id ↔
            FreeRoom db b params.roomTypeId r := by
        intro r hr
        obtain ⟨hroom, hrt, hkept, -⟩ := mem_roomsAvailable.mp hr
        rw [roomTaken_nights hnights]
        exact ⟨fun hfree => ⟨hroom, hrt, hkept, ⟨t, ht, hproperty⟩, hfree⟩, fun h => h.free⟩
      simp only [exec_bind, hstay, exec_select]
      by_cases hnil : roomsAvailable params.roomTypeId db = []
      · rw [if_pos hnil]
        refine ⟨some [], rfl, fun r => iff_of_false List.not_mem_nil ?_⟩
        rintro ⟨hr, hstatus, -⟩
        have hmem := mem_roomsAvailable.mpr ⟨hr.room, hr.roomType, hr.kept, hstatus⟩
        rw [hnil] at hmem
        exact List.not_mem_nil hmem
      · rw [if_neg hnil]
        refine ⟨_, rfl, fun r => ?_⟩
        rw [Option.getD_some, List.mem_filter]
        simp only [decide_eq_true_eq]
        constructor
        · rintro ⟨hr, hidle⟩
          rw [mem_busyIds_iff_taken hfind hroomless (List.mem_map_of_mem hr)] at hidle
          exact ⟨(hfree r hr).mp hidle, (mem_roomsAvailable.mp hr).2.2.2, hlisted⟩
        · rintro ⟨hr, hstatus, -⟩
          have hmem := mem_roomsAvailable.mpr ⟨hr.room, hr.roomType, hr.kept, hstatus⟩
          refine ⟨hmem, ?_⟩
          rw [mem_busyIds_iff_taken hfind hroomless (List.mem_map_of_mem hmem)]
          exact (hfree r hmem).mpr hr
  · rw [if_pos hknown]
    refine ⟨none, rfl, fun r => iff_of_false List.not_mem_nil ?_⟩
    rintro ⟨-, -, hproperty, -⟩
    exact hknown (hfor.property ▸ hproperty)

/-- A free room of a listed type is accepted. -/
theorem exec_assignFreeRoom (hfind : db.bookings.find b.id = some b) (hactive : b.status.Active)
    (hlines : b.lines ≠ []) (htypes : lineRoomTypes b.lines = [rt]) (hr : FreeRoom db b rt r)
    (hlisted : RoomTypeListed db b.propertyId rt) :
    (assignBookingRoom b.id (some r.id)).exec db =
      (.ok (), db.updateBooking b.id (setRoom (some r.id)) (id_setRoom _)) := by
  obtain ⟨-, t, ht, hproperty, hkept⟩ := hlisted
  have hfindRoom : (db.rooms.rows.find? fun r' => r'.id = r.id && !r'.deleted) = some r := by
    rw [Table.find?_and, Table.find_of_mem hr.room]
    simp [hr.kept]
  have hfindType : (db.roomTypes.rows.find? fun t' => t'.id = rt && !t'.deleted) = some t := by
    rw [Table.find?_and, ht]
    simp [hkept]
  have hne : sortedDates b.nights ≠ [] := by
    obtain ⟨ln, hln⟩ := List.exists_mem_of_ne_nil _ hlines
    exact List.ne_nil_of_mem (mem_sortedDates.mpr (List.mem_map_of_mem hln))
  have hidle := (freeRoom_iff.mp hr).2
  have hconflict : (assertNoRoomConflict r.id (sortedDates (b.lines.map (·.date))) b.id).exec db =
      (.ok (), db) := (exec_assertConflict hne).trans (if_neg hidle)
  have hother : ¬ ∀ t', some t = some t' → ¬ t'.propertyId = b.propertyId :=
    fun hall => hall t rfl hproperty
  unfold assignBookingRoom
  simp only [exec_bind, exec_select, hfind, exec_raiseIf, hactive, hlines, htypes,
    assignRoomOfType, hfindRoom, hr.roomType, not_true_eq_false, if_false, ne_eq]
  rw [hfindType, if_neg hother]
  simp only [hconflict]
  rfl

/-- The picker answers with the first room that no other booking has. -/
theorem exec_pickFrom {query : Db → List Room} (hlines : b.lines ≠ []) :
    (pickFrom query b.nights b.id).exec db = (.ok (((query db).find? fun r =>
      ¬ RoomTaken db r.id (sortedDates b.nights) b.id).map (·.id)), db) := by
  have hne : sortedDates b.nights ≠ [] := by
    obtain ⟨ln, hln⟩ := List.exists_mem_of_ne_nil _ hlines
    exact List.ne_nil_of_mem (mem_sortedDates.mpr (List.mem_map_of_mem hln))
  rw [pickFrom, if_neg hne, exec_bind, exec_select]
  exact exec_firstFreeRoom hne

theorem pairwise_byName (rooms : List Room) :
    (rooms.insertionSort fun a b => a.name ≤ b.name).Pairwise fun a b => a.name ≤ b.name := by
  have : Std.Total fun a b : Room => a.name ≤ b.name := ⟨fun a b => String.le_total ..⟩
  have : IsTrans Room fun a b => a.name ≤ b.name := ⟨fun a b c => String.le_trans⟩
  exact List.pairwise_insertionSort _ rooms

theorem byName_candidateRooms {propertyId : UUID} :
    ByName db propertyId rt (candidateRooms propertyId rt db) :=
  ⟨.refl _, pairwise_byName _⟩

/-- Any free room that no free one precedes by name can be the first of the query. -/
theorem exists_byName_first (hr : FreeRoom db b rt r)
    (hfirst : ∀ r', FreeRoom db b rt r' → r.name ≤ r'.name) :
    ∃ rooms, ByName db b.propertyId rt rooms ∧
      (rooms.find? fun r => ¬ RoomTaken db r.id (sortedDates b.nights) b.id) = some r := by
  obtain ⟨hmem, hfree⟩ := freeRoom_iff.mp hr
  let rest := (candidateRooms b.propertyId rt db).erase r
  refine ⟨(r :: rest).insertionSort fun a b => a.name ≤ b.name, ⟨?_, pairwise_byName _⟩, ?_⟩
  · exact (List.perm_insertionSort _ _).trans (List.perm_cons_erase hmem).symm
  · rw [List.insertionSort_cons_eq_take_drop, List.find?_append]
    have hbefore : ((rest.insertionSort fun a b => a.name ≤ b.name).takeWhile
        fun b => ¬ r.name ≤ b.name).find?
          (fun r => ¬ RoomTaken db r.id (sortedDates b.nights) b.id) = none := by
      refine List.find?_eq_none.mpr fun r' hr' => ?_
      have hlt := List.all_eq_true.mp List.all_takeWhile r' hr'
      have hin := (List.takeWhile_sublist _).mem hr'
      intro hidle
      refine (of_decide_eq_true hlt) (hfirst r' (freeRoom_iff.mpr ⟨?_, of_decide_eq_true hidle⟩))
      exact List.mem_of_mem_erase ((List.mem_insertionSort _).mp hin)
    rw [hbefore, List.find?_cons_of_pos (by simpa using hfree)]
    rfl

/-- No free room comes before the first one of a sorted query. -/
theorem name_le_of_find {rooms : List Room} (hquery : ByName db b.propertyId rt rooms)
    (hpick : (rooms.find? fun r => ¬ RoomTaken db r.id (sortedDates b.nights) b.id) = some r) :
    FreeRoom db b rt r ∧ ∀ r', FreeRoom db b rt r' → r.name ≤ r'.name := by
  obtain ⟨hfree, before, after, hrooms, hbefore⟩ := List.find?_eq_some_iff_append.mp hpick
  have hfree' : ¬ RoomTaken db r.id (sortedDates b.nights) b.id := by simpa using hfree
  have hmem : r ∈ rooms := List.mem_of_find?_eq_some hpick
  refine ⟨freeRoom_iff.mpr ⟨hquery.perm.mem_iff.mp hmem, hfree'⟩, fun r' hr' => ?_⟩
  obtain ⟨hmem', hidle⟩ := freeRoom_iff.mp hr'
  have hin := hquery.perm.mem_iff.mpr hmem'
  have hsorted := hquery.sorted
  rw [hrooms] at hin hsorted
  rcases List.mem_append.mp hin with hin | hin
  · exact absurd hidle (by simpa using hbefore r' hin)
  · rcases List.mem_cons.mp hin with rfl | hin
    · exact String.le_refl _
    · exact (List.pairwise_cons.mp (List.pairwise_append.mp hsorted).2.1).1 r' hin

end Queries

/-! The agreement -/

/-- In every reachable state, for an active booking without a room: each listed room is
accepted, and the picked room is the first of the list exactly when the free rooms that
come first by name are available and their type is not deleted. -/
theorem room_pickers_agree_iff {db : Db} (h : Reachable anyOp db) {b : Booking}
    (hfind : db.bookings.find b.id = some b) (hactive : b.status.Active)
    (hroomless : ∀ ln ∈ b.lines, ln.roomId = none) :
    ∃ params : AssignableRoomsQueryParams, params.For b ∧
      (∀ rooms db₁, (listAssignableRoomsForStay params).exec db = (.ok (some rooms), db₁) →
        ∀ r ∈ rooms, ∃ db', (assignBookingRoom b.id (some r.id)).exec db = (.ok (), db')) ∧
      (RoomPickersAgree db b params ↔ FirstFreeListed db b params.roomTypeId) := by
  have hshape : b.Shape := h.shaped b (Table.find_eq_some.mp hfind).1
  obtain ⟨rt, hrt⟩ := hshape.lineRoomTypes
  obtain ⟨hlt, hspan⟩ := hshape.stayBounds
  let params : AssignableRoomsQueryParams :=
    ⟨b.propertyId, rt, (stayBounds b.lines).1, (stayBounds b.lines).2, hlt, hspan⟩
  have hfor : params.For b := ⟨rfl, hrt, rfl⟩
  obtain ⟨listed, hlist, hmem⟩ := exec_listAssignableRooms hshape hfor hfind hroomless
  have haccepted : ∀ rooms db₁,
      (listAssignableRoomsForStay params).exec db = (.ok (some rooms), db₁) →
      ∀ r ∈ rooms, ∃ db', (assignBookingRoom b.id (some r.id)).exec db = (.ok (), db') := by
    intro rooms db₁ hexec r hr
    cases hlist.symm.trans hexec
    obtain ⟨hfree, -, hlisted⟩ := (hmem r).mp hr
    exact ⟨_, exec_assignFreeRoom hfind hactive hshape.lines_ne_nil hrt hfree hlisted⟩
  refine ⟨params, hfor, haccepted, fun hagree r hr hfirst => ?_, fun hfirst => ⟨haccepted, ?_⟩⟩
  · obtain ⟨rooms, hquery, hpick⟩ := exists_byName_first hr hfirst
    obtain ⟨listed', rid, hlist', hexec, hchosen⟩ := hagree.picked (fun _ => rooms) hquery
    cases hlist.symm.trans hlist'
    rw [exec_pickFrom hshape.lines_ne_nil, hpick] at hexec
    cases hexec
    obtain ⟨r', hr', hid, -⟩ := hchosen
    obtain ⟨hfree, havailable, hlisted⟩ := (hmem r').mp hr'
    have hsame : r' = r := by
      have hfound := Table.find_of_mem hfree.room
      rw [hid, Table.find_of_mem hr.room] at hfound
      exact (Option.some.inj hfound).symm
    exact ⟨hsame ▸ havailable, hlisted⟩
  · intro query hquery
    refine ⟨listed, _, hlist, exec_pickFrom hshape.lines_ne_nil, ?_⟩
    cases hpick : (query db).find? fun r =>
        ¬ RoomTaken db r.id (sortedDates b.nights) b.id with
    | none =>
      refine List.eq_nil_iff_forall_not_mem.mpr fun r hr => ?_
      obtain ⟨hin, hidle⟩ := freeRoom_iff.mp ((hmem r).mp hr).1
      exact List.find?_eq_none.mp hpick r (hquery.perm.mem_iff.mpr hin) (by simpa using hidle)
    | some r =>
      obtain ⟨hr, hleast⟩ := name_le_of_find hquery hpick
      refine ⟨r, (hmem r).mpr ⟨hr, hfirst r hr hleast⟩, rfl, fun r' hr' => ?_⟩
      exact hleast r' ((hmem r').mp hr').1

/-! Booking 1000 of one room type has given up its room -/

namespace Demo

def vacated : Db := run (.empty 0) (openHotel ++ [bookStay, .assignBookingRoom 1000 none])

theorem vacated_reachable : Reachable anyOp vacated :=
  reachable_run (.empty 0) fun _ _ _ => trivial

/-- The only room is under maintenance. -/
def underRepair : Db := run vacated [.patchRoom 100 none (some "maintenance") none]

theorem underRepair_reachable : Reachable anyOp underRepair :=
  reachable_run vacated_reachable fun _ _ _ => trivial

def roomsForStay : AssignableRoomsQueryParams := ⟨1, 10, 3, 4, stay.checkIn_lt, stay.span_le⟩

end Demo

/-- The room is picked and not listed. -/
theorem room_pickers_disagree : Reachable anyOp Demo.underRepair ∧
    ∃ b, Demo.underRepair.bookings.find b.id = some b ∧ b.status.Active ∧
      (∀ ln ∈ b.lines, ln.roomId = none) ∧ Demo.roomsForStay.For b ∧
      ((listAssignableRoomsForStay Demo.roomsForStay).exec Demo.underRepair).1 = .ok (some []) ∧
      ((pickFirstFreeRoomForStay b.propertyId 10 b.nights b.id).exec Demo.underRepair).1 =
        .ok (some 100) ∧
      ¬ RoomPickersAgree Demo.underRepair b Demo.roomsForStay := by
  have hrows : Demo.underRepair.bookings.rows ≠ [] ∧ ∀ b ∈ Demo.underRepair.bookings.rows,
      b.status.Active ∧ (∀ ln ∈ b.lines, ln.roomId = none) ∧ b.propertyId = 1 ∧
      lineRoomTypes b.lines = [10] ∧ (3, 4) = stayBounds b.lines ∧
      ((pickFirstFreeRoomForStay b.propertyId 10 b.nights b.id).exec Demo.underRepair).1 =
        .ok (some 100) := by decide +kernel
  have hlist : ((listAssignableRoomsForStay Demo.roomsForStay).exec Demo.underRepair).1 =
      .ok (some []) := by decide +kernel
  obtain ⟨b, hb⟩ := List.exists_mem_of_ne_nil _ hrows.1
  obtain ⟨hactive, hroomless, hproperty, htypes, hbounds, hpick⟩ := hrows.2 b hb
  have hfor : Demo.roomsForStay.For b := ⟨hproperty.symm, htypes, hbounds⟩
  refine ⟨Demo.underRepair_reachable, b, Table.find_of_mem hb, hactive, hroomless, hfor, hlist,
    hpick, fun hagree => ?_⟩
  obtain ⟨listed, rid, hlist', hexec, hchosen⟩ := hagree.picked _ byName_candidateRooms
  rw [pickFirstFreeRoomForStay_eq] at hpick
  rw [hlist'] at hlist
  cases hlist
  have hrid : Except.ok rid = (.ok (some 100) : Except Err (Option UUID)) :=
    (congrArg Prod.fst hexec).symm.trans hpick
  cases hrid
  obtain ⟨r, hr, -⟩ := hchosen
  exact List.not_mem_nil hr

/-- A room that is available is picked and listed. -/
theorem room_pickers_agree_vacated : Reachable anyOp Demo.vacated ∧
    ∃ b, Demo.vacated.bookings.find b.id = some b ∧ b.status.Active ∧
      ∃ params : AssignableRoomsQueryParams, params.For b ∧
        RoomPickersAgree Demo.vacated b params := by
  have hrows : Demo.vacated.bookings.rows ≠ [] ∧ (∀ b ∈ Demo.vacated.bookings.rows,
      b.status.Active ∧ (∀ ln ∈ b.lines, ln.roomId = none) ∧ b.propertyId = 1) ∧
      (∀ r ∈ Demo.vacated.rooms.rows, r.status = "available") ∧
      ∀ t ∈ Demo.vacated.roomTypes.rows, t.deleted = false := by decide +kernel
  obtain ⟨hne, hbookings, hrooms, htypes⟩ := hrows
  obtain ⟨b, hb⟩ := List.exists_mem_of_ne_nil _ hne
  obtain ⟨hactive, hroomless, hproperty⟩ := hbookings b hb
  have hfind := Table.find_of_mem hb
  obtain ⟨params, hfor, -, hiff⟩ :=
    room_pickers_agree_iff Demo.vacated_reachable hfind hactive hroomless
  refine ⟨Demo.vacated_reachable, b, hfind, hactive, params, hfor, hiff.mpr fun r hr _ => ?_⟩
  obtain ⟨t, ht, htproperty⟩ := hr.property
  have hknown : b.propertyId ∈ Demo.vacated.properties := by
    rw [hproperty]
    decide +kernel
  exact ⟨hrooms r hr.room, hknown, t, ht, htproperty, htypes t (Table.find_eq_some.mp ht).1⟩

end OpenPms
