import OpenPms.ChannexLedger

/-!
The rooms of a reservation. A revision may list many, each with a type and dates of its
own; the ingest books one stay, that of the first.
-/
namespace OpenPms

open KeyedTable Transaction Prog Hotel

section Rooms
variable {db db' : Db} {link : ChannexPropertyLink} {payload : ChannexBookingRevisionPayload}

/-- The room type that a room of the payload maps to. -/
def roomTypeOf (link : ChannexPropertyLink) (db : Db) (room : ChannexRevisionRoom) :
    Option UUID := do
  let cxRoomType ← room.roomTypeId.bind nonEmpty
  let rtm ← db.roomTypeMaps.find? fun m =>
    m.propertyLinkId = link.id && m.channexRoomTypeId = Text.strip cxRoomType
  pure rtm.roomTypeId

/-- The dates of the room when both are given, else those of the revision. -/
def stayOf (payload : ChannexBookingRevisionPayload) (room : ChannexRevisionRoom) :
    Option ℤ × Option ℤ :=
  match room with
  | ⟨_, _, .text ci, .text co⟩ => (ci, co)
  | _ => (parseIsoDate payload.arrivalDate, parseIsoDate payload.departureDate)

/-- The room is of the type and its stay has the night. -/
def Covers (link : ChannexPropertyLink) (payload : ChannexBookingRevisionPayload) (db : Db)
    (rt : UUID) (d : ℤ) (room : ChannexRevisionRoom) : Prop :=
  roomTypeOf link db room = some rt ∧
    ∃ checkIn ∈ (stayOf payload room).1, ∃ checkOut ∈ (stayOf payload room).2,
      checkIn ≤ d ∧ d < checkOut

instance (link : ChannexPropertyLink) (payload : ChannexBookingRevisionPayload) (db : Db)
    (rt : UUID) (d : ℤ) : DecidablePred (Covers link payload db rt d) := fun _ =>
  inferInstanceAs (Decidable (_ ∧ _))

/-- The rooms of the payload that need a room of the type for the night. -/
def roomsNeeded (link : ChannexPropertyLink) (payload : ChannexBookingRevisionPayload) (db : Db)
    (rt : UUID) (d : ℤ) : ℕ :=
  payload.rooms.countP fun room => Covers link payload db rt d room

/-- Zero where the ledger has no row. -/
def bookedRooms (db : Db) (rt : UUID) (d : ℤ) : ℤ :=
  (db.ledger.row rt d).elim 0 (·.bookedRooms)

/-- A row with the id has been inserted. -/
def Created (db db' : Db) (bid : UUID) : Prop :=
  db.bookings.find bid = none ∧ (db'.bookings.find bid).isSome

/-! The first room -/

theorem checkInOut_cons {room : ChannexRevisionRoom} {rest : List ChannexRevisionRoom}
    (h : payload.rooms = room :: rest) : checkInOut payload = stayOf payload room := by
  unfold checkInOut stayOf
  rw [h]
  obtain ⟨rt, rp, ci, co⟩ := room
  cases ci with
  | empty => rfl
  | text ci =>
    cases co with
    | empty => rfl
    | text co => rfl

theorem rooms_of_mappedRoomType {rt : UUID} (h : mappedRoomType link payload db = some rt) :
    ∃ room rest, payload.rooms = room :: rest ∧ roomTypeOf link db room = some rt := by
  unfold mappedRoomType at h
  obtain ⟨⟨cxRoomType, cxRatePlan⟩, hids, h⟩ := Option.bind_eq_some_iff.mp h
  obtain ⟨rtm, hrtm, h⟩ := Option.bind_eq_some_iff.mp h
  obtain ⟨rpm, -, h⟩ := Option.bind_eq_some_iff.mp h
  unfold roomAndRateIds at hids
  obtain ⟨room, hroom, hids⟩ := Option.bind_eq_some_iff.mp hids
  obtain ⟨rtId, hrt, hids⟩ := Option.bind_eq_some_iff.mp hids
  obtain ⟨rpId, -, hids⟩ := Option.bind_eq_some_iff.mp hids
  cases hids
  obtain ⟨rest, hrest⟩ := List.head?_eq_some_iff.mp hroom
  refine ⟨room, rest, hrest, ?_⟩
  unfold roomTypeOf
  rw [hrt]
  simp only [Option.bind_eq_bind, Option.bind_some, hrtm]
  exact h

theorem covers_first {room : ChannexRevisionRoom} {rt : UUID} {checkIn checkOut : ℤ}
    (hrt : roomTypeOf link db room = some rt)
    (hstay : stayOf payload room = (some checkIn, some checkOut)) (rt' : UUID) (d : ℤ) :
    Covers link payload db rt' d room ↔ rt' = rt ∧ d ∈ daysBetween checkIn checkOut := by
  unfold Covers
  rw [hrt, hstay, mem_daysBetween]
  simp only [Option.some.injEq, Option.mem_def, exists_eq_left']
  rw [eq_comm]

/-! The claim -/

theorem bookedRooms_shift {rt : UUID} {nights : List ℤ} (hopen : db.ledger.Open rt nights 1)
    (hledger : db'.ledger = db.ledger.shift rt nights 1) (rt' : UUID) (d : ℤ) :
    bookedRooms db' rt' d = bookedRooms db rt' d + if rt' = rt ∧ d ∈ nights then 1 else 0 := by
  unfold bookedRooms
  rw [hledger]
  simp only [Ledger.shift, Ledger.adjust_row]
  split
  · next hkey =>
    obtain ⟨rfl, hd⟩ := hkey
    obtain ⟨c, hc, -⟩ := hopen d hd
    simp [hc]
  · next hkey =>
    cases db.ledger.row rt' d with
    | none => rfl
    | some c => simp

theorem ledger_insertBooking {env : Env} {b : Booking} {rt : UUID} {perNight : List (ℤ × Money)}
    {description : String} {u : Unit}
    (h : (insertBooking env b rt perNight description).exec db = (.ok u, db')) :
    db'.ledger = db.ledger := by
  simp only [insertBooking, insertRows, exec_bind_ok, exec_modify, exec_updateFolioCharge_ok,
    Prod.mk.injEq] at h
  obtain ⟨_, _, ⟨_, _, hbooking, _, _, hflush, _, _, ⟨-, rfl⟩, _, db₁, htax, -, rfl⟩,
    picked, _, hpick, hassign⟩ := h
  obtain ⟨-, rfl⟩ := exec_flushBooking_ok hbooking
  obtain ⟨-, rfl⟩ := exec_flushLines_ok hflush
  have hsame := exec_pickFirstFreeRoom_ok hpick
  subst hsame
  have htaxes : db₁.ledger = db.ledger := congrArg Hotel.ledger (hotel_replaceTaxes htax)
  cases picked with
  | none =>
    cases hassign
    exact htaxes
  | some room =>
    obtain ⟨b', -, -, -, rfl⟩ := exec_assignBookingRoom_ok hassign
    exact htaxes

/-- A new revision keeps the bookings, or claims its nights. -/
theorem exec_ingestNew_claim {env : Env} {rev : Revision} {r : ChannexIngestResult}
    (h : (ingestNew env rev).exec db = (.ok r, db')) :
    db'.bookings = db.bookings ∨
      db.ledger.Open rev.roomTypeId rev.nights 1 ∧
        db'.ledger = db.ledger.shift rev.roomTypeId rev.nights 1 := by
  simp only [ingestNew, exec_bind_ok, exec_select, Prod.mk.injEq, Except.ok.injEq] at h
  obtain ⟨found, _, ⟨-, rfl⟩, h⟩ := h
  cases hb : found with
  | some b =>
    rw [hb] at h
    cases h
    exact .inl rfl
  | none =>
    rw [hb] at h
    simp only [exec_bind_ok, exec_modify, finishRevision, updateRevision, exec_pure,
      Prod.mk.injEq] at h
    obtain ⟨_, _, hlock, _, _, hinc, ⟨guest, merged⟩, _, hguest, _, _, ⟨-, rfl⟩, _, _, hinsert,
      _, _, ⟨-, rfl⟩, hret, rfl⟩ := h
    obtain ⟨hopen, rfl⟩ := exec_claim_nights_ok hlock hinc
    have hledger := congrArg Hotel.ledger (hotel_getOrCreateGuest hguest)
    exact .inr ⟨hopen, (ledger_insertBooking hinsert).trans hledger⟩

theorem not_created_of_bookings {bid : UUID} (h : db'.bookings = db.bookings) :
    ¬ Created db db' bid := by
  rintro ⟨hnone, hsome⟩
  rw [h, hnone] at hsome
  cases hsome

/-- An ingest that creates a booking has claimed the nights of the first room. -/
theorem exec_ingest_created {env : Env} {r : ChannexIngestResult} {bid : UUID}
    (hkind : revisionKind payload = .new)
    (h : (ingestChannexBooking env link (some payload)).exec db = (.ok r, db'))
    (hsuccess : r.success = true) (hcreated : Created db db' bid) :
    ∃ room rest rt checkIn checkOut, payload.rooms = room :: rest ∧
      roomTypeOf link db room = some rt ∧
      stayOf payload room = (some checkIn, some checkOut) ∧
      db.ledger.Open rt (daysBetween checkIn checkOut) 1 ∧
      db'.ledger = db.ledger.shift rt (daysBetween checkIn checkOut) 1 := by
  rcases exec_ingest_ok h with ⟨hsame, -⟩ | happlied
  · exact (not_created_of_bookings (congrArg Hotel.bookings hsame) hcreated).elim
  · obtain ⟨payload', rt, ratePlan, ci, co, total, guest, revisions, hpayload, -, hmapped, hdates,
      -, -, happly⟩ := happlied
    cases hpayload
    rw [hkind] at happly
    unfold applyRevision at happly
    rw [exec_tryCatch] at happly
    split at happly
    · next hexec =>
      cases happly
      rcases exec_ingestNew_claim hexec with hsame | ⟨hopen, hledger⟩
      · exact (not_created_of_bookings hsame hcreated).elim
      · obtain ⟨room, rest, hrooms, hrt⟩ := rooms_of_mappedRoomType hmapped
        exact ⟨room, rest, rt, ci, co, hrooms, hrt,
          (checkInOut_cons hrooms).symm.trans hdates, hopen, hledger⟩
    · next hexec =>
      obtain ⟨-, hfail, -⟩ := exec_handleIngestError_ok happly
      rw [hsuccess] at hfail
      cases hfail

/-- A booking made from a new revision takes inventory for every room of the payload exactly
when the rooms after the first cover no night of a mapped type. -/
theorem rooms_take_inventory_iff {env : Env} {r : ChannexIngestResult} {bid : UUID}
    (hkind : revisionKind payload = .new)
    (h : (ingestChannexBooking env link (some payload)).exec db = (.ok r, db'))
    (hsuccess : r.success = true) (hcreated : Created db db' bid) :
    (∀ rt d, bookedRooms db' rt d =
        bookedRooms db rt d + roomsNeeded link payload db rt d) ↔
      ∀ room ∈ payload.rooms.tail, ∀ rt d, ¬ Covers link payload db rt d room := by
  obtain ⟨room, rest, rt, ci, co, hrooms, hrt, hstay, hopen, hledger⟩ :=
    exec_ingest_created hkind h hsuccess hcreated
  have hneeded : ∀ rt' d, (roomsNeeded link payload db rt' d : ℤ) =
      (if rt' = rt ∧ d ∈ daysBetween ci co then 1 else 0) +
        (rest.countP fun room => Covers link payload db rt' d room : ℕ) := by
    intro rt' d
    unfold roomsNeeded
    rw [hrooms, List.countP_cons]
    simp only [covers_first hrt hstay, decide_eq_true_eq]
    split
    · omega
    · omega
  rw [hrooms, List.tail_cons]
  constructor
  · intro hall room' hroom' rt' d hcovers
    have hgrown := hall rt' d
    rw [bookedRooms_shift hopen hledger, hneeded] at hgrown
    have hzero : rest.countP (fun room => Covers link payload db rt' d room) = 0 := by omega
    exact List.countP_eq_zero.mp hzero room' hroom' (decide_eq_true hcovers)
  · intro hnone rt' d
    have hzero : rest.countP (fun room => Covers link payload db rt' d room) = 0 :=
      List.countP_eq_zero.mpr fun room' hroom' hcovers =>
        hnone room' hroom' rt' d (of_decide_eq_true hcovers)
    rw [bookedRooms_shift hopen hledger, hneeded, hzero]
    omega

end Rooms

/-! A reservation of two rooms -/

namespace Demo

/-- Two free rooms of the mapped type on every night. -/
def open2 : Db := run (.empty 0)
  (openHotel ++ [.createRoom (env 0 0 101) 10 "102" "available", .administer connect hotel_connect])

def reservation (second : ChannexRevisionRoom) : ChannexBookingRevisionPayload :=
  { revision "r1" "new" with rooms := [⟨some "RT", some "RP", .empty, .empty⟩, second] }

def reserve (second : ChannexRevisionRoom) : Tx ChannexIngestResult :=
  ingestChannexBooking (env 1000 0 0) link (some (reservation second))

/-- A room type without a map. -/
def suite : ChannexRevisionRoom := ⟨some "suite", some "RP", .empty, .empty⟩

def double : ChannexRevisionRoom := ⟨some "RT", some "RP", .empty, .empty⟩

end Demo

/-- The second room of the reservation is of a type that is not mapped. -/
theorem rooms_take_inventory_demo :
    Created Demo.open2 ((Demo.reserve Demo.suite).transact Demo.open2) 1000 ∧
      ∀ rt d, bookedRooms ((Demo.reserve Demo.suite).transact Demo.open2) rt d =
        bookedRooms Demo.open2 rt d +
          roomsNeeded Demo.link (Demo.reservation Demo.suite) Demo.open2 rt d := by
  have hsuccess : ((Demo.reserve Demo.suite).exec Demo.open2).1.toOption.map (·.success) =
      some true := by decide +kernel
  have hunmapped : roomTypeOf Demo.link Demo.open2 Demo.suite = none := by decide +kernel
  obtain ⟨r, hexec, hr⟩ := exec_of_success hsuccess
  have hcreated : Created Demo.open2 ((Demo.reserve Demo.suite).transact Demo.open2) 1000 :=
    ⟨by decide +kernel, by decide +kernel⟩
  refine ⟨hcreated, (rooms_take_inventory_iff (by decide +kernel) hexec hr hcreated).mpr ?_⟩
  intro room hroom rt d hcovers
  rw [List.mem_singleton.mp hroom] at hcovers
  exact absurd hcovers.1 (by rw [hunmapped]; nofun)

/-- Of two rooms of one type only the first takes inventory, and the revision is done. -/
theorem second_room_lost :
    ((Demo.reserve Demo.double).exec Demo.open2).1.toOption.map (·.success) = some true ∧
    (((Demo.reserve Demo.double).transact Demo.open2).revisions.find "r1").map
      (·.processingStatus) = some .done ∧
    Created Demo.open2 ((Demo.reserve Demo.double).transact Demo.open2) 1000 ∧
    ¬ ∀ rt d, bookedRooms ((Demo.reserve Demo.double).transact Demo.open2) rt d =
      bookedRooms Demo.open2 rt d +
        roomsNeeded Demo.link (Demo.reservation Demo.double) Demo.open2 rt d := by
  refine ⟨by decide +kernel, by decide +kernel, ⟨by decide +kernel, by decide +kernel⟩, ?_⟩
  intro hall
  exact absurd (hall 10 3) (by decide +kernel)

end OpenPms
