import OpenPms.ChannexRefinement
import OpenPms.RoomRefinement

/-!
Runs of requests, one transaction at a time. A run starts from an empty tenant; a
request that raises is rolled back. The services that write none of the hotel's
tables are one operation, and so is the clock.
-/
namespace OpenPms

open KeyedTable Transaction Prog Hotel

inductive Op where
  | createBooking (env : Env) (body : BookingCreateRequest)
  | patchBooking (env : Env) (bid : UUID) (body : BookingPatchRequest)
  | deleteBooking (bid : UUID)
  | assignBookingRoom (bid : UUID) (roomId : Option UUID)
  | nightAudit (env : Env) (order : RowOrder) (propertyId : UUID) (todayLocal : ℤ)
  | ingest (env : Env) (link : ChannexPropertyLink)
      (revisionFlat : Option ChannexBookingRevisionPayload)
  | createRoom (env : Env) (rt : UUID) (name status : String)
  | createRoomsBulk (env : Env) (rt : UUID) (items : List RoomBulkCreateItem)
      (onConflict : OnConflict)
  | patchRoom (rid : UUID) (name status : Option String) (roomTypeId : Option UUID)
  | softDeleteRoom (rid : UUID)
  | createRoomType (env : Env) (data : RoomTypeCreate)
  | patchRoomType (rt : UUID) (body : RoomTypePatch)
  | softDeleteRoomType (rt : UUID)
  | bulkSeed (body : BulkAvailabilityLedgerSeedRequest)
  | extendLedger (extraDays : ℤ)
  | override (body : AvailabilityOverridePutRequest)
  | administer (f : Db → Db) (hf : ∀ db, (f db).hotel = db.hotel)
  | pass (days : ℕ)

namespace Op

def prog : Op → Tx Unit
  | createBooking env body => do
    let _ ← OpenPms.createBooking env body
    pure ()
  | patchBooking env bid body => do
    let _ ← OpenPms.patchBooking env bid body
    pure ()
  | deleteBooking bid => do
    let _ ← OpenPms.deleteBooking bid
    pure ()
  | assignBookingRoom bid roomId => OpenPms.assignBookingRoom bid roomId
  | nightAudit env order propertyId todayLocal => do
    let _ ← autoNoShowConfirmedPastCheckin env order propertyId todayLocal
    pure ()
  | ingest env link revisionFlat => do
    let _ ← ingestChannexBooking env link revisionFlat
    pure ()
  | createRoom env rt name status => do
    let _ ← OpenPms.createRoom env rt name status
    pure ()
  | createRoomsBulk env rt items onConflict => do
    let _ ← OpenPms.createRoomsBulk env rt items onConflict
    pure ()
  | patchRoom rid name status roomTypeId => OpenPms.patchRoom rid name status roomTypeId
  | softDeleteRoom rid => OpenPms.softDeleteRoom rid
  | createRoomType env data => do
    let _ ← OpenPms.createRoomType env data
    pure ()
  | patchRoomType rt body => OpenPms.patchRoomType rt body
  | softDeleteRoomType rt => OpenPms.softDeleteRoomType rt
  | bulkSeed body => do
    let _ ← bulkSeedAvailabilityLedger body
    pure ()
  | extendLedger extraDays => do
    let _ ← extendAvailabilityLedgerDays extraDays
    pure ()
  | override body => do
    let _ ← applyBlockedRoomsOverride body
    pure ()
  | administer f _ => modify f
  | pass days => modify fun db => { db with today := db.today + days }

/-- Every operation but the ingest of an OTA revision. -/
def Api : Op → Prop
  | ingest _ _ _ => False
  | _ => True

/-- The operation asks to move the room to another type. -/
def MovesRoom (op : Op) (db : Db) (r : Room) (rt : UUID) : Prop :=
  ∃ name status, op = patchRoom r.id name status (some rt) ∧ db.rooms.find r.id = some r ∧
    rt ≠ r.roomTypeId

def RemovesRoom (op : Op) (db : Db) (r : Room) : Prop :=
  op = softDeleteRoom r.id ∧ db.rooms.find r.id = some r

/-- The operation has removed or moved the room. -/
inductive Took (op : Op) (db db' : Db) (r : Room) : Prop
  | removed (hop : op.RemovesRoom db r) (hlive : r.deleted = false)
      (hunused : db.hotel.Unused r.id) (hhotel : db'.hotel = db.hotel.removeRoom r)
  | moved (rt : UUID) (name status : String) (hop : op.MovesRoom db r rt)
      (hlive : r.deleted = false) (hhotel : db'.hotel = db.hotel.moveRoom r rt name status)

theorem Took.take {op : Op} {db db' : Db} {r : Room} (h : op.Took db db' r) :
    Take db.hotel db'.hotel := by
  cases h with
  | removed hop hlive hunused hhotel =>
    rw [hhotel]
    exact .remove hop.2 hlive hunused
  | moved rt name status hop hlive hhotel =>
    obtain ⟨_, _, -, hfind, hne⟩ := hop
    rw [hhotel]
    exact .move rt name status hfind hlive hne

end Op

/-- States that runs from an empty tenant reach, each operation being admitted in the
state that it finds. -/
inductive Reachable (admits : Op → Db → Prop) : Db → Prop
  | empty (today : ℤ) : Reachable admits (.empty today)
  | tail {db : Db} (op : Op) :
      Reachable admits db → admits op db → Reachable admits (op.prog.transact db)

def anyOp (_ : Op) (_ : Db) : Prop := True

def apiOp (op : Op) (_ : Db) : Prop := op.Api

theorem Reachable.mono {admits admits' : Op → Db → Prop} {db : Db} (h : Reachable admits db)
    (hle : ∀ op db, admits op db → admits' op db) : Reachable admits' db := by
  induction h with
  | empty today => exact .empty today
  | tail op _ hop ih => exact .tail op ih (hle _ _ hop)

/-! One operation -/

section Refinement
variable {db db' : Db}

theorem exec_discard {α : Type} {p : Tx α} {u : Unit}
    (h : (p >>= fun _ => (pure () : Tx Unit)).exec db = (.ok u, db')) :
    ∃ a, p.exec db = (.ok a, db') := by
  obtain ⟨a, db₁, hp, hret⟩ := exec_bind_ok.mp h
  cases hret
  exact ⟨a, hp⟩

theorem pass_step (days : ℕ) : Step db.hotel ({ db with today := db.today + days } : Db).hotel := by
  have hle : db.hotel.today ≤ db.today + days := by
    change db.today ≤ db.today + days
    omega
  exact Step.tick (db.today + days) hle

/-- A patched room is edited in place or moved. -/
theorem patchRoom_refines {rid : UUID} {name status : Option String} {newType : Option UUID}
    {u : Unit} (h : (patchRoom rid name status newType).exec db = (.ok u, db')) :
    Supplies db.hotel db'.hotel ∨ ∃ r, (Op.patchRoom rid name status newType).Took db db' r := by
  obtain ⟨r, hfind, hlive, hcases⟩ := patchRoom_cases h
  have hid : r.id = rid := (Table.find_eq_some.mp hfind).2
  rcases hcases with ⟨-, name', status', hedit⟩ | ⟨hne, name', status', hmove⟩
  · exact .inl (hedit ▸ .single (.editRoom r.id name' status'))
  · cases newType with
    | none => exact absurd rfl hne
    | some rt =>
      refine .inr ⟨r, .moved rt name' status' ⟨name, status, ?_, ?_, hne⟩ hlive hmove⟩
      · rw [hid]
      · rw [hid, hfind]

theorem softDeleteRoom_refines {rid : UUID} {u : Unit}
    (h : (softDeleteRoom rid).exec db = (.ok u, db')) :
    ∃ r, (Op.softDeleteRoom rid).Took db db' r := by
  obtain ⟨r, hfind, hlive, hunused, hhotel⟩ := softDeleteRoom_removes h
  obtain ⟨-, hid⟩ := Table.find_eq_some.mp hfind
  subst hid
  exact ⟨r, .removed ⟨rfl, hfind⟩ hlive hunused hhotel⟩

/-- What an operation of the API does to a hotel of shaped bookings. -/
theorem Op.api_refines {op : Op} {u : Unit} (hapi : op.Api) (hshape : Shaped db.hotel)
    (h : op.prog.exec db = (.ok u, db')) :
    Steps db.hotel db'.hotel ∨ ∃ r, op.Took db db' r := by
  cases op with
  | createBooking env body =>
    obtain ⟨_, h⟩ := exec_discard h
    exact .inl (Sales.steps (createBooking_sales h))
  | patchBooking env bid body =>
    obtain ⟨_, h⟩ := exec_discard h
    exact .inl (patchBooking_steps hshape h)
  | deleteBooking bid =>
    obtain ⟨_, h⟩ := exec_discard h
    exact .inl (deleteBooking_steps hshape h)
  | assignBookingRoom bid roomId => exact .inl (.single (assignBookingRoom_step h))
  | nightAudit env order propertyId todayLocal =>
    obtain ⟨_, h⟩ := exec_discard h
    exact .inl (autoNoShow_steps hshape h)
  | ingest env link revisionFlat => exact hapi.elim
  | createRoom env rt name status =>
    obtain ⟨_, h⟩ := exec_discard h
    exact .inl (Supplies.steps (createRoom_supplies h))
  | createRoomsBulk env rt items onConflict =>
    obtain ⟨_, h⟩ := exec_discard h
    exact .inl (Supplies.steps (createRoomsBulk_supplies h))
  | patchRoom rid name status roomTypeId =>
    rcases patchRoom_refines h with hsupplies | htook
    · exact .inl (Supplies.steps hsupplies)
    · exact .inr htook
  | softDeleteRoom rid => exact .inr (softDeleteRoom_refines h)
  | createRoomType env data =>
    obtain ⟨_, h⟩ := exec_discard h
    exact .inl (createRoomType_steps h)
  | patchRoomType rt body => exact .inl (patchRoomType_steps h)
  | softDeleteRoomType rt => exact .inl (softDeleteRoomType_steps h)
  | bulkSeed body =>
    obtain ⟨_, h⟩ := exec_discard h
    exact .inl (Supplies.steps (bulkSeed_supplies h))
  | extendLedger extraDays =>
    obtain ⟨_, h⟩ := exec_discard h
    exact .inl (Supplies.steps (extendLedger_supplies h))
  | override body =>
    obtain ⟨_, h⟩ := exec_discard h
    exact .inl (override_steps h)
  | administer f hf =>
    cases h
    rw [hf]
    exact .inl .refl
  | pass days =>
    cases h
    exact .inl (.single (pass_step days))

theorem Op.refines {op : Op} {u : Unit} (hshape : Shaped db.hotel)
    (h : op.prog.exec db = (.ok u, db')) :
    Changes db.hotel db'.hotel ∨ ∃ r, op.Took db db' r := by
  by_cases hapi : op.Api
  · rcases api_refines hapi hshape h with hsteps | htook
    · exact .inl (Steps.changes hsteps)
    · exact .inr htook
  · cases op with
    | ingest env link revisionFlat =>
      obtain ⟨_, h⟩ := exec_discard h
      exact .inl (ingest_changes hshape h)
    | _ => exact absurd trivial hapi

end Refinement

/-! Whole runs -/

/-- What every admitted operation that returns keeps, holds of every state of a run. -/
theorem Reachable.invariant {admits : Op → Db → Prop} {I : Hotel → Prop}
    (hempty : ∀ today, I (Db.empty today).hotel)
    (hop : ∀ op db db', Reachable admits db → admits op db → I db.hotel →
      op.prog.exec db = (.ok (), db') → I db'.hotel)
    {db : Db} (h : Reachable admits db) : I db.hotel := by
  induction h with
  | empty today => exact hempty today
  | @tail db op hreach hadm ih =>
    rcases hexec : op.prog.exec db with ⟨e | u, db₁⟩
    · rw [transact_error hexec]
      exact ih
    · rw [transact_ok hexec]
      exact hop op db db₁ hreach hadm ih hexec

/-- An invariant of every kind of change holds in every run of all operations. -/
theorem Reachable.invariant_all {admits : Op → Db → Prop} {I : Hotel → Prop}
    (hempty : ∀ today, I (Db.empty today).hotel)
    (hshape : ∀ {db}, Reachable admits db → Shaped db.hotel)
    (hstep : ∀ {h h'}, I h → Step h h' → I h') (hdrift : ∀ {h h'}, I h → Drift h h' → I h')
    (htake : ∀ {h h'}, I h → Take h h' → I h') {db : Db} (h : Reachable admits db) :
    I db.hotel := by
  refine h.invariant hempty ?_
  intro op db db' hreach _ hI hexec
  rcases op.refines (hshape hreach) hexec with hchanges | ⟨r, htook⟩
  · exact changes_invariant hstep hdrift hI hchanges
  · exact htake hI htook.take

/-- Every booking of every run has the shape of a stay. -/
theorem Reachable.shaped {admits : Op → Db → Prop} {db : Db} (h : Reachable admits db) :
    Shaped db.hotel := by
  refine h.invariant (fun _ b hb => absurd hb List.not_mem_nil) ?_
  intro op db db' _ _ hI hexec
  rcases op.refines hI hexec with hchanges | ⟨r, htook⟩
  · exact changes_invariant Shaped.step Shaped.drift hI hchanges
  · exact hI.take htook.take

theorem Reachable.counted {admits : Op → Db → Prop} {db : Db} (h : Reachable admits db) :
    Counted db.hotel := by
  refine h.invariant_all ?_ Reachable.shaped Counted.step Counted.drift Counted.take
  intro today rt d c _ hc
  cases hc

/-- Runs of the API keep the ledger equal to the active lines. -/
theorem Reachable.seeded {admits : Op → Db → Prop} {db : Db} (h : Reachable admits db) :
    Seeded db.hotel := by
  refine h.invariant_all ?_ Reachable.shaped Seeded.step Seeded.drift Seeded.take
  intro today ln hln
  cases hln

theorem Reachable.balanced {db : Db} (h : Reachable apiOp db) : Balanced db.hotel := by
  refine h.invariant ?_ ?_
  · intro today
    refine ⟨fun b hb => absurd hb List.not_mem_nil, ?_, ?_⟩
    · intro rt d c hc
      cases hc
    · intro ln hln
      cases hln
  · intro op db db' _ hapi hI hexec
    rcases op.api_refines hapi hI.shaped hexec with hsteps | ⟨r, htook⟩
    · exact steps_invariant Balanced.step hI hsteps
    · exact hI.take htook.take

/-- The state after a list of operations. -/
def run (db : Db) (ops : List Op) : Db := ops.foldl (fun db op => op.prog.transact db) db

theorem reachable_run {admits : Op → Db → Prop} {db : Db} {ops : List Op}
    (hdb : Reachable admits db) (hops : ∀ op ∈ ops, ∀ db, admits op db) :
    Reachable admits (run db ops) := by
  induction ops generalizing db with
  | nil => exact hdb
  | cons op rest ih =>
    apply ih (.tail op hdb (hops op (List.mem_cons_self ..) db))
    intro op' hop'
    exact hops op' (List.mem_cons_of_mem _ hop')

/-! A small hotel for concrete runs: one property, one rate plan, room type 10 with
room 100, and booking 1000 for one night -/

namespace Demo

def env (bookingId roomTypeId roomId : UUID) : Env where
  bookingId := bookingId
  guestId := 2000
  folioId := fun i => 3000 + i
  roomTypeId := roomTypeId
  roomId := fun i => roomId + i
  countryPack := fun _ => none
  checkinMessages := fun _ _ => []
  foreignRevision := fun _ => false

def stay : BookingCreateRequest where
  propertyId := 1
  roomTypeId := 10
  ratePlanId := 5
  checkIn := 3
  checkOut := 4
  guest := ⟨"Ada", "Byron", "ada@example.org", "1", none⟩
  status := .confirmed
  source := "desk"
  forceNewGuest := false
  externalBookingId := none
  checkIn_lt := by decide
  span_le := by decide

def configure (db : Db) : Db :=
  { db with properties := [1], ratePlans := [⟨5, 1⟩], rates := fun _ _ _ => some (10000 : ℤ) }

theorem hotel_configure (db : Db) : (configure db).hotel = db.hotel := rfl

def addType (rt : UUID) : Op :=
  .createRoomType (env 0 rt 0) ⟨1, "Double", 1, 2, by decide, by decide⟩

def openHotel : List Op :=
  [.administer configure hotel_configure, addType 10, .createRoom (env 0 0 100) 10 "101" "available"]

def bookStay : Op := .createBooking (env 1000 0 0) stay

end Demo

/-! The ledger and the bookings -/

/-- After any run of the API every counter is the number of active lines of its room
type and day, every active line has its row, and an operation that raises changes
nothing. -/
theorem ledger_equals_bookings {db : Db} (h : Reachable apiOp db) :
    (∀ rt d c, db.ledger.row rt d = some c →
      c.bookedRooms = db.hotel.activeCount rt d ∧ 0 ≤ c.bookedRooms) ∧
    (∀ ln ∈ db.hotel.activeLines, (db.ledger.row ln.roomTypeId ln.date).isSome) ∧
    ∀ (op : Op) e db', op.prog.exec db = (.error e, db') → op.prog.transact db = db := by
  have hbalanced := h.balanced
  refine ⟨?_, hbalanced.seeded, fun op e db' hexec => transact_error hexec⟩
  intro rt d c hc
  have heq : c.bookedRooms = db.hotel.activeCount rt d := hbalanced.ledgerEq rt d c hc
  refine ⟨heq, ?_⟩
  rw [heq]
  exact Int.natCast_nonneg _

theorem ledger_equals_bookings_demo :
    (run (.empty 0) (Demo.openHotel ++ [Demo.bookStay])).ledger.row 10 3 = some ⟨1, 1, 0⟩ ∧
    ∀ rt d c, (run (.empty 0) (Demo.openHotel ++ [Demo.bookStay])).ledger.row rt d = some c →
      c.bookedRooms =
        (run (.empty 0) (Demo.openHotel ++ [Demo.bookStay])).hotel.activeCount rt d ∧
      0 ≤ c.bookedRooms := by
  refine ⟨by decide +kernel, (ledger_equals_bookings (reachable_run (.empty 0) ?_)).1⟩
  intro op hop db
  simp only [Demo.openHotel, List.cons_append, List.nil_append, List.mem_cons,
    List.not_mem_nil, or_false] at hop
  rcases hop with rfl | rfl | rfl | rfl <;> trivial

/-! Rooms -/

/-- In no run do two active bookings have the same room on the same night. -/
theorem room_exclusive {db : Db} (h : Reachable anyOp db) : RoomExclusive db.hotel := by
  refine h.invariant_all ?_ Reachable.shaped RoomExclusive.step RoomExclusive.drift
    RoomExclusive.take
  intro today b₁ hb₁
  exact absurd hb₁ List.not_mem_nil

theorem room_exclusive_demo : RoomExclusive (run (.empty 0) (Demo.openHotel ++ [Demo.bookStay,
    .createBooking (Demo.env 1001 0 0) { Demo.stay with
      checkIn := 4, checkOut := 5, checkIn_lt := by decide, span_le := by decide }])).hotel :=
  room_exclusive (reachable_run (.empty 0) fun _ _ _ => trivial)

/-- No operation of the run moves a room to another type that a pending, confirmed or
checked-in booking has from today on. -/
def Op.KeepsAssignments (op : Op) (db : Db) : Prop :=
  ∀ r rt, op.MovesRoom db r rt → db.hotel.Unused r.id

/-- As long as only unused rooms change their type, assigned rooms match their lines. -/
theorem assigned_rooms_match {db : Db} (h : Reachable Op.KeepsAssignments db) :
    RoomsMatch db.hotel := by
  refine h.invariant ?_ ?_
  · intro today b hb
    exact absurd hb List.not_mem_nil
  · intro op db db' hreach hadm hI hexec
    rcases op.refines hreach.shaped hexec with hchanges | ⟨r, htook⟩
    · exact changes_invariant RoomsMatch.step RoomsMatch.drift hI hchanges
    · cases htook with
      | removed _ _ hunused hhotel =>
        rw [hhotel]
        exact hI.removeRoom hunused
      | moved rt name status hop _ hhotel =>
        rw [hhotel]
        exact hI.moveRoom (hadm r rt hop) rt name status

theorem assigned_rooms_match_demo :
    RoomsMatch (run (.empty 0) (Demo.openHotel ++ [Demo.bookStay])).hotel := by
  refine assigned_rooms_match (reachable_run (.empty 0) ?_)
  intro op hop db r rt hmoves
  obtain ⟨name, status, hop', -⟩ := hmoves
  subst hop'
  simp [Demo.openHotel, Demo.addType, Demo.bookStay] at hop

/-- The room of a booking becomes one of another type. -/
def Demo.moved : Db :=
  run (.empty 0) (openHotel ++ [bookStay, addType 11, .patchRoom 100 none none (some 11)])

theorem not_roomsMatch_of_type {db : Db} {room rt : UUID}
    (hline : ∃ b ∈ db.bookings.rows, b.status.Live ∧ ∃ ln ∈ b.lines,
      db.today ≤ ln.date ∧ ln.roomId = some room ∧ ln.roomTypeId ≠ rt)
    (hroom : (db.rooms.find room).map (·.roomTypeId) = some rt) : ¬ RoomsMatch db.hotel := by
  intro hmatch
  obtain ⟨b, hb, hlive, ln, hln, hdate, hassigned, htype⟩ := hline
  obtain ⟨r, t, hr, -, hrt, -⟩ := hmatch b hb hlive ln hln hdate room hassigned
  rw [show db.rooms.find room = some r from hr, Option.map_some, Option.some.injEq] at hroom
  exact htype (hrt.symm.trans hroom)

theorem assigned_room_moved : Reachable anyOp Demo.moved ∧ ¬ RoomsMatch Demo.moved.hotel := by
  refine ⟨reachable_run (.empty 0) fun _ _ _ => trivial, ?_⟩
  have hline : ∃ b ∈ Demo.moved.bookings.rows, b.status.Live ∧ ∃ ln ∈ b.lines,
      Demo.moved.today ≤ ln.date ∧ ln.roomId = some 100 ∧ ln.roomTypeId ≠ 11 := by
    decide +kernel
  exact not_roomsMatch_of_type hline (by decide +kernel)

end OpenPms
