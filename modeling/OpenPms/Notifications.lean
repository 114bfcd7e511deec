import OpenPms.AvailabilityViews
import OpenPms.Lib.RequestScope

/-!
The background tasks of the routes that change bookings, blocked rooms and rates. `get_db`
commits when the request's scope is left, after the response and its background tasks. The
routes of bookings commit before they return; those of overrides and rates do not.
-/
namespace OpenPms

open Transaction Prog RequestScope
open Ari (AriDb Push)

/-! Tasks -/

/-- `availabilityOn` is one date of `emit_availability_for_dates`, which reads each date in a
transaction of its own. -/
inductive BackgroundTask where
  | bookingCreated (bid : UUID)
  | bookingConfirmation (bid : UUID)
  | bookingPatched (bid : UUID)
  | cancellationEmail (bid : UUID)
  | availabilityOn (rt : UUID) (d : ℤ)
  | rateUpdated (updates : List (UUID × UUID × ℤ))
  | push (p : Push)
  deriving DecidableEq

namespace BackgroundTask

def emitAvailabilityForDates (rt : UUID) (dates : List ℤ) : List BackgroundTask :=
  (sortedDates dates).map (availabilityOn rt)

/-- The nights of a created booking, if it is there and has one room type. -/
def createdAvailability (bid : UUID) (db : AriDb) : List BackgroundTask :=
  match db.bookings.find bid with
  | none => []
  | some booking =>
    match lineRoomTypes booking.lines with
    | [rt] => emitAvailabilityForDates rt (booking.lines.map (·.date))
    | _ => []

/-- The rate webhooks carry the prices of the request, and the mails and the other booking
webhooks no availability or rate. A push goes to the Celery workers. -/
def effect : BackgroundTask → Effect AriDb BackgroundTask Push
  | bookingCreated bid => .read (createdAvailability bid)
  | bookingConfirmation _ => .other
  | bookingPatched _ => .other
  | cancellationEmail _ => .other
  | availabilityOn _ _ => .read fun _ => []
  | rateUpdated _ => .other
  | push p => .enqueue p

/-- The availability webhooks of a task. -/
def announced (db : AriDb) : BackgroundTask → List AvailabilityChanged
  | availabilityOn rt d => [⟨rt, d, WebhookRunner.availableRooms rt d db.toDb⟩]
  | _ => []

end BackgroundTask

/-! Routes -/

/-- The blocks that an override writes. -/
def writeBlocks (body : AvailabilityOverridePutRequest) (db : AriDb) : AriDb :=
  { db with ledger := db.ledger.adjust fun r d c =>
      if r = body.roomTypeId ∧ d ∈ iterInclusiveDates body.startDate body.endDate then
        { c with blockedRooms := body.blockedRooms } else c }

/-- A date was given, or a status that gives up the stay. -/
def availTouch (body : BookingPatchRequest) : Bool :=
  body.checkIn ≠ none || body.checkOut ≠ none ||
    match body.status with
    | some (some st) => normalizeBookingStatus st ∈ ["cancelled", "no_show"]
    | _ => false

/-- Both loads return the one object of the session, so the lines of before the patch are
those of after it. -/
def patchedAvailability (body : BookingPatchRequest) (after : Booking) : List BackgroundTask :=
  if availTouch body then
    match lineRoomTypes after.lines with
    | [rt] =>
      BackgroundTask.emitAvailabilityForDates rt (after.lines.map (·.date)) ++
        (Ari.scheduled (.availability after.propertyId rt) (after.lines.map (·.date))).map .push
    | _ => []
  else []

inductive NotifyingRequest where
  | postBooking (env : Env) (body : BookingCreateRequest)
  | patchBookingById (env : Env) (bid : UUID) (body : BookingPatchRequest)
  | putAvailabilityOverrides (body : AvailabilityOverridePutRequest)
  | putRatesBulk (body : Ari.BulkRatesPutRequest)

namespace NotifyingRequest

def postBookingTasks (body : BookingCreateRequest) (out : BookingCreateResponse) :
    List BackgroundTask :=
  [.bookingCreated out.bookingId, .bookingConfirmation out.bookingId] ++
    (Ari.scheduled (.availability body.propertyId body.roomTypeId)
      (daysBetween body.checkIn body.checkOut)).map .push

def patchBookingTasks (bid : UUID) (body : BookingPatchRequest) (before : Booking)
    (after : Option Booking) : List BackgroundTask :=
  [.bookingPatched bid] ++
    match after with
    | none => []
    | some after =>
      (if after.status = .cancelled ∧ before.status ≠ .cancelled then [.cancellationEmail bid]
        else []) ++ patchedAvailability body after

/-- `none` is an error answer, whose transaction is rolled back. -/
def route (req : NotifyingRequest) (db : AriDb) : Option (Response AriDb BackgroundTask) :=
  match req with
  | postBooking env body =>
    match (createBooking env body).exec db.toDb with
    | (.error _, _) => none
    | (.ok out, core) => some ⟨.committed { db with toDb := core }, postBookingTasks body out⟩
  | patchBookingById env bid body =>
    if body = {} then some ⟨.committed db, []⟩
    else
      match db.bookings.find bid with
      | none => none
      | some before =>
        match (patchBooking env bid body).exec db.toDb with
        | (.error _, _) => none
        | (.ok _, core) => some ⟨.committed { db with toDb := core },
            patchBookingTasks bid body before (core.bookings.find bid)⟩
  | putAvailabilityOverrides body =>
    match Ari.putAvailabilityOverrides body db with
    | .error _ => none
    | .ok (_, pushes) => some ⟨.pending (writeBlocks body),
        BackgroundTask.emitAvailabilityForDates body.roomTypeId
          (iterInclusiveDates body.startDate body.endDate) ++ pushes.map .push⟩
  | putRatesBulk body =>
    match Ari.putRatesBulk body db with
    | .error _ => none
    | .ok (_, pushes) =>
      some ⟨.pending (Ari.upsertRates body), .rateUpdated body.keys :: pushes.map .push⟩

/-- The route ends with `await session.commit()`. -/
def CommitsItself : NotifyingRequest → Prop
  | postBooking _ _ => True
  | patchBookingById _ _ _ => True
  | _ => False

end NotifyingRequest

/-- What an override leaves to the end of the scope is what it has written in its session. -/
theorem writeBlocks_eq {body : AvailabilityOverridePutRequest} {db db' : AriDb}
    {pushes : List Push} (h : Ari.putAvailabilityOverrides body db = .ok (db', pushes)) :
    writeBlocks body db = db' := by
  unfold Ari.putAvailabilityOverrides at h
  cases hexec : (applyBlockedRoomsOverride body).exec db.toDb with
  | mk r core =>
    rw [hexec] at h
    cases r with
    | error e => cases h
    | ok r =>
      obtain ⟨hr, l, rfl, hrow⟩ := Ari.exec_override hexec
      obtain ⟨n, rt, dates⟩ := r
      cases hr
      cases h
      have hledger : db.ledger.adjust (fun r d c =>
          if r = body.roomTypeId ∧ d ∈ iterInclusiveDates body.startDate body.endDate then
            { c with blockedRooms := body.blockedRooms } else c) = l :=
        Ledger.ext_row fun rt d => (hrow rt d).symm
      unfold writeBlocks
      rw [hledger]
      rfl

variable {ι : Type}

def notifier (requests : ι → NotifyingRequest) : App ι AriDb BackgroundTask Push where
  respond i db := (requests i).route db
  effect := BackgroundTask.effect

theorem commitsItself {requests : ι → NotifyingRequest} {i : ι}
    (h : (requests i).CommitsItself) : State.CommitsItself (notifier requests) i := by
  intro db write tasks hrespond
  change (requests i).route db = _ at hrespond
  cases hreq : requests i with
  | postBooking env body =>
    rw [hreq] at hrespond
    unfold NotifyingRequest.route at hrespond
    dsimp only at hrespond
    split at hrespond <;> cases hrespond
  | patchBookingById env bid body =>
    rw [hreq] at hrespond
    unfold NotifyingRequest.route at hrespond
    dsimp only at hrespond
    split at hrespond
    · cases hrespond
    · split at hrespond
      · cases hrespond
      · split at hrespond <;> cases hrespond
  | putAvailabilityOverrides body =>
    rw [hreq] at h
    exact h.elim
  | putRatesBulk body =>
    rw [hreq] at h
    exact h.elim

theorem leavesCommit {requests : ι → NotifyingRequest} {i : ι}
    (h : ¬ (requests i).CommitsItself) : State.LeavesCommit (notifier requests) i := by
  intro db d tasks hrespond
  change (requests i).route db = _ at hrespond
  cases hreq : requests i with
  | postBooking env body =>
    rw [hreq] at h
    exact h trivial
  | patchBookingById env bid body =>
    rw [hreq] at h
    exact h trivial
  | putAvailabilityOverrides body =>
    rw [hreq] at hrespond
    unfold NotifyingRequest.route at hrespond
    dsimp only at hrespond
    split at hrespond <;> cases hrespond
  | putRatesBulk body =>
    rw [hreq] at hrespond
    unfold NotifyingRequest.route at hrespond
    dsimp only at hrespond
    split at hrespond <;> cases hrespond

/-- In every run of such requests, their tasks, the workers and other commits, all that is
read for a request reflects its change exactly when each reading comes after a route that
commits itself, or after the scope of its request is left. So the readings for a booking
always reflect it, and the webhooks of an override never do. -/
theorem notifications_read_committed_iff [DecidableEq ι] (requests : ι → NotifyingRequest)
    (db : AriDb) (es : List (Event ι AriDb)) :
    ((∀ r ∈ ((State.initial db).run (notifier requests) es).readings, r.Reflects) ↔
      (State.initial db).InTime (notifier requests) (fun i => (requests i).CommitsItself) es) ∧
    (∀ r ∈ ((State.initial db).run (notifier requests) es).readings,
      (requests r.request).CommitsItself → r.Reflects) ∧
    ∀ r ∈ ((State.initial db).run (notifier requests) es).readings,
      ¬ (requests r.request).CommitsItself → ∀ t, r.source = .inl t → ¬ r.Reflects := by
  have hstart : State.Recorded db (State.initial db : State ι AriDb BackgroundTask Push) :=
    State.recorded_initial
  have hprompt : ∀ i, (State.initial db : State ι AriDb BackgroundTask Push).Prompt i := fun i =>
    ⟨fun _ _ h => (by cases h), fun _ h => absurd h List.not_mem_nil⟩
  have hopen : ∀ i tasks, (State.initial db : State ι AriDb BackgroundTask Push).sessions i ≠
      .responded none tasks := fun i tasks h => by cases h
  refine ⟨?_, ?_, ?_⟩
  · rw [State.reflects_run hstart, State.timely_iff (fun i hi => commitsItself hi)
      (fun i hi => leavesCommit hi) (fun i _ => hprompt i) fun i _ => hopen i]
    exact and_iff_right fun r hr => absurd hr List.not_mem_nil
  · intro r hr hcommits
    exact State.reflects_of_commitsItself (commitsItself hcommits) hstart (hprompt _)
      (fun r hr => absurd hr List.not_mem_nil) r hr rfl
  · intro r hr hleaves
    exact State.not_reflects_of_leavesCommit (leavesCommit hleaves) hstart (hopen _)
      (fun r hr => absurd hr List.not_mem_nil) r hr rfl

/-! An override that blocks the only mapped room type -/

namespace Demo

/-- Both rooms of day 3. -/
def blockAll : AvailabilityOverridePutRequest where
  roomTypeId := 10
  startDate := 3
  endDate := 3
  blockedRooms := 2
  start_le := Ari.Demo.day_le
  span_le := Ari.Demo.day_span

/-- The webhook and the two pushes go out, a worker reads, and then the scope is left. -/
def overrideThenExit : List (Event Unit AriDb) :=
  [.respond (), .background (), .background (), .background (), .work 0, .exit ()]

def overridden : State Unit AriDb BackgroundTask Push :=
  (State.initial Ari.Demo.mapped).run (notifier fun _ => .putAvailabilityOverrides blockAll)
    overrideThenExit

end Demo

/-- The webhook and the push say that two rooms are left, and the override leaves none. -/
theorem override_announced_before_commit :
    (¬ ∀ r ∈ Demo.overridden.readings, r.Reflects) ∧
    Demo.overridden.readings.map (fun r => r.source.elim (BackgroundTask.announced r.db)
      fun _ => []) = [[], [⟨10, 3, 2⟩]] ∧
    Demo.overridden.readings.map (fun r => r.source.elim (fun _ => [])
      fun p => Ari.availabilitySent (p.calls r.db)) = [[⟨"hotel", "double", 3, 2⟩], []] ∧
    WebhookRunner.availableRooms 10 3 Demo.overridden.db.toDb = 0 := by
  refine ⟨fun hall => ?_, by decide, by decide, by decide⟩
  have hseen : ∀ r ∈ Demo.overridden.readings, r.seen.length = 0 := by decide
  have hsome : Demo.overridden.readings ≠ [] := by
    intro hnil
    have hlength : Demo.overridden.readings.length = 2 := by decide
    rw [hnil] at hlength
    cases hlength
  obtain ⟨r, hr⟩ := List.exists_mem_of_ne_nil _ hsome
  obtain ⟨newer, d, older, hsplit, -⟩ := hall r hr
  have hzero := hseen r hr
  rw [hsplit] at hzero
  simp at hzero

end OpenPms
