import OpenPms.AriAgreement
import OpenPms.Lib.Outbox

/-!
The requests that change what is sold, with the pushes that they schedule: the block
override, the bulk update of rates and the full sync. A push is made when it is delivered,
from the rows of that moment.
-/
namespace OpenPms.Ari

open Transaction Prog Outbox

/-! The bulk update of rates -/

theorem one_le_of_none : ∀ n ∈ (none : Option ℤ), 1 ≤ n := fun _ hn => by cases hn

theorem none_le_none : ∀ n ∈ (none : Option ℤ), ∀ m ∈ (none : Option ℤ), n ≤ m :=
  fun _ hn => by cases hn

theorem Demo.day_le : (3 : ℤ) ≤ 3 := le_refl 3

theorem Demo.day_span : (3 : ℤ) - 3 + 1 ≤ 366 := by decide

structure BulkRateSegment where
  roomTypeId : UUID
  ratePlanId : UUID
  startDate : ℤ
  endDate : ℤ
  price : ℚ
  stopSell : Bool
  minStayArrival : Option ℤ
  maxStay : Option ℤ
  price_nonneg : 0 ≤ price
  min_pos : ∀ n ∈ minStayArrival, 1 ≤ n
  max_pos : ∀ n ∈ maxStay, 1 ≤ n
  start_le : startDate ≤ endDate
  min_le_max : ∀ n ∈ minStayArrival, ∀ m ∈ maxStay, n ≤ m

/-- The bound on all segments contains that on each. -/
structure BulkRatesPutRequest where
  segments : List BulkRateSegment
  segments_ne : segments ≠ []
  total_span_le : (segments.map fun seg => seg.endDate - seg.startDate + 1).sum ≤ 366

/-- A row to be written, with the price as the request has it. -/
structure RateRow where
  roomTypeId : UUID
  ratePlanId : UUID
  date : ℤ
  price : ℚ
  restrictions : RateRestrictions

def RateRow.key (row : RateRow) : UUID × UUID × ℤ := (row.roomTypeId, row.ratePlanId, row.date)

def BulkRateSegment.rows (seg : BulkRateSegment) : List RateRow :=
  (iterInclusiveDates seg.startDate seg.endDate).map fun d =>
    ⟨seg.roomTypeId, seg.ratePlanId, d, seg.price,
      ⟨seg.stopSell, seg.minStayArrival, seg.maxStay⟩⟩

/-- A later segment replaces the row of a key, which keeps its place. -/
def rowFor (rows : List RateRow) (key : UUID × UUID × ℤ) : Option RateRow :=
  rows.reverse.find? fun row => row.key = key

def BulkRatesPutRequest.rows (body : BulkRatesPutRequest) : List RateRow :=
  body.segments.flatMap (·.rows)

def BulkRatesPutRequest.keys (body : BulkRatesPutRequest) : List (UUID × UUID × ℤ) :=
  (body.rows.map (·.key)).eraseDups

/-- The rows that are written, one for each key. -/
def BulkRatesPutRequest.merged (body : BulkRatesPutRequest) : List RateRow :=
  body.keys.filterMap (rowFor body.rows)

/-- The column keeps two digits and rounds halves up. -/
def storedPrice (price : ℚ) : ℤ := ⌊price * 100 + 1 / 2⌋

/-- What the columns hold: twelve digits before the point, and four-byte integers. -/
def Storable (price : ℚ) (restrictions : RateRestrictions) : Prop :=
  storedPrice price < 10 ^ 14 ∧ (∀ n ∈ restrictions.minStayArrival, n < 2 ^ 31) ∧
    ∀ n ∈ restrictions.maxStay, n < 2 ^ 31

instance (price : ℚ) (restrictions : RateRestrictions) :
    Decidable (Storable price restrictions) := inferInstanceAs (Decidable (_ ∧ _ ∧ _))

inductive RatesError where
  | ratesService (detail : String) (statusCode : ℕ)
  | overflowError
  | dataError
  deriving DecidableEq

def requireRoomTypeAndPlanSameProperty (rt rp : UUID) (db : AriDb) : Except RatesError Unit :=
  match db.roomTypes.find rt, db.ratePlans.find? fun p => p.id = rp with
  | none, _ => .error (.ratesService "room_type not found" 404)
  | some _, none => .error (.ratesService "rate_plan not found" 404)
  | some t, some p =>
    if t.propertyId ≠ p.propertyId then
      .error (.ratesService "room type and rate plan must belong to the same property" 409)
    else .ok ()

/-- What is checked of a segment before its rows are collected. The loop over its days also
computes the day after the last. -/
def checkSegment (seg : BulkRateSegment) (db : AriDb) : Except RatesError Unit := do
  requireRoomTypeAndPlanSameProperty seg.roomTypeId seg.ratePlanId db
  if dateMax ≤ seg.endDate then .error .overflowError else .ok ()

def upsertRates (body : BulkRatesPutRequest) (db : AriDb) : AriDb :=
  { db with
    rates := fun rt rp d => match rowFor body.rows (rt, rp, d) with
      | some row => some (storedPrice row.price : ℤ)
      | none => db.rates rt rp d
    restrictions := fun rt rp d => match rowFor body.rows (rt, rp, d) with
      | some row => row.restrictions
      | none => db.restrictions rt rp d }

/-- The keys that are written, in their order. -/
def bulkUpsertRates (body : BulkRatesPutRequest) (db : AriDb) :
    Except RatesError (AriDb × List (UUID × UUID × ℤ)) := do
  body.segments.forM fun seg => checkSegment seg db
  if ∃ row ∈ body.merged, ¬ Storable row.price row.restrictions then .error .dataError
  else .ok (upsertRates body db, body.keys)

/-! Pushes -/

inductive Push where
  | availability (property rt : UUID) (dates : List ℤ)
  | rates (property rt rp : UUID) (dates : List ℤ)
  | stopSell (property rt : UUID) (dates : List ℤ)
  | fullSync (property : UUID) (start : ℤ)
  deriving DecidableEq

/-- What the client is called with. -/
def Push.calls (db : AriDb) : Push → List ClientCall
  | availability property rt dates => runPushChannexAvailability property rt dates db
  | rates property rt rp dates => runPushChannexRates property rt rp dates db
  | stopSell property rt dates => runPushChannexStopSell property rt dates db
  | fullSync property start => runChannexFullAriSync property start db

/-- Nothing is scheduled for no dates. -/
def scheduled (push : List ℤ → Push) (dates : List ℤ) : List Push :=
  if dates = [] then [] else [push (sortedDates dates)]

/-! The routes -/

def propertyOf (rt : UUID) (db : AriDb) : Option UUID := (db.roomTypes.find rt).map (·.propertyId)

/-- The pairs in the order of their first keys, all under the property of the first
segment's room type. -/
def putRatesBulk (body : BulkRatesPutRequest) (db : AriDb) :
    Except RatesError (AriDb × List Push) := do
  let (db', updates) ← bulkUpsertRates body db
  let property := body.segments.head?.bind fun seg => propertyOf seg.roomTypeId db
  let pairs := (updates.map fun u => (u.1, u.2.1)).eraseDups
  let pushes := match property with
    | none => []
    | some property => pairs.flatMap fun pair =>
      scheduled (.rates property pair.1 pair.2)
        ((updates.filter fun u => (u.1, u.2.1) = pair).map (·.2.2))
  pure (db', pushes)

def FullyBlocked (c : Counts) : Prop := 0 < c.totalRooms ∧ c.blockedRooms = c.totalRooms

instance (c : Counts) : Decidable (FullyBlocked c) :=
  inferInstanceAs (Decidable (_ ∧ _))

/-- The day has a ledger row with every room blocked. -/
def AriDb.Blocked (db : AriDb) (rt : UUID) (d : ℤ) : Prop :=
  ∃ c ∈ db.ledger.row rt d, FullyBlocked c

instance (db : AriDb) (rt : UUID) (d : ℤ) : Decidable (db.Blocked rt d) :=
  inferInstanceAs (Decidable (∃ c ∈ db.ledger.row rt d, _))

/-- Availability is pushed for every date, a closed day only where all rooms are blocked. -/
def putAvailabilityOverrides (body : AvailabilityOverridePutRequest) (db : AriDb) :
    Except Err (AriDb × List Push) :=
  match (applyBlockedRoomsOverride body).exec db.toDb with
  | (.error e, _) => .error e
  | (.ok (_, rt, dates), core) =>
    let db' : AriDb := { db with toDb := core }
    let pushes := match propertyOf rt db with
      | none => []
      | some property => scheduled (.availability property rt) dates ++
        scheduled (.stopSell property rt) (dates.filter fun d => db'.Blocked rt d)
    .ok (db', pushes)

inductive Request where
  | override (body : AvailabilityOverridePutRequest)
  | bulkRates (body : BulkRatesPutRequest)
  | fullSync (property : UUID) (start : ℤ)

/-- A request that raises is rolled back and schedules nothing. The day on which a full
sync will run is part of the request for it. -/
def perform : Request → AriDb → Option (AriDb × List Push)
  | .override body, db => (putAvailabilityOverrides body db).toOption
  | .bulkRates body, db => (putRatesBulk body db).toOption
  | .fullSync property start, db => some (db, [.fullSync property start])

/-! What Channex holds -/

structure Restrictions where
  rate : Option String
  stopSell : Option Bool
  minStayArrival : Option ℤ
  maxStay : Option ℤ
  deriving DecidableEq

/-- By property, rate plan and date. -/
abbrev Remote := String → String → ℤ → Restrictions

/-- A field that the record does not have keeps its value. -/
def Restrictions.merge (held : Restrictions) (r : RestrictionRecord) : Restrictions where
  rate := r.rate.orElse fun _ => held.rate
  stopSell := r.stopSell.orElse fun _ => held.stopSell
  minStayArrival := r.minStayArrival.orElse fun _ => held.minStayArrival
  maxStay := r.maxStay.orElse fun _ => held.maxStay

def Remote.receive (remote : Remote) (r : RestrictionRecord) : Remote := fun p rp d =>
  if r.propertyId = p ∧ r.ratePlanId = rp ∧ r.date = d then (remote p rp d).merge r
  else remote p rp d

/-- Pushes are delivered in the order in which they are scheduled. -/
def channel : Channel AriDb Remote Push Request where
  perform := perform
  deliver db remote push := (restrictionsSent (push.calls db)).foldl Remote.receive remote

end OpenPms.Ari
