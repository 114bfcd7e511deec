import OpenPms.ChannexBooking
import OpenPms.RoomService

/-!
Availability, rates and restrictions as they are pushed to Channex: by the nightly full
sync of a property, and by the incremental pushes of single days. A null restriction is
left out of a record, and a rate that is not positive is not sent at all.
-/
namespace OpenPms

/-- Upper case of ASCII letters, which currency codes consist of. -/
def Text.upper (s : String) : String := String.ofList (s.toList.map Char.toUpper)

namespace Ari

/-! Rows -/

structure ChannexPropertyLink extends OpenPms.ChannexPropertyLink where
  channexPropertyId : String
  status : String
  deriving DecidableEq

/-- The columns of a rate row beside its price. -/
structure RateRestrictions where
  stopSell : Bool
  minStayArrival : Option ℤ
  maxStay : Option ℤ
  deriving DecidableEq

structure Rate extends RateRestrictions where
  price : Money
  deriving DecidableEq

/-- `restrictions` are those of the rows that have a price in `rates`. -/
structure AriDb extends Db where
  currency : UUID → Option String
  links : List ChannexPropertyLink
  restrictions : UUID → UUID → ℤ → RateRestrictions

def AriDb.rate (db : AriDb) (rt rp : UUID) (d : ℤ) : Option Rate :=
  (db.rates rt rp d).map fun price => ⟨db.restrictions rt rp d, price⟩

/-- The request schema takes no NaN, so that every price compares with zero. -/
def positive : Money → Bool
  | ⊤ => false
  | (n : ℤ) => 0 < n

/-! Rate values -/

def minorUnits : List (String × ℕ) :=
  [("BHD", 3), ("IQD", 3), ("JOD", 3), ("KWD", 3), ("LYD", 3), ("OMR", 3), ("TND", 3),
    ("CLF", 4), ("UYW", 4), ("BIF", 0), ("CLP", 0), ("DJF", 0), ("GNF", 0), ("ISK", 0),
    ("JPY", 0), ("KMF", 0), ("KRW", 0), ("PYG", 0), ("RWF", 0), ("UGX", 0), ("VND", 0),
    ("VUV", 0), ("XAF", 0), ("XOF", 0), ("XPF", 0)]

def currencyExponent (currencyCode : String) : ℕ :=
  let c := Text.take 3 (Text.upper (Text.strip currencyCode))
  if c.length ≠ 3 then 2 else (minorUnits.lookup c).getD 2

/-- `format(q, "f")` of `units` times ten to the power `-exp`. -/
def formatFixed (units : ℤ) (exp : ℕ) : String :=
  let sign := if units < 0 then "-" else ""
  let whole := toString (units.natAbs / 10 ^ exp)
  let part := toString (units.natAbs % 10 ^ exp)
  let zeros := String.ofList (List.replicate (exp - part.length) '0')
  sign ++ whole ++ if exp = 0 then "" else "." ++ zeros ++ part

/-- Cents in minor units of `exp` digits, halves away from zero. -/
def minorUnitsOf (cents : ℤ) (exp : ℕ) : ℤ :=
  cents.sign * ((2 * cents.natAbs * 10 ^ exp + 100) / 200 : ℕ)

def channexRateString (price : Money) (currencyCode : String) : String :=
  match price with
  | ⊤ => "NaN"
  | (cents : ℤ) => formatFixed (minorUnitsOf cents (currencyExponent currencyCode))
      (currencyExponent currencyCode)

example : (channexRateString (19950 : ℤ) "USD", channexRateString (19950 : ℤ) "JPY") =
    ("199.50", "200") := by
  decide

/-! Records and calls of the client -/

structure AvailabilityRecord where
  propertyId : String
  roomTypeId : String
  date : ℤ
  availability : ℤ
  deriving DecidableEq

/-- A field that is `none` is not in the record. -/
structure RestrictionRecord where
  propertyId : String
  ratePlanId : String
  date : ℤ
  rate : Option String
  stopSell : Option Bool
  minStayArrival : Option ℤ
  maxStay : Option ℤ
  deriving DecidableEq

inductive ClientCall where
  | pushAvailability (values : List AvailabilityRecord)
  | pushRestrictions (values : List RestrictionRecord)

def batchSize : ℕ := 200

/-- The slices at `range(0, len(values), _BATCH)`. -/
def batches {α : Type} (values : List α) : List (List α) :=
  (List.range ((values.length + (batchSize - 1)) / batchSize)).map fun k =>
    (values.drop (k * batchSize)).take batchSize

/-! The incremental pushes -/

def getLink (property : UUID) (db : AriDb) : Option ChannexPropertyLink :=
  db.links.find? fun l => l.propertyId = property

def propertyCurrencyCode (property : UUID) (db : AriDb) : String :=
  let cc := Text.take 3 (Text.upper (Text.strip (orText (db.currency property) "USD")))
  if cc.length ≠ 3 then "USD" else cc

def restrictionPayload (propCx cxRp : String) (d : ℤ) (currencyCode : String)
    (price : Option Money) (stopSell : Option Bool) (minStayArrival maxStay : Option ℤ) :
    RestrictionRecord where
  propertyId := propCx
  ratePlanId := cxRp
  date := d
  rate := price.map fun p => channexRateString p currencyCode
  stopSell := stopSell
  minStayArrival := minStayArrival
  maxStay := maxStay

def roomMapFor (link : ChannexPropertyLink) (rt : UUID) (db : AriDb) :
    Option ChannexRoomTypeMap :=
  db.roomTypeMaps.find? fun m => m.propertyLinkId = link.id && m.roomTypeId = rt

def rateMapFor (rtm : ChannexRoomTypeMap) (rp : UUID) (db : AriDb) : Option ChannexRatePlanMap :=
  db.ratePlanMaps.find? fun m => m.roomTypeMapId = rtm.id && m.ratePlanId = rp

/-- The active link of the property with the map of the room type. -/
def activeRoomMap (property rt : UUID) (db : AriDb) :
    Option (ChannexPropertyLink × ChannexRoomTypeMap) := do
  let link ← getLink property db
  if link.status ≠ "active" then none
  else do
    let rm ← roomMapFor link rt db
    pure (link, rm)

def incrementalAvailability (link : ChannexPropertyLink) (rm : ChannexRoomTypeMap) (rt : UUID)
    (dates : List ℤ) (db : AriDb) : List AvailabilityRecord :=
  dates.map fun d =>
    let avail := match db.ledger.row rt d with
      | none => 0
      | some c => max 0 (c.totalRooms - c.bookedRooms - c.blockedRooms)
    ⟨Text.strip link.channexPropertyId, Text.strip rm.channexRoomTypeId, d, avail⟩

def runPushChannexAvailability (property rt : UUID) (dateStrs : List ℤ) (db : AriDb) :
    List ClientCall :=
  match activeRoomMap property rt db with
  | none => []
  | some (link, rm) =>
    (batches (incrementalAvailability link rm rt (sortedDates dateStrs) db)).map
      .pushAvailability

def incrementalRates (link : ChannexPropertyLink) (rpm : ChannexRatePlanMap) (rt rp : UUID)
    (dates : List ℤ) (db : AriDb) : List RestrictionRecord :=
  dates.filterMap fun d => do
    let rrow ← db.rate rt rp d
    if positive rrow.price then
      some (restrictionPayload (Text.strip link.channexPropertyId)
        (Text.strip rpm.channexRatePlanId) d (propertyCurrencyCode link.propertyId db)
        (some rrow.price) (some rrow.stopSell) rrow.minStayArrival rrow.maxStay)
    else none

def runPushChannexRates (property rt rp : UUID) (dateStrs : List ℤ) (db : AriDb) :
    List ClientCall :=
  match activeRoomMap property rt db with
  | none => []
  | some (link, rtm) =>
    match rateMapFor rtm rp db with
    | none => []
    | some rpm =>
      (batches (incrementalRates link rpm rt rp (sortedDates dateStrs) db)).map .pushRestrictions

/-- Only the rate, where there is a positive one, goes with a closed day. -/
def stopSellRecord (link : ChannexPropertyLink) (rt : UUID) (db : AriDb)
    (rpm : ChannexRatePlanMap) (d : ℤ) : RestrictionRecord :=
  let price := ((db.rate rt rpm.ratePlanId d).map (·.price)).filter positive
  restrictionPayload (Text.strip link.channexPropertyId) (Text.strip rpm.channexRatePlanId) d
    (propertyCurrencyCode link.propertyId db) price (some true) none none

def rateMapsOf (rtm : ChannexRoomTypeMap) (db : AriDb) : List ChannexRatePlanMap :=
  db.ratePlanMaps.filter fun m => m.roomTypeMapId = rtm.id

def runPushChannexStopSell (property rt : UUID) (dateStrs : List ℤ) (db : AriDb) :
    List ClientCall :=
  match activeRoomMap property rt db with
  | none => []
  | some (link, rtm) =>
    let records := (rateMapsOf rtm db).flatMap fun rpm =>
      (sortedDates dateStrs).map (stopSellRecord link rt db rpm)
    (batches records).map .pushRestrictions

/-! The full sync -/

def syncDays : ℕ := 365

def syncDates (start : ℤ) : List ℤ := (List.range syncDays).map fun (i : ℕ) => start + (i : ℤ)

def syncCurrencyCode (property : UUID) (db : AriDb) : String :=
  let code := Text.take 3 (Text.upper (Text.strip (orText (db.currency property) "USD")))
  if code.length ≠ 3 then "USD" else code

def restrictionRow (propCx cxRp : String) (d : ℤ) (rrow : Rate) (currencyCode : String) :
    Option RestrictionRecord :=
  if positive rrow.price then
    some { propertyId := propCx, ratePlanId := cxRp, date := d,
           rate := some (channexRateString rrow.price currencyCode),
           stopSell := some rrow.stopSell, minStayArrival := rrow.minStayArrival,
           maxStay := rrow.maxStay }
  else none

def roomMapsOf (link : ChannexPropertyLink) (db : AriDb) : List ChannexRoomTypeMap :=
  db.roomTypeMaps.filter fun m => m.propertyLinkId = link.id

def syncRateMaps (link : ChannexPropertyLink) (db : AriDb) : List ChannexRatePlanMap :=
  db.ratePlanMaps.filter fun m => m.roomTypeMapId ∈ (roomMapsOf link db).map (·.id)

/-- The ledger rows of the mapped types in the window, one query for all. -/
def availMap (link : ChannexPropertyLink) (start : ℤ) (db : AriDb) (rt : UUID) (d : ℤ) :
    Option ℤ :=
  if rt ∈ (roomMapsOf link db).map (·.roomTypeId) ∧ start ≤ d ∧ d ≤ start + (syncDays - 1) then
    (db.ledger.row rt d).map fun c => max 0 (c.totalRooms - c.bookedRooms - c.blockedRooms)
  else none

def rateRowsByKey (link : ChannexPropertyLink) (start : ℤ) (db : AriDb) (rt rp : UUID) (d : ℤ) :
    Option Rate :=
  if rt ∈ (roomMapsOf link db).map (·.roomTypeId) ∧
      rp ∈ (syncRateMaps link db).map (·.ratePlanId) ∧ start ≤ d ∧ d ≤ start + (syncDays - 1) then
    db.rate rt rp d
  else none

def syncAvailability (link : ChannexPropertyLink) (start : ℤ) (db : AriDb)
    (rm : ChannexRoomTypeMap) : List AvailabilityRecord :=
  (syncDates start).map fun d =>
    ⟨Text.strip link.channexPropertyId, Text.strip rm.channexRoomTypeId, d,
      (availMap link start db rm.roomTypeId d).getD 0⟩

/-- The room type is the one of the first map with the id. -/
def syncRestrictions (property : UUID) (link : ChannexPropertyLink) (start : ℤ) (db : AriDb)
    (rpm : ChannexRatePlanMap) : List RestrictionRecord :=
  match (roomMapsOf link db).find? fun x => x.id = rpm.roomTypeMapId with
  | none => []
  | some rtm => (syncDates start).filterMap fun d => do
    let rrow ← rateRowsByKey link start db rtm.roomTypeId rpm.ratePlanId d
    restrictionRow (Text.strip link.channexPropertyId) (Text.strip rpm.channexRatePlanId) d rrow
      (syncCurrencyCode property db)

def runChannexFullAriSync (property : UUID) (start : ℤ) (db : AriDb) : List ClientCall :=
  match getLink property db with
  | none => []
  | some link =>
    if link.status ≠ "active" then []
    else if roomMapsOf link db = [] then []
    else
      (batches ((roomMapsOf link db).flatMap (syncAvailability link start db))).map
          .pushAvailability ++
        (batches ((syncRateMaps link db).flatMap (syncRestrictions property link start db))).map
          .pushRestrictions

end Ari

end OpenPms
