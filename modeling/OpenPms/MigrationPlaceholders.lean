import OpenPms.MigrationServer
import OpenPms.PrenoAdapter

/-!
The made-up addresses of guests without one and of bookings, and the guest rows that the
server finds or creates under them. The server compares addresses in lower case.
-/
namespace OpenPms.Migration

open KeyedTable Transaction Prog

/-! Made-up addresses -/

/-- What is left of an id in an address, as the server compares it. -/
def collapsedId (id : String) : String := Text.lower (String.ofList (dashRuns false id.toList))

theorem nameKey_placeholder_inj {id id' : String} :
    nameKey (placeholder id) = nameKey (placeholder id') ↔ collapsedId id = collapsedId id' := by
  rw [nameKey_placeholder, nameKey_placeholder]
  refine ⟨fun h => ?_, fun h => ?_⟩
  · have hlists := congrArg String.toList h
    simp only [String.toList_append] at hlists
    exact String.toList_inj.mp (List.append_cancel_left (List.append_cancel_right hlists))
  · unfold collapsedId at h
    rw [h]

theorem nodup_placeholders {ids : List String} :
    (ids.map fun id => nameKey (placeholder id)).Nodup ↔ (ids.map collapsedId).Nodup := by
  unfold List.Nodup
  rw [List.pairwise_map, List.pairwise_map]
  exact ⟨List.Pairwise.imp fun hne h => hne (nameKey_placeholder_inj.mpr h),
    List.Pairwise.imp fun hne h => hne (nameKey_placeholder_inj.mp h)⟩

/-! The guests of the server -/

/-- A person that is posted: a guest, or the guest of a booking. -/
structure Arrival where
  env : Env
  person : GuestRecord ⊕ BookingRecord

def personEmail : GuestRecord ⊕ BookingRecord → String
  | .inl g => safeEmailForGuest g
  | .inr b => Text.lower (Text.strip b.guest.email)

def emails (db : Db) : List String := db.guests.rows.map (·.email)

/-- The row that `create_guest` inserts. -/
def guestRow (env : Env) (body : GuestBody) : Guest where
  id := env.guestId
  firstName := Text.strip body.firstName
  lastName := Text.strip body.lastName
  email := Text.lower (Text.strip body.email)
  phone := Text.strip body.phone
  passportData := none
  notes := storedNotes body.notes

namespace Arrival

/-- The address in the request. -/
def email (x : Arrival) : String := personEmail x.person

/-- Whether the person gets a row of its own: a guest that is there is refused, and a
booking is attached to the guest that is found. -/
def own (x : Arrival) : Tx Bool :=
  match x.person with
  | .inl g => flushGuest (guestRow x.env (guestBody g))
  | .inr b => do
    let (_, merged) ← getOrCreateGuestForBooking x.env
      ⟨b.guest.firstName, b.guest.lastName, Text.lower (Text.strip b.guest.email), b.guest.phone,
        none⟩ false
    pure !merged

/-- The row that is inserted for the person. -/
def row (x : Arrival) : Guest :=
  match x.person with
  | .inl g => guestRow x.env (guestBody g)
  | .inr b => GuestPayload.toGuest
      ⟨b.guest.firstName, b.guest.lastName, Text.lower (Text.strip b.guest.email), b.guest.phone,
        none⟩ x.env.guestId

end Arrival

def ownRows : List Arrival → Tx (List Bool)
  | [] => pure []
  | x :: rest => do
    let own ← x.own
    let flags ← ownRows rest
    pure (own :: flags)

section Rows
variable {db : Db}

theorem isSome_findGuestByEmail {email : String} :
    (findGuestByEmail email db).isSome = true ↔ email ∈ emails db := by
  rw [findGuestByEmail, emails, List.find?_isSome, List.mem_map]
  simp only [decide_eq_true_eq]

theorem exec_flushGuest (guest : Guest) (hid : db.guests.find guest.id = none) :
    (flushGuest guest).exec db = if guest.email ∈ emails db then (.ok false, db)
      else (.ok true, { db with guests := db.guests.insert guest }) := by
  have hclash : ((findGuestByEmail guest.email db).isSome ||
      (db.guests.find guest.id).isSome) = decide (guest.email ∈ emails db) := by
    rw [hid, Option.isSome_none, Bool.or_false, Bool.eq_iff_iff, isSome_findGuestByEmail,
      decide_eq_true_eq]
  rw [flushGuest, exec_bind, exec_select]
  simp only [hclash, decide_eq_true_eq]
  split
  · rfl
  · rfl

theorem row_key (x : Arrival) : x.row.id = x.env.guestId ∧ x.row.email = nameKey x.email := by
  obtain ⟨env, g | b⟩ := x
  · simp only [Arrival.row, guestRow, guestBody, Arrival.email, personEmail, nameKey, and_self]
  · simp only [Arrival.row, GuestPayload.toGuest, Arrival.email, personEmail, nameKey, and_self]

theorem exec_getOrCreateGuest_known {env : Env} {payload : GuestPayload}
    (h : (payload.toGuest env.guestId).email ∈ emails db) :
    ∃ g, (getOrCreateGuestForBooking env payload false).exec db = (.ok (g, true), db) := by
  obtain ⟨g, hg⟩ := Option.isSome_iff_exists.mp (isSome_findGuestByEmail.mpr h)
  refine ⟨g, ?_⟩
  rw [getOrCreateGuestForBooking, if_neg Bool.false_ne_true, exec_bind, exec_select]
  simp only [hg]
  rfl

theorem exec_getOrCreateGuest_new {env : Env} {payload : GuestPayload}
    (hid : db.guests.find env.guestId = none)
    (h : (payload.toGuest env.guestId).email ∉ emails db) :
    (getOrCreateGuestForBooking env payload false).exec db =
      (.ok (payload.toGuest env.guestId, false),
        { db with guests := db.guests.insert (payload.toGuest env.guestId) }) := by
  have hnone : findGuestByEmail (payload.toGuest env.guestId).email db = none := by
    rw [← Option.not_isSome_iff_eq_none, isSome_findGuestByEmail]
    exact h
  have hflush := exec_flushGuest (payload.toGuest env.guestId) hid
  rw [if_neg h] at hflush
  rw [getOrCreateGuestForBooking, if_neg Bool.false_ne_true, exec_bind, exec_select]
  simp only [hnone]
  rw [exec_bind, hflush]
  rfl

theorem exec_own {x : Arrival} (hid : db.guests.find x.env.guestId = none) :
    x.own.exec db = if nameKey x.email ∈ emails db then (.ok false, db)
      else (.ok true, { db with guests := db.guests.insert x.row }) := by
  obtain ⟨env, g | b⟩ := x
  · have hflush := exec_flushGuest (Arrival.row ⟨env, .inl g⟩) hid
    rw [(row_key ⟨env, .inl g⟩).2] at hflush
    exact hflush
  · let payload : GuestPayload := ⟨b.guest.firstName, b.guest.lastName,
      Text.lower (Text.strip b.guest.email), b.guest.phone, none⟩
    have hown : Arrival.own ⟨env, .inr b⟩ = (getOrCreateGuestForBooking env payload false >>=
      fun found => pure !found.2) := rfl
    have hemail : (payload.toGuest env.guestId).email = nameKey (Arrival.email ⟨env, .inr b⟩) := rfl
    rw [hown, exec_bind, ← hemail]
    by_cases h : (payload.toGuest env.guestId).email ∈ emails db
    · obtain ⟨found, hfound⟩ := exec_getOrCreateGuest_known h
      rw [hfound, if_pos h]
      rfl
    · rw [exec_getOrCreateGuest_new hid h, if_neg h]
      rfl

/-- Every person gets a row of its own exactly if the addresses differ and are new. -/
theorem exec_ownRows {arrivals : List Arrival} (hids : (arrivals.map (·.env.guestId)).Nodup)
    (hnew : ∀ x ∈ arrivals, db.guests.find x.env.guestId = none) :
    ∃ flags db', (ownRows arrivals).exec db = (.ok flags, db') ∧
      ((∀ flag ∈ flags, flag = true) ↔ (arrivals.map fun x => nameKey x.email).Nodup ∧
        ∀ x ∈ arrivals, nameKey x.email ∉ emails db) := by
  induction arrivals generalizing db with
  | nil => exact ⟨[], db, rfl, by simp⟩
  | cons x rest ih =>
    obtain ⟨hid, hrest⟩ := List.forall_mem_cons.mp hnew
    obtain ⟨hne, hids⟩ := List.nodup_cons.mp hids
    have hexec := exec_own hid
    by_cases h : nameKey x.email ∈ emails db
    · rw [if_pos h] at hexec
      obtain ⟨flags, db', hflags, -⟩ := ih hids hrest
      refine ⟨false :: flags, db', ?_, ?_⟩
      · rw [ownRows, exec_bind, hexec]
        simp only
        rw [exec_bind, hflags]
        rfl
      · constructor
        · intro hall
          exact absurd (hall false List.mem_cons_self) (by decide)
        · intro ⟨_, hfresh⟩
          exact absurd h (hfresh x List.mem_cons_self)
    · rw [if_neg h] at hexec
      obtain ⟨hrow, hemail⟩ := row_key x
      have hnone : db.guests.find x.row.id = none := hrow ▸ hid
      have hemails : emails { db with guests := db.guests.insert x.row } =
          emails db ++ [nameKey x.email] := by
        simp only [emails, Table.insert_rows hnone, List.map_append, List.map_cons, List.map_nil, hemail]
      have hfree : ∀ y ∈ rest, (db.guests.insert x.row).find y.env.guestId = none := by
        intro y hy
        have hother : y.env.guestId ≠ x.row.id := fun heq =>
          hne (List.mem_map.mpr ⟨y, hy, heq.trans hrow⟩)
        rw [Table.find_insert_of_ne hother]
        exact hrest y hy
      obtain ⟨flags, db', hflags, hiff⟩ :=
        @ih { db with guests := db.guests.insert x.row } hids hfree
      refine ⟨true :: flags, db', ?_, ?_⟩
      · rw [ownRows, exec_bind, hexec]
        simp only
        rw [exec_bind, hflags]
        rfl
      · rw [List.forall_mem_cons, hiff, hemails, List.map_cons, List.nodup_cons,
          List.forall_mem_cons]
        have hnotmem : nameKey x.email ∉ rest.map (fun y => nameKey y.email) ↔
            ∀ y ∈ rest, nameKey y.email ≠ nameKey x.email := by
          simp
        rw [hnotmem]
        simp only [List.mem_append, List.mem_singleton, not_or]
        constructor
        · intro ⟨_, hnodup, hfresh⟩
          exact ⟨⟨fun y hy => (hfresh y hy).2, hnodup⟩, h, fun y hy => (hfresh y hy).1⟩
        · intro ⟨⟨hdiff, hnodup⟩, _, hfresh⟩
          exact ⟨trivial, hnodup, fun y hy => ⟨hfresh y hy, hdiff y hy⟩⟩

end Rows

/-! Different people -/

/-- The addresses made up for guests without one and for bookings. -/
def madeUp (guests : List GuestRecord) (bookings : List BookingRecord) : List String :=
  guests.map safeEmailForGuest ++ bookings.map (·.guest.email)

def externalIds (guests : List GuestRecord) (bookings : List BookingRecord) : List String :=
  guests.map (·.externalId) ++ bookings.map (·.externalId)

theorem madeUp_eq {guests : List GuestRecord} {a : PrenoAdapter}
    (hmissing : ∀ g ∈ guests, address g = "") :
    madeUp guests a.extractBookings = (externalIds guests a.extractBookings).map placeholder := by
  have hbookings : ∀ b ∈ a.extractBookings, b.guest.email = placeholder b.externalId := by
    intro b hb
    obtain ⟨row, -, hrow⟩ := List.mem_filterMap.mp hb
    exact (a.of_extractBooking hrow).2.2
  have hguests : ∀ g ∈ guests, safeEmailForGuest g = placeholder g.externalId :=
    fun g hg => safeEmail_of_missing (hmissing g hg)
  simp only [madeUp, externalIds, List.map_append, List.map_map, Function.comp_def]
  rw [List.map_congr_left hguests, List.map_congr_left hbookings]

theorem keys_persons (guests : List GuestRecord) (bookings : List BookingRecord) :
    (guests.map Sum.inl ++ bookings.map Sum.inr).map (fun person => nameKey (personEmail person)) =
      (madeUp guests bookings).map nameKey := by
  have hguest : ∀ g ∈ guests, nameKey (personEmail (.inl g)) = nameKey (safeEmailForGuest g) := by
    intro g _
    rw [personEmail]
  have hbooking : ∀ b ∈ bookings, nameKey (personEmail (.inr b)) = nameKey b.guest.email := by
    intro b _
    rw [personEmail, ← nameKey, nameKey_nameKey]
  simp only [madeUp, List.map_append, List.map_map, Function.comp_def]
  rw [List.map_congr_left hguest, List.map_congr_left hbooking]

/-- The addresses differ, and every guest and every booking gets a guest row of its own,
exactly if no two of the ids are the same after other characters have been collapsed and
letters made lower case. -/
theorem placeholders_identify_iff {guests : List GuestRecord} {a : PrenoAdapter}
    (hmissing : ∀ g ∈ guests, address g = "") {arrivals : List Arrival} {db : Db}
    (hpersons : arrivals.map (·.person) =
      guests.map Sum.inl ++ a.extractBookings.map Sum.inr)
    (hids : (arrivals.map (·.env.guestId)).Nodup)
    (hnew : ∀ x ∈ arrivals, db.guests.find x.env.guestId = none)
    (hfirst : ∀ row ∈ db.guests.rows, isSyntheticGuestEmail row.email = false) :
    ∃ flags db', (ownRows arrivals).exec db = (.ok flags, db') ∧
      ((madeUp guests a.extractBookings).Nodup ∧ (∀ flag ∈ flags, flag = true) ↔
        ((externalIds guests a.extractBookings).map collapsedId).Nodup) := by
  obtain ⟨flags, db', hexec, hiff⟩ := exec_ownRows hids hnew
  let ids := externalIds guests a.extractBookings
  have hkeys : arrivals.map (fun x => nameKey x.email) =
      ids.map fun id => nameKey (placeholder id) := by
    have hperson : arrivals.map (fun x => nameKey x.email) =
        (arrivals.map (·.person)).map fun person => nameKey (personEmail person) := by
      rw [List.map_map]
      rfl
    rw [hperson, hpersons, keys_persons, madeUp_eq hmissing, List.map_map]
    rfl
  have hfresh : ∀ x ∈ arrivals, nameKey x.email ∉ emails db := by
    intro x hx hmem
    have hkey : nameKey x.email ∈ arrivals.map fun x => nameKey x.email :=
      List.mem_map_of_mem hx
    rw [hkeys] at hkey
    obtain ⟨id, -, hid⟩ := List.mem_map.mp hkey
    obtain ⟨row, hrow, hemail⟩ := List.mem_map.mp hmem
    have hsynthetic : isSyntheticGuestEmail (nameKey (placeholder id)) = true := by
      rw [isSyntheticGuestEmail, nameKey_nameKey]
      exact isSynthetic_placeholder id
    rw [hid, ← hemail, hfirst row hrow] at hsynthetic
    exact absurd hsynthetic (by decide)
  have hdistinct : (ids.map fun id => nameKey (placeholder id)).Nodup → (ids.map placeholder).Nodup :=
    fun h => List.Nodup.of_map nameKey (by rwa [List.map_map])
  refine ⟨flags, db', hexec, ?_⟩
  rw [hiff, hkeys, madeUp_eq hmissing, ← nodup_placeholders]
  exact ⟨fun h => h.2.1, fun h => ⟨hdistinct h, h, hfresh⟩⟩

namespace Demo

def drawEnv (id : UUID) : Env where
  bookingId := id
  guestId := id
  folioId _ := id
  roomTypeId := id
  roomId _ := id
  countryPack _ := none
  foreignRevision _ := false
  checkinMessages _ _ := []

/-- One booking with the id. -/
def oneBooking (id : String) : PrenoAdapter where
  toDatetime text := if text = "2025-01-01" then some 739252 else some 739254
  includeCancelled := false
  bookings := [⟨id, "2025-01-01", "2025-01-03", "Cabin", "Standard", some "Bo", some "Lund",
    none, none⟩]
  rooms := []

def noEmail (id : String) : GuestRecord := ⟨id, "Ana", "Reis", none, none, none, none, false⟩

/-- The guest and the booking of one number get one address. -/
theorem placeholders_collide : ¬ ∀ (guests : List GuestRecord) (a : PrenoAdapter),
    (∀ g ∈ guests, address g = "") → (guests.map (·.externalId)).Nodup →
    (a.extractBookings.map (·.externalId)).Nodup → (madeUp guests a.extractBookings).Nodup := by
  intro h
  have hnodup := h [noEmail "7"] (oneBooking "7") (by decide) (by decide)
    (by decide)
  exact absurd hnodup (by decide)

def twoArrivals : List Arrival :=
  [⟨drawEnv 1, .inl (noEmail "7")⟩] ++
    (oneBooking "A1").extractBookings.map fun b => ⟨drawEnv 2, .inr b⟩

theorem placeholders_identify_two :
    ∃ flags db', (ownRows twoArrivals).exec (.empty 0) = (.ok flags, db') ∧
      (madeUp [noEmail "7"] (oneBooking "A1").extractBookings).Nodup ∧
      ∀ flag ∈ flags, flag = true := by
  have hpersons : twoArrivals.map (·.person) = [noEmail "7"].map Sum.inl ++
      (oneBooking "A1").extractBookings.map Sum.inr := by
    simp [twoArrivals]
  have hnew : ∀ x ∈ twoArrivals, (Db.empty 0).guests.find x.env.guestId = none := fun _ _ => rfl
  have hfirst : ∀ row ∈ (Db.empty 0).guests.rows, isSyntheticGuestEmail row.email = false :=
    fun _ h => absurd h List.not_mem_nil
  obtain ⟨flags, db', hexec, hiff⟩ := placeholders_identify_iff (by decide) hpersons
    (by decide) hnew hfirst
  exact ⟨flags, db', hexec, hiff.mpr (by decide)⟩

end Demo

end OpenPms.Migration
