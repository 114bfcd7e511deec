import OpenPms.RatesAdmin
import OpenPms.Lib.Courier

/-!
Availability pushes in parallel workers. A push reads the ledger rows of its dates and the
maps in one transaction, and then calls the client batch by batch; full syncs do the same
for a year. The links and maps stay as they are during a run.
-/
namespace OpenPms.Ari

open Courier

variable {base : AriDb}

/-! What is pushed -/

/-- A room type under an active link with its map, and a day. -/
structure Target (base : AriDb) where
  property : UUID
  roomType : UUID
  day : ℤ
  link : ChannexPropertyLink
  room : ChannexRoomTypeMap
  mapped : activeRoomMap property roomType base = some (link, room)

def atLedger (base : AriDb) (ledger : Ledger) : AriDb := { base with ledger := ledger }

/-- Total less booked less blocked rooms, at least zero; zero without a row. -/
def sellable (ledger : Ledger) (rt : UUID) (d : ℤ) : ℤ :=
  match ledger.row rt d with
  | none => 0
  | some c => max 0 (c.totalRooms - c.bookedRooms - c.blockedRooms)

/-- The availabilities that a call has for the target. -/
def toldOf (call : ClientCall) (k : Target base) : List ℤ :=
  (call.availability.filter fun r => r.propertyId = Text.strip k.link.channexPropertyId &&
    r.roomTypeId = Text.strip k.room.channexRoomTypeId && r.date = k.day).map (·.availability)

def PushCovers (p : Push) (k : Target base) : Prop :=
  match p with
  | .availability property rt dates => property = k.property ∧ rt = k.roomType ∧ k.day ∈ dates
  | .fullSync property start => property = k.property ∧ k.day ∈ syncDates start
  | _ => False

/-- A committed change of the ledger with the dates that are pushed for it, or the
scheduling of a full sync. -/
inductive LedgerCommit where
  | change (ledger : Ledger) (dates : List (UUID × UUID × List ℤ))
  | fullSync (property : UUID) (start : ℤ)

def commit : LedgerCommit → Ledger → Option (Ledger × List Push)
  | .change ledger dates, _ =>
    some (ledger, dates.flatMap fun p => scheduled (.availability p.1 p.2.1) p.2.2)
  | .fullSync property start, ledger => some (ledger, [.fullSync property start])

def pushService (base : AriDb) : Service Ledger Push ClientCall LedgerCommit where
  perform := commit
  read p ledger := p.calls (atLedger base ledger)

/-! A push tells what the ledger has when it reads -/

namespace Target
variable (k : Target base) {ledger : Ledger}

theorem activeRoomMap_atLedger :
    activeRoomMap k.property k.roomType (atLedger base ledger) = some (k.link, k.room) := k.mapped

theorem active : getLink k.property base = some k.link ∧ k.link.status = "active" ∧
    roomMapFor k.link k.roomType base = some k.room := by
  have hmapped := k.mapped
  unfold activeRoomMap at hmapped
  obtain ⟨link, hlink, hmapped⟩ := Option.bind_eq_some_iff.mp hmapped
  split at hmapped
  · cases hmapped
  · next hactive =>
    obtain ⟨rm, hrm, hpair⟩ := Option.bind_eq_some_iff.mp hmapped
    cases hpair
    exact ⟨hlink, not_not.mp hactive, hrm⟩

theorem room_mem : k.room ∈ roomMapsOf k.link base ∧ k.room.roomTypeId = k.roomType := by
  obtain ⟨-, -, hroom⟩ := k.active
  have hp := List.find?_some hroom
  simp only [Bool.and_eq_true, decide_eq_true_eq] at hp
  exact ⟨mem_roomMapsOf.mpr ⟨List.mem_of_find?_eq_some hroom, hp.1⟩, hp.2⟩

/-- What calls tell of the target is what their records do. -/
theorem mem_told {calls : List ClientCall} {r : AvailabilityRecord}
    (hr : r ∈ availabilitySent calls)
    (hproperty : r.propertyId = Text.strip k.link.channexPropertyId)
    (hroom : r.roomTypeId = Text.strip k.room.channexRoomTypeId) (hday : r.date = k.day) :
    r.availability ∈ calls.flatMap (toldOf · k) := by
  obtain ⟨call, hcall, hr⟩ := List.mem_flatMap.mp hr
  refine List.mem_flatMap.mpr ⟨call, hcall, List.mem_map_of_mem (List.mem_filter.mpr ⟨hr, ?_⟩)⟩
  simp only [hproperty, hroom, hday, decide_true, Bool.and_self]

theorem told_availability {dates : List ℤ} (hday : k.day ∈ dates) :
    sellable ledger k.roomType k.day ∈
      (runPushChannexAvailability k.property k.roomType dates (atLedger base ledger)).flatMap
        (toldOf · k) := by
  unfold runPushChannexAvailability
  rw [k.activeRoomMap_atLedger]
  dsimp only
  refine k.mem_told (r := ⟨Text.strip k.link.channexPropertyId,
    Text.strip k.room.channexRoomTypeId, k.day, sellable ledger k.roomType k.day⟩) ?_
    rfl rfl rfl
  rw [availabilitySent_pushAvailability]
  exact List.mem_map_of_mem (mem_sortedDates.mpr hday)

theorem told_fullSync {start : ℤ} (hday : k.day ∈ syncDates start) :
    sellable ledger k.roomType k.day ∈
      (runChannexFullAriSync k.property start (atLedger base ledger)).flatMap (toldOf · k) := by
  obtain ⟨hlink, hactive, -⟩ := k.active
  obtain ⟨hroom, htype⟩ := k.room_mem
  have hne : roomMapsOf k.link (atLedger base ledger) ≠ [] := List.ne_nil_of_mem hroom
  have hvalue : (availMap k.link start (atLedger base ledger) k.room.roomTypeId k.day).getD 0 =
      sellable ledger k.roomType k.day := by
    unfold availMap
    rw [if_pos ⟨List.mem_map_of_mem hroom, mem_syncDates.mp hday⟩, htype]
    unfold sellable
    show ((ledger.row k.roomType k.day).map _).getD 0 = _
    cases ledger.row k.roomType k.day with
    | none => rfl
    | some c => rfl
  have hrecord : (⟨Text.strip k.link.channexPropertyId, Text.strip k.room.channexRoomTypeId,
      k.day, sellable ledger k.roomType k.day⟩ : AvailabilityRecord) ∈
      (roomMapsOf k.link (atLedger base ledger)).flatMap
        (syncAvailability k.link start (atLedger base ledger)) := by
    refine List.mem_flatMap.mpr ⟨k.room, hroom, ?_⟩
    rw [← hvalue]
    exact List.mem_map_of_mem hday
  unfold runChannexFullAriSync
  rw [show getLink k.property (atLedger base ledger) = some k.link from hlink]
  dsimp only
  rw [if_neg (not_not.mpr hactive), if_neg hne, List.flatMap_append]
  refine List.mem_append_left _ (k.mem_told ?_ rfl rfl rfl (r := ⟨_, _, k.day, _⟩))
  rw [availabilitySent_pushAvailability]
  exact hrecord

end Target

def availabilityTopic (base : AriDb) : Topic (pushService base) (Target base) ℤ where
  tells := toldOf
  value ledger k := sellable ledger k.roomType k.day
  covers := PushCovers
  faithful := by
    intro p k ledger hcovers
    cases p with
    | availability property rt dates =>
      obtain ⟨rfl, rfl, hday⟩ := hcovers
      exact k.told_availability hday
    | fullSync property start =>
      obtain ⟨rfl, hday⟩ := hcovers
      exact k.told_fullSync hday
    | rates property rt rp dates => exact hcovers.elim
    | stopSell property rt dates => exact hcovers.elim

/-- In every run in which each change of the ledger schedules a push of the changed days,
and in which no worker sends an outdated value unless another outstanding run has yet to
read or still carries the present one: once no run is outstanding, Channex has received last
what the committed ledger has, for every pushed room type and day. -/
theorem pushed_availability_converges {s₀ s : State Ledger Push ClientCall}
    (hstart : s₀.runs = [])
    (h : State.Reach (pushService base)
      (fun e s => (availabilityTopic base).Announces e s ∧ (availabilityTopic base).Fresh e s)
      s₀ s)
    (hidle : s.Idle) (k : Target base) (hk : (availabilityTopic base).Pushed s k) :
    (availabilityTopic base).held s.received k = some (sellable s.store k.roomType k.day) :=
  converges hstart h hidle hk

/-! One mapped room type with two rooms, of which one is booked and then the other -/

theorem sellable_shift_ne {ledger : Ledger} {rt r : UUID} {nights : List ℤ} {n d : ℤ}
    (h : sellable (ledger.shift rt nights n) r d ≠ sellable ledger r d) :
    r = rt ∧ d ∈ nights := by
  by_contra hnot
  refine h ?_
  unfold sellable
  rw [Ledger.shift, Ledger.adjust_row]
  simp only [hnot, if_false, Option.map_id']

/-- An availability push tells of the days what the ledger had. -/
theorem told_of_availability {property rt : UUID} {dates : List ℤ} {ledger : Ledger}
    {call : ClientCall} {k : Target base} {v : ℤ}
    (hcall : call ∈ runPushChannexAvailability property rt dates (atLedger base ledger))
    (hv : v ∈ toldOf call k) : v = sellable ledger rt k.day := by
  obtain ⟨r, hr, rfl⟩ := List.mem_map.mp hv
  obtain ⟨hr, hkey⟩ := List.mem_filter.mp hr
  simp only [Bool.and_eq_true, decide_eq_true_eq] at hkey
  have hsent : r ∈ availabilitySent
      (runPushChannexAvailability property rt dates (atLedger base ledger)) :=
    List.mem_flatMap.mpr ⟨call, hcall, hr⟩
  unfold runPushChannexAvailability at hsent
  cases hmap : activeRoomMap property rt (atLedger base ledger) with
  | none =>
    rw [hmap] at hsent
    exact absurd hsent List.not_mem_nil
  | some found =>
    rw [hmap] at hsent
    dsimp only at hsent
    rw [availabilitySent_pushAvailability] at hsent
    obtain ⟨d, -, rfl⟩ := List.mem_map.mp hsent
    rw [← hkey.2]
    rfl

namespace Demo

theorem target_mapped (k : Target mapped) : k.property = 1 ∧ k.roomType = 10 := by
  obtain ⟨hlink, -, -⟩ := k.active
  obtain ⟨hroom, htype⟩ := k.room_mem
  have hproperty : k.link.propertyId = k.property := by
    simpa using List.find?_some hlink
  have hmem : k.link ∈ [link] := List.mem_of_find?_eq_some hlink
  have hmap : k.room ∈ [roomMap] := (mem_roomMapsOf.mp hroom).1
  rw [List.mem_singleton] at hmem hmap
  rw [← hproperty, ← htype, hmem, hmap]
  exact ⟨rfl, rfl⟩

def target : Target mapped where
  property := 1
  roomType := 10
  day := 3
  link := link
  room := roomMap
  mapped := uniqueMaps_mapped.activeRoomMap_eq
    (show roomMap ∈ roomMapsOf link mapped by decide)

/-- The ledger after `n` bookings of day 3. -/
def booked (n : ℤ) : Ledger := mapped.ledger.shift 10 [3] n

def book (n : ℤ) : Event LedgerCommit := .perform (.change (booked n) [(1, 10, [3])])

def unpushed : State Ledger Push ClientCall := ⟨booked 0, [], []⟩

/-- The first push reads, and sends only after the second one. -/
def overtaken : State Ledger Push ClientCall :=
  unpushed.run (pushService mapped) [book 1, .read 0, book 2, .read 1, .send 1, .send 0]

theorem announces_book (n : ℤ) (s : State Ledger Push ClientCall) (m : ℤ)
    (hs : s.store = booked m) : (availabilityTopic mapped).Announces (book n) s := by
  intro o store pushes ho hperform k hk
  cases ho
  cases hperform
  change sellable (booked n) k.roomType k.day ≠ sellable s.store k.roomType k.day at hk
  have hday : k.day ∈ [(3 : ℤ)] := by
    by_contra hnot
    refine hk ?_
    have hsame : ∀ n, sellable (booked n) k.roomType k.day =
        sellable mapped.ledger k.roomType k.day := fun n =>
      not_not.mp fun hne => hnot (sellable_shift_ne hne).2
    rw [hs, hsame n, hsame m]
  obtain ⟨hproperty, hroom⟩ := target_mapped k
  refine ⟨.availability 1 10 (sortedDates [3]), ?_, hproperty.symm, hroom.symm,
    mem_sortedDates.mpr hday⟩
  decide

theorem announces_other {e : Event LedgerCommit} (he : ∀ o, e ≠ .perform o)
    (s : State Ledger Push ClientCall) : (availabilityTopic mapped).Announces e s :=
  fun o _ _ heq => absurd heq (he o)

theorem fresh_other {e : Event LedgerCommit} (he : ∀ i, e ≠ .send i)
    (s : State Ledger Push ClientCall) : (availabilityTopic mapped).Fresh e s :=
  fun i _ _ _ heq => absurd heq (he i)

theorem idle_of_all {s : State Ledger Push ClientCall}
    (h : (s.runs.all fun r => r.rest.elim false List.isEmpty) = true) : s.Idle := by
  intro r hr
  have hrest := List.all_eq_true.mp h r hr
  cases hcases : r.rest with
  | none =>
    rw [hcases] at hrest
    cases hrest
  | some rest =>
    rw [hcases] at hrest
    exact congrArg some (List.isEmpty_iff.mp hrest)

/-- The push of the first booking is sent before the second one, and its own push after it. -/
def inOrder : List (Event LedgerCommit) :=
  [book 1, .read 0, .send 0, book 2, .read 1, .send 1]

/-- What has been read of the present ledger is up to date. -/
theorem fresh_send {s : State Ledger Push ClientCall} {i : ℕ} {n : ℤ} (hstore : s.store = booked n)
    (hruns : s.runs[i]? = some ⟨.availability 1 10 (sortedDates [3]),
      some (runPushChannexAvailability 1 10 (sortedDates [3]) (atLedger mapped (booked n)))⟩) :
    (availabilityTopic mapped).Fresh (.send i) s := by
  intro i p m rest he hrun k v hv
  cases he
  rw [hruns] at hrun
  injection hrun with hrun
  injection hrun with _ hcalls
  injection hcalls with hcalls
  have hcall : m ∈ runPushChannexAvailability 1 10 (sortedDates [3])
      (atLedger mapped (booked n)) := by
    rw [hcalls]
    exact List.mem_cons_self ..
  refine .inl ((told_of_availability hcall hv).trans ?_)
  change _ = sellable s.store k.roomType k.day
  rw [hstore, (target_mapped k).2]

end Demo

theorem pushed_availability_converges_demo :
    (availabilityTopic Demo.mapped).held
      (Demo.unpushed.run (pushService Demo.mapped) Demo.inOrder).received Demo.target = some 0 := by
  have hreach : State.Reach (pushService Demo.mapped)
      (fun e s => (availabilityTopic Demo.mapped).Announces e s ∧
        (availabilityTopic Demo.mapped).Fresh e s) Demo.unpushed
      (Demo.unpushed.run (pushService Demo.mapped) Demo.inOrder) :=
    State.reach_run .refl ⟨⟨Demo.announces_book 1 _ 0 rfl,
        Demo.fresh_other (fun _ h => by cases h) _⟩,
      ⟨Demo.announces_other (fun _ h => by cases h) _,
        Demo.fresh_other (fun _ h => by cases h) _⟩,
      ⟨Demo.announces_other (fun _ h => by cases h) _, Demo.fresh_send rfl rfl⟩,
      ⟨Demo.announces_book 2 _ 1 rfl, Demo.fresh_other (fun _ h => by cases h) _⟩,
      ⟨Demo.announces_other (fun _ h => by cases h) _,
        Demo.fresh_other (fun _ h => by cases h) _⟩,
      ⟨Demo.announces_other (fun _ h => by cases h) _, Demo.fresh_send rfl rfl⟩, trivial⟩
  have hidle : (Demo.unpushed.run (pushService Demo.mapped) Demo.inOrder).Idle := by
    have hall : ((Demo.unpushed.run (pushService Demo.mapped) Demo.inOrder).runs.all
        fun r => r.rest.elim false List.isEmpty) = true := by
      decide
    exact Demo.idle_of_all hall
  exact pushed_availability_converges rfl hreach hidle Demo.target
    ⟨⟨.availability 1 10 (sortedDates [3]), _⟩, List.mem_cons_self .., rfl, rfl,
      mem_sortedDates.mpr (List.mem_singleton_self 3)⟩

/-- Two bookings with their pushes: the push of the first one is sent last, and Channex goes
on to sell a room that the ledger does not have. -/
theorem availability_push_overtaken :
    State.Reach (pushService Demo.mapped) (availabilityTopic Demo.mapped).Announces
      Demo.unpushed Demo.overtaken ∧
    Demo.overtaken.Idle ∧ (availabilityTopic Demo.mapped).Pushed Demo.overtaken Demo.target ∧
    (availabilityTopic Demo.mapped).held Demo.overtaken.received Demo.target = some 1 ∧
    sellable Demo.overtaken.store 10 3 = 0 := by
  refine ⟨?_, ?_, ?_, by decide, by decide⟩
  · exact State.reach_run .refl ⟨Demo.announces_book 1 _ 0 rfl,
      Demo.announces_other (fun _ h => by cases h) _, Demo.announces_book 2 _ 1 rfl,
      Demo.announces_other (fun _ h => by cases h) _,
      Demo.announces_other (fun _ h => by cases h) _,
      Demo.announces_other (fun _ h => by cases h) _, trivial⟩
  · have hall : (Demo.overtaken.runs.all fun r => r.rest.elim false List.isEmpty) = true := by
      decide
    exact Demo.idle_of_all hall
  · exact ⟨⟨.availability 1 10 (sortedDates [3]), _⟩, List.mem_cons_self .., rfl, rfl,
      mem_sortedDates.mpr (List.mem_singleton_self 3)⟩

end OpenPms.Ari
