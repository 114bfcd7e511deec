import OpenPms.RemoteRates
import OpenPms.ReservationRooms

/-!
The views of availability: the grid of the desk, the availability-changed webhook and the
push to Channex, beside the claim of a single night. They agree wherever the ledger has a row;
for a day without one the grid counts the rooms that exist, and the others show nothing.
-/
namespace OpenPms

open Transaction Prog

/-! The grid -/

structure AvailabilityCell where
  date : ℤ
  roomTypeId : UUID
  roomTypeName : String
  totalRooms : ℤ
  bookedRooms : ℤ
  blockedRooms : ℤ
  availableRooms : ℤ
  deriving DecidableEq

structure AvailabilityGridResponse where
  propertyId : UUID
  startDate : ℤ
  endDate : ℤ
  cells : List AvailabilityCell

def gridCell (rt : RoomType) (day : ℤ) (db : Db) : AvailabilityCell :=
  let row := (db.ledger.row rt.id day).getD ⟨countRoomsForRoomType rt.id db, 0, 0⟩
  ⟨day, rt.id, rt.name, row.totalRooms, row.bookedRooms, row.blockedRooms,
    row.totalRooms - row.bookedRooms - row.blockedRooms⟩

/-- Room types in the order of their names, deleted ones included. -/
def getAvailabilityGrid (property : UUID) (startDate endDate : ℤ) (roomTypeId : Option UUID)
    (db : Db) : Option AvailabilityGridResponse :=
  if property ∉ db.properties then none
  else
    let roomTypes := (db.roomTypes.rows.filter fun t =>
      t.propertyId = property && roomTypeId.all (· = t.id)).mergeSort fun a b => a.name ≤ b.name
    some ⟨property, startDate, endDate, roomTypes.flatMap fun rt =>
      (iterInclusiveDates startDate endDate).map fun day => gridCell rt day db⟩

/-! The webhook -/

structure AvailabilityChanged where
  roomTypeId : UUID
  date : ℤ
  availableRooms : ℤ
  deriving DecidableEq

namespace WebhookRunner

def availableRooms (rt : UUID) (d : ℤ) (db : Db) : ℤ :=
  match db.ledger.row rt d with
  | none => 0
  | some row => row.totalRooms - row.bookedRooms - row.blockedRooms

/-- The payloads for the dates; each is read when it is sent. -/
def emitAvailabilityForDates (rt : UUID) (dates : List ℤ) (db : Db) : List AvailabilityChanged :=
  (sortedDates dates).map fun d => ⟨rt, d, availableRooms rt d db⟩

end WebhookRunner

/-! What each of them shows of one day -/

section Views
variable {db : Db} {rt : UUID} {d : ℤ}

def gridNumbers (property : UUID) (startDate endDate : ℤ) (filter : Option UUID) (rt : UUID)
    (d : ℤ) (db : Db) : List ℤ :=
  ((getAvailabilityGrid property startDate endDate filter db).elim [] (·.cells)
    |>.filter fun cell => cell.roomTypeId = rt && cell.date = d).map (·.availableRooms)

def webhookNumbers (rt : UUID) (dates : List ℤ) (d : ℤ) (db : Db) : List ℤ :=
  ((WebhookRunner.emitAvailabilityForDates rt dates db).filter fun e => e.date = d).map
    (·.availableRooms)

def pushedNumbers (property rt : UUID) (dates : List ℤ) (d : ℤ) (db : Ari.AriDb) : List ℤ :=
  ((Ari.availabilitySent (Ari.runPushChannexAvailability property rt dates db)).filter
    fun r => r.date = d).map (·.availability)

theorem gridNumbers_eq {property : UUID} {t : RoomType} {startDate endDate : ℤ}
    {filter : Option UUID} (hproperty : property ∈ db.properties)
    (ht : db.roomTypes.find rt = some t) (htype : t.propertyId = property)
    (hd : startDate ≤ d ∧ d ≤ endDate) (hfilter : filter.all (· = rt)) :
    gridNumbers property startDate endDate filter rt d db = [(gridCell t d db).availableRooms] := by
  obtain ⟨hmem, hid⟩ := KeyedTable.Table.find_eq_some.mp ht
  subst hid
  unfold gridNumbers getAvailabilityGrid
  rw [if_neg (not_not.mpr hproperty)]
  simp only [Option.elim_some]
  have hnodup := (((List.Nodup.of_map _ db.roomTypes.nodup).filter
    fun x => x.propertyId = property && filter.all (· = x.id))).perm
      (List.mergeSort_perm _ fun a b => decide (a.name ≤ b.name)).symm
  rw [Ari.filter_flatMap_unique hnodup (x := t)]
  · have hday : d ∈ iterInclusiveDates startDate endDate := mem_daysBetween.mpr (by omega)
    have hkey : ∀ cell ∈ (iterInclusiveDates startDate endDate).map fun day => gridCell t day db,
        (decide (cell.roomTypeId = t.id) && decide (cell.date = d)) = decide (cell.date = d) := by
      intro cell hcell
      obtain ⟨day, -, rfl⟩ := List.mem_map.mp hcell
      simp [gridCell]
    have hdates : (iterInclusiveDates startDate endDate).Nodup := nodup_daysBetween _ _
    rw [List.filter_congr hkey, Ari.filter_map_date (fun _ => rfl) hdates hday]
    rfl
  · rw [List.mem_mergeSort]
    exact List.mem_filter.mpr ⟨hmem, by simp [htype, hfilter]⟩
  · intro t' ht' hne
    rw [List.mem_mergeSort] at ht'
    apply List.filter_eq_nil_iff.mpr
    intro cell hcell
    obtain ⟨day, -, rfl⟩ := List.mem_map.mp hcell
    have hid : t'.id ≠ t.id := fun heq => hne
      (List.inj_on_of_nodup_map db.roomTypes.nodup (List.mem_filter.mp ht').1 hmem heq)
    simp [gridCell, hid]

theorem webhookNumbers_eq {dates : List ℤ} (hmem : d ∈ dates) :
    webhookNumbers rt dates d db = [WebhookRunner.availableRooms rt d db] := by
  unfold webhookNumbers WebhookRunner.emitAvailabilityForDates
  rw [Ari.filter_map_date (fun _ => rfl) (nodup_sortedDates dates) (mem_sortedDates.mpr hmem)]
  rfl

theorem pushedNumbers_eq {property : UUID} {dates : List ℤ} {db : Ari.AriDb}
    (hmap : (Ari.activeRoomMap property rt db).isSome) (hmem : d ∈ dates) :
    pushedNumbers property rt dates d db = [match db.ledger.row rt d with
      | none => 0
      | some c => max 0 (c.totalRooms - c.bookedRooms - c.blockedRooms)] := by
  obtain ⟨⟨link, rm⟩, hfound⟩ := Option.isSome_iff_exists.mp hmap
  unfold pushedNumbers Ari.runPushChannexAvailability
  rw [hfound]
  simp only [Ari.availabilitySent_pushAvailability]
  unfold Ari.incrementalAvailability
  rw [Ari.filter_map_date (fun _ => rfl) (nodup_sortedDates dates) (mem_sortedDates.mpr hmem)]
  rfl

/-- The claim of one night, run alone. -/
theorem exec_claim_single (rt : UUID) (d : ℤ) (db : Db) :
    ((claimAvailabilityForNewBooking rt [d] 1).exec db).1 = match db.ledger.row rt d with
      | none => .error notSeeded
      | some c => if 1 ≤ c.available then .ok () else .error insufficient := by
  have hrows : selectLedger rt [d] db = ((db.ledger.row rt d).map fun c =>
      (⟨rt, d, c⟩ : AvailabilityLedger)).toList := by
    have hsorted : sortedDates [d] = [d] := rfl
    unfold selectLedger
    rw [hsorted]
    cases hrow : db.ledger.row rt d with
    | none => simp [hrow]
    | some c => simp [hrow]
  have hone : [d].dedup.length = 1 := rfl
  unfold claimAvailabilityForNewBooking
  simp only [List.cons_ne_nil, if_false, exec_bind, exec_raiseIf, exec_select, hone,
    List.length_singleton, ne_eq, not_true_eq_false, exec_selectLedgerForUpdate, hrows]
  cases hrow : db.ledger.row rt d with
  | none => rfl
  | some c =>
    simp only [Option.map_some, Option.toList_some, List.length_singleton, not_true_eq_false,
      if_false, exec_incrementBookedRooms]
    by_cases hpos : 1 ≤ c.available
    · have hroom : c.bookedRooms + c.blockedRooms + 1 ≤ c.totalRooms := by
        unfold Counts.available at hpos
        omega
      have hfree : (selectLedger rt [d] db).filter (fun row => decide
          (row.counts.bookedRooms + row.counts.blockedRooms + 1 ≤ row.counts.totalRooms)) =
          [⟨rt, d, c⟩] := by
        rw [hrows, hrow]
        exact List.filter_cons_of_pos (decide_eq_true hroom)
      rw [hfree]
      simp [hpos]
    · have hroom : ¬ c.bookedRooms + c.blockedRooms + 1 ≤ c.totalRooms := by
        unfold Counts.available at hpos
        omega
      have hfull : (selectLedger rt [d] db).filter (fun row => decide
          (row.counts.bookedRooms + row.counts.blockedRooms + 1 ≤ row.counts.totalRooms)) =
          [] := by
        rw [hrows, hrow]
        exact List.filter_cons_of_neg (fun hle => hroom (of_decide_eq_true hle))
      rw [hfull]
      simp [hpos]

theorem claim_single_iff {c : Counts} (hc : db.ledger.row rt d = some c) :
    ((claimAvailabilityForNewBooking rt [d] 1).exec db).1 = .ok () ↔ 1 ≤ c.available := by
  rw [exec_claim_single, hc]
  simp only
  split
  · next hpos => exact iff_of_true rfl hpos
  · next hpos => exact iff_of_false nofun hpos

end Views

/-! A mapped property with two rooms, whose ledger has day 3 only -/

end OpenPms
