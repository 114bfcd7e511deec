import OpenPms.MigrationPipeline
import OpenPms.Lib.Sweep

/-!
The rooms that the stays of a room type need at once. The pass that `sweep` makes over the
sorted arrivals and departures finds the largest number of stays on one night.
-/
namespace OpenPms.Migration

/-- The stays of a room type on a night. -/
def staysOn (bookings : List BookingRecord) (name : String) (d : ℤ) : ℕ :=
  bookings.countP fun b =>
    b.status ≠ .cancelled ∧ b.roomTypeName = name ∧ b.checkIn ≤ d ∧ d < b.checkOut

/-! Groups -/

theorem nodup_eraseDups {α : Type} [DecidableEq α] (items : List α) : items.eraseDups.Nodup := by
  induction hn : items.length using Nat.strong_induction_on generalizing items with
  | _ n ih =>
    cases items with
    | nil => simp
    | cons a rest =>
      have hshorter : (rest.filter fun b => !b == a).length < n := by
        have hle := List.length_filter_le (fun b => !b == a) rest
        simp only [List.length_cons] at hn
        omega
      have hrest := ih _ hshorter _ rfl
      rw [List.eraseDups_cons, List.nodup_cons]
      refine ⟨fun hmem => ?_, hrest⟩
      have hne := (List.mem_filter.mp (List.mem_eraseDups.mp hmem)).2
      simp at hne

section GroupBy
variable {α : Type} {key : α → String} {items : List α}

theorem keys_groupBy : (groupBy key items).map (·.1) = (items.map key).eraseDups := by
  rw [groupBy, List.map_map]
  exact List.map_id _

theorem mem_groupBy {name : String} {group : List α} :
    (name, group) ∈ groupBy key items ↔
      (∃ a ∈ items, key a = name) ∧ group = items.filter fun a => key a = name := by
  rw [groupBy, List.mem_map]
  constructor
  · intro ⟨k, hk, heq⟩
    obtain ⟨rfl, rfl⟩ := Prod.mk.inj heq
    exact ⟨List.mem_map.mp (List.mem_eraseDups.mp hk), rfl⟩
  · intro ⟨hname, hgroup⟩
    exact ⟨name, List.mem_eraseDups.mpr (List.mem_map.mpr hname), by rw [hgroup]⟩

end GroupBy

/-! The most stays at once -/

theorem covering_stays (bookings : List BookingRecord) (name : String) (d : ℤ) :
    Sweep.covering (((bookings.filter fun b => b.status ≠ .cancelled).filter
      fun b => b.roomTypeName = name).map fun b => (b.checkIn, b.checkOut)) d =
      staysOn bookings name d := by
  rw [Sweep.covering, List.countP_map, List.countP_filter, List.countP_filter, staysOn]
  refine List.countP_congr fun b _ => ?_
  simp only [Function.comp_apply, Bool.and_eq_true, decide_eq_true_eq]
  tauto

theorem sweep_isGreatest {intervals : List (ℤ × ℤ)} (h : ∀ i ∈ intervals, i.1 < i.2)
    (hne : intervals ≠ []) :
    IsGreatest (Set.range (Sweep.covering intervals))
      (max 1 ((stayEvents intervals).foldl sweep (0, 0)).2).toNat := by
  have hsorted : (stayEvents intervals).Pairwise Sweep.Before :=
    List.pairwise_insertionSort Sweep.Before _
  have hperm : (stayEvents intervals).Perm (Sweep.events intervals) :=
    List.perm_insertionSort _ _
  obtain ⟨⟨d₀, hd₀⟩, hmost⟩ := Sweep.peak_isGreatest h hne hsorted hperm
  obtain ⟨i, rest, hcons⟩ := List.exists_cons_of_ne_nil hne
  have harrival : 1 ≤ Sweep.covering intervals i.1 := by
    refine List.countP_pos_iff.mpr ⟨i, by simp [hcons], ?_⟩
    have hi := h i (by simp [hcons])
    simpa using hi
  have hone : 1 ≤ ((stayEvents intervals).foldl sweep (0, 0)).2 := by
    have hle : (Sweep.covering intervals i.1 : ℤ) ≤ ((stayEvents intervals).foldl sweep (0, 0)).2 :=
      hmost ⟨i.1, rfl⟩
    omega
  have hd₀' : (Sweep.covering intervals d₀ : ℤ) = ((stayEvents intervals).foldl sweep (0, 0)).2 :=
    hd₀
  rw [max_eq_right hone]
  refine ⟨⟨d₀, by omega⟩, ?_⟩
  rintro n ⟨d, rfl⟩
  have hle : (Sweep.covering intervals d : ℤ) ≤ ((stayEvents intervals).foldl sweep (0, 0)).2 :=
    hmost ⟨d, rfl⟩
  omega

section Overlaps
variable {bookings : List BookingRecord}

theorem keys_maxParallelRoomsByType :
    (maxParallelRoomsByType bookings).map (·.1) =
      ((bookings.filter fun b => b.status ≠ .cancelled).map (·.roomTypeName)).eraseDups := by
  rw [maxParallelRoomsByType, List.map_map]
  exact keys_groupBy

theorem mem_maxParallelRoomsByType (h : ∀ b ∈ bookings, b.checkIn < b.checkOut) {name : String}
    {n : ℕ} :
    (name, n) ∈ maxParallelRoomsByType bookings ↔
      (∃ b ∈ bookings, b.status ≠ .cancelled ∧ b.roomTypeName = name) ∧
        IsGreatest (Set.range (staysOn bookings name)) n := by
  let live := bookings.filter fun b => b.status ≠ .cancelled
  let intervals := (live.filter fun b => b.roomTypeName = name).map fun b => (b.checkIn, b.checkOut)
  have hlive : (∃ b ∈ live, b.roomTypeName = name) ↔
      ∃ b ∈ bookings, b.status ≠ .cancelled ∧ b.roomTypeName = name := by
    simp only [live, List.mem_filter, decide_eq_true_eq, and_assoc]
  have hintervals : ∀ i ∈ intervals, i.1 < i.2 := by
    intro i hi
    obtain ⟨b, hb, rfl⟩ := List.mem_map.mp hi
    exact h b (List.mem_of_mem_filter (List.mem_of_mem_filter hb))
  have hrange : Set.range (Sweep.covering intervals) = Set.range (staysOn bookings name) :=
    congrArg Set.range (funext fun d => covering_stays bookings name d)
  have hmost (hname : ∃ b ∈ live, b.roomTypeName = name) :
      IsGreatest (Set.range (staysOn bookings name))
        (max 1 ((stayEvents intervals).foldl sweep (0, 0)).2).toNat := by
    obtain ⟨b, hb, hbname⟩ := hname
    have hne : intervals ≠ [] := by
      refine List.ne_nil_of_mem (List.mem_map_of_mem (List.mem_filter.mpr ⟨hb, ?_⟩))
      simpa using hbname
    rw [← hrange]
    exact sweep_isGreatest hintervals hne
  rw [maxParallelRoomsByType, List.mem_map, ← hlive]
  constructor
  · intro ⟨⟨k, group⟩, hmem, heq⟩
    obtain ⟨rfl, hn⟩ := Prod.mk.inj heq
    obtain ⟨hname, rfl⟩ := mem_groupBy.mp hmem
    refine ⟨hname, ?_⟩
    rw [← hn]
    exact hmost hname
  · intro ⟨hname, hn⟩
    refine ⟨(name, live.filter fun b => b.roomTypeName = name), mem_groupBy.mpr ⟨hname, rfl⟩, ?_⟩
    exact congrArg (Prod.mk name) ((hmost hname).unique hn)

/-- The names are those of the bookings that are not cancelled, each once and with the most
of its stays on one night, in whatever order the bookings come. -/
theorem maxParallelRoomsByType_most (h : ∀ b ∈ bookings, b.checkIn < b.checkOut) :
    ((maxParallelRoomsByType bookings).map (·.1)).Nodup ∧
    (∀ name, name ∈ (maxParallelRoomsByType bookings).map (·.1) ↔
      ∃ b ∈ bookings, b.status ≠ .cancelled ∧ b.roomTypeName = name) ∧
    (∀ name n, (name, n) ∈ maxParallelRoomsByType bookings →
      1 ≤ n ∧ IsGreatest (Set.range (staysOn bookings name)) n) ∧
    ∀ bookings' : List BookingRecord, bookings'.Perm bookings →
      (maxParallelRoomsByType bookings').Perm (maxParallelRoomsByType bookings) := by
  have hkeys (items : List BookingRecord) : ((maxParallelRoomsByType items).map (·.1)).Nodup := by
    rw [keys_maxParallelRoomsByType]
    exact nodup_eraseDups _
  refine ⟨hkeys bookings, fun name => ?_, fun name n hmem => ?_, fun bookings' hperm => ?_⟩
  · rw [keys_maxParallelRoomsByType, List.mem_eraseDups, List.mem_map]
    simp only [List.mem_filter, decide_eq_true_eq, and_assoc]
  · obtain ⟨⟨b, hb, hlive, hname⟩, hmost⟩ := (mem_maxParallelRoomsByType h).mp hmem
    refine ⟨?_, hmost⟩
    have harrival : 0 < staysOn bookings name b.checkIn :=
      List.countP_pos_iff.mpr ⟨b, hb, by simpa using ⟨hlive, hname, h b hb⟩⟩
    exact harrival.trans_le (hmost.2 ⟨b.checkIn, rfl⟩)
  · have h' : ∀ b ∈ bookings', b.checkIn < b.checkOut := fun b hb => h b (hperm.mem_iff.mp hb)
    refine (List.perm_ext_iff_of_nodup (hkeys bookings').of_map (hkeys bookings).of_map).mpr ?_
    rintro ⟨name, n⟩
    have hstays : staysOn bookings' name = staysOn bookings name :=
      funext fun d => hperm.countP_eq _
    rw [mem_maxParallelRoomsByType h', mem_maxParallelRoomsByType h, hstays]
    simp only [hperm.mem_iff]

end Overlaps

namespace Demo

def overlapGuest : BookingGuestSnapshot := ⟨"Ana", "Reis", "ana@x.org", "+1"⟩

/-- A cabin is left on the day another arrives, and a third stay lies across both. -/
def overlapStays : List BookingRecord :=
  [⟨"1", 0, 3, "Cabin", "Standard", overlapGuest, .confirmed, "csv"⟩,
    ⟨"2", 3, 5, "Cabin", "Standard", overlapGuest, .checkedIn, "csv"⟩,
    ⟨"3", 2, 4, "Cabin", "Standard", overlapGuest, .confirmed, "csv"⟩,
    ⟨"4", 2, 4, "Suite", "Standard", overlapGuest, .cancelled, "csv"⟩]

theorem maxParallelRoomsByType_most_stays :
    maxParallelRoomsByType overlapStays = [("Cabin", 2)] ∧
      IsGreatest (Set.range (staysOn overlapStays "Cabin")) 2 := by
  have hrooms : maxParallelRoomsByType overlapStays = [("Cabin", 2)] := by decide
  have hmem : ("Cabin", 2) ∈ maxParallelRoomsByType overlapStays := by simp [hrooms]
  have hdates : ∀ b ∈ overlapStays, b.checkIn < b.checkOut := by decide
  exact ⟨hrooms, ((maxParallelRoomsByType_most hdates).2.2.1 "Cabin" 2 hmem).2⟩

end Demo

end OpenPms.Migration
