import Mathlib.Algebra.Order.Ring.Int
import Mathlib.Tactic.Ring
import OpenPms.DateChange
import OpenPms.MigrationPipeline

/-!
The pieces in which a range of days is sent. Days are counted from the first one of `date`,
which is day 1, so that adding days fails beyond its last day. The pieces tile the range
unless the end of one, or the day after the range, lies there.
-/
namespace OpenPms.Migration

/-- `d + timedelta(days=n)`; an `OverflowError` is `none`. -/
def addDays (d n : ℤ) : Option ℤ := if 1 ≤ d + n ∧ d + n ≤ dateMax then some (d + n) else none

/-- How a generator ends for the loop that reads it. -/
inductive Exhaustion where
  | returned
  | overflow
  | outOfFuel
  deriving DecidableEq

/-- What is yielded from a day on, and how it ends. -/
def chunksFrom (maxDays stop : ℤ) : ℕ → ℤ → List (ℤ × ℤ) × Exhaustion
  | 0, _ => ([], .outOfFuel)
  | fuel + 1, cur =>
    if stop < cur then ([], .returned)
    else match addDays cur (maxDays - 1) with
      | none => ([], .overflow)
      | some last =>
        let chunkEnd := min last stop
        match addDays chunkEnd 1 with
        | none => ([(cur, chunkEnd)], .overflow)
        | some next =>
          let (rest, ending) := chunksFrom maxDays stop fuel next
          ((cur, chunkEnd) :: rest, ending)

/-- `_iter_date_chunks`, with a round for each day and one for the last test. -/
def iterDateChunksOf (maxDays start stop : ℤ) : List (ℤ × ℤ) × Exhaustion :=
  chunksFrom maxDays stop (stop - start + 2).toNat start

/-- Inclusive intervals of at most `maxDays` days, one after the other from `start` to
`stop`. -/
structure Tiling (maxDays start stop : ℤ) (chunks : List (ℤ × ℤ)) : Prop where
  size : ∀ c ∈ chunks, c.1 ≤ c.2 ∧ c.2 - c.1 + 1 ≤ maxDays
  first : ∀ c ∈ chunks.head?, c.1 = start
  consecutive : chunks.IsChain fun a b => b.1 = a.2 + 1
  covers : ∀ d, chunks.countP (fun c => c.1 ≤ d ∧ d ≤ c.2) = if start ≤ d ∧ d ≤ stop then 1 else 0

section Tiles
variable {maxDays start stop last : ℤ} {rest : List (ℤ × ℤ)}

theorem Tiling.nil (h : stop < start) : Tiling maxDays start stop [] where
  size := by simp
  first := by simp
  consecutive := .nil
  covers d := by
    rw [if_neg (by omega)]
    rfl

theorem Tiling.cons (hle : start ≤ last) (hstop : last ≤ stop) (hsize : last - start + 1 ≤ maxDays)
    (h : Tiling maxDays (last + 1) stop rest) :
    Tiling maxDays start stop ((start, last) :: rest) where
  size := List.forall_mem_cons.mpr ⟨⟨hle, hsize⟩, h.size⟩
  first := by simp
  consecutive := by
    cases rest with
    | nil => exact .singleton _
    | cons c more => exact .cons_cons (h.first c rfl) h.consecutive
  covers d := by
    rw [List.countP_cons, h.covers d]
    simp only [decide_eq_true_eq]
    split <;> split <;> split <;> omega

end Tiles

/-! Room before the last day -/

/-- The first day of the last piece. -/
def lastChunkStart (maxDays start stop : ℤ) : ℤ := start + (stop - start) / maxDays * maxDays

/-- The whole of the last piece and the day after the range are dates. -/
def HasRoom (maxDays start stop : ℤ) : Prop :=
  stop < dateMax ∧ lastChunkStart maxDays start stop + (maxDays - 1) ≤ dateMax

instance (maxDays start stop : ℤ) : Decidable (HasRoom maxDays start stop) :=
  inferInstanceAs (Decidable (_ ∧ _))

section Room
variable {maxDays start stop cur : ℤ}

theorem lastChunkStart_next (hdays : 1 ≤ maxDays) :
    lastChunkStart maxDays (cur + maxDays) stop = lastChunkStart maxDays cur stop := by
  have hsplit : stop - cur = stop - (cur + maxDays) + 1 * maxDays := by ring
  have hquotient : (stop - cur) / maxDays = (stop - (cur + maxDays)) / maxDays + 1 := by
    rw [hsplit, Int.add_mul_ediv_right _ _ (by omega)]
  rw [lastChunkStart, lastChunkStart, hquotient]
  ring

theorem lastChunkStart_of_lt (maxDays : ℤ) (hle : cur ≤ stop) (hlt : stop < cur + maxDays) :
    lastChunkStart maxDays cur stop = cur := by
  have hquotient : (stop - cur) / maxDays = 0 := Int.ediv_eq_zero_of_lt (by omega) (by omega)
  rw [lastChunkStart, hquotient]
  ring

theorem le_lastChunkStart (hdays : 1 ≤ maxDays) (hle : cur ≤ stop) :
    cur ≤ lastChunkStart maxDays cur stop := by
  have hnonneg : 0 ≤ (stop - cur) / maxDays * maxDays :=
    mul_nonneg (Int.ediv_nonneg (by omega) (by omega)) (by omega)
  rw [lastChunkStart]
  omega

theorem addDays_of_le {d n : ℤ} (hd : 1 ≤ d) (hn : 0 ≤ n) (hle : d + n ≤ dateMax) :
    addDays d n = some (d + n) := if_pos ⟨by omega, hle⟩

theorem addDays_of_gt {d n : ℤ} (h : dateMax < d + n) : addDays d n = none :=
  if_neg fun hle => absurd hle.2 (by omega)

/-- One piece: it tiles what it takes from the range, and the rest is tiled by the rest. -/
theorem chunksFrom_spec (hdays : 1 ≤ maxDays) (hmax : stop ≤ dateMax) (fuel : ℕ) (hcur : 1 ≤ cur)
    (hle : cur ≤ stop) (hfuel : stop - cur + 2 ≤ fuel) :
    ((chunksFrom maxDays stop fuel cur).2 = .returned ↔ HasRoom maxDays cur stop) ∧
      (chunksFrom maxDays stop fuel cur).2 ≠ .outOfFuel ∧
      (HasRoom maxDays cur stop →
        Tiling maxDays cur stop (chunksFrom maxDays stop fuel cur).1) := by
  induction fuel generalizing cur with
  | zero => omega
  | succ fuel ih =>
    have hlast := le_lastChunkStart hdays hle
    rw [chunksFrom, if_neg (by omega)]
    by_cases hend : cur + (maxDays - 1) ≤ dateMax
    · rw [addDays_of_le hcur (by omega) hend]
      simp only
      by_cases hmore : cur + (maxDays - 1) < stop
      · rw [min_eq_left hmore.le, addDays_of_le (by omega) (by omega) (by omega)]
        have hnext : cur + (maxDays - 1) + 1 = cur + maxDays := by ring
        have hroom : HasRoom maxDays (cur + maxDays) stop ↔ HasRoom maxDays cur stop := by
          rw [HasRoom, HasRoom, lastChunkStart_next hdays]
        obtain ⟨hreturned, hfueled, htiled⟩ := @ih (cur + maxDays) (by omega) (by omega)
          (by omega)
        rw [hnext]
        refine ⟨hreturned.trans hroom, hfueled, fun h => ?_⟩
        have htail := htiled (hroom.mpr h)
        rw [← hnext] at htail ⊢
        exact htail.cons (by omega) (by omega) (by omega)
      · have hstart := lastChunkStart_of_lt maxDays hle (by omega)
        rw [min_eq_right (by omega)]
        by_cases hday : stop < dateMax
        · rw [addDays_of_le (by omega) (by omega) (by omega)]
          obtain ⟨more, hmoreFuel⟩ : ∃ more, fuel = more + 1 := ⟨fuel - 1, by omega⟩
          have hdone : chunksFrom maxDays stop fuel (stop + 1) = ([], .returned) := by
            rw [hmoreFuel, chunksFrom, if_pos (by omega)]
          simp only [hdone]
          refine ⟨⟨fun _ => ⟨hday, by omega⟩, fun _ => trivial⟩, by simp, fun _ => ?_⟩
          exact (Tiling.nil (by omega)).cons hle (le_refl stop) (by omega)
        · rw [addDays_of_gt (by omega)]
          exact ⟨⟨fun h => by simp at h, fun h => absurd h.1 hday⟩, by simp,
            fun h => absurd h.1 hday⟩
    · have hnone : ¬ HasRoom maxDays cur stop := fun h => by
        have hle := h.2
        omega
      rw [addDays_of_gt (by omega)]
      exact ⟨⟨fun h => by simp at h, fun h => absurd h hnone⟩, by simp, fun h => absurd h hnone⟩

end Room

/-! The stages -/

/-- The stages take pieces of 90 days. -/
theorem chunksFrom_eq_dateChunks {stop cur : ℤ} (hcur : 1 ≤ cur)
    (hroom : cur ≤ stop → HasRoom 90 cur stop) (fuel : ℕ) (hfuel : stop - cur + 1 ≤ fuel) :
    (chunksFrom 90 stop (fuel + 1) cur).1 = dateChunks fuel cur stop := by
  induction fuel generalizing cur with
  | zero =>
    rw [chunksFrom, if_pos (by omega)]
    rfl
  | succ fuel ih =>
    rw [chunksFrom, dateChunks]
    by_cases hdone : stop < cur
    · rw [if_pos hdone, if_pos hdone]
    · obtain ⟨hday, hlast⟩ := hroom (by omega)
      have hstart : cur ≤ lastChunkStart 90 cur stop :=
        le_lastChunkStart (by omega) (not_lt.mp hdone)
      rw [if_neg hdone, if_neg hdone, addDays_of_le hcur (by omega) (by omega)]
      have hnext : min (cur + (90 - 1)) stop = min (cur + 89) stop := rfl
      simp only [hnext]
      rw [addDays_of_le (by omega) (by omega) (by omega)]
      refine congrArg (List.cons _) (ih (by omega) (fun hle => ?_) (by omega))
      have hmin : min (cur + 89) stop + 1 = cur + 90 := by omega
      rw [hmin, HasRoom, lastChunkStart_next (by omega)]
      exact ⟨hday, hlast⟩

theorem stayWindow_bounds {bookings : List BookingRecord} {first last : ℤ}
    (h : stayWindow bookings = some (first, last)) :
    first ≤ last ∧ ∀ b ∈ bookings, first ≤ b.checkIn ∧ b.checkOut - 1 ≤ last := by
  cases bookings with
  | nil => simp [stayWindow] at h
  | cons b rest =>
    obtain ⟨hfirst, hlast⟩ := Prod.mk.inj (Option.some.inj h)
    have hmin := foldl_min_le (rest.map (·.checkIn)) b.checkIn
    have hmax := le_foldl_max (rest.map fun r => r.checkOut - 1) (b.checkOut - 1)
    rw [List.foldl_map] at hmin hmax
    refine ⟨by omega, fun r hr => ?_⟩
    rcases List.mem_cons.mp hr with rfl | hr
    · omega
    · have hle := hmin.2 r.checkIn (List.mem_map_of_mem hr)
      have hge := hmax.2 (r.checkOut - 1) (List.mem_map_of_mem hr)
      omega

/-- With room before the last day of `date` the pieces tile the range, and without it the
loop ends with an overflow. With room around the stays of a source, each of their nights is in one
piece of the stages. -/
theorem iterDateChunks_tiling {maxDays start stop : ℤ} (hdays : 1 ≤ maxDays) (hmin : 1 ≤ start)
    (hle : start ≤ stop) (hmax : stop ≤ dateMax) :
    (HasRoom maxDays start stop → (iterDateChunksOf maxDays start stop).2 = .returned ∧
      Tiling maxDays start stop (iterDateChunksOf maxDays start stop).1) ∧
    (¬ HasRoom maxDays start stop → (iterDateChunksOf maxDays start stop).2 = .overflow) ∧
    ∀ bookings, stayWindow bookings = some (start, stop) → HasRoom 90 start stop →
      (iterDateChunksOf 90 start stop).1 = iterDateChunks start stop ∧
      ∀ b ∈ bookings, ∀ d, b.checkIn ≤ d → d < b.checkOut →
        (iterDateChunks start stop).countP (fun c => c.1 ≤ d ∧ d ≤ c.2) = 1 := by
  obtain ⟨hreturned, hfueled, htiled⟩ := chunksFrom_spec hdays hmax (stop - start + 2).toNat hmin
    hle (by omega)
  refine ⟨fun hroom => ⟨hreturned.mpr hroom, htiled hroom⟩, fun hroom => ?_,
    fun bookings hwindow hroom => ?_⟩
  · have hnot : (iterDateChunksOf maxDays start stop).2 ≠ .returned :=
      fun h => hroom (hreturned.mp h)
    cases hending : (iterDateChunksOf maxDays start stop).2 with
    | returned => exact absurd hending hnot
    | overflow => rfl
    | outOfFuel => exact absurd hending hfueled
  · have hfuel : (stop - start + 2).toNat = (stop - start + 1).toNat + 1 := by omega
    have hsame : (iterDateChunksOf 90 start stop).1 = iterDateChunks start stop := by
      rw [iterDateChunksOf, hfuel]
      exact chunksFrom_eq_dateChunks hmin (fun _ => hroom) _ (by omega)
    refine ⟨hsame, fun b hb d hin hout => ?_⟩
    obtain ⟨-, -, htiles⟩ := chunksFrom_spec (by omega : (1 : ℤ) ≤ 90) hmax
      (stop - start + 2).toNat hmin hle (by omega)
    have hbounds := (stayWindow_bounds hwindow).2 b hb
    have hcovers := (htiles hroom).covers d
    rw [if_pos ⟨by omega, by omega⟩] at hcovers
    rw [← hsame]
    exact hcovers

/-- On the last day of `date` nothing is yielded. -/
theorem iterDateChunks_lastDay :
    ¬ ∀ maxDays start stop : ℤ, 1 ≤ maxDays → 1 ≤ start → start ≤ stop → stop ≤ dateMax →
      (iterDateChunksOf maxDays start stop).2 = .returned ∧
      Tiling maxDays start stop (iterDateChunksOf maxDays start stop).1 := by
  intro h
  have hreturned := (h 90 dateMax dateMax (by decide) (by decide) (le_refl _) (le_refl _)).1
  exact absurd hreturned (by decide)

theorem iterDateChunks_tiling_year :
    (iterDateChunksOf 90 738000 738199).1 = [(738000, 738089), (738090, 738179), (738180, 738199)] ∧
      Tiling 90 738000 738199 (iterDateChunksOf 90 738000 738199).1 :=
  ⟨by decide, ((iterDateChunks_tiling (by decide) (by decide) (by decide) (by decide)).1
    (by decide)).2⟩

end OpenPms.Migration
