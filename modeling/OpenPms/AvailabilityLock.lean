import OpenPms.Database
import Mathlib.Data.Finset.Dedup

/-!
Pessimistic locking on availability_ledger rows. A lock-and-validate statement
selects the rows of the nights that exist, locks them one after another in date
order and reads their current versions. Writes set the column to a value computed
from the locked version, which is what the ORM's flush and the conditional UPDATE do.
`Ledger.shift` is the effect of each of these on its own.
-/
namespace OpenPms

open Transaction Prog

/-- A row as the ORM returns it: the key with its columns. -/
structure AvailabilityLedger where
  roomTypeId : UUID
  date : ℤ
  counts : Counts
  deriving DecidableEq

def Counts.available (c : Counts) : ℤ := c.totalRooms - c.bookedRooms - c.blockedRooms

def availableRooms (row : AvailabilityLedger) : ℤ := row.counts.available

def selectLedger (rt : UUID) (nights : List ℤ) (db : Db) : List AvailabilityLedger :=
  (sortedDates nights).filterMap fun d => (db.ledger.row rt d).map fun c => ⟨rt, d, c⟩

/-- SELECT ... FOR UPDATE of the rows of a room type on the given nights. -/
def selectLedgerForUpdate (rt : UUID) (nights : List ℤ) : Tx (List AvailabilityLedger) := do
  let found ← select (selectLedger rt nights)
  forEach (found.map (·.date)) fun d => acquire (.ledger rt d)
  select (selectLedger rt (found.map (·.date)))

def notSeeded : Err := .ledgerNotSeeded "availability ledger not seeded for one or more dates"

def insufficient : Err := .insufficientInventory "insufficient inventory for one or more dates"

def lockAndValidateAvailability (rt : UUID) (nights : List ℤ) (roomsToBook : ℤ) :
    Tx (List AvailabilityLedger) :=
  if nights = [] then pure []
  else do
    let rows ← selectLedgerForUpdate rt nights
    raiseIf ((rows.map (·.date)).toFinset ≠ nights.toFinset) notSeeded
    raiseIf (∃ row ∈ rows, availableRooms row < roomsToBook) insufficient
    pure rows

def incrementBookedRooms (rows : List AvailabilityLedger) (delta : ℤ) : Tx Unit :=
  forEach rows fun row =>
    modify fun db => db.setBooked row.roomTypeId row.date (row.counts.bookedRooms + delta)

/-- The row is written before its sign is checked. -/
def decrementBookedRooms (rows : List AvailabilityLedger) (delta : ℤ) : Tx Unit :=
  forEach rows fun row => do
    modify fun db => db.setBooked row.roomTypeId row.date (row.counts.bookedRooms - delta)
    raiseIf (row.counts.bookedRooms - delta < 0)
      (.insufficientInventory "booked_rooms would go negative for a ledger date")

/-- The statement locks the rows and raises the counter of those that have room. -/
def claimAvailabilityForNewBooking (rt : UUID) (nights : List ℤ) (roomsToBook : ℤ) : Tx Unit :=
  if nights = [] then pure ()
  else do
    raiseIf (nights.dedup.length ≠ nights.length) notSeeded
    let seeded ← select fun db => (selectLedger rt nights db).length
    raiseIf (seeded ≠ nights.dedup.length) notSeeded
    let rows ← selectLedgerForUpdate rt nights
    let updated := rows.filter fun row =>
      row.counts.bookedRooms + row.counts.blockedRooms + roomsToBook ≤ row.counts.totalRooms
    incrementBookedRooms updated roomsToBook
    raiseIf (updated.length ≠ nights.dedup.length) insufficient

/-! What these do when they run alone -/

/-- Add `delta` to the booked counter of the rows of `rt` on `nights`. -/
def Ledger.shift (l : Ledger) (rt : UUID) (nights : List ℤ) (delta : ℤ) : Ledger :=
  l.adjust fun r d c =>
    if r = rt ∧ d ∈ nights then { c with bookedRooms := c.bookedRooms + delta } else c

theorem Ledger.shift_nil (l : Ledger) (rt : UUID) (delta : ℤ) : l.shift rt [] delta = l := by
  apply Ledger.ext_row
  intro r d
  simp [Ledger.shift]

theorem Ledger.shift_congr {l : Ledger} {rt : UUID} {nights nights' : List ℤ} {delta : ℤ}
    (h : ∀ d, d ∈ nights ↔ d ∈ nights') : l.shift rt nights delta = l.shift rt nights' delta := by
  apply Ledger.ext_row
  intro r d
  simp [Ledger.shift, h]

theorem mem_selectLedger {rt : UUID} {nights : List ℤ} {db : Db} {row : AvailabilityLedger} :
    row ∈ selectLedger rt nights db ↔ row.roomTypeId = rt ∧ row.date ∈ nights ∧
      db.ledger.row rt row.date = some row.counts := by
  simp only [selectLedger, List.mem_filterMap, Option.map_eq_some_iff, mem_sortedDates]
  constructor
  · rintro ⟨d, hd, c, hc, rfl⟩
    exact ⟨rfl, hd, hc⟩
  · rintro ⟨rfl, hd, hc⟩
    exact ⟨row.date, hd, row.counts, hc, rfl⟩

theorem map_date_selectLedger (rt : UUID) (nights : List ℤ) (db : Db) :
    (selectLedger rt nights db).map (·.date) =
      (sortedDates nights).filter fun d => (db.ledger.row rt d).isSome := by
  unfold selectLedger
  induction sortedDates nights with
  | nil => rfl
  | cons d rest ih =>
    cases h : db.ledger.row rt d with
    | none => simpa [h] using ih
    | some c => simpa [h] using ih

theorem nodup_map_date_selectLedger (rt : UUID) (nights : List ℤ) (db : Db) :
    ((selectLedger rt nights db).map (·.date)).Nodup := by
  rw [map_date_selectLedger]
  exact (nodup_sortedDates nights).filter _

/-- Selecting again on the days found gives the same rows. -/
theorem selectLedger_found (rt : UUID) (nights : List ℤ) (db : Db) :
    selectLedger rt ((selectLedger rt nights db).map (·.date)) db = selectLedger rt nights db := by
  have hsort : sortedDates ((selectLedger rt nights db).map (·.date)) =
      (sortedDates nights).filter fun d => (db.ledger.row rt d).isSome := by
    rw [map_date_selectLedger]
    have hnd := (nodup_sortedDates nights).filter fun d => (db.ledger.row rt d).isSome
    have hsorted := (List.pairwise_insertionSort (· ≤ ·) nights.dedup).filter
      fun d => (db.ledger.row rt d).isSome
    unfold sortedDates at hnd ⊢
    rw [hnd.dedup]
    exact hsorted.insertionSort_eq
  unfold selectLedger at hsort ⊢
  rw [hsort, List.filterMap_filter]
  apply List.filterMap_congr
  intro d _
  cases h : db.ledger.row rt d <;> simp

theorem exec_acquireAll (ks : List ℤ) (rt : UUID) (db : Db) :
    (forEach ks fun d => (acquire (.ledger rt d) : Tx Unit)).exec db = (.ok (), db) := by
  induction ks with
  | nil => rfl
  | cons d rest ih =>
    rw [forEach, exec_bind]
    exact ih

@[simp] theorem exec_selectLedgerForUpdate (rt : UUID) (nights : List ℤ) (db : Db) :
    (selectLedgerForUpdate rt nights).exec db = (.ok (selectLedger rt nights db), db) := by
  simp [selectLedgerForUpdate, exec_bind, exec_acquireAll, selectLedger_found]

/-- A validated statement returns the rows as they are, one for each night. -/
theorem exec_lockAndValidate_ok {rt : UUID} {nights : List ℤ} {n : ℤ} {db db' : Db}
    {rows : List AvailabilityLedger} :
    (lockAndValidateAvailability rt nights n).exec db = (.ok rows, db') ↔
      db' = db ∧ rows = selectLedger rt nights db ∧
        ∀ d ∈ nights, ∃ c, db.ledger.row rt d = some c ∧ n ≤ c.available := by
  unfold lockAndValidateAvailability
  split
  · next hnil =>
    subst hnil
    simp [selectLedger, sortedDates, eq_comm, and_comm]
  · simp only [exec_bind_ok, exec_selectLedgerForUpdate, exec_raiseIf_ok, exec_pure,
      Prod.mk.injEq, Except.ok.injEq]
    constructor
    · rintro ⟨_, _, ⟨rfl, rfl⟩, _, _, ⟨hseed, rfl⟩, _, _, ⟨havail, rfl⟩, rfl, rfl⟩
      refine ⟨rfl, rfl, ?_⟩
      intro d hd
      have hmem : d ∈ (selectLedger rt nights db).map (·.date) := by
        rw [← List.mem_toFinset, not_not.mp hseed, List.mem_toFinset]
        exact hd
      obtain ⟨row, hrow, rfl⟩ := List.mem_map.mp hmem
      refine ⟨row.counts, (mem_selectLedger.mp hrow).2.2, ?_⟩
      by_contra hlt
      exact havail ⟨row, hrow, not_le.mp hlt⟩
    · rintro ⟨rfl, rfl, hall⟩
      refine ⟨_, _, ⟨rfl, rfl⟩, (), _, ⟨?_, rfl⟩, (), _, ⟨?_, rfl⟩, rfl, rfl⟩
      · rw [not_not]
        ext d
        rw [List.mem_toFinset, List.mem_toFinset, map_date_selectLedger, List.mem_filter,
          mem_sortedDates]
        constructor
        · exact fun h => h.1
        · intro hd
          obtain ⟨c, hc, -⟩ := hall d hd
          exact ⟨hd, by simp [hc]⟩
      · rintro ⟨row, hrow, hlt⟩
        obtain ⟨-, hd, hc⟩ := mem_selectLedger.mp hrow
        obtain ⟨c, hc', hle⟩ := hall _ hd
        rw [hc] at hc'
        cases hc'
        exact absurd hlt (not_lt.mpr hle)

/-- Writing each row's counter once is one update of all of them. -/
def setBookedAll (rows : List AvailabilityLedger) (f : AvailabilityLedger → ℤ) (db : Db) : Db :=
  rows.foldl (fun db row => db.setBooked row.roomTypeId row.date (f row)) db

theorem row_setBookedAll {rt : UUID} {rows : List AvailabilityLedger}
    {f : AvailabilityLedger → ℤ} {db : Db} (hrt : ∀ row ∈ rows, row.roomTypeId = rt)
    (hnd : (rows.map (·.date)).Nodup) (r : UUID) (d : ℤ) :
    (setBookedAll rows f db).ledger.row r d = (db.ledger.row r d).map fun c =>
      match rows.find? (fun row => r = rt ∧ row.date = d) with
      | some row => { c with bookedRooms := f row }
      | none => c := by
  induction rows generalizing db with
  | nil => simp [setBookedAll]
  | cons x rest ih =>
    rw [List.map_cons, List.nodup_cons] at hnd
    have hx : x.roomTypeId = rt := hrt x (List.mem_cons_self ..)
    change (setBookedAll rest f (db.setBooked x.roomTypeId x.date (f x))).ledger.row r d = _
    rw [ih (fun row hrow => hrt row (List.mem_cons_of_mem _ hrow)) hnd.2, hx]
    simp only [Db.setBooked, Ledger.adjust_row, Option.map_map]
    congr 1
    funext c
    by_cases hkey : r = rt ∧ x.date = d
    · have hnone : rest.find? (fun row => r = rt ∧ row.date = d) = none := by
        rw [List.find?_eq_none]
        intro row hrow hd
        have hd' : r = rt ∧ row.date = d := by simpa using hd
        apply hnd.1
        rw [hkey.2, ← hd'.2]
        exact List.mem_map_of_mem hrow
      rw [hnone, List.find?_cons_of_pos (by simpa using hkey)]
      simp [hkey.1, hkey.2]
    · have hkey' : ¬ (r = rt ∧ d = x.date) := fun h => hkey ⟨h.1, h.2.symm⟩
      rw [List.find?_cons_of_neg (by simpa using hkey)]
      simp [hkey']

theorem setBookedAll_frame (rows : List AvailabilityLedger) (f : AvailabilityLedger → ℤ)
    (db : Db) : setBookedAll rows f db = db.setLedger (setBookedAll rows f db).ledger := by
  induction rows generalizing db with
  | nil => rfl
  | cons x rest ih => exact ih (db.setBooked x.roomTypeId x.date (f x))

/-- Counters set from the selected rows move by the same amount. -/
theorem setBookedAll_select (rt : UUID) (nights : List ℤ) (delta : ℤ) (db : Db) :
    setBookedAll (selectLedger rt nights db) (fun row => row.counts.bookedRooms + delta) db =
      db.setLedger (db.ledger.shift rt nights delta) := by
  rw [setBookedAll_frame]
  congr 1
  apply Ledger.ext_row
  intro r d
  rw [row_setBookedAll (fun row hrow => (mem_selectLedger.mp hrow).1)
    (nodup_map_date_selectLedger rt nights db)]
  simp only [Ledger.shift, Ledger.adjust_row]
  apply Option.map_congr
  intro c hc
  by_cases hkey : r = rt ∧ d ∈ nights
  · obtain ⟨rfl, hd⟩ := hkey
    have hmem : (⟨r, d, c⟩ : AvailabilityLedger) ∈ selectLedger r nights db :=
      mem_selectLedger.mpr ⟨rfl, hd, hc⟩
    cases hfind : (selectLedger r nights db).find? (fun row => r = r ∧ row.date = d) with
    | none =>
      have hnot := List.find?_eq_none.mp hfind _ hmem
      simp at hnot
    | some row =>
      have hdate : row.date = d := by simpa using List.find?_some hfind
      have hrow := (mem_selectLedger.mp (List.mem_of_find?_eq_some hfind)).2.2
      rw [hdate, hc] at hrow
      cases hrow
      simp [hd]
  · have hnone : (selectLedger rt nights db).find? (fun row => r = rt ∧ row.date = d) = none := by
      rw [List.find?_eq_none]
      intro row hrow hd
      have hd' : r = rt ∧ row.date = d := by simpa using hd
      exact hkey ⟨hd'.1, hd'.2 ▸ (mem_selectLedger.mp hrow).2.1⟩
    rw [hnone]
    simp [hkey]

theorem exec_incrementBookedRooms (rows : List AvailabilityLedger) (delta : ℤ) (db : Db) :
    (incrementBookedRooms rows delta).exec db =
      (.ok (), setBookedAll rows (fun row => row.counts.bookedRooms + delta) db) := by
  induction rows generalizing db with
  | nil => rfl
  | cons x rest ih =>
    rw [incrementBookedRooms, forEach, exec_bind]
    exact ih _

theorem exec_decrementBookedRooms_ok {rows : List AvailabilityLedger} {delta : ℤ} {db db' : Db}
    {u : Unit} : (decrementBookedRooms rows delta).exec db = (.ok u, db') ↔
      (∀ row ∈ rows, 0 ≤ row.counts.bookedRooms - delta) ∧
        db' = setBookedAll rows (fun row => row.counts.bookedRooms + -delta) db := by
  induction rows generalizing db with
  | nil => simp [decrementBookedRooms, forEach, setBookedAll, eq_comm]
  | cons x rest ih =>
    rw [decrementBookedRooms, forEach, exec_bind_ok]
    simp only [exec_bind_ok, exec_modify, exec_raiseIf_ok, Prod.mk.injEq, not_lt]
    constructor
    · rintro ⟨_, _, ⟨_, _, ⟨-, rfl⟩, hx, rfl⟩, hrest⟩
      obtain ⟨hall, hdb⟩ := ih.mp hrest
      refine ⟨?_, hdb⟩
      intro row hrow
      rcases List.mem_cons.mp hrow with rfl | hrow
      · exact hx
      · exact hall row hrow
    · rintro ⟨hall, hdb⟩
      refine ⟨(), _, ⟨(), _, ⟨trivial, rfl⟩, hall x (List.mem_cons_self ..), rfl⟩, ?_⟩
      exact ih.mpr ⟨fun row hrow => hall row (List.mem_cons_of_mem _ hrow), hdb⟩

/-- InsufficientInventoryError or LedgerNotSeededError. -/
def InventoryError (e : Err) : Prop :=
  (∃ message, e = .insufficientInventory message) ∨ ∃ message, e = .ledgerNotSeeded message

theorem exec_lockAndValidate_error {rt : UUID} {nights : List ℤ} {n : ℤ} {db db' : Db} {e : Err}
    (h : (lockAndValidateAvailability rt nights n).exec db = (.error e, db')) :
    InventoryError e := by
  unfold lockAndValidateAvailability at h
  split at h
  · cases h
  · simp only [exec_bind_error, exec_selectLedgerForUpdate, exec_raiseIf_ok,
      exec_raiseIf_error, exec_pure, Prod.mk.injEq, reduceCtorEq, false_and, and_false,
      exists_false, or_false, false_or] at h
    obtain ⟨_, _, -, hseed | ⟨_, _, -, havail⟩⟩ := h
    · exact .inr ⟨_, hseed.2.1.symm⟩
    · exact .inl ⟨_, havail.2.1.symm⟩

theorem exec_decrementBookedRooms_error {rows : List AvailabilityLedger} {delta : ℤ}
    {db db' : Db} {e : Err} (h : (decrementBookedRooms rows delta).exec db = (.error e, db')) :
    InventoryError e := by
  induction rows generalizing db with
  | nil => cases h
  | cons x rest ih =>
    rw [decrementBookedRooms, forEach, exec_bind_error] at h
    rcases h with hx | ⟨_, db₁, -, hrest⟩
    · simp only [exec_bind_error, exec_modify, exec_raiseIf_error, Prod.mk.injEq, reduceCtorEq,
        false_and, false_or] at hx
      obtain ⟨_, _, -, -, he, -⟩ := hx
      exact .inl ⟨_, he.symm⟩
    · exact ih hrest

/-- Lock with nothing to book, then decrement: the release of a stay's nights. -/
theorem exec_lock_decrement_ok {rt : UUID} {nights : List ℤ} {db db' : Db} {u : Unit} :
    (lockAndValidateAvailability rt nights 0 >>= fun rows => decrementBookedRooms rows 1).exec db
        = (.ok u, db') ↔
      (∀ d ∈ nights, ∃ c, db.ledger.row rt d = some c ∧ 0 ≤ c.available ∧ 1 ≤ c.bookedRooms) ∧
        db' = db.setLedger (db.ledger.shift rt nights (-1)) := by
  rw [exec_bind_ok]
  simp only [exec_lockAndValidate_ok, exec_decrementBookedRooms_ok]
  constructor
  · rintro ⟨_, _, ⟨rfl, rfl, hall⟩, hpos, rfl⟩
    refine ⟨?_, setBookedAll_select rt nights (-1) _⟩
    intro d hd
    obtain ⟨c, hc, havail⟩ := hall d hd
    have hrow := hpos ⟨rt, d, c⟩ (mem_selectLedger.mpr ⟨rfl, hd, hc⟩)
    exact ⟨c, hc, havail, by simp only at hrow; omega⟩
  · rintro ⟨hall, rfl⟩
    refine ⟨_, _, ⟨rfl, rfl, ?_⟩, ?_, (setBookedAll_select rt nights (-1) _).symm⟩
    · intro d hd
      obtain ⟨c, hc, havail, -⟩ := hall d hd
      exact ⟨c, hc, havail⟩
    · intro row hrow
      obtain ⟨-, hd, hc⟩ := mem_selectLedger.mp hrow
      obtain ⟨c, hc', -, hpos⟩ := hall _ hd
      rw [hc] at hc'
      cases hc'
      omega

/-- Lock with one room to book, then increment: the ORM's claim of a stay's nights. -/
theorem exec_lock_increment_ok {rt : UUID} {nights : List ℤ} {db db' : Db} {u : Unit} :
    (lockAndValidateAvailability rt nights 1 >>= fun rows => incrementBookedRooms rows 1).exec db
        = (.ok u, db') ↔
      (∀ d ∈ nights, ∃ c, db.ledger.row rt d = some c ∧ 1 ≤ c.available) ∧
        db' = db.setLedger (db.ledger.shift rt nights 1) := by
  rw [exec_bind_ok]
  simp only [exec_lockAndValidate_ok, exec_incrementBookedRooms, Prod.mk.injEq]
  constructor
  · rintro ⟨_, _, ⟨rfl, rfl, hall⟩, -, rfl⟩
    exact ⟨hall, setBookedAll_select rt nights 1 _⟩
  · rintro ⟨hall, rfl⟩
    exact ⟨_, _, ⟨rfl, rfl, hall⟩, trivial, setBookedAll_select rt nights 1 _⟩

/-- The conditional UPDATE claims the nights when every row has room for it. -/
theorem exec_claim_ok {rt : UUID} {nights : List ℤ} {db db' : Db} {u : Unit}
    (h : (claimAvailabilityForNewBooking rt nights 1).exec db = (.ok u, db')) :
    (∀ d ∈ nights, ∃ c, db.ledger.row rt d = some c ∧ 1 ≤ c.available) ∧
      db' = db.setLedger (db.ledger.shift rt nights 1) := by
  unfold claimAvailabilityForNewBooking at h
  split at h
  · next hnil =>
    cases h
    subst hnil
    exact ⟨by simp, by rw [Ledger.shift_nil]; rfl⟩
  · simp only [exec_bind_ok, exec_selectLedgerForUpdate, exec_raiseIf_ok, exec_select,
      exec_incrementBookedRooms, Prod.mk.injEq, Except.ok.injEq, not_not] at h
    obtain ⟨_, _, ⟨-, rfl⟩, _, _, ⟨rfl, rfl⟩, _, _, ⟨hseeded, rfl⟩, _, _, ⟨rfl, rfl⟩,
      _, _, ⟨-, rfl⟩, hlen, rfl⟩ := h
    have hfilter := List.filter_eq_self.mpr
      (List.length_filter_eq_length_iff.mp (hlen.trans hseeded.symm))
    rw [hfilter]
    refine ⟨?_, setBookedAll_select rt nights 1 _⟩
    intro d hd
    have hperm : (selectLedger rt nights db).map (·.date) = sortedDates nights := by
      rw [map_date_selectLedger]
      apply List.filter_eq_self.mpr
      apply List.length_filter_eq_length_iff.mp
      rw [← map_date_selectLedger, List.length_map, hseeded, sortedDates,
        List.length_insertionSort]
    have hmem : d ∈ (selectLedger rt nights db).map (·.date) := by
      rw [hperm]
      exact mem_sortedDates.mpr hd
    obtain ⟨row, hrow, rfl⟩ := List.mem_map.mp hmem
    refine ⟨row.counts, (mem_selectLedger.mp hrow).2.2, ?_⟩
    have hroom := List.filter_eq_self.mp hfilter row hrow
    simp only [decide_eq_true_eq] at hroom
    unfold Counts.available
    omega

end OpenPms
