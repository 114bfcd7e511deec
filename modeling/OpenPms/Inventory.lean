import OpenPms.Occupancy

/-!
The ledger against the bookings and the rooms. Booked counters equal the number of
active lines, every active line has a row, and from today on the total of a row is
the number of rooms of its type.
-/
namespace OpenPms

open KeyedTable Hotel

/-! Counting lines -/

/-- The lines of the bookings that are neither cancelled nor no-show. -/
def Hotel.activeLines (h : Hotel) : List BookingLine :=
  (h.bookings.rows.filter fun b => b.status.Active).flatMap (·.lines)

def Hotel.activeCount (h : Hotel) (rt : UUID) (d : ℤ) : ℕ :=
  h.activeLines.countP fun ln => ln.roomTypeId = rt ∧ ln.date = d

/-- What one booking holds of a room type on a night. -/
def Booking.held (b : Booking) (rt : UUID) (d : ℤ) : ℕ :=
  if b.status.Active then b.lines.countP fun ln => ln.roomTypeId = rt ∧ ln.date = d else 0

theorem mem_activeLines {h : Hotel} {ln : BookingLine} :
    ln ∈ h.activeLines ↔ ∃ b ∈ h.bookings.rows, b.status.Active ∧ ln ∈ b.lines := by
  simp [Hotel.activeLines, and_assoc]

theorem activeCount_eq_sum (h : Hotel) (rt : UUID) (d : ℤ) :
    h.activeCount rt d = h.bookings.sum (·.held rt d) := by
  have hrows : ∀ rows : List Booking,
      ((rows.filter fun b => b.status.Active).flatMap (·.lines)).countP
        (fun ln => ln.roomTypeId = rt ∧ ln.date = d) = (rows.map (·.held rt d)).sum := by
    intro rows
    induction rows with
    | nil => rfl
    | cons b rest ih =>
      by_cases hb : b.status.Active
      · rw [List.filter_cons_of_pos (by simpa using hb), List.flatMap_cons, List.countP_append, ih]
        simp [Booking.held, hb]
      · rw [List.filter_cons_of_neg (by simpa using hb), ih]
        simp [Booking.held, hb]
  exact hrows h.bookings.rows

theorem held_of_inactive {b : Booking} (hb : ¬ b.status.Active) (rt : UUID) (d : ℤ) :
    b.held rt d = 0 := by
  simp [Booking.held, hb]

/-- With one room type, the lines on a night are counted by the dates alone. -/
theorem countP_of_single {lines : List BookingLine} {rt₀ : UUID}
    (hrt : ∀ ln ∈ lines, ln.roomTypeId = rt₀) (rt : UUID) (d : ℤ) :
    lines.countP (fun ln => ln.roomTypeId = rt ∧ ln.date = d) =
      if rt = rt₀ then (lines.map (·.date)).count d else 0 := by
  by_cases heq : rt = rt₀
  · subst heq
    rw [ite_cond_eq_true _ _ (eq_self rt), List.count, List.countP_map]
    apply List.countP_congr
    intro ln hln
    simp [hrt ln hln]
  · simp only [heq, if_false]
    rw [List.countP_eq_zero]
    intro ln hln
    simp [hrt ln hln, Ne.symm heq]

/-- The indicator of a room type and some nights. -/
def onNights (rt₀ : UUID) (nights : List ℤ) (rt : UUID) (d : ℤ) : ℤ :=
  if rt = rt₀ ∧ d ∈ nights then 1 else 0

theorem held_eq_onNights {b : Booking} {rt₀ : UUID} (hactive : b.status.Active)
    (hrt : lineRoomTypes b.lines = [rt₀]) (hnd : b.nights.Nodup) (rt : UUID) (d : ℤ) :
    (b.held rt d : ℤ) = onNights rt₀ b.nights rt d := by
  have hcount := countP_of_single (fun ln hln => roomTypeId_of_single hrt hln) rt d
  have hmult : b.nights.count d = if d ∈ b.nights then 1 else 0 := hnd.count
  rw [Booking.nights] at hmult
  simp only [Booking.held, hactive, if_true, hcount, onNights, Booking.nights]
  by_cases heq : rt = rt₀
  · simp only [heq, if_true, true_and, hmult]
    split <;> rfl
  · simp [heq]

theorem activeCount_update {h h' : Hotel} {b : Booking} {f : Booking → Booking}
    (hb : UpdatesOne h h' b.id f) (hfind : h.bookings.find b.id = some b) (rt : UUID) (d : ℤ) :
    (h'.activeCount rt d : ℤ) = h.activeCount rt d + ((f b).held rt d - b.held rt d) := by
  obtain ⟨hf, hb⟩ := hb
  have hsum : (h.bookings.update b.id f hf).sum (·.held rt d) + b.held rt d =
      h.bookings.sum (·.held rt d) + (f b).held rt d := Table.sum_update hf _ hfind
  rw [activeCount_eq_sum, activeCount_eq_sum, hb]
  omega

/-! The booked counters -/

/-- Booked equals the number of active lines, on every row. -/
def LedgerEq (h : Hotel) : Prop :=
  ∀ rt d c, h.ledger.row rt d = some c → c.bookedRooms = h.activeCount rt d

/-- Every active line has a ledger row. -/
def Seeded (h : Hotel) : Prop :=
  ∀ ln ∈ h.activeLines, (h.ledger.row ln.roomTypeId ln.date).isSome

/-- The counters move by `δ`, nothing else does. -/
def Ledger.MovesBy (l l' : Ledger) (δ : UUID → ℤ → ℤ) : Prop :=
  ∀ rt d, l'.row rt d = (l.row rt d).map fun c =>
    { c with bookedRooms := c.bookedRooms + δ rt d }

theorem Ledger.movesBy_refl (l : Ledger) : l.MovesBy l (fun _ _ => 0) := by
  intro rt d
  simp

theorem Ledger.movesBy_shift (l : Ledger) (rt₀ : UUID) (nights : List ℤ) (n : ℤ) :
    l.MovesBy (l.shift rt₀ nights n) (fun rt d => n * onNights rt₀ nights rt d) := by
  intro rt d
  rw [Ledger.shift, Ledger.adjust_row]
  congr 1
  funext c
  by_cases hkey : rt = rt₀ ∧ d ∈ nights
  · simp [onNights, hkey]
  · simp [onNights, hkey]

theorem Ledger.MovesBy.trans {l l' l'' : Ledger} {δ δ' : UUID → ℤ → ℤ} (h : l.MovesBy l' δ)
    (h' : l'.MovesBy l'' δ') : l.MovesBy l'' (fun rt d => δ rt d + δ' rt d) := by
  intro rt d
  rw [h' rt d, h rt d, Option.map_map]
  congr 1
  funext c
  simp [add_assoc]

/-- From equality, equality remains exactly when the lines move with the counters. -/
theorem ledgerEq_iff_of_movesBy {h h' : Hotel} {δ : UUID → ℤ → ℤ} (heq : LedgerEq h)
    (hmove : h.ledger.MovesBy h'.ledger δ) :
    LedgerEq h' ↔ ∀ rt d, (h.ledger.row rt d).isSome →
      (h'.activeCount rt d : ℤ) = h.activeCount rt d + δ rt d := by
  constructor
  · intro h₁ rt d hsome
    obtain ⟨c, hc⟩ := Option.isSome_iff_exists.mp hsome
    have hrow : h'.ledger.row rt d = some { c with bookedRooms := c.bookedRooms + δ rt d } := by
      rw [hmove rt d, hc]
      rfl
    have hnew := h₁ rt d _ hrow
    have hold := heq rt d c hc
    simp only at hnew
    omega
  · intro hcount rt d c' hc'
    rw [hmove rt d] at hc'
    obtain ⟨c, hc, hcc⟩ := Option.map_eq_some_iff.mp hc'
    have hnew := hcount rt d (by rw [hc]; rfl)
    have hold := heq rt d c hc
    rw [← hcc]
    simp only
    omega

theorem LedgerEq.of_movesBy {h h' : Hotel} {δ : UUID → ℤ → ℤ} (heq : LedgerEq h)
    (hmove : h.ledger.MovesBy h'.ledger δ)
    (hcount : ∀ rt d, (h'.activeCount rt d : ℤ) = h.activeCount rt d + δ rt d) : LedgerEq h' :=
  (ledgerEq_iff_of_movesBy heq hmove).mpr fun rt d _ => hcount rt d

/-- Bookings that hold the same leave the equality alone. -/
theorem LedgerEq.of_held {h h' : Hotel} {b : Booking} {f : Booking → Booking}
    (heq : LedgerEq h) (hb : UpdatesOne h h' b.id f) (hfind : h.bookings.find b.id = some b)
    (hl : h'.ledger = h.ledger) (hheld : ∀ rt d, (f b).held rt d = b.held rt d) :
    LedgerEq h' := by
  apply heq.of_movesBy (δ := fun _ _ => 0)
  · rw [hl]
    exact h.ledger.movesBy_refl
  · intro rt d
    rw [activeCount_update hb hfind, hheld]
    omega

theorem LedgerEq.recount {h : Hotel} {rooms : Table Room.id} {rt₀ : UUID} (heq : LedgerEq h) :
    LedgerEq (Hotel.recount { h with rooms := rooms } rt₀) := by
  intro rt d c hc
  simp only [Hotel.recount, Ledger.setTotal, Ledger.adjust_row] at hc
  obtain ⟨c₀, hrow, hcc⟩ := Option.map_eq_some_iff.mp hc
  have hbooked : c.bookedRooms = c₀.bookedRooms := by
    rw [← hcc]
    split <;> rfl
  rw [hbooked]
  exact heq rt d c₀ hrow

theorem activeCount_insert {h h' : Hotel} {b : Booking}
    (hb : h'.bookings = h.bookings.insert b) (hfresh : h.bookings.find b.id = none)
    (rt : UUID) (d : ℤ) :
    (h'.activeCount rt d : ℤ) = h.activeCount rt d + b.held rt d := by
  rw [activeCount_eq_sum, activeCount_eq_sum, hb, Table.sum_insert _ hfresh]
  push_cast
  rfl

theorem activeCount_erase {h h' : Hotel} {b : Booking}
    (hb : h'.bookings = h.bookings.erase b.id) (hfind : h.bookings.find b.id = some b)
    (rt : UUID) (d : ℤ) :
    (h'.activeCount rt d : ℤ) = h.activeCount rt d - b.held rt d := by
  have hsum : (h.bookings.erase b.id).sum (·.held rt d) + b.held rt d =
      h.bookings.sum (·.held rt d) := Table.sum_erase _ hfind
  rw [activeCount_eq_sum, activeCount_eq_sum, hb]
  omega

/-- Without a row there is no active line. -/
theorem Seeded.activeCount_eq_zero {h : Hotel} (hs : Seeded h) {rt : UUID} {d : ℤ}
    (hnone : h.ledger.row rt d = none) : h.activeCount rt d = 0 := by
  rw [Hotel.activeCount, List.countP_eq_zero]
  intro ln hln hkey
  have hkey' : ln.roomTypeId = rt ∧ ln.date = d := by simpa using hkey
  have hsome := hs ln hln
  rw [hkey'.1, hkey'.2, hnone] at hsome
  cases hsome

theorem held_stay {b : Booking} (stay : PricedStay) (hactive : b.status.Active)
    (hlines : b.lines = stay.lines) (rt : UUID) (d : ℤ) :
    (b.held rt d : ℤ) = onNights stay.roomTypeId stay.nights rt d := by
  have hshape : b.nights = stay.nights := by
    rw [Booking.nights, hlines, stay.lines_date]
  have hne : b.lines ≠ [] := by
    intro hnil
    have hdays : stay.nights = [] := by rw [← hshape, Booking.nights, hnil, List.map_nil]
    exact daysBetween_ne_nil stay.checkIn_lt hdays
  have hrt : lineRoomTypes b.lines = [stay.roomTypeId] :=
    lineRoomTypes_eq_single hne fun ln hln => (stay.mem_lines (hlines ▸ hln)).1
  rw [held_eq_onNights hactive hrt (by rw [hshape]; exact stay.nights_nodup), hshape]

theorem held_setRoom (room : Option UUID) (b : Booking) (rt : UUID) (d : ℤ) :
    (setRoom room b).held rt d = b.held rt d := by
  simp [Booking.held, setRoom, List.countP_map, Function.comp_def]

theorem held_setStatus {b : Booking} {s : BookingStatus} (hb : b.status.Active) (hs : s.Active)
    (rt : UUID) (d : ℤ) : (setStatus s b).held rt d = b.held rt d := by
  simp [Booking.held, setStatus, hb, hs]

theorem Seeded.mono {h h' : Hotel} (hs : Seeded h)
    (hrow : ∀ rt d, (h.ledger.row rt d).isSome → (h'.ledger.row rt d).isSome)
    (hlines : ∀ ln ∈ h'.activeLines, (h'.ledger.row ln.roomTypeId ln.date).isSome ∨
      ∃ ln' ∈ h.activeLines, ln'.roomTypeId = ln.roomTypeId ∧ ln'.date = ln.date) :
    Seeded h' := by
  intro ln hln
  rcases hlines ln hln with hdone | ⟨ln', hln', hrt, hd⟩
  · exact hdone
  · rw [← hrt, ← hd]
    exact hrow _ _ (hs ln' hln')

/-- Releasing what a shaped booking holds, as a movement of the counters. -/
theorem Booking.Shape.held_eq {b : Booking} {rt₀ : UUID} (hb : b.Shape)
    (hactive : b.status.Active) (hrt : OpenPms.lineRoomTypes b.lines = [rt₀]) (rt : UUID)
    (d : ℤ) : (b.held rt d : ℤ) = onNights rt₀ b.nights rt d :=
  held_eq_onNights hactive hrt hb.nights_nodup rt d

/-- A sale moves the counters with the new lines, whatever the others look like. -/
theorem LedgerEq.sale {h h' : Hotel} (heq : LedgerEq h) (hsale : Sale h h') : LedgerEq h' := by
  cases hsale with
  | book stay hfresh hactive hlines _ _ =>
    refine heq.of_movesBy (h.ledger.movesBy_shift _ _ _) ?_
    intro rt d
    have hnew := held_stay stay hactive hlines rt d
    refine (activeCount_insert rfl hfresh rt d).trans ?_
    omega
  | assign hfind _ _ =>
    exact heq.of_held (updatesOne _) hfind rfl fun rt d => held_setRoom _ _ rt d

theorem LedgerEq.step {h h' : Hotel} (heq : LedgerEq h) (hshape : Shaped h) (hseed : Seeded h)
    (hstep : Step h h') : LedgerEq h' := by
  have hshape' : ∀ {b : Booking}, h.bookings.find b.id = some b → b.Shape :=
    fun hfind => hshape _ (Table.find_eq_some.mp hfind).1
  cases hstep with
  | sale hsale => exact heq.sale hsale
  | @rebook b rt₀ stay ratePlan hfind hactive hrt _ _ =>
    refine heq.of_movesBy
      ((h.ledger.movesBy_shift _ _ _).trans (Ledger.movesBy_shift _ _ _ _)) ?_
    intro rt d
    have hold := (hshape' hfind).held_eq hactive hrt rt d
    have hactive' : (setLines stay ratePlan b).status.Active := hactive
    have hnew := held_stay stay hactive' rfl rt d
    refine (activeCount_update (updatesOne _) hfind rt d).trans ?_
    omega
  | unassign hfind _ =>
    exact heq.of_held (updatesOne _) hfind rfl fun rt d => held_setRoom _ _ rt d
  | advance hfind hactive hallowed =>
    exact heq.of_held (updatesOne _) hfind rfl
      fun rt d => held_setStatus (active_of_allowed hallowed) hactive rt d
  | @release b s rt₀ hfind hactive hinactive hrt _ =>
    refine heq.of_movesBy (h.ledger.movesBy_shift _ _ _) ?_
    intro rt d
    have hold := (hshape' hfind).held_eq hactive hrt rt d
    have hnew : (setStatus s b).held rt d = 0 := held_of_inactive hinactive rt d
    refine (activeCount_update (updatesOne _) hfind rt d).trans ?_
    omega
  | annotate notes hfind => exact heq.of_held (updatesOne _) hfind rfl fun rt d => rfl
  | @remove b rt₀ hfind hactive hrt _ =>
    refine heq.of_movesBy (h.ledger.movesBy_shift _ _ _) ?_
    intro rt d
    have hold := (hshape' hfind).held_eq hactive hrt rt d
    refine (activeCount_erase rfl hfind rt d).trans ?_
    omega
  | removeInactive hfind hinactive =>
    refine heq.of_movesBy h.ledger.movesBy_refl ?_
    intro rt d
    have hold := held_of_inactive hinactive rt d
    refine (activeCount_erase rfl hfind rt d).trans ?_
    omega
  | block rt₀ days n _ =>
    intro rt d c hc
    simp only [Ledger.adjust_row] at hc
    obtain ⟨c₀, hrow, hcc⟩ := Option.map_eq_some_iff.mp hc
    have hbooked : c.bookedRooms = c₀.bookedRooms := by
      rw [← hcc]
      split <;> rfl
    rw [hbooked]
    exact heq rt d c₀ hrow
  | supply hsupply =>
    cases hsupply with
    | seed rt₀ days =>
      intro rt d c hc
      change c.bookedRooms = (h.activeCount rt d : ℤ)
      simp only [Ledger.upsert_row] at hc
      split at hc
      · cases hrow : h.ledger.row rt d with
        | none =>
          rw [hrow] at hc
          cases hc
          rw [hseed.activeCount_eq_zero hrow]
          rfl
        | some c₀ =>
          rw [hrow] at hc
          cases hc
          exact heq rt d c₀ hrow
      · exact heq rt d c hc
    | addRoom _ _ => exact heq.recount
    | editRoom _ _ _ => exact heq
  | _ => exact heq

/-! Rows for active lines -/

theorem Ledger.isSome_shift (l : Ledger) (rt₀ : UUID) (nights : List ℤ) (n : ℤ) (rt : UUID)
    (d : ℤ) : ((l.shift rt₀ nights n).row rt d).isSome = (l.row rt d).isSome := by
  simp [Ledger.shift]

theorem Ledger.Open.isSome {l : Ledger} {rt : UUID} {nights : List ℤ} {n : ℤ}
    (h : l.Open rt nights n) {d : ℤ} (hd : d ∈ nights) : (l.row rt d).isSome := by
  obtain ⟨c, hc, -⟩ := h d hd
  rw [hc]
  rfl

/-- The lines of an updated booking lie on rows when its new lines do. -/
theorem Seeded.update {h h' : Hotel} {bid : UUID} {f : Booking → Booking} (hs : Seeded h)
    (hb : UpdatesOne h h' bid f)
    (hrow : ∀ rt d, (h.ledger.row rt d).isSome → (h'.ledger.row rt d).isSome)
    (hnew : ∀ b, h.bookings.find bid = some b → (f b).status.Active → ∀ ln ∈ (f b).lines,
      (h'.ledger.row ln.roomTypeId ln.date).isSome ∨ b.status.Active ∧
        ∃ old ∈ b.lines, old.roomTypeId = ln.roomTypeId ∧ old.date = ln.date) : Seeded h' := by
  apply hs.mono hrow
  intro ln hln
  obtain ⟨b, hmem, hactive, hlnb⟩ := mem_activeLines.mp hln
  rcases hb.mem hmem with ⟨hold, -⟩ | ⟨u, hu, hbu⟩
  · exact .inr ⟨ln, mem_activeLines.mpr ⟨b, hold, hactive, hlnb⟩, rfl, rfl⟩
  · rw [hbu] at hactive hlnb
    rcases hnew u hu hactive ln hlnb with hdone | ⟨hact, old, hold, hrt, hd⟩
    · exact .inl hdone
    · have humem : u ∈ h.bookings.rows := (Table.find_eq_some.mp hu).1
      exact .inr ⟨old, mem_activeLines.mpr ⟨u, humem, hact, hold⟩, hrt, hd⟩

theorem Seeded.same_bookings {h h' : Hotel} (hs : Seeded h) (hb : h'.bookings = h.bookings)
    (hrow : ∀ rt d, (h.ledger.row rt d).isSome → (h'.ledger.row rt d).isSome) : Seeded h' := by
  apply hs.mono hrow
  intro ln hln
  rw [Hotel.activeLines, hb] at hln
  exact .inr ⟨ln, hln, rfl, rfl⟩

theorem Seeded.erase {h h' : Hotel} {bid : UUID} (hs : Seeded h)
    (hb : h'.bookings = h.bookings.erase bid)
    (hrow : ∀ rt d, (h.ledger.row rt d).isSome → (h'.ledger.row rt d).isSome) : Seeded h' := by
  apply hs.mono hrow
  intro ln hln
  obtain ⟨b, hmem, hactive, hlnb⟩ := mem_activeLines.mp hln
  rw [hb] at hmem
  exact .inr ⟨ln, mem_activeLines.mpr ⟨b, (Table.mem_erase.mp hmem).1, hactive, hlnb⟩, rfl, rfl⟩

theorem PricedStay.isSome_of_open {stay : PricedStay} {l : Ledger}
    (h : l.Open stay.roomTypeId stay.nights 1) {ln : BookingLine} (hln : ln ∈ stay.lines) :
    (l.row ln.roomTypeId ln.date).isSome := by
  rw [(stay.mem_lines hln).1]
  apply h.isSome
  rw [← stay.lines_date]
  exact List.mem_map_of_mem hln

theorem Seeded.step {h h' : Hotel} (hs : Seeded h) (hstep : Step h h') : Seeded h' := by
  have hadjust : ∀ (f : UUID → ℤ → Counts → Counts) (rt : UUID) (d : ℤ),
      (h.ledger.row rt d).isSome → ((h.ledger.adjust f).row rt d).isSome := by
    intro f rt d hsome
    simpa using hsome
  cases hstep with
  | sale hsale =>
    cases hsale with
    | @book b stay hfresh _ hlines _ hopen =>
      refine hs.mono (hadjust _) ?_
      intro ln hln
      obtain ⟨b', hmem, hactive', hlnb⟩ := mem_activeLines.mp hln
      rcases (Table.mem_insert hfresh).mp hmem with hold | hnew
      · exact .inr ⟨ln, mem_activeLines.mpr ⟨b', hold, hactive', hlnb⟩, rfl, rfl⟩
      · rw [hnew, hlines] at hlnb
        exact .inl (hadjust _ _ _ (stay.isSome_of_open hopen hlnb))
    | assign _ hactive _ =>
      refine hs.update (updatesOne _) (fun _ _ hsome => hsome) ?_
      intro u _ hact ln hln
      obtain ⟨-, old, hold, hd, hrt⟩ := mem_setRoom_lines hln
      exact .inr ⟨hact, old, hold, hrt.symm, hd.symm⟩
  | rebook stay _ _ _ _ _ hopen =>
    refine hs.update (updatesOne _) ?_ ?_
    · intro rt d hsome
      rw [Ledger.isSome_shift, Ledger.isSome_shift]
      exact hsome
    · intro b _ _ ln hln
      left
      rw [Ledger.isSome_shift]
      exact stay.isSome_of_open hopen hln
  | unassign _ _ =>
    refine hs.update (updatesOne _) (fun _ _ hsome => hsome) ?_
    intro u _ hact ln hln
    obtain ⟨-, old, hold, hd, hrt⟩ := mem_setRoom_lines hln
    exact .inr ⟨hact, old, hold, hrt.symm, hd.symm⟩
  | advance hfind _ hallowed =>
    refine hs.update (updatesOne _) (fun _ _ hsome => hsome) ?_
    intro u hu _ ln hln
    cases hfind.symm.trans hu
    exact .inr ⟨active_of_allowed hallowed, ln, hln, rfl, rfl⟩
  | release _ _ hinactive _ _ =>
    refine hs.update (updatesOne _) (hadjust _) ?_
    intro u _ hact ln hln
    exact absurd hact hinactive
  | annotate notes _ =>
    refine hs.update (updatesOne _) (fun _ _ hsome => hsome) ?_
    intro u _ hact ln hln
    exact .inr ⟨hact, ln, hln, rfl, rfl⟩
  | remove _ _ _ _ => exact hs.erase rfl (hadjust _)
  | removeInactive _ _ => exact hs.erase rfl fun _ _ hsome => hsome
  | block _ _ _ _ => exact hs.same_bookings rfl (hadjust _)
  | supply hsupply =>
    cases hsupply with
    | addRoom _ _ => exact hs.same_bookings rfl (hadjust _)
    | seed rt₀ days =>
      refine hs.same_bookings rfl ?_
      intro rt d hsome
      simp only [Ledger.upsert_row]
      split
      · rfl
      · exact hsome
    | editRoom _ _ _ => exact hs
  | _ => exact hs

theorem Ledger.SameCapacity.isSome {l l' : Ledger} (h : l.SameCapacity l') {rt : UUID} {d : ℤ}
    (hsome : (l.row rt d).isSome) : (l'.row rt d).isSome := by
  have hmap := congrArg Option.isSome (h rt d)
  simpa [hsome] using hmap

theorem Seeded.drift {h h' : Hotel} (hs : Seeded h) (hdrift : Drift h h') : Seeded h' := by
  cases hdrift with
  | cancelAgain _ _ hledger =>
    refine hs.update (updatesOne _) (fun _ _ => hledger.isSome) ?_
    intro u _ hact
    exact absurd rfl hact.1
  | rebookInactive stay _ hfind hinactive hledger =>
    refine hs.update (updatesOne _) (fun _ _ => hledger.isSome) ?_
    intro u hu hact
    cases hfind.symm.trans hu
    exact absurd hact hinactive
  | counters hledger => exact hs.same_bookings rfl fun _ _ => hledger.isSome

theorem Seeded.take {h h' : Hotel} (hs : Seeded h) (htake : Take h h') : Seeded h' := by
  have hrows : ∀ rt d, (h.ledger.row rt d).isSome → (h'.ledger.row rt d).isSome := by
    intro rt d hsome
    cases htake with
    | remove _ _ _ => simpa [Hotel.removeRoom, Hotel.recount, Ledger.setTotal] using hsome
    | move _ _ _ _ _ _ => simpa [Hotel.moveRoom, Hotel.recount, Ledger.setTotal] using hsome
  cases htake with
  | remove _ _ _ => exact hs.same_bookings rfl hrows
  | move _ _ _ _ _ _ => exact hs.same_bookings rfl hrows

/-- Booked counters against active lines: what every action keeps. -/
structure Balanced (h : Hotel) : Prop where
  shaped : Shaped h
  ledgerEq : LedgerEq h
  seeded : Seeded h

theorem Balanced.step {h h' : Hotel} (hb : Balanced h) (hstep : Step h h') : Balanced h' :=
  ⟨hb.shaped.step hstep, hb.ledgerEq.step hb.shaped hb.seeded hstep, hb.seeded.step hstep⟩

theorem Balanced.take {h h' : Hotel} (hb : Balanced h) (htake : Take h h') : Balanced h' := by
  refine ⟨hb.shaped.take htake, ?_, hb.seeded.take htake⟩
  cases htake with
  | remove _ _ _ => exact hb.ledgerEq.recount
  | move rt name status _ _ _ => exact hb.ledgerEq.recount.recount

/-! Totals and room counts -/

/-- From today on, the total of a row is the number of rooms of its type. -/
def Counted (h : Hotel) : Prop :=
  ∀ rt d c, h.today ≤ d → h.ledger.row rt d = some c → c.totalRooms = h.roomCount rt

def Room.counts (r : Room) (rt : UUID) : ℕ := if r.roomTypeId = rt ∧ r.deleted = false then 1 else 0

theorem roomCount_eq_sum (h : Hotel) (rt : UUID) :
    h.roomCount rt = h.rooms.sum (·.counts rt) := by
  have hrows : ∀ rows : List Room,
      (rows.filter fun r => r.roomTypeId = rt && !r.deleted).length =
        (rows.map (·.counts rt)).sum := by
    intro rows
    induction rows with
    | nil => rfl
    | cons r rest ih =>
      rw [List.map_cons, List.sum_cons, ← ih]
      by_cases hr : r.roomTypeId = rt ∧ r.deleted = false
      · rw [List.filter_cons_of_pos (by simpa using hr)]
        simp [Room.counts, hr, add_comm]
      · rw [List.filter_cons_of_neg (by simpa using hr)]
        simp [Room.counts, hr]
  exact hrows h.rooms.rows

theorem roomCount_insert {h h' : Hotel} {r : Room} (hrooms : h'.rooms = h.rooms.insert r)
    (hfresh : h.rooms.find r.id = none) (rt : UUID) :
    h'.roomCount rt = h.roomCount rt + r.counts rt := by
  rw [roomCount_eq_sum, roomCount_eq_sum, hrooms, Table.sum_insert _ hfresh]

theorem roomCount_update {h : Hotel} {r : Room} (f : Room → Room) (hf : ∀ r, (f r).id = r.id)
    (hfind : h.rooms.find r.id = some r) (rt : UUID) :
    ({ h with rooms := h.rooms.update r.id f hf } : Hotel).roomCount rt + r.counts rt =
      h.roomCount rt + (f r).counts rt := by
  rw [roomCount_eq_sum, roomCount_eq_sum]
  exact Table.sum_update hf _ hfind

@[simp] theorem roomCount_recount (h : Hotel) (rt₀ rt : UUID) :
    (h.recount rt₀).roomCount rt = h.roomCount rt := rfl

/-- A recount repairs the totals of one room type; the others must be right. -/
theorem counted_recount {h : Hotel} {rt₀ : UUID}
    (hother : ∀ rt d c, rt ≠ rt₀ → h.today ≤ d → h.ledger.row rt d = some c →
      c.totalRooms = h.roomCount rt) : Counted (h.recount rt₀) := by
  intro rt d c htoday hc
  change c.totalRooms = (h.roomCount rt : ℤ)
  simp only [Hotel.recount, Ledger.setTotal, Ledger.adjust_row] at hc
  obtain ⟨c₀, hrow, hcc⟩ := Option.map_eq_some_iff.mp hc
  by_cases hrt : rt = rt₀
  · rw [← hcc, hrt]
    have hkey : rt₀ = rt₀ ∧ h.today ≤ d := ⟨rfl, htoday⟩
    simp [hkey]
  · have hsame : c₀ = c := by simpa [hrt] using hcc
    rw [← hsame]
    exact hother rt d c₀ hrt htoday hrow

theorem Counted.same_rooms {h h' : Hotel} (hc : Counted h) (htoday : h.today ≤ h'.today)
    (hrooms : h'.rooms = h.rooms)
    (hrow : ∀ rt d c', h'.ledger.row rt d = some c' →
      ∃ c, h.ledger.row rt d = some c ∧ c.totalRooms = c'.totalRooms) : Counted h' := by
  intro rt d c' hd hc'
  obtain ⟨c, hc₀, htot⟩ := hrow rt d c' hc'
  rw [← htot, hc rt d c (htoday.trans hd) hc₀, Hotel.roomCount, Hotel.roomCount, hrooms]

theorem Ledger.SameCapacity.total {l l' : Ledger} (h : l.SameCapacity l') {rt : UUID} {d : ℤ}
    {c' : Counts} (hc' : l'.row rt d = some c') :
    ∃ c, l.row rt d = some c ∧ c.totalRooms = c'.totalRooms := by
  have heq := h rt d
  rw [hc', Option.map_some] at heq
  obtain ⟨c, hc, hpair⟩ := Option.map_eq_some_iff.mp heq.symm
  exact ⟨c, hc, congrArg Prod.fst hpair⟩

theorem Ledger.total_shift {l : Ledger} {rt₀ : UUID} {nights : List ℤ} {n : ℤ} {rt : UUID}
    {d : ℤ} {c' : Counts} (hc' : (l.shift rt₀ nights n).row rt d = some c') :
    ∃ c, l.row rt d = some c ∧ c.totalRooms = c'.totalRooms := by
  simp only [Ledger.shift, Ledger.adjust_row] at hc'
  obtain ⟨c, hc, hcc⟩ := Option.map_eq_some_iff.mp hc'
  refine ⟨c, hc, ?_⟩
  rw [← hcc]
  split <;> rfl

theorem Counted.shift {h h' : Hotel} (hc : Counted h) (htoday : h'.today = h.today)
    (hrooms : h'.rooms = h.rooms) {rt₀ : UUID} {nights : List ℤ} {n : ℤ}
    (hl : h'.ledger = h.ledger.shift rt₀ nights n) : Counted h' := by
  refine hc.same_rooms htoday.ge hrooms ?_
  intro rt d c' hc'
  rw [hl] at hc'
  exact Ledger.total_shift hc'

theorem Counted.recount_of_rooms {h : Hotel} {rooms : Table Room.id} {rt₀ : UUID}
    (hc : Counted h)
    (hcount : ∀ rt, rt ≠ rt₀ → ({ h with rooms := rooms } : Hotel).roomCount rt = h.roomCount rt) :
    Counted (Hotel.recount { h with rooms := rooms } rt₀) := by
  apply counted_recount
  intro rt d c hne htoday hrow
  rw [hcount rt hne]
  exact hc rt d c htoday hrow

theorem Counted.step {h h' : Hotel} (hc : Counted h) (hstep : Step h h') : Counted h' := by
  cases hstep with
  | sale hsale =>
    cases hsale with
    | book _ _ _ _ _ _ => exact hc.shift rfl rfl rfl
    | assign _ _ _ => exact hc
  | rebook _ _ _ _ _ _ _ =>
    refine hc.same_rooms (le_refl _) rfl ?_
    intro rt d c' hc'
    obtain ⟨c₁, hc₁, htot₁⟩ := Ledger.total_shift hc'
    obtain ⟨c, hc, htot⟩ := Ledger.total_shift hc₁
    exact ⟨c, hc, htot.trans htot₁⟩
  | release _ _ _ _ _ => exact hc.shift rfl rfl rfl
  | remove _ _ _ _ => exact hc.shift rfl rfl rfl
  | soil rooms =>
    intro rt d c hd hrow
    rw [hc rt d c hd hrow, roomCount_eq_sum, roomCount_eq_sum, Table.sum, Table.sum,
      Table.updateAll, List.map_map]
    congr 3
    funext r
    simp only [Function.comp_apply, markRoomDirty]
    split <;> rfl
  | block rt₀ days n _ =>
    refine hc.same_rooms (le_refl _) rfl ?_
    intro rt d c' hc'
    simp only [Ledger.adjust_row] at hc'
    obtain ⟨c, hrow, hcc⟩ := Option.map_eq_some_iff.mp hc'
    refine ⟨c, hrow, ?_⟩
    rw [← hcc]
    split <;> rfl
  | tick day hle => exact hc.same_rooms hle rfl fun rt d c' hc' => ⟨c', hc', rfl⟩
  | supply hsupply =>
    cases hsupply with
    | @addRoom r hfresh _ =>
      apply hc.recount_of_rooms
      intro rt hne
      rw [roomCount_insert rfl hfresh]
      simp [Room.counts, hne.symm]
    | editRoom rid name status =>
      intro rt d c hd hrow
      rw [hc rt d c hd hrow, roomCount_eq_sum, roomCount_eq_sum, Table.sum, Table.sum,
        Table.update, List.map_map]
      congr 3
      funext r
      simp only [Function.comp_apply]
      split <;> rfl
    | seed rt₀ days =>
      intro rt d c' hd hc'
      change c'.totalRooms = (h.roomCount rt : ℤ)
      simp only [Ledger.upsert_row] at hc'
      split at hc'
      · next hkey =>
        rw [hkey.1] at hc' ⊢
        cases hrow : h.ledger.row rt₀ d with
        | none =>
          rw [hrow] at hc'
          cases hc'
          rfl
        | some c =>
          rw [hrow] at hc'
          cases hc'
          rfl
      · exact hc rt d c' hd hc'
  | _ => exact hc

theorem Counted.drift {h h' : Hotel} (hc : Counted h) (hdrift : Drift h h') : Counted h' := by
  cases hdrift with
  | cancelAgain _ _ hledger => exact hc.same_rooms (le_refl _) rfl fun _ _ _ h' => hledger.total h'
  | rebookInactive _ _ _ _ hledger =>
    exact hc.same_rooms (le_refl _) rfl fun _ _ _ h' => hledger.total h'
  | counters hledger => exact hc.same_rooms (le_refl _) rfl fun _ _ _ h' => hledger.total h'

theorem Counted.take {h h' : Hotel} (hc : Counted h) (htake : Take h h') : Counted h' := by
  cases htake with
  | @remove r hfind _ _ =>
    apply hc.recount_of_rooms
    intro rt hne
    have hsum := roomCount_update (fun r => { r with deleted := true }) (fun _ => rfl) hfind rt
    simpa [Room.counts, hne.symm] using hsum
  | @move r rt name status hfind _ _ =>
    apply counted_recount
    intro rt' d c hne htoday hrow
    simp only [Hotel.recount, Ledger.setTotal, Ledger.adjust_row] at hrow
    obtain ⟨c₀, hrow₀, hcc⟩ := Option.map_eq_some_iff.mp hrow
    by_cases hold : rt' = r.roomTypeId
    · have htoday' : h.today ≤ d := htoday
      rw [← hcc, hold]
      simp [htoday', Hotel.recount, Hotel.roomCount]
    · have hsame : c₀ = c := by simpa [hold] using hcc
      have hsum := roomCount_update
        (fun r => { r with roomTypeId := rt, name := name, status := status }) (fun _ => rfl)
        hfind rt'
      rw [← hsame, hc rt' d c₀ htoday hrow₀]
      simpa [Room.counts, Ne.symm hold, hne.symm] using hsum.symm

end OpenPms
