import OpenPms.Runs
import OpenPms.Statements

/-!
Claims under concurrency. Each way to claim rooms locks the ledger rows, reads their
current versions and writes counters computed from these, so no interleaving books or
blocks more than the total of a row.
-/
namespace OpenPms

open KeyedTable Transaction Prog Interleaving

/-- No row has more rooms booked and blocked than its total. -/
def WithinTotals (db : Db) : Prop :=
  ∀ rt d c, db.ledger.row rt d = some c → c.bookedRooms + c.blockedRooms ≤ c.totalRooms

/-- A commit changes only ledger rows that the transaction has locked. -/
def claimDiscipline (ι : Type) : Discipline Db RowKey ι where
  inv := WithinTotals
  guar L s s' := ∀ rt d, RowKey.ledger rt d ∉ L → s'.ledger.row rt d = s.ledger.row rt d
  timing := .any

/-- The transaction's own version of the rows it has locked is `v`, every other row is
the committed one, and its versions are within their totals. -/
structure Holding (ι : Type) (L : Set RowKey) (w : Db → Db) (A : Db → Prop)
    (v : UUID → ℤ → Option Counts) : Prop where
  stable : Stable (claimDiscipline ι) L A
  inside : ∀ s, A s → ∀ rt d, RowKey.ledger rt d ∈ L → (w s).ledger.row rt d = v rt d
  outside : ∀ s, A s → ∀ rt d, RowKey.ledger rt d ∉ L →
    (w s).ledger.row rt d = s.ledger.row rt d
  fits : ∀ rt d c, RowKey.ledger rt d ∈ L → v rt d = some c →
    c.bookedRooms + c.blockedRooms ≤ c.totalRooms

def HoldingSome (ι : Type) (L : Set RowKey) (w : Db → Db) (A : Db → Prop) : Prop :=
  ∃ v, Holding ι L w A v

section Holding
variable {ι : Type} {L : Set RowKey} {w : Db → Db} {A : Db → Prop}
  {v : UUID → ℤ → Option Counts}

theorem holding_start : Holding ι ∅ id (fun _ => True) (fun _ _ => none) where
  stable := stable_true _
  inside _ _ _ _ h := h.elim
  outside _ _ _ _ _ := rfl
  fits _ _ _ h := h.elim

theorem Holding.commits (h : Holding ι L w A v) {s : Db} (hs : WithinTotals s) (hA : A s) :
    (claimDiscipline ι).guar L s (w s) ∧ WithinTotals (w s) := by
  refine ⟨h.outside s hA, ?_⟩
  intro rt d c hc
  by_cases hkey : RowKey.ledger rt d ∈ L
  · rw [h.inside s hA rt d hkey] at hc
    exact h.fits rt d c hkey hc
  · rw [h.outside s hA rt d hkey] at hc
    exact hs rt d c hc

theorem Holding.quiet (h : Holding ι L w A v) {f : Db → Db}
    (hf : ∀ db, (f db).ledger = db.ledger) : Holding ι L (f ∘ w) A v where
  stable := h.stable
  inside s hA rt d hkey := by
    rw [Function.comp_apply, hf]
    exact h.inside s hA rt d hkey
  outside s hA rt d hkey := by
    rw [Function.comp_apply, hf]
    exact h.outside s hA rt d hkey
  fits := h.fits

/-- A row is locked at its committed version, which then stays. -/
theorem Holding.lockRow (h : Holding ι L w A v) {s : Db} (hs : WithinTotals s) (hA : A s)
    {rt : UUID} {d : ℤ} (hnew : RowKey.ledger rt d ∉ L) :
    ∃ A' v', A' s ∧ Holding ι (insert (.ledger rt d) L) w A' v' := by
  refine ⟨fun s' => A s' ∧ s'.ledger.row rt d = s.ledger.row rt d,
    fun r x => if r = rt ∧ x = d then s.ledger.row rt d else v r x, ⟨hA, rfl⟩, ?_, ?_, ?_, ?_⟩
  · refine (h.stable.mono (Set.subset_insert _ _)).and ?_
    intro L' s₁ s₂ hdisj _ hguar hrow
    have hother : RowKey.ledger rt d ∉ L' :=
      Set.disjoint_left.mp hdisj (Set.mem_insert _ _)
    exact (hguar rt d hother).trans hrow
  · rintro s' ⟨hA', hrow⟩ r x hkey
    by_cases heq : r = rt ∧ x = d
    · obtain ⟨rfl, rfl⟩ := heq
      rw [if_pos ⟨rfl, rfl⟩, ← hrow]
      exact h.outside s' hA' r x hnew
    · rw [if_neg heq]
      refine h.inside s' hA' r x (hkey.resolve_left ?_)
      intro hk
      cases hk
      exact heq ⟨rfl, rfl⟩
  · rintro s' ⟨hA', -⟩ r x hkey
    exact h.outside s' hA' r x fun hold => hkey (Set.mem_insert_of_mem _ hold)
  · intro r x c hkey hc
    split at hc
    · exact hs rt d c hc
    · next heq =>
      refine h.fits r x c (hkey.resolve_left ?_) hc
      intro hk
      cases hk
      exact heq ⟨rfl, rfl⟩

theorem Holding.lockOther (h : Holding ι L w A v) {r : RowKey} (hr : ∀ rt d, .ledger rt d ≠ r) :
    Holding ι (insert r L) w A v where
  stable := h.stable.mono (Set.subset_insert _ _)
  inside s hA rt d hkey := h.inside s hA rt d (hkey.resolve_left (hr rt d))
  outside s hA rt d hkey := h.outside s hA rt d fun hold => hkey (Set.mem_insert_of_mem _ hold)
  fits rt d c hkey hc := h.fits rt d c (hkey.resolve_left (hr rt d)) hc

theorem holding_carried : Carried (claimDiscipline ι) (HoldingSome ι) where
  stable h := h.choose_spec.stable
  lock := by
    rintro L w A r s ⟨v, h⟩ hs hA
    by_cases hold : r ∈ L
    · rw [Set.insert_eq_of_mem hold]
      exact ⟨A, hA, v, h⟩
    · cases r with
      | ledger rt d =>
        obtain ⟨A', v', hA', h'⟩ := h.lockRow hs hA hold
        exact ⟨A', hA', v', h'⟩
      | booking bid => exact ⟨A, hA, v, h.lockOther (by simp)⟩
      | revision rid => exact ⟨A, hA, v, h.lockOther (by simp)⟩

/-- A locked row gets another version within its total. -/
theorem Holding.writeRow (h : Holding ι L w A v) {rt : UUID} {d : ℤ} {c c' : Counts}
    {f : Counts → Counts} (hkey : RowKey.ledger rt d ∈ L) (hc : v rt d = some c) (hf : f c = c')
    (hfits : c'.bookedRooms + c'.blockedRooms ≤ c'.totalRooms) {g : Db → Db}
    (hg : ∀ db, (g db).ledger =
      db.ledger.adjust fun r x c => if r = rt ∧ x = d then f c else c) :
    Holding ι L (g ∘ w) A (fun r x => if r = rt ∧ x = d then some c' else v r x) where
  stable := h.stable
  inside s hA r x hkey' := by
    rw [Function.comp_apply, hg, Ledger.adjust_row, h.inside s hA r x hkey']
    by_cases heq : r = rt ∧ x = d
    · obtain ⟨rfl, rfl⟩ := heq
      rw [hc, if_pos ⟨rfl, rfl⟩, Option.map_some, if_pos ⟨rfl, rfl⟩, hf]
    · rw [if_neg heq]
      simp [heq]
  outside s hA r x hkey' := by
    rw [Function.comp_apply, hg, Ledger.adjust_row, h.outside s hA r x hkey']
    have hne : ¬ (r = rt ∧ x = d) := by
      rintro ⟨rfl, rfl⟩
      exact hkey' hkey
    simp [hne]
  fits r x c₁ hkey' hc₁ := by
    split at hc₁
    · cases hc₁
      exact hfits
    · exact h.fits r x c₁ hkey' hc₁

end Holding

/-! The statements on ledger rows -/

section Rows
variable {ι : Type} {i : ι} {o : List Db} {L : Set RowKey} {w : Db → Db} {A : Db → Prop}
  {v : UUID → ℤ → Option Counts}

/-- The rows are locked and equal the transaction's versions. -/
structure RowsHeld (L : Set RowKey) (v : UUID → ℤ → Option Counts)
    (rows : List AvailabilityLedger) : Prop where
  row : ∀ row ∈ rows, RowKey.ledger row.roomTypeId row.date ∈ L ∧
    v row.roomTypeId row.date = some row.counts
  nodup : (rows.map fun row => (row.roomTypeId, row.date)).Nodup

theorem RowsHeld.filter {rows : List AvailabilityLedger} (h : RowsHeld L v rows)
    (p : AvailabilityLedger → Bool) : RowsHeld L v (rows.filter p) where
  row row hrow := h.row row (List.mem_of_mem_filter hrow)
  nodup := h.nodup.sublist (List.filter_sublist.map _)

theorem ok_acquireAll (rt : UUID) (days : List ℤ) (h : HoldingSome ι L w A) :
    Ok (claimDiscipline ι) i (forEach days fun d => (acquire (.ledger rt d) : Tx Unit)) o L w A
      fun r _ L' w' A' => r = .ok () ∧ w' = w ∧ L ⊆ L' ∧ (∀ d ∈ days, .ledger rt d ∈ L') ∧
        HoldingSome ι L' w A' := by
  induction days generalizing L A with
  | nil => exact ⟨rfl, rfl, subset_rfl, by simp, h⟩
  | cons d rest ih =>
    apply ok_bind
    intro s hs hA _
    obtain ⟨A', hA', hnew⟩ := holding_carried.lock (.ledger rt d) s h hs hA
    refine ⟨A', hA', holding_carried.stable hnew, (ih hnew).mono ?_⟩
    rintro r o' L' w' A'' ⟨hr, hw, hsub, hall, hheld⟩
    have hd : .ledger rt d ∈ L' := hsub (Set.mem_insert _ _)
    refine ⟨hr, hw, (Set.subset_insert _ _).trans hsub, ?_, hheld⟩
    intro x hx
    rcases List.mem_cons.mp hx with rfl | hx
    · exact hd
    · exact hall x hx

/-- SELECT ... FOR UPDATE returns the transaction's versions of rows it has locked. -/
theorem ok_selectForUpdate (rt : UUID) (nights : List ℤ) (h : HoldingSome ι L w A) :
    Ok (claimDiscipline ι) i (selectLedgerForUpdate rt nights) o L w A
      fun r _ L' w' A' => ∃ rows v', r = .ok rows ∧ Holding ι L' w' A' v' ∧ RowsHeld L' v' rows := by
  intro s hs hA
  refine ⟨A, hA, holding_carried.stable h, ?_⟩
  change Ok _ i (forEach _ _ >>= _) _ _ _ _ _
  apply ok_bind
  refine (ok_acquireAll rt _ h).mono ?_
  rintro r o' L' w' A' ⟨rfl, rfl, -, hlocked, v', h'⟩ s' hs' hA'
  refine ⟨A', hA', h'.stable, _, v', rfl, h', ?_, ?_⟩
  · intro row hrow
    obtain ⟨hrt, hd, hc⟩ := mem_selectLedger.mp hrow
    have hkey : RowKey.ledger row.roomTypeId row.date ∈ L' := by
      rw [hrt]
      exact hlocked row.date hd
    refine ⟨hkey, ?_⟩
    rw [← h'.inside s' hA' _ _ hkey, hrt]
    exact hc
  · have hdates := nodup_map_date_selectLedger rt
      ((selectLedger rt nights (w' s)).map (·.date)) (w' s')
    refine List.Nodup.of_map Prod.snd ?_
    rw [List.map_map]
    exact hdates

/-- Writing one row leaves the versions of the others. -/
theorem RowsHeld.tail {row : AvailabilityLedger} {rest : List AvailabilityLedger} {c : Counts}
    (h : RowsHeld L v (row :: rest)) :
    RowsHeld L (fun r x => if r = row.roomTypeId ∧ x = row.date then some c else v r x) rest where
  row row' hrow' := by
    obtain ⟨hkey, hc⟩ := h.row row' (List.mem_cons_of_mem _ hrow')
    refine ⟨hkey, ?_⟩
    rw [if_neg ?_]
    · exact hc
    · rintro ⟨hrt, hd⟩
      apply (List.nodup_cons.mp h.nodup).1
      exact List.mem_map.mpr ⟨row', hrow', by rw [hrt, hd]⟩
  nodup := (List.nodup_cons.mp h.nodup).2

/-- A loop that writes each of its locked rows within the total, or stops. -/
theorem ok_forEach_rows {rows : List AvailabilityLedger} {f : AvailabilityLedger → Tx Unit}
    {P : AvailabilityLedger → Prop} (h : Holding ι L w A v) (hrows : RowsHeld L v rows)
    (hP : ∀ row ∈ rows, P row)
    (hstep : ∀ row w v, P row → Holding ι L w A v → RowKey.ledger row.roomTypeId row.date ∈ L →
      v row.roomTypeId row.date = some row.counts →
      Ok (claimDiscipline ι) i (f row) o L w A fun _ o' L' w' A' => o' = o ∧ L' = L ∧ A' = A ∧
        ∃ c, Holding ι L w' A
          (fun r x => if r = row.roomTypeId ∧ x = row.date then some c else v r x)) :
    Ok (claimDiscipline ι) i (forEach rows f) o L w A fun _ _ L' w' A' => HoldingSome ι L' w' A' := by
  induction rows generalizing w v with
  | nil => exact ⟨v, h⟩
  | cons row rest ih =>
    obtain ⟨hkey, hc⟩ := hrows.row row (List.mem_cons_self ..)
    apply ok_bind
    refine (hstep row w v (hP row (List.mem_cons_self ..)) h hkey hc).mono ?_
    rintro r o' L' w' A' ⟨rfl, rfl, rfl, c, h'⟩
    cases r with
    | ok u => exact ih h' hrows.tail fun x hx => hP x (List.mem_cons_of_mem _ hx)
    | error e => exact ⟨_, h'⟩

theorem ok_increment {rows : List AvailabilityLedger} (h : Holding ι L w A v)
    (hrows : RowsHeld L v rows) (hroom : ∀ row ∈ rows, 1 ≤ availableRooms row) :
    Ok (claimDiscipline ι) i (incrementBookedRooms rows 1) o L w A
      fun _ _ L' w' A' => HoldingSome ι L' w' A' := by
  refine ok_forEach_rows h hrows hroom ?_
  intro row w v havail h hkey hc
  refine ⟨rfl, rfl, rfl, { row.counts with bookedRooms := row.counts.bookedRooms + 1 }, ?_⟩
  refine h.writeRow (f := fun c => { c with bookedRooms := row.counts.bookedRooms + 1 })
    hkey hc rfl ?_ fun db => rfl
  rw [availableRooms, Counts.available] at havail
  change row.counts.bookedRooms + 1 + row.counts.blockedRooms ≤ row.counts.totalRooms
  omega

theorem ok_decrement {rows : List AvailabilityLedger} (h : Holding ι L w A v)
    (hrows : RowsHeld L v rows) :
    Ok (claimDiscipline ι) i (decrementBookedRooms rows 1) o L w A
      fun _ _ L' w' A' => HoldingSome ι L' w' A' := by
  refine ok_forEach_rows (P := fun _ => True) h hrows (fun _ _ => trivial) ?_
  intro row w v _ h hkey hc
  have hfits := h.fits _ _ _ hkey hc
  have hnew : Holding ι L ((fun db => db.setBooked row.roomTypeId row.date
      (row.counts.bookedRooms - 1)) ∘ w) A
      (fun r x => if r = row.roomTypeId ∧ x = row.date then
        some { row.counts with bookedRooms := row.counts.bookedRooms - 1 } else v r x) := by
    refine h.writeRow (f := fun c => { c with bookedRooms := row.counts.bookedRooms - 1 })
      hkey hc rfl ?_ fun db => rfl
    change row.counts.bookedRooms - 1 + row.counts.blockedRooms ≤ row.counts.totalRooms
    omega
  apply ok_bind
  unfold raiseIf
  split
  · exact ⟨rfl, rfl, rfl, _, hnew⟩
  · exact ⟨rfl, rfl, rfl, _, hnew⟩

/-- The lock, the check and what follows it. -/
theorem ok_lockAndValidate {n : ℤ} (rt : UUID) (nights : List ℤ) (h : HoldingSome ι L w A) :
    Ok (claimDiscipline ι) i (lockAndValidateAvailability rt nights n) o L w A
      fun r _ L' w' A' => HoldingSome ι L' w' A' ∧ ∀ rows, r = .ok rows →
        ∃ v', Holding ι L' w' A' v' ∧ RowsHeld L' v' rows ∧
          ∀ row ∈ rows, n ≤ availableRooms row := by
  unfold lockAndValidateAvailability
  split
  · obtain ⟨v, h⟩ := h
    refine ⟨⟨v, h⟩, ?_⟩
    intro rows hrows
    cases hrows
    exact ⟨v, h, ⟨by simp, by simp⟩, by simp⟩
  · apply ok_bind
    refine (ok_selectForUpdate rt nights h).mono ?_
    rintro r o' L' w' A' ⟨rows, v', rfl, h', hrows⟩
    simp only
    apply ok_bind
    unfold raiseIf
    split
    · exact ⟨⟨v', h'⟩, fun _ => of_error_eq_ok⟩
    · apply ok_bind
      split
      · exact ⟨⟨v', h'⟩, fun _ => of_error_eq_ok⟩
      · next hroom =>
        refine ⟨⟨v', h'⟩, ?_⟩
        intro rows' hrows'
        cases hrows'
        refine ⟨v', h', hrows, ?_⟩
        intro row hrow
        by_contra hlt
        exact hroom ⟨row, hrow, not_le.mp hlt⟩

end Rows

/-! The services -/

section Services
variable {ι : Type} {i : ι}

/-- However the program ends, its locked rows are within their totals. -/
abbrev Safe (i : ι) {α : Type} (p : Tx α) : Prop :=
  Carries (claimDiscipline ι) i (HoldingSome ι) p

theorem safe_writes {α : Type} {W : (Db → Db) → Prop} {p : Tx α}
    (hW : ∀ {f}, W f → ∀ db, (f db).ledger = db.ledger) (h : Writes W p) : Safe i p :=
  carries_of_writes holding_carried (fun hf _ _ _ ⟨v, h⟩ => ⟨v, h.quiet (hW hf)⟩) h

theorem safe_select {α : Type} (q : Db → α) : Safe i (select q) :=
  carries_select holding_carried q

theorem safe_rows {α : Type} {p : Tx α} (h : Writes RowWrite p) : Safe i p :=
  safe_writes (fun hf => hf.ledger) h

theorem safe_plain {α : Type} {p : Tx α} (h : Writes PlainWrite p) : Safe i p :=
  safe_rows (rows_of_plain h)

theorem safe_inserts {α : Type} {p : Tx α} (h : Writes InsertWrite p) : Safe i p :=
  safe_writes (fun hf => hf.ledger) h

theorem safe_marks {α : Type} {p : Tx α} (h : Writes RevisionWrite p) : Safe i p :=
  safe_writes (fun hf => hf.ledger) h

/-- What follows a lock may use the rows that it returned. -/
theorem safe_locked {n : ℤ} {rt : UUID} {nights : List ℤ} {β : Type}
    {q : List AvailabilityLedger → Tx β}
    (hq : ∀ o L w A v rows, Holding ι L w A v → RowsHeld L v rows →
      (∀ row ∈ rows, n ≤ availableRooms row) →
      Ok (claimDiscipline ι) i (q rows) o L w A fun _ _ L w A => HoldingSome ι L w A) :
    Safe i (lockAndValidateAvailability rt nights n >>= q) := by
  refine ⟨fun o L w A h => ok_bind ((ok_lockAndValidate rt nights h).mono ?_)⟩
  rintro r o' L' w' A' ⟨h', hrows⟩
  cases r with
  | ok rows =>
    obtain ⟨v', hv, hheld, hroom⟩ := hrows rows rfl
    exact hq o' L' w' A' v' rows hv hheld hroom
  | error e => exact h'

theorem safe_release {lines : List BookingLine} : Safe i (releaseBookingInventory lines) := by
  unfold releaseBookingInventory
  split
  · exact safe_locked fun _ _ _ _ _ _ h hrows _ => ok_decrement h hrows
  · exact carries_pure _

theorem safe_giveBack {rt : UUID} {nights : List ℤ} {β : Type} {rest : Tx β}
    (hrest : Safe i rest) :
    Safe i (lockAndValidateAvailability rt nights 0 >>= fun rows =>
      decrementBookedRooms rows 1 >>= fun _ => rest) := by
  exact safe_locked fun o L w A v rows h hrows _ =>
    Carries.then (ok_decrement h hrows) fun _ => hrest

theorem safe_take {rt : UUID} {nights : List ℤ} {β : Type} {rest : Tx β} (hrest : Safe i rest) :
    Safe i (lockAndValidateAvailability rt nights 1 >>= fun rows =>
      incrementBookedRooms rows 1 >>= fun _ => rest) := by
  exact safe_locked fun o L w A v rows h hrows hroom =>
    Carries.then (ok_increment h hrows hroom) fun _ => hrest

/-- The conditional UPDATE raises the counters of the rows that have room. -/
theorem safe_claim {rt : UUID} {nights : List ℤ} :
    Safe i (claimAvailabilityForNewBooking rt nights 1) := by
  unfold claimAvailabilityForNewBooking
  split
  · exact carries_pure _
  · refine carries_bind (carries_raiseIf _) fun _ => carries_bind (safe_select _) fun _ =>
      carries_bind (carries_raiseIf _) fun _ => ?_
    refine ⟨fun o L w A h => ok_bind ((ok_selectForUpdate rt nights h).mono ?_)⟩
    rintro r o' L' w' A' ⟨rows, v', rfl, h', hrows⟩
    refine Carries.then (ok_increment h' (hrows.filter _) ?_) fun _ => carries_raiseIf _
    intro row hrow
    have hroom := (List.mem_filter.mp hrow).2
    rw [decide_eq_true_eq] at hroom
    rw [availableRooms, Counts.available]
    omega

theorem safe_override {body : AvailabilityOverridePutRequest} :
    Safe i (applyBlockedRoomsOverride body) := by
  refine carries_bind (carries_raiseIf _) fun _ => ?_
  simp only
  split
  · exact carries_pure _
  · refine ⟨fun o L w A h => ok_bind ((ok_selectForUpdate _ _ h).mono ?_)⟩
    rintro r o' L' w' A' ⟨rows, v', rfl, h', hrows⟩
    simp only
    apply ok_bind
    unfold raiseIf
    split
    · exact ⟨v', h'⟩
    · refine Carries.then (ok_forEach_rows (P := fun _ => True) h' hrows (fun _ _ => trivial) ?_)
        fun _ => carries_pure _
      intro row w v _ h hkey hc
      apply ok_bind
      split
      · refine ⟨rfl, rfl, rfl, row.counts, ?_⟩
        have hsame : (fun r x => if r = row.roomTypeId ∧ x = row.date then some row.counts
            else v r x) = v := by
          funext r x
          split
          · next hkey => rw [hkey.1, hkey.2, hc]
          · rfl
        rw [hsame]
        exact h
      · next hblock =>
        refine ⟨rfl, rfl, rfl, { row.counts with blockedRooms := body.blockedRooms }, ?_⟩
        refine h.writeRow (f := fun c => { c with blockedRooms := body.blockedRooms })
          hkey hc rfl ?_ fun db => rfl
        change row.counts.bookedRooms + body.blockedRooms ≤ row.counts.totalRooms
        omega

theorem safe_createBooking {env : Env} {body : BookingCreateRequest} :
    Safe i (createBooking env body) :=
  carries_bind (carries_ofExcept _) fun _ => carries_bind (safe_select _) fun _ =>
    carries_bind (carries_raiseIf _) fun _ =>
      carries_bind (carries_bind (safe_select _) fun _ => carries_raiseIf _) fun _ =>
        carries_bind (carries_bind (safe_select _) fun _ => carries_raiseIf _) fun _ =>
          carries_bind (safe_plain plain_sumRates) fun _ => carries_bind safe_claim fun _ =>
            carries_bind (safe_plain plain_getOrCreateGuest) fun _ =>
              carries_bind (safe_inserts inserts_insertBooking) fun _ => carries_pure _

/-! Patch -/

theorem safe_checkTransition {old : BookingStatus} {target : String} :
    Safe i (checkTransition old target) := by
  unfold checkTransition
  exact carries_ofExcept _

theorem safe_patchCancel {b : Booking} : Safe i (patchCancel b) := by
  unfold patchCancel
  split
  · exact carries_bind safe_checkTransition fun _ => carries_bind safe_release fun _ =>
      (safe_plain plain_setStatus)
  · exact carries_pure _

theorem safe_checkInactive {b : Booking} {body : BookingPatchRequest} :
    Safe i (checkInactive b body) := by
  unfold checkInactive
  split
  · exact carries_pure _
  · refine carries_bind ?_ fun _ => carries_raiseIf _
    unfold checkRequestedTransition
    split
    · exact carries_pure _
    · exact safe_checkTransition

theorem safe_rebookNights {env : Env} {b : Booking} {ratePlan rt : UUID} {ci co : ℤ}
    {notes : Option (Option String)} : Safe i (rebookNights env b ratePlan rt ci co notes) := by
  refine safe_giveBack (carries_bind (carries_tryCatch (safe_plain plain_sumRates) fun e => ?_)
    fun _ => carries_bind (carries_ofExcept _) fun _ => safe_take (safe_rows rows_rebuildLines))
  split <;> exact carries_raise _

theorem safe_patchDates {env : Env} {b : Booking} {body : BookingPatchRequest} :
    Safe i (patchDates env b body) := by
  unfold patchDates
  split
  · exact carries_pure _
  · refine carries_bind (carries_raiseIf _) fun _ => ?_
    simp only
    split
    · refine carries_bind (carries_raiseIf _) fun _ => carries_bind (carries_raiseIf _) fun _ => ?_
      split
      · unfold changeDates
        split
        · exact carries_raise _
        · split
          · refine carries_bind safe_rebookNights fun _ => ?_
            unfold restoreRoom
            split
            · exact carries_pure _
            · exact carries_bind (safe_plain plain_assignBookingRoom) fun _ =>
                carries_bind (safe_select _) fun _ => carries_pure _
          · exact carries_raise _
      · exact carries_pure _
    · exact carries_raise _

theorem safe_patchRoomAssignment {bid : UUID} {body : BookingPatchRequest} {pl : PatchLines} :
    Safe i (patchRoomAssignment bid body pl) := by
  unfold patchRoomAssignment
  split
  · exact carries_pure _
  · refine carries_bind (safe_plain plain_assignBookingRoom) fun _ => ?_
    split
    · exact carries_pure _
    · exact carries_bind (safe_select _) fun _ => carries_pure _

theorem safe_patchStatus {env : Env} {b : Booking} {body : BookingPatchRequest}
    {pl : PatchLines} : Safe i (patchStatus env b body pl) := by
  unfold patchStatus
  split
  · exact carries_pure _
  · refine carries_bind safe_checkTransition fun _ => carries_bind (carries_runIf ?_) fun _ =>
      carries_bind (carries_runIf ?_) fun _ =>
        carries_bind (carries_runIf (safe_plain plain_setStatus)) fun _ => carries_pure _
    · refine carries_bind (safe_select _) fun guest => ?_
      split
      · exact carries_raise _
      · exact carries_raiseIf _
    · unfold releaseLoaded
      split
      · exact carries_raise _
      · exact safe_release

theorem safe_checkoutWarning {b : Booking} {status : BookingStatus} {pl : PatchLines} :
    Safe i (checkoutWarning b status pl) := by
  unfold checkoutWarning
  split
  · exact carries_bind (safe_plain plain_markDirty) fun _ =>
      carries_bind (safe_select _) fun _ => carries_pure _
  · exact carries_pure _

theorem safe_patchBooking {env : Env} {bid : UUID} {body : BookingPatchRequest} :
    Safe i (patchBooking env bid body) := by
  unfold patchBooking
  split
  · exact carries_pure _
  · refine carries_bind (safe_select _) fun found => ?_
    split
    · exact carries_raise _
    · split
      · exact carries_bind (safe_plain plain_patchNotes) fun _ => carries_pure _
      · split
        · exact carries_bind safe_patchCancel fun _ =>
            carries_bind (safe_plain plain_patchNotes) fun _ => carries_pure _
        · exact carries_bind safe_checkInactive fun _ => carries_bind safe_patchDates fun _ =>
            carries_bind safe_patchRoomAssignment fun _ => carries_bind safe_patchStatus fun _ =>
              carries_bind safe_checkoutWarning fun _ =>
                carries_bind (safe_rows rows_flushRoomCharge) fun _ =>
                  carries_bind (safe_plain plain_patchNotes) fun _ => carries_pure _

/-! Ingest -/

theorem safe_ingestCancelled {rev : Revision} : Safe i (ingestCancelled rev) := by
  refine carries_bind (safe_select _) fun found => ?_
  split
  · exact (safe_marks marks_failRevision)
  · split
    · exact carries_bind safe_release fun _ => carries_bind (safe_plain plain_setStatus) fun _ =>
        carries_bind (safe_marks marks_updateRevision) fun _ => carries_pure _
    · exact carries_bind (safe_marks marks_updateRevision) fun _ => carries_pure _

theorem safe_ingestModified {env : Env} {rev : Revision} : Safe i (ingestModified env rev) := by
  refine carries_bind (safe_select _) fun found => ?_
  split
  · exact (safe_marks marks_failRevision)
  · split
    · refine safe_giveBack (safe_take ?_)
      exact carries_bind (safe_plain plain_deleteLines) fun _ =>
        carries_bind (safe_rows rows_updatePlanAndTotal) fun _ =>
          carries_bind (safe_plain plain_flushLines) fun _ =>
            carries_bind (safe_rows rows_replaceTaxes) fun _ =>
              carries_bind (safe_rows rows_folioCharge) fun _ =>
                carries_bind (safe_plain plain_updateGuest) fun _ =>
                  carries_bind (safe_marks marks_updateRevision) fun _ => carries_pure _
    · exact (safe_marks marks_failRevision)

theorem safe_ingestNew {env : Env} {rev : Revision} : Safe i (ingestNew env rev) := by
  refine carries_bind (safe_select _) fun existing => ?_
  split
  · exact carries_bind (safe_marks marks_updateRevision) fun _ => carries_pure _
  · refine safe_take (carries_bind (safe_plain plain_getOrCreateGuest) fun guest => ?_)
    refine carries_bind (safe_rows (writes_modify ?_)) fun _ =>
      carries_bind (safe_inserts inserts_insertBooking) fun _ =>
        carries_bind (safe_marks marks_updateRevision) fun _ => carries_pure _
    exact ⟨fun _ => rfl, fun _ => rfl, fun _ => rfl, fun _ => rfl⟩

theorem safe_applyRevision {env : Env} {kind : RevisionKind} {rev : Revision} :
    Safe i (applyRevision env kind rev) := by
  refine carries_tryCatch ?_ fun e => safe_marks (marks_handleIngestError e)
  cases kind with
  | cancelled => exact safe_ingestCancelled
  | modified => exact safe_ingestModified
  | new => exact safe_ingestNew

theorem safe_ingestMapped {env : Env} {link : ChannexPropertyLink} {rid : String}
    {payload : ChannexBookingRevisionPayload} {roomTypeId ratePlanId : UUID} :
    Safe i (ingestMapped env link rid payload roomTypeId ratePlanId) := by
  unfold ingestMapped
  simp only
  split
  · split
    · exact (safe_marks marks_failRevision)
    · refine carries_bind (carries_ofExcept _) fun nights => ?_
      split
      · exact (safe_marks marks_failRevision)
      · refine carries_bind (carries_ofExcept _) fun total => ?_
        refine carries_bind (carries_ofExcept _) fun guest => ?_
        exact safe_applyRevision
  · exact (safe_marks marks_failRevision)

theorem safe_ingestClaimed {env : Env} {link : ChannexPropertyLink}
    {payload : ChannexBookingRevisionPayload} : Safe i (ingestClaimed env link payload) := by
  unfold ingestClaimed
  split
  · exact (safe_marks marks_failRevision)
  · refine carries_bind (safe_plain plain_resolveMaps) fun maps => ?_
    split
    · exact (safe_marks marks_failRevision)
    · exact safe_ingestMapped

theorem safe_ingest {env : Env} {link : ChannexPropertyLink}
    {flat : Option ChannexBookingRevisionPayload} : Safe i (ingestChannexBooking env link flat) := by
  unfold ingestChannexBooking ingestInSession
  split
  · exact carries_pure _
  · simp only
    split
    · exact carries_pure _
    · refine carries_bind (safe_marks marks_claimRevisionRow) fun claimed => ?_
      split
      · exact carries_pure _
      · exact safe_ingestClaimed

end Services

/-! Any number of transactions -/

/-- The operations that claim or block rooms. -/
def Op.ClaimsRooms : Op → Prop
  | createBooking _ _ => True
  | patchBooking _ _ _ => True
  | ingest _ _ _ => True
  | override _ => True
  | _ => False

theorem Op.ClaimsRooms.disciplined {ι : Type} (i : ι) {op : Op} (h : op.ClaimsRooms) :
    Disciplined (claimDiscipline ι) i op.prog := by
  have hsafe : Safe i op.prog := by
    cases op with
    | createBooking env body => exact carries_bind safe_createBooking fun _ => carries_pure _
    | patchBooking env bid body => exact carries_bind safe_patchBooking fun _ => carries_pure _
    | ingest env link flat => exact carries_bind safe_ingest fun _ => carries_pure _
    | override body => exact carries_bind safe_override fun _ => carries_pure _
    | _ => exact h.elim
  refine (hsafe.ok [] ∅ id _ ⟨_, holding_start⟩).mono ?_
  rintro r o L w A ⟨v, hv⟩ a - s hs hA -
  exact hv.commits hs hA

/-- In every interleaving of any number of claims no row is booked and blocked beyond
its total. -/
theorem claims_within_totals {ι : Type} [DecidableEq ι] {db : Db} {ops : ι → Op}
    (hdb : WithinTotals db) (hops : ∀ i, (ops i).ClaimsRooms)
    {c : Config Db RowKey Err Unit ι}
    (hc : Config.Reach .any (Config.start db fun i => (ops i).prog) c) : WithinTotals c.db :=
  inv_of_reach (D := claimDiscipline ι) hdb (fun i => (hops i).disciplined i) hc

/-- The small hotel with a ledger row for the third day only. -/
def Demo.oneNight (rooms : ℤ) : Db :=
  { run (.empty 0) openHotel with ledger := Ledger.empty.upsert 10 [3] ⟨rooms, 0, 0⟩ id }

theorem Demo.oneNight_within {rooms : ℤ} (h : 0 ≤ rooms) :
    WithinTotals (Demo.oneNight rooms) := by
  intro rt d c hc
  have hrow : (Ledger.empty.upsert 10 [3] ⟨rooms, 0, 0⟩ id).row rt d = some c := hc
  rw [Ledger.upsert_row] at hrow
  split at hrow
  · cases hrow
    exact h
  · cases hrow

/-- Two requests for the last room. -/
def Demo.lastRoom (i : Bool) : Op := .createBooking (env (if i then 1001 else 1000) 0 0) stay

/-- The first one has read everything but the locked row when the second commits. -/
def Demo.lastRoomRace : List (Event Bool) :=
  List.replicate 6 (.step false) ++ List.replicate 29 (.step true) ++
    List.replicate 3 (.step false)

theorem claims_within_totals_demo :
    ∃ c, (Config.start (Demo.oneNight 1) fun i => (Demo.lastRoom i).prog).run
        Demo.lastRoomRace = some c ∧
      c.db.ledger.row 10 3 = some ⟨1, 1, 0⟩ ∧ WithinTotals c.db := by
  have hrow : ((Config.start (Demo.oneNight 1) fun i => (Demo.lastRoom i).prog).run
      Demo.lastRoomRace).map (fun c => c.db.ledger.row 10 3) = some (some ⟨1, 1, 0⟩) := by
    decide +kernel
  obtain ⟨c, hrun, hc⟩ := Option.map_eq_some_iff.mp hrow
  have hops : ∀ i, (Demo.lastRoom i).ClaimsRooms := fun _ => trivial
  exact ⟨c, hrun, hc, claims_within_totals (Demo.oneNight_within (by decide)) hops
    (Config.reach_of_run hrun)⟩

end OpenPms
