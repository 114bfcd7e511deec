import OpenPms.PatchErrors

/-!
When a patch of dates, room and status does what the three requests do one after another.
It differs in three ways: a no-show after new dates meets lines that have expired, a
check-out marks the rooms that the lines had before, and its balance is read before the
room charge of new dates is written.
-/
namespace OpenPms

open KeyedTable Transaction Prog Hotel

/-! Checking out -/

def balanceWarning (balance : Money) : Option Money := if balance ≠ 0 then some balance else none

theorem balanceWarning_injective {x y : Money} (h : balanceWarning x = balanceWarning y) :
    x = y := by
  unfold balanceWarning at h
  by_cases hx : x = 0
  · by_cases hy : y = 0
    · rw [hx, hy]
    · simp [hx, hy] at h
  · by_cases hy : y = 0
    · simp [hx, hy] at h
    · simpa [hx, hy] using h

def Db.dirtied (rooms : List UUID) (db : Db) : Db :=
  { db with rooms := db.rooms.updateAll (markRoomDirty rooms) (id_markRoomDirty rooms) }

section Finish
variable {env : Env} {db db' : Db} {b b₁ : Booking} {body : BookingPatchRequest} {pl : PatchLines}

theorem exec_checkoutWarning (b : Booking) (s : BookingStatus) (pl : PatchLines) (db : Db) :
    (checkoutWarning b s pl).exec db =
      if s = .checkedOut ∧ b.status ≠ .checkedOut then
        (.ok (balanceWarning (computeFolioBalance b.id db)), db.dirtied pl.flushedRooms)
      else (.ok none, db) := by
  unfold checkoutWarning
  split
  · rfl
  · rfl

/-- After the status the patch has only its check-out and the room charge to do. -/
theorem exec_finishPatch {s : BookingStatus}
    (h : (patchStatus env b body pl).exec db = (.ok s, db'))
    (htakes : ∀ amount ∈ pl.roomCharge, db'.TakesCharge b.id amount) :
    (finishPatch env b body pl).exec db =
      if s = .checkedOut ∧ b.status ≠ .checkedOut then
        (.ok (balanceWarning (computeFolioBalance b.id db')),
          (db'.dirtied pl.flushedRooms).charged b.id pl.roomCharge)
      else (.ok none, db'.charged b.id pl.roomCharge) := by
  have hwarn := exec_checkoutWarning b s pl db'
  by_cases hout : s = .checkedOut ∧ b.status ≠ .checkedOut
  · rw [if_pos hout] at hwarn ⊢
    exact exec_bind_ok.mpr ⟨s, db', h, exec_bind_ok.mpr ⟨_, _, hwarn,
      exec_bind_ok.mpr ⟨(), _, exec_flushRoomCharge_iff.mpr ⟨htakes, rfl⟩, rfl⟩⟩⟩
  · rw [if_neg hout] at hwarn ⊢
    exact exec_bind_ok.mpr ⟨s, db', h, exec_bind_ok.mpr ⟨_, _, hwarn,
      exec_bind_ok.mpr ⟨(), _, exec_flushRoomCharge_iff.mpr ⟨htakes, rfl⟩, rfl⟩⟩⟩

/-- Marking two lists of rooms makes the same rooms dirty when they differ by deleted and
dirty rooms only. -/
theorem dirtied_eq_iff {t : Table Room.id} {rooms rooms' : List UUID} :
    t.updateAll (markRoomDirty rooms) (id_markRoomDirty rooms) =
        t.updateAll (markRoomDirty rooms') (id_markRoomDirty rooms') ↔
      ∀ r ∈ t.rows, r.deleted = false → r.housekeepingStatus ≠ "dirty" →
        (r.id ∈ rooms ↔ r.id ∈ rooms') := by
  have hrows : t.updateAll (markRoomDirty rooms) (id_markRoomDirty rooms) =
      t.updateAll (markRoomDirty rooms') (id_markRoomDirty rooms') ↔
      t.rows.map (markRoomDirty rooms) = t.rows.map (markRoomDirty rooms') :=
    ⟨fun h => congrArg Table.rows h, fun h => Table.ext_rows h⟩
  rw [hrows, List.map_inj_left]
  refine forall₂_congr fun r _ => ?_
  have hmark : ∀ rooms, markRoomDirty rooms r =
      { r with housekeepingStatus :=
        if r.id ∈ rooms ∧ r.deleted = false then "dirty" else r.housekeepingStatus } := by
    intro rooms
    unfold markRoomDirty
    split
    · rfl
    · rfl
  rw [hmark rooms, hmark rooms', Room.mk.injEq]
  simp only [true_and]
  by_cases hdeleted : r.deleted = false
  · by_cases hdirty : r.housekeepingStatus = "dirty"
    · simp [hdirty]
    · have hne : ¬ "dirty" = r.housekeepingStatus := Ne.symm hdirty
      by_cases hin : r.id ∈ rooms
      · by_cases hin' : r.id ∈ rooms'
        · simp [hin, hin']
        · simp [hin, hin', hdeleted, hdirty, hne]
      · by_cases hin' : r.id ∈ rooms'
        · simp [hin, hin', hdeleted, hdirty]
        · simp [hin, hin']
  · simp [hdeleted]

end Finish

/-! The balance -/

section Balance
variable {p q : FolioTransaction → Bool} {folio : List FolioTransaction} {bid : UUID}

theorem setFirstAmount_of_none {x : Money} (hnone : ¬ ∃ ft ∈ folio, p ft = true) :
    setFirstAmount p x folio = folio := by
  have hall : ∀ ft ∈ folio, ¬ p ft = true := fun ft hft hp => hnone ⟨ft, hft, hp⟩
  have happend := @setFirstAmount_append p x [] folio hall
  rwa [List.nil_append] at happend

/-- The sum of rows among which the first of a kind takes an amount. -/
theorem sum_setFirstAmount (hpq : ∀ ft, p ft = true → q ft = true)
    (hamount : ∀ ft (x : Money), q { ft with amount := x } = q ft)
    (hrow : ∃ ft ∈ folio, p ft = true) :
    ∃ c : Money, ∀ x,
      (((setFirstAmount p x folio).filter q).map (·.amount)).sum = x + c := by
  induction folio with
  | nil =>
    obtain ⟨ft, hmem, -⟩ := hrow
    cases hmem
  | cons ft rest ih =>
    by_cases hft : p ft = true
    · refine ⟨((rest.filter q).map (·.amount)).sum, fun x => ?_⟩
      have hkeep : q { ft with amount := x } = true := (hamount ft x).trans (hpq ft hft)
      rw [setFirstAmount_pos hft, List.filter_cons_of_pos hkeep, List.map_cons, List.sum_cons]
    · have hrest : ∃ u ∈ rest, p u = true := by
        obtain ⟨u, hu, hpu⟩ := hrow
        rcases List.mem_cons.mp hu with rfl | hu
        · exact absurd hpu hft
        · exact ⟨u, hu, hpu⟩
      obtain ⟨c, hc⟩ := ih hrest
      by_cases hkeep : q ft = true
      · refine ⟨ft.amount + c, fun x => ?_⟩
        rw [setFirstAmount_neg hft, List.filter_cons_of_pos hkeep, List.map_cons, List.sum_cons,
          hc x, add_left_comm]
      · refine ⟨c, fun x => ?_⟩
        rw [setFirstAmount_neg hft, List.filter_cons_of_neg hkeep, hc x]

theorem sum_ne_top_iff {amounts : List Money} : amounts.sum ≠ ⊤ ↔ ∀ x ∈ amounts, x ≠ ⊤ := by
  induction amounts with
  | nil => simp
  | cons x rest ih =>
    rw [List.sum_cons, WithTop.add_ne_top, ih, List.forall_mem_cons]

theorem sub_ne_top_iff {x y : Money} : x.sub y ≠ ⊤ ↔ x ≠ ⊤ ∧ y ≠ ⊤ := by
  cases x using WithTop.recTopCoe with
  | top =>
    have hsub : (⊤ : Money).sub y = ⊤ := by cases y using WithTop.recTopCoe <;> rfl
    simp [hsub]
  | coe a =>
    cases y using WithTop.recTopCoe with
    | top => simp [Money.sub]
    | coe c => simp [Money.sub]

/-- Amounts tell balances apart unless a NaN swallows them. -/
theorem add_sub_ne_iff {x y c d : Money} :
    (x + c).sub d ≠ (y + c).sub d ↔ x ≠ y ∧ c ≠ ⊤ ∧ d ≠ ⊤ := by
  have hsub : ∀ z : Money, z.sub ⊤ = ⊤ := by
    intro z
    cases z using WithTop.recTopCoe <;> rfl
  constructor
  · intro h
    refine ⟨fun heq => h (by rw [heq]), fun hc => h ?_, fun hd => h ?_⟩
    · rw [hc, add_top, add_top]
    · rw [hd, hsub, hsub]
  · rintro ⟨hne, hc, hd⟩ heq
    obtain ⟨m, rfl⟩ := WithTop.ne_top_iff_exists.mp hc
    obtain ⟨n, rfl⟩ := WithTop.ne_top_iff_exists.mp hd
    cases x using WithTop.recTopCoe with
    | top =>
      have htop : (y + (m : Money)).sub (n : Money) = ⊤ := heq.symm
      have hy : y = ⊤ := by
        by_contra hy
        exact sub_ne_top_iff.mpr ⟨WithTop.add_ne_top.mpr ⟨hy, hc⟩, hd⟩ htop
      exact hne hy.symm
    | coe a =>
      cases y using WithTop.recTopCoe with
      | top => exact absurd heq (by simp [Money.sub, ← WithTop.coe_add])
      | coe e =>
        have hints : ((a + m - n : ℤ) : Money) = ((e + m - n : ℤ) : Money) := heq
        have hae : a = e := by
          have hsame := WithTop.coe_injective hints
          omega
        exact hne (by rw [hae])

/-- The room charge shows in the balance unless another row of the booking is a NaN. -/
theorem balance_setFirst_ne_iff {x y : Money} {db₁ db₂ : Db}
    (hrow : ∃ ft ∈ folio, isRoomCharge bid ft = true)
    (h₁ : db₁.folio = setFirstAmount (isRoomCharge bid) x folio)
    (h₂ : db₂.folio = setFirstAmount (isRoomCharge bid) y folio) :
    computeFolioBalance bid db₁ ≠ computeFolioBalance bid db₂ ↔
      x ≠ y ∧ ∀ ft ∈ setFirstAmount (isRoomCharge bid) 0 folio, ft.bookingId = bid →
        ft.amount ≠ ⊤ := by
  have hcharge : ∀ ft : FolioTransaction, isRoomCharge bid ft = true →
      (ft.bookingId = bid && ft.transactionType = .charge) = true := by
    intro ft hft
    simp only [isRoomCharge, Bool.and_eq_true] at hft ⊢
    exact hft.1
  obtain ⟨c, hc⟩ := sum_setFirstAmount hcharge (fun _ _ => rfl) hrow
  have hpaid : ∀ z, (setFirstAmount (isRoomCharge bid) z folio).filter
      (fun ft => ft.bookingId = bid && ft.transactionType = .payment) =
        folio.filter fun ft => ft.bookingId = bid && ft.transactionType = .payment := by
    intro z
    refine filter_setFirstAmount_of_not (fun ft hft => ?_) fun _ => rfl
    have htype := hcharge ft hft
    simp only [Bool.and_eq_true, decide_eq_true_eq] at htype
    simp [htype.2]
  have hclean : (c ≠ ⊤ ∧ ((folio.filter fun ft => ft.bookingId = bid &&
      ft.transactionType = .payment).map (·.amount)).sum ≠ ⊤) ↔
      ∀ ft ∈ setFirstAmount (isRoomCharge bid) 0 folio, ft.bookingId = bid → ft.amount ≠ ⊤ := by
    rw [← hpaid 0, ← zero_add c, ← hc 0, sum_ne_top_iff, sum_ne_top_iff]
    simp only [List.forall_mem_map, List.mem_filter, Bool.and_eq_true, decide_eq_true_eq]
    constructor
    · rintro ⟨hcharges, hpayments⟩ ft hmem hbid
      cases htype : ft.transactionType with
      | charge => exact hcharges ft ⟨hmem, hbid, htype⟩
      | payment => exact hpayments ft ⟨hmem, hbid, htype⟩
    · intro hall
      exact ⟨fun ft h => hall ft h.1 h.2.1, fun ft h => hall ft h.1 h.2.1⟩
  rw [← hclean, computeFolioBalance, computeFolioBalance, h₁, h₂]
  simp only [hc, hpaid]
  exact add_sub_ne_iff

end Balance

/-! Where the patch differs from its parts -/

section Differs
variable {env : Env} {db db' : Db} {b b₁ : Booking} {body : BookingPatchRequest} {pl : PatchLines}
  {stay : PricedStay} {w : Option Money}

/-- The folio with the taxes of the new total, before the room charge takes an amount. -/
def retaxed (env : Env) (b : Booking) (stay : PricedStay) (db : Db) : List FolioTransaction :=
  withoutTaxes b.id db.folio ++ taxRows env b.id (posting env b.propertyId stay.total).2

theorem folio_rebooked : (db.rebooked env b stay).folio =
    setFirstAmount (isRoomCharge b.id) stay.total (retaxed env b stay db) := by
  have hfilter : withoutTaxes b.id (setFirstAmount (isRoomCharge b.id) stay.total db.folio) =
      setFirstAmount (isRoomCharge b.id) stay.total (withoutTaxes b.id db.folio) := by
    refine filter_setFirstAmount (fun ft hft => ?_) fun _ => rfl
    rw [not_tax_of_roomCharge (List.find?_some hft)]
    rfl
  rw [retaxed, setFirstAmount_append fun _ => roomCharge_of_mem_taxRows, ← hfilter]
  rfl

theorem roomCharge_retaxed : (∃ ft ∈ retaxed env b stay db, isRoomCharge b.id ft = true) ↔
    ∃ ft ∈ db.folio, isRoomCharge b.id ft = true := by
  constructor
  · rintro ⟨ft, hmem, hcharge⟩
    rcases List.mem_append.mp hmem with hmem | hmem
    · exact ⟨ft, List.mem_of_mem_filter hmem, hcharge⟩
    · exact absurd hcharge (roomCharge_of_mem_taxRows hmem)
  · rintro ⟨ft, hmem, hcharge⟩
    refine ⟨ft, List.mem_append_left _ (List.mem_filter.mpr ⟨hmem, ?_⟩), hcharge⟩
    rw [not_tax_of_roomCharge hcharge]
    rfl

/-- The room is there and not dirty yet. -/
def Clean (db : Db) (rid : UUID) : Prop :=
  ∃ r ∈ db.rooms.rows, r.id = rid ∧ r.deleted = false ∧ r.housekeepingStatus ≠ "dirty"

/-- The patch does not do what its parts do: a no-show of a booking that has no room again
after its new dates; a check-out with a clean room that is only among the former or only
among the new rooms of the lines; or one with new dates whose room charge is not the total. -/
inductive Differs (env : Env) (db : Db) (b : Booking) (body : BookingPatchRequest) : Prop
  | expired (stay : PricedStay) (hask : AsksFor b body stay) (hroom : roomAfterMove b body = none)
      (hstatus : AsksForNoShow body) (hconf : b.status = .confirmed)
  | roomChanged (hkeeps : KeepsDates b body) (hout : ChecksOut b body) (room : Option UUID)
      (hroom : body.roomId = some room) (rid : UUID) (hclean : Clean db rid)
      (hxor : ¬ (room = some rid ↔ ∃ ln ∈ b.lines, ln.roomId = some rid))
  | roomMoved (stay : PricedStay) (hask : AsksFor b body stay) (hout : ChecksOut b body)
      (rid : UUID) (hclean : Clean db rid) (hroom : roomAfterMove b body = some (some rid))
  | balance (stay : PricedStay) (ratePlan : UUID) (hask : AsksFor b body stay)
      (hplan : b.ratePlanId = some ratePlan) (hrated : stay.RatedBy ratePlan db)
      (hout : ChecksOut b body) (hrow : ∃ ft ∈ db.folio, isRoomCharge b.id ft = true)
      (hne : stay.total ≠ (posting env b.propertyId stay.total).1)
      (hsolid : ∀ ft ∈ setFirstAmount (isRoomCharge b.id) 0 (retaxed env b stay db),
        ft.bookingId = b.id → ft.amount ≠ ⊤)

/-- A request either keeps the dates or asks for others. -/
theorem AsksFor.not_keeps (hask : AsksFor b body stay) : ¬ KeepsDates b body := by
  rintro (⟨hci, hco⟩ | ⟨-, hbounds, hsame, -⟩)
  · exact hask.dates.elim (· hci) (· hco)
  · rw [hask.bounds] at hbounds
    cases hbounds
    exact hask.changed hsame

theorem mem_rooms_setRoom {room : Option UUID} {rid : UUID} (hlines : b.lines ≠ []) :
    rid ∈ (setRoom room b).lines.filterMap (·.roomId) ↔ room = some rid := by
  obtain ⟨ln, rest, hcons⟩ := List.exists_cons_of_ne_nil hlines
  simp only [setRoom, List.filterMap_map, List.mem_filterMap, Function.comp_apply]
  constructor
  · rintro ⟨ln, -, hroom⟩
    exact hroom
  · intro hroom
    exact ⟨ln, hcons ▸ List.mem_cons_self, hroom⟩

theorem stay_lines_ne_nil (stay : PricedStay) : stay.lines ≠ [] := by
  intro hnil
  have hrt := lineRoomTypes_stay stay
  rw [hnil] at hrt
  cases hrt

theorem rooms_stay (stay : PricedStay) : stay.lines.filterMap (·.roomId) = [] := by
  refine List.filterMap_eq_nil_iff.mpr fun ln hln => ?_
  obtain ⟨np, -, rfl⟩ := List.mem_map.mp hln
  rfl

theorem mem_rooms_moved {room : Option (Option UUID)} {rid : UUID} :
    rid ∈ ((setLines stay b.ratePlanId b).assigned room).lines.filterMap (·.roomId) ↔
      room = some (some rid) := by
  cases room with
  | none =>
    show rid ∈ stay.lines.filterMap (·.roomId) ↔ _
    rw [rooms_stay]
    simp
  | some r =>
    have hlines : (setLines stay b.ratePlanId b).lines ≠ [] := stay_lines_ne_nil stay
    rw [Booking.assigned, mem_rooms_setRoom hlines, Option.some.injEq]

/-! What has been prepared -/

theorem Prepared.id_eq (h : Prepared env db b body pl b₁ db') : b₁.id = b.id := by
  cases h with
  | kept hkeeps hlines => exact id_assigned
  | moved stay ratePlan hask hplan hrated => exact id_assigned

theorem Prepared.status_eq (h : Prepared env db b body pl b₁ db') : b₁.status = b.status := by
  cases h with
  | kept hkeeps hlines => exact status_assigned
  | moved stay ratePlan hask hplan hrated => exact status_assigned

theorem Prepared.propertyId_eq (h : Prepared env db b body pl b₁ db') :
    b₁.propertyId = b.propertyId := by
  cases h with
  | kept hkeeps hlines => exact propertyId_assigned
  | moved stay ratePlan hask hplan hrated => exact propertyId_assigned

theorem Prepared.guestId_eq (h : Prepared env db b body pl b₁ db') : b₁.guestId = b.guestId := by
  cases h with
  | kept hkeeps hlines => exact guestId_assigned
  | moved stay ratePlan hask hplan hrated => exact guestId_assigned

theorem Prepared.rooms_eq (h : Prepared env db b body pl b₁ db') : db'.rooms = db.rooms := by
  cases h with
  | kept hkeeps hlines => exact sameElsewhere_assigned.rooms
  | moved stay ratePlan hask hplan hrated => exact sameElsewhere_assigned.rooms

/-- The lines that are loaded are on the nights of the booking. -/
theorem Prepared.sameNights (h : Prepared env db b body pl b₁ db') {lines : List BookingLine}
    (hloaded : pl.loaded = some lines) : SameNights lines b₁.lines := by
  cases h with
  | kept hkeeps hlines =>
    cases hloaded
    exact (sameNights_assigned).symm
  | moved stay ratePlan hask hplan hrated =>
    obtain ⟨room, hroom, rfl⟩ := Option.map_eq_some_iff.mp hloaded
    rw [hroom]
    rfl

theorem Prepared.loaded_none (h : Prepared env db b body pl b₁ db') (hloaded : pl.loaded = none) :
    ∃ stay, AsksFor b body stay ∧ roomAfterMove b body = none := by
  cases h with
  | kept hkeeps hlines => cases hloaded
  | moved stay ratePlan hask hplan hrated =>
    exact ⟨stay, hask, Option.map_eq_none_iff.mp hloaded⟩

/-- The rooms that the check-out finds are not those of the lines exactly when one of them
is told apart in `Differs`. -/
theorem Prepared.rooms_differ_iff (h : Prepared env db b body pl b₁ db') :
    (∃ rid, Clean db rid ∧ ¬ (rid ∈ pl.flushedRooms ↔ rid ∈ b₁.lines.filterMap (·.roomId))) ↔
      (KeepsDates b body ∧ ∃ room, body.roomId = some room ∧ ∃ rid, Clean db rid ∧
        ¬ (room = some rid ↔ ∃ ln ∈ b.lines, ln.roomId = some rid)) ∨
      ∃ stay, AsksFor b body stay ∧ ∃ rid, Clean db rid ∧
        roomAfterMove b body = some (some rid) := by
  cases h with
  | kept hkeeps hlines =>
    have hnotAsks : ¬ ∃ stay, AsksFor b body stay ∧ ∃ rid, Clean db rid ∧
        roomAfterMove b body = some (some rid) := by
      rintro ⟨stay, hask, -⟩
      exact hask.not_keeps hkeeps
    rw [or_iff_left hnotAsks, and_iff_right hkeeps]
    cases hroom : body.roomId with
    | none => simp [Booking.assigned, PatchLines.ofBooking]
    | some room =>
      have hne : b.lines ≠ [] := hlines (by simp [hroom])
      have hmem : ∀ rid, rid ∈ ((b.assigned (some room)).lines.filterMap (·.roomId)) ↔
          room = some rid := fun rid => mem_rooms_setRoom hne
      have hold : ∀ rid, rid ∈ (PatchLines.ofBooking b).flushedRooms ↔
          ∃ ln ∈ b.lines, ln.roomId = some rid := fun rid => List.mem_filterMap
      simp only [hmem, hold, Option.some.injEq, exists_eq_left']
      refine exists_congr fun rid => and_congr_right fun _ => ?_
      exact not_congr iff_comm
  | moved stay ratePlan hask hplan hrated =>
    rw [or_iff_right fun hkept => hask.not_keeps hkept.1]
    simp only [mem_rooms_moved, List.not_mem_nil, false_iff, not_not]
    constructor
    · intro hrid
      exact ⟨stay, hask, hrid⟩
    · rintro ⟨_, _, hrid⟩
      exact hrid

/-- The balance before the room charge is not the one after it exactly when a date change
is taxed, as `Differs` says. -/
theorem Prepared.balance_differs_iff {dbs : Db} (h : Prepared env db b body pl b₁ db')
    (hfolio : dbs.folio = db'.folio) :
    computeFolioBalance b.id dbs ≠ computeFolioBalance b.id (dbs.charged b.id pl.roomCharge) ↔
      ∃ stay ratePlan, AsksFor b body stay ∧ b.ratePlanId = some ratePlan ∧
        stay.RatedBy ratePlan db ∧ (∃ ft ∈ db.folio, isRoomCharge b.id ft = true) ∧
        stay.total ≠ (posting env b.propertyId stay.total).1 ∧
        ∀ ft ∈ setFirstAmount (isRoomCharge b.id) 0 (retaxed env b stay db),
          ft.bookingId = b.id → ft.amount ≠ ⊤ := by
  cases h with
  | kept hkeeps hlines =>
    refine iff_of_false (fun hne => hne rfl) ?_
    rintro ⟨stay, ratePlan, hask, -⟩
    exact hask.not_keeps hkeeps
  | moved stay ratePlan hask hplan hrated =>
    have hbefore : dbs.folio =
        setFirstAmount (isRoomCharge b.id) stay.total (retaxed env b stay db) := by
      rw [hfolio, ← folio_rebooked]
      cases roomAfterMove b body <;> rfl
    have hafter : (dbs.charged b.id (some (posting env b.propertyId stay.total).1)).folio =
        setFirstAmount (isRoomCharge b.id) (posting env b.propertyId stay.total).1
          (retaxed env b stay db) := by
      show setFirstAmount _ _ dbs.folio = _
      rw [hbefore, setFirstAmount_again fun _ => rfl]
    have hunique : ∀ stay' ratePlan', AsksFor b body stay' → b.ratePlanId = some ratePlan' →
        stay'.RatedBy ratePlan' db → stay' = stay := by
      intro stay' ratePlan' hask' hplan' hrated'
      cases hplan.symm.trans hplan'
      have hbounds := hask.bounds.symm.trans hask'.bounds
      simp only [Prod.mk.injEq, Option.some.injEq] at hbounds
      have hrt := hask.roomType.symm.trans hask'.roomType
      simp only [List.cons.injEq, and_true] at hrt
      exact hrated.unique hrated' hrt.symm hbounds.1.symm hbounds.2.symm
    by_cases hrow : ∃ ft ∈ db.folio, isRoomCharge b.id ft = true
    · rw [balance_setFirst_ne_iff (roomCharge_retaxed.mpr hrow) hbefore hafter]
      constructor
      · rintro ⟨hne, hsolid⟩
        exact ⟨stay, ratePlan, hask, hplan, hrated, hrow, hne, hsolid⟩
      · rintro ⟨stay', ratePlan', hask', hplan', hrated', -, hne, hsolid⟩
        cases hunique stay' ratePlan' hask' hplan' hrated'
        exact ⟨hne, hsolid⟩
    · have hnone : ¬ ∃ ft ∈ retaxed env b stay db, isRoomCharge b.id ft = true :=
        fun hft => hrow (roomCharge_retaxed.mp hft)
      rw [setFirstAmount_of_none hnone] at hbefore hafter
      refine iff_of_false (fun hne => hne ?_) fun ⟨_, _, _, _, _, hft, _⟩ => hrow hft
      rw [computeFolioBalance, computeFolioBalance, hbefore, hafter]

/-- The patch answers as the last request does, and leaves the same bookings, ledger, folio
and rooms. -/
def SameOutcome (env : Env) (bid : UUID) (body : BookingPatchRequest) (db : Db)
    (w : Option Money) (db₁ : Db) : Prop :=
  ∃ db₂, (patchBooking env bid body).exec db = (.ok w, db₂) ∧ db₂.bookings = db₁.bookings ∧
    db₂.ledger = db₁.ledger ∧ db₂.folio = db₁.folio ∧ db₂.rooms = db₁.rooms

/-- A check-out that reads the balance and the rooms of the lines before the room charge is
flushed, beside one that does so after it. -/
theorem checkout_same_iff {dbs : Db} {rooms : List UUID} :
    (∃ db₂, ((.ok (balanceWarning (computeFolioBalance b.id dbs)) : Except Err (Option Money)),
          (dbs.dirtied pl.flushedRooms).charged b.id pl.roomCharge) =
        (.ok (balanceWarning (computeFolioBalance b.id (dbs.charged b.id pl.roomCharge))), db₂) ∧
      db₂.bookings = ((dbs.charged b.id pl.roomCharge).dirtied rooms).bookings ∧
      db₂.ledger = ((dbs.charged b.id pl.roomCharge).dirtied rooms).ledger ∧
      db₂.folio = ((dbs.charged b.id pl.roomCharge).dirtied rooms).folio ∧
      db₂.rooms = ((dbs.charged b.id pl.roomCharge).dirtied rooms).rooms) ↔
    ¬ (computeFolioBalance b.id dbs ≠ computeFolioBalance b.id (dbs.charged b.id pl.roomCharge) ∨
      ∃ rid, Clean dbs rid ∧ ¬ (rid ∈ pl.flushedRooms ↔ rid ∈ rooms)) := by
  have hrooms : ((dbs.dirtied pl.flushedRooms).charged b.id pl.roomCharge).rooms =
        ((dbs.charged b.id pl.roomCharge).dirtied rooms).rooms ↔
      ¬ ∃ rid, Clean dbs rid ∧ ¬ (rid ∈ pl.flushedRooms ↔ rid ∈ rooms) := by
    have hmarked : ((dbs.charged b.id pl.roomCharge).dirtied rooms).rooms =
        dbs.rooms.updateAll (markRoomDirty rooms) (id_markRoomDirty rooms) := by
      cases pl.roomCharge <;> rfl
    rw [rooms_charged, hmarked, Db.dirtied, dirtied_eq_iff]
    constructor
    · rintro hall ⟨rid, ⟨r, hmem, rfl, hdeleted, hclean⟩, hne⟩
      exact hne (hall r hmem hdeleted hclean)
    · intro hnone r hmem hdeleted hclean
      by_contra hne
      exact hnone ⟨r.id, ⟨r, hmem, rfl, hdeleted, hclean⟩, hne⟩
  rw [not_or, not_not, ← hrooms]
  constructor
  · rintro ⟨db₂, hexec, -, -, -, hsame⟩
    obtain ⟨hwarn, rfl⟩ := Prod.mk.inj hexec
    exact ⟨balanceWarning_injective (Except.ok.inj hwarn), hsame⟩
  · rintro ⟨hbalance, hsame⟩
    refine ⟨_, Prod.ext (congrArg (fun x => Except.ok (balanceWarning x)) hbalance) rfl,
      ?_, ?_, ?_, hsame⟩
    · cases pl.roomCharge <;> rfl
    · cases pl.roomCharge <;> rfl
    · cases pl.roomCharge <;> rfl

theorem ChecksOut.not_noShow (h : ChecksOut b body) : ¬ AsksForNoShow body := by
  obtain ⟨-, text, htext, hnorm⟩ := h
  rintro ⟨text', htext', hnorm'⟩
  rw [htext] at htext'
  cases htext'
  rw [hnorm] at hnorm'
  exact absurd hnorm' (by decide)

/-- At a check-out the patch differs in the balance or in the rooms. -/
theorem Prepared.differs_iff {dbs : Db} (h : Prepared env db b body pl b₁ db')
    (hout : ChecksOut b body) (hfolio : dbs.folio = db'.folio) (hrooms : dbs.rooms = db'.rooms) :
    Differs env db b body ↔
      computeFolioBalance b.id dbs ≠ computeFolioBalance b.id (dbs.charged b.id pl.roomCharge) ∨
      ∃ rid, Clean dbs rid ∧ ¬ (rid ∈ pl.flushedRooms ↔ rid ∈ b₁.lines.filterMap (·.roomId)) := by
  have hclean : ∀ rid, Clean dbs rid ↔ Clean db rid := by
    intro rid
    rw [Clean, Clean, hrooms, h.rooms_eq]
  simp only [hclean]
  rw [h.balance_differs_iff hfolio, h.rooms_differ_iff]
  constructor
  · rintro (⟨stay, hask, hroom, hstatus, hconf⟩ | ⟨hkeeps, hout, room, hroom, rid, hclean, hxor⟩ |
      ⟨stay, hask, hout, rid, hclean, hroom⟩ |
      ⟨stay, ratePlan, hask, hplan, hrated, hout, hrow, hne, hsolid⟩)
    · exact absurd hstatus hout.not_noShow
    · exact .inr (.inl ⟨hkeeps, room, hroom, rid, hclean, hxor⟩)
    · exact .inr (.inr ⟨stay, hask, rid, hclean, hroom⟩)
    · exact .inl ⟨stay, ratePlan, hask, hplan, hrated, hrow, hne, hsolid⟩
  · rintro (⟨stay, ratePlan, hask, hplan, hrated, hrow, hne, hsolid⟩ |
      ⟨hkeeps, room, hroom, rid, hclean, hxor⟩ | ⟨stay, hask, rid, hclean, hroom⟩)
    · exact .balance stay ratePlan hask hplan hrated hout hrow hne hsolid
    · exact .roomChanged hkeeps hout room hroom rid hclean hxor
    · exact .roomMoved stay hask hout rid hclean hroom

theorem release_sameNights {lines lines' : List BookingLine} (h : SameNights lines lines') :
    releaseBookingInventory lines = releaseBookingInventory lines' := by
  unfold releaseBookingInventory
  rw [h.lineRoomTypes, h.dates]

/-- The one patch and the last request run the same status change, unless expired lines
stop the patch. -/
theorem exec_finish_parts {dbf : Db} (h : Prepared env db b body pl b₁ db')
    (hreleased : ¬ (pl.loaded = none ∧ AsksForNoShow body ∧ b.status = .confirmed))
    (hparts : (finishPatch env b₁ (statusPart body) (.ofBooking b₁)).exec
      (db'.charged b.id pl.roomCharge) = (.ok w, dbf)) :
    ∃ s dbs, (patchStatus env b body pl).exec db' = (.ok s, dbs) ∧
      (patchStatus env b₁ (statusPart body) (.ofBooking b₁)).exec
        (db'.charged b.id pl.roomCharge) = (.ok s, dbs.charged b.id pl.roomCharge) := by
  obtain ⟨s, dbp, hstatus, -⟩ := exec_bind_ok.mp hparts
  have hsame : patchStatus env b₁ (statusPart body) (.ofBooking b₁) =
      patchStatus env b body pl := by
    refine patchStatus_parts h.id_eq h.status_eq h.propertyId_eq h.guestId_eq fun hask hconf => ?_
    cases hloaded : pl.loaded with
    | none => exact absurd ⟨hloaded, hask, hconf⟩ hreleased
    | some lines => exact release_sameNights (h.sameNights hloaded)
  rw [hsame] at hstatus
  obtain ⟨dbs, hpatch, rfl⟩ := Blind.before blind_patchStatus hstatus
  exact ⟨s, dbs, hpatch, hsame ▸ hstatus⟩

theorem sameOutcome_of_active {dbf : Db} (h : Prepared env db b body pl b₁ db')
    (htakes : ∀ amount ∈ pl.roomCharge, db'.TakesCharge b.id amount)
    (hprog : (patchDates env b body >>= patchRoomAssignment b.id body).exec db = (.ok pl, db'))
    (hbody : Combines body) (hfind : db.bookings.find b.id = some b) (hactive : b.status.Active)
    (hparts : (finishPatch env b₁ (statusPart body) (.ofBooking b₁)).exec
      (db'.charged b.id pl.roomCharge) = (.ok w, dbf)) :
    SameOutcome env b.id body db w dbf ↔ ¬ Differs env db b body := by
  have hpatch : (patchBooking env b.id body).exec db = (finishPatch env b body pl).exec db' := by
    rw [exec_combined hbody hfind hactive, exec_bind, hprog]
  unfold SameOutcome
  rw [hpatch]
  by_cases hexpired : pl.loaded = none ∧ AsksForNoShow body ∧ b.status = .confirmed
  · obtain ⟨hloaded, hnoShow, hconf⟩ := hexpired
    obtain ⟨stay, hask, hroom⟩ := h.loaded_none hloaded
    refine iff_of_false ?_ fun hnot => hnot (.expired stay hask hroom hnoShow hconf)
    rintro ⟨db₂, hexec, -⟩
    obtain ⟨s, dbs, hstatus, -⟩ := exec_bind_ok.mp hexec
    exact (exec_patchStatus_ok hstatus).2.2.2 hnoShow hconf hloaded
  · obtain ⟨s, dbs, hone, hlast⟩ := exec_finish_parts h hexpired hparts
    obtain ⟨hfolio, hrooms, hchecks, -⟩ := exec_patchStatus_ok hone
    have htakes' : ∀ amount ∈ pl.roomCharge, dbs.TakesCharge b.id amount := fun amount hamount =>
      (takesCharge_congr (congrArg (List.any · _) hfolio)).mpr (htakes amount hamount)
    rw [exec_finishPatch hlast nofun, h.status_eq, h.id_eq] at hparts
    rw [exec_finishPatch hone htakes']
    by_cases hout : s = .checkedOut ∧ b.status ≠ .checkedOut
    · rw [if_pos hout] at hparts ⊢
      cases hparts
      rw [h.differs_iff (hchecks.mp hout) hfolio hrooms]
      exact checkout_same_iff
    · rw [if_neg hout] at hparts ⊢
      cases hparts
      refine iff_of_true ⟨_, rfl, rfl, rfl, rfl, rfl⟩ ?_
      rintro (⟨stay, hask, hroom, hstatus, hconf⟩ | ⟨-, hchk, -⟩ | ⟨-, -, hchk, -⟩ |
        ⟨-, -, -, -, -, hchk, -⟩)
      · refine hexpired ⟨?_, hstatus, hconf⟩
        cases h with
        | kept hkeeps hlines => exact absurd hkeeps hask.not_keeps
        | moved stay' ratePlan hask' hplan hrated => exact Option.map_eq_none_iff.mpr hroom
      · exact hout (hchecks.mpr hchk)
      · exact hout (hchecks.mpr hchk)
      · exact hout (hchecks.mpr hchk)

/-! The three requests -/

theorem exec_patchBooking_missing {bid : UUID} (hfind : db.bookings.find bid = none)
    (h : (patchBooking env bid body).exec db = (.ok w, db')) : body = {} := by
  by_contra hne
  rw [patchBooking, if_neg hne, exec_bind, exec_select, hfind] at h
  cases h

theorem eq_statusPart (hnotes : body.notes = none)
    (hreason : body.cancellationReason = none) (hdates : datesPart body = {})
    (hroom : roomPart body = {}) : body = statusPart body := by
  have hci := congrArg BookingPatchRequest.checkIn hdates
  have hco := congrArg BookingPatchRequest.checkOut hdates
  have hrid := congrArg BookingPatchRequest.roomId hroom
  simp only [datesPart, roomPart] at hci hco hrid
  cases body
  simp only at hnotes hreason hci hco hrid
  subst hnotes hreason hci hco hrid
  rfl

theorem exec_empty {bid : UUID} (h : (patchBooking env bid {}).exec db = (.ok w, db')) :
    db' = db := by
  cases h
  rfl

theorem not_find_none_of_parts {bid : UUID} {dbf : Db} (hbody : Combines body)
    (h : (sendParts env bid body).exec db = (.ok w, dbf)) : db.bookings.find bid ≠ none := by
  intro hfind
  obtain ⟨w₁, db₁, h₁, h⟩ := exec_bind_ok.mp h
  obtain ⟨w₂, db₂, h₂, h₃⟩ := exec_bind_ok.mp h
  have hdates := exec_patchBooking_missing hfind h₁
  rw [hdates] at h₁
  cases exec_empty h₁
  have hroom := exec_patchBooking_missing hfind h₂
  rw [hroom] at h₂
  cases exec_empty h₂
  have hsame := eq_statusPart hbody.notes hbody.reason hdates hroom
  exact hbody.asks (hsame.trans (exec_patchBooking_missing hfind h₃))

/-- An inactive booking only takes a status. -/
theorem sameOutcome_of_inactive {dbf : Db} (hbody : Combines body)
    (hfind : db.bookings.find b.id = some b) (hinactive : ¬ b.status.Active)
    (h : (sendParts env b.id body).exec db = (.ok w, dbf)) :
    SameOutcome env b.id body db w dbf ∧ ¬ Differs env db b body := by
  obtain ⟨w₁, db₁, h₁, h⟩ := exec_bind_ok.mp h
  obtain ⟨w₂, db₂, h₂, h₃⟩ := exec_bind_ok.mp h
  obtain ⟨hci, hco⟩ := (exec_datesPart hfind h₁).1.resolve_left hinactive
  have hdates : datesPart body = {} := by
    rw [datesPart, hci, hco]
  rw [hdates] at h₁
  cases exec_empty h₁
  rcases exec_roomPart hfind h₂ with ⟨hroom, rfl⟩ | ⟨room, -, hassign⟩
  · constructor
    · have hsame : body = statusPart body := by
        refine eq_statusPart hbody.notes hbody.reason hdates ?_
        rw [roomPart, hroom]
      rw [← hsame] at h₃
      exact ⟨dbf, h₃, rfl, rfl, rfl, rfl⟩
    · rintro (⟨-, -, -, -, hconf⟩ | ⟨-, -, room, hsome, -⟩ | ⟨stay, hask, -⟩ | ⟨stay, -, hask, -⟩)
      · rw [hconf] at hinactive
        exact hinactive (by decide)
      · rw [hroom] at hsome
        cases hsome
      · exact hask.dates.elim (· hci) (· hco)
      · exact hask.dates.elim (· hci) (· hco)
  · obtain ⟨b', rt, hb', hactive, -⟩ := exec_assignBookingRoom_iff.mp hassign
    cases hfind.symm.trans hb'
    exact absurd hactive hinactive

/-- A patch of dates, room and status does what the three requests do, exactly when it is
not one of those that differ. -/
theorem patch_same_as_parts_iff {bid : UUID} {dbf : Db} (hbody : Combines body)
    (hparts : (sendParts env bid body).exec db = (.ok w, dbf)) :
    SameOutcome env bid body db w dbf ↔
      ∀ b, db.bookings.find bid = some b → ¬ Differs env db b body := by
  obtain ⟨b, hfind⟩ := Option.ne_none_iff_exists'.mp (not_find_none_of_parts hbody hparts)
  have hid : b.id = bid := (Table.find_eq_some.mp hfind).2
  subst hid
  have hone : (∀ b', db.bookings.find b.id = some b' → ¬ Differs env db b' body) ↔
      ¬ Differs env db b body := by
    rw [hfind]
    simp
  rw [hone]
  by_cases hactive : b.status.Active
  · obtain ⟨w₁, db₁, h₁, h⟩ := exec_bind_ok.mp hparts
    obtain ⟨w₂, db₂, h₂, h₃⟩ := exec_bind_ok.mp h
    obtain ⟨pl, b₁, dbc, hprep, hprog, hfind₁, htakes, rfl⟩ :=
      prepared_of_parts hbody.notes hfind h₁ h₂
    rw [← @bookings_charged b.id pl.roomCharge, ← hprep.id_eq] at hfind₁
    rw [← hprep.id_eq] at h₃
    rw [exec_statusPart hbody.status hfind₁ (hprep.status_eq ▸ hactive), hprep.id_eq] at h₃
    exact sameOutcome_of_active hprep htakes hprog hbody hfind hactive h₃
  · obtain ⟨hsame, hnot⟩ := sameOutcome_of_inactive hbody hfind hactive hparts
    exact iff_of_true hsame hnot

end Differs

theorem eq_of_fst {α β : Type} {p : α × β} {x : α} (h : p.1 = x) : p = (x, p.2) := by
  rw [← h]

namespace Demo

/-- The guest of booking 1000 is in room 100. -/
def inHouse : Db :=
  run (.empty 0) (twoTypes ++
    [.patchBooking (env 0 0 0) 1000 { status := some (some "checked_in") }])

theorem inHouse_reachable : Reachable anyOp inHouse :=
  (twoTypes_reachable (by simp [Op.Api])).mono fun _ _ _ => trivial

def roomAndCheckIn : BookingPatchRequest :=
  { roomId := some (some 100), status := some (some "checked_in") }

def datesAndCheckOut : BookingPatchRequest :=
  { checkIn := some (some 5), checkOut := some (some 6), status := some (some "checked_out") }

def datesAndNoShow : BookingPatchRequest :=
  { checkIn := some (some 5), checkOut := some (some 6), status := some (some "no_show") }

end Demo

/-- A room together with a check-in. -/
theorem patch_same_as_parts_check_in : ∃ w dbf,
    (sendParts (Demo.env 0 0 0) 1000 Demo.roomAndCheckIn).exec Demo.roomless = (.ok w, dbf) ∧
      SameOutcome (Demo.env 0 0 0) 1000 Demo.roomAndCheckIn Demo.roomless w dbf := by
  have hparts : (sendParts (Demo.env 0 0 0) 1000 Demo.roomAndCheckIn).exec Demo.roomless =
      (.ok none, ((sendParts (Demo.env 0 0 0) 1000 Demo.roomAndCheckIn).exec Demo.roomless).2) :=
    eq_of_fst (by decide +kernel)
  have hbody : Combines Demo.roomAndCheckIn := ⟨by decide, rfl, rfl, by decide⟩
  refine ⟨none, _, hparts, (patch_same_as_parts_iff hbody hparts).mpr ?_⟩
  intro b _ hdiffers
  have hasks : ∀ stay, ¬ AsksFor b Demo.roomAndCheckIn stay :=
    fun stay h => h.dates.elim (· rfl) (· rfl)
  cases hdiffers with
  | expired stay hask => exact hasks stay hask
  | roomChanged hkeeps hout =>
    obtain ⟨-, text, htext, hnorm⟩ := hout
    cases htext
    exact absurd hnorm (by decide)
  | roomMoved stay hask => exact hasks stay hask
  | balance stay ratePlan hask => exact hasks stay hask

/-- Checked out together with new dates, the guest's room stays clean; a no-show together
with new dates fails on a booking that has no room. As requests one after another both go
through, and the room is dirty. -/
theorem patch_differs_from_parts :
    (Reachable anyOp Demo.inHouse ∧ Combines Demo.datesAndCheckOut ∧ ∃ w dbf,
      (sendParts (Demo.env 0 0 0) 1000 Demo.datesAndCheckOut).exec Demo.inHouse = (.ok w, dbf) ∧
        ¬ SameOutcome (Demo.env 0 0 0) 1000 Demo.datesAndCheckOut Demo.inHouse w dbf) ∧
    Reachable anyOp Demo.roomless ∧ Combines Demo.datesAndNoShow ∧ ∃ w dbf,
      (sendParts (Demo.env 0 0 0) 1000 Demo.datesAndNoShow).exec Demo.roomless = (.ok w, dbf) ∧
        ¬ SameOutcome (Demo.env 0 0 0) 1000 Demo.datesAndNoShow Demo.roomless w dbf := by
  refine ⟨⟨Demo.inHouse_reachable, ⟨by decide, rfl, rfl, by decide⟩, some 10000, _,
    eq_of_fst (by decide +kernel), ?_⟩, Demo.roomless_reachable,
    ⟨by decide, rfl, rfl, by decide⟩, none, _, eq_of_fst (by decide +kernel), ?_⟩
  · rintro ⟨db₂, hexec, -, -, -, hrooms⟩
    have hclean : (((patchBooking (Demo.env 0 0 0) 1000 Demo.datesAndCheckOut).exec
        Demo.inHouse).2.rooms.rows.map (·.housekeepingStatus)) = ["clean", "clean"] := by
      decide +kernel
    have hdirty : (((sendParts (Demo.env 0 0 0) 1000 Demo.datesAndCheckOut).exec
        Demo.inHouse).2.rooms.rows.map (·.housekeepingStatus)) = ["dirty", "clean"] := by
      decide +kernel
    rw [hexec] at hclean
    rw [← hrooms, hclean] at hdirty
    exact absurd hdirty (by decide)
  · rintro ⟨db₂, hexec, -⟩
    have hfails : ((patchBooking (Demo.env 0 0 0) 1000 Demo.datesAndNoShow).exec
        Demo.roomless).1 = .error .missingGreenlet := by decide +kernel
    rw [hexec] at hfails
    cases hfails

end OpenPms
