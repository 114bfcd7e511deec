import OpenPms.RatesFollow

/-!
The stop-sell flag on the side of Channex. Rate pushes and full syncs send the flag of the
stored row; the push of a full block sends true, and no push takes that back.
-/
namespace OpenPms.Ari

open Transaction Prog Outbox

variable {db : AriDb} {k : Mapping} {d : ℤ}

namespace Mapping

/-- The stored row stops the sale. -/
def Closed (k : Mapping) (db : AriDb) (d : ℤ) : Prop :=
  ∃ row ∈ k.stored db d, row.stopSell = true

instance (k : Mapping) (db : AriDb) (d : ℤ) : Decidable (k.Closed db d) :=
  inferInstanceAs (Decidable (∃ row ∈ k.stored db d, _))

/-- The day is fully blocked, or the stored row stops the sale. -/
def Stopped (k : Mapping) (db : AriDb) (d : ℤ) : Prop :=
  db.Blocked k.room.roomTypeId d ∨ k.Closed db d

end Mapping

/-- The last value that Channex got, if any, is the one of the store. -/
def StopSellFollows (db : AriDb) (remote : Remote) : Prop :=
  ∀ k d v, Mapped k db → (k.held remote d).stopSell = some v → (v = true ↔ k.Stopped db d)

/-! The last record of a list -/

theorem stopSell_foldl {records : List RestrictionRecord} {v : Bool} (held : Restrictions)
    (hne : records ≠ []) (hall : ∀ r ∈ records, r.stopSell = some v) :
    (records.foldl Restrictions.merge held).stopSell = some v := by
  obtain ⟨init, r, rfl⟩ := (List.eq_nil_or_concat records).resolve_left hne
  rw [List.concat_eq_append, List.foldl_append]
  simp [Restrictions.merge, hall r (by simp)]

/-! What the pushes of a request send -/

theorem stopSell_rateRecord {row : Rate} {r : RestrictionRecord}
    (hrow : k.stored db d = some row) (hr : rateRecord k d db = some r) :
    r.stopSell = some row.stopSell := by
  rw [rateRecord_of_stored hrow (positive_of_rateRecord hrow hr)] at hr
  cases hr
  rfl

theorem mem_scheduled {push : List ℤ → Push} {dates : List ℤ} {p : Push}
    (h : p ∈ scheduled push dates) : p = push (sortedDates dates) := by
  unfold scheduled at h
  split at h
  · cases h
  · exact List.mem_singleton.mp h

section Override
variable {body : AvailabilityOverridePutRequest} {db' : AriDb} {pushes : List Push}

/-- The pushes of an override stop the sale of the days that it blocks, and only of those. -/
theorem sent_override (h : Overridden body db db' pushes) {r : RestrictionRecord}
    (hr : r ∈ due k d db' pushes) :
    r.stopSell = some true ∧ db'.Blocked k.room.roomTypeId d := by
  obtain ⟨p, hp, hr⟩ := List.mem_flatMap.mp hr
  rw [h.pushes] at hp
  cases hproperty : propertyOf body.roomTypeId db with
  | none =>
    rw [hproperty] at hp
    cases hp
  | some property =>
    rw [hproperty] at hp
    rcases List.mem_append.mp hp with hp | hp
    · rw [mem_scheduled hp] at hr
      cases hr
    · rw [mem_scheduled hp] at hr
      simp only [sentTo] at hr
      split at hr
      · next hkey =>
        obtain ⟨-, hrt, hd⟩ := hkey
        rw [List.mem_singleton.mp hr]
        have hblocked := (List.mem_filter.mp (mem_sortedDates.mp hd)).2
        rw [hrt] at hblocked
        exact ⟨rfl, of_decide_eq_true hblocked⟩
      · cases hr

theorem due_override_ne (h : Overridden body db db' pushes)
    (hproperty : propertyOf k.room.roomTypeId db = some k.link.propertyId)
    (hrt : k.room.roomTypeId = body.roomTypeId)
    (hd : d ∈ iterInclusiveDates body.startDate body.endDate)
    (hblocked : db'.Blocked k.room.roomTypeId d) : due k d db' pushes ≠ [] := by
  have hmem : d ∈ (iterInclusiveDates body.startDate body.endDate).filter
      fun d => db'.Blocked body.roomTypeId d :=
    List.mem_filter.mpr ⟨hd, decide_eq_true (hrt ▸ hblocked)⟩
  apply List.ne_nil_of_mem (a := stopSellRecord k.link body.roomTypeId db' k.plan d)
  refine List.mem_flatMap.mpr ⟨.stopSell k.link.propertyId body.roomTypeId
    (sortedDates ((iterInclusiveDates body.startDate body.endDate).filter
      fun d => db'.Blocked body.roomTypeId d)), ?_, ?_⟩
  · rw [h.pushes, ← hrt, hproperty, hrt]
    refine List.mem_append_right _ ?_
    unfold scheduled
    rw [if_neg (List.ne_nil_of_mem hmem)]
    exact List.mem_singleton.mpr rfl
  · simp only [sentTo, hrt, mem_sortedDates.mpr hmem, and_self, if_true, List.mem_singleton]

/-- Outside of the override the blocks are as before. -/
theorem blocked_override (h : Overridden body db db' pushes) {rt : UUID}
    (hkey : ¬ (rt = body.roomTypeId ∧ d ∈ iterInclusiveDates body.startDate body.endDate)) :
    db'.Blocked rt d ↔ db.Blocked rt d := by
  unfold AriDb.Blocked
  rw [h.row]
  simp only [hkey, if_false, Option.map_id']

theorem blocked_of_override (h : Overridden body db db' pushes) {c : Counts}
    (hd : d ∈ iterInclusiveDates body.startDate body.endDate)
    (hc : db.ledger.row body.roomTypeId d = some c) (hpos : 0 < c.totalRooms)
    (hall : c.totalRooms = body.blockedRooms) : db'.Blocked body.roomTypeId d := by
  unfold AriDb.Blocked
  rw [h.row, hc]
  refine ⟨_, rfl, ?_⟩
  simp only [hd, and_self, if_true]
  exact ⟨hpos, hall.symm⟩

end Override

/-- The pushes of a bulk update are for its own keys and its property. -/
theorem rates_push_mem {body : BulkRatesPutRequest} {db' : AriDb} {pushes : List Push} {p : Push}
    (h : perform (.bulkRates body) db = some (db', pushes)) (hp : p ∈ pushes) :
    ∃ property rt rp dates, p = .rates property rt rp dates ∧
      body.propertyId db = some property ∧ ∀ d ∈ dates, (rt, rp, d) ∈ body.keys := by
  cases hproperty : body.propertyId db with
  | none =>
    rw [pushes_bulkRates_none h hproperty] at hp
    cases hp
  | some property =>
    rw [pushes_bulkRates_some h hproperty] at hp
    obtain ⟨pair, -, hp⟩ := List.mem_flatMap.mp hp
    refine ⟨property, pair.1, pair.2, _, mem_scheduled hp, rfl, fun d hd => ?_⟩
    obtain ⟨u, hu, rfl⟩ := List.mem_map.mp (mem_sortedDates.mp hd)
    obtain ⟨hmem, hpair⟩ := List.mem_filter.mp hu
    rw [← of_decide_eq_true hpair]
    exact hmem

theorem rowFor_none {rows : List RateRow} {key : UUID × UUID × ℤ} (h : rowFor rows key = none) :
    key ∉ (rows.map (·.key)).eraseDups := by
  intro hkey
  obtain ⟨row, hrow, hk⟩ := List.mem_map.mp (List.mem_eraseDups.mp hkey)
  have := List.find?_eq_none.mp h row (List.mem_reverse.mpr hrow)
  exact this (decide_eq_true hk)

/-- A record that a bulk update sends is of a row of its own. -/
theorem sent_bulkRates {body : BulkRatesPutRequest} {db' : AriDb} {pushes : List Push}
    {r : RestrictionRecord} (h : perform (.bulkRates body) db = some (db', pushes))
    (hr : r ∈ due k d db' pushes) :
    rateRecord k d db' = some r ∧ body.propertyId db = some k.link.propertyId ∧
      (k.room.roomTypeId, k.plan.ratePlanId, d) ∈ body.keys := by
  obtain ⟨p, hp, hr⟩ := List.mem_flatMap.mp hr
  obtain ⟨property, rt, rp, dates, rfl, hproperty, hkeys⟩ := rates_push_mem h hp
  simp only [sentTo] at hr
  split at hr
  · next hkey =>
    obtain ⟨rfl, rfl, rfl, hd⟩ := hkey
    exact ⟨Option.mem_toList.mp hr, hproperty, hkeys d hd⟩
  · cases hr

/-! Runs -/

/-- The row goes out with the flag that it should have; or it is not sent, and neither
changes the flag nor lets a waiting push send another. -/
def FlagSafe (k : Mapping) (d : ℤ) (body : BulkRatesPutRequest) (row : RateRow)
    (s : State AriDb Remote Push) : Prop :=
  (body.propertyId s.store = some k.link.propertyId ∧ 0 < storedPrice row.price ∧
    (s.store.Blocked k.room.roomTypeId d → row.restrictions.stopSell = true)) ∨
  ((body.propertyId s.store ≠ some k.link.propertyId ∨ storedPrice row.price ≤ 0) ∧
    s.queue = [] ∧ (row.restrictions.stopSell = true ↔ k.Closed s.store d))

/-- Full blocks are lifted only where the stored row stops the sale, and a rate is pushed for
a fully blocked day only if it does. -/
def StopSellAdmitted : Request → State AriDb Remote Push → Prop
  | .override body, s => ∀ k d, Mapped k s.store → k.room.roomTypeId = body.roomTypeId →
    d ∈ iterInclusiveDates body.startDate body.endDate → s.store.Blocked k.room.roomTypeId d →
      (∃ c ∈ s.store.ledger.row k.room.roomTypeId d, c.totalRooms = body.blockedRooms) ∨
        k.Closed s.store d
  | .bulkRates body, s => ∀ k d row, Mapped k s.store →
    rowFor body.rows (k.room.roomTypeId, k.plan.ratePlanId, d) = some row → FlagSafe k d body row s
  | .fullSync property start, s => ∀ k d row, Mapped k s.store → k.link.propertyId = property →
    d ∈ syncDates start → k.stored s.store d = some row → positive row.price →
      s.store.Blocked k.room.roomTypeId d → row.stopSell = true

/-- The maps are in order, and the flags will agree once the queue is delivered. -/
structure Flagged (s : State AriDb Remote Push) : Prop where
  maps : WellMapped s.store
  follow : StopSellFollows s.store (s.settled channel)

section Step
variable {s : State AriDb Remote Push} {o : Request} {store : AriDb} {pushes : List Push}

theorem flagged_next (hs : Flagged s) (h : perform o s.store = some (store, pushes))
    (hmaps : SameMaps s.store store)
    (hall : ∀ k d v, Mapped k store →
      (k.held ((s.next channel (.perform o)).settled channel) d).stopSell = some v →
        (v = true ↔ k.Stopped store d)) :
    Flagged (s.next channel (.perform o)) := by
  have hstore : (s.next channel (.perform o)).store = store := by
    rw [State.next_perform (C := channel) h]
  refine ⟨hstore ▸ hmaps.wellMapped hs.maps, ?_⟩
  rw [hstore]
  exact hall

/-- Where the request sends nothing and keeps the row, the value settled before stays. -/
theorem held_unsent (hs : Flagged s) (h : perform o s.store = some (store, pushes))
    (hmaps : SameMaps s.store store) (hk : Mapped k store)
    (hsame : k.stored store d = k.stored s.store d) (hnone : due k d store pushes = []) :
    k.held ((s.next channel (.perform o)).settled channel) d =
      k.held (s.settled channel) d := by
  rw [held_perform h (hmaps.wellMapped hs.maps) hk, due_append, hnone, List.append_nil,
    hmaps.due_eq hsame, ← held_settled hs.maps (hmaps.symm.mapped hk)]

theorem stopSell_sent (hs : Flagged s) (h : perform o s.store = some (store, pushes))
    (hmaps : SameMaps s.store store) (hk : Mapped k store) {v : Bool}
    (hne : due k d store pushes ≠ []) (hall : ∀ r ∈ due k d store pushes, r.stopSell = some v) :
    (k.held ((s.next channel (.perform o)).settled channel) d).stopSell = some v := by
  rw [held_perform h (hmaps.wellMapped hs.maps) hk, due_append, List.foldl_append]
  exact stopSell_foldl _ hne hall

theorem flagged_override {body : AvailabilityOverridePutRequest} (hs : Flagged s)
    (ho : StopSellAdmitted (.override body) s)
    (h : perform (.override body) s.store = some (store, pushes)) :
    Flagged (s.next channel (.perform (.override body))) := by
  have hover := perform_override h
  refine flagged_next hs h hover.maps fun k d v hk hv => ?_
  have hk' := hover.maps.symm.mapped hk
  have hstored : k.stored store d = k.stored s.store d := hover.rate _ _ _
  have hclosed : k.Closed store d ↔ k.Closed s.store d := by
    unfold Mapping.Closed
    rw [hstored]
  by_cases hnone : due k d store pushes = []
  · rw [held_unsent hs h hover.maps hk hstored hnone] at hv
    rw [hs.follow k d v hk' hv]
    unfold Mapping.Stopped
    rw [hclosed]
    by_cases hkey : k.room.roomTypeId = body.roomTypeId ∧
        d ∈ iterInclusiveDates body.startDate body.endDate
    · have hopen : ¬ store.Blocked k.room.roomTypeId d := fun hblocked =>
        due_override_ne hover (hs.maps.belongs k hk') hkey.1 hkey.2 hblocked hnone
      have hlift : s.store.Blocked k.room.roomTypeId d → k.Closed s.store d := by
        intro hblocked
        rcases ho k d hk' hkey.1 hkey.2 hblocked with ⟨c, hc, htotal⟩ | hclosed
        · exfalso
          obtain ⟨c', hc', hfull⟩ := hblocked
          rw [Option.mem_def.mp hc] at hc'
          cases hc'
          rw [hkey.1] at hc hopen
          exact hopen (blocked_of_override hover hkey.2 hc hfull.1 htotal)
        · exact hclosed
      constructor
      · rintro (hblocked | hclosed)
        · exact Or.inr (hlift hblocked)
        · exact Or.inr hclosed
      · rintro (hblocked | hclosed)
        · exact absurd hblocked hopen
        · exact Or.inr hclosed
    · rw [blocked_override hover hkey]
  · obtain ⟨r, hr⟩ := List.exists_mem_of_ne_nil _ hnone
    have hblocked := (sent_override hover hr).2
    rw [stopSell_sent hs h hover.maps hk hnone fun r hr => (sent_override hover hr).1] at hv
    cases hv
    exact ⟨fun _ => Or.inl hblocked, fun _ => rfl⟩

theorem flagged_fullSync {property : UUID} {start : ℤ} (hs : Flagged s)
    (ho : StopSellAdmitted (.fullSync property start) s) :
    Flagged (s.next channel (.perform (.fullSync property start))) := by
  have h : perform (.fullSync property start) s.store =
      some (s.store, [.fullSync property start]) := rfl
  have hmaps : SameMaps s.store s.store := ⟨rfl, rfl, rfl, rfl, rfl⟩
  refine flagged_next hs h hmaps fun k d v hk hv => ?_
  by_cases hnone : due k d s.store [.fullSync property start] = []
  · rw [held_unsent hs h hmaps hk rfl hnone] at hv
    exact hs.follow k d v hk hv
  · have hsent : ∀ r ∈ due k d s.store [.fullSync property start],
        property = k.link.propertyId ∧ d ∈ syncDates start ∧
          rateRecord k d s.store = some r := by
      intro r hr
      simp only [due, List.flatMap_singleton, sentTo] at hr
      split at hr
      · next hkey => exact ⟨hkey.1, hkey.2, Option.mem_toList.mp hr⟩
      · cases hr
    obtain ⟨r, hr⟩ := List.exists_mem_of_ne_nil _ hnone
    obtain ⟨hproperty, hd, hrecord⟩ := hsent r hr
    cases hrow : k.stored s.store d with
    | none => simp [rateRecord, hrow] at hrecord
    | some row =>
      rw [stopSell_sent hs h hmaps hk hnone
        fun r hr => stopSell_rateRecord hrow (hsent r hr).2.2] at hv
      cases hv
      have hblocked := ho k d row hk hproperty.symm hd hrow (positive_of_rateRecord hrow hrecord)
      constructor
      · exact fun hstop => Or.inr ⟨row, hrow, hstop⟩
      · rintro (hb | ⟨row', hrow', hstop⟩)
        · exact hblocked hb
        · rw [hrow] at hrow'
          cases hrow'
          exact hstop

theorem flagged_bulkRates {body : BulkRatesPutRequest} (hs : Flagged s)
    (ho : StopSellAdmitted (.bulkRates body) s)
    (h : perform (.bulkRates body) s.store = some (store, pushes)) :
    Flagged (s.next channel (.perform (.bulkRates body))) := by
  obtain ⟨hstore, -⟩ := perform_bulkRates h
  have hmaps : SameMaps s.store store := hstore ▸ sameMaps_upsertRates body
  refine flagged_next hs h hmaps fun k d v hk hv => ?_
  have hk' := hmaps.symm.mapped hk
  have hblocked : store.Blocked k.room.roomTypeId d ↔ s.store.Blocked k.room.roomTypeId d := by
    rw [hstore]
    rfl
  have hrate := upsertRates_rate s.store body k.room.roomTypeId k.plan.ratePlanId d
  rw [← hstore] at hrate
  change k.stored store d = _ at hrate
  cases hrowFor : rowFor body.rows (k.room.roomTypeId, k.plan.ratePlanId, d) with
  | none =>
    rw [hrowFor] at hrate
    have hnone : due k d store pushes = [] := by
      apply List.eq_nil_iff_forall_not_mem.mpr
      exact fun r hr => rowFor_none hrowFor (sent_bulkRates h hr).2.2
    rw [held_unsent hs h hmaps hk hrate hnone] at hv
    rw [hs.follow k d v hk' hv]
    unfold Mapping.Stopped Mapping.Closed
    rw [hblocked, hrate]
    rfl
  | some row =>
    rw [hrowFor] at hrate
    simp only at hrate
    have hclosed : k.Closed store d ↔ row.restrictions.stopSell = true := by
      unfold Mapping.Closed
      rw [hrate]
      simp
    unfold Mapping.Stopped
    rw [hblocked, hclosed]
    rcases ho k d row hk' hrowFor with ⟨hproperty, hpos, hstop⟩ | ⟨hunsent, hempty, hstop⟩
    · obtain ⟨dates, hpush, hd⟩ := exists_rates_push h hproperty hrowFor
      have hrecord := rateRecord_of_stored hrate (decide_eq_true hpos)
      have hne : due k d store pushes ≠ [] :=
        List.ne_nil_of_mem (mem_due_of_push hpush hd hrecord)
      rw [stopSell_sent hs h hmaps hk hne
        fun r hr => stopSell_rateRecord hrate (sent_bulkRates h hr).1] at hv
      cases hv
      exact ⟨Or.inr, fun hor => hor.elim hstop id⟩
    · have hnone : due k d store pushes = [] := by
        apply List.eq_nil_iff_forall_not_mem.mpr
        intro r hr
        obtain ⟨hrecord, hproperty, -⟩ := sent_bulkRates h hr
        have hpos : 0 < storedPrice row.price :=
          of_decide_eq_true (positive_of_rateRecord hrate hrecord)
        rcases hunsent with hother | hprice
        · exact hother hproperty
        · omega
      have hheld : k.held ((s.next channel (.perform (.bulkRates body))).settled channel) d =
          k.held (s.settled channel) d := by
        rw [held_perform h (hmaps.wellMapped hs.maps) hk, due_append, hnone,
          State.settled_of_empty hempty, hempty]
        rfl
      rw [hheld] at hv
      rw [hs.follow k d v hk' hv, hstop]
      rfl

end Step

theorem flagged_perform {s : State AriDb Remote Push} {o : Request} (hs : Flagged s)
    (ho : StopSellAdmitted o s) : Flagged (s.next channel (.perform o)) := by
  cases h : perform o s.store with
  | none => rwa [State.next_refused (C := channel) h]
  | some r =>
    obtain ⟨store, pushes⟩ := r
    cases o with
    | override body => exact flagged_override hs ho h
    | fullSync property start => exact flagged_fullSync hs ho
    | bulkRates body => exact flagged_bulkRates hs ho h

theorem flagged_deliver {s : State AriDb Remote Push} (hs : Flagged s) :
    Flagged (s.next channel .deliver) := by
  have hstore : (s.next channel .deliver).store = s.store := by
    unfold State.next
    cases hq : s.queue with
    | nil => rfl
    | cons p rest => rfl
  refine ⟨hstore ▸ hs.maps, ?_⟩
  rw [State.settled_deliver, hstore]
  exact hs.follow

/-- In every run in which full blocks are lifted only from days whose stored rows stop the
sale, and no rate without the flag is pushed for a fully blocked day, the last value that
Channex got is true exactly for the days that are fully blocked or whose row stops the sale,
once all pushes are delivered. -/
theorem stop_sell_follows {s₀ s : State AriDb Remote Push} (hw : WellMapped s₀.store)
    (hempty : s₀.queue = []) (h0 : StopSellFollows s₀.store s₀.remote)
    (h : State.Reach channel StopSellAdmitted s₀ s) (hs : s.queue = []) :
    StopSellFollows s.store s.remote := by
  have hinit : Flagged s₀ := ⟨hw, by rwa [State.settled_of_empty hempty]⟩
  have hflagged : Flagged s := State.invariant_of_reach
    (fun _ _ hs ho => flagged_perform hs ho) (fun _ hs => flagged_deliver hs) hinit h
  have := hflagged.follow
  rwa [State.settled_of_empty hs] at this

namespace Demo

theorem stopSellFollows_inStep : StopSellFollows inStep.store inStep.remote := by
  intro k d v hk hv
  rw [mapped_mapping hk] at hv ⊢
  cases hv
  refine iff_of_false Bool.false_ne_true ?_
  rintro (⟨c, hc, hfull⟩ | ⟨row, hrow, hstop⟩)
  · by_cases hd : d = 3
    · subst hd
      cases hc
      exact absurd hfull (by decide)
    · have hrow : (Ledger.upsert .empty 10 [3] ⟨2, 0, 0⟩ id).row 10 d = some c := hc
      rw [Ledger.upsert_row, if_neg (by simp [hd])] at hrow
      cases hrow
  · obtain ⟨price, -, rfl⟩ := Option.map_eq_some_iff.mp hrow
    cases hstop

/-- Day 3 alone. -/
def block (n : ℕ) : AvailabilityOverridePutRequest where
  roomTypeId := 10
  startDate := 3
  endDate := 3
  blockedRooms := n
  start_le := day_le
  span_le := day_span

theorem eq_of_mem_block {n : ℕ} {d : ℤ}
    (hd : d ∈ iterInclusiveDates (block n).startDate (block n).endDate) : d = 3 := by
  have := mem_daysBetween.mp hd
  simp only [block] at this
  omega

/-- The day is blocked, then its row stops the sale as well, and then the block goes. -/
def blockedThenClosed : List (Event Request) :=
  [.perform (.override (block 2)), .deliver, .deliver,
    .perform (.bulkRates (update 120 true none)), .deliver,
    .perform (.override (block 0)), .deliver]

end Demo

theorem stop_sell_follows_demo :
    (Demo.inStep.run channel Demo.blockedThenClosed).queue = [] ∧
      StopSellFollows (Demo.inStep.run channel Demo.blockedThenClosed).store
        (Demo.inStep.run channel Demo.blockedThenClosed).remote := by
  have hempty : (Demo.inStep.run channel Demo.blockedThenClosed).queue = [] := by decide +kernel
  refine ⟨hempty, stop_sell_follows Demo.wellMapped_mapped rfl Demo.stopSellFollows_inStep
    (State.reach_run .refl ⟨?_, ?_, ?_, trivial⟩) hempty⟩
  · intro k d hk _ hd hblocked
    rw [Demo.mapped_mapping hk] at hblocked
    obtain rfl := Demo.eq_of_mem_block hd
    exact absurd hblocked (by decide)
  · intro k d row hk hrow
    obtain ⟨-, rfl⟩ := Demo.rowFor_update hrow
    rw [Demo.mapped_eq (by decide) (by decide) (by decide) hk]
    exact Or.inl ⟨by decide, by decide +kernel, fun _ => rfl⟩
  · intro k d hk _ hd _
    rw [Demo.mapped_eq (by decide +kernel) (by decide +kernel) (by decide +kernel) hk]
    obtain rfl := Demo.eq_of_mem_block hd
    exact Or.inr (by decide +kernel)

/-- A day that was blocked once stays closed on the side of Channex. -/
theorem stop_sell_left : ¬ ∀ s, State.Reach channel (fun _ _ => True) Demo.inStep s →
    s.queue = [] → StopSellFollows s.store s.remote := by
  intro hall
  let lifted : List (Event Request) :=
    [.perform (.override (Demo.block 2)), .deliver, .deliver,
      .perform (.override (Demo.block 0)), .deliver]
  have hreach : State.Reach channel (fun _ _ => True) Demo.inStep
      (Demo.inStep.run channel lifted) := State.reach_run .refl ⟨trivial, trivial, trivial⟩
  have hmaps : Mapped ⟨Demo.link, Demo.roomMap, Demo.rateMap⟩
      (Demo.inStep.run channel lifted).store :=
    ⟨by decide, rfl, by decide, by decide, rfl⟩
  have hstop := (hall _ hreach (by decide) _ 3 true hmaps (by decide)).mp rfl
  rcases hstop with hblocked | hclosed
  · exact absurd hblocked (by decide)
  · exact absurd hclosed (by decide)

end OpenPms.Ari
