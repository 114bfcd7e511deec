import OpenPms.RemoteRates

/-!
Rates and stay restrictions on the side of Channex. A push leaves out what is null and does
not send a row without a positive price, so Channex follows the stored rows only as long as
no update relies on either.
-/
namespace OpenPms.Ari

open Transaction Prog Outbox

variable {db : AriDb} {k : Mapping} {d : ℤ}

/-- Channex holds the rate and the restrictions of the row. -/
structure Follows (k : Mapping) (db : AriDb) (held : Restrictions) (row : Rate) : Prop where
  rate : held.rate =
    some (channexRateString row.price (propertyCurrencyCode k.link.propertyId db))
  minStay : held.minStayArrival = row.minStayArrival
  maxStay : held.maxStay = row.maxStay

def RatesFollow (db : AriDb) (remote : Remote) : Prop :=
  ∀ k d row, Mapped k db → k.stored db d = some row → Follows k db (k.held remote d) row

/-- Channex holds no restriction that the row does not have. -/
structure Clear (held : Restrictions) (minStayArrival maxStay : Option ℤ) : Prop where
  minStay : minStayArrival = none → held.minStayArrival = none
  maxStay : maxStay = none → held.maxStay = none

/-! Records made from the row -/

theorem mem_sentTo {p : Push} {r : RestrictionRecord} (h : r ∈ sentTo k d db p) :
    rateRecord k d db = some r ∨ r = stopSellRecord k.link k.room.roomTypeId db k.plan d := by
  cases p with
  | availability property rt dates => cases h
  | rates property rt rp dates =>
    simp only [sentTo] at h
    split at h
    · exact Or.inl (Option.mem_toList.mp h)
    · cases h
  | stopSell property rt dates =>
    simp only [sentTo] at h
    split at h
    · next hkey =>
      right
      rw [← hkey.2.1]
      exact List.mem_singleton.mp h
    · cases h
  | fullSync property start =>
    simp only [sentTo] at h
    split at h
    · exact Or.inl (Option.mem_toList.mp h)
    · cases h

theorem mem_due {queue : List Push} {r : RestrictionRecord} (h : r ∈ due k d db queue) :
    rateRecord k d db = some r ∨ r = stopSellRecord k.link k.room.roomTypeId db k.plan d := by
  obtain ⟨p, -, hr⟩ := List.mem_flatMap.mp h
  exact mem_sentTo hr

theorem mem_due_of_push {queue : List Push} {dates : List ℤ} {r : RestrictionRecord}
    (hpush : .rates k.link.propertyId k.room.roomTypeId k.plan.ratePlanId dates ∈ queue)
    (hd : d ∈ dates) (hr : rateRecord k d db = some r) : r ∈ due k d db queue := by
  refine List.mem_flatMap.mpr ⟨_, hpush, ?_⟩
  simp only [sentTo, hd, and_self, if_true, hr, Option.toList_some, List.mem_singleton]

/-- The record of a row has all its fields. -/
theorem rateRecord_of_stored {row : Rate} (hrow : k.stored db d = some row)
    (hpos : positive row.price) : rateRecord k d db = some
      { propertyId := k.remoteProperty, ratePlanId := k.remotePlan, date := d,
        rate := some (channexRateString row.price (propertyCurrencyCode k.link.propertyId db)),
        stopSell := some row.stopSell, minStayArrival := row.minStayArrival,
        maxStay := row.maxStay } := by
  unfold rateRecord
  rw [hrow]
  exact if_pos hpos

theorem positive_of_rateRecord {row : Rate} {r : RestrictionRecord}
    (hrow : k.stored db d = some row) (hr : rateRecord k d db = some r) :
    positive row.price = true := by
  unfold rateRecord at hr
  rw [hrow] at hr
  by_contra hpos
  simp [restrictionRow, hpos] at hr

section Row
variable {held : Restrictions} {row : Rate} (hrow : k.stored db d = some row)
include hrow

theorem rate_stopSell {x : String}
    (h : (stopSellRecord k.link k.room.roomTypeId db k.plan d).rate = some x) :
    x = channexRateString row.price (propertyCurrencyCode k.link.propertyId db) := by
  unfold Mapping.stored at hrow
  simp only [stopSellRecord, restrictionPayload, hrow, Option.map_some] at h
  cases hpos : positive row.price with
  | false => simp [Option.filter, hpos] at h
  | true => simpa [Option.filter, hpos] using h.symm

theorem follows_merge {r : RestrictionRecord} (h : Follows k db held row)
    (hr : rateRecord k d db = some r ∨ r = stopSellRecord k.link k.room.roomTypeId db k.plan d) :
    Follows k db (held.merge r) row := by
  rcases hr with hr | rfl
  · rw [rateRecord_of_stored hrow (positive_of_rateRecord hrow hr)] at hr
    cases hr
    refine ⟨rfl, ?_, ?_⟩
    · simp [Restrictions.merge, h.minStay]
    · simp [Restrictions.merge, h.maxStay]
  · refine ⟨?_, h.minStay, h.maxStay⟩
    simp only [Restrictions.merge]
    cases hrate : (stopSellRecord k.link k.room.roomTypeId db k.plan d).rate with
    | none => exact h.rate
    | some x =>
      rw [rate_stopSell hrow hrate]
      rfl

theorem clear_merge {r : RestrictionRecord} (h : Clear held row.minStayArrival row.maxStay)
    (hr : rateRecord k d db = some r ∨ r = stopSellRecord k.link k.room.roomTypeId db k.plan d) :
    Clear (held.merge r) row.minStayArrival row.maxStay := by
  rcases hr with hr | rfl
  · rw [rateRecord_of_stored hrow (positive_of_rateRecord hrow hr)] at hr
    cases hr
    refine ⟨fun hnone => ?_, fun hnone => ?_⟩
    · simp [Restrictions.merge, hnone, h.minStay hnone]
    · simp [Restrictions.merge, hnone, h.maxStay hnone]
  · exact ⟨h.minStay, h.maxStay⟩

theorem follows_foldl {records : List RestrictionRecord} (h : Follows k db held row)
    (hall : ∀ r ∈ records, rateRecord k d db = some r ∨
      r = stopSellRecord k.link k.room.roomTypeId db k.plan d) :
    Follows k db (records.foldl Restrictions.merge held) row := by
  induction records generalizing held with
  | nil => exact h
  | cons r rest ih =>
    exact ih (follows_merge hrow h (hall r (List.mem_cons_self ..)))
      fun r' hr' => hall r' (List.mem_cons_of_mem _ hr')

/-- One record of the row is enough where Channex holds nothing that the row clears. -/
theorem follows_of_mem {records : List RestrictionRecord} {record : RestrictionRecord}
    (h : Clear held row.minStayArrival row.maxStay) (hrecord : rateRecord k d db = some record)
    (hmem : record ∈ records)
    (hall : ∀ r ∈ records, rateRecord k d db = some r ∨
      r = stopSellRecord k.link k.room.roomTypeId db k.plan d) :
    Follows k db (records.foldl Restrictions.merge held) row := by
  induction records generalizing held with
  | nil => cases hmem
  | cons r rest ih =>
    have hrest : ∀ r' ∈ rest, rateRecord k d db = some r' ∨
        r' = stopSellRecord k.link k.room.roomTypeId db k.plan d :=
      fun r' hr' => hall r' (List.mem_cons_of_mem _ hr')
    rcases List.mem_cons.mp hmem with rfl | hmem
    · show Follows k db (rest.foldl Restrictions.merge (held.merge record)) row
      refine follows_foldl hrow ?_ hrest
      rw [rateRecord_of_stored hrow (positive_of_rateRecord hrow hrecord)] at hrecord
      cases hrecord
      refine ⟨rfl, ?_, ?_⟩
      · cases hmin : row.minStayArrival with
        | none => simpa [Restrictions.merge] using h.minStay hmin
        | some n => rfl
      · cases hmax : row.maxStay with
        | none => simpa [Restrictions.merge] using h.maxStay hmax
        | some n => rfl
    · exact ih (clear_merge hrow h (hall r (List.mem_cons_self ..))) hmem hrest

end Row

/-! The pushes of a bulk update -/

def BulkRatesPutRequest.propertyId (body : BulkRatesPutRequest) (db : AriDb) : Option UUID :=
  body.segments.head?.bind fun seg => propertyOf seg.roomTypeId db

theorem rowFor_some {rows : List RateRow} {key : UUID × UUID × ℤ} {row : RateRow}
    (h : rowFor rows key = some row) : row ∈ rows ∧ row.key = key := by
  have hp := List.find?_some h
  exact ⟨List.mem_reverse.mp (List.mem_of_find?_eq_some h), of_decide_eq_true hp⟩

section Pushes
variable {body : BulkRatesPutRequest} {db' : AriDb} {pushes : List Push} {property : UUID}
  (h : perform (.bulkRates body) db = some (db', pushes))

include h

theorem pushes_bulkRates_none (hproperty : body.propertyId db = none) : pushes = [] := by
  have hpushes := (perform_bulkRates h).2
  rw [show (body.segments.head?.bind _) = none from hproperty] at hpushes
  exact hpushes

theorem pushes_bulkRates_some (hproperty : body.propertyId db = some property) :
    pushes = ((body.keys.map fun u => (u.1, u.2.1)).eraseDups).flatMap fun pair =>
      scheduled (.rates property pair.1 pair.2)
        ((body.keys.filter fun u => (u.1, u.2.1) = pair).map (·.2.2)) := by
  have hpushes := (perform_bulkRates h).2
  rw [show (body.segments.head?.bind _) = some property from hproperty] at hpushes
  exact hpushes

end Pushes

/-- Every row is pushed, under the property of the first segment. -/
theorem exists_rates_push {body : BulkRatesPutRequest} {db' : AriDb} {pushes : List Push}
    {property rt rp : UUID} {row : RateRow}
    (h : perform (.bulkRates body) db = some (db', pushes))
    (hproperty : body.propertyId db = some property)
    (hrow : rowFor body.rows (rt, rp, d) = some row) :
    ∃ dates, Push.rates property rt rp dates ∈ pushes ∧ d ∈ dates := by
  have hkey : (rt, rp, d) ∈ body.keys := by
    obtain ⟨hmem, hk⟩ := rowFor_some hrow
    rw [← hk]
    exact List.mem_eraseDups.mpr (List.mem_map_of_mem hmem)
  have hpushes := pushes_bulkRates_some h hproperty
  have hd : d ∈ (body.keys.filter fun u => (u.1, u.2.1) = (rt, rp)).map (·.2.2) :=
    List.mem_map.mpr ⟨(rt, rp, d), List.mem_filter.mpr ⟨hkey, by simp⟩, rfl⟩
  refine ⟨sortedDates ((body.keys.filter fun u => (u.1, u.2.1) = (rt, rp)).map (·.2.2)), ?_,
    mem_sortedDates.mpr hd⟩
  rw [hpushes]
  refine List.mem_flatMap.mpr ⟨(rt, rp), List.mem_eraseDups.mpr
    (List.mem_map.mpr ⟨(rt, rp, d), hkey, rfl⟩), ?_⟩
  unfold scheduled
  rw [if_neg (List.ne_nil_of_mem hd)]
  exact List.mem_singleton.mpr rfl

/-! Runs -/

/-- Each row for a mapped plan has a price, is pushed under its own property and clears no
restriction that Channex holds. -/
structure Pushable (k : Mapping) (d : ℤ) (body : BulkRatesPutRequest) (row : RateRow)
    (s : State AriDb Remote Push) : Prop where
  property : body.propertyId s.store = some k.link.propertyId
  price : 0 < storedPrice row.price
  clear : Clear (k.held s.remote d) row.restrictions.minStayArrival row.restrictions.maxStay

def RatesAdmitted : Request → State AriDb Remote Push → Prop
  | .bulkRates body, s => ∀ k d row, Mapped k s.store →
    rowFor body.rows (k.room.roomTypeId, k.plan.ratePlanId, d) = some row → Pushable k d body row s
  | _, _ => True

theorem held_settled {s : State AriDb Remote Push} (hw : WellMapped s.store)
    (hk : Mapped k s.store) : k.held (s.settled channel) d =
      (due k d s.store s.queue).foldl Restrictions.merge (k.held s.remote d) :=
  held_queue hw hk s.queue s.remote

section Step
variable {s : State AriDb Remote Push} {store : AriDb} {pushes : List Push}

theorem held_perform {o : Request} (h : perform o s.store = some (store, pushes))
    (hw : WellMapped store) (hk : Mapped k store) :
    k.held ((s.next channel (.perform o)).settled channel) d =
      (due k d store (s.queue ++ pushes)).foldl Restrictions.merge (k.held s.remote d) := by
  rw [State.next_perform (C := channel) h]
  exact held_queue hw hk _ _

/-- A request that leaves the row as it is lets Channex follow it. -/
theorem follows_of_stored {o : Request} {row : Rate}
    (h : perform o s.store = some (store, pushes)) (hmaps : SameMaps s.store store)
    (hw : WellMapped s.store) (hk : Mapped k store)
    (hsame : k.stored store d = k.stored s.store d) (hrow : k.stored store d = some row)
    (hf : Follows k s.store (k.held (s.settled channel) d) row) :
    Follows k store (k.held ((s.next channel (.perform o)).settled channel) d) row := by
  rw [held_perform h (hmaps.wellMapped hw) hk, due_append, List.foldl_append,
    hmaps.due_eq hsame, ← held_settled hw (hmaps.symm.mapped hk)]
  refine follows_foldl hrow ⟨?_, hf.minStay, hf.maxStay⟩ fun r hr => mem_due hr
  rw [hf.rate, hmaps.currencyCode_eq]

theorem follows_bulkRates {body : BulkRatesPutRequest} {row : RateRow}
    (h : perform (.bulkRates body) s.store = some (store, pushes)) (hw : WellMapped s.store)
    (hk : Mapped k store)
    (hrow : rowFor body.rows (k.room.roomTypeId, k.plan.ratePlanId, d) = some row)
    (hp : Pushable k d body row s) :
    Follows k store (k.held ((s.next channel (.perform (.bulkRates body))).settled channel) d)
      ⟨row.restrictions, (storedPrice row.price : ℤ)⟩ := by
  obtain ⟨hstore, -⟩ := perform_bulkRates h
  have hmaps : SameMaps s.store store := hstore ▸ sameMaps_upsertRates body
  have hstored : k.stored store d = some ⟨row.restrictions, (storedPrice row.price : ℤ)⟩ := by
    unfold Mapping.stored
    rw [hstore, upsertRates_rate, hrow]
  have hpos : positive (storedPrice row.price : ℤ) = true := decide_eq_true hp.price
  have hrecord := rateRecord_of_stored hstored hpos
  obtain ⟨dates, hpush, hd⟩ := exists_rates_push h hp.property hrow
  rw [held_perform h (hmaps.wellMapped hw) hk]
  exact follows_of_mem hstored hp.clear hrecord
    (mem_due_of_push (List.mem_append_right _ hpush) hd hrecord) fun r hr => mem_due hr

end Step

/-- The maps are in order, and Channex will follow once the queue is delivered. -/
structure Following (s : State AriDb Remote Push) : Prop where
  maps : WellMapped s.store
  follow : RatesFollow s.store (s.settled channel)

theorem following_next {s : State AriDb Remote Push} {o : Request} {store : AriDb}
    {pushes : List Push} (hs : Following s) (h : perform o s.store = some (store, pushes))
    (hmaps : SameMaps s.store store)
    (hall : ∀ k d row, Mapped k store → k.stored store d = some row →
      Follows k store (k.held ((s.next channel (.perform o)).settled channel) d) row) :
    Following (s.next channel (.perform o)) := by
  have hstore : (s.next channel (.perform o)).store = store := by
    rw [State.next_perform (C := channel) h]
  refine ⟨hstore ▸ hmaps.wellMapped hs.maps, ?_⟩
  rw [hstore]
  exact hall

theorem following_perform {s : State AriDb Remote Push} {o : Request} (hs : Following s)
    (ho : RatesAdmitted o s) : Following (s.next channel (.perform o)) := by
  cases h : perform o s.store with
  | none => rwa [State.next_refused (C := channel) h]
  | some r =>
    obtain ⟨store, pushes⟩ := r
    have hkeep : ∀ (hmaps : SameMaps s.store store) k d row, Mapped k store →
        k.stored store d = k.stored s.store d → k.stored store d = some row →
        Follows k store (k.held ((s.next channel (.perform o)).settled channel) d) row := by
      intro hmaps k d row hk hsame hrow
      exact follows_of_stored h hmaps hs.maps hk hsame hrow
        (hs.follow k d row (hmaps.symm.mapped hk) (hsame ▸ hrow))
    cases o with
    | override body =>
      have ho := perform_override h
      refine following_next hs h ho.maps fun k d row hk hrow => ?_
      exact hkeep ho.maps k d row hk (ho.rate _ _ _) hrow
    | fullSync property start =>
      have hstore : s.store = store := by
        cases h
        rfl
      have hmaps : SameMaps s.store store := hstore ▸ ⟨rfl, rfl, rfl, rfl, rfl⟩
      refine following_next hs h hmaps fun k d row hk hrow => ?_
      exact hkeep hmaps k d row hk (by rw [hstore]) hrow
    | bulkRates body =>
      obtain ⟨hstore, -⟩ := perform_bulkRates h
      have hmaps : SameMaps s.store store := hstore ▸ sameMaps_upsertRates body
      refine following_next hs h hmaps fun k d row hk hrow => ?_
      have hstored := upsertRates_rate s.store body k.room.roomTypeId k.plan.ratePlanId d
      cases hrowFor : rowFor body.rows (k.room.roomTypeId, k.plan.ratePlanId, d) with
      | none =>
        rw [hrowFor] at hstored
        refine hkeep hmaps k d row hk ?_ hrow
        unfold Mapping.stored
        rw [hstore, hstored]
      | some new =>
        rw [hrowFor] at hstored
        have hrow' : row = ⟨new.restrictions, (storedPrice new.price : ℤ)⟩ := by
          unfold Mapping.stored at hrow
          rw [hstore, hstored] at hrow
          exact (Option.some.inj hrow).symm
        rw [hrow']
        exact follows_bulkRates h hs.maps hk hrowFor
          (ho k d new (hmaps.symm.mapped hk) hrowFor)

theorem following_deliver {s : State AriDb Remote Push} (hs : Following s) :
    Following (s.next channel .deliver) := by
  have hstore : (s.next channel .deliver).store = s.store := by
    unfold State.next
    cases hq : s.queue with
    | nil => rfl
    | cons p rest => rfl
  refine ⟨hstore ▸ hs.maps, ?_⟩
  rw [State.settled_deliver, hstore]
  exact hs.follow

/-- In every run of overrides, bulk updates and full syncs whose rows for mapped plans have a
price, go out under their own property and clear no restriction that Channex holds, Channex
holds the rate and the restrictions of every stored row once all pushes are delivered. -/
theorem remote_rates_follow {s₀ s : State AriDb Remote Push} (hw : WellMapped s₀.store)
    (hempty : s₀.queue = []) (h0 : RatesFollow s₀.store s₀.remote)
    (h : State.Reach channel RatesAdmitted s₀ s) (hs : s.queue = []) :
    RatesFollow s.store s.remote := by
  have hinit : Following s₀ := ⟨hw, by rwa [State.settled_of_empty hempty]⟩
  have hfollow : Following s := State.invariant_of_reach
    (fun _ _ hs ho => following_perform hs ho) (fun _ hs => following_deliver hs) hinit h
  have := hfollow.follow
  rwa [State.settled_of_empty hs] at this

/-! The mapped property, with Channex in step -/

namespace Demo

theorem mapped_eq {db : AriDb} {k : Mapping} (hlinks : db.links = [link])
    (hrooms : db.roomTypeMaps = [roomMap]) (hplans : db.ratePlanMaps = [rateMap])
    (hk : Mapped k db) : k = ⟨link, roomMap, rateMap⟩ := by
  obtain ⟨l, rm, rpm⟩ := k
  have hl : l ∈ db.links := List.mem_of_find?_eq_some hk.found
  have hrm : rm ∈ db.roomTypeMaps := (mem_roomMapsOf.mp hk.room).1
  have hrpm : rpm ∈ db.ratePlanMaps := hk.plan
  rw [hlinks, List.mem_singleton] at hl
  rw [hrooms, List.mem_singleton] at hrm
  rw [hplans, List.mem_singleton] at hrpm
  rw [hl, hrm, hrpm]

theorem mapped_mapping {k : Mapping} (hk : Mapped k mapped) : k = ⟨link, roomMap, rateMap⟩ :=
  mapped_eq rfl rfl rfl hk

theorem wellMapped_mapped : WellMapped mapped where
  unique := by
    intro property l hl _
    have hlink : l = link := List.mem_singleton.mp (List.mem_of_find?_eq_some hl)
    have hproperty : l.propertyId = property := by simpa using List.find?_some hl
    rw [hlink] at hproperty ⊢
    rw [← hproperty]
    exact uniqueMaps_mapped
  nodup := by decide
  belongs := by
    intro k hk
    rw [mapped_mapping hk]
    decide
  targets := fun k k' hk hk' _ _ => (mapped_mapping hk').trans (mapped_mapping hk).symm

def inStep : State AriDb Remote Push where
  store := mapped
  remote := fun _ _ _ => ⟨some "100.00", some false, none, none⟩
  queue := []

theorem ratesFollow_inStep : RatesFollow inStep.store inStep.remote := by
  intro k d row hk hrow
  rw [mapped_mapping hk] at hrow ⊢
  have hd : d = 3 := by
    by_contra hd
    simp [Mapping.stored, AriDb.rate, inStep, mapped, roomMap, rateMap, hd] at hrow
  subst hd
  cases hrow
  exact ⟨by decide, rfl, rfl⟩

/-- An update of day 3 alone. -/
def update (price : ℕ) (stopSell : Bool) (minStay : Option ℕ) : BulkRatesPutRequest where
  segments := [{
    roomTypeId := 10, ratePlanId := 5, startDate := 3, endDate := 3, price := price
    stopSell := stopSell, minStayArrival := minStay.map fun n : ℕ => (n : ℤ) + 1, maxStay := none
    price_nonneg := Nat.cast_nonneg price
    min_pos := by
      intro n hn
      obtain ⟨m, -, rfl⟩ := Option.mem_map.mp hn
      omega
    max_pos := one_le_of_none
    start_le := day_le
    min_le_max := fun _ _ _ h => nomatch h }]
  segments_ne := List.cons_ne_nil _ _
  total_span_le := by simp

theorem rowFor_update {price : ℕ} {stopSell : Bool} {minStay : Option ℕ}
    {key : UUID × UUID × ℤ} {row : RateRow}
    (h : rowFor (update price stopSell minStay).rows key = some row) :
    key = (10, 5, 3) ∧
      row = ⟨10, 5, 3, price, ⟨stopSell, minStay.map fun n : ℕ => (n : ℤ) + 1, none⟩⟩ := by
  obtain ⟨hmem, rfl⟩ := rowFor_some h
  have hrow : row = ⟨10, 5, 3, price, ⟨stopSell, minStay.map fun n : ℕ => (n : ℤ) + 1, none⟩⟩ :=
    List.mem_singleton.mp hmem
  exact ⟨by rw [hrow]; rfl, hrow⟩

/-- A longer stay at a higher price, and a full sync. -/
def raised : List (Event Request) :=
  [.perform (.bulkRates (update 120 false (some 1))), .perform (.fullSync 1 0), .deliver, .deliver]

end Demo

theorem remote_rates_follow_demo :
    (Demo.inStep.run channel Demo.raised).queue = [] ∧
      RatesFollow (Demo.inStep.run channel Demo.raised).store
        (Demo.inStep.run channel Demo.raised).remote := by
  have hempty : (Demo.inStep.run channel Demo.raised).queue = [] := by decide +kernel
  refine ⟨hempty, remote_rates_follow Demo.wellMapped_mapped rfl Demo.ratesFollow_inStep
    (State.reach_run .refl ⟨?_, trivial, trivial⟩) hempty⟩
  intro k d row hk hrow
  obtain ⟨-, rfl⟩ := Demo.rowFor_update hrow
  rw [Demo.mapped_mapping hk]
  exact ⟨by decide, by decide +kernel, ⟨nofun, fun _ => rfl⟩⟩

/-- A minimum stay that is set and then cleared stays with Channex. -/
theorem remote_rates_lost : ¬ ∀ s, State.Reach channel (fun _ _ => True) Demo.inStep s →
    s.queue = [] → RatesFollow s.store s.remote := by
  intro hall
  let cleared : List (Event Request) :=
    [.perform (.bulkRates (Demo.update 120 false (some 1))), .deliver,
      .perform (.bulkRates (Demo.update 120 false none)), .deliver]
  have hreach : State.Reach channel (fun _ _ => True) Demo.inStep
      (Demo.inStep.run channel cleared) := State.reach_run .refl ⟨trivial, trivial, trivial⟩
  have hmaps : Mapped ⟨Demo.link, Demo.roomMap, Demo.rateMap⟩
      (Demo.inStep.run channel cleared).store :=
    ⟨by decide +kernel, rfl, by decide +kernel, by decide +kernel, rfl⟩
  have hfollow := hall _ hreach (by decide +kernel) _ 3
    ⟨⟨false, none, none⟩, (12000 : ℤ)⟩ hmaps (by decide +kernel)
  exact absurd hfollow.minStay (by decide +kernel)

end OpenPms.Ari
