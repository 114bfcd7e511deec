import OpenPms.WebhookTargets

/-!
The order of the delivery queue. A batch always takes the row that is due for longest. As
long as every attempt ends in a commit, the row it has taken goes behind all rows that were
due with it. An exception of the check that is not caught takes the row back to the head
of the queue, with its transaction; a request that never comes back keeps its worker.
-/
namespace OpenPms.WebhookTargets

open KeyedTable WorkQueue DeliveryState

/-! What the check raises -/

/-- The URL and its host can be read, and the lookup does not fail within the system. -/
def checksCleanly (sys : System) (dns : String → Lookup) (url : String) : Bool :=
  match urlparse sys (Text.strip url) with
  | none => false
  | some parsed => parsed.scheme ≠ "https" || match parsed.hostname with
    | none => true
    | some host => match sys.encodeHost host with
      | none => false
      | some name => sys.answer dns name ≠ .osError

/-- An error, if there is one, is of the kind that the attempt catches. -/
def Caught (r : Except CheckError Unit) : Prop :=
  ∀ e, r = .error e → ∃ text, e = .webhookUrlUnsafeError text

theorem caught_checkAddress (text : String) : Caught (checkAddress text) := by
  unfold checkAddress
  split
  · nofun
  · split
    · exact fun e he => ⟨_, (Except.error.inj he).symm⟩
    · nofun

theorem caught_checkAddresses (texts : List String) : Caught (texts.forM checkAddress) := by
  induction texts with
  | nil => nofun
  | cons text rest ih =>
    change Caught (checkAddress text >>= fun _ => rest.forM checkAddress)
    cases hcheck : checkAddress text with
    | ok found => exact ih
    | error e =>
      intro e' he'
      obtain rfl := Except.error.inj he'
      exact caught_checkAddress text e hcheck

/-- Whether it is one depends on the URL and on the answer to the lookup. -/
theorem caught_iff {sys : System} {dns : String → Lookup} {url : String} :
    Caught (assertWebhookTargetIpsSafeForUrl sys dns url) ↔ checksCleanly sys dns url = true := by
  have hescapes : ∀ e, (∀ text, e ≠ .webhookUrlUnsafeError text) → ¬ Caught (.error e) :=
    fun e he h => Exists.elim (h e rfl) fun text htext => he text htext
  have hcaught : ∀ text, Caught (.error (.webhookUrlUnsafeError text)) :=
    fun text e he => ⟨text, (Except.error.inj he).symm⟩
  unfold assertWebhookTargetIpsSafeForUrl checksCleanly
  cases urlparse sys (Text.strip url) with
  | none => exact iff_of_false (hescapes _ fun _ h => by cases h) Bool.false_ne_true
  | some parsed =>
    by_cases hscheme : parsed.scheme ≠ "https"
    · simp only [if_pos hscheme, decide_eq_true hscheme, Bool.true_or, iff_true]
      exact hcaught _
    · simp only [if_neg hscheme, decide_eq_false hscheme, Bool.false_or]
      cases parsed.hostname with
      | none => exact iff_of_true (hcaught _) rfl
      | some host =>
        simp only
        unfold getaddrinfo
        cases sys.encodeHost host with
        | none => exact iff_of_false (hescapes _ fun _ h => by cases h) Bool.false_ne_true
        | some name =>
          simp only
          cases sys.answer dns name with
          | addresses texts => exact iff_of_true (caught_checkAddresses texts) rfl
          | gaierror text => exact iff_of_true (hcaught _) rfl
          | osError => exact iff_of_false (hescapes _ fun _ h => by cases h) Bool.false_ne_true

/-- A request that is made has an outcome, be it an exception. -/
def comesBack (sys : System) (dns : String → Lookup) (client : Option ClientAnswer)
    (url : String) : Bool :=
  match assertWebhookTargetIpsSafeForUrl sys dns url with
  | .ok () => client.isSome
  | .error _ => true

/-- An attempt ends with an answer exactly if its check ends cleanly and its request, if it
makes one, comes back. -/
theorem delivery_result_iff {sys : System} {check connect : String → Lookup}
    {client : Option ClientAnswer} {url : String} :
    (∃ answer, (singleHttpDelivery sys check connect client url).result = some (.ok answer)) ↔
      (checksCleanly sys check url && comesBack sys check client url) = true := by
  rw [Bool.and_eq_true, ← caught_iff]
  unfold singleHttpDelivery comesBack
  cases assertWebhookTargetIpsSafeForUrl sys check url with
  | ok found =>
    cases client with
    | none => exact iff_of_false (fun h => by cases h.choose_spec) fun h => by cases h.2
    | some answer => exact iff_of_true ⟨_, rfl⟩ ⟨nofun, rfl⟩
  | error e =>
    constructor
    · rintro ⟨answer, h⟩
      refine ⟨fun e' he' => ?_, rfl⟩
      obtain rfl := Except.error.inj he'
      cases e with
      | webhookUrlUnsafeError text => exact ⟨text, rfl⟩
      | valueError => cases h
      | unicodeError => cases h
      | osError => cases h
    · rintro ⟨h, -⟩
      obtain ⟨text, rfl⟩ := h e rfl
      exact ⟨_, rfl⟩

/-! Runs in the order of the queue -/

variable {ι : Type} [DecidableEq ι]

/-- No due row that is free has waited for longer. -/
def First (s : DeliveryState ι) (id : UUID) (now : ℤ) : Prop :=
  ∀ row ∈ s.queue.rows.find id, ∀ other ∈ s.queue.rows.rows,
    Due other now → s.queue.owner other.id = none → row.nextRetryAt ≤ other.nextRetryAt

instance (s : DeliveryState ι) (id : UUID) (now : ℤ) : Decidable (First s id now) := by
  unfold First
  infer_instance

inductive QueueEvent (ι : Type) where
  | dispatch (ids : ℕ → UUID) (tenantId : UUID) (eventType data : String)
  | subscriptions (changed : Table WebhookSubscription.id)
  | start (i : ι) (maxRows : ℕ)
  | claim (i : ι) (id : UUID)
  | stop (i : ι)
  | load (i : ι)
  | attempt (i : ι) (check connect : String → Lookup) (client : Option ClientAnswer)
  | commit (i : ι)

namespace QueueEvent

/-- What the event is to the queue. An exception that leaves the attempt rolls the
transaction back and ends the batch; an attempt that never ends is no event. -/
def delivery (sys : System) (s : DeliveryState ι) (now : ℤ) :
    QueueEvent ι → Option (DeliveryEvent ι)
  | dispatch ids tenantId eventType data => some (.dispatch ids tenantId eventType data now)
  | subscriptions changed => some (.subscriptions changed)
  | start i maxRows => some (.start i maxRows)
  | claim i id => if First s id now then some (.claim i id now) else none
  | stop i => some (.stop i now)
  | load i => some (.load i)
  | attempt i check connect client =>
    match s.queue.held i with
    | some (row, .loaded (some sub)) =>
      if Wants (some sub) row.eventType then
        match (singleHttpDelivery sys check connect client sub.url).result with
        | some (.ok answer) => some (.post i answer)
        | some (.error _) => some (.crash i)
        | none => none
      else none
    | _ => none
  | commit i => some (.commit i now)

/-- An attempt that has to be made ends cleanly: its check does, and its request comes back. -/
def clean (sys : System) (s : DeliveryState ι) : QueueEvent ι → Bool
  | attempt i check _ client =>
    match s.queue.held i with
    | some (row, .loaded (some sub)) =>
      !decide (Wants (some sub) row.eventType) ||
        (checksCleanly sys check sub.url && comesBack sys check client sub.url)
    | _ => true
  | _ => true

end QueueEvent

/-- The queue and the time of its last event. -/
structure Clocked (ι : Type) where
  state : DeliveryState ι
  now : ℤ

namespace Clocked

def initial (subscriptions : Table WebhookSubscription.id) (now : ℤ) : Clocked ι where
  state := .initial subscriptions
  now := now

/-- One event, not before the last one. `ok` may leave events out. -/
def tick (sys : System) (ok : DeliveryState ι → QueueEvent ι → Bool) (c : Clocked ι)
    (e : ℤ × QueueEvent ι) : Option (Clocked ι) :=
  if c.now ≤ e.1 ∧ ok c.state e.2 then do
    let event ← e.2.delivery sys c.state e.1
    let state ← c.state.next event
    pure ⟨state, e.1⟩
  else none

def run (sys : System) (ok : DeliveryState ι → QueueEvent ι → Bool) (c : Clocked ι)
    (es : List (ℤ × QueueEvent ι)) : Option (Clocked ι) :=
  es.foldlM (tick sys ok) c

/-- The event happens, if it can. -/
def advance (sys : System) (c : Clocked ι) (event : QueueEvent ι) : Clocked ι :=
  (c.tick sys (fun _ _ => true) (c.now, event)).getD c

/-- What is left of a worker's turn, when no other worker comes in between. -/
def turn (sys : System) (c : Clocked ι) (i : ι) (check connect : String → Lookup)
    (client : Option ClientAnswer) : Clocked ι :=
  ((c.advance sys (.load i)).advance sys (.attempt i check connect client)).advance sys (.commit i)

end Clocked

/-! Steps that end no turn -/

/-- No worker lets its row go, only a claim takes one, and rows that have been in the queue
are as they were. -/
structure Quiet (s s' : DeliveryState ι) (e : DeliveryEvent ι) : Prop where
  holds : ∀ i row p, s.queue.held i = some (row, p) → ∃ p', s'.queue.held i = some (row, p')
  held : ∀ i row p, s'.queue.held i = some (row, p) → (∃ p', s.queue.held i = some (row, p')) ∨
    ∃ now, e = .claim i row.id now ∧ row.nextRetryAt ≤ now
  owner : ∀ id, s'.queue.owner id = s.queue.owner id ∨
    ∃ i now, e = .claim i id now ∧ s'.queue.owner id = some i
  find : ∀ id ∈ s.queue.seen, s'.queue.rows.find id = s.queue.rows.find id
  seen : ∀ id ∈ s.queue.seen, id ∈ s'.queue.seen

variable {s s' : DeliveryState ι} {e : DeliveryEvent ι}

omit [DecidableEq ι] in
theorem quiet_of_queue (h : s'.queue = s.queue) : Quiet s s' e where
  holds i row p hi := ⟨p, by rw [h]; exact hi⟩
  held i row p hi := .inl ⟨p, by rw [h] at hi; exact hi⟩
  owner id := .inl (by rw [h])
  find id _ := by rw [h]
  seen id hid := by rw [h]; exact hid

theorem quiet_work {i : ι} {p : DeliveryProgress} :
    Quiet s { s with queue := s.queue.work i p } e where
  holds j row q hj := by
    dsimp only
    unfold WorkQueue.State.work
    split
    · exact ⟨q, hj⟩
    · next row' q' hi =>
      by_cases hji : j = i
      · subst hji
        rw [hi] at hj
        cases hj
        exact ⟨p, by simp⟩
      · exact ⟨q, by simpa [Function.update_of_ne hji] using hj⟩
  held j row q hj := by
    obtain ⟨q', hq', -⟩ := WorkQueue.State.held_work hj
    exact .inl ⟨q', hq'⟩
  owner id := .inl (by
    dsimp only
    unfold WorkQueue.State.work
    split <;> rfl)
  find id _ := by
    dsimp only
    unfold WorkQueue.State.work
    split <;> rfl
  seen id hid := by
    dsimp only
    unfold WorkQueue.State.work
    split <;> exact hid

omit [DecidableEq ι] in
theorem quiet_dispatched (q : DeliveryQueue ι) (rows : List WebhookPendingDelivery) :
    (dispatched q rows).held = q.held ∧ (dispatched q rows).owner = q.owner ∧
      (∀ id ∈ q.seen, (dispatched q rows).rows.find id = q.rows.find id) ∧
      ∀ id ∈ q.seen, id ∈ (dispatched q rows).seen := by
  induction rows generalizing q with
  | nil => exact ⟨rfl, rfl, fun _ _ => rfl, fun _ h => h⟩
  | cons row rest ih =>
    obtain ⟨hheld, howner, hfind, hseen⟩ := ih (q.enqueue row)
    have hone : (q.enqueue row).held = q.held ∧ (q.enqueue row).owner = q.owner ∧
        (∀ id ∈ q.seen, (q.enqueue row).rows.find id = q.rows.find id) ∧
        ∀ id ∈ q.seen, id ∈ (q.enqueue row).seen := by
      unfold WorkQueue.State.enqueue
      split
      · exact ⟨rfl, rfl, fun _ _ => rfl, fun _ h => h⟩
      · next hnew =>
        refine ⟨rfl, rfl, fun id hid => ?_, fun id hid => List.mem_cons_of_mem _ hid⟩
        exact Table.find_insert_of_ne fun heq => hnew (heq ▸ hid)
    refine ⟨hheld.trans hone.1, howner.trans hone.2.1, fun id hid => ?_, fun id hid => ?_⟩
    · exact (hfind id (hone.2.2.2 id hid)).trans (hone.2.2.1 id hid)
    · exact hseen id (hone.2.2.2 id hid)

theorem quiet_claim {i : ι} {id : UUID} {now : ℤ}
    (hn : s.next (.claim i id now) = some s') : Quiet s s' (.claim i id now) := by
  simp only [DeliveryState.next] at hn
  split at hn
  · next left row _ hrow =>
    split at hn
    · next hdue =>
      obtain ⟨queue, hclaim, rfl⟩ := Option.map_eq_some_iff.mp hn
      obtain ⟨row', hrow', hfree, hidle, rfl⟩ := WorkQueue.State.claim_eq hclaim
      obtain rfl : row' = row := Option.some.inj (hrow'.symm.trans hrow)
      have hid : row'.id = id := (Table.find_eq_some.mp hrow').2
      refine ⟨fun j row p hj => ?_, fun j row p hj => ?_, fun id' => ?_, fun _ _ => rfl,
        fun _ h => h⟩
      · have hji : j ≠ i := by
          rintro rfl
          rw [hidle] at hj
          cases hj
        exact ⟨p, by simpa [Function.update_of_ne hji] using hj⟩
      · by_cases hji : j = i
        · subst hji
          simp only [Function.update_self, Option.some.injEq, Prod.mk.injEq] at hj
          obtain ⟨rfl, -⟩ := hj
          exact .inr ⟨now, by rw [hid], hdue.2⟩
        · simp only [Function.update_of_ne hji] at hj
          exact .inl ⟨p, hj⟩
      · by_cases hid' : id' = id
        · subst hid'
          exact .inr ⟨i, now, rfl, by simp⟩
        · exact .inl (by simp [Function.update_of_ne hid'])
    · cases hn
  · cases hn

/-- Every step but a commit and a crash is quiet. -/
theorem quiet_next (hn : s.next e = some s') (hcommit : ∀ i now, e ≠ .commit i now)
    (hcrash : ∀ i, e ≠ .crash i) : Quiet s s' e := by
  cases e with
  | dispatch ids tenantId eventType data now =>
    simp only [DeliveryState.next] at hn
    split at hn
    · cases hn
      obtain ⟨hheld, howner, hfind, hseen⟩ := quiet_dispatched s.queue
        (queuedDeliveries ids tenantId eventType data now
          (listMatchingSubscriptions tenantId eventType
            { Integrations.empty now with subscriptions := s.subscriptions }))
      refine ⟨fun i row p hi => ⟨p, ?_⟩, fun i row p hi => .inl ⟨p, ?_⟩, fun id => .inl ?_, hfind,
        hseen⟩
      · dsimp only
        rw [hheld]
        exact hi
      · dsimp only at hi
        rwa [hheld] at hi
      · dsimp only
        rw [howner]
    · cases hn
  | subscriptions changed =>
    simp only [DeliveryState.next] at hn
    split at hn
    · cases hn
      exact quiet_of_queue rfl
    · cases hn
  | start i maxRows =>
    simp only [DeliveryState.next] at hn
    split at hn
    · cases hn
      exact quiet_of_queue rfl
    · cases hn
  | claim i id now => exact quiet_claim hn
  | stop i now =>
    simp only [DeliveryState.next] at hn
    split at hn
    · split at hn
      · cases hn
        exact quiet_of_queue rfl
      · cases hn
    · cases hn
  | load i =>
    simp only [DeliveryState.next] at hn
    split at hn
    · cases hn
      exact quiet_work
    · cases hn
  | post i answer =>
    simp only [DeliveryState.next] at hn
    split at hn
    · split at hn
      · cases hn
        exact quiet_work
      · cases hn
    · cases hn
  | commit i now => exact absurd rfl (hcommit i now)
  | crash i => exact absurd rfl (hcrash i)

/-! The end of a turn -/

theorem queueRetryDelay_pos (n : ℕ) : 0 < queueRetryDelaysSec.getD (min n 1) 0 := by
  cases n with
  | zero => decide
  | succ n =>
    have hmin : min (n + 1) 1 = 1 := by omega
    rw [hmin]
    decide

/-- A row that stays is a dead letter or is due later. -/
theorem process_moves {row : WebhookPendingDelivery} {sub : Option WebhookSubscription}
    {answer : Option HttpAnswer} {now : ℤ} {log : DeliveryLog}
    {change : Option (Change WebhookPendingDelivery.id)}
    (hout : processOnePendingRow row sub answer now = some (log, change)) :
    ∀ c ∈ change, (c.apply row).status = "dead_letter" ∨ now < (c.apply row).nextRetryAt := by
  unfold processOnePendingRow at hout
  split at hout
  · cases hout
    nofun
  · obtain ⟨a, -, hpass⟩ := Option.map_eq_some_iff.mp hout
    dsimp only at hpass
    split at hpass
    · cases hpass
      nofun
    · split at hpass
      · cases hpass
        intro c hc
        cases hc
        exact .inl rfl
      · cases hpass
        intro c hc
        cases hc
        refine .inr ?_
        have hdelay := queueRetryDelay_pos row.attemptCount
        change now < now + queueRetryDelaysSec.getD (min (row.attemptCount + 1 - 1) 1) 0
        rw [Nat.add_sub_cancel]
        omega

/-- The row has gone, is a dead letter, or is due after the given time. -/
def MovedPast (s : DeliveryState ι) (id : UUID) (time : ℤ) : Prop :=
  ∀ row ∈ s.queue.rows.find id, row.status = "dead_letter" ∨ time < row.nextRetryAt

/-- A commit lets one row go, moved on, and leaves the others and their workers alone. -/
theorem commit_step (h : Inv s) {i : ι} {now : ℤ} (hn : s.next (.commit i now) = some s') :
    ∃ row p, s.queue.held i = some (row, p) ∧ MovedPast s' row.id now ∧
      (∀ j ≠ i, s'.queue.held j = s.queue.held j) ∧ s'.queue.held i = none ∧
      s'.queue.owner = Function.update s.queue.owner row.id none ∧
      (∀ id ≠ row.id, s'.queue.rows.find id = s.queue.rows.find id) ∧
      s'.queue.seen = s.queue.seen := by
  obtain ⟨row, p, sub, answer, log, change, hheld, -, hout, rfl⟩ := commit_cases h hn
  have hfind := (h.sound.held i row p hheld).2
  refine ⟨row, p, hheld, ?_, ?_, ?_, ?_, ?_, ?_⟩
  · intro row' hrow'
    dsimp only at hrow'
    rw [WorkQueue.State.commit_eq hheld, WorkQueue.State.find_resolved_self
      (by rw [WorkQueue.State.rows_release]; exact hfind)] at hrow'
    obtain ⟨c, hc, rfl⟩ := Option.map_eq_some_iff.mp hrow'
    exact process_moves hout c hc
  · intro j hji
    simp [WorkQueue.State.commit, WorkQueue.State.resolved, WorkQueue.State.release, hheld,
      Function.update_of_ne hji]
  · simp [WorkQueue.State.commit, WorkQueue.State.resolved, WorkQueue.State.release, hheld]
  · simp [WorkQueue.State.commit, WorkQueue.State.resolved, WorkQueue.State.release, hheld]
  · intro id hid
    dsimp only
    rw [WorkQueue.State.commit_eq hheld, WorkQueue.State.find_resolved_of_ne hid,
      WorkQueue.State.rows_release]
  · dsimp only
    rw [WorkQueue.State.commit_eq hheld]
    exact WorkQueue.State.seen_release

/-! Runs -/

namespace Clocked

variable {sys : System} {ok : DeliveryState ι → QueueEvent ι → Bool} {c c' : Clocked ι} {now : ℤ}
  {event : QueueEvent ι}

theorem tick_eq_some : tick sys ok c (now, event) = some c' ↔
    c.now ≤ now ∧ ok c.state event = true ∧ c'.now = now ∧
      ∃ e, event.delivery sys c.state now = some e ∧ c.state.next e = some c'.state := by
  unfold tick
  split
  · next h =>
    simp only [bind, Option.bind_eq_some_iff, pure, Option.some.injEq]
    constructor
    · rintro ⟨e, he, state, hstate, rfl⟩
      exact ⟨h.1, h.2, rfl, e, he, hstate⟩
    · rintro ⟨-, -, rfl, e, he, hstate⟩
      exact ⟨e, he, _, hstate, rfl⟩
  · next h => exact iff_of_false nofun fun h' => h ⟨h'.1, h'.2.1⟩

/-- What holds of every run: no worker holds a row that is not due yet. -/
structure Sound (c : Clocked ι) : Prop where
  inv : Inv c.state
  due : ∀ i row p, c.state.queue.held i = some (row, p) → row.nextRetryAt ≤ c.now

omit [DecidableEq ι] in
/-- In the order of the queue an event is what it is at its time. -/
theorem delivery_cases {s : DeliveryState ι} {e : DeliveryEvent ι}
    (h : event.delivery sys s now = some e) :
    (∃ i, event = .commit i ∧ e = .commit i now) ∨
      (∃ i, e = .crash i ∧ event.clean sys s = false) ∨
      (∃ i id, event = .claim i id ∧ e = .claim i id now ∧ First s id now) ∨
      ((∀ i t, e ≠ .commit i t) ∧ (∀ i, e ≠ .crash i) ∧ ∀ i id t, e ≠ .claim i id t) := by
  cases event with
  | dispatch ids tenantId eventType data =>
    cases h
    exact .inr (.inr (.inr ⟨nofun, nofun, nofun⟩))
  | subscriptions changed =>
    cases h
    exact .inr (.inr (.inr ⟨nofun, nofun, nofun⟩))
  | start i maxRows =>
    cases h
    exact .inr (.inr (.inr ⟨nofun, nofun, nofun⟩))
  | stop i =>
    cases h
    exact .inr (.inr (.inr ⟨nofun, nofun, nofun⟩))
  | load i =>
    cases h
    exact .inr (.inr (.inr ⟨nofun, nofun, nofun⟩))
  | claim i id =>
    obtain ⟨hfirst, he⟩ := Option.ite_none_right_eq_some.mp h
    cases he
    exact .inr (.inr (.inl ⟨i, id, rfl, rfl, hfirst⟩))
  | commit i =>
    cases h
    exact .inl ⟨i, rfl, rfl⟩
  | attempt i check connect client =>
    simp only [QueueEvent.delivery] at h
    split at h
    · next row sub hheld =>
      split at h
      · next hwants =>
        split at h
        · cases h
          exact .inr (.inr (.inr ⟨nofun, nofun, nofun⟩))
        · next e' herror =>
          cases h
          refine .inr (.inl ⟨i, rfl, ?_⟩)
          simp only [QueueEvent.clean, hheld]
          refine Bool.eq_false_iff.mpr fun hclean => ?_
          rw [decide_eq_true hwants, Bool.not_true, Bool.false_or] at hclean
          obtain ⟨answer, hanswer⟩ := delivery_result_iff.mpr hclean
          rw [herror] at hanswer
          cases hanswer
        · cases h
      · cases h
    · cases h

omit [DecidableEq ι] in
theorem sound_initial (subscriptions : Table WebhookSubscription.id) (now : ℤ) :
    Sound (initial subscriptions now : Clocked ι) := ⟨inv_initial subscriptions, nofun⟩

theorem Sound.tick (h : Sound c) (ht : tick sys ok c (now, event) = some c') : Sound c' := by
  obtain ⟨hlate, -, htime, e, hdelivery, hn⟩ := tick_eq_some.mp ht
  refine ⟨h.inv.next hn, fun i row p hi => ?_⟩
  rw [htime]
  have hold : ∀ j row q, c.state.queue.held j = some (row, q) → row.nextRetryAt ≤ now :=
    fun j row q hj => (h.due j row q hj).trans hlate
  rcases delivery_cases hdelivery with ⟨k, -, rfl⟩ | ⟨k, rfl, -⟩ | ⟨k, id, -, rfl, -⟩ |
    ⟨hcommit, hcrash, hclaim⟩
  · obtain ⟨_, _, _, -, hother, hnone, -⟩ := commit_step h.inv hn
    by_cases hik : i = k
    · rw [hik, hnone] at hi
      cases hi
    · rw [hother i hik] at hi
      exact hold i row p hi
  · simp only [DeliveryState.next, Option.some.injEq] at hn
    rw [← hn] at hi
    exact hold i row p (WorkQueue.State.held_release hi).2
  · have hquiet := quiet_next hn (fun _ _ h => by cases h) fun _ h => by cases h
    rcases hquiet.held i row p hi with ⟨q, hq⟩ | ⟨t, heq, hdue⟩
    · exact hold i row q hq
    · cases heq
      exact hdue
  · rcases (quiet_next hn hcommit hcrash).held i row p hi with ⟨q, hq⟩ | ⟨t, heq, -⟩
    · exact hold i row q hq
    · exact absurd heq (hclaim i row.id t)

theorem Sound.run (h : Sound c) {es : List (ℤ × QueueEvent ι)} (hrun : run sys ok c es = some c') :
    Sound c' ∧ c.now ≤ c'.now := by
  induction es generalizing c with
  | nil =>
    cases hrun
    exact ⟨h, le_rfl⟩
  | cons e rest ih =>
    obtain ⟨c₁, htick, hrest⟩ := Option.bind_eq_some_iff.mp hrun
    obtain ⟨hsound, hlater⟩ := ih (h.tick htick) hrest
    obtain ⟨hlate, -, htime, -⟩ := tick_eq_some.mp htick
    exact ⟨hsound, hlate.trans (htime ▸ hlater)⟩

/-- A turn that ends has moved its row on, where the checks end cleanly. -/
theorem Sound.turn_moves (h : Sound c)
    (ht : Clocked.tick sys (fun s e => e.clean sys s) c (now, event) = some c') {i : ι}
    {row : WebhookPendingDelivery} {p : DeliveryProgress}
    (hheld : c.state.queue.held i = some (row, p)) (hend : c'.state.queue.held i = none) :
    MovedPast c'.state row.id row.nextRetryAt := by
  obtain ⟨hlate, hclean, -, e, hdelivery, hn⟩ := tick_eq_some.mp ht
  have hquiet : (∀ i t, e ≠ .commit i t) → (∀ i, e ≠ .crash i) →
      MovedPast c'.state row.id row.nextRetryAt := by
    intro hcommit hcrash
    obtain ⟨q, hq⟩ := (quiet_next hn hcommit hcrash).holds i row p hheld
    rw [hend] at hq
    cases hq
  rcases delivery_cases hdelivery with ⟨k, -, rfl⟩ | ⟨k, -, hunclean⟩ | ⟨k, id, -, rfl, -⟩ |
    ⟨hcommit, hcrash, -⟩
  · obtain ⟨row', p', hheld', hmoved, hother, -⟩ := commit_step h.inv hn
    by_cases hik : i = k
    · subst hik
      rw [hheld] at hheld'
      cases hheld'
      intro row' hrow'
      have hdue := (h.due i row p hheld).trans hlate
      exact (hmoved row' hrow').imp_right fun hlater => hdue.trans_lt hlater
    · rw [hother i hik, hheld] at hend
      cases hend
  · rw [hunclean] at hclean
    cases hclean
  · exact hquiet nofun nofun
  · exact hquiet hcommit hcrash

/-! A turn to its end -/

theorem advance_eq {e : DeliveryEvent ι} {s' : DeliveryState ι}
    (hdelivery : event.delivery sys c.state c.now = some e) (hn : c.state.next e = some s') :
    c.advance sys event = ⟨s', c.now⟩ := by
  have htick : c.tick sys (fun _ _ => true) (c.now, event) = some ⟨s', c.now⟩ :=
    tick_eq_some.mpr ⟨le_rfl, rfl, rfl, e, hdelivery, hn⟩
  unfold advance
  rw [htick]
  rfl

/-- What cannot happen changes nothing. -/
theorem advance_idle (h : ∀ e, event.delivery sys c.state c.now = some e → c.state.next e = none) :
    c.advance sys event = c := by
  unfold advance
  cases htick : c.tick sys (fun _ _ => true) (c.now, event) with
  | none => rfl
  | some c' =>
    obtain ⟨-, -, -, e, hdelivery, hn⟩ := tick_eq_some.mp htick
    rw [h e hdelivery] at hn
    cases hn

theorem Sound.advanced (h : Sound c) : Sound (c.advance sys event) := by
  unfold advance
  cases htick : c.tick sys (fun _ _ => true) (c.now, event) with
  | none => exact h
  | some c' => exact h.tick htick

/-- A commit that has an outcome happens, and moves the row on. -/
theorem Sound.commit_moves (h : Sound c) {i : ι} {row : WebhookPendingDelivery}
    {p : DeliveryProgress} {sub : Option WebhookSubscription} {answer : Option HttpAnswer}
    (hheld : c.state.queue.held i = some (row, p))
    (hp : p = .loaded sub ∧ answer = none ∨ ∃ a, p = .answered sub a ∧ answer = some a)
    (hout : (processOnePendingRow row sub answer c.now).isSome) :
    (c.advance sys (.commit i)).state.queue.held i = none ∧
      MovedPast (c.advance sys (.commit i)).state row.id row.nextRetryAt := by
  obtain ⟨⟨log, change⟩, hprocess⟩ := Option.isSome_iff_exists.mp hout
  obtain ⟨s', hn⟩ : ∃ s', c.state.next (.commit i c.now) = some s' := by
    simp only [DeliveryState.next, hheld]
    rcases hp with ⟨rfl, rfl⟩ | ⟨a, rfl, rfl⟩
    · simp only [hprocess]
      split <;> exact ⟨_, rfl⟩
    · simp only [hprocess]
      split <;> exact ⟨_, rfl⟩
  obtain ⟨row', p', hheld', hmoved, -, hnone, -⟩ := commit_step h.inv hn
  rw [hheld] at hheld'
  cases hheld'
  rw [advance_eq rfl hn]
  refine ⟨hnone, fun row' hrow' => (hmoved row' hrow').imp_right fun hlater => ?_⟩
  exact (h.due i row p hheld).trans_lt hlater

/-- The subscription has been read. -/
theorem advance_load {i : ι} {row : WebhookPendingDelivery} {p : DeliveryProgress}
    (hheld : c.state.queue.held i = some (row, p)) :
    ∃ p', (c.advance sys (.load i)).state.queue.held i = some (row, p') ∧ p' ≠ .claimed := by
  by_cases hp : p = .claimed
  · subst hp
    refine ⟨.loaded (c.state.subscriptions.find row.webhookSubscriptionId), ?_, nofun⟩
    have hload : c.state.next (.load i) = some { c.state with
        queue := c.state.queue.work i
          (.loaded (c.state.subscriptions.find row.webhookSubscriptionId)) } := by
      simp only [DeliveryState.next, hheld]
    rw [advance_eq rfl hload]
    simp [WorkQueue.State.work, hheld]
  · refine ⟨p, ?_, hp⟩
    rw [advance_idle fun e he => ?_]
    · exact hheld
    · cases he
      simp only [DeliveryState.next, hheld]
      split
      · next heq =>
        cases heq
        exact absurd rfl hp
      · rfl

section Attempt
variable {i : ι} {check connect : String → Lookup} {client : Option ClientAnswer}
  {row : WebhookPendingDelivery} {sub : WebhookSubscription}

/-- An exception puts the row back as it was. -/
theorem Sound.attempt_raises (h : Sound c)
    (hheld : c.state.queue.held i = some (row, .loaded (some sub)))
    (hwants : Wants (some sub) row.eventType) {e : CheckError}
    (hresult : (singleHttpDelivery sys check connect client sub.url).result = some (.error e)) :
    let c' := (c.advance sys (.attempt i check connect client)).advance sys (.commit i)
    ¬ MovedPast c'.state row.id row.nextRetryAt := by
  have hattempt : c.advance sys (.attempt i check connect client) = ⟨{ c.state with
      queue := c.state.queue.release i
      batch := Function.update c.state.batch i none }, c.now⟩ := by
    refine advance_eq (e := .crash i) ?_ rfl
    simp only [QueueEvent.delivery, hheld, if_pos hwants, hresult]
  have hidle : (c.advance sys (.attempt i check connect client)).advance sys (.commit i) =
      c.advance sys (.attempt i check connect client) := by
    refine advance_idle fun e he => ?_
    cases he
    rw [hattempt]
    simp [DeliveryState.next, WorkQueue.State.release, hheld]
  intro c' hmoved
  have hfind : c'.state.queue.rows.find row.id = some row := by
    change ((c.advance sys (.attempt i check connect client)).advance sys
      (.commit i)).state.queue.rows.find row.id = some row
    rw [hidle, hattempt]
    change (c.state.queue.release i).rows.find row.id = some row
    rw [WorkQueue.State.rows_release]
    exact (h.inv.sound.held i row _ hheld).2
  rcases hmoved row hfind with hdead | hlater
  · have hpending := h.inv.pending i row _ hheld
    rw [hdead] at hpending
    exact absurd hpending (by decide)
  · exact lt_irrefl _ hlater

/-- As long as the request does not come back, the worker keeps its row. -/
theorem attempt_waits (hheld : c.state.queue.held i = some (row, .loaded (some sub)))
    (hwants : Wants (some sub) row.eventType)
    (hresult : (singleHttpDelivery sys check connect client sub.url).result = none) :
    let c' := (c.advance sys (.attempt i check connect client)).advance sys (.commit i)
    c'.state.queue.held i ≠ none := by
  have hattempt : c.advance sys (.attempt i check connect client) = c := by
    refine advance_idle fun e he => ?_
    simp only [QueueEvent.delivery, hheld, if_pos hwants, hresult] at he
    cases he
  have hcommit : c.advance sys (.commit i) = c := by
    refine advance_idle fun e he => ?_
    cases he
    simp [DeliveryState.next, hheld, processOnePendingRow, hwants]
  intro c' hnone
  have hsame : c' = c := by
    change (c.advance sys (.attempt i check connect client)).advance sys (.commit i) = c
    rw [hattempt, hcommit]
  rw [hsame, hheld] at hnone
  cases hnone

theorem Sound.attempt_answered (h : Sound c)
    (hheld : c.state.queue.held i = some (row, .loaded (some sub)))
    (hwants : Wants (some sub) row.eventType) {answer : HttpAnswer}
    (hresult : (singleHttpDelivery sys check connect client sub.url).result =
      some (.ok answer)) :
    let c' := (c.advance sys (.attempt i check connect client)).advance sys (.commit i)
    c'.state.queue.held i = none ∧ MovedPast c'.state row.id row.nextRetryAt := by
  have hattempt : c.advance sys (.attempt i check connect client) = ⟨{ c.state with
      queue := c.state.queue.work i (.answered (some sub) answer) }, c.now⟩ := by
    refine advance_eq (e := .post i answer) ?_ ?_
    · simp only [QueueEvent.delivery, hheld, if_pos hwants, hresult]
    · simp only [DeliveryState.next, hheld, if_pos hwants]
  have hanswered : (c.advance sys (.attempt i check connect client)).state.queue.held i =
      some (row, .answered (some sub) answer) := by
    rw [hattempt]
    simp [WorkQueue.State.work, hheld]
  have hout : ∀ now, (processOnePendingRow row (some sub) (some answer) now).isSome := by
    intro now
    unfold processOnePendingRow
    split <;> rfl
  exact h.advanced.commit_moves hanswered (.inr ⟨answer, rfl, rfl⟩) (hout _)

/-- From the reading of its subscription on, the turn of a worker ends with its row moved on
exactly if its attempt ends cleanly. -/
theorem Sound.attempt_moves_iff (h : Sound c) {p : DeliveryProgress}
    (hheld : c.state.queue.held i = some (row, p)) (hp : p ≠ .claimed) :
    let c' := (c.advance sys (.attempt i check connect client)).advance sys (.commit i)
    (c'.state.queue.held i = none ∧ MovedPast c'.state row.id row.nextRetryAt) ↔
      (QueueEvent.attempt i check connect client).clean sys c.state = true := by
  -- an attempt that does not have to be made leaves the commit to be done
  have hskip : (QueueEvent.attempt i check connect client).delivery sys c.state c.now = none →
      (c.advance sys (.attempt i check connect client)).advance sys (.commit i) =
        c.advance sys (.commit i) := by
    intro hnone
    rw [advance_idle fun e he => absurd (hnone.symm.trans he) nofun]
  cases p with
  | claimed => exact absurd rfl hp
  | answered sub answer =>
    rw [hskip (by simp only [QueueEvent.delivery, hheld])]
    refine iff_of_true (h.commit_moves hheld (.inr ⟨answer, rfl, rfl⟩) ?_)
      (by simp only [QueueEvent.clean, hheld])
    unfold processOnePendingRow
    split <;> rfl
  | loaded sub =>
    by_cases hwants : Wants sub row.eventType
    · cases sub with
      | none => exact absurd hwants (by simp [Wants])
      | some sub =>
        have hclean : (QueueEvent.attempt i check connect client).clean sys c.state = true ↔
            ∃ answer, (singleHttpDelivery sys check connect client sub.url).result =
              some (.ok answer) := by
          simp only [QueueEvent.clean, hheld, decide_eq_true hwants, Bool.not_true, Bool.false_or]
          exact delivery_result_iff.symm
        rw [hclean]
        cases hresult : (singleHttpDelivery sys check connect client sub.url).result with
        | none => exact iff_of_false (fun hend => attempt_waits hheld hwants hresult hend.1) nofun
        | some outcome =>
          cases outcome with
          | error e =>
            exact iff_of_false (fun hend => h.attempt_raises hheld hwants hresult hend.2) nofun
          | ok answer => exact iff_of_true (h.attempt_answered hheld hwants hresult) ⟨answer, rfl⟩
    · rw [hskip (by cases sub <;> simp [QueueEvent.delivery, hheld, hwants])]
      refine iff_of_true (h.commit_moves hheld (.inl ⟨rfl, rfl⟩) ?_) ?_
      · unfold processOnePendingRow
        rw [if_pos hwants]
        rfl
      · cases sub <;> simp [QueueEvent.clean, hheld, hwants]

end Attempt

/-- The row waits for its turn, and the other one is being served or has been moved behind. -/
structure Passed (s : DeliveryState ι) (waiting : WebhookPendingDelivery) (id : UUID) (time : ℤ) :
    Prop where
  waits : s.queue.rows.find waiting.id = some waiting
  free : s.queue.owner waiting.id = none
  known : id ∈ s.queue.seen
  behind : s.queue.owner id ≠ none ∨ MovedPast s id time

theorem Passed.tick {waiting : WebhookPendingDelivery} {id : UUID} {time : ℤ} (h : Sound c)
    (hpassed : Passed c.state waiting id time) (htime : time ≤ c.now)
    (ht : Clocked.tick sys (fun s e => e.clean sys s) c (now, event) = some c')
    (hturn : ∀ k, event ≠ .claim k waiting.id) : Passed c'.state waiting id time := by
  obtain ⟨hlate, hclean, -, e, hdelivery, hn⟩ := tick_eq_some.mp ht
  have hseen := h.inv.sound.seen _ _ hpassed.waits
  have hquiet : (∀ i t, e ≠ .commit i t) → (∀ i, e ≠ .crash i) →
      (∀ i t, e ≠ .claim i waiting.id t) → Passed c'.state waiting id time := by
    intro hcommit hcrash hclaim
    have hstep := quiet_next hn hcommit hcrash
    refine ⟨(hstep.find _ hseen).trans hpassed.waits, ?_, hstep.seen _ hpassed.known, ?_⟩
    · rcases hstep.owner waiting.id with hsame | ⟨i, t, heq, -⟩
      · exact hsame.trans hpassed.free
      · exact absurd heq (hclaim i t)
    · rcases hpassed.behind with hserved | hmoved
      · refine .inl ?_
        rcases hstep.owner id with hsame | ⟨i, t, -, hsome⟩
        · rwa [hsame]
        · rw [hsome]
          nofun
      · refine .inr fun row hrow => hmoved row ?_
        rwa [hstep.find id hpassed.known] at hrow
  rcases delivery_cases hdelivery with ⟨k, -, rfl⟩ | ⟨k, -, hunclean⟩ | ⟨k, id', rfl, rfl, -⟩ |
    ⟨hcommit, hcrash, hclaim⟩
  · obtain ⟨row, p, hheld, hmoved, -, -, howner, hfind, hsame⟩ := commit_step h.inv hn
    have hne : waiting.id ≠ row.id := by
      intro heq
      have hfree := hpassed.free
      rw [heq, (h.inv.sound.held k row p hheld).1] at hfree
      cases hfree
    refine ⟨(hfind _ hne).trans hpassed.waits, ?_, hsame ▸ hpassed.known, ?_⟩
    · rw [howner, Function.update_of_ne hne]
      exact hpassed.free
    · by_cases hid : id = row.id
      · refine .inr fun row' hrow' => ?_
        rw [hid] at hrow'
        exact (hmoved row' hrow').imp_right fun hlater => (htime.trans hlate).trans_lt hlater
      · rcases hpassed.behind with hserved | hbehind
        · refine .inl ?_
          rwa [howner, Function.update_of_ne hid]
        · refine .inr fun row' hrow' => hbehind row' ?_
          rwa [hfind id hid] at hrow'
  · rw [hunclean] at hclean
    cases hclean
  · refine hquiet nofun nofun fun i t heq => ?_
    cases heq
    exact hturn k rfl
  · exact hquiet hcommit hcrash fun i t => hclaim i _ t

theorem Passed.run {waiting : WebhookPendingDelivery} {id : UUID} {time : ℤ} (h : Sound c)
    (hpassed : Passed c.state waiting id time) (htime : time ≤ c.now)
    {es : List (ℤ × QueueEvent ι)}
    (hrun : Clocked.run sys (fun s e => e.clean sys s) c es = some c')
    (hturn : ∀ k t, (t, .claim k waiting.id) ∉ es) : Passed c'.state waiting id time := by
  induction es generalizing c with
  | nil =>
    cases hrun
    exact hpassed
  | cons e rest ih =>
    obtain ⟨c₁, htick, hrest⟩ := Option.bind_eq_some_iff.mp hrun
    obtain ⟨hlate, -, hnow, -⟩ := tick_eq_some.mp htick
    refine ih (h.tick htick) (hpassed.tick h htime htick fun k heq => ?_) ?_ hrest
      fun k t hmem => ?_
    · exact hturn k e.1 (List.mem_cons.mpr (.inl (Prod.ext rfl heq.symm)))
    · rw [hnow]
      exact htime.trans hlate
    · exact hturn k t (List.mem_cons_of_mem _ hmem)

/-- A row that is taken again leaves no row behind that was due and free with it. -/
theorem Sound.others_first (h : Sound c) {i j : ι} {id : UUID} {first second : ℤ}
    {c₁ c₂ c₃ : Clocked ι} {es : List (ℤ × QueueEvent ι)}
    (hfirst : Clocked.tick sys (fun s e => e.clean sys s) c (first, .claim i id) = some c₁)
    (hrun : Clocked.run sys (fun s e => e.clean sys s) c₁ es = some c₂)
    (hsecond : Clocked.tick sys (fun s e => e.clean sys s) c₂ (second, .claim j id) = some c₃)
    {other : WebhookPendingDelivery} (hother : other ∈ c.state.queue.rows.rows)
    (hne : other.id ≠ id) (hdue : Due other first) (hfree : c.state.queue.owner other.id = none) :
    ∃ k t, (t, .claim k other.id) ∈ es := by
  by_contra hturn
  push Not at hturn
  have hsound₁ := h.tick hfirst
  have hmonotone := (hsound₁.run hrun).2
  obtain ⟨-, -, htime₁, e, hdelivery, hn⟩ := tick_eq_some.mp hfirst
  obtain ⟨-, he⟩ := Option.ite_none_right_eq_some.mp hdelivery
  cases he
  have hstep := quiet_next hn (fun _ _ h => by cases h) fun _ h => by cases h
  have hfind := Table.find_of_mem hother
  have hclaimed : ∃ row, c.state.queue.rows.find id = some row ∧
      c₁.state.queue.owner id = some i := by
    simp only [DeliveryState.next] at hn
    split at hn
    · next left row _ hrow =>
      split at hn
      · obtain ⟨queue, hclaim, hstate⟩ := Option.map_eq_some_iff.mp hn
        obtain ⟨row', -, -, -, rfl⟩ := WorkQueue.State.claim_eq hclaim
        exact ⟨row, hrow, by rw [← hstate]; simp⟩
      · cases hn
    · cases hn
  obtain ⟨row, hrow, howner⟩ := hclaimed
  have hpassed : Passed c₁.state other id first := by
    refine ⟨(hstep.find _ (h.inv.sound.seen _ _ hfind)).trans hfind, ?_,
      hstep.seen _ (h.inv.sound.seen _ _ hrow), .inl (by rw [howner]; exact Option.some_ne_none i)⟩
    rcases hstep.owner other.id with hsame | ⟨k, t, heq, -⟩
    · exact hsame.trans hfree
    · cases heq
      exact absurd rfl hne
  have hlast := hpassed.run hsound₁ htime₁.ge hrun hturn
  obtain ⟨hlate₂, -, -, e₂, hdelivery₂, hn₂⟩ := tick_eq_some.mp hsecond
  obtain ⟨horder, he₂⟩ := Option.ite_none_right_eq_some.mp hdelivery₂
  cases he₂
  simp only [DeliveryState.next] at hn₂
  split at hn₂
  · next left row₂ _ hrow₂ =>
    split at hn₂
    · next hdue₂ =>
      obtain ⟨queue, hclaim, -⟩ := Option.map_eq_some_iff.mp hn₂
      obtain ⟨_, -, hunowned, -⟩ := WorkQueue.State.claim_eq hclaim
      have hmember := (Table.find_eq_some.mp hlast.waits).1
      have hbefore := horder row₂ hrow₂ other hmember ⟨hdue.1, by have := hdue.2; omega⟩ hlast.free
      rcases hlast.behind with hserved | hmoved
      · exact hserved hunowned
      · rcases hmoved row₂ hrow₂ with hdead | hlater
        · have hpending := hdue₂.1
          rw [hdead] at hpending
          exact absurd hpending (by decide)
        · have hotherDue := hdue.2
          omega
    · cases hn₂
  · cases hn₂

end Clocked

/-- In every run in which each attempt ends cleanly, a turn removes its row or moves it on,
and no row is taken again before every row that was due and free with it. A worker that holds
a row ends its turn, and moves the row on, exactly if its attempt ends cleanly. -/
theorem queue_keeps_moving {sys : System} {subscriptions : Table WebhookSubscription.id}
    {opened : ℤ} {before : List (ℤ × QueueEvent ι)} {c : Clocked ι}
    (hrun : (Clocked.initial subscriptions opened).run sys (fun s e => e.clean sys s) before =
      some c) :
    (∀ now event c', c.tick sys (fun s e => e.clean sys s) (now, event) = some c' →
      ∀ i row p, c.state.queue.held i = some (row, p) → c'.state.queue.held i = none →
        MovedPast c'.state row.id row.nextRetryAt) ∧
    (∀ i id first c₁ between c₂ j second c₃,
      c.tick sys (fun s e => e.clean sys s) (first, .claim i id) = some c₁ →
      c₁.run sys (fun s e => e.clean sys s) between = some c₂ →
      c₂.tick sys (fun s e => e.clean sys s) (second, .claim j id) = some c₃ →
      ∀ other ∈ c.state.queue.rows.rows, other.id ≠ id → Due other first →
        c.state.queue.owner other.id = none → ∃ k t, (t, .claim k other.id) ∈ between) ∧
    ∀ i row p, c.state.queue.held i = some (row, p) → ∀ check connect client,
      let c' := c.turn sys i check connect client
      (c'.state.queue.held i = none ∧ MovedPast c'.state row.id row.nextRetryAt) ↔
        (QueueEvent.attempt i check connect client).clean sys (c.advance sys (.load i)).state =
          true := by
  have hsound := ((Clocked.sound_initial subscriptions opened).run hrun).1
  refine ⟨fun now event c' ht i row p hheld hend => hsound.turn_moves ht hheld hend, ?_, ?_⟩
  · intro i id first c₁ between c₂ j second c₃ hfirst hbetween hsecond other hother hne hdue hfree
    exact hsound.others_first hfirst hbetween hsecond hother hne hdue hfree
  · intro i row p hheld check connect client
    obtain ⟨p', hloaded, hp'⟩ := Clocked.advance_load hheld
    exact hsound.advanced.attempt_moves_iff hloaded hp'

/-! Two hooks of two tenants -/

def Demo.twoHooks : Table WebhookSubscription.id :=
  ⟨[⟨1, 1, "https://hooks.example.com/pms", ["booking.created"], true⟩,
    ⟨2, 2, "https://other.example.org/pms", ["booking.created"], true⟩], by decide⟩

/-- A delivery for each, the first one due a second earlier. -/
def Demo.twoDeliveries : List (ℤ × QueueEvent Unit) :=
  [(100, .dispatch (fun _ => 9) 1 "booking.created" "x"),
    (101, .dispatch (fun _ => 10) 2 "booking.created" "y"), (102, .start () 50)]

def Demo.turn (now : ℤ) (id : UUID) (answer : Lookup) : List (ℤ × QueueEvent Unit) :=
  [(now, .claim () id), (now, .load ()),
    (now, .attempt () (fun _ => answer) (fun _ => answer) (some (.response 500)))]

/-- The worker takes the first delivery, then the second one, then the first one again. -/
def Demo.others : List (ℤ × QueueEvent Unit) :=
  (Demo.turn 102 9 (.gaierror "timed out")).tail ++ [(103, .commit ())] ++
    Demo.turn 103 10 (.gaierror "timed out") ++
    [(104, .commit ()), (104, .stop ()), (200, .start () 50)]

def Demo.round : Option (Clocked Unit × Clocked Unit × Clocked Unit × Clocked Unit) := do
  let due ← (Clocked.initial Demo.twoHooks 100).run Demo.system (fun s e => e.clean Demo.system s)
    Demo.twoDeliveries
  let taken ← due.tick Demo.system (fun s e => e.clean Demo.system s) (102, .claim () 9)
  let passed ← taken.run Demo.system (fun s e => e.clean Demo.system s) Demo.others
  let again ← passed.tick Demo.system (fun s e => e.clean Demo.system s) (200, .claim () 9)
  pure (due, taken, passed, again)

/-- An answer ends the turn of the first delivery, a request that stays away does not. -/
theorem queue_keeps_moving_demo : ∃ due taken passed again row p,
    Demo.round = some (due, taken, passed, again) ∧ taken.state.queue.held () = some (row, p) ∧
    (∃ k t, (t, .claim k 10) ∈ Demo.others) ∧
    (∀ now c',
      taken.tick Demo.system (fun s e => e.clean Demo.system s) (now, .commit ()) = some c' →
      c'.state.queue.held () = none → MovedPast c'.state row.id row.nextRetryAt) ∧
    MovedPast (taken.turn Demo.system () (fun _ => .addresses ["93.184.216.34"])
      (fun _ => .addresses ["93.184.216.34"]) (some (.response 200))).state row.id row.nextRetryAt ∧
    (taken.turn Demo.system () (fun _ => .addresses ["93.184.216.34"])
      (fun _ => .addresses ["93.184.216.34"]) none).state.queue.held () ≠ none := by
  obtain ⟨⟨due, taken, passed, again⟩, hround, hfacts⟩ := Option.map_eq_some_iff.mp (show
    Demo.round.map (fun (due, taken, _, _) => (due.state.queue.rows.rows.map fun row =>
        (row.id, decide (Due row 102)), due.state.queue.owner 10,
      (taken.state.queue.held ()).isSome,
      (QueueEvent.attempt () (fun _ => .addresses ["93.184.216.34"])
        (fun _ => .addresses ["93.184.216.34"]) (some (.response 200))).clean Demo.system
          (taken.advance Demo.system (.load ())).state,
      ((taken.turn Demo.system () (fun _ => .addresses ["93.184.216.34"])
        (fun _ => .addresses ["93.184.216.34"]) none).state.queue.held ()).isSome)) =
      some ([(9, true), (10, true)], none, true, true, true) by decide)
  simp only [Prod.mk.injEq] at hfacts
  obtain ⟨hrows, hfree, hheld, hclean, hkept⟩ := hfacts
  obtain ⟨⟨row, p⟩, hheld⟩ := Option.isSome_iff_exists.mp hheld
  have hsteps := hround
  unfold Demo.round at hsteps
  obtain ⟨due', hbefore, hrest⟩ := Option.bind_eq_some_iff.mp hsteps
  obtain ⟨taken', hfirst, hrest⟩ := Option.bind_eq_some_iff.mp hrest
  obtain ⟨passed', hbetween, hrest⟩ := Option.bind_eq_some_iff.mp hrest
  obtain ⟨again', hsecond, hrest⟩ := Option.bind_eq_some_iff.mp hrest
  cases hrest
  have htaken : (Clocked.initial Demo.twoHooks 100).run Demo.system
      (fun s e => e.clean Demo.system s) (Demo.twoDeliveries ++ [(102, .claim () 9)]) =
      some taken := by
    unfold Clocked.run at hbefore ⊢
    rw [List.foldlM_append, hbefore]
    exact (bind_pure _).trans hfirst
  refine ⟨due, taken, passed, again, row, p, hround, hheld, ?_, ?_, ?_, ?_⟩
  · have hmem : (10, true) ∈ due.state.queue.rows.rows.map fun row =>
        (row.id, decide (Due row 102)) := by
      rw [hrows]
      decide
    obtain ⟨other, hother, hid⟩ := List.mem_map.mp hmem
    obtain ⟨hid, hdue⟩ := Prod.mk.inj hid
    have hturn := (queue_keeps_moving hbefore).2.1 () 9 102 taken Demo.others passed () 200 again
      hfirst hbetween hsecond other hother (by rw [hid]; decide) (of_decide_eq_true hdue)
      (by rw [hid]; exact hfree)
    rwa [hid] at hturn
  · exact fun now c' ht hend => (queue_keeps_moving htaken).1 now _ c' ht () row p hheld hend
  · exact (((queue_keeps_moving htaken).2.2 () row p hheld _ _ _).mpr hclean).2
  · intro hnone
    rw [hnone] at hkept
    cases hkept

/-- The lookup for the first one fails within the system. -/
def Demo.escape : Option (Clocked Unit × Clocked Unit × Clocked Unit) := do
  let due ← (Clocked.initial Demo.twoHooks 100).run Demo.system (fun _ _ => true)
    Demo.twoDeliveries
  let back ← due.run Demo.system (fun _ _ => true)
    (Demo.turn 102 9 .osError ++ [(107, .start () 50)])
  let again ← back.tick Demo.system (fun _ _ => true) (107, .claim () 9)
  pure (due, back, again)

/-- Its row is at the head of the queue again, as it was, and is taken again; the other
tenant's delivery, which is due, does not get its turn. -/
theorem queue_stands_still : ∃ due back again, Demo.escape = some (due, back, again) ∧
    (∃ other ∈ due.state.queue.rows.rows, other.id = 10 ∧ Due other 102 ∧
      due.state.queue.owner 10 = none) ∧
    (∀ k t, (t, QueueEvent.claim k 10) ∉ Demo.turn 102 9 .osError ++ [(107, .start () 50)]) ∧
    back.state.queue.rows.find 9 = due.state.queue.rows.find 9 ∧
    again.state.queue.owner 9 = some () := by
  obtain ⟨⟨due, back, again⟩, hescape, hfacts⟩ := Option.map_eq_some_iff.mp (show
    Demo.escape.map (fun (due, back, again) => (due.state.queue.rows.rows.map fun row =>
        (row.id, decide (Due row 102)), due.state.queue.owner 10,
      decide (back.state.queue.rows.find 9 = due.state.queue.rows.find 9),
      again.state.queue.owner 9)) = some ([(9, true), (10, true)], none, true, some ()) by
    decide)
  simp only [Prod.mk.injEq, decide_eq_true_eq] at hfacts
  obtain ⟨hrows, hfree, hback, hagain⟩ := hfacts
  refine ⟨due, back, again, hescape, ?_, ?_, hback, hagain⟩
  · have hmem : (10, true) ∈ due.state.queue.rows.rows.map fun row =>
        (row.id, decide (Due row 102)) := by
      rw [hrows]
      decide
    obtain ⟨other, hother, hid⟩ := List.mem_map.mp hmem
    obtain ⟨hid, hdue⟩ := Prod.mk.inj hid
    exact ⟨other, hother, hid, of_decide_eq_true hdue, hfree⟩
  · intro k t hmem
    simp [Demo.turn] at hmem

end OpenPms.WebhookTargets
