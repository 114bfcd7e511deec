import OpenPms.Integrations
import OpenPms.Lib.WorkQueue

/-!
The queue of outbound webhook deliveries. A worker claims one due row with `FOR UPDATE SKIP
LOCKED`, posts it and writes the log and the row in the same transaction, so that a crash
before the commit leaves both as they were.
-/
namespace OpenPms

open KeyedTable WorkQueue

/-! Rows and logs -/

/-- The exits of the processing that write a log. -/
inductive DeliveryExit where
  | unwanted
  | delivered
  | failed
  deriving DecidableEq

/-- A row of the log; `exit`, which has written it, is not a column. -/
structure DeliveryLog where
  tenantId : UUID
  webhookSubscriptionId : UUID
  eventType : String
  attemptNumber : ℕ
  httpStatusCode : Option ℕ
  errorMessage : Option String
  data : String
  exit : DeliveryExit
  deriving DecidableEq

/-- What comes of a request: the target is refused, the client raises, or a status. -/
inductive HttpAnswer where
  | unsafeUrl (text : String)
  | raised (text : String)
  | response (statusCode : ℕ)
  deriving DecidableEq

def singleHttpDeliveryAttempt : HttpAnswer → Bool × Option ℕ × Option String
  | .unsafeUrl text => (false, none, some (Text.take 4000 text))
  | .raised text => (false, none, some (Text.take 4000 text))
  | .response code =>
    if 200 ≤ code ∧ code < 300 then (true, some code, none)
    else (false, some code, some ("HTTP " ++ toString code))

def queueRetryDelaysSec : List ℤ := [10, 60]

def maxAttempts : ℕ := 3

def Wants (sub : Option WebhookSubscription) (event : String) : Prop :=
  ∃ s ∈ sub, s.isActive = true ∧ event ∈ s.events

instance (sub : Option WebhookSubscription) (event : String) : Decidable (Wants sub event) := by
  unfold Wants
  infer_instance

/-- The envelope of a row names the event of the row, so that both are one here. -/
def WebhookPendingDelivery.log (row : WebhookPendingDelivery) (exit : DeliveryExit)
    (httpStatusCode : Option ℕ) (errorMessage : Option String) : DeliveryLog :=
  ⟨row.tenantId, row.webhookSubscriptionId, row.eventType, row.attemptCount + 1, httpStatusCode,
    errorMessage, row.data, exit⟩

def deadLetter (attemptNo : ℕ) : Change WebhookPendingDelivery.id where
  apply row := { row with status := "dead_letter", attemptCount := attemptNo }
  keeps _ := rfl

def retryLater (attemptNo : ℕ) (now : ℤ) : Change WebhookPendingDelivery.id where
  apply row :=
    let delayIdx := min (attemptNo - 1) (queueRetryDelaysSec.length - 1)
    { row with
      attemptCount := attemptNo
      nextRetryAt := now + queueRetryDelaysSec.getD delayIdx 0 }
  keeps _ := rfl

/-- The log that is written and what becomes of the row, which is deleted where no change of
it is given. `none` as long as a request that has to be made has no answer. -/
def processOnePendingRow (row : WebhookPendingDelivery) (sub : Option WebhookSubscription)
    (answer : Option HttpAnswer) (now : ℤ) :
    Option (DeliveryLog × Option (Change WebhookPendingDelivery.id)) :=
  if ¬ Wants sub row.eventType then
    some (row.log .unwanted none
      (some "subscription inactive, missing, or event no longer subscribed"), none)
  else
    answer.map fun answer =>
      let (ok, httpStatus, errMsg) := singleHttpDeliveryAttempt answer
      let attemptNo := row.attemptCount + 1
      if ok then (row.log .delivered httpStatus none, none)
      else if maxAttempts ≤ attemptNo then
        (row.log .failed httpStatus errMsg, some (deadLetter attemptNo))
      else (row.log .failed httpStatus errMsg, some (retryLater attemptNo now))

/-- The rows that `dispatchWebhookEvent` queues. -/
def queuedDeliveries (ids : ℕ → UUID) (tenantId : UUID) (eventType data : String) (now : ℤ)
    (subs : List WebhookSubscription) : List WebhookPendingDelivery :=
  subs.mapIdx fun n s =>
    { id := ids n, tenantId := tenantId, webhookSubscriptionId := s.id, eventType := eventType,
      data := data, attemptCount := 0, nextRetryAt := now, status := "pending" }

/-! Workers -/

/-- How far a worker is with the row it has claimed. -/
inductive DeliveryProgress where
  | claimed
  | loaded (sub : Option WebhookSubscription)
  | answered (sub : Option WebhookSubscription) (answer : HttpAnswer)
  deriving DecidableEq

abbrev DeliveryQueue (ι : Type) :=
  WorkQueue.State DeliveryLog DeliveryProgress ι WebhookPendingDelivery.id

/-- `batch` is the number of rows that a worker's batch may still take, while it is in one. -/
structure DeliveryState (ι : Type) where
  subscriptions : Table WebhookSubscription.id
  queue : DeliveryQueue ι
  batch : ι → Option ℕ

inductive DeliveryEvent (ι : Type) where
  | dispatch (ids : ℕ → UUID) (tenantId : UUID) (eventType data : String) (now : ℤ)
  | subscriptions (changed : Table WebhookSubscription.id)
  | start (i : ι) (maxRows : ℕ)
  | claim (i : ι) (id : UUID) (now : ℤ)
  | stop (i : ι) (now : ℤ)
  | load (i : ι)
  | post (i : ι) (answer : HttpAnswer)
  | commit (i : ι) (now : ℤ)
  | crash (i : ι)

variable {ι : Type} [DecidableEq ι]

namespace DeliveryState

def initial (subscriptions : Table WebhookSubscription.id) : DeliveryState ι where
  subscriptions := subscriptions
  queue := ⟨Table.empty, fun _ => none, fun _ => none, [], []⟩
  batch _ := none

def Due (row : WebhookPendingDelivery) (now : ℤ) : Prop := row.status = "pending" ∧ row.nextRetryAt ≤ now

instance (row : WebhookPendingDelivery) (now : ℤ) : Decidable (Due row now) := by
  unfold Due
  infer_instance

def dispatched (q : DeliveryQueue ι) (rows : List WebhookPendingDelivery) : DeliveryQueue ι :=
  rows.foldl (fun q row => q.enqueue row) q

/-- One event, where it can happen. Which of the due rows is the first one depends on the
snapshot of the statement and on the locks it skips, so that any of them may be claimed. The
foreign keys let no subscription go to which a row or a new log refers. -/
def next (s : DeliveryState ι) : DeliveryEvent ι → Option (DeliveryState ι)
  | .dispatch ids tenantId eventType data now =>
    let subs := listMatchingSubscriptions tenantId eventType
      { Integrations.empty now with subscriptions := s.subscriptions }
    let rows := queuedDeliveries ids tenantId eventType data now subs
    if (rows.map (·.id)).Nodup ∧ ∀ row ∈ rows, row.id ∉ s.queue.seen then
      some { s with queue := dispatched s.queue rows }
    else none
  | .subscriptions changed =>
    if ∀ row ∈ s.queue.rows.rows, (changed.find row.webhookSubscriptionId).isSome then
      some { s with subscriptions := changed }
    else none
  | .start i maxRows =>
    match s.batch i with
    | none => some { s with batch := Function.update s.batch i (some maxRows) }
    | some _ => none
  | .claim i id now =>
    match s.batch i, s.queue.rows.find id with
    | some (left + 1), some row =>
      if Due row now then
        (s.queue.claim i id .claimed).map fun queue =>
          { s with queue := queue, batch := Function.update s.batch i (some left) }
      else none
    | _, _ => none
  | .stop i now =>
    match s.batch i, s.queue.held i with
    | some left, none =>
      if left = 0 ∨ ∀ row ∈ s.queue.rows.rows, Due row now → s.queue.owner row.id ≠ none then
        some { s with batch := Function.update s.batch i none }
      else none
    | _, _ => none
  | .load i =>
    match s.queue.held i with
    | some (row, .claimed) =>
      some { s with
        queue := s.queue.work i (.loaded (s.subscriptions.find row.webhookSubscriptionId)) }
    | _ => none
  | .post i answer =>
    match s.queue.held i with
    | some (row, .loaded sub) =>
      if Wants sub row.eventType then some { s with queue := s.queue.work i (.answered sub answer) }
      else none
    | _ => none
  | .commit i now =>
    match s.queue.held i with
    | some (row, progress) =>
      let outcome := match progress with
        | .claimed => none
        | .loaded sub => processOnePendingRow row sub none now
        | .answered sub answer => processOnePendingRow row sub (some answer) now
      match outcome with
      | none => none
      | some (log, change) =>
        if (s.subscriptions.find log.webhookSubscriptionId).isSome then
          some { s with queue := s.queue.commit i log change }
        else some { s with queue := s.queue.release i, batch := Function.update s.batch i none }
    | none => none
  | .crash i =>
    some { s with queue := s.queue.release i, batch := Function.update s.batch i none }

/-- The states of the runs of any number of workers. -/
inductive Run (subscriptions : Table WebhookSubscription.id) : DeliveryState ι → Prop
  | start : Run subscriptions (initial subscriptions)
  | tail {s s' : DeliveryState ι} {e : DeliveryEvent ι} (h : Run subscriptions s)
      (hn : s.next e = some s') : Run subscriptions s'

end DeliveryState

/-! What the logs of a row say about the row -/

def failures (logs : List DeliveryLog) : ℕ := logs.countP fun e => e.exit = .failed

/-- The log, newest first, carries the numbers of the attempts. -/
def Numbered : List DeliveryLog → Prop
  | [] => True
  | e :: rest => e.attemptNumber = rest.length + 1 ∧ Numbered rest

/-- As long as the row is there, all attempts have failed, it counts them, and it is a dead
letter exactly after the third. It has gone with the first log of another kind. -/
def Accounted (logs : List DeliveryLog) : Option WebhookPendingDelivery → Prop
  | some row => row.attemptCount = failures logs ∧ failures logs ≤ maxAttempts ∧
      (row.status = "dead_letter" ↔ failures logs = maxAttempts) ∧
      (∀ e ∈ logs, e.exit = .failed) ∧ Numbered logs
  | none => ∃ last rest, logs = last :: rest ∧ last.exit ≠ .failed ∧
      (∀ e ∈ rest, e.exit = .failed) ∧ rest.length < maxAttempts ∧ Numbered logs

theorem failures_of_all {logs : List DeliveryLog} (h : ∀ e ∈ logs, e.exit = .failed) :
    failures logs = logs.length := by
  unfold failures
  rw [List.countP_eq_length]
  intro e he
  rw [decide_eq_true_eq]
  exact h e he

theorem accounted_new {row : WebhookPendingDelivery} (hcount : row.attemptCount = 0)
    (hstatus : row.status = "pending") : Accounted [] (some row) := by
  refine ⟨hcount, by decide, ?_, by simp, trivial⟩
  rw [hstatus]
  decide

/-- One pass over a pending row keeps the accounts. -/
theorem accounted_process {row : WebhookPendingDelivery} {sub : Option WebhookSubscription}
    {answer : Option HttpAnswer} {now : ℤ} {log : DeliveryLog}
    {change : Option (Change WebhookPendingDelivery.id)} {logs : List DeliveryLog}
    (hpending : row.status = "pending") (h : Accounted logs (some row))
    (hout : processOnePendingRow row sub answer now = some (log, change)) :
    Accounted (log :: logs) (change.map fun c => c.apply row) := by
  obtain ⟨hcount, hmost, hdead, hfailed, hnumbered⟩ := h
  have hlength := failures_of_all hfailed
  have hfew : failures logs < maxAttempts := by
    have hne : failures logs ≠ maxAttempts := fun heq => by
      rw [hdead.mpr heq] at hpending
      exact absurd hpending (by decide)
    omega
  have hnumber : ∀ exit code text, Numbered (row.log exit code text :: logs) :=
    fun exit code text => ⟨by rw [← hlength, ← hcount]; rfl, hnumbered⟩
  have hmore : ∀ code text, failures (row.log .failed code text :: logs) = failures logs + 1 :=
    fun code text => by simp [failures, WebhookPendingDelivery.log]
  have hall : ∀ code text, ∀ e ∈ row.log .failed code text :: logs, e.exit = .failed := by
    intro code text e he
    rcases List.mem_cons.mp he with rfl | hold
    · rfl
    · exact hfailed e hold
  have hgone : ∀ exit code text, exit ≠ .failed →
      Accounted (row.log exit code text :: logs) none := fun exit code text hexit =>
    ⟨_, logs, rfl, hexit, hfailed, by omega, hnumber exit code text⟩
  unfold processOnePendingRow at hout
  split at hout
  · cases hout
    exact hgone _ _ _ nofun
  · obtain ⟨answer, -, hout⟩ := Option.map_eq_some_iff.mp hout
    dsimp only at hout
    split at hout
    · cases hout
      exact hgone _ _ _ nofun
    · split at hout
      · next hlast =>
        cases hout
        refine ⟨?_, ?_, ?_, hall _ _, hnumber _ _ _⟩
        · rw [hmore, ← hcount]
          rfl
        · rw [hmore]
          omega
        · rw [hmore]
          refine ⟨fun _ => ?_, fun _ => rfl⟩
          omega
      · next hmay =>
        cases hout
        refine ⟨?_, ?_, ?_, hall _ _, hnumber _ _ _⟩
        · rw [hmore, ← hcount]
          rfl
        · rw [hmore]
          omega
        · rw [hmore]
          have hstatus : ((retryLater (row.attemptCount + 1) now).apply row).status = "pending" :=
            hpending
          rw [hstatus]
          refine ⟨fun heq => absurd heq (by decide), fun heq => ?_⟩
          omega

/-- Neither change of a row touches its subscription. -/
theorem subscription_of_process {row : WebhookPendingDelivery}
    {sub : Option WebhookSubscription} {answer : Option HttpAnswer} {now : ℤ} {log : DeliveryLog}
    {change : Option (Change WebhookPendingDelivery.id)}
    (hout : processOnePendingRow row sub answer now = some (log, change)) :
    log.webhookSubscriptionId = row.webhookSubscriptionId ∧
      ∀ c ∈ change, (c.apply row).webhookSubscriptionId = row.webhookSubscriptionId := by
  unfold processOnePendingRow at hout
  split at hout
  · cases hout
    exact ⟨rfl, by simp⟩
  · obtain ⟨answer, -, hout⟩ := Option.map_eq_some_iff.mp hout
    dsimp only at hout
    split at hout
    · cases hout
      exact ⟨rfl, by simp⟩
    · split at hout
      · cases hout
        exact ⟨rfl, by simp [deadLetter]⟩
      · cases hout
        exact ⟨rfl, by simp [retryLater]⟩

/-- The row is deleted where it is not wanted or has been delivered, and in no other case. -/
theorem deleted_iff {row : WebhookPendingDelivery} {sub : Option WebhookSubscription}
    {answer : Option HttpAnswer} {now : ℤ} {log : DeliveryLog}
    {change : Option (Change WebhookPendingDelivery.id)}
    (hout : processOnePendingRow row sub answer now = some (log, change)) :
    change = none ↔ ¬ Wants sub row.eventType ∨
      ∃ a ∈ answer, (singleHttpDeliveryAttempt a).1 = true := by
  unfold processOnePendingRow at hout
  split at hout
  · next hunwanted =>
    cases hout
    exact ⟨fun _ => .inl hunwanted, fun _ => rfl⟩
  · next hwanted =>
    obtain ⟨a, ha, hpass⟩ := Option.map_eq_some_iff.mp hout
    subst ha
    dsimp only at hpass
    split at hpass
    · next hok =>
      cases hpass
      exact ⟨fun _ => .inr ⟨a, rfl, hok⟩, fun _ => rfl⟩
    · next hok =>
      have hnot : ¬ (¬ Wants sub row.eventType ∨
          ∃ a' ∈ some a, (singleHttpDeliveryAttempt a').1 = true) := by
        rintro (hun | ⟨a', ha', hok'⟩)
        · exact hwanted hun
        · cases ha'
          exact hok hok'
      split at hpass
      · cases hpass
        exact ⟨nofun, fun h => absurd h hnot⟩
      · cases hpass
        exact ⟨nofun, fun h => absurd h hnot⟩

/-! Any number of workers -/

namespace DeliveryState

/-- What holds in every run: rows agree with their logs, workers hold rows that are pending,
and every row has its subscription. -/
structure Inv (s : DeliveryState ι) : Prop where
  sound : s.queue.Sound
  told : s.queue.Told Accounted
  pending : ∀ i row p, s.queue.held i = some (row, p) → row.status = "pending"
  subscribed : ∀ row ∈ s.queue.rows.rows,
    (s.subscriptions.find row.webhookSubscriptionId).isSome

omit [DecidableEq ι] in
theorem inv_initial (subscriptions : Table WebhookSubscription.id) :
    Inv (initial subscriptions : DeliveryState ι) where
  sound := ⟨nofun, nofun, nofun⟩
  told := nofun
  pending := nofun
  subscribed := nofun

omit [DecidableEq ι] in
/-- The rows of a dispatch enter the queue one by one. -/
theorem dispatched_inv {q : DeliveryQueue ι} {rows : List WebhookPendingDelivery}
    {P : WebhookPendingDelivery → Prop} (hsound : q.Sound) (htold : q.Told Accounted)
    (hold : ∀ row ∈ q.rows.rows, P row)
    (hnew : ∀ row ∈ rows, row.attemptCount = 0 ∧ row.status = "pending" ∧ P row) :
    (dispatched q rows).Sound ∧ (dispatched q rows).Told Accounted ∧
      (dispatched q rows).held = q.held ∧ ∀ row ∈ (dispatched q rows).rows.rows, P row := by
  induction rows generalizing q with
  | nil => exact ⟨hsound, htold, rfl, hold⟩
  | cons row rest ih =>
    obtain ⟨hcount, hstatus, hrow⟩ := hnew row List.mem_cons_self
    have hheld : (q.enqueue row).held = q.held := by
      unfold WorkQueue.State.enqueue
      split <;> rfl
    have hrows : ∀ row' ∈ (q.enqueue row).rows.rows, P row' := by
      intro row' hmem
      unfold WorkQueue.State.enqueue at hmem
      split at hmem
      · exact hold row' hmem
      · rcases Table.mem_insert_iff.mp hmem with hmem | ⟨-, rfl⟩
        · exact hold row' hmem
        · exact hrow
    obtain ⟨h₁, h₂, h₃, h₄⟩ := ih (hsound.enqueue row)
      (WorkQueue.State.Told.enqueue hsound htold (accounted_new hcount hstatus)) hrows
      fun row' hmem => hnew row' (List.mem_cons_of_mem _ hmem)
    exact ⟨h₁, h₂, h₃.trans hheld, h₄⟩

theorem Inv.dispatch {s s' : DeliveryState ι} (h : Inv s) {ids : ℕ → UUID} {tenantId : UUID}
    {eventType data : String} {now : ℤ}
    (hn : s.next (.dispatch ids tenantId eventType data now) = some s') : Inv s' := by
  simp only [next] at hn
  split at hn
  · cases hn
    have hnew : ∀ row ∈ queuedDeliveries ids tenantId eventType data now
        (listMatchingSubscriptions tenantId eventType
          { Integrations.empty now with subscriptions := s.subscriptions }),
        row.attemptCount = 0 ∧ row.status = "pending" ∧
          (s.subscriptions.find row.webhookSubscriptionId).isSome := by
      intro row hrow
      obtain ⟨n, hn, rfl⟩ := List.mem_mapIdx.mp hrow
      refine ⟨rfl, rfl, ?_⟩
      have hmem := List.mem_of_mem_filter (List.getElem_mem hn)
      rw [Table.find_of_mem hmem]
      rfl
    obtain ⟨hsound, htold, hheld, hsubs⟩ := dispatched_inv h.sound h.told h.subscribed hnew
    exact ⟨hsound, htold, by rw [hheld]; exact h.pending, hsubs⟩
  · cases hn

theorem Inv.claim {s s' : DeliveryState ι} (h : Inv s) {i : ι} {id : UUID} {now : ℤ}
    (hn : s.next (.claim i id now) = some s') : Inv s' := by
  simp only [next] at hn
  split at hn
  · next left row _ hrow =>
    split at hn
    · next hdue =>
      obtain ⟨queue, hclaim, rfl⟩ := Option.map_eq_some_iff.mp hn
      have hsound := h.sound.claim hclaim
      obtain ⟨row', hrow', -, -, rfl⟩ := WorkQueue.State.claim_eq hclaim
      have hsame : row' = row := Option.some.inj (hrow'.symm.trans hrow)
      subst hsame
      refine ⟨hsound, h.told.of_same rfl rfl rfl, ?_, h.subscribed⟩
      intro j row p hj
      by_cases hij : j = i
      · subst hij
        simp only [Function.update_self, Option.some.injEq, Prod.mk.injEq] at hj
        obtain ⟨rfl, -⟩ := hj
        exact hdue.1
      · simp only [Function.update_of_ne hij] at hj
        exact h.pending j row p hj
    · cases hn
  · cases hn

theorem Inv.work {s : DeliveryState ι} (h : Inv s) (i : ι) (p : DeliveryProgress) :
    Inv { s with queue := s.queue.work i p } where
  sound := h.sound.work p
  told := by
    refine h.told.of_same ?_ ?_ ?_
    all_goals
      dsimp only
      unfold WorkQueue.State.work
      split <;> rfl
  pending j row p' hj := by
    obtain ⟨p₀, hj', -, -⟩ := WorkQueue.State.held_work hj
    exact h.pending j row p₀ hj'
  subscribed := by
    have hrows : (s.queue.work i p).rows = s.queue.rows := by
      unfold WorkQueue.State.work
      split <;> rfl
    dsimp only
    rw [hrows]
    exact h.subscribed

theorem Inv.release {s : DeliveryState ι} (h : Inv s) (i : ι) (batch : ι → Option ℕ) :
    Inv { s with queue := s.queue.release i, batch := batch } where
  sound := h.sound.release
  told := h.told.of_same WorkQueue.State.rows_release WorkQueue.State.log_release
    WorkQueue.State.seen_release
  pending j row p hj := h.pending j row p (WorkQueue.State.held_release hj).2
  subscribed := by
    dsimp only
    rw [WorkQueue.State.rows_release]
    exact h.subscribed

/-- A commit has a finished pass over a row that its worker holds. -/
theorem commit_cases {s s' : DeliveryState ι} (h : Inv s) {i : ι} {now : ℤ}
    (hn : s.next (.commit i now) = some s') :
    ∃ row p sub answer log change, s.queue.held i = some (row, p) ∧
      (p = .loaded sub ∧ answer = none ∨ ∃ a, p = .answered sub a ∧ answer = some a) ∧
      processOnePendingRow row sub answer now = some (log, change) ∧
      s' = { s with queue := s.queue.commit i log change } := by
  simp only [next] at hn
  split at hn
  · next row p hheld =>
    split at hn
    · cases hn
    · next log change hout =>
      have hpass : ∃ sub answer,
          (p = .loaded sub ∧ answer = none ∨ ∃ a, p = .answered sub a ∧ answer = some a) ∧
          processOnePendingRow row sub answer now = some (log, change) := by
        cases p with
        | claimed => cases hout
        | loaded sub => exact ⟨sub, none, .inl ⟨rfl, rfl⟩, hout⟩
        | answered sub a => exact ⟨sub, some a, .inr ⟨a, rfl, rfl⟩, hout⟩
      obtain ⟨sub, answer, hp, hprocess⟩ := hpass
      have hrow := (Table.find_eq_some.mp (h.sound.held i row p hheld).2).1
      have hsub := h.subscribed row hrow
      rw [← (subscription_of_process hprocess).1] at hsub
      rw [if_pos hsub] at hn
      cases hn
      exact ⟨row, p, sub, answer, log, change, hheld, hp, hprocess, rfl⟩
  · cases hn

theorem Inv.commit {s s' : DeliveryState ι} (h : Inv s) {i : ι} {now : ℤ}
    (hn : s.next (.commit i now) = some s') : Inv s' := by
  obtain ⟨row, p, sub, answer, log, change, hheld, -, hout, rfl⟩ := commit_cases h hn
  have htold := WorkQueue.State.Told.commit h.sound h.told hheld fun hrow =>
    accounted_process (h.pending i row p hheld) hrow hout
  refine ⟨h.sound.commit log change, htold, ?_, ?_⟩
  · intro j row' p' hj
    dsimp only at hj
    rw [WorkQueue.State.commit_eq hheld] at hj
    exact h.pending j row' p' (WorkQueue.State.held_release hj).2
  · intro row' hrow'
    dsimp only at hrow' ⊢
    rw [WorkQueue.State.commit_eq hheld] at hrow'
    have hfind := (h.sound.held i row p hheld).2
    by_cases hid : row'.id = row.id
    · have hself := Table.find_of_mem hrow'
      rw [hid, WorkQueue.State.find_resolved_self (by rw [WorkQueue.State.rows_release]; exact hfind)]
        at hself
      obtain ⟨c, hc, rfl⟩ := Option.map_eq_some_iff.mp hself
      rw [(subscription_of_process hout).2 c hc]
      exact h.subscribed row (Table.find_eq_some.mp hfind).1
    · have hself := Table.find_of_mem hrow'
      rw [WorkQueue.State.find_resolved_of_ne hid, WorkQueue.State.rows_release] at hself
      exact h.subscribed row' (Table.find_eq_some.mp hself).1

theorem Inv.next {s s' : DeliveryState ι} (h : Inv s) {e : DeliveryEvent ι}
    (hn : s.next e = some s') : Inv s' := by
  cases e with
  | dispatch ids tenantId eventType data now => exact h.dispatch hn
  | subscriptions changed =>
    simp only [DeliveryState.next] at hn
    split at hn
    · next hkept =>
      cases hn
      exact ⟨h.sound, h.told, h.pending, hkept⟩
    · cases hn
  | start i maxRows =>
    simp only [DeliveryState.next] at hn
    split at hn
    · cases hn
      exact ⟨h.sound, h.told, h.pending, h.subscribed⟩
    · cases hn
  | claim i id now => exact h.claim hn
  | stop i now =>
    simp only [DeliveryState.next] at hn
    split at hn
    · split at hn
      · cases hn
        exact ⟨h.sound, h.told, h.pending, h.subscribed⟩
      · cases hn
    · cases hn
  | load i =>
    simp only [DeliveryState.next] at hn
    split at hn
    · cases hn
      exact h.work i _
    · cases hn
  | post i answer =>
    simp only [DeliveryState.next] at hn
    split at hn
    · split at hn
      · cases hn
        exact h.work i _
      · cases hn
    · cases hn
  | commit i now => exact h.commit hn
  | crash i =>
    simp only [DeliveryState.next] at hn
    cases hn
    exact h.release i _

theorem Run.inv {subscriptions : Table WebhookSubscription.id} {s : DeliveryState ι}
    (h : Run subscriptions s) : Inv s := by
  induction h with
  | start => exact inv_initial subscriptions
  | tail _ hn ih => exact ih.next hn

/-- The commit of a pass whose subscription does not want the event any more, or whose request
has been answered with success. -/
def Removes (s : DeliveryState ι) (id : UUID) (e : DeliveryEvent ι) : Prop :=
  ∃ i now row p sub, e = .commit i now ∧ s.queue.held i = some (row, p) ∧ row.id = id ∧
    (p = .loaded sub ∨ ∃ a, p = .answered sub a) ∧
    (¬ Wants sub row.eventType ∨ ∃ a, p = .answered sub a ∧ (singleHttpDeliveryAttempt a).1 = true)

omit [DecidableEq ι] in
theorem find_dispatched {q : DeliveryQueue ι} {rows : List WebhookPendingDelivery}
    (hsound : q.Sound) {id : UUID} {row : WebhookPendingDelivery}
    (hrow : q.rows.find id = some row) : (dispatched q rows).rows.find id = some row := by
  induction rows generalizing q with
  | nil => exact hrow
  | cons new rest ih =>
    refine ih (hsound.enqueue new) ?_
    unfold WorkQueue.State.enqueue
    dsimp only
    split
    · exact hrow
    · next hnew => exact Table.find_insert_of_some (hsound.unseen hnew).1 hrow

/-- Only a commit takes a row out of the queue. -/
theorem find_of_next {s s' : DeliveryState ι} (h : Inv s) {e : DeliveryEvent ι}
    (hn : s.next e = some s') {id : UUID} {row : WebhookPendingDelivery}
    (hrow : s.queue.rows.find id = some row) (hcommit : ∀ i now, e ≠ .commit i now) :
    s'.queue.rows.find id = some row := by
  have hwork : ∀ i p, (s.queue.work i p).rows = s.queue.rows := by
    intro i p
    unfold WorkQueue.State.work
    split <;> rfl
  cases e with
  | dispatch ids tenantId eventType data now =>
    simp only [next] at hn
    split at hn
    · cases hn
      exact find_dispatched h.sound hrow
    · cases hn
  | subscriptions changed =>
    simp only [next] at hn
    split at hn
    · cases hn
      exact hrow
    · cases hn
  | start i maxRows =>
    simp only [next] at hn
    split at hn
    · cases hn
      exact hrow
    · cases hn
  | claim i id' now =>
    simp only [next] at hn
    split at hn
    · split at hn
      · obtain ⟨queue, hclaim, rfl⟩ := Option.map_eq_some_iff.mp hn
        obtain ⟨_, -, -, -, rfl⟩ := WorkQueue.State.claim_eq hclaim
        exact hrow
      · cases hn
    · cases hn
  | stop i now =>
    simp only [next] at hn
    split at hn
    · split at hn
      · cases hn
        exact hrow
      · cases hn
    · cases hn
  | load i =>
    simp only [next] at hn
    split at hn
    · cases hn
      dsimp only
      rw [hwork]
      exact hrow
    · cases hn
  | post i answer =>
    simp only [next] at hn
    split at hn
    · split at hn
      · cases hn
        dsimp only
        rw [hwork]
        exact hrow
      · cases hn
    · cases hn
  | commit i now => exact absurd rfl (hcommit i now)
  | crash i =>
    simp only [next] at hn
    cases hn
    dsimp only
    rw [WorkQueue.State.rows_release]
    exact hrow

theorem removed_iff {s s' : DeliveryState ι} (h : Inv s) {e : DeliveryEvent ι}
    (hn : s.next e = some s') {id : UUID} {row : WebhookPendingDelivery}
    (hrow : s.queue.rows.find id = some row) :
    s'.queue.rows.find id = none ↔ Removes s id e := by
  by_cases hcommit : ∃ i now, e = .commit i now
  · obtain ⟨i, now, rfl⟩ := hcommit
    obtain ⟨row', p, sub, answer, log, change, hheld, hp, hout, rfl⟩ := commit_cases h hn
    have hfind := (h.sound.held i row' p hheld).2
    have hdeleted := deleted_iff hout
    dsimp only
    rw [WorkQueue.State.commit_eq hheld]
    constructor
    · intro hgone
      by_cases hid : id = row'.id
      · rw [hid, WorkQueue.State.find_resolved_self
          (by rw [WorkQueue.State.rows_release]; exact hfind), Option.map_eq_none_iff] at hgone
        refine ⟨i, now, row', p, sub, rfl, hheld, hid.symm, ?_, ?_⟩
        · rcases hp with ⟨hp, -⟩ | ⟨a, hp, -⟩
          · exact .inl hp
          · exact .inr ⟨a, hp⟩
        · rcases hdeleted.mp hgone with hunwanted | ⟨a, ha, hok⟩
          · exact .inl hunwanted
          · rcases hp with ⟨-, hnone⟩ | ⟨a', hp, hanswer⟩
            · rw [hnone] at ha
              cases ha
            · rw [hanswer] at ha
              cases ha
              exact .inr ⟨a, hp, hok⟩
      · rw [WorkQueue.State.find_resolved_of_ne hid, WorkQueue.State.rows_release, hrow] at hgone
        cases hgone
    · rintro ⟨j, now', row₁, p₁, sub₁, heq, hheld₁, hid, hp₁, hcase⟩
      cases heq
      rw [hheld] at hheld₁
      cases hheld₁
      have hnone : change = none := by
        refine hdeleted.mpr ?_
        rcases hp with ⟨rfl, rfl⟩ | ⟨a, rfl, rfl⟩
        · rcases hp₁ with hp₁ | ⟨a, hp₁⟩
          · cases hp₁
            rcases hcase with hunwanted | ⟨a, hp₁, -⟩
            · exact .inl hunwanted
            · cases hp₁
          · cases hp₁
        · rcases hp₁ with hp₁ | ⟨a', hp₁⟩
          · cases hp₁
          · cases hp₁
            rcases hcase with hunwanted | ⟨a', hp₁, hok⟩
            · exact .inl hunwanted
            · cases hp₁
              exact .inr ⟨a, rfl, hok⟩
      rw [← hid, WorkQueue.State.find_resolved_self
        (by rw [WorkQueue.State.rows_release]; exact hfind), hnone]
      rfl
  · rw [find_of_next h hn hrow fun i now heq => hcommit ⟨i, now, heq⟩]
    refine ⟨nofun, ?_⟩
    rintro ⟨i, now, _, _, _, rfl, -⟩
    exact absurd ⟨i, now, rfl⟩ hcommit

/-- At all times the attempts of each delivery are counted by its row, three failures make it
a dead letter, a first success or an unwanted event removes it, and no request is made for a
row that is gone or a dead letter, nor two at a time for one row. -/
theorem deliveries_accounted {subscriptions : Table WebhookSubscription.id}
    {s : DeliveryState ι} (h : Run subscriptions s) :
    (∀ id ∈ s.queue.seen, Accounted (s.queue.entries id) (s.queue.rows.find id)) ∧
      ∀ e s', s.next e = some s' →
        (∀ id row, s.queue.rows.find id = some row →
          (s'.queue.rows.find id = none ↔ Removes s id e)) ∧
        ∀ i answer, e = .post i answer → ∃ row p, s.queue.held i = some (row, p) ∧
          s.queue.rows.find row.id = some row ∧ row.status = "pending" ∧
          ∀ j row' p', s.queue.held j = some (row', p') → row'.id = row.id → j = i := by
  have hinv := h.inv
  refine ⟨hinv.told, fun e s' hn => ⟨fun id row hrow => removed_iff hinv hn hrow, ?_⟩⟩
  rintro i answer rfl
  simp only [next] at hn
  split at hn
  · next row sub hheld =>
    exact ⟨row, _, hheld, (hinv.sound.held i row _ hheld).2, hinv.pending i row _ hheld,
      fun j row' p' hj hid => hinv.sound.exclusive hj hheld hid⟩
  · cases hn

end DeliveryState

namespace Demo

def hookSubscriptions : Table WebhookSubscription.id :=
  ⟨[⟨1, 1, "https://example.com/hook", ["booking.created"], true⟩], by decide⟩

/-- One delivery that fails twice, after a crash of the first worker behind its request. -/
def twoFailures : List (DeliveryEvent Bool) :=
  [.dispatch (fun _ => 9) 1 "booking.created" "x" 100, .start false 50, .claim false 9 100,
    .load false, .post false (.response 500), .crash false, .start true 50, .claim true 9 101,
    .load true, .post true (.response 500), .commit true 102, .claim true 9 112, .load true,
    .post true (.raised "timeout"), .commit true 113]

end Demo

namespace DeliveryState

def run (s : DeliveryState ι) (es : List (DeliveryEvent ι)) : Option (DeliveryState ι) :=
  es.foldlM next s

theorem Run.run {subscriptions : Table WebhookSubscription.id} {s s' : DeliveryState ι}
    {es : List (DeliveryEvent ι)} (h : Run subscriptions s) (hrun : s.run es = some s') :
    Run subscriptions s' := by
  induction es generalizing s with
  | nil =>
    cases hrun
    exact h
  | cons e rest ih =>
    obtain ⟨s₁, hn, hrest⟩ := Option.bind_eq_some_iff.mp hrun
    exact ih (.tail h hn) hrest

end DeliveryState

theorem deliveries_accounted_demo :
    ∃ s : DeliveryState Bool,
      (DeliveryState.initial Demo.hookSubscriptions).run Demo.twoFailures = some s ∧
      (s.queue.entries 9).map (·.attemptNumber) = [2, 1] ∧
      Accounted (s.queue.entries 9) (s.queue.rows.find 9) := by
  have hrun : ((DeliveryState.initial Demo.hookSubscriptions : DeliveryState Bool).run
      Demo.twoFailures).map (fun s => ((s.queue.entries 9).map (·.attemptNumber), s.queue.seen))
        = some ([2, 1], [9]) := by
    decide
  obtain ⟨s, hs, hout⟩ := Option.map_eq_some_iff.mp hrun
  obtain ⟨hentries, hseen⟩ := Prod.mk.inj hout
  exact ⟨s, hs, hentries, (DeliveryState.deliveries_accounted
    (DeliveryState.Run.start.run hs)).1 9 (by rw [hseen]; decide)⟩

end OpenPms
