import OpenPms.Basic

/-!
Requests to Channex. A first request is repeated by tenacity as long as it is throttled; of
the answer that comes of it, server errors are repeated by hand. What is left of the status
codes becomes a `ChannexApiError`, but tenacity gives up with an error of its own, and a
request that fails in the transport is not looked at.
-/
namespace OpenPms.Channex

/-- What becomes of one request. -/
inductive Reply where
  | response (statusCode : ℕ) (body : String)
  | failed (error : String)
  deriving DecidableEq

inductive ClientError where
  | channexApi (message : String) (statusCode : ℕ) (body : String)
  | retry
  | transport (error : String)
  deriving DecidableEq

structure Response where
  statusCode : ℕ
  body : String
  deriving DecidableEq

/-- The outcome, and the number of requests made up to it. -/
abbrev Outcome := Except ClientError Response × ℕ

/-- The server's replies, by the number of the request. -/
abbrev Server := ℕ → Reply

def rawRequest (server : Server) (n : ℕ) : Outcome :=
  match server n with
  | .failed error => (.error (.transport error), n + 1)
  | .response statusCode body => (.ok ⟨statusCode, body⟩, n + 1)

/-- `stop_after_attempt`, `retry_if_result`, `reraise`: an exception of an attempt goes on,
and the last throttled answer leaves as a RetryError. -/
def with429Retries (server : Server) : ℕ → ℕ → Outcome
  | 0, n => (.error .retry, n)
  | attempts + 1, n =>
    match rawRequest server n with
    | (.error e, n') => (.error e, n')
    | (.ok r, n') => if r.statusCode = 429 then with429Retries server attempts n' else (.ok r, n')

/-- The loop over server errors; throttled answers are not repeated here. -/
def retryServerErrors (server : Server) : ℕ → Response → ℕ → Outcome
  | 0, r, n => (.ok r, n)
  | attempts + 1, r, n =>
    if 500 ≤ r.statusCode ∧ r.statusCode < 600 then
      match rawRequest server n with
      | (.error e, n') => (.error e, n')
      | (.ok r', n') => retryServerErrors server attempts r' n'
    else (.ok r, n)

def checkStatus (r : Response) : Except ClientError Response :=
  if 400 ≤ r.statusCode then
    .error (.channexApi ("Channex API error: HTTP " ++ toString r.statusCode) r.statusCode r.body)
  else .ok r

def request (server : Server) : Outcome :=
  match with429Retries server 3 0 with
  | (.error e, n) => (.error e, n)
  | (.ok r, n) =>
    match retryServerErrors server 2 r n with
    | (.error e, n') => (.error e, n')
    | (.ok r', n') => (checkStatus r', n')

/-- A response that is not an error, or the exception that the callers handle. -/
inductive Reported : Except ClientError Response → Prop
  | response (r : Response) (h : r.statusCode < 400) : Reported (.ok r)
  | channexApi (message : String) (statusCode : ℕ) (body : String) :
      Reported (.error (.channexApi message statusCode body))

theorem reported_checkStatus (r : Response) : Reported (checkStatus r) := by
  unfold checkStatus
  split
  · exact .channexApi _ _ _
  · exact .response r (by omega)

/-! The requests that are made -/

def Reply.Throttled : Reply → Prop
  | .response statusCode _ => statusCode = 429
  | .failed _ => False

def Reply.ServerError : Reply → Prop
  | .response statusCode _ => 500 ≤ statusCode ∧ statusCode < 600
  | .failed _ => False

def Reply.Failed : Reply → Prop
  | .response _ _ => False
  | .failed _ => True

/-- The request is made: the first, a second or third one after throttled answers only, and
up to two after the first answer that is not throttled, as long as all are server errors. -/
inductive Asked (server : Server) : ℕ → Prop
  | first : Asked server 0
  | throttled {n : ℕ} (hn : n < 2) (h : ∀ i ≤ n, (server i).Throttled) : Asked server (n + 1)
  | unavailable {k n : ℕ} (hk : k < 3) (hkn : k ≤ n) (hn : n < k + 2)
      (hthrottled : ∀ i < k, (server i).Throttled)
      (herrors : ∀ i, k ≤ i → i ≤ n → (server i).ServerError) : Asked server (n + 1)

section Requests
variable {server : Server} {k n : ℕ}

theorem Reply.Throttled.not_failed {r : Reply} (h : r.Throttled) : ¬ r.Failed := by
  cases r with
  | response _ _ => exact id
  | failed _ => exact h.elim

theorem Reply.ServerError.not_failed {r : Reply} (h : r.ServerError) : ¬ r.Failed := by
  cases r with
  | response _ _ => exact id
  | failed _ => exact h.elim

theorem Reply.ServerError.not_throttled {r : Reply} (h : r.ServerError) : ¬ r.Throttled := by
  cases r with
  | response code _ =>
    intro hcode
    change code = 429 at hcode
    change 500 ≤ code ∧ code < 600 at h
    omega
  | failed _ => exact h.elim

/-- The outcomes of the throttled loop, by the first answer that is not throttled. -/
inductive FirstPhase (server : Server) (attempts n : ℕ) : Outcome → Prop
  | exhausted (h : ∀ i < attempts, (server (n + i)).Throttled) :
      FirstPhase server attempts n (.error .retry, n + attempts)
  | dropped {k : ℕ} {error : String} (hk : k < attempts)
      (h : ∀ i < k, (server (n + i)).Throttled) (hfailed : server (n + k) = .failed error) :
      FirstPhase server attempts n (.error (.transport error), n + k + 1)
  | answered {k : ℕ} {r : Response} (hk : k < attempts)
      (h : ∀ i < k, (server (n + i)).Throttled)
      (hanswer : server (n + k) = .response r.statusCode r.body) (hother : r.statusCode ≠ 429) :
      FirstPhase server attempts n (.ok r, n + k + 1)

/-- One more throttled answer in front. -/
theorem FirstPhase.cons {attempts : ℕ} {out : Outcome} (hfirst : (server n).Throttled)
    (h : FirstPhase server attempts (n + 1) out) : FirstPhase server (attempts + 1) n out := by
  have hall : ∀ k, (∀ i < k, (server (n + 1 + i)).Throttled) →
      ∀ i < k + 1, (server (n + i)).Throttled := by
    intro k hk i hi
    cases i with
    | zero => exact hfirst
    | succ i =>
      have hstep := hk i (by omega)
      rwa [Nat.add_right_comm] at hstep
  cases h with
  | exhausted hthrottled =>
    rw [Nat.add_right_comm]
    exact .exhausted (hall _ hthrottled)
  | @dropped k _ hk hthrottled hfailed =>
    rw [Nat.add_right_comm] at hfailed
    rw [Nat.add_right_comm n 1 k]
    exact .dropped (by omega) (hall k hthrottled) hfailed
  | @answered k _ hk hthrottled hanswer hother =>
    rw [Nat.add_right_comm] at hanswer
    rw [Nat.add_right_comm n 1 k]
    exact .answered (by omega) (hall k hthrottled) hanswer hother

theorem with429Retries_cases (server : Server) (attempts n : ℕ) :
    FirstPhase server attempts n (with429Retries server attempts n) := by
  induction attempts generalizing n with
  | zero => exact .exhausted fun i hi => absurd hi (by omega)
  | succ attempts ih =>
    have hnone : ∀ i < 0, (server (n + i)).Throttled := fun i hi => absurd hi (by omega)
    unfold with429Retries rawRequest
    cases hreply : server n with
    | failed error => exact .dropped (k := 0) (by omega) hnone hreply
    | response code body =>
      simp only
      split
      · next hcode =>
        have hfirst : (server n).Throttled := by
          rw [hreply]
          exact hcode
        exact (ih (n + 1)).cons hfirst
      · next hcode => exact .answered (k := 0) (by omega) hnone hreply hcode

/-- The outcomes of the loop over server errors that begins with the answer to request `n`. -/
inductive SecondPhase (server : Server) (attempts n : ℕ) : Outcome → Prop
  | dropped {k : ℕ} {error : String} (hk : k < attempts)
      (h : ∀ i ≤ k, (server (n + i)).ServerError) (hfailed : server (n + k + 1) = .failed error) :
      SecondPhase server attempts n (.error (.transport error), n + k + 2)
  | answered {k : ℕ} {r : Response} (hk : k ≤ attempts)
      (h : ∀ i < k, (server (n + i)).ServerError)
      (hanswer : server (n + k) = .response r.statusCode r.body)
      (hlast : k = attempts ∨ ¬ (server (n + k)).ServerError) :
      SecondPhase server attempts n (.ok r, n + k + 1)

theorem SecondPhase.cons {attempts : ℕ} {out : Outcome} (hfirst : (server n).ServerError)
    (h : SecondPhase server attempts (n + 1) out) : SecondPhase server (attempts + 1) n out := by
  cases h with
  | @dropped k _ hk herrors hfailed =>
    rw [Nat.add_right_comm n 1 k] at hfailed ⊢
    refine .dropped (k := k + 1) (by omega) (fun i hi => ?_) hfailed
    cases i with
    | zero => exact hfirst
    | succ i =>
      have hstep := herrors i (by omega)
      rwa [Nat.add_right_comm] at hstep
  | @answered k _ hk herrors hanswer hlast =>
    rw [Nat.add_right_comm n 1 k] at hanswer hlast ⊢
    refine .answered (k := k + 1) (by omega) (fun i hi => ?_) hanswer (hlast.imp_left (by omega))
    cases i with
    | zero => exact hfirst
    | succ i =>
      have hstep := herrors i (by omega)
      rwa [Nat.add_right_comm] at hstep

theorem retryServerErrors_cases {r : Response} {attempts : ℕ}
    (hanswer : server n = .response r.statusCode r.body) :
    SecondPhase server attempts n (retryServerErrors server attempts r (n + 1)) := by
  have hnone : ∀ i < 0, (server (n + i)).ServerError := fun i hi => absurd hi (by omega)
  induction attempts generalizing n r with
  | zero => exact .answered (k := 0) le_rfl hnone hanswer (.inl rfl)
  | succ attempts ih =>
    unfold retryServerErrors rawRequest
    split
    · next herror =>
      have hfirst : (server n).ServerError := by
        rw [hanswer]
        exact herror
      cases hreply : server (n + 1) with
      | failed error =>
        refine .dropped (k := 0) (by omega) (fun i hi => ?_) hreply
        obtain rfl : i = 0 := by omega
        exact hfirst
      | response code body =>
        have hrest : ∀ i < 0, (server (n + 1 + i)).ServerError := fun i hi => absurd hi (by omega)
        exact (ih (r := ⟨code, body⟩) hreply hrest).cons hfirst
    · next hother =>
      refine .answered (k := 0) (by omega) hnone hanswer (.inr ?_)
      rw [Nat.add_zero, hanswer]
      exact hother

/-- Whatever is asked before the answer that ends the second phase has been answered. -/
theorem Asked.not_failed {j m : ℕ} {r : Response} (hask : Asked server m)
    (hthrottled : ∀ i < k, (server i).Throttled) (hfirst : ¬ (server k).Throttled)
    (hk : ¬ (server k).Failed) (hj : j ≤ 2) (herrors : ∀ i < j, (server (k + i)).ServerError)
    (hanswer : server (k + j) = .response r.statusCode r.body)
    (hlast : j = 2 ∨ ¬ (server (k + j)).ServerError) : ¬ (server m).Failed := by
  have hbefore : ∀ i ≤ k, ¬ (server i).Failed := by
    intro i hi
    rcases hi.lt_or_eq with hlt | rfl
    · exact (hthrottled i hlt).not_failed
    · exact hk
  cases hask with
  | first => exact hbefore 0 (by omega)
  | @throttled n hn hall =>
    refine hbefore (n + 1) ?_
    by_contra hlate
    exact hfirst (hall k (by omega))
  | @unavailable k' n hk' hkn hn hall hunavailable =>
    have heq : k' = k := by
      rcases lt_trichotomy k' k with hlt | heq | hgt
      · exact absurd (hthrottled k' hlt) (hunavailable k' le_rfl hkn).not_throttled
      · exact heq
      · exact absurd (hall k hgt) hfirst
    subst heq
    have hwithin : n + 1 ≤ k' + j := by
      rcases hlast with rfl | hlast
      · omega
      · by_contra hlate
        exact hlast (hunavailable (k' + j) (by omega) (by omega))
    rcases hwithin.lt_or_eq with hlt | heq
    · have herror := herrors (n + 1 - k') (by omega)
      rw [show k' + (n + 1 - k') = n + 1 by omega] at herror
      exact herror.not_failed
    · rw [heq, hanswer]
      exact id

theorem request_retry {n : ℕ} (h : with429Retries server 3 0 = (.error .retry, n)) :
    request server = (.error .retry, n) := by
  unfold request
  rw [h]

theorem request_transport {n : ℕ} {error : String}
    (h : with429Retries server 3 0 = (.error (.transport error), n)) :
    request server = (.error (.transport error), n) := by
  unfold request
  rw [h]

theorem not_reported_transport {error : String} :
    ¬ Reported (.error (.transport error)) := nofun

/-- A request ends after at most five requests to the server; it ends with a response or with
the error that its callers handle exactly if the first three answers are not all throttled
and no request that is made fails in the transport. -/
theorem channex_failures_reported_iff (server : Server) :
    (request server).2 ≤ 5 ∧ (Reported (request server).1 ↔
      ¬ (∀ n < 3, (server n).Throttled) ∧ ∀ n, Asked server n → ¬ (server n).Failed) := by
  have hphase := with429Retries_cases server 3 0
  generalize hout : with429Retries server 3 0 = out at hphase
  cases hphase with
  | exhausted hall =>
    simp only [Nat.zero_add] at hall hout
    rw [request_retry hout]
    exact ⟨by omega, iff_of_false nofun fun h => h.1 hall⟩
  | @dropped k error hk hall hfailed =>
    simp only [Nat.zero_add] at hall hfailed hout
    rw [request_transport hout]
    refine ⟨by omega, iff_of_false not_reported_transport fun h => h.2 k ?_ ?_⟩
    · cases k with
      | zero => exact .first
      | succ k => exact .throttled (by omega) fun i hi => hall i (by omega)
    · rw [hfailed]
      trivial
  | @answered k r hk hall hanswer hother =>
    simp only [Nat.zero_add] at hall hanswer hout
    have hfirst : ¬ (server k).Throttled := by
      rw [hanswer]
      exact hother
    have hanswered : ¬ (server k).Failed := by
      rw [hanswer]
      exact id
    have hsecond : SecondPhase server 2 k (retryServerErrors server 2 r (k + 1)) :=
      retryServerErrors_cases hanswer
    generalize hlast : retryServerErrors server 2 r (k + 1) = out at hsecond
    cases hsecond with
    | @dropped j error hj herrors hfailed =>
      have hrequest : request server = (.error (.transport error), k + j + 2) := by
        unfold request
        simp only [hout, hlast]
      rw [hrequest]
      refine ⟨by omega, iff_of_false not_reported_transport fun h => h.2 (k + j + 1) ?_ ?_⟩
      · refine .unavailable hk (Nat.le_add_right k j) (by omega) hall fun i hi hij => ?_
        have herror := herrors (i - k) (by omega)
        rwa [Nat.add_sub_cancel' hi] at herror
      · rw [hfailed]
        trivial
    | @answered j r' hj herrors hanswer' hend =>
      have hrequest : request server = (checkStatus r', k + j + 1) := by
        unfold request
        simp only [hout, hlast]
      rw [hrequest]
      refine ⟨by omega, iff_of_true (reported_checkStatus r') ⟨fun h => hfirst (h k hk), ?_⟩⟩
      exact fun m hask => hask.not_failed hall hfirst hanswered hj herrors hanswer' hend

end Requests

/-- Three throttled answers leave as tenacity's error, and a timeout as the client's. -/
theorem throttled_requests_escape :
    request (fun _ => .response 429 "") = (.error .retry, 3) ∧
      request (fun _ => .failed "timed out") = (.error (.transport "timed out"), 1) ∧
      ¬ Reported (request fun _ => .response 429 "").1 := by
  refine ⟨by decide, by decide, ?_⟩
  have hrequest : request (fun _ => .response 429 "") = (.error .retry, 3) := by decide
  rw [hrequest]
  nofun

end OpenPms.Channex
