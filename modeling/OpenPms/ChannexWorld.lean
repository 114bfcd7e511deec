import OpenPms.ChannexAri
import OpenPms.ChannexRequests

/-!
Channex as the client of the program finds it. It is no part of the program: what it does
with a request is a parameter, and what it documents of itself is a hypothesis. The client
repeats some of its requests, so that a post may take effect more than once, and of a listing it
reads the first page.
-/
namespace OpenPms.Channex

/-! Resources -/

/-- An identifier that Channex has assigned. -/
structure RemoteId where
  text : String
  nonempty : text ≠ ""
  stripped : Text.strip text = text
  deriving DecidableEq

/-- The body of a new room type, without what is the same in all of them. -/
structure RoomTypeBody where
  propertyId : String
  title : String
  countOfRooms : ℤ
  occAdults : ℤ
  occChildren : ℤ
  occInfants : ℤ
  defaultOccupancy : ℤ
  deriving DecidableEq

structure RatePlanBody where
  title : String
  propertyId : String
  roomTypeId : String
  occupancy : ℤ
  currency : String
  deriving DecidableEq

inductive Post where
  | roomType (body : RoomTypeBody)
  | ratePlan (body : RatePlanBody)
  | webhook (url : String) (events : List String)
  deriving DecidableEq

/-- The title of a room type of the property. -/
def Post.roomTypeOf (propertyId : String) : Post → Option String
  | .roomType body => if body.propertyId = propertyId then some body.title else none
  | _ => none

def Post.ratePlanOf (propertyId : String) : Post → Option String
  | .ratePlan body => if body.propertyId = propertyId then some body.title else none
  | _ => none

/-- What Channex holds, the newest first. -/
abbrev Remote := List (RemoteId × Post)

/-- A room type or a rate plan in a listing. -/
structure Listed where
  id : RemoteId
  title : String

/-- The resources of one kind. -/
def Remote.list (kind : Post → Option String) (remote : Remote) : List Listed :=
  remote.filterMap fun r => (kind r.2).map fun title => ⟨r.1, title⟩

/-- The webhooks that Channex calls. -/
def Remote.webhooks (remote : Remote) : List String :=
  remote.filterMap fun r => match r.2 with
    | .webhook _ _ => some r.1.text
    | _ => none

def Remote.deleteWebhook (webhookId : String) (remote : Remote) : Remote :=
  remote.filter fun r => match r.2 with
    | .webhook _ _ => r.1.text ≠ webhookId
    | _ => true

/-! The service -/

inductive Call where
  | create (post : Post)
  | roomTypes (propertyId : String)
  | ratePlans (propertyId : String)
  | deleteWebhook (webhookId : String)

/-- What a listing is asked for. -/
def Call.lists : Call → Option (Post → Option String)
  | .roomTypes propertyId => some (Post.roomTypeOf propertyId)
  | .ratePlans propertyId => some (Post.ratePlanOf propertyId)
  | .create _ | .deleteWebhook _ => none

/-- The reply to one request, with what the client reads in the body of a response: the
identifier of a new resource, and the resources of a listing that have an identifier. -/
structure Answer where
  reply : Reply
  createdId : Option RemoteId
  listed : List Listed

/-- Channex and the way to it. A `State` is how matters stand there between two requests of the
client; `assigned` are the identifiers of all the resources there have been until then. -/
structure Service where
  State : Type
  holds : State → Remote
  assigned : State → Set String
  pageSize : ℕ
  serve : Call → State → Answer × State

namespace Service

def answer (c : Service) (call : Call) (s : c.State) : Answer := (c.serve call s).1

def after (c : Service) (call : Call) (s : c.State) : c.State := (c.serve call s).2

end Service

def Reply.IsError : Reply → Prop
  | .response statusCode _ => 400 ≤ statusCode
  | .failed _ => True

instance : DecidablePred Reply.IsError
  | .response statusCode _ => inferInstanceAs (Decidable (400 ≤ statusCode))
  | .failed _ => inferInstanceAs (Decidable True)

/-- Posts and listings, as Channex documents them. -/
structure Service.Documented (c : Service) : Prop where
  /-- A post takes effect once or not at all. -/
  created (post : Post) (s : c.State) : c.holds (c.after (.create post) s) = c.holds s ∨
    ∃ id, c.holds (c.after (.create post) s) = (id, post) :: c.holds s
  /-- If its answer is not an error, it has taken effect under the identifier in the answer. -/
  answered (post : Post) (s : c.State) (h : ¬ (c.answer (.create post) s).reply.IsError) :
    ∃ id, (c.answer (.create post) s).createdId = some id ∧
      c.holds (c.after (.create post) s) = (id, post) :: c.holds s
  /-- A listing changes nothing. -/
  looked {call : Call} {kind : Post → Option String} (h : call.lists = some kind) (s : c.State) :
    c.holds (c.after call s) = c.holds s
  /-- It shows nothing but what is there. -/
  shown {call : Call} {kind : Post → Option String} (h : call.lists = some kind) (s : c.State)
    (hok : ¬ (c.answer call s).reply.IsError) : (c.answer call s).listed ⊆ (c.holds s).list kind
  /-- It shows all of it where this is no more than a page. -/
  page {call : Call} {kind : Post → Option String} (h : call.lists = some kind) (s : c.State)
    (hok : ¬ (c.answer call s).reply.IsError)
    (hpage : ((c.holds s).list kind).length ≤ c.pageSize) :
    (c.holds s).list kind ⊆ (c.answer call s).listed

/-- Identifiers and deletions, as Channex documents them. -/
structure Service.Identifies (c : Service) : Prop where
  held (s : c.State) : ∀ r ∈ c.holds s, r.1.text ∈ c.assigned s
  kept (call : Call) (s : c.State) : c.assigned s ⊆ c.assigned (c.after call s)
  /-- No identifier is assigned twice. -/
  fresh {post : Post} {s : c.State} {id : RemoteId}
    (h : c.holds (c.after (.create post) s) = (id, post) :: c.holds s) : id.text ∉ c.assigned s
  deleted (webhookId : String) (s : c.State) :
    c.holds (c.after (.deleteWebhook webhookId) s) = c.holds s ∨
      c.holds (c.after (.deleteWebhook webhookId) s) = (c.holds s).deleteWebhook webhookId

/-! Requests -/

/-- `unreported` lists the posts that took effect without an answer; the code does not see it. -/
structure World (c : Service) where
  state : c.State
  unreported : List Post

namespace World
variable {c : Service}

def remote (w : World c) : Remote := c.holds w.state

/-- The posts of the newer resources. -/
def added (before after : Remote) : List Post :=
  (after.take (after.length - before.length)).map Prod.snd

/-- One request. -/
def attempt (call : Call) (w : World c) : World c where
  state := c.after call w.state
  unreported :=
    if (c.answer call w.state).reply.IsError then
      added w.remote (c.holds (c.after call w.state)) ++ w.unreported
    else w.unreported

/-- The answer to the request after `n` others of the same. -/
def answer (call : Call) (w : World c) (n : ℕ) : Answer :=
  c.answer call ((attempt call)^[n] w).state

/-- A request and its repetitions. The last answer counts. -/
def call (call : Call) (w : World c) : Except ClientError Answer × World c :=
  let outcome := request fun i => (w.answer call i).reply
  (outcome.1.map fun _ => w.answer call (outcome.2 - 1), (attempt call)^[outcome.2] w)

end World

/-! The client -/

def RoomTypeBody.sent (body : RoomTypeBody) : RoomTypeBody :=
  { body with propertyId := Text.strip body.propertyId, title := Text.strip body.title }

def RatePlanBody.sent (body : RatePlanBody) : RatePlanBody where
  title := Text.take 255 (Text.strip body.title)
  propertyId := Text.strip body.propertyId
  roomTypeId := Text.strip body.roomTypeId
  occupancy := max 1 body.occupancy
  currency := Text.upper (Text.strip body.currency)

section Functions
variable {c : Service}

/-- The client's own error has no status code, and nothing reads its body. -/
def create (what : String) (post : Post) (w : World c) : Except ClientError RemoteId × World c :=
  match w.call (.create post) with
  | (.error e, w') => (.error e, w')
  | (.ok answer, w') =>
    match answer.createdId with
    | none =>
      (.error (.channexApi ("Channex create " ++ what ++ ": missing id in response") 0 ""), w')
    | some id => (.ok id, w')

def createRoomType (body : RoomTypeBody) (w : World c) : Except ClientError RemoteId × World c :=
  create "room type" (.roomType body.sent) w

def createRatePlan (body : RatePlanBody) (w : World c) : Except ClientError RemoteId × World c :=
  create "rate plan" (.ratePlan body.sent) w

def getRoomTypes (propertyId : String) (w : World c) :
    Except ClientError (List Listed) × World c :=
  match w.call (.roomTypes propertyId) with
  | (.error e, w') => (.error e, w')
  | (.ok answer, w') => (.ok answer.listed, w')

def getRatePlans (propertyId : String) (w : World c) :
    Except ClientError (List Listed) × World c :=
  match w.call (.ratePlans propertyId) with
  | (.error e, w') => (.error e, w')
  | (.ok answer, w') => (.ok answer.listed, w')

end Functions

/-! What becomes of a request -/

section Requests
variable {server : Server}

theorem Reply.Throttled.isError {r : Reply} (h : r.Throttled) : r.IsError := by
  cases r with
  | response statusCode _ =>
    change statusCode = 429 at h
    change 400 ≤ statusCode
    omega
  | failed _ => trivial

theorem Reply.ServerError.isError {r : Reply} (h : r.ServerError) : r.IsError := by
  cases r with
  | response statusCode _ => exact le_trans (by omega) h.1
  | failed _ => trivial

/-- The requests before the last one meet with errors, and the last one decides. -/
inductive Requested (server : Server) : Outcome → Prop
  | error {e : ClientError} {m : ℕ} (hall : ∀ i ≤ m, (server i).IsError) :
      Requested server (.error e, m + 1)
  | ok {r : Response} {m : ℕ} (hall : ∀ i < m, (server i).IsError)
      (hlast : server m = .response r.statusCode r.body) (hok : r.statusCode < 400) :
      Requested server (.ok r, m + 1)

theorem request_cases (server : Server) : Requested server (request server) := by
  have hfirst := with429Retries_cases server 3 0
  unfold request
  generalize with429Retries server 3 0 = out at hfirst
  cases hfirst with
  | exhausted hall =>
    refine .error (m := 2) fun i hi => ?_
    rw [← Nat.zero_add i]
    exact (hall i (by omega)).isError
  | @dropped k error hk hall hfailed =>
    rw [Nat.zero_add] at hfailed ⊢
    refine .error fun i hi => ?_
    rcases hi.lt_or_eq with hlt | rfl
    · rw [← Nat.zero_add i]
      exact (hall i hlt).isError
    · rw [hfailed]
      trivial
  | @answered k r hk hall hanswer hother =>
    simp only [Nat.zero_add] at hall hanswer ⊢
    have hsecond : SecondPhase server 2 k (retryServerErrors server 2 r (k + 1)) :=
      retryServerErrors_cases hanswer
    have hbefore : ∀ {j : ℕ}, (∀ i < j, (server (k + i)).ServerError) →
        ∀ i < k + j, (server i).IsError := by
      intro j herrors i hi
      rcases lt_or_ge i k with hlt | hge
      · exact (hall i hlt).isError
      · rw [← Nat.add_sub_cancel' hge]
        exact (herrors (i - k) (by omega)).isError
    generalize retryServerErrors server 2 r (k + 1) = out at hsecond
    cases hsecond with
    | @dropped j error hj herrors hfailed =>
      refine .error (m := k + j + 1) fun i hi => ?_
      rcases hi.lt_or_eq with hlt | rfl
      · exact hbefore (j := j + 1) (fun i hi => herrors i (by omega)) i (by omega)
      · rw [hfailed]
        trivial
    | @answered j r' hj herrors hanswer' hlast =>
      simp only [checkStatus]
      split
      · next hcode =>
        refine .error fun i hi => ?_
        rcases hi.lt_or_eq with hlt | rfl
        · exact hbefore herrors i hlt
        · rw [hanswer']
          exact hcode
      · next hcode => exact .ok (hbefore herrors) hanswer' (by omega)

end Requests

/-! What the world is like afterwards -/

section Calls
variable {c : Service} {post : Post} {w w' : World c} {made : List RemoteId}

namespace World

/-- The post took effect under the identifiers `made`, `lost` times without an answer. -/
structure Later (post : Post) (made : List RemoteId) (lost : ℕ) (w w' : World c) : Prop where
  remote : w'.remote = made.map (·, post) ++ w.remote
  unreported : w'.unreported = List.replicate lost post ++ w.unreported

/-- Nothing has changed that is of interest. -/
structure Same (w w' : World c) : Prop where
  remote : w'.remote = w.remote
  unreported : w'.unreported = w.unreported

theorem added_self (remote : Remote) : added remote remote = [] := by
  unfold added
  rw [Nat.sub_self, List.take_zero, List.map_nil]

theorem added_cons (r : RemoteId × Post) (remote : Remote) :
    added remote (r :: remote) = [r.2] := by
  unfold added
  rw [List.length_cons, Nat.add_sub_cancel_left, List.take_succ_cons, List.take_zero,
    List.map_singleton]

/-- One more request that is not answered. -/
theorem Later.attempt_error (hc : c.Documented) (h : w.Later post made made.length w')
    (herror : (c.answer (.create post) w'.state).reply.IsError) :
    ∃ made', w.Later post made' made'.length (attempt (.create post) w') := by
  have hunreported : (attempt (.create post) w').unreported =
      added w'.remote (attempt (.create post) w').remote ++ w'.unreported := if_pos herror
  rcases hc.created post w'.state with hsame | ⟨id, hcons⟩
  · have hremote : (attempt (.create post) w').remote = w'.remote := hsame
    refine ⟨made, hremote.trans h.remote, ?_⟩
    rw [hunreported, hremote, added_self, List.nil_append, h.unreported]
  · have hremote : (attempt (.create post) w').remote = (id, post) :: w'.remote := hcons
    refine ⟨id :: made, ?_, ?_⟩
    · rw [hremote, h.remote, List.map_cons, List.cons_append]
    · rw [hunreported, hremote, added_cons, h.unreported, List.length_cons, List.replicate_succ]
      rfl

theorem Later.attempt_answered (hc : c.Documented) (h : w.Later post made made.length w')
    (hok : ¬ (c.answer (.create post) w'.state).reply.IsError) :
    ∃ id, (c.answer (.create post) w'.state).createdId = some id ∧
      w.Later post (id :: made) made.length (attempt (.create post) w') := by
  obtain ⟨id, hid, hcons⟩ := hc.answered post w'.state hok
  have hremote : (attempt (.create post) w').remote = (id, post) :: w'.remote := hcons
  refine ⟨id, hid, ?_, (if_neg hok).trans h.unreported⟩
  rw [hremote, h.remote, List.map_cons, List.cons_append]

theorem attempts_unanswered (hc : c.Documented) {n : ℕ}
    (h : ∀ i < n, (w.answer (.create post) i).reply.IsError) :
    ∃ made, w.Later post made made.length ((attempt (.create post))^[n] w) := by
  induction n with
  | zero => exact ⟨[], rfl, rfl⟩
  | succ n ih =>
    obtain ⟨made, hmade⟩ := ih fun i hi => h i (by omega)
    rw [Function.iterate_succ_apply']
    exact hmade.attempt_error hc (h n (by omega))

theorem attempts_listing (hc : c.Documented) {call : Call} {kind : Post → Option String}
    (hkind : call.lists = some kind) (n : ℕ) : w.Same ((attempt call)^[n] w) := by
  induction n with
  | zero => exact ⟨rfl, rfl⟩
  | succ n ih =>
    rw [Function.iterate_succ_apply']
    generalize (attempt call)^[n] w = w' at ih
    have hremote : (attempt call w').remote = w'.remote := hc.looked hkind w'.state
    refine ⟨hremote.trans ih.remote, Eq.trans ?_ ih.unreported⟩
    change (if _ then added w'.remote (attempt call w').remote ++ w'.unreported
      else w'.unreported) = _
    rw [hremote, added_self, List.nil_append, ite_self]

/-- A call ends with an error, after requests that met with errors, or with the answer to its
last request. -/
inductive Called (call : Call) (w : World c) : Except ClientError Answer × World c → Prop
  | error (e : ClientError) {n : ℕ} (h : ∀ i < n + 1, (w.answer call i).reply.IsError) :
      Called call w (.error e, (attempt call)^[n + 1] w)
  | ok {n : ℕ} (h : ∀ i < n, (w.answer call i).reply.IsError)
      (hok : ¬ (w.answer call n).reply.IsError) :
      Called call w (.ok (w.answer call n), (attempt call)^[n + 1] w)

theorem call_cases (call : Call) (w : World c) : Called call w (w.call call) := by
  have hcases := request_cases fun i => (w.answer call i).reply
  unfold World.call
  generalize request (fun i => (w.answer call i).reply) = out at hcases
  cases hcases with
  | error hall => exact .error _ fun i hi => hall i (Nat.lt_succ_iff.mp hi)
  | @ok r m hall hlast hok =>
    refine .ok hall fun herror => ?_
    change (w.answer call m).reply.IsError at herror
    rw [hlast] at herror
    exact absurd hok (Nat.not_lt.mpr herror)

end World

/-! The client's functions -/

/-- A create of the client, with what it returns. -/
inductive Made (post : Post) (w : World c) : Except ClientError RemoteId × World c → Prop
  | error {w' : World c} (e : ClientError) (made : List RemoteId)
      (h : w.Later post made made.length w') : Made post w (.error e, w')
  | ok {w' : World c} (id : RemoteId) (made : List RemoteId)
      (h : w.Later post (id :: made) made.length w') : Made post w (.ok id, w')

theorem create_made (hc : c.Documented) (what : String) (post : Post) (w : World c) :
    Made post w (create what post w) := by
  have hcall := World.call_cases (.create post) w
  unfold create
  generalize w.call (.create post) = out at hcall
  cases hcall with
  | error e herrors =>
    obtain ⟨made, hmade⟩ := World.attempts_unanswered hc herrors
    exact .error e made hmade
  | ok herrors hok =>
    obtain ⟨made, hmade⟩ := World.attempts_unanswered hc herrors
    obtain ⟨id, hid, hlater⟩ := hmade.attempt_answered hc hok
    rw [← Function.iterate_succ_apply' (World.attempt (.create post))] at hlater
    simp only [World.answer, hid]
    exact .ok id made hlater

/-- A listing changes nothing, and is complete if it is no more than a page. -/
inductive Looked (kind : Post → Option String) (w : World c) :
    Except ClientError (List Listed) × World c → Prop
  | error {w' : World c} (e : ClientError) (h : w.Same w') : Looked kind w (.error e, w')
  | ok {w' : World c} {listed : List Listed} (h : w.Same w')
      (hshown : listed ⊆ w.remote.list kind)
      (hpage : (w.remote.list kind).length ≤ c.pageSize → w.remote.list kind ⊆ listed) :
      Looked kind w (.ok listed, w')

theorem looked (hc : c.Documented) (call : Call) {kind : Post → Option String}
    (hkind : call.lists = some kind) (w : World c) :
    Looked kind w ((w.call call).1.map (·.listed), (w.call call).2) := by
  have hcall := World.call_cases call w
  generalize w.call call = out at hcall
  cases hcall with
  | error e _ => exact .error e (World.attempts_listing hc hkind _)
  | @ok n _ hok =>
    have hsame : w.Same ((World.attempt call)^[n] w) := World.attempts_listing hc hkind n
    refine .ok (World.attempts_listing hc hkind _) ?_ ?_
    · rw [← hsame.remote]
      exact hc.shown hkind _ hok
    · rw [← hsame.remote]
      exact hc.page hkind _ hok

theorem getRoomTypes_looked (hc : c.Documented) (pid : String) (w : World c) :
    Looked (Post.roomTypeOf pid) w (getRoomTypes pid w) := by
  have hlooked := looked hc (.roomTypes pid) rfl w
  unfold getRoomTypes
  split <;> next hcall => rwa [hcall] at hlooked

theorem getRatePlans_looked (hc : c.Documented) (pid : String) (w : World c) :
    Looked (Post.ratePlanOf pid) w (getRatePlans pid w) := by
  have hlooked := looked hc (.ratePlans pid) rfl w
  unfold getRatePlans
  split <;> next hcall => rwa [hcall] at hlooked

end Calls

/-! Titles as they are compared -/

section Titles
variable {c : Service} {kind : Post → Option String} {post : Post} {w w' w'' : World c}
  {made : List RemoteId} {lost : ℕ} {title x : String}

/-- The titles of one kind, without the blanks around them. -/
def World.titles (kind : Post → Option String) (w : World c) : List String :=
  (w.remote.filterMap fun r => kind r.2).map Text.strip

/-- Those of the posts that took effect without an answer. -/
def World.lostTitles (kind : Post → Option String) (w : World c) : List String :=
  (w.unreported.filterMap kind).map Text.strip

theorem World.Same.titles_eq (h : w.Same w') : w'.titles kind = w.titles kind := by
  unfold World.titles
  rw [h.remote]

theorem World.Same.lostTitles_eq (h : w.Same w') : w'.lostTitles kind = w.lostTitles kind := by
  unfold World.lostTitles
  rw [h.unreported]

theorem World.Later.titles_eq (h : w.Later post made lost w') (hkind : kind post = some title) :
    w'.titles kind = List.replicate made.length (Text.strip title) ++ w.titles kind := by
  unfold World.titles
  have hmade : (made.map (·, post)).filterMap (fun r => kind r.2) =
      (List.replicate made.length post).filterMap kind := by
    rw [← List.map_const', List.filterMap_map, List.filterMap_map]
    rfl
  rw [h.remote, List.filterMap_append, List.map_append, hmade,
    List.filterMap_replicate_of_some hkind, List.map_replicate]

theorem World.Later.lostTitles_eq (h : w.Later post made lost w')
    (hkind : kind post = some title) :
    w'.lostTitles kind = List.replicate lost (Text.strip title) ++ w.lostTitles kind := by
  unfold World.lostTitles
  rw [h.unreported, List.filterMap_append, List.map_append, List.filterMap_replicate_of_some hkind,
    List.map_replicate]

theorem map_title_list (kind : Post → Option String) (remote : Remote) :
    (remote.list kind).map (fun r => Text.strip r.title) =
      (remote.filterMap fun r => kind r.2).map Text.strip := by
  unfold Remote.list
  rw [List.map_filterMap, List.map_filterMap]
  refine List.filterMap_congr fun r _ => ?_
  cases kind r.2 <;> rfl

theorem World.length_titles (kind : Post → Option String) (w : World c) :
    (w.titles kind).length = (w.remote.list kind).length := by
  unfold World.titles
  rw [← map_title_list, List.length_map]

theorem strip_of_mem_titles (h : x ∈ w.titles kind) : Text.strip x = x := by
  obtain ⟨title, -, rfl⟩ := List.mem_map.mp h
  exact strip_strip title

/-! Frames -/

/-- The posts of `w'` beyond those of `w` are all such posts. -/
structure World.Posting (P : Post → Prop) (w w' : World c) : Prop where
  remote : ∃ posted : Remote, (∀ r ∈ posted, P r.2) ∧ w'.remote = posted ++ w.remote
  unreported : ∃ lost : List Post, (∀ p ∈ lost, P p) ∧ w'.unreported = lost ++ w.unreported

namespace World.Posting
variable {P : Post → Prop}

theorem same (h : w.Same w') : Posting P w w' where
  remote := ⟨[], List.forall_mem_nil _, h.remote⟩
  unreported := ⟨[], List.forall_mem_nil _, h.unreported⟩

theorem later (hP : P post) (h : w.Later post made lost w') : Posting P w w' where
  remote := by
    refine ⟨_, fun r hr => ?_, h.remote⟩
    obtain ⟨id, -, rfl⟩ := List.mem_map.mp hr
    exact hP
  unreported := ⟨_, fun p hp => (List.mem_replicate.mp hp).2 ▸ hP, h.unreported⟩

theorem trans (h : Posting P w w') (h' : Posting P w' w'') : Posting P w w'' where
  remote := by
    obtain ⟨posted, hposted, heq⟩ := h.remote
    obtain ⟨posted', hposted', heq'⟩ := h'.remote
    refine ⟨posted' ++ posted, List.forall_mem_append.mpr ⟨hposted', hposted⟩, ?_⟩
    rw [heq', heq, List.append_assoc]
  unreported := by
    obtain ⟨lost, hlost, heq⟩ := h.unreported
    obtain ⟨lost', hlost', heq'⟩ := h'.unreported
    refine ⟨lost' ++ lost, List.forall_mem_append.mpr ⟨hlost', hlost⟩, ?_⟩
    rw [heq', heq, List.append_assoc]

theorem titles_eq (h : Posting P w w') (hP : ∀ p, P p → kind p = none) :
    w'.titles kind = w.titles kind := by
  obtain ⟨posted, hposted, heq⟩ := h.remote
  have hnone : posted.filterMap (fun r => kind r.2) = [] :=
    List.filterMap_eq_nil_iff.mpr fun r hr => hP _ (hposted r hr)
  unfold World.titles
  rw [heq, List.filterMap_append, hnone, List.nil_append]

theorem lostTitles_eq (h : Posting P w w') (hP : ∀ p, P p → kind p = none) :
    w'.lostTitles kind = w.lostTitles kind := by
  obtain ⟨lost, hlost, heq⟩ := h.unreported
  have hnone : lost.filterMap kind = [] :=
    List.filterMap_eq_nil_iff.mpr fun p hp => hP p (hlost p hp)
  unfold World.lostTitles
  rw [heq, List.filterMap_append, hnone, List.nil_append]

/-- Nothing is taken away at Channex. -/
theorem titles_suffix (h : Posting P w w') : w.titles kind <:+ w'.titles kind := by
  obtain ⟨posted, -, heq⟩ := h.remote
  unfold World.titles
  rw [heq, List.filterMap_append, List.map_append]
  exact List.suffix_append _ _

end World.Posting

end Titles

end OpenPms.Channex
