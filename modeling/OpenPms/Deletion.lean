import OpenPms.Integrations

/-!
What is left of an API key or a webhook subscription after its deletion. The delete
requests make a coroutine that never runs, so a request that answers with success has
found the row and leaves it. A key is dead afterwards only if it had expired before.
-/
namespace OpenPms

open KeyedTable Transaction Prog

/-! Secrets without spaces -/

theorem isAlphanum_iff (c : Char) : c.isAlphanum = true ↔
    (65 ≤ c.toNat ∧ c.toNat ≤ 90) ∨ (97 ≤ c.toNat ∧ c.toNat ≤ 122) ∨
      (48 ≤ c.toNat ∧ c.toNat ≤ 57) := by
  change ((decide ('A'.val ≤ c.val ∧ c.val ≤ 'Z'.val) ||
    (decide ('a'.val ≤ c.val) && decide (c.val ≤ 'z'.val))) ||
    (decide ('0'.val ≤ c.val) && decide (c.val ≤ '9'.val))) = true ↔ _
  simp only [Bool.or_eq_true, Bool.and_eq_true, decide_eq_true_eq, or_assoc]
  rfl

theorem isSpace_urlSafe {c : Char} (h : c.isAlphanum ∨ c = '-' ∨ c = '_') :
    Text.isSpace c = false := by
  rcases h with h | rfl | rfl
  · have hrange : 48 ≤ c.toNat ∧ c.toNat ≤ 122 := by
      rw [isAlphanum_iff] at h
      omega
    simp only [Text.isSpace, Bool.or_eq_false_iff, Bool.and_eq_false_imp, decide_eq_false_iff_not,
      decide_eq_true_eq, beq_eq_false_iff_ne]
    omega
  · decide
  · decide

theorem strip_plaintext (token : UrlSafe) :
    Text.strip (generateApiKeyPlaintext token) = generateApiKeyPlaintext token := by
  apply strip_of_no_space
  intro c hc
  simp only [generateApiKeyPlaintext, String.toList_append, List.mem_append] at hc
  rcases hc with hc | hc
  · have hprefix : ("opms_".toList.all fun c => ! Text.isSpace c) = true := by decide
    simpa using List.all_eq_true.mp hprefix c hc
  · exact isSpace_urlSafe (token.safe c hc)

theorem plaintext_ne_empty (token : UrlSafe) : generateApiKeyPlaintext token ≠ "" := by
  intro h
  have hlist := congrArg String.toList h
  simp [generateApiKeyPlaintext] at hlist

variable {sha256 : String → String}

/-! What a request does to the keys -/

/-- Keys are only added, under a hash of their own, or renamed and switched on and off. -/
inductive KeyChange (sha256 : String → String) (t : Table ApiKey.id) : Table ApiKey.id → Prop
  | same : KeyChange sha256 t t
  | added (row : ApiKey) (token : UrlSafe) (hfresh : ∀ r ∈ t.rows, r.keyHash ≠ row.keyHash)
      (hissued : row.keyHash = sha256 (generateApiKeyPlaintext token)) :
      KeyChange sha256 t (t.insert row)
  | patched (keyId : UUID) (f : ApiKey → ApiKey) (hf : ∀ r, (f r).id = r.id)
      (hkeep : ∀ r, (f r).keyHash = r.keyHash ∧ (f r).expiresAt = r.expiresAt) :
      KeyChange sha256 t (t.update keyId f hf)

/-- What a request does to the keys and to the clock. -/
structure KeyStep (sha256 : String → String) (s s' : Integrations) : Prop where
  keys : KeyChange sha256 s.apiKeys s'.apiKeys
  now_le : s.now ≤ s'.now

theorem keyStep_refl (s : Integrations) : KeyStep sha256 s s := ⟨.same, le_rfl⟩

theorem keyStep_createApiKey {s s' : Integrations} {id tenantId : UUID} {token : UrlSafe}
    {name : String} {scopes : List String} {expiresAt : Option ℤ} {r : ApiKey × String}
    (h : (createApiKey sha256 id token tenantId name scopes expiresAt).exec s = (.ok r, s')) :
    KeyStep sha256 s s' := by
  simp only [createApiKey, exec_bind_ok, exec_raiseIf_ok, exec_select, exec_modify, exec_pure,
    Prod.mk.injEq, Except.ok.injEq, Bool.not_eq_true] at h
  obtain ⟨_, _, ⟨-, rfl⟩, _, _, ⟨-, rfl⟩, _, _, ⟨rfl, rfl⟩, _, _, ⟨hclash, rfl⟩, _, _, ⟨-, rfl⟩,
    -, rfl⟩ := h
  refine ⟨.added _ token ?_ rfl, le_rfl⟩
  intro r hr heq
  rw [List.any_eq_false] at hclash
  simpa [heq] using hclash r hr

theorem keyStep_patchApiKey {s s' : Integrations} {tenantId keyId : UUID}
    {isActive : Option Bool} {name : Option String} {u : Unit}
    (h : (patchApiKey tenantId keyId isActive name).exec s = (.ok u, s')) :
    KeyStep sha256 s s' := by
  obtain ⟨found, _, hsel, h⟩ := exec_bind_ok.mp h
  cases hsel
  split at h
  · cases h
  · next row _ =>
    simp only [exec_bind_ok, exec_raiseIf_ok, updateApiKey, exec_modify, Prod.mk.injEq] at h
    obtain ⟨_, _, ⟨-, rfl⟩, -, rfl⟩ := h
    refine ⟨.patched row.id _ ?_ ?_, le_rfl⟩
    · exact fun _ => rfl
    · exact fun _ => ⟨rfl, rfl⟩

/-- The answer of a delete request is a success without a change. -/
theorem exec_deleteApiKey {s s' : Integrations} {tenantId keyId : UUID} {u : Unit} :
    (deleteApiKey tenantId keyId).exec s = (.ok u, s') ↔
      (∃ row, s.apiKeys.find keyId = some row ∧ row.tenantId = tenantId) ∧ s' = s := by
  simp only [deleteApiKey, selectApiKey, exec_bind_ok, exec_select, Prod.mk.injEq,
    Except.ok.injEq, and_assoc]
  cases hfind : s.apiKeys.find keyId with
  | none => simp
  | some row =>
    by_cases htenant : row.tenantId = tenantId
    · simp [Option.filter, htenant, eq_comm]
    · simp [Option.filter, htenant]

theorem exec_deleteSubscription {s s' : Integrations} {tenantId subscriptionId : UUID} {u : Unit} :
    (deleteSubscription tenantId subscriptionId).exec s = (.ok u, s') ↔
      (∃ row, s.subscriptions.find subscriptionId = some row ∧ row.tenantId = tenantId) ∧
        s' = s := by
  simp only [deleteSubscription, selectSubscription, exec_bind_ok, exec_select, Prod.mk.injEq,
    Except.ok.injEq, and_assoc]
  cases hfind : s.subscriptions.find subscriptionId with
  | none => simp
  | some row =>
    by_cases htenant : row.tenantId = tenantId
    · simp [Option.filter, htenant, eq_comm]
    · simp [Option.filter, htenant]

/-- The part of the state that the webhook requests leave alone. -/
def Integrations.keysAndClock (s : Integrations) : Table ApiKey.id × ℤ := (s.apiKeys, s.now)

theorem keyStep_of_keeps {p : IntegrationTx Unit} (hp : Keeps Integrations.keysAndClock p)
    (s : Integrations) : KeyStep sha256 s (p.transact s) := by
  refine transact_induction (R := KeyStep sha256) p (keyStep_refl s) fun u s' h => ?_
  have hkept := hp.eq h
  simp only [Integrations.keysAndClock, Prod.mk.injEq] at hkept
  exact ⟨hkept.1 ▸ .same, hkept.2.ge⟩

theorem keeps_createSubscription (id tenantId : UUID) (url : Except IntegrationError String)
    (events : List String) (isActive : Bool) :
    Keeps Integrations.keysAndClock (createSubscription id tenantId url events isActive) := by
  unfold createSubscription
  refine keeps_bind (keeps_ofExcept _) fun _ => ?_
  refine keeps_bind (keeps_ofExcept _) fun _ => ?_
  refine keeps_bind (keeps_select _) fun _ => ?_
  exact keeps_bind (keeps_raiseIf _) fun _ => keeps_modify fun _ => rfl

theorem keeps_patchSubscription (tenantId subscriptionId : UUID)
    (url : Option (Except IntegrationError String)) (events : Option (List String))
    (isActive : Option Bool) : Keeps Integrations.keysAndClock
      (patchSubscription tenantId subscriptionId url events isActive) := by
  unfold patchSubscription
  refine keeps_bind (keeps_select _) fun found => ?_
  cases found with
  | none => exact keeps_raise _
  | some row =>
    refine keeps_bind (keeps_ofExcept _) fun _ => ?_
    exact keeps_bind (keeps_ofExcept _) fun _ => keeps_modify fun _ => rfl

theorem keeps_dispatchWebhookEvent (ids : ℕ → UUID) (tenantId : UUID) (eventType data : String) :
    Keeps Integrations.keysAndClock (dispatchWebhookEvent ids tenantId eventType data) := by
  unfold dispatchWebhookEvent
  refine keeps_bind (keeps_select _) fun _ => ?_
  exact keeps_bind (keeps_select _) fun _ => keeps_modify fun _ => rfl

/-- Every request changes the keys in one of three ways, and time does not go back. -/
theorem keyStep_transact (sha256 : String → String) (op : IntegrationOp) (s : Integrations) :
    KeyStep sha256 s ((op.prog sha256).transact s) := by
  cases op with
  | createApiKey id token tenantId name scopes expiresAt =>
    refine transact_induction (R := KeyStep sha256) _ (keyStep_refl s) fun u s' h => ?_
    obtain ⟨r, s₁, hcreate, hret⟩ := exec_bind_ok.mp h
    cases hret
    exact keyStep_createApiKey hcreate
  | patchApiKey tenantId keyId isActive name =>
    exact transact_induction (R := KeyStep sha256) _ (keyStep_refl s) fun u s' h =>
      keyStep_patchApiKey h
  | deleteApiKey tenantId keyId =>
    refine transact_induction (R := KeyStep sha256) _ (keyStep_refl s) fun u s' h => ?_
    rw [(exec_deleteApiKey.mp h).2]
    exact keyStep_refl s
  | createSubscription id tenantId url events isActive =>
    exact keyStep_of_keeps (keeps_createSubscription id tenantId url events isActive) s
  | patchSubscription tenantId subscriptionId url events isActive =>
    exact keyStep_of_keeps
      (keeps_patchSubscription tenantId subscriptionId url events isActive) s
  | deleteSubscription tenantId subscriptionId =>
    refine transact_induction (R := KeyStep sha256) _ (keyStep_refl s) fun u s' h => ?_
    rw [(exec_deleteSubscription.mp h).2]
    exact keyStep_refl s
  | dispatchWebhookEvent ids tenantId eventType data =>
    exact keyStep_of_keeps (keeps_dispatchWebhookEvent ids tenantId eventType data) s
  | timePasses seconds =>
    refine transact_induction (R := KeyStep sha256) _ (keyStep_refl s) fun u s' h => ?_
    cases h
    exact ⟨.same, by simp⟩

/-- A key after a request was there before with its hash and expiry, or is new. -/
theorem KeyChange.mem {t t' : Table ApiKey.id} (h : KeyChange sha256 t t') {r : ApiKey}
    (hr : r ∈ t'.rows) :
    (∃ r₀ ∈ t.rows, r.id = r₀.id ∧ r.keyHash = r₀.keyHash ∧ r.expiresAt = r₀.expiresAt) ∨
      ((∀ r₀ ∈ t.rows, r₀.keyHash ≠ r.keyHash) ∧
        ∃ token, r.keyHash = sha256 (generateApiKeyPlaintext token) ∧
          ∀ r' ∈ t'.rows, r' ∈ t.rows ∨ r' = r) := by
  cases h with
  | same => exact .inl ⟨r, hr, rfl, rfl, rfl⟩
  | added row token hfresh hissued =>
    have hcases : ∀ r' ∈ (t.insert row).rows, r' ∈ t.rows ∨ r' = row := by
      intro r' hr'
      unfold Table.insert at hr'
      split at hr'
      · exact .inl hr'
      · simpa using hr'
    rcases hcases r hr with hr | rfl
    · exact .inl ⟨r, hr, rfl, rfl, rfl⟩
    · exact .inr ⟨hfresh, token, hissued, hcases⟩
  | patched keyId f hf hkeep =>
    rcases Table.mem_update.mp hr with ⟨hr, -⟩ | ⟨u, hu, rfl⟩
    · exact .inl ⟨r, hr, rfl, rfl, rfl⟩
    · exact .inl ⟨u, (Table.find_eq_some.mp hu).1, hf u, hkeep u⟩

/-- No request takes a key away. -/
theorem KeyChange.hash_mem {t t' : Table ApiKey.id} (h : KeyChange sha256 t t') {r : ApiKey}
    (hr : r ∈ t.rows) : ∃ r' ∈ t'.rows, r'.keyHash = r.keyHash := by
  cases h with
  | same => exact ⟨r, hr, rfl⟩
  | added row token hfresh hissued =>
    refine ⟨r, ?_, rfl⟩
    unfold Table.insert
    split
    · exact hr
    · exact List.mem_append_left _ hr
  | patched keyId f hf hkeep =>
    by_cases hid : r.id = keyId
    · subst hid
      exact ⟨f r, Table.mem_update.mpr (.inr ⟨r, Table.find_of_mem hr, rfl⟩), (hkeep r).1⟩
    · exact ⟨r, Table.mem_update.mpr (.inl ⟨hr, hid⟩), rfl⟩

/-! Invariants of runs -/

namespace Integrations

/-- Hashes are unique, and each belongs to a secret that was handed out. -/
structure Issued (sha256 : String → String) (s : Integrations) : Prop where
  unique : ∀ r ∈ s.apiKeys.rows, ∀ r' ∈ s.apiKeys.rows, r.keyHash = r'.keyHash → r.id = r'.id
  secret : ∀ r ∈ s.apiKeys.rows, ∃ token, r.keyHash = sha256 (generateApiKeyPlaintext token)

theorem issued_transact {s : Integrations} (h : Issued sha256 s) (op : IntegrationOp) :
    Issued sha256 ((op.prog sha256).transact s) := by
  obtain ⟨hchange, -⟩ := keyStep_transact sha256 op s
  constructor
  · intro r hr r' hr' heq
    rcases hchange.mem hr with ⟨r₀, hr₀, hid, hhash, -⟩ | ⟨hfresh, -, -, hrest⟩
    · rcases hchange.mem hr' with ⟨r₁, hr₁, hid', hhash', -⟩ | ⟨hfresh, -, -, -⟩
      · rw [hid, hid']
        exact h.unique r₀ hr₀ r₁ hr₁ (by rw [← hhash, ← hhash', heq])
      · exact absurd (hhash.symm.trans heq) (hfresh r₀ hr₀)
    · rcases hrest r' hr' with hold | rfl
      · exact absurd heq.symm (hfresh r' hold)
      · rfl
  · intro r hr
    rcases hchange.mem hr with ⟨r₀, hr₀, -, hhash, -⟩ | ⟨-, token, hissued, -⟩
    · rw [hhash]
      exact h.secret r₀ hr₀
    · exact ⟨token, hissued⟩

theorem Reachable.issued {s : Integrations} (h : Reachable sha256 s) : Issued sha256 s := by
  obtain ⟨now, hlater⟩ := h
  induction hlater with
  | refl => exact ⟨by simp [empty, Table.empty], by simp [empty, Table.empty]⟩
  | tail op _ ih => exact issued_transact ih op

/-- The hash is taken, by keys that have expired. -/
structure Expired (digest : String) (s : Integrations) : Prop where
  taken : ∃ r ∈ s.apiKeys.rows, r.keyHash = digest
  past : ∀ r ∈ s.apiKeys.rows, r.keyHash = digest → ∃ t, r.expiresAt = some t ∧ t ≤ s.now

theorem expired_transact {digest : String} {s : Integrations} (h : Expired digest s)
    (op : IntegrationOp) : Expired digest ((op.prog sha256).transact s) := by
  obtain ⟨hchange, hnow⟩ := keyStep_transact sha256 op s
  obtain ⟨row, hrow, hdigest⟩ := h.taken
  constructor
  · obtain ⟨r', hr', heq⟩ := hchange.hash_mem hrow
    exact ⟨r', hr', heq.trans hdigest⟩
  · intro r hr heq
    rcases hchange.mem hr with ⟨r₀, hr₀, -, hhash, hexp⟩ | ⟨hfresh, -⟩
    · obtain ⟨t, ht, hle⟩ := h.past r₀ hr₀ (hhash.symm.trans heq)
      exact ⟨t, hexp.trans ht, hle.trans hnow⟩
    · exact absurd (hdigest.trans heq.symm) (hfresh row hrow)

theorem expired_later {digest : String} {s s' : Integrations} (h : Expired digest s)
    (hlater : Later sha256 s s') : Expired digest s' := by
  induction hlater with
  | refl => exact h
  | tail op _ ih => exact expired_transact ih op

theorem Expired.lookup {digest : String} {s : Integrations} (h : Expired digest s) :
    lookupApiKeyByHash digest s = none := by
  unfold lookupApiKeyByHash
  rw [List.find?_eq_none]
  intro r hr
  by_cases heq : r.keyHash = digest
  · obtain ⟨t, ht, hle⟩ := h.past r hr heq
    simp [ht, hle]
  · simp [heq]

end Integrations

/-! The effect of a deletion -/

inductive Deletion where
  | apiKey (tenantId keyId : UUID)
  | subscription (tenantId subscriptionId : UUID)

def Authenticates (sha256 : String → String) (raw : String) (s : Integrations) : Prop :=
  ∃ who, ((authenticateApiKey sha256 (some raw)).exec s).1 = .ok (some who)

/-- The delivery queue gets something for the subscription. -/
def Enqueues (sha256 : String → String) (s : Integrations) (op : IntegrationOp)
    (subscriptionId : UUID) : Prop :=
  ∃ p ∈ ((op.prog sha256).transact s).pendingDeliveries,
    p.webhookSubscriptionId = subscriptionId ∧ p ∉ s.pendingDeliveries

/-- After the request has answered with success and committed, no later request is
authenticated by the key; no later dispatch enqueues a delivery for the subscription and
no listing returns it. -/
def TakesEffect (sha256 : String → String) (s : Integrations) : Deletion → Prop
  | .apiKey tenantId keyId =>
    ∀ u s₁, (deleteApiKey tenantId keyId).exec s = (.ok u, s₁) →
      ∀ row raw, s.apiKeys.find keyId = some row → sha256 (Text.strip raw) = row.keyHash →
        ∀ s₂, s₁.Later sha256 s₂ → ¬ Authenticates sha256 raw s₂
  | .subscription tenantId subscriptionId =>
    ∀ u s₁, (deleteSubscription tenantId subscriptionId).exec s = (.ok u, s₁) →
      ∀ s₂, s₁.Later sha256 s₂ →
        (∀ ids t eventType data,
          ¬ Enqueues sha256 s₂ (.dispatchWebhookEvent ids t eventType data) subscriptionId) ∧
        ∀ t, subscriptionId ∉ (listSubscriptions t s₂).map (·.id)

/-- There was nothing to delete: no such row, or a key that has expired. -/
def NothingToDelete (s : Integrations) : Deletion → Prop
  | .apiKey tenantId keyId => ∀ row, s.apiKeys.find keyId = some row → row.tenantId = tenantId →
      ∃ t, row.expiresAt = some t ∧ t ≤ s.now
  | .subscription tenantId subscriptionId => ∀ row,
      s.subscriptions.find subscriptionId = some row → row.tenantId ≠ tenantId

instance (s : Integrations) (d : Deletion) : Decidable (NothingToDelete s d) :=
  match d with
  | .apiKey tenantId keyId =>
    decidable_of_iff (∀ row ∈ s.apiKeys.find keyId, row.tenantId = tenantId →
      ∃ t ∈ row.expiresAt, t ≤ s.now) (by simp [NothingToDelete, Option.mem_def])
  | .subscription tenantId subscriptionId =>
    decidable_of_iff (∀ row ∈ s.subscriptions.find subscriptionId, row.tenantId ≠ tenantId)
      (by simp [NothingToDelete, Option.mem_def])

theorem authenticates_iff {raw : String} {s : Integrations} :
    Authenticates sha256 raw s ↔ Text.strip raw ≠ "" ∧
      (lookupApiKeyByHash (sha256 (Text.strip raw)) s).isSome := by
  unfold Authenticates authenticateApiKey
  by_cases hraw : Text.strip raw = ""
  · simp [Option.filter, hraw]
  · simp only [Option.filter, hraw, ne_eq, not_false_eq_true, decide_true, if_true, exec_bind,
      exec_select, true_and]
    cases lookupApiKeyByHash (sha256 (Text.strip raw)) s <;> simp

/-- A key that has not expired can be switched on again after its deletion. -/
theorem patched_key_found {s : Integrations} {tenantId keyId : UUID} {row : ApiKey}
    (hfind : s.apiKeys.find keyId = some row) (htenant : row.tenantId = tenantId)
    (hlive : row.expiresAt.all (s.now < ·) = true) :
    (lookupApiKeyByHash row.keyHash
      ((IntegrationOp.prog sha256 (.patchApiKey tenantId keyId (some true) none)).transact s)).isSome
    := by
  obtain ⟨hrow, hid⟩ := Table.find_eq_some.mp hfind
  let on (r : ApiKey) : ApiKey := { r with isActive := true }
  have hon : ∀ r, (on r).id = r.id := fun _ => rfl
  have hexec : (patchApiKey tenantId keyId (some true) none).exec s =
      (.ok (), { s with apiKeys := s.apiKeys.update keyId on hon }) := by
    simp [patchApiKey, selectApiKey, updateApiKey, exec_bind, hfind, htenant, raiseIf, hid,
      Option.filter, on]
  rw [IntegrationOp.prog, transact_ok hexec, lookupApiKeyByHash, List.find?_isSome]
  have hmem : on row ∈ (s.apiKeys.update keyId on hon).rows :=
    Table.mem_update.mpr (.inr ⟨row, hfind, rfl⟩)
  refine ⟨on row, hmem, ?_⟩
  simpa [on] using hlive

/-- A deletion takes effect exactly when there was nothing to delete. -/
theorem deletion_takes_effect_iff {s : Integrations} (hs : s.Reachable sha256) (d : Deletion) :
    TakesEffect sha256 s d ↔ NothingToDelete s d := by
  have hissued := hs.issued
  cases d with
  | apiKey tenantId keyId =>
    constructor
    · intro heffect row hfind htenant
      by_contra hlive
      obtain ⟨token, hhash⟩ := hissued.secret row (Table.find_eq_some.mp hfind).1
      have hdelete : (deleteApiKey tenantId keyId).exec s = (.ok (), s) :=
        exec_deleteApiKey.mpr ⟨⟨row, hfind, htenant⟩, rfl⟩
      refine heffect () s hdelete row (generateApiKeyPlaintext token) hfind ?_ _
        (.tail (.patchApiKey tenantId keyId (some true) none) .refl) ?_
      · rw [strip_plaintext, hhash]
      · rw [authenticates_iff, strip_plaintext, ← hhash]
        refine ⟨plaintext_ne_empty token, patched_key_found hfind htenant ?_⟩
        cases hexp : row.expiresAt with
        | none => rfl
        | some t =>
          have hlt : ¬ t ≤ s.now := fun hle => hlive ⟨t, hexp, hle⟩
          simpa using hlt
    · intro hnothing u s₁ hdelete row raw hfind hraw s₂ hlater hauth
      obtain ⟨⟨row', hfind', htenant⟩, rfl⟩ := exec_deleteApiKey.mp hdelete
      rw [hfind] at hfind'
      cases hfind'
      have hexpired : s₁.Expired row.keyHash := by
        refine ⟨⟨row, (Table.find_eq_some.mp hfind).1, rfl⟩, fun r hr heq => ?_⟩
        have hid := hissued.unique r hr row (Table.find_eq_some.mp hfind).1 heq
        have hsame : r = row :=
          List.inj_on_of_nodup_map s₁.apiKeys.nodup hr (Table.find_eq_some.mp hfind).1 hid
        rw [hsame]
        exact hnothing row hfind htenant
      rw [authenticates_iff, hraw, (Integrations.expired_later hexpired hlater).lookup] at hauth
      simp at hauth
  | subscription tenantId subscriptionId =>
    constructor
    · intro heffect row hfind htenant
      have hdelete : (deleteSubscription tenantId subscriptionId).exec s = (.ok (), s) :=
        exec_deleteSubscription.mpr ⟨⟨row, hfind, htenant⟩, rfl⟩
      obtain ⟨hrow, hid⟩ := Table.find_eq_some.mp hfind
      apply (heffect () s hdelete s .refl).2 tenantId
      rw [List.mem_map]
      refine ⟨row, ?_, hid⟩
      simp [listSubscriptions, hrow, htenant]
    · intro hnothing u s₁ hdelete
      obtain ⟨⟨row, hfind, htenant⟩, -⟩ := exec_deleteSubscription.mp hdelete
      exact absurd htenant (hnothing row hfind)

namespace Demo

/-- The digest of one secret; other texts keep distinct images. -/
def digest (text : String) : String :=
  if text = "opms_Zm9v" then "916d11cf23689484b3b64776e878c740c61a5d115a015f2cc82a023ec292ef04"
  else text

def token : UrlSafe where
  text := "Zm9v"
  safe := by
    have hall : ("Zm9v".toList.all fun c => decide (c.isAlphanum ∨ c = '-' ∨ c = '_')) = true := by
      decide
    exact fun c hc => of_decide_eq_true (List.all_eq_true.mp hall c hc)

def twoIntegrations (expiresAt : Option ℤ) : List IntegrationOp :=
  [.createApiKey 7 token 1 "sync" ["bookings:read"] expiresAt,
    .createSubscription 8 1 (.ok "https://example.com/hook") ["booking.created"] true,
    .timePasses 60]

def integrations (expiresAt : Option ℤ) : Integrations :=
  (twoIntegrations expiresAt).foldl (fun s op => (op.prog digest).transact s) (.empty 1000)

theorem reachable_integrations (expiresAt : Option ℤ) :
    (integrations expiresAt).Reachable digest := by
  refine ⟨1000, ?_⟩
  simp only [integrations, twoIntegrations, List.foldl_cons, List.foldl_nil]
  exact .tail _ (.tail _ (.tail _ .refl))

def apiKey : ApiKey := ⟨7, 1, digest "opms_Zm9v", "sync", ["bookings:read"], true, none⟩

theorem find_apiKey : (integrations none).apiKeys.find 7 = some apiKey := by decide

end Demo

theorem deletion_takes_effect_demo :
    TakesEffect Demo.digest (Demo.integrations (some 1030)) (.apiKey 1 7) :=
  (deletion_takes_effect_iff (Demo.reachable_integrations _) _).mpr (by decide)

/-- The deleted key still authenticates, the deleted subscription is still listed. -/
theorem deleted_still_there :
    ¬ TakesEffect Demo.digest (Demo.integrations none) (.apiKey 1 7) ∧
      ¬ TakesEffect Demo.digest (Demo.integrations none) (.subscription 1 8) := by
  constructor
  · intro heffect
    have hdelete : (deleteApiKey 1 7).exec (Demo.integrations none) =
        (.ok (), Demo.integrations none) :=
      exec_deleteApiKey.mpr ⟨⟨Demo.apiKey, Demo.find_apiKey, rfl⟩, rfl⟩
    exact heffect () _ hdelete Demo.apiKey "opms_Zm9v" Demo.find_apiKey (by decide) _ .refl
      (authenticates_iff.mpr (by decide))
  · intro heffect
    have hdelete : (deleteSubscription 1 8).exec (Demo.integrations none) =
        (.ok (), Demo.integrations none) :=
      exec_deleteSubscription.mpr ⟨⟨⟨8, 1, "https://example.com/hook", ["booking.created"], true⟩,
        by decide, rfl⟩, rfl⟩
    exact (heffect () _ hdelete _ .refl).2 1 (by decide)

end OpenPms
