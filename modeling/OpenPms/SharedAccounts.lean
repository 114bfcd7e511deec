import OpenPms.StripeAccounts

/-!
Two properties that are connected to one Stripe account. The platform is let in and shut out
account by account, so that the disconnection of one property is the end for the other, whose
row does not show it.
-/
namespace OpenPms.Payments

open KeyedTable
open OpenPms.Demo (twoKeys twoKeys_lawful)

/-! Rows -/

section Rows
variable {Key Nonce : Type} {env : SecretsEnv Key Nonce} {s s' : Connected}
  {e : ConnectEvent Nonce} {q : UUID} {a : String}

variable (env) in
def Sealed (stored account : String) : Prop := ∃ k n, stored = env.encrypt k n account

/-- A sealed text opens to its account or not at all, whatever the running key is. -/
theorem Sealed.opened (hlawful : env.Lawful) {stored b : String} {settings : WebhookSettings}
    (h : Sealed env stored a) (hopen : decryptStripeAccountId env settings stored = some b) :
    b = a := by
  obtain ⟨k, n, rfl⟩ := h
  obtain ⟨k', -, hdecrypt⟩ := Option.bind_eq_some_iff.mp hopen
  by_cases hkey : k' = k
  · subst hkey
    rw [hlawful.decrypt_encrypt] at hdecrypt
    exact (Option.some.inj hdecrypt).symm
  · rw [hlawful.decrypt_other k' k n a hkey] at hdecrypt
    exact absurd hdecrypt (by simp)

theorem sealed_of_encrypt {settings : WebhookSettings} {nonce : Nonce} {stored : String}
    (h : encryptStripeAccountId env settings nonce a = some stored) : Sealed env stored a := by
  obtain ⟨k, -, rfl⟩ := Option.map_eq_some_iff.mp h
  exact ⟨k, nonce, rfl⟩

theorem mem_saveConnection {p : UUID} {ciphertext : String} {livemode : Bool} {now : ℤ}
    {connections : Table StripeConnection.propertyId} {row : StripeConnection}
    (h : row ∈ (saveConnection p ciphertext livemode now connections).rows) :
    row ∈ connections.rows ∨ row.stripeAccountId = ciphertext := by
  unfold saveConnection at h
  split at h
  · rcases Table.mem_update.mp h with ⟨hold, -⟩ | ⟨u, -, rfl⟩
    · exact .inl hold
    · exact .inr rfl
  · rcases Table.mem_insert_iff.mp h with hold | ⟨-, rfl⟩
    · exact .inl hold
    · exact .inr rfl

theorem find_saveConnection {p : UUID} {ciphertext : String} {livemode : Bool} {now : ℤ}
    {connections : Table StripeConnection.propertyId} (hne : q ≠ p) :
    (saveConnection p ciphertext livemode now connections).find q = connections.find q := by
  unfold saveConnection
  split
  · exact Table.find_update_of_ne hne
  · exact Table.find_insert_of_ne hne

theorem mem_disconnected {p : UUID} {now : ℤ} {connections : Table StripeConnection.propertyId}
    {row : StripeConnection} (h : row ∈ (connections.update p (.disconnect now)
      (StripeConnection.id_disconnect now)).rows) :
    ∃ old ∈ connections.rows, old.stripeAccountId = row.stripeAccountId := by
  rcases Table.mem_update.mp h with ⟨hold, -⟩ | ⟨u, hu, rfl⟩
  · exact ⟨row, hold, rfl⟩
  · exact ⟨u, (Table.find_eq_some.mp hu).1, rfl⟩

theorem find_disconnected {p : UUID} {now : ℤ} {connections : Table StripeConnection.propertyId}
    (hne : q ≠ p) : (connections.update p (.disconnect now)
      (StripeConnection.id_disconnect now)).find q = connections.find q :=
  Table.find_update_of_ne hne

theorem disconnectPlan_ok {settings : StripeSettings} {p : UUID}
    (h : disconnectPlan env settings p s.db = .ok a) :
    s.db.account env settings.toWebhookSettings p = some a := by
  simp only [disconnectPlan, Except.bind_eq_ok] at h
  obtain ⟨-, -, -, -, h⟩ := h
  unfold ConnectDb.account
  split at h
  · exact absurd h (by simp)
  · next row hrow =>
    split at h
    · exact absurd h (by simp)
    · next opened hopen =>
      obtain rfl := Except.ok.inj h
      rw [hrow, Option.bind_some]
      exact hopen

theorem Effect.connections_kept (he : Effect env s e s') (hwho : ¬ e.Connects) :
    s'.db.connections = s.db.connections ∧ s'.stripe.linked = s.stripe.linked := by
  cases he with
  | quiet hconnects => exact absurd hconnects hwho
  | _ => exact ⟨rfl, rfl⟩

variable (env) in
def SealedRows (s : Connected) : Prop :=
  ∀ row ∈ s.db.connections.rows, ∃ account, Sealed env row.stripeAccountId account

theorem SealedRows.apply (h : SealedRows env s) (hvalid : e.Valid env s) :
    SealedRows env (e.apply env s) := by
  cases e with
  | exchange settings nonce p answer now =>
    change SealedRows env (exchangeCodeForConnection env settings nonce p answer now s).2
    unfold exchangeCodeForConnection
    split
    · exact h
    · cases answer with
      | error message => exact h
      | token account livemode =>
        dsimp only
        split
        · exact h
        · split
          · exact h
          · next ciphertext hencrypt =>
            intro row hrow
            rcases mem_saveConnection hrow with hold | hnew
            · exact h row hold
            · rw [hnew]
              exact ⟨account, sealed_of_encrypt hencrypt⟩
  | disconnect settings p reply now =>
    change SealedRows env (disconnectStripeConnection env settings p reply now s).2
    unfold disconnectStripeConnection
    split
    · exact h
    · split
      · intro row hrow
        obtain ⟨old, hold, htext⟩ := mem_disconnected hrow
        rw [← htext]
        exact h old hold
      · exact h
  | shut account => exact h
  | _ =>
    unfold SealedRows
    rw [((effect_apply env hvalid).connections_kept not_false).1]
    exact h

theorem ConnectRun.sealedRows (h : ConnectRun env s) : SealedRows env s := by
  induction h with
  | start db hconnections hcards hcharges =>
    intro row hrow
    rw [hconnections] at hrow
    exact absurd hrow List.not_mem_nil
  | step e _ hvalid ih => exact ih.apply hvalid

theorem account_of_row {row : StripeConnection} (hrow : s.db.connections.find q = some row)
    (hactive : row.disconnectedAt = none) (settings : WebhookSettings) :
    s.db.account env settings q = decryptStripeAccountId env settings row.stripeAccountId := by
  unfold ConnectDb.account ConnectDb.activeConnection
  rw [hrow]
  simp [Option.filter, hactive]

theorem row_of_account {settings : WebhookSettings} (h : s.db.account env settings q = some a) :
    ∃ row, s.db.connections.find q = some row ∧ row.disconnectedAt = none ∧
      decryptStripeAccountId env settings row.stripeAccountId = some a := by
  obtain ⟨row, hrow, hopen⟩ := Option.bind_eq_some_iff.mp h
  obtain ⟨hfind, hactive⟩ := Option.filter_eq_some_iff.mp hrow
  exact ⟨row, hfind, Option.isNone_iff_eq_none.mp hactive, hopen⟩

end Rows

/-- The event lets the platform into the account again, or connects the property anew. -/
def ConnectEvent.Readmits {Nonce : Type} (propertyId : UUID) (account : String)
    (e : ConnectEvent Nonce) : Prop :=
  ∃ settings nonce p answer now, e = exchange settings nonce p answer now ∧
    (p = propertyId ∨ ∃ livemode, answer = .token account livemode)

section Shared
variable {Key Nonce : Type} {env : SecretsEnv Key Nonce} {s s' : Connected}
  {e : ConnectEvent Nonce} {q : UUID} {a : String} {row : StripeConnection}

/-- The property has a row, and the platform is shut out of the account. -/
structure ShutOut (s : Connected) (q : UUID) (a : String) (row : StripeConnection) : Prop where
  row : s.db.connections.find q = some row
  linked : s.stripe.linked a = false

theorem ShutOut.apply (hlawful : env.Lawful) (hactive : row.disconnectedAt = none)
    (hsealed : Sealed env row.stripeAccountId a) (h : ShutOut s q a row) (hvalid : e.Valid env s)
    (hno : ¬ e.Readmits q a) : ShutOut (e.apply env s) q a row := by
  have hshut : ∀ account, Function.update s.stripe.linked account false a = false := by
    intro account
    by_cases heq : a = account
    · simp [heq]
    · exact (Function.update_of_ne heq _ _).trans h.linked
  cases e with
  | exchange settings nonce p answer now =>
    have hp : q ≠ p := by
      rintro rfl
      exact hno ⟨settings, nonce, q, answer, now, rfl, .inl rfl⟩
    change ShutOut (exchangeCodeForConnection env settings nonce p answer now s).2 q a row
    unfold exchangeCodeForConnection
    split
    · exact h
    · cases answer with
      | error message => exact h
      | token account livemode =>
        have hother : a ≠ account := by
          rintro rfl
          exact hno ⟨settings, nonce, p, _, now, rfl, .inr ⟨livemode, rfl⟩⟩
        have hstill : Function.update s.stripe.linked account true a = false :=
          (Function.update_of_ne hother _ _).trans h.linked
        dsimp only
        split
        · exact ⟨h.row, hstill⟩
        · split
          · exact ⟨h.row, hstill⟩
          · exact ⟨(find_saveConnection hp).trans h.row, hstill⟩
  | disconnect settings p reply now =>
    change ShutOut (disconnectStripeConnection env settings p reply now s).2 q a row
    unfold disconnectStripeConnection
    split
    · exact h
    · next account hplan =>
      split
      · next hwilling =>
        -- Stripe would not let the platform disconnect the property itself
        have hp : q ≠ p := by
          rintro rfl
          have hopen := disconnectPlan_ok hplan
          rw [account_of_row h.row hactive] at hopen
          have hlinked := hvalid.granted hwilling account hplan
          rw [hsealed.opened hlawful hopen, h.linked] at hlinked
          exact absurd hlinked (by simp)
        exact ⟨(find_disconnected hp).trans h.row, hshut account⟩
      · exact h
  | shut account => exact ⟨h.row, hshut account⟩
  | _ =>
    obtain ⟨hrows, hlinked⟩ := (effect_apply env hvalid).connections_kept not_false
    refine ⟨?_, ?_⟩
    · rw [hrows]
      exact h.row
    · rw [hlinked]
      exact h.linked

variable (env) in
/-- No request for the property is answered as done, as long as Stripe grants what it may. -/
structure NothingWorks (s : Connected) (q : UUID) : Prop where
  disconnect : ∀ settings reply now,
    (ConnectEvent.disconnect settings q reply now).Granted env s →
    (disconnectStripeConnection env settings q reply now s).1 ≠ .ok ()
  save : ∀ settings rowId pmId bookingId reply,
    (ConnectEvent.save settings rowId q pmId bookingId reply).Granted env s →
    (savePaymentMethod env settings rowId q pmId bookingId reply s).1 ≠ .ok ()
  delete : ∀ settings reply, ∀ pm ∈ s.db.paymentMethods.rows, pm.propertyId = q →
    (ConnectEvent.delete settings pm.id reply).Granted env s →
    (deletePaymentMethod env settings pm.id reply s).1 ≠ .ok ()
  charge : ∀ settings rowId folioId failedId pmRowId amount label answer,
    ∀ b ∈ s.db.bookings.rows, b.propertyId = q →
    (ConnectEvent.charge settings rowId folioId failedId b.id pmRowId amount label
      answer).Granted env s →
    (chargeConnected env settings rowId folioId failedId b.id pmRowId amount label answer s).1 ≠
      .ok ()
  refund : ∀ settings folioId bookingId amount reply, ∀ ch ∈ s.db.charges.rows,
    ch.propertyId = q →
    (ConnectEvent.refund settings folioId bookingId ch.id amount reply).Granted env s →
    (refundConnected env settings folioId bookingId ch.id amount reply s).1 ≠ .ok ()

theorem chargePlan_property {secret : Bool} {b : Booking} {pmRowId : UUID} {amount : ℚ}
    {plan : ChargePlan} {db : PaymentsDb} (hb : b ∈ db.bookings.rows)
    (h : chargePlan secret b.id pmRowId amount db = .ok plan) :
    plan.propertyId = b.propertyId := by
  simp only [chargePlan, Except.bind_eq_ok, failIf_ok, orError_ok] at h
  obtain ⟨-, -, -, -, found, hfound, pm, -, -, -, -, -, currency, -, -, -, hret⟩ := h
  cases hret
  rw [Table.find_of_mem hb] at hfound
  rw [Option.some.inj hfound]

/-- Stripe grants nothing for an account that the platform may not act for. -/
theorem nothingWorks_of_shut (haway : ∀ settings b, s.db.account env settings q = some b →
    s.stripe.linked b = false) : NothingWorks env s q where
  disconnect settings reply now hgranted := by
    unfold disconnectStripeConnection
    split
    · simp
    · next account hplan =>
      split
      · next hwilling =>
        have hlinked := hgranted hwilling account hplan
        exact absurd (hlinked.symm.trans (haway _ _ (disconnectPlan_ok hplan))) (by simp)
      · simp
  save settings rowId pmId bookingId reply hgranted := by
    unfold savePaymentMethod
    split
    · simp
    · next account hplan =>
      dsimp only
      split
      · next hwilling =>
        have hlinked := (hgranted hwilling account hplan).1
        exact absurd (hlinked.symm.trans (haway _ _ (savePlan_ok hplan))) (by simp)
      · simp
  delete settings reply pm hpm hq hgranted := by
    unfold deletePaymentMethod
    split
    · simp
    · next out hplan =>
      obtain ⟨row, account⟩ := out
      obtain ⟨hrow, haccount⟩ := detachPlan_ok hplan
      obtain rfl : pm = row := Option.some.inj ((Table.find_of_mem hpm).symm.trans hrow)
      rw [hq] at haccount
      split
      · next hwilling =>
        have hlinked := (hgranted hwilling pm account hplan).1
        exact absurd (hlinked.symm.trans (haway _ _ haccount)) (by simp)
      · simp
  charge settings rowId folioId failedId pmRowId amount label answer b hb hq hgranted := by
    unfold chargeConnected
    split
    · simp
    · next plan hplan =>
      split
      · simp
      · next account haccount =>
        have haway := haway _ _ ((chargePlan_property hb hplan).trans hq ▸ haccount)
        cases answer with
        | error message => simp [chargeAnswer]
        | intent id status =>
          have hlinked := (hgranted plan hplan account haccount ⟨id, status, rfl⟩).1
          exact absurd (hlinked.symm.trans haway) (by simp)
  refund settings folioId bookingId amount reply ch hch hq hgranted := by
    unfold refundConnected
    split
    · simp
    · next plan hplan =>
      split
      · simp
      · next account haccount =>
        have hproperty : plan.charge.propertyId = q := (refundPlan_charge hplan hch) ▸ hq
        dsimp only
        split
        · next hanswer =>
          have hlinked := (hgranted hanswer.1 plan hplan account haccount).1
          exact absurd (hlinked.symm.trans (haway _ _ (hproperty ▸ haccount))) (by simp)
        · simp

/-- Two properties on one account: when one of them is disconnected, the other is shown as
connected all the same, and none of its requests works any more, not even the one that would
disconnect it, until the account is let in again or the property gets another. -/
theorem shared_account_stuck (hlawful : env.Lawful) (hs : ConnectRun env s) {p : UUID}
    {settings : StripeSettings} {reply : Reply} {now : ℤ} (hne : q ≠ p)
    (hp : s.db.account env settings.toWebhookSettings p = some a)
    (hq : s.db.account env settings.toWebhookSettings q = some a)
    (hgranted : (ConnectEvent.disconnect settings p reply now).Granted env s)
    (hdone : (disconnectStripeConnection env settings p reply now s).1 = .ok ())
    (hlater : Later env (fun _ e => ¬ e.Readmits q a)
      (disconnectStripeConnection env settings p reply now s).2 s') :
    getStripeStatus q s'.db = getStripeStatus q s.db ∧
      getStripeStatus q s.db ≠ .notConnected ∧ NothingWorks env s' q := by
  obtain ⟨row, hrow, hactive, hopen⟩ := row_of_account hq
  obtain ⟨b, hsealed⟩ := hs.sealedRows row (Table.find_eq_some.mp hrow).1
  obtain rfl := hsealed.opened hlawful hopen
  have hfirst : ShutOut (disconnectStripeConnection env settings p reply now s).2 q a row := by
    unfold disconnectStripeConnection at hdone ⊢
    split
    · next error hplan => simp [hplan] at hdone
    · next account hplan =>
      obtain rfl : account = a :=
        Option.some.inj ((disconnectPlan_ok hplan).symm.trans hp)
      rw [hplan] at hdone
      dsimp only at hdone
      split
      · exact ⟨(find_disconnected hne).trans hrow, by simp⟩
      · next hrefused => simp [hrefused] at hdone
  have hrun : ConnectRun env (disconnectStripeConnection env settings p reply now s).2 :=
    hs.step (.disconnect settings p reply now) ⟨trivial, hgranted⟩
  have hlast : ShutOut s' q a row :=
    Later.keeps (P := fun s' => ShutOut s' q a row) hrun hfirst
      (fun _ _ _ hvalid hno h => h.apply hlawful hactive hsealed hvalid hno) hlater
  have hshown : ∀ t : Connected, t.db.connections.find q = some row →
      getStripeStatus q t.db = .connected row.livemode row.connectedAt := by
    intro t ht
    simp [getStripeStatus, ConnectDb.activeConnection, ht, Option.filter, hactive]
  refine ⟨(hshown s' hlast.row).trans (hshown s hrow).symm, ?_, nothingWorks_of_shut ?_⟩
  · rw [hshown s hrow]
    simp
  · intro settings' b hb
    rw [account_of_row hlast.row hactive] at hb
    rw [hsealed.opened hlawful hb]
    exact hlast.linked

end Shared

namespace AccountDemo

/-- Both properties on account A. -/
def shared : Connected := (exchangeOf 2 "A").apply twoKeys connected

theorem shared_reached : ConnectRun twoKeys shared :=
  .step _ (.step _ (.start connectDb rfl rfl rfl) (exchange_valid _ 1 "A")) (exchange_valid _ 2 "A")

def disconnecting : ConnectEvent Unit := .disconnect stripeSettings 1 willing 101

theorem disconnecting_granted : disconnecting.Granted twoKeys shared := by
  rintro - account hplan
  have hfirst : disconnectPlan twoKeys stripeSettings 1 shared.db = .ok "A" := by decide
  obtain rfl := Except.ok.inj (hplan.symm.trans hfirst)
  decide

def entering : ConnectEvent Unit := .enter "pm_1" "A"

def refused : ConnectEvent Unit :=
  .save stripeSettings 30 2 "pm_1" none ⟨false, "No such payment_method"⟩

/-- A guest enters a card for account A, which is to be saved for the second property. -/
def cardLost : Connected :=
  refused.apply twoKeys (entering.apply twoKeys (disconnecting.apply twoKeys shared))

theorem later_cardLost :
    Later twoKeys (fun _ e => ¬ e.Readmits 2 "A")
      (disconnecting.apply twoKeys shared) cardLost := by
  have hentering : ¬ entering.Readmits 2 "A" := by
    rintro ⟨settings, nonce, p, answer, now, heq, -⟩
    cases heq
  have hrefused : ¬ refused.Readmits 2 "A" := by
    rintro ⟨settings, nonce, p, answer, now, heq, -⟩
    cases heq
  have hvalid : ∀ s, s.db.paymentMethods.find 30 = none → refused.Valid twoKeys s :=
    fun s hnew => ⟨hnew, fun hwilling => absurd hwilling Bool.false_ne_true⟩
  exact (Relation.ReflTransGen.single ⟨entering, ⟨rfl, trivial⟩, hentering, rfl⟩).tail
    ⟨refused, hvalid _ (by decide), hrefused, rfl⟩

end AccountDemo

theorem shared_account_stuck_demo :
    getStripeStatus 2 AccountDemo.cardLost.db = .connected true 100 ∧
      AccountDemo.cardLost.stripe.cardAccount "pm_1" = some "A" ∧
      NothingWorks twoKeys AccountDemo.cardLost 2 := by
  have hone : AccountDemo.shared.db.account twoKeys AccountDemo.stripeSettings.toWebhookSettings 1 =
      some "A" := by decide
  have htwo : AccountDemo.shared.db.account twoKeys AccountDemo.stripeSettings.toWebhookSettings 2 =
      some "A" := by decide
  have hdone : (disconnectStripeConnection twoKeys AccountDemo.stripeSettings 1 AccountDemo.willing
      101 AccountDemo.shared).1 = .ok () := by
    have hplan : disconnectPlan twoKeys AccountDemo.stripeSettings 1 AccountDemo.shared.db =
        .ok "A" := by
      decide
    simp [disconnectStripeConnection, hplan, AccountDemo.willing]
  obtain ⟨hstatus, -, hnothing⟩ := shared_account_stuck twoKeys_lawful AccountDemo.shared_reached
    (by decide) hone htwo AccountDemo.disconnecting_granted hdone AccountDemo.later_cardLost
  have hshown : getStripeStatus 2 AccountDemo.shared.db = .connected true 100 := by decide
  exact ⟨hstatus.trans hshown, by decide, hnothing⟩

end OpenPms.Payments
