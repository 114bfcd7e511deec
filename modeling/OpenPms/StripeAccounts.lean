import OpenPms.StripeConnect

/-!
What was made under a Stripe account waits for that account. A property may be connected to
another account, be disconnected, or have its account under a key that has gone: until the
running key opens the first account for it again, none of its charges there is refunded, and
none of its cards there is charged or taken off.
-/
namespace OpenPms.Payments

open KeyedTable
open OpenPms.Demo (twoKeys)

/-! What Stripe guarantees -/

/-- The platform may act for the account, and the account holds the object. -/
def StripeSide.Reaches (stripe : StripeSide) (account : String) (holder : Option String) : Prop :=
  stripe.linked account = true ∧ holder = some account

def Connected.Fresh (s : Connected) (id : String) : Prop :=
  id ≠ "" ∧ s.stripe.intentAccount id = none ∧ ∀ ch ∈ s.db.charges.rows, ch.stripeChargeId ≠ id

namespace ConnectEvent
variable {Key Nonce : Type} (env : SecretsEnv Key Nonce)

/-- Stripe grants a request only for an account that the platform may act for and that holds
the card or the intent. -/
def Granted (s : Connected) : ConnectEvent Nonce → Prop
  | disconnect settings propertyId reply _ => reply.willing = true →
      ∀ account, disconnectPlan env settings propertyId s.db = .ok account →
        s.stripe.linked account = true
  | save settings _ propertyId pmId bookingId reply => reply.willing = true →
      ∀ account, savePlan env settings propertyId bookingId s.db = .ok account →
        s.stripe.Reaches account (s.stripe.cardAccount (Text.strip pmId))
  | delete settings pmRowId reply => reply.willing = true →
      ∀ row account, detachPlan env settings pmRowId s.db = .ok (row, account) →
        s.stripe.Reaches account (s.stripe.cardAccount row.stripePmId)
  | charge settings _ _ _ bookingId pmRowId amount _ answer => ∀ plan,
      chargePlan (isSet settings.stripeSecretKey) bookingId pmRowId amount s.db.payments =
        .ok plan → ∀ account,
      s.db.account env settings.toWebhookSettings plan.propertyId = some account →
        (∃ id status, answer = .intent id status) →
        s.stripe.Reaches account (s.stripe.cardAccount plan.stripePmId)
  | refund settings _ bookingId chargeRowId amount reply => reply.willing = true → ∀ plan,
      refundPlan (isSet settings.stripeSecretKey) bookingId chargeRowId amount s.db.payments =
        .ok plan → ∀ account,
      s.db.account env settings.toWebhookSettings plan.charge.propertyId = some account →
        s.stripe.Reaches account (s.stripe.intentAccount plan.charge.stripeChargeId)
  | _ => True

/-- Identifiers are new, those of Stripe and those of rows. -/
def New (s : Connected) : ConnectEvent Nonce → Prop
  | charge _ rowId _ failedId _ _ _ _ answer => s.db.charges.find rowId = none ∧
      s.Fresh failedId ∧ ∀ id status, answer = .intent id status → id ≠ "" → s.Fresh id
  | save _ rowId .. => s.db.paymentMethods.find rowId = none
  | enter stripePmId _ => s.stripe.cardAccount stripePmId = none
  | _ => True

structure Valid (s : Connected) (e : ConnectEvent Nonce) : Prop where
  new : e.New s
  granted : e.Granted env s

/-- The event is about the connections or the accounts themselves. -/
def Connects : ConnectEvent Nonce → Prop
  | exchange .. | disconnect .. | shut .. => True
  | _ => False

/-- A refund that Stripe itself reports for the intent. -/
def Reports (piId : String) (e : ConnectEvent Nonce) : Prop :=
  ∃ folioId more, e = webhook folioId piId more

end ConnectEvent

section Effects
variable {Key Nonce : Type} {env : SecretsEnv Key Nonce} {s s' : Connected}
  {e : ConnectEvent Nonce}

variable (env) in
/-- The calls of a request for the property get to the account. -/
def Gets (s : Connected) (e : ConnectEvent Nonce) (propertyId : UUID) (account : String) : Prop :=
  ∃ settings, e.settings = some settings ∧ s.db.account env settings propertyId = some account ∧
    s.stripe.linked account = true

variable (env) in
/-- Everything that an event can do. -/
inductive Effect (s : Connected) (e : ConnectEvent Nonce) : Connected → Prop
  | same : Effect s e s
  | quiet (hwho : e.Connects) (connections : Table StripeConnection.propertyId)
      (linked : String → Bool) :
      Effect s e ⟨{ s.db with connections := connections }, { s.stripe with linked := linked }⟩
  | entered (stripePmId account : String) (hnew : s.stripe.cardAccount stripePmId = none) :
      Effect s e { s with stripe := { s.stripe with
        cardAccount := Function.update s.stripe.cardAccount stripePmId (some account) } }
  | saved (row : StripePaymentMethod) (account : String)
      (hnew : s.db.paymentMethods.find row.id = none) (hgets : Gets env s e row.propertyId account)
      (hcard : s.stripe.cardAccount row.stripePmId = some account) :
      Effect s e { s with db := { s.db with paymentMethods := s.db.paymentMethods.insert row } }
  | deleted (row : StripePaymentMethod) (account : String)
      (hrow : s.db.paymentMethods.find row.id = some row)
      (hgets : Gets env s e row.propertyId account)
      (hcard : s.stripe.cardAccount row.stripePmId = some account) :
      Effect s e { s with db := { s.db with paymentMethods := s.db.paymentMethods.erase row.id } }
  | failed (plan : ChargePlan) (rowId : UUID) (failedId message : String)
      (hrow : s.db.charges.find rowId = none) (hfresh : s.Fresh failedId) :
      Effect s e (s.withFlat ⟨recordFailure rowId failedId message plan s.db.payments,
        s.stripe.intents⟩)
  | lost (account : String) (intent : Intent) :
      Effect s e { s with stripe := { s.stripe with
        intentAccount := Function.update s.stripe.intentAccount "" (some account),
        intents := Function.update s.stripe.intents "" intent } }
  | charged (plan : ChargePlan) (rowId folioId : UUID) (id : String) (label : Option String)
      (intent : Intent) (account : String) (hrow : s.db.charges.find rowId = none)
      (hfresh : s.Fresh id) (hgets : Gets env s e plan.propertyId account)
      (hcard : s.stripe.cardAccount plan.stripePmId = some account) :
      Effect s e ⟨{ s.db with
          charges := (recordCharge rowId folioId id label plan s.db.payments).charges,
          folio := (recordCharge rowId folioId id label plan s.db.payments).folio },
        { s.stripe with
          intentAccount := Function.update s.stripe.intentAccount id (some account),
          intents := Function.update s.stripe.intents id intent }⟩
  | refunded (ch : StripeCharge) (folioId : UUID) (description : String) (amount back : ℤ)
      (hch : ch ∈ s.db.charges.rows) (hstatus : ch.status = .succeeded)
      (hwho : e.Reports ch.stripeChargeId ∨ ∃ account, Gets env s e ch.propertyId account ∧
        s.stripe.intentAccount ch.stripeChargeId = some account) :
      Effect s e (s.withFlat ⟨bookRefund folioId none description ch amount s.db.payments,
        giveBack s.stripe.intents ch.stripeChargeId back⟩)
  | unbooked (piId : String) (back : ℤ) (hwho : e.Reports piId) :
      Effect s e (s.withFlat ⟨s.db.payments, giveBack s.stripe.intents piId back⟩)

/-- The charge of a plan is the one that the request names. -/
theorem refundPlan_charge {secret : Bool} {bookingId : UUID} {ch : StripeCharge}
    {amount : Option ℚ} {db : PaymentsDb} {plan : RefundPlan}
    (h : refundPlan secret bookingId ch.id amount db = .ok plan) (hch : ch ∈ db.charges.rows) :
    plan.charge = ch := by
  simp only [refundPlan, Except.bind_eq_ok, failIf_ok, orError_ok] at h
  obtain ⟨-, -, -, -, found, hfound, -, -, -, -, -, -, -, -, -, -, -, -, -, -, hret⟩ := h
  cases hret
  exact Option.some.inj (hfound.symm.trans (Table.find_of_mem hch))

theorem activeAccount_ok {settings : StripeSettings} {propertyId : UUID} {account : String}
    (h : activeAccount env settings propertyId s.db = .ok account) :
    s.db.account env settings.toWebhookSettings propertyId = some account := by
  unfold activeAccount at h
  unfold ConnectDb.account
  split at h
  · exact absurd h (by simp)
  · next row hrow =>
    split at h
    · exact absurd h (by simp)
    · next opened hopen =>
      obtain rfl := Except.ok.inj h
      rw [hrow, Option.bind_some]
      exact hopen

theorem savePlan_ok {settings : StripeSettings} {propertyId : UUID} {bookingId : Option UUID}
    {account : String} (h : savePlan env settings propertyId bookingId s.db = .ok account) :
    s.db.account env settings.toWebhookSettings propertyId = some account := by
  simp only [savePlan, Except.bind_eq_ok] at h
  obtain ⟨-, -, -, -, opened, hopened, -, -, hret⟩ := h
  obtain rfl := Except.ok.inj hret
  exact activeAccount_ok hopened

theorem detachPlan_ok {settings : StripeSettings} {pmRowId : UUID} {row : StripePaymentMethod}
    {account : String} (h : detachPlan env settings pmRowId s.db = .ok (row, account)) :
    s.db.paymentMethods.find pmRowId = some row ∧
      s.db.account env settings.toWebhookSettings row.propertyId = some account := by
  simp only [detachPlan, Except.bind_eq_ok] at h
  obtain ⟨-, -, h⟩ := h
  split at h
  · exact absurd h (by simp)
  · next found hfound =>
    obtain ⟨opened, hopened, hret⟩ := Except.bind_eq_ok.mp h
    obtain ⟨rfl, rfl⟩ := Prod.mk.inj (Except.ok.inj hret)
    exact ⟨hfound, activeAccount_ok hopened⟩

theorem effect_exchange {settings : StripeSettings} {nonce : Nonce} {propertyId : UUID}
    {answer : TokenAnswer} {now : ℤ} :
    Effect env s (.exchange settings nonce propertyId answer now)
      (exchangeCodeForConnection env settings nonce propertyId answer now s).2 := by
  unfold exchangeCodeForConnection
  split
  · exact .same
  · cases answer with
    | error message => exact .same
    | token account livemode =>
      dsimp only
      split
      · exact .quiet (by exact trivial) _ _
      · split
        · exact .quiet (by exact trivial) _ _
        · exact .quiet (by exact trivial) _ _

theorem effect_disconnect {settings : StripeSettings} {propertyId : UUID} {reply : Reply}
    {now : ℤ} :
    Effect env s (.disconnect settings propertyId reply now)
      (disconnectStripeConnection env settings propertyId reply now s).2 := by
  unfold disconnectStripeConnection
  split
  · exact .same
  · split
    · exact .quiet (by exact trivial) _ _
    · exact .same

theorem effect_save {settings : StripeSettings} {rowId propertyId : UUID} {pmId : String}
    {bookingId : Option UUID} {reply : Reply}
    (h : (ConnectEvent.save settings rowId propertyId pmId bookingId reply).Valid env s) :
    Effect env s (.save settings rowId propertyId pmId bookingId reply)
      (savePaymentMethod env settings rowId propertyId pmId bookingId reply s).2 := by
  unfold savePaymentMethod
  split
  · exact .same
  · next account hplan =>
    dsimp only
    split
    · next hwilling =>
      obtain ⟨hlinked, hcard⟩ := h.granted hwilling account hplan
      exact .saved ⟨rowId, propertyId, bookingId, Text.strip pmId⟩ account h.new
        ⟨_, rfl, savePlan_ok hplan, hlinked⟩ hcard
    · exact .same

theorem effect_delete {settings : StripeSettings} {pmRowId : UUID} {reply : Reply}
    (h : (ConnectEvent.delete settings pmRowId reply).Granted env s) :
    Effect env s (.delete settings pmRowId reply)
      (deletePaymentMethod env settings pmRowId reply s).2 := by
  unfold deletePaymentMethod
  split
  · exact .same
  · next out hplan =>
    obtain ⟨row, account⟩ := out
    obtain ⟨hrow, haccount⟩ := detachPlan_ok hplan
    have hid : row.id = pmRowId := (Table.find_eq_some.mp hrow).2
    subst hid
    split
    · next hwilling =>
      obtain ⟨hlinked, hcard⟩ := h hwilling row account hplan
      exact .deleted row account hrow ⟨_, rfl, haccount, hlinked⟩ hcard
    · exact .same

/-- A charge that has got to Stripe, with the answer that it has got there. -/
theorem effect_answer {plan : ChargePlan} {rowId folioId : UUID} {failedId account : String}
    {secret : Bool} {bookingId stripePmRowId : UUID} {amount : ℚ} {label : Option String}
    {answer : CreateAnswer}
    (hplan : chargePlan secret bookingId stripePmRowId amount s.flat.db = .ok plan)
    (hrow : s.db.charges.find rowId = none) (hfailed : s.Fresh failedId)
    (hintent : ∀ id status, answer = .intent id status → (id ≠ "" → s.Fresh id) ∧
      Gets env s e plan.propertyId account ∧
      s.stripe.cardAccount plan.stripePmId = some account) :
    Effect env s e ⟨(s.withFlat (chargeBooking secret rowId folioId failedId bookingId
        stripePmRowId amount label answer s.flat)).db,
      { (s.withFlat (chargeBooking secret rowId folioId failedId bookingId stripePmRowId amount
          label answer s.flat)).stripe with
        intentAccount := s.stripe.holdIntent account answer }⟩ := by
  cases answer with
  | error message =>
    simp only [chargeBooking, hplan]
    exact .failed plan rowId failedId message hrow hfailed
  | intent id status =>
    obtain ⟨hfresh, hgets, hcard⟩ := hintent id status rfl
    simp only [chargeBooking, hplan]
    split
    · next hid =>
      subst hid
      exact .lost account ⟨if status = .succeeded then plan.amount else 0, 0⟩
    · next hid =>
      exact .charged plan rowId folioId id label
        ⟨if status = .succeeded then plan.amount else 0, 0⟩ account hrow (hfresh hid) hgets hcard

theorem effect_charge {settings : StripeSettings} {rowId folioId : UUID} {failedId : String}
    {bookingId stripePmRowId : UUID} {amount : ℚ} {label : Option String} {answer : CreateAnswer}
    (h : (ConnectEvent.charge settings rowId folioId failedId bookingId stripePmRowId amount label
      answer).Valid env s) :
    Effect env s (.charge settings rowId folioId failedId bookingId stripePmRowId amount label
      answer) (chargeConnected env settings rowId folioId failedId bookingId stripePmRowId
        amount label answer s).2 := by
  obtain ⟨hrow, hfailed, hnew⟩ := h.new
  unfold chargeConnected
  split
  · exact .same
  · next plan hplan =>
    split
    · exact .same
    · next account haccount =>
      refine effect_answer hplan hrow hfailed fun id status hintent => ?_
      have hreach := h.granted plan hplan account haccount ⟨id, status, hintent⟩
      exact ⟨hnew id status hintent, ⟨_, rfl, haccount, hreach.1⟩, hreach.2⟩

theorem effect_refund {settings : StripeSettings} {folioId bookingId chargeRowId : UUID}
    {amount : Option ℚ} {reply : Reply}
    (h : (ConnectEvent.refund settings folioId bookingId chargeRowId amount reply).Granted env s) :
    Effect env s (.refund settings folioId bookingId chargeRowId amount reply)
      (refundConnected env settings folioId bookingId chargeRowId amount reply s).2 := by
  unfold refundConnected
  split
  · exact .same
  · next plan hplan =>
    obtain ⟨hcharge, hstatus, -, -⟩ := refundPlan_ok hplan
    split
    · exact .same
    · next account haccount =>
      dsimp only
      split
      · next hanswer =>
        have hreach := h hanswer.1 plan hplan account haccount
        exact .refunded plan.charge folioId "Stripe refund" plan.amount plan.amount hcharge hstatus
          (.inr ⟨account, ⟨_, rfl, haccount, hreach.1⟩, hreach.2⟩)
      · exact .same

theorem effect_webhook {folioId : UUID} {piId : String} {more : ℤ} :
    Effect env s (.webhook folioId piId more)
      (s.withFlat (chargeRefunded folioId piId more s.flat)) := by
  simp only [chargeRefunded, reconcileRefundFromWebhook]
  cases hlookup : lookupStripeChargeForWebhook piId s.flat.db with
  | none => exact .unbooked piId more ⟨folioId, more, rfl⟩
  | some ch =>
    have hch : ch ∈ s.db.charges.rows := List.mem_of_find?_eq_some hlookup
    have hpi : ch.stripeChargeId = piId := by simpa using List.find?_some hlookup
    subst hpi
    dsimp only
    split
    · exact .unbooked _ more ⟨folioId, more, rfl⟩
    · next amount hamount =>
      have hstatus : ch.status = .succeeded := by
        by_contra hne
        simp [reconciledAmount, hne] at hamount
      exact .refunded ch folioId _ amount more hch hstatus (.inl ⟨folioId, more, rfl⟩)

variable (env) in
theorem effect_apply (hvalid : e.Valid env s) : Effect env s e (e.apply env s) := by
  cases e with
  | exchange => exact effect_exchange
  | disconnect => exact effect_disconnect
  | save => exact effect_save hvalid
  | delete => exact effect_delete hvalid.granted
  | charge => exact effect_charge hvalid
  | refund => exact effect_refund hvalid.granted
  | webhook => exact effect_webhook
  | enter stripePmId account => exact .entered stripePmId account hvalid.new
  | shut account => exact .quiet (by exact trivial) s.db.connections _

end Effects

/-! What is held where -/

/-- Cards that are saved and intents that are charged have an account, a charge the one of
its card, and two charges have two intents. -/
structure Held (s : Connected) : Prop where
  card : ∀ pm ∈ s.db.paymentMethods.rows, ∃ a, s.stripe.cardAccount pm.stripePmId = some a
  charge : ∀ ch ∈ s.db.charges.rows, ch.status ≠ .failed → ∃ a,
    s.stripe.intentAccount ch.stripeChargeId = some a ∧ s.stripe.cardAccount ch.stripePmId = some a
  intent : ∀ ch ∈ s.db.charges.rows, ∀ ch' ∈ s.db.charges.rows,
    ch.stripeChargeId = ch'.stripeChargeId → ch = ch'
  named : ∀ ch ∈ s.db.charges.rows, ch.stripeChargeId ≠ ""

section Steps
variable {Key Nonce : Type} {env : SecretsEnv Key Nonce} {s s' : Connected}
  {e : ConnectEvent Nonce} {p : UUID} {a : String}

theorem Effect.card_stays (he : Effect env s e s') {pm : String}
    (h : s.stripe.cardAccount pm = some a) : s'.stripe.cardAccount pm = some a := by
  cases he with
  | entered stripePmId account hnew =>
    have hne : pm ≠ stripePmId := by
      rintro rfl
      rw [hnew] at h
      exact absurd h (by simp)
    exact (Function.update_of_ne hne _ _).trans h
  | _ => exact h

theorem Effect.intent_stays (he : Effect env s e s') {id : String} (hid : id ≠ "")
    (h : s.stripe.intentAccount id = some a) : s'.stripe.intentAccount id = some a := by
  cases he with
  | lost account intent => exact (Function.update_of_ne hid _ _).trans h
  | charged plan rowId folioId new label intent account hrow hfresh hgets hcard =>
    have hne : id ≠ new := by
      rintro rfl
      rw [hfresh.2.1] at h
      exact absurd h (by simp)
    exact (Function.update_of_ne hne _ _).trans h
  | _ => exact h

theorem mem_recordFailure {plan : ChargePlan} {rowId : UUID} {failedId message : String}
    {db : PaymentsDb} (hrow : db.charges.find rowId = none) {ch : StripeCharge} :
    ch ∈ (recordFailure rowId failedId message plan db).charges.rows ↔ ch ∈ db.charges.rows ∨
      ch = ⟨rowId, plan.propertyId, plan.bookingId, none, failedId, plan.stripePmId, plan.amount,
        plan.currency.toUpper, .failed, some message⟩ :=
  Table.mem_insert hrow

theorem mem_recordCharge {plan : ChargePlan} {rowId folioId : UUID} {id : String}
    {db : PaymentsDb} (label : Option String) (hrow : db.charges.find rowId = none)
    {ch : StripeCharge} :
    ch ∈ (recordCharge rowId folioId id label plan db).charges.rows ↔ ch ∈ db.charges.rows ∨
      ch = ⟨rowId, plan.propertyId, plan.bookingId, some folioId, id, plan.stripePmId, plan.amount,
        plan.currency.toUpper, .succeeded, none⟩ :=
  Table.mem_insert hrow

/-- The charges after a refund are the ones before it, one of them with another status. -/
theorem mem_bookRefund_status {ch c : StripeCharge} {amount : ℤ} {db : PaymentsDb}
    (folioId : UUID) (description : String) (hch : ch ∈ db.charges.rows)
    (h : c ∈ (bookRefund folioId none description ch amount db).charges.rows) :
    c ∈ db.charges.rows ∨ ∃ status, status ≠ .failed ∧ c = ch.withStatus status := by
  rcases mem_bookRefund.mp h with ⟨hold, -⟩ | ⟨u, hu, rfl⟩
  · exact .inl hold
  · obtain rfl : ch = u := Option.some.inj ((Table.find_of_mem hch).symm.trans hu)
    refine .inr ⟨_, ?_, rfl⟩
    split <;> simp

/-- A charge that comes with a new identifier of an intent, and with its account if it has
gone through. -/
theorem Held.add_charge (h : Held s) {row : StripeCharge} (hfresh : s.Fresh row.stripeChargeId)
    (hmem : ∀ ch ∈ s'.db.charges.rows, ch ∈ s.db.charges.rows ∨ ch = row)
    (hcards : s'.db.paymentMethods = s.db.paymentMethods)
    (hcard : s'.stripe.cardAccount = s.stripe.cardAccount)
    (hintent : ∀ id, id ≠ row.stripeChargeId →
      s'.stripe.intentAccount id = s.stripe.intentAccount id)
    (hrow : row.status ≠ .failed → ∃ a, s'.stripe.intentAccount row.stripeChargeId = some a ∧
      s.stripe.cardAccount row.stripePmId = some a) : Held s' where
  card pm hpm := by
    rw [hcard]
    rw [hcards] at hpm
    exact h.card pm hpm
  charge ch hch hpaid := by
    rw [hcard]
    rcases hmem ch hch with hold | rfl
    · rw [hintent _ (hfresh.2.2 ch hold)]
      exact h.charge ch hold hpaid
    · exact hrow hpaid
  intent ch hch ch' hch' heq := by
    rcases hmem ch hch with hold | rfl
    · rcases hmem ch' hch' with hold' | rfl
      · exact h.intent ch hold ch' hold' heq
      · exact absurd heq (hfresh.2.2 ch hold)
    · rcases hmem ch' hch' with hold' | rfl
      · exact absurd heq.symm (hfresh.2.2 ch' hold')
      · rfl
  named ch hch := by
    rcases hmem ch hch with hold | rfl
    · exact h.named ch hold
    · exact hfresh.1

theorem Held.effect (h : Held s) (he : Effect env s e s') : Held s' := by
  cases he with
  | same => exact h
  | quiet | unbooked => exact ⟨h.card, h.charge, h.intent, h.named⟩
  | entered stripePmId account hnew =>
    have he' : Effect env s e { s with stripe := { s.stripe with
        cardAccount := Function.update s.stripe.cardAccount stripePmId (some account) } } :=
      .entered stripePmId account hnew
    refine ⟨fun pm hpm => ?_, fun ch hch hpaid => ?_, h.intent, h.named⟩
    · obtain ⟨a, ha⟩ := h.card pm hpm
      exact ⟨a, he'.card_stays ha⟩
    · obtain ⟨a, hintent, hcard⟩ := h.charge ch hch hpaid
      exact ⟨a, hintent, he'.card_stays hcard⟩
  | saved row account hnew hgets hcard =>
    refine ⟨fun pm hpm => ?_, h.charge, h.intent, h.named⟩
    rcases (Table.mem_insert hnew).mp hpm with hold | rfl
    · exact h.card pm hold
    · exact ⟨account, hcard⟩
  | deleted row account hrow hgets hcard =>
    exact ⟨fun pm hpm => h.card pm (Table.mem_erase.mp hpm).1, h.charge, h.intent, h.named⟩
  | failed plan rowId failedId message hrow hfresh =>
    exact h.add_charge hfresh (fun ch hch => (mem_recordFailure hrow).mp hch) rfl rfl
      (fun _ _ => rfl) fun hpaid => absurd rfl hpaid
  | lost account intent =>
    refine ⟨h.card, fun ch hch hpaid => ?_, h.intent, h.named⟩
    obtain ⟨a, hintent, hcard⟩ := h.charge ch hch hpaid
    exact ⟨a, (Function.update_of_ne (h.named ch hch) _ _).trans hintent, hcard⟩
  | charged plan rowId folioId id label intent account hrow hfresh hgets hcard =>
    exact h.add_charge hfresh (fun ch hch => (mem_recordCharge label hrow).mp hch) rfl rfl
      (fun _ hne => Function.update_of_ne hne _ _)
      fun _ => ⟨account, Function.update_self _ _ _, hcard⟩
  | refunded ch folioId description amount back hch hstatus hwho =>
    have hpaid : ch.status ≠ .failed := by simp [hstatus]
    have hsame : ∀ c ∈ (bookRefund folioId none description ch amount s.db.payments).charges.rows,
        ∃ old ∈ s.db.charges.rows, old.id = c.id ∧ old.stripeChargeId = c.stripeChargeId ∧
          old.stripePmId = c.stripePmId ∧ (c.status ≠ .failed → old.status ≠ .failed) := by
      intro c hc
      rcases mem_bookRefund_status folioId description hch hc with hold | ⟨status, -, rfl⟩
      · exact ⟨c, hold, rfl, rfl, rfl, id⟩
      · exact ⟨ch, hch, rfl, rfl, rfl, fun _ => hpaid⟩
    refine ⟨h.card, fun c hc hnot => ?_, fun c hc c' hc' heq => ?_, fun c hc => ?_⟩
    · obtain ⟨old, hold, -, hid, hpm, hstill⟩ := hsame c hc
      obtain ⟨a, hintent, hcard⟩ := h.charge old hold (hstill hnot)
      exact ⟨a, hid ▸ hintent, hpm ▸ hcard⟩
    · obtain ⟨old, hold, hkey, hid, -⟩ := hsame c hc
      obtain ⟨old', hold', hkey', hid', -⟩ := hsame c' hc'
      have hone := h.intent old hold old' hold' (hid.trans (heq.trans hid'.symm))
      subst hone
      have hfind := Table.find_of_mem (t := (bookRefund folioId none description ch amount
        s.db.payments).charges) hc
      have hfind' := Table.find_of_mem (t := (bookRefund folioId none description ch amount
        s.db.payments).charges) hc'
      rw [← hkey] at hfind
      rw [← hkey', hfind] at hfind'
      exact Option.some.inj hfind'
    · obtain ⟨old, hold, -, hid, -⟩ := hsame c hc
      rw [← hid]
      exact h.named old hold

/-- Without a call that gets to the account, the cards under it stay as they are. -/
theorem cards_untouched (he : Effect env s e s') {pm : StripePaymentMethod}
    (haway : ¬ Gets env s e pm.propertyId a)
    (hcard : s.stripe.cardAccount pm.stripePmId = some a) :
    pm ∈ s'.db.paymentMethods.rows ↔ pm ∈ s.db.paymentMethods.rows := by
  cases he with
  | saved row account hnew hgets hrow =>
    have hne : pm ≠ row := by
      rintro rfl
      obtain rfl : a = account := Option.some.inj (hcard.symm.trans hrow)
      exact haway hgets
    rw [Table.mem_insert hnew, or_iff_left hne]
  | deleted row account hrow hgets hheld =>
    have hne : pm ∈ s.db.paymentMethods.rows → pm.id ≠ row.id := by
      intro hpm hid
      have hsame : row = pm :=
        Option.some.inj (hrow.symm.trans (hid ▸ Table.find_of_mem hpm))
      subst hsame
      obtain rfl : a = account := Option.some.inj (hcard.symm.trans hheld)
      exact haway hgets
    exact Table.mem_erase.trans (and_iff_left_of_imp hne)
  | _ => exact Iff.rfl

/-- A charge of the property that has gone through under the account. -/
structure Taken (s : Connected) (p : UUID) (a : String) (ch : StripeCharge) : Prop where
  mem : ch ∈ s.db.charges.rows
  property : ch.propertyId = p
  paid : ch.status ≠ .failed
  account : s.stripe.intentAccount ch.stripeChargeId = some a

/-- Nor is there a new charge. -/
theorem taken_before (h : Held s) (he : Effect env s e s') (haway : ¬ Gets env s e p a)
    {ch : StripeCharge} (hch : Taken s' p a ch) : ∃ old, Taken s p a old ∧ old.id = ch.id := by
  have hnamed := (h.effect he).named ch hch.mem
  obtain ⟨hmem, hproperty, hpaid, haccount⟩ := hch
  -- an intent that had another account before the step has it still
  have hheld : ∀ old ∈ s.db.charges.rows, old.status ≠ .failed →
      old.stripeChargeId = ch.stripeChargeId →
        s.stripe.intentAccount old.stripeChargeId = some a := by
    intro old hold hnot hid
    obtain ⟨b, hb, -⟩ := h.charge old hold hnot
    have hstill := he.intent_stays (h.named old hold) hb
    rw [hid, haccount] at hstill
    rw [hb, hstill]
  cases he with
  | failed plan rowId failedId message hrow hfresh =>
    rcases (mem_recordFailure hrow).mp hmem with hold | rfl
    · exact ⟨ch, ⟨hold, hproperty, hpaid, hheld ch hold hpaid rfl⟩, rfl⟩
    · exact absurd rfl hpaid
  | charged plan rowId folioId id label intent account hrow hfresh hgets hcard =>
    rcases (mem_recordCharge label hrow).mp hmem with hold | rfl
    · exact ⟨ch, ⟨hold, hproperty, hpaid, hheld ch hold hpaid rfl⟩, rfl⟩
    · have hself : Function.update s.stripe.intentAccount id (some account) id = some a := haccount
      rw [Function.update_self] at hself
      obtain rfl := Option.some.inj hself
      exact absurd (hproperty ▸ hgets) haway
  | refunded old folioId description amount back hold hstatus hwho =>
    rcases mem_bookRefund_status folioId description hold hmem with hsame | ⟨status, -, rfl⟩
    · exact ⟨ch, ⟨hsame, hproperty, hpaid, hheld ch hsame hpaid rfl⟩, rfl⟩
    · have hnot : old.status ≠ .failed := by simp [hstatus]
      exact ⟨old, ⟨hold, hproperty, hnot, hheld old hold hnot rfl⟩, rfl⟩
  | _ => exact ⟨ch, ⟨hmem, hproperty, hpaid, hheld ch hmem hpaid rfl⟩, rfl⟩

/-- Nothing of the charge changes, here or at Stripe. -/
structure Waits (s s' : Connected) (ch : StripeCharge) : Prop where
  row : ch ∈ s'.db.charges.rows
  intent : s'.stripe.intents ch.stripeChargeId = s.stripe.intents ch.stripeChargeId
  folio : folioSum ch.id s'.db.folio = folioSum ch.id s.db.folio

theorem waits_effect (h : Held s) (he : Effect env s e s') (haway : ¬ Gets env s e p a)
    {ch : StripeCharge} (hquiet : ¬ e.Reports ch.stripeChargeId) (hch : Taken s p a ch) :
    Waits s s' ch := by
  obtain ⟨hmem, rfl, hpaid, haccount⟩ := hch
  have hid : ∀ rowId, s.db.charges.find rowId = none → ch.id ≠ rowId := by
    rintro rowId hnone rfl
    rw [Table.find_of_mem hmem] at hnone
    exact absurd hnone (by simp)
  cases he with
  | failed plan rowId failedId message hrow hfresh =>
    exact ⟨(mem_recordFailure hrow).mpr (.inl hmem), rfl, rfl⟩
  | lost account intent => exact ⟨hmem, Function.update_of_ne (h.named ch hmem) _ _, rfl⟩
  | charged plan rowId folioId id label intent account hrow hfresh hgets hcard =>
    refine ⟨(mem_recordCharge label hrow).mpr (.inl hmem),
      Function.update_of_ne (hfresh.2.2 ch hmem) _ _, ?_⟩
    refine (folioSum_append ch.id s.db.folio _).trans ?_
    rw [if_neg (hid rowId hrow).symm, add_zero]
  | refunded old folioId description amount back hold hstatus hwho =>
    have hne : ch ≠ old := by
      rintro rfl
      rcases hwho with hreports | ⟨account, hgets, hheld⟩
      · exact hquiet hreports
      · obtain rfl : a = account := Option.some.inj (haccount.symm.trans hheld)
        exact haway hgets
    have hkey : ch.id ≠ old.id := fun heq => hne (Option.some.inj
      ((Table.find_of_mem hmem).symm.trans (heq ▸ Table.find_of_mem hold)))
    have hstays : ch ∈
        (bookRefund folioId none description old amount s.db.payments).charges.rows :=
      mem_bookRefund.mpr (.inl ⟨hmem, hkey⟩)
    refine ⟨hstays, ?_, ?_⟩
    · exact Function.update_of_ne (fun heq => hne (h.intent ch hmem old hold heq)) _ _
    · refine (folioSum_append ch.id s.db.folio _).trans ?_
      rw [if_neg hkey.symm, add_zero]
  | unbooked piId back hreports =>
    refine ⟨hmem, Function.update_of_ne ?_ _ _, rfl⟩
    rintro rfl
    exact hquiet hreports
  | _ => exact ⟨hmem, rfl, rfl⟩

theorem Taken.effect (h : Held s) (he : Effect env s e s') {ch : StripeCharge}
    (hch : Taken s p a ch) (hwaits : Waits s s' ch) : Taken s' p a ch :=
  ⟨hwaits.row, hch.property, hch.paid, he.intent_stays (h.named ch hch.mem) hch.account⟩

end Steps

/-! Runs -/

def StripeSide.initial : StripeSide where
  linked _ := false
  cardAccount _ := none
  intentAccount _ := none
  intents _ := ⟨0, 0⟩

section Runs
variable {Key Nonce : Type} (env : SecretsEnv Key Nonce)

/-- The systems that a tenant gets to that has not used Stripe before. -/
inductive ConnectRun : Connected → Prop
  | start (db : ConnectDb) (hconnections : db.connections.rows = [])
      (hcards : db.paymentMethods.rows = []) (hcharges : db.charges.rows = []) :
      ConnectRun ⟨db, .initial⟩
  | step {s : Connected} (e : ConnectEvent Nonce) (hs : ConnectRun s) (hvalid : e.Valid env s) :
      ConnectRun (e.apply env s)

/-- Later systems, by events of which each is admitted in the state that it meets. -/
def Later (admits : Connected → ConnectEvent Nonce → Prop) : Connected → Connected → Prop :=
  Relation.ReflTransGen fun s s' => ∃ e, e.Valid env s ∧ admits s e ∧ s' = e.apply env s

variable {env} {s s' : Connected} {admits : Connected → ConnectEvent Nonce → Prop}

theorem ConnectRun.held (h : ConnectRun env s) : Held s := by
  induction h with
  | start db hconnections hcards hcharges =>
    exact ⟨by simp [hcards], by simp [hcharges], by simp [hcharges], by simp [hcharges]⟩
  | step e _ hvalid ih => exact ih.effect (effect_apply env hvalid)

theorem ConnectRun.later (h : ConnectRun env s) (hlater : Later env admits s s') :
    ConnectRun env s' := by
  induction hlater with
  | refl => exact h
  | tail _ hstep ih =>
    obtain ⟨e, hvalid, -, rfl⟩ := hstep
    exact .step e ih hvalid

/-- One rule for everything that the admitted events keep. -/
theorem Later.keeps {P : Connected → Prop} (hs : ConnectRun env s) (h : P s)
    (hstep : ∀ s e, Held s → e.Valid env s → admits s e → P s → P (e.apply env s))
    (hlater : Later env admits s s') : P s' := by
  induction hlater with
  | refl => exact h
  | tail hbefore hlast ih =>
    obtain ⟨e, hvalid, hadmits, rfl⟩ := hlast
    exact hstep _ e (hs.later hbefore).held hvalid hadmits ih

theorem charge_waits (hs : ConnectRun env s) {ch : StripeCharge} {p : UUID} {a : String}
    (htaken : Taken s p a ch) (hlater : Later env (fun s e => ¬ Gets env s e p a ∧
      ¬ e.Reports ch.stripeChargeId) s s') : Taken s' p a ch ∧ Waits s s' ch := by
  refine Later.keeps (P := fun s' => Taken s' p a ch ∧ Waits s s' ch) hs
    ⟨htaken, htaken.mem, rfl, rfl⟩ ?_ hlater
  rintro s₁ e hheld hvalid ⟨haway, hquiet⟩ ⟨hmid, hbefore⟩
  have heffect := effect_apply env hvalid
  have hnow := waits_effect hheld heffect haway hquiet hmid
  exact ⟨hmid.effect hheld heffect hnow, hnow.row, hnow.intent.trans hbefore.intent,
    hnow.folio.trans hbefore.folio⟩

theorem none_taken (hs : ConnectRun env s) {p : UUID} {a : String}
    (hlater : Later env (fun s e => ¬ Gets env s e p a) s s') {ch : StripeCharge}
    (hch : Taken s' p a ch) : ∃ old, Taken s p a old ∧ old.id = ch.id := by
  refine Later.keeps (P := fun s' => ∀ ch, Taken s' p a ch → ∃ old, Taken s p a old ∧
    old.id = ch.id) hs (fun ch hch => ⟨ch, hch, rfl⟩) ?_ hlater ch hch
  intro s₁ e hheld hvalid haway hbefore ch hch
  obtain ⟨mid, hmid, hid⟩ := taken_before hheld (effect_apply env hvalid) haway hch
  obtain ⟨old, hold, hid'⟩ := hbefore mid hmid
  exact ⟨old, hold, hid'.trans hid⟩

theorem card_stays (hs : ConnectRun env s) {pm : StripePaymentMethod} {a : String}
    (hcard : s.stripe.cardAccount pm.stripePmId = some a)
    (hlater : Later env (fun s e => ¬ Gets env s e pm.propertyId a) s s') :
    s'.stripe.cardAccount pm.stripePmId = some a ∧
      (pm ∈ s'.db.paymentMethods.rows ↔ pm ∈ s.db.paymentMethods.rows) := by
  refine Later.keeps (P := fun s' => s'.stripe.cardAccount pm.stripePmId = some a ∧
    (pm ∈ s'.db.paymentMethods.rows ↔ pm ∈ s.db.paymentMethods.rows)) hs ⟨hcard, Iff.rfl⟩ ?_ hlater
  rintro s₁ e hheld hvalid haway ⟨hmid, hbefore⟩
  have heffect := effect_apply env hvalid
  exact ⟨heffect.card_stays hmid, (cards_untouched heffect haway hmid).trans hbefore⟩

/-- A charge waits for the account that has taken it: while no request for its property gets
to that account, and Stripe reports no refund of its own, it stays as it is, in the tenant's
rows and at Stripe. A refund that passes the checks of the rows goes through exactly when
the running key opens this account for the property and Stripe grants it. -/
theorem refund_waits_for_account (hs : ConnectRun env s) {ch : StripeCharge}
    (hch : ch ∈ s.db.charges.rows) (hpaid : ch.status ≠ .failed) :
    ∃ a, s.stripe.intentAccount ch.stripeChargeId = some a ∧
      s.stripe.cardAccount ch.stripePmId = some a ∧
      ∀ s', Later env (fun s e => ¬ Gets env s e ch.propertyId a ∧
          ¬ e.Reports ch.stripeChargeId) s s' →
        Waits s s' ch ∧
        ∀ settings folioId bookingId amount plan reply,
          (ConnectEvent.refund settings folioId bookingId ch.id amount reply).Granted env s' →
          refundPlan (isSet settings.stripeSecretKey) bookingId ch.id amount s'.db.payments =
            .ok plan →
          ((refundConnected env settings folioId bookingId ch.id amount reply s').1 = .ok () ↔
            s'.db.account env settings.toWebhookSettings ch.propertyId = some a ∧
            s'.stripe.linked a = true ∧ reply.willing = true ∧
            plan.amount ≤ (s.stripe.intents ch.stripeChargeId).captured -
              (s.stripe.intents ch.stripeChargeId).refunded) := by
  obtain ⟨a, hintent, hcard⟩ := hs.held.charge ch hch hpaid
  refine ⟨a, hintent, hcard, fun s' hlater => ?_⟩
  obtain ⟨htaken, hwaits⟩ := charge_waits hs ⟨hch, rfl, hpaid, hintent⟩ hlater
  refine ⟨hwaits, fun settings folioId bookingId amount plan reply hgranted hplan => ?_⟩
  have hsame : plan.charge = ch := refundPlan_charge hplan htaken.mem
  unfold refundConnected
  rw [hplan]
  dsimp only
  rw [hsame, hwaits.intent]
  cases haccount : s'.db.account env settings.toWebhookSettings ch.propertyId with
  | none => simp
  | some b =>
    dsimp only
    rw [apply_ite Prod.fst]
    split
    · next hanswer =>
      obtain ⟨hwilling, hle⟩ := hanswer
      obtain ⟨hlinked, hb⟩ := hgranted hwilling plan hplan b (hsame ▸ haccount)
      rw [hsame, htaken.account] at hb
      exact iff_of_true rfl ⟨hb.symm, Option.some.inj hb ▸ hlinked, hwilling, hle⟩
    · next hanswer =>
      refine iff_of_false (by simp) fun hall => hanswer ?_
      exact ⟨hall.2.2.1, hall.2.2.2⟩

end Runs

namespace AccountDemo

def stripeSettings : StripeSettings :=
  ⟨⟨some "old", "jwt"⟩, some "sk", some "ca", some "callback"⟩

/-- Two properties with a booking each. -/
def connectDb : ConnectDb where
  bookings := ⟨[⟨1000, 1, 5, none, none, .confirmed, "direct", 0, none, []⟩,
    ⟨2000, 2, 5, none, none, .confirmed, "direct", 0, none, []⟩], by decide⟩
  currency _ := some "EUR"
  connections := .empty
  paymentMethods := .empty
  charges := .empty
  folio := []

def willing : Reply := ⟨true, ""⟩

def exchangeOf (propertyId : UUID) (account : String) : ConnectEvent Unit :=
  .exchange stripeSettings () propertyId (.token account true) 100

theorem exchange_valid (s : Connected) (propertyId : UUID) (account : String) :
    (exchangeOf propertyId account).Valid twoKeys s :=
  ⟨trivial, trivial⟩

def connected : Connected := (exchangeOf 1 "A").apply twoKeys ⟨connectDb, .initial⟩

def entered : Connected := (ConnectEvent.enter "pm_1" "A").apply twoKeys connected

def saving : ConnectEvent Unit := .save stripeSettings 30 1 "pm_1" none willing

def saved : Connected := saving.apply twoKeys entered

/-- A charge of 50.00. -/
def charging : ConnectEvent Unit :=
  .charge stripeSettings 40 400 "failed_1" 1000 30 50 none (.intent "pi_1" .succeeded)

/-- Under account A. -/
def paid : Connected := charging.apply twoKeys saved

/-- Stripe does not know the intent under the account that is named. -/
def refundOf : ConnectEvent Unit :=
  .refund stripeSettings 401 1000 40 none ⟨false, "No such payment_intent"⟩

/-- The property is connected to account B, and a refund is asked for. -/
def moved : Connected := refundOf.apply twoKeys ((exchangeOf 1 "B").apply twoKeys paid)

theorem saving_granted : saving.Granted twoKeys entered := by
  rintro - account hplan
  have hfirst : savePlan twoKeys stripeSettings 1 none entered.db = .ok "A" := by decide
  obtain rfl := Except.ok.inj (hplan.symm.trans hfirst)
  exact ⟨by decide, by decide⟩

theorem saved_reached : ConnectRun twoKeys saved :=
  .step _ (.step _ (.step _ (.start connectDb rfl rfl rfl) (exchange_valid _ 1 "A"))
    ⟨rfl, trivial⟩) ⟨rfl, saving_granted⟩

theorem fresh_saved (id : String) (hid : id ≠ "") : saved.Fresh id := by
  refine ⟨hid, rfl, ?_⟩
  have hnone : saved.db.charges.rows = [] := by decide
  simp [hnone]

theorem charging_granted : charging.Granted twoKeys saved := by
  rintro plan hplan account haccount -
  have hnamed : (chargePlan (isSet stripeSettings.stripeSecretKey) 1000 30 50
      saved.db.payments).toOption.map (fun plan => (plan.propertyId, plan.stripePmId)) =
        some (1, "pm_1") := by decide
  rw [hplan] at hnamed
  obtain ⟨hproperty, hpm⟩ := Prod.mk.inj (Option.some.inj hnamed)
  have hfirst : saved.db.account twoKeys stripeSettings.toWebhookSettings 1 = some "A" := by
    decide
  rw [hproperty, hfirst] at haccount
  obtain rfl := Option.some.inj haccount
  exact ⟨by decide, hpm ▸ by decide⟩

theorem paid_reached : ConnectRun twoKeys paid := by
  refine .step _ saved_reached ⟨⟨by decide, fresh_saved _ (by decide), ?_⟩,
    charging_granted⟩
  rintro id status heq hid
  exact fresh_saved id hid

theorem refund_valid (s : Connected) : refundOf.Valid twoKeys s :=
  ⟨trivial, fun hwilling => absurd hwilling Bool.false_ne_true⟩

def paidCharge : StripeCharge :=
  ⟨40, 1, 1000, some 400, "pi_1", "pm_1", 5000, "EUR", .succeeded, none⟩

theorem exchange_away : ¬ Gets twoKeys paid (exchangeOf 1 "B") 1 "A" := by
  rintro ⟨settings, hsettings, -⟩
  cases hsettings

theorem refund_away : ¬ Gets twoKeys ((exchangeOf 1 "B").apply twoKeys paid) refundOf 1 "A" := by
  rintro ⟨settings, hsettings, haccount, -⟩
  cases hsettings
  have hother : ((exchangeOf 1 "B").apply twoKeys paid).db.account twoKeys
      stripeSettings.toWebhookSettings 1 = some "B" := by decide
  exact absurd (hother.symm.trans haccount) (by decide)

theorem mem_paidCharge : paidCharge ∈ paid.db.charges.rows := by decide +kernel

end AccountDemo

/-- Connected to account B, the property is refused the refund. -/
theorem refund_waits_for_account_demo :
    Waits AccountDemo.paid AccountDemo.moved AccountDemo.paidCharge := by
  obtain ⟨a, hintent, -, hwaits⟩ :=
    refund_waits_for_account AccountDemo.paid_reached AccountDemo.mem_paidCharge (by decide)
  obtain rfl : a = "A" := by
    have hholder : AccountDemo.paid.stripe.intentAccount
        AccountDemo.paidCharge.stripeChargeId = some "A" := by decide
    exact Option.some.inj (hintent.symm.trans hholder)
  have hreport : ∀ e : ConnectEvent Unit,
      e = AccountDemo.exchangeOf 1 "B" ∨ e = AccountDemo.refundOf →
      ¬ e.Reports AccountDemo.paidCharge.stripeChargeId := by
    rintro e (rfl | rfl) ⟨folioId, more, heq⟩ <;> cases heq
  have hlater := hwaits AccountDemo.moved ((Relation.ReflTransGen.single
    ⟨AccountDemo.exchangeOf 1 "B", AccountDemo.exchange_valid _ _ _,
      ⟨AccountDemo.exchange_away, hreport _ (.inl rfl)⟩, rfl⟩).tail
    ⟨AccountDemo.refundOf, AccountDemo.refund_valid _,
      ⟨AccountDemo.refund_away, hreport _ (.inr rfl)⟩, rfl⟩)
  exact hlater.1

section Cards
variable {Key Nonce : Type} {env : SecretsEnv Key Nonce} {s : Connected}

/-- So does a card for the account under which it was saved: it stays saved, and no charge of
it for its property goes through. -/
theorem card_waits_for_account (hs : ConnectRun env s) {pm : StripePaymentMethod}
    (hpm : pm ∈ s.db.paymentMethods.rows) :
    ∃ a, s.stripe.cardAccount pm.stripePmId = some a ∧
      ∀ s', Later env (fun s e => ¬ Gets env s e pm.propertyId a) s s' →
        pm ∈ s'.db.paymentMethods.rows ∧
        ∀ ch ∈ s'.db.charges.rows, ch.propertyId = pm.propertyId →
          ch.stripePmId = pm.stripePmId → ch.status ≠ .failed →
          ∃ old ∈ s.db.charges.rows, old.id = ch.id ∧ old.status ≠ .failed := by
  obtain ⟨a, hcard⟩ := hs.held.card pm hpm
  refine ⟨a, hcard, fun s' hlater => ?_⟩
  obtain ⟨hcard', hsaved⟩ := card_stays hs hcard hlater
  refine ⟨hsaved.mpr hpm, fun ch hch hproperty hsame hpaid => ?_⟩
  obtain ⟨b, hintent, hb⟩ := (hs.later hlater).held.charge ch hch hpaid
  rw [hsame, hcard'] at hb
  obtain rfl := Option.some.inj hb
  obtain ⟨old, hold, hid⟩ := none_taken hs hlater ⟨hch, hproperty, hpaid, hintent⟩
  exact ⟨old, hold.mem, hid, hold.paid⟩

end Cards

theorem card_waits_for_account_demo :
    ∃ pm ∈ AccountDemo.moved.db.paymentMethods.rows, pm.id = 30 ∧
      ∀ ch ∈ AccountDemo.moved.db.charges.rows, ch.propertyId = 1 → ch.stripePmId = "pm_1" →
        ch.status ≠ .failed → ∃ old ∈ AccountDemo.paid.db.charges.rows, old.id = ch.id ∧
          old.status ≠ .failed := by
  have hpm : (⟨30, 1, none, "pm_1"⟩ : StripePaymentMethod) ∈
      AccountDemo.paid.db.paymentMethods.rows := by decide
  obtain ⟨a, hcard, hwaits⟩ := card_waits_for_account AccountDemo.paid_reached hpm
  obtain rfl : a = "A" := by
    have hholder : AccountDemo.paid.stripe.cardAccount "pm_1" = some "A" := by decide
    exact Option.some.inj (hcard.symm.trans hholder)
  obtain ⟨hstays, hnone⟩ := hwaits AccountDemo.moved ((Relation.ReflTransGen.single
    ⟨AccountDemo.exchangeOf 1 "B", AccountDemo.exchange_valid _ _ _, AccountDemo.exchange_away,
      rfl⟩).tail ⟨AccountDemo.refundOf, AccountDemo.refund_valid _, AccountDemo.refund_away, rfl⟩)
  exact ⟨_, hstays, rfl, hnone⟩

end OpenPms.Payments
