import Mathlib.Algebra.Order.BigOperators.Group.Finset
import OpenPms.StripeFolio

/-!
Refund requests and charge.refunded webhooks that run at the same time. A request reads
the charge, has Stripe refund it and commits its rows afterwards; the webhook of that
refund reads the same charge and books it as long as it finds it succeeded. Rows are
written at the commit; nothing is locked between the read and the write.
-/
namespace OpenPms.Payments

open KeyedTable

/-- A refund that Stripe has accepted; `cumulative` is the amount_refunded of its event. -/
structure Refund where
  request : ℕ
  charge : UUID
  intent : String
  amount : ℤ
  cumulative : ℤ
  deriving DecidableEq

/-- A webhook delivers the event of the refund that a request has made. Refunds that Stripe
makes on its own, from its dashboard say, are not among the jobs. -/
inductive Job where
  | refund (secret : Bool) (folioId bookingId chargeRowId : UUID) (amount : Option ℚ)
  | webhook (folioId : UUID) (request : ℕ)

inductive Phase where
  | ready
  | planned (plan : RefundPlan)
  | accepted (plan : RefundPlan)
  | reconciling (charge : StripeCharge) (amount : ℤ)
  | finished
  | dead
  deriving DecidableEq

structure Race where
  db : PaymentsDb
  stripe : String → Intent
  refunds : List Refund
  phase : ℕ → Phase

namespace Race

def setPhase (s : Race) (i : ℕ) (p : Phase) : Race :=
  { s with phase := Function.update s.phase i p }

/-- Stripe has accepted the refund of a plan. -/
def accept (s : Race) (i : ℕ) (plan : RefundPlan) : Race where
  db := s.db
  stripe := giveBack s.stripe plan.charge.stripeChargeId plan.amount
  refunds := s.refunds ++ [⟨i, plan.charge.id, plan.charge.stripeChargeId, plan.amount,
    (s.stripe plan.charge.stripeChargeId).refunded + plan.amount⟩]
  phase := Function.update s.phase i (.accepted plan)

/-- The rows of a refund are committed. -/
def post (s : Race) (i : ℕ) (folioId : UUID) (r : ℕ) (description : String) (ch : StripeCharge)
    (amount : ℤ) : Race where
  db := bookRefund folioId (some r) description ch amount s.db
  stripe := s.stripe
  refunds := s.refunds
  phase := Function.update s.phase i .finished

/-- What the webhook of a refund would book now. -/
def reconciled (s : Race) (R : Refund) : Option (StripeCharge × ℤ) := do
  let ch ← lookupStripeChargeForWebhook R.intent s.db
  let amount ← reconciledAmount ch (some R.cumulative)
  pure (ch, amount)

end Race

/-- One step of a request or a webhook. A request that its checks or Stripe refuse ends
as one that is killed does. -/
inductive Step (job : ℕ → Job) (s : Race) (i : ℕ) : Race → Prop
  | die (hphase : s.phase i ≠ .finished) : Step job s i (s.setPhase i .dead)
  | plan {secret : Bool} {folioId bookingId chargeRowId : UUID} {amount : Option ℚ}
      {plan : RefundPlan} (hjob : job i = .refund secret folioId bookingId chargeRowId amount)
      (hphase : s.phase i = .ready)
      (hplan : refundPlan secret bookingId chargeRowId amount s.db = .ok plan) :
      Step job s i (s.setPhase i (.planned plan))
  | accept {plan : RefundPlan} (hphase : s.phase i = .planned plan)
      (hle : plan.amount ≤ (s.stripe plan.charge.stripeChargeId).captured -
        (s.stripe plan.charge.stripeChargeId).refunded) :
      Step job s i (s.accept i plan)
  | book {secret : Bool} {folioId bookingId chargeRowId : UUID} {amount : Option ℚ}
      {plan : RefundPlan} (hjob : job i = .refund secret folioId bookingId chargeRowId amount)
      (hphase : s.phase i = .accepted plan) :
      Step job s i (s.post i folioId i "Stripe refund" plan.charge plan.amount)
  | ignore {folioId : UUID} {r : ℕ} {R : Refund} (hjob : job i = .webhook folioId r)
      (hphase : s.phase i = .ready) (hR : R ∈ s.refunds) (hr : R.request = r)
      (hnone : s.reconciled R = none) : Step job s i (s.setPhase i .finished)
  | read {folioId : UUID} {r : ℕ} {R : Refund} {ch : StripeCharge} {amount : ℤ}
      (hjob : job i = .webhook folioId r) (hphase : s.phase i = .ready) (hR : R ∈ s.refunds)
      (hr : R.request = r) (hsome : s.reconciled R = some (ch, amount)) :
      Step job s i (s.setPhase i (.reconciling ch amount))
  | reconcile {folioId : UUID} {r : ℕ} {ch : StripeCharge} {amount : ℤ}
      (hjob : job i = .webhook folioId r) (hphase : s.phase i = .reconciling ch amount) :
      Step job s i (s.post i folioId r "Stripe refund (webhook)" ch amount)

/-- The refund has been dealt with: its request has committed, or a delivery of its event
has been processed. -/
def Settled (job : ℕ → Job) (s : Race) (r : ℕ) : Prop :=
  s.phase r = .finished ∨ ∃ j folioId, job j = .webhook folioId r ∧ s.phase j = .finished

/-- A webhook is finished in time: one that books nothing, when its refund has been dealt
with; one that books, over the charge as it was read, for a refund whose request has died,
and its event reports that refund only. -/
def Timely (job : ℕ → Job) (s : Race) (i : ℕ) : Prop :=
  ∀ folioId r, job i = .webhook folioId r →
    (s.phase i = .ready → (∀ R ∈ s.refunds, R.request = r → s.reconciled R = none) →
      Settled job s r) ∧
    ∀ ch amount, s.phase i = .reconciling ch amount → s.db.charges.find ch.id = some ch ∧
      s.phase r = .dead ∧ ∀ R ∈ s.refunds, R.request = r → R.cumulative = R.amount

/-- The states of the runs of which each step is allowed. -/
inductive Race.Reach (job : ℕ → Job) (allowed : Race → ℕ → Prop) (s₀ : Race) : Race → Prop
  | refl : Reach job allowed s₀ s₀
  | tail {s s' : Race} {i : ℕ} (hs : Reach job allowed s₀ s) (ha : allowed s i)
      (hstep : Step job s i s') : Reach job allowed s₀ s'

/-! What the folio should show -/

/-- The rows that were posted for a refund. -/
def rowsFor (r : ℕ) (folio : List FolioPosting) : List FolioPosting :=
  folio.filter fun p => p.refund = some r

/-- What the negative rows of a charge add up to. -/
def negativeSum (chargeId : UUID) (folio : List FolioPosting) : ℤ :=
  ((folio.filter fun p => p.charge = chargeId ∧ p.amount < 0).map fun p => -p.amount).sum

/-- Each refund has at most one row, and has it once its request has committed or its
event has been processed; the negative rows of a charge are within its amount. -/
structure BookedOnce (job : ℕ → Job) (s : Race) : Prop where
  once : ∀ R ∈ s.refunds, (rowsFor R.request s.db.folio).length ≤ 1
  booked : ∀ R ∈ s.refunds, Settled job s R.request → (rowsFor R.request s.db.folio).length = 1
  bounded : ∀ ch ∈ s.db.charges.rows, negativeSum ch.id s.db.folio ≤ ch.amount

/-- Charges without refunds, paid in full or failed, and nothing running yet. -/
structure Race.Fresh (s : Race) : Prop where
  ready : ∀ i, s.phase i = .ready
  refunds : s.refunds = []
  folio : ∀ p ∈ s.db.folio, p.refund = none ∧ 0 ≤ p.amount
  charges : ∀ ch ∈ s.db.charges.rows, 0 ≤ ch.amount ∧
    (ch.status = .failed ∨ ch.status = .succeeded ∧ s.stripe ch.stripeChargeId = ⟨ch.amount, 0⟩)
  intent : ∀ ch ∈ s.db.charges.rows, ∀ ch' ∈ s.db.charges.rows,
    ch.stripeChargeId = ch'.stripeChargeId → ch.id = ch'.id

/-! The invariant -/

/-- The charge row as a plan or a webhook has it, up to the status. -/
structure SameCharge (ch ch' : StripeCharge) : Prop where
  id : ch.id = ch'.id
  intent : ch.stripeChargeId = ch'.stripeChargeId
  amount : ch.amount = ch'.amount

/-- The amount is positive and within the charge, or the whole of the charge. -/
def RefundOf (ch : StripeCharge) (amount : ℤ) : Prop :=
  amount ≤ ch.amount ∧ (0 < amount ∨ amount = ch.amount)

def refundedOn (intent : String) (refunds : List Refund) : ℤ :=
  ((refunds.filter fun R => R.intent = intent).map (·.amount)).sum

def Posted (folio : List FolioPosting) (r : ℕ) : Prop := ∃ p ∈ folio, p.refund = some r

/-- Charges against Stripe. -/
structure ChargesOk (s : Race) : Prop where
  intent : ∀ ch ∈ s.db.charges.rows, ∀ ch' ∈ s.db.charges.rows,
    ch.stripeChargeId = ch'.stripeChargeId → ch.id = ch'.id
  nonneg : ∀ ch ∈ s.db.charges.rows, 0 ≤ ch.amount
  captured : ∀ ch ∈ s.db.charges.rows, ch.status ≠ .failed →
    (s.stripe ch.stripeChargeId).captured = ch.amount
  refunded : ∀ ch ∈ s.db.charges.rows, ch.status ≠ .failed →
    (s.stripe ch.stripeChargeId).refunded = refundedOn ch.stripeChargeId s.refunds
  bounded : ∀ ch ∈ s.db.charges.rows, refundedOn ch.stripeChargeId s.refunds ≤ ch.amount

/-- Accepted refunds and the rows posted for them. -/
structure RefundsOk (s : Race) : Prop where
  nodup : (s.refunds.map (·.request)).Nodup
  charge : ∀ R ∈ s.refunds, ∃ ch ∈ s.db.charges.rows, ch.id = R.charge ∧
    ch.stripeChargeId = R.intent ∧ ch.status ≠ .failed ∧ RefundOf ch R.amount
  row : ∀ p ∈ s.db.folio, ∀ r, p.refund = some r → ∃ R ∈ s.refunds, R.request = r ∧
    p.charge = R.charge ∧ p.amount = -R.amount
  once : (s.db.folio.filterMap (·.refund)).Nodup
  payment : ∀ p ∈ s.db.folio, p.refund = none → 0 ≤ p.amount
  open_charge : ∀ ch ∈ s.db.charges.rows, ch.status = .succeeded →
    ∀ R ∈ s.refunds, R.charge = ch.id → ¬ Posted s.db.folio R.request

/-- What each job knows at its phase. -/
structure PhasesOk (job : ℕ → Job) (s : Race) : Prop where
  started : ∀ R ∈ s.refunds, ∃ secret folioId bookingId chargeRowId amount,
    job R.request = .refund secret folioId bookingId chargeRowId amount ∧
      (s.phase R.request = .finished ∨ s.phase R.request = .dead ∨
        ∃ plan, s.phase R.request = .accepted plan)
  planned : ∀ i plan, s.phase i = .planned plan → (∃ secret folioId bookingId chargeRowId amount,
    job i = .refund secret folioId bookingId chargeRowId amount) ∧
      ∃ ch ∈ s.db.charges.rows, SameCharge ch plan.charge ∧ ch.status ≠ .failed ∧
        RefundOf ch plan.amount
  accepted : ∀ i plan, s.phase i = .accepted plan → ¬ Posted s.db.folio i ∧
    ∃ R ∈ s.refunds, R.request = i ∧ R.charge = plan.charge.id ∧ R.amount = plan.amount
  reconciling : ∀ i ch amount, s.phase i = .reconciling ch amount → ∃ folioId, ∃ R ∈ s.refunds,
    job i = .webhook folioId R.request ∧ ch.stripeChargeId = R.intent ∧
      reconciledAmount ch (some R.cumulative) = some amount
  delivered : ∀ i folioId r, job i = .webhook folioId r → s.phase i = .finished →
    ∃ R ∈ s.refunds, R.request = r
  settled : ∀ R ∈ s.refunds, Settled job s R.request → Posted s.db.folio R.request

structure Sound (job : ℕ → Job) (s : Race) : Prop where
  charges : ChargesOk s
  refunds : RefundsOk s
  phases : PhasesOk job s

/-! Refunds by request -/

theorem RefundsOk.unique {s : Race} (h : RefundsOk s) {R R' : Refund} (hR : R ∈ s.refunds)
    (hR' : R' ∈ s.refunds) (heq : R.request = R'.request) : R = R' :=
  List.inj_on_of_nodup_map h.nodup hR hR' heq

theorem refundedOn_append (intent : String) (refunds : List Refund) (R : Refund) :
    refundedOn intent (refunds ++ [R]) =
      refundedOn intent refunds + if R.intent = intent then R.amount else 0 := by
  by_cases h : R.intent = intent
  · simp [refundedOn, h]
  · simp [refundedOn, h]

theorem posted_append {folio : List FolioPosting} {p : FolioPosting} {r : ℕ} :
    Posted (folio ++ [p]) r ↔ Posted folio r ∨ p.refund = some r := by
  simp [Posted, or_and_right, exists_or]

/-! Steps that write nothing -/

theorem chargesOk_setPhase {s : Race} (h : ChargesOk s) (i : ℕ) (p : Phase) :
    ChargesOk (s.setPhase i p) := ⟨h.intent, h.nonneg, h.captured, h.refunded, h.bounded⟩

theorem refundsOk_setPhase {s : Race} (h : RefundsOk s) (i : ℕ) (p : Phase) :
    RefundsOk (s.setPhase i p) :=
  ⟨h.nodup, h.charge, h.row, h.once, h.payment, h.open_charge⟩

theorem setPhase_self (s : Race) (i : ℕ) (p : Phase) : (s.setPhase i p).phase i = p := by
  simp [Race.setPhase]

theorem setPhase_of_ne (s : Race) {i j : ℕ} (hij : j ≠ i) (p : Phase) :
    (s.setPhase i p).phase j = s.phase j := by
  simp [Race.setPhase, hij]

/-- The phase of one job changes: what the new phase promises has to be shown. -/
theorem phasesOk_setPhase {job : ℕ → Job} {s : Race} (h : PhasesOk job s) {i : ℕ} {p : Phase}
    (hstarted : (∃ R ∈ s.refunds, R.request = i) → p = .finished ∨ p = .dead)
    (hplanned : ∀ plan, p = .planned plan → (∃ secret folioId bookingId chargeRowId amount,
      job i = .refund secret folioId bookingId chargeRowId amount) ∧
        ∃ ch ∈ s.db.charges.rows, SameCharge ch plan.charge ∧ ch.status ≠ .failed ∧
          RefundOf ch plan.amount)
    (haccepted : ∀ plan, p ≠ .accepted plan)
    (hreconciling : ∀ ch amount, p = .reconciling ch amount → ∃ folioId, ∃ R ∈ s.refunds,
      job i = .webhook folioId R.request ∧ ch.stripeChargeId = R.intent ∧
        reconciledAmount ch (some R.cumulative) = some amount)
    (hfinished : p = .finished → ∃ folioId, ∃ R ∈ s.refunds, job i = .webhook folioId R.request ∧
      Posted s.db.folio R.request) : PhasesOk job (s.setPhase i p) := by
  constructor
  · intro R hR
    obtain ⟨secret, folioId, bookingId, chargeRowId, amount, hjob, hphase⟩ := h.started R hR
    refine ⟨secret, folioId, bookingId, chargeRowId, amount, hjob, ?_⟩
    by_cases hi : R.request = i
    · rw [hi, setPhase_self]
      rcases hstarted ⟨R, hR, hi⟩ with hp | hp
      · exact .inl hp
      · exact .inr (.inl hp)
    · rw [setPhase_of_ne s hi]
      exact hphase
  · intro j plan hj
    by_cases hij : j = i
    · subst hij
      rw [setPhase_self] at hj
      exact hplanned plan hj
    · rw [setPhase_of_ne s hij] at hj
      exact h.planned j plan hj
  · intro j plan hj
    by_cases hij : j = i
    · subst hij
      rw [setPhase_self] at hj
      exact absurd hj (haccepted plan)
    · rw [setPhase_of_ne s hij] at hj
      exact h.accepted j plan hj
  · intro j ch amount hj
    by_cases hij : j = i
    · subst hij
      rw [setPhase_self] at hj
      exact hreconciling ch amount hj
    · rw [setPhase_of_ne s hij] at hj
      exact h.reconciling j ch amount hj
  · intro j folioId r hjob hj
    by_cases hij : j = i
    · subst hij
      rw [setPhase_self] at hj
      obtain ⟨folioId', R, hR, hjob', -⟩ := hfinished hj
      rw [hjob] at hjob'
      cases hjob'
      exact ⟨R, hR, rfl⟩
    · rw [setPhase_of_ne s hij] at hj
      exact h.delivered j folioId r hjob hj
  · intro R hR hsettled
    rcases hsettled with hphase | ⟨j, folioId, hjob, hphase⟩
    · by_cases hi : R.request = i
      · -- a request does not finish without its rows
        rw [hi, setPhase_self] at hphase
        obtain ⟨secret, f, b, c, a, hjob, -⟩ := h.started R hR
        obtain ⟨folioId, R', -, hjob', -⟩ := hfinished hphase
        rw [← hi, hjob] at hjob'
        cases hjob'
      · rw [setPhase_of_ne s hi] at hphase
        exact h.settled R hR (.inl hphase)
    · by_cases hij : j = i
      · subst hij
        rw [setPhase_self] at hphase
        obtain ⟨folioId', R', hR', hjob', hposted⟩ := hfinished hphase
        rw [hjob] at hjob'
        obtain ⟨-, hrequest⟩ := Job.webhook.inj hjob'
        rw [hrequest]
        exact hposted
      · rw [setPhase_of_ne s hij] at hphase
        exact h.settled R hR (.inr ⟨j, folioId, hjob, hphase⟩)

/-! Acceptance -/

theorem chargesOk_accept {s : Race} (h : ChargesOk s) (i : ℕ) {plan : RefundPlan}
    {ch : StripeCharge} (hch : ch ∈ s.db.charges.rows) (hsame : SameCharge ch plan.charge)
    (hlive : ch.status ≠ .failed)
    (hle : plan.amount ≤ (s.stripe plan.charge.stripeChargeId).captured -
      (s.stripe plan.charge.stripeChargeId).refunded) : ChargesOk (s.accept i plan) := by
  have hgive : ∀ id, (s.accept i plan).stripe id = ⟨(s.stripe id).captured,
      (s.stripe id).refunded + if plan.charge.stripeChargeId = id then plan.amount else 0⟩ := by
    intro id
    by_cases hid : plan.charge.stripeChargeId = id
    · simp [Race.accept, giveBack, hid]
    · simp [Race.accept, giveBack, hid, Ne.symm hid]
  have hsum : ∀ id, refundedOn id (s.accept i plan).refunds = refundedOn id s.refunds +
      if plan.charge.stripeChargeId = id then plan.amount else 0 := by
    intro id
    exact refundedOn_append id s.refunds _
  constructor
  · exact h.intent
  · exact h.nonneg
  · intro c hc hcstatus
    rw [hgive]
    exact h.captured c hc hcstatus
  · intro c hc hcstatus
    rw [hgive, hsum, h.refunded c hc hcstatus]
  · intro c hc
    rw [hsum]
    by_cases hid : plan.charge.stripeChargeId = c.stripeChargeId
    · have hcid : c.id = ch.id := h.intent c hc ch hch (hid.symm.trans hsame.intent.symm)
      have hcch : c = ch := List.inj_on_of_nodup_map s.db.charges.nodup hc hch hcid
      rw [hid, hcch, h.captured ch hch hlive, h.refunded ch hch hlive] at hle
      rw [if_pos hid, hcch]
      omega
    · rw [if_neg hid]
      have hold := h.bounded c hc
      omega

theorem refundsOk_accept {s : Race} (h : RefundsOk s) {i : ℕ} {plan : RefundPlan}
    {ch : StripeCharge} (hch : ch ∈ s.db.charges.rows) (hsame : SameCharge ch plan.charge)
    (hlive : ch.status ≠ .failed) (hamount : RefundOf ch plan.amount)
    (hnew : ∀ R ∈ s.refunds, R.request ≠ i) : RefundsOk (s.accept i plan) := by
  have hmem : ∀ R, R ∈ (s.accept i plan).refunds ↔ R ∈ s.refunds ∨ R = ⟨i, plan.charge.id,
      plan.charge.stripeChargeId, plan.amount,
      (s.stripe plan.charge.stripeChargeId).refunded + plan.amount⟩ := by
    intro R
    simp [Race.accept]
  constructor
  · have hnot : i ∉ s.refunds.map (·.request) := by
      rw [List.mem_map]
      intro hex
      obtain ⟨R, hR, heq⟩ := hex
      exact hnew R hR heq
    simp only [Race.accept, List.map_append, List.map_cons, List.map_nil]
    exact List.nodup_append.mpr ⟨h.nodup, List.nodup_singleton _, by
      intro a ha b hb hab
      rw [List.mem_singleton] at hb
      exact hnot (hb ▸ hab ▸ ha)⟩
  · intro R hR
    rcases (hmem R).mp hR with hR | hR
    · exact h.charge R hR
    · rw [hR]
      exact ⟨ch, hch, hsame.id, hsame.intent, hlive, hamount⟩
  · intro p hp r hr
    obtain ⟨R, hR, heq⟩ := h.row p hp r hr
    exact ⟨R, (hmem R).mpr (.inl hR), heq⟩
  · exact h.once
  · exact h.payment
  · intro c hc hstatus R hR hcharge hposted
    rcases (hmem R).mp hR with hR | hR
    · exact h.open_charge c hc hstatus R hR hcharge hposted
    · obtain ⟨p, hp, hrefund⟩ := hposted
      obtain ⟨R', hR', heq, -⟩ := h.row p hp R.request hrefund
      rw [hR] at heq
      exact hnew R' hR' heq

theorem phasesOk_accept {job : ℕ → Job} {s : Race} (h : PhasesOk job s) (hrefunds : RefundsOk s)
    {i : ℕ} {plan : RefundPlan} (hphase : s.phase i = .planned plan)
    (hnew : ∀ R ∈ s.refunds, R.request ≠ i) : PhasesOk job (s.accept i plan) := by
  obtain ⟨⟨secret, folioId, bookingId, chargeRowId, amount, hjob⟩, -⟩ := h.planned i plan hphase
  have hmem : ∀ R, R ∈ (s.accept i plan).refunds ↔ R ∈ s.refunds ∨ R = ⟨i, plan.charge.id,
      plan.charge.stripeChargeId, plan.amount,
      (s.stripe plan.charge.stripeChargeId).refunded + plan.amount⟩ := by
    intro R
    simp [Race.accept]
  have hself : (s.accept i plan).phase i = .accepted plan := by simp [Race.accept]
  have hother : ∀ j, j ≠ i → (s.accept i plan).phase j = s.phase j := by
    intro j hij
    simp [Race.accept, hij]
  constructor
  · intro R hR
    rcases (hmem R).mp hR with hR | hR
    · rw [hother _ (hnew R hR)]
      exact h.started R hR
    · rw [hR]
      exact ⟨secret, folioId, bookingId, chargeRowId, amount, hjob, .inr (.inr ⟨plan, hself⟩)⟩
  · intro j plan' hj
    by_cases hij : j = i
    · rw [hij, hself] at hj
      cases hj
    · rw [hother j hij] at hj
      exact h.planned j plan' hj
  · intro j plan' hj
    by_cases hij : j = i
    · subst hij
      rw [hself] at hj
      cases hj
      refine ⟨fun hposted => ?_, _, (hmem _).mpr (.inr rfl), rfl, rfl, rfl⟩
      obtain ⟨p, hp, hrefund⟩ := hposted
      obtain ⟨R, hR, heq, -⟩ := hrefunds.row p hp j hrefund
      exact hnew R hR heq
    · rw [hother j hij] at hj
      obtain ⟨hnot, R, hR, heq⟩ := h.accepted j plan' hj
      exact ⟨hnot, R, (hmem R).mpr (.inl hR), heq⟩
  · intro j ch a hj
    by_cases hij : j = i
    · rw [hij, hself] at hj
      cases hj
    · rw [hother j hij] at hj
      obtain ⟨f, R, hR, heq⟩ := h.reconciling j ch a hj
      exact ⟨f, R, (hmem R).mpr (.inl hR), heq⟩
  · intro j f r hjob' hj
    by_cases hij : j = i
    · rw [hij, hself] at hj
      cases hj
    · rw [hother j hij] at hj
      obtain ⟨R, hR, heq⟩ := h.delivered j f r hjob' hj
      exact ⟨R, (hmem R).mpr (.inl hR), heq⟩
  · intro R hR hsettled
    have hold : Settled job s R.request := by
      rcases hsettled with hj | ⟨j, f, hjob', hj⟩
      · by_cases hij : R.request = i
        · rw [hij, hself] at hj
          cases hj
        · rw [hother _ hij] at hj
          exact .inl hj
      · by_cases hij : j = i
        · rw [hij, hself] at hj
          cases hj
        · rw [hother j hij] at hj
          exact .inr ⟨j, f, hjob', hj⟩
    rcases (hmem R).mp hR with hR | hR
    · exact h.settled R hR hold
    · -- no event is delivered before its refund is accepted
      rcases hold with hj | ⟨j, f, hjob', hj⟩
      · rw [hR, hphase] at hj
        cases hj
      · obtain ⟨R', hR', heq⟩ := h.delivered j f R.request hjob' hj
        rw [hR] at heq
        exact absurd heq (hnew R' hR')

/-! The rows of a refund -/

/-- Booking a refund changes no charge but the status of its own, which is not succeeded
afterwards. -/
theorem charges_post {s : Race} {i : ℕ} {folioId : UUID} {r : ℕ} {description : String}
    {ch : StripeCharge} {amount : ℤ} :
    (∀ c ∈ (s.post i folioId r description ch amount).db.charges.rows,
      ∃ c₀ ∈ s.db.charges.rows, SameCharge c c₀ ∧ (c.id = ch.id → c.status ≠ .succeeded) ∧
        (c.id ≠ ch.id → c = c₀)) ∧
    ∀ c₀ ∈ s.db.charges.rows, ∃ c ∈ (s.post i folioId r description ch amount).db.charges.rows,
      SameCharge c c₀ ∧ (c₀.status ≠ .failed → c.status ≠ .failed) := by
  constructor
  · intro c hc
    rcases mem_bookRefund.mp hc with ⟨hold, hid⟩ | ⟨u, hu, heq⟩
    · exact ⟨c, hold, ⟨rfl, rfl, rfl⟩, fun hcid => absurd hcid hid, fun _ => rfl⟩
    · obtain ⟨hmem, hid⟩ := Table.find_eq_some.mp hu
      rw [heq]
      refine ⟨u, hmem, ⟨rfl, rfl, rfl⟩, fun _ => ?_, fun hne => absurd hid hne⟩
      unfold StripeCharge.withStatus
      dsimp only
      split <;> simp
  · intro c₀ hc₀
    by_cases hid : c₀.id = ch.id
    · have hfind : s.db.charges.find ch.id = some c₀ := Table.find_eq_some.mpr ⟨hc₀, hid⟩
      refine ⟨_, mem_bookRefund.mpr (.inr ⟨c₀, hfind, rfl⟩), ⟨rfl, rfl, rfl⟩, fun _ => ?_⟩
      unfold StripeCharge.withStatus
      dsimp only
      split <;> simp
    · exact ⟨c₀, mem_bookRefund.mpr (.inl ⟨hc₀, hid⟩), ⟨rfl, rfl, rfl⟩, fun h => h⟩

section Post
variable {job : ℕ → Job} {s : Race} {i : ℕ} {folioId : UUID} {r : ℕ} {description : String}
  {ch : StripeCharge} {amount : ℤ} {R : Refund}

theorem chargesOk_post (h : ChargesOk s) (hrefunds : RefundsOk s) (hR : R ∈ s.refunds)
    (hcharge : R.charge = ch.id) : ChargesOk (s.post i folioId r description ch amount) := by
  obtain ⟨hback, -⟩ := @charges_post s i folioId r description ch amount
  -- a charge that has not failed now had not failed before
  have hlive : ∀ c ∈ (s.post i folioId r description ch amount).db.charges.rows,
      c.status ≠ .failed → ∃ c₀ ∈ s.db.charges.rows, SameCharge c c₀ ∧ c₀.status ≠ .failed := by
    intro c hc hstatus
    obtain ⟨c₀, hc₀, hsame, -, heq⟩ := hback c hc
    by_cases hid : c.id = ch.id
    · obtain ⟨c₁, hc₁, hid₁, -, hnot, -⟩ := hrefunds.charge R hR
      have hc₀₁ : c₀.id = c₁.id := by rw [← hsame.id, hid, hid₁, hcharge]
      have hrow : c₀ = c₁ := List.inj_on_of_nodup_map s.db.charges.nodup hc₀ hc₁ hc₀₁
      exact ⟨c₀, hc₀, hsame, hrow ▸ hnot⟩
    · exact ⟨c₀, hc₀, hsame, heq hid ▸ hstatus⟩
  constructor
  · intro c hc c' hc' hpi
    obtain ⟨c₀, hc₀, hsame, -⟩ := hback c hc
    obtain ⟨c₁, hc₁, hsame', -⟩ := hback c' hc'
    rw [hsame.id, hsame'.id]
    exact h.intent c₀ hc₀ c₁ hc₁ (by rw [← hsame.intent, ← hsame'.intent, hpi])
  · intro c hc
    obtain ⟨c₀, hc₀, hsame, -⟩ := hback c hc
    rw [hsame.amount]
    exact h.nonneg c₀ hc₀
  · intro c hc hstatus
    obtain ⟨c₀, hc₀, hsame, hnot⟩ := hlive c hc hstatus
    rw [hsame.intent, hsame.amount]
    exact h.captured c₀ hc₀ hnot
  · intro c hc hstatus
    obtain ⟨c₀, hc₀, hsame, hnot⟩ := hlive c hc hstatus
    rw [hsame.intent]
    exact h.refunded c₀ hc₀ hnot
  · intro c hc
    obtain ⟨c₀, hc₀, hsame, -⟩ := hback c hc
    rw [hsame.intent, hsame.amount]
    exact h.bounded c₀ hc₀

theorem refundsOk_post (h : RefundsOk s) (hR : R ∈ s.refunds) (hr : R.request = r)
    (hcharge : R.charge = ch.id) (hamount : R.amount = amount) (hnot : ¬ Posted s.db.folio r) :
    RefundsOk (s.post i folioId r description ch amount) := by
  obtain ⟨hback, hkept⟩ := @charges_post s i folioId r description ch amount
  have hfolio : (s.post i folioId r description ch amount).db.folio =
      s.db.folio ++ [⟨folioId, ch.bookingId, -amount, description, ch.id, some r⟩] := rfl
  constructor
  · exact h.nodup
  · intro R' hR'
    obtain ⟨c₀, hc₀, hid, hpi, hstatus, hrefund⟩ := h.charge R' hR'
    obtain ⟨c, hc, hsame, hlive⟩ := hkept c₀ hc₀
    refine ⟨c, hc, hsame.id.trans hid, hsame.intent.trans hpi, hlive hstatus, ?_⟩
    unfold RefundOf at hrefund ⊢
    rw [hsame.amount]
    exact hrefund
  · intro p hp r' hr'
    rw [hfolio] at hp
    rcases List.mem_append.mp hp with hp | hp
    · exact h.row p hp r' hr'
    · rw [List.mem_singleton] at hp
      subst hp
      cases hr'
      exact ⟨R, hR, hr, hcharge.symm, by rw [hamount]⟩
  · rw [hfolio, List.filterMap_append]
    refine List.nodup_append.mpr ⟨h.once, List.nodup_singleton _, ?_⟩
    intro a ha b hb hab
    rw [List.mem_filterMap] at ha
    obtain ⟨p, hp, hpa⟩ := ha
    have hbr : b = r := by simpa using hb
    exact hnot ⟨p, hp, by rw [hpa, hab, hbr]⟩
  · intro p hp hnone
    rw [hfolio] at hp
    rcases List.mem_append.mp hp with hp | hp
    · exact h.payment p hp hnone
    · rw [List.mem_singleton] at hp
      subst hp
      cases hnone
  · intro c hc hstatus R' hR' hcid hposted
    obtain ⟨c₀, hc₀, -, hsucc, heq⟩ := hback c hc
    have hne : c.id ≠ ch.id := fun hid => hsucc hid hstatus
    rw [hfolio, posted_append] at hposted
    rcases hposted with hposted | hposted
    · have hrow := heq hne
      subst hrow
      exact h.open_charge c hc₀ hstatus R' hR' hcid hposted
    · have hreq : R.request = R'.request := by
        rw [hr]
        exact Option.some.inj hposted
      rw [← h.unique hR hR' hreq, hcharge] at hcid
      exact hne hcid.symm

/-- The poster is the request of the refund, or a webhook of a refund whose request is
dead. -/
theorem phasesOk_post (h : PhasesOk job s) (hR : R ∈ s.refunds) (hr : R.request = r)
    (hposter : i = r ∨ (∃ f, job i = .webhook f r) ∧ s.phase r = .dead) :
    PhasesOk job (s.post i folioId r description ch amount) := by
  obtain ⟨-, hkept⟩ := @charges_post s i folioId r description ch amount
  have hself : (s.post i folioId r description ch amount).phase i = .finished := by
    simp [Race.post]
  have hother : ∀ j, j ≠ i →
      (s.post i folioId r description ch amount).phase j = s.phase j := by
    intro j hij
    simp [Race.post, hij]
  have hposted : ∀ r', Posted (s.post i folioId r description ch amount).db.folio r' ↔
      Posted s.db.folio r' ∨ r = r' := by
    intro r'
    refine posted_append.trans ?_
    simp
  constructor
  · intro R' hR'
    obtain ⟨secret, f, b, c, a, hjob, hphase⟩ := h.started R' hR'
    refine ⟨secret, f, b, c, a, hjob, ?_⟩
    by_cases hi : R'.request = i
    · rw [hi]
      exact .inl hself
    · rw [hother _ hi]
      exact hphase
  · intro j plan hj
    by_cases hij : j = i
    · rw [hij, hself] at hj
      cases hj
    · rw [hother j hij] at hj
      obtain ⟨hjob, c₀, hc₀, hsame₀, hlive, hrefund⟩ := h.planned j plan hj
      obtain ⟨c, hc, hsame, hstatus⟩ := hkept c₀ hc₀
      refine ⟨hjob, c, hc, ⟨hsame.id.trans hsame₀.id, hsame.intent.trans hsame₀.intent,
        hsame.amount.trans hsame₀.amount⟩, hstatus hlive, ?_⟩
      unfold RefundOf at hrefund ⊢
      rw [hsame.amount]
      exact hrefund
  · intro j plan hj
    by_cases hij : j = i
    · rw [hij, hself] at hj
      cases hj
    · rw [hother j hij] at hj
      obtain ⟨hnot, hR'⟩ := h.accepted j plan hj
      refine ⟨fun hnow => ?_, hR'⟩
      rcases (hposted j).mp hnow with hold | hrj
      · exact hnot hold
      · rcases hposter with hir | ⟨-, hdead⟩
        · exact hij (hrj.symm.trans hir.symm)
        · rw [hrj, hj] at hdead
          cases hdead
  · intro j c a hj
    by_cases hij : j = i
    · rw [hij, hself] at hj
      cases hj
    · rw [hother j hij] at hj
      exact h.reconciling j c a hj
  · intro j f r' hjob hj
    by_cases hij : j = i
    · rw [hij] at hjob
      rcases hposter with hir | ⟨⟨f', hjob'⟩, -⟩
      · obtain ⟨_, _, _, _, _, hjob', -⟩ := h.started R hR
        rw [hr, ← hir, hjob] at hjob'
        cases hjob'
      · rw [hjob] at hjob'
        obtain ⟨-, hrr⟩ := Job.webhook.inj hjob'
        exact ⟨R, hR, hr.trans hrr.symm⟩
    · rw [hother j hij] at hj
      exact h.delivered j f r' hjob hj
  · intro R' hR' hsettled
    rw [hposted]
    by_cases hrr : r = R'.request
    · exact .inr hrr
    · left
      apply h.settled R' hR'
      obtain ⟨_, _, _, _, _, hjobR', -⟩ := h.started R' hR'
      rcases hsettled with hj | ⟨j, f, hjob, hj⟩
      · by_cases hij : R'.request = i
        · rcases hposter with hir | ⟨⟨f', hjob'⟩, -⟩
          · exact absurd (hir.symm.trans hij.symm) hrr
          · rw [← hij, hjobR'] at hjob'
            cases hjob'
        · rw [hother _ hij] at hj
          exact .inl hj
      · by_cases hij : j = i
        · rw [hij] at hjob
          rcases hposter with hir | ⟨⟨f', hjob'⟩, -⟩
          · obtain ⟨_, _, _, _, _, hjobR, -⟩ := h.started R hR
            rw [hr, ← hir, hjob] at hjobR
            cases hjobR
          · rw [hjob] at hjob'
            exact absurd (Job.webhook.inj hjob').2.symm hrr
        · rw [hother j hij] at hj
          exact .inr ⟨j, f, hjob, hj⟩

end Post

/-! Every step keeps the invariant -/

theorem PhasesOk.not_started {job : ℕ → Job} {s : Race} (h : PhasesOk job s) {i : ℕ}
    (hphase : s.phase i = .ready ∨ ∃ plan, s.phase i = .planned plan) :
    ∀ R ∈ s.refunds, R.request ≠ i := by
  intro R hR heq
  obtain ⟨_, _, _, _, _, -, hstarted⟩ := h.started R hR
  rw [heq] at hstarted
  rcases hphase with hphase | ⟨plan, hphase⟩
  · simp [hphase] at hstarted
  · simp [hphase] at hstarted

theorem PhasesOk.not_webhook {job : ℕ → Job} {s : Race} (h : PhasesOk job s) {i : ℕ} {f : UUID}
    {r : ℕ} (hjob : job i = .webhook f r) : ∀ R ∈ s.refunds, R.request ≠ i := by
  intro R hR heq
  obtain ⟨_, _, _, _, _, hrefund, -⟩ := h.started R hR
  rw [heq, hjob] at hrefund
  cases hrefund

theorem reconciled_some {s : Race} {R : Refund} {ch : StripeCharge} {amount : ℤ}
    (h : s.reconciled R = some (ch, amount)) :
    ch.stripeChargeId = R.intent ∧ reconciledAmount ch (some R.cumulative) = some amount := by
  simp only [Race.reconciled, Option.bind_eq_bind, Option.bind_eq_some_iff, Option.pure_def,
    Option.some.injEq, Prod.mk.injEq] at h
  obtain ⟨ch', hlookup, amount', hamount, rfl, rfl⟩ := h
  exact ⟨by simpa using List.find?_some hlookup, hamount⟩

/-- An event that reports its own refund only books that refund. -/
theorem reconciledAmount_own {ch : StripeCharge} {amount booked : ℤ} (h : RefundOf ch amount)
    (hsome : reconciledAmount ch (some amount) = some booked) :
    ch.status = .succeeded ∧ booked = amount := by
  obtain ⟨hle, hpos⟩ := h
  unfold reconciledAmount at hsome
  split at hsome
  · cases hsome
  · next hstatus =>
    refine ⟨not_not.mp hstatus, ?_⟩
    by_cases hp : 0 < amount
    · have hmin : min ch.amount amount = booked := by simpa [Option.filter, hp] using hsome
      omega
    · have hmin : ch.amount = booked := by simpa [Option.filter, hp] using hsome
      omega

theorem sound_step {job : ℕ → Job} {s s' : Race} {i : ℕ} (h : Sound job s)
    (htimely : Timely job s i) (hstep : Step job s i s') : Sound job s' := by
  obtain ⟨hcharges, hrefunds, hphases⟩ := h
  cases hstep with
  | die hphase =>
    refine ⟨chargesOk_setPhase hcharges i _, refundsOk_setPhase hrefunds i _,
      phasesOk_setPhase hphases (fun _ => .inr rfl) nofun nofun nofun nofun⟩
  | @plan _ _ _ _ _ plan hjob hphase hplan =>
    obtain ⟨hmem, hstatus, hamount⟩ := refundPlan_ok hplan
    refine ⟨chargesOk_setPhase hcharges i _, refundsOk_setPhase hrefunds i _,
      phasesOk_setPhase hphases ?_ ?_ nofun nofun nofun⟩
    · intro ⟨R, hR, heq⟩
      exact absurd heq (hphases.not_started (.inl hphase) R hR)
    · intro plan' heq
      cases heq
      refine ⟨⟨_, _, _, _, _, hjob⟩, plan.charge, hmem, ⟨rfl, rfl, rfl⟩, ?_, hamount⟩
      rw [hstatus]
      nofun
  | @accept plan hphase hle =>
    obtain ⟨-, ch, hch, hsame, hlive, hamount⟩ := hphases.planned i plan hphase
    have hnew := hphases.not_started (.inr ⟨plan, hphase⟩)
    exact ⟨chargesOk_accept hcharges i hch hsame hlive hle,
      refundsOk_accept hrefunds hch hsame hlive hamount hnew,
      phasesOk_accept hphases hrefunds hphase hnew⟩
  | @book _ _ _ _ _ plan hjob hphase =>
    obtain ⟨hnot, R, hR, hr, hcharge, hamount⟩ := hphases.accepted i plan hphase
    exact ⟨chargesOk_post hcharges hrefunds hR hcharge,
      refundsOk_post hrefunds hR hr hcharge hamount hnot, phasesOk_post hphases hR hr (.inl rfl)⟩
  | @ignore f r R hjob hphase hR hr hnone =>
    refine ⟨chargesOk_setPhase hcharges i _, refundsOk_setPhase hrefunds i _,
      phasesOk_setPhase hphases (fun _ => .inl rfl) nofun nofun nofun fun _ => ?_⟩
    have hsettled : Settled job s r := by
      refine (htimely f r hjob).1 hphase fun R' hR' hr' => ?_
      rw [hrefunds.unique hR' hR (hr'.trans hr.symm)]
      exact hnone
    refine ⟨f, R, hR, by rw [hr, hjob], hphases.settled R hR ?_⟩
    rw [hr]
    exact hsettled
  | @read f r R ch amount hjob hphase hR hr hsome =>
    obtain ⟨hpi, hamount⟩ := reconciled_some hsome
    refine ⟨chargesOk_setPhase hcharges i _, refundsOk_setPhase hrefunds i _,
      phasesOk_setPhase hphases ?_ nofun nofun ?_ nofun⟩
    · intro ⟨R', hR', heq⟩
      exact absurd heq (hphases.not_webhook hjob R' hR')
    · intro ch' amount' heq
      cases heq
      exact ⟨f, R, hR, by rw [hr, hjob], hpi, hamount⟩
  | @reconcile f r ch amount hjob hphase =>
    obtain ⟨f', R, hR, hjob', hpi, hamount⟩ := hphases.reconciling i ch amount hphase
    rw [hjob] at hjob'
    obtain ⟨-, hr⟩ := Job.webhook.inj hjob'
    obtain ⟨hfind, hdead, hown⟩ := (htimely f r hjob).2 ch amount hphase
    obtain ⟨hch, -⟩ := Table.find_eq_some.mp hfind
    obtain ⟨c₀, hc₀, hid, hpi₀, -, hrefund⟩ := hrefunds.charge R hR
    have hsame : ch = c₀ := List.inj_on_of_nodup_map s.db.charges.nodup hch hc₀
      (hcharges.intent ch hch c₀ hc₀ (hpi.trans hpi₀.symm))
    rw [← hsame] at hid hrefund
    rw [hown R hR hr.symm] at hamount
    obtain ⟨hstatus, rfl⟩ := reconciledAmount_own hrefund hamount
    have hnot : ¬ Posted s.db.folio r := by
      rw [hr]
      exact hrefunds.open_charge ch hch hstatus R hR hid.symm
    exact ⟨chargesOk_post hcharges hrefunds hR hid.symm,
      refundsOk_post hrefunds hR hr.symm hid.symm rfl hnot,
      phasesOk_post hphases hR hr.symm (.inr ⟨⟨f, hjob⟩, hdead⟩)⟩

theorem sound_fresh {job : ℕ → Job} {s : Race} (h : s.Fresh) : Sound job s := by
  have hnone : ∀ R, R ∉ s.refunds := by simp [h.refunds]
  have hsum : ∀ id, refundedOn id s.refunds = 0 := by simp [h.refunds, refundedOn]
  refine ⟨⟨h.intent, fun ch hch => (h.charges ch hch).1, ?_, ?_, ?_⟩,
    ⟨by simp [h.refunds], fun R hR => absurd hR (hnone R), ?_, ?_, fun p hp _ => (h.folio p hp).2,
      fun _ _ _ R hR => absurd hR (hnone R)⟩,
    ⟨fun R hR => absurd hR (hnone R), ?_, ?_, ?_, ?_, fun R hR => absurd hR (hnone R)⟩⟩
  · intro ch hch hlive
    obtain ⟨-, hfailed | ⟨-, hstripe⟩⟩ := h.charges ch hch
    · exact absurd hfailed hlive
    · rw [hstripe]
  · intro ch hch hlive
    obtain ⟨-, hfailed | ⟨-, hstripe⟩⟩ := h.charges ch hch
    · exact absurd hfailed hlive
    · rw [hstripe, hsum]
  · intro ch hch
    rw [hsum]
    exact (h.charges ch hch).1
  · intro p hp r hr
    rw [(h.folio p hp).1] at hr
    cases hr
  · have hnil : s.db.folio.filterMap (·.refund) = [] := by
      rw [List.filterMap_eq_nil_iff]
      exact fun p hp => (h.folio p hp).1
    rw [hnil]
    exact List.nodup_nil
  · intro i plan hphase
    rw [h.ready i] at hphase
    cases hphase
  · intro i plan hphase
    rw [h.ready i] at hphase
    cases hphase
  · intro i ch amount hphase
    rw [h.ready i] at hphase
    cases hphase
  · intro i f r _ hphase
    rw [h.ready i] at hphase
    cases hphase

/-! The claim from the invariant -/

theorem length_rowsFor (r : ℕ) (folio : List FolioPosting) :
    (rowsFor r folio).length = (folio.filterMap (·.refund)).count r := by
  induction folio with
  | nil => rfl
  | cons p rest ih =>
    unfold rowsFor at ih ⊢
    cases hp : p.refund with
    | none => simp [hp, ih]
    | some r' =>
      by_cases hr : r' = r
      · simp [hp, hr, ih]
      · simp [hp, hr, ih]

/-- A negative row was posted for a refund of its charge. -/
theorem refund_of_negative {s : Race} (h : RefundsOk s) {p : FolioPosting} (hp : p ∈ s.db.folio)
    (hneg : p.amount < 0) : ∃ R ∈ s.refunds, p.refund = some R.request ∧ p.charge = R.charge ∧
      p.amount = -R.amount := by
  cases hr : p.refund with
  | none =>
    have hpos := h.payment p hp hr
    omega
  | some r =>
    obtain ⟨R, hR, hreq, hcharge, hamount⟩ := h.row p hp r hr
    exact ⟨R, hR, by rw [hreq], hcharge, hamount⟩

theorem refunds_nonneg {s : Race} (hc : ChargesOk s) (h : RefundsOk s) :
    ∀ R ∈ s.refunds, 0 ≤ R.amount := by
  intro R hR
  obtain ⟨ch, hch, -, -, -, -, hpos⟩ := h.charge R hR
  have hamount := hc.nonneg ch hch
  omega

/-- The amount of the refund that a request made. -/
def amountOf (refunds : List Refund) (r : ℕ) : ℤ :=
  ((refunds.find? fun R => R.request = r).map (·.amount)).getD 0

theorem amountOf_request {s : Race} (h : RefundsOk s) {R : Refund} (hR : R ∈ s.refunds) :
    amountOf s.refunds R.request = R.amount := by
  unfold amountOf
  cases hfind : s.refunds.find? fun R' => R'.request = R.request with
  | none =>
    have hne := List.find?_eq_none.mp hfind R hR
    simp at hne
  | some R' =>
    have hreq : R'.request = R.request := by simpa using List.find?_some hfind
    rw [h.unique (List.mem_of_find?_eq_some hfind) hR hreq]
    rfl

theorem refundedOn_eq_sum {s : Race} (h : RefundsOk s) (intent : String) :
    refundedOn intent s.refunds =
      ∑ r ∈ ((s.refunds.filter fun R => R.intent = intent).map (·.request)).toFinset,
        amountOf s.refunds r := by
  have hnodup : ((s.refunds.filter fun R => R.intent = intent).map (·.request)).Nodup :=
    h.nodup.sublist (List.filter_sublist.map _)
  rw [List.sum_toFinset _ hnodup, List.map_map]
  unfold refundedOn
  congr 1
  apply List.map_congr_left
  intro R hR
  exact (amountOf_request h (List.mem_of_mem_filter hR)).symm

theorem negativeSum_eq_sum {s : Race} (h : RefundsOk s) (chargeId : UUID) :
    negativeSum chargeId s.db.folio = ∑ r ∈ ((s.db.folio.filter fun p => p.charge = chargeId ∧
      p.amount < 0).filterMap (·.refund)).toFinset, amountOf s.refunds r := by
  have hnodup : ((s.db.folio.filter fun p => p.charge = chargeId ∧
      p.amount < 0).filterMap (·.refund)).Nodup :=
    h.once.sublist (List.filter_sublist.filterMap _)
  rw [List.sum_toFinset _ hnodup]
  unfold negativeSum
  have hrows : ∀ rows : List FolioPosting, (∀ p ∈ rows, p ∈ s.db.folio ∧ p.amount < 0) →
      (rows.map fun p => -p.amount) = (rows.filterMap (·.refund)).map (amountOf s.refunds) := by
    intro rows
    induction rows with
    | nil => exact fun _ => rfl
    | cons p rest ih =>
      intro hall
      obtain ⟨hp, hneg⟩ := hall p (List.mem_cons_self ..)
      obtain ⟨R, hR, hrefund, -, hamount⟩ := refund_of_negative h hp hneg
      rw [List.map_cons, List.filterMap_cons_some hrefund, List.map_cons, amountOf_request h hR,
        ih fun q hq => hall q (List.mem_cons_of_mem _ hq)]
      congr 1
      omega
  rw [hrows]
  intro p hp
  have hp' := List.mem_filter.mp hp
  exact ⟨hp'.1, by simpa using (of_decide_eq_true hp'.2).2⟩

/-- Rows posted for different refunds take no more than the refunds together. -/
theorem negativeSum_le {s : Race} (hc : ChargesOk s) (h : RefundsOk s) {ch : StripeCharge}
    (hch : ch ∈ s.db.charges.rows) : negativeSum ch.id s.db.folio ≤ ch.amount := by
  refine le_trans ?_ (hc.bounded ch hch)
  rw [negativeSum_eq_sum h, refundedOn_eq_sum h]
  apply Finset.sum_le_sum_of_subset_of_nonneg
  · intro r hr
    rw [List.mem_toFinset, List.mem_filterMap] at hr
    obtain ⟨p, hp, hrefund⟩ := hr
    obtain ⟨hp, hkey⟩ := List.mem_filter.mp hp
    obtain ⟨hcharge, hneg⟩ := of_decide_eq_true hkey
    obtain ⟨R, hR, hreq, hcharge', -⟩ := refund_of_negative h hp hneg
    obtain ⟨ch', hch', hid, hintent, -⟩ := h.charge R hR
    have hsame : ch' = ch := List.inj_on_of_nodup_map s.db.charges.nodup hch' hch
      (hid.trans (hcharge'.symm.trans hcharge))
    rw [List.mem_toFinset, List.mem_map]
    refine ⟨R, ?_, Option.some.inj (hreq.symm.trans hrefund)⟩
    rw [hsame] at hintent
    simp [hR, hintent]
  · intro r hr _
    rw [List.mem_toFinset, List.mem_map] at hr
    obtain ⟨R, hR, rfl⟩ := hr
    have hR' := List.mem_of_mem_filter hR
    rw [amountOf_request h hR']
    exact refunds_nonneg hc h R hR'

theorem bookedOnce_of_sound {job : ℕ → Job} {s : Race} (h : Sound job s) : BookedOnce job s := by
  have hle : ∀ r, (rowsFor r s.db.folio).length ≤ 1 := by
    intro r
    rw [length_rowsFor]
    exact List.nodup_iff_count_le_one.mp h.refunds.once r
  refine ⟨fun R _ => hle R.request, ?_, fun ch hch => negativeSum_le h.charges h.refunds hch⟩
  intro R hR hsettled
  obtain ⟨p, hp, hrefund⟩ := h.phases.settled R hR hsettled
  have hmem : p ∈ rowsFor R.request s.db.folio := by simp [rowsFor, hp, hrefund]
  have hpos := List.length_pos_of_mem hmem
  have hone := hle R.request
  omega

theorem refunds_booked_once {job : ℕ → Job} {s₀ s : Race} (h₀ : s₀.Fresh)
    (hr : Race.Reach job (Timely job) s₀ s) : BookedOnce job s := by
  have hsound : Sound job s := by
    induction hr with
    | refl => exact sound_fresh h₀
    | tail _ ha hstep ih => exact sound_step ih ha hstep
  exact bookedOnce_of_sound hsound

namespace Demo

def charge : StripeCharge :=
  ⟨40, 1, 1000, some 400, "pi_1", "pm_1", 5000, "EUR", .succeeded, none⟩

/-- A charge of 50.00 without refunds. -/
def paid : Race where
  db := { paymentsDb with
    charges := ⟨[charge], by decide⟩
    folio := [⟨400, 1000, 5000, "Stripe card payment", 40, none⟩] }
  stripe := fun _ => ⟨5000, 0⟩
  refunds := []
  phase := fun _ => .ready

theorem paid_fresh : paid.Fresh := by
  refine ⟨fun _ => rfl, rfl, by decide, ?_, ?_⟩
  · intro ch hch
    rw [show ch = charge from List.mem_singleton.mp hch]
    exact ⟨by decide, .inr ⟨rfl, rfl⟩⟩
  · intro ch hch ch' hch' _
    rw [show ch = charge from List.mem_singleton.mp hch,
      show ch' = charge from List.mem_singleton.mp hch']

/-- A request that refunds 20.00, and deliveries of its event. -/
def job : ℕ → Job
  | 0 => .refund true 401 1000 40 (some 20)
  | _ => .webhook 402 0

def refund20 : RefundPlan := ⟨charge, 2000⟩

def planned : Race := paid.setPhase 0 (.planned refund20)

def accepted : Race := planned.accept 0 refund20

theorem plan_step : Step job paid 0 planned :=
  .plan rfl rfl (by decide +kernel)

theorem accept_step : Step job planned 0 accepted :=
  .accept rfl (by decide)

/-- A request has nothing to wait for. -/
theorem timely_request (s : Race) : Timely job s 0 := by
  intro folioId r hjob
  cases hjob

theorem reach_accepted : Race.Reach job (Timely job) paid accepted :=
  .tail (.tail .refl (timely_request _) plan_step) (timely_request _) accept_step

/-- The webhook runs before the request has committed. -/
def reading : Race := accepted.setPhase 1 (.reconciling charge 2000)

def reconciled : Race := reading.post 1 402 0 "Stripe refund (webhook)" charge 2000

def bothBooked : Race := reconciled.post 0 401 0 "Stripe refund" refund20.charge refund20.amount

theorem read_step : Step job accepted 1 reading :=
  .read rfl rfl (List.mem_singleton_self _) rfl (by decide)

theorem reconcile_step : Step job reading 1 reconciled := .reconcile rfl rfl

theorem book_step : Step job reconciled 0 bothBooked := .book rfl rfl

end Demo

/-- The request commits, and the webhook finds its refund booked. -/
theorem refunds_booked_once_demo :
    Demo.paid.Fresh ∧ BookedOnce Demo.job
      ((Demo.accepted.post 0 401 0 "Stripe refund" Demo.charge 2000).setPhase 1 .finished) := by
  refine ⟨Demo.paid_fresh, refunds_booked_once Demo.paid_fresh (.tail (.tail Demo.reach_accepted
    (Demo.timely_request _) (.book rfl rfl)) ?_ (.ignore rfl rfl (List.mem_singleton_self _) rfl
      (by decide)))⟩
  intro folioId r hjob
  cases hjob
  refine ⟨fun _ _ => .inl rfl, fun ch amount hphase => ?_⟩
  cases hphase

/-- The webhook of a refund of 20.00 is processed between the acceptance and the commit of
the request: both post the refund. -/
theorem refund_booked_twice : ∃ job s₀ s, Race.Fresh s₀ ∧
    Race.Reach job (fun _ _ => True) s₀ s ∧ ¬ BookedOnce job s := by
  refine ⟨Demo.job, Demo.paid, Demo.bothBooked, Demo.paid_fresh, ?_, ?_⟩
  · exact .tail (.tail (.tail (.tail (.tail .refl trivial Demo.plan_step) trivial
      Demo.accept_step) trivial Demo.read_step) trivial Demo.reconcile_step) trivial Demo.book_step
  · intro h
    have hone := h.once _ (List.mem_singleton_self _)
    exact absurd hone (by decide)

end OpenPms.Payments
