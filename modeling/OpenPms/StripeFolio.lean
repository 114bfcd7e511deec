import OpenPms.StripePayments

/-!
The folio against Stripe's books. Under what Stripe guarantees of its answers, the rows of
each charge add up to what was captured less what was refunded, as long as every intent
succeeds at once in a currency with two minor digits and Stripe refunds no charge a second
time on its own: the status of the charge lets only one refund through.
-/
namespace OpenPms.Payments

open KeyedTable

/-- The sum of the folio rows that belong to a charge. -/
def folioSum (chargeId : UUID) (folio : List FolioPosting) : ℤ :=
  ((folio.filter fun p => p.charge = chargeId).map (·.amount)).sum

theorem folioSum_append (chargeId : UUID) (folio : List FolioPosting) (p : FolioPosting) :
    folioSum chargeId (folio ++ [p]) =
      folioSum chargeId folio + if p.charge = chargeId then p.amount else 0 := by
  by_cases h : p.charge = chargeId
  · simp [folioSum, h]
  · simp [folioSum, h]

theorem folioSum_eq_zero {chargeId : UUID} {folio : List FolioPosting}
    (h : ∀ p ∈ folio, p.charge ≠ chargeId) : folioSum chargeId folio = 0 := by
  have hnil : folio.filter (fun p => p.charge = chargeId) = [] :=
    List.filter_eq_nil_iff.mpr (by simpa using h)
  simp [folioSum, hnil]

/-! The invariant -/

/-- The folio mirrors Stripe; a charge that is still succeeded has nothing refunded. -/
structure Mirrored (s : System) : Prop where
  sum : ∀ ch ∈ s.db.charges.rows, folioSum ch.id s.db.folio =
    (s.stripe ch.stripeChargeId).captured - (s.stripe ch.stripeChargeId).refunded
  untouched : ∀ ch ∈ s.db.charges.rows, ch.status = .succeeded →
    s.stripe ch.stripeChargeId = ⟨ch.amount, 0⟩
  posted : ∀ p ∈ s.db.folio, ∃ ch ∈ s.db.charges.rows, ch.id = p.charge
  intent : ∀ ch ∈ s.db.charges.rows, ∀ ch' ∈ s.db.charges.rows,
    ch.stripeChargeId = ch'.stripeChargeId → ch.id = ch'.id

theorem mirrored_start {db : PaymentsDb} (hcharges : db.charges.rows = [])
    (hfolio : db.folio = []) : Mirrored ⟨db, fun _ => ⟨0, 0⟩⟩ where
  sum := by simp [hcharges]
  untouched := by simp [hcharges]
  posted := by simp [hfolio]
  intent := by simp [hcharges]

/-- An identifier that neither Stripe nor a charge knows. -/
def FreshIntent (s : System) (id : String) : Prop :=
  s.stripe id = ⟨0, 0⟩ ∧ ∀ ch ∈ s.db.charges.rows, ch.stripeChargeId ≠ id

/-- A new charge whose rows, if any, add up to what Stripe has captured for it. -/
theorem mirrored_insert {s : System} (h : Mirrored s) {row : StripeCharge}
    {posted : List FolioPosting} {intent : Intent} (hrow : s.db.charges.find row.id = none)
    (hfresh : FreshIntent s row.stripeChargeId) (hcharge : ∀ p ∈ posted, p.charge = row.id)
    (hsum : folioSum row.id posted = intent.captured - intent.refunded)
    (huntouched : row.status = .succeeded → intent = ⟨row.amount, 0⟩) :
    Mirrored ⟨{ s.db with charges := s.db.charges.insert row, folio := s.db.folio ++ posted },
      Function.update s.stripe row.stripeChargeId intent⟩ := by
  have hmem : ∀ ch, ch ∈ (s.db.charges.insert row).rows ↔ ch ∈ s.db.charges.rows ∨ ch = row :=
    fun ch => Table.mem_insert hrow
  have hold : ∀ ch ∈ s.db.charges.rows, ch.id ≠ row.id := fun ch hch hid =>
    Table.find_eq_none.mp hrow ch hch hid
  constructor
  · intro ch hch
    rcases (hmem ch).mp hch with hch | rfl
    · have hother : folioSum ch.id posted = 0 := by
        refine folioSum_eq_zero fun p hp => ?_
        rw [hcharge p hp]
        exact (hold ch hch).symm
      have happend : folioSum ch.id (s.db.folio ++ posted) =
          folioSum ch.id s.db.folio + folioSum ch.id posted := by
        simp [folioSum]
      simp only [happend, hother, Function.update_of_ne (hfresh.2 ch hch), add_zero]
      exact h.sum ch hch
    · have hnew : folioSum ch.id s.db.folio = 0 := by
        refine folioSum_eq_zero fun p hp hid => ?_
        obtain ⟨ch', hch', hid'⟩ := h.posted p hp
        exact hold ch' hch' (hid'.trans hid)
      have happend : folioSum ch.id (s.db.folio ++ posted) =
          folioSum ch.id s.db.folio + folioSum ch.id posted := by
        simp [folioSum]
      simp only [happend, hnew, Function.update_self, zero_add]
      exact hsum
  · intro ch hch hstatus
    rcases (hmem ch).mp hch with hch | rfl
    · simp only [Function.update_of_ne (hfresh.2 ch hch)]
      exact h.untouched ch hch hstatus
    · simp only [Function.update_self]
      exact huntouched hstatus
  · intro p hp
    rcases List.mem_append.mp hp with hp | hp
    · obtain ⟨ch, hch, hid⟩ := h.posted p hp
      exact ⟨ch, (hmem ch).mpr (.inl hch), hid⟩
    · exact ⟨row, (hmem row).mpr (.inr rfl), (hcharge p hp).symm⟩
  · intro ch hch ch' hch' hpi
    rcases (hmem ch).mp hch with hold | hnew
    · rcases (hmem ch').mp hch' with hold' | hnew'
      · exact h.intent ch hold ch' hold' hpi
      · exact absurd (hnew' ▸ hpi) (hfresh.2 ch hold)
    · rcases (hmem ch').mp hch' with hold' | hnew'
      · exact absurd (hnew ▸ hpi.symm) (hfresh.2 ch' hold')
      · rw [hnew, hnew']

theorem mem_bookRefund {folioId : UUID} {refund : Option ℕ} {description : String}
    {ch c : StripeCharge} {amount : ℤ} {db : PaymentsDb} :
    c ∈ (bookRefund folioId refund description ch amount db).charges.rows ↔
      (c ∈ db.charges.rows ∧ c.id ≠ ch.id) ∨ ∃ u, db.charges.find ch.id = some u ∧
        c = u.withStatus (if ch.amount ≤ amount then .refunded else .partialRefund) :=
  @Table.mem_update _ _ _ _ db.charges ch.id _ (StripeCharge.id_withStatus _) c

/-- A refund of a charge, given back by Stripe and booked. -/
theorem mirrored_bookRefund {s : System} (h : Mirrored s) {ch : StripeCharge} {amount : ℤ}
    (hch : ch ∈ s.db.charges.rows) (folioId : UUID) (refund : Option ℕ) (description : String) :
    Mirrored ⟨bookRefund folioId refund description ch amount s.db,
      giveBack s.stripe ch.stripeChargeId amount⟩ := by
  have hfind : s.db.charges.find ch.id = some ch := Table.find_of_mem hch
  -- every row is an old one, with its status replaced if it is the refunded charge
  have hmem : ∀ c ∈ (bookRefund folioId refund description ch amount s.db).charges.rows,
      (c ∈ s.db.charges.rows ∧ c.id ≠ ch.id) ∨
        (c.id = ch.id ∧ c.stripeChargeId = ch.stripeChargeId ∧ c.status ≠ .succeeded) := by
    intro c hc
    rcases mem_bookRefund.mp hc with hc | ⟨u, hu, rfl⟩
    · exact .inl hc
    · rw [hfind] at hu
      cases hu
      refine .inr ⟨rfl, rfl, ?_⟩
      unfold StripeCharge.withStatus
      dsimp only
      split <;> simp
  have hother : ∀ c ∈ s.db.charges.rows, c.id ≠ ch.id → c.stripeChargeId ≠ ch.stripeChargeId :=
    fun c hc hid hpi => hid (h.intent c hc ch hch hpi)
  have hfolio : (bookRefund folioId refund description ch amount s.db).folio =
      s.db.folio ++ [⟨folioId, ch.bookingId, -amount, description, ch.id, refund⟩] := rfl
  constructor
  · intro c hc
    simp only [hfolio, folioSum_append, giveBack]
    rcases hmem c hc with ⟨hc, hid⟩ | ⟨hid, hpi, -⟩
    · rw [if_neg hid.symm, Function.update_of_ne (hother c hc hid), add_zero]
      exact h.sum c hc
    · rw [hid, hpi, if_pos rfl, Function.update_self, h.sum ch hch]
      ring
  · intro c hc hstatus
    rcases hmem c hc with ⟨hc, hid⟩ | ⟨-, -, hnot⟩
    · simp only [giveBack, Function.update_of_ne (hother c hc hid)]
      exact h.untouched c hc hstatus
    · exact absurd hstatus hnot
  · intro p hp
    have hkept : ∀ c ∈ s.db.charges.rows,
        ∃ c' ∈ (bookRefund folioId refund description ch amount s.db).charges.rows, c'.id = c.id := by
      intro c hc
      by_cases hid : c.id = ch.id
      · exact ⟨_, mem_bookRefund.mpr (.inr ⟨ch, hfind, rfl⟩), hid.symm⟩
      · exact ⟨c, mem_bookRefund.mpr (.inl ⟨hc, hid⟩), rfl⟩
    rw [hfolio] at hp
    rcases List.mem_append.mp hp with hp | hp
    · obtain ⟨c, hc, hid⟩ := h.posted p hp
      obtain ⟨c', hc', hid'⟩ := hkept c hc
      exact ⟨c', hc', hid'.trans hid⟩
    · rw [List.mem_singleton] at hp
      subst hp
      exact hkept ch hch
  · intro c hc c' hc' hpi
    rcases hmem c hc with ⟨hc, hid⟩ | ⟨hid, hpi₁, -⟩
    · rcases hmem c' hc' with ⟨hc', -⟩ | ⟨-, hpi', -⟩
      · exact h.intent c hc c' hc' hpi
      · exact absurd (hpi.trans hpi') (hother c hc hid)
    · rcases hmem c' hc' with ⟨hc', hid'⟩ | ⟨hid', -, -⟩
      · exact absurd (hpi.symm.trans hpi₁) (hother c' hc' hid')
      · exact hid.trans hid'.symm

/-- What Stripe gives back on an intent without a charge does not show here. -/
theorem mirrored_giveBack {s : System} (h : Mirrored s) {id : String} {amount : ℤ}
    (hid : (∀ ch ∈ s.db.charges.rows, ch.stripeChargeId ≠ id) ∨ amount = 0) :
    Mirrored { s with stripe := giveBack s.stripe id amount } := by
  have hsame : ∀ ch ∈ s.db.charges.rows,
      giveBack s.stripe id amount ch.stripeChargeId = s.stripe ch.stripeChargeId := by
    intro ch hch
    by_cases heq : ch.stripeChargeId = id
    · rcases hid with hnone | rfl
      · exact absurd heq (hnone ch hch)
      · simp [giveBack, heq]
    · simp [giveBack, heq]
  constructor
  · intro ch hch
    simp only [hsame ch hch]
    exact h.sum ch hch
  · intro ch hch hstatus
    simp only [hsame ch hch]
    exact h.untouched ch hch hstatus
  · exact h.posted
  · exact h.intent

/-! Events -/

theorem failIf_ok {c : Prop} [Decidable c] {detail : String} {statusCode : ℕ} {u : Unit} :
    failIf c detail statusCode = .ok u ↔ ¬ c := by
  unfold failIf
  by_cases hc : c <;> simp [hc]

theorem orError_ok {α : Type} {detail : String} {statusCode : ℕ} {x : Option α} {a : α} :
    orError detail statusCode x = .ok a ↔ x = some a := by
  cases x <;> simp [orError]

/-- What Stripe guarantees: intents are new, identifiers drawn for rows too, and a
charge.refunded event reports a refund of at most what was captured. -/
def PaymentEvent.Valid (s : System) : PaymentEvent → Prop
  | .charge _ rowId _ failedId _ _ _ _ answer => s.db.charges.find rowId = none ∧
      FreshIntent s (match answer with
        | .error _ => failedId
        | .intent id _ => id)
  | .refund _ _ _ _ _ _ => True
  | .webhook _ piId more => 0 ≤ more ∧ 0 < (s.stripe piId).refunded + more ∧
      (s.stripe piId).refunded + more ≤ (s.stripe piId).captured

/-- An intent that Stripe answers with has succeeded, has an identifier and is in a currency
with two minor digits; a refund that Stripe makes on its own finds its charge without a
refund. -/
def PaymentEvent.Mirrorable (digits : String → ℕ) (s : System) : PaymentEvent → Prop
  | .charge secret _ _ _ bookingId pm amount _ answer =>
      ∀ plan id status, chargePlan secret bookingId pm amount s.db = .ok plan →
        answer = .intent id status →
          status = .succeeded ∧ id ≠ "" ∧ digits plan.currency.toUpper = 2
  | .refund _ _ _ _ _ _ => True
  | .webhook _ piId more => ∀ ch, lookupStripeChargeForWebhook piId s.db = some ch →
      more = 0 ∨ ch.status = .succeeded

theorem refundPlan_ok {secret : Bool} {bookingId chargeRowId : UUID} {amount : Option ℚ}
    {db : PaymentsDb} {plan : RefundPlan}
    (h : refundPlan secret bookingId chargeRowId amount db = .ok plan) :
    plan.charge ∈ db.charges.rows ∧ plan.charge.status = .succeeded ∧
      plan.amount ≤ plan.charge.amount ∧ (0 < plan.amount ∨ plan.amount = plan.charge.amount) := by
  simp only [refundPlan, Except.bind_eq_ok, failIf_ok, orError_ok] at h
  obtain ⟨-, -, -, -, ch, hch, -, -, -, hfailed, -, hrefunded, -, hpartial, -, hpositive, -,
    hwithin, -, -, hret⟩ := h
  cases hret
  refine ⟨(Table.find_eq_some.mp hch).1, ?_, not_lt.mp hwithin, ?_⟩
  · cases hstatus : ch.status with
    | succeeded => rfl
    | failed => exact absurd hstatus hfailed
    | refunded => exact absurd hstatus hrefunded
    | partialRefund => exact absurd hstatus hpartial
  · cases amount with
    | none => exact .inr rfl
    | some a =>
      left
      simpa using hpositive

theorem mirrored_charge {s : System} (h : Mirrored s) {rowId folioId : UUID} {id : String}
    {label : Option String} {plan : ChargePlan} (hrow : s.db.charges.find rowId = none)
    (hfresh : FreshIntent s id) :
    Mirrored ⟨recordCharge rowId folioId id label plan s.db,
      capture s.stripe id .succeeded plan.amount⟩ := by
  refine mirrored_insert h hrow hfresh ?_ ?_ fun _ => rfl
  · intro p hp
    rw [List.mem_singleton.mp hp]
  · simp [folioSum]

theorem mirrored_failure {s : System} (h : Mirrored s) {rowId : UUID} {failedId message : String}
    {plan : ChargePlan} (hrow : s.db.charges.find rowId = none) (hfresh : FreshIntent s failedId) :
    Mirrored { s with db := recordFailure rowId failedId message plan s.db } := by
  -- Stripe has captured nothing for the identifier, before and after
  have hstripe : s.stripe = Function.update s.stripe failedId ⟨0, 0⟩ := by
    rw [← hfresh.1, Function.update_eq_self]
  have hfolio : recordFailure rowId failedId message plan s.db =
      { recordFailure rowId failedId message plan s.db with folio := s.db.folio ++ [] } := by
    rw [List.append_nil]
    rfl
  rw [hstripe, hfolio]
  exact mirrored_insert h hrow hfresh (by simp) (by simp [folioSum]) nofun

/-- A webhook that finds the charge succeeded books what Stripe has refunded. -/
theorem mirrored_webhook {s : System} (h : Mirrored s) {folioId : UUID} {piId : String} {more : ℤ}
    (hpos : 0 < (s.stripe piId).refunded + more)
    (hle : (s.stripe piId).refunded + more ≤ (s.stripe piId).captured)
    (hmeets : ∀ ch, lookupStripeChargeForWebhook piId s.db = some ch →
      more = 0 ∨ ch.status = .succeeded) : Mirrored (chargeRefunded folioId piId more s) := by
  simp only [chargeRefunded, reconcileRefundFromWebhook]
  cases hlookup : lookupStripeChargeForWebhook piId s.db with
  | none =>
    refine mirrored_giveBack h (.inl fun ch hch heq => ?_)
    have hnone := List.find?_eq_none.mp hlookup ch hch
    simp [heq] at hnone
  | some ch =>
    have hch : ch ∈ s.db.charges.rows := List.mem_of_find?_eq_some hlookup
    have hpi : ch.stripeChargeId = piId := by simpa using List.find?_some hlookup
    by_cases hstatus : ch.status = .succeeded
    · have huntouched := h.untouched ch hch hstatus
      rw [hpi] at huntouched
      rw [huntouched] at hpos hle
      have hamount : reconciledAmount ch (some (giveBack s.stripe piId more piId).refunded) =
          some more := by
        simp only [zero_add] at hpos hle
        simp [reconciledAmount, hstatus, giveBack, huntouched, Option.filter, hpos, hle]
      simp only [hamount]
      rw [← hpi]
      exact mirrored_bookRefund h hch _ _ _
    · have hamount : reconciledAmount ch (some (giveBack s.stripe piId more piId).refunded) =
          none := by
        simp [reconciledAmount, hstatus]
      simp only [hamount]
      exact mirrored_giveBack h (.inr ((hmeets ch hlookup).resolve_right hstatus))

theorem mirrored_apply {digits : String → ℕ} {s : System} (h : Mirrored s) {e : PaymentEvent}
    (hvalid : e.Valid s) (hmeets : e.Mirrorable digits s) : Mirrored (e.apply s) := by
  cases e with
  | charge secret rowId folioId failedId bookingId pm amount label answer =>
    obtain ⟨hrow, hfresh⟩ := hvalid
    simp only [PaymentEvent.apply, chargeBooking]
    split
    · exact h
    · next plan hplan =>
      cases answer with
      | error message => exact mirrored_failure h hrow hfresh
      | intent id status =>
        obtain ⟨rfl, hid, -⟩ := hmeets plan id status hplan rfl
        simp only [if_neg hid]
        exact mirrored_charge h hrow hfresh
  | refund secret folioId bookingId chargeRowId amount willing =>
    simp only [PaymentEvent.apply, refundStripeCharge]
    split
    · exact h
    · next plan hplan =>
      split
      · exact mirrored_bookRefund h (refundPlan_ok hplan).1 _ _ _
      · exact h
  | webhook folioId piId more =>
    obtain ⟨-, hpos, hle⟩ := hvalid
    exact mirrored_webhook h hpos hle hmeets

/-! Runs -/

/-- The systems that a tenant without charges gets to by events of which each is allowed
in the state it meets. -/
inductive Run (allowed : System → PaymentEvent → Prop) : System → Prop
  | start (db : PaymentsDb) (hcharges : db.charges.rows = []) (hfolio : db.folio = []) :
      Run allowed ⟨db, fun _ => ⟨0, 0⟩⟩
  | step {s : System} (e : PaymentEvent) (hs : Run allowed s) (he : allowed s e) :
      Run allowed (e.apply s)

/-- Stripe has captured nothing for a charge in another currency. -/
def TwoDigits (digits : String → ℕ) (s : System) : Prop :=
  ∀ ch ∈ s.db.charges.rows, digits ch.currency = 2 ∨ s.stripe ch.stripeChargeId = ⟨0, 0⟩

theorem twoDigits_insert {digits : String → ℕ} {s : System} (h : TwoDigits digits s)
    {row : StripeCharge} {posted : List FolioPosting} {intent : Intent}
    (hfresh : FreshIntent s row.stripeChargeId)
    (hrow : digits row.currency = 2 ∨ intent = ⟨0, 0⟩) :
    TwoDigits digits
      ⟨{ s.db with charges := s.db.charges.insert row, folio := s.db.folio ++ posted },
        Function.update s.stripe row.stripeChargeId intent⟩ := by
  intro ch hch
  rcases Table.mem_insert_iff.mp hch with hch | ⟨-, rfl⟩
  · simp only [Function.update_of_ne (hfresh.2 ch hch)]
    exact h ch hch
  · simp only [Function.update_self]
    exact hrow

/-- A refund is of a charge that something was captured for, or of no charge. -/
theorem twoDigits_giveBack {digits : String → ℕ} {s : System} {db : PaymentsDb} {id : String}
    {amount : ℤ} (h : TwoDigits digits s)
    (hrows : ∀ ch ∈ db.charges.rows, ∃ ch' ∈ s.db.charges.rows,
      ch'.currency = ch.currency ∧ ch'.stripeChargeId = ch.stripeChargeId)
    (hid : s.stripe id ≠ ⟨0, 0⟩ ∨ amount = 0) :
    TwoDigits digits ⟨db, giveBack s.stripe id amount⟩ := by
  intro ch hch
  obtain ⟨ch', hch', hcurrency, hpi⟩ := hrows ch hch
  have hbefore := h ch' hch'
  rw [hcurrency, hpi] at hbefore
  refine hbefore.imp_right fun hzero => ?_
  by_cases heq : ch.stripeChargeId = id
  · subst heq
    rw [(hid.resolve_left (not_not.mpr hzero) : amount = 0)]
    simp [giveBack, hzero]
  · simpa [giveBack, heq] using hzero

theorem twoDigits_bookRefund {ch : StripeCharge} {amount : ℤ} {db : PaymentsDb} {folioId : UUID}
    {refund : Option ℕ} {description : String} :
    ∀ c ∈ (bookRefund folioId refund description ch amount db).charges.rows,
      ∃ c' ∈ db.charges.rows, c'.currency = c.currency ∧ c'.stripeChargeId = c.stripeChargeId := by
  intro c hc
  rcases mem_bookRefund.mp hc with ⟨hc, -⟩ | ⟨u, hu, rfl⟩
  · exact ⟨c, hc, rfl, rfl⟩
  · exact ⟨u, (Table.find_eq_some.mp hu).1, rfl, rfl⟩

theorem twoDigits_apply {digits : String → ℕ} {s : System} (h : TwoDigits digits s)
    (hmirrored : Mirrored s) {e : PaymentEvent} (hvalid : e.Valid s)
    (hmeets : e.Mirrorable digits s) : TwoDigits digits (e.apply s) := by
  cases e with
  | charge secret rowId folioId failedId bookingId pm amount label answer =>
    obtain ⟨-, hfresh⟩ := hvalid
    simp only [PaymentEvent.apply, chargeBooking]
    split
    · exact h
    · next plan hplan =>
      cases answer with
      | error message =>
        intro ch hch
        rcases Table.mem_insert_iff.mp hch with hch | ⟨-, rfl⟩
        · exact h ch hch
        · exact .inr hfresh.1
      | intent id status =>
        obtain ⟨rfl, hid, hdigits⟩ := hmeets plan id status hplan rfl
        simp only [if_neg hid]
        exact twoDigits_insert h hfresh (.inl hdigits)
  | refund secret folioId bookingId chargeRowId amount willing =>
    simp only [PaymentEvent.apply, refundStripeCharge]
    split
    · exact h
    · next plan hplan =>
      split
      · next hwilling =>
        refine twoDigits_giveBack h twoDigits_bookRefund ?_
        obtain ⟨hch, hstatus, -, hpositive⟩ := refundPlan_ok hplan
        have huntouched := hmirrored.untouched _ hch hstatus
        by_cases hzero : plan.amount = 0
        · exact .inr hzero
        · refine .inl fun hnothing => hzero ?_
          rw [huntouched, Intent.mk.injEq] at hnothing
          have hwithin := hwilling.2
          rw [huntouched] at hwithin
          rcases hpositive with hpositive | hall
          · simp only [hnothing.1] at hwithin
            omega
          · exact hall.trans hnothing.1
      · exact h
  | webhook folioId piId more =>
    obtain ⟨-, hpos, hle⟩ := hvalid
    have hsome : s.stripe piId ≠ ⟨0, 0⟩ := by
      intro hzero
      rw [hzero] at hpos hle
      simp only at hpos hle
      omega
    simp only [PaymentEvent.apply, chargeRefunded, reconcileRefundFromWebhook]
    have hkept : ∀ ch ∈ s.db.charges.rows, ∃ ch' ∈ s.db.charges.rows,
        ch'.currency = ch.currency ∧ ch'.stripeChargeId = ch.stripeChargeId :=
      fun ch hch => ⟨ch, hch, rfl, rfl⟩
    split
    · exact twoDigits_giveBack h hkept (.inl hsome)
    · split
      · exact twoDigits_giveBack h hkept (.inl hsome)
      · exact twoDigits_giveBack h twoDigits_bookRefund (.inl hsome)

/-- The rows of a charge come to what Stripe has captured and not refunded, whatever number
of `digits` the minor units of the currencies have. -/
theorem folio_mirrors_stripe {digits : String → ℕ} {s : System}
    (hs : Run (fun s e => e.Valid s ∧ e.Mirrorable digits s) s) :
    ∀ ch ∈ s.db.charges.rows, (folioSum ch.id s.db.folio : ℚ) / 100 =
      (s.stripe ch.stripeChargeId).kept (digits ch.currency) := by
  have hinv : Mirrored s ∧ TwoDigits digits s := by
    induction hs with
    | start db hcharges hfolio =>
      exact ⟨mirrored_start hcharges hfolio, fun ch hch => by simp [hcharges] at hch⟩
    | step e _ he ih =>
      exact ⟨mirrored_apply ih.1 he.1 he.2, twoDigits_apply ih.2 ih.1 he.1 he.2⟩
  intro ch hch
  have hsum := hinv.1.sum ch hch
  unfold Intent.kept
  rcases hinv.2 ch hch with htwo | hzero
  · rw [hsum, htwo]
    push_cast
    norm_num
  · rw [hsum, hzero]
    norm_num

namespace Demo

/-- One booking of a connected property with a saved card. -/
def paymentsDb : PaymentsDb where
  bookings := ⟨[⟨1000, 1, 5, none, none, .confirmed, "direct", 0, none, []⟩], by decide⟩
  paymentMethods := ⟨[⟨30, 1, none, "pm_1"⟩], by decide⟩
  currency p := if p = 1 then some "EUR" else none
  connected p := p = 1
  charges := .empty
  folio := []

def empty : System := ⟨paymentsDb, fun _ => ⟨0, 0⟩⟩

/-- A charge of 50.00. -/
def charged (status : IntentStatus) : PaymentEvent :=
  .charge true 40 400 "failed_1" 1000 30 50 none (.intent "pi_1" status)

/-- The minor digits of the currencies. -/
def digits (currency : String) : ℕ := if currency = "JPY" then 0 else 2

/-- The same property in Japan. -/
def yen : System := ⟨{ paymentsDb with currency := fun _ => some "JPY" }, fun _ => ⟨0, 0⟩⟩

/-- A charge of 1000. -/
def chargedYen : PaymentEvent :=
  .charge true 40 400 "failed_1" 1000 30 1000 none (.intent "pi_1" .succeeded)

/-- Stripe refunds on its own and sends the event. -/
def refundedByStripe (folioId : UUID) (more : ℤ) : PaymentEvent := .webhook folioId "pi_1" more

def afterCharge : System := (charged .succeeded).apply empty

def afterRefund : System := (refundedByStripe 401 1000).apply afterCharge

theorem valid_charged (status : IntentStatus) : (charged status).Valid empty :=
  ⟨rfl, rfl, by simp [empty, paymentsDb, Table.empty]⟩

theorem valid_chargedYen : chargedYen.Valid yen :=
  ⟨rfl, rfl, by simp [yen, paymentsDb, Table.empty]⟩

theorem mirrorable_charged : (charged .succeeded).Mirrorable digits empty := by
  rintro plan id status hplan heq
  have hcurrency : (chargePlan true 1000 30 50 empty.db).map (·.currency) = .ok "eur" := by
    decide
  rw [hplan] at hcurrency
  cases heq
  refine ⟨rfl, by decide, ?_⟩
  rw [show plan.currency = "eur" from Except.ok.inj hcurrency]
  decide +kernel

theorem valid_refunded : (refundedByStripe 401 1000).Valid afterCharge := by
  simp only [refundedByStripe, PaymentEvent.Valid]
  decide +kernel

theorem mirrorable_refunded : (refundedByStripe 401 1000).Mirrorable digits afterCharge := by
  intro ch hch
  have hstatus : (lookupStripeChargeForWebhook "pi_1" afterCharge.db).map (·.status) =
      some .succeeded := by decide
  rw [hch] at hstatus
  exact .inr (Option.some.inj hstatus)

end Demo

/-- A charge of 50.00 and a refund of 10.00 at Stripe. -/
theorem folio_mirrors_stripe_demo :
    (∃ ch, Demo.afterRefund.db.charges.find 40 = some ch ∧ ch.status = .partialRefund) ∧
    ∀ ch ∈ Demo.afterRefund.db.charges.rows,
      (folioSum ch.id Demo.afterRefund.db.folio : ℚ) / 100 =
        (Demo.afterRefund.stripe ch.stripeChargeId).kept (Demo.digits ch.currency) := by
  refine ⟨?_, folio_mirrors_stripe (.step _ (.step _ (.start Demo.paymentsDb rfl rfl) ?_) ?_)⟩
  · rw [← Option.map_eq_some_iff (f := StripeCharge.status)]
    decide +kernel
  · exact ⟨Demo.valid_charged _, Demo.mirrorable_charged⟩
  · exact ⟨Demo.valid_refunded, Demo.mirrorable_refunded⟩

/-- A second refund of 15.00 at Stripe is not booked: the folio shows 40.00, Stripe has
kept 25.00. An intent that waits for its customer is booked as paid. And a charge of 1000 yen
takes a hundred times as many. -/
theorem folio_off_stripe :
    (∃ s, Run (fun s e => e.Valid s) s ∧ ∃ ch ∈ s.db.charges.rows,
      (folioSum ch.id s.db.folio : ℚ) / 100 = 40 ∧
        (s.stripe ch.stripeChargeId).kept (Demo.digits ch.currency) = 25) ∧
    (∃ s, Run (fun s e => e.Valid s) s ∧ ∃ ch ∈ s.db.charges.rows,
      (folioSum ch.id s.db.folio : ℚ) / 100 = 50 ∧
        (s.stripe ch.stripeChargeId).kept (Demo.digits ch.currency) = 0) ∧
    ∃ s, Run (fun s e => e.Valid s) s ∧ ∃ ch ∈ s.db.charges.rows,
      (folioSum ch.id s.db.folio : ℚ) / 100 = 1000 ∧
        (s.stripe ch.stripeChargeId).kept (Demo.digits ch.currency) = 100000 := by
  refine ⟨?_, ?_, ?_⟩
  · refine ⟨(Demo.refundedByStripe 402 1500).apply Demo.afterRefund,
      .step _ (.step _ (.step _ (.start Demo.paymentsDb rfl rfl) (Demo.valid_charged _))
        Demo.valid_refunded) ?_, ?_⟩
    · simp only [Demo.refundedByStripe, PaymentEvent.Valid]
      decide +kernel
    · decide +kernel
  · refine ⟨(Demo.charged .requiresAction).apply Demo.empty,
      .step _ (.start Demo.paymentsDb rfl rfl) (Demo.valid_charged _), ?_⟩
    decide +kernel
  · refine ⟨Demo.chargedYen.apply Demo.yen, .step _ (.start _ rfl rfl) Demo.valid_chargedYen, ?_⟩
    decide +kernel

end OpenPms.Payments
