import OpenPms.Basic

/-!
Booking lifecycle status transitions.
Linear: pending, confirmed, checked_in, checked_out.
Branches: pending or confirmed to cancelled; confirmed to no_show.
Terminal: cancelled, no_show, checked_out; only same-status updates leave them be.
-/
namespace OpenPms

/-- The values that the check constraint of the status column admits. -/
inductive BookingStatus where
  | pending
  | confirmed
  | checkedIn
  | checkedOut
  | cancelled
  | noShow
  deriving DecidableEq, Repr

namespace BookingStatus

def text : BookingStatus → String
  | pending => "pending"
  | confirmed => "confirmed"
  | checkedIn => "checked_in"
  | checkedOut => "checked_out"
  | cancelled => "cancelled"
  | noShow => "no_show"

def known : List BookingStatus :=
  [pending, confirmed, checkedIn, checkedOut, cancelled, noShow]

def ofText (s : String) : Option BookingStatus := known.find? fun st => st.text = s

/-- Cancelled and no-show bookings hold no inventory. -/
def Active (s : BookingStatus) : Prop := s ≠ cancelled ∧ s ≠ noShow

instance (s : BookingStatus) : Decidable s.Active :=
  inferInstanceAs (Decidable (_ ∧ _))

def Terminal (s : BookingStatus) : Prop := s = cancelled ∨ s = noShow ∨ s = checkedOut

instance (s : BookingStatus) : Decidable s.Terminal :=
  inferInstanceAs (Decidable (_ ∨ _ ∨ _))

/-- Statuses with nights still to come: what a room may not be taken from. -/
def Live (s : BookingStatus) : Prop := s = pending ∨ s = confirmed ∨ s = checkedIn

instance (s : BookingStatus) : Decidable s.Live :=
  inferInstanceAs (Decidable (_ ∨ _ ∨ _))

def allowed : BookingStatus → List BookingStatus
  | pending => [confirmed, cancelled]
  | confirmed => [checkedIn, cancelled, noShow]
  | checkedIn => [checkedOut]
  | _ => []

theorem ofText_text (s : BookingStatus) : ofText s.text = some s := by
  cases s <;> decide

theorem ofText_eq_some {t : String} {s : BookingStatus} (h : ofText t = some s) :
    s.text = t := by
  simpa using List.find?_some h

end BookingStatus

def normalizeBookingStatus (status : String) : String := Text.lower (Text.strip status)

theorem normalizeBookingStatus_text (s : BookingStatus) :
    normalizeBookingStatus s.text = s.text := by
  cases s <;> decide

/-- Why a status change is refused; the messages are built from these data. -/
inductive TransitionError where
  | unknownTarget (target : String)
  | unrecognizedCurrent
  | fromTerminal (old new : BookingStatus)
  | notAllowed (old new : BookingStatus)
  deriving DecidableEq, Repr

/-- Raises unless old to new is allowed; the same normalized status always is. -/
def validateStatusTransition (oldStatus newStatus : String) : Except TransitionError Unit :=
  let o := normalizeBookingStatus oldStatus
  let n := normalizeBookingStatus newStatus
  if o = n then .ok ()
  else
    match BookingStatus.ofText n with
    | none => .error (.unknownTarget newStatus)
    | some new =>
      match BookingStatus.ofText o with
      | none => .error .unrecognizedCurrent
      | some old =>
        if old.Terminal then .error (.fromTerminal old new)
        else if new ∈ old.allowed then .ok ()
        else .error (.notAllowed old new)

/-- From a persisted status the target is known, and unchanged or allowed. -/
theorem validateStatusTransition_ok {old : BookingStatus} {newStatus : String}
    (h : validateStatusTransition old.text newStatus = .ok ()) :
    ∃ new : BookingStatus, normalizeBookingStatus newStatus = new.text ∧
      (new = old ∨ new ∈ old.allowed) := by
  simp only [validateStatusTransition, normalizeBookingStatus_text] at h
  split at h
  · next heq => exact ⟨old, heq.symm, .inl rfl⟩
  · rw [BookingStatus.ofText_text] at h
    split at h
    · cases h
    · next new hnew =>
      refine ⟨new, (BookingStatus.ofText_eq_some hnew).symm, .inr ?_⟩
      simp only at h
      split at h
      · cases h
      · split at h
        · next hmem => exact hmem
        · cases h

end OpenPms
