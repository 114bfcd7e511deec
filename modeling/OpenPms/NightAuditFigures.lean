import OpenPms.PatchErrors

/-!
The figures of the night audit. Its session does not flush before a query, so that the
counts read the rows as the last flush has left them, while the no-shows are marked on the
loaded objects.
-/
namespace OpenPms

open KeyedTable Transaction Prog

/-! Counts -/

/-- The first night; NULL without lines. -/
def minDate (b : Booking) : Option ℤ := (b.lines.map (·.date)).min?

def maxDate (b : Booking) : Option ℤ := (b.lines.map (·.date)).max?

def activeExclude : List BookingStatus := [.cancelled, .noShow]

def countArrivals (propertyId : UUID) (auditDate : ℤ) (db : Db) : ℕ :=
  db.bookings.rows.countP fun b => b.propertyId = propertyId && b.status ∉ activeExclude &&
    minDate b = some auditDate

/-- The last night of a departure was the day before. -/
def countDepartures (propertyId : UUID) (auditDate : ℤ) (db : Db) : ℕ :=
  db.bookings.rows.countP fun b => b.propertyId = propertyId && b.status ∉ activeExclude &&
    maxDate b = some (auditDate - 1)

def countNoShows (propertyId : UUID) (auditDate : ℤ) (db : Db) : ℕ :=
  db.bookings.rows.countP fun b => b.propertyId = propertyId && b.status = .noShow &&
    minDate b = some auditDate

/-! The audit of a property -/

/-- The branches of `patch_booking` that flush the session: notes alone, a cancellation and
a date change. -/
def patchFlushes (b : Booking) (body : BookingPatchRequest) : Bool :=
  if body = {} then false
  else if { body with notes := none } = ({} : BookingPatchRequest) then true
  else if cancels body then b.status ≠ .cancelled
  else (body.checkIn ≠ none || body.checkOut ≠ none) &&
    requestedBounds b body ≠ (some (stayBounds b.lines).1, some (stayBounds b.lines).2)

/-- One booking: `rows` is what the queries of the session read. -/
def auditBooking (env : Env) (bid : UUID) (rows : Db) : Tx (ℕ × Db) := do
  let found ← select fun db => db.bookings.find bid
  let marked ← markNoShow env bid
  let objects ← select fun db => db
  pure (marked, if found.any (patchFlushes · noShowRequest) then objects else rows)

def auditBookings (env : Env) : List UUID → Db → Tx (ℕ × Db)
  | [], rows => pure (0, rows)
  | bid :: rest, rows => do
    let (marked, rows) ← auditBooking env bid rows
    let (more, rows) ← auditBookings env rest rows
    pure (marked + more, rows)

structure AuditFigures where
  autoNoShows : ℕ
  arrivals : ℕ
  departures : ℕ
  noShows : ℕ
  deriving DecidableEq

/-- `none` when the property is missing; the figures are those of yesterday. -/
def nightAuditProperty (env : Env) (order : RowOrder) (propertyId : UUID) (todayLocal : ℤ) :
    Tx (Option AuditFigures) := do
  let rows ← select fun db => db
  if propertyId ∉ rows.properties then pure none
  else do
    let bookingIds := order.arrange (overdueConfirmed propertyId todayLocal rows)
    let (marked, rows) ← auditBookings env bookingIds rows
    let yesterday := todayLocal - 1
    pure (some ⟨marked, countArrivals propertyId yesterday rows,
      countDepartures propertyId yesterday rows, countNoShows propertyId yesterday rows⟩)

/-! What the session writes and what its queries read -/

section Audit
variable {db db' : Db} {env : Env} {order : RowOrder} {propertyId : UUID} {todayLocal : ℤ}

/-- A no-show takes none of the branches that flush. -/
theorem patchFlushes_noShow (b : Booking) : patchFlushes b noShowRequest = false := by
  have hcancel : cancels noShowRequest = false := by decide
  have hne : noShowRequest ≠ {} := by decide
  have hnotes : { noShowRequest with notes := none } ≠ ({} : BookingPatchRequest) := by decide
  rw [patchFlushes, if_neg hne, if_neg hnotes, hcancel]
  simp [noShowRequest]

/-- The objects are those of the no-show part, and the rows stay as they are. -/
theorem exec_auditBooking_ok {bid : UUID} {rows : Db} {r : ℕ × Db} :
    (auditBooking env bid rows).exec db = (.ok r, db') ↔
      ∃ n, (markNoShow env bid).exec db = (.ok n, db') ∧ r = (n, rows) := by
  have hnever : ∀ found : Option Booking,
      found.any (patchFlushes · noShowRequest) = false := by
    intro found
    cases found with
    | none => rfl
    | some b => exact patchFlushes_noShow b
  simp only [auditBooking, exec_bind_ok, exec_select, exec_pure, Prod.mk.injEq, Except.ok.injEq,
    hnever, Bool.false_eq_true, if_false]
  constructor
  · rintro ⟨_, _, ⟨rfl, rfl⟩, n, db₁, hmark, _, _, ⟨-, rfl⟩, rfl, rfl⟩
    exact ⟨n, hmark, rfl⟩
  · rintro ⟨n, hmark, rfl⟩
    exact ⟨_, db, ⟨rfl, rfl⟩, n, db', hmark, _, _, ⟨rfl, rfl⟩, rfl, rfl⟩

theorem exec_auditBookings_ok {ids : List UUID} {rows : Db} {r : ℕ × Db} :
    (auditBookings env ids rows).exec db = (.ok r, db') ↔
      ∃ n, (markNoShows env ids).exec db = (.ok n, db') ∧ r = (n, rows) := by
  induction ids generalizing db rows r with
  | nil =>
    simp only [auditBookings, markNoShows, exec_pure, Prod.mk.injEq, Except.ok.injEq]
    constructor
    · rintro ⟨rfl, rfl⟩
      exact ⟨0, ⟨rfl, rfl⟩, rfl⟩
    · rintro ⟨n, ⟨rfl, rfl⟩, rfl⟩
      exact ⟨rfl, rfl⟩
  | cons bid rest ih =>
    simp only [auditBookings, markNoShows, exec_bind_ok, exec_pure, Prod.mk.injEq,
      Except.ok.injEq, exec_auditBooking_ok]
    constructor
    · rintro ⟨_, db₁, ⟨n, hmark, rfl⟩, ⟨more, rows'⟩, db₂, hrest, rfl, rfl⟩
      obtain ⟨m, hmore, heq⟩ := ih.mp hrest
      cases heq
      exact ⟨n + more, ⟨n, db₁, hmark, more, db₂, hmore, rfl, rfl⟩, rfl⟩
    · rintro ⟨_, ⟨n, db₁, hmark, m, db₂, hmore, rfl, rfl⟩, rfl⟩
      exact ⟨(n, rows), db₁, ⟨n, hmark, rfl⟩, (m, rows), db₂, ih.mpr ⟨m, hmore, rfl⟩, rfl, rfl⟩

/-- A confirmed booking that the audit comes upon is marked, or ends it. -/
theorem markNoShow_bookings {b : Booking} {n : ℕ} (hfind : db.bookings.find b.id = some b)
    (hconf : b.status = .confirmed) (h : (markNoShow env b.id).exec db = (.ok n, db')) :
    db'.bookings = db.bookings.update b.id (setStatus .noShow) (id_setStatus _) := by
  rw [markNoShow, exec_tryCatch,
    exec_bind_congr (exec_patchNoShow asksNoShow_noShowRequest hfind hconf), bind_assoc] at h
  split at h
  · next hexec =>
    cases h
    obtain ⟨_, db₁, hrel, hrest⟩ := exec_bind_ok.mp hexec
    have hbookings : db₁.bookings = db.bookings := @find_releaseLoaded db (some b.lines) _ _ hrel
    simp only [exec_bind_ok, exec_updateBookingRow_ok] at hrest
    obtain ⟨_, _, ⟨_, _, ⟨-, rfl⟩, _, _, hnotes, hnone⟩, hret⟩ := hrest
    cases hnotes
    cases hnone
    cases hret
    rw [← hbookings]
    rfl
  · next e db₁ hexec =>
    split at h
    · exfalso
      rcases exec_bind_error.mp hexec with hrel | ⟨_, db₁, -, hrest⟩
      · rcases exec_release_error hrel with ⟨_, he⟩ | ⟨_, he⟩ <;> cases he
      · rw [bind_assoc] at hrest
        rcases exec_bind_error.mp hrest with hupd | ⟨_, _, -, hret⟩
        · cases (exec_updateBookingRow_error hupd).1
        · cases hret
    · cases h

/-- The bookings after the audit: those of the list are no-shows. -/
def marked (ids : List UUID) (b : Booking) : Booking :=
  if b.id ∈ ids then setStatus .noShow b else b

theorem markNoShows_bookings {ids : List UUID} {n : ℕ} (hnd : ids.Nodup)
    (hconf : AllConfirmed db ids) (h : (markNoShows env ids).exec db = (.ok n, db')) :
    db'.bookings.rows = db.bookings.rows.map (marked ids) := by
  induction ids generalizing db n with
  | nil =>
    cases h
    have hid : marked [] = id := funext fun b => by simp [marked]
    rw [hid, List.map_id]
  | cons bid rest ih =>
    obtain ⟨hfresh, hrestnd⟩ := List.nodup_cons.mp hnd
    obtain ⟨b, hfind, hbconf⟩ := hconf bid (List.mem_cons_self ..)
    obtain ⟨hmem, rfl⟩ := Table.find_eq_some.mp hfind
    simp only [markNoShows, exec_bind_ok, exec_pure, Prod.mk.injEq] at h
    obtain ⟨_, db₁, hmark, _, db₂, hrest, -, rfl⟩ := h
    have hfirst := markNoShow_bookings hfind hbconf hmark
    have hconf₁ : AllConfirmed db₁ rest := by
      intro id hid
      have hne : id ≠ b.id := fun heq => hfresh (heq ▸ hid)
      rw [hfirst, Table.find_update_of_ne hne]
      exact hconf id (List.mem_cons_of_mem _ hid)
    rw [ih hrestnd hconf₁ hrest, hfirst]
    simp only [Table.update, List.map_map]
    refine List.map_congr_left fun c _ => ?_
    by_cases hid : c.id = b.id
    · have hkeep : b.id ∉ rest := hfresh
      simp [marked, hid, hkeep, id_setStatus]
    · simp [marked, hid]

/-! The counts before and after -/

theorem countP_eq_iff {α : Type} {p q : α → Bool} {l : List α} (h : ∀ a ∈ l, q a → p a) :
    l.countP p = l.countP q ↔ ∀ a ∈ l, p a → q a := by
  induction l with
  | nil => simp
  | cons a rest ih =>
    have hrest : ∀ b ∈ rest, q b → p b := fun b hb => h b (List.mem_cons_of_mem _ hb)
    have hle := List.countP_mono_left hrest
    have hhead := h a (List.mem_cons_self ..)
    rw [List.forall_mem_cons, ← ih hrest, List.countP_cons, List.countP_cons]
    cases hp : p a <;> cases hq : q a
    · simp
    · simp [hp, hq] at hhead
    · simp
      omega
    · simp

/-- The audit writes what its no-show part writes and counts what was there before. -/
theorem exec_nightAudit_ok {figures : AuditFigures} :
    (nightAuditProperty env order propertyId todayLocal).exec db =
      (.ok (some figures), db') ↔
    propertyId ∈ db.properties ∧ ∃ n,
      (autoNoShowConfirmedPastCheckin env order propertyId todayLocal).exec db = (.ok n, db') ∧
      figures = ⟨n, countArrivals propertyId (todayLocal - 1) db,
        countDepartures propertyId (todayLocal - 1) db,
        countNoShows propertyId (todayLocal - 1) db⟩ := by
  simp only [autoNoShowConfirmedPastCheckin, exec_bind_ok, exec_select, Prod.mk.injEq,
    Except.ok.injEq]
  unfold nightAuditProperty
  rw [exec_bind, exec_select]
  simp only
  split
  · next hmissing =>
    refine iff_of_false ?_ fun h => hmissing h.1
    rintro ⟨⟩
  · next hknown =>
    simp only [exec_bind_ok, exec_auditBookings_ok, exec_pure, Prod.mk.injEq, Except.ok.injEq,
      Option.some.injEq]
    constructor
    · rintro ⟨_, db₁, ⟨n, hmarks, rfl⟩, rfl, rfl⟩
      exact ⟨not_not.mp hknown, n, ⟨_, _, ⟨rfl, rfl⟩, hmarks⟩, rfl⟩
    · rintro ⟨-, n, ⟨_, _, ⟨rfl, rfl⟩, hmarks⟩, rfl⟩
      exact ⟨_, db', ⟨n, hmarks, rfl⟩, rfl, rfl⟩

/-- The no-show part marks exactly the overdue bookings. -/
theorem autoNoShow_bookings {n : ℕ}
    (h : (autoNoShowConfirmedPastCheckin env order propertyId todayLocal).exec db =
      (.ok n, db')) :
    db'.bookings.rows =
      db.bookings.rows.map (marked (overdueConfirmed propertyId todayLocal db)) := by
  simp only [autoNoShowConfirmedPastCheckin, exec_bind_ok, exec_select, Prod.mk.injEq,
    Except.ok.injEq] at h
  obtain ⟨ids, _, ⟨hids, rfl⟩, hmarks⟩ := h
  have hperm := order.perm (overdueConfirmed propertyId todayLocal db)
  rw [hids] at hperm
  have hconf : AllConfirmed db ids := fun id hid => mem_overdueConfirmed (hperm.mem_iff.mp hid)
  rw [markNoShows_bookings (hperm.nodup_iff.mpr nodup_overdueConfirmed) hconf hmarks]
  refine List.map_congr_left fun b _ => ?_
  simp only [marked, hperm.mem_iff]

/-- The ids of the list are those of the overdue bookings themselves. -/
theorem id_mem_overdue {b : Booking} (hb : b ∈ db.bookings.rows) :
    b.id ∈ overdueConfirmed propertyId todayLocal db ↔ b.propertyId = propertyId ∧
      b.status = .confirmed ∧ ∃ ln ∈ b.lines, ln.date < todayLocal := by
  have hfind : db.bookings.find b.id = some b := Table.find_eq_some.mpr ⟨hb, rfl⟩
  simp only [overdueConfirmed, List.mem_map, List.mem_filter, Bool.and_eq_true,
    decide_eq_true_eq, List.any_eq_true]
  constructor
  · rintro ⟨b', ⟨hb', ⟨hprop, hconf⟩, hdue⟩, hid⟩
    have hfind' : db.bookings.find b.id = some b' := Table.find_eq_some.mpr ⟨hb', hid⟩
    cases hfind.symm.trans hfind'
    exact ⟨hprop, hconf, hdue⟩
  · rintro ⟨hprop, hconf, hdue⟩
    exact ⟨b, ⟨hb, ⟨hprop, hconf⟩, hdue⟩, rfl⟩

theorem lt_of_minDate {b : Booking} {d : ℤ} (h : minDate b = some d) (hlt : d < todayLocal) :
    ∃ ln ∈ b.lines, ln.date < todayLocal := by
  obtain ⟨ln, hln, rfl⟩ := List.mem_map.mp (List.min?_mem h)
  exact ⟨ln, hln, hlt⟩

theorem lt_of_maxDate {b : Booking} {d : ℤ} (h : maxDate b = some d) (hlt : d < todayLocal) :
    ∃ ln ∈ b.lines, ln.date < todayLocal := by
  obtain ⟨ln, hln, rfl⟩ := List.mem_map.mp (List.max?_mem h)
  exact ⟨ln, hln, hlt⟩

theorem marked_of_mem {ids : List UUID} {b : Booking} (h : b.id ∈ ids) :
    marked ids b = setStatus .noShow b := if_pos h

theorem marked_of_notMem {ids : List UUID} {b : Booking} (h : b.id ∉ ids) :
    marked ids b = b := if_neg h

section Marked
variable (hrows : db'.bookings.rows =
  db.bookings.rows.map (marked (overdueConfirmed propertyId todayLocal db)))
include hrows

/-- A count that leaves no-shows out loses the overdue bookings. -/
theorem excluded_eq_iff (night : Booking → Option ℤ) (d : ℤ)
    (hlt : ∀ b, night b = some d → ∃ ln ∈ b.lines, ln.date < todayLocal) :
    (db.bookings.rows.countP fun b => b.propertyId = propertyId && b.status ∉ activeExclude &&
        night b = some d) =
      (db'.bookings.rows.countP fun b => b.propertyId = propertyId && b.status ∉ activeExclude &&
        night b = some d) ↔
      ∀ b ∈ db.bookings.rows, b.propertyId = propertyId → b.status = .confirmed →
        night b ≠ some d := by
  rw [hrows, List.countP_map, countP_eq_iff]
  · refine forall₂_congr fun b hb => ?_
    by_cases hid : b.id ∈ overdueConfirmed propertyId todayLocal db
    · obtain ⟨hprop, hconf, -⟩ := (id_mem_overdue hb).mp hid
      simp [marked_of_mem hid, hprop, hconf, activeExclude, setStatus]
    · have hnot : b.propertyId = propertyId → b.status = .confirmed → night b ≠ some d :=
        fun hprop hconf hn => hid ((id_mem_overdue hb).mpr ⟨hprop, hconf, hlt b hn⟩)
      simp only [Function.comp_apply, marked_of_notMem hid, imp_self, true_iff]
      exact hnot
  · intro b hb
    by_cases hid : b.id ∈ overdueConfirmed propertyId todayLocal db
    · simp [marked_of_mem hid, activeExclude, setStatus]
    · simp [marked_of_notMem hid]

/-- The count of no-shows gains them. -/
theorem noShows_eq_iff :
    countNoShows propertyId (todayLocal - 1) db = countNoShows propertyId (todayLocal - 1) db' ↔
      ∀ b ∈ db.bookings.rows, b.propertyId = propertyId → b.status = .confirmed →
        minDate b ≠ some (todayLocal - 1) := by
  rw [eq_comm, countNoShows, countNoShows, hrows, List.countP_map, countP_eq_iff]
  · refine forall₂_congr fun b hb => ?_
    by_cases hid : b.id ∈ overdueConfirmed propertyId todayLocal db
    · obtain ⟨hprop, hconf, -⟩ := (id_mem_overdue hb).mp hid
      simp [marked_of_mem hid, hprop, hconf, setStatus, minDate]
    · have hnot : b.propertyId = propertyId → b.status = .confirmed →
          minDate b ≠ some (todayLocal - 1) := fun hprop hconf hn =>
        hid ((id_mem_overdue hb).mpr ⟨hprop, hconf, lt_of_minDate hn (by omega)⟩)
      simp only [Function.comp_apply, marked_of_notMem hid, imp_self, true_iff]
      exact hnot
  · intro b hb
    by_cases hid : b.id ∈ overdueConfirmed propertyId todayLocal db
    · obtain ⟨hprop, hconf, -⟩ := (id_mem_overdue hb).mp hid
      simp [hconf]
    · simp [marked_of_notMem hid]

end Marked

/-- The figures are the counts of the state that the audit commits exactly when no confirmed
booking of the property was to arrive yesterday, or to leave then. -/
theorem audit_figures_iff {figures : AuditFigures}
    (h : (nightAuditProperty env order propertyId todayLocal).exec db =
      (.ok (some figures), db')) :
    (figures.arrivals = countArrivals propertyId (todayLocal - 1) db' ∧
      figures.departures = countDepartures propertyId (todayLocal - 1) db' ∧
      figures.noShows = countNoShows propertyId (todayLocal - 1) db') ↔
    ∀ b ∈ db.bookings.rows, b.propertyId = propertyId → b.status = .confirmed →
      minDate b ≠ some (todayLocal - 1) ∧ maxDate b ≠ some (todayLocal - 2) := by
  obtain ⟨-, n, hmarks, rfl⟩ := exec_nightAudit_ok.mp h
  have hrows := autoNoShow_bookings hmarks
  have hyesterday : todayLocal - 1 - 1 = todayLocal - 2 := by omega
  have harrivals := excluded_eq_iff hrows minDate (todayLocal - 1)
    fun b hb => lt_of_minDate hb (by omega)
  have hdepartures := excluded_eq_iff hrows maxDate (todayLocal - 1 - 1)
    fun b hb => lt_of_maxDate hb (by omega)
  rw [hyesterday] at hdepartures
  have hnoShows := noShows_eq_iff hrows
  unfold countArrivals countDepartures
  rw [harrivals, hyesterday, hdepartures, hnoShows]
  constructor
  · rintro ⟨hmin, hmax, -⟩ b hb hprop hconf
    exact ⟨hmin b hb hprop hconf, hmax b hb hprop hconf⟩
  · intro hall
    exact ⟨fun b hb hprop hconf => (hall b hb hprop hconf).1,
      fun b hb hprop hconf => (hall b hb hprop hconf).2,
      fun b hb hprop hconf => (hall b hb hprop hconf).1⟩

end Audit

/-! The audits after two nights were sold -/

namespace Demo

/-- Two confirmed bookings for the night of day 3. -/
def twoGuests : Db := run (.empty 0) twoTypes

def audit (todayLocal : ℤ) : Tx (Option AuditFigures) :=
  nightAuditProperty (env 0 0 0) ⟨id, fun _ => .refl _⟩ 1 todayLocal

end Demo

/-- Three days later neither the first nor the last night is near. -/
theorem audit_figures_late : ∃ figures db', (Demo.audit 7).exec Demo.twoGuests =
    (.ok (some figures), db') ∧ figures = ⟨2, 0, 0, 0⟩ ∧
    figures.arrivals = countArrivals 1 (7 - 1) db' ∧
    figures.departures = countDepartures 1 (7 - 1) db' ∧
    figures.noShows = countNoShows 1 (7 - 1) db' := by
  have hfst : ((Demo.audit 7).exec Demo.twoGuests).1 = .ok (some ⟨2, 0, 0, 0⟩) := by
    decide +kernel
  have hall : ∀ b ∈ Demo.twoGuests.bookings.rows, b.propertyId = 1 → b.status = .confirmed →
      minDate b ≠ some (7 - 1) ∧ maxDate b ≠ some (7 - 2) := by decide +kernel
  generalize Demo.twoGuests = db at hfst hall
  obtain ⟨db', hexec⟩ : ∃ db', (Demo.audit 7).exec db = (.ok (some ⟨2, 0, 0, 0⟩), db') :=
    ⟨_, Prod.ext hfst rfl⟩
  exact ⟨_, db', hexec, rfl, (audit_figures_iff hexec).mpr hall⟩

/-- The day after the night both bookings are marked and still reported as arrivals; one day
later they are reported as departures. -/
theorem audit_figures_stale :
    Reachable anyOp Demo.twoGuests ∧
    ((Demo.audit 4).exec Demo.twoGuests).1 = .ok (some ⟨2, 2, 0, 0⟩) ∧
      countArrivals 1 3 ((Demo.audit 4).exec Demo.twoGuests).2 = 0 ∧
      countNoShows 1 3 ((Demo.audit 4).exec Demo.twoGuests).2 = 2 ∧
    ((Demo.audit 5).exec Demo.twoGuests).1 = .ok (some ⟨2, 0, 2, 0⟩) ∧
      countDepartures 1 4 ((Demo.audit 5).exec Demo.twoGuests).2 = 0 := by
  have hreach : Reachable apiOp (run (.empty 0) (Demo.twoTypes ++ [])) :=
    Demo.twoTypes_reachable (by simp)
  rw [List.append_nil] at hreach
  exact ⟨hreach.mono fun _ _ _ => trivial, by decide +kernel, by decide +kernel,
    by decide +kernel, by decide +kernel, by decide +kernel⟩

end OpenPms
