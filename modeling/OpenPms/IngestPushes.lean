import OpenPms.ChannexLedger
import OpenPms.RatesAdmin
import OpenPms.Statements

/-!
The availability push after an ingest. It is for the room type of the payload, while a
cancelled or modified revision gives back the nights of the room type that the booking has.
-/
namespace OpenPms

open KeyedTable Transaction Prog

/-- What the webhook's task schedules once the ingest is committed. -/
def ChannexIngestResult.push (out : ChannexIngestResult) : Option Ari.Push :=
  match out.roomTypeId with
  | none => none
  | some rt =>
    if out.scheduleAvailabilityPush = true ∧ out.dateStrs ≠ [] then
      some (.availability out.propertyId rt out.dateStrs)
    else none

/-- The push is for the room type and takes the date. -/
def Pushed (out : ChannexIngestResult) (rt : UUID) (d : ℤ) : Prop :=
  ∃ property dates, out.push = some (.availability property rt dates) ∧ d ∈ dates

/-- A revision that releases nights finds a booking of its own room type. -/
structure SameType (kind : RevisionKind) (b : Booking) (rt : UUID) : Prop where
  cancelled : kind = .cancelled → b.status ≠ .cancelled →
    ∀ old, lineRoomTypes b.lines = [old] → old = rt
  modified : kind = .modified → ∀ old, lineRoomTypes b.lines = [old] → old = rt

/-- So it is for every revision that is not skipped. -/
def FindsSameType (link : ChannexPropertyLink) (payload : ChannexBookingRevisionPayload)
    (db : Db) : Prop :=
  Claimable db (Text.strip payload.id) → ∀ b, findByExternal (externalKey payload) db = some b →
    ∀ rt, mappedRoomType link payload db = some rt → SameType (revisionKind payload) b rt

/-- Every row that is another one afterwards is pushed. -/
def CoversChanges (out : ChannexIngestResult) (db db' : Db) : Prop :=
  ∀ rt d, db'.ledger.row rt d ≠ db.ledger.row rt d → Pushed out rt d

theorem row_shift_ne_iff {l : Ledger} {rt₀ rt : UUID} {nights : List ℤ} {n d : ℤ} (hn : n ≠ 0) :
    (l.shift rt₀ nights n).row rt d ≠ l.row rt d ↔
      rt = rt₀ ∧ d ∈ nights ∧ (l.row rt d).isSome := by
  unfold Ledger.shift
  rw [Ledger.adjust_row]
  cases l.row rt d with
  | none => simp
  | some c =>
    by_cases hkey : rt = rt₀ ∧ d ∈ nights
    · simp only [Option.map_some, if_pos hkey, ne_eq, Option.some.injEq, Option.isSome_some,
        and_true, iff_true_right hkey]
      intro heq
      have hcount := congrArg Counts.bookedRooms heq
      simp only at hcount
      omega
    · simp only [Option.map_some, if_neg hkey, ne_eq, not_true_eq_false, Option.isSome_some,
        and_true, false_iff]
      exact hkey

section Branches
variable {rev : Revision} {r : ChannexIngestResult} {db db' : Db}

theorem pushed_applied {dates : List ℤ} {confirmed cancelled : Option UUID} {rt : UUID} {d : ℤ} :
    Pushed (rev.applied dates confirmed cancelled) rt d ↔ rt = rev.roomTypeId ∧ d ∈ dates := by
  unfold Pushed ChannexIngestResult.push Revision.applied
  constructor
  · rintro ⟨property, pushed, hpush, hd⟩
    simp only [true_and] at hpush
    split at hpush
    · cases hpush
      exact ⟨rfl, mem_sortedDates.mp hd⟩
    · cases hpush
  · rintro ⟨rfl, hd⟩
    have hne : sortedDates dates ≠ [] := List.ne_nil_of_mem (mem_sortedDates.mpr hd)
    exact ⟨_, _, if_pos ⟨rfl, hne⟩, mem_sortedDates.mpr hd⟩

/-- A cancellation that is applied pushes the nights that it gives back. -/
theorem cancelled_result (h : (ingestCancelled rev).exec db = (.ok r, db'))
    (hsuccess : r.success = true) : ∃ b, findByExternal rev.external db = some b ∧
      (b.status = .cancelled ∧ db'.ledger = db.ledger ∨
        b.status ≠ .cancelled ∧ db'.ledger = db.ledger.released b.lines ∧
        (∀ old, lineRoomTypes b.lines = [old] →
          db.ledger.Releasable old b.nights ∧ r = rev.applied b.nights none (some b.id))) := by
  simp only [ingestCancelled, exec_bind_ok, exec_select, Prod.mk.injEq, Except.ok.injEq] at h
  obtain ⟨found, _, ⟨hfound, rfl⟩, h⟩ := h
  cases hb : found with
  | none =>
    rw [hb] at h
    cases h
    cases hsuccess
  | some b =>
    rw [hb] at h hfound
    refine ⟨b, hfound, ?_⟩
    simp only at h
    split at h
    · next hstatus =>
      simp only [exec_bind_ok, exec_updateBookingRow_ok] at h
      obtain ⟨_, _, hrel, _, _, ⟨-, rfl⟩, _, _, hfin, hret⟩ := h
      obtain ⟨rfl, hreleasable⟩ := exec_release_ledger hrel
      cases hfin
      cases hret
      refine .inr ⟨hstatus, rfl, fun old hold => ⟨hreleasable old hold, ?_⟩⟩
      have hlength : (lineRoomTypes b.lines).length = 1 := by
        rw [hold]
        rfl
      rw [if_pos hlength]
      rfl
    · next hstatus =>
      cases h
      exact .inl ⟨not_not.mp hstatus, rfl⟩

theorem cancelled_covers_iff (h : (ingestCancelled rev).exec db = (.ok r, db'))
    (hsuccess : r.success = true) : CoversChanges r db db' ↔
      ∀ b, findByExternal rev.external db = some b → SameType .cancelled b rev.roomTypeId := by
  obtain ⟨b, hfound, hcases⟩ := cancelled_result h hsuccess
  have hone : (∀ b', findByExternal rev.external db = some b' →
      SameType .cancelled b' rev.roomTypeId) ↔ SameType .cancelled b rev.roomTypeId := by
    simp only [hfound, Option.some.injEq, forall_eq']
  rw [hone]
  rcases hcases with ⟨hstatus, hledger⟩ | ⟨hstatus, hledger, hresult⟩
  · refine iff_of_true ?_ ⟨fun _ hnot => absurd hstatus hnot, nofun⟩
    intro rt d hne
    rw [hledger] at hne
    exact absurd rfl hne
  by_cases hsingle : ∃ old, lineRoomTypes b.lines = [old]
  · obtain ⟨old, hold⟩ := hsingle
    obtain ⟨hreleasable, rfl⟩ := hresult old hold
    rw [db.ledger.released_of_single hold] at hledger
    unfold CoversChanges
    simp only [hledger, row_shift_ne_iff (show (-1 : ℤ) ≠ 0 by decide), pushed_applied]
    constructor
    · intro hall
      obtain ⟨d, hd⟩ := List.exists_mem_of_ne_nil _ (nights_ne_nil_of_single hold)
      obtain ⟨c, hc, -⟩ := hreleasable d hd
      have hsame := (hall old d ⟨rfl, hd, by rw [hc]; rfl⟩).1
      exact ⟨fun _ _ old' hold' => by
        rw [hold, List.singleton_inj] at hold'
        rw [← hold', hsame], nofun⟩
    · rintro hsame rt d ⟨rfl, hd, -⟩
      exact ⟨hsame.cancelled rfl hstatus rt hold, hd⟩
  · have hmixed : ∀ old, lineRoomTypes b.lines ≠ [old] := fun old hold => hsingle ⟨old, hold⟩
    refine iff_of_true ?_ ⟨fun _ _ old hold => absurd hold (hmixed old), nofun⟩
    intro rt d hne
    rw [hledger, db.ledger.released_of_mixed hmixed] at hne
    exact absurd rfl hne

/-- A modification that is applied pushes the old nights and the new ones together. -/
theorem modified_result {env : Env} (h : (ingestModified env rev).exec db = (.ok r, db'))
    (hsuccess : r.success = true) : ∃ b, findByExternal rev.external db = some b ∧
      r = rev.applied (sortedDates b.nights ++ rev.nights) none none := by
  simp only [ingestModified, exec_bind_ok, exec_select, Prod.mk.injEq, Except.ok.injEq] at h
  obtain ⟨found, _, ⟨hfound, rfl⟩, h⟩ := h
  cases hb : found with
  | none =>
    rw [hb] at h
    cases h
    cases hsuccess
  | some b =>
    rw [hb] at h hfound
    simp only at h
    split at h
    · simp only [exec_bind_ok, exec_pure, Prod.mk.injEq] at h
      obtain ⟨_, _, -, _, _, -, _, _, -, _, _, -, _, _, -, _, _, -, _, _, -, _, _, -, _, _, -,
        _, _, -, _, _, -, hret, -⟩ := h
      exact ⟨b, hfound, (Except.ok.inj hret).symm⟩
    · cases h
      cases hsuccess

theorem modified_covers_iff {env : Env} (hpriced : rev.Priced)
    (h : (ingestModified env rev).exec db = (.ok r, db')) (hsuccess : r.success = true) :
    CoversChanges r db db' ↔
      ∀ b, findByExternal rev.external db = some b → SameType .modified b rev.roomTypeId := by
  obtain ⟨stay, hrt, hnights, hper, htotal⟩ := hpriced.exists_stay
  rcases exec_ingestModified_ok hrt hnights hper htotal h with ⟨hfail, -⟩ | ⟨-, b, old, hmod⟩
  · rw [hsuccess] at hfail
    cases hfail
  obtain ⟨hfound, hold, hreleasable, -, hhotel⟩ := hmod
  obtain ⟨b', hfound', rfl⟩ := modified_result h hsuccess
  obtain rfl : b = b' := Option.some.inj (hfound.symm.trans hfound')
  have hledger : db'.ledger =
      (db.ledger.shift old b.nights (-1)).shift rev.roomTypeId rev.nights 1 := by
    rw [← hrt, ← hnights]
    exact congrArg Hotel.ledger hhotel
  have hone : (∀ b', findByExternal rev.external db = some b' →
      SameType .modified b' rev.roomTypeId) ↔ old = rev.roomTypeId := by
    simp only [hfound, Option.some.injEq, forall_eq']
    constructor
    · intro hsame
      exact hsame.modified rfl old hold
    · rintro rfl
      refine ⟨nofun, fun _ old' hold' => ?_⟩
      rw [hold, List.singleton_inj] at hold'
      exact hold'.symm
  rw [hone]
  unfold CoversChanges
  simp only [hledger, pushed_applied, List.mem_append, mem_sortedDates]
  constructor
  · intro hall
    by_contra hne
    obtain ⟨d, hd⟩ := List.exists_mem_of_ne_nil _ (nights_ne_nil_of_single hold)
    obtain ⟨c, hc, -⟩ := hreleasable d hd
    refine hne (hall old d ?_).1
    have hsecond : ((db.ledger.shift old b.nights (-1)).shift rev.roomTypeId rev.nights 1).row
        old d = (db.ledger.shift old b.nights (-1)).row old d := by
      by_contra hchange
      exact hne ((row_shift_ne_iff one_ne_zero).mp hchange).1
    rw [hsecond]
    exact (row_shift_ne_iff (by decide)).mpr ⟨rfl, hd, by rw [hc]; rfl⟩
  · rintro rfl rt d hne
    by_cases hsecond : ((db.ledger.shift rev.roomTypeId b.nights (-1)).shift rev.roomTypeId
        rev.nights 1).row rt d = (db.ledger.shift rev.roomTypeId b.nights (-1)).row rt d
    · rw [hsecond] at hne
      obtain ⟨hsame, hd, -⟩ := (row_shift_ne_iff (by decide)).mp hne
      exact ⟨hsame, .inl hd⟩
    · obtain ⟨hsame, hd, -⟩ := (row_shift_ne_iff one_ne_zero).mp hsecond
      exact ⟨hsame, .inr hd⟩

/-- A new booking is for the room type of the payload. -/
theorem new_covers {env : Env} (h : (ingestNew env rev).exec db = (.ok r, db')) :
    CoversChanges r db db' := by
  simp only [ingestNew, exec_bind_ok, exec_select, Prod.mk.injEq, Except.ok.injEq] at h
  obtain ⟨found, _, ⟨-, rfl⟩, h⟩ := h
  intro rt d hne
  cases found with
  | some b =>
    cases h
    exact absurd rfl hne
  | none =>
    obtain ⟨_, _, hlock, h⟩ := exec_bind_ok.mp h
    obtain ⟨_, _, hinc, h⟩ := exec_bind_ok.mp h
    obtain ⟨-, rfl⟩ := exec_claim_nights_ok hlock hinc
    have hledger : db'.ledger = db.ledger.shift rev.roomTypeId rev.nights 1 := by
      refine (?_ : Keeps (fun db : Db => db.ledger) _).eq h
      refine keeps_bind (plain_getOrCreateGuest.keeps fun _ hf => hf.ledger) ?_
      rintro ⟨guest, merged⟩
      exact keeps_bind (keeps_modify fun _ => rfl) fun _ =>
        keeps_bind (inserts_insertBooking.keeps fun _ hf => hf.ledger) fun _ =>
          keeps_bind (keeps_modify fun _ => rfl) fun _ => keeps_pure _
    obtain ⟨⟨guest, merged⟩, _, -, h⟩ := exec_bind_ok.mp h
    obtain ⟨_, _, -, h⟩ := exec_bind_ok.mp h
    obtain ⟨_, _, -, h⟩ := exec_bind_ok.mp h
    obtain ⟨_, _, -, h⟩ := exec_bind_ok.mp h
    cases h
    rw [hledger] at hne
    obtain ⟨rfl, hd, -⟩ := (row_shift_ne_iff one_ne_zero).mp hne
    exact pushed_applied.mpr ⟨rfl, hd⟩

theorem applyRevision_covers_iff {env : Env} {kind : RevisionKind} (hpriced : rev.Priced)
    (h : (applyRevision env kind rev).exec db = (.ok r, db')) (hsuccess : r.success = true) :
    CoversChanges r db db' ↔
      ∀ b, findByExternal rev.external db = some b → SameType kind b rev.roomTypeId := by
  unfold applyRevision at h
  rw [exec_tryCatch] at h
  split at h
  · next hexec =>
    cases h
    cases kind with
    | cancelled => exact cancelled_covers_iff hexec hsuccess
    | modified => exact modified_covers_iff hpriced hexec hsuccess
    | new => exact iff_of_true (new_covers hexec) fun _ _ => ⟨nofun, nofun⟩
  · obtain ⟨-, hfail, -⟩ := exec_handleIngestError_ok h
    rw [hsuccess] at hfail
    cases hfail

end Branches

/-- The push of an ingest with success covers every row that it has changed exactly when a
revision that releases nights finds them with the room type of its payload. -/
theorem ingest_push_covers_iff {db db' : Db} {env : Env} {link : ChannexPropertyLink}
    {flat : Option ChannexBookingRevisionPayload} {r : ChannexIngestResult}
    (h : (ingestChannexBooking env link flat).exec db = (.ok r, db')) (hsuccess : r.success = true) :
    CoversChanges r db db' ↔
      ∀ payload, flat = some payload → FindsSameType link payload db := by
  rcases exec_ingest_ok h with ⟨hsame, hcases⟩ | happlied
  · rcases hcases with hfail | ⟨payload, rfl, hskip⟩
    · rw [hsuccess] at hfail
      cases hfail
    · refine iff_of_true ?_ ?_
      · intro rt d hne
        exact absurd (congrArg (fun h : Hotel => h.ledger.row rt d) hsame) hne
      · intro payload' hpayload hclaim
        obtain rfl := Option.some.inj hpayload
        exact (hskip hclaim).elim
  · obtain ⟨payload, rt, ratePlan, ci, co, total, guest, revisions, rfl, hclaim, hmapped, -,
      hlt, hspan, happly⟩ := happlied
    have hiff := applyRevision_covers_iff (priced_revisionOf hlt hspan) happly hsuccess
    have hone : (∀ payload', some payload = some payload' → FindsSameType link payload' db) ↔
        FindsSameType link payload db := by
      simp only [Option.some.injEq, forall_eq']
    refine hiff.trans (Iff.trans ?_ hone.symm)
    simp only [revisionOf, findByExternal_revisions]
    unfold FindsSameType
    generalize revisionKind payload = kind
    constructor
    · intro hall _ b hfound rt' hmapped'
      rw [hmapped] at hmapped'
      obtain rfl := Option.some.inj hmapped'
      exact hall b hfound
    · intro hall b hfound
      exact hall hclaim b hfound rt hmapped

theorem findsSameType_of_rows {link : ChannexPropertyLink}
    {payload : ChannexBookingRevisionPayload} (db : Db) {rt : UUID}
    (hrows : ∀ b ∈ db.bookings.rows, lineRoomTypes b.lines = [rt])
    (hmapped : mappedRoomType link payload db = some rt) : FindsSameType link payload db := by
  intro _ b hfound rt' hmapped'
  have hsame : ∀ old, lineRoomTypes b.lines = [old] → old = rt' := by
    intro old hold
    rw [hrows b (List.mem_of_find?_eq_some hfound), List.singleton_inj] at hold
    exact hold.symm.trans (Option.some.inj (hmapped.symm.trans hmapped'))
  exact ⟨fun _ _ => hsame, fun _ => hsame⟩

/-! A hotel with two room types on Channex -/

namespace Demo

def connectBoth (db : Db) : Db :=
  { db with
    roomTypeMaps := [⟨1, 1, 10, "RT"⟩, ⟨2, 1, 11, "RT2"⟩]
    ratePlanMaps := [⟨1, 1, 5, "RP"⟩, ⟨2, 2, 5, "RP2"⟩] }

/-- A booking of the first type. -/
def firstType : Db :=
  run (.empty 0) (openHotel ++ [addType 11, .createRoom (env 0 0 200) 11 "201" "available",
    .administer connectBoth fun _ => rfl,
    .createBooking (env 1000 0 0) { stay with
      externalBookingId := some "X", checkIn_lt := stay.checkIn_lt, span_le := stay.span_le }])

/-- The guest moves to the second type. -/
def movedRevision : ChannexBookingRevisionPayload :=
  { revision "r1" "modified" with rooms := [⟨some "RT2", some "RP2", .empty, .empty⟩] }

end Demo

/-- The cancellation of a booking of the same type. -/
theorem ingest_push_covers_sold : ∃ r, r.success = true ∧
    (ingestChannexBooking (Demo.env 0 0 0) Demo.link (some (Demo.revision "r1" "cancelled"))).exec
      Demo.sold = (.ok r, (ingestChannexBooking (Demo.env 0 0 0) Demo.link
        (some (Demo.revision "r1" "cancelled"))).transact Demo.sold) ∧
    CoversChanges r Demo.sold ((ingestChannexBooking (Demo.env 0 0 0) Demo.link
      (some (Demo.revision "r1" "cancelled"))).transact Demo.sold) := by
  have hsuccess : ((ingestChannexBooking (Demo.env 0 0 0) Demo.link
      (some (Demo.revision "r1" "cancelled"))).exec Demo.sold).1.toOption.map (·.success) =
        some true := by decide +kernel
  have hrows : ∀ b ∈ Demo.sold.bookings.rows, lineRoomTypes b.lines = [10] := by decide +kernel
  have hmapped : mappedRoomType Demo.link (Demo.revision "r1" "cancelled") Demo.sold = some 10 := by
    decide +kernel
  obtain ⟨r, hexec, hr⟩ := exec_of_success hsuccess
  refine ⟨r, hr, hexec, (ingest_push_covers_iff hexec hr).mpr ?_⟩
  intro payload hpayload
  rw [← Option.some.inj hpayload]
  exact findsSameType_of_rows Demo.sold hrows hmapped

/-- The night of the first type is free again, and only the second type is pushed. -/
theorem moved_booking_not_pushed : ∃ r, r.success = true ∧
    (ingestChannexBooking (Demo.env 0 0 0) Demo.link (some Demo.movedRevision)).exec Demo.firstType =
      (.ok r, (ingestChannexBooking (Demo.env 0 0 0) Demo.link (some Demo.movedRevision)).transact
        Demo.firstType) ∧
    r.push = some (.availability 1 11 [3]) ∧
    Demo.firstType.ledger.row 10 3 = some ⟨1, 1, 0⟩ ∧
    ((ingestChannexBooking (Demo.env 0 0 0) Demo.link (some Demo.movedRevision)).transact
      Demo.firstType).ledger.row 10 3 = some ⟨1, 0, 0⟩ ∧
    ¬ CoversChanges r Demo.firstType ((ingestChannexBooking (Demo.env 0 0 0) Demo.link
      (some Demo.movedRevision)).transact Demo.firstType) := by
  have hresult : ((ingestChannexBooking (Demo.env 0 0 0) Demo.link
      (some Demo.movedRevision)).exec Demo.firstType).1.toOption.map
        (fun r => (r.success, r.push)) = some (true, some (.availability 1 11 [3])) := by
    decide +kernel
  have hsuccess : ((ingestChannexBooking (Demo.env 0 0 0) Demo.link
      (some Demo.movedRevision)).exec Demo.firstType).1.toOption.map (·.success) = some true := by
    decide +kernel
  have hbefore : Demo.firstType.ledger.row 10 3 = some ⟨1, 1, 0⟩ := by decide +kernel
  have hafter : ((ingestChannexBooking (Demo.env 0 0 0) Demo.link (some Demo.movedRevision)).transact
      Demo.firstType).ledger.row 10 3 = some ⟨1, 0, 0⟩ := by decide +kernel
  obtain ⟨r, hexec, hr⟩ := exec_of_success hsuccess
  rw [hexec] at hresult
  have hpush : r.push = some (.availability 1 11 [3]) :=
    congrArg Prod.snd (Option.some.inj hresult)
  refine ⟨r, hr, hexec, hpush, hbefore, hafter, fun hall => ?_⟩
  obtain ⟨property, dates, heq, -⟩ := hall 10 3 (by rw [hbefore, hafter]; decide)
  rw [hpush] at heq
  cases heq

end OpenPms
