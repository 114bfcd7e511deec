import OpenPms.AutomaticPostings

/-!
Reversals over the life of a booking. A posted row is kept for good, and so is an automatic
row from its reversal on, as long as no repricing comes upon a reversed room charge or tax,
or upon a row of staff that looks like a tax.
-/
namespace OpenPms

open KeyedTable Transaction Prog

/-- Rows that nothing may change: those that are not automatic, and those that a reversal
has been made for. -/
def Origins.Protected (o : Origins) (ft : FolioTransaction) : Prop :=
  ft.id ∉ o.automatic ∨ ∃ rev, (rev, ft.id) ∈ o.reversals

/-- No booking is priced anew that has a protected row among those that the posting takes
for its own. -/
def KeepsPosted (o : Origins) (db : Db) (op : FolioOp) : Prop :=
  ∀ bid, op.Reprices db bid → ∀ ft ∈ db.folio,
    isCountryPackTax bid ft = true ∨ db.folio.find? (isRoomCharge bid) = some ft →
      ¬ o.Protected ft

/-- The row of a reversal is there with the one that it offsets. -/
def Offsets (folio : List FolioTransaction) (p : UUID × UUID) : Prop :=
  ∃ rev ∈ folio, ∃ tx ∈ folio, rev.id = p.1 ∧ tx.id = p.2 ∧ rev.bookingId = tx.bookingId ∧
    tx.transactionType = rev.transactionType ∧ tx.category = rev.category ∧
    tx.amount = rev.amount.neg

theorem Money.neg_neg (m : Money) : m.neg.neg = m := by
  cases m with
  | none => rfl
  | some n =>
    show ((0 - (0 - n) : ℤ) : Money) = (n : ℤ)
    rw [sub_sub_cancel]

section Step
variable {db : Db} {o : Origins} {op : FolioOp} {b' : Books}

/-- Protected rows stay as they are for as long as their booking is there. -/
theorem protected_kept (heffect : op.Effect db b') (h : Chronicle db.books o.automatic)
    (hkeeps : KeepsPosted o db op) {ft : FolioTransaction} (hft : ft ∈ db.folio)
    (hprotected : o.Protected ft) (hbooking : (b'.account ft.bookingId).isSome) :
    ft ∈ b'.folio := by
  cases heffect with
  | same => exact hft
  | appended row henv hrow hfresh hreversed => exact List.mem_append_left _ hft
  | opened env b' henv _ hopened =>
    obtain ⟨account, description, hnone, rfl⟩ := hopened
    have hne : ft.bookingId ≠ env.bookingId := by
      intro hbid
      have hknown := h.known ft hft
      rw [hbid, hnone] at hknown
      cases hknown
    exact (mem_reprice_of_ne hne).mpr (List.mem_append_left _ hft)
  | repriced env bid b' henv hreprices hrepriced =>
    obtain ⟨account, total, -, rfl⟩ := hrepriced
    exact mem_reprice hft (fun htax => hkeeps bid hreprices ft hft (.inl htax) hprotected)
      fun hroom => hkeeps bid hreprices ft hft (.inr hroom) hprotected
  | erased bid henv hreversed =>
    refine List.mem_filter.mpr ⟨hft, decide_eq_true fun hbid => ?_⟩
    dsimp only at hbooking
    rw [hbid, Function.update_self] at hbooking
    cases hbooking

/-- While a row is there its booking is. -/
theorem booking_of_row (heffect : op.Effect db b') (h : Chronicle db.books o.automatic)
    {ft : FolioTransaction} (hft : ft ∈ db.folio) (hid : ft.id ∈ folioIds b'.folio) :
    (b'.account ft.bookingId).isSome := by
  have hknown : (db.books.account ft.bookingId).isSome := h.known ft hft
  have hupdate : ∀ bid account,
      (Function.update db.books.account bid (some account) ft.bookingId).isSome := by
    intro bid account
    by_cases hbid : ft.bookingId = bid
    · rw [hbid, Function.update_self, Option.isSome_some]
    · rwa [Function.update_of_ne hbid]
  cases heffect with
  | same => exact hknown
  | appended row henv hrow hfresh hreversed => exact hknown
  | opened env b' henv _ hopened =>
    obtain ⟨account, description, -, rfl⟩ := hopened
    exact hupdate _ _
  | repriced env bid b' henv hreprices hrepriced =>
    obtain ⟨account, total, -, rfl⟩ := hrepriced
    exact hupdate _ _
  | erased bid henv hreversed =>
    obtain ⟨row, hrow, heq⟩ := List.mem_map.mp hid
    obtain ⟨hmem, hne⟩ := List.mem_filter.mp hrow
    have hsame : row = ft := List.inj_on_of_nodup_map h.nodup hmem hft heq
    dsimp only
    rw [Function.update_of_ne (hsame ▸ of_decide_eq_true hne)]
    exact hknown

theorem env_of_reversed {txId : UUID} (h : op.reversed = some txId) : op.env = none := by
  cases op with
  | reverse id bid txId' => rfl
  | _ => cases h

/-- Every recorded reversal offsets its row, and is no automatic row itself. -/
structure Reversed (folio : List FolioTransaction) (o : Origins) : Prop where
  offsets : ∀ p ∈ o.reversals, Offsets folio p
  posted : ∀ p ∈ o.reversals, p.1 ∉ o.automatic

theorem Reversed.rev_mem {folio : List FolioTransaction} (h : Reversed folio o)
    {p : UUID × UUID} (hp : p ∈ o.reversals) : p.1 ∈ folioIds folio := by
  obtain ⟨rev, hrev, tx, htx, hid, -⟩ := h.offsets p hp
  exact hid ▸ List.mem_map_of_mem hrev

/-- A reversal that has been made before is kept with its row. -/
theorem offsets_kept (heffect : op.Effect db b') (h : Chronicle db.books o.automatic)
    (hkeeps : KeepsPosted o db op) (hreversed : Reversed db.folio o) {p : UUID × UUID}
    (hp : p ∈ o.reversals) (hmem : p.1 ∈ folioIds b'.folio) : Offsets b'.folio p := by
  obtain ⟨rev, hrev, tx, htx, hid, htxId, hbooking, hsame⟩ := hreversed.offsets p hp
  have hauto : rev.id ∉ o.automatic := hid ▸ hreversed.posted p hp
  have hthere := booking_of_row heffect h hrev (hid ▸ hmem)
  have htxPair : (p.1, tx.id) ∈ o.reversals := htxId ▸ hp
  refine ⟨rev, protected_kept heffect h hkeeps hrev (.inl hauto) hthere, tx, ?_, hid, htxId,
    hbooking, hsame⟩
  exact protected_kept heffect h hkeeps htx (.inr ⟨p.1, htxPair⟩) (hbooking ▸ hthere)

/-- A reversal that is made offsets the row that it names. -/
theorem offsets_made (heffect : op.Effect db b') {p : UUID × UUID}
    (hop : op.reversed = some p.2) (hmem : p.1 ∈ folioIds b'.folio)
    (hnew : p.1 ∉ folioIds db.folio) : Offsets b'.folio p := by
  cases heffect with
  | same => exact absurd hmem hnew
  | appended ft henv hbooking hfresh hreversed =>
    obtain ⟨tx, htx, htxId, hft⟩ := hreversed p.2 hop
    have hid : ft.id = p.1 := ((mem_folioIds_append.mp hmem).resolve_left hnew).symm
    refine ⟨ft, List.mem_append_right _ (List.mem_singleton.mpr rfl), tx,
      List.mem_append_left _ htx, hid, htxId, ?_⟩
    rw [hft]
    exact ⟨rfl, rfl, rfl, tx.amount.neg_neg.symm⟩
  | opened env b' henv _ hopened => exact absurd (henv.symm.trans (env_of_reversed hop)) nofun
  | repriced env bid b' henv hreprices hrepriced =>
    exact absurd (henv.symm.trans (env_of_reversed hop)) nofun
  | erased bid henv hnone => exact absurd (hop.symm.trans hnone) nofun

/-- One operation keeps the reversals. -/
theorem Reversed.step (hreversed : Reversed db.folio o) (h : Chronicle db.books o.automatic)
    (hkeeps : KeepsPosted o db op) :
    Reversed (op.prog.transact db).folio (o.after op db.folio (op.prog.transact db).folio) := by
  have heffect := op.effect_transact db
  constructor
  · intro p hp
    obtain ⟨hmem, hold | ⟨hop, hnew⟩⟩ := mem_after_reversals.mp hp
    · exact offsets_kept heffect h hkeeps hreversed hold hmem
    · exact offsets_made heffect hop hmem hnew
  · intro p hp hauto
    obtain ⟨hmem, hold | ⟨hop, hnew⟩⟩ := mem_after_reversals.mp hp
    · rcases (mem_after_automatic.mp hauto).2 with hbefore | ⟨-, hadded⟩
      · exact hreversed.posted p hold hbefore
      · exact hadded (hreversed.rev_mem hold)
    · rcases (mem_after_automatic.mp hauto).2 with hbefore | ⟨henv, -⟩
      · exact hnew (h.recorded _ hbefore)
      · rw [env_of_reversed hop] at henv
        cases henv

/-- What is protected stays so for as long as the booking is there. -/
theorem Origins.Protected.step (heffect : op.Effect db b') (h : Chronicle db.books o.automatic)
    (hreversed : Reversed db.folio o) (hkeeps : KeepsPosted o db op) {ft : FolioTransaction}
    (hft : ft ∈ db.folio) (hprotected : o.Protected ft)
    (hbooking : (b'.account ft.bookingId).isSome) :
    (o.after op db.folio b'.folio).Protected ft := by
  rcases hprotected with hauto | ⟨rev, hrev⟩
  · refine .inl fun hmem => ?_
    rcases (mem_after_automatic.mp hmem).2 with hbefore | ⟨-, hadded⟩
    · exact hauto hbefore
    · exact hadded (List.mem_map_of_mem hft)
  · obtain ⟨row, hrow, tx, htx, hid, htxId, hsame, -⟩ := hreversed.offsets _ hrev
    have htxft : tx = ft := List.inj_on_of_nodup_map h.nodup htx hft htxId
    have hposted : row.id ∉ o.automatic := hid ▸ hreversed.posted _ hrev
    have hkept := protected_kept heffect h hkeeps hrow (.inl hposted)
      (by rwa [hsame, htxft])
    refine .inr ⟨rev, mem_after_reversals.mpr ⟨?_, .inl hrev⟩⟩
    exact hid ▸ List.mem_map_of_mem hkept

end Step

/-! Runs -/

section Run
variable {db db' : Db} {o o' : Origins}

theorem reversed_of_history (h : FolioHistory KeepsPosted db o) : Reversed db.folio o := by
  obtain ⟨today, hrun⟩ := h
  have hempty : Chronicle (Db.empty today).books [] := ⟨List.nodup_nil, nofun, nofun, nofun⟩
  have hboth : Reversed db.folio o ∧ Chronicle db.books o.automatic := by
    induction hrun with
    | refl => exact ⟨⟨nofun, nofun⟩, hempty⟩
    | tail op _ hdraws hop ih => exact ⟨ih.1.step ih.2 hop, ih.2.step hdraws⟩
  exact hboth.1

/-- The operation is admitted, and leaves the booking in place. -/
def KeepsBooking (bid : UUID) (o : Origins) (db : Db) (op : FolioOp) : Prop :=
  KeepsPosted o db op ∧ ((op.prog.transact db).books.account bid).isSome

/-- In every run that prices no booking anew whose room charge or a tax is reversed, or
which has a row of staff that looks like a tax, each reversal offsets its row exactly, and
posted and reversed rows never change for as long as their booking is there. -/
theorem storno_integrity (h : FolioHistory KeepsPosted db o) :
    (∀ p ∈ o.reversals, Offsets db.folio p) ∧
    ∀ db' o' bid, FolioRun (KeepsBooking bid) db o db' o' →
      ∀ ft ∈ db.folio, ft.bookingId = bid → o.Protected ft → ft ∈ db'.folio := by
  have hreversed := reversed_of_history h
  have hchronicle := chronicle_of_history h
  refine ⟨hreversed.offsets, fun db' o' bid hrun ft hft hbid hprotected => ?_⟩
  subst hbid
  have hall : ft ∈ db'.folio ∧ o'.Protected ft ∧ Reversed db'.folio o' ∧
      Chronicle db'.books o'.automatic := by
    induction hrun with
    | refl => exact ⟨hft, hprotected, hreversed, hchronicle⟩
    | @tail db₁ o₁ op _ hdraws hop ih =>
      obtain ⟨hmem, hstill, hrev, hchron⟩ := ih
      have heffect := op.effect_transact db₁
      exact ⟨protected_kept heffect hchron hop.1 hmem hstill hop.2,
        hstill.step heffect hchron hrev hop.1 hmem hop.2, hrev.step hchron hop.1,
        hchron.step hdraws⟩
  exact hall.1

end Run

namespace Demo

/-- Staff posts a tax, and reverses one of the rows. -/
def stornoOf (txId : UUID) : Db × Origins :=
  FolioOp.next (taxed "minibar" (by decide)) (.reverse 4001 1000 txId)

theorem stornoOf_history {admits : Origins → Db → FolioOp → Prop} (txId : UUID)
    (hadmits : ∀ o db op, (∀ bid, ¬ op.Reprices db bid) → admits o db op) :
    FolioHistory admits (stornoOf txId).1 (stornoOf txId).2 := by
  have htaxed : FolioHistory admits (taxed "minibar" (by decide)).1
      (taxed "minibar" (by decide)).2 :=
    (booked_history hadmits).next _ nofun (hadmits _ _ _ fun _ => id)
  exact htaxed.next _ nofun (hadmits _ _ _ fun _ => id)

end Demo

theorem storno_integrity_demo :
    (∀ p ∈ (Demo.stornoOf 4000).2.reversals, Offsets (Demo.stornoOf 4000).1.folio p) ∧
    ∀ ft ∈ (Demo.stornoOf 4000).1.folio, ft.bookingId = 1000 →
      (Demo.stornoOf 4000).2.Protected ft →
        ft ∈ (Demo.laterCheckout.prog.transact (Demo.stornoOf 4000).1).folio := by
  have hstorno := storno_integrity (Demo.stornoOf_history 4000
    fun o db op hnone bid hreprices => absurd hreprices (hnone bid))
  refine ⟨hstorno.1, hstorno.2 _ _ 1000 (FolioRun.refl.tail Demo.laterCheckout ?_ ⟨?_, ?_⟩)⟩
  · intro env henv
    cases henv
    exact Demo.drawing_draws (by decide +kernel)
  · intro bid hreprices ft hft hlooks hprotected
    obtain rfl : bid = 1000 := hreprices.1
    have hunreversed : ∀ ft ∈ (Demo.stornoOf 4000).1.folio, isCountryPackTax 1000 ft = true ∨
        (Demo.stornoOf 4000).1.folio.find? (isRoomCharge 1000) = some ft →
          ft.id ∈ (Demo.stornoOf 4000).2.automatic ∧
            ∀ p ∈ (Demo.stornoOf 4000).2.reversals, p.2 ≠ ft.id := by
      decide +kernel
    obtain ⟨hauto, hnone⟩ := hunreversed ft hft hlooks
    rcases hprotected with hposted | ⟨rev, hrev⟩
    · exact hposted hauto
    · exact hnone _ hrev rfl
  · decide +kernel

/-- The room charge is reversed, and a later date then rewrites its amount. -/
theorem date_change_breaks_storno :
    let s := Demo.laterCheckout.next (Demo.stornoOf 3000)
    FolioHistory (fun _ _ _ => True) s.1 s.2 ∧
      (4001, 3000) ∈ s.2.reversals ∧ ¬ Offsets s.1.folio (4001, 3000) := by
  refine ⟨?_, by decide +kernel, ?_⟩
  · refine (Demo.stornoOf_history 3000 fun _ _ _ _ => trivial).next Demo.laterCheckout ?_ trivial
    intro env henv
    cases henv
    exact Demo.drawing_draws (by decide +kernel)
  · unfold Offsets
    decide +kernel

end OpenPms
