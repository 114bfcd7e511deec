import OpenPms.FolioPostings
import OpenPms.Runs

/-!
Histories of folios: bookings that are made, patched, changed by revisions and deleted,
among postings of staff, reversals and rows of Stripe, one transaction at a time. A folio
row does not tell who has posted it, so a history records which rows are automatic and
which row a reversal was made for.
-/
namespace OpenPms

open KeyedTable Transaction Prog

inductive FolioOp where
  | post (id : UUID) (allowed : List String) (bid : UUID) (body : FolioPostRequest)
  | reverse (id bid txId : UUID)
  | stripe (id bid : UUID) (amount : ℤ) (description : String)
  | createBooking (env : Env) (body : BookingCreateRequest)
  | patchBooking (env : Env) (bid : UUID) (body : BookingPatchRequest)
  | ingest (env : Env) (link : ChannexPropertyLink) (payload : ChannexBookingRevisionPayload)
  | deleteBooking (bid : UUID)
  | other (f : Db → Db) (hf : ∀ db, (f db).books = db.books)

namespace FolioOp

def prog : FolioOp → Tx Unit
  | post id allowed bid body => do
    let _ ← addFolioEntry id allowed bid body
    pure ()
  | reverse id bid txId => do
    let _ ← reverseFolioTransaction id bid txId
    pure ()
  | stripe id bid amount description => postStripeRow id bid amount description
  | createBooking env body => do
    let _ ← OpenPms.createBooking env body
    pure ()
  | patchBooking env bid body => do
    let _ ← OpenPms.patchBooking env bid body
    pure ()
  | ingest env link payload => do
    let _ ← ingestChannexBooking env link (some payload)
    pure ()
  | deleteBooking bid => do
    let _ ← OpenPms.deleteBooking bid
    pure ()
  | other f _ => modify f

/-- What the operation posts automatically with. -/
def env : FolioOp → Option Env
  | createBooking env _ => some env
  | patchBooking env _ _ => some env
  | ingest env _ _ => some env
  | _ => none

/-- The row that the operation reverses. -/
def reversed : FolioOp → Option UUID
  | reverse _ _ txId => some txId
  | _ => none

/-- The booking that the operation may open: the one that is created, for a new revision too. -/
def Opens (bid : UUID) : FolioOp → Prop
  | createBooking env _ => bid = env.bookingId
  | ingest env _ payload => revisionKind payload = .new ∧ bid = env.bookingId
  | _ => False

/-- The booking that the operation may price anew: the one whose dates a patch changes, and
the one that has the external id of a modified revision. -/
def Reprices (db : Db) (bid : UUID) : FolioOp → Prop
  | patchBooking _ bid' body =>
    bid = bid' ∧ ∃ b, db.bookings.find bid = some b ∧ ChangesDates b body
  | ingest _ _ payload => revisionKind payload = .modified ∧
      ∃ account, db.books.account bid = some account ∧
        account.external = some (externalKey payload)
  | _ => False

/-- What a committed operation does to the books. -/
inductive Effect (op : FolioOp) (db : Db) : Books → Prop
  | same : Effect op db db.books
  | appended (ft : FolioTransaction) (henv : op.env = none)
      (hbooking : (db.books.account ft.bookingId).isSome)
      (hfresh : ∀ row ∈ db.folio, row.id ≠ ft.id)
      (hreversed : ∀ txId, op.reversed = some txId →
        ∃ tx ∈ db.folio, tx.id = txId ∧ ft = reversal ft.id tx) :
      Effect op db ⟨db.folio ++ [ft], db.books.account⟩
  | opened (env : Env) (b' : Books) (henv : op.env = some env) (hopens : op.Opens env.bookingId)
      (h : Opened env db.books b') : Effect op db b'
  | repriced (env : Env) (bid : UUID) (b' : Books) (henv : op.env = some env)
      (hreprices : op.Reprices db bid) (h : Repriced env bid db.books b') : Effect op db b'
  | erased (bid : UUID) (henv : op.env = none) (hreversed : op.reversed = none) :
      Effect op db
        ⟨db.folio.filter fun ft => ft.bookingId ≠ bid, Function.update db.books.account bid none⟩

theorem effect_of_appends {op : FolioOp} {db db' : Db} {ft : FolioTransaction}
    (h : Appends db db' ft) (henv : op.env = none)
    (hreversed : ∀ txId, op.reversed = some txId →
      ∃ tx ∈ db.folio, tx.id = txId ∧ ft = reversal ft.id tx) :
    op.Effect db db'.books := by
  obtain ⟨hbooking, hfresh, rfl⟩ := h
  refine .appended ft henv ?_ hfresh hreversed
  show ((db.bookings.find ft.bookingId).map _).isSome
  rwa [Option.isSome_map]

/-- Every operation has one of the effects. -/
theorem effect_transact (op : FolioOp) (db : Db) :
    op.Effect db (op.prog.transact db).books := by
  refine transact_induction (R := fun db db' : Db => op.Effect db db'.books) op.prog
    .same fun u db' h => ?_
  cases op with
  | post id allowed bid body =>
    obtain ⟨ft, h⟩ := exec_discard h
    exact effect_of_appends (addFolioEntry_appends h).1 rfl nofun
  | reverse id bid txId =>
    obtain ⟨ft, h⟩ := exec_discard h
    obtain ⟨happends, tx, htx, hid, rfl⟩ := reverseFolioTransaction_appends h
    refine effect_of_appends happends rfl fun txId' htxId' => ?_
    cases htxId'
    exact ⟨tx, htx, hid, rfl⟩
  | stripe id bid amount description =>
    exact effect_of_appends (postStripeRow_appends h) rfl nofun
  | createBooking env body =>
    obtain ⟨r, h⟩ := exec_discard h
    exact .opened env _ rfl rfl (createBooking_opened db r db' h)
  | patchBooking env bid body =>
    obtain ⟨r, h⟩ := exec_discard h
    rcases patchBooking_books h with hbooks | ⟨hdates, hrepriced⟩
    · rw [hbooks]
      exact .same
    · exact .repriced env bid _ rfl ⟨rfl, hdates⟩ hrepriced
  | ingest env link payload =>
    obtain ⟨r, h⟩ := exec_discard h
    cases ingest_posts db r db' h with
    | same hbooks =>
      rw [hbooks]
      exact .same
    | modified bid account hkind hfind hexternal hrepriced =>
      exact .repriced env bid _ rfl ⟨hkind, account, hfind, hexternal⟩ hrepriced
    | new hkind hopened => exact .opened env _ rfl ⟨hkind, rfl⟩ hopened
  | deleteBooking bid =>
    obtain ⟨r, h⟩ := exec_discard h
    rw [deleteBooking_books h]
    exact .erased bid rfl rfl
  | other f hf =>
    cases h
    rw [hf db]
    exact .same

end FolioOp

/-! What a history records -/

def folioIds (folio : List FolioTransaction) : List UUID := folio.map (·.id)

def addedIds (folio folio' : List FolioTransaction) : List UUID :=
  (folioIds folio').filter (· ∉ folioIds folio)

/-- The identifiers that are drawn for automatic rows are new. -/
def Env.Draws (env : Env) (folio : List FolioTransaction) : Prop :=
  Function.Injective env.folioId ∧ ∀ n, env.folioId n ∉ folioIds folio

/-- The identifiers of automatic rows, and each reversal row with the row it was made for. -/
structure Origins where
  automatic : List UUID
  reversals : List (UUID × UUID)

/-- The record after an operation; rows that are gone are forgotten. -/
def Origins.after (o : Origins) (op : FolioOp) (folio folio' : List FolioTransaction) : Origins :=
  let added := addedIds folio folio'
  let automatic := if op.env.isSome then added else []
  let reversals := op.reversed.elim [] fun txId => added.map fun id => (id, txId)
  { automatic := (automatic ++ o.automatic).filter (· ∈ folioIds folio')
    reversals := (reversals ++ o.reversals).filter (·.1 ∈ folioIds folio') }

/-- Runs from one state to another, each operation being admitted in the state it finds. -/
inductive FolioRun (admits : Origins → Db → FolioOp → Prop) (db₀ : Db) (o₀ : Origins) :
    Db → Origins → Prop
  | refl : FolioRun admits db₀ o₀ db₀ o₀
  | tail {db : Db} {o : Origins} (op : FolioOp) (h : FolioRun admits db₀ o₀ db o)
      (hdraws : ∀ env, op.env = some env → env.Draws db.folio) (hop : admits o db op) :
      FolioRun admits db₀ o₀ (op.prog.transact db)
        (o.after op db.folio (op.prog.transact db).folio)

/-- The runs from an empty tenant. -/
def FolioHistory (admits : Origins → Db → FolioOp → Prop) (db : Db) (o : Origins) : Prop :=
  ∃ today, FolioRun admits (.empty today) ⟨[], []⟩ db o

section Record
variable {o : Origins} {op : FolioOp} {folio folio' : List FolioTransaction}

theorem mem_folioIds_append {id : UUID} {ft : FolioTransaction} :
    id ∈ folioIds (folio ++ [ft]) ↔ id ∈ folioIds folio ∨ id = ft.id := by
  simp [folioIds]

theorem mem_addedIds {id : UUID} :
    id ∈ addedIds folio folio' ↔ id ∈ folioIds folio' ∧ id ∉ folioIds folio := by
  simp [addedIds, List.mem_filter]

theorem mem_after_automatic {id : UUID} : id ∈ (o.after op folio folio').automatic ↔
    id ∈ folioIds folio' ∧ (id ∈ o.automatic ∨ op.env.isSome ∧ id ∉ folioIds folio) := by
  unfold Origins.after
  cases op.env with
  | none => simp [and_comm]
  | some env =>
    simp only [Option.isSome_some, if_true, true_and, List.mem_filter, List.mem_append,
      mem_addedIds, decide_eq_true_eq]
    tauto

theorem mem_after_reversals {p : UUID × UUID} : p ∈ (o.after op folio folio').reversals ↔
    p.1 ∈ folioIds folio' ∧ (p ∈ o.reversals ∨ op.reversed = some p.2 ∧ p.1 ∉ folioIds folio) := by
  unfold Origins.after
  cases op.reversed with
  | none => simp [and_comm]
  | some txId =>
    simp only [Option.elim_some, List.mem_filter, List.mem_append, List.mem_map, mem_addedIds,
      decide_eq_true_eq, Option.some.injEq]
    constructor
    · rintro ⟨⟨id, ⟨hid, hnew⟩, rfl⟩ | hp, hmem⟩
      · exact ⟨hmem, .inr ⟨rfl, hnew⟩⟩
      · exact ⟨hmem, .inl hp⟩
    · rintro ⟨hmem, hp | ⟨htx, hnew⟩⟩
      · exact ⟨.inr hp, hmem⟩
      · exact ⟨.inl ⟨p.1, ⟨hmem, hnew⟩, Prod.ext rfl htx⟩, hmem⟩

end Record

/-! The automatic rows of a booking -/

def isAutomatic (automatic : List UUID) (bid : UUID) (ft : FolioTransaction) : Bool :=
  ft.bookingId = bid && ft.id ∈ automatic

/-- The automatic rows of the booking are its first room charge and taxes. -/
def Posted (folio : List FolioTransaction) (automatic : List UUID) (bid : UUID) : Prop :=
  ∃ room taxes, folio.find? (isRoomCharge bid) = some room ∧
    folio.filter (isAutomatic automatic bid) = room :: taxes ∧
    ∀ ft ∈ taxes, isCountryPackTax bid ft = true

/-- What holds of the folio in every history: each booking has been posted once, and
whatever is not recorded as automatic comes from staff or from Stripe. -/
structure Chronicle (b : Books) (automatic : List UUID) : Prop where
  nodup : (folioIds b.folio).Nodup
  known : ∀ ft ∈ b.folio, (b.account ft.bookingId).isSome
  recorded : ∀ id ∈ automatic, id ∈ folioIds b.folio
  posted : ∀ bid, (b.account bid).isSome → Posted b.folio automatic bid

section Posted
variable {folio : List FolioTransaction} {automatic automatic' : List UUID} {bid : UUID}

theorem isAutomatic_congr {ft : FolioTransaction}
    (h : ft.bookingId = bid → (ft.id ∈ automatic' ↔ ft.id ∈ automatic)) :
    isAutomatic automatic' bid ft = isAutomatic automatic bid ft := by
  unfold isAutomatic
  by_cases hbid : ft.bookingId = bid
  · rw [decide_eq_decide.mpr (h hbid)]
  · simp [hbid]

theorem Posted.congr (h : Posted folio automatic bid)
    (hids : ∀ ft ∈ folio, ft.bookingId = bid → (ft.id ∈ automatic' ↔ ft.id ∈ automatic)) :
    Posted folio automatic' bid := by
  obtain ⟨room, taxes, hroom, hfilter, htaxes⟩ := h
  refine ⟨room, taxes, hroom, ?_, htaxes⟩
  rw [← hfilter]
  exact List.filter_congr fun ft hft => isAutomatic_congr (hids ft hft)

/-- A row that is not automatic comes after those that are there. -/
theorem Posted.append {ft : FolioTransaction} (h : Posted folio automatic bid)
    (hft : ¬ isAutomatic automatic bid ft = true) : Posted (folio ++ [ft]) automatic bid := by
  obtain ⟨room, taxes, hroom, hfilter, htaxes⟩ := h
  refine ⟨room, taxes, ?_, ?_, htaxes⟩
  · rw [List.find?_append, hroom, Option.some_or]
  · rw [List.filter_append, hfilter, List.filter_cons_of_neg hft, List.filter_nil,
      List.append_nil]

/-- The rows of other bookings do not matter. -/
theorem Posted.of_rows {folio' : List FolioTransaction} (h : Posted folio automatic bid)
    (hrows : ∀ q : FolioTransaction → Bool, (∀ ft, q ft = true → ft.bookingId = bid) →
      (∀ ft amount, q { ft with amount := amount } = q ft) → folio'.filter q = folio.filter q) :
    Posted folio' automatic bid := by
  obtain ⟨room, taxes, hroom, hfilter, htaxes⟩ := h
  refine ⟨room, taxes, ?_, ?_, htaxes⟩
  · rw [← List.head?_filter] at hroom ⊢
    rw [hrows _ (fun ft hft => ?_) fun ft amount => rfl]
    · exact hroom
    · simp only [isRoomCharge, Bool.and_eq_true, decide_eq_true_eq] at hft
      exact hft.1.1
  · rw [← hfilter]
    refine hrows _ (fun ft hft => ?_) fun ft amount => rfl
    simp only [isAutomatic, Bool.and_eq_true, decide_eq_true_eq] at hft
    exact hft.1

end Posted

/-! Repricing -/

section Reprice
variable {env : Env} {bid propertyId : UUID} {base : Money} {folio : List FolioTransaction}
  {automatic automatic' : List UUID}

theorem folioIds_taxRows (env : Env) (bid : UUID) (taxes : List (Money × String)) :
    folioIds (taxRows env bid taxes) =
      (List.range taxes.length).map fun i => env.folioId (i + 1) := by
  apply List.ext_getElem
  · simp [folioIds, taxRows]
  · intro i hi hi'
    simp [folioIds, taxRows]

theorem folioIds_reprice : folioIds (reprice env bid propertyId base folio) =
    folioIds (withoutTaxes bid folio) ++
      folioIds (taxRows env bid (posting env propertyId base).2) := by
  rw [reprice_eq]
  unfold folioIds
  rw [List.map_append, map_id_setFirstAmount]

theorem new_of_mem_taxRows {taxes : List (Money × String)} {ft : FolioTransaction}
    (hnew : ∀ n, env.folioId (n + 1) ∉ folioIds folio) (h : ft ∈ taxRows env bid taxes) :
    ft.id ∉ folioIds folio := by
  obtain ⟨i, hi, rfl⟩ := List.mem_mapIdx.mp h
  exact hnew i

theorem nodup_reprice (hinj : Function.Injective env.folioId)
    (hnew : ∀ n, env.folioId (n + 1) ∉ folioIds folio) (h : (folioIds folio).Nodup) :
    (folioIds (reprice env bid propertyId base folio)).Nodup := by
  rw [folioIds_reprice, folioIds_taxRows]
  have hsub : (folioIds (withoutTaxes bid folio)).Sublist (folioIds folio) :=
    List.filter_sublist.map _
  refine List.nodup_append.mpr ⟨h.sublist hsub, ?_, ?_⟩
  · exact List.nodup_range.map fun i j hij => Nat.succ.inj (hinj hij)
  · intro id hid id' hid' heq
    obtain ⟨i, -, rfl⟩ := List.mem_map.mp hid'
    exact hnew i (heq ▸ hsub.subset hid)

/-- The rows that are repriced are those of the booking. -/
theorem filter_reprice_of_ne {q : FolioTransaction → Bool}
    (hq : ∀ ft, q ft = true → ft.bookingId ≠ bid)
    (hamount : ∀ ft amount, q { ft with amount := amount } = q ft) :
    (reprice env bid propertyId base folio).filter q = folio.filter q := by
  have htaxes : (taxRows env bid (posting env propertyId base).2).filter q = [] := by
    refine List.filter_eq_nil_iff.mpr fun ft hft hkeep => hq ft hkeep ?_
    obtain ⟨i, hi, rfl⟩ := List.mem_mapIdx.mp hft
    rfl
  rw [reprice_eq, List.filter_append, htaxes, List.append_nil,
    filter_setFirstAmount_of_not (fun ft hft hkeep => ?_) fun ft => hamount ft _]
  · unfold withoutTaxes
    rw [List.filter_filter]
    refine List.filter_congr fun ft _ => ?_
    by_cases hkeep : q ft = true
    · simp [isCountryPackTax, hq ft hkeep, hkeep]
    · simp [hkeep]
  · simp only [isRoomCharge, Bool.and_eq_true, decide_eq_true_eq] at hft
    exact hq ft hkeep hft.1.1

theorem find_withoutTaxes :
    (withoutTaxes bid folio).find? (isRoomCharge bid) = folio.find? (isRoomCharge bid) := by
  unfold withoutTaxes
  rw [List.find?_filter]
  congr 1
  funext ft
  by_cases hft : isRoomCharge bid ft = true
  · simp [not_tax_of_roomCharge hft, hft]
  · simp [hft]

theorem find_reprice : (reprice env bid propertyId base folio).find? (isRoomCharge bid) =
    (folio.find? (isRoomCharge bid)).map fun ft =>
      { ft with amount := (posting env propertyId base).1 } := by
  have htaxes : (taxRows env bid (posting env propertyId base).2).find? (isRoomCharge bid) =
      none := List.find?_eq_none.mpr fun ft hft => roomCharge_of_mem_taxRows hft
  rw [reprice_eq, List.find?_append, find_setFirstAmount fun _ => rfl, find_withoutTaxes, htaxes,
    Option.or_none]

/-- After a repricing the automatic rows of the booking are its room charge, with the new
amount, and the new taxes. -/
theorem filter_reprice {room : FolioTransaction} {taxes : List FolioTransaction}
    (hnew : ∀ n, env.folioId (n + 1) ∉ folioIds folio)
    (hroom : folio.find? (isRoomCharge bid) = some room)
    (hfilter : folio.filter (isAutomatic automatic bid) = room :: taxes)
    (htaxes : ∀ ft ∈ taxes, isCountryPackTax bid ft = true)
    (hids : ∀ ft ∈ reprice env bid propertyId base folio,
      ft.id ∈ automatic' ↔ ft.id ∈ automatic ∨ ft.id ∉ folioIds folio) :
    (reprice env bid propertyId base folio).filter (isAutomatic automatic' bid) =
      { room with amount := (posting env propertyId base).1 } ::
        taxRows env bid (posting env propertyId base).2 := by
  have hcharge : isRoomCharge bid room = true := List.find?_some hroom
  have hauto : isAutomatic automatic bid room = true :=
    (List.mem_filter.mp (hfilter ▸ List.mem_cons_self ..)).2
  -- The rows that stay are automatic when they were.
  have hold : ∀ ft ∈ setFirstAmount (isRoomCharge bid) (posting env propertyId base).1
      (withoutTaxes bid folio), isAutomatic automatic' bid ft = isAutomatic automatic bid ft := by
    intro ft hft
    refine isAutomatic_congr fun _ => ?_
    rw [hids ft (reprice_eq env bid propertyId base folio ▸ List.mem_append_left _ hft)]
    have hmem : ft.id ∈ folioIds (withoutTaxes bid folio) := by
      unfold folioIds
      rw [← map_id_setFirstAmount]
      exact List.mem_map_of_mem hft
    have hsub : ft.id ∈ folioIds folio := (List.filter_sublist.map _).subset hmem
    simp [hsub]
  have hkept : (withoutTaxes bid folio).filter (isAutomatic automatic bid) = [room] := by
    have hnil : taxes.filter (fun ft => !isCountryPackTax bid ft) = [] :=
      List.filter_eq_nil_iff.mpr fun ft hft => by simp [htaxes ft hft]
    unfold withoutTaxes
    rw [List.filter_filter, List.filter_congr fun ft _ => Bool.and_comm _ _, ← List.filter_filter,
      hfilter, List.filter_cons_of_pos (by simp [not_tax_of_roomCharge hcharge]), hnil]
  have hadded : (taxRows env bid (posting env propertyId base).2).filter
      (isAutomatic automatic' bid) = taxRows env bid (posting env propertyId base).2 := by
    refine List.filter_eq_self.mpr fun ft hft => ?_
    have hmem := hids ft (reprice_eq env bid propertyId base folio ▸ List.mem_append_right _ hft)
    have hbid : ft.bookingId = bid := by
      obtain ⟨i, hi, rfl⟩ := List.mem_mapIdx.mp hft
      rfl
    simp [isAutomatic, hbid, hmem.mpr (.inr (new_of_mem_taxRows hnew hft))]
  rw [reprice_eq, List.filter_append, hadded, List.filter_congr hold,
    filter_setFirstAmount ?_ fun _ => rfl, hkept, setFirstAmount_pos hcharge, List.singleton_append]
  intro ft hft
  have hfound : (withoutTaxes bid folio).find? (isRoomCharge bid) = some room := by
    rw [find_withoutTaxes, hroom]
  rw [hfound] at hft
  exact Option.some.inj hft ▸ hauto

theorem mem_reprice_of_ne {ft : FolioTransaction} (hne : ft.bookingId ≠ bid) :
    ft ∈ reprice env bid propertyId base folio ↔ ft ∈ folio := by
  have hrows : (reprice env bid propertyId base folio).filter (fun u => u.bookingId ≠ bid) =
      folio.filter fun u => u.bookingId ≠ bid :=
    filter_reprice_of_ne (fun u hu => by simpa using hu) fun _ _ => rfl
  have hmem : ft ∈ (reprice env bid propertyId base folio).filter (fun u => u.bookingId ≠ bid) ↔
      ft ∈ folio.filter fun u => u.bookingId ≠ bid := by rw [hrows]
  simpa [List.mem_filter, hne] using hmem

/-- Repricing a booking keeps the chronicle, and records the new rows. -/
theorem Chronicle.reprice {b b' : Books} (h : Chronicle b automatic)
    (hbid : (b.account bid).isSome) (hinj : Function.Injective env.folioId)
    (hnew : ∀ n, env.folioId (n + 1) ∉ folioIds b.folio)
    (hfolio : b'.folio = OpenPms.reprice env bid propertyId base b.folio)
    (haccount : ∀ bid', (b'.account bid').isSome = (b.account bid').isSome)
    (hids : ∀ id, id ∈ automatic' ↔
      id ∈ folioIds b'.folio ∧ (id ∈ automatic ∨ id ∉ folioIds b.folio)) :
    Chronicle b' automatic' := by
  constructor
  · rw [hfolio]
    exact nodup_reprice hinj hnew h.nodup
  · intro ft hft
    rw [haccount]
    by_cases hne : ft.bookingId = bid
    · rwa [hne]
    · rw [hfolio, mem_reprice_of_ne hne] at hft
      exact h.known ft hft
  · exact fun id hid => ((hids id).mp hid).1
  · intro bid' hbid'
    rw [haccount] at hbid'
    have hposted := h.posted bid' hbid'
    by_cases hne : bid' = bid
    · subst hne
      obtain ⟨room, taxes, hroom, hfilter, htaxes⟩ := hposted
      refine ⟨{ room with amount := (posting env propertyId base).1 },
        taxRows env bid' (posting env propertyId base).2, ?_, ?_,
        fun ft hft => tax_of_mem_taxRows hft⟩
      · rw [hfolio, find_reprice, hroom, Option.map_some]
      · rw [hfolio]
        refine filter_reprice hnew hroom hfilter htaxes fun ft hft => ?_
        rw [hids, hfolio]
        exact and_iff_right (List.mem_map_of_mem hft)
    · refine (hposted.of_rows fun q hq hamount => ?_).congr fun ft hft hbooking => ?_
      · rw [hfolio]
        exact filter_reprice_of_ne (fun ft hft => by rw [hq ft hft]; exact hne) hamount
      · have hmem : ft ∈ b.folio := by
          rw [hfolio, mem_reprice_of_ne (by rwa [hbooking])] at hft
          exact hft
        rw [hids]
        have hid : ft.id ∈ folioIds b.folio := List.mem_map_of_mem hmem
        have hid' : ft.id ∈ folioIds b'.folio := List.mem_map_of_mem hft
        simp [hid, hid']

end Reprice

/-! The chronicle of a history -/

section History
variable {b : Books} {automatic automatic' : List UUID}

theorem Chronicle.congr (h : Chronicle b automatic)
    (hids : ∀ id, id ∈ automatic' ↔ id ∈ automatic) : Chronicle b automatic' :=
  ⟨h.nodup, h.known, fun id hid => h.recorded id ((hids id).mp hid),
    fun bid hbid => (h.posted bid hbid).congr fun ft _ _ => hids ft.id⟩

theorem nodup_append_row {folio : List FolioTransaction} {ft : FolioTransaction}
    (h : (folioIds folio).Nodup) (hfresh : ft.id ∉ folioIds folio) :
    (folioIds (folio ++ [ft])).Nodup := by
  unfold folioIds at *
  rw [List.map_append]
  refine List.nodup_append.mpr ⟨h, List.nodup_singleton _, fun id hid id' hid' heq => hfresh ?_⟩
  rwa [heq, List.mem_singleton.mp hid'] at hid

/-- A row of staff or of Stripe is appended. -/
theorem Chronicle.append {ft : FolioTransaction} (h : Chronicle b automatic)
    (hbooking : (b.account ft.bookingId).isSome) (hfresh : ft.id ∉ folioIds b.folio) :
    Chronicle ⟨b.folio ++ [ft], b.account⟩ automatic := by
  have hnot : ft.id ∉ automatic := fun hmem => hfresh (h.recorded _ hmem)
  refine ⟨nodup_append_row h.nodup hfresh, fun u hu => ?_, fun id hid => ?_, fun bid hbid => ?_⟩
  · rcases List.mem_append.mp hu with hold | hnew
    · exact h.known u hold
    · rwa [List.mem_singleton.mp hnew]
  · exact mem_folioIds_append.mpr (.inl (h.recorded id hid))
  · exact (h.posted bid hbid).append (by simp [isAutomatic, hnot])

/-- The books of a new booking are opened with its room charge. -/
theorem Chronicle.open {env : Env} (account : Account) (description : String)
    (h : Chronicle b automatic) (hnone : b.account env.bookingId = none)
    (hdraws : env.Draws b.folio) :
    Chronicle ⟨b.folio ++ [roomChargeRow env env.bookingId account.total description],
      Function.update b.account env.bookingId (some account)⟩ (env.folioId 0 :: automatic) := by
  have hothers : ∀ ft ∈ b.folio, ft.bookingId ≠ env.bookingId := by
    intro ft hft hbid
    have hknown := h.known ft hft
    rw [hbid, hnone] at hknown
    cases hknown
  refine ⟨nodup_append_row h.nodup (hdraws.2 0), fun u hu => ?_, fun id hid => ?_,
    fun bid hbid => ?_⟩
  · rcases List.mem_append.mp hu with hold | hnew
    · dsimp only
      rw [Function.update_of_ne (hothers u hold)]
      exact h.known u hold
    · rw [List.mem_singleton.mp hnew]
      dsimp only [roomChargeRow]
      rw [Function.update_self, Option.isSome_some]
  · refine mem_folioIds_append.mpr ?_
    rcases List.mem_cons.mp hid with rfl | hid
    · exact .inr rfl
    · exact .inl (h.recorded id hid)
  · by_cases hne : bid = env.bookingId
    · subst hne
      have hfind : b.folio.find? (isRoomCharge env.bookingId) = none :=
        List.find?_eq_none.mpr fun ft hft => by simp [isRoomCharge, hothers ft hft]
      have hfilter : b.folio.filter (isAutomatic (env.folioId 0 :: automatic) env.bookingId) = [] :=
        List.filter_eq_nil_iff.mpr fun ft hft => by simp [isAutomatic, hothers ft hft]
      refine ⟨roomChargeRow env env.bookingId account.total description, [], ?_, ?_,
        fun ft hft => absurd hft List.not_mem_nil⟩
      · dsimp only
        rw [List.find?_append, hfind, Option.none_or]
        exact List.find?_cons_of_pos (by simp [isRoomCharge, roomChargeRow])
      · dsimp only
        rw [List.filter_append, hfilter, List.nil_append]
        exact List.filter_cons_of_pos (by simp [isAutomatic, roomChargeRow])
    · dsimp only at hbid
      rw [Function.update_of_ne hne] at hbid
      refine ((h.posted bid hbid).congr fun ft hft _ => ?_).append ?_
      · refine ⟨fun hmem => (List.mem_cons.mp hmem).resolve_left fun heq => ?_,
          List.mem_cons_of_mem _⟩
        exact hdraws.2 0 (heq ▸ List.mem_map_of_mem hft)
      · simp [isAutomatic, roomChargeRow, Ne.symm hne]

theorem new_of_opened {env : Env} {folio : List FolioTransaction} {bid : UUID} {total : Money}
    {description : String} (hdraws : env.Draws folio) (n : ℕ) :
    env.folioId (n + 1) ∉ folioIds (folio ++ [roomChargeRow env bid total description]) := by
  rw [mem_folioIds_append]
  intro hmem
  rcases hmem with hold | heq
  · exact hdraws.2 _ hold
  · exact absurd (hdraws.1 heq) (Nat.succ_ne_zero n)

/-- The room charge of a new booking is recorded as automatic with the rows after it. -/
theorem recorded_open {env : Env} {folio : List FolioTransaction} {bid id : UUID} {total : Money}
    {description : String} (hdraws : env.Draws folio) :
    id ∈ env.folioId 0 :: automatic ∨
        id ∉ folioIds (folio ++ [roomChargeRow env bid total description]) ↔
      id ∈ automatic ∨ id ∉ folioIds folio := by
  have hzero : env.folioId 0 ∉ folioIds folio := hdraws.2 0
  have hrow : (roomChargeRow env bid total description).id = env.folioId 0 := rfl
  rw [List.mem_cons, mem_folioIds_append, hrow]
  by_cases hid : id = env.folioId 0
  · subst hid
    simp [hzero]
  · simp [hid]

/-- A booking is deleted with its rows. -/
theorem Chronicle.erase (h : Chronicle b automatic) (bid : UUID)
    (hids : ∀ id, id ∈ automatic' ↔
      id ∈ folioIds (b.folio.filter fun ft => ft.bookingId ≠ bid) ∧ id ∈ automatic) :
    Chronicle ⟨b.folio.filter fun ft => ft.bookingId ≠ bid, Function.update b.account bid none⟩
      automatic' := by
  refine ⟨h.nodup.sublist (List.filter_sublist.map _), fun ft hft => ?_,
    fun id hid => ((hids id).mp hid).1, fun bid' hbid' => ?_⟩
  · obtain ⟨hmem, hne⟩ := List.mem_filter.mp hft
    dsimp only
    rw [Function.update_of_ne (by simpa using hne)]
    exact h.known ft hmem
  · dsimp only at hbid'
    have hne : bid' ≠ bid := by
      rintro rfl
      rw [Function.update_self] at hbid'
      cases hbid'
    rw [Function.update_of_ne hne] at hbid'
    refine ((h.posted bid' hbid').of_rows fun q hq _ => ?_).congr fun ft hft _ => ?_
    · rw [List.filter_filter]
      refine List.filter_congr fun ft _ => ?_
      by_cases hkeep : q ft = true
      · simp [hkeep, hq ft hkeep, hne]
      · simp [hkeep]
    · rw [hids]
      exact and_iff_right (List.mem_map_of_mem hft)

variable {db : Db} {o : Origins} {op : FolioOp}

/-- One operation keeps the chronicle. -/
theorem Chronicle.step (h : Chronicle db.books o.automatic)
    (hdraws : ∀ env, op.env = some env → env.Draws db.folio) :
    Chronicle (op.prog.transact db).books
      (o.after op db.folio (op.prog.transact db).folio).automatic := by
  have hfolio : (op.prog.transact db).folio = (op.prog.transact db).books.folio := rfl
  rw [hfolio]
  generalize hb' : (op.prog.transact db).books = b'
  have heffect : op.Effect db b' := hb' ▸ op.effect_transact db
  clear hfolio hb'
  have hrecorded : ∀ id ∈ o.automatic, id ∈ folioIds db.folio := h.recorded
  cases heffect with
  | same =>
    refine h.congr fun id => ?_
    rw [mem_after_automatic]
    exact ⟨fun hid => hid.2.resolve_right fun hnew => hnew.2 hid.1,
      fun hid => ⟨hrecorded id hid, .inl hid⟩⟩
  | appended ft henv hbooking hfresh hreversed =>
    have hnew : ft.id ∉ folioIds db.folio := by
      intro hmem
      obtain ⟨row, hrow, hid⟩ := List.mem_map.mp hmem
      exact hfresh row hrow hid
    refine (h.append hbooking hnew).congr fun id => ?_
    rw [mem_after_automatic, henv]
    exact ⟨fun hid => hid.2.resolve_right nofun,
      fun hid => ⟨mem_folioIds_append.mpr (.inl (hrecorded id hid)), .inl hid⟩⟩
  | opened env b' henv _ hopened =>
    obtain ⟨account, description, hnone, rfl⟩ := hopened
    have hdraws := hdraws env henv
    refine (h.open account description hnone hdraws).reprice ?_ hdraws.1 (new_of_opened hdraws)
      rfl (fun _ => rfl) fun id => ?_
    · dsimp only
      rw [Function.update_self, Option.isSome_some]
    · rw [mem_after_automatic, henv]
      refine and_congr_right fun _ => (or_congr_right (and_iff_right rfl)).trans ?_
      exact (recorded_open hdraws).symm
  | repriced env bid b' henv hreprices hrepriced =>
    obtain ⟨account, total, haccount, rfl⟩ := hrepriced
    have hdraws := hdraws env henv
    refine h.reprice (by rw [haccount]; rfl) hdraws.1 (fun n => hdraws.2 _) rfl (fun bid' => ?_)
      fun id => ?_
    · dsimp only
      by_cases hne : bid' = bid
      · subst hne
        rw [Function.update_self, haccount]
        rfl
      · rw [Function.update_of_ne hne]
    · rw [mem_after_automatic, henv]
      exact and_congr_right fun _ => or_congr_right (and_iff_right rfl)
  | erased bid henv hreversed =>
    refine h.erase bid fun id => ?_
    rw [mem_after_automatic, henv]
    exact and_congr_right fun _ => or_iff_left nofun

variable {admits : Origins → Db → FolioOp → Prop}

theorem Chronicle.run {db' : Db} {o' : Origins} (h : Chronicle db.books o.automatic)
    (hrun : FolioRun admits db o db' o') : Chronicle db'.books o'.automatic := by
  induction hrun with
  | refl => exact h
  | tail op _ hdraws _ ih => exact ih.step hdraws

theorem chronicle_of_history (h : FolioHistory admits db o) :
    Chronicle db.books o.automatic := by
  obtain ⟨today, hrun⟩ := h
  have hempty : Chronicle (Db.empty today).books [] := ⟨List.nodup_nil, nofun, nofun, nofun⟩
  exact hempty.run hrun

end History

/-! Runs -/

def FolioOp.next (s : Db × Origins) (op : FolioOp) : Db × Origins :=
  (op.prog.transact s.1, s.2.after op s.1.folio (op.prog.transact s.1).folio)

theorem FolioHistory.next {admits : Origins → Db → FolioOp → Prop} {s : Db × Origins}
    (h : FolioHistory admits s.1 s.2) (op : FolioOp)
    (hdraws : ∀ env, op.env = some env → env.Draws s.1.folio) (hop : admits s.2 s.1 op) :
    FolioHistory admits (op.next s).1 (op.next s).2 :=
  h.imp fun _ hrun => hrun.tail op hdraws hop

namespace Demo

/-- The rows of a hotel that no booking has. -/
def withHotel (hotel db : Db) : Db :=
  { db with
    properties := hotel.properties, ratePlans := hotel.ratePlans, rates := hotel.rates,
    roomTypes := hotel.roomTypes, rooms := hotel.rooms, ledger := hotel.ledger }

theorem books_withHotel (hotel db : Db) : (withHotel hotel db).books = db.books := rfl

def opening : FolioOp := .other (withHotel (run (.empty 0) openHotel)) (books_withHotel _)

def cityTax : Tax.TaxRuleSchema where
  code := "city"
  name := "City tax"
  rate := ⟨"0.05", 1 / 20, by decide +kernel, by norm_num, by norm_num⟩
  inclusive := false
  appliesTo := ["all"]
  compoundAfter := none
  displayOnFolio := true
  active := true
  code_length := by decide
  name_length := by decide
  appliesTo_length := Tax.TaxRuleSchema.appliesTo_all
  compoundAfter_length := Tax.TaxRuleSchema.compoundAfter_none

/-- Identifiers from a number on, and a pack with one tax. -/
def drawing (start : UUID) : Env :=
  { env 1000 0 0 with
    folioId := fun i => start + i
    countryPack := fun _ => some (Tax.storedTaxes [cityTax], .exclusive) }

theorem drawing_draws {start : UUID} {folio : List FolioTransaction}
    (h : ∀ id ∈ folioIds folio, id < start) : (drawing start).Draws folio := by
  refine ⟨fun i j hij => Nat.add_left_cancel hij, fun n hmem => ?_⟩
  exact absurd (h _ hmem) (Nat.not_lt.mpr (Nat.le_add_right start n))

/-- The hotel takes a booking. -/
def booked : Db × Origins :=
  FolioOp.next (opening.next (.empty 0, ⟨[], []⟩)) (.createBooking (drawing 3000) stay)

theorem booked_history {admits : Origins → Db → FolioOp → Prop}
    (hadmits : ∀ o db op, (∀ bid, ¬ op.Reprices db bid) → admits o db op) :
    FolioHistory admits booked.1 booked.2 := by
  have hopened : FolioHistory admits (opening.next (.empty 0, ⟨[], []⟩)).1
      (opening.next (.empty 0, ⟨[], []⟩)).2 :=
    FolioHistory.next (s := (.empty 0, ⟨[], []⟩)) ⟨0, .refl⟩ opening nofun (hadmits _ _ _ fun _ => id)
  refine hopened.next (.createBooking (drawing 3000) stay) ?_ (hadmits _ _ _ fun _ => id)
  intro env henv
  cases henv
  exact drawing_draws (by decide)

end Demo

end OpenPms
