import OpenPms.ChannexBooking

/-!
Postings on a folio by staff and by Stripe, and their reversal. A reversal is a row of its
own; it names the row that it offsets in its description only.
-/
namespace OpenPms

open Transaction Prog

/-- A lower case letter, then at most 31 letters, digits and underscores. -/
def isCategoryCode (code : String) : Bool :=
  match code.toList with
  | [] => false
  | c :: rest => c.isLower && rest.length ≤ 31 &&
      rest.all fun c => c.isLower || c.isDigit || c = '_'

structure FolioPostRequest where
  entryType : FolioType
  amount : ℚ
  category : String
  description : Option String
  paymentMethod : Option String
  amount_pos : 0 < amount
  category_code : isCategoryCode category = true
  description_length : ∀ text ∈ description, text.length ≤ 512
  method_length : ∀ m ∈ paymentMethod, m.length ≤ 64
  category_payment : entryType = .payment ↔ category = "payment"
  method_payment : entryType = .payment → ∃ m ∈ paymentMethod, Text.strip m ≠ ""

/-- INSERT of a folio row. -/
def flushFolio (ft : FolioTransaction) : Tx Unit := do
  raiseIf (ft.amount.fits = false) .dataError
  let clash ← select fun db => db.folio.any fun row => row.id = ft.id
  raiseIf (clash = true) .integrityError
  modify fun db => { db with folio := db.folio ++ [ft] }

def storedAmount (body : FolioPostRequest) : ℚ :=
  if body.entryType = .charge ∧ body.category = "discount" then -|body.amount| else body.amount

/-- `allowed` are the codes of the tenant's active charge categories. -/
def addFolioEntry (id : UUID) (allowed : List String) (bid : UUID) (body : FolioPostRequest) :
    Tx FolioTransaction := do
  requireBooking bid
  raiseIf (body.entryType = .charge ∧ body.category ∉ allowed)
    (.folio "invalid category for charge" 422)
  let amount ← ofExcept (decimalAmount (.number (storedAmount body)))
  let tx : FolioTransaction :=
    { id := id, bookingId := bid, transactionType := body.entryType, amount := amount,
      paymentMethod := match body.entryType with
        | .charge => none
        | .payment => (body.paymentMethod.bind nonEmpty).map Text.strip
      description := (body.description.bind nonEmpty).map Text.strip, category := body.category }
  flushFolio tx
  pure tx

def Money.neg (m : Money) : Money := Money.sub 0 m

def reversalText (txId : UUID) : String := "Reversal of " ++ toString txId

/-- The row that offsets another one. -/
def reversal (id : UUID) (tx : FolioTransaction) : FolioTransaction :=
  { tx with id := id, amount := tx.amount.neg, description := some (reversalText tx.id) }

/-- A row may be reversed any number of times. -/
def reverseFolioTransaction (id bid txId : UUID) : Tx FolioTransaction := do
  requireBooking bid
  let found ← select fun db => db.folio.find? fun ft => ft.bookingId = bid && ft.id = txId
  match found with
  | none => raise (.folio "folio transaction not found" 404)
  | some tx => do
    raiseIf (tx.amount = 0) (.folio "cannot reverse zero-amount transaction" 409)
    flushFolio (reversal id tx)
    pure (reversal id tx)

/-- The payment row that a charge, a refund or the webhook of a refund inserts. -/
def stripeRow (id bid : UUID) (amount : ℤ) (description : String) : FolioTransaction :=
  { id := id, bookingId := bid, transactionType := .payment, amount := (amount : ℤ),
    paymentMethod := some "stripe", description := some description, category := "payment" }

/-- The foreign key needs the booking to be there still. -/
def postStripeRow (id bid : UUID) (amount : ℤ) (description : String) : Tx Unit := do
  let booking ← select fun db => db.bookings.find bid
  raiseIf (booking = none) .integrityError
  flushFolio (stripeRow id bid amount description)

section Exec
variable {db db' : Db}

theorem exec_flushFolio_ok {ft : FolioTransaction} {u : Unit}
    (h : (flushFolio ft).exec db = (.ok u, db')) :
    (∀ row ∈ db.folio, row.id ≠ ft.id) ∧ db' = { db with folio := db.folio ++ [ft] } := by
  simp only [flushFolio, exec_bind_ok, exec_raiseIf_ok, exec_select, exec_modify, Prod.mk.injEq,
    Except.ok.injEq] at h
  obtain ⟨_, _, ⟨-, rfl⟩, clash, _, ⟨rfl, rfl⟩, _, _, ⟨hclash, rfl⟩, -, rfl⟩ := h
  refine ⟨fun row hrow hid => hclash ?_, rfl⟩
  exact List.any_eq_true.mpr ⟨row, hrow, by simp [hid]⟩

theorem exec_requireBooking_ok {bid : UUID} {u : Unit} :
    (requireBooking bid).exec db = (.ok u, db') ↔
      (db.bookings.find bid).isSome ∧ db = db' := by
  simp only [requireBooking, exec_bind_ok, exec_select, exec_raiseIf_ok, Prod.mk.injEq,
    Except.ok.injEq]
  constructor
  · rintro ⟨_, _, ⟨rfl, rfl⟩, hfound, rfl⟩
    exact ⟨Option.isSome_iff_ne_none.mpr hfound, rfl⟩
  · rintro ⟨hfound, rfl⟩
    exact ⟨_, _, ⟨rfl, rfl⟩, Option.isSome_iff_ne_none.mp hfound, rfl⟩

/-- A posting appends one row, of a booking that exists, under a new identifier. -/
structure Appends (db db' : Db) (ft : FolioTransaction) : Prop where
  booking : (db.bookings.find ft.bookingId).isSome
  fresh : ∀ row ∈ db.folio, row.id ≠ ft.id
  eq : db' = { db with folio := db.folio ++ [ft] }

theorem addFolioEntry_appends {id bid : UUID} {allowed : List String} {body : FolioPostRequest}
    {ft : FolioTransaction} (h : (addFolioEntry id allowed bid body).exec db = (.ok ft, db')) :
    Appends db db' ft ∧ ft.id = id := by
  simp only [addFolioEntry, exec_bind_ok, exec_requireBooking_ok, exec_raiseIf_ok,
    exec_ofExcept_ok, exec_pure, Prod.mk.injEq, Except.ok.injEq] at h
  obtain ⟨_, _, ⟨hbooking, rfl⟩, _, _, ⟨-, rfl⟩, _, _, ⟨-, rfl⟩, _, _, hflush, rfl, rfl⟩ := h
  obtain ⟨hfresh, heq⟩ := exec_flushFolio_ok hflush
  exact ⟨⟨hbooking, hfresh, heq⟩, rfl⟩

theorem reverseFolioTransaction_appends {id bid txId : UUID} {ft : FolioTransaction}
    (h : (reverseFolioTransaction id bid txId).exec db = (.ok ft, db')) :
    Appends db db' ft ∧ ∃ tx ∈ db.folio, tx.id = txId ∧ ft = reversal id tx := by
  simp only [reverseFolioTransaction, exec_bind_ok, exec_requireBooking_ok, exec_select,
    Prod.mk.injEq, Except.ok.injEq] at h
  obtain ⟨_, _, ⟨hbooking, rfl⟩, found, _, ⟨hfound, rfl⟩, h⟩ := h
  split at h
  · cases h
  · next tx =>
    simp only [exec_bind_ok, exec_raiseIf_ok, exec_pure, Prod.mk.injEq, Except.ok.injEq] at h
    obtain ⟨_, _, ⟨-, rfl⟩, _, _, hflush, rfl, rfl⟩ := h
    obtain ⟨hfresh, heq⟩ := exec_flushFolio_ok hflush
    have hkey := List.find?_some hfound
    simp only [Bool.and_eq_true, decide_eq_true_eq] at hkey
    have hsame : (reversal id tx).bookingId = bid := hkey.1
    refine ⟨⟨?_, hfresh, heq⟩, tx, List.mem_of_find?_eq_some hfound, hkey.2, rfl⟩
    rw [hsame]
    exact hbooking

theorem postStripeRow_appends {id bid : UUID} {amount : ℤ} {description : String} {u : Unit}
    (h : (postStripeRow id bid amount description).exec db = (.ok u, db')) :
    Appends db db' (stripeRow id bid amount description) := by
  simp only [postStripeRow, exec_bind_ok, exec_select, exec_raiseIf_ok, Prod.mk.injEq,
    Except.ok.injEq] at h
  obtain ⟨_, _, ⟨rfl, rfl⟩, _, _, ⟨hbooking, rfl⟩, hflush⟩ := h
  obtain ⟨hfresh, heq⟩ := exec_flushFolio_ok hflush
  exact ⟨Option.isSome_iff_ne_none.mpr hbooking, hfresh, heq⟩

end Exec

end OpenPms
