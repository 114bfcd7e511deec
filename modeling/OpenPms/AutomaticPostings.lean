import OpenPms.FolioHistory

/-!
What the automatic posting touches. It finds the taxes of an earlier posting by their
category and the prefix of their description, and staff may post such a row as well; the
posting then deletes it.
-/
namespace OpenPms

open KeyedTable Transaction Prog

/-- The taxes are replaced, and the room charge takes the amount that is left. -/
def postAutomatically (env : Env) (bid propertyId : UUID) (base : Money) : Tx Unit := do
  let amount ← replaceCountryPackTaxCharges env bid propertyId base
  updateFolioChargeAmount bid amount

/-- A row without the identifier that a tax has been given. -/
def unnumbered (bid : UUID) (ft : FolioTransaction) : FolioTransaction :=
  if isCountryPackTax bid ft then { ft with id := 0 } else ft

/-- What the posting of a base to a booking should be: all other rows stay, posting the
base once more gives the same rows, and the automatic rows are those of the country pack. -/
structure PostsOnlyItself (o : Origins) (env : Env) (bid propertyId : UUID) (base : Money)
    (db db' : Db) : Prop where
  others : ∀ ft ∈ db.folio, ft.id ∉ o.automatic → ft ∈ db'.folio
  again : ∀ env' : Env, env'.countryPack propertyId = env.countryPack propertyId →
    ((postAutomatically env' bid propertyId base).transact db').folio.map (unnumbered bid) =
      db'.folio.map (unnumbered bid)
  posted : (db'.folio.filter
      (isAutomatic (addedIds db.folio db'.folio ++ o.automatic) bid)).map
        (fun ft => (ft.category, ft.amount)) =
    ("room_charge", (posting env propertyId base).1) ::
      (posting env propertyId base).2.map fun line => ("tax", line.1)

/-- All rows that look like taxes of the country pack are such taxes. -/
def OnlyAutomaticTaxes (o : Origins) (bid : UUID) (folio : List FolioTransaction) : Prop :=
  ∀ ft ∈ folio, isCountryPackTax bid ft = true → ft.id ∈ o.automatic

section Rows
variable {env env' : Env} {bid propertyId : UUID} {base : Money} {folio : List FolioTransaction}

theorem exec_postAutomatically {db db' : Db} {u : Unit}
    (h : (postAutomatically env bid propertyId base).exec db = (.ok u, db')) :
    db' = { db with folio := reprice env bid propertyId base db.folio } := by
  obtain ⟨amount, db₁, htaxes, hcharge⟩ := exec_bind_ok.mp h
  obtain ⟨-, -, rfl, rfl⟩ := exec_replaceTaxes.mp htaxes
  obtain ⟨-, rfl⟩ := exec_updateFolioCharge_ok.mp hcharge
  rfl

/-- A row that looks like a tax of the pack does not survive. -/
theorem not_mem_reprice {ft : FolioTransaction}
    (hnew : ∀ n, env.folioId (n + 1) ∉ folioIds folio) (h : ft ∈ folio)
    (htax : isCountryPackTax bid ft = true) : ft ∉ reprice env bid propertyId base folio := by
  rw [reprice_eq, List.mem_append]
  rintro (hkept | hadded)
  · have hnone : (setFirstAmount (isRoomCharge bid) (posting env propertyId base).1
        (withoutTaxes bid folio)).filter (isCountryPackTax bid) = [] := by
      rw [filter_setFirstAmount_of_not (fun u hu => by simp [not_tax_of_roomCharge hu])
        fun _ => rfl]
      unfold withoutTaxes
      exact List.filter_eq_nil_iff.mpr fun u hu => by simpa using (List.mem_filter.mp hu).2
    exact List.filter_eq_nil_iff.mp hnone ft hkept htax
  · exact new_of_mem_taxRows hnew hadded (List.mem_map_of_mem h)

theorem mem_reprice {ft : FolioTransaction} (h : ft ∈ folio)
    (htax : ¬ isCountryPackTax bid ft = true)
    (hroom : folio.find? (isRoomCharge bid) ≠ some ft) :
    ft ∈ reprice env bid propertyId base folio := by
  rw [reprice_eq]
  refine List.mem_append_left _ (mem_setFirstAmount (List.mem_filter.mpr ⟨h, ?_⟩) ?_)
  · simp [htax]
  · rwa [find_withoutTaxes]

theorem withoutTaxes_reprice : withoutTaxes bid (reprice env bid propertyId base folio) =
    setFirstAmount (isRoomCharge bid) (posting env propertyId base).1 (withoutTaxes bid folio) := by
  have hadded : withoutTaxes bid (taxRows env bid (posting env propertyId base).2) = [] :=
    List.filter_eq_nil_iff.mpr fun ft hft => by simp [tax_of_mem_taxRows hft]
  have hkept : withoutTaxes bid (withoutTaxes bid folio) = withoutTaxes bid folio := by
    simp [withoutTaxes, List.filter_filter]
  rw [reprice_eq]
  unfold withoutTaxes at *
  rw [List.filter_append, hadded, List.append_nil,
    filter_setFirstAmount (fun ft hft => ?_) fun _ => rfl, hkept]
  simp [not_tax_of_roomCharge (List.find?_some hft)]

theorem unnumbered_taxRows (taxes : List (Money × String)) :
    (taxRows env bid taxes).map (unnumbered bid) = (taxRows env' bid taxes).map (unnumbered bid) := by
  apply List.ext_getElem
  · simp [taxRows]
  · intro i hi hi'
    simp [taxRows, unnumbered, isCountryPackTax, taxDescription]

/-- Posting twice is posting once, up to the identifiers of the taxes. -/
theorem unnumbered_reprice_again
    (hpack : env'.countryPack propertyId = env.countryPack propertyId) :
    (reprice env' bid propertyId base (reprice env bid propertyId base folio)).map (unnumbered bid) =
      (reprice env bid propertyId base folio).map (unnumbered bid) := by
  have hposting : posting env' propertyId base = posting env propertyId base := by
    unfold posting Env.taxPosting
    rw [hpack]
  rw [reprice_eq env', withoutTaxes_reprice, hposting, setFirstAmount_again fun _ => rfl,
    reprice_eq env, List.map_append, List.map_append, unnumbered_taxRows]

end Rows

section Posting
variable {db db' : Db} {o : Origins} {env : Env} {bid propertyId : UUID} {base : Money}

/-- The automatic rows after a posting are those of the country pack. -/
theorem posted_reprice {folio : List FolioTransaction} {automatic automatic' : List UUID}
    (h : Posted folio automatic bid) (hnew : ∀ n, env.folioId (n + 1) ∉ folioIds folio)
    (hids : ∀ ft ∈ reprice env bid propertyId base folio,
      ft.id ∈ automatic' ↔ ft.id ∈ automatic ∨ ft.id ∉ folioIds folio) :
    ((reprice env bid propertyId base folio).filter (isAutomatic automatic' bid)).map
        (fun ft => (ft.category, ft.amount)) =
      ("room_charge", (posting env propertyId base).1) ::
        (posting env propertyId base).2.map fun line => ("tax", line.1) := by
  obtain ⟨room, taxes, hroom, hfilter, htaxes⟩ := h
  have hcategory : room.category = "room_charge" := by
    have hcharge := List.find?_some hroom
    simp only [isRoomCharge, Bool.and_eq_true, decide_eq_true_eq] at hcharge
    exact hcharge.2
  have hrows : (taxRows env bid (posting env propertyId base).2).map
      (fun ft => (ft.category, ft.amount)) =
        (posting env propertyId base).2.map fun line => ("tax", line.1) := by
    apply List.ext_getElem
    · simp [taxRows]
    · intro i hi hi'
      simp [taxRows]
  rw [filter_reprice hnew hroom hfilter htaxes hids, List.map_cons, hrows, hcategory]

/-- A posting that is rolled back leaves the rows too. -/
theorem again_of_reprice {folio : List FolioTransaction}
    (hfolio : db'.folio = reprice env bid propertyId base folio) (env' : Env)
    (hpack : env'.countryPack propertyId = env.countryPack propertyId) :
    ((postAutomatically env' bid propertyId base).transact db').folio.map (unnumbered bid) =
      db'.folio.map (unnumbered bid) := by
  refine transact_induction (R := fun s s' : Db => s.folio = reprice env bid propertyId base folio →
    s'.folio.map (unnumbered bid) = s.folio.map (unnumbered bid)) _ (fun _ => rfl)
    (fun u s' h hs => ?_) hfolio
  rw [exec_postAutomatically h, hs]
  exact unnumbered_reprice_again hpack

/-- The posting touches only its own rows exactly when no other row looks like a tax of the
country pack. -/
theorem postsOnlyItself_iff (h : Chronicle db.books o.automatic)
    (hbooking : (db.books.account bid).isSome) (hdraws : env.Draws db.folio)
    (hfolio : db'.folio = reprice env bid propertyId base db.folio) :
    PostsOnlyItself o env bid propertyId base db db' ↔ OnlyAutomaticTaxes o bid db.folio := by
  have hnew : ∀ n, env.folioId (n + 1) ∉ folioIds db.folio := fun n => hdraws.2 _
  constructor
  · intro hposts ft hft htax
    by_contra hauto
    have hkept := hposts.others ft hft hauto
    rw [hfolio] at hkept
    exact not_mem_reprice hnew hft htax hkept
  · intro honly
    have hposted : Posted db.folio o.automatic bid := h.posted bid hbooking
    refine ⟨fun ft hft hauto => ?_, again_of_reprice hfolio, ?_⟩
    · rw [hfolio]
      refine mem_reprice hft (fun htax => hauto (honly ft hft htax)) fun hroom => hauto ?_
      obtain ⟨room, taxes, hfound, hfilter, -⟩ := hposted
      have hmem := (List.mem_filter.mp (hfilter ▸ List.mem_cons_self ..)).2
      simp only [isAutomatic, Bool.and_eq_true, decide_eq_true_eq] at hmem
      exact Option.some.inj (hfound.symm.trans hroom) ▸ hmem.2
    · rw [hfolio]
      refine posted_reprice hposted hnew fun ft hft => ?_
      rw [List.mem_append, mem_addedIds]
      have hid : ft.id ∈ folioIds (reprice env bid propertyId base db.folio) :=
        List.mem_map_of_mem hft
      tauto

/-- A new booking has no rows yet that the posting could touch. -/
theorem postsOnlyItself_of_opened (h : Chronicle db.books o.automatic)
    (hdraws : env.Draws db.folio) (hopened : Opened env db.books db'.books) :
    ∃ account, db'.books.account env.bookingId = some account ∧
      PostsOnlyItself o env env.bookingId account.propertyId account.total db db' ∧
      OnlyAutomaticTaxes o env.bookingId db.folio := by
  obtain ⟨account, description, hnone, hbooks⟩ := hopened
  have haccount : db'.books.account env.bookingId = some account := by
    rw [hbooks]
    exact Function.update_self ..
  have hfolio : db'.folio = _ := congrArg Books.folio hbooks
  have hothers : ∀ ft ∈ db.folio, ft.bookingId ≠ env.bookingId := by
    intro ft hft hbid
    have hknown := h.known ft hft
    rw [hbid, hnone] at hknown
    cases hknown
  refine ⟨account, haccount, ⟨fun ft hft _ => ?_, again_of_reprice hfolio, ?_⟩,
    fun ft hft htax => ?_⟩
  · rw [hfolio, mem_reprice_of_ne (hothers ft hft)]
    exact List.mem_append_left _ hft
  · have hposted : Posted _ (env.folioId 0 :: o.automatic) env.bookingId :=
      (h.open account description hnone hdraws).posted env.bookingId (by simp)
    rw [hfolio]
    refine posted_reprice hposted (new_of_opened hdraws) fun ft hft => ?_
    have hid : ft.id ∈ folioIds (reprice env env.bookingId account.propertyId account.total
        (db.folio ++ [roomChargeRow env env.bookingId account.total description])) :=
      List.mem_map_of_mem hft
    rw [List.mem_append, mem_addedIds]
    refine Iff.trans ?_ (recorded_open hdraws).symm
    tauto
  · simp only [isCountryPackTax, Bool.and_eq_true, decide_eq_true_eq] at htax
    exact absurd htax.1.1.1 (hothers ft hft)

end Posting

/-- In every history of folios the posting of any base to any booking, where it returns, touches
only its own rows exactly when no row of staff looks like a tax of the country pack; and an
operation that posts does so with the total that it leaves the booking it opens or prices. -/
theorem automatic_postings_touch_themselves {db : Db} {o : Origins}
    (h : FolioHistory (fun _ _ _ => True) db o) :
    (∀ (env : Env) bid account base db', env.Draws db.folio →
      db.books.account bid = some account →
      (postAutomatically env bid account.propertyId base).exec db = (.ok (), db') →
      (PostsOnlyItself o env bid account.propertyId base db db' ↔
        OnlyAutomaticTaxes o bid db.folio)) ∧
    ∀ (op : FolioOp) (env : Env), op.env = some env → env.Draws db.folio →
      (op.prog.transact db).books = db.books ∨ ∃ bid account, (op.Opens bid ∨ op.Reprices db bid) ∧
        (op.prog.transact db).books.account bid = some account ∧
        (PostsOnlyItself o env bid account.propertyId account.total db (op.prog.transact db) ↔
          OnlyAutomaticTaxes o bid db.folio) := by
  have hchronicle := chronicle_of_history h
  constructor
  · intro env bid account base db' hdraws haccount hexec
    have hbooking : (db.books.account bid).isSome := by rw [haccount, Option.isSome_some]
    exact postsOnlyItself_iff hchronicle hbooking hdraws
      (congrArg Db.folio (exec_postAutomatically hexec))
  · intro op env henv hdraws
    have heffect := op.effect_transact db
    generalize op.prog.transact db = db' at heffect ⊢
    generalize hb' : db'.books = b' at heffect
    cases heffect with
    | same => exact .inl rfl
    | appended ft hnone => exact absurd (henv.symm.trans hnone) nofun
    | opened env' b' henv' hopens hopened =>
      obtain rfl : env = env' := Option.some.inj (henv.symm.trans henv')
      obtain ⟨account, haccount, hposts, honly⟩ :=
        postsOnlyItself_of_opened hchronicle hdraws (hb' ▸ hopened)
      exact .inr ⟨env.bookingId, account, .inl hopens, hb' ▸ haccount, iff_of_true hposts honly⟩
    | repriced env' bid b' henv' hreprices hrepriced =>
      obtain rfl : env = env' := Option.some.inj (henv.symm.trans henv')
      obtain ⟨account, total, haccount, rfl⟩ := hrepriced
      have hbooking : (db.books.account bid).isSome := by rw [haccount, Option.isSome_some]
      refine .inr ⟨bid, { account with total := total }, .inr hreprices,
        Function.update_self .., ?_⟩
      exact postsOnlyItself_iff hchronicle hbooking hdraws (congrArg Books.folio hb')
    | erased bid hnone hreversed => exact absurd (henv.symm.trans hnone) nofun

namespace Demo

/-- A tax that staff posts. -/
def staffTax (text : String) (h : text.length ≤ 512) : FolioPostRequest where
  entryType := .charge
  amount := 20
  category := "tax"
  description := some text
  paymentMethod := none
  amount_pos := by decide
  category_code := by decide
  description_length := by simpa using h
  method_length := nofun
  category_payment := by decide
  method_payment := nofun

def taxed (text : String) (h : text.length ≤ 512) : Db × Origins :=
  FolioOp.next booked (.post 4000 ["tax"] 1000 (staffTax text h))

theorem taxed_history (text : String) (h : text.length ≤ 512) :
    FolioHistory (fun _ _ _ => True) (taxed text h).1 (taxed text h).2 :=
  (booked_history fun _ _ _ _ => trivial).next _ nofun trivial

def laterCheckout : FolioOp :=
  .patchBooking (drawing 5000) 1000 { checkOut := some (some 5) }

end Demo

theorem automatic_postings_touch_themselves_demo :
    PostsOnlyItself (Demo.taxed "minibar" (by decide)).2 (Demo.drawing 5000) 1000 1 (20000 : ℤ)
      (Demo.taxed "minibar" (by decide)).1
      ((postAutomatically (Demo.drawing 5000) 1000 1 (20000 : ℤ)).transact
        (Demo.taxed "minibar" (by decide)).1) :=
  ((automatic_postings_touch_themselves (Demo.taxed_history "minibar" (by decide))).1
    (Demo.drawing 5000) 1000 ⟨1, (10000 : ℤ), none⟩ (20000 : ℤ) _
    (Demo.drawing_draws (by decide +kernel)) (by decide +kernel)
    (exec_eq_transact (by decide +kernel))).mpr (by
      unfold OnlyAutomaticTaxes
      decide +kernel)

/-- Staff posts a tax whose description starts like those of the pack; a later date then
deletes the row. -/
theorem date_change_deletes_staff_tax :
    FolioHistory (fun _ _ _ => True) (Demo.taxed "[country-pack-tax] minibar" (by decide)).1
      (Demo.taxed "[country-pack-tax] minibar" (by decide)).2 ∧
    ∀ base, ¬ PostsOnlyItself (Demo.taxed "[country-pack-tax] minibar" (by decide)).2
      (Demo.drawing 5000) 1000 1 base (Demo.taxed "[country-pack-tax] minibar" (by decide)).1
      (Demo.laterCheckout.prog.transact (Demo.taxed "[country-pack-tax] minibar" (by decide)).1) := by
  refine ⟨Demo.taxed_history _ _, fun base hposts => ?_⟩
  have hlost : ∃ ft ∈ (Demo.taxed "[country-pack-tax] minibar" (by decide)).1.folio,
      ft.id ∉ (Demo.taxed "[country-pack-tax] minibar" (by decide)).2.automatic ∧
      ft ∉ (Demo.laterCheckout.prog.transact
        (Demo.taxed "[country-pack-tax] minibar" (by decide)).1).folio := by
    decide +kernel
  obtain ⟨ft, hft, hauto, hgone⟩ := hlost
  exact hgone (hposts.others ft hft hauto)

end OpenPms
