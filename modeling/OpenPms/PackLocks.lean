import OpenPms.TenantIsolation

/-!
What stays, whatever the tenants ask for. A country pack stays, also one whose deletion was
answered as done. The pack of a property stays once there are bookings, as far as packs are
applied to it; an edit of the property changes it all the same.
-/
namespace OpenPms.Packs

open KeyedTable

/-! Country packs -/

section Packs
variable {tenant client : UUID} {db db' : SharedDb} {req : PackRequest} {w : Write}
  {row : CountryPack}

/-- Only its own tenant changes a pack, and never what makes it visible. -/
structure Continues (row row' : CountryPack) : Prop where
  code : row'.code = row.code
  tenantId : row'.tenantId = row.tenantId
  isBuiltin : row'.isBuiltin = row.isBuiltin
  builtin : row.isBuiltin = true → row' = row

theorem Continues.refl (row : CountryPack) : Continues row row := ⟨rfl, rfl, rfl, fun _ => rfl⟩

theorem Continues.trans {row row' row'' : CountryPack} (h : Continues row row')
    (h' : Continues row' row'') : Continues row row'' where
  code := h'.code.trans h.code
  tenantId := h'.tenantId.trans h.tenantId
  isBuiltin := h'.isBuiltin.trans h.isBuiltin
  builtin hbuiltin := (h'.builtin (h.isBuiltin.trans hbuiltin)).trans (h.builtin hbuiltin)

theorem Continues.visible {row' : CountryPack} (h : Continues row row') :
    row'.visible tenant = row.visible tenant := by
  unfold CountryPack.visible
  rw [h.tenantId, h.isBuiltin]

theorem pack_perform (hown : w.tenant = some client) (hok : w.perform client db = .ok db')
    (hrow : row ∈ db.packs.rows) : ∃ row' ∈ db'.packs.rows, Continues row row' := by
  cases w with
  | addPack new =>
    simp only [Write.perform] at hok
    split at hok
    · exact absurd hok (by simp)
    · obtain rfl := Except.ok.inj hok
      exact ⟨row, Table.mem_insert_iff.mpr (.inl hrow), .refl row⟩
  | setPack new =>
    obtain rfl := Except.ok.inj hok
    refine ⟨replacePack client new row, List.mem_map_of_mem hrow, ?_⟩
    obtain ⟨htenant, hbuiltin⟩ := tenantId_of_write hown
    unfold replacePack
    split
    · next hold =>
      refine ⟨hold.1.symm, htenant.trans hold.2.1.symm, hbuiltin.trans hold.2.2.symm, fun h => ?_⟩
      exact absurd (hold.2.2.symm.trans h) (by simp)
    · exact .refl row
  | addProperty new | setProperty new | addExtension new =>
    simp only [Write.perform] at hok
    split at hok
    · exact absurd hok (by simp)
    · obtain rfl := Except.ok.inj hok
      exact ⟨row, hrow, .refl row⟩
  | addTaxConfig new | setTaxConfig new | removeTaxConfig t property | addPropertyExtension new
  | setPropertyExtension new | addBooking t property =>
    obtain rfl := Except.ok.inj hok
    exact ⟨row, hrow, .refl row⟩

theorem pack_serve (client : UUID) (req : PackRequest) (hrow : row ∈ db.packs.rows) :
    ∃ row' ∈ (serve client req db).2.packs.rows, Continues row row' := by
  have hcases := serve_cases client req db
  generalize (serve client req db).2 = db' at hcases
  cases hcases with
  | unchanged => exact ⟨row, hrow, .refl row⟩
  | wrote _ hown hok => exact pack_perform hown hok hrow

/-- No run loses a pack, and none changes a built-in one. -/
theorem pack_run (requests : List (UUID × PackRequest)) (hrow : row ∈ db.packs.rows) :
    ∃ row' ∈ (Isolation.run serve requests db).2.packs.rows, Continues row row' := by
  refine Isolation.run_induction (P := fun s : SharedDb => ∃ row' ∈ s.packs.rows, Continues row row')
    ⟨row, hrow, .refl row⟩ fun r _ s hs => ?_
  obtain ⟨row', hmem, hcontinues⟩ := hs
  obtain ⟨row'', hmem', hcontinues'⟩ := pack_serve r.1 r.2 hmem
  exact ⟨row'', hmem', hcontinues.trans hcontinues'⟩

theorem deletePack_ok {code : String} {a : Answer}
    (h : (serve tenant (.deletePack code) db).1 = .ok a) :
    (serve tenant (.deletePack code) db).2 = db ∧ ∃ row ∈ db.packs.rows,
      row.code = Text.strip code ∧ row.tenantId = some tenant := by
  have hresult : ∃ out, PackRequest.result tenant (db.seenBy tenant) (.deletePack code) = .ok out := by
    unfold serve at h
    split at h
    · exact absurd h (by simp)
    · next hok => exact ⟨_, hok⟩
    · next hok => exact ⟨_, hok⟩
  obtain ⟨out, hresult⟩ := hresult
  obtain ⟨_, hdelete, hout⟩ := Except.bind_eq_ok.mp hresult
  obtain rfl := Except.ok.inj hout
  constructor
  · unfold serve
    rw [hresult]
  · unfold deleteCountryPack at hdelete
    split at hdelete
    · exact absurd hdelete (by simp)
    · next row hrow =>
      split_ifs at hdelete with _ howner
      obtain ⟨hmem, hcode⟩ := Table.find_eq_some.mp hrow
      exact ⟨row, (Table.mem_restrict.mp hmem).1, hcode, not_not.mp howner⟩

/-- A code that is taken is not taken again, by whomever. -/
theorem createPack_taken {data : CountryPackCreate}
    (h : ∃ row ∈ db.packs.rows, row.code = Text.strip data.code) :
    ∃ e, serve client (.createPack data) db = (.error e, db) := by
  obtain ⟨old, hold, hcode⟩ := h
  cases hresult : PackRequest.result client (db.seenBy client) (.createPack data) with
  | error e =>
    refine ⟨e, ?_⟩
    unfold serve
    rw [hresult]
  | ok out =>
    obtain ⟨⟨db', row⟩, hcreate, hout⟩ := Except.bind_eq_ok.mp hresult
    obtain rfl := Except.ok.inj hout
    have htaken : (db.packs.find row.code).isSome := by
      rw [createCountryPack_code (mapError_ok.mp hcreate), ← hcode, Table.find_of_mem hold]
      rfl
    have hcommit : ∃ e, (Write.addPack row).commit client db = .error e := by
      unfold Write.commit
      split
      · exact ⟨_, if_pos htaken⟩
      · exact ⟨_, rfl⟩
    obtain ⟨e, hcommit⟩ := hcommit
    refine ⟨e, ?_⟩
    unfold serve
    rw [hresult]
    simp only [hcommit]

/-- Deleting a pack is answered as done and deletes nothing: whatever the tenants ask for
afterwards, its tenant still finds it, and nobody can create another one under its code. -/
theorem deleted_pack_stays {code : String} {a : Answer}
    (hdelete : (serve tenant (.deletePack code) db).1 = .ok a)
    (requests : List (UUID × PackRequest)) :
    let s := (Isolation.run serve requests (serve tenant (.deletePack code) db).2).2
    (∃ row, getCountryPack code (s.seenBy tenant) = some row ∧ row.tenantId = some tenant) ∧
      ∀ client data, Text.strip data.code = Text.strip code →
        ∃ e, serve client (.createPack data) s = (.error e, s) := by
  obtain ⟨hdb, row, hrow, hcode, htenant⟩ := deletePack_ok hdelete
  rw [hdb]
  obtain ⟨row', hmem, hcontinues⟩ := pack_run requests hrow
  have hcode' : row'.code = Text.strip code := hcontinues.code.trans hcode
  have htenant' : row'.tenantId = some tenant := hcontinues.tenantId.trans htenant
  refine ⟨⟨row', ?_, htenant'⟩, fun client data hdata => createPack_taken ⟨row', hmem, ?_⟩⟩
  · refine Table.find_eq_some.mpr ⟨Table.mem_restrict.mpr ⟨hmem, ?_⟩, hcode'⟩
    exact visible_of_tenant htenant'
  · exact hcode'.trans hdata.symm

end Packs

namespace Demo

def freeDb : SharedDb := { sharedDb with properties := Table.empty }

end Demo

/-- After the deletion the pack is updated, and another tenant creates one. -/
theorem deleted_pack_stays_demo :
    let s := (Isolation.run serve [(1, .updatePack "AT" { name := some (some "Austria") }),
      (2, .createPack { Demo.packOf [] with code := "CH" })]
      (serve 1 (.deletePack "AT") Demo.freeDb).2).2
    (∃ a, (serve 1 (.deletePack "AT") Demo.freeDb).1 = .ok a) ∧ s.packs.rows.length = 2 ∧
      (∃ row, getCountryPack "AT" (s.seenBy 1) = some row ∧ row.tenantId = some 1) ∧
      ∃ e, serve 2 (.createPack (Demo.packOf [])) s = (.error e, s) := by
  have hdelete : (serve 1 (.deletePack "AT") Demo.freeDb).1 = .ok .done := rfl
  have hstays := deleted_pack_stays hdelete
    [(1, .updatePack "AT" { name := some (some "Austria") }),
      (2, .createPack { Demo.packOf [] with code := "CH" })]
  exact ⟨⟨_, hdelete⟩, by decide, hstays.1, hstays.2 2 (Demo.packOf []) rfl⟩

/-! Properties -/

section Locks
variable {client : UUID} {db db' : SharedDb} {req : PackRequest} {w : Write} {row : Property}

theorem find_property (h : row ∈ db.properties.rows) :
    (db.seenBy row.tenantId).properties.find row.id = some row :=
  Table.find_eq_some.mpr ⟨Table.mem_restrict.mpr ⟨h, by simp⟩, rfl⟩

/-- A property is replaced by a write of its tenant that has its identifier. -/
theorem property_perform (hrow : row ∈ db.properties.rows) (hok : w.perform client db = .ok db')
    (hkeep : ∀ new, w = .setProperty new → client = row.tenantId → new.id ≠ row.id) :
    row ∈ db'.properties.rows := by
  cases w with
  | setProperty new =>
    simp only [Write.perform] at hok
    split at hok
    · exact absurd hok (by simp)
    · obtain rfl := Except.ok.inj hok
      refine List.mem_map.mpr ⟨row, hrow, if_neg fun hold => ?_⟩
      exact hkeep new rfl hold.2.symm hold.1.symm
  | addProperty new =>
    simp only [Write.perform] at hok
    split at hok
    · exact absurd hok (by simp)
    · obtain rfl := Except.ok.inj hok
      exact Table.mem_insert_iff.mpr (.inl hrow)
  | addPack new | addExtension new =>
    simp only [Write.perform] at hok
    split at hok
    · exact absurd hok (by simp)
    · obtain rfl := Except.ok.inj hok
      exact hrow
  | setPack new | addTaxConfig new | setTaxConfig new | removeTaxConfig t property
  | addPropertyExtension new | setPropertyExtension new | addBooking t property =>
    obtain rfl := Except.ok.inj hok
    exact hrow

theorem bookings_perform {b : UUID × UUID} (hb : b ∈ db.bookings)
    (hok : w.perform client db = .ok db') : b ∈ db'.bookings := by
  cases w with
  | addBooking t property =>
    obtain rfl := Except.ok.inj hok
    exact List.mem_append_left _ hb
  | setProperty new | addProperty new | addPack new | addExtension new =>
    simp only [Write.perform] at hok
    split at hok
    · exact absurd hok (by simp)
    · obtain rfl := Except.ok.inj hok
      exact hb
  | setPack new | addTaxConfig new | setTaxConfig new | removeTaxConfig t property
  | addPropertyExtension new | setPropertyExtension new =>
    obtain rfl := Except.ok.inj hok
    exact hb

/-! Properties with bookings -/

structure Locked (row : Property) (db : SharedDb) : Prop where
  stored : row ∈ db.properties.rows
  booked : (row.tenantId, row.id) ∈ db.bookings

theorem Locked.count_pos (h : Locked row db) :
    0 < countBookings row.id (db.seenBy row.tenantId) := by
  refine List.length_pos_of_mem (a := (row.tenantId, row.id)) ?_
  exact List.mem_filter.mpr ⟨List.mem_filter.mpr ⟨h.booked, by simp⟩, by simp⟩

/-- Only an edit of the property changes it. -/
theorem Locked.serve (h : Locked row db) (hpack : row.countryPackCode.isSome)
    (hreq : ∀ data, (client, req) ≠ (row.tenantId, .updateProperty row.id data)) :
    Locked row (serve client req db).2 := by
  have hcases := serve_cases client req db
  generalize (Packs.serve client req db).2 = db' at hcases
  cases hcases with
  | unchanged => exact h
  | wrote hwrote hown hok =>
    refine ⟨property_perform h.stored hok ?_, bookings_perform h.booked hok⟩
    rintro new rfl rfl hid
    cases hwrote with
    | @applyPack code property old pack _ hold hfree =>
      obtain rfl : old.id = property := (Table.find_eq_some.mp hold).2
      obtain rfl : old = row := by
        rw [show old.id = row.id from hid, find_property h.stored] at hold
        exact (Option.some.inj hold).symm
      exact absurd (hfree hpack) h.count_pos.ne'
    | @updateProperty property data old new hold hnew hcode =>
      obtain rfl : old.id = property := (Table.find_eq_some.mp hold).2
      exact hreq data (by rw [← hnew, hid])
    | plain hplain => exact hplain

theorem Locked.serve_lockStatus (h : Locked row db) :
    ∃ n, (Packs.serve row.tenantId (.lockStatus row.id) db).1 = .ok (.lockStatus true n) := by
  have hresult : PackRequest.result row.tenantId (db.seenBy row.tenantId) (.lockStatus row.id) =
      .ok (.lockStatus (decide (0 < countBookings row.id (db.seenBy row.tenantId)))
        (countBookings row.id (db.seenBy row.tenantId)), none) := by
    simp only [PackRequest.result, getProperty, find_property h.stored]
    rfl
  refine ⟨countBookings row.id (db.seenBy row.tenantId), ?_⟩
  unfold Packs.serve
  rw [hresult, decide_eq_true h.count_pos]

theorem Locked.serve_applyPack (h : Locked row db) (hpack : row.countryPackCode.isSome)
    (code : String) :
    ∃ e, Packs.serve row.tenantId (.applyPack code row.id) db = (.error e, db) := by
  have hrefused : ∃ e, applyCountryPack code row.id (db.seenBy row.tenantId) = .error e := by
    unfold applyCountryPack getProperty
    split
    · exact ⟨_, rfl⟩
    · rw [find_property h.stored]
      exact ⟨_, if_pos ⟨hpack, h.count_pos⟩⟩
  obtain ⟨e, hrefused⟩ := hrefused
  have hresult : PackRequest.result row.tenantId (db.seenBy row.tenantId)
      (.applyPack code row.id) = .error e := by
    simp only [PackRequest.result, hrefused]
    rfl
  refine ⟨e, ?_⟩
  unfold Packs.serve
  rw [hresult]

theorem patchedCode_some {current : Option String} {code : String} (hstrip : Text.strip code = code)
    (hne : code ≠ "") : patchedCode current (some (some code)) = some code := by
  simp only [patchedCode, Option.map_some, hstrip]
  rw [Option.filter_some, if_pos (decide_eq_true hne)]

theorem known_of_mem {pack : CountryPack} (h : pack ∈ db.packs.rows) :
    db.Known (some pack.code) := by
  intro c hc
  obtain rfl := Option.some.inj hc
  rw [Table.find_of_mem h]
  rfl

/-- The edit of the code alone. -/
theorem Locked.serve_edit (h : Locked row db) {code : String}
    (hcode : patchedCode row.countryPackCode (some (some code)) = some code)
    (hknown : db.Known (some code)) :
    (Packs.serve row.tenantId (.updateProperty row.id { countryPackCode := some (some code) }) db).1 =
        .ok (.property { row with countryPackCode := some code }) ∧
      { row with countryPackCode := some code } ∈ (Packs.serve row.tenantId
        (.updateProperty row.id { countryPackCode := some (some code) }) db).2.properties.rows := by
  have hupdate : updateProperty row.id { countryPackCode := some (some code) }
      (db.seenBy row.tenantId) = .ok { row with countryPackCode := some code } := by
    simp only [updateProperty, getProperty, find_property h.stored]
    exact congrArg (fun c => Except.ok { row with countryPackCode := c }) hcode
  have hresult : PackRequest.result row.tenantId (db.seenBy row.tenantId)
      (.updateProperty row.id { countryPackCode := some (some code) }) =
      .ok (.property { row with countryPackCode := some code },
        some (.setProperty { row with countryPackCode := some code })) := by
    simp only [PackRequest.result, hupdate]
    rfl
  have hcommit : (Write.setProperty { row with countryPackCode := some code }).commit
      row.tenantId db = .ok { db with
        properties := db.properties.updateAll
          (replaceProperty row.tenantId { row with countryPackCode := some code })
          (id_replaceProperty row.tenantId { row with countryPackCode := some code }) } :=
    (if_pos rfl).trans (if_neg fun hrefused => hrefused.2 hknown)
  unfold Packs.serve
  rw [hresult]
  simp only [hcommit]
  exact ⟨trivial, List.mem_map.mpr ⟨row, h.stored, if_pos ⟨rfl, rfl⟩⟩⟩

end Locks

/-- The requests that may give the property another pack than the one of this code. -/
def PackRequest.Repacks (property : UUID) (code : String) : PackRequest → Prop
  | applyPack _ p => p = property
  | updateProperty p data => p = property ∧ patchedCode (some code) data.countryPackCode ≠ some code
  | _ => False

section Foreign
variable {tenant client id : UUID} {db : SharedDb} {req : PackRequest} {pack : CountryPack}
  {data : PropertyCreate}

/-- The property has this code, whatever became of its other columns. -/
def UnderCode (tenant id : UUID) (code : String) (db : SharedDb) : Prop :=
  ∃ row ∈ db.properties.rows, row.id = id ∧ row.tenantId = tenant ∧ row.countryPackCode = some code

theorem UnderCode.serve {code : String} (h : UnderCode tenant id code db)
    (hreq : client = tenant → ¬ req.Repacks id code) :
    UnderCode tenant id code (serve client req db).2 := by
  obtain ⟨row, hrow, rfl, rfl, hcode⟩ := h
  have hcases := serve_cases client req db
  generalize (Packs.serve client req db).2 = db' at hcases
  cases hcases with
  | unchanged => exact ⟨row, hrow, rfl, rfl, hcode⟩
  | @wrote w _ hwrote hown hok =>
    by_cases hset : ∃ new, w = .setProperty new ∧ client = row.tenantId ∧ new.id = row.id
    · obtain ⟨new, rfl, rfl, hid⟩ := hset
      have hstored : new ∈ db'.properties.rows := by
        simp only [Write.perform] at hok
        split at hok
        · exact absurd hok (by simp)
        · obtain rfl := Except.ok.inj hok
          exact List.mem_map.mpr ⟨row, hrow, if_pos ⟨hid.symm, rfl⟩⟩
      refine ⟨new, hstored, hid, Option.some.inj hown, ?_⟩
      cases hwrote with
      | @applyPack code' property old pack _ hold _ =>
        exact absurd ((Table.find_eq_some.mp hold).2.symm.trans hid) (hreq rfl)
      | @updateProperty property data old _ hold hnew hpatched =>
        obtain rfl : old.id = property := (Table.find_eq_some.mp hold).2
        obtain rfl : old = row := by
          rw [← hnew, hid, find_property hrow] at hold
          exact (Option.some.inj hold).symm
        rw [hpatched, hcode]
        by_contra hother
        exact hreq rfl ⟨rfl, hother⟩
      | plain hplain => exact absurd hplain (fun h => h)
    · refine ⟨row, property_perform hrow hok fun new hw hclient hid => ?_, rfl, rfl, hcode⟩
      exact hset ⟨new, hw, hclient, hid⟩

/-- Only the foreign key looks at the code of a new property, and it looks at all packs. -/
theorem serve_createProperty (tenant : UUID) (hcode : createdCode data.countryPackCode = some pack.code)
    (hpack : pack ∈ db.packs.rows) (hid : db.properties.find id = none) :
    (serve tenant (.createProperty id data) db).1 = .ok (.property (createProperty tenant id data)) ∧
      createProperty tenant id data ∈
        (serve tenant (.createProperty id data) db).2.properties.rows := by
  have hcommit : (Write.addProperty (createProperty tenant id data)).commit tenant db =
      .ok { db with properties := db.properties.insert (createProperty tenant id data) } := by
    refine (if_pos rfl).trans (if_neg ?_)
    rintro (htaken | hunknown)
    · rw [show (createProperty tenant id data).id = id from rfl, hid] at htaken
      exact absurd htaken (by simp)
    · rw [show (createProperty tenant id data).countryPackCode = some pack.code from hcode]
        at hunknown
      exact hunknown (known_of_mem hpack)
  unfold serve
  simp only [PackRequest.result, hcommit]
  exact ⟨trivial, Table.mem_insert_iff.mpr (.inr ⟨hid, rfl⟩)⟩

/-- A property is created under the code of a pack that its tenant does not see. In no later
run are its stays taxed, as long as it is given no other pack. -/
theorem foreign_pack_untaxed {requests : List (UUID × PackRequest)}
    (hpack : pack ∈ db.packs.rows) (hhidden : pack.visible tenant = false)
    (hstrip : Text.strip pack.code = pack.code)
    (hcode : createdCode data.countryPackCode = some pack.code)
    (hid : db.properties.find id = none)
    (hrequests : ∀ r ∈ requests, r.1 = tenant → ¬ r.2.Repacks id pack.code) :
    let s := (Isolation.run serve requests (serve tenant (.createProperty id data) db).2).2
    (serve tenant (.createProperty id data) db).1 =
        .ok (.property (createProperty tenant id data)) ∧
      ∀ base, countryPackTaxes tenant id base (s.seenBy tenant) = untaxed base := by
  obtain ⟨hanswer, hstored⟩ := serve_createProperty tenant hcode hpack hid
  refine ⟨hanswer, fun base => ?_⟩
  obtain ⟨pack', hpack', hcontinues⟩ := pack_run ((tenant, .createProperty id data) :: requests) hpack
  change pack' ∈ (Isolation.run serve requests _).2.packs.rows at hpack'
  have hkept : UnderCode tenant id pack.code
      (Isolation.run serve requests (serve tenant (.createProperty id data) db).2).2 :=
    Isolation.run_induction ⟨_, hstored, rfl, rfl, hcode⟩ fun r hr s hs =>
      hs.serve (hrequests r hr)
  generalize (Isolation.run serve requests (serve tenant (.createProperty id data) db).2).2 = s
    at hpack' hkept ⊢
  obtain ⟨row, hrow, rfl, rfl, hrowcode⟩ := hkept
  have hproperty : getProperty row.id (s.seenBy row.tenantId) = some row := find_property hrow
  have hunseen : (s.seenBy row.tenantId).packs.find (Text.strip pack.code) = none := by
    change (s.packs.restrict _).find _ = none
    rw [Table.find_restrict, hstrip, ← hcontinues.code, Table.find_of_mem hpack',
      Option.filter_some, if_neg (by rw [hcontinues.visible, hhidden]; exact Bool.false_ne_true)]
  simp only [countryPackTaxes, hproperty, Option.bind_some]
  rw [hrowcode, Option.filter_some]
  split
  · rfl
  · next code hfilter =>
    split_ifs at hfilter
    obtain rfl := Option.some.inj hfilter
    rw [hunseen, ite_self]

end Foreign

namespace Demo

def annex : PropertyCreate := ⟨"Annex", "Europe/Vienna", "EUR", 15, 11, some " AT "⟩

end Demo

/-- The property is renamed and booked; half a cent goes to the even one. -/
theorem foreign_pack_untaxed_demo :
    countryPackTaxes 2 8 (1 / 8) ((Isolation.run serve
      [(2, .updateProperty 8 { name := some (some "Villa") }), (2, .book 8)]
      (serve 2 (.createProperty 8 Demo.annex) Demo.sharedDb).2).2.seenBy 2) =
        .ok ⟨[], 12 / 100, 12 / 100⟩ := by
  have hkept : ∀ r ∈ [((2 : UUID), PackRequest.updateProperty 8 { name := some (some "Villa") }),
      (2, .book 8)], r.1 = 2 → ¬ r.2.Repacks 8 "AT" := by
    intro r hr _ hrepacks
    rcases List.mem_cons.mp hr with rfl | hr
    · exact hrepacks.2 rfl
    · obtain rfl := List.mem_singleton.mp hr
      exact hrepacks
  have hstrip : Text.strip Demo.storedPack.code = Demo.storedPack.code := by decide
  have hcode : createdCode Demo.annex.countryPackCode = some Demo.storedPack.code := by
    decide
  have hpack : Demo.storedPack ∈ Demo.sharedDb.packs.rows := List.mem_singleton_self _
  have huntaxed := (foreign_pack_untaxed hpack rfl hstrip hcode rfl hkept).2 (1 / 8)
  exact huntaxed.trans (by decide +kernel)

end OpenPms.Packs
