import OpenPms.CountryPacks

/-!
Tenants that share the tables of the country packs. What the others do reaches a tenant only
through a code or an identifier that is taken: all its answers are those it would get alone,
as long as it names none of theirs.
-/
namespace OpenPms.Packs

open KeyedTable Tax

/-! Requests -/

/-- New rows come with their identifiers. A booking is one that the booking service has made. -/
inductive PackRequest where
  | listPacks
  | getPack (code : String)
  | createPack (data : CountryPackCreate)
  | updatePack (code : String) (data : CountryPackPatch)
  | deletePack (code : String)
  | applyPack (code : String) (property : UUID)
  | getProperty (property : UUID)
  | lockStatus (property : UUID)
  | createProperty (id : UUID) (data : PropertyCreate)
  | updateProperty (property : UUID) (data : PropertyPatch)
  | getTaxConfig (property : UUID)
  | putTaxConfig (property : UUID) (data : TaxConfigCreate)
  | deleteTaxConfig (property : UUID)
  | book (property : UUID)
  | taxes (property : UUID) (base : ℚ)
  | listExtensions (countryCode : Option String)
  | registerExtension (id : UUID) (data : ExtensionCreate)
  | listPropertyExtensions (property : UUID)
  | upsertPropertyExtension (property extension : UUID) (config : Option Json) (isActive : Bool)
  | requiredFields (property : UUID) (guest : String → Attribute)

inductive Answer where
  | done
  | pack (row : CountryPack)
  | packs (rows : List CountryPack)
  | property (row : Property)
  | applied (row : Property) (paymentMethods : List String)
  | lockStatus (countryPackLocked : Bool) (bookingCount : ℕ)
  | taxConfig (row : PropertyTaxConfig)
  | posting (p : CountryPackTaxPosting)
  | extension (row : CountryPackExtension)
  | extensions (rows : List CountryPackExtension)
  | propertyExtension (row : PropertyExtension)
  | propertyExtensions (rows : List PropertyExtension)
  | messages (texts : List String)

def orNotFound {α : Type} (detail : String) : Option α → Except RequestError α
  | none => .error (.service detail 404)
  | some a => .ok a

/-- What a request is answered, and what it writes. -/
def PackRequest.result (tenant : UUID) (seen : SharedDb) :
    PackRequest → Except RequestError (Answer × Option Write)
  | listPacks => .ok (.packs (listCountryPacks seen), none)
  | getPack code => do
    let row ← orNotFound "Not found" (getCountryPack code seen)
    pure (.pack row, none)
  | createPack data => do
    let (_, row) ← (createCountryPack tenant data seen.packs).mapError .pack
    pure (.pack row, some (.addPack row))
  | updatePack code data => do
    let (_, row) ← (updateCountryPack tenant code data seen.packs).mapError .pack
    pure (.pack row, some (.setPack row))
  | deletePack code => do
    deleteCountryPack tenant code seen
    pure (.done, none)
  | applyPack code property => do
    let (row, pack) ← applyCountryPack code property seen
    pure (.applied row pack.paymentMethods, some (.setProperty row))
  | getProperty property => do
    let row ← orNotFound "Property not found" (Packs.getProperty property seen)
    pure (.property row, none)
  | lockStatus property => do
    let _ ← orNotFound "Property not found" (Packs.getProperty property seen)
    pure (.lockStatus (0 < countBookings property seen) (countBookings property seen), none)
  | createProperty id data =>
    .ok (.property (Packs.createProperty tenant id data),
      some (.addProperty (Packs.createProperty tenant id data)))
  | updateProperty property data => do
    let row ← Packs.updateProperty property data seen
    pure (.property row, some (.setProperty row))
  | getTaxConfig property => do
    let _ ← orNotFound "Property not found" (Packs.getProperty property seen)
    let row ← orNotFound "Tax config not found" (Packs.getTaxConfig tenant property seen)
    pure (.taxConfig row, none)
  | putTaxConfig property data => do
    let _ ← orNotFound "Property not found" (Packs.getProperty property seen)
    let row := taxConfigRow tenant property data
    pure (.taxConfig row, some (if (Packs.getTaxConfig tenant property seen).isSome
      then .setTaxConfig row else .addTaxConfig row))
  | deleteTaxConfig property => do
    let _ ← orNotFound "Property not found" (Packs.getProperty property seen)
    let _ ← orNotFound "Tax config not found" (Packs.getTaxConfig tenant property seen)
    pure (.done, some (.removeTaxConfig tenant property))
  | book property => do
    let _ ← orNotFound "property not found" (Packs.getProperty property seen)
    pure (.done, some (.addBooking tenant property))
  | taxes property base => do
    let posting ← (countryPackTaxes tenant property base seen).mapError .tax
    pure (.posting posting, none)
  | listExtensions countryCode => .ok (.extensions (Packs.listExtensions countryCode seen), none)
  | registerExtension id data => do
    let row ← Packs.registerExtension tenant id data seen
    pure (.extension row, some (.addExtension row))
  | listPropertyExtensions property =>
    .ok (.propertyExtensions (Packs.listPropertyExtensions property seen), none)
  | upsertPropertyExtension property extension config isActive => do
    let (row, found) ← Packs.upsertPropertyExtension tenant property extension config isActive seen
    pure (.propertyExtension row,
      some (if found then .setPropertyExtension row else .addPropertyExtension row))
  | requiredFields property guest => .ok (.messages (validateRequiredFields property guest seen), none)

/-- A request that fails is rolled back. -/
def serve (tenant : UUID) (req : PackRequest) (db : SharedDb) :
    Except RequestError Answer × SharedDb :=
  match req.result tenant (db.seenBy tenant) with
  | .error e => (.error e, db)
  | .ok (a, none) => (.ok a, db)
  | .ok (a, some w) =>
    match w.commit tenant db with
    | .error e => (.error e, db)
    | .ok db' => (.ok a, db')

/-! Names -/

inductive Name where
  | code (code : String)
  | id (id : UUID)
  deriving DecidableEq

/-- The keys of the rows that a request adds. -/
def PackRequest.made : PackRequest → List Name
  | createPack data => [.code (Text.strip data.code)]
  | createProperty id _ | registerExtension id _ => [.id id]
  | _ => []

/-- With them the codes that it writes. -/
def PackRequest.names : PackRequest → List Name
  | createProperty id data => .id id :: (createdCode data.countryPackCode).toList.map .code
  | updateProperty _ data => (patchedCode none data.countryPackCode).toList.map .code
  | req => req.made

/-- The name is that of a row which the tenant does not see. -/
def Foreign (tenant : UUID) (db : SharedDb) : Name → Prop
  | .code c => ∃ row ∈ db.packs.rows, row.code = c ∧ row.visible tenant = false
  | .id i => (∃ row ∈ db.properties.rows, row.id = i ∧ row.tenantId ≠ tenant) ∨
      ∃ row ∈ db.extensions.rows, row.id = i ∧ row.tenantId ≠ tenant

instance (tenant : UUID) (db : SharedDb) : DecidablePred (Foreign tenant db)
  | .code c => inferInstanceAs (Decidable (∃ row ∈ db.packs.rows, row.code = c ∧
      row.visible tenant = false))
  | .id i => inferInstanceAs (Decidable ((∃ row ∈ db.properties.rows, row.id = i ∧
      row.tenantId ≠ tenant) ∨ ∃ row ∈ db.extensions.rows, row.id = i ∧ row.tenantId ≠ tenant))

def Write.made : Write → List Name
  | addPack row => [.code row.code]
  | addProperty row => [.id row.id]
  | addExtension row => [.id row.id]
  | _ => []

/-- The constraints look at rows that the tenant sees. -/
def Write.Settled (tenant : UUID) (db : SharedDb) : Write → Prop
  | addPack row => ¬ Foreign tenant db (.code row.code)
  | addProperty row => ¬ Foreign tenant db (.id row.id) ∧
      ∀ c ∈ row.countryPackCode, ¬ Foreign tenant db (.code c)
  | setProperty row =>
      (∃ old, (db.seenBy tenant).properties.find row.id = some old ∧
        old.countryPackCode = row.countryPackCode) ∨
      ∀ c ∈ row.countryPackCode, ¬ Foreign tenant db (.code c)
  | addExtension row => ¬ Foreign tenant db (.id row.id)
  | _ => True

/-! What a request writes -/

section Results

theorem mapError_ok {α ε : Type} {x : Except ε α} {f : ε → RequestError} {a : α} :
    x.mapError f = .ok a ↔ x = .ok a := by
  cases x <;> simp [Except.mapError]

/-- Rows that no other row is compared with. -/
def Write.Plain : Write → Prop
  | addTaxConfig _ | setTaxConfig _ | removeTaxConfig _ _ | addPropertyExtension _
  | setPropertyExtension _ | addBooking _ _ => True
  | _ => False

inductive Wrote (tenant : UUID) (seen : SharedDb) : PackRequest → Write → Prop
  | createPack {data : CountryPackCreate} {row : CountryPack}
      (hcode : row.code = Text.strip data.code) : Wrote tenant seen (.createPack data) (.addPack row)
  | updatePack {code : String} {data : CountryPackPatch} {row : CountryPack} :
      Wrote tenant seen (.updatePack code data) (.setPack row)
  | applyPack {code : String} {property : UUID} {old : Property} {pack : CountryPack}
      (hpack : pack ∈ seen.packs.rows) (hold : seen.properties.find property = some old)
      (hfree : old.countryPackCode.isSome → countBookings property seen = 0) :
      Wrote tenant seen (.applyPack code property) (.setProperty { old with
        countryPackCode := some pack.code, currency := pack.currencyCode, timezone := pack.timezone,
        checkinTime := pack.defaultCheckinTime, checkoutTime := pack.defaultCheckoutTime })
  | createProperty {id : UUID} {data : PropertyCreate} : Wrote tenant seen (.createProperty id data)
      (.addProperty (Packs.createProperty tenant id data))
  | updateProperty {property : UUID} {data : PropertyPatch} {old row : Property}
      (hold : seen.properties.find property = some old) (hid : row.id = old.id)
      (hcode : row.countryPackCode = patchedCode old.countryPackCode data.countryPackCode) :
      Wrote tenant seen (.updateProperty property data) (.setProperty row)
  | registerExtension {id : UUID} {data : ExtensionCreate} {row : CountryPackExtension}
      (hid : row.id = id) : Wrote tenant seen (.registerExtension id data) (.addExtension row)
  | plain {req : PackRequest} {w : Write} (h : w.Plain) : Wrote tenant seen req w

theorem updateProperty_ok {property : UUID} {data : PropertyPatch} {seen : SharedDb}
    {row : Property} (h : updateProperty property data seen = .ok row) :
    ∃ old, seen.properties.find property = some old ∧ row.id = old.id ∧
      row.countryPackCode = patchedCode old.countryPackCode data.countryPackCode := by
  unfold updateProperty getProperty at h
  cases hold : seen.properties.find property with
  | none =>
    rw [hold] at h
    exact absurd h (by simp)
  | some old =>
    rw [hold] at h
    obtain ⟨name, -, h⟩ := Except.bind_eq_ok.mp h
    obtain ⟨timezone, -, h⟩ := Except.bind_eq_ok.mp h
    obtain ⟨currency, -, h⟩ := Except.bind_eq_ok.mp h
    obtain ⟨checkin, -, h⟩ := Except.bind_eq_ok.mp h
    obtain ⟨checkout, -, h⟩ := Except.bind_eq_ok.mp h
    obtain rfl := Except.ok.inj h
    exact ⟨old, rfl, rfl, rfl⟩

theorem createCountryPack_code {tenant : UUID} {data : CountryPackCreate} {db db' : PacksDb}
    {row : CountryPack} (h : createCountryPack tenant data db = .ok (db', row)) :
    row.code = Text.strip data.code := by
  unfold createCountryPack at h
  simp only at h
  split at h
  · cases h
  · cases hdump : jsonDumps (.list (data.taxes.map (·.dumpJson))) with
    | error e =>
      rw [hdump] at h
      cases h
    | ok taxes =>
      rw [hdump] at h
      cases h
      rfl

theorem applyCountryPack_ok {code : String} {property : UUID} {seen : SharedDb} {row : Property}
    {pack : CountryPack} (h : applyCountryPack code property seen = .ok (row, pack)) :
    ∃ old, seen.properties.find property = some old ∧ pack ∈ seen.packs.rows ∧
      (old.countryPackCode.isSome → countBookings property seen = 0) ∧
      row = { old with
        countryPackCode := some pack.code, currency := pack.currencyCode, timezone := pack.timezone,
        checkinTime := pack.defaultCheckinTime, checkoutTime := pack.defaultCheckoutTime } := by
  unfold applyCountryPack at h
  split at h
  · exact absurd h (by simp)
  · next pack' hpack =>
    split at h
    · exact absurd h (by simp)
    · next old hold =>
      split_ifs at h with hlocked
      obtain ⟨rfl, rfl⟩ := Prod.mk.inj (Except.ok.inj h)
      refine ⟨old, hold, (Table.find_eq_some.mp hpack).1, fun hsome => ?_, rfl⟩
      by_contra hbooked
      exact hlocked ⟨hsome, Nat.pos_of_ne_zero hbooked⟩

theorem wrote_of_result {tenant : UUID} {seen : SharedDb} {req : PackRequest} {a : Answer}
    {w : Write} (h : req.result tenant seen = .ok (a, some w)) : Wrote tenant seen req w := by
  cases req with
  | listPacks | listExtensions _ | listPropertyExtensions _ | requiredFields _ _ =>
    exact absurd (Except.ok.inj h) (by simp)
  | getPack code | getProperty property | lockStatus property | deletePack code
  | taxes property base =>
    obtain ⟨_, -, h⟩ := Except.bind_eq_ok.mp h
    exact absurd (Except.ok.inj h) (by simp)
  | getTaxConfig property =>
    obtain ⟨_, -, h⟩ := Except.bind_eq_ok.mp h
    obtain ⟨_, -, h⟩ := Except.bind_eq_ok.mp h
    exact absurd (Except.ok.inj h) (by simp)
  | createPack data =>
    obtain ⟨⟨db', row⟩, hcreate, h⟩ := Except.bind_eq_ok.mp h
    obtain ⟨-, hw⟩ := Prod.mk.inj (Except.ok.inj h)
    obtain rfl := Option.some.inj hw
    exact .createPack (createCountryPack_code (mapError_ok.mp hcreate))
  | updatePack code data =>
    obtain ⟨⟨db', row⟩, -, h⟩ := Except.bind_eq_ok.mp h
    obtain ⟨-, hw⟩ := Prod.mk.inj (Except.ok.inj h)
    obtain rfl := Option.some.inj hw
    exact .updatePack
  | applyPack code property =>
    obtain ⟨⟨row, pack⟩, happly, h⟩ := Except.bind_eq_ok.mp h
    obtain ⟨-, hw⟩ := Prod.mk.inj (Except.ok.inj h)
    obtain rfl := Option.some.inj hw
    obtain ⟨old, hold, hpack, hfree, rfl⟩ := applyCountryPack_ok happly
    exact .applyPack hpack hold hfree
  | createProperty id data =>
    obtain ⟨-, hw⟩ := Prod.mk.inj (Except.ok.inj h)
    obtain rfl := Option.some.inj hw
    exact .createProperty
  | updateProperty property data =>
    obtain ⟨row, hupdate, h⟩ := Except.bind_eq_ok.mp h
    obtain ⟨-, hw⟩ := Prod.mk.inj (Except.ok.inj h)
    obtain rfl := Option.some.inj hw
    obtain ⟨old, hold, hid, hcode⟩ := updateProperty_ok hupdate
    exact .updateProperty hold hid hcode
  | putTaxConfig property data =>
    obtain ⟨_, -, h⟩ := Except.bind_eq_ok.mp h
    obtain ⟨-, hw⟩ := Prod.mk.inj (Except.ok.inj h)
    obtain rfl := Option.some.inj hw
    refine .plain ?_
    split <;> trivial
  | deleteTaxConfig property =>
    obtain ⟨_, -, h⟩ := Except.bind_eq_ok.mp h
    obtain ⟨_, -, h⟩ := Except.bind_eq_ok.mp h
    obtain ⟨-, hw⟩ := Prod.mk.inj (Except.ok.inj h)
    obtain rfl := Option.some.inj hw
    exact .plain trivial
  | book property =>
    obtain ⟨_, -, h⟩ := Except.bind_eq_ok.mp h
    obtain ⟨-, hw⟩ := Prod.mk.inj (Except.ok.inj h)
    obtain rfl := Option.some.inj hw
    exact .plain trivial
  | registerExtension id data =>
    obtain ⟨row, hregister, h⟩ := Except.bind_eq_ok.mp h
    obtain ⟨-, hw⟩ := Prod.mk.inj (Except.ok.inj h)
    obtain rfl := Option.some.inj hw
    unfold Packs.registerExtension at hregister
    simp only at hregister
    split at hregister
    · exact absurd hregister (by simp)
    · obtain rfl := Except.ok.inj hregister
      exact .registerExtension rfl
  | upsertPropertyExtension property extension config isActive =>
    obtain ⟨⟨row, found⟩, -, h⟩ := Except.bind_eq_ok.mp h
    obtain ⟨-, hw⟩ := Prod.mk.inj (Except.ok.inj h)
    obtain rfl := Option.some.inj hw
    refine .plain ?_
    split <;> trivial

end Results

/-! What a tenant sees of a write -/

section Writes
variable {tenant client : UUID} {db db' : SharedDb} {w : Write} {row : CountryPack}

theorem seenBy_seenBy : (db.seenBy tenant).seenBy tenant = db.seenBy tenant := by
  unfold SharedDb.seenBy
  congr 1
  · exact Table.restrict_restrict
  · exact Table.restrict_restrict
  · exact Table.restrict_restrict
  · exact Table.restrict_restrict
  · exact Table.restrict_restrict
  · exact List.filter_filter.trans (List.filter_congr fun b _ => Bool.and_self _)

theorem visible_of_tenant (h : row.tenantId = some tenant) : row.visible tenant = true := by
  simp [CountryPack.visible, h]

theorem not_visible_of_tenant (h : row.tenantId = some client) (hne : client ≠ tenant) :
    row.visible tenant = false := by
  simp [CountryPack.visible, h, hne]

/-- The row of a pack that is written is its tenant's. -/
theorem tenantId_of_write (h : (if row.isBuiltin then none else row.tenantId) = some tenant) :
    row.tenantId = some tenant ∧ row.isBuiltin = false := by
  cases hbuiltin : row.isBuiltin with
  | true =>
    rw [hbuiltin, if_pos rfl] at h
    exact absurd h (by simp)
  | false =>
    rw [hbuiltin, if_neg Bool.false_ne_true] at h
    exact ⟨h, rfl⟩

theorem visible_of_code {c : String} (h : ¬ Foreign tenant db (.code c)) (hmem : row ∈ db.packs.rows)
    (hcode : row.code = c) : row.visible tenant = true := by
  by_contra hhidden
  exact h ⟨row, hmem, hcode, Bool.not_eq_true _ ▸ hhidden⟩

theorem find_seen {c : String} (h : ¬ Foreign tenant db (.code c)) :
    (db.seenBy tenant).packs.find c = db.packs.find c := by
  change (db.packs.restrict _).find c = _
  rw [Table.find_restrict]
  cases hrow : db.packs.find c with
  | none => rfl
  | some row =>
    obtain ⟨hmem, hcode⟩ := Table.find_eq_some.mp hrow
    rw [Option.filter_some, if_pos (visible_of_code h hmem hcode)]

theorem known_seen {code : Option String} (h : ∀ c ∈ code, ¬ Foreign tenant db (.code c)) :
    (db.seenBy tenant).Known code ↔ db.Known code :=
  forall₂_congr fun c hc => by rw [find_seen (h c hc)]

theorem property_of_id {i : UUID} (h : ¬ Foreign tenant db (.id i)) {row : Property}
    (hmem : row ∈ db.properties.rows) (hid : row.id = i) : row.tenantId = tenant := by
  by_contra hhidden
  exact h (.inl ⟨row, hmem, hid, hhidden⟩)

theorem extension_of_id {i : UUID} (h : ¬ Foreign tenant db (.id i)) {row : CountryPackExtension}
    (hmem : row ∈ db.extensions.rows) (hid : row.id = i) : row.tenantId = tenant := by
  by_contra hhidden
  exact h (.inr ⟨row, hmem, hid, hhidden⟩)

theorem property_seen {i : UUID} (h : ¬ Foreign tenant db (.id i)) :
    (db.seenBy tenant).properties.find i = db.properties.find i := by
  change (db.properties.restrict _).find i = _
  rw [Table.find_restrict]
  cases hrow : db.properties.find i with
  | none => rfl
  | some row =>
    obtain ⟨hmem, hid⟩ := Table.find_eq_some.mp hrow
    rw [Option.filter_some, if_pos (decide_eq_true (property_of_id h hmem hid))]

theorem extension_seen {i : UUID} (h : ¬ Foreign tenant db (.id i)) :
    (db.seenBy tenant).extensions.find i = db.extensions.find i := by
  change (db.extensions.restrict _).find i = _
  rw [Table.find_restrict]
  cases hrow : db.extensions.find i with
  | none => rfl
  | some row =>
    obtain ⟨hmem, hid⟩ := Table.find_eq_some.mp hrow
    rw [Option.filter_some, if_pos (decide_eq_true (extension_of_id h hmem hid))]

/-! The rows that an update replaces -/

theorem visible_replacePack (h : row.tenantId = some client) (old : CountryPack) :
    (replacePack client row old).visible tenant = old.visible tenant := by
  unfold replacePack
  split
  · next hold =>
    by_cases hne : client = tenant
    · subst hne
      rw [visible_of_tenant h, visible_of_tenant hold.2.1]
    · rw [not_visible_of_tenant h hne, not_visible_of_tenant hold.2.1 hne]
  · rfl

theorem tenantId_replaceProperty {row : Property} (h : row.tenantId = client) (old : Property) :
    (replaceProperty client row old).tenantId = old.tenantId := by
  unfold replaceProperty
  split
  · next hold => rw [h, hold.2]
  · rfl

theorem tenantId_replaceTaxConfig {row : PropertyTaxConfig} (h : row.tenantId = client)
    (old : PropertyTaxConfig) : (replaceTaxConfig client row old).tenantId = old.tenantId := by
  unfold replaceTaxConfig
  split
  · next hold => rw [h, hold.2]
  · rfl

theorem tenantId_replaceExtension {row : PropertyExtension} (h : row.tenantId = client)
    (old : PropertyExtension) : (replaceExtension client row old).tenantId = old.tenantId := by
  unfold replaceExtension
  split
  · next hold => rw [h, hold.2]
  · rfl

/-- A tenant's own write is to what it sees as it is to the tables. -/
theorem perform_own (hown : w.tenant = some tenant) (h : w.Settled tenant db) :
    w.perform tenant (db.seenBy tenant) = (w.perform tenant db).map (·.seenBy tenant) := by
  cases w with
  | addPack row =>
    have hvisible := visible_of_tenant (tenantId_of_write hown).1
    have hkey : ∀ u ∈ db.packs.rows, u.code = row.code → u.visible tenant = true :=
      fun u hu hcode => visible_of_code h hu hcode
    simp only [Write.perform, find_seen h]
    split
    · rfl
    · simp only [Except.map, SharedDb.seenBy, Table.restrict_insert_of_pos hkey hvisible]
  | setPack row =>
    have hkeep : ∀ v : CountryPack, (replacePack tenant row v).visible tenant = v.visible tenant :=
      visible_replacePack (tenantId_of_write hown).1
    simp only [Write.perform, Except.map, SharedDb.seenBy, Table.restrict_updateAll hkeep]
  | addProperty row =>
    have hrow : row.tenantId = tenant := Option.some.inj hown
    have hkey : ∀ u ∈ db.properties.rows, u.id = row.id → decide (u.tenantId = tenant) = true :=
      fun u hu hid => decide_eq_true (property_of_id h.1 hu hid)
    simp only [Write.perform, property_seen h.1, known_seen h.2]
    split
    · rfl
    · simp only [Except.map, SharedDb.seenBy,
        Table.restrict_insert_of_pos hkey (decide_eq_true hrow)]
  | setProperty row =>
    have hrow : row.tenantId = tenant := Option.some.inj hown
    have hkeep : ∀ v, decide ((replaceProperty tenant row v).tenantId = tenant) =
        decide (v.tenantId = tenant) := fun v => by rw [tenantId_replaceProperty hrow]
    have hfind : (db.seenBy tenant).properties.find row.id =
        (db.properties.find row.id).filter fun old => old.tenantId = tenant := Table.find_restrict
    have hold : ((db.seenBy tenant).properties.find row.id).filter
        (fun old => old.tenantId = tenant) = (db.properties.find row.id).filter
        fun old => old.tenantId = tenant := by
      rw [hfind, Option.filter_filter]
      simp only [Bool.and_self]
    have hset : ({ db.seenBy tenant with
        properties := (db.seenBy tenant).properties.updateAll (replaceProperty tenant row)
          (id_replaceProperty tenant row) } : SharedDb) =
        ({ db with
          properties := db.properties.updateAll (replaceProperty tenant row)
            (id_replaceProperty tenant row) } : SharedDb).seenBy tenant := by
      simp only [SharedDb.seenBy,
        Table.restrict_updateAll (p := fun v : Property => decide (v.tenantId = tenant)) hkeep]
    simp only [Write.perform, hold, hset]
    rcases h with ⟨old, hseen, hcode⟩ | hcodes
    · have hsame : ((db.properties.find row.id).filter fun old => old.tenantId = tenant).map
          (·.countryPackCode) = some row.countryPackCode := by
        rw [← hfind, hseen, Option.map_some, hcode]
      simp only [hsame, ne_eq, not_true_eq_false, false_and, if_false, Except.map]
    · simp only [known_seen hcodes]
      split
      · rfl
      · rfl
  | addTaxConfig row =>
    have hrow : row.tenantId = tenant := Option.some.inj hown
    have hkey : ∀ u ∈ db.taxConfigs.rows, u.key = row.key → decide (u.tenantId = tenant) = true :=
      fun u _ hkey => decide_eq_true ((Prod.mk.inj hkey).1.trans hrow)
    simp only [Write.perform, Except.map, SharedDb.seenBy,
      Table.restrict_insert_of_pos hkey (decide_eq_true hrow)]
  | setTaxConfig row =>
    have hkeep : ∀ v, decide ((replaceTaxConfig tenant row v).tenantId = tenant) =
        decide (v.tenantId = tenant) := fun v => by
      rw [tenantId_replaceTaxConfig (Option.some.inj hown)]
    simp only [Write.perform, Except.map, SharedDb.seenBy,
      Table.restrict_updateAll (p := fun v : PropertyTaxConfig => decide (v.tenantId = tenant)) hkeep]
  | removeTaxConfig t property =>
    simp only [Write.perform, Except.map, SharedDb.seenBy]
    rw [Table.restrict_comm]
  | addExtension row =>
    have hrow : row.tenantId = tenant := Option.some.inj hown
    have hkey : ∀ u ∈ db.extensions.rows, u.id = row.id → decide (u.tenantId = tenant) = true :=
      fun u hu hid => decide_eq_true (extension_of_id h hu hid)
    simp only [Write.perform, extension_seen h]
    split
    · rfl
    · simp only [Except.map, SharedDb.seenBy,
        Table.restrict_insert_of_pos hkey (decide_eq_true hrow)]
  | addPropertyExtension row =>
    have hrow : row.tenantId = tenant := Option.some.inj hown
    have hkey : ∀ u ∈ db.propertyExtensions.rows, u.key = row.key →
        decide (u.tenantId = tenant) = true :=
      fun u _ hkey => decide_eq_true ((Prod.mk.inj hkey).1.trans hrow)
    simp only [Write.perform, Except.map, SharedDb.seenBy,
      Table.restrict_insert_of_pos hkey (decide_eq_true hrow)]
  | setPropertyExtension row =>
    have hkeep : ∀ v, decide ((replaceExtension tenant row v).tenantId = tenant) =
        decide (v.tenantId = tenant) := fun v => by
      rw [tenantId_replaceExtension (Option.some.inj hown)]
    simp only [Write.perform, Except.map, SharedDb.seenBy,
      Table.restrict_updateAll (p := fun v : PropertyExtension => decide (v.tenantId = tenant)) hkeep]
  | addBooking t property =>
    simp only [Write.perform, Except.map, SharedDb.seenBy, List.filter_append]
    rw [List.filter_cons_of_pos (by simp), List.filter_nil]

/-- What another tenant writes is not seen. -/
theorem perform_other (hne : client ≠ tenant) (hown : w.tenant = some client)
    (hok : w.perform client db = .ok db') : db'.seenBy tenant = db.seenBy tenant := by
  cases w with
  | addPack row =>
    have hhidden := not_visible_of_tenant (tenantId_of_write hown).1 hne
    simp only [Write.perform] at hok
    split at hok
    · exact absurd hok (by simp)
    · obtain rfl := Except.ok.inj hok
      simp only [SharedDb.seenBy, Table.restrict_insert_of_neg hhidden]
  | setPack row =>
    obtain rfl := Except.ok.inj hok
    have hkeep : ∀ v : CountryPack, (replacePack client row v).visible tenant = v.visible tenant :=
      visible_replacePack (tenantId_of_write hown).1
    have hother : ∀ v : CountryPack, v.visible tenant = true → replacePack client row v = v :=
      fun v hv => if_neg fun hold =>
        Bool.false_ne_true ((not_visible_of_tenant hold.2.1 hne).symm.trans hv)
    simp only [SharedDb.seenBy, Table.restrict_updateAll_of_neg hkeep hother]
  | addProperty row =>
    have hrow : row.tenantId = client := Option.some.inj hown
    simp only [Write.perform] at hok
    split at hok
    · exact absurd hok (by simp)
    · obtain rfl := Except.ok.inj hok
      simp only [SharedDb.seenBy,
        Table.restrict_insert_of_neg (p := fun v : Property => decide (v.tenantId = tenant))
          (decide_eq_false (hrow ▸ hne))]
  | setProperty row =>
    have hkeep : ∀ v, decide ((replaceProperty client row v).tenantId = tenant) =
        decide (v.tenantId = tenant) := fun v => by
      rw [tenantId_replaceProperty (Option.some.inj hown)]
    have hother : ∀ v : Property, decide (v.tenantId = tenant) = true →
        replaceProperty client row v = v :=
      fun v hv => if_neg fun hold => hne (hold.2.symm.trans (of_decide_eq_true hv))
    simp only [Write.perform] at hok
    split at hok
    · exact absurd hok (by simp)
    · obtain rfl := Except.ok.inj hok
      simp only [SharedDb.seenBy, Table.restrict_updateAll_of_neg
        (p := fun v : Property => decide (v.tenantId = tenant)) hkeep hother]
  | addTaxConfig row =>
    obtain rfl := Except.ok.inj hok
    have hrow : row.tenantId = client := Option.some.inj hown
    simp only [SharedDb.seenBy,
      Table.restrict_insert_of_neg (p := fun v : PropertyTaxConfig => decide (v.tenantId = tenant))
        (decide_eq_false (hrow ▸ hne))]
  | setTaxConfig row =>
    obtain rfl := Except.ok.inj hok
    have hkeep : ∀ v, decide ((replaceTaxConfig client row v).tenantId = tenant) =
        decide (v.tenantId = tenant) := fun v => by
      rw [tenantId_replaceTaxConfig (Option.some.inj hown)]
    have hother : ∀ v : PropertyTaxConfig, decide (v.tenantId = tenant) = true →
        replaceTaxConfig client row v = v :=
      fun v hv => if_neg fun hold => hne (hold.2.symm.trans (of_decide_eq_true hv))
    simp only [SharedDb.seenBy, Table.restrict_updateAll_of_neg
      (p := fun v : PropertyTaxConfig => decide (v.tenantId = tenant)) hkeep hother]
  | removeTaxConfig t property =>
    obtain rfl := Except.ok.inj hok
    simp only [SharedDb.seenBy]
    rw [Table.restrict_comm]
    congr 1
    refine Table.restrict_of_forall fun v hv => decide_eq_true fun hold => hne ?_
    exact hold.2.symm.trans (of_decide_eq_true (Table.mem_restrict.mp hv).2)
  | addExtension row =>
    have hrow : row.tenantId = client := Option.some.inj hown
    simp only [Write.perform] at hok
    split at hok
    · exact absurd hok (by simp)
    · obtain rfl := Except.ok.inj hok
      simp only [SharedDb.seenBy, Table.restrict_insert_of_neg
        (p := fun v : CountryPackExtension => decide (v.tenantId = tenant))
        (decide_eq_false (hrow ▸ hne))]
  | addPropertyExtension row =>
    obtain rfl := Except.ok.inj hok
    have hrow : row.tenantId = client := Option.some.inj hown
    simp only [SharedDb.seenBy, Table.restrict_insert_of_neg
      (p := fun v : PropertyExtension => decide (v.tenantId = tenant))
      (decide_eq_false (hrow ▸ hne))]
  | setPropertyExtension row =>
    obtain rfl := Except.ok.inj hok
    have hkeep : ∀ v, decide ((replaceExtension client row v).tenantId = tenant) =
        decide (v.tenantId = tenant) := fun v => by
      rw [tenantId_replaceExtension (Option.some.inj hown)]
    have hother : ∀ v : PropertyExtension, decide (v.tenantId = tenant) = true →
        replaceExtension client row v = v :=
      fun v hv => if_neg fun hold => hne (hold.2.symm.trans (of_decide_eq_true hv))
    simp only [SharedDb.seenBy, Table.restrict_updateAll_of_neg
      (p := fun v : PropertyExtension => decide (v.tenantId = tenant)) hkeep hother]
  | addBooking t property =>
    obtain rfl := Except.ok.inj hok
    simp only [SharedDb.seenBy, List.filter_append]
    rw [List.filter_cons_of_neg (by simpa using hne), List.filter_nil, List.append_nil]

/-- A name becomes another tenant's only with a row that has it. -/
theorem foreign_perform {n : Name} (hown : w.tenant = some client)
    (hok : w.perform client db = .ok db') (h : Foreign tenant db' n) :
    Foreign tenant db n ∨ client ≠ tenant ∧ n ∈ w.made := by
  cases w with
  | addPack row =>
    simp only [Write.perform] at hok
    split at hok
    · exact absurd hok (by simp)
    · obtain rfl := Except.ok.inj hok
      cases n with
      | id i => exact .inl h
      | code c =>
        obtain ⟨row', hmem, rfl, hhidden⟩ := h
        rcases Table.mem_insert_iff.mp hmem with hold | ⟨-, rfl⟩
        · exact .inl ⟨row', hold, rfl, hhidden⟩
        · refine .inr ⟨fun heq => ?_, List.mem_singleton_self _⟩
          rw [visible_of_tenant (heq ▸ (tenantId_of_write hown).1)] at hhidden
          exact absurd hhidden (by simp)
  | setPack row =>
    obtain rfl := Except.ok.inj hok
    cases n with
    | id i => exact .inl h
    | code c =>
      obtain ⟨row', hmem, rfl, hhidden⟩ := h
      obtain ⟨old, hold, rfl⟩ := List.mem_map.mp hmem
      refine .inl ⟨old, hold, (code_replacePack client row old).symm, ?_⟩
      rw [← visible_replacePack (tenantId_of_write hown).1 old, hhidden]
  | addProperty row =>
    simp only [Write.perform] at hok
    split at hok
    · exact absurd hok (by simp)
    · obtain rfl := Except.ok.inj hok
      cases n with
      | code c => exact .inl h
      | id i =>
        rcases h with ⟨row', hmem, rfl, hother⟩ | hext
        · rcases Table.mem_insert_iff.mp hmem with hold | ⟨-, rfl⟩
          · exact .inl (.inl ⟨row', hold, rfl, hother⟩)
          · refine .inr ⟨fun heq => hother ?_, List.mem_singleton_self _⟩
            exact (Option.some.inj hown).trans heq
        · exact .inl (.inr hext)
  | setProperty row =>
    simp only [Write.perform] at hok
    split at hok
    · exact absurd hok (by simp)
    · obtain rfl := Except.ok.inj hok
      cases n with
      | code c => exact .inl h
      | id i =>
        rcases h with ⟨row', hmem, rfl, hother⟩ | hext
        · obtain ⟨old, hold, rfl⟩ := List.mem_map.mp hmem
          rw [tenantId_replaceProperty (Option.some.inj hown)] at hother
          exact .inl (.inl ⟨old, hold, (id_replaceProperty client row old).symm, hother⟩)
        · exact .inl (.inr hext)
  | addExtension row =>
    simp only [Write.perform] at hok
    split at hok
    · exact absurd hok (by simp)
    · obtain rfl := Except.ok.inj hok
      cases n with
      | code c => exact .inl h
      | id i =>
        rcases h with hproperty | ⟨row', hmem, rfl, hother⟩
        · exact .inl (.inl hproperty)
        · rcases Table.mem_insert_iff.mp hmem with hold | ⟨-, rfl⟩
          · exact .inl (.inr ⟨row', hold, rfl, hother⟩)
          · refine .inr ⟨fun heq => hother ?_, List.mem_singleton_self _⟩
            exact (Option.some.inj hown).trans heq
  | addTaxConfig row | setTaxConfig row | removeTaxConfig t property | addPropertyExtension row
  | setPropertyExtension row | addBooking t property =>
    obtain rfl := Except.ok.inj hok
    cases n <;> exact .inl h

end Writes

/-! Runs -/

section Runs
variable {tenant client : UUID} {db : SharedDb} {req : PackRequest} {a : Answer} {w : Write}

theorem settled_of_wrote (h : Wrote tenant (db.seenBy tenant) req w)
    (hnames : ∀ n ∈ req.names, ¬ Foreign tenant db n) : w.Settled tenant db := by
  cases h with
  | @createPack data row hcode =>
    change ¬ Foreign tenant db (.code row.code)
    rw [hcode]
    exact hnames _ (List.mem_singleton_self _)
  | updatePack => trivial
  | @applyPack code property old pack hpack hold hfree =>
    refine .inr fun c hc => ?_
    obtain rfl : pack.code = c := Option.some.inj hc
    rintro ⟨row, hmem, hcode, hhidden⟩
    obtain ⟨hin, hvisible⟩ := Table.mem_restrict.mp hpack
    rw [List.inj_on_of_nodup_map db.packs.nodup hmem hin hcode, hvisible] at hhidden
    exact absurd hhidden (by simp)
  | createProperty =>
    refine ⟨hnames _ (List.mem_cons_self ..), fun c hc => hnames _ (List.mem_cons_of_mem _ ?_)⟩
    exact List.mem_map_of_mem (Option.mem_toList.mpr hc)
  | @updateProperty property data old row hold hid hcode =>
    have hfind : (db.seenBy tenant).properties.find row.id = some old := by
      rw [hid, (Table.find_eq_some.mp hold).2, hold]
    cases hdata : data.countryPackCode with
    | none =>
      rw [hdata] at hcode
      exact .inl ⟨old, hfind, hcode.symm⟩
    | some code =>
      refine .inr fun c hc => hnames _ (List.mem_map_of_mem (Option.mem_toList.mpr ?_))
      rw [hcode, hdata] at hc
      rw [hdata]
      exact hc
  | @registerExtension id data row hid =>
    change ¬ Foreign tenant db (.id row.id)
    rw [hid]
    exact hnames _ (List.mem_singleton_self _)
  | plain h => cases w <;> trivial

theorem made_of_wrote {seen : SharedDb} (h : Wrote tenant seen req w) : w.made ⊆ req.made := by
  cases h with
  | createPack hcode =>
    change [Name.code _] ⊆ [Name.code _]
    rw [hcode]
    exact List.Subset.refl _
  | registerExtension hid =>
    change [Name.id _] ⊆ [Name.id _]
    rw [hid]
    exact List.Subset.refl _
  | createProperty => exact fun n hn => hn
  | updatePack | applyPack _ _ _ | updateProperty _ _ _ => exact List.nil_subset _
  | plain h => cases w <;> first | exact List.nil_subset _ | exact h.elim

/-- What becomes of the tables. -/
inductive Served (client : UUID) (req : PackRequest) (db : SharedDb) : SharedDb → Prop
  | unchanged : Served client req db db
  | wrote {w : Write} {db' : SharedDb} (h : Wrote client (db.seenBy client) req w)
      (hown : w.tenant = some client) (hok : w.perform client db = .ok db') :
      Served client req db db'

theorem serve_cases (client : UUID) (req : PackRequest) (db : SharedDb) :
    Served client req db (serve client req db).2 := by
  unfold serve
  split
  · exact .unchanged
  · exact .unchanged
  · next a w hresult =>
    split
    · exact .unchanged
    · next db' hcommit =>
      unfold Write.commit at hcommit
      split_ifs at hcommit with hown
      exact .wrote (wrote_of_result hresult) hown hcommit

theorem serve_own (hnames : ∀ n ∈ req.names, ¬ Foreign tenant db n) :
    serve tenant req (db.seenBy tenant) =
      ((serve tenant req db).1, (serve tenant req db).2.seenBy tenant) := by
  unfold serve
  rw [seenBy_seenBy]
  cases hresult : req.result tenant (db.seenBy tenant) with
  | error e => rfl
  | ok out =>
    obtain ⟨a, w⟩ := out
    cases w with
    | none => rfl
    | some w =>
      have hsettled := settled_of_wrote (wrote_of_result hresult) hnames
      by_cases hown : w.tenant = some tenant
      · simp only [Write.commit, if_pos hown, perform_own hown hsettled]
        cases w.perform tenant db <;> rfl
      · simp only [Write.commit, if_neg hown]

theorem serve_other (hne : client ≠ tenant) :
    (serve client req db).2.seenBy tenant = db.seenBy tenant := by
  have hcases := serve_cases client req db
  generalize (serve client req db).2 = db' at hcases
  cases hcases with
  | unchanged => rfl
  | wrote h hown hok => exact perform_other hne hown hok

theorem foreign_serve {n : Name} (h : Foreign tenant (serve client req db).2 n) :
    Foreign tenant db n ∨ client ≠ tenant ∧ n ∈ req.made := by
  have hcases := serve_cases client req db
  generalize (serve client req db).2 = db' at hcases h
  cases hcases with
  | unchanged => exact .inl h
  | wrote hwrote hown hok =>
    exact (foreign_perform hown hok h).imp_right fun hnew =>
      ⟨hnew.1, made_of_wrote hwrote hnew.2⟩

/-- However the requests of the tenants follow one another: a tenant that names nothing of
the others, neither a code nor an identifier, gets the answers that its requests get alone,
and sees the same in the end. -/
theorem tenant_isolation {requests : List (UUID × PackRequest)}
    (hapart : ∀ r ∈ requests, r.1 = tenant → ∀ n ∈ r.2.names, ¬ Foreign tenant db n ∧
      ∀ r' ∈ requests, r'.1 ≠ tenant → n ∉ r'.2.made) :
    Isolation.run serve (requests.filter fun r => r.1 = tenant) (db.seenBy tenant) =
      ((Isolation.run serve requests db).1.filter fun a => a.1 = tenant,
        (Isolation.run serve requests db).2.seenBy tenant) := by
  let named : Name → Prop := fun n => ∃ r ∈ requests, r.1 = tenant ∧ n ∈ r.2.names
  have hisolated : Isolation.Isolated serve tenant (SharedDb.seenBy tenant)
      (fun s => ∀ n, named n → ¬ Foreign tenant s n)
      (fun c req => (c = tenant → ∀ n ∈ req.names, named n) ∧
        (c ≠ tenant → ∀ n ∈ req.made, ¬ named n)) :=
    { own := fun req s hinv hallowed =>
        serve_own fun n hn => hinv n (hallowed.1 rfl n hn)
      other := fun c req s hne _ _ => serve_other hne
      preserved := fun c req s hinv hallowed n hn hforeign => by
        rcases foreign_serve hforeign with hold | ⟨hne, hmade⟩
        · exact hinv n hn hold
        · exact hallowed.2 hne n hmade hn }
  refine hisolated.alone ?_ fun r hr => ⟨fun hown n hn => ⟨r, hr, hown, hn⟩, fun hne n hn => ?_⟩
  · rintro n ⟨r, hr, hown, hn⟩
    exact (hapart r hr hown n hn).1
  · rintro ⟨r', hr', hown, hnamed⟩
    exact (hapart r' hr' hown n hnamed).2 r hr hne hn

end Runs

namespace Demo

def lodge : Property := ⟨7, 1, "Lodge", some "AT", "Europe/Vienna", "EUR", 15, 11⟩

/-- The first tenant has a pack, and a property with a booking. -/
def sharedDb : SharedDb where
  packs := storedPacks
  properties := Table.empty.insert lodge
  taxConfigs := Table.empty
  extensions := Table.empty
  propertyExtensions := Table.empty
  bookings := [(1, 7)]

/-- The second tenant comes in between. -/
def sharedRequests : List (UUID × PackRequest) :=
  [(2, .createPack { packOf [] with code := "CH" }), (1, .createPack { packOf [] with code := "IT" }),
    (2, .getPack "IT"), (1, .listPacks), (2, .registerExtension 9 ⟨"reg", "Registry", none, "u", []⟩)]

end Demo

theorem tenant_isolation_demo :
    (Isolation.run serve (Demo.sharedRequests.filter fun r => r.1 = 1)
        (Demo.sharedDb.seenBy 1)).1 =
      (Isolation.run serve Demo.sharedRequests Demo.sharedDb).1.filter (fun a => a.1 = 1) ∧
    (Isolation.run serve Demo.sharedRequests Demo.sharedDb).2.packs.rows.map (·.code) =
      ["AT", "CH", "IT"] := by
  refine ⟨?_, by decide⟩
  have hapart : ∀ r ∈ Demo.sharedRequests, r.1 = 1 → ∀ n ∈ r.2.names,
      ¬ Foreign 1 Demo.sharedDb n ∧ ∀ r' ∈ Demo.sharedRequests, r'.1 ≠ 1 → n ∉ r'.2.made := by
    decide
  rw [tenant_isolation hapart]

end OpenPms.Packs
