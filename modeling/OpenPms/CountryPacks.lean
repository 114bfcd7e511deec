import OpenPms.PackEdits
import OpenPms.TaxReceipts
import OpenPms.ChannexAri
import OpenPms.Lib.Isolation

/-!
The country packs of all tenants, with the properties they are applied to, the tax settings
and the extensions. A session sees of the tables what their policies let its tenant see; what
a request writes is one row of its tenant, under the constraints of the whole tables.
-/
namespace OpenPms.Packs

open KeyedTable Tax Decimals

/-! Rows -/

structure Property where
  id : UUID
  tenantId : UUID
  name : String
  countryPackCode : Option String
  timezone : String
  currency : String
  checkinTime : ℕ
  checkoutTime : ℕ
  deriving DecidableEq

structure PropertyTaxConfig extends TaxConfig where
  tenantId : UUID
  propertyId : UUID
  taxName : String

structure CountryPackExtension where
  id : UUID
  tenantId : UUID
  countryCode : Option String
  code : String
  name : String
  webhookUrl : String
  requiredFields : List String
  isActive : Bool

structure PropertyExtension where
  tenantId : UUID
  propertyId : UUID
  extensionId : UUID
  config : Option Json
  isActive : Bool

def PropertyTaxConfig.key (row : PropertyTaxConfig) : UUID × UUID := (row.tenantId, row.propertyId)

def PropertyExtension.key (row : PropertyExtension) : UUID × UUID × UUID :=
  (row.tenantId, row.propertyId, row.extensionId)

/-- Of a booking, its tenant and its property. -/
structure SharedDb where
  packs : PacksDb
  properties : Table Property.id
  taxConfigs : Table PropertyTaxConfig.key
  extensions : Table CountryPackExtension.id
  propertyExtensions : Table PropertyExtension.key
  bookings : List (UUID × UUID)

/-! Policies -/

def CountryPack.visible (tenant : UUID) (row : CountryPack) : Bool :=
  row.isBuiltin && row.tenantId.isNone || row.tenantId = some tenant

def SharedDb.seenBy (tenant : UUID) (db : SharedDb) : SharedDb where
  packs := db.packs.restrict fun row => row.visible tenant
  properties := db.properties.restrict fun row => row.tenantId = tenant
  taxConfigs := db.taxConfigs.restrict fun row => row.tenantId = tenant
  extensions := db.extensions.restrict fun row => row.tenantId = tenant
  propertyExtensions := db.propertyExtensions.restrict fun row => row.tenantId = tenant
  bookings := db.bookings.filter fun b => b.1 = tenant

inductive RequestError where
  | service (detail : String) (statusCode : ℕ)
  | pack (e : PackError)
  | attributeError
  | policyViolation
  | integrityError
  | tax (e : Signal)

/-! Writes -/

inductive Write where
  | addPack (row : CountryPack)
  | setPack (row : CountryPack)
  | addProperty (row : Property)
  | setProperty (row : Property)
  | addTaxConfig (row : PropertyTaxConfig)
  | setTaxConfig (row : PropertyTaxConfig)
  | removeTaxConfig (tenant property : UUID)
  | addExtension (row : CountryPackExtension)
  | addPropertyExtension (row : PropertyExtension)
  | setPropertyExtension (row : PropertyExtension)
  | addBooking (tenant property : UUID)

/-- The tenant of the row that is written; a pack that is not a tenant's has none. -/
def Write.tenant : Write → Option UUID
  | addPack row | setPack row => if row.isBuiltin then none else row.tenantId
  | addProperty row | setProperty row => some row.tenantId
  | addTaxConfig row | setTaxConfig row => some row.tenantId
  | addExtension row => some row.tenantId
  | addPropertyExtension row | setPropertyExtension row => some row.tenantId
  | removeTaxConfig tenant _ | addBooking tenant _ => some tenant

section Replace
variable (tenant : UUID)

/-- An update reaches the rows that its policy admits. -/
def replacePack (row old : CountryPack) : CountryPack :=
  if old.code = row.code ∧ old.tenantId = some tenant ∧ old.isBuiltin = false then row else old

theorem code_replacePack (row old : CountryPack) : (replacePack tenant row old).code = old.code := by
  unfold replacePack
  split
  · next h => exact h.1.symm
  · rfl

def replaceProperty (row old : Property) : Property :=
  if old.id = row.id ∧ old.tenantId = tenant then row else old

theorem id_replaceProperty (row old : Property) : (replaceProperty tenant row old).id = old.id := by
  unfold replaceProperty
  split
  · next h => exact h.1.symm
  · rfl

def replaceTaxConfig (row old : PropertyTaxConfig) : PropertyTaxConfig :=
  if old.key = row.key ∧ old.tenantId = tenant then row else old

theorem key_replaceTaxConfig (row old : PropertyTaxConfig) :
    (replaceTaxConfig tenant row old).key = old.key := by
  unfold replaceTaxConfig
  split
  · next h => exact h.1.symm
  · rfl

def replaceExtension (row old : PropertyExtension) : PropertyExtension :=
  if old.key = row.key ∧ old.tenantId = tenant then row else old

theorem key_replaceExtension (row old : PropertyExtension) :
    (replaceExtension tenant row old).key = old.key := by
  unfold replaceExtension
  split
  · next h => exact h.1.symm
  · rfl

end Replace

/-- The foreign key to the packs looks at all of them. -/
def SharedDb.Known (code : Option String) (db : SharedDb) : Prop :=
  ∀ c ∈ code, (db.packs.find c).isSome

instance (code : Option String) (db : SharedDb) : Decidable (db.Known code) :=
  inferInstanceAs (Decidable (∀ c ∈ code, (db.packs.find c).isSome))

/-- The keys to the properties and the extensions hold, since the services have found the rows. -/
def Write.perform (tenant : UUID) (db : SharedDb) : Write → Except RequestError SharedDb
  | addPack row =>
    if (db.packs.find row.code).isSome then .error .integrityError
    else .ok { db with packs := db.packs.insert row }
  | setPack row =>
    .ok { db with packs := db.packs.updateAll (replacePack tenant row) (code_replacePack tenant row) }
  | addProperty row =>
    if (db.properties.find row.id).isSome ∨ ¬ db.Known row.countryPackCode then
      .error .integrityError
    else .ok { db with properties := db.properties.insert row }
  | setProperty row =>
    let old := (db.properties.find row.id).filter fun old => old.tenantId = tenant
    if old.map (·.countryPackCode) ≠ some row.countryPackCode ∧ ¬ db.Known row.countryPackCode then
      .error .integrityError
    else .ok { db with
      properties := db.properties.updateAll (replaceProperty tenant row) (id_replaceProperty tenant row) }
  | addTaxConfig row => .ok { db with taxConfigs := db.taxConfigs.insert row }
  | setTaxConfig row => .ok { db with
      taxConfigs := db.taxConfigs.updateAll (replaceTaxConfig tenant row)
        (key_replaceTaxConfig tenant row) }
  | removeTaxConfig _ property => .ok { db with
      taxConfigs := db.taxConfigs.restrict fun row =>
        ¬ (row.propertyId = property ∧ row.tenantId = tenant) }
  | addExtension row =>
    if (db.extensions.find row.id).isSome then .error .integrityError
    else .ok { db with extensions := db.extensions.insert row }
  | addPropertyExtension row =>
    .ok { db with propertyExtensions := db.propertyExtensions.insert row }
  | setPropertyExtension row => .ok { db with
      propertyExtensions := db.propertyExtensions.updateAll (replaceExtension tenant row)
        (key_replaceExtension tenant row) }
  | addBooking _ property => .ok { db with bookings := db.bookings ++ [(tenant, property)] }

/-- A row of another tenant is refused. -/
def Write.commit (tenant : UUID) (db : SharedDb) (w : Write) : Except RequestError SharedDb :=
  if w.tenant = some tenant then w.perform tenant db else .error .policyViolation

/-! Properties -/

structure PropertyCreate where
  name : String
  timezone : String
  currency : String
  checkinTime : ℕ
  checkoutTime : ℕ
  countryPackCode : Option String

/-- Each field is absent, null or set. -/
structure PropertyPatch where
  name : Option (Option String) := none
  timezone : Option (Option String) := none
  currency : Option (Option String) := none
  checkinTime : Option (Option ℕ) := none
  checkoutTime : Option (Option ℕ) := none
  countryPackCode : Option (Option String) := none

/-- An empty text is no code; one of blanks is stripped to it. -/
def createdCode (code : Option String) : Option String :=
  (code.filter fun c => c ≠ "").map Text.strip

def createProperty (tenant id : UUID) (data : PropertyCreate) : Property :=
  ⟨id, tenant, Text.strip data.name, createdCode data.countryPackCode, data.timezone, data.currency,
    data.checkinTime, data.checkoutTime⟩

def getProperty (property : UUID) (seen : SharedDb) : Option Property := seen.properties.find property

def propertyNotFound : RequestError := .service "Property not found" 404

/-- `None` has no `strip`. -/
def nameOr (current : String) : Option (Option String) → Except RequestError String
  | none => .ok current
  | some none => .error .attributeError
  | some (some name) => .ok (Text.strip name)

def columnOf {α : Type} (current : α) (field : Option (Option α)) : Except RequestError α :=
  (columnOr current field).mapError .pack

/-- A code of blanks is none. -/
def patchedCode (current : Option String) : Option (Option String) → Option String
  | none => current
  | some code => (code.map Text.strip).filter fun c => c ≠ ""

def updateProperty (property : UUID) (data : PropertyPatch) (seen : SharedDb) :
    Except RequestError Property :=
  match getProperty property seen with
  | none => .error propertyNotFound
  | some row => do
    let name ← nameOr row.name data.name
    let timezone ← columnOf row.timezone data.timezone
    let currency ← columnOf row.currency data.currency
    let checkin ← columnOf row.checkinTime data.checkinTime
    let checkout ← columnOf row.checkoutTime data.checkoutTime
    pure { row with
      name := name, timezone := timezone, currency := currency, checkinTime := checkin,
      checkoutTime := checkout, countryPackCode := patchedCode row.countryPackCode data.countryPackCode }

def countBookings (property : UUID) (seen : SharedDb) : ℕ :=
  (seen.bookings.filter fun b => b.2 = property).length

/-! Country packs -/

/-- Built-in packs first, then by code. -/
def packLe (a b : CountryPack) : Bool :=
  (a.isBuiltin && !b.isBuiltin) || (a.isBuiltin == b.isBuiltin && decide (a.code ≤ b.code))

def listCountryPacks (seen : SharedDb) : List CountryPack :=
  seen.packs.rows.insertionSort fun a b => packLe a b

def getCountryPack (code : String) (seen : SharedDb) : Option CountryPack :=
  seen.packs.find (Text.strip code)

/-- The row is not deleted: the coroutine that would do it is never awaited. -/
def deleteCountryPack (tenant : UUID) (code : String) (seen : SharedDb) :
    Except RequestError Unit :=
  match getCountryPack code seen with
  | none => .error (.pack notFound)
  | some row =>
    if row.isBuiltin then .error (.service "cannot delete builtin country pack" 403)
    else if row.tenantId ≠ some tenant then .error (.pack notFound)
    else if ∃ p ∈ seen.properties.rows, p.countryPackCode = some (Text.strip code) then
      .error (.service "country pack is attached to one or more properties" 409)
    else .ok ()

def lockedDetail (n : ℕ) : String :=
  "Cannot change country pack: property has " ++ toString n ++ " booking(s). Contact support."

def applyCountryPack (code : String) (property : UUID) (seen : SharedDb) :
    Except RequestError (Property × CountryPack) :=
  match getCountryPack code seen with
  | none => .error (.pack notFound)
  | some pack =>
    match getProperty property seen with
    | none => .error (.service "property not found" 404)
    | some row =>
      if row.countryPackCode.isSome ∧ 0 < countBookings property seen then
        .error (.service (lockedDetail (countBookings property seen)) 409)
      else .ok ({ row with
        countryPackCode := some pack.code, currency := pack.currencyCode, timezone := pack.timezone,
        checkinTime := pack.defaultCheckinTime, checkoutTime := pack.defaultCheckoutTime }, pack)

/-! Taxes -/

structure TaxConfigCreate where
  taxMode : TaxMode
  taxName : String
  taxRate : ℚ

def getTaxConfig (tenant property : UUID) (seen : SharedDb) : Option PropertyTaxConfig :=
  seen.taxConfigs.find (tenant, property)

def taxConfigRow (tenant property : UUID) (data : TaxConfigCreate) : PropertyTaxConfig where
  taxMode := data.taxMode
  taxRate := data.taxRate
  tenantId := tenant
  propertyId := property
  taxName := Text.strip data.taxName

/-- The charge of a stay without taxes is rounded half-even, as no rounding is named. -/
def untaxed (base : ℚ) : Except Signal CountryPackTaxPosting := do
  let gross ← quantizeBy halfEven base
  pure ⟨[], gross, gross⟩

/-- What the taxes of a stay come to. The pack is looked up by its code alone, among those that
the policies show. -/
def countryPackTaxes (tenant property : UUID) (base : ℚ) (seen : SharedDb) :
    Except Signal CountryPackTaxPosting :=
  match (getProperty property seen).bind fun p => p.countryPackCode.filter fun c => c ≠ "" with
  | none => untaxed base
  | some code =>
    let mode := ((getTaxConfig tenant property seen).map fun c => c.taxMode).getD .exclusive
    if mode = .off then untaxed base
    else
      match seen.packs.find (Text.strip code) with
      | none => untaxed base
      | some pack => countryPackTaxPosting base pack.taxes "room_charge" (some mode)

/-! Extensions -/

structure ExtensionCreate where
  code : String
  name : String
  countryCode : Option String
  webhookUrl : String
  requiredFields : List String

def registerExtension (tenant id : UUID) (data : ExtensionCreate) (seen : SharedDb) :
    Except RequestError CountryPackExtension :=
  let code := Text.strip data.code
  if ∃ row ∈ seen.extensions.rows, row.code = code then
    .error (.service "extension code already registered" 409)
  else .ok ⟨id, tenant, data.countryCode, code, Text.strip data.name, Text.strip data.webhookUrl,
    data.requiredFields, true⟩

/-- In the order of the codes. -/
def listExtensions (countryCode : Option String) (seen : SharedDb) : List CountryPackExtension :=
  (seen.extensions.rows.filter fun row =>
    ∀ cc ∈ countryCode, row.countryCode = some (Text.upper (Text.strip cc)) ∨ row.countryCode = none)
    |>.insertionSort fun a b => a.code ≤ b.code

def upsertPropertyExtension (tenant property extension : UUID) (config : Option Json)
    (isActive : Bool) (seen : SharedDb) : Except RequestError (PropertyExtension × Bool) :=
  if (getProperty property seen).isNone then .error (.service "property not found" 404)
  else if (seen.extensions.find extension).isNone then
    .error (.service "extension not found" 404)
  else .ok (⟨tenant, property, extension, config, isActive⟩,
    (seen.propertyExtensions.find (tenant, property, extension)).isSome)

def listPropertyExtensions (property : UUID) (seen : SharedDb) : List PropertyExtension :=
  seen.propertyExtensions.rows.filter fun row => row.propertyId = property

/-- What `getattr` finds under a name: `none`, a text or something else. -/
inductive Attribute where
  | none
  | text (s : String)
  | other
  deriving DecidableEq

def guestFieldPresent : Attribute → Bool
  | .none => false
  | .text s => Text.strip s ≠ ""
  | .other => true

/-- The names that the extension asks for and the guest has not. -/
def missingFields (guest : String → Attribute) (ext : CountryPackExtension) : List String :=
  (ext.requiredFields.map Text.strip).filter fun key => key ≠ "" ∧ guestFieldPresent (guest key) = false

/-- The active extensions of a property, each as often as it is linked. -/
def activeExtensions (property : UUID) (seen : SharedDb) : List CountryPackExtension :=
  (listPropertyExtensions property seen).filterMap fun row =>
    if row.isActive then (seen.extensions.find row.extensionId).filter fun ext => ext.isActive
    else none

def validateRequiredFields (property : UUID) (guest : String → Attribute) (seen : SharedDb) :
    List String :=
  (activeExtensions property seen).filterMap fun ext =>
    let missing := missingFields guest ext
    if missing = [] then none
    else some (ext.code ++ " requires: " ++ ", ".intercalate missing)

end OpenPms.Packs
