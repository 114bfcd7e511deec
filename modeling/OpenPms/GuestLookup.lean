import Mathlib.Data.Prod.Lex
import OpenPms.Lib.Like
import OpenPms.Lib.Sorting
import OpenPms.MigrationEmails
import OpenPms.MigrationLoss

/-!
The search of the migration for the guest with an address. The server lists the guests one
of whose columns contains the text, the latest change first, and the migration takes the
first of ten that has the address.
-/
namespace OpenPms.Migration

open Transaction Prog MigrationPipeline

/-! The list of the server -/

/-- When a guest was last changed, and how the database orders rows that tie. -/
structure GuestOrder where
  updatedAt : UUID → ℤ
  tie : UUID → ℕ
  tie_injective : Function.Injective tie

/-- The latest change first, then by last name. -/
def GuestOrder.key (o : GuestOrder) (g : Guest) : ℤᵒᵈ ×ₗ String ×ₗ ℕ :=
  toLex (OrderDual.toDual (o.updatedAt g.id), toLex (g.lastName, o.tie g.id))

/-- `column.ilike(f"%{q.strip()}%")` -/
def ilike (q column : String) : Bool :=
  Like.isMatch (Like.tokens ('%' :: ((Text.lower (Text.strip q)).toList ++ ['%'])))
    (Text.lower column).toList

def guestMatches (q : String) (g : Guest) : Bool :=
  ilike q g.firstName || ilike q g.lastName || ilike q g.email || ilike q g.phone

/-- The filter of the statement; a search for nothing has none. -/
def inSearch (q : String) (g : Guest) : Bool := Text.strip q = "" || guestMatches q g

def listGuestRows (o : GuestOrder) (q : String) (limit offset : ℕ) (rows : List Guest) :
    List Guest :=
  (((rows.filter (inSearch q)).insertionSort fun g h => o.key g ≤ o.key h).drop offset).take limit

section Page
variable {o : GuestOrder} {rows : List Guest}

theorem GuestOrder.key_injective {g h : Guest} (heq : o.key g = o.key h) : g.id = h.id := by
  have hpair := congrArg (fun k => (ofLex (ofLex k).2).2) heq
  exact o.tie_injective hpair

/-- The first page has the matching guests that few others precede. -/
theorem mem_listGuestRows (hids : (rows.map (·.id)).Nodup) {q : String} {limit : ℕ} {g : Guest} :
    g ∈ listGuestRows o q limit 0 rows ↔ g ∈ rows ∧ inSearch q g = true ∧
      (rows.filter (inSearch q)).countP (fun h => o.key h < o.key g) < limit := by
  have hperm := List.perm_insertionSort (fun g h => o.key g ≤ o.key h) (rows.filter (inSearch q))
  have hkeys : ((rows.filter (inSearch q)).map o.key).Nodup := by
    have hfilter := hids.sublist ((List.filter_sublist (p := inSearch q)).map (·.id))
    refine List.pairwise_map.mpr ((List.pairwise_map.mp hfilter).imp ?_)
    exact fun hne heq => hne (GuestOrder.key_injective heq)
  have hsorted := Sorting.pairwise_lt hkeys
  rw [listGuestRows, List.drop_zero]
  constructor
  · intro hmem
    have hin := hperm.mem_iff.mp (List.mem_of_mem_take hmem)
    obtain ⟨hrow, hsearch⟩ := List.mem_filter.mp hin
    have hcount := (Sorting.mem_take_iff_countP (fun _ _ => lt_asymm) hsorted
      (List.mem_of_mem_take hmem) limit).mp hmem
    rw [hperm.countP_eq] at hcount
    exact ⟨hrow, hsearch, hcount⟩
  · intro ⟨hrow, hsearch, hcount⟩
    have hin := hperm.mem_iff.mpr (List.mem_filter.mpr ⟨hrow, hsearch⟩)
    refine (Sorting.mem_take_iff_countP (fun _ _ => lt_asymm) hsorted hin limit).mpr ?_
    rw [hperm.countP_eq]
    exact hcount

/-- An address without a backslash is found. -/
theorem inSearch_email {g : Guest} (hkey : nameKey g.email = g.email) (h : '\\' ∉ g.email.toList) :
    inSearch g.email g = true := by
  have hlower : Text.lower (Text.strip g.email) = g.email := hkey
  have hcolumn : Text.lower g.email = g.email := by
    rw [← hkey, nameKey, lower_lower]
  have hfound : ilike g.email g.email = true := by
    rw [ilike, hlower, hcolumn]
    exact Like.isMatch_infix h (List.infix_refl _)
  simp [inSearch, guestMatches, hfound]

end Page

/-! The search -/

/-- The id that the state file has for the address; an empty one does not count. -/
def storedGuest (p : MigrationPipeline Tenant) (w : World Tenant) (email : String) :
    Option IdText :=
  (p.runId.bind fun run => w.store.mappings run .guestEmail email).filter (· ≠ .other "")

/-- The guest is the one that the address belongs to, or there is none. -/
def expectedGuest (w : World Tenant) (email : String) : Option IdText :=
  (findGuestByEmail email w.server.db.toDb).map fun g => .uuid g.id

theorem find?_of_unique {α : Type} {items : List α} {q : α → Bool} {a : α} (ha : a ∈ items)
    (hq : q a = true) (honly : ∀ b ∈ items, q b = true → b = a) : items.find? q = some a := by
  cases hfind : items.find? q with
  | none => exact absurd hq (List.find?_eq_none.mp hfind a ha)
  | some b => rw [honly b (List.mem_of_find?_eq_some hfind) (List.find?_some hfind)]

section Lookup
variable {p : MigrationPipeline Tenant} {w : World Tenant} {email : String}

theorem exec_call_success {σ : Type} {api : Api σ} {q : Request} {w : World σ} {answer : Answer q}
    (h : (api q w.server).1 = success answer) :
    ∃ w', (call api q).exec w = (.ok answer, w') := by
  let sent : World σ :=
    ⟨(api q w.server).2, w.store, w.report, ⟨q, (api q w.server).1.status⟩ :: w.log⟩
  have hsend : (send api q).exec w = (.ok (api q w.server).1, sent) := rfl
  have hresult : (api q w.server).1.result = .ok (some answer) := by
    rw [h]
    rfl
  have hrequest : (request api q).exec w = (.ok (some answer), sent) := by
    rw [request, attempts, exec_bind, hsend]
    simp only [hresult]
    rfl
  refine ⟨sent, ?_⟩
  rw [call, exec_bind, hrequest]
  rfl

/-- Without a stored id the first row of the page with the address decides. -/
theorem exec_guestLookup {draws : Draws} (hclient : p.client = openPms draws)
    (hnone : storedGuest p w email = none) :
    ((p.guestLookupOpenpms email).exec w).1 =
      .ok (((draws.guestPage email w.server.db.guests.rows).find? fun g => nameKey g.email = email).map
        fun g => .uuid g.id) := by
  have hfilter : (p.runId.bind fun run => w.store.mappings run .guestEmail email).filter
      (· ≠ .other "") = none := hnone
  have hanswer : (p.client (.listGuests email) w.server).1 =
      success ((draws.guestPage email w.server.db.guests.rows).map
        fun g => ⟨g.email, some (.uuid g.id)⟩) := by
    rw [hclient]
    rfl
  obtain ⟨w₁, hcall⟩ := exec_call_success hanswer
  rw [guestLookupOpenpms, exec_bind, exec_mappedGuest]
  simp only [hfilter]
  rw [exec_bind, hcall]
  simp only [firstWithEmail, List.find?_map, Function.comp_def]
  cases hfind : (draws.guestPage email w.server.db.guests.rows).find?
      fun g => nameKey g.email = email with
  | none => rfl
  | some g =>
    obtain ⟨w₂, hput, -⟩ := exec_store p
      (fun run st => st.putMapping run .guestEmail email (.uuid g.id)) w₁
    have hmapped : (p.putMapping .guestEmail email (.uuid g.id)).exec w₁ = (.ok (), w₂) := hput
    simp only [Option.map_some]
    rw [exec_bind, exec_bind, hmapped]
    rfl

theorem exec_guestLookup_stored {id : IdText} (h : storedGuest p w email = some id) :
    (p.guestLookupOpenpms email).exec w = (.ok (some id), w) := by
  have hfilter : (p.runId.bind fun run => w.store.mappings run .guestEmail email).filter
      (· ≠ .other "") = some id := h
  rw [guestLookupOpenpms, exec_bind, exec_mappedGuest]
  simp only [hfilter]
  rfl

/-- The guest is found if its address is found by the search and fewer than ten of the
guests that are found precede it. -/
def OnFirstPage (o : GuestOrder) (rows : List Guest) (email : String) (g : Guest) : Prop :=
  inSearch email g = true ∧
    (rows.filter (inSearch email)).countP (fun h => o.key h < o.key g) < 10

instance (o : GuestOrder) (rows : List Guest) (email : String) (g : Guest) :
    Decidable (OnFirstPage o rows email g) := inferInstanceAs (Decidable (_ ∧ _))

/-- The search returns the guest with the address exactly if the id that is stored for it is
right, or none is stored and the guest is on the first page. An address without a backslash
that at most ten guests match is on it. -/
theorem guestLookup_exact_iff {draws : Draws} {o : GuestOrder}
    (hpage : ∀ q rows, draws.guestPage q rows = listGuestRows o q 10 0 rows)
    (hclient : p.client = openPms draws)
    (hstored : ∀ g ∈ w.server.db.guests.rows, nameKey g.email = g.email)
    (hunique : (w.server.db.guests.rows.map (·.email)).Nodup) :
    (((p.guestLookupOpenpms email).exec w).1 = .ok (expectedGuest w email) ↔
      match storedGuest p w email with
      | some id => expectedGuest w email = some id
      | none => ∀ g ∈ w.server.db.guests.rows, g.email = email →
        OnFirstPage o w.server.db.guests.rows email g) ∧
    ('\\' ∉ email.toList →
      w.server.db.guests.rows.countP (fun g => inSearch email g) ≤ 10 →
      ∀ g ∈ w.server.db.guests.rows, g.email = email →
        OnFirstPage o w.server.db.guests.rows email g) := by
  let rows := w.server.db.guests.rows
  have hids : (rows.map (·.id)).Nodup := w.server.db.guests.nodup
  have hsame : ∀ g ∈ rows, ∀ g' ∈ rows, g.email = g'.email → g = g' :=
    fun g hg g' hg' heq => List.inj_on_of_nodup_map hunique hg hg' heq
  have hlisted : ∀ g, g ∈ draws.guestPage email rows ↔ g ∈ rows ∧ OnFirstPage o rows email g := by
    intro g
    rw [hpage]
    exact mem_listGuestRows hids
  have hexpected : ∀ g ∈ rows, g.email = email →
      findGuestByEmail email w.server.db.toDb = some g := by
    intro g hg hgemail
    refine find?_of_unique hg (by simpa using hgemail) fun g' hg' hkey => ?_
    exact hsame g' hg' g hg ((by simpa using hkey : g'.email = email).trans hgemail.symm)
  have hpageEmail : ∀ g ∈ draws.guestPage email rows,
      (nameKey g.email = email ↔ g.email = email) := fun g hg => by
    rw [hstored g ((hlisted g).mp hg).1]
  constructor
  · cases hmapped : storedGuest p w email with
    | some id =>
      rw [exec_guestLookup_stored hmapped]
      simp [eq_comm]
    | none =>
      rw [exec_guestLookup hclient hmapped]
      simp only [Except.ok.injEq]
      constructor
      · intro heq g hg hgemail
        rw [expectedGuest, hexpected g hg hgemail] at heq
        obtain ⟨g', hfind, hid⟩ := Option.map_eq_some_iff.mp heq
        have hmem := List.mem_of_find?_eq_some hfind
        have hsameId : g'.id = g.id := IdText.uuid.inj hid
        have hrow := List.inj_on_of_nodup_map hids ((hlisted g').mp hmem).1 hg hsameId
        rw [hrow] at hmem
        exact ((hlisted g).mp hmem).2
      · intro hpaged
        cases hfind : findGuestByEmail email w.server.db.toDb with
        | none =>
          have habsent : (draws.guestPage email rows).find? (fun g => nameKey g.email = email) =
              none := by
            refine List.find?_eq_none.mpr fun g hg hkey => ?_
            have hgemail := (hpageEmail g hg).mp (by simpa using hkey)
            exact List.find?_eq_none.mp hfind g ((hlisted g).mp hg).1 (by simpa using hgemail)
          rw [habsent, expectedGuest, hfind]
        | some g =>
          have hg : g ∈ rows := List.mem_of_find?_eq_some hfind
          have hgemail : g.email = email := by simpa using List.find?_some hfind
          have hmem := (hlisted g).mpr ⟨hg, hpaged g hg hgemail⟩
          have hpresent : (draws.guestPage email rows).find? (fun g => nameKey g.email = email) =
              some g := by
            refine find?_of_unique hmem (by simpa using (hpageEmail g hmem).mpr hgemail) ?_
            intro g' hg' hkey
            have hg'email := (hpageEmail g' hg').mp (by simpa using hkey)
            exact hsame g' ((hlisted g').mp hg').1 g hg (hg'email.trans hgemail.symm)
          rw [hpresent, expectedGuest, hfind]
  · intro hplain hfew g hg hgemail
    have hsearch : inSearch email g = true := by
      rw [← hgemail]
      exact inSearch_email (hstored g hg) (hgemail ▸ hplain)
    refine ⟨hsearch, ?_⟩
    have hmem : g ∈ rows.filter (inSearch email) := List.mem_filter.mpr ⟨hg, hsearch⟩
    have hother : 0 < (rows.filter (inSearch email)).countP fun h => ¬ o.key h < o.key g :=
      List.countP_pos_iff.mpr ⟨g, hmem, by simp⟩
    have hlength := List.length_eq_countP_add_countP (fun h => decide (o.key h < o.key g))
      (l := rows.filter (inSearch email))
    simp only [decide_eq_true_eq] at hlength
    have hcount : (rows.filter (inSearch email)).length ≤ 10 := by
      rw [← List.countP_eq_length_filter]
      exact hfew
    change (rows.filter (inSearch email)).countP (fun h => o.key h < o.key g) < 10
    omega

end Lookup

namespace Demo

/-- Guests of which the first changed first, and whose address is part of all the others. -/
def crowd (n : ℕ) : List Guest :=
  (List.range n).map fun i =>
    ⟨i, "Ana", "Reis", String.ofList (List.replicate i 'b') ++ "a@x.org", "+1", none, none⟩

def crowdOrder : GuestOrder := ⟨fun id => id, fun id => id, fun _ _ h => h⟩

def crowdDraws : Draws :=
  { draws with guestPage := fun q rows => listGuestRows crowdOrder q 10 0 rows }

theorem nodup_crowd (n : ℕ) : ((crowd n).map (·.id)).Nodup := by
  simp [crowd, Function.comp_def, List.nodup_range]

def crowdWorld (n : ℕ) : World Tenant :=
  start (tenant.setCore { tenant.db.toDb with guests := ⟨crowd n, nodup_crowd n⟩ }) .empty

def crowdPipeline : MigrationPipeline Tenant :=
  { migration (oneRoom []) with client := openPms crowdDraws, runId := none }

/-- Ten later guests are listed before the one with the address. -/
theorem guestLookup_crowded : ¬ ∀ (draws : Draws) (o : GuestOrder) (p : MigrationPipeline Tenant)
    (w : World Tenant) (email : String),
    (∀ q rows, draws.guestPage q rows = listGuestRows o q 10 0 rows) →
    p.client = openPms draws →
    (∀ g ∈ w.server.db.guests.rows, nameKey g.email = g.email) →
    (w.server.db.guests.rows.map (·.email)).Nodup → storedGuest p w email = none →
    ((p.guestLookupOpenpms email).exec w).1 = .ok (expectedGuest w email) := by
  intro h
  have hfound := h crowdDraws crowdOrder crowdPipeline (crowdWorld 11) "a@x.org"
    (fun _ _ => rfl) rfl (by decide +kernel) (by decide +kernel) rfl
  have hclient : crowdPipeline.client = openPms crowdDraws := rfl
  have hpage : ((crowdDraws.guestPage "a@x.org" (crowdWorld 11).server.db.guests.rows).find?
      fun g => nameKey g.email = "a@x.org") = none := by decide +kernel
  have hwanted : expectedGuest (crowdWorld 11) "a@x.org" = some (.uuid 0) := by decide +kernel
  rw [exec_guestLookup hclient rfl, hpage, hwanted] at hfound
  cases hfound

/-- With ten guests in all the first one is found. -/
theorem guestLookup_exact_ten :
    ((crowdPipeline.guestLookupOpenpms "a@x.org").exec (crowdWorld 10)).1 =
      .ok (expectedGuest (crowdWorld 10) "a@x.org") := by
  have hpage : ∀ q rows, crowdDraws.guestPage q rows = listGuestRows crowdOrder q 10 0 rows :=
    fun _ _ => rfl
  have hlisted : ∀ g ∈ (crowdWorld 10).server.db.guests.rows, g.email = "a@x.org" →
      OnFirstPage crowdOrder (crowdWorld 10).server.db.guests.rows "a@x.org" g := by
    decide +kernel
  exact (guestLookup_exact_iff (p := crowdPipeline) hpage rfl (by decide +kernel)
    (by decide +kernel)).1.mpr hlisted

end Demo

end OpenPms.Migration
