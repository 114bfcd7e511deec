import Mathlib.Data.List.MinMax
import Mathlib.Data.String.Basic
import OpenPms.Deletion
import OpenPms.Lib.Sorting
import OpenPms.MigrationPipeline

/-!
The addresses under which the guests of a source are posted. A guest without an address of
its own gets one in a domain of the migration, and of the guests with one address only the
first by external id is posted.
-/
namespace OpenPms.Migration

/-! Lower case -/

theorem toNat_toLower (c : Char) :
    c.toLower.toNat = if 65 ≤ c.toNat ∧ c.toNat ≤ 90 then c.toNat + 32 else c.toNat := by
  by_cases hupper : c.val ≥ 'A'.val ∧ c.val ≤ 'Z'.val
  · have hrange : 65 ≤ c.toNat ∧ c.toNat ≤ 90 := hupper
    have hval : (c.val + ('a'.val - 'A'.val)).toNat = c.toNat + 32 := by
      have hsum := UInt32.toNat_add c.val ('a'.val - 'A'.val)
      have hdiff : ('a'.val - 'A'.val).toNat = 32 := by decide
      have hle : c.val.toNat ≤ 90 := hrange.2
      rw [hdiff] at hsum
      rw [hsum]
      exact Nat.mod_eq_of_lt (by omega)
    rw [if_pos hrange, ← hval]
    exact congrArg Char.toNat (dif_pos hupper)
  · have hrange : ¬ (65 ≤ c.toNat ∧ c.toNat ≤ 90) := hupper
    rw [if_neg hrange]
    exact congrArg Char.toNat (dif_neg hupper)

theorem isSpace_lowerChar (c : Char) : Text.isSpace (Text.lowerChar c) = Text.isSpace c := by
  unfold Text.lowerChar
  split
  · next hkelvin => simp [Text.isSpace, hkelvin]
  · rw [Bool.eq_iff_iff]
    simp only [Text.isSpace, toNat_toLower, Bool.or_eq_true, Bool.and_eq_true, decide_eq_true_eq,
      beq_iff_eq]
    split
    · omega
    · rfl

theorem lowerChar_lowerChar (c : Char) : Text.lowerChar (Text.lowerChar c) = Text.lowerChar c := by
  by_cases hkelvin : c.toNat = 0x212A
  · simp [Text.lowerChar, hkelvin]
  · have hlower : c.toLower.toNat ≠ 0x212A := by
      rw [toNat_toLower]
      split
      · omega
      · exact hkelvin
    simp only [Text.lowerChar, if_neg hkelvin, if_neg hlower]
    refine Char.toNat_inj.mp ?_
    rw [toNat_toLower c.toLower, toNat_toLower c]
    split
    · split at *
      · omega
      · omega
    · rfl

theorem lower_lower (s : String) : Text.lower (Text.lower s) = Text.lower s := by
  simp [Text.lower, Function.comp_def, lowerChar_lowerChar]

theorem strip_lower (s : String) : Text.strip (Text.lower s) = Text.lower (Text.strip s) := by
  have hspace : Text.isSpace ∘ Text.lowerChar = Text.isSpace := funext isSpace_lowerChar
  simp only [Text.strip, Text.lower, String.toList_ofList, List.dropWhile_map, hspace,
    ← List.map_reverse]

theorem nameKey_nameKey (name : String) : nameKey (nameKey name) = nameKey name := by
  rw [nameKey, nameKey, strip_lower, strip_strip, lower_lower]

theorem lower_append (s t : String) : Text.lower (s ++ t) = Text.lower s ++ Text.lower t := by
  simp [Text.lower]

/-! Addresses -/

/-- The address of a guest as it is compared, empty if there is none. -/
def address (g : GuestRecord) : String := nameKey (g.email.getD "")

/-- Neither missing nor in the domain of the migration. -/
def HasRealAddress (g : GuestRecord) : Prop :=
  address g ≠ "" ∧ isSyntheticGuestEmail (g.email.getD "") = false

instance (g : GuestRecord) : Decidable (HasRealAddress g) := inferInstanceAs (Decidable (_ ∧ _))

theorem isWordChar_of_mem_dashRuns {inRun : Bool} {cs : List Char} {c : Char}
    (h : c ∈ dashRuns inRun cs) : isWordChar c = true := by
  induction cs generalizing inRun with
  | nil => simp [dashRuns] at h
  | cons first rest ih =>
    rw [dashRuns] at h
    split at h
    · next hword =>
      rcases List.mem_cons.mp h with rfl | hrest
      · exact hword
      · exact ih hrest
    · split at h
      · exact ih h
      · rcases List.mem_cons.mp h with rfl | hrest
        · decide
        · exact ih hrest

theorem isSpace_wordChar {c : Char} (h : isWordChar c = true) : Text.isSpace c = false := by
  refine isSpace_urlSafe ?_
  simp only [isWordChar, Bool.or_eq_true, Bool.and_eq_true, decide_eq_true_eq, beq_iff_eq] at h
  rcases h with (((hlow | hup) | hdigit) | hunder) | hdash
  · exact .inl ((isAlphanum_iff c).mpr (.inr (.inl hlow)))
  · exact .inl ((isAlphanum_iff c).mpr (.inl hup))
  · exact .inl ((isAlphanum_iff c).mpr (.inr (.inr hdigit)))
  · exact .inr (.inr hunder)
  · exact .inr (.inl hdash)

/-- The address that is made up for an id. -/
def placeholder (id : String) : String :=
  "noemail-" ++ String.ofList (dashRuns false id.toList) ++ "@migrate.openpms.local"

theorem strip_placeholder (id : String) : Text.strip (placeholder id) = placeholder id := by
  refine strip_of_no_space fun c hc => ?_
  simp only [placeholder, String.toList_append, String.toList_ofList, List.mem_append] at hc
  rcases hc with (hfirst | hid) | hdomain
  · have hall : ("noemail-".toList.all fun c => ! Text.isSpace c) = true := by decide
    simpa using List.all_eq_true.mp hall c hfirst
  · exact isSpace_wordChar (isWordChar_of_mem_dashRuns hid)
  · have hall : ("@migrate.openpms.local".toList.all fun c => ! Text.isSpace c) = true := by decide
    simpa using List.all_eq_true.mp hall c hdomain

theorem nameKey_placeholder (id : String) : nameKey (placeholder id) =
    "noemail-" ++ Text.lower (String.ofList (dashRuns false id.toList)) ++
      "@migrate.openpms.local" := by
  have hfirst : Text.lower "noemail-" = "noemail-" := by decide
  have hdomain : Text.lower "@migrate.openpms.local" = "@migrate.openpms.local" := by decide
  rw [nameKey, strip_placeholder, placeholder, lower_append, lower_append, hfirst, hdomain]

theorem isSynthetic_placeholder (id : String) : isSyntheticGuestEmail (placeholder id) = true := by
  rw [isSyntheticGuestEmail, nameKey_placeholder, String.toList_append]
  exact List.isSuffixOf_iff_suffix.mpr (List.suffix_append _ _)

section Safe
variable {g : GuestRecord}

theorem address_eq_empty : address g = "" ↔ Text.strip (g.email.getD "") = "" := by
  simp [address, nameKey, Text.lower]

theorem safeEmail_of_missing (h : address g = "") :
    safeEmailForGuest g = placeholder g.externalId := by
  rw [safeEmailForGuest, if_pos (address_eq_empty.mp h)]
  rfl

theorem safeEmail_of_address (h : address g ≠ "") : safeEmailForGuest g = address g := by
  rw [safeEmailForGuest, if_neg fun hempty => h (address_eq_empty.mpr hempty)]
  rfl

theorem isSynthetic_safeEmail :
    isSyntheticGuestEmail (safeEmailForGuest g) = true ↔ ¬ HasRealAddress g := by
  by_cases h : address g = ""
  · simp [safeEmail_of_missing h, isSynthetic_placeholder, HasRealAddress, h]
  · have hsame : isSyntheticGuestEmail (address g) = isSyntheticGuestEmail (g.email.getD "") := by
      simp only [isSyntheticGuestEmail, address, nameKey_nameKey]
    rw [safeEmail_of_address h, hsame]
    simp [HasRealAddress, h]

theorem nameKey_safeEmail (h : HasRealAddress g) : nameKey (safeEmailForGuest g) = address g := by
  rw [safeEmail_of_address h.1, address, nameKey_nameKey]

end Safe

/-! Guests with one address -/

section Dedupe
variable {seen : List String} {guests : List GuestRecord}

theorem length_dropSeenEmails (seen : List String) (guests : List GuestRecord) :
    (dropSeenEmails seen guests).1.length + (dropSeenEmails seen guests).2 = guests.length := by
  induction guests generalizing seen with
  | nil => rfl
  | cons g rest ih =>
    rw [dropSeenEmails]
    split
    · have hrest := ih seen
      simp only [List.length_cons]
      omega
    · split
      · have hrest := ih seen
        simp only [List.length_cons]
        omega
      · have hrest := ih (nameKey (safeEmailForGuest g) :: seen)
        simp only [List.length_cons]
        omega

theorem dropSeenEmails_sublist (seen : List String) (guests : List GuestRecord) :
    (dropSeenEmails seen guests).1.Sublist guests := by
  induction guests generalizing seen with
  | nil => exact .slnil
  | cons g rest ih =>
    rw [dropSeenEmails]
    split
    · exact (ih seen).cons_cons g
    · split
      · exact (ih seen).cons g
      · exact (ih _).cons_cons g

/-- A guest stays if it has no real address, or the first new one of its address. -/
theorem mem_dropSeenEmails {g : GuestRecord}
    (hsorted : guests.Pairwise fun a b => a.externalId < b.externalId) :
    g ∈ (dropSeenEmails seen guests).1 ↔ g ∈ guests ∧ (HasRealAddress g → address g ∉ seen ∧
      ∀ g' ∈ guests, HasRealAddress g' → address g' = address g →
        g.externalId ≤ g'.externalId) := by
  induction guests generalizing seen with
  | nil => simp [dropSeenEmails]
  | cons first rest ih =>
    obtain ⟨hfirst, hrest⟩ := List.pairwise_cons.mp hsorted
    rw [dropSeenEmails]
    by_cases hreal : HasRealAddress first
    · have hplain : ¬ isSyntheticGuestEmail (safeEmailForGuest first) = true :=
        fun h => isSynthetic_safeEmail.mp h hreal
      rw [if_neg hplain, nameKey_safeEmail hreal]
      by_cases hseen : address first ∈ seen
      · rw [if_pos hseen]
        refine (ih hrest).trans ⟨fun ⟨hmem, hkept⟩ => ⟨List.mem_cons_of_mem _ hmem, fun hg => ?_⟩,
          fun ⟨hmem, hkept⟩ => ?_⟩
        · obtain ⟨hnew, hleast⟩ := hkept hg
          refine ⟨hnew, List.forall_mem_cons.mpr ⟨fun _ heq => ?_, hleast⟩⟩
          exact absurd (heq ▸ hseen) hnew
        · rcases List.mem_cons.mp hmem with rfl | hmem
          · exact absurd hseen (hkept hreal).1
          · refine ⟨hmem, fun hg => ⟨(hkept hg).1, ?_⟩⟩
            exact (List.forall_mem_cons.mp (hkept hg).2).2
      · rw [if_neg hseen]
        constructor
        · intro hmem
          rcases List.mem_cons.mp hmem with rfl | hmem
          · refine ⟨List.mem_cons_self, fun _ => ⟨hseen, ?_⟩⟩
            exact List.forall_mem_cons.mpr ⟨fun _ _ => le_refl _,
              fun g' hg' _ _ => (hfirst g' hg').le⟩
          · obtain ⟨hmem, hkept⟩ := (ih hrest).mp hmem
            refine ⟨List.mem_cons_of_mem _ hmem, fun hg => ?_⟩
            obtain ⟨hnew, hleast⟩ := hkept hg
            refine ⟨fun h => hnew (List.mem_cons_of_mem _ h), ?_⟩
            refine List.forall_mem_cons.mpr ⟨fun _ heq => ?_, hleast⟩
            rw [← heq] at hnew
            exact absurd List.mem_cons_self hnew
        · intro ⟨hmem, hkept⟩
          rcases List.mem_cons.mp hmem with rfl | hmem
          · exact List.mem_cons_self
          · refine List.mem_cons_of_mem _ ((ih hrest).mpr ⟨hmem, fun hg => ?_⟩)
            obtain ⟨hnew, hleast⟩ := hkept hg
            obtain ⟨hle, hleast⟩ := List.forall_mem_cons.mp hleast
            refine ⟨fun h => ?_, hleast⟩
            rcases List.mem_cons.mp h with heq | h
            · exact (hle hreal heq.symm).not_gt (hfirst g hmem)
            · exact hnew h
    · rw [if_pos (isSynthetic_safeEmail.mpr hreal)]
      rw [List.mem_cons, List.mem_cons, ih hrest]
      constructor
      · rintro (rfl | ⟨hmem, hkept⟩)
        · exact ⟨.inl rfl, fun hg => absurd hg hreal⟩
        · refine ⟨.inr hmem, fun hg => ⟨(hkept hg).1, ?_⟩⟩
          exact List.forall_mem_cons.mpr ⟨fun h => absurd h hreal, (hkept hg).2⟩
      · rintro ⟨rfl | hmem, hkept⟩
        · exact .inl rfl
        · refine .inr ⟨hmem, fun hg => ⟨(hkept hg).1, ?_⟩⟩
          exact (List.forall_mem_cons.mp (hkept hg).2).2

/-- Guests without a real address all stay, and of those with the same the first by id. -/
theorem mem_dedupeGuestsByEmail (h : (guests.map (·.externalId)).Nodup) {g : GuestRecord} :
    g ∈ (dedupeGuestsByEmail guests).1 ↔ g ∈ guests ∧ (HasRealAddress g →
      ∀ g' ∈ guests, HasRealAddress g' → address g' = address g →
        g.externalId ≤ g'.externalId) := by
  rw [dedupeGuestsByEmail, mem_dropSeenEmails (Sorting.pairwise_lt h)]
  simp [List.mem_insertionSort]

end Dedupe

namespace Demo

def guestWith (id : String) (email : Option String) : GuestRecord :=
  ⟨id, "Ana", "Reis", email, none, none, none, false⟩

/-- The first two have one address, the last has none. -/
def twinGuests : List GuestRecord :=
  [guestWith "2" (some "ana@x.org"), guestWith "1" (some "ana@x.org"), guestWith "3" none]

end Demo

end OpenPms.Migration
