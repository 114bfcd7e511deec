import OpenPms.MigrationOverlaps
import OpenPms.PrenoAdapter

/-!
The type of a room and the type of a booking whose rows have the same label. They are the
same if the label is neither cut nor an alias. What the rooms stage makes of a room depends
on the type alone: it sends the room with the id of its type, or reports that there is none.
-/
namespace OpenPms.Migration

open Transaction Prog MigrationPipeline

deriving instance DecidableEq for BookingGuestSnapshot, BookingRecord, RoomRecord

/-! Labels -/

theorem mem_dropWhile {α : Type} {p : α → Bool} {x : α} {items : List α} (h : p x = false) :
    x ∈ items.dropWhile p ↔ x ∈ items := by
  induction items with
  | nil => simp
  | cons y rest ih =>
    rw [List.dropWhile_cons]
    split
    · next hy =>
      have hne : x ≠ y := fun heq => by simp [← heq, h] at hy
      rw [ih, List.mem_cons, or_iff_right hne]
    · rfl

theorem mem_strip {c : Char} {s : String} (h : Text.isSpace c = false) :
    c ∈ (Text.strip s).toList ↔ c ∈ s.toList := by
  rw [Text.strip, String.toList_ofList, List.mem_reverse, mem_dropWhile h, List.mem_reverse,
    mem_dropWhile h]

theorem lowerChar_eq_comma {c : Char} : Text.lowerChar c = ',' ↔ c = ',' := by
  have hcode {c : Char} : c = ',' ↔ c.toNat = 44 := (Char.toNat_inj (d := ',')).symm
  rw [hcode, hcode, Text.lowerChar]
  split
  · next hkelvin => simp [hkelvin]
  · rw [toNat_toLower]
    split
    · omega
    · rfl

theorem comma_mem_nameKey {s : String} : ',' ∈ (nameKey s).toList ↔ ',' ∈ s.toList := by
  simp [nameKey, Text.lower, lowerChar_eq_comma, mem_strip (by decide : Text.isSpace ',' = false)]

/-- The key of a label after the aliases. -/
def aliasedKey (key : String) : String :=
  if key = "garden bungalow" then "garden"
  else if key = "beachfront bungalow" then "bungalow"
  else key

theorem nameKey_normalize (name : String) :
    nameKey (normalizeRoomTypeName name) = aliasedKey (nameKey name) := by
  unfold aliasedKey normalizeRoomTypeName
  by_cases hgarden : nameKey name = "garden bungalow"
  · have hname : roomTypeAliases.lookup "garden bungalow" = some "Garden" := by decide
    rw [if_pos hgarden, hgarden, hname, Option.getD_some]
    decide
  · by_cases hbeach : nameKey name = "beachfront bungalow"
    · have hname : roomTypeAliases.lookup "beachfront bungalow" = some "Bungalow" := by decide
      rw [if_neg hgarden, if_pos hbeach, hbeach, hname, Option.getD_some]
      decide
    · have hnone : roomTypeAliases.lookup (nameKey name) = none := by
        simp [roomTypeAliases, List.lookup_cons, beq_false_of_ne hgarden, beq_false_of_ne hbeach]
      rw [if_neg hgarden, if_neg hbeach, hnone, Option.getD_none, nameKey, strip_strip, nameKey]

theorem comma_not_mem_aliasedKey {key : String} (h : ',' ∉ key.toList) :
    ',' ∉ (aliasedKey key).toList := by
  unfold aliasedKey
  split
  · decide
  · split
    · decide
    · exact h

/-- The label has one part, which stands for itself. -/
def PlainLabel (label : String) : Prop :=
  ',' ∉ label.toList ∧ nameKey label ≠ "garden bungalow" ∧ nameKey label ≠ "beachfront bungalow"

instance (label : String) : Decidable (PlainLabel label) := inferInstanceAs (Decidable (_ ∧ _))

theorem aliasedKey_eq_self {key : String} :
    aliasedKey key = key ↔ key ≠ "garden bungalow" ∧ key ≠ "beachfront bungalow" := by
  unfold aliasedKey
  split
  · next hgarden => simp [hgarden]
  · next hgarden =>
    split
    · next hbeach => simp [hbeach]
    · next hbeach => simp [hgarden, hbeach]

theorem firstPart_eq_self {label : String} (h : ',' ∉ label.toList) : firstPart label = label := by
  have hall : label.toList.takeWhile (· ≠ ',') = label.toList :=
    List.takeWhile_eq_self_iff.mpr fun c hc => by
      simpa using fun heq : c = ',' => h (heq ▸ hc)
  rw [firstPart, hall, String.ofList_toList]

/-- The type of a booking has the key of its label when the label is plain, and only then. -/
theorem nameKey_firstPart {label : String} :
    nameKey (normalizeRoomTypeName (firstPart label)) = nameKey label ↔ PlainLabel label := by
  rw [nameKey_normalize]
  by_cases hcomma : ',' ∈ label.toList
  · have hpart : ',' ∉ (nameKey (firstPart label)).toList := by
      rw [comma_mem_nameKey, firstPart, String.toList_ofList]
      intro hmem
      have hne := List.mem_takeWhile_imp hmem
      simp at hne
    refine ⟨fun heq => ?_, fun hplain => absurd hcomma hplain.1⟩
    have hkey : ',' ∈ (nameKey label).toList := comma_mem_nameKey.mpr hcomma
    rw [← heq] at hkey
    exact absurd hkey (comma_not_mem_aliasedKey hpart)
  · rw [firstPart_eq_self hcomma, aliasedKey_eq_self]
    exact ⟨fun h => ⟨hcomma, h⟩, fun h => h.2⟩

/-! Types -/

theorem mem_of_idsByName {rows : List NamedRow} {key : String} {id : UUID}
    (h : idsByName rows key = some id) : ∃ r ∈ rows, nameKey r.name = key ∧ r.id = id := by
  obtain ⟨r, hr, hid⟩ := Option.map_eq_some_iff.mp h
  have hkey : nameKey r.name = key := by simpa using List.find?_some hr
  exact ⟨r, by simpa using List.mem_of_find?_eq_some hr, hkey, hid⟩

/-- A type is listed under one name. -/
theorem key_eq_of_idsByName {rows : List NamedRow} (hids : (rows.map (·.id)).Nodup)
    {key key' : String} {id : UUID} (h : idsByName rows key = some id)
    (h' : idsByName rows key' = some id) : key = key' := by
  obtain ⟨r, hr, hkey, hid⟩ := mem_of_idsByName h
  obtain ⟨r', hr', hkey', hid'⟩ := mem_of_idsByName h'
  have heq : r = r' := List.inj_on_of_nodup_map hids hr hr' (hid.trans hid'.symm)
  rw [← hkey, ← hkey', heq]

theorem roomTypeName_of_extractRoom {row : PrenoRoom} {r : RoomRecord}
    (h : PrenoAdapter.extractRoom row = some r) : nameKey r.roomTypeName = nameKey row.roomType := by
  unfold PrenoAdapter.extractRoom at h
  simp only at h
  split at h
  · cases h
    rw [nameKey, strip_strip, nameKey]
  · cases h

/-- A room and a booking of one label. -/
structure SameLabel (a : PrenoAdapter) (b : BookingRecord) (r : RoomRecord) (label : String) :
    Prop where
  booking : ∃ row ∈ PrenoAdapter.dropDuplicates [] a.bookings,
    a.extractBooking row = some b ∧ row.roomTypes = label
  room : ∃ row ∈ a.rooms, PrenoAdapter.extractRoom row = some r ∧
    nameKey row.roomType = nameKey label

/-- The keys under which the stages look the types up. -/
theorem SameLabel.keys {a : PrenoAdapter} {b : BookingRecord} {r : RoomRecord} {label : String}
    (h : SameLabel a b r label) :
    nameKey r.roomTypeName = nameKey label ∧
      (nameKey b.roomTypeName = nameKey r.roomTypeName ↔ PlainLabel label) := by
  obtain ⟨row, -, hb, rfl⟩ := h.booking
  obtain ⟨room, -, hr, hlabel⟩ := h.room
  have hroom : nameKey r.roomTypeName = nameKey row.roomTypes :=
    (roomTypeName_of_extractRoom hr).trans hlabel
  refine ⟨hroom, ?_⟩
  rw [hroom, (a.of_extractBooking hb).2.1]
  exact nameKey_firstPart

/-! The rooms stage -/

section Stage
variable {σ : Type}

/-- `forEach` over programs that return, each of which attains what later ones keep. -/
theorem forEach_attains {α : Type} {f : α → Cli σ Unit} {R : World σ → World σ → Prop}
    {G : α → World σ → Prop} (hrefl : ∀ w, R w w)
    (htrans : ∀ w₁ w₂ w₃, R w₁ w₂ → R w₂ w₃ → R w₁ w₃)
    (hkeep : ∀ x w w', R w w' → G x w → G x w') {xs : List α}
    (hf : ∀ x ∈ xs, ∀ w, ∃ w', (f x).exec w = (.ok (), w') ∧ R w w' ∧ G x w') (w : World σ) :
    ∃ w', (forEach xs f).exec w = (.ok (), w') ∧ R w w' ∧ ∀ x ∈ xs, G x w' := by
  induction xs generalizing w with
  | nil => exact ⟨w, rfl, hrefl w, by simp⟩
  | cons x rest ih =>
    obtain ⟨w₁, hfirst, hR, hG⟩ := hf x List.mem_cons_self w
    obtain ⟨w₂, hrest, hR', hG'⟩ := ih (fun y hy => hf y (List.mem_cons_of_mem _ hy)) w₁
    refine ⟨w₂, exec_bind_ok.mpr ⟨(), w₁, hfirst, hrest⟩, htrans w w₁ w₂ hR hR', ?_⟩
    exact List.forall_mem_cons.mpr ⟨hkeep x w₁ w₂ hR' hG, hG'⟩

/-- What the rooms stage adds to the log and the errors: no key that is listed is reported
as missing. -/
structure RoomsStep (ids : String → Option UUID) (w w' : World σ) : Prop where
  log : w.log <:+ w'.log
  errors : w.report.errors <+: w'.report.errors
  missing : ∀ ref key, ⟨"room", ref, .roomTypeNotFound key⟩ ∈ w'.report.errors →
    ⟨"room", ref, .roomTypeNotFound key⟩ ∈ w.report.errors ∨ ids key = none

variable {ids : String → Option UUID}

theorem RoomsStep.refl (w : World σ) : RoomsStep ids w w :=
  ⟨List.suffix_refl _, List.prefix_refl _, fun _ _ => .inl⟩

theorem RoomsStep.trans (w₁ w₂ w₃ : World σ) (h : RoomsStep ids w₁ w₂) (h' : RoomsStep ids w₂ w₃) :
    RoomsStep ids w₁ w₃ where
  log := h.log.trans h'.log
  errors := h.errors.trans h'.errors
  missing ref key hmem := (h'.missing ref key hmem).elim (h.missing ref key) .inr

theorem roomsStep_count (ids : String → Option UUID) (g : Stage) (f : StageStats → StageStats)
    (w : World σ) : ∃ w', (count g f).exec w = (.ok (), w') ∧ RoomsStep ids w w' :=
  ⟨_, rfl, List.suffix_refl _, List.prefix_refl _, fun _ _ => .inl⟩

theorem roomsStep_fault (g : Stage) (n : ℕ) (entity ref : String) (message : Message)
    (hmessage : ∀ key, message = .roomTypeNotFound key → ids key = none) (w : World σ) :
    ∃ w', (fault g n entity ref message).exec w = (.ok (), w') ∧ RoomsStep ids w w' ∧
      ⟨entity, ref, message⟩ ∈ w'.report.errors := by
  refine ⟨_, rfl, ⟨List.suffix_refl _, List.prefix_append _ _, fun ref' key hmem => ?_⟩,
    List.mem_append_right _ List.mem_cons_self⟩
  rcases List.mem_append.mp hmem with hold | hnew
  · exact .inl hold
  · obtain ⟨-, -, heq⟩ := ReportError.mk.inj (List.mem_singleton.mp hnew)
    exact .inr (hmessage key heq.symm)

variable (p : MigrationPipeline σ)

/-- The item is in a request to create rooms of the type. -/
def Requested (rt : UUID) (item : RoomItem) (w : World σ) : Prop :=
  ∃ chunk status, ⟨.bulkCreateRooms rt chunk, status⟩ ∈ w.log ∧ item ∈ chunk

theorem Requested.keep {rt : UUID} {item : RoomItem} {w w' : World σ} (hstep : RoomsStep ids w w')
    (h : Requested rt item w) : Requested rt item w' := by
  obtain ⟨chunk, status, hlog, hitem⟩ := h
  exact ⟨chunk, status, hstep.log.subset hlog, hitem⟩

/-- A call whose errors are handled is followed by what is done with its answer, or by the
handler. -/
theorem exec_handled_call (api : Api σ) (q : Request) {next : Answer q → Cli σ Unit}
    {handler : Exn → Cli σ Unit} {R : World σ → World σ → Prop}
    (hnext : ∀ a w, ∃ w', (next a).exec w = (.ok (), w') ∧ R w w')
    (hhandler : ∀ e w, ∃ w', (handler e).exec w = (.ok (), w') ∧ R w w') (w : World σ) :
    ∃ w₁ w', ((call api q >>= next).tryCatch handler).exec w = (.ok (), w') ∧
      Sends q w w₁ ∧ R w₁ w' := by
  have hsends := sends_call api q w
  rw [exec_tryCatch, exec_bind]
  rcases hcall : (call api q).exec w with ⟨e | answer, w₁⟩ <;> rw [hcall] at hsends
  · obtain ⟨w', hexec, hR⟩ := hhandler e w₁
    exact ⟨w₁, w', hexec, hsends, hR⟩
  · obtain ⟨w', hexec, hR⟩ := hnext answer w₁
    exact ⟨w₁, w', by simp only [hexec], hsends, hR⟩

theorem MigrationPipeline.bulkRooms_requests (ids : String → Option UUID) (rt : UUID)
    (chunk : List RoomItem) (w : World σ) :
    ∃ w', (p.bulkRooms rt chunk).exec w = (.ok (), w') ∧ RoomsStep ids w w' ∧
      ∀ item ∈ chunk, Requested rt item w' := by
  have hnext := fun answer : ℕ × ℕ => roomsStep_count (σ := σ) ids .rooms fun s => { s with
    created := s.created + answer.1, skipped := s.skipped + answer.2 }
  have hhandler : ∀ (e : Exn) (w : World σ), ∃ w',
      (fault .rooms chunk.length "room_bulk" (toString rt) (.exception e)).exec w = (.ok (), w') ∧
        RoomsStep ids w w' := by
    intro e w
    obtain ⟨w', hexec, hstep, -⟩ := roomsStep_fault .rooms chunk.length "room_bulk" (toString rt)
      (.exception e) (fun _ h => by cases h) w
    exact ⟨w', hexec, hstep⟩
  obtain ⟨w₁, w', hexec, hsends, hstep⟩ :=
    exec_handled_call p.client (.bulkCreateRooms rt chunk) hnext hhandler w
  have hcall : RoomsStep ids w w₁ :=
    ⟨hsends.log, hsends.report ▸ List.prefix_refl _, fun _ _ h => .inl (hsends.report ▸ h)⟩
  refine ⟨w', hexec, hcall.trans _ _ _ hstep, fun item hitem => ?_⟩
  obtain ⟨status, hsent⟩ := hsends.sent
  exact Requested.keep hstep ⟨chunk, status, hsent, hitem⟩

theorem mem_slices {α : Type} {n : ℕ} (hn : 0 < n) {items : List α} {x : α} (hx : x ∈ items) :
    ∃ chunk ∈ slices n items, x ∈ chunk := by
  obtain ⟨i, hi, rfl⟩ := List.getElem_of_mem hx
  have hsum : n * (i / n) + i % n = i := Nat.div_add_mod i n
  have hlt : i / n < (items.length + n - 1) / n := by
    have hnext : (i + n) / n = i / n + 1 := Nat.add_div_right i hn
    have hle : (i + n) / n ≤ (items.length + n - 1) / n := Nat.div_le_div_right (by omega)
    omega
  refine ⟨(items.drop (n * (i / n))).take n,
    List.mem_map.mpr ⟨i / n, List.mem_range.mpr hlt, rfl⟩, ?_⟩
  refine List.mem_iff_getElem?.mpr ⟨i % n, ?_⟩
  rw [List.getElem?_take, if_pos (Nat.mod_lt i hn), List.getElem?_drop, hsum]
  exact List.getElem?_eq_getElem hi

theorem MigrationPipeline.bulkRoomsOfType_requests (ids : String → Option UUID) (rt : UUID)
    (items : List RoomItem) (w : World σ) :
    ∃ w', (p.bulkRoomsOfType rt items).exec w = (.ok (), w') ∧ RoomsStep ids w w' ∧
      ∀ item ∈ items, Requested rt item w' := by
  obtain ⟨w₁, hcount, hstep₁⟩ := roomsStep_count ids .rooms
    (fun s => { s with total := s.total + items.length }) w
  obtain ⟨w', hexec, hstep, hsent⟩ : ∃ w', (forEach (slices 200 items) (p.bulkRooms rt)).exec w₁ =
      (.ok (), w') ∧ RoomsStep ids w₁ w' ∧
      ∀ chunk ∈ slices 200 items, ∀ item ∈ chunk, Requested rt item w' :=
    forEach_attains RoomsStep.refl RoomsStep.trans
      (fun _ _ _ hstep h item hitem => Requested.keep hstep (h item hitem))
      (fun chunk _ w => p.bulkRooms_requests ids rt chunk w) w₁
  refine ⟨w', exec_bind_ok.mpr ⟨(), w₁, hcount, hexec⟩, hstep₁.trans _ _ _ hstep,
    fun item hitem => ?_⟩
  obtain ⟨chunk, hchunk, hmem⟩ := mem_slices (by decide : 0 < 200) hitem
  exact hsent chunk hchunk item hmem

/-- What becomes of a room: it is sent with the id of its type, or reported. -/
def Handled (ids : String → Option UUID) (r : RoomRecord) (w : World σ) : Prop :=
  match ids (nameKey r.roomTypeName) with
  | some rt => Requested rt ⟨r.name, r.status⟩ w
  | none => ⟨"room", r.name, .roomTypeNotFound (nameKey r.roomTypeName)⟩ ∈ w.report.errors

theorem Handled.keep {r : RoomRecord} {w w' : World σ} (hstep : RoomsStep ids w w')
    (h : Handled ids r w) : Handled ids r w' := by
  unfold Handled at h ⊢
  split
  · next hid =>
    rw [hid] at h
    exact Requested.keep hstep h
  · next hid =>
    rw [hid] at h
    exact hstep.errors.subset h

theorem MigrationPipeline.sourceRooms_handles {group : String × List RoomRecord}
    (hkeys : ∀ r ∈ group.2, nameKey r.roomTypeName = group.1) (w : World σ) :
    ∃ w', (p.sourceRooms ids group).exec w = (.ok (), w') ∧ RoomsStep ids w w' ∧
      ∀ r ∈ group.2, Handled ids r w' := by
  have hhandled (r : RoomRecord) (hr : r ∈ group.2) (w : World σ) : Handled ids r w =
      match ids group.1 with
      | some rt => Requested rt ⟨r.name, r.status⟩ w
      | none => ⟨"room", r.name, .roomTypeNotFound group.1⟩ ∈ w.report.errors := by
    unfold Handled
    rw [hkeys r hr]
  unfold sourceRooms
  cases hid : ids group.1 with
  | none =>
    simp only
    have hone : ∀ r ∈ group.2, ∀ w : World σ, ∃ w',
        (fault .rooms 1 "room" r.name (.roomTypeNotFound group.1)).exec w = (.ok (), w') ∧
          RoomsStep ids w w' ∧ Handled ids r w' := by
      intro r hr w
      obtain ⟨w', hexec, hstep, hreported⟩ := roomsStep_fault .rooms 1 "room" r.name
        (.roomTypeNotFound group.1) (fun key heq => Message.roomTypeNotFound.inj heq ▸ hid) w
      refine ⟨w', hexec, hstep, ?_⟩
      rw [hhandled r hr, hid]
      exact hreported
    exact forEach_attains (G := Handled ids) RoomsStep.refl RoomsStep.trans
      (fun _ _ _ => Handled.keep) hone w
  | some rt =>
    obtain ⟨w', hexec, hstep, hsent⟩ := p.bulkRoomsOfType_requests ids rt
      (group.2.map fun r => ⟨r.name, r.status⟩) w
    refine ⟨w', hexec, hstep, fun r hr => ?_⟩
    rw [hhandled r hr, hid]
    exact hsent ⟨r.name, r.status⟩ (List.mem_map.mpr ⟨r, hr, rfl⟩)

/-- The stage sends every room of the source under its type, or reports it. -/
theorem stageRooms_handles (hrooms : p.adapter.extractRooms ≠ []) {w w₁ : World σ}
    (hids : p.roomTypeMap.exec ((setStats .rooms {}).exec w).2 = (.ok ids, w₁)) :
    ∃ w', p.stageRooms.exec w = (.ok (), w') ∧ RoomsStep ids w₁ w' ∧
      ∀ r ∈ p.adapter.extractRooms, Handled ids r w' := by
  let groups := groupBy (fun r => nameKey r.roomTypeName) p.adapter.extractRooms
  have hkeys : ∀ group ∈ groups, ∀ r ∈ group.2, nameKey r.roomTypeName = group.1 := by
    intro group hgroup r hr
    obtain ⟨-, hfilter⟩ := mem_groupBy.mp hgroup
    rw [hfilter] at hr
    simpa using (List.mem_filter.mp hr).2
  obtain ⟨w', hexec, hstep, hall⟩ : ∃ w', (forEach groups (p.sourceRooms ids)).exec w₁ =
      (.ok (), w') ∧ RoomsStep ids w₁ w' ∧
      ∀ group ∈ groups, ∀ r ∈ group.2, Handled ids r w' :=
    forEach_attains RoomsStep.refl RoomsStep.trans
      (fun _ _ _ hstep h r hr => Handled.keep hstep (h r hr))
      (fun group hgroup w => p.sourceRooms_handles (hkeys group hgroup) w) w₁
  refine ⟨w', ?_, hstep, fun r hr => ?_⟩
  · refine exec_bind_ok.mpr ⟨(), _, rfl, exec_bind_ok.mpr ⟨ids, w₁, hids, ?_⟩⟩
    rw [if_pos hrooms]
    exact hexec
  · refine hall (nameKey r.roomTypeName, _) (mem_groupBy.mpr ⟨⟨r, hr, rfl⟩, rfl⟩) r ?_
    exact List.mem_filter.mpr ⟨hr, by simp⟩

end Stage

namespace Demo

def prenoBooking (id label : String) : PrenoBooking :=
  ⟨id, "2025-01-01", "2025-01-03", label, "Standard", some "Ana", some "Reis", none, none⟩

/-- One booking and one room with the label. -/
def prenoFiles (label : String) : PrenoAdapter where
  toDatetime text := if text = "2025-01-01" then some 739252 else some 739254
  includeCancelled := false
  bookings := [prenoBooking "A1" label]
  rooms := [⟨"101", label⟩]

def prenoRecord (typeName : String) : BookingRecord :=
  ⟨"A1", 739252, 739254, typeName, "Standard",
    ⟨"Ana", "Reis", "noemail-A1@migrate.openpms.local", "+10000000000"⟩, .confirmed, "direct"⟩

theorem sameLabel_garden : SameLabel (prenoFiles "Garden Bungalow") (prenoRecord "Garden")
    ⟨"Garden Bungalow", "101", "available"⟩ "Garden Bungalow" where
  booking := ⟨_, List.mem_cons_self, by decide, rfl⟩
  room := ⟨_, List.mem_cons_self, by decide, rfl⟩

theorem sameLabel_cabin : SameLabel (prenoFiles "Cabin") (prenoRecord "Cabin")
    ⟨"Cabin", "101", "available"⟩ "Cabin" where
  booking := ⟨_, List.mem_cons_self, by decide, rfl⟩
  room := ⟨_, List.mem_cons_self, by decide, rfl⟩

/-- A server with one room type, which takes every room. -/
def cabinServer : Api Unit
  | .listRoomTypes _, s => (.response 200 "" (some [⟨7, "Cabin"⟩]), s)
  | .bulkCreateRooms _ rooms, s => (.response 200 "" (some (rooms.length, 0)), s)
  | _, s => (.transportError, s)

def cabinFiles : SourceAdapter where
  validate := ⟨true, []⟩
  extractGuests := []
  extractRoomTypes := (prenoFiles "Cabin").extractRoomTypes
  extractRooms := (prenoFiles "Cabin").extractRooms
  extractRatePlans := []
  extractBookings := [prenoRecord "Cabin"]

def cabinMigration : MigrationPipeline Unit where
  adapter := cabinFiles
  client := cabinServer
  propertyId := 1
  dryRun := false
  onConflict := .skip
  defaultNightRate := 100
  runId := none
  resume := false
  precheckBookings := false

end Demo

end OpenPms.Migration
