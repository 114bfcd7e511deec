import OpenPms.Runs
import OpenPms.Lib.Serial

/-!
Concurrent changes of the rooms and of the days of the ledger. Each of these requests
counts rooms with one statement and writes the count with a later one, over the rows that
this one sees. A commit that finds the rooms and the days as the request has read them
leaves every total equal to the number of rooms.
-/
namespace OpenPms

open KeyedTable Transaction Prog Interleaving Hotel

/-- A room that counts for the type. -/
def Db.HasRoom (db : Db) (rt : UUID) (r : Room) : Prop :=
  r ∈ db.rooms.rows ∧ r.roomTypeId = rt ∧ r.deleted = false

def SameRooms (rt : UUID) (s s' : Db) : Prop := ∀ r, s'.HasRoom rt r ↔ s.HasRoom rt r

/-- The type has ledger rows for the same days. -/
def SameDays (rt : UUID) (s s' : Db) : Prop :=
  ∀ d, (s'.ledger.row rt d).isSome = (s.ledger.row rt d).isSome

/-- What a request reads of rooms and days: the types that it counts, those of which it
reads the days, and rooms by their ids. -/
structure Footprint where
  types : Set UUID
  days : Set UUID
  rooms : Set UUID

/-- What a request has read in one state is still true in the other. -/
structure Settled (F : Footprint) (s s' : Db) : Prop where
  rows : ∀ rid ∈ F.rooms, s'.rooms.find rid = s.rooms.find rid
  rooms : ∀ rt ∈ F.types, SameRooms rt s s'
  days : ∀ rt ∈ F.days, SameDays rt s s'

/-- The clock, the room types and the bookings stay as they are. -/
structure OnlyRooms (s s' : Db) : Prop where
  today : s'.today = s.today
  roomTypes : s'.roomTypes = s.roomTypes
  bookings : s'.bookings = s.bookings

theorem onlyRooms_refl {s : Db} : OnlyRooms s s := ⟨rfl, rfl, rfl⟩

theorem OnlyRooms.trans {s s' s'' : Db} (h : OnlyRooms s s') (h' : OnlyRooms s' s'') :
    OnlyRooms s s'' :=
  ⟨h'.today.trans h.today, h'.roomTypes.trans h.roomTypes, h'.bookings.trans h.bookings⟩

def roomProtocol : Protocol Db RowKey where
  kept _ := OnlyRooms
  frame _ := OnlyRooms
  kept_refl _ _ := onlyRooms_refl
  kept_trans := OnlyRooms.trans
  kept_anti _ h := h
  frame_refl _ _ := onlyRooms_refl
  frame_trans := OnlyRooms.trans
  frame_mono _ h := h
  kept_of_frame _ h := h

variable {F : Footprint} {L : Set RowKey} {s s' : Db} {rt : UUID}

/-- A program all of whose reads the footprint covers. -/
abbrev Covered (F : Footprint) (L : Set RowKey) {α : Type} (p : Tx α) : Prop :=
  Orderly roomProtocol (Settled F) L p

/-! Reads -/

theorem SameRooms.count (h : SameRooms rt s s') :
    countRoomsForRoomType rt s' = countRoomsForRoomType rt s := by
  have hmem : ∀ {db : Db} {r : Room}, r ∈ (db.rooms.rows.filter fun r =>
      r.roomTypeId = rt && !r.deleted) ↔ db.HasRoom rt r := by
    intro db r
    simp [Db.HasRoom]
  have hnodup : ∀ db : Db, (db.rooms.rows.filter fun r =>
      r.roomTypeId = rt && !r.deleted).Nodup := by
    intro db
    exact (List.Nodup.of_map _ db.rooms.nodup).filter _
  unfold countRoomsForRoomType
  apply List.Perm.length_eq
  rw [List.perm_ext_iff_of_nodup (hnodup s') (hnodup s)]
  intro r
  rw [hmem, hmem]
  exact h r

theorem covered_count (hrt : rt ∈ F.types) {α : Type} {f : ℕ → Tx α}
    (hf : ∀ n, Covered F L (f n)) :
    Covered F L (select (countRoomsForRoomType rt) >>= f) :=
  orderly_select_bind (fun _ _ h => by rw [(h.1.rooms rt hrt).count]) hf

theorem covered_requireRoomType : Covered F L (requireRoomType rt) :=
  orderly_bind (orderly_select fun _ _ h => by rw [h.2.roomTypes]) fun _ => orderly_raiseIf _

theorem covered_roomStatus {status : String} : Covered F L (roomStatus status) :=
  orderly_bind (orderly_raiseIf _) fun _ => orderly_pure _

/-! Writes of rooms -/

theorem hasRoom_insert {r v : Room} {db : Db} :
    ({ db with rooms := db.rooms.insert r } : Db).HasRoom rt v ↔
      db.HasRoom rt v ∨ db.rooms.find r.id = none ∧ v = r ∧ r.roomTypeId = rt ∧
        r.deleted = false := by
  unfold Db.HasRoom
  rw [Table.mem_insert_iff]
  constructor
  · rintro ⟨hold | ⟨hnone, rfl⟩, hlive⟩
    · exact .inl ⟨hold, hlive⟩
    · exact .inr ⟨hnone, rfl, hlive⟩
  · rintro (⟨hold, hlive⟩ | ⟨hnone, rfl, hlive⟩)
    · exact ⟨.inl hold, hlive⟩
    · exact ⟨.inr ⟨hnone, rfl⟩, hlive⟩

theorem covered_flushRoom {r : Room} (hr : r.id ∈ F.rooms) : Covered F L (flushRoom r) := by
  refine orderly_bind (orderly_select fun s s' h => (h.1.rows r.id hr).symm) fun _ =>
    orderly_bind (orderly_raiseIf _) fun _ => orderly_modify ?_ fun s => ⟨rfl, rfl, rfl⟩
  rintro K s s' ⟨⟨hrows, hrooms, hdays⟩, htoday, htypes, hbookings⟩
  refine ⟨⟨?_, ?_, hdays⟩, htoday, htypes, hbookings⟩
  · intro rid hrid
    exact Table.find_insert_congr (hrows r.id hr) (hrows rid hrid)
  · intro rt hrt v
    rw [hasRoom_insert, hasRoom_insert, hrooms rt hrt v, hrows r.id hr]

theorem hasRoom_update {rid : UUID} {f : Room → Room} {hf : ∀ r, (f r).id = r.id} {v : Room}
    {db : Db} : ({ db with rooms := db.rooms.update rid f hf } : Db).HasRoom rt v ↔
      db.HasRoom rt v ∧ v.id ≠ rid ∨ ∃ u, db.rooms.find rid = some u ∧ v = f u ∧
        (f u).roomTypeId = rt ∧ (f u).deleted = false := by
  unfold Db.HasRoom
  rw [Table.mem_update]
  constructor
  · rintro ⟨⟨hold, hne⟩ | ⟨u, hu, rfl⟩, hlive⟩
    · exact .inl ⟨⟨hold, hlive⟩, hne⟩
    · exact .inr ⟨u, hu, rfl, hlive⟩
  · rintro (⟨⟨hold, hlive⟩, hne⟩ | ⟨u, hu, rfl, hlive⟩)
    · exact ⟨.inl ⟨hold, hne⟩, hlive⟩
    · exact ⟨.inr ⟨u, hu, rfl⟩, hlive⟩

theorem covered_updateRoom {rid : UUID} {f : Room → Room} {hf : ∀ r, (f r).id = r.id}
    (hrid : rid ∈ F.rooms) : Covered F L (updateRoom rid f hf) := by
  refine orderly_modify ?_ fun s => ⟨rfl, rfl, rfl⟩
  rintro K s s' ⟨⟨hrows, hrooms, hdays⟩, htoday, htypes, hbookings⟩
  refine ⟨⟨?_, ?_, hdays⟩, htoday, htypes, hbookings⟩
  · intro k hk
    change (s'.rooms.update rid f hf).find k = (s.rooms.update rid f hf).find k
    by_cases hkr : k = rid
    · subst hkr
      rw [Table.find_update_self, Table.find_update_self, hrows k hk]
    · rw [Table.find_update_of_ne hkr, Table.find_update_of_ne hkr, hrows k hk]
  · intro rt hrt v
    rw [hasRoom_update, hasRoom_update, hrooms rt hrt v, hrows rid hrid]

/-! Writes of the ledger -/

/-- A write of ledger rows that leaves equal days equal. -/
theorem covered_setLedger (g : Ledger → Ledger)
    (hg : ∀ rt l l', (∀ d, (l'.row rt d).isSome = (l.row rt d).isSome) →
      ∀ d, ((g l').row rt d).isSome = ((g l).row rt d).isSome) :
    Covered F L (modify fun db => { db with ledger := g db.ledger }) := by
  refine orderly_modify ?_ fun s => ⟨rfl, rfl, rfl⟩
  rintro K s s' ⟨⟨hrows, hrooms, hdays⟩, htoday, htypes, hbookings⟩
  exact ⟨⟨hrows, hrooms, fun rt hrt => hg rt s.ledger s'.ledger (hdays rt hrt)⟩, htoday, htypes,
    hbookings⟩

theorem covered_setTotal {seen : Ledger} {start total : ℤ} :
    Covered F L (modify fun db => { db with ledger := db.ledger.setTotalOf seen rt start total }) := by
  refine covered_setLedger (fun l => l.setTotalOf seen rt start total) fun r l l' h d => ?_
  simp only [Ledger.setTotalOf, Ledger.adjust_row, Option.isSome_map]
  exact h d

theorem upsert_isSome {l l' : Ledger} {days : List ℤ} {fresh : Counts} {refresh : Counts → Counts}
    {r : UUID} (h : ∀ d, (l'.row r d).isSome = (l.row r d).isSome) (d : ℤ) :
    ((l'.upsert rt days fresh refresh).row r d).isSome =
      ((l.upsert rt days fresh refresh).row r d).isSome := by
  rw [Ledger.upsert_row, Ledger.upsert_row]
  split
  · rfl
  · exact h d

theorem covered_upsert {days : List ℤ} {fresh : Counts} {refresh : Counts → Counts} :
    Covered F L (modify fun db => { db with ledger := db.ledger.upsert rt days fresh refresh }) :=
  covered_setLedger (fun l => l.upsert rt days fresh refresh) fun _ _ _ h => upsert_isSome h

/-- Only the days of the rows that the UPDATE has seen matter. -/
theorem setTotalOf_congr {l seen seen' : Ledger} {start total : ℤ}
    (h : ∀ d, (seen'.row rt d).isSome = (seen.row rt d).isSome) :
    l.setTotalOf seen' rt start total = l.setTotalOf seen rt start total := by
  apply Ledger.ext_row
  intro r d
  simp only [Ledger.setTotalOf, Ledger.adjust_row]
  congr 1
  funext c
  by_cases hr : r = rt
  · subst hr
    rw [h d]
  · simp [hr]

/-- The recount of a type whose rooms and days are read. -/
theorem covered_recalculate (htypes : rt ∈ F.types) (hdays : rt ∈ F.days) {from' : Option ℤ} :
    Covered F L (recalculateLedgerTotalRooms rt from') := by
  refine orderly_bind (orderly_select fun _ _ h => by rw [h.2.today]) fun start =>
    covered_count htypes fun total => orderly_select_bind (fun s s' h => ?_) fun seen =>
      covered_setTotal
  have hsame : ∀ d, (s'.ledger.row rt d).isSome = (s.ledger.row rt d).isSome :=
    h.1.days rt hdays
  congr 1
  funext db
  rw [setTotalOf_congr hsame]

/-! Seeding -/

theorem covered_seedRows {segments : List AvailabilityLedgerSeedSegment}
    (htypes : ∀ seg ∈ segments, seg.roomTypeId ∈ F.types) : Covered F L (seedRows segments) := by
  induction segments with
  | nil => exact orderly_pure _
  | cons seg rest ih =>
    refine orderly_bind (orderly_select fun _ _ h => by rw [h.2.roomTypes]) fun _ =>
      orderly_bind (orderly_raiseIf _) fun _ => ?_
    have hcount : Covered F L
        (select fun db => (countRoomsForRoomType seg.roomTypeId db : ℤ) : Tx ℤ) :=
      orderly_select fun _ _ h => by rw [(h.1.rooms _ (htypes seg (List.mem_cons_self ..))).count]
    refine orderly_bind hcount fun _ => orderly_bind (orderly_raiseIf _) fun _ =>
      orderly_bind (ih ?_) fun _ => orderly_pure _
    intro seg' hseg'
    exact htypes seg' (List.mem_cons_of_mem _ hseg')

/-- The rows of a request go to the ledger one after the other. -/
def Ledger.seedAll (l : Ledger) (rows : List SeedRow) : Ledger :=
  rows.foldl (fun l row => l.upsert row.roomTypeId [row.date] ⟨row.totalRooms, 0, 0⟩
    fun c => { c with totalRooms := row.totalRooms }) l

theorem upsertSeedRows_eq (rows : List SeedRow) (db : Db) :
    rows.foldl (fun db row => upsertSeedRow row db) db =
      { db with ledger := db.ledger.seedAll rows } := by
  induction rows generalizing db with
  | nil => rfl
  | cons row rest ih =>
    rw [List.foldl_cons, ih]
    rfl

theorem seedAll_isSome {rows : List SeedRow} {l l' : Ledger} {r : UUID}
    (h : ∀ d, (l'.row r d).isSome = (l.row r d).isSome) (d : ℤ) :
    ((l'.seedAll rows).row r d).isSome = ((l.seedAll rows).row r d).isSome := by
  induction rows generalizing l l' with
  | nil => exact h d
  | cons row rest ih => exact ih (upsert_isSome h)

theorem covered_bulkSeed {body : BulkAvailabilityLedgerSeedRequest}
    (htypes : ∀ seg ∈ body.segments, seg.roomTypeId ∈ F.types) :
    Covered F L (bulkSeedAvailabilityLedger body) := by
  refine orderly_bind (covered_seedRows htypes) fun rows => orderly_bind ?_ fun _ => orderly_pure _
  have hset := covered_setLedger (F := F) (L := L) (fun l => l.seedAll rows)
    fun _ _ _ h => seedAll_isSome h
  rw [funext (upsertSeedRows_eq rows)]
  exact hset

theorem covered_seedYearForward (hdays : rt ∈ F.days) {total : ℤ} {start : Option ℤ}
    {horizon : ℕ} :
    Covered F L (seedEmptyAvailabilityLedgerYearForward rt total start horizon) := by
  refine orderly_bind (orderly_select fun _ _ h => by rw [h.2.today]) fun start =>
    orderly_bind (orderly_raiseIf _) fun _ =>
    orderly_bind (orderly_select fun s s' h => ?_) fun _ =>
      orderly_bind (orderly_raiseIf _) fun _ => covered_upsert
  simp only [h.1.days rt hdays _]

theorem covered_extendRoomType (htypes : rt ∈ F.types) (hdays : rt ∈ F.days) {extra : ℕ} :
    Covered F L (extendRoomType rt extra) := by
  have hmax : Covered F L (select fun db => db.ledger.maxDate rt : Tx (Option ℤ)) :=
    orderly_select fun _ _ h => (Ledger.maxDate_eq (h.1.days rt hdays)).symm
  have hcount : Covered F L (select fun db => (countRoomsForRoomType rt db : ℤ) : Tx ℤ) :=
    orderly_select fun _ _ h => by rw [(h.1.rooms rt htypes).count]
  refine orderly_bind hmax fun maxDate => orderly_bind hcount fun total => ?_
  cases maxDate with
  | none => exact orderly_bind (covered_seedYearForward hdays) fun _ => orderly_pure _
  | some last =>
    refine orderly_bind (orderly_raiseIf _) fun _ => orderly_bind (orderly_select fun s s' h => ?_)
      fun _ => orderly_bind covered_upsert fun _ => orderly_pure _
    have hnone : ∀ d, (s'.ledger.row rt d = none ↔ s.ledger.row rt d = none) := by
      intro d
      have hsame := h.1.days rt hdays d
      rw [← Option.not_isSome_iff_eq_none, ← Option.not_isSome_iff_eq_none, hsame]
    simp only [hnone]

theorem covered_extendLedger (htypes : ∀ rt, rt ∈ F.types) (hdays : ∀ rt, rt ∈ F.days)
    {extra : ℤ} : Covered F L (extendAvailabilityLedgerDays extra) := by
  unfold extendAvailabilityLedgerDays
  split
  · exact orderly_pure _
  · refine orderly_bind (orderly_select fun _ _ h => by rw [h.2.roomTypes]) fun types => ?_
    induction types with
    | nil => exact orderly_pure _
    | cons t rest ih =>
      exact orderly_bind (covered_extendRoomType (htypes _) (hdays _)) fun _ =>
        orderly_bind ih fun _ => orderly_pure _

/-! New rooms -/

theorem covered_createRoom {env : Env} (htypes : rt ∈ F.types) (hdays : rt ∈ F.days)
    (hroom : env.roomId 0 ∈ F.rooms) {name status : String} :
    Covered F L (createRoom env rt name status) :=
  orderly_bind covered_roomStatus fun _ => orderly_bind covered_requireRoomType fun _ =>
    orderly_bind (covered_flushRoom hroom) fun _ =>
      orderly_bind (covered_recalculate htypes hdays) fun _ => orderly_pure _

theorem covered_checkBulkItems {seen : List String} {items : List RoomBulkCreateItem} :
    Covered F L (checkBulkItems seen items) := by
  induction items generalizing seen with
  | nil => exact orderly_pure _
  | cons item rest ih =>
    exact orderly_bind (orderly_raiseIf _) fun _ => orderly_bind covered_roomStatus fun _ => ih

/-- The plan asks only which names exist. -/
theorem planBulkRooms_congr {env : Env} {mode : OnConflict} {existing existing' : List String}
    {items : List RoomBulkCreateItem} (h : ∀ n, n ∈ existing ↔ n ∈ existing') :
    planBulkRooms env rt mode existing items = planBulkRooms env rt mode existing' items := by
  induction items generalizing existing existing' with
  | nil => rfl
  | cons item rest ih =>
    have hcons : ∀ n, n ∈ Text.strip item.name :: existing ↔
        n ∈ Text.strip item.name :: existing' := by
      intro n
      rw [List.mem_cons, List.mem_cons, h n]
    unfold planBulkRooms
    simp only [h (Text.strip item.name), ih h, ih hcons]

/-- The plan reads nothing, and the rooms of it have the ids that the batch draws. -/
theorem planBulkRooms_pure (env : Env) (rt : UUID) (mode : OnConflict) (existing : List String)
    (items : List RoomBulkCreateItem) :
    (∃ e, planBulkRooms env rt mode existing items = raise e) ∨
      ∃ r : List Room × List String, planBulkRooms env rt mode existing items = pure r ∧
        ∀ room ∈ r.1, room.id ∈ Set.range env.roomId := by
  induction items generalizing existing with
  | nil => exact .inr ⟨([], []), rfl, by simp⟩
  | cons item rest ih =>
    unfold planBulkRooms
    simp only
    split
    · unfold raiseIf
      split
      · exact .inl ⟨_, rfl⟩
      · rcases ih existing with ⟨e, he⟩ | ⟨r, hr, hall⟩
        · rw [he]
          exact .inl ⟨e, rfl⟩
        · rw [hr]
          exact .inr ⟨_, rfl, hall⟩
    · rcases ih (Text.strip item.name :: existing) with ⟨e, he⟩ | ⟨r, hr, hall⟩
      · rw [he]
        exact .inl ⟨e, rfl⟩
      · rw [hr]
        refine .inr ⟨_, rfl, ?_⟩
        intro room hroom
        rcases List.mem_cons.mp hroom with rfl | hold
        · exact Set.mem_range_self _
        · exact hall room hold

theorem covered_createRoomsBulk {env : Env} (htypes : rt ∈ F.types) (hdays : rt ∈ F.days)
    (hrooms : Set.range env.roomId ⊆ F.rooms) {items : List RoomBulkCreateItem}
    {mode : OnConflict} : Covered F L (createRoomsBulk env rt items mode) := by
  refine orderly_bind covered_requireRoomType fun _ =>
    orderly_bind covered_checkBulkItems fun _ =>
      orderly_select_bind (fun s s' h => ?_) fun existing => ?_
  · have hnames : ∀ n, n ∈ (s.rooms.rows.filter fun r => r.roomTypeId = rt && !r.deleted).map
        (·.name) ↔ n ∈ (s'.rooms.rows.filter fun r => r.roomTypeId = rt && !r.deleted).map
        (·.name) := by
      intro n
      have hsame := h.1.rooms rt htypes
      simp only [List.mem_map, List.mem_filter, Bool.and_eq_true, decide_eq_true_eq,
        Bool.not_eq_true']
      exact exists_congr fun r => and_congr_left' (hsame r).symm
    rw [planBulkRooms_congr hnames]
  · rcases planBulkRooms_pure env rt mode existing items with ⟨e, he⟩ | ⟨⟨created, skipped⟩, hr, hall⟩
    · rw [he]
      exact orderly_raise e
    · rw [hr, pure_bind]
      simp only
      split
      · exact orderly_pure _
      · refine orderly_bind (orderly_forEach fun room hroom => ?_) fun _ =>
          orderly_bind (covered_recalculate htypes hdays) fun _ => orderly_pure _
        exact covered_flushRoom (hrooms (hall room hroom))

/-! Moved and removed rooms -/

theorem covered_recalculateMove {oldType newType : UUID} (hold : oldType ∈ F.types)
    (hold' : oldType ∈ F.days) (hnew : newType ∈ F.types) (hnew' : newType ∈ F.days) :
    Covered F L (recalculateMove oldType newType) :=
  orderly_bind (covered_recalculate hold hold') fun _ => covered_recalculate hnew hnew'

theorem covered_patchedRoomStatus {old : String} {status : Option String} :
    Covered F L (patchedRoomStatus old status) := by
  cases status with
  | none => exact orderly_pure _
  | some s => exact covered_roomStatus

/-! Any number of requests at a time -/

namespace Op

/-- The six requests that count rooms. -/
def ManagesRooms : Op → Prop
  | createRoom _ _ _ _ => True
  | createRoomsBulk _ _ _ _ => True
  | patchRoom _ _ _ _ => True
  | softDeleteRoom _ => True
  | bulkSeed _ => True
  | extendLedger _ => True
  | _ => False

/-- The types of a room that a request changes to, if it changes it. -/
def recounted (newType : UUID → UUID) (room : Option Room) : Set UUID :=
  {rt | ∃ r ∈ room, newType r.roomTypeId ≠ r.roomTypeId ∧
    (rt = r.roomTypeId ∨ rt = newType r.roomTypeId)}

/-- What the request reads of rooms and days when its first statement sees `db`. -/
def footprint (db : Db) : Op → Footprint
  | createRoom env rt _ _ => ⟨{rt}, {rt}, {env.roomId 0}⟩
  | createRoomsBulk env rt _ _ => ⟨{rt}, {rt}, Set.range env.roomId⟩
  | patchRoom rid _ _ newType =>
    let types := recounted (newType.getD ·) (db.rooms.find rid)
    ⟨types, types, {rid}⟩
  | softDeleteRoom rid =>
    let types := {rt | ∃ r ∈ db.rooms.find rid, r.roomTypeId = rt}
    ⟨types, types, {rid}⟩
  | bulkSeed body => ⟨{rt | ∃ seg ∈ body.segments, seg.roomTypeId = rt}, ∅, ∅⟩
  | extendLedger _ => ⟨Set.univ, Set.univ, ∅⟩
  | _ => ⟨∅, ∅, ∅⟩

/-- The rooms and the days that the request has read are still the same. -/
def AsRead (op : Op) (reads : List Db) (db : Db) : Prop :=
  ∀ first ∈ reads.getLast?, ∀ t ∈ reads, Settled (op.footprint first) t db

end Op

section Counting
variable {ι : Type} {ops : ι → Op} {i : ι}

/-- The discipline of requests whose commits find what they have read. -/
def counting (ops : ι → Op) : Discipline Db RowKey ι where
  inv db := Counted db.hotel
  guar := roomProtocol.frame
  timing := ⟨fun _ _ _ => True, fun i o db => (ops i).AsRead o db⟩

/-- Alone every one of the six requests leaves the totals right. -/
theorem counted_exec {op : Op} {u : Unit} (hop : op.ManagesRooms) (hc : Counted s.hotel)
    (h : op.prog.exec s = (.ok u, s')) : Counted s'.hotel := by
  have hsupplies : Supplies s.hotel s'.hotel → Counted s'.hotel := fun hs =>
    steps_invariant Counted.step hc (Supplies.steps hs)
  cases op with
  | createRoom env rt name status =>
    obtain ⟨_, h⟩ := exec_discard h
    exact hsupplies (createRoom_supplies h)
  | createRoomsBulk env rt items onConflict =>
    obtain ⟨_, h⟩ := exec_discard h
    exact hsupplies (createRoomsBulk_supplies h)
  | patchRoom rid name status newType =>
    rcases patchRoom_refines h with hs | ⟨r, htook⟩
    · exact hsupplies hs
    · exact hc.take htook.take
  | softDeleteRoom rid =>
    obtain ⟨r, htook⟩ := softDeleteRoom_refines h
    exact hc.take htook.take
  | bulkSeed body =>
    obtain ⟨_, h⟩ := exec_discard h
    exact hsupplies (bulkSeed_supplies h)
  | extendLedger extra =>
    obtain ⟨_, h⟩ := exec_discard h
    exact hsupplies (extendLedger_supplies h)
  | _ => exact hop.elim

/-- A request with one footprint whatever it reads first. -/
theorem covered_disciplined {op : Op} {α : Type} {p : Tx α} (hop : ops i = op)
    (hmanages : op.ManagesRooms) (hcovered : Covered F ∅ p)
    (hprog : op.prog = p >>= fun _ => pure ()) (hfootprint : ∀ db, op.footprint db = F) :
    Disciplined (counting ops) i (ops i).prog := by
  have hall : Covered F ∅ op.prog := by
    rw [hprog]
    exact orderly_bind hcovered fun _ => orderly_pure ()
  rw [hop]
  refine hall.disciplined rfl ?_ ?_
  · intro o s _ _ htime t ht
    have hfirst : ∃ first, o.getLast? = some first :=
      ⟨_, List.getLast?_eq_getLast_of_ne_nil (List.ne_nil_of_mem ht)⟩
    obtain ⟨first, hfirst⟩ := hfirst
    have hsettled := htime first hfirst t ht
    rwa [hop, hfootprint] at hsettled
  · intro o s a s' K hc _ _ hexec
    exact counted_exec hmanages hc hexec

/-- A request whose first statement says what it will read. -/
theorem covered_disciplined_select {op : Op} {α : Type} {q : Db → α} {f : α → Tx Unit}
    (hop : ops i = op) (hmanages : op.ManagesRooms) (hprog : op.prog = select q >>= f)
    (hread : ∀ t db, Settled (op.footprint t) t db → q t = q db)
    (hrest : ∀ t, Covered (op.footprint t) ∅ (f (q t))) :
    Disciplined (counting ops) i (ops i).prog := by
  rw [hop, hprog]
  refine Runs.disciplined (runs_select_bind (stable_true _) fun first _ _ => ⟨?_⟩)
  refine (hrest first).commits rfl respects_id (fun s => roomProtocol.frame_refl _ s)
    (stable_true _) ?_ ?_
  · intro new s _ _ htime t ht
    have hsettled := htime first (by simp) t (by simp [ht])
    rwa [hop] at hsettled
  · intro new s a s' K hc _ htime _ hexec
    have hsettled := htime first (by simp) first (by simp)
    rw [hop] at hsettled
    refine counted_exec hmanages hc (u := a) ?_
    rw [hprog, exec_bind, exec_select, ← hread first s hsettled]
    exact hexec

theorem patchRoom_counting {rid : UUID} {name status : Option String} {newType : Option UUID}
    (hop : ops i = .patchRoom rid name status newType) :
    Disciplined (counting ops) i (ops i).prog := by
  refine covered_disciplined_select hop trivial rfl
    (fun t db h => (h.rows rid rfl).symm) fun t => ?_
  cases hfind : t.rooms.find rid with
  | none => exact orderly_raise _
  | some room =>
    refine orderly_bind (orderly_raiseIf _) fun _ =>
      orderly_bind (orderly_runIf covered_requireRoomType) fun _ =>
        orderly_bind covered_patchedRoomStatus fun _ =>
          orderly_bind (covered_updateRoom rfl) fun _ => ?_
    unfold runIf
    split
    · next hne =>
      have hold : room.roomTypeId ∈ Op.recounted (newType.getD ·) (t.rooms.find rid) :=
        ⟨room, hfind, hne, .inl rfl⟩
      have hnew : newType.getD room.roomTypeId ∈
          Op.recounted (newType.getD ·) (t.rooms.find rid) :=
        ⟨room, hfind, hne, .inr rfl⟩
      exact covered_recalculateMove hold hold hnew hnew
    · exact orderly_pure _

theorem softDeleteRoom_counting {rid : UUID} (hop : ops i = .softDeleteRoom rid) :
    Disciplined (counting ops) i (ops i).prog := by
  refine covered_disciplined_select hop trivial rfl
    (fun t db h => (h.rows rid rfl).symm) fun t => ?_
  cases hfind : t.rooms.find rid with
  | none => exact orderly_raise _
  | some room =>
    have hinuse : Covered ((Op.softDeleteRoom rid).footprint t) ∅
        (select fun db => decide (RoomInUse db rid) : Tx Bool) := by
      refine orderly_select fun s s' h => decide_eq_decide.mpr ?_
      unfold RoomInUse
      rw [h.2.bookings, h.2.today]
    have htype : room.roomTypeId ∈ {rt | ∃ r ∈ t.rooms.find rid, r.roomTypeId = rt} :=
      ⟨room, hfind, rfl⟩
    exact orderly_bind (orderly_raiseIf _) fun _ => orderly_bind hinuse fun _ =>
      orderly_bind (orderly_raiseIf _) fun _ => orderly_bind (covered_updateRoom rfl) fun _ =>
        covered_recalculate htype htype

theorem managesRooms_disciplined (hmanages : (ops i).ManagesRooms) :
    Disciplined (counting ops) i (ops i).prog := by
  obtain ⟨op, hop⟩ : ∃ op, ops i = op := ⟨_, rfl⟩
  rw [hop] at hmanages
  cases op with
  | createRoom env rt name status =>
    have hcovered : Covered ⟨{rt}, {rt}, {env.roomId 0}⟩ ∅ (createRoom env rt name status) :=
      covered_createRoom (Set.mem_singleton _) (Set.mem_singleton _) (Set.mem_singleton _)
    exact covered_disciplined hop trivial hcovered rfl fun _ => rfl
  | createRoomsBulk env rt items onConflict =>
    have hcovered : Covered ⟨{rt}, {rt}, Set.range env.roomId⟩ ∅
        (createRoomsBulk env rt items onConflict) :=
      covered_createRoomsBulk (Set.mem_singleton _) (Set.mem_singleton _) subset_rfl
    exact covered_disciplined hop trivial hcovered rfl fun _ => rfl
  | patchRoom rid name status newType => exact patchRoom_counting hop
  | softDeleteRoom rid => exact softDeleteRoom_counting hop
  | bulkSeed body =>
    have hcovered : Covered ⟨{rt | ∃ seg ∈ body.segments, seg.roomTypeId = rt}, ∅, ∅⟩ ∅
        (bulkSeedAvailabilityLedger body) :=
      covered_bulkSeed fun seg hseg => ⟨seg, hseg, rfl⟩
    exact covered_disciplined hop trivial hcovered rfl fun _ => rfl
  | extendLedger extra =>
    have hcovered : Covered ⟨Set.univ, Set.univ, ∅⟩ ∅ (extendAvailabilityLedgerDays extra) :=
      covered_extendLedger (fun _ => Set.mem_univ _) fun _ => Set.mem_univ _
    exact covered_disciplined hop trivial hcovered rfl fun _ => rfl
  | _ => exact hmanages.elim

/-- In every interleaving of the six requests in which each commit finds the rooms and the
days that the request has read, the totals from today on are the numbers of rooms. -/
theorem total_rooms_follow [DecidableEq ι] (hmanages : ∀ i, (ops i).ManagesRooms) {db : Db}
    (hdb : Counted db.hotel) {c : Config Db RowKey Err Unit ι}
    (hr : Config.Reach (counting ops).timing (Config.start db fun i => (ops i).prog) c) :
    ∀ rt d n, c.db.today ≤ d → c.db.ledger.row rt d = some n →
      n.totalRooms = countRoomsForRoomType rt c.db :=
  inv_of_reach (D := counting ops) hdb (fun i => managesRooms_disciplined (hmanages i)) hr

end Counting

theorem settled_refl : Settled F s s :=
  ⟨fun _ _ => rfl, fun _ _ _ => Iff.rfl, fun _ _ _ => rfl⟩

/-- Two new rooms of one type. -/
def Demo.newRoom (i : Bool) : Op :=
  .createRoom (env 0 0 (if i then 102 else 101)) 10 (if i then "103" else "102") "available"

/-- One creation after the other. -/
theorem total_rooms_follow_demo :
    ∃ c, (Config.start (run (.empty 0) Demo.openHotel) fun i => (Demo.newRoom i).prog).run
        (List.replicate 8 (.step false) ++ List.replicate 8 (.step true)) = some c ∧
      c.results false = some () ∧ c.results true = some () ∧
      c.db.ledger.row 10 3 = some ⟨3, 0, 0⟩ ∧
      ∀ rt d n, c.db.today ≤ d → c.db.ledger.row rt d = some n →
        n.totalRooms = countRoomsForRoomType rt c.db := by
  have hrows : ((Config.start (run (.empty 0) Demo.openHotel) fun i => (Demo.newRoom i).prog).run
      (List.replicate 8 (.step false) ++ List.replicate 8 (.step true))).map
      (fun c => (c.results false, c.results true, c.db.ledger.row 10 3)) =
        some (some (), some (), some ⟨3, 0, 0⟩) := by
    decide +kernel
  obtain ⟨c, hrun, hc⟩ := Option.map_eq_some_iff.mp hrows
  simp only [Prod.mk.injEq] at hc
  obtain ⟨hfalse, htrue, hrow⟩ := hc
  refine ⟨c, hrun, hfalse, htrue, hrow, ?_⟩
  obtain ⟨c₁, hrun₁, hrun₂⟩ := Config.run_append.mp hrun
  have hcommit : ∀ i o t, (∀ t' ∈ o, t' = t) → (counting Demo.newRoom).timing.commit i o t := by
    intro i o t ho first _ t' ht'
    rw [ho t' ht']
    exact settled_refl
  obtain ⟨hreach₁, hother⟩ := reach_alone (fun _ _ => trivial) (hcommit false) (by
    intro p w o hi
    cases hi
    exact fun _ h => absurd h List.not_mem_nil) hrun₁
  obtain ⟨hreach₂, -⟩ := reach_alone (fun _ _ => trivial) (hcommit true) (by
    intro p w o hi
    rw [hother true (by decide)] at hi
    cases hi
    exact fun _ h => absurd h List.not_mem_nil) hrun₂
  have hmanages : ∀ i, (Demo.newRoom i).ManagesRooms := fun _ => trivial
  exact total_rooms_follow hmanages
    (Reachable.counted (reachable_run (.empty 0) fun _ _ _ => trivial)) (hreach₁.trans hreach₂)

/-- Both count before either commits. -/
theorem total_rooms_lost :
    Counted (run (.empty 0) Demo.openHotel).hotel ∧
    ∃ c, Config.Reach .any
        (Config.start (run (.empty 0) Demo.openHotel) fun i => (Demo.newRoom i).prog) c ∧
      c.results false = some () ∧ c.results true = some () ∧
      ∃ rt d n, c.db.today ≤ d ∧ c.db.ledger.row rt d = some n ∧
        n.totalRooms ≠ countRoomsForRoomType rt c.db := by
  refine ⟨Reachable.counted (reachable_run (.empty 0) fun _ _ _ => trivial), ?_⟩
  have hrows : ((Config.start (run (.empty 0) Demo.openHotel) fun i => (Demo.newRoom i).prog).run
      (List.replicate 5 (.step false) ++ List.replicate 5 (.step true) ++
        List.replicate 3 (.step false) ++ List.replicate 3 (.step true))).map
      (fun c => (c.results false, c.results true, c.db.today, c.db.ledger.row 10 3,
        countRoomsForRoomType 10 c.db)) =
        some (some (), some (), 0, some ⟨2, 0, 0⟩, 3) := by
    decide +kernel
  obtain ⟨c, hrun, hc⟩ := Option.map_eq_some_iff.mp hrows
  simp only [Prod.mk.injEq] at hc
  obtain ⟨hfalse, htrue, htoday, hrow, hcount⟩ := hc
  refine ⟨c, Config.reach_of_run hrun, hfalse, htrue, 10, 3, ⟨2, 0, 0⟩, ?_, hrow, ?_⟩
  · rw [htoday]
    decide
  · rw [hcount]
    decide

end OpenPms
