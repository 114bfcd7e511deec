import OpenPms.Hotel

/-!
Three invariants of bookings and rooms, each kept by every action of the hotel: the
shape of a booking, the exclusive use of a room on a night, and the agreement of an
assigned room with its booking. The last one is kept by a change of room type only
when the room is unused.
-/
namespace OpenPms

open KeyedTable Hotel

/-! The shape of a booking -/

/-- One line for each night of one interval, one room type, one room or none, and
the total of the prices. -/
structure Booking.Shape (b : Booking) : Prop where
  stay : ∃ checkIn checkOut : ℤ, checkIn < checkOut ∧ checkOut - checkIn ≤ maxStayNights ∧
    b.nights = daysBetween checkIn checkOut
  roomType : ∃ rt, ∀ ln ∈ b.lines, ln.roomTypeId = rt
  room : ∃ room, ∀ ln ∈ b.lines, ln.roomId = room
  total : b.totalAmount = (b.lines.map (·.priceForDate)).sum

namespace Booking.Shape

variable {b : Booking}

theorem nights_nodup (h : b.Shape) : b.nights.Nodup := by
  obtain ⟨ci, co, -, -, hnights⟩ := h.stay
  rw [hnights]
  exact nodup_daysBetween ci co

theorem lines_ne_nil (h : b.Shape) : b.lines ≠ [] := by
  obtain ⟨ci, co, hlt, -, hnights⟩ := h.stay
  intro hnil
  have hdays : daysBetween ci co = [] := by
    rw [← hnights, Booking.nights, hnil, List.map_nil]
  exact daysBetween_ne_nil hlt hdays

end Booking.Shape

theorem mem_lineRoomTypes {lines : List BookingLine} {rt : UUID} :
    rt ∈ lineRoomTypes lines ↔ ∃ ln ∈ lines, ln.roomTypeId = rt := by
  simp [lineRoomTypes, List.mem_dedup]

/-- A single room type is the type of every line. -/
theorem roomTypeId_of_single {lines : List BookingLine} {rt : UUID}
    (h : lineRoomTypes lines = [rt]) {ln : BookingLine} (hln : ln ∈ lines) :
    ln.roomTypeId = rt := by
  have hmem : ln.roomTypeId ∈ lineRoomTypes lines := mem_lineRoomTypes.mpr ⟨ln, hln, rfl⟩
  rw [h] at hmem
  exact List.mem_singleton.mp hmem

theorem lineRoomTypes_eq_single {lines : List BookingLine} {rt : UUID} (hne : lines ≠ [])
    (hall : ∀ ln ∈ lines, ln.roomTypeId = rt) : lineRoomTypes lines = [rt] := by
  have hmem : ∀ x, x ∈ lineRoomTypes lines ↔ x ∈ [rt] := by
    intro x
    rw [mem_lineRoomTypes, List.mem_singleton]
    constructor
    · intro h
      obtain ⟨ln, hln, hx⟩ := h
      rw [← hx, hall ln hln]
    · intro h
      obtain ⟨ln, hln⟩ := List.exists_mem_of_ne_nil lines hne
      exact ⟨ln, hln, (hall ln hln).trans h.symm⟩
  have hperm := (List.perm_ext_iff_of_nodup (List.nodup_dedup _) (List.nodup_singleton rt)).mpr hmem
  exact List.perm_singleton.mp hperm

theorem Booking.Shape.lineRoomTypes {b : Booking} (h : b.Shape) :
    ∃ rt, lineRoomTypes b.lines = [rt] := by
  obtain ⟨rt, hall⟩ := h.roomType
  exact ⟨rt, lineRoomTypes_eq_single h.lines_ne_nil hall⟩

namespace PricedStay

variable (stay : PricedStay)

theorem lines_date : stay.lines.map (·.date) = stay.nights := by
  have hcomp : ((·.date) : BookingLine → ℤ) ∘
      (fun np : ℤ × Money => (⟨np.1, stay.roomTypeId, none, np.2⟩ : BookingLine)) = (·.1) := rfl
  rw [lines, newLines, List.map_map, hcomp, stay.perNight_fst, nights]

theorem lines_price : (stay.lines.map (·.priceForDate)).sum = stay.total := by
  have hcomp : ((·.priceForDate) : BookingLine → Money) ∘
      (fun np : ℤ × Money => (⟨np.1, stay.roomTypeId, none, np.2⟩ : BookingLine)) = (·.2) := rfl
  rw [lines, newLines, List.map_map, hcomp, total]

theorem mem_lines {ln : BookingLine} (h : ln ∈ stay.lines) :
    ln.roomTypeId = stay.roomTypeId ∧ ln.roomId = none := by
  obtain ⟨np, -, hln⟩ := List.mem_map.mp h
  rw [← hln]
  exact ⟨rfl, rfl⟩

theorem nights_nodup : stay.nights.Nodup := nodup_daysBetween _ _

end PricedStay

theorem shape_of_stay {b : Booking} (stay : PricedStay) (hlines : b.lines = stay.lines)
    (htotal : b.totalAmount = stay.total) : b.Shape where
  stay := ⟨stay.checkIn, stay.checkOut, stay.checkIn_lt, stay.span_le, by
    rw [Booking.nights, hlines]
    exact stay.lines_date⟩
  roomType := ⟨stay.roomTypeId, fun ln hln => (stay.mem_lines (hlines ▸ hln)).1⟩
  room := ⟨none, fun ln hln => (stay.mem_lines (hlines ▸ hln)).2⟩
  total := by rw [htotal, hlines, stay.lines_price]

theorem nights_setRoom (room : Option UUID) (b : Booking) :
    (setRoom room b).nights = b.nights := by
  simp [setRoom, Booking.nights, Function.comp_def]

theorem mem_setRoom_lines {room : Option UUID} {b : Booking} {ln : BookingLine}
    (h : ln ∈ (setRoom room b).lines) :
    ln.roomId = room ∧ ∃ old ∈ b.lines, ln.date = old.date ∧ ln.roomTypeId = old.roomTypeId := by
  obtain ⟨old, hold, hln⟩ := List.mem_map.mp h
  rw [← hln]
  exact ⟨rfl, old, hold, rfl, rfl⟩

theorem Booking.Shape.setRoom {b : Booking} (h : b.Shape) (room : Option UUID) :
    (OpenPms.setRoom room b).Shape := by
  obtain ⟨rt, hrt⟩ := h.roomType
  refine ⟨?_, ⟨rt, ?_⟩, ⟨room, fun ln hln => (mem_setRoom_lines hln).1⟩, ?_⟩
  · rw [nights_setRoom]
    exact h.stay
  · intro ln hln
    obtain ⟨-, old, hold, -, htype⟩ := mem_setRoom_lines hln
    rw [htype, hrt old hold]
  · rw [show (OpenPms.setRoom room b).totalAmount = b.totalAmount from rfl, h.total]
    simp [OpenPms.setRoom, Function.comp_def]

/-- The second hotel has the bookings of the first with `f` applied under `bid`. -/
def UpdatesOne (h h' : Hotel) (bid : UUID) (f : Booking → Booking) : Prop :=
  ∃ hf : ∀ b, (f b).id = b.id, h'.bookings = h.bookings.update bid f hf

theorem UpdatesOne.mem {h h' : Hotel} {bid : UUID} {f : Booking → Booking}
    (hb : UpdatesOne h h' bid f) {b : Booking} (hmem : b ∈ h'.bookings.rows) :
    (b ∈ h.bookings.rows ∧ b.id ≠ bid) ∨ ∃ u, h.bookings.find bid = some u ∧ b = f u := by
  obtain ⟨hf, hb⟩ := hb
  rw [hb] at hmem
  exact Table.mem_update.mp hmem

theorem updatesOne {h : Hotel} {bid : UUID} {f : Booking → Booking} (hf : ∀ b, (f b).id = b.id)
    {l : Ledger} :
    UpdatesOne h { h with bookings := h.bookings.update bid f hf, ledger := l } bid f :=
  ⟨hf, rfl⟩

def Shaped (h : Hotel) : Prop := ∀ b ∈ h.bookings.rows, b.Shape

/-- Every action keeps the shapes: a table changes by one well-shaped booking. -/
theorem Shaped.update {h h' : Hotel} {bid : UUID} {f : Booking → Booking} (hs : Shaped h)
    (hb : UpdatesOne h h' bid f) (hfs : ∀ b : Booking, b.Shape → (f b).Shape) : Shaped h' := by
  intro b hmem
  rcases hb.mem hmem with hold | hnew
  · exact hs b hold.1
  · obtain ⟨u, hu, hbu⟩ := hnew
    rw [hbu]
    exact hfs u (hs u (Table.find_eq_some.mp hu).1)

theorem Shaped.step {h h' : Hotel} (hs : Shaped h) (hstep : Step h h') : Shaped h' := by
  cases hstep with
  | sale hsale =>
    cases hsale with
    | book stay hfresh _ hlines htotal _ =>
      intro b hmem
      rcases (Table.mem_insert hfresh).mp hmem with hold | hnew
      · exact hs b hold
      · rw [hnew]
        exact shape_of_stay stay hlines htotal
    | assign _ _ _ => exact hs.update (updatesOne _) fun b hb => hb.setRoom _
  | rebook stay _ _ _ _ _ _ =>
    exact hs.update (updatesOne _) fun b _ => shape_of_stay stay rfl rfl
  | unassign _ _ => exact hs.update (updatesOne _) fun b hb => hb.setRoom _
  | advance _ _ _ => exact hs.update (updatesOne _) fun b hb => ⟨hb.stay, hb.roomType, hb.room, hb.total⟩
  | release _ _ _ _ _ =>
    exact hs.update (updatesOne _) fun b hb => ⟨hb.stay, hb.roomType, hb.room, hb.total⟩
  | annotate notes _ =>
    exact hs.update (updatesOne _) fun b hb => ⟨hb.stay, hb.roomType, hb.room, hb.total⟩
  | remove _ _ _ _ => exact fun b hmem => hs b (Table.mem_erase.mp hmem).1
  | removeInactive _ _ => exact fun b hmem => hs b (Table.mem_erase.mp hmem).1
  | supply hsupply =>
    cases hsupply with
    | _ => exact hs
  | _ => exact hs

theorem Shaped.drift {h h' : Hotel} (hs : Shaped h) (hdrift : Drift h h') : Shaped h' := by
  cases hdrift with
  | cancelAgain _ _ _ =>
    exact hs.update (updatesOne _) fun b hb => ⟨hb.stay, hb.roomType, hb.room, hb.total⟩
  | rebookInactive stay _ _ _ _ =>
    exact hs.update (updatesOne _) fun b _ => shape_of_stay stay rfl rfl
  | counters _ => exact hs

theorem Shaped.take {h h' : Hotel} (hs : Shaped h) (htake : Take h h') : Shaped h' := by
  cases htake with
  | _ => exact hs

/-! Exclusive use of rooms -/

def Booking.Occupies (b : Booking) (room : UUID) (d : ℤ) : Prop :=
  b.status.Active ∧ ∃ ln ∈ b.lines, ln.roomId = some room ∧ ln.date = d

/-- No two active bookings have the same room on the same night. -/
def RoomExclusive (h : Hotel) : Prop :=
  ∀ b₁ ∈ h.bookings.rows, ∀ b₂ ∈ h.bookings.rows, ∀ room d,
    b₁.Occupies room d → b₂.Occupies room d → b₁.id = b₂.id

/-- A booking may change as long as the nights it gains in a room are free. -/
theorem RoomExclusive.update {h h' : Hotel} {bid : UUID} {f : Booking → Booking}
    (hx : RoomExclusive h) (hb : UpdatesOne h h' bid f)
    (hgain : ∀ b, h.bookings.find bid = some b → ∀ room d, (f b).Occupies room d →
      b.Occupies room d ∨ ∀ b' ∈ h.bookings.rows, b'.id ≠ bid → ¬ b'.Occupies room d) :
    RoomExclusive h' := by
  intro b₁ hb₁ b₂ hb₂ room d ho₁ ho₂
  have hf : ∀ b, (f b).id = b.id := hb.1
  rcases hb.mem hb₁ with ⟨hm₁, hne₁⟩ | ⟨u₁, hu₁, he₁⟩
  · rcases hb.mem hb₂ with ⟨hm₂, hne₂⟩ | ⟨u₂, hu₂, he₂⟩
    · exact hx b₁ hm₁ b₂ hm₂ room d ho₁ ho₂
    · obtain ⟨hmem, hid⟩ := Table.find_eq_some.mp hu₂
      rw [he₂] at ho₂
      rcases hgain u₂ hu₂ room d ho₂ with hold | hfree
      · rw [he₂, hf]
        exact hx b₁ hm₁ u₂ hmem room d ho₁ hold
      · exact absurd ho₁ (hfree b₁ hm₁ hne₁)
  · obtain ⟨hmem, hid⟩ := Table.find_eq_some.mp hu₁
    rcases hb.mem hb₂ with ⟨hm₂, hne₂⟩ | ⟨u₂, hu₂, he₂⟩
    · rw [he₁] at ho₁
      rcases hgain u₁ hu₁ room d ho₁ with hold | hfree
      · rw [he₁, hf]
        exact hx u₁ hmem b₂ hm₂ room d hold ho₂
      · exact absurd ho₂ (hfree b₂ hm₂ hne₂)
    · rw [he₁, he₂, hf, hf, hid, (Table.find_eq_some.mp hu₂).2]

theorem not_occupies_of_inactive {b : Booking} (h : ¬ b.status.Active) (room : UUID) (d : ℤ) :
    ¬ b.Occupies room d := fun ho => h ho.1

theorem not_occupies_stay {b : Booking} (stay : PricedStay) (h : b.lines = stay.lines)
    (room : UUID) (d : ℤ) : ¬ b.Occupies room d := by
  intro ho
  obtain ⟨-, ln, hln, hroom, -⟩ := ho
  rw [h] at hln
  rw [(stay.mem_lines hln).2] at hroom
  cases hroom

theorem active_of_allowed {s s' : BookingStatus} (h : s' ∈ s.allowed) : s.Active := by
  constructor
  · intro hs
    simp [hs, BookingStatus.allowed] at h
  · intro hs
    simp [hs, BookingStatus.allowed] at h

theorem RoomExclusive.step {h h' : Hotel} (hx : RoomExclusive h) (hstep : Step h h') :
    RoomExclusive h' := by
  cases hstep with
  | sale hsale =>
    cases hsale with
    | @book b stay hfresh _ hlines _ _ =>
      intro b₁ hb₁ b₂ hb₂ room d ho₁ ho₂
      rcases (Table.mem_insert hfresh).mp hb₁ with hm₁ | he₁
      · rcases (Table.mem_insert hfresh).mp hb₂ with hm₂ | he₂
        · exact hx b₁ hm₁ b₂ hm₂ room d ho₁ ho₂
        · exact absurd ho₂ (not_occupies_stay stay (by rw [he₂, hlines]) room d)
      · exact absurd ho₁ (not_occupies_stay stay (by rw [he₁, hlines]) room d)
    | @assign b newRoom hfind hactive hroom =>
      apply hx.update (updatesOne _)
      intro u hu room d ho
      cases hfind.symm.trans hu
      right
      intro b' hb' hne ho'
      obtain ⟨-, ln, hln, hid, hdate⟩ := ho
      obtain ⟨hset, old, hold, hd, -⟩ := mem_setRoom_lines hln
      rw [hset] at hid
      cases hid
      obtain ⟨hact, ln', hln', hid', hdate'⟩ := ho'
      apply hroom.free b' hb' hne hact ln' hln' hid'
      rw [hdate', ← hdate, hd]
      exact List.mem_map_of_mem hold
  | rebook stay _ _ _ _ _ _ =>
    apply hx.update (updatesOne _)
    intro b _ room d ho
    exact absurd ho (not_occupies_stay stay rfl room d)
  | unassign _ _ =>
    apply hx.update (updatesOne _)
    intro u _ room d ho
    obtain ⟨-, ln, hln, hid, -⟩ := ho
    rw [(mem_setRoom_lines hln).1] at hid
    cases hid
  | advance hfind _ hallowed =>
    apply hx.update (updatesOne _)
    intro u hu room d ho
    cases hfind.symm.trans hu
    exact .inl ⟨active_of_allowed hallowed, ho.2⟩
  | release _ _ hinactive _ _ =>
    apply hx.update (updatesOne _)
    intro u _ room d ho
    exact absurd ho (not_occupies_of_inactive hinactive room d)
  | annotate notes _ => exact hx.update (updatesOne _) fun u _ room d ho => .inl ho
  | remove _ _ _ _ =>
    intro b₁ hb₁ b₂ hb₂
    exact hx b₁ (Table.mem_erase.mp hb₁).1 b₂ (Table.mem_erase.mp hb₂).1
  | removeInactive _ _ =>
    intro b₁ hb₁ b₂ hb₂
    exact hx b₁ (Table.mem_erase.mp hb₁).1 b₂ (Table.mem_erase.mp hb₂).1
  | supply hsupply =>
    cases hsupply with
    | _ => exact hx
  | _ => exact hx

theorem RoomExclusive.drift {h h' : Hotel} (hx : RoomExclusive h) (hdrift : Drift h h') :
    RoomExclusive h' := by
  cases hdrift with
  | cancelAgain _ _ _ =>
    apply hx.update (updatesOne _)
    intro u _ room d ho
    exact absurd ho (not_occupies_of_inactive (fun ha => ha.1 rfl) room d)
  | rebookInactive stay _ _ _ _ =>
    apply hx.update (updatesOne _)
    intro u _ room d ho
    exact absurd ho (not_occupies_stay stay rfl room d)
  | counters _ => exact hx

theorem RoomExclusive.take {h h' : Hotel} (hx : RoomExclusive h) (htake : Take h h') :
    RoomExclusive h' := by
  cases htake with
  | _ => exact hx

/-! Assigned rooms agree with their bookings -/

/-- The room is in service, of the line's type, on the booking's property. -/
def Hotel.Suits (h : Hotel) (propertyId : UUID) (ln : BookingLine) (room : UUID) : Prop :=
  ∃ r t, h.rooms.find room = some r ∧ r.deleted = false ∧ r.roomTypeId = ln.roomTypeId ∧
    h.roomTypes.find r.roomTypeId = some t ∧ t.propertyId = propertyId

def RoomsMatch (h : Hotel) : Prop :=
  ∀ b ∈ h.bookings.rows, b.status.Live → ∀ ln ∈ b.lines, h.today ≤ ln.date →
    ∀ room, ln.roomId = some room → h.Suits b.propertyId ln room

/-- Rooms and types as before; the assignments of each booking are old or suitable. -/
theorem RoomsMatch.bookings {h h' : Hotel} (hm : RoomsMatch h)
    (htoday : h'.today = h.today) (hrooms : h'.rooms = h.rooms)
    (htypes : h'.roomTypes = h.roomTypes)
    (hb : ∀ b ∈ h'.bookings.rows, b.status.Live → ∀ ln ∈ b.lines, ∀ room,
      ln.roomId = some room → h.Suits b.propertyId ln room ∨
        ∃ old ∈ h.bookings.rows, old.status.Live ∧ old.propertyId = b.propertyId ∧
          ln ∈ old.lines) : RoomsMatch h' := by
  intro b hmem hlive ln hln hdate room hroom
  have hsuits : h.Suits b.propertyId ln room := by
    rcases hb b hmem hlive ln hln room hroom with hnew | ⟨old, hold, hlive', hprop, hln'⟩
    · exact hnew
    · rw [← hprop]
      exact hm old hold hlive' ln hln' (htoday ▸ hdate) room hroom
  obtain ⟨r, t, hr, hdel, hrt, ht, hp⟩ := hsuits
  exact ⟨r, t, by rw [hrooms, hr], hdel, hrt, by rw [htypes, ht], hp⟩

theorem RoomsMatch.update {h h' : Hotel} {bid : UUID} {f : Booking → Booking}
    (hm : RoomsMatch h) (hb : UpdatesOne h h' bid f) (htoday : h'.today = h.today)
    (hrooms : h'.rooms = h.rooms) (htypes : h'.roomTypes = h.roomTypes)
    (hgain : ∀ b, h.bookings.find bid = some b → (f b).status.Live → ∀ ln ∈ (f b).lines,
      ∀ room, ln.roomId = some room → h.Suits (f b).propertyId ln room ∨
        (b.status.Live ∧ b.propertyId = (f b).propertyId ∧ ln ∈ b.lines)) : RoomsMatch h' := by
  apply hm.bookings htoday hrooms htypes
  intro b hmem hlive ln hln room hroom
  rcases hb.mem hmem with ⟨hold, -⟩ | ⟨u, hu, hbu⟩
  · exact .inr ⟨b, hold, hlive, rfl, hln⟩
  · rw [hbu] at hlive hln ⊢
    rcases hgain u hu hlive ln hln room hroom with hs | ⟨hl, hp, hmem'⟩
    · exact .inl hs
    · exact .inr ⟨u, (Table.find_eq_some.mp hu).1, hl, hp, hmem'⟩

theorem active_of_live {s : BookingStatus} (h : s.Live) : s.Active := by
  rcases h with hs | hs | hs
  all_goals
    rw [hs]
    decide

theorem live_of_allowed {s s' : BookingStatus} (h : s' ∈ s.allowed) : s.Live := by
  cases s <;> simp [BookingStatus.allowed, BookingStatus.Live] at h ⊢

/-- Bookings as before; a room that an assignment relies on stays suitable. -/
theorem RoomsMatch.rooms {h h' : Hotel} (hm : RoomsMatch h) (hb : h'.bookings = h.bookings)
    (htoday : h.today ≤ h'.today)
    (hkeep : ∀ b ∈ h.bookings.rows, b.status.Live → ∀ ln ∈ b.lines, h'.today ≤ ln.date →
      ∀ room, ln.roomId = some room → h.Suits b.propertyId ln room →
        h'.Suits b.propertyId ln room) : RoomsMatch h' := by
  intro b hmem hlive ln hln hdate room hroom
  rw [hb] at hmem
  have hold := hm b hmem hlive ln hln (htoday.trans hdate) room hroom
  exact hkeep b hmem hlive ln hln hdate room hroom hold

theorem Hotel.Suits.update_room {h h' : Hotel} {propertyId room rid : UUID} {ln : BookingLine}
    {f : Room → Room} (hs : h.Suits propertyId ln room)
    (hrows : h'.rooms.rows = h.rooms.rows.map fun r => if r.id = rid then f r else r)
    (hf : ∀ r, (f r).id = r.id) (htypes : h'.roomTypes = h.roomTypes)
    (hkeep : room = rid → ∀ r, (f r).deleted = r.deleted ∧ (f r).roomTypeId = r.roomTypeId) :
    h'.Suits propertyId ln room := by
  obtain ⟨r, t, hr, hdel, hrt, ht, hp⟩ := hs
  have hfind : ∀ k, h'.rooms.find k = (h.rooms.update rid f hf).find k := by
    intro k
    rw [Table.find, Table.find, hrows, Table.update]
  by_cases hrid : room = rid
  · obtain ⟨hd, htype⟩ := hkeep hrid r
    refine ⟨f r, t, ?_, by rw [hd, hdel], by rw [htype, hrt], by rw [htypes, htype, ht], hp⟩
    rw [hfind, hrid, Table.find_update_self, ← hrid, hr]
    rfl
  · refine ⟨r, t, ?_, hdel, hrt, by rw [htypes, ht], hp⟩
    rw [hfind, Table.find_update_of_ne hrid, hr]

theorem RoomsMatch.step {h h' : Hotel} (hm : RoomsMatch h) (hstep : Step h h') :
    RoomsMatch h' := by
  cases hstep with
  | sale hsale =>
    cases hsale with
    | @book b stay hfresh _ hlines _ _ =>
      refine hm.bookings rfl rfl rfl ?_
      intro b' hmem hlive ln hln room hroom
      rcases (Table.mem_insert hfresh).mp hmem with hold | hnew
      · exact .inr ⟨b', hold, hlive, rfl, hln⟩
      · rw [hnew, hlines] at hln
        rw [(stay.mem_lines hln).2] at hroom
        cases hroom
    | @assign b newRoom hfind hactive hassign =>
      apply hm.update (updatesOne _) rfl rfl rfl
      intro u hu _ ln hln room hroom
      cases hfind.symm.trans hu
      obtain ⟨hset, old, hold, -, htype⟩ := mem_setRoom_lines hln
      rw [hset] at hroom
      cases hroom
      obtain ⟨r, t, hr, hdel, hsingle, ht, hp⟩ := hassign.row
      left
      refine ⟨r, t, hr, hdel, ?_, ht, hp⟩
      rw [htype, roomTypeId_of_single hsingle hold]
  | rebook stay _ _ _ _ _ _ =>
    apply hm.update (updatesOne _) rfl rfl rfl
    intro b _ _ ln hln room hroom
    rw [(stay.mem_lines hln).2] at hroom
    cases hroom
  | unassign _ _ =>
    apply hm.update (updatesOne _) rfl rfl rfl
    intro u _ _ ln hln room hroom
    rw [(mem_setRoom_lines hln).1] at hroom
    cases hroom
  | advance hfind _ hallowed =>
    apply hm.update (updatesOne _) rfl rfl rfl
    intro u hu _ ln hln room hroom
    cases hfind.symm.trans hu
    exact .inr ⟨live_of_allowed hallowed, rfl, hln⟩
  | release _ _ hinactive _ _ =>
    apply hm.update (updatesOne _) rfl rfl rfl
    intro u _ hlive ln hln room hroom
    exact absurd (active_of_live hlive) hinactive
  | annotate notes _ =>
    apply hm.update (updatesOne _) rfl rfl rfl
    intro u _ hlive ln hln room hroom
    exact .inr ⟨hlive, rfl, hln⟩
  | remove _ _ _ _ =>
    refine hm.bookings rfl rfl rfl ?_
    intro b hmem hlive ln hln room hroom
    exact .inr ⟨b, (Table.mem_erase.mp hmem).1, hlive, rfl, hln⟩
  | removeInactive _ _ =>
    refine hm.bookings rfl rfl rfl ?_
    intro b hmem hlive ln hln room hroom
    exact .inr ⟨b, (Table.mem_erase.mp hmem).1, hlive, rfl, hln⟩
  | soil rooms =>
    refine hm.rooms rfl (le_refl _) ?_
    intro b _ _ ln _ _ room _ hs
    obtain ⟨r, t, hr, hdel, hrt, ht, hp⟩ := hs
    obtain ⟨hmem, hid⟩ := Table.find_eq_some.mp hr
    have hkeep : (markRoomDirty rooms r).deleted = r.deleted ∧
        (markRoomDirty rooms r).roomTypeId = r.roomTypeId := by
      unfold markRoomDirty
      split <;> exact ⟨rfl, rfl⟩
    refine ⟨markRoomDirty rooms r, t, ?_, by rw [hkeep.1, hdel], by rw [hkeep.2, hrt],
      by rw [hkeep.2, ht], hp⟩
    exact Table.find_eq_some.mpr
      ⟨List.mem_map_of_mem hmem, by rw [id_markRoomDirty, hid]⟩
  | addRoomType hfresh =>
    refine hm.rooms rfl (le_refl _) ?_
    intro b _ _ ln _ _ room _ hs
    obtain ⟨r, t, hr, hdel, hrt, ht, hp⟩ := hs
    obtain ⟨hmem, hid⟩ := Table.find_eq_some.mp ht
    exact ⟨r, t, hr, hdel, hrt,
      Table.find_eq_some.mpr ⟨(Table.mem_insert hfresh).mpr (.inl hmem), hid⟩, hp⟩
  | editRoomType rt f hid hproperty =>
    refine hm.rooms rfl (le_refl _) ?_
    intro b _ _ ln _ _ room _ hs
    obtain ⟨r, t, hr, hdel, hrt, ht, hp⟩ := hs
    by_cases hkey : r.roomTypeId = rt
    · refine ⟨r, f t, hr, hdel, hrt, ?_, by rw [hproperty, hp]⟩
      rw [hkey] at ht ⊢
      rw [Table.find_update_self, ht]
      rfl
    · refine ⟨r, t, hr, hdel, hrt, ?_, hp⟩
      rw [Table.find_update_of_ne hkey, ht]
  | block _ _ _ _ => exact hm
  | tick day hle =>
    exact hm.rooms rfl hle fun b _ _ ln _ _ room _ hs => hs
  | supply hsupply =>
    cases hsupply with
    | @addRoom r hfresh _ =>
      refine hm.rooms rfl (le_refl _) ?_
      intro b _ _ ln _ _ room _ hs
      obtain ⟨r', t, hr, hdel, hrt, ht, hp⟩ := hs
      obtain ⟨hmem, hid⟩ := Table.find_eq_some.mp hr
      exact ⟨r', t, Table.find_eq_some.mpr ⟨(Table.mem_insert hfresh).mpr (.inl hmem), hid⟩,
        hdel, hrt, ht, hp⟩
    | editRoom rid name status =>
      refine hm.rooms rfl (le_refl _) ?_
      intro b _ _ ln _ _ room _ hs
      exact hs.update_room rfl (fun _ => rfl) rfl fun _ _ => ⟨rfl, rfl⟩
    | seed _ _ => exact hm

theorem RoomsMatch.drift {h h' : Hotel} (hm : RoomsMatch h) (hdrift : Drift h h') :
    RoomsMatch h' := by
  cases hdrift with
  | cancelAgain _ _ _ =>
    apply hm.update (updatesOne _) rfl rfl rfl
    intro u _ hlive ln hln room hroom
    rcases hlive with hs | hs | hs <;> cases hs
  | rebookInactive stay _ _ _ _ =>
    apply hm.update (updatesOne _) rfl rfl rfl
    intro u _ _ ln hln room hroom
    rw [(stay.mem_lines hln).2] at hroom
    cases hroom
  | counters _ => exact hm

/-- An unused room may be changed in any way. -/
theorem RoomsMatch.update_unused {h h' : Hotel} {rid : UUID} (hm : RoomsMatch h)
    (hunused : h.Unused rid) (f : Room → Room) (hf : ∀ r, (f r).id = r.id)
    (hb : h'.bookings = h.bookings) (htoday : h'.today = h.today)
    (hrooms : h'.rooms = h.rooms.update rid f hf) (htypes : h'.roomTypes = h.roomTypes) :
    RoomsMatch h' := by
  refine hm.rooms hb htoday.ge ?_
  intro b hb hlive ln hln hdate room hroom hs
  refine hs.update_room (by rw [hrooms]; rfl) hf htypes ?_
  intro hrid
  rw [hrid] at hroom
  rw [htoday] at hdate
  exact absurd (hunused b hb hlive ln hln hroom) (not_lt.mpr hdate)

theorem RoomsMatch.removeRoom {h : Hotel} {r : Room} (hm : RoomsMatch h) (hunused : h.Unused r.id) :
    RoomsMatch (h.removeRoom r) :=
  hm.update_unused hunused (fun r => { r with deleted := true }) (fun _ => rfl) rfl rfl rfl rfl

theorem RoomsMatch.moveRoom {h : Hotel} {r : Room} (hm : RoomsMatch h) (hunused : h.Unused r.id)
    (rt : UUID) (name status : String) : RoomsMatch (h.moveRoom r rt name status) :=
  hm.update_unused hunused (fun r => { r with roomTypeId := rt, name := name, status := status })
    (fun _ => rfl) rfl rfl rfl rfl

end OpenPms
