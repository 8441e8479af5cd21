import TejkItIzi.ChatSystem
/-!
# The chat system stays consistent

`Consistent` ties the three containers of `chat_system` together: the rooms
under their names, the participants of each and the rooms each player counts
himself in. This module is about the containers alone; `ChatEffects.lean` shows
that the operations change them in these ways.

`unregister_me` breaks the agreement on the way: it empties the rooms one after
another and leaves the player's own set alone until the end. `RoomsOk c im` is
therefore stated for any relation `im` in the place of the players' own sets.
-/

namespace tejk_it_izi

open ProgLib

namespace ChatSystem

/-- `p` counts the room at `room` among his own. -/
def im_in (c : ChatSystem) (p : EntityPtr) (room : RoomPtr) : Prop :=
  ∃ e, c.entities p = some e ∧ room ∈ e.chatrooms_im_in

/-- The rooms are in order, if `im` tells who is in which. -/
structure RoomsOk (c : ChatSystem) (im : EntityPtr → RoomPtr → Prop) : Prop where
  stored : ∀ R room, c.active_chatrooms.lookup R = some room → ∃ r, c.rooms room = some r ∧ r.room_name = R
  active : ∀ room r, c.rooms room = some r → c.active_chatrooms.lookup r.room_name = some room
  registered : ∀ room r p, c.rooms room = some r → p ∈ r.participants → (c.entities p).isSome
  member_iff : ∀ room r p, c.rooms room = some r → (p ∈ r.participants ↔ im p room)
  live : ∀ p room, im p room → (c.rooms room).isSome

/-- A room is found under no other name. -/
theorem RoomsOk.name_of_lookup {c : ChatSystem} {im : EntityPtr → RoomPtr → Prop} (h : c.RoomsOk im) {R : Bytes}
    {room : RoomPtr} {r : Chatroom} (hl : c.active_chatrooms.lookup R = some room) (hr : c.rooms room = some r) :
    r.room_name = R := by
  obtain ⟨r', hr', hname⟩ := h.stored R room hl
  rw [hr] at hr'
  cases hr'
  exact hname

def NoEmptyRoom (c : ChatSystem) : Prop := ∀ room r, c.rooms room = some r → ∃ p, p ∈ r.participants

/-- Every active room is stored under its name and has participants, all of them
registered; its participants are those who count it among their rooms; and they
count no other rooms. -/
structure Consistent (c : ChatSystem) : Prop extends RoomsOk c c.im_in where
  no_empty_room : c.NoEmptyRoom

/-! ## Changes of the containers -/

/-- A room that nobody is in yet. -/
def add_room (c : ChatSystem) (room : RoomPtr) (room_name : Bytes) : ChatSystem :=
  { c with
    active_chatrooms := c.active_chatrooms.insert room_name room
    rooms := Function.update c.rooms room (some ⟨room_name, .empty⟩) }

def put_room (c : ChatSystem) (room : RoomPtr) (r : Chatroom) : ChatSystem :=
  { c with rooms := Function.update c.rooms room (some r) }

def put_entity (c : ChatSystem) (p : EntityPtr) (e : Option EntityData) : ChatSystem :=
  { c with entities := Function.update c.entities p e }

@[simp] theorem put_room_rooms (c : ChatSystem) (room : RoomPtr) (r : Chatroom) :
    (c.put_room room r).rooms = Function.update c.rooms room (some r) := rfl
@[simp] theorem put_room_active (c : ChatSystem) (room : RoomPtr) (r : Chatroom) :
    (c.put_room room r).active_chatrooms = c.active_chatrooms := rfl
@[simp] theorem put_room_entities (c : ChatSystem) (room : RoomPtr) (r : Chatroom) :
    (c.put_room room r).entities = c.entities := rfl
@[simp] theorem put_entity_rooms (c : ChatSystem) (p : EntityPtr) (e : Option EntityData) :
    (c.put_entity p e).rooms = c.rooms := rfl
@[simp] theorem put_entity_active (c : ChatSystem) (p : EntityPtr) (e : Option EntityData) :
    (c.put_entity p e).active_chatrooms = c.active_chatrooms := rfl
@[simp] theorem put_entity_entities (c : ChatSystem) (p : EntityPtr) (e : Option EntityData) :
    (c.put_entity p e).entities = Function.update c.entities p e := rfl

/-- `p` enters the room, on both sides. -/
def enter (c : ChatSystem) (p : EntityPtr) (room : RoomPtr) (r : Chatroom) (e : EntityData) : ChatSystem :=
  (c.put_room room { r with participants := r.participants.insert p }).put_entity p
    (some ⟨e.chatrooms_im_in.insert room⟩)

/-- The room loses `p`, and goes if nobody is left. -/
def depart (c : ChatSystem) (p : EntityPtr) (room : RoomPtr) : ChatSystem :=
  match c.rooms room with
  | none => c
  | some r =>
    if (r.participants.erase p).size = 0 then
      { c with
        active_chatrooms := c.active_chatrooms.erase r.room_name
        rooms := Function.update c.rooms room none }
    else c.put_room room { r with participants := r.participants.erase p }

variable {c : ChatSystem} {p q : EntityPtr} {room other : RoomPtr} {r : Chatroom} {e : EntityData}
  {im im' : EntityPtr → RoomPtr → Prop}

theorem RoomsOk.congr (h : c.RoomsOk im) (hi : ∀ q x, im q x ↔ im' q x) : c.RoomsOk im' := by
  have : im = im' := by funext q x; exact propext (hi q x)
  exact this ▸ h

/-- Rooms are told apart by their names. -/
theorem RoomsOk.room_unique (h : c.RoomsOk im) {r' : Chatroom} (h1 : c.rooms room = some r)
    (h2 : c.rooms other = some r') (hn : r.room_name = r'.room_name) : room = other := by
  have e1 := h.active _ _ h1
  have e2 := h.active _ _ h2
  rw [hn, e2] at e1
  exact (Option.some.inj e1).symm

theorem RoomsOk.add_room (h : c.RoomsOk im) {R : Bytes} (hR : c.active_chatrooms.lookup R = none)
    (hroom : c.rooms room = none) : (c.add_room room R).RoomsOk im where
  stored R' x hx := by
    by_cases hRR : R' = R
    · subst hRR
      rw [ChatSystem.add_room, AList.lookup_insert] at hx
      cases hx
      exact ⟨⟨R', .empty⟩, by simp [ChatSystem.add_room], rfl⟩
    · rw [ChatSystem.add_room, AList.lookup_insert_ne hRR] at hx
      obtain ⟨r, hr, hn⟩ := h.stored R' x hx
      have hne : x ≠ room := by rintro rfl; rw [hroom] at hr; cases hr
      exact ⟨r, by simpa [ChatSystem.add_room, hne] using hr, hn⟩
  active x r hx := by
    by_cases hxr : x = room
    · subst hxr
      simp only [ChatSystem.add_room, Function.update_self, Option.some.injEq] at hx
      subst hx
      exact AList.lookup_insert _
    · simp only [ChatSystem.add_room, Function.update_of_ne hxr] at hx
      have ha := h.active x r hx
      have hne : r.room_name ≠ R := by rintro he; rw [he, hR] at ha; cases ha
      rw [ChatSystem.add_room, AList.lookup_insert_ne hne]
      exact ha
  registered x r q hx hq := by
    by_cases hxr : x = room
    · subst hxr
      simp only [ChatSystem.add_room, Function.update_self, Option.some.injEq] at hx
      subst hx
      exact absurd hq (USet.not_mem_empty q)
    · simp only [ChatSystem.add_room, Function.update_of_ne hxr] at hx
      exact h.registered x r q hx hq
  member_iff x r q hx := by
    by_cases hxr : x = room
    · subst hxr
      simp only [ChatSystem.add_room, Function.update_self, Option.some.injEq] at hx
      subst hx
      refine ⟨fun hq => absurd hq (USet.not_mem_empty q), fun hi => ?_⟩
      have := h.live q x hi
      rw [hroom] at this
      cases this
    · simp only [ChatSystem.add_room, Function.update_of_ne hxr] at hx
      exact h.member_iff x r q hx
  live q x hi := by
    have hx := h.live q x hi
    have hxr : x ≠ room := by rintro rfl; rw [hroom] at hx; cases hx
    simpa [ChatSystem.add_room, hxr] using hx

/-- New participants of one room, where `im'` has them and is `im` elsewhere. -/
theorem RoomsOk.set_participants (h : c.RoomsOk im) (hr : c.rooms room = some r) {ps : USet EntityPtr}
    {entities : EntityPtr → Option EntityData} (hps : ∀ q, q ∈ ps ↔ im' q room)
    (hel : ∀ q x, x ≠ room → (im' q x ↔ im q x)) (hreg : ∀ q ∈ ps.elems, (entities q).isSome)
    (hent : ∀ q, (c.entities q).isSome → (entities q).isSome) :
    RoomsOk { c with rooms := Function.update c.rooms room (some { r with participants := ps }),
                     entities := entities } im' where
  stored R x hx := by
    obtain ⟨r', hr', hn⟩ := h.stored R x hx
    by_cases hxr : x = room
    · subst hxr
      rw [hr] at hr'
      cases hr'
      exact ⟨{ r with participants := ps }, by simp, hn⟩
    · exact ⟨r', by simpa [hxr] using hr', hn⟩
  active x r' hx := by
    by_cases hxr : x = room
    · subst hxr
      simp only [Function.update_self, Option.some.injEq] at hx
      subst hx
      exact h.active x r hr
    · simp only [Function.update_of_ne hxr] at hx
      exact h.active x r' hx
  registered x r' q hx hq := by
    by_cases hxr : x = room
    · subst hxr
      simp only [Function.update_self, Option.some.injEq] at hx
      subst hx
      exact hreg q hq
    · simp only [Function.update_of_ne hxr] at hx
      exact hent q (h.registered x r' q hx hq)
  member_iff x r' q hx := by
    by_cases hxr : x = room
    · subst hxr
      simp only [Function.update_self, Option.some.injEq] at hx
      subst hx
      exact hps q
    · simp only [Function.update_of_ne hxr] at hx
      rw [hel q x hxr]
      exact h.member_iff x r' q hx
  live q x hi := by
    by_cases hxr : x = room
    · subst hxr; simp
    · simpa [hxr] using h.live q x ((hel q x hxr).1 hi)

theorem RoomsOk.enter (h : c.RoomsOk im) (hr : c.rooms room = some r) :
    (c.enter p room r e).RoomsOk fun q x => (q = p ∧ x = room) ∨ im q x := by
  have hent (q : EntityPtr) (hq : (c.entities q).isSome) :
      (Function.update c.entities p (some ⟨e.chatrooms_im_in.insert room⟩) q).isSome := by
    by_cases hqp : q = p <;> simp [hqp, hq]
  refine h.set_participants hr ?_ ?_ ?_ hent
  · intro q
    simp [h.member_iff room r q hr]
  · intro q x hx
    simp [hx]
  · intro q hq
    rcases USet.mem_insert.1 hq with rfl | hq
    · simp
    · exact hent q (h.registered room r q hr hq)

theorem RoomsOk.depart (h : c.RoomsOk im) (hr : c.rooms room = some r) :
    (c.depart p room).RoomsOk fun q x => ¬ (q = p ∧ x = room) ∧ im q x := by
  have hm (q : EntityPtr) : q ∈ r.participants.erase p ↔ ¬ (q = p ∧ room = room) ∧ im q room := by
    simp [h.member_iff room r q hr]
  unfold ChatSystem.depart
  rw [hr]
  dsimp only
  split
  case isFalse =>
    refine h.set_participants hr hm (fun q x hx => by simp [hx]) ?_ (fun q hq => hq)
    intro q hq
    exact h.registered room r q hr (USet.mem_erase.1 hq).2
  case isTrue hz =>
    rw [USet.size_eq_zero] at hz
    have hne {x : RoomPtr} {r' : Chatroom} (hx : c.rooms x = some r') (hxr : x ≠ room) :
        r'.room_name ≠ r.room_name := fun hn => hxr (h.room_unique hx hr hn)
    have hup {x : RoomPtr} {r' : Chatroom} (hx : Function.update c.rooms room none x = some r') :
        x ≠ room ∧ c.rooms x = some r' := by
      by_cases hxr : x = room
      · subst hxr; simp at hx
      · exact ⟨hxr, by simpa [hxr] using hx⟩
    refine ⟨?_, ?_, ?_, ?_, ?_⟩
    · intro R x hx
      have hR : R ≠ r.room_name := by
        rintro rfl
        simp at hx
      rw [AList.lookup_erase_ne hR] at hx
      obtain ⟨r', hr', hn⟩ := h.stored R x hx
      have hxr : x ≠ room := by
        rintro rfl
        rw [hr] at hr'
        cases hr'
        exact hR hn.symm
      exact ⟨r', by simpa [hxr] using hr', hn⟩
    · intro x r' hx
      obtain ⟨hxr, hx⟩ := hup hx
      rw [AList.lookup_erase_ne (hne hx hxr)]
      exact h.active x r' hx
    · intro x r' q hx hq
      exact h.registered x r' q (hup hx).2 hq
    · intro x r' q hx
      obtain ⟨hxr, hx⟩ := hup hx
      simpa [hxr] using h.member_iff x r' q hx
    · -- Nobody else is in the room that goes.
      rintro q x ⟨hn, hi⟩
      have hxr : x ≠ room := by
        rintro rfl
        exact hz q ((hm q).2 ⟨hn, hi⟩)
      simpa [hxr] using h.live q x hi

/-- The relation only matters on the players who are there. -/
theorem RoomsOk.put_entity (h : c.RoomsOk im) {d : Option EntityData} (hd : d = none → ∀ x, ¬ im p x) :
    (c.put_entity p d).RoomsOk im where
  stored := h.stored
  active := h.active
  registered x r q hx hq := by
    have hr := h.registered x r q hx hq
    by_cases hqp : q = p
    · subst hqp
      have hd' : d ≠ none := fun hn => hd hn x ((h.member_iff x r q hx).1 hq)
      simpa [ChatSystem.put_entity] using Option.isSome_iff_ne_none.2 hd'
    · simpa [ChatSystem.put_entity, hqp] using hr
  member_iff := h.member_iff
  live := h.live

theorem NoEmptyRoom.enter (h : ∀ x r, x ≠ room → c.rooms x = some r → ∃ p, p ∈ r.participants) :
    (c.enter p room r e).NoEmptyRoom := by
  intro x r' hx
  by_cases hxr : x = room
  · subst hxr
    simp only [ChatSystem.enter, put_entity_rooms, put_room_rooms, Function.update_self, Option.some.injEq] at hx
    subst hx
    exact ⟨p, by simp⟩
  · simp only [ChatSystem.enter, put_entity_rooms, put_room_rooms, Function.update_of_ne hxr] at hx
    exact h x r' hxr hx

theorem NoEmptyRoom.depart (h : c.NoEmptyRoom) : (c.depart p room).NoEmptyRoom := by
  intro x r' hx
  cases hr : c.rooms room with
  | none =>
    simp only [ChatSystem.depart, hr] at hx
    exact h x r' hx
  | some r =>
    simp only [ChatSystem.depart, hr] at hx
    split at hx
    case isTrue hz =>
      by_cases hxr : x = room
      · subst hxr; simp at hx
      · exact h x r' (by simpa [hxr] using hx)
    case isFalse hz =>
      by_cases hxr : x = room
      · subst hxr
        simp only [put_room_rooms, Function.update_self, Option.some.injEq] at hx
        subst hx
        simpa [USet.size_eq_zero] using hz
      · exact h x r' (by simpa [hxr] using hx)

/-! ## Leaving every room -/

@[simp] theorem depart_entities (c : ChatSystem) (p : EntityPtr) (room : RoomPtr) :
    (c.depart p room).entities = c.entities := by
  unfold ChatSystem.depart
  split
  · rfl
  · split <;> rfl

theorem depart_rooms_ne (c : ChatSystem) (p : EntityPtr) (h : other ≠ room) :
    (c.depart p room).rooms other = c.rooms other := by
  unfold ChatSystem.depart
  split
  · rfl
  · split <;> simp [h]

def depart_all (c : ChatSystem) (p : EntityPtr) (l : List RoomPtr) : ChatSystem := l.foldl (·.depart p) c

theorem depart_all_cons (c : ChatSystem) (p : EntityPtr) (room : RoomPtr) (l : List RoomPtr) :
    c.depart_all p (room :: l) = (c.depart p room).depart_all p l := rfl

@[simp] theorem depart_all_entities (c : ChatSystem) (p : EntityPtr) (l : List RoomPtr) :
    (c.depart_all p l).entities = c.entities := by
  induction l generalizing c with
  | nil => rfl
  | cons room l ih => rw [depart_all_cons, ih, depart_entities]

/-- Without the first of his rooms, `p` is in the rest. -/
theorem im_rest {l : List RoomPtr} (hroom : room ∉ l) (hi : ∀ x, im p x ↔ x ∈ room :: l) (x : RoomPtr) :
    (¬ (p = p ∧ x = room) ∧ im p x) ↔ x ∈ l := by
  rw [hi x, List.mem_cons]
  constructor
  · rintro ⟨hn, rfl | hx⟩
    · exact absurd ⟨rfl, rfl⟩ hn
    · exact hx
  · exact fun hx => ⟨fun hn => hroom (hn.2 ▸ hx), .inr hx⟩

theorem RoomsOk.depart_all (h : c.RoomsOk im) {l : List RoomPtr} (hl : l.Nodup) (hi : ∀ x, im p x ↔ x ∈ l) :
    (c.depart_all p l).RoomsOk fun q x => q ≠ p ∧ im q x := by
  induction l generalizing c im with
  | nil =>
    refine h.congr fun q x => ⟨fun hq => ⟨?_, hq⟩, fun hq => hq.2⟩
    rintro rfl
    exact absurd ((hi x).1 hq) List.not_mem_nil
  | cons room l ih =>
    obtain ⟨hroom, hl⟩ := List.nodup_cons.1 hl
    obtain ⟨r, hr⟩ := Option.isSome_iff_exists.1 (h.live p room ((hi room).2 List.mem_cons_self))
    rw [depart_all_cons]
    refine (ih (h.depart hr) hl (im_rest hroom hi)).congr fun q x => ?_
    constructor
    · exact fun hq => ⟨hq.1, hq.2.2⟩
    · exact fun hq => ⟨hq.1, fun hn => hq.1 hn.1, hq.2⟩

theorem NoEmptyRoom.depart_all (h : c.NoEmptyRoom) (l : List RoomPtr) : (c.depart_all p l).NoEmptyRoom := by
  induction l generalizing c with
  | nil => exact h
  | cons room l ih => exact ih (NoEmptyRoom.depart h)

/-! ## Consistency is kept -/

theorem im_in_iff (he : c.entities p = some e) : c.im_in p room ↔ room ∈ e.chatrooms_im_in := by
  simp [im_in, he]

theorem im_in_put_entity_self : (c.put_entity p (some e)).im_in p room ↔ room ∈ e.chatrooms_im_in := by
  simp [im_in]

theorem im_in_put_entity_ne {d : Option EntityData} (h : q ≠ p) :
    (c.put_entity p d).im_in q room ↔ c.im_in q room := by
  simp [im_in, h]

theorem im_in_congr {c' : ChatSystem} (h : c.entities = c'.entities) : c.im_in p room ↔ c'.im_in p room := by
  simp [im_in, h]

theorem Consistent.register (h : c.Consistent) (hp : c.entities p = none) :
    (c.put_entity p (some ⟨.empty⟩)).Consistent where
  toRoomsOk := by
    refine (h.toRoomsOk.put_entity (by simp)).congr fun q x => ?_
    by_cases hq : q = p
    · subst hq
      rw [im_in_put_entity_self]
      simp [im_in, hp]
    · exact (im_in_put_entity_ne hq).symm
  no_empty_room := h.no_empty_room

theorem Consistent.unregister (h : c.Consistent) (he : c.entities p = some e) :
    ((c.depart_all p e.chatrooms_im_in.elems).put_entity p none).Consistent where
  toRoomsOk := by
    have hd := h.toRoomsOk.depart_all e.chatrooms_im_in.nodup fun x => im_in_iff he
    refine (hd.put_entity fun _ x hx => hx.1 rfl).congr fun q x => ?_
    by_cases hq : q = p
    · subst hq
      simp [im_in]
    · rw [im_in_put_entity_ne hq, im_in_congr (depart_all_entities c p _)]
      exact and_iff_right hq
  no_empty_room := NoEmptyRoom.depart_all h.no_empty_room _

theorem RoomsOk.enter_im (h : c.RoomsOk c.im_in) (he : c.entities p = some e) (hr : c.rooms room = some r) :
    (c.enter p room r e).RoomsOk (c.enter p room r e).im_in := by
  refine (h.enter hr).congr fun q x => ?_
  by_cases hq : q = p
  · subst hq
    rw [ChatSystem.enter, im_in_put_entity_self, im_in_iff he, USet.mem_insert]
    simp
  · rw [ChatSystem.enter, im_in_put_entity_ne hq, im_in_congr (put_room_entities c room _)]
    simp [hq]

theorem Consistent.enter (h : c.Consistent) (he : c.entities p = some e) (hr : c.rooms room = some r) :
    (c.enter p room r e).Consistent where
  toRoomsOk := h.toRoomsOk.enter_im he hr
  no_empty_room := NoEmptyRoom.enter fun x r _ hx => h.no_empty_room x r hx

theorem Consistent.enter_new (h : c.Consistent) (he : c.entities p = some e) {R : Bytes}
    (hR : c.active_chatrooms.lookup R = none) (hroom : c.rooms room = none) :
    ((c.add_room room R).enter p room ⟨R, .empty⟩ e).Consistent where
  toRoomsOk := by
    have ha : (c.add_room room R).RoomsOk (c.add_room room R).im_in := h.toRoomsOk.add_room hR hroom
    exact ha.enter_im he (by simp [ChatSystem.add_room])
  no_empty_room := by
    refine NoEmptyRoom.enter fun x r hx hr => ?_
    rw [ChatSystem.add_room] at hr
    exact h.no_empty_room x r (by simpa [hx] using hr)

theorem Consistent.leave (h : c.Consistent) (he : c.entities p = some e) (hr : c.rooms room = some r) :
    ((c.depart p room).put_entity p (some ⟨e.chatrooms_im_in.erase room⟩)).Consistent where
  toRoomsOk := by
    refine ((h.toRoomsOk.depart hr).put_entity (by simp)).congr fun q x => ?_
    by_cases hq : q = p
    · subst hq
      rw [im_in_put_entity_self, im_in_iff he, USet.mem_erase]
      simp
    · rw [im_in_put_entity_ne hq, im_in_congr (depart_entities c p room)]
      simp [hq]
  no_empty_room := NoEmptyRoom.depart h.no_empty_room

end ChatSystem

end tejk_it_izi
