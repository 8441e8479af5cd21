import TejkItIzi.ChatInvariants
/-!
# What the chat operations do

On a consistent chat system every operation returns. `effect_of` sums up, in
one case for each way an operation can go, the state it ends in and the packets
it sends; the theorems about runs split on these cases and never look at the
programs.
-/

namespace tejk_it_izi

open ProgLib

/-! ## The parts -/

/-- The world with this chat system, after these packets. -/
def World.after (w : World) (c : ChatSystem) (sent : List (EntityPtr × Packet)) : World :=
  { w with chat := c, notices := w.notices ++ sent }

@[simp] theorem World.after_chat (w : World) (c : ChatSystem) (ns : List (EntityPtr × Packet)) :
    (w.after c ns).chat = c := rfl

@[simp] theorem World.after_notices (w : World) (c : ChatSystem) (ns : List (EntityPtr × Packet)) :
    (w.after c ns).notices = w.notices ++ ns := rfl

@[simp] theorem World.after_registry (w : World) (c : ChatSystem) (ns : List (EntityPtr × Packet)) :
    (w.after c ns).registry = w.registry := rfl

@[simp] theorem World.after_after (w : World) (c c' : ChatSystem) (ns ns' : List (EntityPtr × Packet)) :
    (w.after c ns).after c' ns' = w.after c' (ns ++ ns') := by
  simp [World.after]

theorem World.after_self (w : World) : w.after w.chat [] = w := by simp [World.after]

/-- One packet to every participant. -/
def to_all (participants : USet EntityPtr) (pk : Packet) : List (EntityPtr × Packet) :=
  participants.elems.map fun q => (q, pk)

/-- What those who stay in a room hear when `p` goes. -/
def ChatSystem.farewell (c : ChatSystem) (p : EntityPtr) (room : RoomPtr) : List (EntityPtr × Packet) :=
  match c.rooms room with
  | none => []
  | some r => to_all (r.participants.erase p) (.user_left_chat r.room_name p.name)

/-- The periodic message of a room. -/
def ChatSystem.announcement (c : ChatSystem) (room : RoomPtr) : List (EntityPtr × Packet) :=
  match c.rooms room with
  | none => []
  | some r => to_all r.participants
      (.chat_msg r.room_name (chat_system.broadcast_sender r.room_name)
        (chat_system.broadcast_text r.participants.size))

namespace chat_system

variable {w : World} {p : EntityPtr} {room : RoomPtr} {r : Chatroom} {e : EntityData}
  {im : EntityPtr → RoomPtr → Prop}

theorem entity_at_run (h : w.chat.entities p = some e) : entity_at p w = .ok e w := by
  simp [entity_at, h]

theorem deref_run (h : w.chat.rooms room = some r) : deref room w = .ok r w := by
  simp [deref, h]

theorem notify_each_run (l : List EntityPtr) (pk : Packet) (h : ∀ q ∈ l, (w.chat.entities q).isSome) :
    (forM l fun q => do
      let _ ← entity_at q
      send_packet q pk) w = .ok () (w.after w.chat (l.map fun q => (q, pk))) := by
  induction l generalizing w with
  | nil => simp [World.after_self]
  | cons q l ih =>
    obtain ⟨e, he⟩ := Option.isSome_iff_exists.1 (h q List.mem_cons_self)
    have h1 : (do
        let _ ← entity_at q
        send_packet q pk) w = .ok () (w.after w.chat [(q, pk)]) := by
      rw [bind_ok (entity_at_run he)]
      rfl
    rw [List.forM_cons, bind_ok h1]
    refine (ih (w := w.after w.chat [(q, pk)]) fun q' hq' => h q' (List.mem_cons_of_mem _ hq')).trans ?_
    simp

theorem notify_all_run {ps : USet EntityPtr} (pk : Packet) (h : ∀ q ∈ ps.elems, (w.chat.entities q).isSome) :
    notify_all ps pk w = .ok () (w.after w.chat (to_all ps pk)) := notify_each_run ps.elems pk h

theorem set_room_run (w : World) (room : RoomPtr) (r : Chatroom) :
    set_room room r w = .ok () (w.after (w.chat.put_room room r) []) := by
  simp [set_room, World.after, ChatSystem.put_room]

theorem set_entity_run (w : World) (p : EntityPtr) (e : Option EntityData) :
    set_entity p e w = .ok () (w.after (w.chat.put_entity p e) []) := by
  simp [set_entity, World.after, ChatSystem.put_entity]

/-- Leaving a room in order: nothing fails, the room loses `p`, the others hear of it. -/
theorem unregister_from_chatroom_run (h : w.chat.RoomsOk im) (hi : im p room) (he : w.chat.entities p = some e)
    (hroom : room ∈ e.chatrooms_im_in) :
    unregister_from_chatroom p room w = .ok () (w.after (w.chat.depart p room) (w.chat.farewell p room)) := by
  obtain ⟨r, hr⟩ := Option.isSome_iff_exists.1 (h.live p room hi)
  have hp : p ∈ r.participants := (h.member_iff room r p hr).2 hi
  have hl := h.active room r hr
  unfold unregister_from_chatroom
  rw [bind_ok (deref_run hr), get_bind, bind_ok (cpp_assert_run (by simp [hl]) w), bind_ok (cpp_assert_run hp w),
    bind_ok (entity_at_run he), bind_ok (cpp_assert_run hroom w)]
  rw [bind_ok (set_room_run w room _)]
  split
  case isTrue hz =>
    have hnil : (r.participants.erase p).elems = [] := List.length_eq_zero_iff.1 hz
    simp [erase_room, hl, ChatSystem.depart, ChatSystem.farewell, hr, hz, to_all, hnil, World.after]
  case isFalse hz =>
    have hreg : ∀ q ∈ (r.participants.erase p).elems, (w.chat.entities q).isSome :=
      fun q hq => h.registered room r q hr (USet.mem_erase.1 hq).2
    refine (notify_all_run (w := w.after (w.chat.put_room room _) []) _ hreg).trans ?_
    simp [ChatSystem.depart, ChatSystem.farewell, hr, hz]

/-- One room after another; `p`'s own set stays as it is. -/
theorem leave_each_run {l : List RoomPtr} (hl : l.Nodup) (h : w.chat.RoomsOk im) (hi : ∀ x, im p x ↔ x ∈ l)
    (he : w.chat.entities p = some e) (hsub : ∀ x ∈ l, x ∈ e.chatrooms_im_in) :
    forM l (unregister_from_chatroom p) w =
      .ok () (w.after (w.chat.depart_all p l) (l.flatMap (w.chat.farewell p))) := by
  induction l generalizing w im with
  | nil => simp [ChatSystem.depart_all, World.after_self]
  | cons room l ih =>
    obtain ⟨hroom, hl⟩ := List.nodup_cons.1 hl
    have hir : im p room := (hi room).2 List.mem_cons_self
    obtain ⟨r, hr⟩ := Option.isSome_iff_exists.1 (h.live p room hir)
    have h1 := unregister_from_chatroom_run h hir he (hsub room List.mem_cons_self)
    -- The rooms still to come are as they were.
    have hsame : l.flatMap ((w.chat.depart p room).farewell p) = l.flatMap (w.chat.farewell p) := by
      refine List.flatMap_congr fun x hx => ?_
      have hne : x ≠ room := by rintro rfl; exact hroom hx
      simp [ChatSystem.farewell, ChatSystem.depart_rooms_ne _ _ hne]
    rw [List.forM_cons, bind_ok h1]
    refine (ih (w := w.after (w.chat.depart p room) (w.chat.farewell p room)) hl (h.depart hr)
      (ChatSystem.im_rest hroom hi) (by simpa using he) fun x hx => hsub x (List.mem_cons_of_mem _ hx)).trans ?_
    simp [ChatSystem.depart_all_cons, hsame]

theorem periodic_broadcast_run (h : w.chat.RoomsOk im) :
    periodic_broadcast w =
      .ok () (w.after w.chat (w.chat.active_chatrooms.entries.flatMap fun x => w.chat.announcement x.2)) := by
  unfold periodic_broadcast
  rw [get_bind]
  have hmem : ∀ x ∈ w.chat.active_chatrooms.entries, ∃ r, w.chat.rooms x.2 = some r := by
    rintro ⟨R, room⟩ hx
    obtain ⟨r, hr, _⟩ := h.stored R room (AList.mem_lookup_iff.2 hx)
    exact ⟨r, hr⟩
  generalize w.chat.active_chatrooms.entries = l at hmem
  induction l generalizing w with
  | nil => simp [World.after_self]
  | cons x l ih =>
    obtain ⟨r, hr⟩ := hmem x List.mem_cons_self
    have hreg : ∀ q ∈ r.participants.elems, (w.chat.entities q).isSome :=
      fun q hq => h.registered x.2 r q hr hq
    have h1 := notify_all_run (.chat_msg r.room_name (broadcast_sender r.room_name)
      (broadcast_text r.participants.size)) hreg
    rw [List.forM_cons, bind_ok ((bind_ok (deref_run hr) _).trans h1)]
    refine (ih (w := w.after w.chat _) h fun y hy => hmem y (List.mem_cons_of_mem _ hy)).trans ?_
    simp [ChatSystem.announcement, hr]

end chat_system

/-! ## The operations -/

/-- A call of `chat_system`. -/
inductive ChatOp where
  | register_me (p : EntityPtr)
  | unregister_me (p : EntityPtr)
  | join_chatroom (p : EntityPtr) (room_name : Bytes)
  | leave_chatroom (p : EntityPtr) (room_name : Bytes)
  | broadcast_message (p : EntityPtr) (room_name msg : Bytes)
  | whisper (p : EntityPtr) (recipient msg : Bytes)
  | periodic_broadcast

def ChatOp.run : ChatOp → WorldM Unit
  | .register_me p => chat_system.register_me p
  | .unregister_me p => chat_system.unregister_me p
  | .join_chatroom p R => chat_system.join_chatroom p R
  | .leave_chatroom p R => chat_system.leave_chatroom p R
  | .broadcast_message p R msg => chat_system.broadcast_message p R msg
  | .whisper p recipient msg => chat_system.whisper p recipient msg
  | .periodic_broadcast => chat_system.periodic_broadcast

/-- Register only whoever is not registered, call the rest only for those who
are; the player registry is left before the chat; the allocator hands out free
addresses. -/
def ChatOp.Permitted (w : World) : ChatOp → Prop
  | .register_me p => w.chat.entities p = none
  | .unregister_me p => (w.chat.entities p).isSome ∧ ∀ n, w.registry.name_to_character n ≠ some p
  | .leave_chatroom p _ | .broadcast_message p _ _ | .whisper p _ _ => (w.chat.entities p).isSome
  | .join_chatroom p _ => (w.chat.entities p).isSome ∧ w.chat.rooms w.env.new_room = none
  | .periodic_broadcast => True

/-- The room stored under a name. -/
def ChatSystem.chatroom (c : ChatSystem) (room_name : Bytes) : Option Chatroom :=
  (c.active_chatrooms.lookup room_name).bind c.rooms

/-- Who is in the room of this name. -/
def ChatSystem.members (c : ChatSystem) (room_name : Bytes) : Finset EntityPtr :=
  match c.chatroom room_name with
  | none => ∅
  | some r => r.participants.toFinset

/-- The ways a call can go, with the chat system it leaves and what it sends. -/
inductive ChatEffect (w : World) : ChatOp → ChatSystem → List (EntityPtr × Packet) → Prop
  -- Coming into no room, and leaving all of them.
  | register_me (p) : w.chat.entities p = none →
    ChatEffect w (.register_me p) (w.chat.put_entity p (some ⟨.empty⟩)) []
  | unregister_me (p e) : w.chat.entities p = some e →
    ChatEffect w (.unregister_me p) ((w.chat.depart_all p e.chatrooms_im_in.elems).put_entity p none)
      (e.chatrooms_im_in.elems.flatMap (w.chat.farewell p))
  -- Join: one's own room, another, or a new one.
  | join_again (p R) : p ∈ w.chat.members R → ChatEffect w (.join_chatroom p R) w.chat []
  | join (p e R room r) : w.chat.entities p = some e → w.chat.active_chatrooms.lookup R = some room →
    w.chat.rooms room = some r → p ∉ r.participants →
    ChatEffect w (.join_chatroom p R) (w.chat.enter p room r e)
      (to_all (r.participants.insert p) (.user_joined_chat R p.name))
  | join_new (p e R room) : w.chat.entities p = some e → w.chat.active_chatrooms.lookup R = none →
    w.chat.rooms room = none →
    ChatEffect w (.join_chatroom p R) ((w.chat.add_room room R).enter p room ⟨R, .empty⟩ e)
      (to_all (USet.empty.insert p) (.user_joined_chat R p.name))
  -- Leave, and speak: nothing, unless one is in the room.
  | leave_absent (p R) : p ∉ w.chat.members R → ChatEffect w (.leave_chatroom p R) w.chat []
  | leave (p e R room r) : w.chat.entities p = some e → w.chat.active_chatrooms.lookup R = some room →
    w.chat.rooms room = some r → p ∈ r.participants →
    ChatEffect w (.leave_chatroom p R)
      ((w.chat.depart p room).put_entity p (some ⟨e.chatrooms_im_in.erase room⟩)) (w.chat.farewell p room)
  | broadcast_absent (p R msg) : p ∉ w.chat.members R → ChatEffect w (.broadcast_message p R msg) w.chat []
  | broadcast (p R msg room r) : w.chat.active_chatrooms.lookup R = some room → w.chat.rooms room = some r →
    p ∈ r.participants →
    ChatEffect w (.broadcast_message p R msg) w.chat (to_all r.participants (.chat_msg r.room_name p.name msg))
  -- Whisper: to somebody else who is online.
  | whisper_lost (p recipient msg) : (∀ q, w.registry.name_to_character recipient = some q → q = p) →
    ChatEffect w (.whisper p recipient msg) w.chat []
  | whisper (p recipient msg q) : w.registry.name_to_character recipient = some q → q ≠ p →
    ChatEffect w (.whisper p recipient msg) w.chat [(q, .whisper_message p.name msg)]
  | periodic_broadcast :
    ChatEffect w .periodic_broadcast w.chat
      (w.chat.active_chatrooms.entries.flatMap fun x => w.chat.announcement x.2)

theorem ChatSystem.mem_members {c : ChatSystem} {p : EntityPtr} {R : Bytes} {room : RoomPtr} {r : Chatroom}
    (hl : c.active_chatrooms.lookup R = some room) (hr : c.rooms room = some r) :
    p ∈ c.members R ↔ p ∈ r.participants := by
  simp [ChatSystem.members, ChatSystem.chatroom, hl, hr]

theorem ChatSystem.room_of_mem {c : ChatSystem} {p : EntityPtr} {R : Bytes} (h : p ∈ c.members R) :
    ∃ room r, c.active_chatrooms.lookup R = some room ∧ c.rooms room = some r ∧ p ∈ r.participants := by
  unfold ChatSystem.members ChatSystem.chatroom at h
  split at h
  case h_1 => exact absurd h (Finset.notMem_empty p)
  case h_2 r hr =>
    obtain ⟨room, hl, hr⟩ := Option.bind_eq_some_iff.1 hr
    exact ⟨room, r, hl, hr, h⟩

theorem ChatSystem.members_of_lookup_none {c : ChatSystem} {R : Bytes} (hl : c.active_chatrooms.lookup R = none) :
    c.members R = ∅ := by
  simp [ChatSystem.members, ChatSystem.chatroom, hl]

namespace chat_system

variable {w : World} {p : EntityPtr} {R : Bytes} {e : EntityData}

theorem unregister_me_run (h : w.chat.Consistent) (he : w.chat.entities p = some e) :
    unregister_me p w =
      .ok () (w.after ((w.chat.depart_all p e.chatrooms_im_in.elems).put_entity p none)
        (e.chatrooms_im_in.elems.flatMap (w.chat.farewell p))) := by
  unfold unregister_me
  rw [get_bind, bind_ok (cpp_assert_run (by simp [he]) w), bind_ok (entity_at_run he),
    bind_ok (leave_each_run e.chatrooms_im_in.nodup h.toRoomsOk (fun _ => ChatSystem.im_in_iff he) he
      fun _ hx => hx)]
  exact (set_entity_run _ _ _).trans (by simp)

/-- The part of `join_chatroom` after the room is found or made. -/
theorem enter_run (h : w.chat.RoomsOk w.chat.im_in) (he : w.chat.entities p = some e) {room : RoomPtr}
    {r : Chatroom} (hr : w.chat.rooms room = some r) (hp : p ∉ r.participants) :
    (do
      let r ← deref room
      if p ∈ r.participants then return
      let participants := r.participants.insert p
      set_room room { r with participants := participants }
      notify_all participants (.user_joined_chat R p.name)
      let e ← entity_at p
      cpp_assert (room ∉ e.chatrooms_im_in)
      set_entity p (some ⟨e.chatrooms_im_in.insert room⟩) : WorldM Unit) w =
    .ok () (w.after (w.chat.enter p room r e) (to_all (r.participants.insert p) (.user_joined_chat R p.name))) := by
  have hreg : ∀ q ∈ (r.participants.insert p).elems, (w.chat.entities q).isSome := by
    intro q hq
    rcases USet.mem_insert.1 hq with rfl | hq
    · simp [he]
    · exact h.registered room r q hr hq
  have hnot : room ∉ e.chatrooms_im_in := fun hx =>
    hp ((h.member_iff room r p hr).2 ((ChatSystem.im_in_iff he).2 hx))
  have hall := notify_all_run (w := w.after (w.chat.put_room room ⟨r.room_name, r.participants.insert p⟩) [])
    (.user_joined_chat R p.name) hreg
  simp only [World.after_chat, World.after_after, List.nil_append] at hall
  rw [bind_ok (deref_run hr)]
  simp only [hp, if_false]
  rw [bind_ok (set_room_run _ _ _), bind_ok hall,
    bind_ok (entity_at_run (w := w.after (w.chat.put_room room _) _) he), bind_ok (cpp_assert_run hnot _)]
  exact (set_entity_run _ _ _).trans (by simp [ChatSystem.enter])

theorem join_again_run (he : (w.chat.entities p).isSome) (hp : p ∈ w.chat.members R) :
    join_chatroom p R w = .ok () w := by
  obtain ⟨room, r, hl, hr, hp'⟩ := ChatSystem.room_of_mem hp
  simp [join_chatroom, bind_ok (cpp_assert_run he w), hl, bind_ok (deref_run hr), hp']

theorem join_chatroom_run (h : w.chat.Consistent) (he : w.chat.entities p = some e) {room : RoomPtr} {r : Chatroom}
    (hl : w.chat.active_chatrooms.lookup R = some room) (hr : w.chat.rooms room = some r)
    (hp : p ∉ r.participants) :
    join_chatroom p R w =
      .ok () (w.after (w.chat.enter p room r e) (to_all (r.participants.insert p) (.user_joined_chat R p.name))) := by
  have hs : (w.chat.entities p).isSome := by simp [he]
  unfold join_chatroom
  rw [get_bind, bind_ok (cpp_assert_run hs w), get_bind, hl]
  exact enter_run h.toRoomsOk he hr hp

theorem join_new_run (h : w.chat.Consistent) (he : w.chat.entities p = some e)
    (hl : w.chat.active_chatrooms.lookup R = none) (hroom : w.chat.rooms w.env.new_room = none) :
    join_chatroom p R w =
      .ok () (w.after ((w.chat.add_room w.env.new_room R).enter p w.env.new_room ⟨R, .empty⟩ e)
        (to_all (USet.empty.insert p) (.user_joined_chat R p.name))) := by
  have hs : (w.chat.entities p).isSome := by simp [he]
  have hmake : emplace_room R w = .ok w.env.new_room (w.after (w.chat.add_room w.env.new_room R) []) := by
    simp only [World.after, List.append_nil]
    rfl
  have ha : (w.chat.add_room w.env.new_room R).RoomsOk (w.chat.add_room w.env.new_room R).im_in :=
    h.toRoomsOk.add_room hl hroom
  unfold join_chatroom
  rw [get_bind, bind_ok (cpp_assert_run hs w), get_bind, hl]
  refine (bind_ok hmake _).trans ?_
  refine (enter_run (w := w.after (w.chat.add_room w.env.new_room R) []) ha he
    (r := ⟨R, .empty⟩) (by simp [ChatSystem.add_room]) (by simp)).trans ?_
  simp

/-- A room that is named but not entered is left alone. -/
theorem absent_run (he : (w.chat.entities p).isSome) (h : w.chat.Consistent) (hp : p ∉ w.chat.members R) :
    leave_chatroom p R w = .ok () w ∧ ∀ msg, broadcast_message p R msg w = .ok () w := by
  cases hl : w.chat.active_chatrooms.lookup R with
  | none =>
    simp [leave_chatroom, broadcast_message, bind_ok (cpp_assert_run he w), hl]
  | some room =>
    obtain ⟨r, hr, _⟩ := h.stored R room hl
    have hp' : p ∉ r.participants := fun hx => hp ((ChatSystem.mem_members hl hr).2 hx)
    simp [leave_chatroom, broadcast_message, bind_ok (cpp_assert_run he w), hl, bind_ok (deref_run hr), hp']

theorem leave_chatroom_run (h : w.chat.Consistent) (he : w.chat.entities p = some e) {room : RoomPtr}
    {r : Chatroom} (hl : w.chat.active_chatrooms.lookup R = some room) (hr : w.chat.rooms room = some r)
    (hp : p ∈ r.participants) :
    leave_chatroom p R w =
      .ok () (w.after ((w.chat.depart p room).put_entity p (some ⟨e.chatrooms_im_in.erase room⟩))
        (w.chat.farewell p room)) := by
  have hs : (w.chat.entities p).isSome := by simp [he]
  have hi : w.chat.im_in p room := (h.member_iff room r p hr).1 hp
  have hroom : room ∈ e.chatrooms_im_in := (ChatSystem.im_in_iff he).1 hi
  have he' : (w.after (w.chat.depart p room) (w.chat.farewell p room)).chat.entities p = some e := by simpa using he
  unfold leave_chatroom
  rw [get_bind, bind_ok (cpp_assert_run hs w), get_bind, hl]
  simp only [bind_ok (deref_run hr), hp, not_true, if_false]
  rw [bind_ok (unregister_from_chatroom_run h.toRoomsOk hi he hroom), bind_ok (entity_at_run he'),
    bind_ok (cpp_assert_run hroom _)]
  exact (set_entity_run _ _ _).trans (by simp)

theorem broadcast_message_run (h : w.chat.Consistent) (he : w.chat.entities p = some e) {room : RoomPtr}
    {r : Chatroom} (hl : w.chat.active_chatrooms.lookup R = some room) (hr : w.chat.rooms room = some r)
    (hp : p ∈ r.participants) (msg : Bytes) :
    broadcast_message p R msg w = .ok () (w.after w.chat (to_all r.participants (.chat_msg r.room_name p.name msg))) := by
  have hs : (w.chat.entities p).isSome := by simp [he]
  have hroom : room ∈ e.chatrooms_im_in := (ChatSystem.im_in_iff he).1 ((h.member_iff room r p hr).1 hp)
  have hreg : ∀ q ∈ r.participants.elems, (w.chat.entities q).isSome := fun q hq => h.registered room r q hr hq
  unfold broadcast_message
  rw [get_bind, bind_ok (cpp_assert_run hs w), get_bind, hl]
  simp only [bind_ok (deref_run hr), hp, not_true, if_false]
  rw [bind_ok (entity_at_run he), bind_ok (cpp_assert_run hroom _)]
  exact notify_all_run _ hreg

theorem whisper_run (he : (w.chat.entities p).isSome)
    (hreg : ∀ n q, w.registry.name_to_character n = some q → (w.chat.entities q).isSome) (recipient msg : Bytes) :
    (whisper p recipient msg w = .ok () w ∧
      ∀ q, w.registry.name_to_character recipient = some q → q = p) ∨
    ∃ q, w.registry.name_to_character recipient = some q ∧ q ≠ p ∧
      whisper p recipient msg w = .ok () (w.after w.chat [(q, .whisper_message p.name msg)]) := by
  have hfind : world_registrar.find_online_player_by_name recipient w =
      .ok (w.registry.name_to_character recipient) w := rfl
  unfold whisper
  rw [get_bind, bind_ok (cpp_assert_run he w), bind_ok hfind]
  cases hq : w.registry.name_to_character recipient with
  | none => exact .inl ⟨rfl, by simp⟩
  | some q =>
    by_cases hqp : q = p
    · exact .inl ⟨by simp [hqp], by simp [hqp]⟩
    · obtain ⟨e, he'⟩ := Option.isSome_iff_exists.1 (hreg recipient q hq)
      refine .inr ⟨q, rfl, hqp, ?_⟩
      simp only [hqp, if_false]
      rw [get_bind, bind_ok (cpp_assert_run (hreg recipient q hq) w), bind_ok (entity_at_run he')]
      rfl

/-- A permitted call returns and goes one of the ways listed. -/
theorem effect_of (h : w.chat.Consistent)
    (hreg : ∀ n q, w.registry.name_to_character n = some q → (w.chat.entities q).isSome) {op : ChatOp}
    (hop : op.Permitted w) : ∃ c ns, ChatEffect w op c ns ∧ op.run w = .ok () (w.after c ns) := by
  cases op with
  | register_me p =>
    refine ⟨_, _, .register_me p hop, ?_⟩
    have hn : w.chat.entities p = none := hop
    simp only [ChatOp.run, register_me, get_bind]
    rw [bind_ok (cpp_assert_run (by simp [hn]) w)]
    exact set_entity_run w p _
  | unregister_me p =>
    obtain ⟨e, he⟩ := Option.isSome_iff_exists.1 hop.1
    exact ⟨_, _, .unregister_me p e he, unregister_me_run h he⟩
  | join_chatroom p R =>
    obtain ⟨hs, hnew⟩ := hop
    obtain ⟨e, he⟩ := Option.isSome_iff_exists.1 hs
    by_cases hp : p ∈ w.chat.members R
    · exact ⟨_, _, .join_again p R hp, by simpa [ChatOp.run, World.after_self] using join_again_run hs hp⟩
    cases hl : w.chat.active_chatrooms.lookup R with
    | none => exact ⟨_, _, .join_new p e R _ he hl hnew, join_new_run h he hl hnew⟩
    | some room =>
      obtain ⟨r, hr, _⟩ := h.stored R room hl
      have hp' : p ∉ r.participants := fun hx => hp ((ChatSystem.mem_members hl hr).2 hx)
      exact ⟨_, _, .join p e R room r he hl hr hp', join_chatroom_run h he hl hr hp'⟩
  | leave_chatroom p R =>
    obtain ⟨e, he⟩ := Option.isSome_iff_exists.1 hop
    by_cases hp : p ∈ w.chat.members R
    · obtain ⟨room, r, hl, hr, hp'⟩ := ChatSystem.room_of_mem hp
      exact ⟨_, _, .leave p e R room r he hl hr hp', leave_chatroom_run h he hl hr hp'⟩
    · exact ⟨_, _, .leave_absent p R hp, by simpa [ChatOp.run, World.after_self] using (absent_run hop h hp).1⟩
  | broadcast_message p R msg =>
    obtain ⟨e, he⟩ := Option.isSome_iff_exists.1 hop
    by_cases hp : p ∈ w.chat.members R
    · obtain ⟨room, r, hl, hr, hp'⟩ := ChatSystem.room_of_mem hp
      exact ⟨_, _, .broadcast p R msg room r hl hr hp', broadcast_message_run h he hl hr hp' msg⟩
    · exact ⟨_, _, .broadcast_absent p R msg hp,
        by simpa [ChatOp.run, World.after_self] using (absent_run hop h hp).2 msg⟩
  | whisper p recipient msg =>
    rcases whisper_run hop hreg recipient msg with ⟨hw, hlost⟩ | ⟨q, hq, hqp, hw⟩
    · exact ⟨_, _, .whisper_lost p recipient msg hlost, by simpa [ChatOp.run, World.after_self] using hw⟩
    · exact ⟨_, _, .whisper p recipient msg q hq hqp, hw⟩
  | periodic_broadcast => exact ⟨_, _, .periodic_broadcast, periodic_broadcast_run h.toRoomsOk⟩

end chat_system

end tejk_it_izi
