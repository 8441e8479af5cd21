import TejkItIzi.ChatMembership
import TejkItIzi.Lib.Groups
/-!
# Who hears what in the chat rooms

The chat system implements the groups of `Lib/Groups.lean`: the participants of
the rooms are the members, and the packets about a room that a call sends to a
player are what he is told. The result about a whole stay in a room follows.
-/

namespace tejk_it_izi

open ProgLib

/-! ## Packets about a room -/

/-- The room a packet speaks of. -/
def Packet.chatroom : Packet → Option Bytes
  | .user_joined_chat c _ => some c
  | .user_left_chat c _ => some c
  | .chat_msg c _ _ => some c
  | _ => none

/-- The packets about `R` among those sent to `p`, in order. -/
def heard (p : EntityPtr) (R : Bytes) (sent : List (EntityPtr × Packet)) : List Packet :=
  (sent.filter fun x => x.1 = p ∧ x.2.chatroom = some R).map (·.2)

variable {p q : EntityPtr} {R : Bytes}

@[simp] theorem heard_nil : heard p R [] = [] := rfl

theorem heard_flatMap {α : Type} (l : List α) (f : α → List (EntityPtr × Packet)) :
    heard p R (l.flatMap f) = l.flatMap fun a => heard p R (f a) := by
  simp [heard, List.filter_flatMap, List.map_flatMap]

theorem heard_singleton (pk : Packet) :
    heard p R [(q, pk)] = if q = p ∧ pk.chatroom = some R then [pk] else [] := by
  unfold heard
  split <;> simp_all

/-- A packet to all participants reaches each of them once. -/
theorem heard_to_all (ps : USet EntityPtr) (pk : Packet) :
    heard p R (to_all ps pk) = if p ∈ ps ∧ pk.chatroom = some R then [pk] else [] := by
  have heach : to_all ps pk = ps.elems.flatMap fun q => [(q, pk)] := List.map_eq_flatMap
  rw [heach, heard_flatMap]
  by_cases hp : p ∈ ps
  · rw [flatMap_eq_of_single ps.nodup (USet.mem_elems.2 hp) fun q _ hq => by simp [heard_singleton, hq]]
    simp [heard_singleton, hp]
  · rw [List.flatMap_eq_nil_iff.2 fun q hq => ?_]
    · simp [hp]
    · have hqp : q ≠ p := by rintro rfl; exact hp hq
      simp [heard_singleton, hqp]

/-! ## Members -/

namespace ChatSystem

variable {c c' : ChatSystem} {im im' : EntityPtr → RoomPtr → Prop} {room : RoomPtr} {r : Chatroom} {e : EntityData}

theorem RoomsOk.mem_members_iff (h : c.RoomsOk im) :
    q ∈ c.members R ↔ ∃ x r, c.rooms x = some r ∧ r.room_name = R ∧ im q x := by
  constructor
  · intro hq
    obtain ⟨x, r, hl, hr, hp⟩ := room_of_mem hq
    exact ⟨x, r, hr, h.name_of_lookup hl hr, (h.member_iff x r q hr).1 hp⟩
  · rintro ⟨x, r, hr, rfl, hi⟩
    exact (mem_members (h.active x r hr) hr).2 ((h.member_iff x r q hr).2 hi)

theorem depart_names {x : RoomPtr} {r' : Chatroom} (hx : (c.depart p room).rooms x = some r') :
    ∃ r, c.rooms x = some r ∧ r.room_name = r'.room_name := by
  by_cases hxr : x = room
  · subst hxr
    cases hr : c.rooms x with
    | none => simp [ChatSystem.depart, hr] at hx
    | some r =>
      simp only [ChatSystem.depart, hr] at hx
      split at hx
      · simp at hx
      · simp only [put_room_rooms, Function.update_self, Option.some.injEq] at hx
        exact ⟨r, rfl, by rw [← hx]⟩
  · rw [depart_rooms_ne _ _ hxr] at hx
    exact ⟨r', hx, rfl⟩

theorem depart_all_names {l : List RoomPtr} {x : RoomPtr} {r' : Chatroom}
    (hx : (c.depart_all p l).rooms x = some r') : ∃ r, c.rooms x = some r ∧ r.room_name = r'.room_name := by
  induction l generalizing c with
  | nil => exact ⟨r', hx, rfl⟩
  | cons room l ih =>
    obtain ⟨r, hr, hn⟩ := ih hx
    obtain ⟨r0, hr0, hn0⟩ := depart_names hr
    exact ⟨r0, hr0, hn0.trans hn⟩

/-- When rooms only go, their names decide who is left in which. -/
theorem mem_members_of_names (h : c'.RoomsOk im')
    (hn : ∀ x r', c'.rooms x = some r' → ∃ r, c.rooms x = some r ∧ r.room_name = r'.room_name) :
    q ∈ c'.members R ↔ ∃ x r, c.rooms x = some r ∧ r.room_name = R ∧ im' q x := by
  rw [h.mem_members_iff]
  constructor
  · rintro ⟨x, r', hr', rfl, hi⟩
    obtain ⟨r, hr, he⟩ := hn x r' hr'
    exact ⟨x, r, hr, he, hi⟩
  · rintro ⟨x, r, hr, rfl, hi⟩
    obtain ⟨r', hr'⟩ := Option.isSome_iff_exists.1 (h.live q x hi)
    obtain ⟨r0, hr0, he⟩ := hn x r' hr'
    rw [hr] at hr0
    cases hr0
    exact ⟨x, r', hr', he.symm, hi⟩

theorem RoomsOk.members_depart (h : c.RoomsOk im) (hr : c.rooms room = some r) :
    (c.depart p room).members R = if R = r.room_name then (c.members R).erase p else c.members R := by
  ext q
  rw [mem_members_of_names (h.depart hr) fun _ _ => depart_names]
  have hcond : (∃ x r', c.rooms x = some r' ∧ r'.room_name = R ∧ ¬ (q = p ∧ x = room) ∧ im q x) ↔
      q ∈ c.members R ∧ ¬ (q = p ∧ R = r.room_name) := by
    rw [h.mem_members_iff]
    constructor
    · rintro ⟨x, r', hx, rfl, hn, hi⟩
      exact ⟨⟨x, r', hx, rfl, hi⟩, fun he => hn ⟨he.1, h.room_unique hx hr he.2⟩⟩
    · rintro ⟨⟨x, r', hx, rfl, hi⟩, hn⟩
      refine ⟨x, r', hx, rfl, fun he => hn ⟨he.1, ?_⟩, hi⟩
      obtain ⟨-, rfl⟩ := he
      rw [hr] at hx
      rw [Option.some.inj hx]
  rw [hcond]
  split <;> simp_all [and_comm]

theorem RoomsOk.members_depart_all (h : c.RoomsOk im) {l : List RoomPtr} (hl : l.Nodup)
    (hi : ∀ x, im p x ↔ x ∈ l) : (c.depart_all p l).members R = (c.members R).erase p := by
  ext q
  rw [mem_members_of_names (h.depart_all hl hi) fun _ _ => depart_all_names, Finset.mem_erase, h.mem_members_iff]
  constructor
  · rintro ⟨x, r, hr, hn, hq, hi⟩
    exact ⟨hq, x, r, hr, hn, hi⟩
  · rintro ⟨hq, x, r, hr, hn, hi⟩
    exact ⟨x, r, hr, hn, hq, hi⟩

theorem RoomsOk.members_enter (h : c.RoomsOk im) (hr : c.rooms room = some r) :
    (c.enter p room r e).members R = if R = r.room_name then insert p (c.members R) else c.members R := by
  ext q
  have hcond : q ∈ (c.enter p room r e).members R ↔ (q = p ∧ R = r.room_name) ∨ q ∈ c.members R := by
    rw [(h.enter hr).mem_members_iff, h.mem_members_iff]
    have hname (x : RoomPtr) : (∃ r', (c.enter p room r e).rooms x = some r' ∧ r'.room_name = R) ↔
        ∃ r', c.rooms x = some r' ∧ r'.room_name = R := by
      by_cases hx : x = room
      · subst hx; simp [ChatSystem.enter, hr]
      · simp [ChatSystem.enter, hx]
    constructor
    · rintro ⟨x, r', hx, hn, hi⟩
      obtain ⟨r0, hr0, hn0⟩ := (hname x).1 ⟨r', hx, hn⟩
      rcases hi with ⟨rfl, rfl⟩ | hi
      · rw [hr] at hr0
        cases hr0
        exact .inl ⟨rfl, hn0.symm⟩
      · exact .inr ⟨x, r0, hr0, hn0, hi⟩
    · rintro (⟨rfl, rfl⟩ | ⟨x, r', hx, hn, hi⟩)
      · obtain ⟨r', hr', hn'⟩ := (hname room).2 ⟨r, hr, rfl⟩
        exact ⟨room, r', hr', hn', .inl ⟨rfl, rfl⟩⟩
      · obtain ⟨r0, hr0, hn0⟩ := (hname x).2 ⟨r', hx, hn⟩
        exact ⟨x, r0, hr0, hn0, .inr hi⟩
  rw [hcond]
  split <;> simp_all

end ChatSystem

/-! ## The rooms implement groups -/

def ChatOp.act : ChatOp → Groups.Act EntityPtr Bytes Bytes
  | .join_chatroom p R => .join p R
  | .leave_chatroom p R => .leave p R
  | .unregister_me p => .quit p
  | .broadcast_message p R msg => .say p R msg
  | .periodic_broadcast => .tick
  | .register_me _ | .whisper _ _ _ => .idle

/-- The packet that carries a piece of news about the room. -/
def packet_of (R : Bytes) : Groups.News EntityPtr Bytes → Packet
  | .joined q => .user_joined_chat R q.name
  | .left q => .user_left_chat R q.name
  | .said q msg => .chat_msg R q.name msg
  | .counted n => .chat_msg R (chat_system.broadcast_sender R) (chat_system.broadcast_text n)

section Effects

variable {w : World} {op : ChatOp} {c : ChatSystem} {ns : List (EntityPtr × Packet)}

theorem ChatEffect.members (h : ChatEffect w op c ns) (hc : w.chat.Consistent) :
    c.members = Groups.next w.chat.members op.act := by
  funext R
  cases h with
  | register_me p hp => rfl
  | unregister_me p e he =>
    exact hc.toRoomsOk.members_depart_all e.chatrooms_im_in.nodup fun _ => ChatSystem.im_in_iff he
  | join_again p R' hp =>
    simp only [ChatOp.act, Groups.next]
    split
    · rename_i hR; subst hR; rw [Finset.insert_eq_of_mem hp]
    · rfl
  | join p e R' room r he hl hr hp =>
    obtain rfl := hc.name_of_lookup hl hr
    exact hc.toRoomsOk.members_enter hr
  | join_new p e R' room he hl hroom =>
    have ha := hc.toRoomsOk.add_room hl hroom
    have hsame : (w.chat.add_room room R').members R = w.chat.members R := by
      by_cases hR : R = R'
      · subst hR
        rw [ChatSystem.members_of_lookup_none hl]
        simp [ChatSystem.members, ChatSystem.chatroom, ChatSystem.add_room, Finset.ext_iff]
      · have hne : ∀ x, w.chat.active_chatrooms.lookup R = some x → x ≠ room := by
          rintro x hx rfl
          obtain ⟨r, hr, _⟩ := hc.stored R x hx
          rw [hroom] at hr
          cases hr
        cases hx : w.chat.active_chatrooms.lookup R with
        | none => simp [ChatSystem.members, ChatSystem.chatroom, ChatSystem.add_room, hR, hx]
        | some x => simp [ChatSystem.members, ChatSystem.chatroom, ChatSystem.add_room, hR, hx, hne x hx]
    rw [ha.members_enter (r := ⟨R', .empty⟩) (by simp [ChatSystem.add_room]), hsame]
    rfl
  | leave_absent p R' hp =>
    simp only [ChatOp.act, Groups.next]
    split
    · rename_i hR; subst hR; rw [Finset.erase_eq_of_notMem hp]
    · rfl
  | leave p e R' room r he hl hr hp =>
    obtain rfl := hc.name_of_lookup hl hr
    exact hc.toRoomsOk.members_depart hr
  | broadcast_absent p R' msg hp => rfl
  | broadcast p R' msg room r hl hr hp => rfl
  | whisper_lost p recipient msg hq => rfl
  | whisper p recipient msg q hq hqp => rfl
  | periodic_broadcast => rfl

theorem heard_farewell {room : RoomPtr} {r : Chatroom} (hr : w.chat.rooms room = some r) :
    heard q R (w.chat.farewell p room) =
      if q ∈ r.participants.erase p ∧ r.room_name = R then [.user_left_chat R p.name] else [] := by
  simp only [ChatSystem.farewell, hr, heard_to_all, Packet.chatroom, Option.some.injEq]
  split
  · rename_i h; rw [h.2]
  · rfl

theorem heard_announcement {room : RoomPtr} {r : Chatroom} (hr : w.chat.rooms room = some r) :
    heard q R (w.chat.announcement room) =
      if q ∈ r.participants ∧ r.room_name = R then [packet_of R (.counted r.participants.size)] else [] := by
  simp only [ChatSystem.announcement, hr, heard_to_all, Packet.chatroom, Option.some.injEq, packet_of]
  split
  · rename_i h; rw [h.2]
  · rfl

/-- Leaving every room, `p` is heard once in each. -/
theorem heard_quit {e : EntityData} (hc : w.chat.Consistent) (he : w.chat.entities p = some e) :
    heard q R (e.chatrooms_im_in.elems.flatMap (w.chat.farewell p)) =
      (Groups.told w.chat.members (.quit p) q R).map (packet_of R) := by
  have hl (x : RoomPtr) : w.chat.im_in p x ↔ x ∈ e.chatrooms_im_in := ChatSystem.im_in_iff he
  rw [heard_flatMap]
  by_cases hp : p ∈ w.chat.members R
  · -- Only the room of that name counts.
    obtain ⟨room, r, hr, hn, hi⟩ := hc.toRoomsOk.mem_members_iff.1 hp
    have hmem := ChatSystem.mem_members (p := q) (hn ▸ hc.active room r hr) hr
    have hnews : Groups.news w.chat.members (.quit p : Groups.Act EntityPtr Bytes Bytes) R = [.left p] := if_pos hp
    rw [flatMap_eq_of_single e.chatrooms_im_in.nodup (USet.mem_elems.2 ((hl room).1 hi)) ?_, heard_farewell hr,
      Groups.map_told_of_news _ hnews]
    · simp [Groups.next, hmem, hn, packet_of]
    · intro x hx hne
      obtain ⟨r', hr'⟩ := Option.isSome_iff_exists.1 (hc.live p x ((hl x).2 hx))
      rw [heard_farewell hr', if_neg fun h => hne (hc.toRoomsOk.room_unique hr' hr (h.2.trans hn.symm))]
  · have hnews : Groups.news w.chat.members (.quit p : Groups.Act EntityPtr Bytes Bytes) R = [] := if_neg hp
    rw [List.flatMap_eq_nil_iff.2 ?_, Groups.told_of_no_news hnews]
    · rfl
    · intro x hx
      have hi := (hl x).2 hx
      obtain ⟨r, hr⟩ := Option.isSome_iff_exists.1 (hc.live p x hi)
      rw [heard_farewell hr, if_neg fun h => hp (hc.toRoomsOk.mem_members_iff.2 ⟨x, r, hr, h.2, hi⟩)]

/-- The periodic messages count each room once. -/
theorem heard_tick (hc : w.chat.Consistent) :
    heard q R (w.chat.active_chatrooms.entries.flatMap fun x => w.chat.announcement x.2) =
      (Groups.told w.chat.members .tick q R).map (packet_of R) := by
  have hroom : ∀ x ∈ w.chat.active_chatrooms.entries, ∃ r, w.chat.rooms x.2 = some r ∧ r.room_name = x.1 :=
    fun x hx => hc.stored x.1 x.2 (AList.mem_lookup_iff.2 hx)
  rw [heard_flatMap]
  cases hl : w.chat.active_chatrooms.lookup R with
  | none =>
    have hmem := ChatSystem.members_of_lookup_none hl
    rw [List.flatMap_eq_nil_iff.2 ?_]
    · simp [Groups.told, Groups.news, hmem]
    · intro x hx
      obtain ⟨r, hr, hn⟩ := hroom x hx
      rw [heard_announcement hr, if_neg]
      rintro ⟨_, rfl⟩
      rw [hn, AList.mem_lookup_iff.2 hx] at hl
      cases hl
  | some room =>
    have hx := AList.mem_lookup_iff.1 hl
    obtain ⟨r, hr, hn⟩ := hroom _ hx
    obtain ⟨p, hp⟩ := hc.no_empty_room room r hr
    have hmem (p : EntityPtr) := ChatSystem.mem_members (p := p) hl hr
    have hne : w.chat.members R ≠ ∅ := Finset.ne_empty_of_mem ((hmem p).2 hp)
    have hcard : (w.chat.members R).card = r.participants.size := by
      rw [← USet.card_toFinset]
      congr 1
      ext p
      exact hmem p
    have hnews : Groups.news w.chat.members (.tick : Groups.Act EntityPtr Bytes Bytes) R = [.counted r.participants.size] := by
      rw [← hcard]
      exact if_neg hne
    rw [flatMap_eq_of_single w.chat.active_chatrooms.nodupKeys.nodup hx ?_, heard_announcement hr,
      Groups.map_told_of_news _ hnews]
    · simp [Groups.next, hmem, hn]
    · rintro ⟨R', room'⟩ hy hne
      obtain ⟨r', hr', hn'⟩ := hroom _ hy
      rw [heard_announcement hr', if_neg]
      rintro ⟨_, hR⟩
      obtain rfl : R' = R := hn'.symm.trans hR
      rw [AList.mem_lookup_iff.2 hy] at hl
      cases hl
      exact hne rfl

/-- What a call sends to `q` about `R` is what `q` is told about the group `R`. -/
theorem ChatEffect.heard (h : ChatEffect w op c ns) (hc : w.chat.Consistent) :
    heard q R ns = (Groups.told w.chat.members op.act q R).map (packet_of R) := by
  cases h with
  | register_me p hp => rw [ChatOp.act, Groups.told_of_no_news Groups.news_idle]; rfl
  | unregister_me p e he => exact heard_quit hc he
  | join_again p R' hp => rw [ChatOp.act, Groups.told_of_no_news ((Groups.join_again hp).2 R)]; rfl
  | join p e R' room r he hl hr hp =>
    have hmem (p : EntityPtr) := ChatSystem.mem_members (p := p) hl hr
    by_cases hR : R = R'
    · subst hR
      have hnews : Groups.news w.chat.members (ChatOp.join_chatroom p R).act R = [.joined p] :=
        if_pos ⟨rfl, fun h => hp ((hmem p).1 h)⟩
      rw [Groups.map_told_of_news _ hnews]
      simp [Groups.next, ChatOp.act, hmem, heard_to_all, Packet.chatroom, packet_of]
    · simp [Groups.told, Groups.news, ChatOp.act, hR, heard_to_all, Packet.chatroom, Ne.symm hR]
  | join_new p e R' room he hl hroom =>
    have hmem := ChatSystem.members_of_lookup_none hl
    by_cases hR : R = R'
    · subst hR
      have hnews : Groups.news w.chat.members (ChatOp.join_chatroom p R).act R = [.joined p] :=
        if_pos ⟨rfl, by simp [hmem]⟩
      rw [Groups.map_told_of_news _ hnews]
      simp [Groups.next, ChatOp.act, hmem, heard_to_all, Packet.chatroom, packet_of]
    · simp [Groups.told, Groups.news, ChatOp.act, hR, heard_to_all, Packet.chatroom, Ne.symm hR]
  | leave_absent p R' hp => rw [ChatOp.act, Groups.told_of_no_news ((Groups.leave_absent hp).2 R)]; rfl
  | leave p e R' room r he hl hr hp =>
    have hmem (p : EntityPtr) := ChatSystem.mem_members (p := p) hl hr
    have hn := hc.name_of_lookup hl hr
    rw [heard_farewell hr]
    by_cases hR : R = R'
    · subst hR
      have hnews : Groups.news w.chat.members (ChatOp.leave_chatroom p R).act R = [.left p] :=
        if_pos ⟨rfl, (hmem p).2 hp⟩
      rw [Groups.map_told_of_news _ hnews]
      simp [Groups.next, ChatOp.act, hmem, hn, packet_of]
    · simp [Groups.told, Groups.news, ChatOp.act, hR, hn, Ne.symm hR]
  | broadcast_absent p R' msg hp => rw [ChatOp.act, Groups.told_of_no_news (Groups.say_absent hp R)]; rfl
  | broadcast p R' msg room r hl hr hp =>
    have hmem (p : EntityPtr) := ChatSystem.mem_members (p := p) hl hr
    have hn := hc.name_of_lookup hl hr
    by_cases hR : R = R'
    · subst hR
      have hnews : Groups.news w.chat.members (ChatOp.broadcast_message p R msg).act R = [.said p msg] :=
        if_pos ⟨rfl, (hmem p).2 hp⟩
      rw [Groups.map_told_of_news _ hnews]
      simp [Groups.next, ChatOp.act, hmem, hn, heard_to_all, Packet.chatroom, packet_of]
    · simp [Groups.told, Groups.news, ChatOp.act, hR, hn, heard_to_all, Packet.chatroom, Ne.symm hR]
  | whisper_lost p recipient msg hq => rw [ChatOp.act, Groups.told_of_no_news Groups.news_idle]; rfl
  | whisper p recipient msg q hq hqp =>
    rw [ChatOp.act, Groups.told_of_no_news Groups.news_idle]
    simp [heard_singleton, Packet.chatroom]
  | periodic_broadcast => exact heard_tick hc

end Effects

/-! ## Runs -/

def ChatEvent.act : ChatEvent → Groups.Act EntityPtr Bytes Bytes
  | .call op => op.act
  | .enter_registry _ | .leave_registry _ | .reorder => .idle

theorem World.Reorders.members {w w' : World} (h : w.Reorders w') : w'.chat.members = w.chat.members := by
  funext R
  unfold ChatSystem.members ChatSystem.chatroom
  rw [h.lookup]
  cases w.chat.active_chatrooms.lookup R with
  | none => rfl
  | some room =>
    have hrel := h.rooms room
    simp only [Option.bind_some]
    generalize w.chat.rooms room = x at hrel
    generalize w'.chat.rooms room = y at hrel
    cases hrel with
    | none => rfl
    | some hx => exact hx.2.toFinset

/-- One step: the members change and the packets go out as in the groups. -/
theorem chat_step_told {w w' : World} {ev : ChatEvent} (hi : ChatInv w) (hs : chatMachine.step w ev w') :
    w'.chat.members = Groups.next w.chat.members ev.act ∧
    ∀ p R, heard p R w'.notices = (Groups.told w.chat.members ev.act p R).map (packet_of R) := by
  cases ev with
  | call op =>
    obtain ⟨env, hop, hr⟩ := hs
    obtain ⟨c, ns, he, hrun⟩ := chat_system.effect_of (w := w.begin env) hi.consistent hi.registry_known hop
    rw [hrun] at hr
    cases hr
    exact ⟨he.members hi.consistent, fun p R => he.heard hi.consistent⟩
  | enter_registry p =>
    obtain ⟨_, _, rfl⟩ := world_registrar.register_me_ok hs.2
    exact ⟨rfl, fun p R => by rw [ChatEvent.act, Groups.told_of_no_news Groups.news_idle]; rfl⟩
  | leave_registry p =>
    obtain ⟨hid, hname, hr⟩ := hs
    rw [world_registrar.unregister_me_eq (w := w.begin w.env) (by simp [World.begin, hid])
      (by simp [World.begin, hname])] at hr
    cases hr
    exact ⟨rfl, fun p R => by rw [ChatEvent.act, Groups.told_of_no_news Groups.news_idle]; rfl⟩
  | reorder =>
    refine ⟨hs.1.members, fun p R => ?_⟩
    rw [ChatEvent.act, Groups.told_of_no_news Groups.news_idle, hs.2]
    rfl

/-- A stay of `p` in `R`: `p` enters with the step `x` and is still in the room
after each of the steps that follow. -/
structure Stay (p : EntityPtr) (R : Bytes) (x : Taken World ChatEvent) (stay : List (Taken World ChatEvent)) :
    Prop where
  outside : p ∉ x.pre.chat.members R
  entered : p ∈ x.post.chat.members R
  inside : ∀ y ∈ stay, p ∈ y.post.chat.members R

/-- Nobody is in a room at the start, so whoever is in one has entered it. -/
theorem stay_of_inside {w0 w : World} {tr : List (Taken World ChatEvent)} (h0 : chatMachine.init w0)
    (h : chatMachine.Run w0 tr w) (hp : p ∈ w.chat.members R) :
    ∃ l x stay, tr = l ++ x :: stay ∧ Stay p R x stay := by
  induction h with
  | nil =>
    rw [h0.1] at hp
    exact absurd hp (Finset.notMem_empty p)
  | @snoc tr w1 ev w2 hr hs ih =>
    by_cases hp1 : p ∈ w1.chat.members R
    · obtain ⟨l, x, stay, rfl, hst⟩ := ih hp1
      refine ⟨l, x, stay ++ [⟨w1, ev, w2⟩], by simp, hst.outside, hst.entered, ?_⟩
      intro y hy
      rcases List.mem_append.1 hy with hy | hy
      · exact hst.inside y hy
      · rw [List.mem_singleton.1 hy]; exact hp
    · exact ⟨tr, ⟨w1, ev, w2⟩, [], by simp, hp1, hp, by simp⟩

/-- Over every run: a stay begins with the player's own join, of which he is told
first; while it lasts he is told, once each and in order, of every arrival,
departure, message and periodic count of the room; outside his stays he is told
nothing about it; and calls out of place change nothing and send nothing. -/
theorem room_events_delivered_once {w0 w : World} {tr : List (Taken World ChatEvent)}
    (h0 : chatMachine.init w0) (h : chatMachine.Run w0 tr w) (p : EntityPtr) (R : Bytes) :
    (∀ l x stay r, tr = l ++ x :: stay ++ r → Stay p R x stay →
      x.event = .call (.join_chatroom p R) ∧
      (x :: stay).flatMap (fun y => heard p R y.post.notices) =
        .user_joined_chat R p.name ::
          stay.flatMap fun y => (Groups.news y.pre.chat.members y.event.act R).map (packet_of R)) ∧
    (∀ l y r, tr = l ++ y :: r → p ∈ y.post.chat.members R →
      ∃ l' x stay, l ++ [y] = l' ++ x :: stay ∧ Stay p R x stay) ∧
    (∀ y ∈ tr, p ∉ y.post.chat.members R → heard p R y.post.notices = []) ∧
    (∀ q env, (w.chat.entities q).isSome →
      (q ∈ w.chat.members R → chat_system.join_chatroom q R (w.begin env) = .ok () (w.begin env)) ∧
      (q ∉ w.chat.members R → chat_system.leave_chatroom q R (w.begin env) = .ok () (w.begin env) ∧
        ∀ msg, chat_system.broadcast_message q R msg (w.begin env) = .ok () (w.begin env))) := by
  have hstep : ∀ y ∈ tr, ChatInv y.pre ∧ chatMachine.step y.pre y.event y.post := fun y hy =>
    ⟨reachable_chat_inv (h.reachable_pre (.init h0) hy), h.step_of_mem hy⟩
  have htold : ∀ y ∈ tr, heard p R y.post.notices =
      (Groups.told y.pre.chat.members y.event.act p R).map (packet_of R) := fun y hy =>
    (chat_step_told (hstep y hy).1 (hstep y hy).2).2 p R
  have hnext : ∀ y ∈ tr, y.post.chat.members = Groups.next y.pre.chat.members y.event.act := fun y hy =>
    (chat_step_told (hstep y hy).1 (hstep y hy).2).1
  have hi := reachable_chat_inv ((Machine.Reachable.init h0).run h)
  refine ⟨?_, ?_, ?_, ?_⟩
  · rintro l x stay r rfl hst
    have hx : x ∈ l ++ x :: stay ++ r := by simp
    have hin := hst.entered
    rw [hnext x hx] at hin
    obtain ⟨hact, hfirst⟩ := Groups.entered hst.outside hin
    refine ⟨?_, ?_⟩
    · cases hev : x.event with
      | call op => cases op <;> simp_all [ChatEvent.act, ChatOp.act]
      | _ => simp_all [ChatEvent.act]
    · rw [List.flatMap_cons, htold x hx, hfirst]
      refine congrArg (_ :: ·) (List.flatMap_congr fun y hy => ?_)
      have hy' : y ∈ l ++ x :: stay ++ r := by simp [hy]
      rw [htold y hy', Groups.told_of_mem]
      rw [← hnext y hy']
      exact hst.inside y hy
  · rintro l y r rfl hp
    rw [← List.singleton_append, ← List.append_assoc] at h
    obtain ⟨w1, h1, _⟩ := Machine.run_append.1 h
    obtain ⟨_, _, hw⟩ := Machine.run_snoc.1 h1
    exact stay_of_inside h0 h1 (hw ▸ hp)
  · intro y hy hp
    rw [htold y hy, Groups.told_of_not_mem, List.map_nil]
    rw [← hnext y hy]
    exact hp
  · intro q env hq
    exact ⟨fun hm => chat_system.join_again_run hq hm, fun hm => chat_system.absent_run hq hi.consistent hm⟩

theorem kate_stays : Stay kate (ascii "hall") kate_enters kates_stay where
  outside := by decide +kernel
  entered := by decide +kernel
  inside y hy := by
    simp only [kates_stay, List.mem_cons, List.not_mem_nil, or_false] at hy
    rcases hy with rfl | rfl <;> decide +kernel

/-- Kate is told that she has come, and what Alice says. -/
theorem kate_hears :
    (kate_enters :: kates_stay).flatMap (fun y => heard kate (ascii "hall") y.post.notices) =
      [.user_joined_chat (ascii "hall") (ascii "kate"), .chat_msg (ascii "hall") (ascii "alice") (ascii "hi")] := by
  have htold := ((room_events_delivered_once ⟨rfl, rfl⟩ both_run kate (ascii "hall")).1 before_kate kate_enters kates_stay
    [] (by rw [List.append_nil]) kate_stays).2
  rw [htold]
  have hnews : kates_stay.flatMap (fun y => (Groups.news y.pre.chat.members y.event.act (ascii "hall")).map
      (packet_of (ascii "hall"))) = [.chat_msg (ascii "hall") (ascii "alice") (ascii "hi")] := by decide +kernel
  rw [hnews]
  rfl

end tejk_it_izi
