import TejkItIzi.ChatDelivery
/-!
# Disconnecting is leaving every room

`unregister_me` empties the rooms of a player in the order of his hash set and
leaves that set alone; `leave_chatroom` goes by name and keeps the set up to
date. Departures from different rooms commute, so both end in the same chat
system, whatever the order of the rooms.
-/

namespace tejk_it_izi

open ProgLib

namespace ChatSystem

variable {c : ChatSystem} {p : EntityPtr} {room : RoomPtr}

/-! ## Departures commute -/

theorem depart_put_entity (c : ChatSystem) (p q : EntityPtr) (e : Option EntityData) (room : RoomPtr) :
    (c.put_entity q e).depart p room = (c.depart p room).put_entity q e := by
  unfold depart
  simp only [put_entity_rooms]
  split
  · rfl
  · split <;> rfl

theorem depart_all_put_entity (c : ChatSystem) (p q : EntityPtr) (e : Option EntityData) (l : List RoomPtr) :
    (c.put_entity q e).depart_all p l = (c.depart_all p l).put_entity q e := by
  induction l generalizing c with
  | nil => rfl
  | cons room l ih => rw [depart_all_cons, depart_put_entity, ih, depart_all_cons]

/-- What a departure does to a room that is there. -/
theorem depart_eq {r : Chatroom} (hr : c.rooms room = some r) :
    c.depart p room =
      if (r.participants.erase p).size = 0 then
        { c with
          active_chatrooms := c.active_chatrooms.erase r.room_name
          rooms := Function.update c.rooms room none }
      else c.put_room room { r with participants := r.participants.erase p } := by
  rw [depart, hr]

theorem depart_none (hr : c.rooms room = none) : c.depart p room = c := by
  rw [depart, hr]

theorem depart_comm (c : ChatSystem) (p : EntityPtr) (x y : RoomPtr) :
    (c.depart p x).depart p y = (c.depart p y).depart p x := by
  by_cases hxy : x = y
  · rw [hxy]
  have hy := depart_rooms_ne c p (Ne.symm hxy)
  have hx := depart_rooms_ne c p hxy
  cases hrx : c.rooms x with
  | none =>
    rw [depart_none hrx, depart_none (hx.trans hrx)]
  | some rx =>
    cases hry : c.rooms y with
    | none => rw [depart_none hry, depart_none (hy.trans hry)]
    | some ry =>
      rw [depart_eq (hy.trans hry), depart_eq (hx.trans hrx), depart_eq hrx, depart_eq hry]
      -- Either room may be the one that goes.
      split <;> split <;>
        simp [put_room, AList.erase_erase, Function.update_comm hxy]

theorem depart_all_perm {l l' : List RoomPtr} (h : l.Perm l') : c.depart_all p l = c.depart_all p l' :=
  h.foldl_eq' (fun x _ y _ c => depart_comm c p x y) c

/-! ## The other rooms -/

theorem depart_all_rooms_of_notMem {l : List RoomPtr} (h : room ∉ l) : (c.depart_all p l).rooms room = c.rooms room := by
  induction l generalizing c with
  | nil => rfl
  | cons x l ih =>
    rw [List.mem_cons, not_or] at h
    rw [depart_all_cons, ih h.2, depart_rooms_ne c p h.1]

theorem depart_lookup {R : Bytes} (h : ∀ r, c.rooms room = some r → r.room_name ≠ R) :
    (c.depart p room).active_chatrooms.lookup R = c.active_chatrooms.lookup R := by
  cases hr : c.rooms room with
  | none => rw [depart_none hr]
  | some r =>
    rw [depart_eq hr]
    split
    · exact AList.lookup_erase_ne (h r hr).symm
    · rfl

theorem depart_all_lookup {R : Bytes} {l : List RoomPtr} (hl : l.Nodup)
    (h : ∀ x ∈ l, ∀ r, c.rooms x = some r → r.room_name ≠ R) :
    (c.depart_all p l).active_chatrooms.lookup R = c.active_chatrooms.lookup R := by
  induction l generalizing c with
  | nil => rfl
  | cons x l ih =>
    obtain ⟨hx, hl⟩ := List.nodup_cons.1 hl
    rw [depart_all_cons, ih hl, depart_lookup (h x List.mem_cons_self)]
    intro y hy r hr
    have hne : y ≠ x := by
      rintro rfl
      exact hx hy
    rw [depart_rooms_ne c p hne] at hr
    exact h y (List.mem_cons_of_mem _ hy) r hr

/-- The rooms of these names. -/
def rooms_named (c : ChatSystem) (l : List Bytes) : List RoomPtr := l.filterMap c.active_chatrooms.lookup

section left

variable {r : Chatroom} {l : List Bytes}

/-- A room of another name is another room. -/
theorem RoomsOk.not_mem_rooms_named {im : EntityPtr → RoomPtr → Prop} (h : c.RoomsOk im) (hr : c.rooms room = some r)
    (hl : r.room_name ∉ l) : room ∉ c.rooms_named l := by
  intro hroom
  obtain ⟨R, hR, hlookup⟩ := List.mem_filterMap.1 hroom
  rw [h.name_of_lookup hlookup hr] at hl
  exact hl hR

/-- The rooms of other names stay, and so do the farewells in them. -/
theorem rooms_named_depart (hr : c.rooms room = some r) (hl : r.room_name ∉ l) :
    (c.depart p room).rooms_named l = c.rooms_named l := by
  refine List.filterMap_congr fun R hR => depart_lookup fun r' hr' => ?_
  rw [hr] at hr'
  cases hr'
  rintro rfl
  exact hl hR

theorem flatMap_farewell_depart {rooms : List RoomPtr} (h : room ∉ rooms) :
    rooms.flatMap ((c.depart p room).farewell p) = rooms.flatMap (c.farewell p) := by
  refine List.flatMap_congr fun x hx => ?_
  have hne : x ≠ room := by
    rintro rfl
    exact h hx
  simp only [farewell, depart_rooms_ne c p hne]

end left

/-- The rooms a player is in, in the order of their names, are those of his set. -/
theorem Consistent.rooms_named_perm {e : EntityData} (h : c.Consistent) (he : c.entities p = some e) {l : List Bytes}
    (hl : l.Nodup) (hrooms : ∀ R, R ∈ l ↔ p ∈ c.members R) : (c.rooms_named l).Perm e.chatrooms_im_in.elems := by
  have hnodup : (c.rooms_named l).Nodup := by
    refine hl.filterMap fun R R' room hR hR' => ?_
    obtain ⟨r, hr, rfl⟩ := h.stored R room hR
    exact h.name_of_lookup hR' hr
  refine (List.perm_ext_iff_of_nodup hnodup e.chatrooms_im_in.nodup).2 fun room => ?_
  rw [rooms_named, List.mem_filterMap, USet.mem_elems, ← im_in_iff he]
  constructor
  · rintro ⟨R, hR, hroom⟩
    obtain ⟨room', r, hl', hr, hp⟩ := room_of_mem ((hrooms R).1 hR)
    rw [hl'] at hroom
    cases hroom
    exact (h.member_iff _ r p hr).1 hp
  · intro hi
    obtain ⟨r, hr⟩ := Option.isSome_iff_exists.1 (h.live p room hi)
    have hactive := h.active room r hr
    exact ⟨r.room_name, (hrooms _).2 ((mem_members hactive hr).2 ((h.member_iff room r p hr).2 hi)), hactive⟩

end ChatSystem

/-! ## One room after another, by name -/

namespace chat_system

variable {w : World} {p : EntityPtr} {e : EntityData}

theorem leave_each_by_name {l : List Bytes} (h : w.chat.Consistent) (he : w.chat.entities p = some e) (hl : l.Nodup)
    (hmem : ∀ R ∈ l, p ∈ w.chat.members R) :
    ∃ e' : EntityData, (∀ room, room ∈ e'.chatrooms_im_in ↔ room ∈ e.chatrooms_im_in ∧ room ∉ w.chat.rooms_named l) ∧
      ((w.chat.depart_all p (w.chat.rooms_named l)).put_entity p (some e')).Consistent ∧
      forM l (leave_chatroom p) w =
        .ok () (w.after ((w.chat.depart_all p (w.chat.rooms_named l)).put_entity p (some e'))
          ((w.chat.rooms_named l).flatMap (w.chat.farewell p))) := by
  induction l generalizing w e with
  | nil =>
    have hsame : w.chat.put_entity p (some e) = w.chat := by
      rw [ChatSystem.put_entity, ← he, Function.update_eq_self]
    have hcons : (w.chat.put_entity p (some e)).Consistent := by
      rw [hsame]
      exact h
    refine ⟨e, by simp [ChatSystem.rooms_named], hcons, ?_⟩
    show _ = EStateM.Result.ok () (w.after (w.chat.put_entity p (some e)) [])
    rw [hsame, World.after_self]
    rfl
  | cons R l ih =>
    obtain ⟨hR, hrest⟩ := List.nodup_cons.1 hl
    obtain ⟨room, r, hlookup, hr, hp⟩ := ChatSystem.room_of_mem (hmem R List.mem_cons_self)
    obtain rfl : r.room_name = R := h.name_of_lookup hlookup hr
    set c1 := (w.chat.depart p room).put_entity p (some ⟨e.chatrooms_im_in.erase room⟩) with hc1
    have h1 := leave_chatroom_run h he hlookup hr hp
    -- The rooms still to come are as they were.
    have hnamed : c1.rooms_named l = w.chat.rooms_named l := ChatSystem.rooms_named_depart hr hR
    have hfarewell : (w.chat.rooms_named l).flatMap (c1.farewell p) = (w.chat.rooms_named l).flatMap (w.chat.farewell p) :=
      ChatSystem.flatMap_farewell_depart (h.not_mem_rooms_named hr hR)
    have hmem1 : ∀ R' ∈ l, p ∈ c1.members R' := fun R' hR' => by
      show p ∈ (w.chat.depart p room).members R'
      have hne : R' ≠ r.room_name := by
        rintro rfl
        exact hR hR'
      rw [h.toRoomsOk.members_depart hr, if_neg hne]
      exact hmem R' (List.mem_cons_of_mem _ hR')
    obtain ⟨e', he', hcons', hrun⟩ :=
      ih (w := w.after c1 (w.chat.farewell p room)) (h.leave he hr) (Function.update_self ..) hrest hmem1
    have hcons : w.chat.rooms_named (r.room_name :: l) = room :: w.chat.rooms_named l := List.filterMap_cons_some hlookup
    have hchat : (c1.depart_all p (w.chat.rooms_named l)).put_entity p (some e') =
        (w.chat.depart_all p (w.chat.rooms_named (r.room_name :: l))).put_entity p (some e') := by
      rw [hc1, hcons, ChatSystem.depart_all_put_entity, ChatSystem.depart_all_cons]
      simp [ChatSystem.put_entity]
    rw [World.after_chat, hnamed] at he' hcons' hrun
    refine ⟨e', fun x => ?_, hchat ▸ hcons', ?_⟩
    · rw [he', USet.mem_erase, hcons, List.mem_cons, not_or]
      tauto
    · rw [List.forM_cons, bind_ok h1, hrun, hfarewell, hchat, hcons, World.after_after, List.flatMap_cons]

/-- Leaving every room and then the system. -/
theorem leave_all_then_unregister {l : List Bytes} (h : w.chat.Consistent) (he : w.chat.entities p = some e)
    (hl : l.Nodup) (hrooms : ∀ R, R ∈ l ↔ p ∈ w.chat.members R) :
    (do
      forM l (leave_chatroom p)
      unregister_me p : WorldM Unit) w =
      .ok () (w.after ((w.chat.depart_all p e.chatrooms_im_in.elems).put_entity p none)
        ((w.chat.rooms_named l).flatMap (w.chat.farewell p))) := by
  have hperm := h.rooms_named_perm he hl hrooms
  obtain ⟨e', he', hcons, hrun⟩ := leave_each_by_name h he hl fun R hR => (hrooms R).1 hR
  -- His set is empty by now.
  have hempty : e'.chatrooms_im_in.elems = [] := by
    refine List.eq_nil_iff_forall_not_mem.2 fun room hroom => ?_
    obtain ⟨hin, hout⟩ := (he' room).1 hroom
    exact hout (hperm.mem_iff.2 hin)
  have hlast := unregister_me_run
    (w := w.after ((w.chat.depart_all p (w.chat.rooms_named l)).put_entity p (some e'))
      ((w.chat.rooms_named l).flatMap (w.chat.farewell p))) hcons (Function.update_self ..)
  rw [bind_ok hrun, hlast, hempty, ← ChatSystem.depart_all_perm hperm]
  simp [ChatSystem.depart_all, ChatSystem.put_entity]

end chat_system

section frame

variable {w : World} {p q : EntityPtr} {e : EntityData}

/-- A farewell goes to those who stay in a room of his. -/
theorem mem_farewells (h : w.chat.Consistent) (he : w.chat.entities p = some e) {n : EntityPtr × Packet}
    (hn : n ∈ e.chatrooms_im_in.elems.flatMap (w.chat.farewell p)) :
    n.1 ≠ p ∧ ∃ R, p ∈ w.chat.members R ∧ n.1 ∈ w.chat.members R ∧ n.2 = .user_left_chat R p.name := by
  obtain ⟨room, hroom, hn⟩ := List.mem_flatMap.1 hn
  have hi : w.chat.im_in p room := (ChatSystem.im_in_iff he).2 hroom
  obtain ⟨r, hr⟩ := Option.isSome_iff_exists.1 (h.live p room hi)
  rw [ChatSystem.farewell, hr] at hn
  obtain ⟨q, hq, rfl⟩ := List.mem_map.1 hn
  obtain ⟨hne, hq⟩ := USet.mem_erase.1 hq
  have hactive := h.active room r hr
  refine ⟨hne, r.room_name, ?_, ?_, rfl⟩
  · exact (ChatSystem.mem_members hactive hr).2 ((h.member_iff room r p hr).2 hi)
  · exact (ChatSystem.mem_members hactive hr).2 hq

/-- A room he is not in stays as it is. -/
theorem other_rooms_kept (h : w.chat.Consistent) (he : w.chat.entities p = some e) {R : Bytes} (hR : p ∉ w.chat.members R) :
    (w.chat.depart_all p e.chatrooms_im_in.elems).active_chatrooms.lookup R = w.chat.active_chatrooms.lookup R ∧
      (w.chat.depart_all p e.chatrooms_im_in.elems).chatroom R = w.chat.chatroom R := by
  have hout {room : RoomPtr} {r : Chatroom} (hroom : room ∈ e.chatrooms_im_in.elems) (hr : w.chat.rooms room = some r) :
      r.room_name ≠ R := by
    rintro rfl
    refine hR ((ChatSystem.mem_members (h.active room r hr) hr).2 ((h.member_iff room r p hr).2 ?_))
    exact (ChatSystem.im_in_iff he).2 hroom
  have hlookup := ChatSystem.depart_all_lookup (p := p) e.chatrooms_im_in.nodup fun x hx r hr => hout hx hr
  refine ⟨hlookup, ?_⟩
  rw [ChatSystem.chatroom, ChatSystem.chatroom, hlookup]
  cases hl : w.chat.active_chatrooms.lookup R with
  | none => rfl
  | some room =>
    obtain ⟨r, hr, hname⟩ := h.stored R room hl
    exact ChatSystem.depart_all_rooms_of_notMem fun hroom => hout hroom hr hname

end frame

/-- Whichever way a player goes, the chat system he leaves behind is the same,
and so are the packets the others get, up to their order. Only his rooms change,
which lose him, and he is nowhere any more. -/
theorem disconnect_leaves_every_room {w : World} (hw : chatMachine.Reachable w) {p : EntityPtr}
    (hp : (w.chat.entities p).isSome) {l : List Bytes} (hl : l.Nodup) (hrooms : ∀ R, R ∈ l ↔ p ∈ w.chat.members R)
    (env : Env) :
    ∃ c sent sent', chat_system.unregister_me p (w.begin env) = .ok () ((w.begin env).after c sent) ∧
      (do
        forM l (chat_system.leave_chatroom p)
        chat_system.unregister_me p : WorldM Unit) (w.begin env) = .ok () ((w.begin env).after c sent') ∧
      sent.Perm sent' ∧
      (∀ n ∈ sent, n.1 ≠ p ∧ ∃ R ∈ l, n.1 ∈ w.chat.members R ∧ n.2 = .user_left_chat R p.name) ∧
      (∀ R, c.members R = (w.chat.members R).erase p) ∧
      (∀ R, R ∉ l → c.active_chatrooms.lookup R = w.chat.active_chatrooms.lookup R ∧ c.chatroom R = w.chat.chatroom R) ∧
      (∀ q, q ≠ p → c.entities q = w.chat.entities q) ∧
      c.entities p = none ∧ ∀ room r, c.rooms room = some r → p ∉ r.participants := by
  have hc := (reachable_chat_inv hw).consistent
  obtain ⟨e, he⟩ := Option.isSome_iff_exists.1 hp
  have hc' : (w.begin env).chat.Consistent := hc
  refine ⟨_, _, _, chat_system.unregister_me_run hc' he, chat_system.leave_all_then_unregister hc' he hl hrooms,
    ((hc.rooms_named_perm he hl hrooms).flatMap_right _).symm, ?_, ?_, ?_, ?_, Function.update_self .., ?_⟩
  · intro n hn
    obtain ⟨hne, R, hR, hq, hpacket⟩ := mem_farewells hc he hn
    exact ⟨hne, R, (hrooms R).2 hR, hq, hpacket⟩
  · intro R
    exact hc.toRoomsOk.members_depart_all e.chatrooms_im_in.nodup fun _ => ChatSystem.im_in_iff he
  · intro R hR
    exact other_rooms_kept hc he fun hmem => hR ((hrooms R).2 hmem)
  · intro q hq
    rw [ChatSystem.put_entity_entities, Function.update_of_ne hq, ChatSystem.depart_all_entities]
    rfl
  · intro room r hr hmem
    have hleft := hc.unregister he
    obtain ⟨e', he', _⟩ := (hleft.member_iff room r p hr).1 hmem
    rw [ChatSystem.put_entity_entities, Function.update_self] at he'
    cases he'

theorem alices_rooms (R : Bytes) : R ∈ [ascii "hall", ascii "den"] ↔ alice ∈ alice_has_spoken.chat.members R := by
  have hactive : alice_has_spoken.chat.active_chatrooms.entries = [⟨ascii "den", 1⟩, ⟨ascii "hall", 0⟩] := rfl
  constructor
  · intro hR
    simp only [List.mem_cons, List.not_mem_nil, or_false] at hR
    rcases hR with rfl | rfl <;> decide +kernel
  · intro hmem
    obtain ⟨room, r, hl, _⟩ := ChatSystem.room_of_mem hmem
    have hentry := AList.mem_lookup_iff.1 hl
    rw [hactive] at hentry
    simp only [List.mem_cons, List.not_mem_nil, or_false, Sigma.mk.injEq] at hentry
    rcases hentry with ⟨rfl, _⟩ | ⟨rfl, _⟩ <;> simp

/-- Alice leaves two rooms; Kate, who is in one of them, is told so. -/
theorem alice_leaves_two_rooms :
    ∃ c sent sent', chat_system.unregister_me alice (alice_has_spoken.begin (room_at 2)) =
        .ok () ((alice_has_spoken.begin (room_at 2)).after c sent) ∧
      sent = [(kate, .user_left_chat (ascii "hall") (ascii "alice"))] ∧ sent.Perm sent' ∧
      c.members (ascii "hall") = {kate} ∧ c.members (ascii "den") = ∅ ∧
      ∀ room r, c.rooms room = some r → alice ∉ r.participants := by
  obtain ⟨c, sent, sent', hrun, _, hperm, _, hmembers, _, _, _, hgone⟩ :=
    disconnect_leaves_every_room alice_has_spoken_reachable rfl (by decide) alices_rooms (room_at 2)
  have hsent : sent = (endState (chat_system.unregister_me alice) (alice_has_spoken.begin (room_at 2))).notices := by
    rw [endState_ok hrun]
    rfl
  refine ⟨c, sent, sent', hrun, ?_, hperm, ?_, ?_, hgone⟩
  · rw [hsent]
    decide +kernel
  · rw [hmembers]
    decide +kernel
  · rw [hmembers]
    decide +kernel

end tejk_it_izi
