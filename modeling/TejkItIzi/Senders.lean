import TejkItIzi.PacketPhases
/-!
# Who a packet speaks of

Every call of the chat and the friend system sends packets of its own kinds, and
they carry the name of the caller, or go back to him with the name he gave.
-/

namespace tejk_it_izi

open ProgLib

/-- Packets of the chat system. -/
def Packet.of_chat : Packet → Bool
  | .user_joined_chat _ _ | .user_left_chat _ _ | .chat_msg _ _ _ | .whisper_message _ _ => true
  | _ => false

/-- Packets of the friend system. -/
def Packet.of_friends : Packet → Bool
  | .friend_online_while_you_login _ | .friend_login _ | .friend_leave _ | .new_friendship _ | .broken_friendship _
  | .friendship_request _ | .friend_add_fail _ _ | .friend_add_result _ _ | .friend_removal_fail _ => true
  | _ => false

theorem Packet.not_of_friends {pk : Packet} (h : pk.of_chat = true) : pk.of_friends = false := by
  cases pk <;> first | rfl | cases h

/-- What the chat system sends on account of a call, and to whom it whispers. -/
def ChatOp.Sends (w : World) : ChatOp → EntityPtr × Packet → Prop
  | .register_me _, _ => False
  | .unregister_me p, n => ∃ R, n.2 = .user_left_chat R p.name
  | .join_chatroom p R, n => n.2 = .user_joined_chat R p.name
  | .leave_chatroom p R, n => n.2 = .user_left_chat R p.name
  | .broadcast_message p R msg, n => n.2 = .chat_msg R p.name msg
  | .whisper p recipient msg, n =>
    w.registry.name_to_character recipient = some n.1 ∧ n.2 = .whisper_message p.name msg
  | .periodic_broadcast, n =>
    ∃ R count, n.2 = .chat_msg R (chat_system.broadcast_sender R) (chat_system.broadcast_text count)

/-- What the friend system sends on account of a call, and to whom: answers to the
caller, news of him to the others. -/
def FriendOp.Sends (w : World) : FriendOp → EntityPtr × Packet → Prop
  | .register_me p, n => (n.1 = p ∧ ∃ name, n.2 = .friend_online_while_you_login name) ∨ n.2 = .friend_login p.name
  | .unregister_me p, n => n.2 = .friend_leave p.name
  | .process_req_friend_add p name, n =>
    (n.1 = p ∧ ((∃ reason, n.2 = .friend_add_fail reason name) ∨ (∃ result, n.2 = .friend_add_result result name) ∨
      n.2 = .new_friendship name)) ∨
    (w.registry.name_to_character name = some n.1 ∧
      (n.2 = .friendship_request p.name ∨ n.2 = .new_friendship p.name))
  | .process_req_friend_remove p name, n =>
    (n.1 = p ∧ (n.2 = .friend_removal_fail name ∨ n.2 = .broken_friendship name)) ∨ n.2 = .broken_friendship p.name
  | .cleanup, _ => False

section calls

variable {w : World} {op : ChatOp} {c : ChatSystem} {ns : List (EntityPtr × Packet)}

theorem farewell_sends {p : EntityPtr} {room : RoomPtr} :
    ∀ n ∈ w.chat.farewell p room, ∃ r, w.chat.rooms room = some r ∧ n.2 = .user_left_chat r.room_name p.name := by
  intro n hn
  unfold ChatSystem.farewell at hn
  cases hr : w.chat.rooms room with
  | none =>
    rw [hr] at hn
    cases hn
  | some r =>
    rw [hr] at hn
    obtain ⟨q, _, rfl⟩ := List.mem_map.1 hn
    exact ⟨r, rfl, rfl⟩

theorem ChatEffect.sends (h : ChatEffect w op c ns) (hw : w.chat.Consistent) : ∀ n ∈ ns, op.Sends w n := by
  have hall {ps : USet EntityPtr} {pk : Packet} (hpk : ∀ q, op.Sends w (q, pk)) : ∀ n ∈ to_all ps pk, op.Sends w n := by
    intro n hn
    obtain ⟨q, _, rfl⟩ := List.mem_map.1 hn
    exact hpk q
  cases h with
  | unregister_me p e =>
    intro n hn
    obtain ⟨room, _, hn⟩ := List.mem_flatMap.1 hn
    obtain ⟨r, _, hpk⟩ := farewell_sends n hn
    exact ⟨r.room_name, hpk⟩
  | join | join_new => exact hall fun _ => rfl
  | leave p e R room r he hl hr hp =>
    intro n hn
    obtain ⟨r', hr', hpk⟩ := farewell_sends n hn
    rw [hr] at hr'
    cases hr'
    rw [hw.name_of_lookup hl hr] at hpk
    exact hpk
  | broadcast p R msg room r hl hr hp =>
    refine hall fun q => ?_
    rw [hw.name_of_lookup hl hr]
    rfl
  | whisper p recipient msg q hq hqp =>
    intro n hn
    rw [List.mem_singleton.1 hn]
    exact ⟨hq, rfl⟩
  | periodic_broadcast =>
    intro n hn
    obtain ⟨x, _, hn⟩ := List.mem_flatMap.1 hn
    unfold ChatSystem.announcement at hn
    split at hn
    · cases hn
    · obtain ⟨q, _, rfl⟩ := List.mem_map.1 hn
      exact ⟨_, _, rfl⟩
  | register_me | join_again | leave_absent | broadcast_absent | whisper_lost => exact fun n hn => by cases hn

end calls

theorem World.greetings_send (w : World) (p : EntityPtr) (friend_ids : USet Nat) :
    ∀ n ∈ w.greetings p friend_ids, (FriendOp.register_me p).Sends w n := by
  intro n hn
  obtain ⟨i, _, hn⟩ := List.mem_flatMap.1 hn
  unfold World.greeting at hn
  split at hn
  · simp only [List.mem_cons, List.not_mem_nil, or_false] at hn
    rcases hn with rfl | rfl
    · exact .inl ⟨rfl, _, rfl⟩
    · exact .inr rfl
  · cases hn

theorem FriendEffect.sends {w w' : World} {op : FriendOp} {res : Option StdException} (h : FriendEffect w op res w')
    (hq : w.notices = []) : ∀ n ∈ w'.notices, op.Sends w n := by
  cases h with
  | register_me p ha =>
    intro n hn
    simp only [World.with_registry_notices, World.friended_notices, World.executed_notices, hq, List.nil_append] at hn
    exact w.greetings_send p _ n hn
  | unregister_me p l hl =>
    intro n hn
    simp only [World.with_registry_notices, World.friended_notices, hq, List.nil_append] at hn
    obtain ⟨i, _, hn⟩ := List.mem_flatMap.1 hn
    split at hn
    · rw [List.mem_singleton.1 hn]
      rfl
    · cases hn
  | add_recorded p name q l hl hq' => simp [hq, FriendOp.Sends, hq']
  | add_match p name q l l' hl hq' => simp [hq, FriendOp.Sends, hq']
  | add_fail | add_waiting | remove_fail | remove_offline | remove_online => simp [hq, FriendOp.Sends]
  | register_me_fails | remove_lookup_fails | cleanup => simp [hq]

section kinds

variable {w w' : World} {op : ChatOp} {c : ChatSystem} {ns : List (EntityPtr × Packet)}

theorem ChatEffect.of_chat (h : ChatEffect w op c ns) (hw : w.chat.Consistent) : ∀ n ∈ ns, n.2.of_chat = true := by
  intro n hn
  have hs := h.sends hw n hn
  cases op with
  | register_me p => exact hs.elim
  | unregister_me p =>
    obtain ⟨R, hpk⟩ := hs
    rw [hpk]
    rfl
  | periodic_broadcast =>
    obtain ⟨R, m, hpk⟩ := hs
    rw [hpk]
    rfl
  | whisper =>
    rw [hs.2]
    rfl
  | join_chatroom | leave_chatroom | broadcast_message =>
    have hpk : n.2 = _ := hs
    rw [hpk]
    rfl

theorem FriendOp.Sends.of_friends {op : FriendOp} {n : EntityPtr × Packet} (h : op.Sends w n) :
    n.2.of_friends = true ∧ n.2.of_chat = false := by
  cases op with
  | register_me p => rcases h with ⟨_, name, hpk⟩ | hpk <;> exact hpk ▸ ⟨rfl, rfl⟩
  | unregister_me p =>
    have hpk : n.2 = _ := h
    exact hpk ▸ ⟨rfl, rfl⟩
  | process_req_friend_add p name =>
    rcases h with ⟨_, ⟨_, hpk⟩ | ⟨_, hpk⟩ | hpk⟩ | ⟨_, hpk | hpk⟩ <;> exact hpk ▸ ⟨rfl, rfl⟩
  | process_req_friend_remove p name =>
    rcases h with ⟨_, hpk | hpk⟩ | hpk <;> exact hpk ▸ ⟨rfl, rfl⟩
  | cleanup => exact h.elim

end kinds

end tejk_it_izi
