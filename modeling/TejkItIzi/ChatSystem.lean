import TejkItIzi.World
/-!
# `chat_system`

The operations of the chat system as programs on the world. Every lookup with
`at`, every pointer to a room and every assertion of the source can fail here;
`ChatEffects.lean` shows that none does.
-/

namespace tejk_it_izi

open ProgLib

namespace chat_system

/-- `entities_.at(p)`. -/
def entity_at (p : EntityPtr) : WorldM EntityData := do
  match (← get).chat.entities p with
  | some e => pure e
  | none => throw (.exception .other)

/-- `*room`; a pointer to a destroyed room must not be followed. -/
def deref (room : RoomPtr) : WorldM Chatroom := do
  match (← get).chat.rooms room with
  | some r => pure r
  | none => throw .undefined_behaviour

/-- `for (auto& participant : participants) entities_.at(participant).backend->..`. -/
def notify_all (participants : USet EntityPtr) (p : Packet) : WorldM Unit :=
  forM participants.elems fun participant => do
    let _ ← entity_at participant
    send_packet participant p

def set_room (room : RoomPtr) (r : Chatroom) : WorldM Unit :=
  modify fun w => { w with chat := { w.chat with rooms := Function.update w.chat.rooms room (some r) } }

def set_entity (p : EntityPtr) (e : Option EntityData) : WorldM Unit :=
  modify fun w => { w with chat := { w.chat with entities := Function.update w.chat.entities p e } }

/-- `active_chatrooms_.emplace(room_name, room_name)` for an absent name. -/
def emplace_room (room_name : Bytes) : WorldM RoomPtr := do
  let room := (← get).env.new_room
  modify fun w => { w with chat := { w.chat with
    active_chatrooms := w.chat.active_chatrooms.insert room_name room
    rooms := Function.update w.chat.rooms room (some ⟨room_name, .empty⟩) } }
  return room

/-- `active_chatrooms_.erase(room_name)`: the room in the node is destroyed. -/
def erase_room (room_name : Bytes) : WorldM Unit :=
  modify fun w => match w.chat.active_chatrooms.lookup room_name with
    | none => w
    | some room => { w with chat := { w.chat with
        active_chatrooms := w.chat.active_chatrooms.erase room_name
        rooms := Function.update w.chat.rooms room none } }

def unregister_from_chatroom (my_representative : EntityPtr) (room : RoomPtr) : WorldM Unit := do
  let r ← deref room
  cpp_assert ((← get).chat.active_chatrooms.lookup r.room_name ≠ none)
  cpp_assert (my_representative ∈ r.participants)
  let e ← entity_at my_representative
  cpp_assert (room ∈ e.chatrooms_im_in)
  let participants := r.participants.erase my_representative
  set_room room { r with participants := participants }
  if participants.size = 0 then erase_room r.room_name
  else notify_all participants (.user_left_chat r.room_name my_representative.name)

/-- The sender and the text of the periodic message of a room. -/
def broadcast_sender (room_name : Bytes) : Bytes := ascii "[[BROADCAST - " ++ room_name ++ ascii "]]"

def broadcast_text (participants : Nat) : Bytes :=
  ascii "There are currently: " ++ to_string participants ++ ascii " users on the chat!"

def periodic_broadcast : WorldM Unit := do
  forM (← get).chat.active_chatrooms.entries fun chatroom_pair => do
    let r ← deref chatroom_pair.2
    notify_all r.participants
      (.chat_msg r.room_name (broadcast_sender r.room_name) (broadcast_text r.participants.size))

def register_me (my_representative : EntityPtr) : WorldM Unit := do
  cpp_assert (((← get).chat.entities my_representative).isNone)
  set_entity my_representative (some ⟨.empty⟩)

def unregister_me (my_representative : EntityPtr) : WorldM Unit := do
  cpp_assert (((← get).chat.entities my_representative).isSome)
  let e ← entity_at my_representative
  forM e.chatrooms_im_in.elems (unregister_from_chatroom my_representative)
  set_entity my_representative none

def join_chatroom (my_representative : EntityPtr) (room_name : Bytes) : WorldM Unit := do
  cpp_assert (((← get).chat.entities my_representative).isSome)
  let room ← match (← get).chat.active_chatrooms.lookup room_name with
    | some room => pure room
    | none => emplace_room room_name
  let r ← deref room
  if my_representative ∈ r.participants then return
  let participants := r.participants.insert my_representative
  set_room room { r with participants := participants }
  notify_all participants (.user_joined_chat room_name my_representative.name)
  let e ← entity_at my_representative
  cpp_assert (room ∉ e.chatrooms_im_in)
  set_entity my_representative (some ⟨e.chatrooms_im_in.insert room⟩)

def leave_chatroom (my_representative : EntityPtr) (room_name : Bytes) : WorldM Unit := do
  cpp_assert (((← get).chat.entities my_representative).isSome)
  match (← get).chat.active_chatrooms.lookup room_name with
  | none => return
  | some room =>
    let r ← deref room
    if my_representative ∉ r.participants then return
    unregister_from_chatroom my_representative room
    let e ← entity_at my_representative
    cpp_assert (room ∈ e.chatrooms_im_in)
    set_entity my_representative (some ⟨e.chatrooms_im_in.erase room⟩)

def broadcast_message (my_representative : EntityPtr) (room_name msg : Bytes) : WorldM Unit := do
  cpp_assert (((← get).chat.entities my_representative).isSome)
  match (← get).chat.active_chatrooms.lookup room_name with
  | none => return
  | some room =>
    let r ← deref room
    if my_representative ∉ r.participants then return
    let e ← entity_at my_representative
    cpp_assert (room ∈ e.chatrooms_im_in)
    notify_all r.participants (.chat_msg r.room_name my_representative.name msg)

def whisper (my_representative : EntityPtr) (recipient msg : Bytes) : WorldM Unit := do
  cpp_assert (((← get).chat.entities my_representative).isSome)
  match ← world_registrar.find_online_player_by_name recipient with
  | none => return
  | some his_entity_ptr =>
    if his_entity_ptr = my_representative then return
    cpp_assert (((← get).chat.entities his_entity_ptr).isSome)
    let _ ← entity_at his_entity_ptr
    send_packet his_entity_ptr (.whisper_message my_representative.name msg)

end chat_system

end tejk_it_izi
