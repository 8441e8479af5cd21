import TejkItIzi.World
/-!
# `friend_system`

The operations of the friend system as programs on the world. Each keeps the
friendships in up to three places: my set, my friend's set if he is online, and
the table.
-/

namespace tejk_it_izi

open ProgLib

/-- The friend system with this friend list, or none, under an id. -/
def FriendSystem.put (f : FriendSystem) (id : Nat) (l : Option FriendList) : FriendSystem :=
  { f with friendlist_of_id := Function.update f.friendlist_of_id id l }

@[simp] theorem FriendSystem.put_self (f : FriendSystem) (id : Nat) (l : Option FriendList) :
    (f.put id l).friendlist_of_id id = l := Function.update_self ..

@[simp] theorem FriendSystem.put_ne (f : FriendSystem) {id i : Nat} (h : i ≠ id) (l : Option FriendList) :
    (f.put id l).friendlist_of_id i = f.friendlist_of_id i := Function.update_of_ne h ..

@[simp] theorem FriendSystem.put_pending (f : FriendSystem) (id : Nat) (l : Option FriendList) :
    (f.put id l).pending_requests = f.pending_requests := rfl

namespace friend_system

def put_list (id : Nat) (l : Option FriendList) : WorldM Unit :=
  modify fun w => { w with friends := w.friends.put id l }

/-- `friendlist_of_id_.at(id)`. -/
def list_at (id : Nat) : WorldM FriendList := do
  match (← get).friends.friendlist_of_id id with
  | some l => pure l
  | none => throw (.exception .other)

/-- Both are told that the other is online. -/
def greet (my_representative : EntityPtr) (friend_id : Nat) : WorldM Unit := do
  match (← get).friends.friendlist_of_id friend_id with
  | none => return
  | some his_list =>
    match ← world_registrar.find_online_player_by_id friend_id with
    | none => throw .assertion_failed
    | some friend_entity_ptr =>
      send_packet my_representative (.friend_online_while_you_login friend_entity_ptr.name)
      send_packet his_list.backend (.friend_login my_representative.name)

def register_me (my_representative : EntityPtr) : WorldM Unit := do
  cpp_assert (((← get).friends.friendlist_of_id my_representative.id).isNone)
  let friend_ids ← psql_facade.get_friends_of my_representative.id
  put_list my_representative.id (some ⟨my_representative, friend_ids⟩)
  forM friend_ids.elems (greet my_representative)

def say_goodbye (my_representative : EntityPtr) (friend_id : Nat) : WorldM Unit := do
  match (← get).friends.friendlist_of_id friend_id with
  | none => return
  | some his_list => send_packet his_list.backend (.friend_leave my_representative.name)

def unregister_me (my_representative : EntityPtr) : WorldM Unit := do
  cpp_assert (((← get).friends.friendlist_of_id my_representative.id).isSome)
  let l ← list_at my_representative.id
  forM l.friend_ids.elems (say_goodbye my_representative)
  put_list my_representative.id none

/-- `pending_requests_.process_add_friend_request(.., clock_.get_current_time())`. -/
def process_pending (sender recipient : Nat) : WorldM OperationResult := do
  let w ← get
  let (request_state, pending_requests) :=
    w.friends.pending_requests.process_add_friend_request sender recipient w.env.now
  set { w with friends := { w.friends with pending_requests := pending_requests } }
  return request_state

def process_req_friend_add (my_representative : EntityPtr) (name : Bytes) : WorldM Unit := do
  cpp_assert (((← get).friends.friendlist_of_id my_representative.id).isSome)
  let my_friendlist ← list_at my_representative.id
  match ← world_registrar.find_online_player_by_name name with
  | none => send_packet my_friendlist.backend (.friend_add_fail .player_not_online name)
  | some player_ptr =>
    let to_add_id := player_ptr.id
    if to_add_id = my_representative.id then
      send_packet my_friendlist.backend (.friend_add_fail .cannot_invite_self name)
      return
    cpp_assert (((← get).friends.friendlist_of_id to_add_id).isSome)
    if to_add_id ∈ my_friendlist.friend_ids then
      send_packet my_friendlist.backend (.friend_add_fail .already_friends name)
      return
    match ← process_pending my_representative.id to_add_id with
    | .already_in_buffer => send_packet my_friendlist.backend (.friend_add_result .previous_still_waiting name)
    | .succesfully_added =>
      send_packet (← list_at to_add_id).backend (.friendship_request my_representative.name)
      send_packet my_friendlist.backend (.friend_add_result .sent_succesfully name)
    | .that_was_a_match =>
      send_packet my_friendlist.backend (.new_friendship name)
      put_list my_representative.id
        (some { my_friendlist with friend_ids := my_friendlist.friend_ids.insert to_add_id })
      let his_friendlist ← list_at to_add_id
      send_packet his_friendlist.backend (.new_friendship my_representative.name)
      put_list to_add_id
        (some { his_friendlist with friend_ids := his_friendlist.friend_ids.insert my_representative.id })
      psql_facade.make_friends to_add_id my_representative.id

/-- With this `player_registry_.find_player_id_by_name_in_database`. -/
def process_req_friend_remove_by (find_player_id_by_name_in_database : Bytes → WorldM Nat)
    (my_representative : EntityPtr) (name : Bytes) : WorldM Unit := do
  cpp_assert (((← get).friends.friendlist_of_id my_representative.id).isSome)
  let my_friendlist ← list_at my_representative.id
  let to_remove_id ← find_player_id_by_name_in_database name
  if to_remove_id = world_registrar.invalid_id then
    send_packet my_friendlist.backend (.friend_removal_fail name)
    return
  if to_remove_id ∉ my_friendlist.friend_ids then
    send_packet my_friendlist.backend (.friend_removal_fail name)
    return
  send_packet my_friendlist.backend (.broken_friendship name)
  put_list my_representative.id
    (some { my_friendlist with friend_ids := my_friendlist.friend_ids.erase to_remove_id })
  match (← get).friends.friendlist_of_id to_remove_id with
  | none => pure ()
  | some his_friendlist =>
    send_packet his_friendlist.backend (.broken_friendship my_representative.name)
    put_list to_remove_id
      (some { his_friendlist with friend_ids := his_friendlist.friend_ids.erase my_representative.id })
  psql_facade.remove_friends to_remove_id my_representative.id

def process_req_friend_remove : EntityPtr → Bytes → WorldM Unit :=
  process_req_friend_remove_by world_registrar.find_player_id_by_name_in_database

/-- `pending_requests_.periodic_cleanup()`. -/
def cleanup : WorldM Unit :=
  modify fun w => { w with friends := { w.friends with pending_requests := w.friends.pending_requests.periodic_cleanup } }

end friend_system

end tejk_it_izi
