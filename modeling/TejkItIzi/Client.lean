import TejkItIzi.Builds
import TejkItIzi.Phases
/-!
# The client

What `commandline_client` writes for its commands, and what it makes of the
packets of the server. It keeps its phase in `cs` and changes it by the opcode.
-/

namespace tejk_it_izi

/-! ## Commands -/

/-- What a user can ask for. `loginserver_keys` is sent when the client starts. -/
inductive ClientCommand where
  | loginserver_keys (login : Bytes)
  | create_character (name : Bytes)
  | delete_character (name : Bytes)
  | select_character (name : Bytes)
  | log_off
  | send_whisper (name msg : Bytes)
  | friend_add (name : Bytes)
  | friend_remove (name : Bytes)
  | join_chat (name : Bytes)
  | leave_chat (name : Bytes)
  | send_chat_msg (chatroom_name msg : Bytes)
  | log_off_to_lobby
  deriving DecidableEq

/-- `std::string loginkeys(64, 'x')`. -/
def loginkeys : Bytes := List.replicate 64 120

def redundant_data : Bytes := ascii "asdadsadadadasdasd"

/-- What the client writes for a command. -/
def ClientCommand.fields : ClientCommand → List Field
  | .loginserver_keys login => [.opcode preauth_state_protocol.loginserver_keys, .string loginkeys, .string login]
  | .create_character name => [.opcode lobby_state_protocol.create_character, .string name, .literal 1337]
  | .delete_character name => [.opcode lobby_state_protocol.delete_character, .string name]
  | .select_character name => [.opcode lobby_state_protocol.select_character, .string name]
  | .log_off => [.opcode lobby_state_protocol.log_off, .literal 321564]
  | .send_whisper name msg => [.opcode ingame_state_protocol.send_whisper, .string name, .string msg]
  | .friend_add name => [.opcode ingame_state_protocol.friend_add, .string name]
  | .friend_remove name => [.opcode ingame_state_protocol.friend_remove, .string name]
  | .join_chat name => [.opcode ingame_state_protocol.join_chat, .string name]
  | .leave_chat name => [.opcode ingame_state_protocol.leave_chat, .string name]
  | .send_chat_msg chatroom_name msg =>
    [.opcode ingame_state_protocol.send_chat_msg, .string chatroom_name, .string msg]
  | .log_off_to_lobby => [.opcode ingame_state_protocol.log_off_to_lobby, .string redundant_data]

/-! ## What the client receives -/

/-- A packet as `on_recv` has read it. -/
inductive Received where
  -- The client exits.
  | fuck_you_bad_keys
  | good_boy_good_keys
  | character_list (chars : List LobbyCharacter)
  | character_selected (nick : Bytes)
  | character_created (uid : Nat) (nick : Bytes)
  | character_creation_fail (fail_reason : CharacterCreationFailReason)
  | moved_to_lobby
  | user_joined_chat (chatroom user : Bytes)
  | user_left_chat (chatroom user : Bytes)
  | chat_msg (chatroom user msg : Bytes)
  | whisper_message (sender msg : Bytes)
  | friend_online_while_you_login (username : Bytes)
  | friend_login (username : Bytes)
  | friend_leave (username : Bytes)
  | new_friendship (username : Bytes)
  | broken_friendship (username : Bytes)
  | friendship_request (username : Bytes)
  | friend_add_fail (reason : FriendAddFailReason) (username : Bytes)
  | friend_removal_fail (username : Bytes)
  | friend_add_result (result : FriendAddRequestResult) (username : Bytes)
  -- "HUUH unknown .."
  | unknown_opcode (opcode : UInt8)
  | unknown_code (code : Nat)
  deriving DecidableEq

def CharacterCreationFailReason.of_code : Nat → Option CharacterCreationFailReason
  | 0 => some .name_too_long
  | 1 => some .name_contains_incorrect_digits
  | 2 => some .name_already_used
  | 3 => some .character_limit_exceeded
  | _ => none

def FriendAddFailReason.of_code : Nat → Option FriendAddFailReason
  | 0 => some .player_not_online
  | 1 => some .cannot_invite_self
  | 2 => some .already_friends
  | _ => none

def FriendAddRequestResult.of_code : Nat → Option FriendAddRequestResult
  | 0 => some .sent_succesfully
  | 1 => some .previous_still_waiting
  | _ => none

/-- A value of an enumeration, or the code of none. -/
def Received.of_code {α : Type} (value : Option α) (code : Nat) (k : α → Received) : Received :=
  match value with
  | some a => k a
  | none => .unknown_code code

section on_recv

variable {w : Nat}

/-- `while (count--)`. -/
def read_chars (b : Build) : Nat → BinaryDeserializer w → Except StdException (List LobbyCharacter × BinaryDeserializer w)
  | 0, bd => .ok ([], bd)
  | count + 1, bd => do
    let (uid, bd) ← bd.read_unsigned b
    let (nick, bd) ← bd.read_text b
    let (chars, bd) ← read_chars b count bd
    .ok (⟨uid, nick⟩ :: chars, bd)

/-- A case of `on_recv` that reads a code and a name. -/
def code_and_name (b : Build) (bd : BinaryDeserializer w) (k : Nat → Bytes → Received) : Except StdException Received := do
  let (code, bd) ← bd.read_int b
  one_string_on b bd (k code)

open preauth_state_protocol in
def recv_preauth (opcode : UInt8) : Received :=
  if opcode = fuck_you_bad_keys then .fuck_you_bad_keys
  else if opcode = good_boy_good_keys then .good_boy_good_keys
  else .unknown_opcode opcode

open lobby_state_protocol in
def recv_lobby (b : Build) (opcode : UInt8) (bd : BinaryDeserializer w) : Except StdException Received :=
  if opcode = character_list then do
    let (count, bd) ← bd.read_size_t b
    let (chars, _) ← read_chars b count bd
    .ok (.character_list chars)
  else if opcode = character_selected then one_string_on b bd .character_selected
  else if opcode = character_created then do
    let (uid, bd) ← bd.read_unsigned b
    one_string_on b bd (.character_created uid)
  else if opcode = character_creation_fail then do
    let (fail_reason, _) ← bd.read_int b
    .ok (.of_code (CharacterCreationFailReason.of_code fail_reason) fail_reason .character_creation_fail)
  else .ok (.unknown_opcode opcode)

open ingame_state_protocol in
def recv_ingame (b : Build) (opcode : UInt8) (bd : BinaryDeserializer w) : Except StdException Received :=
  if opcode = whisper_message then two_strings_on b bd .whisper_message
  else if opcode = friend_online_while_you_login then one_string_on b bd .friend_online_while_you_login
  else if opcode = friend_login then one_string_on b bd .friend_login
  else if opcode = friend_leave then one_string_on b bd .friend_leave
  else if opcode = new_friendship then one_string_on b bd .new_friendship
  else if opcode = broken_friendship then one_string_on b bd .broken_friendship
  else if opcode = friendship_request then one_string_on b bd .friendship_request
  else if opcode = friend_removal_fail then one_string_on b bd .friend_removal_fail
  else if opcode = friend_add_fail then
    code_and_name b bd fun reason username =>
      .of_code (FriendAddFailReason.of_code reason) reason (.friend_add_fail · username)
  else if opcode = friend_add_result then
    code_and_name b bd fun result username =>
      .of_code (FriendAddRequestResult.of_code result) result (.friend_add_result · username)
  else if opcode = moved_to_lobby then .ok .moved_to_lobby
  else if opcode = user_joined_chat then two_strings_on b bd .user_joined_chat
  else if opcode = user_left_chat then two_strings_on b bd .user_left_chat
  else if opcode = chat_msg then do
    let (chatroom, bd) ← bd.read_text b
    two_strings_on b bd (.chat_msg chatroom)
  else .ok (.unknown_opcode opcode)

/-- `cs`, after a packet with this opcode. -/
def cs_after (cs : Phase) (opcode : UInt8) : Phase :=
  match cs with
  | .preauth => if opcode = preauth_state_protocol.good_boy_good_keys then .lobby else cs
  | .lobby => if opcode = lobby_state_protocol.character_selected then .ingame else cs
  | .ingame => if opcode = ingame_state_protocol.moved_to_lobby then .lobby else cs

/-- `switch(cs)`, behind the opcode. -/
def recv_packet (b : Build) (cs : Phase) (opcode : UInt8) (bd : BinaryDeserializer w) : Except StdException Received :=
  match cs with
  | .preauth => .ok (recv_preauth opcode)
  | .lobby => recv_lobby b opcode bd
  | .ingame => recv_ingame b opcode bd

/-- Also gives the next `cs`. An exception ends the client. -/
def on_recv (b : Build) (cs : Phase) (data : Buffer) (size : Nat) : Except StdException (Received × Phase) := do
  let (opcode, bd) ← (b.reader data size).read_opcode
  let received ← recv_packet b cs opcode bd
  .ok (received, cs_after cs opcode)

end on_recv

/-! ## Opcodes and phases -/

def Packet.opcode : Packet → UInt8
  | .good_boy_good_keys => preauth_state_protocol.good_boy_good_keys
  | .fuck_you_bad_keys => preauth_state_protocol.fuck_you_bad_keys
  | .character_list _ => lobby_state_protocol.character_list
  | .character_selected _ => lobby_state_protocol.character_selected
  | .character_created _ => lobby_state_protocol.character_created
  | .character_creation_fail _ => lobby_state_protocol.character_creation_fail
  | .moved_to_lobby => ingame_state_protocol.moved_to_lobby
  | .user_joined_chat _ _ => ingame_state_protocol.user_joined_chat
  | .user_left_chat _ _ => ingame_state_protocol.user_left_chat
  | .chat_msg _ _ _ => ingame_state_protocol.chat_msg
  | .whisper_message _ _ => ingame_state_protocol.whisper_message
  | .friend_online_while_you_login _ => ingame_state_protocol.friend_online_while_you_login
  | .friend_login _ => ingame_state_protocol.friend_login
  | .friend_leave _ => ingame_state_protocol.friend_leave
  | .new_friendship _ => ingame_state_protocol.new_friendship
  | .broken_friendship _ => ingame_state_protocol.broken_friendship
  | .friendship_request _ => ingame_state_protocol.friendship_request
  | .friend_add_fail _ _ => ingame_state_protocol.friend_add_fail
  | .friend_removal_fail _ => ingame_state_protocol.friend_removal_fail
  | .friend_add_result _ _ => ingame_state_protocol.friend_add_result

theorem fields_opcode (p : Packet) : p.fields = .opcode p.opcode :: p.fields.tail := by
  cases p <;> rfl

/-- A client in the packet's phase takes the phase the packet means. -/
theorem cs_after_packet (p : Packet) : cs_after p.phase p.opcode = p.changes.getD p.phase := by
  cases p <;> rfl

end tejk_it_izi
