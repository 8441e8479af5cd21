import TejkItIzi.Utils
/-!
# Packets to the client

One constructor of `Packet` for every packet the server sends, and under the
source's name the function that writes it. `Packet.size` is the number of bytes
a packet takes; the serializer itself never compares it with the buffer.
-/

namespace tejk_it_izi

open ProgLib

structure LobbyCharacter where
  uid : Nat
  name : Bytes
  deriving DecidableEq

inductive CharacterCreationFailReason where
  | name_too_long
  | name_contains_incorrect_digits
  | name_already_used
  | character_limit_exceeded
  deriving DecidableEq

inductive FriendAddFailReason where
  | player_not_online
  | cannot_invite_self
  | already_friends
  deriving DecidableEq

inductive FriendAddRequestResult where
  | sent_succesfully
  | previous_still_waiting
  deriving DecidableEq

/-! ## Opcodes -/

namespace preauth_state_protocol
def good_boy_good_keys : UInt8 := 0
def fuck_you_bad_keys : UInt8 := 1
def loginserver_keys : UInt8 := 0
end preauth_state_protocol

namespace lobby_state_protocol
def character_list : UInt8 := 0
def character_selected : UInt8 := 1
def character_created : UInt8 := 2
def character_creation_fail : UInt8 := 3

def select_character : UInt8 := 0
def create_character : UInt8 := 1
def delete_character : UInt8 := 2
def log_off : UInt8 := 3
end lobby_state_protocol

namespace ingame_state_protocol
def moved_to_lobby : UInt8 := 0
def user_joined_chat : UInt8 := 1
def user_left_chat : UInt8 := 2
def chat_msg : UInt8 := 3
def whisper_message : UInt8 := 4
def friend_online_while_you_login : UInt8 := 5
def friend_login : UInt8 := 6
def friend_leave : UInt8 := 7
def new_friendship : UInt8 := 8
def broken_friendship : UInt8 := 9
def friendship_request : UInt8 := 10
def friend_add_fail : UInt8 := 11
def friend_removal_fail : UInt8 := 12
def friend_add_result : UInt8 := 13

def log_off_to_lobby : UInt8 := 0
def join_chat : UInt8 := 1
def leave_chat : UInt8 := 2
def send_chat_msg : UInt8 := 3
def send_whisper : UInt8 := 4
def friend_add : UInt8 := 5
def friend_remove : UInt8 := 6
end ingame_state_protocol

/-! ## The packet constructors -/

/-- An `enum class` without a type is an `int`. -/
def CharacterCreationFailReason.code : CharacterCreationFailReason → Nat
  | .name_too_long => 0
  | .name_contains_incorrect_digits => 1
  | .name_already_used => 2
  | .character_limit_exceeded => 3

def FriendAddFailReason.code : FriendAddFailReason → Nat
  | .player_not_online => 0
  | .cannot_invite_self => 1
  | .already_friends => 2

def FriendAddRequestResult.code : FriendAddRequestResult → Nat
  | .sent_succesfully => 0
  | .previous_still_waiting => 1

/-- `binary_serializer bs(buffer_to_fill); bs << opcode`. -/
def start_packet (opcode : UInt8) : BinarySerializer := BinarySerializer.new.put_pod [opcode]

namespace lobby_packet_constructors

def put_character (bs : BinarySerializer) (character : LobbyCharacter) : BinarySerializer :=
  (bs.put_unsigned character.uid).put_string character.name

def character_list (lobby_chars : List LobbyCharacter) : BinarySerializer :=
  lobby_chars.foldl put_character ((start_packet lobby_state_protocol.character_list).put_size lobby_chars.length)

def character_selected (character : LobbyCharacter) : BinarySerializer :=
  (start_packet lobby_state_protocol.character_selected).put_string character.name

def character_created (new_character : LobbyCharacter) : BinarySerializer :=
  put_character (start_packet lobby_state_protocol.character_created) new_character

def character_creation_fail (reason : CharacterCreationFailReason) : BinarySerializer :=
  (start_packet lobby_state_protocol.character_creation_fail).put_unsigned reason.code

end lobby_packet_constructors

namespace ingame_packet_constructors

/-- The body of the constructors that send one name. -/
def name_packet (opcode : UInt8) (name : Bytes) : BinarySerializer := (start_packet opcode).put_string name

def moved_to_lobby : BinarySerializer := start_packet ingame_state_protocol.moved_to_lobby

def user_joined_chat (chatroom user : Bytes) : BinarySerializer :=
  ((start_packet ingame_state_protocol.user_joined_chat).put_string chatroom).put_string user

def user_left_chat (chatroom user : Bytes) : BinarySerializer :=
  ((start_packet ingame_state_protocol.user_left_chat).put_string chatroom).put_string user

def chat_msg (chatroom user msg : Bytes) : BinarySerializer :=
  (((start_packet ingame_state_protocol.chat_msg).put_string chatroom).put_string user).put_string msg

def whisper_message (sender msg : Bytes) : BinarySerializer :=
  ((start_packet ingame_state_protocol.whisper_message).put_string sender).put_string msg

def friend_online_while_you_login (name : Bytes) : BinarySerializer :=
  name_packet ingame_state_protocol.friend_online_while_you_login name

def friend_login (name : Bytes) : BinarySerializer := name_packet ingame_state_protocol.friend_login name

def friend_leave (name : Bytes) : BinarySerializer := name_packet ingame_state_protocol.friend_leave name

def new_friendship (name : Bytes) : BinarySerializer := name_packet ingame_state_protocol.new_friendship name

def broken_friendship (name : Bytes) : BinarySerializer := name_packet ingame_state_protocol.broken_friendship name

def friendship_request (name : Bytes) : BinarySerializer := name_packet ingame_state_protocol.friendship_request name

def friend_add_fail (reason : FriendAddFailReason) (name : Bytes) : BinarySerializer :=
  ((start_packet ingame_state_protocol.friend_add_fail).put_unsigned reason.code).put_string name

def friend_removal_fail (name : Bytes) : BinarySerializer :=
  name_packet ingame_state_protocol.friend_removal_fail name

def friend_add_result (result : FriendAddRequestResult) (name : Bytes) : BinarySerializer :=
  ((start_packet ingame_state_protocol.friend_add_result).put_unsigned result.code).put_string name

end ingame_packet_constructors

/-! ## Packets as data -/

/-- A packet with the fields its constructor is called with. -/
inductive Packet where
  | good_boy_good_keys
  | fuck_you_bad_keys
  | character_list (lobby_chars : List LobbyCharacter)
  | character_selected (character : LobbyCharacter)
  | character_created (new_character : LobbyCharacter)
  | character_creation_fail (reason : CharacterCreationFailReason)
  | moved_to_lobby
  | user_joined_chat (chatroom user : Bytes)
  | user_left_chat (chatroom user : Bytes)
  | chat_msg (chatroom user msg : Bytes)
  | whisper_message (sender msg : Bytes)
  | friend_online_while_you_login (name : Bytes)
  | friend_login (name : Bytes)
  | friend_leave (name : Bytes)
  | new_friendship (name : Bytes)
  | broken_friendship (name : Bytes)
  | friendship_request (name : Bytes)
  | friend_add_fail (reason : FriendAddFailReason) (name : Bytes)
  | friend_removal_fail (name : Bytes)
  | friend_add_result (result : FriendAddRequestResult) (name : Bytes)
  deriving DecidableEq

/-- What the packet's constructor writes. The two answers of the preauth state
are one-byte constants. -/
def Packet.serialize : Packet → BinarySerializer
  | .good_boy_good_keys => start_packet preauth_state_protocol.good_boy_good_keys
  | .fuck_you_bad_keys => start_packet preauth_state_protocol.fuck_you_bad_keys
  | .character_list l => lobby_packet_constructors.character_list l
  | .character_selected c => lobby_packet_constructors.character_selected c
  | .character_created c => lobby_packet_constructors.character_created c
  | .character_creation_fail r => lobby_packet_constructors.character_creation_fail r
  | .moved_to_lobby => ingame_packet_constructors.moved_to_lobby
  | .user_joined_chat c u => ingame_packet_constructors.user_joined_chat c u
  | .user_left_chat c u => ingame_packet_constructors.user_left_chat c u
  | .chat_msg c u m => ingame_packet_constructors.chat_msg c u m
  | .whisper_message s m => ingame_packet_constructors.whisper_message s m
  | .friend_online_while_you_login n => ingame_packet_constructors.friend_online_while_you_login n
  | .friend_login n => ingame_packet_constructors.friend_login n
  | .friend_leave n => ingame_packet_constructors.friend_leave n
  | .new_friendship n => ingame_packet_constructors.new_friendship n
  | .broken_friendship n => ingame_packet_constructors.broken_friendship n
  | .friendship_request n => ingame_packet_constructors.friendship_request n
  | .friend_add_fail r n => ingame_packet_constructors.friend_add_fail r n
  | .friend_removal_fail n => ingame_packet_constructors.friend_removal_fail n
  | .friend_add_result r n => ingame_packet_constructors.friend_add_result r n

/-! ## Sizes -/

/-- The bytes the characters of a list take. -/
def characters_size (l : List LobbyCharacter) : Nat := (l.map fun c => 8 + c.name.length).sum

/-- The number of bytes of a packet. -/
def Packet.size : Packet → Nat
  | .good_boy_good_keys | .fuck_you_bad_keys | .moved_to_lobby => 1
  | .character_list l => 9 + characters_size l
  | .character_selected c => 5 + c.name.length
  | .character_created c => 9 + c.name.length
  | .character_creation_fail _ => 5
  | .user_joined_chat c u | .user_left_chat c u => 9 + c.length + u.length
  | .chat_msg c u m => 13 + c.length + u.length + m.length
  | .whisper_message s m => 9 + s.length + m.length
  | .friend_online_while_you_login n | .friend_login n | .friend_leave n | .new_friendship n
  | .broken_friendship n | .friendship_request n | .friend_removal_fail n => 5 + n.length
  | .friend_add_fail _ n | .friend_add_result _ n => 9 + n.length

@[simp] theorem size_start_packet (opcode : UInt8) : (start_packet opcode).get_current_size = 1 := by
  simp [start_packet]

theorem size_put_characters_le (l : List LobbyCharacter) {bs : BinarySerializer} {n : Nat}
    (h : bs.get_current_size ≤ n) :
    (l.foldl lobby_packet_constructors.put_character bs).get_current_size ≤ n + characters_size l := by
  induction l generalizing bs n with
  | nil => simpa [characters_size] using h
  | cons c l ih =>
    have hu : (bs.put_unsigned c.uid).get_current_size ≤ n + 4 := by simpa using h
    have hc := ih (BinarySerializer.size_put_string_le hu c.name)
    simp only [List.foldl_cons, characters_size, List.map_cons, List.sum_cons] at hc ⊢
    exact hc.trans (by omega)

/-- No packet is longer than `Packet.size` says. -/
theorem Packet.serialize_size_le (p : Packet) : p.serialize.get_current_size ≤ p.size := by
  have h1 (op : UInt8) : (start_packet op).get_current_size ≤ 1 := (size_start_packet op).le
  have h5 (op : UInt8) (n : Nat) : ((start_packet op).put_unsigned n).get_current_size ≤ 5 := by simp
  have grow := @BinarySerializer.size_put_string_le
  cases p with
  | good_boy_good_keys => exact h1 _
  | fuck_you_bad_keys => exact h1 _
  | moved_to_lobby => exact h1 _
  | character_list l =>
    have h9 : ((start_packet lobby_state_protocol.character_list).put_size l.length).get_current_size ≤ 9 := by
      simp
    exact size_put_characters_le l h9
  | character_selected c => exact (grow (h1 _) c.name).trans (by simp only [size]; omega)
  | character_created c => exact (grow (h5 _ _) c.name).trans (by simp only [size]; omega)
  | character_creation_fail r => exact h5 _ _
  | user_joined_chat c u => exact (grow (grow (h1 _) c) u).trans (by simp only [size]; omega)
  | user_left_chat c u => exact (grow (grow (h1 _) c) u).trans (by simp only [size]; omega)
  | chat_msg c u m => exact (grow (grow (grow (h1 _) c) u) m).trans (by simp only [size]; omega)
  | whisper_message s m => exact (grow (grow (h1 _) s) m).trans (by simp only [size]; omega)
  | friend_online_while_you_login n => exact (grow (h1 _) n).trans (by simp only [size]; omega)
  | friend_login n => exact (grow (h1 _) n).trans (by simp only [size]; omega)
  | friend_leave n => exact (grow (h1 _) n).trans (by simp only [size]; omega)
  | new_friendship n => exact (grow (h1 _) n).trans (by simp only [size]; omega)
  | broken_friendship n => exact (grow (h1 _) n).trans (by simp only [size]; omega)
  | friendship_request n => exact (grow (h1 _) n).trans (by simp only [size]; omega)
  | friend_removal_fail n => exact (grow (h1 _) n).trans (by simp only [size]; omega)
  | friend_add_fail r n => exact (grow (h5 _ _) n).trans (by simp only [size]; omega)
  | friend_add_result r n => exact (grow (h5 _ _) n).trans (by simp only [size]; omega)

/-- A packet whose size is within the buffer was written within it. -/
theorem Packet.inBuffer_of_size {p : Packet} (h : p.size ≤ buffer_size) : p.serialize.InBuffer :=
  p.serialize_size_le.trans h

theorem size_put_characters (l : List LobbyCharacter) {bs : BinarySerializer}
    (h : ∀ c ∈ l, c.name.length < 2 ^ 32) :
    (l.foldl lobby_packet_constructors.put_character bs).get_current_size =
      bs.get_current_size + characters_size l := by
  induction l generalizing bs with
  | nil => simp [characters_size]
  | cons c l ih =>
    have hname : c.name.length < 2 ^ 32 := h c List.mem_cons_self
    rw [List.foldl_cons, ih fun c' hc => h c' (List.mem_cons_of_mem _ hc)]
    simp only [lobby_packet_constructors.put_character, BinarySerializer.size_put_string _ hname,
      BinarySerializer.size_put_unsigned, characters_size, List.map_cons, List.sum_cons]
    omega

def Packet.strings : Packet → List Bytes
  | .good_boy_good_keys | .fuck_you_bad_keys | .moved_to_lobby | .character_creation_fail _ => []
  | .character_list l => l.map (·.name)
  | .character_selected c | .character_created c => [c.name]
  | .user_joined_chat c u | .user_left_chat c u => [c, u]
  | .chat_msg c u m => [c, u, m]
  | .whisper_message s m => [s, m]
  | .friend_online_while_you_login n | .friend_login n | .friend_leave n | .new_friendship n
  | .broken_friendship n | .friendship_request n | .friend_removal_fail n => [n]
  | .friend_add_fail _ n | .friend_add_result _ n => [n]

/-- The length of every string fits the 32 bits it is written in. -/
def Packet.Short (p : Packet) : Prop := ∀ text ∈ p.strings, text.length < 2 ^ 32

theorem name_length_le {l : List LobbyCharacter} {c : LobbyCharacter} (h : c ∈ l) :
    c.name.length ≤ characters_size l := by
  induction l with
  | nil => cases h
  | cons c' l ih =>
    simp only [characters_size, List.map_cons, List.sum_cons] at ih ⊢
    rcases List.mem_cons.1 h with rfl | h
    · omega
    · have := ih h
      omega

theorem Packet.short_of_size {p : Packet} (h : p.size < 2 ^ 32) : p.Short := by
  cases p with
  | character_list l =>
    intro text ht
    obtain ⟨c, hc, rfl⟩ := List.mem_map.1 ht
    have := name_length_le hc
    simp only [size] at h
    omega
  | _ => simp only [size, Short, strings, List.mem_cons, List.not_mem_nil, or_false, forall_eq_or_imp, forall_eq,
      false_imp_iff, implies_true] at h ⊢ <;> omega

/-- `Packet.size` is exact for short strings. -/
theorem Packet.serialize_size {p : Packet} (h : p.Short) : p.serialize.get_current_size = p.size := by
  have h1 (op : UInt8) : (start_packet op).get_current_size = 1 := size_start_packet op
  have h5 (op : UInt8) (n : Nat) : ((start_packet op).put_unsigned n).get_current_size = 5 := by simp
  have grow {bs : BinarySerializer} {n : Nat} (hb : bs.get_current_size = n) (text : Bytes)
      (ht : text.length < 2 ^ 32) : (bs.put_string text).get_current_size = n + 4 + text.length := by
    rw [BinarySerializer.size_put_string _ ht, hb]
  unfold Short at h
  cases p with
  | good_boy_good_keys | fuck_you_bad_keys | moved_to_lobby => exact h1 _
  | character_creation_fail r => exact h5 _ _
  | character_list l =>
    refine (size_put_characters l fun c hc => h _ (List.mem_map_of_mem hc)).trans ?_
    simp [size]
  | character_selected c =>
    simp only [strings, List.forall_mem_cons] at h
    exact (grow (h1 _) c.name h.1).trans (by simp only [size])
  | character_created c =>
    simp only [strings, List.forall_mem_cons] at h
    exact (grow (h5 _ _) c.name h.1).trans (by simp only [size])
  | user_joined_chat c u | user_left_chat c u =>
    simp only [strings, List.forall_mem_cons] at h
    exact (grow (grow (h1 _) c h.1) u h.2.1).trans (by simp only [size]; omega)
  | chat_msg c u m =>
    simp only [strings, List.forall_mem_cons] at h
    exact (grow (grow (grow (h1 _) c h.1) u h.2.1) m h.2.2.1).trans (by simp only [size]; omega)
  | whisper_message s m =>
    simp only [strings, List.forall_mem_cons] at h
    exact (grow (grow (h1 _) s h.1) m h.2.1).trans (by simp only [size]; omega)
  | friend_online_while_you_login n | friend_login n | friend_leave n | new_friendship n | broken_friendship n
  | friendship_request n | friend_removal_fail n =>
    simp only [strings, List.forall_mem_cons] at h
    exact (grow (h1 _) n h.1).trans (by simp only [size])
  | friend_add_fail r n | friend_add_result r n =>
    simp only [strings, List.forall_mem_cons] at h
    exact (grow (h5 _ _) n h.1).trans (by simp only [size])

theorem Packet.inBuffer_iff {p : Packet} (h : p.Short) : p.serialize.InBuffer ↔ p.size ≤ buffer_size := by
  rw [← serialize_size h]
  rfl

end tejk_it_izi
