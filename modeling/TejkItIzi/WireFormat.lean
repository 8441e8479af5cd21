import TejkItIzi.Client
/-!
# Both ends agree on every packet

What one end writes, the other reads as the same kind with the same fields, for
any build that both are made with.
-/

namespace tejk_it_izi

open ProgLib

/-! ## To the server -/

/-- The server reads the packet as the request that the command makes. -/
def ClientCommand.ReadAs (command : ClientCommand) (b : Build) (data : Buffer) (size : Nat) : Prop :=
  let lobby (request : LobbyRequest) := lobby_state_recv_packet_factory.construct_on b data size = .ok request
  let ingame (request : IngameRequest) := ingame_state_recv_packet_factory.construct_on b data size = .ok request
  match command with
  | .loginserver_keys login => preauth_state.read_on b data size = .keys loginkeys login
  | .create_character name => lobby (.request_character_create name)
  | .delete_character name => lobby (.request_character_delete name)
  | .select_character name => lobby (.request_character_select name)
  | .log_off => lobby .request_lobby_log_off
  | .send_whisper name msg => ingame (.send_whisper name msg)
  | .friend_add name => ingame (.friend_add name)
  | .friend_remove name => ingame (.friend_remove name)
  | .join_chat name => ingame (.join_chat name)
  | .leave_chat name => ingame (.leave_chat name)
  | .send_chat_msg chatroom_name msg => ingame (.send_chat_msg chatroom_name msg)
  | .log_off_to_lobby => ingame .log_off_to_lobby

section server

variable {b : Build} {data : Buffer} {extra : Bytes}

/-- What follows the fields does not matter. -/
theorem command_read (command : ClientCommand) (h : data.Holds (b.written command.fields ++ extra)) :
    command.ReadAs b data (b.written command.fields ++ extra).length := by
  cases command with
  | loginserver_keys login =>
    obtain ⟨bd, hop, hrest⟩ := h.opcode rfl
    show preauth_state.read_on b data _ = _
    have hkeys := two_strings_read hrest Prod.mk
    simp only [preauth_state.read_on, hop, hkeys]
    rfl
  | create_character name | delete_character name | select_character name =>
    obtain ⟨bd, hop, hrest⟩ := h.opcode rfl
    show lobby_state_recv_packet_factory.construct_on b data _ = _
    rw [lobby_state_recv_packet_factory.construct_on, hop]
    exact one_string_read hrest _
  | log_off =>
    obtain ⟨bd, hop, hrest⟩ := h.opcode rfl
    show lobby_state_recv_packet_factory.construct_on b data _ = _
    rw [lobby_state_recv_packet_factory.construct_on, hop]
    rfl
  | friend_add name | friend_remove name | join_chat name | leave_chat name =>
    obtain ⟨bd, hop, hrest⟩ := h.opcode rfl
    show ingame_state_recv_packet_factory.construct_on b data _ = _
    rw [ingame_state_recv_packet_factory.construct_on, hop]
    exact one_string_read hrest _
  | send_whisper name msg | send_chat_msg name msg =>
    obtain ⟨bd, hop, hrest⟩ := h.opcode rfl
    show ingame_state_recv_packet_factory.construct_on b data _ = _
    rw [ingame_state_recv_packet_factory.construct_on, hop]
    exact two_strings_read hrest _
  | log_off_to_lobby =>
    obtain ⟨bd, hop, hrest⟩ := h.opcode rfl
    show ingame_state_recv_packet_factory.construct_on b data _ = _
    rw [ingame_state_recv_packet_factory.construct_on, hop]
    rfl

end server

/-! ## To the client -/

/-- What the client has to read. Only the name of a selected character is
written. -/
def Packet.received : Packet → Received
  | .good_boy_good_keys => .good_boy_good_keys
  | .fuck_you_bad_keys => .fuck_you_bad_keys
  | .character_list l => .character_list l
  | .character_selected c => .character_selected c.name
  | .character_created c => .character_created c.uid c.name
  | .character_creation_fail r => .character_creation_fail r
  | .moved_to_lobby => .moved_to_lobby
  | .user_joined_chat c u => .user_joined_chat c u
  | .user_left_chat c u => .user_left_chat c u
  | .chat_msg c u m => .chat_msg c u m
  | .whisper_message s m => .whisper_message s m
  | .friend_online_while_you_login n => .friend_online_while_you_login n
  | .friend_login n => .friend_login n
  | .friend_leave n => .friend_leave n
  | .new_friendship n => .new_friendship n
  | .broken_friendship n => .broken_friendship n
  | .friendship_request n => .friendship_request n
  | .friend_add_fail r n => .friend_add_fail r n
  | .friend_removal_fail n => .friend_removal_fail n
  | .friend_add_result r n => .friend_add_result r n

/-- The numbers of a packet are values of their types. -/
def Packet.Typed (b : Build) : Packet → Prop
  | .character_list l => ∀ c ∈ l, c.uid < 256 ^ b.unsigned_size
  | .character_created c => c.uid < 256 ^ b.unsigned_size
  | _ => True

theorem CharacterCreationFailReason.of_code_code (r : CharacterCreationFailReason) : of_code r.code = some r := by
  cases r <;> rfl

theorem CharacterCreationFailReason.code_le (r : CharacterCreationFailReason) : r.code ≤ buffer_size := by
  cases r <;> decide

theorem FriendAddFailReason.of_code_code (r : FriendAddFailReason) : of_code r.code = some r := by
  cases r <;> rfl

theorem FriendAddFailReason.code_le (r : FriendAddFailReason) : r.code ≤ buffer_size := by
  cases r <;> decide

theorem FriendAddRequestResult.of_code_code (r : FriendAddRequestResult) : of_code r.code = some r := by
  cases r <;> rfl

theorem FriendAddRequestResult.code_le (r : FriendAddRequestResult) : r.code ≤ buffer_size := by
  cases r <;> decide

section client

variable {b : Build} {w : Nat} {bd : BinaryDeserializer w} {fields : List Field} {rest : Bytes}

/-- A list that lies in a packet is counted in a `size_t`. -/
theorem length_le_written (l : List LobbyCharacter) :
    l.length ≤ (b.written (l.flatMap LobbyCharacter.fields)).length := by
  induction l with
  | nil => exact Nat.zero_le _
  | cons c l ih =>
    have hwide := b.unsigned_wide
    simp only [Build.written, LobbyCharacter.fields, List.flatMap_cons, List.flatMap_append, List.flatMap_nil,
      List.append_nil, List.length_append, List.length_cons, Field.bytes, ByteOrder.length_encode] at ih ⊢
    omega

theorem chars_read {l : List LobbyCharacter} (h : bd.Unread (b.written (l.flatMap LobbyCharacter.fields ++ fields) ++ rest))
    (hl : ∀ c ∈ l, c.uid < 256 ^ b.unsigned_size) :
    ∃ bd', read_chars b l.length bd = .ok (l, bd') ∧ bd'.Unread (b.written fields ++ rest) := by
  induction l generalizing bd with
  | nil => exact ⟨bd, rfl, h⟩
  | cons c l ih =>
    obtain ⟨bd1, huid, h1⟩ := h.next.number (hl c List.mem_cons_self)
    obtain ⟨bd2, hnick, h2⟩ := h1.next.text
    obtain ⟨bd3, hchars, h3⟩ := ih h2 fun c' hc => hl c' (List.mem_cons_of_mem _ hc)
    refine ⟨bd3, ?_, h3⟩
    rw [List.length_cons, read_chars]
    exact (except_bind_ok huid _).trans ((except_bind_ok hnick _).trans (except_bind_ok hchars _))

theorem code_and_name_read {code : Nat} {name : Bytes}
    (h : bd.Unread (b.written [.int code, .string name] ++ rest)) (hc : code ≤ buffer_size)
    (k : Nat → Bytes → Received) : code_and_name b bd k = .ok (k code name) := by
  obtain ⟨bd1, hread, h1⟩ := h.next.number (size_lt_width b.int_wide hc)
  rw [code_and_name, BinaryDeserializer.read_int, hread]
  exact one_string_read h1 _

/-- In the phase of the packet. -/
theorem recv_packet_read {p : Packet} (h : bd.Unread (b.written p.fields.tail ++ rest)) (ht : p.Typed b) :
    recv_packet b p.phase p.opcode bd = .ok p.received := by
  cases p with
  | good_boy_good_keys | fuck_you_bad_keys | moved_to_lobby => rfl
  | character_list l =>
    have hcount : l.length < 256 ^ b.size_t_size := by
      have hlist : (bd.advance _).Unread (b.written (l.flatMap LobbyCharacter.fields) ++ rest) := h.next.advance
      have hsize := hlist.size
      have hbuffer := hlist.in_buffer
      have hl := length_le_written (b := b) l
      rw [List.length_append] at hsize
      exact size_lt_width b.size_t_wide (by omega)
    obtain ⟨bd1, hread, h1⟩ := h.next.number hcount
    rw [← List.append_nil (l.flatMap _)] at h1
    obtain ⟨bd2, hchars, _⟩ := chars_read h1 ht
    exact (except_bind_ok hread _).trans (except_bind_ok hchars _)
  | character_selected c => exact one_string_read h _
  | character_created c =>
    obtain ⟨bd1, hread, h1⟩ := h.next.number ht
    exact (except_bind_ok hread _).trans (one_string_read h1 _)
  | character_creation_fail r =>
    obtain ⟨bd1, hread, h1⟩ := h.next.number (size_lt_width b.int_wide r.code_le)
    refine (except_bind_ok hread _).trans ?_
    show Except.ok (Received.of_code (CharacterCreationFailReason.of_code r.code) _ _) = _
    rw [CharacterCreationFailReason.of_code_code]
    rfl
  | user_joined_chat c u | user_left_chat c u | whisper_message c u => exact two_strings_read h _
  | chat_msg c u m =>
    obtain ⟨bd1, hread, h1⟩ := h.next.text
    exact (except_bind_ok hread _).trans (two_strings_read h1 _)
  | friend_online_while_you_login n | friend_login n | friend_leave n | new_friendship n | broken_friendship n
  | friendship_request n | friend_removal_fail n => exact one_string_read h _
  | friend_add_fail r n =>
    have hread := code_and_name_read h r.code_le fun reason username =>
      .of_code (FriendAddFailReason.of_code reason) reason (.friend_add_fail · username)
    rw [FriendAddFailReason.of_code_code] at hread
    exact hread
  | friend_add_result r n =>
    have hread := code_and_name_read h r.code_le fun result username =>
      .of_code (FriendAddRequestResult.of_code result) result (.friend_add_result · username)
    rw [FriendAddRequestResult.of_code_code] at hread
    exact hread

/-- A packet's opcode alone decides the client's next phase. -/
theorem on_recv_opcode {data : Buffer} {p : Packet} (cs : Phase) (h : data.Holds (b.written p.fields ++ rest)) :
    ∃ bd : BinaryDeserializer b.word, bd.Unread (b.written p.fields.tail ++ rest) ∧
      on_recv b cs data (b.written p.fields ++ rest).length = (do
        let received ← recv_packet b cs p.opcode bd
        .ok (received, cs_after cs p.opcode)) := by
  obtain ⟨bd, hop, hrest⟩ := h.opcode (fields_opcode p)
  refine ⟨bd, hrest, ?_⟩
  rw [on_recv, hop]
  rfl

theorem packet_read {data : Buffer} {p : Packet} (h : data.Holds (b.written p.fields ++ rest)) (ht : p.Typed b) :
    on_recv b p.phase data (b.written p.fields ++ rest).length = .ok (p.received, p.changes.getD p.phase) := by
  obtain ⟨bd, hrest, hrecv⟩ := on_recv_opcode p.phase h
  rw [hrecv, recv_packet_read hrest ht, ← cs_after_packet]
  rfl

end client

/-- The server reads every command as the request of that kind, and the client
every packet as the packet of that kind, both with the fields that were written. -/
theorem wire_format (b : Build) :
    (∀ (command : ClientCommand) (extra : Bytes) (data : Buffer), data.Holds (b.written command.fields ++ extra) →
      command.ReadAs b data (b.written command.fields ++ extra).length) ∧
    ∀ (p : Packet) (data : Buffer), p.Typed b → data.Holds (b.written p.fields) →
      on_recv b p.phase data (b.written p.fields).length = .ok (p.received, p.changes.getD p.phase) := by
  refine ⟨fun command extra data h => command_read command h, fun p data ht h => ?_⟩
  have hholds : data.Holds (b.written p.fields ++ []) := by rwa [List.append_nil]
  have hread := packet_read hholds ht
  rwa [List.append_nil] at hread

theorem holds_of {packet : Bytes} (h : packet.length ≤ buffer_size) : (Buffer.of packet).Holds packet := by
  refine ⟨h, ?_⟩
  show ((packet ++ _).take buffer_size).take packet.length = packet
  rw [List.take_take, Nat.min_eq_left h, List.take_left]

/-- Dora's new character, and the list of two. -/
theorem doras_packets_read :
    let command := ClientCommand.create_character (ascii "Dora")
    let packet := Build.x86_64.written command.fields ++ [7]
    let list := Packet.character_list [⟨9, ascii "Dora"⟩, ⟨10, ascii "Elsa"⟩]
    command.ReadAs .x86_64 (.of packet) packet.length ∧
      on_recv .x86_64 .lobby (.of (Build.x86_64.written list.fields)) (Build.x86_64.written list.fields).length =
        .ok (.character_list [⟨9, ascii "Dora"⟩, ⟨10, ascii "Elsa"⟩], .lobby) := by
  intro command packet list
  have htyped : list.Typed .x86_64 := by
    intro c hc
    simp only [List.mem_cons, List.not_mem_nil, or_false] at hc
    rcases hc with rfl | rfl <;> decide
  exact ⟨(wire_format .x86_64).1 command [7] _ (holds_of (by decide)),
    (wire_format .x86_64).2 list _ htyped (holds_of (by decide))⟩

end tejk_it_izi
