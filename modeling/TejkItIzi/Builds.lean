import TejkItIzi.PacketEffects
/-!
# Other builds

The packets depend on the byte order and on the widths of `unsigned`, `int` and
`size_t` of the machine the code is built for. The rest of the development is the
server on x86-64; here are the serializers, the packets and what the server reads
for any build, and that they are the same there.
-/

namespace tejk_it_izi

open ProgLib

/-- What a compiler decides, with widths in bytes; none is below 16 bits. An
`enum class` without a type is an `int`. -/
structure Build where
  byte_order : ByteOrder
  unsigned_size : Nat
  int_size : Nat
  long_size : Nat
  size_t_size : Nat
  unsigned_wide : 2 ≤ unsigned_size
  int_wide : 2 ≤ int_size
  size_t_wide : 2 ≤ size_t_size

def Build.x86_64 : Build := ⟨.little, 4, 4, 8, 8, by decide, by decide, by decide⟩

/-- A sum of a `size_t` and an `unsigned` is taken in the wider of the two. -/
def Build.word (b : Build) : Nat := 8 * max b.size_t_size b.unsigned_size

/-! ## Writing -/

/-- An operand of `<<`. An opcode is a `char`. -/
inductive Field where
  | opcode (code : UInt8)
  | unsigned (n : Nat)
  | int (n : Nat)
  | literal (n : Nat)
  | size_t (n : Nat)
  | string (text : Bytes)

/-- What `<<` copies into the buffer. -/
def Field.bytes (b : Build) : Field → Bytes
  | .opcode code => [code]
  | .unsigned n => b.byte_order.encode b.unsigned_size n
  | .int n => b.byte_order.encode b.int_size n
  -- A `long` when it is no `int`.
  | .literal n => b.byte_order.encode (if n < 2 ^ (8 * b.int_size - 1) then b.int_size else b.long_size) n
  | .size_t n => b.byte_order.encode b.size_t_size n
  | .string text => b.byte_order.encode b.unsigned_size text.length ++ text

/-- `bs << .. << ..`. -/
def Build.written (b : Build) (fields : List Field) : Bytes := fields.flatMap (Field.bytes b)

def LobbyCharacter.fields (character : LobbyCharacter) : List Field := [.unsigned character.uid, .string character.name]

/-- What the packet's constructor writes. -/
def Packet.fields : Packet → List Field
  | .good_boy_good_keys => [.opcode preauth_state_protocol.good_boy_good_keys]
  | .fuck_you_bad_keys => [.opcode preauth_state_protocol.fuck_you_bad_keys]
  | .character_list l =>
    [.opcode lobby_state_protocol.character_list, .size_t l.length] ++ l.flatMap LobbyCharacter.fields
  | .character_selected c => [.opcode lobby_state_protocol.character_selected, .string c.name]
  | .character_created c => .opcode lobby_state_protocol.character_created :: c.fields
  | .character_creation_fail r => [.opcode lobby_state_protocol.character_creation_fail, .int r.code]
  | .moved_to_lobby => [.opcode ingame_state_protocol.moved_to_lobby]
  | .user_joined_chat c u => [.opcode ingame_state_protocol.user_joined_chat, .string c, .string u]
  | .user_left_chat c u => [.opcode ingame_state_protocol.user_left_chat, .string c, .string u]
  | .chat_msg c u m => [.opcode ingame_state_protocol.chat_msg, .string c, .string u, .string m]
  | .whisper_message s m => [.opcode ingame_state_protocol.whisper_message, .string s, .string m]
  | .friend_online_while_you_login n => [.opcode ingame_state_protocol.friend_online_while_you_login, .string n]
  | .friend_login n => [.opcode ingame_state_protocol.friend_login, .string n]
  | .friend_leave n => [.opcode ingame_state_protocol.friend_leave, .string n]
  | .new_friendship n => [.opcode ingame_state_protocol.new_friendship, .string n]
  | .broken_friendship n => [.opcode ingame_state_protocol.broken_friendship, .string n]
  | .friendship_request n => [.opcode ingame_state_protocol.friendship_request, .string n]
  | .friend_add_fail r n => [.opcode ingame_state_protocol.friend_add_fail, .int r.code, .string n]
  | .friend_removal_fail n => [.opcode ingame_state_protocol.friend_removal_fail, .string n]
  | .friend_add_result r n => [.opcode ingame_state_protocol.friend_add_result, .int r.code, .string n]

/-! ## Reading -/

namespace BinaryDeserializer

variable {w : Nat}

/-- `operator>>` for a number of `k` bytes. -/
def read_number (b : Build) (k : Nat) (bd : BinaryDeserializer w) : Except StdException (Nat × BinaryDeserializer w) := do
  let (raw, bd) ← bd.read_pod k
  .ok (b.byte_order.decode raw, bd)

def read_unsigned (b : Build) (bd : BinaryDeserializer w) : Except StdException (Nat × BinaryDeserializer w) :=
  bd.read_number b b.unsigned_size

/-- Also an `enum class`. -/
def read_int (b : Build) (bd : BinaryDeserializer w) : Except StdException (Nat × BinaryDeserializer w) :=
  bd.read_number b b.int_size

def read_size_t (b : Build) (bd : BinaryDeserializer w) : Except StdException (Nat × BinaryDeserializer w) :=
  bd.read_number b b.size_t_size

/-- `operator>>` for a string. -/
def read_text (b : Build) (bd : BinaryDeserializer w) : Except StdException (Bytes × BinaryDeserializer w) :=
  if bd.max_size < bd.current_pos + BitVec.ofNat w b.unsigned_size then .error .underflow_error
  else do
    let (size, bd) ← bd.read_unsigned b
    if bd.max_size < bd.current_pos + BitVec.ofNat w size then .error .underflow_error
    else .ok (bd.bytes_at size, bd.advance size)

/-- These bytes are left of the packet. -/
structure Unread (bd : BinaryDeserializer w) (rest : Bytes) : Prop where
  size : bd.current_pos.toNat + rest.length = bd.max_size.toNat
  bytes : (bd.data.drop bd.current_pos.toNat).take rest.length = rest
  in_buffer : bd.max_size.toNat ≤ buffer_size

end BinaryDeserializer

def Build.reader (b : Build) (data : Buffer) (size : Nat) : BinaryDeserializer b.word := .new data.bytes size

/-- The packet lies at the beginning of the buffer, and there may be anything
behind it. -/
structure Buffer.Holds (data : Buffer) (packet : Bytes) : Prop where
  fits : packet.length ≤ buffer_size
  bytes : data.bytes.take packet.length = packet

section reading

variable {b : Build} {w : Nat} {bd : BinaryDeserializer w} {raw rest : Bytes}

theorem size_lt_width {k n : Nat} (hk : 2 ≤ k) (h : n ≤ buffer_size) : n < 256 ^ k := by
  have h2 : 256 ^ 2 ≤ 256 ^ k := Nat.pow_le_pow_right (by decide) hk
  have hb : buffer_size < 256 ^ 2 := by decide
  omega

theorem Buffer.Holds.unread {data : Buffer} {packet : Bytes} (h : data.Holds packet) :
    (b.reader data packet.length).Unread packet := by
  have hlt : packet.length < 2 ^ b.word := by
    have := size_lt_width (b.size_t_wide.trans (Nat.le_max_left _ b.unsigned_size)) h.fits
    rwa [show 256 = 2 ^ 8 from rfl, ← Nat.pow_mul] at this
  have hmax : (b.reader data packet.length).max_size.toNat = packet.length := by
    rw [Build.reader, BinaryDeserializer.new, BitVec.toNat_ofNat, Nat.mod_eq_of_lt hlt]
  have hpos : (b.reader data packet.length).current_pos.toNat = 0 := by simp [Build.reader, BinaryDeserializer.new]
  refine ⟨by rw [hpos, hmax, Nat.zero_add], ?_, by rw [hmax]; exact h.fits⟩
  rw [hpos, List.drop_zero]
  exact h.bytes

namespace BinaryDeserializer.Unread

theorem advanced (h : bd.Unread (raw ++ rest)) :
    (bd.current_pos + BitVec.ofNat w raw.length).toNat = bd.current_pos.toNat + raw.length := by
  have hsize := h.size
  have hmax := bd.max_size.isLt
  rw [List.length_append] at hsize
  rw [BitVec.toNat_add, BitVec.toNat_ofNat, Nat.add_mod_mod]
  exact Nat.mod_eq_of_lt (by omega)

theorem within (h : bd.Unread (raw ++ rest)) : ¬ bd.max_size < bd.current_pos + BitVec.ofNat w raw.length := by
  have hsize := h.size
  rw [List.length_append] at hsize
  rw [BitVec.lt_def, h.advanced]
  omega

theorem bytes_at (h : bd.Unread (raw ++ rest)) : bd.bytes_at raw.length = raw := by
  have hbytes := congrArg (List.take raw.length) h.bytes
  rw [List.take_take, List.take_left, List.length_append, Nat.min_eq_left (Nat.le_add_right _ _)] at hbytes
  exact hbytes

theorem advance (h : bd.Unread (raw ++ rest)) : (bd.advance raw.length).Unread rest := by
  have hsize := h.size
  have hbytes := congrArg (List.drop raw.length) h.bytes
  rw [List.length_append] at hsize
  rw [List.drop_left, List.length_append, ← List.take_drop, List.drop_drop] at hbytes
  refine ⟨?_, ?_, h.in_buffer⟩
  · show (bd.current_pos + BitVec.ofNat w raw.length).toNat + rest.length = bd.max_size.toNat
    rw [h.advanced]
    omega
  · show (bd.data.drop (bd.current_pos + BitVec.ofNat w raw.length).toNat).take rest.length = rest
    rw [h.advanced]
    exact hbytes

theorem pod (h : bd.Unread (raw ++ rest)) : ∃ bd', bd.read_pod raw.length = .ok (raw, bd') ∧ bd'.Unread rest := by
  refine ⟨bd.advance raw.length, ?_, h.advance⟩
  rw [read_pod, if_neg h.within, h.bytes_at]

theorem opcode {code : UInt8} (h : bd.Unread ((Field.opcode code).bytes b ++ rest)) :
    ∃ bd', bd.read_opcode = .ok (code, bd') ∧ bd'.Unread rest := by
  obtain ⟨bd', hread, h'⟩ := h.pod
  refine ⟨bd', ?_, h'⟩
  rw [read_opcode, show bd.read_pod 1 = _ from hread]
  rfl

theorem number {k n : Nat} (h : bd.Unread (b.byte_order.encode k n ++ rest)) (hn : n < 256 ^ k) :
    ∃ bd', bd.read_number b k = .ok (n, bd') ∧ bd'.Unread rest := by
  obtain ⟨bd', hread, h'⟩ := h.pod
  rw [ByteOrder.length_encode] at hread
  refine ⟨bd', ?_, h'⟩
  rw [read_number, hread]
  show Except.ok (b.byte_order.decode (b.byte_order.encode k n), bd') = _
  rw [b.byte_order.decode_encode hn]

theorem text {text : Bytes} (h : bd.Unread ((Field.string text).bytes b ++ rest)) :
    ∃ bd', bd.read_text b = .ok (text, bd') ∧ bd'.Unread rest := by
  rw [Field.bytes, List.append_assoc] at h
  have hfits : text.length < 256 ^ b.unsigned_size := by
    have hsize := h.size
    have hbuffer := h.in_buffer
    simp only [List.length_append] at hsize
    exact size_lt_width b.unsigned_wide (by omega)
  have hwithin := h.within
  rw [ByteOrder.length_encode] at hwithin
  obtain ⟨bd', hread, h'⟩ := h.number hfits
  refine ⟨bd'.advance text.length, ?_, h'.advance⟩
  rw [read_text, if_neg hwithin, read_unsigned, hread]
  show (if bd'.max_size < bd'.current_pos + BitVec.ofNat w text.length then _ else _) = _
  rw [if_neg h'.within, h'.bytes_at]

end BinaryDeserializer.Unread

/-- The fields of a packet are read one after the other. -/
theorem BinaryDeserializer.Unread.next {field : Field} {fields : List Field}
    (h : bd.Unread (b.written (field :: fields) ++ rest)) : bd.Unread (field.bytes b ++ (b.written fields ++ rest)) := by
  rwa [Build.written, List.flatMap_cons, List.append_assoc] at h

theorem Buffer.Holds.opcode {data : Buffer} {packet fields : List Field} {code : UInt8}
    (h : data.Holds (b.written packet ++ rest)) (hp : packet = .opcode code :: fields) :
    ∃ bd, (b.reader data (b.written packet ++ rest).length).read_opcode = .ok (code, bd) ∧
      bd.Unread (b.written fields ++ rest) := by
  subst hp
  exact h.unread.next.opcode

end reading

/-! ## The server -/

section server

variable {b : Build} {w : Nat} {ρ : Type}

def one_string_on (b : Build) (bd : BinaryDeserializer w) (k : Bytes → ρ) : Except StdException ρ := do
  let (text, _) ← bd.read_text b
  .ok (k text)

def two_strings_on (b : Build) (bd : BinaryDeserializer w) (k : Bytes → Bytes → ρ) : Except StdException ρ := do
  let (first, bd) ← bd.read_text b
  let (second, _) ← bd.read_text b
  .ok (k first second)

def preauth_state.read_on (b : Build) (data : Buffer) (size : Nat) : Keys :=
  match (b.reader data size).read_opcode with
  | .error _ => .no_opcode
  | .ok (opcode, bd) =>
    if opcode = preauth_state_protocol.loginserver_keys then
      match two_strings_on b bd Prod.mk with
      | .error _ => .malformed
      | .ok (loginserver_key, account_login) =>
        if loginserver_key.length ≠ 64 then .malformed else .keys loginserver_key account_login
    else .unknown_opcode

open lobby_state_protocol in
def lobby_state_recv_packet_factory.construct_on (b : Build) (data : Buffer) (size : Nat) :
    Except StdException LobbyRequest := do
  let (opcode, bd) ← (b.reader data size).read_opcode
  if opcode = select_character then one_string_on b bd .request_character_select
  else if opcode = create_character then one_string_on b bd .request_character_create
  else if opcode = delete_character then one_string_on b bd .request_character_delete
  else if opcode = log_off then .ok .request_lobby_log_off
  else .ok .null_received_packet

open ingame_state_protocol in
def ingame_state_recv_packet_factory.construct_on (b : Build) (data : Buffer) (size : Nat) :
    Except StdException IngameRequest := do
  let (opcode, bd) ← (b.reader data size).read_opcode
  if opcode = join_chat then one_string_on b bd .join_chat
  else if opcode = leave_chat then one_string_on b bd .leave_chat
  else if opcode = log_off_to_lobby then .ok .log_off_to_lobby
  else if opcode = send_chat_msg then two_strings_on b bd .send_chat_msg
  else if opcode = send_whisper then two_strings_on b bd .send_whisper
  else if opcode = friend_add then one_string_on b bd .friend_add
  else if opcode = friend_remove then one_string_on b bd .friend_remove
  else .ok .null_received_packet

theorem one_string_read {bd : BinaryDeserializer w} {text rest : Bytes} {fields : List Field}
    (h : bd.Unread (b.written (.string text :: fields) ++ rest)) (k : Bytes → ρ) :
    one_string_on b bd k = .ok (k text) := by
  obtain ⟨bd', hread, _⟩ := h.next.text
  rw [one_string_on, hread]
  rfl

theorem two_strings_read {bd : BinaryDeserializer w} {first second rest : Bytes} {fields : List Field}
    (h : bd.Unread (b.written (.string first :: .string second :: fields) ++ rest)) (k : Bytes → Bytes → ρ) :
    two_strings_on b bd k = .ok (k first second) := by
  obtain ⟨bd1, h1, hrest⟩ := h.next.text
  obtain ⟨bd2, h2, _⟩ := hrest.next.text
  rw [two_strings_on, h1]
  show (do
    let (second, _) ← bd1.read_text b
    .ok (k first second) : Except StdException ρ) = _
  rw [h2]
  rfl

end server

/-! ## On x86-64 -/

section x86_64

variable {w : Nat} {ρ : Type}

theorem read_text_x86_64 (bd : BinaryDeserializer w) : bd.read_text .x86_64 = bd.read_string := by
  rw [BinaryDeserializer.read_text, BinaryDeserializer.read_unsigned, BinaryDeserializer.read_number,
    show Build.x86_64.unsigned_size = 4 from rfl, BinaryDeserializer.read_string]
  cases bd.read_pod 4 <;> rfl

theorem one_string_x86_64 (bd : BinaryDeserializer Build.x86_64.word) (k : Bytes → ρ) :
    one_string_on .x86_64 bd k = one_string bd k := by
  rw [one_string_on, read_text_x86_64]
  rfl

theorem two_strings_x86_64 (bd : BinaryDeserializer Build.x86_64.word) (k : Bytes → Bytes → ρ) :
    two_strings_on .x86_64 bd k = two_strings bd k := by
  simp only [two_strings_on, read_text_x86_64]
  rfl

theorem read_x86_64 (data : Buffer) (size : Nat) :
    preauth_state.read_on .x86_64 data size = preauth_state.read data size := by
  unfold preauth_state.read_on preauth_state.read
  cases h : (data.reader size).read_opcode with
  | error e => rw [show (Build.x86_64.reader data size).read_opcode = _ from h]
  | ok r =>
    rw [show (Build.x86_64.reader data size).read_opcode = _ from h]
    have hstrings := two_strings_x86_64 r.2 Prod.mk
    cases h2 : two_strings r.2 Prod.mk with
    | error e =>
      rw [h2] at hstrings
      simp only [hstrings, h2]
    | ok keys =>
      rw [h2] at hstrings
      simp only [hstrings, h2]

theorem lobby_construct_x86_64 (data : Buffer) (size : Nat) :
    lobby_state_recv_packet_factory.construct_on .x86_64 data size = lobby_state_recv_packet_factory.construct data size := by
  unfold lobby_state_recv_packet_factory.construct_on lobby_state_recv_packet_factory.construct
  simp only [one_string_x86_64]
  rfl

theorem ingame_construct_x86_64 (data : Buffer) (size : Nat) :
    ingame_state_recv_packet_factory.construct_on .x86_64 data size = ingame_state_recv_packet_factory.construct data size := by
  unfold ingame_state_recv_packet_factory.construct_on ingame_state_recv_packet_factory.construct
  simp only [one_string_x86_64, two_strings_x86_64]
  rfl

/-- The serializer has written these fields. -/
def BinarySerializer.Wrote (bs : BinarySerializer) (fields : List Field) : Prop :=
  bs.written = Build.x86_64.written fields

namespace BinarySerializer.Wrote

variable {bs : BinarySerializer} {fields : List Field}

theorem pod {raw : Bytes} (h : bs.Wrote fields) {field : Field} (hf : field.bytes .x86_64 = raw) :
    (bs.put_pod raw).Wrote (fields ++ [field]) := by
  unfold Wrote Build.written at h ⊢
  rw [List.flatMap_append, List.flatMap_singleton, ← h, hf]
  rfl

theorem unsigned (h : bs.Wrote fields) (n : Nat) : (bs.put_unsigned n).Wrote (fields ++ [.unsigned n]) := h.pod rfl

theorem int (h : bs.Wrote fields) (n : Nat) : (bs.put_unsigned n).Wrote (fields ++ [.int n]) := h.pod rfl

theorem size_t (h : bs.Wrote fields) (n : Nat) : (bs.put_size n).Wrote (fields ++ [.size_t n]) := h.pod rfl

theorem string (h : bs.Wrote fields) {text : Bytes} (ht : text.length < 2 ^ 32) :
    (bs.put_string text).Wrote (fields ++ [.string text]) := by
  have hm : text.length % 2 ^ 32 = text.length := Nat.mod_eq_of_lt ht
  have hput : bs.put_string text = bs.put_pod ((Field.string text).bytes .x86_64) := by
    rw [BinarySerializer.put_string, hm, List.take_length]
    simp only [put_unsigned, put_pod, List.append_assoc]
    rfl
  rw [hput]
  exact h.pod rfl

theorem characters {l : List LobbyCharacter} (h : bs.Wrote fields) (hl : ∀ c ∈ l, c.name.length < 2 ^ 32) :
    (l.foldl lobby_packet_constructors.put_character bs).Wrote (fields ++ l.flatMap LobbyCharacter.fields) := by
  induction l generalizing bs fields with
  | nil => rwa [List.flatMap_nil, List.append_nil]
  | cons c l ih =>
    have hc : (lobby_packet_constructors.put_character bs c).Wrote (fields ++ [.unsigned c.uid] ++ [.string c.name]) :=
      (h.unsigned c.uid).string (hl c List.mem_cons_self)
    have hrest := ih hc fun c' hc' => hl c' (List.mem_cons_of_mem _ hc')
    rw [List.append_assoc, List.append_assoc] at hrest
    exact hrest

end BinarySerializer.Wrote

/-- The constructors of the packets write their fields. -/
theorem Packet.wrote {p : Packet} (h : p.Short) : p.serialize.Wrote p.fields := by
  have op (code : UInt8) : (start_packet code).Wrote [.opcode code] := rfl
  unfold Packet.Short at h
  cases p with
  | good_boy_good_keys | fuck_you_bad_keys | moved_to_lobby => exact op _
  | character_creation_fail r => exact (op _).int _
  | character_list l => exact ((op _).size_t _).characters fun c hc => h _ (List.mem_map_of_mem hc)
  | character_created c =>
    simp only [Packet.strings, List.forall_mem_cons] at h
    exact ((op _).unsigned _).string h.1
  | user_joined_chat c u | user_left_chat c u | whisper_message c u =>
    simp only [Packet.strings, List.forall_mem_cons] at h
    exact ((op _).string h.1).string h.2.1
  | chat_msg c u m =>
    simp only [Packet.strings, List.forall_mem_cons] at h
    exact (((op _).string h.1).string h.2.1).string h.2.2.1
  | friend_add_fail r n | friend_add_result r n =>
    simp only [Packet.strings, List.forall_mem_cons] at h
    exact ((op _).int _).string h.1
  | _ =>
    simp only [Packet.strings, List.forall_mem_cons] at h
    exact (op _).string h.1

end x86_64

end tejk_it_izi
