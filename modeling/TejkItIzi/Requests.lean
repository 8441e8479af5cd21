import TejkItIzi.Packets
/-!
# Packets from the client

What the packet factories make of a received buffer. A factory reads the
opcode, then the strings of that kind of request; what follows is ignored. On a
64-bit server `size_t` is 64 bits wide.
-/

namespace tejk_it_izi

open ProgLib

/-- `std::array<char, 2048>`, as received: past the packet's length it holds
what earlier packets left there. -/
structure Buffer where
  bytes : Bytes
  full : bytes.length = buffer_size

/-- A packet in a buffer that is otherwise zero. -/
def Buffer.of (packet : Bytes) : Buffer :=
  ⟨(packet ++ List.replicate buffer_size 0).take buffer_size, by simp⟩

inductive LobbyRequest where
  | request_character_select (char_name : Bytes)
  | request_character_create (char_name : Bytes)
  | request_character_delete (char_name : Bytes)
  | request_lobby_log_off
  | null_received_packet
  deriving DecidableEq

inductive IngameRequest where
  | log_off_to_lobby
  | join_chat (chatroom_name : Bytes)
  | leave_chat (chatroom_name : Bytes)
  | send_chat_msg (chatroom_name message : Bytes)
  | send_whisper (recipient message : Bytes)
  | friend_add (friend_name : Bytes)
  | friend_remove (friend_name : Bytes)
  | null_received_packet
  deriving DecidableEq

/-- The deserializer the states and factories put over a received packet. -/
def Buffer.reader (data : Buffer) (size : Nat) : BinaryDeserializer 64 := BinaryDeserializer.new data.bytes size

/-- A request whose constructor reads one string. -/
def one_string {ρ : Type} (bd : BinaryDeserializer 64) (k : Bytes → ρ) : Except StdException ρ := do
  let (text, _) ← bd.read_string
  .ok (k text)

/-- A request whose constructor reads two strings. -/
def two_strings {ρ : Type} (bd : BinaryDeserializer 64) (k : Bytes → Bytes → ρ) : Except StdException ρ := do
  let (first, bd) ← bd.read_string
  let (second, _) ← bd.read_string
  .ok (k first second)

/-! ## Only `std::underflow_error` -/

section errors

variable {w : Nat} {bd : BinaryDeserializer w} {e : StdException}

theorem read_pod_error {k : Nat} (h : bd.read_pod k = .error e) : e = .underflow_error := by
  unfold BinaryDeserializer.read_pod at h
  split at h
  · cases h; rfl
  · cases h

theorem read_opcode_error (h : bd.read_opcode = .error e) : e = .underflow_error := by
  unfold BinaryDeserializer.read_opcode at h
  cases hr : bd.read_pod 1 with
  | error e' =>
    rw [hr] at h
    cases h
    exact read_pod_error hr
  | ok r => rw [hr] at h; cases h

theorem read_string_error (h : bd.read_string = .error e) : e = .underflow_error := by
  unfold BinaryDeserializer.read_string at h
  split at h
  · cases h; rfl
  cases hr : bd.read_pod 4 with
  | error e' =>
    rw [hr] at h
    cases h
    exact read_pod_error hr
  | ok r =>
    rw [hr] at h
    simp only [bind, Except.bind] at h
    split at h
    · cases h; rfl
    · cases h

theorem two_strings_error {ρ : Type} {bd : BinaryDeserializer 64} {k : Bytes → Bytes → ρ}
    (h : two_strings bd k = .error e) : e = .underflow_error := by
  unfold two_strings at h
  cases h1 : bd.read_string with
  | error e' =>
    rw [h1] at h
    cases h
    exact read_string_error h1
  | ok r =>
    rw [h1] at h
    simp only [bind, Except.bind] at h
    cases h2 : r.2.read_string with
    | error e' =>
      rw [h2] at h
      cases h
      exact read_string_error h2
    | ok r' => rw [h2] at h; cases h

end errors

/-! ## The factories -/

open lobby_state_protocol in
def lobby_state_recv_packet_factory.construct (data : Buffer) (size : Nat) : Except StdException LobbyRequest := do
  let (opcode, bd) ← (data.reader size).read_opcode
  if opcode = select_character then one_string bd .request_character_select
  else if opcode = create_character then one_string bd .request_character_create
  else if opcode = delete_character then one_string bd .request_character_delete
  else if opcode = log_off then .ok .request_lobby_log_off
  else .ok .null_received_packet

open ingame_state_protocol in
def ingame_state_recv_packet_factory.construct (data : Buffer) (size : Nat) : Except StdException IngameRequest := do
  let (opcode, bd) ← (data.reader size).read_opcode
  if opcode = join_chat then one_string bd .join_chat
  else if opcode = leave_chat then one_string bd .leave_chat
  else if opcode = log_off_to_lobby then .ok .log_off_to_lobby
  else if opcode = send_chat_msg then two_strings bd .send_chat_msg
  else if opcode = send_whisper then two_strings bd .send_whisper
  else if opcode = friend_add then one_string bd .friend_add
  else if opcode = friend_remove then one_string bd .friend_remove
  else .ok .null_received_packet

/-! ## Lengths -/

/-- How long the strings of a request are that came in a packet. -/
def IngameRequest.Sized : IngameRequest → Prop
  | .join_chat text | .leave_chat text | .friend_add text | .friend_remove text => 5 + text.length ≤ buffer_size
  | .send_chat_msg first second | .send_whisper first second =>
    first.length ≤ buffer_size ∧ second.length ≤ buffer_size
  | .log_off_to_lobby | .null_received_packet => True

section lengths

variable {w : Nat} {bd bd' : BinaryDeserializer w} {text raw : Bytes}

theorem read_pod_ok {k : Nat} (h : bd.read_pod k = .ok (raw, bd')) : raw = bd.bytes_at k ∧ bd' = bd.advance k := by
  unfold BinaryDeserializer.read_pod at h
  split at h
  · cases h
  · cases h
    exact ⟨rfl, rfl⟩

/-- A string lies behind its length. -/
theorem read_string_length (h : bd.read_string = .ok (text, bd')) :
    text.length ≤ bd.data.length - (bd.current_pos + BitVec.ofNat w 4).toNat ∧ bd'.data = bd.data := by
  unfold BinaryDeserializer.read_string at h
  split at h
  · cases h
  cases hr : bd.read_pod 4 with
  | error e => rw [hr] at h; cases h
  | ok r =>
    obtain ⟨raw, bd1⟩ := r
    obtain ⟨_, rfl⟩ := read_pod_ok hr
    rw [hr] at h
    simp only [bind, Except.bind] at h
    split at h
    · cases h
    · cases h
      refine ⟨?_, rfl⟩
      simp only [BinaryDeserializer.bytes_at, List.length_take, List.length_drop]
      exact Nat.min_le_right _ _

theorem one_string_ok {ρ : Type} {bd : BinaryDeserializer 64} {k : Bytes → ρ} {r : ρ} (h : one_string bd k = .ok r) :
    ∃ text, r = k text ∧ text.length ≤ bd.data.length - (bd.current_pos + BitVec.ofNat 64 4).toNat := by
  unfold one_string at h
  cases hs : bd.read_string with
  | error e => rw [hs] at h; cases h
  | ok x =>
    rw [hs] at h
    cases h
    exact ⟨_, rfl, (read_string_length hs).1⟩

theorem two_strings_ok {ρ : Type} {bd : BinaryDeserializer 64} {k : Bytes → Bytes → ρ} {r : ρ}
    (h : two_strings bd k = .ok r) :
    ∃ first second, r = k first second ∧ first.length ≤ bd.data.length ∧ second.length ≤ bd.data.length := by
  unfold two_strings at h
  cases h1 : bd.read_string with
  | error e => rw [h1] at h; cases h
  | ok x =>
    rw [h1] at h
    simp only [bind, Except.bind] at h
    cases h2 : x.2.read_string with
    | error e => rw [h2] at h; cases h
    | ok y =>
      rw [h2] at h
      cases h
      obtain ⟨hl1, hd⟩ := read_string_length h1
      obtain ⟨hl2, _⟩ := read_string_length h2
      rw [hd] at hl2
      exact ⟨_, _, rfl, by omega, by omega⟩

theorem ingame_request_sized {data : Buffer} {size : Nat} {request : IngameRequest}
    (h : ingame_state_recv_packet_factory.construct data size = .ok request) : request.Sized := by
  unfold ingame_state_recv_packet_factory.construct at h
  cases hop : (data.reader size).read_opcode with
  | error e => rw [hop] at h; cases h
  | ok r =>
    obtain ⟨opcode, bd⟩ := r
    have hbd : bd = (data.reader size).advance 1 := by
      unfold BinaryDeserializer.read_opcode at hop
      cases hp : (data.reader size).read_pod 1 with
      | error e => rw [hp] at hop; cases hop
      | ok x =>
        rw [hp] at hop
        cases hop
        exact (read_pod_ok hp).2
    have hdata : bd.data.length = buffer_size := by rw [hbd]; exact data.full
    have hpos : (bd.current_pos + BitVec.ofNat 64 4).toNat = 5 := by rw [hbd]; rfl
    rw [hop] at h
    simp only [bind, Except.bind] at h
    have hone {k : Bytes → IngameRequest} (h : one_string bd k = .ok request) :
        ∃ text, request = k text ∧ 5 + text.length ≤ buffer_size := by
      obtain ⟨text, hr, hl⟩ := one_string_ok h
      rw [hpos, hdata] at hl
      exact ⟨text, hr, by unfold buffer_size at hl ⊢; omega⟩
    have htwo {k : Bytes → Bytes → IngameRequest} (h : two_strings bd k = .ok request) :
        ∃ a b, request = k a b ∧ a.length ≤ buffer_size ∧ b.length ≤ buffer_size := by
      obtain ⟨a, b, hr, ha, hb⟩ := two_strings_ok h
      exact ⟨a, b, hr, hdata ▸ ha, hdata ▸ hb⟩
    repeat' split at h
    all_goals first
      | (obtain ⟨text, rfl, hl⟩ := hone h; exact hl)
      | (obtain ⟨a, b, rfl, hl⟩ := htwo h; exact hl)
      | (cases h; trivial)

end lengths

end tejk_it_izi
