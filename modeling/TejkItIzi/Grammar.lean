import TejkItIzi.PacketEffects
import TejkItIzi.Reads
/-!
# The grammar of requests

A request is spelled as its opcode and its strings. The factories accept the
packets that begin with the spelling of a request, take an unknown opcode for a
null packet and throw on the rest.
-/

namespace tejk_it_izi

open ProgLib

/-! ## The position on 64 bits -/

/-- Without a skip the position stays in the packet, where no sum wraps. -/
structure Reading.Plain (r : Reading 64) : Prop extends r.Tracks where
  within : r.moved ≤ r.packet.length

section plain

variable {r : Reading 64} {k : Nat} {text : Bytes} {bd : BinaryDeserializer 64}

namespace Reading.Plain

theorem fits (h : r.Plain) (hk : k ≤ 4 + 2 ^ 32) : r.Fits k := by
  have hin := h.within
  have hmem := h.in_memory
  have hbuffer := h.in_buffer
  unfold buffer_size at hbuffer
  have hlt : r.moved + k < 2 ^ 64 := by
    rw [h.length_packet] at hin
    omega
  unfold Reading.Fits
  rw [Nat.mod_eq_of_lt hlt]
  exact (Nat.lt_or_ge _ _).symm

theorem next (h : r.Plain) {bytes : Bytes} (hpre : bytes <+: r.rest) : r.Next bytes := by
  have hlen := hpre.length_le
  have hin := h.within
  rw [r.length_rest] at hlen
  exact ⟨by omega, hpre⟩

theorem text_exact (h : r.Plain) : r.TextExact := by
  have hsize : r.text_size < 256 ^ 4 := by
    have hlt := LittleEndian.decode_lt (r.rest.take 4)
    have hpow : 256 ^ (r.rest.take 4).length ≤ 256 ^ 4 :=
      Nat.pow_le_pow_right (by decide) (List.length_take_le _ _)
    exact hlt.trans_le hpow
  have hfits : ReadOp.text.Unwrapped r := ⟨h.fits (by decide), fun _ => h.fits (by omega)⟩
  exact ((h.exact_iff (by decide) .text).2 hfits).2

/-- A string that is next is read, and what follows it is next. -/
theorem text_read (h : r.Plain) (hpre : packed text <+: r.rest) :
    ∃ r' : Reading 64, r'.Plain ∧ r.rest = packed text ++ r'.rest ∧ r.bd.read_string = .ok (text, r'.bd) := by
  have hnext := h.next hpre
  have hlen : (packed text).length = 4 + text.length := by simp [packed]
  refine ⟨(r.advance 4).advance text.length, ⟨(h.advance 4).advance _, ?_⟩, ?_,
    extract_string_ok (h.text_found (by decide) hnext)⟩
  · have hmoved := hnext.1
    rw [hlen, ← Nat.add_assoc] at hmoved
    exact hmoved
  · obtain ⟨tail, htail⟩ := hpre
    rw [Reading.advance_rest, Reading.advance_rest, List.drop_drop, ← hlen, ← htail, List.drop_left]

theorem text_sound (h : r.Plain) (hread : r.bd.read_string = .ok (text, bd)) : packed text <+: r.rest := by
  have hexact := h.text_exact
  unfold Reading.TextExact at hexact
  cases hrun : extract_string r with
  | ok text' r' =>
    rw [hrun] at hexact
    rw [extract_string_ok hrun] at hread
    cases hread
    exact hexact.2
  | error f r' =>
    rw [hrun] at hexact
    obtain ⟨rfl, _⟩ := hexact
    rw [extract_string_throws hrun] at hread
    cases hread

theorem opcode_read (h : r.Plain) {code : UInt8} {tail : Bytes} (hrest : r.rest = code :: tail) :
    r.bd.read_opcode = .ok (code, (r.advance 1).bd) ∧ (r.advance 1).Plain ∧ (r.advance 1).rest = tail := by
  have hlen := r.length_rest
  rw [hrest, List.length_cons] at hlen
  have h1 : r.moved + 1 ≤ r.packet.length := by omega
  have hread := (extract_pod_ok (h.pod_found (by decide) h1)).1
  rw [hrest] at hread
  refine ⟨?_, ⟨h.advance 1, h1⟩, by rw [r.advance_rest, hrest]; rfl⟩
  rw [BinaryDeserializer.read_opcode, hread]
  rfl

theorem opcode_missing (h : r.Plain) (hrest : r.rest = []) : r.bd.read_opcode = .error .underflow_error := by
  have hlen := r.length_rest
  rw [hrest, List.length_nil] at hlen
  have hin := h.within
  have hread := extract_pod_throws (h.pod_missing (h.fits (by decide)) (show ¬ r.moved + 1 ≤ _ by omega))
  rw [BinaryDeserializer.read_opcode, hread]
  rfl

variable {ρ : Type} {request : ρ}

theorem one_string_iff (h : r.Plain) {f : Bytes → ρ} :
    one_string r.bd f = .ok request ↔ ∃ text, request = f text ∧ [text].flatMap packed <+: r.rest := by
  simp only [List.flatMap_cons, List.flatMap_nil, List.append_nil]
  constructor
  · intro hrun
    unfold one_string at hrun
    cases hread : r.bd.read_string with
    | error e => rw [hread] at hrun; cases hrun
    | ok x =>
      rw [hread] at hrun
      cases hrun
      exact ⟨x.1, rfl, h.text_sound hread⟩
  · rintro ⟨text, rfl, hpre⟩
    obtain ⟨r', _, _, hread⟩ := h.text_read hpre
    rw [one_string, hread]
    rfl

/-- The second string is read where the first one ends. -/
theorem two_strings_iff (h : r.Plain) {f : Bytes → Bytes → ρ} :
    two_strings r.bd f = .ok request ↔
      ∃ first second, request = f first second ∧ [first, second].flatMap packed <+: r.rest := by
  constructor
  · intro hrun
    unfold two_strings at hrun
    cases hread : r.bd.read_string with
    | error e => rw [hread] at hrun; cases hrun
    | ok x =>
      obtain ⟨first, bd⟩ := x
      obtain ⟨r', hplain, hrest, hread'⟩ := h.text_read (h.text_sound hread)
      rw [hread'] at hread
      cases hread
      rw [hread'] at hrun
      obtain ⟨second, heq, hpre⟩ := (hplain.one_string_iff (f := f first)).1 hrun
      exact ⟨first, second, heq, by rw [hrest]; exact (List.prefix_append_right_inj _).2 hpre⟩
  · rintro ⟨first, second, rfl, hpre⟩
    rw [List.flatMap_cons] at hpre
    obtain ⟨r', hplain, hrest, hread⟩ := h.text_read ((List.prefix_append _ _).trans hpre)
    rw [hrest] at hpre
    rw [two_strings, hread]
    exact hplain.one_string_iff.2 ⟨second, rfl, (List.prefix_append_right_inj _).1 hpre⟩

end Reading.Plain

end plain

/-! ## The two factories -/

/-- The opcode and the strings of a request. A null packet is none. -/
def LobbyRequest.spelling : LobbyRequest → Option (UInt8 × List Bytes)
  | .request_character_select char_name => some (lobby_state_protocol.select_character, [char_name])
  | .request_character_create char_name => some (lobby_state_protocol.create_character, [char_name])
  | .request_character_delete char_name => some (lobby_state_protocol.delete_character, [char_name])
  | .request_lobby_log_off => some (lobby_state_protocol.log_off, [])
  | .null_received_packet => none

def IngameRequest.spelling : IngameRequest → Option (UInt8 × List Bytes)
  | .log_off_to_lobby => some (ingame_state_protocol.log_off_to_lobby, [])
  | .join_chat chatroom_name => some (ingame_state_protocol.join_chat, [chatroom_name])
  | .leave_chat chatroom_name => some (ingame_state_protocol.leave_chat, [chatroom_name])
  | .send_chat_msg chatroom_name message => some (ingame_state_protocol.send_chat_msg, [chatroom_name, message])
  | .send_whisper recipient message => some (ingame_state_protocol.send_whisper, [recipient, message])
  | .friend_add friend_name => some (ingame_state_protocol.friend_add, [friend_name])
  | .friend_remove friend_name => some (ingame_state_protocol.friend_remove, [friend_name])
  | .null_received_packet => none

def lobby_state_protocol.to_server_packet_opcodes : List UInt8 :=
  [select_character, create_character, delete_character, log_off]

def ingame_state_protocol.to_server_packet_opcodes : List UInt8 :=
  [log_off_to_lobby, join_chat, leave_chat, send_chat_msg, send_whisper, friend_add, friend_remove]

/-- What the packet is: it begins with the spelling of the request or, for a
null packet, with none of the opcodes. -/
def Spells {ρ : Type} (spelling : ρ → Option (UInt8 × List Bytes)) (opcodes : List UInt8) (packet : Bytes) (request : ρ) :
    Prop :=
  match spelling request with
  | some (code, strings) => code :: strings.flatMap packed <+: packet
  | none => ∃ code tail, packet = code :: tail ∧ code ∉ opcodes

/-- What a factory makes of a packet. -/
def Parses {ρ : Type} (spelling : ρ → Option (UInt8 × List Bytes)) (opcodes : List UInt8) (packet : Bytes) :
    Except StdException ρ → Prop
  | .ok request => Spells spelling opcodes packet request
  | .error e => e = .underflow_error ∧ ∀ request, ¬ Spells spelling opcodes packet request

abbrev LobbyRequest.Spelled : Bytes → LobbyRequest → Prop :=
  Spells LobbyRequest.spelling lobby_state_protocol.to_server_packet_opcodes

abbrev IngameRequest.Spelled : Bytes → IngameRequest → Prop :=
  Spells IngameRequest.spelling ingame_state_protocol.to_server_packet_opcodes

section factories

variable {ρ : Type} {spelling : ρ → Option (UInt8 × List Bytes)} {opcodes : List UInt8} {packet tail : Bytes} {code : UInt8}

theorem spells_nil (request : ρ) : ¬ Spells spelling opcodes [] request := by
  unfold Spells
  split
  · simp
  · simp

theorem spells_cons (request : ρ) :
    Spells spelling opcodes (code :: tail) request ↔
      match spelling request with
      | some (c, strings) => c = code ∧ strings.flatMap packed <+: tail
      | none => code ∉ opcodes := by
  unfold Spells
  split
  · rw [List.cons_prefix_cons]
  · simp

/-- A factory that returns exactly the requests that are spelled, and throws
nothing but `std::underflow_error`, parses. -/
theorem parses_of_ok {x result : Except StdException ρ}
    (hok : ∀ request, x = .ok request ↔ Spells spelling opcodes packet request)
    (herror : ∀ e, x = .error e → e = .underflow_error) : x = result ↔ Parses spelling opcodes packet result := by
  cases result with
  | ok request => exact hok request
  | error e =>
    constructor
    · rintro rfl
      exact ⟨herror e rfl, fun request hspells => by cases (hok request).2 hspells⟩
    · rintro ⟨rfl, hnone⟩
      cases x with
      | ok request => exact absurd ((hok request).1 rfl) (hnone request)
      | error e => rw [herror e rfl]

theorem Buffer.reader_plain (data : Buffer) {size : Nat} (h : size ≤ buffer_size) :
    ∃ r : Reading 64, r.Plain ∧ data.reader size = r.bd ∧ r.rest = data.bytes.take size := by
  have hfull := data.full
  have hlt : size < 2 ^ 64 := by
    unfold buffer_size at h
    omega
  refine ⟨.new data.bytes size, ⟨Reading.new_tracks (by omega) (by omega), Nat.zero_le _⟩, rfl, ?_⟩
  show (data.bytes.take (BitVec.ofNat 64 size).toNat).drop 0 = _
  rw [BitVec.toNat_ofNat, Nat.mod_eq_of_lt hlt, List.drop_zero]

section choices

variable {r : Reading 64} {code : UInt8}

open lobby_state_protocol in
/-- What `lobby_state_recv_packet_factory` does behind the opcode. -/
theorem lobby_choice_ok (h : r.Plain) (request : LobbyRequest) :
    (if code = select_character then one_string r.bd .request_character_select
      else if code = create_character then one_string r.bd .request_character_create
      else if code = delete_character then one_string r.bd .request_character_delete
      else if code = log_off then .ok .request_lobby_log_off
      else .ok .null_received_packet : Except StdException LobbyRequest) = .ok request ↔
      LobbyRequest.Spelled (code :: r.rest) request := by
  rw [LobbyRequest.Spelled, spells_cons]
  constructor
  · intro hrun
    split_ifs at hrun with h1 h2 h3 h4
    · obtain ⟨text, rfl, hpre⟩ := h.one_string_iff.1 hrun
      exact ⟨h1.symm, hpre⟩
    · obtain ⟨text, rfl, hpre⟩ := h.one_string_iff.1 hrun
      exact ⟨h2.symm, hpre⟩
    · obtain ⟨text, rfl, hpre⟩ := h.one_string_iff.1 hrun
      exact ⟨h3.symm, hpre⟩
    · cases hrun
      exact ⟨h4.symm, List.nil_prefix⟩
    · cases hrun
      show code ∉ to_server_packet_opcodes
      simp [to_server_packet_opcodes, h1, h2, h3, h4]
  · intro hspells
    cases request with
    | request_character_select text | request_character_create text | request_character_delete text =>
      obtain ⟨rfl, hpre⟩ := hspells
      exact h.one_string_iff.2 ⟨text, rfl, hpre⟩
    | request_lobby_log_off =>
      obtain ⟨rfl, _⟩ := hspells
      rfl
    | null_received_packet =>
      have hcode : code ∉ to_server_packet_opcodes := hspells
      simp only [to_server_packet_opcodes, List.mem_cons, List.not_mem_nil, or_false, not_or] at hcode
      obtain ⟨h1, h2, h3, h4⟩ := hcode
      rw [if_neg h1, if_neg h2, if_neg h3, if_neg h4]

open ingame_state_protocol in
/-- What `ingame_state_recv_packet_factory` does behind the opcode. -/
theorem ingame_choice_ok (h : r.Plain) (request : IngameRequest) :
    (if code = join_chat then one_string r.bd .join_chat
      else if code = leave_chat then one_string r.bd .leave_chat
      else if code = log_off_to_lobby then .ok .log_off_to_lobby
      else if code = send_chat_msg then two_strings r.bd .send_chat_msg
      else if code = send_whisper then two_strings r.bd .send_whisper
      else if code = friend_add then one_string r.bd .friend_add
      else if code = friend_remove then one_string r.bd .friend_remove
      else .ok .null_received_packet : Except StdException IngameRequest) = .ok request ↔
      IngameRequest.Spelled (code :: r.rest) request := by
  rw [IngameRequest.Spelled, spells_cons]
  constructor
  · intro hrun
    split_ifs at hrun with h1 h2 h3 h4 h5 h6 h7
    · obtain ⟨text, rfl, hpre⟩ := h.one_string_iff.1 hrun
      exact ⟨h1.symm, hpre⟩
    · obtain ⟨text, rfl, hpre⟩ := h.one_string_iff.1 hrun
      exact ⟨h2.symm, hpre⟩
    · cases hrun
      exact ⟨h3.symm, List.nil_prefix⟩
    · obtain ⟨first, second, rfl, hpre⟩ := h.two_strings_iff.1 hrun
      exact ⟨h4.symm, hpre⟩
    · obtain ⟨first, second, rfl, hpre⟩ := h.two_strings_iff.1 hrun
      exact ⟨h5.symm, hpre⟩
    · obtain ⟨text, rfl, hpre⟩ := h.one_string_iff.1 hrun
      exact ⟨h6.symm, hpre⟩
    · obtain ⟨text, rfl, hpre⟩ := h.one_string_iff.1 hrun
      exact ⟨h7.symm, hpre⟩
    · cases hrun
      show code ∉ to_server_packet_opcodes
      simp [to_server_packet_opcodes, h1, h2, h3, h4, h5, h6, h7]
  · intro hspells
    cases request with
    | join_chat text | leave_chat text | friend_add text | friend_remove text =>
      obtain ⟨rfl, hpre⟩ := hspells
      exact h.one_string_iff.2 ⟨text, rfl, hpre⟩
    | send_chat_msg first second | send_whisper first second =>
      obtain ⟨rfl, hpre⟩ := hspells
      exact h.two_strings_iff.2 ⟨first, second, rfl, hpre⟩
    | log_off_to_lobby =>
      obtain ⟨rfl, _⟩ := hspells
      rfl
    | null_received_packet =>
      have hcode : code ∉ to_server_packet_opcodes := hspells
      simp only [to_server_packet_opcodes, List.mem_cons, List.not_mem_nil, or_false, not_or] at hcode
      obtain ⟨h3, h1, h2, h4, h5, h6, h7⟩ := hcode
      rw [if_neg h1, if_neg h2, if_neg h3, if_neg h4, if_neg h5, if_neg h6, if_neg h7]

end choices

/-- The opcode is read first; without one there is no request. -/
theorem behind_opcode {data : Buffer} {size : Nat} (h : size ≤ buffer_size)
    {f : UInt8 × BinaryDeserializer 64 → Except StdException ρ}
    (hf : ∀ (r : Reading 64) code, r.Plain → ∀ request,
      f (code, r.bd) = .ok request ↔ Spells spelling opcodes (code :: r.rest) request) (request : ρ) :
    (data.reader size).read_opcode >>= f = .ok request ↔ Spells spelling opcodes (data.bytes.take size) request := by
  obtain ⟨r, hplain, hreader, hrest⟩ := data.reader_plain h
  rw [hreader]
  cases hpacket : data.bytes.take size with
  | nil =>
    rw [hplain.opcode_missing (hrest.trans hpacket)]
    exact iff_of_false (fun hrun => by cases hrun) (spells_nil _)
  | cons code tail =>
    obtain ⟨hread, hplain', htail⟩ := hplain.opcode_read (hrest.trans hpacket)
    rw [hread, ← htail]
    exact hf _ code hplain' request

theorem lobby_construct_ok {data : Buffer} {size : Nat} (h : size ≤ buffer_size) (request : LobbyRequest) :
    lobby_state_recv_packet_factory.construct data size = .ok request ↔
      LobbyRequest.Spelled (data.bytes.take size) request :=
  behind_opcode h (fun _ _ hplain request => lobby_choice_ok hplain request) request

theorem ingame_construct_ok {data : Buffer} {size : Nat} (h : size ≤ buffer_size) (request : IngameRequest) :
    ingame_state_recv_packet_factory.construct data size = .ok request ↔
      IngameRequest.Spelled (data.bytes.take size) request :=
  behind_opcode h (fun _ _ hplain request => ingame_choice_ok hplain request) request

/-! ## Failures -/

theorem one_string_error {bd : BinaryDeserializer 64} {f : Bytes → ρ} {e : StdException} (h : one_string bd f = .error e) :
    e = .underflow_error := by
  unfold one_string at h
  cases hread : bd.read_string with
  | error e' =>
    rw [hread] at h
    cases h
    exact read_string_error hread
  | ok x => rw [hread] at h; cases h

theorem behind_opcode_error {bd : BinaryDeserializer 64} {f : UInt8 × BinaryDeserializer 64 → Except StdException ρ}
    (hf : ∀ x e, f x = .error e → e = .underflow_error) {e : StdException} (h : bd.read_opcode >>= f = .error e) :
    e = .underflow_error := by
  cases hread : bd.read_opcode with
  | error e' =>
    rw [hread] at h
    cases h
    exact read_opcode_error hread
  | ok x =>
    rw [hread] at h
    exact hf x e h

theorem lobby_construct_error {data : Buffer} {size : Nat} {e : StdException}
    (h : lobby_state_recv_packet_factory.construct data size = .error e) : e = .underflow_error := by
  refine behind_opcode_error (fun x e hx => ?_) h
  simp only at hx
  split_ifs at hx
  all_goals exact one_string_error hx

theorem ingame_construct_error {data : Buffer} {size : Nat} {e : StdException}
    (h : ingame_state_recv_packet_factory.construct data size = .error e) : e = .underflow_error := by
  refine behind_opcode_error (fun x e hx => ?_) h
  simp only at hx
  split_ifs at hx
  all_goals first
    | exact one_string_error hx
    | exact two_strings_error hx

end factories

/-- The session gives up its socket, and its end is on the strand. Nothing else
is touched. -/
def Server.closing (s : Server) (k : SessionId) (c : MmoClient) : Server :=
  { s with
    clients := Function.update s.clients k (some { c with is_open := false, receiving := false })
    sync_strand := s.sync_strand ++ [.finalize k] }

theorem malformed_run {ρ : Type} {s : Server} {k : SessionId} {c : MmoClient} (hc : s.clients k = some c)
    {request : Except StdException ρ} {e : StdException} (h : request = .error e) (execute : ρ → ServerM Unit) :
    handle_request k request execute s = .ok () (s.closing k c) := by
  have hrun : handle_request k request execute (s.progress k (.start c s.world)) = _ := handle_request_malformed h
  rw [Server.progress_start hc] at hrun
  rw [hrun]
  simp [Server.progress, Progress.closing, Progress.start, Server.closing]

/-- Each factory returns the request that is spelled at the beginning of the
packet, a null packet for an unknown opcode, and otherwise throws
`std::underflow_error`; then the session is closed, and that is all. -/
theorem requests_parsed_exactly (data : Buffer) {size : Nat} (h : size ≤ buffer_size) :
    (∀ result, lobby_state_recv_packet_factory.construct data size = result ↔
      Parses LobbyRequest.spelling lobby_state_protocol.to_server_packet_opcodes (data.bytes.take size) result) ∧
    (∀ result, ingame_state_recv_packet_factory.construct data size = result ↔
      Parses IngameRequest.spelling ingame_state_protocol.to_server_packet_opcodes (data.bytes.take size) result) ∧
    (∀ data' : Buffer, data'.bytes.take size = data.bytes.take size →
      lobby_state_recv_packet_factory.construct data' size = lobby_state_recv_packet_factory.construct data size ∧
      ingame_state_recv_packet_factory.construct data' size = ingame_state_recv_packet_factory.construct data size) ∧
    ∀ (s : Server) k c, s.clients k = some c → ∀ acc_data,
      (∀ e, lobby_state_recv_packet_factory.construct data size = .error e → ∀ lobby_chars,
        lobby_state.handle_network_packet k acc_data lobby_chars data size s = .ok () (s.closing k c)) ∧
      ∀ e, ingame_state_recv_packet_factory.construct data size = .error e → ∀ my_character,
        ingame_state.handle_network_packet k my_character acc_data data size s = .ok () (s.closing k c) := by
  have hlobby (data : Buffer) (result : Except StdException LobbyRequest) :
      lobby_state_recv_packet_factory.construct data size = result ↔
        Parses LobbyRequest.spelling lobby_state_protocol.to_server_packet_opcodes (data.bytes.take size) result :=
    parses_of_ok (lobby_construct_ok h) fun _ => lobby_construct_error
  have hingame (data : Buffer) (result : Except StdException IngameRequest) :
      ingame_state_recv_packet_factory.construct data size = result ↔
        Parses IngameRequest.spelling ingame_state_protocol.to_server_packet_opcodes (data.bytes.take size) result :=
    parses_of_ok (ingame_construct_ok h) fun _ => ingame_construct_error
  refine ⟨hlobby data, hingame data, fun data' hsame => ⟨?_, ?_⟩, fun s k c hc acc_data => ⟨?_, ?_⟩⟩
  · rw [hlobby data', hsame, ← hlobby data]
  · rw [hingame data', hsame, ← hingame data]
  · intro e he lobby_chars
    exact malformed_run hc he _
  · intro e he my_character
    exact malformed_run hc he _

/-- A request to join a room; stale bytes follow it. -/
theorem requests_parsed_exactly_join :
    ingame_state_recv_packet_factory.construct (.of (1 :: packed (ascii "hall") ++ [7])) 9 =
      .ok (.join_chat (ascii "hall")) :=
  ((requests_parsed_exactly (.of (1 :: packed (ascii "hall") ++ [7])) (by decide)).2.1 _).2 ⟨_, rfl⟩

end tejk_it_izi
