import TejkItIzi.Lib.Runs
import TejkItIzi.Utils
/-!
# The deserializer and the end of the packet

`operator>>` step by step: a check against `max_size_`, a copy, and the position
moves on. The position is a `size_t` and wraps; `Reading` also counts how far the
deserializer has really been moved, which the code does not know.
-/

namespace tejk_it_izi

open ProgLib

variable {w : Nat}

/-- `moved` is the position if it had never wrapped. -/
structure Reading (w : Nat) where
  bd : BinaryDeserializer w
  moved : Nat

namespace Reading

/-- A deserializer over the first `size` bytes of this memory. -/
def new (data : Bytes) (size : Nat) : Reading w := ⟨.new data size, 0⟩

def packet (r : Reading w) : Bytes := r.bd.data.take r.bd.max_size.toNat

/-- What is left of the packet. -/
def rest (r : Reading w) : Bytes := r.packet.drop r.moved

def advance (r : Reading w) (k : Nat) : Reading w := ⟨r.bd.advance k, r.moved + k⟩

end Reading

/-! ## `operator>>` -/

abbrev ReaderM (w : Nat) := EStateM Fault (Reading w)

/-- `if (max_size_ < current_pos_ + k) throw std::underflow_error(..)`. -/
def require (k : Nat) : ReaderM w Unit := do
  let r ← get
  if r.bd.max_size < r.bd.current_pos + BitVec.ofNat w k then throw (.exception .underflow_error)

/-- The `k` bytes from `data_ + current_pos_` on, which must be there. -/
def copy (k : Nat) : ReaderM w Bytes := do
  let r ← get
  if r.bd.current_pos.toNat + k ≤ r.bd.data.length then
    set (r.advance k)
    return r.bd.bytes_at k
  else throw .undefined_behaviour

/-- `operator>>` for a POD of `k` bytes. -/
def extract_pod (k : Nat) : ReaderM w Bytes := do
  require k
  copy k

/-- `operator>>` for a string. When its bytes are missing, its length has been
read all the same. -/
def extract_string : ReaderM w Bytes := do
  require 4
  let raw ← extract_pod 4
  let size := LittleEndian.decode raw
  require size
  copy size

/-- `operator>>` for a `serializer_skip`. -/
def serializer_skip (to_skip : BitVec w) : ReaderM w Unit := modify fun r => r.advance to_skip.toNat

/-- An operand of `>>`. -/
inductive ReadOp (w : Nat) where
  /-- A POD of this `sizeof`. -/
  | pod (size : BitVec w)
  | text
  | skip (to_skip : BitVec w)

/-- The bytes read. -/
def ReadOp.run : ReadOp w → ReaderM w Bytes
  | .pod size => extract_pod size.toNat
  | .text => extract_string
  | .skip to_skip => do
    serializer_skip to_skip
    return []

/-- Any operations one after another, also after an exception. -/
def readerMachine (w : Nat) : Machine (Reading w) (ReadOp w) where
  init r := ∃ data size, size ≤ data.length ∧ data.length ≤ buffer_size ∧ r = .new data size
  step r op r' := (∃ raw, op.run r = .ok raw r') ∨ (∃ e, op.run r = .error (.exception e) r')

/-! ## One operation -/

section run

variable {r : Reading w} {k : Nat}

theorem require_run (h : ¬ r.bd.max_size < r.bd.current_pos + BitVec.ofNat w k) : require k r = .ok () r := by
  simp [require, h]

theorem require_throws (h : r.bd.max_size < r.bd.current_pos + BitVec.ofNat w k) :
    require k r = .error (.exception .underflow_error) r := by
  simp [require, h]

theorem copy_run (h : r.bd.current_pos.toNat + k ≤ r.bd.data.length) :
    copy k r = .ok (r.bd.bytes_at k) (r.advance k) := by
  unfold copy
  rw [get_bind, if_pos h]
  rfl

theorem copy_outside (h : ¬ r.bd.current_pos.toNat + k ≤ r.bd.data.length) :
    copy k r = .error .undefined_behaviour r := by
  simp [copy, h]

/-- `read_pod` looks at no memory, so a copy from outside it goes unnoticed. -/
theorem extract_pod_run (k : Nat) (r : Reading w) :
    extract_pod k r = match r.bd.read_pod k with
      | .error e => .error (.exception e) r
      | .ok (raw, bd) =>
        if r.bd.current_pos.toNat + k ≤ r.bd.data.length then .ok raw ⟨bd, r.moved + k⟩
        else .error .undefined_behaviour r := by
  unfold extract_pod BinaryDeserializer.read_pod
  by_cases h : r.bd.max_size < r.bd.current_pos + BitVec.ofNat w k
  · rw [bind_error (require_throws h), if_pos h]
  · rw [bind_ok (require_run h), if_neg h]
    by_cases hk : r.bd.current_pos.toNat + k ≤ r.bd.data.length
    · rw [copy_run hk]
      simp only [if_pos hk]
      rfl
    · rw [copy_outside hk]
      simp only [if_neg hk]

/-- The first check of a string is the one its length makes as a POD. -/
theorem extract_string_run (r : Reading w) :
    extract_string r = match extract_pod 4 r with
      | .error f r' => .error f r'
      | .ok raw r' => extract_pod (LittleEndian.decode raw) r' := by
  unfold extract_string
  by_cases h : r.bd.max_size < r.bd.current_pos + BitVec.ofNat w 4
  · have hpod : extract_pod 4 r = .error (.exception .underflow_error) r := bind_error (require_throws h) _
    rw [bind_error (require_throws h), hpod]
  · rw [bind_ok (require_run h)]
    cases hpod : extract_pod 4 r with
    | ok raw r' => exact bind_ok hpod _
    | error f r' => exact bind_error hpod _

theorem read_string_eq (bd : BinaryDeserializer w) :
    bd.read_string = match bd.read_pod 4 with
      | .error e => .error e
      | .ok (raw, bd) => bd.read_pod (LittleEndian.decode raw) := by
  unfold BinaryDeserializer.read_string
  by_cases h : bd.max_size < bd.current_pos + BitVec.ofNat w 4
  · have hpod : bd.read_pod 4 = .error .underflow_error := if_pos h
    rw [if_pos h, hpod]
  · rw [if_neg h]
    cases bd.read_pod 4 <;> rfl

variable {r' : Reading w} {raw text : Bytes} {e : StdException}

theorem extract_pod_ok (h : extract_pod k r = .ok raw r') :
    r.bd.read_pod k = .ok (raw, r'.bd) ∧ r'.moved = r.moved + k := by
  rw [extract_pod_run] at h
  cases hread : r.bd.read_pod k with
  | error e => rw [hread] at h; cases h
  | ok x =>
    rw [hread] at h
    simp only at h
    split at h
    · cases h
      exact ⟨rfl, rfl⟩
    · cases h

theorem extract_pod_throws (h : extract_pod k r = .error (.exception e) r') : r.bd.read_pod k = .error e := by
  rw [extract_pod_run] at h
  cases hread : r.bd.read_pod k with
  | error e' => rw [hread] at h; cases h; rfl
  | ok x =>
    rw [hread] at h
    simp only at h
    split at h <;> cases h

theorem extract_string_ok (h : extract_string r = .ok text r') : r.bd.read_string = .ok (text, r'.bd) := by
  rw [extract_string_run] at h
  rw [read_string_eq]
  cases hpod : extract_pod 4 r with
  | error f s => rw [hpod] at h; cases h
  | ok raw s =>
    rw [hpod] at h
    rw [(extract_pod_ok hpod).1]
    exact (extract_pod_ok h).1

theorem extract_string_throws (h : extract_string r = .error (.exception e) r') : r.bd.read_string = .error e := by
  rw [extract_string_run] at h
  rw [read_string_eq]
  cases hpod : extract_pod 4 r with
  | error f s =>
    rw [hpod] at h
    cases h
    rw [extract_pod_throws hpod]
  | ok raw s =>
    rw [hpod] at h
    rw [(extract_pod_ok hpod).1]
    exact extract_pod_throws h

end run

/-! ## The true position -/

/-- The position is the true one as far as a `size_t` can tell, and the packet
lies in a buffer. -/
structure Reading.Tracks (r : Reading w) : Prop where
  position : r.bd.current_pos = BitVec.ofNat w r.moved
  in_memory : r.bd.max_size.toNat ≤ r.bd.data.length
  in_buffer : r.bd.data.length ≤ buffer_size

/-- The sum of the position and `k` is past the packet whenever the true one is. -/
def Reading.Fits (r : Reading w) (k : Nat) : Prop :=
  r.moved + k ≤ r.packet.length ∨ r.packet.length < (r.moved + k) % 2 ^ w

instance (r : Reading w) (k : Nat) : Decidable (r.Fits k) := inferInstanceAs (Decidable (_ ∨ _))

/-- These bytes are next. -/
def Reading.Next (r : Reading w) (bytes : Bytes) : Prop :=
  r.moved + bytes.length ≤ r.packet.length ∧ bytes <+: r.rest

section tracks

variable {r : Reading w} {k : Nat}

theorem Reading.new_tracks {data : Bytes} {size : Nat} (hs : size ≤ data.length)
    (hd : data.length ≤ buffer_size) : (Reading.new data size : Reading w).Tracks where
  position := rfl
  in_memory := (Nat.mod_le _ _).trans hs
  in_buffer := hd

namespace Reading.Tracks

theorem advance (h : r.Tracks) (k : Nat) : (r.advance k).Tracks where
  position := by
    show r.bd.current_pos + BitVec.ofNat w k = BitVec.ofNat w (r.moved + k)
    rw [h.position, BitVec.ofNat_add]
  in_memory := h.in_memory
  in_buffer := h.in_buffer

theorem length_packet (h : r.Tracks) : r.packet.length = r.bd.max_size.toNat := by
  rw [Reading.packet, List.length_take, Nat.min_eq_left h.in_memory]

/-- The check adds modulo `2 ^ w`. -/
theorem underflows_iff (h : r.Tracks) (k : Nat) :
    r.bd.max_size < r.bd.current_pos + BitVec.ofNat w k ↔ r.packet.length < (r.moved + k) % 2 ^ w := by
  rw [h.position, ← BitVec.ofNat_add, BitVec.lt_def, BitVec.toNat_ofNat, h.length_packet]

theorem lt_width (hw : 32 ≤ w) (h : r.Tracks) (hk : r.moved + k ≤ r.packet.length) : r.moved + k < 2 ^ w := by
  have h32 : 2 ^ 32 ≤ 2 ^ w := Nat.pow_le_pow_right (by decide) hw
  have hm := h.in_memory
  have hb := h.in_buffer
  rw [h.length_packet] at hk
  unfold buffer_size at hb
  omega

theorem underflows_of_short (h : r.Tracks) (hfits : r.Fits k) (hk : ¬ r.moved + k ≤ r.packet.length) :
    r.bd.max_size < r.bd.current_pos + BitVec.ofNat w k :=
  (h.underflows_iff k).2 (hfits.resolve_left hk)

/-- Bytes that are there are found. -/
theorem pod_found (hw : 32 ≤ w) (h : r.Tracks) (hk : r.moved + k ≤ r.packet.length) :
    extract_pod k r = .ok (r.rest.take k) (r.advance k) := by
  have hlt := h.lt_width hw hk
  have hpos : r.bd.current_pos.toNat = r.moved := by
    rw [h.position, BitVec.toNat_ofNat, Nat.mod_eq_of_lt (by omega)]
  have hpass : ¬ r.bd.max_size < r.bd.current_pos + BitVec.ofNat w k := by
    rw [h.underflows_iff, Nat.mod_eq_of_lt hlt]
    omega
  have hmem : r.bd.current_pos.toNat + k ≤ r.bd.data.length := by
    have := h.in_memory
    rw [h.length_packet] at hk
    omega
  unfold extract_pod
  rw [bind_ok (require_run hpass), copy_run hmem]
  congr 1
  rw [BinaryDeserializer.bytes_at, hpos, Reading.rest, Reading.packet, List.drop_take, List.take_take,
    Nat.min_eq_left]
  rw [h.length_packet] at hk
  omega

theorem pod_missing (h : r.Tracks) (hfits : r.Fits k) (hk : ¬ r.moved + k ≤ r.packet.length) :
    extract_pod k r = .error (.exception .underflow_error) r := by
  unfold extract_pod
  exact bind_error (require_throws (h.underflows_of_short hfits hk)) _

end Reading.Tracks

end tracks

/-! ## What a read is to give -/

/-- The next `k` bytes; an exception if there are fewer. -/
def Reading.PodExact (r : Reading w) (k : Nat) : Prop :=
  match extract_pod k r with
  | .ok raw _ => raw.length = k ∧ r.Next raw
  | .error f _ => f = .exception .underflow_error ∧ ¬ r.moved + k ≤ r.packet.length

/-- The string that is next; an exception if there is none. -/
def Reading.TextExact (r : Reading w) : Prop :=
  match extract_string r with
  | .ok text _ => r.Next (packed text)
  | .error f _ => f = .exception .underflow_error ∧ ∀ text, ¬ r.Next (packed text)

/-- A string's length is itself read as a POD. -/
def ReadOp.Exact (r : Reading w) : ReadOp w → Prop
  | .pod size => r.PodExact size.toNat
  | .text => r.PodExact 4 ∧ r.TextExact
  | .skip _ => True

/-- The length of the string that is next. -/
def Reading.text_size (r : Reading w) : Nat := LittleEndian.decode (r.rest.take 4)

/-- No sum of the operation wraps into the packet. -/
def ReadOp.Unwrapped (r : Reading w) : ReadOp w → Prop
  | .pod size => r.Fits size.toNat
  | .text => r.Fits 4 ∧ (r.moved + 4 ≤ r.packet.length → r.Fits (4 + r.text_size))
  | .skip _ => True

instance (r : Reading w) (op : ReadOp w) : Decidable (op.Unwrapped r) :=
  match op with
  | .pod _ => inferInstanceAs (Decidable (_ ∨ _))
  | .text => inferInstanceAs (Decidable (_ ∧ _))
  | .skip _ => .isTrue trivial

section exact

variable {r : Reading w} {k : Nat}

theorem Reading.advance_rest (r : Reading w) (k : Nat) : (r.advance k).rest = r.rest.drop k := by
  rw [Reading.rest, Reading.rest, List.drop_drop]
  rfl

theorem Reading.length_rest (r : Reading w) : r.rest.length = r.packet.length - r.moved := List.length_drop

/-- Bytes at the position, as far as they are there. -/
theorem Reading.next_take (hk : r.moved + k ≤ r.packet.length) : (r.rest.take k).length = k ∧ r.Next (r.rest.take k) := by
  have hlen : (r.rest.take k).length = k := by
    rw [List.length_take, r.length_rest]
    omega
  exact ⟨hlen, by rw [hlen]; exact hk, List.take_prefix _ _⟩

namespace Reading.Tracks

/-- A POD is read right unless the sum wraps. -/
theorem pod_exact_iff (hw : 32 ≤ w) (h : r.Tracks) : r.PodExact k ↔ r.Fits k := by
  unfold Reading.PodExact
  by_cases hk : r.moved + k ≤ r.packet.length
  · rw [h.pod_found hw hk]
    exact iff_of_true (Reading.next_take hk) (.inl hk)
  constructor
  · intro hexact
    refine .inr ((h.underflows_iff k).1 ?_)
    by_contra hpass
    -- The check has passed: bytes from elsewhere, or memory outside the buffer.
    unfold extract_pod at hexact
    rw [bind_ok (require_run hpass)] at hexact
    by_cases hmem : r.bd.current_pos.toNat + k ≤ r.bd.data.length
    · rw [copy_run hmem] at hexact
      obtain ⟨hlen, hnext, _⟩ := hexact
      rw [hlen] at hnext
      exact hk hnext
    · rw [copy_outside hmem] at hexact
      exact absurd hexact.1 (by simp)
  · intro hfits
    rw [h.pod_missing hfits hk]
    exact ⟨rfl, hk⟩

/-- Behind its length a string is read like a POD of that size. -/
theorem extract_string_eq (hw : 32 ≤ w) (h : r.Tracks) (h4 : r.moved + 4 ≤ r.packet.length) :
    extract_string r = extract_pod r.text_size (r.advance 4) := by
  rw [extract_string_run, h.pod_found hw h4]
  rfl

/-- A string is its length, then as many bytes. -/
theorem next_packed_iff (h : r.Tracks) {text : Bytes} :
    r.Next (packed text) ↔ r.moved + 4 ≤ r.packet.length ∧ text.length = r.text_size ∧ (r.advance 4).Next text := by
  have hpacket := h.length_packet
  have hmem := h.in_memory
  have hbuffer := h.in_buffer
  unfold buffer_size at hbuffer
  have hmoved : (r.advance 4).moved = r.moved + 4 := rfl
  have hsame : (r.advance 4).packet = r.packet := rfl
  simp only [Reading.Next, r.advance_rest, hmoved, hsame, packed, List.length_append, LittleEndian.length_encode]
  constructor
  · rintro ⟨hlen, tail, hrest⟩
    rw [List.append_assoc] at hrest
    have hhead : r.rest.take 4 = LittleEndian.encode 4 text.length := by
      rw [← hrest]
      exact List.take_left' (LittleEndian.length_encode _ _)
    refine ⟨by omega, ?_, by omega, tail, ?_⟩
    · rw [Reading.text_size, hhead, LittleEndian.decode_encode, Nat.mod_eq_of_lt (by omega)]
    · rw [← hrest]
      exact (List.drop_left' (LittleEndian.length_encode _ _)).symm
  · rintro ⟨h4, hsize, hlen, tail, hrest⟩
    refine ⟨by omega, tail, ?_⟩
    have hhead : LittleEndian.encode 4 text.length = r.rest.take 4 := by
      have hback := LittleEndian.encode_decode (r.rest.take 4)
      rw [(Reading.next_take h4).1] at hback
      rw [hsize, Reading.text_size, hback]
    rw [hhead, List.append_assoc, hrest, List.take_append_drop]

/-- A string that is there is found. -/
theorem text_found (hw : 32 ≤ w) (h : r.Tracks) {text : Bytes} (hnext : r.Next (packed text)) :
    extract_string r = .ok text ((r.advance 4).advance text.length) := by
  obtain ⟨h4, hsize, hlen, hpre⟩ := h.next_packed_iff.1 hnext
  rw [h.extract_string_eq hw h4, ← hsize, (h.advance 4).pod_found hw hlen, ← List.prefix_iff_eq_take.1 hpre]

/-- There is a string when there are as many bytes as its length says. -/
theorem next_text_iff (h : r.Tracks) (h4 : r.moved + 4 ≤ r.packet.length) :
    (∃ text, r.Next (packed text)) ↔ r.moved + 4 + r.text_size ≤ r.packet.length := by
  constructor
  · rintro ⟨text, hnext⟩
    obtain ⟨_, hsize, hlen, _⟩ := h.next_packed_iff.1 hnext
    rw [hsize] at hlen
    exact hlen
  · intro hlen
    obtain ⟨hsize, hnext⟩ := Reading.next_take (r := r.advance 4) hlen
    exact ⟨_, h.next_packed_iff.2 ⟨h4, hsize, hnext⟩⟩

theorem text_exact_iff (hw : 32 ≤ w) (h : r.Tracks) (h4 : r.moved + 4 ≤ r.packet.length) :
    r.TextExact ↔ r.Fits (4 + r.text_size) := by
  have hfits : r.Fits (4 + r.text_size) ↔ (r.advance 4).Fits r.text_size := by
    simp only [Reading.Fits, ← Nat.add_assoc]
    rfl
  rw [hfits, ← (h.advance 4).pod_exact_iff hw]
  unfold Reading.TextExact Reading.PodExact
  rw [h.extract_string_eq hw h4]
  cases extract_pod r.text_size (r.advance 4) with
  | ok text r' =>
    show r.Next (packed text) ↔ _
    rw [h.next_packed_iff]
    exact and_iff_right h4
  | error f r' =>
    refine and_congr_right fun _ => ?_
    rw [← not_exists, h.next_text_iff h4]
    rfl

/-- No length, no string. -/
theorem text_missing (h : r.Tracks) (hfits : r.Fits 4) (h4 : ¬ r.moved + 4 ≤ r.packet.length) :
    extract_string r = .error (.exception .underflow_error) r := by
  rw [extract_string_run, h.pod_missing hfits h4]

theorem text_missing_exact (h : r.Tracks) (hfits : r.Fits 4) (h4 : ¬ r.moved + 4 ≤ r.packet.length) : r.TextExact := by
  unfold Reading.TextExact
  rw [h.text_missing hfits h4]
  exact ⟨rfl, fun text hnext => h4 (h.next_packed_iff.1 hnext).1⟩

theorem exact_iff (hw : 32 ≤ w) (h : r.Tracks) (op : ReadOp w) : op.Exact r ↔ op.Unwrapped r := by
  cases op with
  | pod size => exact h.pod_exact_iff hw
  | text =>
    refine (and_congr_left fun _ => h.pod_exact_iff hw).trans (and_congr_right fun hfits => ?_)
    by_cases h4 : r.moved + 4 ≤ r.packet.length
    · rw [h.text_exact_iff hw h4]
      exact ⟨fun hsize _ => hsize, fun hsize => hsize h4⟩
    · exact iff_of_true (h.text_missing_exact hfits h4) fun hle => absurd hle h4
  | skip to_skip => exact Iff.rfl

end Reading.Tracks

end exact

/-! ## Any operations -/

section runs

variable {r : Reading w}

theorem require_tracks (h : r.Tracks) (k : Nat) : (endState (require k) r).Tracks := by
  by_cases hk : r.bd.max_size < r.bd.current_pos + BitVec.ofNat w k
  · rwa [endState_error (require_throws hk)]
  · rwa [endState_ok (require_run hk)]

theorem copy_tracks (h : r.Tracks) (k : Nat) : (endState (copy k) r).Tracks := by
  by_cases hk : r.bd.current_pos.toNat + k ≤ r.bd.data.length
  · rw [endState_ok (copy_run hk)]
    exact h.advance k
  · rwa [endState_error (copy_outside hk)]

theorem extract_pod_tracks (h : r.Tracks) (k : Nat) : (endState (extract_pod k) r).Tracks :=
  endState_bind (require_tracks h k) fun _ _ ht => copy_tracks ht k

theorem run_tracks (h : r.Tracks) (op : ReadOp w) : (endState op.run r).Tracks := by
  cases op with
  | pod size => exact extract_pod_tracks h _
  | text =>
    -- Checked, its length read, checked again, its bytes read.
    refine endState_bind (require_tracks h 4) fun _ _ h1 => ?_
    refine endState_bind (extract_pod_tracks h1 4) fun raw _ h2 => ?_
    exact endState_bind (require_tracks h2 _) fun _ _ h3 => copy_tracks h3 _
  | skip to_skip => exact h.advance _

theorem reachable_tracks (h : (readerMachine w).Reachable r) : r.Tracks := by
  refine h.keeps ?_ ?_
  · rintro _ ⟨data, size, hs, hd, rfl⟩
    exact Reading.new_tracks hs hd
  · rintro s op t hs (⟨raw, hrun⟩ | ⟨e, hrun⟩)
    · rw [← endState_ok hrun]
      exact run_tracks hs op
    · rw [← endState_error hrun]
      exact run_tracks hs op

end runs

/-- After any operations, a read gives the bytes at the true position, or throws
because they are not there, exactly when no sum it compares has wrapped into the
packet. Otherwise it reads elsewhere. -/
theorem read_exact_iff_unwrapped (hw : 32 ≤ w) {r : Reading w} (h : (readerMachine w).Reachable r) (op : ReadOp w) :
    op.Exact r ↔ op.Unwrapped r := (reachable_tracks h).exact_iff hw op

/-- A string is read from a packet that holds one, and not from an empty one. -/
theorem read_exact_iff_unwrapped_hi :
    ReadOp.text.Exact (.new (packed (ascii "hi")) 6 : Reading 32) ∧ ReadOp.text.Exact (.new [] 0 : Reading 64) :=
  ⟨(read_exact_iff_unwrapped (by decide) (.init ⟨_, _, by decide, by decide, rfl⟩) _).2 (by decide),
    (read_exact_iff_unwrapped (by decide) (.init ⟨_, _, by decide, by decide, rfl⟩) _).2 (by decide)⟩

/-- A string that is said to have 2 ^ 32 - 1 bytes, on 32 bits. -/
def endless_string : Reading 32 := .new (LittleEndian.encode 4 (2 ^ 32 - 1)) 4

/-- A packet of one byte, and a skip to the byte before it. -/
def skipped_back : Reading 64 := (Reading.new [7] 1).advance (BitVec.allOnes 64).toNat

/-- Both are read from outside the buffer. -/
theorem reads_outside :
    ((readerMachine 32).Reachable endless_string ∧
      extract_string endless_string = .error .undefined_behaviour (endless_string.advance 4) ∧
      ¬ ReadOp.text.Exact endless_string) ∧
    (readerMachine 64).Reachable skipped_back ∧
      extract_pod 1 skipped_back = .error .undefined_behaviour skipped_back ∧
      ¬ (ReadOp.pod 1).Exact skipped_back := by
  have h32 : (readerMachine 32).Reachable endless_string := .init ⟨_, _, by decide, by decide, rfl⟩
  have h64 : (readerMachine 64).Reachable skipped_back :=
    .step (.init ⟨[7], 1, by decide, by decide, rfl⟩) (e := .skip (BitVec.allOnes 64)) (.inl ⟨[], rfl⟩)
  refine ⟨⟨h32, rfl, ?_⟩, h64, rfl, ?_⟩
  · rw [(reachable_tracks h32).exact_iff (by decide)]
    decide
  · rw [(reachable_tracks h64).exact_iff (by decide)]
    decide

end tejk_it_izi
