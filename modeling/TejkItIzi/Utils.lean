import TejkItIzi.Lib.LittleEndian
import TejkItIzi.Lib.Prog
import Mathlib.Tactic.Common
/-!
# The serializers of `server/utils`

`BinarySerializer` writes into a buffer of 2048 bytes without checking its end;
`BinaryDeserializer` checks every read. A POD travels as the bytes of its
object representation (lowest byte first), a string as a 4-byte length and its
bytes. `size_t` is `w` bits wide in the reader, `unsigned` 32.
-/

namespace tejk_it_izi

open ProgLib

abbrev Bytes := List UInt8

/-- The bytes of a string literal of the source (all are ASCII). -/
def ascii (s : String) : Bytes := s.toList.map fun c => UInt8.ofNat c.toNat

/-- `std::to_string` on an unsigned number. -/
def to_string (n : Nat) : Bytes := (Nat.toDigits 10 n).map fun c => UInt8.ofNat c.toNat

/-- The `std::exception`s that a catch clause of the server tells apart. -/
inductive StdException where
  | underflow_error
  | other
  deriving DecidableEq

/-- Why a call does not return. Only an exception can be caught; one that leaves
a destructor ends the program. -/
inductive Fault where
  | exception (e : StdException)
  | assertion_failed
  | undefined_behaviour
  | terminated
  deriving DecidableEq

/-- `assert`, as compiled without `NDEBUG`. -/
def cpp_assert {σ : Type} (c : Prop) [Decidable c] : EStateM Fault σ Unit :=
  if c then pure () else throw .assertion_failed

theorem cpp_assert_run {σ : Type} {c : Prop} [Decidable c] (h : c) (s : σ) :
    (cpp_assert c : EStateM Fault σ Unit) s = .ok () s := by
  simp [cpp_assert, h]

theorem cpp_assert_fail {σ : Type} {c : Prop} [Decidable c] (h : ¬ c) (s : σ) :
    (cpp_assert c : EStateM Fault σ Unit) s = .error .assertion_failed s := by
  simp [cpp_assert, h]

/-- What follows an assertion runs only if it holds. -/
theorem cpp_assert_bind_ok {σ β : Type} {c : Prop} [Decidable c] {f : Unit → EStateM Fault σ β} {s t : σ} {b : β} :
    (cpp_assert c >>= f) s = .ok b t ↔ c ∧ f () s = .ok b t := by
  by_cases h : c
  · simp [bind_ok (cpp_assert_run h s), h]
  · simp [bind_error (cpp_assert_fail h s), h]

/-! ## Writing -/

/-- `sizeof(std::array<char, 2048>)`. -/
def buffer_size : Nat := 2048

/-- The bytes between `begining_` and `current_pos_`. -/
structure BinarySerializer where
  written : Bytes

namespace BinarySerializer

def new : BinarySerializer := ⟨[]⟩

/-- `operator<<` for a POD with this object representation. -/
def put_pod (bs : BinarySerializer) (raw : Bytes) : BinarySerializer := ⟨bs.written ++ raw⟩

def put_unsigned (bs : BinarySerializer) (n : Nat) : BinarySerializer := bs.put_pod (LittleEndian.encode 4 n)

/-- A 64-bit `size_t`. -/
def put_size (bs : BinarySerializer) (n : Nat) : BinarySerializer := bs.put_pod (LittleEndian.encode 8 n)

/-- `operator<<` for a string. The position advances by the 32-bit length. -/
def put_string (bs : BinarySerializer) (text : Bytes) : BinarySerializer :=
  let size := text.length % 2 ^ 32
  (bs.put_unsigned size).put_pod (text.take size)

def get_current_size (bs : BinarySerializer) : Nat := bs.written.length

/-- The position is still inside the buffer. It only ever moves forward, so at
the end of a packet this says that no write went past the buffer. -/
def InBuffer (bs : BinarySerializer) : Prop := bs.get_current_size ≤ buffer_size

instance (bs : BinarySerializer) : Decidable bs.InBuffer := inferInstanceAs (Decidable (_ ≤ _))

@[simp] theorem size_new : new.get_current_size = 0 := rfl

@[simp] theorem size_put_pod (bs : BinarySerializer) (raw : Bytes) :
    (bs.put_pod raw).get_current_size = bs.get_current_size + raw.length := by
  simp [get_current_size, put_pod]

@[simp] theorem size_put_unsigned (bs : BinarySerializer) (n : Nat) :
    (bs.put_unsigned n).get_current_size = bs.get_current_size + 4 := by
  simp [put_unsigned]

@[simp] theorem size_put_size (bs : BinarySerializer) (n : Nat) :
    (bs.put_size n).get_current_size = bs.get_current_size + 8 := by
  simp [put_size]

theorem size_put_string_le {bs : BinarySerializer} {n : Nat} (h : bs.get_current_size ≤ n) (text : Bytes) :
    (bs.put_string text).get_current_size ≤ n + 4 + text.length := by
  simp only [put_string, size_put_pod, size_put_unsigned, List.length_take]
  omega

theorem size_put_string (bs : BinarySerializer) {text : Bytes} (h : text.length < 2 ^ 32) :
    (bs.put_string text).get_current_size = bs.get_current_size + 4 + text.length := by
  have hm : text.length % 2 ^ 32 = text.length := Nat.mod_eq_of_lt h
  simp only [put_string, size_put_pod, size_put_unsigned, hm, List.take_length]

end BinarySerializer

/-- A string in a packet. -/
def packed (text : Bytes) : Bytes := LittleEndian.encode 4 text.length ++ text

/-! ## Reading -/

/-- `data` is the memory from `data_` on; what is past `max_size` is there, but
not part of the packet. -/
structure BinaryDeserializer (w : Nat) where
  data : Bytes
  max_size : BitVec w
  current_pos : BitVec w

namespace BinaryDeserializer

variable {w : Nat}

def new (data : Bytes) (size : Nat) : BinaryDeserializer w := ⟨data, BitVec.ofNat w size, 0⟩

/-- The `k` bytes at the position. -/
def bytes_at (bd : BinaryDeserializer w) (k : Nat) : Bytes := (bd.data.drop bd.current_pos.toNat).take k

def advance (bd : BinaryDeserializer w) (k : Nat) : BinaryDeserializer w :=
  { bd with current_pos := bd.current_pos + BitVec.ofNat w k }

/-- `operator>>` for a POD of `k` bytes. -/
def read_pod (bd : BinaryDeserializer w) (k : Nat) : Except StdException (Bytes × BinaryDeserializer w) :=
  if bd.max_size < bd.current_pos + BitVec.ofNat w k then .error .underflow_error
  else .ok (bd.bytes_at k, bd.advance k)

/-- `operator>>` for a string. -/
def read_string (bd : BinaryDeserializer w) : Except StdException (Bytes × BinaryDeserializer w) :=
  if bd.max_size < bd.current_pos + BitVec.ofNat w 4 then .error .underflow_error
  else do
    let (raw, bd) ← bd.read_pod 4
    let size := LittleEndian.decode raw
    if bd.max_size < bd.current_pos + BitVec.ofNat w size then .error .underflow_error
    else .ok (bd.bytes_at size, bd.advance size)

/-- `operator>>` for an enumeration whose underlying type is `char`. -/
def read_opcode (bd : BinaryDeserializer w) : Except StdException (UInt8 × BinaryDeserializer w) := do
  let (raw, bd) ← bd.read_pod 1
  .ok (raw.headD 0, bd)

end BinaryDeserializer

end tejk_it_izi
