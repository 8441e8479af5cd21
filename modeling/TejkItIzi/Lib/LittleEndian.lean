import Mathlib.Tactic.Ring
import Mathlib.Tactic.Common
/-!
# Numbers as bytes, lowest byte first
-/

namespace ProgLib

namespace LittleEndian

/-- The `k` lowest bytes of `n`. -/
def encode : Nat → Nat → List UInt8
  | 0, _ => []
  | k + 1, n => UInt8.ofNat (n % 256) :: encode k (n / 256)

def decode : List UInt8 → Nat
  | [] => 0
  | b :: bs => b.toNat + 256 * decode bs

@[simp] theorem length_encode (k n : Nat) : (encode k n).length = k := by
  induction k generalizing n with
  | zero => rfl
  | succ k ih => simp [encode, ih]

/-- Reading back what was written gives the number modulo the width. -/
theorem decode_encode (k n : Nat) : decode (encode k n) = n % 256 ^ k := by
  induction k generalizing n with
  | zero => simp [encode, decode, Nat.mod_one]
  | succ k ih =>
    have hb : (UInt8.ofNat (n % 256)).toNat = n % 256 := by simp
    rw [encode, decode, ih, hb, pow_succ, Nat.mul_comm (256 ^ k) 256, Nat.mod_mul]

theorem decode_lt (bs : List UInt8) : decode bs < 256 ^ bs.length := by
  induction bs with
  | nil => simp [decode]
  | cons b bs ih =>
    have hb : b.toNat < 256 := b.toNat_lt
    rw [decode, List.length_cons, pow_succ]
    omega

/-- Writing what was read gives the same bytes. -/
theorem encode_decode (bs : List UInt8) : encode bs.length (decode bs) = bs := by
  induction bs with
  | nil => rfl
  | cons b bs ih =>
    have hb : b.toNat < 256 := b.toNat_lt
    have hmod : (b.toNat + 256 * decode bs) % 256 = b.toNat := by omega
    have hdiv : (b.toNat + 256 * decode bs) / 256 = decode bs := by omega
    rw [List.length_cons, encode, decode, hmod, hdiv, ih, UInt8.ofNat_toNat]

end LittleEndian

/-! ## Either order -/

inductive ByteOrder where
  | little
  | big
  deriving DecidableEq

namespace ByteOrder

def encode : ByteOrder → Nat → Nat → List UInt8
  | .little, k, n => LittleEndian.encode k n
  | .big, k, n => (LittleEndian.encode k n).reverse

def decode : ByteOrder → List UInt8 → Nat
  | .little, bs => LittleEndian.decode bs
  | .big, bs => LittleEndian.decode bs.reverse

@[simp] theorem length_encode (o : ByteOrder) (k n : Nat) : (o.encode k n).length = k := by
  cases o <;> simp [encode]

theorem decode_encode (o : ByteOrder) {k n : Nat} (h : n < 256 ^ k) : o.decode (o.encode k n) = n := by
  cases o <;> simp only [encode, decode, List.reverse_reverse, LittleEndian.decode_encode, Nat.mod_eq_of_lt h]

end ByteOrder

end ProgLib
