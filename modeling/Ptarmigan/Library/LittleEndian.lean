/-
Numbers as byte strings of a fixed length, the lowest byte first.
-/
import Mathlib.Algebra.Ring.Nat

namespace LittleEndian

/-- The lowest `count` bytes of a number. -/
def encode : Nat → Nat → List UInt8
  | 0, _ => []
  | count + 1, value => value.toUInt8 :: encode count (value / 256)

/-- The number that a byte string stands for. -/
def decode : List UInt8 → Nat
  | [] => 0
  | byte :: bytes => byte.toNat + 256 * decode bytes

@[simp] theorem length_encode (count value : Nat) : (encode count value).length = count := by
  induction count generalizing value with
  | zero => rfl
  | succ count ih => rw [encode, List.length_cons, ih]

theorem decode_encode_mod (count value : Nat) :
    decode (encode count value) = value % 256 ^ count := by
  induction count generalizing value with
  | zero => rw [encode, decode, Nat.pow_zero, Nat.mod_one]
  | succ count ih =>
      have hbyte : value.toUInt8.toNat = value % 256 := rfl
      rw [encode, decode, hbyte, ih, Nat.pow_succ, Nat.mul_comm (256 ^ count), Nat.mod_mul]

/-- A number that fits is read back. -/
theorem decode_encode {count value : Nat} (hfits : value < 256 ^ count) :
    decode (encode count value) = value := by
  rw [decode_encode_mod, Nat.mod_eq_of_lt hfits]

end LittleEndian
