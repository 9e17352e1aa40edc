/-
Numbers as byte strings of a fixed length, the highest byte first.
-/
import Mathlib.Data.Nat.Basic
import Mathlib.Tactic.Ring

namespace BigEndian

/-- The lowest `count` bytes of a number. -/
def encode : Nat → Nat → List UInt8
  | 0, _ => []
  | count + 1, value => (value / 256 ^ count).toUInt8 :: encode count value

/-- The number that a byte string stands for, on top of the digits already read. -/
def decodeFrom (value : Nat) (bytes : List UInt8) : Nat :=
  bytes.foldl (fun value byte => value * 256 + byte.toNat) value

def decode (bytes : List UInt8) : Nat :=
  decodeFrom 0 bytes

@[simp] theorem length_encode (count value : Nat) : (encode count value).length = count := by
  induction count with
  | zero => rfl
  | succ count ih => rw [encode, List.length_cons, ih]

theorem decodeFrom_encode (count value high : Nat) :
    decodeFrom high (encode count value) = high * 256 ^ count + value % 256 ^ count := by
  induction count generalizing high with
  | zero => simp [encode, decodeFrom, Nat.mod_one]
  | succ count ih =>
      have hbyte : (value / 256 ^ count).toUInt8.toNat = value / 256 ^ count % 256 := rfl
      have hsplit : value % 256 ^ (count + 1) =
          value % 256 ^ count + 256 ^ count * (value / 256 ^ count % 256) := by
        rw [Nat.pow_succ, Nat.mod_mul]
      have hstep : decodeFrom high (encode (count + 1) value) =
          decodeFrom (high * 256 + value / 256 ^ count % 256) (encode count value) := by
        rw [encode, decodeFrom, List.foldl_cons, hbyte, decodeFrom]
      rw [hstep, ih, hsplit]
      ring

theorem decode_encode_mod (count value : Nat) :
    decode (encode count value) = value % 256 ^ count := by
  rw [decode, decodeFrom_encode, Nat.zero_mul, Nat.zero_add]

/-- A number that fits is read back. -/
theorem decode_encode {count value : Nat} (hfits : value < 256 ^ count) :
    decode (encode count value) = value := by
  rw [decode_encode_mod, Nat.mod_eq_of_lt hfits]

/-- Only the lowest bytes count. -/
theorem encode_mod (count value : Nat) :
    encode count (value % 256 ^ count) = encode count value := by
  induction count generalizing value with
  | zero => rfl
  | succ count ih =>
      have hbyte : (value % 256 ^ (count + 1) / 256 ^ count).toUInt8 =
          (value / 256 ^ count).toUInt8 := by
        rw [Nat.pow_succ, Nat.mod_mul_right_div_self]
        exact UInt8.toNat.inj (Nat.mod_mod _ 256)
      have hrest : encode count (value % 256 ^ (count + 1)) = encode count value := by
        rw [← ih (value % 256 ^ (count + 1)), Nat.mod_mod_of_dvd _ (pow_dvd_pow _ (Nat.le_succ _)),
          ih]
      rw [encode, encode, hbyte, hrest]

theorem encode_add (count first second : Nat) :
    encode count (decode (encode count first) + second) = encode count (first + second) := by
  rw [decode_encode_mod, ← encode_mod, Nat.mod_add_mod, encode_mod]

theorem decodeFrom_eq (high : Nat) (bytes : List UInt8) :
    decodeFrom high bytes = high * 256 ^ bytes.length + decode bytes := by
  induction bytes generalizing high with
  | nil => simp [decodeFrom, decode]
  | cons byte rest ih =>
      have hstep : ∀ from', decodeFrom from' (byte :: rest) =
          decodeFrom (from' * 256 + byte.toNat) rest := fun _ => rfl
      rw [decode, hstep, hstep, ih, ih, List.length_cons]
      ring

theorem decode_lt (bytes : List UInt8) : decode bytes < 256 ^ bytes.length := by
  induction bytes with
  | nil => exact Nat.one_pos
  | cons byte rest ih =>
      have hstep : decode (byte :: rest) = decodeFrom (0 * 256 + byte.toNat) rest := rfl
      have hbyte := byte.toNat_lt
      rw [hstep, decodeFrom_eq, List.length_cons, Nat.pow_succ]
      calc (0 * 256 + byte.toNat) * 256 ^ rest.length + decode rest
          < (0 * 256 + byte.toNat) * 256 ^ rest.length + 256 ^ rest.length := by omega
        _ = (byte.toNat + 1) * 256 ^ rest.length := by ring
        _ ≤ 256 * 256 ^ rest.length := Nat.mul_le_mul_right _ (by omega)
        _ = 256 ^ rest.length * 256 := Nat.mul_comm _ _

/-- Bytes that are read are written back. -/
theorem encode_decode (bytes : List UInt8) : encode bytes.length (decode bytes) = bytes := by
  induction bytes with
  | nil => rfl
  | cons byte rest ih =>
      have hstep : decode (byte :: rest) = decodeFrom (0 * 256 + byte.toNat) rest := rfl
      have hhead : (byte.toNat * 256 ^ rest.length + decode rest) / 256 ^ rest.length =
          byte.toNat := by
        rw [Nat.mul_comm, Nat.mul_add_div (Nat.pow_pos (by decide)),
          Nat.div_eq_of_lt (decode_lt rest), Nat.add_zero]
      have htail : (byte.toNat * 256 ^ rest.length + decode rest) % 256 ^ rest.length =
          decode rest := by
        rw [Nat.mul_add_mod_self_right, Nat.mod_eq_of_lt (decode_lt rest)]
      rw [hstep, decodeFrom_eq, List.length_cons, Nat.zero_mul, Nat.zero_add, encode, hhead,
        ← encode_mod rest.length, htail, ih]
      exact congrArg (· :: rest) (UInt8.ofNat_toNat)

end BigEndian
