/-
Byte strings under XOR with a key stream.  A stream is a function of the position, so
that the streams of one key for different lengths are prefixes of one another.
-/
import Mathlib.Data.List.Basic

namespace KeyStream

/-- The bytes of two strings under XOR, as far as both go. -/
def xorBytes (left right : List UInt8) : List UInt8 :=
  List.zipWith (· ^^^ ·) left right

/-- The bytes of a stream from a position on. -/
def bytes (stream : Nat → UInt8) (start count : Nat) : List UInt8 :=
  (List.range' start count).map stream

@[simp] theorem length_bytes (stream : Nat → UInt8) (start count : Nat) :
    (bytes stream start count).length = count := by
  simp [bytes]

theorem drop_bytes (stream : Nat → UInt8) (start count dropped : Nat) :
    (bytes stream start count).drop dropped =
      bytes stream (start + dropped) (count - dropped) := by
  rw [bytes, bytes, ← List.map_drop, List.drop_range', Nat.mul_one]

theorem take_bytes (stream : Nat → UInt8) (start count taken : Nat) :
    (bytes stream start count).take taken = bytes stream start (min taken count) := by
  refine List.ext_getElem (by simp) fun pos _ _ => ?_
  simp [bytes]

@[simp] theorem length_xorBytes (left right : List UInt8) :
    (xorBytes left right).length = min left.length right.length :=
  List.length_zipWith

theorem take_xorBytes (left right : List UInt8) (count : Nat) :
    (xorBytes left right).take count = xorBytes (left.take count) (right.take count) :=
  List.take_zipWith

theorem drop_xorBytes (left right : List UInt8) (count : Nat) :
    (xorBytes left right).drop count = xorBytes (left.drop count) (right.drop count) :=
  List.drop_zipWith

/-- The same stream twice gives the bytes back. -/
theorem xorBytes_cancel {data stream : List UInt8} (hlength : data.length ≤ stream.length) :
    xorBytes (xorBytes data stream) stream = data := by
  induction data generalizing stream with
  | nil => rfl
  | cons byte data ih =>
      cases stream with
      | nil => exact absurd hlength (Nat.not_succ_le_zero _)
      | cons mask stream =>
          have hrest := ih (Nat.le_of_succ_le_succ hlength)
          simp only [xorBytes, List.zipWith_cons_cons] at hrest ⊢
          rw [hrest, UInt8.xor_assoc, UInt8.xor_self, UInt8.xor_zero]

theorem xorBytes_zeros {count : Nat} {stream : List UInt8} (hlength : stream.length = count) :
    xorBytes (List.replicate count 0) stream = stream := by
  induction stream generalizing count with
  | nil =>
      subst hlength
      rfl
  | cons mask stream ih =>
      subst hlength
      rw [List.length_cons, List.replicate_succ]
      simp only [xorBytes, List.zipWith_cons_cons, UInt8.zero_xor]
      exact congrArg (mask :: ·) (ih rfl)

end KeyStream
