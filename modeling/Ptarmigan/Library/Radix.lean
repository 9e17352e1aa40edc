/-
Byte lists as the digits of a number in some base, the highest digit first.
-/
import Mathlib.Data.Nat.Basic
import Mathlib.Tactic.Ring

namespace Radix

/-- The number that the digits stand for, on top of the digits already read. -/
def valueFrom (base high : Nat) (digits : List UInt8) : Nat :=
  digits.foldl (fun value digit => value * base + digit.toNat) high

def value (base : Nat) (digits : List UInt8) : Nat :=
  valueFrom base 0 digits

/-- Every digit is one of the base. -/
def Below (base : Nat) (digits : List UInt8) : Prop :=
  ∀ digit ∈ digits, digit.toNat < base

instance (base : Nat) (digits : List UInt8) : Decidable (Below base digits) :=
  inferInstanceAs (Decidable (∀ digit ∈ digits, digit.toNat < base))

variable {base : Nat}

theorem Below.append {front back : List UInt8} (hfront : Below base front)
    (hback : Below base back) : Below base (front ++ back) := by
  intro digit hmem
  rcases List.mem_append.mp hmem with hmem | hmem
  · exact hfront digit hmem
  · exact hback digit hmem

theorem below_nil : Below base [] :=
  fun _ hmem => absurd hmem List.not_mem_nil

theorem Below.mono {base' : Nat} {digits : List UInt8} (hdigits : Below base digits)
    (hle : base ≤ base') : Below base' digits :=
  fun digit hmem => Nat.lt_of_lt_of_le (hdigits digit hmem) hle

theorem valueFrom_cons (high : Nat) (digit : UInt8) (digits : List UInt8) :
    valueFrom base high (digit :: digits) = valueFrom base (high * base + digit.toNat) digits :=
  rfl

theorem valueFrom_eq (high : Nat) (digits : List UInt8) :
    valueFrom base high digits = high * base ^ digits.length + value base digits := by
  induction digits generalizing high with
  | nil => simp [valueFrom, value]
  | cons digit digits ih =>
      rw [value, valueFrom_cons, valueFrom_cons, ih, ih (0 * base + digit.toNat), List.length_cons]
      ring

theorem value_append (front back : List UInt8) :
    value base (front ++ back) = value base front * base ^ back.length + value base back := by
  rw [value, valueFrom, List.foldl_append]
  exact valueFrom_eq (value base front) back

theorem value_singleton (digit : UInt8) : value base [digit] = digit.toNat := by
  simp [value, valueFrom]

theorem value_replicate_zero (count : Nat) : value base (List.replicate count 0) = 0 := by
  induction count with
  | zero => rfl
  | succ count ih =>
      rw [List.replicate_succ, value, valueFrom_cons]
      simpa [value] using ih

theorem value_lt {digits : List UInt8} (hdigits : Below base digits) :
    value base digits < base ^ digits.length := by
  induction digits with
  | nil => exact Nat.one_pos
  | cons digit digits ih =>
      have hhead : digit.toNat < base := hdigits digit (List.mem_cons_self ..)
      have htail := ih fun other hmem => hdigits other (List.mem_cons_of_mem _ hmem)
      rw [value, valueFrom_cons, valueFrom_eq, Nat.zero_mul, Nat.zero_add, List.length_cons,
        Nat.pow_succ]
      calc digit.toNat * base ^ digits.length + value base digits
          < digit.toNat * base ^ digits.length + base ^ digits.length := by omega
        _ = (digit.toNat + 1) * base ^ digits.length := by ring
        _ ≤ base * base ^ digits.length := Nat.mul_le_mul_right _ hhead
        _ = base ^ digits.length * base := Nat.mul_comm _ _

/-- Digits are determined by their number and by what they stand for. -/
theorem value_injective {digits digits' : List UInt8} (hdigits : Below base digits)
    (hdigits' : Below base digits') (hlength : digits.length = digits'.length)
    (hvalue : value base digits = value base digits') : digits = digits' := by
  induction digits generalizing digits' with
  | nil => exact (List.length_eq_zero_iff.mp hlength.symm).symm
  | cons digit digits ih =>
      obtain ⟨digit', digits', rfl⟩ := List.exists_cons_of_length_eq_add_one hlength.symm
      have hlength' : digits.length = digits'.length := Nat.succ_injective hlength
      have htail := fun other hmem => hdigits other (List.mem_cons_of_mem digit hmem)
      have htail' := fun other hmem => hdigits' other (List.mem_cons_of_mem digit' hmem)
      have hlt := value_lt htail
      have hlt' := value_lt htail'
      simp only [value, valueFrom_cons, Nat.zero_mul, Nat.zero_add] at hvalue
      rw [valueFrom_eq, valueFrom_eq, ← hlength'] at hvalue
      rw [← hlength'] at hlt'
      have hpos : 0 < base ^ digits.length := Nat.zero_lt_of_lt hlt
      have hhead : digit.toNat = digit'.toNat := by
        have hdiv := congrArg (· / base ^ digits.length) hvalue
        simp only [Nat.mul_comm _ (base ^ digits.length), Nat.mul_add_div hpos,
          Nat.div_eq_of_lt hlt, Nat.div_eq_of_lt hlt', Nat.add_zero] at hdiv
        exact hdiv
      rw [hhead] at hvalue
      rw [UInt8.toNat_inj.mp hhead, ih htail htail' hlength' (Nat.add_left_cancel hvalue)]

end Radix
