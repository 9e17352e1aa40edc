/-
Arithmetic of a machine that wraps around: each computation carries along whether one of its
operations has left the width it was made in.
-/
import Mathlib.Algebra.Ring.Nat

/-- A value, and whether an operation behind it wrapped around. -/
structure Wrapping (α : Type) where
  value : α
  wraps : Bool
deriving DecidableEq, Repr

namespace Wrapping

variable {α β : Type}

instance : Monad Wrapping where
  pure value := ⟨value, false⟩
  bind prog next := ⟨(next prog.value).value, prog.wraps || (next prog.value).wraps⟩

def add64 (left right : UInt64) : Wrapping UInt64 :=
  ⟨left + right, decide (2 ^ 64 ≤ left.toNat + right.toNat)⟩

def mul64 (left right : UInt64) : Wrapping UInt64 :=
  ⟨left * right, decide (2 ^ 64 ≤ left.toNat * right.toNat)⟩

def sub64 (left right : UInt64) : Wrapping UInt64 :=
  ⟨left - right, decide (left.toNat < right.toNat)⟩

def add32 (left right : UInt32) : Wrapping UInt32 :=
  ⟨left + right, decide (2 ^ 32 ≤ left.toNat + right.toNat)⟩

@[simp] theorem value_pure (value : α) : (pure value : Wrapping α).value = value :=
  rfl

@[simp] theorem value_bind (prog : Wrapping α) (next : α → Wrapping β) :
    (prog >>= next).value = (next prog.value).value :=
  rfl

theorem value_ite {cond : Prop} [Decidable cond] (yes no : Wrapping α) :
    (if cond then yes else no).value = if cond then yes.value else no.value :=
  apply_ite value cond yes no

/-- No operation wraps around, and the value meets the condition. -/
def wp (prog : Wrapping α) (post : α → Prop) : Prop :=
  prog.wraps = false ∧ post prog.value

section Wp

variable {post : α → Prop}

@[simp] theorem wp_pure (value : α) : wp (pure value) post ↔ post value := by
  change (false = false ∧ post value) ↔ post value
  simp

@[simp] theorem wp_bind (prog : Wrapping α) (next : α → Wrapping β) (post : β → Prop) :
    wp (prog >>= next) post ↔ wp prog fun value => wp (next value) post := by
  change ((prog.wraps || (next prog.value).wraps) = false ∧ post (next prog.value).value) ↔
    prog.wraps = false ∧ (next prog.value).wraps = false ∧ post (next prog.value).value
  rw [Bool.or_eq_false_iff, and_assoc]

theorem wp_ite {cond : Prop} [Decidable cond] (yes no : Wrapping α) :
    wp (if cond then yes else no) post ↔ (cond → wp yes post) ∧ (¬ cond → wp no post) := by
  by_cases hcond : cond
  · simp [hcond]
  · simp [hcond]

@[simp] theorem wp_add64 {left right : UInt64} {post : UInt64 → Prop} :
    wp (add64 left right) post ↔ left.toNat + right.toNat < 2 ^ 64 ∧ post (left + right) := by
  simp [wp, add64]

@[simp] theorem wp_mul64 {left right : UInt64} {post : UInt64 → Prop} :
    wp (mul64 left right) post ↔ left.toNat * right.toNat < 2 ^ 64 ∧ post (left * right) := by
  simp [wp, mul64]

@[simp] theorem wp_sub64 {left right : UInt64} {post : UInt64 → Prop} :
    wp (sub64 left right) post ↔ right.toNat ≤ left.toNat ∧ post (left - right) := by
  simp [wp, sub64]

@[simp] theorem wp_add32 {left right : UInt32} {post : UInt32 → Prop} :
    wp (add32 left right) post ↔ left.toNat + right.toNat < 2 ^ 32 ∧ post (left + right) := by
  simp [wp, add32]

end Wp

/-! ### What does not wrap around is exact -/

theorem toNat_add64 {left right : UInt64} (hfits : left.toNat + right.toNat < 2 ^ 64) :
    (left + right).toNat = left.toNat + right.toNat := by
  rw [UInt64.toNat_add, Nat.mod_eq_of_lt hfits]

theorem toNat_mul64 {left right : UInt64} (hfits : left.toNat * right.toNat < 2 ^ 64) :
    (left * right).toNat = left.toNat * right.toNat := by
  rw [UInt64.toNat_mul, Nat.mod_eq_of_lt hfits]

theorem toNat_add32 {left right : UInt32} (hfits : left.toNat + right.toNat < 2 ^ 32) :
    (left + right).toNat = left.toNat + right.toNat := by
  rw [UInt32.toNat_add, Nat.mod_eq_of_lt hfits]

end Wrapping
