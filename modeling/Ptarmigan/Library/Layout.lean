/-
Byte strings made of consecutive fields of known widths: cutting them apart, and what is
left of them when they are longer or shorter than their fields.
-/
import Mathlib.Algebra.Ring.Nat

namespace Layout

universe u

variable {α : Type u}

/-- The fields of the given widths, one after another. -/
def cut : List Nat → List α → List (List α)
  | [], _ => []
  | width :: widths, items => items.take width :: cut widths (items.drop width)

theorem length_cut (widths : List Nat) (items : List α) :
    (cut widths items).length = widths.length := by
  induction widths generalizing items with
  | nil => rfl
  | cons width widths ih =>
      rw [cut, List.length_cons, List.length_cons, ih]

/-- Fields that are put together are cut apart again, whatever follows them. -/
theorem cut_append {widths : List Nat} {fields : List (List α)}
    (hwidths : fields.map List.length = widths) (rest : List α) :
    cut widths (fields.flatten ++ rest) = fields := by
  induction fields generalizing widths with
  | nil =>
      subst hwidths
      rfl
  | cons field fields ih =>
      subst hwidths
      have htail := ih rfl
      simp [cut, htail]

theorem cut_flatten {widths : List Nat} {fields : List (List α)}
    (hwidths : fields.map List.length = widths) : cut widths fields.flatten = fields := by
  have hcut := cut_append hwidths []
  rwa [List.append_nil] at hcut

theorem length_flatten {widths : List Nat} {fields : List (List α)}
    (hwidths : fields.map List.length = widths) : fields.flatten.length = widths.sum := by
  rw [List.length_flatten, hwidths]

/-- Where fields of the given widths begin, one after another from `pos` on. -/
def starts : Nat → List Nat → List Nat
  | _, [] => []
  | pos, width :: widths => pos :: starts (pos + width) widths

/-- No field begins behind the end of them all. -/
theorem starts_le {widths : List Nat} :
    ∀ {pos start : Nat}, start ∈ starts pos widths → start ≤ pos + widths.sum := by
  induction widths with
  | nil =>
      intro pos start hmem
      cases hmem
  | cons width widths ih =>
      intro pos start hmem
      rw [List.sum_cons, ← Nat.add_assoc]
      rcases List.mem_cons.mp hmem with rfl | hrest
      · omega
      · exact ih hrest

end Layout
