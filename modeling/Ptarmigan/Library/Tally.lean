/-
A counter of the items that have not been claimed yet, kept beside the list of claims: it
never runs out while an item is left, and it is zero exactly when every item is claimed.
-/
import Mathlib.Data.Finset.Card

namespace Tally

universe u

variable {Item : Type u} {items : Finset Item} {claimed fresh : List Item} {left : Nat}

/-- Every claim is of an item, no item is claimed twice, and the counter holds the rest. -/
structure Tallied (items : Finset Item) (claimed : List Item) (left : Nat) : Prop where
  nodup : claimed.Nodup
  valid : ∀ item ∈ claimed, item ∈ items
  count : left + claimed.length = items.card

theorem Tallied.start (hleft : left = items.card) : Tallied items [] left where
  nodup := List.nodup_nil
  valid := fun _ hmem => absurd hmem List.not_mem_nil
  count := hleft

/-- Claims of new items take no more off the counter than it holds. -/
theorem Tallied.room (htally : Tallied items claimed left)
    (hnodup : (claimed ++ fresh).Nodup) (hitems : ∀ item ∈ fresh, item ∈ items) :
    fresh.length ≤ left := by
  classical
  have hsub : (claimed ++ fresh).toFinset ⊆ items := by
    intro item hmem
    rw [List.mem_toFinset, List.mem_append] at hmem
    rcases hmem with hold | hnew
    · exact htally.valid item hold
    · exact hitems item hnew
  have hcard := Finset.card_le_card hsub
  rw [List.toFinset_card_of_nodup hnodup, List.length_append] at hcard
  have hcount := htally.count
  omega

theorem Tallied.claim (htally : Tallied items claimed left)
    (hnodup : (claimed ++ fresh).Nodup) (hitems : ∀ item ∈ fresh, item ∈ items) :
    Tallied items (claimed ++ fresh) (left - fresh.length) := by
  have hroom := htally.room hnodup hitems
  constructor
  · exact hnodup
  · intro item hmem
    rcases List.mem_append.mp hmem with hold | hnew
    · exact htally.valid item hold
    · exact hitems item hnew
  · have hcount := htally.count
    rw [List.length_append]
    omega

theorem Tallied.left_eq_zero_iff (htally : Tallied items claimed left) :
    left = 0 ↔ ∀ item ∈ items, item ∈ claimed := by
  classical
  have hsub : claimed.toFinset ⊆ items := by
    intro item hmem
    exact htally.valid item (List.mem_toFinset.mp hmem)
  have hcard : claimed.toFinset.card = claimed.length :=
    List.toFinset_card_of_nodup htally.nodup
  have hcount := htally.count
  constructor
  · intro hzero item hitem
    have heq : claimed.toFinset = items :=
      Finset.eq_of_subset_of_card_le hsub (by omega)
    rw [← heq] at hitem
    exact List.mem_toFinset.mp hitem
  · intro hall
    have hle : items.card ≤ claimed.toFinset.card :=
      Finset.card_le_card fun item hitem => List.mem_toFinset.mpr (hall item hitem)
    omega

end Tally
