/-
Items matched with candidates in order.  Each item takes the first candidate behind those taken
that passes its check; the search is given up once more items than candidates are left.  A check
may fail to come to a result, whatever the candidate.
-/
import Mathlib.Data.List.Forall2
import Mathlib.Order.Nat

namespace OrderedMatch

universe u v

variable {α : Type u} {β : Type v}

def greedy (check : α → β → Option Bool) : List α → List β → Option Bool
  | [], _ => some true
  | _ :: _, [] => some false
  | item :: items, candidate :: candidates =>
      match check item candidate with
      | none => none
      | some true => greedy check items candidates
      | some false =>
          if candidates.length < items.length + 1 then some false
          else greedy check (item :: items) candidates

/-- The check of an item with a candidate comes to true. -/
def Passes (check : α → β → Option Bool) (item : α) (candidate : β) : Prop :=
  check item candidate = some true

/-- The items pass with some of the candidates, in the order of both. -/
def Matches (check : α → β → Option Bool) : List α → List β → Prop :=
  List.SublistForall₂ (Passes check)

section Matches

variable {check : α → β → Option Bool} {item : α} {items : List α} {candidate : β}
  {candidates : List β}

theorem Matches.length_le (hmatches : Matches check items candidates) :
    items.length ≤ candidates.length := by
  obtain ⟨taken, hforall, hsublist⟩ := List.sublistForall₂_iff.mp hmatches
  rw [hforall.length_eq]
  exact hsublist.length_le

theorem Matches.tail (hmatches : Matches check (item :: items) candidates) :
    Matches check items candidates := by
  induction candidates with
  | nil => cases hmatches
  | cons candidate candidates ih =>
      cases hmatches with
      | cons _ hrest => exact .cons_right hrest
      | cons_right hrest => exact .cons_right (ih hrest)

/-- Nothing is lost by taking the first candidate that passes. -/
theorem matches_cons_of_passes (hpasses : Passes check item candidate) :
    Matches check (item :: items) (candidate :: candidates) ↔ Matches check items candidates := by
  constructor
  · intro hmatches
    cases hmatches with
    | cons _ hrest => exact hrest
    | cons_right hrest => exact Matches.tail hrest
  · exact .cons hpasses

theorem matches_cons_of_not_passes (hfails : ¬ Passes check item candidate) :
    Matches check (item :: items) (candidate :: candidates) ↔
      Matches check (item :: items) candidates := by
  constructor
  · intro hmatches
    cases hmatches with
    | cons hpasses _ => exact absurd hpasses hfails
    | cons_right hrest => exact hrest
  · exact .cons_right

end Matches

/-! ### What the search comes to -/

/-- The search comes to an item without a result: those before it pass with some of the candidates
before a rest, in which there is one for each item left, unless the candidates before it were all
taken. -/
def Reaches (check : α → β → Option Bool) (Faulty : α → Prop) (items : List α)
    (candidates : List β) : Prop :=
  ∃ before item after used rest, items = before ++ item :: after ∧ Faulty item ∧
    candidates = used ++ rest ∧ rest ≠ [] ∧ Matches check before used ∧
      (used.length = before.length ∨ after.length + 1 ≤ rest.length)

section Greedy

variable {check : α → β → Option Bool} {Faulty : α → Prop}

theorem greedy_eq_true (hfaulty : ∀ item candidate, check item candidate = none ↔ Faulty item)
    (items : List α) (candidates : List β) :
    greedy check items candidates = some true ↔ Matches check items candidates := by
  induction candidates generalizing items with
  | nil =>
      cases items with
      | nil => exact iff_of_true rfl .nil
      | cons item items => exact iff_of_false (by simp [greedy]) fun hmatches => by cases hmatches
  | cons candidate candidates ih =>
      cases items with
      | nil => exact iff_of_true (by simp [greedy]) .nil
      | cons item items =>
          rw [greedy]
          cases hcheck : check item candidate with
          | none =>
              refine iff_of_false (Option.some_ne_none _ ∘ Eq.symm) fun hmatches => ?_
              obtain ⟨taken, hforall, -⟩ := List.sublistForall₂_iff.mp hmatches
              cases hforall with
              | @cons _ other _ _ hpasses _ =>
                  have hnone := (hfaulty item other).mpr ((hfaulty item candidate).mp hcheck)
                  rw [Passes, hnone] at hpasses
                  cases hpasses
          | some ret =>
              cases ret with
              | true => rw [matches_cons_of_passes hcheck, ← ih]
              | false =>
                  have hfails : ¬ Passes check item candidate := by simp [Passes, hcheck]
                  rw [matches_cons_of_not_passes hfails]
                  simp only
                  split_ifs with hfew
                  · refine iff_of_false (by simp) fun hmatches => ?_
                    have hlength := hmatches.length_le
                    rw [List.length_cons] at hlength
                    omega
                  · exact ih (item :: items)

theorem reaches_cons_of_passes {item : α} {items : List α} {candidate : β} {candidates : List β}
    (hpasses : Passes check item candidate) (hsound : ¬ Faulty item) :
    Reaches check Faulty (item :: items) (candidate :: candidates) ↔
      Reaches check Faulty items candidates := by
  constructor
  · rintro ⟨before, faulty, after, used, rest, hitems, hfaulty, hcandidates, hrest, hmatches, hroom⟩
    cases before with
    | nil =>
        obtain ⟨rfl, -⟩ := List.cons.inj hitems
        exact absurd hfaulty hsound
    | cons first before =>
        rw [List.cons_append] at hitems
        obtain ⟨rfl, rfl⟩ := List.cons.inj hitems
        cases used with
        | nil => cases hmatches
        | cons _ used =>
            rw [List.cons_append] at hcandidates
            obtain ⟨rfl, rfl⟩ := List.cons.inj hcandidates
            refine ⟨before, faulty, after, used, rest, rfl, hfaulty, rfl, hrest,
              (matches_cons_of_passes hpasses).mp hmatches, hroom.imp_left fun hlength => ?_⟩
            simpa using hlength
  · rintro ⟨before, faulty, after, used, rest, rfl, hfaulty, rfl, hrest, hmatches, hroom⟩
    exact ⟨item :: before, faulty, after, candidate :: used, rest, rfl, hfaulty, rfl, hrest,
      .cons hpasses hmatches, hroom.imp_left (by simp)⟩

theorem reaches_cons_of_not_passes {item : α} {items : List α} {candidate : β}
    {candidates : List β} (hfails : ¬ Passes check item candidate) (hsound : ¬ Faulty item) :
    Reaches check Faulty (item :: items) (candidate :: candidates) ↔
      items.length + 1 ≤ candidates.length ∧ Reaches check Faulty (item :: items) candidates := by
  constructor
  · rintro ⟨before, faulty, after, used, rest, hitems, hfaulty, hcandidates, hrest, hmatches, hroom⟩
    cases before with
    | nil =>
        obtain ⟨rfl, -⟩ := List.cons.inj hitems
        exact absurd hfaulty hsound
    | cons first before =>
        rw [List.cons_append] at hitems
        obtain ⟨rfl, rfl⟩ := List.cons.inj hitems
        cases used with
        | nil => cases hmatches
        | cons _ used =>
            rw [List.cons_append] at hcandidates
            obtain ⟨rfl, rfl⟩ := List.cons.inj hcandidates
            have hmatches' := (matches_cons_of_not_passes hfails).mp hmatches
            have hlength := hmatches'.length_le
            -- one more candidate than items was used, so the others must be enough
            have henough : after.length + 1 ≤ rest.length := by
              rcases hroom with hused | hleft
              · simp only [List.length_cons] at hused hlength
                omega
              · exact hleft
            refine ⟨?_, item :: before, faulty, after, used, rest, rfl, hfaulty, rfl, hrest,
              hmatches', .inr henough⟩
            simp only [List.length_append, List.length_cons] at hlength ⊢
            omega
  · rintro ⟨hmany, before, faulty, after, used, rest, hitems, hfaulty, rfl, hrest, hmatches, hroom⟩
    refine ⟨before, faulty, after, candidate :: used, rest, hitems, hfaulty, rfl, hrest,
      .cons_right hmatches, .inr ?_⟩
    have hlength := congrArg List.length hitems
    simp only [List.length_append, List.length_cons] at hlength hmany
    omega

theorem greedy_eq_none (hfaulty : ∀ item candidate, check item candidate = none ↔ Faulty item)
    (items : List α) (candidates : List β) :
    greedy check items candidates = none ↔ Reaches check Faulty items candidates := by
  induction candidates generalizing items with
  | nil =>
      refine iff_of_false (by cases items <;> simp [greedy]) ?_
      rintro ⟨before, faulty, after, used, rest, -, -, hcandidates, hrest, -⟩
      exact hrest (List.append_eq_nil_iff.mp hcandidates.symm).2
  | cons candidate candidates ih =>
      cases items with
      | nil =>
          refine iff_of_false (by simp [greedy]) ?_
          rintro ⟨before, faulty, after, used, rest, hitems, -⟩
          simp at hitems
      | cons item items =>
          rw [greedy]
          cases hcheck : check item candidate with
          | none =>
              refine iff_of_true rfl ⟨[], item, items, [], candidate :: candidates, rfl,
                (hfaulty item candidate).mp hcheck, rfl, List.cons_ne_nil _ _, .nil, .inl rfl⟩
          | some ret =>
              have hsound : ¬ Faulty item := by
                intro hbad
                rw [(hfaulty item candidate).mpr hbad] at hcheck
                cases hcheck
              cases ret with
              | true => rw [reaches_cons_of_passes hcheck hsound, ← ih]
              | false =>
                  have hfails : ¬ Passes check item candidate := by simp [Passes, hcheck]
                  rw [reaches_cons_of_not_passes hfails hsound, ← ih]
                  simp only
                  split_ifs with hfew
                  · exact iff_of_false (by simp) fun h => absurd h.1 (by omega)
                  · exact (and_iff_right (by omega)).symm

end Greedy

end OrderedMatch
