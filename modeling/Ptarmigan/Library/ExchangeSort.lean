/-
Exchange sort: every position in turn is compared with all later ones and
swapped with each that belongs before it.  The order among elements that compare
equal is not specified, so the results compare two runs only through data that
equal elements share.
-/
import Mathlib.Data.List.Sort
import Mathlib.Logic.Function.Basic

namespace ExchangeSort

universe u v w

variable {α : Type u} {β : Type v} {γ : Type w}

/-- One pass of the outer loop: the element that ends up at the current position
and what is left behind it. -/
def pass (greater : α → α → Bool) (current : α) : List α → α × List α
  | [] => (current, [])
  | later :: rest =>
      if greater current later then
        let result := pass greater later rest
        (result.1, current :: result.2)
      else
        let result := pass greater current rest
        (result.1, later :: result.2)

/-- The outer loop, for the given number of positions. -/
def sortFirst (greater : α → α → Bool) : Nat → List α → List α
  | 0, items => items
  | _ + 1, [] => []
  | count + 1, current :: rest =>
      let result := pass greater current rest
      result.1 :: sortFirst greater count result.2

def sort (greater : α → α → Bool) (items : List α) : List α :=
  sortFirst greater items.length items

theorem pass_perm (greater : α → α → Bool) (current : α) (rest : List α) :
    ((pass greater current rest).1 :: (pass greater current rest).2).Perm
      (current :: rest) := by
  induction rest generalizing current with
  | nil => simp [pass]
  | cons later rest ih =>
      by_cases hgreater : greater current later
      · simp only [pass, hgreater, ↓reduceIte]
        exact (List.Perm.swap current _ _).trans ((ih later).cons current)
      · simp only [pass, hgreater]
        exact ((List.Perm.swap later _ _).trans ((ih current).cons later)).trans
          (List.Perm.swap current later rest)

theorem pass_length (greater : α → α → Bool) (current : α) (rest : List α) :
    (pass greater current rest).2.length = rest.length := by
  simpa using (pass_perm greater current rest).length_eq

theorem sortFirst_perm (greater : α → α → Bool) (count : Nat) (items : List α) :
    (sortFirst greater count items).Perm items := by
  induction count generalizing items with
  | zero => exact .refl items
  | succ count ih =>
      cases items with
      | nil => exact .refl []
      | cons current rest =>
          exact ((ih _).cons _).trans (pass_perm greater current rest)

theorem sort_perm (greater : α → α → Bool) (items : List α) :
    (sort greater items).Perm items :=
  sortFirst_perm greater items.length items

/-- What the comparison does not see moves along. -/
theorem pass_map {greater : α → α → Bool} {change : α → α}
    (hsees : ∀ x y, greater (change x) (change y) = greater x y) (current : α) (rest : List α) :
    pass greater (change current) (rest.map change) =
      (change (pass greater current rest).1, (pass greater current rest).2.map change) := by
  induction rest generalizing current with
  | nil => rfl
  | cons later rest ih =>
      rw [List.map_cons, pass, pass, hsees]
      by_cases hgreater : greater current later = true
      · rw [if_pos hgreater, if_pos hgreater, ih]
        rfl
      · rw [if_neg hgreater, if_neg hgreater, ih]
        rfl

theorem sort_map {greater : α → α → Bool} {change : α → α}
    (hsees : ∀ x y, greater (change x) (change y) = greater x y) (items : List α) :
    sort greater (items.map change) = (sort greater items).map change := by
  have hfirst : ∀ (count : Nat) (items : List α),
      sortFirst greater count (items.map change) = (sortFirst greater count items).map change := by
    intro count
    induction count with
    | zero => exact fun _ => rfl
    | succ count ih =>
        intro items
        cases items with
        | nil => rfl
        | cons current rest =>
            rw [List.map_cons, sortFirst, sortFirst, pass_map hsees, ih]
            rfl
  rw [sort, sort, List.length_map, hfirst]

/-- Two elements come out in one order, whichever comes first, if only equal ones are not
ordered either way. -/
theorem sort_swap {greater : α → α → Bool} {x y : α}
    (hasymm : greater x y = true → greater y x = false)
    (htotal : greater x y = false → greater y x = false → x = y) :
    sort greater [x, y] = sort greater [y, x] := by
  have hpair : ∀ x y, sort greater [x, y] = if greater x y then [y, x] else [x, y] := by
    intro x y
    by_cases hgreater : greater x y <;>
      simp [sort, sortFirst, pass, hgreater]
  rw [hpair, hpair]
  by_cases hgreater : greater x y = true
  · simp [hgreater, hasymm hgreater]
  · simp only [Bool.not_eq_true] at hgreater
    by_cases hback : greater y x = true
    · simp [hgreater, hback]
    · simp only [Bool.not_eq_true] at hback
      simp [htotal hgreater hback]

section Ordered

variable [LinearOrder β] {key : α → β} {greater : α → α → Bool}

theorem pass_le (hgreater : ∀ x y, greater x y = true ↔ key y < key x)
    (current : α) (rest : List α) :
    ∀ item ∈ (pass greater current rest).2,
      key (pass greater current rest).1 ≤ key item := by
  have hmin : ∀ (rest : List α) (current : α),
      ∀ item ∈ current :: rest, key (pass greater current rest).1 ≤ key item := by
    intro rest
    induction rest with
    | nil => intro current item hitem; simp_all [pass]
    | cons later rest ih =>
        intro current item hitem
        by_cases hlater : greater current later
        · have hlt := (hgreater current later).mp hlater
          have hpass := ih later
          simp only [pass, hlater, ↓reduceIte]
          rcases List.mem_cons.mp hitem with rfl | hitem
          · exact (hpass later List.mem_cons_self).trans hlt.le
          · exact hpass item hitem
        · have hle : key current ≤ key later := by
            simpa [hgreater] using hlater
          have hpass := ih current
          simp only [pass, hlater]
          rcases List.mem_cons.mp hitem with rfl | hitem
          · exact hpass item List.mem_cons_self
          · rcases List.mem_cons.mp hitem with rfl | hitem
            · exact (hpass current List.mem_cons_self).trans hle
            · exact hpass item (List.mem_cons_of_mem current hitem)
  intro item hitem
  exact hmin rest current item
    ((pass_perm greater current rest).mem_iff.mp (List.mem_cons_of_mem _ hitem))

theorem sortFirst_pairwise (hgreater : ∀ x y, greater x y = true ↔ key y < key x)
    (count : Nat) (items : List α) (hcount : items.length ≤ count) :
    (sortFirst greater count items).Pairwise fun x y => key x ≤ key y := by
  induction count generalizing items with
  | zero =>
      obtain rfl : items = [] := List.length_eq_zero_iff.mp (Nat.le_zero.mp hcount)
      exact .nil
  | succ count ih =>
      cases items with
      | nil => exact .nil
      | cons current rest =>
          refine List.pairwise_cons.mpr ⟨?_, ih _ ?_⟩
          · intro item hitem
            exact pass_le hgreater current rest item
              ((sortFirst_perm greater count _).mem_iff.mp hitem)
          · rw [pass_length]
            exact Nat.le_of_succ_le_succ hcount

theorem sort_pairwise (hgreater : ∀ x y, greater x y = true ↔ key y < key x)
    (items : List α) : (sort greater items).Pairwise fun x y => key x ≤ key y :=
  sortFirst_pairwise hgreater items.length items le_rfl

/-- Two lists that hold the same data, in whatever order, hold it in the same
order once sorted, if the data of an element is determined by its key. -/
theorem sort_map_eq (hgreater : ∀ x y, greater x y = true ↔ key y < key x)
    {data : α → γ} {dataKey : γ → β} (hkey : ∀ x, key x = dataKey (data x))
    {items items' : List α} (hperm : (items.map data).Perm (items'.map data))
    (hdata : ∀ x ∈ items, ∀ y ∈ items, key x = key y → data x = data y) :
    (sort greater items).map data = (sort greater items').map data := by
  have hsorted : ((sort greater items).map data).Perm ((sort greater items').map data) :=
    (((sort_perm greater items).map data).trans hperm).trans
      ((sort_perm greater items').map data).symm
  have hpairwise : ∀ items : List α,
      ((sort greater items).map data).Pairwise fun a b => dataKey a ≤ dataKey b := by
    intro items
    rw [List.pairwise_map]
    exact (sort_pairwise hgreater items).imp fun hle => by rwa [hkey, hkey] at hle
  refine List.Perm.eq_of_pairwise ?_ (hpairwise items) (hpairwise items') hsorted
  intro a b ha hb hab hba
  have hmem : ∀ a ∈ (sort greater items).map data, ∃ x ∈ items, data x = a := by
    intro a ha
    obtain ⟨x, hx, rfl⟩ := List.mem_map.mp ha
    exact ⟨x, (sort_perm greater items).mem_iff.mp hx, rfl⟩
  obtain ⟨x, hx, rfl⟩ := hmem a ha
  obtain ⟨y, hy, rfl⟩ := hmem b (hsorted.mem_iff.mpr hb)
  exact hdata x hx y hy (by rw [hkey, hkey]; exact le_antisymm hab hba)

end Ordered

/-! ### Comparisons that also depend on the positions -/

section Positions

variable {σ : Type w}

/-- The same loops where a comparison is told at which positions it compares; `lp2` is counted
from the element behind the current one. -/
def passAt (greater : ℕ → α → α → Bool) (lp2 : ℕ) (current : α) : List α → α × List α
  | [] => (current, [])
  | later :: rest =>
      if greater lp2 current later then
        let result := passAt greater (lp2 + 1) later rest
        (result.1, current :: result.2)
      else
        let result := passAt greater (lp2 + 1) current rest
        (result.1, later :: result.2)

def sortFirstAt (greater : ℕ → ℕ → α → α → Bool) (lp : ℕ) : ℕ → List α → List α
  | 0, items => items
  | _ + 1, [] => []
  | count + 1, current :: rest =>
      let result := passAt (greater lp) 0 current rest
      result.1 :: sortFirstAt greater (lp + 1) count result.2

def sortAt (greater : ℕ → ℕ → α → α → Bool) (items : List α) : List α :=
  sortFirstAt greater 0 items.length items

theorem passAt_perm (greater : ℕ → α → α → Bool) (lp2 : ℕ) (current : α) (rest : List α) :
    ((passAt greater lp2 current rest).1 :: (passAt greater lp2 current rest).2).Perm
      (current :: rest) := by
  induction rest generalizing current lp2 with
  | nil => simp [passAt]
  | cons later rest ih =>
      by_cases hgreater : greater lp2 current later
      · simp only [passAt, hgreater, ↓reduceIte]
        exact (List.Perm.swap current _ _).trans ((ih _ later).cons current)
      · simp only [passAt, hgreater]
        exact ((List.Perm.swap later _ _).trans ((ih _ current).cons later)).trans
          (List.Perm.swap current later rest)

theorem sortFirstAt_perm (greater : ℕ → ℕ → α → α → Bool) (lp count : ℕ) (items : List α) :
    (sortFirstAt greater lp count items).Perm items := by
  induction count generalizing lp items with
  | zero => exact .refl items
  | succ count ih =>
      cases items with
      | nil => exact .refl []
      | cons current rest => exact ((ih _ _).cons _).trans (passAt_perm (greater lp) 0 current rest)

theorem sortAt_perm (greater : ℕ → ℕ → α → α → Bool) (items : List α) :
    (sortAt greater items).Perm items :=
  sortFirstAt_perm greater 0 items.length items

/-- Wherever the two are compared, they are put in the order of their keys. -/
def Decides [LE β] (key : α → β) (greater : ℕ → ℕ → α → α → Bool) (x y : α) : Prop :=
  ∀ lp lp2, (greater lp lp2 x y = true → key y ≤ key x) ∧
    (greater lp lp2 x y = false → key x ≤ key y)

theorem passAt_le [Preorder β] {key : α → β} {greater : ℕ → ℕ → α → α → Bool} (lp : ℕ)
    {current : α} {rest : List α}
    (hdecides : (current :: rest).Pairwise fun x y =>
      Decides key greater x y ∧ Decides key greater y x) (lp2 : ℕ) :
    ∀ item ∈ current :: rest, key (passAt (greater lp) lp2 current rest).1 ≤ key item := by
  induction rest generalizing current lp2 with
  | nil =>
      intro item hitem
      rw [List.mem_singleton.mp hitem]
      exact le_rfl
  | cons later rest ih =>
      obtain ⟨hcurrent, hlater⟩ := List.pairwise_cons.mp hdecides
      obtain ⟨hrest, hbehind⟩ := List.pairwise_cons.mp hlater
      have hpair := hcurrent later List.mem_cons_self
      intro item hitem
      by_cases hgreater : greater lp lp2 current later = true
      · have hpass := ih hlater (lp2 + 1)
        simp only [passAt, hgreater, ↓reduceIte]
        rcases List.mem_cons.mp hitem with rfl | hitem
        · exact (hpass later List.mem_cons_self).trans ((hpair.1 lp lp2).1 hgreater)
        · exact hpass item hitem
      · have hpass := ih (List.pairwise_cons.mpr
          ⟨fun item hitem => hcurrent item (List.mem_cons_of_mem later hitem), hbehind⟩) (lp2 + 1)
        simp only [passAt, hgreater]
        rcases List.mem_cons.mp hitem with rfl | hitem
        · exact hpass item List.mem_cons_self
        · rcases List.mem_cons.mp hitem with rfl | hitem
          · exact (hpass current List.mem_cons_self).trans
              ((hpair.1 lp lp2).2 (Bool.eq_false_iff.mpr hgreater))
          · exact hpass item (List.mem_cons_of_mem current hitem)

theorem sortFirstAt_pairwise [Preorder β] {key : α → β} {greater : ℕ → ℕ → α → α → Bool}
    (lp count : ℕ) {items : List α} (hcount : items.length ≤ count)
    (hdecides : items.Pairwise fun x y => Decides key greater x y ∧ Decides key greater y x) :
    (sortFirstAt greater lp count items).Pairwise fun x y => key x ≤ key y := by
  induction count generalizing lp items with
  | zero =>
      obtain rfl : items = [] := List.length_eq_zero_iff.mp (Nat.le_zero.mp hcount)
      exact .nil
  | succ count ih =>
      cases items with
      | nil => exact .nil
      | cons current rest =>
          have hperm := passAt_perm (greater lp) 0 current rest
          have hpassed := (hperm.pairwise_iff fun hboth => ⟨hboth.2, hboth.1⟩).mpr hdecides
          have hlength : (passAt (greater lp) 0 current rest).2.length ≤ count := by
            have hsame := hperm.length_eq
            rw [List.length_cons, List.length_cons] at hsame
            rw [List.length_cons] at hcount
            omega
          refine List.pairwise_cons.mpr ⟨?_, ih _ hlength (List.pairwise_cons.mp hpassed).2⟩
          intro item hitem
          have hbehind := (sortFirstAt_perm greater (lp + 1) count _).mem_iff.mp hitem
          exact passAt_le lp hdecides 0 item
            (hperm.mem_iff.mp (List.mem_cons_of_mem _ hbehind))

/-- Elements of which any two are put in order come out in order. -/
theorem sortAt_pairwise [Preorder β] {key : α → β} {greater : ℕ → ℕ → α → α → Bool}
    {items : List α}
    (hdecides : items.Pairwise fun x y => Decides key greater x y ∧ Decides key greater y x) :
    (sortAt greater items).Pairwise fun x y => key x ≤ key y :=
  sortFirstAt_pairwise 0 items.length le_rfl hdecides

theorem passAt_congr {greater greater' : ℕ → α → α → Bool} {lp2 : ℕ}
    (hsame : ∀ step, lp2 ≤ step → greater step = greater' step) (current : α) (rest : List α) :
    passAt greater lp2 current rest = passAt greater' lp2 current rest := by
  induction rest generalizing current lp2 with
  | nil => rfl
  | cons later rest ih =>
      have hbehind : ∀ step, lp2 + 1 ≤ step → greater step = greater' step :=
        fun step hstep => hsame step (Nat.le_of_succ_le hstep)
      rw [passAt, passAt, hsame lp2 le_rfl, ih hbehind, ih hbehind]

theorem sortFirstAt_congr {greater greater' : ℕ → ℕ → α → α → Bool} {lp : ℕ}
    (hsame : ∀ step, lp ≤ step → greater step = greater' step) (count : ℕ) (items : List α) :
    sortFirstAt greater lp count items = sortFirstAt greater' lp count items := by
  induction count generalizing lp items with
  | zero => rfl
  | succ count ih =>
      cases items with
      | nil => rfl
      | cons current rest =>
          rw [sortFirstAt, sortFirstAt, hsame lp le_rfl,
            ih fun step hstep => hsame step (Nat.le_of_succ_le hstep)]

/-- What can be compared one way with something at hand can be compared so all along a pass. -/
theorem exists_passAt {compare : σ → α → α → Bool} {wanted : α → α → Bool} {good : σ → Prop}
    {spare : σ} (hspare : good spare)
    (hable : ∀ x y, ∃ hand, good hand ∧ compare hand x y = wanted x y) (lp2 : ℕ)
    (current : α) (rest : List α) :
    ∃ hands : ℕ → σ, (∀ step, good (hands step)) ∧
      passAt (fun step => compare (hands step)) lp2 current rest = pass wanted current rest := by
  induction rest generalizing current lp2 with
  | nil => exact ⟨fun _ => spare, fun _ => hspare, rfl⟩
  | cons later rest ih =>
      obtain ⟨hand, hgood, hcompare⟩ := hable current later
      obtain ⟨hands, hhands, hpass⟩ := ih (lp2 + 1)
        (if wanted current later then later else current)
      refine ⟨Function.update hands lp2 hand, ?_, ?_⟩
      · intro step
        by_cases hstep : step = lp2
        · rw [hstep, Function.update_self]
          exact hgood
        · rw [Function.update_of_ne hstep]
          exact hhands step
      · have hbehind : ∀ current,
            passAt (fun step => compare (Function.update hands lp2 hand step)) (lp2 + 1) current
              rest = passAt (fun step => compare (hands step)) (lp2 + 1) current rest := by
          intro current
          apply passAt_congr
          intro step hstep
          rw [Function.update_of_ne (Nat.ne_of_gt hstep)]
        rw [passAt, pass, Function.update_self, hcompare, hbehind, hbehind]
        by_cases hwanted : wanted current later = true
        · rw [if_pos hwanted] at hpass
          rw [if_pos hwanted, if_pos hwanted, hpass]
        · rw [if_neg hwanted] at hpass
          rw [if_neg hwanted, if_neg hwanted, hpass]

theorem exists_sortFirstAt {compare : σ → α → α → Bool} {wanted : α → α → Bool} {good : σ → Prop}
    {spare : σ} (hspare : good spare)
    (hable : ∀ x y, ∃ hand, good hand ∧ compare hand x y = wanted x y) (lp count : ℕ)
    (items : List α) :
    ∃ hands : ℕ → ℕ → σ, (∀ step step', good (hands step step')) ∧
      sortFirstAt (fun step step' => compare (hands step step')) lp count items =
        sortFirst wanted count items := by
  induction count generalizing lp items with
  | zero => exact ⟨fun _ _ => spare, fun _ _ => hspare, rfl⟩
  | succ count ih =>
      cases items with
      | nil => exact ⟨fun _ _ => spare, fun _ _ => hspare, rfl⟩
      | cons current rest =>
          obtain ⟨first, hfirst, hpass⟩ := exists_passAt hspare hable 0 current rest
          obtain ⟨hands, hhands, hsort⟩ := ih (lp + 1) (pass wanted current rest).2
          refine ⟨Function.update hands lp first, ?_, ?_⟩
          · intro step
            by_cases hstep : step = lp
            · rw [hstep, Function.update_self]
              exact hfirst
            · rw [Function.update_of_ne hstep]
              exact hhands step
          · rw [sortFirstAt, sortFirst, Function.update_self, hpass]
            have hbehind := @sortFirstAt_congr α
              (fun step step' => compare (Function.update hands lp first step step'))
              (fun step step' => compare (hands step step')) (lp + 1)
              (fun step hstep => by rw [Function.update_of_ne (Nat.ne_of_gt hstep)]) count
              (pass wanted current rest).2
            rw [hbehind, hsort]

/-- The comparisons of a sort can be made to come out as those of another. -/
theorem exists_sortAt {compare : σ → α → α → Bool} {wanted : α → α → Bool} {good : σ → Prop}
    {spare : σ} (hspare : good spare)
    (hable : ∀ x y, ∃ hand, good hand ∧ compare hand x y = wanted x y) (items : List α) :
    ∃ hands : ℕ → ℕ → σ, (∀ step step', good (hands step step')) ∧
      sortAt (fun step step' => compare (hands step step')) items = sort wanted items :=
  exists_sortFirstAt hspare hable 0 items.length items

/-- A list of which no element is greater than a later one stays as it is. -/
theorem passAt_of_not_greater {greater : ℕ → α → α → Bool} (lp2 : ℕ) {current : α}
    {rest : List α} (hle : ∀ later ∈ rest, ∀ step, greater step current later = false) :
    passAt greater lp2 current rest = (current, rest) := by
  induction rest generalizing lp2 with
  | nil => rfl
  | cons later rest ih =>
      rw [passAt, hle later List.mem_cons_self,
        ih (lp2 + 1) fun item hitem => hle item (List.mem_cons_of_mem later hitem)]
      rfl

theorem sortAt_of_not_greater {greater : ℕ → ℕ → α → α → Bool} {items : List α}
    (hle : items.Pairwise fun x y => ∀ lp lp2, greater lp lp2 x y = false) :
    sortAt greater items = items := by
  have hfirst : ∀ (count lp : ℕ) (items : List α),
      (items.Pairwise fun x y => ∀ lp lp2, greater lp lp2 x y = false) →
        sortFirstAt greater lp count items = items := by
    intro count
    induction count with
    | zero => exact fun _ _ _ => rfl
    | succ count ih =>
        intro lp items hle
        cases items with
        | nil => rfl
        | cons current rest =>
            obtain ⟨hcurrent, hrest⟩ := List.pairwise_cons.mp hle
            rw [sortFirstAt, passAt_of_not_greater 0 fun later hlater => hcurrent later hlater lp,
              ih (lp + 1) rest hrest]
  exact hfirst items.length 0 items hle

end Positions

end ExchangeSort
