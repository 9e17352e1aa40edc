/-
A binary tree of values that grows from its root: a value at height `h` stands for
the `2 ^ h` leaves whose indices share its bits from `h` up.  Going down, a set bit
of the index takes the child, a clear bit keeps the value.  The leaves that are
handed out from the highest index down to some lowest one fit in one value for each
height: at every height the newest is enough.
-/
import Mathlib.Data.Nat.Bits
import Mathlib.Data.Nat.Find
import Mathlib.Tactic.Ring

namespace PrefixTree

universe u

variable {α : Type u} (child : Nat → α → α)

/-- From a value down to the leaf of an index, over the bits below `height`, the
highest first. -/
def walk (value : α) : Nat → Nat → α
  | 0, _ => value
  | height + 1, index =>
      if index.testBit height then walk (child height value) height index
      else walk value height index

/-- The index of the value at a height that stands for a leaf. -/
def node (height index : Nat) : Nat :=
  index / 2 ^ height * 2 ^ height

theorem node_le (height index : Nat) : node height index ≤ index :=
  Nat.div_mul_le_self index (2 ^ height)

theorem lt_node_add (height index : Nat) : index < node height index + 2 ^ height := by
  have hsplit := Nat.div_add_mod' index (2 ^ height)
  have hrest := Nat.mod_lt index (Nat.two_pow_pos height)
  rw [node]
  omega

theorem testBit_node (height index bit : Nat) :
    (node height index).testBit bit = (decide (height ≤ bit) && index.testBit bit) := by
  rw [node, Nat.testBit_mul_two_pow]
  by_cases hle : height ≤ bit
  · rw [Nat.testBit_div_two_pow, Nat.sub_add_cancel hle]
  · simp [hle]

section Walk

variable {child}

theorem walk_congr {height left right : Nat} (value : α)
    (hbits : ∀ bit < height, left.testBit bit = right.testBit bit) :
    walk child value height left = walk child value height right := by
  induction height generalizing value with
  | zero => rfl
  | succ height ih =>
      have hlower : ∀ bit < height, left.testBit bit = right.testBit bit :=
        fun bit hbit => hbits bit (Nat.lt_succ_of_lt hbit)
      rw [walk, walk, hbits height (Nat.lt_succ_self height), ih _ hlower, ih _ hlower]

theorem walk_of_clear {height index : Nat} (value : α)
    (hclear : ∀ bit < height, index.testBit bit = false) :
    walk child value height index = value := by
  induction height with
  | zero => rfl
  | succ height ih =>
      rw [walk, hclear height (Nat.lt_succ_self height)]
      exact ih fun bit hbit => hclear bit (Nat.lt_succ_of_lt hbit)

/-- A walk goes through the value that stands for its leaf at any lower height. -/
theorem walk_node {low height : Nat} (hle : low ≤ height) (value : α) (index : Nat) :
    walk child value height index =
      walk child (walk child value height (node low index)) low index := by
  induction height generalizing value with
  | zero =>
      obtain rfl : low = 0 := Nat.le_zero.mp hle
      rfl
  | succ height ih =>
      by_cases hlow : low = height + 1
      · have hclear : ∀ bit < height + 1, (node low index).testBit bit = false := by
          intro bit hbit
          rw [testBit_node, decide_eq_false (by omega), Bool.false_and]
        rw [walk_of_clear value hclear, hlow]
      · have hbelow : low ≤ height := by omega
        have hbit : (node low index).testBit height = index.testBit height := by
          rw [testBit_node, decide_eq_true hbelow, Bool.true_and]
        rw [walk, walk, hbit, ih hbelow, ih hbelow]
        split <;> rfl

/-- Below a height, the rest of an index has the bits of the index. -/
theorem walk_sub_node (height index : Nat) (value : α) :
    walk child value (height + 1) (index - node height index) =
      walk child value height index := by
  have hrest : index - node height index = index % 2 ^ height := by
    have hsplit := Nat.div_add_mod' index (2 ^ height)
    rw [node]
    omega
  have hclear : (index % 2 ^ height).testBit height = false := by
    simp [Nat.testBit_mod_two_pow]
  rw [hrest, walk, hclear]
  refine walk_congr value fun bit hbit => ?_
  simp [Nat.testBit_mod_two_pow, hbit]

end Walk

/-! ### Levels -/

/-- The highest height, of those up to `top`, at which an index is a node. -/
def AtLevel (top height index : Nat) : Prop :=
  2 ^ height ∣ index ∧ (height < top → ¬ 2 ^ (height + 1) ∣ index)

/-- The newest index of a level, when the indices from `2 ^ top - 1` down to `lowest`
have been handed out. -/
structure Newest (top lowest height index : Nat) : Prop where
  lowest_le : lowest ≤ index
  lt_top : index < 2 ^ top
  level : AtLevel top height index
  newest : ∀ other, lowest ≤ other → other < index → ¬ AtLevel top height other

theorem dvd_iff_testBit (height index : Nat) :
    2 ^ height ∣ index ↔ ∀ bit < height, index.testBit bit = false := by
  constructor
  · rintro ⟨rest, rfl⟩ bit hbit
    rw [Nat.testBit_two_pow_mul, decide_eq_false (by omega), Bool.false_and]
  · intro hclear
    have hnode : node height index = index := by
      refine Nat.eq_of_testBit_eq fun bit => ?_
      rw [testBit_node]
      by_cases hle : height ≤ bit
      · simp [hle]
      · rw [hclear bit (by omega), Bool.and_false]
    exact ⟨index / 2 ^ height, by rw [Nat.mul_comm]; exact hnode.symm⟩

variable {top lowest height low index : Nat}

theorem AtLevel.dvd_of_lt (hlevel : AtLevel top height index) (hlow : low < height) :
    2 ^ (low + 1) ∣ index :=
  (Nat.pow_dvd_pow 2 hlow).trans hlevel.1

theorem AtLevel.unique {other : Nat} (hlevel : AtLevel top height index)
    (hother : AtLevel top other index) (hheight : height ≤ top) (hle : other ≤ top) :
    height = other := by
  rcases Nat.lt_trichotomy height other with hlt | heq | hlt
  · exact absurd (hother.dvd_of_lt hlt) (hlevel.2 (by omega))
  · exact heq
  · exact absurd (hlevel.dvd_of_lt hlt) (hother.2 (by omega))

/-- Two indices of a level have a node of the next level between them. -/
theorem AtLevel.next (hlevel : AtLevel top height index) (htop : height < top) :
    2 ^ (height + 1) ∣ index + 2 ^ height := by
  obtain ⟨rest, rfl⟩ := hlevel.1
  have hodd : ¬ 2 ∣ rest := fun ⟨half, hhalf⟩ =>
    hlevel.2 htop ⟨half, by rw [hhalf]; ring⟩
  obtain ⟨half, hhalf⟩ : 2 ∣ rest + 1 := by omega
  refine ⟨half, ?_⟩
  calc 2 ^ height * rest + 2 ^ height = 2 ^ height * (rest + 1) := by ring
    _ = 2 ^ (height + 1) * half := by rw [hhalf]; ring

/-- The index just handed out is the newest of its level. -/
theorem newest_self (hlt : lowest < 2 ^ top) (hlevel : AtLevel top height lowest) :
    Newest top lowest height lowest :=
  ⟨le_refl lowest, hlt, hlevel, fun _ hle hother => absurd hle (by omega)⟩

theorem not_two_pow_succ_dvd (height : Nat) : ¬ 2 ^ (height + 1) ∣ 2 ^ height := fun hdvd =>
  absurd (Nat.le_of_dvd (Nat.two_pow_pos height) hdvd)
    (Nat.not_le_of_lt (Nat.pow_lt_pow_right (by omega) (Nat.lt_succ_self height)))

/-- The first index of a level to be handed out. -/
theorem atLevel_first (hheight : height ≤ top) : AtLevel top height (2 ^ top - 2 ^ height) := by
  refine ⟨Nat.dvd_sub (Nat.pow_dvd_pow 2 hheight) dvd_rfl, fun htop hdvd => ?_⟩
  have hle : 2 ^ height ≤ 2 ^ top := Nat.pow_le_pow_right (by omega) hheight
  have hpow := Nat.dvd_sub (Nat.pow_dvd_pow 2 htop) hdvd
  rw [Nat.sub_sub_self hle] at hpow
  exact not_two_pow_succ_dvd height hpow

/-- A level at which an index was handed out has a newest one. -/
theorem exists_newest (hle : lowest ≤ index) (hlt : index < 2 ^ top)
    (hlevel : AtLevel top height index) : ∃ newest, Newest top lowest height newest := by
  induction index using Nat.strong_induction_on with
  | _ index ih =>
      by_cases hsmaller : ∃ other, lowest ≤ other ∧ other < index ∧ AtLevel top height other
      · obtain ⟨other, hfrom, hother, hat⟩ := hsmaller
        exact ih other hother hfrom (hother.trans hlt) hat
      · exact ⟨index, hle, hlt, hlevel, fun other hfrom hother hat =>
          hsmaller ⟨other, hfrom, hother, hat⟩⟩

theorem Newest.unique {other : Nat} (hnewest : Newest top lowest height index)
    (hother : Newest top lowest height other) : index = other := by
  rcases Nat.lt_trichotomy index other with hlt | heq | hlt
  · exact absurd hnewest.level (hother.newest index hnewest.lowest_le hlt)
  · exact heq
  · exact absurd hother.level (hnewest.newest other hother.lowest_le hlt)

theorem Newest.of_succ (hnewest : Newest top (lowest + 1) height index)
    (hother : ¬ AtLevel top height lowest) : Newest top lowest height index where
  lowest_le := Nat.le_of_succ_le hnewest.lowest_le
  lt_top := hnewest.lt_top
  level := hnewest.level
  newest other hle hlt := by
    by_cases heq : other = lowest
    · rwa [heq]
    · exact hnewest.newest other (by omega) hlt

theorem two_pow_le_sub (hlt : lowest < 2 ^ top) (hlevel : AtLevel top height lowest)
    (hheight : height ≤ top) (hlow : low < height) : lowest + 2 ^ low < 2 ^ top := by
  have hlowlt : 2 ^ low < 2 ^ height := Nat.pow_lt_pow_right (by omega) hlow
  obtain ⟨rest, rfl⟩ := hlevel.1
  have htop : 2 ^ top = 2 ^ height * 2 ^ (top - height) := by
    rw [← Nat.pow_add]
    congr 1
    omega
  have hrest : rest + 1 ≤ 2 ^ (top - height) := by
    rw [htop] at hlt
    exact Nat.lt_of_mul_lt_mul_left hlt
  calc 2 ^ height * rest + 2 ^ low < 2 ^ height * rest + 2 ^ height := by omega
    _ = 2 ^ height * (rest + 1) := by ring
    _ ≤ 2 ^ height * 2 ^ (top - height) := Nat.mul_le_mul_left _ hrest
    _ = 2 ^ top := htop.symm

/-- When an index of a level comes, the newest of each lower level is its sibling. -/
theorem newest_sibling (hlt : lowest < 2 ^ top) (hlevel : AtLevel top height lowest)
    (hheight : height ≤ top) (hlow : low < height) :
    Newest top (lowest + 1) low (lowest + 2 ^ low) where
  lowest_le := Nat.add_le_add_left Nat.one_le_two_pow lowest
  lt_top := two_pow_le_sub hlt hlevel hheight hlow
  level := by
    have hnext := hlevel.dvd_of_lt hlow
    refine ⟨Nat.dvd_add ((Nat.pow_dvd_pow 2 (Nat.le_succ low)).trans hnext) dvd_rfl,
      fun _ hdvd => ?_⟩
    exact not_two_pow_succ_dvd low ((Nat.dvd_add_right hnext).mp hdvd)
  newest other hle hother hat := by
    have hbase := (Nat.pow_dvd_pow 2 (Nat.le_succ low)).trans (hlevel.dvd_of_lt hlow)
    have hgap : 2 ^ low ∣ other - lowest := Nat.dvd_sub hat.1 hbase
    have := Nat.le_of_dvd (by omega) hgap
    omega

/-- The highest node of an index that is not below a bound. -/
theorem exists_highest_node (hle : lowest ≤ index) :
    ∃ height ≤ top, lowest ≤ node height index ∧
      (height < top → node (height + 1) index < lowest) := by
  refine ⟨Nat.findGreatest (fun height => lowest ≤ node height index) top,
    Nat.findGreatest_le top, ?_, fun htop => ?_⟩
  · refine Nat.findGreatest_spec (P := fun height => lowest ≤ node height index)
      (Nat.zero_le top) ?_
    simpa [node] using hle
  · have hnot := Nat.findGreatest_is_greatest (P := fun height => lowest ≤ node height index)
      (Nat.lt_succ_self _) htop
    exact Nat.lt_of_not_le hnot

theorem le_node {other : Nat} (hother : other ≤ index) (hdvd : 2 ^ height ∣ other) :
    other ≤ node height index := by
  obtain ⟨rest, rfl⟩ := hdvd
  have hrest : rest ≤ index / 2 ^ height := by
    rw [Nat.le_div_iff_mul_le (Nat.two_pow_pos height), Nat.mul_comm]
    exact hother
  rw [node, Nat.mul_comm]
  exact Nat.mul_le_mul_right _ hrest

/-- Every index that was handed out is below the newest of some level. -/
theorem exists_newest_node (hle : lowest ≤ index) (hlt : index < 2 ^ top) :
    ∃ height ≤ top, Newest top lowest height (node height index) := by
  obtain ⟨height, hheight, hlowest, hhigher⟩ := @exists_highest_node top _ _ hle
  have hdvd : 2 ^ height ∣ node height index := ⟨_, Nat.mul_comm _ _⟩
  refine ⟨height, hheight, hlowest, (node_le _ _).trans_lt hlt, ⟨hdvd, ?_⟩, ?_⟩
  · intro htop hparent
    have habove := le_node (node_le height index) hparent
    have hbelow := hhigher htop
    omega
  · intro other hfrom hother hat
    have hgap : other + 2 ^ height ≤ node height index := by
      have hapart := Nat.le_of_dvd (by omega) (Nat.dvd_sub hdvd hat.1)
      omega
    have hindex := hgap.trans (node_le height index)
    by_cases htop : height < top
    · have habove := le_node hindex (hat.next htop)
      have hbelow := hhigher htop
      omega
    · obtain rfl : height = top := by omega
      omega

end PrefixTree
