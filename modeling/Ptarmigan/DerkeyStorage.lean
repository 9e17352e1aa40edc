/-
The compressed store of per-commitment secrets (`ln_derkey_storage_t`): after the
secrets of any number of commitments have been inserted in order, each of them can be
read back.
-/
import Ptarmigan.Library.PrefixTree
import Ptarmigan.Derkey

namespace Ptarmigan

open PrefixTree

/-- The indices `lnSecindexInit`, ..., `lowest`, in this order. -/
def secretIndices (lowest : UInt64) : List UInt64 :=
  (List.range (lnSecindexInit.toNat + 1 - lowest.toNat)).map fun commitNum =>
    lnSecindexInit - commitNum.toUInt64

/-- The secrets of the given indices, inserted one after the other. -/
def insertSecrets (crypto : Crypto) (seed : Bytes) (storage : LnDerkeyStorage)
    (indices : List UInt64) : Option LnDerkeyStorage :=
  indices.foldlM
    (fun storage index =>
      lnDerkeyStorageInsertSecret crypto storage (lnDerkeyCreateSecret crypto seed index) index)
    storage

variable {crypto : Crypto} {seed : Bytes} {storage : LnDerkeyStorage}

/-! ### Derivation as a walk -/

/-- `output[bit / 8] ^= 1 << (bit % 8)` and the hash. -/
def secretChild (crypto : Crypto) (bit : Nat) (secret : Bytes) : Bytes :=
  crypto.sha256 (flipBit bit secret)

theorem deriveSecret_eq_walk (base : Bytes) (bits : Nat) (index : UInt64) :
    deriveSecret crypto base bits index = walk (secretChild crypto) base bits index.toNat := by
  induction bits generalizing base with
  | zero => rfl
  | succ bit ih =>
      rw [deriveSecret, walk, ih, ih]
      rfl

/-- The secret of an index. -/
def secretAt (crypto : Crypto) (seed : Bytes) (index : Nat) : Bytes :=
  walk (secretChild crypto) seed 48 index

theorem lnDerkeyCreateSecret_eq (index : UInt64) :
    lnDerkeyCreateSecret crypto seed index = secretAt crypto seed index.toNat :=
  deriveSecret_eq_walk seed 48 index

theorem whereToPutSecret_atLevel (index : UInt64) :
    AtLevel 48 (whereToPutSecret index) index.toNat := by
  obtain ⟨bit, hbit⟩ : ∃ bit, (List.finRange 49).find?
      (fun bit : Fin 49 => indexBit index bit || bit == 48) = some bit :=
    Option.isSome_iff_exists.mp (List.find?_isSome.mpr ⟨48, List.mem_finRange 48, by simp⟩)
  have hwhere : whereToPutSecret index = bit := by rw [whereToPutSecret, hbit]; rfl
  rw [hwhere]
  obtain ⟨hset, pos, hpos, heq, hfirst⟩ := List.find?_eq_some_iff_getElem.mp hbit
  rw [List.length_finRange] at hpos
  obtain rfl : (⟨pos, hpos⟩ : Fin 49) = bit := by simpa using heq
  have hclear : ∀ lower < pos, index.toNat.testBit lower = false := by
    intro lower hlower
    have hnot := hfirst lower hlower
    simp only [List.getElem_finRange, indexBit, Bool.not_eq_true', Bool.or_eq_false_iff] at hnot
    exact hnot.1
  refine ⟨(dvd_iff_testBit pos index.toNat).mpr hclear, fun htop hdvd => ?_⟩
  have hbelow := (dvd_iff_testBit (pos + 1) index.toNat).mp hdvd pos (Nat.lt_succ_self pos)
  have hne : (⟨pos, hpos⟩ : Fin 49) ≠ 48 := fun h => by
    have := congrArg Fin.val h
    simp at this htop
    omega
  rw [Bool.or_eq_true] at hset
  rcases hset with hset | hset
  · rw [indexBit, hbelow] at hset
    cases hset
  · exact hne (beq_iff_eq.mp hset)

/-! ### What the slots hold -/

/-- Each slot holds the newest secret of its level; where no index of the level has
come, it is as `ln_derkey_storage_init` left it. -/
structure Stores (crypto : Crypto) (seed : Bytes) (lowest : Nat) (storage : LnDerkeyStorage) :
    Prop where
  filled : ∀ (bit : Fin 49) (index : UInt64), Newest 48 lowest bit index.toNat →
    storage bit = ⟨lnDerkeyCreateSecret crypto seed index, index⟩
  unfilled : ∀ bit : Fin 49, (∀ index, ¬ Newest 48 lowest bit index) →
    storage bit = lnDerkeyStorageInit bit

theorem stores_init : Stores crypto seed (2 ^ 48) lnDerkeyStorageInit where
  filled _ _ hnewest :=
    absurd hnewest.lt_top (Nat.not_lt_of_le hnewest.lowest_le)
  unfilled _ _ := rfl

theorem toNat_toUInt64_of_lt {index : Nat} (hlt : index < 2 ^ 48) :
    index.toUInt64.toNat = index :=
  UInt64.toNat_ofNat_of_lt (hlt.trans (by decide))

/-- The secrets of the lower slots follow from the one that is inserted. -/
theorem Stores.consistent {index : UInt64} (hstores : Stores crypto seed (index.toNat + 1) storage)
    (hlt : index.toNat < 2 ^ 48) {lower : Fin 49} (hlower : lower < whereToPutSecret index) :
    deriveSecret crypto (lnDerkeyCreateSecret crypto seed index) (whereToPutSecret index)
      (storage lower).index = (storage lower).secret := by
  have hlevel := whereToPutSecret_atLevel index
  have hbit : (whereToPutSecret index).val ≤ 48 := by omega
  have hsibling := newest_sibling hlt hlevel hbit hlower
  have hnat := toNat_toUInt64_of_lt hsibling.lt_top
  rw [hstores.filled lower _ (hnat ▸ hsibling), lnDerkeyCreateSecret_eq, lnDerkeyCreateSecret_eq,
    deriveSecret_eq_walk, hnat]
  have hpow : 2 ^ lower.val < 2 ^ (whereToPutSecret index).val :=
    Nat.pow_lt_pow_right (by omega) hlower
  have hnode : node (whereToPutSecret index) (index.toNat + 2 ^ lower.val) = index.toNat := by
    obtain ⟨rest, hrest⟩ := hlevel.1
    rw [node, hrest, Nat.mul_add_div (Nat.two_pow_pos _), Nat.div_eq_of_lt hpow, Nat.add_zero,
      Nat.mul_comm]
  rw [secretAt, secretAt, walk_node hbit seed (index.toNat + 2 ^ lower.val), hnode]

theorem Stores.insert {index : UInt64} (hstores : Stores crypto seed (index.toNat + 1) storage)
    (hlt : index.toNat < 2 ^ 48) :
    ∃ after, lnDerkeyStorageInsertSecret crypto storage (lnDerkeyCreateSecret crypto seed index)
        index = some after ∧ Stores crypto seed index.toNat after := by
  have hlevel := whereToPutSecret_atLevel index
  have hnot : ∀ bit : Fin 49, bit ≠ whereToPutSecret index → ¬ AtLevel 48 bit index.toNat :=
    fun bit hne hat => hne (Fin.ext (hat.unique hlevel (by omega) (by omega)))
  have hconsistent : ∀ lower : Fin 49, lower < whereToPutSecret index →
      deriveSecret crypto (lnDerkeyCreateSecret crypto seed index) (whereToPutSecret index)
        (storage lower).index = (storage lower).secret := fun _ => hstores.consistent hlt
  refine ⟨_, by rw [lnDerkeyStorageInsertSecret, if_pos hconsistent], ?_, ?_⟩
  · intro bit other hnewest
    by_cases hbit : bit = whereToPutSecret index
    · subst hbit
      obtain rfl := UInt64.toNat_inj.mp (hnewest.unique (newest_self hlt hlevel))
      rw [Function.update_self]
    · rw [Function.update_of_ne hbit]
      refine hstores.filled bit other { hnewest with lowest_le := ?_, newest := ?_ }
      · have hne : index.toNat ≠ other.toNat := fun heq => hnot bit hbit (heq ▸ hnewest.level)
        have hle := hnewest.lowest_le
        omega
      · exact fun smaller hle => hnewest.newest smaller (Nat.le_of_succ_le hle)
  · intro bit hnone
    by_cases hbit : bit = whereToPutSecret index
    · exact absurd (newest_self hlt hlevel) (hbit ▸ hnone index.toNat)
    · rw [Function.update_of_ne hbit]
      exact hstores.unfilled bit fun other hnewest =>
        hnone other (hnewest.of_succ (hnot bit hbit))

/-! ### Reading back -/

/-- The index that fills an empty store is that of no leaf read from it. -/
theorem Stores.filled_of_match {lowest : Nat} (hstores : Stores crypto seed lowest storage)
    {bit : Fin 49} {index : Nat} (hle : lowest ≤ index)
    (hmatch : node bit index = (storage bit).index.toNat) :
    storage bit = ⟨lnDerkeyCreateSecret crypto seed (node bit index).toUInt64,
      (node bit index).toUInt64⟩ := by
  by_cases hsome : ∃ newest, Newest 48 lowest bit newest
  · obtain ⟨newest, hnewest⟩ := hsome
    have hnat := toNat_toUInt64_of_lt hnewest.lt_top
    have hfilled := hstores.filled bit newest.toUInt64 (hnat.symm ▸ hnewest)
    rw [hfilled] at hmatch
    rw [hfilled, hmatch, hnat]
  · have hempty := hstores.unfilled bit fun newest hnewest => hsome ⟨newest, hnewest⟩
    rw [hempty] at hmatch
    have hplace : node bit index = 0x123456789abc := hmatch
    exfalso
    have hdvd : 2 ^ bit.val ∣ 0x123456789abc := hplace ▸ ⟨_, Nat.mul_comm _ _⟩
    have hbit : bit.val ≤ 2 := by
      by_contra hhigh
      have height : 2 ^ 3 ∣ 0x123456789abc := (Nat.pow_dvd_pow 2 (by omega)).trans hdvd
      exact absurd height (by decide)
    have hpow : 2 ^ bit.val ≤ 2 ^ 2 := Nat.pow_le_pow_right (by omega) hbit
    have hrest := lt_node_add bit index
    -- the first index of the slot's level is above all that match the placeholder
    obtain ⟨newest, hnewest⟩ := @exists_newest _ lowest _ _ (by omega)
      (Nat.sub_lt (Nat.two_pow_pos 48) (Nat.two_pow_pos bit.val)) (atLevel_first (by omega))
    exact hsome ⟨newest, hnewest⟩

theorem Stores.get {lowest : Nat} (hstores : Stores crypto seed lowest storage) {index : UInt64}
    (hle : lowest ≤ index.toNat) (hlt : index.toNat < 2 ^ 48) :
    lnDerkeyStorageGetSecret crypto storage index =
      some (lnDerkeyCreateSecret crypto seed index) := by
  obtain ⟨height, hheight, hnewest⟩ := exists_newest_node hle hlt
  have hnat := toNat_toUInt64_of_lt hnewest.lt_top
  have hslot := hstores.filled ⟨height, by omega⟩ _ (hnat.symm ▸ hnewest)
  obtain ⟨bit, hbit⟩ : ∃ bit, (List.finRange 49).reverse.find? (fun bit : Fin 49 =>
      index.toNat / 2 ^ bit.val * 2 ^ bit.val == (storage bit).index.toNat) = some bit := by
    refine Option.isSome_iff_exists.mp (List.find?_isSome.mpr
      ⟨⟨height, by omega⟩, List.mem_reverse.mpr (List.mem_finRange _), ?_⟩)
    rw [hslot, beq_iff_eq]
    exact hnat.symm
  have hmatch : node bit index.toNat = (storage bit).index.toNat := by
    have hfound := List.find?_some hbit
    rwa [beq_iff_eq] at hfound
  have hfilled := hstores.filled_of_match hle hmatch
  have hnode := toNat_toUInt64_of_lt ((node_le bit index.toNat).trans_lt hlt)
  rw [lnDerkeyStorageGetSecret, hbit, Option.map_some, hfilled]
  by_cases hself : index = (node bit index.toNat).toUInt64
  · rw [if_pos hself, ← hself]
  · have hsub : (index - (node bit index.toNat).toUInt64).toNat =
        index.toNat - node bit index.toNat := by
      rw [UInt64.toNat_sub_of_le, hnode]
      rw [UInt64.le_iff_toNat_le, hnode]
      exact node_le _ _
    rw [if_neg hself, lnDerkeyCreateSecret_eq, lnDerkeyCreateSecret_eq, deriveSecret_eq_walk, hsub,
      walk_sub_node, hnode, secretAt, secretAt, ← walk_node (by omega)]

/-! ### All insertions -/

theorem toNat_secretIndex {count : Nat} (hcount : count < 2 ^ 48) :
    (lnSecindexInit - count.toUInt64).toNat + 1 = 2 ^ 48 - count := by
  have hnat : count.toUInt64.toNat = count := toNat_toUInt64_of_lt hcount
  have hinit : lnSecindexInit.toNat = 281474976710655 := rfl
  rw [UInt64.toNat_sub_of_le, hinit, hnat]
  · omega
  · rw [UInt64.le_iff_toNat_le, hinit, hnat]
    omega

theorem insertSecrets_append (first second : List UInt64) :
    insertSecrets crypto seed storage (first ++ second) =
      (insertSecrets crypto seed storage first).bind fun storage =>
        insertSecrets crypto seed storage second :=
  List.foldlM_append ..

theorem insertSecrets_stores (count : Nat) (hcount : count ≤ 2 ^ 48) :
    ∃ storage, insertSecrets crypto seed lnDerkeyStorageInit
        ((List.range count).map fun commitNum => lnSecindexInit - commitNum.toUInt64) =
          some storage ∧
      Stores crypto seed (2 ^ 48 - count) storage := by
  induction count with
  | zero =>
      rw [Nat.sub_zero]
      exact ⟨_, rfl, stores_init⟩
  | succ count ih =>
      obtain ⟨storage, hinserted, hstores⟩ := ih (Nat.le_of_succ_le hcount)
      have hindex := toNat_secretIndex hcount
      have hbefore : 2 ^ 48 - (count + 1) = (lnSecindexInit - count.toUInt64).toNat := by
        rw [← Nat.sub_sub, ← hindex, Nat.add_sub_cancel]
      rw [← hindex] at hstores
      obtain ⟨after, hinsert, hafter⟩ := hstores.insert (by omega)
      refine ⟨after, ?_, ?_⟩
      · rw [List.range_succ, List.map_append, insertSecrets_append, hinserted, Option.bind_some,
          List.map_singleton, insertSecrets, List.foldlM_cons, hinsert]
        rfl
      · rw [hbefore]
        exact hafter

/-- Whatever SHA256 is: the secrets of all indices from `lnSecindexInit` down to any
lowest one can be inserted, and then each of them is read back. -/
theorem storage_keeps_all_secrets (crypto : Crypto) (seed : Bytes) (lowest : UInt64)
    (hlowest : lowest ≤ lnSecindexInit) :
    ∃ storage,
      insertSecrets crypto seed lnDerkeyStorageInit (secretIndices lowest) = some storage ∧
        ∀ index, lowest ≤ index → index ≤ lnSecindexInit →
          lnDerkeyStorageGetSecret crypto storage index =
            some (lnDerkeyCreateSecret crypto seed index) := by
  have hinit : lnSecindexInit.toNat = 281474976710655 := rfl
  rw [UInt64.le_iff_toNat_le] at hlowest
  obtain ⟨storage, hinserted, hstores⟩ := @insertSecrets_stores crypto seed
    (lnSecindexInit.toNat + 1 - lowest.toNat) (by omega)
  refine ⟨storage, hinserted, fun index hle hlt => ?_⟩
  rw [UInt64.le_iff_toNat_le] at hle hlt
  exact hstores.get (by omega) (by omega)

theorem storage_keeps_all_secrets_four :
    (lnSecindexInit - 3) ≤ lnSecindexInit ∧ ∃ storage,
      insertSecrets .symbolic [1, 2, 3] lnDerkeyStorageInit (secretIndices (lnSecindexInit - 3)) =
          some storage ∧
        ∀ index, lnSecindexInit - 3 ≤ index → index ≤ lnSecindexInit →
          lnDerkeyStorageGetSecret .symbolic storage index =
            some (lnDerkeyCreateSecret .symbolic [1, 2, 3] index) :=
  ⟨by decide, storage_keeps_all_secrets .symbolic [1, 2, 3] (lnSecindexInit - 3) (by decide)⟩

end Ptarmigan
