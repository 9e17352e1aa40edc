/-
`btc_util_sort_bip69` on a whole transaction.  The comparison of two inputs fills 16 of the 32
bytes that it compares, and the comparison of two outputs ends with the shorter script.
-/
import Mathlib.Data.List.Lex
import Mathlib.Data.List.Pairwise
import Mathlib.Data.Prod.Lex
import Ptarmigan.Library.ExchangeSort
import Ptarmigan.Tx

namespace Ptarmigan

namespace TxSort

/-- `btc_vin_t`. -/
structure BtcVin where
  txid : Vector UInt8 32
  index : UInt32
  script : Bytes
  witness : List Bytes
  sequence : UInt32
deriving DecidableEq

/-- `btc_vout_t`. -/
structure BtcVout where
  value : UInt64
  script : Bytes
  opt : UInt8
deriving DecidableEq, Repr

/-- `btc_tx_t`. -/
structure BtcTx where
  version : Int32
  vin : List BtcVin
  vout : List BtcVout
  locktime : UInt32
deriving DecidableEq

/-- What stands in the halves of `vin1` and `vin2` that no loop writes. -/
structure Stale where
  vin1 : Bytes
  vin2 : Bytes
deriving DecidableEq

/-- Each half has 16 bytes. -/
def Stale.Sized (stale : Stale) : Prop :=
  stale.vin1.length = 16 ∧ stale.vin2.length = 16

/-- The copy of a txid: half of it, from its end on. -/
def reversedHalf (txid : Vector UInt8 32) : Bytes :=
  txid.toList.reverse.take 16

/-- Whether two inputs are swapped. -/
def vinGreater (stale : Stale) (vin vin' : BtcVin) : Bool :=
  let vin1 := reversedHalf vin.txid ++ stale.vin1
  let vin2 := reversedHalf vin'.txid ++ stale.vin2
  if memcmpGt vin2 vin1 then false
  else if memcmpGt vin1 vin2 then true
  else !decide (vin.index < vin'.index)

/-- Whether two outputs are swapped: `memcmp` gets the length of the shorter script. -/
def voutGreater (vout vout' : BtcVout) : Bool :=
  if vout.value < vout'.value then false
  else if vout'.value < vout.value then true
  else
    let len := min vout.script.length vout'.script.length
    memcmpGt (vout.script.take len) (vout'.script.take len)

/-- `btc_util_sort_bip69`, over what stands in the unwritten halves at each comparison. -/
def btcUtilSortBip69 (stack : ℕ → ℕ → Stale) (tx : BtcTx) : BtcTx :=
  { tx with
    vin := ExchangeSort.sortAt (fun lp lp2 => vinGreater (stack lp lp2)) tx.vin
    vout := ExchangeSort.sortAt (fun _ _ => voutGreater) tx.vout }

/-! ### What sorting is for -/

/-- Inputs are ordered by the reversed txid, then by the index. -/
def vinKey (vin : BtcVin) : List ℕ ×ₗ ℕ :=
  toLex (vin.txid.toList.reverse.map UInt8.toNat, vin.index.toNat)

/-- Outputs are ordered by the value, then by the script. -/
def voutKey (vout : BtcVout) : ℕ ×ₗ List ℕ :=
  toLex (vout.value.toNat, vout.script.map UInt8.toNat)

structure Ordered (tx : BtcTx) : Prop where
  vin : tx.vin.Pairwise fun vin vin' => vinKey vin ≤ vinKey vin'
  vout : tx.vout.Pairwise fun vout vout' => voutKey vout ≤ voutKey vout'

/-- The same transaction with its inputs and outputs in some order. -/
structure Rearranged (tx tx' : BtcTx) : Prop where
  version : tx.version = tx'.version
  vin : tx.vin.Perm tx'.vin
  vout : tx.vout.Perm tx'.vout
  locktime : tx.locktime = tx'.locktime

/-- However its inputs and outputs stand, and whatever is in memory, the transaction is rearranged
and ordered. -/
def SortsRight (tx : BtcTx) : Prop :=
  ∀ tx', Rearranged tx' tx → ∀ stack : ℕ → ℕ → Stale, (∀ lp lp2, (stack lp lp2).Sized) →
    Rearranged (btcUtilSortBip69 stack tx') tx ∧ Ordered (btcUtilSortBip69 stack tx')

/-- Inputs that agree in the half of the txid that is compared are one outpoint, and of two outputs
of one value neither script starts with the other, unless they are equal. -/
structure Careful (tx : BtcTx) : Prop where
  vin : tx.vin.Pairwise fun vin vin' =>
    reversedHalf vin.txid = reversedHalf vin'.txid → vinKey vin = vinKey vin'
  vout : tx.vout.Pairwise fun vout vout' => vout.value = vout'.value →
    (vout.script <+: vout'.script ∨ vout'.script <+: vout.script) → vout.script = vout'.script

theorem rearranged_sort (stack : ℕ → ℕ → Stale) (tx : BtcTx) :
    Rearranged (btcUtilSortBip69 stack tx) tx :=
  ⟨rfl, ExchangeSort.sortAt_perm _ _, ExchangeSort.sortAt_perm _ _, rfl⟩

/-! ### Byte strings -/

theorem toNat_map_inj {xs ys : Bytes} :
    xs.map UInt8.toNat = ys.map UInt8.toNat ↔ xs = ys :=
  List.map_inj_right fun _ _ => UInt8.toNat_inj.mp

theorem memcmpGt_append {xs ys : Bytes} (hlength : xs.length = ys.length) (xs' ys' : Bytes) :
    memcmpGt (xs ++ xs') (ys ++ ys') = if xs = ys then memcmpGt xs' ys' else memcmpGt xs ys := by
  induction xs generalizing ys with
  | nil =>
      obtain rfl := List.length_eq_zero_iff.mp hlength.symm
      rfl
  | cons x xs ih =>
      cases ys with
      | nil => exact absurd hlength (by simp)
      | cons y ys =>
          have hrest : xs.length = ys.length := by simpa using hlength
          by_cases hhead : x = y
          · subst hhead
            simp [memcmpGt, ih hrest]
          · simp [memcmpGt, hhead]

/-- Two byte strings of one length are equal or one is greater. -/
theorem memcmpGt_total (xs ys : Bytes) :
    xs = ys ∨ (memcmpGt xs ys = true ∧ memcmpGt ys xs = false) ∨
      (memcmpGt xs ys = false ∧ memcmpGt ys xs = true) := by
  have hgreater := memcmpGt_iff xs ys
  have hless := memcmpGt_iff ys xs
  rcases lt_trichotomy (xs.map UInt8.toNat) (ys.map UInt8.toNat) with hlt | heq | hlt
  · exact .inr (.inr ⟨Bool.eq_false_iff.mpr fun h => (hgreater.mp h).asymm hlt, hless.mpr hlt⟩)
  · exact .inl (toNat_map_inj.mp heq)
  · exact .inr (.inl ⟨hgreater.mpr hlt, Bool.eq_false_iff.mpr fun h => (hless.mp h).asymm hlt⟩)

/-! ### Inputs -/

theorem length_reversedHalf (txid : Vector UInt8 32) : (reversedHalf txid).length = 16 := by
  simp [reversedHalf]

theorem reversedHalf_append (txid : Vector UInt8 32) :
    reversedHalf txid ++ txid.toList.reverse.drop 16 = txid.toList.reverse :=
  List.take_append_drop 16 _

/-- What differs in the copied half is compared there. -/
theorem vinGreater_of_ne (stale : Stale) {vin vin' : BtcVin}
    (hne : reversedHalf vin.txid ≠ reversedHalf vin'.txid) :
    vinGreater stale vin vin' =
      memcmpGt (reversedHalf vin.txid) (reversedHalf vin'.txid) := by
  have hlength : (reversedHalf vin.txid).length = (reversedHalf vin'.txid).length := by
    rw [length_reversedHalf, length_reversedHalf]
  rw [vinGreater, memcmpGt_append hlength, memcmpGt_append hlength.symm, if_neg hne,
    if_neg (Ne.symm hne)]
  rcases memcmpGt_total (reversedHalf vin.txid) (reversedHalf vin'.txid) with
    heq | ⟨hgreater, hless⟩ | ⟨hgreater, hless⟩
  · exact absurd heq hne
  · simp [hgreater, hless]
  · simp [hgreater, hless]

theorem vinKey_lt_of_ne {vin vin' : BtcVin}
    (hne : reversedHalf vin.txid ≠ reversedHalf vin'.txid) :
    vinKey vin' < vinKey vin ↔
      memcmpGt (reversedHalf vin.txid) (reversedHalf vin'.txid) = true := by
  have hlength : (reversedHalf vin.txid).length = (reversedHalf vin'.txid).length := by
    rw [length_reversedHalf, length_reversedHalf]
  have hfull : memcmpGt vin.txid.toList.reverse vin'.txid.toList.reverse =
      memcmpGt (reversedHalf vin.txid) (reversedHalf vin'.txid) := by
    rw [← reversedHalf_append vin.txid, ← reversedHalf_append vin'.txid,
      memcmpGt_append hlength, if_neg hne]
  rw [← hfull, memcmpGt_iff, vinKey, vinKey, Prod.Lex.toLex_lt_toLex]
  constructor
  · rintro (hlt | ⟨heq, -⟩)
    · exact hlt
    · have hsame := toNat_map_inj.mp heq
      rw [reversedHalf, reversedHalf, hsame] at hne
      exact absurd rfl hne
  · exact .inl

/-- What agrees there is compared as the memory has it. -/
theorem vinGreater_of_eq (stale : Stale) {vin vin' : BtcVin}
    (heq : reversedHalf vin.txid = reversedHalf vin'.txid) :
    vinGreater stale vin vin' = if memcmpGt stale.vin2 stale.vin1 then false
      else if memcmpGt stale.vin1 stale.vin2 then true else !decide (vin.index < vin'.index) := by
  rw [vinGreater, heq, memcmpGt_append rfl, memcmpGt_append rfl, if_pos rfl, if_pos rfl]

theorem decides_vin (stack : ℕ → ℕ → Stale) {vin vin' : BtcVin}
    (hcareful : reversedHalf vin.txid = reversedHalf vin'.txid → vinKey vin = vinKey vin') :
    ExchangeSort.Decides vinKey (fun lp lp2 => vinGreater (stack lp lp2)) vin vin' := by
  intro lp lp2
  by_cases hhalf : reversedHalf vin.txid = reversedHalf vin'.txid
  · exact ⟨fun _ => (hcareful hhalf).ge, fun _ => (hcareful hhalf).le⟩
  · have hgreater : vinGreater (stack lp lp2) vin vin' = true ↔ vinKey vin' < vinKey vin := by
      rw [vinGreater_of_ne _ hhalf, vinKey_lt_of_ne hhalf]
    constructor
    · exact fun h => (hgreater.mp h).le
    · intro h
      exact not_lt.mp fun hlt => Bool.eq_false_iff.mp h (hgreater.mpr hlt)

/-- Memory that makes two inputs of one half go either way. -/
def staleFor (swap : Bool) : Stale :=
  if swap then ⟨List.replicate 16 1, List.replicate 16 0⟩
  else ⟨List.replicate 16 0, List.replicate 16 1⟩

theorem staleFor_sized (swap : Bool) : (staleFor swap).Sized := by
  cases swap <;> exact ⟨rfl, rfl⟩

/-- The order in which inputs of one half come the wrong way round. -/
def misleadingKey (vin : BtcVin) : List ℕ ×ₗ (List ℕ ×ₗ ℕ)ᵒᵈ :=
  toLex ((reversedHalf vin.txid).map UInt8.toNat, OrderDual.toDual (vinKey vin))

/-- Some memory makes the comparison misleading. -/
theorem exists_misleading (vin vin' : BtcVin) :
    ∃ stale : Stale, stale.Sized ∧
      vinGreater stale vin vin' = decide (misleadingKey vin' < misleadingKey vin) := by
  by_cases hhalf : reversedHalf vin.txid = reversedHalf vin'.txid
  · refine ⟨staleFor (decide (misleadingKey vin' < misleadingKey vin)), staleFor_sized _, ?_⟩
    rw [vinGreater_of_eq _ hhalf]
    cases decide (misleadingKey vin' < misleadingKey vin) <;> rfl
  · refine ⟨staleFor true, staleFor_sized true, ?_⟩
    rw [vinGreater_of_ne _ hhalf, Bool.eq_iff_iff, decide_eq_true_iff, memcmpGt_iff,
      misleadingKey, misleadingKey, Prod.Lex.toLex_lt_toLex]
    constructor
    · exact .inl
    · rintro (hlt | ⟨heq, -⟩)
      · exact hlt
      · exact absurd (toNat_map_inj.mp heq).symm hhalf

/-- In an order of the keys no element stands behind one of a greater key. -/
theorem le_of_pairwise {α β : Type} [LinearOrder β] {key : α → β} {items : List α}
    (hsorted : items.Pairwise fun x y => key x ≤ key y) {γ : Type} [LinearOrder γ] {key' : α → γ}
    (hsorted' : items.Pairwise fun x y => key' x ≤ key' y) {x y : α} (hx : x ∈ items)
    (hy : y ∈ items) (hlt : key x < key y) : key' x ≤ key' y := by
  have hboth : ∀ x ∈ items, ∀ y ∈ items,
      (key x ≤ key y ∧ key' x ≤ key' y) ∨ (key y ≤ key x ∧ key' y ≤ key' x) := by
    have hpairwise := hsorted.and hsorted'
    intro x hx y hy
    exact List.Pairwise.forall_of_forall_of_flip (fun x _ => .inl ⟨le_rfl, le_rfl⟩)
      (hpairwise.imp Or.inl) (hpairwise.imp Or.inr) hx hy
  rcases hboth x hx y hy with ⟨-, hle⟩ | ⟨hback, -⟩
  · exact hle
  · exact absurd hlt (not_lt.mpr hback)

/-! ### Outputs -/

/-- The order in which a script stands behind those that start with it. -/
def longerFirstKey (vout : BtcVout) : ℕ ×ₗ List ℕ :=
  toLex (vout.value.toNat, vout.script.map UInt8.toNat ++ [256])

theorem memcmpGt_take (xs ys : Bytes) :
    memcmpGt (xs.take (min xs.length ys.length)) (ys.take (min xs.length ys.length)) = true ↔
      ys.map UInt8.toNat < xs.map UInt8.toNat ∧ ¬ ys <+: xs := by
  induction xs generalizing ys with
  | nil => simp [memcmpGt]
  | cons x xs ih =>
      cases ys with
      | nil => simp [memcmpGt]
      | cons y ys =>
          by_cases hhead : x = y
          · subst hhead
            simp [memcmpGt, ih, Nat.succ_min_succ]
          · have hne : y.toNat ≠ x.toNat := fun h => hhead (UInt8.toNat_inj.mp h).symm
            simp [memcmpGt, hhead, hne, List.cons_lt_cons_iff, UInt8.lt_iff_toNat_lt,
              List.cons_prefix_cons, Ne.symm hhead]

theorem sentinel_lt {xs ys : Bytes} (hlt : ys.map UInt8.toNat < xs.map UInt8.toNat) :
    (¬ ys <+: xs → ys.map UInt8.toNat ++ [256] < xs.map UInt8.toNat ++ [256]) ∧
      (ys <+: xs → xs.map UInt8.toNat ++ [256] < ys.map UInt8.toNat ++ [256]) := by
  induction xs generalizing ys with
  | nil => exact absurd hlt (by simp)
  | cons x xs ih =>
      cases ys with
      | nil =>
          have hbyte : x.toNat < 256 := x.toNat_lt
          simp [List.cons_lt_cons_iff, hbyte]
      | cons y ys =>
          rw [List.map_cons, List.map_cons, List.cons_lt_cons_iff] at hlt
          rcases hlt with hlt | ⟨heq, hlt⟩
          · have hne : y ≠ x := fun h => absurd hlt (by rw [h]; exact lt_irrefl _)
            simp [List.cons_lt_cons_iff, hlt, List.cons_prefix_cons, hne]
          · obtain rfl := UInt8.toNat_inj.mp heq
            simpa [List.cons_lt_cons_iff, List.cons_prefix_cons] using ih hlt

theorem voutGreater_iff (vout vout' : BtcVout) :
    voutGreater vout vout' = true ↔ voutKey vout' < voutKey vout ∧
      ¬ (vout.value = vout'.value ∧ vout'.script <+: vout.script) := by
  rw [voutKey, voutKey, Prod.Lex.toLex_lt_toLex, voutGreater]
  simp only [UInt64.lt_iff_toNat_lt, ← UInt64.toNat_inj]
  rcases lt_trichotomy vout.value.toNat vout'.value.toNat with hlt | heq | hlt
  · simp [hlt, hlt.asymm, hlt.ne']
  · simp [heq, memcmpGt_take]
  · simp [hlt, hlt.asymm, hlt.ne']

theorem decides_vout {vout vout' : BtcVout}
    (hcareful : vout.value = vout'.value →
      (vout.script <+: vout'.script ∨ vout'.script <+: vout.script) →
        vout.script = vout'.script) :
    ExchangeSort.Decides voutKey (fun _ _ => voutGreater) vout vout' := by
  intro lp lp2
  constructor
  · exact fun h => ((voutGreater_iff vout vout').mp h).1.le
  · intro hnot
    apply not_lt.mp
    intro hlt
    have hinitial : ¬ (vout.value = vout'.value ∧ vout'.script <+: vout.script) := by
      rintro ⟨hvalue, hinitial⟩
      have hscript := hcareful hvalue (.inr hinitial)
      rw [voutKey, voutKey, hvalue, hscript] at hlt
      exact hlt.false
    exact Bool.eq_false_iff.mp hnot ((voutGreater_iff vout vout').mpr ⟨hlt, hinitial⟩)

/-- Outputs in the order of the longer scripts first are not swapped. -/
theorem not_greater_of_longerFirst {vout vout' : BtcVout}
    (hle : longerFirstKey vout ≤ longerFirstKey vout') : voutGreater vout vout' = false := by
  apply Bool.eq_false_iff.mpr
  intro hgreater
  obtain ⟨hlt, hinitial⟩ := (voutGreater_iff vout vout').mp hgreater
  apply not_lt.mpr hle
  rw [voutKey, voutKey, Prod.Lex.toLex_lt_toLex] at hlt
  rw [longerFirstKey, longerFirstKey, Prod.Lex.toLex_lt_toLex]
  rcases hlt with hlt | ⟨heq, hlt⟩
  · exact .inl hlt
  · refine .inr ⟨heq, (sentinel_lt hlt).1 fun h => hinitial ⟨(UInt64.toNat_inj.mp heq).symm, h⟩⟩

/-! ### When sorting is right -/

theorem rearranged_careful {tx tx' : BtcTx} (hsame : Rearranged tx' tx) (hcareful : Careful tx) :
    Careful tx' where
  vin := by
    refine (hsame.vin.pairwise_iff ?_).mpr hcareful.vin
    exact fun himp heq => (himp heq.symm).symm
  vout := by
    refine (hsame.vout.pairwise_iff ?_).mpr hcareful.vout
    exact fun himp hvalue hinitial => (himp hvalue.symm hinitial.symm).symm

theorem ordered_of_careful {tx : BtcTx} (hcareful : Careful tx) (stack : ℕ → ℕ → Stale) :
    Ordered (btcUtilSortBip69 stack tx) where
  vin := by
    refine ExchangeSort.sortAt_pairwise (hcareful.vin.imp fun himp => ?_)
    exact ⟨decides_vin stack himp, decides_vin stack fun heq => (himp heq.symm).symm⟩
  vout := by
    refine ExchangeSort.sortAt_pairwise (hcareful.vout.imp fun himp => ?_)
    exact ⟨decides_vout himp,
      decides_vout fun hvalue hinitial => (himp hvalue.symm hinitial.symm).symm⟩

/-- Two inputs of one half but of different outpoints come out in the wrong order for some
memory. -/
theorem vin_careful_of_sortsRight {tx : BtcTx} (hright : SortsRight tx) {vin vin' : BtcVin}
    (hmem : vin ∈ tx.vin) (hmem' : vin' ∈ tx.vin)
    (hhalf : reversedHalf vin.txid = reversedHalf vin'.txid) : vinKey vin = vinKey vin' := by
  obtain ⟨stack, hsized, hsort⟩ := ExchangeSort.exists_sortAt (staleFor_sized true)
    exists_misleading tx.vin
  have hordered := (hright tx ⟨rfl, .refl _, .refl _, rfl⟩ stack hsized).2.vin
  have hperm := (rearranged_sort stack tx).vin
  have hmisled : (btcUtilSortBip69 stack tx).vin.Pairwise fun vin vin' =>
      misleadingKey vin ≤ misleadingKey vin' := by
    rw [btcUtilSortBip69, hsort]
    exact ExchangeSort.sort_pairwise (fun vin vin' => decide_eq_true_iff) tx.vin
  have hnot : ∀ vin ∈ tx.vin, ∀ vin' ∈ tx.vin, reversedHalf vin.txid = reversedHalf vin'.txid →
      ¬ vinKey vin < vinKey vin' := by
    intro vin hmem vin' hmem' hhalf hlt
    have hle := le_of_pairwise hordered hmisled (hperm.mem_iff.mpr hmem) (hperm.mem_iff.mpr hmem')
      hlt
    rw [misleadingKey, misleadingKey, hhalf, Prod.Lex.toLex_le_toLex] at hle
    rcases hle with hlt' | ⟨-, hle⟩
    · exact hlt'.false
    · exact absurd hlt (not_lt.mpr hle)
  exact le_antisymm (not_lt.mp (hnot vin' hmem' vin hmem hhalf.symm))
    (not_lt.mp (hnot vin hmem vin' hmem' hhalf))

/-- An output whose script starts with that of another stays in front of it, once it stands
there. -/
theorem vout_careful_of_sortsRight {tx : BtcTx} (hright : SortsRight tx) {vout vout' : BtcVout}
    (hmem : vout ∈ tx.vout) (hmem' : vout' ∈ tx.vout) (hvalue : vout.value = vout'.value)
    (hinitial : vout.script <+: vout'.script) : vout.script = vout'.script := by
  let greater (x y : BtcVout) : Bool := decide (longerFirstKey y < longerFirstKey x)
  have hperm := ExchangeSort.sort_perm greater tx.vout
  have hlonger := ExchangeSort.sort_pairwise
    (fun x y => (decide_eq_true_iff : greater x y = true ↔ _)) tx.vout
  obtain ⟨_, hordered⟩ := hright { tx with vout := ExchangeSort.sort greater tx.vout }
    ⟨rfl, .refl _, hperm, rfl⟩ (fun _ _ => staleFor true) fun _ _ => staleFor_sized true
  have hstays : (btcUtilSortBip69 (fun _ _ => staleFor true)
      { tx with vout := ExchangeSort.sort greater tx.vout }).vout =
        ExchangeSort.sort greater tx.vout :=
    ExchangeSort.sortAt_of_not_greater
      (hlonger.imp fun hle _ _ => not_greater_of_longerFirst hle)
  have hsorted := hordered.vout
  rw [hstays] at hsorted
  by_contra hne
  have hless : vout.script.map UInt8.toNat < vout'.script.map UInt8.toNat := by
    obtain ⟨behind, happend⟩ := hinitial
    cases behind with
    | nil => exact absurd (by rw [← happend, List.append_nil]) hne
    | cons byte behind =>
        have hnil : ([] : List ℕ) < (byte :: behind).map UInt8.toNat := by simp
        have hlonger : vout.script.map UInt8.toNat ++ [] <
            vout.script.map UInt8.toNat ++ (byte :: behind).map UInt8.toNat :=
          List.append_left_lt hnil
        rwa [List.append_nil, ← List.map_append, happend] at hlonger
  have hkey : voutKey vout < voutKey vout' := by
    rw [voutKey, voutKey, Prod.Lex.toLex_lt_toLex, hvalue]
    exact .inr ⟨rfl, hless⟩
  have hle := le_of_pairwise hsorted hlonger (hperm.mem_iff.mpr hmem) (hperm.mem_iff.mpr hmem') hkey
  rw [longerFirstKey, longerFirstKey, hvalue, Prod.Lex.toLex_le_toLex] at hle
  rcases hle with hlt | ⟨-, hle⟩
  · exact hlt.false
  · exact absurd ((sentinel_lt hless).2 hinitial) (not_lt.mpr hle)

/-- A transaction is sorted right, however its inputs and outputs stand and whatever is in memory,
if and only if inputs that agree in half of the txid are one outpoint, and of two outputs of one
value neither script starts with a different one. -/
theorem sortsRight_iff (tx : BtcTx) : SortsRight tx ↔ Careful tx := by
  constructor
  · intro hright
    constructor
    · apply List.pairwise_of_forall_mem_list
      exact fun vin hmem vin' hmem' hhalf => vin_careful_of_sortsRight hright hmem hmem' hhalf
    · apply List.pairwise_of_forall_mem_list
      intro vout hmem vout' hmem' hvalue hinitial
      rcases hinitial with hinitial | hinitial
      · exact vout_careful_of_sortsRight hright hmem hmem' hvalue hinitial
      · exact (vout_careful_of_sortsRight hright hmem' hmem hvalue.symm hinitial).symm
  · intro hcareful tx' hsame stack _
    have hsort := rearranged_sort stack tx'
    exact ⟨⟨hsort.version.trans hsame.version, hsort.vin.trans hsame.vin,
      hsort.vout.trans hsame.vout, hsort.locktime.trans hsame.locktime⟩,
      ordered_of_careful (rearranged_careful hsame hcareful) stack⟩

/-- A transaction that spends the two outputs of another. -/
def sameTxid : BtcTx where
  version := 2
  vin := [⟨Vector.replicate 32 7, 0, [], [], 0xffffffff⟩,
    ⟨Vector.replicate 32 7, 1, [], [], 0xffffffff⟩]
  vout := [⟨1000, [0x51], 0⟩]
  locktime := 0

/-- Memory swaps its inputs. -/
theorem sameTxid_not_ordered : ∃ stack : ℕ → ℕ → Stale,
    (∀ lp lp2, (stack lp lp2).Sized) ∧ ¬ Ordered (btcUtilSortBip69 stack sameTxid) := by
  refine ⟨fun _ _ => staleFor true, fun _ _ => staleFor_sized true, ?_⟩
  intro hordered
  have hvin : (btcUtilSortBip69 (fun _ _ => staleFor true) sameTxid).vin =
      sameTxid.vin.reverse := by decide
  have hkeys := hordered.vin
  rw [hvin] at hkeys
  simp [sameTxid, vinKey, Prod.Lex.toLex_le_toLex] at hkeys

end TxSort

end Ptarmigan
