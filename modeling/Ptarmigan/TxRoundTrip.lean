/-
What `btc_tx_create` writes has the length that it allocates, and is read back as the transaction
by `btc_tx_read`, exactly when the transaction is serialisable.
-/
import Ptarmigan.TxSpelt

namespace Ptarmigan

namespace TxSerial

open WireReader

/-- Counts and lengths that a varint of at most two bytes can hold, and ids of 32 bytes. -/
structure Sized (tx : BtcTx) : Prop where
  vinCount : tx.vin.length < 65536
  voutCount : tx.vout.length < 65536
  txid : ∀ vin ∈ tx.vin, vin.txid.length = 32
  vinScript : ∀ vin ∈ tx.vin, vin.script.length < 65536
  voutScript : ∀ vout ∈ tx.vout, vout.script.length < 65536
  witnessCount : ∀ vin ∈ tx.vin, vin.witness.length < 65536
  items : ∀ vin ∈ tx.vin, ∀ item ∈ vin.witness, item.length < 65536

theorem one_le_getVarintLen (len : Nat) : 1 ≤ getVarintLen len := by
  rw [getVarintLen]
  split <;> omega

@[simp] theorem length_setVarintLen (len : Nat) :
    (setVarintLen len).length = getVarintLen len := by
  by_cases hshort : len < 0xfd
  · simp [setVarintLen, getVarintLen, hshort]
  · simp [setVarintLen, getVarintLen, hshort]

theorem length_vinBytes {vin : BtcVin} (htxid : vin.txid.length = 32) :
    (vinBytes vin).length = vinLen false vin := by
  simp only [vinBytes, vinLen, witnessLen, List.length_append, length_setLe32,
    length_setVarintLen, htxid, Bool.false_and, Bool.false_eq_true, if_false]
  omega

theorem length_voutBytes (vout : BtcVout) : (voutBytes vout).length = voutLen vout := by
  simp only [voutBytes, voutLen, List.length_append, length_setLe64, length_setVarintLen]
  omega

/-! ### The sizes of the writer -/

/-- A byte string with its length as the writer puts it. -/
def spell (body : Bytes) : Spelt :=
  ⟨setVarintLen body.length, body⟩

def spellVin (vin : BtcVin) : SpeltVin where
  txid := vin.txid
  index := vin.index
  script := spell vin.script
  sequence := vin.sequence
  witnessCount := setVarintLen vin.witness.length
  witness := vin.witness.map spell

def spellVout (vout : BtcVout) : SpeltVout :=
  ⟨vout.value, spell vout.script⟩

def spellTx (tx : BtcTx) : SpeltTx where
  version := tx.version
  segwit := isSegwit true tx
  vinCount := setVarintLen tx.vin.length
  vin := tx.vin.map spellVin
  voutCount := setVarintLen tx.vout.length
  vout := tx.vout.map spellVout
  locktime := tx.locktime

theorem spellVin_witnessBytes (vin : BtcVin) : (spellVin vin).witnessBytes = witnessBytes vin := by
  rw [SpeltVin.witnessBytes, witnessBytes, spellVin, List.flatMap_map]
  rfl

theorem spellTx_bytes (tx : BtcTx) : (spellTx tx).bytes = txBytes true tx := by
  have hwitness : (tx.vin.map spellVin).flatMap SpeltVin.witnessBytes =
      tx.vin.flatMap witnessBytes := by
    rw [List.flatMap_map]
    exact congrArg tx.vin.flatMap (funext spellVin_witnessBytes)
  rw [SpeltTx.bytes, SpeltTx.tailBytes, txBytes]
  simp only [spellTx, hwitness, List.flatMap_map]
  rfl

theorem spellTx_tx (tx : BtcTx) : (spellTx tx).tx = tx := by
  have hvin : SpeltVin.vin ∘ spellVin = id := by
    funext vin
    have hwitness : Spelt.body ∘ spell = id := rfl
    simp only [Function.comp_apply, SpeltVin.vin, spellVin, List.map_map, hwitness, List.map_id]
    rfl
  have hvout : SpeltVout.vout ∘ spellVout = id := rfl
  simp only [SpeltTx.tx, spellTx, List.map_map, hvin, hvout, List.map_id]

theorem setVarintLen_ne_mark {len : Nat} (hpos : len ≠ 0) : setVarintLen len ≠ [0x00] := by
  by_cases hshort : len < 0xfd
  · intro hmark
    have hbyte : len.toUInt8.toNat = len := Nat.mod_eq_of_lt (by omega)
    rw [setVarintLen, if_pos hshort, List.cons.injEq] at hmark
    rw [hmark.1] at hbyte
    exact hpos hbyte.symm
  · rw [setVarintLen, if_neg hshort]
    simp

theorem spellTx_good {tx : BtcTx} (hsized : Sized tx) (hvin : tx.vin ≠ []) :
    (spellTx tx).Good := by
  constructor
  · simpa [spellTx] using spells_setVarintLen hsized.vinCount
  · simpa [spellTx] using spells_setVarintLen hsized.voutCount
  · intro _
    exact setVarintLen_ne_mark (mt List.length_eq_zero_iff.mp hvin)
  · simpa [spellTx, spellVin] using hsized.txid
  · simp only [spellTx, List.forall_mem_map]
    exact fun vin hmem => spells_setVarintLen (hsized.vinScript vin hmem)
  · simp only [spellTx, List.forall_mem_map]
    exact fun vout hmem => spells_setVarintLen (hsized.voutScript vout hmem)
  · intro hsegwit
    simp only [spellTx, List.forall_mem_map, spellVin, List.map_eq_nil_iff]
    simpa [spellTx, isSegwit] using hsegwit
  · intro _
    simp only [spellTx, List.forall_mem_map, spellVin, List.length_map]
    exact fun vin hmem => spells_setVarintLen (hsized.witnessCount vin hmem)
  · intro _
    simp only [spellTx, List.forall_mem_map, spellVin]
    exact fun vin hmem item hitem => spells_setVarintLen (hsized.items vin hmem item hitem)

/-- The turns that a transaction takes. -/
def BtcTx.turns (tx : BtcTx) : Nat :=
  ((2 + if isSegwit true tx then tx.vin.length else 0) + tx.vout.length + 1) + tx.vin.length + 1

/-! ### Round trips -/

/-- Where the first input and the first output begin. -/
def BtcTx.vinStart (tx : BtcTx) : Nat :=
  4 + (if isSegwit true tx then 2 else 0) + getVarintLen tx.vin.length

def BtcTx.voutStart (tx : BtcTx) : Nat :=
  tx.vinStart + (tx.vin.map (vinLen false)).sum + getVarintLen tx.vout.length

/-- What a witness takes in the bytes. -/
def witnessSize (vin : BtcVin) : Nat :=
  getVarintLen vin.witness.length +
    (vin.witness.map fun item => item.length + getVarintLen item.length).sum

def BtcTx.size (tx : BtcTx) : Nat :=
  tx.voutStart + (tx.vout.map voutLen).sum +
    (if isSegwit true tx then (tx.vin.map witnessSize).sum else 0) + 4

/-- No input has a witness, or all have one of fewer than 253 items; the size is a `uint32_t`, and
the length of every script stands where an `int` can point. -/
structure Serialisable (tx : BtcTx) : Prop where
  witnesses : (∀ vin ∈ tx.vin, vin.witness = []) ∨
    ∀ vin ∈ tx.vin, vin.witness ≠ [] ∧ vin.witness.length < 0xfd
  size : tx.size < 2 ^ 32
  vinScripts : ∀ start ∈ Layout.starts tx.vinStart (tx.vin.map (vinLen false)),
    start + 36 < 2 ^ 31
  voutScripts : ∀ start ∈ Layout.starts tx.voutStart (tx.vout.map voutLen), start + 8 < 2 ^ 31

/-- What is written has the length that was allocated, and is read as the transaction again,
whatever stood in the memory before. -/
def RoundTrips (tx : BtcTx) : Prop :=
  (btcTxCreate tx).ret = true ∧ (btcTxCreate tx).written.length = (btcTxCreate tx).allocated ∧
    ∀ heap before, ∃ enough, ∀ turns, enough ≤ turns →
      (btcTxRead heap turns before).run (btcTxCreate tx).written =
        .done (some tx) (btcTxCreate tx).written.length

theorem length_vins {vins : List BtcVin} (htxid : ∀ vin ∈ vins, vin.txid.length = 32) :
    (vins.map fun vin => (vinBytes vin).length) = vins.map (vinLen false) :=
  List.map_congr_left fun vin hmem => length_vinBytes (htxid vin hmem)

theorem length_vouts (vouts : List BtcVout) :
    (vouts.map fun vout => (voutBytes vout).length) = vouts.map voutLen :=
  List.map_congr_left fun vout _ => length_voutBytes vout

theorem length_witnessBytes (vin : BtcVin) : (witnessBytes vin).length = witnessSize vin := by
  have hitems : (vin.witness.map fun item => (itemBytes item).length) =
      vin.witness.map fun item => item.length + getVarintLen item.length := by
    apply List.map_congr_left
    intro item _
    rw [itemBytes, List.length_append, length_setVarintLen, Nat.add_comm]
  rw [witnessBytes, List.length_append, length_setVarintLen, List.length_flatMap, hitems,
    witnessSize]

theorem length_txBytes {tx : BtcTx} (hsized : Sized tx) : (txBytes true tx).length = tx.size := by
  have hwitness : (if isSegwit true tx then tx.vin.flatMap witnessBytes else []).length =
      if isSegwit true tx then (tx.vin.map witnessSize).sum else 0 := by
    split
    · rw [List.length_flatMap, List.map_congr_left fun vin _ => length_witnessBytes vin]
    · rfl
  have hmarks : (if isSegwit true tx then [(0x00 : UInt8), 0x01] else []).length =
      if isSegwit true tx then 2 else 0 := by
    split <;> rfl
  simp only [txBytes, List.length_append, length_setLe32, length_setVarintLen, hwitness, hmarks,
    List.length_flatMap, length_vins hsized.txid, length_vouts, BtcTx.size, BtcTx.voutStart,
    BtcTx.vinStart]
  omega

/-! The first pass -/

theorem witnessLen_le (vin : BtcVin) : witnessLen true vin ≤ witnessSize vin := by
  have hmin := one_le_getVarintLen vin.witness.length
  rw [witnessLen, witnessSize]
  split <;> omega

theorem witnessLen_eq_iff (vin : BtcVin) :
    witnessLen true vin = witnessSize vin ↔ vin.witness ≠ [] ∧ vin.witness.length < 0xfd := by
  cases hwitness : vin.witness with
  | nil => simp [witnessLen, witnessSize, hwitness, getVarintLen]
  | cons item items =>
      rw [witnessLen, witnessSize, hwitness]
      simp only [Bool.true_and, List.isEmpty_cons, Bool.not_false, if_true,
        Nat.add_right_cancel_iff,
        getVarintLen, ne_eq, List.cons_ne_nil, not_false_eq_true, true_and]
      split <;> omega

/-- Sums of terms that are not greater are equal when all terms are. -/
theorem sum_map_eq_iff {α : Type} {items : List α} {small big : α → Nat}
    (hle : ∀ item, small item ≤ big item) :
    (items.map small).sum = (items.map big).sum ↔ ∀ item ∈ items, small item = big item := by
  induction items with
  | nil => simp
  | cons item items ih =>
      have hhead := hle item
      have htail : (items.map small).sum ≤ (items.map big).sum :=
        List.sum_le_sum fun item _ => hle item
      simp only [List.map_cons, List.sum_cons, List.forall_mem_cons, ← ih]
      omega

/-- The length of the first pass is the size exactly when the witnesses are all of one kind. -/
theorem witnessLens_eq_iff (tx : BtcTx) :
    (tx.vin.map (witnessLen true)).sum =
        (if isSegwit true tx then (tx.vin.map witnessSize).sum else 0) ↔
      (∀ vin ∈ tx.vin, vin.witness = []) ∨
        ∀ vin ∈ tx.vin, vin.witness ≠ [] ∧ vin.witness.length < 0xfd := by
  cases hsegwit : isSegwit true tx with
  | false =>
      have hnone : ∀ vin ∈ tx.vin, vin.witness = [] := by
        simpa [isSegwit] using hsegwit
      have hzero : ∀ vin ∈ tx.vin, witnessLen true vin = 0 := by
        intro vin hmem
        simp [witnessLen, hnone vin hmem]
      rw [if_neg Bool.false_ne_true, List.map_congr_left hzero]
      exact iff_of_true (by simp) (.inl hnone)
  | true =>
      have hsome : ∃ vin ∈ tx.vin, vin.witness ≠ [] := by
        simpa [isSegwit] using hsegwit
      have hnot : ¬ ∀ vin ∈ tx.vin, vin.witness = [] := by
        obtain ⟨vin, hmem, hwitness⟩ := hsome
        exact fun hall => hwitness (hall vin hmem)
      rw [if_pos rfl, sum_map_eq_iff witnessLen_le, or_iff_right hnot]
      simp only [witnessLen_eq_iff]

theorem createTx_iff {tx : BtcTx} (hsized : Sized tx) :
    (btcTxCreate tx).ret = true ∧
        (btcTxCreate tx).written.length = (btcTxCreate tx).allocated ↔
      ((∀ vin ∈ tx.vin, vin.witness = []) ∨
        ∀ vin ∈ tx.vin, vin.witness ≠ [] ∧ vin.witness.length < 0xfd) ∧ tx.size < 2 ^ 32 := by
  have hvins : (tx.vin.map (vinLen true)).sum =
      (tx.vin.map (vinLen false)).sum + (tx.vin.map (witnessLen true)).sum := by
    rw [← List.sum_map_add]
    rfl
  have hle : (tx.vin.map (witnessLen true)).sum ≤
      if isSegwit true tx then (tx.vin.map witnessSize).sum else 0 := by
    cases hsegwit : isSegwit true tx with
    | false =>
        have hnone : ∀ vin ∈ tx.vin, vin.witness = [] := by
          simpa [isSegwit] using hsegwit
        have hzero := (witnessLens_eq_iff tx).mpr (.inl hnone)
        rw [hsegwit] at hzero
        exact Nat.le_of_eq hzero
    | true => exact List.sum_le_sum fun vin _ => witnessLen_le vin
  have hret : (btcTxCreate tx).ret =
      (tx.size % 2 ^ 32 == (btcTxCreate tx).allocated) := by
    rw [← length_txBytes hsized]
    rfl
  have hwritten : (btcTxCreate tx).written.length = tx.size := length_txBytes hsized
  have halloc : (btcTxCreate tx).allocated = (4 + getVarintLen tx.vin.length +
      getVarintLen tx.vout.length + (tx.vin.map (vinLen true)).sum +
      (if isSegwit true tx then 2 else 0) + (tx.vout.map voutLen).sum + 4) % 2 ^ 32 := rfl
  rw [hret, hwritten, beq_iff_eq, ← witnessLens_eq_iff, halloc, hvins]
  simp only [BtcTx.size, BtcTx.voutStart, BtcTx.vinStart] at *
  omega

theorem spellTx_turns {tx : BtcTx} (hvin : tx.vin ≠ []) : (spellTx tx).turns = tx.turns := by
  have hpos := List.length_pos_iff.mpr hvin
  have hmax : max 1 tx.vin.length = tx.vin.length := Nat.max_eq_right hpos
  simp only [SpeltTx.turns, SpeltTx.tailTurns, spellTx, List.length_map, hmax, BtcTx.turns]

theorem spellTx_near {tx : BtcTx} (hsized : Sized tx) :
    (spellTx tx).Near ↔
      (∀ start ∈ Layout.starts tx.vinStart (tx.vin.map (vinLen false)), start + 36 < 2 ^ 31) ∧
        ∀ start ∈ Layout.starts tx.voutStart (tx.vout.map voutLen), start + 8 < 2 ^ 31 := by
  have hvinStart : (spellTx tx).vinStart = tx.vinStart := by
    change 4 + (if isSegwit true tx then 2 else 0) + (setVarintLen tx.vin.length).length = _
    rw [length_setVarintLen, BtcTx.vinStart]
  have hvoutStart : (spellTx tx).voutStart = tx.voutStart := by
    rw [SpeltTx.voutStart, hvinStart, BtcTx.voutStart]
    simp only [spellTx, List.flatMap_map, List.length_flatMap, length_setVarintLen]
    rw [← length_vins hsized.txid]
    rfl
  have hvins : ((spellTx tx).vin.map fun vin => vin.bytes.length) = tx.vin.map (vinLen false) := by
    rw [← length_vins hsized.txid, spellTx, List.map_map]
    rfl
  have hvouts : ((spellTx tx).vout.map fun vout => vout.bytes.length) = tx.vout.map voutLen := by
    rw [← length_vouts, spellTx, List.map_map]
    rfl
  rw [SpeltTx.Near, hvinStart, hvoutStart, hvins, hvouts]

/-- The bytes are read back unless a script's length stands at `2^31` or behind. -/
theorem btcTxRead_eq {tx : BtcTx} (hsized : Sized tx) (hvin : tx.vin ≠ [])
    (hsize : tx.size < 2 ^ 32) (heap : Heap) (before : BtcTx) (turns : Nat) :
    (btcTxRead heap (turns + tx.turns) before).run (txBytes true tx) =
      if (∀ start ∈ Layout.starts tx.vinStart (tx.vin.map (vinLen false)), start + 36 < 2 ^ 31) ∧
          ∀ start ∈ Layout.starts tx.voutStart (tx.vout.map voutLen), start + 8 < 2 ^ 31 then
        .done (some tx) (txBytes true tx).length
      else .fault .outOfBounds := by
  have hlength : (spellTx tx).bytes.length < 2 ^ 32 := by
    rwa [spellTx_bytes, length_txBytes hsized]
  have hread := btcTxRead_spelt (spellTx_good hsized hvin) hlength heap before turns
  rw [spellTx_turns hvin, spellTx_bytes, spellTx_tx] at hread
  rw [hread]
  exact if_congr (spellTx_near hsized) rfl rfl

/-- A transaction round-trips exactly when it is serialisable. -/
theorem btcTxRoundTrips_iff {tx : BtcTx} (hsized : Sized tx) (hvin : tx.vin ≠ []) :
    RoundTrips tx ↔ Serialisable tx := by
  constructor
  · intro htrips
    obtain ⟨hret, hlength, hread⟩ := htrips
    have hcreated := (createTx_iff hsized).mp ⟨hret, hlength⟩
    obtain ⟨enough, henough⟩ := hread ⟨fun _ => ⟨[], 0, [], [], 0⟩, fun _ => ⟨0, []⟩, fun _ => []⟩
      ⟨0, [], [], 0⟩
    have hdone := henough (enough + tx.turns) (Nat.le_add_right _ _)
    have heq := btcTxRead_eq hsized hvin hcreated.2
      ⟨fun _ => ⟨[], 0, [], [], 0⟩, fun _ => ⟨0, []⟩, fun _ => []⟩ ⟨0, [], [], 0⟩ enough
    have hbelow : (∀ start ∈ Layout.starts tx.vinStart (tx.vin.map (vinLen false)),
        start + 36 < 2 ^ 31) ∧
        ∀ start ∈ Layout.starts tx.voutStart (tx.vout.map voutLen), start + 8 < 2 ^ 31 := by
      by_contra hnot
      rw [if_neg hnot] at heq
      exact absurd (heq.symm.trans hdone) (by simp)
    exact ⟨hcreated.1, hcreated.2, hbelow.1, hbelow.2⟩
  · intro hfits
    have hcreated := (createTx_iff hsized).mpr ⟨hfits.witnesses, hfits.size⟩
    refine ⟨hcreated.1, hcreated.2, fun heap before => ⟨tx.turns, fun turns henough => ?_⟩⟩
    have heq := btcTxRead_eq hsized hvin hfits.size heap before (turns - tx.turns)
    rwa [Nat.sub_add_cancel henough, if_pos ⟨hfits.vinScripts, hfits.voutScripts⟩] at heq

def signedVin (first : UInt8) (witness : List Bytes) : BtcVin :=
  ⟨List.replicate 32 first, 0, [], witness, 0xffffffff⟩

/-- Two inputs with a witness each. -/
def bothSigned : BtcTx :=
  ⟨2, [signedVin 1 [[1]], signedVin 2 [[2], []]], [⟨1, [0x51]⟩], 0⟩

theorem roundTrips_bothSigned : RoundTrips bothSigned := by
  have hsized : Sized bothSigned := by constructor <;> decide
  have hvin : bothSigned.vin ≠ [] := by decide
  have hfits : Serialisable bothSigned :=
    ⟨.inr (by decide), by decide, by decide, by decide⟩
  exact (btcTxRoundTrips_iff hsized hvin).mpr hfits

/-- Only the first input has a witness. -/
def mixed : BtcTx :=
  ⟨2, [signedVin 1 [[1]], signedVin 2 []], [⟨1, [0x51]⟩], 0⟩

theorem mixed_not_roundTrips : Sized mixed ∧ mixed.vin ≠ [] ∧ ¬ RoundTrips mixed := by
  constructor
  · constructor <;> decide
  constructor
  · decide
  · intro htrips
    have hret : (btcTxCreate mixed).ret = false := by decide
    exact Bool.false_ne_true (hret.symm.trans htrips.1)

end TxSerial

end Ptarmigan
