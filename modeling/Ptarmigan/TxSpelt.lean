/-
Transactions with their sizes spelt out, in one byte or in three, and what `btc_tx_read` makes
of the bytes of one, state by state.
-/
import Ptarmigan.TxSerial

namespace Ptarmigan

namespace TxSerial

open WireReader

/-- A count or a length as `get_varint` reads it: below `0xfd` in one byte, below 65536 in three,
also where one would do. -/
def Spells (size : Bytes) (len : Nat) : Prop :=
  (len < 0xfd ∧ size = [len.toUInt8]) ∨
    (len < 65536 ∧ size = [0xfd, len.toUInt8, (len / 256).toUInt8])

instance (size : Bytes) (len : Nat) : Decidable (Spells size len) :=
  inferInstanceAs (Decidable (_ ∨ _))

theorem Spells.length_pos {size : Bytes} {len : Nat} (hspells : Spells size len) :
    1 ≤ size.length := by
  rcases hspells with ⟨-, rfl⟩ | ⟨-, rfl⟩
  · exact Nat.le_refl 1
  · exact Nat.succ_le_succ (Nat.zero_le 2)

theorem spells_setVarintLen {len : Nat} (hlen : len < 65536) : Spells (setVarintLen len) len := by
  by_cases hshort : len < 0xfd
  · exact .inl ⟨hshort, by rw [setVarintLen, if_pos hshort]⟩
  · exact .inr ⟨hlen, by rw [setVarintLen, if_neg hshort]⟩

/-- A byte string with its length in front of it. -/
structure Spelt where
  size : Bytes
  body : Bytes
deriving DecidableEq

def Spelt.bytes (spelt : Spelt) : Bytes :=
  spelt.size ++ spelt.body

def Spelt.Good (spelt : Spelt) : Prop :=
  Spells spelt.size spelt.body.length

instance (spelt : Spelt) : Decidable spelt.Good :=
  inferInstanceAs (Decidable (Spells _ _))

/-- An input, and its witness with the number of the items. -/
structure SpeltVin where
  txid : Bytes
  index : UInt32
  script : Spelt
  sequence : UInt32
  witnessCount : Bytes
  witness : List Spelt
deriving DecidableEq

structure SpeltVout where
  value : UInt64
  script : Spelt
deriving DecidableEq

/-- A transaction; `segwit` tells whether it is one with witnesses. -/
structure SpeltTx where
  version : Int32
  segwit : Bool
  vinCount : Bytes
  vin : List SpeltVin
  voutCount : Bytes
  vout : List SpeltVout
  locktime : UInt32

def SpeltVin.vin (spelt : SpeltVin) : BtcVin :=
  ⟨spelt.txid, spelt.index, spelt.script.body, spelt.witness.map Spelt.body, spelt.sequence⟩

def SpeltVout.vout (spelt : SpeltVout) : BtcVout :=
  ⟨spelt.value, spelt.script.body⟩

def SpeltTx.tx (spelt : SpeltTx) : BtcTx :=
  ⟨spelt.version, spelt.vin.map SpeltVin.vin, spelt.vout.map SpeltVout.vout, spelt.locktime⟩

def SpeltVin.bytes (spelt : SpeltVin) : Bytes :=
  spelt.txid ++ (setLe32 spelt.index ++ (spelt.script.size ++ (spelt.script.body ++
    setLe32 spelt.sequence)))

def SpeltVin.witnessBytes (spelt : SpeltVin) : Bytes :=
  spelt.witnessCount ++ spelt.witness.flatMap Spelt.bytes

def SpeltVout.bytes (spelt : SpeltVout) : Bytes :=
  setLe64 spelt.value ++ (spelt.script.size ++ spelt.script.body)

/-- What stands behind the outputs. -/
def SpeltTx.tailBytes (spelt : SpeltTx) : Bytes :=
  (if spelt.segwit then spelt.vin.flatMap SpeltVin.witnessBytes else []) ++
    setLe32 spelt.locktime

def SpeltTx.bytes (spelt : SpeltTx) : Bytes :=
  setLe32 spelt.version.toUInt32 ++ ((if spelt.segwit then [0x00, 0x01] else []) ++
    (spelt.vinCount ++ (spelt.vin.flatMap SpeltVin.bytes ++
      (spelt.voutCount ++ (spelt.vout.flatMap SpeltVout.bytes ++ spelt.tailBytes)))))

/-- All sizes are those of what follows.  Without witnesses the number of inputs does not begin
with the mark of a transaction that has them. -/
structure SpeltTx.Good (spelt : SpeltTx) : Prop where
  vinCount : Spells spelt.vinCount spelt.vin.length
  voutCount : Spells spelt.voutCount spelt.vout.length
  unmarked : spelt.segwit = false → spelt.vinCount ≠ [0x00]
  txid : ∀ vin ∈ spelt.vin, vin.txid.length = 32
  vinScript : ∀ vin ∈ spelt.vin, vin.script.Good
  voutScript : ∀ vout ∈ spelt.vout, vout.script.Good
  bare : spelt.segwit = false → ∀ vin ∈ spelt.vin, vin.witness = []
  witnessCount : spelt.segwit = true → ∀ vin ∈ spelt.vin, Spells vin.witnessCount vin.witness.length
  items : spelt.segwit = true → ∀ vin ∈ spelt.vin, ∀ item ∈ vin.witness, item.Good

/-! ### Field by field -/

@[simp] theorem length_setLe32 (value : UInt32) : (setLe32 value).length = 4 :=
  LittleEndian.length_encode 4 value.toNat

@[simp] theorem length_setLe64 (value : UInt64) : (setLe64 value).length = 8 :=
  LittleEndian.length_encode 8 value.toNat

variable {pos : Nat} {rest : List UInt8}

theorem reads_getVarint {size : Bytes} {len : Nat} (hspells : Spells size len) :
    Reads pos rest getVarint size len := by
  rcases hspells with ⟨hshort, rfl⟩ | ⟨hlen, rfl⟩
  · have hbyte : len.toUInt8.toNat = len := Nat.mod_eq_of_lt (by omega)
    have hfirst : LittleEndian.decode [len.toUInt8] = len := by
      simp [LittleEndian.decode, hbyte]
    change Reads pos rest getVarint ([len.toUInt8] ++ []) len
    apply Reads.bind (Reads.bytes rfl)
    rw [hfirst, if_pos hshort]
    exact Reads.pure len
  · have hfirst : ¬ LittleEndian.decode [(0xfd : UInt8)] < 0xfd := by decide
    have hlow : len.toUInt8.toNat = len % 256 := rfl
    have hhigh : (len / 256).toUInt8.toNat = len / 256 % 256 := rfl
    have hsecond : LittleEndian.decode [len.toUInt8, (len / 256).toUInt8] = len := by
      simp only [LittleEndian.decode, hlow, hhigh]
      omega
    change Reads pos rest getVarint ([0xfd] ++ [len.toUInt8, (len / 256).toUInt8]) len
    apply Reads.bind (Reads.bytes rfl)
    have htwo : Reads (pos + 1) rest (LittleEndian.decode <$> (bytes 2 : WireReader Unit _))
        [len.toUInt8, (len / 256).toUInt8]
        (LittleEndian.decode [len.toUInt8, (len / 256).toUInt8]) :=
      Reads.map _ (Reads.bytes rfl)
    rw [if_neg hfirst]
    rwa [hsecond] at htwo

theorem reads_getLe32 (value : UInt32) : Reads pos rest getLe32 (setLe32 value) value := by
  have hvalue : UInt32.ofNat (LittleEndian.decode (setLe32 value)) = value := by
    rw [setLe32, LittleEndian.decode_encode value.toNat_lt, UInt32.ofNat_toNat]
  have hreads : Reads pos rest getLe32 (setLe32 value)
      (UInt32.ofNat (LittleEndian.decode (setLe32 value))) :=
    Reads.map _ (Reads.bytes (length_setLe32 value))
  rwa [hvalue] at hreads

theorem reads_getLe64 (value : UInt64) : Reads pos rest getLe64 (setLe64 value) value := by
  have hvalue : UInt64.ofNat (LittleEndian.decode (setLe64 value)) = value := by
    rw [setLe64, LittleEndian.decode_encode value.toNat_lt, UInt64.ofNat_toNat]
  have hreads : Reads pos rest getLe64 (setLe64 value)
      (UInt64.ofNat (LittleEndian.decode (setLe64 value))) :=
    Reads.map _ (Reads.bytes (length_setLe64 value))
  rwa [hvalue] at hreads

theorem reads_readScript (script : Bytes) :
    Reads pos rest (readScript script.length) script script := by
  by_cases hempty : script = []
  · subst hempty
    exact Reads.readIf_not rfl
  · apply Reads.readIf
    · simpa using hempty
    · exact Reads.bytes rfl

/-- The input without its witness, as it is read at first. -/
def BtcVin.bare (vin : BtcVin) : BtcVin :=
  { vin with witness := [] }

theorem reads_readVin {vin : SpeltVin} (htxid : vin.txid.length = 32) :
    Reads pos rest (readVin vin.script.size.length vin.script.body.length) vin.bytes
      vin.vin.bare := by
  apply Reads.bind (Reads.bytes htxid)
  apply Reads.bind (reads_getLe32 vin.index)
  apply Reads.bind (Reads.skip rfl)
  apply Reads.bind (reads_readScript vin.script.body)
  exact Reads.map _ (reads_getLe32 vin.sequence)

theorem reads_readVout (vout : SpeltVout) :
    Reads pos rest (readVout vout.script.size.length vout.script.body.length) vout.bytes
      vout.vout := by
  apply Reads.bind (reads_getLe64 vout.value)
  apply Reads.bind (Reads.skip rfl)
  exact Reads.map _ (reads_readScript vout.script.body)

theorem SpeltVin.length_bytes {vin : SpeltVin} (htxid : vin.txid.length = 32) :
    vin.bytes.length = 40 + vin.script.size.length + vin.script.body.length := by
  simp only [SpeltVin.bytes, List.length_append, length_setLe32, htxid]
  omega

theorem SpeltVout.length_bytes (vout : SpeltVout) :
    vout.bytes.length = 8 + vout.script.size.length + vout.script.body.length := by
  simp only [SpeltVout.bytes, List.length_append, length_setLe64]
  omega

theorem fits_of_le {need len : Nat} (hlen : len < 2 ^ 32) (hneed : need ≤ len) :
    fits need len = true := by
  have hmod : need % 2 ^ 32 = need := Nat.mod_eq_of_lt (by omega)
  rw [fits, hmod]
  exact decide_eq_true hneed

/-! ### The inputs and the outputs -/

section Steps

variable {data : List UInt8} {heap : Heap} {st : Reading}

theorem peekVarint_eq {tmp len : Nat} {size : Bytes} (hspells : Spells size len)
    (hstands : Stands data tmp (size ++ rest)) :
    peekVarint tmp data pos =
      if tmp < 2 ^ 31 then .done (size.length, len) pos else .fault .outOfBounds := by
  have hread := (reads_getVarint hspells).done hstands
  have hwidth : tmp + size.length - tmp = size.length := Nat.add_sub_cancel_left _ _
  by_cases hbelow : tmp < 2 ^ 31
  · rw [peekVarint, if_neg (Nat.not_le.mpr hbelow), if_pos hbelow, hread]
    simp only [hwidth]
  · rw [peekVarint, if_pos (Nat.not_lt.mp hbelow), if_neg hbelow]

/-- An input is read unless its script's length stands at `2^31` or behind. -/
theorem stepVin_eq {vin : SpeltVin} (hdata : data.length < 2 ^ 32)
    (hstands : Stands data pos (vin.bytes ++ rest)) (htxid : vin.txid.length = 32)
    (hscript : vin.script.Good) (hrest : 5 ≤ rest.length) :
    stepVin st data pos =
      if pos + 36 < 2 ^ 31 then
        .done (st.setVin vin.vin.bare).afterVin (pos + vin.bytes.length)
      else .fault .outOfBounds := by
  have hlength : data.length = pos + (vin.bytes.length + rest.length) := by
    rw [hstands.length, List.length_append]
  have hwidth := vin.length_bytes htxid
  have hmin := hscript.length_pos
  have hfirst : fits (pos + 41 + 1 + 4) data.length = true := fits_of_le hdata (by omega)
  have hsecond : fits (pos + 40 + vin.script.size.length + vin.script.body.length + 1 + 4)
      data.length = true := fits_of_le hdata (by omega)
  have hmod : (pos + 32 + 4) % 2 ^ 32 = pos + 36 := Nat.mod_eq_of_lt (by omega)
  have hscriptAt : Stands data (pos + 36) (vin.script.size ++ (vin.script.body ++
      setLe32 vin.sequence ++ rest)) := by
    have hindex := hstands
    simp only [SpeltVin.bytes, List.append_assoc] at hindex
    have hafter := hindex.behind.behind
    rw [htxid, length_setLe32] at hafter
    simpa only [List.append_assoc] using hafter
  have hpeek := @peekVarint_eq pos _ data (pos + 36) _ _ hscript hscriptAt
  have hread : readIf true (st.setVin <$> readVin _ _) st data pos =
      .done (st.setVin vin.vin.bare) (pos + vin.bytes.length) :=
    (Reads.readIf rfl (Reads.map st.setVin (reads_readVin htxid))).done hstands
  rw [stepVin]
  change (if fits (pos + 41 + 1 + 4) data.length = true then _ else _ : WireReader Unit Reading)
    data pos = _
  rw [if_pos hfirst, hmod]
  by_cases hbelow : pos + 36 < 2 ^ 31
  · rw [if_pos hbelow] at hpeek
    rw [if_pos hbelow, bind_done hpeek]
    change (readIf _ _ st >>= _) data pos = _
    rw [hsecond]
    exact bind_done hread
  · rw [if_neg hbelow] at hpeek
    rw [if_neg hbelow, bind_fault hpeek]

/-- An output likewise. -/
theorem stepVout_eq {vout : SpeltVout} (hdata : data.length < 2 ^ 32)
    (hstands : Stands data pos (vout.bytes ++ rest)) (hscript : vout.script.Good)
    (hrest : 4 ≤ rest.length) :
    stepVout st data pos =
      if pos + 8 < 2 ^ 31 then
        .done (st.setVout vout.vout).afterVout (pos + vout.bytes.length)
      else .fault .outOfBounds := by
  have hlength : data.length = pos + (vout.bytes.length + rest.length) := by
    rw [hstands.length, List.length_append]
  have hwidth := vout.length_bytes
  have hmin := hscript.length_pos
  have hfirst : fits (pos + 9 + 4) data.length = true := fits_of_le hdata (by omega)
  have hsecond : fits (pos + 8 + vout.script.size.length + vout.script.body.length + 4)
      data.length = true := fits_of_le hdata (by omega)
  have hmod : (pos + 8) % 2 ^ 32 = pos + 8 := Nat.mod_eq_of_lt (by omega)
  have hscriptAt : Stands data (pos + 8) (vout.script.size ++ (vout.script.body ++ rest)) := by
    have hvalue := hstands
    simp only [SpeltVout.bytes, List.append_assoc] at hvalue
    have hafter := hvalue.behind
    rwa [length_setLe64] at hafter
  have hpeek := @peekVarint_eq pos _ data (pos + 8) _ _ hscript hscriptAt
  have hread : readIf true (st.setVout <$> readVout _ _) st data pos =
      .done (st.setVout vout.vout) (pos + vout.bytes.length) :=
    (Reads.readIf rfl (Reads.map st.setVout (reads_readVout vout))).done hstands
  rw [stepVout]
  change (if fits (pos + 9 + 4) data.length = true then _ else _ : WireReader Unit Reading)
    data pos = _
  rw [if_pos hfirst, hmod]
  by_cases hbelow : pos + 8 < 2 ^ 31
  · rw [if_pos hbelow] at hpeek
    rw [if_pos hbelow, bind_done hpeek]
    change (readIf _ _ st >>= _) data pos = _
    rw [hsecond]
    exact bind_done hread
  · rw [if_neg hbelow] at hpeek
    rw [if_neg hbelow, bind_fault hpeek]

/-- The items of a witness are read when at least a locktime follows them. -/
theorem readItems_eq {items : List Spelt} {slots : List Bytes} (hdata : data.length < 2 ^ 32)
    (hslots : slots.length = items.length) (hitems : ∀ item ∈ items, item.Good)
    (hstands : Stands data pos (items.flatMap Spelt.bytes ++ rest)) (hrest : 4 ≤ rest.length) :
    readItems slots data pos =
      .done (items.map Spelt.body) (pos + (items.flatMap Spelt.bytes).length) := by
  induction items generalizing slots pos with
  | nil =>
      have hnil : slots = [] := List.length_eq_zero_iff.mp hslots
      subst hnil
      rfl
  | cons item items ih =>
      obtain ⟨slot, slots, rfl⟩ := List.exists_cons_of_length_eq_add_one hslots
      have hhead := hitems item (List.mem_cons_self ..)
      have hcut : Stands data pos (item.size ++
          (item.body ++ (items.flatMap Spelt.bytes ++ rest))) := by
        simpa only [List.flatMap_cons, Spelt.bytes, List.append_assoc] using hstands
      have hvarint := (reads_getVarint hhead).done hcut
      have hitem := hcut.behind
      have hlength := hitem.length
      simp only [List.length_append] at hlength
      have hfits : fits (pos + item.size.length + item.body.length + 4) data.length = true :=
        fits_of_le hdata (by omega)
      have hbytes : (readIf true (bytes item.body.length) slot : WireReader Unit _) data _ =
          .done item.body _ :=
        (Reads.readIf rfl (Reads.bytes rfl)).done hitem
      have htail := ih (Nat.succ_injective hslots)
        (fun item hmem => hitems item (List.mem_cons_of_mem _ hmem)) hitem.behind
      rw [readItems, bind_done hvarint]
      change (readIf (fits _ _) _ slot >>= _) data _ = _
      rw [hfits, bind_done hbytes, bind_done htail]
      simp only [List.flatMap_cons, Spelt.bytes, List.length_append, Nat.add_assoc]
      rfl

theorem stepWitness_eq {vin : SpeltVin} (hdata : data.length < 2 ^ 32)
    (hstands : Stands data pos (vin.witnessBytes ++ rest))
    (hcount : Spells vin.witnessCount vin.witness.length) (hitems : ∀ item ∈ vin.witness, item.Good)
    (hcnt : st.txCnt < st.tx.vin.length) (hrest : 4 ≤ rest.length) :
    stepWitness heap st data pos =
      .done (st.setWitness vin.vin.witness).afterWitness (pos + vin.witnessBytes.length) := by
  have hcut : Stands data pos (vin.witnessCount ++
      (vin.witness.flatMap Spelt.bytes ++ rest)) := by
    simpa only [SpeltVin.witnessBytes, List.append_assoc] using hstands
  have hlength := hstands.length
  simp only [List.length_append] at hlength
  have hfits : fits (pos + 4) data.length = true := fits_of_le hdata (by omega)
  have hcond : (fits (pos + 4) data.length && decide (st.txCnt < st.tx.vin.length)) = true := by
    rw [hfits, Bool.true_and]
    exact decide_eq_true hcnt
  have hvarint := (reads_getVarint hcount).done hcut
  have hslots : ((List.range vin.witness.length).map heap.item).length = vin.witness.length := by
    rw [List.length_map, List.length_range]
  have hread := readItems_eq hdata hslots hitems hcut.behind hrest
  rw [stepWitness]
  change (if (fits (pos + 4) data.length && _) = true then _ else _ : WireReader Unit Reading)
    data pos = _
  rw [if_pos hcond, bind_done hvarint, bind_done hread, SpeltVin.witnessBytes, List.length_append,
    Nat.add_assoc]
  rfl

/-! ### The loop -/

theorem loop_succ {turns : Nat} (hinside : pos < data.length) :
    loop heap (turns + 1) st data pos = (step heap st >>= loop heap turns) data pos := by
  rw [loop]
  change (if pos < data.length then _ else _ : WireReader Unit (Option BtcTx)) data pos = _
  rw [if_pos hinside]

/-- Turns that read one item each: `stages` is the state after the items that are read, and an
item is read where its position is good. -/
theorem loop_items {ι : Type} {items : List ι} {field : ι → Bytes} (good : Nat → Prop)
    [DecidablePred good] (stages : List ι → Reading)
    (hfield : ∀ item ∈ items, field item ≠ [])
    (hstep : ∀ done item left, items = done ++ item :: left → ∀ pos,
      Stands data pos (field item ++ (left.flatMap field ++ rest)) →
      step heap (stages done) data pos =
        if good pos then .done (stages (done ++ [item])) (pos + (field item).length)
        else .fault .outOfBounds)
    {done left : List ι} (hitems : items = done ++ left)
    (hstands : Stands data pos (left.flatMap field ++ rest)) (turns : Nat) :
    loop heap (turns + left.length) (stages done) data pos =
      if ∀ start ∈ Layout.starts pos (left.map fun item => (field item).length), good start then
        loop heap turns (stages items) data (pos + (left.flatMap field).length)
      else .fault .outOfBounds := by
  induction left generalizing done pos with
  | nil =>
      rw [List.append_nil] at hitems
      subst hitems
      have hall : ∀ start ∈ Layout.starts pos (([] : List ι).map fun item => (field item).length),
          good start := by
        simp [Layout.starts]
      rw [if_pos hall]
      rfl
  | cons item left ih =>
      have hmem : item ∈ items := by
        rw [hitems]
        exact List.mem_append_right done (List.mem_cons_self ..)
      have hcut : Stands data pos (field item ++ (left.flatMap field ++ rest)) := by
        rwa [List.flatMap_cons, List.append_assoc] at hstands
      have hinside : pos < data.length := by
        have hlength := hcut.length
        have hpos := List.length_pos_iff.mpr (hfield item hmem)
        rw [List.length_append] at hlength
        omega
      have hnext : items = (done ++ [item]) ++ left := by
        rw [hitems, List.append_assoc, List.singleton_append]
      have hturn := hstep done item left hitems pos hcut
      rw [List.length_cons, ← Nat.add_assoc, loop_succ hinside]
      by_cases hgood : good pos
      · rw [if_pos hgood] at hturn
        rw [bind_done hturn, ih hnext hcut.behind]
        simp only [List.map_cons, Layout.starts, List.forall_mem_cons, hgood, true_and,
          List.flatMap_cons, List.length_append, Nat.add_assoc]
      · rw [if_neg hgood] at hturn
        rw [bind_fault hturn, if_neg]
        intro hall
        exact hgood (hall pos (List.mem_cons_self ..))

theorem drop_set {α : Type} {front slots : List α} (item : α)
    (hslot : front.length < slots.length) :
    (front ++ slots.drop front.length).set front.length item =
      front ++ [item] ++ slots.drop (front.length + 1) := by
  rw [List.drop_eq_getElem_cons hslot, List.set_append_right _ _ (Nat.le_refl _), Nat.sub_self,
    List.set_cons_zero, List.append_assoc, List.singleton_append]

theorem append_modify {α : Type} (front behind : List α) (item : α) (change : α → α) :
    (front ++ item :: behind).modify front.length change = front ++ change item :: behind := by
  induction front with
  | nil => rfl
  | cons head front ih =>
      rw [List.cons_append, List.length_cons, List.modify_succ_cons, ih, List.cons_append]

/-- After `done` of the inputs, the others stand in `slots` as they were allocated. -/
def vinStage (st : Reading) (slots vins done : List BtcVin) : Reading :=
  { st with
    state := if done.length < vins.length then .vin else .voutCount
    txCnt := done.length
    tx := { st.tx with vin := done.map BtcVin.bare ++ slots.drop done.length } }

def voutStage (st : Reading) (slots vouts done : List BtcVout) : Reading :=
  { st with
    state := if done.length < vouts.length then .vout else st.endVout.state
    txCnt := if done.length < vouts.length then done.length else 0
    tx := { st.tx with vout := done ++ slots.drop done.length } }

def witnessStage (st : Reading) (vins done : List BtcVin) : Reading :=
  { st with
    state := if done.length < vins.length then .witness else .locktime
    txCnt := done.length
    tx := { st.tx with vin := done ++ (vins.map BtcVin.bare).drop done.length } }

theorem afterVin_vinStage {slots vins done : List BtcVin} (vin : BtcVin)
    (hslots : slots.length = vins.length) (hlt : done.length < vins.length) :
    ((vinStage st slots vins done).setVin vin.bare).afterVin =
      vinStage st slots vins (done ++ [vin]) := by
  have hset : (done.map BtcVin.bare ++ slots.drop done.length).set done.length vin.bare =
      (done ++ [vin]).map BtcVin.bare ++ slots.drop (done.length + 1) := by
    have hslot : (done.map BtcVin.bare).length < slots.length := by
      rwa [List.length_map, hslots]
    have hdrop := drop_set vin.bare hslot
    rwa [List.length_map, ← List.map_singleton, ← List.map_append] at hdrop
  have hlength : ((done ++ [vin]).map BtcVin.bare ++ slots.drop (done.length + 1)).length =
      vins.length := by
    simp only [List.length_append, List.length_map, List.length_singleton, List.length_drop]
    omega
  by_cases hlast : done.length + 1 < vins.length
  · simp only [Reading.afterVin, Reading.setVin, vinStage, hset, hlength,
      if_neg (Nat.not_le.mpr hlast), List.length_append, List.length_singleton, if_pos hlast,
      if_pos hlt]
  · simp only [Reading.afterVin, Reading.setVin, vinStage, hset, hlength,
      if_pos (Nat.not_lt.mp hlast), List.length_append, List.length_singleton, if_neg hlast]

theorem afterVout_voutStage {slots vouts done : List BtcVout} (vout : BtcVout)
    (hslots : slots.length = vouts.length) (hlt : done.length < vouts.length) :
    ((voutStage st slots vouts done).setVout vout).afterVout =
      voutStage st slots vouts (done ++ [vout]) := by
  have hset := drop_set vout (hslots ▸ hlt)
  have hlength : (done ++ [vout] ++ slots.drop (done.length + 1)).length = vouts.length := by
    simp only [List.length_append, List.length_singleton, List.length_drop]
    omega
  by_cases hlast : done.length + 1 < vouts.length
  · simp only [Reading.afterVout, Reading.setVout, voutStage, if_pos hlt, hset, hlength,
      if_neg (Nat.not_le.mpr hlast), List.length_append, List.length_singleton, if_pos hlast]
  · simp only [Reading.afterVout, Reading.setVout, Reading.endVout, voutStage, if_pos hlt, hset,
      hlength, if_pos (Nat.not_lt.mp hlast), List.length_append, List.length_singleton,
      if_neg hlast]

theorem afterWitness_witnessStage {vins done left : List BtcVin} {vin : BtcVin}
    (hvins : vins = done ++ vin :: left) :
    ((witnessStage st vins done).setWitness vin.witness).afterWitness =
      witnessStage st vins (done ++ [vin]) := by
  have hdrop : (vins.map BtcVin.bare).drop done.length = vin.bare :: left.map BtcVin.bare := by
    rw [hvins, List.map_append, List.map_cons, ← List.length_map (f := BtcVin.bare), List.drop_left]
  have hdrop' : (vins.map BtcVin.bare).drop (done.length + 1) = left.map BtcVin.bare := by
    rw [← List.drop_drop, hdrop, List.drop_one, List.tail_cons]
  have hset : (done ++ (vins.map BtcVin.bare).drop done.length).modify done.length
      (fun slot => { slot with witness := vin.witness }) =
      done ++ [vin] ++ (vins.map BtcVin.bare).drop (done.length + 1) := by
    rw [hdrop, append_modify, hdrop', List.append_assoc, List.singleton_append]
    rfl
  have hlength : (done ++ [vin] ++ (vins.map BtcVin.bare).drop (done.length + 1)).length =
      vins.length := by
    rw [hdrop', hvins]
    simp only [List.length_append, List.length_map, List.length_cons, List.length_nil]
    omega
  have hlt : done.length < vins.length := by simp [hvins]
  by_cases hlast : done.length + 1 < vins.length
  · simp only [Reading.afterWitness, Reading.setWitness, witnessStage, hset, hlength,
      if_neg (Nat.not_le.mpr hlast), List.length_append, List.length_singleton, if_pos hlast,
      if_pos hlt]
  · simp only [Reading.afterWitness, Reading.setWitness, witnessStage, hset, hlength,
      if_pos (Nat.not_lt.mp hlast), List.length_append, List.length_singleton, if_neg hlast]

theorem loop_vins {vins : List SpeltVin} {slots : List BtcVin} (hdata : data.length < 2 ^ 32)
    (hslots : slots.length = vins.length) (htxid : ∀ vin ∈ vins, vin.txid.length = 32)
    (hscript : ∀ vin ∈ vins, vin.script.Good)
    (hstands : Stands data pos (vins.flatMap SpeltVin.bytes ++ rest)) (hrest : 5 ≤ rest.length)
    (turns : Nat) :
    loop heap (turns + vins.length) (vinStage st slots (vins.map SpeltVin.vin) []) data pos =
      if ∀ start ∈ Layout.starts pos (vins.map fun vin => vin.bytes.length),
          start + 36 < 2 ^ 31 then
        loop heap turns
          (vinStage st slots (vins.map SpeltVin.vin) (vins.map SpeltVin.vin)) data
          (pos + (vins.flatMap SpeltVin.bytes).length)
      else .fault .outOfBounds := by
  apply loop_items (fun start => start + 36 < 2 ^ 31)
    (fun done => vinStage st slots (vins.map SpeltVin.vin) (done.map SpeltVin.vin)) _ _
    (List.nil_append vins).symm hstands
  · intro vin hmem hnil
    have hlength := vin.length_bytes (htxid vin hmem)
    rw [hnil, List.length_nil] at hlength
    omega
  · intro done vin left hitems pos hstands
    have hmem : vin ∈ vins := by simp [hitems]
    have hlt : (done.map SpeltVin.vin).length < (vins.map SpeltVin.vin).length := by
      simp [hitems]
    have hstep : step heap (vinStage st slots (vins.map SpeltVin.vin) (done.map SpeltVin.vin)) =
        stepVin (vinStage st slots (vins.map SpeltVin.vin) (done.map SpeltVin.vin)) := by
      simp only [step, vinStage, if_pos hlt]
    have hslots' : slots.length = (vins.map SpeltVin.vin).length := by
      rw [hslots, List.length_map]
    rw [hstep, stepVin_eq hdata hstands (htxid vin hmem) (hscript vin hmem)
      (Nat.le_trans hrest (by simp)), afterVin_vinStage vin.vin hslots' hlt, List.map_append,
      List.map_singleton]

theorem loop_vouts {vouts : List SpeltVout} {slots : List BtcVout} (hdata : data.length < 2 ^ 32)
    (hslots : slots.length = vouts.length) (hscript : ∀ vout ∈ vouts, vout.script.Good)
    (hstands : Stands data pos (vouts.flatMap SpeltVout.bytes ++ rest)) (hrest : 4 ≤ rest.length)
    (turns : Nat) :
    loop heap (turns + vouts.length) (voutStage st slots (vouts.map SpeltVout.vout) []) data pos =
      if ∀ start ∈ Layout.starts pos (vouts.map fun vout => vout.bytes.length),
          start + 8 < 2 ^ 31 then
        loop heap turns
          (voutStage st slots (vouts.map SpeltVout.vout) (vouts.map SpeltVout.vout)) data
          (pos + (vouts.flatMap SpeltVout.bytes).length)
      else .fault .outOfBounds := by
  apply loop_items (fun start => start + 8 < 2 ^ 31)
    (fun done => voutStage st slots (vouts.map SpeltVout.vout) (done.map SpeltVout.vout)) _ _
    (List.nil_append vouts).symm hstands
  · intro vout hmem hnil
    have hlength := vout.length_bytes
    rw [hnil, List.length_nil] at hlength
    omega
  · intro done vout left hitems pos hstands
    have hmem : vout ∈ vouts := by simp [hitems]
    have hlt : (done.map SpeltVout.vout).length < (vouts.map SpeltVout.vout).length := by
      simp [hitems]
    have hstep :
        step heap (voutStage st slots (vouts.map SpeltVout.vout) (done.map SpeltVout.vout)) =
          stepVout (voutStage st slots (vouts.map SpeltVout.vout) (done.map SpeltVout.vout)) := by
      simp only [step, voutStage, if_pos hlt]
    have hslots' : slots.length = (vouts.map SpeltVout.vout).length := by
      rw [hslots, List.length_map]
    rw [hstep, stepVout_eq hdata hstands (hscript vout hmem) (Nat.le_trans hrest (by simp)),
      afterVout_voutStage vout.vout hslots' hlt, List.map_append, List.map_singleton]

theorem loop_witnesses {vins : List SpeltVin} (hdata : data.length < 2 ^ 32)
    (hcount : ∀ vin ∈ vins, Spells vin.witnessCount vin.witness.length)
    (hwitness : ∀ vin ∈ vins, ∀ item ∈ vin.witness, item.Good)
    (hstands : Stands data pos (vins.flatMap SpeltVin.witnessBytes ++ rest))
    (hrest : 4 ≤ rest.length) (turns : Nat) :
    loop heap (turns + vins.length) (witnessStage st (vins.map SpeltVin.vin) []) data pos =
      loop heap turns (witnessStage st (vins.map SpeltVin.vin) (vins.map SpeltVin.vin)) data
        (pos + (vins.flatMap SpeltVin.witnessBytes).length) := by
  have hloop : loop heap (turns + vins.length) (witnessStage st (vins.map SpeltVin.vin) [])
    data pos =
      if ∀ start ∈ Layout.starts pos (vins.map fun vin => vin.witnessBytes.length), True then
        loop heap turns (witnessStage st (vins.map SpeltVin.vin) (vins.map SpeltVin.vin)) data
          (pos + (vins.flatMap SpeltVin.witnessBytes).length)
      else .fault .outOfBounds := by
    apply loop_items (fun _ => True)
      (fun done => witnessStage st (vins.map SpeltVin.vin) (done.map SpeltVin.vin)) _ _
      (List.nil_append vins).symm hstands
    · intro vin hmem hnil
      have hlength := congrArg List.length hnil
      have hmin := (hcount vin hmem).length_pos
      rw [SpeltVin.witnessBytes, List.length_append, List.length_nil] at hlength
      omega
    · intro done vin left hitems pos hstands
      have hmem : vin ∈ vins := by simp [hitems]
      have hlt : (done.map SpeltVin.vin).length < (vins.map SpeltVin.vin).length := by
        simp [hitems]
      have hstep : step heap (witnessStage st (vins.map SpeltVin.vin) (done.map SpeltVin.vin)) =
          stepWitness heap (witnessStage st (vins.map SpeltVin.vin) (done.map SpeltVin.vin)) := by
        simp only [step, witnessStage, if_pos hlt]
      have hcnt : (witnessStage st (vins.map SpeltVin.vin) (done.map SpeltVin.vin)).txCnt <
          (witnessStage st (vins.map SpeltVin.vin) (done.map SpeltVin.vin)).tx.vin.length := by
        simp only [witnessStage, List.length_append, List.length_drop, List.length_map] at hlt ⊢
        omega
      have hvins : vins.map SpeltVin.vin =
          done.map SpeltVin.vin ++ vin.vin :: left.map SpeltVin.vin := by
        rw [hitems, List.map_append, List.map_cons]
      rw [hstep, stepWitness_eq hdata hstands (hcount vin hmem) (hwitness vin hmem) hcnt
        (Nat.le_trans hrest (by simp)), afterWitness_witnessStage hvins, if_pos trivial,
        List.map_append, List.map_singleton]
  rw [hloop, if_pos (fun _ _ => trivial)]

theorem loop_vinCount {size : Bytes} {vins : List BtcVin} (hstate : st.state = .vinCount)
    (hcnt : st.txCnt = 0) (hcount : Spells size vins.length)
    (hstands : Stands data pos (size ++ rest)) (turns : Nat) :
    loop heap (turns + 1) st data pos =
      loop heap turns (vinStage st ((List.range vins.length).map heap.vin) vins []) data
        (pos + size.length) := by
  have hlength := hstands.length
  have hmin := hcount.length_pos
  have hvarint := (reads_getVarint hcount).done hstands
  have hstep : step heap st data pos =
      .done (vinStage st ((List.range vins.length).map heap.vin) vins []) (pos + size.length) := by
    simp only [step, hstate]
    rw [bind_done hvarint]
    simp only [vinStage, List.length_nil, List.map_nil, List.drop_zero, List.nil_append]
    rw [hcnt]
    by_cases hnone : vins.length = 0
    · rw [if_pos hnone, if_neg (Nat.not_lt.mpr (Nat.le_of_eq hnone))]
      rfl
    · rw [if_neg hnone, if_pos (Nat.pos_of_ne_zero hnone)]
      rfl
  rw [List.length_append] at hlength
  rw [loop_succ (by omega), bind_done hstep]

theorem loop_voutCount {size : Bytes} {vouts : List BtcVout} (hstate : st.state = .voutCount)
    (hcount : Spells size vouts.length) (hstands : Stands data pos (size ++ rest))
    (turns : Nat) :
    loop heap (turns + 1) st data pos =
      loop heap turns (voutStage st ((List.range vouts.length).map heap.vout) vouts []) data
        (pos + size.length) := by
  have hlength := hstands.length
  have hmin := hcount.length_pos
  have hvarint := (reads_getVarint hcount).done hstands
  have hstep : step heap st data pos =
      .done (voutStage st ((List.range vouts.length).map heap.vout) vouts [])
        (pos + size.length) := by
    simp only [step, hstate]
    rw [bind_done hvarint]
    by_cases hnone : vouts.length = 0
    · simp only [voutStage, Reading.endVout, hnone]
      rfl
    · simp only [voutStage, List.length_nil, if_neg hnone, if_pos (Nat.pos_of_ne_zero hnone),
        List.drop_zero, List.nil_append]
      rfl
  rw [List.length_append] at hlength
  rw [loop_succ (by omega), bind_done hstep]

theorem loop_locktime {locktime : UInt32} (hstate : st.state = .locktime)
    (hstands : Stands data pos (setLe32 locktime)) (turns : Nat) :
    loop heap (turns + 2) st data pos =
      .done (some { st.tx with locktime := locktime }) (pos + 4) := by
  have hcut : Stands data pos (setLe32 locktime ++ []) := by rwa [List.append_nil]
  have hlength := hstands.length
  have hread := (reads_getLe32 locktime).done hcut
  have hstep : step heap st data pos =
      .done { st with tx := { st.tx with locktime := locktime } } (pos + 4) := by
    simp only [step, hstate]
    rw [bind_done hread, length_setLe32]
    rfl
  have hend : ¬ pos + 4 < data.length := by
    rw [hlength, length_setLe32]
    omega
  rw [length_setLe32] at hlength
  rw [loop_succ (by omega), bind_done hstep, loop]
  change (if pos + 4 < data.length then _ else _ : WireReader Unit (Option BtcTx)) data _ = _
  rw [if_neg hend]
  rfl

/-- With no inputs, the witnesses take a turn of their own. -/
theorem loop_noWitness {turns : Nat} (hstate : st.state = .witness) (hnone : st.tx.vin = [])
    (hinside : pos < data.length) :
    loop heap (turns + 1) st data pos =
      loop heap turns { st with state := .locktime } data pos := by
  have hstep : step heap st data pos = .done { st with state := .locktime } pos := by
    simp only [step, hstate]
    rw [stepWitness]
    change (if (fits (pos + 4) data.length && decide (st.txCnt < st.tx.vin.length)) = true then _
      else _ : WireReader Unit Reading) data pos = _
    rw [hnone, List.length_nil, decide_eq_false (Nat.not_lt_zero _), Bool.and_false,
      if_neg Bool.false_ne_true]
    rfl
  rw [loop_succ hinside, bind_done hstep]

/-- The turns behind the outputs. -/
def SpeltTx.tailTurns (spelt : SpeltTx) : Nat :=
  2 + if spelt.segwit then max 1 spelt.vin.length else 0

theorem SpeltTx.map_bare {spelt : SpeltTx}
    (hbare : ∀ vin ∈ spelt.vin, vin.witness = []) :
    spelt.tx.vin.map BtcVin.bare = spelt.tx.vin := by
  rw [SpeltTx.tx, List.map_map]
  apply List.map_congr_left
  intro vin hmem
  rw [Function.comp_apply, BtcVin.bare, SpeltVin.vin, hbare vin hmem, List.map_nil]

/-- Behind the outputs. -/
theorem loop_tail {spelt : SpeltTx} (hdata : data.length < 2 ^ 32) (hgood : spelt.Good)
    (hstate : st.state = if spelt.segwit then .witness else .locktime)
    (hcnt : st.txCnt = 0)
    (htx : st.tx =
      { spelt.tx with vin := spelt.tx.vin.map BtcVin.bare, locktime := st.tx.locktime })
    (hstands : Stands data pos spelt.tailBytes) (turns : Nat) :
    loop heap (turns + spelt.tailTurns) st data pos = .done (some spelt.tx) data.length := by
  rw [SpeltTx.tailBytes] at hstands
  rw [SpeltTx.tailTurns]
  cases hsegwit : spelt.segwit with
  | false =>
      rw [hsegwit, if_neg Bool.false_ne_true] at hstate
      rw [hsegwit, if_neg Bool.false_ne_true, List.nil_append] at hstands
      rw [SpeltTx.map_bare (hgood.bare hsegwit)] at htx
      rw [if_neg Bool.false_ne_true, Nat.add_zero, loop_locktime hstate hstands, htx,
        hstands.length, length_setLe32]
      rfl
  | true =>
      rw [hsegwit, if_pos rfl] at hstate
      rw [hsegwit, if_pos rfl] at hstands
      by_cases hvin : spelt.vin = []
      · have hnone : st.tx.vin = [] := by
          rw [htx, SpeltTx.tx, hvin]
          rfl
        rw [hvin, List.flatMap_nil, List.nil_append] at hstands
        have hinside : pos < data.length := by
          rw [hstands.length, length_setLe32]
          omega
        have hlocktime := @loop_locktime pos data heap { st with state := .locktime } _ rfl hstands
          turns
        rw [if_pos rfl, hvin, List.length_nil, Nat.max_eq_left (Nat.zero_le 1), ← Nat.add_assoc,
          loop_noWitness hstate hnone hinside, hlocktime, hstands.length, length_setLe32, htx,
          SpeltTx.tx, hvin]
        rfl
      · have hpos := List.length_pos_iff.mpr hvin
        have hpos' : 0 < (spelt.vin.map SpeltVin.vin).length := by rwa [List.length_map]
        have hstart : st = witnessStage st (spelt.vin.map SpeltVin.vin) [] := by
          obtain ⟨state, segwit, txCnt, tx'⟩ := st
          simp only [] at hstate hcnt htx
          subst hstate hcnt
          rw [htx]
          simp only [witnessStage, List.length_nil, if_pos hpos', List.drop_zero, List.nil_append,
            SpeltTx.tx]
        have hend : (witnessStage st (spelt.vin.map SpeltVin.vin)
            (spelt.vin.map SpeltVin.vin)).state = .locktime := by
          simp only [witnessStage, if_neg (Nat.lt_irrefl _)]
        have htx' : { (witnessStage st (spelt.vin.map SpeltVin.vin)
            (spelt.vin.map SpeltVin.vin)).tx with locktime := spelt.locktime } = spelt.tx := by
          have hdrop : ((spelt.vin.map SpeltVin.vin).map BtcVin.bare).drop
              (spelt.vin.map SpeltVin.vin).length = [] := by
            rw [← List.length_map (f := BtcVin.bare), List.drop_length]
          simp only [witnessStage, hdrop, List.append_nil]
          rw [htx]
          rfl
        have hloop : loop heap (turns + 2 + spelt.vin.length)
            (witnessStage st (spelt.vin.map SpeltVin.vin) []) data pos = _ :=
          loop_witnesses hdata (hgood.witnessCount hsegwit) (hgood.items hsegwit) hstands
            (Nat.le_of_eq (length_setLe32 _).symm) (turns + 2)
        rw [if_pos rfl, Nat.max_eq_right hpos, ← Nat.add_assoc, hstart, hloop,
          loop_locktime hend hstands.behind, htx', hstands.behind.length, length_setLe32]

/-- The turns that a transaction takes. -/
def SpeltTx.turns (spelt : SpeltTx) : Nat :=
  spelt.tailTurns + spelt.vout.length + 1 + spelt.vin.length + 1

/-- The loop from the number of inputs on. -/
theorem loop_spelt {spelt : SpeltTx} {before : BtcTx} (hdata : data.length < 2 ^ 32)
    (hgood : spelt.Good) (hversion : before.version = spelt.version)
    (hstands : Stands data pos (spelt.vinCount ++ (spelt.vin.flatMap SpeltVin.bytes ++
      (spelt.voutCount ++ (spelt.vout.flatMap SpeltVout.bytes ++ spelt.tailBytes)))))
    (turns : Nat) :
    loop heap (turns + spelt.turns) ⟨.vinCount, spelt.segwit, 0, before⟩ data pos =
      if ∀ start ∈ Layout.starts (pos + spelt.vinCount.length)
          (spelt.vin.map fun vin => vin.bytes.length), start + 36 < 2 ^ 31 then
        if ∀ start ∈ Layout.starts (pos + spelt.vinCount.length +
              (spelt.vin.flatMap SpeltVin.bytes).length + spelt.voutCount.length)
            (spelt.vout.map fun vout => vout.bytes.length), start + 8 < 2 ^ 31 then
          .done (some spelt.tx) data.length
        else .fault .outOfBounds
      else .fault .outOfBounds := by
  have hvins := hstands.behind
  have hcount := hvins.behind
  have hvouts := hcount.behind
  have htail := hvouts.behind
  have hlong : 4 ≤ spelt.tailBytes.length := by
    rw [SpeltTx.tailBytes, List.length_append, length_setLe32]
    exact Nat.le_add_left _ _
  have hvarint := hgood.voutCount.length_pos
  have hturns : turns + spelt.turns =
      (turns + spelt.tailTurns) + spelt.vout.length + 1 + spelt.vin.length + 1 := by
    rw [SpeltTx.turns]
    omega
  have hvinCount : Spells spelt.vinCount (spelt.vin.map SpeltVin.vin).length := by
    rw [List.length_map]
    exact hgood.vinCount
  have hvoutCount : Spells spelt.voutCount (spelt.vout.map SpeltVout.vout).length := by
    rw [List.length_map]
    exact hgood.voutCount
  have hslots : ((List.range (spelt.vin.map SpeltVin.vin).length).map heap.vin).length =
      spelt.vin.length := by simp
  have hslots' : ((List.range (spelt.vout.map SpeltVout.vout).length).map heap.vout).length =
      spelt.vout.length := by simp
  rw [hturns, loop_vinCount rfl rfl hvinCount hstands,
    loop_vins hdata hslots hgood.txid hgood.vinScript hvins
      (by simp only [List.length_append]; omega)]
  apply if_congr Iff.rfl _ rfl
  rw [loop_voutCount (by simp [vinStage]) hvoutCount hcount,
    loop_vouts hdata hslots' hgood.voutScript hvouts hlong]
  apply if_congr Iff.rfl _ rfl
  apply loop_tail hdata hgood
  · simp [voutStage, vinStage, Reading.endVout]
  · simp [voutStage]
  · simp [voutStage, vinStage, hversion, SpeltTx.tx]
  · exact htail

end Steps

/-! ### A whole transaction -/

/-- Where the first input and the first output begin. -/
def SpeltTx.vinStart (spelt : SpeltTx) : Nat :=
  4 + (if spelt.segwit then 2 else 0) + spelt.vinCount.length

def SpeltTx.voutStart (spelt : SpeltTx) : Nat :=
  spelt.vinStart + (spelt.vin.flatMap SpeltVin.bytes).length + spelt.voutCount.length

/-- The length of every script stands where an `int` can point. -/
def SpeltTx.Near (spelt : SpeltTx) : Prop :=
  (∀ start ∈ Layout.starts spelt.vinStart (spelt.vin.map fun vin => vin.bytes.length),
      start + 36 < 2 ^ 31) ∧
    ∀ start ∈ Layout.starts spelt.voutStart (spelt.vout.map fun vout => vout.bytes.length),
      start + 8 < 2 ^ 31

instance (spelt : SpeltTx) : Decidable spelt.Near :=
  inferInstanceAs (Decidable (_ ∧ _))

/-- A size that is not the mark does not begin with the byte of the mark. -/
theorem Spells.getD_zero {size : Bytes} {len : Nat} (hspells : Spells size len)
    (hmark : size ≠ [0x00]) (behind : Bytes) :
    ((size ++ behind).getD 0 0 == 0x00) = false := by
  rcases hspells with ⟨-, rfl⟩ | ⟨-, rfl⟩
  · have hne : len.toUInt8 ≠ 0 := by
      intro hzero
      exact hmark (by rw [hzero])
    simpa using hne
  · rfl

/-- What stands before the inputs: the version, and the marks of a witness. -/
theorem readHead_spelt {spelt : SpeltTx} {data behind : Bytes} (hgood : spelt.Good)
    (hlong : 8 ≤ data.length)
    (hstands : Stands data 0 (setLe32 spelt.version.toUInt32 ++
      ((if spelt.segwit then [0x00, 0x01] else []) ++ (spelt.vinCount ++ behind))))
    (before : BtcTx) :
    readHead before data 0 =
      .done ⟨.vinCount, spelt.segwit, 0, { before with version := spelt.version }⟩
        (4 + if spelt.segwit then 2 else 0) := by
  have hatLeast : (atLeast 8 () : WireReader Unit Unit) data 0 = .done () 0 := by
    rw [atLeast, if_neg (Nat.not_lt.mpr hlong)]
  have hversion := (reads_getLe32 spelt.version.toUInt32).done hstands
  have hbehind := hstands.behind
  rw [length_setLe32, Nat.zero_add] at hversion hbehind
  have hmark := hbehind.getD 0 0
  have hflag := hbehind.getD 1 0
  have hmessage : (message : WireReader Unit _) data 4 = .done data 4 := rfl
  rw [readHead, bind_done hatLeast, bind_done hversion, bind_done hmessage]
  cases hsegwit : spelt.segwit with
  | false =>
      rw [hsegwit, if_neg Bool.false_ne_true, List.nil_append] at hmark
      have hzero := hgood.vinCount.getD_zero (hgood.unmarked hsegwit) behind
      rw [← hmark] at hzero
      simp only [hzero, Bool.false_and]
      rfl
  | true =>
      rw [hsegwit, if_pos rfl] at hmark hflag
      simp only [hmark, hflag]
      rfl

theorem SpeltTx.length_bytes {spelt : SpeltTx} (hgood : spelt.Good) :
    8 ≤ spelt.bytes.length := by
  have hmin := hgood.vinCount.length_pos
  have hmin' := hgood.voutCount.length_pos
  simp only [SpeltTx.bytes, SpeltTx.tailBytes, List.length_append, length_setLe32]
  omega

/-- The bytes of a transaction are read as it unless a script's length stands at `2^31` or
behind. -/
theorem btcTxRead_spelt {spelt : SpeltTx} (hgood : spelt.Good)
    (hsize : spelt.bytes.length < 2 ^ 32) (heap : Heap) (before : BtcTx) (turns : Nat) :
    (btcTxRead heap (turns + spelt.turns) before).run spelt.bytes =
      if spelt.Near then .done (some spelt.tx) spelt.bytes.length else .fault .outOfBounds := by
  have hstands : Stands spelt.bytes 0 (setLe32 spelt.version.toUInt32 ++ _) :=
    Stands.start spelt.bytes
  have hmarks : (if spelt.segwit then [(0x00 : UInt8), 0x01] else []).length =
      if spelt.segwit then 2 else 0 := by
    split <;> rfl
  have hcount := hstands.behind.behind
  rw [hmarks, length_setLe32, Nat.zero_add] at hcount
  have hversion : ({ before with version := spelt.version } : BtcTx).version = spelt.version := rfl
  have hloop := @loop_spelt _ _ heap _ _ hsize hgood hversion hcount turns
  rw [← ite_and] at hloop
  rw [WireReader.run, btcTxRead,
    bind_done (readHead_spelt hgood (SpeltTx.length_bytes hgood) hstands before), hloop]
  rfl

end TxSerial

end Ptarmigan
