/-
`btc_sw_sighash`: the hash that a signature over an input of a segwit transaction is made for.
The buffers have the lengths of their contents, the hashes take the lengths as 16 bits.
-/
import Mathlib.Algebra.BigOperators.Group.List.Basic
import Mathlib.Algebra.Group.Action.Defs
import Ptarmigan.Library.DoubleHash
import Ptarmigan.Library.LittleEndian
import Ptarmigan.TxSerial
import Ptarmigan.TxSort

namespace Ptarmigan

namespace SwSighash

open DoubleHash

/-! ### Validity -/

/-- `btc_txvalid_t`, apart from the values for pointers that are `NULL`. -/
inductive BtcTxvalid
  | ok
  | version
  | vinNone
  | voutNone
  | voutNopkh
  | voutValue
deriving DecidableEq, Repr

/-- The loop over the outputs in `btc_tx_is_valid`; `0x6a` is `OP_RETURN`. -/
def voutsValid : List TxSort.BtcVout → BtcTxvalid
  | [] => .ok
  | vout :: rest =>
      if vout.script.length = 0 then .voutNopkh
      else if vout.value = 0 ∧ vout.script.head? ≠ some 0x6a then .voutValue
      else voutsValid rest

/-- `btc_tx_is_valid`. -/
def btcTxIsValid (tx : TxSort.BtcTx) : BtcTxvalid :=
  if tx.version = 0 then .version
  else if tx.vin.length = 0 then .vinNone
  else if tx.vout.length = 0 then .voutNone
  else voutsValid tx.vout

/-! ### The hash -/

/-- `btc_util_sha256`: `Len` is a `uint16_t`. -/
def btcUtilSha256 (sha256 : Bytes → Digest) (data : Bytes) (len : ℕ) : Digest :=
  sha256 (data.take (len % 2 ^ 16))

/-- `btc_util_hash256`. -/
def btcUtilHash256 (sha256 : Bytes → Digest) (data : Bytes) (len : ℕ) : Digest :=
  btcUtilSha256 sha256 (btcUtilSha256 sha256 data len).toList 32

/-- A buffer of `size` bytes, a `uint32_t`, that all the bytes are written to; there is none when
they do not fit. -/
def filled (size : ℕ) (written : Bytes) : Option Bytes :=
  if written.length = size % 2 ^ 32 then some written else none

/-- What an input adds to `hash_prevouts`. -/
def outpoint (vin : TxSort.BtcVin) : Bytes :=
  vin.txid.toList ++ LittleEndian.encode 4 vin.index.toNat

def sequenceBytes (vin : TxSort.BtcVin) : Bytes :=
  LittleEndian.encode 4 vin.sequence.toNat

/-- What an output adds to `hash_outputs`: the length of its script is one byte. -/
def outputBytes (vout : TxSort.BtcVout) : Bytes :=
  LittleEndian.encode 8 vout.value.toNat ++ (vout.script.length.toUInt8 :: vout.script)

/-- `btc_sw_sighash`: `none` where it leaves a buffer, `some none` where it returns false. -/
def btcSwSighash (sha256 : Bytes → Digest) (tx : TxSort.BtcTx) (index : ℕ) (value : UInt64)
    (scriptCode : Bytes) : Option (Option Digest) :=
  if btcTxIsValid tx ≠ .ok then some none
  else do
    let vinNow ← tx.vin[index]?
    let hashPrevouts ← filled (tx.vin.length * (32 + 4)) (tx.vin.flatMap outpoint)
    let hashSequence ← filled (tx.vin.length * 4) (tx.vin.flatMap sequenceBytes)
    let len := (tx.vout.map fun vout => vout.script.length).sum % 2 ^ 32
    let hashOutputs ← filled (tx.vout.length * (8 + 1) + len) (tx.vout.flatMap outputBytes)
    let preimg ← filled (156 + scriptCode.length)
      (LittleEndian.encode 4 tx.version.toUInt32.toNat ++
        (btcUtilHash256 sha256 hashPrevouts hashPrevouts.length).toList ++
        (btcUtilHash256 sha256 hashSequence hashSequence.length).toList ++
        vinNow.txid.toList ++ LittleEndian.encode 4 vinNow.index.toNat ++
        scriptCode ++
        LittleEndian.encode 8 value.toNat ++
        LittleEndian.encode 4 vinNow.sequence.toNat ++
        (btcUtilHash256 sha256 hashOutputs hashOutputs.length).toList ++
        LittleEndian.encode 4 tx.locktime.toNat ++
        LittleEndian.encode 4 1)
    pure (some (btcUtilHash256 sha256 preimg preimg.length))

/-! ### BIP143 -/

/-- A length as transactions have it. -/
def compactSize (len : ℕ) : Bytes :=
  if len < 0xfd then [len.toUInt8]
  else if len ≤ 0xffff then 0xfd :: LittleEndian.encode 2 len
  else if len ≤ 0xffffffff then 0xfe :: LittleEndian.encode 4 len
  else 0xff :: LittleEndian.encode 8 len

/-- An output as transactions have it. -/
def serialized (vout : TxSort.BtcVout) : Bytes :=
  LittleEndian.encode 8 vout.value.toNat ++ (compactSize vout.script.length ++ vout.script)

/-- What is signed for an input with `SIGHASH_ALL`.  The script code comes with its length in
front, as `btc_sw_scriptcode_p2wsh` makes it. -/
def bip143Preimage (sha256 : Bytes → Digest) (tx : TxSort.BtcTx) (vin : TxSort.BtcVin)
    (value : UInt64)
    (scriptCode : Bytes) : Bytes :=
  LittleEndian.encode 4 tx.version.toUInt32.toNat ++
    (hash256 sha256 (tx.vin.flatMap outpoint)).toList ++
    (hash256 sha256 (tx.vin.flatMap sequenceBytes)).toList ++
    outpoint vin ++
    scriptCode ++
    LittleEndian.encode 8 value.toNat ++
    LittleEndian.encode 4 vin.sequence.toNat ++
    (hash256 sha256 (tx.vout.flatMap serialized)).toList ++
    LittleEndian.encode 4 tx.locktime.toNat ++
    LittleEndian.encode 4 1

/-- `btc_sw_scriptcode_p2wsh`. -/
def btcSwScriptcodeP2wsh (wit : Bytes) : Bytes :=
  TxSerial.setVarintLen wit.length ++ wit

/-- A script code of less than 64 KiB has the length in front that BIP143 says. -/
theorem btcSwScriptcodeP2wsh_eq {wit : Bytes} (hlength : wit.length ≤ 0xffff) :
    btcSwScriptcodeP2wsh wit = compactSize wit.length ++ wit := by
  rw [btcSwScriptcodeP2wsh, TxSerial.setVarintLen, compactSize]
  split_ifs <;> rfl

/-- What `btc_sw_sighash` is called for. -/
structure Call where
  tx : TxSort.BtcTx
  valid : btcTxIsValid tx = .ok
  index : Fin tx.vin.length
  value : UInt64
  scriptCode : Bytes

def Call.vin (call : Call) : TxSort.BtcVin :=
  call.tx.vin.get call.index

/-- Whatever the hash function, the call returns the double hash of what is to be signed. -/
def Call.Right (call : Call) : Prop :=
  ∀ sha256 : Bytes → Digest,
    btcSwSighash sha256 call.tx call.index call.value call.scriptCode =
      some (some (hash256 sha256
        (bip143Preimage sha256 call.tx call.vin call.value call.scriptCode)))

/-- No script needs more than one byte for its length, and all that is hashed has a length of 16
bits. -/
structure Call.Short (call : Call) : Prop where
  vin : 36 * call.tx.vin.length < 2 ^ 16
  scripts : ∀ vout ∈ call.tx.vout, vout.script.length < 0xfd
  vout : 9 * call.tx.vout.length + (call.tx.vout.map fun vout => vout.script.length).sum < 2 ^ 16
  scriptCode : 156 + call.scriptCode.length < 2 ^ 16

/-! ### Lengths -/

theorem sum_map_const {α : Type} (items : List α) (count : ℕ) :
    (items.map fun _ => count).sum = count * items.length := by
  rw [List.map_const', List.sum_replicate, smul_eq_mul, Nat.mul_comm]

theorem length_outpoints (tx : TxSort.BtcTx) :
    (tx.vin.flatMap outpoint).length = 36 * tx.vin.length := by
  rw [List.length_flatMap, ← sum_map_const]
  apply congrArg List.sum
  apply List.map_congr_left
  intro vin _
  rw [outpoint, List.length_append, Vector.length_toList, LittleEndian.length_encode]

theorem length_sequences (tx : TxSort.BtcTx) :
    (tx.vin.flatMap sequenceBytes).length = 4 * tx.vin.length := by
  rw [List.length_flatMap, ← sum_map_const]
  apply congrArg List.sum
  apply List.map_congr_left
  intro vin _
  exact LittleEndian.length_encode 4 _

theorem length_outputs (vouts : List TxSort.BtcVout) : (vouts.flatMap outputBytes).length =
    9 * vouts.length + (vouts.map fun vout => vout.script.length).sum := by
  induction vouts with
  | nil => rfl
  | cons vout rest ih =>
      rw [List.flatMap_cons, List.length_append, ih, outputBytes, List.length_append,
        LittleEndian.length_encode, List.length_cons, List.length_cons, List.map_cons,
        List.sum_cons]
      omega

theorem compactSize_length (len : ℕ) :
    (len < 0xfd ∧ (compactSize len).length = 1) ∨ (0xfd ≤ len ∧ 1 < (compactSize len).length) := by
  rw [compactSize]
  split_ifs with hshort
  · exact .inl ⟨hshort, rfl⟩
  all_goals
    refine .inr ⟨Nat.le_of_not_lt hshort, ?_⟩
    rw [List.length_cons, LittleEndian.length_encode]
    omega

theorem serialized_of_short {vout : TxSort.BtcVout} (hshort : vout.script.length < 0xfd) :
    serialized vout = outputBytes vout := by
  rw [serialized, compactSize, if_pos hshort]
  rfl

/-- The outputs are shorter than they should be, once a script needs more for its length. -/
theorem length_serialized (vouts : List TxSort.BtcVout) :
    (vouts.flatMap outputBytes).length ≤ (vouts.flatMap serialized).length ∧
      ((vouts.flatMap outputBytes).length = (vouts.flatMap serialized).length →
        ∀ vout ∈ vouts, vout.script.length < 0xfd) := by
  induction vouts with
  | nil => exact ⟨le_rfl, fun _ _ hmem => absurd hmem List.not_mem_nil⟩
  | cons vout rest ih =>
      have hlength : (serialized vout).length + 1 =
          (outputBytes vout).length + (compactSize vout.script.length).length := by
        simp only [serialized, outputBytes, List.length_append, List.length_cons]
        omega
      rw [List.flatMap_cons, List.flatMap_cons, List.length_append, List.length_append,
        List.forall_mem_cons]
      rcases compactSize_length vout.script.length with ⟨hshort, hone⟩ | ⟨hlong, hmore⟩
      · refine ⟨by omega, fun heq => ⟨hshort, ih.2 (by omega)⟩⟩
      · exact ⟨by omega, fun heq => by omega⟩

/-! ### What is hashed -/

/-- What the `uint16_t` of the length leaves of the bytes. -/
def cut (data : Bytes) : Bytes :=
  data.take (data.length % 2 ^ 16)

theorem cut_of_lt {data : Bytes} (hlt : data.length < 2 ^ 16) : cut data = data := by
  rw [cut, Nat.mod_eq_of_lt hlt, List.take_length]

theorem length_cut (data : Bytes) : (cut data).length = data.length % 2 ^ 16 := by
  rw [cut, List.length_take]
  exact min_eq_left (Nat.mod_le _ _)

theorem lt_of_cut_eq {data : Bytes} (heq : (cut data).length = data.length) :
    data.length < 2 ^ 16 := by
  rw [length_cut] at heq
  rw [← heq]
  exact Nat.mod_lt _ (by decide)

theorem btcUtilHash256_eq (sha256 : Bytes → Digest) (data : Bytes) :
    btcUtilHash256 sha256 data data.length = hash256 sha256 (cut data) := by
  rw [btcUtilHash256, btcUtilSha256, btcUtilSha256, hash256, cut, List.take_of_length_le]
  rw [Vector.length_toList]
  decide

theorem filled_eq_some {size : ℕ} {written buffer : Bytes}
    (hfilled : filled size written = some buffer) : buffer = written := by
  rw [filled] at hfilled
  split_ifs at hfilled
  exact (Option.some.inj hfilled).symm

theorem filled_of_lt {size : ℕ} {written : Bytes} (hlength : written.length = size)
    (hlt : size < 2 ^ 32) : filled size written = some written := by
  rw [filled, if_pos (by rw [hlength, Nat.mod_eq_of_lt hlt])]

namespace Call

/-- What is signed, around the three digests in it. -/
def framed (call : Call) (prevouts sequence outputs : Digest) : Bytes :=
  LittleEndian.encode 4 call.tx.version.toUInt32.toNat ++
    (prevouts.toList ++ (sequence.toList ++
      ((outpoint call.vin ++ (call.scriptCode ++ (LittleEndian.encode 8 call.value.toNat ++
        LittleEndian.encode 4 call.vin.sequence.toNat))) ++
        (outputs.toList ++ (LittleEndian.encode 4 call.tx.locktime.toNat ++
          LittleEndian.encode 4 1)))))

variable (call : Call) (sha256 : Bytes → Digest)

theorem bip143Preimage_eq :
    bip143Preimage sha256 call.tx call.vin call.value call.scriptCode =
      call.framed (hash256 sha256 (call.tx.vin.flatMap outpoint))
        (hash256 sha256 (call.tx.vin.flatMap sequenceBytes))
        (hash256 sha256 (call.tx.vout.flatMap serialized)) := by
  simp only [bip143Preimage, framed, List.append_assoc]

/-- What the code signs, where it signs anything. -/
def signs : Bytes :=
  call.framed (hash256 sha256 (cut (call.tx.vin.flatMap outpoint)))
    (hash256 sha256 (cut (call.tx.vin.flatMap sequenceBytes)))
    (hash256 sha256 (cut (call.tx.vout.flatMap outputBytes)))

theorem length_framed (prevouts sequence outputs : Digest) :
    (call.framed prevouts sequence outputs).length = 156 + call.scriptCode.length := by
  simp only [framed, outpoint, List.length_append, Vector.length_toList,
    LittleEndian.length_encode]
  omega

/-- Where the call comes to a hash, it is that of what the code signs. -/
theorem btcSwSighash_eq_some {digest : Digest}
    (hhash : btcSwSighash sha256 call.tx call.index call.value call.scriptCode =
      some (some digest)) : digest = hash256 sha256 (cut (call.signs sha256)) := by
  have hvin : call.tx.vin[call.index.val]? = some call.vin :=
    List.getElem?_eq_getElem call.index.isLt
  simp only [btcSwSighash, call.valid, ne_eq, not_true_eq_false, ↓reduceIte, hvin,
    Option.bind_eq_bind, Option.bind_some, Option.bind_eq_some_iff, Option.pure_def,
    Option.some.injEq] at hhash
  obtain ⟨prevouts, hprevouts, sequence, hsequence, outputs, houtputs,
    preimg, hpreimg, rfl⟩ := hhash
  obtain rfl := filled_eq_some hprevouts
  obtain rfl := filled_eq_some hsequence
  obtain rfl := filled_eq_some houtputs
  obtain rfl := filled_eq_some hpreimg
  simp only [btcUtilHash256_eq, signs, framed, outpoint, List.append_assoc]

theorem btcSwSighash_of_short (hshort : call.Short) :
    btcSwSighash sha256 call.tx call.index call.value call.scriptCode =
      some (some (hash256 sha256 (cut (call.signs sha256)))) := by
  have hvin : call.tx.vin[call.index.val]? = some call.vin :=
    List.getElem?_eq_getElem call.index.isLt
  obtain ⟨hinputs, -, hvout, hcode⟩ := hshort
  have hlen : (call.tx.vout.map fun vout => vout.script.length).sum % 2 ^ 32 =
      (call.tx.vout.map fun vout => vout.script.length).sum := Nat.mod_eq_of_lt (by omega)
  have hprevouts : filled (call.tx.vin.length * (32 + 4)) (call.tx.vin.flatMap outpoint) =
      some (call.tx.vin.flatMap outpoint) :=
    filled_of_lt (by rw [length_outpoints, Nat.mul_comm]) (by omega)
  have hsequence : filled (call.tx.vin.length * 4) (call.tx.vin.flatMap sequenceBytes) =
      some (call.tx.vin.flatMap sequenceBytes) :=
    filled_of_lt (by rw [length_sequences, Nat.mul_comm]) (by omega)
  have houtputs : filled (call.tx.vout.length * (8 + 1) +
      (call.tx.vout.map fun vout => vout.script.length).sum) (call.tx.vout.flatMap outputBytes) =
        some (call.tx.vout.flatMap outputBytes) :=
    filled_of_lt (by rw [length_outputs, Nat.mul_comm]) (by omega)
  have hpreimg := filled_of_lt (call.length_framed
    (hash256 sha256 (cut (call.tx.vin.flatMap outpoint)))
    (hash256 sha256 (cut (call.tx.vin.flatMap sequenceBytes)))
    (hash256 sha256 (cut (call.tx.vout.flatMap outputBytes)))) (by omega)
  simp only [framed, outpoint, List.append_assoc] at hpreimg hprevouts
  simp only [btcSwSighash, call.valid, ne_eq, not_true_eq_false, ↓reduceIte, hvin, hprevouts,
    hsequence, hlen, houtputs, Option.bind_eq_bind, Option.bind_some, btcUtilHash256_eq,
    List.append_assoc, hpreimg, signs, framed, outpoint, Option.pure_def]

/-! ### Where the digests stand -/

theorem getElem?_behind (front back : Bytes) (digest : Digest) :
    (front ++ (digest.toList ++ back))[front.length]? = digest.toList[0]? := by
  rw [List.getElem?_append_right le_rfl, Nat.sub_self, List.getElem?_append_left]
  rw [Vector.length_toList]
  decide

theorem framed_version (prevouts sequence outputs : Digest) :
    (call.framed prevouts sequence outputs)[0]? = some call.tx.version.toUInt32.toNat.toUInt8 :=
  rfl

theorem framed_prevouts (prevouts sequence outputs : Digest) :
    (call.framed prevouts sequence outputs)[4]? = prevouts.toList[0]? := by
  have hlength := LittleEndian.length_encode 4 call.tx.version.toUInt32.toNat
  have hbehind := getElem?_behind (LittleEndian.encode 4 call.tx.version.toUInt32.toNat)
    (sequence.toList ++ ((outpoint call.vin ++ (call.scriptCode ++
      (LittleEndian.encode 8 call.value.toNat ++
        LittleEndian.encode 4 call.vin.sequence.toNat))) ++
      (outputs.toList ++ (LittleEndian.encode 4 call.tx.locktime.toNat ++
        LittleEndian.encode 4 1)))) prevouts
  rwa [hlength] at hbehind

theorem framed_outputs (prevouts sequence outputs : Digest) :
    (call.framed prevouts sequence outputs)[116 + call.scriptCode.length]? =
      outputs.toList[0]? := by
  have hlength : (LittleEndian.encode 4 call.tx.version.toUInt32.toNat ++
      (prevouts.toList ++ (sequence.toList ++ (outpoint call.vin ++ (call.scriptCode ++
        (LittleEndian.encode 8 call.value.toNat ++
          LittleEndian.encode 4 call.vin.sequence.toNat)))))).length =
            116 + call.scriptCode.length := by
    simp only [outpoint, List.length_append, Vector.length_toList, LittleEndian.length_encode]
    omega
  have hbehind := getElem?_behind (LittleEndian.encode 4 call.tx.version.toUInt32.toNat ++
      (prevouts.toList ++ (sequence.toList ++ (outpoint call.vin ++ (call.scriptCode ++
        (LittleEndian.encode 8 call.value.toNat ++
          LittleEndian.encode 4 call.vin.sequence.toNat))))))
    (LittleEndian.encode 4 call.tx.locktime.toNat ++ LittleEndian.encode 4 1) outputs
  rw [hlength] at hbehind
  rw [← hbehind, framed]
  simp only [List.append_assoc]

/-! ### What one hash function after the other shows -/

section Marked

variable {target : Bytes} {slot : ℕ} {yes no : UInt8}

/-- The digest of bytes that are not taken for a digest. -/
theorem hash256_inner {data : Bytes} (hmarks : data[4]? ≠ some yes ∧ data[4]? ≠ some no) :
    hash256 (marking 4 slot yes no target) data = constant (if data = target then yes else no) := by
  rw [hash256_marking (by decide), marking, marked_inner hmarks.1 hmarks.2]
  simp only [decide_eq_true_eq]

/-- The hash of what is signed shows the byte at the slot. -/
theorem hash256_framed {first last : UInt8} {prevouts sequence outputs : Digest}
    (hprevouts : prevouts = constant first) (hfirst : first = yes ∨ first = no)
    (hslot : (call.framed prevouts sequence outputs)[slot]? = some last) :
    hash256 (marking 4 slot yes no target) (call.framed prevouts sequence outputs) =
      constant (if last = yes then yes else no) := by
  have hplace : (call.framed prevouts sequence outputs)[4]? = some first := by
    rw [framed_prevouts, hprevouts, getElem?_constant (by decide)]
  have hlength : (call.framed prevouts sequence outputs).length ≠ 32 := by
    rw [length_framed]
    omega
  rw [hash256_marking (by decide), marking, marked_outer hplace hfirst hlength, hslot]
  simp only [Option.some.injEq, decide_eq_true_eq]

end Marked

/-- If no hash function tells the two, the same outpoints and the same outputs were hashed. -/
theorem hashed_eq {prevouts prevouts' sequence sequence' outputs outputs' : Bytes}
    (hall : ∀ sha256 : Bytes → Digest,
      hash256 sha256 (call.framed (hash256 sha256 prevouts) (hash256 sha256 sequence)
        (hash256 sha256 outputs)) =
      hash256 sha256 (call.framed (hash256 sha256 prevouts') (hash256 sha256 sequence')
        (hash256 sha256 outputs'))) : prevouts = prevouts' ∧ outputs = outputs' := by
  obtain ⟨yes, no, hne, hmarks⟩ :=
    exists_marks 4 [prevouts, prevouts', outputs, outputs'] (by simp)
  simp only [List.forall_mem_cons] at hmarks
  obtain ⟨hprevouts, hprevouts', houtputs, houtputs', -⟩ := hmarks
  have hbyte : ∀ (data target : Bytes), (if data = target then yes else no) = yes ∨
      (if data = target then yes else no) = no := by
    intro data target
    split_ifs
    · exact .inl rfl
    · exact .inr rfl
  have hshown : ∀ {data target : Bytes}, (if (if data = target then yes else no) = yes
      then yes else no) = (if data = target then yes else no) := by
    intro data target
    rcases hbyte data target with heq | heq
    · rw [heq, if_pos rfl]
    · rw [heq, if_neg hne.symm]
  constructor
  · -- the target is what stands for the outpoints in the first
    have hsame := hall (marking 4 4 yes no prevouts)
    rw [call.hash256_framed (hash256_inner hprevouts) (hbyte _ _) (by
        rw [framed_prevouts, hash256_inner hprevouts, getElem?_constant (by decide)]),
      call.hash256_framed (hash256_inner hprevouts') (hbyte _ _) (by
        rw [framed_prevouts, hash256_inner hprevouts', getElem?_constant (by decide)]),
      hshown, hshown, if_pos rfl] at hsame
    have hyes := constant_inj hsame
    by_contra hdiffer
    rw [if_neg fun heq => hdiffer heq.symm] at hyes
    exact hne hyes
  · have hsame := hall (marking 4 (116 + call.scriptCode.length) yes no outputs)
    rw [call.hash256_framed (hash256_inner hprevouts) (hbyte _ _) (by
        rw [framed_outputs, hash256_inner houtputs, getElem?_constant (by decide)]),
      call.hash256_framed (hash256_inner hprevouts') (hbyte _ _) (by
        rw [framed_outputs, hash256_inner houtputs', getElem?_constant (by decide)]),
      hshown, hshown, if_pos rfl] at hsame
    have hyes := constant_inj hsame
    by_contra hdiffer
    rw [if_neg fun heq => hdiffer heq.symm] at hyes
    exact hne hyes

variable {call}

theorem signed_eq (hright : call.Right) (sha256 : Bytes → Digest) :
    hash256 sha256 (call.framed (hash256 sha256 (call.tx.vin.flatMap outpoint))
      (hash256 sha256 (call.tx.vin.flatMap sequenceBytes))
      (hash256 sha256 (call.tx.vout.flatMap serialized))) =
        hash256 sha256 (cut (call.signs sha256)) := by
  rw [← bip143Preimage_eq]
  exact call.btcSwSighash_eq_some sha256 (hright sha256)

/-- What is signed is hashed to its end. -/
theorem scriptCode_of_right (hright : call.Right) : 156 + call.scriptCode.length < 2 ^ 16 := by
  obtain ⟨yes, hyes⟩ := exists_fresh [call.tx.version.toUInt32.toNat.toUInt8] (by simp)
  obtain ⟨no, hno⟩ := exists_fresh [yes] (by simp)
  have hne : yes ≠ no := fun heq => hno (List.mem_singleton.mpr heq.symm)
  have hsame := signed_eq hright (markingLength (156 + call.scriptCode.length) yes no)
  generalize hsigns : call.signs (markingLength (156 + call.scriptCode.length) yes no) =
    data at hsame
  have hlength : data.length = 156 + call.scriptCode.length := by
    rw [← hsigns]
    exact call.length_framed _ _ _
  have hversion : data[0]? = some call.tx.version.toUInt32.toNat.toUInt8 := by
    rw [← hsigns]
    exact call.framed_version _ _ _
  rcases length_of_hash256_eq hne (by omega) (call.length_framed _ _ _) hsame with hcut | hcut
  · have hlt := lt_of_cut_eq (hcut.trans hlength.symm)
    rwa [hlength] at hlt
  · -- a digest of one byte does not start like the version
    have hbyte : (cut data)[0]? = some yes := by
      rw [hcut, getElem?_constant (by decide)]
    rw [cut, List.getElem?_take] at hbyte
    split_ifs at hbyte
    rw [hversion] at hbyte
    exact absurd (List.mem_singleton.mpr (Option.some.inj hbyte).symm) hyes

theorem short_of_right (hright : call.Right) : call.Short := by
  have hcode := scriptCode_of_right hright
  have hall := signed_eq hright
  have hcut : ∀ sha256 : Bytes → Digest, cut (call.signs sha256) = call.signs sha256 := by
    intro sha256
    apply cut_of_lt
    rw [signs, length_framed]
    exact hcode
  simp only [hcut] at hall
  simp only [signs] at hall
  obtain ⟨hprevouts, houtputs⟩ := call.hashed_eq hall
  have hvin := lt_of_cut_eq (congrArg List.length hprevouts.symm)
  rw [length_outpoints] at hvin
  have hlengths := length_serialized call.tx.vout
  have hwhole : (call.tx.vout.flatMap outputBytes).length =
      (call.tx.vout.flatMap serialized).length := by
    apply le_antisymm hlengths.1
    rw [houtputs, length_cut]
    exact Nat.mod_le _ _
  have hvout := lt_of_cut_eq ((congrArg List.length houtputs.symm).trans hwhole.symm)
  rw [length_outputs] at hvout
  exact ⟨hvin, hlengths.2 hwhole, hvout, hcode⟩

theorem right_of_short (hshort : call.Short) : call.Right := by
  intro sha256
  have hprevouts : cut (call.tx.vin.flatMap outpoint) = call.tx.vin.flatMap outpoint :=
    cut_of_lt (by rw [length_outpoints]; exact hshort.vin)
  have hsequence : cut (call.tx.vin.flatMap sequenceBytes) = call.tx.vin.flatMap sequenceBytes := by
    apply cut_of_lt
    have hvin := hshort.vin
    rw [length_sequences]
    omega
  have houtputs : cut (call.tx.vout.flatMap outputBytes) = call.tx.vout.flatMap outputBytes :=
    cut_of_lt (by rw [length_outputs]; exact hshort.vout)
  have hserialized : call.tx.vout.flatMap serialized = call.tx.vout.flatMap outputBytes :=
    List.flatMap_congr fun vout hmem => serialized_of_short (hshort.scripts vout hmem)
  have hsigns : cut (call.signs sha256) = call.signs sha256 := by
    apply cut_of_lt
    rw [signs, length_framed]
    exact hshort.scriptCode
  rw [call.btcSwSighash_of_short sha256 hshort, hsigns, bip143Preimage_eq, signs, hprevouts,
    hsequence, houtputs, hserialized]

end Call

/-- `btc_sw_sighash` returns the hash that BIP143 says, for every hash function, if and only if the
scripts of the outputs are shorter than 253 bytes and nothing longer than 16 bits can say is
hashed. -/
theorem sighash_iff (call : Call) : call.Right ↔ call.Short :=
  ⟨Call.short_of_right, Call.right_of_short⟩

/-- One output with a script of 253 bytes. -/
def longScript : Call where
  tx :=
    { version := 2
      vin := [⟨Vector.replicate 32 7, 0, [], [], 0xffffffff⟩]
      vout := [⟨1000, List.replicate 253 0x51, 0⟩]
      locktime := 0 }
  valid := by
    have hlength : (List.replicate 253 (0x51 : UInt8)).length ≠ 0 := by
      rw [List.length_replicate]
      decide
    rw [btcTxIsValid, voutsValid, if_neg (by decide), if_neg (by decide), if_neg (by decide),
      if_neg hlength, if_neg (by decide), voutsValid]
  index := 0
  value := 2000
  scriptCode := [0x01, 0x51]

theorem not_right_longScript : ¬ longScript.Right := by
  intro hright
  have hscript := (Call.short_of_right hright).scripts _ List.mem_cons_self
  rw [List.length_replicate] at hscript
  exact absurd hscript (by decide)

end SwSighash

end Ptarmigan
