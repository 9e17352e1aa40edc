/-
Transactions as bytes: `btc_tx_create` finds the length in one pass and writes in another,
`btc_tx_read` reads what was written state by state.
-/
import Mathlib.Algebra.BigOperators.Group.List.Basic
import Mathlib.Algebra.Order.BigOperators.Group.List
import Mathlib.Algebra.Order.Group.Nat
import Ptarmigan.Library.Layout
import Ptarmigan.Library.LittleEndian
import Ptarmigan.Library.WireReader
import Ptarmigan.Tx

namespace Ptarmigan

namespace TxSerial

open WireReader

/-- `btc_vin_t`; `wit_cnt` is how many items the witness has. -/
structure BtcVin where
  txid : Bytes
  index : UInt32
  script : Bytes
  witness : List Bytes
  sequence : UInt32
deriving DecidableEq, Repr

/-- `btc_vout_t`, without `opt`, which is not written. -/
structure BtcVout where
  value : UInt64
  script : Bytes
deriving DecidableEq, Repr

/-- `btc_tx_t`. -/
structure BtcTx where
  version : Int32
  vin : List BtcVin
  vout : List BtcVout
  locktime : UInt32
deriving DecidableEq

/-! ### Writing -/

/-- `btcl_util_get_varint_len`. -/
def getVarintLen (len : Nat) : Nat :=
  if len < 0xfd then 1 else 3

/-- `btcl_util_set_varint_len` with `isScript = false`: what it puts at `pData`. -/
def setVarintLen (len : Nat) : Bytes :=
  if len < 0xfd then [len.toUInt8] else [0xfd, len.toUInt8, (len / 256).toUInt8]

def setLe32 (value : UInt32) : Bytes :=
  LittleEndian.encode 4 value.toNat

def setLe64 (value : UInt64) : Bytes :=
  LittleEndian.encode 8 value.toNat

/-- What the first pass of `btcl_util_create_tx` adds for a witness: one byte for `wit_cnt`. -/
def witnessLen (enableSegWit : Bool) (vin : BtcVin) : Nat :=
  if enableSegWit && !vin.witness.isEmpty then
    1 + (vin.witness.map fun item => item.length + getVarintLen item.length).sum
  else 0

def vinLen (enableSegWit : Bool) (vin : BtcVin) : Nat :=
  32 + 4 + vin.script.length + 4 + getVarintLen vin.script.length + witnessLen enableSegWit vin

def voutLen (vout : BtcVout) : Nat :=
  8 + vout.script.length + getVarintLen vout.script.length

def isSegwit (enableSegWit : Bool) (tx : BtcTx) : Bool :=
  tx.vin.any fun vin => enableSegWit && !vin.witness.isEmpty

def vinBytes (vin : BtcVin) : Bytes :=
  vin.txid ++ (setLe32 vin.index ++ (setVarintLen vin.script.length ++ (vin.script ++
    setLe32 vin.sequence)))

def voutBytes (vout : BtcVout) : Bytes :=
  setLe64 vout.value ++ (setVarintLen vout.script.length ++ vout.script)

def itemBytes (item : Bytes) : Bytes :=
  setVarintLen item.length ++ item

def witnessBytes (vin : BtcVin) : Bytes :=
  setVarintLen vin.witness.length ++ vin.witness.flatMap itemBytes

/-- What `btcl_util_create_tx` leaves: its result, the length of the buffer and all that was
written from the start of the buffer on, behind its end as well. -/
structure Created where
  ret : Bool
  allocated : Nat
  written : Bytes
deriving DecidableEq, Repr

/-- What the second pass writes. -/
def txBytes (enableSegWit : Bool) (tx : BtcTx) : Bytes :=
  setLe32 tx.version.toUInt32 ++ ((if isSegwit enableSegWit tx then [0x00, 0x01] else []) ++
    (setVarintLen tx.vin.length ++ (tx.vin.flatMap vinBytes ++
      (setVarintLen tx.vout.length ++ (tx.vout.flatMap voutBytes ++
        ((if isSegwit enableSegWit tx then tx.vin.flatMap witnessBytes else []) ++
          setLe32 tx.locktime))))))

/-- `btcl_util_create_tx`: `len` is a `uint32_t`. -/
def createTx (enableSegWit : Bool) (tx : BtcTx) : Created :=
  let len := (4 + getVarintLen tx.vin.length + getVarintLen tx.vout.length +
    (tx.vin.map (vinLen enableSegWit)).sum + (if isSegwit enableSegWit tx then 2 else 0) +
    (tx.vout.map voutLen).sum + 4) % 2 ^ 32
  let written := txBytes enableSegWit tx
  ⟨written.length % 2 ^ 32 == len, len, written⟩

def btcTxCreate (tx : BtcTx) : Created :=
  createTx true tx

/-! ### Reading -/

/-- What `malloc` leaves in the elements of a new array. -/
structure Heap where
  vin : Nat → BtcVin
  vout : Nat → BtcVout
  item : Nat → Bytes

/-- `state` of `btc_tx_read`. -/
inductive ReadState
  | vinCount
  | vin
  | voutCount
  | vout
  | witness
  | locktime
deriving DecidableEq, Repr

/-- The variables of `btc_tx_read`, apart from `pos`. -/
structure Reading where
  state : ReadState
  segwit : Bool
  txCnt : Nat
  tx : BtcTx

/-- `get_varint`: the value; its length is how far the position moves. -/
def getVarint : WireReader Unit Nat := do
  let first ← bytes 1
  if LittleEndian.decode first < 0xfd then pure (LittleEndian.decode first)
  else LittleEndian.decode <$> bytes 2

def getLe32 : WireReader Unit UInt32 :=
  (fun field => UInt32.ofNat (LittleEndian.decode field)) <$> bytes 4

def getLe64 : WireReader Unit UInt64 :=
  (fun field => UInt64.ofNat (LittleEndian.decode field)) <$> bytes 8

/-- `tmp = get_varint(&var, pData + tmp)`: the position stays.  `tmp` is an `int`, from `2^31` on
it points before the data. -/
def peekVarint (tmp : Nat) : WireReader Unit (Nat × Nat) := fun data pos =>
  if 2 ^ 31 ≤ tmp then .fault .outOfBounds
  else match getVarint data tmp with
    | .done var behind => .done (behind - tmp, var) pos
    | .refused left => .refused left
    | .fault reason => .fault reason

/-- `pos + need <= Len` in `uint32_t`; `need` contains `pos`. -/
def fits (need len : Nat) : Bool :=
  decide (need % 2 ^ 32 ≤ len)

/-- `utl_buf_alloccopy` when there is something to copy. -/
def readScript (var : Nat) : WireReader Unit Bytes :=
  readIf (var != 0) (bytes var) []

def readVin (tmp var : Nat) : WireReader Unit BtcVin := do
  let txid ← bytes 32
  let index ← getLe32
  skip tmp
  let script ← readScript var
  let sequence ← getLe32
  pure ⟨txid, index, script, [], sequence⟩

def readVout (tmp var : Nat) : WireReader Unit BtcVout := do
  let value ← getLe64
  skip tmp
  let script ← readScript var
  pure ⟨value, script⟩

/-- The items of a witness: one that does not fit is left as `malloc` made it. -/
def readItems : List Bytes → WireReader Unit (List Bytes)
  | [] => pure []
  | item :: items => do
      let var ← getVarint
      let pos ← position
      let len ← messageLength
      let item ← readIf (fits (pos + var + 4) len) (bytes var) item
      let items ← readItems items
      pure (item :: items)

def Reading.setVin (st : Reading) (vin : BtcVin) : Reading :=
  { st with txCnt := st.txCnt + 1, tx := { st.tx with vin := st.tx.vin.set st.txCnt vin } }

def Reading.setVout (st : Reading) (vout : BtcVout) : Reading :=
  { st with txCnt := st.txCnt + 1, tx := { st.tx with vout := st.tx.vout.set st.txCnt vout } }

def Reading.setWitness (st : Reading) (witness : List Bytes) : Reading :=
  { st with
    txCnt := st.txCnt + 1
    tx := { st.tx with
      vin := st.tx.vin.modify st.txCnt fun vin => { vin with witness := witness } } }

/-- After the outputs. -/
def Reading.endVout (st : Reading) : Reading :=
  { st with state := if st.segwit then .witness else .locktime, txCnt := 0 }

def Reading.afterVin (st : Reading) : Reading :=
  if st.tx.vin.length ≤ st.txCnt then { st with state := .voutCount } else st

def Reading.afterVout (st : Reading) : Reading :=
  if st.tx.vout.length ≤ st.txCnt then st.endVout else st

def Reading.afterWitness (st : Reading) : Reading :=
  if st.tx.vin.length ≤ st.txCnt then { st with state := .locktime } else st

def stepVin (st : Reading) : WireReader Unit Reading := do
  let pos ← position
  let len ← messageLength
  if fits (pos + 41 + 1 + 4) len then do
    let (tmp, var) ← peekVarint ((pos + 32 + 4) % 2 ^ 32)
    let st ← readIf (fits (pos + 40 + tmp + var + 1 + 4) len) (st.setVin <$> readVin tmp var) st
    pure st.afterVin
  else pure { st with state := .voutCount }

def stepVout (st : Reading) : WireReader Unit Reading := do
  let pos ← position
  let len ← messageLength
  if fits (pos + 9 + 4) len then do
    let (tmp, var) ← peekVarint ((pos + 8) % 2 ^ 32)
    let st ← readIf (fits (pos + 8 + tmp + var + 4) len) (st.setVout <$> readVout tmp var) st
    pure st.afterVout
  else pure st.endVout

def stepWitness (heap : Heap) (st : Reading) : WireReader Unit Reading := do
  let pos ← position
  let len ← messageLength
  if fits (pos + 4) len && decide (st.txCnt < st.tx.vin.length) then do
    let var ← getVarint
    let witness ← readItems ((List.range var).map heap.item)
    pure (st.setWitness witness).afterWitness
  else pure { st with state := .locktime }

/-- One turn of the loop of `btc_tx_read`. -/
def step (heap : Heap) (st : Reading) : WireReader Unit Reading :=
  match st.state with
  | .vinCount => do
      let var ← getVarint
      pure { st with
        state := if var = 0 then .voutCount else .vin
        tx := { st.tx with vin := (List.range var).map heap.vin } }
  | .vin => stepVin st
  | .voutCount => do
      let var ← getVarint
      let st := { st with tx := { st.tx with vout := (List.range var).map heap.vout } }
      pure (if var = 0 then st.endVout else { st with state := .vout, txCnt := 0 })
  | .vout => stepVout st
  | .witness => stepWitness heap st
  | .locktime => do
      let locktime ← getLe32
      pure { st with tx := { st.tx with locktime := locktime } }

/-- `while (pos < Len)`, for a number of turns; `none` when they are not enough.  A build with
`PTARM_DEBUG` also stops when the position has stood still too often. -/
def loop (heap : Heap) : Nat → Reading → WireReader Unit (Option BtcTx)
  | 0, _ => pure none
  | turns + 1, st => do
      let pos ← position
      let len ← messageLength
      if pos < len then do
        let st ← step heap st
        loop heap turns st
      else pure (some st.tx)

/-- The part of `btc_tx_read` before the loop. -/
def readHead (before : BtcTx) : WireReader Unit Reading := do
  atLeast 8 ()
  let version ← getLe32
  let data ← message
  let mark := data.getD 4 0
  let flag := data.getD 5 0
  refuseIf (mark == 0x00 && flag != 0x01) ()
  let segwit := mark == 0x00 && flag == 0x01
  skip (if segwit then 2 else 0)
  pure ⟨.vinCount, segwit, 0, { before with version := version.toInt32 }⟩

/-- `btc_tx_read` into `before`. -/
def btcTxRead (heap : Heap) (turns : Nat) (before : BtcTx) : WireReader Unit (Option BtcTx) := do
  let st ← readHead before
  loop heap turns st

/-- The loop in a build with `PTARM_DEBUG`: it ends as well when the position has stood still
more than five times. -/
def loopDebug (heap : Heap) : Nat → Nat → Nat → Reading → WireReader Unit (Option BtcTx)
  | 0, _, _, _ => pure none
  | turns + 1, prevPos, posCnt, st => do
      let pos ← position
      let len ← messageLength
      if pos < len then
        let posCnt := if prevPos = pos then posCnt + 1 else posCnt
        if prevPos = pos ∧ 5 < posCnt then pure (some st.tx)
        else do
          let st ← step heap st
          loopDebug heap turns pos posCnt st
      else pure (some st.tx)

/-- `btc_tx_read` in a build with `PTARM_DEBUG`. -/
def btcTxReadDebug (heap : Heap) (turns : Nat) (before : BtcTx) :
    WireReader Unit (Option BtcTx) := do
  let st ← readHead before
  let pos ← position
  loopDebug heap turns (pos - 1) 0 st

end TxSerial

end Ptarmigan
