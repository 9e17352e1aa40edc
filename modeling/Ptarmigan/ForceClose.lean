/-
What a node prepares when a commitment transaction has been broadcast
(`ln_close_force_t`): the transactions that spend its outputs, for the own and for
the remote commitment transaction, and how the monitor reads them.
-/
import Ptarmigan.Close

namespace Ptarmigan

/-- An entry of `p_tx`: a transaction with the witness of its input; for an HTLC its
output is marked with the type. -/
structure CloseTx where
  tx : BtcTx
  opt : Option LnHtlctype := none
  witness : List Bytes
deriving DecidableEq, Repr

/-- An HTLC entry: `p_tx[LN_CLOSE_IDX_HTLC + k]`, which is left empty for a received
HTLC without preimage, and `p_htlc_idx[LN_CLOSE_IDX_HTLC + k]`. -/
structure CloseEntry where
  tx : Option CloseTx
  htlcIdx : Nat
deriving DecidableEq, Repr

/-- `ln_close_force_t`, for which `num` transactions have been allocated. -/
structure LnCloseForce where
  num : Nat
  commit : Committx
  toLocal : Option CloseTx
  toRemote : Option CloseTx
  htlcs : List CloseEntry

/-- `LN_CLOSE_IDX_HTLC`. -/
def lnCloseIdxHtlc : Nat := 3

/-- The position in `pp_htlcinfo` of the HTLC in the slot, which is what the `opt` field of
its output holds. -/
def CommitBuild.htlcPos (build : CommitBuild) (idx : HtlcIdx) : Nat :=
  (build.amount.htlcinfo.map LnScriptHtlcinfo.addHtlcIdx).idxOf idx

/-- The first output of a kind, with its index. -/
def findVout (opt : VoutOpt) (vout : List BtcVout) : Option (Nat × UInt64) :=
  vout.zipIdx.findSome? fun (out, index) =>
    if out.opt = opt then some (index, out.value) else none

/-- `create_basetx`: nothing is paid yet, the entry is kept for the wallet. -/
def createBasetx (value : UInt64) (sequence : UInt32) (txid : Bytes) (index : Nat)
    (witness : List Bytes) : CloseTx where
  tx := { vinTxid := txid, vinIndex := index, sequence, vout := [(value, [])], locktime := 0 }
  witness

/-- `get_secret`: the private key of a base point at a per-commitment point. -/
def getSecret (crypto : Crypto) (base priv point : Bytes) : Bytes :=
  crypto.derkeyPrivkey base point priv

/-! ### The own commitment transaction -/

/-- The HTLC timeout or success transaction of `create_to_local_spenthtlc`, with both
signatures. -/
def localHtlcTx (crypto : Crypto) (searchPreimage : Bytes → Option Bytes) (self : LnSelf)
    (out : Nat × UInt64 × LnScriptHtlcinfo) (spend : BtcTx × Bytes) : CloseTx :=
  let info := out.2.2
  let key := getSecret crypto self.fundingLocal.pubkeys.htlc self.privData.priv.htlc
    self.fundingLocal.pubkeys.perCommit
  let preimage :=
    match info.type with
    | .received => (searchPreimage (self.cnlAddHtlc info.addHtlcIdx).paymentSha256).getD []
    | .offered => []
  { tx := spend.1
    opt := some info.type
    witness := [[], spend.2, crypto.sign key (crypto.sighash spend.1 out.2.1 info.script),
      preimage, info.script] }

/-- The entries that `create_to_local_spent` fills. -/
def UnilateralTx.entries (crypto : Crypto) (searchPreimage : Bytes → Option Bytes)
    (self : LnSelf) (unilateral : UnilateralTx) : List CloseEntry :=
  unilateral.htlcs.map fun close =>
    { tx := close.spend.map (localHtlcTx crypto searchPreimage self close.out)
      htlcIdx := unilateral.build.htlcPos close.out.2.2.addHtlcIdx }

/-- What `ln_close_create_unilateral_tx` returns. -/
def lnCloseUnilateral (crypto : Crypto) (searchPreimage : Bytes → Option Bytes) (self : LnSelf) :
    Option LnCloseForce :=
  let prev := self.withPrevKeys crypto
  (lnCloseCreateUnilateralTx crypto searchPreimage self).1.map fun unilateral =>
    let txid := crypto.txid unilateral.build.committx.tx
    let key := getSecret crypto prev.fundingLocal.pubkeys.delayed prev.privData.priv.delayed
      prev.fundingLocal.pubkeys.perCommit
    { num := lnCloseIdxHtlc + self.commitLocal.htlcNum.toNat
      commit := unilateral.build.committx
      toLocal := (findVout .tolocal unilateral.build.committx.vout).map fun (index, value) =>
        createBasetx value self.commitRemote.toSelfDelay.toUInt32 txid index
          [key, [], unilateral.build.bufWs]
      toRemote := none
      htlcs := unilateral.entries crypto searchPreimage prev }

/-! ### The remote commitment transaction -/

/-- `create_to_remote_spenthtlc` while closing; `none` when the signature cannot be made.
What the peer offered is taken with the preimage, or kept signed as if it were an own HTLC
timeout transaction; what it received can be taken back after the timeout. -/
def createToRemoteSpenthtlcClose (crypto : Crypto) (searchPreimage : Bytes → Option Bytes)
    (self : LnSelf) (build : CommitBuild) (txid : Bytes)
    (out : Nat × UInt64 × LnScriptHtlcinfo) : Option CloseTx :=
  let info := out.2.2
  let tx := htlctxOf crypto build.feeinfo build.bufWs txid out
  let key := getSecret crypto self.fundingLocal.pubkeys.htlc self.privData.priv.htlc
    self.fundingRemote.pubkeys.perCommit
  let bare (locktime : UInt32) (unlock : Bytes) : CloseTx :=
    { tx := { tx with vout := tx.vout.map fun vout => (vout.1, []), locktime }
      opt := some info.type
      witness := [key, unlock, info.script] }
  match info.type with
  | .received => some (bare info.expiry [])
  | .offered =>
      match searchPreimage (self.cnlAddHtlc info.addHtlcIdx).paymentSha256 with
      | some preimage => some (bare 0 preimage)
      | none =>
          (calcSighashP2wsh crypto tx out.2.1 info.script).map fun sighash =>
            { tx
              opt := some info.type
              witness := [[], self.commitLocal.signature, crypto.sign key sighash, [],
                info.script] }

/-- `create_to_remote` while closing, with the commit data it writes to. -/
def createToRemoteClose (crypto : Crypto) (searchPreimage : Bytes → Option Bytes)
    (self : LnSelf) (commit : LnCommitData) : Option LnCloseForce × LnCommitData :=
  let build := buildToRemote crypto self commit.commitNum commit.dustLimitSat
  match signCommittx crypto self build.committx.tx with
  | none => (none, commit)
  | some signature =>
      let txid := crypto.txid build.committx.tx
      let outs := htlcVouts build.committx.vout
      let spend := createToRemoteSpenthtlcClose crypto searchPreimage self build txid
      let key := getSecret crypto self.fundingLocal.pubkeys.payment self.privData.priv.payment
        self.fundingRemote.pubkeys.perCommit
      let htlcs := outs.mapM fun out => (spend out).map fun tx =>
        ({ tx := some tx, htlcIdx := build.htlcPos out.2.2.addHtlcIdx } : CloseEntry)
      (htlcs.map fun htlcs =>
          { num := lnCloseIdxHtlc + commit.htlcNum.toNat
            commit := build.committx
            toLocal := none
            toRemote := (findVout .toremote build.committx.vout).map fun (index, value) =>
              createBasetx value 0 txid index [key, crypto.pub key]
            htlcs },
        { commit with
          txid
          signature
          htlcNum := (outs.takeWhile fun out => (spend out).isSome).length.toUInt16 })

/-- `ln_close_create_tx`: build with the previous keys, then put the keys back. -/
def lnCloseCreateTx (crypto : Crypto) (searchPreimage : Bytes → Option Bytes)
    (self : LnSelf) : Option LnCloseForce × LnSelf :=
  let (result, commit) := createToRemoteClose crypto searchPreimage (self.withPrevKeys crypto)
    self.commitRemote
  (result, LnSelf.updateScriptkeys crypto { self with
    fundingLocal := { self.fundingLocal with
      pubkeys := { self.fundingLocal.pubkeys with
        perCommit := crypto.pub self.privData.priv.perCommit } }
    commitRemote := commit })

/-! ### What the monitor reads -/

/-- `ln_update_add_htlc`. -/
def lnUpdateAddHtlc (self : LnSelf) (htlcIdx : Nat) : Option LnUpdateAddHtlc :=
  if hlt : htlcIdx < lnHtlcMax then some (self.cnlAddHtlc ⟨htlcIdx, hlt⟩) else none

end Ptarmigan
