/-
What a node makes of a transaction that spent the funding output: its commitment number
and, for a revoked commitment transaction of the peer, the scripts and witness scripts with
which its outputs are taken (`ln_close_remoterevoked`).
-/
import Ptarmigan.CommitTx

namespace Ptarmigan

/-- `calc_commit_num`. -/
def calcCommitNum (self : LnSelf) (tx : BtcTx) : UInt64 :=
  ((tx.sequence &&& 0xffffff).toUInt64 <<< 24 ||| (tx.locktime &&& 0xffffff).toUInt64) ^^^
    self.obscured

/-- `BTC_SZ_WITPROG_P2WPKH`. -/
def btcSzWitprogP2wpkh : Nat := 22

/-- `LN_RCLOSE_IDX_TOLOCAL`. -/
def lnRcloseIdxTolocal : Nat := 0

/-- `LN_RCLOSE_IDX_TOREMOTE`. -/
def lnRcloseIdxToremote : Nat := 1

/-- `LN_RCLOSE_IDX_HTLC`. -/
def lnRcloseIdxHtlc : Nat := 2

/-- The fields `revoked_*` and `p_revoked_*` of `ln_self_t`, which `ln_db_revtx_save` saves.
The three arrays have `num` entries; a freshly allocated one is empty. -/
structure RevokedClose where
  cnt : UInt16
  num : UInt16
  vout : Nat → Bytes := fun _ => []
  wit : Nat → Bytes := fun _ => []
  type : Nat → Option LnHtlctype := fun _ => none
  sec : Bytes
  chk : UInt32 := 0

/-- What `ln_db_phash_search` finds for an output script. -/
structure PhashEntry where
  payhash : Bytes
  type : LnHtlctype
  expiry : UInt32
deriving DecidableEq, Repr

/-- The witness script of an HTLC output. -/
def PhashEntry.script (crypto : Crypto) (keys : Scriptkeys) (entry : PhashEntry) : Bytes :=
  (lnScriptHtlcinfoScript crypto keys
    { type := entry.type
      addHtlcIdx := 0
      expiry := entry.expiry
      amountMsat := 0
      preimageHash := entry.payhash }).script

/-- The state of the loop of `ln_close_remoterevoked`, with the indices of the arrays it has
written to. -/
structure RevokedBuild where
  revoked : RevokedClose
  htlcCnt : Nat
  writes : List Nat

/-- Write an entry of the arrays. -/
def RevokedBuild.put (build : RevokedBuild) (index : Nat) (vout wit : Bytes)
    (type : Option LnHtlctype) : RevokedBuild :=
  { build with
    revoked := { build.revoked with
      vout := Function.update build.revoked.vout index vout
      wit := Function.update build.revoked.wit index wit
      type := Function.update build.revoked.type index type }
    writes := build.writes ++ [index] }

/-- The body of that loop, for the script of an output. -/
def RevokedBuild.addVout (crypto : Crypto) (keys : Scriptkeys)
    (phashSearch : Bytes → Option PhashEntry) (build : RevokedBuild) (script : Bytes) :
    RevokedBuild :=
  if script.length = btcSzWitprogP2wpkh then
    build.put lnRcloseIdxToremote script [] (build.revoked.type lnRcloseIdxToremote)
  else if script = build.revoked.vout lnRcloseIdxTolocal then build
  else
    match phashSearch script with
    | some entry =>
        let wit := entry.script crypto keys
        { build.put (lnRcloseIdxHtlc + build.htlcCnt) (crypto.p2wsh wit).bytes wit
            (some entry.type) with
          htlcCnt := build.htlcCnt + 1 }
    | none => build

/-- The outputs that are to be taken back: all but those to a public key hash. -/
def revokedVouts (tx : BtcTx) : List Bytes :=
  (tx.vout.map Prod.snd).filter fun script => script.length != btcSzWitprogP2wpkh

/-- The keys with which the scripts of a revoked commitment transaction are rebuilt: both
per-commitment secrets are those of its number. -/
def LnSelf.withRevokedKeys (crypto : Crypto) (self : LnSelf) (secret : Bytes) (index : UInt64) :
    LnSelf :=
  let own := lnDerkeyCreateSecret crypto self.privData.storageSeed index
  LnSelf.updateScriptkeys crypto { self with
    privData := { self.privData with priv := { self.privData.priv with perCommit := own } }
    fundingLocal := { self.fundingLocal with
      pubkeys := { self.fundingLocal.pubkeys with perCommit := crypto.pub own } }
    fundingRemote := { self.fundingRemote with
      pubkeys := { self.fundingRemote.pubkeys with perCommit := crypto.pub secret } } }

/-- The arrays with the to_local entry, which is always made. -/
def RevokedBuild.start (crypto : Crypto) (self : LnSelf) (cnt : UInt16) (secret : Bytes) :
    RevokedBuild :=
  let keys := self.fundingRemote.scriptpubkeys
  let wit := lnScriptCreateTolocal keys.revocation keys.delayed self.commitLocal.toSelfDelay
  let fresh : RevokedBuild := ⟨{ cnt, num := 1 + cnt, sec := secret }, 0, []⟩
  fresh.put lnRcloseIdxTolocal (crypto.p2wsh wit).bytes wit none

/-- `ln_close_remoterevoked`; `none` is the `abort` when there is no secret. -/
def lnCloseRemoterevoked (crypto : Crypto) (phashSearch : Bytes → Option PhashEntry)
    (self : LnSelf) (tx : BtcTx) : Option (LnSelf × RevokedBuild) :=
  let cnt := (revokedVouts tx).length.toUInt16
  let index := lnSecindexInit - calcCommitNum self tx
  (lnDerkeyStorageGetSecret crypto self.peerStorage index).map fun secret =>
    let self := self.withRevokedKeys crypto secret index
    (self, (tx.vout.map Prod.snd).foldl
      (RevokedBuild.addVout crypto self.fundingRemote.scriptpubkeys phashSearch)
      (.start crypto self cnt secret))

end Ptarmigan
