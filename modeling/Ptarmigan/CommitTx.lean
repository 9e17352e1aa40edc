/-
Commitment transactions: which HTLC slots the local and the remote one hold, what
balances they leave, their outputs and fees, and the signatures over them
(`create_to_local`, `create_to_remote` and the part of `ln_script` they use).
-/
import Ptarmigan.Channel

namespace Ptarmigan

/-- `LN_HTLCTYPE_OFFERED` / `RECEIVED`, from the view of the transaction's holder. -/
inductive LnHtlctype
  | offered
  | received
deriving DecidableEq, Repr

/-- `ln_script_htlcinfo_t`. -/
structure LnScriptHtlcinfo where
  type : LnHtlctype
  addHtlcIdx : HtlcIdx
  expiry : UInt32
  amountMsat : UInt64
  preimageHash : Bytes
  script : Bytes := []
deriving DecidableEq, Repr

/-- The opt field of an output: which part of the channel it pays.  The source
stores the position of the HTLC in `pp_htlcinfo`. -/
inductive VoutOpt
  | tolocal
  | toremote
  | htlc (info : LnScriptHtlcinfo)
deriving DecidableEq, Repr

/-- `btc_vout_t`. -/
structure BtcVout where
  value : UInt64
  script : ScriptPk
  opt : VoutOpt
deriving DecidableEq, Repr

/-- What the transaction carries of an output. -/
def BtcVout.wire (vout : BtcVout) : UInt64 × Bytes :=
  (vout.value, vout.script.bytes)

/-! ### Selection of HTLCs -/

/-- How a commitment transaction reads the flags of a slot: the predicates of its
side, and how it types what the own side offered and received. -/
structure HtlcSelect where
  addOffer : LnHtlcflag → Bool
  fulfillOffer : LnHtlcflag → Bool
  addRecv : LnHtlcflag → Bool
  fulfillRecv : LnHtlcflag → Bool
  offerType : LnHtlctype
  recvType : LnHtlctype

/-- The HTLCs collected so far and the two balances, the own one first. -/
structure HtlcinfoAmount where
  htlcinfo : List LnScriptHtlcinfo
  selfMsat : UInt64
  peerMsat : UInt64
deriving DecidableEq, Repr

namespace HtlcSelect

variable (select : HtlcSelect)

/-- The slot becomes an output. -/
def adds (htlc : LnUpdateAddHtlc) : Bool :=
  htlc.enable && (select.addOffer htlc.flag || select.addRecv htlc.flag)

/-- What the own side offered leaves the own balance. -/
def takeOffer (htlc : LnUpdateAddHtlc) (acc : HtlcinfoAmount) : HtlcinfoAmount :=
  if select.addOffer htlc.flag || select.fulfillOffer htlc.flag then
    { acc with
      selfMsat := acc.selfMsat - htlc.amountMsat
      peerMsat :=
        if select.addOffer htlc.flag then acc.peerMsat else acc.peerMsat + htlc.amountMsat }
  else acc

/-- What the own side received leaves the balance of the peer. -/
def takeRecv (htlc : LnUpdateAddHtlc) (acc : HtlcinfoAmount) : HtlcinfoAmount :=
  if select.addRecv htlc.flag || select.fulfillRecv htlc.flag then
    { acc with
      peerMsat := acc.peerMsat - htlc.amountMsat
      selfMsat :=
        if select.addRecv htlc.flag then acc.selfMsat else acc.selfMsat + htlc.amountMsat }
  else acc

/-- The loop body of `create_to_local_htlcinfo_amount` and
`create_to_remote_htlcinfo`. -/
def addSlot (slots : Slots) (acc : HtlcinfoAmount) (idx : HtlcIdx) : HtlcinfoAmount :=
  let htlc := slots idx
  if htlc.enable then
    let acc := select.takeRecv htlc (select.takeOffer htlc acc)
    if select.addOffer htlc.flag || select.addRecv htlc.flag then
      { acc with
        htlcinfo := acc.htlcinfo ++
          [{ type := if htlc.flag.addhtlc = .recv then select.recvType else select.offerType
             addHtlcIdx := idx
             expiry := htlc.cltvExpiry
             amountMsat := htlc.amountMsat
             preimageHash := htlc.paymentSha256 }] }
    else acc
  else acc

def htlcinfoAmount (slots : Slots) (selfMsat peerMsat : UInt64) : HtlcinfoAmount :=
  (List.finRange lnHtlcMax).foldl (select.addSlot slots) ⟨[], selfMsat, peerMsat⟩

end HtlcSelect

def localSelect : HtlcSelect where
  addOffer := LnHtlcflag.enableLocalAddhtlcOffer
  fulfillOffer := LnHtlcflag.enableLocalFulfillOffer
  addRecv := LnHtlcflag.enableLocalAddhtlcRecv
  fulfillRecv := LnHtlcflag.enableLocalFulfillRecv
  offerType := .offered
  recvType := .received

/-- The remote transaction sees offered and received the other way round. -/
def remoteSelect : HtlcSelect where
  addOffer := LnHtlcflag.enableRemoteAddhtlcOffer
  fulfillOffer := LnHtlcflag.enableRemoteFulfillOffer
  addRecv := LnHtlcflag.enableRemoteAddhtlcRecv
  fulfillRecv := LnHtlcflag.enableRemoteFulfillRecv
  offerType := .received
  recvType := .offered

/-- `create_to_local_htlcinfo_amount`. -/
def createToLocalHtlcinfoAmount (self : LnSelf) : HtlcinfoAmount :=
  localSelect.htlcinfoAmount self.cnlAddHtlc self.ourMsat self.theirMsat

/-- `create_to_remote_htlcinfo`. -/
def createToRemoteHtlcinfo (self : LnSelf) : HtlcinfoAmount :=
  remoteSelect.htlcinfoAmount self.cnlAddHtlc self.ourMsat self.theirMsat

/-! ### Scripts -/

/-- `utl_push_value`: a number as the shortest script push. -/
def utlPushValue (value : UInt64) : Bytes :=
  let byte (pos : UInt64) : UInt8 := (value >>> (8 * pos)).toUInt8
  if value = 0 then [0x00]
  else if value ≤ 16 then [0x50 + value.toUInt8]
  else if value < 0x80 then [0x01, byte 0]
  else if value < 0x8000 then [0x02, byte 0, byte 1]
  else if value < 0x800000 then [0x03, byte 0, byte 1, byte 2]
  else if value < 0x80000000 then [0x04, byte 0, byte 1, byte 2, byte 3]
  else if value < 0x8000000000 then [0x05, byte 0, byte 1, byte 2, byte 3, byte 4]
  else []

/-- `ln_script_create_tolocal`. -/
def lnScriptCreateTolocal (localRevoKey localDelayedKey : Bytes) (localDelay : UInt16) :
    Bytes :=
  [0x63, 0x21] ++ localRevoKey ++ [0x67] ++ utlPushValue localDelay.toUInt64 ++
    [0xb2, 0x75, 0x21] ++ localDelayedKey ++ [0x68, 0xac]

/-- `create_script_offered`. -/
def createScriptOffered (crypto : Crypto)
    (localHtlcKey localRevoKey localPreImageHash160 remoteHtlcKey : Bytes) : Bytes :=
  [0x76, 0xa9, 0x14] ++ crypto.hash160 localRevoKey ++ [0x87, 0x63, 0xac, 0x67, 0x21] ++
    remoteHtlcKey ++ [0x7c, 0x82, 0x01, 0x20, 0x87, 0x64, 0x75, 0x52, 0x7c, 0x21] ++
    localHtlcKey ++ [0x52, 0xae, 0x67, 0xa9, 0x14] ++ localPreImageHash160 ++
    [0x88, 0xac, 0x68, 0x68]

/-- `create_script_received`. -/
def createScriptReceived (crypto : Crypto)
    (localHtlcKey localRevoKey remoteHtlcKey remotePreImageHash160 : Bytes)
    (remoteExpiry : UInt32) : Bytes :=
  [0x76, 0xa9, 0x14] ++ crypto.hash160 localRevoKey ++ [0x87, 0x63, 0xac, 0x67, 0x21] ++
    remoteHtlcKey ++ [0x7c, 0x82, 0x01, 0x20, 0x87, 0x63, 0xa9, 0x14] ++
    remotePreImageHash160 ++ [0x88, 0x52, 0x7c, 0x21] ++ localHtlcKey ++
    [0x52, 0xae, 0x67, 0x75] ++ utlPushValue remoteExpiry.toUInt64 ++
    [0xb1, 0x75, 0xac, 0x68, 0x68]

/-- `ln_script_htlcinfo_script`. -/
def lnScriptHtlcinfoScript (crypto : Crypto) (keys : Scriptkeys)
    (info : LnScriptHtlcinfo) : LnScriptHtlcinfo :=
  let hash160 := crypto.ripemd160 info.preimageHash
  { info with
    script :=
      match info.type with
      | .offered =>
          createScriptOffered crypto keys.localHtlckey keys.revocation hash160
            keys.remoteHtlckey
      | .received =>
          createScriptReceived crypto keys.localHtlckey keys.revocation
            keys.remoteHtlckey hash160 info.expiry }

/-- The 2-of-2 witness script. -/
def RedeemFund.script (redeem : RedeemFund) : Bytes :=
  [0x52, 0x21] ++ redeem.pub1 ++ [0x21] ++ redeem.pub2 ++ [0x52, 0xae]

/-- The script of the output that a witness script locks. -/
def Crypto.p2wsh (crypto : Crypto) (witScript : Bytes) : ScriptPk :=
  .p2wsh (crypto.sha256 witScript)

/-! ### Fees and outputs -/

/-- `ln_script_feeinfo_t`. -/
structure LnScriptFeeinfo where
  dustLimitSatoshi : UInt64
  htlcSuccess : UInt64
  htlcTimeout : UInt64
  commit : UInt64
deriving DecidableEq, Repr

/-- The fee of the transaction that spends an HTLC output. -/
def LnScriptFeeinfo.htlcFee (feeinfo : LnScriptFeeinfo) : LnHtlctype → UInt64
  | .offered => feeinfo.htlcTimeout
  | .received => feeinfo.htlcSuccess

/-- The HTLC is worth an output. -/
def LnScriptFeeinfo.untrimmed (feeinfo : LnScriptFeeinfo) (info : LnScriptHtlcinfo) : Bool :=
  decide (info.amountMsat / 1000 ≥ feeinfo.dustLimitSatoshi + feeinfo.htlcFee info.type)

/-- `ln_script_fee_calc`. -/
def lnScriptFeeCalc (feeratePerKw : UInt32) (dustLimitSatoshi : UInt64)
    (htlcinfo : List LnScriptHtlcinfo) : LnScriptFeeinfo :=
  let feerate := feeratePerKw.toUInt64
  let feeinfo : LnScriptFeeinfo :=
    { dustLimitSatoshi
      htlcSuccess := 703 * feerate / 1000
      htlcTimeout := 663 * feerate / 1000
      commit := 724 }
  let commit := htlcinfo.foldl
    (fun commit info => if feeinfo.untrimmed info then commit + 172 else commit)
    feeinfo.commit
  { feeinfo with commit := commit * feerate / 1000 }

/-- `ln_script_committx_t`. -/
structure LnScriptCommittx where
  fundTxid : Bytes
  fundTxidIndex : UInt16
  fundSatoshi : UInt64
  fundScript : Bytes
  localSatoshi : UInt64
  localScript : Bytes
  remoteSatoshi : UInt64
  remotePubkey : Bytes
  obscured : UInt64
  feeinfo : LnScriptFeeinfo
  htlcinfo : List LnScriptHtlcinfo

/-- A commitment transaction with its outputs still tagged. -/
structure Committx where
  vout : List BtcVout
  tx : BtcTx
deriving DecidableEq, Repr

/-- The outputs of `ln_script_committx_create`, before BIP69. -/
def LnScriptCommittx.outputs (crypto : Crypto) (cmt : LnScriptCommittx) (isLocal : Bool) :
    List BtcVout :=
  let feeLocal := if isLocal then cmt.feeinfo.commit else 0
  let feeRemote := if isLocal then 0 else cmt.feeinfo.commit
  let remote : List BtcVout :=
    if cmt.remoteSatoshi ≥ cmt.feeinfo.dustLimitSatoshi + feeRemote then
      [⟨cmt.remoteSatoshi - feeRemote, .p2wpkh (crypto.hash160 cmt.remotePubkey), .toremote⟩]
    else []
  let toLocal : List BtcVout :=
    if cmt.localSatoshi ≥ cmt.feeinfo.dustLimitSatoshi + feeLocal then
      [⟨cmt.localSatoshi - feeLocal, crypto.p2wsh cmt.localScript, .tolocal⟩]
    else []
  let htlcs : List BtcVout := (cmt.htlcinfo.filter cmt.feeinfo.untrimmed).map fun info =>
    ⟨info.amountMsat / 1000, crypto.p2wsh info.script, .htlc info⟩
  remote ++ toLocal ++ htlcs

/-- The comparison of two outputs in `btc_util_sort_bip69`. -/
def BtcVout.gt (vout vout' : BtcVout) : Bool :=
  bip69Gt vout.value vout'.value vout.script vout'.script

/-- `ln_script_committx_create` without the signature. -/
def lnScriptCommittxCreate (crypto : Crypto) (cmt : LnScriptCommittx) (isLocal : Bool) :
    Committx :=
  let vout := ExchangeSort.sort BtcVout.gt (cmt.outputs crypto isLocal)
  { vout
    tx :=
      { vinTxid := cmt.fundTxid
        vinIndex := cmt.fundTxidIndex.toNat
        sequence := (0x80000000 : UInt32) ||| (cmt.obscured >>> 24 &&& 0xffffff).toUInt32
        vout := vout.map BtcVout.wire
        locktime := (0x20000000 : UInt32) ||| (cmt.obscured &&& 0xffffff).toUInt32 } }

/-- `btc_util_calc_sighash_p2wsh`. -/
def calcSighashP2wsh (crypto : Crypto) (tx : BtcTx) (value : UInt64) (witScript : Bytes) :
    Option Bytes :=
  if tx.isValid then some (crypto.sighash tx value witScript) else none

/-- `ln_script_htlctx_create`. -/
def lnScriptHtlctxCreate (crypto : Crypto) (value : UInt64) (script : Bytes)
    (type : LnHtlctype) (cltvExpiry : UInt32) (txid : Bytes) (index : Nat) : BtcTx :=
  { vinTxid := txid
    vinIndex := index
    sequence := 0
    vout := [(value, (crypto.p2wsh script).bytes)]
    locktime :=
      match type with
      | .received => 0
      | .offered => cltvExpiry }

/-- The HTLC outputs of a sorted commitment transaction, each with its output
index: what the loops of `create_to_local_spent` and `create_to_remote_spent`
work on. -/
def htlcVouts (vout : List BtcVout) : List (Nat × UInt64 × LnScriptHtlcinfo) :=
  vout.zipIdx.filterMap fun (out, index) =>
    match out.opt with
    | .htlc info => some (index, out.value, info)
    | .tolocal => none
    | .toremote => none

/-- The transaction that spends an HTLC output of the commitment transaction with
the given id. -/
def htlctxOf (crypto : Crypto) (feeinfo : LnScriptFeeinfo) (bufWs txid : Bytes)
    (out : Nat × UInt64 × LnScriptHtlcinfo) : BtcTx :=
  lnScriptHtlctxCreate crypto (out.2.1 - feeinfo.htlcFee out.2.2.type) bufWs out.2.2.type
    out.2.2.expiry txid out.1

/-! ### The local commitment transaction -/

/-- A commitment transaction together with what its spenders need. -/
structure CommitBuild where
  amount : HtlcinfoAmount
  feeinfo : LnScriptFeeinfo
  bufWs : Bytes
  committx : Committx

/-- Steps 1 to 3 of `create_to_local`, up to the signature. -/
def buildToLocal (crypto : Crypto) (self : LnSelf) (commitNum : UInt64)
    (toSelfDelay : UInt16) (dustLimitSat : UInt64) : CommitBuild :=
  let keys := self.fundingLocal.scriptpubkeys
  let bufWs := lnScriptCreateTolocal keys.revocation keys.delayed toSelfDelay
  let amount := createToLocalHtlcinfoAmount self
  let htlcinfo := amount.htlcinfo.map (lnScriptHtlcinfoScript crypto keys)
  let feeinfo := lnScriptFeeCalc self.feeratePerKw dustLimitSat htlcinfo
  let committx := lnScriptCommittxCreate crypto
    { fundTxid := self.fundingLocal.txid
      fundTxidIndex := self.fundingLocal.txindex
      fundSatoshi := self.fundingSat
      fundScript := self.redeemFund.script
      localSatoshi := amount.selfMsat / 1000
      localScript := bufWs
      remoteSatoshi := amount.peerMsat / 1000
      remotePubkey := keys.remotekey
      obscured := self.obscured ^^^ commitNum
      feeinfo
      htlcinfo }
    self.isFunder
  ⟨amount, feeinfo, bufWs, committx⟩

/-- `create_to_local_sign_verify`: both signatures against the keys of the 2-of-2
script, which must be the script of the funding output. -/
def createToLocalSignVerify (crypto : Crypto) (self : LnSelf) (tx : BtcTx) (bufSig : Bytes) :
    Bool :=
  match calcSighashP2wsh crypto tx self.fundingSat self.redeemFund.script with
  | none => false
  | some sighash =>
      let sig1 := if self.keyFundSortAsc then bufSig else self.commitLocal.signature
      let sig2 := if self.keyFundSortAsc then self.commitLocal.signature else bufSig
      crypto.sha256 self.redeemFund.script == self.txFundingScript &&
        crypto.verify sig1 sighash self.redeemFund.pub1 &&
        crypto.verify sig2 sighash self.redeemFund.pub2

/-- `create_to_local_htlcverify`. -/
def createToLocalHtlcverify (crypto : Crypto) (self : LnSelf) (tx : BtcTx)
    (htlcSig script : Bytes) (amount : UInt64) : Bool :=
  match calcSighashP2wsh crypto tx amount script with
  | none => false
  | some sighash =>
      crypto.verify htlcSig sighash self.fundingLocal.scriptpubkeys.remoteHtlckey

/-- The verifying loop of `create_to_local_spent`: each signature is stored in its
slot as soon as it verifies; the first that does not ends the loop. -/
def createToLocalSpentVerify (crypto : Crypto) (self : LnSelf) (build : CommitBuild)
    (htlcSigs : List Bytes) :
    List (Nat × UInt64 × LnScriptHtlcinfo) → Nat → Slots → Bool × Nat × Slots
  | [], htlcNum, slots => (true, htlcNum, slots)
  | out :: rest, htlcNum, slots =>
      let sig := htlcSigs.getD htlcNum []
      let tx := htlctxOf crypto build.feeinfo build.bufWs self.commitLocal.txid out
      if createToLocalHtlcverify crypto self tx sig out.2.2.script out.2.1 then
        let idx := out.2.2.addHtlcIdx
        createToLocalSpentVerify crypto self build htlcSigs rest (htlcNum + 1)
          (Function.update slots idx { slots idx with signature := sig })
      else (false, htlcNum, slots)

/-- `create_to_local_spent` for a received `commitment_signed`.  The number of
signatures is passed on as a `uint8_t`. -/
def createToLocalSpent (crypto : Crypto) (self : LnSelf) (build : CommitBuild)
    (htlcSigs : List Bytes) : Bool × LnSelf :=
  let outs := htlcVouts build.committx.vout
  let htlcSigsNum := htlcSigs.length % 256
  let (ret, htlcNum, slots) :=
    if htlcSigsNum ≠ 0 then
      createToLocalSpentVerify crypto self build htlcSigs outs 0 self.cnlAddHtlc
    else (true, outs.length, self.cnlAddHtlc)
  (ret && htlcNum == htlcSigsNum,
    { self with
      cnlAddHtlc := slots
      commitLocal := { self.commitLocal with htlcNum := htlcNum.toUInt16 } })

/-- The own signature over a commitment transaction. -/
def signCommittx (crypto : Crypto) (self : LnSelf) (tx : BtcTx) : Option Bytes :=
  (calcSighashP2wsh crypto tx self.fundingSat self.redeemFund.script).map
    (crypto.sign self.privData.priv.funding)

/-- `create_to_local` for a received `commitment_signed`: the new state carries the
transaction id once the signature has verified, whatever the HTLC signatures say. -/
def createToLocal (crypto : Crypto) (self : LnSelf) (htlcSigs : List Bytes)
    (commitNum : UInt64) (toSelfDelay : UInt16) (dustLimitSat : UInt64) : Bool × LnSelf :=
  let build := buildToLocal crypto self commitNum toSelfDelay dustLimitSat
  match signCommittx crypto self build.committx.tx with
  | none => (false, self)
  | some bufSig =>
      if createToLocalSignVerify crypto self build.committx.tx bufSig then
        let self := { self with
          commitLocal := { self.commitLocal with txid := crypto.txid build.committx.tx } }
        createToLocalSpent crypto self build htlcSigs
      else (false, self)

/-! ### The remote commitment transaction -/

/-- Steps 1 to 3 of `create_to_remote`, up to the signature. -/
def buildToRemote (crypto : Crypto) (self : LnSelf) (commitNum : UInt64)
    (dustLimitSat : UInt64) : CommitBuild :=
  let keys := self.fundingRemote.scriptpubkeys
  let bufWs := lnScriptCreateTolocal keys.revocation keys.delayed self.commitLocal.toSelfDelay
  let amount := createToRemoteHtlcinfo self
  let htlcinfo := amount.htlcinfo.map (lnScriptHtlcinfoScript crypto keys)
  let feeinfo := lnScriptFeeCalc self.feeratePerKw dustLimitSat htlcinfo
  let committx := lnScriptCommittxCreate crypto
    { fundTxid := self.fundingLocal.txid
      fundTxidIndex := self.fundingLocal.txindex
      fundSatoshi := self.fundingSat
      fundScript := self.redeemFund.script
      localSatoshi := amount.peerMsat / 1000
      localScript := bufWs
      remoteSatoshi := amount.selfMsat / 1000
      remotePubkey := keys.remotekey
      obscured := self.obscured ^^^ commitNum
      feeinfo
      htlcinfo }
    (!self.isFunder)
  ⟨amount, feeinfo, bufWs, committx⟩

/-- `create_to_remote_spenthtlc` for a `commitment_signed`: the signature over the
transaction that spends one HTLC output. -/
def createToRemoteSpenthtlc (crypto : Crypto) (self : LnSelf) (build : CommitBuild)
    (txid : Bytes) (out : Nat × UInt64 × LnScriptHtlcinfo) : Option Bytes :=
  let tx := htlctxOf crypto build.feeinfo build.bufWs txid out
  let htlckey := crypto.derkeyPrivkey self.fundingLocal.pubkeys.htlc
    self.fundingRemote.pubkeys.perCommit self.privData.priv.htlc
  (calcSighashP2wsh crypto tx out.2.1 out.2.2.script).map (crypto.sign htlckey)

/-- `create_to_remote` for a `commitment_signed`: what it writes to the commit data
and the HTLC signatures. -/
def createToRemote (crypto : Crypto) (self : LnSelf) (commit : LnCommitData)
    (commitNum : UInt64) : Option (LnCommitData × List Bytes) :=
  let build := buildToRemote crypto self commitNum commit.dustLimitSat
  match signCommittx crypto self build.committx.tx with
  | none => none
  | some bufSig =>
      let txid := crypto.txid build.committx.tx
      let outs := htlcVouts build.committx.vout
      match outs.mapM (createToRemoteSpenthtlc crypto self build txid) with
      | none => none
      | some htlcSigs =>
          some ({ commit with
            txid
            signature := bufSig
            htlcNum := outs.length.toUInt16 }, htlcSigs)

/-- `check_create_remote_commit_tx`: whether the remote transaction could be built
with the slot as an HTLC just offered. -/
def checkCreateRemoteCommitTx (crypto : Crypto) (self : LnSelf) (idx : HtlcIdx) : Bool :=
  let htlc := self.cnlAddHtlc idx
  let dummy := self.setSlot idx { htlc with flag := { addhtlc := .offer, updsend := true } }
  (createToRemote crypto dummy self.commitRemote (self.commitRemote.commitNum + 1)).isSome

section Signed

variable {crypto : Crypto} {self : LnSelf} {commitNum : UInt64} {build : CommitBuild}

theorem createToLocal_unsigned {htlcSigs : List Bytes} {toSelfDelay : UInt16}
    {dustLimitSat : UInt64}
    (hbuild : buildToLocal crypto self commitNum toSelfDelay dustLimitSat = build)
    (hsign : signCommittx crypto self build.committx.tx = none) :
    createToLocal crypto self htlcSigs commitNum toSelfDelay dustLimitSat = (false, self) := by
  simp only [createToLocal, hbuild, hsign]

theorem createToLocal_signed {htlcSigs : List Bytes} {toSelfDelay : UInt16}
    {dustLimitSat : UInt64} {bufSig : Bytes}
    (hbuild : buildToLocal crypto self commitNum toSelfDelay dustLimitSat = build)
    (hsign : signCommittx crypto self build.committx.tx = some bufSig) :
    createToLocal crypto self htlcSigs commitNum toSelfDelay dustLimitSat =
      if createToLocalSignVerify crypto self build.committx.tx bufSig then
        createToLocalSpent crypto { self with
          commitLocal := { self.commitLocal with txid := crypto.txid build.committx.tx } }
          build htlcSigs
      else (false, self) := by
  simp only [createToLocal, hbuild, hsign]

theorem createToRemote_unsigned {commit : LnCommitData}
    (hbuild : buildToRemote crypto self commitNum commit.dustLimitSat = build)
    (hsign : signCommittx crypto self build.committx.tx = none) :
    createToRemote crypto self commit commitNum = none := by
  simp only [createToRemote, hbuild, hsign]

/-- Once the commitment transaction is signed, what is left are the signatures of the HTLC
transactions. -/
theorem createToRemote_signed {commit : LnCommitData} {bufSig : Bytes}
    (hbuild : buildToRemote crypto self commitNum commit.dustLimitSat = build)
    (hsign : signCommittx crypto self build.committx.tx = some bufSig) :
    createToRemote crypto self commit commitNum =
      ((htlcVouts build.committx.vout).mapM
        (createToRemoteSpenthtlc crypto self build (crypto.txid build.committx.tx))).map
        fun htlcSigs =>
          ({ commit with
            txid := crypto.txid build.committx.tx
            signature := bufSig
            htlcNum := (htlcVouts build.committx.vout).length.toUInt16 }, htlcSigs) := by
  simp only [createToRemote, hbuild, hsign]
  cases (htlcVouts build.committx.vout).mapM
    (createToRemoteSpenthtlc crypto self build (crypto.txid build.committx.tx)) with
  | none => rfl
  | some htlcSigs => rfl

end Signed

/-! ### Outputs -/

/-- The slots that are collected, in order. -/
theorem htlcinfo_slots (select : HtlcSelect) (slots : Slots) (idxs : List HtlcIdx) :
    ∀ acc : HtlcinfoAmount,
      ((idxs.foldl (select.addSlot slots) acc).htlcinfo.map LnScriptHtlcinfo.addHtlcIdx) =
        acc.htlcinfo.map LnScriptHtlcinfo.addHtlcIdx ++
          idxs.filter fun idx => select.adds (slots idx) := by
  have hkept : ∀ (htlc : LnUpdateAddHtlc) (acc : HtlcinfoAmount),
      (select.takeRecv htlc (select.takeOffer htlc acc)).htlcinfo = acc.htlcinfo := by
    intro htlc acc
    simp only [HtlcSelect.takeRecv, HtlcSelect.takeOffer]
    split_ifs <;> rfl
  induction idxs with
  | nil =>
      intro acc
      simp
  | cons idx rest ih =>
      intro acc
      rw [List.foldl_cons, ih, List.filter_cons]
      by_cases henable : (slots idx).enable = true
      · by_cases hadds :
            (select.addOffer (slots idx).flag || select.addRecv (slots idx).flag) = true
        · have hkeeps : select.adds (slots idx) = true := by
            rw [HtlcSelect.adds, henable, hadds]
            rfl
          simp only [HtlcSelect.addSlot, if_pos henable, if_pos hadds, if_pos hkeeps, hkept]
          simp
        · have hkeeps : ¬ select.adds (slots idx) = true := by
            rw [HtlcSelect.adds, henable, Bool.true_and]
            exact hadds
          simp only [HtlcSelect.addSlot, if_pos henable, if_neg hadds, if_neg hkeeps, hkept]
      · have hkeeps : ¬ select.adds (slots idx) = true := by
          rw [HtlcSelect.adds, Bool.and_eq_true]
          exact fun hboth => henable hboth.1
        simp only [HtlcSelect.addSlot, if_neg henable, if_neg hkeeps]

theorem htlcinfoAmount_slots (select : HtlcSelect) (slots : Slots) (selfMsat peerMsat : UInt64) :
    (select.htlcinfoAmount slots selfMsat peerMsat).htlcinfo.map LnScriptHtlcinfo.addHtlcIdx =
      (List.finRange lnHtlcMax).filter fun idx => select.adds (slots idx) := by
  rw [HtlcSelect.htlcinfoAmount, htlcinfo_slots]
  rfl

/-- What an output of a commitment transaction pays. -/
theorem committx_vout_cases {crypto : Crypto} {cmt : LnScriptCommittx} {isLocal : Bool}
    {out : BtcVout} (hmem : out ∈ (lnScriptCommittxCreate crypto cmt isLocal).vout) :
    (out.opt = .toremote ∧ out.script = .p2wpkh (crypto.hash160 cmt.remotePubkey)) ∨
      (out.opt = .tolocal ∧ out.script = crypto.p2wsh cmt.localScript) ∨
      ∃ info ∈ cmt.htlcinfo, out.opt = .htlc info ∧ out.script = crypto.p2wsh info.script := by
  rw [lnScriptCommittxCreate, (ExchangeSort.sort_perm _ _).mem_iff] at hmem
  simp only [LnScriptCommittx.outputs, List.mem_append, List.mem_map, List.mem_filter] at hmem
  rcases hmem with (hmem | hmem) | ⟨info, ⟨hinfo, -⟩, rfl⟩
  · by_cases hpays : cmt.remoteSatoshi ≥
        cmt.feeinfo.dustLimitSatoshi + if isLocal then 0 else cmt.feeinfo.commit
    · rw [if_pos hpays] at hmem
      obtain rfl := List.mem_singleton.mp hmem
      exact .inl ⟨rfl, rfl⟩
    · rw [if_neg hpays] at hmem
      cases hmem
  · by_cases hpays : cmt.localSatoshi ≥
        cmt.feeinfo.dustLimitSatoshi + if isLocal then cmt.feeinfo.commit else 0
    · rw [if_pos hpays] at hmem
      obtain rfl := List.mem_singleton.mp hmem
      exact .inr (.inl ⟨rfl, rfl⟩)
    · rw [if_neg hpays] at hmem
      cases hmem
  · exact .inr (.inr ⟨info, hinfo, rfl, rfl⟩)

theorem committx_vout_length_le (crypto : Crypto) (cmt : LnScriptCommittx) (isLocal : Bool) :
    (lnScriptCommittxCreate crypto cmt isLocal).vout.length ≤ 2 + cmt.htlcinfo.length := by
  have hfilter := List.length_filter_le cmt.feeinfo.untrimmed cmt.htlcinfo
  rw [lnScriptCommittxCreate, (ExchangeSort.sort_perm _ _).length_eq]
  simp only [LnScriptCommittx.outputs, List.length_append, List.length_map]
  have hone : ∀ (pays : Prop) [Decidable pays] (out : BtcVout),
      (if pays then [out] else []).length ≤ 1 := by
    intro pays _ out
    by_cases hpays : pays
    · rw [if_pos hpays]
      rfl
    · rw [if_neg hpays]
      exact Nat.zero_le 1
  have hremote := hone (cmt.remoteSatoshi ≥
    cmt.feeinfo.dustLimitSatoshi + if isLocal then 0 else cmt.feeinfo.commit)
    ⟨cmt.remoteSatoshi - if isLocal then 0 else cmt.feeinfo.commit,
      .p2wpkh (crypto.hash160 cmt.remotePubkey), .toremote⟩
  have hlocal := hone (cmt.localSatoshi ≥
    cmt.feeinfo.dustLimitSatoshi + if isLocal then cmt.feeinfo.commit else 0)
    ⟨cmt.localSatoshi - if isLocal then cmt.feeinfo.commit else 0,
      crypto.p2wsh cmt.localScript, .tolocal⟩
  omega

theorem htlcinfoAmount_length_le (select : HtlcSelect) (slots : Slots)
    (selfMsat peerMsat : UInt64) :
    (select.htlcinfoAmount slots selfMsat peerMsat).htlcinfo.length ≤ lnHtlcMax := by
  have hslots := congrArg List.length (htlcinfoAmount_slots select slots selfMsat peerMsat)
  rw [List.length_map] at hslots
  rw [hslots]
  exact (List.length_filter_le _ _).trans (List.length_finRange).le

end Ptarmigan
