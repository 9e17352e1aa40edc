/-
The state of one channel (`ln_self_t`), the messages it exchanges, the effects
its handlers have outside of it, and the keys it derives.
-/
import Ptarmigan.Htlc
import Ptarmigan.Derkey

namespace Ptarmigan

/-- A table indexed by `MSG_FUNDIDX_*`: the own public or private keys. -/
structure Fundkeys where
  funding : Bytes := []
  revocation : Bytes := []
  payment : Bytes := []
  delayed : Bytes := []
  htlc : Bytes := []
  perCommit : Bytes := []
deriving DecidableEq, Repr

/-- A table indexed by `MSG_SCRIPTIDX_*`. -/
structure Scriptkeys where
  remotekey : Bytes := []
  delayed : Bytes := []
  revocation : Bytes := []
  localHtlckey : Bytes := []
  remoteHtlckey : Bytes := []
deriving DecidableEq, Repr

/-- `ln_self_priv_t`: saved apart from the rest of the channel. -/
structure LnSelfPriv where
  storageIndex : UInt64 := 0
  storageSeed : Bytes := []
  priv : Fundkeys := {}
deriving DecidableEq, Repr

/-- `ln_funding_local_data_t`. -/
structure LnFundingLocalData where
  txid : Bytes := []
  txindex : UInt16 := 0
  pubkeys : Fundkeys := {}
  scriptpubkeys : Scriptkeys := {}
deriving DecidableEq, Repr

/-- `ln_funding_remote_data_t`. -/
structure LnFundingRemoteData where
  pubkeys : Fundkeys := {}
  prevPercommit : Bytes := []
  scriptpubkeys : Scriptkeys := {}
deriving DecidableEq, Repr

/-- `ln_commit_data_t`. -/
structure LnCommitData where
  dustLimitSat : UInt64 := 0
  maxHtlcValueInFlightMsat : UInt64 := 0
  channelReserveSat : UInt64 := 0
  htlcMinimumMsat : UInt64 := 0
  toSelfDelay : UInt16 := 0
  maxAcceptedHtlcs : UInt16 := 0
  signature : Bytes := []
  txid : Bytes := []
  htlcNum : UInt16 := 0
  commitNum : UInt64 := 0
  revokeNum : UInt64 := 0
deriving DecidableEq, Repr

/-- The 2-of-2 witness script of the funding output, by its two keys in script
order. -/
structure RedeemFund where
  pub1 : Bytes := []
  pub2 : Bytes := []
deriving DecidableEq, Repr

/-- `shutdown_flag` and `init_flag`: what has been sent and what received. -/
structure ExchangeFlag where
  send : Bool := false
  recv : Bool := false
deriving DecidableEq, Repr

def ExchangeFlag.exchanged (flag : ExchangeFlag) : Bool :=
  flag.send && flag.recv

/-- `ln_status_t`; the last four, set once the funding output is spent, are one. -/
inductive LnStatus
  | none
  | establish
  | normal
  | closeWait
  | closeSpent
  | closed
deriving DecidableEq, Repr

/-- `ln_self_t`, as far as the handlers of a channel use it. -/
structure LnSelf where
  status : LnStatus := .none
  peerStorage : LnDerkeyStorage := lnDerkeyStorageInit
  peerStorageIndex : UInt64 := lnSecindexInit
  privData : LnSelfPriv := {}
  isFunder : Bool := false
  fundingLocal : LnFundingLocalData := {}
  fundingRemote : LnFundingRemoteData := {}
  obscured : UInt64 := 0
  redeemFund : RedeemFund := {}
  /-- `key_fund_sort == BTC_KEYS_SORT_ASC`: the own funding key comes first. -/
  keyFundSortAsc : Bool := true
  /-- The script of the funding output, `tx_funding.vout[txindex].script`. -/
  txFundingScript : Bytes := []
  initFlag : ExchangeFlag := {}
  /-- `lfeature_local & LN_INIT_LF_OPT_DATALOSS`. -/
  lfeatureLocalDataloss : Bool := false
  reestCommitNum : UInt64 := 0
  reestRevokeNum : UInt64 := 0
  shutdownFlag : ExchangeFlag := {}
  closeFeeSat : UInt64 := 0
  closeLastFeeSat : UInt64 := 0
  shutdownScriptpkLocal : Bytes := []
  shutdownScriptpkRemote : Bytes := []
  /-- `htlc_id_num`, a `uint64_t` in the source. -/
  htlcIdNum : Nat := 0
  ourMsat : UInt64 := 0
  theirMsat : UInt64 := 0
  channelId : Bytes := []
  shortChannelId : UInt64 := 0
  cnlAddHtlc : Slots := fun _ => {}
  commitLocal : LnCommitData := {}
  commitRemote : LnCommitData := {}
  fundingSat : UInt64 := 0
  feeratePerKw : UInt32 := 0

/-- `ln_channel_reestablish_t` after decoding; the last two fields are there when
the sender supports `option_data_loss_protect`. -/
structure LnChannelReestablish where
  nextLocalCommitmentNumber : UInt64
  nextRemoteRevocationNumber : UInt64
  optionDataLossProtect : Option (Bytes × Bytes) := none
deriving DecidableEq, Repr

/-- The decoded messages of an established channel, without their `channel_id`. -/
inductive LnMsg
  | updateAddHtlc (id : Nat) (amountMsat : UInt64) (paymentSha256 : Bytes)
      (cltvExpiry : UInt32) (onion : Bytes)
  | updateFulfillHtlc (id : Nat) (paymentPreimage : Bytes)
  | updateFailHtlc (id : Nat) (reason : Bytes)
  | updateFailMalformedHtlc (id : Nat) (sha256Onion : Bytes) (failureCode : UInt16)
  | commitmentSigned (signature : Bytes) (htlcSignatures : List Bytes)
  | revokeAndAck (perCommitSecret perCommitpt : Bytes)
  | updateFee (feeratePerKw : UInt32)
  | fundingLocked (perCommitpt : Bytes)
  | shutdown (scriptpk : Bytes)
  | closingSigned (feeSat : UInt64) (signature : Bytes)
  | channelReestablish (reest : LnChannelReestablish)
deriving DecidableEq, Repr

/-- What a handler does outside of the channel state, in the order it does it.  A
message that settles or adds an HTLC is tagged with the slot it was built from.
A save carries what it writes. -/
inductive Effect
  | sendReq (idx : Option HtlcIdx) (msg : LnMsg)
  | selfSave (self : LnSelf)
  | secretSave (privData : LnSelfPriv)
  | preimgDel (preimage : Bytes)
  | fwdAddhtlcStart (shortChannelId : UInt64) (idx : HtlcIdx)
  | bwdDelhtlcStart (finDelhtlc : LnDelhtlc)
  | fulfillHtlcRecv (prevShortChannelId : UInt64) (prevIdx : HtlcIdx) (preimage : Bytes)
      (id : Nat) (amountMsat : UInt64)
  | failHtlcRecv (prevShortChannelId : UInt64) (prevIdx : HtlcIdx) (reason : Bytes)
      (origId : Nat) (malformedFailure : UInt16)
  | paymentRetry (paymentSha256 : Bytes)
  | revAndAckExcg
  | updateFeeRecv
  | closing
  | reestablishRecv
  | quit
  /-- A failed `assert`: the process is gone. -/
  | abort

/-- The outcome of a handler: its return value, the state it leaves and what it
did on the way. -/
structure Outcome where
  ret : Bool
  self : LnSelf
  trace : List Effect

/-- A handler that gave up before it did anything. -/
def Outcome.reject (self : LnSelf) : Outcome :=
  ⟨false, self, []⟩

/-- One part of a handler after another. -/
def Outcome.andThen (outcome : Outcome) (next : LnSelf → Outcome) : Outcome :=
  let after := next outcome.self
  ⟨after.ret, after.self, outcome.trace ++ after.trace⟩

namespace LnSelf

/-- Rewrite every slot. -/
def mapSlots (self : LnSelf) (rewrite : LnUpdateAddHtlc → LnUpdateAddHtlc) : LnSelf :=
  { self with cnlAddHtlc := fun idx => rewrite (self.cnlAddHtlc idx) }

/-- Rewrite one slot. -/
def setSlot (self : LnSelf) (idx : HtlcIdx) (htlc : LnUpdateAddHtlc) : LnSelf :=
  { self with cnlAddHtlc := Function.update self.cnlAddHtlc idx htlc }

@[simp] theorem mapSlots_slot (self : LnSelf) (rewrite : LnUpdateAddHtlc → LnUpdateAddHtlc)
    (idx : HtlcIdx) : (self.mapSlots rewrite).cnlAddHtlc idx = rewrite (self.cnlAddHtlc idx) :=
  rfl

@[simp] theorem setSlot_slot (self : LnSelf) (idx other : HtlcIdx) (htlc : LnUpdateAddHtlc) :
    (self.setSlot idx htlc).cnlAddHtlc other =
      if other = idx then htlc else self.cnlAddHtlc other := by
  simp [setSlot, Function.update_apply]

/-- `ln_misc_update_scriptkeys`. -/
def updateScriptkeys (crypto : Crypto) (self : LnSelf) : LnSelf :=
  let own := self.fundingLocal.pubkeys
  let peer := self.fundingRemote.pubkeys
  { self with
    fundingLocal := { self.fundingLocal with
      scriptpubkeys :=
        { remotekey := crypto.derkeyPubkey peer.payment own.perCommit
          delayed := crypto.derkeyPubkey own.delayed own.perCommit
          revocation := crypto.derkeyRevocationkey peer.revocation own.perCommit
          localHtlckey := crypto.derkeyPubkey own.htlc own.perCommit
          remoteHtlckey := crypto.derkeyPubkey peer.htlc own.perCommit } }
    fundingRemote := { self.fundingRemote with
      scriptpubkeys :=
        { remotekey := crypto.derkeyPubkey own.payment peer.perCommit
          delayed := crypto.derkeyPubkey peer.delayed peer.perCommit
          revocation := crypto.derkeyRevocationkey own.revocation peer.perCommit
          localHtlckey := crypto.derkeyPubkey peer.htlc peer.perCommit
          remoteHtlckey := crypto.derkeyPubkey own.htlc peer.perCommit } } }

/-- `ln_signer_keys_update_storage`: the per-commitment key of the current index,
then the index below. -/
def keysUpdateStorage (crypto : Crypto) (self : LnSelf) : LnSelf :=
  let secret := lnDerkeyCreateSecret crypto self.privData.storageSeed self.privData.storageIndex
  { self with
    privData := { self.privData with
      priv := { self.privData.priv with perCommit := secret }
      storageIndex := self.privData.storageIndex - 1 }
    fundingLocal := { self.fundingLocal with
      pubkeys := { self.fundingLocal.pubkeys with perCommit := crypto.pub secret } } }

/-- `ln_signer_create_prev_percommitsec`: the secret and, unless the index is
still too high, its point. -/
def createPrevPercommitsec (crypto : Crypto) (self : LnSelf) : Bytes × Bytes :=
  if self.privData.storageIndex + 2 ≤ lnSecindexInit then
    let secret := lnDerkeyCreateSecret crypto self.privData.storageSeed
      (self.privData.storageIndex + 2)
    (secret, crypto.pub secret)
  else (List.replicate 32 0, self.fundingLocal.pubkeys.perCommit)

end LnSelf

end Ptarmigan
