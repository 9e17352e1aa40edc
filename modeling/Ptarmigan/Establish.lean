/-
Opening a channel, from `open_channel` to `start_funding_wait` on both sides, and
`funding_locked`.
-/
import Ptarmigan.NormalOp

namespace Ptarmigan

/-- `ln_open_channel_t`, with the basepoints and the first per-commitment point of
the sender. -/
structure LnOpenChannel where
  fundingSat : UInt64
  pushMsat : UInt64
  dustLimitSat : UInt64
  maxHtlcValueInFlightMsat : UInt64
  channelReserveSat : UInt64
  htlcMinimumMsat : UInt64
  feeratePerKw : UInt32
  toSelfDelay : UInt16
  maxAcceptedHtlcs : UInt16
  pubkeys : Fundkeys
deriving DecidableEq, Repr

/-- `ln_accept_channel_t`. -/
structure LnAcceptChannel where
  dustLimitSat : UInt64
  maxHtlcValueInFlightMsat : UInt64
  channelReserveSat : UInt64
  htlcMinimumMsat : UInt64
  toSelfDelay : UInt16
  maxAcceptedHtlcs : UInt16
  pubkeys : Fundkeys
deriving DecidableEq, Repr

/-- The parameters of a node for channels it opens or accepts (`ln_establish_prm_t`). -/
structure LnEstablishPrm where
  dustLimitSat : UInt64
  maxHtlcValueInFlightMsat : UInt64
  channelReserveSat : UInt64
  htlcMinimumMsat : UInt64
  toSelfDelay : UInt16
  maxAcceptedHtlcs : UInt16
deriving DecidableEq, Repr

/-- Where the funding output is, once the funding transaction exists. -/
structure FundingOutpoint where
  txid : Bytes
  txindex : UInt16
deriving DecidableEq, Repr

/-- `LN_FEERATE_PER_KW_MIN`. -/
def lnFeeratePerKwMin : UInt32 := 253

/-- `LN_FUNDSAT_MIN`. -/
def lnFundsatMin : UInt64 := 1000

/-- `ln_estimate_initcommittx_fee`. -/
def lnEstimateInitcommittxFee (feeratePerKw : UInt32) : UInt64 :=
  724 * feeratePerKw.toUInt64 / 1000

/-- `ln_script_calc_obscured_txnum`: the last six bytes of the digest. -/
def lnScriptCalcObscuredTxnum (crypto : Crypto) (openBasePt acceptBasePt : Bytes) : UInt64 :=
  let base := crypto.sha256 (openBasePt ++ acceptBasePt)
  (List.range 6).foldl (fun obs pos => obs <<< 8 ||| (base.getD (26 + pos) 0).toUInt64) 0

/-- `btc_util_create2of2`: the funding keys in the order of `memcmp`. -/
def LnSelf.create2of2 (self : LnSelf) : LnSelf :=
  let own := self.fundingLocal.pubkeys.funding
  let peer := self.fundingRemote.pubkeys.funding
  if memcmpGt peer own then
    { self with redeemFund := ⟨own, peer⟩, keyFundSortAsc := true }
  else { self with redeemFund := ⟨peer, own⟩, keyFundSortAsc := false }

/-- `ln_signer_create_channelkeys`, for the private keys the generator drew. -/
def lnSignerCreateChannelkeys (crypto : Crypto) (self : LnSelf) (priv : Fundkeys) : LnSelf :=
  LnSelf.keysUpdateStorage crypto { self with
    privData := { self.privData with storageIndex := lnSecindexInit, priv }
    fundingLocal := { self.fundingLocal with
      pubkeys :=
        { funding := crypto.pub priv.funding
          revocation := crypto.pub priv.revocation
          payment := crypto.pub priv.payment
          delayed := crypto.pub priv.delayed
          htlc := crypto.pub priv.htlc
          perCommit := self.fundingLocal.pubkeys.perCommit } } }

/-- `ln_init`, with the closing address of the application, once `init` has been
exchanged. -/
def lnInit (seed scriptpk : Bytes) (dataloss : Bool) : LnSelf :=
  { privData := { storageSeed := seed }
    initFlag := ⟨true, true⟩
    lfeatureLocalDataloss := dataloss
    shutdownScriptpkLocal := scriptpk }

/-- The amounts that `ln_msg_open_channel_create` and `ln_msg_open_channel_read` let
through. -/
def openChannelInRange (fundingSat pushMsat : UInt64) (maxAcceptedHtlcs : UInt16) : Bool :=
  decide (fundingSat < 16777216) && decide (pushMsat ≤ fundingSat * 1000) &&
    decide (maxAcceptedHtlcs ≤ 483)

/-- `recv_open_channel`, for a node that is not already funding this channel. -/
def recvOpenChannel (crypto : Crypto) (self : LnSelf) (openCh : LnOpenChannel)
    (estprm : LnEstablishPrm) (priv : Fundkeys) : Option LnSelf :=
  if !openChannelInRange openCh.fundingSat openCh.pushMsat openCh.maxAcceptedHtlcs then none
  else if openCh.feeratePerKw < lnFeeratePerKwMin then none
  else if openCh.fundingSat <
      lnEstimateInitcommittxFee openCh.feeratePerKw + 546 + lnFundsatMin then none
  else
    let self := { self with
      isFunder := false
      commitRemote := { self.commitRemote with
        dustLimitSat := openCh.dustLimitSat
        maxHtlcValueInFlightMsat := openCh.maxHtlcValueInFlightMsat
        channelReserveSat := openCh.channelReserveSat
        htlcMinimumMsat := openCh.htlcMinimumMsat
        toSelfDelay := openCh.toSelfDelay
        maxAcceptedHtlcs := openCh.maxAcceptedHtlcs }
      fundingRemote := { self.fundingRemote with
        pubkeys := openCh.pubkeys
        prevPercommit := openCh.pubkeys.perCommit }
      fundingSat := openCh.fundingSat
      feeratePerKw := openCh.feeratePerKw
      ourMsat := openCh.pushMsat
      theirMsat := openCh.fundingSat * 1000 - openCh.pushMsat }
    let self := (lnSignerCreateChannelkeys crypto self priv).updateScriptkeys crypto
    let self := { self with
      commitLocal := { self.commitLocal with
        dustLimitSat := estprm.dustLimitSat
        maxHtlcValueInFlightMsat := estprm.maxHtlcValueInFlightMsat
        channelReserveSat := estprm.channelReserveSat
        htlcMinimumMsat := estprm.htlcMinimumMsat
        toSelfDelay := estprm.toSelfDelay
        maxAcceptedHtlcs := estprm.maxAcceptedHtlcs }
      obscured := lnScriptCalcObscuredTxnum crypto openCh.pubkeys.payment
        self.fundingLocal.pubkeys.payment }
    some self.create2of2

/-- `ln_open_channel_create`.  It does not look at whether `open_channel` could be made. -/
def lnOpenChannelCreate (crypto : Crypto) (self : LnSelf) (estprm : LnEstablishPrm)
    (fundingSat pushSat : UInt64) (feeRate : UInt32) (channelId : Bytes) (priv : Fundkeys) :
    Option LnSelf :=
  if !self.initFlag.exchanged then none
  else
    let pushMsat := pushSat * 1000
    let self := (lnSignerCreateChannelkeys crypto { self with channelId } priv).updateScriptkeys
      crypto
    some { self with
      isFunder := true
      commitLocal := { self.commitLocal with
        dustLimitSat := estprm.dustLimitSat
        maxHtlcValueInFlightMsat := estprm.maxHtlcValueInFlightMsat
        channelReserveSat := estprm.channelReserveSat
        htlcMinimumMsat := estprm.htlcMinimumMsat
        toSelfDelay := estprm.toSelfDelay
        maxAcceptedHtlcs := estprm.maxAcceptedHtlcs }
      ourMsat := fundingSat * 1000 - pushMsat
      theirMsat := pushMsat
      fundingSat
      feeratePerKw := feeRate }

/-- The funding output is the 2-of-2 at the given outpoint. -/
def LnSelf.setFunding (crypto : Crypto) (self : LnSelf) (outpoint : FundingOutpoint) : LnSelf :=
  { self with
    fundingLocal := { self.fundingLocal with
      txid := outpoint.txid
      txindex := outpoint.txindex }
    txFundingScript := crypto.sha256 self.redeemFund.script }

/-- The signature that `funding_created` and `funding_signed` carry. -/
def signInitialRemote (crypto : Crypto) (self : LnSelf) : Option LnSelf :=
  (createToRemote crypto self self.commitRemote 0).map fun (commit, _) =>
    { self with commitRemote := commit }

/-- `recv_accept_channel`, for the funding transaction that was then created. -/
def recvAcceptChannel (crypto : Crypto) (self : LnSelf) (acceptCh : LnAcceptChannel)
    (outpoint : FundingOutpoint) : Option LnSelf :=
  if !self.isFunder then none
  else
    let self := { self with
      commitRemote := { self.commitRemote with
        dustLimitSat := acceptCh.dustLimitSat
        maxHtlcValueInFlightMsat := acceptCh.maxHtlcValueInFlightMsat
        channelReserveSat := acceptCh.channelReserveSat
        htlcMinimumMsat := acceptCh.htlcMinimumMsat
        toSelfDelay := acceptCh.toSelfDelay
        maxAcceptedHtlcs := acceptCh.maxAcceptedHtlcs }
      fundingRemote := { self.fundingRemote with
        pubkeys := acceptCh.pubkeys
        prevPercommit := acceptCh.pubkeys.perCommit } }
    let self := ((self.updateScriptkeys crypto).create2of2).setFunding crypto outpoint
    signInitialRemote crypto { self with
      obscured := lnScriptCalcObscuredTxnum crypto self.fundingLocal.pubkeys.payment
        acceptCh.pubkeys.payment }

/-- The initial local commitment transaction against the signature received for it. -/
def verifyInitialLocal (crypto : Crypto) (self : LnSelf) (signature : Bytes) : Option LnSelf :=
  let read := { self with commitLocal := { self.commitLocal with signature } }
  match createToLocal crypto read [] 0 self.commitRemote.toSelfDelay
      self.commitLocal.dustLimitSat with
  | (false, _) => none
  | (true, self) => some self

/-- `ln_misc_calc_channel_id`. -/
def lnMiscCalcChannelId (outpoint : FundingOutpoint) : Bytes :=
  (outpoint.txid.modify 30 fun byte => byte ^^^ (outpoint.txindex >>> 8).toUInt8).modify 31
    fun byte => byte ^^^ outpoint.txindex.toUInt8

/-- `start_funding_wait`, when the application accepts to wait. -/
def startFundingWait (crypto : Crypto) (self : LnSelf) : Outcome :=
  let self := { self with
    commitLocal := { self.commitLocal with commitNum := 0, revokeNum := 0xffffffffffffffff }
    commitRemote := { self.commitRemote with commitNum := 0, revokeNum := 0xffffffffffffffff } }
  let self := (self.keysUpdateStorage crypto).updateScriptkeys crypto
  let self := { self with status := .establish }
  ⟨true, self, [.secretSave self.privData, .selfSave self]⟩

/-- `recv_funding_created`. -/
def recvFundingCreated (crypto : Crypto) (self : LnSelf) (outpoint : FundingOutpoint)
    (signature : Bytes) : Option Outcome :=
  if self.isFunder then none
  else
    (verifyInitialLocal crypto (self.setFunding crypto outpoint) signature).bind fun self =>
      (signInitialRemote crypto self).map fun self =>
        startFundingWait crypto { self with channelId := lnMiscCalcChannelId outpoint }

/-- `recv_funding_signed`. -/
def recvFundingSigned (crypto : Crypto) (self : LnSelf) (signature : Bytes) : Option Outcome :=
  if !self.isFunder then none
  else
    let self := { self with
      channelId := lnMiscCalcChannelId ⟨self.fundingLocal.txid, self.fundingLocal.txindex⟩ }
    (verifyInitialLocal crypto self signature).map (startFundingWait crypto)

/-- `recv_funding_locked`. -/
def recvFundingLocked (crypto : Crypto) (self : LnSelf) (channelId perCommitpt : Bytes) :
    Outcome :=
  if channelId ≠ self.channelId then .reject self
  else
    let self := LnSelf.updateScriptkeys crypto { self with
      fundingRemote := { self.fundingRemote with
        pubkeys := { self.fundingRemote.pubkeys with perCommit := perCommitpt } } }
    ⟨true, self, [.selfSave self]⟩

/-- The funding exchange on the accepting side. -/
def openedAsFundee (crypto : Crypto) (fresh : LnSelf) (openCh : LnOpenChannel)
    (estprm : LnEstablishPrm) (priv : Fundkeys) (outpoint : FundingOutpoint)
    (signature : Bytes) : Option Outcome :=
  (recvOpenChannel crypto fresh openCh estprm priv).bind fun self =>
    recvFundingCreated crypto self outpoint signature

/-- The funding exchange on the opening side. -/
def openedAsFunder (crypto : Crypto) (fresh : LnSelf) (estprm : LnEstablishPrm)
    (fundingSat pushSat : UInt64) (feeRate : UInt32) (channelId : Bytes) (priv : Fundkeys)
    (acceptCh : LnAcceptChannel) (outpoint : FundingOutpoint) (signature : Bytes) :
    Option Outcome :=
  (lnOpenChannelCreate crypto fresh estprm fundingSat pushSat feeRate channelId priv).bind
    fun self =>
      (recvAcceptChannel crypto self acceptCh outpoint).bind fun self =>
        recvFundingSigned crypto self signature

end Ptarmigan
