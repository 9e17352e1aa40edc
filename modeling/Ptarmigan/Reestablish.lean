/-
`channel_reestablish`: what a node tells after a reconnection, what it makes of
the numbers of the peer, and what it sends again.
-/
import Ptarmigan.Close

namespace Ptarmigan

/-- `ln_channel_reestablish_create`. -/
def lnChannelReestablishCreate (crypto : Crypto) (self : LnSelf) : LnMsg :=
  .channelReestablish
    { nextLocalCommitmentNumber := self.commitLocal.commitNum + 1
      nextRemoteRevocationNumber := self.commitRemote.revokeNum + 1
      optionDataLossProtect :=
        if self.lfeatureLocalDataloss then
          let lastSecret :=
            if self.commitRemote.commitNum = 0 then List.replicate 32 0
            else
              (lnDerkeyStorageGetSecret crypto self.peerStorage
                (lnSecindexInit - (self.commitRemote.commitNum - 1))).getD
                  (List.replicate 32 0)
          some (lastSecret, (self.createPrevPercommitsec crypto).2)
        else none }

/-- `recv_channel_reestablish`.  Numbers that fit no resumption fail the channel only
when the peer sent the fields of `option_data_loss_protect`. -/
def recvChannelReestablish (crypto : Crypto) (self : LnSelf) (channelId : Bytes)
    (reest : LnChannelReestablish) : Outcome :=
  if channelId ≠ self.channelId then .reject self
  else
    let self := { self with
      reestCommitNum := reest.nextLocalCommitmentNumber
      reestRevokeNum := reest.nextRemoteRevocationNumber }
    let chkCommitNum :=
      self.commitRemote.commitNum + 1 == reest.nextLocalCommitmentNumber ||
        self.commitRemote.commitNum == reest.nextLocalCommitmentNumber
    let chkRevokeNum :=
      self.commitLocal.revokeNum + 1 == reest.nextRemoteRevocationNumber ||
        self.commitLocal.revokeNum == reest.nextRemoteRevocationNumber
    let continued : Bool :=
      (chkCommitNum && chkRevokeNum) || !self.lfeatureLocalDataloss ||
        match reest.optionDataLossProtect with
        | none => true
        | some (yourLastSecret, _) =>
            decide (reest.nextRemoteRevocationNumber > self.commitLocal.commitNum) &&
              lnDerkeyCreateSecret crypto self.privData.storageSeed
                  (self.privData.storageIndex + 4) == yourLastSecret
    if continued then ⟨true, self, [.reestablishRecv]⟩ else .reject self

/-- The update message that matches the flags of a slot whose update and
`commitment_signed` were just sent. -/
def reestUpdateMsg (htlc : LnUpdateAddHtlc) : Option LnMsg :=
  if !htlc.enable then none
  else if htlc.flag.bitsAddhtlc then
    some (.updateAddHtlc htlc.id htlc.amountMsat htlc.paymentSha256 htlc.cltvExpiry
      htlc.bufOnionReason)
  else if htlc.flag.bitsDelhtlc .fulfill then
    some (.updateFulfillHtlc htlc.id htlc.bufPaymentPreimage)
  else if htlc.flag.bitsDelhtlc .fail then
    some (.updateFailHtlc htlc.id htlc.bufOnionReason)
  else if htlc.flag.bitsDelhtlc .malformed then
    some (.updateFailMalformedHtlc htlc.id ((htlc.bufOnionReason.drop 2).take 32)
      (be16 htlc.bufOnionReason))
  else none

/-- The first part of `ln_channel_reestablish_after`: the first slot that matches is
sent again and its commitment number taken back. -/
def reestResendUpdate (self : LnSelf) : Outcome :=
  match (List.finRange lnHtlcMax).findSome? fun idx =>
      (reestUpdateMsg (self.cnlAddHtlc idx)).map (idx, ·) with
  | none => ⟨true, self, []⟩
  | some (idx, msg) =>
      let htlc := (self.cnlAddHtlc idx).setFlag fun flag =>
        { flag with comsend := false, updsend := true }
      let self := { self.setSlot idx htlc with
        commitRemote := { self.commitRemote with
          commitNum := self.commitRemote.commitNum - 1 } }
      ⟨true, self, [.sendReq (some idx) msg, .selfSave self]⟩

/-- `ln_channel_reestablish_after`. -/
def lnChannelReestablishAfter (crypto : Crypto) (self : LnSelf) : Outcome :=
  let resent : Outcome :=
    if self.commitRemote.commitNum = self.reestCommitNum then reestResendUpdate self
    else ⟨true, self, []⟩
  let self := resent.self
  if self.commitLocal.revokeNum = self.reestRevokeNum then
    let prevSecret := (self.createPrevPercommitsec crypto).1
    let revack := LnMsg.revokeAndAck prevSecret self.fundingLocal.pubkeys.perCommit
    ⟨true, self, resent.trace ++ [.sendReq none revack]⟩
  else ⟨true, self, resent.trace⟩

end Ptarmigan
