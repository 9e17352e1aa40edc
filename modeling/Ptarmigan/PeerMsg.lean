/-
All messages that the code both creates and reads: what is created is read back.
-/
import Ptarmigan.SetupMsg
import Ptarmigan.EstablishMsg
import Ptarmigan.OperationMsg
import Ptarmigan.AnnounceMsg

namespace Ptarmigan

open WireReader

/-- A message to or from the peer. -/
inductive PeerMsg
  | init (msg : InitMsg)
  | error (msg : ErrorMsg)
  | ping (msg : PingMsg)
  | pong (msg : PongMsg)
  | openChannel (msg : OpenChannelMsg)
  | acceptChannel (msg : AcceptChannelMsg)
  | fundingCreated (msg : FundingCreatedMsg)
  | fundingSigned (msg : FundingSignedMsg)
  | fundingLocked (msg : FundingLockedMsg)
  | shutdown (msg : ShutdownMsg)
  | closingSigned (msg : ClosingSignedMsg)
  | updateAddHtlc (msg : UpdateAddHtlcMsg)
  | updateFulfillHtlc (msg : UpdateFulfillHtlcMsg)
  | updateFailHtlc (msg : UpdateFailHtlcMsg)
  | commitmentSigned (msg : CommitSignedMsg)
  | revokeAndAck (msg : RevokeAndAckMsg)
  | updateFee (msg : UpdateFeeMsg)
  | updateFailMalformedHtlc (msg : UpdateFailMalformedHtlcMsg)
  | channelReestablish (msg : ReestablishMsg)
  | nodeAnnouncement (msg : NodeAnnounceMsg)
  | channelUpdate (msg : CnlUpdateMsg)
  | announcementSignatures (msg : AnnounceSignsMsg)
deriving DecidableEq, Repr

/-- What a read function finds in the structure that it fills in: the `open_channel` and the
`accept_channel` of before, and the `short_channel_id` that is known already. -/
structure ReadOver where
  openChannel : OpenChannelMsg
  acceptChannel : AcceptChannelMsg
  shortChannelId : UInt64

namespace PeerMsg

variable (env : WireEnv) (crypto : Crypto) (nodeKey : Bytes)

/-- The `*_create` function of the message. -/
def create : PeerMsg → Option Bytes
  | init msg => lnMsgInitCreate msg
  | error msg => lnMsgErrorCreate msg
  | ping msg => lnMsgPingCreate msg
  | pong msg => lnMsgPongCreate msg
  | openChannel msg => lnMsgOpenChannelCreate env msg
  | acceptChannel msg => lnMsgAcceptChannelCreate env msg
  | fundingCreated msg => lnMsgFundingCreatedCreate msg
  | fundingSigned msg => lnMsgFundingSignedCreate msg
  | fundingLocked msg => lnMsgFundingLockedCreate msg
  | shutdown msg => lnMsgShutdownCreate msg
  | closingSigned msg => lnMsgClosingSignedCreate msg
  | updateAddHtlc msg => lnMsgUpdateAddHtlcCreate msg
  | updateFulfillHtlc msg => lnMsgUpdateFulfillHtlcCreate msg
  | updateFailHtlc msg => lnMsgUpdateFailHtlcCreate msg
  | commitmentSigned msg => lnMsgCommitSignedCreate msg
  | revokeAndAck msg => lnMsgRevokeAndAckCreate msg
  | updateFee msg => lnMsgUpdateFeeCreate msg
  | updateFailMalformedHtlc msg => lnMsgUpdateFailMalformedHtlcCreate msg
  | channelReestablish msg => lnMsgChannelReestablishCreate msg
  | nodeAnnouncement msg => lnMsgNodeAnnounceCreate crypto nodeKey msg
  | channelUpdate msg => lnMsgCnlUpdateCreate env crypto nodeKey msg
  | announcementSignatures msg => lnMsgAnnounceSignsCreate msg

/-- The `*_read` function for messages of the same type. -/
def reader (old : ReadOver) : PeerMsg → WireReader Unit PeerMsg
  | init _ => init <$> lnMsgInitRead
  | error _ => error <$> lnMsgErrorRead
  | ping _ => ping <$> lnMsgPingRead
  | pong _ => pong <$> lnMsgPongRead
  | openChannel _ => openChannel <$> (lnMsgOpenChannelRead env old.openChannel).discard
  | acceptChannel _ => acceptChannel <$> (lnMsgAcceptChannelRead env old.acceptChannel).discard
  | fundingCreated _ => fundingCreated <$> lnMsgFundingCreatedRead
  | fundingSigned _ => fundingSigned <$> lnMsgFundingSignedRead
  | fundingLocked _ => fundingLocked <$> lnMsgFundingLockedRead
  | shutdown _ => shutdown <$> lnMsgShutdownRead
  | closingSigned _ => closingSigned <$> lnMsgClosingSignedRead
  | updateAddHtlc _ => updateAddHtlc <$> lnMsgUpdateAddHtlcRead
  | updateFulfillHtlc _ => updateFulfillHtlc <$> lnMsgUpdateFulfillHtlcRead
  | updateFailHtlc _ => updateFailHtlc <$> lnMsgUpdateFailHtlcRead
  | commitmentSigned _ => commitmentSigned <$> lnMsgCommitSignedRead
  | revokeAndAck _ => revokeAndAck <$> lnMsgRevokeAndAckRead
  | updateFee _ => updateFee <$> lnMsgUpdateFeeRead
  | updateFailMalformedHtlc _ => updateFailMalformedHtlc <$> lnMsgUpdateFailMalformedHtlcRead
  | channelReestablish _ => channelReestablish <$> lnMsgChannelReestablishRead
  | nodeAnnouncement _ => nodeAnnouncement <$> lnMsgNodeAnnounceRead crypto
  | channelUpdate _ => channelUpdate <$> lnMsgCnlUpdateRead env
  | announcementSignatures _ =>
      announcementSignatures <$> lnMsgAnnounceSignsRead old.shortChannelId

/-- A value whose arrays have their sizes and that keeps the bounds the read function checks; what
is signed is signed with the key of the node. -/
def WellFormed (old : ReadOver) : PeerMsg → Prop
  | init _ => True
  | error msg => msg.channelId.length = 32
  | ping msg => msg.numPongBytes < 65532
  | pong msg => msg.byteslen < 65532
  | openChannel msg => msg.Sized env ∧ msg.channelFlags &&& ~~~1 = 0 ∧
      openChannelInRange msg.body.fundingSat msg.body.pushMsat msg.body.maxAcceptedHtlcs = true ∧
      msg.body.pubkeys.toList.all env.chkpub = true
  | acceptChannel msg => msg.Sized ∧ msg.body.pubkeys.toList.all env.chkpub = true
  | fundingCreated msg => msg.Sized
  | fundingSigned msg => msg.Sized
  | fundingLocked msg => msg.Sized
  | shutdown msg => msg.channelId.length = 32
  | closingSigned msg => msg.Sized
  | updateAddHtlc msg => msg.Sized
  | updateFulfillHtlc msg => msg.Sized
  | updateFailHtlc msg => msg.channelId.length = 32
  | commitmentSigned msg => msg.Sized
  | revokeAndAck msg => msg.Sized
  | updateFee msg => msg.channelId.length = 32
  | updateFailMalformedHtlc msg => msg.Sized
  | channelReestablish msg => msg.Sized
  | nodeAnnouncement msg => msg.Sized ∧ crypto.priv2pub nodeKey = some msg.nodeId
  | channelUpdate msg => msg.shortChannelId ≠ 0
  | announcementSignatures msg => msg.Sized ∧
      (old.shortChannelId = 0 ∨ old.shortChannelId = msg.shortChannelId)

/-- What a message carries: no `htlc_maximum_msat`. -/
def carried : PeerMsg → PeerMsg
  | channelUpdate msg => channelUpdate { msg with htlcMaximumMsat := 0 }
  | msg => msg

/-- A well-formed value is created, and what reads the message gets back all that it carries. -/
theorem roundTrips (env : WireEnv) (crypto : Crypto) (nodeKey : Bytes) (hcrypto : crypto.Sound)
    (hsign : ∀ hash, (crypto.sign nodeKey hash).length = 64)
    (hgenesis : env.genesisChainHash.length = 32) (old : ReadOver) (msg : PeerMsg)
    (hwell : msg.WellFormed env crypto nodeKey old) :
    RoundTrips (msg.create env crypto nodeKey) (msg.reader env crypto old) msg.carried := by
  cases msg with
  | init msg => exact (lnMsgInit_roundTrips msg).map _
  | error msg => exact (lnMsgError_roundTrips hwell).map _
  | ping msg => exact (lnMsgPing_roundTrips hwell).map _
  | pong msg => exact (lnMsgPong_roundTrips hwell).map _
  | openChannel msg =>
      obtain ⟨hsized, hflags, hrange, hall⟩ := hwell
      exact (lnMsgOpenChannel_roundTrips hsized hflags hrange hall old.openChannel).discard.map _
  | acceptChannel msg =>
      exact (lnMsgAcceptChannel_roundTrips hwell.1 hwell.2 old.acceptChannel).discard.map _
  | fundingCreated msg => exact (lnMsgFundingCreated_roundTrips hwell).map _
  | fundingSigned msg => exact (lnMsgFundingSigned_roundTrips hwell).map _
  | fundingLocked msg => exact (lnMsgFundingLocked_roundTrips hwell).map _
  | shutdown msg => exact (lnMsgShutdown_roundTrips hwell).map _
  | closingSigned msg => exact (lnMsgClosingSigned_roundTrips hwell).map _
  | updateAddHtlc msg => exact (lnMsgUpdateAddHtlc_roundTrips hwell).map _
  | updateFulfillHtlc msg => exact (lnMsgUpdateFulfillHtlc_roundTrips hwell).map _
  | updateFailHtlc msg => exact (lnMsgUpdateFailHtlc_roundTrips hwell).map _
  | commitmentSigned msg => exact (lnMsgCommitSigned_roundTrips hwell).map _
  | revokeAndAck msg => exact (lnMsgRevokeAndAck_roundTrips hwell).map _
  | updateFee msg => exact (lnMsgUpdateFee_roundTrips hwell).map _
  | updateFailMalformedHtlc msg => exact (lnMsgUpdateFailMalformedHtlc_roundTrips hwell).map _
  | channelReestablish msg => exact (lnMsgChannelReestablish_roundTrips hwell).map _
  | nodeAnnouncement msg =>
      exact (lnMsgNodeAnnounce_roundTrips hcrypto hwell.1 hwell.2 hsign).map _
  | channelUpdate msg => exact (lnMsgCnlUpdate_roundTrips hgenesis hsign hwell).map _
  | announcementSignatures msg => exact (lnMsgAnnounceSigns_roundTrips hwell.1 hwell.2).map _

/-- Nothing that is known already. -/
def nothingOver : ReadOver where
  openChannel := ⟨[], ⟨0, 0, 0, 0, 0, 0, 0, 0, 0, {}⟩, 0⟩
  acceptChannel := ⟨[], 0, ⟨0, 0, 0, 0, 0, 0, {}⟩⟩
  shortChannelId := 0

theorem sized_sign (hash : Bytes) : (Crypto.sized.sign [1] hash).length = 64 := by
  simp [Crypto.sized]

/-- A `commitment_signed` with two HTLC signatures. -/
def twoSigned : CommitSignedMsg where
  channelId := List.replicate 32 1
  signature := List.replicate 64 2
  numHtlcs := 2
  htlcSignature := List.replicate 128 3

theorem twoSigned_sized : twoSigned.Sized where
  channelId := List.length_replicate
  signature := List.length_replicate
  htlcSignature := List.length_replicate

theorem roundTrips_twoSigned :
    RoundTrips ((commitmentSigned twoSigned).create WireEnv.symbolic Crypto.sized [1])
      ((commitmentSigned twoSigned).reader WireEnv.symbolic Crypto.sized nothingOver)
      (commitmentSigned twoSigned) :=
  roundTrips WireEnv.symbolic Crypto.sized [1] sized_sound sized_sign List.length_replicate
    nothingOver (commitmentSigned twoSigned) twoSigned_sized

/-- A `channel_update` with a maximum. -/
def cappedUpdate : CnlUpdateMsg where
  shortChannelId := 1
  timestamp := 0
  flags := 0
  cltvExpiryDelta := 0
  htlcMinimumMsat := 0
  feeBaseMsat := 0
  feePropMillionths := 0
  htlcMaximumMsat := 1

/-- The maximum of a `channel_update` does not come back. -/
theorem channelUpdate_loses_maximum :
    (channelUpdate cappedUpdate).WellFormed WireEnv.symbolic Crypto.sized [1] nothingOver ∧
      ¬ RoundTrips ((channelUpdate cappedUpdate).create WireEnv.symbolic Crypto.sized [1])
        ((channelUpdate cappedUpdate).reader WireEnv.symbolic Crypto.sized nothingOver)
        (channelUpdate cappedUpdate) := by
  have hid : cappedUpdate.shortChannelId ≠ 0 := by decide
  refine ⟨hid, fun hclaimed => ?_⟩
  have hcarried := (@lnMsgCnlUpdate_roundTrips WireEnv.symbolic Crypto.sized [1] cappedUpdate rfl
    sized_sign hid).map channelUpdate
  obtain ⟨bytes, hcreated, hread⟩ := hclaimed
  obtain ⟨bytes', hcreated', hread'⟩ := hcarried
  obtain rfl : bytes = bytes' := Option.some.inj (hcreated.symm.trans hcreated')
  have hshort : bytes.length < 65536 := by
    have hsize := length_of_utlPush hcreated'
    omega
  have hsame := (hread hshort).symm.trans (hread' hshort)
  have hvalue := (Result.done.inj hsame).1
  have hmaximum := congrArg CnlUpdateMsg.htlcMaximumMsat (channelUpdate.inj hvalue)
  exact absurd hmaximum (by decide)

end PeerMsg

end Ptarmigan
