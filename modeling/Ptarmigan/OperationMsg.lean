/-
The wire format of an open channel: the HTLC updates, `commitment_signed`, `revoke_and_ack`,
`update_fee`, `shutdown` and `closing_signed`.
-/
import Ptarmigan.WireMsg
import Ptarmigan.Library.Layout

namespace Ptarmigan

open WireReader

/-! ### HTLC updates -/

/-- `ln_update_add_htlc_t`, as far as the message carries it. -/
structure UpdateAddHtlcMsg where
  channelId : Bytes
  id : UInt64
  amountMsat : UInt64
  paymentSha256 : Bytes
  cltvExpiry : UInt32
  onion : Bytes
deriving DecidableEq, Repr

/-- `ln_msg_update_add_htlc_create`. -/
def lnMsgUpdateAddHtlcCreate (msg : UpdateAddHtlcMsg) : Option Bytes :=
  utlPush (2 + 1450)
    [ lnMiscPush16be MsgType.updateAddHtlc.code, msg.channelId, lnMiscPush64be msg.id
    , lnMiscPush64be msg.amountMsat, msg.paymentSha256, lnMiscPush32be msg.cltvExpiry, msg.onion ]

/-- `ln_msg_update_add_htlc_read`. -/
def lnMsgUpdateAddHtlcRead : WireReader Unit UpdateAddHtlcMsg := do
  readType .updateAddHtlc (2 + 1450) ()
  let channelId ← bytes 32
  let id ← readBe64
  let amountMsat ← readBe64
  let paymentSha256 ← bytes 32
  let cltvExpiry ← readBe32
  let onion ← bytes 1366
  assertInside
  pure { channelId, id, amountMsat, paymentSha256, cltvExpiry, onion }

/-- `LN_SZ_CHANNEL_ID`, `BTC_SZ_HASH256` and `LN_SZ_ONION_ROUTE`. -/
structure UpdateAddHtlcMsg.Sized (msg : UpdateAddHtlcMsg) : Prop where
  channelId : msg.channelId.length = 32
  paymentSha256 : msg.paymentSha256.length = 32
  onion : msg.onion.length = 1366

theorem lnMsgUpdateAddHtlcRead_wp (data : Bytes) :
    wp lnMsgUpdateAddHtlcRead data 0 (ReadWhole .updateAddHtlc data) := by
  simp only [lnMsgUpdateAddHtlcRead, wp_bind]
  apply (wp_readType (by omega)).mpr
  intro hlong _
  simp only [wp_bytes, wp_readBe32, wp_readBe64, wp_assertInside, wp_pure, ReadWhole,
    declaredLength, Nat.reduceAdd]
  omega

theorem lnMsgUpdateAddHtlc_roundTrips {msg : UpdateAddHtlcMsg} (hsized : msg.Sized) :
    RoundTrips (lnMsgUpdateAddHtlcCreate msg) lnMsgUpdateAddHtlcRead msg := by
  apply roundTrips_utlPush
  · simp [hsized.channelId, hsized.paymentSha256, hsized.onion]
  · intro _
    simp only [List.flatten_cons, List.flatten_nil]
    apply Reads.bind (readType_reads (by simp [hsized.channelId, hsized.paymentSha256,
      hsized.onion]))
    apply Reads.bind (Reads.bytes hsized.channelId)
    apply Reads.bind (readBe64_reads _)
    apply Reads.bind (readBe64_reads _)
    apply Reads.bind (Reads.bytes hsized.paymentSha256)
    apply Reads.bind (readBe32_reads _)
    apply Reads.bind (Reads.bytes hsized.onion)
    apply Reads.next Reads.assertInside
    exact Reads.pure msg

/-- `ln_update_fulfill_htlc_t`. -/
structure UpdateFulfillHtlcMsg where
  channelId : Bytes
  id : UInt64
  paymentPreimage : Bytes
deriving DecidableEq, Repr

/-- `ln_msg_update_fulfill_htlc_create`. -/
def lnMsgUpdateFulfillHtlcCreate (msg : UpdateFulfillHtlcMsg) : Option Bytes :=
  utlPush (2 + 72)
    [ lnMiscPush16be MsgType.updateFulfillHtlc.code, msg.channelId, lnMiscPush64be msg.id
    , msg.paymentPreimage ]

/-- `ln_msg_update_fulfill_htlc_read`. -/
def lnMsgUpdateFulfillHtlcRead : WireReader Unit UpdateFulfillHtlcMsg := do
  readType .updateFulfillHtlc (2 + 72) ()
  let channelId ← bytes 32
  let id ← readBe64
  let paymentPreimage ← bytes 32
  assertInside
  pure { channelId, id, paymentPreimage }

structure UpdateFulfillHtlcMsg.Sized (msg : UpdateFulfillHtlcMsg) : Prop where
  channelId : msg.channelId.length = 32
  paymentPreimage : msg.paymentPreimage.length = 32

theorem lnMsgUpdateFulfillHtlcRead_wp (data : Bytes) :
    wp lnMsgUpdateFulfillHtlcRead data 0 (ReadWhole .updateFulfillHtlc data) := by
  simp only [lnMsgUpdateFulfillHtlcRead, wp_bind]
  apply (wp_readType (by omega)).mpr
  intro hlong _
  simp only [wp_bytes, wp_readBe64, wp_assertInside, wp_pure, ReadWhole, declaredLength,
    Nat.reduceAdd]
  omega

theorem lnMsgUpdateFulfillHtlc_roundTrips {msg : UpdateFulfillHtlcMsg} (hsized : msg.Sized) :
    RoundTrips (lnMsgUpdateFulfillHtlcCreate msg) lnMsgUpdateFulfillHtlcRead msg := by
  apply roundTrips_utlPush
  · simp [hsized.channelId, hsized.paymentPreimage]
  · intro _
    simp only [List.flatten_cons, List.flatten_nil]
    apply Reads.bind (readType_reads (by simp [hsized.channelId, hsized.paymentPreimage]))
    apply Reads.bind (Reads.bytes hsized.channelId)
    apply Reads.bind (readBe64_reads _)
    apply Reads.bind (Reads.bytes hsized.paymentPreimage)
    apply Reads.next Reads.assertInside
    exact Reads.pure msg

/-- `ln_update_fail_htlc_t`. -/
structure UpdateFailHtlcMsg where
  channelId : Bytes
  id : UInt64
  reason : Bytes
deriving DecidableEq, Repr

/-- `ln_msg_update_fail_htlc_create`; the length is pushed as 16 bits. -/
def lnMsgUpdateFailHtlcCreate (msg : UpdateFailHtlcMsg) : Option Bytes :=
  utlPush (2 + 42 + msg.reason.length)
    [ lnMiscPush16be MsgType.updateFailHtlc.code, msg.channelId, lnMiscPush64be msg.id
    , lnMiscPush16be msg.reason.length.toUInt16, msg.reason ]

/-- `ln_msg_update_fail_htlc_read`. -/
def lnMsgUpdateFailHtlcRead : WireReader Unit UpdateFailHtlcMsg := do
  readType .updateFailHtlc (2 + 42) ()
  let channelId ← bytes 32
  let id ← readBe64
  let len ← readBe16
  let rest ← remaining
  refuseIf (rest < len.toNat) ()
  let reason ← bytes len.toNat
  assertInside
  pure { channelId, id, reason }

theorem lnMsgUpdateFailHtlcRead_wp (data : Bytes) :
    wp lnMsgUpdateFailHtlcRead data 0 (ReadWhole .updateFailHtlc data) := by
  simp only [lnMsgUpdateFailHtlcRead, wp_bind]
  apply (wp_readType (by omega)).mpr
  intro hlong _
  simp only [wp_bytes, wp_readBe16, wp_readBe64, wp_remaining, wp_refuseIf, wp_assertInside,
    wp_pure, decide_eq_false_iff_not, ReadWhole, declaredLength, countAt, Nat.reduceAdd]
  omega

theorem lnMsgUpdateFailHtlc_roundTrips {msg : UpdateFailHtlcMsg}
    (hchannel : msg.channelId.length = 32) :
    RoundTrips (lnMsgUpdateFailHtlcCreate msg) lnMsgUpdateFailHtlcRead msg := by
  have hlength : [ lnMiscPush16be MsgType.updateFailHtlc.code, msg.channelId, lnMiscPush64be msg.id
      , lnMiscPush16be msg.reason.length.toUInt16, msg.reason ].flatten.length =
      2 + 42 + msg.reason.length := by
    simp only [List.flatten_cons, List.flatten_nil, List.length_append, length_lnMiscPush16be,
      length_lnMiscPush64be, List.length_nil, hchannel]
    omega
  apply roundTrips_utlPush hlength.le
  intro hshort
  rw [hlength] at hshort
  have hlen := @toNat_toUInt16 msg.reason.length (by omega)
  simp only [List.flatten_cons, List.flatten_nil]
  apply Reads.bind (readType_reads (by simp [hchannel]; omega))
  apply Reads.bind (Reads.bytes hchannel)
  apply Reads.bind (readBe64_reads _)
  apply Reads.bind (readBe16_reads _)
  apply Reads.next Reads.remaining
  apply Reads.next (Reads.refuseIf (by simp [hlen]))
  apply Reads.bind (Reads.bytes hlen.symm)
  apply Reads.next Reads.assertInside
  exact Reads.pure msg

/-- `ln_update_fail_malformed_htlc_t`. -/
structure UpdateFailMalformedHtlcMsg where
  channelId : Bytes
  id : UInt64
  sha256Onion : Bytes
  failureCode : UInt16
deriving DecidableEq, Repr

/-- `ln_msg_update_fail_malformed_htlc_create`. -/
def lnMsgUpdateFailMalformedHtlcCreate (msg : UpdateFailMalformedHtlcMsg) : Option Bytes :=
  utlPush (2 + 74)
    [ lnMiscPush16be MsgType.updateFailMalformedHtlc.code, msg.channelId, lnMiscPush64be msg.id
    , msg.sha256Onion, lnMiscPush16be msg.failureCode ]

/-- `ln_msg_update_fail_malformed_htlc_read`. -/
def lnMsgUpdateFailMalformedHtlcRead : WireReader Unit UpdateFailMalformedHtlcMsg := do
  readType .updateFailMalformedHtlc (2 + 74) ()
  let channelId ← bytes 32
  let id ← readBe64
  let sha256Onion ← bytes 32
  let failureCode ← readBe16
  assertInside
  pure { channelId, id, sha256Onion, failureCode }

structure UpdateFailMalformedHtlcMsg.Sized (msg : UpdateFailMalformedHtlcMsg) : Prop where
  channelId : msg.channelId.length = 32
  sha256Onion : msg.sha256Onion.length = 32

theorem lnMsgUpdateFailMalformedHtlcRead_wp (data : Bytes) :
    wp lnMsgUpdateFailMalformedHtlcRead data 0 (ReadWhole .updateFailMalformedHtlc data) := by
  simp only [lnMsgUpdateFailMalformedHtlcRead, wp_bind]
  apply (wp_readType (by omega)).mpr
  intro hlong _
  simp only [wp_bytes, wp_readBe16, wp_readBe64, wp_assertInside, wp_pure, ReadWhole,
    declaredLength, Nat.reduceAdd]
  omega

theorem lnMsgUpdateFailMalformedHtlc_roundTrips {msg : UpdateFailMalformedHtlcMsg}
    (hsized : msg.Sized) :
    RoundTrips (lnMsgUpdateFailMalformedHtlcCreate msg) lnMsgUpdateFailMalformedHtlcRead msg := by
  apply roundTrips_utlPush
  · simp [hsized.channelId, hsized.sha256Onion]
  · intro _
    simp only [List.flatten_cons, List.flatten_nil]
    apply Reads.bind (readType_reads (by simp [hsized.channelId, hsized.sha256Onion]))
    apply Reads.bind (Reads.bytes hsized.channelId)
    apply Reads.bind (readBe64_reads _)
    apply Reads.bind (Reads.bytes hsized.sha256Onion)
    apply Reads.bind (readBe16_reads _)
    apply Reads.next Reads.assertInside
    exact Reads.pure msg

/-! ### `commitment_signed` -/

/-- `ln_commit_signed_t`; the HTLC signatures are one array. -/
structure CommitSignedMsg where
  channelId : Bytes
  signature : Bytes
  numHtlcs : UInt16
  htlcSignature : Bytes
deriving DecidableEq, Repr

/-- The signatures of the array. -/
def CommitSignedMsg.htlcSignatures (msg : CommitSignedMsg) : List Bytes :=
  Layout.cut (List.replicate msg.numHtlcs.toNat 64) msg.htlcSignature

/-- `ln_msg_commit_signed_create`. -/
def lnMsgCommitSignedCreate (msg : CommitSignedMsg) : Option Bytes :=
  utlPush (2 + 98 + msg.numHtlcs.toNat * 64)
    [ lnMiscPush16be MsgType.commitmentSigned.code, msg.channelId, msg.signature
    , lnMiscPush16be msg.numHtlcs, msg.htlcSignature ]

/-- `ln_msg_commit_signed_read`: the array is copied before the length is asserted. -/
def lnMsgCommitSignedRead : WireReader Unit CommitSignedMsg := do
  readType .commitmentSigned (2 + 98) ()
  let channelId ← bytes 32
  let signature ← bytes 64
  let numHtlcs ← readBe16
  let htlcSignature ← bytes (numHtlcs.toNat * 64)
  assertInside
  pure { channelId, signature, numHtlcs, htlcSignature }

structure CommitSignedMsg.Sized (msg : CommitSignedMsg) : Prop where
  channelId : msg.channelId.length = 32
  signature : msg.signature.length = 64
  htlcSignature : msg.htlcSignature.length = msg.numHtlcs.toNat * 64

/-- The array of a `commitment_signed` is read past the end unless all the signatures that it
counts are there. -/
theorem lnMsgCommitSignedRead_wp {data : Bytes} {post : CommitSignedMsg → Nat → Prop}
    (hpost : ∀ msg pos, ReadWhole .commitmentSigned data msg pos → post msg pos) :
    wp lnMsgCommitSignedRead data 0 post ↔
      (2 + 98 ≤ data.length → lnMiscGet16be (slice data 0 2) = MsgType.commitmentSigned.code →
        declaredLength .commitmentSigned data ≤ data.length) := by
  simp only [lnMsgCommitSignedRead, wp_bind]
  rw [wp_readType (by omega)]
  simp only [ReadWhole, declaredLength, countAt] at hpost
  simp only [wp_bytes, wp_readBe16, wp_assertInside, wp_pure, declaredLength, countAt,
    Nat.reduceAdd]
  constructor
  · intro hread hlong htype
    exact (hread hlong htype).2.2.2.1
  · intro hfits hlong htype
    have hinside := hfits hlong htype
    exact ⟨by omega, by omega, by omega, hinside, hinside, hpost _ _ ⟨le_rfl, hinside⟩⟩

theorem lnMsgCommitSigned_roundTrips {msg : CommitSignedMsg} (hsized : msg.Sized) :
    RoundTrips (lnMsgCommitSignedCreate msg) lnMsgCommitSignedRead msg := by
  apply roundTrips_utlPush
  · simp only [List.flatten_cons, List.flatten_nil, List.length_append, length_lnMiscPush16be,
      List.length_nil, hsized.channelId, hsized.signature, hsized.htlcSignature]
    omega
  · intro _
    simp only [List.flatten_cons, List.flatten_nil]
    apply Reads.bind (readType_reads (by simp [hsized.channelId, hsized.signature]; omega))
    apply Reads.bind (Reads.bytes hsized.channelId)
    apply Reads.bind (Reads.bytes hsized.signature)
    apply Reads.bind (readBe16_reads _)
    apply Reads.bind (Reads.bytes hsized.htlcSignature)
    apply Reads.next Reads.assertInside
    exact Reads.pure msg

/-! ### `revoke_and_ack` and `update_fee` -/

/-- `ln_revoke_and_ack_t`. -/
structure RevokeAndAckMsg where
  channelId : Bytes
  perCommitSecret : Bytes
  perCommitpt : Bytes
deriving DecidableEq, Repr

/-- `ln_msg_revoke_and_ack_create`. -/
def lnMsgRevokeAndAckCreate (msg : RevokeAndAckMsg) : Option Bytes :=
  utlPush (2 + 97)
    [ lnMiscPush16be MsgType.revokeAndAck.code, msg.channelId, msg.perCommitSecret
    , msg.perCommitpt ]

/-- `ln_msg_revoke_and_ack_read`. -/
def lnMsgRevokeAndAckRead : WireReader Unit RevokeAndAckMsg := do
  readType .revokeAndAck (2 + 97) ()
  let channelId ← bytes 32
  let perCommitSecret ← bytes 32
  let perCommitpt ← bytes 33
  assertInside
  pure { channelId, perCommitSecret, perCommitpt }

structure RevokeAndAckMsg.Sized (msg : RevokeAndAckMsg) : Prop where
  channelId : msg.channelId.length = 32
  perCommitSecret : msg.perCommitSecret.length = 32
  perCommitpt : msg.perCommitpt.length = 33

theorem lnMsgRevokeAndAckRead_wp (data : Bytes) :
    wp lnMsgRevokeAndAckRead data 0 (ReadWhole .revokeAndAck data) := by
  simp only [lnMsgRevokeAndAckRead, wp_bind]
  apply (wp_readType (by omega)).mpr
  intro hlong _
  simp only [wp_bytes, wp_assertInside, wp_pure, ReadWhole, declaredLength, Nat.reduceAdd]
  omega

theorem lnMsgRevokeAndAck_roundTrips {msg : RevokeAndAckMsg} (hsized : msg.Sized) :
    RoundTrips (lnMsgRevokeAndAckCreate msg) lnMsgRevokeAndAckRead msg := by
  apply roundTrips_utlPush
  · simp [hsized.channelId, hsized.perCommitSecret, hsized.perCommitpt]
  · intro _
    simp only [List.flatten_cons, List.flatten_nil]
    apply Reads.bind (readType_reads (by simp [hsized.channelId, hsized.perCommitSecret,
      hsized.perCommitpt]))
    apply Reads.bind (Reads.bytes hsized.channelId)
    apply Reads.bind (Reads.bytes hsized.perCommitSecret)
    apply Reads.bind (Reads.bytes hsized.perCommitpt)
    apply Reads.next Reads.assertInside
    exact Reads.pure msg

/-- `ln_update_fee_t`. -/
structure UpdateFeeMsg where
  channelId : Bytes
  feeratePerKw : UInt32
deriving DecidableEq, Repr

/-- `ln_msg_update_fee_create`. -/
def lnMsgUpdateFeeCreate (msg : UpdateFeeMsg) : Option Bytes :=
  utlPush (2 + 36)
    [lnMiscPush16be MsgType.updateFee.code, msg.channelId, lnMiscPush32be msg.feeratePerKw]

/-- `ln_msg_update_fee_read`. -/
def lnMsgUpdateFeeRead : WireReader Unit UpdateFeeMsg := do
  readType .updateFee (2 + 36) ()
  let channelId ← bytes 32
  let feeratePerKw ← readBe32
  assertInside
  pure { channelId, feeratePerKw }

theorem lnMsgUpdateFeeRead_wp (data : Bytes) :
    wp lnMsgUpdateFeeRead data 0 (ReadWhole .updateFee data) := by
  simp only [lnMsgUpdateFeeRead, wp_bind]
  apply (wp_readType (by omega)).mpr
  intro hlong _
  simp only [wp_bytes, wp_readBe32, wp_assertInside, wp_pure, ReadWhole, declaredLength,
    Nat.reduceAdd]
  omega

theorem lnMsgUpdateFee_roundTrips {msg : UpdateFeeMsg} (hchannel : msg.channelId.length = 32) :
    RoundTrips (lnMsgUpdateFeeCreate msg) lnMsgUpdateFeeRead msg := by
  apply roundTrips_utlPush
  · simp [hchannel]
  · intro _
    simp only [List.flatten_cons, List.flatten_nil]
    apply Reads.bind (readType_reads (by simp [hchannel]))
    apply Reads.bind (Reads.bytes hchannel)
    apply Reads.bind (readBe32_reads _)
    apply Reads.next Reads.assertInside
    exact Reads.pure msg

/-! ### `shutdown` and `closing_signed` -/

/-- `ln_shutdown_t`. -/
structure ShutdownMsg where
  channelId : Bytes
  scriptpk : Bytes
deriving DecidableEq, Repr

/-- `ln_msg_shutdown_create`; the length is pushed as 16 bits. -/
def lnMsgShutdownCreate (msg : ShutdownMsg) : Option Bytes :=
  utlPush (2 + 34 + msg.scriptpk.length)
    [ lnMiscPush16be MsgType.shutdown.code, msg.channelId
    , lnMiscPush16be msg.scriptpk.length.toUInt16, msg.scriptpk ]

/-- `ln_msg_shutdown_read`. -/
def lnMsgShutdownRead : WireReader Unit ShutdownMsg := do
  readType .shutdown (2 + 34) ()
  let channelId ← bytes 32
  let len ← readBe16
  let rest ← remaining
  refuseIf (rest < len.toNat) ()
  let scriptpk ← bytes len.toNat
  assertInside
  pure { channelId, scriptpk }

theorem lnMsgShutdownRead_wp (data : Bytes) :
    wp lnMsgShutdownRead data 0 (ReadWhole .shutdown data) := by
  simp only [lnMsgShutdownRead, wp_bind]
  apply (wp_readType (by omega)).mpr
  intro hlong _
  simp only [wp_bytes, wp_readBe16, wp_remaining, wp_refuseIf, wp_assertInside, wp_pure,
    decide_eq_false_iff_not, ReadWhole, declaredLength, countAt, Nat.reduceAdd]
  omega

theorem lnMsgShutdown_roundTrips {msg : ShutdownMsg} (hchannel : msg.channelId.length = 32) :
    RoundTrips (lnMsgShutdownCreate msg) lnMsgShutdownRead msg := by
  have hlength : [ lnMiscPush16be MsgType.shutdown.code, msg.channelId
      , lnMiscPush16be msg.scriptpk.length.toUInt16, msg.scriptpk ].flatten.length =
      2 + 34 + msg.scriptpk.length := by
    simp only [List.flatten_cons, List.flatten_nil, List.length_append, length_lnMiscPush16be,
      List.length_nil, hchannel]
    omega
  apply roundTrips_utlPush hlength.le
  intro hshort
  rw [hlength] at hshort
  have hlen := @toNat_toUInt16 msg.scriptpk.length (by omega)
  simp only [List.flatten_cons, List.flatten_nil]
  apply Reads.bind (readType_reads (by simp [hchannel]; omega))
  apply Reads.bind (Reads.bytes hchannel)
  apply Reads.bind (readBe16_reads _)
  apply Reads.next Reads.remaining
  apply Reads.next (Reads.refuseIf (by simp [hlen]))
  apply Reads.bind (Reads.bytes hlen.symm)
  apply Reads.next Reads.assertInside
  exact Reads.pure msg

/-- `ln_closing_signed_t`. -/
structure ClosingSignedMsg where
  channelId : Bytes
  feeSat : UInt64
  signature : Bytes
deriving DecidableEq, Repr

/-- `ln_msg_closing_signed_create`. -/
def lnMsgClosingSignedCreate (msg : ClosingSignedMsg) : Option Bytes :=
  utlPush (2 + 104)
    [ lnMiscPush16be MsgType.closingSigned.code, msg.channelId, lnMiscPush64be msg.feeSat
    , msg.signature ]

/-- `ln_msg_closing_signed_read`. -/
def lnMsgClosingSignedRead : WireReader Unit ClosingSignedMsg := do
  readType .closingSigned (2 + 104) ()
  let channelId ← bytes 32
  let feeSat ← readBe64
  let signature ← bytes 64
  assertInside
  pure { channelId, feeSat, signature }

structure ClosingSignedMsg.Sized (msg : ClosingSignedMsg) : Prop where
  channelId : msg.channelId.length = 32
  signature : msg.signature.length = 64

theorem lnMsgClosingSignedRead_wp (data : Bytes) :
    wp lnMsgClosingSignedRead data 0 (ReadWhole .closingSigned data) := by
  simp only [lnMsgClosingSignedRead, wp_bind]
  apply (wp_readType (by omega)).mpr
  intro hlong _
  simp only [wp_bytes, wp_readBe64, wp_assertInside, wp_pure, ReadWhole, declaredLength,
    Nat.reduceAdd]
  omega

theorem lnMsgClosingSigned_roundTrips {msg : ClosingSignedMsg} (hsized : msg.Sized) :
    RoundTrips (lnMsgClosingSignedCreate msg) lnMsgClosingSignedRead msg := by
  apply roundTrips_utlPush
  · simp [hsized.channelId, hsized.signature]
  · intro _
    simp only [List.flatten_cons, List.flatten_nil]
    apply Reads.bind (readType_reads (by simp [hsized.channelId, hsized.signature]))
    apply Reads.bind (Reads.bytes hsized.channelId)
    apply Reads.bind (readBe64_reads _)
    apply Reads.bind (Reads.bytes hsized.signature)
    apply Reads.next Reads.assertInside
    exact Reads.pure msg

end Ptarmigan
