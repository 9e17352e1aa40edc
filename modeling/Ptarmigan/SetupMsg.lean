/-
The wire format of the setup and control messages: `init`, `error`, `ping` and `pong`.
-/
import Ptarmigan.WireMsg

namespace Ptarmigan

open WireReader

/-! ### `init` -/

/-- `ln_init_t`. -/
structure InitMsg where
  globalfeatures : Bytes
  localfeatures : Bytes
deriving DecidableEq, Repr

/-- `ln_msg_init_create`; the lengths are pushed as 16 bits. -/
def lnMsgInitCreate (msg : InitMsg) : Option Bytes :=
  utlPush (2 + 4 + msg.globalfeatures.length + msg.localfeatures.length)
    [ lnMiscPush16be MsgType.init.code
    , lnMiscPush16be msg.globalfeatures.length.toUInt16, msg.globalfeatures
    , lnMiscPush16be msg.localfeatures.length.toUInt16, msg.localfeatures ]

/-- `ln_msg_init_read`. -/
def lnMsgInitRead : WireReader Unit InitMsg := do
  readType .init (2 + 4) ()
  let gflen ← readBe16
  atLeast (2 + 4 + gflen.toNat) ()
  let globalfeatures ← bytes gflen.toNat
  let lflen ← readBe16
  atLeast (2 + 4 + gflen.toNat + lflen.toNat) ()
  let localfeatures ← bytes lflen.toNat
  assertInside
  pure { globalfeatures, localfeatures }

theorem lnMsgInitRead_wp (data : Bytes) :
    wp lnMsgInitRead data 0 (ReadWhole .init data) := by
  simp only [lnMsgInitRead, wp_bind]
  apply (wp_readType (by omega)).mpr
  intro hlong _
  simp only [wp_bytes, wp_readBe16, wp_atLeast, wp_assertInside, wp_pure, ReadWhole,
    declaredLength, countAt, Nat.reduceAdd]
  omega

theorem lnMsgInit_roundTrips (msg : InitMsg) :
    RoundTrips (lnMsgInitCreate msg) lnMsgInitRead msg := by
  have hlength : [ lnMiscPush16be MsgType.init.code
      , lnMiscPush16be msg.globalfeatures.length.toUInt16, msg.globalfeatures
      , lnMiscPush16be msg.localfeatures.length.toUInt16, msg.localfeatures ].flatten.length =
      2 + 4 + msg.globalfeatures.length + msg.localfeatures.length := by
    simp only [List.flatten_cons, List.flatten_nil, List.length_append, length_lnMiscPush16be,
      List.length_nil]
    omega
  apply roundTrips_utlPush hlength.le
  intro hshort
  rw [hlength] at hshort
  have hgflen := @toNat_toUInt16 msg.globalfeatures.length (by omega)
  have hlflen := @toNat_toUInt16 msg.localfeatures.length (by omega)
  simp only [List.flatten_cons, List.flatten_nil]
  apply Reads.bind (readType_reads (by simp; omega))
  apply Reads.bind (readBe16_reads _)
  apply Reads.next (Reads.atLeast (by simp [hgflen]; omega))
  apply Reads.bind (Reads.bytes hgflen.symm)
  apply Reads.bind (readBe16_reads _)
  apply Reads.next (Reads.atLeast (by simp [hgflen, hlflen]; omega))
  apply Reads.bind (Reads.bytes hlflen.symm)
  apply Reads.next Reads.assertInside
  exact Reads.pure msg

/-! ### `error` -/

/-- `ln_error_t`. -/
structure ErrorMsg where
  channelId : Bytes
  data : Bytes
deriving DecidableEq, Repr

/-- `ln_msg_error_create`. -/
def lnMsgErrorCreate (msg : ErrorMsg) : Option Bytes :=
  utlPush (2 + 32 + 2 + msg.data.length)
    [ lnMiscPush16be MsgType.error.code, msg.channelId
    , lnMiscPush16be msg.data.length.toUInt16, msg.data ]

/-- `ln_msg_error_read`: only the type, the length field and two more bytes are checked to be
there. -/
def lnMsgErrorRead : WireReader Unit ErrorMsg := do
  readType .error (2 + 4) ()
  let channelId ← bytes 32
  let len ← readBe16
  let data ← bytes len.toNat
  pure { channelId, data }

/-- The data of an `error` is read past the end unless its channel id, its length field and the
bytes that the field counts are all there. -/
theorem lnMsgErrorRead_wp {data : Bytes} {post : ErrorMsg → Nat → Prop}
    (hpost : ∀ msg pos, ReadWhole .error data msg pos → post msg pos) :
    wp lnMsgErrorRead data 0 post ↔
      (2 + 4 ≤ data.length → lnMiscGet16be (slice data 0 2) = MsgType.error.code →
        declaredLength .error data ≤ data.length) := by
  simp only [lnMsgErrorRead, wp_bind]
  rw [wp_readType (by omega)]
  simp only [ReadWhole, declaredLength, countAt] at hpost
  simp only [wp_bytes, wp_readBe16, wp_pure, declaredLength, countAt, Nat.reduceAdd]
  constructor
  · intro hread hlong htype
    exact (hread hlong htype).2.2.1
  · intro hfits hlong htype
    have hinside := hfits hlong htype
    exact ⟨by omega, by omega, hinside, hpost _ _ ⟨le_rfl, hinside⟩⟩

theorem lnMsgError_roundTrips {msg : ErrorMsg} (hchannel : msg.channelId.length = 32) :
    RoundTrips (lnMsgErrorCreate msg) lnMsgErrorRead msg := by
  have hlength : [ lnMiscPush16be MsgType.error.code, msg.channelId
      , lnMiscPush16be msg.data.length.toUInt16, msg.data ].flatten.length =
      2 + 32 + 2 + msg.data.length := by
    simp only [List.flatten_cons, List.flatten_nil, List.length_append, length_lnMiscPush16be,
      List.length_nil, hchannel]
    omega
  apply roundTrips_utlPush hlength.le
  intro hshort
  rw [hlength] at hshort
  have hlen := @toNat_toUInt16 msg.data.length (by omega)
  simp only [List.flatten_cons, List.flatten_nil]
  apply Reads.bind (readType_reads (by simp [hchannel]; omega))
  apply Reads.bind (Reads.bytes hchannel)
  apply Reads.bind (readBe16_reads _)
  apply Reads.bind (Reads.bytes hlen.symm)
  exact Reads.pure msg

/-! ### `ping` and `pong` -/

/-- What the writers refuse is what the readers refuse. -/
theorem pongLimit_passes {count : UInt16} (hcount : count < 65532) :
    decide (count > 65531) = false := by
  apply decide_eq_false
  apply UInt16.not_lt.mpr
  exact UInt16.le_iff_toNat_le.mpr (Nat.le_of_lt_succ (UInt16.lt_iff_toNat_lt.mp hcount))

/-- `ln_ping_t`; the ignored bytes are zeroes. -/
structure PingMsg where
  numPongBytes : UInt16
  byteslen : UInt16
deriving DecidableEq, Repr

/-- `ln_msg_ping_create`. -/
def lnMsgPingCreate (msg : PingMsg) : Option Bytes :=
  if msg.numPongBytes ≥ 65532 then none
  else
    utlPush (2 + 4 + msg.byteslen.toNat)
      [ lnMiscPush16be MsgType.ping.code, lnMiscPush16be msg.numPongBytes
      , lnMiscPush16be msg.byteslen, List.replicate msg.byteslen.toNat 0 ]

/-- `ln_msg_ping_read`. -/
def lnMsgPingRead : WireReader Unit PingMsg := do
  readType .ping (2 + 4) ()
  let numPongBytes ← readBe16
  refuseIf (numPongBytes > 65531) ()
  let byteslen ← readBe16
  atLeast (2 + 4 + byteslen.toNat) ()
  skip byteslen.toNat
  assertInside
  pure { numPongBytes, byteslen }

theorem lnMsgPingRead_wp (data : Bytes) :
    wp lnMsgPingRead data 0 (ReadWhole .ping data) := by
  simp only [lnMsgPingRead, wp_bind]
  apply (wp_readType (by omega)).mpr
  intro hlong _
  simp only [wp_readBe16, wp_refuseIf, wp_atLeast, wp_skip, wp_assertInside, wp_pure, ReadWhole,
    declaredLength, countAt, Nat.reduceAdd]
  omega

theorem lnMsgPing_roundTrips {msg : PingMsg} (hpong : msg.numPongBytes < 65532) :
    RoundTrips (lnMsgPingCreate msg) lnMsgPingRead msg := by
  have hlarge : ¬ msg.numPongBytes ≥ 65532 := UInt16.not_le.mpr hpong
  rw [lnMsgPingCreate, if_neg hlarge]
  apply roundTrips_utlPush
  · simp only [List.flatten_cons, List.flatten_nil, List.length_append, length_lnMiscPush16be,
      List.length_replicate, List.length_nil]
    omega
  · intro _
    simp only [List.flatten_cons, List.flatten_nil]
    apply Reads.bind (readType_reads (by simp; omega))
    apply Reads.bind (readBe16_reads _)
    apply Reads.next (Reads.refuseIf (pongLimit_passes hpong))
    apply Reads.bind (readBe16_reads _)
    apply Reads.next (Reads.atLeast (by simp))
    apply Reads.bind (Reads.skip List.length_replicate)
    apply Reads.next Reads.assertInside
    exact Reads.pure msg

/-- `ln_pong_t`. -/
structure PongMsg where
  byteslen : UInt16
deriving DecidableEq, Repr

/-- `ln_msg_pong_create`. -/
def lnMsgPongCreate (msg : PongMsg) : Option Bytes :=
  if msg.byteslen ≥ 65532 then none
  else
    utlPush (2 + 2 + msg.byteslen.toNat)
      [ lnMiscPush16be MsgType.pong.code, lnMiscPush16be msg.byteslen
      , List.replicate msg.byteslen.toNat 0 ]

/-- `ln_msg_pong_read`. -/
def lnMsgPongRead : WireReader Unit PongMsg := do
  readType .pong (2 + 2) ()
  let byteslen ← readBe16
  refuseIf (byteslen > 65531) ()
  atLeast (2 + 2 + byteslen.toNat) ()
  skip byteslen.toNat
  assertInside
  pure { byteslen }

theorem lnMsgPongRead_wp (data : Bytes) :
    wp lnMsgPongRead data 0 (ReadWhole .pong data) := by
  simp only [lnMsgPongRead, wp_bind]
  apply (wp_readType (by omega)).mpr
  intro hlong _
  simp only [wp_readBe16, wp_refuseIf, wp_atLeast, wp_skip, wp_assertInside, wp_pure, ReadWhole,
    declaredLength, countAt, Nat.reduceAdd]
  omega

theorem lnMsgPong_roundTrips {msg : PongMsg} (hpong : msg.byteslen < 65532) :
    RoundTrips (lnMsgPongCreate msg) lnMsgPongRead msg := by
  have hlarge : ¬ msg.byteslen ≥ 65532 := UInt16.not_le.mpr hpong
  rw [lnMsgPongCreate, if_neg hlarge]
  apply roundTrips_utlPush
  · simp only [List.flatten_cons, List.flatten_nil, List.length_append, length_lnMiscPush16be,
      List.length_replicate, List.length_nil]
    omega
  · intro _
    simp only [List.flatten_cons, List.flatten_nil]
    apply Reads.bind (readType_reads (by simp; omega))
    apply Reads.bind (readBe16_reads _)
    apply Reads.next (Reads.refuseIf (pongLimit_passes hpong))
    apply Reads.next (Reads.atLeast (by simp))
    apply Reads.bind (Reads.skip List.length_replicate)
    apply Reads.next Reads.assertInside
    exact Reads.pure msg

end Ptarmigan
