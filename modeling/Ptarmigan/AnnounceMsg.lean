/-
The wire format of the announcements: `channel_announcement`, `node_announcement`,
`channel_update` and `announcement_signatures`, with what signs and verifies them.
-/
import Ptarmigan.WireMsg
import Ptarmigan.Derkey

namespace Ptarmigan

open WireReader

variable {env : WireEnv} {crypto : Crypto}

/-- `btc_util_hash256`. -/
def Crypto.hash256 (crypto : Crypto) (data : Bytes) : Bytes :=
  crypto.sha256 (crypto.sha256 data)

/-! ### `channel_announcement` -/

/-- `cnl_announce_ptr_t`, with what its pointers point to. -/
structure CnlAnnouncePtr where
  nodeSignature1 : Bytes
  nodeSignature2 : Bytes
  btcSignature1 : Bytes
  btcSignature2 : Bytes
  shortChannelId : UInt64
  nodeId1 : Bytes
  nodeId2 : Bytes
  btcKey1 : Bytes
  btcKey2 : Bytes
deriving DecidableEq, Repr

/-- `cnl_announce_ptr`: the length is compared at the end. -/
def cnlAnnouncePtr (env : WireEnv) : WireReader Unit CnlAnnouncePtr := do
  skip (4 * 64)
  let len ← readBe16
  skip len.toNat
  let chainHash ← bytes 32
  refuseIf (chainHash != env.genesisChainHash) ()
  let shortChannelId ← readBe64
  let keys ← position
  skip (4 * 33)
  let pos ← position
  let whole ← message
  refuseIf (whole.length != pos) ()
  pure
    { nodeSignature1 := slice whole 2 64
      nodeSignature2 := slice whole 66 64
      btcSignature1 := slice whole 130 64
      btcSignature2 := slice whole 194 64
      shortChannelId
      nodeId1 := slice whole keys 33
      nodeId2 := slice whole (keys + 33) 33
      btcKey1 := slice whole (keys + 66) 33
      btcKey2 := slice whole (keys + 99) 33 }

/-- `ln_msg_cnl_announce_read`. -/
def lnMsgCnlAnnounceRead (env : WireEnv) : WireReader Unit CnlAnnouncePtr := do
  readType .channelAnnouncement (2 + 430) ()
  cnlAnnouncePtr env

/-- The chain hash behind the features is inside the message, and so is the `short_channel_id` when
the chain hash is the right one. -/
def CnlAnnounceFits (env : WireEnv) (data : Bytes) : Prop :=
  292 + countAt data 258 ≤ data.length ∧
    (slice data (260 + countAt data 258) 32 = env.genesisChainHash →
      300 + countAt data 258 ≤ data.length)

/-- A `channel_announcement` is read past the end unless it fits. -/
theorem lnMsgCnlAnnounceRead_wp {data : Bytes} {post : CnlAnnouncePtr → Nat → Prop}
    (hpost : ∀ msg pos, ReadWhole .channelAnnouncement data msg pos → post msg pos) :
    wp (lnMsgCnlAnnounceRead env) data 0 post ↔
      (2 + 430 ≤ data.length → lnMiscGet16be (slice data 0 2) = MsgType.channelAnnouncement.code →
        CnlAnnounceFits env data) := by
  simp only [lnMsgCnlAnnounceRead, cnlAnnouncePtr, wp_bind]
  rw [wp_readType (by omega)]
  simp only [ReadWhole, declaredLength, countAt] at hpost
  simp only [wp_bytes, wp_readBe16, wp_readBe64, wp_skip, wp_position, wp_message, wp_refuseIf,
    wp_pure, bne_eq_false_iff_eq, CnlAnnounceFits, countAt, Nat.reduceAdd, Nat.reduceMul]
  generalize (lnMiscGet16be (slice data 258 2)).toNat = flen at hpost ⊢
  constructor
  · intro hread hlong htype
    obtain ⟨_, hchain, hid⟩ := hread hlong htype
    refine ⟨by omega, fun hgenesis => ?_⟩
    have hinside := (hid hgenesis).1
    omega
  · intro hfits hlong htype
    obtain ⟨hchain, hid⟩ := hfits hlong htype
    refine ⟨by omega, by omega, fun hgenesis => ?_⟩
    have hinside := hid hgenesis
    refine ⟨by omega, fun hlength => hpost _ _ ?_⟩
    omega

/-- `ln_msg_cnl_announce_verify`; `none` is the failed `assert` of a signature that does not
verify, or a fault of `cnl_announce_ptr`. -/
def lnMsgCnlAnnounceVerify (env : WireEnv) (crypto : Crypto) (data : Bytes) : Option Bool :=
  match (skip 2 >>= fun _ => cnlAnnouncePtr env).run data with
  | .refused _ => some false
  | .fault _ => none
  | .done ptr _ =>
      let hash := crypto.hash256 (data.drop (2 + 4 * 64))
      if crypto.verify ptr.nodeSignature1 hash ptr.nodeId1 &&
          crypto.verify ptr.nodeSignature2 hash ptr.nodeId2 &&
          crypto.verify ptr.btcSignature1 hash ptr.btcKey1 &&
          crypto.verify ptr.btcSignature2 hash ptr.btcKey2 then
        some true
      else none

/-! ### `node_announcement` -/

/-- `ln_nodedesc_t`. -/
inductive LnNodedesc
  | none
  | ipv4
  | ipv6
  | onionv2
  | onionv3
deriving DecidableEq, Repr

def LnNodedesc.code : LnNodedesc → UInt8
  | .none => 0
  | .ipv4 => 1
  | .ipv6 => 2
  | .onionv2 => 3
  | .onionv3 => 4

/-- The descriptor of a byte, up to `LN_NODEDESC_MAX`. -/
def LnNodedesc.ofCode (code : UInt8) : Option LnNodedesc :=
  [none, ipv4, ipv6, onionv2, onionv3].find? fun desc => desc.code == code

/-- `M_ADDRLEN`. -/
def LnNodedesc.addrlen : LnNodedesc → Nat
  | .none => 0
  | .ipv4 => 4
  | .ipv6 => 16
  | .onionv2 => 10
  | .onionv3 => 35

/-- `M_ADDRLEN2`, with the port. -/
def LnNodedesc.addrlen2 : LnNodedesc → Nat
  | .none => 0
  | .ipv4 => 6
  | .ipv6 => 18
  | .onionv2 => 12
  | .onionv3 => 37

@[simp] theorem LnNodedesc.ofCode_code (desc : LnNodedesc) : ofCode desc.code = some desc := by
  cases desc <;> rfl

theorem LnNodedesc.addrlen2_eq {desc : LnNodedesc} (hdesc : desc ≠ .none) :
    desc.addrlen2 = desc.addrlen + 2 := by
  cases desc with
  | none => exact absurd rfl hdesc
  | ipv4 => rfl
  | ipv6 => rfl
  | onionv2 => rfl
  | onionv3 => rfl

/-- `ln_nodeaddr_t`; without an address there is no port either. -/
structure LnNodeaddr where
  type : LnNodedesc
  addr : Bytes := []
  port : UInt16 := 0
deriving DecidableEq, Repr

/-- `ln_node_announce_t`; the alias is the 32 bytes of its buffer. -/
structure NodeAnnounceMsg where
  timestamp : UInt32
  nodeId : Bytes
  rgbcolor : Bytes
  nodeAlias : Bytes
  addr : LnNodeaddr
deriving DecidableEq, Repr

/-- The addresses of a `node_announcement`. -/
def nodeaddrFields (addr : LnNodeaddr) : List Bytes :=
  match addr.type with
  | .none => [lnMiscPush16be 0]
  | desc =>
      [lnMiscPush16be (1 + desc.addrlen2).toUInt16, [desc.code], addr.addr,
       lnMiscPush16be addr.port]

/-- What is signed of a `node_announcement`. -/
def nodeAnnounceFields (msg : NodeAnnounceMsg) : List Bytes :=
  [lnMiscPush16be 0, lnMiscPush32be msg.timestamp, msg.nodeId, msg.rgbcolor, msg.nodeAlias] ++
    nodeaddrFields msg.addr

/-- `ln_msg_node_announce_create`, signed with the node key. -/
def lnMsgNodeAnnounceCreate (crypto : Crypto) (nodeKey : Bytes) (msg : NodeAnnounceMsg) :
    Option Bytes :=
  utlPush (2 + 141 + msg.addr.type.addrlen2)
    (lnMiscPush16be MsgType.nodeAnnouncement.code ::
      crypto.sign nodeKey (crypto.hash256 (nodeAnnounceFields msg).flatten) ::
      nodeAnnounceFields msg)

/-- The address behind its descriptor, and what `addrlen` counts beyond it. -/
def readNodedesc (addrlen : Nat) : WireReader Unit LnNodeaddr := do
  let code ← readByte
  match LnNodedesc.ofCode code with
  | none => refuse ()
  | some type => do
      refuseIf (addrlen - 1 < type.addrlen2) ()
      let addr ← readIf (type ≠ .none) (bytes type.addrlen) []
      let port ← readIf (type ≠ .none) readBe16 0
      skip (addrlen - 1 - type.addrlen2)
      pure { type, addr, port }

/-- `ln_msg_node_announce_read`, up to the signature. -/
def readNodeAnnounce : WireReader Unit NodeAnnounceMsg := do
  readType .nodeAnnouncement (2 + 140) ()
  skip 64
  let flen ← readBe16
  skip flen.toNat
  let timestamp ← readBe32
  let nodeId ← bytes 33
  let rgbcolor ← bytes 3
  let nodeAlias ← bytes 32
  let addrlen ← readBe16
  let addr ← readIf (addrlen > 0) (readNodedesc addrlen.toNat) { type := .none }
  assertInside
  pure { timestamp, nodeId, rgbcolor, nodeAlias, addr }

/-- `ln_msg_node_announce_read`. -/
def lnMsgNodeAnnounceRead (crypto : Crypto) : WireReader Unit NodeAnnounceMsg := do
  let msg ← readNodeAnnounce
  let pos ← position
  let whole ← message
  refuseIf (!crypto.verify (slice whole 2 64) (crypto.hash256 (slice whole 66 (pos - 66)))
    msg.nodeId) ()
  pure msg

/-- The descriptor that stands at a position. -/
def nodedescAt (data : Bytes) (pos : Nat) : Option LnNodedesc :=
  LnNodedesc.ofCode ((slice data pos 1).headD 0)

theorem wp_readNodedesc {data : Bytes} {pos addrlen : Nat} {post : LnNodeaddr → Nat → Prop}
    (hsome : 0 < addrlen)
    (hpost : ∀ addr, post addr (pos + addrlen) ↔ pos + addrlen ≤ data.length) :
    (wp (readNodedesc addrlen) data pos post) ↔
      pos + 1 ≤ data.length ∧ ∀ desc, nodedescAt data pos = some desc →
        desc.addrlen2 < addrlen → pos + addrlen ≤ data.length := by
  have hcode : LnNodedesc.ofCode (((data.drop pos).take 1).headD 0) = nodedescAt data pos := rfl
  simp only [readNodedesc, wp_bind, wp_readByte, hcode]
  apply and_congr_right
  intro hinside
  cases hdesc : nodedescAt data pos with
  | none => simp
  | some desc =>
      simp only [wp_bind, wp_refuseIf, wp_readIf, wp_bytes, wp_readBe16, wp_skip, wp_pure,
        Option.some.injEq, forall_eq', decide_eq_true_eq, decide_eq_false_iff_not, Nat.not_lt,
        ne_eq, not_not]
      have hroom : desc.addrlen2 ≤ addrlen - 1 ↔ desc.addrlen2 < addrlen := by omega
      rw [hroom]
      apply forall_congr'
      intro hfits
      by_cases hnone : desc = .none
      · subst hnone
        have hend : pos + 1 + (addrlen - 1 - LnNodedesc.addrlen2 .none) = pos + addrlen := by
          rw [LnNodedesc.addrlen2]
          omega
        simp only [hend, hpost, not_true_eq_false, false_implies, true_implies, true_and]
      · have hport := LnNodedesc.addrlen2_eq hnone
        have hend : pos + 1 + desc.addrlen + 2 + (addrlen - 1 - desc.addrlen2) = pos + addrlen := by
          omega
        simp only [hnone, hend, hpost, not_false_eq_true, forall_const, false_implies, and_true]
        omega

/-- The features leave room for the fields behind them, and so do the addresses, unless their
descriptor is unknown or needs more than `addrlen`. -/
def NodeAnnounceFits (data : Bytes) : Prop :=
  let behind := 142 + countAt data 66
  let addrlen := countAt data (140 + countAt data 66)
  behind ≤ data.length ∧
    (0 < addrlen → behind + 1 ≤ data.length ∧ ∀ desc, nodedescAt data behind = some desc →
      desc.addrlen2 < addrlen → behind + addrlen ≤ data.length)

theorem readNodeAnnounce_wp {data : Bytes} {post : NodeAnnounceMsg → Nat → Prop}
    (hpost : ∀ msg pos, pos = declaredLength .nodeAnnouncement data → pos ≤ data.length →
      post msg pos) :
    wp readNodeAnnounce data 0 post ↔
      (2 + 140 ≤ data.length → lnMiscGet16be (slice data 0 2) = MsgType.nodeAnnouncement.code →
        NodeAnnounceFits data) := by
  simp only [readNodeAnnounce, wp_bind]
  rw [wp_readType (by omega)]
  apply forall_congr'
  intro hlong
  apply forall_congr'
  intro _
  simp only [wp_bytes, wp_readBe16, wp_readBe32, wp_skip, wp_readIf, wp_assertInside, wp_pure,
    decide_eq_true_eq, decide_eq_false_iff_not, NodeAnnounceFits, Nat.reduceAdd]
  simp only [declaredLength, countAt] at hpost ⊢
  generalize hflen : (lnMiscGet16be (slice data 66 2)).toNat = flen at hpost ⊢
  have hbehind : 68 + flen + 4 + 33 + 3 + 32 + 2 = 142 + flen := by omega
  have hbefore : 68 + flen + 4 + 33 + 3 + 32 = 140 + flen := by omega
  rw [hbehind, hbefore]
  generalize lnMiscGet16be (slice data (140 + flen) 2) = addrlen at hpost ⊢
  by_cases hsome : addrlen > 0
  · have hsome' : 0 < addrlen.toNat := UInt16.lt_iff_toNat_lt.mp hsome
    rw [wp_readNodedesc hsome']
    · simp only [hsome, hsome', true_implies, not_true_eq_false, false_implies, and_true]
      constructor
      · intro hread
        exact ⟨by omega, hread.2.2.2.2.2.2⟩
      · intro hfits
        exact ⟨by omega, by omega, by omega, by omega, by omega, by omega, hfits.2⟩
    · intro addr
      apply and_iff_left_of_imp
      intro hinside
      exact hpost _ _ rfl hinside
  · have hzero : ¬ 0 < addrlen.toNat := fun hpos => hsome (UInt16.lt_iff_toNat_lt.mpr hpos)
    simp only [hsome, hzero, false_implies, not_false_eq_true, true_implies, true_and, and_true]
    constructor
    · intro hread
      omega
    · intro hfits
      exact ⟨by omega, by omega, by omega, by omega, by omega, by omega, hfits,
        hpost _ _ (by omega) hfits⟩

/-- A `node_announcement` is read past the end unless it fits. -/
theorem lnMsgNodeAnnounceRead_wp {data : Bytes} {post : NodeAnnounceMsg → Nat → Prop}
    (hpost : ∀ msg pos, ReadWhole .nodeAnnouncement data msg pos → post msg pos) :
    wp (lnMsgNodeAnnounceRead crypto) data 0 post ↔
      (2 + 140 ≤ data.length → lnMiscGet16be (slice data 0 2) = MsgType.nodeAnnouncement.code →
        NodeAnnounceFits data) := by
  simp only [lnMsgNodeAnnounceRead, wp_bind, wp_position, wp_message, wp_refuseIf, wp_pure]
  apply readNodeAnnounce_wp
  intro msg pos hend hinside _
  exact hpost msg pos ⟨hend.ge, hinside⟩

/-- `BTC_SZ_PUBKEY`, the three bytes of the colour, `LN_SZ_ALIAS`, and an address as long as its
descriptor says. -/
structure NodeAnnounceMsg.Sized (msg : NodeAnnounceMsg) : Prop where
  nodeId : msg.nodeId.length = 33
  rgbcolor : msg.rgbcolor.length = 3
  nodeAlias : msg.nodeAlias.length = 32
  addr : msg.addr.addr.length = msg.addr.type.addrlen
  port : msg.addr.type = .none → msg.addr.port = 0

theorem nodeaddrFields_none {addr : LnNodeaddr} (htype : addr.type = .none) :
    nodeaddrFields addr = [lnMiscPush16be 0] := by
  rw [nodeaddrFields, htype]

theorem nodeaddrFields_some {addr : LnNodeaddr} (htype : addr.type ≠ .none) :
    nodeaddrFields addr =
      [ lnMiscPush16be (1 + addr.type.addrlen2).toUInt16, [addr.type.code], addr.addr
      , lnMiscPush16be addr.port ] := by
  obtain ⟨type, addr, port⟩ := addr
  cases type with
  | none => exact absurd rfl htype
  | ipv4 => rfl
  | ipv6 => rfl
  | onionv2 => rfl
  | onionv3 => rfl

theorem LnNodedesc.addrlen2_lt (desc : LnNodedesc) : 1 + desc.addrlen2 < 65536 := by
  cases desc <;> decide

theorem length_nodeaddrFields {addr : LnNodeaddr} (haddr : addr.addr.length = addr.type.addrlen) :
    2 ≤ (nodeaddrFields addr).flatten.length ∧
      (nodeaddrFields addr).flatten.length ≤ 3 + addr.type.addrlen2 := by
  by_cases htype : addr.type = .none
  · rw [nodeaddrFields_none htype]
    simp only [List.flatten_cons, List.flatten_nil, List.append_nil, length_lnMiscPush16be]
    omega
  · rw [nodeaddrFields_some htype, LnNodedesc.addrlen2_eq htype]
    simp only [List.flatten_cons, List.flatten_nil, List.length_append, length_lnMiscPush16be,
      List.length_cons, List.length_nil, haddr]
    omega

theorem readNodedesc_reads {addr : LnNodeaddr} (haddr : addr.addr.length = addr.type.addrlen)
    (htype : addr.type ≠ .none) {pos : Nat} :
    Reads pos [] (readNodedesc (1 + addr.type.addrlen2))
      ([addr.type.code] ++ (addr.addr ++ (lnMiscPush16be addr.port ++ []))) addr := by
  have hthere : decide (addr.type ≠ .none) = true := decide_eq_true htype
  apply Reads.bind (readByte_reads _)
  simp only [LnNodedesc.ofCode_code]
  apply Reads.next (Reads.refuseIf (by simp))
  apply Reads.bind (Reads.readIf hthere (Reads.bytes haddr))
  apply Reads.bind (Reads.readIf hthere (readBe16_reads _))
  apply Reads.next (Reads.skip (by simp))
  exact Reads.pure addr

theorem readNodeAnnounce_reads {msg : NodeAnnounceMsg} (hsized : msg.Sized) {signature : Bytes}
    (hsignature : signature.length = 64) :
    Reads 0 [] readNodeAnnounce (lnMiscPush16be MsgType.nodeAnnouncement.code ++
      (signature ++ (nodeAnnounceFields msg).flatten)) msg := by
  have haddr := (length_nodeaddrFields hsized.addr).1
  simp only [nodeAnnounceFields, List.cons_append, List.nil_append, List.flatten_cons]
  apply Reads.bind (readType_reads (by
    simp only [List.length_append, length_lnMiscPush16be, length_lnMiscPush32be, hsignature,
      hsized.nodeId, hsized.rgbcolor, hsized.nodeAlias]
    omega))
  apply Reads.bind (Reads.skip hsignature)
  apply Reads.bind (readBe16_reads 0)
  apply Reads.next (Reads.skip rfl)
  apply Reads.bind (readBe32_reads _)
  apply Reads.bind (Reads.bytes hsized.nodeId)
  apply Reads.bind (Reads.bytes hsized.rgbcolor)
  apply Reads.bind (Reads.bytes hsized.nodeAlias)
  by_cases htype : msg.addr.type = .none
  · have hempty : msg.addr = { type := .none } := by
      have hlength := hsized.addr
      rw [htype] at hlength
      have hport := hsized.port htype
      obtain ⟨_, _, _, _, type, addr, port⟩ := msg
      obtain rfl : addr = [] := List.length_eq_zero_iff.mp hlength
      obtain rfl : port = 0 := hport
      obtain rfl : type = .none := htype
      rfl
    rw [nodeaddrFields_none htype]
    apply Reads.bind (readBe16_reads 0)
    apply Reads.next (Reads.readIf_not rfl)
    apply Reads.next Reads.assertInside
    rw [← hempty]
    exact Reads.pure msg
  · have haddrlen := toNat_toUInt16 msg.addr.type.addrlen2_lt
    have hsome : decide ((1 + msg.addr.type.addrlen2).toUInt16 > 0) = true := by
      apply decide_eq_true
      apply UInt16.lt_iff_toNat_lt.mpr
      rw [haddrlen]
      exact Nat.lt_of_lt_of_le Nat.one_pos (Nat.le_add_right 1 _)
    have hdesc := @readNodedesc_reads msg.addr hsized.addr htype
    rw [nodeaddrFields_some htype]
    simp only [List.flatten_cons, List.flatten_nil]
    apply Reads.bind (readBe16_reads _)
    rw [haddrlen, ← List.append_nil ([msg.addr.type.code] ++ _)]
    apply Reads.bind (Reads.readIf hsome hdesc)
    apply Reads.next Reads.assertInside
    exact Reads.pure msg

/-- A `node_announcement` that the node signs with its key comes back and verifies. -/
theorem lnMsgNodeAnnounce_roundTrips (hcrypto : crypto.Sound) {nodeKey : Bytes}
    {msg : NodeAnnounceMsg} (hsized : msg.Sized) (hkey : crypto.priv2pub nodeKey = some msg.nodeId)
    (hsign : ∀ hash, (crypto.sign nodeKey hash).length = 64) :
    RoundTrips (lnMsgNodeAnnounceCreate crypto nodeKey msg) (lnMsgNodeAnnounceRead crypto) msg := by
  have haddr := (length_nodeaddrFields hsized.addr).2
  have hlength : (nodeAnnounceFields msg).flatten.length =
      74 + (nodeaddrFields msg.addr).flatten.length := by
    simp only [nodeAnnounceFields, List.flatten_append, List.flatten_cons, List.flatten_nil,
      List.length_append, length_lnMiscPush16be, length_lnMiscPush32be, List.length_nil,
      hsized.nodeId, hsized.rgbcolor, hsized.nodeAlias]
  rw [lnMsgNodeAnnounceCreate]
  generalize hfields : nodeAnnounceFields msg = fields at hlength
  have hsignature := hsign (crypto.hash256 fields.flatten)
  have hverify := hcrypto nodeKey msg.nodeId (crypto.hash256 fields.flatten) hkey
  generalize crypto.sign nodeKey (crypto.hash256 fields.flatten) = signature at *
  have hread := (readNodeAnnounce_reads hsized hsignature).run
  rw [hfields] at hread
  have hcode := length_lnMiscPush16be MsgType.nodeAnnouncement.code
  generalize lnMiscPush16be MsgType.nodeAnnouncement.code = code at *
  refine ⟨code ++ (signature ++ fields.flatten), ?_, fun hshort => ?_⟩
  · apply if_pos
    simp only [List.flatten_cons, List.length_append, hcode, hsignature, hlength]
    omega
  · have hsliceSig : slice (code ++ (signature ++ fields.flatten)) 2 64 = signature := by
      rw [slice, List.drop_left' hcode, List.take_left' hsignature]
    have hsliceTail : slice (code ++ (signature ++ fields.flatten)) 66
        ((code ++ (signature ++ fields.flatten)).length - 66) = fields.flatten := by
      have hinitial : (code ++ signature).length = 66 := by
        rw [List.length_append, hcode, hsignature]
      have htail : (code ++ (signature ++ fields.flatten)).length - 66 = fields.flatten.length := by
        rw [← List.append_assoc, List.length_append, hinitial, Nat.add_sub_cancel_left]
      rw [htail, slice, ← List.append_assoc, List.drop_left' hinitial, List.take_length]
    rw [readWith_run _ hshort, lnMsgNodeAnnounceRead, run_bind hread]
    change (refuseIf (!crypto.verify (slice _ 2 64)
      (crypto.hash256 (slice _ 66 _)) msg.nodeId) () >>=
      fun _ => pure msg : WireReader Unit NodeAnnounceMsg) _ _ = _
    rw [hsliceSig, hsliceTail, hverify]
    rfl

/-! ### `channel_update` -/

/-- `ln_cnl_update_t`. -/
structure CnlUpdateMsg where
  shortChannelId : UInt64
  timestamp : UInt32
  flags : UInt16
  cltvExpiryDelta : UInt16
  htlcMinimumMsat : UInt64
  feeBaseMsat : UInt32
  feePropMillionths : UInt32
  htlcMaximumMsat : UInt64 := 0
deriving DecidableEq, Repr

/-- What is signed of a `channel_update`: `htlc_maximum_msat` is not supported. -/
def cnlUpdateFields (env : WireEnv) (msg : CnlUpdateMsg) : List Bytes :=
  [ env.genesisChainHash, lnMiscPush64be msg.shortChannelId, lnMiscPush32be msg.timestamp
  , lnMiscPush16be msg.flags, lnMiscPush16be msg.cltvExpiryDelta
  , lnMiscPush64be msg.htlcMinimumMsat, lnMiscPush32be msg.feeBaseMsat
  , lnMiscPush32be msg.feePropMillionths ]

/-- `ln_msg_cnl_update_create`, signed with the node key. -/
def lnMsgCnlUpdateCreate (env : WireEnv) (crypto : Crypto) (nodeKey : Bytes) (msg : CnlUpdateMsg) :
    Option Bytes :=
  utlPush (2 + 128)
    (lnMiscPush16be MsgType.channelUpdate.code ::
      crypto.sign nodeKey (crypto.hash256 (cnlUpdateFields env msg).flatten) ::
      cnlUpdateFields env msg)

/-- `ln_msg_cnl_update_read`: the chain hash counts only at the end. -/
def lnMsgCnlUpdateRead (env : WireEnv) : WireReader Unit CnlUpdateMsg := do
  readType .channelUpdate (2 + 128) ()
  skip 64
  let chainHash ← bytes 32
  let shortChannelId ← readBe64
  refuseIf (shortChannelId == 0) ()
  let timestamp ← readBe32
  let flags ← readBe16
  let cltvExpiryDelta ← readBe16
  let htlcMinimumMsat ← readBe64
  let feeBaseMsat ← readBe32
  let feePropMillionths ← readBe32
  let pos ← position
  let len ← messageLength
  let htlcMaximumMsat ← readIf (len ≥ pos + 8) readBe64 0
  assertInside
  refuseIf (chainHash != env.genesisChainHash) ()
  pure
    { shortChannelId, timestamp, flags, cltvExpiryDelta, htlcMinimumMsat, feeBaseMsat
      feePropMillionths, htlcMaximumMsat }

/-- `ln_msg_cnl_update_verify`. -/
def lnMsgCnlUpdateVerify (crypto : Crypto) (pubkey data : Bytes) : Bool :=
  crypto.verify (slice data 2 64) (crypto.hash256 (data.drop (2 + 64))) pubkey

theorem lnMsgCnlUpdateRead_wp (data : Bytes) :
    wp (lnMsgCnlUpdateRead env) data 0 (ReadWhole .channelUpdate data) := by
  simp only [lnMsgCnlUpdateRead, wp_bind]
  apply (wp_readType (by omega)).mpr
  intro hlong _
  simp only [wp_bytes, wp_readBe16, wp_readBe32, wp_readBe64, wp_skip, wp_position,
    wp_messageLength, wp_refuseIf, wp_readIf, wp_assertInside, wp_pure, decide_eq_true_eq,
    decide_eq_false_iff_not, ReadWhole, declaredLength, Nat.reduceAdd]
  omega

/-! ### `announcement_signatures` -/

/-- `ln_announce_signs_t`. -/
structure AnnounceSignsMsg where
  channelId : Bytes
  shortChannelId : UInt64
  nodeSignature : Bytes
  btcSignature : Bytes
deriving DecidableEq, Repr

/-- `ln_msg_announce_signs_create`. -/
def lnMsgAnnounceSignsCreate (msg : AnnounceSignsMsg) : Option Bytes :=
  utlPush (2 + 168)
    [ lnMiscPush16be MsgType.announcementSignatures.code, msg.channelId
    , lnMiscPush64be msg.shortChannelId, msg.nodeSignature, msg.btcSignature ]

/-- `ln_msg_announce_signs_read`, over the `short_channel_id` that is known already, if any. -/
def lnMsgAnnounceSignsRead (known : UInt64) : WireReader Unit AnnounceSignsMsg := do
  readType .announcementSignatures (2 + 168) ()
  let channelId ← bytes 32
  let shortChannelId ← readBe64
  refuseIf (known != 0 && known != shortChannelId) ()
  let nodeSignature ← bytes 64
  let btcSignature ← bytes 64
  assertInside
  pure { channelId, shortChannelId, nodeSignature, btcSignature }

structure AnnounceSignsMsg.Sized (msg : AnnounceSignsMsg) : Prop where
  channelId : msg.channelId.length = 32
  nodeSignature : msg.nodeSignature.length = 64
  btcSignature : msg.btcSignature.length = 64

theorem lnMsgAnnounceSignsRead_wp (known : UInt64) (data : Bytes) :
    wp (lnMsgAnnounceSignsRead known) data 0 (ReadWhole .announcementSignatures data) := by
  simp only [lnMsgAnnounceSignsRead, wp_bind]
  apply (wp_readType (by omega)).mpr
  intro hlong _
  simp only [wp_bytes, wp_readBe64, wp_refuseIf, wp_assertInside, wp_pure, ReadWhole,
    declaredLength, Nat.reduceAdd]
  omega

theorem lnMsgAnnounceSigns_roundTrips {msg : AnnounceSignsMsg} (hsized : msg.Sized) {known : UInt64}
    (hknown : known = 0 ∨ known = msg.shortChannelId) :
    RoundTrips (lnMsgAnnounceSignsCreate msg) (lnMsgAnnounceSignsRead known) msg := by
  have hpasses : (known != 0 && known != msg.shortChannelId) = false := by
    rw [Bool.and_eq_false_iff, bne_eq_false_iff_eq, bne_eq_false_iff_eq]
    exact hknown
  apply roundTrips_utlPush
  · simp [hsized.channelId, hsized.nodeSignature, hsized.btcSignature]
  · intro _
    simp only [List.flatten_cons, List.flatten_nil]
    apply Reads.bind (readType_reads (by simp [hsized.channelId, hsized.nodeSignature,
      hsized.btcSignature]))
    apply Reads.bind (Reads.bytes hsized.channelId)
    apply Reads.bind (readBe64_reads _)
    apply Reads.next (Reads.refuseIf hpasses)
    apply Reads.bind (Reads.bytes hsized.nodeSignature)
    apply Reads.bind (Reads.bytes hsized.btcSignature)
    apply Reads.next Reads.assertInside
    exact Reads.pure msg

/-- A `channel_update` comes back without its `htlc_maximum_msat`. -/
theorem lnMsgCnlUpdate_roundTrips {nodeKey : Bytes} {msg : CnlUpdateMsg}
    (hgenesis : env.genesisChainHash.length = 32)
    (hsign : ∀ hash, (crypto.sign nodeKey hash).length = 64) (hid : msg.shortChannelId ≠ 0) :
    RoundTrips (lnMsgCnlUpdateCreate env crypto nodeKey msg) (lnMsgCnlUpdateRead env)
      { msg with htlcMaximumMsat := 0 } := by
  have hid' : (msg.shortChannelId == 0) = false := beq_eq_false_iff_ne.mpr hid
  apply roundTrips_utlPush
  · simp [cnlUpdateFields, hgenesis, hsign]
  · intro _
    simp only [cnlUpdateFields, List.flatten_cons, List.flatten_nil]
    apply Reads.bind (readType_reads (by simp [hgenesis, hsign]))
    apply Reads.bind (Reads.skip (hsign _))
    apply Reads.bind (Reads.bytes hgenesis)
    apply Reads.bind (readBe64_reads _)
    apply Reads.next (Reads.refuseIf hid')
    apply Reads.bind (readBe32_reads _)
    apply Reads.bind (readBe16_reads _)
    apply Reads.bind (readBe16_reads _)
    apply Reads.bind (readBe64_reads _)
    apply Reads.bind (readBe32_reads _)
    apply Reads.bind (readBe32_reads _)
    apply Reads.next Reads.position
    apply Reads.next Reads.messageLength
    apply Reads.next (Reads.readIf_not (by simp))
    apply Reads.next Reads.assertInside
    apply Reads.next (Reads.refuseIf (bne_self_eq_false _))
    exact Reads.pure _

end Ptarmigan
