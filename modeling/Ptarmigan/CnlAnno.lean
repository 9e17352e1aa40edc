/-
The own `channel_announcement`, `self->cnl_anno`: how it is made, signed and completed in place, and
that it verifies once both halves of its signatures are there.
-/
import Ptarmigan.Library.Fields
import Ptarmigan.AnnounceMsg

namespace Ptarmigan

open WireReader Fields

/-- The keys of the own node. -/
structure LnNode where
  priv : Bytes
  pub : Bytes
deriving DecidableEq, Repr

/-- What a channel is announced with: the keys, the channel id, `fund_flag`, and the parameters of
its `channel_update`. -/
structure AnnoChannel where
  fundingPriv : Bytes
  fundingPub : Bytes
  peerNodeId : Bytes
  peerFundingPub : Bytes
  channelId : Bytes
  fundFlag : Bool
  cltvExpiryDelta : UInt16
  htlcMinimumMsat : UInt64
  feeBaseMsat : UInt32
  feePropMillionths : UInt32
deriving DecidableEq, Repr

/-- The node signature and the bitcoin signature of one side. -/
structure AnnoSigns where
  node : Bytes
  btc : Bytes
deriving DecidableEq, Repr

/-- The type and the signatures before what is signed. -/
def signedFields (first second : AnnoSigns) (announced : List Bytes) : List Bytes :=
  [ lnMiscPush16be MsgType.channelAnnouncement.code, first.node, second.node, first.btc
  , second.btc ] ++ announced

section Announcement

variable (env : WireEnv) (crypto : Crypto) (node : LnNode) (chan : AnnoChannel)

/-- `sort_nodeid(self, NULL) == BTC_KEYS_SORT_ASC`: the own node comes first. -/
def sortNodeid : Bool :=
  decide (node.pub < chan.peerNodeId)

/-- `cnl_announce_sign`. -/
def cnlAnnounceSign (data : Bytes) : Bytes :=
  let offsetSig := if sortNodeid node chan then 0 else 64
  let hash := crypto.hash256 (data.drop (2 + 64 * 4))
  let data := writeAt data (2 + offsetSig) (crypto.sign node.priv hash)
  writeAt data (2 + offsetSig + 64 * 2) (crypto.sign chan.fundingPriv hash)

/-- The two node ids and the two funding keys, in the order of the node ids. -/
def announcedKeys : List Bytes :=
  if sortNodeid node chan then
    [node.pub, chan.peerNodeId, chan.fundingPub, chan.peerFundingPub]
  else [chan.peerNodeId, node.pub, chan.peerFundingPub, chan.fundingPub]

/-- The fields that are signed. -/
def announcedFields (shortChannelId : UInt64) : List Bytes :=
  [lnMiscPush16be 0, env.genesisChainHash, lnMiscPush64be shortChannelId] ++
    announcedKeys node chan

/-- `ln_msg_cnl_announce_create`. -/
def lnMsgCnlAnnounceCreate (shortChannelId : UInt64) : Option Bytes :=
  (utlPush (2 + 430) ([lnMiscPush16be MsgType.channelAnnouncement.code,
    List.replicate (64 * 4) 0xcc] ++ announcedFields env node chan shortChannelId)).map
      (cnlAnnounceSign crypto node chan)

/-- `ln_msg_get_anno_signs`, as positions in the buffer. -/
def lnMsgGetAnnoSigns (bLocal : Bool) : Nat × Nat :=
  let sigNode := if sortNodeid node chan == bLocal then 2 else 2 + 64
  (sigNode, sigNode + 64 * 2)

/-- `ln_msg_cnl_announce_update_short_cnl_id`. -/
def lnMsgCnlAnnounceUpdateShortCnlId (data : Bytes) (shortChannelId : UInt64) : Bytes :=
  let pos := 2 + 64 * 4
  let len := countAt data pos
  cnlAnnounceSign crypto node chan
    (writeAt data (pos + 2 + len + 32) (lnMiscPush64be shortChannelId))

/-! ### What is in the buffer -/

/-- The fields of an announcement with the own and the peer's signatures. -/
def announcementFields (own peer : AnnoSigns) (shortChannelId : UInt64) : List Bytes :=
  if sortNodeid node chan then
    signedFields own peer (announcedFields env node chan shortChannelId)
  else signedFields peer own (announcedFields env node chan shortChannelId)

/-- The hash that is signed. -/
def announcedHash (shortChannelId : UInt64) : Bytes :=
  crypto.hash256 (announcedFields env node chan shortChannelId).flatten

/-- The own half of the signatures. -/
def ownSigns (shortChannelId : UInt64) : AnnoSigns :=
  { node := crypto.sign node.priv (announcedHash env crypto node chan shortChannelId)
    btc := crypto.sign chan.fundingPriv (announcedHash env crypto node chan shortChannelId) }

/-- The node of a direction. -/
def announcedNodeId (dir : Bool) : Bytes :=
  if sortNodeid node chan == dir then chan.peerNodeId else node.pub

/-- Both signatures of the peer verify. -/
def PeerSigned (peer : AnnoSigns) (shortChannelId : UInt64) : Prop :=
  let hash := announcedHash env crypto node chan shortChannelId
  crypto.verify peer.node hash chan.peerNodeId = true ∧
    crypto.verify peer.btc hash chan.peerFundingPub = true

end Announcement

/-- `LN_SZ_SIGNATURE`. -/
structure AnnoSigns.Sized (signs : AnnoSigns) : Prop where
  node : signs.node.length = 64
  btc : signs.btc.length = 64

/-- The own keys belong to their private keys, keys and signatures have their sizes, and a key under
which something verifies is a key. -/
structure AnnoKeys (env : WireEnv) (crypto : Crypto) (node : LnNode) (chan : AnnoChannel) :
    Prop where
  sound : crypto.Sound
  chkpub : ∀ signature hash pubkey, crypto.verify signature hash pubkey = true →
    env.chkpub pubkey = true
  sign : ∀ priv hash, (crypto.sign priv hash).length = 64
  genesis : env.genesisChainHash.length = 32
  nodeKey : crypto.priv2pub node.priv = some node.pub
  fundingKey : crypto.priv2pub chan.fundingPriv = some chan.fundingPub
  nodeId : node.pub.length = 33
  fundingPub : chan.fundingPub.length = 33
  peerNodeId : chan.peerNodeId.length = 33
  peerFundingPub : chan.peerFundingPub.length = 33

/-- The node of a direction in an announcement that was read. -/
def CnlAnnouncePtr.nodeId (ann : CnlAnnouncePtr) (dir : Bool) : Bytes :=
  if dir then ann.nodeId2 else ann.nodeId1

section Layout

variable {env : WireEnv} {crypto : Crypto} {node : LnNode} {chan : AnnoChannel}
variable {first second own peer signs : AnnoSigns} {announced : List Bytes}
  {shortChannelId : UInt64}

theorem start_signedFields (hfirst : first.Sized) (hsecond : second.Sized) (index : Nat) :
    start (signedFields first second announced) index =
      ((([2, 64, 64, 64, 64] : List Nat) ++ announced.map List.length).take index).sum := by
  have hlengths : (signedFields first second announced).map List.length =
      [2, 64, 64, 64, 64] ++ announced.map List.length := by
    simp [signedFields, hfirst.node, hfirst.btc, hsecond.node, hsecond.btc]
  rw [start_eq_sum, hlengths]

/-- A field is written over in place. -/
theorem writeAt_signedFields (hfirst : first.Sized) (hsecond : second.Sized) {index : Nat}
    {field written : Bytes} (hfield : (signedFields first second announced)[index]? = some field)
    (hlength : written.length = field.length) :
    writeAt (signedFields first second announced).flatten
        ((([2, 64, 64, 64, 64] : List Nat) ++ announced.map List.length).take index).sum written =
      ((signedFields first second announced).set index written).flatten := by
  rw [← start_signedFields hfirst hsecond]
  exact writeAt_start hfield hlength

theorem slice_signedFields (hfirst : first.Sized) (hsecond : second.Sized) {index : Nat}
    {field : Bytes} (hfield : (signedFields first second announced)[index]? = some field) :
    slice (signedFields first second announced).flatten
        ((([2, 64, 64, 64, 64] : List Nat) ++ announced.map List.length).take index).sum
        field.length = field := by
  rw [← start_signedFields hfirst hsecond]
  exact take_field hfield

/-- The two signatures that come first are replaced. -/
theorem writeAt_first (hfirst : first.Sized) (hsecond : second.Sized) (hsigns : signs.Sized) :
    writeAt (writeAt (signedFields first second announced).flatten 2 signs.node) 130 signs.btc =
      (signedFields signs second announced).flatten := by
  have hhalf : AnnoSigns.Sized ⟨signs.node, first.btc⟩ := ⟨hsigns.node, hfirst.btc⟩
  have hnode := @writeAt_signedFields first second announced hfirst hsecond 1 first.node signs.node
    rfl (hsigns.node.trans hfirst.node.symm)
  have hbtc := @writeAt_signedFields _ second announced hhalf hsecond 3 first.btc signs.btc
    rfl (hsigns.btc.trans hfirst.btc.symm)
  exact (congrArg (writeAt · 130 signs.btc) hnode).trans hbtc

/-- The two signatures that come second are replaced. -/
theorem writeAt_second (hfirst : first.Sized) (hsecond : second.Sized) (hsigns : signs.Sized) :
    writeAt (writeAt (signedFields first second announced).flatten 66 signs.node) 194 signs.btc =
      (signedFields first signs announced).flatten := by
  have hhalf : AnnoSigns.Sized ⟨signs.node, second.btc⟩ := ⟨hsigns.node, hsecond.btc⟩
  have hnode := @writeAt_signedFields first second announced hfirst hsecond 2 second.node signs.node
    rfl (hsigns.node.trans hsecond.node.symm)
  have hbtc := @writeAt_signedFields first _ announced hfirst hhalf 4 second.btc signs.btc
    rfl (hsigns.btc.trans hsecond.btc.symm)
  exact (congrArg (writeAt · 194 signs.btc) hnode).trans hbtc

/-- The peer's half is written where `ln_msg_get_anno_signs` points. -/
theorem writeAt_peer (hown : own.Sized) (hpeer : peer.Sized) (hsigns : signs.Sized) :
    writeAt (writeAt (announcementFields env node chan own peer shortChannelId).flatten
        (lnMsgGetAnnoSigns node chan false).1 signs.node)
        (lnMsgGetAnnoSigns node chan false).2 signs.btc =
      (announcementFields env node chan own signs shortChannelId).flatten := by
  rw [announcementFields, announcementFields, lnMsgGetAnnoSigns]
  cases sortNodeid node chan with
  | true => exact writeAt_second hown hpeer hsigns
  | false => exact writeAt_first hpeer hown hsigns

/-- Behind the signatures stands what is signed. -/
theorem drop_signedFields (hfirst : first.Sized) (hsecond : second.Sized) :
    (signedFields first second announced).flatten.drop (2 + 64 * 4) = announced.flatten := by
  have hstart := @start_signedFields first second announced hfirst hsecond 5
  change start _ 5 = 2 + 64 * 4 at hstart
  rw [← hstart, drop_start]
  rfl

theorem hash_announcement (hown : own.Sized) (hpeer : peer.Sized) :
    crypto.hash256 ((announcementFields env node chan own peer shortChannelId).flatten.drop
        (2 + 64 * 4)) = announcedHash env crypto node chan shortChannelId := by
  rw [announcementFields, announcedHash]
  cases sortNodeid node chan with
  | true => exact congrArg crypto.hash256 (drop_signedFields hown hpeer)
  | false => exact congrArg crypto.hash256 (drop_signedFields hpeer hown)

theorem announcedFields_lengths (hkeys : AnnoKeys env crypto node chan) :
    (announcedFields env node chan shortChannelId).map List.length =
      [2, 32, 8, 33, 33, 33, 33] := by
  by_cases hsort : sortNodeid node chan = true
  · simp [announcedFields, announcedKeys, hsort, hkeys.genesis, hkeys.nodeId, hkeys.peerNodeId,
      hkeys.fundingPub, hkeys.peerFundingPub]
  · simp [announcedFields, announcedKeys, hsort, hkeys.genesis, hkeys.nodeId, hkeys.peerNodeId,
      hkeys.fundingPub, hkeys.peerFundingPub]

theorem ownSigns_sized (hkeys : AnnoKeys env crypto node chan) :
    (ownSigns env crypto node chan shortChannelId).Sized :=
  ⟨hkeys.sign _ _, hkeys.sign _ _⟩

/-- Signing replaces the own half. -/
theorem cnlAnnounceSign_announcement (hkeys : AnnoKeys env crypto node chan) (hown : own.Sized)
    (hpeer : peer.Sized) :
    cnlAnnounceSign crypto node chan
        (announcementFields env node chan own peer shortChannelId).flatten =
      (announcementFields env node chan (ownSigns env crypto node chan shortChannelId) peer
        shortChannelId).flatten := by
  have hsigns := @ownSigns_sized env crypto node chan shortChannelId hkeys
  rw [cnlAnnounceSign, hash_announcement hown hpeer, announcementFields, announcementFields]
  cases sortNodeid node chan with
  | true => exact writeAt_first hown hpeer hsigns
  | false => exact writeAt_second hpeer hown hsigns

/-- What `memset` leaves of the signatures before they are made. -/
def blankSigns : AnnoSigns :=
  ⟨List.replicate 64 0xcc, List.replicate 64 0xcc⟩

theorem blankSigns_sized : blankSigns.Sized := ⟨rfl, rfl⟩

/-- A new announcement has the own signatures. -/
theorem lnMsgCnlAnnounceCreate_eq (hkeys : AnnoKeys env crypto node chan) :
    lnMsgCnlAnnounceCreate env crypto node chan shortChannelId =
      some (announcementFields env node chan (ownSigns env crypto node chan shortChannelId)
        blankSigns shortChannelId).flatten := by
  have hblank : ([lnMiscPush16be MsgType.channelAnnouncement.code, List.replicate (64 * 4) 0xcc] ++
      announcedFields env node chan shortChannelId).flatten =
        (announcementFields env node chan blankSigns blankSigns shortChannelId).flatten := by
    have hsplit : List.replicate (64 * 4) (0xcc : UInt8) = List.replicate 64 0xcc ++
        (List.replicate 64 0xcc ++ (List.replicate 64 0xcc ++ List.replicate 64 0xcc)) := by
      simp only [List.replicate_append_replicate]
    rw [hsplit, announcementFields, blankSigns]
    generalize List.replicate 64 (0xcc : UInt8) = blank
    simp [signedFields]
  have hlength : (announcementFields env node chan blankSigns blankSigns
      shortChannelId).flatten.length = 2 + 430 := by
    rw [← hblank, List.length_flatten, List.map_append, announcedFields_lengths hkeys]
    simp only [List.map_cons, List.map_nil, length_lnMiscPush16be, List.length_replicate]
    rfl
  rw [lnMsgCnlAnnounceCreate, utlPush, hblank, if_pos (Nat.le_of_eq hlength), Option.map_some,
    cnlAnnounceSign_announcement hkeys blankSigns_sized blankSigns_sized]

/-- The `short_channel_id` is replaced, and the own half signs it. -/
theorem lnMsgCnlAnnounceUpdateShortCnlId_eq (hkeys : AnnoKeys env crypto node chan)
    (hown : own.Sized) (hpeer : peer.Sized) (updated : UInt64) :
    lnMsgCnlAnnounceUpdateShortCnlId crypto node chan
        (announcementFields env node chan own peer shortChannelId).flatten updated =
      (announcementFields env node chan (ownSigns env crypto node chan updated) peer
        updated).flatten := by
  have hwrite : ∀ first second : AnnoSigns, first.Sized → second.Sized →
      writeAt (signedFields first second (announcedFields env node chan shortChannelId)).flatten
          (258 + 2 + countAt (signedFields first second
            (announcedFields env node chan shortChannelId)).flatten 258 + 32)
          (lnMiscPush64be updated) =
        (signedFields first second (announcedFields env node chan updated)).flatten := by
    intro first second hfirst hsecond
    have hlengths := @announcedFields_lengths env crypto node chan shortChannelId hkeys
    have hcount := @slice_signedFields first second (announcedFields env node chan shortChannelId)
      hfirst hsecond 5 (lnMiscPush16be 0) rfl
    have hid := @writeAt_signedFields first second (announcedFields env node chan shortChannelId)
      hfirst hsecond 7 (lnMiscPush64be shortChannelId) (lnMiscPush64be updated) rfl
      (by rw [length_lnMiscPush64be, length_lnMiscPush64be])
    rw [hlengths] at hcount hid
    rw [length_lnMiscPush16be] at hcount
    change slice _ 258 2 = _ at hcount
    rw [countAt, hcount]
    exact hid
  rw [lnMsgCnlAnnounceUpdateShortCnlId,
    ← cnlAnnounceSign_announcement hkeys hown hpeer]
  congr 1
  rw [announcementFields, announcementFields]
  cases sortNodeid node chan with
  | true => exact hwrite own peer hown hpeer
  | false => exact hwrite peer own hpeer hown

/-! ### Reading it -/

/-- An announcement without features is read from fixed places. -/
theorem lnMsgCnlAnnounceRead_run {data : Bytes} (hlength : data.length = 432)
    (hcode : slice data 0 2 = lnMiscPush16be MsgType.channelAnnouncement.code)
    (hflen : slice data 258 2 = lnMiscPush16be 0)
    (hchain : slice data 260 32 = env.genesisChainHash) :
    (lnMsgCnlAnnounceRead env).run data =
      .done
        { nodeSignature1 := slice data 2 64, nodeSignature2 := slice data 66 64
          btcSignature1 := slice data 130 64, btcSignature2 := slice data 194 64
          shortChannelId := lnMiscGet64be (slice data 292 8)
          nodeId1 := slice data 300 33, nodeId2 := slice data 333 33
          btcKey1 := slice data 366 33, btcKey2 := slice data 399 33 } 432 := by
  have hbytes : ∀ pos width, pos + width ≤ 432 → (bytes width : WireReader Unit Bytes) data pos =
      .done (slice data pos width) (pos + width) := by
    intro pos width hinside
    exact if_pos (hlength ▸ hinside)
  have hbe16 : ∀ pos value, pos + 2 ≤ 432 → slice data pos 2 = lnMiscPush16be value →
      (readBe16 : WireReader Unit UInt16) data pos = .done value (pos + 2) := by
    intro pos value hinside hfield
    have hread : (readBe16 : WireReader Unit UInt16) data pos =
        .done (lnMiscGet16be (slice data pos 2)) (pos + 2) :=
      bind_done (hbytes pos 2 hinside)
    rwa [hfield, lnMiscGet16be_lnMiscPush16be] at hread
  have hbe64 : (readBe64 : WireReader Unit UInt64) data 292 =
      .done (lnMiscGet64be (slice data 292 8)) 300 :=
    bind_done (hbytes 292 8 (by omega))
  have htype : (readType .channelAnnouncement (2 + 430) () : WireReader Unit Unit) data 0 =
      .done () 2 := by
    have hlong : (atLeast (2 + 430) () : WireReader Unit Unit) data 0 = .done () 0 :=
      if_neg (by omega)
    rw [readType, bind_done hlong, bind_done (hbe16 0 _ (by omega) hcode), bne_self_eq_false]
    rfl
  have hchainHash := hbytes 260 32 (by omega)
  rw [hchain] at hchainHash
  have hskip : (skip (4 * 64) : WireReader Unit Unit) data 2 = .done () 258 := rfl
  have hfeatures : (skip (0 : UInt16).toNat : WireReader Unit Unit) data 260 = .done () 260 := rfl
  have hpass : (refuseIf false () : WireReader Unit Unit) data 292 = .done () 292 := rfl
  have hwhole : (data.length != 432) = false := by
    rw [hlength]
    rfl
  rw [run, lnMsgCnlAnnounceRead, bind_done htype, cnlAnnouncePtr, bind_done hskip,
    bind_done (hbe16 258 0 (by omega) hflen), bind_done hfeatures, bind_done hchainHash,
    bne_self_eq_false, bind_done hpass, bind_done hbe64]
  change (refuseIf (data.length != 432) () >>= fun _ => pure _ : WireReader Unit _) data 432 = _
  rw [hwhole]
  rfl

/-- What is read of an announcement, and that all of it is read. -/
theorem lnMsgCnlAnnounceRead_signedFields (hfirst : first.Sized) (hsecond : second.Sized)
    (hgenesis : env.genesisChainHash.length = 32) {nodeId1 nodeId2 btcKey1 btcKey2 : Bytes}
    (hnode1 : nodeId1.length = 33) (hnode2 : nodeId2.length = 33) (hbtc1 : btcKey1.length = 33)
    (hbtc2 : btcKey2.length = 33) :
    (lnMsgCnlAnnounceRead env).run (signedFields first second
        [ lnMiscPush16be 0, env.genesisChainHash, lnMiscPush64be shortChannelId, nodeId1, nodeId2
        , btcKey1, btcKey2 ]).flatten =
      .done
        { nodeSignature1 := first.node, nodeSignature2 := second.node
          btcSignature1 := first.btc, btcSignature2 := second.btc
          shortChannelId, nodeId1, nodeId2, btcKey1, btcKey2 } 432 := by
  have hslice := @slice_signedFields first second
    [ lnMiscPush16be 0, env.genesisChainHash, lnMiscPush64be shortChannelId, nodeId1, nodeId2
    , btcKey1, btcKey2 ] hfirst hsecond
  have hlength : (signedFields first second [ lnMiscPush16be 0, env.genesisChainHash
      , lnMiscPush64be shortChannelId, nodeId1, nodeId2, btcKey1, btcKey2 ]).flatten.length =
      432 := by
    simp [signedFields, hfirst.node, hfirst.btc, hsecond.node, hsecond.btc, hgenesis, hnode1,
      hnode2, hbtc1, hbtc2]
  simp only [List.map_cons, List.map_nil, length_lnMiscPush16be, length_lnMiscPush64be, hgenesis,
    hnode1, hnode2, hbtc1, hbtc2] at hslice
  generalize (signedFields first second [ lnMiscPush16be 0, env.genesisChainHash
    , lnMiscPush64be shortChannelId, nodeId1, nodeId2, btcKey1, btcKey2 ]).flatten = data at *
  -- the field at an index stands behind the widths of the fields before it
  have hat : ∀ index pos width field, (signedFields first second [ lnMiscPush16be 0
      , env.genesisChainHash, lnMiscPush64be shortChannelId, nodeId1, nodeId2, btcKey1
      , btcKey2 ])[index]? = some field → field.length = width →
        ((([2, 64, 64, 64, 64] : List Nat) ++ [2, 32, 8, 33, 33, 33, 33]).take index).sum = pos →
          slice data pos width = field := by
    rintro index pos width field hfield rfl rfl
    exact hslice hfield
  rw [lnMsgCnlAnnounceRead_run hlength (hat 0 0 2 _ rfl (length_lnMiscPush16be _) rfl)
      (hat 5 258 2 _ rfl (length_lnMiscPush16be _) rfl) (hat 6 260 32 _ rfl hgenesis rfl),
    hat 1 2 64 _ rfl hfirst.node rfl, hat 2 66 64 _ rfl hsecond.node rfl,
    hat 3 130 64 _ rfl hfirst.btc rfl, hat 4 194 64 _ rfl hsecond.btc rfl,
    hat 7 292 8 _ rfl (length_lnMiscPush64be _) rfl, lnMiscGet64be_lnMiscPush64be,
    hat 8 300 33 _ rfl hnode1 rfl, hat 9 333 33 _ rfl hnode2 rfl, hat 10 366 33 _ rfl hbtc1 rfl,
    hat 11 399 33 _ rfl hbtc2 rfl]

/-- The announcement with both halves can be read. -/
theorem lnMsgCnlAnnounceRead_announcement (hkeys : AnnoKeys env crypto node chan)
    (hown : own.Sized) (hpeer : peer.Sized) :
    ∃ ann, (lnMsgCnlAnnounceRead env).run
        (announcementFields env node chan own peer shortChannelId).flatten = .done ann 432 ∧
      ∀ dir, ann.nodeId dir = announcedNodeId node chan dir := by
  simp only [announcementFields, announcedFields, announcedKeys, announcedNodeId]
  cases sortNodeid node chan with
  | true =>
      refine ⟨_, lnMsgCnlAnnounceRead_signedFields hown hpeer hkeys.genesis hkeys.nodeId
        hkeys.peerNodeId hkeys.fundingPub hkeys.peerFundingPub, fun dir => ?_⟩
      cases dir <;> rfl
  | false =>
      refine ⟨_, lnMsgCnlAnnounceRead_signedFields hpeer hown hkeys.genesis hkeys.peerNodeId
        hkeys.nodeId hkeys.peerFundingPub hkeys.fundingPub, fun dir => ?_⟩
      cases dir <;> rfl

/-- The four signatures over the hash, under the keys that were read. -/
def CnlAnnouncePtr.Verifies (crypto : Crypto) (ann : CnlAnnouncePtr) (hash : Bytes) : Prop :=
  (crypto.verify ann.nodeSignature1 hash ann.nodeId1 = true ∧
      crypto.verify ann.nodeSignature2 hash ann.nodeId2 = true) ∧
    crypto.verify ann.btcSignature1 hash ann.btcKey1 = true ∧
      crypto.verify ann.btcSignature2 hash ann.btcKey2 = true

/-- `ln_msg_cnl_announce_verify` is that the four signatures of what is read verify. -/
theorem lnMsgCnlAnnounceVerify_iff {data : Bytes} {ann : CnlAnnouncePtr} {pos : Nat}
    (hread : (lnMsgCnlAnnounceRead env).run data = .done ann pos) :
    lnMsgCnlAnnounceVerify env crypto data = some true ↔
      ann.Verifies crypto (crypto.hash256 (data.drop (2 + 4 * 64))) := by
  have hptr : (skip 2 >>= fun _ => cnlAnnouncePtr env : WireReader Unit _).run data =
      .done ann pos := by
    have hbehind : wp (readType .channelAnnouncement (2 + 430) () : WireReader Unit Unit) data 0
        fun _ pos => pos = 2 := (wp_readType (by decide)).mpr fun _ _ => rfl
    rw [lnMsgCnlAnnounceRead] at hread
    rw [wp] at hbehind
    cases htype : (readType .channelAnnouncement (2 + 430) () : WireReader Unit Unit) data 0 with
    | done value pos =>
        rw [htype] at hbehind
        obtain rfl : pos = 2 := hbehind
        rw [run, bind_done htype] at hread
        exact hread
    | refused left =>
        rw [run, bind_refused htype] at hread
        exact absurd hread (by simp)
    | fault reason =>
        rw [htype] at hbehind
        exact hbehind.elim
  rw [lnMsgCnlAnnounceVerify, hptr]
  simp only [CnlAnnouncePtr.Verifies, ← Bool.and_eq_true, ← Bool.and_assoc]
  split
  next hverifies => exact iff_of_true rfl hverifies
  next hfails => exact iff_of_false (by simp) hfails

/-- With the own half signed and the peer's verified, the announcement verifies. -/
theorem lnMsgCnlAnnounceVerify_announcement (hkeys : AnnoKeys env crypto node chan)
    (hpeer : peer.Sized) (hsigned : PeerSigned env crypto node chan peer shortChannelId) :
    lnMsgCnlAnnounceVerify env crypto (announcementFields env node chan
      (ownSigns env crypto node chan shortChannelId) peer shortChannelId).flatten = some true := by
  have hown := @ownSigns_sized env crypto node chan shortChannelId hkeys
  have hnode : crypto.verify (ownSigns env crypto node chan shortChannelId).node
      (announcedHash env crypto node chan shortChannelId) node.pub = true :=
    hkeys.sound _ _ _ hkeys.nodeKey
  have hbtc : crypto.verify (ownSigns env crypto node chan shortChannelId).btc
      (announcedHash env crypto node chan shortChannelId) chan.fundingPub = true :=
    hkeys.sound _ _ _ hkeys.fundingKey
  obtain ⟨hpeerNode, hpeerBtc⟩ := hsigned
  generalize ownSigns env crypto node chan shortChannelId = own at *
  have hhash := @hash_announcement env crypto node chan own peer shortChannelId hown hpeer
  by_cases hsort : sortNodeid node chan = true
  · have hfields : announcementFields env node chan own peer shortChannelId = signedFields own peer
        [ lnMiscPush16be 0, env.genesisChainHash, lnMiscPush64be shortChannelId, node.pub
        , chan.peerNodeId, chan.fundingPub, chan.peerFundingPub ] := by
      rw [announcementFields, if_pos hsort, announcedFields, announcedKeys, if_pos hsort]
      rfl
    rw [hfields] at hhash ⊢
    rw [lnMsgCnlAnnounceVerify_iff (lnMsgCnlAnnounceRead_signedFields hown hpeer hkeys.genesis
      hkeys.nodeId hkeys.peerNodeId hkeys.fundingPub hkeys.peerFundingPub), hhash]
    exact ⟨⟨hnode, hpeerNode⟩, hbtc, hpeerBtc⟩
  · have hfields : announcementFields env node chan own peer shortChannelId = signedFields peer own
        [ lnMiscPush16be 0, env.genesisChainHash, lnMiscPush64be shortChannelId, chan.peerNodeId
        , node.pub, chan.peerFundingPub, chan.fundingPub ] := by
      rw [announcementFields, if_neg hsort, announcedFields, announcedKeys, if_neg hsort]
      rfl
    rw [hfields] at hhash ⊢
    rw [lnMsgCnlAnnounceVerify_iff (lnMsgCnlAnnounceRead_signedFields hpeer hown hkeys.genesis
      hkeys.peerNodeId hkeys.nodeId hkeys.peerFundingPub hkeys.fundingPub), hhash]
    exact ⟨⟨hpeerNode, hnode⟩, hpeerBtc, hbtc⟩

end Layout

end Ptarmigan
