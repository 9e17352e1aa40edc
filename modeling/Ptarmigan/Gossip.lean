/-
The messages about channels and nodes: what is kept of them in the announce database, and how the
own `channel_announcement` gets there.
-/
import Ptarmigan.AnnoDb
import Ptarmigan.CnlAnno

namespace Ptarmigan

/-- What `ln_db_annocnlupd_save` looks at; `LN_CNLUPD_FLAGS_DIRECTION` is the lowest bit. -/
def CnlUpdateMsg.saved (upd : CnlUpdateMsg) : Bookkeeping.LnCnlUpdate :=
  ⟨upd.shortChannelId, upd.flags &&& 1 != 0, upd.timestamp⟩

namespace Gossip

open WireReader Fields Bookkeeping

/-- `anno_flag`: what has been sent and what received, and `LN_ANNO_FLAG_END`. -/
structure AnnoFlag where
  send : Bool := false
  recv : Bool := false
  finished : Bool := false
deriving DecidableEq, Repr

/-- What changes of a channel while it is announced. -/
structure AnnoSelf where
  cnlAnno : Option Bytes := none
  shortChannelId : UInt64 := 0
  annoFlag : AnnoFlag := {}
deriving DecidableEq, Repr

/-- What a handler gets and leaves: the database, and its channel. -/
structure AnnoState where
  db : AnnoDb
  self : AnnoSelf

/-- `ln_db_annocnlupd_is_prune`. -/
def lnDbAnnocnlupdIsPrune (now : UInt64) (timestamp : UInt32) : Bool :=
  timestamp.toUInt64 + 1209600 < now

section Handlers

variable (env : WireEnv) (crypto : Crypto) (node : LnNode) (chan : AnnoChannel)

/-- `create_channel_update`, with the message it makes. -/
def createChannelUpdate (self : AnnoSelf) (now : UInt32) : CnlUpdateMsg :=
  { shortChannelId := self.shortChannelId
    timestamp := now
    flags := if sortNodeid node chan then 0 else 1
    cltvExpiryDelta := chan.cltvExpiryDelta
    htlcMinimumMsat := chan.htlcMinimumMsat
    feeBaseMsat := chan.feeBaseMsat
    feePropMillionths := chan.feePropMillionths }

/-- The own `channel_update` is made and saved; `none` is a failed `assert`. -/
def saveChannelUpdate (db : AnnoDb) (self : AnnoSelf) (now : UInt32) : Option AnnoDb := do
  let upd := createChannelUpdate node chan self now
  let cnlUpd ← lnMsgCnlUpdateCreate env crypto node.priv upd
  some (lnDbAnnocnlupdSave db cnlUpd upd.saved none).1

/-- `proc_anno_sigs`. -/
def procAnnoSigs (state : AnnoState) (now : UInt32) : Option AnnoState :=
  let self := state.self
  if self.annoFlag = { send := true, recv := true } ∧ self.shortChannelId ≠ 0 then
    let (db, ret) := lnDbAnnocnlSave state.db (self.cnlAnno.getD []) self.shortChannelId none
      chan.peerNodeId node.pub
    (saveChannelUpdate env crypto node chan db self now).map fun db =>
      { db
        self := { self with
          cnlAnno := if ret then none else self.cnlAnno
          annoFlag := { self.annoFlag with finished := true } } }
  else some state

/-- `create_local_channel_announcement` unless there is one; `none` is a failed `assert`. -/
def localChannelAnnouncement (self : AnnoSelf) : Option Bytes :=
  match self.cnlAnno with
  | some cnlAnno => some cnlAnno
  | none => lnMsgCnlAnnounceCreate env crypto node chan self.shortChannelId

/-- `ln_announce_signs_create`. -/
def lnAnnounceSignsCreate (state : AnnoState) (now : UInt32) : Option AnnoState := do
  let cnlAnno ← localChannelAnnouncement env crypto node chan state.self
  let (sigNode, sigBtc) := lnMsgGetAnnoSigns node chan true
  let _ ← lnMsgAnnounceSignsCreate
    { channelId := chan.channelId
      shortChannelId := state.self.shortChannelId
      nodeSignature := slice cnlAnno sigNode 64
      btcSignature := slice cnlAnno sigBtc 64 }
  let annoFlag := { state.self.annoFlag with send := true }
  procAnnoSigs env crypto node chan
    { state with self := { state.self with cnlAnno := some cnlAnno, annoFlag } } now

/-- `ln_channel_update_create`. -/
def lnChannelUpdateCreate (state : AnnoState) (now : UInt32) : Option AnnoState :=
  (saveChannelUpdate env crypto node chan state.db state.self now).map fun db => { state with db }

/-- `recv_announcement_signatures` behind the read: the signatures are in the buffer before the ids
are looked at. -/
def completeAnnouncement (state : AnnoState) (cnlAnno : Bytes) (msg : AnnounceSignsMsg)
    (now : UInt32) : Option AnnoState :=
  let (sigNode, sigBtc) := lnMsgGetAnnoSigns node chan false
  let cnlAnno := writeAt (writeAt cnlAnno sigNode msg.nodeSignature) sigBtc msg.btcSignature
  if msg.shortChannelId = 0 ∨ msg.channelId ≠ chan.channelId then
    some { state with self := { state.self with cnlAnno := some cnlAnno } }
  else
    procAnnoSigs env crypto node chan
      { state with
        self :=
          { cnlAnno :=
              lnMsgCnlAnnounceUpdateShortCnlId crypto node chan cnlAnno msg.shortChannelId
            shortChannelId := msg.shortChannelId
            annoFlag := { state.self.annoFlag with recv := true } } } now

/-- `recv_announcement_signatures`; `none` is a fault, as below. -/
def recvAnnouncementSignatures (state : AnnoState) (data : Bytes) (now : UInt32) :
    Option AnnoState :=
  if chan.fundFlag then do
    let cnlAnno ← localChannelAnnouncement env crypto node chan state.self
    match (lnMsgAnnounceSignsRead state.self.shortChannelId).run data with
    | .fault _ => none
    | .refused _ => some { state with self := { state.self with cnlAnno := some cnlAnno } }
    | .done msg _ => completeAnnouncement env crypto node chan state cnlAnno msg now
  else some state

/-- `recv_channel_announcement`: it is read and saved. -/
def recvChannelAnnouncement (db : AnnoDb) (data : Bytes) : Option AnnoDb :=
  match (lnMsgCnlAnnounceRead env).run data with
  | .fault _ => none
  | .refused _ => some db
  | .done ann _ =>
      if ann.shortChannelId = 0 then some db
      else some (lnDbAnnocnlSave db data ann.shortChannelId (some chan.peerNodeId) ann.nodeId1
        ann.nodeId2).1

/-- `get_nodeid_from_annocnl`: the node of a direction, if it is known. -/
def getNodeidFromAnnocnl (state : AnnoState) (shortChannelId : UInt64) (dir : Bool) :
    Option (Option Bytes) :=
  match state.db.cnlAnno shortChannelId with
  | some stored =>
      match (lnMsgCnlAnnounceRead env).run stored with
      | .fault _ => none
      | .refused _ => some none
      | .done ann _ => some (some (ann.nodeId dir))
  | none =>
      some (if shortChannelId = state.self.shortChannelId then some (announcedNodeId node chan dir)
        else none)

/-- `recv_channel_update`: without a node to verify it with, it is saved all the same. -/
def recvChannelUpdate (state : AnnoState) (now : UInt64) (data : Bytes) : Option AnnoDb :=
  match (lnMsgCnlUpdateRead env).run data with
  | .fault _ => none
  | .refused _ => some state.db
  | .done upd _ =>
      if lnDbAnnocnlupdIsPrune now upd.timestamp then some state.db
      else
        (getNodeidFromAnnocnl env node chan state upd.shortChannelId upd.saved.direction).map
          fun nodeId =>
            let ret := match nodeId.filter env.chkpub with
              | some nodeId => lnMsgCnlUpdateVerify crypto nodeId data
              | none => true
            if ret then (lnDbAnnocnlupdSave state.db data upd.saved (some chan.peerNodeId)).1
            else state.db

/-- `recv_node_announcement`. -/
def recvNodeAnnouncement (db : AnnoDb) (data : Bytes) : Option AnnoDb :=
  match (lnMsgNodeAnnounceRead crypto).run data with
  | .fault _ => none
  | .refused _ => some db
  | .done anno _ =>
      some (lnDbAnnonodSave node.pub db data ⟨anno.nodeId, anno.timestamp⟩ (some chan.peerNodeId)).1

/-! ### Runs -/

/-- A message from the peer of a channel, or something that the own node does with it. -/
inductive Event
  | channelAnnouncement (data : Bytes)
  | channelUpdate (now : UInt64) (data : Bytes)
  | nodeAnnouncement (data : Bytes)
  | announcementSignatures (now : UInt32) (data : Bytes)
  | announceSignsCreate (now : UInt32)
  | channelUpdateCreate (now : UInt32)
  /-- `ln_short_channel_id_set_param`, when the funding transaction is in a block. -/
  | shortChannelIdSet (shortChannelId : UInt64)

def step (state : AnnoState) : Event → Option AnnoState
  | .channelAnnouncement data =>
      (recvChannelAnnouncement env chan state.db data).map fun db => { state with db }
  | .channelUpdate now data =>
      (recvChannelUpdate env crypto node chan state now data).map fun db => { state with db }
  | .nodeAnnouncement data =>
      (recvNodeAnnouncement crypto node chan state.db data).map fun db => { state with db }
  | .announcementSignatures now data =>
      recvAnnouncementSignatures env crypto node chan state data now
  | .announceSignsCreate now => lnAnnounceSignsCreate env crypto node chan state now
  | .channelUpdateCreate now => lnChannelUpdateCreate env crypto node chan state now
  | .shortChannelIdSet shortChannelId =>
      some { state with self := { state.self with shortChannelId } }

end Handlers

/-- The one database of a node, and its channels. -/
structure World (ι : Type) where
  db : AnnoDb
  chans : ι → AnnoSelf

section Runs

variable (env : WireEnv) (crypto : Crypto) (node : LnNode) {ι : Type} [DecidableEq ι]
variable (net : ι → AnnoChannel)

/-- Something happens on one channel. -/
def next (world : World ι) (label : ι × Event) : Option (World ι) :=
  (step env crypto node (net label.1) ⟨world.db, world.chans label.1⟩ label.2).map fun state =>
    ⟨state.db, Function.update world.chans label.1 state.self⟩

/-- The runs of a node with any channels, from an empty database. -/
def system : TransitionSystem.System (World ι) (ι × Event) where
  start world := world = ⟨emptyDb, fun _ => {}⟩
  next := next env crypto node net

end Runs

/-! ### What is authentic -/

section Authentic

variable (env : WireEnv) (crypto : Crypto)

/-- The announcement can be read, and its four signatures verify. -/
def Announced (data : Bytes) : Prop :=
  (∃ ann pos, (lnMsgCnlAnnounceRead env).run data = .done ann pos) ∧
    lnMsgCnlAnnounceVerify env crypto data = some true

/-- The update is signed by the node of the direction in the announcement. -/
def SignedBy (stored : Bytes) (dir : Bool) (cnlUpd : Bytes) : Prop :=
  ∃ ann pos, (lnMsgCnlAnnounceRead env).run stored = .done ann pos ∧
    lnMsgCnlUpdateVerify crypto (ann.nodeId dir) cnlUpd = true

/-- Every announcement is signed by its nodes and under its funding keys, and every update of an
announced channel by the node of its direction. -/
structure Authentic (db : AnnoDb) : Prop where
  announcements : ∀ shortChannelId cnlAnno,
    db.stored (.cnl shortChannelId) = some cnlAnno → Announced env crypto cnlAnno
  updates : ∀ shortChannelId dir cnlUpd cnlAnno,
    db.stored (.upd shortChannelId dir) = some cnlUpd →
      db.stored (.cnl shortChannelId) = some cnlAnno → SignedBy env crypto cnlAnno dir cnlUpd

/-- What has to hold of a message for the database to stay authentic with it. -/
def Admits (db : AnnoDb) (packet : Bytes) : InfoKey → Prop
  | .cnl shortChannelId =>
      Announced env crypto packet ∧ ∀ dir cnlUpd,
        db.stored (.upd shortChannelId dir) = some cnlUpd → SignedBy env crypto packet dir cnlUpd
  | .upd shortChannelId dir =>
      ∀ cnlAnno, db.stored (.cnl shortChannelId) = some cnlAnno →
        SignedBy env crypto cnlAnno dir packet
  | .node _ => True

variable (node : LnNode) (chan : AnnoChannel)

/-- The message completes the own announcement: it is for the channel, and both signatures
verify. -/
def Completes (msg : AnnounceSignsMsg) : Prop :=
  (msg.shortChannelId ≠ 0 ∧ msg.channelId = chan.channelId) ∧
    PeerSigned env crypto node chan ⟨msg.nodeSignature, msg.btcSignature⟩ msg.shortChannelId

/-- A message that is what it should be; what the own node does is no message. -/
def Genuine (state : AnnoState) : Event → Prop
  | .channelAnnouncement data => Announced env crypto data
  | .channelUpdate _ data =>
      ∃ upd pos, (lnMsgCnlUpdateRead env).run data = .done upd pos ∧
        Admits env crypto state.db data (.upd upd.shortChannelId upd.saved.direction)
  | .nodeAnnouncement data => ∃ anno pos, (lnMsgNodeAnnounceRead crypto).run data = .done anno pos
  | .announcementSignatures _ data =>
      ∃ msg pos, (lnMsgAnnounceSignsRead state.self.shortChannelId).run data = .done msg pos ∧
        Completes env crypto node chan msg
  | _ => True

/-- An announcement that is stored for the channel has the own node in its place. -/
def OwnPlace (db : AnnoDb) (shortChannelId : UInt64) : Prop :=
  ∀ cnlAnno, db.stored (.cnl shortChannelId) = some cnlAnno →
    ∃ ann pos, (lnMsgCnlAnnounceRead env).run cnlAnno = .done ann pos ∧
      ann.nodeId (!sortNodeid node chan) = node.pub

/-- The own announcement fits what is stored for the channel. -/
def Publishable (db : AnnoDb) (shortChannelId : UInt64) : Prop :=
  OwnPlace env node chan db shortChannelId ∧
    (db.stored (.cnl shortChannelId) = none → ∀ dir cnlUpd,
      db.stored (.upd shortChannelId dir) = some cnlUpd →
        lnMsgCnlUpdateVerify crypto (announcedNodeId node chan dir) cnlUpd = true)

/-- The steps that the code gets right: a new announcement verifies and fits the updates that are
stored; the signatures of the peer complete the own announcement, or the message is refused with an
announcement there; and what the own node publishes fits what is stored. -/
def Careful (state : AnnoState) : Event → Prop
  | .channelAnnouncement data =>
      ∀ ann pos, (lnMsgCnlAnnounceRead env).run data = .done ann pos → ann.shortChannelId ≠ 0 →
        state.db.stored (.cnl ann.shortChannelId) = none →
          Admits env crypto state.db data (.cnl ann.shortChannelId)
  | .announcementSignatures _ data => chan.fundFlag = true →
      ((lnMsgAnnounceSignsRead state.self.shortChannelId).run data = .refused () →
          state.self.cnlAnno.isSome) ∧
        ∀ msg pos, (lnMsgAnnounceSignsRead state.self.shortChannelId).run data = .done msg pos →
          Completes env crypto node chan msg ∧
            (state.self.annoFlag.send = true → state.self.annoFlag.finished = false →
              Publishable env crypto node chan state.db msg.shortChannelId)
  | .announceSignsCreate _ =>
      state.self.annoFlag.recv = true → state.self.annoFlag.finished = false →
        state.self.shortChannelId ≠ 0 →
          Publishable env crypto node chan state.db state.self.shortChannelId
  | .channelUpdateCreate _ => OwnPlace env node chan state.db state.self.shortChannelId
  | _ => True

end Authentic

/-! ### The database -/

section Database

variable {env : WireEnv} {crypto : Crypto} {db db' : AnnoDb} {packet : Bytes}

theorem Authentic.congr (hauth : Authentic env crypto db) (hstored : db'.stored = db.stored) :
    Authentic env crypto db' := by
  constructor
  · rw [hstored]
    exact hauth.announcements
  · rw [hstored]
    exact hauth.updates

/-- A message that is admitted takes its place. -/
theorem Authentic.put (hauth : Authentic env crypto db) {place : InfoKey}
    (hadmits : Admits env crypto db packet place)
    (hput : ∀ key, db'.stored key = if key = place then some packet else db.stored key) :
    Authentic env crypto db' := by
  constructor
  · intro shortChannelId cnlAnno hstored
    rw [hput] at hstored
    split at hstored
    next hplace =>
      subst hplace
      obtain rfl := Option.some_inj.mp hstored
      exact hadmits.1
    next => exact hauth.announcements _ _ hstored
  · intro shortChannelId dir cnlUpd cnlAnno hupd hanno
    rw [hput] at hupd hanno
    by_cases hcnl : InfoKey.cnl shortChannelId = place
    · subst hcnl
      rw [if_neg (by simp)] at hupd
      rw [if_pos rfl] at hanno
      obtain rfl := Option.some_inj.mp hanno
      exact hadmits.2 dir cnlUpd hupd
    · rw [if_neg hcnl] at hanno
      by_cases hplace : InfoKey.upd shortChannelId dir = place
      · subst hplace
        rw [if_pos rfl] at hupd
        obtain rfl := Option.some_inj.mp hupd
        exact hadmits cnlAnno hanno
      · rw [if_neg hplace] at hupd
        exact hauth.updates _ _ _ _ hupd hanno

/-- A save leaves the messages, or puts its own in its place. -/
theorem stored_outcome {sendId : Option Bytes} {save : Save} {ret : Bool}
    (houtcome : Bookkeeping.Outcome db sendId save db' ret) :
    db'.stored = db.stored ∨
      ∀ key, db'.stored key = if key = save.key then some save.packet else db.stored key := by
  cases houtcome with
  | refused hstored => exact Or.inl hstored
  | ignored hstored => exact Or.inl hstored
  | again _ hstored => exact Or.inl hstored
  | stale _ _ _ hstored => exact Or.inl hstored
  | fresh _ hput => exact Or.inr hput
  | newer _ hput => exact Or.inr hput

/-- An announcement that is there stays. -/
theorem stored_lnDbAnnocnlSave (cnlAnno : Bytes) (shortChannelId : UInt64)
    (sendId : Option Bytes) (nodeId1 nodeId2 : Bytes) :
    (db.stored (.cnl shortChannelId) ≠ none →
      (lnDbAnnocnlSave db cnlAnno shortChannelId sendId nodeId1 nodeId2).1.stored = db.stored) ∧
    (db.stored (.cnl shortChannelId) = none → ∀ key,
      (lnDbAnnocnlSave db cnlAnno shortChannelId sendId nodeId1 nodeId2).1.stored key =
        if key = .cnl shortChannelId then some cnlAnno else db.stored key) := by
  have hload : ((db.putRecv nodeId1).putRecv nodeId2).cnlAnno shortChannelId =
      db.stored (.cnl shortChannelId) := rfl
  simp only [lnDbAnnocnlSave, hload]
  cases db.stored (.cnl shortChannelId) with
  | none =>
      refine ⟨fun hsome => absurd rfl hsome, fun _ key => ?_⟩
      rw [stored_addSender, stored_putCnl]
      rfl
  | some stored =>
      refine ⟨fun _ => ?_, fun hnone => absurd hnone (by simp)⟩
      by_cases hsame : stored = cnlAnno
      · simp only [if_pos hsame, stored_addSender]
        rfl
      · simp only [if_neg hsame]
        rfl

theorem Authentic.annocnlSave (hauth : Authentic env crypto db) {shortChannelId : UInt64}
    {sendId : Option Bytes} {nodeId1 nodeId2 : Bytes}
    (hadmits : db.stored (.cnl shortChannelId) = none →
      Admits env crypto db packet (.cnl shortChannelId)) :
    Authentic env crypto (lnDbAnnocnlSave db packet shortChannelId sendId nodeId1 nodeId2).1 := by
  obtain ⟨hkeep, hput⟩ :=
    @stored_lnDbAnnocnlSave db packet shortChannelId sendId nodeId1 nodeId2
  by_cases hnone : db.stored (.cnl shortChannelId) = none
  · exact hauth.put (hadmits hnone) (hput hnone)
  · exact hauth.congr (hkeep hnone)

theorem Authentic.annocnlupdSave (hauth : Authentic env crypto db) {upd : LnCnlUpdate}
    {sendId : Option Bytes}
    (hadmits : Admits env crypto db packet (.upd upd.shortChannelId upd.direction)) :
    Authentic env crypto (lnDbAnnocnlupdSave db packet upd sendId).1 := by
  have houtcome : Bookkeeping.Outcome db sendId (.annocnlupd packet upd) _ _ :=
    outcome_annocnlupd _ _ _
  rcases stored_outcome houtcome with hkeep | hput
  · exact hauth.congr hkeep
  · exact hauth.put hadmits hput

theorem Authentic.annonodSave (hauth : Authentic env crypto db) (own : Bytes)
    (anno : LnNodeAnnounce) (sendId : Option Bytes) :
    Authentic env crypto (lnDbAnnonodSave own db packet anno sendId).1 := by
  have houtcome : Bookkeeping.Outcome db sendId (.annonod packet anno) _ _ :=
    outcome_annonod own _ _ _
  have hadmits : Admits env crypto db packet (.node anno.nodeId) := trivial
  rcases stored_outcome houtcome with hkeep | hput
  · exact hauth.congr hkeep
  · exact hauth.put hadmits hput

end Database

/-! ### The own announcement and update -/

section Own

variable {env : WireEnv} {crypto : Crypto} {node : LnNode} {chan : AnnoChannel}

/-- What the node signs verifies under its id. -/
theorem lnMsgCnlUpdateVerify_create {upd : CnlUpdateMsg} {cnlUpd : Bytes}
    (hkeys : AnnoKeys env crypto node chan)
    (hcreate : lnMsgCnlUpdateCreate env crypto node.priv upd = some cnlUpd) :
    lnMsgCnlUpdateVerify crypto node.pub cnlUpd = true := by
  rw [lnMsgCnlUpdateCreate, utlPush] at hcreate
  obtain ⟨_, hbytes⟩ := Option.ite_none_right_eq_some.mp hcreate
  obtain rfl := Option.some_inj.mp hbytes
  have hsign := hkeys.sign node.priv (crypto.hash256 (cnlUpdateFields env upd).flatten)
  have hverify := hkeys.sound node.priv node.pub
    (crypto.hash256 (cnlUpdateFields env upd).flatten) hkeys.nodeKey
  generalize crypto.sign node.priv _ = signature at *
  have hcode := length_lnMiscPush16be MsgType.channelUpdate.code
  generalize lnMiscPush16be MsgType.channelUpdate.code = code at *
  have hslice : slice (code ++ (signature ++ (cnlUpdateFields env upd).flatten)) 2 64 =
      signature := by
    rw [slice, List.drop_left' hcode, List.take_left' hsign]
  have hdrop : (code ++ (signature ++ (cnlUpdateFields env upd).flatten)).drop (2 + 64) =
      (cnlUpdateFields env upd).flatten := by
    rw [← List.drop_drop, List.drop_left' hcode, List.drop_left' hsign]
  rw [lnMsgCnlUpdateVerify, List.flatten_cons, List.flatten_cons, hslice, hdrop]
  exact hverify

/-- The direction of the own update is that of the own node. -/
theorem createChannelUpdate_saved (self : AnnoSelf) (now : UInt32) :
    (createChannelUpdate node chan self now).saved =
      ⟨self.shortChannelId, !sortNodeid node chan, now⟩ := by
  have hdir : ∀ sort : Bool, ((if sort then 0 else 1 : UInt16) &&& 1 != 0) = !sort := by decide
  rw [createChannelUpdate, CnlUpdateMsg.saved, hdir]

variable {db db' : AnnoDb} {self : AnnoSelf} {now : UInt32}

/-- The own update is admitted where an announcement has the own node in its place. -/
theorem Authentic.saveChannelUpdate (hauth : Authentic env crypto db)
    (hkeys : AnnoKeys env crypto node chan)
    (hplace : OwnPlace env node chan db self.shortChannelId)
    (hsave : saveChannelUpdate env crypto node chan db self now = some db') :
    Authentic env crypto db' := by
  obtain ⟨cnlUpd, hcreate, hsaved⟩ := Option.bind_eq_some_iff.mp hsave
  obtain rfl := Option.some_inj.mp hsaved
  apply hauth.annocnlupdSave
  rw [createChannelUpdate_saved]
  intro cnlAnno hstored
  obtain ⟨ann, pos, hread, hown⟩ := hplace cnlAnno hstored
  refine ⟨ann, pos, hread, ?_⟩
  rw [hown]
  exact lnMsgCnlUpdateVerify_create hkeys hcreate

/-- What a channel knows of its own announcement: it is one, and once the peer's half has been
received it can be published. -/
structure Ready (env : WireEnv) (crypto : Crypto) (node : LnNode) (chan : AnnoChannel)
    (anno : AnnoSelf) : Prop where
  laid : ∀ cnlAnno, anno.cnlAnno = some cnlAnno → ∃ own peer shortChannelId,
    AnnoSigns.Sized own ∧ AnnoSigns.Sized peer ∧
      cnlAnno = (announcementFields env node chan own peer shortChannelId).flatten
  signed : anno.annoFlag.recv = true → anno.annoFlag.finished = false →
    ∃ peer shortChannelId, AnnoSigns.Sized peer ∧
      PeerSigned env crypto node chan peer shortChannelId ∧
      anno.cnlAnno = some (announcementFields env node chan
        (ownSigns env crypto node chan shortChannelId) peer shortChannelId).flatten

variable {state after : AnnoState}

/-- The announcement with both halves is published, if it is time, where it fits. -/
theorem procAnnoSigs_keeps (hkeys : AnnoKeys env crypto node chan)
    (hauth : Authentic env crypto state.db) (hready : Ready env crypto node chan state.self)
    (hfits : state.self.annoFlag = { send := true, recv := true } →
      state.self.shortChannelId ≠ 0 →
        Publishable env crypto node chan state.db state.self.shortChannelId)
    (hproc : procAnnoSigs env crypto node chan state now = some after) :
    Authentic env crypto after.db ∧ Ready env crypto node chan after.self := by
  rw [procAnnoSigs] at hproc
  split at hproc
  next htime =>
    obtain ⟨hflag, hid⟩ := htime
    obtain ⟨hplace, hupdates⟩ := hfits hflag hid
    obtain ⟨db, hsave, rfl⟩ := Option.map_eq_some_iff.mp hproc
    obtain ⟨peer, shortChannelId, hpeer, hsigned, hbuf⟩ :=
      hready.signed (by rw [hflag]) (by rw [hflag])
    have hown := @ownSigns_sized env crypto node chan shortChannelId hkeys
    obtain ⟨ann, hread, hnodes⟩ :=
      @lnMsgCnlAnnounceRead_announcement env crypto node chan _ _ shortChannelId hkeys hown hpeer
    have hverify := lnMsgCnlAnnounceVerify_announcement hkeys hpeer hsigned
    rw [hbuf, Option.getD_some] at hsave
    generalize (announcementFields env node chan (ownSigns env crypto node chan shortChannelId) peer
      shortChannelId).flatten = cnlAnno at *
    have hadmits : state.db.stored (.cnl state.self.shortChannelId) = none →
        Admits env crypto state.db cnlAnno (.cnl state.self.shortChannelId) := by
      intro hnone
      refine ⟨⟨⟨ann, 432, hread⟩, hverify⟩, fun dir cnlUpd hupd => ⟨ann, 432, hread, ?_⟩⟩
      rw [hnodes]
      exact hupdates hnone dir cnlUpd hupd
    have hsaved := @Authentic.annocnlSave env crypto state.db cnlAnno hauth
      state.self.shortChannelId none chan.peerNodeId node.pub hadmits
    have hplace' : OwnPlace env node chan (lnDbAnnocnlSave state.db cnlAnno
        state.self.shortChannelId none chan.peerNodeId node.pub).1 state.self.shortChannelId := by
      obtain ⟨hkeep, hput⟩ := @stored_lnDbAnnocnlSave state.db cnlAnno state.self.shortChannelId
        none chan.peerNodeId node.pub
      by_cases hnone : state.db.stored (.cnl state.self.shortChannelId) = none
      · intro stored hstored
        rw [hput hnone, if_pos rfl] at hstored
        obtain rfl := Option.some_inj.mp hstored
        refine ⟨ann, 432, hread, ?_⟩
        rw [hnodes, announcedNodeId]
        cases sortNodeid node chan <;> rfl
      · rw [OwnPlace, hkeep hnone]
        exact hplace
    constructor
    · exact hsaved.saveChannelUpdate hkeys hplace' hsave
    · constructor
      · intro stored hstored
        exact hready.laid stored (Option.ite_none_left_eq_some.mp hstored).2
      · intro _ hfinished
        exact absurd hfinished (by simp)
  next =>
    obtain rfl := Option.some_inj.mp hproc
    exact ⟨hauth, hready⟩

theorem localChannelAnnouncement_laid (hkeys : AnnoKeys env crypto node chan)
    (hready : Ready env crypto node chan self) {cnlAnno : Bytes}
    (hlocal : localChannelAnnouncement env crypto node chan self = some cnlAnno) :
    ∃ own peer shortChannelId, AnnoSigns.Sized own ∧ AnnoSigns.Sized peer ∧
      cnlAnno = (announcementFields env node chan own peer shortChannelId).flatten := by
  rw [localChannelAnnouncement] at hlocal
  cases hbuf : self.cnlAnno with
  | some stored =>
      rw [hbuf] at hlocal
      obtain rfl := Option.some_inj.mp hlocal
      exact hready.laid stored hbuf
  | none =>
      simp only [hbuf, lnMsgCnlAnnounceCreate_eq hkeys, Option.some_inj] at hlocal
      exact ⟨_, _, _, ownSigns_sized hkeys, blankSigns_sized, hlocal.symm⟩

theorem lnAnnounceSignsCreate_keeps (hkeys : AnnoKeys env crypto node chan)
    (hauth : Authentic env crypto state.db) (hready : Ready env crypto node chan state.self)
    (hcareful : Careful env crypto node chan state (.announceSignsCreate now))
    (hstep : lnAnnounceSignsCreate env crypto node chan state now = some after) :
    Authentic env crypto after.db ∧ Ready env crypto node chan after.self := by
  obtain ⟨cnlAnno, hlocal, hrest⟩ := Option.bind_eq_some_iff.mp hstep
  obtain ⟨_, _, hproc⟩ := Option.bind_eq_some_iff.mp hrest
  refine procAnnoSigs_keeps hkeys (by exact hauth) ?_ ?_ hproc
  · constructor
    · intro stored hstored
      obtain rfl := Option.some_inj.mp hstored
      exact localChannelAnnouncement_laid hkeys hready hlocal
    · intro hrecv hfinished
      obtain ⟨peer, shortChannelId, hpeer, hsigned, hbuf⟩ := hready.signed hrecv hfinished
      rw [localChannelAnnouncement, hbuf] at hlocal
      exact ⟨peer, shortChannelId, hpeer, hsigned, hlocal.symm⟩
  · intro hflag hid
    have hrecv := congrArg AnnoFlag.recv hflag
    have hfinished := congrArg AnnoFlag.finished hflag
    exact hcareful hrecv hfinished hid

theorem sized_lnMsgAnnounceSignsRead {known : UInt64} {data : Bytes} {msg : AnnounceSignsMsg}
    {pos : Nat} (hread : (lnMsgAnnounceSignsRead known).run data = .done msg pos) :
    AnnoSigns.Sized ⟨msg.nodeSignature, msg.btcSignature⟩ := by
  have hsized : wp (lnMsgAnnounceSignsRead known) data 0 fun msg _ =>
      AnnoSigns.Sized ⟨msg.nodeSignature, msg.btcSignature⟩ := by
    simp only [lnMsgAnnounceSignsRead, wp_bind]
    apply (wp_readType (by decide)).mpr
    intro hlong _
    simp only [wp_bytes, wp_readBe64, wp_refuseIf, wp_assertInside, wp_pure]
    refine ⟨by omega, by omega, fun _ => ⟨by omega, by omega, by omega, ?_⟩⟩
    constructor
    · simp only [List.length_take, List.length_drop]
      omega
    · simp only [List.length_take, List.length_drop]
      omega
  exact (wp_iff_run.mp hsized).2 msg pos hread

/-- The signatures of the peer complete the own announcement. -/
theorem completeAnnouncement_keeps (hkeys : AnnoKeys env crypto node chan)
    (hauth : Authentic env crypto state.db) {cnlAnno : Bytes} {msg : AnnounceSignsMsg}
    (hlaid : ∃ own peer shortChannelId, AnnoSigns.Sized own ∧ AnnoSigns.Sized peer ∧
      cnlAnno = (announcementFields env node chan own peer shortChannelId).flatten)
    (hsized : AnnoSigns.Sized ⟨msg.nodeSignature, msg.btcSignature⟩)
    (hcompletes : Completes env crypto node chan msg)
    (hfits : state.self.annoFlag.send = true → state.self.annoFlag.finished = false →
      Publishable env crypto node chan state.db msg.shortChannelId)
    (hstep : completeAnnouncement env crypto node chan state cnlAnno msg now = some after) :
    Authentic env crypto after.db ∧ Ready env crypto node chan after.self := by
  obtain ⟨own, peer, shortChannelId, hown, hpeer, rfl⟩ := hlaid
  obtain ⟨⟨hid, hchannel⟩, hsigned⟩ := hcompletes
  have hwrite := @writeAt_peer env node chan own peer ⟨msg.nodeSignature, msg.btcSignature⟩
    shortChannelId hown hpeer hsized
  have hupdate := @lnMsgCnlAnnounceUpdateShortCnlId_eq env crypto node chan own
    ⟨msg.nodeSignature, msg.btcSignature⟩ shortChannelId hkeys hown hsized msg.shortChannelId
  simp only [completeAnnouncement, hwrite, hupdate, if_neg (not_or.mpr ⟨hid, not_not.mpr hchannel⟩)]
    at hstep
  refine procAnnoSigs_keeps hkeys (by exact hauth) ?_ ?_ hstep
  · constructor
    · intro stored hstored
      obtain rfl := Option.some_inj.mp hstored
      exact ⟨_, _, _, ownSigns_sized hkeys, hsized, rfl⟩
    · intro _ _
      exact ⟨_, _, hsized, hsigned, rfl⟩
  · intro hflag _
    have hsend := congrArg AnnoFlag.send hflag
    have hfinished := congrArg AnnoFlag.finished hflag
    exact hfits hsend hfinished

theorem recvAnnouncementSignatures_keeps (hkeys : AnnoKeys env crypto node chan)
    (hauth : Authentic env crypto state.db) (hready : Ready env crypto node chan state.self)
    {data : Bytes}
    (hcareful : Careful env crypto node chan state (.announcementSignatures now data))
    (hstep : recvAnnouncementSignatures env crypto node chan state data now = some after) :
    Authentic env crypto after.db ∧ Ready env crypto node chan after.self := by
  rw [recvAnnouncementSignatures] at hstep
  by_cases hfund : chan.fundFlag = true
  · rw [if_pos hfund] at hstep
    obtain ⟨hthere, hcomplete⟩ := hcareful hfund
    obtain ⟨cnlAnno, hlocal, hrest⟩ := Option.bind_eq_some_iff.mp hstep
    have hlaid := localChannelAnnouncement_laid hkeys hready hlocal
    split at hrest
    next => exact absurd hrest (by simp)
    next hread =>
      obtain rfl := Option.some_inj.mp hrest
      obtain ⟨stored, hstored⟩ := Option.isSome_iff_exists.mp (hthere hread)
      rw [localChannelAnnouncement, hstored] at hlocal
      obtain rfl := Option.some_inj.mp hlocal
      rw [← hstored]
      exact ⟨hauth, hready⟩
    next msg pos hread =>
      obtain ⟨hcompletes, hfits⟩ := hcomplete msg pos hread
      exact completeAnnouncement_keeps hkeys hauth hlaid (sized_lnMsgAnnounceSignsRead hread)
        hcompletes hfits hrest
  · rw [if_neg hfund] at hstep
    obtain rfl := Option.some_inj.mp hstep
    exact ⟨hauth, hready⟩

/-- A node that is looked up in an authentic database passes for a key. -/
theorem chkpub_nodeId {cnlAnno : Bytes} {ann : CnlAnnouncePtr} {pos : Nat}
    (hkeys : AnnoKeys env crypto node chan) (hannounced : Announced env crypto cnlAnno)
    (hread : (lnMsgCnlAnnounceRead env).run cnlAnno = .done ann pos) (dir : Bool) :
    env.chkpub (ann.nodeId dir) = true := by
  obtain ⟨⟨hnode1, hnode2⟩, _⟩ := (lnMsgCnlAnnounceVerify_iff hread).mp hannounced.2
  cases dir with
  | false => exact hkeys.chkpub _ _ _ hnode1
  | true => exact hkeys.chkpub _ _ _ hnode2

/-- What an update does that has been received: it is saved, and then it is admitted. -/
theorem recvChannelUpdate_cases (hkeys : AnnoKeys env crypto node chan)
    (hauth : Authentic env crypto state.db) {now : UInt64} {data : Bytes}
    (hstep : recvChannelUpdate env crypto node chan state now data = some db') :
    db' = state.db ∨ ∃ upd pos, (lnMsgCnlUpdateRead env).run data = .done upd pos ∧
      Admits env crypto state.db data (.upd upd.shortChannelId upd.saved.direction) ∧
        db' = (lnDbAnnocnlupdSave state.db data upd.saved (some chan.peerNodeId)).1 := by
  rw [recvChannelUpdate] at hstep
  split at hstep
  next => exact absurd hstep (by simp)
  next => exact Or.inl (Option.some_inj.mp hstep).symm
  next upd pos hread =>
    split at hstep
    next => exact Or.inl (Option.some_inj.mp hstep).symm
    next =>
      obtain ⟨nodeId, hget, rfl⟩ := Option.map_eq_some_iff.mp hstep
      rw [getNodeidFromAnnocnl] at hget
      cases hstored : state.db.cnlAnno upd.shortChannelId with
      | none =>
          have hadmits : Admits env crypto state.db data
              (.upd upd.shortChannelId upd.saved.direction) := by
            intro cnlAnno hsome
            exact absurd (hstored.symm.trans hsome) (by simp)
          cases nodeId.filter env.chkpub with
          | none => exact Or.inr ⟨upd, pos, hread, hadmits, rfl⟩
          | some signer =>
              cases hverify : lnMsgCnlUpdateVerify crypto signer data with
              | true => exact Or.inr ⟨upd, pos, hread, hadmits, by simp [hverify]⟩
              | false => exact Or.inl (by simp [hverify])
      | some stored =>
          have hannounced := hauth.announcements upd.shortChannelId stored hstored
          obtain ⟨ann, pos', hann⟩ := hannounced.1
          simp only [hstored, hann, Option.some_inj] at hget
          have hchkpub := chkpub_nodeId hkeys hannounced hann upd.saved.direction
          subst hget
          simp only [Option.filter_some, hchkpub, if_true]
          split
          next hverify =>
            refine Or.inr ⟨upd, pos, hread, ?_, rfl⟩
            intro cnlAnno hsome
            obtain rfl := Option.some_inj.mp (hstored.symm.trans hsome)
            exact ⟨ann, pos', hann, hverify⟩
          next => exact Or.inl rfl

/-- A careful step leaves an authentic database and a channel that is ready. -/
theorem step_keeps (hkeys : AnnoKeys env crypto node chan)
    (hauth : Authentic env crypto state.db) (hready : Ready env crypto node chan state.self)
    {event : Event} (hcareful : Careful env crypto node chan state event)
    (hstep : step env crypto node chan state event = some after) :
    Authentic env crypto after.db ∧ Ready env crypto node chan after.self := by
  cases event with
  | channelAnnouncement data =>
      obtain ⟨db, hrecv, rfl⟩ := Option.map_eq_some_iff.mp hstep
      refine ⟨?_, hready⟩
      rw [recvChannelAnnouncement] at hrecv
      split at hrecv
      next => exact absurd hrecv (by simp)
      next =>
        obtain rfl := Option.some_inj.mp hrecv
        exact hauth
      next ann pos hread =>
        split at hrecv
        next =>
          obtain rfl := Option.some_inj.mp hrecv
          exact hauth
        next hid =>
          obtain rfl := Option.some_inj.mp hrecv
          exact hauth.annocnlSave (hcareful ann pos hread hid)
  | channelUpdate now data =>
      obtain ⟨db, hrecv, rfl⟩ := Option.map_eq_some_iff.mp hstep
      refine ⟨?_, hready⟩
      rcases recvChannelUpdate_cases hkeys hauth hrecv with rfl | ⟨upd, pos, _, hadmits, rfl⟩
      · exact hauth
      · exact hauth.annocnlupdSave hadmits
  | nodeAnnouncement data =>
      obtain ⟨db, hrecv, rfl⟩ := Option.map_eq_some_iff.mp hstep
      refine ⟨?_, hready⟩
      rw [recvNodeAnnouncement] at hrecv
      split at hrecv
      next => exact absurd hrecv (by simp)
      next =>
        obtain rfl := Option.some_inj.mp hrecv
        exact hauth
      next =>
        obtain rfl := Option.some_inj.mp hrecv
        exact hauth.annonodSave _ _ _
  | announcementSignatures now data =>
      exact recvAnnouncementSignatures_keeps hkeys hauth hready hcareful hstep
  | announceSignsCreate now => exact lnAnnounceSignsCreate_keeps hkeys hauth hready hcareful hstep
  | channelUpdateCreate now =>
      obtain ⟨db, hsave, rfl⟩ := Option.map_eq_some_iff.mp hstep
      exact ⟨hauth.saveChannelUpdate hkeys hcareful hsave, hready⟩
  | shortChannelIdSet shortChannelId =>
      obtain rfl := Option.some_inj.mp hstep
      exact ⟨hauth, hready.laid, hready.signed⟩

/-- A message that is not genuine is not stored, and leaves the own announcement and the
`short_channel_id`. -/
theorem step_not_genuine (hkeys : AnnoKeys env crypto node chan)
    (hauth : Authentic env crypto state.db) {event : Event}
    (hcareful : Careful env crypto node chan state event)
    (hnot : ¬ Genuine env crypto node chan state event)
    (hstep : step env crypto node chan state event = some after) :
    after.db.stored = state.db.stored ∧ after.self.cnlAnno = state.self.cnlAnno ∧
      after.self.shortChannelId = state.self.shortChannelId := by
  cases event with
  | channelAnnouncement data =>
      obtain ⟨db, hrecv, rfl⟩ := Option.map_eq_some_iff.mp hstep
      refine ⟨?_, rfl, rfl⟩
      rw [recvChannelAnnouncement] at hrecv
      split at hrecv
      next => exact absurd hrecv (by simp)
      next => rw [Option.some_inj.mp hrecv]
      next ann pos hread =>
        split at hrecv
        next => rw [Option.some_inj.mp hrecv]
        next hid =>
          obtain rfl := Option.some_inj.mp hrecv
          apply (stored_lnDbAnnocnlSave _ _ _ _ _).1
          intro hnone
          exact hnot (hcareful ann pos hread hid hnone).1
  | channelUpdate now data =>
      obtain ⟨db, hrecv, rfl⟩ := Option.map_eq_some_iff.mp hstep
      refine ⟨?_, rfl, rfl⟩
      rcases recvChannelUpdate_cases hkeys hauth hrecv with rfl | ⟨upd, pos, hread, hadmits, _⟩
      · rfl
      · exact absurd ⟨upd, pos, hread, hadmits⟩ hnot
  | nodeAnnouncement data =>
      obtain ⟨db, hrecv, rfl⟩ := Option.map_eq_some_iff.mp hstep
      refine ⟨?_, rfl, rfl⟩
      rw [recvNodeAnnouncement] at hrecv
      split at hrecv
      next => exact absurd hrecv (by simp)
      next => rw [Option.some_inj.mp hrecv]
      next anno pos hread => exact absurd ⟨anno, pos, hread⟩ hnot
  | announcementSignatures now data =>
      rw [step, recvAnnouncementSignatures] at hstep
      by_cases hfund : chan.fundFlag = true
      · rw [if_pos hfund] at hstep
        obtain ⟨hthere, hcomplete⟩ := hcareful hfund
        obtain ⟨cnlAnno, hlocal, hrest⟩ := Option.bind_eq_some_iff.mp hstep
        split at hrest
        next => exact absurd hrest (by simp)
        next hread =>
          obtain rfl := Option.some_inj.mp hrest
          obtain ⟨stored, hstored⟩ := Option.isSome_iff_exists.mp (hthere hread)
          rw [localChannelAnnouncement, hstored] at hlocal
          obtain rfl := Option.some_inj.mp hlocal
          exact ⟨rfl, hstored.symm, rfl⟩
        next msg pos hread => exact absurd ⟨msg, pos, hread, (hcomplete msg pos hread).1⟩ hnot
      · rw [if_neg hfund] at hstep
        obtain rfl := Option.some_inj.mp hstep
        exact ⟨rfl, rfl, rfl⟩
  | announceSignsCreate now => exact absurd trivial hnot
  | channelUpdateCreate now => exact absurd trivial hnot
  | shortChannelIdSet shortChannelId => exact absurd trivial hnot

end Own

/-! ### All runs -/

section AllRuns

variable (env : WireEnv) (crypto : Crypto) (node : LnNode) {ι : Type} [DecidableEq ι]
variable (net : ι → AnnoChannel)

/-- In every state that allowed steps lead to the database is authentic, and from there a message
that is not genuine is not stored and leaves the own announcements and `short_channel_id`s. -/
def KeepsAuthentic (allowed : World ι → ι × Event → Prop) : Prop :=
  ∀ before, (system env crypto node net).ReachableUnder allowed before →
    Authentic env crypto before.db ∧
      ∀ label after, allowed before label →
        (system env crypto node net).next before label = some after →
          ¬ Genuine env crypto node (net label.1) ⟨before.db, before.chans label.1⟩ label.2 →
            after.db.stored = before.db.stored ∧
              ∀ chan, (after.chans chan).cnlAnno = (before.chans chan).cnlAnno ∧
                (after.chans chan).shortChannelId = (before.chans chan).shortChannelId

/-- The steps that are careful on their channel. -/
def AllCareful (world : World ι) (label : ι × Event) : Prop :=
  Careful env crypto node (net label.1) ⟨world.db, world.chans label.1⟩ label.2

variable {env crypto node net} {before after : World ι}

/-- A step is one on its channel, and the other channels stay as they are. -/
theorem next_step {chan : ι} {event : Event}
    (hnext : (system env crypto node net).next before (chan, event) = some after) :
    ∃ state, step env crypto node (net chan) ⟨before.db, before.chans chan⟩ event = some state ∧
      after.db = state.db ∧ after.chans chan = state.self ∧
        ∀ other, other ≠ chan → after.chans other = before.chans other := by
  obtain ⟨state, hstep, rfl⟩ := Option.map_eq_some_iff.mp hnext
  exact ⟨state, hstep, rfl, Function.update_self .., fun other hother =>
    Function.update_of_ne hother ..⟩

/-- The database is authentic and every channel ready in every run of careful steps. -/
theorem authentic_reachable (hkeys : ∀ chan, AnnoKeys env crypto node (net chan))
    (hreach : (system env crypto node net).ReachableUnder (AllCareful env crypto node net) before) :
    Authentic env crypto before.db ∧
      ∀ chan, Ready env crypto node (net chan) (before.chans chan) := by
  apply hreach.invariant fun world =>
    Authentic env crypto world.db ∧ ∀ chan, Ready env crypto node (net chan) (world.chans chan)
  · rintro world rfl
    refine ⟨⟨?_, ?_⟩, fun chan => ⟨?_, ?_⟩⟩
    · intro shortChannelId cnlAnno hstored
      exact absurd hstored (by simp [emptyDb, AnnoDb.stored])
    · intro shortChannelId dir cnlUpd cnlAnno hstored
      exact absurd hstored (by simp [emptyDb, AnnoDb.stored])
    · intro cnlAnno hbuf
      exact absurd hbuf (by simp)
    · intro hrecv
      exact absurd hrecv (by simp)
  · rintro world ⟨chan, event⟩ after ⟨hauth, hready⟩ hcareful hnext
    obtain ⟨state, hstep, hdb, hself, hothers⟩ := next_step hnext
    have hkeep := step_keeps (hkeys chan) hauth (hready chan) hcareful hstep
    rw [hdb]
    refine ⟨hkeep.1, fun other => ?_⟩
    by_cases hother : other = chan
    · subst hother
      rw [hself]
      exact hkeep.2
    · rw [hothers other hother]
      exact hready other

/-- Careful runs keep the database authentic. -/
theorem keepsAuthentic_careful (hkeys : ∀ chan, AnnoKeys env crypto node (net chan)) :
    KeepsAuthentic env crypto node net (AllCareful env crypto node net) := by
  intro before hreach
  have hauth := (authentic_reachable hkeys hreach).1
  refine ⟨hauth, ?_⟩
  rintro ⟨chan, event⟩ after hcareful hnext hnot
  obtain ⟨state, hstep, hdb, hself, hothers⟩ := next_step hnext
  obtain ⟨hstored, hcnlAnno, hid⟩ := step_not_genuine (hkeys chan) hauth hcareful hnot hstep
  rw [hdb]
  refine ⟨hstored, fun other => ?_⟩
  by_cases hother : other = chan
  · subst hother
    rw [hself]
    exact ⟨hcnlAnno, hid⟩
  · rw [hothers other hother]
    exact ⟨rfl, rfl⟩

end AllRuns

/-! ### A node with one channel -/

def sizedNode : LnNode := ⟨[1], padTo 33 [1]⟩

/-- A channel with the node of the key `[3]`. -/
def sizedChannel : AnnoChannel :=
  { fundingPriv := [2], fundingPub := padTo 33 [2], peerNodeId := padTo 33 [3]
    peerFundingPub := padTo 33 [4], channelId := List.replicate 32 9, fundFlag := true
    cltvExpiryDelta := 36, htlcMinimumMsat := 0, feeBaseMsat := 10, feePropMillionths := 100 }

theorem sizedChannel_keys : AnnoKeys .symbolic .sized sizedNode sizedChannel where
  sound := sized_sound
  chkpub _ _ _ _ := rfl
  sign priv hash := by simp [Crypto.sized]
  genesis := List.length_replicate
  nodeKey := rfl
  fundingKey := rfl
  nodeId := length_padTo 33 _
  fundingPub := length_padTo 33 _
  peerNodeId := length_padTo 33 _
  peerFundingPub := length_padTo 33 _

theorem keepsAuthentic_sized :
    KeepsAuthentic .symbolic .sized sizedNode (fun _ : Unit => sizedChannel)
      (AllCareful .symbolic .sized sizedNode fun _ => sizedChannel) :=
  keepsAuthentic_careful fun _ => sizedChannel_keys

/-- An announcement of two strangers that nobody has signed. -/
def unsignedAnnouncement : Bytes :=
  (signedFields blankSigns blankSigns
    [ lnMiscPush16be 0, WireEnv.symbolic.genesisChainHash, lnMiscPush64be 1, padTo 33 [5]
    , padTo 33 [6], padTo 33 [7], padTo 33 [8] ]).flatten

/-- It is stored as the first message that a node receives. -/
theorem unsigned_not_keepsAuthentic :
    ¬ KeepsAuthentic .symbolic .sized sizedNode (fun _ : Unit => sizedChannel)
      TransitionSystem.System.AnyStep := by
  intro hkeeps
  have hread := @lnMsgCnlAnnounceRead_signedFields .symbolic blankSigns blankSigns 1
    blankSigns_sized blankSigns_sized List.length_replicate (padTo 33 [5]) (padTo 33 [6])
    (padTo 33 [7]) (padTo 33 [8]) (length_padTo 33 _) (length_padTo 33 _) (length_padTo 33 _)
    (length_padTo 33 _)
  change (lnMsgCnlAnnounceRead .symbolic).run unsignedAnnouncement = _ at hread
  have hnext : ∃ after, (system .symbolic .sized sizedNode fun _ : Unit => sizedChannel).next
      ⟨emptyDb, fun _ => {}⟩ ((), .channelAnnouncement unsignedAnnouncement) = some after ∧
        after.db.stored (.cnl 1) = some unsignedAnnouncement := by
    simp only [system, next, step, recvChannelAnnouncement, hread]
    exact ⟨_, rfl, rfl⟩
  obtain ⟨after, hnext, hstored⟩ := hnext
  have hreach : (system .symbolic .sized sizedNode fun _ : Unit => sizedChannel).Reachable after :=
    ⟨_, rfl, .single trivial hnext⟩
  have hannounced := (hkeeps after hreach).1.announcements 1 unsignedAnnouncement hstored
  obtain ⟨⟨hnode1, _⟩, _⟩ := (lnMsgCnlAnnounceVerify_iff hread).mp hannounced.2
  exact absurd hnode1 (by simp [Crypto.sized, blankSigns, padTo])

end Gossip

end Ptarmigan
