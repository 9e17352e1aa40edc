/-
The announce database: the messages about channels and nodes, and for each of them the list of the
peers that have it already.
-/
import Mathlib.Logic.Function.Basic
import Ptarmigan.Library.Run
import Ptarmigan.Tx

namespace Ptarmigan

namespace Bookkeeping

/-- The keys of `channel_annoinfo` and `node_annoinfo`: a `short_channel_id` with `A` for the
announcement, `B` or `C` for the update of a direction, or a node id. -/
inductive InfoKey
  | cnl (shortChannelId : UInt64)
  | upd (shortChannelId : UInt64) (dir : Bool)
  | node (nodeId : Bytes)
deriving DecidableEq, Repr

/-- `channel_anno`, `node_anno`, `chananno_recv` and the two lists of peers; a list is the packed
array of 33-byte ids. -/
structure AnnoDb where
  cnlAnno : UInt64 → Option Bytes
  cnlUpd : UInt64 × Bool → Option (UInt32 × Bytes)
  nodeAnno : Bytes → Option (UInt32 × Bytes)
  recv : Bytes → Bool
  info : InfoKey → Option (List Bytes)

/-- The fields of `ln_cnl_update_t` that are looked at. -/
structure LnCnlUpdate where
  shortChannelId : UInt64
  direction : Bool
  timestamp : UInt32
deriving DecidableEq, Repr

/-- The fields of `ln_node_announce_t` that are looked at. -/
structure LnNodeAnnounce where
  nodeId : Bytes
  timestamp : UInt32
deriving DecidableEq, Repr

/-! ### Lists of peers -/

/-- `annoinfo_search`. -/
def annoinfoSearch (ids : List Bytes) (nodeId : Bytes) : Bool :=
  ids.contains nodeId

/-- `annoinfo_add`: `NULL` empties the list. -/
def annoinfoAdd (ids : List Bytes) : Option Bytes → List Bytes
  | some nodeId => ids ++ [nodeId]
  | none => []

/-- What `ln_db_annocnlinfo_add_nodeid` and `ln_db_annonodinfo_add_nodeid` make of the list under a
key, for a peer. -/
def addNodeid (ids : Option (List Bytes)) (clr : Bool) (sendId : Bytes) : Option (List Bytes) :=
  if clr then some (annoinfoAdd [] (some sendId))
  else if annoinfoSearch (ids.getD []) sendId then ids
  else some (annoinfoAdd (ids.getD []) (some sendId))

/-- `annoinfo_cur_trim` for one record, `none` when it is deleted; `heap` is what `malloc` left in
the new array and behind it.  The old array is lost before it is copied: the new one is copied
onto itself. -/
def annoinfoCurTrim (heap : List Bytes) (nodeId : Bytes) (ids : List Bytes) :
    Option (List Bytes) :=
  match ids.findIdx? (· == nodeId) with
  | none => some ids
  | some lp =>
      let nums := ids.length - 1
      if 0 < nums then some (heap.take lp ++ (heap.drop (lp + 1)).take (nums - lp)) else none

/-! ### Saving -/

def AnnoDb.setInfo (db : AnnoDb) (key : InfoKey) (ids : Option (List Bytes)) : AnnoDb :=
  { db with info := Function.update db.info key ids }

/-- The list under a key when a peer may have sent the message. -/
def AnnoDb.addSender (db : AnnoDb) (key : InfoKey) (clr : Bool) : Option Bytes → AnnoDb
  | some sendId => db.setInfo key (addNodeid (db.info key) clr sendId)
  | none => db

def AnnoDb.putCnl (db : AnnoDb) (shortChannelId : UInt64) (cnlAnno : Bytes) : AnnoDb :=
  { db with cnlAnno := Function.update db.cnlAnno shortChannelId (some cnlAnno) }

def AnnoDb.putUpd (db : AnnoDb) (cnlUpd : Bytes) (upd : LnCnlUpdate) : AnnoDb :=
  { db with
    cnlUpd := Function.update db.cnlUpd (upd.shortChannelId, upd.direction)
      (some (upd.timestamp, cnlUpd)) }

def AnnoDb.putNode (db : AnnoDb) (nodeAnno : Bytes) (anno : LnNodeAnnounce) : AnnoDb :=
  { db with
    nodeAnno := Function.update db.nodeAnno anno.nodeId (some (anno.timestamp, nodeAnno)) }

def AnnoDb.putRecv (db : AnnoDb) (nodeId : Bytes) : AnnoDb :=
  { db with recv := Function.update db.recv nodeId true }

/-- `ln_db_annocnl_save`: what it leaves and its result.  The node ids are committed in any case. -/
def lnDbAnnocnlSave (db : AnnoDb) (cnlAnno : Bytes) (shortChannelId : UInt64)
    (sendId : Option Bytes) (nodeId1 nodeId2 : Bytes) : AnnoDb × Bool :=
  let db := (db.putRecv nodeId1).putRecv nodeId2
  match db.cnlAnno shortChannelId with
  | none => ((db.putCnl shortChannelId cnlAnno).addSender (.cnl shortChannelId) false sendId, true)
  | some stored =>
      if stored = cnlAnno then (db.addSender (.cnl shortChannelId) false sendId, true)
      else (db, false)

/-- `ln_db_annocnlupd_save`. -/
def lnDbAnnocnlupdSave (db : AnnoDb) (cnlUpd : Bytes) (upd : LnCnlUpdate)
    (sendId : Option Bytes) : AnnoDb × Bool :=
  let key := InfoKey.upd upd.shortChannelId upd.direction
  match db.cnlUpd (upd.shortChannelId, upd.direction) with
  | none => ((db.putUpd cnlUpd upd).addSender key false sendId, true)
  | some (timestamp, stored) =>
      if upd.timestamp < timestamp then (db.addSender key false sendId, true)
      else if timestamp < upd.timestamp then
        ((db.putUpd cnlUpd upd).addSender key true sendId, true)
      else if stored = cnlUpd then (db.addSender key false sendId, true)
      else (db, false)

/-- `ln_db_annonod_save` in the node with the id `own`. -/
def lnDbAnnonodSave (own : Bytes) (db : AnnoDb) (nodeAnno : Bytes) (anno : LnNodeAnnounce)
    (sendId : Option Bytes) : AnnoDb × Bool :=
  let key := InfoKey.node anno.nodeId
  if anno.nodeId != own && !db.recv anno.nodeId then (db, false)
  else match db.nodeAnno anno.nodeId with
  | none => ((db.putNode nodeAnno anno).addSender key false sendId, true)
  | some (timestamp, stored) =>
      if anno.timestamp < timestamp then (db, true)
      else if timestamp < anno.timestamp then
        let db := db.putNode nodeAnno anno
        match sendId with
        | some sendId => (db.setInfo key (addNodeid (db.info key) true sendId), true)
        | none => (db.setInfo key (some (annoinfoAdd [] none)), true)
      else if stored = nodeAnno then (db, true)
      else (db, false)

/-- A save with its arguments, apart from the sender. -/
inductive Save
  | annocnl (cnlAnno : Bytes) (shortChannelId : UInt64) (nodeId1 nodeId2 : Bytes)
  | annocnlupd (cnlUpd : Bytes) (upd : LnCnlUpdate)
  | annonod (nodeAnno : Bytes) (anno : LnNodeAnnounce)

def Save.run (own : Bytes) (db : AnnoDb) (sendId : Option Bytes) : Save → AnnoDb × Bool
  | annocnl cnlAnno shortChannelId nodeId1 nodeId2 =>
      lnDbAnnocnlSave db cnlAnno shortChannelId sendId nodeId1 nodeId2
  | annocnlupd cnlUpd upd => lnDbAnnocnlupdSave db cnlUpd upd sendId
  | annonod nodeAnno anno => lnDbAnnonodSave own db nodeAnno anno sendId

def Save.key : Save → InfoKey
  | annocnl _ shortChannelId _ _ => .cnl shortChannelId
  | annocnlupd _ upd => .upd upd.shortChannelId upd.direction
  | annonod _ anno => .node anno.nodeId

def Save.packet : Save → Bytes
  | annocnl cnlAnno _ _ _ => cnlAnno
  | annocnlupd cnlUpd _ => cnlUpd
  | annonod nodeAnno _ => nodeAnno

/-- The message that is stored under a key. -/
def AnnoDb.stored (db : AnnoDb) : InfoKey → Option Bytes
  | .cnl shortChannelId => db.cnlAnno shortChannelId
  | .upd shortChannelId dir => (db.cnlUpd (shortChannelId, dir)).map (·.2)
  | .node nodeId => (db.nodeAnno nodeId).map (·.2)

/-- The peers listed under a key. -/
def AnnoDb.ids (db : AnnoDb) (key : InfoKey) : List Bytes :=
  (db.info key).getD []

/-! ### Runs -/

/-- The database with what happened: the updates that were accepted, and which peer has sent or was
sent which message. -/
structure World where
  db : AnnoDb
  accepted : List (LnCnlUpdate × Bytes)
  has : List (Bytes × InfoKey × Bytes)

inductive Label
  /-- A save for a message from a peer, or an own one. -/
  | save (save : Save) (sendId : Option Bytes)
  /-- The stored message goes to a peer, which is listed then. -/
  | send (key : InfoKey) (peer : Bytes)
  /-- The peer is taken from every list; `heap` is what `malloc` gives for each. -/
  | trim (nodeId : Bytes) (heap : InfoKey → List Bytes)

/-- The update that a save accepts. -/
def Save.update : Save → List (LnCnlUpdate × Bytes)
  | annocnlupd cnlUpd upd => [(upd, cnlUpd)]
  | _ => []

def next (own : Bytes) (world : World) : Label → Option World
  | .save save sendId =>
      let (db, ret) := save.run own world.db sendId
      some
        { db := db
          accepted := if ret then save.update ++ world.accepted else world.accepted
          has := (sendId.toList.map fun peer => (peer, save.key, save.packet)) ++ world.has }
  | .send key peer =>
      match world.db.stored key with
      | none => none
      | some packet => some { world with
          db := world.db.setInfo key (addNodeid (world.db.info key) false peer)
          has := (peer, key, packet) :: world.has }
  | .trim nodeId heap =>
      some { world with
        db := { world.db with
          info := fun key => (world.db.info key).bind (annoinfoCurTrim (heap key) nodeId) } }

def emptyDb : AnnoDb :=
  ⟨fun _ => none, fun _ => none, fun _ => none, fun _ => false, fun _ => none⟩

/-- The runs of a node with the id `own`, from an empty database. -/
def system (own : Bytes) : TransitionSystem.System World Label where
  start world := world = ⟨emptyDb, [], []⟩
  next := next own

/-! ### What the bookkeeping is for -/

/-- The stored update of a direction is an accepted one, and none of the accepted ones is newer. -/
structure Newest (world : World) : Prop where
  accepted : ∀ shortChannelId dir timestamp packet,
    world.db.cnlUpd (shortChannelId, dir) = some (timestamp, packet) →
      (⟨shortChannelId, dir, timestamp⟩, packet) ∈ world.accepted
  newest : ∀ upd packet, (upd, packet) ∈ world.accepted →
    ∃ timestamp stored, world.db.cnlUpd (upd.shortChannelId, upd.direction) =
      some (timestamp, stored) ∧ upd.timestamp ≤ timestamp

/-- A peer is listed only if it has the stored message. -/
def Listed (world : World) : Prop :=
  ∀ key peer, peer ∈ world.db.ids key →
    ∃ packet, world.db.stored key = some packet ∧ (peer, key, packet) ∈ world.has

/-- What a step must leave: a newer message clears the list but for its sender, a peer that is
removed leaves the others, and a save that fails leaves the database. -/
structure StepKeeps (own : Bytes) (before : World) (label : Label) (after : World) : Prop where
  clears : ∀ key packet packet', before.db.stored key = some packet →
    after.db.stored key = some packet' → packet ≠ packet' →
      ∀ peer ∈ after.db.ids key, ∃ save, label = .save save (some peer)
  trims : ∀ nodeId heap, label = .trim nodeId heap →
    ∀ key, after.db.ids key = (before.db.ids key).filter (· ≠ nodeId)
  fails : ∀ save sendId, label = .save save sendId → (save.run own before.db sendId).2 = false →
    after.db = before.db

/-- The steps that the code gets right: a different announcement comes for known nodes, an update
that is too old from a peer that has the newer one, an own newer update while nobody is listed, and
a peer is removed where it is alone. -/
def Careful (world : World) : Label → Prop
  | .save (.annocnl cnlAnno shortChannelId nodeId1 nodeId2) _ =>
      (∀ stored, world.db.cnlAnno shortChannelId = some stored → stored = cnlAnno) ∨
        (world.db.recv nodeId1 = true ∧ world.db.recv nodeId2 = true)
  | .save (.annocnlupd _ upd) sendId =>
      ∀ timestamp stored,
        world.db.cnlUpd (upd.shortChannelId, upd.direction) = some (timestamp, stored) →
          (upd.timestamp < timestamp → ∀ peer, sendId = some peer →
            (peer, InfoKey.upd upd.shortChannelId upd.direction, stored) ∈ world.has) ∧
          (timestamp < upd.timestamp → sendId = none →
            world.db.ids (.upd upd.shortChannelId upd.direction) = [])
  | .save (.annonod _ _) _ => True
  | .send _ _ => True
  | .trim nodeId _ => ∀ key, nodeId ∈ world.db.ids key → world.db.ids key = [nodeId]

/-! ### One operation -/

section Operations

variable {own : Bytes} {db : AnnoDb} {key : InfoKey}

theorem mem_addNodeid {ids : Option (List Bytes)} {clr : Bool} {sendId peer : Bytes}
    (hmem : peer ∈ (addNodeid ids clr sendId).getD []) :
    peer = sendId ∨ (clr = false ∧ peer ∈ ids.getD []) := by
  cases clr with
  | true =>
      left
      simpa [addNodeid, annoinfoAdd] using hmem
  | false =>
      by_cases hlisted : annoinfoSearch (ids.getD []) sendId = true
      · rw [addNodeid, if_neg (by simp), if_pos hlisted] at hmem
        exact Or.inr ⟨rfl, hmem⟩
      · rw [addNodeid, if_neg (by simp), if_neg hlisted] at hmem
        rcases List.mem_append.mp hmem with hmem | hmem
        · exact Or.inr ⟨rfl, hmem⟩
        · exact Or.inl (List.mem_singleton.mp hmem)

theorem ids_setInfo (ids : Option (List Bytes)) (key' : InfoKey) :
    (db.setInfo key ids).ids key' = if key' = key then ids.getD [] else db.ids key' := by
  by_cases hkey : key' = key
  · subst hkey
    simp [AnnoDb.setInfo, AnnoDb.ids]
  · simp [AnnoDb.setInfo, AnnoDb.ids, hkey]

/-- A peer that is listed behind a save is its sender, or was listed before and not cleared. -/
theorem mem_addSender {clr : Bool} {sendId : Option Bytes} {key' : InfoKey} {peer : Bytes}
    (hmem : peer ∈ (db.addSender key clr sendId).ids key') :
    (key' = key ∧ sendId = some peer) ∨
      (peer ∈ db.ids key' ∧ (key' = key → clr = true → sendId = none)) := by
  cases sendId with
  | none => exact Or.inr ⟨hmem, fun _ _ => rfl⟩
  | some sendId =>
      rw [AnnoDb.addSender, ids_setInfo] at hmem
      by_cases hkey : key' = key
      · rw [if_pos hkey] at hmem
        rcases mem_addNodeid hmem with rfl | ⟨hclr, hmem⟩
        · exact Or.inl ⟨hkey, rfl⟩
        · subst hkey
          exact Or.inr ⟨hmem, fun _ htrue => absurd (hclr.symm.trans htrue) (by decide)⟩
      · rw [if_neg hkey] at hmem
        exact Or.inr ⟨hmem, fun heq => absurd heq hkey⟩

@[simp] theorem stored_addSender (clr : Bool) (sendId : Option Bytes) :
    (db.addSender key clr sendId).stored = db.stored := by
  cases sendId <;> rfl

@[simp] theorem stored_setInfo (ids : Option (List Bytes)) :
    (db.setInfo key ids).stored = db.stored := rfl

@[simp] theorem cnlUpd_addSender (clr : Bool) (sendId : Option Bytes) :
    (db.addSender key clr sendId).cnlUpd = db.cnlUpd := by
  cases sendId <;> rfl

theorem stored_putCnl (shortChannelId : UInt64) (cnlAnno : Bytes) (key : InfoKey) :
    (db.putCnl shortChannelId cnlAnno).stored key =
      if key = .cnl shortChannelId then some cnlAnno else db.stored key := by
  cases key with
  | cnl other =>
      by_cases hsame : other = shortChannelId
      · simp [AnnoDb.stored, AnnoDb.putCnl, hsame]
      · simp [AnnoDb.stored, AnnoDb.putCnl, hsame]
  | upd other dir => rfl
  | node nodeId => rfl

theorem stored_putUpd (cnlUpd : Bytes) (upd : LnCnlUpdate) (key : InfoKey) :
    (db.putUpd cnlUpd upd).stored key =
      if key = .upd upd.shortChannelId upd.direction then some cnlUpd else db.stored key := by
  cases key with
  | cnl other => rfl
  | upd other dir =>
      by_cases hsame : (other, dir) = (upd.shortChannelId, upd.direction)
      · simp only [Prod.mk.injEq] at hsame
        simp [AnnoDb.stored, AnnoDb.putUpd, hsame]
      · have hkey : ¬ InfoKey.upd other dir = .upd upd.shortChannelId upd.direction := by
          simpa using hsame
        simp [AnnoDb.stored, AnnoDb.putUpd, hsame, hkey]
  | node nodeId => rfl

theorem stored_putNode (nodeAnno : Bytes) (anno : LnNodeAnnounce) (key : InfoKey) :
    (db.putNode nodeAnno anno).stored key =
      if key = .node anno.nodeId then some nodeAnno else db.stored key := by
  cases key with
  | cnl other => rfl
  | upd other dir => rfl
  | node nodeId =>
      by_cases hsame : nodeId = anno.nodeId
      · simp [AnnoDb.stored, AnnoDb.putNode, hsame]
      · simp [AnnoDb.stored, AnnoDb.putNode, hsame]

/-- What a save can do to the messages and to the lists. -/
inductive Outcome (db : AnnoDb) (sendId : Option Bytes) (save : Save) (db' : AnnoDb) : Bool → Prop
  | refused : db'.stored = db.stored → db'.info = db.info → Outcome db sendId save db' false
  /-- An announcement of a node that is not newer. -/
  | ignored : db'.stored = db.stored → db'.info = db.info → Outcome db sendId save db' true
  /-- The stored message once more. -/
  | again : db.stored save.key = some save.packet → db'.stored = db.stored →
      db'.ids = (db.addSender save.key false sendId).ids → Outcome db sendId save db' true
  /-- An update that is too old. -/
  | stale {cnlUpd : Bytes} {upd : LnCnlUpdate} {timestamp : UInt32} {stored : Bytes} :
      save = .annocnlupd cnlUpd upd →
      db.cnlUpd (upd.shortChannelId, upd.direction) = some (timestamp, stored) →
      upd.timestamp < timestamp → db'.stored = db.stored →
      db'.ids = (db.addSender save.key false sendId).ids → Outcome db sendId save db' true
  | fresh : db.stored save.key = none →
      (∀ key, db'.stored key = if key = save.key then some save.packet else db.stored key) →
      db'.ids = (db.addSender save.key false sendId).ids → Outcome db sendId save db' true
  /-- A newer message clears the list, except for an own update. -/
  | newer {packet : Bytes} : db.stored save.key = some packet →
      (∀ key, db'.stored key = if key = save.key then some save.packet else db.stored key) →
      (∀ key, key ≠ save.key → db'.ids key = db.ids key) →
      (∀ peer ∈ db'.ids save.key, sendId = some peer ∨
        ∃ cnlUpd upd timestamp stored, save = .annocnlupd cnlUpd upd ∧
          db.cnlUpd (upd.shortChannelId, upd.direction) = some (timestamp, stored) ∧
          timestamp < upd.timestamp ∧ sendId = none ∧ peer ∈ db.ids save.key) →
      Outcome db sendId save db' true

theorem outcome_annocnl (sendId : Option Bytes) (cnlAnno : Bytes) (shortChannelId : UInt64)
    (nodeId1 nodeId2 : Bytes) :
    Outcome db sendId (.annocnl cnlAnno shortChannelId nodeId1 nodeId2)
      (lnDbAnnocnlSave db cnlAnno shortChannelId sendId nodeId1 nodeId2).1
      (lnDbAnnocnlSave db cnlAnno shortChannelId sendId nodeId1 nodeId2).2 := by
  have hids : ∀ db' : AnnoDb, db'.info = db.info →
      (db'.addSender (.cnl shortChannelId) false sendId).ids =
        (db.addSender (.cnl shortChannelId) false sendId).ids := by
    intro db' hinfo
    funext key
    cases sendId with
    | none => simp only [AnnoDb.addSender, AnnoDb.ids, hinfo]
    | some sendId => simp only [AnnoDb.addSender, AnnoDb.setInfo, AnnoDb.ids, hinfo]
  have hload : ((db.putRecv nodeId1).putRecv nodeId2).cnlAnno shortChannelId =
      db.cnlAnno shortChannelId := rfl
  simp only [lnDbAnnocnlSave, hload]
  cases hstored : db.cnlAnno shortChannelId with
  | none =>
      apply Outcome.fresh
      · exact hstored
      · intro key
        rw [stored_addSender, stored_putCnl]
        rfl
      · exact hids _ rfl
  | some stored =>
      by_cases hsame : stored = cnlAnno
      · simp only [if_pos hsame]
        apply Outcome.again
        · rw [← hsame]
          exact hstored
        · rw [stored_addSender]
          rfl
        · exact hids _ rfl
      · simp only [if_neg hsame]
        exact Outcome.refused rfl rfl

theorem outcome_annocnlupd (sendId : Option Bytes) (cnlUpd : Bytes) (upd : LnCnlUpdate) :
    Outcome db sendId (.annocnlupd cnlUpd upd) (lnDbAnnocnlupdSave db cnlUpd upd sendId).1
      (lnDbAnnocnlupdSave db cnlUpd upd sendId).2 := by
  have hput : ∀ clr key, ((db.putUpd cnlUpd upd).addSender
      (.upd upd.shortChannelId upd.direction) clr sendId).stored key =
      if key = .upd upd.shortChannelId upd.direction then some cnlUpd else db.stored key := by
    intro clr key
    rw [stored_addSender, stored_putUpd]
  have hids : ∀ clr, ((db.putUpd cnlUpd upd).addSender
      (.upd upd.shortChannelId upd.direction) clr sendId).ids =
      (db.addSender (.upd upd.shortChannelId upd.direction) clr sendId).ids := by
    intro clr
    cases sendId <;> rfl
  simp only [lnDbAnnocnlupdSave]
  cases hload : db.cnlUpd (upd.shortChannelId, upd.direction) with
  | none =>
      have hnone : db.stored (.upd upd.shortChannelId upd.direction) = none := by
        simp only [AnnoDb.stored, hload, Option.map_none]
      exact Outcome.fresh hnone (hput false) (hids false)
  | some entry =>
      obtain ⟨timestamp, stored⟩ := entry
      have hstored : db.stored (.upd upd.shortChannelId upd.direction) = some stored := by
        simp only [AnnoDb.stored, hload, Option.map_some]
      by_cases hold : upd.timestamp < timestamp
      · simp only [if_pos hold]
        exact Outcome.stale rfl hload hold (stored_addSender _ _) rfl
      by_cases hnew : timestamp < upd.timestamp
      · simp only [if_neg hold, if_pos hnew]
        apply Outcome.newer hstored (hput true)
        · intro key hkey
          rw [hids]
          cases sendId with
          | none => rfl
          | some sendId =>
              rw [AnnoDb.addSender, ids_setInfo]
              exact if_neg hkey
        · intro peer hmem
          rw [hids] at hmem
          rcases mem_addSender hmem with ⟨_, hsender⟩ | ⟨hlisted, hown⟩
          · exact Or.inl hsender
          · exact Or.inr ⟨cnlUpd, upd, timestamp, stored, rfl, hload, hnew, hown rfl rfl, hlisted⟩
      by_cases hsame : stored = cnlUpd
      · simp only [if_neg hold, if_neg hnew, if_pos hsame]
        subst hsame
        exact Outcome.again hstored (stored_addSender _ _) rfl
      · simp only [if_neg hold, if_neg hnew, if_neg hsame]
        exact Outcome.refused rfl rfl

theorem outcome_annonod (own : Bytes) (sendId : Option Bytes) (nodeAnno : Bytes)
    (anno : LnNodeAnnounce) :
    Outcome db sendId (.annonod nodeAnno anno) (lnDbAnnonodSave own db nodeAnno anno sendId).1
      (lnDbAnnonodSave own db nodeAnno anno sendId).2 := by
  simp only [lnDbAnnonodSave]
  by_cases hunknown : (anno.nodeId != own && !db.recv anno.nodeId) = true
  · simp only [if_pos hunknown]
    exact Outcome.refused rfl rfl
  simp only [if_neg hunknown]
  cases hload : db.nodeAnno anno.nodeId with
  | none =>
      apply Outcome.fresh
      · simp only [Save.key, AnnoDb.stored, hload, Option.map_none]
      · intro key
        rw [stored_addSender, stored_putNode]
        rfl
      · cases sendId <;> rfl
  | some entry =>
      obtain ⟨timestamp, stored⟩ := entry
      have hstored : db.stored (.node anno.nodeId) = some stored := by
        simp only [AnnoDb.stored, hload, Option.map_some]
      by_cases hold : anno.timestamp < timestamp
      · simp only [if_pos hold]
        exact Outcome.ignored rfl rfl
      by_cases hnew : timestamp < anno.timestamp
      · simp only [if_neg hold, if_pos hnew]
        cases sendId with
        | none =>
            apply Outcome.newer hstored
            · intro key
              rw [stored_setInfo, stored_putNode]
              rfl
            · intro key hkey
              rw [ids_setInfo]
              exact if_neg hkey
            · intro peer hmem
              rw [ids_setInfo] at hmem
              exact absurd hmem (by simp [Save.key, annoinfoAdd])
        | some sendId =>
            apply Outcome.newer hstored
            · intro key
              rw [stored_setInfo, stored_putNode]
              rfl
            · intro key hkey
              rw [ids_setInfo]
              exact if_neg hkey
            · intro peer hmem
              rw [ids_setInfo] at hmem
              simp only [Save.key, if_true] at hmem
              rcases mem_addNodeid hmem with rfl | ⟨hclr, _⟩
              · exact Or.inl rfl
              · exact absurd hclr (by decide)
      by_cases hsame : stored = nodeAnno
      · simp only [if_neg hold, if_neg hnew, if_pos hsame]
        exact Outcome.ignored rfl rfl
      · simp only [if_neg hold, if_neg hnew, if_neg hsame]
        exact Outcome.refused rfl rfl

theorem outcome_run (own : Bytes) (sendId : Option Bytes) (save : Save) :
    Outcome db sendId save (save.run own db sendId).1 (save.run own db sendId).2 := by
  cases save with
  | annocnl cnlAnno shortChannelId nodeId1 nodeId2 => exact outcome_annocnl _ _ _ _ _
  | annocnlupd cnlUpd upd => exact outcome_annocnlupd _ _ _
  | annonod nodeAnno anno => exact outcome_annonod _ _ _ _

end Operations

/-! ### One step -/

section Steps

variable {own : Bytes} {world after : World}

/-- Lists stay right when a peer on them was on them before, for the same message, or has the
message now. -/
theorem Listed.change (hlisted : Listed world) (hhas : ∀ entry ∈ world.has, entry ∈ after.has)
    (hchange : ∀ key peer, peer ∈ after.db.ids key →
      (peer ∈ world.db.ids key ∧ after.db.stored key = world.db.stored key) ∨
        ∃ packet, after.db.stored key = some packet ∧ (peer, key, packet) ∈ after.has) :
    Listed after := by
  intro key peer hmem
  rcases hchange key peer hmem with ⟨hbefore, hstored⟩ | hnow
  · obtain ⟨packet, hpacket, hentry⟩ := hlisted key peer hbefore
    exact ⟨packet, hstored.trans hpacket, hhas _ hentry⟩
  · exact hnow

theorem next_save {save : Save} {sendId : Option Bytes}
    (hnext : next own world (.save save sendId) = some after) :
    after.db = (save.run own world.db sendId).1 ∧
      (∀ entry ∈ world.has, entry ∈ after.has) ∧
      (∀ peer, sendId = some peer → (peer, save.key, save.packet) ∈ after.has) ∧
      after.accepted = if (save.run own world.db sendId).2 then save.update ++ world.accepted
        else world.accepted := by
  have hafter := (Option.some_inj.mp hnext).symm
  subst hafter
  refine ⟨rfl, ?_, ?_, rfl⟩
  · intro entry hentry
    exact List.mem_append_right _ hentry
  · rintro peer rfl
    exact List.mem_append_left _ (List.mem_singleton.mpr rfl)

theorem Listed.save (hlisted : Listed world) {save : Save} {sendId : Option Bytes}
    (hcareful : Careful world (.save save sendId))
    (hnext : next own world (.save save sendId) = some after) : Listed after := by
  obtain ⟨hdb, hhas, hsender, _⟩ := next_save hnext
  have houtcome : Outcome world.db sendId save _ _ := outcome_run own sendId save
  rw [← hdb] at houtcome
  apply hlisted.change hhas
  intro key peer hmem
  generalize (save.run own world.db sendId).2 = ret at houtcome
  cases houtcome with
  | refused hstored hinfo =>
      rw [AnnoDb.ids, hinfo] at hmem
      exact Or.inl ⟨hmem, congrFun hstored key⟩
  | ignored hstored hinfo =>
      rw [AnnoDb.ids, hinfo] at hmem
      exact Or.inl ⟨hmem, congrFun hstored key⟩
  | again hpacket hstored hids =>
      rw [hids] at hmem
      rcases mem_addSender hmem with ⟨rfl, hpeer⟩ | ⟨hbefore, _⟩
      · exact Or.inr ⟨save.packet, (congrFun hstored _).trans hpacket, hsender peer hpeer⟩
      · exact Or.inl ⟨hbefore, congrFun hstored key⟩
  | stale hsave hload hold hstored hids =>
      rw [hids] at hmem
      rcases mem_addSender hmem with ⟨rfl, hpeer⟩ | ⟨hbefore, _⟩
      · subst hsave
        have hentry := (hcareful _ _ hload).1 hold peer hpeer
        refine Or.inr ⟨_, ?_, hhas _ hentry⟩
        rw [hstored]
        exact congrArg (Option.map (·.2)) hload
      · exact Or.inl ⟨hbefore, congrFun hstored key⟩
  | fresh hnone hput hids =>
      rw [hids] at hmem
      rcases mem_addSender hmem with ⟨rfl, hpeer⟩ | ⟨hbefore, _⟩
      · exact Or.inr ⟨save.packet, (hput _).trans (if_pos rfl), hsender peer hpeer⟩
      · obtain ⟨packet, hpacket, _⟩ := hlisted key peer hbefore
        have hkey : key ≠ save.key := by
          rintro rfl
          exact absurd (hnone.symm.trans hpacket) (by simp)
        exact Or.inl ⟨hbefore, (hput key).trans (if_neg hkey)⟩
  | newer hpacket hput hothers hpeers =>
      by_cases hkey : key = save.key
      · subst hkey
        rcases hpeers peer hmem with hpeer | ⟨cnlUpd, upd, timestamp, stored, hsave, hload, hnew,
          hown, hbefore⟩
        · exact Or.inr ⟨save.packet, (hput _).trans (if_pos rfl), hsender peer hpeer⟩
        · subst hsave
          have hempty := (hcareful _ _ hload).2 hnew hown
          exact absurd hbefore (by simp [Save.key, hempty])
      · rw [hothers key hkey] at hmem
        exact Or.inl ⟨hmem, (hput key).trans (if_neg hkey)⟩

/-- A message gives way to another one only with its list. -/
theorem clears_save {save : Save} {sendId : Option Bytes}
    (hcareful : Careful world (.save save sendId))
    (hnext : next own world (.save save sendId) = some after) {key : InfoKey}
    {packet packet' : Bytes} (hbefore : world.db.stored key = some packet)
    (hafter : after.db.stored key = some packet') (hdiffer : packet ≠ packet') :
    ∀ peer ∈ after.db.ids key, sendId = some peer := by
  obtain ⟨hdb, _, _, _⟩ := next_save hnext
  have houtcome : Outcome world.db sendId save _ _ := outcome_run own sendId save
  have hsame : ¬ after.db.stored key = world.db.stored key := by
    intro hsame
    rw [hsame, hbefore] at hafter
    exact hdiffer (Option.some_inj.mp hafter)
  rw [← hdb] at houtcome
  intro peer hmem
  generalize (save.run own world.db sendId).2 = ret at houtcome
  cases houtcome with
  | refused hstored _ => exact absurd (congrFun hstored key) hsame
  | ignored hstored _ => exact absurd (congrFun hstored key) hsame
  | again _ hstored _ => exact absurd (congrFun hstored key) hsame
  | stale _ _ _ hstored _ => exact absurd (congrFun hstored key) hsame
  | fresh hnone hput _ =>
      by_cases hkey : key = save.key
      · subst hkey
        exact absurd (hnone.symm.trans hbefore) (by simp)
      · exact absurd ((hput key).trans (if_neg hkey)) hsame
  | newer _ hput _ hpeers =>
      by_cases hkey : key = save.key
      · subst hkey
        rcases hpeers peer hmem with hpeer | ⟨cnlUpd, upd, timestamp, stored, hsave, hload, hnew,
          hown, hlisted⟩
        · exact hpeer
        · subst hsave
          have hempty := (hcareful _ _ hload).2 hnew hown
          exact absurd hlisted (by simp [Save.key, hempty])
      · exact absurd ((hput key).trans (if_neg hkey)) hsame

theorem putRecv_of_known {db : AnnoDb} {nodeId : Bytes} (hknown : db.recv nodeId = true) :
    db.putRecv nodeId = db := by
  rw [AnnoDb.putRecv, Function.update_eq_self_iff.mpr hknown.symm]

/-- A save that fails changes nothing. -/
theorem fails_save {save : Save} {sendId : Option Bytes}
    (hcareful : Careful world (.save save sendId))
    (hfails : (save.run own world.db sendId).2 = false) :
    (save.run own world.db sendId).1 = world.db := by
  cases save with
  | annocnl cnlAnno shortChannelId nodeId1 nodeId2 =>
      simp only [Save.run, lnDbAnnocnlSave] at hfails ⊢
      have hload : ((world.db.putRecv nodeId1).putRecv nodeId2).cnlAnno shortChannelId =
          world.db.cnlAnno shortChannelId := rfl
      rw [hload] at hfails ⊢
      cases hstored : world.db.cnlAnno shortChannelId with
      | none =>
          rw [hstored] at hfails
          exact absurd hfails (by simp)
      | some stored =>
          rw [hstored] at hfails
          by_cases hsame : stored = cnlAnno
          · simp only [if_pos hsame] at hfails
            exact absurd hfails (by simp)
          · rcases hcareful with hequal | ⟨hknown1, hknown2⟩
            · exact absurd (hequal stored hstored) hsame
            · simp only [if_neg hsame]
              rw [putRecv_of_known hknown1, putRecv_of_known hknown2]
  | annocnlupd cnlUpd upd =>
      simp only [Save.run, lnDbAnnocnlupdSave] at hfails ⊢
      split at hfails
      next => exact absurd hfails (by simp)
      next timestamp stored hload =>
        split at hfails
        next => exact absurd hfails (by simp)
        next hold =>
          split at hfails
          next => exact absurd hfails (by simp)
          next hnew =>
            split at hfails
            next => exact absurd hfails (by simp)
            next hsame => simp only [if_neg hold, if_neg hnew, if_neg hsame]
  | annonod nodeAnno anno =>
      simp only [Save.run, lnDbAnnonodSave] at hfails ⊢
      by_cases hunknown : (anno.nodeId != own && !world.db.recv anno.nodeId) = true
      · simp only [if_pos hunknown]
      simp only [if_neg hunknown] at hfails ⊢
      split at hfails
      next => exact absurd hfails (by simp)
      next timestamp stored hload =>
        split at hfails
        next => exact absurd hfails (by simp)
        next hold =>
          split at hfails
          next =>
            cases sendId with
            | none => exact absurd hfails (by simp)
            | some sendId => exact absurd hfails (by simp)
          next hnew =>
            split at hfails
            next => exact absurd hfails (by simp)
            next hsame => simp only [if_neg hold, if_neg hnew, if_neg hsame]

theorem next_send {key : InfoKey} {peer : Bytes}
    (hnext : next own world (.send key peer) = some after) :
    ∃ packet, world.db.stored key = some packet ∧
      after = { world with
        db := world.db.setInfo key (addNodeid (world.db.info key) false peer)
        has := (peer, key, packet) :: world.has } := by
  rw [next] at hnext
  cases hstored : world.db.stored key with
  | none =>
      rw [hstored] at hnext
      exact absurd hnext (by simp)
  | some packet =>
      rw [hstored] at hnext
      exact ⟨packet, rfl, (Option.some_inj.mp hnext).symm⟩

theorem Listed.send (hlisted : Listed world) {key : InfoKey} {peer : Bytes}
    (hnext : next own world (.send key peer) = some after) : Listed after := by
  obtain ⟨packet, hstored, rfl⟩ := next_send hnext
  apply hlisted.change
  · intro entry hentry
    exact List.mem_cons_of_mem _ hentry
  · intro key' peer' hmem
    rw [ids_setInfo] at hmem
    by_cases hkey : key' = key
    · subst hkey
      rw [if_pos rfl] at hmem
      rcases mem_addNodeid hmem with rfl | ⟨_, hbefore⟩
      · exact Or.inr ⟨packet, hstored, List.mem_cons_self ..⟩
      · exact Or.inl ⟨hbefore, rfl⟩
    · rw [if_neg hkey] at hmem
      exact Or.inl ⟨hmem, rfl⟩

/-- A peer that is alone on its lists is removed from them, and only there. -/
theorem ids_trim {nodeId : Bytes} {heap : InfoKey → List Bytes}
    (hcareful : Careful world (.trim nodeId heap))
    (hnext : next own world (.trim nodeId heap) = some after) (key : InfoKey) :
    after.db.ids key = (world.db.ids key).filter (· ≠ nodeId) := by
  have hafter := (Option.some_inj.mp hnext).symm
  subst hafter
  have hcareful' := hcareful key
  simp only [AnnoDb.ids] at hcareful' ⊢
  cases hinfo : world.db.info key with
  | none => rfl
  | some ids =>
      rw [hinfo, Option.getD_some] at hcareful'
      rw [Option.bind_some, Option.getD_some]
      by_cases hmem : nodeId ∈ ids
      · have halone := hcareful' hmem
        subst halone
        simp [annoinfoCurTrim]
      · have hfind : ids.findIdx? (· == nodeId) = none := by
          rw [List.findIdx?_eq_none_iff]
          intro peer hpeer
          exact beq_false_of_ne fun heq => hmem (heq ▸ hpeer)
        have hfilter : ids.filter (· ≠ nodeId) = ids := by
          rw [List.filter_eq_self]
          intro peer hpeer
          exact decide_eq_true fun heq => hmem (heq ▸ hpeer)
        rw [annoinfoCurTrim, hfind, hfilter]
        rfl

theorem Listed.trim (hlisted : Listed world) {nodeId : Bytes} {heap : InfoKey → List Bytes}
    (hcareful : Careful world (.trim nodeId heap))
    (hnext : next own world (.trim nodeId heap) = some after) :
    Listed after := by
  have hids := ids_trim hcareful hnext
  have hafter := (Option.some_inj.mp hnext).symm
  subst hafter
  apply hlisted.change
  · intro entry hentry
    exact hentry
  · intro key peer hmem
    rw [hids key] at hmem
    exact Or.inl ⟨List.mem_of_mem_filter hmem, rfl⟩

/-- What the newest update is does not depend on anything else. -/
theorem Newest.congr (hnewest : Newest world) (hupd : after.db.cnlUpd = world.db.cnlUpd)
    (haccepted : after.accepted = world.accepted) : Newest after := by
  constructor
  · rw [hupd, haccepted]
    exact hnewest.accepted
  · rw [hupd, haccepted]
    exact hnewest.newest

/-- An update that is not newer is accepted without being stored. -/
theorem Newest.keep (hnewest : Newest world) {upd : LnCnlUpdate} {cnlUpd stored : Bytes}
    {timestamp : UInt32}
    (hload : world.db.cnlUpd (upd.shortChannelId, upd.direction) = some (timestamp, stored))
    (hold : upd.timestamp ≤ timestamp) (hupd : after.db.cnlUpd = world.db.cnlUpd)
    (haccepted : after.accepted = (upd, cnlUpd) :: world.accepted) : Newest after := by
  constructor
  · intro shortChannelId dir timestamp' packet hload'
    rw [hupd] at hload'
    rw [haccepted]
    exact List.mem_cons_of_mem _ (hnewest.accepted _ _ _ _ hload')
  · intro upd' packet hmem
    rw [haccepted] at hmem
    rw [hupd]
    rcases List.mem_cons.mp hmem with heq | hmem
    · obtain ⟨rfl, rfl⟩ := Prod.mk.inj heq
      exact ⟨timestamp, stored, hload, hold⟩
    · exact hnewest.newest upd' packet hmem

/-- An update that is newer than what is stored takes its place. -/
theorem Newest.put (hnewest : Newest world) {upd : LnCnlUpdate} {cnlUpd : Bytes}
    (hnew : ∀ timestamp stored,
      world.db.cnlUpd (upd.shortChannelId, upd.direction) = some (timestamp, stored) →
        timestamp ≤ upd.timestamp)
    (hupd : after.db.cnlUpd = Function.update world.db.cnlUpd (upd.shortChannelId, upd.direction)
      (some (upd.timestamp, cnlUpd)))
    (haccepted : after.accepted = (upd, cnlUpd) :: world.accepted) : Newest after := by
  constructor
  · intro shortChannelId dir timestamp packet hload
    rw [hupd] at hload
    rw [haccepted]
    by_cases hkey : (shortChannelId, dir) = (upd.shortChannelId, upd.direction)
    · rw [hkey, Function.update_self] at hload
      obtain ⟨rfl, rfl⟩ := Prod.mk.inj (Option.some_inj.mp hload)
      obtain ⟨rfl, rfl⟩ := Prod.mk.inj hkey
      exact List.mem_cons_self ..
    · rw [Function.update_of_ne hkey] at hload
      exact List.mem_cons_of_mem _ (hnewest.accepted _ _ _ _ hload)
  · intro upd' packet hmem
    rw [haccepted] at hmem
    rw [hupd]
    rcases List.mem_cons.mp hmem with heq | hmem
    · obtain ⟨rfl, rfl⟩ := Prod.mk.inj heq
      exact ⟨_, _, Function.update_self .., UInt32.le_refl _⟩
    · obtain ⟨timestamp, stored, hload, hle⟩ := hnewest.newest upd' packet hmem
      by_cases hkey : (upd'.shortChannelId, upd'.direction) = (upd.shortChannelId, upd.direction)
      · rw [hkey] at hload ⊢
        exact ⟨_, _, Function.update_self .., UInt32.le_trans hle (hnew _ _ hload)⟩
      · rw [Function.update_of_ne hkey]
        exact ⟨timestamp, stored, hload, hle⟩

theorem Newest.save (hnewest : Newest world) {save : Save} {sendId : Option Bytes}
    (hnext : next own world (.save save sendId) = some after) : Newest after := by
  obtain ⟨hdb, _, _, haccepted⟩ := next_save hnext
  cases save with
  | annocnl cnlAnno shortChannelId nodeId1 nodeId2 =>
      apply hnewest.congr
      · rw [hdb, Save.run, lnDbAnnocnlSave]
        split
        next => exact cnlUpd_addSender _ _
        next =>
          split
          next => exact cnlUpd_addSender _ _
          next => rfl
      · rw [haccepted]
        exact ite_self _
  | annocnlupd cnlUpd upd =>
      simp only [Save.run, lnDbAnnocnlupdSave] at hdb haccepted
      cases hload : world.db.cnlUpd (upd.shortChannelId, upd.direction) with
      | none =>
          simp only [hload, if_true] at hdb haccepted
          apply hnewest.put _ _ haccepted
          · intro timestamp stored hsome
            exact absurd (hload.symm.trans hsome) (by simp)
          · rw [hdb, cnlUpd_addSender]
            rfl
      | some entry =>
          obtain ⟨timestamp, stored⟩ := entry
          simp only [hload] at hdb haccepted
          by_cases hold : upd.timestamp < timestamp
          · simp only [if_pos hold, if_true] at hdb haccepted
            apply hnewest.keep hload (UInt32.le_of_lt hold) _ haccepted
            rw [hdb, cnlUpd_addSender]
          by_cases hnew : timestamp < upd.timestamp
          · simp only [if_neg hold, if_pos hnew, if_true] at hdb haccepted
            apply hnewest.put _ _ haccepted
            · intro timestamp' stored' hsome
              obtain ⟨rfl, rfl⟩ := Prod.mk.inj (Option.some_inj.mp (hload.symm.trans hsome))
              exact UInt32.le_of_lt hnew
            · rw [hdb, cnlUpd_addSender]
              rfl
          by_cases hsame : stored = cnlUpd
          · simp only [if_neg hold, if_neg hnew, if_pos hsame, if_true] at hdb haccepted
            apply hnewest.keep hload (UInt32.not_lt.mp hnew) _ haccepted
            rw [hdb, cnlUpd_addSender]
          · simp only [if_neg hold, if_neg hnew, if_neg hsame, Bool.false_eq_true,
              if_false] at hdb haccepted
            exact hnewest.congr (by rw [hdb]) haccepted
  | annonod nodeAnno anno =>
      apply hnewest.congr
      · rw [hdb]
        simp only [Save.run, lnDbAnnonodSave]
        split
        next => rfl
        split
        next => exact cnlUpd_addSender _ _
        next =>
          split
          next => rfl
          split
          next => cases sendId <;> rfl
          next =>
            split
            next => rfl
            next => rfl
      · rw [haccepted]
        exact ite_self _

theorem newest_next (hnewest : Newest world) {label : Label}
    (hnext : next own world label = some after) : Newest after := by
  cases label with
  | save save sendId => exact hnewest.save hnext
  | send key peer =>
      obtain ⟨packet, _, rfl⟩ := next_send hnext
      exact hnewest.congr rfl rfl
  | trim nodeId heap =>
      have hafter := (Option.some_inj.mp hnext).symm
      subst hafter
      exact hnewest.congr rfl rfl

theorem listed_next (hlisted : Listed world) {label : Label} (hcareful : Careful world label)
    (hnext : next own world label = some after) : Listed after := by
  cases label with
  | save save sendId => exact hlisted.save hcareful hnext
  | send key peer => exact hlisted.send hnext
  | trim nodeId heap => exact hlisted.trim hcareful hnext

theorem stepKeeps_next {label : Label} (hcareful : Careful world label)
    (hnext : next own world label = some after) : StepKeeps own world label after := by
  constructor
  · intro key packet packet' hbefore hafter hdiffer peer hmem
    cases label with
    | save save sendId =>
        have hpeer := clears_save hcareful hnext hbefore hafter hdiffer peer hmem
        exact ⟨save, by rw [hpeer]⟩
    | send key' peer' =>
        obtain ⟨packet'', _, rfl⟩ := next_send hnext
        rw [stored_setInfo, hbefore] at hafter
        exact absurd (Option.some_inj.mp hafter) hdiffer
    | trim nodeId heap =>
        have hsame := (Option.some_inj.mp hnext).symm
        subst hsame
        exact absurd (Option.some_inj.mp (hbefore.symm.trans hafter)) hdiffer
  · rintro nodeId heap rfl key
    exact ids_trim hcareful hnext key
  · rintro save sendId rfl hfails
    rw [(next_save hnext).1]
    exact fails_save hcareful hfails

end Steps

/-! ### All runs -/

/-- In every state that allowed steps lead to, the newest updates are stored and only peers that
have a message are listed for it, and an allowed step from there keeps what it has to. -/
def KeepsBooks (own : Bytes) (allowed : World → Label → Prop) : Prop :=
  ∀ before, (system own).ReachableUnder allowed before →
    (Newest before ∧ Listed before) ∧
      ∀ label after, allowed before label → (system own).next before label = some after →
        StepKeeps own before label after

/-- In every run, the newest accepted updates are stored. -/
theorem newest_reachable {own : Bytes} {world : World} (hreach : (system own).Reachable world) :
    Newest world := by
  apply hreach.invariant Newest
  · rintro state rfl
    constructor
    · intro shortChannelId dir timestamp packet hload
      exact absurd hload (by simp [emptyDb])
    · intro upd packet hmem
      exact absurd hmem List.not_mem_nil
  · intro before label after hnewest _ hnext
    exact newest_next hnewest hnext

theorem listed_reachable {own : Bytes} {world : World}
    (hreach : (system own).ReachableUnder Careful world) : Listed world := by
  apply hreach.invariant Listed
  · rintro state rfl key peer hmem
    exact absurd hmem List.not_mem_nil
  · intro before label after hlisted hcareful hnext
    exact listed_next hlisted hcareful hnext

/-- The books are kept in every run of careful steps. -/
theorem keepsBooks_careful (own : Bytes) : KeepsBooks own Careful := by
  intro before hreach
  refine ⟨⟨newest_reachable hreach.reachable, listed_reachable hreach⟩, ?_⟩
  intro label after hcareful hnext
  exact stepKeeps_next hcareful hnext

/-- An update from the peer `[1]`, and then it has gone to the peer `[2]`. -/
def savedOnce : World :=
  (next [0] ⟨emptyDb, [], []⟩ (.save (.annocnlupd [7] ⟨1, false, 100⟩) (some [1]))).getD
    ⟨emptyDb, [], []⟩

def sentOn : World :=
  (next [0] savedOnce (.send (.upd 1 false) [2])).getD savedOnce

/-- When one of two peers is removed, the other is lost, and what `malloc` left is listed. -/
theorem trim_not_keepsBooks : ¬ KeepsBooks [0] TransitionSystem.System.AnyStep := by
  intro hkeeps
  have hsave : (system [0]).next ⟨emptyDb, [], []⟩
      (.save (.annocnlupd [7] ⟨1, false, 100⟩) (some [1])) = some savedOnce := rfl
  have hsend : (system [0]).next savedOnce (.send (.upd 1 false) [2]) = some sentOn := rfl
  have hreach : (system [0]).Reachable sentOn :=
    ⟨_, rfl, .step (.step .refl trivial hsave) trivial hsend⟩
  have hstep := (hkeeps _ hreach).2 (.trim [1] fun _ => [[9], [9], [9]]) _ trivial rfl
  have hids := hstep.trims [1] _ rfl (.upd 1 false)
  exact absurd hids (by decide)

end Bookkeeping

end Ptarmigan
