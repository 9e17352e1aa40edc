/-
Which edges a route is looked for in: what the walk over the announcement database leaves of the own
channels, of the announced channels and of the r fields.
-/
import Ptarmigan.Routing
import Mathlib.Data.List.Perm.Subperm

namespace Ptarmigan

namespace Routing

/-! ### Records -/

/-- The records under one `short_channel_id` in the order of their keys: the announcement, and the
updates of the two directions, of which a `none` cannot be read. -/
structure ChannelRecords where
  shortChannelId : UInt64
  anno : Option (Bytes × Bytes)
  upd1 : Option (Option CnlUpdate)
  upd2 : Option (Option CnlUpdate)
deriving DecidableEq, Repr

namespace ChannelRecords

variable (records : ChannelRecords)

/-- The record as the cursor hands it out. -/
def updEntry (second : Bool) (update : Option (Option CnlUpdate)) : List AnnoEntry :=
  (update.map (AnnoEntry.upd records.shortChannelId second)).toList

def annoEntry : List AnnoEntry :=
  (records.anno.map fun ids => AnnoEntry.anno records.shortChannelId ids.1 ids.2).toList

def entries : List AnnoEntry :=
  records.annoEntry ++ records.updEntry false records.upd1 ++ records.updEntry true records.upd2

/-- The update of a direction. -/
def upd (second : Bool) : Option (Option CnlUpdate) :=
  if second then records.upd2 else records.upd1

/-- The policy of a direction: its update, if that can be read and is not disabled. -/
def policy (second : Bool) : Option CnlUpdate :=
  (records.upd second).bind fun update => update.filter fun upd => !upd.disable

/-- There is an enabled update of the direction. -/
def enabled (second : Bool) : Bool :=
  (records.policy second).isSome

end ChannelRecords

/-- The announcement database: one group of records for each `short_channel_id`. -/
structure AnnoRecords where
  groups : List ChannelRecords
  distinct : groups.Pairwise fun records other => records.shortChannelId ≠ other.shortChannelId

/-- What a graph is made from. -/
structure RouteRecords where
  selfs : List SelfChannel
  anno : AnnoRecords
  routeskip : UInt64 → RouteSkip

def RouteRecords.db (records : RouteRecords) : RouteDb where
  selfs := records.selfs
  anno := some (records.anno.groups.flatMap ChannelRecords.entries)
  routeskip := records.routeskip

/-! ### Edges -/

/-- An edge with the channel that it is for. -/
structure DirectedEdge where
  shortChannelId : UInt64
  source : Bytes
  target : Bytes
deriving DecidableEq, Repr

/-- The edges of one channel as `ln_routing_calculate` adds them. -/
def Nodes.directed (amountMsat : UInt64) (nodes : Nodes) : List DirectedEdge :=
  (nodes.edges amountMsat).map fun eg => ⟨nodes.shortChannelId, eg.source, eg.target⟩

/-- The edges of the graph. -/
def givenEdges (db : RouteDb) (query : Query) : List DirectedEdge :=
  (channels db query).flatMap (Nodes.directed query.amountMsat)

/-- They are those of the graph. -/
theorem givenEdges_graph (db : RouteDb) (query : Query) :
    (givenEdges db query).map (fun eg => (eg.source, eg.target)) =
      (graph db query).map fun eg => (eg.source, eg.target) := by
  simp only [givenEdges, graph, List.map_flatMap, Nodes.directed, List.map_map]
  rfl

/-- Both directions of an own channel in normal operation that is not left out. -/
def selfEdges (routeskip : UInt64 → RouteSkip) (payer : Bytes) (channel : SelfChannel) :
    List DirectedEdge :=
  if channel.normal && (routeskip channel.shortChannelId).usable then
    [⟨channel.shortChannelId, payer, channel.peerNodeId⟩,
      ⟨channel.shortChannelId, channel.peerNodeId, payer⟩]
  else []

/-- The directions with an enabled update of an announced channel that is not left out. -/
def announcedEdges (routeskip : UInt64 → RouteSkip) (records : ChannelRecords) :
    List DirectedEdge :=
  match records.anno with
  | none => []
  | some (nodeId1, nodeId2) =>
      if (routeskip records.shortChannelId).usable then
        (if records.enabled false then [⟨records.shortChannelId, nodeId1, nodeId2⟩] else []) ++
          (if records.enabled true then [⟨records.shortChannelId, nodeId2, nodeId1⟩] else [])
      else []

/-- The direction of an r field towards the payee. -/
def fieldEdge (payee : Bytes) (field : FieldR) : DirectedEdge :=
  ⟨field.shortChannelId, field.nodeId, payee⟩

/-- The edges that there should be. -/
def wantedEdges (records : RouteRecords) (query : Query) : List DirectedEdge :=
  records.selfs.flatMap (selfEdges records.routeskip query.payer) ++
    records.anno.groups.flatMap (announcedEdges records.routeskip) ++
      query.addRoute.map (fieldEdge query.payee)

/-- The graph has the edges that it should have, each once. -/
def GraphExact (records : RouteRecords) (query : Query) : Prop :=
  (givenEdges records.db query).Perm (wantedEdges records query)

/-! ### Lists with too few elements -/

section Subperm

variable {α β : Type}

/-- Two parts with too few elements make up the whole when each makes up its part. -/
theorem append_perm_iff {given given' wanted wanted' : List β} (hfirst : given.Subperm wanted)
    (hsecond : given'.Subperm wanted') :
    (given ++ given').Perm (wanted ++ wanted') ↔ given.Perm wanted ∧ given'.Perm wanted' := by
  constructor
  · intro hperm
    have hlength := hperm.length_eq
    have hfew := hfirst.length_le
    have hfew' := hsecond.length_le
    rw [List.length_append, List.length_append] at hlength
    exact ⟨hfirst.perm_of_length_le (by omega), hsecond.perm_of_length_le (by omega)⟩
  · rintro ⟨hperm, hperm'⟩
    exact hperm.append hperm'

end Subperm

/-! ### The walk over the databases -/

/-- The updates under one `short_channel_id`, for the last of the channels. -/
def Nodes.hear (nodes : Nodes) (records : ChannelRecords) : Nodes :=
  let receive (nodes : Nodes) (second : Bool) : Nodes :=
    match records.upd second with
    | none => nodes
    | some update => nodes.receive records.shortChannelId second update
  receive (receive nodes false) true

/-- An announced channel before its updates. -/
def announce (routeskip : UInt64 → RouteSkip) (shortChannelId : UInt64) (ids : Bytes × Bytes) :
    Nodes :=
  ⟨shortChannelId, NodeInfo.unset ids.1 (routeskip shortChannelId),
    NodeInfo.unset ids.2 (routeskip shortChannelId)⟩

/-- The groups without announcement that come up before the next announced channel. -/
def heard (routeskip : UInt64 → RouteSkip) (groups : List ChannelRecords) : List ChannelRecords :=
  (groups.filter fun records => (routeskip records.shortChannelId).usable).takeWhile fun records =>
    records.anno.isNone

/-- A channel after everything that hits it. -/
def settle (routeskip : UInt64 → RouteSkip) (nodes : Nodes) (groups : List ChannelRecords) :
    Nodes :=
  (heard routeskip groups).foldl Nodes.hear nodes

/-- The announced channels as the walk leaves them. -/
def announcedNodes (routeskip : UInt64 → RouteSkip) : List ChannelRecords → List Nodes
  | [] => []
  | records :: rest =>
      match records.anno with
      | none => announcedNodes routeskip rest
      | some ids =>
          if (routeskip records.shortChannelId).usable then
            settle routeskip ((announce routeskip records.shortChannelId ids).hear records) rest ::
              announcedNodes routeskip rest
          else announcedNodes routeskip rest

/-- An own channel that `comp_func_self` takes. -/
def listed (routeskip : UInt64 → RouteSkip) (payer : Bytes) (channel : SelfChannel) : Bool :=
  channel.normal && (routeskip channel.shortChannelId).usable && channel.shortChannelId != 0 &&
    channel.peerNodeId != payer

/-- An own channel before the updates. -/
def ownNodes (routeskip : UInt64 → RouteSkip) (payer : Bytes) (channel : SelfChannel) : Nodes :=
  let (_, p1, p2) := direction payer channel.peerNodeId
  ⟨channel.shortChannelId, ⟨p1, 0, 0, 0, routeskip channel.shortChannelId⟩,
    ⟨p2, 0, 0, 0, routeskip channel.shortChannelId⟩⟩

/-- The own channels as the walk leaves them: the updates of channels that are not announced hit
the last one. -/
def settledOwn (routeskip : UInt64 → RouteSkip) (payer : Bytes) (groups : List ChannelRecords) :
    List SelfChannel → List Nodes
  | [] => []
  | channel :: rest =>
      if listed routeskip payer channel then
        (if rest.any (listed routeskip payer) then ownNodes routeskip payer channel
          else settle routeskip (ownNodes routeskip payer channel) groups) ::
            settledOwn routeskip payer groups rest
      else settledOwn routeskip payer groups rest

section Walk

variable {db : RouteDb} {routeskip : UInt64 → RouteSkip} {payer : Bytes}

/-- One record of the cursor. -/
def takeRecord (db : RouteDb) (result : List Nodes) (entry : AnnoEntry) : List Nodes :=
  if (db.routeskip entry.shortChannelId).usable then
    dumpitChan (db.routeskip entry.shortChannelId) result entry
  else result

theorem modify_last (front : List Nodes) (last : Nodes) (change : Nodes → Nodes) :
    (front ++ [last]).modify ((front ++ [last]).length - 1) change = front ++ [change last] := by
  rw [List.length_append, List.length_singleton, Nat.add_sub_cancel]
  induction front with
  | nil => rfl
  | cons first front ih => simp [ih]

/-- The updates of a group hit the last channel. -/
theorem takeRecords_upd {records : ChannelRecords}
    (husable : (db.routeskip records.shortChannelId).usable = true) (front : List Nodes)
    (last : Nodes) :
    (records.updEntry false records.upd1 ++ records.updEntry true records.upd2).foldl
        (takeRecord db) (front ++ [last]) = front ++ [last.hear records] := by
  have hone (second : Bool) (update : Option CnlUpdate) (nodes : Nodes) :
      takeRecord db (front ++ [nodes]) (.upd records.shortChannelId second update) =
        front ++ [nodes.receive records.shortChannelId second update] := by
    rw [takeRecord, AnnoEntry.shortChannelId, if_pos husable]
    exact modify_last front nodes _
  rw [Nodes.hear]
  cases hupd1 : records.upd1 with
  | none =>
      cases hupd2 : records.upd2 with
      | none => simp [ChannelRecords.updEntry, ChannelRecords.upd, hupd1, hupd2]
      | some update => simp [ChannelRecords.updEntry, ChannelRecords.upd, hupd1, hupd2, hone]
  | some update =>
      cases hupd2 : records.upd2 with
      | none => simp [ChannelRecords.updEntry, ChannelRecords.upd, hupd1, hupd2, hone]
      | some update' => simp [ChannelRecords.updEntry, ChannelRecords.upd, hupd1, hupd2, hone]

/-- The records of a group that is left out are passed over. -/
theorem takeRecords_unusable {records : ChannelRecords}
    (hskipped : ¬ (db.routeskip records.shortChannelId).usable = true) (result : List Nodes) :
    records.entries.foldl (takeRecord db) result = result := by
  have hsame : ∀ entry ∈ records.entries, entry.shortChannelId = records.shortChannelId := by
    intro entry hmem
    simp only [ChannelRecords.entries, ChannelRecords.annoEntry, ChannelRecords.updEntry,
      List.mem_append, Option.mem_toList, Option.map_eq_some_iff] at hmem
    rcases hmem with (⟨_, _, rfl⟩ | ⟨_, _, rfl⟩) | ⟨_, _, rfl⟩ <;> rfl
  generalize records.entries = entries at hsame
  induction entries with
  | nil => rfl
  | cons entry rest ih =>
      rw [List.foldl_cons, takeRecord, hsame entry List.mem_cons_self, if_neg hskipped]
      exact ih fun other hmem => hsame other (List.mem_cons_of_mem entry hmem)

/-- Without any channel yet the updates of a group go nowhere. -/
theorem takeRecords_nil {records : ChannelRecords} (hanno : records.anno = none) :
    records.entries.foldl (takeRecord db) [] = [] := by
  have hnone (second : Bool) (update : Option CnlUpdate) :
      takeRecord db [] (.upd records.shortChannelId second update) = [] := by
    rw [takeRecord]
    split <;> rfl
  cases hupd1 : records.upd1 <;> cases hupd2 : records.upd2 <;>
    simp [ChannelRecords.entries, ChannelRecords.annoEntry, ChannelRecords.updEntry, hanno, hupd1,
      hupd2, hnone]

theorem takeRecords_orphan {records : ChannelRecords}
    (husable : (db.routeskip records.shortChannelId).usable = true) (hanno : records.anno = none)
    (front : List Nodes) (last : Nodes) :
    records.entries.foldl (takeRecord db) (front ++ [last]) = front ++ [last.hear records] := by
  rw [ChannelRecords.entries, ChannelRecords.annoEntry, hanno]
  exact takeRecords_upd husable front last

theorem takeRecords_anno {records : ChannelRecords} {ids : Bytes × Bytes}
    (husable : (db.routeskip records.shortChannelId).usable = true)
    (hanno : records.anno = some ids) (result : List Nodes) :
    records.entries.foldl (takeRecord db) result =
      result ++ [(announce db.routeskip records.shortChannelId ids).hear records] := by
  have hadded : records.annoEntry.foldl (takeRecord db) result =
      result ++ [announce db.routeskip records.shortChannelId ids] := by
    rw [ChannelRecords.annoEntry, hanno]
    simp [takeRecord, AnnoEntry.shortChannelId, husable, dumpitChan, announce]
  rw [ChannelRecords.entries, List.append_assoc, List.foldl_append, hadded]
  exact takeRecords_upd husable result _

/-- The walk over the groups, with a channel already there. -/
theorem takeGroups_append (groups : List ChannelRecords) (front : List Nodes) (last : Nodes) :
    (groups.flatMap ChannelRecords.entries).foldl (takeRecord db) (front ++ [last]) =
      front ++ settle db.routeskip last groups :: announcedNodes db.routeskip groups := by
  induction groups generalizing front last with
  | nil => rfl
  | cons records rest ih =>
      rw [List.flatMap_cons, List.foldl_append]
      by_cases husable : (db.routeskip records.shortChannelId).usable = true
      · cases hanno : records.anno with
        | none =>
            rw [takeRecords_orphan husable hanno, ih]
            simp [settle, heard, announcedNodes, husable, hanno]
        | some ids =>
            rw [takeRecords_anno husable hanno, ih]
            simp [settle, heard, announcedNodes, husable, hanno]
      · rw [takeRecords_unusable husable, ih]
        cases hanno : records.anno <;> simp [settle, heard, announcedNodes, husable, hanno]

/-- The walk over the groups, without one. -/
theorem takeGroups_nil (groups : List ChannelRecords) :
    (groups.flatMap ChannelRecords.entries).foldl (takeRecord db) [] =
      announcedNodes db.routeskip groups := by
  induction groups with
  | nil => rfl
  | cons records rest ih =>
      rw [List.flatMap_cons, List.foldl_append]
      by_cases husable : (db.routeskip records.shortChannelId).usable = true
      · cases hanno : records.anno with
        | none =>
            rw [takeRecords_nil hanno, ih]
            simp [announcedNodes, hanno]
        | some ids =>
            rw [takeRecords_anno husable hanno, takeGroups_append]
            simp [announcedNodes, husable, hanno]
      · rw [takeRecords_unusable husable, ih]
        cases hanno : records.anno <;> simp [announcedNodes, husable, hanno]

theorem compFuncSelf_listed (result : List Nodes) (channel : SelfChannel) :
    compFuncSelf db payer result channel =
      if listed db.routeskip payer channel then
        result ++ [ownNodes db.routeskip payer channel]
      else result := by
  simp only [compFuncSelf, listed, ownNodes]
  by_cases hzero : channel.shortChannelId = 0 <;> by_cases hnormal : channel.normal = true <;>
    by_cases husable : (db.routeskip channel.shortChannelId).usable = true <;>
      by_cases hpeer : channel.peerNodeId = payer <;> simp [hzero, hnormal, husable, hpeer]

theorem selfs_listed (selfs : List SelfChannel) (result : List Nodes) :
    selfs.foldl (compFuncSelf db payer) result =
      result ++ (selfs.filter (listed db.routeskip payer)).map (ownNodes db.routeskip payer) := by
  induction selfs generalizing result with
  | nil => simp
  | cons channel rest ih =>
      rw [List.foldl_cons, compFuncSelf_listed, ih]
      by_cases hlisted : listed db.routeskip payer channel = true <;> simp [hlisted]

theorem filter_listed_eq_nil {selfs : List SelfChannel} :
    selfs.filter (listed routeskip payer) = [] ↔
      selfs.any (listed routeskip payer) = false := by
  simp

/-- No own channel is taken. -/
theorem settledOwn_nil {groups : List ChannelRecords} {selfs : List SelfChannel}
    (hnone : selfs.any (listed routeskip payer) = false) :
    settledOwn routeskip payer groups selfs = [] := by
  induction selfs with
  | nil => rfl
  | cons channel rest ih =>
      rw [List.any_cons, Bool.or_eq_false_iff] at hnone
      rw [settledOwn, if_neg (by simp [hnone.1]), ih hnone.2]

/-- Only the last of the own channels is hit. -/
theorem settledOwn_append (groups : List ChannelRecords) {selfs : List SelfChannel}
    {front : List Nodes} {last : Nodes}
    (hown : (selfs.filter (listed routeskip payer)).map (ownNodes routeskip payer) =
      front ++ [last]) :
    settledOwn routeskip payer groups selfs =
      front ++ [settle routeskip last groups] := by
  induction selfs generalizing front with
  | nil => simp at hown
  | cons channel rest ih =>
      by_cases hlisted : listed routeskip payer channel = true
      · rw [List.filter_cons_of_pos hlisted, List.map_cons] at hown
        rw [settledOwn, if_pos hlisted]
        cases hany : rest.any (listed routeskip payer) with
        | false =>
            rw [filter_listed_eq_nil.mpr hany, List.map_nil] at hown
            obtain ⟨rfl, hlast⟩ :=
              (List.append_eq_singleton_iff.mp hown.symm).resolve_right (by simp)
            rw [settledOwn_nil hany, ← List.singleton_inj.mp hlast]
            rfl
        | true =>
            cases front with
            | nil =>
                have hrest := (List.cons.inj hown).2
                rw [List.map_eq_nil_iff, filter_listed_eq_nil, hany] at hrest
                cases hrest
            | cons first front =>
                obtain ⟨rfl, hrest⟩ := List.cons.inj hown
                rw [ih hrest, if_pos rfl]
                rfl
      · rw [List.filter_cons_of_neg hlisted] at hown
        rw [settledOwn, if_neg hlisted]
        exact ih hown

/-- What `loaddb` leaves. -/
theorem loaddb_settled (records : RouteRecords) (payer : Bytes) :
    loaddb records.db payer =
      settledOwn records.routeskip payer records.anno.groups records.selfs ++
        announcedNodes records.routeskip records.anno.groups := by
  have hwalk : loaddb records.db payer =
      (records.anno.groups.flatMap ChannelRecords.entries).foldl (takeRecord records.db)
        ((records.selfs.filter (listed records.routeskip payer)).map
          (ownNodes records.routeskip payer)) := by
    change List.foldl (takeRecord records.db) (List.foldl (compFuncSelf records.db payer) []
      records.selfs) _ = _
    rw [selfs_listed, List.nil_append]
    rfl
  rw [hwalk]
  rcases List.eq_nil_or_concat
    ((records.selfs.filter (listed records.routeskip payer)).map
      (ownNodes records.routeskip payer)) with hnil | ⟨front, last, hown⟩
  · have hnone := filter_listed_eq_nil.mp (List.map_eq_nil_iff.mp hnil)
    rw [hnil, takeGroups_nil, settledOwn_nil hnone, List.nil_append]
    rfl
  · rw [List.concat_eq_append] at hown
    rw [hown, takeGroups_append, settledOwn_append records.anno.groups hown, List.append_assoc]
    rfl

/-- The entry of an r field. -/
def fieldNodes (routeskip : UInt64 → RouteSkip) (payee : Bytes) (field : FieldR) : List Nodes :=
  addField ⟨[], none, routeskip⟩ payee [] field

theorem addField_append (db : RouteDb) (payee : Bytes) (result : List Nodes) (field : FieldR) :
    addField db payee result field = result ++ fieldNodes db.routeskip payee field := by
  simp only [fieldNodes, addField]
  split <;> simp

theorem addRfield_append (db : RouteDb) (payee : Bytes) (fields : List FieldR)
    (result : List Nodes) :
    addRfield db payee result fields =
      result ++ fields.flatMap (fieldNodes db.routeskip payee) := by
  induction fields generalizing result with
  | nil => simp [addRfield]
  | cons field rest ih =>
      rw [addRfield, List.foldl_cons, addField_append]
      have hrest := ih (result ++ fieldNodes db.routeskip payee field)
      rw [addRfield] at hrest
      rw [hrest, List.flatMap_cons, List.append_assoc]

end Walk

/-! ### Open directions -/

/-- `ninfo[second]`. -/
def Nodes.info (nodes : Nodes) (second : Bool) : NodeInfo :=
  if second then nodes.ninfo1 else nodes.ninfo0

/-- The direction has an edge, if the channel joins two nodes. -/
def Nodes.isOpen (nodes : Nodes) (second : Bool) : Bool :=
  (nodes.info second).cltvExpiryDelta != cltvInit

/-- The edge of a direction. -/
def Nodes.way (nodes : Nodes) (second : Bool) : DirectedEdge :=
  ⟨nodes.shortChannelId, (nodes.info second).nodeId, (nodes.info !second).nodeId⟩

namespace ChannelRecords

/-- There is an update of the direction, which cannot be read or is disabled. -/
def shut (records : ChannelRecords) (second : Bool) : Bool :=
  (records.upd second).isSome && !records.enabled second

/-- The update of the direction closes it for the channel: it is shut, or is the channel's own and
has `M_CLTV_INIT` for its delta. -/
def closes (records : ChannelRecords) (shortChannelId : UInt64) (second : Bool) : Bool :=
  records.shut second ||
    records.shortChannelId == shortChannelId &&
      (records.policy second).any fun upd => upd.cltvExpiryDelta == cltvInit

/-- The update of the direction opens it for the channel: it is the channel's own, and enabled. -/
def opens (records : ChannelRecords) (shortChannelId : UInt64) (second : Bool) : Bool :=
  records.shortChannelId == shortChannelId &&
    (records.policy second).any fun upd => upd.cltvExpiryDelta != cltvInit

end ChannelRecords

section Open

variable {nodes : Nodes} {records : ChannelRecords}

theorem directed_ways (amountMsat : UInt64) (nodes : Nodes) :
    nodes.directed amountMsat =
      if nodes.ninfo0.nodeId = nodes.ninfo1.nodeId then []
      else (if nodes.isOpen false then [nodes.way false] else []) ++
        (if nodes.isOpen true then [nodes.way true] else []) := by
  rw [Nodes.directed, Nodes.edges]
  by_cases hloop : nodes.ninfo0.nodeId = nodes.ninfo1.nodeId
  · simp [hloop]
  · simp only [hloop, ne_eq, not_false_eq_true, if_true, if_false, List.map_append, edgeOf,
      Nodes.isOpen, Nodes.info, Nodes.way, bne_iff_ne, Bool.false_eq_true, Bool.not_false,
      Bool.not_true]
    congr 1
    · split <;> rfl
    · split <;> rfl

/-- What one update does to the openness of a direction. -/
theorem receive_isOpen (shortChannelId : UInt64) (second other : Bool)
    (update : Option CnlUpdate) :
    (nodes.receive shortChannelId second update).isOpen other =
      if other = second then
        match update.filter fun upd => !upd.disable with
        | none => false
        | some upd =>
            if nodes.shortChannelId = shortChannelId then upd.cltvExpiryDelta != cltvInit
            else nodes.isOpen other
      else nodes.isOpen other := by
  rw [Nodes.receive]
  cases update.filter fun upd => !upd.disable with
  | none => cases second <;> cases other <;> simp [Nodes.isOpen, Nodes.info, Nodes.modify]
  | some upd =>
      by_cases hsame : nodes.shortChannelId = shortChannelId
      · cases second <;> cases other <;>
          simp [Nodes.isOpen, Nodes.info, Nodes.modify, NodeInfo.update, hsame]
      · simp [hsame]

/-- An update leaves the nodes of the channel alone. -/
theorem receive_nodeId (shortChannelId : UInt64) (second other : Bool)
    (update : Option CnlUpdate) :
    ((nodes.receive shortChannelId second update).info other).nodeId =
      (nodes.info other).nodeId := by
  rw [Nodes.receive]
  split
  · split
    · cases second <;> cases other <;> rfl
    · rfl
  · cases second <;> cases other <;> rfl

theorem hear_shortChannelId : (nodes.hear records).shortChannelId = nodes.shortChannelId := by
  rw [Nodes.hear]
  cases hfirst : records.upd false <;> cases hsecond : records.upd true <;>
    simp only [hfirst, hsecond, shortChannelId_receive]

theorem hear_nodeId (second : Bool) :
    ((nodes.hear records).info second).nodeId = (nodes.info second).nodeId := by
  rw [Nodes.hear]
  cases hfirst : records.upd false <;> cases hsecond : records.upd true <;>
    simp only [hfirst, hsecond, receive_nodeId]

/-- The openness of a direction depends on its own update only. -/
theorem hear_isOpen_upd (second : Bool) :
    (nodes.hear records).isOpen second =
      match records.upd second with
      | none => nodes.isOpen second
      | some update =>
          (nodes.receive records.shortChannelId second update).isOpen second := by
  rw [Nodes.hear]
  cases hfirst : records.upd false <;> cases hsecond : records.upd true <;> cases second <;>
    simp [hfirst, hsecond, receive_isOpen, shortChannelId_receive]

/-- What the updates of a group do to the openness of a direction. -/
theorem hear_isOpen (second : Bool) :
    (nodes.hear records).isOpen second =
      if records.closes nodes.shortChannelId second then false
      else if records.opens nodes.shortChannelId second then true
      else nodes.isOpen second := by
  rw [hear_isOpen_upd]
  cases hupd : records.upd second with
  | none =>
      simp [ChannelRecords.closes, ChannelRecords.shut, ChannelRecords.opens,
        ChannelRecords.policy, ChannelRecords.enabled, hupd]
  | some update =>
      simp only [receive_isOpen, if_true]
      cases hpolicy : update.filter fun upd => !upd.disable with
      | none =>
          simp [ChannelRecords.closes, ChannelRecords.shut, ChannelRecords.policy,
            ChannelRecords.enabled, hupd, hpolicy]
      | some upd =>
          by_cases hsame : nodes.shortChannelId = records.shortChannelId
          · by_cases hinit : upd.cltvExpiryDelta = cltvInit <;>
              simp [ChannelRecords.closes, ChannelRecords.shut, ChannelRecords.opens,
                ChannelRecords.policy, ChannelRecords.enabled, hupd, hpolicy, hsame, hinit]
          · have hother := Ne.symm hsame
            simp [ChannelRecords.closes, ChannelRecords.shut, ChannelRecords.opens,
              ChannelRecords.policy, ChannelRecords.enabled, hupd, hpolicy, hsame, hother]

/-- Each group that closes the direction is followed by one that opens it. -/
def Reopened (shortChannelId : UInt64) (second : Bool) : List ChannelRecords → Prop
  | [] => True
  | records :: rest =>
      (records.closes shortChannelId second = true →
        ∃ later ∈ rest, later.opens shortChannelId second = true) ∧
        Reopened shortChannelId second rest

theorem foldl_hear_shortChannelId (groups : List ChannelRecords) (nodes : Nodes) :
    (groups.foldl Nodes.hear nodes).shortChannelId = nodes.shortChannelId := by
  induction groups generalizing nodes with
  | nil => rfl
  | cons records rest ih => rw [List.foldl_cons, ih, hear_shortChannelId]

theorem foldl_hear_nodeId (second : Bool) (groups : List ChannelRecords) (nodes : Nodes) :
    ((groups.foldl Nodes.hear nodes).info second).nodeId = (nodes.info second).nodeId := by
  induction groups generalizing nodes with
  | nil => rfl
  | cons records rest ih => rw [List.foldl_cons, ih, hear_nodeId]

/-- A direction is open behind a list of groups when none that closes it has the last word, and it
was open before or has been opened. -/
theorem foldl_hear_isOpen (second : Bool) (groups : List ChannelRecords) (nodes : Nodes) :
    (groups.foldl Nodes.hear nodes).isOpen second = true ↔
      Reopened nodes.shortChannelId second groups ∧
        (nodes.isOpen second = true ∨
          ∃ records ∈ groups, records.opens nodes.shortChannelId second = true) := by
  induction groups generalizing nodes with
  | nil => simp [Reopened]
  | cons records rest ih =>
      rw [List.foldl_cons, ih, hear_shortChannelId, hear_isOpen, Reopened]
      cases hcloses : records.closes nodes.shortChannelId second with
      | true =>
          simp only [if_true, Bool.false_eq_true, false_or, true_implies]
          constructor
          · rintro ⟨hrest, later, hlater, hopens⟩
            exact ⟨⟨⟨later, hlater, hopens⟩, hrest⟩,
              .inr ⟨later, List.mem_cons_of_mem records hlater, hopens⟩⟩
          · rintro ⟨⟨hopened, hrest⟩, _⟩
            exact ⟨hrest, hopened⟩
      | false =>
          cases hopens : records.opens nodes.shortChannelId second <;> simp [hopens]

end Open

/-! ### The own channels -/

section Own

variable {routeskip : UInt64 → RouteSkip} {payer : Bytes} {amountMsat : UInt64} {nodes : Nodes}

theorem settle_way (groups : List ChannelRecords) (second : Bool) :
    (settle routeskip nodes groups).way second = nodes.way second := by
  simp only [Nodes.way, settle, foldl_hear_shortChannelId, foldl_hear_nodeId]

/-- The ways of an own channel are both its directions. -/
theorem ownNodes_ways (routeskip : UInt64 → RouteSkip) (payer : Bytes) (channel : SelfChannel) :
    [(ownNodes routeskip payer channel).way false, (ownNodes routeskip payer channel).way true].Perm
      [⟨channel.shortChannelId, payer, channel.peerNodeId⟩,
        ⟨channel.shortChannelId, channel.peerNodeId, payer⟩] := by
  by_cases hless : memcmpGt channel.peerNodeId payer = true
  · simp [ownNodes, direction, hless, Nodes.way, Nodes.info]
  · simpa [ownNodes, direction, hless, Nodes.way, Nodes.info] using List.Perm.swap _ _ _

theorem ownNodes_apart {channel : SelfChannel} (hpeer : channel.peerNodeId ≠ payer) :
    (ownNodes routeskip payer channel).ninfo0.nodeId ≠
      (ownNodes routeskip payer channel).ninfo1.nodeId := by
  by_cases hless : memcmpGt channel.peerNodeId payer = true
  · simpa [ownNodes, direction, hless] using hpeer.symm
  · simpa [ownNodes, direction, hless] using hpeer

theorem ownNodes_open (channel : SelfChannel) (second : Bool) :
    (ownNodes routeskip payer channel).isOpen second = true := by
  cases second <;> simp [ownNodes, Nodes.isOpen, Nodes.info, cltvInit]

/-- A channel between two nodes has no edges but its ways. -/
theorem directed_subperm (amountMsat : UInt64) (nodes : Nodes) :
    (nodes.directed amountMsat).Subperm [nodes.way false, nodes.way true] := by
  rw [directed_ways]
  split
  · exact List.nil_subperm
  · cases nodes.isOpen false <;> cases nodes.isOpen true <;> simp [List.Sublist.subperm]

/-- It has them both when both directions are open. -/
theorem directed_perm_iff
    (hapart : (nodes.info false).nodeId ≠ (nodes.info true).nodeId) :
    (nodes.directed amountMsat).Perm [nodes.way false, nodes.way true] ↔
      ∀ second, nodes.isOpen second = true := by
  have hids : nodes.ninfo0.nodeId ≠ nodes.ninfo1.nodeId := hapart
  rw [directed_ways, if_neg hids, Bool.forall_bool]
  constructor
  · intro hperm
    have hlength := hperm.length_eq
    cases hfirst : nodes.isOpen false <;> cases hsecond : nodes.isOpen true <;>
      simp [hfirst, hsecond] at hlength ⊢
  · rintro ⟨hfirst, hsecond⟩
    rw [hfirst, hsecond]
    exact .refl _

/-- The edges of one own channel behind the walk. -/
def ownGiven (routeskip : UInt64 → RouteSkip) (payer : Bytes) (amountMsat : UInt64)
    (groups : List ChannelRecords) (channel : SelfChannel) (rest : List SelfChannel) :
    List DirectedEdge :=
  if listed routeskip payer channel then
    (if rest.any (listed routeskip payer) then ownNodes routeskip payer channel
      else settle routeskip (ownNodes routeskip payer channel) groups).directed amountMsat
  else []

/-- Own channels are there for both nodes and have an id. -/
def SelfChannel.Placed (routeskip : UInt64 → RouteSkip) (payer : Bytes) (channel : SelfChannel) :
    Prop :=
  channel.normal = true → (routeskip channel.shortChannelId).usable = true →
    channel.shortChannelId ≠ 0 ∧ channel.peerNodeId ≠ payer

theorem listed_iff {channel : SelfChannel} :
    listed routeskip payer channel = true ↔
      channel.normal = true ∧ (routeskip channel.shortChannelId).usable = true ∧
        channel.shortChannelId ≠ 0 ∧ channel.peerNodeId ≠ payer := by
  simp [listed, and_assoc]

theorem selfEdges_listed {channel : SelfChannel} (hlisted : listed routeskip payer channel = true) :
    selfEdges routeskip payer channel =
      [⟨channel.shortChannelId, payer, channel.peerNodeId⟩,
        ⟨channel.shortChannelId, channel.peerNodeId, payer⟩] := by
  obtain ⟨hnormal, husable, -⟩ := listed_iff.mp hlisted
  simp [selfEdges, hnormal, husable]

theorem settle_ways (groups : List ChannelRecords) {channel : SelfChannel}
    (hlisted : listed routeskip payer channel = true) :
    [(settle routeskip (ownNodes routeskip payer channel) groups).way false,
      (settle routeskip (ownNodes routeskip payer channel) groups).way true].Perm
        (selfEdges routeskip payer channel) := by
  rw [settle_way, settle_way, selfEdges_listed hlisted]
  exact ownNodes_ways routeskip payer channel

theorem ownGiven_subperm (groups : List ChannelRecords) (channel : SelfChannel)
    (rest : List SelfChannel) :
    (ownGiven routeskip payer amountMsat groups channel rest).Subperm
      (selfEdges routeskip payer channel) := by
  rw [ownGiven]
  by_cases hlisted : listed routeskip payer channel = true
  · rw [if_pos hlisted]
    split
    · have hways := ownNodes_ways routeskip payer channel
      rw [← selfEdges_listed hlisted] at hways
      exact (directed_subperm amountMsat _).trans hways.subperm
    · exact (directed_subperm amountMsat _).trans (settle_ways groups hlisted).subperm
  · rw [if_neg hlisted]
    exact List.nil_subperm

/-- An own channel has its edges when it is taken where it should be, and, if it is the last one,
when what closes it is followed by what opens it. -/
theorem ownGiven_perm_iff (groups : List ChannelRecords) (channel : SelfChannel)
    (rest : List SelfChannel) :
    (ownGiven routeskip payer amountMsat groups channel rest).Perm
        (selfEdges routeskip payer channel) ↔
      channel.Placed routeskip payer ∧
        (listed routeskip payer channel = true → rest.any (listed routeskip payer) = false →
          ∀ second, Reopened channel.shortChannelId second (heard routeskip groups)) := by
  rw [ownGiven]
  by_cases hlisted : listed routeskip payer channel = true
  · have hplaced : channel.Placed routeskip payer := fun _ _ => (listed_iff.mp hlisted).2.2
    have hpeer := (listed_iff.mp hlisted).2.2.2
    simp only [hlisted, if_true, hplaced, true_and, true_implies]
    cases hany : rest.any (listed routeskip payer) with
    | true =>
        simp only [if_true, Bool.true_eq_false, false_implies, iff_true]
        have hways := ownNodes_ways routeskip payer channel
        rw [← selfEdges_listed hlisted] at hways
        exact ((directed_perm_iff (ownNodes_apart hpeer)).mpr (ownNodes_open channel)).trans hways
    | false =>
        simp only [Bool.false_eq_true, if_false, true_implies]
        have hways := settle_ways groups hlisted
        have hapart : ((settle routeskip (ownNodes routeskip payer channel) groups).info
            false).nodeId ≠
            ((settle routeskip (ownNodes routeskip payer channel) groups).info true).nodeId := by
          simp only [settle, foldl_hear_nodeId]
          exact ownNodes_apart hpeer
        have hopen (second : Bool) :
            (settle routeskip (ownNodes routeskip payer channel) groups).isOpen second = true ↔
              Reopened channel.shortChannelId second (heard routeskip groups) := by
          rw [settle, foldl_hear_isOpen, ownNodes_open]
          simp only [true_or, and_true]
          rfl
        simp only [← hopen]
        rw [← directed_perm_iff hapart]
        constructor
        · exact fun hperm => hperm.trans hways.symm
        · exact fun hperm => hperm.trans hways
  · have hplaced : channel.Placed routeskip payer ↔ selfEdges routeskip payer channel = [] := by
      rw [listed_iff] at hlisted
      simp only [SelfChannel.Placed, selfEdges]
      by_cases hnormal : channel.normal = true <;>
        by_cases husable : (routeskip channel.shortChannelId).usable = true <;>
          simp_all
    simp only [hlisted, Bool.false_eq_true, if_false, false_implies, and_true, hplaced]
    rw [List.nil_perm]

theorem settledOwn_flatMap (groups : List ChannelRecords) (channel : SelfChannel)
    (rest : List SelfChannel) :
    (settledOwn routeskip payer groups (channel :: rest)).flatMap (Nodes.directed amountMsat) =
      ownGiven routeskip payer amountMsat groups channel rest ++
        (settledOwn routeskip payer groups rest).flatMap (Nodes.directed amountMsat) := by
  rw [settledOwn, ownGiven]
  split <;> simp

theorem settledOwn_subperm (groups : List ChannelRecords) (selfs : List SelfChannel) :
    ((settledOwn routeskip payer groups selfs).flatMap (Nodes.directed amountMsat)).Subperm
      (selfs.flatMap (selfEdges routeskip payer)) := by
  induction selfs with
  | nil => exact List.nil_subperm
  | cons channel rest ih =>
      rw [settledOwn_flatMap, List.flatMap_cons]
      exact (ownGiven_subperm groups channel rest).append ih

/-- The last own channel keeps its directions. -/
def LastOwnOpen (routeskip : UInt64 → RouteSkip) (payer : Bytes) (groups : List ChannelRecords)
    (selfs : List SelfChannel) : Prop :=
  ∀ last, (selfs.filter (listed routeskip payer)).getLast? = some last →
    ∀ second, Reopened last.shortChannelId second (heard routeskip groups)

/-- The own channels have their edges. -/
theorem settledOwn_perm_iff (groups : List ChannelRecords) (selfs : List SelfChannel) :
    ((settledOwn routeskip payer groups selfs).flatMap (Nodes.directed amountMsat)).Perm
        (selfs.flatMap (selfEdges routeskip payer)) ↔
      (∀ channel ∈ selfs, channel.Placed routeskip payer) ∧
        LastOwnOpen routeskip payer groups selfs := by
  induction selfs with
  | nil => simp [settledOwn, LastOwnOpen]
  | cons channel rest ih =>
      have hlast : LastOwnOpen routeskip payer groups (channel :: rest) ↔
          (listed routeskip payer channel = true → rest.any (listed routeskip payer) = false →
            ∀ second, Reopened channel.shortChannelId second (heard routeskip groups)) ∧
              LastOwnOpen routeskip payer groups rest := by
        rw [LastOwnOpen, LastOwnOpen]
        cases hany : rest.any (listed routeskip payer) with
        | false =>
            have hnil := filter_listed_eq_nil.mpr hany
            by_cases hlisted : listed routeskip payer channel = true
            · simp [hlisted, hnil]
            · simp [hlisted, hnil]
        | true =>
            have hne : rest.filter (listed routeskip payer) ≠ [] := by
              intro hnil
              rw [filter_listed_eq_nil, hany] at hnil
              cases hnil
            by_cases hlisted : listed routeskip payer channel = true
            · simp [hlisted, List.getLast?_cons_of_ne_nil hne]
            · simp [hlisted]
      rw [settledOwn_flatMap, List.flatMap_cons,
        append_perm_iff (ownGiven_subperm groups channel rest) (settledOwn_subperm groups rest),
        ownGiven_perm_iff, ih, hlast, List.forall_mem_cons]
      exact and_and_and_comm

end Own

/-! ### The announced channels -/

/-- The edges of the directions that are picked. -/
def pick {α : Type} (first second : Bool) (edge edge' : α) : List α :=
  (if first then [edge] else []) ++ (if second then [edge'] else [])

section Pick

variable {α : Type} {first second first' second' : Bool} {edge edge' : α}

theorem pick_subperm (hfirst : first = true → first' = true)
    (hsecond : second = true → second' = true) :
    (pick first second edge edge').Subperm (pick first' second' edge edge') := by
  cases first <;> cases second <;> cases first' <;> cases second' <;>
    simp_all [pick, List.Sublist.subperm]

theorem pick_perm_iff (hfirst : first = true → first' = true)
    (hsecond : second = true → second' = true) :
    (pick first second edge edge').Perm (pick first' second' edge edge') ↔
      (first' = true → first = true) ∧ (second' = true → second = true) := by
  constructor
  · intro hperm
    have hlength := hperm.length_eq
    cases first <;> cases second <;> cases first' <;> cases second' <;> simp_all [pick]
  · rintro ⟨hfirst', hsecond'⟩
    have hsame : first = first' := Bool.eq_iff_iff.mpr ⟨hfirst, hfirst'⟩
    have hsame' : second = second' := Bool.eq_iff_iff.mpr ⟨hsecond, hsecond'⟩
    rw [hsame, hsame']

end Pick

section Announced

variable {routeskip : UInt64 → RouteSkip} {amountMsat : UInt64} {records : ChannelRecords}
  {rest : List ChannelRecords} {ids : Bytes × Bytes}

/-- The channel of an announcement as the walk leaves it. -/
def announcedAt (routeskip : UInt64 → RouteSkip) (records : ChannelRecords)
    (rest : List ChannelRecords) (ids : Bytes × Bytes) : Nodes :=
  settle routeskip ((announce routeskip records.shortChannelId ids).hear records) rest

theorem announcedAt_way (second : Bool) :
    (announcedAt routeskip records rest ids).way second =
      if second then ⟨records.shortChannelId, ids.2, ids.1⟩
      else ⟨records.shortChannelId, ids.1, ids.2⟩ := by
  rw [announcedAt, settle_way]
  simp only [Nodes.way, hear_shortChannelId, hear_nodeId]
  cases second <;> rfl

theorem announcedAt_directed :
    (announcedAt routeskip records rest ids).directed amountMsat =
      pick (ids.1 != ids.2 && (announcedAt routeskip records rest ids).isOpen false)
        (ids.1 != ids.2 && (announcedAt routeskip records rest ids).isOpen true)
        ⟨records.shortChannelId, ids.1, ids.2⟩ ⟨records.shortChannelId, ids.2, ids.1⟩ := by
  have hfirst : (announcedAt routeskip records rest ids).ninfo0.nodeId = ids.1 := by
    change ((announcedAt routeskip records rest ids).info false).nodeId = ids.1
    simp only [announcedAt, settle, foldl_hear_nodeId, hear_nodeId]
    rfl
  have hsecond : (announcedAt routeskip records rest ids).ninfo1.nodeId = ids.2 := by
    change ((announcedAt routeskip records rest ids).info true).nodeId = ids.2
    simp only [announcedAt, settle, foldl_hear_nodeId, hear_nodeId]
    rfl
  rw [directed_ways, hfirst, hsecond, announcedAt_way, announcedAt_way, pick]
  by_cases hloop : ids.1 = ids.2
  · simp [hloop]
  · simp [hloop]

/-- An announced channel is opened by its own updates. -/
theorem announce_isOpen (second : Bool) :
    ((announce routeskip records.shortChannelId ids).hear records).isOpen second = true ↔
      ∃ upd, records.policy second = some upd ∧ upd.cltvExpiryDelta ≠ cltvInit := by
  have hclosed : (announce routeskip records.shortChannelId ids).isOpen second = false := by
    cases second <;> simp [announce, Nodes.isOpen, Nodes.info, NodeInfo.unset]
  rw [hear_isOpen, hclosed, ChannelRecords.closes, ChannelRecords.opens, ChannelRecords.shut,
    ChannelRecords.enabled]
  cases hpolicy : records.policy second with
  | none => simp
  | some upd =>
      have hsame : (announce routeskip records.shortChannelId ids).shortChannelId =
          records.shortChannelId := rfl
      by_cases hinit : upd.cltvExpiryDelta = cltvInit <;> simp [hinit, hsame]

/-- A list of groups of other channels opens nothing, and closes what it shuts. -/
theorem reopened_others {shortChannelId : UInt64} {second : Bool} {groups : List ChannelRecords}
    (hothers : ∀ other ∈ groups, other.shortChannelId ≠ shortChannelId) :
    Reopened shortChannelId second groups ↔ ∀ other ∈ groups, other.shut second = false := by
  induction groups with
  | nil => simp [Reopened]
  | cons first rest ih =>
      rw [List.forall_mem_cons] at hothers ⊢
      have hnever : ¬ ∃ later ∈ rest, later.opens shortChannelId second = true := by
        rintro ⟨later, hmem, hopens⟩
        rw [ChannelRecords.opens, Bool.and_eq_true, beq_iff_eq] at hopens
        exact hothers.2 later hmem hopens.1
      rw [Reopened, ih hothers.2]
      simp [hnever, ChannelRecords.closes, hothers.1]

theorem mem_of_heard {orphan : ChannelRecords} (hmem : orphan ∈ heard routeskip rest) :
    orphan ∈ rest :=
  List.mem_of_mem_filter ((List.takeWhile_sublist _).subset hmem)

theorem announcedAt_isOpen (second : Bool)
    (hdistinct : ∀ other ∈ rest, records.shortChannelId ≠ other.shortChannelId) :
    (announcedAt routeskip records rest ids).isOpen second = true ↔
      (∃ upd, records.policy second = some upd ∧ upd.cltvExpiryDelta ≠ cltvInit) ∧
        ∀ orphan ∈ heard routeskip rest, orphan.shut second = false := by
  have hothers : ∀ other ∈ heard routeskip rest,
      other.shortChannelId ≠ records.shortChannelId := fun other hmem =>
    (hdistinct other (mem_of_heard hmem)).symm
  have hnever : ¬ ∃ later ∈ heard routeskip rest,
      later.opens records.shortChannelId second = true := by
    rintro ⟨later, hmem, hopens⟩
    rw [ChannelRecords.opens, Bool.and_eq_true, beq_iff_eq] at hopens
    exact hothers later hmem hopens.1
  rw [announcedAt, settle, foldl_hear_isOpen, hear_shortChannelId, announce_isOpen]
  change Reopened records.shortChannelId second _ ∧
    (_ ∨ ∃ later ∈ heard routeskip rest, later.opens records.shortChannelId second = true) ↔ _
  rw [reopened_others hothers]
  simp only [hnever, or_false]
  exact and_comm

/-- The edges of one announced channel behind the walk. -/
def announcedGiven (routeskip : UInt64 → RouteSkip) (amountMsat : UInt64)
    (records : ChannelRecords) (rest : List ChannelRecords) : List DirectedEdge :=
  match records.anno with
  | none => []
  | some ids =>
      if (routeskip records.shortChannelId).usable then
        (announcedAt routeskip records rest ids).directed amountMsat
      else []

/-- An announced channel keeps its directions: it joins two nodes, none of its enabled updates has
`M_CLTV_INIT` for its delta, and no group without announcement shuts one of them before the next
announced channel. -/
def KeepsOpen (routeskip : UInt64 → RouteSkip) (records : ChannelRecords)
    (rest : List ChannelRecords) : Prop :=
  ∀ ids, records.anno = some ids → (routeskip records.shortChannelId).usable = true →
    ∀ second upd, records.policy second = some upd →
      ids.1 ≠ ids.2 ∧ upd.cltvExpiryDelta ≠ cltvInit ∧
        ∀ orphan ∈ heard routeskip rest, orphan.shut second = false

/-- A direction with an edge has an enabled update. -/
theorem enabled_of_open {second : Bool}
    (hdistinct : ∀ other ∈ rest, records.shortChannelId ≠ other.shortChannelId)
    (hopen : (ids.1 != ids.2 && (announcedAt routeskip records rest ids).isOpen second) = true) :
    records.enabled second = true := by
  rw [Bool.and_eq_true, announcedAt_isOpen second hdistinct] at hopen
  obtain ⟨-, ⟨upd, hpolicy, -⟩, -⟩ := hopen
  rw [ChannelRecords.enabled, hpolicy]
  rfl

theorem announcedGiven_subperm
    (hdistinct : ∀ other ∈ rest, records.shortChannelId ≠ other.shortChannelId) :
    (announcedGiven routeskip amountMsat records rest).Subperm
      (announcedEdges routeskip records) := by
  rw [announcedGiven, announcedEdges]
  cases records.anno with
  | none => exact List.nil_subperm
  | some ids =>
      dsimp only
      split
      · rw [announcedAt_directed]
        exact pick_subperm (enabled_of_open hdistinct) (enabled_of_open hdistinct)
      · exact List.nil_subperm

theorem announcedGiven_perm_iff
    (hdistinct : ∀ other ∈ rest, records.shortChannelId ≠ other.shortChannelId) :
    (announcedGiven routeskip amountMsat records rest).Perm (announcedEdges routeskip records) ↔
      KeepsOpen routeskip records rest := by
  have hway (ids : Bytes × Bytes) (second : Bool) :
      (records.enabled second = true →
        (ids.1 != ids.2 && (announcedAt routeskip records rest ids).isOpen second) = true) ↔
      ∀ upd, records.policy second = some upd → ids.1 ≠ ids.2 ∧ upd.cltvExpiryDelta ≠ cltvInit ∧
        ∀ orphan ∈ heard routeskip rest, orphan.shut second = false := by
    rw [Bool.and_eq_true, announcedAt_isOpen second hdistinct, ChannelRecords.enabled]
    cases records.policy second with
    | none => simp
    | some upd => simp
  rw [announcedGiven, announcedEdges, KeepsOpen]
  cases records.anno with
  | none => simp
  | some ids =>
      by_cases husable : (routeskip records.shortChannelId).usable = true
      · simp only [husable, if_true, Option.some.injEq, forall_eq', true_implies]
        rw [announcedAt_directed]
        change (pick _ _ _ _).Perm (pick (records.enabled false) (records.enabled true) _ _) ↔ _
        rw [pick_perm_iff (enabled_of_open hdistinct) (enabled_of_open hdistinct), hway, hway,
          Bool.forall_bool]
      · simp [husable]

/-- Every announced channel keeps its directions. -/
def AnnouncedOpen (routeskip : UInt64 → RouteSkip) : List ChannelRecords → Prop
  | [] => True
  | records :: rest => KeepsOpen routeskip records rest ∧ AnnouncedOpen routeskip rest

theorem announcedNodes_flatMap :
    (announcedNodes routeskip (records :: rest)).flatMap (Nodes.directed amountMsat) =
      announcedGiven routeskip amountMsat records rest ++
        (announcedNodes routeskip rest).flatMap (Nodes.directed amountMsat) := by
  rw [announcedNodes, announcedGiven]
  cases records.anno with
  | none => rfl
  | some ids =>
      dsimp only
      split
      · rfl
      · rfl

theorem announcedNodes_perm_iff {groups : List ChannelRecords}
    (hdistinct : groups.Pairwise fun records other =>
      records.shortChannelId ≠ other.shortChannelId) :
    ((announcedNodes routeskip groups).flatMap (Nodes.directed amountMsat)).Subperm
        (groups.flatMap (announcedEdges routeskip)) ∧
      (((announcedNodes routeskip groups).flatMap (Nodes.directed amountMsat)).Perm
        (groups.flatMap (announcedEdges routeskip)) ↔ AnnouncedOpen routeskip groups) := by
  induction hdistinct with
  | nil => simp [announcedNodes, AnnouncedOpen]
  | cons hfirst _ ih =>
      rw [announcedNodes_flatMap, List.flatMap_cons, AnnouncedOpen,
        append_perm_iff (announcedGiven_subperm hfirst) ih.1, announcedGiven_perm_iff hfirst, ih.2]
      exact ⟨(announcedGiven_subperm hfirst).append ih.1, Iff.rfl⟩

end Announced

/-! ### The r fields -/

section Fields

variable {routeskip : UInt64 → RouteSkip} {payee : Bytes} {amountMsat : UInt64}

/-- An r field that gives its edge: its channel is not left out, it leads from another node to the
payee, and its delta is not `M_CLTV_INIT`. -/
def FieldR.Leads (routeskip : UInt64 → RouteSkip) (payee : Bytes) (field : FieldR) : Prop :=
  (routeskip field.shortChannelId).usable = true ∧ field.cltvExpiryDelta ≠ cltvInit ∧
    field.nodeId ≠ payee

instance (field : FieldR) : Decidable (field.Leads routeskip payee) :=
  inferInstanceAs (Decidable (_ ∧ _))

theorem fieldNodes_directed (field : FieldR) :
    (fieldNodes routeskip payee field).flatMap (Nodes.directed amountMsat) =
      if field.Leads routeskip payee then [fieldEdge payee field] else [] := by
  simp only [fieldNodes, addField, FieldR.Leads]
  by_cases husable : (routeskip field.shortChannelId).usable = true
  · have hcomm : (payee = field.nodeId) = (field.nodeId = payee) := propext eq_comm
    by_cases hless : memcmpGt payee field.nodeId = true
    · have hdir : direction field.nodeId payee = (false, field.nodeId, payee) := if_pos hless
      simp only [husable, hdir, if_true, List.nil_append, List.flatMap_cons, List.flatMap_nil,
        List.append_nil, directed_ways, Nodes.modify, NodeInfo.unset, NodeInfo.update,
        Nodes.isOpen, Nodes.info, Nodes.way, fieldEdge, Bool.false_eq_true, if_false,
        Bool.not_false]
      by_cases hinit : field.cltvExpiryDelta = cltvInit <;>
        by_cases hloop : field.nodeId = payee <;> simp [hinit, hloop]
    · have hdir : direction field.nodeId payee = (true, payee, field.nodeId) := if_neg hless
      simp only [husable, hdir, if_true, List.nil_append, List.flatMap_cons, List.flatMap_nil,
        List.append_nil, directed_ways, Nodes.modify, NodeInfo.unset, NodeInfo.update, hcomm,
        Nodes.isOpen, Nodes.info, Nodes.way, fieldEdge, Bool.false_eq_true, if_false, Bool.not_true]
      by_cases hinit : field.cltvExpiryDelta = cltvInit <;>
        by_cases hloop : field.nodeId = payee <;> simp [hinit, hloop]
  · simp [husable]

theorem fields_perm_iff (fields : List FieldR) :
    ((fields.flatMap (fieldNodes routeskip payee)).flatMap (Nodes.directed amountMsat)).Subperm
        (fields.map (fieldEdge payee)) ∧
      (((fields.flatMap (fieldNodes routeskip payee)).flatMap (Nodes.directed amountMsat)).Perm
        (fields.map (fieldEdge payee)) ↔ ∀ field ∈ fields, field.Leads routeskip payee) := by
  induction fields with
  | nil => simp
  | cons field rest ih =>
      have hone : ((fieldNodes routeskip payee field).flatMap (Nodes.directed amountMsat)).Subperm
          [fieldEdge payee field] ∧
        (((fieldNodes routeskip payee field).flatMap (Nodes.directed amountMsat)).Perm
          [fieldEdge payee field] ↔ field.Leads routeskip payee) := by
        rw [fieldNodes_directed]
        split
        next hleads => exact ⟨.refl _, iff_of_true (.refl _) hleads⟩
        next hleads =>
          refine ⟨List.nil_subperm, iff_of_false (fun hperm => ?_) hleads⟩
          cases hperm.length_eq
      rw [List.flatMap_cons, List.flatMap_append, List.map_cons, List.forall_mem_cons,
        ← List.singleton_append, append_perm_iff hone.1 ih.1, hone.2, ih.2]
      exact ⟨hone.1.append ih.1, Iff.rfl⟩

end Fields

/-! ### The graph -/

/-- Nothing takes an edge away. -/
structure EdgesKept (records : RouteRecords) (query : Query) : Prop where
  own : ∀ channel ∈ records.selfs, channel.Placed records.routeskip query.payer
  lastOwn : LastOwnOpen records.routeskip query.payer records.anno.groups records.selfs
  announced : AnnouncedOpen records.routeskip records.anno.groups
  fields : ∀ field ∈ query.addRoute, field.Leads records.routeskip query.payee

/-- The graph has exactly the edges that it should have when nothing takes one away. -/
theorem graphExact_iff (records : RouteRecords) (query : Query) :
    GraphExact records query ↔ EdgesKept records query := by
  have hgiven : givenEdges records.db query =
      (settledOwn records.routeskip query.payer records.anno.groups records.selfs).flatMap
          (Nodes.directed query.amountMsat) ++
        (announcedNodes records.routeskip records.anno.groups).flatMap
          (Nodes.directed query.amountMsat) ++
        (query.addRoute.flatMap (fieldNodes records.routeskip query.payee)).flatMap
          (Nodes.directed query.amountMsat) := by
    rw [givenEdges, channels, addRfield_append, loaddb_settled, List.flatMap_append,
      List.flatMap_append]
    rfl
  have hown := @settledOwn_subperm records.routeskip query.payer query.amountMsat
    records.anno.groups records.selfs
  obtain ⟨hannounced, hannouncedIff⟩ := @announcedNodes_perm_iff records.routeskip
    query.amountMsat _ records.anno.distinct
  obtain ⟨hfields, hfieldsIff⟩ := @fields_perm_iff records.routeskip query.payee query.amountMsat
    query.addRoute
  rw [GraphExact, hgiven, wantedEdges, append_perm_iff (hown.append hannounced) hfields,
    append_perm_iff hown hannounced, settledOwn_perm_iff, hannouncedIff, hfieldsIff]
  constructor
  · rintro ⟨⟨⟨hplaced, hlast⟩, hopen⟩, hleads⟩
    exact ⟨hplaced, hlast, hopen, hleads⟩
  · intro hkept
    exact ⟨⟨⟨hkept.own, hkept.lastOwn⟩, hkept.announced⟩, hkept.fields⟩

/-! ### An update without announcement -/

/-- Channel 20 between two other nodes, enabled in one direction, and behind it only a disabled
update of channel 21. -/
def orphanRecords : RouteRecords where
  selfs := []
  anno :=
    { groups :=
        [⟨20, some (nodeQ, nodeR), some (some openUpdate), none⟩,
          ⟨21, none, some (some { openUpdate with disable := true }), none⟩]
      distinct := by decide }
  routeskip := fun _ => .none

/-- The update of channel 21 takes away the edge of channel 20. -/
theorem orphanRecords_not_exact :
    ¬ ∀ (records : RouteRecords) (query : Query), GraphExact records query := by
  intro hall
  have hlength := (hall orphanRecords rowQuery).length_eq
  revert hlength
  decide

end Routing

end Ptarmigan
