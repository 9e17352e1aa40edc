/-
Finding a route: the channels of the databases become a graph, the route is read off a tree of
shortest paths from the payee back to the payer, and every hop's channel is looked up again.
-/
import Mathlib.Data.List.Basic
import Ptarmigan.Tx

namespace Ptarmigan

namespace Routing

/-- `ln_db_routeskip_t`. -/
inductive RouteSkip
  | none
  | temp
  | perm
  | work
  | error
deriving DecidableEq, Repr

/-- A channel that is not left out. -/
def RouteSkip.usable (rskip : RouteSkip) : Bool :=
  rskip == .none || rskip == .work

/-- `M_CLTV_INIT`: no policy is known. -/
def cltvInit : UInt16 := 0xffff

/-- `ninfo` of `nodes_t`. -/
structure NodeInfo where
  nodeId : Bytes
  cltvExpiryDelta : UInt16
  feeBaseMsat : UInt32
  feePropMillionths : UInt32
  routeskip : RouteSkip
deriving DecidableEq, Repr

/-- `nodes_t`. -/
structure Nodes where
  shortChannelId : UInt64
  ninfo0 : NodeInfo
  ninfo1 : NodeInfo
deriving DecidableEq, Repr

/-- The fields of `ln_self_t` that `comp_func_self` looks at. -/
structure SelfChannel where
  shortChannelId : UInt64
  normal : Bool
  peerNodeId : Bytes
deriving DecidableEq, Repr

/-- The fields of a `channel_update` that `dumpit_chan` looks at. -/
structure CnlUpdate where
  disable : Bool
  cltvExpiryDelta : UInt16
  feeBaseMsat : UInt32
  feePropMillionths : UInt32
deriving DecidableEq, Repr

/-- What is kept under a `short_channel_id`: the announcement, or the update of a direction, which
is `none` when it cannot be read. -/
inductive AnnoEntry
  | anno (shortChannelId : UInt64) (nodeId1 nodeId2 : Bytes)
  | upd (shortChannelId : UInt64) (second : Bool) (update : Option CnlUpdate)
deriving DecidableEq, Repr

def AnnoEntry.shortChannelId : AnnoEntry → UInt64
  | .anno shortChannelId _ _ => shortChannelId
  | .upd shortChannelId _ _ => shortChannelId

/-- `ln_fieldr_t`. -/
structure FieldR where
  nodeId : Bytes
  shortChannelId : UInt64
  feeBaseMsat : UInt32
  feePropMillionths : UInt32
  cltvExpiryDelta : UInt16
deriving DecidableEq, Repr

/-- The databases; there may be no announcements yet. -/
structure RouteDb where
  selfs : List SelfChannel
  anno : Option (List AnnoEntry)
  routeskip : UInt64 → RouteSkip

/-- `direction`: the two ids in order.  Of two equal ids the source compares what stands behind
them; here they count as the second case. -/
def direction (node1 node2 : Bytes) : Bool × Bytes × Bytes :=
  if memcmpGt node2 node1 then (false, node1, node2) else (true, node2, node1)

def edgefee (amtmsat : UInt64) (feeBaseMsat feePropMillionths : UInt32) : UInt64 :=
  feeBaseMsat.toUInt64 + amtmsat * feePropMillionths.toUInt64 / 1000000

/-- A direction without a policy; the fees are whatever `realloc` left. -/
def NodeInfo.unset (nodeId : Bytes) (rskip : RouteSkip) : NodeInfo :=
  ⟨nodeId, cltvInit, 0, 0, rskip⟩

def NodeInfo.update (info : NodeInfo) (upd : CnlUpdate) : NodeInfo :=
  { info with
    cltvExpiryDelta := upd.cltvExpiryDelta
    feeBaseMsat := upd.feeBaseMsat
    feePropMillionths := upd.feePropMillionths }

/-- The `idx` of `ninfo`. -/
def Nodes.modify (nodes : Nodes) (second : Bool) (change : NodeInfo → NodeInfo) : Nodes :=
  if second then { nodes with ninfo1 := change nodes.ninfo1 }
  else { nodes with ninfo0 := change nodes.ninfo0 }

/-- What `dumpit_chan` does with an update to the last of the channels. -/
def Nodes.receive (nodes : Nodes) (shortChannelId : UInt64) (second : Bool)
    (update : Option CnlUpdate) : Nodes :=
  match update.filter fun upd => !upd.disable with
  | some upd =>
      if nodes.shortChannelId = shortChannelId then nodes.modify second fun info => info.update upd
      else nodes
  | none => nodes.modify second fun info => { info with cltvExpiryDelta := cltvInit }

/-- `dumpit_chan`. -/
def dumpitChan (rskip : RouteSkip) (result : List Nodes) : AnnoEntry → List Nodes
  | .anno shortChannelId nodeId1 nodeId2 =>
      result ++ [⟨shortChannelId, NodeInfo.unset nodeId1 rskip, NodeInfo.unset nodeId2 rskip⟩]
  | .upd shortChannelId second update =>
      result.modify (result.length - 1) fun nodes => nodes.receive shortChannelId second update

/-- `comp_func_self`. -/
def compFuncSelf (db : RouteDb) (payer : Bytes) (result : List Nodes) (channel : SelfChannel) :
    List Nodes :=
  let rskip := db.routeskip channel.shortChannelId
  if channel.shortChannelId ≠ 0 ∧ channel.normal = true ∧ rskip.usable = true ∧
      channel.peerNodeId ≠ payer then
    let (_, p1, p2) := direction payer channel.peerNodeId
    result ++ [⟨channel.shortChannelId, ⟨p1, 0, 0, 0, rskip⟩, ⟨p2, 0, 0, 0, rskip⟩⟩]
  else result

/-- `loaddb`. -/
def loaddb (db : RouteDb) (payer : Bytes) : List Nodes :=
  let result := db.selfs.foldl (compFuncSelf db payer) []
  (db.anno.getD []).foldl (fun result entry =>
    let rskip := db.routeskip entry.shortChannelId
    if rskip.usable then dumpitChan rskip result entry else result) result

/-- One turn of `add_rfield`. -/
def addField (db : RouteDb) (payee : Bytes) (result : List Nodes) (field : FieldR) : List Nodes :=
  let rskip := db.routeskip field.shortChannelId
  if rskip.usable then
    let (dir, p1, p2) := direction field.nodeId payee
    let nodes : Nodes := ⟨field.shortChannelId, NodeInfo.unset p1 rskip, NodeInfo.unset p2 rskip⟩
    result ++ [nodes.modify dir fun info => info.update
      ⟨false, field.cltvExpiryDelta, field.feeBaseMsat, field.feePropMillionths⟩]
  else result

/-- `add_rfield`. -/
def addRfield (db : RouteDb) (payee : Bytes) (result : List Nodes) (fields : List FieldR) :
    List Nodes :=
  fields.foldl (addField db payee) result

/-- What `ln_routing_calculate` is asked for. -/
structure Query where
  payer : Bytes
  payee : Bytes
  cltvExpiry : UInt32
  amountMsat : UInt64
  addRoute : List FieldR

/-- The channels that a route is looked for in. -/
def channels (db : RouteDb) (query : Query) : List Nodes :=
  addRfield db query.payee (loaddb db query.payer) query.addRoute

/-- `Fee`, between its two vertices. -/
structure Edge where
  source : Bytes
  target : Bytes
  feeBaseMsat : UInt32
  feePropMillionths : UInt32
  cltvExpiryDelta : UInt16
  weight : UInt64
deriving DecidableEq, Repr

/-- The edge from a node with a policy to the other node of its channel. -/
def edgeOf (amountMsat : UInt64) (info : NodeInfo) (target : Bytes) : List Edge :=
  if info.cltvExpiryDelta ≠ cltvInit then
    let weight := edgefee amountMsat info.feeBaseMsat info.feePropMillionths
    [⟨info.nodeId, target, info.feeBaseMsat, info.feePropMillionths, info.cltvExpiryDelta,
      if info.routeskip = .work then weight * 100 else weight⟩]
  else []

def Nodes.edges (amountMsat : UInt64) (nodes : Nodes) : List Edge :=
  if nodes.ninfo0.nodeId ≠ nodes.ninfo1.nodeId then
    edgeOf amountMsat nodes.ninfo0 nodes.ninfo1.nodeId ++
      edgeOf amountMsat nodes.ninfo1 nodes.ninfo0.nodeId
  else []

/-- The graph, with one vertex for each node id (`ver_add`): its edges as they were added. -/
def graph (db : RouteDb) (query : Query) : List Edge :=
  (channels db query).flatMap (Nodes.edges query.amountMsat)

/-- `edge(u, v, g)`: the first that was added. -/
def edge (source target : Bytes) (edges : List Edge) : Option Edge :=
  edges.find? fun eg => eg.source == source && eg.target == target

/-- The elements of `route`, `msat` and `cltv`, which grow together. -/
structure Stop where
  node : Bytes
  msat : UInt64
  cltv : UInt32
deriving DecidableEq, Repr

/-- The loop from the payee back to the payer, for a number of turns; the inner `none` is a
parent without an edge. -/
def walkBack (edges : List Edge) (pt : Bytes → Bytes) (start : Bytes) :
    Nat → Bytes → UInt64 → UInt32 → List Stop → Option (Option (List Stop))
  | 0, _, _, _, _ => none
  | turns + 1, vtx, amountMsat, cltvExpiry, route =>
      if vtx = start then some (some route)
      else
        match edge (pt vtx) vtx edges with
        | none => some none
        | some eg =>
            walkBack edges pt start turns (pt vtx)
              (amountMsat + edgefee amountMsat eg.feeBaseMsat eg.feePropMillionths)
              (cltvExpiry + eg.cltvExpiryDelta.toUInt32)
              (⟨pt vtx, amountMsat, cltvExpiry⟩ :: route)

/-- `ln_hop_datain_t`. -/
structure HopDatain where
  shortChannelId : UInt64
  amtToForward : UInt64
  outgoingCltvValue : UInt32
  pubkey : Bytes
deriving DecidableEq, Repr

/-- `sci`: the id of the first channel with these two nodes, or 0. -/
def sciOf (nodes : List Nodes) (now next : Bytes) : UInt64 :=
  let (_, nodeId1, nodeId2) := direction now next
  match nodes.find? fun nodes =>
      nodes.ninfo0.nodeId == nodeId1 && nodes.ninfo1.nodeId == nodeId2 with
  | some nodes => nodes.shortChannelId
  | none => 0

/-- `pResult->hop_datain`; `none` is "not match!". -/
def hopDatain (nodes : List Nodes) : List Stop → Option (List HopDatain)
  | [] => some []
  | [last] => some [⟨0, last.msat, last.cltv, last.node⟩]
  | now :: next :: rest =>
      let sci := sciOf nodes now.node next.node
      if sci = 0 then none
      else (⟨sci, now.msat, now.cltv, now.node⟩ :: ·) <$> hopDatain nodes (next :: rest)

/-- `lnerr_route_t`, with what `LNROUTE_OK` leaves in `pResult`. -/
inductive RouteResult
  | ok (hops : List HopDatain)
  | noStart
  | noGoal
  | notFound
  | tooManyHop
deriving DecidableEq, Repr

/-- `LN_HOP_MAX`. -/
def hopMax : Nat := 20

def inGraph (nodes : List Nodes) (nodeId : Bytes) : Bool :=
  nodes.any fun nodes => nodes.ninfo0.nodeId == nodeId || nodes.ninfo1.nodeId == nodeId

/-- `ln_routing_calculate`, with the parents that `dijkstra_shortest_paths` finds from a vertex. -/
def lnRoutingCalculate (dijkstra : List Edge → Bytes → Bytes → Bytes) (db : RouteDb)
    (query : Query) (turns : Nat) : Option RouteResult :=
  let nodes := channels db query
  if !inGraph nodes query.payer then some .noStart
  else if !inGraph nodes query.payee then some .noGoal
  else
    let pt := dijkstra (graph db query) query.payer
    if pt query.payee = query.payee then some .notFound
    else
      (walkBack (graph db query) pt query.payer turns query.payee query.amountMsat
        query.cltvExpiry [⟨query.payee, query.amountMsat, query.cltvExpiry⟩]).map fun route =>
        match route with
        | none => .notFound
        | some route =>
            if hopMax + 1 < route.length then .tooManyHop
            else match hopDatain nodes route with
              | none => .notFound
              | some hops => .ok hops

/-! ### Consistent routes -/

/-- The policy for what goes over a channel from one of its nodes to the other. -/
def Nodes.Offers (nodes : Nodes) (source target : Bytes) (info : NodeInfo) : Prop :=
  (info = nodes.ninfo0 ∧ nodes.ninfo0.nodeId = source ∧ nodes.ninfo1.nodeId = target ∨
    info = nodes.ninfo1 ∧ nodes.ninfo1.nodeId = source ∧ nodes.ninfo0.nodeId = target) ∧
    info.cltvExpiryDelta ≠ cltvInit

/-- The channel of that id is enabled from one node to the other, under the policy. -/
def Enabled (nodes : List Nodes) (shortChannelId : UInt64) (source target : Bytes)
    (info : NodeInfo) : Prop :=
  ∃ channel ∈ nodes, channel.shortChannelId = shortChannelId ∧ channel.Offers source target info

/-- The fee of a policy, as a number. -/
def NodeInfo.fee (info : NodeInfo) (amount : Nat) : Nat :=
  info.feeBaseMsat.toNat + amount * info.feePropMillionths.toNat / 1000000

/-- A node that passes on what it got over `hop` keeps the fee and the delta of the policy. -/
def Pays (info : NodeInfo) (hop next : HopDatain) : Prop :=
  hop.amtToForward.toNat = next.amtToForward.toNat + info.fee next.amtToForward.toNat ∧
    hop.outgoingCltvValue.toNat = next.outgoingCltvValue.toNat + info.cltvExpiryDelta.toNat

/-- Every hop's channel is enabled and not left out, and the node before it is paid what the
channel asks. -/
def HopsConsistent (db : RouteDb) (nodes : List Nodes) : List HopDatain → Prop
  | hop :: next :: rest =>
      (db.routeskip hop.shortChannelId).usable = true ∧
        (∃ info, Enabled nodes hop.shortChannelId hop.pubkey next.pubkey info) ∧
        (∀ behind ∈ rest.head?, ∃ info,
          Enabled nodes next.shortChannelId next.pubkey behind.pubkey info ∧ Pays info hop next) ∧
        HopsConsistent db nodes (next :: rest)
  | _ => True

/-- A path from the payer to the payee whose hops are consistent. -/
structure Consistent (db : RouteDb) (query : Query) (hops : List HopDatain) : Prop where
  start : hops.head?.map HopDatain.pubkey = some query.payer
  goal : hops.getLast?.map HopDatain.pubkey = some query.payee
  length : hops.length ≤ hopMax + 1
  hops : HopsConsistent db (channels db query) hops

/-- The way from a vertex back to the start along the parents. -/
inductive Branch (pt : Bytes → Bytes) (start : Bytes) : Bytes → List Bytes → Prop
  | root : Branch pt start start []
  | step {vtx : Bytes} {path : List Bytes} (hvtx : vtx ≠ start)
      (hpath : Branch pt start (pt vtx) path) :
      Branch pt start vtx (pt vtx :: path)

theorem Branch.unique {pt : Bytes → Bytes} {start vtx : Bytes} {path path' : List Bytes}
    (hpath : Branch pt start vtx path) (hpath' : Branch pt start vtx path') : path = path' := by
  induction hpath generalizing path' with
  | root =>
      cases hpath' with
      | root => rfl
      | step hvtx _ => exact absurd rfl hvtx
  | step hvtx _ ih =>
      cases hpath' with
      | root => exact absurd rfl hvtx
      | step _ hpath' => rw [ih hpath']

def Edge.fee (eg : Edge) (amount : UInt64) : UInt64 :=
  edgefee amount eg.feeBaseMsat eg.feePropMillionths

/-- The two lookups agree on the way back from a vertex: the first channel with the nodes of a hop
is enabled; behind the payer's own hop it asks what the first edge asks, and nothing wraps. -/
def LookupsAgree (nodes : List Nodes) (edges : List Edge) : Bytes → List Bytes → Nat → Nat → Prop
  | _, [], _, _ => True
  | vtx, [payer], _, _ => ∃ info, Enabled nodes (sciOf nodes payer vtx) payer vtx info
  | vtx, parent :: path, amount, cltv =>
      ∃ info eg, Enabled nodes (sciOf nodes parent vtx) parent vtx info ∧
        edge parent vtx edges = some eg ∧
        (eg.fee (UInt64.ofNat amount)).toNat = info.fee amount ∧
        eg.cltvExpiryDelta = info.cltvExpiryDelta ∧
        amount + info.fee amount < 2 ^ 64 ∧ cltv + info.cltvExpiryDelta.toNat < 2 ^ 32 ∧
        LookupsAgree nodes edges parent path (amount + info.fee amount)
          (cltv + info.cltvExpiryDelta.toNat)

section Lookups

variable {db : RouteDb} {nodes : List Nodes}

/-- No channel of the list may be left out. -/
def AllUsable (db : RouteDb) (nodes : List Nodes) : Prop :=
  ∀ channel ∈ nodes, (db.routeskip channel.shortChannelId).usable = true

theorem AllUsable.append {channel : Nodes} (hnodes : AllUsable db nodes)
    (hchannel : (db.routeskip channel.shortChannelId).usable = true) :
    AllUsable db (nodes ++ [channel]) := by
  intro other hmem
  rcases List.mem_append.mp hmem with hold | hnew
  · exact hnodes other hold
  · rw [List.mem_singleton.mp hnew]
    exact hchannel

theorem AllUsable.modify {index : Nat} {change : Nodes → Nodes} (hnodes : AllUsable db nodes)
    (hchange : ∀ channel, (change channel).shortChannelId = channel.shortChannelId) :
    AllUsable db (nodes.modify index change) := by
  intro other hmem
  obtain ⟨position, hposition, rfl⟩ := List.mem_iff_getElem.mp hmem
  rw [List.length_modify] at hposition
  have hold := hnodes nodes[position] (List.getElem_mem hposition)
  rw [List.getElem_modify]
  split
  · rwa [hchange]
  · exact hold

theorem shortChannelId_modify (channel : Nodes) (second : Bool) (change : NodeInfo → NodeInfo) :
    (channel.modify second change).shortChannelId = channel.shortChannelId := by
  cases second <;> rfl

theorem shortChannelId_receive (channel : Nodes) (shortChannelId : UInt64) (second : Bool)
    (update : Option CnlUpdate) :
    (channel.receive shortChannelId second update).shortChannelId = channel.shortChannelId := by
  rw [Nodes.receive]
  split
  · split
    · exact shortChannelId_modify ..
    · rfl
  · exact shortChannelId_modify ..

theorem compFuncSelf_usable {payer : Bytes} (hnodes : AllUsable db nodes) (self : SelfChannel) :
    AllUsable db (compFuncSelf db payer nodes self) := by
  rw [compFuncSelf]
  split
  next hself => exact hnodes.append hself.2.2.1
  next => exact hnodes

theorem dumpitChan_usable {entry : AnnoEntry} (hnodes : AllUsable db nodes) (rskip : RouteSkip)
    (hentry : (db.routeskip entry.shortChannelId).usable = true) :
    AllUsable db (dumpitChan rskip nodes entry) := by
  cases entry with
  | anno shortChannelId nodeId1 nodeId2 => exact hnodes.append hentry
  | upd shortChannelId second update =>
      exact hnodes.modify fun channel => shortChannelId_receive channel shortChannelId second update

theorem addField_usable {payee : Bytes} (hnodes : AllUsable db nodes) (field : FieldR) :
    AllUsable db (addField db payee nodes field) := by
  simp only [addField]
  split
  next hfield =>
    apply hnodes.append
    rwa [shortChannelId_modify]
  next => exact hnodes

theorem channels_usable (db : RouteDb) (query : Query) : AllUsable db (channels db query) := by
  have hself : AllUsable db (db.selfs.foldl (compFuncSelf db query.payer) []) :=
    List.foldlRecOn (motive := AllUsable db) _ _ (fun _ hmem => absurd hmem List.not_mem_nil)
      fun _ hnodes self _ => compFuncSelf_usable hnodes self
  have hload : AllUsable db (loaddb db query.payer) := by
    apply List.foldlRecOn (motive := AllUsable db) _ _ hself
    intro nodes hnodes entry _
    simp only []
    split
    next hentry => exact dumpitChan_usable hnodes _ hentry
    next => exact hnodes
  exact List.foldlRecOn (motive := AllUsable db) _ _ hload
    fun _ hnodes field _ => addField_usable hnodes field

theorem sciOf_usable {now next : Bytes} (husable : AllUsable db nodes)
    (hsci : sciOf nodes now next ≠ 0) :
    (db.routeskip (sciOf nodes now next)).usable = true := by
  simp only [sciOf] at hsci ⊢
  split at hsci
  next channel hfind => exact husable channel (List.mem_of_find?_eq_some hfind)
  next => exact absurd rfl hsci

theorem add_fee_iff (amount fee : UInt64) (due : Nat) :
    (amount + fee).toNat = amount.toNat + due ↔ fee.toNat = due ∧ amount.toNat + due < 2 ^ 64 := by
  have hamount := amount.toNat_lt
  have hfee := fee.toNat_lt
  rw [UInt64.toNat_add]
  omega

theorem add_delta_iff (cltv : UInt32) (delta due : UInt16) :
    (cltv + delta.toUInt32).toNat = cltv.toNat + due.toNat ↔
      delta = due ∧ cltv.toNat + due.toNat < 2 ^ 32 := by
  have hcltv := cltv.toNat_lt
  have hdelta := delta.toNat_lt
  have hdue := due.toNat_lt
  rw [UInt32.toNat_add, UInt16.toNat_toUInt32, ← UInt16.toNat_inj]
  omega

/-! ### The way back -/

theorem branch_of_walkBack {edges : List Edge} {pt : Bytes → Bytes} {start vtx : Bytes}
    {turns : Nat}
    {amount : UInt64} {cltv : UInt32} {route route' : List Stop}
    (hwalk : walkBack edges pt start turns vtx amount cltv route = some (some route')) :
    ∃ path, Branch pt start vtx path := by
  induction turns generalizing vtx amount cltv route with
  | zero => exact absurd hwalk (by simp [walkBack])
  | succ turns ih =>
      by_cases hvtx : vtx = start
      · subst hvtx
        exact ⟨[], .root⟩
      · rw [walkBack, if_neg hvtx] at hwalk
        split at hwalk
        next => exact absurd hwalk (by simp)
        next eg hedge =>
          obtain ⟨path, hpath⟩ := ih hwalk
          exact ⟨pt vtx :: path, .step hvtx hpath⟩

/-- The last vertex of the route, on what it gets: the policy of its own hop. -/
def Pending (nodes : List Nodes) (amount : UInt64) (cltv : UInt32) : List Stop → Prop
  | stop :: behind :: _ =>
      ∃ info, Enabled nodes (sciOf nodes stop.node behind.node) stop.node behind.node info ∧
        amount.toNat = stop.msat.toNat + info.fee stop.msat.toNat ∧
        cltv.toNat = stop.cltv.toNat + info.cltvExpiryDelta.toNat
  | _ => True

theorem hopDatain_cons_cons {stop behind : Stop} {route : List Stop} {hops : List HopDatain}
    (hhops : hopDatain nodes (stop :: behind :: route) = some hops) :
    sciOf nodes stop.node behind.node ≠ 0 ∧
      ∃ hops', hopDatain nodes (behind :: route) = some hops' ∧
        hops = ⟨sciOf nodes stop.node behind.node, stop.msat, stop.cltv, stop.node⟩ :: hops' := by
  rw [hopDatain] at hhops
  split at hhops
  next => exact absurd hhops (by simp)
  next hsci =>
    obtain ⟨hops', hhops', rfl⟩ := Option.map_eq_some_iff.mp hhops
    exact ⟨hsci, hops', hhops', rfl⟩

theorem hopDatain_head {stop : Stop} {route : List Stop} {hops : List HopDatain}
    (hhops : hopDatain nodes (stop :: route) = some hops) :
    ∃ hop rest, hops = hop :: rest ∧ hop.pubkey = stop.node := by
  cases route with
  | nil =>
      cases hhops
      exact ⟨_, [], rfl, rfl⟩
  | cons behind route =>
      obtain ⟨_, hops', _, rfl⟩ := hopDatain_cons_cons hhops
      exact ⟨_, hops', rfl, rfl⟩

/-- A stop before a route whose hops are known: what its hop needs. -/
theorem hopsConsistent_cons {stop behind : Stop} {route : List Stop} {hops hops' : List HopDatain}
    (husable : AllUsable db nodes) (hhops : hopDatain nodes (stop :: behind :: route) = some hops)
    (hhops' : hopDatain nodes (behind :: route) = some hops') :
    HopsConsistent db nodes hops ↔
      (∃ info, Enabled nodes (sciOf nodes stop.node behind.node) stop.node behind.node info) ∧
        Pending nodes stop.msat stop.cltv (behind :: route) ∧ HopsConsistent db nodes hops' := by
  obtain ⟨hsci, hops'', hhops'', rfl⟩ := hopDatain_cons_cons hhops
  obtain rfl : hops' = hops'' := Option.some_inj.mp (hhops'.symm.trans hhops'')
  have hskip := sciOf_usable husable hsci
  cases route with
  | nil =>
      cases hhops'
      simp [HopsConsistent, Pending, hskip]
  | cons next route =>
      obtain ⟨_, rest, hrest, rfl⟩ := hopDatain_cons_cons hhops'
      obtain ⟨hop, rest, rfl, hhop⟩ := hopDatain_head hrest
      simp only [HopsConsistent, Pending, Pays, hskip, true_and, List.head?_cons,
        Option.mem_some_iff, forall_eq', hhop]

theorem hopDatain_of_append {front : List Stop} {stop : Stop} {route : List Stop}
    {hops : List HopDatain} (hhops : hopDatain nodes (front ++ stop :: route) = some hops) :
    ∃ hops', hopDatain nodes (stop :: route) = some hops' := by
  induction front generalizing hops with
  | nil => exact ⟨hops, hhops⟩
  | cons first front ih =>
      cases front with
      | nil =>
          obtain ⟨_, hops', hhops', _⟩ := hopDatain_cons_cons hhops
          exact ⟨hops', hhops'⟩
      | cons second front =>
          obtain ⟨_, hops', hhops', _⟩ := hopDatain_cons_cons hhops
          exact ih hhops'

section WalkBack

variable {edges : List Edge} {pt : Bytes → Bytes} {start vtx : Bytes} {turns : Nat}
  {amount : UInt64} {cltv : UInt32} {route route' : List Stop}

theorem walkBack_append
    (hwalk : walkBack edges pt start turns vtx amount cltv route = some (some route')) :
    ∃ front, route' = front ++ route := by
  induction turns generalizing vtx amount cltv route with
  | zero => exact absurd hwalk (by simp [walkBack])
  | succ turns ih =>
      rw [walkBack] at hwalk
      split at hwalk
      next =>
        cases hwalk
        exact ⟨[], rfl⟩
      next =>
        split at hwalk
        next => exact absurd hwalk (by simp)
        next eg hedge =>
          obtain ⟨front, rfl⟩ := ih hwalk
          exact ⟨front ++ [⟨pt vtx, amount, cltv⟩], by simp⟩

theorem walkBack_step (hvtx : vtx ≠ start)
    (hwalk : walkBack edges pt start turns vtx amount cltv route = some (some route')) :
    ∃ turns' eg, edge (pt vtx) vtx edges = some eg ∧
      walkBack edges pt start turns' (pt vtx) (amount + eg.fee amount)
        (cltv + eg.cltvExpiryDelta.toUInt32) (⟨pt vtx, amount, cltv⟩ :: route) =
        some (some route') := by
  cases turns with
  | zero => exact absurd hwalk (by simp [walkBack])
  | succ turns =>
      rw [walkBack, if_neg hvtx] at hwalk
      split at hwalk
      next => exact absurd hwalk (by simp)
      next eg hedge => exact ⟨turns, eg, hedge, hwalk⟩

/-- What a hop behind the payer's own needs for its amount and its time. -/
theorem pending_iff {stop : Stop} {eg : Edge} :
    Pending nodes (amount + eg.fee amount) (cltv + eg.cltvExpiryDelta.toUInt32)
        (⟨pt vtx, amount, cltv⟩ :: stop :: route) ↔
      ∃ info, Enabled nodes (sciOf nodes (pt vtx) stop.node) (pt vtx) stop.node info ∧
        (eg.fee amount).toNat = info.fee amount.toNat ∧
        eg.cltvExpiryDelta = info.cltvExpiryDelta ∧
        amount.toNat + info.fee amount.toNat < 2 ^ 64 ∧
        cltv.toNat + info.cltvExpiryDelta.toNat < 2 ^ 32 := by
  simp only [Pending, add_fee_iff, add_delta_iff]
  constructor
  · rintro ⟨info, henabled, ⟨hfee, hfits⟩, hdelta, hfits'⟩
    exact ⟨info, henabled, hfee, hdelta, hfits, hfits'⟩
  · rintro ⟨info, henabled, hfee, hdelta, hfits, hfits'⟩
    exact ⟨info, henabled, ⟨hfee, hfits⟩, hdelta, hfits'⟩

/-- What the way back has left to show, once its stops are consistent. -/
theorem walkBack_consistent {path : List Bytes} {stop : Stop} {hops hops' : List HopDatain}
    (husable : AllUsable db nodes) (hpath : Branch pt start vtx path) (hstop : stop.node = vtx)
    (hwalk : walkBack edges pt start turns vtx amount cltv (stop :: route) = some (some route'))
    (hhops : hopDatain nodes (stop :: route) = some hops)
    (hhops' : hopDatain nodes route' = some hops') :
    HopsConsistent db nodes hops' ↔
      HopsConsistent db nodes hops ∧ (vtx ≠ start → Pending nodes amount cltv (stop :: route)) ∧
        LookupsAgree nodes edges vtx path amount.toNat cltv.toNat := by
  induction hpath generalizing turns amount cltv stop route hops with
  | root =>
      cases turns with
      | zero => exact absurd hwalk (by simp [walkBack])
      | succ turns =>
          rw [walkBack, if_pos rfl] at hwalk
          cases hwalk
          obtain rfl : hops = hops' := Option.some_inj.mp (hhops.symm.trans hhops')
          simp [LookupsAgree]
  | @step vtx path hvtx hpath ih =>
      obtain ⟨turns', eg, hedge, hnext⟩ := walkBack_step hvtx hwalk
      obtain ⟨front, hfront⟩ := walkBack_append hnext
      obtain ⟨hops₂, hhops₂⟩ := hopDatain_of_append (hfront ▸ hhops')
      have hcons := hopsConsistent_cons husable hhops₂ hhops
      have hrest := ih rfl hnext hhops₂
      rw [hrest, hcons]
      subst hstop
      cases hpath with
      | root =>
          -- The payer's own hop: nothing is paid for it.
          simp only [LookupsAgree, ne_eq, not_true_eq_false, false_imp_iff, hvtx, not_false_eq_true,
            true_imp_iff, and_true]
          tauto
      | @step _ path hparent hpath =>
          simp only [ne_eq, hparent, hvtx, not_false_eq_true, true_imp_iff, pending_iff]
          constructor
          · rintro ⟨⟨_, hpending, hhops⟩, ⟨info, henabled, hfee, hdelta, hfits, hfits'⟩, hagree⟩
            refine ⟨hhops, hpending, info, eg, henabled, hedge, ?_, hdelta, hfits, hfits', ?_⟩
            · rwa [UInt64.ofNat_toNat]
            · rwa [(add_fee_iff amount _ _).mpr ⟨hfee, hfits⟩,
                (add_delta_iff cltv _ _).mpr ⟨hdelta, hfits'⟩] at hagree
          · rintro ⟨hhops, hpending, info, eg', henabled, hedge', hfee, hdelta, hfits,
              hfits', hagree⟩
            obtain rfl : eg = eg' := Option.some_inj.mp (hedge.symm.trans hedge')
            rw [UInt64.ofNat_toNat] at hfee
            refine ⟨⟨⟨info, henabled⟩, hpending, hhops⟩,
              ⟨info, henabled, hfee, hdelta, hfits, hfits'⟩, ?_⟩
            rwa [(add_fee_iff amount _ _).mpr ⟨hfee, hfits⟩,
              (add_delta_iff cltv _ _).mpr ⟨hdelta, hfits'⟩]

theorem walkBack_head {stop : Stop}
    (hwalk : walkBack edges pt start turns vtx amount cltv (stop :: route) = some (some route'))
    (hstop : stop.node = vtx) : ∃ first rest, route' = first :: rest ∧ first.node = start := by
  induction turns generalizing vtx amount cltv stop route with
  | zero => exact absurd hwalk (by simp [walkBack])
  | succ turns ih =>
      rw [walkBack] at hwalk
      split at hwalk
      next hvtx =>
        cases hwalk
        exact ⟨stop, route, rfl, hstop.trans hvtx⟩
      next =>
        split at hwalk
        next => exact absurd hwalk (by simp)
        next eg hedge => exact ih hwalk rfl

theorem map_pubkey_hopDatain {hops : List HopDatain} (hhops : hopDatain nodes route = some hops) :
    hops.map HopDatain.pubkey = route.map Stop.node := by
  induction route generalizing hops with
  | nil =>
      cases hhops
      rfl
  | cons stop route ih =>
      cases route with
      | nil =>
          cases hhops
          rfl
      | cons behind route =>
          obtain ⟨_, hops', hhops', rfl⟩ := hopDatain_cons_cons hhops
          rw [List.map_cons, ih hhops']
          rfl

end WalkBack

end Lookups

/-- The first channel and the first edge of each hop agree, on the way that the parents give. -/
def Agreeing (dijkstra : List Edge → Bytes → Bytes → Bytes) (db : RouteDb) (query : Query) : Prop :=
  ∃ path, Branch (dijkstra (graph db query) query.payer) query.payer query.payee path ∧
    LookupsAgree (channels db query) (graph db query) query.payee path query.amountMsat.toNat
      query.cltvExpiry.toNat

section Found

variable {dijkstra : List Edge → Bytes → Bytes → Bytes} {db : RouteDb} {query : Query}
  {turns : Nat} {hops : List HopDatain}

theorem found_cases (hfound : lnRoutingCalculate dijkstra db query turns = some (.ok hops)) :
    ∃ route, walkBack (graph db query) (dijkstra (graph db query) query.payer) query.payer turns
        query.payee query.amountMsat query.cltvExpiry
        [⟨query.payee, query.amountMsat, query.cltvExpiry⟩] = some (some route) ∧
      route.length ≤ hopMax + 1 ∧ hopDatain (channels db query) route = some hops := by
  simp only [lnRoutingCalculate] at hfound
  split at hfound
  next => exact absurd hfound (by simp)
  split at hfound
  next => exact absurd hfound (by simp)
  split at hfound
  next => exact absurd hfound (by simp)
  obtain ⟨found, hwalk, hresult⟩ := Option.map_eq_some_iff.mp hfound
  cases found with
  | none => exact absurd hresult (by simp)
  | some route =>
      simp only [] at hresult
      split at hresult
      next => exact absurd hresult (by simp)
      next hlength =>
        split at hresult
        next => exact absurd hresult (by simp)
        next hops' hhops =>
          cases hresult
          exact ⟨route, hwalk, Nat.not_lt.mp hlength, hhops⟩

/-- A route that is found goes from the payer to the payee, over at most 20 channels. -/
theorem found_path (hfound : lnRoutingCalculate dijkstra db query turns = some (.ok hops)) :
    hops.head?.map HopDatain.pubkey = some query.payer ∧
      hops.getLast?.map HopDatain.pubkey = some query.payee ∧ hops.length ≤ hopMax + 1 := by
  obtain ⟨route, hwalk, hlength, hhops⟩ := found_cases hfound
  obtain ⟨first, rest, hfirst, hpayer⟩ := walkBack_head hwalk rfl
  obtain ⟨front, hfront⟩ := walkBack_append hwalk
  have hnodes := map_pubkey_hopDatain hhops
  constructor
  · rw [← List.head?_map, hnodes, hfirst]
    simp [hpayer]
  constructor
  · rw [← List.getLast?_map, hnodes, hfront]
    simp
  · rwa [← List.length_map (f := HopDatain.pubkey), hnodes, List.length_map]

/-- A route that is found is consistent exactly when the lookups agree. -/
theorem consistent_iff (hfound : lnRoutingCalculate dijkstra db query turns = some (.ok hops)) :
    Consistent db query hops ↔ Agreeing dijkstra db query := by
  obtain ⟨route, hwalk, hlength, hhops⟩ := found_cases hfound
  obtain ⟨hstart, hgoal, hmax⟩ := found_path hfound
  obtain ⟨path, hpath⟩ := branch_of_walkBack hwalk
  have hiff := walkBack_consistent (channels_usable db query) hpath rfl hwalk rfl hhops
  have hagreeing : HopsConsistent db (channels db query) hops ↔ Agreeing dijkstra db query := by
    rw [hiff]
    constructor
    · intro hall
      exact ⟨path, hpath, hall.2.2⟩
    · rintro ⟨path', hpath', hagree⟩
      rw [hpath'.unique hpath] at hagree
      exact ⟨trivial, fun _ => trivial, hagree⟩
  rw [← hagreeing]
  constructor
  · intro hconsistent
    exact hconsistent.hops
  · intro hhops
    exact ⟨hstart, hgoal, hmax, hhops⟩

end Found

/-! ### Trees of shortest paths -/

/-- What `dijkstra_shortest_paths` leaves in its predecessor map: a vertex with another parent is
reached from the start along its parents, over edges that make its distance, and no edge from a
vertex that is reached leads to a shorter one. -/
structure ShortestPathTree (edges : List Edge) (start : Bytes) (pt : Bytes → Bytes) : Prop where
  root : pt start = start
  reached : ∀ vtx, pt vtx ≠ vtx → ∃ path, Branch pt start vtx path
  shortest : ∃ dist : Bytes → Nat, dist start = 0 ∧
    (∀ vtx, pt vtx ≠ vtx → ∃ eg ∈ edges, eg.source = pt vtx ∧ eg.target = vtx ∧
      dist vtx = dist (pt vtx) + eg.weight.toNat) ∧
    ∀ eg ∈ edges, eg.source = start ∨ pt eg.source ≠ eg.source →
      (eg.target = start ∨ pt eg.target ≠ eg.target) ∧
        dist eg.target ≤ dist eg.source + eg.weight.toNat

theorem walkBack_ends {edges : List Edge} {pt : Bytes → Bytes} {start vtx : Bytes}
    {path : List Bytes} (hpath : Branch pt start vtx path) (amount : UInt64) (cltv : UInt32)
    (route : List Stop) :
    ∃ found, walkBack edges pt start (path.length + 1) vtx amount cltv route = some found := by
  induction hpath generalizing amount cltv route with
  | root =>
      rw [walkBack, if_pos rfl]
      exact ⟨_, rfl⟩
  | step hvtx _ ih =>
      rw [List.length_cons, walkBack, if_neg hvtx]
      split
      next => exact ⟨_, rfl⟩
      next eg _ => exact ih ..

/-- On a tree of shortest paths every query comes to an end. -/
theorem lnRoutingCalculate_ends {dijkstra : List Edge → Bytes → Bytes → Bytes} {db : RouteDb}
    {query : Query}
    (htree : ShortestPathTree (graph db query) query.payer
      (dijkstra (graph db query) query.payer)) :
    ∃ turns result, lnRoutingCalculate dijkstra db query turns = some result := by
  by_cases hgoal : dijkstra (graph db query) query.payer query.payee = query.payee
  · refine ⟨0, ?_⟩
    simp only [lnRoutingCalculate]
    split
    · exact ⟨_, rfl⟩
    split
    · exact ⟨_, rfl⟩
    exact ⟨_, rfl⟩
  · obtain ⟨path, hpath⟩ := htree.reached query.payee hgoal
    obtain ⟨found, hfound⟩ : ∃ found, walkBack (graph db query) _ _ _ _ _ _ _ = some found :=
      walkBack_ends hpath query.amountMsat query.cltvExpiry
        [⟨query.payee, query.amountMsat, query.cltvExpiry⟩]
    refine ⟨path.length + 1, ?_⟩
    simp only [lnRoutingCalculate]
    split
    · exact ⟨_, rfl⟩
    split
    · exact ⟨_, rfl⟩
    rw [hfound]
    exact ⟨_, rfl⟩

section Detour

/-- Three nodes in a row. -/
def nodeP : Bytes := 0x02 :: List.replicate 32 1
def nodeQ : Bytes := 0x02 :: List.replicate 32 2
def nodeR : Bytes := 0x02 :: List.replicate 32 3

/-- The parents of the only way there is. -/
def inRow (_ : List Edge) (_ vtx : Bytes) : Bytes :=
  if vtx = nodeR then nodeQ else if vtx = nodeQ then nodeP else vtx

def openUpdate : CnlUpdate := ⟨false, 40, 1000, 100⟩

/-- An own channel and one behind it. -/
def rowDb : RouteDb where
  selfs := [⟨10, true, nodeQ⟩]
  anno := some [.anno 21 nodeQ nodeR, .upd 21 false (some openUpdate)]
  routeskip := fun _ => .none

def rowQuery : Query := ⟨nodeP, nodeR, 500, 1000000, []⟩

def rowHops : List HopDatain :=
  [⟨10, 1001100, 540, nodeP⟩, ⟨21, 1000000, 500, nodeQ⟩, ⟨0, 1000000, 500, nodeR⟩]

theorem rowHops_consistent : Consistent rowDb rowQuery rowHops := by
  have hfound : lnRoutingCalculate inRow rowDb rowQuery 3 = some (.ok rowHops) := by decide
  have hpath : Branch (inRow (graph rowDb rowQuery) nodeP) nodeP nodeR [nodeQ, nodeP] :=
    .step (by decide) (.step (by decide) .root)
  have hedge : edge nodeQ nodeR (graph rowDb rowQuery) =
      some ⟨nodeQ, nodeR, 1000, 100, 40, 1100⟩ := by decide
  have hfirst : Enabled (channels rowDb rowQuery) 21 nodeQ nodeR ⟨nodeQ, 40, 1000, 100, .none⟩ :=
    ⟨⟨21, ⟨nodeQ, 40, 1000, 100, .none⟩, ⟨nodeR, cltvInit, 0, 0, .none⟩⟩, by decide, rfl,
      .inl ⟨rfl, rfl, rfl⟩, by decide⟩
  have hown : Enabled (channels rowDb rowQuery) 10 nodeP nodeQ ⟨nodeP, 0, 0, 0, .none⟩ :=
    ⟨⟨10, ⟨nodeP, 0, 0, 0, .none⟩, ⟨nodeQ, 0, 0, 0, .none⟩⟩, by decide, rfl,
      .inl ⟨rfl, rfl, rfl⟩, by decide⟩
  have hsci : sciOf (channels rowDb rowQuery) nodeQ nodeR = 21 := by decide
  have hsci' : sciOf (channels rowDb rowQuery) nodeP nodeQ = 10 := by decide
  apply (consistent_iff hfound).mpr
  exact ⟨_, hpath, _, _, hsci ▸ hfirst, hedge, by decide, rfl, by decide, by decide, _,
    hsci' ▸ hown⟩

/-- A second channel behind the own one, disabled, stands before the other. -/
def parallelDb : RouteDb where
  selfs := [⟨10, true, nodeQ⟩]
  anno := some [.anno 20 nodeQ nodeR, .upd 20 false (some { openUpdate with disable := true }),
    .anno 21 nodeQ nodeR, .upd 21 false (some openUpdate)]
  routeskip := fun _ => .none

def parallelHops : List HopDatain :=
  [⟨10, 1001100, 540, nodeP⟩, ⟨20, 1000000, 500, nodeQ⟩, ⟨0, 1000000, 500, nodeR⟩]

theorem inRow_ne {edges : List Edge} {start vtx : Bytes} (hvtx : inRow edges start vtx ≠ vtx) :
    vtx = nodeR ∨ vtx = nodeQ := by
  by_contra hnot
  rw [not_or] at hnot
  rw [inRow, if_neg hnot.1, if_neg hnot.2] at hvtx
  exact hvtx rfl

theorem inRow_tree : ShortestPathTree (graph parallelDb rowQuery) nodeP
    (inRow (graph parallelDb rowQuery) nodeP) := by
  have hedges : graph parallelDb rowQuery = [⟨nodeP, nodeQ, 0, 0, 0, 0⟩,
      ⟨nodeQ, nodeP, 0, 0, 0, 0⟩, ⟨nodeQ, nodeR, 1000, 100, 40, 1100⟩] := by decide
  rw [hedges]
  constructor
  · decide
  · intro vtx hvtx
    rcases inRow_ne hvtx with rfl | rfl
    · exact ⟨_, .step (by decide) (.step (by decide) .root)⟩
    · exact ⟨_, .step (by decide) .root⟩
  · refine ⟨fun vtx => if vtx = nodeR then 1100 else 0, by decide, ?_, by decide⟩
    intro vtx hvtx
    rcases inRow_ne hvtx with rfl | rfl
    · decide
    · decide

/-- Node R is reached over the open channel only, but the disabled one is written. -/
theorem parallelHops_not_consistent :
    ShortestPathTree (graph parallelDb rowQuery) nodeP (inRow (graph parallelDb rowQuery) nodeP) ∧
      lnRoutingCalculate inRow parallelDb rowQuery 3 = some (.ok parallelHops) ∧
      ¬ Consistent parallelDb rowQuery parallelHops := by
  have hchannels : channels parallelDb rowQuery =
      [⟨10, ⟨nodeP, 0, 0, 0, .none⟩, ⟨nodeQ, 0, 0, 0, .none⟩⟩,
        ⟨20, NodeInfo.unset nodeQ .none, NodeInfo.unset nodeR .none⟩,
        ⟨21, ⟨nodeQ, 40, 1000, 100, .none⟩, NodeInfo.unset nodeR .none⟩] := by decide
  refine ⟨inRow_tree, by decide, ?_⟩
  intro hconsistent
  obtain ⟨_, _, _, _, ⟨info, channel, hmem, hid, hinfo, hset⟩, _⟩ := hconsistent.hops
  rw [hchannels] at hmem
  have hdisabled : channel = ⟨20, NodeInfo.unset nodeQ .none, NodeInfo.unset nodeR .none⟩ := by
    simp only [List.mem_cons, List.not_mem_nil, or_false] at hmem
    rcases hmem with rfl | rfl | rfl
    · exact absurd hid (by decide)
    · rfl
    · exact absurd hid (by decide)
  subst hdisabled
  rcases hinfo with ⟨rfl, _⟩ | ⟨rfl, _⟩
  · exact hset rfl
  · exact hset rfl

end Detour

end Routing

end Ptarmigan
