/-
A node with its channels: the callbacks of `lnapp` by which a channel reserves, starts
and resolves HTLCs on other channels.
-/
import Ptarmigan.SlotChange

namespace Ptarmigan

open TransitionSystem

/-- The channels of a node (`lnapp_conf_t`), and for each HTLC id of each channel the
origin that `ln_add_htlc_set_fwd` recorded when the HTLC was forwarded to it: the
`short_channel_id` and the slot of the channel it came from. -/
structure Node where
  channels : List ChannelState
  origin : Nat → Nat → Option (UInt64 × HtlcIdx)

namespace Node

/-- `ptarmd_search_connected_cnl`. -/
def searchConnectedCnl (node : Node) (shortChannelId : UInt64) : Option Nat :=
  node.channels.findIdx? fun chan =>
    chan.running && chan.self.shortChannelId == shortChannelId

/-- `ptarmd_search_transferable_cnl`. -/
def searchTransferableCnl (node : Node) (shortChannelId : UInt64) : Option Nat :=
  (node.searchConnectedCnl shortChannelId).filter fun pos =>
    (node.channels[pos]?).any fun chan => chan.self.status == .normal

def setChannel (node : Node) (pos : Nat) (chan : ChannelState) : Node :=
  { node with channels := node.channels.set pos chan }

/-- An event that a callback brings to the channel with the given `short_channel_id`. -/
def request (crypto : Crypto) (node : Node) (shortChannelId : UInt64) (ev : ChannelEvent) :
    Node :=
  match node.searchTransferableCnl shortChannelId with
  | none => node
  | some pos =>
      match (node.channels[pos]?).bind fun chan => channelNext crypto chan (.event ev) with
      | none => node
      | some chan => node.setChannel pos chan

end Node

/-- What a callback asks another channel to do: `cb_fwd_addhtlc_start`,
`cbsub_fulfill_backwind` and `cbsub_fail_backwind`.  A `prev_short_channel_id` of zero
means that the payment started here. -/
def Effect.requested : Effect → Option (UInt64 × ChannelEvent)
  | .fwdAddhtlcStart shortChannelId idx => some (shortChannelId, .startFwd idx)
  | .fulfillHtlcRecv prevShortChannelId prevIdx preimage _ _ =>
      if prevShortChannelId ≠ 0 then some (prevShortChannelId, .fulfillHtlc prevIdx preimage)
      else none
  | .failHtlcRecv prevShortChannelId prevIdx reason _ _ =>
      if prevShortChannelId ≠ 0 then some (prevShortChannelId, .failHtlc prevIdx reason)
      else none
  | _ => none

namespace Node

/-- The callbacks of a handler, in their order. -/
def callbacks (crypto : Crypto) (node : Node) (trace : List Effect) : Node :=
  (trace.filterMap Effect.requested).foldl
    (fun node req => node.request crypto req.1 req.2) node

/-- What `cbsub_add_htlc_forward` is called with: the slot of the received HTLC, what it
holds, the `short_channel_id` of the next channel and the request made there. -/
structure ForwardCall where
  idx : HtlcIdx
  htlc : LnUpdateAddHtlc
  shortChannelId : UInt64
  req : AddHtlcRequest

/-- The call of `cbsub_add_htlc_forward` that an event leads to. -/
def forwardCall (chan : ChannelState) : ChannelEvent → Option ForwardCall
  | .recv channelId (.updateAddHtlc id amountMsat paymentSha256 cltvExpiry packet) env =>
      match env.onion.verdict with
      | .forward shortChannelId amtToForward outgoingCltvValue =>
          if chan.running && chan.self.initFlag.exchanged && !chan.self.shutdownFlag.send then
            (acceptedSlot chan.self channelId id amountMsat paymentSha256 cltvExpiry
              packet).map fun idx =>
                let htlc := (chan.self.cnlAddHtlc idx).read id amountMsat paymentSha256
                  cltvExpiry packet
                { idx
                  htlc := htlc.setFlag fun flag => { flag with addhtlc := .recv }
                  shortChannelId
                  req :=
                    { packet := env.onion.nextOnion
                      amountMsat := amtToForward
                      cltvValue := outgoingCltvValue
                      paymentHash := paymentSha256
                      prevShortChannelId := chan.self.shortChannelId
                      prevIdx := idx
                      sharedSecrets := env.onion.sharedSecret } }
          else none
      | _ => none
  | _ => none

/-- The next channel answered as the environment of the event says. -/
def answers (ev : ChannelEvent) (reserved : Option HtlcIdx) : Bool :=
  match ev, reserved with
  | .recv _ _ env, some idx => env.answer == .accepted idx
  | .recv _ _ env, none =>
      match env.answer with
      | .accepted _ => false
      | _ => true
  | _, _ => false

/-- `cbsub_add_htlc_forward` on the next channel: `ln_add_htlc_set_fwd`.  That may be the
channel which received the HTLC and holds it in its slot already. -/
def reserve (crypto : Crypto) (node : Node) (pos : Nat) (call : ForwardCall) :
    Option HtlcIdx × Node :=
  match node.searchTransferableCnl call.shortChannelId with
  | none => (none, node)
  | some next =>
      match node.channels[next]? with
      | none => (none, node)
      | some host =>
          let self := if next = pos then host.self.setSlot call.idx call.htlc else host.self
          let (reserved, after) := lnAddHtlcSetFwd crypto self call.req
          let after :=
            if next = pos then after.setSlot call.idx (host.self.cnlAddHtlc call.idx) else after
          (reserved,
            { channels := node.channels.set next { host with self := after }
              origin :=
                if reserved.isSome then
                  Function.update node.origin next
                    (Function.update (node.origin next) host.self.htlcIdNum
                      (some (call.req.prevShortChannelId, call.req.prevIdx)))
                else node.origin })

/-- A step of one channel with its callbacks. -/
def advance (crypto : Crypto) (node : Node) (pos : Nat) (label : ChannelLabel) : Option Node :=
  (node.channels[pos]?).bind fun chan =>
    (channelNext crypto chan label).map fun after =>
      (node.setChannel pos after).callbacks crypto (label.performed crypto chan.self)

end Node

/-- The events that reach a channel from outside of the node; the others come from
callbacks.  A payment that starts here has no previous channel. -/
def ChannelEvent.external : ChannelEvent → Bool
  | .addHtlc req => req.prevShortChannelId == 0
  | .addHtlcFwd _ => false
  | .startFwd _ => false
  | .fulfillHtlc .. => false
  | .failHtlc .. => false
  | _ => true

/-- `ln_short_channel_id_set_param`, for the `short_channel_id` of the mined funding
transaction. -/
def lnShortChannelIdSetParam (self : LnSelf) (shortChannelId : UInt64) : Outcome :=
  let self := { self with shortChannelId, status := .normal }
  ⟨true, self, [.selfSave self]⟩

/-- A step of one channel, or the confirmation of its funding transaction. -/
inductive NodeLabel
  | chan (pos : Nat) (label : ChannelLabel)
  | confirmed (pos : Nat) (shortChannelId : UInt64)

/-- No funding transaction is at one of these positions. -/
def noShortChannelId (shortChannelId : UInt64) : Bool :=
  shortChannelId == 0 || shortChannelId == finalShortChannelId

def nodeNext (crypto : Crypto) (node : Node) : NodeLabel → Option Node
  | .chan pos label =>
      if (label.ev).all ChannelEvent.external then
        (node.channels[pos]?).bind fun chan =>
          match (label.ev).bind fun ev => (Node.forwardCall chan ev).map (ev, ·) with
          | none => node.advance crypto pos label
          | some (ev, call) =>
              let (reserved, node) := node.reserve crypto pos call
              if Node.answers ev reserved then node.advance crypto pos label else none
      else none
  | .confirmed pos shortChannelId =>
      if noShortChannelId shortChannelId then none
      else
        (node.channels[pos]?).bind fun chan =>
          if chan.running then
            let outcome := lnShortChannelIdSetParam chan.self shortChannelId
            some (node.setChannel pos { chan.perform outcome.trace with self := outcome.self })
          else none

/-- The runs of a node whose channels have just been funded. -/
def nodeSystem (crypto : Crypto) : System Node NodeLabel where
  start node :=
    (∀ chan ∈ node.channels, (channelSystem crypto).start chan) ∧ node.origin = fun _ _ => none
  next := nodeNext crypto

/-! ### A node of symbols -/

/-- The funding output of the channel at a position. -/
def nodeOutpoint (pos : UInt8) : FundingOutpoint where
  txid := List.replicate 32 (pos + 1)
  txindex := 0

/-- The funding exchange of a fundee for the given funding output. -/
def symbolicFundeeAt (outpoint : FundingOutpoint) (fundingSat pushMsat : UInt64) :
    Option Outcome :=
  let fresh := lnInit (List.replicate 32 1) [] false
  let openCh := symbolicOpen fundingSat pushMsat
  (recvOpenChannel .symbolic fresh openCh symbolicPrm (symbolicKeys 1)).bind fun offered =>
    openedAsFundee .symbolic fresh openCh symbolicPrm (symbolicKeys 1) outpoint
      (symbolicPeerSignature (offered.setFunding .symbolic outpoint) 0)

theorem symbolicFundeeAt_done {outpoint : FundingOutpoint} {fundingSat pushMsat : UInt64}
    {outcome : Outcome} (hopened : symbolicFundeeAt outpoint fundingSat pushMsat = some outcome) :
    FundingDone .symbolic outcome := by
  simp only [symbolicFundeeAt, Option.bind_eq_some_iff] at hopened
  obtain ⟨_, _, hdone⟩ := hopened
  exact .fundee hdone

/-- A node with two channels that have just been funded, one half of the money on each
side. -/
def symbolicNode : Option Node :=
  (symbolicFundeeAt (nodeOutpoint 0) 1000000 500000000).bind fun first =>
    (symbolicFundeeAt (nodeOutpoint 1) 1000000 500000000).map fun second =>
      { channels := [.afterFunding first, .afterFunding second]
        origin := fun _ _ => none }

theorem symbolicNode_start {node : Node} (hnode : symbolicNode = some node) :
    (nodeSystem .symbolic).start node := by
  simp only [symbolicNode, Option.bind_eq_some_iff, Option.map_eq_some_iff] at hnode
  obtain ⟨first, hfirst, second, hsecond, rfl⟩ := hnode
  refine ⟨fun chan hmem => ?_, rfl⟩
  simp only [List.mem_cons, List.not_mem_nil, or_false] at hmem
  rcases hmem with rfl | rfl
  · exact ⟨first, symbolicFundeeAt_done hfirst, rfl⟩
  · exact ⟨second, symbolicFundeeAt_done hsecond, rfl⟩

/-- The script runs, as far as it is permitted, to a history that passes the check. -/
def symbolicNodeCheck (permits : Node → NodeLabel → Bool) (script : List (Node → NodeLabel))
    (check : Node → List Node → Bool) : Bool :=
  (symbolicNode.bind fun node =>
    (nodeSystem .symbolic).trail permits node [] script).any fun final => check final.1 final.2

theorem history_of_symbolicNodeCheck {permits : Node → NodeLabel → Bool}
    {script : List (Node → NodeLabel)} {check : Node → List Node → Bool}
    {allowed : Node → NodeLabel → Prop}
    (hallowed : ∀ choose ∈ script, ∀ before, permits before (choose before) = true →
      allowed before (choose before))
    (hcheck : symbolicNodeCheck permits script check = true) :
    ∃ (node : Node) (past : List Node),
      (nodeSystem Crypto.symbolic).HistoryUnder allowed (node :: past) ∧
        check node past = true := by
  simp only [symbolicNodeCheck, Option.any_eq_true, Option.bind_eq_some_iff] at hcheck
  obtain ⟨⟨node, past⟩, ⟨start, hstart, htrail⟩, hchecked⟩ := hcheck
  obtain ⟨hhistory, -⟩ :=
    System.history_of_trail hallowed (.start (symbolicNode_start hstart)) htrail
  exact ⟨node, past, hhistory, hchecked⟩

/-- All steps are permitted. -/
def permitAllNodes (_ : Node) (_ : NodeLabel) : Bool := true

theorem reachable_of_symbolicNodeCheck {script : List (Node → NodeLabel)}
    {check : Node → List Node → Bool}
    (hcheck : symbolicNodeCheck permitAllNodes script check = true) :
    ∃ (node : Node) (past : List Node),
      (nodeSystem Crypto.symbolic).Reachable node ∧ check node past = true := by
  have hallowed : ∀ choose ∈ script, ∀ before : Node,
      permitAllNodes before (choose before) = true →
        (System.AnyStep : Node → NodeLabel → Prop) before (choose before) :=
    fun _ _ _ _ => trivial
  obtain ⟨node, past, hhistory, hchecked⟩ := history_of_symbolicNodeCheck hallowed hcheck
  exact ⟨node, past, hhistory.reachableUnder, hchecked⟩

/-- A message that the channel at the position receives. -/
def nodeRecv (pos : UInt8) (msg : LnMsg) (env : RecvEnv) : NodeLabel :=
  .chan pos.toNat (.event (.recv (nodeOutpoint pos).txid msg env))

/-- The idle processing of the channel at the position. -/
def nodeIdle (pos : UInt8) (_ : Node) : NodeLabel :=
  .chan pos.toNat (.event .idle)

/-- The next `commitment_signed` of the peer of a channel, without HTLC outputs. -/
def nodeCommit (pos : UInt8) (node : Node) : NodeLabel :=
  let signature := (node.channels[pos.toNat]?).map fun chan =>
    symbolicPeerSignature chan.self (chan.self.commitLocal.commitNum + 1)
  nodeRecv pos (.commitmentSigned (signature.getD []) []) {}

/-- The next `revoke_and_ack` of the peer of a channel. -/
def nodeRevoke (pos : UInt8) (_ : Node) : NodeLabel :=
  nodeRecv pos (.revokeAndAck (symbolicKeys 2).perCommit [2, 7]) {}

end Ptarmigan
