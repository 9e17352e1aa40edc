/-
The resolution of a forwarded HTLC: which slot of which other channel is reached by the
callback of a received removal.
-/
import Ptarmigan.Forward

namespace Ptarmigan

open TransitionSystem

variable {crypto : Crypto} {self : LnSelf}

/-! ### Accepted removals -/

/-- The slot that a received removal is accepted for. -/
def removedSlot (crypto : Crypto) (self : LnSelf) (channelId : Bytes) (msg : LnMsg) :
    Option HtlcIdx :=
  if self.initFlag.exchanged && channelId == self.channelId then
    match msg with
    | .updateFulfillHtlc id preimage =>
        (findOffered self.cnlAddHtlc id).filter fun idx =>
          crypto.sha256 preimage == (self.cnlAddHtlc idx).paymentSha256
    | .updateFailHtlc id _ => findOffered self.cnlAddHtlc id
    | .updateFailMalformedHtlc id _ failureCode =>
        if failureCode &&& lnerrOnionBadonion = 0 then none else findOffered self.cnlAddHtlc id
    | _ => none
  else none

/-- The slot that a request of a callback resolves, and the removal it sets there. -/
def ChannelEvent.resolves : ChannelEvent → Option (HtlcIdx × LnDelhtlc)
  | .fulfillHtlc idx _ => some (idx, .fulfill)
  | .failHtlc idx _ => some (idx, .fail)
  | _ => none

/-- What the callbacks of the removal of a slot ask of the previous channel: a fulfilment is
for the slot the HTLC came from, a failure is for the slot it has here. -/
def backwardTarget (htlc : LnUpdateAddHtlc) (idx : HtlcIdx) (delHtlc : LnDelhtlc) :
    HtlcIdx × LnDelhtlc :=
  if delHtlc = .fulfill then (htlc.prevIdx, .fulfill) else (idx, .fail)

theorem findOffered_id {slots : Slots} {id : Nat} {idx : HtlcIdx}
    (hfind : findOffered slots id = some idx) : (slots idx).id = id := by
  have hfound := List.find?_some hfind
  simp only [Bool.and_eq_true, beq_iff_eq] at hfound
  exact hfound.1

/-- An accepted removal is for the first slot of an offered HTLC with that id. -/
theorem findOffered_of_removedSlot {channelId : Bytes} {msg : LnMsg} {id : Nat}
    {delHtlc : LnDelhtlc} {idx : HtlcIdx} (hmsg : msg.removal = some (id, delHtlc))
    (hremoved : removedSlot crypto self channelId msg = some idx) :
    findOffered self.cnlAddHtlc id = some idx := by
  unfold removedSlot at hremoved
  split at hremoved
  swap
  · cases hremoved
  cases msg with
  | updateFulfillHtlc _ preimage =>
      obtain ⟨rfl, rfl⟩ := Prod.mk.inj (Option.some.inj hmsg)
      exact (Option.filter_eq_some_iff.mp hremoved).1
  | updateFailHtlc _ reason =>
      obtain ⟨rfl, rfl⟩ := Prod.mk.inj (Option.some.inj hmsg)
      exact hremoved
  | updateFailMalformedHtlc _ sha256Onion failureCode =>
      obtain ⟨rfl, rfl⟩ := Prod.mk.inj (Option.some.inj hmsg)
      simp only at hremoved
      split at hremoved
      · cases hremoved
      · exact hremoved
  | _ => cases hmsg

/-- A removal that is accepted sets the flags of its slot and calls back once. -/
theorem handle_removed {channelId : Bytes} {msg : LnMsg} (env : RecvEnv) {id : Nat}
    {delHtlc : LnDelhtlc} {idx : HtlcIdx} (hmsg : msg.removal = some (id, delHtlc))
    (hremoved : removedSlot crypto self channelId msg = some idx) :
    ∃ effect ev, handle crypto self (.recv channelId msg env) =
        ⟨true, self.setSlot idx ((self.cnlAddHtlc idx).clearHtlcComrevflag delHtlc), [effect]⟩ ∧
      effect.ends = false ∧
      effect.requested = (if (self.cnlAddHtlc idx).prevShortChannelId ≠ 0 then
        some ((self.cnlAddHtlc idx).prevShortChannelId, ev) else none) ∧
      ev.resolves = some (backwardTarget (self.cnlAddHtlc idx) idx delHtlc) := by
  have hfind := findOffered_of_removedSlot hmsg hremoved
  unfold removedSlot at hremoved
  split at hremoved
  swap
  · cases hremoved
  rename_i hready
  simp only [Bool.and_eq_true, beq_iff_eq] at hready
  obtain ⟨hinit, rfl⟩ := hready
  cases msg with
  | updateFulfillHtlc _ preimage =>
      obtain ⟨rfl, rfl⟩ := Prod.mk.inj (Option.some.inj hmsg)
      have hhash := (Option.filter_eq_some_iff.mp hremoved).2
      refine ⟨.fulfillHtlcRecv (self.cnlAddHtlc idx).prevShortChannelId
        (self.cnlAddHtlc idx).prevIdx preimage (self.cnlAddHtlc idx).id
        (self.cnlAddHtlc idx).amountMsat, .fulfillHtlc (self.cnlAddHtlc idx).prevIdx preimage,
        ?_, rfl, rfl, rfl⟩
      simp [handle, lnRecv, hinit, recvFunc, recvUpdateFulfillHtlc, hfind, beq_iff_eq.mp hhash]
  | updateFailHtlc _ reason =>
      obtain ⟨rfl, rfl⟩ := Prod.mk.inj (Option.some.inj hmsg)
      refine ⟨.failHtlcRecv (self.cnlAddHtlc idx).prevShortChannelId idx reason
        (self.cnlAddHtlc idx).id 0, .failHtlc idx reason, ?_, rfl, rfl, rfl⟩
      simp [handle, lnRecv, hinit, recvFunc, recvUpdateFailHtlc, hfind]
  | updateFailMalformedHtlc _ sha256Onion failureCode =>
      obtain ⟨rfl, rfl⟩ := Prod.mk.inj (Option.some.inj hmsg)
      simp only at hremoved
      split at hremoved
      · cases hremoved
      rename_i hcode
      refine ⟨.failHtlcRecv (self.cnlAddHtlc idx).prevShortChannelId idx
        ([(failureCode >>> 8).toUInt8, failureCode.toUInt8] ++ sha256Onion)
        (self.cnlAddHtlc idx).id failureCode, .failHtlc idx _, ?_, rfl, rfl, rfl⟩
      simp [handle, lnRecv, hinit, recvFunc, recvUpdateFailMalformedHtlc, hfind, hcode]
  | _ => cases hmsg

/-- A removal that is not accepted calls nothing back. -/
theorem handle_not_removed {channelId : Bytes} {msg : LnMsg} {env : RecvEnv} {id : Nat}
    {delHtlc : LnDelhtlc} (hmsg : msg.removal = some (id, delHtlc))
    (hremoved : removedSlot crypto self channelId msg = none) :
    (handle crypto self (.recv channelId msg env)).trace = [] := by
  simp only [handle, lnRecv]
  split
  swap
  · rfl
  rename_i hinit
  simp only [removedSlot, hinit, Bool.true_and, beq_iff_eq] at hremoved
  cases msg with
  | updateFulfillHtlc _ preimage =>
      simp only [recvFunc, recvUpdateFulfillHtlc]
      split
      · rfl
      rename_i hid
      rw [if_pos (not_ne_iff.mp hid)] at hremoved
      split
      · rfl
      · rename_i idx hfind
        simp only [hfind, Option.filter_some, ite_eq_right_iff, reduceCtorEq, imp_false,
          beq_iff_eq] at hremoved
        rw [if_neg hremoved]
  | updateFailHtlc _ reason =>
      simp only [recvFunc, recvUpdateFailHtlc]
      split
      · rfl
      rename_i hid
      rw [if_pos (not_ne_iff.mp hid)] at hremoved
      simp only at hremoved
      rw [hremoved]
      rfl
  | updateFailMalformedHtlc _ sha256Onion failureCode =>
      simp only [recvFunc, recvUpdateFailMalformedHtlc]
      split
      · rfl
      rename_i hid
      rw [if_pos (not_ne_iff.mp hid)] at hremoved
      split
      · rfl
      rename_i hcode
      simp only [if_neg hcode] at hremoved
      rw [hremoved]
  | _ => cases hmsg

theorem channelNext_event (crypto : Crypto) {chan : ChannelState} {ev : ChannelEvent}
    (hrunning : chan.running = true) (hev : ev ≠ .reestablished) :
    ∃ after, channelNext crypto chan (.event ev) = some after ∧
      after.self = (handle crypto chan.self ev).self ∧
      after.running = (handle crypto chan.self ev).continues := by
  have henabled : chan.enabled ev = true := by
    simp [ChannelState.enabled, hrunning, hev]
  simp only [channelNext, if_pos henabled]
  exact ⟨_, rfl, rfl, rfl⟩

/-! ### The channels that are reached -/

/-- What the search for a channel looks at. -/
def ChannelState.address (chan : ChannelState) : Bool × UInt64 × Bool :=
  (chan.running, chan.self.shortChannelId, chan.self.status == .normal)

namespace Node

theorem searchTransferableCnl_address (node : Node) (scid : UInt64) :
    node.searchTransferableCnl scid =
      ((node.channels.map ChannelState.address).findIdx? fun address =>
        address.1 && address.2.1 == scid).filter fun pos =>
          ((node.channels.map ChannelState.address)[pos]?).any fun address => address.2.2 := by
  rw [searchTransferableCnl, searchConnectedCnl, List.findIdx?_map]
  refine congrArg₂ _ (funext fun pos => ?_) rfl
  rw [List.getElem?_map, Option.any_map]
  rfl

/-- A step of a channel that keeps what the search looks at. -/
theorem searchTransferableCnl_setChannel {node : Node} {pos : Nat} {chan after : ChannelState}
    (hchan : node.channels[pos]? = some chan) (haddress : after.address = chan.address)
    (scid : UInt64) :
    (node.setChannel pos after).searchTransferableCnl scid = node.searchTransferableCnl scid := by
  have hmap : (node.setChannel pos after).channels.map ChannelState.address =
      node.channels.map ChannelState.address := by
    rw [setChannel, List.map_set, haddress]
    apply List.ext_getElem?
    intro other
    rw [List.getElem?_set, List.length_map]
    by_cases hpos : pos = other
    · subst hpos
      have hlt := (List.getElem?_eq_some_iff.mp hchan).1
      rw [if_pos rfl, if_pos hlt, List.getElem?_map, hchan]
      rfl
    · rw [if_neg hpos]
  rw [searchTransferableCnl_address, searchTransferableCnl_address, hmap]

theorem channel_of_searchTransferableCnl {node : Node} {scid : UInt64} {pos : Nat}
    (hsearch : node.searchTransferableCnl scid = some pos) :
    ∃ chan, node.channels[pos]? = some chan ∧ chan.running = true ∧
      chan.self.shortChannelId = scid := by
  obtain ⟨hconnected, hnormal⟩ := Option.filter_eq_some_iff.mp hsearch
  obtain ⟨hlt, hfound, -⟩ := List.findIdx?_eq_some_iff_getElem.mp hconnected
  simp only [Bool.and_eq_true, beq_iff_eq] at hfound
  exact ⟨_, List.getElem?_eq_getElem hlt, hfound.1, hfound.2⟩

/-- The request of a callback to resolve an HTLC rewrites one slot of the channel found. -/
theorem request_resolves (crypto : Crypto) {node : Node} {scid : UInt64}
    {ev : ChannelEvent} {idx : HtlcIdx}
    {delHtlc : LnDelhtlc} {pos : Nat} {chan : ChannelState}
    (hresolves : ev.resolves = some (idx, delHtlc))
    (hsearch : node.searchTransferableCnl scid = some pos)
    (hchan : node.channels[pos]? = some chan) :
    ∃ after, node.request crypto scid ev = node.setChannel pos after ∧
      (∀ other, other ≠ idx → after.self.cnlAddHtlc other = chan.self.cnlAddHtlc other) ∧
      ((chan.self.cnlAddHtlc idx).flag.comrevAll = true →
        (after.self.cnlAddHtlc idx).flag.delhtlc = delHtlc) := by
  obtain ⟨chan', hchan', hrunning, -⟩ := channel_of_searchTransferableCnl hsearch
  obtain rfl := Option.some.inj (hchan'.symm.trans hchan)
  have hev : ev ≠ .reestablished := by
    rintro rfl
    cases hresolves
  obtain ⟨after, hnext, hafter, -⟩ := channelNext_event crypto hrunning hev
  refine ⟨after, ?_, ?_⟩
  · simp only [request, hsearch, hchan, Option.bind_some, hnext]
  rw [hafter]
  cases ev with
  | fulfillHtlc target preimage =>
      obtain ⟨rfl, rfl⟩ := Prod.mk.inj (Option.some.inj hresolves)
      constructor
      · intro other hother
        simp [handle, lnFulfillHtlcSet, hother]
      · intro hall
        simp [handle, lnFulfillHtlcSet, LnUpdateAddHtlc.clearHtlcComrevflag,
          LnHtlcflag.clearComrev, hall]
  | failHtlc target reason =>
      obtain ⟨rfl, rfl⟩ := Prod.mk.inj (Option.some.inj hresolves)
      constructor
      · intro other hother
        simp [handle, lnFailHtlcSet, hother]
      · intro _
        simp [handle, lnFailHtlcSet]
  | _ => cases hresolves

/-- The slots that the callbacks of an event reach: the channel, the slot, and the removal
that is set there. -/
def reached (crypto : Crypto) (node : Node) (pos : Nat) (ev : ChannelEvent) :
    List (Nat × HtlcIdx × LnDelhtlc) :=
  ((node.channels[pos]?).map fun chan =>
    (handle crypto chan.self ev).trace.filterMap fun effect =>
      effect.requested.bind fun req =>
        (node.searchTransferableCnl req.1).bind fun other =>
          req.2.resolves.map fun target => (other, target)).getD []

end Node

/-- The previous channel of the HTLC in a slot, when it can be reached. -/
def Node.upstream (node : Node) (htlc : LnUpdateAddHtlc) : Option Nat :=
  if htlc.prevShortChannelId ≠ 0 then node.searchTransferableCnl htlc.prevShortChannelId else none

/-- A removal received for an HTLC id on a channel resolves the HTLC whose forwarding created
it: only that slot is reached, it is reached when its channel can be, a pending HTLC there
gets the removal, and every other slot of the other channels is as it was. -/
structure ResolvesOrigin (crypto : Crypto) (node : Node) (pos : Nat) (chan : ChannelState)
    (channelId : Bytes) (msg : LnMsg) (env : RecvEnv) (id : Nat) (delHtlc : LnDelhtlc)
    (after : Node) : Prop where
  origin : ∀ other idx del, (other, idx, del) ∈ node.reached crypto pos (.recv channelId msg env) →
    (del = .fulfill ↔ delHtlc = .fulfill) ∧ (del = .fail ↔ delHtlc ≠ .fulfill) ∧
      ∃ prev, node.channels[other]? = some prev ∧
        node.origin pos id = some (prev.self.shortChannelId, idx)
  reaches : ∀ idx other, removedSlot crypto chan.self channelId msg = some idx →
    node.upstream (chan.self.cnlAddHtlc idx) = some other →
      ∃ target, (other, target) ∈ node.reached crypto pos (.recv channelId msg env)
  set : ∀ other idx del prev,
    (other, idx, del) ∈ node.reached crypto pos (.recv channelId msg env) →
    other ≠ pos → node.channels[other]? = some prev →
      (prev.self.cnlAddHtlc idx).flag.comrevAll = true →
        ∃ post, after.channels[other]? = some post ∧
          (post.self.cnlAddHtlc idx).flag.delhtlc = del
  frame : ∀ other idx prev post,
    (∀ del, (other, idx, del) ∉ node.reached crypto pos (.recv channelId msg env)) →
      other ≠ pos → node.channels[other]? = some prev → after.channels[other]? = some post →
        post.self.cnlAddHtlc idx = prev.self.cnlAddHtlc idx

/-- A failure for an HTLC whose previous channel can be reached is for one that has the same
slot on both channels. -/
def FailsSameSlot (crypto : Crypto) (node : Node) (chan : ChannelState) (channelId : Bytes)
    (msg : LnMsg) (delHtlc : LnDelhtlc) : Prop :=
  ∀ idx, removedSlot crypto chan.self channelId msg = some idx → delHtlc ≠ .fulfill →
    (node.upstream (chan.self.cnlAddHtlc idx)).isSome →
      (chan.self.cnlAddHtlc idx).prevIdx = idx

theorem reached_of_not_removed {node : Node} {pos : Nat} {chan : ChannelState} {channelId : Bytes}
    {msg : LnMsg} {env : RecvEnv} {id : Nat} {delHtlc : LnDelhtlc}
    (hchan : node.channels[pos]? = some chan) (hmsg : msg.removal = some (id, delHtlc))
    (hremoved : removedSlot crypto chan.self channelId msg = none) :
    node.reached crypto pos (.recv channelId msg env) = [] := by
  rw [Node.reached, hchan, Option.map_some, handle_not_removed hmsg hremoved]
  rfl

theorem reached_of_removed {node : Node} {pos : Nat} {chan : ChannelState} {channelId : Bytes}
    {msg : LnMsg} {env : RecvEnv} {id : Nat} {delHtlc : LnDelhtlc} {idx : HtlcIdx}
    (hchan : node.channels[pos]? = some chan) (hmsg : msg.removal = some (id, delHtlc))
    (hremoved : removedSlot crypto chan.self channelId msg = some idx) :
    node.reached crypto pos (.recv channelId msg env) =
      ((node.upstream (chan.self.cnlAddHtlc idx)).map fun other =>
        (other, backwardTarget (chan.self.cnlAddHtlc idx) idx delHtlc)).toList := by
  obtain ⟨effect, ev, hhandle, -, hrequested, hresolves⟩ :=
    handle_removed env hmsg hremoved
  rw [Node.reached, hchan, Option.map_some, hhandle, Node.upstream]
  by_cases hprev : (chan.self.cnlAddHtlc idx).prevShortChannelId ≠ 0
  · rw [if_pos hprev] at hrequested ⊢
    cases hsearch : node.searchTransferableCnl (chan.self.cnlAddHtlc idx).prevShortChannelId <;>
      simp [hrequested, hsearch, hresolves]
  · rw [if_neg hprev] at hrequested ⊢
    simp [hrequested]

/-- The node after a received removal: the channel has handled it, and the slot reached has
been resolved. -/
theorem nodeNext_removal {node after : Node} {pos : Nat} {chan : ChannelState} {channelId : Bytes}
    {msg : LnMsg} {env : RecvEnv} {id : Nat} {delHtlc : LnDelhtlc}
    (hchan : node.channels[pos]? = some chan) (hmsg : msg.removal = some (id, delHtlc))
    (hnext : nodeNext crypto node (.chan pos (.event (.recv channelId msg env))) = some after) :
    ∃ chan', after = (node.setChannel pos chan').callbacks crypto
        (handle crypto chan.self (.recv channelId msg env)).trace ∧
      chan'.self = (handle crypto chan.self (.recv channelId msg env)).self ∧
      (∀ idx, removedSlot crypto chan.self channelId msg = some idx →
        chan'.address = chan.address) := by
  have hcall : Node.forwardCall chan (.recv channelId msg env) = none := by
    cases msg <;> first | rfl | cases hmsg
  simp only [nodeNext, ChannelLabel.ev, Option.all_some, ChannelEvent.external, if_true,
    hchan, Option.bind_some, hcall, Option.map_none, Node.advance] at hnext
  obtain ⟨chan', hstep, rfl⟩ := Option.map_eq_some_iff.mp hnext
  simp only [channelNext] at hstep
  split at hstep
  swap
  · cases hstep
  rename_i henabled
  obtain rfl := Option.some.inj hstep
  refine ⟨_, rfl, rfl, fun idx hremoved => ?_⟩
  obtain ⟨effect, ev, hhandle, hends, -⟩ := handle_removed env hmsg hremoved
  have hrunning : chan.running = true := (Bool.and_eq_true_iff.mp henabled).1
  simp only [ChannelState.address, hhandle, Outcome.continues, List.any_cons, hends, hrunning]
  rfl

/-- The callbacks of a received removal are at most one request. -/
theorem callbacks_removal (crypto : Crypto) (self : LnSelf) (node : Node) (channelId : Bytes)
    {msg : LnMsg} (env : RecvEnv) {id : Nat} {delHtlc : LnDelhtlc}
    (hmsg : msg.removal = some (id, delHtlc)) :
    (∃ idx ev, removedSlot crypto self channelId msg = some idx ∧
        (self.cnlAddHtlc idx).prevShortChannelId ≠ 0 ∧
        ev.resolves = some (backwardTarget (self.cnlAddHtlc idx) idx delHtlc) ∧
        node.callbacks crypto (handle crypto self (.recv channelId msg env)).trace =
          node.request crypto (self.cnlAddHtlc idx).prevShortChannelId ev) ∨
      (∀ idx, removedSlot crypto self channelId msg = some idx →
        (self.cnlAddHtlc idx).prevShortChannelId = 0) ∧
      node.callbacks crypto (handle crypto self (.recv channelId msg env)).trace = node := by
  cases hremoved : removedSlot crypto self channelId msg with
  | none =>
      right
      rw [handle_not_removed hmsg hremoved]
      constructor
      · intro idx hidx
        cases hidx
      · rfl
  | some idx =>
      obtain ⟨effect, ev, hhandle, -, hrequested, hresolves⟩ :=
        handle_removed env hmsg hremoved
      rw [hhandle]
      by_cases hprev : (self.cnlAddHtlc idx).prevShortChannelId ≠ 0
      · left
        refine ⟨idx, ev, rfl, hprev, hresolves, ?_⟩
        simp [Node.callbacks, hrequested, hprev]
      · right
        constructor
        · intro other hother
          obtain rfl := Option.some.inj hother
          exact not_ne_iff.mp hprev
        · simp [Node.callbacks, hrequested, hprev]

/-- The slots that are not reached are kept, and the one that is reached is resolved. -/
theorem removal_frame {node after : Node} {pos : Nat} {chan : ChannelState} {channelId : Bytes}
    {msg : LnMsg} {env : RecvEnv} {id : Nat} {delHtlc : LnDelhtlc}
    (hchan : node.channels[pos]? = some chan) (hmsg : msg.removal = some (id, delHtlc))
    (hnext : nodeNext crypto node (.chan pos (.event (.recv channelId msg env))) = some after)
    {other : Nat} (hother : other ≠ pos) {prev : ChannelState}
    (hprev : node.channels[other]? = some prev) (idx : HtlcIdx) :
    ∃ post, after.channels[other]? = some post ∧
      ((∀ del, (other, idx, del) ∉ node.reached crypto pos (.recv channelId msg env)) →
        post.self.cnlAddHtlc idx = prev.self.cnlAddHtlc idx) ∧
      ∀ del, (other, idx, del) ∈ node.reached crypto pos (.recv channelId msg env) →
        (prev.self.cnlAddHtlc idx).flag.comrevAll = true →
          (post.self.cnlAddHtlc idx).flag.delhtlc = del := by
  obtain ⟨chan', rfl, -, haddress⟩ := nodeNext_removal hchan hmsg hnext
  have hkept : (node.setChannel pos chan').channels[other]? = some prev := by
    rw [Node.setChannel, List.getElem?_set_ne (Ne.symm hother)]
    exact hprev
  rcases callbacks_removal crypto chan.self (node.setChannel pos chan') channelId env hmsg with
    ⟨slot, ev, hremoved, hscid, hresolves, hcallbacks⟩ | ⟨hlocal, hcallbacks⟩
  · have hsearch := Node.searchTransferableCnl_setChannel hchan (haddress slot hremoved)
      (chan.self.cnlAddHtlc slot).prevShortChannelId
    rw [hcallbacks, reached_of_removed hchan hmsg hremoved, Node.upstream, if_pos hscid, ← hsearch]
    generalize backwardTarget (chan.self.cnlAddHtlc slot) slot delHtlc = resolved at hresolves ⊢
    obtain ⟨resolvedIdx, resolvedDel⟩ := resolved
    cases hfound : (node.setChannel pos chan').searchTransferableCnl
        (chan.self.cnlAddHtlc slot).prevShortChannelId with
    | none =>
        refine ⟨prev, ?_, fun _ => rfl, fun del hmem => absurd hmem List.not_mem_nil⟩
        simpa only [Node.request, hfound] using hkept
    | some target =>
        obtain ⟨host, hhost, -⟩ := Node.channel_of_searchTransferableCnl hfound
        obtain ⟨post, hrequest, hframe, hset⟩ :=
          Node.request_resolves crypto hresolves hfound hhost
        rw [hrequest]
        by_cases htarget : target = other
        · subst htarget
          obtain rfl := Option.some.inj (hhost.symm.trans hkept)
          refine ⟨post, ?_, fun hnot => ?_, fun del hmem hall => ?_⟩
          · have hlt := (List.getElem?_eq_some_iff.mp hhost).1
            rw [Node.setChannel, List.getElem?_set_self hlt]
          · apply hframe
            rintro rfl
            exact hnot resolvedDel (List.mem_singleton_self _)
          · obtain ⟨rfl, rfl⟩ := Prod.mk.inj (Prod.mk.inj (List.mem_singleton.mp hmem)).2
            exact hset hall
        · refine ⟨prev, ?_, fun _ => rfl, fun del hmem => ?_⟩
          · rw [Node.setChannel, List.getElem?_set_ne htarget]
            exact hkept
          · exact absurd (Prod.mk.inj (List.mem_singleton.mp hmem)).1.symm htarget
  · rw [hcallbacks]
    refine ⟨prev, hkept, fun _ => rfl, fun del hmem => ?_⟩
    cases hremoved : removedSlot crypto chan.self channelId msg with
    | none =>
        rw [reached_of_not_removed hchan hmsg hremoved] at hmem
        cases hmem
    | some slot =>
        rw [reached_of_removed hchan hmsg hremoved, Node.upstream,
          if_neg (not_not_intro (hlocal slot hremoved))] at hmem
        cases hmem

/-- In every reachable state a received removal resolves the HTLC it came from if and only if
it is no failure for an HTLC with another slot there. -/
theorem resolvesOrigin_iff_failsSameSlot {node after : Node} {pos : Nat} {chan : ChannelState}
    {channelId : Bytes} {msg : LnMsg} {env : RecvEnv} {id : Nat} {delHtlc : LnDelhtlc}
    (hreach : (nodeSystem crypto).Reachable node) (hchan : node.channels[pos]? = some chan)
    (hmsg : msg.removal = some (id, delHtlc))
    (hnext : (nodeSystem crypto).next node (.chan pos (.event (.recv channelId msg env))) =
      some after) :
    ResolvesOrigin crypto node pos chan channelId msg env id delHtlc after ↔
      FailsSameSlot crypto node chan channelId msg delHtlc := by
  have horigins := nodeOrigins_of_reachable hreach
  -- an HTLC whose previous channel can be reached is recorded with its origin
  have hrecorded : ∀ idx other, removedSlot crypto chan.self channelId msg = some idx →
      node.upstream (chan.self.cnlAddHtlc idx) = some other →
      ∃ prev, node.channels[other]? = some prev ∧
        node.origin pos id =
          some (prev.self.shortChannelId, (chan.self.cnlAddHtlc idx).prevIdx) := by
    intro idx other hremoved hupstream
    rw [Node.upstream] at hupstream
    split at hupstream
    swap
    · cases hupstream
    rename_i hprev
    obtain ⟨prev, hother, -, hscid⟩ := Node.channel_of_searchTransferableCnl hupstream
    have hfinal := (horigins other prev hother).self.scid
    rw [hscid] at hfinal
    have hslot := (horigins pos chan hchan).self.slots idx ⟨hprev, hfinal⟩
    rw [findOffered_id (findOffered_of_removedSlot hmsg hremoved)] at hslot
    exact ⟨prev, hother, hscid ▸ hslot.2.2⟩
  constructor
  · intro hresolves idx hremoved hfails hsome
    obtain ⟨other, hupstream⟩ := Option.isSome_iff_exists.mp hsome
    obtain ⟨prev, hother, horigin⟩ := hrecorded idx other hremoved hupstream
    have hmem : (other, idx, LnDelhtlc.fail) ∈
        node.reached crypto pos (.recv channelId msg env) := by
      rw [reached_of_removed hchan hmsg hremoved, hupstream, backwardTarget, if_neg hfails]
      exact List.mem_singleton_self _
    obtain ⟨-, -, prev', -, horigin'⟩ := hresolves.origin _ _ _ hmem
    exact (Prod.mk.inj (Option.some.inj (horigin.symm.trans horigin'))).2
  · intro hsame
    refine ⟨?_, ?_, ?_, ?_⟩
    · intro other idx del hmem
      cases hremoved : removedSlot crypto chan.self channelId msg with
      | none =>
          rw [reached_of_not_removed hchan hmsg hremoved] at hmem
          cases hmem
      | some slot =>
          rw [reached_of_removed hchan hmsg hremoved, Option.mem_toList] at hmem
          obtain ⟨target, hupstream, hpair⟩ := Option.map_eq_some_iff.mp hmem
          obtain ⟨rfl, htarget⟩ := Prod.mk.inj hpair
          obtain ⟨prev, hother, horigin⟩ := hrecorded slot target hremoved hupstream
          have hfails := hsame slot hremoved
          rw [hupstream] at hfails
          rw [backwardTarget] at htarget
          split at htarget
          · rename_i hfulfill
            obtain ⟨rfl, rfl⟩ := Prod.mk.inj htarget
            exact ⟨by simp [hfulfill], by simp [hfulfill], prev, hother, horigin⟩
          · rename_i hfulfill
            obtain ⟨rfl, rfl⟩ := Prod.mk.inj htarget
            refine ⟨by simp [hfulfill], by simp [hfulfill], prev, hother, ?_⟩
            rw [horigin, hfails hfulfill rfl]
    · intro idx other hremoved hupstream
      refine ⟨backwardTarget (chan.self.cnlAddHtlc idx) idx delHtlc, ?_⟩
      rw [reached_of_removed hchan hmsg hremoved, hupstream]
      exact List.mem_singleton_self _
    · intro other idx del prev hmem hother hprev hall
      obtain ⟨post, hpost, -, hset⟩ := removal_frame hchan hmsg hnext hother hprev idx
      exact ⟨post, hpost, hset del hmem hall⟩
    · intro other idx prev post hnot hother hprev hafter
      obtain ⟨post', hpost, hframe, -⟩ := removal_frame hchan hmsg hnext hother hprev idx
      obtain rfl := Option.some.inj (hpost.symm.trans hafter)
      exact hframe hnot

/-- The first channel receives two HTLCs, one for this node and one that it forwards to the
second channel, where it is offered and committed. -/
def twoHtlcsScript : List (Node → NodeLabel) :=
  [ fun _ => .confirmed 0 11,
    fun _ => .confirmed 1 12,
    fun _ => nodeRecv 0 (.updateAddHtlc 0 500000 [8] 200 []) { onion := { verdict := .final [8] } },
    fun _ => nodeRecv 0 (.updateAddHtlc 1 500000 [9] 200 [])
      { onion := { verdict := .forward 12 400000 100 }, answer := .accepted 0 },
    nodeCommit 0, nodeIdle 0, nodeRevoke 0, nodeIdle 0,
    nodeIdle 1, nodeIdle 1, nodeRevoke 1, nodeCommit 1 ]

/-- A fulfilment reaches the slot the HTLC came from, which is not the one it has here. -/
theorem resolvesOrigin_fulfill :
    ∃ (node after : Node) (chan : ChannelState),
      node.reached .symbolic 1 (.recv (nodeOutpoint 1).txid (.updateFulfillHtlc 0 [9]) {}) =
          [(0, 1, .fulfill)] ∧
        ResolvesOrigin .symbolic node 1 chan (nodeOutpoint 1).txid (.updateFulfillHtlc 0 [9]) {} 0
          .fulfill after := by
  have hcheck : symbolicNodeCheck permitAllNodes twoHtlcsScript (fun node _ =>
      node.reached .symbolic 1 (.recv (nodeOutpoint 1).txid (.updateFulfillHtlc 0 [9]) {}) ==
          [(0, 1, .fulfill)] &&
        (node.channels[1]?).isSome &&
        ((nodeSystem .symbolic).next node
          (nodeRecv 1 (.updateFulfillHtlc 0 [9]) {})).isSome) = true := by
    decide +kernel
  obtain ⟨node, _, hreach, hchecked⟩ := reachable_of_symbolicNodeCheck hcheck
  simp only [Bool.and_eq_true, beq_iff_eq] at hchecked
  obtain ⟨⟨hreached, hsome⟩, hafter⟩ := hchecked
  obtain ⟨chan, hchan⟩ := Option.isSome_iff_exists.mp hsome
  obtain ⟨after, hnext⟩ := Option.isSome_iff_exists.mp hafter
  exact ⟨node, after, chan, hreached, (resolvesOrigin_iff_failsSameSlot hreach hchan rfl hnext).mpr
    fun _ _ hfails => absurd rfl hfails⟩

/-- A failure of the forwarded HTLC fails the other one. -/
theorem failsOtherSlot_twoHtlcs :
    ¬ ∀ (crypto : Crypto) (node after : Node) (pos : Nat) (chan : ChannelState)
      (channelId : Bytes) (msg : LnMsg) (env : RecvEnv) (id : Nat) (delHtlc : LnDelhtlc),
      (nodeSystem crypto).Reachable node → node.channels[pos]? = some chan →
        msg.removal = some (id, delHtlc) →
        (nodeSystem crypto).next node (.chan pos (.event (.recv channelId msg env))) =
          some after →
        ResolvesOrigin crypto node pos chan channelId msg env id delHtlc after := by
  intro hall
  have hcheck : symbolicNodeCheck permitAllNodes twoHtlcsScript (fun node _ =>
      node.reached .symbolic 1 (.recv (nodeOutpoint 1).txid (.updateFailHtlc 0 [7]) {}) ==
          [(0, 0, .fail)] &&
        node.origin 1 0 == some (11, 1) &&
        (node.channels[1]?).isSome &&
        ((nodeSystem .symbolic).next node
          (nodeRecv 1 (.updateFailHtlc 0 [7]) {})).isSome) = true := by
    decide +kernel
  obtain ⟨node, _, hreach, hchecked⟩ := reachable_of_symbolicNodeCheck hcheck
  simp only [Bool.and_eq_true, beq_iff_eq] at hchecked
  obtain ⟨⟨⟨hreached, horigin⟩, hsome⟩, hafter⟩ := hchecked
  obtain ⟨chan, hchan⟩ := Option.isSome_iff_exists.mp hsome
  obtain ⟨after, hnext⟩ := Option.isSome_iff_exists.mp hafter
  have hresolves := hall _ node after 1 chan _ (.updateFailHtlc 0 [7]) {} 0 .fail hreach hchan rfl
    hnext
  have hmem : (0, 0, LnDelhtlc.fail) ∈ node.reached .symbolic 1
      (.recv (nodeOutpoint 1).txid (.updateFailHtlc 0 [7]) {}) := by
    rw [hreached]
    exact List.mem_singleton_self _
  obtain ⟨-, -, prev, -, hother⟩ := hresolves.origin _ _ _ hmem
  have hslot := (Prod.mk.inj (Option.some.inj (horigin.symm.trans hother))).2
  exact absurd hslot (by decide)

end Ptarmigan
