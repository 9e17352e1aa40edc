/-
Crossing forwards: when the idle processing starts a forward that waits, and when channels
that hold reserved slots for each other never start it.
-/
import Ptarmigan.Backward
import Ptarmigan.HtlcId

namespace Ptarmigan

open TransitionSystem

variable {crypto : Crypto} {self : LnSelf}

/-! ### The idle processing of one channel -/

/-- It is the turn of this node to send an update or a `commitment_signed` for the slot. -/
def OwnTurn (htlc : LnUpdateAddHtlc) : Prop :=
  (idleUpdateMsg htlc).isSome = true ∨ idleComsig htlc = true

instance (htlc : LnUpdateAddHtlc) : Decidable (OwnTurn htlc) :=
  inferInstanceAs (Decidable (_ ∨ _))

/-- The slot has been reserved by `ln_add_htlc_set_fwd` and is not offered yet. -/
def Reserved (htlc : LnUpdateAddHtlc) : Prop :=
  htlc.enable = true ∧ htlc.flag.addhtlc = .none ∧ htlc.flag.comrevAll = false

instance (htlc : LnUpdateAddHtlc) : Decidable (Reserved htlc) :=
  inferInstanceAs (Decidable (_ ∧ _ ∧ _))

/-- Nothing is awaited from the peer: every HTLC that is offered or received is committed on
both sides, or it is the turn of this node. -/
def Delivered (self : LnSelf) : Prop :=
  ∀ idx, (self.cnlAddHtlc idx).flag.comsiging = false ∧
    ((self.cnlAddHtlc idx).flag.addhtlc ≠ .none →
      (self.cnlAddHtlc idx).flag.comrevAll = true ∨ OwnTurn (self.cnlAddHtlc idx))

instance (self : LnSelf) : Decidable (Delivered self) :=
  inferInstanceAs (Decidable (∀ _, _ ∧ (_ → _)))

/-- The received HTLC is committed irrevocably, no removal of it is set or sent, and it waits to
be started on another channel. -/
def WaitsToStart (htlc : LnUpdateAddHtlc) : Prop :=
  htlc.flag.addhtlc = .recv ∧ htlc.flag.comrevAll = true ∧ htlc.flag.delhtlc = .none ∧
    htlc.flag.updsend = false ∧ htlc.nextShortChannelId ≠ 0

instance (htlc : LnUpdateAddHtlc) : Decidable (WaitsToStart htlc) :=
  inferInstanceAs (Decidable (_ ∧ _ ∧ _ ∧ _ ∧ _))

theorem WaitsToStart.enable {htlc : LnUpdateAddHtlc} (hwaits : WaitsToStart htlc) :
    htlc.enable = true := by
  simp [LnUpdateAddHtlc.enable, LnUpdateAddHtlc.empty, hwaits.1]

/-- What the final idle processing does with a received HTLC that waits. -/
theorem WaitsToStart.idleFinal {htlc : LnUpdateAddHtlc} (hwaits : WaitsToStart htlc) :
    Effect.fwdAddhtlcStart htlc.nextShortChannelId htlc.nextIdx ∈ (idleFinalSlot htlc).2 ∧
      (idleFinalSlot htlc).1.nextShortChannelId = 0 ∧
      (idleFinalSlot htlc).1.flag.delhtlc = htlc.flag.finDelhtlc := by
  have henable := hwaits.enable
  obtain ⟨hadd, hall, hdel, hsent, hnext⟩ := hwaits
  have hoffer : htlc.flag.enableLocalAddhtlcOffer = false := by
    simp [LnHtlcflag.enableLocalAddhtlcOffer, hadd]
  have hrecv : htlc.flag.enableLocalAddhtlcRecv = true := by
    simp [LnHtlcflag.enableLocalAddhtlcRecv, hadd, hsent]
  by_cases hfin : htlc.flag.finDelhtlc = .none
  · simp [idleFinalSlot, henable, hoffer, hrecv, hnext, hfin, hdel]
  · simp [idleFinalSlot, henable, hoffer, hrecv, hnext, hfin, LnUpdateAddHtlc.clearHtlcComrevflag,
      LnHtlcflag.clearComrev, hall]

/-! ### The forward that waits -/

/-- On one channel a received HTLC waits to be started, in a slot that is reserved for it on
another one. -/
structure ForwardWaits (node : Node) (pos : Nat) (idx : HtlcIdx) (next : Nat)
    (chan host : ChannelState) : Prop where
  present : node.channels[pos]? = some chan
  running : chan.running = true
  waits : WaitsToStart (chan.self.cnlAddHtlc idx)
  hostPresent : node.channels[next]? = some host
  scid : host.self.shortChannelId = (chan.self.cnlAddHtlc idx).nextShortChannelId
  reserved : Reserved (host.self.cnlAddHtlc (chan.self.cnlAddHtlc idx).nextIdx)

/-- The forward has been started: its slot is offered, and the received HTLC is done with it. -/
def ForwardStarted (after : Node) (pos : Nat) (idx : HtlcIdx) (next : Nat) (nextIdx : HtlcIdx) :
    Prop :=
  ∃ chan host, after.channels[pos]? = some chan ∧ after.channels[next]? = some host ∧
    (chan.self.cnlAddHtlc idx).nextShortChannelId = 0 ∧
    (host.self.cnlAddHtlc nextIdx).flag.addhtlc = .offer

/-- A removal of the received HTLC is set. -/
def ForwardFailed (after : Node) (pos : Nat) (idx : HtlcIdx) : Prop :=
  ∃ chan, after.channels[pos]? = some chan ∧ (chan.self.cnlAddHtlc idx).flag.delhtlc ≠ .none

/-- The idle processing of some channel starts the forward, or fails the received HTLC. -/
def ForwardMoves (crypto : Crypto) (node : Node) (pos : Nat) (idx : HtlcIdx) (next : Nat)
    (nextIdx : HtlcIdx) : Prop :=
  ∃ turn after, nodeNext crypto node (.chan turn (.event .idle)) = some after ∧
    (ForwardStarted after pos idx next nextIdx ∨ ForwardFailed after pos idx)

/-! ### The idle processing in a node -/

theorem nodeNext_idle {node : Node} {pos : Nat} {chan : ChannelState}
    (hchan : node.channels[pos]? = some chan) :
    nodeNext crypto node (.chan pos (.event .idle)) =
      (channelNext crypto chan (.event .idle)).map fun after =>
        (node.setChannel pos after).callbacks crypto (handle crypto chan.self .idle).trace := by
  simp only [nodeNext, ChannelLabel.ev, Option.all_some, ChannelEvent.external, if_true, hchan,
    Option.bind_some, Node.forwardCall, Option.map_none, Node.advance]
  rfl

/-- The part of a slot that the start of a forward leaves alone. -/
def LnUpdateAddHtlc.startKeeps (htlc : LnUpdateAddHtlc) : UInt64 × LnDelhtlc :=
  (htlc.nextShortChannelId, htlc.flag.delhtlc)

/-- Forwards are started without a change to that part of any slot. -/
theorem startFwds_keep (crypto : Crypto) {reqs : List (UInt64 × ChannelEvent)}
    (hreqs : ∀ req ∈ reqs, ∃ idx, req.2 = .startFwd idx) :
    ∀ {node : Node} {pos : Nat} {chan : ChannelState}, node.channels[pos]? = some chan →
      ∃ after, (reqs.foldl (fun node req => node.request crypto req.1 req.2) node).channels[pos]? =
          some after ∧
        ∀ idx, (after.self.cnlAddHtlc idx).startKeeps = (chan.self.cnlAddHtlc idx).startKeeps := by
  induction reqs with
  | nil => exact fun hchan => ⟨_, hchan, fun _ => rfl⟩
  | cons req rest ih =>
      intro node pos chan hchan
      obtain ⟨target, htarget⟩ := hreqs req (List.mem_cons_self ..)
      obtain ⟨scid, ev⟩ := req
      obtain rfl : ev = .startFwd target := htarget
      have hrest := fun req hmem => hreqs req (List.mem_cons_of_mem _ hmem)
      rw [List.foldl_cons]
      rcases Node.request_cases crypto node scid (.startFwd target) with hsame |
        ⟨found, host, after, -, htransferable, hnext, hrequest⟩
      · rw [hsame]
        exact ih hrest hchan
      · rw [hrequest]
        by_cases hpos : pos = found
        · subst hpos
          obtain rfl := Option.some.inj (hchan.symm.trans htransferable.1)
          have hself : (node.setChannel pos after).channels[pos]? = some after :=
            Node.setChannel_self hchan
          obtain ⟨final, hfinal, hkept⟩ := ih hrest hself
          refine ⟨final, hfinal, fun idx => (hkept idx).trans ?_⟩
          simp only [channelNext] at hnext
          split at hnext
          swap
          · cases hnext
          obtain rfl := Option.some.inj hnext
          simp only [handle, lnAddHtlcStartFwd, LnSelf.setSlot_slot]
          split
          · rename_i hidx
            rw [hidx]
            rfl
          · rfl
        · exact ih hrest ((Node.setChannel_other hpos).trans hchan)

/-- The start of a forward in one channel, as the search for a channel sees it. -/
theorem startFwd_spec (crypto : Crypto) {node : Node} {scid : UInt64} {target : HtlcIdx}
    (slot : Nat × HtlcIdx) {host : ChannelState} (hhost : node.channels[slot.1]? = some host) :
    (∀ other, (node.request crypto scid (.startFwd target)).searchTransferableCnl other =
        node.searchTransferableCnl other) ∧
      ∃ after, (node.request crypto scid (.startFwd target)).channels[slot.1]? = some after ∧
        (after.self.cnlAddHtlc slot.2).flag.addhtlc =
          if node.searchTransferableCnl scid = some slot.1 ∧ target = slot.2 then .offer
          else (host.self.cnlAddHtlc slot.2).flag.addhtlc := by
  cases hsearch : node.searchTransferableCnl scid with
  | none =>
      have hsame : node.request crypto scid (.startFwd target) = node := by
        simp only [Node.request, hsearch]
      rw [hsame]
      exact ⟨fun _ => rfl, host, hhost, by simp⟩
  | some found =>
      obtain ⟨chan, hchan, hrunning, -⟩ := Node.channel_of_searchTransferableCnl hsearch
      obtain ⟨after, hnext, hafter, hcontinues⟩ := channelNext_event crypto hrunning
        (show ChannelEvent.startFwd target ≠ .reestablished by simp)
      have hrequest : node.request crypto scid (.startFwd target) =
          node.setChannel found after := by
        simp only [Node.request, hsearch, hchan, Option.bind_some, hnext]
      have haddress : after.address = chan.address := by
        rw [ChannelState.address, ChannelState.address, hafter, hcontinues, hrunning]
        rfl
      rw [hrequest]
      refine ⟨fun other => Node.searchTransferableCnl_setChannel hchan haddress other, ?_⟩
      by_cases hpos : slot.1 = found
      · subst hpos
        obtain rfl := Option.some.inj (hchan.symm.trans hhost)
        refine ⟨after, Node.setChannel_self hchan, ?_⟩
        rw [hafter]
        by_cases hidx : target = slot.2
        · simp [handle, lnAddHtlcStartFwd, LnSelf.setSlot_slot, hidx, LnUpdateAddHtlc.setFlag]
        · have hne : slot.2 ≠ target := fun heq => hidx heq.symm
          simp [handle, lnAddHtlcStartFwd, LnSelf.setSlot_slot, hidx, hne]
      · have hne : ¬ found = slot.1 := fun heq => hpos heq.symm
        exact ⟨host, (Node.setChannel_other hpos).trans hhost, by simp [hne]⟩

/-- After the forwards have been started a slot is offered if it was, or if one of them was for
it. -/
theorem startFwds_offer (crypto : Crypto) {reqs : List (UInt64 × ChannelEvent)}
    (hreqs : ∀ req ∈ reqs, ∃ idx, req.2 = .startFwd idx) (slot : Nat × HtlcIdx) :
    ∀ {node : Node} {host : ChannelState}, node.channels[slot.1]? = some host →
      ∃ after, (reqs.foldl (fun node req => node.request crypto req.1 req.2) node).channels[
          slot.1]? = some after ∧
        ((after.self.cnlAddHtlc slot.2).flag.addhtlc = .offer ↔
          (host.self.cnlAddHtlc slot.2).flag.addhtlc = .offer ∨
            ∃ scid, (scid, .startFwd slot.2) ∈ reqs ∧
              node.searchTransferableCnl scid = some slot.1) := by
  induction reqs with
  | nil => exact fun hhost => ⟨_, hhost, by simp⟩
  | cons req rest ih =>
      intro node host hhost
      obtain ⟨target, htarget⟩ := hreqs req (List.mem_cons_self ..)
      obtain ⟨scid, ev⟩ := req
      obtain rfl : ev = .startFwd target := htarget
      obtain ⟨hsearch, mid, hmid, hslot⟩ := @startFwd_spec crypto node scid target slot _ hhost
      obtain ⟨after, hafter, hoffered⟩ :=
        ih (fun req hmem => hreqs req (List.mem_cons_of_mem _ hmem)) hmid
      refine ⟨after, hafter, hoffered.trans ?_⟩
      rw [hslot]
      simp only [hsearch, List.mem_cons, Prod.mk.injEq, ChannelEvent.startFwd.injEq]
      split_ifs with hfound
      · refine ⟨fun _ => .inr ⟨scid, .inl ⟨rfl, hfound.2.symm⟩, hfound.1⟩, fun _ => .inl rfl⟩
      · constructor
        · rintro (hbefore | ⟨other, hmem, hother⟩)
          · exact .inl hbefore
          · exact .inr ⟨other, .inr hmem, hother⟩
        · rintro (hbefore | ⟨other, ⟨rfl, htarget⟩ | hmem, hother⟩)
          · exact .inl hbefore
          · exact absurd ⟨hother, htarget.symm⟩ hfound
          · exact .inr ⟨other, hmem, hother⟩

/-- Idle processing that sends something or quits changes the channel. -/
theorem recvIdleProcNonfinal_changes {chan after : ChannelState} (hrunning : chan.running = true)
    (hcomsiging : ∀ idx, (chan.self.cnlAddHtlc idx).flag.comsiging = false)
    (hturn : ∃ idx, OwnTurn (chan.self.cnlAddHtlc idx))
    (hidle : handle crypto chan.self .idle = recvIdleProcNonfinal crypto chan.self)
    (hnext : channelNext crypto chan (.event .idle) = some after) : after ≠ chan := by
  rintro rfl
  have hquiet : ((List.finRange lnHtlcMax).any fun idx =>
      (after.self.cnlAddHtlc idx).flag.comsiging) = false := by
    simp only [List.any_eq_false, Bool.not_eq_true]
    exact fun idx _ => hcomsiging idx
  simp only [channelNext] at hnext
  split at hnext
  swap
  · cases hnext
  have hstate := Option.some.inj hnext
  have hsent := congrArg ChannelState.sent hstate
  have hrun := congrArg ChannelState.running hstate
  simp only [ChannelState.perform, hidle, List.append_right_eq_self,
    List.filterMap_eq_nil_iff] at hsent
  simp only [hidle, hrunning] at hrun
  -- nothing was handed over, so no update was due
  have hnone : ∀ idx, idleUpdateMsg (after.self.cnlAddHtlc idx) = none := by
    intro idx
    by_contra hsome
    obtain ⟨msg, hmsg⟩ := Option.ne_none_iff_exists'.mp hsome
    have hmem : Effect.sendReq (some idx) msg ∈
        (List.finRange lnHtlcMax).filterMap fun idx =>
          (idleUpdateMsg (after.self.cnlAddHtlc idx)).map (Effect.sendReq (some idx)) :=
      List.mem_filterMap.mpr ⟨idx, List.mem_finRange idx, by rw [hmsg]; rfl⟩
    have htrace : Effect.sendReq (some idx) msg ∈
        (recvIdleProcNonfinal crypto after.self).trace := by
      simp only [recvIdleProcNonfinal, hquiet, idleSendComsig, Bool.false_eq_true, if_false]
      split_ifs
      · split <;> exact List.mem_append_left _ hmem
      · exact hmem
    cases hsent _ htrace
  obtain ⟨idx, hmsg | hcomsig⟩ := hturn
  · rw [hnone idx] at hmsg
    cases hmsg
  · have hany : ((List.finRange lnHtlcMax).any fun idx =>
        idleComsig (after.self.cnlAddHtlc idx)) = true :=
      List.any_eq_true.mpr ⟨idx, List.mem_finRange idx, hcomsig⟩
    simp only [recvIdleProcNonfinal, hquiet, hany, idleSendComsig, if_true] at hsent hrun
    simp only [Bool.false_eq_true, if_false] at hsent hrun
    split at hsent
    · rename_i hcreate
      simp only [hcreate, Outcome.continues, List.any_append] at hrun
      simp [Effect.ends] at hrun
    · rename_i commit msg _
      have hmem := hsent (.sendReq none msg) (by simp)
      cases hmem

/-- The requests of the idle processing are starts of forwards. -/
theorem idle_requests (self : LnSelf) :
    ∀ req ∈ (handle crypto self .idle).trace.filterMap Effect.requested,
      ∃ idx, req.2 = .startFwd idx := by
  intro req hmem
  obtain ⟨effect, heffect, hreq⟩ := List.mem_filterMap.mp hmem
  rcases handle_requested heffect hreq with ⟨_, _, _, hrecv, -⟩ | ⟨-, -, -, slot, -, -, rfl⟩
  · cases hrecv
  · exact ⟨_, rfl⟩

/-- What an idle processing leaves of the slots of a channel, whichever channel it is of. -/
theorem idle_keeps {node after : Node} {turn pos : Nat} {chan : ChannelState}
    (hchan : node.channels[pos]? = some chan)
    (hnext : nodeNext crypto node (.chan turn (.event .idle)) = some after) :
    ∃ chan', after.channels[pos]? = some chan' ∧ ∀ idx,
      (chan'.self.cnlAddHtlc idx).startKeeps =
        ((if turn = pos then (handle crypto chan.self .idle).self else chan.self).cnlAddHtlc
          idx).startKeeps := by
  cases hturn : node.channels[turn]? with
  | none => simp [nodeNext, ChannelLabel.ev, hturn] at hnext
  | some other =>
      rw [nodeNext_idle hturn] at hnext
      obtain ⟨other', hstep, rfl⟩ := Option.map_eq_some_iff.mp hnext
      have hself : other'.self = (handle crypto other.self .idle).self := by
        simp only [channelNext] at hstep
        split at hstep
        · obtain rfl := Option.some.inj hstep
          rfl
        · cases hstep
      by_cases hpos : turn = pos
      · subst hpos
        obtain rfl := Option.some.inj (hturn.symm.trans hchan)
        obtain ⟨chan', hafter, hkept⟩ := startFwds_keep crypto (idle_requests other.self)
          (Node.setChannel_self hturn : (node.setChannel turn other').channels[turn]? = _)
        refine ⟨chan', hafter, fun idx => (hkept idx).trans ?_⟩
        rw [if_pos rfl, hself]
      · have hkeptChan : (node.setChannel turn other').channels[pos]? = some chan :=
          (Node.setChannel_other fun heq => hpos heq.symm).trans hchan
        obtain ⟨chan', hafter, hkept⟩ := startFwds_keep crypto (idle_requests other.self) hkeptChan
        refine ⟨chan', hafter, fun idx => (hkept idx).trans ?_⟩
        rw [if_neg hpos]

/-- As long as some HTLC is not fully committed, the idle processing starts nothing. -/
theorem idle_nonfinal_keeps (hnot : ¬ AllComrev self) (idx : HtlcIdx) :
    ((handle crypto self .idle).self.cnlAddHtlc idx).startKeeps =
      (self.cnlAddHtlc idx).startKeeps := by
  have hupdate : ∀ htlc, (idleUpdateSlot htlc).startKeeps = htlc.startKeeps := by
    intro htlc
    rw [idleUpdateSlot]
    split <;> rfl
  have hchange : SlotChange crypto self .idle idx
      ((handle crypto self .idle).self.cnlAddHtlc idx) := lnRecvIdleProc_slotChange idx
  generalize (handle crypto self .idle).self.cnlAddHtlc idx = post at hchange ⊢
  cases hchange with
  | kept => rfl
  | finalised hall => exact absurd hall hnot
  | updated => exact hupdate _
  | comsent =>
      rw [LnUpdateAddHtlc.setFlagIf]
      split
      · exact hupdate _
      · exact hupdate _

theorem recvIdleProcFinal_continues (self : LnSelf) :
    (recvIdleProcFinal self).continues = true := by
  have hslot : ∀ htlc, (idleFinalSlot htlc).2.any Effect.ends = false := by
    intro htlc
    simp only [idleFinalSlot]
    split_ifs <;> rfl
  simp only [Outcome.continues, recvIdleProcFinal, List.any_append, List.any_flatMap, hslot]
  split_ifs <;> simp [Effect.ends]

namespace ForwardWaits

variable {node : Node} {pos next : Nat} {idx : HtlcIdx} {chan host : ChannelState}

/-- Once all HTLCs of its channel are committed, the forward waits for another channel. -/
theorem other (hwaits : ForwardWaits node pos idx next chan host) (hall : AllComrev chan.self) :
    next ≠ pos := by
  rintro rfl
  obtain rfl := Option.some.inj (hwaits.present.symm.trans hwaits.hostPresent)
  obtain ⟨henable, -, hcomrev⟩ := hwaits.reserved
  rw [hall _ henable] at hcomrev
  cases hcomrev

theorem final (hwaits : ForwardWaits node pos idx next chan host) (hall : AllComrev chan.self) :
    handle crypto chan.self .idle = recvIdleProcFinal chan.self := by
  rcases lnRecvIdleProc_final crypto hall with hfinal | ⟨-, hnone⟩
  · exact hfinal
  · have henable := hwaits.waits.enable
    rw [hnone idx] at henable
    cases henable

/-- The idle processing of its channel, when all HTLCs there are committed: the received HTLC is
done with the forward, which is offered if the search finds its channel. -/
theorem idle (crypto : Crypto) (hwaits : ForwardWaits node pos idx next chan host)
    (hall : AllComrev chan.self) :
    ∃ after chan' host', nodeNext crypto node (.chan pos (.event .idle)) = some after ∧
      after.channels[pos]? = some chan' ∧ after.channels[next]? = some host' ∧
      (chan'.self.cnlAddHtlc idx).nextShortChannelId = 0 ∧
      (chan'.self.cnlAddHtlc idx).flag.delhtlc = (chan.self.cnlAddHtlc idx).flag.finDelhtlc ∧
      ((host'.self.cnlAddHtlc (chan.self.cnlAddHtlc idx).nextIdx).flag.addhtlc = .offer ↔
        node.searchTransferableCnl (chan.self.cnlAddHtlc idx).nextShortChannelId = some next) := by
  have hfinal : handle crypto chan.self .idle = recvIdleProcFinal chan.self := hwaits.final hall
  obtain ⟨hstarts, hcleared, hremoval⟩ := hwaits.waits.idleFinal
  obtain ⟨mid, hstep, hself, hcontinues⟩ := channelNext_event crypto hwaits.running
    (show ChannelEvent.idle ≠ .reestablished by decide)
  have hmid : (node.setChannel pos mid).channels[pos]? = some mid :=
    Node.setChannel_self hwaits.present
  have hhost : (node.setChannel pos mid).channels[next]? = some host :=
    (Node.setChannel_other (hwaits.other hall)).trans hwaits.hostPresent
  have haddress : mid.address = chan.address := by
    rw [ChannelState.address, ChannelState.address, hself, hcontinues, hfinal,
      recvIdleProcFinal_continues, hwaits.running]
    rfl
  obtain ⟨chan', hchan', hkept⟩ := startFwds_keep crypto (idle_requests chan.self) hmid
  obtain ⟨host', hhost', hoffered⟩ := startFwds_offer crypto (idle_requests chan.self)
    (next, (chan.self.cnlAddHtlc idx).nextIdx) hhost
  have hslot := hkept idx
  rw [hself, hfinal] at hslot
  obtain ⟨hnextScid, hdel⟩ := Prod.mk.inj hslot
  refine ⟨(node.setChannel pos mid).callbacks crypto (handle crypto chan.self .idle).trace, chan',
    host', ?_, hchan', hhost', hnextScid.trans hcleared, hdel.trans hremoval, hoffered.trans ?_⟩
  · rw [nodeNext_idle hwaits.present, hstep]
    rfl
  simp only [Node.searchTransferableCnl_setChannel hwaits.present haddress]
  constructor
  · rintro (hbefore | ⟨scid, -, hfound⟩)
    · rw [hwaits.reserved.2.1] at hbefore
      cases hbefore
    · obtain ⟨found, hfoundChan, -, hscid⟩ := Node.channel_of_searchTransferableCnl hfound
      obtain rfl := Option.some.inj (hfoundChan.symm.trans hwaits.hostPresent)
      rw [← hwaits.scid, hscid]
      exact hfound
  · intro hfound
    refine .inr ⟨_, ?_, hfound⟩
    apply List.mem_filterMap.mpr
    refine ⟨.fwdAddhtlcStart (chan.self.cnlAddHtlc idx).nextShortChannelId
      (chan.self.cnlAddHtlc idx).nextIdx, ?_, rfl⟩
    rw [hfinal]
    simp only [recvIdleProcFinal, List.mem_append, List.mem_flatMap]
    exact .inl (.inl ⟨idx, List.mem_finRange idx, hstarts⟩)

/-- The idle processing moves the forward if and only if all HTLCs of the channel on which it
waits are committed, and its channel is found or the received HTLC is to be failed. -/
theorem moves_iff (hwaits : ForwardWaits node pos idx next chan host) :
    ForwardMoves crypto node pos idx next (chan.self.cnlAddHtlc idx).nextIdx ↔
      AllComrev chan.self ∧
        (node.searchTransferableCnl (chan.self.cnlAddHtlc idx).nextShortChannelId = some next ∨
          (chan.self.cnlAddHtlc idx).flag.finDelhtlc ≠ .none) := by
  constructor
  · rintro ⟨turn, after, hnext, hmoved⟩
    obtain ⟨chan', hchan', hkept⟩ := idle_keeps hwaits.present hnext
    obtain ⟨-, -, hdel, -, hscid⟩ := hwaits.waits
    have hturn : turn = pos ∧ AllComrev chan.self := by
      by_contra hnot
      have hsame : (chan'.self.cnlAddHtlc idx).startKeeps =
          (chan.self.cnlAddHtlc idx).startKeeps := by
        rw [hkept idx]
        split_ifs with hpos
        · exact idle_nonfinal_keeps (fun hall => hnot ⟨hpos, hall⟩) idx
        · rfl
      obtain ⟨hscid', hdel'⟩ := Prod.mk.inj hsame
      rcases hmoved with ⟨found, _, hfound, -, hzero, -⟩ | ⟨found, hfound, hset⟩
      · obtain rfl := Option.some.inj (hfound.symm.trans hchan')
        exact hscid (hscid'.symm.trans hzero)
      · obtain rfl := Option.some.inj (hfound.symm.trans hchan')
        exact hset (hdel'.trans hdel)
    obtain ⟨rfl, hall⟩ := hturn
    refine ⟨hall, ?_⟩
    obtain ⟨after', chan'', host', hnext', hchan'', hhost', -, hremoval, hoffered⟩ :=
      hwaits.idle crypto hall
    obtain rfl := Option.some.inj (hnext'.symm.trans hnext)
    rcases hmoved with ⟨_, found, -, hfound, -, hoffer⟩ | ⟨found, hfound, hset⟩
    · obtain rfl := Option.some.inj (hfound.symm.trans hhost')
      exact .inl (hoffered.mp hoffer)
    · obtain rfl := Option.some.inj (hfound.symm.trans hchan'')
      exact .inr (hremoval ▸ hset)
  · rintro ⟨hall, hmoves⟩
    obtain ⟨after, chan', host', hnext, hchan', hhost', hcleared, hremoval, hoffered⟩ :=
      hwaits.idle crypto hall
    refine ⟨pos, after, hnext, ?_⟩
    rcases hmoves with hfound | hfails
    · exact .inl ⟨chan', host', hchan', hhost', hcleared, hoffered.mpr hfound⟩
    · exact .inr ⟨chan', hchan', fun hnone => hfails (hremoval.symm.trans hnone)⟩

end ForwardWaits

/-! ### The turn of other HTLCs -/

/-- The idle processing changes the channel: it hands over an update or a `commitment_signed`, or
ends the connection. -/
def GoesOn (crypto : Crypto) (node : Node) (pos : Nat) (chan : ChannelState) : Prop :=
  ∃ after chan', nodeNext crypto node (.chan pos (.event .idle)) = some after ∧
    after.channels[pos]? = some chan' ∧ chan' ≠ chan

/-- When everything has been delivered, an HTLC that is neither reserved nor committed on both
sides gives its channel something to do. -/
theorem ownTurn_of_noneReserved (hdelivered : Delivered self) (hnot : ¬ AllComrev self)
    (hnone : ∀ idx, ¬ Reserved (self.cnlAddHtlc idx)) : ∃ idx, OwnTurn (self.cnlAddHtlc idx) := by
  simp only [AllComrev, not_forall] at hnot
  obtain ⟨idx, henable, hcomrev⟩ := hnot
  have hadd : (self.cnlAddHtlc idx).flag.addhtlc ≠ .none :=
    fun hadd => hnone idx ⟨henable, hadd, Bool.eq_false_iff.mpr hcomrev⟩
  rcases (hdelivered idx).2 hadd with hall | hturn
  · exact absurd hall hcomrev
  · exact ⟨idx, hturn⟩

theorem goesOn_of_noneReserved {node : Node} {pos : Nat} {chan : ChannelState}
    (hchan : node.channels[pos]? = some chan) (hrunning : chan.running = true)
    (hdelivered : Delivered chan.self) (hnot : ¬ AllComrev chan.self)
    (hnone : ∀ idx, ¬ Reserved (chan.self.cnlAddHtlc idx)) : GoesOn crypto node pos chan := by
  obtain ⟨after, hstep, -, -⟩ :=
    channelNext_event crypto hrunning (show ChannelEvent.idle ≠ .reestablished by decide)
  have hidle : handle crypto chan.self .idle = recvIdleProcNonfinal crypto chan.self :=
    lnRecvIdleProc_nonfinal hnot
  have hrequests : (handle crypto chan.self .idle).trace.filterMap Effect.requested = [] := by
    rw [hidle, List.filterMap_eq_nil_iff]
    intro effect hmem
    have hquiet := List.all_eq_true.mp recvIdleProcNonfinal_noRequest effect hmem
    rwa [Effect.noRequest, Option.isNone_iff_eq_none] at hquiet
  refine ⟨node.setChannel pos after, after, ?_, Node.setChannel_self hchan,
    recvIdleProcNonfinal_changes hrunning (fun idx => (hdelivered idx).1)
      (ownTurn_of_noneReserved hdelivered hnot hnone) hidle hstep⟩
  rw [nodeNext_idle hchan, hstep, Option.map_some, Node.callbacks, hrequests]
  rfl

/-! ### Slots reserved for each other -/

/-- The slot is reserved. -/
def ReservedAt (node : Node) (pos : Nat) (idx : HtlcIdx) : Prop :=
  ∃ chan, node.channels[pos]? = some chan ∧ Reserved (chan.self.cnlAddHtlc idx)

/-- Every channel of the node holds a reserved slot. -/
def AllReserved (node : Node) : Prop :=
  ∀ (pos : Nat) (chan : ChannelState), node.channels[pos]? = some chan →
    ∃ idx, Reserved (chan.self.cnlAddHtlc idx)

/-- A channel starts again only when its reserved slots have been saved. -/
def RestartsSaved (node : Node) (label : NodeLabel) : Prop :=
  ∀ pos dataloss chan, label = .chan pos (.restart dataloss) →
    node.channels[pos]? = some chan → ∀ idx, Reserved (chan.self.cnlAddHtlc idx) →
      Reserved (chan.db.chan.cnlAddHtlc idx)

theorem not_allComrev_of_reserved {idx : HtlcIdx} (hreserved : Reserved (self.cnlAddHtlc idx)) :
    ¬ AllComrev self := by
  obtain ⟨henable, -, hcomrev⟩ := hreserved
  intro hall
  rw [hall idx henable] at hcomrev
  cases hcomrev

theorem Reserved.congr {htlc post : LnUpdateAddHtlc} (hreserved : Reserved htlc)
    (hsame : SameHtlc htlc post) (hcomrev : post.flag.comrevAll = htlc.flag.comrevAll) :
    Reserved post := by
  obtain ⟨henable, hadd, hall⟩ := hreserved
  refine ⟨?_, hsame.addhtlc.trans hadd, hcomrev.trans hall⟩
  rw [LnUpdateAddHtlc.enable, hsame.empty]
  exact henable

theorem Reserved.clearComrev {htlc : LnUpdateAddHtlc} (hreserved : Reserved htlc)
    (delHtlc : LnDelhtlc) : htlc.clearHtlcComrevflag delHtlc = htlc := by
  obtain ⟨-, -, hcomrev⟩ := hreserved
  rw [LnUpdateAddHtlc.clearHtlcComrevflag, LnHtlcflag.clearComrev, hcomrev]
  rfl

/-- A reserved slot stays reserved until `ln_add_htlc_start_fwd` is called for it. -/
theorem SlotChange.keepsReserved {ev : ChannelEvent} {idx : HtlcIdx} {post : LnUpdateAddHtlc}
    (hchange : SlotChange crypto self ev idx post) (hreserved : Reserved (self.cnlAddHtlc idx))
    (hstart : ev ≠ .startFwd idx) : Reserved post := by
  have hheld : (self.cnlAddHtlc idx).empty = false := by
    simpa [LnUpdateAddHtlc.enable] using hreserved.1
  have hfirst : firstEmpty self.cnlAddHtlc ≠ some idx := by
    intro hfirst
    rw [empty_of_firstEmpty hfirst] at hheld
    cases hheld
  have hcounted := not_counted_of_none hreserved.2.1
  have hupdate : idleUpdateSlot (self.cnlAddHtlc idx) = self.cnlAddHtlc idx := by
    simp [idleUpdateSlot, idleUpdateMsg, LnHtlcflag.willAddhtlc, LnHtlcflag.willDelhtlc,
      hreserved.2.1]
  have hunset : ∀ (htlc : LnUpdateAddHtlc) (picked : LnHtlcflag → Bool)
      (rewrite : LnHtlcflag → LnHtlcflag), picked htlc.flag = false →
        htlc.setFlagIf picked rewrite = htlc := by
    intro htlc picked rewrite hpicked
    rw [LnUpdateAddHtlc.setFlagIf, hpicked, Bool.and_false]
    rfl
  cases hchange with
  | kept => exact hreserved
  | read hempty => exact absurd hempty hfirst
  | received haccepted => exact absurd (firstEmpty_of_acceptedSlot haccepted) hfirst
  | receivedFailed haccepted => exact absurd (firstEmpty_of_acceptedSlot haccepted) hfirst
  | removing =>
      rw [hreserved.clearComrev]
      exact hreserved
  | signed => exact hreserved
  | @committed _ _ _ _ _ signature =>
      rw [hunset { self.cnlAddHtlc idx with signature } _ _ hcounted.2,
        hunset { self.cnlAddHtlc idx with signature } _ _ hcounted.2]
      exact hreserved
  | acked =>
      rw [hunset _ _ _ hcounted.1]
      exact hreserved
  | finalised hall => exact absurd hall (not_allComrev_of_reserved hreserved)
  | updated =>
      rw [hupdate]
      exact hreserved
  | comsent =>
      rw [hupdate, hunset _ _ _ hcounted.1]
      exact hreserved
  | offered hcheck => exact absurd (firstEmpty_of_checkCreateAddHtlc hcheck) hfirst
  | dropped hcheck => exact absurd (firstEmpty_of_checkCreateAddHtlc hcheck) hfirst
  | reserved hcheck => exact absurd (firstEmpty_of_checkCreateAddHtlc hcheck) hfirst
  | droppedFwd hcheck => exact absurd (firstEmpty_of_checkCreateAddHtlc hcheck) hfirst
  | started => exact absurd rfl hstart
  | fulfilled =>
      rw [hreserved.clearComrev]
      exact hreserved
  | failed hsame hflag =>
      refine hreserved.congr hsame ?_
      simp only [hflag, LnHtlcflag.clearComrev, hreserved.2.2]
      exact hreserved.2.2
  | resent hmsg => exact absurd hreserved.2.1 (reestUpdateMsg_flag hmsg).1

/-- A step of a channel that is not the start of a forward keeps its reserved slots. -/
theorem channelNext_reserved {chan after : ChannelState} {step : ChannelLabel}
    (hnext : channelNext crypto chan step = some after) {idx : HtlcIdx}
    (hstart : step.ev ≠ some (.startFwd idx))
    (hsaved : ∀ dataloss, step = .restart dataloss → Reserved (chan.db.chan.cnlAddHtlc idx))
    (hreserved : Reserved (chan.self.cnlAddHtlc idx)) : Reserved (after.self.cnlAddHtlc idx) := by
  cases hev : step.ev with
  | some ev =>
      rcases (channelNext_running hev hnext).2.2 with hsame | hself
      · rw [hsame]
        exact hreserved
      · rw [hself]
        refine (handle_slotChange crypto chan.self ev idx).keepsReserved hreserved ?_
        rintro rfl
        exact hstart hev
  | none =>
      cases step with
      | restart dataloss =>
          obtain rfl := Option.some.inj hnext
          exact hsaved dataloss rfl
      | _ => cases hev

/-- A request to resolve an HTLC keeps every reserved slot. -/
theorem ReservedAt.request {node : Node} {scid : UInt64} {ev : ChannelEvent} {pos : Nat}
    {idx : HtlcIdx} (hreserved : ReservedAt node pos idx) (hstart : ev ≠ .startFwd idx) :
    ReservedAt (node.request crypto scid ev) pos idx := by
  rcases Node.request_cases crypto node scid ev with hsame |
    ⟨found, chan, after, -, htransferable, hnext, hrequest⟩
  · rw [hsame]
    exact hreserved
  · rw [hrequest]
    obtain ⟨host, hhost, hslot⟩ := hreserved
    by_cases hpos : pos = found
    · subst hpos
      obtain rfl := Option.some.inj (hhost.symm.trans htransferable.1)
      refine ⟨after, Node.setChannel_self hhost, ?_⟩
      refine channelNext_reserved hnext ?_ (fun _ hrestart => by cases hrestart) hslot
      exact fun heq => hstart (Option.some.inj heq)
    · exact ⟨host, (Node.setChannel_other hpos).trans hhost, hslot⟩

theorem ReservedAt.reserve {node after : Node} {origin : Nat} {call : Node.ForwardCall}
    {reserved : Option HtlcIdx} (hreserve : node.reserve crypto origin call = (reserved, after))
    {pos : Nat} {idx : HtlcIdx} (hreserved : ReservedAt node pos idx) :
    ReservedAt after pos idx := by
  rcases Node.reserve_slots hreserve with rfl | ⟨next, host, self, hhost, hchannels, hslots⟩
  · exact hreserved
  obtain ⟨chan, hchan, hslot⟩ := hreserved
  have hset : after.channels[pos]? = (node.setChannel next { host with self }).channels[pos]? := by
    rw [hchannels]
    rfl
  by_cases hpos : pos = next
  · subst hpos
    obtain rfl := Option.some.inj (hhost.symm.trans hchan)
    refine ⟨{ host with self }, hset.trans (Node.setChannel_self hhost), ?_⟩
    rcases hslots idx with hsame | ⟨hempty, -⟩
    · simp only [hsame]
      exact hslot
    · have hheld := hslot.1
      simp [LnUpdateAddHtlc.enable, hempty] at hheld
  · exact ⟨chan, hset.trans ((Node.setChannel_other hpos).trans hchan), hslot⟩

theorem AllReserved.of_kept {before after : Node}
    (hlength : after.channels.length = before.channels.length) (hall : AllReserved before)
    (hkept : ∀ pos idx, ReservedAt before pos idx → ReservedAt after pos idx) :
    AllReserved after := by
  intro pos chan hchan
  have hlt : pos < before.channels.length := by
    rw [← hlength]
    exact (List.getElem?_eq_some_iff.mp hchan).1
  obtain ⟨idx, hslot⟩ := hall pos _ (List.getElem?_eq_getElem hlt)
  obtain ⟨chan', hchan', hreserved⟩ := hkept pos idx ⟨_, List.getElem?_eq_getElem hlt, hslot⟩
  obtain rfl := Option.some.inj (hchan'.symm.trans hchan)
  exact ⟨idx, hreserved⟩

theorem length_request (crypto : Crypto) (node : Node) (scid : UInt64) (ev : ChannelEvent) :
    (node.request crypto scid ev).channels.length = node.channels.length := by
  rcases Node.request_cases crypto node scid ev with hsame | ⟨_, _, _, -, -, -, hrequest⟩
  · rw [hsame]
  · rw [hrequest, Node.setChannel, List.length_set]

theorem length_callbacks (crypto : Crypto) (trace : List Effect) (node : Node) :
    (node.callbacks crypto trace).channels.length = node.channels.length := by
  rw [Node.callbacks]
  generalize trace.filterMap Effect.requested = reqs
  induction reqs generalizing node with
  | nil => rfl
  | cons req rest ih =>
      rw [List.foldl_cons, ih]
      exact length_request crypto node req.1 req.2

/-- A step leaves the number of channels, and while every channel holds a reserved slot it
starts no forward. -/
theorem reservedAt_step {before after : Node} {label : NodeLabel} (hall : AllReserved before)
    (hsaved : RestartsSaved before label) (hnext : nodeNext crypto before label = some after) :
    after.channels.length = before.channels.length ∧
      ∀ pos idx, ReservedAt before pos idx → ReservedAt after pos idx := by
  cases label with
  | confirmed pos shortChannelId =>
      simp only [nodeNext] at hnext
      split at hnext
      · cases hnext
      obtain ⟨chan, hchan, hset⟩ := Option.bind_eq_some_iff.mp hnext
      split at hset
      swap
      · cases hset
      obtain rfl := Option.some.inj hset
      refine ⟨by rw [Node.setChannel, List.length_set], ?_⟩
      rintro other idx ⟨found, hfound, hslot⟩
      by_cases hpos : other = pos
      · subst hpos
        obtain rfl := Option.some.inj (hfound.symm.trans hchan)
        exact ⟨_, Node.setChannel_self hchan, hslot⟩
      · exact ⟨found, (Node.setChannel_other hpos).trans hfound, hslot⟩
  | chan pos step =>
      obtain ⟨hexternal, mid, chan, chan', hreserve, hchan, hstep, rfl⟩ := nodeNext_chan hnext
      have hmidLength : mid.channels.length = before.channels.length := by
        rcases hreserve with rfl | ⟨_, _, _, _, _, _, _, _, _, -, hreserve⟩
        · rfl
        · rcases Node.reserve_slots hreserve with rfl | ⟨_, _, _, -, hchannels, -⟩
          · rfl
          · rw [hchannels, List.length_set]
      have hmid : ∀ other idx, ReservedAt before other idx → ReservedAt mid other idx := by
        intro other idx hreserved
        rcases hreserve with rfl | ⟨_, _, _, _, _, _, _, _, _, -, hreserve⟩
        · exact hreserved
        · exact hreserved.reserve hreserve
      have hheld : ¬ AllComrev chan.self := by
        obtain ⟨idx, hslot⟩ := hall.of_kept hmidLength hmid pos chan hchan
        exact not_allComrev_of_reserved hslot
      have hstart : ∀ idx, step.ev ≠ some (.startFwd idx) := by
        intro idx hev
        cases hexternal _ hev
      have hrestart : ∀ dataloss, step = .restart dataloss → mid = before := by
        rintro dataloss rfl
        rcases hreserve with hmid | ⟨_, _, _, _, _, _, _, _, _, hadd, -⟩
        · exact hmid
        · cases hadd
      have hset : ∀ other idx, ReservedAt mid other idx →
          ReservedAt (mid.setChannel pos chan') other idx := by
        rintro other idx ⟨found, hfound, hslot⟩
        by_cases hpos : other = pos
        · subst hpos
          obtain rfl := Option.some.inj (hfound.symm.trans hchan)
          refine ⟨chan', Node.setChannel_self hchan,
            channelNext_reserved hstep (hstart idx) (fun dataloss heq => ?_) hslot⟩
          have hsame := hrestart dataloss heq
          subst hsame
          exact hsaved other dataloss found (by rw [heq]) hchan idx hslot
        · exact ⟨found, (Node.setChannel_other hpos).trans hfound, hslot⟩
      refine ⟨?_, fun other idx hreserved => ?_⟩
      · rw [length_callbacks, Node.setChannel, List.length_set, hmidLength]
      have hafter := hset other idx (hmid other idx hreserved)
      by_cases hnone : (step.performed crypto chan.self).filterMap Effect.requested = []
      · rw [Node.callbacks, hnone]
        exact hafter
      obtain ⟨req, hmem⟩ := List.exists_mem_of_ne_nil _ hnone
      obtain ⟨effect, heffect, hreq⟩ := List.mem_filterMap.mp hmem
      cases hev : step.ev with
      | none =>
          cases step with
          | restart => cases heffect
          | _ => cases hev
      | some ev =>
          rcases handle_requested (performed_subset hev heffect) hreq with
            ⟨channelId, msg, env, rfl, hremoval⟩ | ⟨-, hcomrev, -⟩
          · obtain ⟨⟨id, delHtlc⟩, hmsg⟩ := Option.isSome_iff_exists.mp hremoval
            obtain ⟨_, ev', -, -, -, hreqs, hresolves⟩ := requested_removal hev hmsg hnone
            rw [Node.callbacks, hreqs]
            apply hafter.request
            rintro rfl
            cases hresolves
          · exact absurd hcomrev hheld

/-- In every run from a node whose channels all hold a reserved slot, the reserved slots stay
reserved: none of them is ever offered. -/
theorem reserved_forever {node after : Node} (hall : AllReserved node)
    (hrun : (nodeSystem crypto).RunUnder RestartsSaved node after) {pos : Nat} {idx : HtlcIdx}
    (hreserved : ReservedAt node pos idx) : ReservedAt after pos idx := by
  have hkept : AllReserved after ∧ ReservedAt after pos idx := by
    apply hrun.preserves fun state => AllReserved state ∧ ReservedAt state pos idx
    · rintro before label state ⟨hbefore, hslot⟩ hsaved hnext
      obtain ⟨hlength, hstep⟩ := reservedAt_step hbefore hsaved hnext
      exact ⟨hbefore.of_kept hlength hstep, hstep pos idx hslot⟩
    · exact ⟨hall, hreserved⟩
  exact hkept.2

/-- Of two channels, both hold a reserved slot if the one on which a forward waits does. -/
theorem ForwardWaits.allReserved {node : Node} {pos next : Nat} {idx : HtlcIdx}
    {chan host : ChannelState} (hwaits : ForwardWaits node pos idx next chan host)
    (htwo : node.channels.length = 2) (hother : next ≠ pos) {slot : HtlcIdx}
    (hslot : Reserved (chan.self.cnlAddHtlc slot)) : AllReserved node := by
  intro other found hfound
  have hlt := (List.getElem?_eq_some_iff.mp hfound).1
  have hpos := (List.getElem?_eq_some_iff.mp hwaits.present).1
  have hnext := (List.getElem?_eq_some_iff.mp hwaits.hostPresent).1
  have hcases : other = pos ∨ other = next := by omega
  rcases hcases with rfl | rfl
  · obtain rfl := Option.some.inj (hfound.symm.trans hwaits.present)
    exact ⟨slot, hslot⟩
  · obtain rfl := Option.some.inj (hfound.symm.trans hwaits.hostPresent)
    exact ⟨_, hwaits.reserved⟩

/-- Everything has been delivered to the connected channels. -/
def AllDelivered (node : Node) : Prop :=
  ∀ chan ∈ node.channels, chan.running = true → Delivered chan.self

instance (node : Node) : Decidable (AllDelivered node) :=
  inferInstanceAs (Decidable (∀ chan ∈ node.channels, _ → _))

/-- A forward waits between the first two channels. -/
def forwardWaits (node : Node) (pos next : Nat) (idx : HtlcIdx) : Bool :=
  (node.channels[pos]?).any fun chan => (node.channels[next]?).any fun host =>
    chan.running && decide (WaitsToStart (chan.self.cnlAddHtlc idx)) &&
      host.self.shortChannelId == (chan.self.cnlAddHtlc idx).nextShortChannelId &&
      decide (Reserved (host.self.cnlAddHtlc (chan.self.cnlAddHtlc idx).nextIdx))

theorem forwardWaits_spec {node : Node} {pos next : Nat} {idx : HtlcIdx}
    (hchecked : forwardWaits node pos next idx = true) :
    ∃ chan host, ForwardWaits node pos idx next chan host := by
  simp only [forwardWaits, Option.any_eq_true, Bool.and_eq_true, decide_eq_true_eq,
    beq_iff_eq] at hchecked
  obtain ⟨chan, hchan, host, hhost, ⟨⟨hrunning, hwaits⟩, hscid⟩, hreserved⟩ := hchecked
  exact ⟨chan, host, hchan, hrunning, hwaits, hhost, hscid, hreserved⟩

/-- Each channel receives an HTLC that it forwards to the other one, before it can start the
forward. -/
def crossingScript : List (Node → NodeLabel) :=
  [ fun _ => .confirmed 0 11,
    fun _ => .confirmed 1 12,
    fun _ => nodeRecv 0 (.updateAddHtlc 0 500000 [9] 200 [])
      { onion := { verdict := .forward 12 400000 100 }, answer := .accepted 0 },
    fun _ => nodeRecv 1 (.updateAddHtlc 0 500000 [8] 200 [])
      { onion := { verdict := .forward 11 400000 100 }, answer := .accepted 1 },
    nodeCommit 0, nodeIdle 0, nodeRevoke 0,
    nodeCommit 1, nodeIdle 1, nodeRevoke 1 ]

end Ptarmigan
