/-
What a step of a node consists of: the step of one channel, the slot it reserves on another
one, and the requests its callbacks make.
-/
import Ptarmigan.Resolve

namespace Ptarmigan

open TransitionSystem

variable {crypto : Crypto} {self : LnSelf}

/-! ### The requests of an event -/

theorem requested_of_idleFinalSlot {htlc : LnUpdateAddHtlc} {effect : Effect}
    {req : UInt64 × ChannelEvent} (hmem : effect ∈ (idleFinalSlot htlc).2)
    (hreq : effect.requested = some req) :
    htlc.flag.addhtlc = .recv ∧ htlc.nextShortChannelId ≠ 0 ∧
      req = (htlc.nextShortChannelId, .startFwd htlc.nextIdx) := by
  have hrecv (henabled : htlc.flag.enableLocalAddhtlcRecv = true) : htlc.flag.addhtlc = .recv := by
    simp only [LnHtlcflag.enableLocalAddhtlcRecv, Bool.and_eq_true, beq_iff_eq] at henabled
    exact henabled.1
  have hstart (hnext : htlc.nextShortChannelId ≠ 0)
      (henabled : htlc.flag.enableLocalAddhtlcRecv = true)
      (heffect : effect = .fwdAddhtlcStart htlc.nextShortChannelId htlc.nextIdx) :
      htlc.flag.addhtlc = .recv ∧ htlc.nextShortChannelId ≠ 0 ∧
        req = (htlc.nextShortChannelId, .startFwd htlc.nextIdx) := by
    subst heffect
    exact ⟨hrecv henabled, hnext, (Option.some.inj hreq).symm⟩
  simp only [idleFinalSlot] at hmem
  split_ifs at hmem
  all_goals
    simp only [List.mem_append, List.mem_cons, List.not_mem_nil, or_false, false_or] at hmem
  · rcases hmem with hmem | rfl
    · exact hstart ‹_› ‹_› hmem
    · cases hreq
  · subst hmem
    cases hreq
  · exact hstart ‹_› ‹_› hmem
  · rcases hmem with rfl | rfl
    · cases hreq
    · cases hreq
  · subst hmem
    cases hreq

/-- The effect asks nothing of another channel. -/
def Effect.noRequest (effect : Effect) : Bool := effect.requested.isNone

theorem recvShutdown_noRequest (channelId scriptpk : Bytes) :
    (recvShutdown crypto self channelId scriptpk).trace.all Effect.noRequest = true := by
  have hanswer (self : LnSelf) : (answerShutdown self).trace.all Effect.noRequest = true := by
    simp only [answerShutdown, lnShutdownCreate]
    split <;> rfl
  have hstart (self : LnSelf) : (startClosing crypto self).trace.all Effect.noRequest = true := by
    simp only [startClosing]
    split
    · split <;> rfl
    · rfl
  simp only [recvShutdown]
  split_ifs
  · rfl
  · rfl
  · rfl
  · simp only [Outcome.andThen, List.all_append, hanswer, hstart, Bool.and_true]
    rfl

theorem recvClosingSigned_noRequest (channelId : Bytes) (feeSat : UInt64) (signature : Bytes)
    (broadcast : Bool) :
    (recvClosingSigned crypto self channelId feeSat signature broadcast).trace.all
      Effect.noRequest = true := by
  have hclose (self : LnSelf) (needClosetx : Bool) :
      (closeOrAnswer crypto self feeSat needClosetx broadcast).trace.all Effect.noRequest =
        true := by
    simp only [closeOrAnswer]
    repeat' split
    all_goals rfl
  simp only [recvClosingSigned]
  split_ifs
  · rfl
  · rfl
  · rfl
  · split
    · rfl
    · split
      · exact hclose _ _
      · exact hclose _ _

theorem lnChannelReestablishAfter_noRequest :
    (lnChannelReestablishAfter crypto self).trace.all Effect.noRequest = true := by
  have hresent : (reestResendUpdate self).trace.all Effect.noRequest = true := by
    simp only [reestResendUpdate]
    split <;> rfl
  simp only [lnChannelReestablishAfter]
  split_ifs
  · rw [List.all_append, hresent]
    rfl
  · exact hresent
  · rfl
  · rfl

theorem recvIdleProcNonfinal_noRequest :
    (recvIdleProcNonfinal crypto self).trace.all Effect.noRequest = true := by
  have hupdates : ((List.finRange lnHtlcMax).filterMap fun idx =>
      (idleUpdateMsg (self.cnlAddHtlc idx)).map (Effect.sendReq (some idx))).all
        Effect.noRequest = true := by
    rw [List.all_eq_true]
    intro effect hmem
    obtain ⟨idx, -, hmsg⟩ := List.mem_filterMap.mp hmem
    obtain ⟨msg, -, rfl⟩ := Option.map_eq_some_iff.mp hmsg
    rfl
  simp only [recvIdleProcNonfinal, idleSendComsig]
  split_ifs
  · rfl
  · split
    · rw [List.all_append, hupdates]
      rfl
    · rw [List.all_append, hupdates]
      rfl
  · exact hupdates

/-- An event whose handler asks something of another channel is a received removal, or the
idle processing that starts the forwards of a channel at rest. -/
theorem handle_requested {ev : ChannelEvent} {effect : Effect} {req : UInt64 × ChannelEvent}
    (hmem : effect ∈ (handle crypto self ev).trace) (hreq : effect.requested = some req) :
    (∃ channelId msg env, ev = .recv channelId msg env ∧ msg.removal.isSome) ∨
      ev = .idle ∧ AllComrev self ∧ handle crypto self .idle = recvIdleProcFinal self ∧
        ∃ idx, (self.cnlAddHtlc idx).flag.addhtlc = .recv ∧
          (self.cnlAddHtlc idx).nextShortChannelId ≠ 0 ∧
          req = ((self.cnlAddHtlc idx).nextShortChannelId,
            .startFwd (self.cnlAddHtlc idx).nextIdx) := by
  have hlocal (hall : (handle crypto self ev).trace.all Effect.noRequest = true) : False := by
    have hnone := List.all_eq_true.mp hall effect hmem
    rw [Effect.noRequest, hreq] at hnone
    cases hnone
  cases ev with
  | recv channelId msg env =>
      left
      refine ⟨channelId, msg, env, rfl, ?_⟩
      rw [handle, lnRecv] at hlocal
      split at hlocal
      swap
      · exact (hlocal rfl).elim
      cases msg with
      | updateFulfillHtlc | updateFailHtlc | updateFailMalformedHtlc => rfl
      | shutdown scriptpk => exact (hlocal (recvShutdown_noRequest channelId scriptpk)).elim
      | closingSigned feeSat signature =>
          exact (hlocal (recvClosingSigned_noRequest channelId feeSat signature
            env.broadcast)).elim
      | _ =>
          refine (hlocal ?_).elim
          simp only [recvFunc, recvUpdateAddHtlc, recvCommitmentSigned, recvRevokeAndAck,
            recvUpdateFee, recvFundingLocked, recvChannelReestablish]
          repeat' split
          all_goals rfl
  | idle =>
      right
      have hfinal : AllComrev self ∧ handle crypto self .idle = recvIdleProcFinal self := by
        simp only [handle, lnRecvIdleProc] at hlocal ⊢
        split_ifs at hlocal ⊢ with hempty hcomrev
        · exact (hlocal rfl).elim
        · refine ⟨fun idx henable => ?_, rfl⟩
          exact List.all_eq_true.mp hcomrev idx
            (List.mem_filter.mpr ⟨List.mem_finRange idx, henable⟩)
        · exact (hlocal recvIdleProcNonfinal_noRequest).elim
      refine ⟨rfl, hfinal.1, hfinal.2, ?_⟩
      rw [hfinal.2] at hmem
      simp only [recvIdleProcFinal, List.mem_append, List.mem_flatMap] at hmem
      rcases hmem with (⟨idx, -, hidx⟩ | hsave) | hrevack
      · exact ⟨idx, requested_of_idleFinalSlot hidx hreq⟩
      · split_ifs at hsave
        · obtain rfl := List.mem_singleton.mp hsave
          cases hreq
        · cases hsave
      · split_ifs at hrevack
        · obtain rfl := List.mem_singleton.mp hrevack
          cases hreq
        · cases hrevack
  | reestablished => exact (hlocal lnChannelReestablishAfter_noRequest).elim
  | _ => exact (hlocal rfl).elim

/-! ### The step of a node -/

/-- The effects that took place are the first ones of the event. -/
theorem performed_front {step : ChannelLabel} {ev : ChannelEvent} (hev : step.ev = some ev) :
    step.performed crypto self <+: (handle crypto self ev).trace := by
  cases step with
  | event ev' =>
      obtain rfl := Option.some.inj hev
      exact List.prefix_rfl
  | stop ev' done =>
      obtain rfl := Option.some.inj hev
      exact List.take_prefix ..
  | restart => cases hev

theorem performed_subset {step : ChannelLabel} {ev : ChannelEvent} {effect : Effect}
    (hev : step.ev = some ev) (hmem : effect ∈ step.performed crypto self) :
    effect ∈ (handle crypto self ev).trace :=
  (performed_front hev).subset hmem

/-- Of a single effect, all or nothing takes place. -/
theorem performed_singleton {step : ChannelLabel} {ev : ChannelEvent} {effect : Effect}
    (hev : step.ev = some ev) (htrace : (handle crypto self ev).trace = [effect]) :
    step.performed crypto self = [] ∨ step.performed crypto self = [effect] := by
  have hfront := @performed_front crypto self step ev hev
  rw [htrace] at hfront
  rcases List.prefix_cons_iff.mp hfront with hnil | ⟨rest, hrest, hnil⟩
  · exact .inl hnil
  · right
    rw [hrest, List.prefix_nil.mp hnil]

theorem channelNext_running {chan after : ChannelState} {step : ChannelLabel} {ev : ChannelEvent}
    (hev : step.ev = some ev) (hnext : channelNext crypto chan step = some after) :
    chan.running = true ∧ (after.running = true → step = .event ev ∧
      after.self = (handle crypto chan.self ev).self) ∧
      (after.self = chan.self ∨ after.self = (handle crypto chan.self ev).self) := by
  cases step with
  | event ev' =>
      obtain rfl := Option.some.inj hev
      simp only [channelNext] at hnext
      split at hnext
      · rename_i henabled
        obtain rfl := Option.some.inj hnext
        exact ⟨(Bool.and_eq_true_iff.mp henabled).1, fun _ => ⟨rfl, rfl⟩, .inr rfl⟩
      · cases hnext
  | stop ev' done =>
      obtain rfl := Option.some.inj hev
      simp only [channelNext] at hnext
      split at hnext
      · rename_i henabled
        obtain rfl := Option.some.inj hnext
        refine ⟨(Bool.and_eq_true_iff.mp henabled).1, fun hrunning => ?_, .inl rfl⟩
        cases hrunning
      · cases hnext
  | restart => cases hev

/-- A reservation rewrites one empty slot of one channel. -/
theorem Node.reserve_slots {node after : Node} {pos : Nat} {call : Node.ForwardCall}
    {reserved : Option HtlcIdx} (hreserve : node.reserve crypto pos call = (reserved, after)) :
    after = node ∨ ∃ next host self, node.channels[next]? = some host ∧
      after.channels = node.channels.set next { host with self } ∧
      ∀ idx, self.cnlAddHtlc idx = host.self.cnlAddHtlc idx ∨
        (host.self.cnlAddHtlc idx).empty = true ∧ (self.cnlAddHtlc idx = {} ∨
          ∃ htlcIdNum, self.cnlAddHtlc idx =
            requestedSlot { host.self with htlcIdNum } idx call.req) := by
  simp only [Node.reserve] at hreserve
  split at hreserve
  · exact .inl (Prod.mk.inj hreserve).2.symm
  rename_i next _
  split at hreserve
  · exact .inl (Prod.mk.inj hreserve).2.symm
  rename_i host hhost
  right
  obtain ⟨-, rfl⟩ := Prod.mk.inj hreserve
  refine ⟨next, host, _, hhost, rfl, fun idx => ?_⟩
  -- the slot of the received HTLC is put back
  by_cases hown : next = pos ∧ idx = call.idx
  · left
    rw [if_pos hown.1, LnSelf.setSlot_slot, if_pos hown.2, hown.2]
  have hput : ∀ after : LnSelf, (if next = pos then
      after.setSlot call.idx (host.self.cnlAddHtlc call.idx) else after).cnlAddHtlc idx =
        after.cnlAddHtlc idx := by
    intro after
    split
    · rename_i hpos
      rw [LnSelf.setSlot_slot, if_neg fun hidx => hown ⟨hpos, hidx⟩]
    · rfl
  have hkept : (if next = pos then host.self.setSlot call.idx call.htlc
      else host.self).cnlAddHtlc idx = host.self.cnlAddHtlc idx := by
    split
    · rename_i hpos
      rw [LnSelf.setSlot_slot, if_neg fun hidx => hown ⟨hpos, hidx⟩]
    · rfl
  rw [hput]
  generalize (if next = pos then host.self.setSlot call.idx call.htlc else host.self) = self
    at hkept ⊢
  rcases lnAddHtlcSetFwd_slots crypto self call.req with hset | ⟨target, hcheck, hset | hset⟩
  · rw [hset]
    exact .inl hkept
  all_goals
    rw [hset]
    by_cases htarget : idx = target
    · subst htarget
      right
      have hempty := empty_of_firstEmpty (firstEmpty_of_checkCreateAddHtlc hcheck)
      rw [hkept] at hempty
      refine ⟨hempty, ?_⟩
      simp only [LnSelf.setSlot, Function.update_self]
      first
        | exact .inl trivial
        | exact .inr ⟨self.htlcIdNum, by rw [requestedSlot, hkept]; rfl⟩
    · left
      simp only [LnSelf.setSlot, Function.update_of_ne htarget]
      exact hkept

/-- A step of a channel of the node, after the reservation that its event makes. -/
theorem nodeNext_chan {node after : Node} {pos : Nat} {label : ChannelLabel}
    (hnext : nodeNext crypto node (.chan pos label) = some after) :
    (∀ ev, label.ev = some ev → ev.external = true) ∧
    ∃ mid chan chan', (mid = node ∨ ∃ call reserved channelId id amountMsat paymentSha256
          cltvExpiry packet env, label.ev = some (.recv channelId
            (.updateAddHtlc id amountMsat paymentSha256 cltvExpiry packet) env) ∧
          node.reserve crypto pos call = (reserved, mid)) ∧
      mid.channels[pos]? = some chan ∧ channelNext crypto chan label = some chan' ∧
      after = (mid.setChannel pos chan').callbacks crypto (label.performed crypto chan.self) := by
  simp only [nodeNext] at hnext
  split at hnext
  swap
  · cases hnext
  rename_i hexternal
  constructor
  · intro ev hev
    rw [hev] at hexternal
    exact hexternal
  obtain ⟨chan, hchan, hcall⟩ := Option.bind_eq_some_iff.mp hnext
  have hadvance {mid : Node} (hmid : mid.advance crypto pos label = some after) :
      ∃ chan chan', mid.channels[pos]? = some chan ∧ channelNext crypto chan label = some chan' ∧
        after = (mid.setChannel pos chan').callbacks crypto (label.performed crypto chan.self) := by
    obtain ⟨chan, hchan, hmap⟩ := Option.bind_eq_some_iff.mp hmid
    obtain ⟨chan', hstep, rfl⟩ := Option.map_eq_some_iff.mp hmap
    exact ⟨chan, chan', hchan, hstep, rfl⟩
  split at hcall
  · obtain ⟨chan, chan', hstep⟩ := hadvance hcall
    exact ⟨node, chan, chan', .inl rfl, hstep⟩
  · rename_i ev call hforward
    generalize hreserve : node.reserve crypto pos call = reservation at hcall
    obtain ⟨reserved, mid⟩ := reservation
    simp only at hcall
    split at hcall
    swap
    · cases hcall
    obtain ⟨chan', chan'', hstep⟩ := hadvance hcall
    obtain ⟨ev', hev, hmap⟩ := Option.bind_eq_some_iff.mp hforward
    obtain ⟨call', hcall', hpair⟩ := Option.map_eq_some_iff.mp hmap
    obtain ⟨rfl, rfl⟩ := Prod.mk.inj hpair
    refine ⟨mid, chan', chan'', .inr ⟨call', reserved, ?_⟩, hstep⟩
    cases ev' with
    | recv channelId msg env =>
        cases msg with
        | updateAddHtlc id amountMsat paymentSha256 cltvExpiry packet =>
            exact ⟨channelId, id, amountMsat, paymentSha256, cltvExpiry, packet, env, hev, hreserve⟩
        | _ => cases hcall'
    | _ => cases hcall'

/-- The channel at the position is one that a callback can find by the `short_channel_id`. -/
def Node.Transferable (node : Node) (scid : UInt64) (pos : Nat) (chan : ChannelState) : Prop :=
  node.channels[pos]? = some chan ∧ chan.running = true ∧ chan.self.shortChannelId = scid ∧
    chan.self.status = .normal

theorem Node.transferable_of_search {node : Node} {scid : UInt64} {pos : Nat}
    (hsearch : node.searchTransferableCnl scid = some pos) :
    ∃ chan, node.Transferable scid pos chan := by
  obtain ⟨chan, hchan, hrunning, hscid⟩ := Node.channel_of_searchTransferableCnl hsearch
  obtain ⟨-, hnormal⟩ := Option.filter_eq_some_iff.mp hsearch
  rw [hchan, Option.any_some, beq_iff_eq] at hnormal
  exact ⟨chan, hchan, hrunning, hscid, hnormal⟩

/-- A request is a step of the channel found, or nothing. -/
theorem Node.request_cases (crypto : Crypto) (node : Node) (scid : UInt64) (ev : ChannelEvent) :
    node.request crypto scid ev = node ∨
      ∃ pos chan after, node.searchTransferableCnl scid = some pos ∧
        node.Transferable scid pos chan ∧ channelNext crypto chan (.event ev) = some after ∧
        node.request crypto scid ev = node.setChannel pos after := by
  cases hsearch : node.searchTransferableCnl scid with
  | none =>
      left
      simp only [Node.request, hsearch]
  | some pos =>
      obtain ⟨chan, htransferable⟩ := Node.transferable_of_search hsearch
      have hchan := htransferable.1
      cases hnext : channelNext crypto chan (.event ev) with
      | none =>
          left
          simp only [Node.request, hsearch, hchan, Option.bind_some, hnext]
      | some after =>
          right
          refine ⟨pos, chan, after, rfl, htransferable, hnext, ?_⟩
          simp only [Node.request, hsearch, hchan, Option.bind_some, hnext]

theorem Node.setChannel_getElem {node : Node} {pos other : Nat} {chan after found : ChannelState}
    (hchan : node.channels[pos]? = some chan)
    (hfound : (node.setChannel pos after).channels[other]? = some found) :
    other = pos ∧ found = after ∨ other ≠ pos ∧ node.channels[other]? = some found := by
  simp only [Node.setChannel, List.getElem?_set] at hfound
  by_cases hpos : pos = other
  · rw [if_pos hpos, if_pos (List.getElem?_eq_some_iff.mp hchan).1] at hfound
    exact .inl ⟨hpos.symm, (Option.some.inj hfound).symm⟩
  · rw [if_neg hpos] at hfound
    exact .inr ⟨Ne.symm hpos, hfound⟩

theorem Node.setChannel_self {node : Node} {pos : Nat} {chan after : ChannelState}
    (hchan : node.channels[pos]? = some chan) :
    (node.setChannel pos after).channels[pos]? = some after :=
  List.getElem?_set_self (List.getElem?_eq_some_iff.mp hchan).1

theorem Node.setChannel_other {node : Node} {pos other : Nat} {after : ChannelState}
    (hother : other ≠ pos) :
    (node.setChannel pos after).channels[other]? = node.channels[other]? :=
  List.getElem?_set_ne (Ne.symm hother)

end Ptarmigan
