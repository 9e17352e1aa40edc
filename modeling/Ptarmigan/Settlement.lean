/-
When a received HTLC is settled.  The idle processing sends a removal only for an
HTLC that was irrevocably committed, in the runs that never fail an HTLC before it is;
a refusal without a reason of the next channel does fail one at once.
-/
import Ptarmigan.SlotChange

namespace Ptarmigan

open TransitionSystem

variable {crypto : Crypto} {self : LnSelf}

/-- In the past state the slot held the received HTLC, and its addition was committed
and revoked in both directions. -/
def CommittedIn (mid : ChannelState) (idx : HtlcIdx) (htlc : LnUpdateAddHtlc) : Prop :=
  SameHtlc (mid.self.cnlAddHtlc idx) htlc ∧ htlc.flag.addhtlc = .recv ∧
    (mid.self.cnlAddHtlc idx).flag.delhtlc = .none ∧
    (mid.self.cnlAddHtlc idx).flag.comrevAll = true

/-- The effect sends the removal of the HTLC in the slot. -/
def Effect.settles (idx : HtlcIdx) : Effect → Bool
  | .sendReq (some sender) msg => sender == idx && msg.removal.isSome
  | _ => false

/-- The removals that `recv_idle_proc_nonfinal` sends in the present state are for
HTLCs that were irrevocably committed in a state of the history. -/
def NoEarlySettlement (crypto : Crypto) (state : ChannelState) (past : List ChannelState) :
    Prop :=
  ∀ idx, (recvIdleProcNonfinal crypto state.self).trace.any (Effect.settles idx) = true →
    ∃ mid ∈ state :: past, CommittedIn mid idx (state.self.cnlAddHtlc idx)

/-- The step does not fail an HTLC ahead of time: `ln_fail_htlc_set` finds an HTLC in
the slot, and if it is received and not being removed then its addition is committed
and revoked in both directions; and no forwarding is refused without a reason. -/
def FailsInTime (state : ChannelState) : ChannelLabel → Prop
  | .event (.failHtlc idx _) =>
      let htlc := state.self.cnlAddHtlc idx
      htlc.empty = false ∧
        (htlc.flag.addhtlc = .recv → htlc.flag.delhtlc = .none → htlc.flag.comrevAll = true)
  | .event (.recv channelId (.updateAddHtlc id amountMsat paymentSha256 cltvExpiry packet) env) =>
      (acceptedSlot state.self channelId id amountMsat paymentSha256 cltvExpiry packet).isSome →
        refusedEarly state.self env = false
  | _ => True

/-- What is known of a slot: without an HTLC it takes part in no commitment, an empty
one is not being removed, and a received HTLC that is being removed was committed. -/
structure SlotSettled (history : List ChannelState) (idx : HtlcIdx) (htlc : LnUpdateAddHtlc) :
    Prop where
  quiet : htlc.flag.addhtlc = .none → htlc.flag.comsend = false
  clear : htlc.empty = true → htlc.flag.delhtlc = .none
  committed : htlc.flag.addhtlc = .recv → htlc.flag.delhtlc ≠ .none →
    ∃ mid ∈ history, CommittedIn mid idx htlc

namespace SlotSettled

variable {history : List ChannelState} {idx : HtlcIdx} {htlc post : LnUpdateAddHtlc}

theorem default : SlotSettled history idx {} where
  quiet _ := rfl
  clear _ := rfl
  committed hrecv := by simp at hrecv

theorem mono {state : ChannelState} (hsettled : SlotSettled history idx htlc) :
    SlotSettled (state :: history) idx htlc where
  quiet := hsettled.quiet
  clear := hsettled.clear
  committed hrecv hdel := by
    obtain ⟨mid, hmid, hcommitted⟩ := hsettled.committed hrecv hdel
    exact ⟨mid, List.mem_cons_of_mem _ hmid, hcommitted⟩

/-- The same HTLC, with the same removal. -/
theorem of_same (hsettled : SlotSettled history idx htlc) (hsame : SameHtlc htlc post)
    (hdel : post.flag.delhtlc = htlc.flag.delhtlc)
    (hquiet : post.flag.addhtlc = .none → post.flag.comsend = htlc.flag.comsend) :
    SlotSettled history idx post where
  quiet hnone := (hquiet hnone).trans (hsettled.quiet (hsame.addhtlc ▸ hnone))
  clear hempty := by
    refine hdel.trans (hsettled.clear ?_)
    simpa only [LnUpdateAddHtlc.empty, hsame.addhtlc, hsame.amountMsat] using hempty
  committed hrecv hremoved := by
    obtain ⟨mid, hmid, hcommitted, _, hnone, hall⟩ :=
      hsettled.committed (hsame.addhtlc ▸ hrecv) (hdel ▸ hremoved)
    exact ⟨mid, hmid, hcommitted.trans hsame, hrecv, hnone, hall⟩

theorem of_setFlagIf {picked : LnHtlcflag → Bool} {rewrite : LnHtlcflag → LnHtlcflag}
    (hsettled : SlotSettled history idx htlc)
    (hadd : ∀ flag : LnHtlcflag, (rewrite flag).addhtlc = flag.addhtlc)
    (hdel : ∀ flag : LnHtlcflag, (rewrite flag).delhtlc = flag.delhtlc)
    (hpicked : ∀ flag : LnHtlcflag, flag.addhtlc = .none → picked flag = false) :
    SlotSettled history idx (htlc.setFlagIf picked rewrite) := by
  have hsame : SameHtlc htlc (htlc.setFlagIf picked rewrite) := .setFlagIf hadd
  refine hsettled.of_same hsame ?_ fun hnone => ?_
  · rw [LnUpdateAddHtlc.setFlagIf]
    split
    · exact hdel htlc.flag
    · rfl
  · have hnot := hpicked htlc.flag (hsame.addhtlc ▸ hnone)
    rw [LnUpdateAddHtlc.setFlagIf, hnot, Bool.and_false, if_neg Bool.false_ne_true]

theorem of_idleUpdateSlot (hsettled : SlotSettled history idx htlc) :
    SlotSettled history idx (idleUpdateSlot htlc) := by
  refine hsettled.of_same (.idleUpdateSlot htlc) ?_ fun _ => ?_
  all_goals
    rw [idleUpdateSlot]
    split <;> rfl

theorem of_offer (hoffer : post.flag.addhtlc = .offer) : SlotSettled history idx post where
  quiet hnone := by simp [hoffer] at hnone
  clear hempty := by simp [LnUpdateAddHtlc.empty, hoffer] at hempty
  committed hrecv := by simp [hoffer] at hrecv

/-- A removal is set on a received HTLC whose addition is committed now, or that was
being removed before. -/
theorem of_removal {state : ChannelState} {past : List ChannelState}
    (hsettled : SlotSettled (state :: past) idx (state.self.cnlAddHtlc idx))
    (hsame : SameHtlc (state.self.cnlAddHtlc idx) post)
    (hrecv : (state.self.cnlAddHtlc idx).flag.addhtlc = .recv)
    (htime : (state.self.cnlAddHtlc idx).flag.delhtlc = .none →
      (state.self.cnlAddHtlc idx).flag.comrevAll = true) :
    SlotSettled (state :: past) idx post where
  quiet hnone := by simp [hsame.addhtlc, hrecv] at hnone
  clear hempty := by simp [LnUpdateAddHtlc.empty, hsame.addhtlc, hrecv] at hempty
  committed hrecv' _ := by
    by_cases hdel : (state.self.cnlAddHtlc idx).flag.delhtlc = .none
    · exact ⟨state, List.mem_cons_self .., hsame, hrecv', hdel, htime hdel⟩
    · obtain ⟨mid, hmid, hcommitted, _, hnone, hall⟩ := hsettled.committed hrecv hdel
      exact ⟨mid, hmid, hcommitted.trans hsame, hrecv', hnone, hall⟩

/-- `clear_htlc_comrevflag` acts only on a slot through its dance. -/
theorem of_clear {state : ChannelState} {past : List ChannelState} {delHtlc : LnDelhtlc}
    (hsettled : SlotSettled (state :: past) idx (state.self.cnlAddHtlc idx)) :
    SlotSettled (state :: past) idx
      ((state.self.cnlAddHtlc idx).clearHtlcComrevflag delHtlc) := by
  by_cases hall : (state.self.cnlAddHtlc idx).flag.comrevAll = true
  · have hsame := SameHtlc.clearHtlcComrevflag (state.self.cnlAddHtlc idx) delHtlc
    cases hadd : (state.self.cnlAddHtlc idx).flag.addhtlc with
    | none =>
        have hsend := hsettled.quiet hadd
        simp [LnHtlcflag.comrevAll, hsend] at hall
    | offer => exact of_offer (hsame.addhtlc.trans hadd)
    | recv => exact of_removal hsettled hsame hadd fun _ => hall
  · simpa only [LnUpdateAddHtlc.clearHtlcComrevflag, LnHtlcflag.clearComrev, if_neg hall]
      using hsettled

end SlotSettled

/-! ### One step -/

variable {state : ChannelState} {past : List ChannelState} {idx : HtlcIdx}

theorem finalised_settled
    (hsettled : SlotSettled (state :: past) idx (state.self.cnlAddHtlc idx)) :
    SlotSettled (state :: past) idx (idleFinalSlot (state.self.cnlAddHtlc idx)).1 := by
  have hnext : SameHtlc (state.self.cnlAddHtlc idx)
      { state.self.cnlAddHtlc idx with nextShortChannelId := 0 } :=
    ⟨rfl, rfl, rfl, rfl, rfl, rfl, rfl⟩
  simp only [idleFinalSlot]
  split_ifs
  · exact hsettled
  · exact hsettled
  · exact (hsettled.of_clear).of_same (by
      simp only [LnUpdateAddHtlc.clearHtlcComrevflag]
      exact ⟨rfl, rfl, rfl, rfl, rfl, rfl, rfl⟩) rfl fun _ => rfl
  · exact hsettled.of_clear
  · exact hsettled.of_same hnext rfl fun _ => rfl
  · exact hsettled
  · exact .default
  · exact .default

theorem slotChange_settled {ev : ChannelEvent} {post : LnUpdateAddHtlc}
    (hsettled : SlotSettled (state :: past) idx (state.self.cnlAddHtlc idx))
    (htime : FailsInTime state (.event ev)) (hchange : SlotChange crypto state.self ev idx post) :
    SlotSettled (state :: past) idx post := by
  cases hchange with
  | kept => exact hsettled
  | read hfirst =>
      have hempty := empty_of_firstEmpty hfirst
      have hnone := addhtlc_of_empty hempty
      exact ⟨fun _ => hsettled.quiet hnone, fun _ => hsettled.clear hempty,
        fun hrecv => absurd (hnone.symm.trans hrecv) (by simp)⟩
  | received haccepted hearly hread hflag =>
      obtain ⟨finDelhtlc, hflag⟩ := hflag
      have hdel : post.flag.delhtlc = .none := by
        rw [hflag]
        exact hsettled.clear (empty_of_firstEmpty (firstEmpty_of_acceptedSlot haccepted))
      exact ⟨fun hnone => by simp [hflag] at hnone, fun _ => hdel,
        fun _ hremoved => absurd hdel hremoved⟩
  | receivedFailed haccepted hearly hread =>
      have hnot := htime (Option.isSome_of_eq_some haccepted)
      exact absurd (hearly.symm.trans hnot) (by simp)
  | removing hchannel hmsg hfind =>
      exact .of_offer ((SameHtlc.clearHtlcComrevflag _ _).addhtlc.trans
        (addhtlc_of_findOffered hfind))
  | signed => exact hsettled.of_same ⟨rfl, rfl, rfl, rfl, rfl, rfl, rfl⟩ rfl fun _ => rfl
  | committed =>
      have hpicked (flag : LnHtlcflag) (hnone : flag.addhtlc = .none) :=
        (not_counted_of_none hnone).2
      refine .of_setFlagIf (.of_setFlagIf (hsettled.of_same ?_ rfl fun _ => rfl) ?_ ?_ hpicked)
        ?_ ?_ hpicked
      · exact ⟨rfl, rfl, rfl, rfl, rfl, rfl, rfl⟩
      all_goals exact fun _ => rfl
  | acked =>
      exact hsettled.of_setFlagIf (fun _ => rfl) (fun _ => rfl)
        fun flag hnone => (not_counted_of_none hnone).1
  | finalised hall => exact finalised_settled hsettled
  | updated hquiet => exact hsettled.of_idleUpdateSlot
  | comsent hquiet =>
      exact hsettled.of_idleUpdateSlot.of_setFlagIf (fun _ => rfl) (fun _ => rfl)
        fun flag hnone => (not_counted_of_none hnone).1
  | offered hcheck haccepted => exact .of_offer rfl
  | dropped hcheck => exact .default
  | reserved hcheck haccepted =>
      have hempty := empty_of_firstEmpty (firstEmpty_of_checkCreateAddHtlc hcheck)
      have hnone := addhtlc_of_empty hempty
      exact ⟨fun _ => hsettled.quiet hnone, fun _ => hsettled.clear hempty,
        fun hrecv => absurd (hnone.symm.trans hrecv) (by simp)⟩
  | droppedFwd hcheck => exact .default
  | started => exact .of_offer rfl
  | fulfilled =>
      exact (hsettled.of_clear).of_same ⟨rfl, rfl, rfl, rfl, rfl, rfl, rfl⟩ rfl fun _ => rfl
  | failed hsame hflag =>
      obtain ⟨hfull, hcommitted⟩ := htime
      cases hadd : (state.self.cnlAddHtlc idx).flag.addhtlc with
      | none =>
          have hsend := hsettled.quiet hadd
          have hall : (state.self.cnlAddHtlc idx).flag.comrevAll = false := by
            simp [LnHtlcflag.comrevAll, hsend]
          have hnone := hsame.addhtlc.trans hadd
          refine ⟨fun _ => ?_, fun hempty => ?_, fun hrecv => ?_⟩
          · simp [hflag, LnHtlcflag.clearComrev, hall, hsend]
          · simp only [LnUpdateAddHtlc.empty, hnone, hadd, hsame.amountMsat] at hempty hfull
            exact absurd (hempty.symm.trans hfull) (by simp)
          · exact absurd (hnone.symm.trans hrecv) (by simp)
      | offer => exact .of_offer (hsame.addhtlc.trans hadd)
      | recv => exact .of_removal hsettled hsame hadd (hcommitted hadd)
  | resent hmsg =>
      have hsame : SameHtlc (state.self.cnlAddHtlc idx) ((state.self.cnlAddHtlc idx).setFlag
          fun flag => { flag with comsend := false, updsend := true }) := .setFlag rfl
      exact hsettled.of_same hsame rfl fun hnone => (hsettled.quiet (hsame.addhtlc ▸ hnone)).symm

/-! ### Whole runs -/

theorem saveOver_settled {history : List ChannelState} {htlc old : LnUpdateAddHtlc}
    (hsettled : SlotSettled history idx htlc) :
    SlotSettled history idx (htlc.saveOver old) :=
  hsettled.of_same ⟨rfl, rfl, rfl, rfl, rfl, rfl, rfl⟩ rfl fun _ => rfl

/-- The events that the condition is about save nothing. -/
theorem failsInTime_of_saves {ev : ChannelEvent}
    (hsaves : ∃ saved, Effect.selfSave saved ∈ (handle crypto state.self ev).trace) :
    FailsInTime state (.event ev) := by
  obtain ⟨saved, hsaved⟩ := hsaves
  cases ev with
  | failHtlc idx reason => simp [handle] at hsaved
  | recv channelId msg env =>
      cases msg with
      | updateAddHtlc id amountMsat paymentSha256 cltvExpiry packet =>
          simp only [handle, lnRecv, recvFunc, recvUpdateAddHtlc, Outcome.reject] at hsaved
          repeat' split at hsaved
          all_goals simp at hsaved
      | _ => trivial
  | _ => trivial

/-- The slots of the channel and those of its database are settled. -/
def SettledState (state : ChannelState) (past : List ChannelState) : Prop :=
  (∀ idx, SlotSettled (state :: past) idx (state.self.cnlAddHtlc idx)) ∧
    ∀ idx, SlotSettled (state :: past) idx (state.db.chan.cnlAddHtlc idx)

theorem settledState_start (hstart : (channelSystem crypto).start state) :
    SettledState state [] := by
  obtain ⟨outcome, hdone, rfl⟩ := hstart
  obtain ⟨_, _, _, ready, rfl, hfresh⟩ := hdone.fresh
  have hslot (idx : HtlcIdx) (history : List ChannelState) :
      SlotSettled history idx (ready.cnlAddHtlc idx) := by
    obtain ⟨signature, hidx⟩ := hfresh.slots idx
    rw [hidx]
    exact SlotSettled.default.of_same ⟨rfl, rfl, rfl, rfl, rfl, rfl, rfl⟩ rfl fun _ => rfl
  exact ⟨fun idx => hslot idx _, fun idx => saveOver_settled (hslot idx _)⟩

theorem settledState_step {after : ChannelState} {label : ChannelLabel}
    (hsettled : SettledState state past) (htime : FailsInTime state label)
    (hnext : (channelSystem crypto).next state label = some after) :
    SettledState after (state :: past) := by
  have hover (idx : HtlcIdx) (htlc old : LnUpdateAddHtlc) :
      SlotSettled (state :: past) idx htlc → SlotSettled (state :: past) idx (htlc.saveOver old) :=
    saveOver_settled
  obtain ⟨hself, hdb⟩ := channelNext_slots hover hnext hsettled.1 hsettled.2
    (fun ev hlabel idx post => slotChange_settled (hsettled.1 idx) (hlabel ▸ htime))
    (fun ev done _ hsaves idx post =>
      slotChange_settled (hsettled.1 idx) (failsInTime_of_saves hsaves))
  exact ⟨fun idx => (hself idx).mono, fun idx => (hdb idx).mono⟩

theorem idleUpdateMsg_of_mem {msg : LnMsg}
    (hmem : Effect.sendReq (some idx) msg ∈ (recvIdleProcNonfinal crypto self).trace) :
    idleUpdateMsg (self.cnlAddHtlc idx) = some msg := by
  have hupdate (hsend : Effect.sendReq (some idx) msg ∈
      (List.finRange lnHtlcMax).filterMap fun idx =>
        (idleUpdateMsg (self.cnlAddHtlc idx)).map (Effect.sendReq (some idx))) :
      idleUpdateMsg (self.cnlAddHtlc idx) = some msg := by
    obtain ⟨other, -, hother⟩ := List.mem_filterMap.mp hsend
    obtain ⟨msg', hmsg, heq⟩ := Option.map_eq_some_iff.mp hother
    injection heq with hidx hmsg'
    obtain rfl := Option.some.inj hidx
    exact hmsg.trans (congrArg some hmsg')
  simp only [recvIdleProcNonfinal, idleSendComsig] at hmem
  split_ifs at hmem
  · simp at hmem
  · split at hmem
    all_goals
      rcases List.mem_append.mp hmem with hmem | hmem
      · exact hupdate hmem
      · simp at hmem
  · exact hupdate hmem

theorem removed_of_idleUpdateMsg {htlc : LnUpdateAddHtlc} {msg : LnMsg}
    (hmsg : idleUpdateMsg htlc = some msg) (hremoval : msg.removal.isSome) :
    htlc.flag.addhtlc = .recv ∧ htlc.flag.delhtlc ≠ .none := by
  simp only [idleUpdateMsg] at hmsg
  split_ifs at hmsg with hadd hdel
  · obtain rfl := Option.some.inj hmsg
    simp [LnMsg.removal] at hremoval
  · simp only [LnHtlcflag.willDelhtlc, Bool.and_eq_true, beq_iff_eq, bne_iff_ne] at hdel
    exact ⟨hdel.2.1.1.1, hdel.2.1.1.2⟩

theorem sendReq_of_settles {effect : Effect} (hsettles : effect.settles idx = true) :
    ∃ msg, effect = .sendReq (some idx) msg ∧ msg.removal.isSome := by
  cases effect with
  | sendReq sender msg =>
      cases sender with
      | none => simp [Effect.settles] at hsettles
      | some sender =>
          simp only [Effect.settles, Bool.and_eq_true, beq_iff_eq] at hsettles
          obtain ⟨rfl, hremoval⟩ := hsettles
          exact ⟨msg, rfl, hremoval⟩
  | _ => simp [Effect.settles] at hsettles

/-- In every run that fails no HTLC ahead of time, what the idle processing removes was
irrevocably committed. -/
theorem noEarlySettlement_of_failsInTime
    (hhistory : (channelSystem crypto).HistoryUnder FailsInTime (state :: past)) :
    NoEarlySettlement crypto state past := by
  have hsettled : SettledState state past :=
    hhistory.invariant SettledState (fun _ => settledState_start) fun _ _ _ _ => settledState_step
  intro idx hany
  obtain ⟨effect, hsend, hsettles⟩ := List.any_eq_true.mp hany
  obtain ⟨msg, rfl, hremoval⟩ := sendReq_of_settles hsettles
  obtain ⟨hrecv, hdel⟩ := removed_of_idleUpdateMsg (idleUpdateMsg_of_mem hsend) hremoval
  exact (hsettled.1 idx).committed hrecv hdel

/-- A final HTLC below the dust limit that is received, committed by both sides and
accepted by the idle processing. -/
def settledScript : List (ChannelState → ChannelLabel) :=
  let cid := symbolicOutpoint.txid
  [ fun _ => .event (.recv cid (.updateAddHtlc 0 500000 [9] 100 [])
      { onion := { verdict := .final [9] } }),
    fun state => .event (.recv cid
      (.commitmentSigned (symbolicPeerSignature state.self 1) []) {}),
    fun _ => .event .idle,
    fun _ => .event (.recv cid (.revokeAndAck (symbolicKeys 2).perCommit [2, 7]) {}),
    fun _ => .event .idle ]

/-- The idle processing then sends `update_fulfill_htlc`. -/
theorem noEarlySettlement_settledScript :
    ∃ state past, (channelSystem Crypto.symbolic).HistoryUnder FailsInTime (state :: past) ∧
      (recvIdleProcNonfinal .symbolic state.self).trace.any (Effect.settles 0) = true ∧
      NoEarlySettlement .symbolic state past := by
  have hcheck : symbolicCheck 1000000 500000000 permitAll settledScript (fun state _ =>
      (recvIdleProcNonfinal .symbolic state.self).trace.any (Effect.settles 0)) = true := by
    decide +kernel
  have htime : ∀ choose ∈ settledScript, ∀ before, permitAll before (choose before) = true →
      FailsInTime before (choose before) := by
    simp [settledScript, FailsInTime, refusedEarly]
  obtain ⟨_, state, past, _, hhistory, _, hsettles⟩ := history_of_symbolicCheck htime hcheck
  exact ⟨state, past, hhistory, hsettles, noEarlySettlement_of_failsInTime hhistory⟩

/-- A received HTLC is to be forwarded on a channel that is found and in normal operation, but
on which this node has sent `shutdown`: `ln_add_htlc_set_fwd` refuses without a reason. -/
def refusedScript : List (ChannelState → ChannelLabel) :=
  [ fun _ => .event (.recv symbolicOutpoint.txid (.updateAddHtlc 0 500000 [9] 100 [])
      { onion := { verdict := .forward 5 400000 90 }, answer := .refusedTempNode [0x20] [0x20] }) ]

/-- The idle processing sends `update_fail_htlc` for an HTLC that was never committed. -/
theorem earlySettlement_refusedScript :
    ¬ ∀ (crypto : Crypto) (state : ChannelState) (past : List ChannelState),
      (channelSystem crypto).History (state :: past) →
        NoEarlySettlement crypto state past := by
  intro hall
  have hcheck : symbolicCheck 1000000 500000000 permitAll refusedScript (fun state past =>
      (recvIdleProcNonfinal .symbolic state.self).trace.any (Effect.settles 0) &&
        (state :: past).all fun mid => !(mid.self.cnlAddHtlc 0).flag.comrevAll) = true := by
    decide +kernel
  obtain ⟨state, past, hhistory, hchecked⟩ := run_of_symbolicCheck hcheck
  obtain ⟨hsettles, hnever⟩ := Bool.and_eq_true_iff.mp hchecked
  obtain ⟨mid, hmid, _, _, _, hcommitted⟩ := hall _ _ _ hhistory 0 hsettles
  have hnot := List.all_eq_true.mp hnever mid hmid
  simp [hcommitted] at hnot

end Ptarmigan
