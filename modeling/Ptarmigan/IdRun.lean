/-
The ids of the `update_add_htlc` messages over whole runs: handed over in order and without
a gap, as long as no reservation is lost or overtaken and the peer reuses no id.
-/
import Mathlib.Data.List.DropRight
import Ptarmigan.Crash
import Ptarmigan.HtlcId

namespace Ptarmigan

open TransitionSystem

variable {crypto : Crypto} {self : LnSelf}

/-! ### What a handler hands over -/

/-- The effect hands over neither an `update_add_htlc` nor a `channel_reestablish`. -/
def Effect.addsNothing : Effect → Bool
  | .sendReq _ (.updateAddHtlc ..) => false
  | .sendReq _ (.channelReestablish _) => false
  | _ => true

/-- The ids of the `update_add_htlc` messages among the effects. -/
def addedIds (trace : List Effect) : List Nat :=
  addIds (trace.filterMap Effect.sent)

theorem addedIds_append (first second : List Effect) :
    addedIds (first ++ second) = addedIds first ++ addedIds second := by
  rw [addedIds, List.filterMap_append, addIds_append]
  rfl

theorem addedIds_of_addsNothing {trace : List Effect}
    (hnothing : trace.all Effect.addsNothing = true) : addedIds trace = [] := by
  rw [addedIds, addIds, List.filterMap_filterMap, List.filterMap_eq_nil_iff]
  intro effect hmem
  have heffect := List.all_eq_true.mp hnothing effect hmem
  cases effect with
  | sendReq idx msg =>
      cases msg with
      | updateAddHtlc id amountMsat paymentSha256 cltvExpiry onion => cases heffect
      | _ => rfl
  | _ => rfl

theorem addsNothing_answerShutdown (self : LnSelf) :
    (answerShutdown self).trace.all Effect.addsNothing = true := by
  rw [answerShutdown]
  split <;> rfl

theorem addsNothing_startClosing (self : LnSelf) :
    (startClosing crypto self).trace.all Effect.addsNothing = true := by
  rw [startClosing]
  repeat' split
  all_goals rfl

theorem addsNothing_closeOrAnswer (self : LnSelf) (feeSat : UInt64)
    (needClosetx broadcast : Bool) :
    (closeOrAnswer crypto self feeSat needClosetx broadcast).trace.all Effect.addsNothing =
      true := by
  rw [closeOrAnswer]
  repeat' split
  all_goals rfl

theorem addsNothing_recvFunc (self : LnSelf) (channelId : Bytes) (env : RecvEnv) (msg : LnMsg) :
    (recvFunc crypto self channelId env msg).trace.all Effect.addsNothing = true := by
  cases msg with
  | shutdown scriptpk =>
      simp only [recvFunc, recvShutdown, Outcome.reject]
      split_ifs
      · rfl
      · rfl
      · rfl
      · simp only [Outcome.andThen, List.all_append, addsNothing_answerShutdown,
          addsNothing_startClosing]
        rfl
  | closingSigned feeSat signature =>
      simp only [recvFunc, recvClosingSigned, Outcome.reject]
      repeat' split
      all_goals first | rfl | exact addsNothing_closeOrAnswer _ _ _ _
  | updateAddHtlc id amountMsat paymentSha256 cltvExpiry packet =>
      simp only [recvFunc, recvUpdateAddHtlc, Outcome.reject]
      repeat' split
      all_goals rfl
  | updateFulfillHtlc id preimage =>
      simp only [recvFunc, recvUpdateFulfillHtlc, Outcome.reject]
      repeat' split
      all_goals rfl
  | updateFailHtlc id reason =>
      simp only [recvFunc, recvUpdateFailHtlc, Outcome.reject]
      repeat' split
      all_goals rfl
  | updateFailMalformedHtlc id sha256Onion failureCode =>
      simp only [recvFunc, recvUpdateFailMalformedHtlc, Outcome.reject]
      repeat' split
      all_goals rfl
  | commitmentSigned signature htlcSignatures =>
      simp only [recvFunc, recvCommitmentSigned, Outcome.reject]
      split_ifs <;> rfl
  | revokeAndAck prevSecret newCommitpt =>
      simp only [recvFunc, recvRevokeAndAck, Outcome.reject]
      repeat' split
      all_goals rfl
  | updateFee feeratePerKw =>
      simp only [recvFunc, recvUpdateFee, Outcome.reject]
      split <;> rfl
  | fundingLocked perCommitpt =>
      simp only [recvFunc, recvFundingLocked, Outcome.reject]
      split <;> rfl
  | channelReestablish reest =>
      simp only [recvFunc, recvChannelReestablish, Outcome.reject]
      repeat' split
      all_goals rfl

theorem addsNothing_idleFinal (self : LnSelf) :
    (recvIdleProcFinal self).trace.all Effect.addsNothing = true := by
  have hslot : ∀ htlc, (idleFinalSlot htlc).2.all Effect.addsNothing = true := by
    intro htlc
    simp only [idleFinalSlot]
    split_ifs <;> rfl
  simp only [recvIdleProcFinal, List.all_append, List.all_flatMap, Bool.and_eq_true,
    List.all_eq_true]
  refine ⟨⟨fun idx _ effect hmem => ?_, ?_⟩, ?_⟩
  · exact List.all_eq_true.mp (hslot (self.cnlAddHtlc idx)) effect hmem
  · split_ifs <;> simp [Effect.addsNothing]
  · split_ifs <;> simp [Effect.addsNothing]

theorem addsNothing_handle (crypto : Crypto) (self : LnSelf) {ev : ChannelEvent}
    (hidle : ev ≠ .idle) (hreest : ev ≠ .reestablished) :
    (handle crypto self ev).trace.all Effect.addsNothing = true := by
  cases ev with
  | recv channelId msg env =>
      simp only [handle, lnRecv]
      split
      · exact addsNothing_recvFunc self channelId env msg
      · rfl
  | idle => exact absurd rfl hidle
  | reestablished => exact absurd rfl hreest
  | fulfillHtlc idx preimage => rfl
  | shutdown fee => rfl
  | _ => rfl

/-- The effect hands over no `channel_reestablish`. -/
def Effect.continues : Effect → Bool
  | .sendReq _ (.channelReestablish _) => false
  | _ => true

theorem Effect.continues_of_addsNothing {effect : Effect} (hnothing : effect.addsNothing = true) :
    effect.continues = true := by
  cases effect with
  | sendReq idx msg =>
      cases msg with
      | channelReestablish reest => cases hnothing
      | _ => rfl
  | _ => rfl

/-- The effects of a handler up to the last `update_add_htlc`, which save nothing, and those
after it. -/
structure AddsFirst (trace first rest : List Effect) : Prop where
  trace : trace = first ++ rest
  unsaved : ∀ saved, Effect.selfSave saved ∉ first
  continues : first.all Effect.continues = true
  rest : rest.all Effect.addsNothing = true

theorem AddsFirst.of_addsNothing {trace : List Effect}
    (hnothing : trace.all Effect.addsNothing = true) : AddsFirst trace [] trace :=
  ⟨rfl, fun _ => List.not_mem_nil, rfl, hnothing⟩

theorem idleUpdateMsg_continues {htlc : LnUpdateAddHtlc} {msg : LnMsg} {idx : Option HtlcIdx}
    (hmsg : idleUpdateMsg htlc = some msg) : (Effect.sendReq idx msg).continues = true := by
  simp only [idleUpdateMsg] at hmsg
  split_ifs at hmsg
  · obtain rfl := Option.some.inj hmsg
    rfl
  · cases hdel : htlc.flag.delhtlc <;> rw [hdel] at hmsg <;> cases hmsg <;> rfl

theorem idleNonfinal_addsFirst (crypto : Crypto) (self : LnSelf) :
    ∃ first rest, AddsFirst (recvIdleProcNonfinal crypto self).trace first rest := by
  have hunsaved : ∀ saved, Effect.selfSave saved ∉ (List.finRange lnHtlcMax).filterMap fun idx =>
      (idleUpdateMsg (self.cnlAddHtlc idx)).map (Effect.sendReq (some idx)) := by
    intro saved hmem
    obtain ⟨idx, -, hidx⟩ := List.mem_filterMap.mp hmem
    obtain ⟨msg, -, heq⟩ := Option.map_eq_some_iff.mp hidx
    cases heq
  have hcontinues : ((List.finRange lnHtlcMax).filterMap fun idx =>
      (idleUpdateMsg (self.cnlAddHtlc idx)).map (Effect.sendReq (some idx))).all
        Effect.continues = true := by
    refine List.all_eq_true.mpr fun effect hmem => ?_
    obtain ⟨idx, -, hidx⟩ := List.mem_filterMap.mp hmem
    obtain ⟨msg, hmsg, rfl⟩ := Option.map_eq_some_iff.mp hidx
    exact idleUpdateMsg_continues hmsg
  simp only [recvIdleProcNonfinal]
  split
  · exact ⟨[], [], .of_addsNothing rfl⟩
  split
  · rw [idleSendComsig]
    split
    · exact ⟨_, _, rfl, hunsaved, hcontinues, rfl⟩
    · rename_i commit msg hcreated
      obtain ⟨_, _, _, _, -, rfl⟩ := createCommitmentSigned_spec hcreated
      exact ⟨_, _, rfl, hunsaved, hcontinues, rfl⟩
  · exact ⟨_, [], (List.append_nil _).symm, hunsaved, hcontinues, rfl⟩

theorem reestablished_addsFirst (crypto : Crypto) (self : LnSelf) :
    ∃ first rest, AddsFirst (lnChannelReestablishAfter crypto self).trace first rest := by
  have hresent : ∃ first rest, AddsFirst (reestResendUpdate self).trace first rest := by
    rw [reestResendUpdate]
    split
    · exact ⟨[], [], .of_addsNothing rfl⟩
    · rename_i idx msg hfind
      refine ⟨[.sendReq (some idx) msg], _, rfl, by simp, ?_, rfl⟩
      obtain ⟨other, -, hother⟩ := List.exists_of_findSome?_eq_some hfind
      obtain ⟨msg', hmsg, heq⟩ := Option.map_eq_some_iff.mp hother
      obtain ⟨rfl, rfl⟩ := Prod.mk.inj heq
      rw [reestUpdateMsg] at hmsg
      split_ifs at hmsg
      all_goals
        obtain rfl := Option.some.inj hmsg
        rfl
  simp only [lnChannelReestablishAfter]
  generalize hpart : (if self.commitRemote.commitNum = self.reestCommitNum then
    reestResendUpdate self else (⟨true, self, []⟩ : Outcome)) = part
  have hfirst : ∃ first rest, AddsFirst part.trace first rest := by
    rw [← hpart]
    split
    · exact hresent
    · exact ⟨[], [], .of_addsNothing rfl⟩
  obtain ⟨first, rest, hfirst⟩ := hfirst
  split
  · have htrace := congrArg (· ++ [Effect.sendReq none (.revokeAndAck
      (part.self.createPrevPercommitsec crypto).1 part.self.fundingLocal.pubkeys.perCommit)])
        hfirst.trace
    refine ⟨first, _, htrace.trans (List.append_assoc ..), hfirst.unsaved, hfirst.continues, ?_⟩
    rw [List.all_append, hfirst.rest]
    rfl
  · exact ⟨first, rest, hfirst⟩

/-- Every handler hands over its `update_add_htlc` messages before it saves. -/
theorem handle_addsFirst (crypto : Crypto) (self : LnSelf) (ev : ChannelEvent) :
    ∃ first rest, AddsFirst (handle crypto self ev).trace first rest := by
  by_cases hidle : ev = .idle
  · rw [hidle, handle, lnRecvIdleProc]
    split_ifs
    · exact ⟨[], [], .of_addsNothing rfl⟩
    · exact ⟨[], _, .of_addsNothing (addsNothing_idleFinal self)⟩
    · exact idleNonfinal_addsFirst crypto self
  · by_cases hreest : ev = .reestablished
    · rw [hreest]
      exact reestablished_addsFirst crypto self
    · exact ⟨[], _, .of_addsNothing (addsNothing_handle crypto self hidle hreest)⟩

theorem handle_continues (crypto : Crypto) (self : LnSelf) (ev : ChannelEvent) :
    (handle crypto self ev).trace.all Effect.continues = true := by
  obtain ⟨first, rest, hfirst⟩ := handle_addsFirst crypto self ev
  rw [hfirst.trace, List.all_append, hfirst.continues, Bool.true_and, List.all_eq_true]
  intro effect hmem
  exact Effect.continues_of_addsNothing (List.all_eq_true.mp hfirst.rest effect hmem)

/-- A part of a handler that comes to a save has handed over all its ids. -/
theorem addedIds_take_of_saves {ev : ChannelEvent} {done : Nat} {saved : LnSelf}
    (hmem : Effect.selfSave saved ∈ (handle crypto self ev).trace.take done) :
    addedIds ((handle crypto self ev).trace.take done) =
      addedIds (handle crypto self ev).trace := by
  obtain ⟨first, rest, hfirst⟩ := handle_addsFirst crypto self ev
  have hrest : addedIds (rest.take (done - first.length)) = addedIds rest := by
    rw [addedIds_of_addsNothing hfirst.rest]
    refine addedIds_of_addsNothing (List.all_eq_true.mpr fun effect hin => ?_)
    exact List.all_eq_true.mp hfirst.rest effect (List.mem_of_mem_take hin)
  have hlong : first.length ≤ done := by
    by_contra hshort
    rw [hfirst.trace, List.take_append_of_le_length (by omega)] at hmem
    exact hfirst.unsaved saved (List.mem_of_mem_take hmem)
  rw [hfirst.trace, List.take_append, List.take_of_length_le hlong, addedIds_append,
    addedIds_append, hrest]

theorem addedIds_take (trace : List Effect) (done : Nat) :
    ∃ count, addedIds (trace.take done) = (addedIds trace).take count := by
  have hfront : addedIds (trace.take done) <+: addedIds trace :=
    ((List.take_prefix done trace).filterMap _).filterMap _
  exact ⟨_, List.prefix_iff_eq_take.mp hfront⟩

/-- The ids handed over after a reconnection belong to HTLCs that were sent before. -/
theorem reestablished_told {id : Nat}
    (hmem : id ∈ addedIds (lnChannelReestablishAfter crypto self).trace) :
    ∃ idx, Own (self.cnlAddHtlc idx) ∧ (self.cnlAddHtlc idx).flag.updsend = true ∧
      (self.cnlAddHtlc idx).id = id := by
  have hresent : ∀ id ∈ addedIds (reestResendUpdate self).trace,
      ∃ idx, Own (self.cnlAddHtlc idx) ∧ (self.cnlAddHtlc idx).flag.updsend = true ∧
        (self.cnlAddHtlc idx).id = id := by
    intro id hmem
    rw [reestResendUpdate] at hmem
    split at hmem
    · cases hmem
    · rename_i idx msg hfind
      obtain ⟨other, -, hother⟩ := List.exists_of_findSome?_eq_some hfind
      obtain ⟨msg', hmsg, heq⟩ := Option.map_eq_some_iff.mp hother
      obtain ⟨rfl, rfl⟩ := Prod.mk.inj heq
      obtain ⟨-, hsend, hadd⟩ := reestUpdateMsg_flag hmsg
      cases msg' with
      | updateAddHtlc id' amountMsat paymentSha256 cltvExpiry onion =>
          obtain ⟨hoffer, hid⟩ := hadd id' amountMsat paymentSha256 cltvExpiry onion rfl
          obtain rfl : id = id' := by simpa [addedIds, addIds, Effect.sent] using hmem
          exact ⟨other, .inl hoffer, hsend, hid.symm⟩
      | _ => simp [addedIds, addIds, Effect.sent] at hmem
  simp only [lnChannelReestablishAfter] at hmem
  split_ifs at hmem
  · rw [addedIds_append, List.mem_append] at hmem
    rcases hmem with hmem | hmem
    · exact hresent id hmem
    · cases hmem
  · exact hresent id hmem
  · cases hmem
  · cases hmem

theorem told_of_not_idle {ev : ChannelEvent} (hidle : ev ≠ .idle) {id : Nat}
    (hmem : id ∈ addedIds (handle crypto self ev).trace) :
    ∃ idx, Own (self.cnlAddHtlc idx) ∧ (self.cnlAddHtlc idx).flag.updsend = true ∧
      (self.cnlAddHtlc idx).id = id := by
  by_cases hreest : ev = .reestablished
  · rw [hreest] at hmem
    exact reestablished_told hmem
  · rw [addedIds_of_addsNothing (addsNothing_handle crypto self hidle hreest)] at hmem
    cases hmem

/-! ### The idle processing -/

/-- Where the idle processing comes to send updates, they are in order. -/
def SendsInOrder (self : LnSelf) : Prop :=
  ¬ AllComrev self → ¬ AnyComsiging self → InOrder self

/-- What the idle processing does to the ids. -/
structure IdleIds (sentIds : List Nat) (before : LnSelf) (outcome : Outcome) : Prop where
  added : addedIds outcome.trace = [] ∨
    InOrder before ∧ addedIds outcome.trace = dueIds before
  kept : IdsKept (sentIds ++ addedIds outcome.trace) outcome.self
  unsent : ∀ idx, Unsent (outcome.self.cnlAddHtlc idx) → Unsent (before.cnlAddHtlc idx) ∧
    (outcome.self.cnlAddHtlc idx).id = (before.cnlAddHtlc idx).id ∧
      (outcome.self.cnlAddHtlc idx).id ∉ addedIds outcome.trace

theorem IdleIds.of_unchanged {sentIds : List Nat} (hkept : IdsKept sentIds self) :
    IdleIds sentIds self ⟨true, self, []⟩ := by
  constructor
  · exact .inl rfl
  · rw [show addedIds [] = [] from rfl, List.append_nil]
    exact hkept
  · exact fun idx hunsent => ⟨hunsent, rfl, List.not_mem_nil⟩

theorem idleUpdateSlot_updsend (htlc : LnUpdateAddHtlc) :
    (idleUpdateSlot htlc).flag.updsend = (htlc.flag.updsend || (idleUpdateMsg htlc).isSome) := by
  rw [idleUpdateSlot]
  split
  · rename_i hsome
    rw [hsome, Bool.or_true]
    rfl
  · rename_i hnone
    rw [Bool.not_eq_true] at hnone
    rw [hnone, Bool.or_false]

/-- The updates have been sent, and perhaps a `commitment_signed`. -/
theorem IdleIds.of_sent {sentIds : List Nat} {after : LnSelf} {rest : List Effect}
    (hkept : IdsKept sentIds self) (horder : InOrder self)
    (hnum : after.htlcIdNum = self.htlcIdNum)
    (hslots : (∀ idx, after.cnlAddHtlc idx = idleUpdateSlot (self.cnlAddHtlc idx)) ∨
      ∀ idx, after.cnlAddHtlc idx = (idleUpdateSlot (self.cnlAddHtlc idx)).setFlagIf
        LnHtlcflag.remoteCounted fun flag => { flag with comsend := true })
    (hrest : rest.all Effect.addsNothing = true) :
    IdleIds sentIds self ⟨true, after, (List.finRange lnHtlcMax).filterMap (fun idx =>
      (idleUpdateMsg (self.cnlAddHtlc idx)).map (Effect.sendReq (some idx))) ++ rest⟩ := by
  have hadded := addIds_updates self
  have hsame : ∀ idx, SameHtlc (self.cnlAddHtlc idx) (after.cnlAddHtlc idx) := by
    intro idx
    have hupdated := SameHtlc.idleUpdateSlot (self.cnlAddHtlc idx)
    rcases hslots with hslots | hslots
    · rw [hslots]
      exact hupdated
    · rw [hslots]
      exact hupdated.trans (.setFlagIf fun _ => rfl)
  have hsend : ∀ idx, (after.cnlAddHtlc idx).flag.updsend =
      ((self.cnlAddHtlc idx).flag.updsend || (idleUpdateMsg (self.cnlAddHtlc idx)).isSome) := by
    intro idx
    rw [← idleUpdateSlot_updsend]
    rcases hslots with hslots | hslots
    · rw [hslots]
    · rw [hslots, LnUpdateAddHtlc.setFlagIf]
      split <;> rfl
  have hflags : ∀ idx, IdFlags (after.cnlAddHtlc idx) := by
    intro idx
    rcases hslots with hslots | hslots
    · rw [hslots]
      exact (hkept.flags idx).idleUpdateSlot
    · rw [hslots]
      exact (hkept.flags idx).comsent
  have hall : addedIds ((List.finRange lnHtlcMax).filterMap (fun idx =>
      (idleUpdateMsg (self.cnlAddHtlc idx)).map (Effect.sendReq (some idx))) ++ rest) =
        dueIds self := by
    rw [addedIds_append, addedIds_of_addsNothing hrest, List.append_nil]
    exact hadded
  constructor
  · exact .inr ⟨horder, hall⟩
  · rw [hall]
    exact hkept.sent_due horder hflags hnum hsame hsend
  · intro idx hafter
    obtain ⟨hbefore, hnot⟩ := (unsent_of_sent (hsame idx) (hsend idx)).mp hafter
    refine ⟨hbefore, (hsame idx).id, fun hmem => ?_⟩
    rw [hall, (hsame idx).id] at hmem
    obtain ⟨other, hdue, hid⟩ := mem_dueIds.mp hmem
    obtain rfl := hkept.distinct other idx hdue.unsent.1 hbefore.1 hid
    exact hnot hdue

theorem idleIds {sentIds : List Nat} (crypto : Crypto) (hkept : IdsKept sentIds self)
    (horder : SendsInOrder self) : IdleIds sentIds self (lnRecvIdleProc crypto self) := by
  by_cases hall : AllComrev self
  · rcases lnRecvIdleProc_final crypto hall with hfinal | ⟨hquiet, -⟩
    · rw [hfinal]
      have hnone := addedIds_of_addsNothing (addsNothing_idleFinal self)
      have hafter := hkept.finalised hall
      constructor
      · exact .inl hnone
      · rw [hnone, List.append_nil]
        exact hafter
      · exact fun idx hunsent => absurd hunsent (hkept.not_unsent_final hall idx)
    · rw [hquiet]
      exact .of_unchanged hkept
  · rw [lnRecvIdleProc_nonfinal hall, recvIdleProcNonfinal]
    split
    · exact .of_unchanged hkept
    rename_i hquiet
    have hinorder : InOrder self := by
      refine horder hall ?_
      rintro ⟨idx, hidx⟩
      exact hquiet (List.any_eq_true.mpr ⟨idx, List.mem_finRange idx, hidx⟩)
    split
    · rw [idleSendComsig]
      split
      · exact .of_sent hkept hinorder rfl (.inl fun _ => rfl) rfl
      · rename_i commit msg hcreated
        obtain ⟨_, _, _, _, -, rfl⟩ := createCommitmentSigned_spec hcreated
        exact .of_sent hkept hinorder rfl (.inr fun _ => rfl) rfl
    · have hsent := @IdleIds.of_sent _ _ (self.mapSlots idleUpdateSlot) [] hkept hinorder rfl
        (.inl fun _ => rfl) rfl
      rw [List.append_nil] at hsent
      exact hsent

/-! ### Ids of one connection -/

/-- The messages handed over since the last `channel_reestablish` of this node. -/
def sinceRestart (sent : List LnMsg) : List LnMsg :=
  sent.rtakeWhile fun msg =>
    match msg with
    | .channelReestablish _ => false
    | _ => true

theorem sinceRestart_append {trace : List Effect} (hcontinues : trace.all Effect.continues = true)
    (sent : List LnMsg) :
    sinceRestart (sent ++ trace.filterMap Effect.sent) =
      sinceRestart sent ++ trace.filterMap Effect.sent := by
  induction trace using List.reverseRecOn with
  | nil => simp
  | append_singleton rest effect ih =>
      rw [List.all_append, Bool.and_eq_true] at hcontinues
      have hrest := ih hcontinues.1
      rw [List.filterMap_append]
      cases hmsg : effect.sent with
      | none => simpa [hmsg] using hrest
      | some msg =>
          have hsingle : [effect].filterMap Effect.sent = [msg] := by simp [hmsg]
          rw [hsingle, ← List.append_assoc, sinceRestart, List.rtakeWhile_concat_pos,
            ← sinceRestart, hrest, List.append_assoc]
          cases effect with
          | sendReq idx sent =>
              obtain rfl := Option.some.inj hmsg
              cases sent with
              | channelReestablish reest =>
                  have hlast := hcontinues.2
                  cases hlast
              | _ => rfl
          | _ => cases hmsg

theorem sinceRestart_restart (sent : List LnMsg) (reest : LnChannelReestablish) :
    sinceRestart (sent ++ [.channelReestablish reest]) = [] := by
  rw [sinceRestart, List.rtakeWhile_concat_neg]
  exact Bool.false_ne_true

/-- The ids have been used, and no unsent HTLC has one of them. -/
def FreshIds (ids : List Nat) (chan : LnSelf) : Prop :=
  ∀ id ∈ ids, id < chan.htlcIdNum ∧
    ∀ idx, Unsent (chan.cnlAddHtlc idx) → (chan.cnlAddHtlc idx).id ≠ id

theorem FreshIds.take {ids : List Nat} {after : LnSelf} {idx : HtlcIdx}
    (hfresh : FreshIds ids self) (htakes : Takes self after idx) : FreshIds ids after := by
  intro id hmem
  obtain ⟨hlt, hunsent⟩ := hfresh id hmem
  constructor
  · rw [htakes.num]
    exact hlt.trans (Nat.lt_succ_self _)
  · intro other hother
    by_cases hidx : other = idx
    · rw [hidx, htakes.id]
      exact Nat.ne_of_gt hlt
    · rw [htakes.other other hidx] at hother ⊢
      exact hunsent other hother

/-! ### The discipline -/

/-- `htlc_id_num++` does not wrap around: the id that is taken is not the last `uint64_t`. -/
def LnSelf.IdRoom (self : LnSelf) : Prop :=
  self.htlcIdNum + 1 < 2 ^ 64

/-- Ids are used in order: the idle processing finds the updates that are due in the order
of their ids, an id is taken only while there are more and for an HTLC that fits into the
remote transaction, no HTLC is failed before it is sent, and the peer gives no id to two of its
HTLCs. -/
def ChannelEvent.usesIds (crypto : Crypto) (self : LnSelf) : ChannelEvent → Prop
  | .idle => SendsInOrder self
  | .addHtlc req => self.IdRoom ∧ HtlcFits crypto self req
  | .addHtlcFwd req => self.IdRoom ∧ HtlcFits crypto self req ∧ req.prevShortChannelId ≠ 0
  | ev => ev.keepsUnsent self = true ∧ FreshId self ev

/-- An event during which the process stops matters only if it sends updates. -/
def OrderlyIds (crypto : Crypto) (before : ChannelState) : ChannelLabel → Prop
  | .event ev => ev.usesIds crypto before.self
  | .stop ev _ => ev = .idle → SendsInOrder before.self
  | .restart _ => True

/-- An id is handed over only after all smaller ones. -/
def Gapless (ids : List Nat) : Prop :=
  ∀ earlier id later, ids = earlier ++ id :: later → ∀ lower < id, lower ∈ earlier

/-- A step keeps the order of the ids.  Only the idle processing hands over new ids, each
once in a connection; and no two HTLCs of one direction have the same id. -/
structure IdDiscipline (crypto : Crypto) (before : ChannelState) (label : ChannelLabel)
    (after : ChannelState) : Prop where
  inOrder : Gapless (addIds after.sent)
  repeats : label.ev ≠ some .idle →
    ∀ id ∈ addIds (label.handedOver crypto before.self), id ∈ addIds before.sent
  once : label.ev = some .idle → (addIds (label.handedOver crypto before.self)).Nodup ∧
    ∀ id ∈ addIds (label.handedOver crypto before.self), id ∉ addIds (sinceRestart before.sent)
  own : ∀ idx other, Own (after.self.cnlAddHtlc idx) → Own (after.self.cnlAddHtlc other) →
    (after.self.cnlAddHtlc idx).id = (after.self.cnlAddHtlc other).id → idx = other
  received : ∀ idx other, (after.self.cnlAddHtlc idx).flag.addhtlc = .recv →
    (after.self.cnlAddHtlc other).flag.addhtlc = .recv →
      (after.self.cnlAddHtlc idx).id = (after.self.cnlAddHtlc other).id → idx = other

theorem Gapless.append {ids more : List Nat} (hids : Gapless ids)
    (hmore : ∀ earlier id later, more = earlier ++ id :: later →
      ∀ lower < id, lower ∈ ids ++ earlier) : Gapless (ids ++ more) := by
  intro earlier id later hsplit lower hlt
  rcases List.append_eq_append_iff.mp hsplit with ⟨rest, rfl, hrest⟩ | ⟨rest, hrest, hlater⟩
  · exact hmore rest id later hrest lower hlt
  · cases rest with
    | nil =>
        rw [List.append_nil] at hrest
        have hmem := hmore [] id later hlater.symm lower hlt
        rw [List.append_nil] at hmem
        exact hrest ▸ hmem
    | cons head rest =>
        obtain ⟨rfl, -⟩ := List.cons.inj hlater
        exact hids earlier id rest hrest lower hlt

theorem Gapless.append_known {ids more : List Nat} (hids : Gapless ids)
    (hknown : ∀ id ∈ more, id ∈ ids) : Gapless (ids ++ more) := by
  apply hids.append
  intro earlier id later hmore lower hlt
  have hmem : id ∈ ids := hknown id (by rw [hmore]; simp)
  obtain ⟨front, back, hsplit⟩ := List.append_of_mem hmem
  have hlower := hids front id back hsplit lower hlt
  rw [hsplit]
  simp [hlower]

theorem Gapless.append_range {ids : List Nat} {first count : Nat} (hids : Gapless ids)
    (hlower : ∀ lower < first, count ≠ 0 → lower ∈ ids) :
    Gapless (ids ++ List.range' first count) := by
  apply hids.append
  intro earlier id later hrange lower hlt
  obtain ⟨before, hbefore, rfl, hlater⟩ := List.range'_eq_append_iff.mp hrange
  obtain ⟨hid, hrest, -⟩ := List.range'_eq_cons_iff.mp hlater.symm
  rw [List.mem_append]
  by_cases hfirst : lower < first
  · exact .inl (hlower lower hfirst (by omega))
  · right
    rw [List.mem_range'_1]
    omega

/-! ### Whole runs -/

/-- The ids of the channel and of its database fit the messages handed over. -/
structure ChannelIds (state : ChannelState) : Prop where
  self : IdsKept (addIds state.sent) state.self
  db : IdsKept (addIds state.sent) state.db.chan
  order : Gapless (addIds state.sent)
  fresh : state.running = true → FreshIds (addIds (sinceRestart state.sent)) state.self

theorem ChannelIds.repeats {state : ChannelState} (hids : ChannelIds state) {ev : ChannelEvent}
    (hidle : ev ≠ .idle) {id : Nat} (hmem : id ∈ addedIds (handle crypto state.self ev).trace) :
    id ∈ addIds state.sent := by
  obtain ⟨idx, hown, hsend, rfl⟩ := told_of_not_idle hidle hmem
  exact hids.self.told idx hown hsend

/-- What an event does to the ids, by the messages handed over before. -/
structure EventIds (state : ChannelState) (ev : ChannelEvent) (outcome : Outcome) : Prop where
  kept : IdsKept (addIds state.sent ++ addedIds outcome.trace) outcome.self
  idle : ev = .idle → ∃ first count, addedIds outcome.trace = List.range' first count ∧
    ∀ lower < first, count ≠ 0 → lower ∈ addIds state.sent
  once : ev = .idle → ∀ id ∈ addedIds outcome.trace, id ∉ addIds (sinceRestart state.sent)
  fresh : FreshIds (addIds (sinceRestart state.sent) ++ addedIds outcome.trace) outcome.self

theorem eventIds_idle (crypto : Crypto) {state : ChannelState} (hids : ChannelIds state)
    (hrunning : state.running = true) (horder : SendsInOrder state.self) :
    EventIds state .idle (lnRecvIdleProc crypto state.self) := by
  have hidle := idleIds crypto hids.self horder
  have hfresh := hids.fresh hrunning
  have hadded : ∀ id ∈ addedIds (lnRecvIdleProc crypto state.self).trace,
      ∃ idx, DueAdd (state.self.cnlAddHtlc idx) ∧ (state.self.cnlAddHtlc idx).id = id := by
    intro id hmem
    rcases hidle.added with hnone | ⟨-, hdue⟩
    · rw [hnone] at hmem
      cases hmem
    · rw [hdue] at hmem
      exact mem_dueIds.mp hmem
  constructor
  · exact hidle.kept
  · intro _
    rcases hidle.added with hnone | ⟨hinorder, hdue⟩
    · exact ⟨0, 0, hnone, fun lower hlt => absurd hlt (Nat.not_lt_zero lower)⟩
    · obtain ⟨first, hrange, hlower⟩ := dueIds_range hids.self hinorder
      refine ⟨first, _, hdue.trans hrange, fun lower hlt hcount => hlower lower hlt ?_⟩
      intro hnil
      rw [hnil] at hcount
      exact hcount rfl
  · intro _ id hmem hsent
    obtain ⟨idx, hdue, hid⟩ := hadded id hmem
    exact (hfresh id hsent).2 idx hdue.unsent hid
  · have hnum : (lnRecvIdleProc crypto state.self).self.htlcIdNum = state.self.htlcIdNum :=
      lnRecvIdleProc_sameIds.1
    intro id hmem
    rw [hnum]
    rcases List.mem_append.mp hmem with hsent | hadd
    · refine ⟨(hfresh id hsent).1, fun idx hunsent => ?_⟩
      obtain ⟨hbefore, hid, -⟩ := hidle.unsent idx hunsent
      rw [hid]
      exact (hfresh id hsent).2 idx hbefore
    · obtain ⟨idx, hdue, rfl⟩ := hadded id hadd
      refine ⟨hids.self.below idx hdue.unsent.1, fun other hunsent heq => ?_⟩
      exact (hidle.unsent other hunsent).2.2 (heq ▸ hadd)

theorem eventIds_quiet {state : ChannelState} {ev : ChannelEvent} (crypto : Crypto)
    (hids : ChannelIds state) (hrunning : state.running = true) (hquiet : ev.keepsIds = true)
    (hkeeps : ev.keepsUnsent state.self = true) (hfreshId : FreshId state.self ev) :
    EventIds state ev (handle crypto state.self ev) := by
  have hidle : ev ≠ .idle := by
    rintro rfl
    cases hquiet
  have hkept := hids.self.handle_quiet crypto hquiet hkeeps hfreshId
  have hfresh := hids.fresh hrunning
  have hnum := handle_htlcIdNum crypto state.self hquiet
  constructor
  · exact hkept.mono fun id hmem => List.mem_append_left _ hmem
  · exact fun heq => absurd heq hidle
  · exact fun heq => absurd heq hidle
  · intro id hmem
    have hunsent : ∀ idx, Unsent ((handle crypto state.self ev).self.cnlAddHtlc idx) →
        Unsent (state.self.cnlAddHtlc idx) ∧
          ((handle crypto state.self ev).self.cnlAddHtlc idx).id =
            (state.self.cnlAddHtlc idx).id := by
      intro idx hafter
      rcases (handle_slotChange crypto state.self ev idx).keepsId (hids.self.flags idx) hkeeps
        hquiet with hsame | ⟨-, hadd, -⟩
      · obtain ⟨hid, hsend⟩ := hsame.own hafter.1
        exact ⟨⟨hsame.iff.mp hafter.1, hsend.symm.trans hafter.2⟩, hid⟩
      · exact absurd hafter.1 (not_own_of_recv hadd)
    rw [hnum]
    rcases List.mem_append.mp hmem with hsent | hadd
    · refine ⟨(hfresh id hsent).1, fun idx hafter => ?_⟩
      obtain ⟨hbefore, hid⟩ := hunsent idx hafter
      rw [hid]
      exact (hfresh id hsent).2 idx hbefore
    · obtain ⟨other, hown, hsend, rfl⟩ := told_of_not_idle hidle hadd
      refine ⟨hids.self.below other hown, fun idx hafter heq => ?_⟩
      obtain ⟨hbefore, hid⟩ := hunsent idx hafter
      obtain rfl := hids.self.distinct idx other hbefore.1 hown (hid.symm.trans heq)
      rw [hbefore.2] at hsend
      cases hsend

/-- An event that hands over nothing takes an id, or nothing changes. -/
theorem eventIds_takes {state : ChannelState} {ev : ChannelEvent} {after : LnSelf}
    (hids : ChannelIds state) (hrunning : state.running = true) (hidle : ev ≠ .idle)
    (htakes : after = state.self ∨ ∃ idx, Takes state.self after idx) :
    EventIds state ev ⟨true, after, []⟩ := by
  have hnone : addedIds [] = [] := rfl
  have hfresh := hids.fresh hrunning
  constructor
  · rw [hnone, List.append_nil]
    rcases htakes with rfl | ⟨idx, htakes⟩
    · exact hids.self
    · exact hids.self.take htakes
  · exact fun heq => absurd heq hidle
  · exact fun heq => absurd heq hidle
  · rw [hnone, List.append_nil]
    rcases htakes with rfl | ⟨idx, htakes⟩
    · exact hfresh
    · exact hfresh.take htakes

theorem eventIds {state : ChannelState} {ev : ChannelEvent} (hids : ChannelIds state)
    (hrunning : state.running = true) (huses : ev.usesIds crypto state.self) :
    EventIds state ev (handle crypto state.self ev) := by
  cases ev with
  | idle => exact eventIds_idle crypto hids hrunning huses
  | addHtlc req =>
      exact eventIds_takes hids hrunning ChannelEvent.noConfusion
        (lnAddHtlcSet_takes hids.self.flags huses.2)
  | addHtlcFwd req =>
      exact eventIds_takes hids hrunning ChannelEvent.noConfusion
        (lnAddHtlcSetFwd_takes hids.self.flags huses.2.1 huses.2.2)
  | _ => exact eventIds_quiet crypto hids hrunning rfl huses.1 huses.2

/-- The events that the condition is about save nothing, the idle processing apart. -/
theorem usesIds_of_saves {ev : ChannelEvent} (hidle : ev ≠ .idle) {saved : LnSelf}
    (hsaved : Effect.selfSave saved ∈ (handle crypto self ev).trace) : ev.usesIds crypto self := by
  cases ev with
  | idle => exact absurd rfl hidle
  | recv channelId msg env =>
      refine ⟨rfl, ?_⟩
      cases msg with
      | updateAddHtlc id amountMsat paymentSha256 cltvExpiry packet =>
          simp only [handle, lnRecv, recvFunc, recvUpdateAddHtlc, Outcome.reject] at hsaved
          repeat' split at hsaved
          all_goals cases hsaved
      | _ => trivial
  | addHtlc req => cases hsaved
  | addHtlcFwd req => cases hsaved
  | startFwd idx => cases hsaved
  | failHtlc idx reason => cases hsaved
  | _ => exact ⟨rfl, trivial⟩

theorem IdsKept.saveSelf {sentIds : List Nat} (hkept : IdsKept sentIds self) (db : Db) :
    IdsKept sentIds (db.saveSelf self).chan :=
  hkept.of_keepsId
    (fun idx => ⟨(hkept.flags idx).unused, (hkept.flags idx).unsent, (hkept.flags idx).origin⟩)
    rfl (fun _ => ⟨Iff.rfl, fun _ => ⟨rfl, rfl⟩⟩) hkept.received

theorem IdsKept.congr {sentIds : List Nat} {after : LnSelf} (hkept : IdsKept sentIds self)
    (hslots : after.cnlAddHtlc = self.cnlAddHtlc) (hnum : after.htlcIdNum = self.htlcIdNum) :
    IdsKept sentIds after := by
  obtain ⟨hflags, hbelow, hdistinct, htold, hcovered, hreceived⟩ := hkept
  constructor
  all_goals
    simp only [hslots, hnum]
    assumption

/-- What an event has saved, of the effects that took place. -/
theorem ChannelIds.writes {state : ChannelState} {ev : ChannelEvent} {trace : List Effect}
    (hids : ChannelIds state)
    (hsub : ∀ effect ∈ trace, effect ∈ (handle crypto state.self ev).trace)
    (hkept : ∀ saved, Effect.selfSave saved ∈ trace →
      IdsKept (addIds state.sent ++ addedIds trace) (handle crypto state.self ev).self) :
    IdsKept (addIds state.sent ++ addedIds trace) (state.db.writes trace).chan := by
  refine Db.writes_holds (IdsKept (addIds state.sent ++ addedIds trace))
    (fun db saved hsaved => hsaved.saveSelf db) ?_ fun saved hsaved => ?_
  · exact hids.db.mono fun id hmem => List.mem_append_left _ hmem
  · have hchange := handle_saves crypto state.self ev saved (hsub _ hsaved)
    exact (hkept saved hsaved).congr (handle_saved_slots (hsub _ hsaved)) hchange.sameIds.1.symm

theorem IdsKept.of_unused (hslots : SameButSignatures (fun _ => {}) self.cnlAddHtlc)
    (hnum : self.htlcIdNum = 0) : IdsKept [] self := by
  have hnone : ∀ idx, (self.cnlAddHtlc idx).flag = {} ∧
      (self.cnlAddHtlc idx).prevShortChannelId = 0 := by
    intro idx
    obtain ⟨signature, hidx⟩ := hslots idx
    rw [hidx]
    exact ⟨rfl, rfl⟩
  have hnot : ∀ idx, ¬ Own (self.cnlAddHtlc idx) := by
    intro idx hown
    rw [Own, (hnone idx).1, (hnone idx).2] at hown
    exact absurd hown (by decide)
  constructor
  · intro idx
    constructor
    · exact fun _ => by rw [(hnone idx).1]
    · exact fun _ _ => by rw [(hnone idx).1]; exact ⟨rfl, rfl⟩
    · exact fun _ => (hnone idx).2
  · exact fun idx hown => absurd hown (hnot idx)
  · exact fun idx _ hown => absurd hown (hnot idx)
  · exact fun idx hown => absurd hown (hnot idx)
  · intro id hlt
    rw [hnum] at hlt
    exact absurd hlt (Nat.not_lt_zero id)
  · intro idx _ hrecv
    rw [(hnone idx).1] at hrecv
    cases hrecv

theorem channelIds_start {state : ChannelState} (hstart : (channelSystem crypto).start state) :
    ChannelIds state := by
  obtain ⟨outcome, hdone, rfl⟩ := hstart
  obtain ⟨_, _, _, ready, rfl, hfresh⟩ := hdone.fresh
  have hkept : IdsKept [] ready := .of_unused hfresh.slots hfresh.htlcIdNum
  have hwait : IdsKept [] (startFundingWait crypto ready).self := hkept.congr rfl rfl
  constructor
  · exact hwait
  · exact hwait.saveSelf _
  · intro earlier id later hsplit
    cases earlier <;> cases hsplit
  · intro _ id hmem
    cases hmem

theorem Took.addIds {before after : ChannelState} {outcome : Outcome} {trace : List Effect}
    (htook : Took before outcome trace after) :
    addIds after.sent = addIds before.sent ++ addedIds trace := by
  rw [htook.sent, addIds_append]
  rfl

theorem take_range' (first count taken : Nat) :
    ∃ kept ≤ count, (List.range' first count).take taken = List.range' first kept := by
  by_cases hle : count ≤ taken
  · exact ⟨count, Nat.le_refl _, List.take_range'_of_length_le hle⟩
  · exact ⟨taken, by omega, List.take_range'_of_length_ge (by omega)⟩

/-- The ids of the part of an event that took place are in order. -/
theorem Gapless.took {state : ChannelState} {ev : ChannelEvent} {trace : List Effect}
    (hids : ChannelIds state) (hrunning : state.running = true)
    (horder : ev = .idle → SendsInOrder state.self)
    (htaken : ∃ count, addedIds trace =
      (addedIds (handle crypto state.self ev).trace).take count) :
    Gapless (addIds state.sent ++ addedIds trace) := by
  obtain ⟨taken, htaken⟩ := htaken
  rw [htaken]
  by_cases hidle : ev = .idle
  · subst hidle
    obtain ⟨first, count, hrange, hlower⟩ :=
      (eventIds_idle crypto hids hrunning (horder rfl)).idle rfl
    obtain ⟨kept, hle, hkept⟩ := take_range' first count taken
    rw [show handle crypto state.self .idle = lnRecvIdleProc crypto state.self from rfl, hrange,
      hkept]
    exact hids.order.append_range fun lower hlt hne => hlower lower hlt (by omega)
  · exact hids.order.append_known fun id hmem => hids.repeats hidle (List.mem_of_mem_take hmem)

theorem channelIds_step {before after : ChannelState} {label : ChannelLabel}
    (hids : ChannelIds before) (horderly : OrderlyIds crypto before label)
    (hnext : channelNext crypto before label = some after) : ChannelIds after := by
  rcases channelNext_took hnext with ⟨ev, rfl, htook⟩ | ⟨ev, done, rfl, htook⟩ | ⟨dataloss, rfl⟩
  · have hevent := eventIds hids htook.running horderly
    have hself : after.self = (handle crypto before.self ev).self := by
      simp only [channelNext] at hnext
      split at hnext
      · obtain rfl := Option.some.inj hnext
        rfl
      · cases hnext
    constructor
    · rw [htook.addIds, hself]
      exact hevent.kept
    · rw [htook.addIds, htook.db]
      exact hids.writes (fun _ hmem => hmem) fun _ _ => hevent.kept
    · rw [htook.addIds]
      refine .took hids htook.running (fun hidle => ?_) ⟨_, (List.take_length ..).symm⟩
      rw [hidle] at horderly
      exact horderly
    · intro _
      rw [htook.sent, sinceRestart_append (handle_continues crypto before.self ev), addIds_append,
        hself]
      exact hevent.fresh
  · have hstopped : after.running = false ∧ after.self = before.self := by
      simp only [channelNext] at hnext
      split at hnext
      · obtain rfl := Option.some.inj hnext
        exact ⟨rfl, rfl⟩
      · cases hnext
    constructor
    · rw [htook.addIds, hstopped.2]
      exact hids.self.mono fun id hmem => List.mem_append_left _ hmem
    · rw [htook.addIds, htook.db]
      refine hids.writes (fun _ hmem => List.mem_of_mem_take hmem) fun saved hsaved => ?_
      have huses : ev.usesIds crypto before.self := by
        by_cases hidle : ev = .idle
        · rw [hidle]
          exact horderly hidle
        · exact usesIds_of_saves hidle (List.mem_of_mem_take hsaved)
      rw [addedIds_take_of_saves hsaved]
      exact (eventIds hids htook.running huses).kept
    · rw [htook.addIds]
      exact .took hids htook.running horderly (addedIds_take _ done)
    · intro hrunning
      rw [hstopped.1] at hrunning
      cases hrunning
  · obtain rfl := Option.some.inj hnext
    have hnone : ∀ reest, addIds (before.sent ++ [.channelReestablish reest]) =
        addIds before.sent := by
      intro reest
      rw [addIds_append]
      exact List.append_nil _
    constructor
    · rw [lnChannelReestablishCreate, hnone]
      exact hids.db.congr rfl rfl
    · rw [lnChannelReestablishCreate, hnone]
      exact hids.db
    · rw [lnChannelReestablishCreate, hnone]
      exact hids.order
    · intro _
      rw [lnChannelReestablishCreate, sinceRestart_restart]
      exact fun id hmem => absurd hmem List.not_mem_nil

/-- In every run that uses ids in order, the ids are handed over in order, and each of them
belongs to one HTLC. -/
theorem idDiscipline_of_orderlyIds {before after : ChannelState} {label : ChannelLabel}
    (hreach : (channelSystem crypto).ReachableUnder (OrderlyIds crypto) before)
    (horderly : OrderlyIds crypto before label)
    (hnext : (channelSystem crypto).next before label = some after) :
    IdDiscipline crypto before label after := by
  have hids : ChannelIds before := hreach.invariant ChannelIds (fun _ => channelIds_start)
    fun _ _ _ => channelIds_step
  have hafter := channelIds_step hids horderly hnext
  have hpart : ∀ ev, label.ev = some ev → before.running = true ∧
      (ev = .idle → SendsInOrder before.self) ∧
        ∃ count, addIds (label.handedOver crypto before.self) =
          (addedIds (handle crypto before.self ev).trace).take count := by
    intro ev hev
    rcases channelNext_took hnext with ⟨ev', rfl, htook⟩ | ⟨ev', done, rfl, htook⟩ | ⟨_, rfl⟩
    · obtain rfl := Option.some.inj hev
      refine ⟨htook.running, fun hidle => ?_, _, (List.take_length ..).symm⟩
      rw [hidle] at horderly
      exact horderly
    · obtain rfl := Option.some.inj hev
      exact ⟨htook.running, horderly, addedIds_take _ done⟩
    · cases hev
  constructor
  · exact hafter.order
  · intro hidle id hmem
    cases hev : label.ev with
    | none =>
        cases label with
        | restart dataloss => cases hmem
        | _ => cases hev
    | some ev =>
        obtain ⟨-, -, count, hcount⟩ := hpart ev hev
        rw [hcount] at hmem
        refine hids.repeats (fun heq => ?_) (List.mem_of_mem_take hmem)
        rw [hev, heq] at hidle
        exact hidle rfl
  · intro hidle
    obtain ⟨hrunning, horder, taken, htaken⟩ := hpart .idle hidle
    have hevent := eventIds_idle crypto hids hrunning (horder rfl)
    obtain ⟨first, count, hrange, -⟩ := hevent.idle rfl
    rw [htaken]
    constructor
    · rw [show handle crypto before.self .idle = lnRecvIdleProc crypto before.self from rfl, hrange]
      exact (List.nodup_range' ..).sublist (List.take_sublist ..)
    · exact fun id hmem => hevent.once rfl id (List.mem_of_mem_take hmem)
  · exact hafter.self.distinct
  · exact hafter.self.received

instance (self : LnSelf) : Decidable (SendsInOrder self) :=
  inferInstanceAs (Decidable (¬ AllComrev _ → ¬ AnyComsiging _ → ∀ _ _, _ → _ → _ → _ ∧ _))

instance decidableFreshId (self : LnSelf) : (ev : ChannelEvent) → Decidable (FreshId self ev)
  | .recv _ (.updateAddHtlc ..) _ => inferInstanceAs (Decidable (_ → ∀ _, _ → _))
  | .recv _ (.updateFulfillHtlc ..) _ => .isTrue trivial
  | .recv _ (.updateFailHtlc ..) _ => .isTrue trivial
  | .recv _ (.updateFailMalformedHtlc ..) _ => .isTrue trivial
  | .recv _ (.commitmentSigned ..) _ => .isTrue trivial
  | .recv _ (.revokeAndAck ..) _ => .isTrue trivial
  | .recv _ (.updateFee _) _ => .isTrue trivial
  | .recv _ (.fundingLocked _) _ => .isTrue trivial
  | .recv _ (.shutdown _) _ => .isTrue trivial
  | .recv _ (.closingSigned ..) _ => .isTrue trivial
  | .recv _ (.channelReestablish _) _ => .isTrue trivial
  | .idle => .isTrue trivial
  | .addHtlc _ => .isTrue trivial
  | .addHtlcFwd _ => .isTrue trivial
  | .startFwd _ => .isTrue trivial
  | .fulfillHtlc .. => .isTrue trivial
  | .failHtlc .. => .isTrue trivial
  | .shutdown _ => .isTrue trivial
  | .reestablished => .isTrue trivial

instance (crypto : Crypto) (self : LnSelf) (req : AddHtlcRequest) :
    Decidable (HtlcFits crypto self req) :=
  inferInstanceAs (Decidable (_ → ∀ _, _ → _))

instance decidableUsesIds (crypto : Crypto) (self : LnSelf) :
    (ev : ChannelEvent) → Decidable (ev.usesIds crypto self)
  | .idle => inferInstanceAs (Decidable (SendsInOrder self))
  | .addHtlc req =>
      inferInstanceAs (Decidable (_ < _ ∧ HtlcFits crypto self req))
  | .addHtlcFwd req =>
      inferInstanceAs (Decidable (_ < _ ∧ HtlcFits crypto self req ∧ _))
  | .recv channelId msg env =>
      inferInstanceAs (Decidable (_ ∧ FreshId self (.recv channelId msg env)))
  | .startFwd idx => inferInstanceAs (Decidable (_ ∧ FreshId self (.startFwd idx)))
  | .fulfillHtlc idx preimage =>
      inferInstanceAs (Decidable (_ ∧ FreshId self (.fulfillHtlc idx preimage)))
  | .failHtlc idx reason => inferInstanceAs (Decidable (_ ∧ FreshId self (.failHtlc idx reason)))
  | .shutdown fee => inferInstanceAs (Decidable (_ ∧ FreshId self (.shutdown fee)))
  | .reestablished => inferInstanceAs (Decidable (_ ∧ FreshId self .reestablished))

instance decidableOrderlyIds (crypto : Crypto) (before : ChannelState) :
    (label : ChannelLabel) → Decidable (OrderlyIds crypto before label)
  | .event ev => decidableUsesIds crypto before.self ev
  | .stop .. => inferInstanceAs (Decidable (_ → SendsInOrder _))
  | .restart _ => inferInstanceAs (Decidable True)

/-- A request to add an HTLC of the given origin. -/
def symbolicRequest (prevShortChannelId : UInt64) : AddHtlcRequest where
  packet := []
  amountMsat := 500000
  cltvValue := 100
  paymentHash := [9]
  prevShortChannelId

/-- A forwarded HTLC is reserved and started, then a payment follows. -/
def forwardAndPayScript : List (ChannelState → ChannelLabel) :=
  [ fun _ => .event (.addHtlcFwd (symbolicRequest 5)),
    fun _ => .event (.startFwd 0),
    fun _ => .event (.addHtlc (symbolicRequest 0)) ]

/-- The idle processing then hands over the ids 0 and 1. -/
theorem idDiscipline_forwardAndPay :
    ∃ before after : ChannelState,
      addIds (ChannelLabel.handedOver .symbolic before.self (.event .idle)) = [0, 1] ∧
        IdDiscipline .symbolic before (.event .idle) after := by
  have hcheck : symbolicCheck 1000000 500000000
      (fun before label => decide (OrderlyIds .symbolic before label)) forwardAndPayScript
      (fun state _ =>
        addIds (ChannelLabel.handedOver .symbolic state.self (.event .idle)) == [0, 1] &&
        decide (OrderlyIds .symbolic state (.event .idle)) &&
        (channelNext .symbolic state (.event .idle)).isSome) = true := by
    decide +kernel
  have horderly : ∀ choose ∈ forwardAndPayScript, ∀ before : ChannelState,
      decide (OrderlyIds .symbolic before (choose before)) = true →
      OrderlyIds .symbolic before (choose before) :=
    fun _ _ _ hdecide => of_decide_eq_true hdecide
  obtain ⟨_, state, _, _, hhistory, _, hchecked⟩ := history_of_symbolicCheck horderly hcheck
  simp only [Bool.and_eq_true, beq_iff_eq, decide_eq_true_eq] at hchecked
  obtain ⟨⟨hadded, hidle⟩, hsome⟩ := hchecked
  obtain ⟨after, hnext⟩ := Option.isSome_iff_exists.mp hsome
  exact ⟨state, after, hadded, idDiscipline_of_orderlyIds hhistory.reachableUnder hidle hnext⟩

/-- A forwarded HTLC is reserved, and a payment overtakes it. -/
def overtakenScript : List (ChannelState → ChannelLabel) :=
  [ fun _ => .event (.addHtlcFwd (symbolicRequest 5)),
    fun _ => .event (.addHtlc (symbolicRequest 0)) ]

/-- The first id handed over is 1. -/
theorem idGap_overtaken :
    ¬ ∀ (crypto : Crypto) (before after : ChannelState) (label : ChannelLabel),
      (channelSystem crypto).Reachable before →
        (channelSystem crypto).next before label = some after →
        IdDiscipline crypto before label after := by
  intro hall
  have hcheck : symbolicCheck 1000000 500000000 permitAll overtakenScript (fun state _ =>
      (channelNext .symbolic state (.event .idle)).any fun after =>
        addIds after.sent == [1]) = true := by
    decide +kernel
  obtain ⟨state, past, hhistory, hchecked⟩ := run_of_symbolicCheck hcheck
  obtain ⟨after, hnext, hafter⟩ := (Option.any_eq_true _ _).mp hchecked
  have horder := (hall _ state after (.event .idle) hhistory.reachableUnder hnext).inOrder
  rw [beq_iff_eq.mp hafter] at horder
  exact absurd (horder [] 1 [] rfl 0 Nat.zero_lt_one) List.not_mem_nil

end Ptarmigan
