/-
Mutual close over whole runs: which transactions still hold HTLCs or a new feerate when
`closing_signed` is made, and which HTLCs are added after `shutdown`.
-/
import Ptarmigan.IdRun
import Ptarmigan.PendingHtlc

namespace Ptarmigan

open TransitionSystem

variable {crypto : Crypto} {self : LnSelf}

/-! ### The channel and what is uncommitted -/

/-- A channel with what its events have left pending, newest first, now and when it was
last saved. -/
structure CloseWorld where
  chan : ChannelState
  log : List ChannelNote
  savedLog : List ChannelNote

def closeNext (crypto : Crypto) (world : CloseWorld) (label : ChannelLabel) : Option CloseWorld :=
  (channelNext crypto world.chan label).map fun chan =>
    let log :=
      match label.ev with
      | some ev => notesOf crypto world.chan.self ev ++ world.log
      | none => world.savedLog
    { chan, log
      savedLog :=
        if (label.performed crypto world.chan.self).any Effect.saves then log
        else world.savedLog }

/-- The runs of a channel from the end of the funding exchange on. -/
def closeSystem (crypto : Crypto) : System CloseWorld ChannelLabel where
  start world := (channelSystem crypto).start world.chan ∧ world.log = [] ∧ world.savedLog = []
  next := closeNext crypto

/-- Every slot is empty, and no update is uncommitted on either side. -/
def CloseWorld.Clear (world : CloseWorld) : Prop :=
  (∀ idx, (world.chan.self.cnlAddHtlc idx).empty = true) ∧ openFee world.log = {}

/-! ### The law and its condition -/

/-- The effect hands over a `closing_signed` or the closing transaction. -/
def Effect.closes : Effect → Bool
  | .sendReq _ (.closingSigned ..) => true
  | .closing => true
  | _ => false

/-- The effect hands over an `update_add_htlc`. -/
def Effect.adds : Effect → Bool
  | .sendReq _ (.updateAddHtlc ..) => true
  | _ => false

/-- The event is a `shutdown` that passes the checks of `recv_shutdown`. -/
def acceptsShutdown (self : LnSelf) : ChannelEvent → Bool
  | .recv channelId (.shutdown scriptpk) _ =>
      self.initFlag.exchanged && !self.shutdownFlag.recv && channelId == self.channelId &&
        lnScriptScriptpkhCheck scriptpk
  | _ => false

/-- The event comes to sign a closing transaction. -/
def signsClosing (self : LnSelf) : ChannelEvent → Bool
  | .recv channelId (.closingSigned feeSat _) _ =>
      self.initFlag.exchanged && self.shutdownFlag.exchanged && channelId == self.channelId &&
        !decide (feeSat > lnClosingSignedInitfee self)
  | ev => acceptsShutdown self ev && self.isFunder

/-- The event closes the channel only when nothing is pending, and adds no HTLC in a
direction in which `shutdown` has gone. -/
structure ClosesInOrder (crypto : Crypto) (world : CloseWorld) (ev : ChannelEvent) : Prop where
  clear : signsClosing world.chan.self ev = true ∨
      (handle crypto world.chan.self ev).trace.any Effect.closes = true → world.Clear
  sent : world.chan.self.shutdownFlag.send = true →
    (ev ≠ .reestablished → (handle crypto world.chan.self ev).trace.any Effect.adds = false) ∧
      ∀ idx, ((handle crypto world.chan.self ev).self.cnlAddHtlc idx).flag.addhtlc = .offer →
        (world.chan.self.cnlAddHtlc idx).flag.addhtlc = .offer
  received : world.chan.self.shutdownFlag.recv = true →
    ∀ idx, ((handle crypto world.chan.self ev).self.cnlAddHtlc idx).flag.addhtlc = .recv →
      (world.chan.self.cnlAddHtlc idx).flag.addhtlc = .recv

/-- No `update_add_htlc` is due. -/
def NoneDue (slots : Slots) : Prop :=
  ∀ idx, (slots idx).flag.willAddhtlc = false

/-- A funder gets the `shutdown` of the peer, and either side its first `closing_signed`, after
every HTLC that came is gone and the last feerate is committed.  The own `shutdown` is not sent
while an `update_add_htlc` is due.  After it no reserved HTLC is started, and after the own
`closing_signed` no `update_fee` is accepted. -/
def TidyEvent (world : CloseWorld) (ev : ChannelEvent) : Prop :=
  match ev with
  | .recv _ (.shutdown _) _ =>
      (signsClosing world.chan.self ev = true → AllSettled world.log) ∧
        (acceptsShutdown world.chan.self ev = true → world.chan.self.shutdownFlag.send = false →
          NoneDue world.chan.self.cnlAddHtlc)
  | .recv _ (.closingSigned ..) _ =>
      signsClosing world.chan.self ev = true → world.chan.self.closeLastFeeSat = 0 →
        AllSettled world.log
  | .recv _ (.updateFee _) _ =>
      acceptsFee world.chan.self ev = true → world.chan.self.closeLastFeeSat = 0
  | .shutdown _ =>
      world.chan.self.shutdownFlag.send = false → NoneDue world.chan.self.cnlAddHtlc
  | .startFwd _ => world.chan.self.shutdownFlag.send = false
  | _ => True

def TidyStep (world : CloseWorld) (label : ChannelLabel) : Prop :=
  ∀ ev, label.ev = some ev → TidyEvent world ev

/-! ### What a handler hands over -/

theorem closesNothing_recvFunc (channelId : Bytes) (env : RecvEnv) (msg : LnMsg)
    (hclosing : (ChannelEvent.recv channelId msg env).isClosing = false) :
    (recvFunc crypto self channelId env msg).trace.any Effect.closes = false := by
  cases msg with
  | shutdown scriptpk => cases hclosing
  | closingSigned feeSat signature => cases hclosing
  | updateAddHtlc id amountMsat paymentSha256 cltvExpiry packet =>
      simp only [recvFunc, recvUpdateAddHtlc, Outcome.reject]
      repeat' split
      all_goals rfl
  | updateFulfillHtlc id preimage =>
      simp only [recvFunc, recvUpdateFulfillHtlc, Outcome.reject]
      repeat' split
      all_goals rfl
  | updateFailHtlc id reason =>
      simp only [recvFunc, recvUpdateFailHtlc, Outcome.reject]
      repeat' split
      all_goals rfl
  | updateFailMalformedHtlc id sha256Onion failureCode =>
      simp only [recvFunc, recvUpdateFailMalformedHtlc, Outcome.reject]
      repeat' split
      all_goals rfl
  | commitmentSigned signature htlcSignatures =>
      simp only [recvFunc, recvCommitmentSigned, Outcome.reject]
      split_ifs <;> rfl
  | revokeAndAck prevSecret newCommitpt =>
      simp only [recvFunc, recvRevokeAndAck, Outcome.reject]
      repeat' split
      all_goals rfl
  | updateFee feeratePerKw =>
      simp only [recvFunc, recvUpdateFee, Outcome.reject]
      split <;> rfl
  | fundingLocked perCommitpt =>
      simp only [recvFunc, recvFundingLocked, Outcome.reject]
      split <;> rfl
  | channelReestablish reest =>
      simp only [recvFunc, recvChannelReestablish, Outcome.reject]
      repeat' split
      all_goals rfl

/-- The effect neither adds an HTLC nor closes the channel. -/
def Effect.still (effect : Effect) : Bool :=
  !effect.adds && !effect.closes

theorem idleFinal_still (self : LnSelf) :
    (recvIdleProcFinal self).trace.all Effect.still = true := by
  have hslot : ∀ htlc, (idleFinalSlot htlc).2.all Effect.still = true := by
    intro htlc
    simp only [idleFinalSlot]
    split_ifs <;> rfl
  simp only [recvIdleProcFinal, List.all_append, List.all_flatMap, Bool.and_eq_true,
    List.all_eq_true]
  refine ⟨⟨fun idx _ effect hmem => ?_, ?_⟩, ?_⟩
  · exact List.all_eq_true.mp (hslot (self.cnlAddHtlc idx)) effect hmem
  · split_ifs <;> simp [Effect.still, Effect.adds, Effect.closes]
  · split_ifs <;> simp [Effect.still, Effect.adds, Effect.closes]

/-- Apart from the updates that are due, the idle processing hands over nothing that adds
an HTLC or closes the channel. -/
theorem idle_effect {effect : Effect} (hmem : effect ∈ (lnRecvIdleProc crypto self).trace) :
    effect.still = true ∨
      ∃ idx msg, effect = .sendReq (some idx) msg ∧
        idleUpdateMsg (self.cnlAddHtlc idx) = some msg := by
  have hdue : ∀ effect ∈ (List.finRange lnHtlcMax).filterMap fun idx =>
      (idleUpdateMsg (self.cnlAddHtlc idx)).map (Effect.sendReq (some idx)),
      ∃ idx msg, effect = .sendReq (some idx) msg ∧
        idleUpdateMsg (self.cnlAddHtlc idx) = some msg := by
    intro effect hmem
    obtain ⟨idx, -, hidx⟩ := List.mem_filterMap.mp hmem
    obtain ⟨msg, hmsg, rfl⟩ := Option.map_eq_some_iff.mp hidx
    exact ⟨idx, msg, rfl, hmsg⟩
  simp only [lnRecvIdleProc] at hmem
  split_ifs at hmem
  · cases hmem
  · exact .inl (List.all_eq_true.mp (idleFinal_still self) effect hmem)
  · simp only [recvIdleProcNonfinal, idleSendComsig] at hmem
    split_ifs at hmem
    · cases hmem
    · split at hmem
      · rcases List.mem_append.mp hmem with hmem | hquit
        · exact .inr (hdue effect hmem)
        · obtain rfl := List.mem_singleton.mp hquit
          exact .inl rfl
      · rename_i commit msg hcreated
        obtain ⟨txid, signature, htlcNum, htlcSigs, -, rfl⟩ := createCommitmentSigned_spec hcreated
        rcases List.mem_append.mp hmem with hmem | hsigned
        · exact .inr (hdue effect hmem)
        · simp only [List.mem_cons, List.not_mem_nil, or_false] at hsigned
          rcases hsigned with rfl | rfl <;> exact .inl rfl
    · exact .inr (hdue effect hmem)

theorem closes_idleUpdateMsg {htlc : LnUpdateAddHtlc} {msg : LnMsg} {idx : Option HtlcIdx}
    (hmsg : idleUpdateMsg htlc = some msg) : (Effect.sendReq idx msg).closes = false := by
  simp only [idleUpdateMsg] at hmsg
  split_ifs at hmsg
  · obtain rfl := Option.some.inj hmsg
    rfl
  · cases hdel : htlc.flag.delhtlc <;> rw [hdel] at hmsg <;> cases hmsg <;> rfl

theorem adds_idleUpdateMsg {htlc : LnUpdateAddHtlc} {msg : LnMsg} {idx : Option HtlcIdx}
    (hnone : htlc.flag.willAddhtlc = false) (hmsg : idleUpdateMsg htlc = some msg) :
    (Effect.sendReq idx msg).adds = false := by
  simp only [idleUpdateMsg, hnone, Bool.and_false, Bool.false_eq_true, if_false] at hmsg
  split_ifs at hmsg
  cases hdel : htlc.flag.delhtlc <;> rw [hdel] at hmsg <;> cases hmsg <;> rfl

theorem closes_reestUpdateMsg {htlc : LnUpdateAddHtlc} {msg : LnMsg} {idx : Option HtlcIdx}
    (hmsg : reestUpdateMsg htlc = some msg) : (Effect.sendReq idx msg).closes = false := by
  simp only [reestUpdateMsg] at hmsg
  split_ifs at hmsg <;>
    · obtain rfl := Option.some.inj hmsg
      rfl

theorem closesNothing_reestablished (self : LnSelf) :
    (lnChannelReestablishAfter crypto self).trace.any Effect.closes = false := by
  have hresent : (reestResendUpdate self).trace.any Effect.closes = false := by
    rw [reestResendUpdate]
    split
    · rfl
    · rename_i idx msg hfind
      obtain ⟨other, -, hother⟩ := List.exists_of_findSome?_eq_some hfind
      obtain ⟨msg', hmsg, heq⟩ := Option.map_eq_some_iff.mp hother
      obtain ⟨rfl, rfl⟩ := Prod.mk.inj heq
      rw [List.any_cons, closes_reestUpdateMsg hmsg]
      rfl
  simp only [lnChannelReestablishAfter]
  split_ifs
  · rw [List.any_append, hresent]
    rfl
  · exact hresent
  · rfl
  · rfl

theorem lnRecv_shutdown_refused {channelId scriptpk : Bytes} {env : RecvEnv}
    (hrefused : acceptsShutdown self (.recv channelId (.shutdown scriptpk) env) = false) :
    ∃ script, lnRecv crypto self channelId (.shutdown scriptpk) env =
      .reject { self with shutdownScriptpkRemote := script } := by
  simp only [lnRecv, recvFunc, recvShutdown]
  split_ifs with hinit hrecv hchannel hscript
  · exact ⟨_, rfl⟩
  · exact ⟨_, rfl⟩
  · exact ⟨_, rfl⟩
  · simp_all [acceptsShutdown]
  · exact ⟨_, rfl⟩

/-- The channel when an accepted `shutdown` has been read. -/
def shutdownReceived (self : LnSelf) (scriptpk : Bytes) : LnSelf :=
  { self with
    shutdownScriptpkRemote := scriptpk
    shutdownFlag := { self.shutdownFlag with recv := true } }

/-- The answer to an accepted `shutdown`. -/
def shutdownAnswered (self : LnSelf) (scriptpk : Bytes) : Outcome :=
  answerShutdown { shutdownReceived self scriptpk with closeLastFeeSat := 0 }

/-- The channel when `shutdown` has been exchanged. -/
def shutdownExchanged (self : LnSelf) (scriptpk : Bytes) : LnSelf :=
  { (shutdownAnswered self scriptpk).self with status := .closeWait }

/-- An accepted `shutdown` is answered, and a funder goes on with `closing_signed`. -/
theorem lnRecv_shutdown_accepted {channelId scriptpk : Bytes} {env : RecvEnv}
    (haccepts : acceptsShutdown self (.recv channelId (.shutdown scriptpk) env) = true) :
    lnRecv crypto self channelId (.shutdown scriptpk) env =
      Outcome.andThen
        ⟨true, shutdownExchanged self scriptpk,
          .selfSave (shutdownReceived self scriptpk) :: (shutdownAnswered self scriptpk).trace ++
            [.selfSave (shutdownExchanged self scriptpk)]⟩
        (startClosing crypto) := by
  simp only [acceptsShutdown, Bool.and_eq_true, Bool.not_eq_true', beq_iff_eq] at haccepts
  obtain ⟨⟨⟨hinit, hrecv⟩, hchannel⟩, hscript⟩ := haccepts
  simp [lnRecv, recvFunc, recvShutdown, hinit, hrecv, hchannel, hscript, Outcome.andThen,
    shutdownExchanged, shutdownAnswered, shutdownReceived]

theorem answerShutdown_self (self : LnSelf) :
    ∃ closeFeeSat, (answerShutdown self).self = { self with
      shutdownFlag := { self.shutdownFlag with send := true }, closeFeeSat } := by
  rw [answerShutdown]
  split
  · rename_i hsend
    refine ⟨self.closeFeeSat, ?_⟩
    rw [← hsend]
  · exact ⟨_, rfl⟩

theorem answerShutdown_closes (self : LnSelf) :
    (answerShutdown self).trace.any Effect.closes = false := by
  rw [answerShutdown]
  split <;> rfl

theorem shutdownExchanged_eq (self : LnSelf) (scriptpk : Bytes) :
    ∃ closeFeeSat, shutdownExchanged self scriptpk = { self with
      status := .closeWait
      shutdownScriptpkRemote := scriptpk
      shutdownFlag := ⟨true, true⟩
      closeFeeSat, closeLastFeeSat := 0 } := by
  obtain ⟨closeFeeSat, hself⟩ := answerShutdown_self
    { shutdownReceived self scriptpk with closeLastFeeSat := 0 }
  refine ⟨closeFeeSat, ?_⟩
  rw [shutdownExchanged, shutdownAnswered, hself]
  rfl

/-- A fundee waits for the `closing_signed` of the peer. -/
theorem startClosing_fundee (hfundee : self.isFunder = false) :
    startClosing crypto self = ⟨true, self, []⟩ := by
  simp only [startClosing, hfundee, Bool.false_eq_true, if_false]

/-- Only an event that comes to sign a closing transaction closes the channel. -/
theorem signsClosing_of_closes {ev : ChannelEvent}
    (hcloses : (handle crypto self ev).trace.any Effect.closes = true) :
    signsClosing self ev = true := by
  cases ev with
  | recv channelId msg env =>
      rw [handle] at hcloses
      by_cases hinit : self.initFlag.exchanged = true
      · cases msg with
        | shutdown scriptpk =>
            cases haccepts : acceptsShutdown self (.recv channelId (.shutdown scriptpk) env) with
            | false =>
                obtain ⟨script, hrefused⟩ := @lnRecv_shutdown_refused crypto _ _ _ _ haccepts
                rw [hrefused] at hcloses
                cases hcloses
            | true =>
                refine Bool.and_eq_true_iff.mpr ⟨haccepts, ?_⟩
                by_contra hfundee
                obtain ⟨closeFeeSat, hself⟩ := shutdownExchanged_eq self scriptpk
                rw [lnRecv_shutdown_accepted haccepts, Outcome.andThen,
                  startClosing_fundee] at hcloses
                · simp [shutdownAnswered, answerShutdown_closes, Effect.closes] at hcloses
                · rw [hself]
                  exact Bool.eq_false_iff.mpr hfundee
        | closingSigned feeSat signature =>
            rw [lnRecv, if_pos hinit] at hcloses
            simp only [recvFunc, recvClosingSigned, Outcome.reject] at hcloses
            split_ifs at hcloses with hexchanged hchannel hfee
            · cases hcloses
            · cases hcloses
            · cases hcloses
            · simp_all [signsClosing, lnClosingSignedInitfee]
        | _ =>
            rw [lnRecv, if_pos hinit, closesNothing_recvFunc _ _ _ rfl] at hcloses
            cases hcloses
      · rw [lnRecv, if_neg hinit] at hcloses
        cases hcloses
  | idle =>
      obtain ⟨effect, hmem, heffect⟩ := List.any_eq_true.mp hcloses
      rcases idle_effect hmem with hstill | ⟨idx, msg, rfl, hmsg⟩
      · simp [Effect.still, heffect] at hstill
      · rw [closes_idleUpdateMsg hmsg] at heffect
        cases heffect
  | reestablished =>
      rw [handle, closesNothing_reestablished] at hcloses
      cases hcloses
  | _ => cases hcloses

/-! ### The slots -/

theorem shutdownFlag_of_lnAddHtlcSet {req : AddHtlcRequest} {idx : HtlcIdx}
    (hset : (lnAddHtlcSet crypto self req).1 = some idx) : self.shutdownFlag = {} := by
  by_contra hflag
  rw [lnAddHtlcSet, if_pos hflag] at hset
  cases hset

theorem shutdownFlag_of_lnAddHtlcSetFwd {req : AddHtlcRequest} {idx : HtlcIdx}
    (hset : (lnAddHtlcSetFwd crypto self req).1 = some idx) : self.shutdownFlag = {} := by
  by_contra hflag
  rw [lnAddHtlcSetFwd, if_pos hflag] at hset
  cases hset

theorem shutdownFlag_of_acceptedSlot {channelId : Bytes} {id : Nat} {amountMsat : UInt64}
    {paymentSha256 : Bytes} {cltvExpiry : UInt32} {packet : Bytes} {idx : HtlcIdx}
    (haccepted : acceptedSlot self channelId id amountMsat paymentSha256 cltvExpiry packet =
      some idx) : self.shutdownFlag.recv = false := by
  obtain ⟨-, hchecked⟩ := Option.filter_eq_some_iff.mp haccepted
  simp only [checkRecvAddHtlcBolt2, Bool.and_eq_true, Bool.not_eq_true'] at hchecked
  exact hchecked.2.1.1.1.1.1.1

/-- The HTLC of a slot stays, goes, or is a new one, and what the shutdown flags then are. -/
inductive HtlcChange (self : LnSelf) (ev : ChannelEvent) (idx : HtlcIdx)
    (post : LnUpdateAddHtlc) : Prop
  | same : SameHtlc (self.cnlAddHtlc idx) post → HtlcChange self ev idx post
  | gone : post = {} → HtlcChange self ev idx post
  | read : ev.isAdd = true → post.flag.addhtlc = (self.cnlAddHtlc idx).flag.addhtlc →
      HtlcChange self ev idx post
  | requested : self.shutdownFlag = {} → post.flag.addhtlc ≠ .recv → HtlcChange self ev idx post
  | started : ev = .startFwd idx → post.flag.addhtlc = .offer → HtlcChange self ev idx post
  | received : ev.isAdd = true → self.shutdownFlag.recv = false → post.flag.addhtlc = .recv →
      HtlcChange self ev idx post

theorem slotChange_htlc {ev : ChannelEvent} {idx : HtlcIdx} {post : LnUpdateAddHtlc}
    (hchange : SlotChange crypto self ev idx post) : HtlcChange self ev idx post := by
  cases hchange with
  | kept => exact .same (.refl _)
  | read hempty => exact .read rfl rfl
  | received haccepted _ _ hflag =>
      obtain ⟨finDelhtlc, hflag⟩ := hflag
      exact .received rfl (shutdownFlag_of_acceptedSlot haccepted) (by rw [hflag])
  | receivedFailed haccepted _ hpost =>
      exact .received rfl (shutdownFlag_of_acceptedSlot haccepted) hpost.2.2.2.2
  | removing => exact .same (.clearHtlcComrevflag _ _)
  | signed => exact .same ⟨rfl, rfl, rfl, rfl, rfl, rfl, rfl⟩
  | @committed channelId sig htlcSigs env _ signature =>
      have hsigned : SameHtlc (self.cnlAddHtlc idx)
          { self.cnlAddHtlc idx with signature } :=
        ⟨rfl, rfl, rfl, rfl, rfl, rfl, rfl⟩
      apply HtlcChange.same
      apply (hsigned.trans (.setFlagIf ?_)).trans (.setFlagIf ?_)
      · exact fun _ => rfl
      · exact fun _ => rfl
  | acked =>
      apply HtlcChange.same
      apply SameHtlc.setFlagIf
      exact fun _ => rfl
  | finalised =>
      cases hremoves : idleFinalRemoves (self.cnlAddHtlc idx) with
      | true => exact .gone (idleFinalSlot_removed hremoves)
      | false => exact .same (.idleFinalSlot hremoves)
  | updated => exact .same (.idleUpdateSlot _)
  | comsent =>
      apply HtlcChange.same
      apply (SameHtlc.idleUpdateSlot _).trans
      apply SameHtlc.setFlagIf
      exact fun _ => rfl
  | @offered req _ hcheck hset =>
      have hempty := addhtlc_of_empty
        (empty_of_firstEmpty (firstEmpty_of_checkCreateAddHtlc hcheck))
      exact .requested (shutdownFlag_of_lnAddHtlcSet hset) (by simp [LnUpdateAddHtlc.setFlag])
  | dropped => exact .gone rfl
  | @reserved req _ hcheck hset =>
      have hempty := addhtlc_of_empty
        (empty_of_firstEmpty (firstEmpty_of_checkCreateAddHtlc hcheck))
      exact .requested (shutdownFlag_of_lnAddHtlcSetFwd hset) (by simp [requestedSlot, hempty])
  | droppedFwd => exact .gone rfl
  | started => exact .started rfl rfl
  | fulfilled =>
      have hcleared := SameHtlc.clearHtlcComrevflag (self.cnlAddHtlc idx) .fulfill
      exact .same { hcleared with }
  | failed hsame _ => exact .same hsame
  | resent _ => exact .same (.setFlag rfl)

section HtlcChange

variable {ev : ChannelEvent} {idx : HtlcIdx} {post : LnUpdateAddHtlc}

theorem HtlcChange.offer (hchange : HtlcChange self ev idx post)
    (hsend : self.shutdownFlag.send = true) (hstart : ev ≠ .startFwd idx)
    (hoffer : post.flag.addhtlc = .offer) : (self.cnlAddHtlc idx).flag.addhtlc = .offer := by
  cases hchange with
  | same hsame => exact hsame.addhtlc.symm.trans hoffer
  | gone hpost => simp [hpost] at hoffer
  | read _ hkind => exact hkind.symm.trans hoffer
  | requested hflag _ => simp [hflag] at hsend
  | started hev _ => exact absurd hev hstart
  | received _ _ hkind => simp [hkind] at hoffer

theorem HtlcChange.recv (hchange : HtlcChange self ev idx post)
    (hreceived : self.shutdownFlag.recv = true) (hrecv : post.flag.addhtlc = .recv) :
    (self.cnlAddHtlc idx).flag.addhtlc = .recv := by
  cases hchange with
  | same hsame => exact hsame.addhtlc.symm.trans hrecv
  | gone hpost => simp [hpost] at hrecv
  | read _ hkind => exact hkind.symm.trans hrecv
  | requested _ hkind => exact absurd hrecv hkind
  | started _ hkind => simp [hkind] at hrecv
  | received _ hnone _ => simp [hnone] at hreceived

/-- An empty slot stays empty once `shutdown` has been sent, unless it is read into or a
reserved HTLC is started. -/
theorem HtlcChange.empty (hchange : HtlcChange self ev idx post)
    (hsend : self.shutdownFlag.send = true) (hadd : ev.isAdd = false)
    (hstart : ev ≠ .startFwd idx) (hempty : (self.cnlAddHtlc idx).empty = true) :
    post.empty = true := by
  cases hchange with
  | same hsame => simpa [LnUpdateAddHtlc.empty, hsame.addhtlc, hsame.amountMsat] using hempty
  | gone hpost => simp [hpost, LnUpdateAddHtlc.empty]
  | read hread _ => simp [hadd] at hread
  | requested hflag _ => simp [hflag] at hsend
  | started hev _ => exact absurd hev hstart
  | received hread _ _ => simp [hadd] at hread

theorem willAddhtlc_clearComrev {flag : LnHtlcflag} {delHtlc : LnDelhtlc}
    (hdel : delHtlc ≠ .none) (hnone : flag.willAddhtlc = false) :
    (flag.clearComrev delHtlc).willAddhtlc = false := by
  rw [LnHtlcflag.clearComrev]
  split
  · simp [LnHtlcflag.willAddhtlc, hdel]
  · exact hnone

theorem willAddhtlc_setFlagIf {htlc : LnUpdateAddHtlc} {picked : LnHtlcflag → Bool}
    {rewrite : LnHtlcflag → LnHtlcflag}
    (hnone : htlc.flag.willAddhtlc = false)
    (hkept : ∀ flag : LnHtlcflag, (rewrite flag).willAddhtlc = flag.willAddhtlc) :
    (htlc.setFlagIf picked rewrite).flag.willAddhtlc = false := by
  rw [LnUpdateAddHtlc.setFlagIf]
  split
  · exact (hkept htlc.flag).trans hnone
  · exact hnone

theorem willAddhtlc_of_kind {flag : LnHtlcflag} (hkind : flag.addhtlc ≠ .offer) :
    flag.willAddhtlc = false := by
  simp [LnHtlcflag.willAddhtlc, hkind]

theorem willAddhtlc_idleUpdateSlot {htlc : LnUpdateAddHtlc}
    (hnone : htlc.flag.willAddhtlc = false) :
    (idleUpdateSlot htlc).flag.willAddhtlc = false := by
  rw [idleUpdateSlot]
  split
  · simp [LnUpdateAddHtlc.setFlag, LnHtlcflag.willAddhtlc]
  · exact hnone

theorem willAddhtlc_idleFinalSlot {htlc : LnUpdateAddHtlc}
    (hnone : htlc.flag.willAddhtlc = false) :
    (idleFinalSlot htlc).1.flag.willAddhtlc = false := by
  simp only [idleFinalSlot]
  split_ifs with _ _ _ hfin hnext hnext
  · exact hnone
  · exact hnone
  · exact willAddhtlc_clearComrev hfin hnone
  · exact willAddhtlc_clearComrev hfin hnone
  · exact hnone
  · exact hnone
  · rfl
  · rfl

theorem removal_ne_none {msg : LnMsg} {id : Nat} {delHtlc : LnDelhtlc}
    (hremoval : msg.removal = some (id, delHtlc)) : delHtlc ≠ .none := by
  cases msg <;> simp [LnMsg.removal] at hremoval <;> simp [← hremoval.2]

/-- Once `shutdown` has been sent no `update_add_htlc` falls due, unless a reserved HTLC
is started. -/
theorem slotChange_due (hchange : SlotChange crypto self ev idx post)
    (hsend : self.shutdownFlag.send = true) (hstart : ev ≠ .startFwd idx)
    (hnone : (self.cnlAddHtlc idx).flag.willAddhtlc = false) :
    post.flag.willAddhtlc = false := by
  cases hchange with
  | kept => exact hnone
  | read hempty => exact hnone
  | received _ _ _ hflag =>
      obtain ⟨finDelhtlc, hflag⟩ := hflag
      exact willAddhtlc_of_kind (by simp [hflag])
  | receivedFailed _ _ hpost => exact willAddhtlc_of_kind (by simp [hpost.2.2.2.2])
  | removing _ hremoval => exact willAddhtlc_clearComrev (removal_ne_none hremoval) hnone
  | signed => exact hnone
  | committed =>
      apply willAddhtlc_setFlagIf
      · apply willAddhtlc_setFlagIf
        · exact hnone
        · exact fun _ => rfl
      · exact fun _ => rfl
  | acked =>
      apply willAddhtlc_setFlagIf hnone
      exact fun _ => rfl
  | finalised => exact willAddhtlc_idleFinalSlot hnone
  | updated => exact willAddhtlc_idleUpdateSlot hnone
  | comsent =>
      apply willAddhtlc_setFlagIf (willAddhtlc_idleUpdateSlot hnone)
      exact fun _ => rfl
  | offered _ hset => simp [shutdownFlag_of_lnAddHtlcSet hset] at hsend
  | dropped => rfl
  | reserved _ hset => simp [shutdownFlag_of_lnAddHtlcSetFwd hset] at hsend
  | droppedFwd => rfl
  | started => exact absurd rfl hstart
  | fulfilled => exact willAddhtlc_clearComrev (by simp) hnone
  | failed _ hflag => simp [hflag, LnHtlcflag.willAddhtlc]
  | resent _ => simp [LnUpdateAddHtlc.setFlag, LnHtlcflag.willAddhtlc]

end HtlcChange

/-! ### The shutdown flags -/

theorem OperationChange.shutdown {before after : LnSelf} (hchange : OperationChange before after) :
    after.shutdownFlag = before.shutdownFlag ∧ after.closeLastFeeSat = before.closeLastFeeSat := by
  obtain ⟨_, _, _, _, _, _, _, _, _, _, _, _, _, rfl⟩ := hchange
  exact ⟨rfl, rfl⟩

theorem createClosingTx_shutdown {closed : LnSelf} {feeSat : UInt64} {verify ret : Bool}
    (hclosed : createClosingTx crypto self feeSat verify = (ret, closed)) :
    closed.shutdownFlag = self.shutdownFlag := by
  simp only [createClosingTx] at hclosed
  split at hclosed
  · obtain ⟨-, rfl⟩ := Prod.mk.inj hclosed
    rfl
  · split at hclosed
    · obtain ⟨-, rfl⟩ := Prod.mk.inj hclosed
      rfl
    · obtain ⟨-, rfl⟩ := Prod.mk.inj hclosed
      rfl

theorem startClosing_shutdown (self : LnSelf) :
    (startClosing crypto self).self.shutdownFlag = self.shutdownFlag := by
  rw [startClosing]
  split
  · split
    all_goals
      rename_i hclosed
      have hflag := createClosingTx_shutdown hclosed
      exact hflag
  · rfl

theorem closeOrAnswer_shutdown (self : LnSelf) (feeSat : UInt64) (needClosetx broadcast : Bool) :
    (closeOrAnswer crypto self feeSat needClosetx broadcast).self.shutdownFlag =
        self.shutdownFlag ∧
      ∀ saved, Effect.selfSave saved ∈
        (closeOrAnswer crypto self feeSat needClosetx broadcast).trace →
        saved = (closeOrAnswer crypto self feeSat needClosetx broadcast).self := by
  rw [closeOrAnswer]
  split
  · rename_i hclosed
    exact ⟨createClosingTx_shutdown hclosed, fun saved hsaved => by cases hsaved⟩
  · rename_i hclosed
    have hflag := createClosingTx_shutdown hclosed
    split_ifs
    · exact ⟨hflag, fun saved hsaved => by simpa using hsaved⟩
    · exact ⟨hflag, fun saved hsaved => by simp at hsaved⟩
    · exact ⟨hflag, fun saved hsaved => by simpa using hsaved⟩

theorem recvClosingSigned_shutdown (self : LnSelf) (channelId : Bytes) (feeSat : UInt64)
    (signature : Bytes) (broadcast : Bool) :
    (recvClosingSigned crypto self channelId feeSat signature broadcast).self.shutdownFlag =
        self.shutdownFlag ∧
      ∀ saved, Effect.selfSave saved ∈
        (recvClosingSigned crypto self channelId feeSat signature broadcast).trace →
        saved = (recvClosingSigned crypto self channelId feeSat signature broadcast).self := by
  simp only [recvClosingSigned, Outcome.reject]
  split_ifs
  · exact ⟨rfl, fun saved hsaved => by cases hsaved⟩
  · exact ⟨rfl, fun saved hsaved => by cases hsaved⟩
  · exact ⟨rfl, fun saved hsaved => by cases hsaved⟩
  · split
    · rename_i hclosed
      have hflag := createClosingTx_shutdown hclosed
      exact ⟨hflag, fun saved hsaved => by simp at hsaved⟩
    · rename_i hclosed
      have hflag := createClosingTx_shutdown hclosed
      split
      · obtain ⟨hsame, hsaves⟩ := @closeOrAnswer_shutdown crypto _ feeSat true broadcast
        exact ⟨hsame.trans hflag, hsaves⟩
      · obtain ⟨hsame, hsaves⟩ := @closeOrAnswer_shutdown crypto _ feeSat false broadcast
        exact ⟨hsame.trans hflag, hsaves⟩

/-- The event sends or answers `shutdown`. -/
def exchangesShutdown (self : LnSelf) : ChannelEvent → Bool
  | .shutdown _ => true
  | ev => acceptsShutdown self ev

theorem handle_shutdownFlag {ev : ChannelEvent} (hnone : exchangesShutdown self ev = false) :
    (handle crypto self ev).self.shutdownFlag = self.shutdownFlag := by
  cases hclosing : ev.isClosing with
  | false =>
      cases hfee : ev.feerate with
      | none =>
          have hchange : OperationChange self (handle crypto self ev).self :=
            handle_operation hclosing hfee
          exact hchange.shutdown.1
      | some feeratePerKw =>
          cases ev with
          | recv channelId msg env =>
              obtain rfl := acceptsFee_of_feerate hfee
              rw [handle, lnRecv_updateFee]
              split <;> rfl
          | _ => cases hfee
  | true =>
      cases ev with
      | recv channelId msg env =>
          cases msg with
          | shutdown scriptpk =>
              obtain ⟨script, hrefused⟩ := @lnRecv_shutdown_refused crypto _ _ _ _ hnone
              rw [handle, hrefused]
              rfl
          | closingSigned feeSat signature =>
              rw [handle, lnRecv]
              split
              · exact (recvClosingSigned_shutdown self channelId feeSat signature env.broadcast).1
              · rfl
          | _ => cases hclosing
      | shutdown fee => cases hnone
      | _ => cases hclosing

theorem handle_exchanges {ev : ChannelEvent} (hexchanges : exchangesShutdown self ev = true) :
    (handle crypto self ev).self.shutdownFlag.send = true ∧
      (self.shutdownFlag.recv = true → (handle crypto self ev).self.shutdownFlag.recv = true) := by
  cases ev with
  | recv channelId msg env =>
      cases msg with
      | shutdown scriptpk =>
          obtain ⟨closeFeeSat, hself⟩ := shutdownExchanged_eq self scriptpk
          rw [handle, lnRecv_shutdown_accepted hexchanges]
          simp only [Outcome.andThen, startClosing_shutdown, hself]
          exact ⟨trivial, fun _ => trivial⟩
      | _ => cases hexchanges
  | shutdown fee => exact ⟨rfl, fun hrecv => hrecv⟩
  | _ => cases hexchanges

/-- What is saved with `shutdown` sent is left with `shutdown` sent. -/
theorem handle_saved_send {ev : ChannelEvent} {saved : LnSelf}
    (hsaved : Effect.selfSave saved ∈ (handle crypto self ev).trace)
    (hsend : saved.shutdownFlag.send = true) :
    (handle crypto self ev).self.shutdownFlag.send = true := by
  cases hexchanges : exchangesShutdown self ev with
  | true => exact (handle_exchanges hexchanges).1
  | false =>
      have hsame : saved = (handle crypto self ev).self := by
        cases hclosing : ev.isClosing with
        | false => exact handle_saved hclosing hsaved
        | true =>
            cases ev with
            | recv channelId msg env =>
                cases msg with
                | shutdown scriptpk =>
                    obtain ⟨script, hrefused⟩ := @lnRecv_shutdown_refused crypto _ _ _ _ hexchanges
                    rw [handle, hrefused] at hsaved
                    cases hsaved
                | closingSigned feeSat signature =>
                    rw [handle, lnRecv] at hsaved ⊢
                    split at hsaved
                    · rename_i hinit
                      rw [if_pos hinit]
                      exact (recvClosingSigned_shutdown self channelId feeSat signature
                        env.broadcast).2 saved hsaved
                    · cases hsaved
                | _ => cases hclosing
            | shutdown fee => cases hexchanges
            | _ => cases hclosing
      rw [← hsame]
      exact hsend

theorem handle_add_refused (hrecv : self.shutdownFlag.recv = true) {ev : ChannelEvent}
    (hadd : ev.isAdd = true) : (handle crypto self ev).ret = false := by
  cases ev with
  | recv channelId msg env =>
      cases msg with
      | updateAddHtlc id amountMsat paymentSha256 cltvExpiry packet =>
          rw [handle, lnRecv]
          split
          · simp only [recvFunc, recvUpdateAddHtlc]
            split
            · rfl
            · rename_i idx _
              have hchecked : ∀ htlc,
                  checkRecvAddHtlcBolt2 (self.setSlot idx htlc) htlc = false := by
                intro htlc
                simp [checkRecvAddHtlcBolt2, LnSelf.setSlot, hrecv]
              simp only [hchecked]
              split <;> rfl
          · rfl
      | _ => cases hadd
  | _ => cases hadd

/-! ### Runs -/

/-- The slots are counted.  Nothing is pending once the own `closing_signed` has been sent,
and nothing is due to be added once the own `shutdown` has. -/
structure ClosingKept (world : CloseWorld) : Prop where
  counted : world.chan.running = true → Counted world.log world.chan.self.cnlAddHtlc
  savedCounted : Counted world.savedLog world.chan.db.chan.cnlAddHtlc
  quiet : world.chan.running = true → world.chan.self.closeLastFeeSat ≠ 0 →
    world.chan.self.shutdownFlag.exchanged = true ∧ world.Clear
  due : world.chan.self.shutdownFlag.send = true → NoneDue world.chan.self.cnlAddHtlc
  savedDue : world.chan.db.chan.shutdownFlag.send = true →
    NoneDue world.chan.db.chan.cnlAddHtlc
  savedLast : world.chan.db.chan.closeLastFeeSat = 0

variable {world : CloseWorld}

/-- No `update_add_htlc` is due after an event that leaves `shutdown` sent. -/
theorem ClosingKept.due_after (hkept : ClosingKept world) {ev : ChannelEvent}
    (htidy : TidyEvent world ev)
    (hsend : (handle crypto world.chan.self ev).self.shutdownFlag.send = true) :
    NoneDue (handle crypto world.chan.self ev).self.cnlAddHtlc := by
  by_cases hbefore : world.chan.self.shutdownFlag.send = true
  · intro idx
    apply slotChange_due (handle_slotChange crypto world.chan.self ev idx) hbefore
    · rintro rfl
      rw [TidyEvent, hbefore] at htidy
      cases htidy
    · exact hkept.due hbefore idx
  · have hfresh : world.chan.self.shutdownFlag.send = false := Bool.eq_false_iff.mpr hbefore
    have hexchanges : exchangesShutdown world.chan.self ev = true := by
      by_contra hnone
      rw [handle_shutdownFlag (Bool.eq_false_iff.mpr hnone)] at hsend
      exact hbefore hsend
    have hclosing : ev.isClosing = true ∧ NoneDue world.chan.self.cnlAddHtlc := by
      cases ev with
      | recv channelId msg env =>
          cases msg with
          | shutdown scriptpk => exact ⟨rfl, htidy.2 hexchanges hfresh⟩
          | _ => cases hexchanges
      | shutdown fee => exact ⟨rfl, htidy hfresh⟩
      | _ => cases hexchanges
    have hchange : ClosingChange world.chan.self (handle crypto world.chan.self ev).self :=
      handle_closing hclosing.1
    obtain ⟨_, _, _, _, _, _, _, hself⟩ := hchange
    rw [hself]
    exact hclosing.2

theorem CloseWorld.Clear.kept {chan : ChannelState} {savedLog : List ChannelNote}
    (hclear : world.Clear) {ev : ChannelEvent} (haccepts : acceptsFee world.chan.self ev = false)
    (hslots : ∀ idx, (world.chan.self.cnlAddHtlc idx).empty = true →
      (chan.self.cnlAddHtlc idx).empty = true) :
    CloseWorld.Clear ⟨chan, notesOf crypto world.chan.self ev ++ world.log, savedLog⟩ :=
  ⟨fun idx => hslots idx (hclear.1 idx), openFee_after hclear.2 haccepts⟩

/-- Once every HTLC that came is gone and the last feerate is committed, nothing is
pending. -/
theorem ClosingKept.clear_of_settled (hkept : ClosingKept world)
    (hrunning : world.chan.running = true) (hsettled : AllSettled world.log) : world.Clear :=
  ⟨(hkept.counted hrunning).empty hsettled.1, openFee_of_committed hsettled.2⟩

/-- An event that comes to sign a closing transaction does so with nothing pending. -/
theorem ClosingKept.clear (hkept : ClosingKept world) (hrunning : world.chan.running = true)
    {ev : ChannelEvent} (htidy : TidyEvent world ev)
    (hsigns : signsClosing world.chan.self ev = true) : world.Clear := by
  cases ev with
  | recv channelId msg env =>
      cases msg with
      | shutdown scriptpk => exact hkept.clear_of_settled hrunning (htidy.1 hsigns)
      | closingSigned feeSat signature =>
          by_cases hlast : world.chan.self.closeLastFeeSat = 0
          · exact hkept.clear_of_settled hrunning (htidy hsigns hlast)
          · exact (hkept.quiet hrunning hlast).2
      | _ => cases hsigns
  | _ => cases hsigns

theorem signsClosing_of_ret {channelId signature : Bytes} {feeSat : UInt64} {env : RecvEnv}
    (hret : (lnRecv crypto self channelId (.closingSigned feeSat signature) env).ret = true) :
    signsClosing self (.recv channelId (.closingSigned feeSat signature) env) = true := by
  by_contra hnone
  simp only [lnRecv, recvFunc, recvClosingSigned, Outcome.reject] at hret
  split_ifs at hret with hinit hexchanged hchannel hfee
  apply hnone
  simp_all [signsClosing, lnClosingSignedInitfee]

/-- What is left by a closing event that goes through, if a `closing_signed` has been
sent. -/
theorem ClosingKept.closing_after (hkept : ClosingKept world) (hrunning : world.chan.running = true)
    {ev : ChannelEvent} (htidy : TidyEvent world ev) (hclosing : ev.isClosing = true)
    (hret : (handle crypto world.chan.self ev).ret = true)
    (hlast : (handle crypto world.chan.self ev).self.closeLastFeeSat ≠ 0) :
    (handle crypto world.chan.self ev).self.shutdownFlag.exchanged = true ∧ world.Clear := by
  cases ev with
  | recv channelId msg env =>
      cases msg with
      | shutdown scriptpk =>
          cases haccepts : acceptsShutdown world.chan.self
              (.recv channelId (.shutdown scriptpk) env) with
          | false =>
              obtain ⟨script, hrefused⟩ := @lnRecv_shutdown_refused crypto _ _ _ _ haccepts
              rw [handle, hrefused] at hret
              cases hret
          | true =>
              obtain ⟨closeFeeSat, hself⟩ := shutdownExchanged_eq world.chan.self scriptpk
              rw [handle, lnRecv_shutdown_accepted haccepts] at hlast ⊢
              simp only [Outcome.andThen, startClosing_shutdown] at hlast ⊢
              refine ⟨by rw [hself]; rfl, ?_⟩
              apply hkept.clear_of_settled hrunning
              apply htidy.1
              refine Bool.and_eq_true_iff.mpr ⟨haccepts, ?_⟩
              by_contra hfundee
              rw [startClosing_fundee, hself] at hlast
              · exact hlast rfl
              · rw [hself]
                exact Bool.eq_false_iff.mpr hfundee
      | closingSigned feeSat signature =>
          have hsigns : signsClosing world.chan.self
              (.recv channelId (.closingSigned feeSat signature) env) = true :=
            signsClosing_of_ret hret
          refine ⟨?_, hkept.clear hrunning htidy hsigns⟩
          rw [handle_shutdownFlag rfl]
          simp only [signsClosing, Bool.and_eq_true] at hsigns
          exact hsigns.1.1.2
      | _ => cases hclosing
  | shutdown fee =>
      obtain ⟨hexchanged, hclear⟩ := hkept.quiet hrunning hlast
      refine ⟨?_, hclear⟩
      exact Bool.and_eq_true_iff.mpr ⟨rfl, (Bool.and_eq_true_iff.mp hexchanged).2⟩
  | _ => cases hclosing

/-- What is left by any other event that goes through. -/
theorem ClosingKept.operation_after (hkept : ClosingKept world)
    (hrunning : world.chan.running = true) {ev : ChannelEvent} (htidy : TidyEvent world ev)
    (hclosing : ev.isClosing = false) (hret : (handle crypto world.chan.self ev).ret = true)
    (hlast : (handle crypto world.chan.self ev).self.closeLastFeeSat ≠ 0) :
    (handle crypto world.chan.self ev).self.shutdownFlag.exchanged = true ∧
      acceptsFee world.chan.self ev = false ∧ world.Clear ∧
      ∀ idx, (world.chan.self.cnlAddHtlc idx).empty = true →
        ((handle crypto world.chan.self ev).self.cnlAddHtlc idx).empty = true := by
  cases hfee : ev.feerate with
  | some feeratePerKw =>
      cases ev with
      | recv channelId msg env =>
          obtain rfl := acceptsFee_of_feerate hfee
          cases haccepts : acceptsFee world.chan.self
              (.recv channelId (.updateFee feeratePerKw) env) with
          | true =>
              rw [handle, lnRecv_updateFee, if_pos haccepts] at hlast
              exact absurd (htidy haccepts) hlast
          | false =>
              rw [handle, lnRecv_updateFee, haccepts] at hret
              cases hret
      | _ => cases hfee
  | none =>
      have hchange : OperationChange world.chan.self (handle crypto world.chan.self ev).self :=
        handle_operation hclosing hfee
      obtain ⟨hflag, hsame⟩ := hchange.shutdown
      rw [hsame] at hlast
      rw [hflag]
      obtain ⟨hexchanged, hclear⟩ := hkept.quiet hrunning hlast
      obtain ⟨hsend, hrecv⟩ := Bool.and_eq_true_iff.mp hexchanged
      have hadd : ev.isAdd = false := by
        by_contra hadd
        rw [handle_add_refused hrecv (Bool.not_eq_false _ ▸ hadd)] at hret
        cases hret
      have hstart : ∀ idx, ev ≠ .startFwd idx := by
        rintro idx rfl
        rw [TidyEvent, hsend] at htidy
        cases htidy
      refine ⟨hexchanged, ?_, hclear, fun idx hempty => ?_⟩
      · cases ev with
        | recv channelId msg env =>
            cases msg with
            | updateFee feeratePerKw => cases hfee
            | _ => rfl
        | _ => rfl
      · exact (slotChange_htlc (handle_slotChange crypto world.chan.self ev idx)).empty hsend hadd
          (hstart idx) hempty

/-- What an event saves leaves nothing due to be added once `shutdown` is sent. -/
theorem ClosingKept.saved_after (hkept : ClosingKept world) {ev : ChannelEvent}
    (htidy : TidyEvent world ev) {trace : List Effect}
    (htrace : ∀ effect ∈ trace, effect ∈ (handle crypto world.chan.self ev).trace) :
    (world.chan.db.writes trace).chan.shutdownFlag.send = true →
      NoneDue (world.chan.db.writes trace).chan.cnlAddHtlc := by
  apply Db.writes_holds fun chan => chan.shutdownFlag.send = true → NoneDue chan.cnlAddHtlc
  · exact fun db saved hsaved hsend idx => hsaved hsend idx
  · exact hkept.savedDue
  · intro saved hmem hsend idx
    have hsaved := htrace _ hmem
    rw [handle_saved_slots hsaved]
    exact hkept.due_after htidy (handle_saved_send hsaved hsend) idx

/-- What was saved last holds as many HTLCs as were taken until then, less those cleared. -/
theorem ClosingKept.savedCounted_after (hkept : ClosingKept world)
    (hrunning : world.chan.running = true) {ev : ChannelEvent} {trace : List Effect}
    (htrace : ∀ effect ∈ trace, effect ∈ (handle crypto world.chan.self ev).trace) :
    Counted (if trace.any Effect.saves then notesOf crypto world.chan.self ev ++ world.log
      else world.savedLog) (world.chan.db.writes trace).chan.cnlAddHtlc := by
  have hsaves : ∀ saved, Effect.selfSave saved ∈ trace → heldSlots saved.cnlAddHtlc =
      heldSlots (handle crypto world.chan.self ev).self.cnlAddHtlc := by
    intro saved hmem
    rw [handle_saved_slots (htrace _ hmem)]
  have hwritten : heldSlots (world.chan.db.writes trace).chan.cnlAddHtlc =
      if trace.any Effect.saves then heldSlots (handle crypto world.chan.self ev).self.cnlAddHtlc
      else heldSlots world.chan.db.chan.cnlAddHtlc :=
    @Db.writes_value _ (fun chan => heldSlots chan.cnlAddHtlc) _ heldSlots_saveSelf _ _ hsaves
  rw [Counted, hwritten]
  split_ifs with hany
  · refine (hkept.counted hrunning).after fun hadd => ?_
    obtain ⟨effect, hmem, -⟩ := List.any_eq_true.mp hany
    have hperformed := htrace effect hmem
    rw [trace_of_isAdd hadd] at hperformed
    cases hperformed
  · exact hkept.savedCounted

/-- The fee last sent is not saved. -/
theorem savedLast_writes {db : Db} {trace : List Effect} (hlast : db.chan.closeLastFeeSat = 0) :
    (db.writes trace).chan.closeLastFeeSat = 0 := by
  induction trace generalizing db with
  | nil => exact hlast
  | cons effect rest ih =>
      apply ih
      cases effect with
      | selfSave saved => rfl
      | _ => exact hlast

theorem create2of2_closeLastFeeSat (self : LnSelf) :
    self.create2of2.closeLastFeeSat = self.closeLastFeeSat := by
  rw [LnSelf.create2of2]
  split <;> rfl

theorem FundingDone.closeLastFeeSat {outcome : Outcome} (hdone : FundingDone crypto outcome) :
    outcome.self.closeLastFeeSat = 0 := by
  cases hdone with
  | fundee hopened =>
      obtain ⟨offered, hoffered, hcreated⟩ := Option.bind_eq_some_iff.mp hopened
      simp only [recvOpenChannel] at hoffered
      split_ifs at hoffered
      obtain rfl := Option.some.inj hoffered
      simp only [recvFundingCreated] at hcreated
      split at hcreated
      · cases hcreated
      · obtain ⟨verified, hverified, hfunded⟩ := Option.bind_eq_some_iff.mp hcreated
        obtain ⟨signed, hsigned, rfl⟩ := Option.map_eq_some_iff.mp hfunded
        obtain ⟨_, rfl⟩ := signInitialRemote_changes hsigned
        obtain ⟨_, _, rfl, -⟩ := verifyInitialLocal_changes hverified
        exact create2of2_closeLastFeeSat _
  | funder hopened =>
      obtain ⟨created, hcreated, haccepted⟩ := Option.bind_eq_some_iff.mp hopened
      obtain ⟨accepted, haccept, hfunded⟩ := Option.bind_eq_some_iff.mp haccepted
      simp only [lnOpenChannelCreate] at hcreated
      split at hcreated
      · cases hcreated
      obtain rfl := Option.some.inj hcreated
      simp only [recvAcceptChannel] at haccept
      split at haccept
      · cases haccept
      obtain ⟨_, rfl⟩ := signInitialRemote_changes haccept
      simp only [recvFundingSigned] at hfunded
      split at hfunded
      · cases hfunded
      obtain ⟨verified, hverified, rfl⟩ := Option.map_eq_some_iff.mp hfunded
      obtain ⟨_, _, rfl, -⟩ := verifyInitialLocal_changes hverified
      exact create2of2_closeLastFeeSat _

theorem ClosingKept.start (hstart : (closeSystem crypto).start world) : ClosingKept world := by
  obtain ⟨⟨outcome, hdone, hchan⟩, hlog, hsavedLog⟩ := hstart
  have hlast := hdone.closeLastFeeSat
  obtain ⟨_, _, _, ready, rfl, hfresh⟩ := hdone.fresh
  have hflag : world.chan.self.shutdownFlag = {} := by
    rw [hchan]
    exact hfresh.shutdownFlag
  have hsaved : world.chan.db.chan.shutdownFlag = {} := by
    rw [hchan]
    exact hfresh.shutdownFlag
  have hcounted : Counted [] ready.cnlAddHtlc := by
    have hnone : heldSlots ready.cnlAddHtlc = ∅ := by
      ext idx
      obtain ⟨signature, hslot⟩ := hfresh.slots idx
      simp [mem_heldSlots, hslot, LnUpdateAddHtlc.empty]
    rw [Counted, hnone]
    rfl
  have hsavedCounted : Counted [] world.chan.db.chan.cnlAddHtlc := by
    rw [hchan]
    rw [Counted] at hcounted ⊢
    exact (congrArg (fun held => held.card + _) (heldSlots_saveSelf _ _)).trans hcounted
  refine ⟨fun _ => ?_, ?_, fun _ hsent => ?_, fun hsend => ?_, fun hsend => ?_, ?_⟩
  · rw [hlog, hchan]
    exact hcounted
  · rw [hsavedLog]
    exact hsavedCounted
  · rw [hchan] at hsent
    exact absurd hlast hsent
  · simp [hflag] at hsend
  · simp [hsaved] at hsend
  · rw [hchan]
    rfl

theorem ClosingKept.step {label : ChannelLabel} {next : CloseWorld} (hkept : ClosingKept world)
    (htidy : TidyStep world label) (hnext : (closeSystem crypto).next world label = some next) :
    ClosingKept next := by
  simp only [closeSystem, closeNext] at hnext
  obtain ⟨chan, hchan, rfl⟩ := Option.map_eq_some_iff.mp hnext
  cases label with
  | event ev =>
      simp only [channelNext] at hchan
      split at hchan
      · rename_i henabled
        have hrunning := (Bool.and_eq_true_iff.mp henabled).1
        have htidy : TidyEvent world ev := htidy ev rfl
        obtain rfl := Option.some.inj hchan
        refine ⟨fun hcontinues => ?_, hkept.savedCounted_after hrunning fun _ hmem => hmem,
          fun hcontinues hlast => ?_, hkept.due_after htidy,
          hkept.saved_after htidy fun _ hmem => hmem, savedLast_writes hkept.savedLast⟩
        · exact (hkept.counted hrunning).after fun _ => (Bool.and_eq_true_iff.mp hcontinues).1
        have hret := (Bool.and_eq_true_iff.mp hcontinues).1
        cases hclosing : ev.isClosing with
        | true =>
            obtain ⟨hexchanged, hclear⟩ := hkept.closing_after hrunning htidy hclosing hret hlast
            refine ⟨hexchanged, hclear.kept ?_ ?_⟩
            · cases ev with
              | recv channelId msg env =>
                  cases msg with
                  | updateFee feeratePerKw => cases hclosing
                  | _ => rfl
              | _ => rfl
            · intro idx hempty
              have hchange : ClosingChange world.chan.self
                  (handle crypto world.chan.self ev).self :=
                handle_closing hclosing
              obtain ⟨_, _, _, _, _, _, _, hself⟩ := hchange
              rw [hself]
              exact hempty
        | false =>
            obtain ⟨hexchanged, haccepts, hclear, hslots⟩ :=
              hkept.operation_after hrunning htidy hclosing hret hlast
            exact ⟨hexchanged, hclear.kept haccepts hslots⟩
      · cases hchan
  | stop ev done =>
      simp only [channelNext] at hchan
      split at hchan
      · rename_i henabled
        have hrunning := (Bool.and_eq_true_iff.mp henabled).1
        have htidy : TidyEvent world ev := htidy ev rfl
        obtain rfl := Option.some.inj hchan
        exact ⟨fun hrunning => absurd hrunning Bool.false_ne_true,
          hkept.savedCounted_after hrunning fun _ hmem => List.mem_of_mem_take hmem,
          fun hrunning => absurd hrunning Bool.false_ne_true, hkept.due,
          hkept.saved_after htidy fun _ hmem => List.mem_of_mem_take hmem,
          savedLast_writes hkept.savedLast⟩
      · cases hchan
  | restart dataloss =>
      obtain rfl := Option.some.inj hchan
      exact ⟨fun _ => hkept.savedCounted, hkept.savedCounted,
        fun _ hlast => absurd hkept.savedLast hlast, hkept.savedDue, hkept.savedDue,
        hkept.savedLast⟩

theorem running_of_next {label : ChannelLabel} {ev : ChannelEvent} {next : CloseWorld}
    (hnext : (closeSystem crypto).next world label = some next) (hev : label.ev = some ev) :
    world.chan.running = true := by
  simp only [closeSystem, closeNext] at hnext
  obtain ⟨chan, hchan, -⟩ := Option.map_eq_some_iff.mp hnext
  rcases channelNext_took hchan with ⟨_, -, htook⟩ | ⟨_, _, -, htook⟩ | ⟨dataloss, rfl⟩
  · exact htook.running
  · exact htook.running
  · cases hev

theorem adds_of_addsNothing {trace : List Effect}
    (hnothing : trace.all Effect.addsNothing = true) : trace.any Effect.adds = false := by
  apply List.any_eq_false.mpr
  intro effect hmem hadds
  have heffect := List.all_eq_true.mp hnothing effect hmem
  cases effect with
  | sendReq idx msg =>
      cases msg with
      | updateAddHtlc id amountMsat paymentSha256 cltvExpiry onion => cases heffect
      | _ => cases hadds
  | _ => cases hadds

/-- While nothing is due, only the end of a reconnection hands over an `update_add_htlc`. -/
theorem adds_of_noneDue (hdue : NoneDue self.cnlAddHtlc) {ev : ChannelEvent}
    (hreest : ev ≠ .reestablished) : (handle crypto self ev).trace.any Effect.adds = false := by
  by_cases hidle : ev = .idle
  · subst hidle
    apply List.any_eq_false.mpr
    intro effect hmem hadds
    rcases idle_effect hmem with hstill | ⟨idx, msg, rfl, hmsg⟩
    · simp [Effect.still, hadds] at hstill
    · simp [adds_idleUpdateMsg (hdue idx) hmsg] at hadds
  · exact adds_of_addsNothing (addsNothing_handle crypto self hidle hreest)

/-- In every run whose steps are tidy, the channel closes only when nothing is pending, and
adds no HTLC after `shutdown`. -/
theorem closesInOrder_of_tidy (crypto : Crypto) (world next : CloseWorld) (label : ChannelLabel)
    (ev : ChannelEvent) (hreach : (closeSystem crypto).ReachableUnder TidyStep world)
    (htidy : TidyStep world label)
    (hnext : (closeSystem crypto).next world label = some next) (hev : label.ev = some ev) :
    ClosesInOrder crypto world ev := by
  have hkept : ClosingKept world :=
    hreach.invariant ClosingKept (fun _ => .start) fun _ _ _ => ClosingKept.step
  have hrunning : world.chan.running = true := running_of_next hnext hev
  constructor
  · rintro (hsigns | hcloses)
    · exact hkept.clear hrunning (htidy ev hev) hsigns
    · exact hkept.clear hrunning (htidy ev hev) (signsClosing_of_closes hcloses)
  · intro hsend
    refine ⟨adds_of_noneDue (hkept.due hsend), fun idx => ?_⟩
    apply (slotChange_htlc (handle_slotChange crypto world.chan.self ev idx)).offer hsend
    rintro rfl
    have hunsent : world.chan.self.shutdownFlag.send = false := htidy _ hev
    rw [hsend] at hunsent
    cases hunsent
  · exact fun hrecv idx => (slotChange_htlc (handle_slotChange crypto _ ev idx)).recv hrecv

/-! ### Two runs -/

/-- A P2WPKH script. -/
def symbolicScriptpk (party : UInt8) : Bytes :=
  [0x00, 20] ++ List.replicate 20 party

/-- The funding exchange of a fundee that holds the first key and has a closing address. -/
def symbolicClosingFundee : Option Outcome :=
  let fresh := lnInit (List.replicate 32 1) (symbolicScriptpk 1) false
  let openCh := symbolicOpen 1000000 500000000
  (recvOpenChannel .symbolic fresh openCh symbolicPrm (symbolicKeys 1)).bind fun offered =>
    openedAsFundee .symbolic fresh openCh symbolicPrm (symbolicKeys 1) symbolicOutpoint
      (symbolicPeerSignature (offered.setFunding .symbolic symbolicOutpoint) 0)

theorem symbolicClosingFundee_done {outcome : Outcome}
    (hopened : symbolicClosingFundee = some outcome) : FundingDone .symbolic outcome := by
  simp only [symbolicClosingFundee, Option.bind_eq_some_iff] at hopened
  obtain ⟨_, _, hdone⟩ := hopened
  exact .fundee hdone

/-- The script runs, as far as it is permitted, to a world that passes the check. -/
def closeCheck (permits : CloseWorld → ChannelLabel → Bool)
    (script : List (CloseWorld → ChannelLabel)) (check : CloseWorld → Bool) : Bool :=
  (symbolicClosingFundee.bind fun outcome =>
    (closeSystem .symbolic).trail permits ⟨.afterFunding outcome, [], []⟩ [] script).any
      fun final => check final.1

theorem reachable_of_closeCheck {permits : CloseWorld → ChannelLabel → Bool}
    {script : List (CloseWorld → ChannelLabel)} {check : CloseWorld → Bool}
    {allowed : CloseWorld → ChannelLabel → Prop}
    (hallowed : ∀ choose ∈ script, ∀ before, permits before (choose before) = true →
      allowed before (choose before))
    (hcheck : closeCheck permits script check = true) :
    ∃ world, (closeSystem .symbolic).ReachableUnder allowed world ∧ check world = true := by
  simp only [closeCheck, Option.any_eq_true, Option.bind_eq_some_iff] at hcheck
  obtain ⟨⟨world, past⟩, ⟨outcome, hopened, htrail⟩, hchecked⟩ := hcheck
  have hstart : (closeSystem Crypto.symbolic).start ⟨.afterFunding outcome, [], []⟩ :=
    ⟨⟨outcome, symbolicClosingFundee_done hopened, rfl⟩, rfl, rfl⟩
  obtain ⟨hhistory, -⟩ := System.history_of_trail hallowed (.start hstart) htrail
  exact ⟨world, hhistory.reachableUnder, hchecked⟩

/-- The peer's `shutdown`. -/
def symbolicShutdown : ChannelEvent :=
  .recv symbolicOutpoint.txid (.shutdown (symbolicScriptpk 2)) {}

/-- A `closing_signed` of the peer, which holds the second key. -/
def symbolicClosingSigned (feeSat : UInt64) (self : LnSelf) : ChannelEvent :=
  let tx : BtcTx :=
    { vinTxid := self.fundingLocal.txid
      vinIndex := self.fundingLocal.txindex.toNat
      sequence := 0xffffffff
      vout := closingVout self feeSat
      locktime := 0 }
  .recv symbolicOutpoint.txid (.closingSigned feeSat (Crypto.symbolic.sign
    (symbolicKeys 2).funding
    (Crypto.symbolic.sighash tx self.fundingSat self.redeemFund.script))) {}

/-- An HTLC and a feerate of the peer are committed by both sides, the HTLC is fulfilled and
removed, and then the peer closes the channel and proposes a first fee. -/
def tidyScript : List (CloseWorld → ChannelLabel) :=
  let cid := symbolicOutpoint.txid
  let commit (num : UInt64) (world : CloseWorld) : ChannelLabel :=
    .event (.recv cid (.commitmentSigned (symbolicPeerSignature world.chan.self num) []) {})
  [ fun _ => .event (.recv cid (.updateAddHtlc 0 500000 [9] 100 [])
      { onion := { verdict := .final [9] } }),
    fun _ => .event (.recv cid (.updateFee 1500) {}),
    commit 1,
    fun _ => .event .idle,
    fun _ => .event (.recv cid (.revokeAndAck (symbolicKeys 2).perCommit [2, 7]) {}),
    fun _ => .event .idle,
    fun _ => .event .idle,
    fun _ => .event .idle,
    fun _ => .event (.recv cid (.revokeAndAck [3, 6] [2, 8]) {}),
    commit 2,
    fun _ => .event .idle,
    fun _ => .event symbolicShutdown,
    fun world => .event (symbolicClosingSigned 500 world.chan.self) ]

instance (slots : Slots) : Decidable (NoneDue slots) :=
  inferInstanceAs (Decidable (∀ _, _))

/-- A check of the labels that are surely tidy. -/
def tidyChecked (world : CloseWorld) : ChannelLabel → Bool
  | .event (.recv _ (.shutdown _) _) =>
      decide (AllSettled world.log) && decide (NoneDue world.chan.self.cnlAddHtlc)
  | .event (.recv _ (.closingSigned ..) _) => decide (AllSettled world.log)
  | .event (.recv _ (.updateFee _) _) => world.chan.self.closeLastFeeSat == 0
  | .event (.recv ..) => true
  | .event .idle => true
  | _ => false

theorem tidyStep_of_checked {label : ChannelLabel} (hchecked : tidyChecked world label = true) :
    TidyStep world label := by
  intro ev hev
  cases label with
  | event ev' =>
      obtain rfl := Option.some.inj hev
      cases ev' with
      | recv channelId msg env =>
          cases msg with
          | shutdown scriptpk =>
              obtain ⟨hsettled, hdue⟩ := Bool.and_eq_true_iff.mp hchecked
              exact ⟨fun _ => of_decide_eq_true hsettled, fun _ _ => of_decide_eq_true hdue⟩
          | closingSigned feeSat signature => exact fun _ _ => of_decide_eq_true hchecked
          | updateFee feeratePerKw => exact fun _ => beq_iff_eq.mp hchecked
          | _ => trivial
      | idle => trivial
      | _ => cases hchecked
  | _ => cases hchecked

/-- The fundee has answered the first fee after an HTLC came and went, and signs the second
one with nothing pending. -/
theorem closesInOrder_tidyScript :
    ∃ world, (closeSystem .symbolic).ReachableUnder TidyStep world ∧
      world.log.count .taken = 1 ∧ world.log.count .fee = 1 ∧
      signsClosing world.chan.self (symbolicClosingSigned 400 world.chan.self) = true ∧
      world.chan.self.closeLastFeeSat ≠ 0 ∧
      ClosesInOrder .symbolic world (symbolicClosingSigned 400 world.chan.self) := by
  have hcheck : closeCheck tidyChecked tidyScript (fun world =>
      world.log.count .taken == 1 && world.log.count .fee == 1 &&
        signsClosing world.chan.self (symbolicClosingSigned 400 world.chan.self) &&
        world.chan.self.closeLastFeeSat != 0 && (closeNext .symbolic world
          (.event (symbolicClosingSigned 400 world.chan.self))).isSome) = true := by
    decide +kernel
  have hallowed : ∀ choose ∈ tidyScript, ∀ before,
      tidyChecked before (choose before) = true → TidyStep before (choose before) :=
    fun _ _ _ hchecked => tidyStep_of_checked hchecked
  obtain ⟨world, hreach, hchecked⟩ := reachable_of_closeCheck hallowed hcheck
  simp only [Bool.and_eq_true, beq_iff_eq, bne_iff_ne, Option.isSome_iff_exists] at hchecked
  obtain ⟨⟨⟨⟨htaken, hfee⟩, hsigns⟩, hlast⟩, next, hnext⟩ := hchecked
  have htidy : TidyStep world (.event (symbolicClosingSigned 400 world.chan.self)) := by
    intro ev hev
    obtain rfl := Option.some.inj hev
    exact fun _ hzero => absurd hzero hlast
  exact ⟨world, hreach, htaken, hfee, hsigns, hlast, closesInOrder_of_tidy .symbolic world next
    (.event (symbolicClosingSigned 400 world.chan.self)) _ hreach htidy hnext rfl⟩

/-- The peer closes the channel right after it has added an HTLC. -/
def pendingScript : List (CloseWorld → ChannelLabel) :=
  [ fun _ => .event (.recv symbolicOutpoint.txid (.updateAddHtlc 0 500000 [9] 100 [])
      { onion := { verdict := .final [9] } }),
    fun _ => .event symbolicShutdown ]

/-- The fundee answers `closing_signed` while the HTLC is pending. -/
theorem closesPending_pendingScript :
    ¬ ∀ (crypto : Crypto) (world next : CloseWorld) (label : ChannelLabel) (ev : ChannelEvent),
      (closeSystem crypto).Reachable world →
        (closeSystem crypto).next world label = some next → label.ev = some ev →
        ClosesInOrder crypto world ev := by
  intro hall
  have hcheck : closeCheck (fun _ _ => true) pendingScript (fun world =>
      (handle .symbolic world.chan.self
          (symbolicClosingSigned 500 world.chan.self)).trace.any Effect.closes &&
        !(world.chan.self.cnlAddHtlc 0).empty && (closeNext .symbolic world
          (.event (symbolicClosingSigned 500 world.chan.self))).isSome) = true := by
    decide +kernel
  have hany : ∀ choose ∈ pendingScript, ∀ before : CloseWorld, true = true →
      System.AnyStep before (choose before) := fun _ _ _ _ => trivial
  obtain ⟨world, hreach, hchecked⟩ := reachable_of_closeCheck hany hcheck
  simp only [Bool.and_eq_true, Bool.not_eq_true', Option.isSome_iff_exists] at hchecked
  obtain ⟨⟨hcloses, hpending⟩, next, hnext⟩ := hchecked
  have hclear := (hall .symbolic world next (.event (symbolicClosingSigned 500 world.chan.self)) _
    hreach hnext rfl).clear (.inr hcloses)
  rw [hclear.1 0] at hpending
  cases hpending

end Ptarmigan
