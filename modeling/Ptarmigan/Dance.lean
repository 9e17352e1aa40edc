/-
The dance of `commitment_signed` and `revoke_and_ack` as the counters of a channel see
it: which events hand such a message over, and what they do to the commitment
numbers and the secret index.
-/
import Ptarmigan.SlotChange

namespace Ptarmigan

variable {crypto : Crypto} {self : LnSelf}

/-- The secret index with the own private data, and the commitment numbers. -/
structure DanceCounters where
  privData : LnSelfPriv
  localCommitNum : UInt64
  localRevokeNum : UInt64
  remoteCommitNum : UInt64

def LnSelf.dance (self : LnSelf) : DanceCounters where
  privData := self.privData
  localCommitNum := self.commitLocal.commitNum
  localRevokeNum := self.commitLocal.revokeNum
  remoteCommitNum := self.commitRemote.commitNum

theorem ClosingChange.dance {before after : LnSelf} (hchange : ClosingChange before after) :
    after.dance = before.dance := by
  obtain ⟨_, _, _, _, _, _, _, rfl⟩ := hchange
  rfl

/-- The effect hands over no `revoke_and_ack` and saves no secret index. -/
def Effect.keepsSecret : Effect → Bool
  | .sendReq _ (.revokeAndAck ..) => false
  | .secretSave _ => false
  | _ => true

/-- The effect hands over no `commitment_signed`. -/
def Effect.keepsCommit : Effect → Bool
  | .sendReq _ (.commitmentSigned ..) => false
  | _ => true

/-- The effect hands over no message of the dance and saves no secret index. -/
def Effect.quiet (effect : Effect) : Bool :=
  effect.keepsSecret && effect.keepsCommit

/-- `recv_idle_proc_nonfinal` comes to send a `commitment_signed`, and can make one. -/
def sendsCommit (crypto : Crypto) (self : LnSelf) : ChannelEvent → Bool
  | .idle =>
      let enabled := (List.finRange lnHtlcMax).filter fun idx => (self.cnlAddHtlc idx).enable
      !enabled.isEmpty && !(enabled.all fun idx => (self.cnlAddHtlc idx).flag.comrevAll) &&
        !((List.finRange lnHtlcMax).any fun idx => (self.cnlAddHtlc idx).flag.comsiging) &&
        ((List.finRange lnHtlcMax).any fun idx => idleComsig (self.cnlAddHtlc idx)) &&
        (createCommitmentSigned crypto (self.mapSlots idleUpdateSlot)).isSome
  | _ => false

/-- The number of update messages that are due. -/
def dueUpdates (self : LnSelf) : Nat :=
  ((List.finRange lnHtlcMax).filterMap fun idx => idleUpdateMsg (self.cnlAddHtlc idx)).length

/-- A slot matches the flags that `ln_channel_reestablish_after` looks for. -/
def hasUpdateToResend (self : LnSelf) : Bool :=
  (List.finRange lnHtlcMax).any fun idx => (reestUpdateMsg (self.cnlAddHtlc idx)).isSome

/-- `ln_channel_reestablish_after` takes a `commitment_signed` back to send it again. -/
def takesBackCommit (self : LnSelf) : Bool :=
  decide (self.commitRemote.commitNum = self.reestCommitNum) && hasUpdateToResend self

/-- The number of effects of the first part of `ln_channel_reestablish_after`. -/
def resentEffects (self : LnSelf) : Nat :=
  if takesBackCommit self then 2 else 0

/-- `ln_channel_reestablish_after` sends `revoke_and_ack` again. -/
def resendsRevoke (self : LnSelf) : Bool :=
  decide (self.commitLocal.revokeNum = self.reestRevokeNum)

/-- The event is a `commitment_signed` that passes the checks of `recv_commitment_signed`. -/
def acceptsCommit (crypto : Crypto) (self : LnSelf) : ChannelEvent → Bool
  | .recv channelId (.commitmentSigned signature htlcSignatures) _ =>
      self.initFlag.exchanged && channelId == self.channelId &&
        (createToLocal crypto { self with commitLocal := { self.commitLocal with signature } }
          htlcSignatures (self.commitLocal.commitNum + 1) self.commitRemote.toSelfDelay
          self.commitLocal.dustLimitSat).1
  | _ => false

/-- What an event does to the counters and which messages of the dance it hands over. -/
inductive DanceChange (crypto : Crypto) (self : LnSelf) : ChannelEvent → Outcome → Prop
  | quiet {ev outcome} :
      outcome.self.dance = self.dance → outcome.trace.all Effect.quiet = true →
      DanceChange crypto self ev outcome
  | accepted {channelId sig htlcSigs env point after} :
      acceptsCommit crypto self (.recv channelId (.commitmentSigned sig htlcSigs) env) = true →
      after.commitLocal.signature = sig →
      after.dance =
        { self.dance with
          privData := (self.keysUpdateStorage crypto).privData
          localCommitNum := self.commitLocal.commitNum + 1
          localRevokeNum := self.commitLocal.commitNum } →
      DanceChange crypto self (.recv channelId (.commitmentSigned sig htlcSigs) env)
        ⟨true, after,
          [.sendReq none (.revokeAndAck (self.createPrevPercommitsec crypto).1 point),
            .secretSave after.privData, .selfSave after]⟩
  | committed {updates sig htlcSigs after} :
      sendsCommit crypto self .idle = true →
      updates.all Effect.quiet = true → updates.length = dueUpdates self →
      (∀ saved, Effect.selfSave saved ∉ updates) → after.commitRemote.signature = sig →
      after.dance = { self.dance with remoteCommitNum := self.commitRemote.commitNum + 1 } →
      DanceChange crypto self .idle
        ⟨true, after, updates ++ [.sendReq none (.commitmentSigned sig htlcSigs), .selfSave after]⟩
  | reestablished {resend point after} :
      resend.all Effect.quiet = true →
      resend.length = resentEffects self → (∀ saved, Effect.selfSave saved ∉ resend.take 1) →
      after.dance =
        { self.dance with
          remoteCommitNum :=
            if takesBackCommit self then self.commitRemote.commitNum - 1
            else self.commitRemote.commitNum } →
      DanceChange crypto self .reestablished
        ⟨true, after,
          resend ++ if resendsRevoke self then
            [.sendReq none (.revokeAndAck (self.createPrevPercommitsec crypto).1 point)] else []⟩

/-! ### The events -/

theorem OnlySlots.dance {before after : LnSelf} (honly : OnlySlots before after) :
    after.dance = before.dance := by
  obtain ⟨_, _, rfl⟩ := honly
  rfl

theorem answerShutdown_quiet (self : LnSelf) :
    (answerShutdown self).trace.all Effect.quiet = true := by
  rw [answerShutdown]
  split <;> rfl

theorem startClosing_quiet (self : LnSelf) :
    (startClosing crypto self).trace.all Effect.quiet = true := by
  rw [startClosing]
  split
  · split <;> rfl
  · rfl

theorem recvShutdown_quiet (self : LnSelf) (channelId scriptpk : Bytes) :
    (recvShutdown crypto self channelId scriptpk).trace.all Effect.quiet = true := by
  simp only [recvShutdown, Outcome.reject]
  split_ifs
  · rfl
  · rfl
  · rfl
  · simp only [Outcome.andThen, List.all_append, answerShutdown_quiet, startClosing_quiet]
    rfl

theorem closeOrAnswer_quiet (self : LnSelf) (feeSat : UInt64) (needClosetx broadcast : Bool) :
    (closeOrAnswer crypto self feeSat needClosetx broadcast).trace.all Effect.quiet = true := by
  rw [closeOrAnswer]
  repeat' split
  all_goals rfl

theorem recvClosingSigned_quiet (self : LnSelf) (channelId : Bytes) (feeSat : UInt64)
    (signature : Bytes) (broadcast : Bool) :
    (recvClosingSigned crypto self channelId feeSat signature broadcast).trace.all
      Effect.quiet = true := by
  simp only [recvClosingSigned, Outcome.reject]
  split_ifs
  · rfl
  · rfl
  · rfl
  · split
    · rfl
    · split <;> exact closeOrAnswer_quiet _ _ _ _

theorem recvCommitmentSigned_dance (hinit : self.initFlag.exchanged = true)
    (channelId sig : Bytes) (htlcSigs : List Bytes) (env : RecvEnv) :
    DanceChange crypto self (.recv channelId (.commitmentSigned sig htlcSigs) env)
      (recvCommitmentSigned crypto self channelId sig htlcSigs) := by
  obtain ⟨slots, txid, htlcNum, hself, -⟩ := createToLocal_changes crypto
    { self with commitLocal := { self.commitLocal with signature := sig } } htlcSigs
    (self.commitLocal.commitNum + 1) self.commitRemote.toSelfDelay self.commitLocal.dustLimitSat
  simp only [recvCommitmentSigned]
  split_ifs with hchannel hret
  · exact .quiet rfl rfl
  · simp only [hself]
    exact .quiet rfl rfl
  · have haccepts : acceptsCommit crypto self
        (.recv channelId (.commitmentSigned sig htlcSigs) env) = true := by
      simp_all [acceptsCommit]
    simp only [hself]
    exact .accepted haccepts rfl rfl

theorem recvRevokeAndAck_quiet (crypto : Crypto) (self : LnSelf)
    (channelId secret point : Bytes) :
    (recvRevokeAndAck crypto self channelId secret point).self.dance = self.dance ∧
      (recvRevokeAndAck crypto self channelId secret point).trace.all Effect.quiet = true := by
  simp only [recvRevokeAndAck, storePeerPercommitSecret]
  split_ifs
  · exact ⟨rfl, rfl⟩
  · exact ⟨rfl, rfl⟩
  · cases lnDerkeyStorageInsertSecret crypto self.peerStorage secret self.peerStorageIndex with
    | none => exact ⟨rfl, rfl⟩
    | some storage => exact ⟨rfl, rfl⟩

theorem recvUpdate_quiet {channelId : Bytes} {env : RecvEnv} {msg : LnMsg}
    (hupdate : (ChannelEvent.recv channelId msg env).isUpdate = true) :
    (recvFunc crypto self channelId env msg).trace.all Effect.quiet = true := by
  cases msg with
  | updateAddHtlc id amountMsat paymentSha256 cltvExpiry packet =>
      simp only [recvFunc, recvUpdateAddHtlc, Outcome.reject]
      repeat' split
      all_goals rfl
  | updateFulfillHtlc id preimage =>
      simp only [recvFunc, recvUpdateFulfillHtlc, Outcome.reject]
      repeat' split
      all_goals rfl
  | updateFailHtlc id reason =>
      simp only [recvFunc, recvUpdateFailHtlc, Outcome.reject]
      repeat' split
      all_goals rfl
  | updateFailMalformedHtlc id sha256Onion failureCode =>
      simp only [recvFunc, recvUpdateFailMalformedHtlc, Outcome.reject]
      repeat' split
      all_goals rfl
  | _ => simp [ChannelEvent.isUpdate, LnMsg.removal] at hupdate

theorem lnRecv_dance (channelId : Bytes) (msg : LnMsg) (env : RecvEnv) :
    DanceChange crypto self (.recv channelId msg env)
      (lnRecv crypto self channelId msg env) := by
  by_cases hinit : self.initFlag.exchanged = true
  swap
  · rw [lnRecv, if_neg hinit]
    exact .quiet rfl rfl
  by_cases hupdate : (ChannelEvent.recv channelId msg env).isUpdate = true
  · have honly : OnlySlots self (handle crypto self (.recv channelId msg env)).self :=
      handle_onlySlots hupdate
    refine .quiet honly.dance ?_
    rw [lnRecv, if_pos hinit]
    exact recvUpdate_quiet hupdate
  rw [lnRecv, if_pos hinit]
  cases msg with
  | commitmentSigned sig htlcSigs =>
      exact recvCommitmentSigned_dance hinit channelId sig htlcSigs env
  | revokeAndAck secret point =>
      obtain ⟨hdance, hquiet⟩ := recvRevokeAndAck_quiet crypto self channelId secret point
      exact .quiet hdance hquiet
  | updateFee feeratePerKw =>
      simp only [recvFunc, recvUpdateFee, Outcome.reject]
      split <;> exact .quiet rfl rfl
  | fundingLocked perCommitpt =>
      simp only [recvFunc, recvFundingLocked, Outcome.reject]
      split <;> exact .quiet rfl rfl
  | shutdown scriptpk =>
      exact .quiet (recvShutdown_closing crypto self channelId scriptpk).1.dance
        (recvShutdown_quiet self channelId scriptpk)
  | closingSigned feeSat signature =>
      exact .quiet (recvClosingSigned_closing crypto self channelId feeSat signature
        env.broadcast).1.dance (recvClosingSigned_quiet self channelId feeSat signature _)
  | channelReestablish reest =>
      simp only [recvFunc, recvChannelReestablish, Outcome.reject]
      repeat' split
      all_goals exact .quiet rfl rfl
  | _ => exact absurd rfl hupdate

theorem createCommitmentSigned_spec {commit : LnCommitData} {msg : LnMsg}
    (hcreated : createCommitmentSigned crypto self = some (commit, msg)) :
    ∃ txid signature htlcNum htlcSigs,
      commit = { self.commitRemote with
        txid, signature, htlcNum, commitNum := self.commitRemote.commitNum + 1 } ∧
      msg = .commitmentSigned signature htlcSigs := by
  simp only [createCommitmentSigned] at hcreated
  split_ifs at hcreated
  obtain ⟨⟨created, htlcSigs⟩, hbuilt, heq⟩ := Option.map_eq_some_iff.mp hcreated
  obtain ⟨rfl, rfl⟩ := Prod.mk.inj heq
  simp only [createToRemote] at hbuilt
  split at hbuilt
  · cases hbuilt
  · split at hbuilt
    · cases hbuilt
    · obtain ⟨rfl, rfl⟩ := Prod.mk.inj (Option.some.inj hbuilt)
      exact ⟨_, _, _, _, rfl, rfl⟩

theorem idleUpdateMsg_quiet {htlc : LnUpdateAddHtlc} {msg : LnMsg} {idx : Option HtlcIdx}
    (hmsg : idleUpdateMsg htlc = some msg) : (Effect.sendReq idx msg).quiet = true := by
  simp only [idleUpdateMsg] at hmsg
  split_ifs at hmsg
  · obtain rfl := Option.some.inj hmsg
    rfl
  · cases hdel : htlc.flag.delhtlc <;> rw [hdel] at hmsg <;> cases hmsg <;> rfl

theorem idleUpdates_quiet (slots : Slots) :
    ((List.finRange lnHtlcMax).filterMap fun idx =>
      (idleUpdateMsg (slots idx)).map (Effect.sendReq (some idx))).all Effect.quiet = true := by
  refine List.all_eq_true.mpr fun effect hmem => ?_
  obtain ⟨idx, -, hidx⟩ := List.mem_filterMap.mp hmem
  obtain ⟨msg, hmsg, rfl⟩ := Option.map_eq_some_iff.mp hidx
  exact idleUpdateMsg_quiet hmsg

theorem idleFinalSlot_quiet (htlc : LnUpdateAddHtlc) :
    (idleFinalSlot htlc).2.all Effect.quiet = true := by
  simp only [idleFinalSlot]
  split_ifs <;> rfl

theorem recvIdleProcFinal_quiet (self : LnSelf) :
    (recvIdleProcFinal self).trace.all Effect.quiet = true := by
  simp only [recvIdleProcFinal, List.all_append, List.all_flatMap, Bool.and_eq_true,
    List.all_eq_true]
  refine ⟨⟨fun idx _ effect hmem => ?_, ?_⟩, ?_⟩
  · exact List.all_eq_true.mp (idleFinalSlot_quiet (self.cnlAddHtlc idx)) effect hmem
  · split_ifs <;> simp [Effect.quiet, Effect.keepsSecret, Effect.keepsCommit]
  · split_ifs <;> simp [Effect.quiet, Effect.keepsSecret, Effect.keepsCommit]

theorem lnRecvIdleProc_dance (self : LnSelf) :
    DanceChange crypto self .idle (lnRecvIdleProc crypto self) := by
  have hupdates := idleUpdates_quiet self.cnlAddHtlc
  have hdue : ((List.finRange lnHtlcMax).filterMap fun idx =>
      (idleUpdateMsg (self.cnlAddHtlc idx)).map (Effect.sendReq (some idx))).length =
        dueUpdates self := by
    simp only [dueUpdates, List.length_filterMap_eq_countP, Option.isSome_map]
  have hsave : ∀ saved, Effect.selfSave saved ∉ (List.finRange lnHtlcMax).filterMap fun idx =>
      (idleUpdateMsg (self.cnlAddHtlc idx)).map (Effect.sendReq (some idx)) := by
    simp
  simp only [lnRecvIdleProc]
  split_ifs with hnone hall
  · exact .quiet rfl rfl
  · exact .quiet rfl (recvIdleProcFinal_quiet self)
  · simp only [recvIdleProcNonfinal, idleSendComsig]
    split_ifs with hcomsiging hcomsig
    · exact .quiet rfl rfl
    · split
      · refine .quiet rfl ?_
        rw [List.all_append, hupdates]
        rfl
      · rename_i commit msg hcreated
        have hsends : sendsCommit crypto self .idle = true := by
          simp_all [sendsCommit]
        obtain ⟨txid, signature, htlcNum, htlcSigs, rfl, rfl⟩ :=
          createCommitmentSigned_spec hcreated
        exact .committed hsends hupdates hdue hsave rfl rfl
    · exact .quiet rfl hupdates

theorem reestUpdateMsg_quiet {htlc : LnUpdateAddHtlc} {msg : LnMsg} {idx : Option HtlcIdx}
    (hmsg : reestUpdateMsg htlc = some msg) : (Effect.sendReq idx msg).quiet = true := by
  simp only [reestUpdateMsg] at hmsg
  split_ifs at hmsg <;>
    · obtain rfl := Option.some.inj hmsg
      rfl

theorem reestResendUpdate_changes (self : LnSelf) :
    (reestResendUpdate self).trace.length = (if hasUpdateToResend self then 2 else 0) ∧
      ∃ slots, (reestResendUpdate self).self = { self with
        cnlAddHtlc := slots
        commitRemote := { self.commitRemote with
          commitNum :=
            if hasUpdateToResend self then self.commitRemote.commitNum - 1
            else self.commitRemote.commitNum } } := by
  rw [reestResendUpdate]
  split
  · rename_i hnone
    have hany : hasUpdateToResend self = false := by
      simp_all [hasUpdateToResend]
    rw [hany]
    exact ⟨rfl, _, rfl⟩
  · rename_i idx msg hfind
    obtain ⟨other, hmem, hother⟩ := List.exists_of_findSome?_eq_some hfind
    obtain ⟨msg', hmsg, heq⟩ := Option.map_eq_some_iff.mp hother
    obtain ⟨rfl, rfl⟩ := Prod.mk.inj heq
    have hany : hasUpdateToResend self = true :=
      List.any_eq_true.mpr ⟨other, hmem, by rw [hmsg]; rfl⟩
    rw [hany]
    exact ⟨rfl, _, rfl⟩

theorem reestResendUpdate_quiet (self : LnSelf) :
    (reestResendUpdate self).trace.all Effect.quiet = true ∧
      ∀ saved, Effect.selfSave saved ∉ (reestResendUpdate self).trace.take 1 := by
  rw [reestResendUpdate]
  split
  · exact ⟨rfl, fun _ => List.not_mem_nil⟩
  · rename_i idx msg hfind
    obtain ⟨other, -, hother⟩ := List.exists_of_findSome?_eq_some hfind
    obtain ⟨msg', hmsg, heq⟩ := Option.map_eq_some_iff.mp hother
    obtain ⟨rfl, rfl⟩ := Prod.mk.inj heq
    refine ⟨?_, by simp⟩
    rw [List.all_cons, reestUpdateMsg_quiet hmsg]
    rfl

theorem createPrevPercommitsec_congr {self' : LnSelf} (hpriv : self'.privData = self.privData) :
    (self'.createPrevPercommitsec crypto).1 = (self.createPrevPercommitsec crypto).1 := by
  simp only [LnSelf.createPrevPercommitsec, hpriv]
  split <;> rfl

theorem lnChannelReestablishAfter_dance (self : LnSelf) :
    DanceChange crypto self .reestablished (lnChannelReestablishAfter crypto self) := by
  simp only [lnChannelReestablishAfter]
  generalize hresent : (if self.commitRemote.commitNum = self.reestCommitNum then
    reestResendUpdate self else (⟨true, self, []⟩ : Outcome)) = resent
  have hspec : (resent.trace.all Effect.quiet = true ∧
      ∀ saved, Effect.selfSave saved ∉ resent.trace.take 1) ∧
      resent.trace.length = resentEffects self ∧ ∃ slots, resent.self = { self with
        cnlAddHtlc := slots
        commitRemote := { self.commitRemote with
          commitNum :=
            if takesBackCommit self then self.commitRemote.commitNum - 1
            else self.commitRemote.commitNum } } := by
    subst hresent
    by_cases hcommit : self.commitRemote.commitNum = self.reestCommitNum
    · rw [if_pos hcommit, resentEffects, takesBackCommit, decide_eq_true hcommit, Bool.true_and]
      exact ⟨reestResendUpdate_quiet self, reestResendUpdate_changes self⟩
    · rw [if_neg hcommit, resentEffects, takesBackCommit, decide_eq_false hcommit,
        Bool.false_and]
      exact ⟨⟨rfl, fun _ => List.not_mem_nil⟩, rfl, _, rfl⟩
  obtain ⟨⟨hquiet, hsave⟩, hlength, slots, hself⟩ := hspec
  have hrevokeNum : resent.self.commitLocal.revokeNum = self.commitLocal.revokeNum := by
    rw [hself]
  have hreest : resent.self.reestRevokeNum = self.reestRevokeNum := by rw [hself]
  have hsecret : (resent.self.createPrevPercommitsec crypto).1 =
      (self.createPrevPercommitsec crypto).1 :=
    createPrevPercommitsec_congr (by rw [hself])
  have hdance : resent.self.dance = { self.dance with
      remoteCommitNum :=
        if takesBackCommit self then self.commitRemote.commitNum - 1
        else self.commitRemote.commitNum } := by
    rw [hself]
    rfl
  rw [hrevokeNum, hreest, hsecret]
  have hchange : DanceChange crypto self .reestablished ⟨true, resent.self,
      resent.trace ++ if resendsRevoke self then
        [.sendReq none (.revokeAndAck (self.createPrevPercommitsec crypto).1
          resent.self.fundingLocal.pubkeys.perCommit)] else []⟩ :=
    .reestablished hquiet hlength hsave hdance
  split_ifs with hrevoke
  · rwa [resendsRevoke, decide_eq_true hrevoke, if_pos rfl] at hchange
  · rw [resendsRevoke, decide_eq_false hrevoke, if_neg Bool.false_ne_true, List.append_nil]
      at hchange
    exact hchange

/-- Every event does to the counters of the dance one of the listed things. -/
theorem handle_dance (crypto : Crypto) (self : LnSelf) (ev : ChannelEvent) :
    DanceChange crypto self ev (handle crypto self ev) := by
  cases ev with
  | recv channelId msg env => exact lnRecv_dance channelId msg env
  | idle => exact lnRecvIdleProc_dance self
  | shutdown fee => exact .quiet rfl rfl
  | reestablished => exact lnChannelReestablishAfter_dance self
  | _ => exact .quiet (handle_onlySlots rfl).dance rfl

/-! ### Steps of a run -/

theorem Db.writes_append (db : Db) (first second : List Effect) :
    db.writes (first ++ second) = (db.writes first).writes second :=
  List.foldl_append ..

/-- What `ln_db_self_save` writes unchanged, the database holds after a handler that
saved nothing else. -/
theorem Db.writes_chan {α : Type} {proj : LnSelf → α} {value : α}
    (hsave : ∀ (db : Db) (saved : LnSelf), proj (db.saveSelf saved).chan = proj saved)
    {trace : List Effect} :
    ∀ {db : Db}, proj db.chan = value →
      (∀ saved, Effect.selfSave saved ∈ trace → proj saved = value) →
      proj (db.writes trace).chan = value := by
  induction trace with
  | nil =>
      intro db hdb _
      exact hdb
  | cons effect rest ih =>
      intro db hdb hsaved
      refine ih ?_ fun saved hmem => hsaved saved (List.mem_cons_of_mem _ hmem)
      cases effect with
      | selfSave saved => exact (hsave db saved).trans (hsaved saved (List.mem_cons_self ..))
      | _ => exact hdb

theorem all_take {trace : List Effect} {keeps : Effect → Bool} (done : Nat)
    (hall : trace.all keeps = true) : (trace.take done).all keeps = true := by
  simp only [List.all_eq_true] at hall ⊢
  exact fun effect hmem => hall effect (List.mem_of_mem_take hmem)

/-- An event, or the part of it before the process stopped, took place: these are its
effects, and the channel is what the event left unless the process stopped. -/
structure Took (before : ChannelState) (outcome : Outcome) (trace : List Effect)
    (after : ChannelState) : Prop where
  running : before.running
  db : after.db = before.db.writes trace
  sent : after.sent = before.sent ++ trace.filterMap Effect.sent
  self : after.self = outcome.self ∧ trace = outcome.trace ∨
    after.self = before.self ∧ ¬ after.running

theorem channelNext_took {before after : ChannelState} {label : ChannelLabel}
    (hnext : channelNext crypto before label = some after) :
    (∃ ev, label = .event ev ∧
        Took before (handle crypto before.self ev) (handle crypto before.self ev).trace after) ∨
      (∃ ev done, label = .stop ev done ∧
        Took before (handle crypto before.self ev)
          ((handle crypto before.self ev).trace.take done) after) ∨
      ∃ dataloss, label = .restart dataloss := by
  cases label with
  | event ev =>
      simp only [channelNext] at hnext
      split at hnext
      · rename_i henabled
        obtain rfl := Option.some.inj hnext
        exact .inl ⟨ev, rfl, (Bool.and_eq_true_iff.mp henabled).1, rfl, rfl, .inl ⟨rfl, rfl⟩⟩
      · cases hnext
  | stop ev done =>
      simp only [channelNext] at hnext
      split at hnext
      · rename_i henabled
        obtain rfl := Option.some.inj hnext
        exact .inr (.inl ⟨ev, done, rfl, (Bool.and_eq_true_iff.mp henabled).1, rfl, rfl,
          .inr ⟨rfl, Bool.false_ne_true⟩⟩)
      · cases hnext
  | restart dataloss => exact .inr (.inr ⟨dataloss, rfl⟩)

end Ptarmigan
