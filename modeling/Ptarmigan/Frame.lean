/-
What the functions of a channel leave alone: the fields that `create_to_local` and
the closing of a channel write, and what the handlers save.
-/
import Ptarmigan.ChannelRun

namespace Ptarmigan

variable {crypto : Crypto} {self : LnSelf}

/-! ### Functions that leave the slots alone, or almost -/

@[simp] theorem updateScriptkeys_slots (self : LnSelf) :
    (self.updateScriptkeys crypto).cnlAddHtlc = self.cnlAddHtlc := rfl

@[simp] theorem keysUpdateStorage_slots (self : LnSelf) :
    (self.keysUpdateStorage crypto).cnlAddHtlc = self.cnlAddHtlc := rfl

/-- The slots agree except for the signatures stored in them. -/
def SameButSignatures (slots slots' : Slots) : Prop :=
  ∀ idx, ∃ signature, slots' idx = { slots idx with signature }

theorem SameButSignatures.refl (slots : Slots) : SameButSignatures slots slots :=
  fun idx => ⟨(slots idx).signature, rfl⟩

theorem SameButSignatures.trans {first second third : Slots}
    (hfirst : SameButSignatures first second) (hsecond : SameButSignatures second third) :
    SameButSignatures first third := by
  intro idx
  obtain ⟨_, hmiddle⟩ := hfirst idx
  obtain ⟨signature, hlast⟩ := hsecond idx
  exact ⟨signature, by simp only [hlast, hmiddle]⟩

theorem createToLocalSpentVerify_slots (build : CommitBuild) (htlcSigs : List Bytes)
    (outs : List (Nat × UInt64 × LnScriptHtlcinfo)) (htlcNum : Nat) (slots : Slots) :
    SameButSignatures slots
      (createToLocalSpentVerify crypto self build htlcSigs outs htlcNum slots).2.2 := by
  induction outs generalizing htlcNum slots with
  | nil => exact .refl slots
  | cons out rest ih =>
      rw [createToLocalSpentVerify]
      split
      · intro idx
        obtain ⟨signature, hslot⟩ := ih (htlcNum + 1)
          (Function.update slots out.2.2.addHtlcIdx
            { slots out.2.2.addHtlcIdx with signature := htlcSigs.getD htlcNum [] }) idx
        refine ⟨signature, hslot.trans ?_⟩
        by_cases hidx : idx = out.2.2.addHtlcIdx
        · subst hidx
          simp only [Function.update_self]
        · rw [Function.update_of_ne hidx]
      · exact .refl slots

/-- `create_to_local` writes the signatures of the slots, and the id and the number
of HTLCs of the local transaction. -/
theorem createToLocal_changes (crypto : Crypto) (self : LnSelf) (htlcSigs : List Bytes)
    (commitNum : UInt64) (toSelfDelay : UInt16) (dustLimitSat : UInt64) :
    ∃ slots txid htlcNum,
      (createToLocal crypto self htlcSigs commitNum toSelfDelay dustLimitSat).2 =
          { self with
            cnlAddHtlc := slots
            commitLocal := { self.commitLocal with txid, htlcNum } } ∧
        SameButSignatures self.cnlAddHtlc slots := by
  simp only [createToLocal]
  split
  · exact ⟨_, _, _, rfl, .refl _⟩
  · split
    · simp only [createToLocalSpent]
      split
      · exact ⟨_, _, _, rfl, createToLocalSpentVerify_slots _ _ _ _ _⟩
      · exact ⟨_, _, _, rfl, .refl _⟩
    · exact ⟨_, _, _, rfl, .refl _⟩

/-- The fields that closing a channel writes, among them the two signatures. -/
def ClosingChange (self self' : LnSelf) : Prop :=
  ∃ status shutdownFlag closeFeeSat closeLastFeeSat shutdownScriptpkRemote ours theirs,
    self' = { self with
      status, shutdownFlag, closeFeeSat, closeLastFeeSat, shutdownScriptpkRemote
      commitLocal := { self.commitLocal with signature := theirs }
      commitRemote := { self.commitRemote with signature := ours } }

theorem ClosingChange.refl (self : LnSelf) : ClosingChange self self :=
  ⟨_, _, _, _, _, _, _, rfl⟩

theorem ClosingChange.trans {self self' self'' : LnSelf} (hfirst : ClosingChange self self')
    (hsecond : ClosingChange self' self'') : ClosingChange self self'' := by
  obtain ⟨_, _, _, _, _, _, _, rfl⟩ := hfirst
  obtain ⟨_, _, _, _, _, _, _, rfl⟩ := hsecond
  exact ⟨_, _, _, _, _, _, _, rfl⟩

theorem createClosingTx_change {self closed : LnSelf} {feeSat : UInt64} {verify ret : Bool}
    (hclosed : createClosingTx crypto self feeSat verify = (ret, closed)) :
    ClosingChange self closed := by
  simp only [createClosingTx] at hclosed
  split at hclosed
  · obtain ⟨rfl, rfl⟩ := Prod.mk.inj hclosed
    exact .refl self
  · split at hclosed
    · obtain ⟨rfl, rfl⟩ := Prod.mk.inj hclosed
      exact .refl self
    · obtain ⟨rfl, rfl⟩ := Prod.mk.inj hclosed
      exact ⟨_, _, _, _, _, _, _, rfl⟩

/-- What a handler saved differs from the state it left by a closing change. -/
def SavesResult (outcome : Outcome) : Prop :=
  ∀ saved, Effect.selfSave saved ∈ outcome.trace → ClosingChange saved outcome.self

/-- What a handler did amounts to a closing change. -/
def ClosingOutcome (self : LnSelf) (outcome : Outcome) : Prop :=
  ClosingChange self outcome.self ∧ SavesResult outcome

theorem ClosingOutcome.of_change {before after : LnSelf} {ret : Bool} {trace : List Effect}
    (hchange : ClosingChange before after)
    (htrace : ∀ saved, Effect.selfSave saved ∈ trace → saved = after) :
    ClosingOutcome before ⟨ret, after, trace⟩ :=
  ⟨hchange, fun saved hsaved => htrace saved hsaved ▸ .refl after⟩

theorem ClosingOutcome.andThen {before : LnSelf} {outcome : Outcome}
    {next : LnSelf → Outcome} (hfirst : ClosingOutcome before outcome)
    (hnext : ClosingOutcome outcome.self (next outcome.self)) :
    ClosingOutcome before (outcome.andThen next) := by
  refine ⟨hfirst.1.trans hnext.1, fun saved hsaved => ?_⟩
  rcases List.mem_append.mp hsaved with hsaved | hsaved
  · exact (hfirst.2 saved hsaved).trans hnext.1
  · exact hnext.2 saved hsaved

theorem ClosingOutcome.after_change {before middle : LnSelf} {outcome : Outcome}
    (hchange : ClosingChange before middle) (houtcome : ClosingOutcome middle outcome) :
    ClosingOutcome before outcome :=
  ⟨hchange.trans houtcome.1, houtcome.2⟩

theorem lnShutdownCreate_closing (self : LnSelf) :
    ClosingOutcome self (lnShutdownCreate self).1 :=
  .of_change ⟨_, _, _, _, _, _, _, rfl⟩ (by simp)

theorem lnShutdownUpdateFee_closing (self : LnSelf) (fee : UInt64) :
    ClosingChange self (lnShutdownUpdateFee self fee) :=
  ⟨_, _, _, _, _, _, _, rfl⟩

theorem answerShutdown_closing (self : LnSelf) : ClosingOutcome self (answerShutdown self) := by
  rw [answerShutdown]
  split
  · exact .of_change (.refl self) (by simp)
  · exact .andThen (.after_change (lnShutdownUpdateFee_closing self _)
      (lnShutdownCreate_closing _)) (.of_change (.refl _) (by simp))

theorem startClosing_closing (self : LnSelf) : ClosingOutcome self (startClosing crypto self) := by
  rw [startClosing]
  split
  · split
    · rename_i hclosed
      exact .of_change (createClosingTx_change hclosed) (by simp)
    · rename_i closed hclosed
      have hlast : ClosingChange closed { closed with closeLastFeeSat := closed.closeFeeSat } :=
        ⟨_, _, _, _, _, _, _, rfl⟩
      exact .of_change ((createClosingTx_change hclosed).trans hlast) (by simp)
  · exact .of_change (.refl self) (by simp)

theorem recvShutdown_closing (crypto : Crypto) (self : LnSelf) (channelId scriptpk : Bytes) :
    ClosingOutcome self (recvShutdown crypto self channelId scriptpk) := by
  simp only [recvShutdown, Outcome.reject]
  split_ifs
  · exact .of_change (.refl self) (by simp)
  · exact .of_change ⟨_, _, _, _, _, _, _, rfl⟩ (by simp)
  · exact .of_change ⟨_, _, _, _, _, _, _, rfl⟩ (by simp)
  · refine .andThen (.of_change ⟨_, _, _, _, _, _, _, rfl⟩ (by simp))
      (.andThen (.after_change ?_ (answerShutdown_closing _)) (.andThen
        (.of_change ⟨_, _, _, _, _, _, _, rfl⟩ (by simp)) (startClosing_closing _)))
    exact ⟨_, _, _, _, _, _, _, rfl⟩

theorem closeOrAnswer_closing (self : LnSelf) (feeSat : UInt64) (needClosetx broadcast : Bool) :
    ClosingOutcome self (closeOrAnswer crypto self feeSat needClosetx broadcast) := by
  rw [closeOrAnswer]
  split
  · rename_i hclosed
    exact .of_change (createClosingTx_change hclosed) (by simp)
  · rename_i hclosed
    refine .after_change (createClosingTx_change hclosed) ?_
    split_ifs
    · exact .of_change ⟨_, _, _, _, _, _, _, rfl⟩ (by simp)
    · exact .of_change (.refl _) (by simp)
    · exact .of_change ⟨_, _, _, _, _, _, _, rfl⟩ (by simp)

theorem recvClosingSigned_closing (crypto : Crypto) (self : LnSelf) (channelId : Bytes)
    (feeSat : UInt64) (signature : Bytes) (broadcast : Bool) :
    ClosingOutcome self
      (recvClosingSigned crypto self channelId feeSat signature broadcast) := by
  have hread : ClosingChange self
      { self with commitLocal := { self.commitLocal with signature } } :=
    ⟨_, _, _, _, _, _, _, rfl⟩
  simp only [recvClosingSigned, Outcome.reject]
  split_ifs
  · exact .of_change (.refl self) (by simp)
  · exact .of_change hread (by simp)
  · exact .of_change hread (by simp)
  · refine .after_change hread ?_
    split
    · rename_i hclosed
      exact .of_change (createClosingTx_change hclosed) (by simp)
    · rename_i hclosed
      refine .after_change (createClosingTx_change hclosed) ?_
      split
      · exact closeOrAnswer_closing _ _ _ _
      · exact .after_change (lnShutdownUpdateFee_closing _ _) (closeOrAnswer_closing _ _ _ _)

/-! ### After the funding exchange -/

theorem signInitialRemote_changes {signed : LnSelf}
    (hsigned : signInitialRemote crypto self = some signed) :
    ∃ commitRemote, signed = { self with commitRemote } := by
  obtain ⟨_, _, rfl⟩ := Option.map_eq_some_iff.mp hsigned
  exact ⟨_, rfl⟩

theorem verifyInitialLocal_changes {signature : Bytes} {verified : LnSelf}
    (hverified : verifyInitialLocal crypto self signature = some verified) :
    ∃ slots commitLocal, verified = { self with cnlAddHtlc := slots, commitLocal } ∧
      SameButSignatures self.cnlAddHtlc slots := by
  simp only [verifyInitialLocal] at hverified
  split at hverified
  · cases hverified
  · rename_i created hcreated
    obtain rfl := Option.some.inj hverified
    obtain ⟨slots, txid, htlcNum, hself, hslots⟩ := createToLocal_changes crypto
      { self with commitLocal := { self.commitLocal with signature } } [] 0
      self.commitRemote.toSelfDelay self.commitLocal.dustLimitSat
    rw [hcreated] at hself
    exact ⟨slots, _, hself, hslots⟩

/-- A channel of the given funding and balances before its first commitment. -/
structure Fresh (fundingSat ourMsat theirMsat : UInt64) (ready : LnSelf) : Prop where
  slots : SameButSignatures (fun _ => {}) ready.cnlAddHtlc
  storageIndex : ready.privData.storageIndex = lnSecindexInit - 1
  peerStorage : ready.peerStorage = lnDerkeyStorageInit
  peerStorageIndex : ready.peerStorageIndex = lnSecindexInit
  initFlag : ready.initFlag = ⟨true, true⟩
  shutdownFlag : ready.shutdownFlag = {}
  fundingSat : ready.fundingSat = fundingSat
  ourMsat : ready.ourMsat = ourMsat
  theirMsat : ready.theirMsat = theirMsat
  shortChannelId : ready.shortChannelId = 0
  htlcIdNum : ready.htlcIdNum = 0

section Fresh

variable {fundingSat ourMsat theirMsat : UInt64}

theorem Fresh.congr {self' : LnSelf} (hfresh : Fresh fundingSat ourMsat theirMsat self)
    (hslots : self'.cnlAddHtlc = self.cnlAddHtlc) (hpriv : self'.privData = self.privData)
    (hpeer : self'.peerStorage = self.peerStorage ∧
      self'.peerStorageIndex = self.peerStorageIndex)
    (hflags : self'.initFlag = self.initFlag ∧ self'.shutdownFlag = self.shutdownFlag)
    (hmoney : self'.fundingSat = self.fundingSat ∧ self'.ourMsat = self.ourMsat ∧
      self'.theirMsat = self.theirMsat ∧ self'.shortChannelId = self.shortChannelId ∧
      self'.htlcIdNum = self.htlcIdNum) : Fresh fundingSat ourMsat theirMsat self' where
  slots := hslots ▸ hfresh.slots
  storageIndex := hpriv ▸ hfresh.storageIndex
  peerStorage := hpeer.1.trans hfresh.peerStorage
  peerStorageIndex := hpeer.2.trans hfresh.peerStorageIndex
  initFlag := hflags.1.trans hfresh.initFlag
  shutdownFlag := hflags.2.trans hfresh.shutdownFlag
  fundingSat := hmoney.1.trans hfresh.fundingSat
  ourMsat := hmoney.2.1.trans hfresh.ourMsat
  theirMsat := hmoney.2.2.1.trans hfresh.theirMsat
  shortChannelId := hmoney.2.2.2.1.trans hfresh.shortChannelId
  htlcIdNum := hmoney.2.2.2.2.trans hfresh.htlcIdNum

theorem Fresh.sign {signed : LnSelf} (hfresh : Fresh fundingSat ourMsat theirMsat self)
    (hsigned : signInitialRemote crypto self = some signed) :
    Fresh fundingSat ourMsat theirMsat signed := by
  obtain ⟨commitRemote, rfl⟩ := signInitialRemote_changes hsigned
  exact hfresh.congr rfl rfl ⟨rfl, rfl⟩ ⟨rfl, rfl⟩ ⟨rfl, rfl, rfl, rfl, rfl⟩

theorem Fresh.verify {signature : Bytes} {verified : LnSelf}
    (hfresh : Fresh fundingSat ourMsat theirMsat self)
    (hverified : verifyInitialLocal crypto self signature = some verified) :
    Fresh fundingSat ourMsat theirMsat verified := by
  obtain ⟨slots, commitLocal, rfl, hslots⟩ := verifyInitialLocal_changes hverified
  exact { hfresh with slots := hfresh.slots.trans hslots }

theorem create2of2_fresh (self : LnSelf) (hfresh : Fresh fundingSat ourMsat theirMsat self) :
    Fresh fundingSat ourMsat theirMsat self.create2of2 := by
  simp only [LnSelf.create2of2]
  split <;> exact hfresh.congr rfl rfl ⟨rfl, rfl⟩ ⟨rfl, rfl⟩ ⟨rfl, rfl, rfl, rfl, rfl⟩

theorem recvOpenChannel_fresh {seed scriptpk : Bytes} {dataloss : Bool} {openCh : LnOpenChannel}
    {estprm : LnEstablishPrm} {priv : Fundkeys}
    (hopened : recvOpenChannel crypto (lnInit seed scriptpk dataloss) openCh estprm priv =
      some self) :
    Fresh openCh.fundingSat openCh.pushMsat (openCh.fundingSat * 1000 - openCh.pushMsat) self ∧
      openChannelInRange openCh.fundingSat openCh.pushMsat openCh.maxAcceptedHtlcs = true := by
  simp only [recvOpenChannel] at hopened
  split_ifs at hopened with hrange
  obtain rfl := Option.some.inj hopened
  refine ⟨create2of2_fresh _ ⟨fun _ => ⟨[], rfl⟩, rfl, rfl, rfl, rfl, rfl, rfl, rfl, rfl, rfl, rfl⟩,
    ?_⟩
  simpa only [Bool.not_eq_true', Bool.not_eq_false] using hrange

theorem lnOpenChannelCreate_fresh {seed scriptpk : Bytes} {dataloss : Bool}
    {estprm : LnEstablishPrm} {fundingSat pushSat : UInt64} {feeRate : UInt32} {channelId : Bytes}
    {priv : Fundkeys}
    (hcreated : lnOpenChannelCreate crypto (lnInit seed scriptpk dataloss) estprm fundingSat
      pushSat feeRate channelId priv = some self) :
    Fresh fundingSat (fundingSat * 1000 - pushSat * 1000) (pushSat * 1000) self := by
  simp only [lnOpenChannelCreate] at hcreated
  split at hcreated
  · cases hcreated
  · obtain rfl := Option.some.inj hcreated
    exact ⟨fun _ => ⟨[], rfl⟩, rfl, rfl, rfl, rfl, rfl, rfl, rfl, rfl, rfl, rfl⟩

theorem openedAsFundee_fresh {seed scriptpk : Bytes} {dataloss : Bool} {openCh : LnOpenChannel}
    {estprm : LnEstablishPrm} {priv : Fundkeys} {outpoint : FundingOutpoint} {signature : Bytes}
    {outcome : Outcome}
    (hopened : openedAsFundee crypto (lnInit seed scriptpk dataloss) openCh estprm priv outpoint
      signature = some outcome) :
    ∃ ready, outcome = startFundingWait crypto ready ∧
      Fresh openCh.fundingSat openCh.pushMsat (openCh.fundingSat * 1000 - openCh.pushMsat)
        ready ∧
      openChannelInRange openCh.fundingSat openCh.pushMsat openCh.maxAcceptedHtlcs = true := by
  obtain ⟨offered, hoffered, hcreated⟩ := Option.bind_eq_some_iff.mp hopened
  simp only [recvFundingCreated] at hcreated
  split at hcreated
  · cases hcreated
  · obtain ⟨verified, hverified, hfunded⟩ := Option.bind_eq_some_iff.mp hcreated
    obtain ⟨signed, hsigned, rfl⟩ := Option.map_eq_some_iff.mp hfunded
    obtain ⟨hfresh, hrange⟩ := recvOpenChannel_fresh hoffered
    have hset : Fresh _ _ _ (offered.setFunding crypto outpoint) :=
      hfresh.congr rfl rfl ⟨rfl, rfl⟩ ⟨rfl, rfl⟩ ⟨rfl, rfl, rfl, rfl, rfl⟩
    exact ⟨_, rfl, ((hset.verify hverified).sign hsigned).congr rfl rfl ⟨rfl, rfl⟩ ⟨rfl, rfl⟩
      ⟨rfl, rfl, rfl, rfl, rfl⟩, hrange⟩

theorem openedAsFunder_fresh {seed scriptpk : Bytes} {dataloss : Bool} {estprm : LnEstablishPrm}
    {fundingSat pushSat : UInt64} {feeRate : UInt32} {channelId : Bytes} {priv : Fundkeys}
    {acceptCh : LnAcceptChannel} {outpoint : FundingOutpoint} {signature : Bytes}
    {outcome : Outcome}
    (hopened : openedAsFunder crypto (lnInit seed scriptpk dataloss) estprm fundingSat pushSat
      feeRate channelId priv acceptCh outpoint signature = some outcome) :
    ∃ ready, outcome = startFundingWait crypto ready ∧
      Fresh fundingSat (fundingSat * 1000 - pushSat * 1000) (pushSat * 1000) ready := by
  obtain ⟨created, hcreated, haccepted⟩ := Option.bind_eq_some_iff.mp hopened
  obtain ⟨accepted, haccept, hsigned⟩ := Option.bind_eq_some_iff.mp haccepted
  simp only [recvAcceptChannel] at haccept
  split at haccept
  · cases haccept
  · simp only [recvFundingSigned] at hsigned
    split at hsigned
    · cases hsigned
    · obtain ⟨verified, hverified, rfl⟩ := Option.map_eq_some_iff.mp hsigned
      have hcreate := lnOpenChannelCreate_fresh hcreated
      have haccepted : Fresh fundingSat (fundingSat * 1000 - pushSat * 1000) (pushSat * 1000)
          accepted := by
        refine Fresh.sign ?_ haccept
        refine Fresh.congr (create2of2_fresh (LnSelf.updateScriptkeys crypto _)
          (hcreate.congr ?_ ?_ ?_ ?_ ?_)) rfl rfl ⟨rfl, rfl⟩ ⟨rfl, rfl⟩ ⟨rfl, rfl, rfl, rfl, rfl⟩
        exacts [rfl, rfl, ⟨rfl, rfl⟩, ⟨rfl, rfl⟩, ⟨rfl, rfl, rfl, rfl, rfl⟩]
      refine ⟨verified, rfl, Fresh.verify ?_ hverified⟩
      exact haccepted.congr rfl rfl ⟨rfl, rfl⟩ ⟨rfl, rfl⟩ ⟨rfl, rfl, rfl, rfl, rfl⟩

theorem FundingDone.fresh {outcome : Outcome} (hdone : FundingDone crypto outcome) :
    ∃ fundingSat ourMsat theirMsat ready, outcome = startFundingWait crypto ready ∧
      Fresh fundingSat ourMsat theirMsat ready := by
  cases hdone with
  | fundee hopened =>
      obtain ⟨ready, hready, hfresh, -⟩ := openedAsFundee_fresh hopened
      exact ⟨_, _, _, ready, hready, hfresh⟩
  | funder hopened =>
      obtain ⟨ready, hready, hfresh⟩ := openedAsFunder_fresh hopened
      exact ⟨_, _, _, ready, hready, hfresh⟩

end Fresh

/-! ### What is saved -/

theorem savesResult_of_saved {outcome : Outcome}
    (htrace : ∀ saved, Effect.selfSave saved ∈ outcome.trace → saved = outcome.self) :
    SavesResult outcome :=
  fun saved hsaved => htrace saved hsaved ▸ .refl outcome.self

theorem idleFinalSlot_saves (htlc : LnUpdateAddHtlc) (saved : LnSelf) :
    Effect.selfSave saved ∉ (idleFinalSlot htlc).2 := by
  simp only [idleFinalSlot]
  split_ifs <;> simp

theorem lnRecvIdleProc_saved {saved : LnSelf}
    (hsaved : Effect.selfSave saved ∈ (lnRecvIdleProc crypto self).trace) :
    saved = (lnRecvIdleProc crypto self).self := by
  simp only [lnRecvIdleProc] at hsaved ⊢
  split_ifs at hsaved ⊢
  · simp at hsaved
  · simp only [recvIdleProcFinal, List.mem_append, List.mem_flatMap] at hsaved ⊢
    rcases hsaved with (⟨idx, -, hidx⟩ | hdb) | hrevack
    · exact absurd hidx (idleFinalSlot_saves _ saved)
    · split_ifs at hdb <;> simp_all
    · split_ifs at hrevack <;> simp_all
  · simp only [recvIdleProcNonfinal, idleSendComsig] at hsaved ⊢
    have hupdates : Effect.selfSave saved ∉ (List.finRange lnHtlcMax).filterMap fun idx =>
        (idleUpdateMsg (self.cnlAddHtlc idx)).map (Effect.sendReq (some idx)) := by
      simp
    split_ifs at hsaved ⊢
    · simp at hsaved
    · split at hsaved
      · simp_all
      · simp_all
    · exact absurd hsaved hupdates

/-- The events that close the channel, on the request of either side. -/
def ChannelEvent.isClosing : ChannelEvent → Bool
  | .recv _ (.shutdown _) _ => true
  | .recv _ (.closingSigned ..) _ => true
  | .shutdown _ => true
  | _ => false

theorem recvFunc_saved {channelId : Bytes} {env : RecvEnv} {msg : LnMsg} {saved : LnSelf}
    (hclosing : (ChannelEvent.recv channelId msg env).isClosing = false)
    (hsaved : Effect.selfSave saved ∈ (recvFunc crypto self channelId env msg).trace) :
    saved = (recvFunc crypto self channelId env msg).self := by
  cases msg with
  | shutdown scriptpk => cases hclosing
  | closingSigned feeSat signature => cases hclosing
  | _ =>
      simp only [recvFunc, recvUpdateAddHtlc, recvUpdateFulfillHtlc, recvUpdateFailHtlc,
        recvUpdateFailMalformedHtlc, recvCommitmentSigned, recvRevokeAndAck, recvUpdateFee,
        recvFundingLocked, recvChannelReestablish, Outcome.reject] at hsaved ⊢
      repeat' split at hsaved
      all_goals simp_all

theorem lnChannelReestablishAfter_saved {saved : LnSelf}
    (hsaved : Effect.selfSave saved ∈ (lnChannelReestablishAfter crypto self).trace) :
    saved = (lnChannelReestablishAfter crypto self).self := by
  have hresent : ∀ outcome : Outcome,
      outcome = reestResendUpdate self ∨ outcome = ⟨true, self, []⟩ →
      Effect.selfSave saved ∈ outcome.trace → saved = outcome.self := by
    rintro outcome (rfl | rfl) hmem
    · simp only [reestResendUpdate] at hmem ⊢
      split at hmem <;> simp_all
    · simp at hmem
  simp only [lnChannelReestablishAfter] at hsaved ⊢
  split_ifs at hsaved ⊢ <;> simp_all

/-- An event that does not close the channel saves what it leaves. -/
theorem handle_saved {ev : ChannelEvent} {saved : LnSelf} (hclosing : ev.isClosing = false)
    (hsaved : Effect.selfSave saved ∈ (handle crypto self ev).trace) :
    saved = (handle crypto self ev).self := by
  cases ev with
  | recv channelId msg env =>
      rw [handle, lnRecv] at hsaved ⊢
      split at hsaved
      · rename_i hinit
        rw [if_pos hinit]
        exact recvFunc_saved hclosing hsaved
      · cases hsaved
  | idle => exact lnRecvIdleProc_saved hsaved
  | reestablished => exact lnChannelReestablishAfter_saved hsaved
  | shutdown fee => cases hclosing
  | _ => simp_all [handle, lnFulfillHtlcSet]

/-- Whatever an event saves of the channel is what it leaves, up to the closing. -/
theorem handle_saves (crypto : Crypto) (self : LnSelf) (ev : ChannelEvent) :
    SavesResult (handle crypto self ev) := by
  by_cases hclosing : ev.isClosing = true
  · cases ev with
    | recv channelId msg env =>
        rw [handle, lnRecv]
        split
        · cases msg with
          | shutdown scriptpk => exact (recvShutdown_closing crypto self channelId scriptpk).2
          | closingSigned feeSat signature =>
              exact (recvClosingSigned_closing crypto self channelId feeSat signature
                env.broadcast).2
          | _ => cases hclosing
        · exact savesResult_of_saved (by simp [Outcome.reject])
    | shutdown fee => exact savesResult_of_saved (by simp [handle, lnShutdownCreate])
    | _ => cases hclosing
  · exact savesResult_of_saved fun _ => handle_saved (Bool.eq_false_iff.mpr hclosing)

end Ptarmigan
