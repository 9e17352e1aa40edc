/-
What the database knows when a message of the commitment dance has been handed over:
stopping the process at any point and starting it again must neither go back behind a
revoked commitment nor sign a number twice.
-/
import Ptarmigan.Secret

namespace Ptarmigan

open TransitionSystem

variable {crypto : Crypto} {self : LnSelf} {before after : ChannelState} {outcome : Outcome}
  {trace : List Effect}

def LnMsg.isCommitmentSigned : LnMsg → Bool
  | .commitmentSigned .. => true
  | _ => false

/-- The number of `commitment_signed` handed over. -/
def commitsSent (sent : List LnMsg) : Nat :=
  sent.countP LnMsg.isCommitmentSigned

/-- The messages that a step hands over on behalf of its event. -/
def ChannelLabel.handedOver (crypto : Crypto) (self : LnSelf) (label : ChannelLabel) :
    List LnMsg :=
  (label.performed crypto self).filterMap Effect.sent

/-- The slots in the database are those that the event left. -/
def SlotsRecorded (crypto : Crypto) (before after : ChannelState) (ev : ChannelEvent) : Prop :=
  ∀ idx, after.db.chan.cnlAddHtlc idx =
    ((handle crypto before.self ev).self.cnlAddHtlc idx).saveOver (before.db.chan.cnlAddHtlc idx)

/-- The commitment after the revoked one is in the database, with the signature it came
with, and so is the advanced secret index. -/
structure RevocationRecorded (crypto : Crypto) (before after : ChannelState)
    (label : ChannelLabel) : Prop where
  commit : ∃ channelId sig htlcSigs env,
    let ev := ChannelEvent.recv channelId (.commitmentSigned sig htlcSigs) env
    (label = .event ev ∨ ∃ done, label = .stop ev done) ∧
      after.db.chan.commitLocal.signature = sig ∧ SlotsRecorded crypto before after ev
  commitNum : after.db.chan.commitLocal.commitNum = before.self.commitLocal.commitNum + 1
  secret : after.db.secret = (before.self.keysUpdateStorage crypto).privData

/-- The signed remote commitment is in the database. -/
structure SigningRecorded (crypto : Crypto) (before after : ChannelState)
    (label : ChannelLabel) (signature : Bytes) : Prop where
  commit : label = .event .idle ∨ ∃ done, label = .stop .idle done
  signature : after.db.chan.commitRemote.signature = signature
  commitNum : after.db.chan.commitRemote.commitNum = before.self.commitRemote.commitNum + 1
  slots : SlotsRecorded crypto before after .idle

/-- What the database holds after a step covers all that has been handed over: each
`revoke_and_ack` revokes a commitment below the current local one, each
`commitment_signed` signs a remote one that is recorded. -/
structure CrashConsistent (crypto : Crypto) (before : ChannelState) (label : ChannelLabel)
    (after : ChannelState) : Prop where
  revoked : (revealedSecrets after.sent).length ≤ after.db.chan.commitLocal.commitNum.toNat
  secretIndex : Lockstep after.db.secret after.db.chan.commitLocal.commitNum
  signed : commitsSent after.sent ≤ after.db.chan.commitRemote.commitNum.toNat
  resumed : after.running →
    after.self.commitLocal.commitNum = after.db.chan.commitLocal.commitNum ∧
      after.self.commitRemote.commitNum = after.db.chan.commitRemote.commitNum
  revocation : ∀ secret point, .revokeAndAck secret point ∈ label.handedOver crypto before.self →
    RevocationRecorded crypto before after label
  signing : ∀ sig htlcSigs, .commitmentSigned sig htlcSigs ∈ label.handedOver crypto before.self →
    SigningRecorded crypto before after label sig

/-- The steps that leave the database covering what they hand over. -/
def SavesInTime (crypto : Crypto) (before : ChannelState) : ChannelLabel → Prop
  | .event ev => KeepsSecrets crypto before (.event ev) ∧
      (sendsCommit crypto before.self ev → before.self.commitRemote.commitNum + 1 ≠ 0) ∧
      (ev = .reestablished → ¬ takesBackCommit before.self)
  | .stop ev done => KeepsSecrets crypto before (.stop ev done) ∧
      (sendsCommit crypto before.self ev → done ≤ dueUpdates before.self ∨
        dueUpdates before.self + 2 ≤ done ∧ before.self.commitRemote.commitNum + 1 ≠ 0) ∧
      (ev = .reestablished → takesBackCommit before.self → done ≤ 1)
  | .restart _ => True

instance decidableSavesInTime (crypto : Crypto) (before : ChannelState) :
    (label : ChannelLabel) → Decidable (SavesInTime crypto before label)
  | .event _ => inferInstanceAs (Decidable (_ ∧ _ ∧ _))
  | .stop .. => inferInstanceAs (Decidable (_ ∧ _ ∧ _))
  | .restart _ => inferInstanceAs (Decidable True)

theorem SavesInTime.keepsSecrets {label : ChannelLabel} (hsaves : SavesInTime crypto before label) :
    KeepsSecrets crypto before label := by
  cases label with
  | event ev => exact hsaves.1
  | stop ev done => exact hsaves.1
  | restart dataloss => trivial

theorem Db.writes_of_no_save (hkeeps : trace.all Effect.keepsSecret = true)
    (hsave : ∀ saved, Effect.selfSave saved ∉ trace) (db : Db) : db.writes trace = db := by
  induction trace with
  | nil => rfl
  | cons effect rest ih =>
      simp only [List.all_cons, Bool.and_eq_true] at hkeeps
      have hrest := ih hkeeps.2 fun saved hmem => hsave saved (List.mem_cons_of_mem _ hmem)
      have hwrite : db.write effect = db := by
        cases effect with
        | selfSave saved => exact absurd (List.mem_cons_self ..) (hsave saved)
        | secretSave privData => exact absurd hkeeps.1 Bool.false_ne_true
        | _ => rfl
      rw [Db.writes, List.foldl_cons, hwrite]
      exact hrest

/-! ### The invariant -/

/-- Every `commitment_signed` handed over is counted in the database. -/
structure SigningInv (state : ChannelState) : Prop where
  signed : commitsSent state.sent = state.db.chan.commitRemote.commitNum.toNat
  resumed : state.running →
    state.self.commitRemote.commitNum = state.db.chan.commitRemote.commitNum

theorem commitsSent_append (sent msgs : List LnMsg) :
    commitsSent (sent ++ msgs) = commitsSent sent + commitsSent msgs :=
  List.countP_append ..

theorem not_mem_sent_of_keepsCommit (hkeeps : trace.all Effect.keepsCommit = true)
    (sig : Bytes) (htlcSigs : List Bytes) :
    LnMsg.commitmentSigned sig htlcSigs ∉ trace.filterMap Effect.sent := by
  intro hmem
  obtain ⟨effect, heffect, hsent⟩ := List.mem_filterMap.mp hmem
  have hkept := List.all_eq_true.mp hkeeps effect heffect
  cases effect with
  | sendReq idx msg =>
      obtain rfl := Option.some.inj hsent
      exact Bool.false_ne_true hkept
  | _ => cases hsent

theorem commitsSent_of_keepsCommit (hkeeps : trace.all Effect.keepsCommit = true) :
    commitsSent (trace.filterMap Effect.sent) = 0 := by
  refine List.countP_eq_zero.mpr fun msg hmem hsigned => ?_
  cases msg with
  | commitmentSigned sig htlcSigs => exact not_mem_sent_of_keepsCommit hkeeps sig htlcSigs hmem
  | _ => exact Bool.false_ne_true hsigned

theorem not_mem_sent_of_keepsSecret (hkeeps : trace.all Effect.keepsSecret = true)
    (secret point : Bytes) :
    LnMsg.revokeAndAck secret point ∉ trace.filterMap Effect.sent := by
  intro hmem
  obtain ⟨effect, heffect, hsent⟩ := List.mem_filterMap.mp hmem
  have hkept := List.all_eq_true.mp hkeeps effect heffect
  cases effect with
  | sendReq idx msg =>
      obtain rfl := Option.some.inj hsent
      exact Bool.false_ne_true hkept
  | _ => cases hsent

theorem keepsCommit_of_quiet (hquiet : trace.all Effect.quiet = true) :
    trace.all Effect.keepsCommit = true := by
  simp only [List.all_eq_true, Effect.quiet, Bool.and_eq_true] at hquiet ⊢
  exact fun effect hmem => (hquiet effect hmem).2

theorem signingInv_start (hstart : (channelSystem crypto).start before) : SigningInv before := by
  obtain ⟨outcome, hdone, rfl⟩ := hstart
  obtain ⟨_, _, _, ready, rfl, hfresh⟩ := hdone.fresh
  exact ⟨rfl, fun _ => rfl⟩

/-- Effects that hand over no `commitment_signed` and save no other remote number. -/
theorem SigningInv.took_quiet (hinv : SigningInv before)
    (htook : Took before outcome trace after) (hkeeps : trace.all Effect.keepsCommit = true)
    (hsaved : ∀ saved, Effect.selfSave saved ∈ trace →
      saved.commitRemote.commitNum = before.self.commitRemote.commitNum)
    (hnum : trace = outcome.trace →
      outcome.self.commitRemote.commitNum = before.self.commitRemote.commitNum) :
    SigningInv after := by
  have hchan : after.db.chan.commitRemote.commitNum = before.db.chan.commitRemote.commitNum := by
    rw [htook.db, ← hinv.resumed htook.running]
    exact Db.writes_chan (fun _ _ => rfl) (hinv.resumed htook.running).symm hsaved
  refine ⟨?_, fun hrun => ?_⟩
  · rw [htook.sent, commitsSent_append, commitsSent_of_keepsCommit hkeeps, hinv.signed, hchan,
      Nat.add_zero]
  · rcases htook.self with ⟨hafter, hwhole⟩ | ⟨-, hstopped⟩
    · rw [hafter, hnum hwhole, hchan, hinv.resumed htook.running]
    · exact absurd hrun hstopped

theorem toNat_succ_of_ne {num : UInt64} (hroom : num + 1 ≠ 0) :
    (num + 1).toNat = num.toNat + 1 := by
  have hne : (num + 1).toNat ≠ 0 := fun hzero => hroom (UInt64.toNat_inj.mp hzero)
  rw [UInt64.toNat_add, UInt64.toNat_one] at hne ⊢
  have hlt := num.toNat_lt
  omega

/-- All the effects of the idle processing that signs the remote commitment. -/
theorem SigningInv.took_committed {updates : List Effect} {signed : LnSelf} {sig : Bytes}
    {htlcSigs : List Bytes} (hinv : SigningInv before)
    (htook : Took before ⟨true, signed, trace⟩ trace after)
    (htrace : trace = updates ++ [.sendReq none (.commitmentSigned sig htlcSigs), .selfSave signed])
    (hupdates : updates.all Effect.keepsCommit = true)
    (hnum : signed.commitRemote.commitNum = before.self.commitRemote.commitNum + 1)
    (hroom : before.self.commitRemote.commitNum + 1 ≠ 0) : SigningInv after := by
  subst htrace
  have hchan : after.db.chan.commitRemote.commitNum = signed.commitRemote.commitNum := by
    rw [htook.db, Db.writes_append]
    rfl
  have hsucc : signed.commitRemote.commitNum.toNat =
      before.db.chan.commitRemote.commitNum.toNat + 1 := by
    rw [hnum, ← hinv.resumed htook.running]
    exact toNat_succ_of_ne hroom
  refine ⟨?_, fun hrun => ?_⟩
  · rw [htook.sent, List.filterMap_append, commitsSent_append, commitsSent_append,
      commitsSent_of_keepsCommit hupdates, hinv.signed, hchan, hsucc]
    rfl
  · rcases htook.self with ⟨hafter, -⟩ | ⟨-, hstopped⟩
    · rw [hafter, hchan]
    · exact absurd hrun hstopped

/-- What a step whose event has these effects leaves to check. -/
structure StepConsistent (crypto : Crypto) (before : ChannelState) (label : ChannelLabel)
    (trace : List Effect) (after : ChannelState) : Prop where
  inv : SigningInv after
  revocation : ∀ secret point, .revokeAndAck secret point ∈ trace.filterMap Effect.sent →
    RevocationRecorded crypto before after label
  signing : ∀ sig htlcSigs, .commitmentSigned sig htlcSigs ∈ trace.filterMap Effect.sent →
    SigningRecorded crypto before after label sig

theorem StepConsistent.quiet {label : ChannelLabel} (hinv : SigningInv after)
    (hsecret : trace.all Effect.keepsSecret = true)
    (hcommit : trace.all Effect.keepsCommit = true) :
    StepConsistent crypto before label trace after where
  inv := hinv
  revocation secret point hmem := absurd hmem (not_mem_sent_of_keepsSecret hsecret secret point)
  signing sig htlcSigs hmem := absurd hmem (not_mem_sent_of_keepsCommit hcommit sig htlcSigs)

/-- The label says how much of the event took place. -/
def TookPart (label : ChannelLabel) (ev : ChannelEvent) (outcome : Outcome)
    (trace : List Effect) : Prop :=
  label = .event ev ∧ trace = outcome.trace ∨
    ∃ done, label = .stop ev done ∧ trace = outcome.trace.take done

theorem TookPart.all {label : ChannelLabel} {ev : ChannelEvent} {keeps : Effect → Bool}
    (hpart : TookPart label ev outcome trace) (hall : outcome.trace.all keeps = true) :
    trace.all keeps = true := by
  rcases hpart with ⟨-, rfl⟩ | ⟨done, -, rfl⟩
  · exact hall
  · exact all_take done hall

theorem TookPart.label_eq {label : ChannelLabel} {ev : ChannelEvent}
    (hpart : TookPart label ev outcome trace) :
    label = .event ev ∨ ∃ done, label = .stop ev done := by
  rcases hpart with ⟨hlabel, -⟩ | ⟨done, hlabel, -⟩
  · exact .inl hlabel
  · exact .inr ⟨done, hlabel⟩

theorem TookPart.mem {label : ChannelLabel} {ev : ChannelEvent} {effect : Effect}
    (hpart : TookPart label ev outcome trace) (hmem : effect ∈ trace) :
    effect ∈ outcome.trace := by
  rcases hpart with ⟨-, rfl⟩ | ⟨done, -, rfl⟩
  · exact hmem
  · exact List.mem_of_mem_take hmem

theorem stepConsistent_accepted {label : ChannelLabel} {channelId sig point : Bytes}
    {htlcSigs : List Bytes} {env : RecvEnv} {accepted : LnSelf} (hinv : SigningInv before)
    (hsaves : SavesInTime crypto before label)
    (haccepts : acceptsCommit crypto before.self
      (.recv channelId (.commitmentSigned sig htlcSigs) env) = true)
    (houtcome : handle crypto before.self (.recv channelId (.commitmentSigned sig htlcSigs) env) =
      ⟨true, accepted, [.sendReq none (.revokeAndAck
        (before.self.createPrevPercommitsec crypto).1 point), .secretSave accepted.privData,
        .selfSave accepted]⟩)
    (hsig : accepted.commitLocal.signature = sig)
    (hdance : accepted.dance =
      { before.self.dance with
        privData := (before.self.keysUpdateStorage crypto).privData
        localCommitNum := before.self.commitLocal.commitNum + 1
        localRevokeNum := before.self.commitLocal.commitNum })
    (hpart : TookPart label (.recv channelId (.commitmentSigned sig htlcSigs) env)
      (handle crypto before.self (.recv channelId (.commitmentSigned sig htlcSigs) env)) trace)
    (htook : Took before
      (handle crypto before.self (.recv channelId (.commitmentSigned sig htlcSigs) env)) trace
      after) :
    StepConsistent crypto before label trace after := by
  have hremote : accepted.commitRemote.commitNum = before.self.commitRemote.commitNum :=
    congrArg DanceCounters.remoteCommitNum hdance
  have hcommit : trace.all Effect.keepsCommit = true := hpart.all (by rw [houtcome]; rfl)
  have hsigning : SigningInv after := by
    refine hinv.took_quiet htook hcommit (fun saved hmem => ?_) fun _ => by rw [houtcome, hremote]
    have hsaved := hpart.mem hmem
    rw [houtcome] at hsaved
    obtain rfl : saved = accepted := by simpa using hsaved
    exact hremote
  -- the process either stopped before the first effect or came to the end
  have hwhole : trace = [] ∨ trace = (handle crypto before.self
      (.recv channelId (.commitmentSigned sig htlcSigs) env)).trace := by
    rcases hpart with ⟨-, rfl⟩ | ⟨done, rfl, rfl⟩
    · exact .inr rfl
    · rcases Nat.eq_zero_or_pos done with rfl | hpos
      · exact .inl rfl
      · obtain ⟨-, hdone⟩ := (hsaves.1 hpos).1 haccepts
        exact .inr (List.take_of_length_le (by rw [houtcome]; exact hdone))
  rcases hwhole with rfl | rfl
  · exact .quiet hsigning rfl rfl
  · rw [houtcome] at htook
    refine ⟨hsigning, fun _ _ _ => ⟨⟨channelId, sig, htlcSigs, env, hpart.label_eq, ?_,
      fun idx => ?_⟩,
      ?_, ?_⟩, fun sig htlcSigs hmem => absurd hmem (not_mem_sent_of_keepsCommit hcommit _ _)⟩
    · rw [htook.db]
      exact hsig
    · rw [htook.db, houtcome]
      rfl
    · rw [htook.db]
      exact congrArg DanceCounters.localCommitNum hdance
    · rw [htook.db]
      exact congrArg DanceCounters.privData hdance

theorem stepConsistent_committed {label : ChannelLabel} {updates : List Effect} {sig : Bytes}
    {htlcSigs : List Bytes} {signed : LnSelf} (hinv : SigningInv before)
    (hsaves : SavesInTime crypto before label)
    (hsends : sendsCommit crypto before.self .idle = true)
    (houtcome : handle crypto before.self .idle = ⟨true, signed,
      updates ++ [.sendReq none (.commitmentSigned sig htlcSigs), .selfSave signed]⟩)
    (hall : updates.all Effect.quiet = true) (hdue : updates.length = dueUpdates before.self)
    (hsave : ∀ saved, Effect.selfSave saved ∉ updates)
    (hsig : signed.commitRemote.signature = sig)
    (hnum : signed.commitRemote.commitNum = before.self.commitRemote.commitNum + 1)
    (hpart : TookPart label .idle (handle crypto before.self .idle) trace)
    (htook : Took before (handle crypto before.self .idle) trace after) :
    StepConsistent crypto before label trace after := by
  -- the process either stopped before it handed over the commitment or came to the end
  have hwhole : (∃ done, trace = updates.take done) ∨
      trace = (handle crypto before.self .idle).trace ∧
        before.self.commitRemote.commitNum + 1 ≠ 0 := by
    rcases hpart with ⟨rfl, rfl⟩ | ⟨done, rfl, rfl⟩
    · exact .inr ⟨rfl, hsaves.2.1 hsends⟩
    · rcases hsaves.2.1 hsends with hdone | ⟨hdone, hroom⟩
      · refine .inl ⟨done, ?_⟩
        rw [houtcome, List.take_append_of_le_length (hdue ▸ hdone)]
      · refine .inr ⟨List.take_of_length_le ?_, hroom⟩
        rw [houtcome, List.length_append, hdue]
        exact hdone
  rcases hwhole with ⟨done, rfl⟩ | ⟨rfl, hroom⟩
  · have hcommit := all_take done (keepsCommit_of_quiet hall)
    refine .quiet (hinv.took_quiet htook hcommit (fun saved hmem => ?_) fun hwhole => ?_)
      (all_take done (keepsSecret_of_quiet hall)) hcommit
    · exact absurd (List.mem_of_mem_take hmem) (hsave saved)
    · have hlength := congrArg List.length hwhole
      rw [houtcome, List.length_append, List.length_take] at hlength
      simp only [List.length_cons, List.length_nil] at hlength
      omega
  · rw [houtcome] at htook ⊢
    have hsecret : (updates ++ [Effect.sendReq none (.commitmentSigned sig htlcSigs),
        Effect.selfSave signed]).all Effect.keepsSecret = true := by
      rw [List.all_append, keepsSecret_of_quiet hall]
      rfl
    refine ⟨hinv.took_committed htook rfl (keepsCommit_of_quiet hall) hnum hroom,
      fun secret point hmem => absurd hmem (not_mem_sent_of_keepsSecret hsecret secret point),
      fun sig' htlcSigs' hmem => ?_⟩
    have hsame : sig' = sig := by
      rw [List.filterMap_append, List.mem_append] at hmem
      rcases hmem with hmem | hmem
      · exact absurd hmem (not_mem_sent_of_keepsCommit (keepsCommit_of_quiet hall) _ _)
      · simp only [List.filterMap_cons, Effect.sent, List.filterMap_nil,
          List.mem_singleton, LnMsg.commitmentSigned.injEq] at hmem
        exact hmem.1
    have hdb : after.db = before.db.saveSelf signed := by
      rw [htook.db, Db.writes_append, Db.writes_of_no_save (keepsSecret_of_quiet hall) hsave]
      rfl
    refine ⟨hpart.label_eq, ?_, ?_, fun idx => ?_⟩
    · rw [hdb, hsame]
      exact hsig
    · rw [hdb]
      exact hnum
    · rw [hdb, houtcome]
      rfl

theorem stepConsistent_reestablished {label : ChannelLabel} {resend : List Effect} {point : Bytes}
    {resumed : LnSelf} (hinv : SigningInv before) (hsaves : SavesInTime crypto before label)
    (houtcome : handle crypto before.self .reestablished = ⟨true, resumed,
      resend ++ if resendsRevoke before.self then
        [.sendReq none (.revokeAndAck (before.self.createPrevPercommitsec crypto).1 point)]
        else []⟩)
    (hall : resend.all Effect.quiet = true) (hlength : resend.length = resentEffects before.self)
    (hsave : ∀ saved, Effect.selfSave saved ∉ resend.take 1)
    (hsaved : ∀ saved, Effect.selfSave saved ∈ (handle crypto before.self .reestablished).trace →
      saved.commitRemote.commitNum = resumed.commitRemote.commitNum)
    (hnum : ¬ takesBackCommit before.self →
      resumed.commitRemote.commitNum = before.self.commitRemote.commitNum)
    (hpart : TookPart label .reestablished (handle crypto before.self .reestablished) trace)
    (htook : Took before (handle crypto before.self .reestablished) trace after) :
    StepConsistent crypto before label trace after := by
  -- only the first part runs, and of it at most the message when a commitment is taken back
  have hfirst : ∃ done, trace = resend.take done ∧
      (takesBackCommit before.self → done ≤ 1 ∧ trace ≠ (handle crypto before.self
        .reestablished).trace) := by
    rcases hpart with ⟨rfl, rfl⟩ | ⟨done, rfl, rfl⟩
    · refine ⟨resend.length, ?_, fun htake => absurd htake (hsaves.2.2 rfl)⟩
      rw [houtcome, if_neg (hsaves.1.2 rfl), List.append_nil, List.take_length]
    · refine ⟨done, ?_, fun htake => ⟨hsaves.2.2 rfl htake, fun hwhole => ?_⟩⟩
      · rw [houtcome]
        by_cases hresends : resendsRevoke before.self = true
        · have hdone : done ≤ resentEffects before.self := by
            rcases Nat.eq_zero_or_pos done with rfl | hpos
            · exact Nat.zero_le _
            · exact (hsaves.1 hpos).2 rfl hresends
          exact List.take_append_of_le_length (hlength ▸ hdone)
        · rw [if_neg hresends, List.append_nil]
      · have htwo : 2 ≤ (handle crypto before.self .reestablished).trace.length := by
          rw [houtcome, List.length_append, hlength, resentEffects, if_pos htake]
          exact Nat.le_add_right ..
        have hdone := hsaves.2.2 rfl htake
        have hshort := congrArg List.length hwhole
        rw [List.length_take] at hshort
        omega
  obtain ⟨done, rfl, htakes⟩ := hfirst
  have hquiet := all_take done hall
  refine .quiet (hinv.took_quiet htook (keepsCommit_of_quiet hquiet) (fun saved hmem => ?_)
    fun hwhole => ?_) (keepsSecret_of_quiet hquiet) (keepsCommit_of_quiet hquiet)
  · by_cases htake : takesBackCommit before.self = true
    · have hfront : resend.take done = (resend.take 1).take done := by
        rw [List.take_take, min_eq_left (htakes htake).1]
      rw [hfront] at hmem
      exact absurd (List.mem_of_mem_take hmem) (hsave saved)
    · rw [hsaved saved (hpart.mem hmem), hnum htake]
  · by_cases htake : takesBackCommit before.self = true
    · exact absurd hwhole (htakes htake).2
    · rw [houtcome]
      exact hnum htake

theorem stepConsistent {label : ChannelLabel} {ev : ChannelEvent} (hinv : SigningInv before)
    (hsaves : SavesInTime crypto before label)
    (hpart : TookPart label ev (handle crypto before.self ev) trace)
    (htook : Took before (handle crypto before.self ev) trace after) :
    StepConsistent crypto before label trace after := by
  have hsaved : ∀ saved, Effect.selfSave saved ∈ (handle crypto before.self ev).trace →
      saved.commitRemote.commitNum =
        (handle crypto before.self ev).self.commitRemote.commitNum :=
    fun saved hmem => (congrArg DanceCounters.remoteCommitNum
      (handle_saves crypto before.self ev saved hmem).dance).symm
  have hchange := handle_dance crypto before.self ev
  generalize houtcome : handle crypto before.self ev = outcome at hchange
  cases hchange with
  | quiet hdance hall =>
      have hsame := congrArg DanceCounters.remoteCommitNum hdance
      rw [houtcome] at hpart htook hsaved
      have hquiet := hpart.all hall
      exact .quiet (hinv.took_quiet htook (keepsCommit_of_quiet hquiet)
        (fun saved hmem => (hsaved saved (hpart.mem hmem)).trans hsame) fun _ => hsame)
        (keepsSecret_of_quiet hquiet) (keepsCommit_of_quiet hquiet)
  | accepted haccepts hsig hdance =>
      exact stepConsistent_accepted hinv hsaves haccepts houtcome hsig hdance hpart htook
  | committed hsends hall hdue hsave hsig hdance =>
      exact stepConsistent_committed hinv hsaves hsends houtcome hall hdue hsave hsig
        (congrArg DanceCounters.remoteCommitNum hdance) hpart htook
  | reestablished hall hlength hsave hdance =>
      have hremote := congrArg DanceCounters.remoteCommitNum hdance
      refine stepConsistent_reestablished hinv hsaves houtcome hall hlength hsave ?_ ?_ hpart htook
      · intro saved hmem
        rw [hsaved saved hmem, houtcome]
      · exact fun htake => hremote.trans (if_neg htake)

/-- The two invariants together. -/
structure CrashInv (crypto : Crypto) (state : ChannelState) : Prop where
  secrets : SecretsInv crypto state
  signing : SigningInv state

theorem crashInv_step {label : ChannelLabel} (hinv : CrashInv crypto before)
    (hsaves : SavesInTime crypto before label)
    (hnext : channelNext crypto before label = some after) :
    CrashInv crypto after ∧
      (∀ secret point, .revokeAndAck secret point ∈ label.handedOver crypto before.self →
        RevocationRecorded crypto before after label) ∧
      ∀ sig htlcSigs, .commitmentSigned sig htlcSigs ∈ label.handedOver crypto before.self →
        SigningRecorded crypto before after label sig := by
  have hsecrets := secretsInv_step hinv.secrets hsaves.keepsSecrets hnext
  rcases channelNext_took hnext with ⟨ev, rfl, htook⟩ | ⟨ev, done, rfl, htook⟩ | ⟨dataloss, rfl⟩
  · have hstep := stepConsistent hinv.signing hsaves (.inl ⟨rfl, rfl⟩) htook
    exact ⟨⟨hsecrets, hstep.inv⟩, hstep.revocation, hstep.signing⟩
  · have hstep := stepConsistent hinv.signing hsaves (.inr ⟨done, rfl, rfl⟩) htook
    exact ⟨⟨hsecrets, hstep.inv⟩, hstep.revocation, hstep.signing⟩
  · obtain rfl := Option.some.inj hnext
    refine ⟨⟨hsecrets, ?_, fun _ => rfl⟩, fun _ _ hmem => absurd hmem List.not_mem_nil,
      fun _ _ hmem => absurd hmem List.not_mem_nil⟩
    rw [commitsSent_append, hinv.signing.signed]
    rfl

/-- In every run whose steps save in time, every step leaves the database covering all that
has been handed over. -/
theorem crashConsistent_of_savesInTime {label : ChannelLabel}
    (hreach : (channelSystem crypto).ReachableUnder (SavesInTime crypto) before)
    (hsaves : SavesInTime crypto before label)
    (hnext : (channelSystem crypto).next before label = some after) :
    CrashConsistent crypto before label after := by
  have hinv : CrashInv crypto before := hreach.invariant (CrashInv crypto)
    (fun _ hstart => ⟨secretsInv_start hstart, signingInv_start hstart⟩)
    fun _ _ _ hinv hsaves hnext => (crashInv_step hinv hsaves hnext).1
  obtain ⟨⟨hsecrets, hsigning⟩, hrevocation, hcommit⟩ := crashInv_step hinv hsaves hnext
  have hlength := congrArg List.length hsecrets.revealed
  rw [List.length_map, List.length_range] at hlength
  exact ⟨hlength.le, hsecrets.dbLockstep, hsigning.signed.le,
    fun hrun => ⟨hsecrets.newest hrun, hsigning.resumed hrun⟩, hrevocation, hcommit⟩

/-- The peer adds an HTLC and signs it. -/
def signedAddScript : List (ChannelState → ChannelLabel) :=
  [ fun _ => .event (.recv symbolicOutpoint.txid (.updateAddHtlc 0 500000 [9] 100 []) {}),
    symbolicCommit ]

/-- The idle processing then signs it too. -/
theorem crashConsistent_signedAdd :
    ∃ before after : ChannelState,
      (revealedSecrets before.sent).length = 1 ∧
        (ChannelLabel.handedOver .symbolic before.self (.event .idle)).any
          LnMsg.isCommitmentSigned = true ∧
        CrashConsistent .symbolic before (.event .idle) after := by
  have hcheck : symbolicCheck 1000000 500000000
      (fun before label => decide (SavesInTime .symbolic before label)) signedAddScript
      (fun state _ => (revealedSecrets state.sent).length == 1 &&
        (ChannelLabel.handedOver .symbolic state.self (.event .idle)).any
          LnMsg.isCommitmentSigned &&
        decide (SavesInTime .symbolic state (.event .idle)) &&
        (channelNext .symbolic state (.event .idle)).isSome) = true := by
    decide +kernel
  have hsaves : ∀ choose ∈ signedAddScript, ∀ before : ChannelState,
      decide (SavesInTime .symbolic before (choose before)) = true →
      SavesInTime .symbolic before (choose before) :=
    fun _ _ _ hdecide => of_decide_eq_true hdecide
  obtain ⟨_, state, _, _, hhistory, _, hchecked⟩ := history_of_symbolicCheck hsaves hcheck
  simp only [Bool.and_eq_true, beq_iff_eq, decide_eq_true_eq] at hchecked
  obtain ⟨⟨⟨hrevealed, hsigned⟩, hidle⟩, hsome⟩ := hchecked
  obtain ⟨after, hnext⟩ := Option.isSome_iff_exists.mp hsome
  exact ⟨state, after, hrevealed, hsigned,
    crashConsistent_of_savesInTime hhistory.reachableUnder hidle hnext⟩

/-- The process stops right after it has handed over the `revoke_and_ack`. -/
def symbolicStop (state : ChannelState) : ChannelLabel :=
  .stop (.recv symbolicOutpoint.txid (.commitmentSigned
    (symbolicPeerSignature state.self (state.self.commitLocal.commitNum + 1)) []) {}) 1

/-- The first commitment is revoked while the database still holds it as the current one. -/
theorem crashInconsistent_stop :
    ¬ ∀ (crypto : Crypto) (before after : ChannelState) (label : ChannelLabel),
      (channelSystem crypto).Reachable before →
        (channelSystem crypto).next before label = some after →
        CrashConsistent crypto before label after := by
  intro hall
  have hcheck : symbolicCheck 1000000 500000000 permitAll [] (fun state _ =>
      (channelNext .symbolic state (symbolicStop state)).any fun after =>
        (revealedSecrets after.sent).length == 1 &&
          after.db.chan.commitLocal.commitNum == 0) = true := by
    decide +kernel
  obtain ⟨state, past, hhistory, hchecked⟩ := run_of_symbolicCheck hcheck
  obtain ⟨after, hnext, hafter⟩ := (Option.any_eq_true _ _).mp hchecked
  simp only [Bool.and_eq_true, beq_iff_eq] at hafter
  have hrevoked := (hall _ state after (symbolicStop state)
    hhistory.reachableUnder hnext).revoked
  rw [hafter.1, hafter.2] at hrevoked
  exact absurd hrevoked (by decide)

end Ptarmigan
