/-
The per-commitment secrets that a channel reveals in its `revoke_and_ack`s: one for
each commitment before the newest that the peer signed, in order.
-/
import Ptarmigan.Dance

namespace Ptarmigan

open TransitionSystem

variable {crypto : Crypto} {self : LnSelf}

/-- The per-commitment secret of the own commitment with the given number. -/
def percommitSecret (crypto : Crypto) (seed : Bytes) (commitNum : Nat) : Bytes :=
  lnDerkeyCreateSecret crypto seed (lnSecindexInit - commitNum.toUInt64)

/-- The secret that a message reveals. -/
def LnMsg.revealed : LnMsg → Option Bytes
  | .revokeAndAck secret _ => some secret
  | _ => none

def revealedSecrets (sent : List LnMsg) : List Bytes :=
  sent.filterMap LnMsg.revealed

/-- The shachain index is two below that of the commitment number. -/
def Lockstep (privData : LnSelfPriv) (commitNum : UInt64) : Prop :=
  privData.storageIndex.toNat + 2 + commitNum.toNat = lnSecindexInit.toNat

/-- Index and commitment number agree, in memory and on disk, and the secrets revealed
so far are those of the commitments before the newest one the peer has signed. -/
structure SecretsSafe (crypto : Crypto) (state : ChannelState) : Prop where
  selfLockstep : Lockstep state.self.privData state.self.commitLocal.commitNum
  dbLockstep : Lockstep state.db.secret state.db.chan.commitLocal.commitNum
  newest : state.running →
    state.self.commitLocal.commitNum = state.db.chan.commitLocal.commitNum
  revealed : revealedSecrets state.sent =
    (List.range state.db.chan.commitLocal.commitNum.toNat).map
      (percommitSecret crypto state.db.secret.storageSeed)

/-- The steps after which the secrets stay safe. -/
def KeepsSecrets (crypto : Crypto) (before : ChannelState) : ChannelLabel → Prop
  | .event ev =>
      (acceptsCommit crypto before.self ev →
        before.self.commitLocal.commitNum < lnSecindexInit - 2) ∧
      (ev = .reestablished → ¬ resendsRevoke before.self)
  | .stop ev done => 0 < done →
      (acceptsCommit crypto before.self ev →
        before.self.commitLocal.commitNum < lnSecindexInit - 2 ∧ 3 ≤ done) ∧
      (ev = .reestablished → resendsRevoke before.self → done ≤ resentEffects before.self)
  | .restart _ => True

instance decidableKeepsSecrets (crypto : Crypto) (before : ChannelState) :
    (label : ChannelLabel) → Decidable (KeepsSecrets crypto before label)
  | .event _ => inferInstanceAs (Decidable (_ ∧ _))
  | .stop .. => inferInstanceAs (Decidable (_ → _ ∧ _))
  | .restart _ => inferInstanceAs (Decidable True)

/-! ### Effects -/

theorem Db.writes_secret {trace : List Effect} (hkeeps : trace.all Effect.keepsSecret = true) :
    ∀ db : Db, (db.writes trace).secret = db.secret := by
  induction trace with
  | nil => exact fun _ => rfl
  | cons effect rest ih =>
      intro db
      simp only [List.all_cons, Bool.and_eq_true] at hkeeps
      refine (ih hkeeps.2 (db.write effect)).trans ?_
      cases effect with
      | secretSave privData => exact absurd hkeeps.1 (by simp [Effect.keepsSecret])
      | _ => rfl

theorem revealedSecrets_append (sent msgs : List LnMsg) :
    revealedSecrets (sent ++ msgs) = revealedSecrets sent ++ revealedSecrets msgs :=
  List.filterMap_append ..

theorem revealedSecrets_of_keepsSecret {trace : List Effect}
    (hkeeps : trace.all Effect.keepsSecret = true) :
    revealedSecrets (trace.filterMap Effect.sent) = [] := by
  induction trace with
  | nil => rfl
  | cons effect rest ih =>
      simp only [List.all_cons, Bool.and_eq_true] at hkeeps
      have hrest := ih hkeeps.2
      cases effect with
      | sendReq idx msg =>
          cases msg with
          | revokeAndAck secret point => exact absurd hkeeps.1 (by simp [Effect.keepsSecret])
          | _ => exact hrest
      | _ => exact hrest

theorem keepsSecret_of_quiet {trace : List Effect} (hquiet : trace.all Effect.quiet = true) :
    trace.all Effect.keepsSecret = true := by
  simp only [List.all_eq_true, Effect.quiet, Bool.and_eq_true] at hquiet ⊢
  exact fun effect hmem => (hquiet effect hmem).1

/-! ### The invariant -/

/-- The seed never changes. -/
structure SecretsInv (crypto : Crypto) (state : ChannelState) : Prop
    extends SecretsSafe crypto state where
  seed : state.self.privData.storageSeed = state.db.secret.storageSeed

theorem Lockstep.advance (hlock : Lockstep self.privData self.commitLocal.commitNum)
    (hroom : self.commitLocal.commitNum < lnSecindexInit - 2) :
    Lockstep (self.keysUpdateStorage crypto).privData (self.commitLocal.commitNum + 1) := by
  have hinit : lnSecindexInit.toNat = 281474976710655 := rfl
  have hnum : self.commitLocal.commitNum.toNat < 281474976710653 :=
    UInt64.lt_iff_toNat_lt.mp hroom
  simp only [Lockstep, LnSelf.keysUpdateStorage] at hlock ⊢
  have hindex : (self.privData.storageIndex - 1).toNat =
      self.privData.storageIndex.toNat - 1 :=
    UInt64.toNat_sub_of_le _ _ (by rw [UInt64.le_iff_toNat_le, UInt64.toNat_one]; omega)
  rw [hindex, UInt64.toNat_add, UInt64.toNat_one]
  omega

theorem createPrevPercommitsec_fst (hlock : Lockstep self.privData self.commitLocal.commitNum) :
    (self.createPrevPercommitsec crypto).1 =
      percommitSecret crypto self.privData.storageSeed self.commitLocal.commitNum.toNat := by
  have hinit : lnSecindexInit.toNat = 281474976710655 := rfl
  simp only [Lockstep] at hlock
  have hsum : (self.privData.storageIndex + 2).toNat = self.privData.storageIndex.toNat + 2 := by
    rw [UInt64.toNat_add]
    have htwo : (2 : UInt64).toNat = 2 := rfl
    omega
  have hle : self.commitLocal.commitNum ≤ lnSecindexInit := by
    rw [UInt64.le_iff_toNat_le]
    omega
  have hindex : self.privData.storageIndex + 2 = lnSecindexInit - self.commitLocal.commitNum := by
    apply UInt64.toNat_inj.mp
    rw [hsum, UInt64.toNat_sub_of_le _ _ hle]
    omega
  have hbound : self.privData.storageIndex + 2 ≤ lnSecindexInit := by
    rw [UInt64.le_iff_toNat_le]
    omega
  rw [LnSelf.createPrevPercommitsec, if_pos hbound, percommitSecret, hindex, Nat.toUInt64,
    UInt64.ofNat_toNat]

theorem secretsInv_start {state : ChannelState} (hstart : (channelSystem crypto).start state) :
    SecretsInv crypto state := by
  obtain ⟨outcome, hdone, rfl⟩ := hstart
  obtain ⟨_, _, _, ready, rfl, hfresh⟩ := hdone.fresh
  have hlock : Lockstep (startFundingWait crypto ready).self.privData 0 := by
    simp only [Lockstep, startFundingWait, LnSelf.updateScriptkeys, LnSelf.keysUpdateStorage,
      hfresh.storageIndex]
    rfl
  exact ⟨⟨hlock, hlock, fun _ => rfl, rfl⟩, rfl⟩

variable {before after : ChannelState} {outcome : Outcome} {trace : List Effect}

/-- Effects that hand over no secret and save no other commitment number. -/
theorem SecretsInv.took_quiet (hinv : SecretsInv crypto before)
    (htook : Took before outcome trace after) (hkeeps : trace.all Effect.keepsSecret = true)
    (hsaved : ∀ saved, Effect.selfSave saved ∈ trace →
      saved.commitLocal.commitNum = before.self.commitLocal.commitNum)
    (hpriv : outcome.self.privData = before.self.privData)
    (hnum : outcome.self.commitLocal.commitNum = before.self.commitLocal.commitNum) :
    SecretsInv crypto after := by
  have hsecret : after.db.secret = before.db.secret := by
    rw [htook.db]
    exact Db.writes_secret hkeeps before.db
  have hchan : after.db.chan.commitLocal.commitNum = before.db.chan.commitLocal.commitNum := by
    rw [htook.db, ← hinv.newest htook.running]
    exact Db.writes_chan (fun _ _ => rfl) (hinv.newest htook.running).symm hsaved
  have hself : after.self.privData = before.self.privData ∧
      after.self.commitLocal.commitNum = before.self.commitLocal.commitNum := by
    rcases htook.self with ⟨hafter, -⟩ | ⟨hafter, -⟩
    · rw [hafter]
      exact ⟨hpriv, hnum⟩
    · rw [hafter]
      exact ⟨rfl, rfl⟩
  refine ⟨⟨?_, ?_, fun _ => ?_, ?_⟩, ?_⟩
  · rw [hself.1, hself.2]
    exact hinv.selfLockstep
  · rw [hsecret, hchan]
    exact hinv.dbLockstep
  · rw [hself.2, hchan, hinv.newest htook.running]
  · rw [htook.sent, hsecret, hchan, revealedSecrets_append,
      revealedSecrets_of_keepsSecret hkeeps, List.append_nil, hinv.revealed]
  · rw [hsecret, hself.1, hinv.seed]

/-- All the effects of an accepted `commitment_signed`. -/
theorem SecretsInv.took_accepted {accepted : LnSelf} {point : Bytes}
    (hinv : SecretsInv crypto before)
    (htook : Took before ⟨true, accepted, trace⟩ trace after)
    (htrace : trace = [.sendReq none (.revokeAndAck
      (before.self.createPrevPercommitsec crypto).1 point), .secretSave accepted.privData,
      .selfSave accepted])
    (hroom : before.self.commitLocal.commitNum < lnSecindexInit - 2)
    (hpriv : accepted.privData = (before.self.keysUpdateStorage crypto).privData)
    (hnum : accepted.commitLocal.commitNum = before.self.commitLocal.commitNum + 1) :
    SecretsInv crypto after := by
  subst htrace
  have hadvance : Lockstep (before.self.keysUpdateStorage crypto).privData
      (before.self.commitLocal.commitNum + 1) := hinv.selfLockstep.advance hroom
  rw [← hpriv, ← hnum] at hadvance
  have hsecret : after.db.secret = accepted.privData := by
    rw [htook.db]
    rfl
  have hchan : after.db.chan.commitLocal.commitNum = accepted.commitLocal.commitNum := by
    rw [htook.db]
    rfl
  have hseed : accepted.privData.storageSeed = before.db.secret.storageSeed := by
    rw [hpriv, ← hinv.seed]
    rfl
  have hsucc : accepted.commitLocal.commitNum.toNat =
      before.db.chan.commitLocal.commitNum.toNat + 1 := by
    have hbound : before.self.commitLocal.commitNum.toNat < 281474976710653 :=
      UInt64.lt_iff_toNat_lt.mp hroom
    rw [hnum, ← hinv.newest htook.running, UInt64.toNat_add, UInt64.toNat_one]
    omega
  have hrevealed : revealedSecrets after.sent =
      (List.range (before.db.chan.commitLocal.commitNum.toNat + 1)).map
        (percommitSecret crypto before.db.secret.storageSeed) := by
    rw [htook.sent, revealedSecrets_append, hinv.revealed, List.range_succ, List.map_append,
      createPrevPercommitsec_fst hinv.selfLockstep, hinv.seed, hinv.newest htook.running]
    rfl
  have hself : Lockstep after.self.privData after.self.commitLocal.commitNum ∧
      (after.running → after.self.commitLocal.commitNum = accepted.commitLocal.commitNum) ∧
      after.self.privData.storageSeed = before.db.secret.storageSeed := by
    rcases htook.self with ⟨hafter, -⟩ | ⟨hafter, hstopped⟩
    · rw [hafter]
      exact ⟨hadvance, fun _ => rfl, hseed⟩
    · rw [hafter]
      exact ⟨hinv.selfLockstep, fun hrun => absurd hrun hstopped, hinv.seed⟩
  refine ⟨⟨hself.1, ?_, fun hrun => ?_, ?_⟩, ?_⟩
  · rw [hsecret, hchan]
    exact hadvance
  · rw [hself.2.1 hrun, hchan]
  · rw [hrevealed, hchan, hsecret, hseed, hsucc]
  · rw [hself.2.2, hsecret, hseed]

theorem saved_commitNum {ev : ChannelEvent} {saved : LnSelf}
    (hsaved : Effect.selfSave saved ∈ (handle crypto self ev).trace) :
    saved.commitLocal.commitNum = (handle crypto self ev).self.commitLocal.commitNum :=
  (congrArg DanceCounters.localCommitNum (handle_saves crypto self ev saved hsaved).dance).symm

/-- What matters of an event that may have been stopped is only what took place. -/
theorem SecretsInv.took {ev : ChannelEvent} (hinv : SecretsInv crypto before)
    (htook : Took before (handle crypto before.self ev) trace after)
    (hpart : trace = (handle crypto before.self ev).trace ∧
        KeepsSecrets crypto before (.event ev) ∨
      ∃ done, trace = (handle crypto before.self ev).trace.take done ∧
        KeepsSecrets crypto before (.stop ev done)) :
    SecretsInv crypto after := by
  have hsaved : ∀ saved, Effect.selfSave saved ∈ trace →
      saved.commitLocal.commitNum =
        (handle crypto before.self ev).self.commitLocal.commitNum := by
    intro saved hmem
    rcases hpart with ⟨rfl, -⟩ | ⟨done, rfl, -⟩
    · exact saved_commitNum hmem
    · exact saved_commitNum (List.mem_of_mem_take hmem)
  have hquiet (hkeeps : trace.all Effect.keepsSecret = true)
      (hdance : (handle crypto before.self ev).self.privData = before.self.privData ∧
        (handle crypto before.self ev).self.commitLocal.commitNum =
          before.self.commitLocal.commitNum) : SecretsInv crypto after :=
    hinv.took_quiet htook hkeeps (fun saved hmem => (hsaved saved hmem).trans hdance.2)
      hdance.1 hdance.2
  have hdances {dance : DanceCounters}
      (hdance : (handle crypto before.self ev).self.dance = dance)
      (hsame : dance.privData = before.self.privData ∧
        dance.localCommitNum = before.self.commitLocal.commitNum) :
      (handle crypto before.self ev).self.privData = before.self.privData ∧
        (handle crypto before.self ev).self.commitLocal.commitNum =
          before.self.commitLocal.commitNum :=
    ⟨(congrArg DanceCounters.privData hdance).trans hsame.1,
      (congrArg DanceCounters.localCommitNum hdance).trans hsame.2⟩
  have hchange := handle_dance crypto before.self ev
  generalize handle crypto before.self ev = outcome at *
  cases hchange with
  | quiet hdance hall =>
      refine hquiet ?_ (hdances hdance ⟨rfl, rfl⟩)
      rcases hpart with ⟨rfl, -⟩ | ⟨done, rfl, -⟩
      · exact keepsSecret_of_quiet hall
      · exact all_take done (keepsSecret_of_quiet hall)
  | accepted haccepts _ hdance =>
      rename_i accepted
      have hpriv := congrArg DanceCounters.privData hdance
      have hnum := congrArg DanceCounters.localCommitNum hdance
      rcases hpart with ⟨rfl, hkeeps⟩ | ⟨done, rfl, hkeeps⟩
      · exact hinv.took_accepted htook rfl (hkeeps.1 haccepts) hpriv hnum
      · rcases Nat.eq_zero_or_pos done with rfl | hpos
        · have hself : after.self = before.self ∧ ¬ after.running := by
            rcases htook.self with ⟨-, htrace⟩ | hstopped
            · simp at htrace
            · exact hstopped
          have hreject : Took before (.reject before.self) [] after :=
            ⟨htook.running, htook.db, htook.sent, .inr hself⟩
          exact hinv.took_quiet hreject rfl (by simp) rfl rfl
        · obtain ⟨hroom, hdone⟩ := (hkeeps hpos).1 haccepts
          rw [List.take_of_length_le hdone] at htook
          exact hinv.took_accepted htook rfl hroom hpriv hnum
  | committed hsends hall hdue hsave hsig hdance =>
      refine hquiet ?_ (hdances hdance ⟨rfl, rfl⟩)
      have hwhole := keepsSecret_of_quiet hall
      rcases hpart with ⟨rfl, -⟩ | ⟨done, rfl, -⟩
      · rw [List.all_append, hwhole]
        rfl
      · refine all_take done ?_
        rw [List.all_append, hwhole]
        rfl
  | reestablished hall hlength hsave hdance =>
      refine hquiet ?_ (hdances hdance ⟨rfl, rfl⟩)
      have hresend := keepsSecret_of_quiet hall
      rcases hpart with ⟨rfl, hkeeps⟩ | ⟨done, rfl, hkeeps⟩
      · rw [if_neg (hkeeps.2 rfl), List.append_nil]
        exact hresend
      · by_cases hresends : resendsRevoke before.self = true
        · have hdone : done ≤ resentEffects before.self := by
            rcases Nat.eq_zero_or_pos done with rfl | hpos
            · exact Nat.zero_le _
            · exact (hkeeps hpos).2 rfl hresends
          rw [List.take_append_of_le_length (hlength ▸ hdone)]
          exact all_take done hresend
        · rw [if_neg hresends, List.append_nil]
          exact all_take done hresend

theorem secretsInv_step {label : ChannelLabel} (hinv : SecretsInv crypto before)
    (hkeeps : KeepsSecrets crypto before label)
    (hnext : channelNext crypto before label = some after) : SecretsInv crypto after := by
  rcases channelNext_took hnext with ⟨ev, rfl, htook⟩ | ⟨ev, done, rfl, htook⟩ | ⟨dataloss, rfl⟩
  · exact hinv.took htook (.inl ⟨rfl, hkeeps⟩)
  · exact hinv.took htook (.inr ⟨done, rfl, hkeeps⟩)
  · obtain rfl := Option.some.inj hnext
    refine ⟨⟨hinv.dbLockstep, hinv.dbLockstep, fun _ => rfl, ?_⟩, rfl⟩
    rw [revealedSecrets_append, hinv.revealed]
    exact List.append_nil _

/-- In every run whose steps keep the secrets safe, they are safe in every state. -/
theorem secretsSafe_of_keepsSecrets {state : ChannelState}
    (hreach : (channelSystem crypto).ReachableUnder (KeepsSecrets crypto) state) :
    SecretsSafe crypto state :=
  (hreach.invariant (SecretsInv crypto) (fun _ hstart => secretsInv_start hstart)
    fun _ _ _ hinv hkeeps hnext => secretsInv_step hinv hkeeps hnext).toSecretsSafe

/-- The peer signs the next commitment. -/
def symbolicCommit (state : ChannelState) : ChannelLabel :=
  .event (.recv symbolicOutpoint.txid (.commitmentSigned
    (symbolicPeerSignature state.self (state.self.commitLocal.commitNum + 1)) []) {})

/-- Two commitments with a reconnection between them, after which the peer tells that it
has the first `revoke_and_ack`. -/
def twoCommitsScript : List (ChannelState → ChannelLabel) :=
  let cid := symbolicOutpoint.txid
  [ symbolicCommit,
    fun _ => .restart false,
    fun _ => .event (.recv cid (.channelReestablish ⟨1, 1, none⟩) {}),
    fun _ => .event .reestablished,
    symbolicCommit ]

theorem secretsSafe_twoCommits :
    ∃ state : ChannelState, (revealedSecrets state.sent).length = 2 ∧
      SecretsSafe .symbolic state := by
  have hcheck : symbolicCheck 1000000 500000000
      (fun before label => decide (KeepsSecrets .symbolic before label)) twoCommitsScript
      (fun state _ => (revealedSecrets state.sent).length == 2) = true := by
    decide +kernel
  have hkeeps : ∀ choose ∈ twoCommitsScript, ∀ before : ChannelState,
      decide (KeepsSecrets .symbolic before (choose before)) = true →
      KeepsSecrets .symbolic before (choose before) :=
    fun _ _ _ hdecide => of_decide_eq_true hdecide
  obtain ⟨_, state, _, _, hhistory, _, hlength⟩ := history_of_symbolicCheck hkeeps hcheck
  exact ⟨state, beq_iff_eq.mp hlength, secretsSafe_of_keepsSecrets hhistory.reachableUnder⟩

/-- After a reconnection the peer tells that it does not have the first
`revoke_and_ack`. -/
def resendScript : List (ChannelState → ChannelLabel) :=
  let cid := symbolicOutpoint.txid
  [ symbolicCommit,
    fun _ => .restart false,
    fun _ => .event (.recv cid (.channelReestablish ⟨1, 0, none⟩) {}),
    fun _ => .event .reestablished ]

/-- The `revoke_and_ack` sent again does not repeat the secret of the first one: it
reveals the secret of the commitment that is the newest. -/
theorem secretsUnsafe_resend :
    ¬ ∀ (crypto : Crypto) (state : ChannelState), (channelSystem crypto).Reachable state →
      SecretsSafe crypto state := by
  intro hall
  have hcheck : symbolicCheck 1000000 500000000 permitAll resendScript
      (fun state _ =>
        let secret := percommitSecret .symbolic state.db.secret.storageSeed
        revealedSecrets state.sent == [secret 0, secret 1] &&
          state.db.chan.commitLocal.commitNum == 1) = true := by
    decide +kernel
  obtain ⟨state, past, hhistory, hchecked⟩ := run_of_symbolicCheck hcheck
  obtain ⟨hrevealed, hone⟩ := Bool.and_eq_true_iff.mp hchecked
  have hlength := congrArg List.length (hall _ state hhistory.reachableUnder).revealed
  rw [beq_iff_eq.mp hrevealed, beq_iff_eq.mp hone, List.length_map, List.length_range] at hlength
  exact absurd (show 2 = 1 from hlength) (by decide)

end Ptarmigan
