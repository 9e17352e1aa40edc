/-
The funding output of a channel over its runs: its script, the own key in it and the private key of
that never change.
-/
import Ptarmigan.ClosingTx
import Ptarmigan.Dance

namespace Ptarmigan

open TransitionSystem

variable {crypto : Crypto} {self : LnSelf}

/-- The funding output is the 2-of-2, and the own key in it belongs to the private key. -/
structure HoldsFunding (crypto : Crypto) (key : Bytes) (chan : LnSelf) : Prop where
  script : crypto.sha256 chan.redeemFund.script = chan.txFundingScript
  own : chan.ownFundingKey = crypto.pub key

/-- What the 2-of-2 is made of is the same. -/
def SameFunding (before after : LnSelf) : Prop :=
  after.redeemFund = before.redeemFund ∧ after.keyFundSortAsc = before.keyFundSortAsc ∧
    after.txFundingScript = before.txFundingScript

theorem HoldsFunding.congr {key : Bytes} {before after : LnSelf}
    (hholds : HoldsFunding crypto key before) (hsame : SameFunding before after) :
    HoldsFunding crypto key after := by
  obtain ⟨hredeem, hsort, hscript⟩ := hsame
  constructor
  · rw [hredeem, hscript]
    exact hholds.script
  · rw [LnSelf.ownFundingKey, hredeem, hsort]
    exact hholds.own

theorem create2of2_ownFundingKey (self : LnSelf) :
    self.create2of2.ownFundingKey = self.fundingLocal.pubkeys.funding := by
  rw [LnSelf.create2of2]
  split <;> rfl

/-! ### The funding exchange -/

theorem holdsFunding_verify {key signature : Bytes} {verified : LnSelf}
    (hholds : HoldsFunding crypto key self)
    (hverified : verifyInitialLocal crypto self signature = some verified) :
    HoldsFunding crypto key verified ∧ verified.privData = self.privData := by
  obtain ⟨slots, commitLocal, rfl, -⟩ := verifyInitialLocal_changes hverified
  exact ⟨hholds.congr ⟨rfl, rfl, rfl⟩, rfl⟩

theorem holdsFunding_sign {key : Bytes} {signed : LnSelf} (hholds : HoldsFunding crypto key self)
    (hsigned : signInitialRemote crypto self = some signed) :
    HoldsFunding crypto key signed ∧ signed.privData = self.privData := by
  obtain ⟨commitRemote, rfl⟩ := signInitialRemote_changes hsigned
  exact ⟨hholds.congr ⟨rfl, rfl, rfl⟩, rfl⟩

theorem holdsFunding_fundee {seed scriptpk : Bytes} {dataloss : Bool} {openCh : LnOpenChannel}
    {estprm : LnEstablishPrm} {priv : Fundkeys} {outpoint : FundingOutpoint} {signature : Bytes}
    {outcome : Outcome}
    (hopened : openedAsFundee crypto (lnInit seed scriptpk dataloss) openCh estprm priv outpoint
      signature = some outcome) :
    ∃ ready, outcome = startFundingWait crypto ready ∧
      HoldsFunding crypto ready.privData.priv.funding ready := by
  obtain ⟨offered, hoffered, hcreated⟩ := Option.bind_eq_some_iff.mp hopened
  simp only [recvFundingCreated] at hcreated
  split at hcreated
  · cases hcreated
  · obtain ⟨verified, hverified, hfunded⟩ := Option.bind_eq_some_iff.mp hcreated
    obtain ⟨signed, hsigned, rfl⟩ := Option.map_eq_some_iff.mp hfunded
    have hoffer : offered.ownFundingKey = crypto.pub offered.privData.priv.funding := by
      simp only [recvOpenChannel] at hoffered
      split_ifs at hoffered
      obtain rfl := Option.some.inj hoffered
      rw [create2of2_ownFundingKey, LnSelf.create2of2]
      split <;> rfl
    have hset : HoldsFunding crypto offered.privData.priv.funding
        (offered.setFunding crypto outpoint) := ⟨rfl, hoffer⟩
    obtain ⟨hholds, hpriv⟩ := holdsFunding_verify hset hverified
    obtain ⟨hholds', hpriv'⟩ := holdsFunding_sign hholds hsigned
    have hready : HoldsFunding crypto signed.privData.priv.funding signed := by
      rw [hpriv', hpriv]
      exact hholds'
    exact ⟨_, rfl, hready.congr ⟨rfl, rfl, rfl⟩⟩

theorem holdsFunding_funder {seed scriptpk : Bytes} {dataloss : Bool} {estprm : LnEstablishPrm}
    {fundingSat pushSat : UInt64} {feeRate : UInt32} {channelId : Bytes} {priv : Fundkeys}
    {acceptCh : LnAcceptChannel} {outpoint : FundingOutpoint} {signature : Bytes}
    {outcome : Outcome}
    (hopened : openedAsFunder crypto (lnInit seed scriptpk dataloss) estprm fundingSat pushSat
      feeRate channelId priv acceptCh outpoint signature = some outcome) :
    ∃ ready, outcome = startFundingWait crypto ready ∧
      HoldsFunding crypto ready.privData.priv.funding ready := by
  obtain ⟨created, hcreated, haccepted⟩ := Option.bind_eq_some_iff.mp hopened
  obtain ⟨accepted, haccept, hsigned⟩ := Option.bind_eq_some_iff.mp haccepted
  simp only [recvAcceptChannel] at haccept
  split at haccept
  · cases haccept
  · simp only [recvFundingSigned] at hsigned
    split at hsigned
    · cases hsigned
    · obtain ⟨verified, hverified, rfl⟩ := Option.map_eq_some_iff.mp hsigned
      have hcreate : created.fundingLocal.pubkeys.funding =
          crypto.pub created.privData.priv.funding := by
        simp only [lnOpenChannelCreate] at hcreated
        split at hcreated
        · cases hcreated
        · obtain rfl := Option.some.inj hcreated
          rfl
      have hset : ∀ (chan : LnSelf) (obscured : UInt64),
          chan.fundingLocal.pubkeys.funding = crypto.pub created.privData.priv.funding →
          HoldsFunding crypto created.privData.priv.funding
            { chan.create2of2.setFunding crypto outpoint with obscured } := by
        intro chan obscured hkey
        refine ⟨rfl, ?_⟩
        rw [← hkey, ← create2of2_ownFundingKey]
        rfl
      obtain ⟨hholds, hpriv⟩ := @holdsFunding_sign crypto _ created.privData.priv.funding _
        (by apply hset; exact hcreate) haccept
      have hpriv' : accepted.privData = created.privData := by
        rw [hpriv, LnSelf.setFunding, LnSelf.create2of2]
        split <;> rfl
      have hchannel : ∀ channelId,
          HoldsFunding crypto created.privData.priv.funding { accepted with channelId } := by
        intro channelId
        exact hholds.congr ⟨rfl, rfl, rfl⟩
      obtain ⟨hholds', hpriv''⟩ := holdsFunding_verify (hchannel _) hverified
      refine ⟨verified, rfl, ?_⟩
      rw [hpriv'']
      change HoldsFunding crypto accepted.privData.priv.funding verified
      rw [hpriv']
      exact hholds'

/-! ### The events -/

theorem OperationChange.sameFunding {before after : LnSelf}
    (hchange : OperationChange before after) :
    SameFunding before after := by
  obtain ⟨_, _, _, _, _, _, _, _, _, _, _, _, _, rfl⟩ := hchange
  exact ⟨rfl, rfl, rfl⟩

theorem ClosingChange.sameFunding {before after : LnSelf} (hchange : ClosingChange before after) :
    SameFunding before after := by
  obtain ⟨_, _, _, _, _, _, _, rfl⟩ := hchange
  exact ⟨rfl, rfl, rfl⟩

theorem handle_sameFunding (crypto : Crypto) (self : LnSelf) (ev : ChannelEvent) :
    SameFunding self (handle crypto self ev).self := by
  cases hclosing : ev.isClosing with
  | true => exact (handle_closing hclosing).sameFunding
  | false =>
      cases hfee : ev.feerate with
      | none => exact (handle_operation hclosing hfee).sameFunding
      | some feeratePerKw =>
          cases ev with
          | recv channelId msg env =>
              cases msg with
              | updateFee rate =>
                  simp only [handle, lnRecv, recvFunc, recvUpdateFee]
                  repeat' split
                  all_goals exact ⟨rfl, rfl, rfl⟩
              | _ => cases hfee
          | _ => cases hfee

/-- The private funding key is the same. -/
theorem handle_fundingKey (crypto : Crypto) (self : LnSelf) (ev : ChannelEvent) :
    (handle crypto self ev).self.privData.priv.funding = self.privData.priv.funding ∧
      ∀ saved, Effect.secretSave saved ∈ (handle crypto self ev).trace →
        saved.priv.funding = self.privData.priv.funding := by
  have hquietly : ∀ {trace : List Effect} {saved : LnSelfPriv}, trace.all Effect.quiet = true →
      Effect.secretSave saved ∉ trace := by
    intro trace saved hquiet hmem
    have hnot := List.all_eq_true.mp hquiet _ hmem
    cases hnot
  have hchange := handle_dance crypto self ev
  generalize handle crypto self ev = outcome at hchange
  cases hchange with
  | quiet hdance hquiet =>
      have hpriv := congrArg DanceCounters.privData hdance
      exact ⟨congrArg (fun privData => privData.priv.funding) hpriv,
        fun saved hmem => absurd hmem (hquietly hquiet)⟩
  | accepted haccepts hsig hdance =>
      have hpriv := congrArg DanceCounters.privData hdance
      have hkey := congrArg (fun privData => privData.priv.funding) hpriv
      refine ⟨hkey, fun saved hmem => ?_⟩
      simp only [List.mem_cons, reduceCtorEq, Effect.secretSave.injEq, List.not_mem_nil, or_false,
        false_or] at hmem
      rw [hmem]
      exact hkey
  | committed hsends hquiet hdue hsave hsig hdance =>
      have hpriv := congrArg DanceCounters.privData hdance
      refine ⟨congrArg (fun privData => privData.priv.funding) hpriv, fun saved hmem => ?_⟩
      rcases List.mem_append.mp hmem with hmem | hmem
      · exact absurd hmem (hquietly hquiet)
      · simp at hmem
  | reestablished hquiet hlength hsave hdance =>
      have hpriv := congrArg DanceCounters.privData hdance
      refine ⟨congrArg (fun privData => privData.priv.funding) hpriv, fun saved hmem => ?_⟩
      rcases List.mem_append.mp hmem with hmem | hmem
      · exact absurd hmem (hquietly hquiet)
      · split at hmem
        · simp at hmem
        · cases hmem

/-! ### The runs -/

/-- The channel and its database hold the funding with the same key. -/
structure FundingKept (crypto : Crypto) (key : Bytes) (state : ChannelState) : Prop where
  chan : HoldsFunding crypto key state.self
  db : HoldsFunding crypto key state.db.chan
  priv : state.self.privData.priv.funding = key
  secret : state.db.secret.priv.funding = key

theorem fundingKept_start {state : ChannelState} (hstart : (channelSystem crypto).start state) :
    ∃ key, FundingKept crypto key state := by
  obtain ⟨outcome, hdone, rfl⟩ := hstart
  have hready : ∃ ready, outcome = startFundingWait crypto ready ∧
      HoldsFunding crypto ready.privData.priv.funding ready := by
    cases hdone with
    | fundee hopened => exact holdsFunding_fundee hopened
    | funder hopened => exact holdsFunding_funder hopened
  obtain ⟨ready, rfl, hholds⟩ := hready
  exact ⟨ready.privData.priv.funding, hholds.congr ⟨rfl, rfl, rfl⟩, hholds.congr ⟨rfl, rfl, rfl⟩,
    rfl, rfl⟩

theorem Db.writes_fundingKey {key : Bytes} {trace : List Effect}
    (hsaved : ∀ saved, Effect.secretSave saved ∈ trace → saved.priv.funding = key) :
    ∀ {db : Db}, db.secret.priv.funding = key → (db.writes trace).secret.priv.funding = key := by
  induction trace with
  | nil =>
      intro db hdb
      exact hdb
  | cons effect rest ih =>
      intro db hdb
      apply ih
      · intro saved hmem
        exact hsaved saved (List.mem_cons_of_mem _ hmem)
      · cases effect with
        | secretSave privData => exact hsaved privData List.mem_cons_self
        | _ => exact hdb

theorem FundingKept.took {key : Bytes} {before after : ChannelState} {ev : ChannelEvent}
    {trace : List Effect} (hkept : FundingKept crypto key before)
    (htook : Took before (handle crypto before.self ev) trace after)
    (hpart : ∀ effect ∈ trace, effect ∈ (handle crypto before.self ev).trace) :
    FundingKept crypto key after := by
  have hself : HoldsFunding crypto key (handle crypto before.self ev).self :=
    hkept.chan.congr (handle_sameFunding crypto before.self ev)
  obtain ⟨hkey, hsecret⟩ := handle_fundingKey crypto before.self ev
  have hchan : HoldsFunding crypto key after.db.chan := by
    rw [htook.db]
    apply Db.writes_holds (HoldsFunding crypto key) _ hkept.db
    · intro saved hmem
      have hsaves := handle_saves crypto before.self ev saved (hpart _ hmem)
      obtain ⟨hredeem, hsort, hscript⟩ := hsaves.sameFunding
      exact hself.congr ⟨hredeem.symm, hsort.symm, hscript.symm⟩
    · intro db saved hsaved
      exact hsaved.congr ⟨rfl, rfl, rfl⟩
  have hdb : after.db.secret.priv.funding = key := by
    rw [htook.db]
    apply Db.writes_fundingKey _ hkept.secret
    intro saved hmem
    rw [hsecret saved (hpart _ hmem), hkept.priv]
  rcases htook.self with ⟨hafter, -⟩ | ⟨hafter, -⟩
  · refine ⟨?_, hchan, ?_, hdb⟩
    · rw [hafter]
      exact hself
    · rw [hafter, hkey, hkept.priv]
  · refine ⟨?_, hchan, ?_, hdb⟩
    · rw [hafter]
      exact hkept.chan
    · rw [hafter, hkept.priv]

theorem FundingKept.step {key : Bytes} {before after : ChannelState} {label : ChannelLabel}
    (hkept : FundingKept crypto key before)
    (hnext : channelNext crypto before label = some after) : FundingKept crypto key after := by
  rcases channelNext_took hnext with ⟨ev, rfl, htook⟩ | ⟨ev, done, rfl, htook⟩ | ⟨dataloss, rfl⟩
  · exact hkept.took htook fun _ hmem => hmem
  · exact hkept.took htook fun _ hmem => List.mem_of_mem_take hmem
  · obtain rfl := Option.some.inj hnext
    exact ⟨hkept.db.congr ⟨rfl, rfl, rfl⟩, hkept.db, hkept.secret, hkept.secret⟩

/-- In every state that a run reaches, the funding output is the 2-of-2 with the own key. -/
theorem holdsFunding_of_reachable {state : ChannelState}
    (hreach : (channelSystem crypto).Reachable state) :
    HoldsFunding crypto state.self.privData.priv.funding state.self := by
  have hkept : ∃ key, FundingKept crypto key state := by
    apply hreach.invariant (fun state => ∃ key, FundingKept crypto key state)
    · intro state hstart
      exact fundingKept_start hstart
    · rintro before label after ⟨key, hkept⟩ - hnext
      exact ⟨key, hkept.step hnext⟩
  obtain ⟨key, hkept⟩ := hkept
  rw [hkept.priv]
  exact hkept.chan

/-- The own signature over the funding output verifies under the own key in it. -/
theorem HoldsFunding.sign_verifies (hsound : crypto.Sound) {self : LnSelf}
    (hholds : HoldsFunding crypto self.privData.priv.funding self)
    (hkey : (crypto.priv2pub self.privData.priv.funding).isSome = true) (hash : Bytes) :
    crypto.verify (crypto.sign self.privData.priv.funding hash) hash self.ownFundingKey = true := by
  obtain ⟨pub, hpub⟩ := Option.isSome_iff_exists.mp hkey
  apply hsound
  rw [hholds.own, Crypto.pub, hpub]
  rfl

end Ptarmigan
