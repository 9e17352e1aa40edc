/-
Feerate changes (`update_fee`) of a peer that signs and acknowledges along with this node:
which feerate each commitment transaction is built with on either side.
-/
import Ptarmigan.Dance
import Ptarmigan.Library.StagedValue

namespace Ptarmigan

open TransitionSystem StagedValue

variable {crypto : Crypto} {self : LnSelf}

/-! ### The channel and its peer -/

/-- A channel with the feerates that its peer goes by, who follows the protocol, and what
is in flight between them.  The last two fields belong to what was last saved. -/
structure FeeWorld where
  chan : ChannelState
  fee : State UInt32
  savedCommitted : UInt32
  savedPending : Bool

/-- The peer sends `update_fee` or `commitment_signed`, or takes the oldest message; the
channel handles an event, rebuilds its commitment transaction for a unilateral close, or
connects again. -/
inductive FeeLabel
  | peerProposes (feeratePerKw : UInt32)
  | peerSigns
  | peerTakes
  | node (ev : ChannelEvent)
  | rebuild (searchPreimage : Bytes → Option Bytes)
  | reconnect (dataloss : Bool)

/-- The messages that carry or use a feerate arrive in the order they were sent. -/
def FeeWorld.arrives (world : FeeWorld) : ChannelEvent → Bool
  | .recv _ (.updateFee feeratePerKw) _ =>
      world.fee.toAcceptor.head? == some (.propose feeratePerKw)
  | .recv _ (.commitmentSigned ..) _ =>
      match world.fee.toAcceptor.head? with
      | some (.sign _) => true
      | _ => false
  | _ => true

/-- The `update_fee` is accepted. -/
def acceptsFee (self : LnSelf) : ChannelEvent → Bool
  | .recv channelId (.updateFee _) _ => self.initFlag.exchanged && channelId == self.channelId
  | _ => false

/-- The effect hands over a `commitment_signed`. -/
def Effect.signs : Effect → Bool
  | .sendReq _ (.commitmentSigned ..) => true
  | _ => false

/-- What an event means for the feerates: a message is taken, and each
`commitment_signed` sent was made with the feerate the channel then has. -/
def FeeWorld.feeAfter (crypto : Crypto) (world : FeeWorld) (ev : ChannelEvent) : State UInt32 :=
  let outcome := handle crypto world.chan.self ev
  let fee :=
    if acceptsFee world.chan.self ev || acceptsCommit crypto world.chan.self ev then
      world.fee.acceptorTakes
    else world.fee
  if outcome.trace.any Effect.signs then fee.acceptorSigns outcome.self.feeratePerKw else fee

/-- The effect saves the channel. -/
def Effect.saves : Effect → Bool
  | .selfSave _ => true
  | _ => false

/-- A reconnection tells the peer which commitment was saved.  What was in flight is lost,
and a feerate proposed after that commitment is forgotten. -/
def feeNext (crypto : Crypto) (world : FeeWorld) : FeeLabel → Option FeeWorld
  | .peerProposes feeratePerKw => some { world with fee := world.fee.propose feeratePerKw }
  | .peerSigns => some { world with fee := world.fee.proposerSigns }
  | .peerTakes => some { world with fee := world.fee.proposerTakes }
  | .node ev =>
      if world.arrives ev then
        (channelNext crypto world.chan (.event ev)).map fun chan =>
          let fee := world.feeAfter crypto ev
          if (handle crypto world.chan.self ev).trace.any Effect.saves then
            ⟨chan, fee, fee.committed, fee.pending⟩
          else { world with chan, fee }
      else none
  | .rebuild searchPreimage =>
      some { world with
        chan := { world.chan with
          self := (lnCloseCreateUnilateralTx crypto searchPreimage world.chan.self).2 } }
  | .reconnect dataloss =>
      (channelNext crypto world.chan (.restart dataloss)).map fun chan =>
        { world with chan, fee := .init world.savedCommitted }

/-- The runs of a channel and its peer from the end of the funding exchange on. -/
def feeSystem (crypto : Crypto) : System FeeWorld FeeLabel where
  start world :=
    (channelSystem crypto).start world.chan ∧
      world.fee = .init world.chan.self.feeratePerKw ∧
      world.savedCommitted = world.chan.self.feeratePerKw ∧ world.savedPending = false
  next := feeNext crypto

/-! ### The law and its condition -/

/-- The channel with another feerate. -/
def LnSelf.withFeerate (self : LnSelf) (feeratePerKw : UInt32) : LnSelf :=
  { self with feeratePerKw }

/-- The state from which the idle processing makes `commitment_signed`. -/
def signingState (self : LnSelf) : LnSelf :=
  self.mapSlots idleUpdateSlot

/-- What a step does is right as to the feerate.  `update_fee` is accepted from the funder
alone.  The local transaction is verified with the feerate that the peer signed with, the
remote one is made with the feerate last acknowledged and taken by the peer with its own,
and what is rebuilt is the transaction that was last verified. -/
def FeerateRight (crypto : Crypto) (world : FeeWorld) : FeeLabel → Prop
  | .node (.recv channelId (.updateFee feeratePerKw) env) =>
      let outcome := lnRecv crypto world.chan.self channelId (.updateFee feeratePerKw) env
      (outcome.ret = true → world.chan.self.isFunder = false) ∧
        (outcome.ret = false → outcome.self = world.chan.self)
  | .node (.recv _ (.commitmentSigned ..) _) =>
      ∀ value rest, world.fee.toAcceptor = .sign value :: rest →
        ∀ commitNum toSelfDelay dustLimitSat,
          buildToLocal crypto world.chan.self commitNum toSelfDelay dustLimitSat =
            buildToLocal crypto (world.chan.self.withFeerate value) commitNum toSelfDelay
              dustLimitSat
  | .node .idle =>
      (handle crypto world.chan.self .idle).trace.any Effect.signs = true →
        ∀ commitNum dustLimitSat,
          buildToRemote crypto (signingState world.chan.self) commitNum dustLimitSat =
            buildToRemote crypto
              ((signingState world.chan.self).withFeerate world.fee.committed) commitNum
              dustLimitSat
  | .peerTakes =>
      ∀ value rest, world.fee.toProposer = .sign value :: rest →
        ∀ (signer : LnSelf) (commitNum dustLimitSat : UInt64), signer.feeratePerKw = value →
          buildToRemote crypto signer commitNum dustLimitSat =
            buildToRemote crypto (signer.withFeerate world.fee.own) commitNum dustLimitSat
  | .rebuild searchPreimage =>
      (lnCloseCreateUnilateralTx crypto searchPreimage world.chan.self).1 =
        (lnCloseCreateUnilateralTx crypto searchPreimage
          (world.chan.self.withFeerate world.fee.committed)).1
  | _ => True

/-- The idle processing comes to make a `commitment_signed`. -/
def dueToSign (self : LnSelf) : Bool :=
  !((List.finRange lnHtlcMax).any fun idx => (self.cnlAddHtlc idx).flag.comsiging) &&
    (List.finRange lnHtlcMax).any fun idx => idleComsig (self.cnlAddHtlc idx)

/-- An `update_fee` comes from the funder.  Between one and the next `commitment_signed`
of the peer the channel neither signs nor rebuilds its commitment, and does not connect
again from a state saved in between. -/
def FeeInTurn (world : FeeWorld) : FeeLabel → Prop
  | .node (.recv channelId (.updateFee _) _) =>
      world.chan.self.initFlag.exchanged = true → channelId = world.chan.self.channelId →
        world.chan.self.isFunder = false
  | .node .idle => dueToSign world.chan.self = true → world.fee.pending = false
  | .rebuild _ => world.fee.pending = false
  | .reconnect _ => world.savedPending = false
  | _ => True

/-! ### Steps -/

theorem acceptsFee_of_feerate {channelId : Bytes} {msg : LnMsg} {env : RecvEnv}
    {feeratePerKw : UInt32}
    (hfee : (ChannelEvent.recv channelId msg env).feerate = some feeratePerKw) :
    msg = .updateFee feeratePerKw := by
  cases msg with
  | updateFee value =>
      obtain rfl := Option.some.inj hfee
      rfl
  | _ => cases hfee

theorem lnRecv_updateFee (channelId : Bytes) (feeratePerKw : UInt32) (env : RecvEnv) :
    lnRecv crypto self channelId (.updateFee feeratePerKw) env =
      if acceptsFee self (.recv channelId (.updateFee feeratePerKw) env) then
        ⟨true, self.withFeerate feeratePerKw, [.updateFeeRecv]⟩
      else .reject self := by
  simp only [lnRecv, recvFunc, recvUpdateFee, acceptsFee]
  by_cases hinit : self.initFlag.exchanged = true
  · by_cases hchannel : channelId = self.channelId
    · simp [hinit, hchannel, LnSelf.withFeerate]
    · simp [hinit, hchannel]
  · simp [hinit]

/-- Only an accepted `update_fee` changes the feerate. -/
theorem handle_feerate {ev : ChannelEvent} (haccepts : acceptsFee self ev = false) :
    (handle crypto self ev).self.feeratePerKw = self.feeratePerKw := by
  by_cases hclosing : ev.isClosing = true
  · have hchange : ClosingChange self (handle crypto self ev).self := handle_closing hclosing
    obtain ⟨_, _, _, _, _, _, _, hself⟩ := hchange
    rw [hself]
  · cases hfee : ev.feerate with
    | none =>
        have hchange : OperationChange self (handle crypto self ev).self :=
          handle_operation (Bool.eq_false_iff.mpr hclosing) hfee
        obtain ⟨_, _, _, _, _, _, _, _, _, _, _, _, _, hself⟩ := hchange
        rw [hself]
    | some feeratePerKw =>
        cases ev with
        | recv channelId msg env =>
            obtain rfl := acceptsFee_of_feerate hfee
            rw [handle, lnRecv_updateFee, haccepts]
            rfl
        | _ => cases hfee

theorem signs_of_quiet {effect : Effect} (hquiet : effect.quiet = true) :
    effect.signs = false := by
  cases effect with
  | sendReq idx msg =>
      cases msg with
      | commitmentSigned signature htlcSignatures => cases hquiet
      | _ => rfl
  | _ => rfl

theorem not_signs_of_quiet {trace : List Effect} (hquiet : trace.all Effect.quiet = true) :
    trace.any Effect.signs = false := by
  refine List.any_eq_false.mpr fun effect hmem => ?_
  rw [signs_of_quiet (List.all_eq_true.mp hquiet effect hmem)]
  exact Bool.false_ne_true

theorem dueToSign_of_sendsCommit (hsends : sendsCommit crypto self .idle = true) :
    dueToSign self = true := by
  simp only [sendsCommit, Bool.and_eq_true] at hsends
  obtain ⟨⟨⟨-, hcomsiging⟩, hcomsig⟩, -⟩ := hsends
  exact Bool.and_eq_true_iff.mpr ⟨hcomsiging, hcomsig⟩

/-- Only the idle processing signs, when it is due to. -/
theorem handle_signs {ev : ChannelEvent}
    (hsigns : (handle crypto self ev).trace.any Effect.signs = true) :
    ev = .idle ∧ dueToSign self = true := by
  generalize houtcome : handle crypto self ev = outcome at hsigns
  have hdance : DanceChange crypto self ev outcome := houtcome ▸ handle_dance crypto self ev
  cases hdance with
  | quiet _ hquiet =>
      rw [not_signs_of_quiet hquiet] at hsigns
      cases hsigns
  | accepted => cases hsigns
  | committed hsends => exact ⟨rfl, dueToSign_of_sendsCommit hsends⟩
  | reestablished hquiet =>
      rw [List.any_append, not_signs_of_quiet hquiet] at hsigns
      split at hsigns <;> cases hsigns

/-- What `ln_db_self_save` writes unchanged, the database holds after a handler that saved
it, and keeps otherwise. -/
theorem Db.writes_value {α : Type} {proj : LnSelf → α} {value : α}
    (hsave : ∀ (db : Db) (saved : LnSelf), proj (db.saveSelf saved).chan = proj saved)
    {trace : List Effect} :
    ∀ {db : Db}, (∀ saved, Effect.selfSave saved ∈ trace → proj saved = value) →
      proj (db.writes trace).chan =
        if trace.any Effect.saves then value else proj db.chan := by
  induction trace with
  | nil =>
      intro db _
      rfl
  | cons effect rest ih =>
      intro db hsaved
      have hrest : ∀ saved, Effect.selfSave saved ∈ rest → proj saved = value :=
        fun saved hmem => hsaved saved (List.mem_cons_of_mem _ hmem)
      have hstep : proj ((db.write effect).writes rest).chan =
          if rest.any Effect.saves then value else proj (db.write effect).chan :=
        ih hrest
      rw [Db.writes, List.foldl_cons]
      refine hstep.trans ?_
      by_cases hmore : rest.any Effect.saves = true
      · simp [hmore]
      · cases effect with
        | selfSave saved =>
            have hvalue := hsaved saved (List.mem_cons_self ..)
            simp [hmore, Effect.saves, Db.write, hsave, hvalue]
        | _ => simp [hmore, Effect.saves, Db.write]

/-! ### Runs -/

/-- The parties agree up to what is in flight, the channel holds the feerate last taken,
and what is saved with no proposal open is what was last committed. -/
structure FeesKept (world : FeeWorld) : Prop where
  agreed : Agreed world.fee
  taken : world.chan.self.feeratePerKw = world.fee.taken
  saved : world.savedPending = false → world.chan.db.chan.feeratePerKw = world.savedCommitted

variable {world after : FeeWorld}

theorem FeesKept.start (hstart : (feeSystem crypto).start world) : FeesKept world := by
  obtain ⟨⟨outcome, hdone, hchan⟩, hfee, hcommitted, hpending⟩ := hstart
  obtain ⟨_, _, _, ready, rfl, -⟩ := hdone.fresh
  refine ⟨?_, ?_, fun _ => ?_⟩
  · rw [hfee]
    exact .init _
  · rw [hfee]
    rfl
  · rw [hcommitted, hchan]
    rfl

theorem channelNext_handled {before chan : ChannelState} {ev : ChannelEvent}
    (hnext : channelNext crypto before (.event ev) = some chan) :
    chan.self = (handle crypto before.self ev).self ∧
      chan.db = before.db.writes (handle crypto before.self ev).trace := by
  simp only [channelNext] at hnext
  split at hnext
  · obtain rfl := Option.some.inj hnext
    exact ⟨rfl, rfl⟩
  · cases hnext

theorem FeeWorld.arrives_fee {ev : ChannelEvent} (harrives : world.arrives ev = true)
    (hfee : acceptsFee world.chan.self ev = true) :
    ∃ channelId feeratePerKw env rest, ev = .recv channelId (.updateFee feeratePerKw) env ∧
      world.fee.toAcceptor = .propose feeratePerKw :: rest := by
  cases ev with
  | recv channelId msg env =>
      cases msg with
      | updateFee feeratePerKw =>
          obtain ⟨rest, hqueue⟩ := List.head?_eq_some_iff.mp (beq_iff_eq.mp harrives)
          exact ⟨channelId, feeratePerKw, env, rest, rfl, hqueue⟩
      | _ => cases hfee
  | _ => cases hfee

theorem FeeWorld.arrives_commit {channelId signature : Bytes} {htlcSignatures : List Bytes}
    {env : RecvEnv}
    (harrives : world.arrives (.recv channelId (.commitmentSigned signature htlcSignatures) env) =
      true) :
    ∃ value rest, world.fee.toAcceptor = .sign value :: rest := by
  simp only [FeeWorld.arrives] at harrives
  split at harrives
  · rename_i value hhead
    obtain ⟨rest, hqueue⟩ := List.head?_eq_some_iff.mp hhead
    exact ⟨value, rest, hqueue⟩
  · cases harrives

theorem recv_of_acceptsCommit {ev : ChannelEvent} (hcommit : acceptsCommit crypto self ev = true) :
    ∃ channelId signature htlcSignatures env,
      ev = .recv channelId (.commitmentSigned signature htlcSignatures) env := by
  cases ev with
  | recv channelId msg env =>
      cases msg with
      | commitmentSigned signature htlcSignatures =>
          exact ⟨channelId, signature, htlcSignatures, env, rfl⟩
      | _ => cases hcommit
  | _ => cases hcommit

/-- An event that takes a feerate or a signature signs nothing. -/
theorem FeeWorld.feeAfter_takes {ev : ChannelEvent}
    (htakes : (acceptsFee world.chan.self ev || acceptsCommit crypto world.chan.self ev) = true) :
    world.feeAfter crypto ev = world.fee.acceptorTakes := by
  have hsigns : ¬ (handle crypto world.chan.self ev).trace.any Effect.signs = true := by
    intro hsigns
    obtain ⟨rfl, -⟩ := handle_signs hsigns
    cases htakes
  simp only [FeeWorld.feeAfter, if_pos htakes, if_neg hsigns]

/-- The feerates after an event: the parties still agree, and the channel holds the one
last taken. -/
theorem FeesKept.feeAfter (hkept : FeesKept world) {ev : ChannelEvent}
    (harrives : world.arrives ev = true) (hturn : FeeInTurn world (.node ev)) :
    Agreed (world.feeAfter crypto ev) ∧
      (handle crypto world.chan.self ev).self.feeratePerKw =
        (world.feeAfter crypto ev).taken := by
  obtain ⟨hagreed, htaken, -⟩ := hkept
  by_cases hfee : acceptsFee world.chan.self ev = true
  · rw [FeeWorld.feeAfter_takes (by rw [hfee, Bool.true_or])]
    refine ⟨hagreed.acceptorTakes, ?_⟩
    obtain ⟨channelId, feeratePerKw, env, rest, rfl, hqueue⟩ := FeeWorld.arrives_fee harrives hfee
    rw [State.acceptorTakes_propose hqueue, handle, lnRecv_updateFee, if_pos hfee]
    rfl
  have hsame : (handle crypto world.chan.self ev).self.feeratePerKw =
      world.chan.self.feeratePerKw :=
    handle_feerate (Bool.eq_false_iff.mpr hfee)
  by_cases hcommit : acceptsCommit crypto world.chan.self ev = true
  · rw [FeeWorld.feeAfter_takes (by rw [hcommit, Bool.or_true])]
    refine ⟨hagreed.acceptorTakes, ?_⟩
    obtain ⟨channelId, signature, htlcSignatures, env, rfl⟩ := recv_of_acceptsCommit hcommit
    obtain ⟨value, rest, hqueue⟩ := FeeWorld.arrives_commit harrives
    rw [State.acceptorTakes_sign hqueue, hsame, htaken]
  have htakes : ¬ (acceptsFee world.chan.self ev || acceptsCommit crypto world.chan.self ev) =
      true := by
    rw [Bool.or_eq_true]
    exact not_or.mpr ⟨hfee, hcommit⟩
  simp only [FeeWorld.feeAfter, if_neg htakes, hsame]
  by_cases hsigns : (handle crypto world.chan.self ev).trace.any Effect.signs = true
  · rw [if_pos hsigns]
    refine ⟨hagreed.acceptorSigns ?_, htaken⟩
    obtain ⟨rfl, hdue⟩ := handle_signs hsigns
    rw [htaken, hagreed.settled (hturn hdue)]
  · rw [if_neg hsigns]
    exact ⟨hagreed, htaken⟩

theorem FeesKept.node (hkept : FeesKept world) {ev : ChannelEvent}
    (hturn : FeeInTurn world (.node ev)) (hnext : feeNext crypto world (.node ev) = some after) :
    FeesKept after := by
  simp only [feeNext] at hnext
  split at hnext
  · rename_i harrives
    obtain ⟨chan, hchan, rfl⟩ := Option.map_eq_some_iff.mp hnext
    obtain ⟨hself, hdb⟩ := channelNext_handled hchan
    obtain ⟨hagreed, htaken⟩ := hkept.feeAfter harrives hturn
    have hsaves : ∀ saved, Effect.selfSave saved ∈ (handle crypto world.chan.self ev).trace →
        saved.feeratePerKw = (world.feeAfter crypto ev).taken := by
      intro saved hsaved
      obtain ⟨_, _, _, _, _, _, _, hleft⟩ := handle_saves crypto world.chan.self ev saved hsaved
      rw [← htaken, hleft]
    have hwritten := @Db.writes_value _ LnSelf.feeratePerKw _ (fun _ _ => rfl) _
      world.chan.db hsaves
    rw [← hdb] at hwritten
    split
    · rename_i hany
      rw [if_pos hany] at hwritten
      refine ⟨hagreed, hself ▸ htaken, fun hpending => ?_⟩
      exact hwritten.trans (hagreed.settled hpending)
    · rename_i hany
      rw [if_neg hany] at hwritten
      exact ⟨hagreed, hself ▸ htaken, fun hpending => hwritten.trans (hkept.saved hpending)⟩
  · cases hnext

theorem lnCloseCreateUnilateralTx_feerate (searchPreimage : Bytes → Option Bytes) (self : LnSelf) :
    (lnCloseCreateUnilateralTx crypto searchPreimage self).2.feeratePerKw =
      self.feeratePerKw := by
  simp only [lnCloseCreateUnilateralTx, createToLocalClose]
  split
  · rfl
  · split <;> rfl

theorem FeesKept.step {label : FeeLabel} (hkept : FeesKept world) (hturn : FeeInTurn world label)
    (hnext : (feeSystem crypto).next world label = some after) : FeesKept after := by
  cases label with
  | peerProposes feeratePerKw =>
      obtain rfl := Option.some.inj hnext
      exact ⟨hkept.agreed.propose feeratePerKw, hkept.taken, hkept.saved⟩
  | peerSigns =>
      obtain rfl := Option.some.inj hnext
      exact ⟨hkept.agreed.proposerSigns, hkept.taken, hkept.saved⟩
  | peerTakes =>
      obtain rfl := Option.some.inj hnext
      have htaken : world.fee.proposerTakes.taken = world.fee.taken :=
        State.proposerTakes_taken world.fee
      exact ⟨hkept.agreed.proposerTakes, hkept.taken.trans htaken.symm, hkept.saved⟩
  | node ev => exact hkept.node hturn hnext
  | rebuild searchPreimage =>
      obtain rfl := Option.some.inj hnext
      exact ⟨hkept.agreed,
        (lnCloseCreateUnilateralTx_feerate searchPreimage world.chan.self).trans hkept.taken,
        hkept.saved⟩
  | reconnect dataloss =>
      simp only [feeSystem, feeNext] at hnext
      obtain ⟨chan, hchan, rfl⟩ := Option.map_eq_some_iff.mp hnext
      obtain rfl := Option.some.inj hchan
      exact ⟨.init _, hkept.saved hturn, hkept.saved⟩

theorem withFeerate_of_eq {feeratePerKw : UInt32} (heq : feeratePerKw = self.feeratePerKw) :
    self.withFeerate feeratePerKw = self := by
  subst heq
  rfl

theorem FeesKept.committed (hkept : FeesKept world) (hpending : world.fee.pending = false) :
    world.fee.committed = world.chan.self.feeratePerKw := by
  rw [hkept.taken, hkept.agreed.settled hpending]

theorem FeesKept.right_recv (hkept : FeesKept world) {channelId : Bytes} {msg : LnMsg}
    {env : RecvEnv} (hturn : FeeInTurn world (.node (.recv channelId msg env))) :
    FeerateRight crypto world (.node (.recv channelId msg env)) := by
  cases msg with
  | updateFee feeratePerKw =>
      simp only [FeerateRight, lnRecv_updateFee]
      split
      · rename_i haccepts
        obtain ⟨hinit, hchannel⟩ := Bool.and_eq_true_iff.mp haccepts
        exact ⟨fun _ => hturn hinit (beq_iff_eq.mp hchannel), fun hret => absurd hret.symm
          Bool.false_ne_true⟩
      · exact ⟨fun hret => absurd hret Bool.false_ne_true, fun _ => rfl⟩
  | commitmentSigned signature htlcSignatures =>
      intro value rest hqueue commitNum toSelfDelay dustLimitSat
      have hvalue : value = world.chan.self.feeratePerKw := by
        rw [hkept.taken]
        exact hkept.agreed.taken_eq hqueue
      rw [withFeerate_of_eq hvalue]
  | _ => trivial

/-- In every run in which the feerate changes in turn, each commitment transaction is
built with the feerate of the peer. -/
theorem feerateRight_of_inTurn (crypto : Crypto) (world : FeeWorld) (label : FeeLabel)
    (hreach : (feeSystem crypto).ReachableUnder FeeInTurn world)
    (hturn : FeeInTurn world label) : FeerateRight crypto world label := by
  have hkept : FeesKept world :=
    hreach.invariant FeesKept (fun _ => .start) fun _ _ _ => FeesKept.step
  cases label with
  | node ev =>
      cases ev with
      | recv channelId msg env => exact hkept.right_recv hturn
      | idle =>
          intro hsigns commitNum dustLimitSat
          obtain ⟨-, hdue⟩ := handle_signs hsigns
          have hcommitted := hkept.committed (hturn hdue)
          have hsame : (signingState world.chan.self).withFeerate world.fee.committed =
              signingState world.chan.self := withFeerate_of_eq hcommitted
          rw [hsame]
      | _ => trivial
  | peerTakes =>
      intro value rest hqueue signer commitNum dustLimitSat hsigner
      have hown : world.fee.own = signer.feeratePerKw := by
        rw [hsigner, hkept.agreed.own_eq hqueue]
      rw [withFeerate_of_eq hown]
  | rebuild searchPreimage =>
      simp only [FeerateRight]
      rw [withFeerate_of_eq (hkept.committed hturn)]
  | _ => trivial

/-! ### Two runs -/

/-- The world at the end of the funding exchange. -/
def FeeWorld.afterFunding (outcome : Outcome) : FeeWorld where
  chan := .afterFunding outcome
  fee := .init outcome.self.feeratePerKw
  savedCommitted := outcome.self.feeratePerKw
  savedPending := false

/-- The script runs, as far as it is permitted, to a world that passes the check. -/
def feeCheck (permits : FeeWorld → FeeLabel → Bool) (script : List (FeeWorld → FeeLabel))
    (check : FeeWorld → Bool) : Bool :=
  ((symbolicFundee 1000000 500000000).bind fun outcome =>
    (feeSystem .symbolic).trail permits (.afterFunding outcome) [] script).any fun final =>
      check final.1

theorem reachable_of_feeCheck {permits : FeeWorld → FeeLabel → Bool}
    {script : List (FeeWorld → FeeLabel)} {check : FeeWorld → Bool}
    {allowed : FeeWorld → FeeLabel → Prop}
    (hallowed : ∀ choose ∈ script, ∀ before, permits before (choose before) = true →
      allowed before (choose before))
    (hcheck : feeCheck permits script check = true) :
    ∃ world, (feeSystem .symbolic).ReachableUnder allowed world ∧ check world = true := by
  simp only [feeCheck, Option.any_eq_true, Option.bind_eq_some_iff] at hcheck
  obtain ⟨⟨world, past⟩, ⟨outcome, hopened, htrail⟩, hchecked⟩ := hcheck
  have hstart : (feeSystem Crypto.symbolic).start (.afterFunding outcome) :=
    ⟨⟨outcome, symbolicFundee_done hopened, rfl⟩, rfl, rfl, rfl⟩
  obtain ⟨hhistory, -⟩ := System.history_of_trail hallowed (.start hstart) htrail
  exact ⟨world, hhistory.reachableUnder, hchecked⟩

/-- The peer signs, and the channel takes the signature. -/
def signedByPeer (commitNum : UInt64) : List (FeeWorld → FeeLabel) :=
  [ fun _ => .peerSigns,
    fun world => .node (.recv symbolicOutpoint.txid
      (.commitmentSigned (symbolicPeerSignature world.chan.self commitNum) []) {}) ]

/-- The peer adds and signs for an HTLC, and then proposes a feerate. -/
def proposedScript : List (FeeWorld → FeeLabel) :=
  let cid := symbolicOutpoint.txid
  [fun _ => .node (.recv cid (.updateAddHtlc 0 500000 [9] 100 [])
      { onion := { verdict := .final [9] } })] ++ signedByPeer 1 ++
    [ fun _ => .peerProposes 2000,
      fun _ => .node (.recv cid (.updateFee 2000) {}) ]

/-- The peer signs with the new feerate before the channel signs for the HTLC. -/
def inTurnScript : List (FeeWorld → FeeLabel) :=
  proposedScript ++ signedByPeer 2 ++
    [fun _ => .node .idle, fun _ => .peerTakes, fun _ => .peerTakes]

/-- The channel is the fundee, and does nothing while a proposal is open but to take
messages. -/
def permitInTurn (world : FeeWorld) (label : FeeLabel) : Bool :=
  !world.chan.self.isFunder &&
    match label with
    | .node .idle => !world.fee.pending
    | _ => true

theorem feeInTurn_of_permitInTurn :
    ∀ choose ∈ inTurnScript, ∀ before : FeeWorld, permitInTurn before (choose before) = true →
      FeeInTurn before (choose before) := by
  simp only [inTurnScript, proposedScript, signedByPeer, permitInTurn, FeeInTurn, List.cons_append,
    List.nil_append, List.forall_mem_cons, Bool.and_eq_true, Bool.not_eq_true', implies_true,
    true_and]
  exact ⟨fun _ hfundee _ _ => hfundee.1, fun _ hsettled _ => hsettled.2, by simp⟩

/-- The peer then takes a signature made with the feerate it proposed. -/
theorem feerateRight_inTurnScript :
    ∃ world rest, (feeSystem .symbolic).ReachableUnder FeeInTurn world ∧
      world.fee.toProposer = .sign 2000 :: rest ∧ FeerateRight .symbolic world .peerTakes := by
  have hcheck : feeCheck permitInTurn inTurnScript (fun world =>
      world.fee.toProposer.head? == some (.sign 2000)) = true := by
    decide +kernel
  obtain ⟨world, hreach, hchecked⟩ := reachable_of_feeCheck feeInTurn_of_permitInTurn hcheck
  obtain ⟨rest, hqueue⟩ := List.head?_eq_some_iff.mp (beq_iff_eq.mp hchecked)
  exact ⟨world, rest, hreach, hqueue, feerateRight_of_inTurn .symbolic world .peerTakes hreach
    trivial⟩

/-- The channel signs for the HTLC with a feerate that the peer has not signed with yet. -/
theorem feerateWrong_proposedScript :
    ¬ ∀ (crypto : Crypto) (world : FeeWorld) (label : FeeLabel) (after : FeeWorld),
      (feeSystem crypto).Reachable world → (feeSystem crypto).next world label = some after →
        FeerateRight crypto world label := by
  intro hall
  have hcheck : feeCheck (fun _ _ => true) proposedScript (fun world =>
      (feeNext .symbolic world (.node .idle)).isSome &&
        (handle .symbolic world.chan.self .idle).trace.any Effect.signs &&
        !decide ((buildToRemote .symbolic (signingState world.chan.self) 1 1000).committx =
          (buildToRemote .symbolic ((signingState world.chan.self).withFeerate
            world.fee.committed) 1 1000).committx)) = true := by
    decide +kernel
  have hany : ∀ choose ∈ proposedScript, ∀ before : FeeWorld, true = true →
      System.AnyStep before (choose before) := fun _ _ _ _ => trivial
  obtain ⟨world, hreach, hchecked⟩ := reachable_of_feeCheck hany hcheck
  simp only [Bool.and_eq_true, Bool.not_eq_true', decide_eq_false_iff_not,
    Option.isSome_iff_exists] at hchecked
  obtain ⟨⟨⟨after, hnext⟩, hsigns⟩, hdiffers⟩ := hchecked
  have hright := hall .symbolic world (.node .idle) after hreach hnext hsigns 1 1000
  exact hdiffers (congrArg CommitBuild.committx hright)

end Ptarmigan
