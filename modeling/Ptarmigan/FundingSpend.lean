/-
The funding output: which witnesses its script takes, and that the transactions with which a node
closes the channel carry such a witness.
-/
import Ptarmigan.FundingKey
import Ptarmigan.Negotiation
import Ptarmigan.SpendHtlc

namespace Ptarmigan

open Script TransitionSystem

variable {crypto : Crypto} {self : LnSelf}

/-! ### The script -/

/-- `OP_2 <pub1> <pub2> OP_2 OP_CHECKMULTISIG`. -/
def fundingProg (pub1 pub2 : Item) : Prog :=
  .block [.push [2], .push pub1, .push pub2, .push [2], .checkMultiSig] .done

/-- The keys in the script are compressed points. -/
structure RedeemFund.Sized (redeem : RedeemFund) : Prop where
  pub1 : redeem.pub1.length = 33
  pub2 : redeem.pub2.length = 33

theorem RedeemFund.Sized.decodes {redeem : RedeemFund} (hsized : redeem.Sized) :
    Decodes redeem.script (fundingProg redeem.pub1 redeem.pub2).ops := by
  have htwo : Decodes [0x52] _ := decodes_ops (by decide)
  have hend : Decodes [0x52, 0xae] _ := decodes_ops (by decide)
  have hbytes := htwo.append ((decodes_key hsized.pub1).append
    ((decodes_key hsized.pub2).append hend))
  simpa [RedeemFund.script, fundingProg, Prog.block, Prog.ops, opOf] using hbytes

theorem fundingProg_takes {env : Env} {pub1 pub2 : Item} (stack : List Item) :
    (fundingProg pub1 pub2).Takes env stack ↔
      ∃ sig1 sig2, stack = [sig2, sig1, []] ∧ env.checkSig sig1 pub1 = true ∧
        env.checkSig sig2 pub2 = true := by
  match stack with
  | [] => simp [Prog.Takes, fundingProg, Prog.block, Prog.eval]
  | [_] => simp [Prog.Takes, fundingProg, Prog.block, Prog.eval]
  | [_, _] => simp [Prog.Takes, fundingProg, Prog.block, Prog.eval]
  | sig2 :: sig1 :: dummy :: rest =>
      by_cases hdummy : dummy = []
      · simp [Prog.Takes, fundingProg, Prog.block, Prog.eval, hdummy, and_comm]
      · simp [Prog.Takes, fundingProg, Prog.block, Prog.eval, hdummy]

/-- The 2-of-2 is opened by both keys, their signatures in the order of the keys, and by no other
witness. -/
theorem RedeemFund.Sized.spends_iff {redeem : RedeemFund} (hsized : redeem.Sized) {env : Env}
    (items : List Item) :
    env.spends redeem.script items = true ↔
      ∃ sig1 sig2, items = [[], sig1, sig2] ∧ env.checkSig sig1 redeem.pub1 = true ∧
        env.checkSig sig2 redeem.pub2 = true := by
  rw [hsized.decodes.spends_iff, fundingProg_takes]
  simp only [List.reverse_eq_iff, List.reverse_cons, List.reverse_nil, List.nil_append,
    List.singleton_append]
  rfl

/-! ### The witness -/

/-- `set_vin_p2wsh_2of2`: the own signature comes first when the own key does. -/
def setVinP2wsh2of2 (sortAsc : Bool) (sig1 sig2 wit2of2 : Bytes) : List Bytes :=
  if sortAsc then [[], sig1, sig2, wit2of2] else [[], sig2, sig1, wit2of2]

/-- What a channel holds of its funding output: the outpoint, the value, the 2-of-2 with the order
of its keys, and the script that is paid to. -/
structure FundingOutput where
  txid : Bytes
  txindex : UInt16
  value : UInt64
  redeem : RedeemFund
  sortAsc : Bool
  script : Bytes

def LnSelf.fundingOutput (self : LnSelf) : FundingOutput where
  txid := self.fundingLocal.txid
  txindex := self.fundingLocal.txindex
  value := self.fundingSat
  redeem := self.redeemFund
  sortAsc := self.keyFundSortAsc
  script := self.txFundingScript

/-- A transaction with the signatures of both sides takes the funding output and opens it. -/
structure OpensFunding (crypto : Crypto) (output : FundingOutput) (tx : BtcTx)
    (own peer : Bytes) : Prop where
  outpoint : tx.vinTxid = output.txid ∧ tx.vinIndex = output.txindex.toNat
  script : crypto.sha256 output.redeem.script = output.script
  opens : ∃ items,
    setVinP2wsh2of2 output.sortAsc own peer output.redeem.script =
        items ++ [output.redeem.script] ∧
      (txEnv crypto tx output.value output.redeem.script).spends output.redeem.script items = true

/-- What `btc_sw_verify_2of2` has accepted opens the output. -/
theorem opensFunding_of_verify {tx : BtcTx} {bufSig : Bytes} (hsized : self.redeemFund.Sized)
    (htxid : tx.vinTxid = self.fundingLocal.txid)
    (hindex : tx.vinIndex = self.fundingLocal.txindex.toNat)
    (hverify : createToLocalSignVerify crypto self tx bufSig = true) :
    OpensFunding crypto self.fundingOutput tx bufSig self.commitLocal.signature := by
  simp only [createToLocalSignVerify, calcSighashP2wsh] at hverify
  split at hverify
  · cases hverify
  · rename_i sighash hsighash
    split_ifs at hsighash
    obtain rfl := Option.some.inj hsighash
    simp only [Bool.and_eq_true, beq_iff_eq] at hverify
    obtain ⟨⟨hscript, hsig1⟩, hsig2⟩ := hverify
    refine ⟨⟨htxid, hindex⟩, hscript, ?_⟩
    have hopens : (txEnv crypto tx self.fundingSat self.redeemFund.script).spends
        self.redeemFund.script [[], _, _] = true :=
      (hsized.spends_iff _).mpr ⟨_, _, rfl, hsig1, hsig2⟩
    refine ⟨_, ?_, hopens⟩
    cases hsort : self.keyFundSortAsc with
    | true => simp [setVinP2wsh2of2, LnSelf.fundingOutput, hsort]
    | false => simp [setVinP2wsh2of2, LnSelf.fundingOutput, hsort]

/-- The commitment transaction of a unilateral close, with the own signature that is made for it. -/
theorem createToLocalClose_opens {searchPreimage : Bytes → Option Bytes} {commitNum : UInt64}
    {toSelfDelay : UInt16} {dustLimitSat : UInt64} {unilateral : UnilateralTx}
    (hsized : self.redeemFund.Sized)
    (hclose : (createToLocalClose crypto searchPreimage self commitNum toSelfDelay
      dustLimitSat).1 = some unilateral) :
    ∃ bufSig, signCommittx crypto self unilateral.build.committx.tx = some bufSig ∧
      OpensFunding crypto self.fundingOutput unilateral.build.committx.tx bufSig
        self.commitLocal.signature := by
  unfold createToLocalClose at hclose
  generalize hbuild : buildToLocal crypto self commitNum toSelfDelay dustLimitSat = build at hclose
  cases hsign : signCommittx crypto self build.committx.tx with
  | none =>
      simp only [hsign] at hclose
      cases hclose
  | some bufSig =>
      by_cases hverify : createToLocalSignVerify crypto self build.committx.tx bufSig = true
      · simp only [hsign, if_pos hverify] at hclose
        obtain ⟨htlcs, -, rfl⟩ := Option.map_eq_some_iff.mp hclose
        refine ⟨bufSig, hsign, opensFunding_of_verify hsized ?_ ?_ hverify⟩
        · rw [← hbuild]
          rfl
        · rw [← hbuild]
          rfl
      · simp only [hsign, if_neg hverify] at hclose
        cases hclose

/-- The closing transaction has the own signature that the node has just made for it, and with the
one of the peer it opens the output. -/
def ClosingOpens (crypto : Crypto) (output : FundingOutput) (self : LnSelf) (feeSat : UInt64) :
    Prop :=
  ∃ bufSig, signCommittx crypto self (closingTx self feeSat) = some bufSig ∧
    OpensFunding crypto output (closingTx self feeSat) bufSig self.commitLocal.signature

/-- A closing transaction that has been verified. -/
theorem createClosingTx_opens {feeSat : UInt64} {after : LnSelf}
    (hsized : self.redeemFund.Sized)
    (hcreated : createClosingTx crypto self feeSat true = (true, after)) :
    after = { self with
      commitRemote := { self.commitRemote with signature := after.commitRemote.signature } } ∧
    ClosingOpens crypto after.fundingOutput after feeSat := by
  simp only [createClosingTx] at hcreated
  split_ifs at hcreated
  · cases hcreated
  split at hcreated
  · cases hcreated
  · rename_i bufSig hsign
    obtain ⟨hverify, rfl⟩ := Prod.mk.inj hcreated
    rw [Bool.not_true, Bool.false_or] at hverify
    exact ⟨rfl, bufSig, hsign, opensFunding_of_verify hsized rfl rfl hverify⟩

theorem closeOrAnswer_opens {feeSat : UInt64} {needClosetx broadcast : Bool}
    (hsized : self.redeemFund.Sized)
    (hclosing : Effect.closing ∈
      (closeOrAnswer crypto self feeSat needClosetx broadcast).trace) :
    let after := (closeOrAnswer crypto self feeSat needClosetx broadcast).self
    ClosingOpens crypto after.fundingOutput after after.closeFeeSat := by
  simp only [closeOrAnswer] at hclosing ⊢
  cases needClosetx with
  | false =>
      split at hclosing
      · simp [Outcome.reject] at hclosing
      · simp at hclosing
  | true =>
      cases hcreated : createClosingTx crypto self self.closeFeeSat true with
      | mk made after =>
          rw [hcreated] at hclosing
          cases made with
          | false => simp [Outcome.reject] at hclosing
          | true =>
              obtain ⟨hafter, hopens⟩ := createClosingTx_opens hsized hcreated
              have hfee : after.closeFeeSat = self.closeFeeSat := by
                rw [hafter]
              rw [← hfee] at hopens
              obtain ⟨bufSig, hsign, hwitness⟩ := hopens
              cases broadcast with
              | true =>
                  exact ⟨bufSig, hsign, hwitness.outpoint, hwitness.script, hwitness.opens⟩
              | false => exact ⟨bufSig, hsign, hwitness⟩

theorem recvClosingSigned_opens {channelId signature : Bytes} {feeSat : UInt64}
    {broadcast : Bool} (hsized : self.redeemFund.Sized)
    (hclosing : Effect.closing ∈
      (recvClosingSigned crypto self channelId feeSat signature broadcast).trace) :
    let after := (recvClosingSigned crypto self channelId feeSat signature broadcast).self
    ClosingOpens crypto after.fundingOutput after after.closeFeeSat := by
  simp only [recvClosingSigned] at hclosing ⊢
  split_ifs at hclosing ⊢
  · simp [Outcome.reject] at hclosing
  · simp [Outcome.reject] at hclosing
  · simp [Outcome.reject] at hclosing
  · split at hclosing
    · simp at hclosing
    · rename_i after hcreated
      have hread : after.redeemFund.Sized := by
        have hafter := (createClosingTx_opens (by exact hsized) hcreated).1
        rw [hafter]
        exact hsized
      split_ifs at hclosing ⊢ with hlast
      · exact closeOrAnswer_opens hread hclosing
      · exact closeOrAnswer_opens hread hclosing

/-! ### The output over the runs -/

theorem OnlySlots.fundingOutput {before after : LnSelf} (honly : OnlySlots before after) :
    after.fundingOutput = before.fundingOutput := by
  obtain ⟨_, _, rfl⟩ := honly
  rfl

theorem ClosingChange.fundingOutput {before after : LnSelf}
    (hchange : ClosingChange before after) : after.fundingOutput = before.fundingOutput := by
  obtain ⟨_, _, _, _, _, _, _, rfl⟩ := hchange
  rfl

theorem recvFunc_fundingOutput (channelId : Bytes) (env : RecvEnv) (msg : LnMsg)
    (hupdate : ¬ (ChannelEvent.recv channelId msg env).isUpdate = true) :
    (recvFunc crypto self channelId env msg).self.fundingOutput = self.fundingOutput := by
  cases msg with
  | commitmentSigned sig htlcSigs =>
      obtain ⟨slots, txid, htlcNum, hself, -⟩ := createToLocal_changes crypto
        { self with commitLocal := { self.commitLocal with signature := sig } } htlcSigs
        (self.commitLocal.commitNum + 1) self.commitRemote.toSelfDelay
        self.commitLocal.dustLimitSat
      simp only [recvFunc, recvCommitmentSigned, hself]
      split_ifs
      · rfl
      · rfl
      · rfl
  | revokeAndAck secret point =>
      simp only [recvFunc, recvRevokeAndAck, storePeerPercommitSecret]
      split_ifs
      · rfl
      · rfl
      · cases lnDerkeyStorageInsertSecret crypto self.peerStorage secret self.peerStorageIndex with
        | none => rfl
        | some storage => rfl
  | fundingLocked perCommitpt =>
      simp only [recvFunc, recvFundingLocked]
      split
      · rfl
      · rfl
  | channelReestablish reest =>
      simp only [recvFunc, recvChannelReestablish]
      repeat' split
      all_goals rfl
  | updateFee feeratePerKw =>
      simp only [recvFunc, recvUpdateFee]
      split
      · rfl
      · rfl
  | shutdown scriptpk =>
      exact (recvShutdown_closing crypto self channelId scriptpk).1.fundingOutput
  | closingSigned feeSat signature =>
      exact (recvClosingSigned_closing crypto self channelId feeSat signature
        env.broadcast).1.fundingOutput
  | _ => exact absurd rfl hupdate

theorem handle_fundingOutput (crypto : Crypto) (self : LnSelf) (ev : ChannelEvent) :
    (handle crypto self ev).self.fundingOutput = self.fundingOutput := by
  by_cases hupdate : ev.isUpdate = true
  · exact (handle_onlySlots hupdate).fundingOutput
  · cases ev with
    | recv channelId msg env =>
        rw [handle, lnRecv]
        split
        · exact recvFunc_fundingOutput channelId env msg hupdate
        · rfl
    | idle =>
        simp only [handle, lnRecvIdleProc]
        split_ifs
        · rfl
        · rfl
        · simp only [recvIdleProcNonfinal, idleSendComsig]
          repeat' split
          all_goals rfl
    | reestablished =>
        simp only [handle, lnChannelReestablishAfter, reestResendUpdate]
        repeat' split
        all_goals rfl
    | shutdown fee => exact (handle_closing rfl).fundingOutput
    | _ => simp [ChannelEvent.isUpdate] at hupdate

/-- The channel in memory and the one in the database are of this output. -/
structure FundedBy (output : FundingOutput) (state : ChannelState) : Prop where
  chan : state.self.fundingOutput = output
  db : state.db.chan.fundingOutput = output

theorem FundedBy.took {output : FundingOutput} {before after : ChannelState} {ev : ChannelEvent}
    {trace : List Effect} (hfunded : FundedBy output before)
    (htook : Took before (handle crypto before.self ev) trace after)
    (hpart : ∀ effect ∈ trace, effect ∈ (handle crypto before.self ev).trace) :
    FundedBy output after := by
  have hself : (handle crypto before.self ev).self.fundingOutput = output :=
    (handle_fundingOutput crypto before.self ev).trans hfunded.chan
  have hdb : after.db.chan.fundingOutput = output := by
    rw [htook.db]
    apply Db.writes_holds (fun chan => chan.fundingOutput = output) _ hfunded.db
    · intro saved hmem
      rw [← hself, (handle_saves crypto before.self ev saved (hpart _ hmem)).fundingOutput]
    · intro db saved hsaved
      exact hsaved
  rcases htook.self with ⟨hafter, -⟩ | ⟨hafter, -⟩
  · exact ⟨hafter ▸ hself, hdb⟩
  · exact ⟨hafter ▸ hfunded.chan, hdb⟩

theorem FundedBy.step {output : FundingOutput} {before after : ChannelState}
    {label : ChannelLabel} (hfunded : FundedBy output before)
    (hnext : channelNext crypto before label = some after) : FundedBy output after := by
  rcases channelNext_took hnext with ⟨ev, rfl, htook⟩ | ⟨ev, done, rfl, htook⟩ | ⟨dataloss, rfl⟩
  · exact hfunded.took htook fun _ hmem => hmem
  · exact hfunded.took htook fun _ hmem => List.mem_of_mem_take hmem
  · obtain rfl := Option.some.inj hnext
    exact ⟨hfunded.db, hfunded.db⟩

/-- In a whole run the channel stays with the output that it started with. -/
theorem fundedBy_of_run {first state : ChannelState} (hstart : (channelSystem crypto).start first)
    (hrun : (channelSystem crypto).RunUnder System.AnyStep first state) :
    FundedBy first.self.fundingOutput state := by
  apply hrun.preserves (FundedBy first.self.fundingOutput)
  · intro before label after hfunded _ hnext
    exact hfunded.step hnext
  · obtain ⟨outcome, hdone, rfl⟩ := hstart
    have hready : ∃ ready, outcome = startFundingWait crypto ready := by
      cases hdone with
      | fundee hopened =>
          obtain ⟨ready, hready, -⟩ := holdsFunding_fundee hopened
          exact ⟨ready, hready⟩
      | funder hopened =>
          obtain ⟨ready, hready, -⟩ := holdsFunding_funder hopened
          exact ⟨ready, hready⟩
    obtain ⟨ready, rfl⟩ := hready
    exact ⟨rfl, rfl⟩

/-! ### The transactions that close the channel -/

theorem shutdown_closingless (channelId scriptpk : Bytes) (env : RecvEnv) :
    Effect.closing ∉ (lnRecv crypto self channelId (.shutdown scriptpk) env).trace := by
  simp only [lnRecv, recvFunc, recvShutdown, Outcome.andThen, startClosing]
  split_ifs
  · simp [Outcome.reject]
  · simp [Outcome.reject]
  · simp [Outcome.reject]
  · simp only [answerShutdown]
    repeat' split
    all_goals simp [Outcome.andThen, lnShutdownCreate, Outcome.reject]
  · simp only [answerShutdown]
    repeat' split
    all_goals simp [Outcome.andThen, lnShutdownCreate]
  · simp [Outcome.reject]

/-- Only a `closing_signed` brings the closing transaction. -/
theorem recv_of_closing {ev : ChannelEvent}
    (hclosing : Effect.closing ∈ (handle crypto self ev).trace) :
    ∃ channelId feeSat signature env,
      ev = .recv channelId (.closingSigned feeSat signature) env := by
  have hcloses : (handle crypto self ev).trace.any Effect.closes = true :=
    List.any_eq_true.mpr ⟨_, hclosing, rfl⟩
  have hsigns := signsClosing_of_closes hcloses
  cases ev with
  | recv channelId msg env =>
      cases msg with
      | closingSigned feeSat signature => exact ⟨_, _, _, _, rfl⟩
      | shutdown scriptpk => exact absurd hclosing (shutdown_closingless channelId scriptpk env)
      | _ => cases hsigns
  | _ => cases hsigns

theorem handle_closing_opens {ev : ChannelEvent} (hsized : self.redeemFund.Sized)
    (hclosing : Effect.closing ∈ (handle crypto self ev).trace) :
    let after := (handle crypto self ev).self
    ClosingOpens crypto after.fundingOutput after after.closeFeeSat := by
  obtain ⟨channelId, feeSat, signature, env, rfl⟩ := recv_of_closing hclosing
  rw [handle, lnRecv] at hclosing ⊢
  by_cases hinit : self.initFlag.exchanged = true
  · rw [if_pos hinit] at hclosing ⊢
    exact recvClosingSigned_opens hsized hclosing
  · rw [if_neg hinit] at hclosing
    cases hclosing

/-- The output that a channel was funded with is opened by the signatures of both sides and by
nothing else.  Whatever happens on the channel, a transaction with which the node closes it, alone
or together with the peer, spends that output, and the signature that the node makes for it and the
one that the peer has sent open it. -/
theorem closes_openFunding {first state : ChannelState}
    (hstart : (channelSystem crypto).start first)
    (hrun : (channelSystem crypto).RunUnder System.AnyStep first state)
    (hsized : first.self.redeemFund.Sized) :
    (∀ (env : Env) (items : List Item),
      env.spends first.self.redeemFund.script items = true ↔
        ∃ sig1 sig2, items = [[], sig1, sig2] ∧
          env.checkSig sig1 first.self.redeemFund.pub1 = true ∧
          env.checkSig sig2 first.self.redeemFund.pub2 = true) ∧
    (∀ searchPreimage unilateral,
      (lnCloseCreateUnilateralTx crypto searchPreimage state.self).1 = some unilateral →
        ∃ bufSig, signCommittx crypto state.self unilateral.build.committx.tx = some bufSig ∧
          OpensFunding crypto first.self.fundingOutput unilateral.build.committx.tx bufSig
            state.self.commitLocal.signature) ∧
    ∀ ev, Effect.closing ∈ (handle crypto state.self ev).trace →
      let after := (handle crypto state.self ev).self
      ClosingOpens crypto first.self.fundingOutput after after.closeFeeSat := by
  have hfunded := (fundedBy_of_run hstart hrun).chan
  have hredeem : state.self.redeemFund.Sized := by
    have hsame : state.self.redeemFund = first.self.redeemFund :=
      congrArg FundingOutput.redeem hfunded
    rw [hsame]
    exact hsized
  refine ⟨fun env items => hsized.spends_iff items, ?_, ?_⟩
  · intro searchPreimage unilateral hclose
    obtain ⟨bufSig, hsign, hopens⟩ := createToLocalClose_opens (by exact hredeem) hclose
    rw [← hfunded]
    exact ⟨bufSig, hsign, hopens⟩
  · intro ev hclosing
    rw [← hfunded, ← handle_fundingOutput crypto state.self ev]
    exact handle_closing_opens hredeem hclosing

/-- A fundee with a closing address. -/
def scriptedClosingFundee : Option Outcome :=
  openedAsFundee .scripted (lnInit (List.replicate 32 1) (symbolicScriptpk 1) false)
    (scriptedOpen 500000000) symbolicPrm (residueKeys 10) symbolicOutpoint
    (residueKeys 20).funding

/-- The peer's `closing_signed`. -/
def scriptedClosingSigned (feeSat : UInt64) : ChannelEvent :=
  .recv symbolicOutpoint.txid (.closingSigned feeSat (residueKeys 20).funding) {}

/-- An HTLC of the peer is committed, fulfilled and removed; then `shutdown` is exchanged and a
first fee proposed. -/
def scriptedClose : List (ChannelState → ChannelLabel) :=
  let cid := symbolicOutpoint.txid
  let point := Crypto.scripted.pub (residueKeys 20).perCommit
  let commit : ChannelEvent := .recv cid (.commitmentSigned (residueKeys 20).funding []) {}
  let revoke (secret : Nat) : ChannelEvent :=
    .recv cid (.revokeAndAck (BigEndian.encode 32 secret) point) {}
  [ .recv cid (.updateAddHtlc 0 500000 (BigEndian.encode 32 5) 100 [])
      { onion := { verdict := .final (List.replicate 32 7) } },
    commit, .idle, revoke 5, .idle, .idle, .idle, revoke 6, commit, .idle,
    symbolicShutdown, scriptedClosingSigned 500 ].map fun ev _ => .event ev

/-- After the negotiation has begun the node can still close the channel alone, and it closes it
together with the peer when the peer agrees to the fee last sent. -/
theorem closes_openFunding_negotiated :
    ∃ (state : ChannelState) (unilateral : UnilateralTx) (own : Bytes),
      (lnCloseCreateUnilateralTx .scripted (fun _ => none) state.self).1 = some unilateral ∧
        signCommittx .scripted state.self unilateral.build.committx.tx = some own ∧
        OpensFunding .scripted state.self.fundingOutput unilateral.build.committx.tx own
          state.self.commitLocal.signature ∧
        let closed := handle .scripted state.self
          (scriptedClosingSigned state.self.closeLastFeeSat)
        Effect.closing ∈ closed.trace ∧
          ClosingOpens .scripted state.self.fundingOutput closed.self closed.self.closeFeeSat := by
  have hopened : (scriptedClosingFundee.bind fun outcome =>
      if outcome.self.redeemFund.pub1.length == 33 && outcome.self.redeemFund.pub2.length == 33 then
        (channelSystem .scripted).trail permitAll (.afterFunding outcome) [] scriptedClose
      else none).any
        (fun final => (lnCloseCreateUnilateralTx .scripted (fun _ => none) final.1.self).1.isSome &&
          (handle .scripted final.1.self
            (scriptedClosingSigned final.1.self.closeLastFeeSat)).trace.any Effect.hands) =
        true := by
    decide +kernel
  obtain ⟨⟨state, past⟩, hfound, hchecked⟩ := (Option.any_eq_true _ _).mp hopened
  obtain ⟨outcome, houtcome, htrail⟩ := Option.bind_eq_some_iff.mp hfound
  split_ifs at htrail with hlengths
  simp only [Bool.and_eq_true, beq_iff_eq] at hlengths
  obtain ⟨hclosed, hhands⟩ := Bool.and_eq_true_iff.mp hchecked
  obtain ⟨unilateral, hclose⟩ := Option.isSome_iff_exists.mp hclosed
  have hclosing : Effect.closing ∈ (handle .scripted state.self
      (scriptedClosingSigned state.self.closeLastFeeSat)).trace := by
    obtain ⟨effect, hmem, heffect⟩ := List.any_eq_true.mp hhands
    cases effect with
    | closing => exact hmem
    | _ => cases heffect
  have hstart : (channelSystem .scripted).start (.afterFunding outcome) :=
    ⟨outcome, .fundee houtcome, rfl⟩
  have hrun := (run_of_trail hstart htrail).2
  obtain ⟨-, halone, htogether⟩ := closes_openFunding hstart hrun ⟨hlengths.1, hlengths.2⟩
  obtain ⟨own, hsign, hopens⟩ := halone _ _ hclose
  have hsame := (fundedBy_of_run hstart hrun).chan
  have htogether := htogether _ hclosing
  rw [← hsame] at hopens htogether
  exact ⟨state, unilateral, own, hclose, hsign, hopens, hclosing, htogether⟩

end Ptarmigan
