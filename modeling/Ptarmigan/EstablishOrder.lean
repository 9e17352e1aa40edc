/-
Which messages of the funding exchange are due, and what the others leave as it was, over the
whole life of a channel.
-/
import Ptarmigan.EstablishRun
import Ptarmigan.FundingAgreement

namespace Ptarmigan

open TransitionSystem WireReader

variable {env : WireEnv} {crypto : Crypto}

/-! ### The law -/

/-- The message is one that may be acted on: it answers what this node has sent, and
`funding_locked` comes before commitment 1. -/
def FundingWorld.Due (world : FundingWorld) : ExchangeMsg → Prop
  | .openChannel .. => True
  | .acceptChannel .. => world.awaited = .acceptChannel
  | .fundingCreated .. => world.awaited = .fundingCreated
  | .fundingSigned .. => world.awaited = .fundingSigned
  | .fundingLocked .. =>
      world.chan.self.commitLocal.commitNum = 0 ∧ world.chan.self.commitRemote.commitNum = 0

/-- The commitment numbers, the secrets, the keys, the funding transaction, the slots and the
status are as before. -/
structure KeptByExchange (before after : LnSelf) : Prop where
  localNums : after.commitLocal.commitNum = before.commitLocal.commitNum ∧
    after.commitLocal.revokeNum = before.commitLocal.revokeNum
  remoteNums : after.commitRemote.commitNum = before.commitRemote.commitNum ∧
    after.commitRemote.revokeNum = before.commitRemote.revokeNum
  privData : after.privData = before.privData
  fundingLocal : after.fundingLocal = before.fundingLocal
  fundingRemote : after.fundingRemote = before.fundingRemote
  fundingSat : after.fundingSat = before.fundingSat
  redeemFund : after.redeemFund = before.redeemFund
  txFundingScript : after.txFundingScript = before.txFundingScript
  slots : after.cnlAddHtlc = before.cnlAddHtlc
  status : after.status = before.status

/-- The handler refuses the message: nothing is saved or sent, and the channel is kept. -/
structure EstablishOutcome.Refuses (chan : Establishing) (outcome : EstablishOutcome) : Prop where
  ret : outcome.ret = false
  trace : outcome.trace = []
  sent : outcome.sent = []
  kept : KeptByExchange chan.self outcome.chan.self

/-- The handler comes to its end and refuses the message. -/
def RefusedBy (chan : Establishing) (result : Option EstablishOutcome) : Prop :=
  ∃ outcome, result = some outcome ∧ outcome.Refuses chan

/-- A message that is not due is refused, and no message is handled through a `p_establish`
that was released. -/
structure FundingWorld.HandlesInOrder (env : WireEnv) (crypto : Crypto) (world : FundingWorld)
    (msg : ExchangeMsg) : Prop where
  released : world.establish = none → world.establishing.recv env crypto msg ≠ none
  undue : ¬ world.Due msg →
    RefusedBy world.establishing (world.establishing.recv env crypto msg)

/-- The step handles its message in order, and no request reaches for a `p_establish` that was
released. -/
def StepInOrder (env : WireEnv) (crypto : Crypto) (world : FundingWorld) : FundingLabel → Prop
  | .recv msg => world.HandlesInOrder env crypto msg
  | .stop msg _ => world.HandlesInOrder env crypto msg
  | .request fundingSat pushSat feeRate tempChannelId priv =>
      world.establish = none → world.establishing.lnOpenChannelCreate env crypto fundingSat
        pushSat feeRate tempChannelId priv ≠ none
  | _ => True

/-! ### When it is kept -/

namespace Establishing

/-- The funding output made for the message would be the one that the channel has, but the
wallet refuses, or the commitment transaction over it cannot be signed. -/
def refusesFunding (crypto : Crypto) (chan : Establishing) (est : LnEstablish)
    (msg : AcceptChannelMsg) : Option FundingOutpoint → Prop
  | none => chan.self.txFundingScript = []
  | some outpoint =>
      outpoint.txid = chan.self.fundingLocal.txid ∧
        outpoint.txindex = chan.self.fundingLocal.txindex ∧
        crypto.sha256 chan.self.redeemFund.script = chan.self.txFundingScript ∧
        signInitialRemote crypto (chan.createdSigner crypto est msg outpoint) = none

/-- `recv_accept_channel` refuses the message, whose keys are the ones the channel has. -/
def refusesAccept (env : WireEnv) (crypto : Crypto) (chan : Establishing) (est : LnEstablish)
    (bytes : Bytes) (outpoint : Option FundingOutpoint) : Prop :=
  match readWith (lnMsgAcceptChannelRead env
    ⟨[], chan.minDepth, { est.cnlAccept with pubkeys := chan.self.fundingRemote.pubkeys }⟩)
    bytes with
  | .fault _ => False
  | .refused msg => msg.body.pubkeys = chan.self.fundingRemote.pubkeys
  | .done msg _ =>
      msg.body.pubkeys = chan.self.fundingRemote.pubkeys ∧
        (msg.tempChannelId = chan.self.channelId →
          est.fundin = true ∧
          chan.self.fundingRemote.prevPercommit = chan.self.fundingRemote.pubkeys.perCommit ∧
          HoldsScriptkeys crypto chan.self ∧
          chan.self.redeemFund = sortedRedeem chan.self.fundingLocal.pubkeys.funding
            chan.self.fundingRemote.pubkeys.funding ∧
          chan.refusesFunding crypto est msg outpoint)

/-- `recv_funding_created` refuses the message, and its outpoint is the one the channel has. -/
def refusesCreated (crypto : Crypto) (chan : Establishing) (est : LnEstablish) (bytes : Bytes) :
    Prop :=
  match readWith lnMsgFundingCreatedRead bytes with
  | .fault _ => False
  | .refused _ => True
  | .done msg _ =>
      msg.outpoint.txid = chan.self.fundingLocal.txid ∧
        (msg.tempChannelId = chan.self.channelId →
          msg.outpoint.txindex = chan.self.fundingLocal.txindex ∧
          crypto.sha256 chan.self.redeemFund.script = chan.self.txFundingScript ∧
          let created := (chan.createdCall crypto est msg).run crypto
          (created.1 = true → signInitialRemote crypto (signedSigner est created.2) = none))

/-- `recv_funding_signed` refuses the message. -/
def refusesSigned (crypto : Crypto) (chan : Establishing) (est : LnEstablish) (bytes : Bytes) :
    Prop :=
  match readWith lnMsgFundingSignedRead bytes with
  | .fault _ => False
  | .refused _ => True
  | .done msg _ =>
      msg.channelId = lnMiscCalcChannelId
          ⟨chan.self.fundingLocal.txid, chan.self.fundingLocal.txindex⟩ →
        ((chan.signedCall est msg).run crypto).1 = false

end Establishing

/-- A message that its handler reads, not being one for the other side of the channel, finds
`p_establish`, and is due or refused with what the channel holds.  A `funding_locked` of the
channel is due. -/
def FundingWorld.TimelyMsg (env : WireEnv) (crypto : Crypto) (world : FundingWorld)
    (msg : ExchangeMsg) : Prop :=
  let chan := world.establishing
  match msg with
  | .openChannel .. =>
      chan.self.isFunder = true ∨ world.funding = true ∨ chan.self.shortChannelId ≠ 0 ∨
        world.establish ≠ none
  | .acceptChannel bytes outpoint =>
      chan.self.isFunder = true → world.Due msg ∨
        ∃ est, world.establish = some est ∧ chan.refusesAccept env crypto est bytes outpoint
  | .fundingCreated bytes _ =>
      chan.self.isFunder = false → world.Due msg ∨
        ∃ est, world.establish = some est ∧ chan.refusesCreated crypto est bytes
  | .fundingSigned bytes _ =>
      chan.self.isFunder = true → world.Due msg ∨
        ∃ est, world.establish = some est ∧ chan.refusesSigned crypto est bytes
  | .fundingLocked channelId _ => channelId = chan.self.channelId → world.Due msg

/-- The condition on a step. -/
def TimelyStep (env : WireEnv) (crypto : Crypto) (world : FundingWorld) : FundingLabel → Prop
  | .recv msg => world.TimelyMsg env crypto msg
  | .stop msg _ => world.TimelyMsg env crypto msg
  | .request .. => world.funding = true ∨ world.establish ≠ none
  | _ => True

/-! ### The handlers when they refuse -/

theorem KeptByExchange.refl (self : LnSelf) : KeptByExchange self self :=
  ⟨⟨rfl, rfl⟩, ⟨rfl, rfl⟩, rfl, rfl, rfl, rfl, rfl, rfl, rfl, rfl⟩

/-- A funding output written over the one of the channel. -/
theorem kept_setFunding {before after : LnSelf} {txid script : Bytes} {txindex : UInt16}
    (hlocal : after.fundingLocal = { before.fundingLocal with txid, txindex })
    (hscript : after.txFundingScript = script)
    (hrest : KeptByExchange before { after with
      fundingLocal := before.fundingLocal
      txFundingScript := before.txFundingScript }) :
    KeptByExchange before after ↔ txid = before.fundingLocal.txid ∧
      txindex = before.fundingLocal.txindex ∧ script = before.txFundingScript := by
  constructor
  · intro hkept
    have hsame := hlocal.symm.trans hkept.fundingLocal
    exact ⟨congrArg LnFundingLocalData.txid hsame, congrArg LnFundingLocalData.txindex hsame,
      hscript.symm.trans hkept.txFundingScript⟩
  · rintro ⟨rfl, rfl, hsame⟩
    exact { hrest with
      fundingLocal := hlocal
      txFundingScript := hscript.trans hsame }

/-- Without HTLC signatures `create_to_local` writes the id and the number of HTLCs of the
local transaction only. -/
theorem ToLocalCall.run_changes {call : ToLocalCall} {verified : Bool} {self : LnSelf}
    (hrun : call.run crypto = (verified, self)) : ∃ txid htlcNum,
      self = { call.self with commitLocal := { call.self.commitLocal with txid, htlcNum } } := by
  have hself : self = (call.run crypto).2 := by rw [hrun]
  rw [hself, ToLocalCall.run]
  simp only [createToLocal]
  split
  · exact ⟨_, _, rfl⟩
  · split
    · exact ⟨_, _, rfl⟩
    · exact ⟨_, _, rfl⟩

namespace Establishing

variable {chan : Establishing} {est : LnEstablish} {bytes : Bytes}

@[simp] theorem refusedBy_none : RefusedBy chan none ↔ False := by
  simp [RefusedBy]

@[simp] theorem refusedBy_some {outcome : EstablishOutcome} :
    RefusedBy chan (some outcome) ↔ outcome.Refuses chan := by
  simp [RefusedBy]

@[simp] theorem reject_refuses {left : Establishing} :
    left.reject.Refuses chan ↔ KeptByExchange chan.self left.self :=
  ⟨fun hrefuses => hrefuses.kept, fun hkept => ⟨rfl, rfl, rfl, hkept⟩⟩

theorem not_refuses_accepted {left : Establishing} {trace : List Effect} {sent : List Bytes} :
    ¬ EstablishOutcome.Refuses chan ⟨true, left, trace, sent⟩ :=
  fun hrefuses => absurd hrefuses.ret (by simp)

theorem recvFundingLocked_refuses {channelId perCommitpt : Bytes} :
    (chan.recvFundingLocked crypto channelId perCommitpt).Refuses chan ↔
      channelId ≠ chan.self.channelId := by
  by_cases hid : channelId = chan.self.channelId
  · have haccepts : (Ptarmigan.recvFundingLocked crypto chan.self channelId perCommitpt).ret =
        true := by
      rw [Ptarmigan.recvFundingLocked, if_neg (not_not_intro hid)]
    rw [Establishing.recvFundingLocked]
    simp only [haccepts, if_true]
    exact ⟨fun hrefuses => absurd hrefuses not_refuses_accepted,
      fun hother => absurd hid hother⟩
  · have hrefuses : Ptarmigan.recvFundingLocked crypto chan.self channelId perCommitpt =
        .reject chan.self := if_pos hid
    simp only [Establishing.recvFundingLocked, hrefuses, Outcome.reject, Bool.false_eq_true,
      if_false, reject_refuses]
    exact ⟨fun _ => hid, fun _ => .refl _⟩

theorem recvFundingSigned_refuses {accepts : Bool} (hfunder : chan.self.isFunder = true)
    (hest : chan.establish = some est) :
    RefusedBy chan (chan.recvFundingSigned crypto bytes accepts) ↔
      chan.refusesSigned crypto est bytes := by
  rw [recvFundingSigned, if_neg (by simp [hfunder]), hest, Option.bind_some, refusesSigned]
  cases hread : readWith lnMsgFundingSignedRead bytes with
  | fault reason => simp
  | refused left => simpa using KeptByExchange.refl chan.self
  | done msg pos =>
      simp only
      by_cases hid : msg.channelId = lnMiscCalcChannelId
          ⟨chan.self.fundingLocal.txid, chan.self.fundingLocal.txindex⟩
      · rw [if_neg (not_not_intro hid)]
        split
        next self hfails =>
          have hrun : (chan.signedCall est msg).run crypto = (false, self) := hfails
          obtain ⟨txid, htlcNum, rfl⟩ := ToLocalCall.run_changes hrun
          simp only [refusedBy_some, reject_refuses, hrun, implies_true, iff_true]
          exact ⟨⟨rfl, rfl⟩, ⟨rfl, rfl⟩, rfl, rfl, rfl, rfl, rfl, rfl, rfl, rfl⟩
        next self hpasses =>
          have hrun : (chan.signedCall est msg).run crypto = (true, self) := hpasses
          simp [not_refuses_accepted, hid, hrun]
      · rw [if_pos hid]
        simp only [refusedBy_some, reject_refuses, hid, false_implies, iff_true]
        exact ⟨⟨rfl, rfl⟩, ⟨rfl, rfl⟩, rfl, rfl, rfl, rfl, rfl, rfl, rfl, rfl⟩

theorem recvFundingCreated_refuses {accepts : Bool} (hfundee : chan.self.isFunder = false)
    (hest : chan.establish = some est) :
    RefusedBy chan (chan.recvFundingCreated crypto bytes accepts) ↔
      chan.refusesCreated crypto est bytes := by
  rw [recvFundingCreated, if_neg (by simp [hfundee]), hest, Option.bind_some, refusesCreated]
  cases hread : readWith lnMsgFundingCreatedRead bytes with
  | fault reason => simp
  | refused left => simpa using KeptByExchange.refl chan.self
  | done msg pos =>
      simp only
      by_cases hid : msg.tempChannelId = chan.self.channelId
      · rw [if_neg (not_not_intro hid)]
        split
        next self hfails =>
          have hrun : (chan.createdCall crypto est msg).run crypto = (false, self) := hfails
          obtain ⟨txid, htlcNum, rfl⟩ := ToLocalCall.run_changes hrun
          simp only [refusedBy_some, reject_refuses, hrun, hid, Bool.false_eq_true, false_implies,
            and_true, forall_const]
          exact kept_setFunding rfl rfl
            ⟨⟨rfl, rfl⟩, ⟨rfl, rfl⟩, rfl, rfl, rfl, rfl, rfl, rfl, rfl, rfl⟩
        next self hpasses =>
          have hrun : (chan.createdCall crypto est msg).run crypto = (true, self) := hpasses
          obtain ⟨txid, htlcNum, hself⟩ := ToLocalCall.run_changes hrun
          simp only [hrun, hid, forall_const]
          split
          next hsigned =>
            have hunsigned : signInitialRemote crypto (signedSigner est self) = none := hsigned
            simp only [refusedBy_some, reject_refuses, hunsigned, and_true]
            subst hself
            exact kept_setFunding rfl rfl
              ⟨⟨rfl, rfl⟩, ⟨rfl, rfl⟩, rfl, rfl, rfl, rfl, rfl, rfl, rfl, rfl⟩
          next signed hsigned =>
            have hsigned' : signInitialRemote crypto (signedSigner est self) = some signed :=
              hsigned
            simp [not_refuses_accepted, hsigned']
      · rw [if_pos hid]
        simp only [refusedBy_some, reject_refuses, hid, false_implies, and_true]
        have hkept : KeptByExchange chan.self { chan.self with
            fundingLocal := { chan.self.fundingLocal with txid := msg.outpoint.txid }
            commitLocal := { chan.self.commitLocal with signature := msg.signature } } ↔
            msg.outpoint.txid = chan.self.fundingLocal.txid ∧
              chan.self.fundingLocal.txindex = chan.self.fundingLocal.txindex ∧
              chan.self.txFundingScript = chan.self.txFundingScript :=
          kept_setFunding rfl rfl
            ⟨⟨rfl, rfl⟩, ⟨rfl, rfl⟩, rfl, rfl, rfl, rfl, rfl, rfl, rfl, rfl⟩
        simpa using hkept

/-- The keys of the peer written over those of the channel. -/
theorem kept_setPeer {pubkeys : Fundkeys} :
    KeptByExchange chan.self { chan.self with
        fundingRemote := { chan.self.fundingRemote with pubkeys } } ↔
      pubkeys = chan.self.fundingRemote.pubkeys := by
  constructor
  · exact fun hkept => congrArg LnFundingRemoteData.pubkeys hkept.fundingRemote
  · rintro rfl
    exact .refl _

/-- The keys of the peer and a funding output written over those of the channel, with all
that comes of them. -/
theorem kept_taken {before after : LnSelf} {pubkeys : Fundkeys} {txid script : Bytes}
    {txindex : UInt16}
    (hremote : after.fundingRemote =
      { pubkeys
        prevPercommit := pubkeys.perCommit
        scriptpubkeys := scriptkeysOf crypto pubkeys before.fundingLocal.pubkeys })
    (hlocal : after.fundingLocal = { before.fundingLocal with
      txid, txindex
      scriptpubkeys := scriptkeysOf crypto before.fundingLocal.pubkeys pubkeys })
    (hredeem : after.redeemFund =
      sortedRedeem before.fundingLocal.pubkeys.funding pubkeys.funding)
    (hscript : after.txFundingScript = script)
    (hrest : KeptByExchange before { after with
      fundingLocal := before.fundingLocal
      fundingRemote := before.fundingRemote
      redeemFund := before.redeemFund
      txFundingScript := before.txFundingScript }) :
    KeptByExchange before after ↔
      pubkeys = before.fundingRemote.pubkeys ∧
        before.fundingRemote.prevPercommit = before.fundingRemote.pubkeys.perCommit ∧
        HoldsScriptkeys crypto before ∧
        before.redeemFund = sortedRedeem before.fundingLocal.pubkeys.funding
          before.fundingRemote.pubkeys.funding ∧
        txid = before.fundingLocal.txid ∧ txindex = before.fundingLocal.txindex ∧
        script = before.txFundingScript := by
  constructor
  · intro hkept
    have hpeer := hremote.symm.trans hkept.fundingRemote
    have hown := hlocal.symm.trans hkept.fundingLocal
    obtain rfl : pubkeys = before.fundingRemote.pubkeys :=
      congrArg LnFundingRemoteData.pubkeys hpeer
    refine ⟨rfl, ?_, ⟨?_, ?_⟩, ?_, ?_, ?_, ?_⟩
    · exact (congrArg LnFundingRemoteData.prevPercommit hpeer).symm
    · exact (congrArg LnFundingLocalData.scriptpubkeys hown).symm
    · exact (congrArg LnFundingRemoteData.scriptpubkeys hpeer).symm
    · exact hkept.redeemFund.symm.trans hredeem
    · exact congrArg LnFundingLocalData.txid hown
    · exact congrArg LnFundingLocalData.txindex hown
    · exact hscript.symm.trans hkept.txFundingScript
  · rintro ⟨rfl, hprev, hscripts, hsame, rfl, rfl, hfunding⟩
    refine { hrest with
      fundingLocal := ?_
      fundingRemote := ?_
      redeemFund := hredeem.trans hsame.symm
      txFundingScript := hscript.trans hfunding }
    · rw [hlocal, ← hscripts.own]
    · rw [hremote, ← hscripts.peer, ← hprev]

theorem recvAcceptChannel_refuses {outpoint : Option FundingOutpoint}
    (hfunder : chan.self.isFunder = true) (hest : chan.establish = some est) :
    RefusedBy chan (chan.recvAcceptChannel env crypto bytes outpoint) ↔
      chan.refusesAccept env crypto est bytes outpoint := by
  rw [recvAcceptChannel, if_neg (by simp [hfunder]), hest, Option.bind_some, refusesAccept]
  cases hread : readWith (lnMsgAcceptChannelRead env ⟨[], chan.minDepth,
    { est.cnlAccept with pubkeys := chan.self.fundingRemote.pubkeys }⟩) bytes with
  | fault reason => simp
  | refused left => simpa using kept_setPeer
  | done msg pos =>
      by_cases hid : msg.tempChannelId = chan.self.channelId
      · simp only [hid, ne_eq, not_true_eq_false, if_false, forall_const]
        cases hfundin : est.fundin with
        | false => simp
        | true =>
            cases outpoint with
            | none =>
                simp only [createFundingTx, create2of2_eq, Bool.not_true, Bool.false_eq_true,
                  if_false, refusedBy_some, reject_refuses, refusesFunding, true_and]
                refine (@kept_taken crypto chan.self _ msg.body.pubkeys
                  chan.self.fundingLocal.txid [] chan.self.fundingLocal.txindex
                  ?_ ?_ ?_ ?_ ?_).trans ?_
                · rfl
                · rfl
                · rfl
                · rfl
                · exact ⟨⟨rfl, rfl⟩, ⟨rfl, rfl⟩, rfl, rfl, rfl, rfl, rfl, rfl, rfl, rfl⟩
                · simp only [true_and, eq_comm]
            | some outpoint =>
                simp only [createFundingTx, create2of2_eq, Bool.not_true, Bool.false_eq_true,
                  if_false, refusesFunding, true_and]
                split
                next hsigned =>
                  have hunsigned : signInitialRemote crypto
                      (chan.createdSigner crypto est msg outpoint) = none := by
                    rw [createdSigner, createFundingTx, create2of2_eq]
                    exact hsigned
                  simp only [refusedBy_some, reject_refuses, hunsigned, and_true]
                  refine (@kept_taken crypto chan.self _ msg.body.pubkeys outpoint.txid
                    (crypto.sha256 (sortedRedeem chan.self.fundingLocal.pubkeys.funding
                      msg.body.pubkeys.funding).script) outpoint.txindex ?_ ?_ ?_ ?_ ?_).trans ?_
                  · rfl
                  · rfl
                  · rfl
                  · rfl
                  · exact ⟨⟨rfl, rfl⟩, ⟨rfl, rfl⟩, rfl, rfl, rfl, rfl, rfl, rfl, rfl, rfl⟩
                  · refine and_congr_right fun hkeys => and_congr_right fun _ =>
                      and_congr_right fun _ => and_congr_right fun hredeem => ?_
                    rw [hredeem, hkeys]
                next signed hsigned =>
                  have hsigned' : signInitialRemote crypto
                      (chan.createdSigner crypto est msg outpoint) = some signed := by
                    rw [createdSigner, createFundingTx, create2of2_eq]
                    exact hsigned
                  simp [not_refuses_accepted, hsigned']
      · simp only [ne_eq, hid, not_false_eq_true, if_true, refusedBy_some, reject_refuses,
          false_implies, and_true]
        exact kept_setPeer

theorem lnOpenChannelCreate_released {fundingSat pushSat : UInt64} {feeRate : UInt32}
    {tempChannelId : Bytes} {priv : Fundkeys} (hreleased : chan.establish = none) :
    chan.lnOpenChannelCreate env crypto fundingSat pushSat feeRate tempChannelId priv ≠ none ↔
      chan.funding = true := by
  rw [lnOpenChannelCreate, hreleased, Option.bind_none]
  split <;> simp_all

theorem recvOpenChannel_released {latest : UInt32} {priv : Fundkeys}
    (hreleased : chan.establish = none) :
    chan.recvOpenChannel env crypto bytes latest priv ≠ none ↔
      chan.self.isFunder = true ∨ chan.funding = true ∨ chan.self.shortChannelId ≠ 0 := by
  rw [recvOpenChannel, hreleased, Option.bind_none]
  split
  · simp_all
  · split
    · simp_all
    · split <;> simp_all

theorem recvAcceptChannel_released {outpoint : Option FundingOutpoint}
    (hreleased : chan.establish = none) :
    chan.recvAcceptChannel env crypto bytes outpoint ≠ none ↔ chan.self.isFunder = false := by
  rw [recvAcceptChannel, hreleased, Option.bind_none]
  split <;> simp_all

theorem recvFundingCreated_released {accepts : Bool} (hreleased : chan.establish = none) :
    chan.recvFundingCreated crypto bytes accepts ≠ none ↔ chan.self.isFunder = true := by
  rw [recvFundingCreated, hreleased, Option.bind_none]
  split <;> simp_all

theorem recvFundingSigned_released {accepts : Bool} (hreleased : chan.establish = none) :
    chan.recvFundingSigned crypto bytes accepts ≠ none ↔ chan.self.isFunder = false := by
  rw [recvFundingSigned, hreleased, Option.bind_none]
  split <;> simp_all

/-! ### What becomes of `p_establish` -/

/-- Nothing has been done, or there is a `p_establish`. -/
def Holds (chan : Establishing) (outcome : EstablishOutcome) : Prop :=
  outcome = chan.reject ∨ outcome.chan.establish ≠ none

variable {outcome : EstablishOutcome}

theorem Holds.rejected (hsame : some chan.reject = some outcome) : Holds chan outcome :=
  .inl (Option.some.inj hsame).symm

theorem Holds.left {left : EstablishOutcome} (hsame : some left = some outcome)
    (hsome : left.chan.establish ≠ none) : Holds chan outcome :=
  .inr (Option.some.inj hsame ▸ hsome)

theorem lnOpenChannelCreate_holds {fundingSat pushSat : UInt64} {feeRate : UInt32}
    {tempChannelId : Bytes} {priv : Fundkeys}
    (hopened : chan.lnOpenChannelCreate env crypto fundingSat pushSat feeRate tempChannelId priv =
      some outcome) : Holds chan outcome := by
  rw [lnOpenChannelCreate] at hopened
  split at hopened
  · exact .rejected hopened
  obtain ⟨est, _, hopened⟩ := Option.bind_eq_some_iff.mp hopened
  split at hopened
  · exact absurd hopened (by simp)
  split at hopened
  · exact .rejected hopened
  · exact .left hopened (by simp)

theorem recvOpenChannel_holds {latest : UInt32} {priv : Fundkeys}
    (hreceived : chan.recvOpenChannel env crypto bytes latest priv = some outcome) :
    Holds chan outcome := by
  rw [recvOpenChannel] at hreceived
  split at hreceived
  · exact .rejected hreceived
  split at hreceived
  · exact .rejected hreceived
  split at hreceived
  · exact .rejected hreceived
  obtain ⟨est, _, hreceived⟩ := Option.bind_eq_some_iff.mp hreceived
  split at hreceived
  next => exact absurd hreceived (by simp)
  next =>
    exact .left hreceived (by simp [reject])
  next =>
    dsimp only at hreceived
    split at hreceived
    · exact .left hreceived (by simp [reject])
    · exact .left hreceived (by simp)

theorem recvAcceptChannel_holds {outpoint : Option FundingOutpoint}
    (hreceived : chan.recvAcceptChannel env crypto bytes outpoint = some outcome) :
    Holds chan outcome := by
  rw [recvAcceptChannel] at hreceived
  split at hreceived
  · exact .rejected hreceived
  obtain ⟨est, _, hreceived⟩ := Option.bind_eq_some_iff.mp hreceived
  split at hreceived
  next => exact absurd hreceived (by simp)
  next =>
    exact .left hreceived (by simp [reject])
  next =>
    dsimp only at hreceived
    split at hreceived
    · exact .left hreceived (by simp [reject])
    split at hreceived
    · exact absurd hreceived (by simp)
    split at hreceived
    · exact .left hreceived (by simp [reject])
    split at hreceived
    · exact .left hreceived (by simp [reject])
    · exact .left hreceived (by simp)

theorem recvFundingCreated_holds {accepts : Bool}
    (hreceived : chan.recvFundingCreated crypto bytes accepts = some outcome) :
    Holds chan outcome := by
  rw [recvFundingCreated] at hreceived
  split at hreceived
  · exact .rejected hreceived
  obtain ⟨est, hest, hreceived⟩ := Option.bind_eq_some_iff.mp hreceived
  split at hreceived
  next => exact absurd hreceived (by simp)
  next => exact .rejected hreceived
  next =>
    dsimp only at hreceived
    split at hreceived
    · exact .left hreceived (by simp [reject, hest])
    split at hreceived
    · exact .left hreceived (by simp [reject, hest])
    split at hreceived
    · exact .left hreceived (by simp [reject, hest])
    · exact .left hreceived (by simp [hest])

theorem recvFundingSigned_holds {accepts : Bool}
    (hreceived : chan.recvFundingSigned crypto bytes accepts = some outcome) :
    Holds chan outcome := by
  rw [recvFundingSigned] at hreceived
  split at hreceived
  · exact .rejected hreceived
  obtain ⟨est, hest, hreceived⟩ := Option.bind_eq_some_iff.mp hreceived
  split at hreceived
  next => exact absurd hreceived (by simp)
  next => exact .rejected hreceived
  next =>
    dsimp only at hreceived
    split at hreceived
    · exact .left hreceived (by simp [reject, hest])
    split at hreceived
    · exact .left hreceived (by simp [reject, hest])
    · exact .left hreceived (by simp [hest])

/-- Only an accepted `funding_locked` releases `p_establish`. -/
theorem recv_holds {msg : ExchangeMsg} (hreceived : chan.recv env crypto msg = some outcome) :
    Holds chan outcome ∨ outcome.ret = true ∧ msg.next = .nothing := by
  cases msg with
  | openChannel bytes latest priv => exact .inl (recvOpenChannel_holds hreceived)
  | acceptChannel bytes outpoint => exact .inl (recvAcceptChannel_holds hreceived)
  | fundingCreated bytes accepts => exact .inl (recvFundingCreated_holds hreceived)
  | fundingSigned bytes accepts => exact .inl (recvFundingSigned_holds hreceived)
  | fundingLocked channelId perCommitpt =>
      obtain rfl := Option.some.inj hreceived
      rw [Establishing.recvFundingLocked]
      by_cases hret : (Ptarmigan.recvFundingLocked crypto chan.self channelId perCommitpt).ret =
          true
      · exact .inr ⟨by simp only [hret, if_true], rfl⟩
      · exact .inl (.inl (by simp only [hret]; rfl))

end Establishing

/-! ### Runs -/

namespace FundingWorld

variable {world : FundingWorld}

/-- An exchange under way has its `p_establish`. -/
def UnderWay (world : FundingWorld) : Prop :=
  world.awaited ≠ .nothing → world.establish ≠ none

/-- A message that is handled on one side of the channel only, and through `p_establish`. -/
theorem handlesInOrder_iff_of {msg : ExchangeMsg} {reads : Prop} {refuses : LnEstablish → Prop}
    (hdue : world.Due msg → world.establish ≠ none)
    (hother : ¬ reads → RefusedBy world.establishing (world.establishing.recv env crypto msg))
    (hreleased : world.establish = none →
      (world.establishing.recv env crypto msg ≠ none ↔ ¬ reads))
    (hrefuses : ∀ est, reads → world.establish = some est →
      (RefusedBy world.establishing (world.establishing.recv env crypto msg) ↔ refuses est)) :
    world.HandlesInOrder env crypto msg ↔
      (reads → world.Due msg ∨ ∃ est, world.establish = some est ∧ refuses est) := by
  constructor
  · intro hinOrder hreads
    by_cases hundue : world.Due msg
    · exact .inl hundue
    · cases hest : world.establish with
      | none => exact absurd hreads ((hreleased hest).mp (hinOrder.released hest))
      | some est => exact .inr ⟨est, rfl, (hrefuses est hreads hest).mp (hinOrder.undue hundue)⟩
  · intro htimely
    by_cases hreads : reads
    · obtain hmsg | ⟨est, hest, hmsg⟩ := htimely hreads
      · exact ⟨fun hnone => absurd hnone (hdue hmsg), fun hundue => absurd hmsg hundue⟩
      · exact ⟨fun hnone => absurd (hest.symm.trans hnone) (by simp),
          fun _ => (hrefuses est hreads hest).mpr hmsg⟩
    · exact ⟨fun hnone => (hreleased hnone).mpr hreads, fun _ => hother hreads⟩

theorem UnderWay.due (hunderWay : world.UnderWay) {awaited : Awaited}
    (hdue : world.awaited = awaited) (hsome : awaited ≠ .nothing) : world.establish ≠ none :=
  hunderWay (hdue ▸ hsome)

/-- A message is handled in order exactly when it is timely. -/
theorem handlesInOrder_iff (hunderWay : world.UnderWay) (msg : ExchangeMsg) :
    world.HandlesInOrder env crypto msg ↔ world.TimelyMsg env crypto msg := by
  cases msg with
  | openChannel bytes latest priv =>
      have hreleased := fun hnone : world.establish = none =>
        @Establishing.recvOpenChannel_released env crypto world.establishing bytes latest priv hnone
      constructor
      · intro hinOrder
        by_cases hnone : world.establish = none
        · obtain hfunder | hfunding | hscid := (hreleased hnone).mp (hinOrder.released hnone)
          · exact .inl hfunder
          · exact .inr (.inl hfunding)
          · exact .inr (.inr (.inl hscid))
        · exact .inr (.inr (.inr hnone))
      · intro htimely
        refine ⟨fun hnone => (hreleased hnone).mpr ?_, fun hundue => absurd trivial hundue⟩
        obtain hfunder | hfunding | hscid | hsome := htimely
        · exact .inl hfunder
        · exact .inr (.inl hfunding)
        · exact .inr (.inr hscid)
        · exact absurd hnone hsome
  | acceptChannel bytes outpoint =>
      refine handlesInOrder_iff_of (fun hdue => hunderWay.due hdue (by simp)) ?_ ?_ ?_
      · intro hfundee
        rw [Establishing.recv, Establishing.recvAcceptChannel, if_pos (by simp [hfundee])]
        exact Establishing.refusedBy_some.mpr (Establishing.reject_refuses.mpr (.refl _))
      · intro hnone
        rw [Bool.not_eq_true]
        exact Establishing.recvAcceptChannel_released hnone
      · exact fun est hfunder hest => Establishing.recvAcceptChannel_refuses hfunder hest
  | fundingCreated bytes accepts =>
      refine handlesInOrder_iff_of (fun hdue => hunderWay.due hdue (by simp)) ?_ ?_ ?_
      · intro hfunder
        rw [Establishing.recv, Establishing.recvFundingCreated, if_pos (by simpa using hfunder)]
        exact Establishing.refusedBy_some.mpr (Establishing.reject_refuses.mpr (.refl _))
      · intro hnone
        rw [Bool.not_eq_false]
        exact Establishing.recvFundingCreated_released hnone
      · exact fun est hfundee hest => Establishing.recvFundingCreated_refuses hfundee hest
  | fundingSigned bytes accepts =>
      refine handlesInOrder_iff_of (fun hdue => hunderWay.due hdue (by simp)) ?_ ?_ ?_
      · intro hfundee
        rw [Establishing.recv, Establishing.recvFundingSigned, if_pos (by simp [hfundee])]
        exact Establishing.refusedBy_some.mpr (Establishing.reject_refuses.mpr (.refl _))
      · intro hnone
        rw [Bool.not_eq_true]
        exact Establishing.recvFundingSigned_released hnone
      · exact fun est hfunder hest => Establishing.recvFundingSigned_refuses hfunder hest
  | fundingLocked channelId perCommitpt =>
      constructor
      · intro hinOrder hid
        by_contra hundue
        have hrefuses := Establishing.refusedBy_some.mp (hinOrder.undue hundue)
        exact Establishing.recvFundingLocked_refuses.mp hrefuses hid
      · intro htimely
        refine ⟨fun _ => by simp [Establishing.recv], fun hundue => ?_⟩
        exact Establishing.refusedBy_some.mpr
          (Establishing.recvFundingLocked_refuses.mpr fun hid => hundue (htimely hid))

theorem underWay_of_nothing (hnothing : world.awaited = .nothing) : world.UnderWay :=
  fun hawaits => absurd hnothing hawaits

theorem underWay_of_some (hsome : world.establish ≠ none) : world.UnderWay :=
  fun _ => hsome

theorem UnderWay.congr {world' : FundingWorld} (hunderWay : world.UnderWay)
    (hestablish : world'.establish = world.establish) (hawaited : world'.awaited = world.awaited) :
    world'.UnderWay := by
  rw [UnderWay, hestablish, hawaited]
  exact hunderWay

@[simp] theorem noteSaves_establish (trace : List Effect) :
    (world.noteSaves trace).establish = world.establish := by
  rw [noteSaves]
  split <;> rfl

@[simp] theorem noteSaves_awaited (trace : List Effect) :
    (world.noteSaves trace).awaited = world.awaited := by
  rw [noteSaves]
  split <;> rfl

theorem handled_underWay (hunderWay : world.UnderWay) {awaited : Awaited}
    {result : Option EstablishOutcome}
    (hresult : ∀ outcome, result = some outcome →
      Establishing.Holds world.establishing outcome ∨ outcome.ret = true ∧ awaited = .nothing) :
    (world.handled awaited result).UnderWay := by
  cases result with
  | none => exact underWay_of_nothing rfl
  | some outcome =>
      obtain (rfl | hsome) | ⟨hret, hnothing⟩ := hresult outcome rfl
      · exact hunderWay.congr (by simp [handled, perform, hold, Establishing.reject, establishing])
          (by simp [handled, perform, hold, Establishing.reject])
      · exact underWay_of_some (by simpa [handled, perform, hold] using hsome)
      · exact underWay_of_nothing (by simp [handled, hret, hnothing])

theorem stopped_underWay {done : Nat} {result : Option EstablishOutcome} :
    (world.stopped done result).UnderWay := by
  cases result with
  | none => exact underWay_of_nothing rfl
  | some outcome => exact underWay_of_nothing rfl

end FundingWorld

open FundingWorld in
theorem fundingNext_underWay {before after : FundingWorld} {label : FundingLabel}
    (hunderWay : before.UnderWay) (hnext : fundingNext env crypto before label = some after) :
    after.UnderWay := by
  cases label with
  | request fundingSat pushSat feeRate tempChannelId priv =>
      simp only [fundingNext] at hnext
      split at hnext
      · obtain rfl := Option.some.inj hnext
        exact handled_underWay hunderWay fun outcome hopened =>
          .inl (Establishing.lnOpenChannelCreate_holds hopened)
      · cases hnext
  | recv msg =>
      simp only [fundingNext] at hnext
      split at hnext
      · obtain rfl := Option.some.inj hnext
        exact handled_underWay hunderWay fun outcome hreceived =>
          Establishing.recv_holds hreceived
      · cases hnext
  | stop msg done =>
      simp only [fundingNext] at hnext
      split at hnext
      · obtain rfl := Option.some.inj hnext
        exact stopped_underWay
      · cases hnext
  | error =>
      simp only [fundingNext] at hnext
      split at hnext
      · obtain rfl := Option.some.inj hnext
        exact underWay_of_nothing rfl
      · cases hnext
  | confirmed shortChannelId =>
      simp only [fundingNext] at hnext
      split at hnext
      · obtain rfl := Option.some.inj hnext
        exact hunderWay.congr (by simp [perform]) (by simp [perform])
      · cases hnext
  | release =>
      simp only [fundingNext] at hnext
      split at hnext
      · obtain rfl := Option.some.inj hnext
        exact underWay_of_nothing rfl
      · cases hnext
  | channel label =>
      simp only [fundingNext] at hnext
      split at hnext
      · obtain ⟨chan, _, rfl⟩ := Option.map_eq_some_iff.mp hnext
        exact hunderWay.congr (by simp) (by simp)
      · cases hnext
  | connect seed scriptpk dataloss est =>
      simp only [fundingNext, FundingWorld.connect] at hnext
      obtain ⟨chan, _, rfl⟩ := Option.map_eq_some_iff.mp hnext
      exact underWay_of_nothing rfl

/-- A step is in order exactly when it is timely. -/
theorem stepInOrder_iff {world : FundingWorld} (hunderWay : world.UnderWay)
    (label : FundingLabel) :
    StepInOrder env crypto world label ↔ TimelyStep env crypto world label := by
  cases label with
  | request fundingSat pushSat feeRate tempChannelId priv =>
      constructor
      · intro hinOrder
        by_cases hnone : world.establish = none
        · exact .inl ((Establishing.lnOpenChannelCreate_released hnone).mp (hinOrder hnone))
        · exact .inr hnone
      · intro htimely hnone
        exact (Establishing.lnOpenChannelCreate_released hnone).mpr
          (htimely.resolve_right (not_not_intro hnone))
  | recv msg => exact FundingWorld.handlesInOrder_iff hunderWay msg
  | stop msg done => exact FundingWorld.handlesInOrder_iff hunderWay msg
  | error => exact Iff.rfl
  | confirmed shortChannelId => exact Iff.rfl
  | release => exact Iff.rfl
  | channel label => exact Iff.rfl
  | connect seed scriptpk dataloss est => exact Iff.rfl

theorem underWay_start {world : FundingWorld} (hstart : (fundingSystem env crypto).start world) :
    world.UnderWay := by
  obtain ⟨seed, scriptpk, dataloss, est, rfl⟩ := hstart
  exact FundingWorld.underWay_of_nothing rfl

/-- The message is one that this side handles in its turn, or one for the other side. -/
def inTurn (world : FundingWorld) : FundingLabel → Bool
  | .request .. => world.establish.isSome
  | .recv (.acceptChannel ..) => world.awaited == .acceptChannel
  | .recv (.fundingCreated ..) => world.chan.self.isFunder
  | .recv (.fundingSigned ..) => world.awaited == .fundingSigned
  | .recv (.fundingLocked ..) =>
      world.chan.self.commitLocal.commitNum == 0 && world.chan.self.commitRemote.commitNum == 0
  | .confirmed _ => true
  | .connect .. => true
  | _ => false

theorem timely_of_inTurn {world : FundingWorld} {label : FundingLabel}
    (hturn : inTurn world label = true) : TimelyStep env crypto world label := by
  cases label with
  | request => exact .inr (Option.isSome_iff_ne_none.mp hturn)
  | recv msg =>
      cases msg with
      | openChannel => cases hturn
      | acceptChannel => exact fun _ => .inl (eq_of_beq hturn)
      | fundingCreated => exact fun hfundee => absurd (hfundee.symm.trans hturn) (by simp)
      | fundingSigned => exact fun _ => .inl (eq_of_beq hturn)
      | fundingLocked =>
          simp only [inTurn, Bool.and_eq_true, beq_iff_eq] at hturn
          exact fun _ => hturn
  | confirmed => exact trivial
  | connect => exact trivial
  | _ => cases hturn

namespace SizedExchange

def funderEst : LnEstablish where
  estprm := sizedFunderPrm
  minDepth := 3
  fundin := false
  cnlOpen := symbolicOpen 0 0
  cnlAccept := Establishing.acceptChannelOf sizedFunderPrm (symbolicKeys 0)

/-- The funder of the exchange, just connected. -/
def funderWorld : FundingWorld :=
  .fresh (List.replicate 32 3) [] false funderEst

def request : FundingLabel :=
  .request 1000000 1000 1000 (List.replicate 32 9) (symbolicKeys 3)

/-- A `funding_created` ends the first connection of the funder; over the second one the
channel is established. -/
def funderScript : List (FundingWorld → FundingLabel) :=
  [fun _ => request, fun _ => .recv (.fundingCreated fundingCreated true),
    fun _ => .connect (List.replicate 32 3) [] false funderEst, fun _ => request,
    fun _ => .recv (.acceptChannel acceptChannel (some symbolicOutpoint)),
    fun _ => .recv (.fundingSigned fundingSigned true), fun _ => .confirmed 11,
    fun world => .recv (.fundingLocked world.chan.self.channelId (symbolicKeys 1).perCommit)]

end SizedExchange

end Ptarmigan
