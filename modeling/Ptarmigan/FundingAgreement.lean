/-
The funding exchange between two nodes that run this code: both come to hold the same channel, and
what one of them signs as the first commitment of the other is what the other verifies.
-/
import Ptarmigan.Funding
import Ptarmigan.ChannelRun
import Ptarmigan.ClosingTx

namespace Ptarmigan

open WireReader

variable {env : WireEnv} {crypto : Crypto}

/-! ### Two ends of a channel -/

/-- The keys of the scripts of one side, from its keys and those of the other. -/
def scriptkeysOf (crypto : Crypto) (own peer : Fundkeys) : Scriptkeys where
  remotekey := crypto.derkeyPubkey peer.payment own.perCommit
  delayed := crypto.derkeyPubkey own.delayed own.perCommit
  revocation := crypto.derkeyRevocationkey peer.revocation own.perCommit
  localHtlckey := crypto.derkeyPubkey own.htlc own.perCommit
  remoteHtlckey := crypto.derkeyPubkey peer.htlc own.perCommit

/-- The script keys are those of the keys. -/
structure HoldsScriptkeys (crypto : Crypto) (party : LnSelf) : Prop where
  own : party.fundingLocal.scriptpubkeys =
    scriptkeysOf crypto party.fundingLocal.pubkeys party.fundingRemote.pubkeys
  peer : party.fundingRemote.scriptpubkeys =
    scriptkeysOf crypto party.fundingRemote.pubkeys party.fundingLocal.pubkeys

/-- The keys of the 2-of-2 are the two funding keys. -/
structure HoldsTwoOfTwo (party : LnSelf) : Prop where
  own : party.ownFundingKey = party.fundingLocal.pubkeys.funding
  peer : party.peerFundingKey = party.fundingRemote.pubkeys.funding

/-- Two ends of one channel before its first commitments. -/
structure Facing (crypto : Crypto) (near far : LnSelf) : Prop where
  roles : far.isFunder = !near.isFunder
  txid : far.fundingLocal.txid = near.fundingLocal.txid
  txindex : far.fundingLocal.txindex = near.fundingLocal.txindex
  fundingSat : far.fundingSat = near.fundingSat
  redeemFund : far.redeemFund = near.redeemFund
  feeratePerKw : far.feeratePerKw = near.feeratePerKw
  obscured : far.obscured = near.obscured
  ourMsat : far.ourMsat = near.theirMsat
  theirMsat : far.theirMsat = near.ourMsat
  ownKeys : far.fundingLocal.pubkeys = near.fundingRemote.pubkeys
  peerKeys : far.fundingRemote.pubkeys = near.fundingLocal.pubkeys
  scriptkeys : HoldsScriptkeys crypto near ∧ HoldsScriptkeys crypto far
  twoOfTwo : HoldsTwoOfTwo near ∧ HoldsTwoOfTwo far
  idle : (∀ idx, (near.cnlAddHtlc idx).enable = false) ∧ ∀ idx, (far.cnlAddHtlc idx).enable = false

variable {near far self : LnSelf}

theorem Facing.symm (hfacing : Facing crypto near far) : Facing crypto far near where
  roles := by rw [hfacing.roles, Bool.not_not]
  txid := hfacing.txid.symm
  txindex := hfacing.txindex.symm
  fundingSat := hfacing.fundingSat.symm
  redeemFund := hfacing.redeemFund.symm
  feeratePerKw := hfacing.feeratePerKw.symm
  obscured := hfacing.obscured.symm
  ourMsat := hfacing.theirMsat.symm
  theirMsat := hfacing.ourMsat.symm
  ownKeys := hfacing.peerKeys.symm
  peerKeys := hfacing.ownKeys.symm
  scriptkeys := hfacing.scriptkeys.symm
  twoOfTwo := hfacing.twoOfTwo.symm
  idle := hfacing.idle.symm

/-- Without an HTLC the balances are those of the channel. -/
theorem htlcinfoAmount_idle (select : HtlcSelect) {slots : Slots} (selfMsat peerMsat : UInt64)
    (hidle : ∀ idx, (slots idx).enable = false) :
    select.htlcinfoAmount slots selfMsat peerMsat = ⟨[], selfMsat, peerMsat⟩ := by
  have hadd : ∀ acc idx, select.addSlot slots acc idx = acc := by
    intro acc idx
    rw [HtlcSelect.addSlot, hidle idx]
    rfl
  have hfold : ∀ (idxs : List HtlcIdx) acc, idxs.foldl (select.addSlot slots) acc = acc := by
    intro idxs
    induction idxs with
    | nil => exact fun _ => rfl
    | cons idx rest ih =>
        intro acc
        rw [List.foldl_cons, hadd, ih]
  exact hfold _ _

/-- The commitment transaction that an end builds for the other is the one that the other builds
for itself. -/
theorem Facing.buildToLocal_eq (hfacing : Facing crypto near far) (commitNum : UInt64)
    (dustLimitSat : UInt64) :
    (buildToLocal crypto far commitNum near.commitLocal.toSelfDelay dustLimitSat).committx =
      (buildToRemote crypto near commitNum dustLimitSat).committx := by
  have hown : far.fundingLocal.scriptpubkeys = near.fundingRemote.scriptpubkeys := by
    rw [hfacing.scriptkeys.2.own, hfacing.scriptkeys.1.peer, hfacing.ownKeys, hfacing.peerKeys]
  simp only [buildToLocal, buildToRemote, createToLocalHtlcinfoAmount, createToRemoteHtlcinfo,
    htlcinfoAmount_idle _ _ _ hfacing.idle.1, htlcinfoAmount_idle _ _ _ hfacing.idle.2, hown,
    hfacing.roles, hfacing.txid, hfacing.txindex, hfacing.fundingSat, hfacing.redeemFund,
    hfacing.feeratePerKw, hfacing.obscured, hfacing.ourMsat, hfacing.theirMsat]

/-- Without an HTLC no output of a commitment transaction is one. -/
theorem htlcVouts_idle (cmt : LnScriptCommittx) (isLocal : Bool) (hnone : cmt.htlcinfo = []) :
    htlcVouts (lnScriptCommittxCreate crypto cmt isLocal).vout = [] := by
  rw [htlcVouts, List.filterMap_eq_nil_iff]
  intro out hmem
  obtain ⟨vout, index⟩ := out
  have hvout : vout ∈ (lnScriptCommittxCreate crypto cmt isLocal).vout :=
    List.fst_mem_of_mem_zipIdx hmem
  rcases committx_vout_cases hvout with ⟨hopt, _⟩ | ⟨hopt, _⟩ | ⟨info, hinfo, _⟩
  · simp only [hopt]
  · simp only [hopt]
  · rw [hnone] at hinfo
    exact absurd hinfo List.not_mem_nil

/-- An initial signature is one over the commitment transaction of the other side. -/
theorem signInitialRemote_eq (hidle : ∀ idx, (self.cnlAddHtlc idx).enable = false)
    {signed : LnSelf} (hsigned : signInitialRemote crypto self = some signed) :
    let tx := (buildToRemote crypto self 0 self.commitRemote.dustLimitSat).committx.tx
    tx.isValid = true ∧ signed = { self with
      commitRemote := { self.commitRemote with
        txid := crypto.txid tx
        signature := crypto.sign self.privData.priv.funding
          (crypto.sighash tx self.fundingSat self.redeemFund.script)
        htlcNum := 0 } } := by
  have houts : htlcVouts
      (buildToRemote crypto self 0 self.commitRemote.dustLimitSat).committx.vout =
      [] := by
    apply htlcVouts_idle
    simp only [createToRemoteHtlcinfo, htlcinfoAmount_idle _ _ _ hidle, List.map_nil]
  rw [signInitialRemote, createToRemote, signCommittx, calcSighashP2wsh] at hsigned
  simp only [houts] at hsigned
  by_cases hvalid : (buildToRemote crypto self 0
      self.commitRemote.dustLimitSat).committx.tx.isValid = true
  · rw [if_pos hvalid] at hsigned
    exact ⟨hvalid, (Option.some_inj.mp hsigned).symm⟩
  · rw [if_neg hvalid] at hsigned
    exact absurd hsigned (by simp)

/-- What is verified with the signature of the other side over the same transaction verifies. -/
theorem Facing.createToLocal_eq (hfacing : Facing crypto near far) (hsound : crypto.Sound)
    (hscript : crypto.sha256 far.redeemFund.script = far.txFundingScript)
    (hnear : crypto.priv2pub near.privData.priv.funding = some near.ownFundingKey)
    (hfar : crypto.priv2pub far.privData.priv.funding = some far.ownFundingKey)
    {commitNum dustLimitSat : UInt64} {tx : BtcTx}
    (htx : (buildToRemote crypto near commitNum dustLimitSat).committx.tx = tx)
    (hvalid : tx.isValid = true)
    (hsignature : far.commitLocal.signature = crypto.sign near.privData.priv.funding
      (crypto.sighash tx near.fundingSat near.redeemFund.script)) :
    createToLocal crypto far [] commitNum near.commitLocal.toSelfDelay dustLimitSat =
      (true, { far with
        commitLocal := { far.commitLocal with txid := crypto.txid tx, htlcNum := 0 } }) := by
  have hbuild := hfacing.buildToLocal_eq commitNum dustLimitSat
  have hlocal : (buildToLocal crypto far commitNum near.commitLocal.toSelfDelay
      dustLimitSat).committx.tx = tx := by
    rw [hbuild, htx]
  have houts : htlcVouts (buildToLocal crypto far commitNum near.commitLocal.toSelfDelay
      dustLimitSat).committx.vout = [] := by
    apply htlcVouts_idle
    simp only [createToLocalHtlcinfoAmount, htlcinfoAmount_idle _ _ _ hfacing.idle.2, List.map_nil]
  have hkeys : far.peerFundingKey = near.ownFundingKey := by
    rw [hfacing.twoOfTwo.2.peer, hfacing.twoOfTwo.1.own, hfacing.peerKeys]
  have hverify : createToLocalSignVerify crypto far tx (crypto.sign far.privData.priv.funding
      (crypto.sighash tx far.fundingSat far.redeemFund.script)) = true := by
    apply (createToLocalSignVerify_iff far _ hvalid hscript).mpr
    refine ⟨hsound _ _ _ hfar, ?_⟩
    rw [hsignature, hkeys, hfacing.fundingSat, hfacing.redeemFund]
    exact hsound _ _ _ hnear
  rw [createToLocal]
  simp only [hlocal, signCommittx, calcSighashP2wsh, hvalid, if_true, Option.map_some, hverify,
    createToLocalSpent, houts]
  rfl

/-! ### The 2-of-2 -/

/-- The two keys of the 2-of-2 in the order of `memcmp`. -/
def sortedRedeem (own peer : Bytes) : RedeemFund :=
  if memcmpGt peer own then ⟨own, peer⟩ else ⟨peer, own⟩

/-- Both sides sort the keys the same way. -/
theorem sortedRedeem_comm (own peer : Bytes) : sortedRedeem own peer = sortedRedeem peer own := by
  rw [sortedRedeem, sortedRedeem]
  by_cases hpeer : memcmpGt peer own = true
  · have hown : ¬ memcmpGt own peer = true := by
      rw [memcmpGt_iff] at hpeer ⊢
      exact hpeer.asymm
    rw [if_pos hpeer, if_neg hown]
  · by_cases hown : memcmpGt own peer = true
    · rw [if_neg hpeer, if_pos hown]
    · have hsame : own = peer := by
        rw [memcmpGt_iff] at hpeer hown
        exact (List.map_inj_right fun _ _ => UInt8.toNat_inj.mp).mp
          (le_antisymm (not_lt.mp hown) (not_lt.mp hpeer))
      rw [hsame]

theorem create2of2_eq (self : LnSelf) :
    self.create2of2 = { self with
      redeemFund := sortedRedeem self.fundingLocal.pubkeys.funding
        self.fundingRemote.pubkeys.funding
      keyFundSortAsc := memcmpGt self.fundingRemote.pubkeys.funding
        self.fundingLocal.pubkeys.funding } := by
  rw [LnSelf.create2of2, sortedRedeem]
  by_cases hsort : memcmpGt self.fundingRemote.pubkeys.funding
      self.fundingLocal.pubkeys.funding = true
  · rw [if_pos hsort, if_pos hsort, hsort]
  · rw [if_neg hsort, if_neg hsort, Bool.eq_false_iff.mpr hsort]

theorem holdsTwoOfTwo_of_sorted
    (hredeem : self.redeemFund = sortedRedeem self.fundingLocal.pubkeys.funding
      self.fundingRemote.pubkeys.funding)
    (hsort : self.keyFundSortAsc = memcmpGt self.fundingRemote.pubkeys.funding
      self.fundingLocal.pubkeys.funding) : HoldsTwoOfTwo self := by
  constructor
  · rw [LnSelf.ownFundingKey, hredeem, hsort, sortedRedeem]
    split <;> rfl
  · rw [LnSelf.peerFundingKey, hredeem, hsort, sortedRedeem]
    split <;> rfl

/-! ### What the handlers sign and verify -/

/-- A call of `create_to_local` for commitment 0. -/
structure ToLocalCall where
  self : LnSelf
  toSelfDelay : UInt16
  dustLimitSat : UInt64

/-- The transaction that the call builds. -/
def ToLocalCall.tx (crypto : Crypto) (call : ToLocalCall) : BtcTx :=
  (buildToLocal crypto call.self 0 call.toSelfDelay call.dustLimitSat).committx.tx

def ToLocalCall.run (crypto : Crypto) (call : ToLocalCall) : Bool × LnSelf :=
  createToLocal crypto call.self [] 0 call.toSelfDelay call.dustLimitSat

/-- The transaction that `create_to_remote` builds for commitment 0. -/
def toRemoteTx (crypto : Crypto) (self : LnSelf) : BtcTx :=
  (buildToRemote crypto self 0 self.commitRemote.dustLimitSat).committx.tx

namespace Establishing

variable (env crypto) (chan : Establishing) (est : LnEstablish)

/-- The state in which `recv_accept_channel` signs. -/
def createdSigner (msg : AcceptChannelMsg) (outpoint : FundingOutpoint) : LnSelf :=
  let self := LnSelf.updateScriptkeys crypto { chan.self with
    commitRemote := { chan.self.commitRemote with
      dustLimitSat := msg.body.dustLimitSat
      maxHtlcValueInFlightMsat := msg.body.maxHtlcValueInFlightMsat
      channelReserveSat := msg.body.channelReserveSat
      htlcMinimumMsat := msg.body.htlcMinimumMsat
      toSelfDelay := msg.body.toSelfDelay
      maxAcceptedHtlcs := msg.body.maxAcceptedHtlcs }
    fundingRemote := { chan.self.fundingRemote with
      pubkeys := msg.body.pubkeys
      prevPercommit := msg.body.pubkeys.perCommit } }
  let self := (createFundingTx crypto self (some outpoint)).2
  { self with
    obscured := lnScriptCalcObscuredTxnum crypto self.fundingLocal.pubkeys.payment
      self.fundingRemote.pubkeys.payment
    commitLocal := { self.commitLocal with toSelfDelay := est.cnlOpen.toSelfDelay } }

/-- What `recv_funding_created` verifies. -/
def createdCall (msg : FundingCreatedMsg) : ToLocalCall where
  self := LnSelf.setFunding crypto { chan.self with
    fundingLocal := { chan.self.fundingLocal with txid := msg.outpoint.txid }
    commitLocal := { chan.self.commitLocal with signature := msg.signature } } msg.outpoint
  toSelfDelay := est.cnlOpen.toSelfDelay
  dustLimitSat := est.cnlAccept.dustLimitSat

/-- The state in which `recv_funding_created` signs. -/
def signedSigner (verified : LnSelf) : LnSelf :=
  { verified with
    commitLocal := { verified.commitLocal with toSelfDelay := est.cnlAccept.toSelfDelay }
    commitRemote := { verified.commitRemote with dustLimitSat := est.cnlOpen.dustLimitSat } }

/-- What `recv_funding_signed` verifies. -/
def signedCall (msg : FundingSignedMsg) : ToLocalCall where
  self := { chan.self with
    commitLocal := { chan.self.commitLocal with signature := msg.signature }
    channelId := lnMiscCalcChannelId
      ⟨chan.self.fundingLocal.txid, chan.self.fundingLocal.txindex⟩ }
  toSelfDelay := est.cnlAccept.toSelfDelay
  dustLimitSat := est.cnlOpen.dustLimitSat

/-! ### The handlers when they send -/

variable {env crypto chan} {outcome : EstablishOutcome} {sent : Bytes}

theorem reject_sent (chan : Establishing) (sent : Bytes) : chan.reject.sent ≠ [sent] := by
  simp [reject]

theorem lnOpenChannelCreate_sent {fundingSat pushSat : UInt64} {feeRate : UInt32}
    {tempChannelId : Bytes} {priv : Fundkeys}
    (hopened : chan.lnOpenChannelCreate env crypto fundingSat pushSat feeRate tempChannelId priv =
      some outcome) (hsent : outcome.sent = [sent]) :
    ∃ est self, chan.establish = some est ∧
      Ptarmigan.lnOpenChannelCreate crypto chan.self est.estprm fundingSat pushSat feeRate
        tempChannelId priv = some self ∧
      outcome.chan = { chan with
        self
        funding := true
        establish := some { est with
          fundin := true
          cnlOpen := openChannelOf est.estprm fundingSat pushSat feeRate
            self.fundingLocal.pubkeys } } ∧
      lnMsgOpenChannelCreate env ⟨self.channelId, openChannelOf est.estprm fundingSat pushSat
        feeRate self.fundingLocal.pubkeys, 1⟩ = some sent := by
  rw [Establishing.lnOpenChannelCreate] at hopened
  split at hopened
  next =>
    obtain rfl := Option.some_inj.mp hopened
    exact absurd hsent (reject_sent _ _)
  obtain ⟨est, hest, hopened⟩ := Option.bind_eq_some_iff.mp hopened
  split at hopened
  next => exact absurd hopened (by simp)
  split at hopened
  next =>
    obtain rfl := Option.some_inj.mp hopened
    exact absurd hsent (reject_sent _ _)
  next self hself =>
    obtain rfl := Option.some_inj.mp hopened
    exact ⟨est, self, hest, hself, rfl, Option.toList_eq_singleton_iff.mp hsent⟩

theorem recvOpenChannel_sent {bytes : Bytes} {latest : UInt32} {priv : Fundkeys}
    (hreceived : chan.recvOpenChannel env crypto bytes latest priv = some outcome)
    (hsent : outcome.sent = [sent]) :
    ∃ est msg pos self, chan.establish = some est ∧
      readWith (lnMsgOpenChannelRead env ⟨chan.self.channelId,
        { est.cnlOpen with pubkeys := chan.self.fundingRemote.pubkeys }, 0⟩) bytes =
          .done msg pos ∧
      Ptarmigan.recvOpenChannel crypto { chan.self with
        channelId := msg.tempChannelId
        fundingRemote := { chan.self.fundingRemote with pubkeys := msg.body.pubkeys }
        feeratePerKw := latest } msg.body est.estprm priv = some self ∧
      outcome.chan =
        { self, funding := true, minDepth := est.minDepth
          establish := some { est with
            cnlOpen := msg.body
            cnlAccept := acceptChannelOf est.estprm self.fundingLocal.pubkeys } } ∧
      lnMsgAcceptChannelCreate env ⟨self.channelId, est.minDepth,
        acceptChannelOf est.estprm self.fundingLocal.pubkeys⟩ = some sent := by
  rw [Establishing.recvOpenChannel] at hreceived
  split at hreceived
  next =>
    obtain rfl := Option.some_inj.mp hreceived
    exact absurd hsent (reject_sent _ _)
  split at hreceived
  next =>
    obtain rfl := Option.some_inj.mp hreceived
    exact absurd hsent (reject_sent _ _)
  split at hreceived
  next =>
    obtain rfl := Option.some_inj.mp hreceived
    exact absurd hsent (reject_sent _ _)
  obtain ⟨est, hest, hreceived⟩ := Option.bind_eq_some_iff.mp hreceived
  split at hreceived
  next => exact absurd hreceived (by simp)
  next =>
    obtain rfl := Option.some_inj.mp hreceived
    exact absurd hsent (reject_sent _ _)
  next msg pos hread =>
    dsimp only at hreceived
    split at hreceived
    next =>
      obtain rfl := Option.some_inj.mp hreceived
      exact absurd hsent (reject_sent _ _)
    next self hself =>
      obtain rfl := Option.some_inj.mp hreceived
      exact ⟨est, msg, pos, self, hest, hread, hself, rfl,
        Option.toList_eq_singleton_iff.mp hsent⟩

theorem recvAcceptChannel_sent {bytes : Bytes} {outpoint : FundingOutpoint}
    (hreceived : chan.recvAcceptChannel env crypto bytes (some outpoint) = some outcome)
    (hsent : outcome.sent = [sent]) :
    ∃ est msg pos signed, chan.establish = some est ∧
      readWith (lnMsgAcceptChannelRead env ⟨[], chan.minDepth,
        { est.cnlAccept with pubkeys := chan.self.fundingRemote.pubkeys }⟩) bytes =
          .done msg pos ∧
      signInitialRemote crypto (chan.createdSigner crypto est msg outpoint) = some signed ∧
      outcome.chan = { chan with
        self := signed
        minDepth := msg.minDepth
        establish := some { est with cnlAccept := msg.body } } ∧
      lnMsgFundingCreatedCreate ⟨signed.channelId,
        ⟨signed.fundingLocal.txid, signed.fundingLocal.txindex⟩,
        signed.commitRemote.signature⟩ = some sent := by
  rw [Establishing.recvAcceptChannel] at hreceived
  split at hreceived
  next =>
    obtain rfl := Option.some_inj.mp hreceived
    exact absurd hsent (reject_sent _ _)
  obtain ⟨est, hest, hreceived⟩ := Option.bind_eq_some_iff.mp hreceived
  split at hreceived
  next => exact absurd hreceived (by simp)
  next =>
    obtain rfl := Option.some_inj.mp hreceived
    exact absurd hsent (reject_sent _ _)
  next msg pos hread =>
    simp only [createFundingTx] at hreceived
    split at hreceived
    next =>
      obtain rfl := Option.some_inj.mp hreceived
      exact absurd hsent (reject_sent _ _)
    split at hreceived
    next => exact absurd hreceived (by simp)
    split at hreceived
    next =>
      obtain rfl := Option.some_inj.mp hreceived
      exact absurd hsent (reject_sent _ _)
    next signed hsigned =>
      obtain rfl := Option.some_inj.mp hreceived
      exact ⟨est, msg, pos, signed, hest, hread, hsigned, rfl,
        Option.toList_eq_singleton_iff.mp hsent⟩

theorem recvFundingCreated_sent {bytes : Bytes} {accepts : Bool}
    (hreceived : chan.recvFundingCreated crypto bytes accepts = some outcome)
    (hsent : outcome.sent = [sent]) :
    ∃ est msg pos verified signed, chan.establish = some est ∧
      readWith lnMsgFundingCreatedRead bytes = .done msg pos ∧
      (chan.createdCall crypto est msg).run crypto = (true, verified) ∧
      signInitialRemote crypto (signedSigner est verified) = some signed ∧
      outcome.chan = { chan with
        self := (fundingWait crypto
          { signed with channelId := lnMiscCalcChannelId msg.outpoint } accepts).self } ∧
      lnMsgFundingSignedCreate ⟨lnMiscCalcChannelId msg.outpoint,
        signed.commitRemote.signature⟩ = some sent := by
  rw [Establishing.recvFundingCreated] at hreceived
  split at hreceived
  next =>
    obtain rfl := Option.some_inj.mp hreceived
    exact absurd hsent (reject_sent _ _)
  obtain ⟨est, hest, hreceived⟩ := Option.bind_eq_some_iff.mp hreceived
  split at hreceived
  next => exact absurd hreceived (by simp)
  next =>
    obtain rfl := Option.some_inj.mp hreceived
    exact absurd hsent (reject_sent _ _)
  next msg pos hread =>
    simp only at hreceived
    split at hreceived
    next =>
      obtain rfl := Option.some_inj.mp hreceived
      exact absurd hsent (reject_sent _ _)
    split at hreceived
    next =>
      obtain rfl := Option.some_inj.mp hreceived
      exact absurd hsent (reject_sent _ _)
    next verified hverified =>
      split at hreceived
      next =>
        obtain rfl := Option.some_inj.mp hreceived
        exact absurd hsent (reject_sent _ _)
      next signed hsigned =>
        obtain rfl := Option.some_inj.mp hreceived
        exact ⟨est, msg, pos, verified, signed, hest, hread, hverified, hsigned, rfl,
          Option.toList_eq_singleton_iff.mp hsent⟩

/-- `recv_funding_signed` succeeds where the call of `create_to_local` does. -/
theorem recvFundingSigned_eq {bytes : Bytes} {accepts : Bool} {est : LnEstablish}
    {msg : FundingSignedMsg} {pos : Nat} {verified : LnSelf}
    (hfunder : chan.self.isFunder = true) (hest : chan.establish = some est)
    (hread : readWith lnMsgFundingSignedRead bytes = .done msg pos)
    (hchannel : msg.channelId = lnMiscCalcChannelId
      ⟨chan.self.fundingLocal.txid, chan.self.fundingLocal.txindex⟩)
    (hverified : (chan.signedCall est msg).run crypto = (true, verified)) :
    chan.recvFundingSigned crypto bytes accepts =
      some ⟨true, { chan with self := (fundingWait crypto verified accepts).self },
        (fundingWait crypto verified accepts).trace, []⟩ := by
  rw [Establishing.recvFundingSigned, hfunder, hest]
  simp only [Bool.not_true, Bool.false_eq_true, if_false, Option.bind_some, hread, hchannel, ne_eq,
    not_true_eq_false]
  split
  next hfails => exact absurd (Prod.mk.inj (hverified.symm.trans hfails)).1 (by decide)
  next hcalls =>
    obtain rfl := (Prod.mk.inj (hverified.symm.trans hcalls)).2
    rfl

end Establishing

/-! ### What the states hold -/

/-- The parameters of a commitment that the two sides have exchanged. -/
def LnCommitData.limits (commit : LnCommitData) : LnEstablishPrm where
  dustLimitSat := commit.dustLimitSat
  maxHtlcValueInFlightMsat := commit.maxHtlcValueInFlightMsat
  channelReserveSat := commit.channelReserveSat
  htlcMinimumMsat := commit.htlcMinimumMsat
  toSelfDelay := commit.toSelfDelay
  maxAcceptedHtlcs := commit.maxAcceptedHtlcs

theorem LnCommitData.limits_eq_iff {commit : LnCommitData} {limits : LnEstablishPrm} :
    commit.limits = limits ↔
      commit.dustLimitSat = limits.dustLimitSat ∧
        commit.maxHtlcValueInFlightMsat = limits.maxHtlcValueInFlightMsat ∧
          commit.channelReserveSat = limits.channelReserveSat ∧
            commit.htlcMinimumMsat = limits.htlcMinimumMsat ∧
              commit.toSelfDelay = limits.toSelfDelay ∧
                commit.maxAcceptedHtlcs = limits.maxAcceptedHtlcs := by
  cases limits
  exact Iff.of_eq (LnEstablishPrm.mk.injEq ..)

def LnOpenChannel.limits (openCh : LnOpenChannel) : LnEstablishPrm where
  dustLimitSat := openCh.dustLimitSat
  maxHtlcValueInFlightMsat := openCh.maxHtlcValueInFlightMsat
  channelReserveSat := openCh.channelReserveSat
  htlcMinimumMsat := openCh.htlcMinimumMsat
  toSelfDelay := openCh.toSelfDelay
  maxAcceptedHtlcs := openCh.maxAcceptedHtlcs

def LnAcceptChannel.limits (acceptCh : LnAcceptChannel) : LnEstablishPrm where
  dustLimitSat := acceptCh.dustLimitSat
  maxHtlcValueInFlightMsat := acceptCh.maxHtlcValueInFlightMsat
  channelReserveSat := acceptCh.channelReserveSat
  htlcMinimumMsat := acceptCh.htlcMinimumMsat
  toSelfDelay := acceptCh.toSelfDelay
  maxAcceptedHtlcs := acceptCh.maxAcceptedHtlcs

/-- The own funding key is that of the private key. -/
def HoldsFundingKey (crypto : Crypto) (party : LnSelf) : Prop :=
  party.fundingLocal.pubkeys.funding = crypto.pub party.privData.priv.funding

/-- What `ln_signer_create_channelkeys` changes. -/
theorem lnSignerCreateChannelkeys_eq (self : LnSelf) (priv : Fundkeys) :
    ∃ storageIndex secret point, lnSignerCreateChannelkeys crypto self priv = { self with
      privData := { self.privData with storageIndex, priv := { priv with perCommit := secret } }
      fundingLocal := { self.fundingLocal with
        pubkeys :=
          { funding := crypto.pub priv.funding
            revocation := crypto.pub priv.revocation
            payment := crypto.pub priv.payment
            delayed := crypto.pub priv.delayed
            htlc := crypto.pub priv.htlc
            perCommit := point } } } :=
  ⟨_, _, _, rfl⟩

/-- The funder behind `open_channel`. -/
structure Opened (crypto : Crypto) (before : LnSelf) (openCh : LnOpenChannel) (after : LnSelf) :
    Prop where
  role : after.isFunder = true
  fundingSat : after.fundingSat = openCh.fundingSat
  feeratePerKw : after.feeratePerKw = openCh.feeratePerKw
  ourMsat : after.ourMsat = openCh.fundingSat * 1000 - openCh.pushMsat
  theirMsat : after.theirMsat = openCh.pushMsat
  pubkeys : after.fundingLocal.pubkeys = openCh.pubkeys
  limits : after.commitLocal.limits = openCh.limits
  slots : after.cnlAddHtlc = before.cnlAddHtlc
  key : HoldsFundingKey crypto after

theorem lnOpenChannelCreate_opened {estprm : LnEstablishPrm} {fundingSat pushSat : UInt64}
    {feeRate : UInt32} {channelId : Bytes} {priv : Fundkeys} {opened : LnSelf}
    (hopened : lnOpenChannelCreate crypto self estprm fundingSat pushSat feeRate channelId priv =
      some opened) :
    Opened crypto self (Establishing.openChannelOf estprm fundingSat pushSat feeRate
      opened.fundingLocal.pubkeys) opened := by
  rw [lnOpenChannelCreate] at hopened
  split at hopened
  next => exact absurd hopened (by simp)
  next =>
    obtain ⟨_, _, _, hkeys⟩ := @lnSignerCreateChannelkeys_eq crypto { self with channelId } priv
    rw [hkeys] at hopened
    obtain rfl := Option.some_inj.mp hopened
    exact ⟨rfl, rfl, rfl, rfl, rfl, rfl, rfl, rfl, rfl⟩

/-- The fundee behind `accept_channel`. -/
structure Accepted (crypto : Crypto) (before : LnSelf) (openCh : LnOpenChannel)
    (acceptCh : LnAcceptChannel) (after : LnSelf) : Prop where
  role : after.isFunder = false
  fundingSat : after.fundingSat = openCh.fundingSat
  feeratePerKw : after.feeratePerKw = openCh.feeratePerKw
  ourMsat : after.ourMsat = openCh.pushMsat
  theirMsat : after.theirMsat = openCh.fundingSat * 1000 - openCh.pushMsat
  pubkeys : after.fundingLocal.pubkeys = acceptCh.pubkeys
  peerPubkeys : after.fundingRemote.pubkeys = openCh.pubkeys
  limits : after.commitLocal.limits = acceptCh.limits
  peerLimits : after.commitRemote.limits = openCh.limits
  obscured : after.obscured =
    lnScriptCalcObscuredTxnum crypto openCh.pubkeys.payment acceptCh.pubkeys.payment
  redeemFund : after.redeemFund = sortedRedeem acceptCh.pubkeys.funding openCh.pubkeys.funding
  channelId : after.channelId = before.channelId
  slots : after.cnlAddHtlc = before.cnlAddHtlc
  scriptkeys : HoldsScriptkeys crypto after
  twoOfTwo : HoldsTwoOfTwo after
  key : HoldsFundingKey crypto after

theorem recvOpenChannel_accepted {openCh : LnOpenChannel} {estprm : LnEstablishPrm}
    {priv : Fundkeys} {accepted : LnSelf}
    (haccepted : recvOpenChannel crypto self openCh estprm priv = some accepted) :
    Accepted crypto self openCh
      (Establishing.acceptChannelOf estprm accepted.fundingLocal.pubkeys) accepted := by
  rw [recvOpenChannel] at haccepted
  split at haccepted
  next => exact absurd haccepted (by simp)
  split at haccepted
  next => exact absurd haccepted (by simp)
  split at haccepted
  next => exact absurd haccepted (by simp)
  next =>
    obtain ⟨_, _, _, hkeys⟩ := @lnSignerCreateChannelkeys_eq crypto
      { self with
        isFunder := false
        commitRemote := { self.commitRemote with
          dustLimitSat := openCh.dustLimitSat
          maxHtlcValueInFlightMsat := openCh.maxHtlcValueInFlightMsat
          channelReserveSat := openCh.channelReserveSat
          htlcMinimumMsat := openCh.htlcMinimumMsat
          toSelfDelay := openCh.toSelfDelay
          maxAcceptedHtlcs := openCh.maxAcceptedHtlcs }
        fundingRemote := { self.fundingRemote with
          pubkeys := openCh.pubkeys
          prevPercommit := openCh.pubkeys.perCommit }
        fundingSat := openCh.fundingSat
        feeratePerKw := openCh.feeratePerKw
        ourMsat := openCh.pushMsat
        theirMsat := openCh.fundingSat * 1000 - openCh.pushMsat } priv
    dsimp only at haccepted
    rw [hkeys, create2of2_eq] at haccepted
    obtain rfl := Option.some_inj.mp haccepted
    exact ⟨rfl, rfl, rfl, rfl, rfl, rfl, rfl, rfl, rfl, rfl, rfl, rfl, rfl, ⟨rfl, rfl⟩,
      holdsTwoOfTwo_of_sorted rfl rfl, rfl⟩

/-- The funder when it signs, with the keys and the limits of `accept_channel`. -/
structure Signing (crypto : Crypto) (before : LnSelf) (openCh : LnOpenChannel)
    (acceptCh : LnAcceptChannel) (outpoint : FundingOutpoint) (after : LnSelf) : Prop where
  role : after.isFunder = before.isFunder
  fundingSat : after.fundingSat = before.fundingSat
  feeratePerKw : after.feeratePerKw = before.feeratePerKw
  ourMsat : after.ourMsat = before.ourMsat
  theirMsat : after.theirMsat = before.theirMsat
  pubkeys : after.fundingLocal.pubkeys = before.fundingLocal.pubkeys
  peerPubkeys : after.fundingRemote.pubkeys = acceptCh.pubkeys
  limits : before.commitLocal.limits = openCh.limits → after.commitLocal.limits = openCh.limits
  peerLimits : after.commitRemote.limits = acceptCh.limits
  obscured : after.obscured = lnScriptCalcObscuredTxnum crypto before.fundingLocal.pubkeys.payment
    acceptCh.pubkeys.payment
  redeemFund : after.redeemFund =
    sortedRedeem before.fundingLocal.pubkeys.funding acceptCh.pubkeys.funding
  script : after.txFundingScript = crypto.sha256 after.redeemFund.script
  outpoint : after.fundingLocal.txid = outpoint.txid ∧ after.fundingLocal.txindex = outpoint.txindex
  channelId : after.channelId = before.channelId
  slots : after.cnlAddHtlc = before.cnlAddHtlc
  scriptkeys : HoldsScriptkeys crypto after
  twoOfTwo : HoldsTwoOfTwo after
  key : HoldsFundingKey crypto before → HoldsFundingKey crypto after

theorem createdSigner_signing (chan : Establishing) (est : LnEstablish) (msg : AcceptChannelMsg)
    (outpoint : FundingOutpoint) :
    Signing crypto chan.self est.cnlOpen msg.body outpoint
      (chan.createdSigner crypto est msg outpoint) := by
  rw [Establishing.createdSigner, Establishing.createFundingTx]
  dsimp only
  rw [create2of2_eq]
  refine ⟨rfl, rfl, rfl, rfl, rfl, rfl, rfl, fun hlimits => ?_, rfl, rfl, rfl, rfl, ⟨rfl, rfl⟩, rfl,
    rfl, ⟨rfl, rfl⟩, holdsTwoOfTwo_of_sorted rfl rfl, fun hkey => hkey⟩
  obtain ⟨hdust, hvalue, hreserve, hminimum, -, haccepted⟩ :=
    LnCommitData.limits_eq_iff.mp hlimits
  exact LnCommitData.limits_eq_iff.mpr ⟨hdust, hvalue, hreserve, hminimum, rfl, haccepted⟩

/-- The funder that signs and the fundee that verifies are the two ends of one channel. -/
theorem facing_created {funder fundee opened : LnSelf} {accepted : Establishing} {signer : LnSelf}
    {est : LnEstablish} {openCh : LnOpenChannel} {acceptCh : LnAcceptChannel}
    {outpoint : FundingOutpoint} {msg : FundingCreatedMsg}
    (hopened : Opened crypto funder openCh opened)
    (haccepted : Accepted crypto fundee openCh acceptCh accepted.self)
    (hsigning : Signing crypto opened openCh acceptCh outpoint signer)
    (hfunder : ∀ idx, (funder.cnlAddHtlc idx).enable = false)
    (hfundee : ∀ idx, (fundee.cnlAddHtlc idx).enable = false) (hmsg : msg.outpoint = outpoint) :
    Facing crypto signer (accepted.createdCall crypto est msg).self := by
  have hcall : (accepted.createdCall crypto est msg).self.redeemFund = accepted.self.redeemFund :=
    rfl
  constructor
  · rw [hsigning.role, hopened.role]
    exact haccepted.role
  · rw [hsigning.outpoint.1, ← hmsg]
    rfl
  · rw [hsigning.outpoint.2, ← hmsg]
    rfl
  · rw [hsigning.fundingSat, hopened.fundingSat]
    exact haccepted.fundingSat
  · rw [hcall, haccepted.redeemFund, hsigning.redeemFund, hopened.pubkeys, sortedRedeem_comm]
  · rw [hsigning.feeratePerKw, hopened.feeratePerKw]
    exact haccepted.feeratePerKw
  · rw [hsigning.obscured, hopened.pubkeys]
    exact haccepted.obscured
  · rw [hsigning.theirMsat, hopened.theirMsat]
    exact haccepted.ourMsat
  · rw [hsigning.ourMsat, hopened.ourMsat]
    exact haccepted.theirMsat
  · rw [hsigning.peerPubkeys]
    exact haccepted.pubkeys
  · rw [hsigning.pubkeys, hopened.pubkeys]
    exact haccepted.peerPubkeys
  · exact ⟨hsigning.scriptkeys, haccepted.scriptkeys.own, haccepted.scriptkeys.peer⟩
  · exact ⟨hsigning.twoOfTwo, haccepted.twoOfTwo.own, haccepted.twoOfTwo.peer⟩
  · constructor
    · rw [hsigning.slots, hopened.slots]
      exact hfunder
    · intro idx
      have hidle := hfundee idx
      rw [← haccepted.slots] at hidle
      exact hidle

/-- The ends stay the two ends whatever happens to their commit data and channel ids. -/
theorem Facing.commits (hfacing : Facing crypto near far)
    (nearLocal nearRemote farLocal farRemote : LnCommitData) (nearId farId : Bytes) :
    Facing crypto
      { near with commitLocal := nearLocal, commitRemote := nearRemote, channelId := nearId }
      { far with commitLocal := farLocal, commitRemote := farRemote, channelId := farId } where
  roles := hfacing.roles
  txid := hfacing.txid
  txindex := hfacing.txindex
  fundingSat := hfacing.fundingSat
  redeemFund := hfacing.redeemFund
  feeratePerKw := hfacing.feeratePerKw
  obscured := hfacing.obscured
  ourMsat := hfacing.ourMsat
  theirMsat := hfacing.theirMsat
  ownKeys := hfacing.ownKeys
  peerKeys := hfacing.peerKeys
  scriptkeys := ⟨⟨hfacing.scriptkeys.1.own, hfacing.scriptkeys.1.peer⟩,
    hfacing.scriptkeys.2.own, hfacing.scriptkeys.2.peer⟩
  twoOfTwo := ⟨⟨hfacing.twoOfTwo.1.own, hfacing.twoOfTwo.1.peer⟩,
    hfacing.twoOfTwo.2.own, hfacing.twoOfTwo.2.peer⟩
  idle := hfacing.idle

/-! ### The messages unmodified -/

/-- Keys, signatures and the genesis hash have their sizes. -/
structure WireSizes (env : WireEnv) (crypto : Crypto) : Prop where
  chkpub : ∀ key, env.chkpub key = true → key.length = 33
  sign : ∀ priv hash, (crypto.sign priv hash).length = 64
  genesis : env.genesisChainHash.length = 32

theorem RoundTrips.read {ε α : Type} {created : Option Bytes} {reader : WireReader ε α} {value : α}
    (htrips : RoundTrips created reader value) {bytes : Bytes} (hcreated : created = some bytes)
    (hshort : bytes.length < 65536) : readWith reader bytes = .done value bytes.length := by
  obtain ⟨bytes', hcreated', hread⟩ := htrips
  obtain rfl := Option.some_inj.mp (hcreated.symm.trans hcreated')
  exact hread hshort

theorem WireSizes.pubkeys (hsizes : WireSizes env crypto) {keys : Fundkeys}
    (hall : keys.toList.all env.chkpub = true) : keys.Sized := by
  intro key hmem
  exact hsizes.chkpub key (List.all_eq_true.mp hall key hmem)

/-- An `open_channel` that was sent is read as it was, and its keys have their size. -/
theorem read_openChannel (hsizes : WireSizes env crypto) {msg : OpenChannelMsg} {bytes : Bytes}
    (hcreated : lnMsgOpenChannelCreate env msg = some bytes)
    (hflags : msg.channelFlags &&& ~~~1 = 0) (htemp : msg.tempChannelId.length = 32) :
    msg.body.pubkeys.Sized ∧ ∀ old, readWith (lnMsgOpenChannelRead env old) bytes =
      .done msg bytes.length := by
  have hmade := hcreated
  rw [lnMsgOpenChannelCreate] at hmade
  obtain ⟨hchecks, hpushed⟩ := Option.ite_none_right_eq_some.mp hmade
  obtain ⟨hrange, hall⟩ := Bool.and_eq_true_iff.mp hchecks
  have hkeys := hsizes.pubkeys hall
  have hshort := length_of_utlPush hpushed
  refine ⟨hkeys, fun old => ?_⟩
  exact (lnMsgOpenChannel_roundTrips ⟨hsizes.genesis, htemp, hkeys⟩ hflags hrange hall old).read
    hcreated (by omega)

theorem read_acceptChannel (hsizes : WireSizes env crypto) {msg : AcceptChannelMsg} {bytes : Bytes}
    (hcreated : lnMsgAcceptChannelCreate env msg = some bytes)
    (htemp : msg.tempChannelId.length = 32) :
    msg.body.pubkeys.Sized ∧ ∀ old, readWith (lnMsgAcceptChannelRead env old) bytes =
      .done msg bytes.length := by
  have hmade := hcreated
  rw [lnMsgAcceptChannelCreate] at hmade
  obtain ⟨hall, hpushed⟩ := Option.ite_none_right_eq_some.mp hmade
  have hkeys := hsizes.pubkeys hall
  have hshort := length_of_utlPush hpushed
  refine ⟨hkeys, fun old => ?_⟩
  exact (lnMsgAcceptChannel_roundTrips ⟨htemp, hkeys⟩ hall old).read hcreated (by omega)

theorem read_fundingCreated {msg : FundingCreatedMsg} (hsized : msg.Sized) {bytes : Bytes}
    (hcreated : lnMsgFundingCreatedCreate msg = some bytes) :
    readWith lnMsgFundingCreatedRead bytes = .done msg bytes.length := by
  have hshort := length_of_utlPush hcreated
  exact (lnMsgFundingCreated_roundTrips hsized).read hcreated (by omega)

theorem read_fundingSigned {msg : FundingSignedMsg} (hsized : msg.Sized) {bytes : Bytes}
    (hcreated : lnMsgFundingSignedCreate msg = some bytes) :
    readWith lnMsgFundingSignedRead bytes = .done msg bytes.length := by
  have hshort := length_of_utlPush hcreated
  exact (lnMsgFundingSigned_roundTrips hsized).read hcreated (by omega)

/-- A key that was sent belongs to a private key. -/
theorem priv2pub_of_sized (hkey : HoldsFundingKey crypto self)
    (hsized : self.fundingLocal.pubkeys.Sized) :
    crypto.priv2pub self.privData.priv.funding = some self.fundingLocal.pubkeys.funding := by
  have hlength : self.fundingLocal.pubkeys.funding.length = 33 := hsized _ List.mem_cons_self
  rw [HoldsFundingKey, Crypto.pub] at hkey
  cases hpub : crypto.priv2pub self.privData.priv.funding with
  | none =>
      rw [hkey, hpub] at hlength
      exact absurd hlength (by decide)
  | some pub => rw [hkey, hpub, Option.getD_some]

/-! ### The exchange -/

/-- The exchange up to `funding_created`: each message is what this code created, and it is received
as it was sent.  Neither side has an HTLC. -/
structure FundingExchange (env : WireEnv) (crypto : Crypto) where
  funder : Establishing
  fundee : Establishing
  fundingSat : UInt64
  pushSat : UInt64
  feeRate : UInt32
  latest : UInt32
  tempChannelId : Bytes
  funderPriv : Fundkeys
  fundeePriv : Fundkeys
  outpoint : FundingOutpoint
  opened : EstablishOutcome
  accepted : EstablishOutcome
  created : EstablishOutcome
  openChannel : Bytes
  acceptChannel : Bytes
  fundingCreated : Bytes
  opens : funder.lnOpenChannelCreate env crypto fundingSat pushSat feeRate tempChannelId
    funderPriv = some opened
  sendsOpen : opened.sent = [openChannel]
  accepts : fundee.recvOpenChannel env crypto openChannel latest fundeePriv = some accepted
  sendsAccept : accepted.sent = [acceptChannel]
  creates : opened.chan.recvAcceptChannel env crypto acceptChannel (some outpoint) = some created
  sendsCreated : created.sent = [fundingCreated]
  tempChannelId_length : tempChannelId.length = 32
  txid_length : outpoint.txid.length = 32
  funder_idle : ∀ idx, (funder.self.cnlAddHtlc idx).enable = false
  fundee_idle : ∀ idx, (fundee.self.cnlAddHtlc idx).enable = false

/-- What both sides hold in the end. -/
structure Agreement (funder fundee : LnSelf) : Prop where
  redeemFund : fundee.redeemFund = funder.redeemFund
  txFundingScript : fundee.txFundingScript = funder.txFundingScript
  txid : fundee.fundingLocal.txid = funder.fundingLocal.txid
  txindex : fundee.fundingLocal.txindex = funder.fundingLocal.txindex
  channelId : fundee.channelId = funder.channelId
  obscured : fundee.obscured = funder.obscured
  fundingSat : fundee.fundingSat = funder.fundingSat
  feeratePerKw : fundee.feeratePerKw = funder.feeratePerKw
  ourMsat : fundee.ourMsat = funder.theirMsat
  theirMsat : fundee.theirMsat = funder.ourMsat
  fundeeLimits : fundee.commitLocal.limits = funder.commitRemote.limits
  funderLimits : fundee.commitRemote.limits = funder.commitLocal.limits

/-- What one side signs is the transaction that the other verifies, with the signature that was
sent, and it verifies. -/
structure SignedAndVerified (crypto : Crypto) (signer : LnSelf) (call : ToLocalCall) : Prop where
  tx : call.tx crypto = toRemoteTx crypto signer
  signature : call.self.commitLocal.signature = crypto.sign signer.privData.priv.funding
    (crypto.sighash (toRemoteTx crypto signer) signer.fundingSat signer.redeemFund.script)
  verifies : (call.run crypto).1 = true

/-- What the facing ends sign and verify. -/
theorem Facing.signedAndVerified {call : ToLocalCall} {dustLimitSat : UInt64}
    (hfacing : Facing crypto near call.self) (hsound : crypto.Sound)
    (hscript : crypto.sha256 call.self.redeemFund.script = call.self.txFundingScript)
    (hnear : crypto.priv2pub near.privData.priv.funding = some near.ownFundingKey)
    (hfar : crypto.priv2pub call.self.privData.priv.funding = some call.self.ownFundingKey)
    (hdelay : call.toSelfDelay = near.commitLocal.toSelfDelay)
    (hdust : call.dustLimitSat = dustLimitSat)
    (hdust' : near.commitRemote.dustLimitSat = dustLimitSat)
    (hvalid : (toRemoteTx crypto near).isValid = true)
    (hsignature : call.self.commitLocal.signature = crypto.sign near.privData.priv.funding
      (crypto.sighash (toRemoteTx crypto near) near.fundingSat near.redeemFund.script)) :
    SignedAndVerified crypto near call ∧
      call.run crypto = (true, { call.self with
        commitLocal := { call.self.commitLocal with
          txid := crypto.txid (toRemoteTx crypto near), htlcNum := 0 } }) := by
  have htx : call.tx crypto = toRemoteTx crypto near := by
    rw [ToLocalCall.tx, hdelay, hdust, hfacing.buildToLocal_eq, toRemoteTx, hdust']
  have hrun : call.run crypto = (true, { call.self with
      commitLocal := { call.self.commitLocal with
        txid := crypto.txid (toRemoteTx crypto near), htlcNum := 0 } }) := by
    rw [ToLocalCall.run, hdelay, hdust]
    exact hfacing.createToLocal_eq hsound hscript hnear hfar (by rw [toRemoteTx, hdust']) hvalid
      hsignature
  exact ⟨⟨htx, hsignature, by rw [hrun]⟩, hrun⟩

/-- What `start_funding_wait` changes. -/
theorem fundingWait_eq (self : LnSelf) (accepts : Bool) :
    ∃ status privData pubkeys ownScriptkeys peerScriptkeys,
      (Establishing.fundingWait crypto self accepts).self = { self with
        status
        privData
        fundingLocal := { self.fundingLocal with pubkeys, scriptpubkeys := ownScriptkeys }
        fundingRemote := { self.fundingRemote with scriptpubkeys := peerScriptkeys }
        commitLocal := { self.commitLocal with commitNum := 0, revokeNum := 0xffffffffffffffff }
        commitRemote :=
          { self.commitRemote with commitNum := 0, revokeNum := 0xffffffffffffffff } } := by
  cases accepts with
  | true => exact ⟨_, _, _, _, _, rfl⟩
  | false => exact ⟨_, _, _, _, _, rfl⟩

theorem Agreement.wait {funder fundee : LnSelf} (hagree : Agreement funder fundee)
    (funderWaits fundeeWaits : Bool) :
    Agreement (Establishing.fundingWait crypto funder funderWaits).self
      (Establishing.fundingWait crypto fundee fundeeWaits).self := by
  obtain ⟨_, _, _, _, _, hfunder⟩ := @fundingWait_eq crypto funder funderWaits
  obtain ⟨_, _, _, _, _, hfundee⟩ := @fundingWait_eq crypto fundee fundeeWaits
  rw [hfunder, hfundee]
  exact ⟨hagree.redeemFund, hagree.txFundingScript, hagree.txid, hagree.txindex, hagree.channelId,
    hagree.obscured, hagree.fundingSat, hagree.feeratePerKw, hagree.ourMsat, hagree.theirMsat,
    hagree.fundeeLimits, hagree.funderLimits⟩

namespace Establishing

variable (env crypto) (chan : Establishing)

/-- The state in which `recv_accept_channel` signs, for the bytes that it gets. -/
def createdSignerOf (bytes : Bytes) (outpoint : FundingOutpoint) : Option LnSelf :=
  chan.establish.bind fun est =>
    match readWith (lnMsgAcceptChannelRead env ⟨[], chan.minDepth,
      { est.cnlAccept with pubkeys := chan.self.fundingRemote.pubkeys }⟩) bytes with
    | .done msg _ => some (chan.createdSigner crypto est msg outpoint)
    | _ => none

/-- What `recv_funding_created` verifies, for the bytes that it gets. -/
def createdCallOf (bytes : Bytes) : Option ToLocalCall :=
  chan.establish.bind fun est =>
    match readWith lnMsgFundingCreatedRead bytes with
    | .done msg _ => some (chan.createdCall crypto est msg)
    | _ => none

/-- The state in which `recv_funding_created` signs, once it has verified. -/
def signedSignerOf (bytes : Bytes) : Option LnSelf :=
  chan.establish.bind fun est =>
    (chan.createdCallOf crypto bytes).map fun call => signedSigner est (call.run crypto).2

/-- What `recv_funding_signed` verifies, for the bytes that it gets. -/
def signedCallOf (bytes : Bytes) : Option ToLocalCall :=
  chan.establish.bind fun est =>
    match readWith lnMsgFundingSignedRead bytes with
    | .done msg _ => some (chan.signedCall est msg)
    | _ => none

end Establishing

theorem lnOpenChannelCreate_channelId {estprm : LnEstablishPrm} {fundingSat pushSat : UInt64}
    {feeRate : UInt32} {channelId : Bytes} {priv : Fundkeys} {opened : LnSelf}
    (hopened : lnOpenChannelCreate crypto self estprm fundingSat pushSat feeRate channelId priv =
      some opened) : opened.channelId = channelId := by
  rw [lnOpenChannelCreate] at hopened
  split at hopened
  next => exact absurd hopened (by simp)
  next =>
    obtain ⟨_, _, _, hkeys⟩ := @lnSignerCreateChannelkeys_eq crypto { self with channelId } priv
    rw [hkeys] at hopened
    obtain rfl := Option.some_inj.mp hopened
    rfl

theorem lnMiscCalcChannelId_length (outpoint : FundingOutpoint) :
    (lnMiscCalcChannelId outpoint).length = outpoint.txid.length := by
  rw [lnMiscCalcChannelId, List.length_modify, List.length_modify]

/-! ### The run of the exchange -/

/-- What the two sides have read and built once `funding_created` has arrived. -/
structure FundingExchange.Run (exchange : FundingExchange env crypto)
    (opening accepting : LnEstablish) (acceptMsg : AcceptChannelMsg)
    (createdMsg : FundingCreatedMsg) (signer : LnSelf) (call : ToLocalCall) : Prop where
  funderEst : exchange.opened.chan.establish = some opening
  fundeeEst : exchange.accepted.chan.establish = some accepting
  readsAccept : ∃ pos, readWith (lnMsgAcceptChannelRead env ⟨[], exchange.opened.chan.minDepth,
    { opening.cnlAccept with pubkeys := exchange.opened.chan.self.fundingRemote.pubkeys }⟩)
      exchange.acceptChannel = .done acceptMsg pos
  readsCreated : ∃ pos, readWith lnMsgFundingCreatedRead exchange.fundingCreated =
    .done createdMsg pos
  signing : signer = exchange.opened.chan.createdSigner crypto opening acceptMsg exchange.outpoint
  calling : call = exchange.accepted.chan.createdCall crypto accepting createdMsg
  outpoint : createdMsg.outpoint = exchange.outpoint
  sameOpen : accepting.cnlOpen = opening.cnlOpen
  sameAccept : accepting.cnlAccept = acceptMsg.body
  signerLimits : signer.commitLocal.limits = opening.cnlOpen.limits ∧
    signer.commitRemote.limits = acceptMsg.body.limits
  callLimits : call.self.commitLocal.limits = acceptMsg.body.limits ∧
    call.self.commitRemote.limits = opening.cnlOpen.limits
  signerRole : signer.isFunder = true
  script : signer.txFundingScript = crypto.sha256 signer.redeemFund.script
  signerKey : crypto.priv2pub signer.privData.priv.funding = some signer.ownFundingKey
  callKey : crypto.priv2pub call.self.privData.priv.funding = some call.self.ownFundingKey
  facing : Facing crypto signer call.self
  valid : (toRemoteTx crypto signer).isValid = true
  signature : createdMsg.signature = crypto.sign signer.privData.priv.funding
    (crypto.sighash (toRemoteTx crypto signer) signer.fundingSat signer.redeemFund.script)
  created : exchange.created.chan = { exchange.opened.chan with
    self := { signer with
      commitRemote := { signer.commitRemote with
        txid := crypto.txid (toRemoteTx crypto signer)
        signature := createdMsg.signature
        htlcNum := 0 } }
    minDepth := acceptMsg.minDepth
    establish := some { opening with cnlAccept := acceptMsg.body } }

theorem FundingExchange.run (exchange : FundingExchange env crypto)
    (hsizes : WireSizes env crypto) :
    ∃ opening accepting acceptMsg createdMsg signer call,
      exchange.Run opening accepting acceptMsg createdMsg signer call := by
  have htempid := exchange.tempChannelId_length
  -- The funder opens and the fundee reads what it sent.
  obtain ⟨est, opened, _, hopened, hopenedChan, hopenMsg⟩ :=
    Establishing.lnOpenChannelCreate_sent exchange.opens exchange.sendsOpen
  have hopening := lnOpenChannelCreate_opened hopened
  have htemp : opened.channelId.length = 32 := by
    rw [lnOpenChannelCreate_channelId hopened, htempid]
  obtain ⟨hfunderSized, hreadOpen⟩ := read_openChannel hsizes hopenMsg
    (by simp only; decide) htemp
  obtain ⟨base, openMsg, _, accepted, _, hopenRead, haccepted, hacceptedChan, hacceptMsg⟩ :=
    Establishing.recvOpenChannel_sent exchange.accepts exchange.sendsAccept
  obtain ⟨rfl, -⟩ := Result.done.inj ((hreadOpen _).symm.trans hopenRead)
  have haccepting := recvOpenChannel_accepted haccepted
  have hacceptedId : accepted.channelId = opened.channelId := haccepting.channelId
  -- The funder reads `accept_channel` and signs.
  obtain ⟨hfundeeSized, hreadAccept⟩ := read_acceptChannel hsizes hacceptMsg (by
    rw [hacceptedId, htemp])
  obtain ⟨opening, acceptMsg, pos, signed, hopeningEst, hacceptRead, hsigned, hcreatedChan,
    hcreatedMsg⟩ := Establishing.recvAcceptChannel_sent exchange.creates exchange.sendsCreated
  obtain ⟨rfl, -⟩ := Result.done.inj ((hreadAccept _).symm.trans hacceptRead)
  have hsame : opening.cnlOpen = Establishing.openChannelOf est.estprm exchange.fundingSat
      exchange.pushSat exchange.feeRate opened.fundingLocal.pubkeys := by
    rw [hopenedChan] at hopeningEst
    obtain rfl := Option.some_inj.mp hopeningEst
    rfl
  have hopenedSelf : exchange.opened.chan.self = opened := by rw [hopenedChan]
  have hacceptedSelf : accepted = exchange.accepted.chan.self := by rw [hacceptedChan]
  obtain ⟨accepting, hacceptingEst, hacceptOpen, hacceptBody⟩ : ∃ accepting,
      exchange.accepted.chan.establish = some accepting ∧ accepting.cnlOpen = opening.cnlOpen ∧
        accepting.cnlAccept =
          Establishing.acceptChannelOf base.estprm accepted.fundingLocal.pubkeys := by
    rw [hacceptedChan, hsame]
    exact ⟨_, rfl, rfl, rfl⟩
  clear hacceptedChan
  subst hacceptedSelf
  obtain ⟨signer, hsignerEq⟩ : ∃ signer, signer =
      exchange.opened.chan.createdSigner crypto opening ⟨exchange.accepted.chan.self.channelId,
        base.minDepth, Establishing.acceptChannelOf base.estprm
          exchange.accepted.chan.self.fundingLocal.pubkeys⟩
        exchange.outpoint := ⟨_, rfl⟩
  have hsigning := @createdSigner_signing crypto exchange.opened.chan opening
    ⟨exchange.accepted.chan.self.channelId, base.minDepth,
      Establishing.acceptChannelOf base.estprm
          exchange.accepted.chan.self.fundingLocal.pubkeys⟩ exchange.outpoint
  rw [hopenedSelf, hsame, ← hsignerEq] at hsigning
  rw [← hsignerEq] at hsigned
  have hsignerIdle : ∀ idx, (signer.cnlAddHtlc idx).enable = false := by
    rw [hsigning.slots, hopening.slots]
    exact exchange.funder_idle
  obtain ⟨hvalid, rfl⟩ := signInitialRemote_eq hsignerIdle hsigned
  -- The fundee reads the outpoint and the signature.
  obtain ⟨createdMsg, hmsg⟩ : ∃ msg : FundingCreatedMsg, msg = ⟨signer.channelId,
      ⟨signer.fundingLocal.txid, signer.fundingLocal.txindex⟩,
      crypto.sign signer.privData.priv.funding (crypto.sighash (toRemoteTx crypto signer)
        signer.fundingSat signer.redeemFund.script)⟩ := ⟨_, rfl⟩
  have hcreatedSized : createdMsg.Sized := by
    rw [hmsg]
    exact ⟨by rw [hsigning.channelId, htemp], by rw [hsigning.outpoint.1, exchange.txid_length],
      hsizes.sign _ _⟩
  have hcreatedRead := read_fundingCreated hcreatedSized (by rw [hmsg]; exact hcreatedMsg)
  have houtpoint : createdMsg.outpoint = exchange.outpoint := by
    rw [hmsg, hsigning.outpoint.1, hsigning.outpoint.2]
  have hfacing : Facing crypto signer
      (exchange.accepted.chan.createdCall crypto accepting createdMsg).self :=
    facing_created hopening haccepting hsigning exchange.funder_idle exchange.fundee_idle houtpoint
  have hsignerSized : signer.fundingLocal.pubkeys.Sized := by
    rw [hsigning.pubkeys]
    exact hfunderSized
  refine ⟨opening, accepting, _, createdMsg, signer, _, hopeningEst, hacceptingEst,
    ⟨_, hacceptRead⟩, ⟨_, hcreatedRead⟩, hsignerEq, rfl, houtpoint, hacceptOpen, hacceptBody,
    ?_, ?_, ?_, hsigning.script, ?_, ?_, hfacing, hvalid, by rw [hmsg], ?_⟩
  · rw [hsame]
    exact ⟨hsigning.limits hopening.limits, hsigning.peerLimits⟩
  · rw [hsame]
    exact ⟨haccepting.limits, haccepting.peerLimits⟩
  · rw [hsigning.role, hopening.role]
  · rw [hsigning.twoOfTwo.own]
    exact priv2pub_of_sized (hsigning.key hopening.key) hsignerSized
  · rw [hfacing.twoOfTwo.2.own]
    exact priv2pub_of_sized haccepting.key hfundeeSized
  · rw [hcreatedChan, hmsg]
    rfl

section

variable {exchange : FundingExchange env crypto} {opening accepting : LnEstablish}
  {acceptMsg : AcceptChannelMsg} {createdMsg : FundingCreatedMsg} {signer : LnSelf}
  {call : ToLocalCall}

/-- The fundee once it has verified what the funder signed. -/
def verifiedFundee (crypto : Crypto) (signer : LnSelf) (call : ToLocalCall) : LnSelf :=
  { call.self with
    commitLocal := { call.self.commitLocal with
      txid := crypto.txid (toRemoteTx crypto signer), htlcNum := 0 } }

/-- What the fundee verifies is what the funder signed. -/
theorem FundingExchange.Run.created_verifies
    (hrun : exchange.Run opening accepting acceptMsg createdMsg signer call)
    (hsound : crypto.Sound) :
    SignedAndVerified crypto signer call ∧
      call.run crypto = (true, verifiedFundee crypto signer call) := by
  have hsignature : call.self.commitLocal.signature = crypto.sign signer.privData.priv.funding
      (crypto.sighash (toRemoteTx crypto signer) signer.fundingSat signer.redeemFund.script) := by
    rw [← hrun.signature, hrun.calling]
    rfl
  have hscript : crypto.sha256 call.self.redeemFund.script = call.self.txFundingScript := by
    rw [hrun.calling]
    rfl
  obtain ⟨-, -, -, -, hopenDelay, -⟩ := LnCommitData.limits_eq_iff.mp hrun.signerLimits.1
  obtain ⟨hacceptDust, -⟩ := LnCommitData.limits_eq_iff.mp hrun.signerLimits.2
  have hdelay : call.toSelfDelay = signer.commitLocal.toSelfDelay := by
    rw [hopenDelay, hrun.calling, ← hrun.sameOpen]
    rfl
  have hdust : call.dustLimitSat = acceptMsg.body.dustLimitSat := by
    rw [hrun.calling, ← hrun.sameAccept]
    rfl
  exact hrun.facing.signedAndVerified hsound hscript hrun.signerKey hrun.callKey hdelay hdust
    hacceptDust hrun.valid hsignature

/-- Both sides compute one channel id. -/
theorem FundingExchange.Run.channelIds
    (hrun : exchange.Run opening accepting acceptMsg createdMsg signer call) :
    lnMiscCalcChannelId createdMsg.outpoint =
      lnMiscCalcChannelId ⟨signer.fundingLocal.txid, signer.fundingLocal.txindex⟩ := by
  rw [← hrun.facing.txid, ← hrun.facing.txindex, hrun.calling]
  rfl

theorem FundingExchange.Run.scripts
    (hrun : exchange.Run opening accepting acceptMsg createdMsg signer call) :
    call.self.txFundingScript = signer.txFundingScript := by
  rw [hrun.script, ← hrun.facing.redeemFund, hrun.calling]
  rfl

/-- The limits that the fundee signs and verifies with are those of the funder. -/
theorem FundingExchange.Run.limits
    (hrun : exchange.Run opening accepting acceptMsg createdMsg signer call) :
    { call.self.commitLocal with
      toSelfDelay := accepting.cnlAccept.toSelfDelay }.limits = signer.commitRemote.limits ∧
    { call.self.commitRemote with
      dustLimitSat := accepting.cnlOpen.dustLimitSat }.limits = signer.commitLocal.limits := by
  obtain ⟨hlocal, hremote⟩ := hrun.callLimits
  rw [hrun.signerLimits.1, hrun.signerLimits.2, hrun.sameOpen, hrun.sameAccept]
  obtain ⟨hdust, hvalue, hreserve, hminimum, -, haccepted⟩ :=
    LnCommitData.limits_eq_iff.mp hlocal
  obtain ⟨-, hvalue', hreserve', hminimum', hdelay, haccepted'⟩ :=
    LnCommitData.limits_eq_iff.mp hremote
  constructor
  · exact LnCommitData.limits_eq_iff.mpr ⟨hdust, hvalue, hreserve, hminimum, rfl, haccepted⟩
  · exact LnCommitData.limits_eq_iff.mpr ⟨rfl, hvalue', hreserve', hminimum', hdelay, haccepted'⟩

/-- The fundee signs what the funder verifies. -/
theorem FundingExchange.Run.signed_verifies
    (hrun : exchange.Run opening accepting acceptMsg createdMsg signer call)
    (hsound : crypto.Sound) {fundee : LnSelf} {funderCall : ToLocalCall} {msg : FundingSignedMsg}
    (hfundee : fundee = Establishing.signedSigner accepting (verifiedFundee crypto signer call))
    (hcall : funderCall =
      exchange.created.chan.signedCall { opening with cnlAccept := acceptMsg.body } msg)
    (hvalid : (toRemoteTx crypto fundee).isValid = true)
    (hsignature : msg.signature = crypto.sign fundee.privData.priv.funding
      (crypto.sighash (toRemoteTx crypto fundee) fundee.fundingSat fundee.redeemFund.script)) :
    SignedAndVerified crypto fundee funderCall ∧
      funderCall.run crypto = (true, { funderCall.self with
        commitLocal := { funderCall.self.commitLocal with
          txid := crypto.txid (toRemoteTx crypto fundee), htlcNum := 0 } }) := by
  have hfacing : Facing crypto fundee funderCall.self := by
    rw [hfundee, hcall, hrun.created]
    exact hrun.facing.symm.commits _ _ _ _ _ _
  have hfundeeKey : crypto.priv2pub fundee.privData.priv.funding = some fundee.ownFundingKey := by
    rw [hfundee]
    exact hrun.callKey
  have hfunderKey : crypto.priv2pub funderCall.self.privData.priv.funding =
      some funderCall.self.ownFundingKey := by
    rw [hcall, hrun.created]
    exact hrun.signerKey
  have hscript : crypto.sha256 funderCall.self.redeemFund.script =
      funderCall.self.txFundingScript := by
    rw [hcall, hrun.created]
    exact hrun.script.symm
  refine hfacing.signedAndVerified hsound hscript hfundeeKey hfunderKey ?_ rfl ?_ hvalid ?_
  · rw [hcall, hfundee, Establishing.signedSigner, hrun.sameAccept]
    rfl
  · rw [hcall, hfundee, Establishing.signedSigner, hrun.sameOpen]
    rfl
  · rw [hcall]
    exact hsignature

/-- With that the funder's part is over. -/
theorem FundingExchange.Run.ends
    (hrun : exchange.Run opening accepting acceptMsg createdMsg signer call)
    {fundingSigned : Bytes} (accepts : Bool) {msg : FundingSignedMsg} {pos : Nat}
    {verified : LnSelf}
    (hreads : readWith lnMsgFundingSignedRead fundingSigned = .done msg pos)
    (hchannel : msg.channelId = lnMiscCalcChannelId createdMsg.outpoint)
    (hverified : (exchange.created.chan.signedCall
      { opening with cnlAccept := acceptMsg.body } msg).run crypto = (true, verified)) :
    exchange.created.chan.recvFundingSigned crypto fundingSigned accepts =
      some ⟨true, { exchange.created.chan with
        self := (Establishing.fundingWait crypto verified accepts).self },
        (Establishing.fundingWait crypto verified accepts).trace, []⟩ := by
  apply Establishing.recvFundingSigned_eq _ _ hreads _ hverified
  · rw [hrun.created]
    exact hrun.signerRole
  · rw [hrun.created]
  · rw [hchannel, hrun.created]
    exact hrun.channelIds

end

/-- Where the exchange reaches its end, each side has verified what the other signed, and both
hold the same channel. -/
theorem FundingExchange.agrees (exchange : FundingExchange env crypto)
    (hsizes : WireSizes env crypto) (hsound : crypto.Sound) :
    (∃ signer call,
      exchange.opened.chan.createdSignerOf env crypto exchange.acceptChannel exchange.outpoint =
        some signer ∧
      exchange.accepted.chan.createdCallOf crypto exchange.fundingCreated = some call ∧
      SignedAndVerified crypto signer call) ∧
    ∀ fundeeWaits funderWaits signed fundingSigned ended,
      exchange.accepted.chan.recvFundingCreated crypto exchange.fundingCreated fundeeWaits =
        some signed →
      signed.sent = [fundingSigned] →
      exchange.created.chan.recvFundingSigned crypto fundingSigned funderWaits = some ended →
      (∃ signer call,
        exchange.accepted.chan.signedSignerOf crypto exchange.fundingCreated = some signer ∧
        exchange.created.chan.signedCallOf fundingSigned = some call ∧
        SignedAndVerified crypto signer call) ∧
      ended.ret = true ∧ Agreement ended.chan.self signed.chan.self := by
  obtain ⟨opening, accepting, acceptMsg, createdMsg, signer, call, hrun⟩ := exchange.run hsizes
  obtain ⟨hverifies, hcallRun⟩ := hrun.created_verifies hsound
  obtain ⟨_, hreadsAccept⟩ := hrun.readsAccept
  obtain ⟨_, hreadsCreated⟩ := hrun.readsCreated
  have hcallOf : exchange.accepted.chan.createdCallOf crypto exchange.fundingCreated =
      some call := by
    rw [Establishing.createdCallOf, hrun.fundeeEst, Option.bind_some, hreadsCreated, hrun.calling]
  refine ⟨⟨signer, call, ?_, hcallOf, hverifies⟩, ?_⟩
  · rw [Establishing.createdSignerOf, hrun.funderEst, Option.bind_some, hreadsAccept, hrun.signing]
  intro fundeeWaits funderWaits signed fundingSigned ended hcreated hsent hended
  obtain ⟨est, msg, _, verified, signedSelf, hest, hread, hverified, hsigned, hchan, hsignedMsg⟩ :=
    Establishing.recvFundingCreated_sent hcreated hsent
  obtain rfl := Option.some_inj.mp (hrun.fundeeEst.symm.trans hest)
  obtain ⟨rfl, -⟩ := Result.done.inj (hreadsCreated.symm.trans hread)
  rw [← hrun.calling, hcallRun] at hverified
  obtain rfl := (Prod.mk.inj hverified).2
  -- The fundee signs in turn.
  obtain ⟨fundeeSigner, hfundeeSigner⟩ : ∃ party, party =
      Establishing.signedSigner accepting (verifiedFundee crypto signer call) := ⟨_, rfl⟩
  rw [← hfundeeSigner] at hsigned
  have hfundeeIdle : ∀ idx, (fundeeSigner.cnlAddHtlc idx).enable = false := by
    rw [hfundeeSigner]
    exact hrun.facing.idle.2
  obtain ⟨hvalid, rfl⟩ := signInitialRemote_eq hfundeeIdle hsigned
  -- The funder reads the channel id and the signature.
  have htxid : createdMsg.outpoint.txid.length = 32 := by
    rw [hrun.outpoint, exchange.txid_length]
  obtain ⟨signedMsg, hmsg⟩ : ∃ msg : FundingSignedMsg, msg =
      ⟨lnMiscCalcChannelId createdMsg.outpoint, crypto.sign fundeeSigner.privData.priv.funding
        (crypto.sighash (toRemoteTx crypto fundeeSigner) fundeeSigner.fundingSat
          fundeeSigner.redeemFund.script)⟩ := ⟨_, rfl⟩
  have hsized : signedMsg.Sized := by
    rw [hmsg]
    exact ⟨by rw [lnMiscCalcChannelId_length, htxid], hsizes.sign _ _⟩
  have hreadsSigned := read_fundingSigned hsized (by rw [hmsg]; exact hsignedMsg)
  obtain ⟨funderCall, hfunderCall⟩ : ∃ call, call =
      exchange.created.chan.signedCall { opening with cnlAccept := acceptMsg.body } signedMsg :=
    ⟨_, rfl⟩
  obtain ⟨hverifies', hcallRun'⟩ := hrun.signed_verifies hsound hfundeeSigner hfunderCall hvalid
    (congrArg FundingSignedMsg.signature hmsg)
  have hends := hrun.ends funderWaits hreadsSigned (congrArg FundingSignedMsg.channelId hmsg)
    (by rw [← hfunderCall]; exact hcallRun')
  obtain rfl := Option.some_inj.mp (hended.symm.trans hends)
  refine ⟨⟨fundeeSigner, funderCall, ?_, ?_, hverifies'⟩, rfl, ?_⟩
  · rw [Establishing.signedSignerOf, hrun.fundeeEst, Option.bind_some, hcallOf, Option.map_some,
      hcallRun, hfundeeSigner]
  · rw [Establishing.signedCallOf, hrun.created, Option.bind_some, hreadsSigned, hfunderCall,
      hrun.created]
  · rw [hchan]
    apply Agreement.wait
    rw [hfunderCall, hfundeeSigner, hrun.created]
    constructor
    · exact hrun.facing.redeemFund
    · exact hrun.scripts
    · exact hrun.facing.txid
    · exact hrun.facing.txindex
    · exact hrun.channelIds
    · exact hrun.facing.obscured
    · exact hrun.facing.fundingSat
    · exact hrun.facing.feeratePerKw
    · exact hrun.facing.ourMsat
    · exact hrun.facing.theirMsat
    · exact hrun.limits.1
    · exact hrun.limits.2

/-! ### An exchange of sized symbols -/

/-- A key has 33 bytes. -/
def WireEnv.sized : WireEnv := ⟨fun key => key.length == 33, List.replicate 32 0⟩

theorem sized_wireSizes : WireSizes .sized .sized where
  chkpub _ hkey := eq_of_beq hkey
  sign _ _ := by simp [Crypto.sized]
  genesis := rfl

/-- A node before it opens a channel, with its parameters. -/
def sizedNode (seed : UInt8) (estprm : LnEstablishPrm) : Establishing where
  self := lnInit (List.replicate 32 seed) [] false
  funding := false
  minDepth := 0
  establish := some {
    estprm
    minDepth := 3
    fundin := false
    cnlOpen := symbolicOpen 0 0
    cnlAccept := Establishing.acceptChannelOf estprm (symbolicKeys 0) }

/-- The parameters of the funder differ from those of the fundee. -/
def sizedFunderPrm : LnEstablishPrm where
  dustLimitSat := 600
  maxHtlcValueInFlightMsat := 500000000
  channelReserveSat := 900
  htlcMinimumMsat := 1
  toSelfDelay := 144
  maxAcceptedHtlcs := 10

namespace SizedExchange

def opened : EstablishOutcome :=
  ((sizedNode 3 sizedFunderPrm).lnOpenChannelCreate .sized .sized 1000000 1000 1000
    (List.replicate 32 9) (symbolicKeys 3)).getD (sizedNode 3 sizedFunderPrm).reject

def openChannel : Bytes := opened.sent.headD []

def accepted : EstablishOutcome :=
  ((sizedNode 1 symbolicPrm).recvOpenChannel .sized .sized openChannel 1000
    (symbolicKeys 1)).getD (sizedNode 1 symbolicPrm).reject

def acceptChannel : Bytes := accepted.sent.headD []

def created : EstablishOutcome :=
  (opened.chan.recvAcceptChannel .sized .sized acceptChannel (some symbolicOutpoint)).getD
    opened.chan.reject

def fundingCreated : Bytes := created.sent.headD []

theorem eq_some_getD {α : Type} {value : Option α} (default : α) (hsome : value.isSome = true) :
    value = some (value.getD default) := by
  obtain ⟨inner, rfl⟩ := Option.isSome_iff_exists.mp hsome
  rfl

theorem eq_headD {messages : List Bytes} (hone : messages.length = 1) :
    messages = [messages.headD []] := by
  obtain ⟨message, rfl⟩ := List.length_eq_one_iff.mp hone
  rfl

/-- An exchange up to `funding_created`. -/
def exchange : FundingExchange .sized .sized where
  funder := sizedNode 3 sizedFunderPrm
  fundee := sizedNode 1 symbolicPrm
  fundingSat := 1000000
  pushSat := 1000
  feeRate := 1000
  latest := 1000
  tempChannelId := List.replicate 32 9
  funderPriv := symbolicKeys 3
  fundeePriv := symbolicKeys 1
  outpoint := symbolicOutpoint
  opened
  accepted
  created
  openChannel
  acceptChannel
  fundingCreated
  opens := eq_some_getD _ (by decide +kernel)
  sendsOpen := eq_headD (by decide +kernel)
  accepts := eq_some_getD _ (by decide +kernel)
  sendsAccept := eq_headD (by decide +kernel)
  creates := eq_some_getD _ (by decide +kernel)
  sendsCreated := eq_headD (by decide +kernel)
  tempChannelId_length := rfl
  txid_length := rfl
  funder_idle _ := rfl
  fundee_idle _ := rfl

def signed : EstablishOutcome :=
  (exchange.accepted.chan.recvFundingCreated .sized exchange.fundingCreated true).getD
    exchange.accepted.chan.reject

def fundingSigned : Bytes := signed.sent.headD []

def ended : EstablishOutcome :=
  (exchange.created.chan.recvFundingSigned .sized fundingSigned true).getD
    exchange.created.chan.reject

theorem exchange_agrees : ended.ret = true ∧ Agreement ended.chan.self signed.chan.self := by
  have hsigned : exchange.accepted.chan.recvFundingCreated .sized exchange.fundingCreated true =
      some signed := eq_some_getD _ (by decide +kernel)
  have hended : exchange.created.chan.recvFundingSigned .sized fundingSigned true =
      some ended := eq_some_getD _ (by decide +kernel)
  exact ((exchange.agrees sized_wireSizes sized_sound).2 true true signed fundingSigned ended
    hsigned (eq_headD (by decide +kernel)) hended).2

end SizedExchange

end Ptarmigan
