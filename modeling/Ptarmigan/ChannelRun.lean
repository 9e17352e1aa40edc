/-
One channel over time: the events that reach it from the peer and from the
application, what is kept on disk, and the runs in which the process may stop at
any point of a handler and start again from what was saved.
-/
import Ptarmigan.Library.Run
import Ptarmigan.Establish
import Ptarmigan.Reestablish

namespace Ptarmigan

open TransitionSystem

/-- What the surroundings answer while a message is handled: the onion layer, the
next channel of a forwarded HTLC, the bitcoin node. -/
structure RecvEnv where
  onion : OnionRead := { verdict := .fail [] }
  answer : FwdAnswer := .refused []
  broadcast : Bool := false
deriving DecidableEq, Repr

/-- The events of a channel: a message with its `channel_id`, the idle processing,
the requests of the application, and the end of the `channel_reestablish`
exchange. -/
inductive ChannelEvent
  | recv (channelId : Bytes) (msg : LnMsg) (env : RecvEnv)
  | idle
  | addHtlc (req : AddHtlcRequest)
  | addHtlcFwd (req : AddHtlcRequest)
  | startFwd (idx : HtlcIdx)
  | fulfillHtlc (idx : HtlcIdx) (preimage : Bytes)
  | failHtlc (idx : HtlcIdx) (reason : Bytes)
  | shutdown (fee : UInt64)
  | reestablished
deriving DecidableEq, Repr

/-- The handlers of `RECV_FUNC`. -/
def recvFunc (crypto : Crypto) (self : LnSelf) (channelId : Bytes) (env : RecvEnv) :
    LnMsg → Outcome
  | .updateAddHtlc id amountMsat paymentSha256 cltvExpiry packet =>
      recvUpdateAddHtlc crypto self channelId id amountMsat paymentSha256 cltvExpiry packet
        env.onion env.answer
  | .updateFulfillHtlc id preimage => recvUpdateFulfillHtlc crypto self channelId id preimage
  | .updateFailHtlc id reason => recvUpdateFailHtlc self channelId id reason
  | .updateFailMalformedHtlc id sha256Onion failureCode =>
      recvUpdateFailMalformedHtlc self channelId id sha256Onion failureCode
  | .commitmentSigned signature htlcSignatures =>
      recvCommitmentSigned crypto self channelId signature htlcSignatures
  | .revokeAndAck prevSecret newCommitpt =>
      recvRevokeAndAck crypto self channelId prevSecret newCommitpt
  | .updateFee feeratePerKw => recvUpdateFee self channelId feeratePerKw
  | .fundingLocked perCommitpt => recvFundingLocked crypto self channelId perCommitpt
  | .shutdown scriptpk => recvShutdown crypto self channelId scriptpk
  | .closingSigned feeSat signature =>
      recvClosingSigned crypto self channelId feeSat signature env.broadcast
  | .channelReestablish reest => recvChannelReestablish crypto self channelId reest

/-- `ln_recv`: nothing is handled before `init` has been exchanged. -/
def lnRecv (crypto : Crypto) (self : LnSelf) (channelId : Bytes) (msg : LnMsg)
    (env : RecvEnv) : Outcome :=
  if self.initFlag.exchanged then recvFunc crypto self channelId env msg else .reject self

/-- What an event does.  A refused request changes nothing more than its handler did. -/
def handle (crypto : Crypto) (self : LnSelf) : ChannelEvent → Outcome
  | .recv channelId msg env => lnRecv crypto self channelId msg env
  | .idle => lnRecvIdleProc crypto self
  | .addHtlc req => ⟨true, (lnAddHtlcSet crypto self req).2, []⟩
  | .addHtlcFwd req => ⟨true, (lnAddHtlcSetFwd crypto self req).2, []⟩
  | .startFwd idx => ⟨true, lnAddHtlcStartFwd self idx, []⟩
  | .fulfillHtlc idx preimage => lnFulfillHtlcSet self idx preimage
  | .failHtlc idx reason => ⟨true, lnFailHtlcSet crypto self idx reason, []⟩
  | .shutdown fee =>
      let (made, msg) := lnShutdownCreate (lnShutdownUpdateFee self fee)
      ⟨true, made.self, made.trace ++ [.sendReq none msg]⟩
  | .reestablished => lnChannelReestablishAfter crypto self

/-- A message that the effect hands to the transport. -/
def Effect.sent : Effect → Option LnMsg
  | .sendReq _ msg => some msg
  | _ => none

/-- The effect ends the connection or the process. -/
def Effect.ends : Effect → Bool
  | .quit => true
  | .abort => true
  | _ => false

/-- The channel goes on after the event. -/
def Outcome.continues (outcome : Outcome) : Bool :=
  outcome.ret && !outcome.trace.any Effect.ends

/-! ### The database -/

/-- What `ln_db_self_save` and `ln_db_secret_save` have written. -/
structure Db where
  chan : LnSelf
  secret : LnSelfPriv

/-- A slot as it is written over an older one.  An empty preimage is not written,
and the shared secret goes under a key that is never read. -/
def LnUpdateAddHtlc.saveOver (htlc old : LnUpdateAddHtlc) : LnUpdateAddHtlc :=
  { htlc with
    bufPaymentPreimage :=
      if htlc.bufPaymentPreimage.isEmpty then old.bufPaymentPreimage
      else htlc.bufPaymentPreimage
    bufSharedSecret := [] }

/-- `ln_db_self_save`: everything but the secrets and what lives only as long as a
connection. -/
def Db.saveSelf (db : Db) (self : LnSelf) : Db :=
  { db with
    chan := { self with
      privData := {}
      initFlag := {}
      lfeatureLocalDataloss := false
      reestCommitNum := 0
      reestRevokeNum := 0
      closeFeeSat := 0
      closeLastFeeSat := 0
      cnlAddHtlc := fun idx => (self.cnlAddHtlc idx).saveOver (db.chan.cnlAddHtlc idx) } }

def Db.write (db : Db) : Effect → Db
  | .selfSave self => db.saveSelf self
  | .secretSave privData => { db with secret := privData }
  | _ => db

def Db.writes (db : Db) (trace : List Effect) : Db :=
  trace.foldl Db.write db

/-- The channel as `ln_lmdb_self_load` restores it. -/
def Db.load (crypto : Crypto) (db : Db) : LnSelf :=
  LnSelf.updateScriptkeys crypto { db.chan with privData := db.secret }

/-! ### Runs -/

/-- A channel, its database, and the messages handed to the transport so far.  While
the channel is not running only a restart is possible.  `reestablishing` is set
until the `channel_reestablish` exchange of the connection has been completed. -/
structure ChannelState where
  self : LnSelf
  db : Db
  running : Bool
  reestablishing : Bool
  sent : List LnMsg

/-- A step of a run: an event handled to its end, an event during which the process
stops after the given number of effects, or a restart with a new connection. -/
inductive ChannelLabel
  | event (ev : ChannelEvent)
  | stop (ev : ChannelEvent) (done : Nat)
  | restart (dataloss : Bool)

/-- The event of a step. -/
def ChannelLabel.ev : ChannelLabel → Option ChannelEvent
  | .event ev => some ev
  | .stop ev _ => some ev
  | .restart _ => none

/-- The effects of the event of a step that took place. -/
def ChannelLabel.performed (crypto : Crypto) (self : LnSelf) : ChannelLabel → List Effect
  | .event ev => (handle crypto self ev).trace
  | .stop ev done => (handle crypto self ev).trace.take done
  | .restart _ => []

/-- The effects that took place become visible: messages on the transport, saves in
the database. -/
def ChannelState.perform (state : ChannelState) (trace : List Effect) : ChannelState :=
  { state with
    db := state.db.writes trace
    sent := state.sent ++ trace.filterMap Effect.sent }

/-- The exchange of `channel_reestablish` ends once, after a reconnection. -/
def ChannelState.enabled (state : ChannelState) (ev : ChannelEvent) : Bool :=
  state.running && (ev != .reestablished || state.reestablishing)

def channelNext (crypto : Crypto) (state : ChannelState) : ChannelLabel → Option ChannelState
  | .event ev =>
      if state.enabled ev then
        let outcome := handle crypto state.self ev
        some { state.perform outcome.trace with
          self := outcome.self
          running := outcome.continues
          reestablishing := state.reestablishing && ev != .reestablished }
      else none
  | .stop ev done =>
      if state.enabled ev then
        some { state.perform ((handle crypto state.self ev).trace.take done) with
          running := false }
      else none
  | .restart dataloss =>
      let self := { state.db.load crypto with
        initFlag := ⟨true, true⟩
        lfeatureLocalDataloss := dataloss }
      some { state with
        self
        running := true
        reestablishing := true
        sent := state.sent ++ [lnChannelReestablishCreate crypto self] }

/-- The state right after the funding exchange. -/
def ChannelState.afterFunding (outcome : Outcome) : ChannelState :=
  { self := outcome.self
    db := Db.writes ⟨{}, {}⟩ outcome.trace
    running := true
    reestablishing := false
    sent := [] }

/-- A channel whose funding exchange is complete, on either side of it. -/
inductive FundingDone (crypto : Crypto) : Outcome → Prop
  | fundee {seed scriptpk : Bytes} {dataloss : Bool} {openCh : LnOpenChannel}
      {estprm : LnEstablishPrm} {priv : Fundkeys} {outpoint : FundingOutpoint}
      {signature : Bytes} {outcome : Outcome} :
      openedAsFundee crypto (lnInit seed scriptpk dataloss) openCh estprm priv outpoint
        signature = some outcome →
      FundingDone crypto outcome
  | funder {seed scriptpk : Bytes} {dataloss : Bool} {estprm : LnEstablishPrm}
      {fundingSat pushSat : UInt64} {feeRate : UInt32} {channelId : Bytes} {priv : Fundkeys}
      {acceptCh : LnAcceptChannel} {outpoint : FundingOutpoint} {signature : Bytes}
      {outcome : Outcome} :
      openedAsFunder crypto (lnInit seed scriptpk dataloss) estprm fundingSat pushSat feeRate
        channelId priv acceptCh outpoint signature = some outcome →
      FundingDone crypto outcome

/-- The runs of one channel, with any peer and any application. -/
def channelSystem (crypto : Crypto) : System ChannelState ChannelLabel where
  start state := ∃ outcome, FundingDone crypto outcome ∧ state = .afterFunding outcome
  next := channelNext crypto

/-! ### A channel of symbols -/

/-- Symbolic keys, told apart by a number. -/
def symbolicKeys (party : UInt8) : Fundkeys where
  funding := [party, 1]
  revocation := [party, 2]
  payment := [party, 3]
  delayed := [party, 4]
  htlc := [party, 5]
  perCommit := [party, 6]

def symbolicPrm : LnEstablishPrm where
  dustLimitSat := 1000
  maxHtlcValueInFlightMsat := 1000000000
  channelReserveSat := 1000
  htlcMinimumMsat := 0
  toSelfDelay := 40
  maxAcceptedHtlcs := 5

/-- An `open_channel` of the given funding amount and push. -/
def symbolicOpen (fundingSat pushMsat : UInt64) : LnOpenChannel where
  fundingSat
  pushMsat
  dustLimitSat := 1000
  maxHtlcValueInFlightMsat := 1000000000
  channelReserveSat := 1000
  htlcMinimumMsat := 0
  feeratePerKw := 1000
  toSelfDelay := 40
  maxAcceptedHtlcs := 5
  pubkeys := symbolicKeys 2

def symbolicOutpoint : FundingOutpoint where
  txid := List.replicate 32 7
  txindex := 0

/-- The signature that the peer, which holds the second key, makes for the local
commitment transaction. -/
def symbolicPeerSignature (self : LnSelf) (commitNum : UInt64) : Bytes :=
  let build := buildToLocal .symbolic self commitNum self.commitRemote.toSelfDelay
    self.commitLocal.dustLimitSat
  Crypto.symbolic.sign (symbolicKeys 2).funding
    (Crypto.symbolic.sighash build.committx.tx self.fundingSat self.redeemFund.script)

/-- The signatures that it makes for the HTLC transactions. -/
def peerHtlcSignatures (crypto : Crypto) (self : LnSelf) (commitNum : UInt64) : List Bytes :=
  let build := buildToLocal crypto self commitNum self.commitRemote.toSelfDelay
    self.commitLocal.dustLimitSat
  let priv := crypto.derkeyPrivkey self.fundingRemote.pubkeys.htlc
    self.fundingLocal.pubkeys.perCommit (symbolicKeys 2).htlc
  (htlcVouts build.committx.vout).map fun out =>
    let tx := htlctxOf crypto build.feeinfo build.bufWs (crypto.txid build.committx.tx) out
    crypto.sign priv (crypto.sighash tx out.2.1 out.2.2.script)

/-- The funding exchange of a fundee that holds the first key. -/
def symbolicFundee (fundingSat pushMsat : UInt64) : Option Outcome :=
  let fresh := lnInit (List.replicate 32 1) [] false
  let openCh := symbolicOpen fundingSat pushMsat
  (recvOpenChannel .symbolic fresh openCh symbolicPrm (symbolicKeys 1)).bind fun offered =>
    openedAsFundee .symbolic fresh openCh symbolicPrm (symbolicKeys 1) symbolicOutpoint
      (symbolicPeerSignature (offered.setFunding .symbolic symbolicOutpoint) 0)

theorem symbolicFundee_done {fundingSat pushMsat : UInt64} {outcome : Outcome}
    (hopened : symbolicFundee fundingSat pushMsat = some outcome) :
    FundingDone .symbolic outcome := by
  simp only [symbolicFundee, Option.bind_eq_some_iff] at hopened
  obtain ⟨_, _, hdone⟩ := hopened
  exact .fundee hdone

/-- The script runs, as far as it is permitted, to a history that passes the check. -/
def symbolicCheck (fundingSat pushMsat : UInt64)
    (permits : ChannelState → ChannelLabel → Bool)
    (script : List (ChannelState → ChannelLabel))
    (check : ChannelState → List ChannelState → Bool) : Bool :=
  ((symbolicFundee fundingSat pushMsat).bind fun outcome =>
    (channelSystem .symbolic).trail permits (.afterFunding outcome) [] script).any fun final =>
      check final.1 final.2

theorem history_of_symbolicCheck {fundingSat pushMsat : UInt64}
    {permits : ChannelState → ChannelLabel → Bool} {script : List (ChannelState → ChannelLabel)}
    {check : ChannelState → List ChannelState → Bool}
    {allowed : ChannelState → ChannelLabel → Prop}
    (hallowed : ∀ choose ∈ script, ∀ before, permits before (choose before) = true →
      allowed before (choose before))
    (hcheck : symbolicCheck fundingSat pushMsat permits script check = true) :
    ∃ (outcome : Outcome) (state : ChannelState) (past : List ChannelState),
      symbolicFundee fundingSat pushMsat = some outcome ∧
        (channelSystem Crypto.symbolic).HistoryUnder allowed (state :: past) ∧
        (channelSystem Crypto.symbolic).RunUnder allowed (.afterFunding outcome) state ∧
        check state past = true := by
  simp only [symbolicCheck, Option.any_eq_true, Option.bind_eq_some_iff] at hcheck
  obtain ⟨⟨state, past⟩, ⟨outcome, hopened, htrail⟩, hchecked⟩ := hcheck
  have hstart : (channelSystem Crypto.symbolic).start (.afterFunding outcome) :=
    ⟨outcome, symbolicFundee_done hopened, rfl⟩
  obtain ⟨hhistory, hrun⟩ := System.history_of_trail hallowed (.start hstart) htrail
  exact ⟨outcome, state, past, hopened, hhistory, hrun, hchecked⟩

theorem permitted_of_symbolicCheck {fundingSat pushMsat : UInt64}
    {permits : ChannelState → ChannelLabel → Bool} {script : List (ChannelState → ChannelLabel)}
    {check : ChannelState → List ChannelState → Bool}
    (hcheck : symbolicCheck fundingSat pushMsat permits script check = true) :
    ∃ (outcome : Outcome) (state : ChannelState) (past : List ChannelState),
      symbolicFundee fundingSat pushMsat = some outcome ∧
        (channelSystem Crypto.symbolic).HistoryUnder
          (fun before label => permits before label = true) (state :: past) ∧
        (channelSystem Crypto.symbolic).RunUnder
          (fun before label => permits before label = true) (.afterFunding outcome) state ∧
        check state past = true := by
  have hallowed : ∀ choose ∈ script, ∀ before, permits before (choose before) = true →
      (fun before label => permits before label = true) before (choose before) :=
    fun _ _ _ hpermits => hpermits
  exact history_of_symbolicCheck hallowed hcheck

/-- All steps are permitted. -/
def permitAll (_ : ChannelState) (_ : ChannelLabel) : Bool := true

theorem anyStep_of_permitAll (script : List (ChannelState → ChannelLabel)) :
    ∀ choose ∈ script, ∀ before : ChannelState,
      permitAll before (choose before) = true → System.AnyStep before (choose before) :=
  fun _ _ _ _ => trivial

theorem run_of_trail {crypto : Crypto} {source state : ChannelState}
    {past : List ChannelState} {script : List (ChannelState → ChannelLabel)}
    (hstart : (channelSystem crypto).start source)
    (htrail : (channelSystem crypto).trail permitAll source [] script = some (state, past)) :
    (channelSystem crypto).History (state :: past) ∧
        (channelSystem crypto).RunUnder System.AnyStep source state :=
  System.history_of_trail (anyStep_of_permitAll script) (.start hstart) htrail

theorem reachable_of_trail {crypto : Crypto} {source state : ChannelState}
    {past : List ChannelState} {script : List (ChannelState → ChannelLabel)}
    (hstart : (channelSystem crypto).start source)
    (htrail : (channelSystem crypto).trail permitAll source [] script = some (state, past)) :
    (channelSystem crypto).Reachable state :=
  (run_of_trail hstart htrail).1.reachableUnder

theorem run_of_symbolicCheck {fundingSat pushMsat : UInt64}
    {script : List (ChannelState → ChannelLabel)}
    {check : ChannelState → List ChannelState → Bool}
    (hcheck : symbolicCheck fundingSat pushMsat permitAll script check = true) :
    ∃ (state : ChannelState) (past : List ChannelState),
      (channelSystem Crypto.symbolic).History (state :: past) ∧ check state past = true := by
  obtain ⟨_, state, past, _, hhistory, _, hchecked⟩ :=
    history_of_symbolicCheck (anyStep_of_permitAll script) hcheck
  exact ⟨state, past, hhistory, hchecked⟩

end Ptarmigan
