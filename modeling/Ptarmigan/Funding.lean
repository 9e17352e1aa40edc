/-
The funding exchange message by message: what each side keeps in `p_establish` between two
messages, and the handlers from the bytes that arrive to the bytes that are sent.
-/
import Ptarmigan.EstablishMsg

namespace Ptarmigan

/-- `ln_establish_t`: the parameters of the node, whether `p_fundin` is set, and the numbers of
the messages that open the channel.  The keys of both messages are those of the channel. -/
structure LnEstablish where
  estprm : LnEstablishPrm
  minDepth : UInt32
  fundin : Bool
  cnlOpen : LnOpenChannel
  cnlAccept : LnAcceptChannel
deriving DecidableEq, Repr

/-- A channel with what it holds for its establishment: `LN_FUNDFLAG_FUNDING`, `min_depth` and
`p_establish`, which is `none` once it has been released. -/
structure Establishing where
  self : LnSelf
  funding : Bool
  minDepth : UInt32
  establish : Option LnEstablish

/-- The outcome of a handler with the messages it sent. -/
structure EstablishOutcome where
  ret : Bool
  chan : Establishing
  trace : List Effect
  sent : List Bytes

open WireReader

namespace Establishing

variable (env : WireEnv) (crypto : Crypto) (chan : Establishing)

def reject (chan : Establishing) : EstablishOutcome :=
  ⟨false, chan, [], []⟩

/-- `free_establish`. -/
def freeEstablish (bEndEstablish : Bool) : Establishing :=
  { chan with
    funding := false
    establish :=
      if bEndEstablish then none
      else chan.establish.map fun est => { est with fundin := false } }

/-- `open_channel` as `ln_open_channel_create` fills it in. -/
def openChannelOf (estprm : LnEstablishPrm) (fundingSat pushSat : UInt64) (feeRate : UInt32)
    (pubkeys : Fundkeys) : LnOpenChannel where
  fundingSat
  pushMsat := pushSat * 1000
  dustLimitSat := estprm.dustLimitSat
  maxHtlcValueInFlightMsat := estprm.maxHtlcValueInFlightMsat
  channelReserveSat := estprm.channelReserveSat
  htlcMinimumMsat := estprm.htlcMinimumMsat
  feeratePerKw := feeRate
  toSelfDelay := estprm.toSelfDelay
  maxAcceptedHtlcs := estprm.maxAcceptedHtlcs
  pubkeys

/-- `ln_open_channel_create`, for the temporary channel id and the private keys that were drawn.
Here and below `none` stands for a process that is gone, after a failed `assert` or an access
through a null pointer. -/
def lnOpenChannelCreate (fundingSat pushSat : UInt64) (feeRate : UInt32) (tempChannelId : Bytes)
    (priv : Fundkeys) : Option EstablishOutcome :=
  if chan.funding then some chan.reject
  else
    chan.establish.bind fun est =>
    if est.fundin then none
    else
      match Ptarmigan.lnOpenChannelCreate crypto chan.self est.estprm fundingSat pushSat feeRate
          tempChannelId priv with
      | none => some chan.reject
      | some self =>
          let cnlOpen := openChannelOf est.estprm fundingSat pushSat feeRate
            self.fundingLocal.pubkeys
          some {
            ret := true
            chan := { chan with
              self, funding := true, establish := some { est with fundin := true, cnlOpen } }
            trace := []
            sent := (lnMsgOpenChannelCreate env ⟨self.channelId, cnlOpen, 1⟩).toList }

/-- `accept_channel` as `recv_open_channel` fills it in. -/
def acceptChannelOf (estprm : LnEstablishPrm) (pubkeys : Fundkeys) : LnAcceptChannel where
  dustLimitSat := estprm.dustLimitSat
  maxHtlcValueInFlightMsat := estprm.maxHtlcValueInFlightMsat
  channelReserveSat := estprm.channelReserveSat
  htlcMinimumMsat := estprm.htlcMinimumMsat
  toSelfDelay := estprm.toSelfDelay
  maxAcceptedHtlcs := estprm.maxAcceptedHtlcs
  pubkeys

/-- `recv_open_channel`.  The message is read over the channel id and the keys of the peer;
`latest` is the feerate of the bitcoin node. -/
def recvOpenChannel (bytes : Bytes) (latest : UInt32) (priv : Fundkeys) :
    Option EstablishOutcome :=
  if chan.self.isFunder then some chan.reject
  else if chan.funding then some chan.reject
  else if chan.self.shortChannelId ≠ 0 then some chan.reject
  else
    chan.establish.bind fun est =>
    let read (msg : OpenChannelMsg) : Establishing :=
      { chan with
        self := { chan.self with
          channelId := msg.tempChannelId
          fundingRemote := { chan.self.fundingRemote with pubkeys := msg.body.pubkeys } }
        establish := some { est with cnlOpen := msg.body } }
    match readWith (lnMsgOpenChannelRead env
      ⟨chan.self.channelId, { est.cnlOpen with pubkeys := chan.self.fundingRemote.pubkeys }, 0⟩)
      bytes with
    | .fault _ => none
    | .refused msg => some (read msg).reject
    | .done msg _ =>
        let chan := read msg
        let self := { chan.self with feeratePerKw := latest }
        match Ptarmigan.recvOpenChannel crypto self msg.body est.estprm priv with
        | none => some (reject { chan with self })
        | some self =>
            let cnlAccept := acceptChannelOf est.estprm self.fundingLocal.pubkeys
            some {
              ret := true
              chan :=
                { self, funding := true, minDepth := est.minDepth
                  establish := some { est with cnlOpen := msg.body, cnlAccept } }
              trace := []
              sent := (lnMsgAcceptChannelCreate env
                ⟨self.channelId, est.minDepth, cnlAccept⟩).toList }

/-- `create_funding_tx`, for a wallet that puts the 2-of-2 output at the outpoint, or refuses. -/
def createFundingTx (self : LnSelf) (outpoint : Option FundingOutpoint) : Bool × LnSelf :=
  let self := LnSelf.create2of2 { self with txFundingScript := [] }
  match outpoint with
  | none => (false, self)
  | some outpoint => (true, self.setFunding crypto outpoint)

/-- `recv_accept_channel`.  The message is read over the keys of the peer. -/
def recvAcceptChannel (bytes : Bytes) (outpoint : Option FundingOutpoint) :
    Option EstablishOutcome :=
  if !chan.self.isFunder then some chan.reject
  else
    chan.establish.bind fun est =>
    let read (msg : AcceptChannelMsg) : Establishing :=
      { chan with
        self := { chan.self with
          fundingRemote := { chan.self.fundingRemote with pubkeys := msg.body.pubkeys } }
        establish := some { est with cnlAccept := msg.body } }
    match readWith (lnMsgAcceptChannelRead env
      ⟨[], chan.minDepth, { est.cnlAccept with pubkeys := chan.self.fundingRemote.pubkeys }⟩)
      bytes with
    | .fault _ => none
    | .refused msg => some (read msg).reject
    | .done msg _ =>
        let chan := read msg
        let self := chan.self
        if msg.tempChannelId ≠ self.channelId then some chan.reject
        else
          let self := LnSelf.updateScriptkeys crypto { self with
            commitRemote := { self.commitRemote with
              dustLimitSat := msg.body.dustLimitSat
              maxHtlcValueInFlightMsat := msg.body.maxHtlcValueInFlightMsat
              channelReserveSat := msg.body.channelReserveSat
              htlcMinimumMsat := msg.body.htlcMinimumMsat
              toSelfDelay := msg.body.toSelfDelay
              maxAcceptedHtlcs := msg.body.maxAcceptedHtlcs }
            fundingRemote := { self.fundingRemote with
              prevPercommit := self.fundingRemote.pubkeys.perCommit } }
          let chan := { chan with minDepth := msg.minDepth }
          if !est.fundin then none
          else
            match createFundingTx crypto self outpoint with
            | (false, self) => some (reject { chan with self })
            | (true, self) =>
                let self := { self with
                  obscured := lnScriptCalcObscuredTxnum crypto self.fundingLocal.pubkeys.payment
                    self.fundingRemote.pubkeys.payment
                  commitLocal := { self.commitLocal with toSelfDelay := est.cnlOpen.toSelfDelay } }
                match signInitialRemote crypto self with
                | none => some (reject { chan with self })
                | some self =>
                    some {
                      ret := true
                      chan := { chan with self }
                      trace := []
                      sent := (lnMsgFundingCreatedCreate
                        ⟨self.channelId, ⟨self.fundingLocal.txid, self.fundingLocal.txindex⟩,
                          self.commitRemote.signature⟩).toList }

/-- `start_funding_wait`; without the consent of the application nothing is saved. -/
def fundingWait (self : LnSelf) (accepts : Bool) : Outcome :=
  let waiting := startFundingWait crypto self
  if accepts then waiting else ⟨true, { waiting.self with status := self.status }, []⟩

/-- `recv_funding_created`.  The message is read over the outpoint and the signature. -/
def recvFundingCreated (bytes : Bytes) (accepts : Bool) : Option EstablishOutcome :=
  if chan.self.isFunder then some chan.reject
  else
    chan.establish.bind fun est =>
    match readWith lnMsgFundingCreatedRead bytes with
    | .fault _ => none
    | .refused _ => some chan.reject
    | .done msg _ =>
        let self := { chan.self with
          fundingLocal := { chan.self.fundingLocal with txid := msg.outpoint.txid }
          commitLocal := { chan.self.commitLocal with signature := msg.signature } }
        if msg.tempChannelId ≠ self.channelId then some (reject { chan with self })
        else
          match createToLocal crypto (self.setFunding crypto msg.outpoint) [] 0
              est.cnlOpen.toSelfDelay est.cnlAccept.dustLimitSat with
          | (false, self) => some (reject { chan with self })
          | (true, self) =>
              let self := { self with
                commitLocal := { self.commitLocal with toSelfDelay := est.cnlAccept.toSelfDelay }
                commitRemote := { self.commitRemote with
                  dustLimitSat := est.cnlOpen.dustLimitSat } }
              match signInitialRemote crypto self with
              | none => some (reject { chan with self })
              | some self =>
                  let self := { self with channelId := lnMiscCalcChannelId msg.outpoint }
                  let waiting := fundingWait crypto self accepts
                  some {
                    ret := true
                    chan := { chan with self := waiting.self }
                    trace := waiting.trace
                    sent := (lnMsgFundingSignedCreate
                      ⟨self.channelId, self.commitRemote.signature⟩).toList }

/-- `recv_funding_signed`.  The message is read over the signature. -/
def recvFundingSigned (bytes : Bytes) (accepts : Bool) : Option EstablishOutcome :=
  if !chan.self.isFunder then some chan.reject
  else
    chan.establish.bind fun est =>
    match readWith lnMsgFundingSignedRead bytes with
    | .fault _ => none
    | .refused _ => some chan.reject
    | .done msg _ =>
        let self := { chan.self with
          commitLocal := { chan.self.commitLocal with signature := msg.signature }
          channelId := lnMiscCalcChannelId
            ⟨chan.self.fundingLocal.txid, chan.self.fundingLocal.txindex⟩ }
        if msg.channelId ≠ self.channelId then some (reject { chan with self })
        else
          match createToLocal crypto self [] 0 est.cnlAccept.toSelfDelay
              est.cnlOpen.dustLimitSat with
          | (false, self) => some (reject { chan with self })
          | (true, self) =>
              let waiting := fundingWait crypto self accepts
              some ⟨true, { chan with self := waiting.self }, waiting.trace, []⟩

/-- `recv_funding_locked`: the establishment ends. -/
def recvFundingLocked (channelId perCommitpt : Bytes) : EstablishOutcome :=
  let outcome := Ptarmigan.recvFundingLocked crypto chan.self channelId perCommitpt
  if outcome.ret then
    ⟨true, { chan.freeEstablish true with self := outcome.self }, outcome.trace, []⟩
  else chan.reject

/-- `recv_error`. -/
def recvError : Establishing :=
  if chan.funding then chan.freeEstablish false else chan

end Establishing

end Ptarmigan
