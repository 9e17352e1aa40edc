/-
A channel from its first connection on: the funding exchange with a peer that sends its
messages in any order and any number of times, the channel that comes of it, stops of the
process and new connections.
-/
import Ptarmigan.Funding
import Ptarmigan.FeeDance
import Ptarmigan.Node

namespace Ptarmigan

open TransitionSystem

/-- A message of the funding exchange, with what its handler draws or is answered. -/
inductive ExchangeMsg
  | openChannel (bytes : Bytes) (latest : UInt32) (priv : Fundkeys)
  | acceptChannel (bytes : Bytes) (outpoint : Option FundingOutpoint)
  | fundingCreated (bytes : Bytes) (accepts : Bool)
  | fundingSigned (bytes : Bytes) (accepts : Bool)
  | fundingLocked (channelId perCommitpt : Bytes)

namespace Establishing

/-- `ln_recv` for the messages of the funding exchange, after `init`. -/
def recv (env : WireEnv) (crypto : Crypto) (chan : Establishing) :
    ExchangeMsg → Option EstablishOutcome
  | .openChannel bytes latest priv => chan.recvOpenChannel env crypto bytes latest priv
  | .acceptChannel bytes outpoint => chan.recvAcceptChannel env crypto bytes outpoint
  | .fundingCreated bytes accepts => chan.recvFundingCreated crypto bytes accepts
  | .fundingSigned bytes accepts => chan.recvFundingSigned crypto bytes accepts
  | .fundingLocked channelId perCommitpt =>
      some (chan.recvFundingLocked crypto channelId perCommitpt)

/-- `ln_establish_alloc`: the messages of the new exchange are not written yet. -/
def alloc (est : LnEstablish) : Option LnEstablish :=
  some { est with fundin := false }

end Establishing

/-! ### A channel from its first connection on -/

/-- The message of the peer that this node waits for. -/
inductive Awaited
  | nothing
  | acceptChannel
  | fundingCreated
  | fundingSigned
deriving DecidableEq, Repr

/-- What the node waits for after an accepted message. -/
def ExchangeMsg.next : ExchangeMsg → Awaited
  | .openChannel .. => .fundingCreated
  | .acceptChannel .. => .fundingSigned
  | _ => .nothing

/-- A channel with its database, what it holds for its establishment, what of that was saved
with it (`known` says whether it was), and the message of the exchange that is awaited. -/
structure FundingWorld where
  chan : ChannelState
  funding : Bool
  minDepth : UInt32
  establish : Option LnEstablish
  known : Bool
  savedFunding : Bool
  savedMinDepth : UInt32
  awaited : Awaited

namespace FundingWorld

def establishing (world : FundingWorld) : Establishing where
  self := world.chan.self
  funding := world.funding
  minDepth := world.minDepth
  establish := world.establish

/-- The channel is the one a handler left. -/
def hold (world : FundingWorld) (chan : Establishing) : FundingWorld :=
  { world with
    chan := { world.chan with self := chan.self }
    funding := chan.funding
    minDepth := chan.minDepth
    establish := chan.establish }

/-- The process or the connection has ended, and the exchange with it. -/
def halt (world : FundingWorld) : FundingWorld :=
  { world with chan := { world.chan with running := false }, awaited := .nothing }

/-- A save covers what the channel holds for its establishment, `p_establish` apart. -/
def noteSaves (world : FundingWorld) (trace : List Effect) : FundingWorld :=
  if trace.any Effect.saves then
    { world with
      known := true
      savedFunding := world.funding
      savedMinDepth := world.minDepth }
  else world

def perform (world : FundingWorld) (trace : List Effect) : FundingWorld :=
  { world.noteSaves trace with chan := world.chan.perform trace }

/-- A handler has come to its end. -/
def handled (world : FundingWorld) (awaited : Awaited) : Option EstablishOutcome → FundingWorld
  | none => world.halt
  | some outcome =>
      let world := (world.hold outcome.chan).perform outcome.trace
      { world with
        chan := { world.chan with running := outcome.ret }
        awaited := if outcome.ret then awaited else world.awaited }

/-- The process has stopped after the given number of effects of a handler. -/
def stopped (world : FundingWorld) (done : Nat) : Option EstablishOutcome → FundingWorld
  | none => world.halt
  | some outcome => ((world.hold outcome.chan).perform (outcome.trace.take done)).halt

end FundingWorld

/-- A step of a channel and of its establishment: our request to open, a message of the
exchange, with or without a stop of the process in between, `error`, the confirmation of the
funding transaction, `ln_establish_free` after a reconnection in normal operation, any other
step of the channel, or a new connection. -/
inductive FundingLabel
  | request (fundingSat pushSat : UInt64) (feeRate : UInt32) (tempChannelId : Bytes)
      (priv : Fundkeys)
  | recv (msg : ExchangeMsg)
  | stop (msg : ExchangeMsg) (done : Nat)
  | error
  | confirmed (shortChannelId : UInt64)
  | release
  | channel (label : ChannelLabel)
  | connect (seed scriptpk : Bytes) (dataloss : Bool) (est : LnEstablish)

/-- `funding_locked` has a label of its own. -/
def ChannelEvent.isLocked : ChannelEvent → Bool
  | .recv _ (.fundingLocked _) _ => true
  | _ => false

/-- The step of the channel is neither a new connection nor a `funding_locked`. -/
def ChannelLabel.isOther (label : ChannelLabel) : Bool :=
  label.ev.any fun ev => !ev.isLocked

/-- A new connection: the channel is loaded, or there is none yet. -/
def FundingWorld.connect (crypto : Crypto) (world : FundingWorld) (fresh : LnSelf)
    (dataloss : Bool) (est : LnEstablish) : Option FundingWorld :=
  let chan :=
    if world.known then channelNext crypto world.chan (.restart dataloss)
    else some { world.chan with self := fresh, running := true, reestablishing := false }
  chan.map fun chan =>
    { world with
      chan
      funding := world.savedFunding
      minDepth := world.savedMinDepth
      establish := Establishing.alloc est
      awaited := .nothing }

def fundingNext (env : WireEnv) (crypto : Crypto) (world : FundingWorld) :
    FundingLabel → Option FundingWorld
  | .request fundingSat pushSat feeRate tempChannelId priv =>
      if world.chan.running && !world.known then
        some (world.handled .acceptChannel (world.establishing.lnOpenChannelCreate env crypto
          fundingSat pushSat feeRate tempChannelId priv))
      else none
  | .recv msg =>
      if world.chan.running then
        some (world.handled msg.next (world.establishing.recv env crypto msg))
      else none
  | .stop msg done =>
      if world.chan.running then
        some (world.stopped done (world.establishing.recv env crypto msg))
      else none
  | .error =>
      if world.chan.running then some (world.hold world.establishing.recvError).halt else none
  | .confirmed shortChannelId =>
      if world.chan.running && world.known then
        let outcome := lnShortChannelIdSetParam world.chan.self shortChannelId
        let world := world.perform outcome.trace
        some { world with chan := { world.chan with self := outcome.self } }
      else none
  | .release =>
      if world.chan.running && world.chan.reestablishing &&
          world.chan.self.status == .normal then
        some { world.hold (world.establishing.freeEstablish true) with awaited := .nothing }
      else none
  | .channel label =>
      if label.isOther then
        (channelNext crypto world.chan label).map fun chan =>
          { world.noteSaves (label.performed crypto world.chan.self) with chan }
      else none
  | .connect seed scriptpk dataloss est =>
      world.connect crypto (lnInit seed scriptpk dataloss) dataloss est

/-- A node that has just been connected, with no channel to the peer. -/
def FundingWorld.fresh (seed scriptpk : Bytes) (dataloss : Bool) (est : LnEstablish) :
    FundingWorld where
  chan :=
    { self := lnInit seed scriptpk dataloss
      db := ⟨{}, {}⟩
      running := true
      reestablishing := false
      sent := [] }
  funding := false
  minDepth := 0
  establish := Establishing.alloc est
  known := false
  savedFunding := false
  savedMinDepth := 0
  awaited := .nothing

/-- The runs of a channel from the first connection on. -/
def fundingSystem (env : WireEnv) (crypto : Crypto) : System FundingWorld FundingLabel where
  start world := ∃ seed scriptpk dataloss est, world = .fresh seed scriptpk dataloss est
  next := fundingNext env crypto

end Ptarmigan
