/-
A value that one of two parties proposes and that both put into what they sign: the
proposer into its signatures at once, the acceptor only once it has acknowledged a
signature of the proposer.  The messages between them are in flight in both directions.
-/
import Mathlib.Init

namespace StagedValue

universe u

variable {V : Type u}

/-- A message of the proposer.  A signature is told with the value it was made with. -/
inductive Proposed (V : Type u)
  | propose (value : V)
  | sign (value : V)
deriving DecidableEq

/-- A message of the acceptor. -/
inductive Answered (V : Type u)
  | acknowledge
  | sign (value : V)
deriving DecidableEq

/-- Both parties and the messages in flight, the oldest first. -/
structure State (V : Type u) where
  /-- The proposer's last proposal. -/
  proposed : V
  /-- The values of the proposer's signatures that are not acknowledged yet. -/
  unacknowledged : List V
  /-- The value that the proposer expects in a signature of the acceptor. -/
  own : V
  /-- The last proposal that the acceptor has taken. -/
  taken : V
  /-- A proposal has been taken after the last signature. -/
  pending : Bool
  /-- The value of the last signature that the acceptor has taken. -/
  committed : V
  toAcceptor : List (Proposed V)
  toProposer : List (Answered V)

namespace State

/-- Both parties agree on the value and nothing is in flight. -/
def init (value : V) : State V where
  proposed := value
  unacknowledged := []
  own := value
  taken := value
  pending := false
  committed := value
  toAcceptor := []
  toProposer := []

def propose (state : State V) (value : V) : State V :=
  { state with
    proposed := value
    toAcceptor := state.toAcceptor ++ [.propose value] }

def proposerSigns (state : State V) : State V :=
  { state with
    unacknowledged := state.unacknowledged ++ [state.proposed]
    toAcceptor := state.toAcceptor ++ [.sign state.proposed] }

/-- The acceptor takes the oldest message.  It acknowledges a signature. -/
def acceptorTakes (state : State V) : State V :=
  match state.toAcceptor with
  | [] => state
  | .propose value :: rest => { state with taken := value, pending := true, toAcceptor := rest }
  | .sign _ :: rest =>
      { state with
        pending := false
        committed := state.taken
        toAcceptor := rest
        toProposer := state.toProposer ++ [.acknowledge] }

/-- The acceptor signs with a value. -/
def acceptorSigns (state : State V) (value : V) : State V :=
  { state with toProposer := state.toProposer ++ [.sign value] }

/-- The proposer takes the oldest message.  An acknowledged value becomes its own. -/
def proposerTakes (state : State V) : State V :=
  match state.toProposer with
  | [] => state
  | .acknowledge :: rest =>
      { state with
        own := state.unacknowledged.headD state.own
        unacknowledged := state.unacknowledged.tail
        toProposer := rest }
  | .sign _ :: rest => { state with toProposer := rest }

variable {state : State V}

theorem acceptorTakes_propose {value : V} {rest : List (Proposed V)}
    (hqueue : state.toAcceptor = .propose value :: rest) :
    state.acceptorTakes.taken = value := by
  simp only [acceptorTakes, hqueue]

theorem acceptorTakes_sign {value : V} {rest : List (Proposed V)}
    (hqueue : state.toAcceptor = .sign value :: rest) :
    state.acceptorTakes.taken = state.taken := by
  simp only [acceptorTakes, hqueue]

@[simp] theorem acceptorSigns_taken (state : State V) (value : V) :
    (state.acceptorSigns value).taken = state.taken := rfl

@[simp] theorem proposerTakes_taken (state : State V) :
    state.proposerTakes.taken = state.taken := by
  unfold proposerTakes
  split <;> rfl

end State

/-! ### What is in flight -/

/-- Whoever takes the messages from the given value on ends with the last value, and
each signature on the way was made with the value of that moment. -/
inductive Leads : V → List (Proposed V) → V → Prop
  | nil {value : V} : Leads value [] value
  | propose {value next last : V} {queue : List (Proposed V)} :
      Leads next queue last → Leads value (.propose next :: queue) last
  | sign {value last : V} {queue : List (Proposed V)} :
      Leads value queue last → Leads value (.sign value :: queue) last

theorem Leads.append {value middle last : V} {queue rest : List (Proposed V)}
    (hqueue : Leads value queue middle) (hrest : Leads middle rest last) :
    Leads value (queue ++ rest) last := by
  induction hqueue with
  | nil => exact hrest
  | propose _ ih => exact .propose (ih hrest)
  | sign _ ih => exact .sign (ih hrest)

/-- The values of the signatures in flight. -/
def signedWith (queue : List (Proposed V)) : List V :=
  queue.filterMap fun msg =>
    match msg with
    | .propose _ => none
    | .sign value => some value

/-- Whoever takes the messages with the given own value and unacknowledged values ends
with the last value and the values left, and each signature on the way was made with
the own value of that moment. -/
inductive Acknowledges : V → List V → List (Answered V) → V → List V → Prop
  | nil {own : V} {values : List V} : Acknowledges own values [] own values
  | acknowledge {own value last : V} {values left : List V} {queue : List (Answered V)} :
      Acknowledges value values queue last left →
      Acknowledges own (value :: values) (.acknowledge :: queue) last left
  | sign {own last : V} {values left : List V} {queue : List (Answered V)} :
      Acknowledges own values queue last left →
      Acknowledges own values (.sign own :: queue) last left

theorem Acknowledges.append {own middle last : V} {values between left : List V}
    {queue rest : List (Answered V)} (hqueue : Acknowledges own values queue middle between)
    (hrest : Acknowledges middle between rest last left) :
    Acknowledges own values (queue ++ rest) last left := by
  induction hqueue with
  | nil => exact hrest
  | acknowledge _ ih => exact .acknowledge (ih hrest)
  | sign _ ih => exact .sign (ih hrest)

theorem Acknowledges.of_acknowledge {own last : V} {values left : List V}
    {queue : List (Answered V)}
    (hqueue : Acknowledges own values (.acknowledge :: queue) last left) :
    ∃ value rest, values = value :: rest ∧ Acknowledges value rest queue last left := by
  cases hqueue with
  | acknowledge hrest => exact ⟨_, _, rfl, hrest⟩

theorem Acknowledges.of_sign {own value last : V} {values left : List V}
    {queue : List (Answered V)}
    (hqueue : Acknowledges own values (.sign value :: queue) last left) :
    value = own ∧ Acknowledges own values queue last left := by
  cases hqueue with
  | sign hrest => exact ⟨rfl, hrest⟩

/-- A value signed later is not acknowledged by what is in flight already. -/
theorem Acknowledges.later {own last : V} {values left : List V} {queue : List (Answered V)}
    (hqueue : Acknowledges own values queue last left) (value : V) :
    Acknowledges own (values ++ [value]) queue last (left ++ [value]) := by
  induction hqueue with
  | nil => exact .nil
  | acknowledge _ ih => exact .acknowledge ih
  | sign _ ih => exact .sign ih

/-- The parties agree, once everything in flight is taken into account. -/
structure Agreed (state : State V) : Prop where
  forward : Leads state.taken state.toAcceptor state.proposed
  backward : Acknowledges state.own state.unacknowledged state.toProposer state.committed
    (signedWith state.toAcceptor)
  settled : state.pending = false → state.taken = state.committed

variable {state : State V}

theorem Agreed.init (value : V) : Agreed (State.init value) :=
  ⟨.nil, .nil, fun _ => rfl⟩

theorem Agreed.propose (hagreed : Agreed state) (value : V) : Agreed (state.propose value) where
  forward := hagreed.forward.append (.propose .nil)
  backward := by
    have hsame : signedWith (state.toAcceptor ++ [.propose value]) =
        signedWith state.toAcceptor := by
      simp [signedWith]
    simpa [State.propose, hsame] using hagreed.backward
  settled := hagreed.settled

theorem Agreed.proposerSigns (hagreed : Agreed state) : Agreed state.proposerSigns where
  forward := hagreed.forward.append (.sign .nil)
  backward := by
    have hmore : signedWith (state.toAcceptor ++ [.sign state.proposed]) =
        signedWith state.toAcceptor ++ [state.proposed] := by
      simp [signedWith]
    simpa [State.proposerSigns, hmore] using hagreed.backward.later state.proposed
  settled := hagreed.settled

theorem Agreed.acceptorTakes (hagreed : Agreed state) : Agreed state.acceptorTakes := by
  obtain ⟨hforward, hbackward, hsettled⟩ := hagreed
  unfold State.acceptorTakes
  split
  · exact ⟨hforward, hbackward, hsettled⟩
  · rename_i value rest hqueue
    rw [hqueue] at hforward hbackward
    cases hforward with
    | propose hrest => exact ⟨hrest, hbackward, fun hpending => by cases hpending⟩
  · rename_i value rest hqueue
    rw [hqueue] at hforward hbackward
    cases hforward with
    | sign hrest =>
        have hack : Acknowledges state.committed (signedWith (.sign state.taken :: rest))
            [.acknowledge] state.taken (signedWith rest) :=
          .acknowledge .nil
        exact ⟨hrest, hbackward.append hack, fun _ => rfl⟩

/-- The acceptor must sign with the value it has acknowledged. -/
theorem Agreed.acceptorSigns (hagreed : Agreed state) {value : V}
    (hvalue : value = state.committed) : Agreed (state.acceptorSigns value) := by
  subst hvalue
  exact ⟨hagreed.forward, hagreed.backward.append (.sign .nil), hagreed.settled⟩

theorem Agreed.proposerTakes (hagreed : Agreed state) : Agreed state.proposerTakes := by
  obtain ⟨hforward, hbackward, hsettled⟩ := hagreed
  unfold State.proposerTakes
  split
  · exact ⟨hforward, hbackward, hsettled⟩
  · rename_i rest hqueue
    rw [hqueue] at hbackward
    obtain ⟨value, values, hvalues, hrest⟩ := hbackward.of_acknowledge
    rw [hvalues]
    exact ⟨hforward, hrest, hsettled⟩
  · rename_i value rest hqueue
    rw [hqueue] at hbackward
    exact ⟨hforward, hbackward.of_sign.2, hsettled⟩

/-! ### What the parties can rely on -/

/-- The signature that the acceptor takes next was made with the last proposal it has
taken. -/
theorem Agreed.taken_eq (hagreed : Agreed state) {value : V} {rest : List (Proposed V)}
    (hqueue : state.toAcceptor = .sign value :: rest) : value = state.taken := by
  have hforward := hagreed.forward
  rw [hqueue] at hforward
  cases hforward with
  | sign _ => rfl

/-- The signature that the proposer takes next was made with its own value. -/
theorem Agreed.own_eq (hagreed : Agreed state) {value : V} {rest : List (Answered V)}
    (hqueue : state.toProposer = .sign value :: rest) : value = state.own := by
  have hbackward := hagreed.backward
  rw [hqueue] at hbackward
  exact hbackward.of_sign.1

end StagedValue
