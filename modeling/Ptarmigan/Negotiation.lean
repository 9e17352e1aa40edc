/-
The negotiation of the closing fee between the two ends of a channel: `closing_signed` of
either end or of anyone who speaks in its place, until one end has a closing transaction
with both signatures.
-/
import Ptarmigan.ClosingTx
import Ptarmigan.MutualClose

namespace Ptarmigan

open TransitionSystem

variable {crypto : Crypto} {self : LnSelf}

/-! ### What `closing_signed` changes -/

/-- The fields that `recv_closing_signed` writes. -/
def NegotiationChange (before after : LnSelf) : Prop :=
  ∃ status closeFeeSat closeLastFeeSat theirs ours,
    after = { before with
      status, closeFeeSat, closeLastFeeSat
      commitLocal := { before.commitLocal with signature := theirs }
      commitRemote := { before.commitRemote with signature := ours } }

theorem NegotiationChange.refl (self : LnSelf) : NegotiationChange self self :=
  ⟨_, _, _, _, _, rfl⟩

theorem NegotiationChange.party {before after : LnSelf} (hchange : NegotiationChange before after)
    (hparty : ClosingParty crypto before) : ClosingParty crypto after := by
  obtain ⟨_, _, _, _, _, rfl⟩ := hchange
  exact ⟨hparty.exchanged, hparty.script, hparty.key, hparty.scriptpkLocal, hparty.scriptpkRemote,
    hparty.money⟩

theorem NegotiationChange.mirrored {funder funder' fundee fundee' : LnSelf}
    (hfunder : NegotiationChange funder funder') (hfundee : NegotiationChange fundee fundee')
    (hmirror : Mirrored funder fundee) : Mirrored funder' fundee' := by
  obtain ⟨_, _, _, _, _, rfl⟩ := hfunder
  obtain ⟨_, _, _, _, _, rfl⟩ := hfundee
  exact ⟨hmirror.roles, hmirror.channelId, hmirror.fundingTxid, hmirror.fundingTxindex,
    hmirror.fundingSat, hmirror.redeemFund, hmirror.keys, hmirror.feeratePerKw, hmirror.balances,
    hmirror.scriptpks⟩

/-- The signature is one of the peer for a closing transaction of this fee. -/
def SignedByPeer (crypto : Crypto) (self : LnSelf) (feeSat : UInt64) (signature : Bytes) : Prop :=
  (closingTx self feeSat).isValid = true ∧
    crypto.verify signature (closingHash crypto self feeSat) self.peerFundingKey = true

instance (feeSat : UInt64) (signature : Bytes) :
    Decidable (SignedByPeer crypto self feeSat signature) :=
  inferInstanceAs (Decidable (_ ∧ _))

theorem NegotiationChange.signedByPeer {before after : LnSelf}
    (hchange : NegotiationChange before after) (feeSat : UInt64) (signature : Bytes) :
    SignedByPeer crypto after feeSat signature ↔ SignedByPeer crypto before feeSat signature := by
  obtain ⟨_, _, _, _, _, rfl⟩ := hchange
  exact Iff.rfl

/-- The state after the signature of the peer has been read and the closing transaction of the fee
signed. -/
def closingRead (crypto : Crypto) (self : LnSelf) (feeSat : UInt64) (signature : Bytes) : LnSelf :=
  { self with
    commitLocal := { self.commitLocal with signature }
    commitRemote :=
      { self.commitRemote with signature := closingSignature crypto self feeSat } }

/-- The state after a `closing_signed` that answers with the fee of the peer. -/
def closingAnswered (crypto : Crypto) (self : LnSelf) (feeSat : UInt64) (signature : Bytes) :
    LnSelf :=
  { closingRead crypto self feeSat signature with closeFeeSat := feeSat, closeLastFeeSat := feeSat }

/-- The state after a `closing_signed` with the own last fee. -/
def closingDone (crypto : Crypto) (self : LnSelf) (feeSat : UInt64) (signature : Bytes) : LnSelf :=
  { closingRead crypto self feeSat signature with status := .closeSpent }

theorem createClosingTx_signed (hsound : crypto.Sound) (hparty : ClosingParty crypto self)
    (feeSat : UInt64) (hvalid : (closingTx self feeSat).isValid = true) (verify : Bool)
    (hverify : verify = true →
      SignedByPeer crypto self feeSat self.commitLocal.signature) :
    createClosingTx crypto self feeSat verify =
      (true, { self with commitRemote :=
        { self.commitRemote with signature := closingSignature crypto self feeSat } }) := by
  rw [createClosingTx_eq (scriptpk_ne_empty hparty.scriptpkLocal)
    (scriptpk_ne_empty hparty.scriptpkRemote) verify hvalid]
  have hown : crypto.verify (closingSignature crypto self feeSat) (closingHash crypto self feeSat)
      self.ownFundingKey = true := hsound _ _ _ hparty.key
  cases verify with
  | false => rfl
  | true =>
      have hboth := (createToLocalSignVerify_iff self (closingSignature crypto self feeSat) hvalid
        hparty.script).mpr ⟨hown, (hverify rfl).2⟩
      rw [hboth]
      rfl

theorem recvClosingSigned_refused (hparty : ClosingParty crypto self) {channelId signature : Bytes}
    {feeSat : UInt64} {broadcast : Bool}
    (hrefused : channelId = self.channelId → lnClosingSignedInitfee self < feeSat) :
    recvClosingSigned crypto self channelId feeSat signature broadcast =
      .reject { self with commitLocal := { self.commitLocal with signature } } := by
  simp only [recvClosingSigned, hparty.exchanged, Bool.not_true, Bool.false_eq_true, if_false]
  by_cases hchannel : channelId = self.channelId
  · have hlarge : feeSat > lnClosingSignedInitfee self := hrefused hchannel
    rw [if_neg (not_not.mpr hchannel)]
    exact if_pos hlarge
  · exact if_pos hchannel

theorem lnShutdownUpdateFee_of_le {feeSat : UInt64}
    (hle : feeSat ≤ lnClosingSignedInitfee self) :
    lnShutdownUpdateFee self feeSat = { self with closeFeeSat := feeSat } := by
  have hmin : min feeSat (lnClosingSignedInitfee self) = feeSat := if_pos hle
  rw [lnShutdownUpdateFee, hmin]

section Accepted

variable {feeSat : UInt64} {signature : Bytes}

theorem recvClosingSigned_read (hsound : crypto.Sound) (hparty : ClosingParty crypto self)
    (hfee : feeSat ≤ lnClosingSignedInitfee self)
    (hsigned : SignedByPeer crypto self feeSat signature) (broadcast : Bool) :
    recvClosingSigned crypto self self.channelId feeSat signature broadcast =
      if self.closeLastFeeSat = feeSat then
        closeOrAnswer crypto (closingRead crypto self feeSat signature) feeSat true broadcast
      else
        closeOrAnswer crypto
          (lnShutdownUpdateFee (closingRead crypto self feeSat signature) feeSat) feeSat false
          broadcast := by
  have hread : ClosingParty crypto
      { self with commitLocal := { self.commitLocal with signature } } :=
    ⟨hparty.exchanged, hparty.script, hparty.key, hparty.scriptpkLocal, hparty.scriptpkRemote,
      hparty.money⟩
  have hcreated := createClosingTx_signed hsound hread feeSat hsigned.1 true fun _ => hsigned
  have hsmall : ¬ feeSat >
      lnClosingSignedInitfee { self with commitLocal := { self.commitLocal with signature } } :=
    UInt64.not_lt.mpr hfee
  simp only [recvClosingSigned, hparty.exchanged, Bool.not_true, Bool.false_eq_true, if_false,
    ne_eq, not_true_eq_false]
  rw [if_neg hsmall, hcreated]
  rfl

theorem recvClosingSigned_answer (hsound : crypto.Sound) (hparty : ClosingParty crypto self)
    (hfee : feeSat ≤ lnClosingSignedInitfee self)
    (hsigned : SignedByPeer crypto self feeSat signature)
    (hlast : self.closeLastFeeSat ≠ feeSat) (broadcast : Bool) :
    recvClosingSigned crypto self self.channelId feeSat signature broadcast =
      ⟨true, closingAnswered crypto self feeSat signature,
        [.sendReq none (.closingSigned feeSat (closingSignature crypto self feeSat)),
          .selfSave (closingAnswered crypto self feeSat signature)]⟩ := by
  have hclamp : lnShutdownUpdateFee (closingRead crypto self feeSat signature) feeSat =
      { closingRead crypto self feeSat signature with closeFeeSat := feeSat } :=
    lnShutdownUpdateFee_of_le hfee
  rw [recvClosingSigned_read hsound hparty hfee hsigned, if_neg hlast, hclamp, closeOrAnswer]
  have hread : ClosingParty crypto
      { closingRead crypto self feeSat signature with closeFeeSat := feeSat } :=
    ⟨hparty.exchanged, hparty.script, hparty.key, hparty.scriptpkLocal, hparty.scriptpkRemote,
      hparty.money⟩
  have hcreated := createClosingTx_signed hsound hread feeSat hsigned.1 false
    fun hverify => by cases hverify
  rw [hcreated]
  rfl

theorem recvClosingSigned_done (hsound : crypto.Sound) (hparty : ClosingParty crypto self)
    (hfee : feeSat ≤ lnClosingSignedInitfee self)
    (hsigned : SignedByPeer crypto self feeSat signature)
    (hlast : self.closeLastFeeSat = feeSat) (hclose : self.closeFeeSat = feeSat) :
    recvClosingSigned crypto self self.channelId feeSat signature true =
      ⟨true, closingDone crypto self feeSat signature,
        [.closing, .selfSave (closingDone crypto self feeSat signature)]⟩ := by
  rw [recvClosingSigned_read hsound hparty hfee hsigned, if_pos hlast, closeOrAnswer]
  have hread : ClosingParty crypto (closingRead crypto self feeSat signature) :=
    ⟨hparty.exchanged, hparty.script, hparty.key, hparty.scriptpkLocal, hparty.scriptpkRemote,
      hparty.money⟩
  have hcreated := createClosingTx_signed hsound hread feeSat hsigned.1 true
    fun _ => hsigned
  have hown : (closingRead crypto self feeSat signature).closeFeeSat = feeSat := hclose
  rw [hown, hcreated]
  rfl

end Accepted

/-! ### Two ends that negotiate -/

inductive ClosingSide
  | funder
  | fundee
deriving DecidableEq, Repr

def ClosingSide.other : ClosingSide → ClosingSide
  | .funder => .fundee
  | .fundee => .funder

theorem ClosingSide.eq_other {side side' : ClosingSide} (hne : side' ≠ side) :
    side' = side.other := by
  cases side <;> cases side' <;> first | rfl | exact absurd rfl hne

/-- A `closing_signed` on its way. -/
structure ClosingSigned where
  channelId : Bytes
  feeSat : UInt64
  signature : Bytes
deriving DecidableEq, Repr

/-- The `closing_signed` that an effect sends. -/
def Effect.closingSigned (channelId : Bytes) : Effect → Option ClosingSigned
  | .sendReq _ (.closingSigned feeSat signature) => some ⟨channelId, feeSat, signature⟩
  | _ => none

def Outcome.closingSigned (outcome : Outcome) : List ClosingSigned :=
  outcome.trace.filterMap (Effect.closingSigned outcome.self.channelId)

/-- The effect hands the closing transaction to `LN_CB_CLOSED`. -/
def Effect.hands : Effect → Bool
  | .closing => true
  | _ => false

def Effect.aborts : Effect → Bool
  | .abort => true
  | _ => false

/-- Two ends of a channel, the `closing_signed` on their way to each, the oldest first, the
transaction each has handed to `LN_CB_CLOSED`, and whether its process is gone. -/
structure Negotiation where
  party : ClosingSide → LnSelf
  inbox : ClosingSide → List ClosingSigned
  closed : ClosingSide → Option BtcTx
  crashed : ClosingSide → Bool

/-- One end takes the oldest message of the other, or one that a hostile peer made up. -/
inductive NegotiationLabel
  | take (side : ClosingSide) (broadcast : Bool)
  | hostile (side : ClosingSide) (msg : ClosingSigned) (broadcast : Bool)

def NegotiationLabel.side : NegotiationLabel → ClosingSide
  | .take side _ => side
  | .hostile side _ _ => side

def NegotiationLabel.broadcast : NegotiationLabel → Bool
  | .take _ broadcast => broadcast
  | .hostile _ _ broadcast => broadcast

def NegotiationLabel.isHostile : NegotiationLabel → Bool
  | .take .. => false
  | .hostile .. => true

namespace Negotiation

def message (world : Negotiation) : NegotiationLabel → Option ClosingSigned
  | .take side _ => (world.inbox side).head?
  | .hostile _ msg _ => some msg

/-- The messages that are left for the side of the label. -/
def left (world : Negotiation) : NegotiationLabel → List ClosingSigned
  | .take side _ => (world.inbox side).tail
  | .hostile side _ _ => world.inbox side

/-- What `recv_closing_signed` does with the message. -/
def outcome (crypto : Crypto) (world : Negotiation) (label : NegotiationLabel)
    (msg : ClosingSigned) : Outcome :=
  recvClosingSigned crypto (world.party label.side) msg.channelId msg.feeSat msg.signature
    label.broadcast

def after (crypto : Crypto) (world : Negotiation) (label : NegotiationLabel)
    (msg : ClosingSigned) : Negotiation :=
  let side := label.side
  let outcome := world.outcome crypto label msg
  { party := Function.update world.party side outcome.self
    inbox := Function.update (Function.update world.inbox side (world.left label)) side.other
      (world.inbox side.other ++ outcome.closingSigned)
    closed :=
      if outcome.trace.any Effect.hands then
        Function.update world.closed side (some (closingTx outcome.self outcome.self.closeFeeSat))
      else world.closed
    crashed :=
      if outcome.trace.any Effect.aborts then Function.update world.crashed side true
      else world.crashed }

/-- The end of `recv_shutdown` on both sides: the funder sends the first `closing_signed`. -/
def opened (crypto : Crypto) (party : ClosingSide → LnSelf) : Negotiation :=
  let first := startClosing crypto (party .funder)
  { party := Function.update party .funder first.self
    inbox := Function.update (fun _ => []) .fundee first.closingSigned
    closed := fun _ => none
    crashed := fun _ => false }

end Negotiation

def negotiate (crypto : Crypto) (world : Negotiation) (label : NegotiationLabel) :
    Option Negotiation :=
  if world.crashed label.side then none
  else (world.message label).map (world.after crypto label)

/-- Closing negotiations, whatever the fees that both ends start from. -/
def negotiationSystem (crypto : Crypto) : System Negotiation NegotiationLabel where
  start world := ∃ party : ClosingSide → LnSelf, world = .opened crypto party ∧
    (∀ side, ClosingParty crypto (party side)) ∧ Mirrored (party .funder) (party .fundee) ∧
    ∀ side, (party side).closeLastFeeSat = 0
  next := negotiate crypto

/-! ### The law and its condition -/

/-- What `LN_CB_CLOSED` gets: the transaction of the fee in the message, which is also the own last
fee, under both signatures. -/
structure ClosedRight (crypto : Crypto) (party : LnSelf) (msg : ClosingSigned) (closed : LnSelf) :
    Prop where
  agreed : party.closeLastFeeSat = msg.feeSat
  fee : closed.closeFeeSat = msg.feeSat
  ownSignature : crypto.verify closed.commitRemote.signature
    (closingHash crypto closed closed.closeFeeSat) closed.ownFundingKey = true
  peerSignature : crypto.verify msg.signature
    (closingHash crypto closed closed.closeFeeSat) closed.peerFundingKey = true
  total : ((closingTx closed closed.closeFeeSat).vout.map fun out => out.1.toNat).sum +
    msg.feeSat.toNat ≤ closed.fundingSat.toNat
  pays : PaysFromFunder closed msg.feeSat (closingTx closed closed.closeFeeSat)

/-- What one `closing_signed` may do. -/
structure NegotiatesRight (crypto : Crypto) (party : LnSelf) (msg : ClosingSigned)
    (outcome : Outcome) : Prop where
  alive : outcome.trace.any Effect.aborts = false
  refused : outcome.ret = false → outcome.self.closeFeeSat = party.closeFeeSat ∧
    outcome.self.closeLastFeeSat = party.closeLastFeeSat
  valid : outcome.ret = true → msg.channelId = party.channelId ∧
    msg.feeSat ≤ lnClosingSignedInitfee party ∧ SignedByPeer crypto party msg.feeSat msg.signature
  closed : outcome.trace.any Effect.hands = true → ClosedRight crypto party msg outcome.self

/-- The message passes the checks of `recv_closing_signed` that precede the signature. -/
def Checked (self : LnSelf) (msg : ClosingSigned) : Prop :=
  msg.channelId = self.channelId ∧ msg.feeSat ≤ lnClosingSignedInitfee self

instance (msg : ClosingSigned) : Decidable (Checked self msg) :=
  inferInstanceAs (Decidable (_ ∧ _))

/-- A hostile message that passes the first checks is signed, and the fee on which a channel closes
is one that the funder can pay, for a transaction that the bitcoin node takes; the fee 0 is not
taken for an own one. -/
def NegotiatesInOrder (crypto : Crypto) (world : Negotiation) (label : NegotiationLabel) : Prop :=
  ∀ msg, world.message label = some msg → Checked (world.party label.side) msg →
    (label.isHostile = true →
      SignedByPeer crypto (world.party label.side) msg.feeSat msg.signature) ∧
    ((world.party label.side).closeLastFeeSat = msg.feeSat →
      label.broadcast = true ∧ msg.feeSat ≤ (world.party label.side).funderSat ∧
        (msg.feeSat = 0 → (world.party label.side).closeFeeSat = 0))

/-- A message of the other end arrives, with a fee in the range. -/
def HonestStep (crypto : Crypto) (world : Negotiation) (label : NegotiationLabel) : Prop :=
  NegotiatesInOrder crypto world label ∧ label.isHostile = false ∧
    ∀ msg, world.message label = some msg →
      msg.feeSat ≤ lnClosingSignedInitfee (world.party label.side)

/-- Both ends hold one closing transaction, and one of them has handed it to `LN_CB_CLOSED`. -/
def ClosedAlike (world : Negotiation) : Prop :=
  ∃ tx, (∃ side, world.closed side = some tx) ∧
    ∀ side, closingTx (world.party side) (world.party side).closeFeeSat = tx

/-! ### One message -/

/-- What `recv_closing_signed` comes to for a message in order. -/
inductive ClosingStep (crypto : Crypto) (self : LnSelf) (msg : ClosingSigned) (broadcast : Bool) :
    Outcome → Prop
  | refused : ¬ Checked self msg →
      ClosingStep crypto self msg broadcast
        (.reject { self with commitLocal := { self.commitLocal with signature := msg.signature } })
  | answered : Checked self msg → SignedByPeer crypto self msg.feeSat msg.signature →
      self.closeLastFeeSat ≠ msg.feeSat →
      ClosingStep crypto self msg broadcast
        ⟨true, closingAnswered crypto self msg.feeSat msg.signature,
          [.sendReq none
              (.closingSigned msg.feeSat (closingSignature crypto self msg.feeSat)),
            .selfSave (closingAnswered crypto self msg.feeSat msg.signature)]⟩
  | done : Checked self msg → SignedByPeer crypto self msg.feeSat msg.signature →
      self.closeLastFeeSat = msg.feeSat → self.closeFeeSat = msg.feeSat →
      broadcast = true → msg.feeSat ≤ self.funderSat →
      ClosingStep crypto self msg broadcast
        ⟨true, closingDone crypto self msg.feeSat msg.signature,
          [.closing, .selfSave (closingDone crypto self msg.feeSat msg.signature)]⟩

/-- The own last fee is the fee of the own transaction, unless none has been sent. -/
def LastFeeKept (self : LnSelf) : Prop :=
  self.closeLastFeeSat = 0 ∨ self.closeFeeSat = self.closeLastFeeSat

theorem recvClosingSigned_step (hsound : crypto.Sound) (hparty : ClosingParty crypto self)
    (hlast : LastFeeKept self) {msg : ClosingSigned} {broadcast : Bool}
    (hsigned : Checked self msg → SignedByPeer crypto self msg.feeSat msg.signature)
    (hclosing : Checked self msg → self.closeLastFeeSat = msg.feeSat →
      broadcast = true ∧ msg.feeSat ≤ self.funderSat ∧
        (msg.feeSat = 0 → self.closeFeeSat = 0)) :
    ClosingStep crypto self msg broadcast
      (recvClosingSigned crypto self msg.channelId msg.feeSat msg.signature broadcast) := by
  by_cases hchecked : Checked self msg
  · have hchannel := hchecked.1
    have hpeer := hsigned hchecked
    by_cases hsame : self.closeLastFeeSat = msg.feeSat
    · obtain ⟨rfl, hfunds, hzero⟩ := hclosing hchecked hsame
      have hclose : self.closeFeeSat = msg.feeSat := by
        rcases hlast with hnone | hfee
        · have hmsg : msg.feeSat = 0 := hsame.symm.trans hnone
          rw [hmsg, hzero hmsg]
        · exact hfee.trans hsame
      rw [hchannel, recvClosingSigned_done hsound hparty hchecked.2 hpeer hsame hclose]
      exact .done hchecked hpeer hsame hclose rfl hfunds
    · rw [hchannel, recvClosingSigned_answer hsound hparty hchecked.2 hpeer hsame]
      exact .answered hchecked hpeer hsame
  · have hrefused : msg.channelId = self.channelId → lnClosingSignedInitfee self < msg.feeSat := by
      intro hchannel
      by_contra hle
      exact hchecked ⟨hchannel, UInt64.not_lt.mp hle⟩
    rw [recvClosingSigned_refused hparty hrefused]
    exact .refused hchecked

section ClosingStep

variable {msg : ClosingSigned} {broadcast : Bool} {outcome : Outcome}

theorem ClosingStep.change (hstep : ClosingStep crypto self msg broadcast outcome) :
    NegotiationChange self outcome.self := by
  cases hstep with
  | refused _ => exact ⟨_, _, _, _, _, rfl⟩
  | answered _ _ _ => exact ⟨_, _, _, _, _, rfl⟩
  | done _ _ _ _ _ _ => exact ⟨_, _, _, _, _, rfl⟩

theorem ClosingStep.lastFee (hstep : ClosingStep crypto self msg broadcast outcome)
    (hlast : LastFeeKept self) : LastFeeKept outcome.self := by
  cases hstep with
  | refused _ => exact hlast
  | answered _ _ _ => exact .inr rfl
  | done _ _ _ _ _ _ => exact hlast

/-- A message that is sent carries a good signature of this end. -/
theorem ClosingStep.sent (hstep : ClosingStep crypto self msg broadcast outcome)
    {sent : ClosingSigned} (hsent : sent ∈ outcome.closingSigned) :
    sent.channelId = self.channelId ∧ (closingTx self sent.feeSat).isValid = true ∧
      sent.signature = closingSignature crypto self sent.feeSat := by
  cases hstep with
  | refused _ => cases hsent
  | answered _ hsigned _ =>
      obtain rfl := List.mem_singleton.mp hsent
      exact ⟨rfl, hsigned.1, rfl⟩
  | done _ _ _ _ _ _ => cases hsent

theorem ClosingStep.negotiates (hsound : crypto.Sound) (hparty : ClosingParty crypto self)
    (hstep : ClosingStep crypto self msg broadcast outcome) :
    NegotiatesRight crypto self msg outcome := by
  have hafter := hstep.change.party hparty
  cases hstep with
  | refused _ =>
      exact ⟨rfl, fun _ => ⟨rfl, rfl⟩, fun hret => (by cases hret), fun hhands => (by cases hhands)⟩
  | answered hchecked hsigned _ =>
      exact ⟨rfl, fun hret => (by cases hret), fun _ => ⟨hchecked.1, hchecked.2, hsigned⟩,
        fun hhands => by cases hhands⟩
  | done hchecked hsigned hlast hclose _ hfunds =>
      have hown : crypto.verify (closingSignature crypto self msg.feeSat)
          (closingHash crypto self msg.feeSat) self.ownFundingKey = true := hsound _ _ _ hparty.key
      have hclosed : ClosingParty crypto (closingDone crypto self msg.feeSat msg.signature) :=
        hafter
      have hfee : (closingDone crypto self msg.feeSat msg.signature).closeFeeSat = msg.feeSat :=
        hclose
      have hright : ClosedRight crypto self msg
          (closingDone crypto self msg.feeSat msg.signature) := by
        constructor
        · exact hlast
        · exact hfee
        · rw [hfee]
          exact hown
        · rw [hfee]
          exact hsigned.2
        · rw [hfee]
          exact hclosed.total hfunds
        · rw [hfee]
          exact hclosed.pays hfunds
      exact ⟨rfl, fun hret => (by cases hret), fun _ => ⟨hchecked.1, hchecked.2, hsigned⟩,
        fun _ => hright⟩

end ClosingStep

/-! ### Every run -/

/-- What every run in order keeps. -/
structure Negotiation.Kept (crypto : Crypto) (world : Negotiation) : Prop where
  party : ∀ side, ClosingParty crypto (world.party side)
  mirrored : Mirrored (world.party .funder) (world.party .fundee)
  lastFee : ∀ side, LastFeeKept (world.party side)
  inbox : ∀ side, ∀ msg ∈ world.inbox side, msg.channelId = (world.party side).channelId ∧
    SignedByPeer crypto (world.party side) msg.feeSat msg.signature
  alive : ∀ side, world.crashed side = false

/-- What one end signs the other end takes as signed. -/
theorem Mirrored.signed (hsound : crypto.Sound) {party : ClosingSide → LnSelf}
    (hparty : ∀ side, ClosingParty crypto (party side))
    (hmirror : Mirrored (party .funder) (party .fundee)) {side : ClosingSide} {feeSat : UInt64}
    (hvalid : (closingTx (party side) feeSat).isValid = true) :
    (party side).channelId = (party side.other).channelId ∧
      SignedByPeer crypto (party side.other) feeSat
        (closingSignature crypto (party side) feeSat) := by
  have htx := hmirror.closingTx_eq (hparty .funder) (hparty .fundee) feeSat
  have hhash := hmirror.closingHash_eq (hparty .funder) (hparty .fundee) feeSat
  have hown : crypto.verify (closingSignature crypto (party side) feeSat)
      (closingHash crypto (party side) feeSat) (party side).ownFundingKey = true :=
    hsound _ _ _ (hparty side).key
  cases side with
  | funder =>
      rw [← htx] at hvalid
      rw [← hhash, hmirror.keys.2] at hown
      exact ⟨hmirror.channelId.symm, hvalid, hown⟩
  | fundee =>
      rw [htx] at hvalid
      rw [hhash, hmirror.keys.1] at hown
      exact ⟨hmirror.channelId, hvalid, hown⟩

section Run

variable {world : Negotiation} {label : NegotiationLabel}

/-- Both ends still hold one channel after a change on one side. -/
theorem Mirrored.update {party : ClosingSide → LnSelf}
    (hmirror : Mirrored (party .funder) (party .fundee)) {side : ClosingSide} {after : LnSelf}
    (hchange : NegotiationChange (party side) after) :
    Mirrored (Function.update party side after .funder)
      (Function.update party side after .fundee) := by
  cases side with
  | funder =>
      have hmirror' := hchange.mirrored (.refl (party .fundee)) hmirror
      simpa [Function.update_apply] using hmirror'
  | fundee =>
      have hmirror' := (NegotiationChange.refl (party .funder)).mirrored hchange hmirror
      simpa [Function.update_apply] using hmirror'

theorem Negotiation.mem_left {msg : ClosingSigned} (hmem : msg ∈ world.left label) :
    msg ∈ world.inbox label.side := by
  cases label with
  | take side _ => exact List.mem_of_mem_tail hmem
  | hostile _ _ _ => exact hmem

theorem Negotiation.Kept.signed (hkept : world.Kept crypto)
    (horder : NegotiatesInOrder crypto world label)
    {msg : ClosingSigned} (hmsg : world.message label = some msg)
    (hchecked : Checked (world.party label.side) msg) :
    SignedByPeer crypto (world.party label.side) msg.feeSat msg.signature := by
  cases label with
  | take side _ => exact (hkept.inbox side msg (List.mem_of_head? hmsg)).2
  | hostile side _ _ => exact (horder msg hmsg hchecked).1 rfl

theorem Negotiation.Kept.step (hsound : crypto.Sound) (hkept : world.Kept crypto)
    (horder : NegotiatesInOrder crypto world label) {msg : ClosingSigned}
    (hmsg : world.message label = some msg) :
    ClosingStep crypto (world.party label.side) msg label.broadcast
      (world.outcome crypto label msg) :=
  recvClosingSigned_step hsound (hkept.party _) (hkept.lastFee _) (hkept.signed horder hmsg)
    fun hchecked => (horder msg hmsg hchecked).2

theorem Negotiation.Kept.after (hsound : crypto.Sound) (hkept : world.Kept crypto)
    {msg : ClosingSigned}
    (hstep : ClosingStep crypto (world.party label.side) msg label.broadcast
      (world.outcome crypto label msg)) :
    (world.after crypto label msg).Kept crypto := by
  have hparty : ∀ side, ClosingParty crypto ((world.after crypto label msg).party side) ∧
      LastFeeKept ((world.after crypto label msg).party side) ∧
      NegotiationChange (world.party side) ((world.after crypto label msg).party side) := by
    intro side
    by_cases hside : side = label.side
    · subst hside
      simp only [Negotiation.after, Function.update_self]
      exact ⟨hstep.change.party (hkept.party _), hstep.lastFee (hkept.lastFee _), hstep.change⟩
    · simp only [Negotiation.after, Function.update_of_ne hside]
      exact ⟨hkept.party side, hkept.lastFee side, .refl _⟩
  have hcarry : ∀ side, ∀ msg' : ClosingSigned, msg'.channelId = (world.party side).channelId →
      SignedByPeer crypto (world.party side) msg'.feeSat msg'.signature →
      msg'.channelId = ((world.after crypto label msg).party side).channelId ∧
        SignedByPeer crypto ((world.after crypto label msg).party side) msg'.feeSat
          msg'.signature := by
    intro side msg' hchannel hsigned
    have hchange := (hparty side).2.2
    refine ⟨?_, (hchange.signedByPeer _ _).mpr hsigned⟩
    obtain ⟨_, _, _, _, _, hafter⟩ := hchange
    rw [hafter]
    exact hchannel
  have halive := (hstep.negotiates hsound (hkept.party _)).alive
  refine ⟨fun side => (hparty side).1, hkept.mirrored.update hstep.change,
    fun side => (hparty side).2.1, ?_, fun side => by simp [Negotiation.after, halive, hkept.alive]⟩
  intro side msg' hmem
  by_cases hother : side = label.side.other
  · subst hother
    simp only [Negotiation.after, Function.update_self, List.mem_append] at hmem
    rcases hmem with hold | hsent
    · obtain ⟨hchannel, hsigned⟩ := hkept.inbox _ msg' hold
      exact hcarry _ msg' hchannel hsigned
    · obtain ⟨hchannel, hvalid, hsignature⟩ := hstep.sent hsent
      obtain ⟨hsame, hsigned⟩ := hkept.mirrored.signed hsound hkept.party hvalid
      exact hcarry _ msg' (hchannel.trans hsame) (hsignature ▸ hsigned)
  · have hside : side = label.side := by
      by_contra hne
      exact hother (ClosingSide.eq_other hne)
    subst hside
    simp only [Negotiation.after, Function.update_of_ne hother, Function.update_self] at hmem
    obtain ⟨hchannel, hsigned⟩ := hkept.inbox _ msg' (Negotiation.mem_left hmem)
    exact hcarry _ msg' hchannel hsigned

/-- The first `closing_signed` of a funder that has not sent one. -/
inductive OpeningStep (crypto : Crypto) (self : LnSelf) : Outcome → Prop
  | silent : OpeningStep crypto self (.reject self)
  | proposed {after : LnSelf} : (closingTx self self.closeFeeSat).isValid = true →
      NegotiationChange self after → after.closeFeeSat = self.closeFeeSat →
      after.closeLastFeeSat = self.closeFeeSat →
      OpeningStep crypto self ⟨true, after,
        [.sendReq none
            (.closingSigned self.closeFeeSat (closingSignature crypto self self.closeFeeSat)),
          .selfSave after]⟩

theorem startClosing_step (hsound : crypto.Sound) (hparty : ClosingParty crypto self)
    (hfunder : self.isFunder = true) : OpeningStep crypto self (startClosing crypto self) := by
  rw [startClosing, if_pos hfunder]
  by_cases hvalid : (closingTx self self.closeFeeSat).isValid = true
  · rw [createClosingTx_signed hsound hparty _ hvalid false fun hverify => by cases hverify]
    exact .proposed hvalid ⟨_, _, _, _, _, rfl⟩ rfl rfl
  · have hinvalid : createClosingTx crypto self self.closeFeeSat false = (false, self) := by
      have hsign : signCommittx crypto self (closingTx self self.closeFeeSat) = none := by
        simp only [signCommittx, calcSighashP2wsh, hvalid]
        rfl
      simp only [createClosingTx, scriptpk_ne_empty hparty.scriptpkLocal,
        scriptpk_ne_empty hparty.scriptpkRemote, Bool.or_false, Bool.false_eq_true, if_false]
      simp only [closingTx] at hsign
      rw [hsign]
    rw [hinvalid]
    exact .silent

theorem Negotiation.Kept.opened (hsound : crypto.Sound) {party : ClosingSide → LnSelf}
    (hparty : ∀ side, ClosingParty crypto (party side))
    (hmirror : Mirrored (party .funder) (party .fundee))
    (hlast : ∀ side, (party side).closeLastFeeSat = 0) :
    (Negotiation.opened crypto party).Kept crypto := by
  have hstep := startClosing_step hsound (hparty .funder) hmirror.roles.1
  simp only [Negotiation.opened]
  generalize startClosing crypto (party .funder) = first at hstep
  have hchange : NegotiationChange (party .funder) first.self := by
    cases hstep with
    | silent => exact .refl _
    | proposed _ hchange _ _ => exact hchange
  have hfirst : LastFeeKept first.self := by
    cases hstep with
    | silent => exact .inl (hlast .funder)
    | proposed _ _ hfee hsent => exact .inr (hfee.trans hsent.symm)
  refine ⟨?_, hmirror.update hchange, ?_, ?_, fun _ => rfl⟩
  · intro side
    cases side with
    | funder => exact hchange.party (hparty .funder)
    | fundee => exact hparty .fundee
  · intro side
    cases side with
    | funder => exact hfirst
    | fundee => exact .inl (hlast .fundee)
  · intro side msg hmem
    cases side with
    | funder => cases hmem
    | fundee =>
        simp only [Function.update_self] at hmem
        cases hstep with
        | silent => cases hmem
        | proposed hvalid hchange _ _ =>
            obtain rfl := List.mem_singleton.mp hmem
            obtain ⟨hchannel, hsigned⟩ := hmirror.signed hsound hparty hvalid
            obtain ⟨_, _, _, _, _, rfl⟩ := hchange
            exact ⟨hchannel, hsigned⟩

theorem negotiate_some {next : Negotiation} (hnext : negotiate crypto world label = some next) :
    ∃ msg, world.message label = some msg ∧ next = world.after crypto label msg := by
  simp only [negotiate] at hnext
  split at hnext
  · cases hnext
  · obtain ⟨msg, hmsg, rfl⟩ := Option.map_eq_some_iff.mp hnext
    exact ⟨msg, hmsg, rfl⟩

theorem Negotiation.Kept.reachable (hsound : crypto.Sound)
    (hreach : (negotiationSystem crypto).ReachableUnder (NegotiatesInOrder crypto) world) :
    world.Kept crypto := by
  apply hreach.invariant
  · rintro state ⟨party, rfl, hparty, hmirror, hlast⟩
    exact .opened hsound hparty hmirror hlast
  · intro before label after hkept horder hnext
    obtain ⟨msg, hmsg, rfl⟩ := negotiate_some hnext
    exact hkept.after hsound (hkept.step hsound horder hmsg)

/-! ### Two honest ends -/

/-- How far a run without hostile messages has come, and in how many steps. -/
inductive HonestPhase (world : Negotiation) : Nat → Prop
  | silent : (∀ side, world.inbox side = []) → HonestPhase world 0
  | proposed {msg : ClosingSigned} : world.inbox .fundee = [msg] → world.inbox .funder = [] →
      (world.party .funder).closeFeeSat = msg.feeSat →
      (world.party .funder).closeLastFeeSat = msg.feeSat → HonestPhase world 0
  | answered {msg : ClosingSigned} : world.inbox .funder = [msg] → world.inbox .fundee = [] →
      (world.party .funder).closeLastFeeSat = msg.feeSat →
      (∀ side, (world.party side).closeFeeSat = msg.feeSat) → HonestPhase world 1
  | closed {count : Nat} : count ≤ 2 → (∀ side, world.inbox side = []) → ClosedAlike world →
      HonestPhase world count

theorem agreed_of_closed (hkept : world.Kept crypto) {feeSat : UInt64}
    (hfee : ∀ side, (world.party side).closeFeeSat = feeSat) {side : ClosingSide}
    (hclosed : world.closed side =
      some (closingTx (world.party side) (world.party side).closeFeeSat)) : ClosedAlike world := by
  have htx := hkept.mirrored.closingTx_eq (hkept.party .funder) (hkept.party .fundee) feeSat
  refine ⟨_, ⟨side, hclosed⟩, ?_⟩
  intro side'
  rw [hfee, hfee]
  cases side <;> cases side' <;> first | rfl | exact htx | exact htx.symm

theorem Negotiation.after_closed {msg : ClosingSigned}
    (hhands : (world.outcome crypto label msg).trace.any Effect.hands = true) :
    (world.after crypto label msg).closed label.side =
      some (closingTx ((world.after crypto label msg).party label.side)
        ((world.after crypto label msg).party label.side).closeFeeSat) := by
  simp only [Negotiation.after, hhands, if_true, Function.update_self]

/-- A message that is in order and closes on the fee of both ends. -/
theorem HonestPhase.close (hsound : crypto.Sound) (hkept : world.Kept crypto) {msg : ClosingSigned}
    {count : Nat} (hcount : count ≤ 2)
    (hstep : ClosingStep crypto (world.party label.side) msg label.broadcast
      (world.outcome crypto label msg))
    (hhands : (world.outcome crypto label msg).trace.any Effect.hands = true)
    (hfee : ∀ side, ((world.after crypto label msg).party side).closeFeeSat = msg.feeSat)
    (hinbox : ∀ side, (world.after crypto label msg).inbox side = []) :
    HonestPhase (world.after crypto label msg) count :=
  .closed hcount hinbox (agreed_of_closed (hkept.after hsound hstep) hfee
    (Negotiation.after_closed hhands))

/-- A message that passes the checks is answered with its fee, or closes on it. -/
theorem ClosingStep.of_checked {msg : ClosingSigned} {broadcast : Bool} {outcome : Outcome}
    (hstep : ClosingStep crypto self msg broadcast outcome) (hchecked : Checked self msg) :
    outcome.self.closeFeeSat = msg.feeSat ∧
      (self.closeLastFeeSat ≠ msg.feeSat ∧ outcome.closingSigned =
          [⟨self.channelId, msg.feeSat, closingSignature crypto self msg.feeSat⟩] ∨
        self.closeLastFeeSat = msg.feeSat ∧ outcome.closingSigned = [] ∧
          outcome.trace.any Effect.hands = true) := by
  cases hstep with
  | refused hnot => exact absurd hchecked hnot
  | answered _ _ hlast => exact ⟨rfl, .inl ⟨hlast, rfl⟩⟩
  | done _ _ hlast hclose _ _ => exact ⟨hclose, .inr ⟨hlast, rfl, rfl⟩⟩

theorem HonestPhase.step (hsound : crypto.Sound) (hkept : world.Kept crypto) {count : Nat}
    (hphase : HonestPhase world count) (hhonest : HonestStep crypto world label)
    {msg : ClosingSigned} (hmsg : world.message label = some msg) :
    HonestPhase (world.after crypto label msg) (count + 1) := by
  obtain ⟨horder, htake, hrange⟩ := hhonest
  have hstep := hkept.step hsound horder hmsg
  cases label with
  | hostile _ _ _ => cases htake
  | take side broadcast =>
      have hmem : msg ∈ world.inbox side := List.mem_of_head? hmsg
      have hchecked : Checked (world.party side) msg :=
        ⟨(hkept.inbox side msg hmem).1, hrange msg hmsg⟩
      obtain ⟨hfee, hend⟩ := hstep.of_checked hchecked
      cases hphase with
      | silent hinbox =>
          rw [hinbox side] at hmem
          cases hmem
      | closed _ hinbox _ =>
          rw [hinbox side] at hmem
          cases hmem
      | proposed hfundee hfunder hclose hlast =>
          cases side with
          | funder =>
              rw [hfunder] at hmem
              cases hmem
          | fundee =>
              rw [hfundee] at hmem
              obtain rfl := List.mem_singleton.mp hmem
              have hfees : ∀ side,
                  ((world.after crypto (.take .fundee broadcast) msg).party side).closeFeeSat =
                    msg.feeSat := by
                intro side
                cases side with
                | funder => exact hclose
                | fundee => exact hfee
              rcases hend with ⟨-, hsent⟩ | ⟨-, hsent, hhands⟩
              · have hanswer : (world.after crypto (.take .fundee broadcast) msg).inbox .funder =
                    [⟨_, msg.feeSat, _⟩] := congrArg₂ List.append hfunder hsent
                have hempty : (world.after crypto (.take .fundee broadcast) msg).inbox .fundee =
                    [] := congrArg List.tail hfundee
                exact .answered hanswer hempty hlast hfees
              · refine .close hsound hkept (by decide) hstep hhands hfees fun side => ?_
                cases side with
                | funder => exact (congrArg₂ List.append hfunder hsent :)
                | fundee => exact (congrArg List.tail hfundee :)
      | answered hfunder hfundee hlast hclose =>
          cases side with
          | fundee =>
              rw [hfundee] at hmem
              cases hmem
          | funder =>
              rw [hfunder] at hmem
              obtain rfl := List.mem_singleton.mp hmem
              rcases hend with ⟨hne, -⟩ | ⟨-, hsent, hhands⟩
              · exact absurd hlast hne
              · have hfees : ∀ side,
                    ((world.after crypto (.take .funder broadcast) msg).party side).closeFeeSat =
                      msg.feeSat := by
                  intro side
                  cases side with
                  | funder => exact hfee
                  | fundee => exact hclose .fundee
                refine .close hsound hkept (by decide) hstep hhands hfees fun side => ?_
                cases side with
                | funder => exact (congrArg List.tail hfunder :)
                | fundee => exact (congrArg₂ List.append hfundee hsent :)

theorem HonestPhase.opened (hsound : crypto.Sound) {party : ClosingSide → LnSelf}
    (hparty : ∀ side, ClosingParty crypto (party side))
    (hmirror : Mirrored (party .funder) (party .fundee)) :
    HonestPhase (.opened crypto party) 0 := by
  have hstep := startClosing_step hsound (hparty .funder) hmirror.roles.1
  simp only [Negotiation.opened]
  generalize startClosing crypto (party .funder) = first at hstep
  cases hstep with
  | silent =>
      refine .silent fun side => ?_
      cases side <;> rfl
  | proposed _ _ hfee hlast =>
      exact @HonestPhase.proposed _ ⟨_, (party .funder).closeFeeSat, _⟩ rfl rfl hfee hlast

theorem HonestPhase.count_le {count : Nat} (hphase : HonestPhase world count) : count ≤ 2 := by
  cases hphase with
  | silent _ => exact Nat.zero_le 2
  | proposed _ _ _ _ => exact Nat.zero_le 2
  | answered _ _ _ _ => exact by decide
  | closed hcount _ _ => exact hcount

theorem HonestPhase.agreed {past : List Negotiation} (hphase : HonestPhase world past.length)
    (hpast : past ≠ []) (hinbox : ∀ side, world.inbox side = []) : ClosedAlike world := by
  generalize hcount : past.length = count at hphase
  cases hphase with
  | silent _ => exact absurd (List.length_eq_zero_iff.mp hcount) hpast
  | proposed hfundee _ _ _ =>
      rw [hinbox] at hfundee
      cases hfundee
  | answered hfunder _ _ _ =>
      rw [hinbox] at hfunder
      cases hfunder
  | closed _ _ hagreed => exact hagreed

/-- In every run in which messages that pass the first checks carry a signature of the peer, and no
channel closes on a fee above the funder's balance, on the 0 that stands for no fee or in a
transaction that the bitcoin node refuses, `closing_signed` does what it should; two honest ends
come to hold the same transaction. -/
theorem negotiatesRight_of_inOrder (crypto : Crypto) (hsound : crypto.Sound) :
    (∀ world label msg,
        (negotiationSystem crypto).ReachableUnder (NegotiatesInOrder crypto) world →
        NegotiatesInOrder crypto world label → world.message label = some msg →
        NegotiatesRight crypto (world.party label.side) msg (world.outcome crypto label msg)) ∧
      ∀ world past, (negotiationSystem crypto).HistoryUnder (HonestStep crypto) (world :: past) →
        past.length ≤ 2 ∧
          (∀ side broadcast, world.inbox side ≠ [] →
            (negotiate crypto world (.take side broadcast)).isSome = true) ∧
          (past ≠ [] → (∀ side, world.inbox side = []) → ClosedAlike world) := by
  constructor
  · intro world label msg hreach horder hmsg
    have hkept := Negotiation.Kept.reachable hsound hreach
    exact (hkept.step hsound horder hmsg).negotiates hsound (hkept.party _)
  · intro world past hhistory
    obtain ⟨hkept, hphase⟩ : world.Kept crypto ∧ HonestPhase world past.length := by
      apply hhistory.invariant fun world past => world.Kept crypto ∧ HonestPhase world past.length
      · rintro state ⟨party, rfl, hparty, hmirror, hlast⟩
        exact ⟨.opened hsound hparty hmirror hlast, .opened hsound hparty hmirror⟩
      · rintro before past label after ⟨hkept, hphase⟩ hhonest hnext
        obtain ⟨msg, hmsg, rfl⟩ := negotiate_some hnext
        exact ⟨hkept.after hsound (hkept.step hsound hhonest.1 hmsg),
          hphase.step hsound hkept hhonest hmsg⟩
    refine ⟨hphase.count_le, ?_, hphase.agreed⟩
    intro side broadcast hsome
    obtain ⟨msg, rest, hinbox⟩ := List.exists_cons_of_ne_nil hsome
    simp [negotiate, NegotiationLabel.side, hkept.alive, Negotiation.message, hinbox]

end Run

/-! ### Two negotiations -/

/-- One end of a channel whose funder holds the first key, after the exchange of `shutdown`. -/
def symbolicCloser : ClosingSide → LnSelf
  | .funder =>
      { isFunder := true
        shutdownFlag := ⟨true, true⟩
        privData := { priv := { funding := [1] } }
        redeemFund := ⟨[1], [2]⟩
        txFundingScript := (RedeemFund.mk [1] [2]).script
        shutdownScriptpkLocal := symbolicScriptpk 1
        shutdownScriptpkRemote := symbolicScriptpk 2
        ourMsat := 600000000
        theirMsat := 400000000
        fundingSat := 1000000
        feeratePerKw := 1000
        closeFeeSat := 500 }
  | .fundee =>
      { shutdownFlag := ⟨true, true⟩
        privData := { priv := { funding := [2] } }
        redeemFund := ⟨[1], [2]⟩
        keyFundSortAsc := false
        txFundingScript := (RedeemFund.mk [1] [2]).script
        shutdownScriptpkLocal := symbolicScriptpk 2
        shutdownScriptpkRemote := symbolicScriptpk 1
        ourMsat := 400000000
        theirMsat := 600000000
        fundingSat := 1000000
        feeratePerKw := 1000
        closeFeeSat := 724 }

/-- The negotiation of these ends before the first message has arrived. -/
def symbolicNegotiation : Negotiation :=
  .opened .symbolic symbolicCloser

theorem symbolicNegotiation_start :
    (negotiationSystem .symbolic).start symbolicNegotiation := by
  refine ⟨symbolicCloser, rfl, ?_, ?_, ?_⟩
  · intro side
    cases side <;> constructor <;> decide +kernel
  · constructor <;> decide +kernel
  · intro side
    cases side <;> rfl

/-- The fundee takes the first fee, and the funder the answer. -/
def honestScript : List (Negotiation → NegotiationLabel) :=
  [fun _ => .take .fundee true, fun _ => .take .funder true]

/-- The message has a fee in the range, above 0 and within the funder's balance, and a signature of
the peer if it may lack one; the bitcoin node takes what is sent. -/
def permitPaid (world : Negotiation) (label : NegotiationLabel) : Bool :=
  (world.message label).all fun msg =>
    decide (msg.feeSat ≤ lnClosingSignedInitfee (world.party label.side)) &&
      decide (msg.feeSat ≤ (world.party label.side).funderSat) && msg.feeSat != 0 &&
      label.broadcast &&
      (!label.isHostile ||
        decide (SignedByPeer .symbolic (world.party label.side) msg.feeSat msg.signature))

theorem inOrder_of_permitPaid {world : Negotiation} {label : NegotiationLabel}
    (hpermits : permitPaid world label = true) :
    NegotiatesInOrder .symbolic world label ∧
      ∀ msg, world.message label = some msg →
        msg.feeSat ≤ lnClosingSignedInitfee (world.party label.side) := by
  simp only [permitPaid, Option.all_eq_true, Bool.and_eq_true, Bool.or_eq_true, Bool.not_eq_true',
    decide_eq_true_eq, bne_iff_ne] at hpermits
  constructor
  · intro msg hmsg _
    obtain ⟨⟨⟨⟨-, hfunds⟩, hne⟩, hbroadcast⟩, hsigned⟩ := hpermits msg hmsg
    refine ⟨fun hhostile => ?_, fun _ => ⟨hbroadcast, hfunds, fun hzero => absurd hzero hne⟩⟩
    rcases hsigned with htake | hsigned
    · rw [htake] at hhostile
      cases hhostile
    · exact hsigned
  · exact fun msg hmsg => (hpermits msg hmsg).1.1.1.1

/-- The first `closing_signed` of the funder once more. -/
def repeatFirst : NegotiationLabel :=
  .hostile .fundee ⟨[], 500, closingSignature .symbolic (symbolicCloser .funder) 500⟩ true

/-- Two honest ends hold the same transaction after two messages, and the fundee closes on it too
when the first one comes again. -/
theorem negotiatesRight_honestScript :
    ∃ world past, (negotiationSystem .symbolic).HistoryUnder (HonestStep .symbolic)
        (world :: past) ∧ past.length ≤ 2 ∧ ClosedAlike world ∧
      ∃ msg, world.message repeatFirst = some msg ∧ NegotiatesRight .symbolic
          (world.party .fundee) msg (world.outcome .symbolic repeatFirst msg) ∧
        (world.outcome .symbolic repeatFirst msg).trace.any Effect.hands = true := by
  have hcheck : ((negotiationSystem .symbolic).trail permitPaid symbolicNegotiation []
      honestScript).any (fun final => !final.2.isEmpty &&
        (final.1.inbox .funder).isEmpty && (final.1.inbox .fundee).isEmpty &&
        permitPaid final.1 repeatFirst && (final.1.message repeatFirst).any fun msg =>
          (final.1.outcome .symbolic repeatFirst msg).trace.any Effect.hands) = true := by
    decide +kernel
  simp only [Option.any_eq_true, Bool.and_eq_true, Bool.not_eq_true', List.isEmpty_iff,
    List.isEmpty_eq_false_iff] at hcheck
  obtain ⟨⟨world, history⟩, htrail, ⟨⟨⟨hpast, hfunder⟩, hfundee⟩, hpermits⟩, msg, hmsg, hhands⟩ :=
    hcheck
  have hhonest : ∀ choose ∈ honestScript, ∀ before, permitPaid before (choose before) = true →
      HonestStep .symbolic before (choose before) := by
    intro choose hmem before hbefore
    obtain ⟨horder, hrange⟩ := inOrder_of_permitPaid hbefore
    simp only [honestScript, List.mem_cons, List.not_mem_nil, or_false] at hmem
    rcases hmem with rfl | rfl <;> exact ⟨horder, rfl, hrange⟩
  obtain ⟨hhistory, -⟩ := System.history_of_trail hhonest (.start symbolicNegotiation_start) htrail
  obtain ⟨source, hsource, hrun⟩ := hhistory.reachableUnder
  have hreach : (negotiationSystem Crypto.symbolic).ReachableUnder (NegotiatesInOrder .symbolic)
      world := ⟨source, hsource, hrun.mono fun _ _ hstep => hstep.1⟩
  have hinbox : ∀ side, world.inbox side = [] := by
    intro side
    cases side with
    | funder => exact hfunder
    | fundee => exact hfundee
  obtain ⟨hlaw, hends⟩ := negotiatesRight_of_inOrder .symbolic symbolic_sound
  obtain ⟨hlength, -, halike⟩ := hends world history hhistory
  exact ⟨world, history, hhistory, hlength, halike hpast hinbox, msg, hmsg,
    hlaw world repeatFirst msg hreach (inOrder_of_permitPaid hpermits).1 hmsg, hhands⟩

/-- A `closing_signed` with an empty signature ends the process. -/
theorem negotiatesWrong_unsigned :
    ¬ ∀ (crypto : Crypto) (world : Negotiation) (label : NegotiationLabel) (msg : ClosingSigned),
      crypto.Sound → (negotiationSystem crypto).Reachable world →
        world.message label = some msg →
        NegotiatesRight crypto (world.party label.side) msg (world.outcome crypto label msg) := by
  intro hall
  have hreach : (negotiationSystem Crypto.symbolic).Reachable symbolicNegotiation :=
    ⟨symbolicNegotiation, symbolicNegotiation_start, .refl⟩
  have halive := (hall .symbolic symbolicNegotiation (.hostile .fundee ⟨[], 500, []⟩ true) _
    symbolic_sound hreach rfl).alive
  have haborts : (symbolicNegotiation.outcome .symbolic (.hostile .fundee ⟨[], 500, []⟩ true)
      ⟨[], 500, []⟩).trace.any Effect.aborts = true := by
    decide +kernel
  rw [haborts] at halive
  cases halive

end Ptarmigan
