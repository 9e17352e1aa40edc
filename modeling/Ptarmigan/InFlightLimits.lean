/-
The limits on the HTLCs in flight: how many each side may have pending, how much they
may add up to, how small one may be, and what its offerer keeps.  The checks of a new
HTLC look at the last commitment transaction and at sums without the new HTLC.
-/
import Ptarmigan.Balance
import Ptarmigan.Dance

namespace Ptarmigan

open TransitionSystem

variable {crypto : Crypto} {self : LnSelf} {kind : LnAddhtlc}

/-- The side whose limits HTLCs of the kind are under: the peer's for those this node
offers, the node's own for those it receives. -/
def limitsOf (self : LnSelf) : LnAddhtlc → LnCommitData
  | .recv => self.commitLocal
  | _ => self.commitRemote

/-- The number of HTLCs of the kind. -/
def pendingCount (kind : LnAddhtlc) (slots : Slots) : Nat :=
  (List.finRange lnHtlcMax).countP fun idx => (slots idx).flag.addhtlc = kind

/-- What the offerer of the HTLCs must keep. -/
def reserveMsat (self : LnSelf) (kind : LnAddhtlc) : Nat :=
  1000 * (limitsOf self kind).channelReserveSat.toNat

/-- The amount is one that an HTLC of the kind may have. -/
def AmountAllowed (self : LnSelf) (kind : LnAddhtlc) (amountMsat : UInt64) : Prop :=
  0 < amountMsat ∧ (limitsOf self kind).htlcMinimumMsat ≤ amountMsat

/-- The pending HTLCs of one side are within its limits. -/
structure WithinLimits (channel : LnSelf) (kind : LnAddhtlc) : Prop where
  count : pendingCount kind channel.cnlAddHtlc ≤ (limitsOf channel kind).maxAcceptedHtlcs.toNat
  inFlight : pendingMsat kind channel.cnlAddHtlc ≤
    (limitsOf channel kind).maxHtlcValueInFlightMsat.toNat
  amounts : ∀ idx, (channel.cnlAddHtlc idx).flag.addhtlc = kind →
    AmountAllowed channel kind (channel.cnlAddHtlc idx).amountMsat
  reserve : pendingCount kind channel.cnlAddHtlc ≠ 0 →
    pendingMsat kind channel.cnlAddHtlc + reserveMsat channel kind ≤
      (balanceMsat channel kind).toNat

/-- Both sides are within their limits. -/
structure LimitsKept (channel : LnSelf) : Prop where
  offered : WithinLimits channel .offer
  received : WithinLimits channel .recv

/-! ### What the checks leave open -/

/-- One more HTLC of the kind and the amount is within the limits. -/
structure Room (channel : LnSelf) (kind : LnAddhtlc) (amountMsat : UInt64) : Prop where
  allowed : AmountAllowed channel kind amountMsat
  count : pendingCount kind channel.cnlAddHtlc < (limitsOf channel kind).maxAcceptedHtlcs.toNat
  inFlight : pendingMsat kind channel.cnlAddHtlc + amountMsat.toNat ≤
    (limitsOf channel kind).maxHtlcValueInFlightMsat.toNat
  reserve : pendingMsat kind channel.cnlAddHtlc + amountMsat.toNat + reserveMsat channel kind ≤
    (balanceMsat channel kind).toNat

/-- `check_create_add_htlc` has no gap at the amount: what it compares settles what the
limits say of the pending HTLCs together with the new one. -/
structure NoOfferGap (channel : LnSelf) (amountMsat : UInt64) : Prop where
  count : channel.commitRemote.htlcNum < channel.commitRemote.maxAcceptedHtlcs →
    pendingCount .offer channel.cnlAddHtlc < channel.commitRemote.maxAcceptedHtlcs.toNat
  inFlight : offeredMsat channel.cnlAddHtlc ≤ channel.commitRemote.maxHtlcValueInFlightMsat →
    pendingMsat .offer channel.cnlAddHtlc + amountMsat.toNat ≤
      channel.commitRemote.maxHtlcValueInFlightMsat.toNat
  reserve : amountMsat + channel.commitRemote.channelReserveSat * 1000 ≤ channel.ourMsat →
    pendingMsat .offer channel.cnlAddHtlc + amountMsat.toNat + reserveMsat channel .offer ≤
      channel.ourMsat.toNat

/-- `check_recv_add_htlc_bolt2` has no gap at the amount. -/
structure NoRecvGap (channel : LnSelf) (amountMsat : UInt64) : Prop where
  amount : channel.commitLocal.htlcMinimumMsat ≤ amountMsat → 0 < amountMsat
  count : channel.commitLocal.htlcNum ≤ channel.commitLocal.maxAcceptedHtlcs →
    pendingCount .recv channel.cnlAddHtlc < channel.commitLocal.maxAcceptedHtlcs.toNat
  inFlight : offeredMsat channel.cnlAddHtlc ≤ channel.commitLocal.maxHtlcValueInFlightMsat →
    pendingMsat .recv channel.cnlAddHtlc + amountMsat.toNat ≤
      channel.commitLocal.maxHtlcValueInFlightMsat.toNat
  reserve : amountMsat ≤ channel.theirMsat →
    pendingMsat .recv channel.cnlAddHtlc + amountMsat.toNat + reserveMsat channel .recv ≤
      channel.theirMsat.toNat

instance (self : LnSelf) (kind : LnAddhtlc) (amountMsat : UInt64) :
    Decidable (AmountAllowed self kind amountMsat) :=
  inferInstanceAs (Decidable (_ ∧ _))

instance (self : LnSelf) (kind : LnAddhtlc) (amountMsat : UInt64) :
    Decidable (Room self kind amountMsat) :=
  decidable_of_iff (_ ∧ _ ∧ _ ∧ _)
    ⟨fun ⟨hallowed, hcount, hsum, hreserve⟩ => ⟨hallowed, hcount, hsum, hreserve⟩,
      fun hroom => ⟨hroom.allowed, hroom.count, hroom.inFlight, hroom.reserve⟩⟩

instance (self : LnSelf) (amountMsat : UInt64) : Decidable (NoOfferGap self amountMsat) :=
  decidable_of_iff ((_ → _) ∧ (_ → _) ∧ (_ → _))
    ⟨fun ⟨hcount, hsum, hreserve⟩ => ⟨hcount, hsum, hreserve⟩,
      fun hgap => ⟨hgap.count, hgap.inFlight, hgap.reserve⟩⟩

instance (self : LnSelf) (amountMsat : UInt64) : Decidable (NoRecvGap self amountMsat) :=
  decidable_of_iff ((_ → _) ∧ (_ → _) ∧ (_ → _) ∧ (_ → _))
    ⟨fun ⟨hamount, hcount, hsum, hreserve⟩ => ⟨hamount, hcount, hsum, hreserve⟩,
      fun hgap => ⟨hgap.amount, hgap.count, hgap.inFlight, hgap.reserve⟩⟩

/-- The event brings no HTLC into play through a gap of its check.  What
`ln_add_htlc_start_fwd` starts is not checked again. -/
def noGap (crypto : Crypto) (self : LnSelf) : ChannelEvent → Bool
  | .addHtlc req =>
      (lnAddHtlcSet crypto self req).1.all fun _ => NoOfferGap self req.amountMsat
  | .recv channelId (.updateAddHtlc id amountMsat paymentSha256 cltvExpiry packet) _ =>
      !self.initFlag.exchanged ||
        (acceptedSlot self channelId id amountMsat paymentSha256 cltvExpiry packet).all fun _ =>
          NoRecvGap self amountMsat
  | .startFwd idx =>
      (self.cnlAddHtlc idx).flag.addhtlc = .offer ||
        decide (Room self .offer (self.cnlAddHtlc idx).amountMsat)
  | _ => true

def stepNoGap (crypto : Crypto) (state : ChannelState) : ChannelLabel → Bool
  | .event ev => noGap crypto state.self ev
  | _ => true

theorem checkCreateAddHtlc_passed {amountMsat : UInt64} {cltvValue : UInt32} {idx : HtlcIdx}
    (hcheck : checkCreateAddHtlc self amountMsat cltvValue = some idx) :
    amountMsat + self.commitRemote.channelReserveSat * 1000 ≤ self.ourMsat ∧
      self.commitRemote.htlcNum < self.commitRemote.maxAcceptedHtlcs ∧
      AmountAllowed self .offer amountMsat ∧
      offeredMsat self.cnlAddHtlc ≤ self.commitRemote.maxHtlcValueInFlightMsat := by
  simp only [checkCreateAddHtlc] at hcheck
  split_ifs at hcheck with hcltv hreserve hfee hcount hamount hsum
  rw [not_or, UInt64.not_lt] at hamount
  have hpos : 0 < amountMsat := UInt64.pos_iff_ne_zero.mpr hamount.1
  exact ⟨UInt64.not_lt.mp hreserve, UInt16.not_le.mp hcount, ⟨hpos, hamount.2⟩,
    UInt64.not_lt.mp hsum⟩

theorem NoOfferGap.room {amountMsat : UInt64} {cltvValue : UInt32} {idx : HtlcIdx}
    (hgap : NoOfferGap self amountMsat)
    (hcheck : checkCreateAddHtlc self amountMsat cltvValue = some idx) :
    Room self .offer amountMsat := by
  obtain ⟨hreserve, hcount, hallowed, hsum⟩ := checkCreateAddHtlc_passed hcheck
  exact ⟨hallowed, hgap.count hcount, hgap.inFlight hsum, hgap.reserve hreserve⟩

/-- A message that is read into a free slot is not among the offered HTLCs. -/
theorem offeredMsat_setSlot {idx : HtlcIdx} {htlc : LnUpdateAddHtlc}
    (hbefore : (self.cnlAddHtlc idx).flag.addhtlc = .none) (hafter : htlc.flag.addhtlc = .none) :
    offeredMsat (self.setSlot idx htlc).cnlAddHtlc = offeredMsat self.cnlAddHtlc := by
  have hstep : (fun (total : UInt64) (at' : HtlcIdx) =>
      if ((self.setSlot idx htlc).cnlAddHtlc at').flag.addhtlc = .offer then
        total + ((self.setSlot idx htlc).cnlAddHtlc at').amountMsat else total) =
      fun total at' => if (self.cnlAddHtlc at').flag.addhtlc = .offer then
        total + (self.cnlAddHtlc at').amountMsat else total := by
    funext total at'
    rw [LnSelf.setSlot_slot]
    by_cases hidx : at' = idx
    · simp [hidx, hbefore, hafter]
    · simp [hidx]
  rw [offeredMsat, offeredMsat, hstep]

theorem NoRecvGap.room {channelId : Bytes} {id : Nat} {amountMsat : UInt64}
    {paymentSha256 : Bytes} {cltvExpiry : UInt32} {packet : Bytes} {idx : HtlcIdx}
    (hgap : NoRecvGap self amountMsat)
    (haccepted : acceptedSlot self channelId id amountMsat paymentSha256 cltvExpiry packet =
      some idx) : Room self .recv amountMsat := by
  obtain ⟨hfirst, hcheck⟩ := Option.filter_eq_some_iff.mp haccepted
  have hnone := addhtlc_of_empty (empty_of_firstEmpty hfirst)
  simp only [checkRecvAddHtlcBolt2, Bool.and_eq_true, Bool.not_eq_true',
    decide_eq_false_iff_not] at hcheck
  have hoffered : offeredMsat (self.setSlot idx ((self.cnlAddHtlc idx).read id amountMsat
      paymentSha256 cltvExpiry packet)).cnlAddHtlc = offeredMsat self.cnlAddHtlc :=
    offeredMsat_setSlot hnone hnone
  rw [hoffered] at hcheck
  obtain ⟨-, ⟨⟨⟨⟨⟨-, hmin⟩, htheirs⟩, hcount⟩, hsum⟩, -⟩, -⟩ := hcheck
  have hmin' := UInt64.not_lt.mp hmin
  exact ⟨⟨hgap.amount hmin', hmin'⟩, hgap.count (UInt16.not_lt.mp hcount),
    hgap.inFlight (UInt64.not_lt.mp hsum), hgap.reserve (UInt64.not_lt.mp htheirs)⟩

/-- The slot that `ln_add_htlc_set` takes passed the check, and it is started. -/
theorem lnAddHtlcSet_some {req : AddHtlcRequest} {idx : HtlcIdx}
    (hset : (lnAddHtlcSet crypto self req).1 = some idx) :
    checkCreateAddHtlc self req.amountMsat req.cltvValue = some idx ∧
      (lnAddHtlcSet crypto self req).2 =
        lnAddHtlcStartFwd { self.setSlot idx (requestedSlot self idx req) with
          htlcIdNum := self.htlcIdNum + 1 } idx := by
  have hshutdown : ¬ self.shutdownFlag ≠ {} := by
    intro hflag
    rw [lnAddHtlcSet, if_pos hflag] at hset
    cases hset
  rw [lnAddHtlcSet, if_neg hshutdown] at hset ⊢
  cases hcheck : checkCreateAddHtlc self req.amountMsat req.cltvValue with
  | none =>
      rw [setAddHtlc, hcheck] at hset
      cases hset
  | some free =>
      rw [setAddHtlc, hcheck] at hset ⊢
      simp only at hset ⊢
      by_cases hfits : checkCreateRemoteCommitTx crypto
          { self.setSlot free (requestedSlot self free req) with
            htlcIdNum := self.htlcIdNum + 1 } free = true
      · simp only [requestedSlot] at hfits
        simp only [hfits, if_true] at hset ⊢
        obtain rfl := Option.some.inj hset
        exact ⟨rfl, rfl⟩
      · simp only [requestedSlot] at hfits
        simp [hfits] at hset

/-- The event is not a message before the exchange of `init`. -/
def Heard (self : LnSelf) (ev : ChannelEvent) : Prop :=
  ∀ channelId msg env, ev = .recv channelId msg env → self.initFlag.exchanged = true

theorem handle_unheard {ev : ChannelEvent} (hunheard : ¬ Heard self ev) :
    (handle crypto self ev).self = self := by
  simp only [Heard, not_forall] at hunheard
  obtain ⟨channelId, msg, env, rfl, hinit⟩ := hunheard
  rw [handle, lnRecv, if_neg hinit, Outcome.reject]

/-- Without a gap, what comes into play finds room. -/
theorem room_of_noGap {ev : ChannelEvent} {idx : HtlcIdx} {amountMsat : UInt64}
    (hgap : noGap crypto self ev = true) (hheard : Heard self ev)
    (hentering : entering crypto self ev = some (kind, idx, amountMsat)) :
    Room self kind amountMsat := by
  cases ev with
  | addHtlc req =>
      obtain ⟨idx', hset, heq⟩ := Option.map_eq_some_iff.mp hentering
      rw [noGap, hset, Option.all_some, decide_eq_true_eq] at hgap
      obtain ⟨rfl, rfl, rfl⟩ : LnAddhtlc.offer = kind ∧ idx' = idx ∧
          req.amountMsat = amountMsat := by
        simpa using heq
      exact hgap.room (lnAddHtlcSet_some hset).1
  | startFwd at' =>
      rw [entering] at hentering
      split_ifs at hentering with hoffer
      obtain ⟨rfl, rfl, rfl⟩ : LnAddhtlc.offer = kind ∧ at' = idx ∧
          (self.cnlAddHtlc at').amountMsat = amountMsat := by
        simpa using hentering
      simpa [noGap, hoffer] using hgap
  | recv channelId msg env =>
      cases msg with
      | updateAddHtlc id received paymentSha256 cltvExpiry packet =>
          obtain ⟨idx', haccepted, heq⟩ := Option.map_eq_some_iff.mp hentering
          rw [noGap, haccepted, Option.all_some, hheard _ _ _ rfl, Bool.not_true, Bool.false_or,
            decide_eq_true_eq] at hgap
          obtain ⟨rfl, rfl, rfl⟩ : LnAddhtlc.recv = kind ∧ idx' = idx ∧ received = amountMsat := by
            simpa using heq
          exact hgap.room haccepted
      | _ => cases hentering
  | _ => cases hentering

/-! ### The limits themselves -/

/-- The limits are the same. -/
structure SameLimits (before after : LnCommitData) : Prop where
  maxAcceptedHtlcs : after.maxAcceptedHtlcs = before.maxAcceptedHtlcs
  maxHtlcValueInFlightMsat : after.maxHtlcValueInFlightMsat = before.maxHtlcValueInFlightMsat
  htlcMinimumMsat : after.htlcMinimumMsat = before.htlcMinimumMsat
  channelReserveSat : after.channelReserveSat = before.channelReserveSat

theorem SameLimits.refl (commit : LnCommitData) : SameLimits commit commit :=
  ⟨rfl, rfl, rfl, rfl⟩

theorem SameLimits.trans {first second third : LnCommitData} (hfirst : SameLimits first second)
    (hsecond : SameLimits second third) : SameLimits first third where
  maxAcceptedHtlcs := hsecond.maxAcceptedHtlcs.trans hfirst.maxAcceptedHtlcs
  maxHtlcValueInFlightMsat :=
    hsecond.maxHtlcValueInFlightMsat.trans hfirst.maxHtlcValueInFlightMsat
  htlcMinimumMsat := hsecond.htlcMinimumMsat.trans hfirst.htlcMinimumMsat
  channelReserveSat := hsecond.channelReserveSat.trans hfirst.channelReserveSat

def KeepsLimits (before after : LnSelf) : Prop :=
  ∀ kind, SameLimits (limitsOf before kind) (limitsOf after kind)

theorem KeepsLimits.of_commits {before after : LnSelf}
    (hlocal : SameLimits before.commitLocal after.commitLocal)
    (hremote : SameLimits before.commitRemote after.commitRemote) : KeepsLimits before after := by
  intro kind
  cases kind with
  | recv => exact hlocal
  | _ => exact hremote

theorem KeepsLimits.of_same {before after : LnSelf}
    (hlocal : after.commitLocal = before.commitLocal)
    (hremote : after.commitRemote = before.commitRemote) : KeepsLimits before after :=
  .of_commits (hlocal ▸ .refl _) (hremote ▸ .refl _)

theorem KeepsLimits.trans {first second third : LnSelf} (hfirst : KeepsLimits first second)
    (hsecond : KeepsLimits second third) : KeepsLimits first third :=
  fun kind => (hfirst kind).trans (hsecond kind)

theorem KeepsLimits.of_closing {before after : LnSelf} (hchange : ClosingChange before after) :
    KeepsLimits before after := by
  obtain ⟨_, _, _, _, _, _, _, rfl⟩ := hchange
  exact .of_commits ⟨rfl, rfl, rfl, rfl⟩ ⟨rfl, rfl, rfl, rfl⟩

theorem recvFunc_limits (channelId : Bytes) (env : RecvEnv) (msg : LnMsg)
    (hupdate : ¬ (ChannelEvent.recv channelId msg env).isUpdate = true) :
    KeepsLimits self (recvFunc crypto self channelId env msg).self := by
  have hrefl : KeepsLimits self self := .of_same rfl rfl
  cases msg with
  | commitmentSigned sig htlcSigs =>
      obtain ⟨slots, txid, htlcNum, hself, -⟩ := createToLocal_changes crypto
        { self with commitLocal := { self.commitLocal with signature := sig } } htlcSigs
        (self.commitLocal.commitNum + 1) self.commitRemote.toSelfDelay
        self.commitLocal.dustLimitSat
      simp only [recvFunc, recvCommitmentSigned]
      split_ifs
      · exact hrefl
      · rw [Outcome.reject, hself]
        exact .of_commits ⟨rfl, rfl, rfl, rfl⟩ (.refl _)
      · rw [hself]
        exact .of_commits ⟨rfl, rfl, rfl, rfl⟩ (.refl _)
  | shutdown scriptpk => exact .of_closing (recvShutdown_closing crypto self channelId scriptpk).1
  | closingSigned feeSat signature =>
      exact .of_closing (recvClosingSigned_closing crypto self channelId feeSat signature
        env.broadcast).1
  | revokeAndAck secret point =>
      simp only [recvFunc, recvRevokeAndAck, storePeerPercommitSecret]
      split_ifs
      · exact hrefl
      · exact hrefl
      · cases lnDerkeyStorageInsertSecret crypto self.peerStorage secret self.peerStorageIndex with
        | none => exact hrefl
        | some storage => exact .of_commits (.refl _) ⟨rfl, rfl, rfl, rfl⟩
  | updateFee feeratePerKw =>
      simp only [recvFunc, recvUpdateFee]
      split <;> exact .of_same rfl rfl
  | fundingLocked perCommitpt =>
      simp only [recvFunc, recvFundingLocked]
      split <;> exact .of_same rfl rfl
  | channelReestablish reest =>
      simp only [recvFunc, recvChannelReestablish]
      repeat' split
      all_goals exact .of_commits ⟨rfl, rfl, rfl, rfl⟩ ⟨rfl, rfl, rfl, rfl⟩
  | _ => simp [ChannelEvent.isUpdate, LnMsg.removal] at hupdate

theorem idleSendComsig_limits (self : LnSelf) (trace : List Effect) :
    KeepsLimits self (idleSendComsig crypto self trace).self := by
  rw [idleSendComsig]
  split
  · exact .of_same rfl rfl
  · rename_i hcreated
    obtain ⟨_, _, _, _, rfl, -⟩ := createCommitmentSigned_spec hcreated
    exact .of_commits (.refl _) ⟨rfl, rfl, rfl, rfl⟩

theorem lnRecvIdleProc_limits (self : LnSelf) :
    KeepsLimits self (lnRecvIdleProc crypto self).self := by
  have hupdated : KeepsLimits self (self.mapSlots idleUpdateSlot) := .of_same rfl rfl
  simp only [lnRecvIdleProc, recvIdleProcNonfinal]
  split
  · exact .of_same rfl rfl
  · split
    · exact .of_same rfl rfl
    · split
      · exact .of_same rfl rfl
      · split
        · exact hupdated.trans (idleSendComsig_limits _ _)
        · exact hupdated

theorem lnChannelReestablishAfter_limits (self : LnSelf) :
    KeepsLimits self (lnChannelReestablishAfter crypto self).self := by
  have hresent : KeepsLimits self (reestResendUpdate self).self := by
    rw [reestResendUpdate]
    split
    · exact .of_same rfl rfl
    · exact .of_commits (.refl _) ⟨rfl, rfl, rfl, rfl⟩
  simp only [lnChannelReestablishAfter]
  by_cases hresend : self.commitRemote.commitNum = self.reestCommitNum
  · rw [if_pos hresend]
    split <;> exact hresent
  · rw [if_neg hresend]
    split <;> exact .of_same rfl rfl

/-- No event changes a limit. -/
theorem handle_limits (crypto : Crypto) (self : LnSelf) (ev : ChannelEvent) :
    KeepsLimits self (handle crypto self ev).self := by
  by_cases hupdate : ev.isUpdate = true
  · obtain ⟨_, _, hself⟩ := @handle_onlySlots crypto self ev hupdate
    rw [hself]
    exact .of_same rfl rfl
  · cases ev with
    | recv channelId msg env =>
        rw [handle, lnRecv]
        split
        · exact recvFunc_limits channelId env msg hupdate
        · exact .of_same rfl rfl
    | idle => exact lnRecvIdleProc_limits self
    | shutdown fee => exact .of_same rfl rfl
    | reestablished => exact lnChannelReestablishAfter_limits self
    | _ => simp [ChannelEvent.isUpdate] at hupdate

/-! ### One event -/

theorem pendingCount_eq_sum (kind : LnAddhtlc) (slots : Slots) :
    pendingCount kind slots = ∑ idx, slotWeight (fun _ => 1) kind (slots idx) := by
  have hlist (list : List HtlcIdx) :
      list.countP (fun idx => (slots idx).flag.addhtlc = kind) =
        (list.map fun idx => slotWeight (fun _ => 1) kind (slots idx)).sum := by
    induction list with
    | nil => rfl
    | cons idx rest ih =>
        rw [List.countP_cons, ih, List.map_cons, List.sum_cons, Nat.add_comm, slotWeight]
        simp only [decide_eq_true_eq]
  rw [pendingCount, hlist, Fin.sum_univ_def]

theorem pendingMsat_of_none_pending {slots : Slots} (hnone : pendingCount kind slots = 0) :
    pendingMsat kind slots = 0 := by
  rw [pendingCount_eq_sum, Finset.sum_eq_zero_iff] at hnone
  rw [pendingMsat_eq_sum]
  refine Finset.sum_eq_zero fun idx hidx => ?_
  have hweight := hnone idx hidx
  rw [slotWeight] at hweight
  split at hweight
  · cases hweight
  · rename_i hother
    exact if_neg hother

/-- What the event leaves pending of the kind: no more than before, or one HTLC more, of
the amount that comes into play. -/
theorem pending_handle (hkind : kind ≠ .none) (crypto : Crypto) (self : LnSelf)
    (ev : ChannelEvent) :
    (pendingCount kind (handle crypto self ev).self.cnlAddHtlc ≤ pendingCount kind self.cnlAddHtlc ∧
        pendingMsat kind (handle crypto self ev).self.cnlAddHtlc ≤
          pendingMsat kind self.cnlAddHtlc) ∨
      ∃ idx amountMsat, entering crypto self ev = some (kind, idx, amountMsat) ∧
        pendingCount kind (handle crypto self ev).self.cnlAddHtlc ≤
          pendingCount kind self.cnlAddHtlc + 1 ∧
        pendingMsat kind (handle crypto self ev).self.cnlAddHtlc ≤
          pendingMsat kind self.cnlAddHtlc + amountMsat.toNat := by
  have hcount := weight_handle (fun _ => 1) hkind crypto self ev
  have hmsat := weight_handle UInt64.toNat hkind crypto self ev
  simp only [pendingCount_eq_sum, pendingMsat_eq_sum]
  rcases hcount with hcount | ⟨idx, amountMsat, hentering, hcount⟩
  · rcases hmsat with hmsat | ⟨idx, amountMsat, hentering, hmsat⟩
    · exact .inl ⟨hcount, hmsat⟩
    · exact .inr ⟨idx, amountMsat, hentering, hcount.trans (Nat.le_add_right _ _), hmsat⟩
  · rcases hmsat with hmsat | ⟨idx', amountMsat', hentering', hmsat⟩
    · exact .inr ⟨idx, amountMsat, hentering, hcount, hmsat.trans (Nat.le_add_right _ _)⟩
    · exact .inr ⟨idx', amountMsat', hentering', hcount, hmsat⟩

/-- The limits after an event whose HTLC finds room; what the offerer keeps is measured
against its balance before. -/
structure WithinBefore (before after : LnSelf) (kind : LnAddhtlc) : Prop where
  count : pendingCount kind after.cnlAddHtlc ≤ (limitsOf after kind).maxAcceptedHtlcs.toNat
  inFlight : pendingMsat kind after.cnlAddHtlc ≤
    (limitsOf after kind).maxHtlcValueInFlightMsat.toNat
  amounts : ∀ idx, (after.cnlAddHtlc idx).flag.addhtlc = kind →
    AmountAllowed after kind (after.cnlAddHtlc idx).amountMsat
  reserve : pendingCount kind after.cnlAddHtlc ≠ 0 →
    pendingMsat kind after.cnlAddHtlc + reserveMsat after kind ≤ (balanceMsat before kind).toNat

theorem WithinLimits.handle (hkind : kind ≠ .none) (hwithin : WithinLimits self kind)
    {ev : ChannelEvent} (hroom : ∀ idx amountMsat,
      entering crypto self ev = some (kind, idx, amountMsat) → Room self kind amountMsat) :
    WithinBefore self (handle crypto self ev).self kind := by
  have hlimits := handle_limits crypto self ev kind
  have hpending := pending_handle hkind crypto self ev
  have hreserve : reserveMsat (Ptarmigan.handle crypto self ev).self kind =
      reserveMsat self kind := by
    rw [reserveMsat, hlimits.channelReserveSat, reserveMsat]
  constructor
  · rw [hlimits.maxAcceptedHtlcs]
    rcases hpending with ⟨hcount, -⟩ | ⟨idx, amountMsat, hentering, hcount, -⟩
    · exact hcount.trans hwithin.count
    · exact hcount.trans (hroom idx amountMsat hentering).count
  · rw [hlimits.maxHtlcValueInFlightMsat]
    rcases hpending with ⟨-, hmsat⟩ | ⟨idx, amountMsat, hentering, -, hmsat⟩
    · exact hmsat.trans hwithin.inFlight
    · exact hmsat.trans (hroom idx amountMsat hentering).inFlight
  · intro idx hadd
    rw [AmountAllowed, hlimits.htlcMinimumMsat]
    rcases slotChange_holds hkind (handle_slotChange crypto self ev idx) hadd with
      ⟨hheld, hamount⟩ | hentering
    · rw [hamount]
      exact hwithin.amounts idx hheld
    · exact (hroom idx _ hentering).allowed
  · intro hsome
    rw [hreserve]
    rcases hpending with ⟨hcount, hmsat⟩ | ⟨idx, amountMsat, hentering, -, hmsat⟩
    · have hheld := hwithin.reserve (by omega)
      omega
    · have hheld := (hroom idx amountMsat hentering).reserve
      omega

/-- What the offerer must keep now. -/
def pendingReserve (channel : LnSelf) (kind : LnAddhtlc) : Nat :=
  if pendingCount kind channel.cnlAddHtlc = 0 then 0 else reserveMsat channel kind

theorem WithinLimits.keeps (hwithin : WithinLimits self kind) :
    pendingMsat kind self.cnlAddHtlc + pendingReserve self kind ≤
      (balanceMsat self kind).toNat := by
  rw [pendingReserve]
  split
  · rename_i hnone
    rw [pendingMsat_of_none_pending hnone]
    exact Nat.zero_le _
  · rename_i hsome
    exact hwithin.reserve hsome

/-- Both sides are within their limits, and the balances of a channel add up without
wrapping. -/
structure Limited (channel : LnSelf) : Prop where
  kept : LimitsKept channel
  total : channel.ourMsat.toNat + channel.theirMsat.toNat < 2 ^ 64

/-- Settling leaves each side what it must keep. -/
theorem Limited.idleFinal (hlimited : Limited self)
    (hcount : ∀ kind, kind ≠ .none →
      pendingCount kind (recvIdleProcFinal self).self.cnlAddHtlc ≤
        pendingCount kind self.cnlAddHtlc) :
    (∀ kind, kind ≠ .none → pendingCount kind (recvIdleProcFinal self).self.cnlAddHtlc ≠ 0 →
      pendingMsat kind (recvIdleProcFinal self).self.cnlAddHtlc + reserveMsat self kind ≤
        (balanceMsat (recvIdleProcFinal self).self kind).toNat) ∧
      (recvIdleProcFinal self).self.ourMsat.toNat + (recvIdleProcFinal self).self.theirMsat.toNat <
        2 ^ 64 := by
  obtain ⟨htotal, hoffered, hreceived⟩ := idleFinal_foldl self.cnlAddHtlc
    (List.finRange lnHtlcMax) (self.ourMsat, self.theirMsat) (pendingReserve self .offer)
    (pendingReserve self .recv) hlimited.kept.offered.keeps hlimited.kept.received.keeps
    hlimited.total
  have hkeeps (kind : LnAddhtlc) (hkind : kind ≠ .none) :
      pendingMsat kind (recvIdleProcFinal self).self.cnlAddHtlc + pendingReserve self kind ≤
        (balanceMsat (recvIdleProcFinal self).self kind).toNat := by
    cases kind with
    | none => exact absurd rfl hkind
    | offer => exact hoffered
    | recv => exact hreceived
  refine ⟨fun kind hkind hsome => ?_, htotal ▸ hlimited.total⟩
  have hbefore : pendingCount kind self.cnlAddHtlc ≠ 0 := by
    have hle := hcount kind hkind
    omega
  have hheld := hkeeps kind hkind
  rw [pendingReserve, if_neg hbefore] at hheld
  exact hheld

theorem Limited.handle (hlimited : Limited self) {ev : ChannelEvent}
    (hgap : noGap crypto self ev = true) : Limited (handle crypto self ev).self := by
  by_cases hheard : Heard self ev
  swap
  · rw [handle_unheard hheard]
    exact hlimited
  have hoffered : WithinBefore self (Ptarmigan.handle crypto self ev).self .offer :=
    hlimited.kept.offered.handle (by simp) fun _ _ => room_of_noGap hgap hheard
  have hreceived : WithinBefore self (Ptarmigan.handle crypto self ev).self .recv :=
    hlimited.kept.received.handle (by simp) fun _ _ => room_of_noGap hgap hheard
  rcases handle_money crypto self ev with ⟨-, hour, htheir⟩ | ⟨rfl, hfinal⟩
  · have hours : balanceMsat (Ptarmigan.handle crypto self ev).self .offer =
        balanceMsat self .offer := hour
    have htheirs : balanceMsat (Ptarmigan.handle crypto self ev).self .recv =
        balanceMsat self .recv := htheir
    refine ⟨⟨⟨hoffered.count, hoffered.inFlight, hoffered.amounts, ?_⟩,
      ⟨hreceived.count, hreceived.inFlight, hreceived.amounts, ?_⟩⟩, ?_⟩
    · rw [hours]
      exact hoffered.reserve
    · rw [htheirs]
      exact hreceived.reserve
    · rw [hour, htheir]
      exact hlimited.total
  · have hlimits := handle_limits crypto self .idle
    have hcount (kind : LnAddhtlc) (hkind : kind ≠ .none) :
        pendingCount kind (recvIdleProcFinal self).self.cnlAddHtlc ≤
          pendingCount kind self.cnlAddHtlc := by
      rcases pending_handle hkind crypto self .idle with ⟨hle, -⟩ | ⟨_, _, hentering, -⟩
      · rwa [hfinal] at hle
      · cases hentering
    obtain ⟨hkeeps, htotal⟩ := hlimited.idleFinal hcount
    rw [hfinal] at hoffered hreceived hlimits ⊢
    have hreserve (kind : LnAddhtlc) : reserveMsat (recvIdleProcFinal self).self kind =
        reserveMsat self kind := by
      rw [reserveMsat, (hlimits kind).channelReserveSat, reserveMsat]
    refine ⟨⟨⟨hoffered.count, hoffered.inFlight, hoffered.amounts, ?_⟩,
      ⟨hreceived.count, hreceived.inFlight, hreceived.amounts, ?_⟩⟩, htotal⟩
    · rw [hreserve]
      exact hkeeps .offer (by simp)
    · rw [hreserve]
      exact hkeeps .recv (by simp)

/-! ### An HTLC that comes into play -/

/-- The HTLC comes into play in the slot, and nothing else changes in the slots. -/
structure Entered (before after : LnSelf) (kind : LnAddhtlc) (idx : HtlcIdx)
    (post : LnUpdateAddHtlc) : Prop where
  slots : after.cnlAddHtlc = Function.update before.cnlAddHtlc idx post
  new : (before.cnlAddHtlc idx).flag.addhtlc ≠ kind
  added : post.flag.addhtlc = kind

theorem Entered.weight {after : LnSelf} {idx : HtlcIdx} {post : LnUpdateAddHtlc}
    (hentered : Entered self after kind idx post) (weigh : UInt64 → Nat) :
    ∑ at', slotWeight weigh kind (after.cnlAddHtlc at') =
      ∑ at', slotWeight weigh kind (self.cnlAddHtlc at') + weigh post.amountMsat := by
  have hslot (at' : HtlcIdx) : slotWeight weigh kind (after.cnlAddHtlc at') =
      slotWeight weigh kind (self.cnlAddHtlc at') +
        if at' = idx then weigh post.amountMsat else 0 := by
    rw [hentered.slots]
    by_cases hidx : at' = idx
    · rw [hidx, Function.update_self, slotWeight, slotWeight, if_pos hentered.added,
        if_neg hentered.new, if_pos rfl, Nat.zero_add]
    · rw [Function.update_of_ne hidx, if_neg hidx, Nat.add_zero]
  rw [Finset.sum_congr rfl fun at' _ => hslot at', Finset.sum_add_distrib,
    Finset.sum_ite_eq' Finset.univ idx, if_pos (Finset.mem_univ idx)]

/-- If the limits hold with the HTLC, there was room for it. -/
theorem Entered.room {after : LnSelf} {idx : HtlcIdx} {post : LnUpdateAddHtlc}
    (hentered : Entered self after kind idx post) (hlimits : KeepsLimits self after)
    (hbalance : balanceMsat after kind = balanceMsat self kind)
    (hwithin : WithinLimits after kind) : Room self kind post.amountMsat := by
  have hcount : pendingCount kind after.cnlAddHtlc = pendingCount kind self.cnlAddHtlc + 1 := by
    rw [pendingCount_eq_sum, pendingCount_eq_sum, hentered.weight]
  have hmsat : pendingMsat kind after.cnlAddHtlc =
      pendingMsat kind self.cnlAddHtlc + post.amountMsat.toNat := by
    rw [pendingMsat_eq_sum, pendingMsat_eq_sum]
    exact hentered.weight UInt64.toNat
  have hslot : after.cnlAddHtlc idx = post := by
    rw [hentered.slots, Function.update_self]
  have hallowed := hwithin.amounts idx (hslot ▸ hentered.added)
  have hreserve := hwithin.reserve (by omega)
  have hmax := hwithin.count
  have hsum := hwithin.inFlight
  rw [hslot, AmountAllowed, (hlimits kind).htlcMinimumMsat] at hallowed
  rw [hmsat, hbalance, reserveMsat, (hlimits kind).channelReserveSat] at hreserve
  rw [hcount, (hlimits kind).maxAcceptedHtlcs] at hmax
  rw [hmsat, (hlimits kind).maxHtlcValueInFlightMsat] at hsum
  exact ⟨hallowed, hmax, hsum, hreserve⟩

theorem Room.noOfferGap {amountMsat : UInt64} (hroom : Room self .offer amountMsat) :
    NoOfferGap self amountMsat :=
  ⟨fun _ => hroom.count, fun _ => hroom.inFlight, fun _ => hroom.reserve⟩

theorem Room.noRecvGap {amountMsat : UInt64} (hroom : Room self .recv amountMsat) :
    NoRecvGap self amountMsat :=
  ⟨fun _ => hroom.allowed.1, fun _ => hroom.count, fun _ => hroom.inFlight,
    fun _ => hroom.reserve⟩

theorem lnAddHtlcSet_entered {req : AddHtlcRequest} {idx : HtlcIdx}
    (hset : (lnAddHtlcSet crypto self req).1 = some idx) :
    Entered self (lnAddHtlcSet crypto self req).2 .offer idx
      ((requestedSlot self idx req).setFlag fun flag => { flag with addhtlc := .offer }) := by
  obtain ⟨hcheck, htaken⟩ := lnAddHtlcSet_some hset
  have hnone := addhtlc_of_empty (empty_of_firstEmpty (firstEmpty_of_checkCreateAddHtlc hcheck))
  constructor
  · rw [htaken]
    simp only [lnAddHtlcStartFwd, LnSelf.setSlot, Function.update_self, Function.update_idem]
  · rw [hnone]
    exact LnAddhtlc.noConfusion
  · rfl

theorem recvUpdateAddHtlc_entered {channelId : Bytes} {env : RecvEnv} {id : Nat}
    {amountMsat : UInt64} {paymentSha256 : Bytes} {cltvExpiry : UInt32} {packet : Bytes}
    {idx : HtlcIdx} (haccepted : acceptedSlot self channelId id amountMsat paymentSha256 cltvExpiry
      packet = some idx) :
    ∃ post, Entered self (recvUpdateAddHtlc crypto self channelId id amountMsat paymentSha256
      cltvExpiry packet env.onion env.answer).self .recv idx post ∧
      post.amountMsat = amountMsat := by
  obtain ⟨hfirst, hcheck⟩ := Option.filter_eq_some_iff.mp haccepted
  rw [Bool.and_eq_true, beq_iff_eq] at hcheck
  obtain ⟨hchannel, hbolt2⟩ := hcheck
  have hnone := addhtlc_of_empty (empty_of_firstEmpty hfirst)
  obtain ⟨post, hpost, ⟨-, hamount, -, -, hadd⟩, -⟩ := addHtlcBolt4_slot crypto
    (self.setSlot idx ((self.cnlAddHtlc idx).read id amountMsat paymentSha256 cltvExpiry packet))
    idx
    { (self.cnlAddHtlc idx).read id amountMsat paymentSha256 cltvExpiry packet with
      flag := { (self.cnlAddHtlc idx).flag with addhtlc := .recv }
      bufOnionReason := env.onion.nextOnion
      bufSharedSecret := env.onion.sharedSecret } env
  refine ⟨post, ⟨?_, ?_, hadd⟩, hamount⟩
  · simp only [LnUpdateAddHtlc.read] at hbolt2 hpost
    simp only [recvUpdateAddHtlc, hfirst, hchannel, hbolt2, hpost]
    simp [LnSelf.setSlot]
  · rw [hnone]
    exact LnAddhtlc.noConfusion

/-- If the limits hold after an event, it has found no gap. -/
theorem noGap_of_kept {ev : ChannelEvent} (hkept : LimitsKept (handle crypto self ev).self) :
    noGap crypto self ev = true := by
  have hlimits := handle_limits crypto self ev
  have hmoney (hupdate : ev.isUpdate = true) : SameMoney self (handle crypto self ev).self :=
    .of_onlySlots (handle_onlySlots hupdate)
  cases ev with
  | addHtlc req =>
      cases hset : (lnAddHtlcSet crypto self req).1 with
      | none => rw [noGap, hset, Option.all_none]
      | some idx =>
          have hentered := lnAddHtlcSet_entered hset
          rw [noGap, hset, Option.all_some, decide_eq_true_eq]
          exact (hentered.room hlimits (hmoney rfl).2.1 hkept.offered).noOfferGap
  | startFwd idx =>
      by_cases hoffer : (self.cnlAddHtlc idx).flag.addhtlc = .offer
      · simp [noGap, hoffer]
      · have hentered : Entered self (lnAddHtlcStartFwd self idx) .offer idx
            ((self.cnlAddHtlc idx).setFlag fun flag => { flag with addhtlc := .offer }) :=
          ⟨rfl, hoffer, rfl⟩
        have hroom : Room self .offer (self.cnlAddHtlc idx).amountMsat :=
          hentered.room hlimits rfl hkept.offered
        simpa [noGap, hoffer] using hroom
  | recv channelId msg env =>
      cases msg with
      | updateAddHtlc id amountMsat paymentSha256 cltvExpiry packet =>
          rw [noGap, Bool.or_eq_true, Bool.not_eq_true', Option.all_eq_true]
          by_cases hinit : self.initFlag.exchanged = true
          · refine .inr fun idx haccepted => ?_
            obtain ⟨post, hentered, rfl⟩ :=
              @recvUpdateAddHtlc_entered crypto self channelId env _ _ _ _ _ _ haccepted
            have hself : (handle crypto self (.recv channelId (.updateAddHtlc id post.amountMsat
                paymentSha256 cltvExpiry packet) env)).self =
                (recvUpdateAddHtlc crypto self channelId
                  id post.amountMsat paymentSha256 cltvExpiry
                  packet env.onion env.answer).self := by
              rw [handle, lnRecv, if_pos hinit, recvFunc]
            rw [← hself] at hentered
            exact decide_eq_true
              (hentered.room hlimits (hmoney rfl).2.2 hkept.received).noRecvGap
          · exact .inl (Bool.eq_false_iff.mpr hinit)
      | _ => rfl
  | _ => rfl

/-! ### Whole runs -/

theorem WithinLimits.congr {channel : LnSelf} (hwithin : WithinLimits self kind)
    (hlimits : SameLimits (limitsOf self kind) (limitsOf channel kind))
    (hslots : ∀ idx, (channel.cnlAddHtlc idx).flag.addhtlc = (self.cnlAddHtlc idx).flag.addhtlc ∧
      (channel.cnlAddHtlc idx).amountMsat = (self.cnlAddHtlc idx).amountMsat)
    (hbalance : balanceMsat channel kind = balanceMsat self kind) : WithinLimits channel kind := by
  have hcount : pendingCount kind channel.cnlAddHtlc = pendingCount kind self.cnlAddHtlc := by
    rw [pendingCount, pendingCount]
    simp only [hslots]
  have hmsat : pendingMsat kind channel.cnlAddHtlc = pendingMsat kind self.cnlAddHtlc :=
    pendingMsat_congr fun idx => by rw [slotMsat, slotMsat, (hslots idx).1, (hslots idx).2]
  constructor
  · rw [hcount, hlimits.maxAcceptedHtlcs]
    exact hwithin.count
  · rw [hmsat, hlimits.maxHtlcValueInFlightMsat]
    exact hwithin.inFlight
  · intro idx hadd
    rw [AmountAllowed, hlimits.htlcMinimumMsat, (hslots idx).2]
    exact hwithin.amounts idx ((hslots idx).1.symm.trans hadd)
  · rw [hcount, hmsat, reserveMsat, hlimits.channelReserveSat, hbalance]
    exact hwithin.reserve

theorem Limited.congr {channel : LnSelf} (hlimited : Limited self)
    (hlimits : KeepsLimits self channel)
    (hslots : ∀ idx, (channel.cnlAddHtlc idx).flag.addhtlc = (self.cnlAddHtlc idx).flag.addhtlc ∧
      (channel.cnlAddHtlc idx).amountMsat = (self.cnlAddHtlc idx).amountMsat)
    (hour : channel.ourMsat = self.ourMsat) (htheir : channel.theirMsat = self.theirMsat) :
    Limited channel := by
  refine ⟨⟨hlimited.kept.offered.congr (hlimits _) hslots hour,
    hlimited.kept.received.congr (hlimits _) hslots htheir⟩, ?_⟩
  rw [hour, htheir]
  exact hlimited.total

theorem noGap_of_adds_nothing {ev : ChannelEvent} (hadds : ev.addsHtlc = false) :
    noGap crypto self ev = true := by
  cases ev with
  | addHtlc req => cases hadds
  | startFwd idx => cases hadds
  | recv channelId msg env =>
      cases msg with
      | updateAddHtlc id amountMsat paymentSha256 cltvExpiry packet => cases hadds
      | _ => rfl
  | _ => rfl

def LimitedState (state : ChannelState) : Prop :=
  Limited state.self ∧ Limited state.db.chan

theorem limitedState_step {before after : ChannelState} {label : ChannelLabel}
    (hlimited : LimitedState before) (hgap : stepNoGap crypto before label = true)
    (hnext : (channelSystem crypto).next before label = some after) : LimitedState after := by
  obtain ⟨hself, hdb⟩ := hlimited
  apply channelNext_holds _ _ _ hnext hself hdb
  · intro ev hev
    rw [hev] at hgap
    exact hself.handle hgap
  · intro ev done _ hsaves
    exact hself.handle (noGap_of_adds_nothing (addsHtlc_of_saves hsaves))
  · intro saved final hchange hfinal
    obtain ⟨_, _, _, _, _, _, _, rfl⟩ := hchange
    exact hfinal.congr (.of_commits ⟨rfl, rfl, rfl, rfl⟩ ⟨rfl, rfl, rfl, rfl⟩)
      (fun _ => ⟨rfl, rfl⟩) rfl rfl
  · intro db saved hsaved
    exact hsaved.congr (.of_same rfl rfl) (fun _ => ⟨rfl, rfl⟩) rfl rfl
  · intro db dataloss hdb
    exact hdb.congr (.of_same rfl rfl) (fun _ => ⟨rfl, rfl⟩) rfl rfl

theorem limited_of_fresh {fundingSat ourMsat theirMsat : UInt64} {ready : LnSelf}
    (hfresh : Fresh fundingSat ourMsat theirMsat ready)
    (htotal : ourMsat.toNat + theirMsat.toNat < 2 ^ 64) : Limited ready := by
  have hslot (idx : HtlcIdx) : (ready.cnlAddHtlc idx).flag.addhtlc = .none := by
    obtain ⟨signature, hidx⟩ := hfresh.slots idx
    rw [hidx]
  have hwithin {kind : LnAddhtlc} (hkind : kind ≠ .none) : WithinLimits ready kind := by
    have hnone : pendingCount kind ready.cnlAddHtlc = 0 := by
      rw [pendingCount, List.countP_eq_zero]
      intro idx _
      rw [hslot, decide_eq_true_eq]
      exact hkind.symm
    refine ⟨hnone ▸ Nat.zero_le _, pendingMsat_of_none_pending hnone ▸ Nat.zero_le _, ?_, ?_⟩
    · intro idx hadd
      exact absurd ((hslot idx).symm.trans hadd) hkind.symm
    · exact fun hsome => absurd hnone hsome
  refine ⟨⟨hwithin (by simp), hwithin (by simp)⟩, ?_⟩
  rw [hfresh.ourMsat, hfresh.theirMsat]
  exact htotal

theorem limitedState_start {outcome : Outcome} (hdone : FundingDone crypto outcome)
    (htotal : outcome.self.ourMsat.toNat + outcome.self.theirMsat.toNat < 2 ^ 64) :
    LimitedState (.afterFunding outcome) := by
  obtain ⟨fundingSat, ourMsat, theirMsat, ready, rfl, hfresh⟩ := hdone.fresh
  have hmoney : ourMsat.toNat + theirMsat.toNat < 2 ^ 64 := by
    rw [← hfresh.ourMsat, ← hfresh.theirMsat]
    exact htotal
  have hready := limited_of_fresh hfresh hmoney
  have hself : Limited (startFundingWait crypto ready).self :=
    hready.congr (.of_commits ⟨rfl, rfl, rfl, rfl⟩ ⟨rfl, rfl, rfl, rfl⟩) (fun _ => ⟨rfl, rfl⟩)
      rfl rfl
  exact ⟨hself, hself.congr (.of_same rfl rfl) (fun _ => ⟨rfl, rfl⟩) rfl rfl⟩

/-- The step leads to a state in which the limits are kept. -/
def StepKeepsLimits (crypto : Crypto) (before : ChannelState) (label : ChannelLabel) : Prop :=
  ∀ after, (channelSystem crypto).next before label = some after → LimitsKept after.self

theorem stepNoGap_of_kept {before after : ChannelState} {label : ChannelLabel}
    (hnext : (channelSystem crypto).next before label = some after)
    (hkept : LimitsKept after.self) : stepNoGap crypto before label = true := by
  cases label with
  | event ev =>
      simp only [channelSystem, channelNext] at hnext
      split at hnext
      · obtain rfl := Option.some.inj hnext
        exact noGap_of_kept hkept
      · cases hnext
  | _ => rfl

/-- The limits are kept in every state of a run, of a channel whose balances do not wrap
together, exactly when no HTLC comes into play through a gap of the checks. -/
theorem limitsKept_iff_noGap {outcome : Outcome} (hdone : FundingDone crypto outcome)
    (htotal : outcome.self.ourMsat.toNat + outcome.self.theirMsat.toNat < 2 ^ 64)
    (state : ChannelState) :
    LimitsKept outcome.self ∧
        (channelSystem crypto).RunUnder (StepKeepsLimits crypto) (.afterFunding outcome) state ↔
      (channelSystem crypto).RunUnder (fun before label => stepNoGap crypto before label = true)
        (.afterFunding outcome) state := by
  have hstart : LimitedState (.afterFunding outcome) := limitedState_start hdone htotal
  constructor
  · rintro ⟨-, hrun⟩
    suffices hboth : _ ∧ LimitedState state from hboth.1
    induction hrun with
    | refl => exact ⟨.refl, hstart⟩
    | step _ hkeeps hnext ih =>
        have hgap := stepNoGap_of_kept hnext (hkeeps _ hnext)
        exact ⟨.step ih.1 hgap hnext, limitedState_step ih.2 hgap hnext⟩
  · intro hrun
    refine ⟨hstart.1.kept, ?_⟩
    suffices hboth : _ ∧ LimitedState state from hboth.1
    induction hrun with
    | refl => exact ⟨.refl, hstart⟩
    | step _ hgap hnext ih =>
        have hafter := limitedState_step ih.2 hgap hnext
        refine ⟨.step ih.1 (fun after hnext' => ?_) hnext, hafter⟩
        obtain rfl := Option.some.inj (hnext.symm.trans hnext')
        exact hafter.1.kept

/-- One HTLC of this node and two of the peer, of the given amounts. -/
def threeAddsScript (ours theirs : UInt64) : List (ChannelState → ChannelLabel) :=
  let req : AddHtlcRequest :=
    { packet := [], amountMsat := ours, cltvValue := 100, paymentHash := [9] }
  (fun _ => .event (.addHtlc req)) :: twoAddsScript theirs theirs

/-- Three HTLCs of 150000 sat, of which each side has 500000 sat. -/
theorem limitsKept_threeAdds : ∃ (outcome : Outcome) (state : ChannelState),
    (pendingCount .offer state.self.cnlAddHtlc = 1 ∧
      pendingCount .recv state.self.cnlAddHtlc = 2) ∧
      LimitsKept outcome.self ∧
      (channelSystem .symbolic).RunUnder (StepKeepsLimits .symbolic) (.afterFunding outcome)
        state := by
  have hcheck : symbolicCheck 1000000 500000000 (stepNoGap .symbolic)
      (threeAddsScript 150000000 150000000) (fun state _ =>
        pendingCount .offer state.self.cnlAddHtlc == 1 &&
          pendingCount .recv state.self.cnlAddHtlc == 2) = true := by
    decide +kernel
  obtain ⟨outcome, state, _, hopened, _, hrun, hpending⟩ := permitted_of_symbolicCheck hcheck
  rw [Bool.and_eq_true, beq_iff_eq, beq_iff_eq] at hpending
  have hfunded := (symbolicFundee_openedWithin hopened).funded.1
  exact ⟨outcome, state, hpending, (limitsKept_iff_noGap (symbolicFundee_done hopened)
    (hfunded.total ▸ hfunded.bound) state).mpr hrun⟩

/-- The peer adds HTLCs of 1000 msat, one after the other. -/
def smallAddsScript (count : Nat) : List (ChannelState → ChannelLabel) :=
  (List.range count).map fun id _ =>
    .event (.recv symbolicOutpoint.txid (.updateAddHtlc id 1000 [9] 100 []) {})

/-- Five HTLCs are allowed, and the peer has six pending: none of them is in the last
commitment transaction. -/
theorem not_limitsKept_sixAdds :
    ¬ ∀ (crypto : Crypto) (state : ChannelState), (channelSystem crypto).Reachable state →
      LimitsKept state.self := by
  intro hall
  have hcheck : symbolicCheck 1000000 500000000 permitAll (smallAddsScript 6)
      (fun state _ => state.self.commitLocal.maxAcceptedHtlcs == 5 &&
        pendingCount .recv state.self.cnlAddHtlc == 6) = true := by
    decide +kernel
  obtain ⟨state, past, hhistory, hpending⟩ := run_of_symbolicCheck hcheck
  rw [Bool.and_eq_true, beq_iff_eq, beq_iff_eq] at hpending
  have hcount := (hall _ state hhistory.reachableUnder).received.count
  rw [limitsOf, hpending.1, hpending.2] at hcount
  exact absurd hcount (by decide)

end Ptarmigan
