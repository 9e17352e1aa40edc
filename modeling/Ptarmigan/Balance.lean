/-
The money of a channel: while the pending HTLCs of each side fit into its balance,
the two balances add up to the funding amount, and so do the outputs of both
commitment transactions.  The code checks each new HTLC alone against the balance.
-/
import Mathlib.Algebra.BigOperators.Fin
import Mathlib.Algebra.Order.BigOperators.Group.Finset
import Ptarmigan.SlotChange

namespace Ptarmigan

open TransitionSystem

variable {crypto : Crypto} {self : LnSelf}

/-- The amount of the slot, if it holds an HTLC of the kind. -/
def slotMsat (kind : LnAddhtlc) (htlc : LnUpdateAddHtlc) : Nat :=
  if htlc.flag.addhtlc = kind then htlc.amountMsat.toNat else 0

/-- The amounts of all HTLCs of the kind. -/
def pendingMsat (kind : LnAddhtlc) (slots : Slots) : Nat :=
  ((List.finRange lnHtlcMax).map fun idx => slotMsat kind (slots idx)).sum

/-! ### The commitment transactions -/

namespace HtlcSelect

variable (select : HtlcSelect)

/-- Each predicate reads slots of its own kind, and no slot is both an output and a
settled amount. -/
structure Sound : Prop where
  addOffer : ∀ flag, select.addOffer flag = true → flag.addhtlc = .offer
  fulfillOffer : ∀ flag, select.fulfillOffer flag = true → flag.addhtlc = .offer
  addRecv : ∀ flag, select.addRecv flag = true → flag.addhtlc = .recv
  fulfillRecv : ∀ flag, select.fulfillRecv flag = true → flag.addhtlc = .recv
  offerOnce : ∀ flag, select.addOffer flag = true → select.fulfillOffer flag = false
  recvOnce : ∀ flag, select.addRecv flag = true → select.fulfillRecv flag = false

/-- The subtractions that a slot causes do not wrap. -/
def Within (htlc : LnUpdateAddHtlc) (acc : HtlcinfoAmount) : Prop :=
  (select.addOffer htlc.flag || select.fulfillOffer htlc.flag → htlc.amountMsat ≤ acc.selfMsat) ∧
    (select.addRecv htlc.flag || select.fulfillRecv htlc.flag →
      htlc.amountMsat ≤ (select.takeOffer htlc acc).peerMsat)

/-- None of the subtractions of the loop wraps. -/
def WithinFrom (slots : Slots) : HtlcinfoAmount → List HtlcIdx → Prop
  | _, [] => True
  | acc, idx :: rest =>
      ((slots idx).enable → select.Within (slots idx) acc) ∧
        WithinFrom slots (select.addSlot slots acc idx) rest

end HtlcSelect

theorem localSelect_sound : localSelect.Sound := by
  constructor <;>
    intro flag <;>
    simp only [localSelect, LnHtlcflag.enableLocalAddhtlcOffer, LnHtlcflag.enableLocalFulfillOffer,
      LnHtlcflag.enableLocalAddhtlcRecv, LnHtlcflag.enableLocalFulfillRecv] <;>
    grind

theorem remoteSelect_sound : remoteSelect.Sound := by
  constructor <;>
    intro flag <;>
    simp only [remoteSelect, LnHtlcflag.enableRemoteAddhtlcOffer,
      LnHtlcflag.enableRemoteFulfillOffer, LnHtlcflag.enableRemoteAddhtlcRecv,
      LnHtlcflag.enableRemoteFulfillRecv, LnHtlcflag.enableRemoteDelhtlcRecv] <;>
    grind

/-- The balances of an accumulator with the amounts of its outputs. -/
def HtlcinfoAmount.totalMsat (acc : HtlcinfoAmount) : Nat :=
  acc.selfMsat.toNat + acc.peerMsat.toNat +
    (acc.htlcinfo.map fun info => info.amountMsat.toNat).sum

theorem toNat_sub_msat (total part : UInt64) (hle : part.toNat ≤ total.toNat) :
    (total - part).toNat = total.toNat - part.toNat :=
  UInt64.toNat_sub_of_le total part (UInt64.le_iff_toNat_le.mpr hle)

theorem toNat_add_msat (first second : UInt64) (hlt : first.toNat + second.toNat < 2 ^ 64) :
    (first + second).toNat = first.toNat + second.toNat := by
  rw [UInt64.toNat_add, Nat.mod_eq_of_lt hlt]

namespace HtlcSelect

variable {select : HtlcSelect} {slots : Slots} {acc : HtlcinfoAmount} {idx : HtlcIdx}

/-- What is known of an accumulator before the slots of the list: what is pending in
them fits into the balances. -/
structure Fits (slots : Slots) (rest : List HtlcIdx) (acc : HtlcinfoAmount) : Prop where
  offered : (rest.map fun idx => slotMsat .offer (slots idx)).sum ≤ acc.selfMsat.toNat
  received : (rest.map fun idx => slotMsat .recv (slots idx)).sum ≤ acc.peerMsat.toNat
  bound : acc.totalMsat < 2 ^ 64

theorem Sound.of_not_offer (hsound : select.Sound) {flag : LnHtlcflag}
    (hadd : flag.addhtlc ≠ .offer) :
    select.addOffer flag = false ∧ select.fulfillOffer flag = false :=
  ⟨Bool.eq_false_iff.mpr fun h => hadd (hsound.addOffer flag h),
    Bool.eq_false_iff.mpr fun h => hadd (hsound.fulfillOffer flag h)⟩

theorem Sound.of_not_recv (hsound : select.Sound) {flag : LnHtlcflag}
    (hadd : flag.addhtlc ≠ .recv) :
    select.addRecv flag = false ∧ select.fulfillRecv flag = false :=
  ⟨Bool.eq_false_iff.mpr fun h => hadd (hsound.addRecv flag h),
    Bool.eq_false_iff.mpr fun h => hadd (hsound.fulfillRecv flag h)⟩

/-- One slot: no money appears, none is lost, and the rest still fits. -/
theorem addSlot_conserves (hsound : select.Sound) {rest : List HtlcIdx}
    (hfits : Fits slots (idx :: rest) acc) :
    (select.addSlot slots acc idx).totalMsat = acc.totalMsat ∧
      Fits slots rest (select.addSlot slots acc idx) ∧
      ((slots idx).enable → select.Within (slots idx) acc) := by
  obtain ⟨hoffered, hreceived, hbound⟩ := hfits
  simp only [List.map_cons, List.sum_cons] at hoffered hreceived
  suffices hall : (select.addSlot slots acc idx).totalMsat = acc.totalMsat ∧
      (rest.map fun idx => slotMsat .offer (slots idx)).sum ≤
        (select.addSlot slots acc idx).selfMsat.toNat ∧
      (rest.map fun idx => slotMsat .recv (slots idx)).sum ≤
        (select.addSlot slots acc idx).peerMsat.toNat ∧
      ((slots idx).enable → select.Within (slots idx) acc) from
    ⟨hall.1, ⟨hall.2.1, hall.2.2.1, hall.1 ▸ hbound⟩, hall.2.2.2⟩
  generalize (rest.map fun idx => slotMsat .offer (slots idx)).sum = offered at *
  generalize (rest.map fun idx => slotMsat .recv (slots idx)).sum = received at *
  simp only [HtlcinfoAmount.totalMsat] at hbound ⊢
  cases hadd : (slots idx).flag.addhtlc with
  | none =>
      obtain ⟨haddOffer, hfulOffer⟩ := hsound.of_not_offer
        (by simp [hadd] : (slots idx).flag.addhtlc ≠ _)
      obtain ⟨haddRecv, hfulRecv⟩ := hsound.of_not_recv
        (by simp [hadd] : (slots idx).flag.addhtlc ≠ _)
      simp [addSlot, takeOffer, takeRecv, Within, haddOffer, hfulOffer, haddRecv, hfulRecv]
      omega
  | offer =>
      obtain ⟨haddRecv, hfulRecv⟩ := hsound.of_not_recv
        (by simp [hadd] : (slots idx).flag.addhtlc ≠ _)
      simp only [slotMsat, hadd, if_true] at hoffered
      have hle : (slots idx).amountMsat.toNat ≤ acc.selfMsat.toNat := by omega
      have hsub := toNat_sub_msat _ _ hle
      have hplus := toNat_add_msat acc.peerMsat (slots idx).amountMsat (by omega)
      have henable : (slots idx).enable = true := by
        simp [LnUpdateAddHtlc.enable, LnUpdateAddHtlc.empty, hadd]
      cases haddOffer : select.addOffer (slots idx).flag with
      | true =>
          have hfulOffer := hsound.offerOnce _ haddOffer
          simp [addSlot, henable, takeOffer, takeRecv, Within, haddOffer, hfulOffer, haddRecv,
            hfulRecv, hsub, UInt64.le_iff_toNat_le]
          omega
      | false =>
          cases hfulOffer : select.fulfillOffer (slots idx).flag with
          | true =>
              simp [addSlot, henable, takeOffer, takeRecv, Within, haddOffer, hfulOffer, haddRecv,
                hfulRecv, hsub, UInt64.le_iff_toNat_le]
              omega
          | false =>
              simp [addSlot, henable, takeOffer, takeRecv, Within, haddOffer, hfulOffer, haddRecv,
                hfulRecv]
              omega
  | recv =>
      obtain ⟨haddOffer, hfulOffer⟩ := hsound.of_not_offer
        (by simp [hadd] : (slots idx).flag.addhtlc ≠ _)
      simp only [slotMsat, hadd, if_true] at hreceived
      have hle : (slots idx).amountMsat.toNat ≤ acc.peerMsat.toNat := by omega
      have hsub := toNat_sub_msat _ _ hle
      have hplus := toNat_add_msat acc.selfMsat (slots idx).amountMsat (by omega)
      have henable : (slots idx).enable = true := by
        simp [LnUpdateAddHtlc.enable, LnUpdateAddHtlc.empty, hadd]
      cases haddRecv : select.addRecv (slots idx).flag with
      | true =>
          have hfulRecv := hsound.recvOnce _ haddRecv
          simp [addSlot, henable, takeOffer, takeRecv, Within, haddOffer, hfulOffer, haddRecv,
            hfulRecv, hsub, UInt64.le_iff_toNat_le]
          omega
      | false =>
          cases hfulRecv : select.fulfillRecv (slots idx).flag with
          | true =>
              simp [addSlot, henable, takeOffer, takeRecv, Within, haddOffer, hfulOffer, haddRecv,
                hfulRecv, hsub, UInt64.le_iff_toNat_le]
              omega
          | false =>
              simp [addSlot, henable, takeOffer, takeRecv, Within, haddOffer, hfulOffer, haddRecv,
                hfulRecv]
              omega

/-- The whole loop, by the slots that are left. -/
theorem foldl_conserves (hsound : select.Sound) {rest : List HtlcIdx} :
    ∀ {acc : HtlcinfoAmount}, Fits slots rest acc →
      (rest.foldl (select.addSlot slots) acc).totalMsat = acc.totalMsat ∧
        select.WithinFrom slots acc rest := by
  induction rest with
  | nil =>
      intro acc _
      exact ⟨rfl, trivial⟩
  | cons idx rest ih =>
      intro acc hfits
      obtain ⟨htotal, hafter, hwithin⟩ := addSlot_conserves hsound hfits
      obtain ⟨hrest, hwithins⟩ := ih hafter
      exact ⟨hrest.trans htotal, hwithin, hwithins⟩

end HtlcSelect

/-! ### The invariant -/

/-- The balances share out the funding amount, and what each side has pending fits into
its balance. -/
structure Funded (channel : LnSelf) : Prop where
  total : channel.ourMsat.toNat + channel.theirMsat.toNat = 1000 * channel.fundingSat.toNat
  bound : 1000 * channel.fundingSat.toNat < 2 ^ 64
  offered : pendingMsat .offer channel.cnlAddHtlc ≤ channel.ourMsat.toNat
  received : pendingMsat .recv channel.cnlAddHtlc ≤ channel.theirMsat.toNat

/-- Money is conserved in the balances, in the local and in the remote commitment
transaction, and no subtraction on the way to these wraps. -/
structure Conserved (channel : LnSelf) : Prop where
  balances : channel.ourMsat.toNat + channel.theirMsat.toNat = 1000 * channel.fundingSat.toNat
  toLocal : (createToLocalHtlcinfoAmount channel).totalMsat = 1000 * channel.fundingSat.toNat
  toLocalWithin : localSelect.WithinFrom channel.cnlAddHtlc
    ⟨[], channel.ourMsat, channel.theirMsat⟩ (List.finRange lnHtlcMax)
  toRemote : (createToRemoteHtlcinfo channel).totalMsat = 1000 * channel.fundingSat.toNat
  toRemoteWithin : remoteSelect.WithinFrom channel.cnlAddHtlc
    ⟨[], channel.ourMsat, channel.theirMsat⟩ (List.finRange lnHtlcMax)

theorem Funded.htlcinfoAmount (hfunded : Funded self) {select : HtlcSelect}
    (hsound : select.Sound) :
    (select.htlcinfoAmount self.cnlAddHtlc self.ourMsat self.theirMsat).totalMsat =
        1000 * self.fundingSat.toNat ∧
      select.WithinFrom self.cnlAddHtlc ⟨[], self.ourMsat, self.theirMsat⟩
        (List.finRange lnHtlcMax) := by
  have htotal : (⟨[], self.ourMsat, self.theirMsat⟩ : HtlcinfoAmount).totalMsat =
      1000 * self.fundingSat.toNat := by
    simp [HtlcinfoAmount.totalMsat, hfunded.total]
  have hfits : HtlcSelect.Fits self.cnlAddHtlc (List.finRange lnHtlcMax)
      ⟨[], self.ourMsat, self.theirMsat⟩ :=
    ⟨hfunded.offered, hfunded.received, htotal ▸ hfunded.bound⟩
  obtain ⟨hfold, hwithin⟩ := HtlcSelect.foldl_conserves hsound hfits
  exact ⟨hfold.trans htotal, hwithin⟩

theorem Funded.conserved (hfunded : Funded self) : Conserved self where
  balances := hfunded.total
  toLocal := (hfunded.htlcinfoAmount localSelect_sound).1
  toLocalWithin := (hfunded.htlcinfoAmount localSelect_sound).2
  toRemote := (hfunded.htlcinfoAmount remoteSelect_sound).1
  toRemoteWithin := (hfunded.htlcinfoAmount remoteSelect_sound).2

/-! ### Settling -/

theorem slotMsat_of_same {htlc post : LnUpdateAddHtlc} (hsame : SameHtlc htlc post)
    (kind : LnAddhtlc) : slotMsat kind post = slotMsat kind htlc := by
  rw [slotMsat, slotMsat, hsame.addhtlc, hsame.amountMsat]

theorem slotMsat_empty {kind : LnAddhtlc} (hkind : kind ≠ .none) : slotMsat kind {} = 0 :=
  if_neg fun hnone => hkind hnone.symm

/-- The removal of one slot moves its amount at most to the other side; `offered` and
`received` stand for what the other slots hold. -/
theorem idleFinalMsat_slot {htlc : LnUpdateAddHtlc} {balance : UInt64 × UInt64}
    {offered received : Nat} (hoffered : slotMsat .offer htlc + offered ≤ balance.1.toNat)
    (hreceived : slotMsat .recv htlc + received ≤ balance.2.toNat)
    (hbound : balance.1.toNat + balance.2.toNat < 2 ^ 64) :
    (idleFinalMsat balance htlc).1.toNat + (idleFinalMsat balance htlc).2.toNat =
        balance.1.toNat + balance.2.toNat ∧
      slotMsat .offer (idleFinalSlot htlc).1 + offered ≤ (idleFinalMsat balance htlc).1.toNat ∧
      slotMsat .recv (idleFinalSlot htlc).1 + received ≤ (idleFinalMsat balance htlc).2.toNat := by
  cases hremoves : idleFinalRemoves htlc with
  | false =>
      have hsame := SameHtlc.idleFinalSlot hremoves
      rw [slotMsat_of_same hsame, slotMsat_of_same hsame, idleFinalMsat, hremoves, Bool.false_and,
        if_neg Bool.false_ne_true]
      exact ⟨rfl, hoffered, hreceived⟩
  | true =>
      rw [idleFinalSlot_removed hremoves, slotMsat_empty (by simp), slotMsat_empty (by simp),
        idleFinalMsat, hremoves, Bool.true_and]
      split
      · cases hadd : htlc.flag.addhtlc with
        | none =>
            simp only
            exact ⟨trivial, by omega, by omega⟩
        | offer =>
            simp only [slotMsat, hadd, if_true] at hoffered
            have hsub := toNat_sub_msat balance.1 htlc.amountMsat (by omega)
            have hplus := toNat_add_msat balance.2 htlc.amountMsat (by omega)
            simp only
            omega
        | recv =>
            simp only [slotMsat, hadd, if_true] at hreceived
            have hsub := toNat_sub_msat balance.2 htlc.amountMsat (by omega)
            have hplus := toNat_add_msat balance.1 htlc.amountMsat (by omega)
            simp only
            omega
      · omega

theorem idleFinal_foldl (slots : Slots) (rest : List HtlcIdx) :
    ∀ (balance : UInt64 × UInt64) (offered received : Nat),
      (rest.map fun idx => slotMsat .offer (slots idx)).sum + offered ≤ balance.1.toNat →
      (rest.map fun idx => slotMsat .recv (slots idx)).sum + received ≤ balance.2.toNat →
      balance.1.toNat + balance.2.toNat < 2 ^ 64 →
      let final := rest.foldl (fun balance idx => idleFinalMsat balance (slots idx)) balance
      final.1.toNat + final.2.toNat = balance.1.toNat + balance.2.toNat ∧
        (rest.map fun idx => slotMsat .offer (idleFinalSlot (slots idx)).1).sum + offered ≤
          final.1.toNat ∧
        (rest.map fun idx => slotMsat .recv (idleFinalSlot (slots idx)).1).sum + received ≤
          final.2.toNat := by
  induction rest with
  | nil =>
      intro balance offered received hoffered hreceived _
      exact ⟨rfl, hoffered, hreceived⟩
  | cons idx rest ih =>
      intro balance offered received hoffered hreceived hbound
      simp only [List.map_cons, List.sum_cons, List.foldl_cons] at hoffered hreceived ⊢
      rw [Nat.add_assoc] at hoffered hreceived
      obtain ⟨htotal, hoffered', hreceived'⟩ := idleFinalMsat_slot hoffered hreceived hbound
      obtain ⟨hrest, hofferedAll, hreceivedAll⟩ := ih (idleFinalMsat balance (slots idx))
        (slotMsat .offer (idleFinalSlot (slots idx)).1 + offered)
        (slotMsat .recv (idleFinalSlot (slots idx)).1 + received)
        (by omega) (by omega) (by omega)
      exact ⟨hrest.trans htotal, by omega, by omega⟩

theorem recvIdleProcFinal_funded (hfunded : Funded self) :
    Funded (recvIdleProcFinal self).self := by
  have hlt : self.ourMsat.toNat + self.theirMsat.toNat < 2 ^ 64 :=
    hfunded.total ▸ hfunded.bound
  obtain ⟨htotal, hoffered, hreceived⟩ := idleFinal_foldl self.cnlAddHtlc
    (List.finRange lnHtlcMax) (self.ourMsat, self.theirMsat) 0 0 hfunded.offered hfunded.received
    hlt
  exact ⟨htotal.trans hfunded.total, hfunded.bound, hoffered, hreceived⟩

/-! ### The events -/

/-- The funding amount and the balances are the same. -/
def SameMoney (before after : LnSelf) : Prop :=
  after.fundingSat = before.fundingSat ∧ after.ourMsat = before.ourMsat ∧
    after.theirMsat = before.theirMsat

theorem SameMoney.refl (channel : LnSelf) : SameMoney channel channel := ⟨rfl, rfl, rfl⟩

theorem SameMoney.of_closing {before after : LnSelf} (hchange : ClosingChange before after) :
    SameMoney before after := by
  obtain ⟨_, _, _, _, _, _, _, rfl⟩ := hchange
  exact ⟨rfl, rfl, rfl⟩

theorem SameMoney.of_onlySlots {before after : LnSelf} (honly : OnlySlots before after) :
    SameMoney before after := by
  obtain ⟨_, _, rfl⟩ := honly
  exact ⟨rfl, rfl, rfl⟩

theorem recvFunc_money (channelId : Bytes) (env : RecvEnv) (msg : LnMsg)
    (hupdate : ¬ (ChannelEvent.recv channelId msg env).isUpdate = true) :
    SameMoney self (recvFunc crypto self channelId env msg).self := by
  cases msg with
  | commitmentSigned sig htlcSigs =>
      obtain ⟨slots, txid, htlcNum, hself, -⟩ := createToLocal_changes crypto
        { self with commitLocal := { self.commitLocal with signature := sig } } htlcSigs
        (self.commitLocal.commitNum + 1) self.commitRemote.toSelfDelay
        self.commitLocal.dustLimitSat
      simp only [recvFunc, recvCommitmentSigned]
      split_ifs
      · exact .refl self
      · rw [Outcome.reject, hself]
        exact ⟨rfl, rfl, rfl⟩
      · rw [hself]
        exact ⟨rfl, rfl, rfl⟩
  | shutdown scriptpk => exact .of_closing (recvShutdown_closing crypto self channelId scriptpk).1
  | closingSigned feeSat signature =>
      exact .of_closing (recvClosingSigned_closing crypto self channelId feeSat signature
        env.broadcast).1
  | revokeAndAck secret point =>
      simp only [recvFunc, recvRevokeAndAck, storePeerPercommitSecret]
      split_ifs
      · exact .refl self
      · exact .refl self
      · cases lnDerkeyStorageInsertSecret crypto self.peerStorage secret self.peerStorageIndex with
        | none => exact .refl self
        | some storage => exact ⟨rfl, rfl, rfl⟩
  | updateFee feeratePerKw =>
      simp only [recvFunc, recvUpdateFee]
      split <;> exact ⟨rfl, rfl, rfl⟩
  | fundingLocked perCommitpt =>
      simp only [recvFunc, recvFundingLocked]
      split <;> exact ⟨rfl, rfl, rfl⟩
  | channelReestablish reest =>
      simp only [recvFunc, recvChannelReestablish]
      repeat' split
      all_goals exact ⟨rfl, rfl, rfl⟩
  | _ => simp [ChannelEvent.isUpdate, LnMsg.removal] at hupdate

/-- Only `recv_idle_proc_final` moves money. -/
theorem handle_money (crypto : Crypto) (self : LnSelf) (ev : ChannelEvent) :
    SameMoney self (handle crypto self ev).self ∨
      ev = .idle ∧ (handle crypto self ev).self = (recvIdleProcFinal self).self := by
  by_cases hupdate : ev.isUpdate = true
  · exact .inl (.of_onlySlots (handle_onlySlots hupdate))
  · cases ev with
    | recv channelId msg env =>
        rw [handle, lnRecv]
        split
        · exact .inl (recvFunc_money channelId env msg hupdate)
        · exact .inl (.refl self)
    | idle =>
        simp only [handle, lnRecvIdleProc]
        split_ifs
        · exact .inl (.refl self)
        · exact .inr ⟨trivial, rfl⟩
        · simp only [recvIdleProcNonfinal, idleSendComsig]
          repeat' split
          all_goals exact .inl ⟨rfl, rfl, rfl⟩
    | shutdown fee => exact .inl ⟨rfl, rfl, rfl⟩
    | reestablished =>
        simp only [handle, lnChannelReestablishAfter, reestResendUpdate]
        repeat' split
        all_goals exact .inl ⟨rfl, rfl, rfl⟩
    | _ => simp [ChannelEvent.isUpdate] at hupdate

/-- The HTLC that an event brings into play: its kind, its slot and its amount. -/
def entering (crypto : Crypto) (self : LnSelf) :
    ChannelEvent → Option (LnAddhtlc × HtlcIdx × UInt64)
  | .addHtlc req =>
      (lnAddHtlcSet crypto self req).1.map fun idx => (.offer, idx, req.amountMsat)
  | .recv channelId (.updateAddHtlc id amountMsat paymentSha256 cltvExpiry packet) _ =>
      (acceptedSlot self channelId id amountMsat paymentSha256 cltvExpiry packet).map fun idx =>
        (.recv, idx, amountMsat)
  | .startFwd idx =>
      if (self.cnlAddHtlc idx).flag.addhtlc = .offer then none
      else some (.offer, idx, (self.cnlAddHtlc idx).amountMsat)
  | _ => none

/-- The balance that HTLCs of the kind come out of. -/
def balanceMsat (self : LnSelf) : LnAddhtlc → UInt64
  | .recv => self.theirMsat
  | _ => self.ourMsat

/-- An HTLC comes into play only if it fits into the balance together with all others
of its kind. -/
def keepsFunds (crypto : Crypto) (self : LnSelf) (ev : ChannelEvent) : Bool :=
  (entering crypto self ev).all fun (kind, _, amountMsat) =>
    pendingMsat kind self.cnlAddHtlc + amountMsat.toNat ≤ (balanceMsat self kind).toNat

/-- A slot holds an HTLC of the kind only if it has held it before, unless it takes what
the event brings into play. -/
theorem slotChange_holds {ev : ChannelEvent} {idx : HtlcIdx} {post : LnUpdateAddHtlc}
    {kind : LnAddhtlc} (hkind : kind ≠ .none) (hchange : SlotChange crypto self ev idx post)
    (hpost : post.flag.addhtlc = kind) :
    ((self.cnlAddHtlc idx).flag.addhtlc = kind ∧
        post.amountMsat = (self.cnlAddHtlc idx).amountMsat) ∨
      entering crypto self ev = some (kind, idx, post.amountMsat) := by
  have hsame (hsame : SameHtlc (self.cnlAddHtlc idx) post) :
      (self.cnlAddHtlc idx).flag.addhtlc = kind ∧
        post.amountMsat = (self.cnlAddHtlc idx).amountMsat :=
    ⟨hsame.addhtlc.symm.trans hpost, hsame.amountMsat⟩
  have hgone (hnone : post.flag.addhtlc = .none) : False :=
    hkind (hpost.symm.trans hnone)
  have henters {entered : LnAddhtlc} {amountMsat : UInt64}
      (hentering : entering crypto self ev = some (entered, idx, amountMsat))
      (hadd : post.flag.addhtlc = entered) (hamount : post.amountMsat = amountMsat) :
      entering crypto self ev = some (kind, idx, post.amountMsat) := by
    rw [hentering, hamount, ← hadd, hpost]
  cases hchange with
  | kept => exact .inl ⟨hpost, rfl⟩
  | read hfirst =>
      have hnone := addhtlc_of_empty (empty_of_firstEmpty hfirst)
      exact (hgone hnone).elim
  | received haccepted hearly hread hflag =>
      obtain ⟨_, hflag⟩ := hflag
      exact .inr (henters (by rw [entering, haccepted, Option.map_some]) (by rw [hflag]) hread.2.1)
  | receivedFailed haccepted hearly hread =>
      exact .inr (henters (by rw [entering, haccepted, Option.map_some]) hread.2.2.2.2 hread.2.1)
  | removing => exact .inl (hsame (.clearHtlcComrevflag _ _))
  | signed => exact .inl ⟨hpost, rfl⟩
  | committed =>
      refine .inl (hsame (SameHtlc.trans (.trans ?_ (.setFlagIf ?_)) (.setFlagIf ?_)))
      · exact ⟨rfl, rfl, rfl, rfl, rfl, rfl, rfl⟩
      all_goals exact fun _ => rfl
  | acked => exact .inl (hsame (.setFlagIf fun _ => rfl))
  | finalised hall =>
      cases hremoves : idleFinalRemoves (self.cnlAddHtlc idx) with
      | false => exact .inl (hsame (.idleFinalSlot hremoves))
      | true =>
          rw [idleFinalSlot_removed hremoves] at hgone
          exact (hgone rfl).elim
  | updated => exact .inl (hsame (.idleUpdateSlot _))
  | comsent => exact .inl (hsame ((SameHtlc.idleUpdateSlot _).trans (.setFlagIf fun _ => rfl)))
  | offered hcheck haccepted =>
      rename_i req
      have hentering : entering crypto self (.addHtlc req) =
          some (.offer, idx, req.amountMsat) := by
        rw [entering, haccepted, Option.map_some]
      exact .inr (henters hentering rfl rfl)
  | dropped => exact (hgone rfl).elim
  | reserved hcheck =>
      have hnone := addhtlc_of_empty
        (empty_of_firstEmpty (firstEmpty_of_checkCreateAddHtlc hcheck))
      exact (hgone hnone).elim
  | droppedFwd => exact (hgone rfl).elim
  | started =>
      by_cases hoffer : (self.cnlAddHtlc idx).flag.addhtlc = .offer
      · exact .inl (hsame (.setFlag hoffer.symm))
      · have hentering : entering crypto self (.startFwd idx) =
            some (.offer, idx, (self.cnlAddHtlc idx).amountMsat) := by
          rw [entering, if_neg hoffer]
        exact .inr (henters hentering rfl rfl)
  | fulfilled =>
      refine .inl (hsame (SameHtlc.trans (.clearHtlcComrevflag _ .fulfill) ?_))
      exact ⟨rfl, rfl, rfl, rfl, rfl, rfl, rfl⟩
  | failed hfailed => exact .inl (hsame hfailed)
  | resent => exact .inl (hsame (.setFlag rfl))

/-- What the slot weighs, if it holds an HTLC of the kind. -/
def slotWeight (weigh : UInt64 → Nat) (kind : LnAddhtlc) (htlc : LnUpdateAddHtlc) : Nat :=
  if htlc.flag.addhtlc = kind then weigh htlc.amountMsat else 0

/-- A slot weighs no more than before, unless it takes what the event brings into play. -/
theorem slotChange_weight (weigh : UInt64 → Nat) {ev : ChannelEvent} {idx : HtlcIdx}
    {post : LnUpdateAddHtlc} {kind : LnAddhtlc} (hkind : kind ≠ .none)
    (hchange : SlotChange crypto self ev idx post) :
    slotWeight weigh kind post ≤ slotWeight weigh kind (self.cnlAddHtlc idx) ∨
      ∃ amountMsat, entering crypto self ev = some (kind, idx, amountMsat) ∧
        slotWeight weigh kind post = weigh amountMsat := by
  by_cases hpost : post.flag.addhtlc = kind
  · rcases slotChange_holds hkind hchange hpost with ⟨hadd, hamount⟩ | hentering
    · rw [slotWeight, slotWeight, if_pos hpost, if_pos hadd, hamount]
      exact .inl le_rfl
    · exact .inr ⟨_, hentering, if_pos hpost⟩
  · refine .inl ?_
    rw [slotWeight, if_neg hpost]
    exact Nat.zero_le _

theorem pendingMsat_eq_sum (kind : LnAddhtlc) (slots : Slots) :
    pendingMsat kind slots = ∑ idx, slotMsat kind (slots idx) := by
  rw [pendingMsat, Fin.sum_univ_def]

/-- An event raises what the slots weigh by no more than what it brings into play. -/
theorem weight_handle (weigh : UInt64 → Nat) {kind : LnAddhtlc} (hkind : kind ≠ .none)
    (crypto : Crypto) (self : LnSelf) (ev : ChannelEvent) :
    (∑ idx, slotWeight weigh kind ((handle crypto self ev).self.cnlAddHtlc idx) ≤
        ∑ idx, slotWeight weigh kind (self.cnlAddHtlc idx)) ∨
      ∃ idx amountMsat, entering crypto self ev = some (kind, idx, amountMsat) ∧
        ∑ idx, slotWeight weigh kind ((handle crypto self ev).self.cnlAddHtlc idx) ≤
          ∑ idx, slotWeight weigh kind (self.cnlAddHtlc idx) + weigh amountMsat := by
  have hslot (idx : HtlcIdx) :=
    slotChange_weight weigh hkind (handle_slotChange crypto self ev idx)
  by_cases henters : ∃ idx amountMsat, entering crypto self ev = some (kind, idx, amountMsat)
  · obtain ⟨target, amountMsat, hentering⟩ := henters
    have hle (idx : HtlcIdx) :
        slotWeight weigh kind ((handle crypto self ev).self.cnlAddHtlc idx) ≤
          slotWeight weigh kind (self.cnlAddHtlc idx) +
            if idx = target then weigh amountMsat else 0 := by
      rcases hslot idx with hkept | ⟨amountMsat', hentering', heq⟩
      · exact hkept.trans (Nat.le_add_right _ _)
      · rw [hentering] at hentering'
        obtain ⟨rfl, rfl⟩ : target = idx ∧ amountMsat = amountMsat' := by simpa using hentering'
        rw [heq, if_pos rfl]
        exact Nat.le_add_left _ _
    refine .inr ⟨target, amountMsat, hentering, ?_⟩
    calc ∑ idx, slotWeight weigh kind ((handle crypto self ev).self.cnlAddHtlc idx)
        ≤ ∑ idx, (slotWeight weigh kind (self.cnlAddHtlc idx) +
            if idx = target then weigh amountMsat else 0) :=
          Finset.sum_le_sum fun idx _ => hle idx
      _ = ∑ idx, slotWeight weigh kind (self.cnlAddHtlc idx) + weigh amountMsat := by
          rw [Finset.sum_add_distrib, Finset.sum_ite_eq' Finset.univ target,
            if_pos (Finset.mem_univ target)]
  · refine .inl (Finset.sum_le_sum fun idx _ => ?_)
    rcases hslot idx with hkept | ⟨amountMsat, hentering, -⟩
    · exact hkept
    · exact absurd ⟨idx, amountMsat, hentering⟩ henters

/-- What is pending still fits into the balance. -/
theorem pendingMsat_handle {kind : LnAddhtlc} (hkind : kind ≠ .none) {ev : ChannelEvent}
    (hkeeps : keepsFunds crypto self ev = true)
    (hpending : pendingMsat kind self.cnlAddHtlc ≤ (balanceMsat self kind).toNat) :
    pendingMsat kind (handle crypto self ev).self.cnlAddHtlc ≤ (balanceMsat self kind).toNat := by
  rw [pendingMsat_eq_sum] at hpending ⊢
  rcases weight_handle UInt64.toNat hkind crypto self ev with
    hkept | ⟨idx, amountMsat, hentering, hadded⟩
  · exact hkept.trans hpending
  · rw [keepsFunds, hentering, Option.all_some, decide_eq_true_eq, pendingMsat_eq_sum] at hkeeps
    exact hadded.trans hkeeps

theorem handle_funded (hfunded : Funded self) {ev : ChannelEvent}
    (hkeeps : keepsFunds crypto self ev = true) : Funded (handle crypto self ev).self := by
  rcases handle_money crypto self ev with ⟨hfunding, hour, htheir⟩ | ⟨-, hfinal⟩
  · have hoffered := pendingMsat_handle (by simp) hkeeps
      (hfunded.offered : _ ≤ (balanceMsat self .offer).toNat)
    have hreceived := pendingMsat_handle (by simp) hkeeps
      (hfunded.received : _ ≤ (balanceMsat self .recv).toNat)
    refine ⟨?_, hfunding ▸ hfunded.bound, hour ▸ hoffered, htheir ▸ hreceived⟩
    rw [hour, htheir, hfunding]
    exact hfunded.total
  · rw [hfinal]
    exact recvIdleProcFinal_funded hfunded

/-! ### Whole runs -/

/-- The step brings no HTLC into play that does not fit. -/
def stepKeepsFunds (crypto : Crypto) (state : ChannelState) : ChannelLabel → Bool
  | .event ev => keepsFunds crypto state.self ev
  | _ => true

/-- The funding exchange is complete, and an `open_channel` that the node sent itself was
in range. -/
inductive OpenedWithin (crypto : Crypto) : Outcome → Prop
  | fundee {seed scriptpk : Bytes} {dataloss : Bool} {openCh : LnOpenChannel}
      {estprm : LnEstablishPrm} {priv : Fundkeys} {outpoint : FundingOutpoint}
      {signature : Bytes} {outcome : Outcome} :
      openedAsFundee crypto (lnInit seed scriptpk dataloss) openCh estprm priv outpoint
        signature = some outcome →
      OpenedWithin crypto outcome
  | funder {seed scriptpk : Bytes} {dataloss : Bool} {estprm : LnEstablishPrm}
      {fundingSat pushSat : UInt64} {feeRate : UInt32} {channelId : Bytes} {priv : Fundkeys}
      {acceptCh : LnAcceptChannel} {outpoint : FundingOutpoint} {signature : Bytes}
      {outcome : Outcome} :
      openedAsFunder crypto (lnInit seed scriptpk dataloss) estprm fundingSat pushSat feeRate
        channelId priv acceptCh outpoint signature = some outcome →
      openChannelInRange fundingSat (pushSat * 1000) estprm.maxAcceptedHtlcs = true →
      OpenedWithin crypto outcome

theorem pendingMsat_congr {kind : LnAddhtlc} {slots slots' : Slots}
    (hslots : ∀ idx, slotMsat kind (slots' idx) = slotMsat kind (slots idx)) :
    pendingMsat kind slots' = pendingMsat kind slots := by
  rw [pendingMsat, pendingMsat]
  exact congrArg List.sum (List.map_congr_left fun idx _ => hslots idx)

theorem Funded.of_closing {before after : LnSelf} (hafter : Funded after)
    (hchange : ClosingChange before after) : Funded before := by
  obtain ⟨_, _, _, _, _, _, _, rfl⟩ := hchange
  exact ⟨hafter.total, hafter.bound, hafter.offered, hafter.received⟩

theorem Funded.saveSelf {db : Db} (hfunded : Funded self) : Funded (db.saveSelf self).chan := by
  have hpending (kind : LnAddhtlc) :
      pendingMsat kind (db.saveSelf self).chan.cnlAddHtlc = pendingMsat kind self.cnlAddHtlc :=
    pendingMsat_congr fun _ => rfl
  refine ⟨hfunded.total, hfunded.bound, ?_, ?_⟩
  · rw [hpending]
    exact hfunded.offered
  · rw [hpending]
    exact hfunded.received

/-- The event may bring an HTLC into play. -/
def ChannelEvent.addsHtlc : ChannelEvent → Bool
  | .addHtlc _ => true
  | .startFwd _ => true
  | .recv _ (.updateAddHtlc ..) _ => true
  | _ => false

/-- The events that bring an HTLC into play save nothing. -/
theorem addsHtlc_of_saves {ev : ChannelEvent}
    (hsaves : ∃ saved, Effect.selfSave saved ∈ (handle crypto self ev).trace) :
    ev.addsHtlc = false := by
  obtain ⟨saved, hsaved⟩ := hsaves
  cases ev with
  | addHtlc req => simp [handle] at hsaved
  | startFwd idx => simp [handle] at hsaved
  | recv channelId msg env =>
      cases msg with
      | updateAddHtlc id amountMsat paymentSha256 cltvExpiry packet =>
          simp only [handle, lnRecv, recvFunc, recvUpdateAddHtlc, Outcome.reject] at hsaved
          repeat' split at hsaved
          all_goals simp at hsaved
      | _ => rfl
  | _ => rfl

theorem entering_of_adds_nothing {ev : ChannelEvent} (hadds : ev.addsHtlc = false) :
    entering crypto self ev = none := by
  cases ev with
  | addHtlc req => cases hadds
  | startFwd idx => cases hadds
  | recv channelId msg env =>
      cases msg with
      | updateAddHtlc id amountMsat paymentSha256 cltvExpiry packet => cases hadds
      | _ => rfl
  | _ => rfl

theorem keepsFunds_of_saves {ev : ChannelEvent}
    (hsaves : ∃ saved, Effect.selfSave saved ∈ (handle crypto self ev).trace) :
    keepsFunds crypto self ev = true := by
  rw [keepsFunds, entering_of_adds_nothing (addsHtlc_of_saves hsaves), Option.all_none]

def FundedState (state : ChannelState) : Prop :=
  Funded state.self ∧ Funded state.db.chan

theorem fundedState_step {before after : ChannelState} {label : ChannelLabel}
    (hfunded : FundedState before) (hkeeps : stepKeepsFunds crypto before label = true)
    (hnext : (channelSystem crypto).next before label = some after) : FundedState after := by
  obtain ⟨hself, hdb⟩ := hfunded
  apply channelNext_holds _ _ _ hnext hself hdb
  · intro ev hev
    rw [hev] at hkeeps
    exact handle_funded hself hkeeps
  · intro ev done _ hsaves
    exact handle_funded hself (keepsFunds_of_saves hsaves)
  · exact fun saved final hchange hfinal => hfinal.of_closing hchange
  · exact fun db saved hsaved => hsaved.saveSelf
  · exact fun db dataloss hdb => ⟨hdb.total, hdb.bound, hdb.offered, hdb.received⟩

theorem funded_of_fresh {fundingSat ourMsat theirMsat : UInt64} {ready : LnSelf}
    (hfresh : Fresh fundingSat ourMsat theirMsat ready)
    (htotal : ourMsat.toNat + theirMsat.toNat = 1000 * fundingSat.toNat)
    (hbound : 1000 * fundingSat.toNat < 2 ^ 64) :
    FundedState (.afterFunding (startFundingWait crypto ready)) := by
  have hpending {kind : LnAddhtlc} (hkind : kind ≠ .none) :
      pendingMsat kind ready.cnlAddHtlc = 0 := by
    have hslot (idx : HtlcIdx) :
        slotMsat kind (ready.cnlAddHtlc idx) = slotMsat kind ({} : LnUpdateAddHtlc) := by
      obtain ⟨signature, hidx⟩ := hfresh.slots idx
      rw [hidx]
      rfl
    rw [pendingMsat_eq_sum]
    exact Finset.sum_eq_zero fun idx _ => (hslot idx).trans (slotMsat_empty hkind)
  have hready : Funded ready := by
    refine ⟨?_, hfresh.fundingSat ▸ hbound, ?_, ?_⟩
    · rw [hfresh.ourMsat, hfresh.theirMsat, hfresh.fundingSat, htotal]
    · rw [hpending (by simp)]
      exact Nat.zero_le _
    · rw [hpending (by simp)]
      exact Nat.zero_le _
  have hself : Funded (startFundingWait crypto ready).self :=
    ⟨hready.total, hready.bound, hready.offered, hready.received⟩
  exact ⟨hself, hself.saveSelf⟩

/-- In range, the push and the rest share out the funding amount. -/
theorem total_of_inRange {fundingSat pushMsat : UInt64} {maxAcceptedHtlcs : UInt16}
    (hrange : openChannelInRange fundingSat pushMsat maxAcceptedHtlcs = true) :
    pushMsat.toNat + (fundingSat * 1000 - pushMsat).toNat = 1000 * fundingSat.toNat ∧
      1000 * fundingSat.toNat < 2 ^ 64 := by
  simp only [openChannelInRange, Bool.and_eq_true, decide_eq_true_eq] at hrange
  obtain ⟨⟨hfunding, hpush⟩, -⟩ := hrange
  have hsmall : fundingSat.toNat < 16777216 := UInt64.lt_iff_toNat_lt.mp hfunding
  have hmul : (fundingSat * 1000).toNat = 1000 * fundingSat.toNat := by
    rw [UInt64.toNat_mul, Nat.mul_comm]
    exact Nat.mod_eq_of_lt (by change 1000 * fundingSat.toNat < 2 ^ 64; omega)
  have hle : pushMsat.toNat ≤ (fundingSat * 1000).toNat := UInt64.le_iff_toNat_le.mp hpush
  rw [toNat_sub_msat _ _ hle]
  omega

theorem OpenedWithin.funded {outcome : Outcome} (hopened : OpenedWithin crypto outcome) :
    FundedState (.afterFunding outcome) := by
  cases hopened with
  | fundee hopened =>
      obtain ⟨ready, rfl, hfresh, hrange⟩ := openedAsFundee_fresh hopened
      obtain ⟨htotal, hbound⟩ := total_of_inRange hrange
      exact funded_of_fresh hfresh htotal hbound
  | funder hopened hrange =>
      obtain ⟨ready, rfl, hfresh⟩ := openedAsFunder_fresh hopened
      obtain ⟨htotal, hbound⟩ := total_of_inRange hrange
      exact funded_of_fresh hfresh ((Nat.add_comm _ _).trans htotal) hbound

/-- Money is conserved in every run, of a channel opened in range, in which no HTLC comes
into play that does not fit. -/
theorem conserved_of_keepsFunds {outcome : Outcome} (hopened : OpenedWithin crypto outcome)
    {state : ChannelState}
    (hrun : (channelSystem crypto).RunUnder (fun before label => stepKeepsFunds crypto before label)
      (.afterFunding outcome) state) : Conserved state.self := by
  have hfunded : FundedState state := hrun.preserves FundedState
    (fun _ _ _ hfunded hkeeps hnext => fundedState_step hfunded hkeeps hnext) hopened.funded
  exact hfunded.1.conserved

/-- The peer adds two HTLCs of the given amounts. -/
def twoAddsScript (first second : UInt64) : List (ChannelState → ChannelLabel) :=
  let cid := symbolicOutpoint.txid
  [ fun _ => .event (.recv cid (.updateAddHtlc 0 first [9] 100 []) {}),
    fun _ => .event (.recv cid (.updateAddHtlc 1 second [9] 100 []) {}) ]

theorem symbolicFundee_openedWithin {fundingSat pushMsat : UInt64} {outcome : Outcome}
    (hopened : symbolicFundee fundingSat pushMsat = some outcome) :
    OpenedWithin .symbolic outcome := by
  simp only [symbolicFundee, Option.bind_eq_some_iff] at hopened
  obtain ⟨_, _, hdone⟩ := hopened
  exact .fundee hdone

/-- Two HTLCs of 200000 sat each out of 500000 sat. -/
theorem conserved_twoAdds :
    ∃ state : ChannelState, pendingMsat .recv state.self.cnlAddHtlc = 400000000 ∧
      Conserved state.self := by
  have hcheck : symbolicCheck 1000000 500000000 (stepKeepsFunds .symbolic)
      (twoAddsScript 200000000 200000000) (fun state _ =>
        pendingMsat .recv state.self.cnlAddHtlc == 400000000) = true := by
    decide +kernel
  obtain ⟨outcome, state, _, hopened, _, hrun, hpending⟩ :=
    permitted_of_symbolicCheck hcheck
  exact ⟨state, beq_iff_eq.mp hpending, conserved_of_keepsFunds
    (symbolicFundee_openedWithin hopened) hrun⟩

/-- Two HTLCs of 300000 sat each out of 500000 sat: each passes the check, and the
balance of the peer in the local commitment transaction wraps. -/
theorem not_conserved_twoAdds :
    ¬ ∀ (crypto : Crypto) (state : ChannelState), (channelSystem crypto).Reachable state →
      Conserved state.self := by
  intro hall
  have hcheck : symbolicCheck 1000000 500000000 permitAll (twoAddsScript 300000000 300000000)
      (fun state _ => (createToLocalHtlcinfoAmount state.self).totalMsat != 1000 *
        state.self.fundingSat.toNat) = true := by
    decide +kernel
  obtain ⟨state, past, hhistory, hwraps⟩ := run_of_symbolicCheck hcheck
  exact absurd (hall _ state hhistory.reachableUnder).toLocal (bne_iff_ne.mp hwraps)

end Ptarmigan
