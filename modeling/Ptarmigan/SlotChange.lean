/-
What one event can do to one HTLC slot.  Every property of the slots over whole
runs starts from `handle_slotChange`.
-/
import Ptarmigan.Frame

namespace Ptarmigan

variable {crypto : Crypto} {self : LnSelf}

/-- An `update_add_htlc` as it is read into a slot. -/
def LnUpdateAddHtlc.read (htlc : LnUpdateAddHtlc) (id : Nat) (amountMsat : UInt64)
    (paymentSha256 : Bytes)
    (cltvExpiry : UInt32) (packet : Bytes) : LnUpdateAddHtlc :=
  { htlc with id, amountMsat, paymentSha256, cltvExpiry, bufOnionReason := packet }

/-- The two slots hold the same HTLC, with the same origin. -/
structure SameHtlc (htlc htlc' : LnUpdateAddHtlc) : Prop where
  id : htlc'.id = htlc.id
  amountMsat : htlc'.amountMsat = htlc.amountMsat
  cltvExpiry : htlc'.cltvExpiry = htlc.cltvExpiry
  paymentSha256 : htlc'.paymentSha256 = htlc.paymentSha256
  addhtlc : htlc'.flag.addhtlc = htlc.flag.addhtlc
  prevShortChannelId : htlc'.prevShortChannelId = htlc.prevShortChannelId
  prevIdx : htlc'.prevIdx = htlc.prevIdx

theorem SameHtlc.refl (htlc : LnUpdateAddHtlc) : SameHtlc htlc htlc :=
  ⟨rfl, rfl, rfl, rfl, rfl, rfl, rfl⟩

theorem SameHtlc.trans {first second third : LnUpdateAddHtlc} (hfirst : SameHtlc first second)
    (hsecond : SameHtlc second third) : SameHtlc first third where
  id := hsecond.id.trans hfirst.id
  amountMsat := hsecond.amountMsat.trans hfirst.amountMsat
  cltvExpiry := hsecond.cltvExpiry.trans hfirst.cltvExpiry
  paymentSha256 := hsecond.paymentSha256.trans hfirst.paymentSha256
  addhtlc := hsecond.addhtlc.trans hfirst.addhtlc
  prevShortChannelId := hsecond.prevShortChannelId.trans hfirst.prevShortChannelId
  prevIdx := hsecond.prevIdx.trans hfirst.prevIdx

theorem SameHtlc.setFlag {htlc : LnUpdateAddHtlc} {rewrite : LnHtlcflag → LnHtlcflag}
    (hadd : (rewrite htlc.flag).addhtlc = htlc.flag.addhtlc) :
    SameHtlc htlc (htlc.setFlag rewrite) :=
  ⟨rfl, rfl, rfl, rfl, hadd, rfl, rfl⟩

theorem SameHtlc.setFlagIf {htlc : LnUpdateAddHtlc} {picked : LnHtlcflag → Bool}
    {rewrite : LnHtlcflag → LnHtlcflag}
    (hadd : ∀ flag : LnHtlcflag, (rewrite flag).addhtlc = flag.addhtlc) :
    SameHtlc htlc (htlc.setFlagIf picked rewrite) := by
  rw [LnUpdateAddHtlc.setFlagIf]
  split
  · exact .setFlag (hadd _)
  · exact .refl htlc

theorem SameHtlc.clearHtlcComrevflag (htlc : LnUpdateAddHtlc) (delHtlc : LnDelhtlc) :
    SameHtlc htlc (htlc.clearHtlcComrevflag delHtlc) := by
  rw [LnUpdateAddHtlc.clearHtlcComrevflag, LnHtlcflag.clearComrev]
  split <;> exact ⟨rfl, rfl, rfl, rfl, rfl, rfl, rfl⟩

theorem SameHtlc.idleUpdateSlot (htlc : LnUpdateAddHtlc) :
    SameHtlc htlc (idleUpdateSlot htlc) := by
  rw [Ptarmigan.idleUpdateSlot]
  split
  · exact .setFlag rfl
  · exact .refl htlc

theorem idleFinalSlot_removed {htlc : LnUpdateAddHtlc} (hremoves : idleFinalRemoves htlc = true) :
    (idleFinalSlot htlc).1 = {} := by
  simp only [idleFinalRemoves, Bool.and_eq_true, Bool.not_eq_true'] at hremoves
  simp [idleFinalSlot, hremoves]

theorem SameHtlc.idleFinalSlot {htlc : LnUpdateAddHtlc} (hkept : idleFinalRemoves htlc = false) :
    SameHtlc htlc (idleFinalSlot htlc).1 := by
  simp only [idleFinalRemoves] at hkept
  simp only [Ptarmigan.idleFinalSlot]
  split_ifs
  · exact .refl htlc
  · exact .refl htlc
  · have hnext : SameHtlc htlc { htlc with nextShortChannelId := 0 } :=
      ⟨rfl, rfl, rfl, rfl, rfl, rfl, rfl⟩
    exact hnext.trans (.clearHtlcComrevflag _ htlc.flag.finDelhtlc)
  · exact .clearHtlcComrevflag htlc _
  · exact ⟨rfl, rfl, rfl, rfl, rfl, rfl, rfl⟩
  · exact .refl htlc
  all_goals simp_all

/-- The id and the removal that an update message names. -/
def LnMsg.removal : LnMsg → Option (Nat × LnDelhtlc)
  | .updateFulfillHtlc id _ => some (id, .fulfill)
  | .updateFailHtlc id _ => some (id, .fail)
  | .updateFailMalformedHtlc id _ _ => some (id, .malformed)
  | _ => none

/-- The slot that a received `update_add_htlc` takes once its `channel_id` and the
checks of BOLT2 have passed. -/
def acceptedSlot (self : LnSelf) (channelId : Bytes) (id : Nat) (amountMsat : UInt64)
    (paymentSha256 : Bytes) (cltvExpiry : UInt32) (packet : Bytes) : Option HtlcIdx :=
  (firstEmpty self.cnlAddHtlc).filter fun idx =>
    let htlc := (self.cnlAddHtlc idx).read id amountMsat paymentSha256 cltvExpiry packet
    channelId == self.channelId && checkRecvAddHtlcBolt2 (self.setSlot idx htlc) htlc

theorem firstEmpty_of_acceptedSlot {channelId : Bytes} {id : Nat} {amountMsat : UInt64}
    {paymentSha256 : Bytes} {cltvExpiry : UInt32} {packet : Bytes} {idx : HtlcIdx}
    (haccepted : acceptedSlot self channelId id amountMsat paymentSha256 cltvExpiry packet =
      some idx) : firstEmpty self.cnlAddHtlc = some idx :=
  (Option.filter_eq_some_iff.mp haccepted).1

theorem firstEmpty_of_checkCreateAddHtlc {amountMsat : UInt64} {cltvValue : UInt32}
    {idx : HtlcIdx} (hcheck : checkCreateAddHtlc self amountMsat cltvValue = some idx) :
    firstEmpty self.cnlAddHtlc = some idx := by
  simp only [checkCreateAddHtlc] at hcheck
  split_ifs at hcheck
  exact hcheck

/-- The next channel refuses to forward the HTLC without a reason of its own, so that
the callback fails it before `recv_update_add_htlc` does. -/
def refusedEarly (self : LnSelf) (env : RecvEnv) : Bool :=
  match env.onion.verdict, env.answer with
  | .forward .., .refusedTempNode .. => !self.shutdownFlag.send
  | _, _ => false

/-- The slot that `set_add_htlc` fills. -/
def requestedSlot (self : LnSelf) (idx : HtlcIdx) (req : AddHtlcRequest) : LnUpdateAddHtlc :=
  { self.cnlAddHtlc idx with
    id := self.htlcIdNum
    amountMsat := req.amountMsat
    cltvExpiry := req.cltvValue
    paymentSha256 := req.paymentHash
    bufOnionReason := req.packet
    prevShortChannelId := req.prevShortChannelId
    prevIdx := req.prevIdx
    bufSharedSecret := req.sharedSecrets }

/-- All enabled slots are through their dance: `recv_idle_proc_final` runs. -/
def AllComrev (self : LnSelf) : Prop :=
  ∀ idx, (self.cnlAddHtlc idx).enable → (self.cnlAddHtlc idx).flag.comrevAll

/-- Some slot is in the middle of an exchange: `recv_idle_proc_nonfinal` waits. -/
def AnyComsiging (self : LnSelf) : Prop :=
  ∃ idx, (self.cnlAddHtlc idx).flag.comsiging = true

instance (self : LnSelf) : Decidable (AllComrev self) :=
  inferInstanceAs (Decidable (∀ _, _ → _))

instance (self : LnSelf) : Decidable (AnyComsiging self) :=
  inferInstanceAs (Decidable (∃ _, _))

/-- The `prev_short_channel_id` of an HTLC of which this node is the final one. -/
def finalShortChannelId : UInt64 := 0xffffffffffffffff

/-- The slot does not become one of an HTLC forwarded from another channel. -/
def NotForwarded (htlc post : LnUpdateAddHtlc) : Prop :=
  post.prevShortChannelId = htlc.prevShortChannelId ∨
    post.prevShortChannelId = finalShortChannelId

/-- The ways in which an event changes a slot. -/
inductive SlotChange (crypto : Crypto) (self : LnSelf) :
    ChannelEvent → HtlcIdx → LnUpdateAddHtlc → Prop
  | kept {ev idx} : SlotChange crypto self ev idx (self.cnlAddHtlc idx)
  /-- An `update_add_htlc` that is refused after it was read. -/
  | read {channelId id amountMsat paymentSha256 cltvExpiry packet env idx} :
      firstEmpty self.cnlAddHtlc = some idx →
      SlotChange crypto self
        (.recv channelId (.updateAddHtlc id amountMsat paymentSha256 cltvExpiry packet) env) idx
        ((self.cnlAddHtlc idx).read id amountMsat paymentSha256 cltvExpiry packet)
  | received {channelId id amountMsat paymentSha256 cltvExpiry packet env idx post} :
      acceptedSlot self channelId id amountMsat paymentSha256 cltvExpiry packet = some idx →
      refusedEarly self env = false →
      (post.id = id ∧ post.amountMsat = amountMsat ∧ post.paymentSha256 = paymentSha256 ∧
        post.cltvExpiry = cltvExpiry) →
      (∃ finDelhtlc, post.flag =
        { (self.cnlAddHtlc idx).flag with addhtlc := .recv, finDelhtlc }) →
      NotForwarded (self.cnlAddHtlc idx) post →
      SlotChange crypto self
        (.recv channelId (.updateAddHtlc id amountMsat paymentSha256 cltvExpiry packet) env) idx
        post
  | receivedFailed {channelId id amountMsat paymentSha256 cltvExpiry packet env idx post} :
      acceptedSlot self channelId id amountMsat paymentSha256 cltvExpiry packet = some idx →
      refusedEarly self env = true →
      (post.id = id ∧ post.amountMsat = amountMsat ∧ post.paymentSha256 = paymentSha256 ∧
        post.cltvExpiry = cltvExpiry ∧ post.flag.addhtlc = .recv) →
      (∃ flag : LnHtlcflag, flag = { (self.cnlAddHtlc idx).flag with addhtlc := .recv } ∧
        post.flag = { flag.clearComrev .fail with delhtlc := .fail, finDelhtlc := .fail }) →
      NotForwarded (self.cnlAddHtlc idx) post →
      SlotChange crypto self
        (.recv channelId (.updateAddHtlc id amountMsat paymentSha256 cltvExpiry packet) env) idx
        post
  | removing {channelId msg env idx id delHtlc} :
      channelId = self.channelId → msg.removal = some (id, delHtlc) →
      findOffered self.cnlAddHtlc id = some idx →
      SlotChange crypto self (.recv channelId msg env) idx
        ((self.cnlAddHtlc idx).clearHtlcComrevflag delHtlc)
  | signed {channelId sig htlcSigs env idx signature} :
      SlotChange crypto self (.recv channelId (.commitmentSigned sig htlcSigs) env) idx
        { self.cnlAddHtlc idx with signature }
  | committed {channelId sig htlcSigs env idx signature} :
      SlotChange crypto self (.recv channelId (.commitmentSigned sig htlcSigs) env) idx
        (({ self.cnlAddHtlc idx with signature }.setFlagIf LnHtlcflag.localCounted
          fun flag => { flag with comrecv := true }).setFlagIf LnHtlcflag.localCounted
          fun flag => { flag with revsend := true })
  | acked {channelId secret point env idx} :
      SlotChange crypto self (.recv channelId (.revokeAndAck secret point) env) idx
        ((self.cnlAddHtlc idx).setFlagIf LnHtlcflag.remoteCounted
          fun flag => { flag with revrecv := true })
  | finalised {idx} : AllComrev self →
      SlotChange crypto self .idle idx (idleFinalSlot (self.cnlAddHtlc idx)).1
  | updated {idx} : ¬ AnyComsiging self →
      SlotChange crypto self .idle idx (idleUpdateSlot (self.cnlAddHtlc idx))
  | comsent {idx} : ¬ AnyComsiging self →
      SlotChange crypto self .idle idx
        ((idleUpdateSlot (self.cnlAddHtlc idx)).setFlagIf LnHtlcflag.remoteCounted
          fun flag => { flag with comsend := true })
  | offered {req idx} :
      checkCreateAddHtlc self req.amountMsat req.cltvValue = some idx →
      (lnAddHtlcSet crypto self req).1 = some idx →
      SlotChange crypto self (.addHtlc req) idx
        ((requestedSlot self idx req).setFlag fun flag => { flag with addhtlc := .offer })
  | dropped {req idx} :
      checkCreateAddHtlc self req.amountMsat req.cltvValue = some idx →
      SlotChange crypto self (.addHtlc req) idx {}
  | reserved {req idx} :
      checkCreateAddHtlc self req.amountMsat req.cltvValue = some idx →
      (lnAddHtlcSetFwd crypto self req).1 = some idx →
      SlotChange crypto self (.addHtlcFwd req) idx (requestedSlot self idx req)
  | droppedFwd {req idx} :
      checkCreateAddHtlc self req.amountMsat req.cltvValue = some idx →
      SlotChange crypto self (.addHtlcFwd req) idx {}
  | started {idx} :
      SlotChange crypto self (.startFwd idx) idx
        ((self.cnlAddHtlc idx).setFlag fun flag => { flag with addhtlc := .offer })
  | fulfilled {idx preimage} :
      SlotChange crypto self (.fulfillHtlc idx preimage) idx
        { (self.cnlAddHtlc idx).clearHtlcComrevflag .fulfill with bufPaymentPreimage := preimage }
  | failed {idx reason post} :
      SameHtlc (self.cnlAddHtlc idx) post →
      post.flag = { (self.cnlAddHtlc idx).flag.clearComrev .fail with delhtlc := .fail } →
      SlotChange crypto self (.failHtlc idx reason) idx post
  | resent {idx msg} : reestUpdateMsg (self.cnlAddHtlc idx) = some msg →
      SlotChange crypto self .reestablished idx
        ((self.cnlAddHtlc idx).setFlag fun flag => { flag with comsend := false, updsend := true })

/-! ### The events -/

theorem setSlot_setSlot (self : LnSelf) (idx : HtlcIdx) (first second : LnUpdateAddHtlc) :
    (self.setSlot idx first).setSlot idx second = self.setSlot idx second := by
  simp only [LnSelf.setSlot, Function.update_idem]

/-- The slot taken changes, the others are kept. -/
theorem SlotChange.of_setSlot {ev : ChannelEvent} {target : HtlcIdx} {post : LnUpdateAddHtlc}
    (hpost : SlotChange crypto self ev target post) (idx : HtlcIdx) :
    SlotChange crypto self ev idx ((self.setSlot target post).cnlAddHtlc idx) := by
  rw [LnSelf.setSlot_slot]
  split
  · rename_i hidx
    exact hidx ▸ hpost
  · exact .kept

/-- The slot keeps the message that was read into it, and all flags but `fin_delhtlc`
unless the callback has failed it. -/
theorem addHtlcBolt4_slot (crypto : Crypto) (self : LnSelf) (idx : HtlcIdx)
    (htlc : LnUpdateAddHtlc) (env : RecvEnv) :
    ∃ post, addHtlcBolt4 crypto self idx htlc env.onion env.answer = self.setSlot idx post ∧
      (post.id = htlc.id ∧ post.amountMsat = htlc.amountMsat ∧
        post.paymentSha256 = htlc.paymentSha256 ∧ post.cltvExpiry = htlc.cltvExpiry ∧
        post.flag.addhtlc = htlc.flag.addhtlc) ∧
      (refusedEarly self env = false →
        ∃ finDelhtlc, post.flag = { htlc.flag with finDelhtlc }) ∧
      (refusedEarly self env = true → post.flag =
        { htlc.flag.clearComrev .fail with delhtlc := .fail, finDelhtlc := .fail }) ∧
      NotForwarded htlc post := by
  cases hverdict : env.onion.verdict with
  | malformed reason =>
      have hearly : refusedEarly self env = false := by simp [refusedEarly, hverdict]
      simp only [addHtlcBolt4, hverdict, hearly]
      exact ⟨_, rfl, ⟨rfl, rfl, rfl, rfl, rfl⟩, fun _ => ⟨_, rfl⟩, by simp, .inl rfl⟩
  | fail reason =>
      have hearly : refusedEarly self env = false := by simp [refusedEarly, hverdict]
      simp only [addHtlcBolt4, hverdict, hearly]
      exact ⟨_, rfl, ⟨rfl, rfl, rfl, rfl, rfl⟩, fun _ => ⟨_, rfl⟩, by simp, .inl rfl⟩
  | final preimage =>
      have hearly : refusedEarly self env = false := by simp [refusedEarly, hverdict]
      simp only [addHtlcBolt4, hverdict, hearly]
      split_ifs
      · exact ⟨_, rfl, ⟨rfl, rfl, rfl, rfl, rfl⟩, fun _ => ⟨_, rfl⟩, by simp, .inr rfl⟩
      · exact ⟨_, rfl, ⟨rfl, rfl, rfl, rfl, rfl⟩, fun _ => ⟨_, rfl⟩, by simp, .inr rfl⟩
  | forward shortChannelId amtToForward outgoingCltvValue =>
      simp only [addHtlcBolt4, hverdict]
      split_ifs with hshutdown
      · have hearly : refusedEarly self env = false := by
          simp only [refusedEarly]
          split <;> simp_all
        rw [hearly]
        exact ⟨_, rfl, ⟨rfl, rfl, rfl, rfl, rfl⟩, fun _ => ⟨_, rfl⟩, by simp, .inl rfl⟩
      · cases hanswer : env.answer with
        | accepted nextIdx =>
            have hearly : refusedEarly self env = false := by simp [refusedEarly, hverdict, hanswer]
            rw [hearly]
            exact ⟨_, rfl, ⟨rfl, rfl, rfl, rfl, rfl⟩, fun _ => ⟨htlc.flag.finDelhtlc, rfl⟩,
              by simp, .inl rfl⟩
        | refused reason =>
            have hearly : refusedEarly self env = false := by simp [refusedEarly, hverdict, hanswer]
            rw [hearly]
            exact ⟨_, rfl, ⟨rfl, rfl, rfl, rfl, rfl⟩, fun _ => ⟨_, rfl⟩, by simp, .inl rfl⟩
        | refusedTempNode tempReason reason =>
            have hearly : refusedEarly self env = true := by
              simp_all [refusedEarly]
            simp only [lnFailHtlcSet, setSlot_setSlot, hearly]
            refine ⟨_, rfl, ?_, by simp, fun _ => ?_, ?_⟩
            · simp only [addHtlcWillFail, LnSelf.setSlot_slot, if_pos,
                LnUpdateAddHtlc.clearHtlcComrevflag, LnHtlcflag.clearComrev]
              split <;> simp only [and_self]
            · simp only [addHtlcWillFail, LnSelf.setSlot_slot, if_pos,
                LnUpdateAddHtlc.clearHtlcComrevflag]
            · left
              simp only [addHtlcWillFail, LnSelf.setSlot_slot, if_pos,
                LnUpdateAddHtlc.clearHtlcComrevflag]

theorem recvUpdateAddHtlc_slotChange (channelId : Bytes) (env : RecvEnv) (id : Nat)
    (amountMsat : UInt64) (paymentSha256 : Bytes) (cltvExpiry : UInt32) (packet : Bytes)
    (idx : HtlcIdx) :
    SlotChange crypto self
      (.recv channelId (.updateAddHtlc id amountMsat paymentSha256 cltvExpiry packet) env) idx
      ((recvUpdateAddHtlc crypto self channelId id amountMsat paymentSha256 cltvExpiry packet
        env.onion env.answer).self.cnlAddHtlc idx) := by
  rw [recvUpdateAddHtlc]
  split
  · exact .kept
  · rename_i target htarget
    simp only
    split_ifs with hid hbolt2
    · exact .of_setSlot (.read htarget) idx
    · exact .of_setSlot (.read htarget) idx
    · have haccepted : acceptedSlot self channelId id amountMsat paymentSha256 cltvExpiry packet =
          some target := by
        simp_all [acceptedSlot, Option.filter, LnUpdateAddHtlc.read]
      obtain ⟨post, hpost, ⟨hid, hamount, hhash, hcltv, hadd⟩, hflag, hfail, hprev⟩ :=
        addHtlcBolt4_slot crypto _ target _ env
      rw [hpost, setSlot_setSlot]
      refine .of_setSlot ?_ idx
      cases hearly : refusedEarly self env with
      | false =>
          exact .received haccepted hearly ⟨hid, hamount, hhash, hcltv⟩ (hflag hearly) hprev
      | true =>
          exact .receivedFailed haccepted hearly ⟨hid, hamount, hhash, hcltv, hadd⟩
            ⟨_, rfl, hfail hearly⟩ hprev

theorem recvRemoval_slotChange {channelId : Bytes} {env : RecvEnv} {msg : LnMsg} {id : Nat}
    {delHtlc : LnDelhtlc} (hmsg : msg.removal = some (id, delHtlc)) (idx : HtlcIdx) :
    SlotChange crypto self (.recv channelId msg env) idx
      ((recvFunc crypto self channelId env msg).self.cnlAddHtlc idx) := by
  have hremoving {target : HtlcIdx} {trace : List Effect} (hchannel : ¬ channelId ≠ self.channelId)
      (htarget : findOffered self.cnlAddHtlc id = some target) :
      SlotChange crypto self (.recv channelId msg env) idx
        ((⟨true, self.setSlot target ((self.cnlAddHtlc target).clearHtlcComrevflag delHtlc),
          trace⟩ : Outcome).self.cnlAddHtlc idx) :=
    .of_setSlot (.removing (not_not.mp hchannel) hmsg htarget) idx
  cases msg with
  | updateFulfillHtlc id preimage =>
      obtain ⟨rfl, rfl⟩ := Prod.mk.inj (Option.some.inj hmsg)
      simp only [recvFunc, recvUpdateFulfillHtlc]
      split_ifs with hchannel
      · exact .kept
      · split
        · exact .kept
        · rename_i target htarget
          split
          · exact hremoving hchannel htarget
          · exact .kept
  | updateFailHtlc id reason =>
      obtain ⟨rfl, rfl⟩ := Prod.mk.inj (Option.some.inj hmsg)
      simp only [recvFunc, recvUpdateFailHtlc]
      split_ifs with hchannel
      · exact .kept
      · split
        · exact .kept
        · rename_i target htarget
          exact hremoving hchannel htarget
  | updateFailMalformedHtlc id sha256Onion failureCode =>
      obtain ⟨rfl, rfl⟩ := Prod.mk.inj (Option.some.inj hmsg)
      simp only [recvFunc, recvUpdateFailMalformedHtlc]
      split_ifs with hchannel
      · exact .kept
      · exact .kept
      · split
        · exact .kept
        · rename_i target htarget
          exact hremoving hchannel htarget
  | _ => simp [LnMsg.removal] at hmsg

theorem recvCommitmentSigned_slotChange {channelId sig : Bytes} {htlcSigs : List Bytes}
    {env : RecvEnv} (idx : HtlcIdx) :
    SlotChange crypto self (.recv channelId (.commitmentSigned sig htlcSigs) env) idx
      ((recvCommitmentSigned crypto self channelId sig htlcSigs).self.cnlAddHtlc idx) := by
  obtain ⟨slots, txid, htlcNum, hself, hslots⟩ := createToLocal_changes crypto
    { self with commitLocal := { self.commitLocal with signature := sig } } htlcSigs
    (self.commitLocal.commitNum + 1) self.commitRemote.toSelfDelay self.commitLocal.dustLimitSat
  obtain ⟨signature, hidx⟩ := hslots idx
  simp only [recvCommitmentSigned]
  split_ifs with hchannel hret
  · exact .kept
  · simp only [Outcome.reject, hself]
    rw [hidx]
    exact .signed
  · simp only [updateScriptkeys_slots, keysUpdateStorage_slots, LnSelf.mapSlots_slot, hself]
    rw [hidx]
    exact .committed

theorem recvFunc_slotChange (channelId : Bytes) (env : RecvEnv) (msg : LnMsg) (idx : HtlcIdx) :
    SlotChange crypto self (.recv channelId msg env) idx
      ((recvFunc crypto self channelId env msg).self.cnlAddHtlc idx) := by
  cases msg with
  | updateAddHtlc id amountMsat paymentSha256 cltvExpiry packet =>
      exact recvUpdateAddHtlc_slotChange channelId env id amountMsat paymentSha256 cltvExpiry
        packet idx
  | updateFulfillHtlc id preimage => exact recvRemoval_slotChange rfl idx
  | updateFailHtlc id reason => exact recvRemoval_slotChange rfl idx
  | updateFailMalformedHtlc id sha256Onion failureCode => exact recvRemoval_slotChange rfl idx
  | commitmentSigned sig htlcSigs => exact recvCommitmentSigned_slotChange idx
  | revokeAndAck secret point =>
      simp only [recvFunc, recvRevokeAndAck]
      split_ifs
      · exact .kept
      · exact .kept
      · rw [storePeerPercommitSecret]
        cases lnDerkeyStorageInsertSecret crypto self.peerStorage secret self.peerStorageIndex with
        | none => exact .kept
        | some storage => exact .acked
  | updateFee feeratePerKw =>
      simp only [recvFunc, recvUpdateFee]
      split <;> exact .kept
  | fundingLocked perCommitpt =>
      simp only [recvFunc, recvFundingLocked]
      split <;> exact .kept
  | shutdown scriptpk =>
      obtain ⟨_, _, _, _, _, _, _, hself⟩ := (recvShutdown_closing crypto self
        channelId scriptpk).1
      rw [recvFunc, hself]
      exact .kept
  | closingSigned feeSat signature =>
      obtain ⟨_, _, _, _, _, _, _, hself⟩ := (recvClosingSigned_closing crypto self
        channelId feeSat signature env.broadcast).1
      rw [recvFunc, hself]
      exact .kept
  | channelReestablish reest =>
      simp only [recvFunc, recvChannelReestablish]
      repeat' split
      all_goals exact .kept

theorem lnRecvIdleProc_final (crypto : Crypto) (hall : AllComrev self) :
    lnRecvIdleProc crypto self = recvIdleProcFinal self ∨
      lnRecvIdleProc crypto self = ⟨true, self, []⟩ ∧
        ∀ idx, (self.cnlAddHtlc idx).enable = false := by
  simp only [lnRecvIdleProc]
  split_ifs with hempty hcomrev
  · right
    refine ⟨rfl, fun idx => ?_⟩
    simp only [List.isEmpty_iff, List.filter_eq_nil_iff] at hempty
    exact Bool.eq_false_iff.mpr (hempty idx (List.mem_finRange idx))
  · exact .inl rfl
  · refine absurd ?_ hcomrev
    simp only [List.all_eq_true, List.mem_filter, List.mem_finRange, true_and]
    exact hall

theorem lnRecvIdleProc_nonfinal (hnot : ¬ AllComrev self) :
    lnRecvIdleProc crypto self = recvIdleProcNonfinal crypto self := by
  simp only [lnRecvIdleProc]
  split_ifs with hempty hcomrev
  · refine absurd (fun idx henable => ?_) hnot
    simp only [List.isEmpty_iff, List.filter_eq_nil_iff] at hempty
    exact absurd henable (hempty idx (List.mem_finRange idx))
  · refine absurd (fun idx henable => ?_) hnot
    exact List.all_eq_true.mp hcomrev idx (List.mem_filter.mpr ⟨List.mem_finRange idx, henable⟩)
  · rfl

theorem lnRecvIdleProc_slotChange (idx : HtlcIdx) :
    SlotChange crypto self .idle idx ((lnRecvIdleProc crypto self).self.cnlAddHtlc idx) := by
  simp only [lnRecvIdleProc]
  split_ifs with hnone hall
  · exact .kept
  · refine .finalised fun idx henable => ?_
    exact List.all_eq_true.mp hall idx
      (List.mem_filter.mpr ⟨List.mem_finRange idx, henable⟩)
  · simp only [recvIdleProcNonfinal, idleSendComsig]
    split_ifs with hcomsiging hcomsig
    · exact .kept
    all_goals
      have hquiet : ¬ AnyComsiging self := by
        rintro ⟨other, hother⟩
        exact hcomsiging (List.any_eq_true.mpr ⟨other, List.mem_finRange other, hother⟩)
    · split
      · exact .updated hquiet
      · exact .comsent hquiet
    · exact .updated hquiet

theorem setAddHtlc_slots (crypto : Crypto) (self : LnSelf) (req : AddHtlcRequest) :
    (setAddHtlc crypto self req = (none, self)) ∨
      ∃ idx, checkCreateAddHtlc self req.amountMsat req.cltvValue = some idx ∧
        (setAddHtlc crypto self req =
            (some idx, { self.setSlot idx (requestedSlot self idx req) with
              htlcIdNum := self.htlcIdNum + 1 }) ∨
          setAddHtlc crypto self req =
            (none, { self.setSlot idx {} with htlcIdNum := self.htlcIdNum + 1 })) := by
  simp only [setAddHtlc]
  split
  · exact .inl rfl
  · rename_i idx hcheck
    refine .inr ⟨idx, hcheck, ?_⟩
    split_ifs
    · exact .inl rfl
    · refine .inr (congrArg (Prod.mk none) ?_)
      simp only [LnSelf.setSlot, Function.update_idem]

/-- Every slot of the state an event leaves comes from the slot before by one of the
listed changes. -/
theorem handle_slotChange (crypto : Crypto) (self : LnSelf) (ev : ChannelEvent) (idx : HtlcIdx) :
    SlotChange crypto self ev idx ((handle crypto self ev).self.cnlAddHtlc idx) := by
  cases ev with
  | recv channelId msg env =>
      rw [handle, lnRecv]
      split
      · exact recvFunc_slotChange channelId env msg idx
      · exact .kept
  | idle => exact lnRecvIdleProc_slotChange idx
  | addHtlc req =>
      simp only [handle, lnAddHtlcSet]
      split
      · exact .kept
      · rename_i hshutdown
        rcases setAddHtlc_slots crypto self req with
          hnone | ⟨target, hcheck, hset | hset⟩
        · rw [hnone]
          exact .kept
        · have haccepted : (lnAddHtlcSet crypto self req).1 = some target := by
            rw [lnAddHtlcSet, if_neg hshutdown, hset]
          rw [hset]
          have hslot := SlotChange.of_setSlot (.offered hcheck haccepted) idx
          simp only [lnAddHtlcStartFwd, LnSelf.setSlot, Function.update_self,
            Function.update_idem] at hslot ⊢
          exact hslot
        · rw [hset]
          exact .of_setSlot (.dropped hcheck) idx
  | addHtlcFwd req =>
      simp only [handle, lnAddHtlcSetFwd]
      split
      · exact .kept
      · rename_i hshutdown
        rcases setAddHtlc_slots crypto self req with
          hnone | ⟨target, hcheck, hset | hset⟩
        · rw [hnone]
          exact .kept
        · have haccepted : (lnAddHtlcSetFwd crypto self req).1 = some target := by
            rw [lnAddHtlcSetFwd, if_neg hshutdown, hset]
          rw [hset]
          exact .of_setSlot (.reserved hcheck haccepted) idx
        · rw [hset]
          exact .of_setSlot (.droppedFwd hcheck) idx
  | startFwd target => exact .of_setSlot .started idx
  | fulfillHtlc target preimage => exact .of_setSlot .fulfilled idx
  | failHtlc target reason =>
      refine .of_setSlot (.failed ?_ ?_) idx
      · simp only [LnUpdateAddHtlc.clearHtlcComrevflag, LnHtlcflag.clearComrev]
        constructor <;> simp only
        split <;> rfl
      · rfl
  | shutdown fee => exact .kept
  | reestablished =>
      have hresent : SlotChange crypto self .reestablished idx
          ((reestResendUpdate self).self.cnlAddHtlc idx) := by
        rw [reestResendUpdate]
        split
        · exact .kept
        · rename_i target msg hfind
          obtain ⟨other, -, hother⟩ := List.exists_of_findSome?_eq_some hfind
          obtain ⟨msg', hmsg, heq⟩ := Option.map_eq_some_iff.mp hother
          obtain ⟨rfl, rfl⟩ := Prod.mk.inj heq
          exact .of_setSlot (.resent hmsg) idx
      simp only [handle, lnChannelReestablishAfter]
      split_ifs
      · exact hresent
      · exact hresent
      · exact .kept
      · exact .kept

/-! ### Events that touch nothing else -/

/-- Only slots differ, and the next id. -/
def OnlySlots (before after : LnSelf) : Prop :=
  ∃ slots htlcIdNum, after = { before with cnlAddHtlc := slots, htlcIdNum }

/-- The updates of HTLCs: received, or requested by the application. -/
def ChannelEvent.isUpdate : ChannelEvent → Bool
  | .recv _ (.updateAddHtlc ..) _ => true
  | .recv _ msg _ => msg.removal.isSome
  | .addHtlc _ => true
  | .addHtlcFwd _ => true
  | .startFwd _ => true
  | .fulfillHtlc .. => true
  | .failHtlc .. => true
  | _ => false

theorem recvUpdateAddHtlc_onlySlots (channelId : Bytes) (env : RecvEnv) (id : Nat)
    (amountMsat : UInt64) (paymentSha256 : Bytes) (cltvExpiry : UInt32) (packet : Bytes) :
    OnlySlots self (recvUpdateAddHtlc crypto self channelId id amountMsat paymentSha256
      cltvExpiry packet env.onion env.answer).self := by
  rw [recvUpdateAddHtlc]
  split
  · exact ⟨_, _, rfl⟩
  · rename_i target _
    simp only
    split_ifs
    · exact ⟨_, _, rfl⟩
    · exact ⟨_, _, rfl⟩
    · obtain ⟨post, hpost, -⟩ := addHtlcBolt4_slot crypto _ target _ env
      rw [hpost]
      exact ⟨_, _, rfl⟩

theorem handle_onlySlots {ev : ChannelEvent} (hupdate : ev.isUpdate = true) :
    OnlySlots self (handle crypto self ev).self := by
  cases ev with
  | recv channelId msg env =>
      rw [handle, lnRecv]
      split
      · cases msg with
        | updateAddHtlc id amountMsat paymentSha256 cltvExpiry packet =>
            exact recvUpdateAddHtlc_onlySlots channelId env id amountMsat paymentSha256 cltvExpiry
              packet
        | updateFulfillHtlc id preimage =>
            simp only [recvFunc, recvUpdateFulfillHtlc]
            repeat' split
            all_goals exact ⟨_, _, rfl⟩
        | updateFailHtlc id reason =>
            simp only [recvFunc, recvUpdateFailHtlc]
            repeat' split
            all_goals exact ⟨_, _, rfl⟩
        | updateFailMalformedHtlc id sha256Onion failureCode =>
            simp only [recvFunc, recvUpdateFailMalformedHtlc]
            repeat' split
            all_goals exact ⟨_, _, rfl⟩
        | _ => simp [ChannelEvent.isUpdate, LnMsg.removal] at hupdate
      · exact ⟨_, _, rfl⟩
  | addHtlc req =>
      simp only [handle, lnAddHtlcSet]
      split
      · exact ⟨_, _, rfl⟩
      · rcases setAddHtlc_slots crypto self req with hset | ⟨_, _, hset | hset⟩
        all_goals
          rw [hset]
          exact ⟨_, _, rfl⟩
  | addHtlcFwd req =>
      simp only [handle, lnAddHtlcSetFwd]
      split
      · exact ⟨_, _, rfl⟩
      · rcases setAddHtlc_slots crypto self req with hset | ⟨_, _, hset | hset⟩
        all_goals
          rw [hset]
          exact ⟨_, _, rfl⟩
  | startFwd idx => exact ⟨_, _, rfl⟩
  | fulfillHtlc idx preimage => exact ⟨_, _, rfl⟩
  | failHtlc idx reason => exact ⟨_, _, rfl⟩
  | _ => simp [ChannelEvent.isUpdate] at hupdate

/-! ### Events other than closing ones -/

/-- The fields that the operation of a channel writes. -/
def OperationChange (before after : LnSelf) : Prop :=
  ∃ slots htlcIdNum ourMsat theirMsat commitLocal commitRemote privData peerStorage
    peerStorageIndex fundingLocal fundingRemote reestCommitNum reestRevokeNum,
    after = { before with
      cnlAddHtlc := slots
      htlcIdNum, ourMsat, theirMsat, commitLocal, commitRemote, privData, peerStorage
      peerStorageIndex, fundingLocal, fundingRemote, reestCommitNum, reestRevokeNum }

theorem OperationChange.refl (self : LnSelf) : OperationChange self self :=
  ⟨_, _, _, _, _, _, _, _, _, _, _, _, _, rfl⟩

theorem OperationChange.trans {before mid after : LnSelf} (hfirst : OperationChange before mid)
    (hsecond : OperationChange mid after) : OperationChange before after := by
  obtain ⟨_, _, _, _, _, _, _, _, _, _, _, _, _, rfl⟩ := hfirst
  obtain ⟨_, _, _, _, _, _, _, _, _, _, _, _, _, rfl⟩ := hsecond
  exact ⟨_, _, _, _, _, _, _, _, _, _, _, _, _, rfl⟩

theorem OnlySlots.operation {before after : LnSelf} (honly : OnlySlots before after) :
    OperationChange before after := by
  obtain ⟨_, _, rfl⟩ := honly
  exact ⟨_, _, _, _, _, _, _, _, _, _, _, _, _, rfl⟩

theorem OperationChange.mapSlots (self : LnSelf) (rewrite : LnUpdateAddHtlc → LnUpdateAddHtlc) :
    OperationChange self (self.mapSlots rewrite) :=
  ⟨_, _, _, _, _, _, _, _, _, _, _, _, _, rfl⟩

theorem OperationChange.newKeys (crypto : Crypto) (self : LnSelf) :
    OperationChange self ((self.keysUpdateStorage crypto).updateScriptkeys crypto) :=
  ⟨_, _, _, _, _, _, _, _, _, _, _, _, _, rfl⟩

/-- The feerate that the event brings. -/
def ChannelEvent.feerate : ChannelEvent → Option UInt32
  | .recv _ (.updateFee feeratePerKw) _ => some feeratePerKw
  | _ => none

theorem recvFunc_operation (channelId : Bytes) (env : RecvEnv) (msg : LnMsg)
    (hupdate : ¬ (ChannelEvent.recv channelId msg env).isUpdate = true)
    (hclosing : (ChannelEvent.recv channelId msg env).isClosing = false)
    (hfee : (ChannelEvent.recv channelId msg env).feerate = none) :
    OperationChange self (recvFunc crypto self channelId env msg).self := by
  cases msg with
  | commitmentSigned sig htlcSigs =>
      obtain ⟨slots, txid, htlcNum, hself, -⟩ := createToLocal_changes crypto
        { self with commitLocal := { self.commitLocal with signature := sig } } htlcSigs
        (self.commitLocal.commitNum + 1) self.commitRemote.toSelfDelay
        self.commitLocal.dustLimitSat
      have hcreated : OperationChange self (createToLocal crypto
          { self with commitLocal := { self.commitLocal with signature := sig } } htlcSigs
          (self.commitLocal.commitNum + 1) self.commitRemote.toSelfDelay
          self.commitLocal.dustLimitSat).2 := by
        rw [hself]
        exact ⟨_, _, _, _, _, _, _, _, _, _, _, _, _, rfl⟩
      simp only [recvFunc, recvCommitmentSigned]
      generalize createToLocal crypto _ htlcSigs _ _ _ = created at hcreated ⊢
      split_ifs
      · exact .refl self
      · exact hcreated.trans ⟨_, _, _, _, _, _, _, _, _, _, _, _, _, rfl⟩
      · have hmarked := hcreated.trans (.mapSlots created.2 fun htlc =>
          htlc.setFlagIf LnHtlcflag.localCounted fun flag => { flag with comrecv := true })
        generalize created.2.mapSlots _ = marked at hmarked ⊢
        have hrenewed := hmarked.trans (.newKeys crypto marked)
        generalize (marked.keysUpdateStorage crypto).updateScriptkeys crypto = renewed
          at hrenewed ⊢
        exact hrenewed.trans ⟨_, _, _, _, _, _, _, _, _, _, _, _, _, rfl⟩
  | revokeAndAck secret point =>
      simp only [recvFunc, recvRevokeAndAck, storePeerPercommitSecret]
      split_ifs
      · exact .refl self
      · exact .refl self
      · cases lnDerkeyStorageInsertSecret crypto self.peerStorage secret self.peerStorageIndex with
        | none => exact .refl self
        | some storage => exact ⟨_, _, _, _, _, _, _, _, _, _, _, _, _, rfl⟩
  | fundingLocked perCommitpt =>
      simp only [recvFunc, recvFundingLocked]
      split <;> exact ⟨_, _, _, _, _, _, _, _, _, _, _, _, _, rfl⟩
  | channelReestablish reest =>
      simp only [recvFunc, recvChannelReestablish]
      repeat' split
      all_goals exact ⟨_, _, _, _, _, _, _, _, _, _, _, _, _, rfl⟩
  | updateFee feeratePerKw => cases hfee
  | shutdown scriptpk => cases hclosing
  | closingSigned feeSat signature => cases hclosing
  | _ => simp [ChannelEvent.isUpdate, LnMsg.removal] at hupdate

theorem handle_operation {ev : ChannelEvent} (hclosing : ev.isClosing = false)
    (hfee : ev.feerate = none) : OperationChange self (handle crypto self ev).self := by
  by_cases hupdate : ev.isUpdate = true
  · exact (handle_onlySlots hupdate).operation
  · cases ev with
    | recv channelId msg env =>
        rw [handle, lnRecv]
        split
        · exact recvFunc_operation channelId env msg hupdate hclosing hfee
        · exact .refl self
    | idle =>
        simp only [handle, lnRecvIdleProc]
        split_ifs
        · exact .refl self
        · exact ⟨_, _, _, _, _, _, _, _, _, _, _, _, _, rfl⟩
        · simp only [recvIdleProcNonfinal, idleSendComsig]
          repeat' split
          all_goals exact ⟨_, _, _, _, _, _, _, _, _, _, _, _, _, rfl⟩
    | reestablished =>
        simp only [handle, lnChannelReestablishAfter, reestResendUpdate]
        repeat' split
        all_goals exact ⟨_, _, _, _, _, _, _, _, _, _, _, _, _, rfl⟩
    | shutdown fee => cases hclosing
    | _ => simp [ChannelEvent.isUpdate] at hupdate

/-- A closing event changes only what closing a channel writes. -/
theorem handle_closing {ev : ChannelEvent} (hclosing : ev.isClosing = true) :
    ClosingChange self (handle crypto self ev).self := by
  cases ev with
  | recv channelId msg env =>
      rw [handle, lnRecv]
      split
      · cases msg with
        | shutdown scriptpk => exact (recvShutdown_closing crypto self channelId scriptpk).1
        | closingSigned feeSat signature =>
            exact (recvClosingSigned_closing crypto self channelId feeSat signature
              env.broadcast).1
        | _ => cases hclosing
      · exact .refl self
  | shutdown fee => exact ⟨_, _, _, _, _, _, _, rfl⟩
  | _ => cases hclosing

/-! ### Steps of a run -/

theorem Db.writes_slot {holds : LnUpdateAddHtlc → Prop} {idx : HtlcIdx}
    (hover : ∀ htlc old, holds htlc → holds (htlc.saveOver old)) {trace : List Effect} :
    ∀ {db : Db}, holds (db.chan.cnlAddHtlc idx) →
      (∀ saved, Effect.selfSave saved ∈ trace → holds (saved.cnlAddHtlc idx)) →
      holds ((db.writes trace).chan.cnlAddHtlc idx) := by
  induction trace with
  | nil =>
      intro db hdb _
      exact hdb
  | cons effect rest ih =>
      intro db hdb hsaved
      refine ih ?_ fun saved hmem => hsaved saved (List.mem_cons_of_mem _ hmem)
      cases effect with
      | selfSave saved => exact hover _ _ (hsaved saved (List.mem_cons_self ..))
      | _ => exact hdb

/-- A property of the channel that saving keeps holds in the database when it holds of all
that is saved. -/
theorem Db.writes_holds (holds : LnSelf → Prop)
    (hsave : ∀ (db : Db) (saved : LnSelf), holds saved → holds (db.saveSelf saved).chan)
    {trace : List Effect} :
    ∀ {db : Db}, holds db.chan → (∀ saved, Effect.selfSave saved ∈ trace → holds saved) →
      holds (db.writes trace).chan := by
  induction trace with
  | nil =>
      intro db hdb _
      exact hdb
  | cons effect rest ih =>
      intro db hdb hsaved
      refine ih ?_ fun saved hmem => hsaved saved (List.mem_cons_of_mem _ hmem)
      cases effect with
      | selfSave saved => exact hsave db saved (hsaved saved (List.mem_cons_self ..))
      | _ => exact hdb

theorem handle_saved_slots {ev : ChannelEvent} {saved : LnSelf}
    (hsaved : Effect.selfSave saved ∈ (handle crypto self ev).trace) :
    saved.cnlAddHtlc = (handle crypto self ev).self.cnlAddHtlc := by
  obtain ⟨_, _, _, _, _, _, _, hself⟩ := handle_saves crypto self ev saved hsaved
  rw [hself]

/-- What every event preserves, and what closing, saving and a restart leave alone, a step
of a run preserves in the channel and in its database.  An event during which the process
stops matters only if it saves. -/
theorem channelNext_holds {holds : LnSelf → Prop}
    (hclosing : ∀ saved final, ClosingChange saved final → holds final → holds saved)
    (hsave : ∀ (db : Db) (saved : LnSelf), holds saved → holds (db.saveSelf saved).chan)
    (hrestart : ∀ (db : Db) (dataloss : Bool), holds db.chan →
      holds { db.load crypto with initFlag := ⟨true, true⟩, lfeatureLocalDataloss := dataloss })
    {before after : ChannelState} {label : ChannelLabel}
    (hnext : channelNext crypto before label = some after)
    (hself : holds before.self) (hdb : holds before.db.chan)
    (hevent : ∀ ev, label = .event ev → holds (handle crypto before.self ev).self)
    (hstop : ∀ ev done, label = .stop ev done →
      (∃ saved, Effect.selfSave saved ∈ (handle crypto before.self ev).trace) →
      holds (handle crypto before.self ev).self) :
    holds after.self ∧ holds after.db.chan := by
  cases label with
  | event ev =>
      simp only [channelNext] at hnext
      split at hnext
      · obtain rfl := Option.some.inj hnext
        have hpost := hevent ev rfl
        refine ⟨hpost, Db.writes_holds holds hsave hdb fun saved hsaved => ?_⟩
        exact hclosing _ _ (handle_saves crypto before.self ev saved hsaved) hpost
      · cases hnext
  | stop ev done =>
      simp only [channelNext] at hnext
      split at hnext
      · obtain rfl := Option.some.inj hnext
        refine ⟨hself, Db.writes_holds holds hsave hdb fun saved hsaved => ?_⟩
        have hmem := List.mem_of_mem_take hsaved
        exact hclosing _ _ (handle_saves crypto before.self ev saved hmem)
          (hstop ev done rfl ⟨saved, hmem⟩)
      · cases hnext
  | restart dataloss =>
      obtain rfl := Option.some.inj hnext
      exact ⟨hrestart before.db dataloss hdb, hdb⟩

/-- What every change of a slot preserves, and being saved, a step of a run preserves
in the channel and in its database.  An event during which the process stops
matters only if it saves. -/
theorem channelNext_slots {holds : HtlcIdx → LnUpdateAddHtlc → Prop}
    (hover : ∀ idx htlc old, holds idx htlc → holds idx (htlc.saveOver old))
    {before after : ChannelState} {label : ChannelLabel}
    (hnext : channelNext crypto before label = some after)
    (hself : ∀ idx, holds idx (before.self.cnlAddHtlc idx))
    (hdb : ∀ idx, holds idx (before.db.chan.cnlAddHtlc idx))
    (hevent : ∀ ev, label = .event ev →
      ∀ idx post, SlotChange crypto before.self ev idx post → holds idx post)
    (hstop : ∀ ev done, label = .stop ev done →
      (∃ saved, Effect.selfSave saved ∈ (handle crypto before.self ev).trace) →
      ∀ idx post, SlotChange crypto before.self ev idx post → holds idx post) :
    (∀ idx, holds idx (after.self.cnlAddHtlc idx)) ∧
      ∀ idx, holds idx (after.db.chan.cnlAddHtlc idx) := by
  cases label with
  | event ev =>
      simp only [channelNext] at hnext
      split at hnext
      · obtain rfl := Option.some.inj hnext
        have hpost := fun idx => hevent ev rfl idx _ (handle_slotChange crypto _ ev idx)
        refine ⟨hpost, fun idx => Db.writes_slot (hover idx) (hdb idx) fun saved hsaved => ?_⟩
        rw [handle_saved_slots hsaved]
        exact hpost idx
      · cases hnext
  | stop ev done =>
      simp only [channelNext] at hnext
      split at hnext
      · obtain rfl := Option.some.inj hnext
        refine ⟨hself, fun idx => Db.writes_slot (hover idx) (hdb idx) fun saved hsaved => ?_⟩
        have hmem := List.mem_of_mem_take hsaved
        rw [handle_saved_slots hmem]
        exact hstop ev done rfl ⟨saved, hmem⟩ idx _ (handle_slotChange crypto _ ev idx)
      · cases hnext
  | restart dataloss =>
      obtain rfl := Option.some.inj hnext
      exact ⟨hdb, hdb⟩

end Ptarmigan
