/-
A received `commitment_signed`, from its bytes: when it is accepted, and what a rejected one leaves
behind.
-/
import Mathlib.Data.List.TakeWhile
import Ptarmigan.FundingKey
import Ptarmigan.OperationMsg

namespace Ptarmigan

open WireReader TransitionSystem

variable {crypto : Crypto} {self : LnSelf}

/-- `recv_commitment_signed`; `none` is a message that is read past its end. -/
def recvCommitmentSignedBytes (crypto : Crypto) (self : LnSelf) (data : Bytes) : Option Outcome :=
  match readWith lnMsgCommitSignedRead data with
  | .fault _ => none
  | .refused _ => some (.reject self)
  | .done msg _ =>
      some (recvCommitmentSigned crypto self msg.channelId msg.signature msg.htlcSignatures)

@[simp] theorem LnUpdateAddHtlc.setFlagIf_signature (htlc : LnUpdateAddHtlc)
    (picked : LnHtlcflag → Bool) (rewrite : LnHtlcflag → LnHtlcflag) :
    (htlc.setFlagIf picked rewrite).signature = htlc.signature := by
  rw [LnUpdateAddHtlc.setFlagIf]
  split <;> rfl

/-! ### The next local commitment -/

namespace LnSelf

/-- The commitment transaction that `recv_commitment_signed` checks a signature against. -/
def nextLocal (crypto : Crypto) (self : LnSelf) : CommitBuild :=
  buildToLocal crypto self (self.commitLocal.commitNum + 1) self.commitRemote.toSelfDelay
    self.commitLocal.dustLimitSat

def nextTxid (crypto : Crypto) (self : LnSelf) : Bytes :=
  crypto.txid (self.nextLocal crypto).committx.tx

/-- Its HTLC outputs, in output order. -/
def nextHtlcs (crypto : Crypto) (self : LnSelf) : List (Nat × UInt64 × LnScriptHtlcinfo) :=
  htlcVouts (self.nextLocal crypto).committx.vout

/-- The channel with the received signature in the place of the old one. -/
def withSignature (self : LnSelf) (signature : Bytes) : LnSelf :=
  { self with commitLocal := { self.commitLocal with signature } }

/-- The transaction can be signed, and both signatures of the 2-of-2 verify. -/
def commitmentVerifies (crypto : Crypto) (self : LnSelf) (signature : Bytes) : Bool :=
  (signCommittx crypto self (self.nextLocal crypto).committx.tx).any fun bufSig =>
    createToLocalSignVerify crypto (self.withSignature signature)
      (self.nextLocal crypto).committx.tx bufSig

/-- The signature verifies for the transaction that spends the HTLC output. -/
def htlcVerifies (crypto : Crypto) (self : LnSelf) (signature : Bytes)
    (out : Nat × UInt64 × LnScriptHtlcinfo) : Bool :=
  let build := self.nextLocal crypto
  createToLocalHtlcverify crypto self
    (htlctxOf crypto build.feeinfo build.bufWs (self.nextTxid crypto) out) signature
    out.2.2.script out.2.1

/-- The HTLC outputs whose signatures verify, with their places, up to the first that does not. -/
def verifiedHtlcs (crypto : Crypto) (self : LnSelf) (htlcSigs : List Bytes) :
    List ((Nat × UInt64 × LnScriptHtlcinfo) × Nat) :=
  (self.nextHtlcs crypto).zipIdx.takeWhile fun (out, place) =>
    self.htlcVerifies crypto (htlcSigs.getD place []) out

/-- What the loop looks at: nothing, when the `uint8_t` that counts the signatures is 0. -/
def writtenHtlcs (crypto : Crypto) (self : LnSelf) (htlcSigs : List Bytes) :
    List ((Nat × UInt64 × LnScriptHtlcinfo) × Nat) :=
  if htlcSigs.length % 256 ≠ 0 then self.verifiedHtlcs crypto htlcSigs else []

/-- The number of HTLCs that is written in the end. -/
def writtenHtlcNum (crypto : Crypto) (self : LnSelf) (htlcSigs : List Bytes) : Nat :=
  if htlcSigs.length % 256 ≠ 0 then (self.verifiedHtlcs crypto htlcSigs).length
  else (self.nextHtlcs crypto).length

end LnSelf

/-- Each signature goes to the slot of its output. -/
def storeSignatures (htlcSigs : List Bytes)
    (verified : List ((Nat × UInt64 × LnScriptHtlcinfo) × Nat)) (slots : Slots) : Slots :=
  verified.foldl (fun slots entry =>
    let idx := entry.1.2.2.addHtlcIdx
    Function.update slots idx { slots idx with signature := htlcSigs.getD entry.2 [] }) slots

/-- The channel with what `create_to_local` has written by the time it fails, but for the commitment
signature. -/
def LnSelf.leftBehind (crypto : Crypto) (self : LnSelf) (htlcSigs : List Bytes) : LnSelf :=
  { self with
    cnlAddHtlc := storeSignatures htlcSigs (self.writtenHtlcs crypto htlcSigs) self.cnlAddHtlc
    commitLocal := { self.commitLocal with
      txid := self.nextTxid crypto
      htlcNum := (self.writtenHtlcNum crypto htlcSigs).toUInt16 } }

/-- The verifying loop stores what verifies up to the first signature that does not. -/
theorem createToLocalSpentVerify_eq (build : CommitBuild) (htlcSigs : List Bytes)
    (outs : List (Nat × UInt64 × LnScriptHtlcinfo)) (htlcNum : Nat) (slots : Slots) :
    createToLocalSpentVerify crypto self build htlcSigs outs htlcNum slots =
      let verified := (outs.zipIdx htlcNum).takeWhile fun (out, place) =>
        createToLocalHtlcverify crypto self
          (htlctxOf crypto build.feeinfo build.bufWs self.commitLocal.txid out)
          (htlcSigs.getD place []) out.2.2.script out.2.1
      (verified.length == outs.length, htlcNum + verified.length,
        storeSignatures htlcSigs verified slots) := by
  induction outs generalizing htlcNum slots with
  | nil => rfl
  | cons out rest ih =>
      rw [createToLocalSpentVerify, List.zipIdx_cons, List.takeWhile_cons]
      by_cases hverifies : createToLocalHtlcverify crypto self
          (htlctxOf crypto build.feeinfo build.bufWs self.commitLocal.txid out)
          (htlcSigs.getD htlcNum []) out.2.2.script out.2.1 = true
      · simp only [hverifies, if_true, ih, List.length_cons]
        simp only [storeSignatures, List.foldl_cons, Prod.mk.injEq, and_true]
        refine ⟨?_, by omega⟩
        simp [BEq.beq]
      · simp only [hverifies]
        rfl

/-- `create_to_local` once the commitment signature has verified. -/
theorem createToLocal_verified {signature : Bytes} (htlcSigs : List Bytes)
    (hverifies : self.commitmentVerifies crypto signature = true) :
    createToLocal crypto (self.withSignature signature) htlcSigs (self.commitLocal.commitNum + 1)
        self.commitRemote.toSelfDelay self.commitLocal.dustLimitSat =
      (decide ((self.nextHtlcs crypto).length = htlcSigs.length % 256 ∧
          (self.verifiedHtlcs crypto htlcSigs).length = (self.nextHtlcs crypto).length),
        (self.leftBehind crypto htlcSigs).withSignature signature) := by
  obtain ⟨bufSig, hsign, hcheck⟩ := (Option.any_eq_true _ _).mp hverifies
  have hbuild : buildToLocal crypto (self.withSignature signature) (self.commitLocal.commitNum + 1)
      self.commitRemote.toSelfDelay self.commitLocal.dustLimitSat = self.nextLocal crypto := rfl
  have hsigned : signCommittx crypto (self.withSignature signature)
      (self.nextLocal crypto).committx.tx = some bufSig := hsign
  have hloop : ((self.nextHtlcs crypto).zipIdx 0).takeWhile
      (fun (out, place) => createToLocalHtlcverify crypto
        { self.withSignature signature with
          commitLocal := { (self.withSignature signature).commitLocal with
            txid := crypto.txid (self.nextLocal crypto).committx.tx } }
        (htlctxOf crypto (self.nextLocal crypto).feeinfo (self.nextLocal crypto).bufWs
          (crypto.txid (self.nextLocal crypto).committx.tx) out)
        (htlcSigs.getD place []) out.2.2.script out.2.1) = self.verifiedHtlcs crypto htlcSigs := rfl
  have hinitial : (self.verifiedHtlcs crypto htlcSigs).length ≤ (self.nextHtlcs crypto).length := by
    have htaken := (List.takeWhile_sublist (l := (self.nextHtlcs crypto).zipIdx)
      fun (out, place) => self.htlcVerifies crypto (htlcSigs.getD place []) out).length_le
    rwa [List.length_zipIdx] at htaken
  have houts : htlcVouts (self.nextLocal crypto).committx.vout = self.nextHtlcs crypto := rfl
  rw [createToLocal_signed hbuild hsigned, if_pos hcheck]
  by_cases hnum : htlcSigs.length % 256 ≠ 0
  · simp only [createToLocalSpent, if_pos hnum, createToLocalSpentVerify_eq, hloop, houts,
      LnSelf.leftBehind, LnSelf.writtenHtlcs, LnSelf.writtenHtlcNum, Nat.zero_add]
    refine Prod.ext ?_ rfl
    rw [Bool.eq_iff_iff]
    simp only [Bool.and_eq_true, beq_iff_eq, decide_eq_true_eq]
    omega
  · simp only [createToLocalSpent, if_neg hnum, houts, LnSelf.leftBehind, LnSelf.writtenHtlcs,
      LnSelf.writtenHtlcNum]
    refine Prod.ext ?_ rfl
    rw [Bool.eq_iff_iff]
    simp only [Bool.true_and, beq_iff_eq, decide_eq_true_eq]
    omega

theorem createToLocal_unverified {signature : Bytes} (htlcSigs : List Bytes)
    (hverifies : self.commitmentVerifies crypto signature = false) :
    createToLocal crypto (self.withSignature signature) htlcSigs (self.commitLocal.commitNum + 1)
        self.commitRemote.toSelfDelay self.commitLocal.dustLimitSat =
      (false, self.withSignature signature) := by
  have hbuild : buildToLocal crypto (self.withSignature signature) (self.commitLocal.commitNum + 1)
      self.commitRemote.toSelfDelay self.commitLocal.dustLimitSat = self.nextLocal crypto := rfl
  have hsigned : signCommittx crypto (self.withSignature signature)
      (self.nextLocal crypto).committx.tx =
        signCommittx crypto self (self.nextLocal crypto).committx.tx := rfl
  rw [LnSelf.commitmentVerifies] at hverifies
  cases hsign : signCommittx crypto self (self.nextLocal crypto).committx.tx with
  | none => exact createToLocal_unsigned hbuild (hsigned.trans hsign)
  | some bufSig =>
      rw [hsign, Option.any_some] at hverifies
      rw [createToLocal_signed hbuild (hsigned.trans hsign), hverifies]
      rfl

/-- All the HTLC outputs have a signature that verifies, as far as a `uint8_t` counts them. -/
def LnSelf.HtlcsVerify (crypto : Crypto) (self : LnSelf) (htlcSigs : List Bytes) : Prop :=
  (self.nextHtlcs crypto).length = htlcSigs.length % 256 ∧
    (self.verifiedHtlcs crypto htlcSigs).length = (self.nextHtlcs crypto).length

/-- A message for another channel, or with a signature that does not verify. -/
theorem recvCommitmentSigned_refused {channelId signature : Bytes} {htlcSigs : List Bytes}
    (hrefused : channelId = self.channelId → self.commitmentVerifies crypto signature = false) :
    recvCommitmentSigned crypto self channelId signature htlcSigs = .reject self := by
  rw [recvCommitmentSigned]
  by_cases hchannel : channelId = self.channelId
  · rw [if_neg (not_not.mpr hchannel)]
    have hlocal := createToLocal_unverified htlcSigs (hrefused hchannel)
    simp only [LnSelf.withSignature] at hlocal
    simp only [hlocal]
    rfl
  · rw [if_pos hchannel]

/-- A message whose HTLC signatures do not fit: only the commitment signature is restored. -/
theorem recvCommitmentSigned_rejected {signature : Bytes} {htlcSigs : List Bytes}
    (hverifies : self.commitmentVerifies crypto signature = true)
    (hhtlcs : ¬ self.HtlcsVerify crypto htlcSigs) :
    recvCommitmentSigned crypto self self.channelId signature htlcSigs =
      .reject (self.leftBehind crypto htlcSigs) := by
  rw [recvCommitmentSigned, if_neg (not_not.mpr rfl)]
  have hlocal := createToLocal_verified htlcSigs hverifies
  rw [LnSelf.HtlcsVerify] at hhtlcs
  simp only [LnSelf.withSignature] at hlocal
  simp only [hlocal, decide_eq_false hhtlcs]
  rfl

/-- An accepted message keeps what the loop has stored. -/
theorem recvCommitmentSigned_accepted {signature : Bytes} {htlcSigs : List Bytes}
    (hverifies : self.commitmentVerifies crypto signature = true)
    (hhtlcs : self.HtlcsVerify crypto htlcSigs) :
    (recvCommitmentSigned crypto self self.channelId signature htlcSigs).ret = true ∧
      ∀ idx, ((recvCommitmentSigned crypto self self.channelId signature
          htlcSigs).self.cnlAddHtlc idx).signature =
        (storeSignatures htlcSigs (self.writtenHtlcs crypto htlcSigs) self.cnlAddHtlc
          idx).signature := by
  rw [recvCommitmentSigned, if_neg (not_not.mpr rfl)]
  have hlocal := createToLocal_verified htlcSigs hverifies
  rw [LnSelf.HtlcsVerify] at hhtlcs
  simp only [LnSelf.withSignature] at hlocal
  simp only [hlocal, decide_eq_true hhtlcs]
  refine ⟨rfl, fun idx => ?_⟩
  simp only [Bool.not_true, Bool.false_eq_true, if_false, LnSelf.mapSlots_slot,
    updateScriptkeys_slots, keysUpdateStorage_slots, LnUpdateAddHtlc.setFlagIf_signature,
    LnSelf.leftBehind]

/-! ### The slots of the outputs -/

/-- The HTLC that an output pays to. -/
def BtcVout.htlc (out : BtcVout) : Option LnScriptHtlcinfo :=
  match out.opt with
  | .htlc info => some info
  | .tolocal => none
  | .toremote => none

theorem htlcVouts_infos (vout : List BtcVout) :
    (htlcVouts vout).map (fun out => out.2.2) = vout.filterMap BtcVout.htlc := by
  have hfst : vout.zipIdx.map Prod.fst = vout := List.zipIdx_map_fst 0 vout
  conv_rhs => rw [← hfst, List.filterMap_map]
  rw [htlcVouts, List.map_filterMap]
  apply List.filterMap_congr
  rintro ⟨⟨value, script, opt⟩, index⟩ _
  cases opt <;> rfl

/-- The HTLCs of the outputs are the ones that are not trimmed, in another order. -/
theorem htlcVouts_perm (crypto : Crypto) (cmt : LnScriptCommittx) (isLocal : Bool) :
    ((htlcVouts (lnScriptCommittxCreate crypto cmt isLocal).vout).map fun out => out.2.2).Perm
      (cmt.htlcinfo.filter cmt.feeinfo.untrimmed) := by
  have hsorted := (ExchangeSort.sort_perm BtcVout.gt (cmt.outputs crypto isLocal)).filterMap
    BtcVout.htlc
  rw [htlcVouts_infos]
  apply hsorted.trans
  have hone : ∀ (pays : Prop) [Decidable pays] (out : BtcVout), out.htlc = none →
      (if pays then [out] else []).filterMap BtcVout.htlc = [] := by
    intro pays _ out hnone
    split
    · rw [List.filterMap_cons_none hnone, List.filterMap_nil]
    · rfl
  have hhtlcs : ∀ infos : List LnScriptHtlcinfo,
      (infos.map fun info => (⟨info.amountMsat / 1000, crypto.p2wsh info.script, .htlc info⟩ :
        BtcVout)).filterMap BtcVout.htlc = infos := by
    intro infos
    rw [List.filterMap_map]
    exact List.filterMap_some
  simp only [LnScriptCommittx.outputs, List.filterMap_append, hhtlcs]
  rw [hone _ _ rfl, hone _ _ rfl]
  rfl

theorem nextHtlcs_perm (crypto : Crypto) (self : LnSelf) :
    ((self.nextHtlcs crypto).map fun out => out.2.2).Perm
      (((createToLocalHtlcinfoAmount self).htlcinfo.map
        (lnScriptHtlcinfoScript crypto self.fundingLocal.scriptpubkeys)).filter
          (self.nextLocal crypto).feeinfo.untrimmed) :=
  htlcVouts_perm crypto _ _

theorem nextHtlcs_length_le (crypto : Crypto) (self : LnSelf) :
    (self.nextHtlcs crypto).length ≤ lnHtlcMax := by
  have hlength := (nextHtlcs_perm crypto self).length_eq
  rw [List.length_map] at hlength
  rw [hlength]
  apply (List.length_filter_le _ _).trans
  rw [List.length_map]
  exact htlcinfoAmount_length_le localSelect self.cnlAddHtlc self.ourMsat self.theirMsat

/-- No two HTLC outputs belong to the same slot. -/
theorem nextHtlcs_nodup (crypto : Crypto) (self : LnSelf) :
    ((self.nextHtlcs crypto).map fun out => out.2.2.addHtlcIdx).Nodup := by
  let amount := createToLocalHtlcinfoAmount self
  let keys := self.fundingLocal.scriptpubkeys
  have hslots : (amount.htlcinfo.map LnScriptHtlcinfo.addHtlcIdx).Nodup := by
    have hcollected := htlcinfoAmount_slots localSelect self.cnlAddHtlc self.ourMsat self.theirMsat
    change (amount.htlcinfo.map LnScriptHtlcinfo.addHtlcIdx) = _ at hcollected
    rw [hcollected]
    exact (List.nodup_finRange lnHtlcMax).filter _
  have hscripts : (amount.htlcinfo.map (lnScriptHtlcinfoScript crypto keys)).map
      LnScriptHtlcinfo.addHtlcIdx = amount.htlcinfo.map LnScriptHtlcinfo.addHtlcIdx := by
    rw [List.map_map]
    rfl
  have hidx := (nextHtlcs_perm crypto self).map LnScriptHtlcinfo.addHtlcIdx
  rw [List.map_map] at hidx
  apply hidx.nodup_iff.mpr
  apply (List.filter_sublist.map LnScriptHtlcinfo.addHtlcIdx).nodup
  rw [hscripts]
  exact hslots

theorem storeSignatures_other (htlcSigs : List Bytes)
    {verified : List ((Nat × UInt64 × LnScriptHtlcinfo) × Nat)} {idx : HtlcIdx}
    (hother : ∀ entry ∈ verified, entry.1.2.2.addHtlcIdx ≠ idx) (slots : Slots) :
    storeSignatures htlcSigs verified slots idx = slots idx := by
  induction verified generalizing slots with
  | nil => rfl
  | cons entry rest ih =>
      have hrest := ih (fun entry hmem => hother entry (List.mem_cons_of_mem _ hmem))
        (Function.update slots entry.1.2.2.addHtlcIdx
          { slots entry.1.2.2.addHtlcIdx with signature := htlcSigs.getD entry.2 [] })
      rw [Function.update_of_ne (hother entry List.mem_cons_self).symm] at hrest
      exact hrest

/-- What is stored for outputs of different slots. -/
theorem storeSignatures_slot (htlcSigs : List Bytes)
    {verified : List ((Nat × UInt64 × LnScriptHtlcinfo) × Nat)}
    (hnodup : (verified.map fun entry => entry.1.2.2.addHtlcIdx).Nodup)
    {entry : (Nat × UInt64 × LnScriptHtlcinfo) × Nat} (hmem : entry ∈ verified) (slots : Slots) :
    storeSignatures htlcSigs verified slots entry.1.2.2.addHtlcIdx =
      { slots entry.1.2.2.addHtlcIdx with signature := htlcSigs.getD entry.2 [] } := by
  induction verified generalizing slots with
  | nil => cases hmem
  | cons first rest ih =>
      rw [List.map_cons, List.nodup_cons] at hnodup
      obtain ⟨hfirst, hrest⟩ := hnodup
      rcases List.mem_cons.mp hmem with rfl | hmem
      · have hother : ∀ other ∈ rest, other.1.2.2.addHtlcIdx ≠ entry.1.2.2.addHtlcIdx := by
          intro other hother heq
          exact hfirst (List.mem_map.mpr ⟨other, hother, heq⟩)
        have hkept := storeSignatures_other htlcSigs hother
          (Function.update slots entry.1.2.2.addHtlcIdx
            { slots entry.1.2.2.addHtlcIdx with signature := htlcSigs.getD entry.2 [] })
        rw [Function.update_self] at hkept
        exact hkept
      · have hne : entry.1.2.2.addHtlcIdx ≠ first.1.2.2.addHtlcIdx := by
          intro heq
          exact hfirst (List.mem_map.mpr ⟨entry, hmem, heq⟩)
        have hstored := ih hrest hmem (Function.update slots first.1.2.2.addHtlcIdx
          { slots first.1.2.2.addHtlcIdx with signature := htlcSigs.getD first.2 [] })
        rw [Function.update_of_ne hne] at hstored
        exact hstored

theorem writtenHtlcs_nodup (crypto : Crypto) (self : LnSelf) (htlcSigs : List Bytes) :
    ((self.writtenHtlcs crypto htlcSigs).map fun entry => entry.1.2.2.addHtlcIdx).Nodup := by
  have hall : ((self.nextHtlcs crypto).zipIdx.map fun entry => entry.1.2.2.addHtlcIdx).Nodup := by
    have hidx := nextHtlcs_nodup crypto self
    rwa [← List.zipIdx_map_fst 0 (self.nextHtlcs crypto), List.map_map] at hidx
  rw [LnSelf.writtenHtlcs]
  split
  · apply ((List.takeWhile_sublist _).map _).nodup
    exact hall
  · exact List.nodup_nil

theorem storeSignatures_eq_self_iff (htlcSigs : List Bytes)
    {verified : List ((Nat × UInt64 × LnScriptHtlcinfo) × Nat)}
    (hnodup : (verified.map fun entry => entry.1.2.2.addHtlcIdx).Nodup) (slots : Slots) :
    storeSignatures htlcSigs verified slots = slots ↔
      ∀ entry ∈ verified,
        (slots entry.1.2.2.addHtlcIdx).signature = htlcSigs.getD entry.2 [] := by
  constructor
  · intro hsame entry hmem
    have hslot := storeSignatures_slot htlcSigs hnodup hmem slots
    rw [hsame] at hslot
    exact congrArg LnUpdateAddHtlc.signature hslot
  · intro hstored
    funext idx
    by_cases hmem : ∃ entry ∈ verified, entry.1.2.2.addHtlcIdx = idx
    · obtain ⟨entry, hmem, rfl⟩ := hmem
      rw [storeSignatures_slot htlcSigs hnodup hmem, ← hstored entry hmem]
    · apply storeSignatures_other
      intro entry hentry hidx
      exact hmem ⟨entry, hentry, hidx⟩

/-! ### A rejected message -/

/-- What a rejected `commitment_signed` must not touch. -/
structure Untouched (before : LnSelf) (outcome : Outcome) : Prop where
  commitLocal : outcome.self.commitLocal = before.commitLocal
  slots : outcome.self.cnlAddHtlc = before.cnlAddHtlc
  privData : outcome.self.privData = before.privData
  trace : outcome.trace = []

theorem Untouched.reject (self : LnSelf) : Untouched self (.reject self) :=
  ⟨rfl, rfl, rfl, rfl⟩

/-- A `commitment_signed` that is rejected changes nothing. -/
def RejectionKeeps (crypto : Crypto) (self : LnSelf) (data : Bytes) : Prop :=
  ∀ outcome, recvCommitmentSignedBytes crypto self data = some outcome → outcome.ret = false →
    Untouched self outcome

/-- The transaction id, the number of HTLCs and the signatures that the loop writes are there
already. -/
structure NothingNew (crypto : Crypto) (before : LnSelf) (htlcSigs : List Bytes) : Prop where
  txid : before.nextTxid crypto = before.commitLocal.txid
  htlcNum : (before.writtenHtlcNum crypto htlcSigs).toUInt16 = before.commitLocal.htlcNum
  signatures : ∀ entry ∈ before.writtenHtlcs crypto htlcSigs,
    (before.cnlAddHtlc entry.1.2.2.addHtlcIdx).signature = htlcSigs.getD entry.2 []

theorem untouched_leftBehind_iff {htlcSigs : List Bytes} :
    Untouched self (.reject (self.leftBehind crypto htlcSigs)) ↔
      NothingNew crypto self htlcSigs := by
  have hslots := storeSignatures_eq_self_iff htlcSigs (writtenHtlcs_nodup crypto self htlcSigs)
    self.cnlAddHtlc
  constructor
  · intro huntouched
    exact ⟨congrArg LnCommitData.txid huntouched.commitLocal,
      congrArg LnCommitData.htlcNum huntouched.commitLocal, hslots.mp huntouched.slots⟩
  · intro hnothing
    refine ⟨?_, hslots.mpr hnothing.signatures, rfl, rfl⟩
    simp only [Outcome.reject, LnSelf.leftBehind, hnothing.txid, hnothing.htlcNum]

/-- A rejected `commitment_signed` changes nothing exactly when it is rejected before its signature
has verified, or has nothing new to write. -/
theorem rejectionKeeps_iff (crypto : Crypto) (self : LnSelf) (data : Bytes) :
    RejectionKeeps crypto self data ↔
      ∀ msg pos, readWith lnMsgCommitSignedRead data = .done msg pos →
        msg.channelId = self.channelId → self.commitmentVerifies crypto msg.signature = true →
          self.HtlcsVerify crypto msg.htlcSignatures ∨
            NothingNew crypto self msg.htlcSignatures := by
  rw [RejectionKeeps, recvCommitmentSignedBytes]
  cases hread : readWith lnMsgCommitSignedRead data with
  | fault reason => simp
  | refused left =>
      simp only [Option.some.injEq, forall_eq', Outcome.reject, reduceCtorEq, false_implies,
        implies_true, iff_true]
      intro _
      exact .reject self
  | done msg pos =>
      simp only [Option.some.injEq, forall_eq', Result.done.injEq, and_imp]
      constructor
      · rintro hkeeps _ _ rfl rfl hchannel hverifies
        by_cases hhtlcs : self.HtlcsVerify crypto msg.htlcSignatures
        · exact .inl hhtlcs
        · rw [hchannel, recvCommitmentSigned_rejected hverifies hhtlcs] at hkeeps
          exact .inr (untouched_leftBehind_iff.mp (hkeeps rfl))
      · intro hcond hret
        by_cases hchecks : msg.channelId = self.channelId ∧
            self.commitmentVerifies crypto msg.signature = true
        · obtain ⟨hchannel, hverifies⟩ := hchecks
          rw [hchannel] at hret ⊢
          rcases hcond msg pos rfl rfl hchannel hverifies with hhtlcs | hnothing
          · rw [(recvCommitmentSigned_accepted hverifies hhtlcs).1] at hret
            cases hret
          · by_cases hhtlcs : self.HtlcsVerify crypto msg.htlcSignatures
            · rw [(recvCommitmentSigned_accepted hverifies hhtlcs).1] at hret
              cases hret
            · rw [recvCommitmentSigned_rejected hverifies hhtlcs]
              exact untouched_leftBehind_iff.mpr hnothing
        · have hrefused : msg.channelId = self.channelId →
              self.commitmentVerifies crypto msg.signature = false := by
            intro hchannel
            exact Bool.eq_false_iff.mpr fun hverifies => hchecks ⟨hchannel, hverifies⟩
          rw [recvCommitmentSigned_refused hrefused]
          exact .reject self

/-! ### An accepted message -/

/-- The signature of the peer verifies for the next local commitment. -/
def LnSelf.peerSignatureVerifies (crypto : Crypto) (self : LnSelf) (signature : Bytes) : Bool :=
  (calcSighashP2wsh crypto (self.nextLocal crypto).committx.tx self.fundingSat
    self.redeemFund.script).any fun hash => crypto.verify signature hash self.peerFundingKey

/-- The own signature, made on the spot, never fails. -/
theorem commitmentVerifies_eq (hsound : crypto.Sound)
    (hholds : HoldsFunding crypto self.privData.priv.funding self)
    (hkey : (crypto.priv2pub self.privData.priv.funding).isSome = true) (signature : Bytes) :
    self.commitmentVerifies crypto signature = self.peerSignatureVerifies crypto signature := by
  rw [LnSelf.commitmentVerifies, LnSelf.peerSignatureVerifies, signCommittx, calcSighashP2wsh]
  by_cases hvalid : (self.nextLocal crypto).committx.tx.isValid = true
  · rw [if_pos hvalid, Option.map_some, Option.any_some, Option.any_some, Bool.eq_iff_iff,
      createToLocalSignVerify_iff (self.withSignature signature) _ hvalid hholds.script]
    apply and_iff_right
    exact hholds.sign_verifies hsound hkey _
  · rw [if_neg hvalid]
    rfl

/-- A message for this channel with the signature of the next local commitment, and one signature
for each HTLC output that verifies for it. -/
structure RightlySigned (crypto : Crypto) (before : LnSelf) (msg : CommitSignedMsg) : Prop where
  channelId : msg.channelId = before.channelId
  signature : before.peerSignatureVerifies crypto msg.signature = true
  number : msg.numHtlcs.toNat = (before.nextHtlcs crypto).length
  htlcs : ∀ place out, (before.nextHtlcs crypto)[place]? = some out →
    before.htlcVerifies crypto (msg.htlcSignatures.getD place []) out = true

/-- The slot of each HTLC output holds the signature of its place, which verifies. -/
def HoldsSignatures (crypto : Crypto) (before after : LnSelf) (msg : CommitSignedMsg) : Prop :=
  ∀ place out, (before.nextHtlcs crypto)[place]? = some out →
    (after.cnlAddHtlc out.2.2.addHtlcIdx).signature = msg.htlcSignatures.getD place [] ∧
      before.htlcVerifies crypto (after.cnlAddHtlc out.2.2.addHtlcIdx).signature out = true

/-- A `commitment_signed` is accepted exactly when it is rightly signed, and then its signatures are
held. -/
structure AcceptsRightly (crypto : Crypto) (before : LnSelf) (data : Bytes) : Prop where
  accepts : ∀ outcome, recvCommitmentSignedBytes crypto before data = some outcome →
    (outcome.ret = true ↔ ∃ msg pos, readWith lnMsgCommitSignedRead data = .done msg pos ∧
      RightlySigned crypto before msg)
  holds : ∀ outcome, recvCommitmentSignedBytes crypto before data = some outcome →
    outcome.ret = true → ∀ msg pos, readWith lnMsgCommitSignedRead data = .done msg pos →
      HoldsSignatures crypto before outcome.self msg

@[simp] theorem length_htlcSignatures (msg : CommitSignedMsg) :
    msg.htlcSignatures.length = msg.numHtlcs.toNat := by
  rw [CommitSignedMsg.htlcSignatures, Layout.length_cut, List.length_replicate]

theorem htlcsVerify_iff {htlcSigs : List Bytes} :
    self.HtlcsVerify crypto htlcSigs ↔
      (self.nextHtlcs crypto).length = htlcSigs.length % 256 ∧
        ∀ place out, (self.nextHtlcs crypto)[place]? = some out →
          self.htlcVerifies crypto (htlcSigs.getD place []) out = true := by
  have hall : (self.verifiedHtlcs crypto htlcSigs).length = (self.nextHtlcs crypto).length ↔
      self.verifiedHtlcs crypto htlcSigs = (self.nextHtlcs crypto).zipIdx := by
    rw [← List.length_zipIdx (l := self.nextHtlcs crypto) (i := 0)]
    constructor
    · intro hlength
      exact (List.takeWhile_sublist _).eq_of_length hlength
    · intro heq
      rw [heq]
  rw [LnSelf.HtlcsVerify, hall, LnSelf.verifiedHtlcs, List.takeWhile_eq_self_iff]
  apply and_congr_right
  intro _
  constructor
  · intro hverifies place out hout
    exact hverifies (out, place) (List.mem_zipIdx_iff_getElem?.mpr hout)
  · rintro hverifies ⟨out, place⟩ hmem
    exact hverifies place out (List.mem_zipIdx_iff_getElem?.mp hmem)

theorem recvCommitmentSigned_ret {channelId signature : Bytes} {htlcSigs : List Bytes} :
    (recvCommitmentSigned crypto self channelId signature htlcSigs).ret = true ↔
      channelId = self.channelId ∧ self.commitmentVerifies crypto signature = true ∧
        self.HtlcsVerify crypto htlcSigs := by
  constructor
  · intro hret
    by_cases hchecks : channelId = self.channelId ∧
        self.commitmentVerifies crypto signature = true
    · obtain ⟨rfl, hverifies⟩ := hchecks
      refine ⟨rfl, hverifies, ?_⟩
      by_contra hhtlcs
      rw [recvCommitmentSigned_rejected hverifies hhtlcs] at hret
      cases hret
    · have hrefused : channelId = self.channelId →
          self.commitmentVerifies crypto signature = false := by
        intro hchannel
        exact Bool.eq_false_iff.mpr fun hverifies => hchecks ⟨hchannel, hverifies⟩
      rw [recvCommitmentSigned_refused hrefused] at hret
      cases hret
  · rintro ⟨rfl, hverifies, hhtlcs⟩
    exact (recvCommitmentSigned_accepted hverifies hhtlcs).1

/-- What the loop has stored for an accepted message is held. -/
theorem holdsSignatures_of_accepted {msg : CommitSignedMsg}
    (hverifies : self.commitmentVerifies crypto msg.signature = true)
    (hhtlcs : self.HtlcsVerify crypto msg.htlcSignatures) :
    HoldsSignatures crypto self (recvCommitmentSigned crypto self self.channelId msg.signature
      msg.htlcSignatures).self msg := by
  intro place out hout
  obtain ⟨hcount, hall⟩ := htlcsVerify_iff.mp hhtlcs
  obtain ⟨-, hkept⟩ := recvCommitmentSigned_accepted hverifies hhtlcs
  have hsome : msg.htlcSignatures.length % 256 ≠ 0 := by
    rw [← hcount]
    have hplace := (List.getElem?_eq_some_iff.mp hout).1
    omega
  have hwritten : (out, place) ∈ self.writtenHtlcs crypto msg.htlcSignatures := by
    have hwhole : self.verifiedHtlcs crypto msg.htlcSignatures =
        (self.nextHtlcs crypto).zipIdx := by
      apply List.takeWhile_eq_self_iff.mpr
      rintro ⟨out, place⟩ hmem
      exact hall place out (List.mem_zipIdx_iff_getElem?.mp hmem)
    rw [LnSelf.writtenHtlcs, if_pos hsome, hwhole]
    exact List.mem_zipIdx_iff_getElem?.mpr hout
  have hstored := storeSignatures_slot msg.htlcSignatures
    (writtenHtlcs_nodup crypto self msg.htlcSignatures) hwritten self.cnlAddHtlc
  have hslot : ((recvCommitmentSigned crypto self self.channelId msg.signature
      msg.htlcSignatures).self.cnlAddHtlc out.2.2.addHtlcIdx).signature =
        msg.htlcSignatures.getD place [] := by
    rw [hkept, hstored]
  rw [hslot]
  exact ⟨rfl, hall place out hout⟩

/-- A `commitment_signed` is accepted rightly exactly when it counts less than 256 signatures or is
rejected with the count that is left of it. -/
theorem acceptsRightly_iff (hsound : crypto.Sound) {state : ChannelState}
    (hreach : (channelSystem crypto).Reachable state)
    (hkey : (crypto.priv2pub state.self.privData.priv.funding).isSome = true) (data : Bytes) :
    AcceptsRightly crypto state.self data ↔
      ∀ msg pos, readWith lnMsgCommitSignedRead data = .done msg pos →
        msg.numHtlcs.toNat < 256 ∨
          ¬ (msg.channelId = state.self.channelId ∧
            state.self.peerSignatureVerifies crypto msg.signature = true ∧
            state.self.HtlcsVerify crypto msg.htlcSignatures) := by
  have hcommit := commitmentVerifies_eq hsound (holdsFunding_of_reachable hreach) hkey
  generalize state.self = self at hcommit
  constructor
  · intro hright msg pos hread
    by_contra hnot
    rw [not_or, not_lt, not_not] at hnot
    obtain ⟨hmany, hchannel, hverifies, hhtlcs⟩ := hnot
    have hret : (recvCommitmentSigned crypto self msg.channelId msg.signature
        msg.htlcSignatures).ret = true :=
      recvCommitmentSigned_ret.mpr ⟨hchannel, (hcommit _).trans hverifies, hhtlcs⟩
    have houtcome : recvCommitmentSignedBytes crypto self data = some
        (recvCommitmentSigned crypto self msg.channelId msg.signature msg.htlcSignatures) := by
      rw [recvCommitmentSignedBytes, hread]
    obtain ⟨msg', pos', hread', hsigned⟩ := (hright.accepts _ houtcome).mp hret
    rw [hread] at hread'
    obtain ⟨rfl, -⟩ := Result.done.inj hread'
    have hcount := (htlcsVerify_iff.mp hhtlcs).1
    rw [length_htlcSignatures] at hcount
    have hnumber := hsigned.number
    omega
  · intro hcond
    constructor
    · intro outcome houtcome
      rw [recvCommitmentSignedBytes] at houtcome
      cases hread : readWith lnMsgCommitSignedRead data with
      | fault reason =>
          rw [hread] at houtcome
          cases houtcome
      | refused left =>
          rw [hread] at houtcome
          obtain rfl := Option.some.inj houtcome
          simp [Outcome.reject]
      | done msg pos =>
          rw [hread] at houtcome
          obtain rfl := Option.some.inj houtcome
          rw [recvCommitmentSigned_ret, hcommit]
          constructor
          · rintro ⟨hchannel, hverifies, hhtlcs⟩
            have hfew := (hcond msg pos hread).resolve_right
              (not_not.mpr ⟨hchannel, hverifies, hhtlcs⟩)
            obtain ⟨hcount, hall⟩ := htlcsVerify_iff.mp hhtlcs
            rw [length_htlcSignatures, Nat.mod_eq_of_lt hfew] at hcount
            exact ⟨msg, pos, rfl, hchannel, hverifies, hcount.symm, hall⟩
          · rintro ⟨msg', pos', hread', hsigned⟩
            obtain ⟨rfl, -⟩ := Result.done.inj hread'
            refine ⟨hsigned.channelId, hsigned.signature, htlcsVerify_iff.mpr ⟨?_, hsigned.htlcs⟩⟩
            have hfew : (self.nextHtlcs crypto).length < 256 :=
              (nextHtlcs_length_le crypto self).trans_lt (by decide)
            rw [length_htlcSignatures, hsigned.number, Nat.mod_eq_of_lt hfew]
    · intro outcome houtcome hret msg pos hread
      rw [recvCommitmentSignedBytes, hread] at houtcome
      obtain rfl := Option.some.inj houtcome
      obtain ⟨hchannel, hverifies, hhtlcs⟩ := recvCommitmentSigned_ret.mp hret
      rw [hchannel]
      exact holdsSignatures_of_accepted hverifies hhtlcs

/-! ### A channel of sized symbols -/

/-- The public keys of a party. -/
def sizedKeys (party : UInt8) : Fundkeys where
  funding := padTo 33 (symbolicKeys party).funding
  revocation := padTo 33 (symbolicKeys party).revocation
  payment := padTo 33 (symbolicKeys party).payment
  delayed := padTo 33 (symbolicKeys party).delayed
  htlc := padTo 33 (symbolicKeys party).htlc
  perCommit := padTo 33 (symbolicKeys party).perCommit

/-- The signature of the peer for the local commitment of a number. -/
def sizedPeerSignature (self : LnSelf) (commitNum : UInt64) : Bytes :=
  let build := buildToLocal .sized self commitNum self.commitRemote.toSelfDelay
    self.commitLocal.dustLimitSat
  Crypto.sized.sign (symbolicKeys 2).funding
    (Crypto.sized.sighash build.committx.tx self.fundingSat self.redeemFund.script)

/-- The funding exchange of a fundee. -/
def sizedFundee : Option Outcome :=
  let fresh := lnInit (List.replicate 32 1) [] false
  let openCh := { symbolicOpen 1000000 0 with pubkeys := sizedKeys 2 }
  (recvOpenChannel .sized fresh openCh symbolicPrm (symbolicKeys 1)).bind fun offered =>
    openedAsFundee .sized fresh openCh symbolicPrm (symbolicKeys 1) symbolicOutpoint
      (sizedPeerSignature (offered.setFunding .sized symbolicOutpoint) 0)

/-- The fundee once the exchange is complete. -/
def sizedState : ChannelState :=
  .afterFunding (sizedFundee.getD (.reject {}))

/-- The peer offers two HTLCs. -/
def sizedAdds : List (ChannelState → ChannelLabel) :=
  let add (id : Nat) (amountMsat : UInt64) (_ : ChannelState) : ChannelLabel :=
    .event (.recv symbolicOutpoint.txid (.updateAddHtlc id amountMsat [9] 100 [])
      { onion := { verdict := .final [9] } })
  [add 0 200000000, add 1 300000000]

/-- The channel once it has both. -/
def sizedAdded : ChannelState :=
  (((channelSystem .sized).trail permitAll sizedState [] sizedAdds).map Prod.fst).getD sizedState

/-- A `commitment_signed` with the right commitment signature and the given HTLC signatures. -/
def sizedCommit (self : LnSelf) (htlcSigs : List Bytes) : CommitSignedMsg where
  channelId := self.channelId
  signature := sizedPeerSignature self 1
  numHtlcs := htlcSigs.length.toUInt16
  htlcSignature := htlcSigs.flatten

def sizedCommitBytes (self : LnSelf) (htlcSigs : List Bytes) : Bytes :=
  (lnMsgCommitSignedCreate (sizedCommit self htlcSigs)).getD []

theorem sizedCommit_numHtlcs {htlcSigs : List Bytes} (hfew : htlcSigs.length ≤ 256) :
    (sizedCommit self htlcSigs).numHtlcs.toNat = htlcSigs.length :=
  Nat.mod_eq_of_lt (by omega)

theorem sizedCommit_read {htlcSigs : List Bytes} (hid : self.channelId.length = 32)
    (hsigs : ∀ sig ∈ htlcSigs, sig.length = 64) (hfew : htlcSigs.length ≤ 256) :
    ∃ pos, readWith lnMsgCommitSignedRead (sizedCommitBytes self htlcSigs) =
      .done (sizedCommit self htlcSigs) pos := by
  have hnum := @sizedCommit_numHtlcs self _ hfew
  have hflat : htlcSigs.flatten.length = htlcSigs.length * 64 := by
    rw [List.length_flatten, List.map_congr_left hsigs, List.map_const', List.sum_replicate_nat]
  have hsized : (sizedCommit self htlcSigs).Sized := by
    refine ⟨hid, ?_, ?_⟩
    · simp [sizedCommit, sizedPeerSignature, Crypto.sized]
    · rw [hnum]
      exact hflat
  obtain ⟨bytes, hcreated, hread⟩ := lnMsgCommitSigned_roundTrips hsized
  have hlength : bytes.length ≤ 2 + 98 + (sizedCommit self htlcSigs).numHtlcs.toNat * 64 :=
    length_of_utlPush hcreated
  rw [sizedCommitBytes, hcreated]
  exact ⟨bytes.length, hread (by omega)⟩

theorem sizedCommit_outcome {htlcSigs : List Bytes} (hid : self.channelId.length = 32)
    (hsigs : ∀ sig ∈ htlcSigs, sig.length = 64) (hfew : htlcSigs.length ≤ 256) :
    recvCommitmentSignedBytes .sized self (sizedCommitBytes self htlcSigs) =
      some (recvCommitmentSigned .sized self self.channelId (sizedCommit self htlcSigs).signature
        (sizedCommit self htlcSigs).htlcSignatures) := by
  obtain ⟨pos, hread⟩ := sizedCommit_read hid hsigs hfew
  rw [recvCommitmentSignedBytes, hread]
  rfl

/-- The peer has signed the next commitment of the channel, which has no HTLC. -/
theorem sizedState_checked :
    sizedFundee.isSome = true ∧
      (Crypto.sized.priv2pub sizedState.self.privData.priv.funding).isSome = true ∧
      sizedState.self.channelId.length = 32 ∧ sizedState.self.nextHtlcs .sized = [] ∧
      sizedState.self.nextTxid .sized ≠ sizedState.self.commitLocal.txid ∧
      sizedState.self.commitmentVerifies .sized (sizedPeerSignature sizedState.self 1) = true := by
  decide +kernel

theorem sizedState_start : (channelSystem .sized).start sizedState := by
  obtain ⟨outcome, hopened⟩ := Option.isSome_iff_exists.mp sizedState_checked.1
  have hdone : FundingDone .sized outcome := by
    have hfunded := hopened
    simp only [sizedFundee, Option.bind_eq_some_iff] at hfunded
    obtain ⟨_, _, hdone⟩ := hfunded
    exact .fundee hdone
  refine ⟨outcome, hdone, ?_⟩
  rw [sizedState, hopened]
  rfl

theorem sizedState_reachable : (channelSystem .sized).Reachable sizedState :=
  ⟨_, sizedState_start, .refl⟩

/-- A number of signatures of zeroes. -/
def zeroSignatures (count : Nat) : List Bytes :=
  List.replicate count (List.replicate 64 0)

theorem zeroSignatures_length (count : Nat) : ∀ sig ∈ zeroSignatures count, sig.length = 64 := by
  intro sig hmem
  rw [List.eq_of_mem_replicate hmem, List.length_replicate]

theorem zeroCommit_outcome {count : Nat} (hfew : count ≤ 256) :
    recvCommitmentSignedBytes .sized sizedState.self
        (sizedCommitBytes sizedState.self (zeroSignatures count)) =
      some (recvCommitmentSigned .sized sizedState.self sizedState.self.channelId
        (sizedCommit sizedState.self (zeroSignatures count)).signature
        (sizedCommit sizedState.self (zeroSignatures count)).htlcSignatures) := by
  obtain ⟨-, -, hid, -⟩ := sizedState_checked
  apply sizedCommit_outcome hid (zeroSignatures_length count)
  rw [zeroSignatures, List.length_replicate]
  exact hfew

theorem zeroCommit_length {count : Nat} (hfew : count ≤ 256) :
    (sizedCommit sizedState.self (zeroSignatures count)).htlcSignatures.length = count := by
  rw [length_htlcSignatures, sizedCommit_numHtlcs] <;> rw [zeroSignatures, List.length_replicate]
  exact hfew

theorem zeroCommit_verifies (count : Nat) :
    sizedState.self.commitmentVerifies .sized
      (sizedCommit sizedState.self (zeroSignatures count)).signature = true := by
  obtain ⟨-, -, -, -, -, hverifies⟩ := sizedState_checked
  exact hverifies

/-- One HTLC signature too many: the transaction id of the commitment that is kept is lost. -/
theorem rejectionLoses_sizedCommit :
    ¬ ∀ (crypto : Crypto) (state : ChannelState) (data : Bytes),
      (channelSystem crypto).Reachable state → RejectionKeeps crypto state.self data := by
  intro hkeeps
  obtain ⟨-, -, -, hnone, hnext, -⟩ := sizedState_checked
  have hkept := hkeeps .sized sizedState
    (sizedCommitBytes sizedState.self (zeroSignatures 1)) sizedState_reachable
  have hhtlcs : ¬ sizedState.self.HtlcsVerify .sized
      (sizedCommit sizedState.self (zeroSignatures 1)).htlcSignatures := by
    rw [htlcsVerify_iff, hnone, zeroCommit_length (by decide)]
    intro hcount
    cases hcount.1
  have hrejected := recvCommitmentSigned_rejected (zeroCommit_verifies 1) hhtlcs
  have hhold := hkept _ (zeroCommit_outcome (by decide)) (by rw [hrejected]; rfl)
  rw [hrejected] at hhold
  exact hnext (untouched_leftBehind_iff.mp hhold).txid

/-- The peer has signed the next commitment and both HTLC outputs that it has. -/
theorem sizedAdded_checked :
    let self := sizedAdded.self
    let sigs := peerHtlcSignatures .sized self 1
    ((channelSystem .sized).trail permitAll sizedState [] sizedAdds).isSome = true ∧
      (Crypto.sized.priv2pub self.privData.priv.funding).isSome = true ∧
      self.channelId.length = 32 ∧ sigs.length = 2 ∧ (self.nextHtlcs .sized).length = 2 ∧
      (recvCommitmentSigned .sized self self.channelId (sizedCommit self sigs).signature
        (sizedCommit self sigs).htlcSignatures).ret = true := by
  decide +kernel

/-- A `commitment_signed` with the right signatures for two HTLC outputs is accepted rightly. -/
theorem acceptsRightly_twoHtlcs :
    ∃ data outcome, (sizedAdded.self.nextHtlcs .sized).length = 2 ∧
      recvCommitmentSignedBytes .sized sizedAdded.self data = some outcome ∧
      outcome.ret = true ∧ AcceptsRightly .sized sizedAdded.self data := by
  obtain ⟨hadded, hkey, hid, htwo, houts, hret⟩ := sizedAdded_checked
  have hreach : (channelSystem .sized).Reachable sizedAdded := by
    obtain ⟨⟨state, past⟩, htrail⟩ := Option.isSome_iff_exists.mp hadded
    rw [sizedAdded, htrail]
    exact reachable_of_trail sizedState_start htrail
  have hsigs : ∀ sig ∈ peerHtlcSignatures .sized sizedAdded.self 1, sig.length = 64 := by
    intro sig hmem
    obtain ⟨out, -, rfl⟩ := List.mem_map.mp hmem
    simp [Crypto.sized]
  have hfew : (peerHtlcSignatures .sized sizedAdded.self 1).length ≤ 256 := by omega
  refine ⟨_, _, houts, sizedCommit_outcome hid hsigs hfew, hret,
    (acceptsRightly_iff sized_sound hreach hkey _).mpr ?_⟩
  intro msg pos hread
  obtain ⟨pos', hread'⟩ := sizedCommit_read hid hsigs hfew
  rw [hread'] at hread
  obtain ⟨rfl, -⟩ := Result.done.inj hread
  rw [sizedCommit_numHtlcs hfew]
  exact .inl (by omega)

/-- A channel without HTLCs accepts 256 of their signatures. -/
theorem acceptsWrongly_sizedCommit :
    ¬ ∀ (crypto : Crypto), crypto.Sound → ∀ (state : ChannelState) (data : Bytes),
      (channelSystem crypto).Reachable state →
        (crypto.priv2pub state.self.privData.priv.funding).isSome = true →
          AcceptsRightly crypto state.self data := by
  intro haccepts
  obtain ⟨-, hkey, hid, hnone, -, -⟩ := sizedState_checked
  have hright := haccepts .sized sized_sound sizedState
    (sizedCommitBytes sizedState.self (zeroSignatures 256)) sizedState_reachable hkey
  have hhtlcs : sizedState.self.HtlcsVerify .sized
      (sizedCommit sizedState.self (zeroSignatures 256)).htlcSignatures := by
    rw [htlcsVerify_iff, hnone, zeroCommit_length (by decide)]
    exact ⟨rfl, fun _ _ hout => by cases hout⟩
  have hret := recvCommitmentSigned_ret.mpr ⟨rfl, zeroCommit_verifies 256, hhtlcs⟩
  obtain ⟨msg, pos, hread, hsigned⟩ :=
    (hright.accepts _ (zeroCommit_outcome (by decide))).mp hret
  obtain ⟨pos', hread'⟩ := sizedCommit_read hid (zeroSignatures_length 256)
    (List.length_replicate.le)
  rw [hread'] at hread
  obtain ⟨rfl, -⟩ := Result.done.inj hread
  have hnumber := hsigned.number
  rw [hnone, ← length_htlcSignatures, zeroCommit_length le_rfl] at hnumber
  cases hnumber

end Ptarmigan
