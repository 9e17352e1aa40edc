/-
What is pending in a channel, read from the events alone: each event takes at most one slot
and clears those that the idle processing removes, so that the slots held are those taken
less those cleared; a feerate is uncommitted until a `commitment_signed` of either side.
-/
import Mathlib.Data.Finset.Option
import Ptarmigan.FeeDance
import Ptarmigan.Forward
import Ptarmigan.InFlightLimits

namespace Ptarmigan

variable {crypto : Crypto} {self : LnSelf} {ev : ChannelEvent} {idx : HtlcIdx}

/-! ### Slots taken and cleared -/

/-- The slots that hold an HTLC. -/
def heldSlots (slots : Slots) : Finset HtlcIdx :=
  Finset.univ.filter fun idx => (slots idx).empty = false

/-- The empty slot that the event puts an HTLC into: an accepted `update_add_htlc`, a
request, or the start of a slot that was never reserved. -/
def takenSlot (crypto : Crypto) (self : LnSelf) : ChannelEvent → Option HtlcIdx
  | .recv channelId (.updateAddHtlc id amountMsat paymentSha256 cltvExpiry packet) _ =>
      if self.initFlag.exchanged then
        acceptedSlot self channelId id amountMsat paymentSha256 cltvExpiry packet
      else none
  | .addHtlc req => (lnAddHtlcSet crypto self req).1
  | .addHtlcFwd req => (lnAddHtlcSetFwd crypto self req).1
  | .startFwd idx => if (self.cnlAddHtlc idx).empty then some idx else none
  | _ => none

/-- The event is an `update_add_htlc` of the peer. -/
def ChannelEvent.isAdd : ChannelEvent → Bool
  | .recv _ (.updateAddHtlc ..) _ => true
  | _ => false

/-- The slots that `recv_idle_proc_final` clears. -/
def clearedSlots (self : LnSelf) : ChannelEvent → Finset HtlcIdx
  | .idle =>
      if AllComrev self then
        Finset.univ.filter fun idx => idleFinalRemoves (self.cnlAddHtlc idx) = true
      else ∅
  | _ => ∅

theorem mem_heldSlots {slots : Slots} : idx ∈ heldSlots slots ↔ (slots idx).empty = false := by
  simp [heldSlots]

theorem heldSlots_eq_empty {slots : Slots} (hnone : heldSlots slots = ∅) (idx : HtlcIdx) :
    (slots idx).empty = true := by
  by_contra hheld
  have hmem := mem_heldSlots.mpr (Bool.eq_false_iff.mpr hheld)
  rw [hnone] at hmem
  exact absurd hmem (Finset.notMem_empty idx)

theorem heldSlots_congr {slots slots' : Slots}
    (hsame : ∀ idx, (slots' idx).empty = (slots idx).empty) :
    heldSlots slots' = heldSlots slots := by
  ext idx
  rw [mem_heldSlots, mem_heldSlots, hsame]

theorem heldSlots_saveSelf (db : Db) (saved : LnSelf) :
    heldSlots (db.saveSelf saved).chan.cnlAddHtlc = heldSlots saved.cnlAddHtlc :=
  heldSlots_congr fun _ => rfl

theorem clearedSlots_of_ne_idle (hidle : ev ≠ .idle) : clearedSlots self ev = ∅ := by
  cases ev with
  | idle => exact absurd rfl hidle
  | _ => rfl

theorem empty_of_addhtlc {htlc : LnUpdateAddHtlc} (hkind : htlc.flag.addhtlc ≠ .none) :
    htlc.empty = false := by
  apply Bool.eq_false_iff.mpr
  exact fun hempty => hkind (addhtlc_of_empty hempty)

/-- What the idle processing clears held an HTLC. -/
theorem clearedSlots_subset : clearedSlots self ev ⊆ heldSlots self.cnlAddHtlc := by
  intro idx hcleared
  cases ev with
  | idle =>
      simp only [clearedSlots] at hcleared
      split_ifs at hcleared
      · have hremoves := (Finset.mem_filter.mp hcleared).2
        simp only [idleFinalRemoves, Bool.and_eq_true] at hremoves
        exact mem_heldSlots.mpr (by simpa [LnUpdateAddHtlc.enable] using hremoves.1.1)
      · exact absurd hcleared (Finset.notMem_empty idx)
  | _ => exact absurd hcleared (Finset.notMem_empty idx)

/-! ### The slot taken -/

theorem lnAddHtlcSetFwd_some {req : AddHtlcRequest}
    (hset : (lnAddHtlcSetFwd crypto self req).1 = some idx) :
    checkCreateAddHtlc self req.amountMsat req.cltvValue = some idx ∧
      (lnAddHtlcSetFwd crypto self req).2 =
        { self.setSlot idx (requestedSlot self idx req) with
          htlcIdNum := self.htlcIdNum + 1 } := by
  rcases lnAddHtlcSetFwd_slots crypto self req with hnone | ⟨free, hcheck, hdone | hdone⟩
  · rw [hnone] at hset
    cases hset
  · rw [hdone] at hset ⊢
    obtain rfl := Option.some.inj hset
    exact ⟨hcheck, rfl⟩
  · rw [hdone] at hset
    cases hset

/-- The slot that an event takes was empty. -/
theorem takenSlot_empty (htaken : takenSlot crypto self ev = some idx) :
    (self.cnlAddHtlc idx).empty = true := by
  cases ev with
  | recv channelId msg env =>
      cases msg with
      | updateAddHtlc id amountMsat paymentSha256 cltvExpiry packet =>
          simp only [takenSlot] at htaken
          split_ifs at htaken
          exact empty_of_firstEmpty (firstEmpty_of_acceptedSlot htaken)
      | _ => cases htaken
  | addHtlc req =>
      exact empty_of_firstEmpty (firstEmpty_of_checkCreateAddHtlc (lnAddHtlcSet_some htaken).1)
  | addHtlcFwd req =>
      exact empty_of_firstEmpty (firstEmpty_of_checkCreateAddHtlc (lnAddHtlcSetFwd_some htaken).1)
  | startFwd target =>
      simp only [takenSlot] at htaken
      split_ifs at htaken with hempty
      obtain rfl := Option.some.inj htaken
      exact hempty
  | _ => cases htaken

/-- An `update_add_htlc` that goes through was accepted into the first empty slot. -/
theorem recvUpdateAddHtlc_spec {channelId : Bytes} {id : Nat} {amountMsat : UInt64}
    {paymentSha256 : Bytes} {cltvExpiry : UInt32} {packet : Bytes} {env : RecvEnv}
    (hret : (lnRecv crypto self channelId
      (.updateAddHtlc id amountMsat paymentSha256 cltvExpiry packet) env).ret = true) :
    self.initFlag.exchanged = true ∧
      acceptedSlot self channelId id amountMsat paymentSha256 cltvExpiry packet =
        firstEmpty self.cnlAddHtlc := by
  rw [lnRecv] at hret
  split at hret
  · rename_i hinit
    refine ⟨hinit, ?_⟩
    simp only [recvFunc, recvUpdateAddHtlc] at hret
    rw [acceptedSlot]
    cases hfirst : firstEmpty self.cnlAddHtlc with
    | none => rfl
    | some idx =>
        simp only [hfirst] at hret
        split_ifs at hret with hchannel hchecked
        · cases hret
        · cases hret
        · simp only [Bool.not_eq_true', Bool.not_eq_false] at hchecked
          apply Option.filter_eq_some_iff.mpr
          refine ⟨rfl, Bool.and_eq_true_iff.mpr ⟨?_, hchecked⟩⟩
          exact beq_iff_eq.mpr (not_not.mp hchannel)
  · cases hret

/-- The slot that an event takes holds an HTLC afterwards. -/
theorem takenSlot_held (htaken : takenSlot crypto self ev = some idx) :
    ((handle crypto self ev).self.cnlAddHtlc idx).empty = false := by
  cases ev with
  | recv channelId msg env =>
      cases msg with
      | updateAddHtlc id amountMsat paymentSha256 cltvExpiry packet =>
          simp only [takenSlot] at htaken
          split_ifs at htaken with hinit
          obtain ⟨hfirst, haccepted⟩ := Option.filter_eq_some_iff.mp htaken
          obtain ⟨hchannel, hchecked⟩ := Bool.and_eq_true_iff.mp haccepted
          obtain rfl := beq_iff_eq.mp hchannel
          simp only [LnUpdateAddHtlc.read] at hchecked
          simp only [handle, lnRecv, if_pos hinit, recvFunc, recvUpdateAddHtlc, hfirst, hchecked,
            ne_eq, not_true_eq_false, if_false, Bool.not_true, Bool.false_eq_true]
          obtain ⟨post, hpost, ⟨-, -, -, -, hkind⟩, -⟩ := addHtlcBolt4_slot crypto
            (self.setSlot idx ((self.cnlAddHtlc idx).read id amountMsat paymentSha256 cltvExpiry
              packet)) idx _ env
          simp only [LnUpdateAddHtlc.read] at hpost
          rw [hpost]
          apply empty_of_addhtlc
          simp [LnSelf.setSlot, hkind]
      | _ => cases htaken
  | addHtlc req =>
      rw [handle, (lnAddHtlcSet_some htaken).2]
      apply empty_of_addhtlc
      simp [lnAddHtlcStartFwd, LnSelf.setSlot, LnUpdateAddHtlc.setFlag]
  | addHtlcFwd req =>
      obtain ⟨hcheck, hset⟩ := lnAddHtlcSetFwd_some htaken
      rw [handle, hset]
      simpa [LnSelf.setSlot] using requestedSlot_not_empty hcheck
  | startFwd target =>
      simp only [takenSlot] at htaken
      split_ifs at htaken with hempty
      obtain rfl := Option.some.inj htaken
      apply empty_of_addhtlc
      simp [handle, lnAddHtlcStartFwd, LnSelf.setSlot, LnUpdateAddHtlc.setFlag]
  | _ => cases htaken

/-- The other slots stay as empty, or as full, as they were: outside the idle processing no
slot is cleared. -/
theorem slotChange_empty (hadd : ev.isAdd = true → (handle crypto self ev).ret = true)
    (hidle : ev ≠ .idle)
    (htaken : takenSlot crypto self ev ≠ some idx) {post : LnUpdateAddHtlc}
    (hchange : SlotChange crypto self ev idx post) :
    post.empty = (self.cnlAddHtlc idx).empty := by
  cases hchange with
  | kept => rfl
  | read hfirst =>
      obtain ⟨hinit, haccepted⟩ := recvUpdateAddHtlc_spec (hadd rfl)
      simp only [takenSlot, hinit, if_true, haccepted] at htaken
      exact absurd hfirst htaken
  | received haccepted =>
      obtain ⟨hinit, -⟩ := recvUpdateAddHtlc_spec (hadd rfl)
      simp only [takenSlot, hinit, if_true] at htaken
      exact absurd haccepted htaken
  | receivedFailed haccepted =>
      obtain ⟨hinit, -⟩ := recvUpdateAddHtlc_spec (hadd rfl)
      simp only [takenSlot, hinit, if_true] at htaken
      exact absurd haccepted htaken
  | removing => exact (SameHtlc.clearHtlcComrevflag _ _).empty
  | signed => rfl
  | @committed _ _ _ _ _ signature =>
      have hsigned : SameHtlc (self.cnlAddHtlc idx) { self.cnlAddHtlc idx with signature } :=
        ⟨rfl, rfl, rfl, rfl, rfl, rfl, rfl⟩
      apply SameHtlc.empty
      apply (hsigned.trans (.setFlagIf ?_)).trans (.setFlagIf ?_)
      · exact fun _ => rfl
      · exact fun _ => rfl
  | acked =>
      apply SameHtlc.empty
      apply SameHtlc.setFlagIf
      exact fun _ => rfl
  | finalised => exact absurd rfl hidle
  | updated => exact absurd rfl hidle
  | comsent => exact absurd rfl hidle
  | offered _ hset => exact absurd hset htaken
  | dropped hcheck => exact (empty_of_firstEmpty (firstEmpty_of_checkCreateAddHtlc hcheck)).symm
  | reserved _ hset => exact absurd hset htaken
  | droppedFwd hcheck =>
      exact (empty_of_firstEmpty (firstEmpty_of_checkCreateAddHtlc hcheck)).symm
  | started =>
      have hheld : (self.cnlAddHtlc idx).empty = false := by
        by_contra hempty
        exact htaken (if_pos (Bool.not_eq_false _ ▸ hempty))
      rw [hheld]
      apply empty_of_addhtlc
      simp [LnUpdateAddHtlc.setFlag]
  | fulfilled =>
      have hcleared := SameHtlc.clearHtlcComrevflag (self.cnlAddHtlc idx) .fulfill
      exact hcleared.empty
  | failed hsame => exact hsame.empty
  | resent => exact (SameHtlc.setFlag rfl).empty

/-! ### The slots cleared -/

theorem idleFinal_empty (htlc : LnUpdateAddHtlc) :
    (idleFinalSlot htlc).1.empty = (idleFinalRemoves htlc || htlc.empty) := by
  cases hremoves : idleFinalRemoves htlc with
  | true =>
      rw [idleFinalSlot_removed hremoves]
      rfl
  | false => exact (SameHtlc.idleFinalSlot hremoves).empty

/-- The idle processing clears the slots whose removal is through, and no other. -/
theorem heldSlots_idle :
    heldSlots (lnRecvIdleProc crypto self).self.cnlAddHtlc =
      heldSlots self.cnlAddHtlc \ clearedSlots self .idle := by
  ext idx
  rw [Finset.mem_sdiff, mem_heldSlots, mem_heldSlots]
  by_cases hall : AllComrev self
  · simp only [clearedSlots, if_pos hall, Finset.mem_filter, Finset.mem_univ, true_and]
    rcases lnRecvIdleProc_final crypto hall with hfinal | ⟨hnone, henable⟩
    · rw [hfinal]
      simp [recvIdleProcFinal, idleFinal_empty, and_comm]
    · rw [hnone]
      simp [idleFinalRemoves, henable idx]
  · have hsame : ∀ post, SlotChange crypto self .idle idx post →
        post.empty = (self.cnlAddHtlc idx).empty := by
      intro post hchange
      cases hchange with
      | kept => rfl
      | finalised hcomrev => exact absurd hcomrev hall
      | updated => exact (SameHtlc.idleUpdateSlot _).empty
      | comsent =>
          apply SameHtlc.empty
          apply (SameHtlc.idleUpdateSlot _).trans
          apply SameHtlc.setFlagIf
          exact fun _ => rfl
    rw [hsame _ (lnRecvIdleProc_slotChange idx)]
    simp [clearedSlots, hall]

/-- An event takes its slot and clears those due to be cleared, unless it is an
`update_add_htlc` that is refused. -/
theorem heldSlots_handle (hadd : ev.isAdd = true → (handle crypto self ev).ret = true) :
    heldSlots (handle crypto self ev).self.cnlAddHtlc =
      (heldSlots self.cnlAddHtlc \ clearedSlots self ev) ∪
        (takenSlot crypto self ev).toFinset := by
  by_cases hidle : ev = .idle
  · subst hidle
    rw [handle, heldSlots_idle]
    simp [takenSlot]
  · ext idx
    rw [clearedSlots_of_ne_idle hidle, Finset.sdiff_empty, Finset.mem_union, mem_heldSlots,
      mem_heldSlots, Option.mem_toFinset, Option.mem_def]
    by_cases htaken : takenSlot crypto self ev = some idx
    · simp [takenSlot_held htaken, htaken]
    · rw [slotChange_empty hadd hidle htaken (handle_slotChange crypto self ev idx)]
      simp [htaken]

/-- The slots held and those cleared are the slots held before and the one taken. -/
theorem card_heldSlots (hadd : ev.isAdd = true → (handle crypto self ev).ret = true) :
    (heldSlots (handle crypto self ev).self.cnlAddHtlc).card + (clearedSlots self ev).card =
      (heldSlots self.cnlAddHtlc).card + (takenSlot crypto self ev).toFinset.card := by
  have hfresh : Disjoint (heldSlots self.cnlAddHtlc \ clearedSlots self ev)
      (takenSlot crypto self ev).toFinset := by
    apply Finset.disjoint_left.mpr
    intro idx hheld htaken
    have hempty := takenSlot_empty (Option.mem_toFinset.mp htaken)
    rw [mem_heldSlots.mp (Finset.mem_sdiff.mp hheld).1] at hempty
    cases hempty
  have hcleared := Finset.card_sdiff_add_card_eq_card
    (clearedSlots_subset : clearedSlots self ev ⊆ heldSlots self.cnlAddHtlc)
  rw [heldSlots_handle hadd, Finset.card_union_of_disjoint hfresh]
  omega

/-- A received `update_add_htlc` is not saved by itself. -/
theorem trace_of_isAdd (hadd : ev.isAdd = true) : (handle crypto self ev).trace = [] := by
  cases ev with
  | recv channelId msg env =>
      cases msg with
      | updateAddHtlc id amountMsat paymentSha256 cltvExpiry packet =>
          simp only [handle, lnRecv, recvFunc, recvUpdateAddHtlc, Outcome.reject]
          repeat' split
          all_goals rfl
      | _ => cases hadd
  | _ => cases hadd

/-! ### What the events have left pending -/

/-- What an event means for the updates that are pending. -/
inductive ChannelNote
  | taken
  | cleared
  | fee
  | commit
  | sign
deriving DecidableEq, Repr

/-- A slot taken, the slots cleared, and the messages that count for a feerate: an
`update_fee` accepted, a `commitment_signed` accepted, a `commitment_signed` sent. -/
def notesOf (crypto : Crypto) (self : LnSelf) (ev : ChannelEvent) : List ChannelNote :=
  List.replicate (takenSlot crypto self ev).toFinset.card .taken ++
    List.replicate (clearedSlots self ev).card .cleared ++
    (if acceptsFee self ev then [.fee]
      else if acceptsCommit crypto self ev then [.commit]
      else if (handle crypto self ev).trace.any Effect.signs then [.sign]
      else [])

/-- The slots held are as many as were taken, less those cleared. -/
def Counted (log : List ChannelNote) (slots : Slots) : Prop :=
  (heldSlots slots).card + log.count .cleared = log.count .taken

theorem Counted.after {log : List ChannelNote} (hcounted : Counted log self.cnlAddHtlc)
    (hadd : ev.isAdd = true → (handle crypto self ev).ret = true) :
    Counted (notesOf crypto self ev ++ log) (handle crypto self ev).self.cnlAddHtlc := by
  have hcard := card_heldSlots hadd
  have hrest : ∀ note, note = .taken ∨ note = .cleared →
      List.count note (if acceptsFee self ev then [.fee]
        else if acceptsCommit crypto self ev then [.commit]
        else if (handle crypto self ev).trace.any Effect.signs then [ChannelNote.sign]
        else []) = 0 := by
    rintro note (rfl | rfl) <;> split_ifs <;> rfl
  rw [Counted] at hcounted ⊢
  simp only [notesOf, List.count_append, hrest .taken (.inl rfl), hrest .cleared (.inr rfl),
    List.count_replicate]
  simp only [beq_self_eq_true, if_true, show (ChannelNote.taken == .cleared) = false from rfl,
    show (ChannelNote.cleared == .taken) = false from rfl, Bool.false_eq_true, if_false]
  omega

/-- As many slots cleared as taken leave none held. -/
theorem Counted.empty {log : List ChannelNote} {slots : Slots} (hcounted : Counted log slots)
    (hall : log.count .cleared = log.count .taken) (idx : HtlcIdx) :
    (slots idx).empty = true := by
  rw [Counted, hall] at hcounted
  have hnone : heldSlots slots = ∅ := Finset.card_eq_zero.mp (by omega)
  exact heldSlots_eq_empty hnone idx

/-- The transactions that do not contain a received feerate yet. -/
structure OpenFee where
  onLocal : Bool := false
  onRemote : Bool := false
deriving DecidableEq, Repr

/-- An `update_fee` enters the local transaction with the next `commitment_signed` of the
peer, and the remote one with the next own `commitment_signed` after that.  The newest
note stands first. -/
def openFee : List ChannelNote → OpenFee
  | [] => {}
  | .fee :: _ => ⟨true, true⟩
  | .commit :: log => { openFee log with onLocal := false }
  | .sign :: log => { openFee log with
      onRemote := (openFee log).onRemote && (openFee log).onLocal }
  | .taken :: log => openFee log
  | .cleared :: log => openFee log

/-- The notes since the last `update_fee`. -/
def sinceFee (log : List ChannelNote) : List ChannelNote :=
  log.takeWhile (· != .fee)

theorem sinceFee_cons (note : ChannelNote) (log : List ChannelNote) :
    sinceFee (note :: log) = if note = .fee then [] else note :: sinceFee log := by
  rw [sinceFee, List.takeWhile_cons]
  cases note <;> rfl

/-- Since the last `update_fee` a `commitment_signed` has been accepted, and one has been
sent after it. -/
def FeeCommitted (log : List ChannelNote) : Prop :=
  .fee ∈ log → .commit ∈ (sinceFee log).dropWhile (· != .sign)

instance (log : List ChannelNote) : Decidable (FeeCommitted log) :=
  inferInstanceAs (Decidable (_ → _))

/-- The feerate is open on the local side until the next accepted `commitment_signed`. -/
theorem openFee_onLocal (log : List ChannelNote) :
    (openFee log).onLocal = true ↔ .fee ∈ log ∧ .commit ∉ sinceFee log := by
  induction log with
  | nil => simp [openFee]
  | cons note log ih => cases note <;> simp [openFee, sinceFee_cons, ih]

/-- It is open on the remote side until a `commitment_signed` sent after that. -/
theorem openFee_onRemote (log : List ChannelNote) :
    (openFee log).onRemote = true ↔
      .fee ∈ log ∧ .commit ∉ (sinceFee log).dropWhile (· != .sign) := by
  induction log with
  | nil => simp [openFee]
  | cons note log ih =>
      cases note with
      | sign =>
          have hdrop : .commit ∈ (sinceFee log).dropWhile (· != .sign) →
              .commit ∈ sinceFee log :=
            fun hmem => (List.dropWhile_suffix _).subset hmem
          simp only [openFee, Bool.and_eq_true, ih, openFee_onLocal]
          simp [sinceFee_cons]
          tauto
      | _ => simp [openFee, sinceFee_cons, ih]

theorem openFee_of_committed {log : List ChannelNote} (hcommitted : FeeCommitted log) :
    openFee log = {} := by
  have hremote : (openFee log).onRemote = false := by
    apply Bool.eq_false_iff.mpr
    rw [ne_eq, openFee_onRemote]
    exact fun hopen => hopen.2 (hcommitted hopen.1)
  have hlocal : (openFee log).onLocal = false := by
    apply Bool.eq_false_iff.mpr
    rw [ne_eq, openFee_onLocal]
    exact fun hopen => hopen.2 ((List.dropWhile_suffix _).subset (hcommitted hopen.1))
  calc openFee log = ⟨(openFee log).onLocal, (openFee log).onRemote⟩ := rfl
    _ = {} := by rw [hlocal, hremote]

/-- Only an accepted `update_fee` opens a feerate. -/
theorem openFee_after {log : List ChannelNote} (hclosed : openFee log = {})
    (haccepts : acceptsFee self ev = false) :
    openFee (notesOf crypto self ev ++ log) = {} := by
  have htaken : ∀ (count : Nat) (rest : List ChannelNote),
      openFee (List.replicate count .taken ++ rest) = openFee rest := by
    intro count rest
    induction count with
    | zero => rfl
    | succ count ih => exact ih
  have hcleared : ∀ (count : Nat) (rest : List ChannelNote),
      openFee (List.replicate count .cleared ++ rest) = openFee rest := by
    intro count rest
    induction count with
    | zero => rfl
    | succ count ih => exact ih
  rw [notesOf, List.append_assoc, List.append_assoc, htaken, hcleared, haccepts,
    if_neg Bool.false_ne_true]
  split_ifs <;> simp [openFee, hclosed]

/-- Every HTLC that came is gone, and no feerate is uncommitted. -/
def AllSettled (log : List ChannelNote) : Prop :=
  log.count .cleared = log.count .taken ∧ FeeCommitted log

instance (log : List ChannelNote) : Decidable (AllSettled log) :=
  inferInstanceAs (Decidable (_ ∧ _))

end Ptarmigan
