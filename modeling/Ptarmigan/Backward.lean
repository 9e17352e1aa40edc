/-
The backward resolution of forwarded HTLCs: an HTLC is failed backwards only after it has
been removed here, and a fulfilment that was passed back stays.
-/
import Ptarmigan.NodeStep

namespace Ptarmigan

open TransitionSystem

variable {crypto : Crypto} {self : LnSelf}

/-! ### A pending fulfilment in its slot -/

/-- A received HTLC is going to be fulfilled. -/
def PendingFulfill (htlc : LnUpdateAddHtlc) : Prop :=
  htlc.flag.addhtlc = .recv ∧ htlc.flag.delhtlc = .fulfill

instance (htlc : LnUpdateAddHtlc) : Decidable (PendingFulfill htlc) :=
  inferInstanceAs (Decidable (_ ∧ _))

/-- A pending fulfilment stays until the slot is emptied. -/
def KeepsFulfill (pre post : LnUpdateAddHtlc) : Prop :=
  PendingFulfill pre → (PendingFulfill post ∧ post.id = pre.id) ∨ post.empty = true

/-- What the flags of a slot tell of a fulfilment: it is never set in an unused slot, and it
is committed only after it has been sent. -/
structure FlagOrder (flag : LnHtlcflag) : Prop where
  waits : flag.updwait = false
  unused : flag.addhtlc = .none → flag.comsend = false ∧ flag.delhtlc ≠ .fulfill
  told : flag.addhtlc = .recv → flag.delhtlc = .fulfill → flag.comsend = true →
    flag.updsend = true

/-- The event resolves no pending fulfilment otherwise, and starts no received HTLC. -/
def ChannelEvent.KeepsFulfill (self : LnSelf) : ChannelEvent → Prop
  | .failHtlc idx _ => ¬ PendingFulfill (self.cnlAddHtlc idx)
  | .startFwd idx => (self.cnlAddHtlc idx).flag.addhtlc ≠ .recv
  | _ => True

theorem flagOrder_default : FlagOrder {} where
  waits := rfl
  unused := fun _ => ⟨rfl, LnDelhtlc.noConfusion⟩
  told := fun hadd => by cases hadd

namespace FlagOrder

variable {flag : LnHtlcflag}

theorem clearComrev (horder : FlagOrder flag) (delHtlc : LnDelhtlc) :
    FlagOrder (flag.clearComrev delHtlc) := by
  rw [LnHtlcflag.clearComrev]
  split
  · rename_i hall
    constructor
    · exact horder.waits
    · intro hadd
      have hsend := (horder.unused hadd).1
      simp [LnHtlcflag.comrevAll, hsend] at hall
    · intro _ _ hsend
      cases hsend
  · exact horder

theorem offer (horder : FlagOrder flag) : FlagOrder { flag with addhtlc := .offer } where
  waits := horder.waits
  unused := fun hadd => by cases hadd
  told := fun hadd => by cases hadd

theorem recv (horder : FlagOrder flag) (hadd : flag.addhtlc = .none) (finDelhtlc : LnDelhtlc) :
    FlagOrder { flag with addhtlc := .recv, finDelhtlc } where
  waits := horder.waits
  unused := fun hadd => by cases hadd
  told := fun _ hdel => absurd hdel (horder.unused hadd).2

theorem fail (horder : FlagOrder flag) (finDelhtlc : LnDelhtlc) :
    FlagOrder { flag with delhtlc := .fail, finDelhtlc } where
  waits := horder.waits
  unused := fun hadd => ⟨(horder.unused hadd).1, LnDelhtlc.noConfusion⟩
  told := fun _ hdel => by cases hdel

theorem idleUpdateSlot {htlc : LnUpdateAddHtlc} (horder : FlagOrder htlc.flag) :
    FlagOrder (idleUpdateSlot htlc).flag := by
  rw [Ptarmigan.idleUpdateSlot]
  split
  · exact ⟨horder.waits, horder.unused, fun _ _ _ => rfl⟩
  · exact horder

/-- The idle processing sends the fulfilment before it commits it. -/
theorem idleUpdateSlot_told {htlc : LnUpdateAddHtlc} (horder : FlagOrder htlc.flag)
    (hpending : PendingFulfill htlc) : (Ptarmigan.idleUpdateSlot htlc).flag.updsend = true := by
  obtain ⟨hadd, hdel⟩ := hpending
  rw [Ptarmigan.idleUpdateSlot]
  split
  · rfl
  · rename_i hnone
    by_contra hsend
    rw [Bool.not_eq_true] at hsend
    simp [idleUpdateMsg, LnUpdateAddHtlc.enable, LnUpdateAddHtlc.empty, LnHtlcflag.willAddhtlc,
      LnHtlcflag.willDelhtlc, hadd, hdel, hsend, horder.waits] at hnone

theorem setComsend {htlc : LnUpdateAddHtlc} (horder : FlagOrder htlc.flag) :
    FlagOrder ((Ptarmigan.idleUpdateSlot htlc).setFlagIf LnHtlcflag.remoteCounted
      fun flag => { flag with comsend := true }).flag := by
  have hafter := horder.idleUpdateSlot
  have hsame := SameHtlc.idleUpdateSlot htlc
  rw [LnUpdateAddHtlc.setFlagIf]
  split
  · rename_i hcounted
    constructor
    · exact hafter.waits
    · intro hadd
      have hnone : (Ptarmigan.idleUpdateSlot htlc).flag.addhtlc = .none := hadd
      simp [(not_counted_of_none hnone).1] at hcounted
    · intro hadd hdel _
      refine horder.idleUpdateSlot_told ⟨hsame.addhtlc.symm.trans hadd, ?_⟩
      rw [Ptarmigan.idleUpdateSlot] at hdel
      split at hdel <;> exact hdel
  · exact hafter

theorem finalised {htlc : LnUpdateAddHtlc} (horder : FlagOrder htlc.flag) :
    FlagOrder (idleFinalSlot htlc).1.flag := by
  simp only [idleFinalSlot]
  split_ifs
  · exact horder
  · exact horder
  · exact horder.clearComrev _
  · exact horder.clearComrev _
  · exact horder
  · exact horder
  all_goals exact flagOrder_default

end FlagOrder

theorem SlotChange.flagOrder {ev : ChannelEvent} {idx : HtlcIdx} {post : LnUpdateAddHtlc}
    (hchange : SlotChange crypto self ev idx post)
    (horder : FlagOrder (self.cnlAddHtlc idx).flag) : FlagOrder post.flag := by
  have hempty (hfirst : firstEmpty self.cnlAddHtlc = some idx) :=
    addhtlc_of_empty (empty_of_firstEmpty hfirst)
  cases hchange with
  | kept => exact horder
  | read => exact horder
  | received haccepted _ _ hflag =>
      obtain ⟨finDelhtlc, hflag⟩ := hflag
      rw [hflag]
      exact horder.recv (hempty (firstEmpty_of_acceptedSlot haccepted)) finDelhtlc
  | receivedFailed haccepted _ _ hflag =>
      obtain ⟨flag, rfl, hflag⟩ := hflag
      rw [hflag]
      have hrecv := horder.recv (hempty (firstEmpty_of_acceptedSlot haccepted))
        (self.cnlAddHtlc idx).flag.finDelhtlc
      exact (hrecv.clearComrev .fail).fail .fail
  | removing => exact horder.clearComrev _
  | signed => exact horder
  | committed =>
      rename_i signature
      simp only [LnUpdateAddHtlc.setFlagIf]
      split_ifs <;> exact ⟨horder.waits, horder.unused, horder.told⟩
  | acked =>
      rw [LnUpdateAddHtlc.setFlagIf]
      split
      · exact ⟨horder.waits, horder.unused, horder.told⟩
      · exact horder
  | finalised => exact horder.finalised
  | updated => exact horder.idleUpdateSlot
  | comsent => exact horder.setComsend
  | offered => exact horder.offer
  | dropped => exact flagOrder_default
  | reserved => exact horder
  | droppedFwd => exact flagOrder_default
  | started => exact horder.offer
  | fulfilled => exact horder.clearComrev _
  | failed _ hflag =>
      rw [hflag]
      exact (horder.clearComrev .fail).fail _
  | resent =>
      constructor
      · exact horder.waits
      · exact fun hadd => ⟨rfl, (horder.unused hadd).2⟩
      · exact fun _ _ hsend => by cases hsend

/-- The ways in which an event changes the removal of the HTLC in a slot. -/
inductive RemovalChange (self : LnSelf) (idx : HtlcIdx) :
    ChannelEvent → LnUpdateAddHtlc → Prop
  | same {ev post} : SameHtlc (self.cnlAddHtlc idx) post →
      post.flag.delhtlc = (self.cnlAddHtlc idx).flag.delhtlc → RemovalChange self idx ev post
  /-- The slot is taken, or given up again. -/
  | taken {ev post} : (self.cnlAddHtlc idx).empty = true →
      (post.flag.addhtlc = .recv → post.flag.delhtlc = (self.cnlAddHtlc idx).flag.delhtlc ∨
        post.flag.delhtlc = .fail) → RemovalChange self idx ev post
  | removing {channelId msg env id delHtlc} : msg.removal = some (id, delHtlc) →
      findOffered self.cnlAddHtlc id = some idx →
      RemovalChange self idx (.recv channelId msg env)
        ((self.cnlAddHtlc idx).clearHtlcComrevflag delHtlc)
  | finalised : AllComrev self →
      RemovalChange self idx .idle (idleFinalSlot (self.cnlAddHtlc idx)).1
  | started : RemovalChange self idx (.startFwd idx)
      ((self.cnlAddHtlc idx).setFlag fun flag => { flag with addhtlc := .offer })
  | fulfilled {preimage} : RemovalChange self idx (.fulfillHtlc idx preimage)
      { (self.cnlAddHtlc idx).clearHtlcComrevflag .fulfill with bufPaymentPreimage := preimage }
  | failed {reason post} : SameHtlc (self.cnlAddHtlc idx) post →
      post.flag = { (self.cnlAddHtlc idx).flag.clearComrev .fail with delhtlc := .fail } →
      RemovalChange self idx (.failHtlc idx reason) post

theorem SlotChange.removal {ev : ChannelEvent} {idx : HtlcIdx} {post : LnUpdateAddHtlc}
    (hchange : SlotChange crypto self ev idx post) : RemovalChange self idx ev post := by
  have hupdate : (idleUpdateSlot (self.cnlAddHtlc idx)).flag.delhtlc =
      (self.cnlAddHtlc idx).flag.delhtlc := by
    rw [idleUpdateSlot]
    split <;> rfl
  cases hchange with
  | kept => exact .same (.refl _) rfl
  | read hfirst => exact .taken (empty_of_firstEmpty hfirst) fun _ => .inl rfl
  | received haccepted _ _ hflag =>
      obtain ⟨finDelhtlc, hflag⟩ := hflag
      refine .taken (empty_of_firstEmpty (firstEmpty_of_acceptedSlot haccepted)) fun _ => ?_
      rw [hflag]
      exact .inl rfl
  | receivedFailed haccepted _ _ hflag =>
      obtain ⟨flag, -, hflag⟩ := hflag
      refine .taken (empty_of_firstEmpty (firstEmpty_of_acceptedSlot haccepted)) fun _ => ?_
      rw [hflag]
      exact .inr rfl
  | removing _ hmsg hfind => exact .removing hmsg hfind
  | signed => exact .same ⟨rfl, rfl, rfl, rfl, rfl, rfl, rfl⟩ rfl
  | committed =>
      rename_i signature
      have hsigned : SameHtlc (self.cnlAddHtlc idx) { self.cnlAddHtlc idx with signature } :=
        ⟨rfl, rfl, rfl, rfl, rfl, rfl, rfl⟩
      refine .same ((hsigned.trans (.setFlagIf ?_)).trans (.setFlagIf ?_)) ?_
      · exact fun _ => rfl
      · exact fun _ => rfl
      · simp only [LnUpdateAddHtlc.setFlagIf]
        split_ifs <;> rfl
  | acked =>
      refine .same (.setFlagIf fun _ => rfl) ?_
      rw [LnUpdateAddHtlc.setFlagIf]
      split <;> rfl
  | finalised hall => exact .finalised hall
  | updated => exact .same (.idleUpdateSlot _) hupdate
  | comsent =>
      refine .same ((SameHtlc.idleUpdateSlot _).trans (.setFlagIf fun _ => rfl)) ?_
      rw [← hupdate, LnUpdateAddHtlc.setFlagIf]
      split <;> rfl
  | offered hcheck =>
      refine .taken (empty_of_firstEmpty (firstEmpty_of_checkCreateAddHtlc hcheck)) fun hadd => ?_
      cases hadd
  | dropped hcheck =>
      refine .taken (empty_of_firstEmpty (firstEmpty_of_checkCreateAddHtlc hcheck)) fun hadd => ?_
      cases hadd
  | reserved hcheck =>
      exact .taken (empty_of_firstEmpty (firstEmpty_of_checkCreateAddHtlc hcheck)) fun _ => .inl rfl
  | droppedFwd hcheck =>
      refine .taken (empty_of_firstEmpty (firstEmpty_of_checkCreateAddHtlc hcheck)) fun hadd => ?_
      cases hadd
  | started => exact .started
  | fulfilled => exact .fulfilled
  | failed hsame hflag => exact .failed hsame hflag
  | resent => exact .same (.setFlag rfl) rfl

/-- A slot with a pending fulfilment whose commitment has gone both ways is removed. -/
theorem FlagOrder.removes {htlc : LnUpdateAddHtlc} (horder : FlagOrder htlc.flag)
    (hpending : PendingFulfill htlc) (hall : htlc.flag.comrevAll = true) :
    idleFinalRemoves htlc = true := by
  obtain ⟨hadd, hdel⟩ := hpending
  simp only [LnHtlcflag.comrevAll, Bool.and_eq_true] at hall
  have hsend := horder.told hadd hdel hall.1.1.1
  simp [idleFinalRemoves, LnUpdateAddHtlc.enable, LnUpdateAddHtlc.empty,
    LnHtlcflag.enableLocalAddhtlcOffer, LnHtlcflag.enableLocalAddhtlcRecv, hadd, hsend, hall]

theorem RemovalChange.keepsFulfill {ev : ChannelEvent} {idx : HtlcIdx} {post : LnUpdateAddHtlc}
    (hchange : RemovalChange self idx ev post) (horder : FlagOrder (self.cnlAddHtlc idx).flag)
    (hkeeps : ev.KeepsFulfill self) : KeepsFulfill (self.cnlAddHtlc idx) post := by
  intro hpending
  cases hchange with
  | same hsame hdel =>
      exact .inl ⟨⟨hsame.addhtlc.trans hpending.1, hdel.trans hpending.2⟩, hsame.id⟩
  | taken hempty =>
      have hadd := addhtlc_of_empty hempty
      rw [hpending.1] at hadd
      cases hadd
  | removing _ hfind =>
      have hadd := addhtlc_of_findOffered hfind
      rw [hpending.1] at hadd
      cases hadd
  | finalised hall =>
      right
      have henable : (self.cnlAddHtlc idx).enable = true := by
        simp [LnUpdateAddHtlc.enable, LnUpdateAddHtlc.empty, hpending.1]
      rw [idleFinalSlot_removed (horder.removes hpending (hall idx henable))]
      rfl
  | started => exact absurd hpending.1 hkeeps
  | fulfilled =>
      left
      have hclear := SameHtlc.clearHtlcComrevflag (self.cnlAddHtlc idx) .fulfill
      refine ⟨⟨hclear.addhtlc.trans hpending.1, ?_⟩, hclear.id⟩
      simp only [LnUpdateAddHtlc.clearHtlcComrevflag, LnHtlcflag.clearComrev]
      split
      · rfl
      · exact hpending.2
  | failed => exact absurd hpending hkeeps

/-- A fulfilment that becomes pending is saved by the event that sets it. -/
theorem RemovalChange.newFulfill {ev : ChannelEvent} {idx : HtlcIdx} {post : LnUpdateAddHtlc}
    (hchange : RemovalChange self idx ev post) (horder : FlagOrder (self.cnlAddHtlc idx).flag)
    (hpending : PendingFulfill post) :
    (PendingFulfill (self.cnlAddHtlc idx) ∧ post.id = (self.cnlAddHtlc idx).id) ∨
      (∃ preimage, ev = .fulfillHtlc idx preimage) ∨
      ev = .idle ∧ AllComrev self ∧ idleFinalDbUpd (self.cnlAddHtlc idx) = true := by
  obtain ⟨hadd, hdel⟩ := hpending
  cases hchange with
  | same hsame hsameDel =>
      exact .inl ⟨⟨hsame.addhtlc.symm.trans hadd, hsameDel.symm.trans hdel⟩, hsame.id⟩
  | taken hempty htaken =>
      rw [hdel] at htaken
      rcases htaken hadd with hkept | hfail
      · exact absurd hkept.symm (horder.unused (addhtlc_of_empty hempty)).2
      · cases hfail
  | removing _ hfind =>
      have hoffer := (SameHtlc.clearHtlcComrevflag (self.cnlAddHtlc idx) _).addhtlc.symm.trans hadd
      rw [addhtlc_of_findOffered hfind] at hoffer
      cases hoffer
  | finalised hall =>
      by_cases hupd : idleFinalDbUpd (self.cnlAddHtlc idx) = true
      · exact .inr (.inr ⟨rfl, hall, hupd⟩)
      · left
        have hkept : (idleFinalSlot (self.cnlAddHtlc idx)).1 = self.cnlAddHtlc idx := by
          simp only [idleFinalDbUpd, idleFinalRemoves] at hupd
          simp only [idleFinalSlot]
          split_ifs <;> simp_all
        rw [hkept] at hadd hdel ⊢
        exact ⟨⟨hadd, hdel⟩, rfl⟩
  | started => cases hadd
  | fulfilled => exact .inr (.inl ⟨_, rfl⟩)
  | failed _ hflag =>
      rw [hflag] at hdel
      cases hdel

/-! ### Pending fulfilments over a run -/

/-- The slots that a trace of saves leaves in the database. -/
theorem Db.writes_slots {slots : Slots} {trace : List Effect} :
    ∀ db : Db, (∀ saved, Effect.selfSave saved ∈ trace → saved.cnlAddHtlc = slots) →
      (∀ idx, ∃ old, (db.writes trace).chan.cnlAddHtlc idx = (slots idx).saveOver old) ∨
        (db.writes trace).chan.cnlAddHtlc = db.chan.cnlAddHtlc ∧
          ∀ saved, Effect.selfSave saved ∉ trace := by
  induction trace with
  | nil =>
      intro db _
      exact .inr ⟨rfl, fun _ => List.not_mem_nil⟩
  | cons effect rest ih =>
      intro db hsaved
      have hrest := ih (db.write effect)
        fun saved hmem => hsaved saved (List.mem_cons_of_mem _ hmem)
      rcases hrest with hrest | ⟨hrest, hnone⟩
      · exact .inl hrest
      · cases effect with
        | selfSave saved =>
            left
            intro idx
            refine ⟨db.chan.cnlAddHtlc idx, ?_⟩
            rw [← hsaved saved (List.mem_cons_self ..)]
            exact congrFun hrest idx
        | _ =>
            right
            refine ⟨hrest, fun saved hmem => ?_⟩
            rcases List.mem_cons.mp hmem with heq | hmem
            · cases heq
            · exact hnone saved hmem

theorem KeepsFulfill.saveOver {pre post : LnUpdateAddHtlc} (hkeeps : KeepsFulfill pre post)
    (old : LnUpdateAddHtlc) : KeepsFulfill pre (post.saveOver old) :=
  hkeeps

/-- The flags are in order in memory and in the database, and a pending fulfilment is saved as
long as the channel is running. -/
structure FulfillInv (chan : ChannelState) : Prop where
  self : ∀ idx, FlagOrder (chan.self.cnlAddHtlc idx).flag
  db : ∀ idx, FlagOrder (chan.db.chan.cnlAddHtlc idx).flag
  saved : ∀ idx, KeepsFulfill (chan.self.cnlAddHtlc idx) (chan.db.chan.cnlAddHtlc idx)
  running : chan.running = true → ∀ idx, PendingFulfill (chan.self.cnlAddHtlc idx) →
    PendingFulfill (chan.db.chan.cnlAddHtlc idx)

/-- An event that makes a fulfilment pending saves it. -/
theorem saves_of_newFulfill {ev : ChannelEvent} {idx : HtlcIdx}
    (horder : FlagOrder (self.cnlAddHtlc idx).flag)
    (hpending : PendingFulfill ((handle crypto self ev).self.cnlAddHtlc idx))
    (hnone : ∀ saved, Effect.selfSave saved ∉ (handle crypto self ev).trace) :
    PendingFulfill (self.cnlAddHtlc idx) ∧
      ((handle crypto self ev).self.cnlAddHtlc idx).id = (self.cnlAddHtlc idx).id := by
  have hchange := (handle_slotChange crypto self ev idx).removal
  rcases hchange.newFulfill horder hpending with hsame | ⟨preimage, rfl⟩ | ⟨rfl, hall, hupd⟩
  · exact hsame
  · exact absurd (List.mem_singleton_self _) (hnone _)
  · have hany : ((List.finRange lnHtlcMax).any fun idx =>
        idleFinalDbUpd (self.cnlAddHtlc idx)) = true :=
      List.any_eq_true.mpr ⟨idx, List.mem_finRange idx, hupd⟩
    have hfinal : handle crypto self .idle = recvIdleProcFinal self ∨
        handle crypto self .idle = ⟨true, self, []⟩ := by
      simp only [handle, lnRecvIdleProc]
      split_ifs with hempty hcomrev
      · exact .inr rfl
      · exact .inl rfl
      · refine absurd ?_ hcomrev
        simp only [List.all_eq_true, List.mem_filter, List.mem_finRange, true_and]
        exact hall
    rcases hfinal with hfinal | hfinal
    · refine absurd ?_ (hnone (recvIdleProcFinal self).self)
      rw [hfinal]
      simp [recvIdleProcFinal, hany]
    · rw [hfinal] at hpending ⊢
      exact ⟨hpending, rfl⟩

theorem fulfillInv_step {before after : ChannelState} {label : ChannelLabel}
    (hinv : FulfillInv before)
    (hkeeps : ∀ ev, label.ev = some ev → ev.KeepsFulfill before.self)
    (hnext : channelNext crypto before label = some after) :
    FulfillInv after ∧
      ∀ idx, KeepsFulfill (before.self.cnlAddHtlc idx) (after.self.cnlAddHtlc idx) := by
  have horder := @channelNext_slots crypto (fun _ htlc => FlagOrder htlc.flag)
    (fun _ _ _ horder => horder) _ _ _ hnext hinv.self hinv.db
    (fun ev _ idx post hchange => hchange.flagOrder (hinv.self idx))
    fun ev done _ _ idx post hchange => hchange.flagOrder (hinv.self idx)
  have hhandled {ev : ChannelEvent} (hev : label.ev = some ev) (idx : HtlcIdx) :
      KeepsFulfill (before.self.cnlAddHtlc idx)
        ((handle crypto before.self ev).self.cnlAddHtlc idx) :=
    (handle_slotChange crypto before.self ev idx).removal.keepsFulfill (hinv.self idx)
      (hkeeps ev hev)
  cases label with
  | event ev =>
      simp only [channelNext] at hnext
      split at hnext
      swap
      · cases hnext
      rename_i henabled
      obtain rfl := Option.some.inj hnext
      have hrunning := (Bool.and_eq_true_iff.mp henabled).1
      refine ⟨?_, hhandled rfl⟩
      have hpost : ∀ idx, PendingFulfill ((handle crypto before.self ev).self.cnlAddHtlc idx) →
          PendingFulfill ((before.db.writes (handle crypto before.self ev).trace).chan.cnlAddHtlc
              idx) ∧
            ((before.db.writes (handle crypto before.self ev).trace).chan.cnlAddHtlc idx).id =
              ((handle crypto before.self ev).self.cnlAddHtlc idx).id := by
        intro idx hpending
        rcases Db.writes_slots before.db (fun saved hsaved => handle_saved_slots hsaved)
          with hsaves | ⟨hsame, hnone⟩
        · obtain ⟨old, hold⟩ := hsaves idx
          rw [hold]
          exact ⟨hpending, rfl⟩
        · obtain ⟨hpre, hid⟩ := saves_of_newFulfill (hinv.self idx) hpending hnone
          have hdb := hinv.running hrunning idx hpre
          rw [hsame]
          rcases hinv.saved idx hpre with ⟨-, hsavedId⟩ | hempty
          · exact ⟨hdb, hsavedId.trans hid.symm⟩
          · have hadd := addhtlc_of_empty hempty
            rw [hdb.1] at hadd
            cases hadd
      exact ⟨horder.1, horder.2, fun idx hpending => .inl (hpost idx hpending),
        fun _ idx hpending => (hpost idx hpending).1⟩
  | stop ev done =>
      simp only [channelNext] at hnext
      split at hnext
      swap
      · cases hnext
      obtain rfl := Option.some.inj hnext
      refine ⟨⟨horder.1, horder.2, ?_, fun hrunning => by cases hrunning⟩, fun idx hpending =>
        .inl ⟨hpending, rfl⟩⟩
      intro idx hpending
      have hsaved (saved : LnSelf)
          (hmem : Effect.selfSave saved ∈ (handle crypto before.self ev).trace.take done) :
          saved.cnlAddHtlc = (handle crypto before.self ev).self.cnlAddHtlc :=
        handle_saved_slots (List.mem_of_mem_take hmem)
      rcases Db.writes_slots before.db hsaved with
        hsaves | ⟨hsame, -⟩
      · obtain ⟨old, hold⟩ := hsaves idx
        have hkept := (hhandled rfl idx).saveOver old hpending
        rw [← hold] at hkept
        exact hkept
      · have hkept := hinv.saved idx hpending
        rw [← hsame] at hkept
        exact hkept
  | restart dataloss =>
      obtain rfl := Option.some.inj hnext
      exact ⟨⟨horder.1, horder.2, fun idx hpending => .inl ⟨hpending, rfl⟩,
        fun _ idx hpending => hpending⟩, hinv.saved⟩

/-! ### Pending fulfilments in a node -/

/-- The invariant in all channels. -/
def NodeFulfill (node : Node) : Prop :=
  ∀ (pos : Nat) (chan : ChannelState), node.channels[pos]? = some chan → FulfillInv chan

/-- The slot of the channel holds the fulfilment of the HTLC, or has been emptied. -/
def Node.HoldsFulfill (node : Node) (pos : Nat) (idx : HtlcIdx) (id : Nat) : Prop :=
  ∃ chan, node.channels[pos]? = some chan ∧
    (PendingFulfill (chan.self.cnlAddHtlc idx) ∧ (chan.self.cnlAddHtlc idx).id = id ∨
      (chan.self.cnlAddHtlc idx).empty = true)

theorem nodeFulfill_start {node : Node} (hstart : (nodeSystem crypto).start node) :
    NodeFulfill node := by
  intro pos chan hchan
  obtain ⟨outcome, hdone, rfl⟩ := hstart.1 chan (List.mem_of_getElem? hchan)
  obtain ⟨_, _, _, ready, rfl, hfresh⟩ := hdone.fresh
  have hflag (idx : HtlcIdx) : (ready.cnlAddHtlc idx).flag = {} := by
    obtain ⟨signature, hidx⟩ := hfresh.slots idx
    rw [hidx]
  have horder (idx : HtlcIdx) : FlagOrder (ready.cnlAddHtlc idx).flag := by
    rw [hflag]
    exact flagOrder_default
  have hnot (idx : HtlcIdx) : ¬ PendingFulfill (ready.cnlAddHtlc idx) := by
    intro hpending
    have hadd := hpending.1
    rw [hflag] at hadd
    cases hadd
  exact ⟨horder, horder, fun idx hpending => absurd hpending (hnot idx),
    fun _ idx hpending => absurd hpending (hnot idx)⟩

theorem NodeFulfill.setChannel {node : Node} (hinv : NodeFulfill node) {pos : Nat}
    {chan after : ChannelState} (hchan : node.channels[pos]? = some chan)
    (hafter : FulfillInv after) : NodeFulfill (node.setChannel pos after) := by
  intro other found hfound
  rcases Node.setChannel_getElem hchan hfound with ⟨-, rfl⟩ | ⟨-, hfound⟩
  · exact hafter
  · exact hinv other found hfound

/-- A slot that is empty stays so, unless it is started. -/
theorem empty_of_resolves {ev : ChannelEvent} {idx : HtlcIdx}
    (hresolves : ev.resolves.isSome ∨ ∃ target, ev = .startFwd target ∧ target ≠ idx)
    (hempty : (self.cnlAddHtlc idx).empty = true) :
    ((handle crypto self ev).self.cnlAddHtlc idx).empty = true := by
  rcases hresolves with hresolves | ⟨target, rfl, htarget⟩
  · have hsame : SameHtlc (self.cnlAddHtlc idx) ((handle crypto self ev).self.cnlAddHtlc idx) := by
      cases ev with
      | fulfillHtlc target preimage =>
          simp only [handle, lnFulfillHtlcSet, LnSelf.setSlot_slot]
          split
          · rename_i htarget
            subst htarget
            have hclear := SameHtlc.clearHtlcComrevflag (self.cnlAddHtlc idx) .fulfill
            exact ⟨hclear.id, hclear.amountMsat, hclear.cltvExpiry, hclear.paymentSha256,
              hclear.addhtlc, hclear.prevShortChannelId, hclear.prevIdx⟩
          · exact .refl _
      | failHtlc target reason =>
          simp only [handle, lnFailHtlcSet, LnSelf.setSlot_slot]
          split
          · rename_i htarget
            subst htarget
            have hclear := SameHtlc.clearHtlcComrevflag (self.cnlAddHtlc idx) .fail
            exact ⟨hclear.id, hclear.amountMsat, hclear.cltvExpiry, hclear.paymentSha256,
              hclear.addhtlc, hclear.prevShortChannelId, hclear.prevIdx⟩
          · exact .refl _
      | _ => cases hresolves
    rw [hsame.empty]
    exact hempty
  · have hkept : (handle crypto self (.startFwd target)).self.cnlAddHtlc idx =
        self.cnlAddHtlc idx := by
      simp only [handle, lnAddHtlcStartFwd, LnSelf.setSlot_slot, if_neg (Ne.symm htarget)]
    rw [hkept]
    exact hempty

/-- A request of a callback that resolves no pending fulfilment otherwise. -/
theorem NodeFulfill.request {node : Node} (hinv : NodeFulfill node) (crypto : Crypto)
    {scid : UInt64}
    {ev : ChannelEvent}
    (hkeeps : ∀ pos chan, node.Transferable scid pos chan → ev.KeepsFulfill chan.self) :
    NodeFulfill (node.request crypto scid ev) ∧
      ∀ pos idx id, (ev.resolves.isSome ∨ ∃ target, ev = .startFwd target ∧
          ∀ chan, node.Transferable scid pos chan → target ≠ idx) →
        node.HoldsFulfill pos idx id → (node.request crypto scid ev).HoldsFulfill pos idx id := by
  rcases Node.request_cases crypto node scid ev with
    hsame | ⟨found, chan, after, -, htransferable, hnext, hrequest⟩
  · rw [hsame]
    exact ⟨hinv, fun _ _ _ _ hholds => hholds⟩
  · have hchan := htransferable.1
    have hlabel : ∀ ev', (ChannelLabel.event ev).ev = some ev' → ev'.KeepsFulfill chan.self := by
      intro ev' hev
      exact Option.some.inj hev ▸ hkeeps found chan htransferable
    obtain ⟨hafter, hslots⟩ := fulfillInv_step (hinv found chan hchan) hlabel hnext
    rw [hrequest]
    refine ⟨hinv.setChannel hchan hafter, fun pos idx id hev hholds => ?_⟩
    obtain ⟨held, hheld, hslot⟩ := hholds
    by_cases hpos : pos = found
    · subst hpos
      obtain rfl := Option.some.inj (hchan.symm.trans hheld)
      refine ⟨after, Node.setChannel_self hchan, ?_⟩
      rcases hslot with ⟨hpending, rfl⟩ | hempty
      · exact hslots idx hpending
      · right
        have hself : after.self = (handle crypto chan.self ev).self := by
          simp only [channelNext] at hnext
          split at hnext
          · obtain rfl := Option.some.inj hnext
            rfl
          · cases hnext
        rw [hself]
        refine empty_of_resolves ?_ hempty
        rcases hev with hresolves | ⟨target, rfl, htarget⟩
        · exact .inl hresolves
        · exact .inr ⟨target, rfl, htarget chan htransferable⟩
    · exact ⟨held, (Node.setChannel_other hpos).trans hheld, hslot⟩

/-! ### Backward resolution in order -/

/-- The HTLC has been failed by the peer, and both sides have committed and revoked that. -/
def IrrevocablyFailed (htlc : LnUpdateAddHtlc) : Prop :=
  htlc.flag.comrevAll = true ∧ (htlc.flag.delhtlc = .fail ∨ htlc.flag.delhtlc = .malformed)

/-- One step does what forwarding must not lose money by: the HTLC of the previous channel
is failed only after this one is irrevocably removed as failed, an accepted fulfilment makes
the fulfilment there pending, and no pending fulfilment is replaced. -/
structure ForwardSafe (crypto : Crypto) (before : Node) (label : NodeLabel) (after : Node) :
    Prop where
  failsLate : ∀ pos step ev (chan : ChannelState) other idx, label = .chan pos step →
    step.ev = some ev →
    before.channels[pos]? = some chan → (other, idx, .fail) ∈ before.reached crypto pos ev →
      ∃ (target : HtlcIdx) (prev : ChannelState), IrrevocablyFailed (chan.self.cnlAddHtlc target) ∧
        before.channels[other]? = some prev ∧
        (chan.self.cnlAddHtlc target).prevShortChannelId = prev.self.shortChannelId ∧
        (chan.self.cnlAddHtlc target).prevIdx = idx
  fulfills : ∀ pos chan channelId msg env id idx,
    label = .chan pos (.event (.recv channelId msg env)) → before.channels[pos]? = some chan →
      msg.removal = some (id, .fulfill) → removedSlot crypto chan.self channelId msg = some idx →
      Forwarded (chan.self.cnlAddHtlc idx) →
        ∃ (other : Nat) (prev : ChannelState), after.channels[other]? = some prev ∧
          prev.self.shortChannelId = (chan.self.cnlAddHtlc idx).prevShortChannelId ∧
          PendingFulfill (prev.self.cnlAddHtlc (chan.self.cnlAddHtlc idx).prevIdx)
  keeps : ∀ (pos : Nat) (chan : ChannelState) (idx : HtlcIdx),
    before.channels[pos]? = some chan → PendingFulfill (chan.self.cnlAddHtlc idx) →
      after.HoldsFulfill pos idx (chan.self.cnlAddHtlc idx).id

/-- The peer fails again an HTLC whose removal both sides have committed and revoked, and
which has the same slot on the previous channel, where no fulfilment is pending. -/
structure RepeatsFailure (node : Node) (htlc : LnUpdateAddHtlc) (idx : HtlcIdx) : Prop where
  acked : htlc.flag.comrevAll = true
  failed : htlc.flag.delhtlc = .fail ∨ htlc.flag.delhtlc = .malformed
  sameSlot : htlc.prevIdx = idx
  unresolved : ∀ other prev, node.Transferable htlc.prevShortChannelId other prev →
    ¬ PendingFulfill (prev.self.cnlAddHtlc idx)

/-- A failure of a forwarded HTLC arrives while the previous channel cannot be reached, or
repeats one; a fulfilment only when the HTLC of the previous channel can be reached and is
pending there; and a forward is started only in a slot that is not one of a received HTLC. -/
structure SettlesInOrder (crypto : Crypto) (node : Node) (chan : ChannelState)
    (ev : ChannelEvent) : Prop where
  failed : ∀ channelId msg env id delHtlc idx, ev = .recv channelId msg env →
    msg.removal = some (id, delHtlc) → delHtlc ≠ .fulfill →
    removedSlot crypto chan.self channelId msg = some idx →
    (chan.self.cnlAddHtlc idx).prevShortChannelId ≠ 0 →
      (∀ other prev,
        ¬ node.Transferable (chan.self.cnlAddHtlc idx).prevShortChannelId other prev) ∨
      RepeatsFailure node (chan.self.cnlAddHtlc idx) idx
  fulfilled : ∀ channelId msg env id idx, ev = .recv channelId msg env →
    msg.removal = some (id, .fulfill) → removedSlot crypto chan.self channelId msg = some idx →
    Forwarded (chan.self.cnlAddHtlc idx) →
      ∃ (other : Nat) (prev : ChannelState),
        node.upstream (chan.self.cnlAddHtlc idx) = some other ∧
        node.channels[other]? = some prev ∧
        (prev.self.cnlAddHtlc (chan.self.cnlAddHtlc idx).prevIdx).flag.addhtlc = .recv ∧
        ((prev.self.cnlAddHtlc (chan.self.cnlAddHtlc idx).prevIdx).flag.comrevAll = true ∨
          (prev.self.cnlAddHtlc (chan.self.cnlAddHtlc idx).prevIdx).flag.delhtlc = .fulfill)
  started : ev = .idle → AllComrev chan.self → ∀ idx other next,
    (chan.self.cnlAddHtlc idx).flag.addhtlc = .recv →
    (chan.self.cnlAddHtlc idx).nextShortChannelId ≠ 0 →
    node.Transferable (chan.self.cnlAddHtlc idx).nextShortChannelId other next →
      (next.self.cnlAddHtlc (chan.self.cnlAddHtlc idx).nextIdx).flag.addhtlc ≠ .recv

/-- The step of a node whose event comes in order. -/
def NodeSettlesInOrder (crypto : Crypto) (node : Node) (label : NodeLabel) : Prop :=
  ∀ pos step ev chan, label = .chan pos step → step.ev = some ev →
    node.channels[pos]? = some chan → SettlesInOrder crypto node chan ev

/-- What the search for a channel looks at has not appeared since, nor has a received HTLC. -/
def Follows (before mid : Node) : Prop :=
  ∀ (pos : Nat) (after : ChannelState), mid.channels[pos]? = some after →
    ∃ chan, before.channels[pos]? = some chan ∧ (after.running = true → chan.running = true) ∧
      after.self.shortChannelId = chan.self.shortChannelId ∧
      after.self.status = chan.self.status ∧
      ∀ idx, (after.self.cnlAddHtlc idx).flag.addhtlc = .recv →
        (chan.self.cnlAddHtlc idx).flag.addhtlc = .recv

theorem Follows.transferable {before mid : Node} (hfollows : Follows before mid) {scid : UInt64}
    {pos : Nat} {after : ChannelState} (htransferable : mid.Transferable scid pos after) :
    ∃ chan, before.Transferable scid pos chan ∧
      ∀ idx, (after.self.cnlAddHtlc idx).flag.addhtlc = .recv →
        (chan.self.cnlAddHtlc idx).flag.addhtlc = .recv := by
  obtain ⟨hafter, hrunning, hscid, hnormal⟩ := htransferable
  obtain ⟨chan, hchan, hrun, hid, hstatus, hslots⟩ := hfollows pos after hafter
  exact ⟨chan, ⟨hchan, hrun hrunning, hid.symm.trans hscid, hstatus.symm.trans hnormal⟩, hslots⟩

theorem Follows.startFwd {before mid : Node} (hfollows : Follows before mid) (crypto : Crypto)
    (scid : UInt64) (idx : HtlcIdx) : Follows before (mid.request crypto scid (.startFwd idx)) := by
  rcases Node.request_cases crypto mid scid
      (.startFwd idx) with hsame | ⟨found, chan, after, -, htransferable, hnext, hrequest⟩
  · rw [hsame]
    exact hfollows
  · rw [hrequest]
    have hchan := htransferable.1
    intro pos other hother
    rcases Node.setChannel_getElem hchan hother with ⟨rfl, rfl⟩ | ⟨-, hother⟩
    · obtain ⟨first, hfirst, hrun, hid, hstatus, hslots⟩ := hfollows pos chan hchan
      simp only [channelNext] at hnext
      split at hnext
      swap
      · cases hnext
      obtain rfl := Option.some.inj hnext
      refine ⟨first, hfirst, fun _ => hrun htransferable.2.1, hid, hstatus, fun slot hadd => ?_⟩
      apply hslots
      simp only [handle, lnAddHtlcStartFwd, LnSelf.setSlot_slot] at hadd
      split at hadd
      · cases hadd
      · exact hadd
    · exact hfollows pos other hother

/-- The forwards that are started in slots which are not those of received HTLCs. -/
theorem NodeFulfill.startFwds (crypto : Crypto) {before : Node}
    {reqs : List (UInt64 × ChannelEvent)}
    (hreqs : ∀ req ∈ reqs, ∃ idx, req.2 = .startFwd idx ∧ ∀ pos chan,
      before.Transferable req.1 pos chan → (chan.self.cnlAddHtlc idx).flag.addhtlc ≠ .recv) :
    ∀ {mid : Node}, Follows before mid → NodeFulfill mid →
      NodeFulfill (reqs.foldl (fun node req => node.request crypto req.1 req.2) mid) ∧
        ∀ pos chan idx id, before.channels[pos]? = some chan →
          (chan.self.cnlAddHtlc idx).flag.addhtlc = .recv → mid.HoldsFulfill pos idx id →
            (reqs.foldl (fun node req => node.request crypto req.1 req.2) mid).HoldsFulfill
              pos idx id := by
  induction reqs with
  | nil => exact fun _ hinv => ⟨hinv, fun _ _ _ _ _ _ hholds => hholds⟩
  | cons req rest ih =>
      intro mid hfollows hinv
      obtain ⟨target, htarget, hslot⟩ := hreqs req (List.mem_cons_self ..)
      obtain ⟨scid, ev⟩ := req
      obtain rfl : ev = .startFwd target := htarget
      have hkeeps : ∀ pos chan, mid.Transferable scid pos chan →
          (ChannelEvent.startFwd target).KeepsFulfill chan.self := by
        intro pos chan htransferable hadd
        obtain ⟨first, hfirst, hrecv⟩ := hfollows.transferable htransferable
        exact hslot pos first hfirst (hrecv target hadd)
      obtain ⟨hafter, hholds⟩ := hinv.request crypto hkeeps
      obtain ⟨hrest, hkept⟩ := ih (fun req hmem => hreqs req (List.mem_cons_of_mem _ hmem))
        (hfollows.startFwd crypto scid target) hafter
      refine ⟨hrest, fun pos chan idx id hchan hadd hheld => hkept pos chan idx id hchan hadd
        (hholds pos idx id (.inr ⟨target, rfl, fun chan' htransferable => ?_⟩) hheld)⟩
      rintro rfl
      obtain ⟨first, hfirst, -⟩ := hfollows.transferable htransferable
      obtain rfl := Option.some.inj (hfirst.1.symm.trans hchan)
      exact hslot pos first hfirst hadd

/-! ### Runs that settle in order -/

/-- An event of a channel resolves no fulfilment of its own that is pending. -/
theorem keepsFulfill_of_external {ev : ChannelEvent} (hexternal : ev.external = true) :
    ev.KeepsFulfill self := by
  cases ev with
  | failHtlc => cases hexternal
  | startFwd => cases hexternal
  | _ => trivial

theorem NodeFulfill.reserve {node after : Node} (hinv : NodeFulfill node) {pos : Nat}
    {call : Node.ForwardCall} {reserved : Option HtlcIdx}
    (hreserve : node.reserve crypto pos call = (reserved, after)) :
    NodeFulfill after ∧ ∀ (pos : Nat) (chan : ChannelState) (idx : HtlcIdx),
      node.channels[pos]? = some chan → PendingFulfill (chan.self.cnlAddHtlc idx) →
        ∃ chan', after.channels[pos]? = some chan' ∧
          chan'.self.cnlAddHtlc idx = chan.self.cnlAddHtlc idx := by
  rcases Node.reserve_slots hreserve with rfl | ⟨next, host, self, hhost, hchannels, hslots⟩
  · exact ⟨hinv, fun _ chan _ hchan _ => ⟨chan, hchan, rfl⟩⟩
  have hkept : ∀ idx, PendingFulfill (host.self.cnlAddHtlc idx) →
      self.cnlAddHtlc idx = host.self.cnlAddHtlc idx := by
    intro idx hpending
    rcases hslots idx with hsame | ⟨hempty, -⟩
    · exact hsame
    · have hadd := addhtlc_of_empty hempty
      rw [hpending.1] at hadd
      cases hadd
  have hpre : ∀ idx, PendingFulfill (self.cnlAddHtlc idx) →
      self.cnlAddHtlc idx = host.self.cnlAddHtlc idx := by
    intro idx hpending
    rcases hslots idx with hsame | ⟨hempty, hslot | ⟨num, hslot⟩⟩
    · exact hsame
    · rw [hslot] at hpending
      cases hpending.1
    · rw [hslot] at hpending
      have hadd := addhtlc_of_empty hempty
      rw [show (host.self.cnlAddHtlc idx).flag.addhtlc = .recv from hpending.1] at hadd
      cases hadd
  have hhostInv := hinv next host hhost
  have hself : FulfillInv { host with self } := by
    constructor
    · intro idx
      rcases hslots idx with hsame | ⟨-, hslot | ⟨num, hslot⟩⟩
      · simp only [hsame]
        exact hhostInv.self idx
      · simp only [hslot]
        exact flagOrder_default
      · simp only [hslot]
        exact hhostInv.self idx
    · exact hhostInv.db
    · intro idx hpending
      have hsame := hpre idx hpending
      simp only [hsame] at hpending ⊢
      exact hhostInv.saved idx hpending
    · intro hrunning idx hpending
      have hsame := hpre idx hpending
      simp only [hsame] at hpending
      exact hhostInv.running hrunning idx hpending
  have hset : ∀ pos : Nat, after.channels[pos]? =
      (node.setChannel next { host with self }).channels[pos]? := by
    intro pos
    rw [hchannels]
    rfl
  constructor
  · intro pos chan hchan
    exact hinv.setChannel hhost hself pos chan ((hset pos).symm.trans hchan)
  · intro pos chan idx hchan hpending
    by_cases hpos : pos = next
    · subst hpos
      obtain rfl := Option.some.inj (hhost.symm.trans hchan)
      exact ⟨_, (hset pos).trans (Node.setChannel_self hhost), hkept idx hpending⟩
    · exact ⟨chan, (hset pos).trans ((Node.setChannel_other hpos).trans hchan), rfl⟩

theorem follows_idleFinal {node : Node} {pos : Nat} {chan after : ChannelState}
    {step : ChannelLabel} (hchan : node.channels[pos]? = some chan) (hev : step.ev = some .idle)
    (hfinal : handle crypto chan.self .idle = recvIdleProcFinal chan.self)
    (hnext : channelNext crypto chan step = some after) :
    Follows node (node.setChannel pos after) := by
  intro other found hfound
  rcases Node.setChannel_getElem hchan hfound with ⟨rfl, rfl⟩ | ⟨-, hfound⟩
  · obtain ⟨hrunning, -, hself⟩ := channelNext_running hev hnext
    refine ⟨chan, hchan, fun _ => hrunning, ?_⟩
    rcases hself with hself | hself
    · rw [hself]
      exact ⟨rfl, rfl, fun _ hadd => hadd⟩
    · rw [hself, hfinal]
      refine ⟨rfl, rfl, fun idx hadd => ?_⟩
      have hslot : (idleFinalSlot (chan.self.cnlAddHtlc idx)).1.flag.addhtlc = .recv := hadd
      cases hremoves : idleFinalRemoves (chan.self.cnlAddHtlc idx) with
      | true =>
          rw [idleFinalSlot_removed hremoves] at hslot
          cases hslot
      | false => rw [← hslot, (SameHtlc.idleFinalSlot hremoves).addhtlc]
  · exact ⟨found, hfound, id, rfl, rfl, fun _ hadd => hadd⟩

/-- A message that requests something has removed an HTLC, and requests the removal of the one it
came from. -/
theorem requested_removal {step : ChannelLabel} {channelId : Bytes} {msg : LnMsg} {env : RecvEnv}
    (hev : step.ev = some (.recv channelId msg env)) {id : Nat} {delHtlc : LnDelhtlc}
    (hmsg : msg.removal = some (id, delHtlc))
    (hsome : (step.performed crypto self).filterMap Effect.requested ≠ []) :
    ∃ idx ev', removedSlot crypto self channelId msg = some idx ∧
      (handle crypto self (.recv channelId msg env)).self =
        self.setSlot idx ((self.cnlAddHtlc idx).clearHtlcComrevflag delHtlc) ∧
      (self.cnlAddHtlc idx).prevShortChannelId ≠ 0 ∧
      (step.performed crypto self).filterMap Effect.requested =
        [((self.cnlAddHtlc idx).prevShortChannelId, ev')] ∧
      ev'.resolves = some (backwardTarget (self.cnlAddHtlc idx) idx delHtlc) := by
  cases hremoved : removedSlot crypto self channelId msg with
  | none =>
      have hfront := @performed_front crypto self step _ hev
      rw [handle_not_removed hmsg hremoved] at hfront
      rw [List.prefix_nil.mp hfront] at hsome
      exact absurd rfl hsome
  | some idx =>
      obtain ⟨effect, ev', hhandle, -, hrequested, hresolves⟩ := handle_removed env hmsg hremoved
      have hone := @performed_singleton crypto self step _ effect hev (by rw [hhandle])
      rcases hone with hnil | hone
      · rw [hnil] at hsome
        exact absurd rfl hsome
      rw [hone] at hsome ⊢
      by_cases hprev : (self.cnlAddHtlc idx).prevShortChannelId ≠ 0
      · rw [if_pos hprev] at hrequested
        refine ⟨idx, ev', rfl, by rw [hhandle], hprev, ?_, hresolves⟩
        rw [List.filterMap_cons_some hrequested]
        rfl
      · rw [if_neg hprev] at hrequested
        rw [List.filterMap_cons_none hrequested] at hsome
        exact absurd rfl hsome

/-- A removal that comes in order is not passed on to a fulfilment that is pending. -/
theorem SettlesInOrder.keepsFulfill {node : Node} {pos : Nat} {chan chan' : ChannelState}
    {step : ChannelLabel} {channelId : Bytes} {msg : LnMsg} {env : RecvEnv}
    (horder : SettlesInOrder crypto node chan (.recv channelId msg env))
    (hchan : node.channels[pos]? = some chan) (hev : step.ev = some (.recv channelId msg env))
    (hstep : channelNext crypto chan step = some chan') {id : Nat} {delHtlc : LnDelhtlc}
    (hmsg : msg.removal = some (id, delHtlc)) {idx : HtlcIdx} {ev' : ChannelEvent}
    (hremoved : removedSlot crypto chan.self channelId msg = some idx)
    (hself : (handle crypto chan.self (.recv channelId msg env)).self =
      chan.self.setSlot idx ((chan.self.cnlAddHtlc idx).clearHtlcComrevflag delHtlc))
    (hprev : (chan.self.cnlAddHtlc idx).prevShortChannelId ≠ 0)
    (hresolves : ev'.resolves = some (backwardTarget (chan.self.cnlAddHtlc idx) idx delHtlc))
    (other : Nat) (prev : ChannelState)
    (htransferable : (node.setChannel pos chan').Transferable
      (chan.self.cnlAddHtlc idx).prevShortChannelId other prev) : ev'.KeepsFulfill prev.self := by
  cases ev' with
  | fulfillHtlc => trivial
  | failHtlc target reason =>
      rw [backwardTarget] at hresolves
      split at hresolves
      · cases hresolves
      rename_i hfails
      obtain rfl : target = idx := (Prod.mk.inj (Option.some.inj hresolves)).1
      intro hpending
      obtain ⟨hother, hrunning, hscid, hnormal⟩ := htransferable
      rcases Node.setChannel_getElem hchan hother with ⟨rfl, rfl⟩ | ⟨-, hbefore⟩
      · obtain ⟨rfl, hafter⟩ := (channelNext_running hev hstep).2.1 hrunning
        have hadd := hpending.1
        rw [hafter, hself, LnSelf.setSlot_slot, if_pos rfl,
          (SameHtlc.clearHtlcComrevflag _ delHtlc).addhtlc,
          addhtlc_of_findOffered (findOffered_of_removedSlot hmsg hremoved)] at hadd
        cases hadd
      · have hreaches : node.Transferable (chan.self.cnlAddHtlc target).prevShortChannelId other
            prev := ⟨hbefore, hrunning, hscid, hnormal⟩
        rcases horder.failed channelId msg env id delHtlc target rfl hmsg hfails hremoved
          hprev with hnone | hrepeats
        · exact hnone other prev hreaches
        · exact hrepeats.unresolved other prev hreaches hpending
  | _ => cases hresolves

/-- The callbacks of an event that comes in order. -/
theorem NodeFulfill.callbacks {node : Node} (hinv : NodeFulfill node) {pos : Nat}
    {chan chan' : ChannelState} {step : ChannelLabel} {ev : ChannelEvent}
    (hchan : node.channels[pos]? = some chan) (hev : step.ev = some ev)
    (horder : SettlesInOrder crypto node chan ev)
    (hstep : channelNext crypto chan step = some chan') (hafter : FulfillInv chan')
    (hkept : ∀ idx, KeepsFulfill (chan.self.cnlAddHtlc idx) (chan'.self.cnlAddHtlc idx)) :
    NodeFulfill ((node.setChannel pos chan').callbacks crypto
        (step.performed crypto chan.self)) ∧
      ∀ (other : Nat) (found : ChannelState) (idx : HtlcIdx),
        node.channels[other]? = some found → PendingFulfill (found.self.cnlAddHtlc idx) →
          ((node.setChannel pos chan').callbacks crypto
            (step.performed crypto chan.self)).HoldsFulfill other idx
              (found.self.cnlAddHtlc idx).id := by
  have hmid := hinv.setChannel hchan hafter
  have hmidHolds : ∀ (other : Nat) (found : ChannelState) (idx : HtlcIdx),
      node.channels[other]? = some found → PendingFulfill (found.self.cnlAddHtlc idx) →
        (node.setChannel pos chan').HoldsFulfill other idx (found.self.cnlAddHtlc idx).id := by
    intro other found idx hfound hpending
    by_cases hpos : other = pos
    · subst hpos
      obtain rfl := Option.some.inj (hchan.symm.trans hfound)
      exact ⟨chan', Node.setChannel_self hchan, hkept idx hpending⟩
    · exact ⟨found, (Node.setChannel_other hpos).trans hfound, .inl ⟨hpending, rfl⟩⟩
  by_cases hnone : (step.performed crypto chan.self).filterMap Effect.requested = []
  · rw [Node.callbacks, hnone]
    exact ⟨hmid, hmidHolds⟩
  obtain ⟨req, hmem⟩ := List.exists_mem_of_ne_nil _ hnone
  obtain ⟨effect, heffect, hreq⟩ := List.mem_filterMap.mp hmem
  rcases handle_requested (performed_subset hev heffect) hreq with
    ⟨channelId, msg, env, rfl, hremoval⟩ | ⟨rfl, hall, hfinal, -⟩
  · obtain ⟨⟨id, delHtlc⟩, hmsg⟩ := Option.isSome_iff_exists.mp hremoval
    obtain ⟨idx, ev', hremoved, hself, hprev, hreqs, hresolves⟩ :=
      requested_removal hev hmsg hnone
    obtain ⟨hinvAfter, hholds⟩ := hmid.request crypto
      (horder.keepsFulfill hchan hev hstep hmsg hremoved hself hprev hresolves)
    rw [Node.callbacks, hreqs]
    refine ⟨hinvAfter, fun other found slot hfound hpending => ?_⟩
    apply hholds other slot _ (.inl (by rw [hresolves]; rfl))
    exact hmidHolds other found slot hfound hpending
  · have hreqs : ∀ req ∈ (step.performed crypto chan.self).filterMap Effect.requested,
        ∃ idx, req.2 = .startFwd idx ∧ ∀ other next, node.Transferable req.1 other next →
          (next.self.cnlAddHtlc idx).flag.addhtlc ≠ .recv := by
      intro req hmem
      obtain ⟨effect, heffect, hreq⟩ := List.mem_filterMap.mp hmem
      rcases handle_requested (performed_subset hev heffect) hreq with
        ⟨_, _, _, hrecv, -⟩ | ⟨-, -, -, idx, hadd, hnext, rfl⟩
      · cases hrecv
      · exact ⟨_, rfl, fun other next => horder.started rfl hall idx other next hadd hnext⟩
    obtain ⟨hinvAfter, hholds⟩ :=
      NodeFulfill.startFwds crypto hreqs (follows_idleFinal hchan hev hfinal hstep) hmid
    exact ⟨hinvAfter, fun other found idx hfound hpending => hholds other found idx _ hfound
      hpending.1 (hmidHolds other found idx hfound hpending)⟩

theorem nodeFulfill_step {before after : Node} {label : NodeLabel} (hinv : NodeFulfill before)
    (horder : NodeSettlesInOrder crypto before label)
    (hnext : nodeNext crypto before label = some after) :
    NodeFulfill after ∧ ∀ (pos : Nat) (chan : ChannelState) (idx : HtlcIdx),
      before.channels[pos]? = some chan → PendingFulfill (chan.self.cnlAddHtlc idx) →
        after.HoldsFulfill pos idx (chan.self.cnlAddHtlc idx).id := by
  cases label with
  | chan pos step =>
      obtain ⟨hexternal, mid, chan, chan', hreserve, hchan, hstep, rfl⟩ := nodeNext_chan hnext
      have hkeeps : ∀ ev, step.ev = some ev → ev.KeepsFulfill chan.self :=
        fun ev hev => keepsFulfill_of_external (hexternal ev hev)
      cases hev : step.ev with
      | none =>
          have hperformed : step.performed crypto chan.self = [] := by
            cases step with
            | restart => rfl
            | _ => cases hev
          rcases hreserve with rfl | ⟨_, _, _, _, _, _, _, _, _, hadd, -⟩
          swap
          · rw [hev] at hadd
            cases hadd
          obtain ⟨hafter, hkept⟩ := fulfillInv_step (hinv pos chan hchan) hkeeps hstep
          rw [hperformed]
          refine ⟨hinv.setChannel hchan hafter, fun other found idx hfound hpending => ?_⟩
          by_cases hpos : other = pos
          · subst hpos
            obtain rfl := Option.some.inj (hchan.symm.trans hfound)
            exact ⟨chan', Node.setChannel_self hchan, hkept idx hpending⟩
          · exact ⟨found, (Node.setChannel_other hpos).trans hfound, .inl ⟨hpending, rfl⟩⟩
      | some ev =>
          rcases hreserve with rfl | ⟨call, reserved, channelId, id, amountMsat, paymentSha256,
            cltvExpiry, packet, env, hadd, hreserve⟩
          · obtain ⟨hafter, hkept⟩ := fulfillInv_step (hinv pos chan hchan) hkeeps hstep
            exact hinv.callbacks hchan hev (horder pos step ev chan rfl hev hchan) hstep hafter
              hkept
          · -- the received HTLC is forwarded: a slot of another channel has been taken before
            obtain rfl := Option.some.inj (hev.symm.trans hadd)
            obtain ⟨hmid, hmidKept⟩ := hinv.reserve hreserve
            obtain ⟨hafter, hkept⟩ := fulfillInv_step (hmid pos chan hchan) hkeeps hstep
            have hquiet : SettlesInOrder crypto mid chan (.recv channelId
                (.updateAddHtlc id amountMsat paymentSha256 cltvExpiry packet) env) := by
              constructor
              · intro _ msg _ _ _ _ hrecv hmsg
                cases hrecv
                cases hmsg
              · intro _ msg _ _ _ hrecv hmsg
                cases hrecv
                cases hmsg
              · intro hidle
                cases hidle
            obtain ⟨hinvAfter, hholds⟩ := hmid.callbacks hchan hev hquiet hstep hafter hkept
            refine ⟨hinvAfter, fun other found idx hfound hpending => ?_⟩
            obtain ⟨found', hfound', hslot⟩ := hmidKept other found idx hfound hpending
            rw [← hslot] at hpending ⊢
            exact hholds other found' idx hfound' hpending
  | confirmed pos shortChannelId =>
      simp only [nodeNext] at hnext
      split at hnext
      · cases hnext
      obtain ⟨chan, hchan, hset⟩ := Option.bind_eq_some_iff.mp hnext
      split at hset
      swap
      · cases hset
      obtain rfl := Option.some.inj hset
      have hinvChan := hinv pos chan hchan
      refine ⟨hinv.setChannel hchan ⟨hinvChan.self, hinvChan.self,
        fun idx hpending => .inl ⟨hpending, rfl⟩, fun _ idx hpending => hpending⟩,
        fun other found idx hfound hpending => ?_⟩
      by_cases hpos : other = pos
      · subst hpos
        obtain rfl := Option.some.inj (hchan.symm.trans hfound)
        exact ⟨_, Node.setChannel_self hchan, .inl ⟨hpending, rfl⟩⟩
      · exact ⟨found, (Node.setChannel_other hpos).trans hfound, .inl ⟨hpending, rfl⟩⟩

/-- A failure that is passed back in order is for an HTLC that has been removed. -/
theorem failsLate_of_settlesInOrder {node : Node} {pos : Nat} {chan : ChannelState}
    {ev : ChannelEvent} (hchan : node.channels[pos]? = some chan)
    (horder : SettlesInOrder crypto node chan ev) {other : Nat} {idx : HtlcIdx}
    (hreached : (other, idx, .fail) ∈ node.reached crypto pos ev) :
    ∃ (target : HtlcIdx) (prev : ChannelState), IrrevocablyFailed (chan.self.cnlAddHtlc target) ∧
      node.channels[other]? = some prev ∧
      (chan.self.cnlAddHtlc target).prevShortChannelId = prev.self.shortChannelId ∧
      (chan.self.cnlAddHtlc target).prevIdx = idx := by
  have hfound := hreached
  simp only [Node.reached, hchan, Option.map_some, Option.getD_some, List.mem_filterMap,
    Option.bind_eq_some_iff, Option.map_eq_some_iff] at hfound
  obtain ⟨effect, hmem, req, hreq, -, -, target, hresolves, hpair⟩ := hfound
  rcases handle_requested hmem hreq with ⟨channelId, msg, env, rfl, hremoval⟩ |
    ⟨rfl, -, -, slot, -, -, rfl⟩
  swap
  · cases hresolves
  obtain ⟨⟨id, delHtlc⟩, hmsg⟩ := Option.isSome_iff_exists.mp hremoval
  cases hremoved : removedSlot crypto chan.self channelId msg with
  | none =>
      rw [reached_of_not_removed hchan hmsg hremoved] at hreached
      cases hreached
  | some slot =>
      rw [reached_of_removed hchan hmsg hremoved, Option.mem_toList] at hreached
      obtain ⟨found, hupstream, htarget⟩ := Option.map_eq_some_iff.mp hreached
      obtain ⟨rfl, hslot⟩ := Prod.mk.inj htarget
      have hfails : delHtlc ≠ .fulfill := by
        rintro rfl
        cases (Prod.mk.inj hslot).2
      rw [backwardTarget, if_neg hfails] at hslot
      obtain ⟨rfl, -⟩ := Prod.mk.inj hslot
      rw [Node.upstream] at hupstream
      split at hupstream
      swap
      · cases hupstream
      rename_i hprev
      obtain ⟨prev, htransferable⟩ := Node.transferable_of_search hupstream
      rcases horder.failed channelId msg env id delHtlc slot rfl hmsg hfails hremoved
        hprev with hnone | hrepeats
      · exact absurd htransferable (hnone found prev)
      · exact ⟨slot, prev, ⟨hrepeats.acked, hrepeats.failed⟩, htransferable.1,
          htransferable.2.2.1.symm, hrepeats.sameSlot⟩

/-- The request to fulfil an HTLC sets the flags of its slot. -/
theorem Node.request_fulfill (crypto : Crypto) {node : Node} {scid : UInt64} {ev : ChannelEvent}
    {idx : HtlcIdx} {pos : Nat} {chan : ChannelState}
    (hresolves : ev.resolves = some (idx, .fulfill))
    (hsearch : node.searchTransferableCnl scid = some pos)
    (hchan : node.channels[pos]? = some chan) :
    ∃ post, node.request crypto scid ev = node.setChannel pos post ∧
      post.self.shortChannelId = chan.self.shortChannelId ∧
      (post.self.cnlAddHtlc idx).flag =
        (chan.self.cnlAddHtlc idx).flag.clearComrev .fulfill := by
  obtain ⟨found, hfound, hrunning, -⟩ := Node.channel_of_searchTransferableCnl hsearch
  obtain rfl := Option.some.inj (hfound.symm.trans hchan)
  cases ev with
  | fulfillHtlc target preimage =>
      obtain rfl := (Prod.mk.inj (Option.some.inj hresolves)).1
      obtain ⟨post, hnext, hpost, -⟩ := channelNext_event crypto hrunning
        (show ChannelEvent.fulfillHtlc target preimage ≠ .reestablished from
          ChannelEvent.noConfusion)
      refine ⟨post, ?_, ?_, ?_⟩
      · simp only [Node.request, hsearch, hchan, Option.bind_some, hnext]
      · rw [hpost]
        rfl
      · rw [hpost]
        simp only [handle, lnFulfillHtlcSet, LnSelf.setSlot_slot, if_true]
        rfl
  | failHtlc => cases (Prod.mk.inj (Option.some.inj hresolves)).2
  | _ => cases hresolves

/-- An accepted fulfilment that comes in order is pending on the previous channel. -/
theorem fulfills_of_settlesInOrder {before after : Node} {pos : Nat} {chan : ChannelState}
    {channelId : Bytes} {msg : LnMsg} {env : RecvEnv} {id : Nat} {idx : HtlcIdx}
    (hchan : before.channels[pos]? = some chan) (hmsg : msg.removal = some (id, .fulfill))
    (hremoved : removedSlot crypto chan.self channelId msg = some idx)
    (hforwarded : Forwarded (chan.self.cnlAddHtlc idx))
    (horder : SettlesInOrder crypto before chan (.recv channelId msg env))
    (hnext : nodeNext crypto before (.chan pos (.event (.recv channelId msg env))) = some after) :
    ∃ (other : Nat) (prev : ChannelState), after.channels[other]? = some prev ∧
      prev.self.shortChannelId = (chan.self.cnlAddHtlc idx).prevShortChannelId ∧
      PendingFulfill (prev.self.cnlAddHtlc (chan.self.cnlAddHtlc idx).prevIdx) := by
  obtain ⟨other, prev, hupstream, hprev, hadd, hpending⟩ :=
    horder.fulfilled channelId msg env id idx rfl hmsg hremoved hforwarded
  obtain ⟨chan', rfl, hself, haddress⟩ := nodeNext_removal hchan hmsg hnext
  obtain ⟨effect, ev, hhandle, -, hrequested, hresolves⟩ := handle_removed env hmsg hremoved
  rw [Node.upstream, if_pos hforwarded.1,
    ← Node.searchTransferableCnl_setChannel hchan (haddress idx hremoved)] at hupstream
  obtain ⟨host, hhost, -, hscid⟩ := Node.channel_of_searchTransferableCnl hupstream
  -- the slot of the previous channel is not the one removed here
  have hslot : host.self.cnlAddHtlc (chan.self.cnlAddHtlc idx).prevIdx =
      prev.self.cnlAddHtlc (chan.self.cnlAddHtlc idx).prevIdx := by
    rcases Node.setChannel_getElem hchan hhost with ⟨rfl, rfl⟩ | ⟨-, hbefore⟩
    · obtain rfl := Option.some.inj (hprev.symm.trans hchan)
      have hne : (prev.self.cnlAddHtlc idx).prevIdx ≠ idx := by
        intro heq
        rw [heq, addhtlc_of_findOffered (findOffered_of_removedSlot hmsg hremoved)] at hadd
        cases hadd
      rw [hself, hhandle, LnSelf.setSlot_slot, if_neg hne]
    · rw [Option.some.inj (hbefore.symm.trans hprev)]
  obtain ⟨post, hrequest, hpostScid, hflag⟩ :=
    Node.request_fulfill crypto hresolves hupstream hhost
  have hcallbacks : (before.setChannel pos chan').callbacks crypto
      (handle crypto chan.self (.recv channelId msg env)).trace =
        (before.setChannel pos chan').request crypto
          (chan.self.cnlAddHtlc idx).prevShortChannelId ev := by
    rw [hhandle, Node.callbacks]
    simp only [List.filterMap_cons, hrequested, if_pos hforwarded.1, List.filterMap_nil,
      List.foldl_cons, List.foldl_nil]
  rw [hcallbacks, hrequest]
  refine ⟨other, post, Node.setChannel_self hhost, hpostScid.trans hscid, ?_⟩
  rw [PendingFulfill, hflag, hslot, LnHtlcflag.clearComrev]
  split
  · exact ⟨hadd, rfl⟩
  · rename_i hnot
    rcases hpending with hall | hdel
    · exact absurd hall hnot
    · exact ⟨hadd, hdel⟩

/-- The forwards that are waiting in a channel can be started in their slots. -/
def startsFree (node : Node) (chan : ChannelState) : Bool :=
  (List.finRange lnHtlcMax).all fun idx =>
    let htlc := chan.self.cnlAddHtlc idx
    htlc.flag.addhtlc != .recv || node.channels.all fun next =>
      next.self.shortChannelId != htlc.nextShortChannelId ||
        (next.self.cnlAddHtlc htlc.nextIdx).flag.addhtlc != .recv

/-- The HTLC that a fulfilment is accepted for is pending on its previous channel. -/
def fulfillsPending (crypto : Crypto) (node : Node) (chan : ChannelState) (channelId : Bytes)
    (msg : LnMsg) : Bool :=
  (removedSlot crypto chan.self channelId msg).all fun idx =>
    let htlc := chan.self.cnlAddHtlc idx
    (node.upstream htlc).any fun other => (node.channels[other]?).any fun prev =>
      (prev.self.cnlAddHtlc htlc.prevIdx).flag.addhtlc == .recv &&
        (prev.self.cnlAddHtlc htlc.prevIdx).flag.comrevAll

/-- The HTLC that a failure is accepted for has no previous channel that can be reached, or has
been failed by both sides already. -/
def failsChecked (crypto : Crypto) (node : Node) (chan : ChannelState) (channelId : Bytes)
    (msg : LnMsg) : Bool :=
  (removedSlot crypto chan.self channelId msg).all fun idx =>
    let htlc := chan.self.cnlAddHtlc idx
    (node.channels.all fun prev => !(prev.running &&
        prev.self.shortChannelId == htlc.prevShortChannelId && prev.self.status == .normal)) ||
      (htlc.flag.comrevAll && (htlc.flag.delhtlc == .fail || htlc.flag.delhtlc == .malformed) &&
        htlc.prevIdx == idx &&
        node.channels.all fun prev => !decide (PendingFulfill (prev.self.cnlAddHtlc idx)))

/-- A check of the labels in which an event surely comes in order. -/
def settlesChecked (crypto : Crypto) (node : Node) : NodeLabel → Bool
  | .chan pos (.event .idle) => (node.channels[pos]?).all (startsFree node)
  | .chan pos (.event (.recv channelId msg _)) =>
      match msg.removal with
      | none => true
      | some (_, .fulfill) =>
          (node.channels[pos]?).all fun chan => fulfillsPending crypto node chan channelId msg
      | some _ =>
          (node.channels[pos]?).all fun chan => failsChecked crypto node chan channelId msg
  | .chan _ (.restart _) => true
  | .confirmed .. => true
  | _ => false

theorem failed_of_checked {node : Node} {chan : ChannelState} {channelId : Bytes} {msg : LnMsg}
    {idx : HtlcIdx} (hchecked : failsChecked crypto node chan channelId msg = true)
    (hremoved : removedSlot crypto chan.self channelId msg = some idx) :
    (∀ other prev,
        ¬ node.Transferable (chan.self.cnlAddHtlc idx).prevShortChannelId other prev) ∨
      RepeatsFailure node (chan.self.cnlAddHtlc idx) idx := by
  simp only [failsChecked, hremoved, Option.all_some, Bool.or_eq_true, Bool.and_eq_true,
    List.all_eq_true, beq_iff_eq, Bool.not_eq_true', decide_eq_false_iff_not] at hchecked
  rcases hchecked with hnone | ⟨⟨⟨hall, hdel⟩, hsame⟩, hunresolved⟩
  · left
    rintro other prev ⟨hprev, hrunning, hscid, hnormal⟩
    have hcannot := hnone prev (List.mem_of_getElem? hprev)
    simp [hrunning, hscid, hnormal] at hcannot
  · right
    exact ⟨hall, hdel, hsame, fun other prev htransferable =>
      hunresolved prev (List.mem_of_getElem? htransferable.1)⟩

theorem settlesInOrder_of_checked {node : Node} {label : NodeLabel}
    (hchecked : settlesChecked crypto node label = true) :
    NodeSettlesInOrder crypto node label := by
  rintro pos step ev chan rfl hev hchan
  cases step with
  | event ev' =>
      obtain rfl := Option.some.inj hev
      cases ev' with
      | recv channelId msg env =>
          simp only [settlesChecked, hchan, Option.all_some] at hchecked
          constructor
          · rintro _ _ _ id delHtlc idx ⟨rfl, rfl, rfl⟩ hmsg hfails hremoved _
            rw [hmsg] at hchecked
            cases delHtlc with
            | fulfill => exact absurd rfl hfails
            | _ => exact failed_of_checked hchecked hremoved
          · rintro _ _ _ id idx ⟨rfl, rfl, rfl⟩ hmsg hremoved hforwarded
            rw [hmsg] at hchecked
            simp only [fulfillsPending, hremoved, Option.all_some, Option.any_eq_true,
              Bool.and_eq_true, beq_iff_eq] at hchecked
            obtain ⟨other, hupstream, prev, hprev, hadd, hall⟩ := hchecked
            exact ⟨other, prev, hupstream, hprev, hadd, .inl hall⟩
          · intro hidle
            cases hidle
      | idle =>
          simp only [settlesChecked, hchan, Option.all_some] at hchecked
          constructor
          · intro _ _ _ _ _ _ hrecv
            cases hrecv
          · intro _ _ _ _ _ hrecv
            cases hrecv
          · intro _ _ idx other next hadd _ htransferable
            have hidx := List.all_eq_true.mp hchecked idx (List.mem_finRange idx)
            simp only [hadd, bne_self_eq_false, Bool.false_or] at hidx
            have hnext := List.all_eq_true.mp hidx next (List.mem_of_getElem? htransferable.1)
            simpa [htransferable.2.2.1] using hnext
      | _ => cases hchecked
  | stop => cases hchecked
  | restart => cases hev

/-- The first channel receives an HTLC that it forwards to the second one, where it is offered
and committed. -/
def oneForwardScript : List (Node → NodeLabel) :=
  [ fun _ => .confirmed 0 11,
    fun _ => .confirmed 1 12,
    fun _ => nodeRecv 0 (.updateAddHtlc 0 500000 [9] 200 [])
      { onion := { verdict := .forward 12 400000 100 }, answer := .accepted 0 },
    nodeCommit 0, nodeIdle 0, nodeRevoke 0, nodeIdle 0,
    nodeIdle 1, nodeIdle 1, nodeRevoke 1, nodeCommit 1 ]

/-- The failure of the forwarded HTLC arrives while the first channel is not connected, the
removal is committed and revoked by both sides, and the first channel connects again. -/
def failedForwardScript : List (Node → NodeLabel) :=
  oneForwardScript ++
    [ fun _ => .chan 0 (.event (.recv [] (.revokeAndAck [] []) {})),
      fun _ => nodeRecv 1 (.updateFailHtlc 0 [7]) {},
      nodeCommit 1, nodeIdle 1,
      fun _ => nodeRecv 1 (.revokeAndAck [3, 6] [2, 8]) {},
      fun _ => .chan 0 (.restart false) ]

end Ptarmigan
