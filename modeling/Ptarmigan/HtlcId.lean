/-
The ids of HTLCs: how the slots, the next id and the messages handed over belong together,
over runs in which ids are used in order.
-/
import Ptarmigan.NodeStep

namespace Ptarmigan

open TransitionSystem

variable {crypto : Crypto} {self : LnSelf}

/-! ### Slots with an id of this node -/

/-- The slot holds an HTLC of this node: an offered one, or one that is reserved for a
forward. -/
def Own (htlc : LnUpdateAddHtlc) : Prop :=
  htlc.flag.addhtlc = .offer ∨ htlc.flag.addhtlc = .none ∧ htlc.prevShortChannelId ≠ 0

instance (htlc : LnUpdateAddHtlc) : Decidable (Own htlc) :=
  inferInstanceAs (Decidable (_ ∨ _ ∧ _))

/-- Its `update_add_htlc` has not been sent. -/
def Unsent (htlc : LnUpdateAddHtlc) : Prop :=
  Own htlc ∧ htlc.flag.updsend = false

instance (htlc : LnUpdateAddHtlc) : Decidable (Unsent htlc) :=
  inferInstanceAs (Decidable (_ ∧ _))

/-- The `update_add_htlc` is sent by the next `recv_idle_proc_nonfinal`. -/
def DueAdd (htlc : LnUpdateAddHtlc) : Prop :=
  htlc.enable = true ∧ htlc.flag.willAddhtlc = true

instance (htlc : LnUpdateAddHtlc) : Decidable (DueAdd htlc) :=
  inferInstanceAs (Decidable (_ ∧ _))

theorem DueAdd.unsent {htlc : LnUpdateAddHtlc} (hdue : DueAdd htlc) : Unsent htlc := by
  have hwill := hdue.2
  simp only [LnHtlcflag.willAddhtlc, Bool.and_eq_true, beq_iff_eq, Bool.not_eq_true'] at hwill
  exact ⟨.inl hwill.1.1.1, hwill.1.2⟩

/-- A slot that is not received has no flags before its update has been sent, and an empty
slot has no origin. -/
structure IdFlags (htlc : LnUpdateAddHtlc) : Prop where
  unused : htlc.flag.addhtlc = .none → htlc.flag.updsend = false
  unsent : htlc.flag.addhtlc ≠ .recv → htlc.flag.updsend = false →
    htlc.flag.comsend = false ∧ htlc.flag.delhtlc = .none
  origin : htlc.empty = true → htlc.prevShortChannelId = 0

theorem idFlags_default : IdFlags {} :=
  ⟨fun _ => rfl, fun _ _ => ⟨rfl, rfl⟩, fun _ => rfl⟩

/-- The event fails no HTLC of this node that has not been sent, and starts only one that has
been reserved. -/
def ChannelEvent.keepsUnsent (self : LnSelf) : ChannelEvent → Bool
  | .failHtlc idx _ =>
      (self.cnlAddHtlc idx).flag.addhtlc == .recv || (self.cnlAddHtlc idx).flag.updsend
  | .startFwd idx =>
      (self.cnlAddHtlc idx).flag.addhtlc == .none &&
        (self.cnlAddHtlc idx).prevShortChannelId != 0
  | _ => true

namespace IdFlags

variable {htlc : LnUpdateAddHtlc}

theorem congr {post : LnUpdateAddHtlc} (hflags : IdFlags htlc) (hsame : SameHtlc htlc post)
    (hsend : post.flag.updsend = htlc.flag.updsend)
    (hunsent : htlc.flag.addhtlc ≠ .recv → htlc.flag.updsend = false →
      post.flag.comsend = false ∧ post.flag.delhtlc = .none) : IdFlags post where
  unused := fun hadd => hsend.trans (hflags.unused (hsame.addhtlc.symm.trans hadd))
  unsent := fun hadd hpost =>
    hunsent (fun hrecv => hadd (hsame.addhtlc.trans hrecv)) (hsend.symm.trans hpost)
  origin := fun hempty =>
    hsame.prevShortChannelId.trans (hflags.origin (hsame.empty.symm.trans hempty))

theorem clearHtlcComrevflag (hflags : IdFlags htlc) (delHtlc : LnDelhtlc) :
    IdFlags (htlc.clearHtlcComrevflag delHtlc) := by
  refine hflags.congr (.clearHtlcComrevflag htlc delHtlc) ?_ ?_
  · rw [LnUpdateAddHtlc.clearHtlcComrevflag, LnHtlcflag.clearComrev]
    split <;> rfl
  · intro hadd hsend
    have hunsent := hflags.unsent hadd hsend
    rw [LnUpdateAddHtlc.clearHtlcComrevflag, LnHtlcflag.clearComrev]
    split
    · rename_i hall
      simp [LnHtlcflag.comrevAll, hunsent.1] at hall
    · exact hunsent

theorem setFlagIf {picked : LnHtlcflag → Bool} {rewrite : LnHtlcflag → LnHtlcflag}
    (hflags : IdFlags htlc) (hadd : ∀ flag, (rewrite flag).addhtlc = flag.addhtlc)
    (hkeeps : ∀ flag, (rewrite flag).updsend = flag.updsend ∧
      (rewrite flag).comsend = flag.comsend ∧ (rewrite flag).delhtlc = flag.delhtlc) :
    IdFlags (htlc.setFlagIf picked rewrite) := by
  rw [LnUpdateAddHtlc.setFlagIf]
  split
  · obtain ⟨hsend, hcom, hdel⟩ := hkeeps htlc.flag
    refine hflags.congr (.setFlag (hadd _)) hsend fun hrecv hunsent => ?_
    rw [LnUpdateAddHtlc.setFlag, hcom, hdel]
    exact hflags.unsent hrecv hunsent
  · exact hflags

theorem idleFinalSlot (hflags : IdFlags htlc) : IdFlags (idleFinalSlot htlc).1 := by
  simp only [Ptarmigan.idleFinalSlot]
  split_ifs
  · exact hflags
  · exact hflags
  · have hnext : IdFlags { htlc with nextShortChannelId := 0 } :=
      ⟨hflags.unused, hflags.unsent, hflags.origin⟩
    exact hnext.clearHtlcComrevflag _
  · exact hflags.clearHtlcComrevflag _
  · exact ⟨hflags.unused, hflags.unsent, hflags.origin⟩
  · exact hflags
  all_goals exact idFlags_default

/-- An update is sent only for an HTLC that has been offered or received. -/
theorem idleUpdateMsg_used {msg : LnMsg} (hmsg : idleUpdateMsg htlc = some msg) :
    htlc.flag.addhtlc ≠ .none := by
  intro hnone
  simp [idleUpdateMsg, LnHtlcflag.willAddhtlc, LnHtlcflag.willDelhtlc, hnone] at hmsg

theorem idleUpdateSlot (hflags : IdFlags htlc) : IdFlags (idleUpdateSlot htlc) := by
  rw [Ptarmigan.idleUpdateSlot]
  split
  · rename_i hsome
    obtain ⟨msg, hmsg⟩ := Option.isSome_iff_exists.mp hsome
    have hused := idleUpdateMsg_used hmsg
    refine ⟨fun hnone => absurd hnone hused, fun _ hsend => ?_, hflags.origin⟩
    cases hsend
  · exact hflags

/-- What is not sent is not committed. -/
theorem comsent (hflags : IdFlags htlc) :
    IdFlags ((Ptarmigan.idleUpdateSlot htlc).setFlagIf LnHtlcflag.remoteCounted
      fun flag => { flag with comsend := true }) := by
  have hafter := hflags.idleUpdateSlot
  rw [LnUpdateAddHtlc.setFlagIf]
  split
  · rename_i hcounted
    refine ⟨hafter.unused, fun hadd hsend => ?_, hafter.origin⟩
    obtain ⟨hcom, hdel⟩ := hafter.unsent hadd hsend
    simp [LnHtlcflag.remoteCounted, LnHtlcflag.enableRemoteAddhtlcOffer,
      LnHtlcflag.enableRemoteAddhtlcRecv, LnHtlcflag.enableRemoteDelhtlcOffer,
      LnHtlcflag.enableRemoteDelhtlcRecv, hdel,
      show (Ptarmigan.idleUpdateSlot htlc).flag.updsend = false from hsend,
      show (Ptarmigan.idleUpdateSlot htlc).flag.addhtlc ≠ .recv from hadd] at hcounted
  · exact hafter

end IdFlags

theorem bitsAddhtlc_flag {flag : LnHtlcflag} (hbits : flag.bitsAddhtlc = true) :
    flag.addhtlc = .offer ∧ flag.updsend = true := by
  have hflag := beq_iff_eq.mp hbits
  have hadd := congrArg LnHtlcflag.addhtlc hflag
  have hsend := congrArg LnHtlcflag.updsend hflag
  exact ⟨hadd, hsend⟩

theorem bitsDelhtlc_flag {flag : LnHtlcflag} {delHtlc : LnDelhtlc}
    (hbits : flag.bitsDelhtlc delHtlc = true) : flag.addhtlc = .recv ∧ flag.updsend = true := by
  have hflag := beq_iff_eq.mp hbits
  have hadd := congrArg LnHtlcflag.addhtlc hflag
  have hsend := congrArg LnHtlcflag.updsend hflag
  exact ⟨hadd, hsend⟩

/-- The update of a slot is sent again only after it was sent and committed. -/
theorem reestUpdateMsg_flag {htlc : LnUpdateAddHtlc} {msg : LnMsg}
    (hmsg : reestUpdateMsg htlc = some msg) :
    htlc.flag.addhtlc ≠ .none ∧ htlc.flag.updsend = true ∧
      ∀ id amountMsat paymentSha256 cltvExpiry onion,
        msg = .updateAddHtlc id amountMsat paymentSha256 cltvExpiry onion →
          htlc.flag.addhtlc = .offer ∧ id = htlc.id := by
  rw [reestUpdateMsg] at hmsg
  split_ifs at hmsg with _ hadd
  · obtain ⟨hoffer, hsend⟩ := bitsAddhtlc_flag hadd
    obtain rfl := Option.some.inj hmsg
    refine ⟨?_, hsend, ?_⟩
    · rw [hoffer]
      exact LnAddhtlc.noConfusion
    · rintro _ _ _ _ _ ⟨rfl, rfl, rfl, rfl, rfl⟩
      exact ⟨hoffer, rfl⟩
  all_goals
    obtain rfl := Option.some.inj hmsg
    obtain ⟨hrecv, hsend⟩ := bitsDelhtlc_flag ‹htlc.flag.bitsDelhtlc _ = true›
    refine ⟨?_, hsend, ?_⟩
    · rw [hrecv]
      exact LnAddhtlc.noConfusion
    · intro _ _ _ _ _ hadd
      cases hadd

theorem SlotChange.idFlags {ev : ChannelEvent} {idx : HtlcIdx} {post : LnUpdateAddHtlc}
    (hchange : SlotChange crypto self ev idx post) (hflags : IdFlags (self.cnlAddHtlc idx))
    (hkeeps : ev.keepsUnsent self = true) : IdFlags post := by
  have hempty (hfirst : firstEmpty self.cnlAddHtlc = some idx) :
      (self.cnlAddHtlc idx).flag.addhtlc = .none ∧ (self.cnlAddHtlc idx).prevShortChannelId = 0 :=
    ⟨addhtlc_of_empty (empty_of_firstEmpty hfirst), hflags.origin (empty_of_firstEmpty hfirst)⟩
  have hrecv (hadd : post.flag.addhtlc = .recv) : IdFlags post := by
    refine ⟨fun hnone => ?_, fun hnot => absurd hadd hnot, fun hempty => ?_⟩
    · rw [hadd] at hnone
      cases hnone
    · have hnone := addhtlc_of_empty hempty
      rw [hadd] at hnone
      cases hnone
  have htaken (hfirst : firstEmpty self.cnlAddHtlc = some idx)
      (hsend : post.flag.updsend = (self.cnlAddHtlc idx).flag.updsend)
      (hcom : post.flag.comsend = (self.cnlAddHtlc idx).flag.comsend)
      (hdel : post.flag.delhtlc = (self.cnlAddHtlc idx).flag.delhtlc)
      (hused : post.empty = true → post.prevShortChannelId = 0) : IdFlags post := by
    have hunsent := hflags.unused (hempty hfirst).1
    have hnot : (self.cnlAddHtlc idx).flag.addhtlc ≠ .recv := by
      rw [(hempty hfirst).1]
      exact LnAddhtlc.noConfusion
    refine ⟨fun _ => hsend.trans hunsent, fun _ _ => ?_, hused⟩
    rw [hcom, hdel]
    exact hflags.unsent hnot hunsent
  cases hchange with
  | kept => exact hflags
  | read hfirst => exact htaken hfirst rfl rfl rfl fun _ => (hempty hfirst).2
  | received _ _ _ hflag =>
      obtain ⟨finDelhtlc, hflag⟩ := hflag
      exact hrecv (by rw [hflag])
  | receivedFailed _ _ hpost => exact hrecv hpost.2.2.2.2
  | removing => exact hflags.clearHtlcComrevflag _
  | signed => exact ⟨hflags.unused, hflags.unsent, hflags.origin⟩
  | committed =>
      rename_i signature
      have hsigned : IdFlags { self.cnlAddHtlc idx with signature } :=
        ⟨hflags.unused, hflags.unsent, hflags.origin⟩
      refine (hsigned.setFlagIf ?_ ?_).setFlagIf ?_ ?_
      · exact fun _ => rfl
      · exact fun _ => ⟨rfl, rfl, rfl⟩
      · exact fun _ => rfl
      · exact fun _ => ⟨rfl, rfl, rfl⟩
  | acked => exact hflags.setFlagIf (fun _ => rfl) fun _ => ⟨rfl, rfl, rfl⟩
  | finalised => exact hflags.idleFinalSlot
  | updated => exact hflags.idleUpdateSlot
  | comsent => exact hflags.comsent
  | offered hcheck =>
      refine htaken (firstEmpty_of_checkCreateAddHtlc hcheck) rfl rfl rfl fun hempty => ?_
      cases addhtlc_of_empty hempty
  | dropped => exact idFlags_default
  | reserved hcheck =>
      refine htaken (firstEmpty_of_checkCreateAddHtlc hcheck) rfl rfl rfl fun hempty => ?_
      rw [requestedSlot_not_empty hcheck] at hempty
      cases hempty
  | droppedFwd => exact idFlags_default
  | started =>
      simp only [ChannelEvent.keepsUnsent, Bool.and_eq_true, beq_iff_eq] at hkeeps
      have hunsent := hflags.unused hkeeps.1
      have hnot : (self.cnlAddHtlc idx).flag.addhtlc ≠ .recv := by
        rw [hkeeps.1]
        exact LnAddhtlc.noConfusion
      refine ⟨fun hnone => ?_, fun _ _ => hflags.unsent hnot hunsent, fun hempty => ?_⟩
      · cases hnone
      · cases addhtlc_of_empty hempty
  | fulfilled =>
      have hclear := hflags.clearHtlcComrevflag .fulfill
      exact ⟨hclear.unused, hclear.unsent, hclear.origin⟩
  | failed hsame hflag =>
      have hclear := hflags.clearHtlcComrevflag .fail
      have hsend : post.flag.updsend = (self.cnlAddHtlc idx).flag.updsend := by
        rw [hflag, LnHtlcflag.clearComrev]
        split <;> rfl
      refine hflags.congr hsame hsend fun hadd hunsent => ?_
      simp only [ChannelEvent.keepsUnsent, Bool.or_eq_true, beq_iff_eq, hunsent] at hkeeps
      simp [hadd] at hkeeps
  | resent hmsg =>
      have hadd := (reestUpdateMsg_flag hmsg).1
      refine ⟨fun hnone => absurd hnone hadd, fun _ hsend => ?_, hflags.origin⟩
      cases hsend

/-! ### The HTLC in a slot -/

/-- The slot holds the same HTLC of this node as before, sent or not, or none as before; and
a received HTLC was there before. -/
structure KeepsId (pre post : LnUpdateAddHtlc) : Prop where
  own : Own post → post.id = pre.id ∧ post.flag.updsend = pre.flag.updsend
  iff : Own post ↔ Own pre
  received : post.flag.addhtlc = .recv → pre.flag.addhtlc = .recv ∧ post.id = pre.id

theorem KeepsId.of_same {pre post : LnUpdateAddHtlc} (hsame : SameHtlc pre post)
    (hsend : post.flag.updsend = pre.flag.updsend) : KeepsId pre post where
  own := fun _ => ⟨hsame.id, hsend⟩
  iff := by rw [Own, Own, hsame.addhtlc, hsame.prevShortChannelId]
  received := fun hadd => ⟨hsame.addhtlc.symm.trans hadd, hsame.id⟩

/-- The event uses no id of this node. -/
def ChannelEvent.keepsIds : ChannelEvent → Bool
  | .idle => false
  | .addHtlc _ => false
  | .addHtlcFwd _ => false
  | _ => true

theorem not_own_of_empty {htlc : LnUpdateAddHtlc} (hflags : IdFlags htlc)
    (hempty : htlc.empty = true) : ¬ Own htlc := by
  rintro (hoffer | ⟨-, hprev⟩)
  · rw [addhtlc_of_empty hempty] at hoffer
    cases hoffer
  · exact hprev (hflags.origin hempty)

theorem not_own_of_recv {htlc : LnUpdateAddHtlc} (hadd : htlc.flag.addhtlc = .recv) :
    ¬ Own htlc := by
  rintro (hoffer | ⟨hnone, -⟩)
  · rw [hadd] at hoffer
    cases hoffer
  · rw [hadd] at hnone
    cases hnone

/-- An event that uses no id keeps the HTLC of a slot, or receives one with the id of the
message. -/
theorem SlotChange.keepsId {ev : ChannelEvent} {idx : HtlcIdx} {post : LnUpdateAddHtlc}
    (hchange : SlotChange crypto self ev idx post) (hflags : IdFlags (self.cnlAddHtlc idx))
    (hkeeps : ev.keepsUnsent self = true) (hids : ev.keepsIds = true) :
    KeepsId (self.cnlAddHtlc idx) post ∨
      ¬ Own (self.cnlAddHtlc idx) ∧ post.flag.addhtlc = .recv ∧
        ∃ channelId amountMsat paymentSha256 cltvExpiry packet env, ev = .recv channelId
            (.updateAddHtlc post.id amountMsat paymentSha256 cltvExpiry packet) env ∧
          acceptedSlot self channelId post.id amountMsat paymentSha256 cltvExpiry packet =
            some idx := by
  have hempty (hfirst : firstEmpty self.cnlAddHtlc = some idx) : ¬ Own (self.cnlAddHtlc idx) :=
    not_own_of_empty hflags (empty_of_firstEmpty hfirst)
  cases hchange with
  | kept => exact .inl (.of_same (.refl _) rfl)
  | read hfirst =>
      have hnot := hempty hfirst
      refine .inl ⟨fun hown => absurd hown hnot, Iff.rfl, fun hadd => ?_⟩
      have hnone := addhtlc_of_empty (empty_of_firstEmpty hfirst)
      rw [show (self.cnlAddHtlc idx).flag.addhtlc = .recv from hadd] at hnone
      cases hnone
  | received haccepted _ hpost hflag =>
      obtain ⟨finDelhtlc, hflag⟩ := hflag
      obtain ⟨rfl, -⟩ := hpost
      refine .inr ⟨hempty (firstEmpty_of_acceptedSlot haccepted), by rw [hflag], ?_⟩
      exact ⟨_, _, _, _, _, _, rfl, haccepted⟩
  | receivedFailed haccepted _ hpost =>
      obtain ⟨rfl, -, -, -, hadd⟩ := hpost
      refine .inr ⟨hempty (firstEmpty_of_acceptedSlot haccepted), hadd, ?_⟩
      exact ⟨_, _, _, _, _, _, rfl, haccepted⟩
  | removing =>
      refine .inl (.of_same (.clearHtlcComrevflag _ _) ?_)
      rw [LnUpdateAddHtlc.clearHtlcComrevflag, LnHtlcflag.clearComrev]
      split <;> rfl
  | signed => exact .inl (.of_same ⟨rfl, rfl, rfl, rfl, rfl, rfl, rfl⟩ rfl)
  | committed =>
      rename_i signature
      have hsigned : SameHtlc (self.cnlAddHtlc idx) { self.cnlAddHtlc idx with signature } :=
        ⟨rfl, rfl, rfl, rfl, rfl, rfl, rfl⟩
      refine .inl (.of_same ((hsigned.trans (.setFlagIf ?_)).trans (.setFlagIf ?_)) ?_)
      · exact fun _ => rfl
      · exact fun _ => rfl
      · simp only [LnUpdateAddHtlc.setFlagIf]
        split_ifs <;> rfl
  | acked =>
      refine .inl (.of_same (.setFlagIf fun _ => rfl) ?_)
      rw [LnUpdateAddHtlc.setFlagIf]
      split <;> rfl
  | started =>
      simp only [ChannelEvent.keepsUnsent, Bool.and_eq_true, beq_iff_eq, bne_iff_ne] at hkeeps
      refine .inl ⟨fun _ => ⟨rfl, rfl⟩, ⟨fun _ => .inr hkeeps, fun _ => .inl rfl⟩, fun hadd => ?_⟩
      cases hadd
  | fulfilled =>
      have hclear := SameHtlc.clearHtlcComrevflag (self.cnlAddHtlc idx) .fulfill
      refine .inl (.of_same ⟨hclear.id, hclear.amountMsat, hclear.cltvExpiry,
        hclear.paymentSha256, hclear.addhtlc, hclear.prevShortChannelId, hclear.prevIdx⟩ ?_)
      simp only [LnUpdateAddHtlc.clearHtlcComrevflag, LnHtlcflag.clearComrev]
      split <;> rfl
  | failed hsame hflag =>
      refine .inl (.of_same hsame ?_)
      rw [hflag, LnHtlcflag.clearComrev]
      split <;> rfl
  | resent hmsg => exact .inl (.of_same (.setFlag rfl) (reestUpdateMsg_flag hmsg).2.1.symm)
  | _ => cases hids

/-- The ids of the `update_add_htlc` messages. -/
def addIds (msgs : List LnMsg) : List Nat :=
  msgs.filterMap fun msg =>
    match msg with
    | .updateAddHtlc id .. => some id
    | _ => none

theorem addIds_append (first second : List LnMsg) :
    addIds (first ++ second) = addIds first ++ addIds second :=
  List.filterMap_append ..

/-- The ids that have been used belong to HTLCs of this node: those which are not sent yet are
the newest ones, and all others have been sent. -/
structure IdsKept (sentIds : List Nat) (chan : LnSelf) : Prop where
  flags : ∀ idx, IdFlags (chan.cnlAddHtlc idx)
  below : ∀ idx, Own (chan.cnlAddHtlc idx) → (chan.cnlAddHtlc idx).id < chan.htlcIdNum
  distinct : ∀ idx other, Own (chan.cnlAddHtlc idx) → Own (chan.cnlAddHtlc other) →
    (chan.cnlAddHtlc idx).id = (chan.cnlAddHtlc other).id → idx = other
  told : ∀ idx, Own (chan.cnlAddHtlc idx) → (chan.cnlAddHtlc idx).flag.updsend = true →
    (chan.cnlAddHtlc idx).id ∈ sentIds
  covered : ∀ id < chan.htlcIdNum,
    (∃ idx, Unsent (chan.cnlAddHtlc idx) ∧ (chan.cnlAddHtlc idx).id = id) ∨
      id ∈ sentIds ∧ ∀ idx, Unsent (chan.cnlAddHtlc idx) → id < (chan.cnlAddHtlc idx).id
  received : ∀ idx other, (chan.cnlAddHtlc idx).flag.addhtlc = .recv →
    (chan.cnlAddHtlc other).flag.addhtlc = .recv →
      (chan.cnlAddHtlc idx).id = (chan.cnlAddHtlc other).id → idx = other

/-- A free slot takes an HTLC of this node with the next id. -/
structure Takes (before after : LnSelf) (idx : HtlcIdx) : Prop where
  empty : (before.cnlAddHtlc idx).empty = true
  flags : IdFlags (after.cnlAddHtlc idx)
  unsent : Unsent (after.cnlAddHtlc idx)
  id : (after.cnlAddHtlc idx).id = before.htlcIdNum
  other : ∀ other, other ≠ idx → after.cnlAddHtlc other = before.cnlAddHtlc other
  num : after.htlcIdNum = before.htlcIdNum + 1

namespace IdsKept

variable {sentIds : List Nat}

theorem mono {more : List Nat} (hkept : IdsKept sentIds self)
    (hsub : ∀ id ∈ sentIds, id ∈ more) : IdsKept more self where
  flags := hkept.flags
  below := hkept.below
  distinct := hkept.distinct
  told := fun idx hown hsend => hsub _ (hkept.told idx hown hsend)
  covered := fun id hlt => (hkept.covered id hlt).imp_right fun hsent =>
    ⟨hsub _ hsent.1, hsent.2⟩
  received := hkept.received

/-- Slots that keep their HTLCs. -/
theorem of_keepsId {after : LnSelf} (hkept : IdsKept sentIds self)
    (hflags : ∀ idx, IdFlags (after.cnlAddHtlc idx)) (hnum : after.htlcIdNum = self.htlcIdNum)
    (hown : ∀ idx, (Own (after.cnlAddHtlc idx) ↔ Own (self.cnlAddHtlc idx)) ∧
      (Own (after.cnlAddHtlc idx) → (after.cnlAddHtlc idx).id = (self.cnlAddHtlc idx).id ∧
        (after.cnlAddHtlc idx).flag.updsend = (self.cnlAddHtlc idx).flag.updsend))
    (hreceived : ∀ idx other, (after.cnlAddHtlc idx).flag.addhtlc = .recv →
      (after.cnlAddHtlc other).flag.addhtlc = .recv →
        (after.cnlAddHtlc idx).id = (after.cnlAddHtlc other).id → idx = other) :
    IdsKept sentIds after := by
  have hunsent : ∀ idx, Unsent (after.cnlAddHtlc idx) ↔ Unsent (self.cnlAddHtlc idx) := by
    intro idx
    constructor
    · rintro ⟨hafter, hsend⟩
      exact ⟨(hown idx).1.mp hafter, ((hown idx).2 hafter).2 ▸ hsend⟩
    · rintro ⟨hbefore, hsend⟩
      have hafter := (hown idx).1.mpr hbefore
      exact ⟨hafter, ((hown idx).2 hafter).2.trans hsend⟩
  have hid : ∀ idx, Own (after.cnlAddHtlc idx) →
      (after.cnlAddHtlc idx).id = (self.cnlAddHtlc idx).id := fun idx hafter =>
    ((hown idx).2 hafter).1
  constructor
  · exact hflags
  · intro idx hafter
    rw [hid idx hafter, hnum]
    exact hkept.below idx ((hown idx).1.mp hafter)
  · intro idx other hidx hother heq
    rw [hid idx hidx, hid other hother] at heq
    exact hkept.distinct idx other ((hown idx).1.mp hidx) ((hown other).1.mp hother) heq
  · intro idx hafter hsend
    rw [hid idx hafter]
    exact hkept.told idx ((hown idx).1.mp hafter) (((hown idx).2 hafter).2 ▸ hsend)
  · intro id hlt
    rw [hnum] at hlt
    rcases hkept.covered id hlt with ⟨idx, hbefore, rfl⟩ | ⟨hsent, hbelow⟩
    · have hafter := (hunsent idx).mpr hbefore
      exact .inl ⟨idx, hafter, hid idx hafter.1⟩
    · refine .inr ⟨hsent, fun idx hafter => ?_⟩
      rw [hid idx hafter.1]
      exact hbelow idx ((hunsent idx).mp hafter)
  · exact hreceived

theorem take {after : LnSelf} {idx : HtlcIdx} (hkept : IdsKept sentIds self)
    (htakes : Takes self after idx) : IdsKept sentIds after := by
  obtain ⟨hempty, hpost, hunsent, hid, hother, hnum⟩ := htakes
  have hnot := not_own_of_empty (hkept.flags idx) hempty
  have hold : ∀ other, other ≠ idx → Own (after.cnlAddHtlc other) →
      Own (self.cnlAddHtlc other) ∧ (after.cnlAddHtlc other).id < self.htlcIdNum := by
    intro other hne hown
    rw [hother other hne] at hown ⊢
    exact ⟨hown, hkept.below other hown⟩
  constructor
  · intro other
    by_cases hne : other = idx
    · exact hne ▸ hpost
    · rw [hother other hne]
      exact hkept.flags other
  · intro other hown
    rw [hnum]
    by_cases hne : other = idx
    · rw [hne, hid]
      exact Nat.lt_succ_self _
    · exact (hold other hne hown).2.trans (Nat.lt_succ_self _)
  · intro first second hfirst hsecond heq
    by_cases hone : first = idx
    · by_cases htwo : second = idx
      · exact hone.trans htwo.symm
      · have hlt := (hold second htwo hsecond).2
        rw [← heq, hone, hid] at hlt
        exact absurd hlt (Nat.lt_irrefl _)
    · by_cases htwo : second = idx
      · have hlt := (hold first hone hfirst).2
        rw [heq, htwo, hid] at hlt
        exact absurd hlt (Nat.lt_irrefl _)
      · rw [hother first hone, hother second htwo] at heq
        exact hkept.distinct first second (hold first hone hfirst).1 (hold second htwo hsecond).1
          heq
  · intro other hown hsend
    by_cases hne : other = idx
    · rw [hne, hunsent.2] at hsend
      cases hsend
    · rw [hother other hne] at hown hsend ⊢
      exact hkept.told other hown hsend
  · intro id hlt
    rw [hnum] at hlt
    rcases Nat.lt_succ_iff_lt_or_eq.mp hlt with hlt | rfl
    · rcases hkept.covered id hlt with ⟨other, hbefore, rfl⟩ | ⟨hsent, hbelow⟩
      · have hne : other ≠ idx := by
          rintro rfl
          exact hnot hbefore.1
        refine .inl ⟨other, ?_, ?_⟩
        · rw [hother other hne]
          exact hbefore
        · rw [hother other hne]
      · refine .inr ⟨hsent, fun other hafter => ?_⟩
        by_cases hne : other = idx
        · rw [hne, hid]
          exact hlt
        · rw [hother other hne] at hafter ⊢
          exact hbelow other hafter
    · exact .inl ⟨idx, hunsent, hid⟩
  · intro first second hfirst hsecond heq
    have hne : ∀ other, (after.cnlAddHtlc other).flag.addhtlc = .recv → other ≠ idx := by
      rintro other hadd rfl
      exact not_own_of_recv hadd hunsent.1
    have hone := hne first hfirst
    have htwo := hne second hsecond
    rw [hother first hone] at hfirst heq
    rw [hother second htwo] at hsecond heq
    exact hkept.received first second hfirst hsecond heq

end IdsKept

/-- An `update_add_htlc` that is accepted has an id that no received HTLC has. -/
def FreshId (self : LnSelf) : ChannelEvent → Prop
  | .recv channelId (.updateAddHtlc id amountMsat paymentSha256 cltvExpiry packet) _ =>
      (acceptedSlot self channelId id amountMsat paymentSha256 cltvExpiry packet).isSome →
        ∀ idx, (self.cnlAddHtlc idx).flag.addhtlc = .recv → (self.cnlAddHtlc idx).id ≠ id
  | _ => True

/-- The remote transaction can hold the new HTLC, so that its id is used. -/
def HtlcFits (crypto : Crypto) (self : LnSelf) (req : AddHtlcRequest) : Prop :=
  self.shutdownFlag = {} → ∀ idx, checkCreateAddHtlc self req.amountMsat req.cltvValue = some idx →
    checkCreateRemoteCommitTx crypto
      { self.setSlot idx (requestedSlot self idx req) with htlcIdNum := self.htlcIdNum + 1 } idx =
        true

theorem handle_htlcIdNum (crypto : Crypto) (self : LnSelf) {ev : ChannelEvent}
    (hids : ev.keepsIds = true) : (handle crypto self ev).self.htlcIdNum = self.htlcIdNum := by
  cases ev with
  | recv channelId msg env => exact (lnRecv_sameIds channelId msg env).1
  | reestablished => exact lnChannelReestablishAfter_sameIds.1
  | idle | addHtlc | addHtlcFwd => cases hids
  | _ => rfl

theorem setAddHtlc_fits {req : AddHtlcRequest} (hshutdown : self.shutdownFlag = {})
    (hfits : HtlcFits crypto self req) :
    setAddHtlc crypto self req = (none, self) ∨
      ∃ idx, checkCreateAddHtlc self req.amountMsat req.cltvValue = some idx ∧
        setAddHtlc crypto self req = (some idx, { self.setSlot idx (requestedSlot self idx req) with
          htlcIdNum := self.htlcIdNum + 1 }) := by
  simp only [setAddHtlc]
  split
  · exact .inl rfl
  · rename_i idx hcheck
    right
    refine ⟨idx, hcheck, ?_⟩
    have hholds := hfits hshutdown idx hcheck
    rw [requestedSlot] at hholds
    rw [if_pos hholds]
    rfl

namespace IdsKept

variable {sentIds : List Nat}

theorem handle_quiet (crypto : Crypto) {ev : ChannelEvent} (hkept : IdsKept sentIds self)
    (hids : ev.keepsIds = true) (hkeeps : ev.keepsUnsent self = true) (hfresh : FreshId self ev) :
    IdsKept sentIds (handle crypto self ev).self := by
  have hchange := handle_slotChange crypto self ev
  have hslot := fun idx => (hchange idx).keepsId (hkept.flags idx) hkeeps hids
  have hnum := handle_htlcIdNum crypto self hids
  refine hkept.of_keepsId (fun idx => (hchange idx).idFlags (hkept.flags idx) hkeeps) hnum ?_ ?_
  · intro idx
    rcases hslot idx with hsame | ⟨hnot, hadd, -⟩
    · exact ⟨hsame.iff, hsame.own⟩
    · have hafter := not_own_of_recv hadd
      exact ⟨⟨fun hown => absurd hown hafter, fun hown => absurd hown hnot⟩,
        fun hown => absurd hown hafter⟩
  · intro idx other hidx hother heq
    rcases hslot idx with hsame | ⟨-, -, channelId, amountMsat, paymentSha256, cltvExpiry, packet,
      env, hev, haccepted⟩
    · obtain ⟨hidxRecv, hidxId⟩ := hsame.received hidx
      rcases hslot other with hsame' | ⟨-, -, _, _, _, _, _, _, hev', haccepted'⟩
      · obtain ⟨hotherRecv, hotherId⟩ := hsame'.received hother
        exact hkept.received idx other hidxRecv hotherRecv
          (hidxId.symm.trans (heq.trans hotherId))
      · rw [hev'] at hfresh
        exact absurd (hidxId.symm.trans heq) (hfresh (by rw [haccepted']; rfl) idx hidxRecv)
    · rcases hslot other with hsame' | ⟨-, -, _, _, _, _, _, _, hev', haccepted'⟩
      · obtain ⟨hotherRecv, hotherId⟩ := hsame'.received hother
        rw [hev] at hfresh
        exact absurd (hotherId.symm.trans heq.symm)
          (hfresh (by rw [haccepted]; rfl) other hotherRecv)
      · obtain ⟨rfl, hmsg, rfl⟩ := ChannelEvent.recv.inj (hev.symm.trans hev')
        obtain ⟨hid, rfl, rfl, rfl, rfl⟩ := LnMsg.updateAddHtlc.inj hmsg
        rw [hid] at haccepted
        exact Option.some.inj (haccepted.symm.trans haccepted')

end IdsKept

/-- A slot that is free has no flags. -/
theorem IdFlags.of_empty {htlc : LnUpdateAddHtlc} (hflags : IdFlags htlc)
    (hempty : htlc.empty = true) :
    htlc.flag.addhtlc = .none ∧ htlc.flag.updsend = false ∧ htlc.flag.comsend = false ∧
      htlc.flag.delhtlc = .none := by
  have hadd := addhtlc_of_empty hempty
  have hsend := hflags.unused hadd
  have hnot : htlc.flag.addhtlc ≠ .recv := by
    rw [hadd]
    exact LnAddhtlc.noConfusion
  exact ⟨hadd, hsend, hflags.unsent hnot hsend⟩

theorem lnAddHtlcSet_takes {req : AddHtlcRequest}
    (hflags : ∀ idx, IdFlags (self.cnlAddHtlc idx)) (hfits : HtlcFits crypto self req) :
    (lnAddHtlcSet crypto self req).2 = self ∨
      ∃ idx, Takes self (lnAddHtlcSet crypto self req).2 idx := by
  rw [lnAddHtlcSet]
  split
  · exact .inl rfl
  rename_i hshutdown
  rcases setAddHtlc_fits (not_ne_iff.mp hshutdown) hfits with hset | ⟨idx, hcheck, hset⟩
  · rw [hset]
    exact .inl rfl
  rw [hset]
  have hempty := empty_of_firstEmpty (firstEmpty_of_checkCreateAddHtlc hcheck)
  obtain ⟨-, hsend, hunsent⟩ := (hflags idx).of_empty hempty
  have hslot : (lnAddHtlcStartFwd { self.setSlot idx (requestedSlot self idx req) with
      htlcIdNum := self.htlcIdNum + 1 } idx).cnlAddHtlc idx =
        (requestedSlot self idx req).setFlag fun flag => { flag with addhtlc := .offer } := by
    simp only [lnAddHtlcStartFwd, LnSelf.setSlot, Function.update_self]
  refine .inr ⟨idx, hempty, ?_, ?_, ?_, fun other hne => ?_, rfl⟩
  · rw [hslot]
    refine ⟨fun hnone => ?_, fun _ _ => hunsent, fun hpost => ?_⟩
    · cases hnone
    · cases addhtlc_of_empty hpost
  · rw [hslot]
    exact ⟨.inl rfl, hsend⟩
  · rw [hslot]
    rfl
  · simp only [lnAddHtlcStartFwd, LnSelf.setSlot, Function.update_of_ne hne]

theorem lnAddHtlcSetFwd_takes {req : AddHtlcRequest}
    (hflags : ∀ idx, IdFlags (self.cnlAddHtlc idx)) (hfits : HtlcFits crypto self req)
    (hprev : req.prevShortChannelId ≠ 0) :
    (lnAddHtlcSetFwd crypto self req).2 = self ∨
      ∃ idx, Takes self (lnAddHtlcSetFwd crypto self req).2 idx := by
  rw [lnAddHtlcSetFwd]
  split
  · exact .inl rfl
  rename_i hshutdown
  rcases setAddHtlc_fits (not_ne_iff.mp hshutdown) hfits with hset | ⟨idx, hcheck, hset⟩
  · rw [hset]
    exact .inl rfl
  rw [hset]
  have hempty := empty_of_firstEmpty (firstEmpty_of_checkCreateAddHtlc hcheck)
  obtain ⟨hadd, hsend, hunsent⟩ := (hflags idx).of_empty hempty
  have hslot : ({ self.setSlot idx (requestedSlot self idx req) with
      htlcIdNum := self.htlcIdNum + 1 } : LnSelf).cnlAddHtlc idx =
        requestedSlot self idx req := by
    simp only [LnSelf.setSlot, Function.update_self]
  refine .inr ⟨idx, hempty, ?_, ?_, ?_, fun other hne => ?_, rfl⟩
  · rw [hslot]
    refine ⟨fun _ => hsend, fun _ _ => hunsent, fun hpost => ?_⟩
    rw [requestedSlot_not_empty hcheck] at hpost
    cases hpost
  · rw [hslot]
    exact ⟨.inr ⟨hadd, hprev⟩, hsend⟩
  · rw [hslot]
    rfl
  · simp only [LnSelf.setSlot, Function.update_of_ne hne]

/-! ### The idle processing -/

/-- The ids of the `update_add_htlc` messages that are due, in the order of the slots. -/
def dueIds (self : LnSelf) : List Nat :=
  (List.finRange lnHtlcMax).filterMap fun idx =>
    if DueAdd (self.cnlAddHtlc idx) then some (self.cnlAddHtlc idx).id else none

/-- The updates that are due come in the order of their ids, and none that is older waits. -/
def InOrder (self : LnSelf) : Prop :=
  ∀ idx other, DueAdd (self.cnlAddHtlc idx) → Unsent (self.cnlAddHtlc other) →
    (self.cnlAddHtlc other).id < (self.cnlAddHtlc idx).id →
      DueAdd (self.cnlAddHtlc other) ∧ other < idx

theorem mem_dueIds {id : Nat} :
    id ∈ dueIds self ↔ ∃ idx, DueAdd (self.cnlAddHtlc idx) ∧ (self.cnlAddHtlc idx).id = id := by
  simp only [dueIds, List.mem_filterMap, List.mem_finRange, true_and]
  constructor
  · rintro ⟨idx, hidx⟩
    split at hidx
    · exact ⟨idx, ‹_›, Option.some.inj hidx⟩
    · cases hidx
  · rintro ⟨idx, hdue, rfl⟩
    exact ⟨idx, if_pos hdue⟩

/-- An increasing list without gaps is a range. -/
theorem eq_range'_of_noGaps {rest : List Nat} :
    ∀ {first : Nat}, (first :: rest).Pairwise (· < ·) →
      (∀ id ∈ first :: rest, ∀ lower < id, first ≤ lower → lower ∈ first :: rest) →
        first :: rest = List.range' first (first :: rest).length := by
  induction rest with
  | nil => exact fun _ _ => rfl
  | cons second rest ih =>
      intro first hsorted hfilled
      have hlt : first < second := List.rel_of_pairwise_cons hsorted (List.mem_cons_self ..)
      have htail := hsorted.of_cons
      have hnext : second = first + 1 := by
        by_contra hne
        have hgap : first + 1 < second := by omega
        have hmem := hfilled second (by simp) (first + 1) hgap (by omega)
        rcases List.mem_cons.mp hmem with heq | hmem
        · omega
        · rcases List.mem_cons.mp hmem with heq | hmem
          · omega
          · have hlater := List.rel_of_pairwise_cons htail hmem
            omega
      have hrest := ih htail fun id hid lower hlower hsecond => by
        have hmem := hfilled id (List.mem_cons_of_mem _ hid) lower hlower (by omega)
        rcases List.mem_cons.mp hmem with heq | hmem
        · omega
        · exact hmem
      rw [List.length_cons, List.range'_succ, ← hnext, ← hrest]

/-- The due ids are consecutive, and all smaller ones have been sent. -/
theorem dueIds_range {sentIds : List Nat} (hkept : IdsKept sentIds self) (horder : InOrder self) :
    ∃ first, dueIds self = List.range' first (dueIds self).length ∧
      ∀ lower < first, dueIds self ≠ [] → lower ∈ sentIds := by
  have hsorted : (dueIds self).Pairwise (· < ·) := by
    rw [dueIds, List.pairwise_filterMap]
    refine (List.pairwise_lt_finRange lnHtlcMax).imp fun {idx other} hlt id hid other' hother => ?_
    split at hid
    swap
    · cases hid
    rename_i hdue
    split at hother
    swap
    · cases hother
    rename_i hdue'
    obtain rfl := Option.some.inj hid
    obtain rfl := Option.some.inj hother
    by_contra hge
    rcases Nat.lt_or_eq_of_le (Nat.le_of_not_lt hge) with hgt | heq
    · exact absurd (horder idx other hdue hdue'.unsent hgt).2 (lt_asymm hlt)
    · exact absurd (hkept.distinct other idx hdue'.unsent.1 hdue.unsent.1 heq) (ne_of_gt hlt)
  -- an id below a due one is due as well, or has been sent before all that are unsent
  have hbelow : ∀ id ∈ dueIds self, ∀ lower < id, lower ∈ dueIds self ∨
      lower ∈ sentIds ∧ ∀ other ∈ dueIds self, lower < other := by
    intro id hid lower hlt
    obtain ⟨idx, hdue, rfl⟩ := mem_dueIds.mp hid
    rcases hkept.covered lower (hlt.trans (hkept.below idx hdue.unsent.1)) with
      ⟨slot, hunsent, rfl⟩ | ⟨hsent, hall⟩
    · exact .inl (mem_dueIds.mpr ⟨slot, (horder idx slot hdue hunsent hlt).1, rfl⟩)
    · refine .inr ⟨hsent, fun other hother => ?_⟩
      obtain ⟨slot, hslot, rfl⟩ := mem_dueIds.mp hother
      exact hall slot hslot.unsent
  generalize dueIds self = ids at hsorted hbelow
  clear horder hkept
  cases ids with
  | nil => exact ⟨0, rfl, fun lower hlt => absurd hlt (Nat.not_lt_zero lower)⟩
  | cons first rest =>
      refine ⟨first, ?_, fun lower hlt _ => ?_⟩
      · refine eq_range'_of_noGaps hsorted fun id hid lower hlower hfirst => ?_
        rcases hbelow id hid lower hlower with hmem | ⟨-, hall⟩
        · exact hmem
        · exact absurd (hall first (List.mem_cons_self ..)) (Nat.not_lt.mpr hfirst)
      · rcases hbelow first (List.mem_cons_self ..) lower hlt with hmem | ⟨hsent, -⟩
        · rcases List.mem_cons.mp hmem with rfl | hmem
          · exact absurd hlt (Nat.lt_irrefl _)
          · exact absurd (List.rel_of_pairwise_cons hsorted hmem) (lt_asymm hlt)
        · exact hsent

theorem Own.enable {htlc : LnUpdateAddHtlc} (hown : Own htlc) (hflags : IdFlags htlc) :
    htlc.enable = true := by
  by_contra hdisabled
  simp only [LnUpdateAddHtlc.enable, Bool.not_eq_true', Bool.not_eq_false] at hdisabled
  exact not_own_of_empty hflags hdisabled hown

theorem Unsent.not_comrevAll {htlc : LnUpdateAddHtlc} (hunsent : Unsent htlc)
    (hflags : IdFlags htlc) : htlc.flag.comrevAll = false := by
  have hadd : htlc.flag.addhtlc ≠ .recv := fun hrecv => not_own_of_recv hrecv hunsent.1
  simp [LnHtlcflag.comrevAll, (hflags.unsent hadd hunsent.2).1]

theorem idleFinalSlot_updsend {htlc : LnUpdateAddHtlc} (hkept : idleFinalRemoves htlc = false) :
    (idleFinalSlot htlc).1.flag.updsend = htlc.flag.updsend := by
  have hclear : ∀ (flag : LnHtlcflag) (delHtlc : LnDelhtlc),
      (flag.clearComrev delHtlc).updsend = flag.updsend := by
    intro flag delHtlc
    rw [LnHtlcflag.clearComrev]
    split <;> rfl
  simp only [idleFinalSlot, idleFinalRemoves] at *
  split_ifs with hdisabled hoffer hrecv hnext hfin hfin
  · rfl
  · rfl
  · exact hclear ..
  · exact hclear ..
  · rfl
  · rfl
  all_goals simp_all

theorem own_of_idleFinalSlot {htlc : LnUpdateAddHtlc} (hown : Own (idleFinalSlot htlc).1) :
    Own htlc ∧ (idleFinalSlot htlc).1.id = htlc.id := by
  cases hremoves : idleFinalRemoves htlc with
  | true =>
      rw [idleFinalSlot_removed hremoves] at hown
      exact absurd hown (by decide)
  | false =>
      have hsame := SameHtlc.idleFinalSlot hremoves
      rw [Own, hsame.addhtlc, hsame.prevShortChannelId] at hown
      exact ⟨hown, hsame.id⟩

/-- For an HTLC of this node the due update is its `update_add_htlc`. -/
theorem idleUpdateMsg_own {htlc : LnUpdateAddHtlc} (hown : Own htlc) :
    (idleUpdateMsg htlc).isSome = true ↔ DueAdd htlc := by
  have hdel : htlc.flag.willDelhtlc = false := by
    rcases hown with hadd | ⟨hadd, -⟩
    · simp [LnHtlcflag.willDelhtlc, hadd]
    · simp [LnHtlcflag.willDelhtlc, hadd]
  rw [idleUpdateMsg, hdel, DueAdd]
  split_ifs with hadd <;> simp_all

theorem addIds_updates (self : LnSelf) :
    addIds (((List.finRange lnHtlcMax).filterMap fun idx =>
      (idleUpdateMsg (self.cnlAddHtlc idx)).map (Effect.sendReq (some idx))).filterMap
        Effect.sent) = dueIds self := by
  rw [addIds, dueIds, List.filterMap_filterMap, List.filterMap_filterMap]
  refine List.filterMap_congr fun idx _ => ?_
  by_cases hdue : DueAdd (self.cnlAddHtlc idx)
  · rw [if_pos hdue, idleUpdateMsg, if_pos (by rw [hdue.1, hdue.2]; rfl)]
    rfl
  · rw [if_neg hdue, idleUpdateMsg, if_neg (by rwa [Bool.and_eq_true])]
    split
    · split <;> rfl
    · rfl

/-- Of the unsent HTLCs those remain whose update was not due. -/
theorem unsent_of_sent {pre post : LnUpdateAddHtlc} (hsame : SameHtlc pre post)
    (hsend : post.flag.updsend = (pre.flag.updsend || (idleUpdateMsg pre).isSome)) :
    Unsent post ↔ Unsent pre ∧ ¬ DueAdd pre := by
  have hown : Own post ↔ Own pre := by
    rw [Own, Own, hsame.addhtlc, hsame.prevShortChannelId]
  rw [Unsent, Unsent, hown, hsend, Bool.or_eq_false_iff, and_assoc]
  refine and_congr_right fun hpre => and_congr_right fun _ => ?_
  rw [← idleUpdateMsg_own hpre, Bool.not_eq_true]

namespace IdsKept

variable {sentIds : List Nat}

/-- The updates that are due have been sent. -/
theorem sent_due {after : LnSelf} (hkept : IdsKept sentIds self) (horder : InOrder self)
    (hflags : ∀ idx, IdFlags (after.cnlAddHtlc idx)) (hnum : after.htlcIdNum = self.htlcIdNum)
    (hsame : ∀ idx, SameHtlc (self.cnlAddHtlc idx) (after.cnlAddHtlc idx))
    (hsend : ∀ idx, (after.cnlAddHtlc idx).flag.updsend =
      ((self.cnlAddHtlc idx).flag.updsend || (idleUpdateMsg (self.cnlAddHtlc idx)).isSome)) :
    IdsKept (sentIds ++ dueIds self) after := by
  have hown : ∀ idx, Own (after.cnlAddHtlc idx) ↔ Own (self.cnlAddHtlc idx) := by
    intro idx
    rw [Own, Own, (hsame idx).addhtlc, (hsame idx).prevShortChannelId]
  have hunsent := fun idx => unsent_of_sent (hsame idx) (hsend idx)
  constructor
  · exact hflags
  · intro idx hidx
    rw [(hsame idx).id, hnum]
    exact hkept.below idx ((hown idx).mp hidx)
  · intro idx other hidx hother heq
    rw [(hsame idx).id, (hsame other).id] at heq
    exact hkept.distinct idx other ((hown idx).mp hidx) ((hown other).mp hother) heq
  · intro idx hidx htold
    rw [(hsame idx).id, List.mem_append]
    rw [hsend, Bool.or_eq_true] at htold
    rcases htold with hbefore | hdue
    · exact .inl (hkept.told idx ((hown idx).mp hidx) hbefore)
    · exact .inr (mem_dueIds.mpr ⟨idx, (idleUpdateMsg_own ((hown idx).mp hidx)).mp hdue, rfl⟩)
  · intro id hlt
    rw [hnum] at hlt
    rcases hkept.covered id hlt with ⟨idx, hbefore, rfl⟩ | ⟨hsent, hbelow⟩
    · by_cases hdue : DueAdd (self.cnlAddHtlc idx)
      · refine .inr ⟨List.mem_append_right _ (mem_dueIds.mpr ⟨idx, hdue, rfl⟩),
          fun other hafter => ?_⟩
        obtain ⟨hother, hnot⟩ := (hunsent other).mp hafter
        rw [(hsame other).id]
        by_contra hge
        rcases Nat.lt_or_eq_of_le (Nat.le_of_not_lt hge) with hlower | heq
        · exact hnot (horder idx other hdue hother hlower).1
        · obtain rfl := hkept.distinct other idx hother.1 hbefore.1 heq
          exact hnot hdue
      · exact .inl ⟨idx, (hunsent idx).mpr ⟨hbefore, hdue⟩, (hsame idx).id⟩
    · refine .inr ⟨List.mem_append_left _ hsent, fun idx hafter => ?_⟩
      rw [(hsame idx).id]
      exact hbelow idx ((hunsent idx).mp hafter).1
  · intro idx other hidx hother heq
    rw [(hsame idx).id, (hsame other).id] at heq
    exact hkept.received idx other ((hsame idx).addhtlc.symm.trans hidx)
      ((hsame other).addhtlc.symm.trans hother) heq

theorem not_unsent (hkept : IdsKept sentIds self) (hall : AllComrev self) (idx : HtlcIdx) :
    ¬ Unsent (self.cnlAddHtlc idx) := by
  intro hunsent
  have hcomrev := hall idx (hunsent.1.enable (hkept.flags idx))
  rw [hunsent.not_comrevAll (hkept.flags idx)] at hcomrev
  cases hcomrev

theorem not_unsent_final (hkept : IdsKept sentIds self) (hall : AllComrev self) (idx : HtlcIdx) :
    ¬ Unsent ((recvIdleProcFinal self).self.cnlAddHtlc idx) := by
  intro hunsent
  obtain ⟨hbefore, -⟩ := own_of_idleFinalSlot hunsent.1
  cases hremoves : idleFinalRemoves (self.cnlAddHtlc idx) with
  | true =>
      have hempty : (recvIdleProcFinal self).self.cnlAddHtlc idx = {} :=
        idleFinalSlot_removed hremoves
      rw [hempty] at hunsent
      exact absurd hunsent (by decide)
  | false =>
      have hsend := (idleFinalSlot_updsend hremoves).symm.trans hunsent.2
      exact hkept.not_unsent hall idx ⟨hbefore, hsend⟩

/-- Through their dance are only HTLCs that have been sent. -/
theorem finalised (hkept : IdsKept sentIds self) (hall : AllComrev self) :
    IdsKept sentIds (recvIdleProcFinal self).self := by
  have hnone := hkept.not_unsent hall
  have hown : ∀ idx, Own ((recvIdleProcFinal self).self.cnlAddHtlc idx) →
      Own (self.cnlAddHtlc idx) ∧
        ((recvIdleProcFinal self).self.cnlAddHtlc idx).id = (self.cnlAddHtlc idx).id :=
    fun idx => own_of_idleFinalSlot
  have hrecv : ∀ idx, ((recvIdleProcFinal self).self.cnlAddHtlc idx).flag.addhtlc = .recv →
      (self.cnlAddHtlc idx).flag.addhtlc = .recv ∧
        ((recvIdleProcFinal self).self.cnlAddHtlc idx).id = (self.cnlAddHtlc idx).id := by
    intro idx hadd
    cases hremoves : idleFinalRemoves (self.cnlAddHtlc idx) with
    | true =>
        have hempty : (recvIdleProcFinal self).self.cnlAddHtlc idx = {} :=
          idleFinalSlot_removed hremoves
        rw [hempty] at hadd
        cases hadd
    | false =>
        have hsame := SameHtlc.idleFinalSlot hremoves
        exact ⟨hsame.addhtlc.symm.trans hadd, hsame.id⟩
  have hsent : ∀ idx, Own (self.cnlAddHtlc idx) → (self.cnlAddHtlc idx).id ∈ sentIds := by
    intro idx hidx
    refine hkept.told idx hidx ?_
    by_contra hsend
    exact hnone idx ⟨hidx, Bool.eq_false_iff.mpr hsend⟩
  have hafter := hkept.not_unsent_final hall
  constructor
  · exact fun idx => (hkept.flags idx).idleFinalSlot
  · intro idx hidx
    rw [(hown idx hidx).2]
    exact hkept.below idx (hown idx hidx).1
  · intro idx other hidx hother heq
    rw [(hown idx hidx).2, (hown other hother).2] at heq
    exact hkept.distinct idx other (hown idx hidx).1 (hown other hother).1 heq
  · intro idx hidx _
    rw [(hown idx hidx).2]
    exact hsent idx (hown idx hidx).1
  · intro id hlt
    rcases hkept.covered id hlt with ⟨idx, hbefore, -⟩ | ⟨hsent, -⟩
    · exact absurd hbefore (hnone idx)
    · exact .inr ⟨hsent, fun idx hunsent => absurd hunsent (hafter idx)⟩
  · intro idx other hidx hother heq
    rw [(hrecv idx hidx).2, (hrecv other hother).2] at heq
    exact hkept.received idx other (hrecv idx hidx).1 (hrecv other hother).1 heq

end IdsKept

end Ptarmigan
