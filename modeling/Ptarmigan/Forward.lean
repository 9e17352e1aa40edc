/-
Forwarded HTLCs: which HTLC of the previous channel is resolved when a removal is
received on the next one.
-/
import Ptarmigan.Node
import Ptarmigan.Dance

namespace Ptarmigan

open TransitionSystem

variable {crypto : Crypto} {self : LnSelf}

/-! ### The origin of an HTLC in its slot -/

/-- The slot is that of an HTLC forwarded from another channel. -/
def Forwarded (htlc : LnUpdateAddHtlc) : Prop :=
  htlc.prevShortChannelId ≠ 0 ∧ htlc.prevShortChannelId ≠ finalShortChannelId

/-- The event reserves no slot for an HTLC of another channel. -/
def ChannelEvent.keepsOrigins : ChannelEvent → Bool
  | .addHtlc req => req.prevShortChannelId == 0
  | .addHtlcFwd _ => false
  | _ => true

theorem ChannelEvent.keepsOrigins_of_external {ev : ChannelEvent} (hexternal : ev.external = true) :
    ev.keepsOrigins = true := by
  cases ev with
  | addHtlc req => exact hexternal
  | addHtlcFwd req => cases hexternal
  | _ => rfl

theorem SameHtlc.empty {htlc post : LnUpdateAddHtlc} (hsame : SameHtlc htlc post) :
    post.empty = htlc.empty := by
  rw [LnUpdateAddHtlc.empty, LnUpdateAddHtlc.empty, hsame.addhtlc, hsame.amountMsat]

theorem not_forwarded_empty : ¬ Forwarded {} := fun hforwarded => hforwarded.1 rfl

/-- A forwarded HTLC in a slot after an event was there before, or the slot was empty. -/
theorem SlotChange.forwarded {ev : ChannelEvent} {idx : HtlcIdx} {post : LnUpdateAddHtlc}
    (hchange : SlotChange crypto self ev idx post) (hkeeps : ev.keepsOrigins = true)
    (hempty : Forwarded (self.cnlAddHtlc idx) → (self.cnlAddHtlc idx).empty = false)
    (hpost : Forwarded post) :
    post.empty = false ∧ post.id = (self.cnlAddHtlc idx).id ∧
      post.prevShortChannelId = (self.cnlAddHtlc idx).prevShortChannelId ∧
      post.prevIdx = (self.cnlAddHtlc idx).prevIdx := by
  have hsame (hsame : SameHtlc (self.cnlAddHtlc idx) post) :
      post.empty = false ∧ post.id = (self.cnlAddHtlc idx).id ∧
        post.prevShortChannelId = (self.cnlAddHtlc idx).prevShortChannelId ∧
        post.prevIdx = (self.cnlAddHtlc idx).prevIdx := by
    have hpre : Forwarded (self.cnlAddHtlc idx) := by
      rw [Forwarded, ← hsame.prevShortChannelId]
      exact hpost
    exact ⟨hsame.empty.trans (hempty hpre), hsame.id, hsame.prevShortChannelId, hsame.prevIdx⟩
  have hnew (hfirst : firstEmpty self.cnlAddHtlc = some idx)
      (hprev : NotForwarded (self.cnlAddHtlc idx) post) : False := by
    rcases hprev with hprev | hfinal
    · have hpre : Forwarded (self.cnlAddHtlc idx) := by
        rw [Forwarded, ← hprev]
        exact hpost
      rw [empty_of_firstEmpty hfirst] at hempty
      cases hempty hpre
    · exact hpost.2 hfinal
  cases hchange with
  | kept => exact hsame (.refl _)
  | read hfirst => exact (hnew hfirst (.inl rfl)).elim
  | received haccepted _ _ _ hprev =>
      exact (hnew (firstEmpty_of_acceptedSlot haccepted) hprev).elim
  | receivedFailed haccepted _ _ _ hprev =>
      exact (hnew (firstEmpty_of_acceptedSlot haccepted) hprev).elim
  | removing => exact hsame (.clearHtlcComrevflag _ _)
  | signed => exact hsame ⟨rfl, rfl, rfl, rfl, rfl, rfl, rfl⟩
  | committed =>
      rename_i signature
      have hsigned : SameHtlc (self.cnlAddHtlc idx) { self.cnlAddHtlc idx with signature } :=
        ⟨rfl, rfl, rfl, rfl, rfl, rfl, rfl⟩
      refine hsame ((hsigned.trans (.setFlagIf ?_)).trans (.setFlagIf ?_))
      · exact fun _ => rfl
      · exact fun _ => rfl
  | acked => exact hsame (.setFlagIf fun _ => rfl)
  | finalised =>
      cases hremoves : idleFinalRemoves (self.cnlAddHtlc idx) with
      | true =>
          rw [idleFinalSlot_removed hremoves] at hpost
          exact absurd hpost not_forwarded_empty
      | false => exact hsame (.idleFinalSlot hremoves)
  | updated => exact hsame (.idleUpdateSlot _)
  | comsent => exact hsame ((SameHtlc.idleUpdateSlot _).trans (.setFlagIf fun _ => rfl))
  | offered => exact absurd (beq_iff_eq.mp hkeeps) hpost.1
  | dropped => exact absurd hpost not_forwarded_empty
  | reserved => cases hkeeps
  | droppedFwd => cases hkeeps
  | started =>
      refine ⟨?_, rfl, rfl, rfl⟩
      simp [LnUpdateAddHtlc.empty, LnUpdateAddHtlc.setFlag]
  | fulfilled =>
      rename_i preimage
      have hclear := SameHtlc.clearHtlcComrevflag (self.cnlAddHtlc idx) .fulfill
      exact hsame ⟨hclear.id, hclear.amountMsat, hclear.cltvExpiry, hclear.paymentSha256,
        hclear.addhtlc, hclear.prevShortChannelId, hclear.prevIdx⟩
  | failed hhtlc => exact hsame hhtlc
  | resent => exact hsame (.setFlag rfl)

/-! ### The next id and the `short_channel_id` -/

/-- The next HTLC id and the `short_channel_id` are the same. -/
def SameIds (before after : LnSelf) : Prop :=
  after.htlcIdNum = before.htlcIdNum ∧ after.shortChannelId = before.shortChannelId

theorem ClosingChange.sameIds {before after : LnSelf} (hchange : ClosingChange before after) :
    SameIds before after := by
  obtain ⟨_, _, _, _, _, _, _, rfl⟩ := hchange
  exact ⟨rfl, rfl⟩

theorem lnRecv_sameIds (channelId : Bytes) (msg : LnMsg) (env : RecvEnv) :
    SameIds self (lnRecv crypto self channelId msg env).self := by
  rw [lnRecv]
  split
  swap
  · exact ⟨rfl, rfl⟩
  cases msg with
  | updateAddHtlc id amountMsat paymentSha256 cltvExpiry packet =>
      simp only [recvFunc, recvUpdateAddHtlc]
      split
      · exact ⟨rfl, rfl⟩
      · rename_i target _
        split_ifs
        · exact ⟨rfl, rfl⟩
        · exact ⟨rfl, rfl⟩
        · obtain ⟨post, hpost, -⟩ := addHtlcBolt4_slot crypto _ target _ env
          rw [hpost]
          exact ⟨rfl, rfl⟩
  | commitmentSigned sig htlcSigs =>
      obtain ⟨slots, txid, htlcNum, hself, -⟩ := createToLocal_changes crypto
        { self with commitLocal := { self.commitLocal with signature := sig } } htlcSigs
        (self.commitLocal.commitNum + 1) self.commitRemote.toSelfDelay
        self.commitLocal.dustLimitSat
      simp only [recvFunc, recvCommitmentSigned, hself]
      split_ifs <;> exact ⟨rfl, rfl⟩
  | revokeAndAck secret point =>
      simp only [recvFunc, recvRevokeAndAck, storePeerPercommitSecret]
      split_ifs
      · exact ⟨rfl, rfl⟩
      · exact ⟨rfl, rfl⟩
      · cases lnDerkeyStorageInsertSecret crypto self.peerStorage secret self.peerStorageIndex <;>
          exact ⟨rfl, rfl⟩
  | shutdown scriptpk => exact (recvShutdown_closing crypto self channelId scriptpk).1.sameIds
  | closingSigned feeSat signature =>
      exact (recvClosingSigned_closing crypto self channelId feeSat signature
        env.broadcast).1.sameIds
  | _ =>
      simp only [recvFunc, recvUpdateFulfillHtlc, recvUpdateFailHtlc, recvUpdateFailMalformedHtlc,
        recvUpdateFee, recvFundingLocked, recvChannelReestablish]
      repeat' split
      all_goals exact ⟨rfl, rfl⟩

theorem lnRecvIdleProc_sameIds : SameIds self (lnRecvIdleProc crypto self).self := by
  simp only [lnRecvIdleProc, recvIdleProcNonfinal, idleSendComsig]
  split_ifs
  · exact ⟨rfl, rfl⟩
  · exact ⟨rfl, rfl⟩
  · exact ⟨rfl, rfl⟩
  · split <;> exact ⟨rfl, rfl⟩
  · exact ⟨rfl, rfl⟩

theorem lnChannelReestablishAfter_sameIds :
    SameIds self (lnChannelReestablishAfter crypto self).self := by
  have hresent : SameIds self (reestResendUpdate self).self := by
    obtain ⟨-, slots, hself⟩ := reestResendUpdate_changes self
    rw [hself]
    exact ⟨rfl, rfl⟩
  simp only [lnChannelReestablishAfter]
  split_ifs
  · exact hresent
  · exact hresent
  · exact ⟨rfl, rfl⟩
  · exact ⟨rfl, rfl⟩

/-- Only a new HTLC uses up an id, and that saves nothing. -/
theorem handle_ids (crypto : Crypto) (self : LnSelf) (ev : ChannelEvent) :
    SameIds self (handle crypto self ev).self ∨
      self.htlcIdNum ≤ (handle crypto self ev).self.htlcIdNum ∧
        (handle crypto self ev).self.shortChannelId = self.shortChannelId ∧
        (handle crypto self ev).trace = [] := by
  have hset (req : AddHtlcRequest) :
      self.htlcIdNum ≤ (setAddHtlc crypto self req).2.htlcIdNum ∧
        (setAddHtlc crypto self req).2.shortChannelId = self.shortChannelId := by
    rcases setAddHtlc_slots crypto self req with hset | ⟨idx, -, hset | hset⟩
    · rw [hset]
      exact ⟨Nat.le_refl _, rfl⟩
    · rw [hset]
      exact ⟨Nat.le_succ _, rfl⟩
    · rw [hset]
      exact ⟨Nat.le_succ _, rfl⟩
  cases ev with
  | recv channelId msg env => exact .inl (lnRecv_sameIds channelId msg env)
  | idle => exact .inl lnRecvIdleProc_sameIds
  | addHtlc req =>
      simp only [handle, lnAddHtlcSet]
      split
      · exact .inl ⟨rfl, rfl⟩
      · have hset := hset req
        split
        · rename_i hreserved
          rw [hreserved] at hset
          exact .inr ⟨hset.1, hset.2, trivial⟩
        · rename_i hreserved
          rw [hreserved] at hset
          exact .inr ⟨hset.1, hset.2, trivial⟩
  | addHtlcFwd req =>
      simp only [handle, lnAddHtlcSetFwd]
      split
      · exact .inl ⟨rfl, rfl⟩
      · exact .inr ⟨(hset req).1, (hset req).2, trivial⟩
  | reestablished => exact .inl lnChannelReestablishAfter_sameIds
  | _ => exact .inl ⟨rfl, rfl⟩

/-! ### The record of a channel -/

/-- The slots of forwarded HTLCs are as recorded. -/
structure OriginsKept (origin : Nat → Option (UInt64 × HtlcIdx)) (chan : LnSelf) : Prop where
  slots : ∀ idx, Forwarded (chan.cnlAddHtlc idx) →
    (chan.cnlAddHtlc idx).empty = false ∧ (chan.cnlAddHtlc idx).id < chan.htlcIdNum ∧
      origin (chan.cnlAddHtlc idx).id =
        some ((chan.cnlAddHtlc idx).prevShortChannelId, (chan.cnlAddHtlc idx).prevIdx)
  scid : chan.shortChannelId ≠ finalShortChannelId

/-- So they are in memory and in the database, which is never ahead. -/
structure ChannelOrigins (origin : Nat → Option (UInt64 × HtlcIdx)) (chan : ChannelState) :
    Prop where
  self : OriginsKept origin chan.self
  db : OriginsKept origin chan.db.chan
  idNum : chan.db.chan.htlcIdNum ≤ chan.self.htlcIdNum

variable {origin : Nat → Option (UInt64 × HtlcIdx)}

theorem OriginsKept.handle (crypto : Crypto) {ev : ChannelEvent} (hkept : OriginsKept origin self)
    (hkeeps : ev.keepsOrigins = true) : OriginsKept origin (handle crypto self ev).self := by
  have hids : self.htlcIdNum ≤ (Ptarmigan.handle crypto self ev).self.htlcIdNum ∧
      (Ptarmigan.handle crypto self ev).self.shortChannelId = self.shortChannelId := by
    rcases handle_ids crypto self ev with ⟨hnum, hscid⟩ | ⟨hnum, hscid, -⟩
    · exact ⟨hnum.ge, hscid⟩
    · exact ⟨hnum, hscid⟩
  constructor
  · intro idx hforwarded
    have hchange := handle_slotChange crypto self ev idx
    obtain ⟨hempty, hid, hprev, hidx⟩ :=
      hchange.forwarded hkeeps (fun hpre => (hkept.slots idx hpre).1) hforwarded
    have hpre : Forwarded (self.cnlAddHtlc idx) := by
      rw [Forwarded, ← hprev]
      exact hforwarded
    obtain ⟨-, hlt, horigin⟩ := hkept.slots idx hpre
    rw [hid, hprev, hidx]
    exact ⟨hempty, hlt.trans_le hids.1, horigin⟩
  · rw [hids.2]
    exact hkept.scid

theorem OriginsKept.saveSelf (hkept : OriginsKept origin self) (db : Db) :
    OriginsKept origin (db.saveSelf self).chan :=
  ⟨hkept.slots, hkept.scid⟩

theorem OriginsKept.congr {self' : LnSelf} (hkept : OriginsKept origin self)
    (hslots : self'.cnlAddHtlc = self.cnlAddHtlc) (hids : SameIds self self') :
    OriginsKept origin self' := by
  constructor
  · rw [hslots, hids.1]
    exact hkept.slots
  · rw [hids.2]
    exact hkept.scid

theorem Took.origins {before after : ChannelState} {ev : ChannelEvent} {trace : List Effect}
    (htook : Took before (handle crypto before.self ev) trace after)
    (horigins : ChannelOrigins origin before) (hkeeps : ev.keepsOrigins = true) :
    OriginsKept origin after.self ∧ before.self.htlcIdNum ≤ after.self.htlcIdNum := by
  rcases htook.self with ⟨hafter, -⟩ | ⟨hafter, -⟩
  · rw [hafter]
    refine ⟨OriginsKept.handle crypto horigins.self hkeeps, ?_⟩
    rcases handle_ids crypto before.self ev with ⟨hnum, -⟩ | ⟨hnum, -⟩
    · exact hnum.ge
    · exact hnum
  · rw [hafter]
    exact ⟨horigins.self, Nat.le_refl _⟩

theorem channelOrigins_step {before after : ChannelState} {label : ChannelLabel}
    (horigins : ChannelOrigins origin before)
    (hkeeps : ∀ ev, label.ev = some ev → ev.keepsOrigins = true)
    (hnext : channelNext crypto before label = some after) : ChannelOrigins origin after := by
  have hsaved {ev : ChannelEvent} (hev : label.ev = some ev) (saved : LnSelf)
      (hmem : Effect.selfSave saved ∈ (handle crypto before.self ev).trace) :
      OriginsKept origin saved ∧ saved.htlcIdNum = before.self.htlcIdNum := by
    have hchange := handle_saves crypto before.self ev saved hmem
    have hslots := handle_saved_slots hmem
    have hafter := OriginsKept.handle crypto horigins.self (hkeeps ev hev)
    have hids : SameIds (handle crypto before.self ev).self saved :=
      ⟨hchange.sameIds.1.symm, hchange.sameIds.2.symm⟩
    refine ⟨hafter.congr hslots hids, hids.1.trans ?_⟩
    rcases handle_ids crypto before.self ev with hsame | ⟨-, -, htrace⟩
    · exact hsame.1
    · rw [htrace] at hmem
      cases hmem
  have hdb {ev : ChannelEvent} (hev : label.ev = some ev) {trace : List Effect}
      (hsub : ∀ effect ∈ trace, effect ∈ (handle crypto before.self ev).trace) :
      OriginsKept origin (before.db.writes trace).chan ∧
        (before.db.writes trace).chan.htlcIdNum ≤ before.self.htlcIdNum := by
    refine ⟨Db.writes_holds (OriginsKept origin) (fun db _ hkept => hkept.saveSelf db)
      horigins.db fun saved hmem => (hsaved hev saved (hsub _ hmem)).1, ?_⟩
    exact Db.writes_holds (fun chan => chan.htlcIdNum ≤ before.self.htlcIdNum)
      (fun _ _ hle => hle) horigins.idNum fun saved hmem => (hsaved hev saved (hsub _ hmem)).2.le
  rcases channelNext_took hnext with ⟨ev, rfl, htook⟩ | ⟨ev, done, rfl, htook⟩ | ⟨dataloss, rfl⟩
  · have hafter := htook.origins horigins (hkeeps ev rfl)
    obtain ⟨hchan, hnum⟩ := hdb rfl fun effect hmem => hmem
    rw [← htook.db] at hchan hnum
    exact ⟨hafter.1, hchan, hnum.trans hafter.2⟩
  · have hafter := htook.origins horigins (hkeeps ev rfl)
    obtain ⟨hchan, hnum⟩ := hdb rfl fun effect hmem => List.mem_of_mem_take hmem
    rw [← htook.db] at hchan hnum
    exact ⟨hafter.1, hchan, hnum.trans hafter.2⟩
  · obtain rfl := Option.some.inj hnext
    exact ⟨horigins.db.congr rfl ⟨rfl, rfl⟩, horigins.db, Nat.le_refl _⟩

/-! ### The record of a node -/

/-- The slots of forwarded HTLCs are as recorded, in all channels. -/
def NodeOrigins (node : Node) : Prop :=
  ∀ pos chan, node.channels[pos]? = some chan → ChannelOrigins (node.origin pos) chan

theorem nodeOrigins_start {node : Node} (hstart : (nodeSystem crypto).start node) :
    NodeOrigins node := by
  intro pos chan hchan
  obtain ⟨outcome, hdone, rfl⟩ := hstart.1 chan (List.mem_of_getElem? hchan)
  obtain ⟨_, _, _, ready, rfl, hfresh⟩ := hdone.fresh
  have hkept : OriginsKept (node.origin pos) (startFundingWait crypto ready).self := by
    constructor
    · intro idx hforwarded
      obtain ⟨signature, hidx⟩ := hfresh.slots idx
      have hslot : (startFundingWait crypto ready).self.cnlAddHtlc idx =
          ready.cnlAddHtlc idx := rfl
      rw [hslot, hidx] at hforwarded
      exact absurd rfl hforwarded.1
    · have hscid : (startFundingWait crypto ready).self.shortChannelId = 0 :=
        hfresh.shortChannelId
      rw [hscid]
      decide
  exact ⟨hkept, hkept.saveSelf _, Nat.le_refl _⟩

theorem NodeOrigins.setChannel {node : Node} (horigins : NodeOrigins node) {pos : Nat}
    {chan : ChannelState} (hchan : ChannelOrigins (node.origin pos) chan) :
    NodeOrigins (node.setChannel pos chan) := by
  intro other found hfound
  simp only [Node.setChannel, List.getElem?_set] at hfound
  split at hfound
  · rename_i hpos
    split at hfound
    · obtain rfl := Option.some.inj hfound
      exact hpos ▸ hchan
    · cases hfound
  · exact horigins other found hfound

theorem NodeOrigins.request {node : Node} (horigins : NodeOrigins node) {scid : UInt64}
    {ev : ChannelEvent} (hkeeps : ev.keepsOrigins = true) :
    NodeOrigins (node.request crypto scid ev) := by
  simp only [Node.request]
  split
  · exact horigins
  · split
    · exact horigins
    · rename_i pos _ _ after hafter
      obtain ⟨chan, hchan, hnext⟩ := Option.bind_eq_some_iff.mp hafter
      refine horigins.setChannel (channelOrigins_step (horigins pos chan hchan) ?_ hnext)
      intro ev' hev
      exact Option.some.inj hev ▸ hkeeps

theorem Effect.keepsOrigins_of_requested {effect : Effect} {req : UInt64 × ChannelEvent}
    (hreq : effect.requested = some req) : req.2.keepsOrigins = true := by
  cases effect <;> simp only [Effect.requested, reduceCtorEq] at hreq
  · obtain rfl := Option.some.inj hreq
    rfl
  all_goals
    split at hreq
    · obtain rfl := Option.some.inj hreq
      rfl
    · cases hreq

theorem NodeOrigins.callbacks {node : Node} (horigins : NodeOrigins node) (trace : List Effect) :
    NodeOrigins (node.callbacks crypto trace) := by
  rw [Node.callbacks]
  have hkeeps : ∀ req ∈ trace.filterMap Effect.requested, req.2.keepsOrigins = true := by
    intro req hmem
    obtain ⟨effect, -, hreq⟩ := List.mem_filterMap.mp hmem
    exact Effect.keepsOrigins_of_requested hreq
  generalize trace.filterMap Effect.requested = reqs at hkeeps
  induction reqs generalizing node with
  | nil => exact horigins
  | cons req rest ih =>
      refine ih (horigins.request (hkeeps req (List.mem_cons_self ..))) ?_
      exact fun other hmem => hkeeps other (List.mem_cons_of_mem _ hmem)

theorem NodeOrigins.advance {node after : Node} (horigins : NodeOrigins node) {pos : Nat}
    {label : ChannelLabel} (hkeeps : ∀ ev, label.ev = some ev → ev.keepsOrigins = true)
    (hnext : node.advance crypto pos label = some after) : NodeOrigins after := by
  obtain ⟨chan, hchan, hmap⟩ := Option.bind_eq_some_iff.mp hnext
  obtain ⟨chan', hstep, rfl⟩ := Option.map_eq_some_iff.mp hmap
  exact (horigins.setChannel (channelOrigins_step (horigins pos chan hchan) hkeeps
    hstep)).callbacks _

/-- A reservation as the channel sees it: the slots that are neither reserved nor
emptied are kept. -/
theorem lnAddHtlcSetFwd_slots (crypto : Crypto) (self : LnSelf) (req : AddHtlcRequest) :
    lnAddHtlcSetFwd crypto self req = (none, self) ∨
      ∃ idx, checkCreateAddHtlc self req.amountMsat req.cltvValue = some idx ∧
        (lnAddHtlcSetFwd crypto self req =
            (some idx, { self.setSlot idx (requestedSlot self idx req) with
              htlcIdNum := self.htlcIdNum + 1 }) ∨
          lnAddHtlcSetFwd crypto self req =
            (none, { self.setSlot idx {} with htlcIdNum := self.htlcIdNum + 1 })) := by
  rw [lnAddHtlcSetFwd]
  split
  · exact .inl rfl
  · exact setAddHtlc_slots crypto self req

theorem requestedSlot_not_empty {req : AddHtlcRequest} {idx : HtlcIdx}
    (hcheck : checkCreateAddHtlc self req.amountMsat req.cltvValue = some idx) :
    (requestedSlot self idx req).empty = false := by
  have hamount : req.amountMsat ≠ 0 := by
    intro hzero
    simp only [checkCreateAddHtlc, hzero, true_or, if_true] at hcheck
    split_ifs at hcheck
  simp [LnUpdateAddHtlc.empty, requestedSlot, hamount]

/-- The record with the origin of the next HTLC. -/
theorem OriginsKept.record (hkept : OriginsKept origin self) {num : Nat}
    (hle : self.htlcIdNum ≤ num) (entry : Option (UInt64 × HtlcIdx)) :
    OriginsKept (Function.update origin num entry) self := by
  refine ⟨fun idx hforwarded => ?_, hkept.scid⟩
  obtain ⟨hempty, hlt, horigin⟩ := hkept.slots idx hforwarded
  have hne : (self.cnlAddHtlc idx).id ≠ num := (hlt.trans_le hle).ne
  exact ⟨hempty, hlt, (Function.update_of_ne hne _ _).trans horigin⟩

/-- Every slot is kept, emptied, or holds the HTLC with the next id. -/
theorem OriginsKept.reserved {after : LnSelf} (hkept : OriginsKept origin self)
    (hnum : self.htlcIdNum ≤ after.htlcIdNum) (hscid : after.shortChannelId = self.shortChannelId)
    (hslots : ∀ idx, after.cnlAddHtlc idx = self.cnlAddHtlc idx ∨ after.cnlAddHtlc idx = {} ∨
      (after.cnlAddHtlc idx).empty = false ∧
        (after.cnlAddHtlc idx).id < after.htlcIdNum ∧
        origin (after.cnlAddHtlc idx).id =
          some ((after.cnlAddHtlc idx).prevShortChannelId, (after.cnlAddHtlc idx).prevIdx)) :
    OriginsKept origin after := by
  refine ⟨fun idx hforwarded => ?_, hscid ▸ hkept.scid⟩
  rcases hslots idx with hsame | hempty | hnew
  · rw [hsame] at hforwarded ⊢
    obtain ⟨hempty, hlt, horigin⟩ := hkept.slots idx hforwarded
    exact ⟨hempty, hlt.trans_le hnum, horigin⟩
  · rw [hempty] at hforwarded
    exact absurd hforwarded not_forwarded_empty
  · exact hnew

/-- Writing a slot, or nothing, keeps the rest. -/
theorem setSlotIf_keeps (own : Prop) [Decidable own] (self : LnSelf) (idx : HtlcIdx)
    (htlc : LnUpdateAddHtlc) :
    (if own then self.setSlot idx htlc else self).htlcIdNum = self.htlcIdNum ∧
      (if own then self.setSlot idx htlc else self).shortChannelId = self.shortChannelId ∧
      ∀ other, ¬ (own ∧ other = idx) →
        (if own then self.setSlot idx htlc else self).cnlAddHtlc other = self.cnlAddHtlc other := by
  by_cases hown : own
  · simp only [if_pos hown]
    refine ⟨rfl, rfl, fun other hother => ?_⟩
    rw [LnSelf.setSlot_slot, if_neg fun hidx => hother ⟨hown, hidx⟩]
  · simp only [if_neg hown]
    exact ⟨trivial, trivial, fun _ _ => trivial⟩

/-- A slot that is put back afterwards is as before, and the others are as they are left. -/
theorem putBackIf_slots (own : Prop) [Decidable own] (before after : LnSelf) (idx other : HtlcIdx) :
    (if own then after.setSlot idx (before.cnlAddHtlc idx) else after).cnlAddHtlc other =
        before.cnlAddHtlc other ∨
      ¬ (own ∧ other = idx) ∧
        (if own then after.setSlot idx (before.cnlAddHtlc idx) else after).cnlAddHtlc other =
          after.cnlAddHtlc other := by
  by_cases hother : own ∧ other = idx
  · left
    rw [if_pos hother.1, LnSelf.setSlot_slot, if_pos hother.2, hother.2]
  · exact .inr ⟨hother, (setSlotIf_keeps own after idx _).2.2 other hother⟩

/-- A reservation on a channel, which may hold another HTLC in a slot meanwhile. -/
theorem ChannelOrigins.reserve {host : ChannelState} {req : AddHtlcRequest}
    (horigins : ChannelOrigins origin host) (own : Prop) [Decidable own] (idx : HtlcIdx)
    (htlc : LnUpdateAddHtlc) {self : LnSelf}
    (hself : self = if own then host.self.setSlot idx htlc else host.self) {after : LnSelf}
    {reserved : Option HtlcIdx} (hset : lnAddHtlcSetFwd crypto self req = (reserved, after)) :
    ChannelOrigins
      (if reserved.isSome then
        Function.update origin host.self.htlcIdNum (some (req.prevShortChannelId, req.prevIdx))
        else origin)
      { host with
        self := if own then after.setSlot idx (host.self.cnlAddHtlc idx) else after } := by
  obtain ⟨hnum, hscid, hslots⟩ := setSlotIf_keeps own host.self idx htlc
  rw [← hself] at hnum hscid hslots
  obtain ⟨hputNum, hputScid, -⟩ := setSlotIf_keeps own after idx (host.self.cnlAddHtlc idx)
  have hputSlots := putBackIf_slots own host.self after idx
  rcases lnAddHtlcSetFwd_slots crypto self req with hnone | ⟨target, hcheck, hsome | hnone⟩
  · obtain ⟨rfl, rfl⟩ := Prod.mk.inj (hset.symm.trans hnone)
    refine ⟨horigins.self.reserved ?_ ?_ fun other => ?_, horigins.db, ?_⟩
    · rw [hputNum, hnum]
    · rw [hputScid, hscid]
    · rcases hputSlots other with hsame | ⟨hother, hsame⟩
      · exact .inl hsame
      · exact .inl (hsame.trans (hslots other hother))
    · simp only [hputNum, hnum]
      exact horigins.idNum
  · obtain ⟨rfl, rfl⟩ := Prod.mk.inj (hset.symm.trans hsome)
    simp only [Option.isSome_some, if_true]
    refine ⟨(horigins.self.record (Nat.le_refl _) _).reserved ?_ ?_ fun other => ?_,
      horigins.db.record horigins.idNum _, ?_⟩
    · rw [hputNum, ← hnum]
      exact Nat.le_succ _
    · rw [hputScid, ← hscid]
      rfl
    · rcases hputSlots other with hsame | ⟨hother, hsame⟩
      · exact .inl hsame
      · rw [hsame, hputNum]
        by_cases htarget : other = target
        · subst htarget
          right; right
          have hslot : ({ self.setSlot other (requestedSlot self other req) with
              htlcIdNum := self.htlcIdNum + 1 } : LnSelf).cnlAddHtlc other =
                requestedSlot self other req := by
            simp only [LnSelf.setSlot, Function.update_self]
          rw [hslot]
          refine ⟨requestedSlot_not_empty hcheck, Nat.lt_succ_self _, ?_⟩
          simp only [requestedSlot, hnum, Function.update_self]
        · left
          rw [← hslots other hother]
          simp only [LnSelf.setSlot, Function.update_of_ne htarget]
    · rw [hputNum]
      exact (horigins.idNum.trans hnum.ge).trans (Nat.le_succ _)
  · obtain ⟨rfl, rfl⟩ := Prod.mk.inj (hset.symm.trans hnone)
    refine ⟨horigins.self.reserved ?_ ?_ fun other => ?_, horigins.db, ?_⟩
    · rw [hputNum, ← hnum]
      exact Nat.le_succ _
    · rw [hputScid, ← hscid]
      rfl
    · rcases hputSlots other with hsame | ⟨hother, hsame⟩
      · exact .inl hsame
      · rw [hsame]
        by_cases htarget : other = target
        · subst htarget
          right; left
          simp only [LnSelf.setSlot, Function.update_self]
        · left
          rw [← hslots other hother]
          simp only [LnSelf.setSlot, Function.update_of_ne htarget]
    · rw [hputNum]
      exact (horigins.idNum.trans hnum.ge).trans (Nat.le_succ _)

theorem NodeOrigins.reserve {node after : Node} {pos : Nat} {call : Node.ForwardCall}
    {reserved : Option HtlcIdx} (horigins : NodeOrigins node)
    (hreserve : node.reserve crypto pos call = (reserved, after)) : NodeOrigins after := by
  simp only [Node.reserve] at hreserve
  split at hreserve
  · obtain ⟨-, rfl⟩ := Prod.mk.inj hreserve
    exact horigins
  rename_i next _
  split at hreserve
  · obtain ⟨-, rfl⟩ := Prod.mk.inj hreserve
    exact horigins
  rename_i host hhost
  obtain ⟨-, rfl⟩ := Prod.mk.inj hreserve
  generalize hset : lnAddHtlcSetFwd crypto _ call.req = outcome
  obtain ⟨reserved, after⟩ := outcome
  have hchan := (horigins next host hhost).reserve (next = pos) call.idx call.htlc rfl hset
  intro other chan hother
  simp only [List.getElem?_set] at hother ⊢
  by_cases hnext : next = other
  · subst hnext
    rw [if_pos rfl] at hother
    split at hother
    · obtain rfl := Option.some.inj hother
      have horigin : (if reserved.isSome then Function.update node.origin next
          (Function.update (node.origin next) host.self.htlcIdNum
            (some (call.req.prevShortChannelId, call.req.prevIdx))) else node.origin) next =
          if reserved.isSome then Function.update (node.origin next) host.self.htlcIdNum
            (some (call.req.prevShortChannelId, call.req.prevIdx)) else node.origin next := by
        split
        · exact Function.update_self ..
        · rfl
      rw [horigin]
      exact hchan
    · cases hother
  · rw [if_neg hnext] at hother
    have hkept := horigins other chan hother
    split
    · rwa [Function.update_of_ne (Ne.symm hnext)]
    · exact hkept

theorem ChannelOrigins.confirmed {chan : ChannelState} (horigins : ChannelOrigins origin chan)
    {shortChannelId : UInt64} (hscid : noShortChannelId shortChannelId = false) :
    ChannelOrigins origin
      { chan.perform (lnShortChannelIdSetParam chan.self shortChannelId).trace with
        self := (lnShortChannelIdSetParam chan.self shortChannelId).self } := by
  have hself : OriginsKept origin (lnShortChannelIdSetParam chan.self shortChannelId).self := by
    constructor
    · exact horigins.self.slots
    · intro hfinal
      have hself : shortChannelId = finalShortChannelId := hfinal
      simp [noShortChannelId, hself] at hscid
  exact ⟨hself, hself.saveSelf _, Nat.le_refl _⟩

theorem nodeOrigins_step {node after : Node} {label : NodeLabel} (horigins : NodeOrigins node)
    (hnext : nodeNext crypto node label = some after) : NodeOrigins after := by
  cases label with
  | chan pos label =>
      simp only [nodeNext] at hnext
      split at hnext
      swap
      · cases hnext
      rename_i hexternal
      have hkeeps : ∀ ev, label.ev = some ev → ev.keepsOrigins = true := by
        intro ev hev
        rw [hev] at hexternal
        exact ChannelEvent.keepsOrigins_of_external hexternal
      obtain ⟨chan, hchan, hcall⟩ := Option.bind_eq_some_iff.mp hnext
      split at hcall
      · exact horigins.advance hkeeps hcall
      · rename_i ev call _
        generalize hreserve : node.reserve crypto pos call = reservation at hcall
        obtain ⟨reserved, reservedNode⟩ := reservation
        simp only at hcall
        split at hcall
        · exact (horigins.reserve hreserve).advance hkeeps hcall
        · cases hcall
  | confirmed pos shortChannelId =>
      simp only [nodeNext] at hnext
      split at hnext
      · cases hnext
      rename_i hscid
      obtain ⟨chan, hchan, hset⟩ := Option.bind_eq_some_iff.mp hnext
      split at hset
      · obtain rfl := Option.some.inj hset
        exact horigins.setChannel ((horigins pos chan hchan).confirmed (by simpa using hscid))
      · cases hset

/-- In every reachable state the slots of forwarded HTLCs are as recorded. -/
theorem nodeOrigins_of_reachable {node : Node} (hreach : (nodeSystem crypto).Reachable node) :
    NodeOrigins node :=
  hreach.invariant NodeOrigins (fun _ hstart => nodeOrigins_start hstart)
    fun _ _ _ horigins _ hnext => nodeOrigins_step horigins hnext

end Ptarmigan
