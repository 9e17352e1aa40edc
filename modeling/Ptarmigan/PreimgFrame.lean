/-
What is deleted from the preimage database: by `clear_htlc`, by `ln_db_self_del_prm` when a
channel goes, and on the way of every search.
-/
import Ptarmigan.CommitQuery
import Ptarmigan.Library.RecordCursor

namespace Ptarmigan

open RecordCursor

variable {crypto : Crypto} {now : UInt64} {self : LnSelf} {db : PreimgDb}

/-! ### Deletion by key -/

/-- `buf_payment_preimage.buf`, which is NULL while there is no preimage. -/
def LnUpdateAddHtlc.paymentPreimage (htlc : LnUpdateAddHtlc) : Option Bytes :=
  if htlc.bufPaymentPreimage.isEmpty then none else some htlc.bufPaymentPreimage

/-- `ln_db_preimg_del`: NULL drops the whole database. -/
def lnDbPreimgDel (preimage : Option Bytes) (db : PreimgDb) : PreimgDb :=
  match preimage with
  | some preimage => db.filter fun entry => entry.preimage != preimage
  | none => []

/-- `clear_htlc`: the slot and the database behind it. -/
def clearHtlc (htlc : LnUpdateAddHtlc) (db : PreimgDb) : LnUpdateAddHtlc × PreimgDb :=
  ({}, lnDbPreimgDel htlc.paymentPreimage db)

/-- What an effect does to the preimage database. -/
def PreimgDb.write (db : PreimgDb) : Effect → PreimgDb
  | .preimgDel preimage =>
      lnDbPreimgDel (if preimage.isEmpty then none else some preimage) db
  | _ => db

/-- `recv_idle_proc_final` clears the slots that it removes. -/
theorem idleFinalSlot_removes {htlc : LnUpdateAddHtlc} (hremoves : idleFinalRemoves htlc = true) :
    ((idleFinalSlot htlc).1, (idleFinalSlot htlc).2.foldl PreimgDb.write db) =
      clearHtlc htlc db := by
  simp only [idleFinalRemoves, Bool.and_eq_true, Bool.not_eq_true'] at hremoves
  obtain ⟨⟨henable, hoffer⟩, hrecv⟩ := hremoves
  have hslot : idleFinalSlot htlc = ({}, (if htlc.flag.addhtlc = .offer ∧
      htlc.prevShortChannelId = 0 ∧ htlc.flag.delhtlc ≠ .fulfill then
        [.paymentRetry htlc.paymentSha256] else []) ++ [.preimgDel htlc.bufPaymentPreimage]) := by
    simp only [idleFinalSlot, henable, hoffer, hrecv, Bool.not_true, Bool.false_eq_true, if_false]
  rw [hslot, List.foldl_append]
  split_ifs
  · rfl
  · rfl

/-! ### Searches -/

/-- `ln_db_preimg_cur_get`: whether a record has been read, the record if it has not expired, and
the cursor.  An expired one is deleted. -/
def lnDbPreimgCurGet (now : UInt64) (cursor : Cursor PreimgEntry) :
    Bool × Option PreimgEntry × Cursor PreimgEntry :=
  match cursor.next with
  | (none, cursor) => (false, none, cursor)
  | (some entry, cursor) =>
      if entry.live now then (true, some entry, cursor) else (true, none, cursor.delete)

/-- The loop of `ln_db_preimg_search`. -/
def preimgSearchFrom (now : UInt64)
    (func : PreimgEntry → Cursor PreimgEntry → Bool × Cursor PreimgEntry) :
    Nat → Cursor PreimgEntry → Bool × Cursor PreimgEntry
  | 0, cursor => (false, cursor)
  | fuel + 1, cursor =>
      match lnDbPreimgCurGet now cursor with
      | (_, some entry, cursor) =>
          let (found, cursor) := func entry cursor
          if found then (true, cursor) else preimgSearchFrom now func fuel cursor
      | (true, none, cursor) => preimgSearchFrom now func fuel cursor
      | (false, none, cursor) => (false, cursor)

/-- `ln_db_preimg_search`: no record is read twice. -/
def lnDbPreimgSearch (now : UInt64)
    (func : PreimgEntry → Cursor PreimgEntry → Bool × Cursor PreimgEntry) (db : PreimgDb) :
    Bool × PreimgDb :=
  let (found, cursor) := preimgSearchFrom now func (db.length + 1) (.atStart db)
  (found, cursor.records)

/-- The slot has the hash of the preimage. -/
def hasHash (crypto : Crypto) (self : LnSelf) (entry : PreimgEntry) (idx : HtlcIdx) : Bool :=
  crypto.sha256 entry.preimage == (self.cnlAddHtlc idx).paymentSha256

/-- `preimg_close_func`: a deletion for every slot with the hash. -/
def preimgCloseFunc (crypto : Crypto) (self : LnSelf) (entry : PreimgEntry)
    (cursor : Cursor PreimgEntry) : Bool × Cursor PreimgEntry :=
  (false, (List.finRange lnHtlcMax).foldl
    (fun cursor idx => if hasHash crypto self entry idx then cursor.delete else cursor) cursor)

/-- What `ln_db_self_del_prm` does to the preimage database. -/
def lnDbSelfDelPrm (crypto : Crypto) (now : UInt64) (self : LnSelf) (db : PreimgDb) : PreimgDb :=
  (lnDbPreimgSearch now (preimgCloseFunc crypto self) db).2

/-- The number of deletions made while the cursor is on the record. -/
def closeDeletions (crypto : Crypto) (now : UInt64) (self : LnSelf) (entry : PreimgEntry) : Nat :=
  if entry.live now then (List.finRange lnHtlcMax).countP (hasHash crypto self entry) else 1

theorem foldl_delete {α : Type} (deletes : HtlcIdx → Bool) (idxs : List HtlcIdx)
    (cursor : Cursor α) :
    idxs.foldl (fun cursor idx => if deletes idx then cursor.delete else cursor) cursor =
      Cursor.delete^[idxs.countP deletes] cursor := by
  induction idxs generalizing cursor with
  | nil => rfl
  | cons idx rest ih =>
      rw [List.foldl_cons, ih]
      by_cases hdeletes : deletes idx = true
      · rw [if_pos hdeletes, List.countP_cons_of_pos hdeletes, Function.iterate_succ_apply]
      · rw [if_neg hdeletes, List.countP_cons_of_neg hdeletes]

/-- The search of `ln_db_self_del_prm` is a walk that deletes. -/
theorem preimgSearchFrom_close (fuel : Nat) (cursor : Cursor PreimgEntry) :
    preimgSearchFrom now (preimgCloseFunc crypto self) fuel cursor =
      walk (fun entry cursor =>
        (false, Cursor.delete^[closeDeletions crypto now self entry] cursor)) fuel cursor := by
  induction fuel generalizing cursor with
  | zero => rfl
  | succ fuel ih =>
      rw [preimgSearchFrom, walk, lnDbPreimgCurGet]
      cases hahead : cursor.ahead with
      | nil => simp only [Cursor.next_of_ahead_nil hahead]
      | cons entry later =>
          simp only [Cursor.next_of_ahead_cons hahead]
          by_cases hlive : entry.live now = true
          · simp only [if_pos hlive, preimgCloseFunc, foldl_delete, closeDeletions,
              Bool.false_eq_true, if_false]
            exact ih _
          · simp only [if_neg hlive, closeDeletions, Bool.false_eq_true, if_false]
            exact ih _

theorem lnDbSelfDelPrm_eq :
    lnDbSelfDelPrm crypto now self db = thin (closeDeletions crypto now self) 0 db := by
  rw [lnDbSelfDelPrm, lnDbPreimgSearch, preimgSearchFrom_close]
  exact walk_records (fun _ _ => rfl) (db.length + 1) (.atStart db) (Nat.lt_succ_self _)

theorem closeDeletions_eq_zero_iff {entry : PreimgEntry} :
    closeDeletions crypto now self entry = 0 ↔
      entry.live now = true ∧ ∀ idx, hasHash crypto self entry idx = false := by
  rw [closeDeletions]
  by_cases hlive : entry.live now = true
  · simp [hlive, List.countP_eq_zero, List.mem_finRange]
  · simp [hlive]

/-! ### What may be deleted -/

/-- The removals of HTLC data, and the reading that deletes what has expired. -/
inductive PreimgRemoval
  | clearHtlc (idx : HtlcIdx)
  | selfDelPrm
  | curGet (cursor : Cursor PreimgEntry)

/-- Only the preimage of the slot goes; only the preimages with the hash of a slot, and on the
way those that have expired; only the record read, if it has expired. -/
def PreimgRemoval.Frames (crypto : Crypto) (now : UInt64) (self : LnSelf) (db : PreimgDb) :
    PreimgRemoval → Prop
  | .clearHtlc idx =>
      (Ptarmigan.clearHtlc (self.cnlAddHtlc idx) db).2 = db.filter fun entry =>
        (self.cnlAddHtlc idx).paymentPreimage != some entry.preimage
  | .selfDelPrm =>
      lnDbSelfDelPrm crypto now self db = db.filter fun entry =>
        entry.live now && !(List.finRange lnHtlcMax).any (hasHash crypto self entry)
  | .curGet cursor =>
      cursor.records = db →
        (lnDbPreimgCurGet now cursor).2.2.records = cursor.behind ++
          ((cursor.ahead.take 1).filter (PreimgEntry.live now) ++ cursor.ahead.drop 1)

/-- The slot has a preimage, or there is nothing to delete; no record for which several slots
have the hash has another behind it, as near as there are further slots, that should stay. -/
def PreimgRemoval.Spares (crypto : Crypto) (now : UInt64) (self : LnSelf) (db : PreimgDb) :
    PreimgRemoval → Prop
  | .clearHtlc idx => (self.cnlAddHtlc idx).bufPaymentPreimage ≠ [] ∨ db = []
  | .selfDelPrm => RecordCursor.Spares (closeDeletions crypto now self) 0 db
  | .curGet _ => True

theorem clearHtlc_frames_iff (htlc : LnUpdateAddHtlc) :
    (clearHtlc htlc db).2 = db.filter (fun entry =>
        htlc.paymentPreimage != some entry.preimage) ↔
      htlc.bufPaymentPreimage ≠ [] ∨ db = [] := by
  rw [clearHtlc, LnUpdateAddHtlc.paymentPreimage]
  cases hbuf : htlc.bufPaymentPreimage with
  | nil =>
      have hkeeps : (db.filter fun entry => (none : Option Bytes) != some entry.preimage) = db :=
        List.filter_eq_self.mpr fun _ _ => rfl
      simp only [List.isEmpty_nil, if_true, lnDbPreimgDel, hkeeps, ne_eq, not_true_eq_false,
        false_or]
      exact eq_comm
  | cons byte rest =>
      have hsome : (byte :: rest).isEmpty = false := rfl
      simp only [hsome, Bool.false_eq_true, if_false, lnDbPreimgDel, ne_eq, reduceCtorEq,
        not_false_eq_true, true_or, iff_true]
      refine List.filter_congr fun entry _ => ?_
      rw [Bool.eq_iff_iff, bne_iff_ne, bne_iff_ne, ne_eq, ne_eq, Option.some_inj, eq_comm]

theorem selfDelPrm_frames_iff :
    lnDbSelfDelPrm crypto now self db = db.filter (fun entry =>
        entry.live now && !(List.finRange lnHtlcMax).any (hasHash crypto self entry)) ↔
      RecordCursor.Spares (closeDeletions crypto now self) 0 db := by
  rw [lnDbSelfDelPrm_eq, ← thin_eq_filter_iff]
  have hfilter : db.filter (fun entry =>
        entry.live now && !(List.finRange lnHtlcMax).any (hasHash crypto self entry)) =
      db.filter fun entry => decide (closeDeletions crypto now self entry = 0) := by
    refine List.filter_congr fun entry _ => ?_
    rw [Bool.eq_iff_iff, decide_eq_true_eq, closeDeletions_eq_zero_iff]
    simp [List.mem_finRange]
  rw [hfilter]

theorem curGet_frames (cursor : Cursor PreimgEntry) :
    (lnDbPreimgCurGet now cursor).2.2.records = cursor.behind ++
      ((cursor.ahead.take 1).filter (PreimgEntry.live now) ++ cursor.ahead.drop 1) := by
  rw [lnDbPreimgCurGet]
  cases hahead : cursor.ahead with
  | nil =>
      simp only [Cursor.next_of_ahead_nil hahead]
      rw [← cursor.behind_append_ahead, hahead]
      rfl
  | cons entry later =>
      simp only [Cursor.next_of_ahead_cons hahead]
      by_cases hlive : entry.live now = true
      · simp [hlive, Cursor.records]
      · simp [hlive, Cursor.records, Cursor.delete]

/-- A removal deletes what it may, and nothing else, exactly when it spares the rest. -/
theorem removal_frames_iff (crypto : Crypto) (now : UInt64) (self : LnSelf) (db : PreimgDb)
    (removal : PreimgRemoval) :
    removal.Frames crypto now self db ↔ removal.Spares crypto now self db := by
  cases removal with
  | clearHtlc idx => exact clearHtlc_frames_iff _
  | selfDelPrm => exact selfDelPrm_frames_iff
  | curGet cursor => exact iff_of_true (fun _ => curGet_frames cursor) trivial

/-- An offered HTLC that the peer has failed and both sides have removed. -/
def failedScript : List (ChannelState → ChannelLabel) :=
  let cid := symbolicOutpoint.txid
  let sign (state : ChannelState) : ChannelLabel := .event (.recv cid (.commitmentSigned
    (symbolicPeerSignature state.self (state.self.commitLocal.commitNum + 1)) []) {})
  [ fun _ => .event (.addHtlc
      { packet := []
        amountMsat := 500000
        cltvValue := 100
        paymentHash := [9] }),
    fun _ => .event .idle,
    fun _ => .event .idle,
    fun _ => .event (.recv cid (.revokeAndAck (symbolicKeys 2).perCommit [2, 7]) {}),
    sign,
    fun _ => .event (.recv cid (.updateFailHtlc 0 [1]) {}),
    sign,
    fun _ => .event .idle,
    fun _ => .event (.recv cid (.revokeAndAck [3, 6] [2, 8]) {}) ]

/-- An open invoice. -/
def openInvoice : PreimgEntry where
  preimage := [5]
  amountMsat := 1000
  creation := 0
  expiry := 3600

/-- The idle processing that removes the HTLC deletes the invoice. -/
theorem frames_failed :
    ¬ ∀ (crypto : Crypto) (now : UInt64) (state : ChannelState) (db : PreimgDb)
        (removal : PreimgRemoval), (channelSystem crypto).Reachable state →
      removal.Frames crypto now state.self db := by
  intro hall
  have hcheck : symbolicCheck 1000000 500000000 permitAll failedScript (fun state _ =>
      idleFinalRemoves (state.self.cnlAddHtlc 0) &&
        (state.self.cnlAddHtlc 0).bufPaymentPreimage.isEmpty) = true := by
    decide +kernel
  obtain ⟨state, _, hhistory, hchecked⟩ := run_of_symbolicCheck hcheck
  have hempty := (Bool.and_eq_true_iff.mp hchecked).2
  have hframes := hall _ 0 state [openInvoice] (.clearHtlc 0) hhistory.reachableUnder
  rcases (clearHtlc_frames_iff _).mp hframes with hpreimage | hnone
  · exact hpreimage (List.isEmpty_iff.mp hempty)
  · cases hnone

end Ptarmigan
