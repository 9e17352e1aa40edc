/-
Preimages that the monitor takes from the chain after a unilateral close: what a pass looks
into, and when it saves what the peer has revealed.
-/
import Ptarmigan.HtlcIndex
import Ptarmigan.Monitor

namespace Ptarmigan

variable {crypto : Crypto} {chan : LnSelf} {db : List Bytes} {answers : Nat → EntryAnswers}

/-- `ln_db_preimg_search` over the preimages that have been saved. -/
def preimgSearch (crypto : Crypto) (db : List Bytes) (hash : Bytes) : Option Bytes :=
  db.find? fun preimage => crypto.sha256 preimage == hash

/-- A pass of the monitor. -/
def CommitSide.monitor (crypto : Crypto) (db : List Bytes) (self : LnSelf)
    (answers : Nat → EntryAnswers) : CommitSide → ClosePass
  | .own => monitorCloseUnilateralLocal crypto (preimgSearch crypto db) self answers
  | .remote => closeUnilateralRemote crypto (preimgSearch crypto db) self answers

/-! ### What the peer reveals -/

/-- The witness with which the peer takes an HTLC output reveals the preimage: as the second of
three items on our commitment transaction, as the fourth of five in its HTLC-success
transaction. -/
def CommitSide.Reveals (witness : List Bytes) (preimage : Bytes) : CommitSide → Prop
  | .own => witness.length = 3 ∧ witness[1]? = some preimage
  | .remote => witness.length = 5 ∧ witness[3]? = some preimage

/-- The monitor is told that the output of the entry is spent. -/
def CommitSide.Sees (answers : EntryAnswers) : CommitSide → Prop
  | .own => answers.broadcasted = false ∧ answers.unspent = some false
  | .remote => answers.unspent = some false

/-- An HTLC offered for a payment that came from another channel. -/
def LnUpdateAddHtlc.Forwarded (htlc : LnUpdateAddHtlc) : Prop :=
  htlc.flag.addhtlc = .offer ∧ htlc.prevShortChannelId ≠ 0 ∧
    htlc.prevShortChannelId ≠ originShortChannelId

/-- The peer has taken the output of the entry, that of an HTLC offered for a forwarded
payment, with its preimage. -/
def Claims (crypto : Crypto) (chan : LnSelf) (side : CommitSide) (close : LnCloseForce)
    (entry : CloseEntry) (answers : EntryAnswers) (preimage : Bytes) : Prop :=
  ∃ (spend : CloseTx) (out : BtcVout) (info : LnScriptHtlcinfo) (height : Int) (tx : ChainTx)
      (vin : ChainVin),
    entry.tx = some spend ∧ close.commit.vout[spend.tx.vinIndex]? = some out ∧
      out.opt = .htlc info ∧ (chan.cnlAddHtlc info.addHtlcIdx).Forwarded ∧
        preimage.length = lnSzPreimage ∧
          crypto.sha256 preimage = (chan.cnlAddHtlc info.addHtlcIdx).paymentSha256 ∧
            tx ∈ answers.chain.block height ∧ vin ∈ tx.vin ∧
              vin.txid = crypto.txid close.commit.tx ∧ vin.index = spend.tx.vinIndex ∧
                side.Reveals vin.witness preimage

/-- A pass goes on, saves the preimages of the claims that it sees, and reports the channel as
deletable only when it has those of all claims. -/
structure Extracts (crypto : Crypto) (chan : LnSelf) (side : CommitSide) (db : List Bytes)
    (answers : Nat → EntryAnswers) : Prop where
  running : (side.monitor crypto db chan answers).aborted = false
  saved : ∀ (close : LnCloseForce) (pos : Nat) (entry : CloseEntry) (preimage : Bytes),
    side.close crypto (preimgSearch crypto db) chan = some close →
      close.htlcs[pos]? = some entry →
        Claims crypto chan side close entry (answers (lnCloseIdxHtlc + pos)) preimage →
          side.Sees (answers (lnCloseIdxHtlc + pos)) →
            preimage ∈ db ++ (side.monitor crypto db chan answers).saved
  kept : (side.monitor crypto db chan answers).del = true →
    ∀ (close : LnCloseForce) (pos : Nat) (entry : CloseEntry) (preimage : Bytes),
      side.close crypto (preimgSearch crypto db) chan = some close →
        close.htlcs[pos]? = some entry →
          Claims crypto chan side close entry (answers (lnCloseIdxHtlc + pos)) preimage →
            preimage ∈ db ++ (side.monitor crypto db chan answers).saved

/-! ### What the monitor looks into -/

/-- The HTLC of the slot came from another channel. -/
def fromHop (self : LnSelf) (htlcIdx : Nat) : Bool :=
  (lnUpdateAddHtlc self htlcIdx).any fun htlc =>
    htlc.prevShortChannelId != originShortChannelId && htlc.prevShortChannelId != 0

/-- What the witness of a transaction gives as a preimage: the fourth of five items, when it is
long enough. -/
def revealed (tx : ChainTx) : Option Bytes :=
  ((lnPreimageRemote tx).filter fun item => lnSzPreimage ≤ item.length).map
    (List.take lnSzPreimage)

/-- The transaction in which a preimage is looked for: on the own commitment transaction only,
for a spent output of an HTLC that was offered. -/
def CommitSide.lookedInto (self : LnSelf) (txid : Bytes) (answers : EntryAnswers)
    (entry : Option CloseEntry) : CommitSide → Option ChainTx
  | .own => entry.bind fun entry =>
      if answers.broadcasted = false ∧ answers.unspent = some false ∧
          (entry.tx.bind CloseTx.opt) = some .offered ∧ fromHop self entry.htlcIdx = true then
        answers.confm.bind fun confm =>
          btcrpcSearchOutpoint answers.chain confm txid entry.htlcIdx
      else none
  | .remote => none

/-- On the own commitment transaction the entry keeps the channel: it is not filled, the output
cannot be asked for, its spending transaction is not accepted, or the one that has spent it is
not found. -/
def delaysOwn (self : LnSelf) (txid : Bytes) (answers : EntryAnswers)
    (entry : CloseEntry) : Bool :=
  entry.tx.isNone || !answers.broadcasted &&
    (answers.unspent.isNone ||
      (answers.unspent == some true || (entry.tx.bind CloseTx.opt).isNone) && !answers.sent ||
      answers.unspent == some false && (entry.tx.bind CloseTx.opt) == some .offered &&
        fromHop self entry.htlcIdx && answers.confm.isSome &&
          (CommitSide.own.lookedInto self txid answers (some entry)).isNone)

/-- On the remote commitment transaction the entry keeps the channel: it is not filled, or the
output is not known to be spent, is not in the wallet and cannot be taken yet. -/
def delaysRemote (answers : EntryAnswers) (entry : CloseEntry) : Bool :=
  !entry.tx.any fun close =>
    answers.unspent == some false || answers.walletSaved || close.tx.locktime == 0 ||
      answers.blkcnt.any fun blkcnt =>
        decide (0 < blkcnt ∧ (close.tx.locktime.toNat : Int) ≤ blkcnt)

def CommitSide.delays (self : LnSelf) (txid : Bytes) (answers : EntryAnswers)
    (entry : Option CloseEntry) : CommitSide → Bool
  | .own => !entry.any fun entry => !delaysOwn self txid answers entry
  | .remote => !entry.any fun entry => !delaysRemote answers entry

/-- What an entry adds to a pass. -/
def ClosePass.look (pass : ClosePass) (delays : Bool) (looked : Option ChainTx) : ClosePass where
  del := pass.del && !delays
  saved := pass.saved ++ (looked.bind revealed).toList
  aborted := pass.aborted || looked.any fun tx => (revealed tx).isNone

/-- The own commitment transaction was not found, the funding output is known to be spent or
unspent, and the first output cannot be dealt with: there is none, or it is that of the HTLC in
the second position and the funding output is spent. -/
def CommitSide.commitLost (close : LnCloseForce) (answers : EntryAnswers) : CommitSide → Bool
  | .own => !answers.broadcasted && answers.unspent.isSome &&
      (close.commit.vout.isEmpty ||
        close.commitOpt == some .offered && answers.unspent == some false)
  | .remote => false

/-- The own commitment transaction was not found and keeps the channel: the funding output
cannot be asked for, or the transaction is to be sent and is not accepted. -/
def CommitSide.commitDelays (close : LnCloseForce) (answers : EntryAnswers) : CommitSide → Bool
  | .own => !answers.broadcasted &&
      (answers.unspent.isNone ||
        (answers.unspent == some true || close.commitOpt.isNone) && !answers.sent)
  | .remote => false

/-! ### What a close holds -/

theorem MadeFrom.htlcIdx_lt {searchPreimage : Bytes → Option Bytes} {side : CommitSide}
    {close : LnCloseForce} {build : CommitBuild}
    (hmade : MadeFrom searchPreimage chan side close build) :
    ∀ entry ∈ close.htlcs, entry.htlcIdx < lnHtlcMax := by
  intro entry hentry
  obtain ⟨⟨index, value, info⟩, hin, hidx, -⟩ := exists_left_of_mem hmade.entries hentry
  obtain ⟨out, hout, hopt, -⟩ := mem_htlcVouts.mp hin
  have hmem := hmade.infos index out info hout hopt
  have hlt := List.idxOf_lt_length_of_mem hmem
  have hlength : (build.amount.htlcinfo.map LnScriptHtlcinfo.addHtlcIdx).length ≤ lnHtlcMax := by
    rw [hmade.slots]
    exact (List.length_filter_le _ _).trans List.length_finRange.le
  rw [hidx, CommitBuild.htlcPos]
  exact hlt.trans_le hlength

theorem remoteSpenthtlc_witness {searchPreimage : Bytes → Option Bytes} {self : LnSelf}
    {build : CommitBuild} {txid : Bytes} {out : Nat × UInt64 × LnScriptHtlcinfo} {close : CloseTx}
    (hspend : createToRemoteSpenthtlcClose crypto searchPreimage self build txid out =
      some close) : close.witness ≠ [] := by
  cases htype : out.2.2.type with
  | received =>
      simp only [createToRemoteSpenthtlcClose, htype, Option.some.injEq] at hspend
      obtain rfl := hspend
      exact List.cons_ne_nil _ _
  | offered =>
      cases hsearch : searchPreimage (self.cnlAddHtlc out.2.2.addHtlcIdx).paymentSha256 with
      | some preimage =>
          simp only [createToRemoteSpenthtlcClose, htype, hsearch, Option.some.injEq] at hspend
          obtain rfl := hspend
          exact List.cons_ne_nil _ _
      | none =>
          simp only [createToRemoteSpenthtlcClose, htype, hsearch] at hspend
          obtain ⟨sighash, -, rfl⟩ := Option.map_eq_some_iff.mp hspend
          exact List.cons_ne_nil _ _

theorem remoteClose_witness {searchPreimage : Bytes → Option Bytes} {close : LnCloseForce}
    (hclose : (lnCloseCreateTx crypto searchPreimage chan).1 = some close) :
    ∀ entry ∈ close.htlcs, ∀ spend, entry.tx = some spend → spend.witness ≠ [] := by
  unfold lnCloseCreateTx createToRemoteClose at hclose
  generalize buildToRemote crypto (chan.withPrevKeys crypto) chan.commitRemote.commitNum
    chan.commitRemote.dustLimitSat = build at hclose
  cases hsign : signCommittx crypto (chan.withPrevKeys crypto) build.committx.tx with
  | none =>
      simp only [hsign] at hclose
      cases hclose
  | some signature =>
      simp only [hsign] at hclose
      obtain ⟨htlcs, hhtlcs, rfl⟩ := Option.map_eq_some_iff.mp hclose
      intro entry hentry spend hspend
      obtain ⟨out, -, hmade⟩ := exists_left_of_mem (forall₂_of_mapM hhtlcs) hentry
      obtain ⟨tx, htx, rfl⟩ := Option.map_eq_some_iff.mp hmade
      obtain rfl := Option.some.inj hspend
      exact remoteSpenthtlc_witness htx

/-! ### What an entry adds -/

variable {self : LnSelf} {txid : Bytes} {ans : EntryAnswers} {pass : ClosePass}

theorem fromHop_eq {htlcIdx : Nat} {htlc : LnUpdateAddHtlc}
    (hread : lnUpdateAddHtlc self htlcIdx = some htlc) :
    fromHop self htlcIdx = true ↔
      htlc.prevShortChannelId ≠ originShortChannelId ∧ htlc.prevShortChannelId ≠ 0 := by
  simp [fromHop, hread]

theorem look_false (pass : ClosePass) : pass.look false none = pass := by
  simp [ClosePass.look]

theorem look_true (pass : ClosePass) : pass.look true none = { pass with del := false } := by
  simp [ClosePass.look]

theorem sendreq_look (ans : EntryAnswers) (pass : ClosePass) :
    closeUnilateralLocalSendreq ans pass = pass.look (!ans.sent) none := by
  unfold closeUnilateralLocalSendreq
  cases ans.sent with
  | true => exact (look_false pass).symm
  | false => exact (look_true pass).symm

/-- A transaction that has been found gives its preimage or ends the process. -/
theorem extractPreimage_found {htlcIdx : Nat} {confm : UInt32} {tx : ChainTx}
    (hconfm : ans.confm = some confm)
    (hsearch : btcrpcSearchOutpoint ans.chain confm txid htlcIdx = some tx) :
    extractPreimage ans txid htlcIdx pass = pass.look false (some tx) := by
  cases hitem : lnPreimageRemote tx with
  | none => simp [extractPreimage, hconfm, hsearch, hitem, ClosePass.look, revealed]
  | some item =>
      by_cases hshort : item.length < lnSzPreimage
      · simp [extractPreimage, hconfm, hsearch, hitem, hshort, ClosePass.look, revealed,
          Option.filter]
      · have hlong : lnSzPreimage ≤ item.length := Nat.le_of_not_lt hshort
        simp [extractPreimage, hconfm, hsearch, hitem, hshort, hlong, ClosePass.look, revealed,
          Option.filter]

/-- A spent output of an HTLC that was offered. -/
theorem offered_look {close : CloseTx} {htlcIdx : Nat} (hslot : htlcIdx < lnHtlcMax)
    (hbroadcasted : ans.broadcasted = false) (hunspent : ans.unspent = some false)
    (hopt : close.opt = some .offered) :
    closeUnilateralLocalOffered self ans txid htlcIdx pass =
      pass.look (CommitSide.own.delays self txid ans (some ⟨some close, htlcIdx⟩))
        (CommitSide.own.lookedInto self txid ans (some ⟨some close, htlcIdx⟩)) := by
  have hread : lnUpdateAddHtlc self htlcIdx = some (self.cnlAddHtlc ⟨htlcIdx, hslot⟩) :=
    dif_pos hslot
  have hiff := fromHop_eq hread
  generalize self.cnlAddHtlc ⟨htlcIdx, hslot⟩ = htlc at hread hiff
  simp only [closeUnilateralLocalOffered, hread, CommitSide.delays, delaysOwn,
    CommitSide.lookedInto, Option.any_some, Option.bind_some, hbroadcasted, hunspent, hopt]
  by_cases hhop : fromHop self htlcIdx = true
  · obtain ⟨horigin, hzero⟩ := hiff.mp hhop
    rw [if_neg horigin, if_pos hzero]
    cases hconfm : ans.confm with
    | none => simp [extractPreimage, hconfm, hhop, look_false]
    | some confm =>
        cases hsearch : btcrpcSearchOutpoint ans.chain confm txid htlcIdx with
        | none => simp [extractPreimage, hconfm, hhop, hsearch, look_true]
        | some tx =>
            rw [extractPreimage_found hconfm hsearch]
            simp [hhop, hsearch]
  · have hkeeps : (if htlc.prevShortChannelId = originShortChannelId then pass
        else if htlc.prevShortChannelId ≠ 0 then extractPreimage ans txid htlcIdx pass
        else pass) = pass := by
      by_cases horigin : htlc.prevShortChannelId = originShortChannelId
      · exact if_pos horigin
      · rw [if_neg horigin]
        exact if_neg fun hzero => hhop (hiff.mpr ⟨horigin, hzero⟩)
    rw [hkeeps]
    simp [hhop, look_false]

/-- The commitment transaction itself is not an HTLC of a slot. -/
theorem localCommit_look {close : LnCloseForce} :
    let after := monitorLocalCommit self txid ans close {}
    after.aborted = CommitSide.own.commitLost close ans ∧
      (after.aborted = false → after = { del := !CommitSide.own.commitDelays close ans }) := by
  have hnone : lnUpdateAddHtlc self lnCloseIdxNone = none := dif_neg (by decide)
  cases hbroadcasted : ans.broadcasted with
  | true => simp [monitorLocalCommit, CommitSide.commitLost, CommitSide.commitDelays, hbroadcasted]
  | false =>
      cases hunspent : ans.unspent with
      | none =>
          simp [monitorLocalCommit, CommitSide.commitLost, CommitSide.commitDelays, hbroadcasted,
            hunspent]
      | some unspent =>
          cases hempty : close.commit.vout.isEmpty with
          | true =>
              simp [monitorLocalCommit, CommitSide.commitLost, hbroadcasted, hunspent, hempty]
          | false =>
              simp only [monitorLocalCommit, CommitSide.commitLost, CommitSide.commitDelays,
                hbroadcasted, hunspent, hempty, closeUnilateralLocalSendreq,
                closeUnilateralLocalOffered, hnone]
              cases close.commitOpt with
              | none => cases ans.sent <;> simp
              | some type => cases type <;> cases unspent <;> cases ans.sent <;> simp

theorem localEntry_look {entry : Option CloseEntry} (hpass : pass.aborted = false)
    (hslot : ∀ found, entry = some found → found.htlcIdx < lnHtlcMax) :
    monitorLocalEntry self txid ans entry pass =
      pass.look (CommitSide.own.delays self txid ans entry)
        (CommitSide.own.lookedInto self txid ans entry) := by
  have hrunning : ¬ pass.aborted = true := by simp [hpass]
  unfold monitorLocalEntry
  rw [if_neg hrunning]
  cases entry with
  | none => exact (look_true pass).symm
  | some found =>
      obtain ⟨tx, htlcIdx⟩ := found
      cases tx with
      | none => simp [CommitSide.delays, delaysOwn, CommitSide.lookedInto, look_true]
      | some close =>
          simp only
          cases hbroadcasted : ans.broadcasted with
          | true =>
              simp [CommitSide.delays, delaysOwn, CommitSide.lookedInto, hbroadcasted, look_false]
          | false =>
              cases hunspent : ans.unspent with
              | none =>
                  simp [CommitSide.delays, delaysOwn, CommitSide.lookedInto, hbroadcasted,
                    hunspent, look_true]
              | some unspent =>
                  cases unspent with
                  | true =>
                      cases hopt : close.opt with
                      | none =>
                          simp [CommitSide.delays, delaysOwn, CommitSide.lookedInto, hbroadcasted,
                            hunspent, sendreq_look]
                      | some type =>
                          cases type with
                          | offered =>
                              simp [CommitSide.delays, delaysOwn, CommitSide.lookedInto,
                                hbroadcasted, hunspent, sendreq_look]
                          | received =>
                              simp [CommitSide.delays, delaysOwn, CommitSide.lookedInto,
                                hbroadcasted, hunspent, sendreq_look]
                  | false =>
                      cases hopt : close.opt with
                      | none =>
                          simp [CommitSide.delays, delaysOwn, CommitSide.lookedInto, hbroadcasted,
                            hunspent, hopt, sendreq_look]
                      | some type =>
                          cases type with
                          | offered =>
                              exact offered_look (hslot _ rfl) hbroadcasted hunspent hopt
                          | received =>
                              have hother : (LnHtlctype.received == .offered) = false := rfl
                              simp [CommitSide.delays, delaysOwn, CommitSide.lookedInto,
                                hbroadcasted, hunspent, hopt, hother, look_false]

theorem remoteEntry_look {entry : Option CloseEntry} (hpass : pass.aborted = false)
    (hwitness : ∀ found close, entry = some found → found.tx = some close → close.witness ≠ []) :
    closeRemoteEntry self txid ans entry pass =
      pass.look (CommitSide.remote.delays self txid ans entry)
        (CommitSide.remote.lookedInto self txid ans entry) := by
  have hrunning : ¬ pass.aborted = true := by simp [hpass]
  unfold closeRemoteEntry
  rw [if_neg hrunning]
  cases entry with
  | none => exact (look_true pass).symm
  | some found =>
      obtain ⟨tx, htlcIdx⟩ := found
      cases tx with
      | none => simp [CommitSide.delays, delaysRemote, CommitSide.lookedInto, look_true]
      | some close =>
          have hlength : close.witness.length > 0 :=
            List.length_pos_iff.mpr (hwitness _ close rfl rfl)
          simp only [if_pos hlength]
          split_ifs with hknown hdue
          · have hdelays : CommitSide.remote.delays self txid ans
                (some ⟨some close, htlcIdx⟩) = false := by
              rcases hknown with hspent | hsaved
              · simp [CommitSide.delays, delaysRemote, hspent]
              · simp [CommitSide.delays, delaysRemote, hsaved]
            rw [hdelays]
            exact (look_false pass).symm
          · have hdelays : CommitSide.remote.delays self txid ans
                (some ⟨some close, htlcIdx⟩) = false := by
              rcases hdue with hzero | hheight
              · simp [CommitSide.delays, delaysRemote, hzero]
              · simp only [CommitSide.delays, delaysRemote, Option.any_some, hheight,
                  Bool.or_true, Bool.not_true, Bool.not_false]
            rw [hdelays]
            exact (look_false pass).symm
          · have hdelays : CommitSide.remote.delays self txid ans
                (some ⟨some close, htlcIdx⟩) = true := by
              rw [not_or, Bool.not_eq_true] at hknown hdue
              obtain ⟨hspent, hsaved⟩ := hknown
              obtain ⟨hzero, hheight⟩ := hdue
              simp only [CommitSide.delays, delaysRemote, Option.any_some, hsaved,
                hheight, Bool.or_false, beq_eq_false_iff_ne.mpr hspent,
                beq_eq_false_iff_ne.mpr hzero, Bool.not_false, Bool.not_true]
            rw [hdelays]
            exact (look_true pass).symm

/-! ### What a pass comes to -/

/-- Nothing is done once the process has ended. -/
theorem foldl_gone {body : Nat → ClosePass → ClosePass}
    (hgone : ∀ pos pass, pass.aborted = true → body pos pass = pass) (poss : List Nat)
    {pass : ClosePass} (hpass : pass.aborted = true) :
    poss.foldl (fun pass pos => body pos pass) pass = pass := by
  induction poss with
  | nil => rfl
  | cons pos rest ih => rw [List.foldl_cons, hgone pos pass hpass, ih]

/-- What the entries add, one after the other, until one of them ends the process. -/
theorem foldl_look {body : Nat → ClosePass → ClosePass} {delays : Nat → Bool}
    {looked : Nat → Option ChainTx}
    (hbody : ∀ pos pass, pass.aborted = false →
      body pos pass = pass.look (delays pos) (looked pos))
    (hgone : ∀ pos pass, pass.aborted = true → body pos pass = pass) (poss : List Nat) :
    ∀ pass : ClosePass, pass.aborted = false →
      let after := poss.foldl (fun pass pos => body pos pass) pass
      (after.aborted = false ↔
        ∀ pos ∈ poss, ∀ tx, looked pos = some tx → (revealed tx).isSome = true) ∧
      (after.aborted = false →
        (after.del = true ↔ pass.del = true ∧ ∀ pos ∈ poss, delays pos = false) ∧
        ∀ preimage, preimage ∈ after.saved ↔ preimage ∈ pass.saved ∨
          ∃ pos ∈ poss, ∃ tx, looked pos = some tx ∧ revealed tx = some preimage) := by
  induction poss with
  | nil =>
      intro pass hpass
      simp [hpass]
  | cons pos rest ih =>
      intro pass hpass
      rw [List.foldl_cons, hbody pos pass hpass]
      have haborted : (pass.look (delays pos) (looked pos)).aborted = false ↔
          ∀ tx, looked pos = some tx → (revealed tx).isSome = true := by
        cases hlooked : looked pos with
        | none => simp [ClosePass.look, hpass]
        | some tx => simp [ClosePass.look, hpass, Option.isSome_iff_ne_none]
      by_cases hmid : (pass.look (delays pos) (looked pos)).aborted = false
      · obtain ⟨hrunning, hrest⟩ := ih _ hmid
        refine ⟨?_, fun hafter => ⟨?_, fun preimage => ?_⟩⟩
        · rw [hrunning, List.forall_mem_cons]
          exact (and_iff_right (haborted.mp hmid)).symm
        · rw [(hrest hafter).1, List.forall_mem_cons, ← and_assoc]
          simp [ClosePass.look]
        · rw [(hrest hafter).2 preimage, List.exists_mem_cons_iff, ← or_assoc]
          refine or_congr ?_ Iff.rfl
          cases hlooked : looked pos with
          | none => simp [ClosePass.look]
          | some tx =>
              cases hitem : revealed tx with
              | none => simp [ClosePass.look, hitem]
              | some item => simp [ClosePass.look, hitem, eq_comm]
      · rw [foldl_gone hgone rest (Bool.not_eq_false _ ▸ hmid)]
        refine ⟨⟨fun hafter => absurd hafter hmid, fun hall => ?_⟩,
          fun hafter => absurd hafter hmid⟩
        exact haborted.mpr (hall pos List.mem_cons_self)

/-- For the entry at a position, what is looked into. -/
def CommitSide.lookedAt (crypto : Crypto) (chan : LnSelf) (close : LnCloseForce)
    (answers : Nat → EntryAnswers) (side : CommitSide) (pos : Nat) : Option ChainTx :=
  side.lookedInto chan (crypto.txid close.commit.tx) (answers (lnCloseIdxHtlc + pos))
    close.htlcs[pos]?

/-- For the entry at a position, whether it keeps the channel. -/
def CommitSide.delaysAt (crypto : Crypto) (chan : LnSelf) (close : LnCloseForce)
    (answers : Nat → EntryAnswers) (side : CommitSide) (pos : Nat) : Bool :=
  side.delays chan (crypto.txid close.commit.tx) (answers (lnCloseIdxHtlc + pos))
    close.htlcs[pos]?

/-- Neither the commitment transaction nor an HTLC entry keeps the channel. -/
def CommitSide.Released (crypto : Crypto) (chan : LnSelf) (close : LnCloseForce)
    (answers : Nat → EntryAnswers) (side : CommitSide) : Prop :=
  side.commitDelays close (answers lnCloseIdxCommit) = false ∧
    ∀ pos < close.num - lnCloseIdxHtlc,
      side.delaysAt crypto chan close answers pos = false

/-- The preimage has been saved, or a transaction that the pass looks into gives it. -/
def CommitSide.Known (crypto : Crypto) (chan : LnSelf) (db : List Bytes) (close : LnCloseForce)
    (answers : Nat → EntryAnswers) (side : CommitSide) (preimage : Bytes) : Prop :=
  preimage ∈ db ∨ ∃ pos < close.num - lnCloseIdxHtlc, ∃ tx,
    side.lookedAt crypto chan close answers pos = some tx ∧ revealed tx = some preimage

/-- A pass as what its entries add to a start. -/
theorem monitor_foldl (answers : Nat → EntryAnswers) (side : CommitSide) {close : LnCloseForce}
    (hclose : side.close crypto (preimgSearch crypto db) chan = some close) :
    ∃ (body : Nat → ClosePass → ClosePass) (start : ClosePass),
      side.monitor crypto db chan answers =
        (List.range (close.num - lnCloseIdxHtlc)).foldl (fun pass pos => body pos pass) start ∧
      start.aborted = side.commitLost close (answers lnCloseIdxCommit) ∧
      (start.aborted = false →
        start = { del := !side.commitDelays close (answers lnCloseIdxCommit) }) ∧
      (∀ pos pass, pass.aborted = false → body pos pass =
        pass.look (side.delaysAt crypto chan close answers pos)
          (side.lookedAt crypto chan close answers pos)) ∧
      ∀ pos pass, pass.aborted = true → body pos pass = pass := by
  cases side with
  | own =>
      have hown : lnCloseUnilateral crypto (preimgSearch crypto db) chan = some close := hclose
      obtain ⟨build, hmade⟩ := madeFrom_own hown
      obtain ⟨hlost, hdelays⟩ := @localCommit_look chan (crypto.txid close.commit.tx)
        (answers lnCloseIdxCommit) close
      refine ⟨fun pos => monitorLocalEntry chan (crypto.txid close.commit.tx)
        (answers (lnCloseIdxHtlc + pos)) close.htlcs[pos]?, _, ?_, hlost, hdelays,
        fun pos pass hpass => ?_, fun pos pass hpass => if_pos hpass⟩
      · simp only [CommitSide.monitor, monitorCloseUnilateralLocal, hown,
          LnCloseForce.forEntries]
      · exact localEntry_look hpass fun found hfound =>
          hmade.htlcIdx_lt found (List.mem_of_getElem? hfound)
  | remote =>
      have hremote : (lnCloseCreateTx crypto (preimgSearch crypto db) chan).1 = some close :=
        hclose
      refine ⟨fun pos => closeRemoteEntry chan (crypto.txid close.commit.tx)
        (answers (lnCloseIdxHtlc + pos)) close.htlcs[pos]?, {}, ?_, rfl, fun _ => rfl,
        fun pos pass hpass => ?_, fun pos pass hpass => if_pos hpass⟩
      · simp only [CommitSide.monitor, closeUnilateralRemote, hremote, LnCloseForce.forEntries]
      · exact remoteEntry_look hpass fun found spend hfound hspend =>
          remoteClose_witness hremote found (List.mem_of_getElem? hfound) spend hspend

/-- A pass over the entries of a close goes on exactly when the commitment transaction can be
dealt with and all witnesses that it looks into give a preimage. -/
theorem monitor_spec (answers : Nat → EntryAnswers) (side : CommitSide) {close : LnCloseForce}
    (hclose : side.close crypto (preimgSearch crypto db) chan = some close) :
    let pass := side.monitor crypto db chan answers
    (pass.aborted = false ↔
      side.commitLost close (answers lnCloseIdxCommit) = false ∧
        ∀ pos < close.num - lnCloseIdxHtlc, ∀ tx,
          side.lookedAt crypto chan close answers pos = some tx →
            (revealed tx).isSome = true) ∧
    (pass.aborted = false →
      (pass.del = true ↔ side.Released crypto chan close answers) ∧
      ∀ preimage, preimage ∈ db ++ pass.saved ↔
        side.Known crypto chan db close answers preimage) := by
  obtain ⟨body, start, hmonitor, hlost, hstart, hbody, hgone⟩ := monitor_foldl answers side hclose
  rw [hmonitor]
  cases hfirst : start.aborted with
  | true =>
      rw [foldl_gone hgone _ hfirst, ← hlost]
      simp [hfirst]
  | false =>
      obtain ⟨hrunning, hrest⟩ := foldl_look hbody hgone
        (List.range (close.num - lnCloseIdxHtlc)) start hfirst
      simp only [List.mem_range] at hrunning hrest
      refine ⟨hrunning.trans (and_iff_right (hlost ▸ hfirst)).symm,
        fun hafter => ⟨?_, fun preimage => ?_⟩⟩
      · rw [(hrest hafter).1, hstart hfirst, CommitSide.Released, Bool.not_eq_true']
      · rw [List.mem_append, (hrest hafter).2 preimage, hstart hfirst, CommitSide.Known]
        simp only [List.not_mem_nil, false_or]

/-- When no close can be made, nothing is looked into and the channel is kept. -/
theorem monitor_none (answers : Nat → EntryAnswers) (side : CommitSide)
    (hclose : side.close crypto (preimgSearch crypto db) chan = none) :
    side.monitor crypto db chan answers = { del := false } := by
  cases side with
  | own =>
      have hown : lnCloseUnilateral crypto (preimgSearch crypto db) chan = none := hclose
      simp only [CommitSide.monitor, monitorCloseUnilateralLocal, hown]
  | remote =>
      have hremote : (lnCloseCreateTx crypto (preimgSearch crypto db) chan).1 = none := hclose
      simp only [CommitSide.monitor, closeUnilateralRemote, hremote]

/-- The commitment transaction can be dealt with, the transactions that are found for HTLCs from
another channel all have a witness of five items with a fourth of enough bytes, and a claim that
the pass sees, or that is there when nothing keeps the channel, is made with a preimage that has
been saved or that such a transaction gives. -/
structure Extractable (crypto : Crypto) (chan : LnSelf) (side : CommitSide) (db : List Bytes)
    (answers : Nat → EntryAnswers) (close : LnCloseForce) : Prop where
  commit : side.commitLost close (answers lnCloseIdxCommit) = false
  fiveItems : ∀ pos < close.num - lnCloseIdxHtlc, ∀ tx,
    side.lookedAt crypto chan close answers pos = some tx → (revealed tx).isSome = true
  known : ∀ (pos : Nat) (entry : CloseEntry) (preimage : Bytes),
    close.htlcs[pos]? = some entry →
      Claims crypto chan side close entry (answers (lnCloseIdxHtlc + pos)) preimage →
        side.Sees (answers (lnCloseIdxHtlc + pos)) ∨ side.Released crypto chan close answers →
          side.Known crypto chan db close answers preimage

/-- On the peer's commitment transaction nothing is looked into: the preimages have to be there
before. -/
theorem extractable_remote {close : LnCloseForce} :
    Extractable crypto chan .remote db answers close ↔
      ∀ (pos : Nat) (entry : CloseEntry) (preimage : Bytes), close.htlcs[pos]? = some entry →
        Claims crypto chan .remote close entry (answers (lnCloseIdxHtlc + pos)) preimage →
          (answers (lnCloseIdxHtlc + pos)).unspent = some false ∨
              CommitSide.remote.Released crypto chan close answers →
            preimage ∈ db := by
  constructor
  · intro hextractable pos entry preimage hentry hclaims hdue
    rcases hextractable.known pos entry preimage hentry hclaims hdue with
      hsaved | ⟨_, _, _, hlooked, _⟩
    · exact hsaved
    · cases hlooked
  · intro hsaved
    refine ⟨rfl, fun _ _ _ hlooked => ?_, fun pos entry preimage hentry hclaims hdue => ?_⟩
    · cases hlooked
    · exact Or.inl (hsaved pos entry preimage hentry hclaims hdue)

theorem extracts_iff (side : CommitSide) :
    Extracts crypto chan side db answers ↔
      ∀ close, side.close crypto (preimgSearch crypto db) chan = some close →
        Extractable crypto chan side db answers close := by
  constructor
  · intro hextracts close hclose
    obtain ⟨hrunning, hrest⟩ := monitor_spec answers side hclose
    obtain ⟨hdel, hknown⟩ := hrest hextracts.running
    obtain ⟨hcommit, hfive⟩ := hrunning.mp hextracts.running
    refine ⟨hcommit, hfive, fun pos entry preimage hentry hclaims hdue => ?_⟩
    rcases hdue with hsees | hreleased
    · exact (hknown preimage).mp
        (hextracts.saved close pos entry preimage hclose hentry hclaims hsees)
    · exact (hknown preimage).mp
        (hextracts.kept (hdel.mpr hreleased) close pos entry preimage hclose hentry hclaims)
  · intro hextractable
    cases hmade : side.close crypto (preimgSearch crypto db) chan with
    | none =>
        have hmonitor := monitor_none answers side hmade
        refine ⟨by rw [hmonitor], ?_, ?_⟩
        · intro close _ _ _ hclose
          cases hmade.symm.trans hclose
        · intro _ close _ _ _ hclose
          cases hmade.symm.trans hclose
    | some made =>
        have hcan := hextractable made hmade
        obtain ⟨hrunning, hrest⟩ := monitor_spec answers side hmade
        have hgoes := hrunning.mpr ⟨hcan.commit, hcan.fiveItems⟩
        obtain ⟨hdel, hknown⟩ := hrest hgoes
        refine ⟨hgoes, ?_, ?_⟩
        · intro close pos entry preimage hclose hentry hclaims hsees
          obtain rfl := Option.some.inj (hmade.symm.trans hclose)
          exact (hknown preimage).mpr
            (hcan.known pos entry preimage hentry hclaims (Or.inl hsees))
        · intro hdeletable close pos entry preimage hclose hentry hclaims
          obtain rfl := Option.some.inj (hmade.symm.trans hclose)
          exact (hknown preimage).mpr
            (hcan.known pos entry preimage hentry hclaims (Or.inr (hdel.mp hdeletable)))

/-! ### Runs -/

/-- The saved preimages after passes of the monitor, none once the process has ended or the
channel has been reported as deletable. -/
def watch (crypto : Crypto) (chan : LnSelf) (side : CommitSide) (db : List Bytes)
    (passes : List (Nat → EntryAnswers)) : Option (List Bytes) :=
  passes.foldlM
    (fun known answers =>
      let pass := side.monitor crypto known chan answers
      if pass.aborted || pass.del then none else some (known ++ pass.saved))
    db

/-- Every pass extracts, up to the one that reports the channel as deletable. -/
def ExtractsRun (crypto : Crypto) (chan : LnSelf) (side : CommitSide) :
    List Bytes → List (Nat → EntryAnswers) → Prop
  | _, [] => True
  | db, answers :: later =>
      let pass := side.monitor crypto db chan answers
      Extracts crypto chan side db answers ∧
        (pass.del = false → ExtractsRun crypto chan side (db ++ pass.saved) later)

theorem watch_cons (side : CommitSide) {passes : List (Nat → EntryAnswers)} :
    watch crypto chan side db (answers :: passes) =
      let pass := side.monitor crypto db chan answers
      if pass.aborted || pass.del then none
      else watch crypto chan side (db ++ pass.saved) passes := by
  simp only [watch, List.foldlM_cons]
  split_ifs
  · rfl
  · rfl

/-- A run extracts exactly when every pass can. -/
theorem extractsRun_iff (crypto : Crypto) (chan : LnSelf) (side : CommitSide)
    (passes : List (Nat → EntryAnswers)) (db : List Bytes) :
    ExtractsRun crypto chan side db passes ↔
      ∀ (done later : List (Nat → EntryAnswers)) (answers : Nat → EntryAnswers)
          (known : List Bytes) (close : LnCloseForce),
        passes = done ++ answers :: later → watch crypto chan side db done = some known →
          side.close crypto (preimgSearch crypto known) chan = some close →
            Extractable crypto chan side known answers close := by
  induction passes generalizing db with
  | nil => simp [ExtractsRun]
  | cons first rest ih =>
      rw [ExtractsRun, extracts_iff, ih]
      constructor
      · rintro ⟨hfirst, hrest⟩ done later answers known close hpasses hwatch hclose
        cases done with
        | nil =>
            obtain ⟨rfl, rfl⟩ := List.cons.inj hpasses
            obtain rfl := Option.some.inj hwatch
            exact hfirst close hclose
        | cons head done =>
            obtain ⟨rfl, hbehind⟩ := List.cons.inj hpasses
            rw [watch_cons] at hwatch
            by_cases hgone : (side.monitor crypto db chan first).aborted ||
                (side.monitor crypto db chan first).del
            · simp only [if_pos hgone] at hwatch
              cases hwatch
            · simp only [if_neg hgone] at hwatch
              simp only [Bool.or_eq_true, not_or, Bool.not_eq_true] at hgone
              exact hrest hgone.2 done later answers known close hbehind hwatch hclose
      · intro hall
        have hfirst : ∀ close, side.close crypto (preimgSearch crypto db) chan = some close →
            Extractable crypto chan side db first close :=
          fun close hclose => hall [] rest first db close rfl rfl hclose
        refine ⟨hfirst, ?_⟩
        intro hkept done later answers known close hpasses hwatch hclose
        refine hall (first :: done) later answers known close ?_ ?_ hclose
        · rw [hpasses, List.cons_append]
        · have hrunning := (extracts_iff side).mpr hfirst |>.running
          rw [watch_cons]
          simp only [hrunning, hkept, Bool.or_self, Bool.false_eq_true, if_false]
          exact hwatch

/-- A forwarded HTLC of 10000 sat is offered and committed to the peer. -/
def forwardedScript (preimage : Bytes) : List (ChannelState → ChannelLabel) :=
  [ fun _ => .event (.addHtlcFwd
      { packet := []
        amountMsat := 10000000
        cltvValue := 100
        paymentHash := preimage
        prevShortChannelId := 5 }),
    fun _ => .event (.startFwd 0),
    fun _ => .event .idle,
    fun _ => .event .idle,
    fun _ => .event (.recv symbolicOutpoint.txid
      (.revokeAndAck (symbolicKeys 2).perCommit [2, 7]) {}) ]

/-- On its own commitment transaction the peer takes the output in its HTLC-success
transaction, and the monitor is told that it is spent. -/
def successAnswers (preimage txid : Bytes) (index : Nat) (_ : Nat) : EntryAnswers where
  unspent := some false
  confm := some 1
  chain :=
    { height := some 1
      block := fun _ => [{ vin := [⟨txid, index, [[], [2], [1], preimage, [3]]⟩], vout := [] }] }

instance (htlc : LnUpdateAddHtlc) : Decidable htlc.Forwarded :=
  inferInstanceAs (Decidable (_ ∧ _ ∧ _))

/-- The pass does not look into the HTLC-success transaction. -/
theorem extracts_missed :
    ¬ ∀ (crypto : Crypto) (state : ChannelState), (channelSystem crypto).Reachable state →
      ∀ (side : CommitSide) (passes : List (Nat → EntryAnswers)) (db : List Bytes),
        ExtractsRun crypto state.self side db passes := by
  intro hall
  let preimage : Bytes := List.replicate lnSzPreimage 9
  have hcheck : symbolicCheck 1000000 500000000 permitAll (forwardedScript preimage)
      (fun state _ =>
        (CommitSide.remote.close .symbolic (preimgSearch .symbolic []) state.self).any
          fun close => close.num == lnCloseIdxHtlc + 1 &&
            close.htlcs[0]?.any fun entry => entry.tx.any fun spend =>
            (htlcVouts close.commit.vout).any fun out =>
              let htlc := state.self.cnlAddHtlc out.2.2.addHtlcIdx
              out.1 == spend.tx.vinIndex && decide htlc.Forwarded &&
                htlc.paymentSha256 == preimage) = true := by
    decide +kernel
  obtain ⟨state, _, hhistory, hchecked⟩ := run_of_symbolicCheck hcheck
  obtain ⟨close, hclose, hentries⟩ := (Option.any_eq_true _ _).mp hchecked
  obtain ⟨entry, hentry, htx⟩ := (Option.any_eq_true _ _).mp (Bool.and_eq_true_iff.mp hentries).2
  obtain ⟨spend, hspend, houts⟩ := (Option.any_eq_true _ _).mp htx
  obtain ⟨⟨index, value, info⟩, hmem, hout⟩ := List.any_eq_true.mp houts
  simp only [Bool.and_eq_true, beq_iff_eq, decide_eq_true_eq] at hout
  obtain ⟨⟨rfl, hforwarded⟩, hhash⟩ := hout
  obtain ⟨out, hvout, hopt, -⟩ := mem_htlcVouts.mp hmem
  let answers := successAnswers preimage (Crypto.symbolic.txid close.commit.tx) spend.tx.vinIndex
  have hextracts : Extracts .symbolic state.self .remote [] answers :=
    (hall .symbolic state hhistory.reachableUnder .remote [answers] []).1
  have hclaims : Claims .symbolic state.self .remote close entry (answers lnCloseIdxHtlc)
      preimage :=
    ⟨spend, out, info, 0, _, _, hspend, hvout, hopt, hforwarded, rfl, hhash.symm,
      List.mem_singleton_self _, List.mem_singleton_self _, rfl, rfl, rfl, rfl⟩
  have hextractable := (extracts_iff .remote).mp hextracts close hclose
  cases extractable_remote.mp hextractable 0 entry preimage hentry hclaims (Or.inl rfl)

end Ptarmigan
