/-
The numbers by which the monitor finds the HTLC of a close entry: where the slot, the
position in `pp_htlcinfo` and the output index are the same.
-/
import Mathlib.Data.List.Forall2
import Ptarmigan.ChannelRun
import Ptarmigan.ForceClose

namespace Ptarmigan

variable {crypto : Crypto} {searchPreimage : Bytes → Option Bytes} {self : LnSelf}

/-! ### Positions in `pp_htlcinfo` -/

/-- The position is the slot itself where all lower slots are in the transaction. -/
theorem idxOf_filter_eq_iff {count : Nat} (keeps : Fin count → Bool) {idx : Fin count}
    (hkeeps : keeps idx = true) :
    ((List.finRange count).filter keeps).idxOf idx = idx ↔
      ∀ lower < idx, keeps lower = true := by
  have hlower : ∀ lower, lower ∈ (List.finRange count).take idx ↔ lower < idx := by
    intro lower
    rw [List.mem_take_iff_getElem]
    constructor
    · rintro ⟨pos, hpos, rfl⟩
      rw [List.getElem_finRange]
      simp only [Nat.lt_min] at hpos
      exact hpos.1
    · intro hlt
      refine ⟨lower, ?_, ?_⟩
      · rw [List.length_finRange, Nat.lt_min]
        exact ⟨hlt, lower.isLt⟩
      · simp
  have hsplit : (List.finRange count).filter keeps =
      ((List.finRange count).take idx).filter keeps ++
        idx :: (((List.finRange count).drop (idx + 1)).filter keeps) := by
    have hdrop : (List.finRange count).drop idx = idx :: (List.finRange count).drop (idx + 1) := by
      rw [List.drop_eq_getElem_cons (by simp)]
      simp
    conv_lhs => rw [← List.take_append_drop idx (List.finRange count), List.filter_append, hdrop,
      List.filter_cons_of_pos hkeeps]
  have hnot : idx ∉ ((List.finRange count).take idx).filter keeps := by
    intro hmem
    exact absurd ((hlower idx).mp (List.mem_of_mem_filter hmem)) (lt_irrefl _)
  rw [hsplit, List.idxOf_append, if_neg hnot, List.idxOf_cons_self, Nat.zero_add]
  have hall : (((List.finRange count).take idx).filter keeps).length =
      ((List.finRange count).take idx).length ↔
        ∀ lower ∈ (List.finRange count).take idx, keeps lower = true :=
    List.length_filter_eq_length_iff
  have hlength : ((List.finRange count).take idx).length = idx := by simp
  rw [hlength] at hall
  rw [hall]
  exact ⟨fun hall lower hlt => hall lower ((hlower lower).mpr hlt),
    fun hall lower hmem => hall lower ((hlower lower).mp hmem)⟩

theorem mem_htlcVouts {vout : List BtcVout} {index : Nat} {value : UInt64}
    {info : LnScriptHtlcinfo} :
    (index, value, info) ∈ htlcVouts vout ↔
      ∃ out, vout[index]? = some out ∧ out.opt = .htlc info ∧ out.value = value := by
  simp only [htlcVouts, List.mem_filterMap, Prod.exists, List.mem_zipIdx_iff_getElem?]
  constructor
  · rintro ⟨out, pos, hout, hinfo⟩
    cases hopt : out.opt with
    | htlc info' =>
        simp only [hopt, Option.some.injEq, Prod.mk.injEq] at hinfo
        obtain ⟨rfl, rfl, rfl⟩ := hinfo
        exact ⟨out, hout, hopt, rfl⟩
    | tolocal => simp [hopt] at hinfo
    | toremote => simp [hopt] at hinfo
  · rintro ⟨out, hout, hopt, rfl⟩
    exact ⟨out, index, hout, by simp [hopt]⟩

/-- The HTLCs of the outputs are those of `pp_htlcinfo`. -/
theorem slot_of_output {cmt : LnScriptCommittx} {isLocal : Bool} {index : Nat} {out : BtcVout}
    {info : LnScriptHtlcinfo}
    (hout : (lnScriptCommittxCreate crypto cmt isLocal).vout[index]? = some out)
    (hopt : out.opt = .htlc info) : info ∈ cmt.htlcinfo := by
  rcases committx_vout_cases (List.mem_of_getElem? hout) with
    ⟨hremote, -⟩ | ⟨hlocal, -⟩ | ⟨info', hinfo, hhtlc, -⟩
  · rw [hremote] at hopt
    cases hopt
  · rw [hlocal] at hopt
    cases hopt
  · rw [hhtlc] at hopt
    exact VoutOpt.htlc.inj hopt ▸ hinfo

/-! ### Both sides -/

/-- Which commitment transaction has been broadcast. -/
inductive CommitSide
  | own
  | remote
deriving DecidableEq, Repr

def CommitSide.select : CommitSide → HtlcSelect
  | .own => localSelect
  | .remote => remoteSelect

/-- What is prepared for a broadcast commitment transaction. -/
def CommitSide.close (crypto : Crypto) (searchPreimage : Bytes → Option Bytes) (self : LnSelf) :
    CommitSide → Option LnCloseForce
  | .own => lnCloseUnilateral crypto searchPreimage self
  | .remote => (lnCloseCreateTx crypto searchPreimage self).1

/-- An HTLC output that is spent: all but an own received one without preimage. -/
def CommitSide.spends (searchPreimage : Bytes → Option Bytes) (self : LnSelf)
    (info : LnScriptHtlcinfo) : CommitSide → Bool
  | .own => info.type == .offered ||
      (searchPreimage (self.cnlAddHtlc info.addHtlcIdx).paymentSha256).isSome
  | .remote => true

/-- The number in `p_htlc_idx` is the slot of the HTLC that the spent output carries, which
the monitor reads with `ln_update_add_htlc`, and the index of that output, which it passes to
`btcrpc_search_outpoint`. -/
def EntryRight (commit : Committx) (entry : CloseEntry) : Prop :=
  ∀ close, entry.tx = some close → ∃ out info, commit.vout[close.tx.vinIndex]? = some out ∧
    out.opt = .htlc info ∧ entry.htlcIdx = info.addHtlcIdx ∧ entry.htlcIdx = close.tx.vinIndex

/-- Every HTLC output that is spent has the index of its slot, and all lower slots are in the
transaction. -/
def IndicesAgree (searchPreimage : Bytes → Option Bytes) (self : LnSelf) (side : CommitSide)
    (commit : Committx) : Prop :=
  ∀ (index : Nat) (out : BtcVout) (info : LnScriptHtlcinfo), commit.vout[index]? = some out →
    out.opt = .htlc info → side.spends searchPreimage self info = true →
      index = info.addHtlcIdx ∧
        ∀ lower < info.addHtlcIdx, side.select.adds (self.cnlAddHtlc lower) = true

/-- A close is made from a build: one entry for each HTLC output, in order. -/
structure MadeFrom (searchPreimage : Bytes → Option Bytes) (chan : LnSelf) (side : CommitSide)
    (close : LnCloseForce) (build : CommitBuild) : Prop where
  commit : close.commit = build.committx
  slots : build.amount.htlcinfo.map LnScriptHtlcinfo.addHtlcIdx =
    (List.finRange lnHtlcMax).filter fun idx => side.select.adds (chan.cnlAddHtlc idx)
  infos : ∀ (index : Nat) (out : BtcVout) (info : LnScriptHtlcinfo),
    build.committx.vout[index]? = some out → out.opt = .htlc info →
      info.addHtlcIdx ∈ build.amount.htlcinfo.map LnScriptHtlcinfo.addHtlcIdx
  entries : List.Forall₂ (fun out entry =>
      entry.htlcIdx = build.htlcPos out.2.2.addHtlcIdx ∧
        (side.spends searchPreimage chan out.2.2 = true ↔ entry.tx.isSome = true) ∧
          ∀ close, entry.tx = some close → close.tx.vinIndex = out.1)
    (htlcVouts build.committx.vout) close.htlcs

theorem exists_right_of_mem {α β : Type} {rel : α → β → Prop} {items : List α}
    {results : List β} (hall : List.Forall₂ rel items results) {item : α} (hmem : item ∈ items) :
    ∃ result ∈ results, rel item result := by
  induction hall with
  | nil => cases hmem
  | @cons first result rest others hfirst _ ih =>
      rcases List.mem_cons.mp hmem with rfl | hrest
      · exact ⟨result, List.mem_cons_self, hfirst⟩
      · obtain ⟨found, hfound, hrel⟩ := ih hrest
        exact ⟨found, List.mem_cons_of_mem _ hfound, hrel⟩

theorem exists_left_of_mem {α β : Type} {rel : α → β → Prop} {items : List α}
    {results : List β} (hall : List.Forall₂ rel items results) {result : β}
    (hmem : result ∈ results) : ∃ item ∈ items, rel item result :=
  exists_right_of_mem hall.flip hmem

theorem forall₂_of_mapM {α β : Type} {f : α → Option β} {items : List α} :
    ∀ {results : List β}, items.mapM f = some results →
      List.Forall₂ (fun item result => f item = some result) items results := by
  induction items with
  | nil =>
      intro results hresults
      obtain rfl := Option.some.inj hresults
      exact .nil
  | cons item rest ih =>
      intro results hresults
      rw [List.mapM_cons] at hresults
      obtain ⟨first, hfirst, hrest⟩ := Option.bind_eq_some_iff.mp hresults
      obtain ⟨others, hothers, hall⟩ := Option.bind_eq_some_iff.mp hrest
      obtain rfl := Option.some.inj hall
      exact .cons hfirst (ih hothers)

theorem MadeFrom.entriesRight_iff {side : CommitSide} {close : LnCloseForce}
    {build : CommitBuild} (hmade : MadeFrom searchPreimage self side close build) :
    (∀ entry ∈ close.htlcs, EntryRight close.commit entry) ↔
      IndicesAgree searchPreimage self side close.commit := by
  have hpos : ∀ (index : Nat) (out : BtcVout) (info : LnScriptHtlcinfo),
      build.committx.vout[index]? = some out → out.opt = .htlc info →
      (build.htlcPos info.addHtlcIdx = info.addHtlcIdx ↔
        ∀ lower < info.addHtlcIdx, side.select.adds (self.cnlAddHtlc lower) = true) := by
    intro index out info hout hopt
    have hmem := hmade.infos index out info hout hopt
    rw [hmade.slots, List.mem_filter] at hmem
    rw [CommitBuild.htlcPos, hmade.slots]
    exact idxOf_filter_eq_iff (fun idx => side.select.adds (self.cnlAddHtlc idx)) hmem.2
  rw [hmade.commit]
  constructor
  · intro hall index out info hout hopt hspends
    have hin : (index, out.value, info) ∈ htlcVouts build.committx.vout :=
      mem_htlcVouts.mpr ⟨out, hout, hopt, rfl⟩
    obtain ⟨entry, hentry, hidx, hiff, hvin⟩ := exists_right_of_mem hmade.entries hin
    obtain ⟨tx, htx⟩ := Option.isSome_iff_exists.mp (hiff.mp hspends)
    obtain ⟨out', info', hout', hopt', hslot, hindex⟩ := hall entry hentry tx htx
    rw [hvin tx htx] at hout' hindex
    obtain rfl := Option.some.inj (hout'.symm.trans hout)
    obtain rfl := VoutOpt.htlc.inj (hopt'.symm.trans hopt)
    constructor
    · exact hindex.symm.trans hslot
    · exact (hpos index out' info' hout hopt).mp (hidx.symm.trans hslot)
  · intro hagree entry hentry tx htx
    obtain ⟨⟨index, value, info⟩, hin, hidx, hiff, hvin⟩ :=
      exists_left_of_mem hmade.entries hentry
    obtain ⟨out, hout, hopt, rfl⟩ := mem_htlcVouts.mp hin
    have hspends : side.spends searchPreimage self info = true := by
      rw [hiff, htx]
      rfl
    obtain ⟨hindex, hlower⟩ := hagree index out info hout hopt hspends
    have hslot : entry.htlcIdx = info.addHtlcIdx :=
      hidx.trans ((hpos index out info hout hopt).mpr hlower)
    refine ⟨out, info, ?_, hopt, hslot, ?_⟩
    · rw [hvin tx htx]
      exact hout
    · rw [hvin tx htx, hslot, hindex]

/-! ### The two closes -/

theorem htlcinfoScript_idx (crypto : Crypto) (keys : Scriptkeys) (info : LnScriptHtlcinfo) :
    (lnScriptHtlcinfoScript crypto keys info).addHtlcIdx = info.addHtlcIdx :=
  rfl

/-- The HTLCs that the outputs of a commitment transaction carry were collected for it. -/
theorem idx_mem_of_scripts {cmt : LnScriptCommittx} {isLocal : Bool} {keys : Scriptkeys}
    {htlcinfo : List LnScriptHtlcinfo}
    (hcmt : cmt.htlcinfo = htlcinfo.map (lnScriptHtlcinfoScript crypto keys))
    (index : Nat) (out : BtcVout) (info : LnScriptHtlcinfo)
    (hout : (lnScriptCommittxCreate crypto cmt isLocal).vout[index]? = some out)
    (hopt : out.opt = .htlc info) :
    info.addHtlcIdx ∈ htlcinfo.map LnScriptHtlcinfo.addHtlcIdx := by
  have hmem := slot_of_output hout hopt
  rw [hcmt] at hmem
  obtain ⟨bare, hbare, rfl⟩ := List.mem_map.mp hmem
  rw [htlcinfoScript_idx]
  exact List.mem_map_of_mem hbare

theorem localSpenthtlc_spec {build : CommitBuild} {out : Nat × UInt64 × LnScriptHtlcinfo}
    {close : CloseHtlc}
    (hspend : createToLocalSpenthtlc crypto searchPreimage self build out = some close) :
    close.out = out ∧
      (CommitSide.own.spends searchPreimage self out.2.2 = true ↔ close.spend.isSome = true) ∧
      ∀ spend, close.spend = some spend → spend.1.vinIndex = out.1 := by
  unfold createToLocalSpenthtlc at hspend
  by_cases hskip : out.2.2.type = .received ∧
      (searchPreimage (self.cnlAddHtlc out.2.2.addHtlcIdx).paymentSha256).isNone
  · rw [if_pos hskip] at hspend
    obtain rfl := Option.some.inj hspend
    obtain ⟨htype, hnone⟩ := hskip
    refine ⟨rfl, ?_, fun spend hspend => nomatch hspend⟩
    rw [Option.isNone_iff_eq_none] at hnone
    simp [CommitSide.spends, htype, hnone]
  · rw [if_neg hskip] at hspend
    obtain ⟨sighash, -, rfl⟩ := Option.map_eq_some_iff.mp hspend
    refine ⟨rfl, ?_, ?_⟩
    · cases htype : out.2.2.type with
      | offered => simp [CommitSide.spends, htype]
      | received =>
          have hsome : (searchPreimage
              (self.cnlAddHtlc out.2.2.addHtlcIdx).paymentSha256).isSome = true := by
            rw [Option.isSome_iff_ne_none]
            intro hnone
            exact hskip ⟨htype, Option.isNone_iff_eq_none.mpr hnone⟩
          simp [CommitSide.spends, hsome]
    · intro spend hspend
      obtain rfl := Option.some.inj hspend
      rfl

theorem remoteSpenthtlc_vinIndex {build : CommitBuild} {txid : Bytes}
    {out : Nat × UInt64 × LnScriptHtlcinfo} {close : CloseTx}
    (hspend : createToRemoteSpenthtlcClose crypto searchPreimage self build txid out =
      some close) : close.tx.vinIndex = out.1 := by
  cases htype : out.2.2.type with
  | received =>
      simp only [createToRemoteSpenthtlcClose, htype, Option.some.injEq] at hspend
      obtain rfl := hspend
      rfl
  | offered =>
      cases hsearch : searchPreimage (self.cnlAddHtlc out.2.2.addHtlcIdx).paymentSha256 with
      | some preimage =>
          simp only [createToRemoteSpenthtlcClose, htype, hsearch, Option.some.injEq] at hspend
          obtain rfl := hspend
          rfl
      | none =>
          simp only [createToRemoteSpenthtlcClose, htype, hsearch] at hspend
          obtain ⟨sighash, -, rfl⟩ := Option.map_eq_some_iff.mp hspend
          rfl

theorem createToLocalClose_spec {commitNum : UInt64} {toSelfDelay : UInt16}
    {dustLimitSat : UInt64} {unilateral : UnilateralTx}
    (hclose : (createToLocalClose crypto searchPreimage self commitNum toSelfDelay
      dustLimitSat).1 = some unilateral) :
    ∃ after : LnSelf, after.cnlAddHtlc = self.cnlAddHtlc ∧
      unilateral.build = buildToLocal crypto self commitNum toSelfDelay dustLimitSat ∧
      (htlcVouts unilateral.build.committx.vout).mapM
        (createToLocalSpenthtlc crypto searchPreimage after unilateral.build) =
          some unilateral.htlcs := by
  unfold createToLocalClose at hclose
  generalize hbuild : buildToLocal crypto self commitNum toSelfDelay dustLimitSat = build at hclose
  cases hsign : signCommittx crypto self build.committx.tx with
  | none =>
      simp only [hsign] at hclose
      cases hclose
  | some bufSig =>
      by_cases hverify : createToLocalSignVerify crypto self build.committx.tx bufSig = true
      · simp only [hsign, if_pos hverify] at hclose
        obtain ⟨htlcs, hhtlcs, rfl⟩ := Option.map_eq_some_iff.mp hclose
        refine ⟨_, ?_, rfl, hhtlcs⟩
        rfl
      · simp only [hsign, if_neg hverify] at hclose
        cases hclose

theorem madeFrom_own {close : LnCloseForce}
    (hclose : lnCloseUnilateral crypto searchPreimage self = some close) :
    ∃ build, MadeFrom searchPreimage self .own close build := by
  obtain ⟨unilateral, hunilateral, rfl⟩ := Option.map_eq_some_iff.mp hclose
  obtain ⟨after, hslots, hbuild, hhtlcs⟩ := createToLocalClose_spec hunilateral
  have hkept : after.cnlAddHtlc = self.cnlAddHtlc := hslots
  refine ⟨unilateral.build, rfl, ?_, ?_, ?_⟩
  · rw [hbuild]
    exact htlcinfoAmount_slots ..
  · rw [hbuild]
    exact idx_mem_of_scripts rfl
  · rw [UnilateralTx.entries, List.forall₂_map_right_iff]
    refine (forall₂_of_mapM hhtlcs).imp fun out close hspend => ?_
    obtain ⟨hout, hspends, hindex⟩ := localSpenthtlc_spec hspend
    refine ⟨by rw [hout], ?_, ?_⟩
    · rw [Option.isSome_map, ← hspends, CommitSide.spends, CommitSide.spends, hkept]
    · intro tx htx
      obtain ⟨spend, hspend, rfl⟩ := Option.map_eq_some_iff.mp htx
      exact hindex spend hspend

theorem madeFrom_remote {close : LnCloseForce}
    (hclose : (lnCloseCreateTx crypto searchPreimage self).1 = some close) :
    ∃ build, MadeFrom searchPreimage self .remote close build := by
  unfold lnCloseCreateTx createToRemoteClose at hclose
  generalize hbuild : buildToRemote crypto (self.withPrevKeys crypto) self.commitRemote.commitNum
    self.commitRemote.dustLimitSat = build at hclose
  cases hsign : signCommittx crypto (self.withPrevKeys crypto) build.committx.tx with
  | none =>
      simp only [hsign] at hclose
      cases hclose
  | some signature =>
      simp only [hsign] at hclose
      obtain ⟨htlcs, hhtlcs, rfl⟩ := Option.map_eq_some_iff.mp hclose
      refine ⟨build, rfl, ?_, ?_, ?_⟩
      · rw [← hbuild]
        exact htlcinfoAmount_slots ..
      · rw [← hbuild]
        exact idx_mem_of_scripts rfl
      · refine (forall₂_of_mapM hhtlcs).imp fun out entry hentry => ?_
        obtain ⟨tx, htx, rfl⟩ := Option.map_eq_some_iff.mp hentry
        refine ⟨rfl, ⟨fun _ => rfl, fun _ => rfl⟩, ?_⟩
        intro tx' htx'
        obtain rfl := Option.some.inj htx'
        exact remoteSpenthtlc_vinIndex htx

/-- The entries of a close are read rightly where slots, positions and output indices are the
same. -/
theorem entriesRight_iff_indicesAgree (side : CommitSide) (close : LnCloseForce)
    (hclose : side.close crypto searchPreimage self = some close) :
    (∀ entry ∈ close.htlcs, EntryRight close.commit entry) ↔
      IndicesAgree searchPreimage self side close.commit := by
  cases side with
  | own =>
      obtain ⟨build, hmade⟩ := madeFrom_own hclose
      exact hmade.entriesRight_iff
  | remote =>
      obtain ⟨build, hmade⟩ := madeFrom_remote hclose
      exact hmade.entriesRight_iff

theorem indicesAgree_of_htlcVouts {side : CommitSide} {commit : Committx}
    (hagree : ∀ out ∈ htlcVouts commit.vout, side.spends searchPreimage self out.2.2 = true →
      out.1 = out.2.2.addHtlcIdx ∧
        ∀ lower < out.2.2.addHtlcIdx, side.select.adds (self.cnlAddHtlc lower) = true) :
    IndicesAgree searchPreimage self side commit := by
  intro index out info hout hopt hspends
  exact hagree (index, out.value, info) (mem_htlcVouts.mpr ⟨out, hout, hopt, rfl⟩) hspends

/-- An HTLC of the given amount is offered and committed to the peer: the first idle sends the
update, the second the `commitment_signed`. -/
def offeredScript (amountMsat : UInt64) : List (ChannelState → ChannelLabel) :=
  [ fun _ => .event (.addHtlc
      { packet := []
        amountMsat
        cltvValue := 100
        paymentHash := [9] }),
    fun _ => .event .idle,
    fun _ => .event .idle,
    fun _ => .event (.recv symbolicOutpoint.txid
      (.revokeAndAck (symbolicKeys 2).perCommit [2, 7]) {}) ]

/-- An HTLC of 10000 sat is the first output. -/
theorem entriesRight_offered :
    ∃ (state : ChannelState) (close : LnCloseForce),
      CommitSide.remote.close .symbolic (fun _ => none) state.self = some close ∧
        close.num = lnCloseIdxHtlc + 1 ∧ close.htlcs.length = 1 ∧
          ∀ entry ∈ close.htlcs, EntryRight close.commit entry := by
  have hcheck : symbolicCheck 1000000 500000000 permitAll (offeredScript 10000000)
      (fun state _ =>
        (CommitSide.remote.close .symbolic (fun _ => none) state.self).any
          fun close : LnCloseForce =>
            close.num == lnCloseIdxHtlc + 1 && close.htlcs.length == 1 &&
            decide (∀ out ∈ htlcVouts close.commit.vout,
              CommitSide.remote.spends (fun _ => none) state.self out.2.2 = true →
                out.1 = out.2.2.addHtlcIdx ∧ ∀ lower < out.2.2.addHtlcIdx,
                  CommitSide.remote.select.adds (state.self.cnlAddHtlc lower) = true)) = true := by
    decide +kernel
  obtain ⟨state, _, _, hchecked⟩ := run_of_symbolicCheck hcheck
  obtain ⟨close, hclose, hright⟩ := (Option.any_eq_true _ _).mp hchecked
  simp only [Bool.and_eq_true, beq_iff_eq, decide_eq_true_eq] at hright
  obtain ⟨⟨hnum, hlength⟩, hagree⟩ := hright
  exact ⟨state, close, hclose, hnum, hlength,
    (entriesRight_iff_indicesAgree .remote close hclose).mpr (indicesAgree_of_htlcVouts hagree)⟩

/-- An HTLC of 300000 sat is the second output, after the own balance of 200000 sat. -/
theorem entryWrong_offered :
    ¬ ∀ (crypto : Crypto) (searchPreimage : Bytes → Option Bytes) (state : ChannelState)
        (side : CommitSide) (close : LnCloseForce), (channelSystem crypto).Reachable state →
      side.close crypto searchPreimage state.self = some close →
        ∀ entry ∈ close.htlcs, EntryRight close.commit entry := by
  intro hall
  have hcheck : symbolicCheck 1000000 500000000 permitAll (offeredScript 300000000)
      (fun state _ =>
        (CommitSide.remote.close .symbolic (fun _ => none) state.self).any fun close =>
          close.num == lnCloseIdxHtlc + 1 && close.htlcs.any fun entry =>
            entry.tx.any fun spend => entry.htlcIdx != spend.tx.vinIndex) = true := by
    decide +kernel
  obtain ⟨state, _, hhistory, hchecked⟩ := run_of_symbolicCheck hcheck
  obtain ⟨close, hclose, hwrong⟩ := (Option.any_eq_true _ _).mp hchecked
  obtain ⟨entry, hentry, htx⟩ := List.any_eq_true.mp (Bool.and_eq_true_iff.mp hwrong).2
  obtain ⟨spend, hspend, hne⟩ := (Option.any_eq_true _ _).mp htx
  obtain ⟨_, _, _, _, _, hindex⟩ :=
    hall _ _ state .remote close hhistory.reachableUnder hclose entry hentry spend hspend
  exact absurd hindex (bne_iff_ne.mp hne)

end Ptarmigan
