/-
The passes of the monitor after a revoked close: when the counter of what is left agrees with
what has been claimed.
-/
import Ptarmigan.Library.Run
import Ptarmigan.Library.Tally
import Ptarmigan.ChannelRun
import Ptarmigan.Monitor
import Ptarmigan.Recovery

namespace Ptarmigan

open TransitionSystem Tally

variable {crypto : Crypto} {chan : LnSelf} {phashSearch : Bytes → Option PhashEntry}

/-! ### The passes -/

/-- The outputs of the revoked transaction that a transaction spends. -/
def ChainTx.takes (txid : Bytes) (tx : ChainTx) : List Nat :=
  tx.vin.filterMap fun vin => if vin.txid = txid then some vin.index else none

/-- The state between the passes: what is saved, which outputs have been claimed, and whether
the channel has been reported as deletable or the counter has gone below zero. -/
structure RecoveryState where
  revoked : RevokedClose
  started : Bool := false
  claimed : List Nat := []
  deletable : Bool := false
  underflow : Bool := false

/-- A pass of the monitor, with the number of confirmations and the answers it gets. -/
inductive RecoveryLabel
  | first (confm : UInt32) (broadcast : Nat → Nat → Bool)
  | after (confm : UInt32) (chain : Chain)

/-- After a pass that has claimed the given outputs. -/
def RecoveryState.passed {Item : Type} (state : RecoveryState) (pass : RevokedPass Item)
    (claims : List Nat) : RecoveryState where
  revoked := pass.revoked
  started := true
  claimed := state.claimed ++ claims
  deletable := pass.del
  underflow := state.underflow || decide (state.revoked.cnt.toNat < pass.claims.length)

/-- The monitor once the spending transaction is classified as revoked, until it reports the
channel as deletable. -/
def recoveryNext (txid : Bytes) (tx : BtcTx) (state : RecoveryState) :
    RecoveryLabel → Option RecoveryState
  | .first confm broadcast =>
      if state.started then none
      else if state.revoked.cnt > 0 then
        let pass := closeRevokedFirst broadcast confm state.revoked tx
        some (state.passed pass pass.claims)
      else some { state with started := true, deletable := true }
  | .after confm chain =>
      if state.started && !state.deletable then
        let pass := closeRevokedAfter chain confm state.revoked
        some (state.passed pass (pass.claims.flatMap (ChainTx.takes txid)))
      else none

namespace RevokedCommit

variable (commit : RevokedCommit crypto chan)

/-- The passes after `ln_close_remoterevoked`. -/
def recoverySystem (phashSearch : Bytes → Option PhashEntry) :
    System RecoveryState RecoveryLabel where
  start state := ∃ after made,
    lnCloseRemoterevoked crypto phashSearch chan commit.tx = some (after, made) ∧
      state = { revoked := made.revoked }
  next := recoveryNext (crypto.txid commit.tx) commit.tx

/-- What a pass needs.  The first one: a to_local output, all HTLCs known, no two HTLC outputs
alike.  A later one: every transaction it finds takes one HTLC output, each another one, that
has not been claimed. -/
def Orderly (phashSearch : Bytes → Option PhashEntry) (state : RecoveryState) :
    RecoveryLabel → Prop
  | .first _ _ => commit.HasToLocal ∧ commit.PhashKept phashSearch ∧ commit.DistinctHtlcs
  | .after confm chain =>
      let found := (closeRevokedAfter chain confm state.revoked).claims
      (state.claimed ++ found.flatMap (ChainTx.takes (crypto.txid commit.tx))).Nodup ∧
        ∀ tx ∈ found, ∃ index out info, ChainTx.takes (crypto.txid commit.tx) tx = [index] ∧
          commit.vout[index]? = some out ∧ out.opt = .htlc info

/-- The counter never goes below zero, and the channel is reported as deletable exactly when
every to_local and HTLC output has been claimed. -/
def Accounted (state : RecoveryState) : Prop :=
  state.underflow = false ∧ (state.started = true → (state.deletable = true ↔
    ∀ (index : Nat) (out : BtcVout), commit.vout[index]? = some out →
      out.opt ≠ .toremote → index ∈ state.claimed))

end RevokedCommit

/-! ### One claim -/

section Claims

/-- A pass has claimed new items only, and the counter and the report agree with that. -/
structure PassTally {Item : Type} (items : Finset Nat) (past : List Nat)
    (takes : Item → List Nat) (pass : RevokedPass Item) : Prop where
  tally : Tallied items (past ++ pass.claims.flatMap takes) pass.revoked.cnt.toNat
  del : pass.del = true ↔ pass.revoked.cnt.toNat = 0

variable {Item : Type} {items : Finset Nat} {past : List Nat} {takes : Item → List Nat}
  {pass : RevokedPass Item}

theorem PassTally.claim (htally : PassTally items past takes pass) {item : Item} {index : Nat}
    (htakes : takes item = [index]) (hindex : index ∈ items)
    (hfresh : index ∉ past ++ pass.claims.flatMap takes) :
    PassTally items past takes (pass.claim item) := by
  have hnodup : ((past ++ pass.claims.flatMap takes) ++ [index]).Nodup := by
    rw [List.nodup_append_comm]
    exact List.nodup_cons.mpr ⟨hfresh, htally.tally.nodup⟩
  have hvalid : ∀ item ∈ [index], item ∈ items := by
    intro item hmem
    rw [List.mem_singleton.mp hmem]
    exact hindex
  have hroom : 1 ≤ pass.revoked.cnt.toNat := htally.tally.room hnodup hvalid
  have hcnt : (pass.revoked.cnt - 1).toNat = pass.revoked.cnt.toNat - 1 := by
    apply UInt16.toNat_sub_of_le
    rw [UInt16.le_iff_toNat_le]
    exact hroom
  have hnext := htally.tally.claim hnodup hvalid
  constructor
  · simp only [RevokedPass.claim, List.flatMap_append, List.flatMap_cons, List.flatMap_nil,
      List.append_nil, htakes, hcnt, ← List.append_assoc]
    exact hnext
  · simp only [RevokedPass.claim, beq_iff_eq, ← UInt16.toNat_inj, UInt16.toNat_zero]

theorem PassTally.setConfm (htally : PassTally items past takes pass) (confm : UInt32) :
    PassTally items past takes (pass.setConfm confm) :=
  ⟨htally.tally, htally.del⟩

/-- Transactions that take one new item each. -/
theorem PassTally.foldl_claim {found : List Item} :
    ∀ {pass : RevokedPass Item}, PassTally items past takes pass →
      (past ++ pass.claims.flatMap takes ++ found.flatMap takes).Nodup →
      (∀ item ∈ found, ∃ index ∈ items, takes item = [index]) →
      PassTally items past takes (found.foldl RevokedPass.claim pass) := by
  induction found with
  | nil => exact fun htally _ _ => htally
  | cons item rest ih =>
      intro pass htally hnodup hone
      obtain ⟨index, hindex, htakes⟩ := hone item List.mem_cons_self
      rw [List.flatMap_cons, htakes, ← List.append_assoc] at hnodup
      have hfresh : index ∉ past ++ pass.claims.flatMap takes := by
        intro hmem
        have hfront := (List.nodup_append.mp hnodup).1
        exact (List.nodup_append.mp hfront).2.2 index hmem index (List.mem_singleton_self _) rfl
      rw [List.foldl_cons]
      apply ih (htally.claim htakes hindex hfresh)
      · simpa only [RevokedPass.claim, List.flatMap_append, List.flatMap_cons, List.flatMap_nil,
          List.append_nil, htakes, List.append_assoc] using hnodup
      · exact fun item hmem => hone item (List.mem_cons_of_mem _ hmem)

theorem foldl_claim_claims {found : List Item} :
    ∀ pass : RevokedPass Item,
      (found.foldl RevokedPass.claim pass).claims = pass.claims ++ found := by
  induction found with
  | nil => exact fun pass => (List.append_nil _).symm
  | cons item rest ih =>
      intro pass
      rw [List.foldl_cons, ih, RevokedPass.claim, List.append_assoc]
      rfl

end Claims

/-! ### The first pass -/

section FirstPass

variable {broadcast : Nat → Nat → Bool} {confm : UInt32} {script : Bytes} {index : Nat}

theorem claimHtlc_none {wits : List Nat} {pass : RevokedPass Nat}
    (hnone : ∀ wit ∈ wits, pass.revoked.vout wit ≠ script) :
    wits.foldl (claimHtlc broadcast confm script index) pass = pass := by
  induction wits with
  | nil => rfl
  | cons wit rest ih =>
      have hne : ¬ (script = pass.revoked.vout wit ∧ broadcast index wit = true) := fun hmatch =>
        hnone wit List.mem_cons_self hmatch.1.symm
      rw [List.foldl_cons, claimHtlc, if_neg hne]
      exact ih fun wit hmem => hnone wit (List.mem_cons_of_mem _ hmem)

/-- A script that only one entry has is claimed at most once. -/
theorem claimHtlc_once {wits : List Nat} {pass : RevokedPass Nat} (hnodup : wits.Nodup)
    (hunique : ∀ wit ∈ wits, ∀ wit' ∈ wits, pass.revoked.vout wit = script →
      pass.revoked.vout wit' = script → wit = wit') :
    wits.foldl (claimHtlc broadcast confm script index) pass = pass ∨
      (wits.foldl (claimHtlc broadcast confm script index) pass =
          (pass.claim index).setConfm confm ∧
        ∃ wit ∈ wits, pass.revoked.vout wit = script) := by
  induction wits with
  | nil => exact .inl rfl
  | cons wit rest ih =>
      rw [List.foldl_cons]
      by_cases hmatch : script = pass.revoked.vout wit ∧ broadcast index wit = true
      · right
        rw [claimHtlc, if_pos hmatch, claimHtlc_none]
        · exact ⟨rfl, wit, List.mem_cons_self, hmatch.1.symm⟩
        · intro wit' hmem heq
          have hsame := hunique wit List.mem_cons_self wit' (List.mem_cons_of_mem _ hmem)
            hmatch.1.symm heq
          exact (List.nodup_cons.mp hnodup).1 (hsame ▸ hmem)
      · rw [claimHtlc, if_neg hmatch]
        rcases ih (List.nodup_cons.mp hnodup).2 fun wit hmem wit' hmem' =>
            hunique wit (List.mem_cons_of_mem _ hmem) wit' (List.mem_cons_of_mem _ hmem') with
          hsame | ⟨hclaimed, wit', hmem, heq⟩
        · exact .inl hsame
        · exact .inr ⟨hclaimed, wit', List.mem_cons_of_mem _ hmem, heq⟩

end FirstPass

namespace RevokedCommit

variable {commit : RevokedCommit crypto chan} {made : RevokedBuild}

/-- The outputs to be taken back. -/
def items (commit : RevokedCommit crypto chan) : Finset Nat :=
  (Finset.range commit.vout.length).filter fun index =>
    commit.vout[index]?.any fun out => out.opt != .toremote

theorem mem_items {index : Nat} : index ∈ commit.items ↔
    ∃ out, commit.vout[index]? = some out ∧ out.opt ≠ .toremote := by
  simp only [items, Finset.mem_filter, Finset.mem_range, Option.any_eq_true, bne_iff_ne]
  constructor
  · exact fun hboth => hboth.2
  · rintro ⟨out, hout, hopt⟩
    exact ⟨(List.getElem?_eq_some_iff.mp hout).1, out, hout, hopt⟩

theorem card_filter_index {α : Type} (holds : α → Bool) (items : List α) :
    ((Finset.range items.length).filter fun index => items[index]?.any holds).card =
      items.countP holds := by
  induction items using List.reverseRecOn with
  | nil => rfl
  | append_singleton front last ih =>
      have hfront : ((Finset.range front.length).filter fun index =>
          (front ++ [last])[index]?.any holds) =
            (Finset.range front.length).filter fun index => front[index]?.any holds := by
        apply Finset.filter_congr
        intro index hindex
        rw [List.getElem?_append_left (Finset.mem_range.mp hindex)]
      rw [List.length_append, List.length_singleton, Finset.range_add_one, Finset.filter_insert,
        List.getElem?_concat_length, hfront, List.countP_append, List.countP_singleton,
        Option.any_some]
      by_cases hlast : holds last = true
      · rw [if_pos hlast, if_pos hlast, Finset.card_insert_of_notMem, ih]
        simp
      · rw [if_neg hlast, if_neg hlast, ih, Nat.add_zero]

theorem card_items (hsizes : DigestSizes crypto) :
    commit.items.card = (revokedVouts commit.tx).length := by
  rw [items, card_filter_index, length_revokedVouts, scripts_eq, List.countP_map]
  apply List.countP_congr
  intro out hmem
  simp only [Function.comp_apply, bne_iff_ne, ne_eq, length_toremote hsizes hmem]

/-- Where HTLC scripts are distinct, so are those of the entries found. -/
theorem entries_inj (hsizes : DigestSizes crypto) (hsaved : commit.PhashSaved phashSearch)
    (hdistinct : commit.DistinctHtlcs) {pos pos' : Nat} {entry entry' : PhashEntry}
    (hpos : (foundEntries phashSearch commit.tolocal commit.scripts)[pos]? = some entry)
    (hpos' : (foundEntries phashSearch commit.tolocal commit.scripts)[pos']? = some entry')
    (hsame : (crypto.p2wsh (entry.script crypto commit.keys)).bytes =
      (crypto.p2wsh (entry'.script crypto commit.keys)).bytes) : pos = pos' := by
  have hnodup : ((foundEntries phashSearch commit.tolocal commit.scripts).map fun entry =>
      (crypto.p2wsh (entry.script crypto commit.keys)).bytes).Nodup := by
    rw [foundEntries, scripts_eq, List.Nodup, List.pairwise_map, List.pairwise_filterMap,
      List.pairwise_map, List.pairwise_iff_getElem]
    intro low high hlow hhigh hlt found hfound found' hfound' heq
    have hout := List.getElem?_eq_getElem hlow
    have hout' := List.getElem?_eq_getElem hhigh
    obtain ⟨-, info, hopt, hrebuilt⟩ :=
      htlc_of_found hsizes hsaved (List.getElem_mem hlow) hfound
    obtain ⟨-, info', hopt', hrebuilt'⟩ :=
      htlc_of_found hsizes hsaved (List.getElem_mem hhigh) hfound'
    rw [hrebuilt, hrebuilt'] at heq
    exact absurd (hdistinct low high _ _ info info' hout hout' hopt hopt' heq) (by omega)
  have hlt : pos < ((foundEntries phashSearch commit.tolocal commit.scripts).map fun entry =>
      (crypto.p2wsh (entry.script crypto commit.keys)).bytes).length := by
    rw [List.length_map]
    exact (List.getElem?_eq_some_iff.mp hpos).1
  apply (List.getElem?_inj hlt hnodup).mp
  rw [List.getElem?_map, List.getElem?_map, hpos, hpos', Option.map_some, Option.map_some, hsame]

/-- What the first pass does with an output. -/
theorem closeRevokedVout_cases (hsizes : DigestSizes crypto)
    (hsaved : commit.PhashSaved phashSearch) (hdistinct : commit.DistinctHtlcs)
    (hlooped : Looped crypto commit.keys phashSearch commit.tolocal commit.build.bufWs
      commit.scripts made)
    (hcollision : commit.NoCollision) {broadcast : Nat → Nat → Bool} {confm : UInt32}
    {pass : RevokedPass Nat} (hvout : pass.revoked.vout = made.revoked.vout) {index : Nat}
    {out : BtcVout} (hout : commit.vout[index]? = some out) :
    closeRevokedVout broadcast confm pass (out.script.bytes, index) = pass ∨
      (closeRevokedVout broadcast confm pass (out.script.bytes, index) =
          (pass.claim index).setConfm confm ∧ out.opt ≠ .toremote) := by
  have hmem := List.mem_of_getElem? hout
  simp only [closeRevokedVout]
  by_cases hlocal : out.script.bytes = pass.revoked.vout lnRcloseIdxTolocal
  · right
    rw [if_pos hlocal]
    refine ⟨rfl, ?_⟩
    intro hopt
    have hlength := (length_toremote hsizes hmem).mpr hopt
    rw [hlocal, hvout] at hlength
    have hfirst : made.revoked.vout lnRcloseIdxTolocal = commit.tolocal := hlooped.first.1
    rw [hfirst] at hlength
    simp [tolocal, ScriptPk.bytes, Crypto.p2wsh, hsizes.sha256, btcSzWitprogP2wpkh] at hlength
  · rw [if_neg hlocal]
    by_cases hremote : out.script.bytes = pass.revoked.vout lnRcloseIdxToremote
    · exact .inl (if_pos hremote)
    · rw [if_neg hremote]
      rcases commit.vout_cases hmem with ⟨hopt, -⟩ | ⟨-, hscript⟩ | ⟨info, hopt, -⟩
      · left
        apply claimHtlc_none
        intro wit hwit heq
        obtain ⟨pos, rfl⟩ := Nat.exists_eq_add_of_le (List.mem_range'_1.mp hwit).1
        have hlength := (length_toremote hsizes hmem).mpr hopt
        rw [← heq, hvout, lnRcloseIdxHtlc] at hlength
        by_cases hlt : pos < (foundEntries phashSearch commit.tolocal commit.scripts).length
        · rw [(hlooped.entries pos _ (List.getElem?_eq_getElem hlt)).1] at hlength
          simp [ScriptPk.bytes, Crypto.p2wsh, hsizes.sha256, btcSzWitprogP2wpkh] at hlength
        · rw [hlooped.beyond pos (Nat.le_of_not_lt hlt)] at hlength
          cases hlength
      · rw [hvout] at hlocal
        exact absurd ((congrArg ScriptPk.bytes hscript).trans hlooped.first.1.symm) hlocal
      · have hunique : ∀ wit wit' : Nat, pass.revoked.vout wit = out.script.bytes →
            pass.revoked.vout wit' = out.script.bytes → wit = wit' := by
          intro wit wit' heq heq'
          rw [hvout] at heq heq'
          obtain ⟨pos, entry, rfl, hpos⟩ := entry_at hsizes hlooped hcollision hmem hopt heq
          obtain ⟨pos', entry', rfl, hpos'⟩ := entry_at hsizes hlooped hcollision hmem hopt heq'
          rw [(hlooped.entries pos entry hpos).1] at heq
          rw [(hlooped.entries pos' entry' hpos').1] at heq'
          rw [entries_inj hsizes hsaved hdistinct hpos hpos' (heq.trans heq'.symm)]
        rcases claimHtlc_once (List.nodup_range' ..)
            fun wit _ wit' _ => hunique wit wit' with hsame | ⟨hclaimed, -⟩
        · exact .inl hsame
        · refine .inr ⟨hclaimed, ?_⟩
          intro hremote
          cases hopt.symm.trans hremote

theorem closeRevokedFirst_tally (hsizes : DigestSizes crypto)
    (hsaved : commit.PhashSaved phashSearch) (hdistinct : commit.DistinctHtlcs)
    (hlooped : Looped crypto commit.keys phashSearch commit.tolocal commit.build.bufWs
      commit.scripts made)
    (hcollision : commit.NoCollision) (broadcast : Nat → Nat → Bool) (confm : UInt32)
    (suffix : List BtcVout) :
    ∀ (start : Nat) (pass : RevokedPass Nat),
      (∀ pos out, suffix[pos]? = some out → commit.vout[start + pos]? = some out) →
      pass.revoked.vout = made.revoked.vout → (∀ index ∈ pass.claims, index < start) →
      PassTally commit.items [] (fun index => [index]) pass →
      PassTally commit.items [] (fun index => [index])
        (((suffix.map fun out => out.script.bytes).zipIdx start).foldl
          (closeRevokedVout broadcast confm) pass) := by
  induction suffix with
  | nil => exact fun _ _ _ _ _ htally => htally
  | cons out rest ih =>
      intro start pass hsuffix hvout hbelow htally
      have hout : commit.vout[start]? = some out := hsuffix 0 out rfl
      have hrest : ∀ pos out', rest[pos]? = some out' →
          commit.vout[start + 1 + pos]? = some out' := by
        intro pos out' hget
        rw [Nat.add_assoc, Nat.add_comm 1]
        exact hsuffix (pos + 1) out' hget
      have hearlier : ∀ index ∈ pass.claims, index < start + 1 := fun index hmem =>
        Nat.lt_succ_of_lt (hbelow index hmem)
      rw [List.map_cons, List.zipIdx_cons, List.foldl_cons]
      rcases closeRevokedVout_cases hsizes hsaved hdistinct hlooped hcollision hvout hout with
        hsame | ⟨hclaimed, hopt⟩
      · rw [hsame]
        exact ih _ _ hrest hvout hearlier htally
      · rw [hclaimed]
        apply ih _ _ hrest
        · exact hvout
        · intro index hmem
          rcases List.mem_append.mp hmem with hold | hnew
          · exact hearlier index hold
          · rw [List.mem_singleton.mp hnew]
            exact Nat.lt_succ_self start
        · refine (htally.claim rfl (mem_items.mpr ⟨out, hout, hopt⟩) ?_).setConfm confm
          simp only [List.nil_append, List.flatMap_singleton']
          exact fun hmem => absurd (hbelow start hmem) (lt_irrefl start)

/-! ### Runs of passes -/

/-- What every orderly run keeps: until the first pass the state is that of
`ln_close_remoterevoked`, from then on the counter is that of the outputs not yet claimed. -/
structure Recovering (commit : RevokedCommit crypto chan)
    (phashSearch : Bytes → Option PhashEntry) (state : RecoveryState) : Prop where
  underflow : state.underflow = false
  fresh : state.started = false → (commit.recoverySystem phashSearch).start state
  tally : state.started = true →
    Tallied commit.items state.claimed state.revoked.cnt.toNat ∧
      (state.deletable = true ↔ state.revoked.cnt.toNat = 0)

theorem length_flatMap_takes {Item : Type} {takes : Item → List Nat} {found : List Item}
    (hone : ∀ item ∈ found, ∃ index, takes item = [index]) :
    (found.flatMap takes).length = found.length := by
  induction found with
  | nil => rfl
  | cons item rest ih =>
      obtain ⟨index, htakes⟩ := hone item List.mem_cons_self
      rw [List.flatMap_cons, htakes, List.length_append, List.length_singleton,
        ih fun item hmem => hone item (List.mem_cons_of_mem _ hmem), List.length_cons,
        Nat.add_comm]

/-- A pass whose claims tally keeps the invariant. -/
theorem recovering_passed {Item : Type} {takes : Item → List Nat} {pass : RevokedPass Item}
    {state : RecoveryState} (hunderflow : state.underflow = false)
    (hbefore : Tallied commit.items state.claimed state.revoked.cnt.toNat)
    (hpass : PassTally commit.items state.claimed takes pass)
    (hone : ∀ item ∈ pass.claims, ∃ index, takes item = [index]) :
    Recovering commit phashSearch (state.passed pass (pass.claims.flatMap takes)) := by
  have hlength := length_flatMap_takes hone
  have hcount := hpass.tally.count
  rw [List.length_append, hlength] at hcount
  constructor
  · have hroom : ¬ state.revoked.cnt.toNat < pass.claims.length := by
      have hcount' := hbefore.count
      omega
    rw [RecoveryState.passed, hunderflow, decide_eq_false hroom]
    rfl
  · intro hstarted
    cases hstarted
  · exact fun _ => ⟨hpass.tally, hpass.del⟩

theorem recovering_first (hsizes : DigestSizes crypto) (hsaved : commit.PhashSaved phashSearch)
    (hcollision : commit.NoCollision) {state after : RecoveryState} {confm : UInt32}
    {broadcast : Nat → Nat → Bool} (hinv : Recovering commit phashSearch state)
    (horderly : commit.Orderly phashSearch state (.first confm broadcast))
    (hnext : recoveryNext (crypto.txid commit.tx) commit.tx state (.first confm broadcast) =
      some after) : Recovering commit phashSearch after := by
  obtain ⟨hlocal, -, hdistinct⟩ := horderly
  by_cases hstarted : state.started = true
  · simp [recoveryNext, hstarted] at hnext
  · obtain ⟨_, made, hmade, rfl⟩ := hinv.fresh (Bool.not_eq_true _ ▸ hstarted)
    obtain ⟨_, made', hmade', hlooped, hcnt, -⟩ :=
      commit.closeRemoterevoked_eq phashSearch
    obtain rfl : made = made' := by
      have hsame := Option.some.inj (hmade.symm.trans hmade')
      exact congrArg Prod.snd hsame
    have hle := length_revokedVouts_le commit
    have hnat : made.revoked.cnt.toNat = commit.items.card := by
      rw [hcnt, card_items hsizes]
      simp only [Nat.toUInt16, UInt16.toNat_ofNat']
      omega
    have hpos : 0 < made.revoked.cnt.toNat := by
      rw [hnat, card_items hsizes]
      exact Nat.zero_lt_of_lt (found_lt_of_tolocal hsizes phashSearch hlocal)
    have hgt : made.revoked.cnt > 0 := by
      rw [gt_iff_lt, UInt16.lt_iff_toNat_lt]
      exact hpos
    have hstart : Tallied commit.items [] made.revoked.cnt.toNat := .start hnat
    have hbegin : PassTally commit.items [] (fun index => [index])
        ({ revoked := made.revoked } : RevokedPass Nat) := by
      constructor
      · exact hstart
      · simp only [Bool.false_eq_true, false_iff]
        omega
    have htally := closeRevokedFirst_tally hsizes hsaved hdistinct hlooped hcollision
      broadcast confm commit.vout 0 { revoked := made.revoked }
      (fun pos out hout => by rwa [Nat.zero_add]) rfl (fun index hmem => nomatch hmem) hbegin
    rw [← scripts_eq] at htally
    simp only [recoveryNext, Bool.false_eq_true, if_false, if_pos hgt, Option.some.injEq] at hnext
    subst hnext
    have hclaims : (closeRevokedFirst broadcast confm made.revoked commit.tx).claims =
        (closeRevokedFirst broadcast confm made.revoked commit.tx).claims.flatMap
          fun index => [index] := (List.flatMap_singleton' _).symm
    rw [hclaims]
    exact recovering_passed rfl hstart htally fun index _ => ⟨index, rfl⟩

theorem recovering_after {state after : RecoveryState} {confm : UInt32} {chain : Chain}
    (hinv : Recovering commit phashSearch state)
    (horderly : commit.Orderly phashSearch state (.after confm chain))
    (hnext : recoveryNext (crypto.txid commit.tx) commit.tx state (.after confm chain) =
      some after) : Recovering commit phashSearch after := by
  obtain ⟨hnodup, hone⟩ := horderly
  by_cases henabled : (state.started && !state.deletable) = true
  · simp only [recoveryNext, if_pos henabled, Option.some.injEq] at hnext
    subst hnext
    rw [Bool.and_eq_true, Bool.not_eq_true'] at henabled
    obtain ⟨hbefore, hdel⟩ := hinv.tally henabled.1
    have hpos : state.revoked.cnt.toNat ≠ 0 := fun hzero => by
      rw [hdel.mpr hzero] at henabled
      cases henabled.2
    have hfirst : PassTally commit.items state.claimed (ChainTx.takes (crypto.txid commit.tx))
        ({ revoked := state.revoked } : RevokedPass ChainTx) := by
      constructor
      · simpa using hbefore
      · simpa using hpos
    have hitems : ∀ tx ∈ (closeRevokedAfter chain confm state.revoked).claims,
        ∃ index ∈ commit.items, ChainTx.takes (crypto.txid commit.tx) tx = [index] := by
      intro tx hmem
      obtain ⟨index, out, info, htakes, hout, hopt⟩ := hone tx hmem
      refine ⟨index, mem_items.mpr ⟨out, hout, ?_⟩, htakes⟩
      rw [hopt]
      exact nofun
    apply recovering_passed hinv.underflow hbefore
    · unfold closeRevokedAfter at hnodup hitems ⊢
      by_cases hsame : confm = state.revoked.chk
      · rw [if_pos hsame]
        exact hfirst
      · simp only [if_neg hsame, RevokedPass.setConfm, foldl_claim_claims,
          List.nil_append] at hnodup hitems
        rw [if_neg hsame]
        refine PassTally.setConfm (hfirst.foldl_claim ?_ hitems) confm
        simpa using hnodup
    · exact fun tx hmem => (hitems tx hmem).imp fun index hboth => hboth.2
  · simp [recoveryNext, henabled] at hnext

theorem accounted_of_recovering {state : RecoveryState}
    (hinv : Recovering commit phashSearch state) : commit.Accounted state := by
  refine ⟨hinv.underflow, fun hstarted => ?_⟩
  obtain ⟨htally, hdel⟩ := hinv.tally hstarted
  rw [hdel, htally.left_eq_zero_iff]
  constructor
  · exact fun hall index out hout hopt => hall index (mem_items.mpr ⟨out, hout, hopt⟩)
  · intro hall index hmem
    obtain ⟨out, hout, hopt⟩ := mem_items.mp hmem
    exact hall index out hout hopt

/-- The arrays are filled rightly, within bounds, exactly for a transaction that pays the peer
itself and whose HTLCs the phash database knows; and in every orderly run of passes the counter
and the report agree with what has been claimed. -/
theorem recovery_of_orderly (commit : RevokedCommit crypto chan) (hsizes : DigestSizes crypto)
    (hsaved : commit.PhashSaved phashSearch) (hcollision : commit.NoCollision) :
    (∃ after made,
      lnCloseRemoterevoked crypto phashSearch chan commit.tx = some (after, made) ∧
        (commit.Stored made ↔ commit.HasToLocal ∧ commit.PhashKept phashSearch)) ∧
      ∀ state, (commit.recoverySystem phashSearch).ReachableUnder
        (commit.Orderly phashSearch) state → commit.Accounted state := by
  constructor
  · obtain ⟨after, made, hmade, hlooped, -, hnum, hsec, -⟩ :=
      commit.closeRemoterevoked_eq phashSearch
    exact ⟨after, made, hmade, stored_iff hsizes hsaved hcollision hlooped hnum hsec⟩
  · intro state hreach
    have hinv : Recovering commit phashSearch state := by
      refine hreach.invariant (Recovering commit phashSearch) ?_ ?_
      · rintro start ⟨after, made, hmade, rfl⟩
        exact ⟨rfl, fun _ => ⟨after, made, hmade, rfl⟩, fun hstarted => nomatch hstarted⟩
      · intro before label after hbefore horderly hnext
        cases label with
        | first confm broadcast =>
            exact recovering_first hsizes hsaved hcollision hbefore horderly hnext
        | after confm chain => exact recovering_after hbefore horderly hnext
    exact accounted_of_recovering hinv

end RevokedCommit

/-! ### Two revoked transactions -/

/-- A digest of the given length. -/
def digest (count : Nat) (bytes : Bytes) : Bytes :=
  bytes.zipIdx.foldl
    (fun acc next => acc.modify (next.2 % count) fun byte => byte * 31 + next.1)
    (List.replicate count 0)

/-- Symbols with digests of the real lengths. -/
def Crypto.digested : Crypto :=
  { Crypto.symbolic with
    sha256 := digest 32
    hash160 := digest 20 }

theorem digest_length (count : Nat) (bytes : Bytes) : (digest count bytes).length = count := by
  have hfold : ∀ (rest : List (UInt8 × Nat)) (acc : Bytes), (rest.foldl
      (fun acc next => acc.modify (next.2 % count) fun byte => byte * 31 + next.1) acc).length =
        acc.length := by
    intro rest
    induction rest with
    | nil => exact fun acc => rfl
    | cons next rest ih =>
        intro acc
        rw [List.foldl_cons, ih, List.length_modify]
  rw [digest, hfold, List.length_replicate]

theorem digestSizes_digested : DigestSizes Crypto.digested :=
  ⟨digest_length 32, digest_length 20⟩

/-- A channel that has received the secret of the first commitment of the peer, which holds
the given balances and an HTLC of 100000 sat. -/
def revokedChannel (ourMsat theirMsat : UInt64) : LnSelf where
  peerStorage := Function.update lnDerkeyStorageInit 0 ⟨[9], lnSecindexInit⟩
  fundingLocal := { pubkeys := symbolicKeys 1 }
  fundingRemote := { pubkeys := { symbolicKeys 2 with perCommit := [9] } }
  feeratePerKw := 1000
  ourMsat
  theirMsat
  cnlAddHtlc := fun idx =>
    if idx = 0 then
      { amountMsat := 100000000
        paymentSha256 := [7]
        flag := { addhtlc := .offer, updsend := true } }
    else {}

/-- That commitment. -/
def firstRevoked (ourMsat theirMsat : UInt64)
    (hvalid : (buildToRemote .digested
      (LnSelf.updateScriptkeys .digested (revokedChannel ourMsat theirMsat))
      0 1000).committx.tx.isValid
        = true) : RevokedCommit .digested (revokedChannel ourMsat theirMsat) where
  signer := LnSelf.updateScriptkeys .digested (revokedChannel ourMsat theirMsat)
  commitNum := 0
  dustLimitSat := 1000
  secret := [9]
  commitNum_lt := by decide
  obscured_lt := by
    simp only [revokedChannel]
    decide
  received := by
    have hreceived : lnDerkeyStorageGetSecret .digested
        (Function.update lnDerkeyStorageInit 0 ⟨[9], lnSecindexInit⟩) (lnSecindexInit - 0) =
          some [9] := by
      decide +kernel
    exact hreceived
  obscured := rfl
  toSelfDelay := rfl
  ownKeys := rfl
  peerKeys := rfl
  derived := rfl
  valid := hvalid

/-- The phash database with the HTLC of that channel. -/
def revokedPhash (ourMsat theirMsat : UInt64) (script : Bytes) : Option PhashEntry :=
  let keys := (LnSelf.updateScriptkeys .digested
    (revokedChannel ourMsat theirMsat)).fundingRemote.scriptpubkeys
  let entry : PhashEntry := ⟨[7], .received, 0⟩
  if script = (Crypto.digested.p2wsh (entry.script .digested keys)).bytes then some entry
  else none

def BtcVout.isHtlc (out : BtcVout) : Bool :=
  match out.opt with
  | .htlc _ => true
  | .tolocal => false
  | .toremote => false

theorem BtcVout.isHtlc_of_opt {out : BtcVout} {info : LnScriptHtlcinfo}
    (hopt : out.opt = .htlc info) : out.isHtlc = true := by
  rw [isHtlc, hopt]

/-- What is checked of an HTLC output. -/
def checkHtlc (crypto : Crypto) (keys : Scriptkeys) (bufWs : Bytes)
    (phashSearch : Bytes → Option PhashEntry) (out : BtcVout) : Bool :=
  match out.opt with
  | .htlc info =>
      (phashSearch out.script.bytes).any (fun entry => entry.type == info.type &&
          entry.script crypto keys == info.script) &&
        crypto.sha256 info.script != crypto.sha256 bufWs
  | .tolocal => true
  | .toremote => true

theorem checkHtlc_spec {commit : RevokedCommit crypto chan}
    (hcheck : commit.vout.all (checkHtlc crypto commit.keys commit.build.bufWs phashSearch) =
      true) :
    commit.PhashSaved phashSearch ∧ commit.PhashKept phashSearch ∧ commit.NoCollision := by
  have hhtlc : ∀ out ∈ commit.vout, ∀ info, out.opt = .htlc info →
      (∃ entry, phashSearch out.script.bytes = some entry ∧ entry.type = info.type ∧
        entry.script crypto commit.keys = info.script) ∧
        crypto.sha256 info.script ≠ crypto.sha256 commit.build.bufWs := by
    intro out hmem info hopt
    have hone := List.all_eq_true.mp hcheck out hmem
    simp only [checkHtlc, hopt, Bool.and_eq_true, Option.any_eq_true, beq_iff_eq,
      bne_iff_ne] at hone
    obtain ⟨⟨entry, hsearch, htype, hscript⟩, hne⟩ := hone
    exact ⟨⟨entry, hsearch, htype, hscript⟩, hne⟩
  refine ⟨?_, ?_, ?_⟩
  · intro out hmem info hopt entry hsearch
    obtain ⟨⟨entry', hsearch', hboth⟩, -⟩ := hhtlc out hmem info hopt
    obtain rfl := Option.some.inj (hsearch.symm.trans hsearch')
    exact hboth
  · intro out hmem info hopt
    obtain ⟨⟨entry, hsearch, -⟩, -⟩ := hhtlc out hmem info hopt
    rw [hsearch]
    rfl
  · intro out hmem info hopt hsame
    exact absurd hsame (hhtlc out hmem info hopt).2

/-- A revoked transaction with all three kinds of outputs. -/
def threeOutputs : RevokedCommit .digested (revokedChannel 500000000 400000000) :=
  firstRevoked 500000000 400000000 (by decide +kernel)

/-- The HTLC transaction of the peer, which pays to the script of `to_local`. -/
def peerTakesHtlc : Chain where
  height := some 100
  block _ :=
    [{ vin := [{ txid := Crypto.digested.txid threeOutputs.tx, index := 0, witness := [] }]
       vout := [(99000, (Crypto.digested.p2wsh threeOutputs.build.bufWs).bytes)] }]

/-- What a later pass finds takes the given HTLC output, which has not been claimed. -/
theorem orderly_after {commit : RevokedCommit crypto chan} {state : RecoveryState}
    {confm : UInt32} {chain : Chain} {index : Nat} {out : BtcVout}
    (hout : commit.vout[index]? = some out) (hhtlc : out.isHtlc = true)
    (hfound : ((closeRevokedAfter chain confm state.revoked).claims.map
      (ChainTx.takes (crypto.txid commit.tx))) = [[index]])
    (hfresh : (state.claimed ++ [index]).Nodup) :
    commit.Orderly phashSearch state (.after confm chain) := by
  constructor
  · rw [List.flatMap_def, hfound]
    exact hfresh
  · intro tx hmem
    have htakes : ChainTx.takes (crypto.txid commit.tx) tx ∈ [[index]] :=
      hfound ▸ List.mem_map_of_mem hmem
    rw [BtcVout.isHtlc] at hhtlc
    split at hhtlc
    · rename_i info hopt
      exact ⟨index, out, info, List.mem_singleton.mp htakes, hout, hopt⟩
    · cases hhtlc
    · cases hhtlc

/-- The first pass takes `to_local` and comes too late for the HTLC, the second one finds the
transaction of the peer and takes its output. -/
theorem recovery_twoPasses :
    ∃ (first second : RecoveryState),
      (threeOutputs.recoverySystem (revokedPhash 500000000 400000000)).Reachable first ∧
        first.revoked.cnt = 1 ∧ first.deletable = false ∧ threeOutputs.Accounted first ∧
        (threeOutputs.recoverySystem (revokedPhash 500000000 400000000)).next first
          (.after 6 peerTakesHtlc) = some second ∧
        second.deletable = true ∧ threeOutputs.Accounted second := by
  have hcheck : threeOutputs.vout.all (checkHtlc .digested threeOutputs.keys
          threeOutputs.build.bufWs (revokedPhash 500000000 400000000)) = true ∧
      (∃ out ∈ threeOutputs.vout, out.opt = .tolocal) ∧
      (threeOutputs.vout.zipIdx.all fun out => out.1.isHtlc == decide (out.2 = 0)) = true ∧
      (threeOutputs.vout[0]?.any BtcVout.isHtlc) = true ∧
      ((lnCloseRemoterevoked .digested (revokedPhash 500000000 400000000)
        (revokedChannel 500000000 400000000) threeOutputs.tx).any fun out =>
          (recoveryNext (Crypto.digested.txid threeOutputs.tx) threeOutputs.tx
            { revoked := out.2.revoked } (.first 5 fun _ _ => false)).any fun first =>
              (first.revoked.cnt == 1) && !first.deletable &&
              ((closeRevokedAfter peerTakesHtlc 6 first.revoked).claims.map
                (ChainTx.takes (Crypto.digested.txid threeOutputs.tx)) == [[0]]) &&
              decide (first.claimed ++ [0]).Nodup &&
              (recoveryNext (Crypto.digested.txid threeOutputs.tx) threeOutputs.tx first
                (.after 6 peerTakesHtlc)).any fun second => second.deletable) = true := by
    decide +kernel
  obtain ⟨hhtlcs, hlocal, honly, hzero, hpass⟩ := hcheck
  obtain ⟨hsaved, hkept, hcollision⟩ := checkHtlc_spec hhtlcs
  have hdistinct : threeOutputs.DistinctHtlcs := by
    have hzero : ∀ (index : Nat) (out : BtcVout) (info : LnScriptHtlcinfo),
        threeOutputs.vout[index]? = some out → out.opt = .htlc info → index = 0 := by
      intro index out info hout hopt
      have hmem : (out, index) ∈ threeOutputs.vout.zipIdx :=
        List.mem_zipIdx_iff_getElem?.mpr hout
      have hone := List.all_eq_true.mp honly _ hmem
      rw [BtcVout.isHtlc_of_opt hopt, beq_iff_eq] at hone
      exact of_decide_eq_true hone.symm
    intro index other out out' info info' hout hout' hopt hopt' _
    rw [hzero index out info hout hopt, hzero other out' info' hout' hopt']
  obtain ⟨⟨self, made⟩, hmade, hany⟩ := (Option.any_eq_true _ _).mp hpass
  obtain ⟨first, hnext, hchecked⟩ := (Option.any_eq_true _ _).mp hany
  simp only [Bool.and_eq_true, Bool.not_eq_true', beq_iff_eq, decide_eq_true_eq] at hchecked
  obtain ⟨⟨⟨⟨hcnt, hleft⟩, hfound⟩, hfresh⟩, hagain⟩ := hchecked
  obtain ⟨second, hthen, hdel⟩ := (Option.any_eq_true _ _).mp hagain
  obtain ⟨out, hout, hhtlc⟩ := (Option.any_eq_true _ _).mp hzero
  have horderly : threeOutputs.Orderly (revokedPhash 500000000 400000000)
      { revoked := made.revoked } (.first 5 fun _ _ => false) :=
    ⟨hlocal, hkept, hdistinct⟩
  have hreach : (threeOutputs.recoverySystem
      (revokedPhash 500000000 400000000)).ReachableUnder
        (threeOutputs.Orderly (revokedPhash 500000000 400000000)) first :=
    ⟨_, ⟨self, made, hmade, rfl⟩, .single horderly hnext⟩
  obtain ⟨-, haccounted⟩ := RevokedCommit.recovery_of_orderly threeOutputs digestSizes_digested
    hsaved hcollision
  exact ⟨first, second, hreach.reachable, hcnt, hleft, haccounted first hreach, hthen, hdel,
    haccounted second (hreach.step (orderly_after hout hhtlc hfound hfresh) hthen)⟩

/-- A revoked transaction that pays nothing to the peer itself. -/
def noToLocal : RevokedCommit .digested (revokedChannel 900000000 0) :=
  firstRevoked 900000000 0 (by decide +kernel)

/-- The entry of its HTLC is written behind the end of the arrays. -/
theorem outOfBounds_noToLocal :
    ¬ ∀ (crypto : Crypto) (chan : LnSelf) (commit : RevokedCommit crypto chan)
        (phashSearch : Bytes → Option PhashEntry) (self : LnSelf) (made : RevokedBuild),
      DigestSizes crypto → commit.PhashSaved phashSearch → commit.NoCollision →
        commit.PhashKept phashSearch →
          lnCloseRemoterevoked crypto phashSearch chan commit.tx = some (self, made) →
            ∀ index ∈ made.writes, index < made.revoked.num.toNat := by
  intro hall
  have hcheck : noToLocal.vout.all (checkHtlc .digested noToLocal.keys noToLocal.build.bufWs
          (revokedPhash 900000000 0)) = true ∧
      ((lnCloseRemoterevoked .digested (revokedPhash 900000000 0)
        (revokedChannel 900000000 0) noToLocal.tx).any fun out =>
          decide (out.2.revoked.num = 2 ∧ 2 ∈ out.2.writes)) = true := by
    decide +kernel
  obtain ⟨hhtlcs, hpass⟩ := hcheck
  obtain ⟨hsaved, hkept, hcollision⟩ := checkHtlc_spec hhtlcs
  obtain ⟨⟨self, made⟩, hmade, hany⟩ := (Option.any_eq_true _ _).mp hpass
  obtain ⟨hnum, hwrite⟩ := of_decide_eq_true hany
  have hbound := hall _ _ noToLocal _ self made digestSizes_digested hsaved hcollision hkept
    hmade 2 hwrite
  rw [hnum] at hbound
  exact absurd hbound (by decide)

end Ptarmigan
