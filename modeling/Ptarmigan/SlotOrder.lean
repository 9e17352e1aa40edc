/-
The slots of a channel in another order: what `create_to_local` and `create_to_remote` build for
the same HTLCs at other places.
-/
import Mathlib.Data.List.FinRange
import Mathlib.Data.List.Lex
import Ptarmigan.ChannelRun
import Ptarmigan.ClosingTx

namespace Ptarmigan

variable {crypto : Crypto} {slots slots' : Slots}

/-! ### The same HTLCs at other places -/

/-- Two slots hold the same HTLC, or none. -/
structure Alike (htlc htlc' : LnUpdateAddHtlc) : Prop where
  enable : htlc.enable = htlc'.enable
  flag : htlc.enable = true → htlc.flag = htlc'.flag
  amountMsat : htlc.enable = true → htlc.amountMsat = htlc'.amountMsat
  cltvExpiry : htlc.enable = true → htlc.cltvExpiry = htlc'.cltvExpiry
  paymentSha256 : htlc.enable = true → htlc.paymentSha256 = htlc'.paymentSha256

/-- The same HTLCs in any slots. -/
def Arranged (slots slots' : Slots) : Prop :=
  ∃ place : Equiv.Perm HtlcIdx, ∀ idx, Alike (slots idx) (slots' (place idx))

/-- What does not depend on the slot. -/
def LnScriptHtlcinfo.view (info : LnScriptHtlcinfo) : LnScriptHtlcinfo :=
  { info with addHtlcIdx := 0 }

namespace HtlcSelect

variable (select : HtlcSelect)

/-- How a slot that becomes an output is collected. -/
def infoOf (htlc : LnUpdateAddHtlc) (idx : HtlcIdx) : LnScriptHtlcinfo where
  type := if htlc.flag.addhtlc = .recv then select.recvType else select.offerType
  addHtlcIdx := idx
  expiry := htlc.cltvExpiry
  amountMsat := htlc.amountMsat
  preimageHash := htlc.paymentSha256

/-- The balances behind one slot. -/
def balances (htlc : LnUpdateAddHtlc) (acc : UInt64 × UInt64) : UInt64 × UInt64 :=
  if htlc.enable then
    let took := select.takeRecv htlc (select.takeOffer htlc ⟨[], acc.1, acc.2⟩)
    (took.selfMsat, took.peerMsat)
  else acc

theorem addSlot_eq (acc : HtlcinfoAmount) (idx : HtlcIdx) :
    select.addSlot slots acc idx =
      ⟨acc.htlcinfo ++ (if select.adds (slots idx) then [select.infoOf (slots idx) idx] else []),
        (select.balances (slots idx) (acc.selfMsat, acc.peerMsat)).1,
        (select.balances (slots idx) (acc.selfMsat, acc.peerMsat)).2⟩ := by
  rw [addSlot, adds, balances]
  by_cases henable : (slots idx).enable = true
  · by_cases hadds :
        (select.addOffer (slots idx).flag || select.addRecv (slots idx).flag) = true
    · simp only [hadds, henable, Bool.and_self, if_true, takeRecv, takeOffer,
        infoOf]
      split_ifs <;> rfl
    · simp only [Bool.eq_false_iff.mpr hadds, henable, Bool.and_false,
        Bool.false_eq_true, if_false, takeRecv, takeOffer, List.append_nil]
      split_ifs <;> rfl
  · simp only [Bool.eq_false_iff.mpr henable, Bool.false_and, Bool.false_eq_true,
      if_false, List.append_nil]

theorem foldl_addSlot (idxs : List HtlcIdx) (acc : HtlcinfoAmount) :
    idxs.foldl (select.addSlot slots) acc =
      ⟨acc.htlcinfo ++ (idxs.filter fun idx => select.adds (slots idx)).map
          fun idx => select.infoOf (slots idx) idx,
        ((idxs.map slots).foldl (fun acc htlc => select.balances htlc acc)
          (acc.selfMsat, acc.peerMsat)).1,
        ((idxs.map slots).foldl (fun acc htlc => select.balances htlc acc)
          (acc.selfMsat, acc.peerMsat)).2⟩ := by
  induction idxs generalizing acc with
  | nil => simp
  | cons idx rest ih =>
      rw [List.foldl_cons, ih, addSlot_eq, List.map_cons, List.foldl_cons, List.filter_cons]
      by_cases hadds : select.adds (slots idx) = true
      · simp [hadds]
      · simp [hadds]

/-- The slots that become outputs, and the balances behind all slots. -/
theorem htlcinfoAmount_eq (slots : Slots) (selfMsat peerMsat : UInt64) :
    select.htlcinfoAmount slots selfMsat peerMsat =
      ⟨((List.finRange lnHtlcMax).filter fun idx => select.adds (slots idx)).map
          fun idx => select.infoOf (slots idx) idx,
        (((List.finRange lnHtlcMax).map slots).foldl (fun acc htlc => select.balances htlc acc)
          (selfMsat, peerMsat)).1,
        (((List.finRange lnHtlcMax).map slots).foldl (fun acc htlc => select.balances htlc acc)
          (selfMsat, peerMsat)).2⟩ := by
  rw [htlcinfoAmount, foldl_addSlot, List.nil_append]

/-- A slot changes the balances by the same amounts whatever they are. -/
theorem balances_eq (htlc : LnUpdateAddHtlc) (acc : UInt64 × UInt64) :
    select.balances htlc acc =
      (acc.1 + (select.balances htlc (0, 0)).1, acc.2 + (select.balances htlc (0, 0)).2) := by
  have hzero : ∀ value : UInt64, value + 0 = value := by grind
  obtain ⟨selfMsat, peerMsat⟩ := acc
  simp only [balances, takeRecv, takeOffer]
  split_ifs <;> simp only [Prod.mk.injEq, hzero] <;> grind

/-- Slots can be taken in any order. -/
theorem balances_comm (acc : UInt64 × UInt64) (htlc htlc' : LnUpdateAddHtlc) :
    select.balances htlc' (select.balances htlc acc) =
      select.balances htlc (select.balances htlc' acc) := by
  have hswap : ∀ value add add' : UInt64, value + add + add' = value + add' + add := by grind
  rw [select.balances_eq htlc' (select.balances htlc acc), select.balances_eq htlc acc,
    select.balances_eq htlc (select.balances htlc' acc), select.balances_eq htlc' acc]
  exact Prod.ext (hswap _ _ _) (hswap _ _ _)

end HtlcSelect

theorem Alike.adds (select : HtlcSelect) {htlc htlc' : LnUpdateAddHtlc}
    (halike : Alike htlc htlc') :
    select.adds htlc = select.adds htlc' := by
  rw [HtlcSelect.adds, HtlcSelect.adds, ← halike.enable]
  by_cases henable : htlc.enable = true
  · rw [halike.flag henable]
  · rw [Bool.eq_false_iff.mpr henable, Bool.false_and, Bool.false_and]

theorem Alike.balances (select : HtlcSelect) {htlc htlc' : LnUpdateAddHtlc}
    (halike : Alike htlc htlc') (acc : UInt64 × UInt64) :
    select.balances htlc acc = select.balances htlc' acc := by
  rw [HtlcSelect.balances, HtlcSelect.balances, ← halike.enable]
  by_cases henable : htlc.enable = true
  · simp only [henable, if_true, HtlcSelect.takeRecv, HtlcSelect.takeOffer, halike.flag henable,
      halike.amountMsat henable]
  · rw [if_neg henable, if_neg henable]

theorem Alike.view (select : HtlcSelect) {htlc htlc' : LnUpdateAddHtlc} (halike : Alike htlc htlc')
    (hadds : select.adds htlc = true) (idx idx' : HtlcIdx) :
    (select.infoOf htlc idx).view = (select.infoOf htlc' idx').view := by
  have henable : htlc.enable = true := (Bool.and_eq_true_iff.mp hadds).1
  simp only [HtlcSelect.infoOf, LnScriptHtlcinfo.view, halike.flag henable,
    halike.amountMsat henable, halike.cltvExpiry henable, halike.paymentSha256 henable]

/-- Other places leave the collected HTLCs and the balances, but for the order. -/
theorem htlcinfoAmount_arranged (select : HtlcSelect) (harranged : Arranged slots slots')
    (selfMsat peerMsat : UInt64) :
    let amount := select.htlcinfoAmount slots selfMsat peerMsat
    let amount' := select.htlcinfoAmount slots' selfMsat peerMsat
    (amount.htlcinfo.map LnScriptHtlcinfo.view).Perm (amount'.htlcinfo.map LnScriptHtlcinfo.view) ∧
      amount.selfMsat = amount'.selfMsat ∧ amount.peerMsat = amount'.peerMsat := by
  obtain ⟨place, halike⟩ := harranged
  have hplaced : ((List.finRange lnHtlcMax).map place).Perm (List.finRange lnHtlcMax) := by
    exact Equiv.Perm.map_finRange_perm place
  simp only [select.htlcinfoAmount_eq]
  have hbalances : ((List.finRange lnHtlcMax).map slots).foldl
      (fun acc htlc => select.balances htlc acc) (selfMsat, peerMsat) =
        ((List.finRange lnHtlcMax).map slots').foldl
          (fun acc htlc => select.balances htlc acc) (selfMsat, peerMsat) := by
    have hmoved : ((List.finRange lnHtlcMax).map place).foldl
        (fun acc idx => select.balances (slots' idx) acc) (selfMsat, peerMsat) =
          (List.finRange lnHtlcMax).foldl
            (fun acc idx => select.balances (slots' idx) acc) (selfMsat, peerMsat) :=
      hplaced.foldl_eq' (fun _ _ _ _ acc => select.balances_comm acc _ _) _
    rw [List.foldl_map, List.foldl_map, ← hmoved, List.foldl_map]
    congr 1
    funext acc idx
    exact (halike idx).balances select acc
  refine ⟨?_, by rw [hbalances], by rw [hbalances]⟩
  have hfilter := (hplaced.filter fun idx => select.adds (slots' idx)).map
    fun idx => (select.infoOf (slots' idx) idx).view
  rw [List.map_map, List.map_map]
  refine List.Perm.trans (List.Perm.of_eq ?_) hfilter
  rw [List.filter_map, List.map_map]
  have hsame : (List.finRange lnHtlcMax).filter ((fun idx => select.adds (slots' idx)) ∘ place) =
      (List.finRange lnHtlcMax).filter fun idx => select.adds (slots idx) :=
    List.filter_congr fun idx _ => ((halike idx).adds select).symm
  rw [hsame]
  apply List.map_congr_left
  intro idx hmem
  exact (halike idx).view select (List.mem_filter.mp hmem).2 idx (place idx)

/-! ### Commitment transactions of the same HTLCs -/

/-- What the transaction that spends an HTLC output takes from it, and the script that it spends. -/
structure HtlcSpend where
  type : LnHtlctype
  locktime : UInt32
  script : Bytes
deriving DecidableEq

def LnScriptHtlcinfo.spend (info : LnScriptHtlcinfo) : HtlcSpend where
  type := info.type
  locktime :=
    match info.type with
    | .received => 0
    | .offered => info.expiry
  script := info.script

/-- The HTLC of an output, if it is one. -/
def VoutOpt.spend : VoutOpt → Option HtlcSpend
  | .htlc info => some info.spend
  | .tolocal => none
  | .toremote => none

/-- What an output contributes to the transaction and to those that spend it. -/
def BtcVout.data (vout : BtcVout) : UInt64 × ScriptPk × Option HtlcSpend :=
  (vout.value, vout.script, vout.opt.spend)

/-- An output as it does not depend on the slot. -/
def BtcVout.view (vout : BtcVout) : BtcVout :=
  { vout with
    opt :=
      match vout.opt with
      | .htlc info => .htlc info.view
      | opt => opt }

theorem data_view (vout : BtcVout) : vout.view.data = vout.data := by
  obtain ⟨value, script, opt⟩ := vout
  cases opt <;> rfl

/-- The transactions that spend the HTLC outputs, in the order of the outputs, each with the value
and the script of its output: what the HTLC signatures are over. -/
def CommitBuild.htlctxs (crypto : Crypto) (build : CommitBuild) (txid : Bytes) :
    List (BtcTx × UInt64 × Bytes) :=
  (htlcVouts build.committx.vout).map fun out =>
    (htlctxOf crypto build.feeinfo build.bufWs txid out, out.2.1, out.2.2.script)

/-- The same transactions from the data of the outputs. -/
def htlctxsOf (crypto : Crypto) (feeinfo : LnScriptFeeinfo) (bufWs txid : Bytes)
    (data : List (UInt64 × ScriptPk × Option HtlcSpend)) : List (BtcTx × UInt64 × Bytes) :=
  data.zipIdx.filterMap fun (out, index) => out.2.2.map fun spend =>
    ({ vinTxid := txid
       vinIndex := index
       sequence := 0
       vout := [(out.1 - feeinfo.htlcFee spend.type, (crypto.p2wsh bufWs).bytes)]
       locktime := spend.locktime }, out.1, spend.script)

theorem htlctxs_eq (build : CommitBuild) (txid : Bytes) :
    build.htlctxs crypto txid =
      htlctxsOf crypto build.feeinfo build.bufWs txid (build.committx.vout.map BtcVout.data) := by
  rw [CommitBuild.htlctxs, htlcVouts, htlctxsOf, List.zipIdx_map, List.map_filterMap,
    List.filterMap_map]
  apply List.filterMap_congr
  intro out hmem
  obtain ⟨⟨value, script, opt⟩, index⟩ := out
  cases opt <;> rfl

/-- The fees do not depend on the order of the HTLCs. -/
theorem lnScriptFeeCalc_perm (feeratePerKw : UInt32) (dustLimitSatoshi : UInt64)
    {htlcinfo htlcinfo' : List LnScriptHtlcinfo}
    (hperm : (htlcinfo.map LnScriptHtlcinfo.view).Perm (htlcinfo'.map LnScriptHtlcinfo.view)) :
    lnScriptFeeCalc feeratePerKw dustLimitSatoshi htlcinfo =
      lnScriptFeeCalc feeratePerKw dustLimitSatoshi htlcinfo' := by
  have hview : ∀ htlcinfo : List LnScriptHtlcinfo,
      lnScriptFeeCalc feeratePerKw dustLimitSatoshi htlcinfo =
        lnScriptFeeCalc feeratePerKw dustLimitSatoshi (htlcinfo.map LnScriptHtlcinfo.view) := by
    intro htlcinfo
    rw [lnScriptFeeCalc, lnScriptFeeCalc, List.foldl_map]
    rfl
  rw [hview htlcinfo, hview htlcinfo', lnScriptFeeCalc, lnScriptFeeCalc]
  rw [hperm.foldl_eq']
  intro info _ info' _ commit
  split_ifs <;> rfl

/-- The outputs before they are sorted, but for the order. -/
theorem outputs_perm {cmt cmt' : LnScriptCommittx} (isLocal : Bool)
    (hsame : cmt' = { cmt with htlcinfo := cmt'.htlcinfo })
    (hperm : (cmt.htlcinfo.map LnScriptHtlcinfo.view).Perm
      (cmt'.htlcinfo.map LnScriptHtlcinfo.view)) :
    ((cmt.outputs crypto isLocal).map BtcVout.view).Perm
      ((cmt'.outputs crypto isLocal).map BtcVout.view) := by
  let output (info : LnScriptHtlcinfo) : BtcVout :=
    ⟨info.amountMsat / 1000, crypto.p2wsh info.script, .htlc info⟩
  have hviews : ∀ htlcinfo : List LnScriptHtlcinfo,
      ((htlcinfo.filter cmt.feeinfo.untrimmed).map output).map BtcVout.view =
        ((htlcinfo.map LnScriptHtlcinfo.view).filter cmt.feeinfo.untrimmed).map output := by
    intro htlcinfo
    rw [List.filter_map, List.map_map, List.map_map]
    rfl
  rw [hsame]
  simp only [LnScriptCommittx.outputs, List.map_append]
  refine List.Perm.append (.refl _) ?_
  rw [hviews, hviews]
  exact (hperm.filter _).map _

/-- What an output pays. -/
theorem mem_outputs {cmt : LnScriptCommittx} {isLocal : Bool} {out : BtcVout}
    (hmem : out ∈ cmt.outputs crypto isLocal) :
    (out.opt = .toremote ∧ out.script = .p2wpkh (crypto.hash160 cmt.remotePubkey)) ∨
      (out.opt = .tolocal ∧ out.script = crypto.p2wsh cmt.localScript) ∨
      ∃ info ∈ cmt.htlcinfo, cmt.feeinfo.untrimmed info = true ∧
        out = ⟨info.amountMsat / 1000, crypto.p2wsh info.script, .htlc info⟩ := by
  simp only [LnScriptCommittx.outputs, List.mem_append, List.mem_map, List.mem_filter] at hmem
  rcases hmem with (hmem | hmem) | ⟨info, ⟨hinfo, huntrimmed⟩, rfl⟩
  · split_ifs at hmem
    · obtain rfl := List.mem_singleton.mp hmem
      exact .inl ⟨rfl, rfl⟩
    · cases hmem
    · obtain rfl := List.mem_singleton.mp hmem
      exact .inl ⟨rfl, rfl⟩
    · cases hmem
  · split_ifs at hmem
    · obtain rfl := List.mem_singleton.mp hmem
      exact .inr (.inl ⟨rfl, rfl⟩)
    · cases hmem
    · obtain rfl := List.mem_singleton.mp hmem
      exact .inr (.inl ⟨rfl, rfl⟩)
    · cases hmem
  · exact .inr (.inr ⟨info, hinfo, huntrimmed, rfl⟩)

/-- Outputs that are sorted to the same place have the same data. -/
def LnScriptCommittx.Told (crypto : Crypto) (cmt : LnScriptCommittx) (isLocal : Bool) : Prop :=
  ∀ out ∈ cmt.outputs crypto isLocal, ∀ out' ∈ cmt.outputs crypto isLocal,
    out.value = out'.value → out.script = out'.script → out.opt.spend = out'.opt.spend

theorem committx_arranged {cmt cmt' : LnScriptCommittx} (isLocal : Bool)
    (hsame : cmt' = { cmt with htlcinfo := cmt'.htlcinfo })
    (hperm : (cmt.htlcinfo.map LnScriptHtlcinfo.view).Perm
      (cmt'.htlcinfo.map LnScriptHtlcinfo.view)) (htold : cmt.Told crypto isLocal) :
    (lnScriptCommittxCreate crypto cmt isLocal).vout.map BtcVout.data =
      (lnScriptCommittxCreate crypto cmt' isLocal).vout.map BtcVout.data := by
  have hdata : ((cmt.outputs crypto isLocal).map BtcVout.data).Perm
      ((cmt'.outputs crypto isLocal).map BtcVout.data) := by
    have hviews := (@outputs_perm crypto _ _ isLocal hsame hperm).map BtcVout.data
    simpa only [List.map_map, Function.comp_def, data_view] using hviews
  let dataKey (data : UInt64 × ScriptPk × Option HtlcSpend) := bip69Key data.1 data.2.1
  have hkey : ∀ out : BtcVout, bip69Key out.value out.script = dataKey out.data := fun _ => rfl
  have hgreater : ∀ out out' : BtcVout, out.gt out' = true ↔
      bip69Key out'.value out'.script < bip69Key out.value out.script :=
    fun out out' => bip69Gt_iff out.value out'.value out.script out'.script
  apply ExchangeSort.sort_map_eq hgreater hkey hdata
  intro out hmem out' hmem' heq
  obtain ⟨hvalue, hscript⟩ := bip69Key_inj heq
  rw [BtcVout.data, BtcVout.data, hvalue, hscript, htold out hmem out' hmem' hvalue hscript]

/-- The transaction is determined by the data of its outputs. -/
theorem committx_tx_eq {cmt cmt' : LnScriptCommittx} (isLocal : Bool)
    (hsame : cmt' = { cmt with htlcinfo := cmt'.htlcinfo })
    (hdata : (lnScriptCommittxCreate crypto cmt isLocal).vout.map BtcVout.data =
      (lnScriptCommittxCreate crypto cmt' isLocal).vout.map BtcVout.data) :
    (lnScriptCommittxCreate crypto cmt isLocal).tx =
      (lnScriptCommittxCreate crypto cmt' isLocal).tx := by
  have hwire : ∀ vouts : List BtcVout, vouts.map BtcVout.wire =
      (vouts.map BtcVout.data).map fun data => (data.1, data.2.1.bytes) := by
    intro vouts
    rw [List.map_map]
    rfl
  have htx : ∀ cmt : LnScriptCommittx, (lnScriptCommittxCreate crypto cmt isLocal).tx =
      { vinTxid := cmt.fundTxid
        vinIndex := cmt.fundTxidIndex.toNat
        sequence := (0x80000000 : UInt32) ||| (cmt.obscured >>> 24 &&& 0xffffff).toUInt32
        vout := (lnScriptCommittxCreate crypto cmt isLocal).vout.map BtcVout.wire
        locktime := (0x20000000 : UInt32) ||| (cmt.obscured &&& 0xffffff).toUInt32 } :=
    fun _ => rfl
  rw [htx cmt, htx cmt', hwire, hwire, hdata, hsame]

/-! ### Scripts -/

/-- No two of the scripts have the same hash. -/
def Crypto.TellsApart (crypto : Crypto) (scripts : List Bytes) : Prop :=
  ∀ script ∈ scripts, ∀ script' ∈ scripts,
    crypto.sha256 script = crypto.sha256 script' → script = script'

/-- The script of an HTLC tells its type, and an offered one its payment hash. -/
theorem htlcinfoScript_inj {keys : Scriptkeys} {info info' : LnScriptHtlcinfo}
    (hscript : (lnScriptHtlcinfoScript crypto keys info).script =
      (lnScriptHtlcinfoScript crypto keys info').script) :
    info.type = info'.type ∧ (info.type = .offered →
      crypto.ripemd160 info.preimageHash = crypto.ripemd160 info'.preimageHash) := by
  obtain ⟨type, idx, expiry, amountMsat, preimageHash, script⟩ := info
  obtain ⟨type', idx', expiry', amountMsat', preimageHash', script'⟩ := info'
  cases type <;> cases type' <;>
    simp only [lnScriptHtlcinfoScript, createScriptOffered, createScriptReceived,
      List.append_assoc, List.append_cancel_left_eq] at hscript ⊢
  all_goals simp_all

/-! ### When the order of the slots is not seen -/

/-- What a commitment transaction is built from besides the slots. -/
structure CommitFrame where
  select : HtlcSelect
  selfMsat : UInt64
  peerMsat : UInt64
  feeratePerKw : UInt32
  dustLimitSat : UInt64
  keys : Scriptkeys
  bufWs : Bytes
  remotePubkey : Bytes
  fundTxid : Bytes
  fundTxidIndex : UInt16
  fundSatoshi : UInt64
  fundScript : Bytes
  obscured : UInt64
  /-- The transaction is that of the own side. -/
  isOwn : Bool
  isLocal : Bool

namespace CommitFrame

variable (crypto : Crypto) (frame : CommitFrame) (slots : Slots)

def amount : HtlcinfoAmount :=
  frame.select.htlcinfoAmount slots frame.selfMsat frame.peerMsat

def htlcinfo : List LnScriptHtlcinfo :=
  (frame.amount slots).htlcinfo.map (lnScriptHtlcinfoScript crypto frame.keys)

def feeinfo : LnScriptFeeinfo :=
  lnScriptFeeCalc frame.feeratePerKw frame.dustLimitSat (frame.htlcinfo crypto slots)

def cmt : LnScriptCommittx where
  fundTxid := frame.fundTxid
  fundTxidIndex := frame.fundTxidIndex
  fundSatoshi := frame.fundSatoshi
  fundScript := frame.fundScript
  localSatoshi :=
    (if frame.isOwn then (frame.amount slots).selfMsat else (frame.amount slots).peerMsat) / 1000
  localScript := frame.bufWs
  remoteSatoshi :=
    (if frame.isOwn then (frame.amount slots).peerMsat else (frame.amount slots).selfMsat) / 1000
  remotePubkey := frame.remotePubkey
  obscured := frame.obscured
  feeinfo := frame.feeinfo crypto slots
  htlcinfo := frame.htlcinfo crypto slots

def build : CommitBuild where
  amount := frame.amount slots
  feeinfo := frame.feeinfo crypto slots
  bufWs := frame.bufWs
  committx := lnScriptCommittxCreate crypto (frame.cmt crypto slots) frame.isLocal

/-- The scripts that the outputs lock. -/
def scripts : List Bytes :=
  frame.bufWs :: (frame.htlcinfo crypto slots).map LnScriptHtlcinfo.script

end CommitFrame

/-- The frame of `create_to_local`. -/
def localFrame (self : LnSelf) (commitNum : UInt64) (toSelfDelay : UInt16)
    (dustLimitSat : UInt64) : CommitFrame where
  select := localSelect
  selfMsat := self.ourMsat
  peerMsat := self.theirMsat
  feeratePerKw := self.feeratePerKw
  dustLimitSat
  keys := self.fundingLocal.scriptpubkeys
  bufWs := lnScriptCreateTolocal self.fundingLocal.scriptpubkeys.revocation
    self.fundingLocal.scriptpubkeys.delayed toSelfDelay
  remotePubkey := self.fundingLocal.scriptpubkeys.remotekey
  fundTxid := self.fundingLocal.txid
  fundTxidIndex := self.fundingLocal.txindex
  fundSatoshi := self.fundingSat
  fundScript := self.redeemFund.script
  obscured := self.obscured ^^^ commitNum
  isOwn := true
  isLocal := self.isFunder

/-- The frame of `create_to_remote`. -/
def remoteFrame (self : LnSelf) (commitNum : UInt64) (dustLimitSat : UInt64) : CommitFrame where
  select := remoteSelect
  selfMsat := self.ourMsat
  peerMsat := self.theirMsat
  feeratePerKw := self.feeratePerKw
  dustLimitSat
  keys := self.fundingRemote.scriptpubkeys
  bufWs := lnScriptCreateTolocal self.fundingRemote.scriptpubkeys.revocation
    self.fundingRemote.scriptpubkeys.delayed self.commitLocal.toSelfDelay
  remotePubkey := self.fundingRemote.scriptpubkeys.remotekey
  fundTxid := self.fundingLocal.txid
  fundTxidIndex := self.fundingLocal.txindex
  fundSatoshi := self.fundingSat
  fundScript := self.redeemFund.script
  obscured := self.obscured ^^^ commitNum
  isOwn := false
  isLocal := !self.isFunder

theorem buildToLocal_eq_build (self : LnSelf) (commitNum : UInt64) (toSelfDelay : UInt16)
    (dustLimitSat : UInt64) :
    buildToLocal crypto self commitNum toSelfDelay dustLimitSat =
      (localFrame self commitNum toSelfDelay dustLimitSat).build crypto self.cnlAddHtlc :=
  rfl

theorem buildToRemote_eq_build (self : LnSelf) (commitNum dustLimitSat : UInt64) :
    buildToRemote crypto self commitNum dustLimitSat =
      (remoteFrame self commitNum dustLimitSat).build crypto self.cnlAddHtlc :=
  rfl

/-- The slot becomes an HTLC that the holder of the transaction offered. -/
def HtlcSelect.offers (select : HtlcSelect) (htlc : LnUpdateAddHtlc) : Bool :=
  select.adds htlc && (select.infoOf htlc 0).type == .offered

/-- The value from which on an offered HTLC is an output. -/
def offeredWorth (feeratePerKw : UInt32) (dustLimitSat : UInt64) : UInt64 :=
  dustLimitSat + 663 * feeratePerKw.toUInt64 / 1000

/-- Offered HTLCs of one value and one payment hash have one expiry. -/
def ExpiriesTold (crypto : Crypto) (select : HtlcSelect) (slots : Slots) (worth : UInt64) : Prop :=
  ∀ idx idx', select.offers (slots idx) = true → select.offers (slots idx') = true →
    worth ≤ (slots idx).amountMsat / 1000 →
    (slots idx).amountMsat / 1000 = (slots idx').amountMsat / 1000 →
    crypto.ripemd160 (slots idx).paymentSha256 = crypto.ripemd160 (slots idx').paymentSha256 →
    (slots idx).cltvExpiry = (slots idx').cltvExpiry

instance (crypto : Crypto) (select : HtlcSelect) (slots : Slots) (worth : UInt64) :
    Decidable (ExpiriesTold crypto select slots worth) :=
  inferInstanceAs (Decidable (∀ _ _ : HtlcIdx, _ → _ → _ → _ → _ → _))

namespace CommitFrame

variable {frame : CommitFrame}

theorem cmt_arranged (harranged : Arranged slots slots') :
    frame.cmt crypto slots' =
        { frame.cmt crypto slots with htlcinfo := frame.htlcinfo crypto slots' } ∧
      ((frame.htlcinfo crypto slots).map LnScriptHtlcinfo.view).Perm
        ((frame.htlcinfo crypto slots').map LnScriptHtlcinfo.view) := by
  obtain ⟨hviews, hself, hpeer⟩ :=
    htlcinfoAmount_arranged frame.select harranged frame.selfMsat frame.peerMsat
  have hscripted : ((frame.htlcinfo crypto slots).map LnScriptHtlcinfo.view).Perm
      ((frame.htlcinfo crypto slots').map LnScriptHtlcinfo.view) := by
    have hscript : ∀ htlcinfo : List LnScriptHtlcinfo,
        (htlcinfo.map (lnScriptHtlcinfoScript crypto frame.keys)).map LnScriptHtlcinfo.view =
          (htlcinfo.map LnScriptHtlcinfo.view).map (lnScriptHtlcinfoScript crypto frame.keys) := by
      intro htlcinfo
      rw [List.map_map, List.map_map]
      rfl
    rw [htlcinfo, htlcinfo, hscript, hscript]
    exact hviews.map _
  refine ⟨?_, hscripted⟩
  simp only [cmt, feeinfo, amount, hself, hpeer, lnScriptFeeCalc_perm _ _ hscripted]

/-- What an HTLC output of the transaction comes from. -/
theorem mem_htlcinfo {info : LnScriptHtlcinfo} (hmem : info ∈ frame.htlcinfo crypto slots) :
    ∃ idx, frame.select.adds (slots idx) = true ∧
      info = lnScriptHtlcinfoScript crypto frame.keys (frame.select.infoOf (slots idx) idx) := by
  rw [htlcinfo, amount, HtlcSelect.htlcinfoAmount_eq, List.map_map] at hmem
  obtain ⟨idx, hidx, rfl⟩ := List.mem_map.mp hmem
  exact ⟨idx, (List.mem_filter.mp hidx).2, rfl⟩

/-- The script of `to_local` is none of an HTLC. -/
theorem tolocal_ne_htlc (keys : Scriptkeys) (info : LnScriptHtlcinfo)
    (revocation delayed : Bytes) (delay : UInt16) :
    (lnScriptHtlcinfoScript crypto keys info).script ≠
      lnScriptCreateTolocal revocation delayed delay := by
  obtain ⟨type, _, _, _, _, _⟩ := info
  cases type <;> simp [lnScriptHtlcinfoScript, createScriptOffered, createScriptReceived,
    lnScriptCreateTolocal]

/-- Two HTLC outputs of one value and one script are spent the same way. -/
theorem spend_eq (hapart : crypto.TellsApart (frame.scripts crypto slots))
    (htold : ExpiriesTold crypto frame.select slots
      (offeredWorth frame.feeratePerKw frame.dustLimitSat))
    {info info' : LnScriptHtlcinfo} (hinfo : info ∈ frame.htlcinfo crypto slots)
    (hinfo' : info' ∈ frame.htlcinfo crypto slots)
    (huntrimmed : (frame.feeinfo crypto slots).untrimmed info = true)
    (hvalue : info.amountMsat / 1000 = info'.amountMsat / 1000)
    (hscript : crypto.p2wsh info.script = crypto.p2wsh info'.script) :
    info.spend = info'.spend := by
  have hsame := hapart info.script (List.mem_cons_of_mem _ (List.mem_map_of_mem hinfo))
    info'.script (List.mem_cons_of_mem _ (List.mem_map_of_mem hinfo')) (ScriptPk.p2wsh.inj hscript)
  obtain ⟨idx, hadds, rfl⟩ := mem_htlcinfo hinfo
  obtain ⟨idx', hadds', rfl⟩ := mem_htlcinfo hinfo'
  obtain ⟨htype, hhash⟩ := htlcinfoScript_inj hsame
  have hexpiry : (frame.select.infoOf (slots idx) idx).type = .offered →
      (slots idx).cltvExpiry = (slots idx').cltvExpiry := by
    intro hoffered
    have hworth : offeredWorth frame.feeratePerKw frame.dustLimitSat ≤
        (slots idx).amountMsat / 1000 := by
      have hfits := of_decide_eq_true huntrimmed
      have hfee : (frame.feeinfo crypto slots).htlcFee (frame.select.infoOf (slots idx) idx).type =
          663 * frame.feeratePerKw.toUInt64 / 1000 := by
        rw [hoffered]
        rfl
      rw [offeredWorth, ← hfee]
      exact hfits
    apply htold idx idx' _ _ hworth hvalue (hhash hoffered)
    · rw [HtlcSelect.offers, hadds, Bool.true_and]
      exact beq_iff_eq.mpr hoffered
    · rw [HtlcSelect.offers, hadds', Bool.true_and]
      exact beq_iff_eq.mpr (htype.symm.trans hoffered)
  have hspend : ∀ idx, (lnScriptHtlcinfoScript crypto frame.keys
      (frame.select.infoOf (slots idx) idx)).spend =
        ⟨(frame.select.infoOf (slots idx) idx).type,
          match (frame.select.infoOf (slots idx) idx).type with
          | .received => 0
          | .offered => (slots idx).cltvExpiry,
          (lnScriptHtlcinfoScript crypto frame.keys
            (frame.select.infoOf (slots idx) idx)).script⟩ :=
    fun _ => rfl
  rw [hspend, hspend, hsame, ← htype]
  cases hoffered : (frame.select.infoOf (slots idx) idx).type with
  | received => rfl
  | offered => rw [hexpiry hoffered]

theorem told_of_expiries (hbufWs : ∃ revocation delayed delay,
      frame.bufWs = lnScriptCreateTolocal revocation delayed delay)
    (hapart : crypto.TellsApart (frame.scripts crypto slots))
    (htold : ExpiriesTold crypto frame.select slots
      (offeredWorth frame.feeratePerKw frame.dustLimitSat)) :
    (frame.cmt crypto slots).Told crypto frame.isLocal := by
  obtain ⟨revocation, delayed, delay, hbufWs⟩ := hbufWs
  have hlocal : ∀ info ∈ frame.htlcinfo crypto slots,
      crypto.p2wsh info.script ≠ crypto.p2wsh frame.bufWs := by
    intro info hinfo heq
    have hscript := hapart info.script (List.mem_cons_of_mem _ (List.mem_map_of_mem hinfo))
      frame.bufWs List.mem_cons_self (ScriptPk.p2wsh.inj heq)
    obtain ⟨idx, _, rfl⟩ := mem_htlcinfo hinfo
    rw [hbufWs] at hscript
    exact tolocal_ne_htlc _ _ _ _ _ hscript
  intro out hmem out' hmem' hvalue hscript
  rcases mem_outputs hmem with ⟨hopt, hout⟩ | ⟨hopt, hout⟩ | ⟨info, hinfo, huntrimmed, rfl⟩
  · rcases mem_outputs hmem' with ⟨hopt', hout'⟩ | ⟨hopt', hout'⟩ | ⟨info', hinfo', -, rfl⟩
    · rw [hopt, hopt']
    · rw [hopt, hopt']
      rfl
    · rw [hout] at hscript
      cases hscript
  · rcases mem_outputs hmem' with ⟨hopt', hout'⟩ | ⟨hopt', hout'⟩ | ⟨info', hinfo', -, rfl⟩
    · rw [hopt, hopt']
      rfl
    · rw [hopt, hopt']
    · rw [hout] at hscript
      exact absurd hscript.symm (hlocal info' hinfo')
  · rcases mem_outputs hmem' with ⟨hopt', hout'⟩ | ⟨hopt', hout'⟩ | ⟨info', hinfo', -, rfl⟩
    · rw [hout'] at hscript
      cases hscript
    · rw [hout'] at hscript
      exact absurd hscript (hlocal info hinfo)
    · exact congrArg some (spend_eq hapart htold hinfo hinfo' huntrimmed hvalue hscript)

/-- Other places for the HTLCs leave the transaction and those that spend its HTLC outputs. -/
def OrderFree (crypto : Crypto) (frame : CommitFrame) (slots : Slots) : Prop :=
  ∀ slots', Arranged slots slots' →
    (frame.build crypto slots').committx.tx = (frame.build crypto slots).committx.tx ∧
      ∀ txid, (frame.build crypto slots').htlctxs crypto txid =
        (frame.build crypto slots).htlctxs crypto txid

theorem orderFree_of_told (htold : (frame.cmt crypto slots).Told crypto frame.isLocal) :
    frame.OrderFree crypto slots := by
  intro slots' harranged
  obtain ⟨hsame, hviews⟩ := @cmt_arranged crypto slots slots' frame harranged
  have hdata := committx_arranged frame.isLocal hsame hviews htold
  have hfees : frame.feeinfo crypto slots' = frame.feeinfo crypto slots :=
    congrArg LnScriptCommittx.feeinfo hsame
  refine ⟨(committx_tx_eq frame.isLocal hsame hdata).symm, fun txid => ?_⟩
  rw [htlctxs_eq, htlctxs_eq]
  simp only [build, hdata, hfees]

/-! ### HTLCs that change places -/

section Swap

variable {idx idx' : HtlcIdx}

/-- The slots with two HTLCs that have changed places. -/
def swapped (slots : Slots) (idx idx' : HtlcIdx) : Slots :=
  fun at_ => slots (Equiv.swap idx idx' at_)

theorem arranged_swapped (slots : Slots) (idx idx' : HtlcIdx) :
    Arranged slots (swapped slots idx idx') := by
  refine ⟨Equiv.swap idx idx', fun place => ?_⟩
  rw [swapped, Equiv.swap_apply_self]
  exact ⟨rfl, fun _ => rfl, fun _ => rfl, fun _ => rfl, fun _ => rfl⟩

/-- The HTLC collected from a slot. -/
def collected (crypto : Crypto) (frame : CommitFrame) (slots : Slots) (idx : HtlcIdx) :
    LnScriptHtlcinfo :=
  lnScriptHtlcinfoScript crypto frame.keys (frame.select.infoOf (slots idx) idx)

theorem htlcinfo_eq : frame.htlcinfo crypto slots =
    ((List.finRange lnHtlcMax).filter fun idx => frame.select.adds (slots idx)).map
      (collected crypto frame slots) := by
  rw [htlcinfo, amount, HtlcSelect.htlcinfoAmount_eq, List.map_map]
  rfl

/-- Each output gets the HTLC that has come to its slot. -/
def moved (crypto : Crypto) (frame : CommitFrame) (slots : Slots) (out : BtcVout) : BtcVout :=
  { out with
    opt :=
      match out.opt with
      | .htlc info => .htlc (collected crypto frame slots info.addHtlcIdx)
      | opt => opt }

/-- Two offered HTLCs that a sort cannot tell apart. -/
structure Tied (crypto : Crypto) (frame : CommitFrame) (slots : Slots) (idx idx' : HtlcIdx) :
    Prop where
  offers : frame.select.offers (slots idx) = true
  offers' : frame.select.offers (slots idx') = true
  amount : (slots idx).amountMsat / 1000 = (slots idx').amountMsat / 1000
  hash : crypto.ripemd160 (slots idx).paymentSha256 = crypto.ripemd160 (slots idx').paymentSha256

theorem offered_of_offers {htlc : LnUpdateAddHtlc} (hoffers : frame.select.offers htlc = true)
    (place : HtlcIdx) :
    frame.select.adds htlc = true ∧ (frame.select.infoOf htlc place).type = .offered := by
  obtain ⟨hadds, htype⟩ := Bool.and_eq_true_iff.mp hoffers
  exact ⟨hadds, eq_of_beq htype⟩

/-- What tied HTLCs have in common wherever they are. -/
theorem Tied.alike (htied : Tied crypto frame slots idx idx') (place : HtlcIdx) :
    let info := lnScriptHtlcinfoScript crypto frame.keys (frame.select.infoOf (slots idx) place)
    let info' := lnScriptHtlcinfoScript crypto frame.keys (frame.select.infoOf (slots idx') place)
    info'.type = info.type ∧ info'.amountMsat / 1000 = info.amountMsat / 1000 ∧
      info'.script = info.script := by
  obtain ⟨-, htype⟩ := offered_of_offers htied.offers place
  obtain ⟨-, htype'⟩ := offered_of_offers htied.offers' place
  refine ⟨htype'.trans htype.symm, htied.amount.symm, ?_⟩
  simp only [lnScriptHtlcinfoScript, htype, htype']
  rw [HtlcSelect.infoOf, HtlcSelect.infoOf, htied.hash]

theorem Tied.symm (htied : Tied crypto frame slots idx idx') : Tied crypto frame slots idx' idx :=
  ⟨htied.offers', htied.offers, htied.amount.symm, htied.hash.symm⟩

/-- Changing places leaves what the transaction takes from each slot. -/
theorem Tied.moves (htied : Tied crypto frame slots idx idx') (place : HtlcIdx) :
    let info := collected crypto frame slots place
    let info' := collected crypto frame (swapped slots idx idx') place
    frame.select.adds (swapped slots idx idx' place) = frame.select.adds (slots place) ∧
      info'.type = info.type ∧ info'.amountMsat / 1000 = info.amountMsat / 1000 ∧
      info'.script = info.script := by
  have hadds := (offered_of_offers htied.offers place).1
  have hadds' := (offered_of_offers htied.offers' place).1
  by_cases hplace : place = idx
  · subst hplace
    simp only [collected, swapped, Equiv.swap_apply_left, hadds, hadds', true_and]
    exact htied.alike place
  · by_cases hplace' : place = idx'
    · subst hplace'
      simp only [collected, swapped, Equiv.swap_apply_right, hadds, hadds', true_and]
      exact htied.symm.alike place
    · simp only [collected, swapped, Equiv.swap_apply_of_ne_of_ne hplace hplace',
        and_self]

theorem Tied.outputs_eq (htied : Tied crypto frame slots idx idx') :
    (frame.cmt crypto (swapped slots idx idx')).outputs crypto frame.isLocal =
      ((frame.cmt crypto slots).outputs crypto frame.isLocal).map
        (moved crypto frame (swapped slots idx idx')) := by
  obtain ⟨hsame, -⟩ := @cmt_arranged crypto slots _ frame (arranged_swapped slots idx idx')
  have hfilter : ((List.finRange lnHtlcMax).filter fun place =>
      frame.select.adds (swapped slots idx idx' place)) =
        (List.finRange lnHtlcMax).filter fun place => frame.select.adds (slots place) :=
    List.filter_congr fun place _ => (htied.moves place).1
  have huntrimmed : ∀ (feeinfo : LnScriptFeeinfo) place,
      feeinfo.untrimmed (collected crypto frame (swapped slots idx idx') place) =
        feeinfo.untrimmed (collected crypto frame slots place) := by
    intro feeinfo place
    obtain ⟨-, htype, hamount, -⟩ := htied.moves place
    rw [LnScriptFeeinfo.untrimmed, LnScriptFeeinfo.untrimmed, htype, hamount]
  have hfilter' : (((List.finRange lnHtlcMax).filter fun place =>
      frame.select.adds (slots place)).filter
        ((frame.feeinfo crypto slots).untrimmed ∘
          collected crypto frame (swapped slots idx idx'))) =
      ((List.finRange lnHtlcMax).filter fun place => frame.select.adds (slots place)).filter
        ((frame.feeinfo crypto slots).untrimmed ∘ collected crypto frame slots) :=
    List.filter_congr fun place _ => huntrimmed _ place
  have hone : ∀ (pays : Prop) [Decidable pays] (out : BtcVout),
      moved crypto frame (swapped slots idx idx') out = out →
        ((if pays then [out] else []).map (moved crypto frame (swapped slots idx idx'))) =
          if pays then [out] else [] := by
    intro pays _ out hout
    split_ifs
    · rw [List.map_singleton, hout]
    · rfl
  rw [hsame]
  simp only [LnScriptCommittx.outputs, List.map_append, cmt, htlcinfo_eq, hfilter, List.filter_map,
    List.map_map, hfilter']
  refine congrArg₂ _ (congrArg₂ _ (hone _ _ rfl).symm (hone _ _ rfl).symm) ?_
  apply List.map_congr_left
  intro place _
  obtain ⟨-, -, hamount, hscript⟩ := htied.moves place
  simp only [Function.comp_apply, moved, hamount, hscript]
  rfl

theorem Tied.vout_eq (htied : Tied crypto frame slots idx idx') :
    (frame.build crypto (swapped slots idx idx')).committx.vout =
      (frame.build crypto slots).committx.vout.map
        (moved crypto frame (swapped slots idx idx')) := by
  simp only [build, lnScriptCommittxCreate]
  rw [htied.outputs_eq, ExchangeSort.sort_map]
  exact fun _ _ => rfl

theorem mem_htlctxsOf {feeinfo : LnScriptFeeinfo} {bufWs txid : Bytes}
    {data : List (UInt64 × ScriptPk × Option HtlcSpend)} {htlctx : BtcTx × UInt64 × Bytes} :
    htlctx ∈ htlctxsOf crypto feeinfo bufWs txid data ↔
      ∃ (index : Nat) (out : UInt64 × ScriptPk × Option HtlcSpend) (spend : HtlcSpend),
        data[index]? = some out ∧ out.2.2 = some spend ∧ htlctx =
          ({ vinTxid := txid
             vinIndex := index
             sequence := 0
             vout := [(out.1 - feeinfo.htlcFee spend.type, (crypto.p2wsh bufWs).bytes)]
             locktime := spend.locktime }, out.1, spend.script) := by
  rw [htlctxsOf, List.mem_filterMap]
  constructor
  · rintro ⟨⟨out, index⟩, hmem, hspend⟩
    obtain ⟨spend, hout, rfl⟩ := Option.map_eq_some_iff.mp hspend
    exact ⟨index, out, spend, List.mem_zipIdx_iff_getElem?.mp hmem, hout, rfl⟩
  · rintro ⟨index, out, spend, hindex, hout, rfl⟩
    exact ⟨(out, index), List.mem_zipIdx_iff_getElem?.mpr hindex, by
      simp only [hout, Option.map_some]⟩

/-- HTLCs that cannot be told apart are spent alike, where the order of the slots is not seen. -/
theorem Tied.expiry_eq (htied : Tied crypto frame slots idx idx')
    (hworth : offeredWorth frame.feeratePerKw frame.dustLimitSat ≤ (slots idx).amountMsat / 1000)
    (hfree : frame.OrderFree crypto slots) :
    (slots idx).cltvExpiry = (slots idx').cltvExpiry := by
  obtain ⟨hadds, htype⟩ := offered_of_offers htied.offers idx
  obtain ⟨-, htype'⟩ := offered_of_offers htied.offers' idx
  -- The HTLC is an output of the transaction.
  let out : BtcVout := ⟨(slots idx).amountMsat / 1000,
    crypto.p2wsh (collected crypto frame slots idx).script,
      .htlc (collected crypto frame slots idx)⟩
  have huntrimmed :
      (frame.feeinfo crypto slots).untrimmed (collected crypto frame slots idx) = true := by
    have hfee : (frame.feeinfo crypto slots).htlcFee (collected crypto frame slots idx).type =
        663 * frame.feeratePerKw.toUInt64 / 1000 := by
      rw [collected, lnScriptHtlcinfoScript, htype]
      rfl
    rw [LnScriptFeeinfo.untrimmed, hfee]
    exact decide_eq_true hworth
  have hout : out ∈ (frame.build crypto slots).committx.vout := by
    rw [build, lnScriptCommittxCreate, (ExchangeSort.sort_perm _ _).mem_iff,
      LnScriptCommittx.outputs]
    refine List.mem_append_right _ (List.mem_map.mpr ⟨collected crypto frame slots idx, ?_, rfl⟩)
    refine List.mem_filter.mpr ⟨?_, huntrimmed⟩
    rw [cmt, htlcinfo_eq]
    exact List.mem_map_of_mem (List.mem_filter.mpr ⟨List.mem_finRange idx, hadds⟩)
  obtain ⟨index, hindex⟩ := List.getElem?_of_mem hout
  -- The transaction that spends it is one for the other places as well.
  have hspent : (htlctxOf crypto (frame.feeinfo crypto slots) frame.bufWs []
      (index, out.value, collected crypto frame slots idx), out.value,
        (collected crypto frame slots idx).script) ∈
          (frame.build crypto slots).htlctxs crypto [] := by
    rw [htlctxs_eq, mem_htlctxsOf]
    exact ⟨index, out.data, (collected crypto frame slots idx).spend,
      by rw [List.getElem?_map, hindex]; rfl, rfl, rfl⟩
  rw [← (hfree _ (arranged_swapped slots idx idx')).2, htlctxs_eq, htied.vout_eq, List.map_map,
    mem_htlctxsOf] at hspent
  obtain ⟨index', data, spend, hindex', hspend, hsame⟩ := hspent
  obtain rfl : index = index' := congrArg (fun htlctx => htlctx.1.vinIndex) hsame
  rw [List.getElem?_map, hindex, Option.map_some, Option.some_inj] at hindex'
  have hmoved : spend = (collected crypto frame (swapped slots idx idx') idx).spend := by
    rw [← hindex'] at hspend
    exact (Option.some_inj.mp hspend).symm
  have hlocktime : (collected crypto frame slots idx).spend.locktime = spend.locktime :=
    congrArg (fun htlctx => htlctx.1.locktime) hsame
  have hexpiry : ∀ (slots : Slots) place,
      (frame.select.infoOf (slots place) place).type = .offered →
        (collected crypto frame slots place).spend.locktime = (slots place).cltvExpiry := by
    intro slots place hoffered
    rw [collected, LnScriptHtlcinfo.spend, lnScriptHtlcinfoScript]
    simp only [hoffered]
    rfl
  have hplace : swapped slots idx idx' idx = slots idx' := by
    rw [swapped, Equiv.swap_apply_left]
  rw [hmoved, hexpiry slots idx htype, hexpiry (swapped slots idx idx') idx (by
    rw [hplace]
    exact htype'), hplace] at hlocktime
  exact hlocktime

end Swap

/-- The order of the slots is not seen if and only if offered HTLCs of one value and one payment
hash have one expiry. -/
theorem orderFree_iff (hbufWs : ∃ revocation delayed delay,
      frame.bufWs = lnScriptCreateTolocal revocation delayed delay)
    (hapart : crypto.TellsApart (frame.scripts crypto slots)) :
    frame.OrderFree crypto slots ↔ ExpiriesTold crypto frame.select slots
      (offeredWorth frame.feeratePerKw frame.dustLimitSat) := by
  constructor
  · intro hfree idx idx' hoffers hoffers' hworth hamount hhash
    exact Tied.expiry_eq ⟨hoffers, hoffers', hamount, hhash⟩ hworth hfree
  · exact fun htold => orderFree_of_told (told_of_expiries hbufWs hapart htold)

end CommitFrame

/-! ### What is signed and verified -/

section Signed

variable {self : LnSelf}

/-- The signature verifies for the transaction that spends an HTLC output. -/
def htlctxVerifies (crypto : Crypto) (pub sig : Bytes) (htlctx : BtcTx × UInt64 × Bytes) : Bool :=
  (calcSighashP2wsh crypto htlctx.1 htlctx.2.1 htlctx.2.2).any fun sighash =>
    crypto.verify sig sighash pub

/-- Whether all transactions have a signature that verifies, and the place where that ends. -/
def verifyHtlctxs (crypto : Crypto) (pub : Bytes) (htlcSigs : List Bytes) :
    List (BtcTx × UInt64 × Bytes) → Nat → Bool × Nat
  | [], htlcNum => (true, htlcNum)
  | htlctx :: rest, htlcNum =>
      if htlctxVerifies crypto pub (htlcSigs.getD htlcNum []) htlctx then
        verifyHtlctxs crypto pub htlcSigs rest (htlcNum + 1)
      else (false, htlcNum)

theorem createToLocalSpentVerify_htlctxs (build : CommitBuild) (htlcSigs : List Bytes)
    (outs : List (Nat × UInt64 × LnScriptHtlcinfo)) (htlcNum : Nat) (slots : Slots) :
    let verified := createToLocalSpentVerify crypto self build htlcSigs outs htlcNum slots
    (verified.1, verified.2.1) =
      verifyHtlctxs crypto self.fundingLocal.scriptpubkeys.remoteHtlckey htlcSigs
        (outs.map fun out => (htlctxOf crypto build.feeinfo build.bufWs self.commitLocal.txid out,
          out.2.1, out.2.2.script)) htlcNum := by
  induction outs generalizing htlcNum slots with
  | nil => rfl
  | cons out rest ih =>
      have hverify : ∀ (tx : BtcTx) (sig : Bytes),
          createToLocalHtlcverify crypto self tx sig out.2.2.script out.2.1 =
            htlctxVerifies crypto self.fundingLocal.scriptpubkeys.remoteHtlckey sig
              (tx, out.2.1, out.2.2.script) := by
        intro tx sig
        rw [createToLocalHtlcverify, htlctxVerifies]
        cases calcSighashP2wsh crypto tx out.2.1 out.2.2.script <;> rfl
      rw [List.map_cons, createToLocalSpentVerify, verifyHtlctxs, ← hverify]
      by_cases hverifies : createToLocalHtlcverify crypto self
          (htlctxOf crypto build.feeinfo build.bufWs self.commitLocal.txid out)
          (htlcSigs.getD htlcNum []) out.2.2.script out.2.1 = true
      · simp only [hverifies, if_true]
        exact ih (htlcNum + 1) _
      · simp only [hverifies]
        rfl

/-- What `create_to_local` answers for the transactions. -/
def acceptsTxs (crypto : Crypto) (self : LnSelf) (tx : BtcTx)
    (htlctxs : List (BtcTx × UInt64 × Bytes)) (htlcSigs : List Bytes) : Bool :=
  (signCommittx crypto self tx).any fun bufSig =>
    createToLocalSignVerify crypto self tx bufSig &&
      let verified := if htlcSigs.length % 256 ≠ 0 then
          verifyHtlctxs crypto self.fundingLocal.scriptpubkeys.remoteHtlckey htlcSigs htlctxs 0
        else (true, htlctxs.length)
      verified.1 && verified.2 == htlcSigs.length % 256

theorem createToLocal_accepts (htlcSigs : List Bytes) (commitNum : UInt64) (toSelfDelay : UInt16)
    (dustLimitSat : UInt64) :
    let build := buildToLocal crypto self commitNum toSelfDelay dustLimitSat
    (createToLocal crypto self htlcSigs commitNum toSelfDelay dustLimitSat).1 =
      acceptsTxs crypto self build.committx.tx
        (build.htlctxs crypto (crypto.txid build.committx.tx)) htlcSigs := by
  intro build
  have hbuild : buildToLocal crypto self commitNum toSelfDelay dustLimitSat = build := rfl
  rw [acceptsTxs]
  cases hsign : signCommittx crypto self build.committx.tx with
  | none =>
      rw [createToLocal_unsigned hbuild hsign]
      rfl
  | some bufSig =>
      rw [createToLocal_signed hbuild hsign, Option.any_some]
      by_cases hverifies : createToLocalSignVerify crypto self build.committx.tx bufSig = true
      · simp only [hverifies, if_true, Bool.true_and, createToLocalSpent]
        by_cases hnum : htlcSigs.length % 256 ≠ 0
        · have hloop := @createToLocalSpentVerify_htlctxs crypto { self with
              commitLocal := { self.commitLocal with txid := crypto.txid build.committx.tx } }
            build htlcSigs (htlcVouts build.committx.vout) 0 self.cnlAddHtlc
          simp only [if_pos hnum]
          rw [CommitBuild.htlctxs, ← hloop]
        · simp only [if_neg hnum, CommitBuild.htlctxs, List.length_map]
      · simp only [hverifies, Bool.false_and]
        rfl

/-- What `create_to_remote` makes of the transactions. -/
def signTxs (crypto : Crypto) (self : LnSelf) (commit : LnCommitData) (tx : BtcTx)
    (htlctxs : List (BtcTx × UInt64 × Bytes)) : Option (LnCommitData × List Bytes) :=
  let htlckey := crypto.derkeyPrivkey self.fundingLocal.pubkeys.htlc
    self.fundingRemote.pubkeys.perCommit self.privData.priv.htlc
  (signCommittx crypto self tx).bind fun bufSig =>
    (htlctxs.mapM fun htlctx =>
      (calcSighashP2wsh crypto htlctx.1 htlctx.2.1 htlctx.2.2).map (crypto.sign htlckey)).map
        fun htlcSigs =>
          ({ commit with
            txid := crypto.txid tx
            signature := bufSig
            htlcNum := htlctxs.length.toUInt16 }, htlcSigs)

theorem createToRemote_signs (commit : LnCommitData) (commitNum : UInt64) :
    let build := buildToRemote crypto self commitNum commit.dustLimitSat
    createToRemote crypto self commit commitNum =
      signTxs crypto self commit build.committx.tx
        (build.htlctxs crypto (crypto.txid build.committx.tx)) := by
  intro build
  have hbuild : buildToRemote crypto self commitNum commit.dustLimitSat = build := rfl
  rw [signTxs, CommitBuild.htlctxs, List.length_map, List.mapM_map]
  cases hsign : signCommittx crypto self build.committx.tx with
  | none => exact createToRemote_unsigned hbuild hsign
  | some bufSig => exact createToRemote_signed hbuild hsign

/-! ### Two peers -/

/-- Two ends of a channel that hold the same HTLCs, in whatever slots: what the remote transaction
of one and the local one of the other collect. -/
structure SameHtlcs (near far : LnSelf) : Prop where
  roles : far.isFunder = !near.isFunder
  txid : far.fundingLocal.txid = near.fundingLocal.txid
  txindex : far.fundingLocal.txindex = near.fundingLocal.txindex
  fundingSat : far.fundingSat = near.fundingSat
  redeemFund : far.redeemFund = near.redeemFund
  feeratePerKw : far.feeratePerKw = near.feeratePerKw
  obscured : far.obscured = near.obscured
  scriptkeys : far.fundingLocal.scriptpubkeys = near.fundingRemote.scriptpubkeys
  selfMsat : (createToLocalHtlcinfoAmount far).selfMsat = (createToRemoteHtlcinfo near).peerMsat
  peerMsat : (createToLocalHtlcinfoAmount far).peerMsat = (createToRemoteHtlcinfo near).selfMsat
  htlcs : ((createToRemoteHtlcinfo near).htlcinfo.map LnScriptHtlcinfo.view).Perm
    ((createToLocalHtlcinfoAmount far).htlcinfo.map LnScriptHtlcinfo.view)

/-- The keys with which one end signs are those with which the other verifies. -/
structure KeysFit (crypto : Crypto) (near far : LnSelf) : Prop where
  script : crypto.sha256 far.redeemFund.script = far.txFundingScript
  own : crypto.priv2pub far.privData.priv.funding = some far.ownFundingKey
  peer : crypto.priv2pub near.privData.priv.funding = some far.peerFundingKey
  htlc : crypto.priv2pub (crypto.derkeyPrivkey near.fundingLocal.pubkeys.htlc
    near.fundingRemote.pubkeys.perCommit near.privData.priv.htlc) =
      some far.fundingLocal.scriptpubkeys.remoteHtlckey

variable {near far : LnSelf}

/-- Both ends build the same transactions. -/
theorem SameHtlcs.build_eq (hsamehtlcs : SameHtlcs near far) (commitNum dustLimitSat : UInt64)
    (htold : ((remoteFrame near commitNum dustLimitSat).cmt crypto near.cnlAddHtlc).Told crypto
      (!near.isFunder)) :
    let build := buildToRemote crypto near commitNum dustLimitSat
    let build' := buildToLocal crypto far commitNum near.commitLocal.toSelfDelay dustLimitSat
    build'.committx.tx = build.committx.tx ∧
      ∀ txid, build'.htlctxs crypto txid = build.htlctxs crypto txid := by
  let frame := remoteFrame near commitNum dustLimitSat
  let frame' := localFrame far commitNum near.commitLocal.toSelfDelay dustLimitSat
  have hkeys : frame'.keys = frame.keys := hsamehtlcs.scriptkeys
  have hscript : ∀ (keys : Scriptkeys) (htlcinfo : List LnScriptHtlcinfo),
      (htlcinfo.map (lnScriptHtlcinfoScript crypto keys)).map LnScriptHtlcinfo.view =
        (htlcinfo.map LnScriptHtlcinfo.view).map (lnScriptHtlcinfoScript crypto keys) := by
    intro keys htlcinfo
    rw [List.map_map, List.map_map]
    rfl
  have hviews : ((frame.htlcinfo crypto near.cnlAddHtlc).map LnScriptHtlcinfo.view).Perm
      ((frame'.htlcinfo crypto far.cnlAddHtlc).map LnScriptHtlcinfo.view) := by
    rw [CommitFrame.htlcinfo, CommitFrame.htlcinfo, hscript, hscript, hkeys]
    exact hsamehtlcs.htlcs.map _
  have hfees : frame'.feeinfo crypto far.cnlAddHtlc = frame.feeinfo crypto near.cnlAddHtlc := by
    have hrate : frame'.feeratePerKw = frame.feeratePerKw := hsamehtlcs.feeratePerKw
    rw [CommitFrame.feeinfo, CommitFrame.feeinfo, hrate]
    exact (lnScriptFeeCalc_perm _ _ hviews).symm
  have hbufWs : frame'.bufWs = frame.bufWs := by
    simp only [frame, frame', localFrame, remoteFrame, hsamehtlcs.scriptkeys]
  have hsame : frame'.cmt crypto far.cnlAddHtlc = { frame.cmt crypto near.cnlAddHtlc with
      htlcinfo := frame'.htlcinfo crypto far.cnlAddHtlc } := by
    have hself : (frame'.amount far.cnlAddHtlc).selfMsat =
        (frame.amount near.cnlAddHtlc).peerMsat := hsamehtlcs.selfMsat
    have hpeer : (frame'.amount far.cnlAddHtlc).peerMsat =
        (frame.amount near.cnlAddHtlc).selfMsat := hsamehtlcs.peerMsat
    simp only [CommitFrame.cmt, hfees, hbufWs, hself, hpeer]
    simp only [frame, frame', localFrame, remoteFrame, hsamehtlcs.txid, hsamehtlcs.txindex,
      hsamehtlcs.fundingSat, hsamehtlcs.redeemFund, hsamehtlcs.obscured, hsamehtlcs.scriptkeys,
      if_true, Bool.false_eq_true, if_false]
  have hdata := committx_arranged (!near.isFunder) hsame hviews htold
  have hlocal : frame'.isLocal = !near.isFunder := hsamehtlcs.roles
  have hvout : (frame'.build crypto far.cnlAddHtlc).committx.vout.map BtcVout.data =
      (frame.build crypto near.cnlAddHtlc).committx.vout.map BtcVout.data := by
    rw [CommitFrame.build, hlocal]
    exact hdata.symm
  rw [buildToLocal_eq_build, buildToRemote_eq_build]
  refine ⟨?_, fun txid => ?_⟩
  · have htx := committx_tx_eq (!near.isFunder) hsame hdata
    rw [CommitFrame.build, hlocal]
    exact htx.symm
  · rw [htlctxs_eq, htlctxs_eq]
    change htlctxsOf crypto (frame'.feeinfo crypto far.cnlAddHtlc) frame'.bufWs txid
      ((frame'.build crypto far.cnlAddHtlc).committx.vout.map BtcVout.data) = _
    rw [hvout, hfees, hbufWs]
    rfl

/-- Signatures over all the transactions verify for all of them. -/
theorem verifyHtlctxs_signed (hsound : crypto.Sound) {priv pub : Bytes}
    (hkey : crypto.priv2pub priv = some pub) {htlctxs : List (BtcTx × UInt64 × Bytes)}
    {signed : List Bytes} (hsigned : htlctxs.mapM (fun htlctx =>
      (calcSighashP2wsh crypto htlctx.1 htlctx.2.1 htlctx.2.2).map (crypto.sign priv)) =
        some signed) (before : List Bytes) :
    signed.length = htlctxs.length ∧
      verifyHtlctxs crypto pub (before ++ signed) htlctxs before.length =
        (true, before.length + htlctxs.length) := by
  induction htlctxs generalizing signed before with
  | nil =>
      obtain rfl := Option.some_inj.mp hsigned
      exact ⟨rfl, rfl⟩
  | cons htlctx rest ih =>
      rw [List.mapM_cons] at hsigned
      obtain ⟨sig, hsig, hrest⟩ := Option.bind_eq_some_iff.mp hsigned
      obtain ⟨sigs, hsigs, hcons⟩ := Option.bind_eq_some_iff.mp hrest
      obtain rfl := Option.some_inj.mp hcons
      obtain ⟨sighash, hsighash, rfl⟩ := Option.map_eq_some_iff.mp hsig
      obtain ⟨hlength, hverify⟩ := ih hsigs (before ++ [crypto.sign priv sighash])
      refine ⟨by rw [List.length_cons, hlength, List.length_cons], ?_⟩
      have hverifies : htlctxVerifies crypto pub
          ((before ++ crypto.sign priv sighash :: sigs).getD before.length []) htlctx = true := by
        rw [htlctxVerifies, hsighash, Option.any_some]
        simpa using hsound priv pub sighash hkey
      rw [verifyHtlctxs, hverifies, if_pos rfl]
      rw [List.length_append, List.length_singleton, List.append_assoc, List.singleton_append]
        at hverify
      rw [hverify, List.length_cons]
      simp only [Prod.mk.injEq, true_and]
      omega

/-- What one end signs is accepted by the other. -/
theorem accepts_signed (hsound : crypto.Sound) (hfit : KeysFit crypto near far)
    {commit signed : LnCommitData} {tx : BtcTx} {htlctxs : List (BtcTx × UInt64 × Bytes)}
    {htlcSigs : List Bytes} (hfew : htlctxs.length < 256)
    (hsigned : signTxs crypto near commit tx htlctxs = some (signed, htlcSigs))
    (hfunding : far.fundingSat = near.fundingSat) (hredeem : far.redeemFund = near.redeemFund)
    (hsignature : far.commitLocal.signature = signed.signature) :
    acceptsTxs crypto far tx htlctxs htlcSigs = true := by
  obtain ⟨bufSig, hsign, hhtlcs⟩ := Option.bind_eq_some_iff.mp hsigned
  obtain ⟨sigs, hsigs, hpair⟩ := Option.map_eq_some_iff.mp hhtlcs
  obtain ⟨rfl, rfl⟩ := Prod.mk.inj hpair
  obtain ⟨hlength, hverify⟩ := verifyHtlctxs_signed hsound hfit.htlc hsigs []
  rw [signCommittx, calcSighashP2wsh] at hsign
  by_cases hvalid : tx.isValid = true
  · rw [if_pos hvalid, Option.map_some, Option.some_inj] at hsign
    have hown : signCommittx crypto far tx = some (crypto.sign far.privData.priv.funding
        (crypto.sighash tx far.fundingSat far.redeemFund.script)) := by
      rw [signCommittx, calcSighashP2wsh, if_pos hvalid, Option.map_some]
    rw [acceptsTxs, hown, Option.any_some, Bool.and_eq_true]
    constructor
    · apply (createToLocalSignVerify_iff far _ hvalid hfit.script).mpr
      refine ⟨hsound _ _ _ hfit.own, ?_⟩
      rw [hsignature, hfunding, hredeem, ← hsign]
      exact hsound _ _ _ hfit.peer
    · have hmod : sigs.length % 256 = htlctxs.length := by
        rw [hlength, Nat.mod_eq_of_lt hfew]
      rw [List.nil_append, List.length_nil, Nat.zero_add] at hverify
      by_cases hnone : htlctxs.length = 0
      · simp [hmod, hnone]
      · simp [hmod, hnone, hverify]
  · rw [if_neg hvalid] at hsign
    cases hsign

theorem length_htlctxs_le (frame : CommitFrame) (slots : Slots) (txid : Bytes) :
    ((frame.build crypto slots).htlctxs crypto txid).length ≤ 2 + lnHtlcMax := by
  rw [CommitBuild.htlctxs, List.length_map, htlcVouts]
  apply (List.length_filterMap_le _ _).trans
  rw [List.length_zipIdx]
  apply (committx_vout_length_le crypto _ _).trans
  rw [CommitFrame.cmt, CommitFrame.htlcinfo, List.length_map]
  exact Nat.add_le_add_left (htlcinfoAmount_length_le _ _ _ _) 2

end Signed

/-! ### The order of the slots -/

/-- The same channel with its HTLCs at other places. -/
def LnSelf.withSlots (self : LnSelf) (slots : Slots) : LnSelf :=
  { self with cnlAddHtlc := slots }

/-- The order of the slots is seen neither in the transactions and signatures that
`create_to_local` and `create_to_remote` make and accept, nor by a peer that holds the same HTLCs
in slots of its own. -/
structure PlacesUnseen (crypto : Crypto) (near : LnSelf) (commitNum : UInt64)
    (toSelfDelay : UInt16) (dustLimitSat : UInt64) (commit : LnCommitData) : Prop where
  toLocal : ∀ slots', Arranged near.cnlAddHtlc slots' →
    let build := buildToLocal crypto near commitNum toSelfDelay dustLimitSat
    let build' := buildToLocal crypto (near.withSlots slots') commitNum toSelfDelay dustLimitSat
    build'.committx.tx = build.committx.tx ∧
      (∀ txid, build'.htlctxs crypto txid = build.htlctxs crypto txid) ∧
      ∀ htlcSigs, (createToLocal crypto (near.withSlots slots') htlcSigs commitNum toSelfDelay
        dustLimitSat).1 =
          (createToLocal crypto near htlcSigs commitNum toSelfDelay dustLimitSat).1
  toRemote : ∀ slots', Arranged near.cnlAddHtlc slots' →
    let build := buildToRemote crypto near commitNum commit.dustLimitSat
    let build' := buildToRemote crypto (near.withSlots slots') commitNum commit.dustLimitSat
    build'.committx.tx = build.committx.tx ∧
      (∀ txid, build'.htlctxs crypto txid = build.htlctxs crypto txid) ∧
      createToRemote crypto (near.withSlots slots') commit commitNum =
        createToRemote crypto near commit commitNum
  accepted : ∀ far, SameHtlcs near far → KeysFit crypto near far → ∀ signed htlcSigs,
    createToRemote crypto near commit commitNum = some (signed, htlcSigs) →
    far.commitLocal.signature = signed.signature →
    (createToLocal crypto far htlcSigs commitNum near.commitLocal.toSelfDelay
      commit.dustLimitSat).1 = true

/-- The order of the slots is not seen if and only if, on each side, two offered HTLCs of one value
in satoshi and one payment hash have one expiry. -/
theorem placesUnseen_iff (hsound : crypto.Sound) (self : LnSelf) (commitNum : UInt64)
    (toSelfDelay : UInt16) (dustLimitSat : UInt64) (commit : LnCommitData)
    (hlocal : crypto.TellsApart
      ((localFrame self commitNum toSelfDelay dustLimitSat).scripts crypto self.cnlAddHtlc))
    (hremote : crypto.TellsApart
      ((remoteFrame self commitNum commit.dustLimitSat).scripts crypto self.cnlAddHtlc)) :
    PlacesUnseen crypto self commitNum toSelfDelay dustLimitSat commit ↔
      ExpiriesTold crypto localSelect self.cnlAddHtlc
          (offeredWorth self.feeratePerKw dustLimitSat) ∧
        ExpiriesTold crypto remoteSelect self.cnlAddHtlc
          (offeredWorth self.feeratePerKw commit.dustLimitSat) := by
  have hlocalIff := CommitFrame.orderFree_iff ⟨_, _, _, rfl⟩ hlocal
  have hremoteIff := CommitFrame.orderFree_iff ⟨_, _, _, rfl⟩ hremote
  constructor
  · intro hunseen
    refine ⟨hlocalIff.mp fun slots' harranged => ?_, hremoteIff.mp fun slots' harranged => ?_⟩
    · obtain ⟨htx, hhtlctxs, -⟩ := hunseen.toLocal slots' harranged
      exact ⟨htx, hhtlctxs⟩
    · obtain ⟨htx, hhtlctxs, -⟩ := hunseen.toRemote slots' harranged
      exact ⟨htx, hhtlctxs⟩
  · rintro ⟨htoldLocal, htoldRemote⟩
    have hfreeLocal := hlocalIff.mpr htoldLocal
    have hfreeRemote := hremoteIff.mpr htoldRemote
    constructor
    · intro slots' harranged build build'
      obtain ⟨htx, hhtlctxs⟩ := hfreeLocal slots' harranged
      refine ⟨htx, hhtlctxs, fun htlcSigs => ?_⟩
      rw [createToLocal_accepts, createToLocal_accepts]
      have htx' : build'.committx.tx = build.committx.tx := htx
      have hhtlctxs' : ∀ txid, build'.htlctxs crypto txid = build.htlctxs crypto txid := hhtlctxs
      change acceptsTxs crypto self build'.committx.tx
        (build'.htlctxs crypto (crypto.txid build'.committx.tx)) htlcSigs = _
      rw [hhtlctxs', htx']
    · intro slots' harranged build build'
      obtain ⟨htx, hhtlctxs⟩ := hfreeRemote slots' harranged
      refine ⟨htx, hhtlctxs, ?_⟩
      rw [createToRemote_signs, createToRemote_signs]
      have htx' : build'.committx.tx = build.committx.tx := htx
      have hhtlctxs' : ∀ txid, build'.htlctxs crypto txid = build.htlctxs crypto txid := hhtlctxs
      change signTxs crypto self commit build'.committx.tx
        (build'.htlctxs crypto (crypto.txid build'.committx.tx)) = _
      rw [hhtlctxs', htx']
    · intro far hsamehtlcs hfit signed htlcSigs hsigned hsignature
      have htold := CommitFrame.told_of_expiries ⟨_, _, _, rfl⟩ hremote htoldRemote
      obtain ⟨htx, hhtlctxs⟩ := hsamehtlcs.build_eq commitNum commit.dustLimitSat htold
      rw [createToRemote_signs] at hsigned
      rw [createToLocal_accepts, htx, hhtlctxs]
      have hfew := @length_htlctxs_le crypto (remoteFrame self commitNum commit.dustLimitSat)
        self.cnlAddHtlc (crypto.txid (buildToRemote crypto self commitNum
          commit.dustLimitSat).committx.tx)
      exact accepts_signed hsound hfit (hfew.trans_lt (by decide)) hsigned hsamehtlcs.fundingSat
        hsamehtlcs.redeemFund hsignature

/-- A payment of 50000 satoshi. -/
def twinRequest (cltvValue : UInt32) : AddHtlcRequest where
  packet := []
  amountMsat := 50000000
  cltvValue
  paymentHash := [9]
  prevShortChannelId := 0

/-- Two payments that differ in their expiry at most are offered, and the peer revokes. -/
def twinScript (cltvValue cltvValue' : UInt32) : List (ChannelState → ChannelLabel) :=
  [ fun _ => .event (.addHtlc (twinRequest cltvValue)),
    fun _ => .event (.addHtlc (twinRequest cltvValue')),
    fun _ => .event .idle,
    fun _ => .event .idle,
    fun _ => .event (.recv symbolicOutpoint.txid
      (.revokeAndAck (symbolicKeys 2).perCommit [2, 7]) {}) ]

/-- Two payments of one expiry are then outputs that no peer tells apart. -/
theorem placesUnseen_twins :
    ∃ state : ChannelState, (channelSystem .symbolic).Reachable state ∧
      localSelect.offers (state.self.cnlAddHtlc 0) = true ∧
      localSelect.offers (state.self.cnlAddHtlc 1) = true ∧
      PlacesUnseen .symbolic state.self (state.self.commitLocal.commitNum + 1)
        state.self.commitRemote.toSelfDelay state.self.commitLocal.dustLimitSat
        state.self.commitRemote := by
  have hcheck : symbolicCheck 1000000 500000000 permitAll (twinScript 600 600)
      (fun state _ => localSelect.offers (state.self.cnlAddHtlc 0) &&
        localSelect.offers (state.self.cnlAddHtlc 1) &&
        decide (ExpiriesTold .symbolic localSelect state.self.cnlAddHtlc
          (offeredWorth state.self.feeratePerKw state.self.commitLocal.dustLimitSat)) &&
        decide (ExpiriesTold .symbolic remoteSelect state.self.cnlAddHtlc
          (offeredWorth state.self.feeratePerKw state.self.commitRemote.dustLimitSat))) = true := by
    decide +kernel
  obtain ⟨state, _, hhistory, hchecked⟩ := run_of_symbolicCheck hcheck
  simp only [Bool.and_eq_true, decide_eq_true_eq] at hchecked
  obtain ⟨⟨⟨hfirst, hsecond⟩, hlocal⟩, hremote⟩ := hchecked
  have hiff := placesUnseen_iff symbolic_sound state.self (state.self.commitLocal.commitNum + 1)
    state.self.commitRemote.toSelfDelay state.self.commitLocal.dustLimitSat
    state.self.commitRemote (fun _ _ _ _ hsame => hsame) (fun _ _ _ _ hsame => hsame)
  exact ⟨state, hhistory.reachableUnder, hfirst, hsecond, hiff.mpr ⟨hlocal, hremote⟩⟩

/-- Two payments of different expiries are outputs that change places with their slots. -/
theorem placesSeen_twins :
    ¬ ∀ (crypto : Crypto) (state : ChannelState), (channelSystem crypto).Reachable state →
      PlacesUnseen crypto state.self (state.self.commitLocal.commitNum + 1)
        state.self.commitRemote.toSelfDelay state.self.commitLocal.dustLimitSat
        state.self.commitRemote := by
  intro hall
  have hcheck : symbolicCheck 1000000 500000000 permitAll (twinScript 600 601) (fun state _ =>
      let build := fun self : LnSelf => buildToLocal .symbolic self
        (state.self.commitLocal.commitNum + 1) state.self.commitRemote.toSelfDelay
        state.self.commitLocal.dustLimitSat
      (build (state.self.withSlots (CommitFrame.swapped state.self.cnlAddHtlc 0 1))).htlctxs
        .symbolic [] != (build state.self).htlctxs .symbolic []) = true := by
    decide +kernel
  obtain ⟨state, _, hhistory, hchecked⟩ := run_of_symbolicCheck hcheck
  simp only [bne_iff_ne, ne_eq] at hchecked
  have hunseen := (hall _ state hhistory.reachableUnder).toLocal _
    (CommitFrame.arranged_swapped state.self.cnlAddHtlc 0 1)
  exact hchecked (hunseen.2.1 [])

end Ptarmigan
