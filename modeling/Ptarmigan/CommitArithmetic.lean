/-
The arithmetic of commitment transactions: what `ln_script_fee_calc`,
`ln_script_committx_create` and the loop of `create_to_local_spent` compute for one list of
HTLCs, operation by operation, and when none of them leaves 64 bits.
-/
import Mathlib.Algebra.Group.Action.Defs
import Mathlib.Algebra.Order.BigOperators.Group.List
import Mathlib.Algebra.Order.Ring.Nat
import Ptarmigan.CommitTx
import Ptarmigan.Library.Wrapping
import Ptarmigan.TxSort

namespace Ptarmigan

namespace CommitArithmetic

open Wrapping

/-! ### The fees -/

/-- The least amount of an HTLC that `ln_script_fee_calc` counts. -/
def feeCalcLeast (feeinfo : LnScriptFeeinfo) (info : LnScriptHtlcinfo) : Wrapping UInt64 :=
  match info.type with
  | .offered => add64 feeinfo.dustLimitSatoshi feeinfo.htlcTimeout
  | .received => add64 feeinfo.dustLimitSatoshi feeinfo.htlcSuccess

/-- The loop of `ln_script_fee_calc`: the weight counted so far, and the dust. -/
def feeCalcLoop (feeinfo : LnScriptFeeinfo) :
    List LnScriptHtlcinfo → UInt64 × UInt64 → Wrapping (UInt64 × UInt64)
  | [], acc => pure acc
  | info :: rest, acc => do
      let least ← feeCalcLeast feeinfo info
      if info.amountMsat / 1000 ≥ least then do
        let commit ← add64 acc.1 172
        feeCalcLoop feeinfo rest (commit, acc.2)
      else do
        let dusts ← add64 acc.2 (info.amountMsat / 1000)
        feeCalcLoop feeinfo rest (acc.1, dusts)

/-- `ln_script_fee_calc` with the fee that it returns. -/
def lnScriptFeeCalcWrapping (feeratePerKw : UInt32) (dustLimitSatoshi : UInt64)
    (htlcinfo : List LnScriptHtlcinfo) : Wrapping (LnScriptFeeinfo × UInt64) := do
  let htlcSuccess ← mul64 703 feeratePerKw.toUInt64
  let htlcTimeout ← mul64 663 feeratePerKw.toUInt64
  let feeinfo : LnScriptFeeinfo :=
    { dustLimitSatoshi
      htlcSuccess := htlcSuccess / 1000
      htlcTimeout := htlcTimeout / 1000
      commit := 724 }
  let acc ← feeCalcLoop feeinfo htlcinfo (feeinfo.commit, 0)
  let commit ← mul64 acc.1 feeratePerKw.toUInt64
  let fee ← add64 (commit / 1000) acc.2
  pure ({ feeinfo with commit := commit / 1000 }, fee)

/-! ### The outputs -/

/-- What an output is created from: one of the two balances, or an entry of `pp_htlcinfo`. -/
inductive Origin
  | tolocal
  | toremote
  | htlc (lp : ℕ)
deriving DecidableEq, Repr

/-- `LN_HTLCTYPE_TOLOCAL`. -/
def lnHtlctypeTolocal : UInt8 := 0xfe

/-- `LN_HTLCTYPE_TOREMOTE`. -/
def lnHtlctypeToremote : UInt8 := 0xff

/-- How `create_to_local_spent` reads the tag of an output. -/
def readOpt (opt : UInt8) : Origin :=
  if opt = lnHtlctypeTolocal then .tolocal
  else if opt = lnHtlctypeToremote then .toremote
  else .htlc opt.toNat

/-- An output, and beside it what it has been created from. -/
structure Created where
  vout : TxSort.BtcVout
  origin : Origin
deriving DecidableEq, Repr

/-- The output of one balance. -/
def balanceOutput (satoshi dustLimitSatoshi fee : UInt64) (script : Bytes) (opt : UInt8)
    (origin : Origin) : Wrapping (List Created) := do
  let least ← add64 dustLimitSatoshi fee
  if satoshi ≥ least then do
    let value ← sub64 satoshi fee
    pure [⟨⟨value, script, opt⟩, origin⟩]
  else pure []

/-- The output of an HTLC, tagged with its position. -/
def htlcOutput (crypto : Crypto) (entry : LnScriptHtlcinfo × ℕ) : Created :=
  ⟨⟨entry.1.amountMsat / 1000, (crypto.p2wsh entry.1.script).bytes, entry.2.toUInt8⟩,
    .htlc entry.2⟩

/-- The loop over the HTLCs in `ln_script_committx_create`, from position `lp` on. -/
def htlcOutputs (crypto : Crypto) (feeinfo : LnScriptFeeinfo) :
    List LnScriptHtlcinfo → ℕ → Wrapping (List Created)
  | [], _ => pure []
  | info :: rest, lp => do
      let fee :=
        match info.type with
        | .offered => feeinfo.htlcTimeout
        | .received => feeinfo.htlcSuccess
      let least ← add64 feeinfo.dustLimitSatoshi fee
      let later ← htlcOutputs crypto feeinfo rest (lp + 1)
      if info.amountMsat / 1000 ≥ least then pure (htlcOutput crypto (info, lp) :: later)
      else pure later

/-- The outputs that `ln_script_committx_create` adds. -/
def committxVouts (crypto : Crypto) (cmt : LnScriptCommittx) (isLocal : Bool) :
    Wrapping (List Created) := do
  let feeLocal := if isLocal then cmt.feeinfo.commit else 0
  let feeRemote := if isLocal then 0 else cmt.feeinfo.commit
  let toRemote ← balanceOutput cmt.remoteSatoshi cmt.feeinfo.dustLimitSatoshi feeRemote
    (ScriptPk.p2wpkh (crypto.hash160 cmt.remotePubkey)).bytes lnHtlctypeToremote .toremote
  let toLocal ← balanceOutput cmt.localSatoshi cmt.feeinfo.dustLimitSatoshi feeLocal
    (crypto.p2wsh cmt.localScript).bytes lnHtlctypeTolocal .tolocal
  let htlcs ← htlcOutputs crypto cmt.feeinfo cmt.htlcinfo 0
  pure (toRemote ++ toLocal ++ htlcs)

/-- The outputs of `ln_script_committx_create` after BIP69. -/
def lnScriptCommittxCreateWrapping (crypto : Crypto) (cmt : LnScriptCommittx) (isLocal : Bool) :
    Wrapping (List Created) := do
  let created ← committxVouts crypto cmt isLocal
  pure (ExchangeSort.sortAt (fun _ _ out out' => TxSort.voutGreater out.vout out'.vout) created)

/-- The loop of `create_to_local_spent`, up to the values of the transactions that spend the
HTLC outputs: whether its assertion holds at each. -/
def createToLocalSpentWrapping (feeinfo : LnScriptFeeinfo) (htlcinfo : List LnScriptHtlcinfo) :
    List TxSort.BtcVout → Wrapping Bool
  | [] => pure true
  | vout :: rest =>
      match readOpt vout.opt with
      | .tolocal => createToLocalSpentWrapping feeinfo htlcinfo rest
      | .toremote => createToLocalSpentWrapping feeinfo htlcinfo rest
      | .htlc lp =>
          match htlcinfo[lp]? with
          -- outside of the array
          | none => pure false
          | some info => do
              let least ← add64 feeinfo.dustLimitSatoshi (feeinfo.htlcFee info.type)
              if vout.value ≥ least then do
                let _ ← sub64 vout.value (feeinfo.htlcFee info.type)
                createToLocalSpentWrapping feeinfo htlcinfo rest
              else pure false

/-! ### One commitment transaction -/

/-- What a commitment transaction is made of; the balances and the HTLCs come out of the
funding amount. -/
structure CommitCall where
  feeratePerKw : UInt32
  dustLimitSatoshi : UInt64
  fundTxid : Bytes
  fundTxidIndex : UInt16
  fundSatoshi : UInt64
  fundScript : Bytes
  localMsat : UInt64
  localScript : Bytes
  remoteMsat : UInt64
  remotePubkey : Bytes
  obscured : UInt64
  htlcinfo : List LnScriptHtlcinfo
  count : htlcinfo.length ≤ lnHtlcMax
  funds : localMsat.toNat + remoteMsat.toNat +
    (htlcinfo.map fun info => info.amountMsat.toNat).sum ≤ 1000 * fundSatoshi.toNat

/-- What the call makes: the fees, the outputs in their order, and whether the assertion holds. -/
structure Commitment where
  feeinfo : LnScriptFeeinfo
  fee : UInt64
  created : List Created
  asserted : Bool
deriving DecidableEq, Repr

namespace CommitCall

/-- `lntx_commit`. -/
def committx (call : CommitCall) (feeinfo : LnScriptFeeinfo) : LnScriptCommittx where
  fundTxid := call.fundTxid
  fundTxidIndex := call.fundTxidIndex
  fundSatoshi := call.fundSatoshi
  fundScript := call.fundScript
  localSatoshi := call.localMsat / 1000
  localScript := call.localScript
  remoteSatoshi := call.remoteMsat / 1000
  remotePubkey := call.remotePubkey
  obscured := call.obscured
  feeinfo := feeinfo
  htlcinfo := call.htlcinfo

/-- The three functions one after the other; `isLocal` says which balance pays the fee. -/
def run (call : CommitCall) (crypto : Crypto) (isLocal : Bool) : Wrapping Commitment := do
  let fees ← lnScriptFeeCalcWrapping call.feeratePerKw call.dustLimitSatoshi call.htlcinfo
  let created ← lnScriptCommittxCreateWrapping crypto (call.committx fees.1) isLocal
  let asserted ← createToLocalSpentWrapping fees.1 call.htlcinfo (created.map Created.vout)
  pure ⟨fees.1, fees.2, created, asserted⟩

/-- The fee of the transaction that spends an HTLC output, in numbers without a bound. -/
def htlcFee (call : CommitCall) : LnHtlctype → ℕ
  | .offered => 663 * call.feeratePerKw.toNat / 1000
  | .received => 703 * call.feeratePerKw.toNat / 1000

end CommitCall

/-- The output that pays the fee. -/
def funderOrigin (isLocal : Bool) : Origin :=
  if isLocal then .tolocal else .toremote

def Created.isHtlc (out : Created) : Bool :=
  match out.origin with
  | .htlc _ => true
  | .tolocal => false
  | .toremote => false

/-- The HTLCs that have no output. -/
def trimmed (call : CommitCall) (created : List Created) : List LnScriptHtlcinfo :=
  (call.htlcinfo.zipIdx.filter fun entry =>
    created.all fun out => decide (out.origin ≠ .htlc entry.2)).map Prod.fst

/-- The total of the outputs. -/
def total (created : List Created) : ℕ :=
  (created.map fun out => out.vout.value.toNat).sum

/-- The two functions agree about the HTLCs that have an output, the outputs do not exceed what
is there, and each output is what its tag says. -/
structure Sound (call : CommitCall) (isLocal : Bool) (result : Commitment) : Prop where
  counted : result.feeinfo.commit.toNat =
    (724 + 172 * (result.created.filter Created.isHtlc).length) * call.feeratePerKw.toNat / 1000
  dusts : result.fee.toNat = result.feeinfo.commit.toNat +
    ((trimmed call result.created).map fun info => info.amountMsat.toNat / 1000).sum
  funded : total result.created ≤ call.fundSatoshi.toNat
  paid : (∃ out ∈ result.created, out.origin = funderOrigin isLocal) →
    total result.created + result.feeinfo.commit.toNat ≤ call.fundSatoshi.toNat
  worth : ∀ out ∈ result.created, ∀ lp, out.origin = .htlc lp →
    ∃ info, call.htlcinfo[lp]? = some info ∧
      call.dustLimitSatoshi.toNat + call.htlcFee info.type ≤ out.vout.value.toNat
  asserted : result.asserted = true
  tagged : ∀ out ∈ result.created, readOpt out.vout.opt = out.origin
  distinct : (result.created.map Created.origin).Nodup

/-! ### The loops in one piece -/

section Loops

variable {crypto : Crypto} {feeinfo : LnScriptFeeinfo} {htlcinfo : List LnScriptHtlcinfo}

/-- The least amount of an HTLC that has an output fits into 64 bits. -/
def LeastFits (feeinfo : LnScriptFeeinfo) (info : LnScriptHtlcinfo) : Prop :=
  feeinfo.dustLimitSatoshi.toNat + (feeinfo.htlcFee info.type).toNat < 2 ^ 64

/-- What `ln_script_fee_calc` makes of one HTLC. -/
def countHtlc (feeinfo : LnScriptFeeinfo) (acc : UInt64 × UInt64) (info : LnScriptHtlcinfo) :
    UInt64 × UInt64 :=
  if feeinfo.untrimmed info then (acc.1 + 172, acc.2)
  else (acc.1, acc.2 + info.amountMsat / 1000)

/-- What an HTLC adds to the outputs or to the dust. -/
def satoshi (info : LnScriptHtlcinfo) : ℕ :=
  info.amountMsat.toNat / 1000

theorem toNat_satoshi (info : LnScriptHtlcinfo) : (info.amountMsat / 1000).toNat = satoshi info :=
  UInt64.toNat_div info.amountMsat 1000

theorem wp_feeCalcLeast {info : LnScriptHtlcinfo} {post : UInt64 → Prop} :
    wp (feeCalcLeast feeinfo info) post ↔
      LeastFits feeinfo info ∧ post (feeinfo.dustLimitSatoshi + feeinfo.htlcFee info.type) := by
  rw [feeCalcLeast, LeastFits]
  cases info.type with
  | offered => exact wp_add64
  | received => exact wp_add64

theorem wp_feeCalcLoop {acc : UInt64 × UInt64} {post : UInt64 × UInt64 → Prop}
    (hcommit : acc.1.toNat + 172 * htlcinfo.length < 2 ^ 64)
    (hdusts : acc.2.toNat + (htlcinfo.map satoshi).sum < 2 ^ 64) :
    wp (feeCalcLoop feeinfo htlcinfo acc) post ↔
      (∀ info ∈ htlcinfo, LeastFits feeinfo info) ∧
        post (htlcinfo.foldl (countHtlc feeinfo) acc) := by
  induction htlcinfo generalizing acc with
  | nil => simp [feeCalcLoop]
  | cons info rest ih =>
      simp only [List.map_cons, List.sum_cons, List.length_cons] at hcommit hdusts
      have hweight : acc.1.toNat + (172 : UInt64).toNat < 2 ^ 64 := by
        change acc.1.toNat + 172 < 2 ^ 64
        omega
      have hdust : acc.2.toNat + (info.amountMsat / 1000).toNat < 2 ^ 64 := by
        rw [toNat_satoshi]
        omega
      have hkept : wp (feeCalcLoop feeinfo rest (acc.1 + 172, acc.2)) post ↔
          (∀ info ∈ rest, LeastFits feeinfo info) ∧
            post (rest.foldl (countHtlc feeinfo) (acc.1 + 172, acc.2)) := by
        apply ih
        · rw [toNat_add64 hweight]
          change acc.1.toNat + 172 + 172 * rest.length < 2 ^ 64
          omega
        · change acc.2.toNat + (rest.map satoshi).sum < 2 ^ 64
          omega
      have htrimmed : wp (feeCalcLoop feeinfo rest (acc.1, acc.2 + info.amountMsat / 1000)) post ↔
          (∀ info ∈ rest, LeastFits feeinfo info) ∧
            post (rest.foldl (countHtlc feeinfo) (acc.1, acc.2 + info.amountMsat / 1000)) := by
        apply ih
        · change acc.1.toNat + 172 * rest.length < 2 ^ 64
          omega
        · change (acc.2 + info.amountMsat / 1000).toNat + (rest.map satoshi).sum < 2 ^ 64
          rw [toNat_add64 hdust, toNat_satoshi]
          omega
      rw [feeCalcLoop, wp_bind, wp_feeCalcLeast, List.forall_mem_cons, List.foldl_cons, countHtlc,
        LnScriptFeeinfo.untrimmed, and_assoc]
      apply and_congr_right
      intro _
      by_cases hkeeps : info.amountMsat / 1000 ≥
          feeinfo.dustLimitSatoshi + feeinfo.htlcFee info.type
      · rw [if_pos hkeeps, if_pos (decide_eq_true hkeeps), wp_bind, wp_add64, hkept]
        exact and_iff_right hweight
      · rw [if_neg hkeeps, if_neg (by simpa using hkeeps), wp_bind, wp_add64, htrimmed]
        exact and_iff_right hdust

theorem foldl_countHtlc_weight {acc : UInt64 × UInt64}
    (hcommit : acc.1.toNat + 172 * htlcinfo.length < 2 ^ 64) :
    (htlcinfo.foldl (countHtlc feeinfo) acc).1.toNat =
      acc.1.toNat + 172 * (htlcinfo.filter feeinfo.untrimmed).length := by
  induction htlcinfo generalizing acc with
  | nil => rfl
  | cons info rest ih =>
      rw [List.length_cons] at hcommit
      have hweight : acc.1.toNat + (172 : UInt64).toNat < 2 ^ 64 := by
        change acc.1.toNat + 172 < 2 ^ 64
        omega
      have hsum : (acc.1 + 172).toNat = acc.1.toNat + 172 := toNat_add64 hweight
      rw [List.foldl_cons, countHtlc]
      by_cases hkeeps : feeinfo.untrimmed info = true
      · rw [if_pos hkeeps, ih (by simp only [hsum]; omega), List.filter_cons_of_pos hkeeps,
          List.length_cons, hsum]
        omega
      · rw [if_neg hkeeps, ih (by simp only; omega), List.filter_cons_of_neg hkeeps]

theorem foldl_countHtlc_dusts {acc : UInt64 × UInt64}
    (hdusts : acc.2.toNat + (htlcinfo.map satoshi).sum < 2 ^ 64) :
    (htlcinfo.foldl (countHtlc feeinfo) acc).2.toNat =
      acc.2.toNat + ((htlcinfo.filter fun info => !feeinfo.untrimmed info).map satoshi).sum := by
  induction htlcinfo generalizing acc with
  | nil => rfl
  | cons info rest ih =>
      rw [List.map_cons, List.sum_cons] at hdusts
      have hdust : acc.2.toNat + (info.amountMsat / 1000).toNat < 2 ^ 64 := by
        rw [toNat_satoshi]
        omega
      have hsum : (acc.2 + info.amountMsat / 1000).toNat = acc.2.toNat + satoshi info := by
        rw [toNat_add64 hdust, toNat_satoshi]
      rw [List.foldl_cons, countHtlc]
      by_cases hkeeps : feeinfo.untrimmed info = true
      · rw [if_pos hkeeps, ih (by simp only; omega), List.filter_cons_of_neg (by simp [hkeeps])]
      · rw [if_neg hkeeps, ih (by simp only [hsum]; omega),
          List.filter_cons_of_pos (by simp [hkeeps]), List.map_cons, List.sum_cons, hsum]
        omega

/-- The weight is that of `lnScriptFeeCalc`. -/
theorem foldl_countHtlc_fst (acc : UInt64 × UInt64) :
    (htlcinfo.foldl (countHtlc feeinfo) acc).1 = htlcinfo.foldl
      (fun commit info => if feeinfo.untrimmed info then commit + 172 else commit) acc.1 := by
  induction htlcinfo generalizing acc with
  | nil => rfl
  | cons info rest ih =>
      rw [List.foldl_cons, List.foldl_cons, ih, countHtlc]
      by_cases hkeeps : feeinfo.untrimmed info = true
      · rw [if_pos hkeeps, if_pos hkeeps]
      · rw [if_neg hkeeps, if_neg hkeeps]

/-- The output of one balance, if it is worth one. -/
def balanceVout (satoshi dust fee : UInt64) (script : Bytes) (opt : UInt8) (origin : Origin) :
    List Created :=
  if satoshi ≥ dust + fee then [⟨⟨satoshi - fee, script, opt⟩, origin⟩] else []

theorem wp_balanceOutput {satoshi dust fee : UInt64} {script : Bytes} {opt : UInt8}
    {origin : Origin} {post : List Created → Prop} :
    wp (balanceOutput satoshi dust fee script opt origin) post ↔
      dust.toNat + fee.toNat < 2 ^ 64 ∧ post (balanceVout satoshi dust fee script opt origin) := by
  rw [balanceOutput, wp_bind, wp_add64, balanceVout]
  apply and_congr_right
  intro hfits
  by_cases hpays : satoshi ≥ dust + fee
  · have hfee : fee.toNat ≤ satoshi.toNat := by
      have hle := UInt64.le_iff_toNat_le.mp hpays
      rw [toNat_add64 hfits] at hle
      omega
    rw [if_pos hpays, if_pos hpays, wp_bind, wp_sub64, wp_pure]
    exact and_iff_right hfee
  · rw [if_neg hpays, if_neg hpays, wp_pure]

/-- The HTLC outputs, all at once. -/
def keptOutputs (crypto : Crypto) (feeinfo : LnScriptFeeinfo) (htlcinfo : List LnScriptHtlcinfo)
    (lp : ℕ) : List Created :=
  ((htlcinfo.zipIdx lp).filter fun entry => feeinfo.untrimmed entry.1).map (htlcOutput crypto)

theorem wp_htlcOutputs {lp : ℕ} {post : List Created → Prop} :
    wp (htlcOutputs crypto feeinfo htlcinfo lp) post ↔
      (∀ info ∈ htlcinfo, LeastFits feeinfo info) ∧
        post (keptOutputs crypto feeinfo htlcinfo lp) := by
  induction htlcinfo generalizing lp post with
  | nil => simp [htlcOutputs, keptOutputs]
  | cons info rest ih =>
      have hfee : (match info.type with
          | .offered => feeinfo.htlcTimeout
          | .received => feeinfo.htlcSuccess) = feeinfo.htlcFee info.type := by
        cases info.type <;> rfl
      rw [htlcOutputs, hfee, wp_bind, wp_add64, wp_bind, ih, List.forall_mem_cons, and_assoc,
        keptOutputs, keptOutputs, List.zipIdx_cons]
      apply and_congr_right
      intro _
      apply and_congr_right
      intro _
      by_cases hkeeps : info.amountMsat / 1000 ≥
          feeinfo.dustLimitSatoshi + feeinfo.htlcFee info.type
      · rw [if_pos hkeeps, wp_pure, List.filter_cons_of_pos
          (by simpa [LnScriptFeeinfo.untrimmed] using hkeeps), List.map_cons]
      · rw [if_neg hkeeps, wp_pure,
          List.filter_cons_of_neg (by simpa [LnScriptFeeinfo.untrimmed] using hkeeps)]

end Loops

/-! ### The fees of a call -/

namespace CommitCall

variable (call : CommitCall)

/-- The fees as the model of `create_to_local` has them. -/
def feeinfo : LnScriptFeeinfo :=
  lnScriptFeeCalc call.feeratePerKw call.dustLimitSatoshi call.htlcinfo

/-- What has been counted of the HTLCs. -/
def counted : UInt64 × UInt64 :=
  call.htlcinfo.foldl (countHtlc call.feeinfo) (724, 0)

theorem feerate_lt : call.feeratePerKw.toUInt64.toNat < 2 ^ 32 := by
  rw [UInt32.toNat_toUInt64]
  exact call.feeratePerKw.toNat_lt

theorem mul_feerate {factor : UInt64} (hfactor : factor.toNat < 2 ^ 32) :
    factor.toNat * call.feeratePerKw.toUInt64.toNat < 2 ^ 64 := by
  have hmul := Nat.mul_lt_mul'' hfactor call.feerate_lt
  rwa [← Nat.pow_add] at hmul

theorem toNat_mul_feerate {factor : UInt64} (hfactor : factor.toNat < 2 ^ 32) :
    (factor * call.feeratePerKw.toUInt64 / 1000).toNat =
      factor.toNat * call.feeratePerKw.toNat / 1000 := by
  rw [UInt64.toNat_div, toNat_mul64 (call.mul_feerate hfactor), UInt32.toNat_toUInt64]
  rfl

theorem toNat_htlcFee (type : LnHtlctype) :
    (call.feeinfo.htlcFee type).toNat = call.htlcFee type := by
  cases type with
  | offered => exact call.toNat_mul_feerate (by decide)
  | received => exact call.toNat_mul_feerate (by decide)

theorem sum_satoshi_lt : (call.htlcinfo.map satoshi).sum < 2 ^ 63 := by
  have heach : ∀ sat ∈ call.htlcinfo.map satoshi, sat ≤ 2 ^ 64 / 1000 := by
    intro sat hmem
    obtain ⟨info, -, rfl⟩ := List.mem_map.mp hmem
    exact Nat.div_le_div_right info.amountMsat.toNat_lt.le
  have hsum := List.sum_le_card_nsmul _ _ heach
  have hcount : (call.htlcinfo.map satoshi).length ≤ 6 := by
    rw [List.length_map]
    exact call.count
  have hmul := Nat.mul_le_mul_right (2 ^ 64 / 1000) hcount
  simp only [smul_eq_mul] at hsum
  omega

theorem toNat_counted_fst : call.counted.1.toNat =
    724 + 172 * (call.htlcinfo.filter call.feeinfo.untrimmed).length := by
  apply foldl_countHtlc_weight
  have hcount := call.count
  change 724 + 172 * call.htlcinfo.length < 2 ^ 64
  rw [lnHtlcMax] at hcount
  omega

theorem counted_fst_lt : call.counted.1.toNat < 2 ^ 32 := by
  have hcount := call.count
  have hfilter := List.length_filter_le call.feeinfo.untrimmed call.htlcinfo
  rw [toNat_counted_fst]
  rw [lnHtlcMax] at hcount
  omega

theorem toNat_counted_snd : call.counted.2.toNat =
    ((call.htlcinfo.filter fun info => !call.feeinfo.untrimmed info).map satoshi).sum := by
  have hsum := call.sum_satoshi_lt
  have hdusts : (0 : UInt64).toNat + (call.htlcinfo.map satoshi).sum < 2 ^ 64 := by
    change 0 + _ < _
    omega
  rw [counted, foldl_countHtlc_dusts hdusts]
  exact Nat.zero_add _

theorem commit_eq : call.feeinfo.commit = call.counted.1 * call.feeratePerKw.toUInt64 / 1000 := by
  rw [counted, foldl_countHtlc_fst]
  rfl

theorem toNat_commit : call.feeinfo.commit.toNat =
    (724 + 172 * (call.htlcinfo.filter call.feeinfo.untrimmed).length) *
      call.feeratePerKw.toNat / 1000 := by
  rw [commit_eq, toNat_mul_feerate _ call.counted_fst_lt, toNat_counted_fst]

theorem commit_le : call.feeinfo.commit.toNat ≤ 2 ^ 64 / 1000 := by
  have hweight := call.mul_feerate call.counted_fst_lt
  rw [commit_eq, UInt64.toNat_div, toNat_mul64 hweight]
  exact Nat.div_le_div_right hweight.le

theorem fee_fits : call.feeinfo.commit.toNat + call.counted.2.toNat < 2 ^ 64 := by
  have hsum := call.sum_satoshi_lt
  have hcommit := call.commit_le
  have hdusts : call.counted.2.toNat ≤ (call.htlcinfo.map satoshi).sum := by
    rw [toNat_counted_snd]
    exact (List.filter_sublist.map satoshi).sum_le_sum fun _ _ => Nat.zero_le _
  omega

theorem wp_lnScriptFeeCalcWrapping {post : LnScriptFeeinfo × UInt64 → Prop} :
    wp (lnScriptFeeCalcWrapping call.feeratePerKw call.dustLimitSatoshi call.htlcinfo) post ↔
      (∀ info ∈ call.htlcinfo, LeastFits call.feeinfo info) ∧
        post (call.feeinfo, call.feeinfo.commit + call.counted.2) := by
  have hcount := call.count
  have hsum := call.sum_satoshi_lt
  have hcommit : (724 : UInt64).toNat + 172 * call.htlcinfo.length < 2 ^ 64 := by
    change 724 + _ < _
    rw [lnHtlcMax] at hcount
    omega
  have hdusts : (0 : UInt64).toNat + (call.htlcinfo.map satoshi).sum < 2 ^ 64 := by
    change 0 + _ < _
    omega
  rw [lnScriptFeeCalcWrapping, wp_bind, wp_mul64, wp_bind, wp_mul64, wp_bind,
    wp_feeCalcLoop hcommit hdusts, wp_bind, wp_mul64, wp_bind, wp_add64, wp_pure,
    and_iff_right (call.mul_feerate (by decide)), and_iff_right (call.mul_feerate (by decide))]
  apply and_congr_right
  intro _
  have hfee := call.fee_fits
  rw [commit_eq] at hfee ⊢
  change call.counted.1.toNat * call.feeratePerKw.toUInt64.toNat < 2 ^ 64 ∧
    (call.counted.1 * call.feeratePerKw.toUInt64 / 1000).toNat + call.counted.2.toNat < 2 ^ 64 ∧
      post ({ call.feeinfo with commit := call.counted.1 * call.feeratePerKw.toUInt64 / 1000 },
        call.counted.1 * call.feeratePerKw.toUInt64 / 1000 + call.counted.2) ↔ _
  rw [and_iff_right (call.mul_feerate call.counted_fst_lt), and_iff_right hfee, ← commit_eq]

/-- The dust limit and the fee of a commitment transaction without HTLCs fit into 64 bits. -/
def RoomForFee : Prop :=
  call.dustLimitSatoshi.toNat + 724 * call.feeratePerKw.toNat / 1000 < 2 ^ 64

variable {call}

theorem leastFits (hroom : call.RoomForFee) (info : LnScriptHtlcinfo) :
    LeastFits call.feeinfo info := by
  have hfee : call.htlcFee info.type ≤ 724 * call.feeratePerKw.toNat / 1000 := by
    cases info.type with
    | offered => exact Nat.div_le_div_right (Nat.mul_le_mul_right _ (by decide))
    | received => exact Nat.div_le_div_right (Nat.mul_le_mul_right _ (by decide))
  rw [LeastFits, toNat_htlcFee]
  exact (Nat.add_le_add_left hfee _).trans_lt hroom

theorem untrimmed_iff (hroom : call.RoomForFee) (info : LnScriptHtlcinfo) :
    call.feeinfo.untrimmed info = true ↔
      call.dustLimitSatoshi.toNat + call.htlcFee info.type ≤ satoshi info := by
  rw [LnScriptFeeinfo.untrimmed, decide_eq_true_iff, ge_iff_le, UInt64.le_iff_toNat_le,
    toNat_add64 (leastFits hroom info), toNat_htlcFee, toNat_satoshi]
  rfl

/-- An HTLC that has an output keeps the dust limit far below 64 bits. -/
theorem dust_add_commit_lt (hroom : call.RoomForFee) :
    call.dustLimitSatoshi.toNat + call.feeinfo.commit.toNat < 2 ^ 64 := by
  cases hkept : call.htlcinfo.filter call.feeinfo.untrimmed with
  | nil =>
      rw [toNat_commit, hkept]
      exact hroom
  | cons info rest =>
      have hmem : info ∈ call.htlcinfo.filter call.feeinfo.untrimmed := by
        rw [hkept]
        exact List.mem_cons_self
      have hworth := (untrimmed_iff hroom info).mp (List.mem_filter.mp hmem).2
      have hsat : satoshi info ≤ 2 ^ 64 / 1000 := Nat.div_le_div_right info.amountMsat.toNat_lt.le
      have hfee := call.commit_le
      omega

/-- Whatever is counted, the fee is that of a commitment transaction without HTLCs at least. -/
theorem roomForFee_of_lt (hlt : call.dustLimitSatoshi.toNat + call.feeinfo.commit.toNat < 2 ^ 64) :
    call.RoomForFee := by
  have hbase : 724 * call.feeratePerKw.toNat / 1000 ≤ call.feeinfo.commit.toNat := by
    rw [toNat_commit]
    exact Nat.div_le_div_right (Nat.mul_le_mul_right _ (Nat.le_add_right _ _))
  exact (Nat.add_le_add_left hbase _).trans_lt hlt

end CommitCall

/-! ### The outputs of a call -/

namespace CommitCall

variable (call : CommitCall) (crypto : Crypto) (isLocal : Bool)

def feeOf (pays : Bool) : UInt64 :=
  if pays then call.feeinfo.commit else 0

def toRemote : List Created :=
  balanceVout (call.remoteMsat / 1000) call.dustLimitSatoshi (call.feeOf !isLocal)
    (ScriptPk.p2wpkh (crypto.hash160 call.remotePubkey)).bytes lnHtlctypeToremote .toremote

def toLocal : List Created :=
  balanceVout (call.localMsat / 1000) call.dustLimitSatoshi (call.feeOf isLocal)
    (crypto.p2wsh call.localScript).bytes lnHtlctypeTolocal .tolocal

def htlcs : List Created :=
  keptOutputs crypto call.feeinfo call.htlcinfo 0

def vouts : List Created :=
  call.toRemote crypto isLocal ++ call.toLocal crypto isLocal ++ call.htlcs crypto

def sorted : List Created :=
  ExchangeSort.sortAt (fun _ _ out out' => TxSort.voutGreater out.vout out'.vout)
    (call.vouts crypto isLocal)

theorem sorted_perm : (call.sorted crypto isLocal).Perm (call.vouts crypto isLocal) :=
  ExchangeSort.sortAt_perm _ _

theorem wp_lnScriptCommittxCreateWrapping {post : List Created → Prop} :
    wp (lnScriptCommittxCreateWrapping crypto (call.committx call.feeinfo) isLocal) post ↔
      call.dustLimitSatoshi.toNat + call.feeinfo.commit.toNat < 2 ^ 64 ∧
        (∀ info ∈ call.htlcinfo, LeastFits call.feeinfo info) ∧
          post (call.sorted crypto isLocal) := by
  have hdust : call.dustLimitSatoshi.toNat + (0 : UInt64).toNat < 2 ^ 64 :=
    call.dustLimitSatoshi.toNat_lt
  rw [lnScriptCommittxCreateWrapping, wp_bind, committxVouts, wp_bind, wp_balanceOutput, wp_bind,
    wp_balanceOutput, wp_bind, wp_htlcOutputs, wp_pure, wp_pure]
  cases isLocal with
  | true => exact and_iff_right hdust
  | false =>
      apply and_congr_right
      intro _
      exact and_iff_right hdust

/-- What an output of the call can be. -/
theorem mem_vouts {out : Created} (hmem : out ∈ call.vouts crypto isLocal) :
    out ∈ call.toRemote crypto isLocal ∨ out ∈ call.toLocal crypto isLocal ∨
      ∃ info lp, call.htlcinfo[lp]? = some info ∧ call.feeinfo.untrimmed info = true ∧
        out = htlcOutput crypto (info, lp) := by
  rw [vouts, List.mem_append, List.mem_append, or_assoc] at hmem
  rcases hmem with hremote | hlocal | hhtlc
  · exact .inl hremote
  · exact .inr (.inl hlocal)
  · rw [htlcs, keptOutputs, List.mem_map] at hhtlc
    obtain ⟨entry, hentry, rfl⟩ := hhtlc
    obtain ⟨hzip, hkept⟩ := List.mem_filter.mp hentry
    exact .inr (.inr ⟨entry.1, entry.2, List.mem_zipIdx_iff_getElem?.mp hzip, hkept, rfl⟩)

end CommitCall

theorem mem_balanceVout {satoshi dust fee : UInt64} {script : Bytes} {opt : UInt8}
    {origin : Origin} {out : Created} :
    out ∈ balanceVout satoshi dust fee script opt origin ↔
      satoshi ≥ dust + fee ∧ out = ⟨⟨satoshi - fee, script, opt⟩, origin⟩ := by
  rw [balanceVout]
  split_ifs with hpays
  · rw [List.mem_singleton, and_iff_right hpays]
  · exact iff_of_false List.not_mem_nil fun h => hpays h.1

namespace CommitCall

variable {call : CommitCall} {crypto : Crypto} {isLocal : Bool}

theorem lt_of_getElem? {lp : ℕ} {info : LnScriptHtlcinfo}
    (hentry : call.htlcinfo[lp]? = some info) : lp < 6 := by
  obtain ⟨hlt, -⟩ := List.getElem?_eq_some_iff.mp hentry
  exact hlt.trans_le call.count

/-- The position of an HTLC is no role marker. -/
theorem readOpt_of_lt : ∀ lp < 6, readOpt lp.toUInt8 = .htlc lp := by
  decide

theorem readOpt_of_mem {out : Created} (hmem : out ∈ call.vouts crypto isLocal) :
    readOpt out.vout.opt = out.origin := by
  rcases call.mem_vouts crypto isLocal hmem with hremote | hlocal | ⟨info, lp, hentry, -, rfl⟩
  · obtain ⟨-, rfl⟩ := mem_balanceVout.mp hremote
    rfl
  · obtain ⟨-, rfl⟩ := mem_balanceVout.mp hlocal
    rfl
  · exact readOpt_of_lt lp (lt_of_getElem? hentry)

theorem entry_of_mem {out : Created} (hmem : out ∈ call.vouts crypto isLocal) {lp : ℕ}
    (horigin : out.origin = .htlc lp) :
    ∃ info, call.htlcinfo[lp]? = some info ∧ call.feeinfo.untrimmed info = true ∧
      out.vout.value = info.amountMsat / 1000 := by
  rcases call.mem_vouts crypto isLocal hmem with hremote | hlocal | ⟨info, lp', hentry, hkept, rfl⟩
  · obtain ⟨-, rfl⟩ := mem_balanceVout.mp hremote
    cases horigin
  · obtain ⟨-, rfl⟩ := mem_balanceVout.mp hlocal
    cases horigin
  · cases horigin
    exact ⟨info, hentry, hkept, rfl⟩

/-- The assertion holds at each output, and nothing wraps around on the way. -/
theorem wp_createToLocalSpentWrapping (hroom : call.RoomForFee) {created : List Created}
    (hmem : ∀ out ∈ created, out ∈ call.vouts crypto isLocal) {post : Bool → Prop} :
    wp (createToLocalSpentWrapping call.feeinfo call.htlcinfo (created.map Created.vout)) post ↔
      post true := by
  induction created with
  | nil => rw [List.map_nil, createToLocalSpentWrapping, wp_pure]
  | cons out rest ih =>
      obtain ⟨hout, hrest⟩ := List.forall_mem_cons.mp hmem
      have hread := readOpt_of_mem hout
      rw [List.map_cons, createToLocalSpentWrapping, hread]
      cases horigin : out.origin with
      | tolocal => exact ih hrest
      | toremote => exact ih hrest
      | htlc lp =>
          obtain ⟨info, hentry, hkept, hvalue⟩ := entry_of_mem hout horigin
          have hleast := leastFits hroom info
          have hworth : info.amountMsat / 1000 ≥
              call.feeinfo.dustLimitSatoshi + call.feeinfo.htlcFee info.type :=
                of_decide_eq_true hkept
          have hfee : (call.feeinfo.htlcFee info.type).toNat ≤ (info.amountMsat / 1000).toNat := by
            have hle := UInt64.le_iff_toNat_le.mp hworth
            rw [toNat_add64 hleast] at hle
            omega
          simp only [hentry]
          rw [wp_bind, wp_add64, hvalue, if_pos hworth, wp_bind, wp_sub64, ih hrest,
            and_iff_right hfee]
          exact and_iff_right hleast

/-- What the whole call comes to. -/
theorem wp_run (hroom : call.RoomForFee) {post : Commitment → Prop} :
    wp (call.run crypto isLocal) post ↔ post ⟨call.feeinfo,
      call.feeinfo.commit + call.counted.2, call.sorted crypto isLocal, true⟩ := by
  have hleast : ∀ info ∈ call.htlcinfo, LeastFits call.feeinfo info := fun info _ =>
    leastFits hroom info
  rw [run, wp_bind, wp_lnScriptFeeCalcWrapping, wp_bind, wp_lnScriptCommittxCreateWrapping, wp_bind,
    wp_createToLocalSpentWrapping hroom fun out => (call.sorted_perm crypto isLocal).mem_iff.mp,
    wp_pure, and_iff_right hleast, and_iff_right (dust_add_commit_lt hroom), and_iff_right hleast]

theorem roomForFee_of_wp {post : Commitment → Prop} (hrun : wp (call.run crypto isLocal) post) :
    call.RoomForFee := by
  rw [run, wp_bind, wp_lnScriptFeeCalcWrapping, wp_bind, wp_lnScriptCommittxCreateWrapping] at hrun
  exact roomForFee_of_lt hrun.2.1

end CommitCall

/-! ### What the outputs come to -/

theorem total_append (created created' : List Created) :
    total (created ++ created') = total created + total created' := by
  rw [total, List.map_append, List.sum_append]
  rfl

theorem total_perm {created created' : List Created} (hperm : created.Perm created') :
    total created = total created' :=
  (hperm.map _).sum_eq

theorem total_balanceVout_le {satoshi dust fee : UInt64} {script : Bytes} {opt : UInt8}
    {origin : Origin} (hfits : dust.toNat + fee.toNat < 2 ^ 64) :
    total (balanceVout satoshi dust fee script opt origin) ≤ satoshi.toNat ∧
      ((∃ out, out ∈ balanceVout satoshi dust fee script opt origin) →
        total (balanceVout satoshi dust fee script opt origin) + fee.toNat ≤ satoshi.toNat) := by
  by_cases hpays : satoshi ≥ dust + fee
  · have hle := UInt64.le_iff_toNat_le.mp hpays
    rw [toNat_add64 hfits] at hle
    have hfee : fee ≤ satoshi := UInt64.le_iff_toNat_le.mpr (by omega)
    rw [balanceVout, if_pos hpays, total, List.map_singleton, List.sum_singleton,
      UInt64.toNat_sub_of_le satoshi fee hfee]
    exact ⟨Nat.sub_le _ _, fun _ => (Nat.sub_add_cancel (by omega)).le⟩
  · rw [balanceVout, if_neg hpays]
    exact ⟨Nat.zero_le _, fun ⟨_, hout⟩ => absurd hout List.not_mem_nil⟩

theorem map_fst_filter_zipIdx (keeps : LnScriptHtlcinfo → Bool)
    (htlcinfo : List LnScriptHtlcinfo) (lp : ℕ) :
    ((htlcinfo.zipIdx lp).filter fun entry => keeps entry.1).map Prod.fst =
      htlcinfo.filter keeps := by
  have hfilter := List.filter_map (f := Prod.fst) (p := keeps) (l := htlcinfo.zipIdx lp)
  rw [List.zipIdx_map_fst] at hfilter
  exact hfilter.symm

theorem length_keptOutputs (crypto : Crypto) (feeinfo : LnScriptFeeinfo)
    (htlcinfo : List LnScriptHtlcinfo) (lp : ℕ) :
    (keptOutputs crypto feeinfo htlcinfo lp).length =
      (htlcinfo.filter feeinfo.untrimmed).length := by
  rw [keptOutputs, List.length_map, ← map_fst_filter_zipIdx feeinfo.untrimmed htlcinfo lp,
    List.length_map]

theorem total_keptOutputs (crypto : Crypto) (feeinfo : LnScriptFeeinfo)
    (htlcinfo : List LnScriptHtlcinfo) (lp : ℕ) :
    total (keptOutputs crypto feeinfo htlcinfo lp) =
      ((htlcinfo.filter feeinfo.untrimmed).map satoshi).sum := by
  rw [total, keptOutputs, List.map_map, ← map_fst_filter_zipIdx feeinfo.untrimmed htlcinfo lp,
    List.map_map]
  exact congrArg List.sum (List.map_congr_left fun entry _ => toNat_satoshi entry.1)

theorem sum_satoshi_le (htlcinfo : List LnScriptHtlcinfo) :
    1000 * (htlcinfo.map satoshi).sum ≤ (htlcinfo.map fun info => info.amountMsat.toNat).sum := by
  induction htlcinfo with
  | nil => exact le_rfl
  | cons info rest ih =>
      rw [List.map_cons, List.sum_cons, List.map_cons, List.sum_cons, Nat.mul_add, satoshi]
      exact Nat.add_le_add (Nat.mul_div_le _ _) ih

namespace CommitCall

variable {call : CommitCall} {crypto : Crypto} {isLocal : Bool}

/-- What the satoshi amounts of the two balances and of the HTLCs come to. -/
theorem funds_satoshi : (call.remoteMsat / 1000).toNat + (call.localMsat / 1000).toNat +
    ((call.htlcinfo.filter call.feeinfo.untrimmed).map satoshi).sum ≤ call.fundSatoshi.toNat := by
  have hfunds := call.funds
  have hsum := sum_satoshi_le call.htlcinfo
  have hkept : ((call.htlcinfo.filter call.feeinfo.untrimmed).map satoshi).sum ≤
      (call.htlcinfo.map satoshi).sum :=
    (List.filter_sublist.map satoshi).sum_le_sum fun _ _ => Nat.zero_le _
  have hremote : (call.remoteMsat / 1000).toNat = call.remoteMsat.toNat / 1000 :=
    UInt64.toNat_div _ _
  have hlocal : (call.localMsat / 1000).toNat = call.localMsat.toNat / 1000 :=
    UInt64.toNat_div _ _
  omega

theorem feeOf_fits (hroom : call.RoomForFee) (pays : Bool) :
    call.dustLimitSatoshi.toNat + (call.feeOf pays).toNat < 2 ^ 64 := by
  cases pays with
  | true => exact dust_add_commit_lt hroom
  | false => exact call.dustLimitSatoshi.toNat_lt

theorem total_sorted : total (call.sorted crypto isLocal) =
    total (call.toRemote crypto isLocal) + total (call.toLocal crypto isLocal) +
      ((call.htlcinfo.filter call.feeinfo.untrimmed).map satoshi).sum := by
  rw [total_perm (call.sorted_perm crypto isLocal), vouts, total_append, total_append, htlcs,
    total_keptOutputs]

theorem total_toRemote (hroom : call.RoomForFee) :
    total (call.toRemote crypto isLocal) ≤ (call.remoteMsat / 1000).toNat ∧
      ((∃ out, out ∈ call.toRemote crypto isLocal) → total (call.toRemote crypto isLocal) +
        (call.feeOf !isLocal).toNat ≤ (call.remoteMsat / 1000).toNat) :=
  total_balanceVout_le (feeOf_fits hroom _)

theorem total_toLocal (hroom : call.RoomForFee) :
    total (call.toLocal crypto isLocal) ≤ (call.localMsat / 1000).toNat ∧
      ((∃ out, out ∈ call.toLocal crypto isLocal) → total (call.toLocal crypto isLocal) +
        (call.feeOf isLocal).toNat ≤ (call.localMsat / 1000).toNat) :=
  total_balanceVout_le (feeOf_fits hroom _)

theorem total_le (hroom : call.RoomForFee) :
    total (call.sorted crypto isLocal) ≤ call.fundSatoshi.toNat := by
  have hremote := (@total_toRemote call crypto isLocal hroom).1
  have hlocal := (@total_toLocal call crypto isLocal hroom).1
  have hfunds := @funds_satoshi call
  rw [total_sorted]
  omega

theorem origin_toRemote {out : Created} (hmem : out ∈ call.toRemote crypto isLocal) :
    out.origin = .toremote := by
  obtain ⟨-, rfl⟩ := mem_balanceVout.mp hmem
  rfl

theorem origin_toLocal {out : Created} (hmem : out ∈ call.toLocal crypto isLocal) :
    out.origin = .tolocal := by
  obtain ⟨-, rfl⟩ := mem_balanceVout.mp hmem
  rfl

/-- The output of the funder has the fee taken off. -/
theorem total_add_commit_le (hroom : call.RoomForFee) {out : Created}
    (hmem : out ∈ call.vouts crypto isLocal) (horigin : out.origin = funderOrigin isLocal) :
    total (call.sorted crypto isLocal) + call.feeinfo.commit.toNat ≤ call.fundSatoshi.toNat := by
  have hremote := @total_toRemote call crypto isLocal hroom
  have hlocal := @total_toLocal call crypto isLocal hroom
  have hfunds := @funds_satoshi call
  rw [total_sorted]
  rcases call.mem_vouts crypto isLocal hmem with hout | hout | ⟨info, lp, -, -, rfl⟩
  · have hpaid := hremote.2 ⟨out, hout⟩
    rw [origin_toRemote hout] at horigin
    cases isLocal with
    | true => cases horigin
    | false =>
        change _ + call.feeinfo.commit.toNat ≤ _ at hpaid
        omega
  · have hpaid := hlocal.2 ⟨out, hout⟩
    rw [origin_toLocal hout] at horigin
    cases isLocal with
    | false => cases horigin
    | true =>
        change _ + call.feeinfo.commit.toNat ≤ _ at hpaid
        omega
  · cases isLocal <;> cases horigin

/-- The outputs that are tagged with an HTLC. -/
theorem filter_isHtlc : ((call.sorted crypto isLocal).filter Created.isHtlc).length =
    (call.htlcinfo.filter call.feeinfo.untrimmed).length := by
  have hremote : (call.toRemote crypto isLocal).filter Created.isHtlc = [] := by
    apply List.filter_eq_nil_iff.mpr
    intro out hout
    rw [Created.isHtlc, origin_toRemote hout]
    exact Bool.false_ne_true
  have hlocal : (call.toLocal crypto isLocal).filter Created.isHtlc = [] := by
    apply List.filter_eq_nil_iff.mpr
    intro out hout
    rw [Created.isHtlc, origin_toLocal hout]
    exact Bool.false_ne_true
  have hhtlcs : (call.htlcs crypto).filter Created.isHtlc = call.htlcs crypto := by
    apply List.filter_eq_self.mpr
    intro out hout
    obtain ⟨entry, -, rfl⟩ := List.mem_map.mp hout
    rfl
  rw [((call.sorted_perm crypto isLocal).filter _).length_eq, vouts, List.filter_append,
    List.filter_append, hremote, hlocal, hhtlcs]
  exact length_keptOutputs crypto call.feeinfo call.htlcinfo 0

theorem mem_vouts_htlc {info : LnScriptHtlcinfo} {lp : ℕ}
    (hentry : call.htlcinfo[lp]? = some info) :
    (∃ out ∈ call.vouts crypto isLocal, out.origin = .htlc lp) ↔
      call.feeinfo.untrimmed info = true := by
  constructor
  · rintro ⟨out, hmem, horigin⟩
    obtain ⟨info', hentry', hkept, -⟩ := entry_of_mem hmem horigin
    obtain rfl := Option.some.inj (hentry.symm.trans hentry')
    exact hkept
  · intro hkept
    refine ⟨htlcOutput crypto (info, lp), List.mem_append_right _ (List.mem_map_of_mem ?_), rfl⟩
    exact List.mem_filter.mpr ⟨List.mem_zipIdx_iff_getElem?.mpr hentry, hkept⟩

/-- The HTLCs without an output are those that were counted as dust. -/
theorem trimmed_sorted : trimmed call (call.sorted crypto isLocal) =
    call.htlcinfo.filter fun info => !call.feeinfo.untrimmed info := by
  rw [trimmed, ← map_fst_filter_zipIdx _ call.htlcinfo 0]
  apply congrArg (List.map Prod.fst)
  apply List.filter_congr
  intro entry hentry
  have hkept := @mem_vouts_htlc call crypto isLocal entry.1 entry.2
    (List.mem_zipIdx_iff_getElem?.mp hentry)
  rw [Bool.eq_iff_iff, List.all_eq_true, Bool.not_eq_true', ← Bool.not_eq_true, ← hkept]
  simp [(call.sorted_perm crypto isLocal).mem_iff]

theorem nodup_balanceVout {satoshi dust fee : UInt64} {script : Bytes} {opt : UInt8}
    {origin : Origin} :
    ((balanceVout satoshi dust fee script opt origin).map Created.origin).Nodup := by
  rw [balanceVout]
  split_ifs
  · exact List.nodup_singleton _
  · exact List.nodup_nil

theorem nodup_htlcs : ((call.htlcs crypto).map Created.origin).Nodup := by
  have hmap : (call.htlcs crypto).map Created.origin =
      ((call.htlcinfo.zipIdx.filter fun entry => call.feeinfo.untrimmed entry.1).map
        Prod.snd).map Origin.htlc := by
    rw [htlcs, keptOutputs, List.map_map, List.map_map]
    rfl
  have hindices : (call.htlcinfo.zipIdx.map Prod.snd).Nodup := by
    rw [List.zipIdx_map_snd]
    exact List.nodup_range'
  rw [hmap]
  refine List.Nodup.map (fun _ _ => Origin.htlc.inj) ?_
  exact hindices.sublist (List.filter_sublist.map Prod.snd)

/-- No two outputs are created from one thing. -/
theorem nodup_sorted : ((call.sorted crypto isLocal).map Created.origin).Nodup := by
  rw [((call.sorted_perm crypto isLocal).map Created.origin).nodup_iff, vouts, List.map_append,
    List.map_append]
  refine List.Nodup.append (List.Nodup.append nodup_balanceVout nodup_balanceVout ?_) nodup_htlcs ?_
  · intro origin hremote hlocal
    obtain ⟨out, hout, rfl⟩ := List.mem_map.mp hremote
    obtain ⟨out', hout', heq⟩ := List.mem_map.mp hlocal
    rw [origin_toRemote hout, origin_toLocal hout'] at heq
    cases heq
  · intro origin hbalance hhtlc
    obtain ⟨out', hout', rfl⟩ := List.mem_map.mp hhtlc
    obtain ⟨entry, -, rfl⟩ := List.mem_map.mp hout'
    rcases List.mem_append.mp hbalance with hremote | hlocal
    · obtain ⟨out, hout, heq⟩ := List.mem_map.mp hremote
      rw [origin_toRemote hout] at heq
      cases heq
    · obtain ⟨out, hout, heq⟩ := List.mem_map.mp hlocal
      rw [origin_toLocal hout] at heq
      cases heq

theorem sound (hroom : call.RoomForFee) : Sound call isLocal ⟨call.feeinfo,
    call.feeinfo.commit + call.counted.2, call.sorted crypto isLocal, true⟩ where
  counted := by
    simp only [filter_isHtlc]
    exact call.toNat_commit
  dusts := by
    simp only [trimmed_sorted]
    rw [toNat_add64 call.fee_fits, toNat_counted_snd]
    rfl
  funded := total_le hroom
  paid := by
    rintro ⟨out, hmem, horigin⟩
    exact total_add_commit_le hroom ((call.sorted_perm crypto isLocal).mem_iff.mp hmem) horigin
  worth := by
    intro out hmem lp horigin
    obtain ⟨info, hentry, hkept, hvalue⟩ :=
      entry_of_mem ((call.sorted_perm crypto isLocal).mem_iff.mp hmem) horigin
    refine ⟨info, hentry, ?_⟩
    rw [hvalue, toNat_satoshi]
    exact (untrimmed_iff hroom info).mp hkept
  asserted := rfl
  tagged := fun _ hmem => readOpt_of_mem ((call.sorted_perm crypto isLocal).mem_iff.mp hmem)
  distinct := nodup_sorted

end CommitCall

/-! ### The outputs of `create_to_local` -/

/-- What the transaction carries of an output. -/
def Created.wire (out : Created) : UInt64 × Bytes :=
  (out.vout.value, out.vout.script)

theorem map_wire_keptOutputs (crypto : Crypto) (feeinfo : LnScriptFeeinfo)
    (htlcinfo : List LnScriptHtlcinfo) (lp : ℕ) :
    (keptOutputs crypto feeinfo htlcinfo lp).map Created.wire =
      (htlcinfo.filter feeinfo.untrimmed).map fun info =>
        (info.amountMsat / 1000, (crypto.p2wsh info.script).bytes) := by
  rw [keptOutputs, List.map_map, ← map_fst_filter_zipIdx feeinfo.untrimmed htlcinfo lp,
    List.map_map]
  rfl

theorem map_wire_balanceVout {satoshi dust fee : UInt64} {script : ScriptPk} {opt : UInt8}
    {origin : Origin} (role : VoutOpt) :
    (balanceVout satoshi dust fee script.bytes opt origin).map Created.wire =
      (if satoshi ≥ dust + fee then [⟨satoshi - fee, script, role⟩] else []).map BtcVout.wire := by
  rw [balanceVout]
  split_ifs <;> rfl

namespace CommitCall

theorem map_wire_vouts (call : CommitCall) (crypto : Crypto) (isLocal : Bool) :
    (call.vouts crypto isLocal).map Created.wire =
      ((call.committx call.feeinfo).outputs crypto isLocal).map BtcVout.wire := by
  have hhtlcs : (call.htlcs crypto).map Created.wire =
      ((call.htlcinfo.filter call.feeinfo.untrimmed).map fun info =>
        (⟨info.amountMsat / 1000, crypto.p2wsh info.script, .htlc info⟩ : BtcVout)).map
          BtcVout.wire := by
    rw [htlcs, map_wire_keptOutputs, List.map_map]
    rfl
  rw [vouts, List.map_append, List.map_append, LnScriptCommittx.outputs, List.map_append,
    List.map_append, toRemote, toLocal, map_wire_balanceVout .toremote,
    map_wire_balanceVout .tolocal, hhtlcs]
  cases isLocal <;> rfl

/-- Where nothing wraps around, the call makes the fees and the outputs that the model of
`create_to_local` has. -/
theorem run_refines {call : CommitCall} (crypto : Crypto) (isLocal : Bool)
    (hroom : call.RoomForFee) : wp (call.run crypto isLocal) fun result =>
      result.feeinfo = call.feeinfo ∧
        (result.created.map Created.wire).Perm
          (lnScriptCommittxCreate crypto (call.committx call.feeinfo) isLocal).tx.vout := by
  rw [wp_run hroom]
  refine ⟨rfl, ((call.sorted_perm crypto isLocal).map _).trans ?_⟩
  rw [map_wire_vouts]
  exact ((ExchangeSort.sort_perm _ _).map _).symm

end CommitCall

/-- No operation of the three functions wraps around, and what they come to is sound, if and only
if the dust limit leaves room for the fee of a commitment transaction without HTLCs. -/
theorem commitArithmetic_iff (call : CommitCall) (crypto : Crypto) (isLocal : Bool) :
    wp (call.run crypto isLocal) (Sound call isLocal) ↔ call.RoomForFee := by
  constructor
  · exact CommitCall.roomForFee_of_wp
  · intro hroom
    exact (CommitCall.wp_run hroom).mpr (CommitCall.sound hroom)

/-- A call with the largest dust limit and a funder who lacks one satoshi of the fee. -/
def hugeDust : CommitCall where
  feeratePerKw := 1000
  dustLimitSatoshi := 0xffffffffffffffff
  fundTxid := List.replicate 32 1
  fundTxidIndex := 0
  fundSatoshi := 723
  fundScript := []
  localMsat := 723000
  localScript := []
  remoteMsat := 0
  remotePubkey := []
  obscured := 0
  htlcinfo := []
  count := by decide
  funds := by decide

/-- The funder's output holds all but one of the satoshis that 64 bits can say. -/
theorem not_commitArithmetic_hugeDust :
    ¬ wp (hugeDust.run .symbolic true) (Sound hugeDust true) ∧
      (hugeDust.run .symbolic true).value.created.map (fun out => out.vout.value) =
        [0xffffffffffffffff] := by
  constructor
  · intro hright
    exact absurd (CommitCall.roomForFee_of_wp hright) (by unfold CommitCall.RoomForFee; decide)
  · rfl

end CommitArithmetic

end Ptarmigan
