/-
The checks of a received HTLC against what its onion says: `check_recv_add_htlc_bolt4_final` and
`check_recv_add_htlc_bolt4_forward`.
-/
import Ptarmigan.Library.Wrapping
import Ptarmigan.AnnounceMsg
import Ptarmigan.Channel
import Ptarmigan.Onion

namespace Ptarmigan

open Wrapping

/-! ### What the checks look at -/

/-- `anno_prm`, as far as the checks use it. -/
structure AnnoPrm where
  cltvExpiryDelta : UInt16
  feeBaseMsat : UInt32
  feePropMillionths : UInt32
deriving DecidableEq, Repr

/-- `ln_cltv_expily_delta`. -/
def AnnoPrm.lnCltvExpilyDelta (prm : AnnoPrm) : UInt32 := prm.cltvExpiryDelta.toUInt32

/-- `ln_forward_fee`. -/
def AnnoPrm.lnForwardFee (prm : AnnoPrm) (amountMsat : UInt64) : Wrapping UInt64 := do
  let product ← mul64 amountMsat prm.feePropMillionths.toUInt64
  add64 prm.feeBaseMsat.toUInt64 (product / 1000000)

/-- `preimg_info_t` with its key. -/
structure PreimgInfo where
  preimage : Bytes
  amountMsat : UInt64
  creation : UInt64
  expiry : UInt32
deriving DecidableEq, Repr

/-- `ln_db_preimg_cur_get` takes the preimage for one that has not expired. -/
def PreimgInfo.detect (info : PreimgInfo) (now : UInt64) : Bool :=
  info.expiry == 0xffffffff || decide (now ≤ info.creation + info.expiry.toUInt64)

/-- The channel that an HTLC is forwarded to, `p_next_self`. -/
structure NextSelf where
  status : LnStatus
  /-- `commit_remote.htlc_minimum_msat`. -/
  htlcMinimumMsat : UInt64
  annoPrm : AnnoPrm

/-- What the node has besides the channel: its policy, the preimages, its other channels and the
announce database. -/
structure Bolt4Env where
  annoPrm : AnnoPrm
  now : UInt64
  /-- What `ln_db_preimg_cur_open` opens, if it does. -/
  preimgs : Option (List PreimgInfo)
  /-- `LN_CB_ADD_HTLC_RECV_PREV`. -/
  nextSelf : UInt64 → Option NextSelf
  ownNodeId : Bytes
  /-- `ln_node_search_nodeid`. -/
  searchNodeid : UInt64 → Option Bytes
  /-- `ln_db_annocnlupd_load`. -/
  annocnlupdLoad : UInt64 → UInt8 → Option Bytes
  wire : WireEnv

/-- `M_SET_ERR` with `LNERR_INV_VALUE`. -/
structure InvValue where
  format : String
  operands : List Nat
deriving DecidableEq, Repr

/-- How a check ends: with the error that it leaves and the reason that it pushes. -/
structure Bolt4Check where
  ret : Bool
  err : Option InvValue := none
  reason : Bytes := []
  preimage : Bytes := []
  /-- The preimages that are left in the database, where they have been looked at. -/
  preimgs : Option (List PreimgInfo) := none
deriving DecidableEq, Repr

/-- The codes of `LNONION_xxx` that the checks push. -/
inductive OnionReason
  | unknownNextPeer
  | amtBelowMin
  | feeInsufficient
  | incorrCltvExpiry
  | expiryTooSoon
  | expiryTooFar
  | unknownPayHash
  | incorrPayAmt
  | finalExpiryTooSoon
  | finalIncorrCltvExp
  | finalIncorrHtlcAmt
deriving DecidableEq, Repr

/-- `LNERR_ONION_PERM` and `LNERR_ONION_UPDATE` are the bits 14 and 12. -/
def OnionReason.code : OnionReason → UInt16
  | unknownNextPeer => 0x4000 ||| 10
  | amtBelowMin => 0x1000 ||| 11
  | feeInsufficient => 0x1000 ||| 12
  | incorrCltvExpiry => 0x1000 ||| 13
  | expiryTooSoon => 0x1000 ||| 14
  | expiryTooFar => 21
  | unknownPayHash => 0x4000 ||| 15
  | incorrPayAmt => 0x4000 ||| 16
  | finalExpiryTooSoon => 17
  | finalIncorrCltvExp => 18
  | finalIncorrHtlcAmt => 19

/-- A check that fails. -/
def Bolt4Check.failed (format : String) (operands : List Nat) (reason : OnionReason)
    (data : Bytes := []) : Bolt4Check where
  ret := false
  err := some ⟨format, operands⟩
  reason := lnMiscPush16be reason.code ++ data

/-! ### `check_recv_add_htlc_bolt4_final` -/

/-- The loop over the preimages, up to the first one of the payment; `ln_db_preimg_cur_get` deletes
those that have expired. -/
def preimgCurSearch (crypto : Crypto) (now : UInt64) (paymentSha256 : Bytes) :
    List PreimgInfo → Option PreimgInfo × List PreimgInfo
  | [] => (none, [])
  | info :: rest =>
      if info.detect now then
        if crypto.sha256 info.preimage = paymentSha256 then (some info, info :: rest)
        else
          let (found, kept) := preimgCurSearch crypto now paymentSha256 rest
          (found, info :: kept)
      else preimgCurSearch crypto now paymentSha256 rest

section Checks

variable (crypto : Crypto) (env : Bolt4Env) (hop : LnHopDataout) (htlc : LnUpdateAddHtlc)
  (height : Int32)

/-- The preimage that the search stops at. -/
def Bolt4Env.preimg : Option PreimgInfo :=
  (preimgCurSearch crypto env.now htlc.paymentSha256 (env.preimgs.getD [])).1

/-- `M_HYSTE_CLTV_EXPIRY_MIN`, `M_HYSTE_CLTV_EXPIRY_SOON`, `M_HYSTE_CLTV_EXPIRY_FAR` and
`LN_MIN_FINAL_CLTV_EXPIRY`. -/
def hysteCltvExpiryMin : UInt32 := 7
def hysteCltvExpirySoon : UInt32 := 1
def hysteCltvExpiryFar : UInt32 := 144 * 15
def lnMinFinalCltvExpiry : UInt32 := 9

/-- The two comparisons of an expiry that must not be near; the second one is not made when the
first one holds. -/
def expirySoon (expiry delta : UInt32) : Wrapping Bool := do
  let later ← add32 expiry hysteCltvExpirySoon
  let due ← add32 height.toUInt32 delta
  if later < due then pure true
  else do
    let least ← add32 height.toUInt32 hysteCltvExpiryMin
    pure (decide (expiry < least))

/-- The part of `check_recv_add_htlc_bolt4_final` behind the search. -/
def checkFinalPreimg (preimg : PreimgInfo) : Wrapping Bolt4Check := do
  if htlc.amountMsat < preimg.amountMsat then
    pure (.failed "incorrect_payment_amount(final) : %PRIu64 < %PRIu64"
      [hop.amtToForward.toNat, preimg.amountMsat.toNat] .incorrPayAmt)
  else do
    let twice ← mul64 preimg.amountMsat 2
    if twice < htlc.amountMsat then
      pure (.failed "large amount_msat : %PRIu64 < %PRIu64"
        [twice.toNat, hop.amtToForward.toNat] .incorrPayAmt)
    else do
      let soon ← expirySoon height hop.outgoingCltvValue lnMinFinalCltvExpiry
      if soon then pure (.failed "cltv_expiry too soon(final)" [] .finalExpiryTooSoon)
      else if hop.outgoingCltvValue ≠ htlc.cltvExpiry then
        pure (.failed "incorrect cltv expiry(final)" [] .finalIncorrCltvExp
          (lnMiscPush32be hop.outgoingCltvValue))
      else if htlc.amountMsat < hop.amtToForward then
        pure (.failed "incorrect_payment_amount(final)" [] .finalIncorrHtlcAmt
          (lnMiscPush32be htlc.amountMsat.toUInt32))
      else pure { ret := true, preimage := preimg.preimage }

/-- `check_recv_add_htlc_bolt4_final`. -/
def checkRecvAddHtlcBolt4Final : Wrapping Bolt4Check := do
  let check ← match env.preimg crypto htlc with
    | none => pure (.failed "preimage mismatch" [] .unknownPayHash)
    | some preimg => checkFinalPreimg hop htlc height preimg
  pure { check with preimgs := env.preimgs.map fun infos =>
    (preimgCurSearch crypto env.now htlc.paymentSha256 infos).2 }

/-! ### `check_recv_add_htlc_bolt4_forward` -/

/-- The channel to forward to, if it is there and normal. -/
def Bolt4Env.nextChannel : Option NextSelf :=
  if hop.shortChannelId = 0 then none
  else (env.nextSelf hop.shortChannelId).filter fun next => next.status == .normal

/-- The own `channel_update` of that channel, as it is stored and as it is read. -/
def Bolt4Env.nextUpdate : Option (Bytes × CnlUpdateMsg) := do
  let peerId ← env.searchNodeid hop.shortChannelId
  let dir : UInt8 := if env.ownNodeId < peerId then 0 else 1
  let buf ← env.annocnlupdLoad hop.shortChannelId dir
  match (lnMsgCnlUpdateRead env.wire).run buf with
  | .done cnlupd _ => some (buf, cnlupd)
  | _ => none

/-- A reason that carries a `channel_update`. -/
def updateData (cnlupdBuf : Bytes) : Bytes :=
  lnMiscPush16be cnlupdBuf.length.toUInt16 ++ cnlupdBuf

/-- The part of `check_recv_add_htlc_bolt4_forward` behind the fee. -/
def checkForwardCltv (next : NextSelf) (cnlupdBuf : Bytes) (cnlupd : CnlUpdateMsg) :
    Wrapping Bolt4Check := do
  let delta := next.annoPrm.lnCltvExpilyDelta
  let notEnough := Bolt4Check.failed "cltv not enough : %PRIu32" [delta.toNat] .incorrCltvExpiry
    (updateData cnlupdBuf)
  if htlc.cltvExpiry ≤ hop.outgoingCltvValue then pure notEnough
  else do
    let later ← add32 htlc.cltvExpiry delta
    if later < hop.outgoingCltvValue then pure notEnough
    else do
      let soon ← expirySoon height htlc.cltvExpiry cnlupd.cltvExpiryDelta.toUInt32
      if soon then
        pure (.failed "expiry too soon : %PRIu32" [delta.toNat] .expiryTooSoon
          (updateData cnlupdBuf))
      else do
        let due ← add32 height.toUInt32 cnlupd.cltvExpiryDelta.toUInt32
        let latest ← add32 due hysteCltvExpiryFar
        if latest < htlc.cltvExpiry then
          pure (.failed "expiry too far : %PRIu32" [delta.toNat] .expiryTooFar)
        else pure { ret := true }

/-- `check_recv_add_htlc_bolt4_forward`; the text of the error for the fee is made of a difference
of its own. -/
def checkRecvAddHtlcBolt4Forward : Wrapping Bolt4Check := do
  match env.nextChannel hop with
  | none => pure (.failed "no next channel" [] .unknownNextPeer)
  | some next =>
      match env.nextUpdate hop with
      | none => pure (.failed "no channel_update" [] .unknownNextPeer)
      | some (cnlupdBuf, cnlupd) =>
          if hop.amtToForward < next.htlcMinimumMsat then
            pure (.failed "lower than htlc_minimum_msat : %PRIu64 < %PRIu64"
              [hop.amtToForward.toNat, next.htlcMinimumMsat.toNat] .amtBelowMin
              (updateData cnlupdBuf))
          else do
            let fwdFee ← env.annoPrm.lnForwardFee hop.amtToForward
            let needed ← add64 hop.amtToForward fwdFee
            if htlc.amountMsat < needed then do
              let offered ← sub64 htlc.amountMsat hop.amtToForward
              pure (.failed "fee not enough : %PRIu32 < %PRIu32" [fwdFee.toNat, offered.toNat]
                .feeInsufficient (updateData cnlupdBuf))
            else checkForwardCltv hop htlc height next cnlupdBuf cnlupd

/-- The branch of `recv_update_add_htlc` that calls one of the two checks, once the onion is read;
without a height there is none. -/
def checkRecvAddHtlcBolt4 : Wrapping (Option Bolt4Check) := do
  if 0 < height then
    let check ← if hop.bExit then checkRecvAddHtlcBolt4Final crypto env hop htlc height
      else checkRecvAddHtlcBolt4Forward env hop htlc height
    pure (some check)
  else pure none

end Checks

/-! ### What an accepted HTLC has to be -/

/-- The fee for an amount, in exact numbers. -/
def AnnoPrm.exactFee (prm : AnnoPrm) (amountMsat : Nat) : Nat :=
  prm.feeBaseMsat.toNat + amountMsat * prm.feePropMillionths.toNat / 1000000

section Sound

variable (crypto : Crypto) (env : Bolt4Env) (hop : LnHopDataout) (htlc : LnUpdateAddHtlc)
  (height : Int32)

/-- The height as a number. -/
def blocks : Nat := height.toUInt32.toNat

/-- An expiry unreasonably near the present. -/
def TooNear (expiry delta : Nat) : Prop :=
  expiry + 1 < blocks height + delta ∨ expiry < blocks height + 7

/-- A final HTLC that may be accepted. -/
structure FinalSound (check : Bolt4Check) : Prop where
  expected : ∃ infos info, env.preimgs = some infos ∧ info ∈ infos ∧
    (info.expiry = 0xffffffff ∨ env.now.toNat ≤ info.creation.toNat + info.expiry.toNat) ∧
    crypto.sha256 info.preimage = htlc.paymentSha256 ∧ check.preimage = info.preimage ∧
    info.amountMsat.toNat ≤ htlc.amountMsat.toNat ∧
    htlc.amountMsat.toNat ≤ 2 * info.amountMsat.toNat
  covered : hop.amtToForward.toNat ≤ htlc.amountMsat.toNat
  expiry : hop.outgoingCltvValue = htlc.cltvExpiry

/-- An HTLC that may be forwarded. -/
structure ForwardSound : Prop where
  next : ∃ next buf cnlupd, env.nextChannel hop = some next ∧
    env.nextUpdate hop = some (buf, cnlupd) ∧
    hop.outgoingCltvValue.toNat + next.annoPrm.cltvExpiryDelta.toNat ≤ htlc.cltvExpiry.toNat ∧
    ¬ TooNear height htlc.cltvExpiry.toNat cnlupd.cltvExpiryDelta.toNat ∧
    htlc.cltvExpiry.toNat ≤ blocks height + cnlupd.cltvExpiryDelta.toNat + 144 * 15
  paid : hop.amtToForward.toNat + env.annoPrm.exactFee hop.amtToForward.toNat ≤
    htlc.amountMsat.toNat

/-- An accepted HTLC may be accepted. -/
def Bolt4Sound (result : Option Bolt4Check) : Prop :=
  ∀ check, result = some check → check.ret = true →
    if hop.bExit then FinalSound crypto env hop htlc check
    else ForwardSound env hop htlc height

/-! ### When the checks are sound -/

/-- The expected amount can be doubled, and the expiry of the onion can be increased, if the check
comes to that. -/
def FinalFits : Prop :=
  ∀ preimg, env.preimg crypto htlc = some preimg →
    preimg.amountMsat.toNat ≤ htlc.amountMsat.toNat →
    preimg.amountMsat.toNat < 2 ^ 63 ∧
      (htlc.amountMsat.toNat ≤ 2 * preimg.amountMsat.toNat →
        hop.outgoingCltvValue.toNat + 1 < 2 ^ 32)

/-- The fee and the sum with it fit, and an HTLC that pays it leaves the time to forward it or
fails for its distance from the height. -/
def ForwardFitsTo (next : NextSelf) (cnlupd : CnlUpdateMsg) : Prop :=
  next.htlcMinimumMsat ≤ hop.amtToForward →
    hop.amtToForward.toNat * env.annoPrm.feePropMillionths.toNat < 2 ^ 64 ∧
    hop.amtToForward.toNat + env.annoPrm.exactFee hop.amtToForward.toNat < 2 ^ 64 ∧
    (htlc.amountMsat.toNat <
        hop.amtToForward.toNat + env.annoPrm.exactFee hop.amtToForward.toNat →
      hop.amtToForward.toNat ≤ htlc.amountMsat.toNat) ∧
    (hop.amtToForward.toNat + env.annoPrm.exactFee hop.amtToForward.toNat ≤
        htlc.amountMsat.toNat →
      hop.outgoingCltvValue < htlc.cltvExpiry →
        htlc.cltvExpiry.toNat + next.annoPrm.cltvExpiryDelta.toNat < 2 ^ 32 ∧
        htlc.cltvExpiry.toNat + 1 < 2 ^ 32 ∧
        (hop.outgoingCltvValue.toNat + next.annoPrm.cltvExpiryDelta.toNat ≤
            htlc.cltvExpiry.toNat ∨
          TooNear height htlc.cltvExpiry.toNat cnlupd.cltvExpiryDelta.toNat ∨
          blocks height + cnlupd.cltvExpiryDelta.toNat + 144 * 15 < htlc.cltvExpiry.toNat))

/-- There is no channel to forward to, or what has to fit does. -/
def ForwardFits : Prop :=
  ∀ next buf cnlupd, env.nextChannel hop = some next → env.nextUpdate hop = some (buf, cnlupd) →
    ForwardFitsTo env hop htlc height next cnlupd

end Sound

section Proofs

variable {crypto : Crypto} {env : Bolt4Env} {hop : LnHopDataout} {htlc : LnUpdateAddHtlc}
  {height : Int32}

theorem blocks_lt (hheight : 0 < height) : blocks height < 2 ^ 31 := by
  have hpos : (0 : Int) < height.toInt := Int32.lt_iff_toInt_lt.mp hheight
  have hbits : height.toInt = height.toBitVec.toInt := rfl
  have hnat : blocks height = height.toBitVec.toNat := rfl
  rw [hbits, BitVec.toInt_eq_toNat_cond] at hpos
  rw [hnat]
  split_ifs at hpos with hsmall
  · omega
  · have hbound := height.toBitVec.isLt
    omega

theorem toNat_feePart {prm : AnnoPrm} {amountMsat : UInt64}
    (hfits : amountMsat.toNat * prm.feePropMillionths.toNat < 2 ^ 64) :
    (amountMsat * prm.feePropMillionths.toUInt64 / 1000000).toNat =
      amountMsat.toNat * prm.feePropMillionths.toNat / 1000000 := by
  rw [UInt64.toNat_div, toNat_mul64 (by simpa using hfits)]
  rfl

theorem wp_lnForwardFee {prm : AnnoPrm} {amountMsat : UInt64} {post : UInt64 → Prop} :
    wp (prm.lnForwardFee amountMsat) post ↔
      amountMsat.toNat * prm.feePropMillionths.toNat < 2 ^ 64 ∧
        post (prm.feeBaseMsat.toUInt64 +
          amountMsat * prm.feePropMillionths.toUInt64 / 1000000) := by
  simp only [AnnoPrm.lnForwardFee, wp_bind, wp_mul64, wp_add64, UInt32.toNat_toUInt64]
  refine and_congr_right fun hfits => and_iff_right ?_
  have hbase := prm.feeBaseMsat.toNat_lt
  rw [toNat_feePart hfits]
  omega

theorem toNat_forwardFee {prm : AnnoPrm} {amountMsat : UInt64}
    (hfits : amountMsat.toNat * prm.feePropMillionths.toNat < 2 ^ 64) :
    (prm.feeBaseMsat.toUInt64 + amountMsat * prm.feePropMillionths.toUInt64 / 1000000).toNat =
      prm.exactFee amountMsat.toNat := by
  have hbase := prm.feeBaseMsat.toNat_lt
  have hpart := toNat_feePart hfits
  rw [toNat_add64, hpart, AnnoPrm.exactFee, UInt32.toNat_toUInt64]
  rw [hpart, UInt32.toNat_toUInt64]
  omega

theorem wp_expirySoon {expiry delta : UInt32} {post : Bool → Prop} (hheight : 0 < height)
    (hdelta : delta.toNat < 2 ^ 16) :
    wp (expirySoon height expiry delta) post ↔ expiry.toNat + 1 < 2 ^ 32 ∧
      (TooNear height expiry.toNat delta.toNat → post true) ∧
      (¬ TooNear height expiry.toNat delta.toNat → post false) := by
  have hblocks := blocks_lt hheight
  have hdue : height.toUInt32.toNat + delta.toNat < 2 ^ 32 := by
    change blocks height + delta.toNat < 2 ^ 32
    omega
  have hleast : height.toUInt32.toNat + hysteCltvExpiryMin.toNat < 2 ^ 32 := by
    change blocks height + 7 < 2 ^ 32
    omega
  simp only [expirySoon, wp_bind, wp_add32, wp_ite, wp_pure, hdue, hleast, true_and]
  refine and_congr_right fun hlater => ?_
  have hfirst : expiry + hysteCltvExpirySoon < height.toUInt32 + delta ↔
      expiry.toNat + 1 < blocks height + delta.toNat := by
    rw [UInt32.lt_iff_toNat_lt, toNat_add32 hlater, toNat_add32 hdue]
    rfl
  have hsecond : expiry < height.toUInt32 + hysteCltvExpiryMin ↔
      expiry.toNat < blocks height + 7 := by
    rw [UInt32.lt_iff_toNat_lt, toNat_add32 hleast]
    rfl
  rw [hfirst, TooNear]
  by_cases hnear : expiry.toNat + 1 < blocks height + delta.toNat
  · simp [hnear]
  · by_cases hmin : expiry.toNat < blocks height + 7
    · simp [hnear, hmin, hsecond.mpr hmin]
    · simp [hnear, hmin, mt hsecond.mp hmin]

/-! ### The final check -/

theorem preimgCurSearch_found {now : UInt64} {paymentSha256 : Bytes} {infos : List PreimgInfo}
    {info : PreimgInfo} (hfound : (preimgCurSearch crypto now paymentSha256 infos).1 = some info) :
    info ∈ infos ∧ info.detect now = true ∧ crypto.sha256 info.preimage = paymentSha256 := by
  induction infos with
  | nil => cases hfound
  | cons head rest ih =>
      by_cases hdetect : head.detect now = true
      · by_cases hhash : crypto.sha256 head.preimage = paymentSha256
        · simp only [preimgCurSearch, hdetect, hhash, if_true] at hfound
          obtain rfl := Option.some.inj hfound
          exact ⟨List.mem_cons_self, hdetect, hhash⟩
        · simp only [preimgCurSearch, hdetect, hhash, if_true, if_false] at hfound
          obtain ⟨hmem, hinfo⟩ := ih hfound
          exact ⟨List.mem_cons_of_mem _ hmem, hinfo⟩
      · simp only [preimgCurSearch, if_neg hdetect] at hfound
        obtain ⟨hmem, hinfo⟩ := ih hfound
        exact ⟨List.mem_cons_of_mem _ hmem, hinfo⟩

/-- The sum of `ln_db_preimg_cur_get` takes no expired preimage for one that is not. -/
theorem unexpired_of_detect {info : PreimgInfo} {now : UInt64} (hdetect : info.detect now = true) :
    info.expiry = 0xffffffff ∨ now.toNat ≤ info.creation.toNat + info.expiry.toNat := by
  simp only [PreimgInfo.detect, Bool.or_eq_true, beq_iff_eq, decide_eq_true_eq,
    UInt64.le_iff_toNat_le, UInt64.toNat_add, UInt32.toNat_toUInt64] at hdetect
  exact hdetect.imp_right fun hle => hle.trans (Nat.mod_le _ _)

@[simp] theorem ret_failed (format : String) (operands : List Nat) (reason : OnionReason)
    (data : Bytes) : (Bolt4Check.failed format operands reason data).ret = false :=
  rfl

/-- What is asked of an HTLC once its preimage is found. -/
structure PreimgSound (hop : LnHopDataout) (htlc : LnUpdateAddHtlc) (preimg : PreimgInfo)
    (check : Bolt4Check) : Prop where
  preimage : check.preimage = preimg.preimage
  least : preimg.amountMsat.toNat ≤ htlc.amountMsat.toNat
  most : htlc.amountMsat.toNat ≤ 2 * preimg.amountMsat.toNat
  covered : hop.amtToForward.toNat ≤ htlc.amountMsat.toNat
  expiry : hop.outgoingCltvValue = htlc.cltvExpiry

theorem wp_checkFinalPreimg (hheight : 0 < height) {preimg : PreimgInfo}
    {post : Bolt4Check → Prop} (hpost : ∀ check, PreimgSound hop htlc preimg check → post check) :
    wp (checkFinalPreimg hop htlc height preimg) (fun check => check.ret = true → post check) ↔
      (preimg.amountMsat.toNat ≤ htlc.amountMsat.toNat →
        preimg.amountMsat.toNat < 2 ^ 63 ∧
          (htlc.amountMsat.toNat ≤ 2 * preimg.amountMsat.toNat →
            hop.outgoingCltvValue.toNat + 1 < 2 ^ 32)) := by
  have hdouble : preimg.amountMsat.toNat < 2 ^ 63 →
      (preimg.amountMsat * 2).toNat = 2 * preimg.amountMsat.toNat := by
    intro hbound
    rw [toNat_mul64 (by change preimg.amountMsat.toNat * 2 < 2 ^ 64; omega)]
    exact Nat.mul_comm _ _
  have hproduct : preimg.amountMsat.toNat * UInt64.toNat 2 < 2 ^ 64 ↔
      preimg.amountMsat.toNat < 2 ^ 63 := by
    change preimg.amountMsat.toNat * 2 < 2 ^ 64 ↔ _
    omega
  simp only [checkFinalPreimg, wp_ite, wp_pure, wp_bind, wp_mul64, ret_failed, false_implies,
    wp_expirySoon hheight (show lnMinFinalCltvExpiry.toNat < 2 ^ 16 by decide), implies_true,
    true_and, Bool.false_eq_true, hproduct, UInt64.not_lt, UInt64.le_iff_toNat_le]
  refine imp_congr_right fun hleast => and_congr_right fun hbound => ?_
  rw [hdouble hbound]
  refine imp_congr_right fun hmost => and_iff_left ⟨fun _ hsoon => absurd trivial hsoon, ?_⟩
  intro _ _ hexpiry hcovered _
  exact hpost _ ⟨rfl, hleast, hmost, hcovered, not_ne_iff.mp hexpiry⟩

theorem wp_checkRecvAddHtlcBolt4Final (hheight : 0 < height) :
    wp (checkRecvAddHtlcBolt4Final crypto env hop htlc height)
        (fun check => check.ret = true → FinalSound crypto env hop htlc check) ↔
      FinalFits crypto env hop htlc := by
  rw [checkRecvAddHtlcBolt4Final, FinalFits]
  cases hpreimg : env.preimg crypto htlc with
  | none => simp
  | some preimg =>
      have hstored : ∃ infos, env.preimgs = some infos ∧
          (preimgCurSearch crypto env.now htlc.paymentSha256 infos).1 = some preimg := by
        cases hopened : env.preimgs with
        | none => simp [Bolt4Env.preimg, hopened, preimgCurSearch] at hpreimg
        | some infos => exact ⟨infos, rfl, by simpa [Bolt4Env.preimg, hopened] using hpreimg⟩
      obtain ⟨infos, hopened, hsearch⟩ := hstored
      obtain ⟨hmem, hdetect, hhash⟩ := preimgCurSearch_found hsearch
      have hsound : ∀ check : Bolt4Check, PreimgSound hop htlc preimg check →
          FinalSound crypto env hop htlc { check with preimgs := env.preimgs.map fun infos =>
            (preimgCurSearch crypto env.now htlc.paymentSha256 infos).2 } := by
        intro check hcheck
        exact ⟨⟨infos, preimg, hopened, hmem, unexpired_of_detect hdetect, hhash, hcheck.preimage,
          hcheck.least, hcheck.most⟩, hcheck.covered, hcheck.expiry⟩
      simp only [wp_bind, wp_pure, Option.some.injEq, forall_eq']
      exact wp_checkFinalPreimg hheight hsound

/-! ### The forward check -/

theorem wp_checkForwardCltv (hheight : 0 < height) {next : NextSelf} {cnlupdBuf : Bytes}
    {cnlupd : CnlUpdateMsg} {post : Prop}
    (hpost : post ↔ hop.outgoingCltvValue.toNat + next.annoPrm.cltvExpiryDelta.toNat ≤
          htlc.cltvExpiry.toNat ∧
        ¬ TooNear height htlc.cltvExpiry.toNat cnlupd.cltvExpiryDelta.toNat ∧
        htlc.cltvExpiry.toNat ≤ blocks height + cnlupd.cltvExpiryDelta.toNat + 144 * 15) :
    wp (checkForwardCltv hop htlc height next cnlupdBuf cnlupd)
        (fun check => check.ret = true → post) ↔
      (hop.outgoingCltvValue < htlc.cltvExpiry →
        htlc.cltvExpiry.toNat + next.annoPrm.cltvExpiryDelta.toNat < 2 ^ 32 ∧
        htlc.cltvExpiry.toNat + 1 < 2 ^ 32 ∧
        (hop.outgoingCltvValue.toNat + next.annoPrm.cltvExpiryDelta.toNat ≤
            htlc.cltvExpiry.toNat ∨
          TooNear height htlc.cltvExpiry.toNat cnlupd.cltvExpiryDelta.toNat ∨
          blocks height + cnlupd.cltvExpiryDelta.toNat + 144 * 15 < htlc.cltvExpiry.toNat)) := by
  have hblocks := blocks_lt hheight
  have hdelta : cnlupd.cltvExpiryDelta.toUInt32.toNat = cnlupd.cltvExpiryDelta.toNat := rfl
  have hsmall := cnlupd.cltvExpiryDelta.toNat_lt
  simp only [checkForwardCltv, wp_ite, wp_pure, wp_bind, wp_add32, ret_failed, false_implies,
    wp_expirySoon hheight (show cnlupd.cltvExpiryDelta.toUInt32.toNat < 2 ^ 16 from hsmall),
    implies_true, true_and, Bool.false_eq_true]
  have hdue : height.toUInt32.toNat + cnlupd.cltvExpiryDelta.toUInt32.toNat < 2 ^ 32 := by
    change blocks height + cnlupd.cltvExpiryDelta.toNat < 2 ^ 32
    omega
  have hdue' : height.toUInt32.toNat + cnlupd.cltvExpiryDelta.toNat < 2 ^ 32 := hdue
  have hlatest : (height.toUInt32 + cnlupd.cltvExpiryDelta.toUInt32).toNat +
      hysteCltvExpiryFar.toNat < 2 ^ 32 := by
    rw [toNat_add32 hdue]
    change blocks height + cnlupd.cltvExpiryDelta.toNat + 144 * 15 < 2 ^ 32
    omega
  have hfar : height.toUInt32 + cnlupd.cltvExpiryDelta.toUInt32 + hysteCltvExpiryFar <
      htlc.cltvExpiry ↔
        blocks height + cnlupd.cltvExpiryDelta.toNat + 144 * 15 < htlc.cltvExpiry.toNat := by
    rw [UInt32.lt_iff_toNat_lt, toNat_add32 hlatest, toNat_add32 hdue]
    rfl
  rw [UInt32.not_le]
  refine imp_congr_right fun hlater => and_congr_right fun hsum => ?_
  -- without a wrap, an expiry after that of the onion is so with the delta as well
  have hnot : ¬ htlc.cltvExpiry + next.annoPrm.lnCltvExpilyDelta < hop.outgoingCltvValue := by
    rw [UInt32.not_lt, UInt32.le_iff_toNat_le, toNat_add32 hsum]
    exact (UInt32.lt_iff_toNat_lt.mp hlater).le.trans (Nat.le_add_right _ _)
  simp only [hnot, not_false_eq_true, forall_true_left, hdue', hlatest, true_and, hfar, hdelta,
    not_true_eq_false, false_implies, implies_true, hpost]
  refine and_congr_right fun _ => ?_
  by_cases hnear : TooNear height htlc.cltvExpiry.toNat cnlupd.cltvExpiryDelta.toNat
  · simp [hnear]
  · simp only [hnear, not_false_eq_true, forall_true_left, false_or, true_and, Nat.not_lt]
    constructor
    · intro hcheck
      by_cases htoofar :
          blocks height + cnlupd.cltvExpiryDelta.toNat + 144 * 15 < htlc.cltvExpiry.toNat
      · exact .inr htoofar
      · exact .inl (hcheck (Nat.not_lt.mp htoofar)).1
    · rintro (hleft | htoofar) hreach
      · exact ⟨hleft, hreach⟩
      · omega

theorem forwardSound_iff {next : NextSelf} {buf : Bytes} {cnlupd : CnlUpdateMsg}
    (hnext : env.nextChannel hop = some next) (hupdate : env.nextUpdate hop = some (buf, cnlupd))
    (hpaid : hop.amtToForward.toNat + env.annoPrm.exactFee hop.amtToForward.toNat ≤
      htlc.amountMsat.toNat) :
    ForwardSound env hop htlc height ↔
      hop.outgoingCltvValue.toNat + next.annoPrm.cltvExpiryDelta.toNat ≤ htlc.cltvExpiry.toNat ∧
        ¬ TooNear height htlc.cltvExpiry.toNat cnlupd.cltvExpiryDelta.toNat ∧
        htlc.cltvExpiry.toNat ≤ blocks height + cnlupd.cltvExpiryDelta.toNat + 144 * 15 := by
  constructor
  · rintro ⟨⟨next', buf', cnlupd', hnext', hupdate', hexpiry⟩, -⟩
    obtain rfl := Option.some.inj (hnext.symm.trans hnext')
    obtain ⟨-, rfl⟩ := Prod.mk.inj (Option.some.inj (hupdate.symm.trans hupdate'))
    exact hexpiry
  · intro hexpiry
    exact ⟨⟨next, buf, cnlupd, hnext, hupdate, hexpiry⟩, hpaid⟩

theorem wp_checkRecvAddHtlcBolt4Forward (hheight : 0 < height) :
    wp (checkRecvAddHtlcBolt4Forward env hop htlc height)
        (fun check => check.ret = true → ForwardSound env hop htlc height) ↔
      ForwardFits env hop htlc height := by
  rw [checkRecvAddHtlcBolt4Forward, ForwardFits]
  cases hnext : env.nextChannel hop with
  | none => simp
  | some next =>
      cases hupdate : env.nextUpdate hop with
      | none => simp
      | some stored =>
          obtain ⟨buf, cnlupd⟩ := stored
          have hfits : (∀ next' buf' cnlupd', some next = some next' →
              some (buf, cnlupd) = some (buf', cnlupd') →
                ForwardFitsTo env hop htlc height next' cnlupd') ↔
              ForwardFitsTo env hop htlc height next cnlupd := by
            simp only [Option.some.injEq, Prod.mk.injEq]
            constructor
            · intro hall
              exact hall next buf cnlupd rfl ⟨rfl, rfl⟩
            · rintro hfits _ _ _ rfl ⟨-, rfl⟩
              exact hfits
          rw [hfits, ForwardFitsTo]
          simp only [wp_ite, wp_bind, wp_pure, wp_lnForwardFee, wp_add64, wp_sub64, ret_failed,
            Bool.false_eq_true, false_implies, implies_true, true_and, and_true, UInt64.not_lt]
          refine imp_congr_right fun _ => and_congr_right fun hproduct => ?_
          rw [toNat_forwardFee hproduct]
          refine and_congr_right fun hsum => ?_
          have hneeded := toNat_add64 ((toNat_forwardFee hproduct).symm ▸ hsum)
          rw [toNat_forwardFee hproduct] at hneeded
          simp only [UInt64.lt_iff_toNat_lt, UInt64.le_iff_toNat_le, hneeded]
          refine and_congr_right fun _ => imp_congr_right fun hpaid => ?_
          rw [wp_checkForwardCltv hheight (forwardSound_iff hnext hupdate hpaid)]

end Proofs

/-- The check of a received HTLC accepts what it should and computes without wrapping around, if
and only if what it computes fits and, for one to be forwarded, the expiry leaves the delta. -/
theorem bolt4_sound_iff (crypto : Crypto) (env : Bolt4Env) (hop : LnHopDataout)
    (htlc : LnUpdateAddHtlc) (height : Int32) :
    wp (checkRecvAddHtlcBolt4 crypto env hop htlc height)
        (Bolt4Sound crypto env hop htlc height) ↔
      (0 < height → if hop.bExit then FinalFits crypto env hop htlc
        else ForwardFits env hop htlc height) := by
  rw [checkRecvAddHtlcBolt4]
  by_cases hheight : 0 < height
  · cases hexit : hop.bExit with
    | true =>
        simpa [hheight, hexit, Bolt4Sound] using wp_checkRecvAddHtlcBolt4Final hheight
    | false =>
        simpa [hheight, hexit, Bolt4Sound] using wp_checkRecvAddHtlcBolt4Forward hheight
  · simp [hheight, Bolt4Sound]

/-- A node that forwards to one channel, with a delta of 36 blocks and a fee of 1 satoshi. -/
def forwardingEnv : Bolt4Env where
  annoPrm := ⟨36, 1000, 0⟩
  now := 0
  preimgs := none
  nextSelf _ := some ⟨.normal, 0, ⟨36, 1000, 0⟩⟩
  ownNodeId := [2]
  searchNodeid _ := some [3]
  annocnlupdLoad _ _ := some (lnMiscPush16be MsgType.channelUpdate.code ++ List.replicate 64 0 ++
    (cnlUpdateFields .symbolic ⟨12, 1, 0, 36, 0, 1000, 0, 0⟩).flatten)
  wire := .symbolic

/-- An HTLC that leaves one block to its forwarding passes the check. -/
theorem forwards_oneBlock :
    ¬ ∀ (crypto : Crypto) (env : Bolt4Env) (hop : LnHopDataout) (htlc : LnUpdateAddHtlc)
      (height : Int32), wp (checkRecvAddHtlcBolt4 crypto env hop htlc height)
        (Bolt4Sound crypto env hop htlc height) := by
  intro hall
  let hop : LnHopDataout := ⟨false, 12, 100000, 2099⟩
  let htlc : LnUpdateAddHtlc := { amountMsat := 101000, cltvExpiry := 2100 }
  have hvalue : (checkRecvAddHtlcBolt4 .symbolic forwardingEnv hop htlc 2000).value =
      some { ret := true } := by
    decide +kernel
  have hsound := (hall .symbolic forwardingEnv hop htlc 2000).2 _ hvalue rfl
  obtain ⟨next, buf, cnlupd, hnext, -, hexpiry, -⟩ := hsound.next
  have hchannel : forwardingEnv.nextChannel hop = some ⟨.normal, 0, ⟨36, 1000, 0⟩⟩ := rfl
  obtain rfl := Option.some.inj (hchannel.symm.trans hnext)
  exact absurd hexpiry (by decide)

end Ptarmigan
