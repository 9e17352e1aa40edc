/-
The wallet of a node: `wallet_from_ptarm` sends all outputs of closed channels that have been stored
to one address.
-/
import Ptarmigan.Derkey
import Ptarmigan.HtlcIndex
import Ptarmigan.SwSighash
import Ptarmigan.TxRead
import Ptarmigan.TxRoundTrip
import Ptarmigan.WalletStore

namespace Ptarmigan

namespace Wallet

open DoubleHash SwSighash TxSerial WalletStore

/-! ### Sizes -/

/-- A transaction as it is written. -/
def serialVin (vin : TxSort.BtcVin) : TxSerial.BtcVin :=
  ⟨vin.txid.toList, vin.index, vin.script, vin.witness, vin.sequence⟩

def serial (tx : TxSort.BtcTx) : TxSerial.BtcTx where
  version := tx.version
  vin := tx.vin.map serialVin
  vout := tx.vout.map fun vout => ⟨vout.value, vout.script⟩
  locktime := tx.locktime

/-- `BTC_TX_INIT`. -/
def btcTxInit : TxSort.BtcTx := ⟨2, [], [], 0⟩

/-- `btc_tx_get_vbyte_raw`; `none` where the bytes are left while they are read. -/
def btcTxGetVbyteRaw (heap : Heap) (data : Bytes) : Option UInt32 :=
  let mark := data.getD 4 0
  let flag := data.getD 5 0
  if mark = 0x00 ∧ flag ≠ 0x01 then some 0
  else if mark = 0x00 ∧ flag = 0x01 then
    match (btcTxRead heap data.length (serial btcTxInit)).run data with
    | .done (some txold) _ =>
        let old := createTx false txold
        some (if old.ret then
          (UInt32.ofNat old.allocated * 3 + UInt32.ofNat data.length + 3) / 4 else 0)
    | _ => none
  else some (UInt32.ofNat data.length)

/-! ### Collecting -/

/-- `BTC_TX_SEQUENCE`. -/
def btcTxSequence : UInt32 := 0xffffffff

/-- `BTC_TX_LOCKTIME_LIMIT`. -/
def btcTxLocktimeLimit : UInt32 := 500000000

/-- What the bitcoin node says of an output: `btcrpc_check_unspent` and `btcrpc_get_confirm`, when
they succeed. -/
structure NodeAnswer where
  unspent : Option Bool
  confirm : Option UInt32
deriving DecidableEq, Repr

/-- `wallet_t`. -/
structure WalletT where
  tx : TxSort.BtcTx
  amount : UInt64
deriving DecidableEq

def walletInit : WalletT := ⟨btcTxInit, 0⟩

/-- Whether the confirmations are asked for: the input or the transaction so far is locked. -/
def asksConfirm (locktime : UInt32) (entry : LnDbWallet) : Bool :=
  entry.sequence != btcTxSequence || (locktime != 0 && locktime < btcTxLocktimeLimit)

/-- The confirmations are enough for the sequence; without one the lock time is held against them,
a height. -/
def confirmed (locktime : UInt32) (entry : LnDbWallet) (confirm : Option UInt32) : Bool :=
  match confirm with
  | none => false
  | some conf =>
      if entry.sequence = btcTxSequence then locktime ≤ conf else entry.sequence ≤ conf

/-- The first item of the witness for the time being: the private key, the type and the amount. -/
def heldItem (entry : LnDbWallet) : Bytes :=
  entry.wit.headD [] ++ entry.type :: setLe64 entry.amount

/-- The input that an entry becomes. -/
def vinOf (entry : LnDbWallet) : TxSort.BtcVin where
  txid := Vector.ofFn entry.txid
  index := entry.index
  script := []
  witness := heldItem entry :: entry.wit.tail
  sequence := entry.sequence

/-- The lock time that is kept. -/
def laterOf (locktime next : UInt32) : UInt32 :=
  if locktime < next then next else locktime

/-- `wallet_dbfunc`.  For an output that is spent `ln_db_wallet_del` begins a write transaction
inside the one that `ln_db_wallet_search` holds in the same thread, and waits for its end for ever:
`none`.  Otherwise the search goes on. -/
def walletDbfunc (answer : NodeAnswer) (wallet : WalletT) (entry : LnDbWallet) : Option WalletT :=
  if entry.wit.length = 0 then some wallet
  else if answer.unspent = some false then none
  else if (entry.wit.headD []).length ≠ btcSzPrivkey then some wallet
  else if asksConfirm wallet.tx.locktime entry ∧
      ¬ confirmed wallet.tx.locktime entry answer.confirm then some wallet
  else
    some {
      amount := wallet.amount + entry.amount
      tx := { wallet.tx with
        vin := wallet.tx.vin ++ [vinOf entry]
        locktime := laterOf wallet.tx.locktime entry.locktime } }

/-- `ln_db_wallet_search` with `wallet_dbfunc`, when it comes to an end. -/
def walletCollect (answers : LnDbWallet → NodeAnswer) (entries : List LnDbWallet) :
    Option WalletT :=
  entries.foldlM (fun wallet entry => walletDbfunc (answers entry) wallet entry) walletInit

/-! ### Signing -/

/-- `btc_sw_scriptcode_p2wpkh`. -/
def btcSwScriptcodeP2wpkh (hash160 : Bytes → Bytes) (pub : Bytes) : Bytes :=
  [0x19, 0x76, 0xa9, 0x14] ++ hash160 (pub.take 33) ++ [0x88, 0xac]

/-- `btc_util_calc_sighash_p2wsh`. -/
def btcUtilCalcSighashP2wsh (sha256 : Bytes → Digest) (tx : TxSort.BtcTx) (index : Nat)
    (value : UInt64) (witScript : Bytes) : Option (Option Digest) :=
  if btcTxIsValid tx ≠ .ok then some none
  else btcSwSighash sha256 tx index value (btcSwScriptcodeP2wsh witScript)

/-- `LN_DB_WALLET_TYPE_TOLOCAL`, `LN_DB_WALLET_TYPE_TOREMOTE` and `LN_DB_WALLET_TYPE_HTLCOUT`. -/
def lnDbWalletTypeTolocal : UInt8 := 1
def lnDbWalletTypeToremote : UInt8 := 2
def lnDbWalletTypeHtlcout : UInt8 := 3

section Signing

variable (crypto : Crypto) (sha256 : Bytes → Digest)

/-- What is signed for an input: `ret` and `txhash`, which both stay what they were when the type
is none of the three. -/
def vinSighash (tx : TxSort.BtcTx) (index : Nat) (vin : TxSort.BtcVin) (ret : Bool)
    (txhash : Digest) : Option (Bool × Digest) :=
  let held := vin.witness.headD []
  let type := held.getD btcSzPrivkey 0
  let amount := UInt64.ofNat (LittleEndian.decode ((held.drop (btcSzPrivkey + 1)).take 8))
  let hashed := fun digest : Option Digest =>
    match digest with
    | some digest => (true, digest)
    | none => (false, txhash)
  if type = lnDbWalletTypeToremote then
    (btcSwSighash sha256 tx index amount
      (btcSwScriptcodeP2wpkh crypto.hash160 (vin.witness.getD 1 []))).map hashed
  else if type = lnDbWalletTypeTolocal ∨ type = lnDbWalletTypeHtlcout then
    (btcUtilCalcSighashP2wsh sha256 tx index amount (vin.witness.getLastD [])).map hashed
  else some (ret, txhash)

/-- The signing loop from an input on: the inputs, each with its signature when there is one, and
the last `ret`. -/
def signVins (tx : TxSort.BtcTx) : List TxSort.BtcVin → Nat → Bool → Digest →
    Option (List TxSort.BtcVin × Bool)
  | [], _, ret, _ => some ([], ret)
  | vin :: rest, index, ret, txhash => do
      let (ret, txhash) ← vinSighash crypto sha256 tx index vin ret txhash
      let secret := (vin.witness.headD []).take btcSzPrivkey
      let signed :=
        if ret then
          { vin with witness := crypto.sign secret txhash.toList :: vin.witness.tail }
        else vin
      let (rest, ret) ← signVins tx rest (index + 1) ret txhash
      pure (signed :: rest, ret)

end Signing

/-! ### Sending -/

/-- `BTC_DUST_LIMIT`. -/
def btcDustLimit : UInt64 := 546

/-- What comes of `wallet_from_ptarm`: it waits for ever, a buffer is left, or it ends with the
text of an error or with a result and the transaction that it returns. -/
inductive Sent
  | blocked
  | overrun
  | error (text : String)
  | result (ret : Bool) (tx : TxSort.BtcTx)

/-- The transaction, when there is one. -/
def Sent.tx? : Sent → Option TxSort.BtcTx
  | result _ tx => some tx
  | blocked | overrun | error _ => none

theorem Sent.tx?_eq_some {sent : Sent} {tx : TxSort.BtcTx} (htx : sent.tx? = some tx) :
    ∃ ret, sent = .result ret tx := by
  cases sent with
  | result ret other => exact ⟨ret, congrArg (result ret) (Option.some.inj htx)⟩
  | blocked => cases htx
  | overrun => cases htx
  | error text => cases htx

/-- The vbytes that the fee is for: signatures are taken for 72 bytes, in place of what the first
items hold. -/
def vbyteSigned (vbyte vinCnt : UInt32) : UInt32 :=
  vbyte + ((72 - (32 + 1 + 8)) * vinCnt + 3) / 4

/-- The fee in satoshis. -/
def feeOf (vbyte feeratePerKb : UInt32) : UInt64 :=
  vbyte.toUInt64 * feeratePerKb.toUInt64 / 1000

/-- The one output. -/
def payingTo (tx : TxSort.BtcTx) (value : UInt64) (script : Bytes) : TxSort.BtcTx :=
  { tx with vout := [⟨value, script, 0⟩] }

/-- The fee for an unsigned transaction. -/
def walletFee (heap : Heap) (tx : TxSort.BtcTx) (feeratePerKb : UInt32) : Option UInt64 :=
  let created := btcTxCreate (serial tx)
  (btcTxGetVbyteRaw heap (created.written.take created.allocated)).map fun vbyte =>
    feeOf (vbyteSigned vbyte (UInt32.ofNat tx.vin.length)) feeratePerKb

/-- `wallet_from_ptarm`, with the script of the address, none for an address that is none.  The
signing loop starts with whatever stands in `txhash`. -/
def walletFromPtarm (crypto : Crypto) (sha256 : Bytes → Digest) (heap : Heap) (stale : Digest)
    (answers : LnDbWallet → NodeAnswer) (entries : List LnDbWallet) (spk : Option Bytes)
    (feeratePerKb : UInt32) : Sent :=
  match walletCollect answers entries with
  | none => .blocked
  | some wallet =>
      if wallet.tx.vin.length = 0 then .error "no input"
      else
        match spk with
        | none => .error "fail: btc_tx_add_vout_addr"
        | some script =>
            match walletFee heap (payingTo wallet.tx wallet.amount script) feeratePerKb with
            | none => .overrun
            | some fee =>
                if wallet.amount < fee + btcDustLimit then
                  .error "fail: amount is too low to send."
                else
                  let tx := payingTo wallet.tx (wallet.amount - fee) script
                  match signVins crypto sha256 tx tx.vin 0 true stale with
                  | none => .overrun
                  | some (vin, ret) => .result ret { tx with vin }

/-! ### What is collected -/

/-- The entry is taken: a private key is there, the output is not known to be spent, and it is as
old as its sequence. -/
structure Ready (answer : NodeAnswer) (entry : LnDbWallet) : Prop where
  key : (entry.wit.headD []).length = btcSzPrivkey
  unspent : answer.unspent ≠ some false
  aged : entry.sequence ≠ btcTxSequence →
    ∃ conf, answer.confirm = some conf ∧ entry.sequence ≤ conf

/-- What the wallet has after some entries, of which those included became its inputs. -/
structure Collected (answers : LnDbWallet → NodeAnswer) (entries included : List LnDbWallet)
    (wallet : WalletT) : Prop where
  sublist : included.Sublist entries
  version : wallet.tx.version = 2
  vin : wallet.tx.vin = included.map vinOf
  vout : wallet.tx.vout = []
  amount : wallet.amount.toNat = (included.map fun entry => entry.amount.toNat).sum % 2 ^ 64
  locktime_le : ∀ entry ∈ included, entry.locktime ≤ wallet.tx.locktime
  locktime_eq : wallet.tx.locktime = 0 ∨ ∃ entry ∈ included, entry.locktime = wallet.tx.locktime
  ready : ∀ entry ∈ included, Ready (answers entry) entry

theorem laterOf_le (locktime next : UInt32) :
    locktime ≤ laterOf locktime next ∧ next ≤ laterOf locktime next := by
  rw [laterOf]
  split_ifs with hlater
  · exact ⟨UInt32.le_of_lt hlater, UInt32.le_refl _⟩
  · exact ⟨UInt32.le_refl _, UInt32.not_lt.mp hlater⟩

theorem laterOf_cases (locktime next : UInt32) :
    laterOf locktime next = locktime ∨ laterOf locktime next = next := by
  rw [laterOf]
  split_ifs
  · exact .inr rfl
  · exact .inl rfl

/-- The bitcoin node reports the output of a stored entry as spent. -/
def ReportedSpent (answer : NodeAnswer) (entry : LnDbWallet) : Prop :=
  entry.wit.length ≠ 0 ∧ answer.unspent = some false

/-- An entry is passed over, or becomes an input. -/
theorem walletDbfunc_cases {answer : NodeAnswer} {wallet after : WalletT} {entry : LnDbWallet}
    (hafter : walletDbfunc answer wallet entry = some after) :
    after = wallet ∨
      (Ready answer entry ∧ after.amount = wallet.amount + entry.amount ∧
        after.tx = { wallet.tx with
          vin := wallet.tx.vin ++ [vinOf entry]
          locktime := laterOf wallet.tx.locktime entry.locktime }) := by
  unfold walletDbfunc at hafter
  split_ifs at hafter with hnone hspent hkey hlocked
  · exact .inl (Option.some.inj hafter).symm
  · exact .inl (Option.some.inj hafter).symm
  · exact .inl (Option.some.inj hafter).symm
  · obtain rfl := Option.some.inj hafter
    refine .inr ⟨⟨not_not.mp hkey, hspent, fun hsequence => ?_⟩, rfl, rfl⟩
    · have hasks : asksConfirm wallet.tx.locktime entry = true := by
        simp [asksConfirm, hsequence]
      have hconfirmed : confirmed wallet.tx.locktime entry answer.confirm = true := by
        by_contra hnot
        exact hlocked ⟨hasks, hnot⟩
      cases hconf : answer.confirm with
      | none => simp [confirmed, hconf] at hconfirmed
      | some conf =>
          simp only [confirmed, hconf, if_neg hsequence, decide_eq_true_eq] at hconfirmed
          exact ⟨conf, rfl, hconfirmed⟩

theorem Collected.step {answers : LnDbWallet → NodeAnswer} {entries included : List LnDbWallet}
    {wallet after : WalletT} (hwallet : Collected answers entries included wallet)
    {entry : LnDbWallet} (hafter : walletDbfunc (answers entry) wallet entry = some after) :
    ∃ included, Collected answers (entries ++ [entry]) included after := by
  rcases walletDbfunc_cases hafter with rfl | ⟨hready, hamount, htx⟩
  · exact ⟨included, { hwallet with
      sublist := hwallet.sublist.trans (List.sublist_append_left _ _) }⟩
  · refine ⟨included ++ [entry], hwallet.sublist.append (List.Sublist.refl _), ?_, ?_, ?_, ?_, ?_,
      ?_, ?_⟩
    · rw [htx]
      exact hwallet.version
    · rw [htx, List.map_append, ← hwallet.vin]
      rfl
    · rw [htx]
      exact hwallet.vout
    · rw [hamount, UInt64.toNat_add, hwallet.amount, List.map_append, List.sum_append,
        Nat.mod_add_mod]
      rfl
    · rw [htx]
      intro other hmem
      rcases List.mem_append.mp hmem with hold | hnew
      · exact UInt32.le_trans (hwallet.locktime_le other hold) (laterOf_le _ _).1
      · obtain rfl := List.mem_singleton.mp hnew
        exact (laterOf_le _ _).2
    · rw [htx]
      rcases laterOf_cases wallet.tx.locktime entry.locktime with hold | hnew
      · rcases hwallet.locktime_eq with hzero | ⟨other, hmem, hother⟩
        · exact .inl (hold.trans hzero)
        · exact .inr ⟨other, List.mem_append_left _ hmem, hother.trans hold.symm⟩
      · exact .inr ⟨entry, List.mem_append_right _ List.mem_cons_self, hnew.symm⟩
    · intro other hmem
      rcases List.mem_append.mp hmem with hold | hnew
      · exact hwallet.ready other hold
      · obtain rfl := List.mem_singleton.mp hnew
        exact hready

theorem walletCollect_collected {answers : LnDbWallet → NodeAnswer} {entries : List LnDbWallet}
    {wallet : WalletT} (hwallet : walletCollect answers entries = some wallet) :
    ∃ included, Collected answers entries included wallet := by
  induction entries using List.reverseRecOn generalizing wallet with
  | nil =>
      obtain rfl := Option.some.inj hwallet
      refine ⟨[], List.Sublist.refl _, rfl, rfl, rfl, rfl, ?_, .inl rfl, ?_⟩
      · exact List.forall_mem_nil _
      · exact List.forall_mem_nil _
  | append_singleton entries entry ih =>
      rw [walletCollect, List.foldlM_append] at hwallet
      obtain ⟨before, hbefore, hafter⟩ := Option.bind_eq_some_iff.mp hwallet
      obtain ⟨included, hcollected⟩ := ih hbefore
      rw [List.foldlM_cons] at hafter
      obtain ⟨after, hentry, hsame⟩ := Option.bind_eq_some_iff.mp hafter
      obtain rfl := Option.some.inj hsame
      exact hcollected.step hentry

/-- The search comes to an end when no stored output is reported spent. -/
theorem walletCollect_isSome {answers : LnDbWallet → NodeAnswer} {entries : List LnDbWallet}
    (hunspent : ∀ entry ∈ entries, ¬ ReportedSpent (answers entry) entry) :
    (walletCollect answers entries).isSome = true := by
  induction entries using List.reverseRecOn with
  | nil => rfl
  | append_singleton entries entry ih =>
      obtain ⟨wallet, hwallet⟩ := Option.isSome_iff_exists.mp
        (ih fun other hmem => hunspent other (List.mem_append_left _ hmem))
      have hentry : (walletDbfunc (answers entry) wallet entry).isSome = true := by
        unfold walletDbfunc
        split_ifs with hnone hspent
        · rfl
        · exact absurd ⟨hnone, hspent⟩ (hunspent entry (List.mem_append_right _ List.mem_cons_self))
        · rfl
        · rfl
        · rfl
      obtain ⟨after, hafter⟩ := Option.isSome_iff_exists.mp hentry
      rw [walletCollect] at hwallet
      rw [walletCollect, List.foldlM_append, hwallet]
      simp [hafter]

/-! ### What is signed -/

/-- The input with another item in front of its witness. -/
def withFirst (vin : TxSort.BtcVin) (first : Bytes) : TxSort.BtcVin :=
  { vin with witness := first :: vin.witness.tail }

section Signed

variable {crypto : Crypto} {sha256 : Bytes → Digest}

/-- Each input keeps what stands in front of its witness, or has a signature there. -/
theorem signVins_first {tx : TxSort.BtcTx} {vins : List TxSort.BtcVin} :
    ∀ {index : Nat} {ret last : Bool} {txhash : Digest} {out : List TxSort.BtcVin},
      signVins crypto sha256 tx vins index ret txhash = some (out, last) →
      List.Forall₂ (fun vin signed => signed = vin ∨
        ∃ secret hash, signed = withFirst vin (crypto.sign secret hash)) vins out := by
  induction vins with
  | nil =>
      intro index ret last txhash out hsigned
      obtain ⟨rfl, -⟩ := Prod.mk.inj (Option.some.inj hsigned)
      exact .nil
  | cons vin rest ih =>
      intro index ret last txhash out hsigned
      rw [signVins] at hsigned
      obtain ⟨⟨ret', txhash'⟩, -, hsigned⟩ := Option.bind_eq_some_iff.mp hsigned
      obtain ⟨⟨others, last'⟩, hrest, hsigned⟩ := Option.bind_eq_some_iff.mp hsigned
      obtain ⟨rfl, rfl⟩ := Prod.mk.inj (Option.some.inj hsigned)
      refine .cons ?_ (ih hrest)
      cases ret' with
      | false => exact .inl rfl
      | true => exact .inr ⟨_, _, rfl⟩

end Signed

/-! ### The size of what is sent -/

/-- The size without the witnesses. -/
def strippedSize (tx : TxSerial.BtcTx) : Nat :=
  4 + getVarintLen tx.vin.length + (tx.vin.map (vinLen false)).sum +
    getVarintLen tx.vout.length + (tx.vout.map voutLen).sum + 4

theorem isSegwit_false (tx : TxSerial.BtcTx) : isSegwit false tx = false := by
  simp [isSegwit]

theorem length_txBytes_stripped {tx : TxSerial.BtcTx} (hsized : Sized tx) :
    (txBytes false tx).length = strippedSize tx := by
  simp only [txBytes, isSegwit_false, Bool.false_eq_true, if_false, List.nil_append,
    List.length_append, length_setLe32, length_setVarintLen, List.length_flatMap,
    length_vins hsized.txid, length_vouts, strippedSize]
  omega

theorem createTx_stripped {tx : TxSerial.BtcTx} (hsized : Sized tx)
    (hsize : strippedSize tx < 2 ^ 32) :
    (createTx false tx).ret = true ∧ (createTx false tx).allocated = strippedSize tx := by
  have hlen : (4 + getVarintLen tx.vin.length + getVarintLen tx.vout.length +
      (tx.vin.map (vinLen false)).sum + (if isSegwit false tx then 2 else 0) +
      (tx.vout.map voutLen).sum + 4) % 2 ^ 32 = strippedSize tx := by
    rw [isSegwit_false, if_neg Bool.false_ne_true, strippedSize] at *
    omega
  refine ⟨?_, hlen⟩
  change ((txBytes false tx).length % 2 ^ 32 == _) = true
  rw [length_txBytes_stripped hsized, hlen, Nat.mod_eq_of_lt hsize]
  exact beq_self_eq_true _

theorem strippedSize_le (tx : TxSerial.BtcTx) : strippedSize tx ≤ tx.size := by
  simp only [strippedSize, BtcTx.size, BtcTx.voutStart, BtcTx.vinStart]
  omega

theorem turns_le_size {tx : TxSerial.BtcTx} : tx.turns ≤ tx.size := by
  have hvin : tx.vin.length * 41 ≤ (tx.vin.map (vinLen false)).sum := by
    rw [← List.length_map (f := vinLen false), ← smul_eq_mul]
    apply List.card_nsmul_le_sum
    intro len hmem
    obtain ⟨vin, -, rfl⟩ := List.mem_map.mp hmem
    have hvarint := one_le_getVarintLen vin.script.length
    simp only [vinLen, witnessLen]
    omega
  have hvout : tx.vout.length * 9 ≤ (tx.vout.map voutLen).sum := by
    rw [← List.length_map (f := voutLen), ← smul_eq_mul]
    apply List.card_nsmul_le_sum
    intro len hmem
    obtain ⟨vout, -, rfl⟩ := List.mem_map.mp hmem
    have hvarint := one_le_getVarintLen vout.script.length
    simp only [voutLen]
    omega
  have hcounts := one_le_getVarintLen tx.vin.length
  have hcounts' := one_le_getVarintLen tx.vout.length
  simp only [BtcTx.turns, BtcTx.size, BtcTx.voutStart, BtcTx.vinStart]
  split <;> omega

/-- Where the lengths of scripts stand, an `int` can point. -/
theorem starts_lt {tx : TxSerial.BtcTx} (hsize : tx.size < 2 ^ 30) :
    (∀ start ∈ Layout.starts tx.vinStart (tx.vin.map (vinLen false)), start + 36 < 2 ^ 31) ∧
      ∀ start ∈ Layout.starts tx.voutStart (tx.vout.map voutLen), start + 8 < 2 ^ 31 := by
  constructor
  · intro start hmem
    have hle := Layout.starts_le hmem
    simp only [BtcTx.size, BtcTx.voutStart] at hsize
    omega
  · intro start hmem
    have hle := Layout.starts_le hmem
    simp only [BtcTx.size] at hsize
    omega

/-- The marks of a transaction with witnesses. -/
theorem txBytes_marks {tx : TxSerial.BtcTx} (hsegwit : isSegwit true tx = true) :
    (txBytes true tx).getD 4 0 = 0x00 ∧ (txBytes true tx).getD 5 0 = 0x01 := by
  have hversion : (setLe32 tx.version.toUInt32).length = 4 := length_setLe32 _
  rw [txBytes, hsegwit, if_pos rfl]
  constructor
  · rw [List.getD_append_right _ _ _ _ hversion.le, hversion]
    rfl
  · rw [List.getD_append_right _ _ _ _ (hversion.le.trans (by decide)), hversion]
    rfl

/-- The vbytes of a transaction are found from its bytes. -/
theorem btcTxGetVbyteRaw_eq {tx : TxSerial.BtcTx} (hsized : Sized tx) (hvin : tx.vin ≠ [])
    (hsegwit : isSegwit true tx = true) (hsize : tx.size < 2 ^ 30) (heap : Heap) :
    ∃ vbyte, btcTxGetVbyteRaw heap (txBytes true tx) = some vbyte ∧
      vbyte.toNat = (strippedSize tx * 3 + tx.size + 3) / 4 := by
  obtain ⟨hmark, hflag⟩ := txBytes_marks hsegwit
  have hlength := length_txBytes hsized
  have hread := btcTxRead_eq hsized hvin (hsize.trans (by decide)) heap (serial btcTxInit)
    ((txBytes true tx).length - tx.turns)
  have hturns : (txBytes true tx).length - tx.turns + tx.turns = (txBytes true tx).length :=
    Nat.sub_add_cancel (hlength ▸ turns_le_size)
  rw [hturns, if_pos (starts_lt hsize)] at hread
  have hle := strippedSize_le tx
  obtain ⟨hret, hallocated⟩ := createTx_stripped hsized (hle.trans_lt (hsize.trans (by decide)))
  refine ⟨(UInt32.ofNat (strippedSize tx) * 3 + UInt32.ofNat tx.size + 3) / 4, ?_, ?_⟩
  · have hno : ¬ ((0x01 : UInt8) ≠ 0x01) := by decide
    rw [hlength] at hread
    simp only [btcTxGetVbyteRaw, hmark, hflag, hno, and_false, if_false, hlength, and_self,
      if_true]
    rw [hread]
    simp only [hret, hallocated, if_true]
  · have hold : (UInt32.ofNat (strippedSize tx)).toNat = strippedSize tx :=
      UInt32.toNat_ofNat_of_lt' (hle.trans_lt (hsize.trans (by decide)))
    have hnew : (UInt32.ofNat tx.size).toNat = tx.size :=
      UInt32.toNat_ofNat_of_lt' (hsize.trans (by decide))
    rw [UInt32.toNat_div, UInt32.toNat_add, UInt32.toNat_add, UInt32.toNat_mul, hold, hnew]
    change ((strippedSize tx * 3 % 2 ^ 32 + tx.size) % 2 ^ 32 + 3) % 2 ^ 32 / 4 = _
    omega

/-- What fits the counts and lengths of a transaction, for the stored entries and the address. -/
structure Fits (entries : List LnDbWallet) (spk : Bytes) : Prop where
  count : entries.length < 2 ^ 14
  items : ∀ entry ∈ entries, entry.wit.length < 253
  item : ∀ entry ∈ entries, ∀ item ∈ entry.wit, item.length < 256
  spk : spk.length < 253

/-- The vbytes of a transaction: a witness counts for a quarter. -/
def vsize (tx : TxSort.BtcTx) : Nat :=
  ((txBytes false (serial tx)).length * 3 + (txBytes true (serial tx)).length + 3) / 4

theorem heldItem_length {entry : LnDbWallet} (hkey : (entry.wit.headD []).length = btcSzPrivkey) :
    (heldItem entry).length = 41 := by
  rw [heldItem, List.length_append, hkey, List.length_cons, length_setLe64, btcSzPrivkey]

/-- The witness of an input, with any first item. -/
theorem witnessSize_first (entry : LnDbWallet) (first : Bytes) :
    witnessSize (serialVin (withFirst (vinOf entry) first)) =
      getVarintLen (entry.wit.tail.length + 1) + (first.length + getVarintLen first.length +
        (entry.wit.tail.map fun item => item.length + getVarintLen item.length).sum) :=
  rfl

theorem vinOf_eq_first (entry : LnDbWallet) :
    vinOf entry = withFirst (vinOf entry) (heldItem entry) :=
  rfl

/-- The input of an entry, signed or not: its outpoint, sequence and other items are those of the
entry. -/
structure Becomes (entry : LnDbWallet) (signed : TxSort.BtcVin) : Prop where
  key : (entry.wit.headD []).length = btcSzPrivkey
  first : ∃ first : Bytes, first.length ≤ 72 ∧ signed = withFirst (vinOf entry) first

theorem becomes_of_first {crypto : Crypto}
    (hsign : ∀ priv hash, (crypto.sign priv hash).length ≤ 72) {entry : LnDbWallet}
    (hkey : (entry.wit.headD []).length = btcSzPrivkey)
    {signed : TxSort.BtcVin} (hsigned : signed = vinOf entry ∨
      ∃ secret hash, signed = withFirst (vinOf entry) (crypto.sign secret hash)) :
    Becomes entry signed := by
  rcases hsigned with rfl | ⟨secret, hash, rfl⟩
  · have hheld := heldItem_length hkey
    exact ⟨hkey, _, by omega, vinOf_eq_first entry⟩
  · exact ⟨hkey, _, hsign secret hash, rfl⟩

/-- A signature takes at most 31 bytes more than what it replaces. -/
theorem Becomes.witnessSize_le {entry : LnDbWallet} {signed : TxSort.BtcVin}
    (hsigned : Becomes entry signed) :
    witnessSize (serialVin signed) ≤ witnessSize (serialVin (vinOf entry)) + 31 := by
  obtain ⟨first, hshort, rfl⟩ := hsigned.first
  have hvarint : getVarintLen first.length = 1 := if_pos (by omega)
  have hheld : getVarintLen 41 = 1 := rfl
  have hbefore := witnessSize_first entry (heldItem entry)
  rw [← vinOf_eq_first, heldItem_length hsigned.key] at hbefore
  rw [witnessSize_first, hbefore]
  omega

theorem sum_witnessSize_le {included : List LnDbWallet} {signed : List TxSort.BtcVin}
    (hsigned : List.Forall₂ Becomes included signed) :
    (signed.map fun vin => witnessSize (serialVin vin)).sum ≤
      (included.map fun entry => witnessSize (serialVin (vinOf entry))).sum +
        31 * included.length := by
  induction hsigned with
  | nil => exact Nat.le_refl _
  | cons hfirst _ ih =>
      have hwitness := hfirst.witnessSize_le
      simp only [List.map_cons, List.sum_cons, List.length_cons]
      omega

/-- What does not depend on the witnesses. -/
theorem vinLens_eq {included : List LnDbWallet} {signed : List TxSort.BtcVin}
    (hsigned : List.Forall₂ Becomes included signed) :
    (signed.map fun vin => vinLen false (serialVin vin)) = included.map fun _ => 41 := by
  induction hsigned with
  | nil => rfl
  | cons hfirst _ ih =>
      obtain ⟨first, -, rfl⟩ := hfirst.first
      rw [List.map_cons, List.map_cons, ih]
      rfl

/-- A transaction of the wallet: its inputs are those of the entries. -/
structure Spends (included : List LnDbWallet) (spk : Bytes) (tx : TxSort.BtcTx) : Prop where
  vin : List.Forall₂ Becomes included tx.vin
  vout : ∃ value, tx.vout = [⟨value, spk, 0⟩]

section Size

variable {included : List LnDbWallet} {spk : Bytes} {tx : TxSort.BtcTx}

theorem Spends.strippedSize_eq (hspends : Spends included spk tx) :
    strippedSize (serial tx) = 4 + getVarintLen included.length + 41 * included.length + 1 +
      (8 + spk.length + getVarintLen spk.length) + 4 := by
  obtain ⟨value, hvout⟩ := hspends.vout
  have hlens : ((serial tx).vin.map (vinLen false)).sum = 41 * included.length := by
    rw [serial, List.map_map]
    change (tx.vin.map fun vin => vinLen false (serialVin vin)).sum = _
    rw [vinLens_eq hspends.vin, List.map_const', List.sum_replicate, smul_eq_mul, Nat.mul_comm]
  have hcount : (serial tx).vin.length = included.length := by
    rw [serial, List.length_map, hspends.vin.length_eq]
  have hvouts : (serial tx).vout = [⟨value, spk⟩] := by
    rw [serial, hvout]
    rfl
  rw [strippedSize, hlens, hcount, hvouts]
  rfl

theorem Spends.isSegwit (hspends : Spends included spk tx) (hsome : included ≠ []) :
    isSegwit true (serial tx) = true := by
  have hvin := hspends.vin
  cases hincluded : included with
  | nil => exact absurd hincluded hsome
  | cons entry rest =>
      rw [hincluded] at hvin
      cases hsigned : tx.vin with
      | nil =>
          rw [hsigned] at hvin
          cases hvin
      | cons vin others =>
          rw [hsigned] at hvin
          obtain ⟨first, -, rfl⟩ := (List.forall₂_cons.mp hvin).1.first
          simp [TxSerial.isSegwit, serial, hsigned, serialVin, withFirst]

theorem Spends.size_eq (hspends : Spends included spk tx) (hsome : included ≠ []) :
    (serial tx).size = strippedSize (serial tx) + 2 +
      (tx.vin.map fun vin => witnessSize (serialVin vin)).sum := by
  have hwitness : ((serial tx).vin.map witnessSize) =
      tx.vin.map fun vin => witnessSize (serialVin vin) := by
    rw [serial, List.map_map]
    rfl
  rw [BtcTx.size, BtcTx.voutStart, BtcTx.vinStart, hspends.isSegwit hsome, if_pos rfl, if_pos rfl,
    hwitness, strippedSize]
  omega

theorem Spends.key (hspends : Spends included spk tx) :
    ∀ entry ∈ included, (entry.wit.headD []).length = btcSzPrivkey := by
  intro entry hmem
  obtain ⟨signed, -, hbecomes⟩ := exists_right_of_mem hspends.vin hmem
  exact hbecomes.key

/-- The entries and the address make a transaction whose counts and lengths fit. -/
theorem Spends.sized (hspends : Spends included spk tx) (hfits : Fits included spk) :
    Sized (serial tx) := by
  have hvins : ∀ vin ∈ (serial tx).vin, ∃ entry ∈ included, ∃ first : Bytes, first.length ≤ 72 ∧
      vin = serialVin (withFirst (vinOf entry) first) := by
    intro vin hmem
    obtain ⟨signed, hsigned, rfl⟩ := List.mem_map.mp hmem
    obtain ⟨entry, hentry, hbecomes⟩ := exists_left_of_mem hspends.vin hsigned
    obtain ⟨first, hshort, rfl⟩ := hbecomes.first
    exact ⟨entry, hentry, first, hshort, rfl⟩
  obtain ⟨value, hvout⟩ := hspends.vout
  have hcount := hfits.count
  have hspk := hfits.spk
  have hvouts : (serial tx).vout = [⟨value, spk⟩] := by
    rw [serial, hvout]
    rfl
  refine ⟨?_, ?_, ?_, ?_, ?_, ?_, ?_⟩
  · rw [serial, List.length_map, ← hspends.vin.length_eq]
    omega
  · rw [hvouts, List.length_singleton]
    omega
  · intro vin hmem
    obtain ⟨entry, -, first, -, rfl⟩ := hvins vin hmem
    simp only [serialVin, Vector.length_toList]
  · intro vin hmem
    obtain ⟨entry, -, first, -, rfl⟩ := hvins vin hmem
    simp [serialVin, withFirst, vinOf]
  · intro vout hmem
    rw [hvouts] at hmem
    obtain rfl := List.mem_singleton.mp hmem
    change spk.length < 65536
    omega
  · intro vin hmem
    obtain ⟨entry, hentry, first, -, rfl⟩ := hvins vin hmem
    have hitems := hfits.items entry hentry
    change entry.wit.tail.length + 1 < 65536
    rw [List.length_tail]
    omega
  · intro vin hmem item hitem
    obtain ⟨entry, hentry, first, hshort, rfl⟩ := hvins vin hmem
    rcases List.mem_cons.mp hitem with rfl | htail
    · omega
    · have hlt := hfits.item entry hentry item (List.mem_of_mem_tail htail)
      omega

/-- With so few inputs, nothing of the transaction is large. -/
theorem Spends.size_lt (hspends : Spends included spk tx) (hfits : Fits included spk)
    (hsome : included ≠ []) : (serial tx).size < 2 ^ 30 := by
  have hwitness : (tx.vin.map fun vin => witnessSize (serialVin vin)).sum ≤
      (included.map fun entry => witnessSize (serialVin (vinOf entry))).sum +
        31 * included.length := sum_witnessSize_le hspends.vin
  have hentries : (included.map fun entry => witnessSize (serialVin (vinOf entry))).sum ≤
      included.length * 64900 := by
    rw [← List.length_map (fun entry => witnessSize (serialVin (vinOf entry))), ← smul_eq_mul]
    apply List.sum_le_card_nsmul
    intro size hmem
    obtain ⟨entry, hentry, rfl⟩ := List.mem_map.mp hmem
    have hkey := hspends.key entry hentry
    have hbefore := witnessSize_first entry (heldItem entry)
    rw [← vinOf_eq_first, heldItem_length hkey] at hbefore
    have hitems := hfits.items entry hentry
    have hvarint : getVarintLen (entry.wit.tail.length + 1) ≤ 3 := by
      rw [getVarintLen]
      split <;> omega
    have htail : (entry.wit.tail.map fun item => item.length + getVarintLen item.length).sum ≤
        entry.wit.tail.length * 258 := by
      rw [← List.length_map (fun item : Bytes => item.length + getVarintLen item.length),
        ← smul_eq_mul]
      apply List.sum_le_card_nsmul
      intro size hmem
      obtain ⟨item, hitem, rfl⟩ := List.mem_map.mp hmem
      have hlt := hfits.item entry hentry item (List.mem_of_mem_tail hitem)
      rw [getVarintLen]
      split <;> omega
    have hheld : getVarintLen 41 = 1 := rfl
    rw [List.length_tail] at htail
    rw [hbefore]
    omega
  have hstripped := hspends.strippedSize_eq
  have hcount := hfits.count
  have hspk := hfits.spk
  have hvarint : getVarintLen included.length ≤ 3 := by
    rw [getVarintLen]
    split <;> omega
  have hvarint' : getVarintLen spk.length ≤ 3 := by
    rw [getVarintLen]
    split <;> omega
  rw [hspends.size_eq hsome]
  omega

end Size

theorem Fits.sublist {entries included : List LnDbWallet} {spk : Bytes} (hfits : Fits entries spk)
    (hsublist : included.Sublist entries) : Fits included spk where
  count := hsublist.length_le.trans_lt hfits.count
  items entry hmem := hfits.items entry (hsublist.subset hmem)
  item entry hmem := hfits.item entry (hsublist.subset hmem)
  spk := hfits.spk

/-- What is collected, with one output. -/
theorem Collected.spends {answers : LnDbWallet → NodeAnswer} {entries included : List LnDbWallet}
    {wallet : WalletT} (hcollected : Collected answers entries included wallet) (value : UInt64)
    (spk : Bytes) : Spends included spk (payingTo wallet.tx value spk) := by
  refine ⟨?_, value, rfl⟩
  have hself : List.Forall₂ Becomes included (included.map vinOf) := by
    rw [List.forall₂_map_right_iff, List.forall₂_same]
    intro entry hmem
    have hkey := (hcollected.ready entry hmem).key
    have hheld := heldItem_length hkey
    exact ⟨hkey, _, by omega, vinOf_eq_first entry⟩
  rwa [← hcollected.vin] at hself

/-- The buffer holds all of the unsigned transaction. -/
theorem btcTxCreate_all {included : List LnDbWallet} {spk : Bytes} {tx : TxSort.BtcTx}
    (hfits : Fits included spk) (hsome : included ≠ []) (hspends : Spends included spk tx) :
    (btcTxCreate (serial tx)).written.take (btcTxCreate (serial tx)).allocated =
      txBytes true (serial tx) := by
  have hsized := hspends.sized hfits
  have hwitness : ∀ vin ∈ (serial tx).vin, vin.witness ≠ [] ∧ vin.witness.length < 0xfd := by
    intro vin hmem
    obtain ⟨signed, hsigned, rfl⟩ := List.mem_map.mp hmem
    obtain ⟨entry, hentry, hbecomes⟩ := exists_left_of_mem hspends.vin hsigned
    obtain ⟨first, -, rfl⟩ := hbecomes.first
    have hkey := hbecomes.key
    have hitems := hfits.items entry hentry
    refine ⟨List.cons_ne_nil _ _, ?_⟩
    change entry.wit.tail.length + 1 < 0xfd
    cases hwit : entry.wit with
    | nil =>
        rw [hwit] at hkey
        cases hkey
    | cons item items =>
        rw [hwit] at hitems
        exact hitems
  have hsize := (hspends.size_lt hfits hsome).trans (by decide : 2 ^ 30 < 2 ^ 32)
  obtain ⟨-, hlength⟩ := (createTx_iff hsized).mpr ⟨.inr hwitness, hsize⟩
  rw [← hlength, List.take_length]
  rfl

/-! ### What is paid -/

/-- The transaction takes entries that are ready and pays all that they hold but a fee to the
address; the fee is at least the rate, in satoshis for 1000 vbytes, for what it is with its
signatures. -/
def PaysAll (answers : LnDbWallet → NodeAnswer) (entries : List LnDbWallet) (spk : Bytes)
    (feeratePerKb : UInt32) (tx : TxSort.BtcTx) : Prop :=
  ∃ (included : List LnDbWallet) (value : UInt64) (fee : Nat),
    included.Sublist entries ∧ (∀ entry ∈ included, Ready (answers entry) entry) ∧
    List.Forall₂ Becomes included tx.vin ∧
    tx.vout = [⟨value, spk, 0⟩] ∧ btcDustLimit ≤ value ∧
    (included.map fun entry => entry.amount.toNat).sum % 2 ^ 64 = value.toNat + fee ∧
    vsize tx * feeratePerKb.toNat / 1000 ≤ fee

theorem feeOf_toNat (vbyte rate : UInt32) :
    (feeOf vbyte rate).toNat = vbyte.toNat * rate.toNat / 1000 := by
  have hvbyte := vbyte.toNat_lt
  have hrate := rate.toNat_lt
  have hproduct : vbyte.toNat * rate.toNat < 2 ^ 64 :=
    (Nat.mul_lt_mul'' hvbyte hrate).trans_le (by decide)
  rw [feeOf, UInt64.toNat_div, UInt64.toNat_mul, UInt32.toNat_toUInt64, UInt32.toNat_toUInt64,
    Nat.mod_eq_of_lt hproduct]
  rfl

theorem vbyteSigned_toNat {vbyte count : UInt32} (hvbyte : vbyte.toNat < 2 ^ 30)
    (hcount : count.toNat < 2 ^ 14) :
    (vbyteSigned vbyte count).toNat = vbyte.toNat + (31 * count.toNat + 3) / 4 := by
  rw [vbyteSigned, UInt32.toNat_add, UInt32.toNat_div, UInt32.toNat_add, UInt32.toNat_mul]
  change (vbyte.toNat + (31 * count.toNat % 2 ^ 32 + 3) % 2 ^ 32 / 4) % 2 ^ 32 = _
  have hproduct : 31 * count.toNat % 2 ^ 32 = 31 * count.toNat := Nat.mod_eq_of_lt (by omega)
  have hsum : (31 * count.toNat + 3) % 2 ^ 32 = 31 * count.toNat + 3 :=
    Nat.mod_eq_of_lt (by omega)
  rw [hproduct, hsum]
  exact Nat.mod_eq_of_lt (by omega)

/-- The fee covers the transaction once it is signed. -/
theorem feeOf_covers {included : List LnDbWallet} {spk : Bytes} {before after : TxSort.BtcTx}
    (hfits : Fits included spk) (hsome : included ≠ []) (hbefore : Spends included spk before)
    (hunsigned : before.vin = included.map vinOf) (hafter : Spends included spk after)
    {vbyte : UInt32} (hvbyte : vbyte.toNat =
      (strippedSize (serial before) * 3 + (serial before).size + 3) / 4) (rate : UInt32) :
    vsize after * rate.toNat / 1000 ≤
      (feeOf (vbyteSigned vbyte (UInt32.ofNat before.vin.length)) rate).toNat := by
  have hsize := hbefore.size_lt hfits hsome
  have hstripped := strippedSize_le (serial before)
  have hcount := hfits.count
  have hlength : before.vin.length = included.length := hbefore.vin.length_eq.symm
  have hnum : (UInt32.ofNat before.vin.length).toNat = included.length := by
    rw [hlength]
    exact UInt32.toNat_ofNat_of_lt' (hcount.trans (by decide))
  have hwitness : (after.vin.map fun vin => witnessSize (serialVin vin)).sum ≤
      (before.vin.map fun vin => witnessSize (serialVin vin)).sum + 31 * included.length := by
    rw [hunsigned, List.map_map]
    exact sum_witnessSize_le hafter.vin
  have hvsize : vsize after ≤ vbyte.toNat + (31 * included.length + 3) / 4 := by
    have hold := hbefore.strippedSize_eq.trans hafter.strippedSize_eq.symm
    rw [vsize, length_txBytes_stripped (hafter.sized hfits), length_txBytes (hafter.sized hfits),
      hafter.size_eq hsome, hvbyte, hbefore.size_eq hsome, hold]
    omega
  rw [feeOf_toNat, vbyteSigned_toNat (by omega) (by omega), hnum]
  exact Nat.div_le_div_right (Nat.mul_le_mul_right _ hvsize)

/-- What is left of the amount is no dust. -/
theorem sub_fee {amount : UInt64} {vbyte rate : UInt32}
    (hlow : ¬ amount < feeOf vbyte rate + btcDustLimit) :
    btcDustLimit ≤ amount - feeOf vbyte rate ∧
      amount.toNat = (amount - feeOf vbyte rate).toNat + (feeOf vbyte rate).toNat := by
  have hfee : (feeOf vbyte rate).toNat ≤ 2 ^ 64 / 1000 := by
    rw [feeOf, UInt64.toNat_div]
    exact Nat.div_le_div_right (UInt64.toNat_lt _).le
  have hdust : btcDustLimit.toNat = 546 := rfl
  have hsum : (feeOf vbyte rate + btcDustLimit).toNat = (feeOf vbyte rate).toNat + 546 := by
    rw [UInt64.toNat_add, hdust]
    omega
  rw [UInt64.not_lt, UInt64.le_iff_toNat_le, hsum] at hlow
  have hle : feeOf vbyte rate ≤ amount := UInt64.le_iff_toNat_le.mpr (by omega)
  have hleft := UInt64.toNat_sub_of_le _ _ hle
  refine ⟨UInt64.le_iff_toNat_le.mpr ?_, ?_⟩
  · rw [hleft, hdust]
    omega
  · rw [hleft]
    omega

/-- What is sent when the wallet succeeds. -/
theorem walletFromPtarm_ok {crypto : Crypto} {sha256 : Bytes → Digest} {heap : Heap}
    {stale : Digest} {answers : LnDbWallet → NodeAnswer} {entries : List LnDbWallet} {spk : Bytes}
    {feeratePerKb : UInt32} {ret : Bool} {tx : TxSort.BtcTx}
    (hsent : walletFromPtarm crypto sha256 heap stale answers entries (some spk) feeratePerKb =
      .result ret tx) :
    ∃ wallet fee vins, walletCollect answers entries = some wallet ∧ wallet.tx.vin.length ≠ 0 ∧
      walletFee heap (payingTo wallet.tx wallet.amount spk) feeratePerKb = some fee ∧
      ¬ wallet.amount < fee + btcDustLimit ∧
      signVins crypto sha256 (payingTo wallet.tx (wallet.amount - fee) spk) wallet.tx.vin 0 true
        stale = some (vins, ret) ∧
      tx = { payingTo wallet.tx (wallet.amount - fee) spk with vin := vins } := by
  cases hwallet : walletCollect answers entries with
  | none =>
      simp only [walletFromPtarm, hwallet] at hsent
      cases hsent
  | some wallet =>
      by_cases hnone : wallet.tx.vin.length = 0
      · simp only [walletFromPtarm, hwallet, hnone, if_true] at hsent
        cases hsent
      · cases hfee : walletFee heap (payingTo wallet.tx wallet.amount spk) feeratePerKb with
        | none =>
            simp only [walletFromPtarm, hwallet, hnone, if_false, hfee] at hsent
            cases hsent
        | some fee =>
            by_cases hlow : wallet.amount < fee + btcDustLimit
            · simp only [walletFromPtarm, hwallet, hnone, if_false, hfee, hlow, if_true] at hsent
              cases hsent
            · simp only [walletFromPtarm, hwallet, hnone, if_false, hfee, hlow] at hsent
              cases hsigned : signVins crypto sha256
                  (payingTo wallet.tx (wallet.amount - fee) spk)
                  (payingTo wallet.tx (wallet.amount - fee) spk).vin 0 true stale with
              | none =>
                  simp only [hsigned] at hsent
                  cases hsent
              | some signed =>
                  obtain ⟨vins, last⟩ := signed
                  simp only [hsigned] at hsent
                  obtain ⟨rfl, rfl⟩ := Sent.result.inj hsent
                  exact ⟨wallet, fee, vins, rfl, hnone, hfee, hlow, hsigned, rfl⟩

/-- Whatever the node answers, what the wallet sends pays all that it takes, but for a fee that
covers the rate. -/
theorem walletFromPtarm_pays {crypto : Crypto} {sha256 : Bytes → Digest} {heap : Heap}
    {stale : Digest} {answers : LnDbWallet → NodeAnswer} {entries : List LnDbWallet} {spk : Bytes}
    {feeratePerKb : UInt32} {ret : Bool} {tx : TxSort.BtcTx}
    (hsign : ∀ priv hash, (crypto.sign priv hash).length ≤ 72) (hfits : Fits entries spk)
    (hsent : walletFromPtarm crypto sha256 heap stale answers entries (some spk) feeratePerKb =
      .result ret tx) :
    PaysAll answers entries spk feeratePerKb tx := by
  obtain ⟨wallet, fee, vins, hwallet, hnone, hfee, hlow, hsigned, rfl⟩ := walletFromPtarm_ok hsent
  obtain ⟨included, hcollected⟩ := walletCollect_collected hwallet
  have hincluded := hfits.sublist hcollected.sublist
  have hsome : included ≠ [] := by
    rintro rfl
    exact hnone (by rw [hcollected.vin]; rfl)
  have hbefore := hcollected.spends wallet.amount spk
  have hvin : List.Forall₂ Becomes included vins := by
    have hfirst := signVins_first hsigned
    rw [hcollected.vin, List.forall₂_map_left_iff] at hfirst
    have hready : ∀ entry ∈ included, (entry.wit.headD []).length = btcSzPrivkey :=
      fun entry hmem => (hcollected.ready entry hmem).key
    refine ((List.forall₂_and_left _ _).mpr ⟨hready, hfirst⟩).imp ?_
    rintro entry signed ⟨hkey, hsigned⟩
    exact becomes_of_first hsign hkey hsigned
  have hafter : Spends included spk
      { payingTo wallet.tx (wallet.amount - fee) spk with vin := vins } := ⟨hvin, _, rfl⟩
  obtain ⟨vbyte, hvbyte, rfl⟩ := Option.map_eq_some_iff.mp hfee
  rw [btcTxCreate_all hincluded hsome hbefore] at hvbyte
  have hvinSome : (serial (payingTo wallet.tx wallet.amount spk)).vin ≠ [] := by
    rw [serial, ne_eq, List.map_eq_nil_iff]
    exact fun hnil => hnone (congrArg List.length hnil)
  obtain ⟨vbyte', hfound, hsize⟩ := btcTxGetVbyteRaw_eq (hbefore.sized hincluded) hvinSome
    (hbefore.isSegwit hsome) (hbefore.size_lt hincluded hsome) heap
  obtain rfl := Option.some.inj (hvbyte.symm.trans hfound)
  have hcovers := feeOf_covers hincluded hsome hbefore hcollected.vin hafter hsize feeratePerKb
  obtain ⟨hdust, hpaid⟩ := sub_fee hlow
  exact ⟨included, wallet.amount - _, _, hcollected.sublist, hcollected.ready, hvin, rfl, hdust,
    hcollected.amount.symm.trans hpaid, hcovers⟩

/-- A `to_remote` output, and a `to_local` output that has to be 40 blocks old. -/
def twoEntries : List LnDbWallet :=
  [ ⟨lnDbWalletTypeToremote, fun _ => 1, 0, 20000, 0, 0,
      [List.replicate 32 5, List.replicate 33 6]⟩,
    ⟨lnDbWalletTypeTolocal, fun _ => 2, 1, 30000, 40, 0,
      [List.replicate 32 7, [], List.replicate 78 8]⟩ ]

/-- Both outputs are unspent; they have been confirmed for 50 blocks. -/
def settled (_ : LnDbWallet) : NodeAnswer := ⟨some true, some 50⟩

def sentTwo : Sent :=
  walletFromPtarm .sized (fun _ => constant 1) blankHeap (constant 0) settled twoEntries
    (some (List.replicate 22 9)) 1000

theorem sized_sign (priv hash : Bytes) : (Crypto.sized.sign priv hash).length ≤ 72 := by
  simp [Crypto.sized]

/-- Both are sent. -/
theorem walletFromPtarm_pays_two :
    ∃ tx, tx.vin.length = 2 ∧ PaysAll settled twoEntries (List.replicate 22 9) 1000 tx := by
  have hfits : Fits twoEntries (List.replicate 22 9) := by
    refine ⟨by decide, by decide, by decide, by decide⟩
  have hsent : sentTwo.tx?.any (fun tx => tx.vin.length == 2) = true := by
    decide +kernel
  obtain ⟨tx, htx, hchecked⟩ := (Option.any_eq_true _ _).mp hsent
  obtain ⟨ret, hfound⟩ := Sent.tx?_eq_some htx
  exact ⟨tx, beq_iff_eq.mp hchecked, walletFromPtarm_pays sized_sign hfits hfound⟩

end Wallet

end Ptarmigan
