/-
Transactions with one input, as the node builds and signs them: the part that
signatures cover, when it is valid, and the order of outputs (BIP69).
-/
import Mathlib.Data.UInt
import Mathlib.Data.Prod.Lex
import Mathlib.Order.Nat
import Ptarmigan.Library.ExchangeSort

namespace Ptarmigan

/-- A byte string of the source (`utl_buf_t` or a fixed-size `uint8_t` array). -/
abbrev Bytes := List UInt8

/-- `memcmp` of byte strings of one length: the first comes later. -/
def memcmpGt : Bytes → Bytes → Bool
  | [], _ => false
  | _ :: _, [] => true
  | x :: xs, y :: ys => if x = y then memcmpGt xs ys else decide (y < x)

/-- An output script: `00 14 <hash>` or `00 20 <hash>`. -/
inductive ScriptPk
  | p2wpkh (pubKeyHash : Bytes)
  | p2wsh (scriptHash : Bytes)
deriving DecidableEq, Repr

/-- `memcmp` of output scripts.  Two of one kind have the same length, two of
different kinds differ in the second byte. -/
def ScriptPk.memcmpGt : ScriptPk → ScriptPk → Bool
  | .p2wpkh hash, .p2wpkh hash' => Ptarmigan.memcmpGt hash hash'
  | .p2wpkh _, .p2wsh _ => false
  | .p2wsh _, .p2wpkh _ => true
  | .p2wsh hash, .p2wsh hash' => Ptarmigan.memcmpGt hash hash'

def ScriptPk.bytes : ScriptPk → Bytes
  | .p2wpkh hash => [0x00, 0x14] ++ hash
  | .p2wsh hash => [0x00, 0x20] ++ hash

/-- `btc_tx_t` without witnesses: version 2, one input. -/
structure BtcTx where
  vinTxid : Bytes
  vinIndex : Nat
  sequence : UInt32
  vout : List (UInt64 × Bytes)
  locktime : UInt32
deriving DecidableEq, Repr

/-- `btc_tx_is_valid`, for a transaction with one input; `0x6a` is `OP_RETURN`. -/
def BtcTx.isValid (tx : BtcTx) : Bool :=
  !tx.vout.isEmpty &&
    tx.vout.all fun out => !out.2.isEmpty && (out.1 != 0 || out.2.head? == some 0x6a)

/-- The comparison of `btc_util_sort_bip69`: by value, then by script. -/
def bip69Gt (value value' : UInt64) (script script' : ScriptPk) : Bool :=
  if value = value' then script.memcmpGt script' else decide (value' < value)

section Order

/-- What `bip69Gt` orders outputs by. -/
def bip69Key (value : UInt64) (script : ScriptPk) : ℕ ×ₗ ℕ ×ₗ List ℕ :=
  match script with
  | .p2wpkh hash => toLex (value.toNat, toLex (0, hash.map UInt8.toNat))
  | .p2wsh hash => toLex (value.toNat, toLex (1, hash.map UInt8.toNat))

theorem memcmpGt_iff (xs ys : Bytes) :
    memcmpGt xs ys = true ↔ ys.map UInt8.toNat < xs.map UInt8.toNat := by
  induction xs generalizing ys with
  | nil => simp [memcmpGt]
  | cons x xs ih =>
      cases ys with
      | nil => simp [memcmpGt]
      | cons y ys =>
          by_cases heq : x = y
          · simp [memcmpGt, heq, ih]
          · have hne : y.toNat ≠ x.toNat := fun h => heq (UInt8.toNat_inj.mp h).symm
            simp [memcmpGt, heq, hne, List.cons_lt_cons_iff, UInt8.lt_iff_toNat_lt]

theorem bip69Gt_iff (value value' : UInt64) (script script' : ScriptPk) :
    bip69Gt value value' script script' = true ↔
      bip69Key value' script' < bip69Key value script := by
  by_cases heq : value = value'
  · subst heq
    cases script <;> cases script' <;>
      simp [bip69Gt, bip69Key, ScriptPk.memcmpGt, memcmpGt_iff, Prod.Lex.toLex_lt_toLex]
  · have hne : value'.toNat ≠ value.toNat := fun h => heq (UInt64.toNat_inj.mp h).symm
    cases script <;> cases script' <;>
      simp [bip69Gt, bip69Key, heq, hne, Prod.Lex.toLex_lt_toLex, UInt64.lt_iff_toNat_lt]

theorem bip69Key_inj {value value' : UInt64} {script script' : ScriptPk}
    (hkey : bip69Key value script = bip69Key value' script') :
    value = value' ∧ script = script' := by
  have hmap : ∀ xs ys : Bytes, xs.map UInt8.toNat = ys.map UInt8.toNat → xs = ys :=
    fun xs ys h => (List.map_inj_right fun _ _ => UInt8.toNat_inj.mp).mp h
  cases script <;> cases script' <;>
    simp only [bip69Key, EmbeddingLike.apply_eq_iff_eq, Prod.mk.injEq, zero_ne_one, one_ne_zero,
      false_and, and_false, true_and] at hkey
  · exact ⟨UInt64.toNat_inj.mp hkey.1, congrArg _ (hmap _ _ hkey.2)⟩
  · exact ⟨UInt64.toNat_inj.mp hkey.1, congrArg _ (hmap _ _ hkey.2)⟩

end Order

end Ptarmigan
