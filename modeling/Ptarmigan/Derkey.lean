/-
The cryptographic primitives a channel calls, and the per-commitment secrets
built on them: their derivation from a seed and the compressed store of those
received from the peer (`ln_derkey`).
-/
import Ptarmigan.Library.BigEndian
import Ptarmigan.Tx

namespace Ptarmigan

/-- The primitives of the crypto library and of the key derivation built on it. -/
structure Crypto where
  sha256 : Bytes → Bytes
  hash160 : Bytes → Bytes
  ripemd160 : Bytes → Bytes
  /-- `btc_keys_priv2pub`; `none` when the bytes are no private key. -/
  priv2pub : Bytes → Option Bytes
  /-- `ln_derkey_pubkey`, of a base point and a per-commitment point. -/
  derkeyPubkey : Bytes → Bytes → Bytes
  /-- `ln_derkey_privkey`, of a base point, a per-commitment point and the secret
  of the base point. -/
  derkeyPrivkey : Bytes → Bytes → Bytes → Bytes
  /-- `ln_derkey_revocationkey`, of a base point and a per-commitment point. -/
  derkeyRevocationkey : Bytes → Bytes → Bytes
  /-- The digest that `btc_sw_sighash` computes: transaction, value and script code
  of the spent output. -/
  sighash : BtcTx → UInt64 → Bytes → Bytes
  /-- `btc_tx_txid`. -/
  txid : BtcTx → Bytes
  /-- `btc_tx_sign` in the compact form that messages carry: private key, hash. -/
  sign : Bytes → Bytes → Bytes
  /-- `btc_tx_verify`: signature, hash, public key. -/
  verify : Bytes → Bytes → Bytes → Bool
  /-- `ln_onion_failure_create`, of a shared secret and a reason. -/
  onionFailureCreate : Bytes → Bytes → Bytes
  /-- `ln_onion_failure_forward`, of a shared secret and a reason. -/
  onionFailureForward : Bytes → Bytes → Bytes

/-- The public key of a private key that the node generated itself. -/
def Crypto.pub (crypto : Crypto) (priv : Bytes) : Bytes :=
  (crypto.priv2pub priv).getD []

/-- A signature verifies under the public key of the private key that made it. -/
def Crypto.Sound (crypto : Crypto) : Prop :=
  ∀ priv pub hash, crypto.priv2pub priv = some pub →
    crypto.verify (crypto.sign priv hash) hash pub = true

/-- The bytes of a number, the lowest first. -/
def littleEndian (count value : Nat) : Bytes :=
  (List.range count).map fun pos => (value / 256 ^ pos).toUInt8

/-- A transaction as one byte string. -/
def BtcTx.bytes (tx : BtcTx) : Bytes :=
  tx.vinTxid ++ littleEndian 4 tx.vinIndex ++ littleEndian 4 tx.sequence.toNat ++
    tx.vout.flatMap (fun out => littleEndian 8 out.1.toNat ++ out.2) ++
    littleEndian 4 tx.locktime.toNat

/-- Symbols in place of a crypto library, to evaluate the model with: a digest is what
was hashed, a public key its private key, a signature the key and the digest. -/
def Crypto.symbolic : Crypto where
  sha256 := id
  hash160 := id
  ripemd160 := id
  priv2pub priv := if priv.all (· == 0) then none else some priv
  derkeyPubkey base point := base ++ point
  derkeyPrivkey _ point priv := priv ++ point
  derkeyRevocationkey base point := base ++ [0xff] ++ point
  sighash tx value script := tx.bytes ++ littleEndian 8 value.toNat ++ script
  txid := BtcTx.bytes
  sign priv hash := priv ++ hash
  verify sig hash pub := sig == pub ++ hash
  onionFailureCreate secret reason := secret ++ reason
  onionFailureForward secret reason := secret ++ reason

theorem symbolic_sound : Crypto.symbolic.Sound := by
  intro priv pub hash hpub
  simp only [Crypto.symbolic] at hpub ⊢
  split at hpub
  · cases hpub
  · obtain rfl := Option.some.inj hpub
    exact beq_self_eq_true _

/-- A byte string cut or filled up to a length. -/
def padTo (width : Nat) (bytes : Bytes) : Bytes :=
  (bytes ++ List.replicate width 0).take width

@[simp] theorem length_padTo (width : Nat) (bytes : Bytes) :
    (padTo width bytes).length = width := by
  simp [padTo]

/-- Bytes of the given number that depend on all that are summed up. -/
def checksum (count : Nat) (bytes : Bytes) : Bytes :=
  BigEndian.encode count (bytes.foldl (fun acc byte => acc * 257 + byte.toNat) 0)

@[simp] theorem length_checksum (count : Nat) (bytes : Bytes) :
    (checksum count bytes).length = count :=
  BigEndian.length_encode count _

/-- The same symbols with keys and signatures of the lengths that messages carry. -/
def Crypto.sized : Crypto :=
  { Crypto.symbolic with
    priv2pub := fun priv => if priv.all (· == 0) then none else some (padTo 33 priv)
    derkeyPubkey := fun base point => padTo 33 (base ++ point)
    derkeyPrivkey := fun _ point priv => padTo 33 priv ++ point
    derkeyRevocationkey := fun base point => padTo 33 (base ++ [0xff] ++ point)
    sign := fun priv hash => padTo 33 priv ++ checksum 31 hash
    verify := fun sig hash pub => sig == pub ++ checksum 31 hash }

theorem sized_sound : Crypto.sized.Sound := by
  intro priv pub hash hpub
  simp only [Crypto.sized] at hpub ⊢
  split at hpub
  · cases hpub
  · obtain rfl := Option.some.inj hpub
    exact beq_self_eq_true _

/-- `LN_SECINDEX_INIT`. -/
def lnSecindexInit : UInt64 := 0xffffffffffff

/-- The bit of an index. -/
def indexBit (index : UInt64) (bit : Nat) : Bool :=
  index.toNat.testBit bit

/-- `output[bit / 8] ^= 1 << (bit % 8)`. -/
def flipBit (bit : Nat) (secret : Bytes) : Bytes :=
  secret.modify (bit / 8) fun byte => byte ^^^ (1 <<< (bit % 8).toUInt8)

/-- `derive_secret`, over the bits below `bits`, the highest first. -/
def deriveSecret (crypto : Crypto) (base : Bytes) : Nat → UInt64 → Bytes
  | 0, _ => base
  | bit + 1, index =>
      if indexBit index bit then
        deriveSecret crypto (crypto.sha256 (flipBit bit base)) bit index
      else deriveSecret crypto base bit index

/-- `ln_derkey_create_secret`. -/
def lnDerkeyCreateSecret (crypto : Crypto) (seed : Bytes) (index : UInt64) : Bytes :=
  deriveSecret crypto seed 48 index

instance neZero_derkeySlots : NeZero 49 := ⟨by decide⟩

/-- `where_to_put_secret`: the number of trailing zero bits, at most 48. -/
def whereToPutSecret (index : UInt64) : Fin 49 :=
  ((List.finRange 49).find? fun bit : Fin 49 => indexBit index bit || bit == 48).getD 48

/-- A slot of `ln_derkey_storage_t`. -/
structure DerkeySlot where
  secret : Bytes
  index : UInt64
deriving DecidableEq, Repr

/-- `ln_derkey_storage_t`. -/
abbrev LnDerkeyStorage := Fin 49 → DerkeySlot

/-- `ln_derkey_storage_init`. -/
def lnDerkeyStorageInit : LnDerkeyStorage :=
  fun _ => ⟨List.replicate 32 0xcc, 0x123456789abc⟩

/-- `ln_derkey_storage_insert_secret`; `none` is the failed `assert`. -/
def lnDerkeyStorageInsertSecret (crypto : Crypto) (storage : LnDerkeyStorage)
    (secret : Bytes) (index : UInt64) : Option LnDerkeyStorage :=
  let bit := whereToPutSecret index
  if ∀ lower : Fin 49, lower < bit →
      deriveSecret crypto secret bit (storage lower).index = (storage lower).secret then
    some (Function.update storage bit ⟨secret, index⟩)
  else none

/-- `ln_derkey_storage_get_secret`: the highest slot whose prefix matches. -/
def lnDerkeyStorageGetSecret (crypto : Crypto) (storage : LnDerkeyStorage) (index : UInt64) :
    Option Bytes :=
  let matching := (List.finRange 49).reverse.find? fun bit : Fin 49 =>
    index.toNat / 2 ^ bit.val * 2 ^ bit.val == (storage bit).index.toNat
  matching.map fun bit =>
    if index = (storage bit).index then (storage bit).secret
    else deriveSecret crypto (storage bit).secret (bit + 1) (index - (storage bit).index)

end Ptarmigan
