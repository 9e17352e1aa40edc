/-
Extended keys (BIP32): `btc_extkey_generate` derives a child from a private or from a public parent,
`btc_extkey_create_data` and `btc_extkey_read` write and read the form in which they are exported.
-/
import Mathlib.Data.UInt
import Mathlib.Data.ZMod.Basic
import Mathlib.GroupTheory.OrderOfElement
import Ptarmigan.Library.BigEndian
import Ptarmigan.Library.Layout
import Ptarmigan.Tx

namespace Ptarmigan

namespace ExtKey

/-- `memcpy` to the start of an array. -/
def overwrite (array field : Bytes) : Bytes :=
  (field ++ array.drop field.length).take array.length

theorem length_overwrite (array field : Bytes) : (overwrite array field).length = array.length := by
  simp only [overwrite, List.length_take, List.length_append, List.length_drop]
  omega

theorem overwrite_eq {array field : Bytes} (hfits : field.length ≤ array.length) :
    overwrite array field = field ++ array.drop field.length := by
  apply List.take_of_length_le
  simp only [List.length_append, List.length_drop]
  omega

/-- `btc_extkey_t`. -/
@[ext] structure BtcExtkey where
  type : UInt8
  depth : UInt8
  fingerprint : UInt32
  childNumber : UInt32
  chainCode : Bytes
  key : Bytes
  chainCode_length : chainCode.length = 32
  key_length : key.length = 33
deriving DecidableEq

def BtcExtkey.setChainCode (ek : BtcExtkey) (field : Bytes) : BtcExtkey :=
  { ek with
    chainCode := overwrite ek.chainCode field
    chainCode_length := by rw [length_overwrite, ek.chainCode_length] }

def BtcExtkey.setKey (ek : BtcExtkey) (field : Bytes) : BtcExtkey :=
  { ek with
    key := overwrite ek.key field
    key_length := by rw [length_overwrite, ek.key_length] }

theorem BtcExtkey.setKey_key (ek : BtcExtkey) (field : Bytes) :
    (ek.setKey field).key = overwrite ek.key field :=
  rfl

/-- A public key fills the whole array. -/
theorem BtcExtkey.setKey_pub (ek : BtcExtkey) {pub : Bytes} (hlength : pub.length = 33) :
    (ek.setKey pub).key = pub := by
  have hfits : pub.length ≤ ek.key.length := by rw [hlength, ek.key_length]
  have hrest : ek.key.drop pub.length = [] :=
    List.drop_of_length_le (by rw [hlength, ek.key_length])
  rw [ek.setKey_key, overwrite_eq hfits, hrest, List.append_nil]

/-- `BTC_EXTKEY_PRIV`. -/
def btcExtkeyPriv : UInt8 := 0

/-- `BTC_EXTKEY_PUB`. -/
def btcExtkeyPub : UInt8 := 1

/-- `BTC_EXTKEY_HARDENED`. -/
def btcExtkeyHardened : UInt32 := 0x80000000

/-- `BTC_MAINNET`. -/
def btcMainnet : UInt8 := 1

/-- `BTC_TESTNET`. -/
def btcTestnet : UInt8 := 2

/-- `SECP256K1_N`. -/
def secp256k1N : Nat :=
  0xfffffffffffffffffffffffffffffffebaaedce6af48a03bbfd25e8cd0364141

/-- `"Bitcoin seed"`. -/
def bitcoinSeed : Bytes :=
  [0x42, 0x69, 0x74, 0x63, 0x6f, 0x69, 0x6e, 0x20, 0x73, 0x65, 0x65, 0x64]

/-- What the extended keys use of the crypto library: the group of the curve with its generator,
the compressed form of points, and the digests. -/
structure ExtkeyCrypto (Point : Type) where
  gen : Point
  compress : Point → Bytes
  decompress : Bytes → Option Point
  hmac512 : Bytes → Bytes → Bytes
  hash160 : Bytes → Bytes
  hash256 : Bytes → Bytes

section Derivation

variable {Point : Type} [AddCommGroup Point] (crypto : ExtkeyCrypto Point)

/-- `btc_keys_priv2pub`; the multiplication refuses what is no private key. -/
def btcKeysPriv2pub (priv : Bytes) : Option Bytes :=
  let m := BigEndian.decode (priv.take 32)
  if m = 0 ∨ secp256k1N ≤ m then none else some (crypto.compress (m • crypto.gen))

/-- `extkey_hmac512`: `l_L` and the chain code. -/
def extkeyHmac512 (key data : Bytes) : Option (Nat × Bytes) :=
  let output := crypto.hmac512 key data
  if (output.take 32).all (· == 0) then none
  else
    let lL := BigEndian.decode (output.take 32)
    if lL < secp256k1N then some (lL, output.drop 32) else none

/-- The first four bytes of the digest of the parent's public key. -/
def fingerprintOf (pub : Bytes) : UInt32 :=
  UInt32.ofNat (BigEndian.decode ((crypto.hash160 pub).take 4))

/-- `output37`. -/
def hmacInput (head : Bytes) (childNumber : UInt32) : Bytes :=
  head ++ BigEndian.encode 4 childNumber.toNat

/-- The public key of a private key, in its place. -/
def toPublic (ek : BtcExtkey) : Option BtcExtkey :=
  (btcKeysPriv2pub crypto ek.key).map fun pub => { ek with type := btcExtkeyPub }.setKey pub

variable [DecidableEq Point]

/-- `btc_util_ecp_muladd`. -/
def btcUtilEcpMuladd (pubKeyIn : Bytes) (a : Nat) : Option Bytes :=
  match crypto.decompress (pubKeyIn.take 33) with
  | none => none
  | some point =>
      let sum := a • crypto.gen + point
      if sum = 0 then none else some (crypto.compress sum)

/-- `btc_extkey_generate`; `none` is an assertion that fails. -/
def btcExtkeyGenerate (ek : BtcExtkey) (type depth : UInt8) (childNum : UInt32)
    (pKey pSeed : Option Bytes) : Option (Bool × BtcExtkey) :=
  let ek := { ek with type := type, depth := depth, childNumber := childNum }
  if type = btcExtkeyPriv then
    match pSeed, pKey with
    | none, none => some (false, ek)
    | none, some key =>
        match btcKeysPriv2pub crypto key with
        | none => some (false, ek)
        | some pub =>
            let head := if childNum &&& btcExtkeyHardened ≠ 0 then 0x00 :: key.take 32 else pub
            let ek := { ek with fingerprint := fingerprintOf crypto pub }
            match extkeyHmac512 crypto ek.chainCode (hmacInput head childNum) with
            | none => some (false, ek)
            | some (lL, chainCode) =>
                let kI := (lL + BigEndian.decode (key.take 32)) % secp256k1N
                let ek := (ek.setChainCode chainCode).setKey (BigEndian.encode 32 kI)
                if kI ≠ 0 then some (true, ek) else none
    | some seed, _ =>
        let ek := { ek with fingerprint := 0 }
        match extkeyHmac512 crypto bitcoinSeed seed with
        | none => some (false, ek)
        | some (lL, chainCode) =>
            some (true, (ek.setChainCode chainCode).setKey (BigEndian.encode 32 lL))
  else if type = btcExtkeyPub then
    match pKey with
    | none => some (false, ek)
    | some key =>
        if childNum &&& btcExtkeyHardened ≠ 0 then some (false, ek)
        else
          let ek := { ek with fingerprint := fingerprintOf crypto (key.take 33) }
          match extkeyHmac512 crypto ek.chainCode (hmacInput (key.take 33) childNum) with
          | none => some (false, ek)
          | some (lL, chainCode) =>
              let ek := ek.setChainCode chainCode
              match btcUtilEcpMuladd crypto key lL with
              | none => some (false, ek)
              | some pub => some (true, ek.setKey pub)
  else some (false, ek)

end Derivation

section Exports

variable {Point : Type} (crypto : ExtkeyCrypto Point)

/-! ### Export and import -/

/-- `VERSION_BYTES`. -/
def versionBytes : List (List UInt32) :=
  [[0x0488ade4, 0x0488b21e], [0x04358394, 0x043587cf]]

/-- What `btc_extkey_create_data` leaves; a fault is a read behind `VERSION_BYTES`. -/
inductive ExtkeyData
  | fault
  | refused
  | written (ret : Bool) (data : Bytes) (addr : Option Bytes)
deriving DecidableEq, Repr

/-- `pData` without the checksum. -/
def dataBytes (version : UInt32) (ek : BtcExtkey) : Bytes :=
  [BigEndian.encode 4 version.toNat, [ek.depth], BigEndian.encode 4 ek.fingerprint.toNat,
    BigEndian.encode 4 ek.childNumber.toNat, ek.chainCode,
    if ek.type = btcExtkeyPriv then 0x00 :: ek.key.take 32 else ek.key].flatten

/-- `btc_extkey_create_data`; `chain` is `mPref[BTC_PREF_CHAIN]`, `b58enc` is there when `pAddr`
is. -/
def btcExtkeyCreateData (chain : UInt8) (b58enc : Option (Bytes → Option Bytes)) (ek : BtcExtkey) :
    ExtkeyData :=
  if chain &&& 0x03 = 0 then .refused
  else
    match versionBytes[chain.toNat - 1]? >>= fun versions => versions[ek.type.toNat]? with
    | none => .fault
    | some version =>
        let data := dataBytes version ek
        let data := data ++ (crypto.hash256 data).take 4
        match b58enc with
        | none => .written true data none
        | some b58enc => .written (b58enc data).isSome data (b58enc data)

/-- The network and the type of a version. -/
def versionType (version : UInt32) : Option (UInt8 × UInt8) :=
  if version = 0x0488ade4 then some (btcMainnet, btcExtkeyPriv)
  else if version = 0x0488b21e then some (btcMainnet, btcExtkeyPub)
  else if version = 0x04358394 then some (btcTestnet, btcExtkeyPriv)
  else if version = 0x043587cf then some (btcTestnet, btcExtkeyPub)
  else none

def getBe32 (field : Bytes) : UInt32 :=
  UInt32.ofNat (BigEndian.decode field)

/-- `btc_extkey_read`; `Len` is the length. -/
def btcExtkeyRead (chain : UInt8) (ek : BtcExtkey) (data : Bytes) : Bool × BtcExtkey :=
  if data.length ≠ 82 then (false, ek)
  else
    let fields := Layout.cut [4, 1, 4, 4, 32, 33, 4] data
    match versionType (getBe32 (fields.getD 0 [])) with
    | none => (false, ek)
    | some (net, type) =>
        let ek := { ek with type := type }
        if net ≠ chain then (false, ek)
        else
          let ek := { ek with
            depth := (fields.getD 1 []).headD 0
            fingerprint := getBe32 (fields.getD 2 [])
            childNumber := getBe32 (fields.getD 3 []) }
          let key := if type = btcExtkeyPriv then (fields.getD 5 []).drop 1 else fields.getD 5 []
          let ek := (ek.setChainCode (fields.getD 4 [])).setKey key
          ((crypto.hash256 (data.take 78)).take 4 == fields.getD 6 [], ek)

end Exports

/-! ### The crypto library -/

section Laws

variable {Point : Type} [AddCommGroup Point] {crypto : ExtkeyCrypto Point}

theorem btcKeysPriv2pub_some {priv pub : Bytes} (hpub : btcKeysPriv2pub crypto priv = some pub) :
    (BigEndian.decode (priv.take 32) ≠ 0 ∧ BigEndian.decode (priv.take 32) < secp256k1N) ∧
      pub = crypto.compress (BigEndian.decode (priv.take 32) • crypto.gen) := by
  simp only [btcKeysPriv2pub] at hpub
  split at hpub
  · exact absurd hpub (by simp)
  · rename_i hvalid
    rw [not_or, Nat.not_le] at hvalid
    exact ⟨hvalid, (Option.some.inj hpub).symm⟩

/-- What the crypto library has to keep: the generator has the order of the curve, and points other
than infinity are read from what is written of them. -/
structure ExtkeyCrypto.Lawful (crypto : ExtkeyCrypto Point) : Prop where
  order : addOrderOf crypto.gen = secp256k1N
  compress_length : ∀ point, (crypto.compress point).length = 33
  decompress_compress : ∀ point, point ≠ 0 → crypto.decompress (crypto.compress point) = some point
  hash256_length : ∀ data, (crypto.hash256 data).length = 32

/-- A number below the order other than zero is no multiple of it. -/
theorem ExtkeyCrypto.Lawful.nsmul_ne_zero (hlaw : crypto.Lawful) {m : Nat} (hpos : m ≠ 0)
    (hlt : m < secp256k1N) : m • crypto.gen ≠ 0 := by
  intro hzero
  have hdvd : secp256k1N ∣ m := by
    rw [← hlaw.order]
    exact addOrderOf_dvd_iff_nsmul_eq_zero.mpr hzero
  exact absurd (Nat.le_of_dvd (Nat.pos_of_ne_zero hpos) hdvd) (Nat.not_le.mpr hlt)

theorem ExtkeyCrypto.Lawful.mod_nsmul (hlaw : crypto.Lawful) (m : Nat) :
    (m % secp256k1N) • crypto.gen = m • crypto.gen := by
  rw [← hlaw.order]
  exact mod_addOrderOf_nsmul crypto.gen m

end Laws

/-- The private key that is written into the array is the one that is read from it. -/
theorem take_setKey (ek : BtcExtkey) (m : Nat) :
    (ek.setKey (BigEndian.encode 32 m)).key.take 32 = BigEndian.encode 32 m := by
  have hfits : (BigEndian.encode 32 m).length ≤ ek.key.length := by
    rw [BigEndian.length_encode, ek.key_length]
    decide
  rw [BtcExtkey.setKey_key, overwrite_eq hfits]
  exact List.take_left' (BigEndian.length_encode 32 m)

theorem decode_setKey (ek : BtcExtkey) {m : Nat} (hlt : m < secp256k1N) :
    BigEndian.decode ((ek.setKey (BigEndian.encode 32 m)).key.take 32) = m := by
  have hbound : m < 256 ^ 32 := Nat.lt_trans hlt (by decide)
  rw [take_setKey, BigEndian.decode_encode hbound]

section Derived

variable {Point : Type} [AddCommGroup Point] [DecidableEq Point] {crypto : ExtkeyCrypto Point}

theorem btcUtilEcpMuladd_some {pubKeyIn pub : Bytes} {a : Nat}
    (hpub : btcUtilEcpMuladd crypto pubKeyIn a = some pub) :
    ∃ point, crypto.decompress (pubKeyIn.take 33) = some point ∧
      pub = crypto.compress (a • crypto.gen + point) := by
  simp only [btcUtilEcpMuladd] at hpub
  split at hpub
  · exact absurd hpub (by simp)
  · rename_i point hpoint
    split at hpub
    · exact absurd hpub (by simp)
    · exact ⟨point, hpoint, (Option.some.inj hpub).symm⟩

/-- A private child: its key is the sum, modulo the order. -/
theorem generate_priv {ek child : BtcExtkey} {depth : UInt8} {index : UInt32} {key : Bytes} :
    btcExtkeyGenerate crypto ek btcExtkeyPriv depth index (some key) none = some (true, child) ↔
      ∃ pub lL chainCode, btcKeysPriv2pub crypto key = some pub ∧
        extkeyHmac512 crypto ek.chainCode (hmacInput
          (if index &&& btcExtkeyHardened ≠ 0 then 0x00 :: key.take 32 else pub) index) =
            some (lL, chainCode) ∧
        (lL + BigEndian.decode (key.take 32)) % secp256k1N ≠ 0 ∧
        child = (({ ek with
          type := btcExtkeyPriv
          depth := depth
          childNumber := index
          fingerprint := fingerprintOf crypto pub } : BtcExtkey).setChainCode chainCode).setKey
            (BigEndian.encode 32 ((lL + BigEndian.decode (key.take 32)) % secp256k1N)) := by
  constructor
  · intro hchild
    simp only [btcExtkeyGenerate, if_true] at hchild
    split at hchild
    · exact absurd hchild (by simp)
    · rename_i pub hpub
      split at hchild
      · exact absurd hchild (by simp)
      · rename_i lL chainCode hhmac
        split at hchild
        · rename_i hnonzero
          exact ⟨pub, lL, chainCode, hpub, hhmac, hnonzero, by simpa using hchild.symm⟩
        · exact absurd hchild (by simp)
  · rintro ⟨pub, lL, chainCode, hpub, hhmac, hnonzero, rfl⟩
    simp only [btcExtkeyGenerate, if_true, hpub, hhmac, if_pos hnonzero]

/-- A public child: its index is not hardened, its key is the sum of points. -/
theorem generate_pub {ek child : BtcExtkey} {depth : UInt8} {index : UInt32} {key : Bytes}
    (hchild : btcExtkeyGenerate crypto ek btcExtkeyPub depth index (some key) none =
      some (true, child)) :
    ¬ index &&& btcExtkeyHardened ≠ 0 ∧
      ∃ lL chainCode pub, extkeyHmac512 crypto ek.chainCode (hmacInput (key.take 33) index) =
          some (lL, chainCode) ∧
        btcUtilEcpMuladd crypto key lL = some pub ∧
        child = (({ ek with
          type := btcExtkeyPub
          depth := depth
          childNumber := index
          fingerprint := fingerprintOf crypto (key.take 33) } : BtcExtkey).setChainCode
            chainCode).setKey pub := by
  have hother : btcExtkeyPub ≠ btcExtkeyPriv := by decide
  simp only [btcExtkeyGenerate, if_neg hother, if_true] at hchild
  split at hchild
  · exact absurd hchild (by simp)
  · rename_i hindex
    split at hchild
    · exact absurd hchild (by simp)
    · rename_i lL chainCode hhmac
      split at hchild
      · exact absurd hchild (by simp)
      · rename_i pub hpub
        exact ⟨hindex, lL, chainCode, pub, hhmac, hpub, by simpa using hchild.symm⟩

/-- A hardened index is refused on the public side. -/
theorem generate_pub_hardened {index : UInt32} (hindex : index &&& btcExtkeyHardened ≠ 0)
    (ek : BtcExtkey) (depth : UInt8) (key : Bytes) (pSeed : Option Bytes) :
    ∃ left, btcExtkeyGenerate crypto ek btcExtkeyPub depth index (some key) pSeed =
      some (false, left) := by
  have hother : btcExtkeyPub ≠ btcExtkeyPriv := by decide
  refine ⟨{ ek with type := btcExtkeyPub, depth := depth, childNumber := index }, ?_⟩
  simp only [btcExtkeyGenerate, if_neg hother, if_true, if_pos hindex]

/-- One step on the private and on the public side: the children belong together again. -/
theorem generate_commutes (hlaw : crypto.Lawful) {priv pub priv' pub' : BtcExtkey} {depth : UInt8}
    {index : UInt32} (hpublic : toPublic crypto priv = some pub)
    (hpriv : btcExtkeyGenerate crypto priv btcExtkeyPriv depth index (some priv.key) none =
      some (true, priv'))
    (hpub : btcExtkeyGenerate crypto pub btcExtkeyPub depth index (some pub.key) none =
      some (true, pub')) :
    toPublic crypto priv' = some pub' := by
  obtain ⟨parent, hparent, hpubEq⟩ := Option.map_eq_some_iff.mp hpublic
  obtain ⟨⟨hpos, hlt⟩, hpoint⟩ := btcKeysPriv2pub_some hparent
  have hlength : parent.length = 33 := by rw [hpoint, hlaw.compress_length]
  have hkey : pub.key = parent := by rw [← hpubEq, BtcExtkey.setKey_pub _ hlength]
  have hchain : pub.chainCode = priv.chainCode := by rw [← hpubEq]; rfl
  have htake : pub.key.take 33 = parent := by
    rw [hkey, List.take_of_length_le (Nat.le_of_eq hlength)]
  obtain ⟨parent', lL, chainCode, hparent', hhmac, hnonzero, hprivEq⟩ :=
    generate_priv.mp hpriv
  obtain rfl : parent' = parent := Option.some.inj (hparent'.symm.trans hparent)
  obtain ⟨hindex, lL', chainCode', sum, hhmac', hsum, hpubEq'⟩ := generate_pub hpub
  -- both sides hash the same bytes under the same chain code
  obtain ⟨rfl, rfl⟩ : lL = lL' ∧ chainCode = chainCode' := by
    rw [if_neg hindex] at hhmac
    rw [htake, hchain] at hhmac'
    simpa using hhmac.symm.trans hhmac'
  obtain ⟨point, hread, hsumEq⟩ := btcUtilEcpMuladd_some hsum
  have hkI : BigEndian.decode (priv'.key.take 32) =
      (lL + BigEndian.decode (priv.key.take 32)) % secp256k1N := by
    rw [hprivEq]
    exact decode_setKey _ (Nat.mod_lt _ (by decide))
  have hpointEq : point = BigEndian.decode (priv.key.take 32) • crypto.gen := by
    rw [htake, hpoint, hlaw.decompress_compress _ (hlaw.nsmul_ne_zero hpos hlt)] at hread
    exact (Option.some.inj hread).symm
  have hchild : btcKeysPriv2pub crypto priv'.key = some sum := by
    have hvalid : ¬ ((lL + BigEndian.decode (priv.key.take 32)) % secp256k1N = 0 ∨
        secp256k1N ≤ (lL + BigEndian.decode (priv.key.take 32)) % secp256k1N) := by
      rw [not_or, Nat.not_le]
      exact ⟨hnonzero, Nat.mod_lt _ (by decide)⟩
    simp only [btcKeysPriv2pub, hkI]
    rw [if_neg hvalid, hlaw.mod_nsmul, add_nsmul, hsumEq, hpointEq]
  have hsumLength : sum.length = 33 := by rw [hsumEq, hlaw.compress_length]
  refine Option.map_eq_some_iff.mpr ⟨sum, hchild, ?_⟩
  apply BtcExtkey.ext
  · rw [hpubEq']
    rfl
  · rw [hprivEq, hpubEq']
    rfl
  · rw [hprivEq, hpubEq', htake]
    rfl
  · rw [hprivEq, hpubEq']
    rfl
  · rw [hprivEq, hpubEq']
    change overwrite priv.chainCode chainCode = overwrite pub.chainCode chainCode
    rw [hchain]
  · rw [hpubEq', BtcExtkey.setKey_pub _ hsumLength, BtcExtkey.setKey_pub _ hsumLength]

end Derived

/-! ### Export and import -/

section RoundTrip

variable {Point : Type} {crypto : ExtkeyCrypto Point} {chain : UInt8}

/-- A private or a public extended key. -/
def Kind (ek : BtcExtkey) : Prop :=
  ek.type = btcExtkeyPriv ∨ ek.type = btcExtkeyPub

/-- The part of the array that is valid. -/
def validKey (ek : BtcExtkey) : Bytes :=
  if ek.type = btcExtkeyPriv then ek.key.take 32 else ek.key

theorem validKey_priv {ek : BtcExtkey} (htype : ek.type = btcExtkeyPriv) :
    validKey ek = ek.key.take 32 :=
  if_pos htype

/-- `btc_init` was called for one of the two networks. -/
def Configured (chain : UInt8) : Prop :=
  chain = btcMainnet ∨ chain = btcTestnet

/-- The version that is written is that of the network and the type. -/
theorem version_of_kind (hchain : Configured chain) {ek : BtcExtkey} (hkind : Kind ek) :
    ¬ chain &&& 0x03 = 0 ∧ ∃ version,
      (versionBytes[chain.toNat - 1]? >>= fun versions => versions[ek.type.toNat]?) =
          some version ∧
        versionType version = some (chain, ek.type) := by
  rcases hchain with rfl | rfl <;> rcases hkind with htype | htype <;> rw [htype] <;>
    exact ⟨by decide, _, rfl, by decide⟩

theorem getBe32_encode (value : UInt32) : getBe32 (BigEndian.encode 4 value.toNat) = value := by
  have hfits : value.toNat < 256 ^ 4 := value.toNat_lt
  rw [getBe32, BigEndian.decode_encode hfits, UInt32.ofNat_toNat]

theorem length_keyField (ek : BtcExtkey) :
    (if ek.type = btcExtkeyPriv then 0x00 :: ek.key.take 32 else ek.key).length = 33 := by
  split
  · rw [List.length_cons, List.length_take, ek.key_length]
    rfl
  · exact ek.key_length

/-- The fields of `pData`, with the checksum. -/
def dataFields (crypto : ExtkeyCrypto Point) (version : UInt32) (ek : BtcExtkey) : List Bytes :=
  [BigEndian.encode 4 version.toNat, [ek.depth], BigEndian.encode 4 ek.fingerprint.toNat,
    BigEndian.encode 4 ek.childNumber.toNat, ek.chainCode,
    if ek.type = btcExtkeyPriv then 0x00 :: ek.key.take 32 else ek.key,
    (crypto.hash256 (dataBytes version ek)).take 4]

theorem dataFields_flatten (version : UInt32) (ek : BtcExtkey) :
    dataBytes version ek ++ (crypto.hash256 (dataBytes version ek)).take 4 =
      (dataFields crypto version ek).flatten := by
  simp [dataBytes, dataFields]

theorem length_dataFields (hdigest : ∀ data, (crypto.hash256 data).length = 32) (version : UInt32)
    (ek : BtcExtkey) :
    (dataFields crypto version ek).map List.length = [4, 1, 4, 4, 32, 33, 4] := by
  simp only [dataFields, List.map_cons, List.map_nil, length_keyField, ek.chainCode_length,
    BigEndian.length_encode, List.length_take, hdigest, List.length_cons,
    List.length_nil]
  rfl

theorem length_dataBytes (version : UInt32) (ek : BtcExtkey) :
    (dataBytes version ek).length = 78 := by
  simp only [dataBytes, List.length_flatten, List.map_cons, List.map_nil, length_keyField,
    ek.chainCode_length, BigEndian.length_encode, List.length_cons, List.length_nil]
  rfl

/-- The extended key in other memory: of a private key, the byte behind it stays. -/
def readInto (into ek : BtcExtkey) : BtcExtkey :=
  { ek with
    key := overwrite into.key (validKey ek)
    key_length := by rw [length_overwrite, into.key_length] }

/-- What is written is read into any memory. -/
theorem btcExtkeyRead_written (hdigest : ∀ data, (crypto.hash256 data).length = 32)
    (hchain : Configured chain) {ek : BtcExtkey} (hkind : Kind ek) (into : BtcExtkey) :
    ∃ data, btcExtkeyCreateData crypto chain none ek = .written true data none ∧
      btcExtkeyRead crypto chain into data = (true, readInto into ek) := by
  obtain ⟨hinit, version, hversion, htype⟩ := version_of_kind hchain hkind
  refine ⟨dataBytes version ek ++ (crypto.hash256 (dataBytes version ek)).take 4, ?_, ?_⟩
  · simp only [btcExtkeyCreateData, if_neg hinit, hversion]
  · have hwidths := length_dataFields hdigest version ek
    have hlength : (dataBytes version ek ++
        (crypto.hash256 (dataBytes version ek)).take 4).length = 82 := by
      rw [dataFields_flatten, Layout.length_flatten hwidths]
      rfl
    have hcut : Layout.cut [4, 1, 4, 4, 32, 33, 4] (dataBytes version ek ++
        (crypto.hash256 (dataBytes version ek)).take 4) = dataFields crypto version ek := by
      rw [dataFields_flatten, Layout.cut_flatten hwidths]
    have htake : (dataBytes version ek ++ (crypto.hash256 (dataBytes version ek)).take 4).take 78 =
        dataBytes version ek :=
      List.take_left' (length_dataBytes version ek)
    have hkey : (if ek.type = btcExtkeyPriv
        then (if ek.type = btcExtkeyPriv then 0x00 :: ek.key.take 32 else ek.key).drop 1
        else (if ek.type = btcExtkeyPriv then 0x00 :: ek.key.take 32 else ek.key)) =
          validKey ek := by
      by_cases hpriv : ek.type = btcExtkeyPriv
      · simp [validKey, hpriv]
      · simp [validKey, hpriv]
    have hchainCode : overwrite into.chainCode ek.chainCode = ek.chainCode := by
      have hfits : ek.chainCode.length ≤ into.chainCode.length := by
        rw [ek.chainCode_length, into.chainCode_length]
      have hrest : into.chainCode.drop ek.chainCode.length = [] :=
        List.drop_of_length_le (by rw [ek.chainCode_length, into.chainCode_length])
      rw [overwrite_eq hfits, hrest, List.append_nil]
    have hnet : ¬ chain ≠ chain := not_not.mpr rfl
    rw [btcExtkeyRead, if_neg (not_not.mpr hlength)]
    simp only [hcut, htake, dataFields, List.getD_cons_zero, List.getD_cons_succ, htype,
      if_neg hnet, getBe32_encode, List.headD_cons, hkey, beq_self_eq_true, Prod.mk.injEq, true_and]
    exact BtcExtkey.ext rfl rfl rfl rfl hchainCode rfl

end RoundTrip

/-! ### Chains of steps -/

/-- A derivation, or an export that is imported again. -/
inductive ExtkeyStep
  | derive (depth : UInt8) (index : UInt32)
  | reload
deriving DecidableEq, Repr

/-- The steps without the exports and imports. -/
def derivations : List ExtkeyStep → List ExtkeyStep
  | [] => []
  | .derive depth index :: steps => .derive depth index :: derivations steps
  | .reload :: steps => derivations steps

/-- The same extended key: the byte behind a private key does not count. -/
structure SameKey (ek ek' : BtcExtkey) : Prop where
  type : ek.type = ek'.type
  depth : ek.depth = ek'.depth
  fingerprint : ek.fingerprint = ek'.fingerprint
  childNumber : ek.childNumber = ek'.childNumber
  chainCode : ek.chainCode = ek'.chainCode
  key : validKey ek = validKey ek'

theorem pub_ne_priv : btcExtkeyPub ≠ btcExtkeyPriv := by decide

theorem readInto_same {ek : BtcExtkey} (hkind : Kind ek) (into : BtcExtkey) :
    SameKey (readInto into ek) ek := by
  refine ⟨rfl, rfl, rfl, rfl, rfl, ?_⟩
  have hfits : (validKey ek).length ≤ into.key.length := by
    rw [into.key_length, validKey]
    split
    · rw [List.length_take, ek.key_length]
      decide
    · rw [ek.key_length]
  have hkey : (readInto into ek).key = validKey ek ++ into.key.drop (validKey ek).length :=
    overwrite_eq hfits
  rcases hkind with htype | htype
  · have hlength : (ek.key.take 32).length = 32 := by
      rw [List.length_take, ek.key_length]
      rfl
    have hvalid : validKey ek = ek.key.take 32 := validKey_priv htype
    have hread : validKey (readInto into ek) = (readInto into ek).key.take 32 := validKey_priv htype
    rw [hread, hkey, hvalid, List.take_left' hlength]
  · have hother : ¬ ek.type = btcExtkeyPriv := by
      rw [htype]
      exact pub_ne_priv
    have hvalid : validKey ek = ek.key := if_neg hother
    have hread : validKey (readInto into ek) = (readInto into ek).key := if_neg hother
    have hrest : into.key.drop ek.key.length = [] :=
      List.drop_of_length_le (by rw [into.key_length, ek.key_length])
    rw [hread, hkey, hvalid, hrest, List.append_nil]

/-- A public extended key has no byte that does not count. -/
theorem SameKey.eq_of_pub {ek ek' : BtcExtkey} (hsame : SameKey ek ek')
    (htype : ek.type = btcExtkeyPub) : ek = ek' := by
  have hother : ¬ ek.type = btcExtkeyPriv := by
    rw [htype]
    exact pub_ne_priv
  have hother' : ¬ ek'.type = btcExtkeyPriv := by
    rwa [← hsame.type]
  have hkey : ek.key = ek'.key := by
    have hvalid := hsame.key
    rwa [validKey, validKey, if_neg hother, if_neg hother'] at hvalid
  exact BtcExtkey.ext hsame.type hsame.depth hsame.fingerprint hsame.childNumber
    hsame.chainCode hkey

theorem SameKey.take_of_priv {ek ek' : BtcExtkey} (hsame : SameKey ek ek')
    (htype : ek.type = btcExtkeyPriv) : ek.key.take 32 = ek'.key.take 32 := by
  have htype' : ek'.type = btcExtkeyPriv := by rw [← hsame.type, htype]
  have hvalid := hsame.key
  rwa [validKey, validKey, if_pos htype, if_pos htype'] at hvalid

section Publics

variable {Point : Type} [AddCommGroup Point] {crypto : ExtkeyCrypto Point}

/-- The public key does not depend on the byte behind the private key. -/
theorem toPublic_congr (hlaw : crypto.Lawful) {ek ek' : BtcExtkey} (hsame : SameKey ek ek')
    (htype : ek.type = btcExtkeyPriv) : toPublic crypto ek = toPublic crypto ek' := by
  have hpub : btcKeysPriv2pub crypto ek.key = btcKeysPriv2pub crypto ek'.key := by
    simp only [btcKeysPriv2pub, hsame.take_of_priv htype]
  rw [toPublic, toPublic, hpub]
  cases hparent : btcKeysPriv2pub crypto ek'.key with
  | none => rfl
  | some pub =>
      obtain ⟨-, hpoint⟩ := btcKeysPriv2pub_some hparent
      have hlength : pub.length = 33 := by rw [hpoint, hlaw.compress_length]
      refine congrArg some (BtcExtkey.ext rfl hsame.depth hsame.fingerprint hsame.childNumber
        hsame.chainCode ?_)
      rw [BtcExtkey.setKey_pub _ hlength, BtcExtkey.setKey_pub _ hlength]

theorem type_toPublic {ek pub : BtcExtkey} (hpublic : toPublic crypto ek = some pub) :
    pub.type = btcExtkeyPub := by
  obtain ⟨key, _, rfl⟩ := Option.map_eq_some_iff.mp hpublic
  rfl

end Publics

section Chains

variable {Point : Type} [AddCommGroup Point] [DecidableEq Point] (crypto : ExtkeyCrypto Point)
  (chain : UInt8)

/-- One step of one side; `into` is the memory that an import reads into. -/
def step (into : BtcExtkey) : ExtkeyStep → BtcExtkey → Option BtcExtkey
  | .derive depth index, ek =>
      match btcExtkeyGenerate crypto ek ek.type depth index (some ek.key) none with
      | some (true, child) => some child
      | _ => none
  | .reload, ek =>
      match btcExtkeyCreateData crypto chain none ek with
      | .written true data _ =>
          match btcExtkeyRead crypto chain into data with
          | (true, ek) => some ek
          | (false, _) => none
      | _ => none

/-- All steps, as long as they succeed. -/
def run (into : Nat → BtcExtkey) : List ExtkeyStep → BtcExtkey → Option BtcExtkey
  | [], ek => some ek
  | first :: steps, ek => (step crypto chain (into steps.length) first ek).bind (run into steps)

variable {crypto chain}

theorem step_derive {into ek child : BtcExtkey} {depth : UInt8} {index : UInt32} :
    step crypto chain into (.derive depth index) ek = some child ↔
      btcExtkeyGenerate crypto ek ek.type depth index (some ek.key) none = some (true, child) := by
  simp only [step]
  split
  · rename_i other hgenerate
    rw [hgenerate]
    simp
  · rename_i hnot
    constructor
    · intro hnone
      exact absurd hnone (by simp)
    · intro hgenerate
      exact absurd hgenerate (hnot child)

theorem step_reload (hdigest : ∀ data, (crypto.hash256 data).length = 32)
    (hchain : Configured chain) {ek : BtcExtkey} (hkind : Kind ek) (into : BtcExtkey) :
    step crypto chain into .reload ek = some (readInto into ek) := by
  obtain ⟨data, hdata, hread⟩ := btcExtkeyRead_written hdigest hchain hkind into
  simp only [step, hdata, hread]

/-- Along any chain the private and the public side stay together. -/
theorem run_toPublic (hlaw : crypto.Lawful) (hchain : Configured chain)
    {intoPriv intoPub : Nat → BtcExtkey} {steps : List ExtkeyStep}
    {priv pub priv' pub' : BtcExtkey} (htype : priv.type = btcExtkeyPriv)
    (hpublic : toPublic crypto priv = some pub)
    (hpriv : run crypto chain intoPriv steps priv = some priv')
    (hpub : run crypto chain intoPub steps pub = some pub') :
    toPublic crypto priv' = some pub' := by
  induction steps generalizing priv pub with
  | nil =>
      obtain rfl : priv = priv' := Option.some.inj hpriv
      obtain rfl : pub = pub' := Option.some.inj hpub
      exact hpublic
  | cons first steps ih =>
      obtain ⟨privNext, hprivStep, hprivRun⟩ := Option.bind_eq_some_iff.mp hpriv
      obtain ⟨pubNext, hpubStep, hpubRun⟩ := Option.bind_eq_some_iff.mp hpub
      have hpubType := type_toPublic hpublic
      cases first with
      | derive depth index =>
          rw [step_derive, htype] at hprivStep
          rw [step_derive, hpubType] at hpubStep
          have hnext := generate_commutes hlaw hpublic hprivStep hpubStep
          have hnextType : privNext.type = btcExtkeyPriv := by
            obtain ⟨_, _, _, _, _, _, rfl⟩ := generate_priv.mp hprivStep
            rfl
          exact ih hnextType hnext hprivRun hpubRun
      | reload =>
          rw [step_reload hlaw.hash256_length hchain (.inl htype)] at hprivStep
          rw [step_reload hlaw.hash256_length hchain (.inr hpubType)] at hpubStep
          have hprivSame := readInto_same (.inl htype) (intoPriv steps.length)
          have hpubSame := readInto_same (.inr hpubType) (intoPub steps.length)
          have hpubEq : pubNext = pub := by
            rw [← Option.some.inj hpubStep]
            exact hpubSame.eq_of_pub hpubType
          have hnext : toPublic crypto privNext = some pubNext := by
            rw [← Option.some.inj hprivStep, hpubEq, toPublic_congr hlaw hprivSame htype, hpublic]
          have hnextType : privNext.type = btcExtkeyPriv := by
            rw [← Option.some.inj hprivStep]
            exact htype
          exact ih hnextType hnext hprivRun hpubRun

/-- A derivation does not depend on the byte behind the private key. -/
theorem generate_sameKey {ek ek' child : BtcExtkey} (hkind : Kind ek) (hsame : SameKey ek ek')
    {depth : UInt8} {index : UInt32}
    (hchild : btcExtkeyGenerate crypto ek ek.type depth index (some ek.key) none =
      some (true, child)) :
    ∃ child', btcExtkeyGenerate crypto ek' ek'.type depth index (some ek'.key) none =
      some (true, child') ∧ SameKey child child' ∧ Kind child := by
  rcases hkind with htype | htype
  · have htake := hsame.take_of_priv htype
    rw [htype] at hchild
    rw [← hsame.type, htype]
    obtain ⟨pub, lL, chainCode, hpub, hhmac, hnonzero, rfl⟩ := generate_priv.mp hchild
    have hpub' : btcKeysPriv2pub crypto ek'.key = some pub := by
      rw [← hpub]
      simp only [btcKeysPriv2pub, htake]
    rw [htake] at hhmac hnonzero
    rw [hsame.chainCode] at hhmac
    refine ⟨_, generate_priv.mpr ⟨pub, lL, chainCode, hpub', hhmac, hnonzero, rfl⟩, ?_, .inl rfl⟩
    have hchain : overwrite ek.chainCode chainCode = overwrite ek'.chainCode chainCode := by
      rw [hsame.chainCode]
    refine ⟨rfl, rfl, rfl, rfl, hchain, ?_⟩
    rw [validKey_priv, validKey_priv, take_setKey, take_setKey, htake] <;> rfl
  · obtain rfl := hsame.eq_of_pub htype
    refine ⟨child, hchild, ⟨rfl, rfl, rfl, rfl, rfl, rfl⟩, ?_⟩
    rw [htype] at hchild
    obtain ⟨_, _, _, _, _, _, rfl⟩ := generate_pub hchild
    exact .inr rfl

/-- Without its exports and imports a chain gives the same extended key. -/
theorem run_sameKey (hdigest : ∀ data, (crypto.hash256 data).length = 32)
    (hchain : Configured chain) {into into' : Nat → BtcExtkey} {steps : List ExtkeyStep}
    {ek ek' last : BtcExtkey} (hkind : Kind ek) (hsame : SameKey ek ek')
    (hrun : run crypto chain into steps ek = some last) :
    ∃ last', run crypto chain into' (derivations steps) ek' = some last' ∧
      SameKey last last' := by
  induction steps generalizing ek ek' with
  | nil =>
      obtain rfl : ek = last := Option.some.inj hrun
      exact ⟨ek', rfl, hsame⟩
  | cons first steps ih =>
      obtain ⟨next, hstep, hrest⟩ := Option.bind_eq_some_iff.mp hrun
      cases first with
      | derive depth index =>
          rw [step_derive] at hstep
          obtain ⟨next', hstep', hnext, hnextKind⟩ := generate_sameKey hkind hsame hstep
          obtain ⟨last', hrun', hlast⟩ := ih hnextKind hnext hrest
          refine ⟨last', ?_, hlast⟩
          rw [derivations, run, step_derive.mpr hstep']
          exact hrun'
      | reload =>
          rw [step_reload hdigest hchain hkind] at hstep
          have hread := readInto_same hkind (into steps.length)
          have hnext : SameKey next ek' := by
            rw [← Option.some.inj hstep]
            exact ⟨hsame.type, hsame.depth, hsame.fingerprint, hsame.childNumber, hsame.chainCode,
              hread.key.trans hsame.key⟩
          have hnextKind : Kind next := by
            rw [← Option.some.inj hstep]
            exact hkind
          exact ih hnextKind hnext hrest

/-- Along any chain of derivations, exports and imports the public key of the private side is the
key of the public side, and the exports and imports change nothing; the public side refuses every
hardened index; and an extended key that is exported is the same when it is imported. -/
theorem derivation_commutes (hlaw : crypto.Lawful) (hchain : Configured chain)
    {intoPriv intoPub : Nat → BtcExtkey} {steps : List ExtkeyStep}
    {priv pub priv' pub' : BtcExtkey} (htype : priv.type = btcExtkeyPriv)
    (hpublic : toPublic crypto priv = some pub)
    (hpriv : run crypto chain intoPriv steps priv = some priv')
    (hpub : run crypto chain intoPub steps pub = some pub') :
    toPublic crypto priv' = some pub' ∧
      (∀ into, ∃ priv'' pub'', run crypto chain into (derivations steps) priv = some priv'' ∧
        SameKey priv' priv'' ∧ run crypto chain into (derivations steps) pub = some pub'' ∧
        SameKey pub' pub'') ∧
      (∀ (ek : BtcExtkey) (depth : UInt8) (index : UInt32) (key : Bytes),
        index &&& btcExtkeyHardened ≠ 0 →
          ∃ left, btcExtkeyGenerate crypto ek btcExtkeyPub depth index (some key) none =
            some (false, left)) ∧
      ∀ ek into : BtcExtkey, Kind ek →
        ∃ data read, btcExtkeyCreateData crypto chain none ek = .written true data none ∧
          btcExtkeyRead crypto chain into data = (true, read) ∧ SameKey read ek := by
  have hsame : ∀ ek, SameKey ek ek := fun ek => ⟨rfl, rfl, rfl, rfl, rfl, rfl⟩
  refine ⟨run_toPublic hlaw hchain htype hpublic hpriv hpub, fun into => ?_,
    fun ek depth index key hindex => generate_pub_hardened hindex ek depth key none,
    fun ek into hkind => ?_⟩
  · obtain ⟨priv'', hpriv'', hprivSame⟩ :=
      run_sameKey hlaw.hash256_length hchain (.inl htype) (hsame priv) hpriv
    obtain ⟨pub'', hpub'', hpubSame⟩ :=
      run_sameKey hlaw.hash256_length hchain (.inr (type_toPublic hpublic)) (hsame pub) hpub
    exact ⟨priv'', pub'', hpriv'', hprivSame, hpub'', hpubSame⟩
  · obtain ⟨data, hdata, hread⟩ := btcExtkeyRead_written hlaw.hash256_length hchain hkind into
    exact ⟨data, _, hdata, hread, readInto_same hkind into⟩

end Chains

/-! ### A run -/

/-- The integers modulo the order in place of the curve, and one digest for everything. -/
def residues : ExtkeyCrypto (ZMod secp256k1N) where
  gen := 1
  compress point := 0x02 :: BigEndian.encode 32 point.val
  decompress pub := some (BigEndian.decode (pub.drop 1) : ZMod secp256k1N)
  hmac512 _ _ := List.replicate 31 0 ++ [0x01] ++ List.replicate 32 0x07
  hash160 _ := List.replicate 20 0x09
  hash256 _ := List.replicate 32 0x0b

theorem residues_lawful : residues.Lawful where
  order := ZMod.addOrderOf_one secp256k1N
  compress_length point := by
    rw [residues, List.length_cons, BigEndian.length_encode]
  decompress_compress point _ := by
    have hne : NeZero secp256k1N := ⟨by decide⟩
    have hfits : point.val < 256 ^ 32 :=
      Nat.lt_trans (ZMod.val_lt point) (by decide)
    change some ((BigEndian.decode (BigEndian.encode 32 point.val) : Nat) : ZMod secp256k1N) = _
    rw [BigEndian.decode_encode hfits, ZMod.natCast_zmod_val]
  hash256_length _ := List.length_replicate

/-- The private key 1. -/
def onePriv : BtcExtkey :=
  ⟨0, 0, 0, 0, List.replicate 32 0, List.replicate 31 0 ++ [0x01, 0], rfl, rfl⟩

/-- Its public key. -/
def onePub : BtcExtkey :=
  ⟨1, 0, 0, 0, List.replicate 32 0, 0x02 :: BigEndian.encode 32 1, rfl, rfl⟩

/-- The private key 2, with the digests of `residues`. -/
def twoPriv : BtcExtkey :=
  ⟨0, 1, 0x09090909, 5, List.replicate 32 0x07, List.replicate 31 0 ++ [0x02, 0], rfl, rfl⟩

/-- Its public key. -/
def twoPub : BtcExtkey :=
  ⟨1, 1, 0x09090909, 5, List.replicate 32 0x07, 0x02 :: BigEndian.encode 32 2, rfl, rfl⟩

/-- A derivation and an export, from the private key 1 to the private key 2. -/
theorem derivation_commutes_two : toPublic residues twoPriv = some twoPub :=
  (derivation_commutes residues_lawful (.inr rfl) rfl
    (by decide +kernel : toPublic residues onePriv = some onePub)
    (by decide +kernel : run residues btcTestnet (fun _ => onePriv) [.derive 1 5, .reload] onePriv =
      some twoPriv)
    (by decide +kernel : run residues btcTestnet (fun _ => onePriv) [.derive 1 5, .reload] onePub =
      some twoPub)).1

end ExtKey

end Ptarmigan
