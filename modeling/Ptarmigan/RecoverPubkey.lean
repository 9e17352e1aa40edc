/-
Public keys recovered from signatures: `recover_pubkey` goes through the points that a signature
may have been made with, and an assertion of it fails where the curve library refuses a number or
a point.
-/
import Ptarmigan.ExtKey
import Ptarmigan.Library.BigEndian

namespace Ptarmigan

namespace RecoverPubkey

open ExtKey

/-- The curve in the library, its points in compressed form. -/
structure EcpGroup where
  /-- `mbedtls_ecp_check_pubkey`, of what `btc_util_ecp_point_read_binary2` makes of a key. -/
  checkPubkey : Bytes → Bool
  /-- `m P + n G`, none at infinity. -/
  sumOf : Nat → Bytes → Nat → Option Bytes
  /-- `m P`. -/
  multiple : Nat → Bytes → Bytes
  /-- `mbedtls_ecdsa_verify`, of a hash, a public key and the two numbers. -/
  ecdsaVerify : Bytes → Bytes → Nat → Nat → Bool

def secp256k1P : Nat :=
  2 ^ 256 - 2 ^ 32 - 977

/-- `mbedtls_ecp_check_privkey`. -/
def checkPrivkey (m : Nat) : Bool :=
  decide (0 < m) && decide (m < secp256k1N)

/-- `mbedtls_mpi_inv_mod` by the order, none without an inverse. -/
def invMod (value : Nat) : Option Nat :=
  if value.Coprime secp256k1N then some (value.gcdA secp256k1N % (secp256k1N : Int)).toNat
  else none

/-- `grp.modp`: only what is above 256 bits is reduced. -/
def modp (x : Nat) : Nat :=
  if x < 2 ^ 256 then x else x - secp256k1P

/-- `mbedtls_ecp_muladd` with the generator and `mbedtls_ecp_mul` behind it, none where one of them
refuses: the numbers are private keys, the point is on the curve and the sum is not at infinity. -/
def mulAdd (group : EcpGroup) (s : Nat) (point : Bytes) (me invR : Nat) : Option Bytes :=
  if checkPrivkey s && checkPrivkey me && group.checkPubkey point then
    (group.sumOf s point me).map (group.multiple invR)
  else none

/-- The two numbers of a signature. -/
def rOf (rs : Bytes) : Nat := BigEndian.decode (rs.take 32)
def sOf (rs : Bytes) : Nat := BigEndian.decode ((rs.drop 32).take 32)

/-- `-e` modulo the order. -/
def meOf (hash : Bytes) : Nat :=
  (secp256k1N - BigEndian.decode hash % secp256k1N) % secp256k1N

/-- `R` for `k = 0` and `-R` for `k = 1`, over the `j`-th `x` coordinate. -/
def pointOf (rs : Bytes) (j k : Nat) : Bytes :=
  UInt8.ofNat (2 + k) :: BigEndian.encode 32 (modp (rOf rs + j * secp256k1N))

/-- `btc_tx_verify_rs`. -/
def btcTxVerifyRs (group : EcpGroup) (rs hash pubkey : Bytes) : Bool :=
  group.ecdsaVerify hash pubkey (rOf rs) (sOf rs)

/-- How `recover_pubkey` ends. -/
inductive Recovered where
  | aborted
  | notFound
  | found (recId : Nat) (pubkey : Bytes)
deriving DecidableEq

def Recovered.isFound : Recovered → Bool
  | .found _ _ => true
  | _ => false

/-- The loops of `recover_pubkey` over the candidates that are left. -/
def tryCandidates (group : EcpGroup) (rs hash : Bytes) (org : Option Bytes) (invR : Nat) :
    List (Nat × Nat) → Recovered
  | [] => .notFound
  | (j, k) :: rest =>
      match mulAdd group (sOf rs) (pointOf rs j k) (meOf hash) invR with
      | none => .aborted
      | some pubkey =>
          if btcTxVerifyRs group rs hash pubkey && (org.all fun key => key == pubkey) then
            .found (2 * j + k) pubkey
          else tryCandidates group rs hash org invR rest

/-- The values of `j` and `k`: those of a recovery id, or all of them. -/
def candidates : Option Nat → List (Nat × Nat)
  | some recId => [(recId / 2 % 2, recId % 2)]
  | none => [(0, 0), (0, 1), (1, 0), (1, 1)]

def recoverPubkey (group : EcpGroup) (recId : Option Nat) (rs hash : Bytes) (org : Option Bytes) :
    Recovered :=
  match invMod (rOf rs) with
  | none => .aborted
  | some invR => tryCandidates group rs hash org invR (candidates recId)

def btcTxRecoverPubkey (group : EcpGroup) (recId : Nat) (rs hash : Bytes) : Recovered :=
  if 3 < recId then .notFound
  else recoverPubkey group (some recId) rs hash none

def btcTxRecoverPubkeyId (group : EcpGroup) (pubkey rs hash : Bytes) : Recovered :=
  recoverPubkey group none rs hash (some pubkey)

/-- What the assertions ask for: `r` has an inverse, `s` and `-e` are private keys, and the point
of the recovery id is one of the curve that does not lead to infinity. -/
structure Recoverable (group : EcpGroup) (recId : Nat) (rs hash : Bytes) : Prop where
  inverse : (rOf rs).Coprime secp256k1N
  s : 0 < sOf rs ∧ sOf rs < secp256k1N
  digest : ¬ secp256k1N ∣ BigEndian.decode hash
  point : group.checkPubkey (pointOf rs (recId / 2 % 2) (recId % 2)) = true
  finite : group.sumOf (sOf rs) (pointOf rs (recId / 2 % 2) (recId % 2)) (meOf hash) ≠ none

variable {group : EcpGroup} {rs hash pubkey : Bytes} {org : Option Bytes} {recId invR j k : Nat}

theorem checkPrivkey_iff (m : Nat) : checkPrivkey m = true ↔ 0 < m ∧ m < secp256k1N := by
  simp [checkPrivkey]

/-- `-e` is a private key unless the order divides the hash. -/
theorem checkPrivkey_meOf (hash : Bytes) :
    checkPrivkey (meOf hash) = true ↔ ¬ secp256k1N ∣ BigEndian.decode hash := by
  have hpos : 0 < secp256k1N := by decide
  have hlt := Nat.mod_lt (BigEndian.decode hash) hpos
  rw [checkPrivkey_iff, meOf, and_iff_left (Nat.mod_lt _ hpos), Nat.dvd_iff_mod_eq_zero]
  rcases Nat.eq_zero_or_pos (BigEndian.decode hash % secp256k1N) with hzero | hrest
  · rw [hzero, Nat.sub_zero, Nat.mod_self]
    simp
  · rw [Nat.mod_eq_of_lt (by omega)]
    omega

theorem mulAdd_ne_none_iff : mulAdd group (sOf rs) (pointOf rs j k) (meOf hash) invR ≠ none ↔
    (0 < sOf rs ∧ sOf rs < secp256k1N) ∧ ¬ secp256k1N ∣ BigEndian.decode hash ∧
      group.checkPubkey (pointOf rs j k) = true ∧
      group.sumOf (sOf rs) (pointOf rs j k) (meOf hash) ≠ none := by
  rw [← checkPrivkey_iff, ← checkPrivkey_meOf, mulAdd]
  split
  case isTrue hvalid =>
    rw [Bool.and_eq_true, Bool.and_eq_true] at hvalid
    simp [hvalid.1.1, hvalid.1.2, hvalid.2]
  case isFalse hinvalid =>
    rw [Bool.and_eq_true, Bool.and_eq_true] at hinvalid
    constructor
    · intro hne
      exact absurd rfl hne
    · rintro ⟨hs, hme, hpoint, _⟩
      exact absurd ⟨⟨hs, hme⟩, hpoint⟩ hinvalid

/-- With a recovery id, the program goes on exactly when the assertions hold. -/
theorem btcTxRecoverPubkey_aborted_iff (hid : recId ≤ 3) :
    btcTxRecoverPubkey group recId rs hash = .aborted ↔ ¬ Recoverable group recId rs hash := by
  have hlist : Recoverable group recId rs hash ↔ (rOf rs).Coprime secp256k1N ∧
      ((0 < sOf rs ∧ sOf rs < secp256k1N) ∧ ¬ secp256k1N ∣ BigEndian.decode hash ∧
        group.checkPubkey (pointOf rs (recId / 2 % 2) (recId % 2)) = true ∧
        group.sumOf (sOf rs) (pointOf rs (recId / 2 % 2) (recId % 2)) (meOf hash) ≠ none) :=
    ⟨fun ⟨hinv, hs, hhash, hpoint, hsum⟩ => ⟨hinv, hs, hhash, hpoint, hsum⟩,
      fun ⟨hinv, hs, hhash, hpoint, hsum⟩ => ⟨hinv, hs, hhash, hpoint, hsum⟩⟩
  rw [hlist, btcTxRecoverPubkey, if_neg (Nat.not_lt.mpr hid), recoverPubkey, invMod]
  by_cases hinv : (rOf rs).Coprime secp256k1N
  · rw [if_pos hinv, and_iff_right hinv]
    generalize ((rOf rs).gcdA secp256k1N % (secp256k1N : Int)).toNat = invR
    rw [← @mulAdd_ne_none_iff group rs hash invR, not_ne_iff]
    simp only [candidates, tryCandidates]
    split
    case h_1 hnone => simp [hnone]
    case h_2 pubkey hsome =>
      rw [hsome]
      split <;> simp
  · rw [if_neg hinv]
    simp [hinv]

/-- A key that is found is that of one of the candidates. -/
theorem tryCandidates_found {list : List (Nat × Nat)}
    (hfound : tryCandidates group rs hash org invR list = .found recId pubkey) :
    ∃ j k, (j, k) ∈ list ∧ recId = 2 * j + k ∧
      mulAdd group (sOf rs) (pointOf rs j k) (meOf hash) invR = some pubkey ∧
      btcTxVerifyRs group rs hash pubkey = true ∧ (org.all fun key => key == pubkey) = true := by
  induction list with
  | nil => exact absurd hfound (by simp [tryCandidates])
  | cons first rest ih =>
      obtain ⟨j, k⟩ := first
      rw [tryCandidates] at hfound
      split at hfound
      case h_1 => exact absurd hfound (by simp)
      case h_2 key hkey =>
        split at hfound
        case isTrue hmatch =>
          cases hfound
          rw [Bool.and_eq_true] at hmatch
          exact ⟨j, k, List.mem_cons_self, rfl, hkey, hmatch.1, hmatch.2⟩
        case isFalse =>
          obtain ⟨j', k', hmem, hrest⟩ := ih hfound
          exact ⟨j', k', List.mem_cons_of_mem _ hmem, hrest⟩

/-- A recovery id that is found for a key recovers that key. -/
theorem btcTxRecoverPubkey_of_id {key : Bytes}
    (hfound : btcTxRecoverPubkeyId group pubkey rs hash = .found recId key) :
    recId ≤ 3 ∧ btcTxRecoverPubkey group recId rs hash = .found recId pubkey := by
  rw [btcTxRecoverPubkeyId, recoverPubkey] at hfound
  split at hfound
  case h_1 => exact absurd hfound (by simp)
  case h_2 invR hinv =>
    obtain ⟨j, k, hmem, rfl, hkey, hverify, horg⟩ := tryCandidates_found hfound
    have hsame : pubkey = key := by simpa using horg
    subst hsame
    have hbits : j < 2 ∧ k < 2 := by
      simp only [candidates, List.mem_cons, Prod.mk.injEq, List.not_mem_nil, or_false] at hmem
      omega
    have hsmall : 2 * j + k ≤ 3 := by omega
    have hj : (2 * j + k) / 2 % 2 = j := by omega
    have hk : (2 * j + k) % 2 = k := by omega
    refine ⟨hsmall, ?_⟩
    rw [btcTxRecoverPubkey, if_neg (Nat.not_lt.mpr hsmall), recoverPubkey, hinv]
    simp only [candidates, hj, hk, tryCandidates, hkey, hverify, Option.all_none, Bool.and_true,
      if_true]

/-- Every point is on the curve, and every signature is one of the same key. -/
def EcpGroup.permissive : EcpGroup where
  checkPubkey := fun _ => true
  sumOf := fun _ point _ => some point
  multiple := fun _ _ => List.replicate 33 2
  ecdsaVerify := fun _ _ _ _ => true

end RecoverPubkey

end Ptarmigan
