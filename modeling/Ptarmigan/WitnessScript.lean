/-
The witness scripts of commitment transactions, as a node of the network runs them: which witnesses
the script of to_local and those of the HTLCs take.
-/
import Mathlib.Data.UInt
import Ptarmigan.CommitTx
import Ptarmigan.Library.Script

namespace Ptarmigan

open Script

/-! ### Numbers in scripts -/

theorem toNat_byte (value : UInt64) {pos : UInt64} (hpos : 8 * pos < 64) :
    (value >>> (8 * pos)).toUInt8.toNat = value.toNat / 2 ^ (8 * pos).toNat % 256 := by
  have hlt : (8 * pos).toNat < 64 := UInt64.lt_iff_toNat_lt.mp hpos
  rw [UInt64.toNat_toUInt8, UInt64.toNat_shiftRight, Nat.mod_eq_of_lt hlt,
    Nat.shiftRight_eq_div_pow]

theorem byte_eq (value : UInt64) {pos : UInt64} (hpos : 8 * pos < 64) :
    (value >>> (8 * pos)).toUInt8 = (value.toNat / 2 ^ (8 * pos).toNat).toUInt8 :=
  UInt8.toNat_inj.mp (toNat_byte value hpos)

theorem utlPushValue_encode {value : UInt64} (hlow : 0x80 ≤ value) (hhigh : value < 0x8000000000) :
    ∃ count, 0 < count ∧ count ≤ 4 ∧ value.toNat < 128 * 256 ^ count ∧
      utlPushValue value =
        (count + 1).toUInt8 :: LittleEndian.encode (count + 1) value.toNat := by
  have h0 := @byte_eq value 0 (by decide)
  have h1 := @byte_eq value 1 (by decide)
  have h2 := @byte_eq value 2 (by decide)
  have h3 := @byte_eq value 3 (by decide)
  have h4 := @byte_eq value 4 (by decide)
  simp only [UInt64.lt_iff_toNat_lt, UInt64.le_iff_toNat_le] at hlow hhigh
  have hle16 : ¬ value ≤ 16 := by
    rw [UInt64.le_iff_toNat_le]
    exact Nat.not_le.mpr (Nat.lt_of_lt_of_le (by decide) hlow)
  have hne : value ≠ 0 := by
    rintro rfl
    exact hle16 (by decide)
  have hge : ¬ value < 0x80 := by
    rw [UInt64.lt_iff_toNat_lt]
    exact Nat.not_lt.mpr hlow
  simp only [utlPushValue, if_neg hne, if_neg hle16, if_neg hge, h0, h1, h2, h3, h4]
  split_ifs with htwo hthree hfour hfive
  · refine ⟨1, by decide, by decide, ?_, ?_⟩
    · exact UInt64.lt_iff_toNat_lt.mp htwo
    · simp [LittleEndian.encode]
  · refine ⟨2, by decide, by decide, UInt64.lt_iff_toNat_lt.mp hthree, ?_⟩
    simp [LittleEndian.encode, Nat.div_div_eq_div_mul]
  · refine ⟨3, by decide, by decide, UInt64.lt_iff_toNat_lt.mp hfour, ?_⟩
    simp [LittleEndian.encode, Nat.div_div_eq_div_mul]
  · refine ⟨4, by decide, by decide, UInt64.lt_iff_toNat_lt.mp hfive, ?_⟩
    simp [LittleEndian.encode, Nat.div_div_eq_div_mul]
  · exact absurd (UInt64.lt_iff_toNat_lt.mpr hhigh) hfive

/-- `OP_1` to `OP_16`. -/
theorem opOf_small : ∀ small : Fin 17, small ≠ 0 →
    (0x4e : UInt8) < 0x50 + small.val.toUInt8 ∧
      opOf (0x50 + small.val.toUInt8) = .simple (.push [small.val.toUInt8]) ∧
      toInt 5 [small.val.toUInt8] = some (small.val : Int) := by
  decide

/-- What `utl_push_value` makes is read as a push of the number. -/
theorem utlPushValue_decodes {value : UInt64} (hvalue : value < 0x8000000000) :
    ∃ data, Decodes (utlPushValue value) [.simple (.push data)] ∧
      toInt 5 data = some (value.toNat : Int) := by
  by_cases hlarge : 0x80 ≤ value
  · obtain ⟨count, -, hcount, hfits, hbytes⟩ := utlPushValue_encode hlarge hvalue
    refine ⟨LittleEndian.encode (count + 1) value.toNat, ?_, toInt_encode (by omega) hfits⟩
    have hlength := LittleEndian.length_encode (count + 1) value.toNat
    have hshort : (LittleEndian.encode (count + 1) value.toNat).length ≤ 75 := by omega
    have hpush := decodes_push hshort
    rw [hlength] at hpush
    rwa [hbytes]
  · have hsmall : value.toNat < 128 := by
      rw [UInt64.le_iff_toNat_le] at hlarge
      exact Nat.not_le.mp hlarge
    have hlow : value < 0x80 := UInt64.lt_iff_toNat_lt.mpr hsmall
    have hbyte : value.toUInt8 = value.toNat.toUInt8 := UInt8.toNat_inj.mp rfl
    by_cases hzero : value = 0
    · subst hzero
      have hempty : ([] : Item).length ≤ 75 := by decide
      exact ⟨[], decodes_push hempty, rfl⟩
    · by_cases hop : value ≤ 16
      · have hle : value.toNat ≤ 16 := UInt64.le_iff_toNat_le.mp hop
        have hpos : (⟨value.toNat, by omega⟩ : Fin 17) ≠ 0 := by
          intro heq
          have hval : value.toNat = 0 := congrArg Fin.val heq
          exact hzero (UInt64.toNat_inj.mp hval)
        obtain ⟨hcode, hopOf, hread⟩ := opOf_small _ hpos
        refine ⟨[value.toNat.toUInt8], ?_, hread⟩
        rw [utlPushValue, if_neg hzero, if_pos hop, hbyte, ← hopOf]
        exact decodes_op hcode
      · have hdata : utlPushValue value = (1 : Nat).toUInt8 :: [value.toNat.toUInt8] := by
          have hshift : value >>> (8 * 0) = value := by simp
          simp only [utlPushValue, if_neg hzero, if_neg hop, if_pos hlow, hshift, hbyte]
          rfl
        refine ⟨[value.toNat.toUInt8], ?_, ?_⟩
        · have hshort : [value.toNat.toUInt8].length ≤ 75 := Nat.le_of_ble_eq_true rfl
          rw [hdata]
          exact decodes_push hshort
        · have hencode : [value.toNat.toUInt8] = LittleEndian.encode (0 + 1) value.toNat := rfl
          rw [hencode]
          exact toInt_encode (by omega) (by omega)

/-! ### The scripts as programs -/

/-- `to_local`: the revocation key, or the delayed key after the delay. -/
def tolocalProg (revoKey delay delayedKey : Item) : Prog :=
  .branch false
    (.block [.push revoKey] .done)
    (.block [.push delay, .checkSequenceVerify, .drop, .push delayedKey] .done)
    (.block [.checkSig] .done)

/-- An HTLC: the revocation key; else the two other ways, the one whose witness ends in 32 bytes
being the first when not `negated`. -/
def htlcProg (revoHash remoteKey : Item) (negated : Bool) (yes no : List Simple) : Prog :=
  .block [.dup, .hash160, .push revoHash, .equal]
    (.branch false
      (.block [.checkSig] .done)
      (.block [.push remoteKey, .swap, .size, .push [32], .equal]
        (.branch negated (.block yes .done) (.block no .done) .done))
      .done)

/-- Both HTLC keys sign. -/
def twoOfTwo (localKey : Item) : List Simple :=
  [.push [2], .swap, .push localKey, .push [2], .checkMultiSig]

def offeredProg (localKey revoHash preImageHash remoteKey : Item) : Prog :=
  htlcProg revoHash remoteKey true (.drop :: twoOfTwo localKey)
    [.hash160, .push preImageHash, .equalVerify, .checkSig]

def receivedProg (localKey revoHash remoteKey preImageHash expiry : Item) : Prog :=
  htlcProg revoHash remoteKey false
    ([.hash160, .push preImageHash, .equalVerify] ++ twoOfTwo localKey)
    [.drop, .push expiry, .checkLockTimeVerify, .drop, .checkSig]

theorem decodes_key {key : Bytes} (hkey : key.length = 33) :
    Decodes ([0x21] ++ key) [.simple (.push key)] := by
  have hpush := decodes_push (hkey.le.trans (by decide))
  rwa [hkey] at hpush

theorem decodes_hash {hash : Bytes} (hhash : hash.length = 20) :
    Decodes ([0x14] ++ hash) [.simple (.push hash)] := by
  have hpush := decodes_push (hhash.le.trans (by decide))
  rwa [hhash] at hpush

theorem lnScriptCreateTolocal_decodes {revoKey delayedKey : Bytes} {delay : UInt16}
    (hrevo : revoKey.length = 33) (hdelayed : delayedKey.length = 33) {push : Item}
    (hdelay : Decodes (utlPushValue delay.toUInt64) [.simple (.push push)]) :
    Decodes (lnScriptCreateTolocal revoKey delayedKey delay)
      (tolocalProg revoKey push delayedKey).ops := by
  have hif : Decodes [0x63] _ := decodes_ops (by decide)
  have helse : Decodes [0x67] _ := decodes_ops (by decide)
  have hcsv : Decodes [0xb2, 0x75] _ := decodes_ops (by decide)
  have hend : Decodes [0x68, 0xac] _ := decodes_ops (by decide)
  have hbytes := hif.append ((decodes_key hrevo).append (helse.append (hdelay.append
    (hcsv.append ((decodes_key hdelayed).append hend)))))
  simpa [lnScriptCreateTolocal, tolocalProg, Prog.block, Prog.ops, opOf] using hbytes

theorem createScriptOffered_decodes {crypto : Crypto} {localKey revoKey hash remoteKey : Bytes}
    (hlocal : localKey.length = 33) (hrevo : (crypto.hash160 revoKey).length = 20)
    (hhash : hash.length = 20) (hremote : remoteKey.length = 33) :
    Decodes (createScriptOffered crypto localKey revoKey hash remoteKey)
      (offeredProg localKey (crypto.hash160 revoKey) hash remoteKey).ops := by
  have hsize : ([0x20] : Item).length ≤ 75 := by decide
  have hdup : Decodes [0x76, 0xa9] _ := decodes_ops (by decide)
  have hif : Decodes [0x87, 0x63, 0xac, 0x67] _ := decodes_ops (by decide)
  have hswap : Decodes [0x7c, 0x82] _ := decodes_ops (by decide)
  have hmulti : Decodes [0x87, 0x64, 0x75, 0x52, 0x7c] _ := decodes_ops (by decide)
  have helse : Decodes [0x52, 0xae, 0x67, 0xa9] _ := decodes_ops (by decide)
  have hend : Decodes [0x88, 0xac, 0x68, 0x68] _ := decodes_ops (by decide)
  have hbytes := hdup.append ((decodes_hash hrevo).append (hif.append ((decodes_key hremote).append
    (hswap.append ((decodes_push hsize).append (hmulti.append ((decodes_key hlocal).append
      (helse.append ((decodes_hash hhash).append hend)))))))))
  simpa [createScriptOffered, offeredProg, htlcProg, twoOfTwo, Prog.block, Prog.ops, opOf]
    using hbytes

theorem createScriptReceived_decodes {crypto : Crypto} {localKey revoKey remoteKey hash : Bytes}
    {expiry : UInt32} (hlocal : localKey.length = 33)
    (hrevo : (crypto.hash160 revoKey).length = 20) (hremote : remoteKey.length = 33)
    (hhash : hash.length = 20) {push : Item}
    (hexpiry : Decodes (utlPushValue expiry.toUInt64) [.simple (.push push)]) :
    Decodes (createScriptReceived crypto localKey revoKey remoteKey hash expiry)
      (receivedProg localKey (crypto.hash160 revoKey) remoteKey hash push).ops := by
  have hsize : ([0x20] : Item).length ≤ 75 := by decide
  have hdup : Decodes [0x76, 0xa9] _ := decodes_ops (by decide)
  have hif : Decodes [0x87, 0x63, 0xac, 0x67] _ := decodes_ops (by decide)
  have hswap : Decodes [0x7c, 0x82] _ := decodes_ops (by decide)
  have hpreimage : Decodes [0x87, 0x63, 0xa9] _ := decodes_ops (by decide)
  have hmulti : Decodes [0x88, 0x52, 0x7c] _ := decodes_ops (by decide)
  have helse : Decodes [0x52, 0xae, 0x67, 0x75] _ := decodes_ops (by decide)
  have hend : Decodes [0xb1, 0x75, 0xac, 0x68, 0x68] _ := decodes_ops (by decide)
  have hbytes := hdup.append ((decodes_hash hrevo).append (hif.append ((decodes_key hremote).append
    (hswap.append ((decodes_push hsize).append (hpreimage.append ((decodes_hash hhash).append
      (hmulti.append ((decodes_key hlocal).append (helse.append (hexpiry.append hend)))))))))))
  simpa [createScriptReceived, receivedProg, htlcProg, twoOfTwo, Prog.block, Prog.ops, opOf]
    using hbytes

/-! ### What the programs take -/

variable {env : Env}

/-- The ways to spend `to_local`: the revocation key at once, the delayed key after the delay. -/
def TolocalWitness (env : Env) (revoKey delayedKey : Item) (delay : Nat) (items : List Item) :
    Prop :=
  ∃ sig selector, items = [sig, selector] ∧
    (truthy selector = true ∧ env.checkSig sig revoKey = true ∨
      truthy selector = false ∧ env.aged delay = true ∧ env.checkSig sig delayedKey = true)

theorem tolocalProg_takes {revoKey push delayedKey : Item} {delay : Nat}
    (hread : toInt 5 push = some (delay : Int)) (hon : delay.testBit 31 = false)
    (stack : List Item) :
    (tolocalProg revoKey push delayedKey).Takes env stack ↔
      TolocalWitness env revoKey delayedKey delay stack.reverse := by
  have hdelay := fun rest => step_checkSequenceVerify env rest hread hon
  simp only [TolocalWitness, List.reverse_eq_iff, List.reverse_cons, List.reverse_nil,
    List.nil_append, List.singleton_append]
  match stack with
  | [] => simp [Prog.Takes, tolocalProg, Prog.eval]
  | [selector] =>
      cases hselector : truthy selector <;> cases haged : env.aged delay <;>
        simp [Prog.Takes, tolocalProg, Prog.eval, Prog.block, hselector, hdelay, haged]
  | selector :: sig :: rest =>
      cases hselector : truthy selector <;> cases haged : env.aged delay <;>
        simp [Prog.Takes, tolocalProg, Prog.eval, Prog.block, hselector, hdelay, haged]

theorem beq_ofNat (length : Nat) : (([32] : Item) == ofNat length) = decide (length = 32) := by
  have hbytes : ofNat length = [32] ↔ length = 32 :=
    ofNat_eq_singleton (by decide) (by decide)
  by_cases hlength : length = 32
  · rw [decide_eq_true hlength, beq_iff_eq]
    exact (hbytes.mpr hlength).symm
  · rw [decide_eq_false hlength, beq_eq_false_iff_ne]
    exact fun heq => hlength (hbytes.mp heq.symm)

/-- Below the item on top is the way it opens. -/
theorem htlcProg_takes {revoHash remoteKey : Item} {negated : Bool} {yes no : List Simple}
    (top : Item) (below : List Item) :
    (htlcProg revoHash remoteKey negated yes no).Takes env (top :: below) ↔
      if env.hash160 top = revoHash then ∃ sig, below = [sig] ∧ env.checkSig sig top = true
      else (Prog.block (if decide (top.length = 32) != negated then yes else no) .done).Takes env
        (top :: remoteKey :: below) := by
  by_cases hrevo : env.hash160 top = revoHash
  · have hbeq : (revoHash == env.hash160 top) = true := beq_iff_eq.mpr hrevo.symm
    rw [if_pos hrevo]
    cases below with
    | nil => simp [Prog.Takes, htlcProg, Prog.block, Prog.eval, hbeq]
    | cons sig rest => simp [Prog.Takes, htlcProg, Prog.block, Prog.eval, hbeq, and_comm]
  · have hbeq : (revoHash == env.hash160 top) = false :=
      beq_eq_false_iff_ne.mpr (Ne.symm hrevo)
    rw [if_neg hrevo]
    cases hway : decide (top.length = 32) != negated <;>
      simp [Prog.Takes, htlcProg, Prog.block, Prog.eval, hbeq, beq_ofNat, hway]

theorem htlcProg_takes_nil {revoHash remoteKey : Item} {negated : Bool} {yes no : List Simple} :
    ¬ (htlcProg revoHash remoteKey negated yes no).Takes env [] := by
  simp [Prog.Takes, htlcProg, Prog.block, Prog.eval]

theorem twoOfTwo_takes {localKey remoteKey : Item} (below : List Item) :
    (Prog.block (twoOfTwo localKey) .done).Takes env (remoteKey :: below) ↔
      ∃ sigLocal sigRemote, below = [sigLocal, sigRemote, []] ∧
        env.checkSig sigLocal localKey = true ∧ env.checkSig sigRemote remoteKey = true := by
  match below with
  | [] => simp [Prog.Takes, twoOfTwo, Prog.block, Prog.eval]
  | [_] => simp [Prog.Takes, twoOfTwo, Prog.block, Prog.eval]
  | [_, _] => simp [Prog.Takes, twoOfTwo, Prog.block, Prog.eval]
  | sigLocal :: sigRemote :: dummy :: rest =>
      by_cases hdummy : dummy = []
      · simp [Prog.Takes, twoOfTwo, Prog.block, Prog.eval, hdummy, and_comm]
      · simp [Prog.Takes, twoOfTwo, Prog.block, Prog.eval, hdummy]

/-- Both HTLC keys, behind an instruction that leaves them. -/
theorem drop_twoOfTwo_takes {localKey remoteKey top : Item} (below : List Item) :
    (Prog.block (.drop :: twoOfTwo localKey) .done).Takes env (top :: remoteKey :: below) ↔
      (Prog.block (twoOfTwo localKey) .done).Takes env (remoteKey :: below) := by
  simp [Prog.Takes, Prog.block, Prog.eval]

theorem preImage_takes {hash remoteKey top : Item} {ops : List Simple} (below : List Item) :
    (Prog.block (.hash160 :: .push hash :: .equalVerify :: ops) .done).Takes env
        (top :: remoteKey :: below) ↔
      env.hash160 top = hash ∧ (Prog.block ops .done).Takes env (remoteKey :: below) := by
  by_cases hhash : hash = env.hash160 top
  · simp [Prog.Takes, Prog.block, Prog.eval, hhash]
  · simp [Prog.Takes, Prog.block, Prog.eval, hhash, Ne.symm hhash]

theorem expiry_takes {push remoteKey top : Item} {expiry : Nat}
    (hread : toInt 5 push = some (expiry : Int)) (below : List Item) :
    (Prog.block [.drop, .push push, .checkLockTimeVerify, .drop, .checkSig] .done).Takes env
        (top :: remoteKey :: below) ↔
      env.locked expiry = true ∧ (Prog.block [.checkSig] .done).Takes env (remoteKey :: below) := by
  have hexpiry := fun rest => step_checkLockTimeVerify env rest hread
  cases hlocked : env.locked expiry <;>
    simp [Prog.Takes, Prog.block, Prog.eval, hexpiry, hlocked]

theorem checkSig_takes {key : Item} (below : List Item) :
    (Prog.block [.checkSig] .done).Takes env (key :: below) ↔
      ∃ sig, below = [sig] ∧ env.checkSig sig key = true := by
  cases below with
  | nil => simp [Prog.Takes, Prog.block, Prog.eval]
  | cons sig rest => simp [Prog.Takes, Prog.block, Prog.eval, and_comm]

/-! ### The scripts of a commitment transaction -/

/-- `to_local` is spent with the revocation key, or with the delayed key by an input as old as the
delay, and in no other way. -/
theorem tolocal_spends_iff {revoKey delayedKey : Bytes} (delay : UInt16)
    (hrevo : revoKey.length = 33) (hdelayed : delayedKey.length = 33) (items : List Item) :
    env.spends (lnScriptCreateTolocal revoKey delayedKey delay) items = true ↔
      TolocalWitness env revoKey delayedKey delay.toNat items := by
  have hlt : delay.toUInt64.toNat < 2 ^ 16 := delay.toNat_lt
  have hfits : delay.toUInt64 < 0x8000000000 :=
    UInt64.lt_iff_toNat_lt.mpr (hlt.trans (by decide))
  have hon : delay.toNat.testBit 31 = false :=
    Nat.testBit_lt_two_pow (hlt.trans (by decide))
  obtain ⟨push, hdelay, hread⟩ := utlPushValue_decodes hfits
  rw [(lnScriptCreateTolocal_decodes hrevo hdelayed hdelay).spends_iff,
    tolocalProg_takes hread hon, List.reverse_reverse, UInt16.toNat_toUInt64]

/-- A signature is the key that made it, a digest the start of what it is of. -/
def symbolicEnv (lockTime sequence : Nat) : Env where
  checkSig sig pub := sig == pub
  hash160 := padTo 20
  version := 2
  lockTime
  sequence

/-- The delayed key after 40 blocks. -/
example :
    (symbolicEnv 0 40).spends (lnScriptCreateTolocal (List.replicate 33 1) (List.replicate 33 2) 40)
      [List.replicate 33 2, []] = true :=
  (tolocal_spends_iff 40 List.length_replicate List.length_replicate _).mpr
    ⟨_, _, rfl, .inr ⟨rfl, by decide, beq_self_eq_true _⟩⟩

/-- The remote key alone opens an offered HTLC with the preimage, and a received one after the
expiry. -/
def OpensAlone (env : Env) (hash : Item) (info : LnScriptHtlcinfo) (last : Item) : Prop :=
  match info.type with
  | .offered => last.length = 32 ∧ env.hash160 last = hash
  | .received => last.length ≠ 32 ∧ env.locked info.expiry.toNat = true

/-- Both keys open a received HTLC with the preimage, and an offered one at any time. -/
def OpensBoth (env : Env) (hash : Item) (info : LnScriptHtlcinfo) (last : Item) : Prop :=
  match info.type with
  | .offered => last.length ≠ 32
  | .received => last.length = 32 ∧ env.hash160 last = hash

/-- The ways to spend an HTLC output; the first is open to whoever revokes the commitment. -/
inductive HtlcWitness (env : Env) (revoHash hash : Item) (keys : Scriptkeys)
    (info : LnScriptHtlcinfo) : List Item → Prop
  | revoked {sig key : Item} : env.hash160 key = revoHash → env.checkSig sig key = true →
      HtlcWitness env revoHash hash keys info [sig, key]
  | alone {sig last : Item} : env.hash160 last ≠ revoHash → OpensAlone env hash info last →
      env.checkSig sig keys.remoteHtlckey = true →
      HtlcWitness env revoHash hash keys info [sig, last]
  | both {sigRemote sigLocal last : Item} : env.hash160 last ≠ revoHash →
      OpensBoth env hash info last → env.checkSig sigRemote keys.remoteHtlckey = true →
      env.checkSig sigLocal keys.localHtlckey = true →
      HtlcWitness env revoHash hash keys info [[], sigRemote, sigLocal, last]

/-- The keys and digests that the script of an HTLC holds have their lengths. -/
structure HtlcSized (crypto : Crypto) (keys : Scriptkeys) (info : LnScriptHtlcinfo) : Prop where
  localHtlckey : keys.localHtlckey.length = 33
  remoteHtlckey : keys.remoteHtlckey.length = 33
  revocation : (crypto.hash160 keys.revocation).length = 20
  preimageHash : (crypto.ripemd160 info.preimageHash).length = 20

/-- What the program of an HTLC takes, the two ways behind the revocation key given by what they
take. -/
theorem htlcProg_takes_iff {revoHash hash : Item} {keys : Scriptkeys} {info : LnScriptHtlcinfo}
    {negated : Bool} {yes no : List Simple}
    (hways : ∀ last below,
      (Prog.block (if decide (last.length = 32) != negated then yes else no) .done).Takes env
          (last :: keys.remoteHtlckey :: below) ↔
        OpensAlone env hash info last ∧
            (∃ sig, below = [sig] ∧ env.checkSig sig keys.remoteHtlckey = true) ∨
          OpensBoth env hash info last ∧ ∃ sigLocal sigRemote, below = [sigLocal, sigRemote, []] ∧
            env.checkSig sigLocal keys.localHtlckey = true ∧
              env.checkSig sigRemote keys.remoteHtlckey = true) (items : List Item) :
    (htlcProg revoHash keys.remoteHtlckey negated yes no).Takes env items.reverse ↔
      HtlcWitness env revoHash hash keys info items := by
  constructor
  · intro htakes
    cases hstack : items.reverse with
    | nil => exact absurd (hstack ▸ htakes) htlcProg_takes_nil
    | cons last below =>
        rw [hstack, htlcProg_takes, hways] at htakes
        rw [List.reverse_eq_iff] at hstack
        subst hstack
        split_ifs at htakes with hrevo
        · obtain ⟨sig, rfl, hsig⟩ := htakes
          exact .revoked hrevo hsig
        · rcases htakes with ⟨hopens, sig, rfl, hsig⟩ | ⟨hopens, sigLocal, sigRemote, rfl, hsigs⟩
          · exact .alone hrevo hopens hsig
          · exact .both hrevo hopens hsigs.2 hsigs.1
  · intro hspend
    cases hspend with
    | revoked hrevo hsig =>
        rw [List.reverse_cons, List.reverse_singleton, List.singleton_append, htlcProg_takes,
          if_pos hrevo]
        exact ⟨_, rfl, hsig⟩
    | alone hrevo hopens hsig =>
        rw [List.reverse_cons, List.reverse_singleton, List.singleton_append, htlcProg_takes,
          if_neg hrevo, hways]
        exact .inl ⟨hopens, _, rfl, hsig⟩
    | @both sigRemote sigLocal last hrevo hopens hremote hlocal =>
        have hstack : [[], sigRemote, sigLocal, last].reverse = last :: [sigLocal, sigRemote, []] :=
          rfl
        rw [hstack, htlcProg_takes, if_neg hrevo, hways]
        exact .inr ⟨hopens, _, _, rfl, hlocal, hremote⟩

/-- The output of an HTLC is spent with the revocation key, with the remote key, or with both HTLC
keys, each under its own condition, and in no other way. -/
theorem htlc_spends_iff {crypto : Crypto} {keys : Scriptkeys} {info : LnScriptHtlcinfo}
    (hsized : HtlcSized crypto keys info) (items : List Item) :
    env.spends (lnScriptHtlcinfoScript crypto keys info).script items = true ↔
      HtlcWitness env (crypto.hash160 keys.revocation) (crypto.ripemd160 info.preimageHash) keys
        info items := by
  cases htype : info.type with
  | offered =>
      have hscript := createScriptOffered_decodes hsized.localHtlckey hsized.revocation
        hsized.preimageHash hsized.remoteHtlckey
      simp only [lnScriptHtlcinfoScript, htype]
      rw [hscript.spends_iff]
      apply htlcProg_takes_iff
      intro last below
      simp only [OpensAlone, OpensBoth, htype]
      by_cases hlength : last.length = 32
      · simp [hlength, preImage_takes, checkSig_takes]
      · simp [hlength, drop_twoOfTwo_takes, twoOfTwo_takes]
  | received =>
      have hfits : info.expiry.toUInt64 < 0x8000000000 :=
        UInt64.lt_iff_toNat_lt.mpr ((UInt32.toNat_lt info.expiry).trans (by decide))
      obtain ⟨push, hexpiry, hread⟩ := utlPushValue_decodes hfits
      have hscript := createScriptReceived_decodes hsized.localHtlckey hsized.revocation
        hsized.remoteHtlckey hsized.preimageHash hexpiry
      simp only [lnScriptHtlcinfoScript, htype]
      rw [hscript.spends_iff]
      apply htlcProg_takes_iff
      intro last below
      simp only [OpensAlone, OpensBoth, htype]
      by_cases hlength : last.length = 32
      · simp [hlength, preImage_takes, twoOfTwo_takes]
      · simp [hlength, expiry_takes hread, checkSig_takes]

def Crypto.padded : Crypto :=
  { Crypto.symbolic with
    hash160 := padTo 20
    ripemd160 := padTo 20 }

def paddedKeys : Scriptkeys where
  revocation := List.replicate 33 3
  localHtlckey := List.replicate 33 4
  remoteHtlckey := List.replicate 33 5

/-- A received HTLC that has expired. -/
example :
    (symbolicEnv 500 0).spends (lnScriptHtlcinfoScript .padded paddedKeys
      ⟨.received, 0, 500, 1000000, [9], []⟩).script [List.replicate 33 5, []] = true :=
  (htlc_spends_iff ⟨List.length_replicate, List.length_replicate, length_padTo 20 _,
    length_padTo 20 _⟩ _).mpr (.alone (by decide) ⟨by decide, by decide⟩ (by decide))

end Ptarmigan
