/-
Addresses of output scripts.  Which strings in lower case are bech32, and from that: a witness
program is read back from its address, and from no other string behind the name of the chain.  The
scripts that a channel closes to are all read back, those of hashes through base 58; and the wallet
pays the script of an address, or nothing when the address is damaged.
-/
import Ptarmigan.Bech32Burst
import Ptarmigan.InvoiceEncode
import Ptarmigan.PenaltySpend

namespace Ptarmigan

namespace Bech32

/-! ### Which strings are bech32 -/

/-- Groups behind a human-readable part, with their checksum. -/
def spell (hrp data : Bytes) : Bytes :=
  hrp ++ separator :: (data ++ checksumGroups
    (polymodStep^[6] (polymod (hrpChecksum hrp) data) ^^^ 1)).map charOf

/-- A human-readable part that says in which case a string is. -/
def LowerHrp (hrp : Bytes) : Prop :=
  (hrp.all fun ch => hrpChar ch && !isUpper ch) = true ∧ hrp.any isLower = true

instance (hrp : Bytes) : Decidable (LowerHrp hrp) := inferInstanceAs (Decidable (_ ∧ _))

theorem LowerHrp.chars {hrp : Bytes} (hhrp : LowerHrp hrp) :
    ∀ ch ∈ hrp, hrpChar ch = true ∧ isUpper ch = false := by
  intro ch hmem
  simpa using List.all_eq_true.mp hhrp.1 ch hmem

theorem length_checksumGroups (chk : Nat) : (checksumGroups chk).length = 6 := by
  rw [checksumGroups, List.length_map, List.length_range]

theorem length_spell (hrp data : Bytes) :
    (spell hrp data).length = hrp.length + 7 + data.length := by
  simp only [spell, List.length_append, List.length_cons, List.length_map, length_checksumGroups]
  omega

theorem bech32Encode_short {hrp data : Bytes} (hhrp : LowerHrp hrp) (hdata : Groups data)
    (hlength : hrp.length + 7 + data.length ≤ 90) :
    bech32Encode hrp data false = some (spell hrp data) := by
  have hgroups : (data.all fun value => value >>> 5 == 0) = true :=
    List.all_eq_true.mpr fun value hmem => shiftRight_of_toNat_lt (hdata value hmem)
  have hshort : decide (90 < hrp.length + 7 + data.length) = false :=
    decide_eq_false (Nat.not_lt.mpr hlength)
  rw [bech32Encode, hhrp.1, hgroups, hshort]
  simp only [Bool.not_true, Bool.and_false, Bool.false_eq_true, if_false]
  rw [spell, checksumChars_eq, List.map_append, List.append_assoc, List.cons_append]

theorem spell_eq (hrp : Bytes) {data : List UInt8} (hdata : Groups data) :
    ∃ chars, separator ∉ chars ∧ spell hrp data = hrp ++ separator :: chars := by
  refine ⟨_, fun hmem => ?_, rfl⟩
  obtain ⟨value, hvalue, heq⟩ := List.mem_map.mp hmem
  have hlt : value.toNat < 32 := by
    rcases List.mem_append.mp hvalue with hvalue | hvalue
    · exact hdata value hvalue
    · exact groups_checksumGroups _ value hvalue
  exact (charOf_spec hlt).2.1 heq

/-- What is checked of a string, read behind its last separator. -/
theorem bech32Decode_iff {hrp chars : Bytes} {output : Bytes × Bytes}
    (hchars : separator ∉ chars) :
    bech32Decode (hrp ++ separator :: chars) false = some output ↔
      (8 ≤ hrp.length + 1 + chars.length ∧ hrp.length + 1 + chars.length ≤ 90) ∧
      (1 ≤ hrp.length ∧ 6 ≤ chars.length) ∧ hrp.all hrpChar = true ∧
      ((hrp ++ chars).any isLower && (hrp ++ chars).any isUpper) = false ∧
      ∃ values, chars.mapM valueOf = some values ∧
        polymod (hrpChecksum (hrp.map lower)) values = 1 ∧
        (hrp.map lower, values.take (chars.length - 6)) = output := by
  obtain ⟨hbehind, hhrpLen, hdrop⟩ := split_separator hrp hchars
  have hlength : (hrp ++ separator :: chars).length = hrp.length + 1 + chars.length := by
    simp only [List.length_append, List.length_cons]
    omega
  rw [hlength] at hhrpLen
  simp only [bech32Decode, hbehind, hlength, hhrpLen, List.take_left, hdrop]
  cases hvalues : chars.mapM valueOf with
  | none => simp
  | some values =>
      simp only [Option.ite_none_left_eq_some, Bool.false_and, Bool.not_false, Bool.true_and,
        Bool.or_eq_true, decide_eq_true_eq, Option.some.injEq, ne_eq, Decidable.not_not,
        Bool.not_eq_true', Bool.not_eq_true, Bool.not_eq_false]
      constructor
      · rintro ⟨-, hlong, hparts, hhrp, hcase, hsum, hout⟩
        exact ⟨by omega, by omega, hhrp, hcase, values, rfl, hsum, hout⟩
      · rintro ⟨hlong, hparts, hhrp, hcase, values', rfl, hsum, hout⟩
        exact ⟨trivial, by omega, by omega, hhrp, hcase, hsum, hout⟩

/-- A checksum of six groups is the one that is made. -/
theorem checksum_unique {pre : Nat} {six : List UInt8} (hgroups : Groups six)
    (hlength : six.length = 6) (hsum : polymod pre six = 1) :
    six = checksumGroups (polymodStep^[6] pre ^^^ 1) := by
  have hmade := polymod_checksumGroups pre
  obtain ⟨error, -, hnone, hpolymod⟩ := polymod_burst
    (hlength.trans (length_checksumGroups (polymodStep^[6] pre ^^^ 1)).symm)
    (length_checksumGroups _).le (groups_checksumGroups _) hgroups
  apply hnone
  have hsame := hpolymod pre
  rw [hsum, hmade] at hsame
  exact xor_left_eq_self_iff.mp hsame.symm

/-- Behind a human-readable part in lower case, exactly what is spelt is read. -/
theorem bech32Decode_lower_iff {hrp chars : Bytes} {output : Bytes × Bytes} (hhrp : LowerHrp hrp)
    (hchars : separator ∉ chars) :
    bech32Decode (hrp ++ separator :: chars) false = some output ↔
      output.1 = hrp ∧ Groups output.2 ∧ hrp.length + 7 + output.2.length ≤ 90 ∧
        hrp ++ separator :: chars = spell hrp output.2 := by
  have hlower := lower_eq fun ch hmem => (hhrp.chars ch hmem).2
  have hnonempty : 1 ≤ hrp.length := by
    obtain ⟨ch, hmem, -⟩ := List.any_eq_true.mp hhrp.2
    exact List.length_pos_of_mem hmem
  rw [bech32Decode_iff hchars, hlower]
  constructor
  · rintro ⟨⟨-, hshort⟩, ⟨-, hsix⟩, -, hcase, values, hvalues, hsum, rfl⟩
    rw [List.any_append, hhrp.2, Bool.true_or, Bool.true_and, List.any_append,
      Bool.or_eq_false_iff] at hcase
    obtain ⟨hgroups, hspelt⟩ := mapM_valueOf_spec hvalues
    have hlength : values.length = chars.length := by
      simpa using congrArg List.length hspelt
    rw [lower_eq fun ch hmem => by simpa using List.any_eq_false.mp hcase.2 ch hmem] at hspelt
    rw [← List.take_append_drop (chars.length - 6) values] at hsum hspelt hgroups
    have hdata : Groups (values.take (chars.length - 6)) :=
      fun value hmem => hgroups value (List.mem_append_left _ hmem)
    rw [polymod_append] at hsum
    have hunique := checksum_unique
      (fun value hmem => hgroups value (List.mem_append_right _ hmem))
      (by rw [List.length_drop]; omega) hsum
    rw [hunique] at hspelt
    refine ⟨rfl, hdata, ?_, ?_⟩
    · simp only [List.length_take]
      omega
    · rw [spell, hspelt]
  · rintro ⟨hname, hdata, hshort, hspelt⟩
    obtain ⟨name, data⟩ := output
    obtain rfl : name = hrp := hname
    have hlength := congrArg List.length hspelt
    rw [length_spell, List.length_append, List.length_cons] at hlength
    have hrest := List.append_cancel_left hspelt
    rw [List.cons_inj_right] at hrest
    have hvalues : Groups (data ++ checksumGroups
        (polymodStep^[6] (polymod (hrpChecksum name) data) ^^^ 1)) := by
      intro value hmem
      rcases List.mem_append.mp hmem with hmem | hmem
      · exact hdata value hmem
      · exact groups_checksumGroups _ value hmem
    have hupper : (name ++ chars).any isUpper = false := by
      rw [List.any_eq_false]
      intro ch hmem
      rw [Bool.not_eq_true]
      rcases List.mem_append.mp hmem with hmem | hmem
      · exact (hhrp.chars ch hmem).2
      · rw [hrest] at hmem
        obtain ⟨value, hvalue, rfl⟩ := List.mem_map.mp hmem
        exact (charOf_spec (hvalues value hvalue)).2.2
    have htake : chars.length - 6 = data.length := by
      simp only at hlength
      omega
    refine ⟨by simp only at hshort; omega, by omega,
      List.all_eq_true.mpr fun ch hmem => (hhrp.chars ch hmem).1, by rw [hupper, Bool.and_false],
      _, by rw [hrest]; exact mapM_valueOf hvalues, ?_, ?_⟩
    · rw [polymod_append]
      exact polymod_checksumGroups _
    · rw [htake, List.take_left]

/-- The separator is found again. -/
theorem append_separator_inj {hrp hrp' chars chars' : Bytes} (hchars : separator ∉ chars)
    (hchars' : separator ∉ chars')
    (heq : hrp ++ separator :: chars = hrp' ++ separator :: chars') :
    hrp = hrp' ∧ chars = chars' := by
  have hbehind := congrArg behindSeparator heq
  rw [(split_separator hrp hchars).1, (split_separator hrp' hchars').1] at hbehind
  have hlength := congrArg List.length heq
  simp only [List.length_append, List.length_cons] at hlength
  obtain ⟨hhrp, hrest⟩ := List.append_inj heq (by omega)
  exact ⟨hhrp, (List.cons.inj hrest).2⟩

end Bech32

namespace Address

open Bech32 Invoice

/-! ### Witness programs -/

/-- `btc_chain_t`. -/
inductive BtcChain
  | unknown
  | mainnet
  | testnet
deriving DecidableEq, Repr

/-- `SEGWIT_ADDR_MAINNET` and `SEGWIT_ADDR_TESTNET`. -/
def segwitAddrMainnet : UInt8 := 0
def segwitAddrTestnet : UInt8 := 1

/-- `hrp_str` of these two. -/
def hrpStr (hrpType : UInt8) : Bytes :=
  if hrpType = segwitAddrMainnet then ascii ['b', 'c'] else ascii ['t', 'b']

/-- `convert_bits`, the same as `ln_convert_bits`. -/
abbrev convertBits (outbits : Nat) (values : List UInt8) (inbits : Nat) (pad : Bool) :
    List UInt8 × Bool :=
  lnConvertBits outbits values inbits pad

/-- `segwit_addr_encode`. -/
def segwitAddrEncode (hrpType : UInt8) (witver : UInt8) (witprog : Bytes) : Option Bytes :=
  if 16 < witver then none
  else if witver = 0 ∧ witprog.length ≠ 20 ∧ witprog.length ≠ 32 then none
  else if witprog.length < 2 ∨ 40 < witprog.length then none
  else if hrpType ≠ segwitAddrMainnet ∧ hrpType ≠ segwitAddrTestnet then none
  else bech32Encode (hrpStr hrpType) (witver :: (convertBits 5 witprog 8 true).1) false

/-- `segwit_addr_decode`; `strncmp` looks at two characters. -/
def segwitAddrDecode (hrpType : UInt8) (addr : Bytes) : Option (UInt8 × Bytes) :=
  if hrpType ≠ segwitAddrMainnet ∧ hrpType ≠ segwitAddrTestnet then none
  else
    (bech32Decode addr false).bind fun read =>
      let data := read.2
      let witdata := convertBits 8 (data.drop 1) 5 false
      if data.length = 0 ∨ 65 < data.length then none
      else if read.1.take 2 ≠ hrpStr hrpType then none
      else if 16 < data.getD 0 0 then none
      else if witdata.2 = false then none
      else if witdata.1.length < 2 ∨ 40 < witdata.1.length then none
      else if data.getD 0 0 = 0 ∧ witdata.1.length ≠ 20 ∧ witdata.1.length ≠ 32 then none
      else some (data.getD 0 0, witdata.1)

/-- `btc_segwit_addr_encode`. -/
def btcSegwitAddrEncode (outputLen : Nat) (hrpType ver : UInt8) (prog : Bytes) : Option Bytes :=
  if outputLen < 73 + (hrpStr hrpType).length then none else segwitAddrEncode hrpType ver prog

/-- `btc_segwit_addr_decode`. -/
def btcSegwitAddrDecode (progLen : Nat) (hrpType : UInt8) (addr : Bytes) :
    Option (UInt8 × Bytes) :=
  if progLen < 40 then none else segwitAddrDecode hrpType addr

/-! ### Addresses -/

/-- The forms of output scripts that have addresses. -/
inductive BtcPref
  | p2pkh
  | p2sh
  | p2wpkh
  | p2wsh
deriving DecidableEq, Repr

/-- The chain, the hash of checksums, and base 58 as the library has it; what is read is read into
25 bytes. -/
structure AddressEnv where
  chain : BtcChain
  hash256 : Bytes → Bytes
  b58enc : Bytes → Option Bytes
  b58tobin : Bytes → Option Bytes

/-- `mPref` of the two forms that are in base 58. -/
def mPref : BtcChain → BtcPref → UInt8
  | .mainnet, .p2sh => 0x05
  | .testnet, .p2pkh => 0x6f
  | .testnet, .p2sh => 0xc4
  | _, _ => 0x00

/-- The type of human-readable part that both directions choose for the chain. -/
def hrpTypeOf : BtcChain → Option UInt8
  | .mainnet => some segwitAddrMainnet
  | .testnet => some segwitAddrTestnet
  | .unknown => none

/-- `spk2prefix`: the form, and what stands from the hash on. -/
def spk2prefixHash (scriptPk : Bytes) : Option (BtcPref × Bytes) :=
  if scriptPk.length = 25 ∧ scriptPk.take 3 = [0x76, 0xa9, 20] ∧
      scriptPk.drop 23 = [0x88, 0xac] then some (.p2pkh, scriptPk.drop 3)
  else if scriptPk.length = 23 ∧ scriptPk.take 2 = [0xa9, 20] ∧ scriptPk.drop 22 = [0x87] then
    some (.p2sh, scriptPk.drop 2)
  else if scriptPk.length = 22 ∧ scriptPk.take 2 = [0x00, 20] then
    some (.p2wpkh, scriptPk.drop 2)
  else if scriptPk.length = 34 ∧ scriptPk.take 2 = [0x00, 32] then
    some (.p2wsh, scriptPk.drop 2)
  else none

/-- `btcl_util_keys_hash2addr`. -/
def btclUtilKeysHash2addr (env : AddressEnv) (hash : Bytes) (pref : BtcPref) : Option Bytes :=
  let spellProgram := fun size : Nat => (hrpTypeOf env.chain).bind fun hrpType =>
    btcSegwitAddrEncode 91 hrpType 0 (hash.take size)
  let spellHash := fun version : UInt8 =>
    let buf := version :: hash.take 20
    env.b58enc (buf ++ (env.hash256 buf).take 4)
  match pref with
  | .p2wpkh => spellProgram 20
  | .p2wsh => spellProgram 32
  | .p2pkh => spellHash (mPref env.chain .p2pkh)
  | .p2sh => spellHash (mPref env.chain .p2sh)

/-- `btc_keys_spk2addr`: what it writes.  It does not look whether anything is written. -/
def btcKeysSpk2addr (env : AddressEnv) (scriptPk : Bytes) : Option (Option Bytes) :=
  (spk2prefixHash scriptPk).map fun found => btclUtilKeysHash2addr env found.2 found.1

def addrIsP2pkh (addr : Bytes) : Bool :=
  addr.take 1 == ascii ['1'] || addr.take 1 == ascii ['m'] || addr.take 1 == ascii ['n']

def addrIsP2sh (addr : Bytes) : Bool :=
  addr.take 1 == ascii ['3'] || addr.take 1 == ascii ['2']

def addrIsSegwit (addr : Bytes) : Bool :=
  addr.take 3 == ascii ['b', 'c', '1'] || addr.take 3 == ascii ['t', 'b', '1']

/-- What `btc_keys_addr2hash` does with an address in base 58. -/
def base58Hash (env : AddressEnv) (addr : Bytes) : Option (BtcPref × Bytes) :=
  (env.b58tobin addr).bind fun bin =>
    let found :=
      if bin.length ≠ 25 then none
      else if bin.getD 0 0 = mPref env.chain .p2pkh then some BtcPref.p2pkh
      else if bin.getD 0 0 = mPref env.chain .p2sh then some .p2sh
      else none
    found.bind fun pref =>
      if (env.hash256 (bin.take 21)).take 4 = bin.drop 21 then some (pref, (bin.drop 1).take 20)
      else none

/-- `btc_keys_addr2hash`. -/
def btcKeysAddr2hash (env : AddressEnv) (addr : Bytes) : Option (BtcPref × Bytes) :=
  if addrIsP2pkh addr || addrIsP2sh addr then base58Hash env addr
  else if addrIsSegwit addr then
    (hrpTypeOf env.chain).bind fun hrpType =>
      (btcSegwitAddrDecode 40 hrpType addr).bind fun read =>
        -- other versions are not supported
        if read.1 ≠ 0 then none
        else if read.2.length = 20 then some (.p2wpkh, read.2)
        else if read.2.length = 32 then some (.p2wsh, read.2)
        else none
  else none

/-- `btc_util_create_scriptpk`. -/
def btcUtilCreateScriptpk (hash : Bytes) : BtcPref → Bytes
  | .p2pkh => [0x76, 0xa9, 20] ++ hash.take 20 ++ [0x88, 0xac]
  | .p2sh => [0xa9, 20] ++ hash.take 20 ++ [0x87]
  | .p2wpkh => [0x00, 20] ++ hash.take 20
  | .p2wsh => [0x00, 32] ++ hash.take 32

/-- `btc_keys_addr2spk`. -/
def btcKeysAddr2spk (env : AddressEnv) (addr : Bytes) : Option Bytes :=
  (btcKeysAddr2hash env addr).map fun found => btcUtilCreateScriptpk found.2 found.1

/-- The script that `btc_tx_add_vout_addr` adds an output with. -/
def btcTxAddVoutAddr (env : AddressEnv) (addr : Bytes) : Option Bytes :=
  (btcKeysAddr2hash env addr).map fun found => btcUtilCreateScriptpk found.2 found.1

theorem btcTxAddVoutAddr_eq (env : AddressEnv) (addr : Bytes) :
    btcTxAddVoutAddr env addr = btcKeysAddr2spk env addr := rfl

/-! ### There and back -/

/-- The hash behind the version and the size. -/
def hashOf : ScriptPk → Bytes
  | .p2wpkh hash => hash
  | .p2wsh hash => hash

def prefOf : ScriptPk → BtcPref
  | .p2wpkh _ => .p2wpkh
  | .p2wsh _ => .p2wsh

def sizeOfHash : ScriptPk → Nat
  | .p2wpkh _ => 20
  | .p2wsh _ => 32

/-- The hash has the size of its kind. -/
def HashSized (script : ScriptPk) : Prop :=
  (hashOf script).length = sizeOfHash script

theorem HashSized.size {script : ScriptPk} (hsized : HashSized script) :
    (hashOf script).length = 20 ∨ (hashOf script).length = 32 := by
  cases script with
  | p2wpkh hash => exact .inl hsized
  | p2wsh hash => exact .inr hsized

theorem HashSized.take {script : ScriptPk} (hsized : HashSized script) :
    (hashOf script).take (sizeOfHash script) = hashOf script :=
  List.take_of_length_le (Nat.le_of_eq hsized)

theorem hashOf_eq_drop (script : ScriptPk) : hashOf script = script.bytes.drop 2 := by
  cases script <;> rfl

variable {env : AddressEnv} {hrpType : UInt8} {chars : Bytes}

theorem hrpStr_lower (hrpType : UInt8) : LowerHrp (hrpStr hrpType) := by
  rw [hrpStr]
  split <;> decide

theorem length_hrpStr (hrpType : UInt8) : (hrpStr hrpType).length = 2 := by
  rw [hrpStr]
  split <;> rfl

theorem hrpTypeOf_known {chain : BtcChain} (hchain : hrpTypeOf chain = some hrpType) :
    ¬ (hrpType ≠ segwitAddrMainnet ∧ hrpType ≠ segwitAddrTestnet) := by
  cases chain with
  | unknown => cases hchain
  | mainnet => exact fun hne => hne.1 (Option.some.inj hchain).symm
  | testnet => exact fun hne => hne.2 (Option.some.inj hchain).symm

/-- The groups of a program of version 0. -/
def programGroups (prog : Bytes) : List UInt8 :=
  0 :: groupsOf prog

theorem groups_programGroups (prog : Bytes) : Groups (programGroups prog) := by
  intro value hmem
  rcases List.mem_cons.mp hmem with rfl | hmem
  · decide
  · exact groups_groupsOf prog value hmem

theorem length_programGroups (prog : Bytes) :
    (programGroups prog).length = (prog.length * 8 + 4) / 5 + 1 := by
  rw [programGroups, List.length_cons, length_groupsOf]

theorem segwitAddrEncode_program {prog : Bytes} (hsize : prog.length = 20 ∨ prog.length = 32)
    (htype : ¬ (hrpType ≠ segwitAddrMainnet ∧ hrpType ≠ segwitAddrTestnet)) :
    segwitAddrEncode hrpType 0 prog = some (spell (hrpStr hrpType) (programGroups prog)) := by
  have hshort : (hrpStr hrpType).length + 7 + (programGroups prog).length ≤ 90 := by
    rw [length_hrpStr, length_programGroups]
    omega
  have hkind : ¬ ((0 : UInt8) = 0 ∧ prog.length ≠ 20 ∧ prog.length ≠ 32) := by omega
  have hbounds : ¬ (prog.length < 2 ∨ 40 < prog.length) := by omega
  rw [segwitAddrEncode, if_neg (by decide), if_neg hkind, if_neg hbounds, if_neg htype]
  exact bech32Encode_short (hrpStr_lower _) (groups_programGroups prog) hshort

/-- Behind a name that begins as that of the chain, exactly what is spelt of a program is read as
it. -/
theorem segwitAddrDecode_iff {name prog : Bytes} (hname : LowerHrp name)
    (hbegins : name.take 2 = hrpStr hrpType) (hroom : name.length ≤ 30)
    (hchars : separator ∉ chars)
    (htype : ¬ (hrpType ≠ segwitAddrMainnet ∧ hrpType ≠ segwitAddrTestnet)) :
    segwitAddrDecode hrpType (name ++ separator :: chars) = some (0, prog) ↔
      (prog.length = 20 ∨ prog.length = 32) ∧
        name ++ separator :: chars = spell name (programGroups prog) := by
  rw [segwitAddrDecode, if_neg htype, Option.bind_eq_some_iff]
  constructor
  · rintro ⟨⟨_, data⟩, hdecode, hread⟩
    obtain ⟨-, hgroups, -, hspelt⟩ := (bech32Decode_lower_iff hname hchars).mp hdecode
    simp only [Option.ite_none_left_eq_some, Option.some.injEq, Prod.mk.injEq] at hread
    obtain ⟨hlength, -, -, hconverted, -, hkind, hversion, hprog⟩ := hread
    cases data with
    | nil => exact absurd (Or.inl rfl) hlength
    | cons head groups =>
        obtain rfl : head = 0 := hversion
        have hexact : lnConvertBits 8 groups 5 false = (prog, true) :=
          Prod.ext hprog (Bool.eq_true_of_not_eq_false hconverted)
        have hback := (lnConvertBits_exact_iff fun value hmem =>
          hgroups value (List.mem_cons_of_mem _ hmem)).mp hexact
        refine ⟨?_, by rw [programGroups, hback]; exact hspelt⟩
        change ¬ (_ ∧ (lnConvertBits 8 groups 5 false).1.length ≠ 20 ∧
          (lnConvertBits 8 groups 5 false).1.length ≠ 32) at hkind
        rw [hexact] at hkind
        by_contra hother
        exact hkind ⟨rfl, fun heq => hother (.inl heq), fun heq => hother (.inr heq)⟩
  · rintro ⟨hsize, hspelt⟩
    have hlength := length_programGroups prog
    have hdecode : bech32Decode (name ++ separator :: chars) false =
        some (name, programGroups prog) := by
      refine (bech32Decode_lower_iff hname hchars).mpr
        ⟨rfl, groups_programGroups prog, ?_, hspelt⟩
      simp only
      omega
    have hback := lnConvertBits_exact prog
    refine ⟨_, hdecode, ?_⟩
    have hdrop : (programGroups prog).drop 1 = groupsOf prog := rfl
    have hhead : (programGroups prog).getD 0 0 = 0 := rfl
    simp only [hbegins, hdrop, hback, hhead]
    rw [if_neg (by omega), if_neg (by simp), if_neg (by decide), if_neg (by simp),
      if_neg (by omega), if_neg (by omega)]

theorem segwitAddrDecode_hrpStr {prog : Bytes} (hchars : separator ∉ chars)
    (htype : ¬ (hrpType ≠ segwitAddrMainnet ∧ hrpType ≠ segwitAddrTestnet)) :
    segwitAddrDecode hrpType (hrpStr hrpType ++ separator :: chars) = some (0, prog) ↔
      (prog.length = 20 ∨ prog.length = 32) ∧
        hrpStr hrpType ++ separator :: chars = spell (hrpStr hrpType) (programGroups prog) := by
  have hlength := length_hrpStr hrpType
  exact segwitAddrDecode_iff (hrpStr_lower _) (List.take_of_length_le hlength.le) (by omega)
    hchars htype

theorem spk2prefixHash_bytes {script : ScriptPk} (hsized : HashSized script) :
    spk2prefixHash script.bytes = some (prefOf script, hashOf script) := by
  cases script with
  | p2wpkh hash =>
      have hlength : hash.length = 20 := hsized
      simp [spk2prefixHash, ScriptPk.bytes, prefOf, hashOf, hlength]
  | p2wsh hash =>
      have hlength : hash.length = 32 := hsized
      simp [spk2prefixHash, ScriptPk.bytes, prefOf, hashOf, hlength]

theorem btcKeysSpk2addr_bytes {script : ScriptPk} (hchain : hrpTypeOf env.chain = some hrpType)
    (hsized : HashSized script) : btcKeysSpk2addr env script.bytes =
      some (some (spell (hrpStr hrpType) (programGroups (hashOf script)))) := by
  have hencode := segwitAddrEncode_program hsized.size (hrpTypeOf_known hchain)
  have hroom : ¬ 91 < 73 + (hrpStr hrpType).length := by
    rw [length_hrpStr]
    decide
  have hprogram : btclUtilKeysHash2addr env (hashOf script) (prefOf script) =
      btcSegwitAddrEncode 91 hrpType 0 ((hashOf script).take (sizeOfHash script)) := by
    cases script <;> simp only [btclUtilKeysHash2addr, prefOf, sizeOfHash, hchain, Option.bind_some]
  rw [btcKeysSpk2addr, spk2prefixHash_bytes hsized, Option.map_some, hprogram, hsized.take,
    btcSegwitAddrEncode, if_neg hroom, hencode]

theorem btcKeysAddr2hash_hrpStr (hchain : hrpTypeOf env.chain = some hrpType) (chars : Bytes) :
    btcKeysAddr2hash env (hrpStr hrpType ++ separator :: chars) =
      (segwitAddrDecode hrpType (hrpStr hrpType ++ separator :: chars)).bind fun read =>
        if read.1 ≠ 0 then none
        else if read.2.length = 20 then some (.p2wpkh, read.2)
        else if read.2.length = 32 then some (.p2wsh, read.2)
        else none := by
  have hforms : (addrIsP2pkh (hrpStr hrpType ++ separator :: chars) ||
      addrIsP2sh (hrpStr hrpType ++ separator :: chars)) = false ∧
      addrIsSegwit (hrpStr hrpType ++ separator :: chars) = true := by
    rw [hrpStr]
    split
    · exact ⟨rfl, rfl⟩
    · exact ⟨rfl, rfl⟩
  rw [btcKeysAddr2hash, hforms.1, hforms.2, if_neg Bool.false_ne_true, if_pos rfl, hchain,
    Option.bind_some, btcSegwitAddrDecode, if_neg (Nat.lt_irrefl 40)]

theorem btcUtilCreateScriptpk_hashOf {script : ScriptPk} (hsized : HashSized script) :
    btcUtilCreateScriptpk (hashOf script) (prefOf script) = script.bytes := by
  cases script with
  | p2wpkh hash => exact congrArg ([0x00, 20] ++ ·) hsized.take
  | p2wsh hash => exact congrArg ([0x00, 32] ++ ·) hsized.take

theorem btcKeysAddr2spk_of_decode {script : ScriptPk} (hchain : hrpTypeOf env.chain = some hrpType)
    (hsized : HashSized script)
    (hread : segwitAddrDecode hrpType (hrpStr hrpType ++ separator :: chars) =
      some (0, hashOf script)) :
    btcKeysAddr2spk env (hrpStr hrpType ++ separator :: chars) = some script.bytes := by
  rw [btcKeysAddr2spk, btcKeysAddr2hash_hrpStr hchain, Option.map_eq_some_iff]
  refine ⟨(prefOf script, hashOf script), ?_, btcUtilCreateScriptpk_hashOf hsized⟩
  rw [hread, Option.bind_some, if_neg (by simp)]
  cases script with
  | p2wpkh hash => exact if_pos hsized
  | p2wsh hash =>
      have hlong : hash.length = 32 := hsized
      rw [hashOf, hlong]
      rfl

/-- Behind the name of the chain, exactly what is spelt of a script's hash is read as it. -/
theorem btcKeysAddr2spk_iff {scriptPk : Bytes} (hchain : hrpTypeOf env.chain = some hrpType)
    (hchars : separator ∉ chars) :
    btcKeysAddr2spk env (hrpStr hrpType ++ separator :: chars) = some scriptPk ↔
      ∃ script, HashSized script ∧ script.bytes = scriptPk ∧ hrpStr hrpType ++ separator :: chars =
        spell (hrpStr hrpType) (programGroups (hashOf script)) := by
  have hprogram := fun prog : Bytes =>
    @segwitAddrDecode_hrpStr hrpType chars prog hchars (hrpTypeOf_known hchain)
  constructor
  · intro hfound
    rw [btcKeysAddr2spk, btcKeysAddr2hash_hrpStr hchain, Option.map_eq_some_iff] at hfound
    obtain ⟨found, hfound, rfl⟩ := hfound
    obtain ⟨⟨version, prog⟩, hread, hkind⟩ := Option.bind_eq_some_iff.mp hfound
    rw [Option.ite_none_left_eq_some, not_not] at hkind
    obtain ⟨hversion, hkind⟩ := hkind
    obtain rfl : version = 0 := hversion
    obtain ⟨-, hspelt⟩ := (hprogram prog).mp hread
    simp only at hkind
    split_ifs at hkind with hshort hlong
    · obtain rfl := Option.some.inj hkind
      have hbytes := @btcUtilCreateScriptpk_hashOf (.p2wpkh prog) hshort
      exact ⟨.p2wpkh prog, hshort, hbytes.symm, hspelt⟩
    · obtain rfl := Option.some.inj hkind
      have hbytes := @btcUtilCreateScriptpk_hashOf (.p2wsh prog) hlong
      exact ⟨.p2wsh prog, hlong, hbytes.symm, hspelt⟩
  · rintro ⟨script, hsized, rfl, hspelt⟩
    exact btcKeysAddr2spk_of_decode hchain hsized
      ((hprogram (hashOf script)).mpr ⟨hsized.size, hspelt⟩)

/-- The name is only looked at where it begins: there is a string behind another name that is read
as the same script. -/
theorem btcKeysAddr2spk_otherName {script : ScriptPk}
    (hchain : hrpTypeOf env.chain = some hrpType) (hsized : HashSized script) :
    ∃ chars, separator ∈ chars ∧
      btcKeysAddr2spk env (hrpStr hrpType ++ separator :: chars) = some script.bytes := by
  have hname : LowerHrp (hrpStr hrpType ++ [separator]) ∧
      (hrpStr hrpType ++ [separator]).take 2 = hrpStr hrpType ∧
      (hrpStr hrpType ++ [separator]).length ≤ 30 := by
    rw [hrpStr]
    split <;> decide
  obtain ⟨hlower, hbegins, hroom⟩ := hname
  obtain ⟨chars, hchars, hspelt⟩ := spell_eq (hrpStr hrpType ++ [separator])
    (groups_programGroups (hashOf script))
  have hread := (segwitAddrDecode_iff hlower hbegins hroom hchars (hrpTypeOf_known hchain)).mpr
    ⟨hsized.size, hspelt.symm⟩
  rw [List.append_assoc, List.singleton_append] at hread
  exact ⟨separator :: chars, List.mem_cons_self, btcKeysAddr2spk_of_decode hchain hsized hread⟩

theorem spelt_readBack {script : ScriptPk} (hchain : hrpTypeOf env.chain = some hrpType)
    (hsized : HashSized script) (hchars : separator ∉ chars)
    (hspelt : spell (hrpStr hrpType) (programGroups (hashOf script)) =
      hrpStr hrpType ++ separator :: chars) :
    btcKeysSpk2addr env script.bytes = some (some (hrpStr hrpType ++ separator :: chars)) ∧
      btcKeysAddr2spk env (hrpStr hrpType ++ separator :: chars) = some script.bytes := by
  constructor
  · rw [← hspelt]
    exact btcKeysSpk2addr_bytes hchain hsized
  · exact (btcKeysAddr2spk_iff hchain hchars).mpr ⟨script, hsized, rfl, hspelt.symm⟩

/-- An address of a program is not read once it is damaged. -/
theorem damaged_none {script : ScriptPk} (hchain : hrpTypeOf env.chain = some hrpType)
    (hsized : HashSized script) (hchars : separator ∉ chars)
    (hspelt : spell (hrpStr hrpType) (programGroups (hashOf script)) =
      hrpStr hrpType ++ separator :: chars) {burst : Burst}
    (hsent : burst.sent = hrpStr hrpType ++ separator :: chars) :
    btcKeysAddr2spk env burst.got = none := by
  obtain ⟨hname, -⟩ := append_separator_inj burst.apart hchars hsent
  have hread : segwitAddrDecode hrpType burst.sent = some (0, hashOf script) := by
    rw [hsent]
    exact (segwitAddrDecode_hrpStr hchars (hrpTypeOf_known hchain)).mpr
      ⟨hsized.size, hspelt.symm⟩
  have hlost : segwitAddrDecode hrpType burst.got = none := by
    rw [segwitAddrDecode] at hread ⊢
    split_ifs at hread ⊢
    obtain ⟨output, hdecode, -⟩ := Option.bind_eq_some_iff.mp hread
    rw [Burst.bech32Decode_got hdecode, Option.bind_none]
  rw [Burst.got, hname] at hlost ⊢
  rw [btcKeysAddr2spk, btcKeysAddr2hash_hrpStr hchain, hlost, Option.bind_none, Option.map_none]

/-- The address of an output script on a chain.  It is read back; no other string behind the name
of the chain is read as the script; and it is not read once it is damaged. -/
structure AddressOf (env : AddressEnv) (hrpType : UInt8) (scriptPk addr : Bytes) : Prop where
  written : btcKeysSpk2addr env scriptPk = some (some addr)
  read : btcKeysAddr2spk env addr = some scriptPk
  unique : ∀ chars, separator ∉ chars →
    btcKeysAddr2spk env (hrpStr hrpType ++ separator :: chars) = some scriptPk →
    hrpStr hrpType ++ separator :: chars = addr
  damaged : ∀ burst : Burst, burst.sent = addr → btcKeysAddr2spk env burst.got = none

/-- Every witness program has an address. -/
theorem addressOf_bytes {script : ScriptPk} (hchain : hrpTypeOf env.chain = some hrpType)
    (hsized : HashSized script) : ∃ addr, AddressOf env hrpType script.bytes addr := by
  have hgroups := groups_programGroups (hashOf script)
  obtain ⟨chars, hchars, hspelt⟩ := spell_eq (hrpStr hrpType) hgroups
  obtain ⟨hwritten, hback⟩ := spelt_readBack hchain hsized hchars hspelt
  refine ⟨hrpStr hrpType ++ separator :: chars, hwritten, hback, fun chars' hchars' hread => ?_,
    fun _ hsent => damaged_none hchain hsized hchars hspelt hsent⟩
  obtain ⟨script', -, hbytes, hother⟩ := (btcKeysAddr2spk_iff hchain hchars').mp hread
  rw [hother, ← hspelt, hashOf_eq_drop script', hbytes, ← hashOf_eq_drop]

/-- The main chain. -/
def mainEnv : AddressEnv where
  chain := .mainnet
  hash256 := fun _ => []
  b58enc := fun _ => none
  b58tobin := fun _ => none

/-- The hash of a key, in an output script. -/
def keyScript : ScriptPk := .p2wpkh [
  0x75, 0x1e, 0x76, 0xe8, 0x19, 0x91, 0x96, 0xd4, 0x54, 0x94,
  0x1c, 0x45, 0xd1, 0xb3, 0xa3, 0x23, 0xf1, 0x43, 0x3b, 0xd6]

theorem addressOf_keyScript :
    ∃ addr, AddressOf mainEnv segwitAddrMainnet keyScript.bytes addr :=
  addressOf_bytes rfl rfl

/-- Its address. -/
def keyScriptAddress : Bytes := ascii [
  'b', 'c', '1', 'q', 'w', '5', '0', '8', 'd', '6', 'q', 'e', 'j', 'x', 't', 'd', 'g', '4',
  'y', '5', 'r', '3', 'z', 'a', 'r', 'v', 'a', 'r', 'y', '0', 'c', '5', 'x', 'w', '7', 'k',
  'v', '8', 'f', '3', 't', '4']

example : btcKeysSpk2addr mainEnv keyScript.bytes = some (some keyScriptAddress) := by
  decide +kernel

/-! ### Closing scripts -/

/-- The bytes of an address in base 58: the version, the hash and a checksum. -/
def base58Bytes (env : AddressEnv) (pref : BtcPref) (hash : Bytes) : Bytes :=
  let buf := mPref env.chain pref :: hash
  buf ++ (env.hash256 buf).take 4

/-- Base 58 writes the bytes, in a string that begins as one of the chain's addresses, and reads
them back. -/
def Base58Reads (env : AddressEnv) (bin : Bytes) : Prop :=
  ∃ addr, env.b58enc bin = some addr ∧ env.b58tobin addr = some bin ∧
    (addrIsP2pkh addr || addrIsP2sh addr) = true

/-- The versions of a chain tell the two forms apart. -/
theorem mPref_ne {chain : BtcChain} (hchain : hrpTypeOf chain = some hrpType) :
    mPref chain .p2sh ≠ mPref chain .p2pkh := by
  cases chain with
  | unknown => cases hchain
  | mainnet => decide
  | testnet => decide

theorem base58Hash_bytes {pref : BtcPref} {hash addr : Bytes}
    (hchain : hrpTypeOf env.chain = some hrpType)
    (hdigest : ∀ item, 4 ≤ (env.hash256 item).length) (hpref : pref = .p2pkh ∨ pref = .p2sh)
    (hsize : hash.length = 20) (hread : env.b58tobin addr = some (base58Bytes env pref hash)) :
    base58Hash env addr = some (pref, hash) := by
  have hbuf : (mPref env.chain pref :: hash).length = 21 := by rw [List.length_cons, hsize]
  have hchecksum := hdigest (mPref env.chain pref :: hash)
  have hlength : (base58Bytes env pref hash).length = 25 := by
    rw [base58Bytes, List.length_append, hbuf, List.length_take]
    omega
  have hfront : (base58Bytes env pref hash).take 21 = mPref env.chain pref :: hash := by
    rw [base58Bytes, ← hbuf, List.take_left]
  have hback : (base58Bytes env pref hash).drop 21 =
      (env.hash256 (mPref env.chain pref :: hash)).take 4 := by
    rw [base58Bytes, ← hbuf, List.drop_left]
  have hversion : (base58Bytes env pref hash).getD 0 0 = mPref env.chain pref := rfl
  have hmiddle : ((base58Bytes env pref hash).drop 1).take 20 = hash := by
    rw [base58Bytes, List.cons_append, List.drop_one, List.tail_cons, ← hsize, List.take_left]
  simp only [base58Hash, hread, Option.bind_some, hlength, hversion, hfront, hback, hmiddle]
  rcases hpref with rfl | rfl
  · simp
  · simp [mPref_ne hchain]

/-- A hash in base 58 is written and read back. -/
theorem base58_readBack {pref : BtcPref} {hash scriptPk : Bytes}
    (hchain : hrpTypeOf env.chain = some hrpType)
    (hdigest : ∀ item, 4 ≤ (env.hash256 item).length) (hpref : pref = .p2pkh ∨ pref = .p2sh)
    (hsize : hash.length = 20) (hwritten : btcKeysSpk2addr env scriptPk =
      some (env.b58enc (base58Bytes env pref hash)))
    (hmade : btcUtilCreateScriptpk hash pref = scriptPk)
    (hbase58 : Base58Reads env (base58Bytes env pref hash)) :
    ∃ addr, btcKeysSpk2addr env scriptPk = some (some addr) ∧
      btcKeysAddr2spk env addr = some scriptPk := by
  obtain ⟨addr, hencoded, hread, hbegins⟩ := hbase58
  refine ⟨addr, by rw [hwritten, hencoded], ?_⟩
  rw [btcKeysAddr2spk, btcKeysAddr2hash, hbegins, if_pos rfl,
    base58Hash_bytes hchain hdigest hpref hsize hread, Option.map_some, hmade]

theorem program_readBack {script : ScriptPk} (hchain : hrpTypeOf env.chain = some hrpType)
    (hsized : HashSized script) : ∃ addr, btcKeysSpk2addr env script.bytes = some (some addr) ∧
      btcKeysAddr2spk env addr = some script.bytes := by
  obtain ⟨chars, hchars, hspelt⟩ :=
    spell_eq (hrpStr hrpType) (groups_programGroups (hashOf script))
  exact ⟨_, spelt_readBack hchain hsized hchars hspelt⟩

/-- Every script that a channel takes to close to has an address, and is read back from it. -/
theorem closingScript_readBack {scriptPk : Bytes} (hchain : hrpTypeOf env.chain = some hrpType)
    (hdigest : ∀ item, 4 ≤ (env.hash256 item).length)
    (hcheck : lnScriptScriptpkhCheck scriptPk = true)
    (hbase58 : ∀ pref hash, pref = .p2pkh ∨ pref = .p2sh → hash.length = 20 →
      btcUtilCreateScriptpk hash pref = scriptPk → Base58Reads env (base58Bytes env pref hash)) :
    ∃ addr, btcKeysSpk2addr env scriptPk = some (some addr) ∧
      btcKeysAddr2spk env addr = some scriptPk := by
  rcases closingScript_bytes hcheck with ⟨hlength, hbytes⟩ | ⟨hlength, hbytes⟩ |
    ⟨hlength, hbytes⟩ | ⟨hlength, hbytes⟩
  · have hsize : ((scriptPk.drop 3).take 20).length = 20 := by simp [hlength]
    generalize (scriptPk.drop 3).take 20 = hash at hbytes hsize
    have hmade : btcUtilCreateScriptpk hash .p2pkh = scriptPk := by
      rw [hbytes, btcUtilCreateScriptpk, List.take_of_length_le hsize.le]
      simp
    refine base58_readBack hchain hdigest (.inl rfl) hsize ?_ hmade
      (hbase58 .p2pkh hash (.inl rfl) hsize hmade)
    subst hbytes
    simp [btcKeysSpk2addr, spk2prefixHash, btclUtilKeysHash2addr, base58Bytes, hsize]
  · have hsize : ((scriptPk.drop 2).take 20).length = 20 := by simp [hlength]
    generalize (scriptPk.drop 2).take 20 = hash at hbytes hsize
    have hmade : btcUtilCreateScriptpk hash .p2sh = scriptPk := by
      rw [hbytes, btcUtilCreateScriptpk, List.take_of_length_le hsize.le]
      simp
    refine base58_readBack hchain hdigest (.inr rfl) hsize ?_ hmade
      (hbase58 .p2sh hash (.inr rfl) hsize hmade)
    subst hbytes
    simp [btcKeysSpk2addr, spk2prefixHash, btclUtilKeysHash2addr, base58Bytes, hsize]
  · have hscript : (ScriptPk.p2wpkh (scriptPk.drop 2)).bytes = scriptPk := hbytes.symm
    rw [← hscript]
    exact program_readBack hchain (by simp [HashSized, hashOf, sizeOfHash, hlength])
  · have hscript : (ScriptPk.p2wsh (scriptPk.drop 2)).bytes = scriptPk := hbytes.symm
    rw [← hscript]
    exact program_readBack hchain (by simp [HashSized, hashOf, sizeOfHash, hlength])

/-- A hash of a key, and its address on the main chain. -/
def keyHash : Bytes := [
  0x01, 0x09, 0x66, 0x77, 0x60, 0x06, 0x95, 0x3d, 0x55, 0x67,
  0x43, 0x9e, 0x5e, 0x39, 0xf8, 0x6a, 0x0d, 0x27, 0x3b, 0xee]

def keyAddress : Bytes := ascii [
  '1', '6', 'U', 'w', 'L', 'L', '9', 'R', 'i', 's', 'c', '3', 'Q', 'f', 'P', 'q', 'B',
  'U', 'v', 'K', 'o', 'f', 'H', 'm', 'B', 'Q', '7', 'w', 'M', 't', 'j', 'v', 'M']

/-- The hash and base 58, at that address. -/
def keyEnv : AddressEnv where
  chain := .mainnet
  hash256 := fun _ => [
    0xd6, 0x19, 0x67, 0xf6, 0x3c, 0x7d, 0xd1, 0x83, 0x91, 0x4a, 0x4a, 0xe4, 0x52, 0xc9, 0xf6, 0xad,
    0x5d, 0x46, 0x2c, 0xe3, 0xd2, 0x77, 0x79, 0x80, 0x75, 0xb1, 0x07, 0x61, 0x5c, 0x1a, 0x8a, 0x30]
  b58enc := fun _ => some keyAddress
  b58tobin := fun _ => some ((0x00 :: keyHash) ++ [0xd6, 0x19, 0x67, 0xf6])

theorem closingScript_readBack_keyHash :
    ∃ addr, btcKeysSpk2addr keyEnv (btcUtilCreateScriptpk keyHash .p2pkh) = some (some addr) ∧
      btcKeysAddr2spk keyEnv addr = some (btcUtilCreateScriptpk keyHash .p2pkh) := by
  refine @closingScript_readBack keyEnv segwitAddrMainnet _ rfl
    (fun _ => (by decide : 4 ≤ 32)) (by decide) fun pref hash hpref hsize hmade => ?_
  rcases hpref with rfl | rfl
  · have hhash : hash = keyHash := by
      have hrest : (hash.take 20 ++ [0x88, 0xac]).take 20 = keyHash :=
        congrArg (fun script => (script.drop 3).take 20) hmade
      rwa [List.take_of_length_le hsize.le, List.take_left' hsize] at hrest
    rw [hhash]
    exact ⟨keyAddress, rfl, rfl, by decide⟩
  · have hfirst : (0xa9 : UInt8) = 0x76 := congrArg (fun script => script.getD 0 0) hmade
    exact absurd hfirst (by decide)

/-! ### Sending to an address -/

section Sending

open DoubleHash TxSerial Wallet WalletStore

variable (crypto : Crypto) (sha256 : Bytes → Digest) (heap : Heap) (stale : Digest)
  (answers : LnDbWallet → NodeAnswer) (entries : List LnDbWallet) (feeratePerKb : UInt32)

/-- What the wallet does with an address. -/
def sendTo (env : AddressEnv) (addr : Bytes) : Sent :=
  walletFromPtarm crypto sha256 heap stale answers entries (btcTxAddVoutAddr env addr) feeratePerKb

/-- What is sent to the address has one output, which pays the script; and to what is left of the
address once it is damaged, nothing is sent. -/
structure SendsTo (env : AddressEnv) (scriptPk addr : Bytes) : Prop where
  paid : ∀ ret tx, sendTo crypto sha256 heap stale answers entries feeratePerKb env addr =
    .result ret tx → ∃ value, tx.vout = [⟨value, scriptPk, 0⟩]
  damaged : ∀ burst : Burst, burst.sent = addr → ∃ text,
    sendTo crypto sha256 heap stale answers entries feeratePerKb env burst.got = .error text

theorem walletFromPtarm_none
    (hunspent : ∀ entry ∈ entries, ¬ ReportedSpent (answers entry) entry) :
    ∃ text, walletFromPtarm crypto sha256 heap stale answers entries none feeratePerKb =
      .error text := by
  obtain ⟨wallet, hwallet⟩ := Option.isSome_iff_exists.mp (walletCollect_isSome hunspent)
  simp only [walletFromPtarm, hwallet]
  split_ifs
  · exact ⟨_, rfl⟩
  · exact ⟨_, rfl⟩

/-- The wallet pays the script behind an address that was written; while no stored output is
reported spent, it also comes to an end. -/
theorem sendsTo_of_written {script : ScriptPk} {addr : Bytes}
    (hunspent : ∀ entry ∈ entries, ¬ ReportedSpent (answers entry) entry)
    (hchain : hrpTypeOf env.chain = some hrpType) (hsized : HashSized script)
    (hwritten : btcKeysSpk2addr env script.bytes = some (some addr)) :
    SendsTo crypto sha256 heap stale answers entries feeratePerKb env script.bytes addr := by
  obtain ⟨chars, hchars, hspelt⟩ :=
    spell_eq (hrpStr hrpType) (groups_programGroups (hashOf script))
  obtain ⟨hsame, hback⟩ := spelt_readBack hchain hsized hchars hspelt
  obtain rfl := Option.some.inj (Option.some.inj (hwritten.symm.trans hsame))
  constructor
  · intro ret tx hsent
    rw [sendTo, btcTxAddVoutAddr_eq, hback] at hsent
    obtain ⟨_, fee, vins, -, -, -, -, -, rfl⟩ := walletFromPtarm_ok hsent
    exact ⟨_, rfl⟩
  · intro burst hsent
    rw [sendTo, btcTxAddVoutAddr_eq, damaged_none hchain hsized hchars hspelt hsent]
    exact walletFromPtarm_none crypto sha256 heap stale answers entries feeratePerKb hunspent

theorem sendsTo_of_written_keyScript :
    SendsTo .sized (fun _ => constant 1) blankHeap (constant 0) settled twoEntries 1000 mainEnv
      keyScript.bytes keyScriptAddress :=
  sendsTo_of_written _ _ _ _ _ _ _ (fun _ _ hspent =>
    Bool.noConfusion (Option.some.inj hspent.2)) rfl rfl (by decide +kernel)

end Sending

end Address

end Ptarmigan
