/-
Bech32: groups of five bits as characters behind a human-readable part, with a checksum of six
characters.  What is encoded is decoded again.
-/
import Mathlib.Data.Nat.Bitwise
import Ptarmigan.Tx

namespace Ptarmigan

namespace Bech32

/-- `-((b >> index) & 1) & generator`. -/
def generatorOf (b index generator : Nat) : Nat :=
  if b.testBit index then generator else 0

/-- `bech32_polymod_step`; all values have 30 bits. -/
def polymodStep (pre : Nat) : Nat :=
  let b := pre >>> 25
  ((pre &&& 0x1FFFFFF) <<< 5) ^^^ generatorOf b 0 0x3b6a57b2 ^^^ generatorOf b 1 0x26508e6d ^^^
    generatorOf b 2 0x1ea119fa ^^^ generatorOf b 3 0x3d4233dd ^^^ generatorOf b 4 0x2a1462b3

def polymod (chk : Nat) (values : List UInt8) : Nat :=
  values.foldl (fun chk value => polymodStep chk ^^^ value.toNat) chk

/-- What both directions put into the checksum for the human-readable part. -/
def hrpChecksum (hrp : Bytes) : Nat :=
  let high := hrp.map fun ch : UInt8 => ch >>> 5
  let low := hrp.map fun ch : UInt8 => ch &&& 0x1f
  polymod (polymodStep (polymod 1 high)) low

def ascii (chars : List Char) : Bytes :=
  chars.map fun ch => ch.toNat.toUInt8

def charset : Bytes := ascii
  ['q', 'p', 'z', 'r', 'y', '9', 'x', '8',
   'g', 'f', '2', 't', 'v', 'd', 'w', '0',
   's', '3', 'j', 'n', '5', '4', 'k', 'h',
   'c', 'e', '6', 'm', 'u', 'a', '7', 'l']

def charOf (value : UInt8) : UInt8 := charset.getD value.toNat 0

def charsetRev : List Int := [
  -1, -1, -1, -1, -1, -1, -1, -1, -1, -1, -1, -1, -1, -1, -1, -1,
  -1, -1, -1, -1, -1, -1, -1, -1, -1, -1, -1, -1, -1, -1, -1, -1,
  -1, -1, -1, -1, -1, -1, -1, -1, -1, -1, -1, -1, -1, -1, -1, -1,
  15, -1, 10, 17, 21, 20, 26, 30,  7,  5, -1, -1, -1, -1, -1, -1,
  -1, 29, -1, 24, 13, 25,  9,  8, 23, -1, 18, 22, 31, 27, 19, -1,
   1,  0,  3, 16, 11, 28, 12, 14,  6,  4,  2, -1, -1, -1, -1, -1,
  -1, 29, -1, 24, 13, 25,  9,  8, 23, -1, 18, 22, 31, 27, 19, -1,
   1,  0,  3, 16, 11, 28, 12, 14,  6,  4,  2, -1, -1, -1, -1, -1]

/-- `'1'`, between the human-readable part and the data. -/
def separator : UInt8 := 0x31

def isUpper (ch : UInt8) : Bool := decide (0x41 ≤ ch) && decide (ch ≤ 0x5a)

def isLower (ch : UInt8) : Bool := decide (0x61 ≤ ch) && decide (ch ≤ 0x7a)

/-- A character that a human-readable part may have; a `char` from 128 on is negative. -/
def hrpChar (ch : UInt8) : Bool := decide (33 ≤ ch) && decide (ch ≤ 126)

/-- The six characters of the checksum. -/
def checksumChars (chk : Nat) : Bytes :=
  (List.range 6).map fun i => charset.getD ((chk >>> ((5 - i) * 5)) &&& 0x1f) 0

/-- `bech32_encode`. -/
def bech32Encode (hrp data : Bytes) (ln : Bool) : Option Bytes :=
  if !(hrp.all fun ch => hrpChar ch && !isUpper ch) then none
  else if !ln && decide (90 < hrp.length + 7 + data.length) then none
  else if !(data.all fun value => value >>> 5 == 0) then none
  else
    let chk := polymodStep^[6] (polymod (hrpChecksum hrp) data) ^^^ 1
    some (hrp ++ separator :: data.map charOf ++ checksumChars chk)

/-- `btc_bech32_encode`. -/
def btcBech32Encode (outputLen : Nat) (hrp data : Bytes) (ln : Bool) : Option Bytes :=
  if hrp.isEmpty then none
  else if outputLen < hrp.length + data.length + 8 then none
  else bech32Encode hrp data ln

/-- How many characters stand behind the last separator. -/
def behindSeparator (input : Bytes) : Nat :=
  (input.reverse.takeWhile (· != separator)).length

/-- `charset_rev`, unless the character has its highest bit set. -/
def valueOf (ch : UInt8) : Option UInt8 :=
  if ch &&& 0x80 ≠ 0 then none
  else
    let v := charsetRev.getD ch.toNat (-1)
    if v = -1 then none else some v.toNat.toUInt8

/-- `tolower` of the characters that are in upper case. -/
def lower (ch : UInt8) : UInt8 :=
  if isUpper ch then ch - 0x41 + 0x61 else ch

/-- `bech32_decode`. -/
def bech32Decode (input : Bytes) (ln : Bool) : Option (Bytes × Bytes) :=
  let dataLen := behindSeparator input
  let hrpLen := input.length - (1 + dataLen)
  let hrp := input.take hrpLen
  let chars := input.drop (hrpLen + 1)
  if ln && decide (input.length < 4 + 1 + 7 + 104 + 6) then none
  else if !ln && (decide (input.length < 8) || decide (90 < input.length)) then none
  else if input.length ≤ 1 + dataLen ∨ dataLen < 6 then none
  else if !hrp.all hrpChar then none
  else
    match chars.mapM valueOf with
    | none => none
    | some values =>
        let used := hrp ++ chars
        if used.any isLower && used.any isUpper then none
        else if polymod (hrpChecksum (hrp.map lower)) values ≠ 1 then none
        else some (hrp.map lower, values.take (dataLen - 6))

/-- `btc_bech32_decode`, for buffers of these lengths. -/
def btcBech32Decode (hrpLen dataLen : Nat) (input : Bytes) (ln : Bool) : Option (Bytes × Bytes) :=
  let behind := behindSeparator input
  if input.length ≤ 1 + behind ∨ behind < 6 then none
  else if hrpLen < input.length - (1 + behind) + 1 then none
  else if dataLen < behind - 6 then none
  else bech32Decode input ln

/-! ### The checksum -/

theorem generatorOf_lt {b index generator : Nat} (hgenerator : generator < 2 ^ 30) :
    generatorOf b index generator < 2 ^ 30 := by
  rw [generatorOf]
  split
  · exact hgenerator
  · exact Nat.two_pow_pos 30

theorem polymodStep_lt (pre : Nat) : polymodStep pre < 2 ^ 30 := by
  have hmask : (pre &&& 0x1FFFFFF) <<< 5 < 2 ^ 30 := by
    have hle : pre &&& 0x1FFFFFF ≤ 0x1FFFFFF := Nat.and_le_right
    rw [Nat.shiftLeft_eq]
    omega
  rw [polymodStep]
  iterate 5 apply Nat.xor_lt_two_pow
  · exact hmask
  all_goals exact generatorOf_lt (by decide)

/-- What is below the bits that are folded back is only shifted. -/
theorem polymodStep_xor (pre : Nat) {value : Nat} (hvalue : value < 2 ^ 25) :
    polymodStep (pre ^^^ value) = polymodStep pre ^^^ (value <<< 5) := by
  have hzero : value >>> 25 = 0 := by
    rw [Nat.shiftRight_eq_div_pow]
    exact Nat.div_eq_of_lt hvalue
  have hmask : value &&& 0x1FFFFFF = value := Nat.and_two_pow_sub_one_of_lt_two_pow hvalue
  simp only [polymodStep, Nat.shiftRight_xor_distrib, hzero, Nat.xor_zero,
    Nat.and_xor_distrib_right, Nat.shiftLeft_xor_distrib, hmask]
  ac_rfl

/-- A number is its lowest group on top of the others. -/
theorem group_xor (value : Nat) : (value >>> 5) <<< 5 ^^^ (value &&& 0x1f) = value := by
  apply Nat.eq_of_testBit_eq
  intro index
  have hmask : (0x1f : Nat) = 2 ^ 5 - 1 := rfl
  simp only [hmask, Nat.testBit_xor, Nat.testBit_shiftLeft, Nat.testBit_shiftRight,
    Nat.testBit_and, Nat.testBit_two_pow_sub_one]
  by_cases hlow : index < 5
  · simp [hlow, Nat.not_le.mpr hlow]
  · have hindex : 5 + (index - 5) = index := by omega
    simp [hlow, Nat.not_lt.mp hlow, hindex]

/-- One group of the checksum, read behind the ones above it. -/
theorem polymodStep_group (pre : Nat) {value : Nat} (hvalue : value < 2 ^ 30) :
    polymodStep (pre ^^^ value >>> 5) ^^^ (value &&& 0x1f) = polymodStep pre ^^^ value := by
  have hhigh : value >>> 5 < 2 ^ 25 := by
    rw [Nat.shiftRight_eq_div_pow]
    omega
  rw [polymodStep_xor pre hhigh, Nat.xor_assoc, group_xor]

theorem polymod_append (chk : Nat) (front back : List UInt8) :
    polymod chk (front ++ back) = polymod (polymod chk front) back :=
  List.foldl_append

/-- The groups of the checksum. -/
def checksumGroups (chk : Nat) : List UInt8 :=
  (List.range 6).map fun i => ((chk >>> ((5 - i) * 5)) &&& 0x1f).toUInt8

/-- A checksum is right behind what it was made from. -/
theorem polymod_checksumGroups (pre : Nat) :
    polymod pre (checksumGroups (polymodStep^[6] pre ^^^ 1)) = 1 := by
  have hchk : polymodStep^[6] pre ^^^ 1 < 2 ^ 30 := by
    apply Nat.xor_lt_two_pow
    · rw [Function.iterate_succ_apply']
      exact polymodStep_lt _
    · decide
  generalize hvalue : polymodStep^[6] pre ^^^ 1 = chk at hchk
  have hgroup : ∀ value : Nat, (value &&& 0x1f).toUInt8.toNat = value &&& 0x1f := by
    intro value
    have hle : value &&& 0x1f ≤ 0x1f := Nat.and_le_right
    exact Nat.mod_eq_of_lt (by omega)
  have hshift : ∀ count, chk >>> count < 2 ^ 30 :=
    fun count => Nat.lt_of_le_of_lt (Nat.shiftRight_le chk count) hchk
  have hzero : chk >>> 30 = 0 := by
    rw [Nat.shiftRight_eq_div_pow]
    exact Nat.div_eq_of_lt hchk
  have hnext : ∀ count pre, polymodStep (pre ^^^ chk >>> (count + 5)) ^^^ (chk >>> count &&& 0x1f) =
      polymodStep pre ^^^ chk >>> count := by
    intro count pre
    rw [Nat.shiftRight_add]
    exact polymodStep_group pre (hshift count)
  have hfirst : polymodStep pre ^^^ (chk >>> 25 &&& 0x1f) = polymodStep pre ^^^ chk >>> 25 := by
    have hstep := hnext 25 pre
    rwa [hzero, Nat.xor_zero] at hstep
  have hlast : polymodStep^[6] pre ^^^ chk = 1 := by
    rw [← hvalue, ← Nat.xor_assoc, Nat.xor_self, Nat.zero_xor]
  simp only [polymod, checksumGroups, List.range_succ, List.range_zero, List.nil_append,
    List.cons_append, List.map_cons, List.map_nil, List.foldl_cons, List.foldl_nil, hgroup]
  rw [hfirst, hnext 20, hnext 15, hnext 10, hnext 5]
  have hend := hnext 0 (polymodStep (polymodStep (polymodStep (polymodStep (polymodStep pre)))))
  rw [Nat.shiftRight_zero] at hend
  exact hend.trans hlast

/-! ### Round trips -/

theorem charOf_fin : ∀ value : Fin 32, valueOf (charOf value.val.toUInt8) = some value.val.toUInt8 ∧
    charOf value.val.toUInt8 ≠ separator ∧ isUpper (charOf value.val.toUInt8) = false := by
  decide

/-- A group is read back from its character, which is neither the separator nor in upper case. -/
theorem charOf_spec {value : UInt8} (hvalue : value.toNat < 32) :
    valueOf (charOf value) = some value ∧ charOf value ≠ separator ∧
      isUpper (charOf value) = false := by
  have hfin := charOf_fin ⟨value.toNat, hvalue⟩
  rwa [show value.toNat.toUInt8 = value from UInt8.ofNat_toNat] at hfin

/-- Groups of five bits. -/
def Groups (values : List UInt8) : Prop :=
  ∀ value ∈ values, value.toNat < 32

theorem groups_checksumGroups (chk : Nat) : Groups (checksumGroups chk) := by
  intro value hmem
  obtain ⟨i, _, rfl⟩ := List.mem_map.mp hmem
  have hle : chk >>> ((5 - i) * 5) &&& 0x1f ≤ 0x1f := Nat.and_le_right
  have hmod := Nat.mod_le (chk >>> ((5 - i) * 5) &&& 0x1f) 256
  exact Nat.lt_of_le_of_lt (Nat.le_trans hmod hle) (by decide)

theorem mapM_valueOf {values : List UInt8} (hvalues : Groups values) :
    (values.map charOf).mapM valueOf = some values := by
  induction values with
  | nil => rfl
  | cons value values ih =>
      have hhead := (charOf_spec (hvalues value (List.mem_cons_self ..))).1
      have htail := ih fun other hmem => hvalues other (List.mem_cons_of_mem _ hmem)
      simp [List.mapM_cons, hhead, htail]

/-- Behind the last separator stand the characters that were put there. -/
theorem behindSeparator_append (hrp : Bytes) {chars : Bytes}
    (hchars : ∀ ch ∈ chars, ch ≠ separator) :
    behindSeparator (hrp ++ separator :: chars) = chars.length := by
  have hall : ∀ ch ∈ chars.reverse, (ch != separator) = true := by
    intro ch hmem
    exact bne_iff_ne.mpr (hchars ch (List.mem_reverse.mp hmem))
  have hreverse : (hrp ++ separator :: chars).reverse =
      chars.reverse ++ separator :: hrp.reverse := by simp
  rw [behindSeparator, hreverse, List.takeWhile_append_of_pos hall, List.takeWhile_cons_of_neg
    (by simp), List.append_nil, List.length_reverse]

theorem checksumChars_eq (chk : Nat) : checksumChars chk = (checksumGroups chk).map charOf := by
  have hgroup : ∀ value : Nat, (value &&& 0x1f).toUInt8.toNat = value &&& 0x1f := by
    intro value
    have hle : value &&& 0x1f ≤ 0x1f := Nat.and_le_right
    exact Nat.mod_eq_of_lt (by omega)
  rw [checksumChars, checksumGroups, List.map_map]
  apply List.map_congr_left
  intro i _
  rw [Function.comp_apply, charOf, hgroup]

theorem toNat_lt_of_shiftRight {value : UInt8} (hvalue : (value >>> 5 == 0) = true) :
    value.toNat < 32 := by
  have hzero := congrArg UInt8.toNat (beq_iff_eq.mp hvalue)
  rw [UInt8.toNat_shiftRight] at hzero
  change value.toNat >>> 5 = 0 at hzero
  rw [Nat.shiftRight_eq_div_pow] at hzero
  omega

theorem bech32Encode_eq {hrp data output : Bytes}
    (hencode : bech32Encode hrp data true = some output) :
    (∀ ch ∈ hrp, hrpChar ch = true ∧ isUpper ch = false) ∧ Groups data ∧
      output = hrp ++ separator :: (data ++ checksumGroups
        (polymodStep^[6] (polymod (hrpChecksum hrp) data) ^^^ 1)).map charOf := by
  rw [bech32Encode] at hencode
  split at hencode
  next => exact absurd hencode (by simp)
  next hhrp =>
    split at hencode
    next => exact absurd hencode (by simp)
    next =>
      split at hencode
      next => exact absurd hencode (by simp)
      next hdata =>
        constructor
        · simpa using hhrp
        constructor
        · intro value hmem
          apply toNat_lt_of_shiftRight
          simp only [Bool.not_eq_true', Bool.not_eq_false, List.all_eq_true] at hdata
          exact hdata value hmem
        · have houtput := Option.some_inj.mp hencode
          rw [← houtput, checksumChars_eq, List.map_append, List.append_assoc, List.cons_append]

theorem shiftRight_of_toNat_lt {value : UInt8} (hvalue : value.toNat < 32) :
    (value >>> 5 == 0) = true := by
  apply beq_iff_eq.mpr
  apply UInt8.toNat.inj
  rw [UInt8.toNat_shiftRight]
  change value.toNat >>> 5 = 0
  rw [Nat.shiftRight_eq_div_pow]
  exact Nat.div_eq_of_lt hvalue

/-- Groups behind a human-readable part in lower case have an encoding. -/
theorem btcBech32Encode_some {outputLen : Nat} {hrp data : Bytes} (hnonempty : hrp ≠ [])
    (hlength : hrp.length + data.length + 8 ≤ outputLen)
    (hhrp : ∀ ch ∈ hrp, hrpChar ch = true ∧ isUpper ch = false) (hdata : Groups data) :
    ∃ output, btcBech32Encode outputLen hrp data true = some output := by
  have hchars : (hrp.all fun ch => hrpChar ch && !isUpper ch) = true := by
    apply List.all_eq_true.mpr
    intro ch hmem
    rw [(hhrp ch hmem).1, (hhrp ch hmem).2]
    rfl
  have hgroups : (data.all fun value => value >>> 5 == 0) = true :=
    List.all_eq_true.mpr fun value hmem => shiftRight_of_toNat_lt (hdata value hmem)
  have hempty : hrp.isEmpty = false := by simpa using hnonempty
  rw [btcBech32Encode, hempty, if_neg Bool.false_ne_true, if_neg (Nat.not_lt.mpr hlength),
    bech32Encode, hchars, hgroups]
  exact ⟨_, rfl⟩

theorem lower_eq {hrp : Bytes} (hhrp : ∀ ch ∈ hrp, isUpper ch = false) : hrp.map lower = hrp := by
  have hlower : ∀ ch ∈ hrp, lower ch = id ch := by
    intro ch hmem
    rw [lower, if_neg (by rw [hhrp ch hmem]; exact Bool.false_ne_true), id]
  rw [List.map_congr_left hlower, List.map_id]

/-- What is encoded is decoded, into buffers that are long enough. -/
theorem btcBech32Decode_encode {outputLen hrpLen dataLen : Nat} {hrp data output : Bytes}
    (hencode : btcBech32Encode outputLen hrp data true = some output)
    (hhrp : hrp.length < hrpLen) (hdata : data.length ≤ dataLen)
    (hlong : 122 ≤ hrp.length + 1 + data.length + 6) :
    btcBech32Decode hrpLen dataLen output true = some (hrp, data) := by
  have hnonempty : hrp ≠ [] := by
    intro hnil
    rw [btcBech32Encode, hnil] at hencode
    exact absurd hencode (by simp)
  have hencode' : bech32Encode hrp data true = some output := by
    rw [btcBech32Encode] at hencode
    split at hencode
    next => exact absurd hencode (by simp)
    next =>
      split at hencode
      next => exact absurd hencode (by simp)
      next => exact hencode
  obtain ⟨hchars, hgroups, houtput⟩ := bech32Encode_eq hencode'
  generalize hchecksum : checksumGroups
    (polymodStep^[6] (polymod (hrpChecksum hrp) data) ^^^ 1) = checksum at houtput
  have hsix : checksum.length = 6 := by
    rw [← hchecksum, checksumGroups, List.length_map, List.length_range]
  have hvalues : Groups (data ++ checksum) := by
    intro value hmem
    rcases List.mem_append.mp hmem with hmem | hmem
    · exact hgroups value hmem
    · rw [← hchecksum] at hmem
      exact groups_checksumGroups _ value hmem
  have hpos := List.length_pos_iff.mpr hnonempty
  have hbehind : behindSeparator output = data.length + 6 := by
    rw [houtput, behindSeparator_append, List.length_map, List.length_append, hsix]
    intro ch hmem
    obtain ⟨value, hvalue, rfl⟩ := List.mem_map.mp hmem
    exact (charOf_spec (hvalues value hvalue)).2.1
  have hlength : output.length = hrp.length + 1 + (data.length + 6) := by
    rw [houtput]
    simp only [List.length_append, List.length_cons, List.length_map, hsix]
    omega
  have hhrpLen : output.length - (1 + (data.length + 6)) = hrp.length := by omega
  have hupper : ((hrp ++ (data ++ checksum).map charOf).any isUpper) = false := by
    rw [List.any_eq_false]
    intro ch hmem
    rw [Bool.not_eq_true]
    rcases List.mem_append.mp hmem with hmem | hmem
    · exact (hchars ch hmem).2
    · obtain ⟨value, hvalue, rfl⟩ := List.mem_map.mp hmem
      exact (charOf_spec (hvalues value hvalue)).2.2
  have hhrpChars : hrp.all hrpChar = true :=
    List.all_eq_true.mpr fun ch hmem => (hchars ch hmem).1
  have hsum : polymod (hrpChecksum hrp) (data ++ checksum) = 1 := by
    rw [polymod_append, ← hchecksum]
    exact polymod_checksumGroups _
  have htake : output.take hrp.length = hrp := by
    rw [houtput, List.take_left]
  have hdrop : output.drop (hrp.length + 1) = (data ++ checksum).map charOf := by
    rw [houtput, ← List.drop_drop, List.drop_left, List.drop_one, List.tail_cons]
  have hlower := lower_eq fun ch hmem => (hchars ch hmem).2
  have hlen : ¬ (output.length ≤ 1 + (data.length + 6) ∨ data.length + 6 < 6) := by
    omega
  have hdecode : bech32Decode output true = some (hrp, data) := by
    have hmin : (true && decide (output.length < 4 + 1 + 7 + 104 + 6)) = false := by
      rw [hlength, Bool.true_and]
      exact decide_eq_false (by omega)
    simp only [bech32Decode, hbehind, hhrpLen, htake, hdrop, hmin]
    rw [if_neg Bool.false_ne_true, if_neg (by simp), if_neg hlen, hhrpChars, if_neg (by simp),
      mapM_valueOf hvalues]
    simp only [hupper, hlower, hsum, Bool.and_false, Nat.add_sub_cancel, List.take_left]
    rw [if_neg Bool.false_ne_true, if_neg (fun hne => hne rfl)]
  simp only [btcBech32Decode, hbehind, hhrpLen]
  rw [if_neg hlen, if_neg (Nat.not_lt.mpr hhrp), Nat.add_sub_cancel, if_neg (Nat.not_lt.mpr hdata),
    hdecode]

theorem bech32Decode_length {input hrp data : Bytes} {ln : Bool}
    (hdecode : bech32Decode input ln = some (hrp, data)) :
    hrp.length = input.length - (1 + behindSeparator input) ∧
      data.length ≤ behindSeparator input - 6 := by
  simp only [bech32Decode] at hdecode
  split at hdecode
  next => exact absurd hdecode (by simp)
  split at hdecode
  next => exact absurd hdecode (by simp)
  split at hdecode
  next => exact absurd hdecode (by simp)
  split at hdecode
  next => exact absurd hdecode (by simp)
  split at hdecode
  next => exact absurd hdecode (by simp)
  next values hvalues =>
    split at hdecode
    next => exact absurd hdecode (by simp)
    split at hdecode
    next => exact absurd hdecode (by simp)
    cases hdecode
    rw [List.length_map, List.length_take, List.length_take]
    omega

/-- What is decoded fits the buffers. -/
theorem btcBech32Decode_fits {hrpLen dataLen : Nat} {input hrp data : Bytes} {ln : Bool}
    (hdecode : btcBech32Decode hrpLen dataLen input ln = some (hrp, data)) :
    hrp.length < hrpLen ∧ data.length ≤ dataLen := by
  simp only [btcBech32Decode] at hdecode
  split at hdecode
  next => exact absurd hdecode (by simp)
  split at hdecode
  next => exact absurd hdecode (by simp)
  split at hdecode
  next => exact absurd hdecode (by simp)
  have hlength := bech32Decode_length hdecode
  omega

end Bech32

end Ptarmigan
