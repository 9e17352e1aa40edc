/-
Signatures in the two forms the node uses: 64 bytes `r || s` in messages, DER with the hash type
behind it in witnesses (`ln_misc_sigtrim`, `ln_misc_sigexpand`, `is_valid_signature_encoding`).
-/
import Mathlib.Data.List.GetD
import Ptarmigan.Library.DerInteger
import Ptarmigan.Library.WireReader
import Ptarmigan.Tx

namespace Ptarmigan

namespace SigFormat

open WireReader DerInteger

/-! ### The code -/

/-- `pBuf[index]`. -/
def byteAt (index : Nat) : WireReader Unit Nat := fun data pos =>
  match data[index]? with
  | some byte => .done byte.toNat pos
  | none => .fault .outOfBounds

/-- `*p`. -/
def byteHere : WireReader Unit Nat := fun data pos => byteAt pos data pos

/-- The loops of `ln_misc_sigtrim` over leading zeros, from turn `lp` on: the bound of the loop goes
down with `sz`. -/
def trimZeros : Nat → Nat → WireReader Unit Nat
  | 0, _ => pure 0
  | sz + 1, lp =>
      if lp < sz then do
        let byte ← byteHere
        if byte != 0 then pure (sz + 1)
        else do
          skip 1
          trimZeros sz (lp + 1)
      else pure (sz + 1)

/-- One of the two numbers, put into its 32 bytes of `pSig`. -/
def trimInteger (sz : Nat) : WireReader Unit Bytes := do
  let sz ← trimZeros sz 0
  refuseIf (32 < sz) ()
  let field ← bytes sz
  pure (DerInteger.padTo 32 field)

/-- `ln_misc_sigtrim`: the 64 bytes of `pSig`; `sz` is a `uint8_t`. -/
def lnMiscSigtrim : WireReader Unit Bytes := do
  let len ← byteAt 1
  let szR ← byteAt 3
  let szS ← byteAt (4 + szR + 1)
  skip 4
  refuseIf ((len + 252) % 256 != szR + szS) ()
  let r ← trimInteger szR
  skip 2
  let s ← trimInteger szS
  pure (r ++ s)

/-- The loops of `ln_misc_sigexpand` over leading zeros: pointer and length. -/
def expandZeros : Nat → Bytes → Nat → Bytes × Nat
  | 0, p, len => (p, len)
  | turns + 1, p, len =>
      if p.headD 0 != 0 then (p, len) else expandZeros turns p.tail (len - 1)

/-- `r_len` or `s_len` and what is written under it. -/
def expandInteger (p : Bytes) : Nat × Bytes :=
  let (p, len) := expandZeros 31 p 32
  if 0x80 ≤ p.headD 0 then (len + 1, 0x00 :: p.take len) else (len, p.take len)

/-- `ln_misc_sigexpand`. -/
def lnMiscSigexpand (buf : Bytes) : Bytes :=
  let (rLen, r) := expandInteger buf
  let (sLen, s) := expandInteger (buf.drop 32)
  [0x30, (4 + rLen + sLen).toUInt8, 0x02, rLen.toUInt8] ++ r ++ [0x02, sLen.toUInt8] ++ s ++ [0x01]

/-- `is_valid_signature_encoding`; `size` is the length. -/
def isValidSignatureEncoding (sig : Bytes) : Bool :=
  let at' (index : Nat) : UInt8 := sig.getD index 0
  if sig.length < 9 then false
  else if 73 < sig.length then false
  else if at' 0 != 0x30 then false
  else if (at' 1).toNat != sig.length - 3 then false
  else
    let lenR := (at' 3).toNat
    if sig.length ≤ 5 + lenR then false
    else
      let lenS := (at' (5 + lenR)).toNat
      if lenR + lenS + 7 != sig.length then false
      else if at' 2 != 0x02 then false
      else if lenR == 0 then false
      else if 0x80 ≤ at' 4 then false
      else if 1 < lenR && at' 4 == 0x00 && !(0x80 ≤ at' 5 : Bool) then false
      else if at' (lenR + 4) != 0x02 then false
      else if lenS == 0 then false
      else if 0x80 ≤ at' (lenR + 6) then false
      else if 1 < lenS && at' (lenR + 6) == 0x00 && !(0x80 ≤ at' (lenR + 7) : Bool) then false
      else true

/-! ### What a strict DER signature is -/

/-- A number that fits in 32 bytes, as the contents of a DER integer. -/
structure DerNumber where
  content : Bytes
  shortest : Shortest content
  fits : BigEndian.decode content < 256 ^ 32

/-- A DER integer: its tag, its length and its contents. -/
def derInteger (content : Bytes) : Bytes :=
  [0x02, content.length.toUInt8] ++ content

/-- The sequence of two integers, with the hash type behind it. -/
def derSignature (r s : Bytes) (hashType : UInt8) : Bytes :=
  [0x30, (derInteger r ++ derInteger s).length.toUInt8] ++
    (derInteger r ++ (derInteger s ++ [hashType]))

/-- A strictly DER encoded signature with hash type `01`, `r` and `s` below `2 ^ 256`. -/
def StrictDer (sig : Bytes) : Prop :=
  ∃ r s : DerNumber, sig = derSignature r.content s.content 0x01

theorem DerNumber.length_strip (number : DerNumber) : (strip number.content).length ≤ 32 :=
  length_strip_of_lt (by decide) number.fits

theorem DerNumber.length_content (number : DerNumber) : number.content.length ≤ 33 := by
  have hsigned := length_signed (strip number.content)
  rw [number.shortest.signed_strip] at hsigned
  have hstrip := number.length_strip
  split at hsigned <;> omega

/-- Any 32 bytes, stripped and signed. -/
def DerNumber.ofBytes (field : Bytes) (hlength : field.length = 32) : DerNumber where
  content := signed (strip field)
  shortest := by
    apply shortest_signed
    rintro rfl
    exact absurd hlength (by decide)
  fits := by
    rw [← decode_strip, strip_signed, strip_strip, decode_strip, ← hlength]
    exact BigEndian.decode_lt field

/-! ### Expanding -/

theorem expandZeros_eq (rest : Bytes) (turns : Nat) (field : Bytes)
    (hlength : field.length = turns + 1) :
    expandZeros turns (field ++ rest) field.length =
      (strip field ++ rest, (strip field).length) := by
  induction turns generalizing field with
  | zero =>
      rw [expandZeros, strip_of_short (Nat.le_of_eq hlength)]
  | succ turns ih =>
      match field, hlength with
      | byte :: field, hlength =>
          have hshorter : field.length = turns + 1 := by simpa using hlength
          have hne : field ≠ [] := by
            rintro rfl
            simp at hshorter
          by_cases hzero : byte = 0
          · have hnext := ih field hshorter
            simp [expandZeros, hzero, strip_zero hne, hnext]
          · simp [expandZeros, hzero, strip_of_head hzero]

theorem expandInteger_eq (field rest : Bytes) (hlength : field.length = 32) :
    expandInteger (field ++ rest) =
      ((signed (strip field)).length, signed (strip field)) := by
  have hloop := expandZeros_eq rest 31 field hlength
  have hne : strip field ≠ [] := by
    apply strip_ne_nil
    rintro rfl
    exact absurd hlength (by decide)
  have hhead : (strip field ++ rest).headD 0 = (strip field).headD 0 := by
    cases hfield : strip field with
    | nil => exact absurd hfield hne
    | cons byte tail => rfl
  rw [hlength] at hloop
  by_cases hsign : 0x80 ≤ (strip field).headD 0
  · simp only [expandInteger, hloop, hhead, if_pos hsign, signed, List.take_left, List.length_cons]
  · simp only [expandInteger, hloop, hhead, if_neg hsign, signed, List.take_left]

/-- What `ln_misc_sigexpand` makes of `r || s`. -/
theorem lnMiscSigexpand_eq (r s : Bytes) (hr : r.length = 32) (hs : s.length = 32) :
    lnMiscSigexpand (r ++ s) = derSignature (signed (strip r)) (signed (strip s)) 0x01 := by
  have hsecond : expandInteger s = ((signed (strip s)).length, signed (strip s)) := by
    have happend := expandInteger_eq s [] hs
    rwa [List.append_nil] at happend
  have hdrop : (r ++ s).drop 32 = s := by
    rw [← hr, List.drop_left]
  have hcount : 4 + (signed (strip r)).length + (signed (strip s)).length =
      (derInteger (signed (strip r)) ++ derInteger (signed (strip s))).length := by
    simp only [derInteger, List.length_append, List.length_cons, List.length_nil]
    omega
  simp only [lnMiscSigexpand, expandInteger_eq r s hr, hdrop, hsecond, hcount, derSignature]
  simp [derInteger]

/-! ### Trimming -/

theorem byteAt_done {data : Bytes} {index : Nat} {byte : UInt8} (hbyte : data[index]? = some byte)
    (pos : Nat) : byteAt index data pos = .done byte.toNat pos := by
  simp [byteAt, hbyte]

theorem byteHere_done {data : Bytes} {pos : Nat} {byte : UInt8} (hbyte : data[pos]? = some byte) :
    byteHere data pos = .done byte.toNat pos :=
  byteAt_done hbyte pos

/-- At a byte that is not zero, and on the last byte, the loop ends. -/
theorem trimZeros_stays {data : Bytes} {pos sz lp : Nat}
    (hend : lp < sz → ∃ byte, data[pos]? = some byte ∧ byte ≠ 0) :
    trimZeros (sz + 1) lp data pos = .done (sz + 1) pos := by
  by_cases hturn : lp < sz
  · obtain ⟨byte, hbyte, hne⟩ := hend hturn
    have hnonzero : (byte.toNat != 0) = true :=
      bne_iff_ne.mpr fun h => hne (UInt8.toNat_inj.mp h)
    rw [trimZeros, if_pos hturn, bind_done (byteHere_done hbyte), if_pos hnonzero]
    rfl
  · rw [trimZeros, if_neg hturn]
    rfl

theorem trimZeros_passes {data : Bytes} {pos sz lp : Nat} (hturn : lp < sz)
    (hzero : data[pos]? = some 0) :
    trimZeros (sz + 1) lp data pos = trimZeros sz (lp + 1) data (pos + 1) := by
  rw [trimZeros, if_pos hturn, bind_done (byteHere_done hzero)]
  rfl

/-- Over the shortest contents the loop leaves out what `strip` leaves out. -/
theorem trimZeros_shortest {data content rest : Bytes} {pos : Nat} (hshort : Shortest content)
    (hstands : Stands data pos (content ++ rest)) :
    trimZeros content.length 0 data pos =
      .done (strip content).length (pos + (content.length - (strip content).length)) := by
  have hat : ∀ index, data[pos + index]? = (content ++ rest)[index]? := by
    intro index
    rw [← hstands.drop, List.getElem?_drop]
  match content, hshort with
  | [], hshort => exact absurd rfl hshort.nonempty
  | [byte], _ =>
      rw [strip]
      exact trimZeros_stays fun hturn => absurd hturn (Nat.lt_irrefl 0)
  | byte :: next :: tail, hshort =>
      have hbyte : data[pos]? = some byte := hat 0
      have hnext : data[pos + 1]? = some next := hat 1
      by_cases hzero : byte = 0
      · have hsign : 0x80 ≤ next := hshort.noneToSpare (by simp) hzero
        have hne : next ≠ 0 := by
          rintro rfl
          exact absurd hsign (by decide)
        have hturn : 0 < (next :: tail).length := Nat.succ_pos _
        have hone : (0 :: next :: tail).length - (next :: tail).length = 1 := by simp
        rw [hzero] at hbyte ⊢
        rw [strip_zero (by simp), strip_of_head hne, hone, List.length_cons,
          trimZeros_passes hturn hbyte]
        exact trimZeros_stays fun _ => ⟨next, hnext, hne⟩
      · rw [strip_of_head hzero, Nat.sub_self]
        exact trimZeros_stays fun _ => ⟨byte, hbyte, hzero⟩

theorem refuseIf_false (data : Bytes) (pos : Nat) :
    (refuseIf false () : WireReader Unit Unit) data pos = .done () pos :=
  rfl

theorem trimInteger_reads (number : DerNumber) (pos : Nat) (rest : Bytes) :
    Reads pos rest (trimInteger number.content.length) number.content
      (DerInteger.padTo 32 (strip number.content)) := by
  intro data hlength hdrop
  have hstands : Stands data pos (number.content ++ rest) :=
    ⟨by rw [hlength, List.length_append, Nat.add_assoc], hdrop⟩
  have hloop := trimZeros_shortest number.shortest hstands
  have hle := length_strip_le number.content
  have hnotLong : decide (32 < (strip number.content).length) = false :=
    decide_eq_false (Nat.not_lt.mpr number.length_strip)
  have hzeros : number.content.drop (number.content.length - (strip number.content).length) =
      strip number.content := by
    have hpad := padTo_strip number.content
    calc number.content.drop (number.content.length - (strip number.content).length)
        = (DerInteger.padTo number.content.length (strip number.content)).drop
            (number.content.length - (strip number.content).length) := by rw [hpad]
      _ = strip number.content := by simp [DerInteger.padTo]
  have hfield : (bytes (strip number.content).length : WireReader Unit Bytes) data
      (pos + (number.content.length - (strip number.content).length)) =
        .done (strip number.content) (pos + number.content.length) := by
    have hfits : pos + (number.content.length - (strip number.content).length) +
        (strip number.content).length = pos + number.content.length := by
      omega
    rw [bytes, hfits, if_pos (by omega), ← List.drop_drop, hdrop,
      List.drop_append_of_le_length (by omega), hzeros, List.take_left]
  rw [trimInteger, bind_done hloop, hnotLong, bind_done (refuseIf_false _ _), bind_done hfield]
  rfl

/-- Behind the lengths both numbers are read. -/
theorem trimBoth_reads (r s : DerNumber) :
    Reads 4 [0x01]
      (do
        let first ← trimInteger r.content.length
        skip 2
        let second ← trimInteger s.content.length
        pure (first ++ second))
      (r.content ++ derInteger s.content)
      (DerInteger.padTo 32 (strip r.content) ++ DerInteger.padTo 32 (strip s.content)) := by
  have hlast : Reads (4 + r.content.length + 2) [0x01]
      ((fun second => DerInteger.padTo 32 (strip r.content) ++ second) <$>
        trimInteger s.content.length)
      s.content (DerInteger.padTo 32 (strip r.content) ++ DerInteger.padTo 32 (strip s.content)) :=
    Reads.map _ (trimInteger_reads s _ _)
  exact Reads.bind (trimInteger_reads r 4 _) (Reads.bind (Reads.skip rfl) hlast)

/-- What `ln_misc_sigtrim` makes of a strict signature. -/
theorem lnMiscSigtrim_derSignature (r s : DerNumber) :
    ∃ pos, lnMiscSigtrim.run (derSignature r.content s.content 0x01) =
      .done (DerInteger.padTo 32 (strip r.content) ++
        DerInteger.padTo 32 (strip s.content)) pos := by
  have hr := r.length_content
  have hs := s.length_content
  have hlen : (derSignature r.content s.content 0x01)[1]? =
      some (derInteger r.content ++ derInteger s.content).length.toUInt8 := rfl
  have hszR : (derSignature r.content s.content 0x01)[3]? = some r.content.length.toUInt8 := rfl
  have hszS : (derSignature r.content s.content 0x01)[4 + r.content.length + 1]? =
      some s.content.length.toUInt8 := by
    have hindex : 4 + r.content.length + 1 = r.content.length + 1 + 1 + 1 + 1 + 1 := by omega
    rw [hindex]
    simp [derSignature, derInteger]
  have hrByte : r.content.length.toUInt8.toNat = r.content.length :=
    Nat.mod_eq_of_lt (by omega)
  have hsByte : s.content.length.toUInt8.toNat = s.content.length :=
    Nat.mod_eq_of_lt (by omega)
  have hagree :
      (((derInteger r.content ++ derInteger s.content).length.toUInt8.toNat + 252) % 256 !=
        r.content.length + s.content.length) = false := by
    have hcount : (derInteger r.content ++ derInteger s.content).length =
        4 + r.content.length + s.content.length := by
      simp only [derInteger, List.length_append, List.length_cons, List.length_nil]
      omega
    have hbyte : (4 + r.content.length + s.content.length).toUInt8.toNat =
        4 + r.content.length + s.content.length :=
      Nat.mod_eq_of_lt (by omega)
    rw [hcount, hbyte, bne_eq_false_iff_eq]
    omega
  have hstands : Stands (derSignature r.content s.content 0x01) 4
      ((r.content ++ derInteger s.content) ++ [0x01]) := by
    constructor
    · simp [derSignature, derInteger]
      omega
    · simp [derSignature, derInteger]
  have hboth := (trimBoth_reads r s).done hstands
  refine ⟨4 + (r.content ++ derInteger s.content).length, ?_⟩
  rw [run, lnMiscSigtrim, bind_done (byteAt_done hlen 0), bind_done (byteAt_done hszR 0), hrByte,
    bind_done (byteAt_done hszS 0), hsByte, hagree]
  exact hboth

/-! ### The check of the encoding -/

/-- What `is_valid_signature_encoding` checks. -/
structure ValidEncoding (sig : Bytes) (lenR lenS : Nat) : Prop where
  long : 9 ≤ sig.length
  short : sig.length ≤ 73
  compound : sig.getD 0 0 = 0x30
  total : (sig.getD 1 0).toNat = sig.length - 3
  lenR_eq : (sig.getD 3 0).toNat = lenR
  inside : 5 + lenR < sig.length
  lenS_eq : (sig.getD (5 + lenR) 0).toNat = lenS
  sum : lenR + lenS + 7 = sig.length
  tagR : sig.getD 2 0 = 0x02
  nonemptyR : lenR ≠ 0
  notNegativeR : sig.getD 4 0 < 0x80
  noneToSpareR : 1 < lenR → sig.getD 4 0 = 0x00 → 0x80 ≤ sig.getD 5 0
  tagS : sig.getD (lenR + 4) 0 = 0x02
  nonemptyS : lenS ≠ 0
  notNegativeS : sig.getD (lenR + 6) 0 < 0x80
  noneToSpareS : 1 < lenS → sig.getD (lenR + 6) 0 = 0x00 → 0x80 ≤ sig.getD (lenR + 7) 0

theorem isValidSignatureEncoding_iff (sig : Bytes) :
    isValidSignatureEncoding sig = true ↔ ∃ lenR lenS, ValidEncoding sig lenR lenS := by
  constructor
  · intro hvalid
    simp [isValidSignatureEncoding] at hvalid
    obtain ⟨hlong, hshort, hcompound, htotal, hinside, hsum, htagR, hR, hsignR, hspareR, htagS, hS,
      hsignS, hspareS⟩ := hvalid
    have hnoSpare : ∀ {len : Nat} {first second : UInt8},
        ((len ≤ 1 ∨ ¬ first = 0) ∨ 0x80 ≤ second) → 1 < len → first = 0 → 0x80 ≤ second := by
      intro len first second hspare hlen hfirst
      rcases hspare with (hone | hfirst') | hsecond
      · exact absurd hlen (Nat.not_lt.mpr hone)
      · exact absurd hfirst hfirst'
      · exact hsecond
    exact ⟨_, _, hlong, hshort, hcompound, htotal, rfl, hinside, rfl, hsum, htagR, hR, hsignR,
      hnoSpare hspareR, htagS, hS, hsignS, hnoSpare hspareS⟩
  · rintro ⟨lenR, lenS, hvalid⟩
    have hspare : ∀ {len : Nat} {first second : UInt8},
        (1 < len → first = 0 → 0x80 ≤ second) → ((len ≤ 1 ∨ ¬ first = 0) ∨ 0x80 ≤ second) := by
      intro len first second hnoSpare
      by_cases hlen : 1 < len
      · by_cases hfirst : first = 0
        · exact .inr (hnoSpare hlen hfirst)
        · exact .inl (.inr hfirst)
      · exact .inl (.inl (Nat.not_lt.mp hlen))
    obtain ⟨hlong, hshort, hcompound, htotal, rfl, hinside, rfl, hsum, htagR, hR, hsignR, hspareR,
      htagS, hS, hsignS, hspareS⟩ := hvalid
    simp [isValidSignatureEncoding]
    exact ⟨hlong, hshort, hcompound, htotal, hinside, hsum, htagR, hR, hsignR, hspare hspareR,
      htagS, hS, hsignS, hspare hspareS⟩

/-- A byte string cut at the places where the check looks. -/
def cutSignature (head : UInt8 × UInt8 × UInt8 × UInt8) (r : Bytes) (middle : UInt8 × UInt8)
    (s : Bytes) (hashType : UInt8) : Bytes :=
  head.1 :: head.2.1 :: head.2.2.1 :: head.2.2.2 ::
    (r ++ (middle.1 :: middle.2 :: (s ++ [hashType])))

theorem headD_eq_getD (field : Bytes) : field.headD 0 = field.getD 0 0 := by
  cases field with
  | nil => rfl
  | cons byte rest => rfl

section Cut

variable {head : UInt8 × UInt8 × UInt8 × UInt8} {r s : Bytes} {middle : UInt8 × UInt8}
  {hashType : UInt8}

theorem length_cutSignature :
    (cutSignature head r middle s hashType).length = r.length + s.length + 7 := by
  simp only [cutSignature, List.length_cons, List.length_append, List.length_nil]
  omega

theorem getD_cutSignature_r {index : Nat} (hindex : index < r.length) :
    (cutSignature head r middle s hashType).getD (4 + index) 0 = r.getD index 0 := by
  have hstands : Stands (cutSignature head r middle s hashType) 4
      (r ++ (middle.1 :: middle.2 :: (s ++ [hashType]))) :=
    ⟨by simp only [cutSignature, List.length_cons]; omega, rfl⟩
  rw [hstands.getD, List.getD_append _ _ _ _ hindex]

theorem stands_cutSignature :
    Stands (cutSignature head r middle s hashType) (4 + r.length)
      (middle.1 :: middle.2 :: (s ++ [hashType])) := by
  have hstands : Stands (cutSignature head r middle s hashType) 4
      (r ++ (middle.1 :: middle.2 :: (s ++ [hashType]))) :=
    ⟨by simp only [cutSignature, List.length_cons]; omega, rfl⟩
  exact hstands.behind

theorem getD_cutSignature_s {index : Nat} (hindex : index < s.length) :
    (cutSignature head r middle s hashType).getD (r.length + 6 + index) 0 = s.getD index 0 := by
  have hplace : r.length + 6 + index = 4 + r.length + (index + 1 + 1) := by omega
  rw [hplace, stands_cutSignature.getD]
  exact List.getD_append _ _ _ _ hindex

theorem validEncoding_cut :
    ValidEncoding (cutSignature head r middle s hashType) r.length s.length ↔
      head.1 = 0x30 ∧ head.2.1.toNat = r.length + s.length + 4 ∧ head.2.2.1 = 0x02 ∧
        head.2.2.2.toNat = r.length ∧ middle = (0x02, s.length.toUInt8) ∧ Shortest r ∧
          Shortest s ∧ r.length + s.length ≤ 66 := by
  have hlength : (cutSignature head r middle s hashType).length = r.length + s.length + 7 :=
    length_cutSignature
  have htagS : (cutSignature head r middle s hashType).getD (r.length + 4) 0 = middle.1 := by
    rw [Nat.add_comm]
    exact stands_cutSignature.getD 0 0
  have hlenS : (cutSignature head r middle s hashType).getD (5 + r.length) 0 = middle.2 := by
    have hplace : 5 + r.length = 4 + r.length + 1 := by omega
    rw [hplace]
    exact stands_cutSignature.getD 1 0
  have hsByte : s.length ≤ 66 → s.length.toUInt8.toNat = s.length :=
    fun hle => Nat.mod_eq_of_lt (by omega)
  have hr : ∀ index < r.length,
      (cutSignature head r middle s hashType).getD (4 + index) 0 = r.getD index 0 :=
    fun index => getD_cutSignature_r
  have hs : ∀ index < s.length,
      (cutSignature head r middle s hashType).getD (r.length + 6 + index) 0 = s.getD index 0 :=
    fun index => getD_cutSignature_s
  constructor
  · intro hvalid
    have hsum : r.length + s.length ≤ 66 := by
      have hshort := hvalid.short
      omega
    have hmiddle : middle = (0x02, s.length.toUInt8) := by
      have hsecond : middle.2 = s.length.toUInt8 := by
        apply UInt8.toNat_inj.mp
        rw [← hlenS, hvalid.lenS_eq, hsByte (by omega)]
      rw [← hsecond, ← hvalid.tagS, htagS]
    have hrPos : 0 < r.length := Nat.pos_of_ne_zero hvalid.nonemptyR
    have hsPos : 0 < s.length := Nat.pos_of_ne_zero hvalid.nonemptyS
    refine ⟨hvalid.compound, ?_, hvalid.tagR, hvalid.lenR_eq, hmiddle, ?_, ?_, hsum⟩
    · have htotal := hvalid.total
      rw [hlength] at htotal
      exact htotal
    · refine ⟨List.ne_nil_of_length_pos hrPos, ?_, ?_⟩ <;> rw [headD_eq_getD]
      · rw [← hr 0 hrPos]
        exact hvalid.notNegativeR
      · intro hlong hzero
        rw [← hr 1 hlong]
        rw [← hr 0 hrPos] at hzero
        exact hvalid.noneToSpareR hlong hzero
    · refine ⟨List.ne_nil_of_length_pos hsPos, ?_, ?_⟩ <;> rw [headD_eq_getD]
      · rw [← hs 0 hsPos]
        exact hvalid.notNegativeS
      · intro hlong hzero
        rw [← hs 1 hlong]
        rw [← hs 0 hsPos] at hzero
        exact hvalid.noneToSpareS hlong hzero
  · rintro ⟨hcompound, htotal, htagR, hlenR, rfl, hrShort, hsShort, hsum⟩
    have hrPos := List.length_pos_of_ne_nil hrShort.nonempty
    have hsPos := List.length_pos_of_ne_nil hsShort.nonempty
    constructor
    · omega
    · omega
    · exact hcompound
    · rw [hlength]
      exact htotal
    · exact hlenR
    · omega
    · rw [hlenS]
      exact hsByte (by omega)
    · omega
    · exact htagR
    · omega
    · rw [hr 0 hrPos, ← headD_eq_getD]
      exact hrShort.notNegative
    · intro hlong hzero
      rw [hr 1 hlong]
      rw [hr 0 hrPos, ← headD_eq_getD] at hzero
      exact hrShort.noneToSpare hlong hzero
    · exact htagS
    · omega
    · rw [hs 0 hsPos, ← headD_eq_getD]
      exact hsShort.notNegative
    · intro hlong hzero
      rw [hs 1 hlong]
      rw [hs 0 hsPos, ← headD_eq_getD] at hzero
      exact hsShort.noneToSpare hlong hzero

end Cut

/-- Any bytes of that length can be cut so. -/
theorem exists_cutSignature {sig : Bytes} {lenR lenS : Nat}
    (hlength : sig.length = lenR + lenS + 7) :
    ∃ head r middle s hashType, r.length = lenR ∧ s.length = lenS ∧
      sig = cutSignature head r middle s hashType := by
  match sig, hlength with
  | b0 :: b1 :: b2 :: b3 :: rest, hlength =>
      have hrest : rest.length = lenR + lenS + 3 := by simpa using hlength
      match hbehind : rest.drop lenR with
      | c0 :: c1 :: tail =>
          have htail : tail.length = lenS + 1 := by
            have hdrop := congrArg List.length hbehind
            simp only [List.length_drop, List.length_cons] at hdrop
            omega
          have hne : tail ≠ [] := by
            rintro rfl
            simp at htail
          refine ⟨(b0, b1, b2, b3), rest.take lenR, (c0, c1), tail.dropLast, tail.getLast hne,
            ?_, ?_, ?_⟩
          · rw [List.length_take, hrest]
            omega
          · rw [List.length_dropLast, htail, Nat.add_sub_cancel]
          · have hsplit : rest.take lenR ++ (c0 :: c1 :: tail) = rest := by
              rw [← hbehind, List.take_append_drop]
            rw [cutSignature, List.dropLast_append_getLast, hsplit]
      | [_] | [] =>
          have hdrop := congrArg List.length hbehind
          simp only [List.length_drop, List.length_cons, List.length_nil] at hdrop
          omega

theorem derSignature_eq_cut (r s : Bytes) (hashType : UInt8) :
    derSignature r s hashType =
      cutSignature (0x30, (r.length + s.length + 4).toUInt8, 0x02, r.length.toUInt8) r
        (0x02, s.length.toUInt8) s hashType := by
  have hcount : (derInteger r ++ derInteger s).length = r.length + s.length + 4 := by
    simp only [derInteger, List.length_append, List.length_cons, List.length_nil]
    omega
  rw [derSignature, hcount]
  simp [cutSignature, derInteger]

/-- The check lets through exactly the sequences of two shortest integers, up to their length. -/
theorem isValidSignatureEncoding_iff_der (sig : Bytes) :
    isValidSignatureEncoding sig = true ↔
      ∃ r s hashType, Shortest r ∧ Shortest s ∧ r.length + s.length ≤ 66 ∧
        sig = derSignature r s hashType := by
  rw [isValidSignatureEncoding_iff]
  constructor
  · rintro ⟨lenR, lenS, hvalid⟩
    obtain ⟨head, r, middle, s, hashType, rfl, rfl, rfl⟩ := exists_cutSignature hvalid.sum.symm
    obtain ⟨hcompound, htotal, htagR, hlenR, rfl, hr, hs, hsum⟩ := validEncoding_cut.mp hvalid
    have hhead : head = (0x30, (r.length + s.length + 4).toUInt8, 0x02, r.length.toUInt8) := by
      rw [← htotal, ← hlenR, Nat.toUInt8_eq, Nat.toUInt8_eq, UInt8.ofNat_toNat, UInt8.ofNat_toNat,
        ← hcompound, ← htagR]
    refine ⟨r, s, hashType, hr, hs, hsum, ?_⟩
    rw [derSignature_eq_cut, hhead]
  · rintro ⟨r, s, hashType, hr, hs, hsum, rfl⟩
    refine ⟨r.length, s.length, ?_⟩
    rw [derSignature_eq_cut]
    have htotal : (r.length + s.length + 4).toUInt8.toNat = r.length + s.length + 4 :=
      Nat.mod_eq_of_lt (by omega)
    have hlenR : r.length.toUInt8.toNat = r.length :=
      Nat.mod_eq_of_lt (by omega)
    exact validEncoding_cut.mpr ⟨rfl, htotal, rfl, hlenR, rfl, hr, hs, hsum⟩

/-! ### There and back -/

/-- 64 bytes, expanded and trimmed. -/
theorem lnMiscSigtrim_expand {rs : Bytes} (hlength : rs.length = 64) :
    ∃ pos, lnMiscSigtrim.run (lnMiscSigexpand rs) = .done rs pos := by
  have hr : (rs.take 32).length = 32 := by rw [List.length_take, hlength]; rfl
  have hs : (rs.drop 32).length = 32 := by rw [List.length_drop, hlength]
  have htrim := lnMiscSigtrim_derSignature (.ofBytes _ hr) (.ofBytes _ hs)
  have hback : ∀ field : Bytes, field.length = 32 →
      DerInteger.padTo 32 (strip (signed (strip field))) = field := by
    intro field hfield
    rw [strip_signed, strip_strip]
    conv_lhs => rw [← hfield]
    exact padTo_strip field
  have hexpand := lnMiscSigexpand_eq _ _ hr hs
  rw [List.take_append_drop] at hexpand
  rw [hexpand]
  simp only [DerNumber.ofBytes, hback _ hr, hback _ hs, List.take_append_drop] at htrim
  exact htrim

/-- A strict signature, trimmed and expanded. -/
theorem lnMiscSigexpand_trim {sig : Bytes} (hder : StrictDer sig) :
    ∃ rs pos, rs.length = 64 ∧ lnMiscSigtrim.run sig = .done rs pos ∧
      lnMiscSigexpand rs = sig := by
  obtain ⟨r, s, rfl⟩ := hder
  obtain ⟨pos, htrim⟩ := lnMiscSigtrim_derSignature r s
  have hwidth : ∀ number : DerNumber, (DerInteger.padTo 32 (strip number.content)).length = 32 := by
    intro number
    have hle := number.length_strip
    simp only [DerInteger.padTo, List.length_append, List.length_replicate]
    omega
  have hback : ∀ number : DerNumber,
      signed (strip (DerInteger.padTo 32 (strip number.content))) = number.content := by
    intro number
    rw [strip_padTo 32 (strip_ne_nil number.shortest.nonempty), strip_strip,
      number.shortest.signed_strip]
  refine ⟨_, pos, ?_, htrim, ?_⟩
  · rw [List.length_append, hwidth, hwidth]
  · rw [lnMiscSigexpand_eq _ _ (hwidth r) (hwidth s), hback, hback]

theorem isValid_expand {rs : Bytes} (hlength : rs.length = 64) :
    isValidSignatureEncoding (lnMiscSigexpand rs) = true := by
  have hr : (rs.take 32).length = 32 := by rw [List.length_take, hlength]; rfl
  have hs : (rs.drop 32).length = 32 := by rw [List.length_drop, hlength]
  have hexpand := lnMiscSigexpand_eq _ _ hr hs
  rw [List.take_append_drop] at hexpand
  rw [hexpand, isValidSignatureEncoding_iff_der]
  have hr' := (DerNumber.ofBytes _ hr).length_content
  have hs' := (DerNumber.ofBytes _ hs).length_content
  exact ⟨_, _, _, (DerNumber.ofBytes _ hr).shortest, (DerNumber.ofBytes _ hs).shortest,
    Nat.add_le_add hr' hs', rfl⟩

/-- Both forms go into each other: 64 bytes expand to an encoding that is let through and trims to
them, and a strict signature trims to 64 bytes that expand to it. -/
theorem sigFormats_agree {rs sig : Bytes} (hlength : rs.length = 64) (hder : StrictDer sig) :
    (isValidSignatureEncoding (lnMiscSigexpand rs) = true ∧
      ∃ pos, lnMiscSigtrim.run (lnMiscSigexpand rs) = .done rs pos) ∧
    ∃ compact pos, compact.length = 64 ∧ lnMiscSigtrim.run sig = .done compact pos ∧
      lnMiscSigexpand compact = sig :=
  ⟨⟨isValid_expand hlength, lnMiscSigtrim_expand hlength⟩, lnMiscSigexpand_trim hder⟩

/-- `r = 0x80`, which needs its zero in front, and `s = 0`. -/
theorem sigFormats_agree_short :
    let sig : Bytes := [0x30, 0x07, 0x02, 0x02, 0x00, 0x80, 0x02, 0x01, 0x00, 0x01]
    let rs : Bytes := List.replicate 31 0 ++ [0x80] ++ List.replicate 32 0
    (isValidSignatureEncoding (lnMiscSigexpand rs) = true ∧
      ∃ pos, lnMiscSigtrim.run (lnMiscSigexpand rs) = .done rs pos) ∧
    ∃ compact pos, compact.length = 64 ∧ lnMiscSigtrim.run sig = .done compact pos ∧
      lnMiscSigexpand compact = sig :=
  sigFormats_agree (by decide) ⟨⟨[0x00, 0x80], ⟨by decide, by decide, by decide⟩, by decide⟩,
    ⟨[0x00], ⟨by decide, by decide, by decide⟩, by decide⟩, by decide⟩

end SigFormat

end Ptarmigan
