/-
Numbers that are not negative as the contents of a DER integer: the shortest bytes whose highest
bit is not set.
-/
import Ptarmigan.Library.BigEndian

namespace DerInteger

/-- Without leading zeros; the last byte stays. -/
def strip : List UInt8 → List UInt8
  | [] => []
  | [byte] => [byte]
  | byte :: next :: rest => if byte = 0 then strip (next :: rest) else byte :: next :: rest

/-- A zero in front when the highest bit would be taken for a sign. -/
def signed (body : List UInt8) : List UInt8 :=
  if 0x80 ≤ body.headD 0 then 0 :: body else body

/-- Zeros in front up to a width. -/
def padTo (width : Nat) (body : List UInt8) : List UInt8 :=
  List.replicate (width - body.length) 0 ++ body

/-- No negative number, and no byte that can be left out. -/
structure Shortest (content : List UInt8) : Prop where
  nonempty : content ≠ []
  notNegative : content.headD 0 < 0x80
  noneToSpare : 1 < content.length → content.headD 0 = 0 → 0x80 ≤ content.getD 1 0

theorem strip_zero {rest : List UInt8} (hrest : rest ≠ []) : strip (0 :: rest) = strip rest := by
  cases rest with
  | nil => exact absurd rfl hrest
  | cons next rest => simp [strip]

theorem strip_of_head {byte : UInt8} {rest : List UInt8} (hbyte : byte ≠ 0) :
    strip (byte :: rest) = byte :: rest := by
  cases rest with
  | nil => rfl
  | cons next rest => simp [strip, hbyte]

theorem strip_ne_nil {body : List UInt8} (hbody : body ≠ []) : strip body ≠ [] := by
  induction body with
  | nil => exact absurd rfl hbody
  | cons byte rest ih =>
      by_cases hlast : rest = []
      · simp [hlast, strip]
      · by_cases hzero : byte = 0
        · rw [hzero, strip_zero hlast]
          exact ih hlast
        · simp [strip_of_head hzero]

theorem length_strip_le (body : List UInt8) : (strip body).length ≤ body.length := by
  induction body with
  | nil => exact Nat.le_refl 0
  | cons byte rest ih =>
      by_cases hlast : rest = []
      · simp [hlast, strip]
      · by_cases hzero : byte = 0
        · rw [hzero, strip_zero hlast]
          exact Nat.le_succ_of_le ih
        · rw [strip_of_head hzero]

/-- What is left begins with a zero only when it is nothing but that zero. -/
theorem head_strip (body : List UInt8) (hzero : (strip body).headD 0 = 0) :
    (strip body).length ≤ 1 := by
  induction body with
  | nil => exact Nat.zero_le 1
  | cons byte rest ih =>
      by_cases hlast : rest = []
      · simp [hlast, strip]
      · by_cases hbyte : byte = 0
        · rw [hbyte, strip_zero hlast] at hzero ⊢
          exact ih hzero
        · rw [strip_of_head hbyte] at hzero
          exact absurd hzero hbyte

theorem strip_of_short {body : List UInt8} (hshort : body.length ≤ 1) : strip body = body := by
  match body with
  | [] => rfl
  | [_] => rfl
  | _ :: _ :: _ => simp at hshort

theorem strip_strip (body : List UInt8) : strip (strip body) = strip body := by
  by_cases hzero : (strip body).headD 0 = 0
  · exact strip_of_short (head_strip body hzero)
  · cases hleft : strip body with
    | nil => rfl
    | cons byte rest =>
        rw [hleft] at hzero
        exact strip_of_head hzero

/-- Zeros in front are left out again. -/
theorem strip_padTo (width : Nat) {body : List UInt8} (hbody : body ≠ []) :
    strip (padTo width body) = strip body := by
  have hzeros : ∀ count, strip (List.replicate count 0 ++ body) = strip body := by
    intro count
    induction count with
    | zero => rfl
    | succ count ih =>
        have hne : List.replicate count 0 ++ body ≠ [] := by simp [hbody]
        rw [List.replicate_succ, List.cons_append, strip_zero hne, ih]
  exact hzeros _

/-- The zeros that were left out are put back. -/
theorem padTo_strip (body : List UInt8) : padTo body.length (strip body) = body := by
  induction body with
  | nil => rfl
  | cons byte rest ih =>
      by_cases hlast : rest = []
      · simp [hlast, strip, padTo]
      · by_cases hbyte : byte = 0
        · have hlength : rest.length + 1 - (strip rest).length =
              rest.length - (strip rest).length + 1 :=
            Nat.succ_sub (length_strip_le rest)
          rw [hbyte, strip_zero hlast, padTo, List.length_cons, hlength, List.replicate_succ,
            List.cons_append]
          exact congrArg (0 :: ·) ih
        · simp [strip_of_head hbyte, padTo]

theorem strip_signed (body : List UInt8) : strip (signed body) = strip body := by
  by_cases hsign : 0x80 ≤ body.headD 0
  · have hbody : body ≠ [] := by
      rintro rfl
      exact absurd hsign (by decide)
    rw [signed, if_pos hsign, strip_zero hbody]
  · rw [signed, if_neg hsign]

theorem length_signed (body : List UInt8) :
    (signed body).length = body.length + if 0x80 ≤ body.headD 0 then 1 else 0 := by
  by_cases hsign : 0x80 ≤ body.headD 0
  · rw [signed, if_pos hsign, if_pos hsign, List.length_cons]
  · rw [signed, if_neg hsign, if_neg hsign, Nat.add_zero]

/-- Stripped and signed, the bytes are the shortest. -/
theorem shortest_signed {body : List UInt8} (hbody : body ≠ []) :
    Shortest (signed (strip body)) := by
  have hleft := strip_ne_nil hbody
  by_cases hsign : 0x80 ≤ (strip body).headD 0
  · rw [signed, if_pos hsign]
    have hzero : (0 : UInt8) < 0x80 := by decide
    refine ⟨by simp, hzero, fun _ _ => ?_⟩
    cases hstrip : strip body with
    | nil => exact absurd hstrip hleft
    | cons byte rest =>
        rw [hstrip] at hsign
        exact hsign
  · rw [signed, if_neg hsign]
    refine ⟨hleft, UInt8.not_le.mp hsign, fun hlong hzero => ?_⟩
    exact absurd (head_strip body hzero) (Nat.not_le.mpr hlong)

/-- The shortest bytes are those that the stripped ones give. -/
theorem Shortest.signed_strip {content : List UInt8} (hshort : Shortest content) :
    signed (strip content) = content := by
  match content, hshort with
  | [], hshort => exact absurd rfl hshort.nonempty
  | [byte], hshort =>
      rw [strip, signed, if_neg (UInt8.not_le.mpr hshort.notNegative)]
  | byte :: next :: rest, hshort =>
      by_cases hzero : byte = 0
      · have hnext : 0x80 ≤ next := hshort.noneToSpare (by simp) hzero
        have hne : next ≠ 0 := by
          rintro rfl
          exact absurd hnext (by decide)
        have hhead : 0x80 ≤ (next :: rest).headD 0 := hnext
        rw [hzero, strip_zero (by simp), strip_of_head hne, signed, if_pos hhead]
      · rw [strip_of_head hzero, signed, if_neg (UInt8.not_le.mpr hshort.notNegative)]

theorem decode_strip (body : List UInt8) :
    BigEndian.decode (strip body) = BigEndian.decode body := by
  induction body with
  | nil => rfl
  | cons byte rest ih =>
      by_cases hlast : rest = []
      · simp [hlast, strip]
      · by_cases hbyte : byte = 0
        · rw [hbyte, strip_zero hlast, ih]
          rfl
        · rw [strip_of_head hbyte]

/-- A number below `256 ^ width` has at most that many bytes without leading zeros. -/
theorem length_strip_of_lt {width : Nat} (hwidth : 0 < width) {body : List UInt8}
    (hfits : BigEndian.decode body < 256 ^ width) : (strip body).length ≤ width := by
  rw [← decode_strip] at hfits
  by_cases hzero : (strip body).headD 0 = 0
  · exact Nat.le_trans (head_strip body hzero) hwidth
  · cases hleft : strip body with
    | nil => exact Nat.zero_le width
    | cons byte rest =>
        rw [hleft] at hzero hfits
        have hstep : BigEndian.decode (byte :: rest) =
            BigEndian.decodeFrom (0 * 256 + byte.toNat) rest := rfl
        have hbyte : 1 ≤ byte.toNat :=
          Nat.one_le_iff_ne_zero.mpr fun h => hzero (UInt8.toNat_inj.mp h)
        rw [hstep, BigEndian.decodeFrom_eq, Nat.zero_mul, Nat.zero_add] at hfits
        by_contra hlong
        have hpow : 256 ^ width ≤ 256 ^ rest.length :=
          Nat.pow_le_pow_right (by decide) (by simp only [List.length_cons] at hlong; omega)
        have hmul : 1 * 256 ^ rest.length ≤ byte.toNat * 256 ^ rest.length :=
          Nat.mul_le_mul_right _ hbyte
        omega

end DerInteger
