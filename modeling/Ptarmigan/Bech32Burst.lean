/-
Damaged bech32 strings.  The checksum is linear in the groups, so a few neighbouring characters
that are changed cannot leave it as it was, and a damaged invoice is not read as another one.
-/
import Mathlib.Data.LawfulXor.Basic
import Ptarmigan.Bech32
import Ptarmigan.InvoiceSafety

namespace Ptarmigan

namespace Bech32

/-! ### The checksum is linear -/

/-- What the five highest bits are folded back to. -/
def foldBack (b : Nat) : Nat :=
  generatorOf b 0 0x3b6a57b2 ^^^ generatorOf b 1 0x26508e6d ^^^ generatorOf b 2 0x1ea119fa ^^^
    generatorOf b 3 0x3d4233dd ^^^ generatorOf b 4 0x2a1462b3

theorem polymodStep_eq (pre : Nat) :
    polymodStep pre = ((pre &&& 0x1FFFFFF) <<< 5) ^^^ foldBack (pre >>> 25) := by
  simp only [polymodStep, foldBack, Nat.xor_assoc]

/-- The five highest bits are known from the five lowest of what they are folded back to. -/
theorem foldBack_fin : ∀ b other : Fin 32,
    foldBack b.val % 32 = foldBack other.val % 32 → b = other := by
  decide +kernel

/-- No step forgets anything. -/
theorem polymodStep_injective {pre other : Nat} (hpre : pre < 2 ^ 30) (hother : other < 2 ^ 30)
    (heq : polymodStep pre = polymodStep other) : pre = other := by
  rw [polymodStep_eq, polymodStep_eq] at heq
  have hlow : ∀ value folded : Nat, (value <<< 5 ^^^ folded) % 2 ^ 5 = folded % 2 ^ 5 := by
    intro value folded
    rw [Nat.xor_mod_two_pow, Nat.shiftLeft_eq, Nat.mul_mod_left, Nat.zero_xor]
  have hhigh : ∀ {value : Nat}, value < 2 ^ 30 → value >>> 25 < 32 := by
    intro value hvalue
    rw [Nat.shiftRight_eq_div_pow]
    omega
  have hfolded : foldBack (pre >>> 25) % 32 = foldBack (other >>> 25) % 32 := by
    have hmod : _ % 2 ^ 5 = _ % 2 ^ 5 := congrArg (· % 2 ^ 5) heq
    rw [hlow, hlow] at hmod
    exact hmod
  have hsame : pre >>> 25 = other >>> 25 :=
    congrArg Fin.val (foldBack_fin ⟨_, hhigh hpre⟩ ⟨_, hhigh hother⟩ hfolded)
  rw [hsame] at heq
  replace heq := (xor_left_involutive _).injective heq
  have hmask : (0x1FFFFFF : Nat) = 2 ^ 25 - 1 := rfl
  rw [hmask, Nat.and_two_pow_sub_one_eq_mod, Nat.and_two_pow_sub_one_eq_mod, Nat.shiftLeft_eq,
    Nat.shiftLeft_eq] at heq
  rw [Nat.shiftRight_eq_div_pow, Nat.shiftRight_eq_div_pow] at hsame
  omega

theorem byte_lt (value : UInt8) : value.toNat < 2 ^ 30 :=
  Nat.lt_trans value.toNat_lt (by decide)

theorem polymod_lt (values : List UInt8) : ∀ {chk : Nat}, chk < 2 ^ 30 →
    polymod chk values < 2 ^ 30 := by
  induction values with
  | nil => exact fun hchk => hchk
  | cons value rest ih =>
      exact fun _ => ih (Nat.xor_lt_two_pow (polymodStep_lt _) (byte_lt value))

/-- What was there before is known from what comes out. -/
theorem polymod_injective (values : List UInt8) : ∀ {chk other : Nat}, chk < 2 ^ 30 →
    other < 2 ^ 30 → polymod chk values = polymod other values → chk = other := by
  induction values with
  | nil => exact fun _ _ heq => heq
  | cons value rest ih =>
      intro chk other hchk hother heq
      have hlt : ∀ pre, polymodStep pre ^^^ value.toNat < 2 ^ 30 :=
        fun pre => Nat.xor_lt_two_pow (polymodStep_lt pre) (byte_lt value)
      have hstep := ih (hlt chk) (hlt other) heq
      exact polymodStep_injective hchk hother
        ((xor_left_involutive _).injective hstep)

theorem polymod_singleton (chk : Nat) (front : List UInt8) (last : UInt8) :
    polymod chk (front ++ [last]) = polymodStep (polymod chk front) ^^^ last.toNat :=
  polymod_append chk front [last]

/-- As long as no group of a difference is folded back, the difference is spelt in the checksum:
it does not depend on what stands before, and is none only between equal groups. -/
theorem polymod_burst {values : List UInt8} : ∀ {others : List UInt8},
    others.length = values.length → values.length ≤ 6 → Groups values → Groups others →
    ∃ error < 2 ^ (5 * values.length), (error = 0 → others = values) ∧
      ∀ chk, polymod chk others = polymod chk values ^^^ error := by
  induction values using List.reverseRecOn with
  | nil =>
      intro others hlength _ _ _
      obtain rfl := List.eq_nil_of_length_eq_zero hlength
      exact ⟨0, Nat.one_pos, fun _ => rfl, fun chk => (Nat.xor_zero _).symm⟩
  | append_singleton front last ih =>
      intro others hlength hshort hvalues hothers
      obtain rfl | ⟨front', last', rfl⟩ := List.eq_nil_or_concat' others
      · simp at hlength
      simp only [List.length_append, List.length_singleton, Nat.add_right_cancel_iff] at hlength
      rw [List.length_append, List.length_singleton] at hshort ⊢
      have hlast : last.toNat < 2 ^ 5 := hvalues last (by simp)
      have hlast' : last'.toNat < 2 ^ 5 := hothers last' (by simp)
      obtain ⟨error, hbound, hnone, hfront⟩ := ih hlength (by omega)
        (fun value hmem => hvalues value (List.mem_append_left _ hmem))
        (fun value hmem => hothers value (List.mem_append_left _ hmem))
      have hsmall : error < 2 ^ 25 :=
        Nat.lt_of_lt_of_le hbound (Nat.pow_le_pow_right (by decide) (by omega))
      have hdiff : last.toNat ^^^ last'.toNat < 2 ^ 5 := Nat.xor_lt_two_pow hlast hlast'
      refine ⟨error <<< 5 ^^^ (last.toNat ^^^ last'.toNat), ?_, fun hzero => ?_, fun chk => ?_⟩
      · have hshifted : error <<< 5 < 2 ^ (5 * (front.length + 1)) := by
          rw [Nat.shiftLeft_eq, Nat.mul_succ 5, Nat.pow_add]
          exact Nat.mul_lt_mul_of_pos_right hbound (by decide)
        exact Nat.xor_lt_two_pow hshifted
          (Nat.lt_of_lt_of_le hdiff (Nat.pow_le_pow_right (by decide) (by omega)))
      · -- the lowest group is the difference of the last ones
        have hshift := xor_eq_zero_iff.mp hzero
        rw [Nat.shiftLeft_eq] at hshift
        have herror : error = 0 := by omega
        have hsame : last.toNat = last'.toNat := by
          apply xor_eq_zero_iff.mp
          omega
        rw [hnone herror, UInt8.toNat.inj hsame]
      · rw [polymod_singleton, polymod_singleton, hfront, polymodStep_xor _ hsmall,
          Nat.xor_left_comm (error <<< 5), ← Nat.xor_assoc _ last.toNat, xor_cancel_right,
          Nat.xor_assoc]

/-! ### What a string spells -/

theorem valueOf_fin : ∀ ch : Fin 256, (valueOf ch.val.toUInt8).all (fun value =>
    decide (value.toNat < 32) && charOf value == lower ch.val.toUInt8) = true := by
  decide +kernel

/-- A character is known from its group but for its case. -/
theorem valueOf_spec {ch value : UInt8} (hvalue : valueOf ch = some value) :
    value.toNat < 32 ∧ charOf value = lower ch := by
  have hfin := valueOf_fin ⟨ch.toNat, ch.toNat_lt⟩
  rw [show ch.toNat.toUInt8 = ch from UInt8.ofNat_toNat, hvalue] at hfin
  simpa using hfin

theorem mapM_valueOf_spec {chars : Bytes} : ∀ {values : List UInt8},
    chars.mapM valueOf = some values → Groups values ∧ values.map charOf = chars.map lower := by
  induction chars with
  | nil =>
      intro values hvalues
      obtain rfl := Option.some.inj hvalues
      exact ⟨fun _ hmem => absurd hmem List.not_mem_nil, rfl⟩
  | cons ch rest ih =>
      intro values hvalues
      rw [List.mapM_cons] at hvalues
      obtain ⟨first, hfirst, hrest⟩ := Option.bind_eq_some_iff.mp hvalues
      obtain ⟨others, hothers, hall⟩ := Option.bind_eq_some_iff.mp hrest
      obtain rfl := Option.some.inj hall
      obtain ⟨hlt, hchar⟩ := valueOf_spec hfirst
      obtain ⟨hgroups, hchars⟩ := ih hothers
      refine ⟨fun value hmem => ?_, ?_⟩
      · rcases List.mem_cons.mp hmem with rfl | hmem
        · exact hlt
        · exact hgroups value hmem
      · rw [List.map_cons, List.map_cons, hchar, hchars]

theorem mapM_valueOf_append {front back : Bytes} {values : List UInt8}
    (hvalues : (front ++ back).mapM valueOf = some values) :
    ∃ first last, front.mapM valueOf = some first ∧ back.mapM valueOf = some last ∧
      values = first ++ last := by
  rw [List.mapM_append] at hvalues
  obtain ⟨first, hfirst, hrest⟩ := Option.bind_eq_some_iff.mp hvalues
  obtain ⟨last, hlast, hall⟩ := Option.bind_eq_some_iff.mp hrest
  exact ⟨first, last, hfirst, hlast, (Option.some.inj hall).symm⟩

/-- Where a string is split: behind its last separator. -/
theorem split_separator (hrp : Bytes) {chars : Bytes} (hchars : separator ∉ chars) :
    behindSeparator (hrp ++ separator :: chars) = chars.length ∧
      (hrp ++ separator :: chars).length - (1 + chars.length) = hrp.length ∧
      (hrp ++ separator :: chars).drop (hrp.length + 1) = chars := by
  refine ⟨behindSeparator_append hrp fun ch hmem => ne_of_mem_of_not_mem hmem hchars, ?_, ?_⟩
  · simp only [List.length_append, List.length_cons]
    omega
  · rw [← List.drop_drop, List.drop_left, List.drop_one, List.tail_cons]

/-- The checksum of a string that is accepted is right. -/
theorem bech32Decode_checked {hrp chars : Bytes} {ln : Bool} {output : Bytes × Bytes}
    (hchars : separator ∉ chars)
    (hdecode : bech32Decode (hrp ++ separator :: chars) ln = some output) :
    ∃ values, chars.mapM valueOf = some values ∧
      polymod (hrpChecksum (hrp.map lower)) values = 1 := by
  obtain ⟨hbehind, hhrpLen, hdrop⟩ := split_separator hrp hchars
  simp only [bech32Decode, hbehind, hhrpLen, List.take_left, hdrop] at hdecode
  cases hvalues : chars.mapM valueOf with
  | none => simp [hvalues] at hdecode
  | some values =>
      refine ⟨values, rfl, ?_⟩
      by_contra hsum
      simp [hvalues, hsum] at hdecode

/-! ### Damaged strings -/

/-- At most six neighbouring characters behind the separator were changed, and not only their
case. -/
structure Burst where
  hrp : Bytes
  front : Bytes
  was : Bytes
  now : Bytes
  back : Bytes
  apart : separator ∉ front ++ was ++ back
  nowApart : separator ∉ now
  length_eq : now.length = was.length
  short : was.length ≤ 6
  differs : now.map lower ≠ was.map lower

namespace Burst

def sent (burst : Burst) : Bytes :=
  burst.hrp ++ separator :: (burst.front ++ burst.was ++ burst.back)

def got (burst : Burst) : Bytes :=
  burst.hrp ++ separator :: (burst.front ++ burst.now ++ burst.back)

variable {burst : Burst} {ln : Bool} {output : Bytes × Bytes}

/-- A checksum is not right before and after the damage. -/
theorem bech32Decode_got
    (hsent : bech32Decode burst.sent ln = some output) : bech32Decode burst.got ln = none := by
  have hapart : separator ∉ burst.front ++ burst.now ++ burst.back := by
    have hsent := burst.apart
    simp only [List.mem_append, not_or] at hsent ⊢
    exact ⟨⟨hsent.1.1, burst.nowApart⟩, hsent.2⟩
  rw [Option.eq_none_iff_forall_ne_some]
  intro other hgot
  obtain ⟨values, hvalues, hsum⟩ := bech32Decode_checked burst.apart hsent
  obtain ⟨values', hvalues', hsum'⟩ := bech32Decode_checked hapart hgot
  obtain ⟨start, back, hstart, hback, rfl⟩ := mapM_valueOf_append hvalues
  obtain ⟨front, was, hfront, hwas, rfl⟩ := mapM_valueOf_append hstart
  obtain ⟨start', back', hstart', hback', rfl⟩ := mapM_valueOf_append hvalues'
  obtain ⟨front', now, hfront', hnow, rfl⟩ := mapM_valueOf_append hstart'
  obtain rfl := Option.some.inj (hback.symm.trans hback')
  obtain rfl := Option.some.inj (hfront.symm.trans hfront')
  obtain ⟨hwasGroups, hwasChars⟩ := mapM_valueOf_spec hwas
  obtain ⟨hnowGroups, hnowChars⟩ := mapM_valueOf_spec hnow
  have hwasLength : was.length = burst.was.length := by
    simpa using congrArg List.length hwasChars
  have hnowLength : now.length = burst.now.length := by
    simpa using congrArg List.length hnowChars
  obtain ⟨error, -, hnone, hpolymod⟩ := polymod_burst
    (hnowLength.trans (burst.length_eq.trans hwasLength.symm))
    (hwasLength.trans_le burst.short) hwasGroups hnowGroups
  -- what stands behind the damage cannot make up for it
  have hbefore : hrpChecksum (burst.hrp.map lower) < 2 ^ 30 := polymod_lt _ (polymodStep_lt _)
  have hsame : polymod (hrpChecksum (burst.hrp.map lower)) (front ++ was) =
      polymod (hrpChecksum (burst.hrp.map lower)) (front ++ now) := by
    apply polymod_injective back (polymod_lt _ hbefore) (polymod_lt _ hbefore)
    rw [← polymod_append, ← polymod_append]
    exact hsum.trans hsum'.symm
  rw [polymod_append, polymod_append, hpolymod] at hsame
  have hzero : error = 0 := xor_left_eq_self_iff.mp hsame.symm
  rw [hnone hzero] at hnowChars
  exact burst.differs (hnowChars.symm.trans hwasChars)

theorem btcBech32Decode_got {hrpLen dataLen : Nat}
    (hsent : btcBech32Decode hrpLen dataLen burst.sent ln = some output) :
    btcBech32Decode hrpLen dataLen burst.got ln = none := by
  have hinner : bech32Decode burst.sent ln = some output := by
    rw [btcBech32Decode] at hsent
    split_ifs at hsent
    exact hsent
  rw [btcBech32Decode, bech32Decode_got hinner]
  split_ifs <;> rfl

end Burst

end Bech32

namespace Invoice

open Bech32

/-- An invoice is not read once it is damaged. -/
theorem lnInvoiceDecode_burst {burst : Burst} {hrp groups : Bytes}
    (hsent : btcBech32Decode hrpSize dataSize burst.sent true = some (hrp, groups))
    (env : InvoiceEnv) (fresh : LnInvoice) (stack : Bytes) (turns : Nat) :
    lnInvoiceDecode env fresh stack turns burst.got = .refused () := by
  rw [lnInvoiceDecode, Burst.btcBech32Decode_got hsent]

/-- A string of zeros, and what six of them have become. -/
def zerosBurst : Burst where
  hrp := ascii ['l', 'n', 'b', 'c']
  front := List.replicate 50 0x71
  was := List.replicate 6 0x71
  now := ascii ['p', 'z', 'r', 'y', '9', 'x']
  back := List.replicate 56 0x71 ++ ascii ['x', 'm', 'j', 'u', 'k', '2']
  apart := by decide +kernel
  nowApart := by decide +kernel
  length_eq := rfl
  short := by decide
  differs := by decide +kernel

theorem lnInvoiceDecode_burst_zeros :
    ∃ hrp groups, btcBech32Decode hrpSize dataSize zerosBurst.sent true = some (hrp, groups) ∧
      lnInvoiceDecode permissive ⟨0, 0, 0, 0, 0, [], [], []⟩ [] 0 zerosBurst.got = .refused () := by
  have hsome : (btcBech32Decode hrpSize dataSize zerosBurst.sent true).isSome = true := by
    decide +kernel
  obtain ⟨⟨hrp, groups⟩, hsent⟩ := Option.isSome_iff_exists.mp hsome
  exact ⟨hrp, groups, hsent, lnInvoiceDecode_burst hsent permissive _ [] 0⟩

end Invoice

end Ptarmigan
