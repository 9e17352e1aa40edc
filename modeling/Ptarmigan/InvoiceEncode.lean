/-
Writing an invoice: `ln_invoice_encode` with the buffers it writes into, and how each of its
fields is read back.
-/
import Ptarmigan.Invoice

namespace Ptarmigan

namespace Invoice

open WireReader Bech32 RecoverPubkey Routing

/-- How `ln_invoice_encode` comes to no string: it refuses, an assertion fails, or it writes behind
a buffer. -/
inductive Failure
  | refused
  | aborted
  | exceeded
deriving DecidableEq, Repr

def require (cond : Bool) (failure : Failure) : Except Failure Unit :=
  if cond then .ok () else .error failure

def given {α : Type} : Option α → Except Failure α
  | some value => .ok value
  | none => .error .refused

/-! ### Writing -/

/-- The loop of `ln_convert64_to8`: the lowest group first, until nothing is left. -/
def lowGroups : Nat → Nat → List UInt8
  | 0, _ => []
  | turns + 1, val =>
      (val &&& 0x1f).toUInt8 :: if val >>> 5 = 0 then [] else lowGroups turns (val >>> 5)

/-- `ln_convert64_to8`.  When eight groups are not enough, it turns what stood behind them round
as well. -/
def lnConvert64To8 (behind : UInt8) (val : Nat) : List UInt8 :=
  let low := lowGroups 8 val
  (if val >>> 40 = 0 then low else low ++ [behind]).reverse

/-- The digits of a number below `10 ^ turns`. -/
def decimal : Nat → Nat → Bytes
  | 0, _ => []
  | turns + 1, value =>
      if value < 10 then [(0x30 + value).toUInt8]
      else decimal turns (value / 10) ++ [(0x30 + value % 10).toUInt8]

/-- The greatest unit that an amount is a multiple of, and how many of it. -/
def unitOf (amountMsat : UInt64) : UInt64 × UInt8 :=
  if amountMsat / 100000000 * 100000000 = amountMsat then (amountMsat / 100000000, 0x6d)
  else if amountMsat / 100000 * 100000 = amountMsat then (amountMsat / 100000, 0x75)
  else if amountMsat / 100 * 100 = amountMsat then (amountMsat / 100, 0x6e)
  else (amountMsat * 10, 0x70)

/-- `amount_str`, without the zero behind it. -/
def amountStr (amountMsat : UInt64) : Bytes :=
  if 0 < amountMsat then decimal 20 (unitOf amountMsat).1.toNat ++ [(unitOf amountMsat).2] else []

/-- `M_INVOICE_DESCRIPTION`. -/
def description : Bytes := ascii ['p', 't', 'a', 'r', 'm', 'i', 'g', 'a', 'n']

/-- Groups of five bits from bytes. -/
def groupsOf (data : Bytes) : List UInt8 :=
  (lnConvertBits 5 data 8 true).1

/-- A number as a field of its own, unless it is the default. -/
def numberField (tag behind : UInt8) (value default : UInt32) : List UInt8 :=
  if value = default then []
  else
    let groups := lnConvert64To8 behind value.toNat
    [tag, 0, groups.length.toUInt8] ++ groups

def fieldRBytes (hop : FieldR) : Bytes :=
  hop.nodeId ++ (BigEndian.encode 8 hop.shortChannelId.toNat ++
    (BigEndian.encode 4 hop.feeBaseMsat.toNat ++ (BigEndian.encode 4 hop.feePropMillionths.toNat ++
      BigEndian.encode 2 hop.cltvExpiryDelta.toNat)))

/-- The field of the hops; `bits` is how many groups they need. -/
def rFieldGroups (rField : List FieldR) : List UInt8 :=
  if rField = [] then []
  else
    let bits := (408 * rField.length + 4) / 5
    let p32 := bits / 32
    [3, p32.toUInt8, (bits - p32 * 32).toUInt8] ++ groupsOf (rField.flatMap fieldRBytes)

/-- What is signed: the timestamp and the tagged fields. -/
def unsignedGroups (behind : UInt8) (now : Nat) (invoice : LnInvoice) : List UInt8 :=
  lnConvert64To8 behind now ++ (([19, 1, 21] ++ groupsOf invoice.pubkey) ++
    (([1, 1, 20] ++ groupsOf invoice.paymentHash) ++ (([13, 0, 15] ++ groupsOf description) ++
      (numberField 6 behind invoice.expiry lnInvoiceExpiry ++
        (numberField 24 behind invoice.minFinalCltvExpiry lnMinFinalCltvExpiry ++
          rFieldGroups invoice.rField)))))

/-- The signature with the recovery id, when the node signs and its key is the one that is
recovered. -/
def invoiceSignature (env : InvoiceEnv) (pubkey hash : Bytes) : Except Failure Bytes := do
  let sign ← given (env.signNodekey hash)
  match btcTxRecoverPubkeyId env.group pubkey sign hash with
  | .aborted => .error .aborted
  | .notFound => .error .refused
  | .found recid _ => pure (sign.take 64 ++ [recid.toUInt8])

/-- The sizes of `hrp`, `hashdata` and the string. -/
def hrpBufSize : Nat := 128
def hashdataSize : Nat := 1024
def invoiceSize : Nat := 2048

/-- A network that an invoice can be for. -/
def hrpTypeOk (hrpType : UInt8) : Bool :=
  decide (lnInvoiceMainnet ≤ hrpType) && decide (hrpType ≤ lnInvoiceRegtest)

/-- `ln_invoice_encode` at a time; `behind` is what stood in `data` behind eight groups. -/
def lnInvoiceEncode (env : InvoiceEnv) (behind : UInt8) (now : Nat) (invoice : LnInvoice) :
    Except Failure Bytes := do
  require (hrpTypeOk invoice.hrpType) .refused
  let amount := amountStr invoice.amountMsat
  require (decide (amount.length < amountStrSize)) .exceeded
  let hrp := lnHrpStr invoice.hrpType ++ amount
  require (decide (hrp.length < hrpBufSize)) .exceeded
  let data := unsignedGroups behind now invoice
  require (decide (data.length ≤ dataSize)) .exceeded
  require (decide (hrp.length + (lnConvertBits 8 data 5 true).1.length ≤ hashdataSize)) .exceeded
  let sign ← invoiceSignature env invoice.pubkey (signedHash env hrp data)
  let data := data ++ groupsOf sign
  require (decide (data.length ≤ dataSize)) .exceeded
  given (btcBech32Encode invoiceSize hrp data true)

/-! ### Groups and bytes -/

theorem below_256 (bytes : List UInt8) : Radix.Below (2 ^ 8) bytes :=
  fun byte _ => byte.toNat_lt

/-- With padding, the last group is filled up with zeros. -/
theorem lnConvertBits_value {outbits inbits : Nat} (hpos : 0 < outbits) (hbyte : outbits ≤ 8)
    (hin : inbits ≤ 8) {values : List UInt8} (hvalues : Radix.Below (2 ^ inbits) values) :
    Radix.Below (2 ^ outbits) (lnConvertBits outbits values inbits true).1 ∧
      ∃ pad, (lnConvertBits outbits values inbits true).1.length * outbits =
        values.length * inbits + pad ∧
        Radix.value (2 ^ outbits) (lnConvertBits outbits values inbits true).1 =
          Radix.value (2 ^ inbits) values * 2 ^ pad := by
  have hholds := conversion_holds hpos hbyte hin values
  rw [lnConvertBits]
  generalize values.foldl (Conversion.push outbits inbits) ⟨0, 0, []⟩ = conv at hholds
  have hvalue := hholds.value hvalues
  have hlength := hholds.length
  have hbits := hholds.bits
  by_cases hzero : conv.bits = 0
  · rw [hzero, Nat.pow_zero, Nat.mul_one, Nat.mod_one, Nat.add_zero] at hvalue
    rw [hzero, Nat.add_zero] at hlength
    simp only [hzero, ne_eq, not_true, if_false, if_true, List.append_nil]
    exact ⟨hholds.below, 0, hlength, by rw [hvalue, Nat.pow_zero, Nat.mul_one]⟩
  · have hsplit : 2 ^ outbits = 2 ^ conv.bits * 2 ^ (outbits - conv.bits) := by
      rw [← Nat.pow_add]
      congr 1
      omega
    have hgroup : (conv.padding outbits).toUInt8.toNat =
        conv.val % 2 ^ conv.bits * 2 ^ (outbits - conv.bits) := by
      rw [Conversion.padding, toNat_group hbyte,
        Nat.mod_mod_of_dvd _ (Nat.pow_dvd_pow 2 (by omega : outbits ≤ 32)), Nat.shiftLeft_eq,
        hsplit, Nat.mul_mod_mul_right]
    simp only [hzero, ne_eq, not_false_eq_true, if_true]
    constructor
    · apply hholds.below.append
      intro digit hmem
      rw [List.mem_singleton.mp hmem, Conversion.padding, toNat_group hbyte]
      exact Nat.mod_lt _ (Nat.two_pow_pos outbits)
    · refine ⟨outbits - conv.bits, ?_, ?_⟩
      · rw [List.length_append, List.length_singleton, Nat.add_mul]
        omega
      · rw [Radix.value_append, Radix.value_singleton, hgroup, List.length_singleton, Nat.pow_one,
          ← hvalue, Nat.add_mul, Nat.mul_assoc _ (2 ^ conv.bits), ← hsplit]

theorem groups_groupsOf (data : Bytes) : Groups (groupsOf data) :=
  (lnConvertBits_value (by decide : 0 < 5) (by decide) (by decide : 8 ≤ 8) (below_256 data)).1

theorem length_groupsOf (data : Bytes) : (groupsOf data).length = (data.length * 8 + 4) / 5 :=
  length_lnConvertBits (by decide) (by decide) (by decide) data

/-- What is regrouped is found in front when it is grouped back. -/
theorem lnConvertBits_groupsOf (data : Bytes) :
    (lnConvertBits 8 (groupsOf data) 5 true).1.take data.length = data := by
  obtain ⟨hbelow, pad, hlength, hvalue⟩ :=
    lnConvertBits_value (by decide : 0 < 5) (by decide) (by decide : 8 ≤ 8) (below_256 data)
  obtain ⟨hbelow', pad', hlength', hvalue'⟩ :=
    lnConvertBits_value (by decide : 0 < 8) (by decide) (by decide : 5 ≤ 8) hbelow
  change (lnConvertBits 8 (groupsOf data) 5 true).1.length * 8 = _ at hlength'
  change Radix.value (2 ^ 8) (lnConvertBits 8 (groupsOf data) 5 true).1 = _ at hvalue'
  generalize (lnConvertBits 8 (groupsOf data) 5 true).1 = back at hlength' hvalue'
  have hlong : data.length ≤ back.length := by omega
  have hpad : 2 ^ pad * 2 ^ pad' = (2 ^ 8) ^ (back.length - data.length) := by
    rw [← Nat.pow_add, ← Nat.pow_mul]
    congr 1
    omega
  have hsame : back = data ++ List.replicate (back.length - data.length) 0 := by
    apply Radix.value_injective (below_256 back) (below_256 _)
    · rw [List.length_append, List.length_replicate]
      omega
    · rw [Radix.value_append, Radix.value_replicate_zero, List.length_replicate, hvalue', hvalue,
        Nat.mul_assoc, hpad, Nat.add_zero]
  rw [hsame, List.take_left]

theorem padding_eq_zero_iff {conv : Conversion} (hbits : conv.bits < 8) :
    conv.padding 8 = 0 ↔ conv.val % 2 ^ conv.bits = 0 := by
  have hsplit : 2 ^ 8 = 2 ^ conv.bits * 2 ^ (8 - conv.bits) := by
    rw [← Nat.pow_add]
    congr 1
    omega
  have hpadding : conv.padding 8 = conv.val % 2 ^ conv.bits * 2 ^ (8 - conv.bits) := by
    rw [Conversion.padding, Nat.and_two_pow_sub_one_eq_mod,
      Nat.mod_mod_of_dvd _ (Nat.pow_dvd_pow 2 (by decide : 8 ≤ 32)), Nat.shiftLeft_eq, hsplit,
      Nat.mul_mod_mul_right]
  rw [hpadding, Nat.mul_eq_zero]
  exact or_iff_left (Nat.two_pow_pos _).ne'

/-- Without padding, exactly the groups of bytes are grouped into bytes. -/
theorem lnConvertBits_exact_iff {groups data : List UInt8} (hgroups : Groups groups) :
    lnConvertBits 8 groups 5 false = (data, true) ↔ groupsOf data = groups := by
  have hholds := conversion_holds (by decide : 0 < 8) (by decide) (by decide : 5 ≤ 8) groups
  obtain ⟨-, pad, hpad, hmade⟩ := lnConvertBits_value (by decide : 0 < 5) (by decide)
    (by decide : 8 ≤ 8) (below_256 data)
  change (groupsOf data).length * 5 = data.length * 8 + pad at hpad
  change Radix.value (2 ^ 5) (groupsOf data) = Radix.value (2 ^ 8) data * 2 ^ pad at hmade
  have hcount := length_groupsOf data
  rw [lnConvertBits]
  generalize groups.foldl (Conversion.push 8 5) ⟨0, 0, []⟩ = conv at hholds
  have hbits := hholds.bits
  have hlength := hholds.length
  have hvalue := hholds.value hgroups
  simp only [Bool.false_eq_true, if_false, Prod.mk.injEq, Bool.and_eq_true, decide_eq_true_eq,
    padding_eq_zero_iff hbits]
  constructor
  · rintro ⟨rfl, hzero, hless⟩
    have hsame : pad = conv.bits := by omega
    rw [hzero, Nat.add_zero] at hvalue
    have hboth : Radix.value (2 ^ 5) (groupsOf conv.out) = Radix.value (2 ^ 5) groups := by
      rw [← hvalue, hmade, hsame]
    exact Radix.value_injective (groups_groupsOf conv.out) hgroups (by omega) hboth
  · rintro rfl
    have hsame : conv.bits = pad := by omega
    have hsize : conv.out.length = data.length := by omega
    rw [hmade, ← hsame] at hvalue
    have hlt := Nat.mod_lt conv.val (Nat.two_pow_pos conv.bits)
    have hzero : conv.val % 2 ^ conv.bits = 0 := by
      have hmod := congrArg (· % 2 ^ conv.bits) hvalue
      simpa [Nat.mul_add_mod', Nat.mod_eq_of_lt hlt] using hmod
    rw [hzero, Nat.add_zero] at hvalue
    exact ⟨Radix.value_injective hholds.below (below_256 data) hsize
      (Nat.eq_of_mul_eq_mul_right (Nat.two_pow_pos _) hvalue), hzero, by omega⟩

theorem lnConvertBits_exact (data : Bytes) :
    lnConvertBits 8 (groupsOf data) 5 false = (data, true) :=
  (lnConvertBits_exact_iff (groups_groupsOf data)).mpr rfl

/-! ### Numbers -/

/-- Numbers of as many digits as needed, the lowest first. -/
theorem lowGroups_spec {turns val : Nat} (hval : val < 32 ^ turns) :
    Groups (lowGroups turns val).reverse ∧ Radix.value 32 (lowGroups turns val).reverse = val := by
  induction turns generalizing val with
  | zero =>
      have hzero : val = 0 := by simpa using hval
      exact ⟨Radix.below_nil, hzero.symm⟩
  | succ turns ih =>
      have hgroup : (val &&& 0x1f).toUInt8.toNat = val % 32 := toNat_group (by decide : 5 ≤ 8) val
      have hdiv : val >>> 5 = val / 32 := Nat.shiftRight_eq_div_pow val 5
      have hsingle : Groups [(val &&& 0x1f).toUInt8] := by
        intro value hmem
        rw [List.mem_singleton.mp hmem, hgroup]
        exact Nat.mod_lt val (by decide)
      rw [lowGroups, hdiv, List.reverse_cons]
      by_cases hzero : val / 32 = 0
      · rw [if_pos hzero, List.reverse_nil, List.nil_append]
        refine ⟨hsingle, ?_⟩
        rw [Radix.value_singleton, hgroup]
        omega
      · have hrest := @ih (val / 32) (by rw [Nat.pow_succ] at hval; omega)
        rw [if_neg hzero]
        refine ⟨Radix.Below.append hrest.1 hsingle, ?_⟩
        rw [Radix.value_append, hrest.2, Radix.value_singleton, hgroup, List.length_singleton,
          Nat.pow_one]
        omega

theorem length_lowGroups_le_iff {turns val : Nat} (hval : val < 32 ^ turns) (count : Nat) :
    (lowGroups turns val).length ≤ count + 1 ↔ val < 32 ^ (count + 1) := by
  induction turns generalizing val count with
  | zero =>
      have hzero : val = 0 := by simpa using hval
      simp [lowGroups, hzero]
  | succ turns ih =>
      have hdiv : val >>> 5 = val / 32 := Nat.shiftRight_eq_div_pow val 5
      have hrest : val / 32 < 32 ^ turns := by
        rw [Nat.pow_succ] at hval
        omega
      have hpow : val / 32 < 32 ^ count ↔ val < 32 ^ (count + 1) := by
        rw [Nat.pow_succ]
        exact Nat.div_lt_iff_lt_mul (by decide)
      rw [lowGroups, hdiv, List.length_cons, ← hpow, Nat.add_le_add_iff_right]
      by_cases hzero : val / 32 = 0
      · simp [hzero]
      · rw [if_neg hzero]
        cases count with
        | zero =>
            cases turns with
            | zero => omega
            | succ turns =>
                simp only [lowGroups, List.length_cons]
                omega
        | succ count => exact ih hrest count

/-- The groups of a number, and how many there are. -/
theorem lnConvert64To8_spec (behind : UInt8) {val : Nat} (hval : val < 32 ^ 8) :
    Groups (lnConvert64To8 behind val) ∧ Radix.value 32 (lnConvert64To8 behind val) = val ∧
      ∀ count, (lnConvert64To8 behind val).length ≤ count + 1 ↔ val < 32 ^ (count + 1) := by
  have hzero : val >>> 40 = 0 := by
    rw [Nat.shiftRight_eq_div_pow]
    exact Nat.div_eq_of_lt hval
  have hspec := lowGroups_spec hval
  have hconvert : lnConvert64To8 behind val = (lowGroups 8 val).reverse := by
    simp only [lnConvert64To8, hzero, if_true]
  rw [hconvert, List.length_reverse]
  exact ⟨hspec.1, hspec.2, length_lowGroups_le_iff hval⟩

/-- Groups are read as the number that they stand for. -/
theorem lnConvertBe64_toNat {groups : List UInt8} (hgroups : Groups groups) :
    (lnConvertBe64 groups).toNat = Radix.value 32 groups % 2 ^ 64 := by
  induction groups using List.reverseRecOn with
  | nil => rfl
  | append_singleton groups group ih =>
      have hgroup : group.toNat < 2 ^ 5 := hgroups group (by simp)
      have hbefore := ih fun digit hmem => hgroups digit (List.mem_append_left _ hmem)
      have hstep : lnConvertBe64 (groups ++ [group]) =
          lnConvertBe64 groups <<< 5 ||| group.toUInt64 := List.foldl_append
      have hshift : (lnConvertBe64 groups <<< 5 ||| group.toUInt64).toNat =
          ((lnConvertBe64 groups).toNat <<< 5) % 2 ^ 64 ||| group.toNat := by
        rw [UInt64.toNat_or, UInt64.toNat_shiftLeft]
        rfl
      rw [hstep, hshift, shiftLeft_or hgroup (by decide), hbefore, Radix.value_append,
        Radix.value_singleton, List.length_singleton, Nat.pow_one]
      omega

theorem lnConvertBe64_convert (behind : UInt8) {val : Nat} (hval : val < 32 ^ 8) :
    lnConvertBe64 (lnConvert64To8 behind val) = UInt64.ofNat val := by
  have hspec := lnConvert64To8_spec behind hval
  apply UInt64.toNat.inj
  rw [lnConvertBe64_toNat hspec.1, hspec.2.1]
  rfl

/-! ### Amounts -/

/-- The digits that stand for a number. -/
structure Decimal (value : Nat) (digits : Bytes) : Prop where
  nonempty : digits ≠ []
  digit : ∀ ch ∈ digits, isDigit ch = true
  reads : digitsValue digits = value
  first : digits.headD 0 = 0x30 ↔ value = 0

theorem decimal_spec {turns value : Nat} (hturns : 0 < turns) (hvalue : value < 10 ^ turns) :
    Decimal value (decimal turns value) := by
  induction turns generalizing value with
  | zero => exact absurd hturns (Nat.lt_irrefl 0)
  | succ turns ih =>
      have hdigit : ∀ digit, digit < 10 → isDigit (0x30 + digit).toUInt8 = true ∧
          (0x30 + digit).toUInt8.toNat = 0x30 + digit := by decide
      by_cases hsmall : value < 10
      · rw [decimal, if_pos hsmall]
        have hspec := hdigit value hsmall
        constructor
        · exact List.cons_ne_nil _ _
        · intro ch hmem
          rw [List.mem_singleton.mp hmem]
          exact hspec.1
        · change 0 * 10 + ((0x30 + value).toUInt8.toNat - 0x30) = value
          omega
        · have hinj : (0x30 + value).toUInt8 = 0x30 ↔ (0x30 + value).toUInt8.toNat = 0x30 :=
            UInt8.toNat_inj.symm
          rw [List.headD_cons, hinj, hspec.2]
          omega
      · have hrest : value / 10 < 10 ^ turns := by
          rw [Nat.pow_succ] at hvalue
          omega
        have hpos : 0 < turns := by
          cases turns with
          | zero => omega
          | succ turns => exact Nat.succ_pos turns
        have hfront := ih hpos hrest
        have hspec := hdigit (value % 10) (Nat.mod_lt value (by decide))
        rw [decimal, if_neg hsmall]
        constructor
        · simp
        · intro ch hmem
          rcases List.mem_append.mp hmem with hmem | hmem
          · exact hfront.digit ch hmem
          · rw [List.mem_singleton.mp hmem]
            exact hspec.1
        · have hstep : ∀ front ch, digitsValue (front ++ [ch]) =
              digitsValue front * 10 + (ch.toNat - 0x30) := fun front ch => List.foldl_append
          rw [hstep, hfront.reads, hspec.2]
          omega
        · have hhead : (decimal turns (value / 10) ++ [(0x30 + value % 10).toUInt8]).headD 0 =
              (decimal turns (value / 10)).headD 0 := by
            obtain ⟨first, others, hcons⟩ := List.exists_cons_of_ne_nil hfront.nonempty
            rw [hcons]
            rfl
          rw [hhead, hfront.first]
          omega

theorem length_decimal_le_iff {turns value : Nat} (hvalue : value < 10 ^ turns) (count : Nat) :
    (decimal turns value).length ≤ count + 1 ↔ value < 10 ^ (count + 1) := by
  induction turns generalizing value count with
  | zero =>
      have hzero : value = 0 := by simpa using hvalue
      simp [decimal, hzero]
  | succ turns ih =>
      have hrest : value / 10 < 10 ^ turns := by
        rw [Nat.pow_succ] at hvalue
        omega
      have hpow : value / 10 < 10 ^ count ↔ value < 10 ^ (count + 1) := by
        rw [Nat.pow_succ]
        exact Nat.div_lt_iff_lt_mul (by decide)
      rw [decimal, ← hpow]
      by_cases hsmall : value < 10
      · have hzero : value / 10 = 0 := Nat.div_eq_of_lt hsmall
        simp [hsmall, hzero]
      · rw [if_neg hsmall, List.length_append, List.length_singleton, Nat.add_le_add_iff_right]
        cases count with
        | zero =>
            cases turns with
            | zero => omega
            | succ turns =>
                have hnonempty : decimal (turns + 1) (value / 10) ≠ [] :=
                  (decimal_spec (Nat.succ_pos turns) hrest).nonempty
                have hpos := List.length_pos_iff.mpr hnonempty
                omega
        | succ count => exact ih hrest count

/-- `amount_str` has room for the amount: at most 18 digits, with the unit and a zero behind. -/
def AmountFits (amountMsat : UInt64) : Prop :=
  amountMsat % 100 = 0 ∨ amountMsat * 10 < 1000000000000000000

/-- An amount that is not lost on the way through tenths, in the arithmetic of a `double`. -/
def AmountKept (amountMsat : UInt64) : Prop :=
  amountMsat % 100 = 0 ∨ scale 0x70 (amountMsat * 10) = some amountMsat

theorem div_mul_eq_iff (amount unit : UInt64) :
    amount / unit * unit = amount ↔ amount.toNat % unit.toNat = 0 := by
  have hle := Nat.div_mul_le_self amount.toNat unit.toNat
  have hlt := amount.toNat_lt
  have hsplit := Nat.div_add_mod amount.toNat unit.toNat
  rw [Nat.mul_comm] at hsplit
  rw [← UInt64.toNat_inj, UInt64.toNat_mul, UInt64.toNat_div, Nat.mod_eq_of_lt (by omega)]
  omega

theorem mod_100_iff (amount : UInt64) : amount % 100 = 0 ↔ amount.toNat % 100 = 0 := by
  rw [← UInt64.toNat_inj, UInt64.toNat_mod]
  rfl

/-- A multiple of 100 is written in a unit that gives it back. -/
theorem unitOf_spec {amount : UInt64} (hmultiple : amount % 100 = 0) (hpos : 0 < amount.toNat) :
    0 < (unitOf amount).1.toNat ∧ (unitOf amount).1.toNat < 10 ^ 18 ∧
      scale (unitOf amount).2 (unitOf amount).1 = some amount := by
  have hlt := amount.toNat_lt
  have hsmall : ∀ unit : UInt64, 100 ≤ unit.toNat → amount.toNat % unit.toNat = 0 →
      0 < (amount / unit).toNat ∧ (amount / unit).toNat < 10 ^ 18 := by
    intro unit hunit hmod
    rw [UInt64.toNat_div]
    constructor
    · exact Nat.div_pos (Nat.le_of_dvd hpos (Nat.dvd_of_mod_eq_zero hmod)) (by omega)
    · apply Nat.div_lt_of_lt_mul
      omega
  rw [unitOf]
  split
  next hunit =>
    have hmod := (div_mul_eq_iff amount 100000000).mp hunit
    exact ⟨(hsmall _ (by decide) hmod).1, (hsmall _ (by decide) hmod).2, congrArg some hunit⟩
  split
  next hunit =>
    have hmod := (div_mul_eq_iff amount 100000).mp hunit
    exact ⟨(hsmall _ (by decide) hmod).1, (hsmall _ (by decide) hmod).2, congrArg some hunit⟩
  split
  next hunit =>
    have hmod := (div_mul_eq_iff amount 100).mp hunit
    exact ⟨(hsmall _ (by decide) hmod).1, (hsmall _ (by decide) hmod).2, congrArg some hunit⟩
  next hunit =>
    exact absurd ((div_mul_eq_iff amount 100).mpr ((mod_100_iff amount).mp hmultiple)) hunit

theorem unitOf_of_not {amount : UInt64} (hnot : ¬ amount % 100 = 0) :
    unitOf amount = (amount * 10, 0x70) := by
  have hmod : ¬ amount.toNat % 100 = 0 := fun hmod => hnot ((mod_100_iff amount).mpr hmod)
  have hunit : ∀ unit : UInt64, 100 ∣ unit.toNat → ¬ amount / unit * unit = amount := by
    intro unit hdvd heq
    have hzero := (div_mul_eq_iff amount unit).mp heq
    exact hmod (Nat.mod_eq_zero_of_dvd
      (Nat.dvd_trans hdvd (Nat.dvd_of_mod_eq_zero hzero)))
  rw [unitOf, if_neg (hunit _ (by decide)), if_neg (hunit _ (by decide)),
    if_neg (hunit _ (by decide))]

theorem length_amountStr_lt_iff (amount : UInt64) :
    (amountStr amount).length < amountStrSize ↔ AmountFits amount := by
  by_cases hpos : 0 < amount
  · have hvalue : (unitOf amount).1.toNat < 10 ^ 20 :=
      Nat.lt_trans (unitOf amount).1.toNat_lt (by decide)
    have hlength : (amountStr amount).length < amountStrSize ↔
        (unitOf amount).1.toNat < 10 ^ 18 := by
      rw [amountStr, if_pos hpos, List.length_append, List.length_singleton, amountStrSize,
        ← length_decimal_le_iff hvalue 17]
      omega
    rw [hlength]
    by_cases hmultiple : amount % 100 = 0
    · have hunit := (unitOf_spec hmultiple (UInt64.lt_iff_toNat_lt.mp hpos)).2.1
      simp only [AmountFits, hmultiple, hunit, true_or]
    · rw [unitOf_of_not hmultiple, AmountFits, or_iff_right hmultiple, UInt64.lt_iff_toNat_lt]
      rfl
  · have hzero : amount = 0 := UInt64.le_antisymm (UInt64.not_lt.mp hpos) (UInt64.zero_le)
    subst hzero
    exact iff_of_true (by decide) (Or.inl (by decide))

theorem digitsOk_decimal {value : Nat} {digits : Bytes} (hdigits : Decimal value digits)
    (unit : UInt8) : digitsOk (digits ++ [unit]) = decide (value ≠ 0) := by
  have hfirst := hdigits.first
  have hdigit := hdigits.digit
  obtain ⟨first, others, hcons⟩ := List.exists_cons_of_ne_nil hdigits.nonempty
  subst hcons
  have hothers : others.all isDigit = true :=
    List.all_eq_true.mpr fun ch hmem => hdigit ch (List.mem_cons_of_mem _ hmem)
  have hrange := hdigit first (List.mem_cons_self ..)
  simp only [isDigit, Bool.and_eq_true, decide_eq_true_eq] at hrange
  rw [List.headD_cons] at hfirst
  have hone : 0x31 ≤ first ↔ value ≠ 0 := by
    rw [ne_eq, ← hfirst]
    constructor
    · rintro hle rfl
      exact absurd hle (by decide)
    · intro hne
      have hnat : first.toNat ≠ 0x30 := fun heq => hne (UInt8.toNat.inj heq)
      have hle := UInt8.le_iff_toNat_le.mp hrange.1
      change 0x30 ≤ first.toNat at hle
      apply UInt8.le_iff_toNat_le.mpr
      change 0x31 ≤ first.toNat
      omega
  simp only [digitsOk, List.cons_append, List.headD_cons, List.tail_cons, List.dropLast_concat,
    hothers, hrange.2, decide_true, Bool.and_true, hone]

/-- A written amount is read without a fault, and as itself when it is kept. -/
theorem readAmount_amountStr {amount : UInt64} (hfits : AmountFits amount) :
    (readAmount (amountStr amount) = refuse () ∧ ¬ AmountKept amount) ∨
      ∃ read, readAmount (amountStr amount) = pure read ∧
        (read = amount ↔ AmountKept amount) := by
  by_cases hpos : 0 < amount
  · have hvalue : (unitOf amount).1.toNat < 10 ^ 20 :=
      Nat.lt_trans (unitOf amount).1.toNat_lt (by decide)
    have hdigits := decimal_spec (by decide : 0 < 20) hvalue
    have hshort := (length_amountStr_lt_iff amount).mpr hfits
    have hstr : amountStr amount =
        decimal 20 (unitOf amount).1.toNat ++ [(unitOf amount).2] := by
      rw [amountStr, if_pos hpos]
    have hread : strtoull (decimal 20 (unitOf amount).1.toNat) = (unitOf amount).1 := by
      have hlt := (unitOf amount).1.toNat_lt
      rw [strtoull, hdigits.reads, Nat.min_eq_left (by omega), UInt64.ofNat_toNat]
    have hlong : ¬ amountStrSize < (amountStr amount).length := by omega
    rw [hstr] at hlong
    rw [hstr, readAmount, if_neg (by simp), digitsOk_decimal hdigits, List.getLastD_concat,
      List.dropLast_concat, hread, if_neg hlong]
    by_cases hmultiple : amount % 100 = 0
    · have hunit := unitOf_spec hmultiple (UInt64.lt_iff_toNat_lt.mp hpos)
      right
      refine ⟨amount, ?_, iff_of_true rfl (Or.inl hmultiple)⟩
      rw [hunit.2.2, if_neg (by simpa using Nat.pos_iff_ne_zero.mp hunit.1)]
    · have hscale : scale 0x70 (amount * 10) =
          some ((amount * 10).toFloat * 0.1).toUInt64 := rfl
      rw [unitOf_of_not hmultiple]
      simp only [AmountKept, hmultiple, false_or, hscale, Option.some.injEq]
      by_cases hzero : (amount * 10).toNat = 0
      · have hten : amount * 10 = 0 := UInt64.toNat.inj hzero
        have hnothing : ((0 : UInt64).toFloat * 0.1).toUInt64 = 0 := by decide +kernel
        left
        rw [hten, hnothing, if_pos (by decide)]
        refine ⟨rfl, ?_⟩
        rintro rfl
        exact absurd hpos (by decide)
      · right
        rw [if_neg (by simpa using hzero)]
        exact ⟨_, rfl, Iff.rfl⟩
  · have hzero : amount = 0 := UInt64.le_antisymm (UInt64.not_lt.mp hpos) (UInt64.zero_le)
    subst hzero
    exact Or.inr ⟨0, rfl, iff_of_true rfl (Or.inl (by decide))⟩

end Invoice

end Ptarmigan
