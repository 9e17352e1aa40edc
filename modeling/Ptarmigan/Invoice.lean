/-
Invoices: what a node is asked to pay, as tagged fields in groups of five bits.  Reading one, and
which strings can be read without leaving a buffer.
-/
import Ptarmigan.Bech32
import Ptarmigan.Library.BigEndian
import Ptarmigan.Library.Radix
import Ptarmigan.Library.WireReader
import Ptarmigan.RecoverPubkey
import Ptarmigan.Routing

namespace Ptarmigan

namespace Invoice

open WireReader Bech32 RecoverPubkey Routing

/-- The hash, the node's key and the curve. -/
structure InvoiceEnv where
  sha256 : Bytes → Bytes
  /-- `ln_node_sign_nodekey`, of a hash. -/
  signNodekey : Bytes → Option Bytes
  group : EcpGroup

/-- `ln_invoice_t`. -/
structure LnInvoice where
  hrpType : UInt8
  amountMsat : UInt64
  timestamp : UInt64
  expiry : UInt32
  minFinalCltvExpiry : UInt32
  pubkey : Bytes
  paymentHash : Bytes
  rField : List FieldR
deriving DecidableEq

/-- `LN_INVOICE_MAINNET`, `LN_INVOICE_TESTNET` and `LN_INVOICE_REGTEST`. -/
def lnInvoiceMainnet : UInt8 := 4
def lnInvoiceTestnet : UInt8 := 5
def lnInvoiceRegtest : UInt8 := 6

/-- `ln_hrp_str`. -/
def lnHrpStr (hrpType : UInt8) : Bytes :=
  if hrpType = lnInvoiceMainnet then ascii ['l', 'n', 'b', 'c']
  else if hrpType = lnInvoiceTestnet then ascii ['l', 'n', 't', 'b']
  else ascii ['l', 'n', 'b', 'c', 'r', 't']

/-- `LN_INVOICE_EXPIRY`. -/
def lnInvoiceExpiry : UInt32 := 3600

/-- `LN_MIN_FINAL_CLTV_EXPIRY`. -/
def lnMinFinalCltvExpiry : UInt32 := 9

/-! ### Groups of bits -/

/-- The inner loop of `ln_convert_bits`: what it writes, and the bits that are left. -/
def drain (outbits val : Nat) : Nat → Nat → List UInt8 × Nat
  | 0, bits => ([], bits)
  | turns + 1, bits =>
      if outbits ≤ bits then
        let (out, left) := drain outbits val turns (bits - outbits)
        ((val >>> (bits - outbits) &&& (2 ^ outbits - 1)).toUInt8 :: out, left)
      else ([], bits)

/-- The variables of `ln_convert_bits`. -/
structure Conversion where
  val : Nat
  bits : Nat
  out : List UInt8

/-- One turn of the outer loop; `val` is a `uint32_t`. -/
def Conversion.push (outbits inbits : Nat) (conv : Conversion) (value : UInt8) : Conversion :=
  let val := (conv.val <<< inbits) % 2 ^ 32 ||| value.toNat
  let bits := conv.bits + inbits
  let (out, left) := drain outbits val bits bits
  ⟨val, left, conv.out ++ out⟩

/-- The bits that are left, as a group of their own. -/
def Conversion.padding (outbits : Nat) (conv : Conversion) : Nat :=
  (conv.val <<< (outbits - conv.bits)) % 2 ^ 32 &&& (2 ^ outbits - 1)

/-- `ln_convert_bits`: what is written behind `out`, and the result. -/
def lnConvertBits (outbits : Nat) (values : List UInt8) (inbits : Nat) (pad : Bool) :
    List UInt8 × Bool :=
  let conv := values.foldl (Conversion.push outbits inbits) ⟨0, 0, []⟩
  if pad then
    (conv.out ++ if conv.bits ≠ 0 then [(conv.padding outbits).toUInt8] else [], true)
  else (conv.out, decide (conv.padding outbits = 0) && decide (conv.bits < inbits))

/-- `ln_convert_be64`. -/
def lnConvertBe64 (data : List UInt8) : UInt64 :=
  data.foldl (fun ret value => ret <<< 5 ||| value.toUInt64) 0

/-! ### What regrouping keeps -/

/-- What the inner loop makes of the lowest bits of a value. -/
structure Drained (outbits val bits : Nat) (result : List UInt8 × Nat) : Prop where
  left : result.2 < outbits
  length : result.1.length * outbits + result.2 = bits
  below : Radix.Below (2 ^ outbits) result.1
  value : Radix.value (2 ^ outbits) result.1 * 2 ^ result.2 + val % 2 ^ result.2 = val % 2 ^ bits

theorem toNat_group {outbits : Nat} (hbyte : outbits ≤ 8) (value : Nat) :
    (value &&& (2 ^ outbits - 1)).toUInt8.toNat = value % 2 ^ outbits := by
  have hpow : 2 ^ outbits ≤ 256 := Nat.pow_le_pow_right (by decide) hbyte
  have hlt := Nat.mod_lt value (Nat.two_pow_pos outbits)
  rw [Nat.and_two_pow_sub_one_eq_mod]
  exact Nat.mod_eq_of_lt (Nat.lt_of_lt_of_le hlt hpow)

theorem drain_spec {outbits : Nat} (hpos : 0 < outbits) (hbyte : outbits ≤ 8) (val : Nat)
    {turns bits : Nat} (hturns : bits ≤ turns) :
    Drained outbits val bits (drain outbits val turns bits) := by
  induction turns generalizing bits with
  | zero =>
      have hzero : bits = 0 := Nat.le_zero.mp hturns
      subst hzero
      exact ⟨hpos, by simp [drain], Radix.below_nil, by simp [drain, Radix.value, Radix.valueFrom]⟩
  | succ turns ih =>
      by_cases hfull : outbits ≤ bits
      · have hrest := @ih (bits - outbits) (by omega)
        have hdrain : drain outbits val (turns + 1) bits =
            ((val >>> (bits - outbits) &&& (2 ^ outbits - 1)).toUInt8 ::
              (drain outbits val turns (bits - outbits)).1,
              (drain outbits val turns (bits - outbits)).2) := by
          rw [drain, if_pos hfull]
        generalize drain outbits val turns (bits - outbits) = result at hrest hdrain
        have hgroup := toNat_group hbyte (val >>> (bits - outbits))
        rw [Nat.shiftRight_eq_div_pow] at hgroup
        rw [hdrain, Nat.shiftRight_eq_div_pow]
        constructor
        · exact hrest.left
        · have hlength := hrest.length
          rw [List.length_cons, Nat.add_mul]
          omega
        · intro digit hmem
          rcases List.mem_cons.mp hmem with rfl | hmem
          · rw [hgroup]
            exact Nat.mod_lt _ (Nat.two_pow_pos outbits)
          · exact hrest.below digit hmem
        · have hsplit : 2 ^ bits = 2 ^ (bits - outbits) * 2 ^ outbits := by
            rw [← Nat.pow_add, Nat.sub_add_cancel hfull]
          have hheight : (2 ^ outbits) ^ result.1.length * 2 ^ result.2 = 2 ^ (bits - outbits) := by
            rw [← Nat.pow_mul, ← Nat.pow_add, Nat.mul_comm, hrest.length]
          change Radix.value _ (_ :: result.1) * 2 ^ result.2 + val % 2 ^ result.2 = val % 2 ^ bits
          rw [Radix.value, Radix.valueFrom_cons, Radix.valueFrom_eq, Nat.zero_mul, Nat.zero_add,
            hgroup, hsplit, Nat.mod_mul, ← hrest.value, ← hheight]
          ring
      · rw [drain, if_neg hfull]
        exact ⟨Nat.not_le.mp hfull, by simp, Radix.below_nil,
          by simp [Radix.value, Radix.valueFrom]⟩

/-- The variables of `ln_convert_bits` behind some values. -/
structure Conversion.Holds (outbits inbits : Nat) (values : List UInt8) (conv : Conversion) :
    Prop where
  bits : conv.bits < outbits
  length : conv.out.length * outbits + conv.bits = values.length * inbits
  below : Radix.Below (2 ^ outbits) conv.out
  value : Radix.Below (2 ^ inbits) values →
    Radix.value (2 ^ outbits) conv.out * 2 ^ conv.bits + conv.val % 2 ^ conv.bits =
      Radix.value (2 ^ inbits) values

/-- A value below the bits of the ones before it, of which the highest are lost. -/
theorem shiftLeft_or {val inbits width value : Nat} (hvalue : value < 2 ^ inbits)
    (hwidth : inbits ≤ width) :
    (val <<< inbits) % 2 ^ width ||| value = (val * 2 ^ inbits + value) % 2 ^ width := by
  have hpow : 2 ^ width = 2 ^ inbits * 2 ^ (width - inbits) := by
    rw [← Nat.pow_add, Nat.add_sub_cancel' hwidth]
  rw [Nat.shiftLeft_eq, hpow, Nat.mul_comm val, Nat.mul_mod_mul_left,
    ← Nat.two_pow_add_eq_or_of_lt hvalue, Nat.mod_mul, Nat.mul_add_mod, Nat.mod_eq_of_lt hvalue,
    Nat.mul_add_div (Nat.two_pow_pos inbits), Nat.div_eq_of_lt hvalue, Nat.add_zero, Nat.add_comm]

theorem push_mod {val bits inbits : Nat} {value : UInt8} (hvalue : value.toNat < 2 ^ inbits)
    (hsum : bits + inbits ≤ 32) :
    ((val <<< inbits) % 2 ^ 32 ||| value.toNat) % 2 ^ (bits + inbits) =
      val % 2 ^ bits * 2 ^ inbits + value.toNat := by
  rw [shiftLeft_or hvalue (by omega), Nat.mod_mod_of_dvd _ (Nat.pow_dvd_pow 2 hsum),
    Nat.add_comm bits, Nat.pow_add, Nat.mod_mul, Nat.mul_comm val, Nat.mul_add_mod,
    Nat.mod_eq_of_lt hvalue, Nat.mul_add_div (Nat.two_pow_pos inbits), Nat.div_eq_of_lt hvalue,
    Nat.add_zero]
  ring

section Regroup

variable {outbits inbits : Nat}

theorem Conversion.Holds.push (hpos : 0 < outbits) (hbyte : outbits ≤ 8) (hin : inbits ≤ 8)
    {values : List UInt8} {conv : Conversion} (hholds : conv.Holds outbits inbits values)
    (value : UInt8) :
    (conv.push outbits inbits value).Holds outbits inbits (values ++ [value]) := by
  have hdrained := drain_spec hpos hbyte ((conv.val <<< inbits) % 2 ^ 32 ||| value.toNat)
    (Nat.le_refl (conv.bits + inbits))
  have hpush : conv.push outbits inbits value =
      ⟨(conv.val <<< inbits) % 2 ^ 32 ||| value.toNat,
        (drain outbits ((conv.val <<< inbits) % 2 ^ 32 ||| value.toNat) (conv.bits + inbits)
          (conv.bits + inbits)).2,
        conv.out ++ (drain outbits ((conv.val <<< inbits) % 2 ^ 32 ||| value.toNat)
          (conv.bits + inbits) (conv.bits + inbits)).1⟩ := rfl
  have hbits := hholds.bits
  generalize drain outbits ((conv.val <<< inbits) % 2 ^ 32 ||| value.toNat) (conv.bits + inbits)
    (conv.bits + inbits) = result at hdrained hpush
  rw [hpush]
  constructor
  · exact hdrained.left
  · have hbefore := hholds.length
    have hnow := hdrained.length
    simp only [List.length_append, List.length_singleton, Nat.add_mul, Nat.one_mul]
    omega
  · exact hholds.below.append hdrained.below
  · intro hvalues
    have hvalue : value.toNat < 2 ^ inbits := hvalues value (by simp)
    have hbefore := hholds.value fun digit hmem => hvalues digit (List.mem_append_left _ hmem)
    have hheight : (2 ^ outbits) ^ result.1.length * 2 ^ result.2 = 2 ^ conv.bits * 2 ^ inbits := by
      rw [← Nat.pow_mul, ← Nat.pow_add, Nat.mul_comm, hdrained.length, Nat.pow_add]
    have hnow := hdrained.value
    rw [push_mod hvalue (by omega)] at hnow
    rw [Radix.value_append, Radix.value_append, Radix.value_singleton, List.length_singleton,
      Nat.pow_one, ← hbefore, Nat.add_mul, Nat.add_mul, Nat.add_assoc, hnow, Nat.mul_assoc, hheight]
    ring

/-- All of the outer loop. -/
theorem conversion_holds (hpos : 0 < outbits) (hbyte : outbits ≤ 8) (hin : inbits ≤ 8)
    (values : List UInt8) :
    (values.foldl (Conversion.push outbits inbits) ⟨0, 0, []⟩).Holds outbits inbits values := by
  induction values using List.reverseRecOn with
  | nil =>
      exact ⟨hpos, by simp, Radix.below_nil, fun _ => by simp [Radix.value, Radix.valueFrom]⟩
  | append_singleton values value ih =>
      rw [List.foldl_append]
      exact ih.push hpos hbyte hin value

/-- With padding, every bit has its place. -/
theorem length_lnConvertBits (hpos : 0 < outbits) (hbyte : outbits ≤ 8) (hin : inbits ≤ 8)
    (values : List UInt8) :
    (lnConvertBits outbits values inbits true).1.length =
      (values.length * inbits + (outbits - 1)) / outbits := by
  have hholds := conversion_holds hpos hbyte hin values
  rw [lnConvertBits]
  generalize values.foldl (Conversion.push outbits inbits) ⟨0, 0, []⟩ = conv at hholds
  have hbits := hholds.bits
  by_cases hzero : conv.bits = 0
  · have hlength := hholds.length
    rw [hzero, Nat.add_zero] at hlength
    rw [← hlength, Nat.mul_comm, Nat.mul_add_div hpos, Nat.div_eq_of_lt (by omega)]
    simp [hzero]
  · have hdiv : (conv.bits + (outbits - 1)) / outbits = 1 :=
      Nat.div_eq_of_lt_le (by omega) (by omega)
    rw [← hholds.length, Nat.mul_comm, Nat.add_assoc, Nat.mul_add_div hpos, hdiv]
    simp [hzero]

end Regroup

/-! ### Tagged fields -/

/-- The number that a tag has behind it: how many groups its data has. -/
def tagLen (head : Bytes) : Nat :=
  (head.getD 1 0).toNat * 0x20 + (head.getD 2 0).toNat

/-- What an `r` field has for one hop. -/
def fieldRSize : Nat := 51

def fieldROf (data : Bytes) : FieldR where
  nodeId := data.take 33
  shortChannelId := UInt64.ofNat (BigEndian.decode ((data.drop 33).take 8))
  feeBaseMsat := UInt32.ofNat (BigEndian.decode ((data.drop 41).take 4))
  feePropMillionths := UInt32.ofNat (BigEndian.decode ((data.drop 45).take 4))
  cltvExpiryDelta := UInt16.ofNat (BigEndian.decode ((data.drop 49).take 2))

def fieldRsOf (data : Bytes) (count : Nat) : List FieldR :=
  (List.range count).map fun index => fieldROf (data.drop (index * fieldRSize))

/-- Eight bits from groups of five, into a buffer of that size. -/
def convertInto (capacity : Nat) (groups : List UInt8) : WireReader Unit Bytes :=
  let data := (lnConvertBits 8 groups 5 true).1
  if data.length ≤ capacity then pure data else fail .outOfBounds

/-- A buffer of that size has room for all of it. -/
theorem convertInto_eq (groups : List UInt8) :
    convertInto ((groups.length * 5 + 7) / 8) groups =
      pure (lnConvertBits 8 groups 5 true).1 := by
  have hlength : (lnConvertBits 8 groups 5 true).1.length = (groups.length * 5 + 7) / 8 :=
    length_lnConvertBits (by decide) (by decide) (by decide) groups
  rw [convertInto, if_pos (Nat.le_of_eq hlength)]

/-- `ln_analyze_tag`. -/
def lnAnalyzeTag (invoice : LnInvoice) : WireReader Unit LnInvoice := do
  let head ← bytes 3
  let tag := head.getD 0 0
  let len := tagLen head
  let groups ← bytes len
  let capacity := (len * 5 + 7) / 8
  if tag = 6 then pure { invoice with expiry := (lnConvertBe64 groups).toUInt32 }
  else if tag = 24 then
    pure { invoice with minFinalCltvExpiry := (lnConvertBe64 groups).toUInt32 }
  else if tag = 3 then do
    let data ← convertInto capacity groups
    refuseIf (decide (len * 5 / 8 < fieldRSize)) ()
    pure { invoice with rField := fieldRsOf data (len * 5 / 8 / fieldRSize) }
  else do
    let data ← convertInto capacity groups
    if tag = 1 then
      -- `memcpy` of a whole hash from the buffer
      if capacity < 32 then fail .outOfBounds
      else pure { invoice with paymentHash := data.take 32 }
    else pure invoice

/-- `while (p_tag < p_sig)`, for a number of turns; `none` when they are not enough. -/
def tagLoop (sig : Nat) : Nat → LnInvoice → WireReader Unit (Option LnInvoice)
  | 0, _ => pure none
  | turns + 1, invoice => do
      let pos ← position
      if pos < sig then do
        let invoice ← lnAnalyzeTag invoice
        tagLoop sig turns invoice
      else pure (some invoice)

/-! ### The human-readable part -/

def isDigit (ch : UInt8) : Bool := decide (0x30 ≤ ch) && decide (ch ≤ 0x39)

/-- The network that a human-readable part begins with, and the length of its name. -/
def networkOf (hrp : Bytes) : Option (UInt8 × Nat) :=
  if (lnHrpStr lnInvoiceRegtest).isPrefixOf hrp then some (lnInvoiceRegtest, 6)
  else if (lnHrpStr lnInvoiceMainnet).isPrefixOf hrp then some (lnInvoiceMainnet, 4)
  else if (lnHrpStr lnInvoiceTestnet).isPrefixOf hrp then some (lnInvoiceTestnet, 4)
  else none

/-- The characters of an amount that have to be digits are, and the first is not 0. -/
def digitsOk (amt : Bytes) : Bool :=
  decide (0x31 ≤ amt.headD 0) && decide (amt.headD 0 ≤ 0x39) && amt.tail.dropLast.all isDigit

/-- The number that `strtoull` reads. -/
def digitsValue (digits : Bytes) : Nat :=
  digits.foldl (fun value ch => value * 10 + (ch.toNat - 0x30)) 0

/-- `strtoull`, which stops at the greatest number. -/
def strtoull (digits : Bytes) : UInt64 :=
  UInt64.ofNat (min (digitsValue digits) (2 ^ 64 - 1))

/-- What a unit makes of a number of it. -/
def scale (unit : UInt8) (amount : UInt64) : Option UInt64 :=
  if unit = 0x6d then some (amount * 100000000)
  else if unit = 0x75 then some (amount * 100000)
  else if unit = 0x6e then some (amount * 100)
  else if unit = 0x70 then some (amount.toFloat * 0.1).toUInt64
  else none

/-- The size of `amount_str`. -/
def amountStrSize : Nat := 20

/-- What follows the network in the human-readable part. -/
def readAmount (amt : Bytes) : WireReader Unit UInt64 :=
  if amt = [] then pure 0
  else if !digitsOk amt then refuse ()
  else if amountStrSize < amt.length then fail .outOfBounds
  else match scale (amt.getLastD 0) (strtoull amt.dropLast) with
    | some amount => pure amount
    | none => refuse ()

/-! ### Reading -/

/-- The groups of a signature with its recovery id. -/
def sigGroups : Nat := 104

/-- What is signed: the human-readable part and the groups before the signature. -/
def signedHash (env : InvoiceEnv) (hrp groups : Bytes) : Bytes :=
  env.sha256 (hrp ++ (lnConvertBits 8 groups 5 true).1)

/-- The key that a signature in groups was made with. -/
def signatureKey (env : InvoiceEnv) (hash groups : Bytes) : Recovered :=
  let (sig, exact) := lnConvertBits 8 groups 5 false
  if !exact then .notFound
  else btcTxRecoverPubkey env.group (sig.getD 64 0).toNat (sig.take 64) hash

/-- `ln_invoice_decode` behind `btc_bech32_decode`, over `data`, of which `dataLen` groups are
set; `fresh` is what `malloc` left in the invoice. -/
def readInvoice (env : InvoiceEnv) (fresh : LnInvoice) (hrp : Bytes) (dataLen turns : Nat) :
    WireReader Unit (Option LnInvoice) :=
  match networkOf hrp with
  | none => refuse ()
  | some (hrpType, lenHrp) => do
      let amountMsat ← readAmount (hrp.drop lenHrp)
      if dataLen < sigGroups then fail .negative
      else do
        let sig := dataLen - sigGroups
        let data ← message
        let _ ← convertInto ((sig * 5 + 7) / 8) (data.take sig)
        match signatureKey env (signedHash env hrp (data.take sig))
            ((data.drop sig).take sigGroups) with
        | .aborted => fail .assertion
        | .notFound => refuse ()
        | .found _ pubkey => do
            skip 7
            tagLoop sig turns { fresh with
              hrpType := hrpType
              amountMsat := amountMsat
              timestamp := lnConvertBe64 (data.take 7)
              expiry := lnInvoiceExpiry
              minFinalCltvExpiry := lnMinFinalCltvExpiry
              pubkey := pubkey
              rField := [] }

/-- The sizes of `data` and `hrp_actual`. -/
def dataSize : Nat := 1024
def hrpSize : Nat := 86

/-- `ln_invoice_decode`; `stack` is what stood in `data` before. -/
def lnInvoiceDecode (env : InvoiceEnv) (fresh : LnInvoice) (stack : Bytes) (turns : Nat)
    (invoice : Bytes) : Result Unit (Option LnInvoice) :=
  match btcBech32Decode hrpSize dataSize invoice true with
  | none => .refused ()
  | some (hrp, groups) =>
      (readInvoice env fresh hrp groups.length turns).run (groups ++ stack.drop groups.length)

end Invoice

end Ptarmigan
