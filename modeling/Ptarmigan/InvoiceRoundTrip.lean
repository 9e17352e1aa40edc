/-
An invoice that is written and read again: every field comes back, as long as the hops have room
in the buffer and the amount survives its unit.
-/
import Ptarmigan.InvoiceEncode
import Ptarmigan.Library.Layout

namespace Ptarmigan

namespace Invoice

open WireReader Bech32 RecoverPubkey Routing

/-! ### One field -/

/-- What `ln_analyze_tag` does with the groups of a field. -/
def analyzed (tag : UInt8) (len : Nat) (groups : List UInt8) (invoice : LnInvoice) :
    WireReader Unit LnInvoice :=
  let capacity := (len * 5 + 7) / 8
  if tag = 6 then pure { invoice with expiry := (lnConvertBe64 groups).toUInt32 }
  else if tag = 24 then
    pure { invoice with minFinalCltvExpiry := (lnConvertBe64 groups).toUInt32 }
  else if tag = 3 then do
    let data ← convertInto capacity groups
    refuseIf (decide (len * 5 / 8 < fieldRSize)) ()
    pure { invoice with rField := fieldRsOf data (len * 5 / 8 / fieldRSize) }
  else do
    let data ← convertInto capacity groups
    if tag = 1 then
      if capacity < 32 then fail .outOfBounds
      else pure { invoice with paymentHash := data.take 32 }
    else pure invoice

theorem lnAnalyzeTag_eq (invoice : LnInvoice) :
    lnAnalyzeTag invoice = (do
      let head ← bytes 3
      let groups ← bytes (tagLen head)
      analyzed (head.getD 0 0) (tagLen head) groups invoice) := rfl

def taggedField (tag : UInt8) (groups : List UInt8) : List UInt8 :=
  [tag, (groups.length / 32).toUInt8, (groups.length % 32).toUInt8] ++ groups

/-- A field is read by its tag, its length and its groups. -/
theorem reads_lnAnalyzeTag {tag : UInt8} {groups : List UInt8} {invoice invoice' : LnInvoice}
    (hlen : groups.length < 8192)
    (hbody : analyzed tag groups.length groups invoice = pure invoice') (pos : Nat)
    (rest : List UInt8) :
    Reads pos rest (lnAnalyzeTag invoice) (taggedField tag groups) invoice' := by
  have hhigh : (groups.length / 32).toUInt8.toNat = groups.length / 32 :=
    Nat.mod_eq_of_lt (by omega)
  have hlow : (groups.length % 32).toUInt8.toNat = groups.length % 32 :=
    Nat.mod_eq_of_lt (by omega)
  have hlength : tagLen [tag, (groups.length / 32).toUInt8, (groups.length % 32).toUInt8] =
      groups.length := by
    change (groups.length / 32).toUInt8.toNat * 0x20 + (groups.length % 32).toUInt8.toNat = _
    omega
  rw [lnAnalyzeTag_eq, taggedField]
  apply Reads.bind (Reads.bytes rfl)
  rw [hlength]
  have hgroups : Reads (pos + 3) rest (do
      let groups' ← bytes groups.length
      analyzed tag groups.length groups' invoice) (groups ++ []) invoice' := by
    apply Reads.bind (Reads.bytes rfl)
    rw [hbody]
    exact Reads.pure invoice'
  rwa [List.append_nil] at hgroups

/-! ### All of the fields -/

/-- From the position on, the loop comes to its end with the invoice. -/
def LoopsTo (data : List UInt8) (sig : Nat) (final : LnInvoice) (pos : Nat) (invoice : LnInvoice) :
    Prop :=
  ∀ turns, sig - pos < turns → tagLoop sig turns invoice data pos = .done (some final) sig

theorem loopsTo_end (data : List UInt8) (sig : Nat) (final : LnInvoice) :
    LoopsTo data sig final sig final := by
  intro turns hturns
  cases turns with
  | zero => omega
  | succ turns =>
      change (if sig < sig then _ else _ : WireReader Unit (Option LnInvoice)) data sig = _
      rw [if_neg (Nat.lt_irrefl sig)]
      rfl

/-- Reading the fields before the signature takes the first invoice to the second. -/
def Loops (fields : List UInt8) (invoice invoice' : LnInvoice) : Prop :=
  ∀ data pos rest sig final, Stands data pos (fields ++ rest) → pos + fields.length ≤ sig →
    LoopsTo data sig final (pos + fields.length) invoice' → LoopsTo data sig final pos invoice

theorem loops_nil (invoice : LnInvoice) : Loops [] invoice invoice :=
  fun _ _ _ _ _ _ _ hloops => hloops

theorem Loops.append {front back : List UInt8} {invoice invoice' invoice'' : LnInvoice}
    (hfront : Loops front invoice invoice') (hback : Loops back invoice' invoice'') :
    Loops (front ++ back) invoice invoice'' := by
  intro data pos rest sig final hstands hinside hloops
  rw [List.append_assoc] at hstands
  rw [List.length_append, ← Nat.add_assoc] at hinside hloops
  apply hfront data pos (back ++ rest) sig final hstands (by omega)
  exact hback data (pos + front.length) rest sig final hstands.behind hinside hloops

theorem loops_taggedField {tag : UInt8} {groups : List UInt8} {invoice invoice' : LnInvoice}
    (hlen : groups.length < 8192)
    (hbody : analyzed tag groups.length groups invoice = pure invoice') :
    Loops (taggedField tag groups) invoice invoice' := by
  intro data pos rest sig final hstands hinside hloops turns hturns
  have hlength : (taggedField tag groups).length = 3 + groups.length := by
    rw [taggedField, List.length_append]
    rfl
  cases turns with
  | zero => omega
  | succ turns =>
      have hread := (reads_lnAnalyzeTag hlen hbody pos rest).done hstands
      have hbefore : pos < sig := by omega
      change (if pos < sig then _ else _ : WireReader Unit (Option LnInvoice)) data pos = _
      rw [if_pos hbefore, bind_done hread]
      apply hloops turns
      omega

theorem analyzed_skip {tag : UInt8} (hexpiry : tag ≠ 6) (hcltv : tag ≠ 24) (hhops : tag ≠ 3)
    (hpayment : tag ≠ 1) (groups : List UInt8) (invoice : LnInvoice) :
    analyzed tag groups.length groups invoice = pure invoice := by
  simp only [analyzed, if_neg hexpiry, if_neg hcltv, if_neg hhops, if_neg hpayment, convertInto_eq]
  rfl

theorem analyzed_paymentHash {paymentHash : Bytes} (hlength : paymentHash.length = 32)
    (invoice : LnInvoice) :
    analyzed 1 (groupsOf paymentHash).length (groupsOf paymentHash) invoice =
      pure { invoice with paymentHash := paymentHash } := by
  have hgroups : (groupsOf paymentHash).length = 52 := by rw [length_groupsOf, hlength]
  have hback := lnConvertBits_groupsOf paymentHash
  rw [hlength] at hback
  have hread : analyzed 1 (groupsOf paymentHash).length (groupsOf paymentHash) invoice = (do
      let data ← convertInto (((groupsOf paymentHash).length * 5 + 7) / 8) (groupsOf paymentHash)
      if ((groupsOf paymentHash).length * 5 + 7) / 8 < 32 then fail .outOfBounds
      else pure { invoice with paymentHash := data.take 32 }) := rfl
  rw [hread, convertInto_eq, hgroups]
  have hpaymentHash : ({ invoice with
      paymentHash := (lnConvertBits 8 (groupsOf paymentHash) 5 true).1.take 32 } : LnInvoice) =
      { invoice with paymentHash := paymentHash } := by rw [hback]
  exact congrArg (pure : LnInvoice → WireReader Unit LnInvoice) hpaymentHash

theorem fieldROf_fieldRBytes {hop : FieldR} (hlength : hop.nodeId.length = 33) (rest : Bytes) :
    fieldROf (fieldRBytes hop ++ rest) = hop := by
  have hwidths : [hop.nodeId, BigEndian.encode 8 hop.shortChannelId.toNat,
      BigEndian.encode 4 hop.feeBaseMsat.toNat, BigEndian.encode 4 hop.feePropMillionths.toNat,
      BigEndian.encode 2 hop.cltvExpiryDelta.toNat].map List.length = [33, 8, 4, 4, 2] := by
    simp [hlength]
  have hcut := Layout.cut_append hwidths rest
  have hdata : fieldRBytes hop ++ rest = [hop.nodeId,
      BigEndian.encode 8 hop.shortChannelId.toNat, BigEndian.encode 4 hop.feeBaseMsat.toNat,
      BigEndian.encode 4 hop.feePropMillionths.toNat,
      BigEndian.encode 2 hop.cltvExpiryDelta.toNat].flatten ++ rest := by
    simp [fieldRBytes]
  rw [← hdata] at hcut
  simp only [Layout.cut, List.drop_drop, Nat.reduceAdd, List.cons.injEq, and_true] at hcut
  obtain ⟨hnode, hchannel, hbase, hprop, hcltv⟩ := hcut
  rw [fieldROf, hnode, hchannel, hbase, hprop, hcltv,
    BigEndian.decode_encode hop.shortChannelId.toNat_lt,
    BigEndian.decode_encode hop.feeBaseMsat.toNat_lt,
    BigEndian.decode_encode hop.feePropMillionths.toNat_lt,
    BigEndian.decode_encode hop.cltvExpiryDelta.toNat_lt,
    UInt64.ofNat_toNat, UInt32.ofNat_toNat, UInt32.ofNat_toNat, UInt16.ofNat_toNat]

theorem length_fieldRBytes {hop : FieldR} (hlength : hop.nodeId.length = 33) :
    (fieldRBytes hop).length = fieldRSize := by
  simp only [fieldRBytes, List.length_append, BigEndian.length_encode, hlength]
  rfl

/-- The hops of a field are read back, whatever comes behind. -/
theorem fieldRsOf_flatMap {rField : List FieldR} (hrField : ∀ hop ∈ rField, hop.nodeId.length = 33)
    (rest : Bytes) : fieldRsOf (rField.flatMap fieldRBytes ++ rest) rField.length = rField := by
  induction rField with
  | nil => rfl
  | cons hop rField ih =>
      have hhop := hrField hop (List.mem_cons_self ..)
      have hothers := ih fun other hmem => hrField other (List.mem_cons_of_mem _ hmem)
      have hdrop : ∀ index, (fieldRBytes hop ++ (rField.flatMap fieldRBytes ++ rest)).drop
          ((index + 1) * fieldRSize) =
          (rField.flatMap fieldRBytes ++ rest).drop (index * fieldRSize) := by
        intro index
        rw [Nat.add_mul, Nat.one_mul, Nat.add_comm, ← List.drop_drop,
          ← length_fieldRBytes hhop, List.drop_left]
      have hstep : fieldRsOf ((hop :: rField).flatMap fieldRBytes ++ rest) (rField.length + 1) =
          fieldROf (fieldRBytes hop ++ (rField.flatMap fieldRBytes ++ rest)) ::
            fieldRsOf (rField.flatMap fieldRBytes ++ rest) rField.length := by
        rw [fieldRsOf, List.range_succ_eq_map, List.map_cons, List.map_map, List.flatMap_cons,
          List.append_assoc, Nat.zero_mul, List.drop_zero, fieldRsOf]
        congr 1
        apply List.map_congr_left
        intro index _
        exact congrArg fieldROf (hdrop index)
      rw [List.length_cons, hstep, fieldROf_fieldRBytes hhop, hothers]

theorem length_flatMap_fieldRBytes {rField : List FieldR}
    (hrField : ∀ hop ∈ rField, hop.nodeId.length = 33) :
    (rField.flatMap fieldRBytes).length = rField.length * fieldRSize := by
  induction rField with
  | nil => rfl
  | cons hop rField ih =>
      have hhop := hrField hop (List.mem_cons_self ..)
      have hothers := ih fun other hmem => hrField other (List.mem_cons_of_mem _ hmem)
      rw [List.flatMap_cons, List.length_append, hothers, length_fieldRBytes hhop,
        List.length_cons, Nat.add_mul, Nat.one_mul, Nat.add_comm]

theorem length_groupsOf_rField {rField : List FieldR}
    (hrField : ∀ hop ∈ rField, hop.nodeId.length = 33) :
    (groupsOf (rField.flatMap fieldRBytes)).length = (408 * rField.length + 4) / 5 := by
  rw [length_groupsOf, length_flatMap_fieldRBytes hrField, fieldRSize]
  congr 1
  omega

theorem analyzed_rField {rField : List FieldR} (hnonempty : rField ≠ [])
    (hrField : ∀ hop ∈ rField, hop.nodeId.length = 33) (invoice : LnInvoice) :
    analyzed 3 (groupsOf (rField.flatMap fieldRBytes)).length
        (groupsOf (rField.flatMap fieldRBytes)) invoice =
      pure { invoice with rField := rField } := by
  have hpos := List.length_pos_iff.mpr hnonempty
  have hbytes : (groupsOf (rField.flatMap fieldRBytes)).length * 5 / 8 =
      rField.length * fieldRSize := by
    rw [length_groupsOf_rField hrField, fieldRSize]
    omega
  have hcount : rField.length * fieldRSize / fieldRSize = rField.length :=
    Nat.mul_div_cancel _ (by decide)
  have hroom : ¬ rField.length * fieldRSize < fieldRSize := by
    rw [fieldRSize]
    omega
  have hback := lnConvertBits_groupsOf (rField.flatMap fieldRBytes)
  have hread : analyzed 3 (groupsOf (rField.flatMap fieldRBytes)).length
      (groupsOf (rField.flatMap fieldRBytes)) invoice = (do
        let data ← convertInto (((groupsOf (rField.flatMap fieldRBytes)).length * 5 + 7) / 8)
          (groupsOf (rField.flatMap fieldRBytes))
        refuseIf (decide ((groupsOf (rField.flatMap fieldRBytes)).length * 5 / 8 < fieldRSize)) ()
        pure { invoice with
          rField := fieldRsOf data
            ((groupsOf (rField.flatMap fieldRBytes)).length * 5 / 8 / fieldRSize) }) := rfl
  rw [hread, convertInto_eq, hbytes, hcount, decide_eq_false hroom]
  generalize (lnConvertBits 8 (groupsOf (rField.flatMap fieldRBytes)) 5 true).1 = data at hback
  have hdata : data = rField.flatMap fieldRBytes ++
      data.drop (rField.flatMap fieldRBytes).length := by
    have hsplit := List.take_append_drop (rField.flatMap fieldRBytes).length data
    rw [hback] at hsplit
    exact hsplit.symm
  have hfields : ({ invoice with rField := fieldRsOf data rField.length } : LnInvoice) =
      { invoice with rField := rField } := by
    rw [hdata, fieldRsOf_flatMap hrField]
  exact congrArg (pure : LnInvoice → WireReader Unit LnInvoice) hfields

/-- Hashes and keys of their lengths, and a count of one byte. -/
structure LnInvoice.Sized (invoice : LnInvoice) : Prop where
  pubkey : invoice.pubkey.length = 33
  paymentHash : invoice.paymentHash.length = 32
  nodeId : ∀ hop ∈ invoice.rField, hop.nodeId.length = 33
  rField : invoice.rField.length < 256

theorem uint32_lt (value : UInt32) : value.toNat < 32 ^ 8 :=
  Nat.lt_trans value.toNat_lt (by decide)

theorem length_convert_uint32 (behind : UInt8) (value : UInt32) :
    (lnConvert64To8 behind value.toNat).length ≤ 7 := by
  have hlength := (lnConvert64To8_spec behind (uint32_lt value)).2.2 6
  exact hlength.mpr (Nat.lt_trans value.toNat_lt (by decide))

theorem numberField_eq {tag behind : UInt8} {value default : UInt32} (hvalue : value ≠ default) :
    numberField tag behind value default =
      taggedField tag (lnConvert64To8 behind value.toNat) := by
  have hshort := length_convert_uint32 behind value
  have hhigh : (lnConvert64To8 behind value.toNat).length / 32 = 0 := Nat.div_eq_of_lt (by omega)
  have hlow : (lnConvert64To8 behind value.toNat).length % 32 =
      (lnConvert64To8 behind value.toNat).length := Nat.mod_eq_of_lt (by omega)
  rw [numberField, if_neg hvalue, taggedField, hhigh, hlow]
  rfl

/-- A number that is left out or written is the one that is read. -/
theorem loops_numberField {tag behind : UInt8} {value default : UInt32}
    {invoice invoice' : LnInvoice} (hdefault : value = default → invoice = invoice')
    (hbody : ∀ groups, (lnConvertBe64 groups).toUInt32 = value →
      analyzed tag groups.length groups invoice = pure invoice') :
    Loops (numberField tag behind value default) invoice invoice' := by
  by_cases hvalue : value = default
  · rw [numberField, if_pos hvalue, hdefault hvalue]
    exact loops_nil invoice'
  · have hshort := length_convert_uint32 behind value
    have hread : (lnConvertBe64 (lnConvert64To8 behind value.toNat)).toUInt32 = value := by
      rw [lnConvertBe64_convert behind (uint32_lt value)]
      apply UInt32.toNat.inj
      have hlt := value.toNat_lt
      change value.toNat % 2 ^ 64 % 2 ^ 32 = value.toNat
      omega
    rw [numberField_eq hvalue]
    apply loops_taggedField (by omega)
    exact hbody _ hread

theorem rFieldGroups_eq {rField : List FieldR} (hnonempty : rField ≠ [])
    (hrField : ∀ hop ∈ rField, hop.nodeId.length = 33) :
    rFieldGroups rField = taggedField 3 (groupsOf (rField.flatMap fieldRBytes)) := by
  have hlow : (408 * rField.length + 4) / 5 - (408 * rField.length + 4) / 5 / 32 * 32 =
      (408 * rField.length + 4) / 5 % 32 := by omega
  rw [rFieldGroups, if_neg hnonempty, taggedField, length_groupsOf_rField hrField, ← hlow]

theorem loops_rFieldGroups {invoice : LnInvoice} {rField : List FieldR}
    (hrField : ∀ hop ∈ rField, hop.nodeId.length = 33) (hcount : rField.length < 100)
    (hempty : invoice.rField = []) :
    Loops (rFieldGroups rField) invoice { invoice with rField := rField } := by
  by_cases hnil : rField = []
  · have hsame : ({ invoice with rField := rField } : LnInvoice) = invoice := by
      rw [hnil, ← hempty]
    rw [hsame, rFieldGroups, if_pos hnil]
    exact loops_nil invoice
  · have hlength := length_groupsOf_rField hrField
    rw [rFieldGroups_eq hnil hrField]
    apply loops_taggedField (by omega)
    exact analyzed_rField hnil hrField invoice

/-- The fields behind the timestamp. -/
def tagGroups (behind : UInt8) (invoice : LnInvoice) : List UInt8 :=
  taggedField 19 (groupsOf invoice.pubkey) ++ (taggedField 1 (groupsOf invoice.paymentHash) ++
    (taggedField 13 (groupsOf description) ++
      (numberField 6 behind invoice.expiry lnInvoiceExpiry ++
        (numberField 24 behind invoice.minFinalCltvExpiry lnMinFinalCltvExpiry ++
          rFieldGroups invoice.rField))))

theorem unsignedGroups_eq {invoice : LnInvoice} (hsized : invoice.Sized) (behind : UInt8)
    (now : Nat) :
    unsignedGroups behind now invoice = lnConvert64To8 behind now ++ tagGroups behind invoice := by
  have hpubkey : (groupsOf invoice.pubkey).length = 53 := by
    rw [length_groupsOf, hsized.pubkey]
  have hpaymentHash : (groupsOf invoice.paymentHash).length = 52 := by
    rw [length_groupsOf, hsized.paymentHash]
  have hdescription : (groupsOf description).length = 15 := by
    rw [length_groupsOf]
    rfl
  rw [unsignedGroups, tagGroups, taggedField, taggedField, taggedField, hpubkey, hpaymentHash,
    hdescription]
  rfl

/-- What is read from the fields of an invoice. -/
theorem loops_tagGroups {invoice start : LnInvoice} (hsized : invoice.Sized)
    (hcount : invoice.rField.length < 100) (behind : UInt8)
    (hexpiry : start.expiry = lnInvoiceExpiry)
    (hcltv : start.minFinalCltvExpiry = lnMinFinalCltvExpiry) (hempty : start.rField = []) :
    Loops (tagGroups behind invoice) start { start with
      expiry := invoice.expiry
      minFinalCltvExpiry := invoice.minFinalCltvExpiry
      paymentHash := invoice.paymentHash
      rField := invoice.rField } := by
  have hpubkey : (groupsOf invoice.pubkey).length < 8192 := by
    rw [length_groupsOf, hsized.pubkey]
    decide
  have hpaymentHash : (groupsOf invoice.paymentHash).length < 8192 := by
    rw [length_groupsOf, hsized.paymentHash]
    decide
  have hdescription : (groupsOf description).length < 8192 := by
    rw [length_groupsOf]
    decide
  have hexpiryField : Loops (numberField 6 behind invoice.expiry lnInvoiceExpiry)
      { start with paymentHash := invoice.paymentHash }
      { start with paymentHash := invoice.paymentHash, expiry := invoice.expiry } := by
    apply loops_numberField
    · intro hdefault
      rw [hdefault, ← hexpiry]
    · intro groups hread
      rw [← hread]
      rfl
  have hcltvField : Loops (numberField 24 behind invoice.minFinalCltvExpiry lnMinFinalCltvExpiry)
      { start with paymentHash := invoice.paymentHash, expiry := invoice.expiry }
      { start with
        paymentHash := invoice.paymentHash
        expiry := invoice.expiry
        minFinalCltvExpiry := invoice.minFinalCltvExpiry } := by
    apply loops_numberField
    · intro hdefault
      rw [hdefault, ← hcltv]
    · intro groups hread
      rw [← hread]
      rfl
  apply Loops.append (loops_taggedField hpubkey
    (analyzed_skip (by decide) (by decide) (by decide) (by decide) _ start))
  apply Loops.append (loops_taggedField hpaymentHash
    (analyzed_paymentHash hsized.paymentHash start))
  apply Loops.append (loops_taggedField hdescription
    (analyzed_skip (by decide) (by decide) (by decide) (by decide) _ _))
  apply Loops.append hexpiryField
  apply Loops.append hcltvField
  exact loops_rFieldGroups hsized.nodeId hcount hempty

/-! ### Lengths and groups -/

theorem length_taggedField (tag : UInt8) (groups : List UInt8) :
    (taggedField tag groups).length = 3 + groups.length := by
  rw [taggedField, List.length_append]
  rfl

theorem length_numberField_le (tag behind : UInt8) (value default : UInt32) :
    (numberField tag behind value default).length ≤ 10 := by
  by_cases hvalue : value = default
  · rw [numberField, if_pos hvalue]
    exact Nat.zero_le 10
  · have hshort := length_convert_uint32 behind value
    rw [numberField_eq hvalue, length_taggedField]
    omega

/-- The groups of the fields: the hops need 81 or 82 each, all else has less than 150. -/
theorem length_tagGroups {invoice : LnInvoice} (hsized : invoice.Sized) (behind : UInt8) :
    129 + (rFieldGroups invoice.rField).length ≤ (tagGroups behind invoice).length ∧
      (tagGroups behind invoice).length ≤ 149 + (rFieldGroups invoice.rField).length := by
  have hexpiry := length_numberField_le 6 behind invoice.expiry lnInvoiceExpiry
  have hcltv := length_numberField_le 24 behind invoice.minFinalCltvExpiry lnMinFinalCltvExpiry
  have hdescription : description.length = 9 := rfl
  simp only [tagGroups, List.length_append, length_taggedField, length_groupsOf, hsized.pubkey,
    hsized.paymentHash, hdescription]
  omega

theorem length_rFieldGroups {rField : List FieldR}
    (hrField : ∀ hop ∈ rField, hop.nodeId.length = 33) :
    (rFieldGroups rField).length =
      if rField = [] then 0 else 3 + (408 * rField.length + 4) / 5 := by
  by_cases hnil : rField = []
  · rw [rFieldGroups, if_pos hnil, if_pos hnil]
    rfl
  · rw [rFieldGroups_eq hnil hrField, if_neg hnil, length_taggedField,
      length_groupsOf_rField hrField]

theorem groups_taggedField {tag : UInt8} {groups : List UInt8} (htag : tag.toNat < 32)
    (hlen : groups.length < 1024) (hgroups : Groups groups) : Groups (taggedField tag groups) := by
  have hhigh : (groups.length / 32).toUInt8.toNat = groups.length / 32 :=
    Nat.mod_eq_of_lt (by omega)
  have hlow : (groups.length % 32).toUInt8.toNat = groups.length % 32 :=
    Nat.mod_eq_of_lt (by omega)
  apply Radix.Below.append _ hgroups
  intro value hmem
  simp only [List.mem_cons, List.not_mem_nil, or_false] at hmem
  rcases hmem with rfl | rfl | rfl <;> omega

theorem groups_numberField {tag : UInt8} (htag : tag.toNat < 32) (behind : UInt8)
    (value default : UInt32) : Groups (numberField tag behind value default) := by
  by_cases hvalue : value = default
  · rw [numberField, if_pos hvalue]
    exact Radix.below_nil
  · have hshort := length_convert_uint32 behind value
    rw [numberField_eq hvalue]
    apply groups_taggedField htag (by omega)
    exact (lnConvert64To8_spec behind (uint32_lt value)).1

theorem groups_tagGroups {invoice : LnInvoice} (hsized : invoice.Sized)
    (hcount : invoice.rField.length ≤ 10) (behind : UInt8) :
    Groups (tagGroups behind invoice) := by
  have hfield : ∀ (tag : UInt8) (data : Bytes), tag.toNat < 32 → data.length < 600 →
      Groups (taggedField tag (groupsOf data)) := by
    intro tag data htag hlength
    apply groups_taggedField htag _ (groups_groupsOf data)
    rw [length_groupsOf]
    omega
  have hrField : Groups (rFieldGroups invoice.rField) := by
    by_cases hnil : invoice.rField = []
    · rw [rFieldGroups, if_pos hnil]
      exact Radix.below_nil
    · rw [rFieldGroups_eq hnil hsized.nodeId]
      apply hfield 3 _ (by decide)
      rw [length_flatMap_fieldRBytes hsized.nodeId, fieldRSize]
      omega
  apply Radix.Below.append (hfield 19 _ (by decide) (by rw [hsized.pubkey]; decide))
  apply Radix.Below.append (hfield 1 _ (by decide) (by rw [hsized.paymentHash]; decide))
  apply Radix.Below.append (hfield 13 _ (by decide) (by decide))
  apply Radix.Below.append (groups_numberField (by decide) behind _ _)
  exact Radix.Below.append (groups_numberField (by decide) behind _ _) hrField

/-! ### The human-readable part and the signature -/

theorem unitOf_unit (amount : UInt64) :
    (unitOf amount).2 ∈ ascii ['m', 'u', 'n', 'p'] := by
  rw [unitOf]
  split
  · exact (by decide : (0x6d : UInt8) ∈ ascii ['m', 'u', 'n', 'p'])
  split
  · exact (by decide : (0x75 : UInt8) ∈ ascii ['m', 'u', 'n', 'p'])
  split
  · exact (by decide : (0x6e : UInt8) ∈ ascii ['m', 'u', 'n', 'p'])
  · exact (by decide : (0x70 : UInt8) ∈ ascii ['m', 'u', 'n', 'p'])

/-- An amount has characters of a human-readable part, and does not begin like `rt`. -/
theorem amountStr_chars (amount : UInt64) :
    ∀ ch ∈ amountStr amount, (hrpChar ch = true ∧ isUpper ch = false) ∧ ch ≠ 0x72 := by
  have hunits : ∀ ch ∈ ascii ['m', 'u', 'n', 'p'],
      (hrpChar ch = true ∧ isUpper ch = false) ∧ ch ≠ 0x72 := by decide +kernel
  have hdigit : ∀ ch, isDigit ch = true →
      (hrpChar ch = true ∧ isUpper ch = false) ∧ ch ≠ 0x72 := by
    intro ch hch
    simp only [isDigit, Bool.and_eq_true, decide_eq_true_eq] at hch
    have hlow : 33 ≤ ch := UInt8.le_trans (by decide) hch.1
    have hhigh : ch ≤ 126 := UInt8.le_trans hch.2 (by decide)
    have hupper : ¬ 0x41 ≤ ch := fun hle => absurd (UInt8.le_trans hle hch.2) (by decide)
    refine ⟨⟨by simp [hrpChar, hlow, hhigh], by simp [isUpper, hupper]⟩, ?_⟩
    rintro rfl
    exact absurd hch.2 (by decide)
  intro ch hmem
  by_cases hpos : 0 < amount
  · have hvalue : (unitOf amount).1.toNat < 10 ^ 20 :=
      Nat.lt_trans (unitOf amount).1.toNat_lt (by decide)
    rw [amountStr, if_pos hpos] at hmem
    rcases List.mem_append.mp hmem with hmem | hmem
    · exact hdigit ch ((decimal_spec (by decide) hvalue).digit ch hmem)
    · rw [List.mem_singleton.mp hmem]
      exact hunits _ (unitOf_unit amount)
  · rw [amountStr, if_neg hpos] at hmem
    exact absurd hmem List.not_mem_nil

/-- The network is found by its name, and the amount behind it. -/
theorem networkOf_amountStr {hrpType : UInt8} (htype : hrpTypeOk hrpType = true)
    (amount : UInt64) :
    ∃ lenHrp, networkOf (lnHrpStr hrpType ++ amountStr amount) = some (hrpType, lenHrp) ∧
      (lnHrpStr hrpType ++ amountStr amount).drop lenHrp = amountStr amount := by
  have hchars := amountStr_chars amount
  generalize amountStr amount = amt at hchars
  have hregtest : (lnHrpStr lnInvoiceRegtest).isPrefixOf (lnHrpStr 4 ++ amt) = false := by
    cases amt with
    | nil => decide
    | cons ch chars =>
        have hne : (0x72 == ch) = false :=
          beq_false_of_ne (hchars ch (List.mem_cons_self ..)).2.symm
        change ((0x6c == 0x6c) && ((0x6e == 0x6e) && ((0x62 == 0x62) && ((0x63 == 0x63) &&
          ((0x72 == ch) && _))))) = false
        rw [hne]
        rfl
  simp only [hrpTypeOk, Bool.and_eq_true, decide_eq_true_eq] at htype
  have hlow := UInt8.le_iff_toNat_le.mp htype.1
  have hhigh := UInt8.le_iff_toNat_le.mp htype.2
  change 4 ≤ hrpType.toNat at hlow
  change hrpType.toNat ≤ 6 at hhigh
  have hcases : hrpType = 4 ∨ hrpType = 5 ∨ hrpType = 6 := by
    simp only [← UInt8.toNat_inj]
    change hrpType.toNat = 4 ∨ hrpType.toNat = 5 ∨ hrpType.toNat = 6
    omega
  rcases hcases with rfl | rfl | rfl
  · refine ⟨4, ?_, rfl⟩
    rw [networkOf, if_neg (by rw [hregtest]; decide)]
    rfl
  · exact ⟨4, rfl, rfl⟩
  · exact ⟨6, rfl, rfl⟩

/-! ### There and back -/

/-- Signatures have 64 bytes. -/
structure InvoiceEnv.Sound (env : InvoiceEnv) : Prop where
  sign : ∀ hash sign, env.signNodekey hash = some sign → sign.length = 64

/-- What is behind a signature: the node signed, and a recovery id was found for its key. -/
theorem invoiceSignature_ok {env : InvoiceEnv} {pubkey hash sign : Bytes}
    (hsign : invoiceSignature env pubkey hash = .ok sign) :
    ∃ raw recid key, env.signNodekey hash = some raw ∧
      btcTxRecoverPubkeyId env.group pubkey raw hash = .found recid key ∧
      sign = raw.take 64 ++ [recid.toUInt8] := by
  rw [invoiceSignature] at hsign
  cases hraw : env.signNodekey hash with
  | none =>
      rw [hraw] at hsign
      exact absurd hsign (by simp [given, Bind.bind, Except.bind])
  | some raw =>
      simp only [hraw, given, Bind.bind, Except.bind] at hsign
      split at hsign
      case h_1 => exact absurd hsign (by simp)
      case h_2 => exact absurd hsign (by simp)
      case h_3 recid key hfound =>
        cases hsign
        exact ⟨raw, recid, key, rfl, hfound, rfl⟩

/-- An invoice that is not signed is refused, or an assertion fails. -/
theorem invoiceSignature_error {env : InvoiceEnv} {pubkey hash : Bytes} {failure : Failure}
    (herror : invoiceSignature env pubkey hash = .error failure) : failure ≠ .exceeded := by
  rintro rfl
  rw [invoiceSignature] at herror
  cases hraw : env.signNodekey hash with
  | none =>
      rw [hraw] at herror
      exact absurd herror (by simp [given, Bind.bind, Except.bind])
  | some raw =>
      simp only [hraw, given, Bind.bind, Except.bind] at herror
      split at herror
      case h_1 => exact absurd herror (by simp)
      case h_2 => exact absurd herror (by simp)
      case h_3 => exact absurd herror (by simp [pure, Except.pure])

theorem signatureKey_invoiceSignature {env : InvoiceEnv} (henv : env.Sound)
    {pubkey hash sign : Bytes} (hsign : invoiceSignature env pubkey hash = .ok sign) :
    sign.length = 65 ∧ ∃ recid, signatureKey env hash (groupsOf sign) = .found recid pubkey := by
  obtain ⟨raw, recid, key, hraw, hrecid, rfl⟩ := invoiceSignature_ok hsign
  have hlength := henv.sign hash raw hraw
  obtain ⟨hsmall, hrecover⟩ := btcTxRecoverPubkey_of_id hrecid
  have htake : raw.take 64 = raw := List.take_of_length_le (Nat.le_of_eq hlength)
  have hbyte : recid.toUInt8.toNat = recid := Nat.mod_eq_of_lt (by omega)
  have hlast : (raw ++ [recid.toUInt8]).getD 64 0 = recid.toUInt8 := by
    rw [← hlength, List.getD_eq_getElem?_getD, List.getElem?_concat_length]
    rfl
  have hfront : (raw ++ [recid.toUInt8]).take 64 = raw := by
    rw [← hlength, List.take_left]
  rw [htake]
  have hsize : (raw ++ [recid.toUInt8]).length = 65 := by
    rw [List.length_append, hlength]
    rfl
  refine ⟨hsize, recid, ?_⟩
  rw [signatureKey, lnConvertBits_exact]
  simp only [hlast, hbyte, hfront, Bool.not_true, Bool.false_eq_true, if_false, hrecover]

section Decode

variable {env : InvoiceEnv} {invoice fresh : LnInvoice} {hrp data sign rest : Bytes}
  {hrpType behind : UInt8} {lenHrp turns now : Nat} {amount : UInt64}

/-- An invoice that was signed is read field by field. -/
theorem readInvoice_unsigned (henv : env.Sound) (hsized : invoice.Sized)
    (hcount : invoice.rField.length ≤ 9) (hearly : 32 ^ 6 ≤ now) (hlate : now < 32 ^ 7)
    (hsign : invoiceSignature env invoice.pubkey
      (signedHash env hrp (unsignedGroups behind now invoice)) = .ok sign)
    (hnetwork : networkOf hrp = some (invoice.hrpType, lenHrp))
    (hread : ∀ data, readAmount (hrp.drop lenHrp) data 0 = .done amount 0)
    (hturns : dataSize ≤ turns) :
    (readInvoice env fresh hrp (unsignedGroups behind now invoice ++ groupsOf sign).length
        turns).run ((unsignedGroups behind now invoice ++ groupsOf sign) ++ rest) =
      .done (some { invoice with amountMsat := amount, timestamp := UInt64.ofNat now })
        (unsignedGroups behind now invoice).length := by
  obtain ⟨hsize, recid, hkey⟩ := signatureKey_invoiceSignature henv hsign
  have hstamp := lnConvert64To8_spec behind (Nat.lt_trans hlate (by decide) : now < 32 ^ 8)
  have hseven : (lnConvert64To8 behind now).length = 7 := by
    have hle := (hstamp.2.2 6).mpr hlate
    have hgt := mt (hstamp.2.2 5).mp (Nat.not_lt.mpr hearly)
    omega
  have hunsigned := unsignedGroups_eq hsized behind now
  have hlength : (unsignedGroups behind now invoice).length =
      7 + (tagGroups behind invoice).length := by
    rw [hunsigned, List.length_append, hseven]
  have hshort : (unsignedGroups behind now invoice).length < dataSize := by
    have htags := (length_tagGroups hsized behind).2
    have hhops := length_rFieldGroups hsized.nodeId
    have hbound : (rFieldGroups invoice.rField).length ≤ 738 := by
      rw [hhops]
      split <;> omega
    rw [hlength, dataSize]
    omega
  have hsig : (groupsOf sign).length = sigGroups := by
    rw [length_groupsOf, hsize]
    rfl
  have htotal : (unsignedGroups behind now invoice ++ groupsOf sign).length =
      (unsignedGroups behind now invoice).length + sigGroups := by
    rw [List.length_append, hsig]
  generalize hdata : unsignedGroups behind now invoice ++ groupsOf sign ++ rest = data
  have htake : data.take (unsignedGroups behind now invoice).length =
      unsignedGroups behind now invoice := by
    rw [← hdata, List.append_assoc, List.take_left]
  have hdrop : (data.drop (unsignedGroups behind now invoice).length).take sigGroups =
      groupsOf sign := by
    rw [← hdata, List.append_assoc, List.drop_left, ← hsig, List.take_left]
  have htime : lnConvertBe64 (data.take 7) = UInt64.ofNat now := by
    rw [← hdata, hunsigned, ← hseven, List.append_assoc, List.append_assoc, List.take_left]
    exact lnConvertBe64_convert behind (Nat.lt_trans hlate (by decide))
  have hstands : Stands data 7 (tagGroups behind invoice ++ (groupsOf sign ++ rest)) := by
    have hstart := Stands.start data
    have hsplit : data = lnConvert64To8 behind now ++
        (tagGroups behind invoice ++ (groupsOf sign ++ rest)) := by
      rw [← hdata, hunsigned, List.append_assoc, List.append_assoc]
    rw [hsplit] at hstart
    have hbehind := hstart.behind
    rwa [← hsplit, Nat.zero_add, hseven] at hbehind
  have hroom : ¬ (unsignedGroups behind now invoice).length + sigGroups < sigGroups := by omega
  have hfields : Loops (tagGroups behind invoice)
      { fresh with
        hrpType := invoice.hrpType
        amountMsat := amount
        timestamp := UInt64.ofNat now
        expiry := lnInvoiceExpiry
        minFinalCltvExpiry := lnMinFinalCltvExpiry
        pubkey := invoice.pubkey
        rField := [] }
      { invoice with amountMsat := amount, timestamp := UInt64.ofNat now } :=
    loops_tagGroups hsized (by omega) behind rfl rfl rfl
  have hend : LoopsTo data (unsignedGroups behind now invoice).length
      { invoice with amountMsat := amount, timestamp := UInt64.ofNat now }
      (7 + (tagGroups behind invoice).length)
      { invoice with amountMsat := amount, timestamp := UInt64.ofNat now } := by
    rw [← hlength]
    exact loopsTo_end _ _ _
  have hdone := hfields data 7 _ _ _ hstands (Nat.le_of_eq hlength.symm) hend turns (by omega)
  rw [htotal, run, readInvoice, hnetwork]
  simp only []
  rw [bind_done (hread data), if_neg hroom, Nat.add_sub_cancel]
  rw [bind_done (show message data 0 = .done data 0 from rfl), htake, hdrop, htime,
    convertInto_eq, bind_done (show (pure _ : WireReader Unit Bytes) data 0 = .done _ 0 from rfl),
    hkey]
  exact hdone

end Decode

/-- At a time, the invoice is written into its buffers, and when a string comes out, reading it
gives the invoice back, whatever the memory held before. -/
def RoundTrips (env : InvoiceEnv) (behind : UInt8) (now : Nat) (invoice : LnInvoice) : Prop :=
  lnInvoiceEncode env behind now invoice ≠ .error .exceeded ∧
    ∀ string, lnInvoiceEncode env behind now invoice = .ok string →
      ∀ (fresh : LnInvoice) (stack : Bytes) (turns : Nat),
        stack.length = dataSize → dataSize ≤ turns →
          ∃ decoded pos, lnInvoiceDecode env fresh stack turns string = .done (some decoded) pos ∧
            { decoded with timestamp := invoice.timestamp } = invoice

/-- The node signs the invoice, and its key is found. -/
def signs (env : InvoiceEnv) (behind : UInt8) (now : Nat) (invoice : LnInvoice) : Bool :=
  (invoiceSignature env invoice.pubkey
    (signedHash env (lnHrpStr invoice.hrpType ++ amountStr invoice.amountMsat)
      (unsignedGroups behind now invoice))).isOk

/-- For a network, the amount has room in `amount_str` and the hops in `data`, and when the node
signs, the signature has room behind at most nine hops and the amount survives its unit. -/
def Encodable (env : InvoiceEnv) (behind : UInt8) (now : Nat) (invoice : LnInvoice) : Prop :=
  hrpTypeOk invoice.hrpType = true →
    AmountFits invoice.amountMsat ∧ invoice.rField.length ≤ 10 ∧
      (signs env behind now invoice = true →
        invoice.rField.length ≤ 9 ∧ AmountKept invoice.amountMsat)

section RoundTrip

variable {env : InvoiceEnv} {behind : UInt8} {now : Nat} {invoice : LnInvoice}

/-- The groups before the signature: 136 to 156, and what the hops need. -/
theorem length_unsignedGroups (hsized : invoice.Sized) (behind : UInt8) (hearly : 32 ^ 6 ≤ now)
    (hlate : now < 32 ^ 7) :
    136 + (rFieldGroups invoice.rField).length ≤ (unsignedGroups behind now invoice).length ∧
      (unsignedGroups behind now invoice).length ≤ 156 + (rFieldGroups invoice.rField).length := by
  have hstamp := lnConvert64To8_spec behind (Nat.lt_trans hlate (by decide) : now < 32 ^ 8)
  have hle := (hstamp.2.2 6).mpr hlate
  have hgt := mt (hstamp.2.2 5).mp (Nat.not_lt.mpr hearly)
  have htags := length_tagGroups hsized behind
  rw [unsignedGroups_eq hsized, List.length_append]
  omega

theorem length_lnHrpStr (hrpType : UInt8) : (lnHrpStr hrpType).length ≤ 6 := by
  rw [lnHrpStr]
  split
  · decide
  split <;> decide

theorem length_rFieldGroups_le (hsized : invoice.Sized) (count : Nat)
    (hcount : invoice.rField.length ≤ count) :
    (rFieldGroups invoice.rField).length ≤ 3 + (408 * count + 4) / 5 := by
  rw [length_rFieldGroups hsized.nodeId]
  split <;> omega

theorem le_length_rFieldGroups (hsized : invoice.Sized) (count : Nat) (hpos : 0 < count)
    (hcount : count ≤ invoice.rField.length) :
    3 + (408 * count + 4) / 5 ≤ (rFieldGroups invoice.rField).length := by
  have hnonempty : invoice.rField ≠ [] := by
    apply List.length_pos_iff.mp
    omega
  rw [length_rFieldGroups hsized.nodeId, if_neg hnonempty]
  omega

theorem require_bind {α : Type} {cond : Bool} {failure : Failure} {next : Unit → Except Failure α}
    (hcond : cond = true) : (require cond failure >>= next) = next () := by
  subst hcond
  rfl

theorem require_bind_not {α : Type} {cond : Bool} {failure : Failure}
    {next : Unit → Except Failure α} (hcond : cond = false) :
    (require cond failure >>= next) = .error failure := by
  subst hcond
  rfl

/-- Without room for the amount or for the hops, a buffer is exceeded. -/
theorem lnInvoiceEncode_exceeded (htype : hrpTypeOk invoice.hrpType = true)
    (hsized : invoice.Sized) (hearly : 32 ^ 6 ≤ now) (hlate : now < 32 ^ 7)
    (hnot : ¬ (AmountFits invoice.amountMsat ∧ invoice.rField.length ≤ 10)) :
    lnInvoiceEncode env behind now invoice = .error .exceeded := by
  have hhrp := length_lnHrpStr invoice.hrpType
  rw [← length_amountStr_lt_iff] at hnot
  rw [lnInvoiceEncode, require_bind htype]
  by_cases hamount : (amountStr invoice.amountMsat).length < amountStrSize
  · have hshort : (lnHrpStr invoice.hrpType ++ amountStr invoice.amountMsat).length <
        hrpBufSize := by
      rw [amountStrSize] at hamount
      rw [List.length_append, hrpBufSize]
      omega
    have hlong : ¬ (unsignedGroups behind now invoice).length ≤ dataSize := by
      have hunsigned := length_unsignedGroups hsized behind hearly hlate
      have hhops := le_length_rFieldGroups hsized 11 (by decide) (by omega)
      rw [dataSize]
      omega
    rw [require_bind (decide_eq_true hamount), require_bind (decide_eq_true hshort),
      require_bind_not (decide_eq_false hlong)]
  · rw [require_bind_not (decide_eq_false hamount)]

/-- With room for both, the signature decides. -/
theorem lnInvoiceEncode_eq (htype : hrpTypeOk invoice.hrpType = true)
    (hsized : invoice.Sized) (hearly : 32 ^ 6 ≤ now) (hlate : now < 32 ^ 7)
    (hfits : AmountFits invoice.amountMsat) (hcount : invoice.rField.length ≤ 10) :
    lnInvoiceEncode env behind now invoice =
      (invoiceSignature env invoice.pubkey
        (signedHash env (lnHrpStr invoice.hrpType ++ amountStr invoice.amountMsat)
          (unsignedGroups behind now invoice)) >>= fun sign => do
        require (decide ((unsignedGroups behind now invoice ++ groupsOf sign).length ≤ dataSize))
          .exceeded
        given (btcBech32Encode invoiceSize
          (lnHrpStr invoice.hrpType ++ amountStr invoice.amountMsat)
          (unsignedGroups behind now invoice ++ groupsOf sign) true)) := by
  have hhrp := length_lnHrpStr invoice.hrpType
  have hamount := (length_amountStr_lt_iff invoice.amountMsat).mpr hfits
  have hunsigned := length_unsignedGroups hsized behind hearly hlate
  have hhops := length_rFieldGroups_le hsized 10 hcount
  have hpacked := length_lnConvertBits (by decide : 0 < 8) (by decide) (by decide : 5 ≤ 8)
    (unsignedGroups behind now invoice)
  have hlength : (lnHrpStr invoice.hrpType ++ amountStr invoice.amountMsat).length < 26 := by
    rw [amountStrSize] at hamount
    rw [List.length_append]
    omega
  have hshort : (lnHrpStr invoice.hrpType ++ amountStr invoice.amountMsat).length <
      hrpBufSize := Nat.lt_trans hlength (by decide)
  have hdata : (unsignedGroups behind now invoice).length ≤ dataSize := by
    rw [dataSize]
    omega
  have hhashdata : (lnHrpStr invoice.hrpType ++ amountStr invoice.amountMsat).length +
      (lnConvertBits 8 (unsignedGroups behind now invoice) 5 true).1.length ≤ hashdataSize := by
    rw [hpacked, hashdataSize]
    omega
  rw [lnInvoiceEncode, require_bind htype, require_bind (decide_eq_true hamount),
    require_bind (decide_eq_true hshort), require_bind (decide_eq_true hdata),
    require_bind (decide_eq_true hhashdata)]

/-- A signed invoice with room for its hops has a string. -/
theorem encoded_some (hsized : invoice.Sized) (hearly : 32 ^ 6 ≤ now) (hlate : now < 32 ^ 7)
    (hfits : AmountFits invoice.amountMsat) (hcount : invoice.rField.length ≤ 9)
    (sign : Bytes) (hsize : sign.length = 65) :
    ∃ string, btcBech32Encode invoiceSize
      (lnHrpStr invoice.hrpType ++ amountStr invoice.amountMsat)
      (unsignedGroups behind now invoice ++ groupsOf sign) true = some string := by
  have hunsigned := length_unsignedGroups hsized behind hearly hlate
  have hhops := length_rFieldGroups_le hsized 9 hcount
  have hamount := (length_amountStr_lt_iff invoice.amountMsat).mpr hfits
  have hhrp := length_lnHrpStr invoice.hrpType
  have hnames : ∀ ch ∈ lnHrpStr invoice.hrpType, hrpChar ch = true ∧ isUpper ch = false := by
    rw [lnHrpStr]
    split
    · decide +kernel
    split <;> decide +kernel
  have hname : lnHrpStr invoice.hrpType ≠ [] := by
    rw [lnHrpStr]
    split
    · decide
    split <;> decide
  apply btcBech32Encode_some
  · intro hnil
    exact hname (List.append_eq_nil_iff.mp hnil).1
  · rw [amountStrSize] at hamount
    rw [List.length_append, List.length_append, length_groupsOf, hsize, invoiceSize]
    omega
  · intro ch hmem
    rcases List.mem_append.mp hmem with hmem | hmem
    · exact hnames ch hmem
    · exact (amountStr_chars invoice.amountMsat ch hmem).1
  · rw [unsignedGroups_eq hsized]
    apply Radix.Below.append _ (groups_groupsOf sign)
    apply Radix.Below.append _ (groups_tagGroups hsized (by omega) behind)
    exact (lnConvert64To8_spec behind (Nat.lt_trans hlate (by decide))).1

/-- What comes out of reading a signed invoice: itself, if its amount is kept. -/
theorem reads_signed_iff (henv : env.Sound) (hsized : invoice.Sized)
    (htype : hrpTypeOk invoice.hrpType = true) (hearly : 32 ^ 6 ≤ now) (hlate : now < 32 ^ 7)
    (hfits : AmountFits invoice.amountMsat) (hcount : invoice.rField.length ≤ 9) {sign : Bytes}
    (hsign : invoiceSignature env invoice.pubkey
      (signedHash env (lnHrpStr invoice.hrpType ++ amountStr invoice.amountMsat)
        (unsignedGroups behind now invoice)) = .ok sign) {string : Bytes}
    (hencode : btcBech32Encode invoiceSize
      (lnHrpStr invoice.hrpType ++ amountStr invoice.amountMsat)
      (unsignedGroups behind now invoice ++ groupsOf sign) true = some string) :
    (∀ (fresh : LnInvoice) (stack : Bytes) (turns : Nat),
      stack.length = dataSize → dataSize ≤ turns →
        ∃ decoded pos, lnInvoiceDecode env fresh stack turns string = .done (some decoded) pos ∧
          { decoded with timestamp := invoice.timestamp } = invoice) ↔
      AmountKept invoice.amountMsat := by
  have hsize := (signatureKey_invoiceSignature henv hsign).1
  have hunsigned := length_unsignedGroups hsized behind hearly hlate
  have hhops := length_rFieldGroups_le hsized 9 hcount
  have hamount := (length_amountStr_lt_iff invoice.amountMsat).mpr hfits
  have hhrp := length_lnHrpStr invoice.hrpType
  have hlength : (unsignedGroups behind now invoice ++ groupsOf sign).length =
      (unsignedGroups behind now invoice).length + 104 := by
    rw [List.length_append, length_groupsOf, hsize]
  have hdecode : btcBech32Decode hrpSize dataSize string true =
      some (lnHrpStr invoice.hrpType ++ amountStr invoice.amountMsat,
        unsignedGroups behind now invoice ++ groupsOf sign) := by
    apply btcBech32Decode_encode hencode
    · rw [amountStrSize] at hamount
      rw [List.length_append, hrpSize]
      omega
    · rw [hlength, dataSize]
      omega
    · rw [hlength]
      omega
  obtain ⟨lenHrp, hnetwork, hdrop⟩ := networkOf_amountStr htype invoice.amountMsat
  have hrun : ∀ fresh stack turns, lnInvoiceDecode env fresh stack turns string =
      (readInvoice env fresh (lnHrpStr invoice.hrpType ++ amountStr invoice.amountMsat)
        (unsignedGroups behind now invoice ++ groupsOf sign).length turns).run
        ((unsignedGroups behind now invoice ++ groupsOf sign) ++
          stack.drop (unsignedGroups behind now invoice ++ groupsOf sign).length) := by
    intro fresh stack turns
    rw [lnInvoiceDecode, hdecode]
  rcases readAmount_amountStr hfits with ⟨hread, hlost⟩ | ⟨amount, hread, hkept⟩
  · apply iff_of_false _ hlost
    intro hall
    obtain ⟨decoded, pos, hdone, _⟩ := hall invoice (List.replicate dataSize 0) dataSize
      List.length_replicate (Nat.le_refl dataSize)
    rw [hrun, run, readInvoice, hnetwork] at hdone
    simp only [hdrop, hread] at hdone
    exact absurd hdone (by simp [refuse, Bind.bind])
  · have hdone : ∀ fresh stack turns, dataSize ≤ turns →
        lnInvoiceDecode env fresh stack turns string =
          .done (some { invoice with amountMsat := amount, timestamp := UInt64.ofNat now })
            (unsignedGroups behind now invoice).length := by
      intro fresh stack turns hturns
      rw [hrun]
      apply readInvoice_unsigned henv hsized hcount hearly hlate hsign hnetwork _ hturns
      intro data
      rw [hdrop, hread]
      rfl
    rw [← hkept]
    constructor
    · intro hall
      obtain ⟨decoded, pos, hdecoded, hsame⟩ := hall invoice (List.replicate dataSize 0) dataSize
        List.length_replicate (Nat.le_refl dataSize)
      rw [hdone _ _ _ (Nat.le_refl dataSize)] at hdecoded
      cases hdecoded
      exact congrArg LnInvoice.amountMsat hsame
    · intro hsame fresh stack turns _ hturns
      refine ⟨_, _, hdone fresh stack turns hturns, ?_⟩
      rw [hsame]

theorem RoundTrips.of_error {failure : Failure}
    (herror : lnInvoiceEncode env behind now invoice = .error failure)
    (hbuffers : failure ≠ .exceeded) : RoundTrips env behind now invoice := by
  rw [RoundTrips, herror]
  refine ⟨?_, fun _ hok => absurd hok (by simp)⟩
  intro hexceeded
  cases hexceeded
  exact hbuffers rfl

theorem signs_eq_true_iff : signs env behind now invoice = true ↔
    ∃ sign, invoiceSignature env invoice.pubkey
      (signedHash env (lnHrpStr invoice.hrpType ++ amountStr invoice.amountMsat)
        (unsignedGroups behind now invoice)) = .ok sign := by
  rw [signs]
  cases invoiceSignature env invoice.pubkey
      (signedHash env (lnHrpStr invoice.hrpType ++ amountStr invoice.amountMsat)
        (unsignedGroups behind now invoice)) <;> simp [Except.isOk, Except.toBool]

/-- An invoice that the node does not sign comes to no string, within the buffers. -/
theorem roundTrips_unsigned (htype : hrpTypeOk invoice.hrpType = true)
    (hsized : invoice.Sized) (hearly : 32 ^ 6 ≤ now) (hlate : now < 32 ^ 7)
    (hfits : AmountFits invoice.amountMsat) (hcount : invoice.rField.length ≤ 10)
    (hsigns : signs env behind now invoice = false) :
    RoundTrips env behind now invoice := by
  have hencode : lnInvoiceEncode env behind now invoice = _ :=
    lnInvoiceEncode_eq htype hsized hearly hlate hfits hcount
  cases hsign : invoiceSignature env invoice.pubkey
      (signedHash env (lnHrpStr invoice.hrpType ++ amountStr invoice.amountMsat)
        (unsignedGroups behind now invoice)) with
  | ok sign =>
      have hsome := signs_eq_true_iff.mpr ⟨sign, hsign⟩
      exact absurd (hsigns.symm.trans hsome) Bool.false_ne_true
  | error failure =>
      rw [hsign] at hencode
      exact .of_error hencode (invoiceSignature_error hsign)

/-- Once the invoice is signed, the signature needs 104 groups of room. -/
theorem lnInvoiceEncode_signed (htype : hrpTypeOk invoice.hrpType = true)
    (hsized : invoice.Sized) (hearly : 32 ^ 6 ≤ now) (hlate : now < 32 ^ 7)
    (hfits : AmountFits invoice.amountMsat) (hcount : invoice.rField.length ≤ 10) {sign : Bytes}
    (hsign : invoiceSignature env invoice.pubkey
      (signedHash env (lnHrpStr invoice.hrpType ++ amountStr invoice.amountMsat)
        (unsignedGroups behind now invoice)) = .ok sign) (hsize : sign.length = 65) :
    lnInvoiceEncode env behind now invoice = (do
      require (decide ((unsignedGroups behind now invoice).length + 104 ≤ dataSize)) .exceeded
      given (btcBech32Encode invoiceSize
        (lnHrpStr invoice.hrpType ++ amountStr invoice.amountMsat)
        (unsignedGroups behind now invoice ++ groupsOf sign) true)) := by
  have hlength : (unsignedGroups behind now invoice ++ groupsOf sign).length =
      (unsignedGroups behind now invoice).length + 104 := by
    rw [List.length_append, length_groupsOf, hsize]
  rw [lnInvoiceEncode_eq htype hsized hearly hlate hfits hcount, hsign, ← hlength]
  rfl

/-- Behind ten hops there is no room for a signature. -/
theorem lnInvoiceEncode_tenHops (henv : env.Sound) (htype : hrpTypeOk invoice.hrpType = true)
    (hsized : invoice.Sized) (hearly : 32 ^ 6 ≤ now) (hlate : now < 32 ^ 7)
    (hfits : AmountFits invoice.amountMsat) (hcount : invoice.rField.length ≤ 10)
    (hten : ¬ invoice.rField.length ≤ 9) (hsigns : signs env behind now invoice = true) :
    lnInvoiceEncode env behind now invoice = .error .exceeded := by
  obtain ⟨sign, hsign⟩ := signs_eq_true_iff.mp hsigns
  have hunsigned := length_unsignedGroups hsized behind hearly hlate
  have hhops := le_length_rFieldGroups hsized 10 (by decide) (by omega)
  have hfull : ¬ (unsignedGroups behind now invoice).length + 104 ≤ dataSize := by
    rw [dataSize]
    omega
  rw [lnInvoiceEncode_signed htype hsized hearly hlate hfits hcount hsign
    (signatureKey_invoiceSignature henv hsign).1, require_bind_not (decide_eq_false hfull)]

/-- Behind fewer hops there is, and the string reads back exactly when the amount is kept. -/
theorem roundTrips_signed_iff (henv : env.Sound) (htype : hrpTypeOk invoice.hrpType = true)
    (hsized : invoice.Sized) (hearly : 32 ^ 6 ≤ now) (hlate : now < 32 ^ 7)
    (hfits : AmountFits invoice.amountMsat) (hnine : invoice.rField.length ≤ 9)
    (hsigns : signs env behind now invoice = true) :
    RoundTrips env behind now invoice ↔ AmountKept invoice.amountMsat := by
  obtain ⟨sign, hsign⟩ := signs_eq_true_iff.mp hsigns
  have hsize := (signatureKey_invoiceSignature henv hsign).1
  have hunsigned := length_unsignedGroups hsized behind hearly hlate
  have hhops := length_rFieldGroups_le hsized 9 hnine
  have hroom : (unsignedGroups behind now invoice).length + 104 ≤ dataSize := by
    rw [dataSize]
    omega
  obtain ⟨string, hstring⟩ := encoded_some hsized hearly hlate hfits hnine sign hsize
  have hok : lnInvoiceEncode env behind now invoice = .ok string := by
    rw [lnInvoiceEncode_signed htype hsized hearly hlate hfits (Nat.le_succ_of_le hnine) hsign
      hsize, require_bind (decide_eq_true hroom), hstring]
    rfl
  rw [← reads_signed_iff henv hsized htype hearly hlate hfits hnine hsign hstring, RoundTrips, hok]
  constructor
  · intro hround
    exact hround.2 string rfl
  · intro hreads
    refine ⟨fun herror => absurd herror (by simp), ?_⟩
    intro string' hok'
    cases hok'
    exact hreads

end RoundTrip

/-- An invoice makes the round trip exactly when its hops and its amount have room and its amount
survives its unit. -/
theorem roundTrips_iff {env : InvoiceEnv} (henv : env.Sound) (behind : UInt8) {now : Nat}
    (hearly : 32 ^ 6 ≤ now) (hlate : now < 32 ^ 7) {invoice : LnInvoice} (hsized : invoice.Sized) :
    RoundTrips env behind now invoice ↔ Encodable env behind now invoice := by
  by_cases htype : hrpTypeOk invoice.hrpType = true
  swap
  · have hrefused : lnInvoiceEncode env behind now invoice = .error .refused := by
      rw [lnInvoiceEncode, require_bind_not (Bool.not_eq_true _ ▸ htype)]
    exact iff_of_true (.of_error hrefused (by simp)) fun hok => absurd hok htype
  by_cases hroom : AmountFits invoice.amountMsat ∧ invoice.rField.length ≤ 10
  swap
  · have hexceeded : lnInvoiceEncode env behind now invoice = .error .exceeded :=
      lnInvoiceEncode_exceeded htype hsized hearly hlate hroom
    apply iff_of_false
    · intro hround
      exact hround.1 hexceeded
    · intro hencodable
      exact hroom ⟨(hencodable htype).1, (hencodable htype).2.1⟩
  obtain ⟨hfits, hcount⟩ := hroom
  cases hsigns : signs env behind now invoice with
  | false =>
      have hround := roundTrips_unsigned htype hsized hearly hlate hfits hcount hsigns
      refine iff_of_true hround fun _ => ⟨hfits, hcount, fun hsome => ?_⟩
      exact absurd (hsigns.symm.trans hsome) Bool.false_ne_true
  | true =>
      by_cases hnine : invoice.rField.length ≤ 9
      · rw [roundTrips_signed_iff henv htype hsized hearly hlate hfits hnine hsigns]
        constructor
        · exact fun hkept _ => ⟨hfits, hcount, fun _ => ⟨hnine, hkept⟩⟩
        · exact fun hencodable => ((hencodable htype).2.2 hsigns).2
      · have hexceeded : lnInvoiceEncode env behind now invoice = .error .exceeded :=
          lnInvoiceEncode_tenHops henv htype hsized hearly hlate hfits hcount hnine hsigns
        apply iff_of_false
        · intro hround
          exact hround.1 hexceeded
        · intro hencodable
          exact hnine ((hencodable htype).2.2 hsigns).1

/-- A node with one key, for fixed inputs. -/
def oneKey : InvoiceEnv where
  sha256 := fun _ => List.replicate 32 1
  signNodekey := fun _ => some (List.replicate 64 1)
  group := .permissive

theorem oneKey_sound : oneKey.Sound where
  sign := by
    intro hash sign hsign
    have hraw : sign = List.replicate 64 1 := (Option.some_inj.mp hsign).symm
    rw [hraw, List.length_replicate]

/-- An invoice of 2500 units of `u` with a number of hops. -/
def hopsInvoice (count : Nat) : LnInvoice where
  hrpType := lnInvoiceTestnet
  amountMsat := 250000000
  timestamp := 0
  expiry := 60
  minFinalCltvExpiry := 144
  pubkey := List.replicate 33 2
  paymentHash := List.replicate 32 7
  rField := List.replicate count ⟨List.replicate 33 3, 0x0102030405060708, 1, 20, 3⟩

theorem hopsInvoice_sized {count : Nat} (hcount : count < 256) : (hopsInvoice count).Sized where
  pubkey := List.length_replicate
  paymentHash := List.length_replicate
  nodeId := by
    intro hop hmem
    rw [List.eq_of_mem_replicate hmem, List.length_replicate]
  rField := by
    change (List.replicate count _).length < 256
    rw [List.length_replicate]
    exact hcount

theorem roundTrips_oneHop : RoundTrips oneKey 0 1533000000 (hopsInvoice 1) := by
  apply (roundTrips_iff oneKey_sound 0 (by decide) (by decide)
    (hopsInvoice_sized (by decide))).mpr
  intro _
  exact ⟨Or.inl (by decide), by decide, fun _ => ⟨by decide, Or.inl (by decide)⟩⟩

/-- Eleven hops have no room in `data`. -/
theorem elevenHops_not_roundTrips : ¬ RoundTrips oneKey 0 1533000000 (hopsInvoice 11) := by
  intro hround
  apply hround.1
  apply lnInvoiceEncode_exceeded (by decide) (hopsInvoice_sized (by decide)) (by decide)
    (by decide)
  rintro ⟨_, hcount⟩
  exact absurd hcount (by decide)

end Invoice

end Ptarmigan
