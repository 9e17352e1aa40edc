/-
Which strings can be given to `ln_invoice_decode`: reading one never leaves a buffer, and what is
accepted has its fields before the signature, a payment hash and an amount that fits.
-/
import Ptarmigan.Invoice

namespace Ptarmigan

namespace Invoice

open WireReader Bech32 RecoverPubkey Routing

/-! ### The fields of an invoice -/

/-- A tagged field: where it starts, its type and how many groups its data has. -/
structure Tag where
  start : Nat
  type : UInt8
  len : Nat
deriving DecidableEq, Repr

/-- Where the next field starts. -/
def Tag.stop (tag : Tag) : Nat := tag.start + 3 + tag.len

/-- An `r` field that has no room for a hop, at which reading ends. -/
def Tag.short (tag : Tag) : Bool :=
  tag.type == 3 && decide (tag.len * 5 / 8 < fieldRSize)

/-- A payment hash gets a buffer that is not shorter than a hash. -/
def Tag.HoldsHash (tag : Tag) : Prop := tag.type = 1 → 50 ≤ tag.len

def tagAt (groups : List UInt8) (start : Nat) : Tag :=
  let head := (groups.drop start).take 3
  ⟨start, head.getD 0 0, tagLen head⟩

/-- The fields that start before the signature, from a position on. -/
def tagsFrom (groups : List UInt8) (sig : Nat) : Nat → Nat → List Tag
  | 0, _ => []
  | turns + 1, pos =>
      if pos < sig then tagAt groups pos :: tagsFrom groups sig turns (tagAt groups pos).stop
      else []

/-- The fields of an invoice, behind the timestamp. -/
def tagsOf (groups : List UInt8) : List Tag :=
  tagsFrom groups (groups.length - sigGroups) dataSize 7

/-- The fields up to the first that ends the reading. -/
def readTags : List Tag → List Tag
  | [] => []
  | tag :: tags => if tag.short then [tag] else tag :: readTags tags

theorem tagsFrom_enough {groups : List UInt8} {sig turns turns' pos : Nat}
    (hturns : sig ≤ pos + turns) (hturns' : sig ≤ pos + turns') :
    tagsFrom groups sig turns pos = tagsFrom groups sig turns' pos := by
  induction turns generalizing turns' pos with
  | zero =>
      have hend : ¬ pos < sig := by omega
      cases turns' with
      | zero => rfl
      | succ turns' => rw [tagsFrom, tagsFrom, if_neg hend]
  | succ turns ih =>
      by_cases hinside : pos < sig
      · have hstop : pos + 3 ≤ (tagAt groups pos).stop := Nat.le_add_right _ _
        cases turns' with
        | zero => omega
        | succ turns' =>
            have htail := @ih turns' (tagAt groups pos).stop (by omega) (by omega)
            rw [tagsFrom, tagsFrom, if_pos hinside, if_pos hinside, htail]
      · cases turns' with
        | zero => rw [tagsFrom, tagsFrom, if_neg hinside]
        | succ turns' => rw [tagsFrom, tagsFrom, if_neg hinside, if_neg hinside]

/-! ### Reading the fields -/

section Loop

variable {groups rest : List UInt8} {pos : Nat}

theorem wp_convertInto (len : Nat) {values : List UInt8} (hlen : values.length = len)
    (post : Bytes → Nat → Prop) :
    wp (convertInto ((len * 5 + 7) / 8) values) (groups ++ rest) pos post ↔
      post (lnConvertBits 8 values 5 true).1 pos := by
  rw [← hlen, convertInto_eq]
  exact wp_pure _

/-- A field is read without a fault when it ends in the buffer and gives a whole hash; what has to
hold behind it is asked for unless it is short. -/
theorem wp_lnAnalyzeTag (hhead : pos + 3 ≤ groups.length) (invoice : LnInvoice) {result : Prop}
    {post : LnInvoice → Nat → Prop}
    (hpost : ∀ invoice, post invoice (tagAt groups pos).stop ↔ result) :
    wp (lnAnalyzeTag invoice) (groups ++ rest) pos post ↔
      ((tagAt groups pos).stop ≤ (groups ++ rest).length ∧ (tagAt groups pos).HoldsHash) ∧
        ((tagAt groups pos).short = false → result) := by
  have hbytes : ((groups ++ rest).drop pos).take 3 = (groups.drop pos).take 3 := by
    rw [List.drop_append_of_le_length (by omega), List.take_append_of_le_length]
    rw [List.length_drop]
    omega
  have hfits : pos + 3 ≤ (groups ++ rest).length := by
    rw [List.length_append]
    omega
  have hstop : (tagAt groups pos).stop = pos + 3 + tagLen ((groups.drop pos).take 3) := rfl
  have hshort : (tagAt groups pos).short = (((groups.drop pos).take 3).getD 0 0 == 3 &&
    decide (tagLen ((groups.drop pos).take 3) * 5 / 8 < fieldRSize)) := rfl
  have hhash : (tagAt groups pos).HoldsHash ↔ (((groups.drop pos).take 3).getD 0 0 = 1 →
    50 ≤ tagLen ((groups.drop pos).take 3)) := Iff.rfl
  rw [hstop] at hpost
  rw [hstop, hshort, hhash, lnAnalyzeTag]
  simp only [wp_bind, wp_bytes, hbytes]
  generalize ((groups.drop pos).take 3).getD 0 0 = tag
  generalize tagLen ((groups.drop pos).take 3) = len at hpost
  by_cases hend : pos + 3 + len ≤ (groups ++ rest).length
  · have hlength : (((groups ++ rest).drop (pos + 3)).take len).length = len := by
      rw [List.length_take, List.length_drop]
      omega
    generalize ((groups ++ rest).drop (pos + 3)).take len = values at hlength
    simp only [hfits, hend, true_and]
    by_cases hexpiry : tag = 6
    · subst hexpiry
      simp [hpost]
    by_cases hcltv : tag = 24
    · subst hcltv
      simp [hpost]
    rw [if_neg hexpiry, if_neg hcltv]
    by_cases hhops : tag = 3
    · subst hhops
      rw [if_pos rfl]
      simp [wp_convertInto len hlength, hpost]
    rw [if_neg hhops, wp_bind, wp_convertInto len hlength]
    have hnot : (tag == 3) = false := beq_false_of_ne hhops
    by_cases hpayment : tag = 1
    · subst hpayment
      by_cases hroom : 50 ≤ len
      · have hcapacity : ¬ (len * 5 + 7) / 8 < 32 := by omega
        rw [if_pos rfl, if_neg hcapacity]
        simp [hpost, hroom]
      · have hcapacity : (len * 5 + 7) / 8 < 32 := by omega
        rw [if_pos rfl, if_pos hcapacity]
        simp [hroom]
    · rw [if_neg hpayment]
      simp [hpost, hnot, hpayment]
  · simp only [hend, false_and, and_false]

/-- Every field that is read ends in the buffer and gives a whole hash, and behind the last of them
the condition holds, unless a short one has been met. -/
theorem wp_tagLoop {sig : Nat} (hsig : sig + sigGroups ≤ groups.length) {result : Prop}
    {turns : Nat} (hturns : sig - pos < turns) (invoice : LnInvoice) :
    wp (tagLoop sig turns invoice) (groups ++ rest) pos (fun value _ => value ≠ none ∧ result) ↔
      (∀ tag ∈ readTags (tagsFrom groups sig turns pos),
        tag.stop ≤ (groups ++ rest).length ∧ tag.HoldsHash) ∧
        ((∀ tag ∈ tagsFrom groups sig turns pos, tag.short = false) → result) := by
  induction turns generalizing pos invoice with
  | zero => exact absurd hturns (Nat.not_lt_zero _)
  | succ turns ih =>
      rw [tagLoop, tagsFrom, wp_bind, wp_position]
      by_cases hinside : pos < sig
      · have hstop : pos + 3 ≤ (tagAt groups pos).stop := Nat.le_add_right _ _
        have hhead : pos + 3 ≤ groups.length := by
          rw [sigGroups] at hsig
          omega
        rw [if_pos hinside, if_pos hinside, wp_bind,
          wp_lnAnalyzeTag hhead invoice (fun invoice => ih (by omega) invoice), readTags]
        cases hshort : (tagAt groups pos).short with
        | true => simp [hshort]
        | false => simp [hshort, and_assoc]
      · rw [if_neg hinside, if_neg hinside]
        simp [readTags]

end Loop

/-! ### Reading an amount -/

/-- An amount whose digits are looked at further. -/
def amountPasses (amt : Bytes) : Bool := amt.isEmpty || digitsOk amt

/-- An amount in one of the four units, or none at all. -/
def unitOk (amt : Bytes) : Bool := amt.isEmpty || (scale (amt.getLastD 0) 0).isSome

/-- What an amount stands for, in millisatoshi. -/
def exactMsat (amt : Bytes) : Nat :=
  let number := digitsValue amt.dropLast
  if amt.getLastD 0 = 0x6d then number * 100000000
  else if amt.getLastD 0 = 0x75 then number * 100000
  else if amt.getLastD 0 = 0x6e then number * 100
  else number / 10

theorem isSome_scale (unit : UInt8) (amount : UInt64) :
    (scale unit amount).isSome = (scale unit 0).isSome := by
  simp only [scale, apply_ite Option.isSome, Option.isSome_some, Option.isSome_none]

theorem wp_readAmount (amt : Bytes) {data : List UInt8} {pos : Nat} {result : Prop}
    {post : UInt64 → Nat → Prop} (hpost : ∀ amount, post amount pos ↔ result) :
    wp (readAmount amt) data pos post ↔
      (amountPasses amt = true →
        amt.length ≤ amountStrSize ∧ (unitOk amt = true → result)) := by
  by_cases hempty : amt = []
  · subst hempty
    have hpasses : amountPasses [] = true := rfl
    have hunit : unitOk [] = true := rfl
    have hlength : ([] : Bytes).length ≤ amountStrSize := Nat.zero_le _
    rw [readAmount, if_pos rfl, wp_pure, hpost, hpasses, hunit]
    simp only [hlength, true_and, forall_const]
  · have hpasses : amountPasses amt = digitsOk amt := by simp [amountPasses, hempty]
    have hunit : unitOk amt = (scale (amt.getLastD 0) (strtoull amt.dropLast)).isSome := by
      rw [isSome_scale]
      simp [unitOk, hempty]
    rw [readAmount, if_neg hempty, hpasses, hunit]
    cases hdigits : digitsOk amt with
    | false => simp
    | true =>
        by_cases hlong : amountStrSize < amt.length
        · simp [hlong, Nat.not_le.mpr hlong]
        · rw [if_neg (by simp), if_neg hlong]
          cases hscale : scale (amt.getLastD 0) (strtoull amt.dropLast) with
          | none => simp [Nat.not_lt.mp hlong]
          | some amount => simp [hpost, Nat.not_lt.mp hlong]

/-! ### Reading an invoice -/

/-- What the groups are signed over, and the bytes of the signature with its recovery id; they are
exact without bits behind them. -/
def hashOf (env : InvoiceEnv) (hrp groups : Bytes) : Bytes :=
  signedHash env hrp (groups.take (groups.length - sigGroups))

def signatureOf (groups : Bytes) : Bytes × Bool :=
  lnConvertBits 8 ((groups.drop (groups.length - sigGroups)).take sigGroups) 5 false

/-- The recovered key: the signature is one, and a key belongs to it. -/
def signed (env : InvoiceEnv) (hrp groups : Bytes) : Bool :=
  (signatureOf groups).2 && (btcTxRecoverPubkey env.group ((signatureOf groups).1.getD 64 0).toNat
    ((signatureOf groups).1.take 64) (hashOf env hrp groups)).isFound

/-- No assertion fails while the key is looked for. -/
def KeyRecoverable (env : InvoiceEnv) (hrp groups : Bytes) : Prop :=
  (signatureOf groups).2 = true → ((signatureOf groups).1.getD 64 0).toNat ≤ 3 →
    Recoverable env.group ((signatureOf groups).1.getD 64 0).toNat ((signatureOf groups).1.take 64)
      (hashOf env hrp groups)

/-- What an accepted invoice has to be: its fields end before the signature, among them is a
payment hash, with 52 groups, and the amount is a number of 64 bits. -/
structure Accepted (amt groups : Bytes) : Prop where
  inside : ∀ tag ∈ tagsOf groups, tag.stop ≤ groups.length - sigGroups
  present : ∃ tag ∈ tagsOf groups, tag.type = 1
  paymentHash : ∀ tag ∈ tagsOf groups, tag.type = 1 → tag.len = 52
  amount : exactMsat amt < 2 ^ 64

/-- The groups can be read: a signature has its place, its key can be looked for, and when a key
belongs to it, the fields that are read end in the buffer with room for a hash, and if none of them
ends the reading they make an invoice. -/
structure SafeGroups (env : InvoiceEnv) (hrp amt groups : Bytes) : Prop where
  room : sigGroups ≤ groups.length
  recoverable : KeyRecoverable env hrp groups
  fields : signed env hrp groups = true →
    ∀ tag ∈ readTags (tagsOf groups), tag.stop ≤ dataSize ∧ tag.HoldsHash
  accepted : signed env hrp groups = true → (∀ tag ∈ tagsOf groups, tag.short = false) →
    Accepted amt groups

/-- A string that is decoded for a network with an amount in digits has at most 19 of them, and in
a known unit its groups can be read. -/
def SafeInvoice (env : InvoiceEnv) (invoice : Bytes) : Prop :=
  ∀ hrp groups hrpType lenHrp,
    btcBech32Decode hrpSize dataSize invoice true = some (hrp, groups) →
    networkOf hrp = some (hrpType, lenHrp) →
    amountPasses (hrp.drop lenHrp) = true →
    (hrp.drop lenHrp).length ≤ amountStrSize ∧
      (unitOk (hrp.drop lenHrp) = true → SafeGroups env hrp (hrp.drop lenHrp) groups)

theorem isFound_signatureKey (env : InvoiceEnv) (hrp groups : Bytes) :
    (signatureKey env (signedHash env hrp (groups.take (groups.length - sigGroups)))
      ((groups.drop (groups.length - sigGroups)).take sigGroups)).isFound =
      signed env hrp groups := by
  rw [signatureKey, signed, signatureOf, hashOf]
  simp only []
  split
  case isTrue hinexact =>
    rw [Bool.not_eq_true'] at hinexact
    rw [hinexact]
    rfl
  case isFalse hexact =>
    rw [Bool.not_eq_true', Bool.not_eq_false] at hexact
    rw [hexact, Bool.true_and]

/-- The key recovery stops the program exactly when one of its assertions does not hold. -/
theorem signatureKey_aborted_iff (env : InvoiceEnv) (hrp groups : Bytes) :
    signatureKey env (signedHash env hrp (groups.take (groups.length - sigGroups)))
      ((groups.drop (groups.length - sigGroups)).take sigGroups) = .aborted ↔
      ¬ KeyRecoverable env hrp groups := by
  rw [signatureKey, KeyRecoverable, signatureOf, hashOf]
  simp only []
  generalize lnConvertBits 8 ((groups.drop (groups.length - sigGroups)).take sigGroups) 5 false =
    converted
  obtain ⟨sig, exact⟩ := converted
  cases exact with
  | false => simp
  | true =>
      simp only [Bool.not_true, Bool.false_eq_true, if_false, forall_const]
      by_cases hid : (sig.getD 64 0).toNat ≤ 3
      · rw [btcTxRecoverPubkey_aborted_iff hid, imp_iff_right hid]
      · rw [btcTxRecoverPubkey, if_pos (Nat.not_le.mp hid)]
        exact iff_of_false (by simp) (not_not.mpr fun hsmall => absurd hsmall hid)

theorem wp_readInvoice {env : InvoiceEnv} {fresh : LnInvoice} {hrp groups rest : Bytes}
    {hrpType : UInt8} {lenHrp turns : Nat} (hnetwork : networkOf hrp = some (hrpType, lenHrp))
    (hsize : (groups ++ rest).length = dataSize) (hturns : dataSize ≤ turns) :
    wp (readInvoice env fresh hrp groups.length turns) (groups ++ rest) 0
        (fun value _ => value ≠ none ∧ Accepted (hrp.drop lenHrp) groups) ↔
      (amountPasses (hrp.drop lenHrp) = true →
        (hrp.drop lenHrp).length ≤ amountStrSize ∧
          (unitOk (hrp.drop lenHrp) = true → SafeGroups env hrp (hrp.drop lenHrp) groups)) := by
  rw [readInvoice, hnetwork]
  simp only [wp_bind]
  apply wp_readAmount
  intro amount
  by_cases hroom : groups.length < sigGroups
  · rw [if_pos hroom, wp_fail, false_iff]
    intro hsafe
    exact Nat.not_lt.mpr hsafe.room hroom
  have hsig : groups.length - sigGroups + sigGroups = groups.length :=
    Nat.sub_add_cancel (Nat.not_lt.mp hroom)
  have htake : (groups ++ rest).take (groups.length - sigGroups) =
      groups.take (groups.length - sigGroups) :=
    List.take_append_of_le_length (Nat.sub_le _ _)
  have hdrop : ((groups ++ rest).drop (groups.length - sigGroups)).take sigGroups =
      (groups.drop (groups.length - sigGroups)).take sigGroups := by
    rw [List.drop_append_of_le_length (Nat.sub_le _ _), List.take_append_of_le_length]
    rw [List.length_drop]
    omega
  have hlength : (groups.take (groups.length - sigGroups)).length =
      groups.length - sigGroups := by
    rw [List.length_take]
    omega
  rw [if_neg hroom, wp_bind, wp_message, htake, hdrop, wp_bind, wp_convertInto _ hlength]
  have hsigned := (isFound_signatureKey env hrp groups).symm
  have haborted := signatureKey_aborted_iff env hrp groups
  have henough : tagsFrom groups (groups.length - sigGroups) turns 7 = tagsOf groups := by
    have hle : groups.length ≤ dataSize := by
      rw [← hsize, List.length_append]
      omega
    apply tagsFrom_enough <;> omega
  cases hkey : signatureKey env
      (signedHash env hrp (groups.take (groups.length - sigGroups)))
      ((groups.drop (groups.length - sigGroups)).take sigGroups) with
  | aborted =>
      rw [hkey] at haborted
      simp only [wp_fail, false_iff]
      intro hsafe
      exact haborted.mp rfl hsafe.recoverable
  | notFound =>
      rw [hkey] at hsigned haborted
      have hrecoverable : KeyRecoverable env hrp groups :=
        not_not.mp (mt haborted.mpr (by simp))
      simp only [wp_refuse, true_iff]
      constructor
      · exact Nat.not_lt.mp hroom
      · exact hrecoverable
      · intro hsome
        exact absurd (hsigned.symm.trans hsome) Bool.false_ne_true
      · intro hsome
        exact absurd (hsigned.symm.trans hsome) Bool.false_ne_true
  | found recId pubkey =>
      rw [hkey] at hsigned haborted
      have hrecoverable : KeyRecoverable env hrp groups :=
        not_not.mp (mt haborted.mpr (by simp))
      have hfew : groups.length - sigGroups - (0 + 7) < turns := by
        have hle : groups.length ≤ dataSize := by
          rw [← hsize, List.length_append]
          omega
        have hpos : 0 < dataSize := by decide
        omega
      rw [wp_bind, wp_skip, wp_tagLoop (Nat.le_of_eq hsig) hfew, Nat.zero_add, henough, hsize]
      constructor
      · rintro ⟨hfields, haccepted⟩
        exact ⟨Nat.not_lt.mp hroom, hrecoverable, fun _ => hfields, fun _ => haccepted⟩
      · intro hsafe
        exact ⟨hsafe.fields hsigned, hsafe.accepted hsigned⟩

/-- Whatever the memory held before, reading the string comes to no fault and to an end within a
turn for every group, and what it accepts is an invoice. -/
def DecodesSafely (env : InvoiceEnv) (invoice : Bytes) : Prop :=
  ∀ (fresh : LnInvoice) (stack : Bytes) (turns : Nat),
    stack.length = dataSize → dataSize ≤ turns →
      (∀ reason, lnInvoiceDecode env fresh stack turns invoice ≠ .fault reason) ∧
        ∀ value pos, lnInvoiceDecode env fresh stack turns invoice = .done value pos →
          value ≠ none ∧ ∃ hrp groups hrpType lenHrp,
            btcBech32Decode hrpSize dataSize invoice true = some (hrp, groups) ∧
              networkOf hrp = some (hrpType, lenHrp) ∧ Accepted (hrp.drop lenHrp) groups

theorem decodesSafely_of_refused {env : InvoiceEnv} {invoice : Bytes}
    (hrefused : ∀ fresh stack turns, lnInvoiceDecode env fresh stack turns invoice = .refused ()) :
    DecodesSafely env invoice := by
  intro fresh stack turns _ _
  rw [hrefused]
  constructor
  · intro reason hfault
    exact absurd hfault (by simp)
  · intro value pos hdone
    exact absurd hdone (by simp)

/-- What is given out for a string that is decoded for a network. -/
theorem decodesSafely_iff_wp {env : InvoiceEnv} {invoice hrp groups : Bytes} {hrpType : UInt8}
    {lenHrp : Nat} (hdecode : btcBech32Decode hrpSize dataSize invoice true = some (hrp, groups))
    (hnetwork : networkOf hrp = some (hrpType, lenHrp)) :
    DecodesSafely env invoice ↔ ∀ (fresh : LnInvoice) (stack : Bytes) (turns : Nat),
      stack.length = dataSize → dataSize ≤ turns →
        wp (readInvoice env fresh hrp groups.length turns) (groups ++ stack.drop groups.length) 0
          fun value _ => value ≠ none ∧ Accepted (hrp.drop lenHrp) groups := by
  have hread : ∀ fresh stack turns, lnInvoiceDecode env fresh stack turns invoice =
      (readInvoice env fresh hrp groups.length turns).run
        (groups ++ stack.drop groups.length) := by
    intro fresh stack turns
    rw [lnInvoiceDecode, hdecode]
  have haccepted : (∃ hrp groups hrpType lenHrp,
      btcBech32Decode hrpSize dataSize invoice true = some (hrp, groups) ∧
        networkOf hrp = some (hrpType, lenHrp) ∧ Accepted (hrp.drop lenHrp) groups) ↔
      Accepted (hrp.drop lenHrp) groups := by
    constructor
    · rintro ⟨hrp', groups', hrpType', lenHrp', hdecode', hnetwork', haccepted⟩
      cases hdecode.symm.trans hdecode'
      cases hnetwork.symm.trans hnetwork'
      exact haccepted
    · intro haccepted
      exact ⟨hrp, groups, hrpType, lenHrp, hdecode, hnetwork, haccepted⟩
  simp only [DecodesSafely, hread, haccepted, wp_iff_run]

/-- Reading a string is safe exactly when its amount has at most 19 digits and its groups can be
read. -/
theorem lnInvoiceDecode_safely_iff (env : InvoiceEnv) (invoice : Bytes) :
    DecodesSafely env invoice ↔ SafeInvoice env invoice := by
  cases hdecode : btcBech32Decode hrpSize dataSize invoice true with
  | none =>
      constructor
      · intro _ hrp groups hrpType lenHrp hdecode'
        exact absurd (hdecode.symm.trans hdecode') (Option.some_ne_none _).symm
      · intro _
        apply decodesSafely_of_refused
        intro fresh stack turns
        rw [lnInvoiceDecode, hdecode]
  | some decoded =>
      obtain ⟨hrp, groups⟩ := decoded
      cases hnetwork : networkOf hrp with
      | none =>
          constructor
          · intro _ hrp' groups' hrpType lenHrp hdecode' hnetwork'
            cases hdecode.symm.trans hdecode'
            exact absurd (hnetwork.symm.trans hnetwork') (Option.some_ne_none _).symm
          · intro _
            apply decodesSafely_of_refused
            intro fresh stack turns
            rw [lnInvoiceDecode, hdecode]
            simp only [readInvoice, hnetwork]
            rfl
      | some network =>
          obtain ⟨hrpType, lenHrp⟩ := network
          have hfits := (btcBech32Decode_fits hdecode).2
          have hsize : ∀ stack : Bytes, stack.length = dataSize →
              (groups ++ stack.drop groups.length).length = dataSize := by
            intro stack hstack
            rw [List.length_append, List.length_drop, hstack]
            omega
          rw [decodesSafely_iff_wp hdecode hnetwork]
          constructor
          · intro hsafe hrp' groups' hrpType' lenHrp' hdecode' hnetwork'
            cases hdecode.symm.trans hdecode'
            cases hnetwork.symm.trans hnetwork'
            have hstack : (List.replicate dataSize (0 : UInt8)).length = dataSize :=
              List.length_replicate
            apply (wp_readInvoice hnetwork (hsize _ hstack) (Nat.le_refl dataSize)).mp
            exact hsafe ⟨0, 0, 0, 0, 0, [], [], []⟩ _ dataSize hstack (Nat.le_refl dataSize)
          · intro hsafe fresh stack turns hstack hturns
            apply (wp_readInvoice hnetwork (hsize stack hstack) hturns).mpr
            exact hsafe hrp groups hrpType lenHrp hdecode hnetwork

/-- An environment for fixed inputs: every signature has a key. -/
def permissive : InvoiceEnv where
  sha256 := fun _ => List.replicate 32 1
  signNodekey := fun _ => some (List.replicate 64 1)
  group := .permissive

/-- `lnbc12345678901234567890m1`, 111 times `q` and a checksum: 20 digits. -/
def longAmount : Bytes :=
  (btcBech32Encode 2048 (ascii ['l', 'n', 'b', 'c', '1', '2', '3', '4', '5', '6', '7', '8',
    '9', '0',
    '1', '2', '3', '4', '5', '6', '7', '8', '9', '0', 'm']) (List.replicate 111 0) true).getD []

/-- Twenty digits do not leave `amount_str` room for the zero behind them. -/
theorem longAmount_not_decodesSafely : ¬ DecodesSafely permissive longAmount := by
  intro hsafe
  have hfault : lnInvoiceDecode permissive ⟨0, 0, 0, 0, 0, [], [], []⟩
      (List.replicate dataSize 0) dataSize longAmount = .fault .outOfBounds := by
    decide +kernel
  exact (hsafe _ _ _ List.length_replicate (Nat.le_refl dataSize)).1 _ hfault

end Invoice

end Ptarmigan
