/-
The loops of `btc_tx_verify_multisig` over signatures and keys come to what an ordered matching
comes to, and what that says of the whole.
-/
import Mathlib.Data.List.Nodup
import Ptarmigan.MultisigCheck

namespace Ptarmigan

namespace Multisig

open OrderedMatch

/-! ### The bytes of a key -/

theorem length_flatMap_pushed {keys : List Bytes} (hkeys : ∀ key ∈ keys, key.length = 33) :
    (keys.flatMap pushed).length = (1 + 33) * keys.length := by
  induction keys with
  | nil => rfl
  | cons key keys ih =>
      obtain ⟨hkey, hrest⟩ := List.forall_mem_cons.mp hkeys
      rw [List.flatMap_cons, List.length_append, ih hrest, length_pushed, hkey, List.length_cons]
      omega

/-- A scriptSig with keys from a position on. -/
structure HasKeys (scriptsig : Bytes) (pubpos : ℕ) (keys : List Bytes) : Prop where
  keys_length : ∀ key ∈ keys, key.length = 33
  count : keys.length ≤ 16
  bytes : ∃ front behind : Bytes, scriptsig = front ++ (keys.flatMap pushed ++ behind) ∧
    front.length = pubpos

/-- A scriptSig with pushed data at a position. -/
structure HasPush (scriptsig : Bytes) (pos : ℕ) (data : Bytes) : Prop where
  short : data.length < 256
  bytes : ∃ front behind : Bytes, scriptsig = front ++ (pushed data ++ behind) ∧
    front.length = pos

section Reading

variable {scriptsig data : Bytes} {pos pubpos : ℕ} {keys : List Bytes}

theorem HasPush.getElem? (hpush : HasPush scriptsig pos data) :
    scriptsig[pos]? = some data.length.toUInt8 := by
  obtain ⟨front, behind, rfl, rfl⟩ := hpush.bytes
  exact getElem?_front _ _ _

theorem HasPush.readAt (hpush : HasPush scriptsig pos data) :
    readAt scriptsig (pos + 1) data.length = some data := by
  obtain ⟨front, behind, rfl, rfl⟩ := hpush.bytes
  have hread := readAt_front (front ++ [data.length.toUInt8]) data behind
  simpa [pushed] using hread

theorem HasPush.readAt_whole (hpush : HasPush scriptsig pos data) :
    Multisig.readAt scriptsig pos (1 + data.length) = some (pushed data) := by
  obtain ⟨front, behind, rfl, rfl⟩ := hpush.bytes
  have hread := readAt_front front (pushed data) behind
  rwa [length_pushed] at hread

/-- Each key stands where the loops look for it. -/
theorem HasKeys.hasPush (hkeys : HasKeys scriptsig pubpos keys) {front behind : List Bytes}
    {key : Bytes} (hsplit : keys = front ++ key :: behind) :
    key.length = 33 ∧ HasPush scriptsig (pubpos + (1 + 33) * front.length) key := by
  obtain ⟨hlength, -, before, after, rfl, rfl⟩ := hkeys
  subst hsplit
  rw [List.forall_mem_append, List.forall_mem_cons] at hlength
  obtain ⟨hfront, hkey, -⟩ := hlength
  refine ⟨hkey, by omega, before ++ front.flatMap pushed, behind.flatMap pushed ++ after, ?_, ?_⟩
  · simp only [List.flatMap_append, List.flatMap_cons, List.append_assoc]
  · rw [List.length_append, length_flatMap_pushed hfront]

end Reading

/-! ### Keys that are the same -/

theorem anyM_eq_some {α : Type} {items : List α} {check : α → Option Bool} {holds : α → Bool}
    (hcheck : ∀ item ∈ items, check item = some (holds item)) :
    items.anyM check = some (items.any holds) := by
  induction items with
  | nil => rfl
  | cons item items ih =>
      obtain ⟨hitem, hitems⟩ := List.forall_mem_cons.mp hcheck
      rw [List.anyM, hitem, List.any_cons]
      cases holds item with
      | true => rfl
      | false => exact ih hitems

theorem pushed_inj {data data' : Bytes} : pushed data = pushed data' ↔ data = data' := by
  constructor
  · exact fun heq => (List.cons.inj heq).2
  · exact congrArg pushed

theorem sameKeys_eq {scriptsig : Bytes} {pubpos : ℕ} {keys : List Bytes}
    (hkeys : HasKeys scriptsig pubpos keys) :
    sameKeys scriptsig pubpos keys.length = some (decide ¬ keys.Nodup) := by
  have hread : ∀ index < keys.length,
      readAt scriptsig (pubpos + (1 + 33) * index) (1 + 33) =
        some (pushed (keys.getD index [])) := by
    intro index hindex
    have hsplit := List.take_append_drop index keys
    rw [List.drop_eq_getElem_cons hindex] at hsplit
    obtain ⟨hlength, hpush⟩ := hkeys.hasPush hsplit.symm
    have hwhole := hpush.readAt_whole
    rw [hlength, List.length_take, min_eq_left hindex.le] at hwhole
    rw [hwhole, List.getD_eq_getElem _ _ hindex]
  have hinner : ∀ lp ∈ List.range (keys.length - 1),
      ((List.range' (lp + 1) (keys.length - (lp + 1))).anyM fun lp2 => do
        let p1 ← readAt scriptsig (pubpos + (1 + 33) * lp) (1 + 33)
        let p2 ← readAt scriptsig (pubpos + (1 + 33) * lp2) (1 + 33)
        pure (p1 == p2)) =
      some ((List.range' (lp + 1) (keys.length - (lp + 1))).any fun lp2 =>
        pushed (keys.getD lp []) == pushed (keys.getD lp2 [])) := by
    intro lp hlp
    rw [List.mem_range] at hlp
    apply anyM_eq_some
    intro lp2 hlp2
    rw [List.mem_range'_1] at hlp2
    rw [hread lp (by omega), hread lp2 (by omega)]
    rfl
  rw [sameKeys, anyM_eq_some hinner, Option.some.injEq, Bool.eq_iff_iff, decide_eq_true_iff,
    List.Nodup, List.pairwise_iff_getElem]
  simp only [List.any_eq_true, List.mem_range, List.mem_range'_1, beq_iff_eq, pushed_inj,
    not_forall, not_not]
  constructor
  · rintro ⟨lp, hlp, lp2, ⟨hlt, hlp2⟩, heq⟩
    refine ⟨lp, lp2, by omega, by omega, by omega, ?_⟩
    rwa [List.getD_eq_getElem _ _ (by omega), List.getD_eq_getElem _ _ (by omega)] at heq
  · rintro ⟨lp, lp2, hlp, hlp2, hlt, heq⟩
    refine ⟨lp, by omega, lp2, ⟨by omega, by omega⟩, ?_⟩
    rw [List.getD_eq_getElem _ _ hlp, List.getD_eq_getElem _ _ hlp2]
    exact heq

/-! ### The loops -/

/-- The first keys count as checked. -/
def checkedMask (count : ℕ) : UInt32 :=
  (1 <<< count.toUInt32) - 1

theorem checkedMask_and : ∀ count ≤ 16, ∀ lp2 < 16,
    checkedMask count &&& ((1 : UInt32) <<< lp2.toUInt32) = 0 ↔ count ≤ lp2 := by
  decide

theorem checkedMask_or : ∀ lp2 < 16, ∀ count ≤ lp2,
    checkedMask count ||| chkMask lp2 = checkedMask (lp2 + 1) := by
  decide

section Loops

variable (crypto : MultisigCrypto) (txHash : Bytes) (sigpos : ℕ) {scriptsig : Bytes} {pubpos : ℕ}
  {keys : List Bytes} {sig : Bytes}

/-- The loop over the keys goes past one that counts as checked. -/
theorem checkKeys_checked (hkeys : HasKeys scriptsig pubpos keys) {front behind : List Bytes}
    {key : Bytes} (hsplit : keys = front ++ key :: behind) (todo : ℕ) {st : Checked}
    (hchecked : ¬ st.chkPos &&& (1 <<< front.length.toUInt32) = 0) :
    checkKeys crypto scriptsig txHash sigpos (todo + 1) front.length
        (pubpos + (1 + 33) * front.length) st =
      checkKeys crypto scriptsig txHash sigpos todo (front ++ [key]).length
        (pubpos + (1 + 33) * (front ++ [key]).length) st := by
  obtain ⟨hkey, hpush⟩ := hkeys.hasPush hsplit
  have hlen := hpush.getElem?
  have hnext : pubpos + (1 + 33) * front.length + (key.length.toUInt8.toNat + 1) =
      pubpos + (1 + 33) * (front ++ [key]).length := by
    rw [toNat_length hpush.short, hkey, List.length_append, List.length_singleton]
    omega
  rw [checkKeys, if_neg hchecked, hlen, Option.bind_eq_bind, Option.bind_some, hnext,
    List.length_append, List.length_singleton]

/-- What it makes of a key that does not. -/
theorem checkKeys_unchecked (hkeys : HasKeys scriptsig pubpos keys)
    (hsig : HasPush scriptsig sigpos sig) {front behind : List Bytes} {key : Bytes}
    (hsplit : keys = front ++ key :: behind) (todo : ℕ) {st : Checked}
    (hunchecked : st.chkPos &&& (1 <<< front.length.toUInt32) = 0) :
    checkKeys crypto scriptsig txHash sigpos (todo + 1) front.length
        (pubpos + (1 + 33) * front.length) st =
      match btcTxVerify crypto txHash sig key with
      | none => none
      | some true => some { st with
          okCnt := st.okCnt + 1
          chkPos := st.chkPos ||| chkMask front.length }
      | some false =>
          if st.ngCnt - 1 < 0 then
            some { st with okCnt := -1, ngCnt := st.ngCnt - 1, stop := true }
          else checkKeys crypto scriptsig txHash sigpos todo (front ++ [key]).length
            (pubpos + (1 + 33) * (front ++ [key]).length) { st with ngCnt := st.ngCnt - 1 } := by
  obtain ⟨hkey, hpush⟩ := hkeys.hasPush hsplit
  have hlen : scriptsig[pubpos + (1 + 33) * front.length]? = some 33 := by
    rw [hpush.getElem?, hkey]
    rfl
  have hread := hpush.readAt
  rw [hkey] at hread
  have hsigRead : readAt scriptsig (sigpos + 1) sig.length.toUInt8.toNat = some sig := by
    rw [toNat_length hsig.short, hsig.readAt]
  have hnext : pubpos + (1 + 33) * front.length + ((33 : UInt8).toNat + 1) =
      pubpos + (1 + 33) * (front ++ [key]).length := by
    rw [List.length_append, List.length_singleton]
    change pubpos + (1 + 33) * front.length + (33 + 1) = _
    omega
  rw [checkKeys, if_pos hunchecked, hsig.getElem?]
  simp only [Option.bind_eq_bind, Option.bind_some, hsigRead, hlen, ↓reduceIte, hread]
  cases btcTxVerify crypto txHash sig key with
  | none => rfl
  | some ret =>
      cases ret with
      | true => rfl
      | false =>
          rw [Option.bind_some, hnext, List.length_append, List.length_singleton]
          rfl

/-- All keys that count as checked are passed. -/
theorem checkKeys_skip (hkeys : HasKeys scriptsig pubpos keys) {front behind : List Bytes}
    (hsplit : keys = front ++ behind) (more : ℕ) {st : Checked}
    (hmask : st.chkPos = checkedMask front.length) (count : ℕ) (hcount : count ≤ front.length) :
    checkKeys crypto scriptsig txHash sigpos (count + more) (front.length - count)
        (pubpos + (1 + 33) * (front.length - count)) st =
      checkKeys crypto scriptsig txHash sigpos more front.length
        (pubpos + (1 + 33) * front.length) st := by
  induction count with
  | zero => rw [Nat.zero_add, Nat.sub_zero]
  | succ count ih =>
      have hlt : front.length - (count + 1) < front.length := by omega
      have hkeysplit : keys = front.take (front.length - (count + 1)) ++
          (front[front.length - (count + 1)] ::
            (front.drop (front.length - (count + 1) + 1) ++ behind)) := by
        rw [hsplit, ← List.cons_append, ← List.drop_eq_getElem_cons hlt, ← List.append_assoc,
          List.take_append_drop]
      have hlength : (front.take (front.length - (count + 1))).length =
          front.length - (count + 1) := by
        rw [List.length_take]
        omega
      have hsixteen : front.length ≤ 16 := by
        have hcount := hkeys.count
        rw [hsplit, List.length_append] at hcount
        omega
      have hchecked : ¬ st.chkPos &&& (1 <<< (front.length - (count + 1)).toUInt32) = 0 := by
        rw [hmask, checkedMask_and front.length hsixteen (front.length - (count + 1)) (by omega)]
        omega
      have hstep := checkKeys_checked crypto txHash sigpos hkeys hkeysplit (count + more)
        (by rwa [hlength])
      rw [hlength, List.length_append, hlength, List.length_singleton] at hstep
      have hnext : front.length - (count + 1) + 1 = front.length - count := by omega
      rw [hnext] at hstep
      rw [Nat.add_right_comm, hstep, ih (by omega)]

end Loops

/-- A scriptSig with pushed signatures from a position on. -/
structure HasSigs (scriptsig : Bytes) (sigpos : ℕ) (sigs : List Bytes) : Prop where
  short : ∀ sig ∈ sigs, sig.length < 256
  bytes : ∃ front behind : Bytes, scriptsig = front ++ (sigs.flatMap pushed ++ behind) ∧
    front.length = sigpos

theorem HasSigs.cons {scriptsig sig : Bytes} {sigpos : ℕ} {sigs : List Bytes}
    (hsigs : HasSigs scriptsig sigpos (sig :: sigs)) :
    HasPush scriptsig sigpos sig ∧
      HasSigs scriptsig (sigpos + (sig.length.toUInt8.toNat + 1)) sigs := by
  obtain ⟨hshort, front, behind, rfl, rfl⟩ := hsigs
  obtain ⟨hsig, hrest⟩ := List.forall_mem_cons.mp hshort
  refine ⟨⟨hsig, front, sigs.flatMap pushed ++ behind, ?_, rfl⟩, hrest, front ++ pushed sig, behind,
    ?_, ?_⟩
  · rw [List.flatMap_cons, List.append_assoc]
  · simp only [List.flatMap_cons, List.append_assoc]
  · rw [List.length_append, length_pushed, toNat_length hsig, Nat.add_comm 1]

/-- What is left to check: the counters between two signatures, of which `left` are left, with the
keys `rest`. -/
structure Between (signum : ℕ) (left : ℕ) (front rest : List Bytes) (st : Checked) : Prop where
  okCnt : st.okCnt = signum - left
  ngCnt : st.ngCnt = rest.length - left
  chkPos : st.chkPos = checkedMask front.length
  stop : st.stop = false

section Greedy

variable {crypto : MultisigCrypto} {txHash scriptsig : Bytes} {pubpos sigpos : ℕ}
  {keys : List Bytes} {sig : Bytes}

/-- Once all keys count as checked, nothing changes any more. -/
theorem checkSigs_exhausted (hkeys : HasKeys scriptsig pubpos keys) {sigs : List Bytes}
    (hsigs : HasSigs scriptsig sigpos sigs) {st : Checked}
    (hmask : st.chkPos = checkedMask keys.length) (hstop : st.stop = false) :
    checkSigs crypto scriptsig txHash pubpos keys.length sigs.length sigpos st = some st := by
  induction sigs generalizing sigpos with
  | nil => rfl
  | cons sig sigs ih =>
      obtain ⟨hsig, hrest⟩ := hsigs.cons
      have hskip := checkKeys_skip crypto txHash sigpos hkeys (List.append_nil keys).symm 0 hmask
        keys.length le_rfl
      rw [Nat.sub_self, Nat.mul_zero, Nat.add_zero, Nat.add_zero] at hskip
      rw [List.length_cons, checkSigs, hskip, checkKeys, Option.bind_eq_bind, Option.bind_some,
        hsig.getElem?, Option.bind_eq_bind, Option.bind_some, hstop]
      exact ih hrest

/-- One signature: from a key on that does not count as checked, the loop over the keys and what
comes after it do as the ordered matching does. -/
theorem checkKeys_greedy (hkeys : HasKeys scriptsig pubpos keys)
    (hsig : HasPush scriptsig sigpos sig) {sigs : List Bytes} {signum : ℕ}
    {next : Checked → Option Bool}
    (hnext : ∀ front rest st, keys = front ++ rest → Between signum sigs.length front rest st →
      next st = greedy (btcTxVerify crypto txHash) sigs rest)
    (hend : ∀ st, st.stop = true ∨ st.chkPos = checkedMask keys.length ∧ st.stop = false →
      next st = some (st.okCnt == signum))
    {rest front : List Bytes} (hsplit : keys = front ++ rest) {count : ℕ}
    (hcount : count ≤ front.length) {st : Checked} (hmask : st.chkPos = checkedMask count)
    (hok : st.okCnt = signum - (sigs.length + 1)) (hng : st.ngCnt = rest.length - (sigs.length + 1))
    (hstop : st.stop = false) (hleft : count < front.length → 0 ≤ st.ngCnt) :
    (checkKeys crypto scriptsig txHash sigpos rest.length front.length
        (pubpos + (1 + 33) * front.length) st).bind next =
      greedy (btcTxVerify crypto txHash) (sig :: sigs) rest := by
  induction rest generalizing front st with
  | nil =>
      have hall : count = keys.length := by
        rw [hsplit, List.append_nil]
        by_contra hne
        have hnonneg := hleft (by omega)
        rw [hng, List.length_nil] at hnonneg
        omega
      have hfalse : (st.okCnt == (signum : ℤ)) = false := by
        rw [hok, beq_eq_false_iff_ne]
        omega
      rw [List.length_nil, checkKeys, Option.bind_some, hend st (.inr ⟨hall ▸ hmask, hstop⟩),
        hfalse, greedy]
  | cons key rest ih =>
      have hsixteen : front.length < 16 := by
        have hsum := hkeys.count
        rw [hsplit, List.length_append, List.length_cons] at hsum
        omega
      have hunchecked : st.chkPos &&& (1 <<< front.length.toUInt32) = 0 := by
        rw [hmask, checkedMask_and count (by omega) front.length hsixteen]
        exact hcount
      have hfront : keys = (front ++ [key]) ++ rest := by
        rw [hsplit, List.append_assoc]
        rfl
      rw [List.length_cons, checkKeys_unchecked crypto txHash sigpos hkeys hsig hsplit rest.length
        hunchecked, greedy]
      rw [List.length_cons] at hng
      cases btcTxVerify crypto txHash sig key with
      | none => rfl
      | some ret =>
          cases ret with
          | true =>
              rw [Option.bind_some]
              refine hnext (front ++ [key]) rest _ hfront ⟨?_, ?_, ?_, hstop⟩
              · simp only [hok]
                omega
              · simp only [hng]
                push_cast
                omega
              · rw [hmask, checkedMask_or front.length hsixteen count hcount, List.length_append,
                  List.length_singleton]
          | false =>
              simp only
              by_cases hfew : rest.length < sigs.length + 1
              · rw [if_pos (by rw [hng]; push_cast; omega), if_pos hfew, Option.bind_some,
                  hend _ (.inl rfl)]
                have hne : ((-1 : ℤ) == (signum : ℤ)) = false := by
                  rw [beq_eq_false_iff_ne]
                  omega
                rw [hne]
              · rw [if_neg (by rw [hng]; push_cast; omega), if_neg hfew]
                refine ih hfront (by simp; omega) hmask hok ?_ hstop fun _ => ?_
                · simp only [hng]
                  push_cast
                  omega
                · simp only [hng]
                  push_cast
                  omega

/-- All signatures. -/
theorem checkSigs_greedy (hkeys : HasKeys scriptsig pubpos keys) {signum : ℕ} {sigs : List Bytes}
    (hsigs : HasSigs scriptsig sigpos sigs) {front rest : List Bytes}
    (hsplit : keys = front ++ rest)
    {st : Checked} (hbetween : Between signum sigs.length front rest st) :
    ((checkSigs crypto scriptsig txHash pubpos keys.length sigs.length sigpos st).bind fun st =>
        some (st.okCnt == signum)) =
      greedy (btcTxVerify crypto txHash) sigs rest := by
  induction sigs generalizing sigpos front rest st with
  | nil =>
      have htrue : (st.okCnt == (signum : ℤ)) = true := by
        rw [hbetween.okCnt, beq_iff_eq, List.length_nil]
        omega
      rw [List.length_nil, checkSigs, Option.bind_some, htrue]
      cases rest <;> rfl
  | cons sig sigs ih =>
      obtain ⟨hsig, hrest⟩ := hsigs.cons
      have hskip := checkKeys_skip crypto txHash sigpos hkeys hsplit rest.length hbetween.chkPos
        front.length le_rfl
      have hlength : front.length + rest.length = keys.length := by
        rw [hsplit, List.length_append]
      rw [Nat.sub_self, Nat.mul_zero, Nat.add_zero, hlength] at hskip
      rw [List.length_cons, checkSigs, hskip, Option.bind_eq_bind, Option.bind_assoc]
      have hok := hbetween.okCnt
      have hng := hbetween.ngCnt
      rw [List.length_cons] at hok hng
      refine checkKeys_greedy hkeys hsig ?_ ?_ hsplit le_rfl hbetween.chkPos (by rw [hok]; rfl)
        (by rw [hng]; rfl) hbetween.stop fun hlt => absurd hlt (lt_irrefl _)
      · intro front' rest' st' hsplit' hbetween'
        rw [hsig.getElem?, Option.bind_eq_bind, Option.bind_some, hbetween'.stop]
        exact ih hrest hsplit' hbetween'
      · rintro st' (hstop | ⟨hmask, hstop⟩)
        · rw [hsig.getElem?, Option.bind_eq_bind, Option.bind_some, hstop]
          rfl
        · rw [hsig.getElem?, Option.bind_eq_bind, Option.bind_some, hstop]
          simp only [Bool.false_eq_true, ↓reduceIte]
          rw [checkSigs_exhausted hkeys hrest hmask hstop, Option.bind_some]

end Greedy

/-! ### The whole function -/

section Whole

variable {crypto : MultisigCrypto} {txHash : Bytes} {scriptHash : Vector UInt8 20}

/-- Only a signature without bytes makes `btc_tx_verify` read outside. -/
theorem btcTxVerify_eq_none (sig key : Bytes) :
    btcTxVerify crypto txHash sig key = none ↔ sig = [] := by
  rw [← List.getLast?_eq_none_iff, btcTxVerify]
  cases sig.getLast? with
  | none => exact iff_of_true rfl rfl
  | some hashType => exact iff_of_false (Option.some_ne_none _) (Option.some_ne_none _)

theorem length_redeemScript {keys : List Bytes} (hkeys : ∀ key ∈ keys, key.length = 33)
    (signum : ℕ) : (redeemScript signum keys).length = 34 * keys.length + 3 := by
  rw [redeemScript, List.length_cons, List.length_append, length_flatMap_pushed hkeys]
  rfl

theorem btcUtilHash160_whole {data : Bytes} (hshort : data.length < 2 ^ 16) :
    btcUtilHash160 crypto data data.length =
      crypto.ripemd160 (crypto.sha256 data).toList := by
  rw [btcUtilHash160, SwSighash.btcUtilSha256, Nat.mod_eq_of_lt hshort, List.take_length]

/-- What the function makes of a scriptSig that it takes apart. -/
theorem verify_layout {sigs : List Bytes} {push : Bytes} {keys : List Bytes}
    (htaken : Taken sigs push keys) :
    btcTxVerifyMultisig crypto (layout sigs push keys) txHash scriptHash =
      if crypto.ripemd160 (crypto.sha256 (redeemScript sigs.length keys)).toList ≠ scriptHash
      then some false
      else if ¬ keys.Nodup then some false
      else greedy (btcTxVerify crypto txHash) sigs keys := by
  have hredeem := length_redeemScript htaken.keys_length sigs.length
  have hcount := htaken.pubnum_le
  have hfront : layout sigs push keys =
      (0x00 :: (sigs.flatMap pushed ++ push)) ++ redeemScript sigs.length keys := by
    rw [layout, List.cons_append, List.append_assoc]
  have hpubpos : (0x00 :: (sigs.flatMap pushed ++ (push ++ [opX sigs.length]))).length =
      (0x00 :: (sigs.flatMap pushed ++ push)).length + 1 := by
    rw [← List.append_assoc, List.length_cons, List.length_append, List.length_singleton,
      List.length_cons]
  have hhash : btcUtilHash160 crypto ((layout sigs push keys).drop
      ((0x00 :: (sigs.flatMap pushed ++ push)).length + 1 - 1)) ((layout sigs push keys).length -
        ((0x00 :: (sigs.flatMap pushed ++ push)).length + 1) + 1) =
      crypto.ripemd160 (crypto.sha256 (redeemScript sigs.length keys)).toList := by
    have hlength : (layout sigs push keys).length -
        ((0x00 :: (sigs.flatMap pushed ++ push)).length + 1) + 1 =
          (redeemScript sigs.length keys).length := by
      rw [hfront, List.length_append]
      omega
    rw [hlength, Nat.add_sub_cancel, hfront, List.drop_left]
    exact btcUtilHash160_whole (by omega)
  have hkeys : HasKeys (layout sigs push keys)
      ((0x00 :: (sigs.flatMap pushed ++ push)).length + 1) keys := by
    refine ⟨htaken.keys_length, hcount, (0x00 :: (sigs.flatMap pushed ++ push)) ++
      [opX sigs.length],
      [opX keys.length, 0xae], ?_, ?_⟩
    · rw [hfront, redeemScript, List.append_assoc]
      rfl
    · rw [List.length_append, List.length_singleton]
  have hsigs : HasSigs (layout sigs push keys) 1 sigs :=
    ⟨fun sig hsig => (htaken.passed sig hsig).1, [0x00],
      push ++ redeemScript sigs.length keys, rfl, rfl⟩
  have hbetween : Between sigs.length sigs.length [] keys
      ⟨0, keys.length - sigs.length, 0, false⟩ :=
    ⟨(Int.sub_self _).symm, rfl, rfl, rfl⟩
  have hgreedy := @checkSigs_greedy crypto txHash _ _ _ _ hkeys _ _ hsigs _ _
    (List.nil_append keys).symm _ hbetween
  rw [btcTxVerifyMultisig, parse_layout htaken, hpubpos]
  simp only [verifyParsed, hhash, sameKeys_eq hkeys, Option.bind_eq_bind, Option.bind_some,
    decide_eq_true_eq]
  rw [hgreedy]

theorem verify_truncated {scriptsig : Bytes} (htruncated : Truncated scriptsig) :
    btcTxVerifyMultisig crypto scriptsig txHash scriptHash = none := by
  rw [btcTxVerifyMultisig, parse_truncated htruncated]

/-! ### Spends of m-of-n outputs -/

namespace MultisigSpend

variable (spend : MultisigSpend)

theorem length_redeem : spend.redeem.length = 34 * spend.keys.length + 3 :=
  length_redeemScript spend.keys_length spend.sigs.length

theorem passed : ∀ sig ∈ spend.sigs, Passed sig := by
  intro sig hsig
  have hlength := spend.sigs_length sig hsig
  exact ⟨by omega, by omega, by omega⟩

theorem keys_le : spend.keys.length ≤ 15 := by
  have hlimit := spend.limit
  rw [length_redeemScript spend.keys_length] at hlimit
  omega

/-- A redeem script of less than 256 bytes is found behind `OP_PUSHDATA1`. -/
theorem taken_of_short (hshort : spend.redeem.length < 0x100) :
    Taken spend.sigs (pushdata spend.redeem.length) spend.keys ∧
      spend.scriptsig = layout spend.sigs (pushdata spend.redeem.length) spend.keys := by
  have hlength := spend.length_redeem
  have hpos := spend.sigs_pos
  have hle := spend.sigs_le
  have hfirst : spend.redeem.length.toUInt8 < 0xfd := by
    rw [UInt8.lt_iff_toNat_lt]
    change spend.redeem.length % 256 < 253
    rw [Nat.mod_eq_of_lt hshort]
    omega
  refine ⟨⟨spend.passed, ?_, spend.keys_length, by omega, by omega, by omega⟩, rfl⟩
  rw [pushdata, if_pos hshort]
  exact ⟨0x4c, spend.redeem.length.toUInt8, .inl rfl, .inl ⟨hfirst, rfl⟩⟩

/-- Behind `OP_PUSHDATA2` the second byte of the length is taken for the number of signatures. -/
theorem verify_long (hlong : 0x100 ≤ spend.redeem.length) :
    btcTxVerifyMultisig crypto spend.scriptsig txHash scriptHash = some false := by
  have hlength := spend.length_redeem
  have hkeys := spend.keys_le
  have hlow : ∀ pubnum ≤ 15, 8 ≤ pubnum → (34 * pubnum + 3) % 256 < 253 := by decide
  have hfirst : spend.redeem.length.toUInt8 < 0xfd := by
    rw [UInt8.lt_iff_toNat_lt, hlength]
    exact hlow spend.keys.length hkeys (by omega)
  have hpush : IsPush [0x4d, spend.redeem.length.toUInt8] :=
    ⟨0x4d, spend.redeem.length.toUInt8, .inr rfl, .inl ⟨hfirst, rfl⟩⟩
  have hscriptsig : spend.scriptsig = 0x00 :: (spend.sigs.flatMap pushed ++
      ([0x4d, spend.redeem.length.toUInt8] ++
        (spend.redeem.length / 256).toUInt8 :: spend.redeem)) := by
    rw [scriptsig, pushdata, if_neg (Nat.not_lt.mpr hlong)]
    rfl
  have hhigh : (spend.redeem.length / 256).toUInt8.toNat = spend.redeem.length / 256 :=
    Nat.mod_eq_of_lt (by omega)
  rw [btcTxVerifyMultisig, hscriptsig, parse_push spend.passed hpush, if_pos]
  rw [hhigh]
  omega

theorem verify_short (hshort : spend.redeem.length < 0x100) :
    btcTxVerifyMultisig crypto spend.scriptsig txHash scriptHash = some true ↔
      spend.Valid crypto txHash scriptHash := by
  obtain ⟨htaken, hscriptsig⟩ := spend.taken_of_short hshort
  rw [hscriptsig, verify_layout htaken, Valid, redeem]
  by_cases hhash : crypto.ripemd160
      (crypto.sha256 (redeemScript spend.sigs.length spend.keys)).toList = scriptHash
  · rw [if_neg (not_not.mpr hhash), if_neg (not_not.mpr spend.keys_distinct),
      greedy_eq_true btcTxVerify_eq_none, and_iff_right hhash]
  · rw [if_pos hhash]
    exact iff_of_false (by simp) fun hvalid => hhash hvalid.1

end MultisigSpend

/-! ### When it is right -/

theorem readable_of_right {scriptsig : Bytes} (hright : Right crypto txHash scriptHash scriptsig) :
    Readable crypto txHash scriptHash scriptsig where
  whole := fun htruncated => hright.inside (verify_truncated htruncated)
  nonempty := by
    rintro sigs push keys htaken rfl hhash hdistinct hreaches
    apply hright.inside
    rw [verify_layout htaken, if_neg (not_not.mpr hhash), if_neg (not_not.mpr hdistinct),
      greedy_eq_none btcTxVerify_eq_none]
    exact hreaches
  short := by
    rintro spend rfl hvalid
    by_contra hlong
    have htrue := (hright.accepts spend rfl).mpr hvalid
    rw [spend.verify_long (Nat.le_of_not_lt hlong)] at htrue
    cases htrue

theorem right_of_readable {scriptsig : Bytes}
    (hreadable : Readable crypto txHash scriptHash scriptsig) :
    Right crypto txHash scriptHash scriptsig where
  inside := by
    rcases parse_cases scriptsig with htruncated | hfalse | ⟨sigs, push, keys, htaken, rfl⟩
    · exact absurd htruncated hreadable.whole
    · rw [btcTxVerifyMultisig, hfalse]
      exact Option.some_ne_none _
    · rw [verify_layout htaken]
      split_ifs with hhash hdistinct
      · exact Option.some_ne_none _
      · rw [Ne, greedy_eq_none btcTxVerify_eq_none]
        exact hreadable.nonempty sigs push keys htaken rfl (not_not.mp hhash) hdistinct
      · exact Option.some_ne_none _
  accepts := by
    rintro spend rfl
    by_cases hshort : spend.redeem.length < 0x100
    · exact spend.verify_short hshort
    · rw [spend.verify_long (Nat.le_of_not_lt hshort)]
      exact iff_of_false (by simp) fun hvalid => hshort (hreadable.short spend rfl hvalid)

end Whole

/-- `btc_tx_verify_multisig` stays inside of the scriptSig and accepts what is valid if and only if
the scriptSig does not end too early, no empty signature is checked, and the redeem script of a
valid spend has less than 256 bytes. -/
theorem multisig_iff (crypto : MultisigCrypto) (txHash : Bytes) (scriptHash : Vector UInt8 20)
    (scriptsig : Bytes) :
    Right crypto txHash scriptHash scriptsig ↔ Readable crypto txHash scriptHash scriptsig :=
  ⟨readable_of_right, right_of_readable⟩

/-- A crypto whose signatures verify and whose hashes are constant. -/
def agreeable : MultisigCrypto where
  sha256 := fun _ => Vector.replicate 32 0
  ripemd160 := fun _ => Vector.replicate 20 0
  ecdsaVerify := fun _ _ _ => true

/-- The input of a transaction that has not been signed. -/
theorem not_right_unsigned :
    ¬ Right agreeable (List.replicate 32 0) (Vector.replicate 20 0) [] := by
  intro hright
  exact hright.inside (verify_truncated .empty)

end Multisig

end Ptarmigan
