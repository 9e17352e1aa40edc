/-
When `btc_tx_verify_multisig` reads inside of the scriptSig and accepts what is valid.
-/
import Ptarmigan.Multisig

namespace Ptarmigan

namespace Multisig

open OrderedMatch

/-! ### Bytes at a position -/

theorem getElem?_front (front : Bytes) (byte : UInt8) (rest : Bytes) :
    (front ++ byte :: rest)[front.length]? = some byte := by
  rw [List.getElem?_append_right le_rfl, Nat.sub_self, List.getElem?_cons_zero]

theorem readAt_front (front data rest : Bytes) :
    readAt (front ++ (data ++ rest)) front.length data.length = some data := by
  rw [readAt, if_pos (by simp), List.drop_left, List.take_left]

theorem toNat_length {data : Bytes} (hshort : data.length < 256) :
    data.length.toUInt8.toNat = data.length :=
  Nat.mod_eq_of_lt hshort

theorem length_pushed (data : Bytes) : (pushed data).length = 1 + data.length := by
  rw [pushed, List.length_cons, Nat.add_comm]

theorem ne_of_passed {data : Bytes} (hpassed : Passed data) :
    ¬ (data.length.toUInt8 = 0x4c ∨ data.length.toUInt8 = 0x4d) := by
  obtain ⟨hshort, hne, hne'⟩ := hpassed
  rw [← UInt8.toNat_inj, ← UInt8.toNat_inj, toNat_length hshort]
  exact not_or.mpr ⟨hne, hne'⟩

/-- What stands at a position is a push of the length that its first byte says. -/
theorem drop_pushed {scriptsig : Bytes} {pos : ℕ} (hpos : pos < scriptsig.length)
    (hinside : pos + 1 + scriptsig[pos].toNat ≤ scriptsig.length) :
    scriptsig.drop pos = pushed ((scriptsig.drop (pos + 1)).take scriptsig[pos].toNat) ++
      scriptsig.drop (pos + 1 + scriptsig[pos].toNat) := by
  have htake : ((scriptsig.drop (pos + 1)).take scriptsig[pos].toNat).length =
      scriptsig[pos].toNat := by
    rw [List.length_take, List.length_drop]
    omega
  have hbehind : scriptsig.drop (pos + 1 + scriptsig[pos].toNat) =
      (scriptsig.drop (pos + 1)).drop scriptsig[pos].toNat := List.drop_drop.symm
  rw [pushed, htake, hbehind, List.cons_append, List.take_append_drop,
    List.drop_eq_getElem_cons hpos]
  simp

/-! ### The signatures -/

theorem scanSigs_byte {front rest : Bytes} {byte : UInt8} (signum : ℕ) :
    scanSigs (front ++ byte :: rest) front.length signum =
      if byte = 0x4c ∨ byte = 0x4d then (front.length, signum)
      else scanSigs (front ++ byte :: rest) (front.length + 1 + byte.toNat) (signum + 1) := by
  have hpos : front.length < (front ++ byte :: rest).length := by simp
  have hbyte : (front ++ byte :: rest)[front.length] = byte := by simp
  rw [scanSigs, dif_pos hpos]
  simp only [hbyte]

theorem scanSigs_end {scriptsig : Bytes} {pos : ℕ} (signum : ℕ) (hend : scriptsig.length ≤ pos) :
    scanSigs scriptsig pos signum = (pos, signum) := by
  rw [scanSigs, dif_neg (Nat.not_lt.mpr hend)]

theorem scanSigs_pushed {sigs : List Bytes} (hsigs : ∀ sig ∈ sigs, Passed sig) {op : UInt8}
    (hop : op = 0x4c ∨ op = 0x4d) (front rest : Bytes) (signum : ℕ) :
    scanSigs (front ++ (sigs.flatMap pushed ++ op :: rest)) front.length signum =
      (front.length + (sigs.flatMap pushed).length, signum + sigs.length) := by
  induction sigs generalizing front signum with
  | nil =>
      rw [List.flatMap_nil, List.nil_append, scanSigs_byte, if_pos hop]
      rfl
  | cons sig sigs ih =>
      obtain ⟨hsig, hrest⟩ := List.forall_mem_cons.mp hsigs
      have hmove : front ++ ((sig :: sigs).flatMap pushed ++ op :: rest) =
          (front ++ pushed sig) ++ (sigs.flatMap pushed ++ op :: rest) := by
        simp only [List.flatMap_cons, List.append_assoc]
      have hlength : front.length + 1 + sig.length.toUInt8.toNat =
        (front ++ pushed sig).length := by
        rw [toNat_length hsig.1, List.length_append, length_pushed, Nat.add_assoc]
      have hbyte : front ++ ((sig :: sigs).flatMap pushed ++ op :: rest) =
          front ++ sig.length.toUInt8 :: (sig ++ (sigs.flatMap pushed ++ op :: rest)) := by
        simp only [List.flatMap_cons, pushed, List.cons_append, List.append_assoc]
      rw [hbyte, scanSigs_byte, if_neg (ne_of_passed hsig), ← hbyte, hmove, hlength, ih hrest,
        List.flatMap_cons, List.length_append, List.length_append, List.length_cons]
      simp only [Prod.mk.injEq]
      omega

/-- Wherever the loop over the signatures ends inside, it has passed signatures and stands before
an `OP_PUSHDATA`. -/
theorem scanSigs_cases (scriptsig : Bytes) (pos signum : ℕ) :
    scriptsig.length ≤ (scanSigs scriptsig pos signum).1 ∨
      ∃ (sigs : List Bytes) (op : UInt8) (rest : Bytes), (∀ sig ∈ sigs, Passed sig) ∧
        (op = 0x4c ∨ op = 0x4d) ∧ scriptsig.drop pos = sigs.flatMap pushed ++ op :: rest := by
  induction pos, signum using scanSigs.induct scriptsig with
  | case1 pos signum hpos len hop =>
      exact .inr ⟨[], len, scriptsig.drop (pos + 1), by simp, hop,
        List.drop_eq_getElem_cons hpos⟩
  | case2 pos signum hpos len hop ih =>
      have hstep : scanSigs scriptsig pos signum =
          scanSigs scriptsig (pos + 1 + len.toNat) (signum + 1) := by
        rw [scanSigs, dif_pos hpos]
        exact if_neg hop
      by_cases hinside : pos + 1 + len.toNat ≤ scriptsig.length
      · rw [hstep]
        refine ih.imp_right ?_
        rintro ⟨sigs, op, rest, hsigs, hop', hdrop⟩
        have htake : ((scriptsig.drop (pos + 1)).take len.toNat).length = len.toNat := by
          rw [List.length_take, List.length_drop]
          omega
        refine ⟨(scriptsig.drop (pos + 1)).take len.toNat :: sigs, op, rest, ?_, hop', ?_⟩
        · refine List.forall_mem_cons.mpr ⟨⟨?_, ?_, ?_⟩, hsigs⟩
          · rw [htake]
            exact len.toNat_lt
          · rw [htake]
            exact fun heq => hop (.inl (UInt8.toNat_inj.mp heq))
          · rw [htake]
            exact fun heq => hop (.inr (UInt8.toNat_inj.mp heq))
        · rw [List.flatMap_cons, List.append_assoc, ← hdrop]
          exact drop_pushed hpos hinside
      · left
        rw [hstep, scanSigs_end _ (by omega)]
        omega
  | case3 pos signum hpos =>
      left
      rw [scanSigs_end _ (by omega)]
      omega

/-! ### The public keys -/

theorem scanKeys_byte {front rest : Bytes} {byte : UInt8} (pubnum : ℕ) :
    scanKeys (front ++ byte :: rest) front.length pubnum =
      if 0x51 ≤ byte ∧ byte ≤ 0x60 then some (front.length, pubnum)
      else if byte ≠ 33 then none
      else scanKeys (front ++ byte :: rest) (front.length + 1 + byte.toNat) (pubnum + 1) := by
  have hpos : front.length < (front ++ byte :: rest).length := by simp
  have hbyte : (front ++ byte :: rest)[front.length] = byte := by simp
  rw [scanKeys, dif_pos hpos]
  simp only [hbyte]

theorem scanKeys_end {scriptsig : Bytes} {pos : ℕ} (pubnum : ℕ) (hend : scriptsig.length ≤ pos) :
    scanKeys scriptsig pos pubnum = some (pos, pubnum) := by
  rw [scanKeys, dif_neg (Nat.not_lt.mpr hend)]

theorem scanKeys_pushed {keys : List Bytes} (hkeys : ∀ key ∈ keys, key.length = 33) {op : UInt8}
    (hop : 0x51 ≤ op ∧ op ≤ 0x60) (front rest : Bytes) (pubnum : ℕ) :
    scanKeys (front ++ (keys.flatMap pushed ++ op :: rest)) front.length pubnum =
      some (front.length + (keys.flatMap pushed).length, pubnum + keys.length) := by
  induction keys generalizing front pubnum with
  | nil =>
      rw [List.flatMap_nil, List.nil_append, scanKeys_byte, if_pos hop]
      rfl
  | cons key keys ih =>
      obtain ⟨hkey, hrest⟩ := List.forall_mem_cons.mp hkeys
      have hmove : front ++ ((key :: keys).flatMap pushed ++ op :: rest) =
          (front ++ pushed key) ++ (keys.flatMap pushed ++ op :: rest) := by
        simp only [List.flatMap_cons, List.append_assoc]
      have hlen : key.length.toUInt8 = 33 := by
        rw [hkey]
        rfl
      have hlength : front.length + 1 + (33 : UInt8).toNat = (front ++ pushed key).length := by
        rw [List.length_append, length_pushed, hkey, Nat.add_assoc]
        rfl
      have hbyte : front ++ ((key :: keys).flatMap pushed ++ op :: rest) =
          front ++ 33 :: (key ++ (keys.flatMap pushed ++ op :: rest)) := by
        simp only [List.flatMap_cons, pushed, hlen, List.cons_append, List.append_assoc]
      rw [hbyte, scanKeys_byte, if_neg (by decide), if_neg (by decide), ← hbyte, hmove, hlength,
        ih hrest, List.flatMap_cons, List.length_append, List.length_append, List.length_cons]
      simp only [Option.some.injEq, Prod.mk.injEq]
      omega

/-- Wherever the loop over the keys ends inside, it has passed keys and stands before one of `OP_1`
to `OP_16`. -/
theorem scanKeys_cases (scriptsig : Bytes) (pos pubnum : ℕ) :
    (∀ scan, scanKeys scriptsig pos pubnum = some scan → scriptsig.length ≤ scan.1) ∨
      ∃ (keys : List Bytes) (op : UInt8) (rest : Bytes), (∀ key ∈ keys, key.length = 33) ∧
        (0x51 ≤ op ∧ op ≤ 0x60) ∧ scriptsig.drop pos = keys.flatMap pushed ++ op :: rest := by
  induction pos, pubnum using scanKeys.induct scriptsig with
  | case1 pos pubnum hpos len hop =>
      exact .inr ⟨[], len, scriptsig.drop (pos + 1), by simp, hop,
        List.drop_eq_getElem_cons hpos⟩
  | case2 pos pubnum hpos len hop hlen =>
      left
      intro scan hscan
      rw [scanKeys, dif_pos hpos] at hscan
      simp only [len] at hop hlen
      rw [if_neg hop, if_pos hlen] at hscan
      cases hscan
  | case3 pos pubnum hpos len hop hlen ih =>
      have hstep : scanKeys scriptsig pos pubnum =
          scanKeys scriptsig (pos + 1 + len.toNat) (pubnum + 1) := by
        rw [scanKeys, dif_pos hpos]
        simp only [len] at hop hlen ⊢
        rw [if_neg hop, if_neg hlen]
      by_cases hinside : pos + 1 + len.toNat ≤ scriptsig.length
      · rw [hstep]
        refine ih.imp_right ?_
        rintro ⟨keys, op, rest, hkeys, hop', hdrop⟩
        refine ⟨(scriptsig.drop (pos + 1)).take len.toNat :: keys, op, rest, ?_, hop', ?_⟩
        · refine List.forall_mem_cons.mpr ⟨?_, hkeys⟩
          have hthirty : len.toNat = 33 := by
            rw [not_ne_iff.mp hlen]
            rfl
          rw [List.length_take, List.length_drop]
          omega
        · rw [List.flatMap_cons, List.append_assoc, ← hdrop]
          exact drop_pushed hpos hinside
      · left
        intro scan hscan
        rw [hstep, scanKeys_end _ (by omega)] at hscan
        obtain rfl := Option.some.inj hscan
        exact Nat.le_of_not_le hinside
  | case4 pos pubnum hpos =>
      left
      intro scan hscan
      rw [scanKeys_end _ (by omega)] at hscan
      obtain rfl := Option.some.inj hscan
      exact Nat.le_of_not_lt hpos

/-! ### The push -/

theorem getElem?_behind (front : Bytes) (byte : UInt8) (rest : Bytes) (index : ℕ) :
    (front ++ byte :: rest)[front.length + 1 + index]? = rest[index]? := by
  rw [List.getElem?_append_right (by omega), List.getElem?_cons, if_neg (by omega)]
  congr 1
  omega

theorem parsePush_push {push : Bytes} (hpush : IsPush push) (front : Bytes) (opM : UInt8)
    (rest : Bytes) (signum : ℕ) :
    parsePush (front ++ (push ++ opM :: rest)) signum (front.length + 1) =
      if signum + 0x50 ≠ opM.toNat then some none
      else parseKeys (front ++ (push ++ opM :: rest)) signum
        (front ++ (push ++ [opM])).length := by
  obtain ⟨op, first, -, ⟨hfirst, rfl⟩ | ⟨hfirst, low, high, rfl⟩⟩ := hpush
  · have hget := getElem?_behind front op (first :: opM :: rest)
    have hvarint : getVarint (front ++ ([op, first] ++ opM :: rest)) (front.length + 1) =
        some (first.toNat, 1) := by
      simp only [getVarint, List.cons_append, List.nil_append, (hget 0 :)]
      simp [hfirst]
    have hopM : (front ++ ([op, first] ++ opM :: rest))[front.length + 1 + 1]? = some opM := hget 1
    have hlength : front.length + 1 + 1 + 1 = (front ++ ([op, first] ++ [opM])).length := by simp
    simp only [parsePush, hvarint, Option.bind_eq_bind, Option.bind_some, hopM, hlength]
    rfl
  · have hget := getElem?_behind front op (first :: low :: high :: opM :: rest)
    have hnot : ¬ first < 0xfd := UInt8.not_lt.mpr hfirst
    have hvarint : getVarint (front ++ ([op, first, low, high] ++ opM :: rest))
        (front.length + 1) = some (low.toNat + 256 * high.toNat, 3) := by
      have hlow := hget 1
      have hhigh := hget 2
      simp only [getVarint, List.cons_append, List.nil_append, (hget 0 :)]
      simp only [List.getElem?_cons_zero, Option.bind_eq_bind, Option.bind_some, hnot, ↓reduceIte]
      rw [hlow, hhigh]
      rfl
    have hopM : (front ++ ([op, first, low, high] ++ opM :: rest))[front.length + 1 + 3]? =
        some opM := hget 3
    have hlength : front.length + 1 + 3 + 1 =
        (front ++ ([op, first, low, high] ++ [opM])).length := by simp
    simp only [parsePush, hvarint, Option.bind_eq_bind, Option.bind_some, hopM, hlength]
    rfl

/-- Without a whole push and a byte behind it, something outside is read. -/
theorem parsePush_short {op : UInt8} (hop : op = 0x4c ∨ op = 0x4d) {rest : Bytes}
    (hshort : ¬ PushFollowed (op :: rest)) (front : Bytes) (signum : ℕ) :
    parsePush (front ++ op :: rest) signum (front.length + 1) = none := by
  have hget := getElem?_behind front op rest
  rw [parsePush, getVarint]
  cases rest with
  | nil => simp
  | cons first rest =>
      have hfirst := hget 0
      by_cases hone : first < 0xfd
      · cases rest with
        | nil =>
            have hopM := hget 1
            simp only [Nat.add_zero, List.getElem?_cons_zero] at hfirst
            simp only [hfirst, Option.bind_eq_bind, Option.bind_some, hone, ↓reduceIte,
              Option.pure_def, hopM]
            rfl
        | cons opM rest =>
            exact absurd ⟨[op, first], opM, rest, ⟨op, first, hop, .inl ⟨hone, rfl⟩⟩, rfl⟩ hshort
      · simp only [Nat.add_zero, List.getElem?_cons_zero] at hfirst
        simp only [hfirst, Option.bind_eq_bind, Option.bind_some, hone, ↓reduceIte]
        have hlow := hget 1
        have hhigh := hget 2
        have hopM := hget 3
        cases rest with
        | nil =>
            rw [hlow]
            rfl
        | cons low rest =>
            cases rest with
            | nil =>
                rw [hlow, hhigh]
                rfl
            | cons high rest =>
                cases rest with
                | nil =>
                    rw [hlow, hhigh]
                    simp only [List.getElem?_cons_succ, List.getElem?_cons_zero, Option.bind_some,
                      Option.pure_def, hopM]
                    rfl
                | cons opM rest =>
                    exact absurd ⟨[op, first, low, high], opM, rest,
                      ⟨op, first, hop, .inr ⟨UInt8.not_lt.mp hone, low, high, rfl⟩⟩, rfl⟩ hshort

/-! ### Taking a scriptSig apart -/

/-- What the code makes of the bytes behind the keys. -/
theorem parseKeys_pushed {keys : List Bytes} (hkeys : ∀ key ∈ keys, key.length = 33) {op : UInt8}
    (hop : 0x51 ≤ op ∧ op ≤ 0x60) (front rest : Bytes) (signum : ℕ) :
    parseKeys (front ++ (keys.flatMap pushed ++ op :: rest)) signum front.length =
      if keys.length + 0x50 ≠ op.toNat then some none
      else match rest with
        | [] => none
        | last :: rest =>
            if last ≠ 0xae ∨ rest ≠ [] then some none
            else some (some ⟨signum, front.length, keys.length⟩) := by
  have hfront : front ++ (keys.flatMap pushed ++ op :: rest) =
      (front ++ keys.flatMap pushed) ++ op :: rest := (List.append_assoc _ _ _).symm
  have hinside : ¬ (front ++ (keys.flatMap pushed ++ op :: rest)).length ≤
      front.length + (keys.flatMap pushed).length := by
    simp only [List.length_append, List.length_cons]
    omega
  have hopN : (front ++ (keys.flatMap pushed ++ op :: rest))[front.length +
      (keys.flatMap pushed).length]? = some op := by
    rw [hfront, ← List.length_append]
    exact getElem?_front _ op rest
  have hlast : (front ++ (keys.flatMap pushed ++ op :: rest))[front.length +
      (keys.flatMap pushed).length + 1]? = rest[0]? := by
    rw [hfront, ← List.length_append]
    exact getElem?_behind _ op rest 0
  rw [parseKeys, scanKeys_pushed hkeys hop]
  simp only [hinside, ↓reduceIte, hopN, Option.bind_eq_bind, Option.bind_some, Nat.zero_add, hlast]
  by_cases hnum : keys.length + 0x50 ≠ op.toNat
  · rw [if_pos hnum, if_pos hnum]
    rfl
  · rw [if_neg hnum, if_neg hnum]
    cases rest with
    | nil => rfl
    | cons last rest =>
        have hend : front.length + (keys.flatMap pushed).length + 2 ≠
            (front ++ (keys.flatMap pushed ++ op :: last :: rest)).length ↔ rest ≠ [] := by
          rw [not_iff_not, ← List.length_eq_zero_iff]
          simp only [List.length_append, List.length_cons]
          omega
        simp only [List.getElem?_cons_zero, Option.bind_some, hend]
        by_cases hcheck : last ≠ 0xae
        · rw [if_pos hcheck, if_pos (.inl hcheck)]
          rfl
        · by_cases hrest : rest ≠ []
          · rw [if_neg hcheck, if_pos hrest, if_pos (.inr hrest)]
            rfl
          · rw [if_neg hcheck, if_neg hrest, if_neg (not_or.mpr ⟨hcheck, hrest⟩)]
            rfl

theorem parse_pushed {sigs : List Bytes} (hsigs : ∀ sig ∈ sigs, Passed sig) {op : UInt8}
    (hop : op = 0x4c ∨ op = 0x4d) (rest : Bytes) :
    parse (0x00 :: (sigs.flatMap pushed ++ op :: rest)) =
      parsePush ((0x00 :: sigs.flatMap pushed) ++ op :: rest) sigs.length
        ((0x00 :: sigs.flatMap pushed).length + 1) := by
  have hscan := scanSigs_pushed hsigs hop [0x00] rest 0
  simp only [List.cons_append, List.nil_append, List.length_singleton, Nat.zero_add] at hscan
  have hinside : ¬ (0x00 :: (sigs.flatMap pushed ++ op :: rest)).length ≤
      1 + (sigs.flatMap pushed).length := by
    simp only [List.length_append, List.length_cons]
    omega
  simp only [parse, List.getElem?_cons_zero, Option.bind_eq_bind, Option.bind_some, hscan, hinside]
  simp [Nat.add_comm]

theorem toNat_opX {count : ℕ} (hcount : count + 0x50 < 256) :
    (opX count).toNat = count + 0x50 := by
  rw [opX, Nat.add_comm]
  exact Nat.mod_eq_of_lt hcount

theorem opX_of_toNat {count : ℕ} {op : UInt8} (heq : count + 0x50 = op.toNat) :
    op = opX count := by
  apply UInt8.toNat_inj.mp
  rw [toNat_opX (heq ▸ op.toNat_lt), heq]

/-- `OP_1` to `OP_16` stand for the numbers from 1 to 16. -/
theorem opX_range {count : ℕ} (hcount : count + 0x50 < 256) :
    (0x51 ≤ opX count ∧ opX count ≤ 0x60) ↔ 1 ≤ count ∧ count ≤ 16 := by
  rw [UInt8.le_iff_toNat_le, UInt8.le_iff_toNat_le, toNat_opX hcount]
  change (81 ≤ _ ∧ _ ≤ 96) ↔ _
  omega

/-- A push with the number of signatures behind it leads to the keys. -/
theorem parse_push {sigs : List Bytes} (hsigs : ∀ sig ∈ sigs, Passed sig) {push : Bytes}
    (hpush : IsPush push) (opM : UInt8) (rest : Bytes) :
    parse (0x00 :: (sigs.flatMap pushed ++ (push ++ opM :: rest))) =
      if sigs.length + 0x50 ≠ opM.toNat then some none
      else parseKeys ((0x00 :: (sigs.flatMap pushed ++ (push ++ [opM]))) ++ rest) sigs.length
        (0x00 :: (sigs.flatMap pushed ++ (push ++ [opM]))).length := by
  have hwhole := parsePush_push hpush (0x00 :: sigs.flatMap pushed) opM rest sigs.length
  obtain ⟨op, first, hop, hcases⟩ := hpush
  obtain ⟨behind, rfl⟩ : ∃ behind, push = op :: behind := by
    rcases hcases with ⟨-, rfl⟩ | ⟨-, low, high, rfl⟩
    · exact ⟨[first], rfl⟩
    · exact ⟨[first, low, high], rfl⟩
  have hparse := parse_pushed hsigs hop (behind ++ opM :: rest)
  simp only [List.cons_append, List.append_assoc] at hparse hwhole ⊢
  rw [hparse, hwhole]
  simp only [List.nil_append]

theorem parse_layout {sigs : List Bytes} {push : Bytes} {keys : List Bytes}
    (htaken : Taken sigs push keys) :
    parse (layout sigs push keys) = some (some ⟨sigs.length,
      (0x00 :: (sigs.flatMap pushed ++ (push ++ [opX sigs.length]))).length, keys.length⟩) := by
  have hrange := (opX_range (by have := htaken.pubnum_le; omega)).mpr
    ⟨htaken.pubnum_pos, htaken.pubnum_le⟩
  rw [layout, redeemScript, parse_push htaken.passed htaken.isPush,
    if_neg (not_not.mpr (toNat_opX htaken.signum).symm),
    parseKeys_pushed htaken.keys_length hrange,
    if_neg (not_not.mpr (toNat_opX (by have := htaken.pubnum_le; omega)).symm)]
  simp

theorem parse_truncated {scriptsig : Bytes} (htruncated : Truncated scriptsig) :
    parse scriptsig = none := by
  cases htruncated with
  | empty => rfl
  | push sigs op rest hsigs hop hshort =>
      rw [parse_pushed hsigs hop, parsePush_short hop hshort]
  | keys sigs push keys htaken =>
      have hrange := (opX_range (by have := htaken.pubnum_le; omega)).mpr
        ⟨htaken.pubnum_pos, htaken.pubnum_le⟩
      rw [parse_push htaken.passed htaken.isPush,
        if_neg (not_not.mpr (toNat_opX htaken.signum).symm),
        parseKeys_pushed htaken.keys_length hrange,
        if_neg (not_not.mpr (toNat_opX (by have := htaken.pubnum_le; omega)).symm)]

/-- What taking a scriptSig apart comes to. -/
theorem parse_cases (scriptsig : Bytes) :
    Truncated scriptsig ∨ parse scriptsig = some none ∨
      ∃ sigs push keys, Taken sigs push keys ∧ scriptsig = layout sigs push keys := by
  cases scriptsig with
  | nil => exact .inl .empty
  | cons top behind =>
      by_cases htop : top = 0x00
      case neg => exact .inr (.inl (by simp [parse, htop]))
      subst htop
      rcases scanSigs_cases (0x00 :: behind) 1 0 with hend | ⟨sigs, op, rest, hsigs, hop, hdrop⟩
      · refine .inr (.inl ?_)
        simp only [parse, List.getElem?_cons_zero, Option.bind_eq_bind, Option.bind_some, hend]
        rfl
      obtain rfl : behind = sigs.flatMap pushed ++ op :: rest := hdrop
      by_cases hpush : PushFollowed (op :: rest)
      case neg => exact .inl (.push sigs op rest hsigs hop hpush)
      obtain ⟨push, opM, rest', hpush, heq⟩ := hpush
      rw [heq]
      have hparse := parse_push hsigs hpush opM rest'
      by_cases hsignum : sigs.length + 0x50 ≠ opM.toNat
      · rw [hparse, if_pos hsignum]
        exact .inr (.inl rfl)
      rw [if_neg hsignum] at hparse
      rw [not_ne_iff] at hsignum
      have hm : sigs.length + 0x50 < 256 := hsignum ▸ opM.toNat_lt
      obtain rfl := opX_of_toNat hsignum
      rcases scanKeys_cases ((0x00 :: (sigs.flatMap pushed ++ (push ++ [opX sigs.length])))
        ++ rest')
        (0x00 :: (sigs.flatMap pushed ++ (push ++ [opX sigs.length]))).length 0 with
        hend | ⟨keys, opN, rest'', hkeys, hopN, hdrop⟩
      · refine .inr (.inl ?_)
        rw [hparse, parseKeys]
        split
        · rfl
        · rename_i pos pubnum hscan
          rw [if_pos (hend _ hscan)]
      · rw [List.drop_left] at hdrop
        subst hdrop
        rw [parseKeys_pushed hkeys hopN] at hparse
        by_cases hpubnum : keys.length + 0x50 ≠ opN.toNat
        · rw [hparse, if_pos hpubnum]
          exact .inr (.inl rfl)
        rw [if_neg hpubnum] at hparse
        rw [not_ne_iff] at hpubnum
        have hn : keys.length + 0x50 < 256 := hpubnum ▸ opN.toNat_lt
        obtain rfl := opX_of_toNat hpubnum
        obtain ⟨hpos, hle⟩ := (opX_range hn).mp hopN
        have htaken : Taken sigs push keys := ⟨hsigs, hpush, hkeys, hm, hpos, hle⟩
        cases rest'' with
        | nil => exact .inl (.keys sigs push keys htaken)
        | cons last rest'' =>
            by_cases hlast : last ≠ 0xae ∨ rest'' ≠ []
            · rw [hparse]
              simp only [hlast, ↓reduceIte]
              exact .inr (.inl trivial)
            · obtain ⟨hae, hnil⟩ := not_or.mp hlast
              obtain rfl := not_not.mp hae
              obtain rfl := not_not.mp hnil
              exact .inr (.inr ⟨sigs, push, keys, htaken, rfl⟩)

/-- Taking a scriptSig apart reads outside of it if and only if it is truncated. -/
theorem parse_eq_none (scriptsig : Bytes) : parse scriptsig = none ↔ Truncated scriptsig := by
  constructor
  · intro hnone
    rcases parse_cases scriptsig with htruncated | hfalse | ⟨sigs, push, keys, htaken, rfl⟩
    · exact htruncated
    · rw [hnone] at hfalse
      cases hfalse
    · rw [parse_layout htaken] at hnone
      cases hnone
  · exact parse_truncated

end Multisig

end Ptarmigan
