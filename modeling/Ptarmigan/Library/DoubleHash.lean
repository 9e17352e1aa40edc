/-
Double hashes of bytes that contain double hashes of other bytes.  A hash function that marks one
of the inner byte strings shows, in the end, whether that string was hashed.
-/
import Mathlib.Data.List.FinRange
import Mathlib.Data.List.Nodup
import Mathlib.Order.Nat

namespace DoubleHash

abbrev Digest := Vector UInt8 32

def hash256 (sha256 : List UInt8 → Digest) (data : List UInt8) : Digest :=
  sha256 (sha256 data).toList

/-- The digest of one byte, again and again. -/
def constant (byte : UInt8) : Digest :=
  Vector.replicate 32 byte

theorem constant_inj {byte byte' : UInt8} (heq : constant byte = constant byte') :
    byte = byte' := by
  have hlist := congrArg (fun digest : Digest => digest.toList.head?) heq
  simpa [constant] using hlist

theorem getElem?_constant {place : ℕ} (hplace : place < 32) (byte : UInt8) :
    (constant byte).toList[place]? = some byte := by
  rw [constant, Vector.toList_replicate, List.getElem?_replicate, if_pos hplace]

/-- Bytes that have one of the two at `place` are taken for a digest, or for bytes with digests in
them, one of which starts at `slot`; of all others only the target is marked. -/
def marked (place slot : ℕ) (yes no : UInt8) (target data : List UInt8) : Bool :=
  if data[place]? = some yes ∨ data[place]? = some no then
    decide ((if data.length = 32 then data[place]? else data[slot]?) = some yes)
  else decide (data = target)

/-- A hash function with two values. -/
def marking (place slot : ℕ) (yes no : UInt8) (target data : List UInt8) : Digest :=
  constant (if marked place slot yes no target data then yes else no)

section Marking

variable {place slot : ℕ} {yes no byte : UInt8} {target data : List UInt8}

theorem marking_constant (hplace : place < 32) (hbyte : byte = yes ∨ byte = no) :
    marking place slot yes no target (constant byte).toList = constant byte := by
  have hlength : (constant byte).toList.length = 32 := Vector.length_toList
  have hmarked : marked place slot yes no target (constant byte).toList =
      decide (byte = yes) := by
    simp only [marked, hlength, getElem?_constant hplace, Option.some.injEq, hbyte, ↓reduceIte]
  rw [marking, hmarked]
  rcases hbyte with rfl | rfl
  · rw [if_pos (decide_eq_true rfl)]
  · by_cases hsame : byte = yes
    · rw [if_pos (decide_eq_true hsame), hsame]
    · rw [if_neg (by simpa using hsame)]

/-- The second hash changes nothing. -/
theorem hash256_marking (hplace : place < 32) :
    hash256 (marking place slot yes no target) data = marking place slot yes no target data := by
  change marking place slot yes no target (constant _).toList = constant _
  apply marking_constant hplace
  split_ifs
  · exact .inl rfl
  · exact .inr rfl

/-- What has neither byte at the place is only compared with the target. -/
theorem marked_inner (hyes : data[place]? ≠ some yes) (hno : data[place]? ≠ some no) :
    marked place slot yes no target data = decide (data = target) := by
  rw [marked, if_neg (not_or.mpr ⟨hyes, hno⟩)]

/-- Bytes that contain digests show the one at the slot. -/
theorem marked_outer {first : UInt8} (hfirst : data[place]? = some first)
    (hknown : first = yes ∨ first = no) (hlength : data.length ≠ 32) :
    marked place slot yes no target data = decide (data[slot]? = some yes) := by
  rw [marked, if_neg hlength, hfirst, if_pos]
  exact hknown.imp (congrArg some) (congrArg some)

end Marking

/-- A hash function that tells strings of one length from all others. -/
def markingLength (length : ℕ) (yes no : UInt8) (data : List UInt8) : Digest :=
  if data.length = length ∨ data = (constant yes).toList then constant yes else constant no

theorem hash256_markingLength {length : ℕ} {yes no : UInt8} {data : List UInt8} (hne : yes ≠ no)
    (hlength : length ≠ 32) : hash256 (markingLength length yes no) data =
      markingLength length yes no data := by
  have hdigest : ∀ byte, (constant byte).toList.length ≠ length := by
    intro byte heq
    exact hlength (heq.symm.trans Vector.length_toList)
  have hno : (constant no).toList ≠ (constant yes).toList := by
    intro heq
    exact hne (constant_inj (Vector.toList_inj.mp heq)).symm
  by_cases hmarked : data.length = length ∨ data = (constant yes).toList
  · have hdata : markingLength length yes no data = constant yes := if_pos hmarked
    rw [hash256, hdata]
    exact if_pos (.inr rfl)
  · have hdata : markingLength length yes no data = constant no := if_neg hmarked
    rw [hash256, hdata]
    exact if_neg (not_or.mpr ⟨hdigest no, hno⟩)

/-- What comes to the digest of a string of that length is one itself, or is that digest. -/
theorem length_of_hash256_eq {length : ℕ} {yes no : UInt8} {data data' : List UInt8}
    (hne : yes ≠ no) (hlength : length ≠ 32) (hdata : data.length = length)
    (hsame : hash256 (markingLength length yes no) data =
      hash256 (markingLength length yes no) data') :
    data'.length = length ∨ data' = (constant yes).toList := by
  rw [hash256_markingLength hne hlength, hash256_markingLength hne hlength] at hsame
  have hyes : markingLength length yes no data = constant yes := if_pos (.inl hdata)
  by_contra hother
  have hno : markingLength length yes no data' = constant no := if_neg hother
  rw [hyes, hno] at hsame
  exact hne (constant_inj hsame)

/-- Fewer bytes than there are leave one out. -/
theorem exists_fresh (bytes : List UInt8) (hfew : bytes.length < 256) : ∃ byte, byte ∉ bytes := by
  by_contra hall
  have hevery : (List.finRange 256).map UInt8.ofFin ⊆ bytes := by
    intro byte _
    by_contra hmissing
    exact hall ⟨byte, hmissing⟩
  have hnodup : ((List.finRange 256).map UInt8.ofFin).Nodup :=
    (List.nodup_finRange 256).map fun _ _ heq => congrArg UInt8.toFin heq
  have hlength := hnodup.length_le_of_subset hevery
  rw [List.length_map, List.length_finRange] at hlength
  omega

/-- Two bytes that none of a few strings has at the place. -/
theorem exists_marks (place : ℕ) (strings : List (List UInt8)) (hfew : strings.length < 255) :
    ∃ yes no : UInt8, yes ≠ no ∧
      ∀ data ∈ strings, data[place]? ≠ some yes ∧ data[place]? ≠ some no := by
  have hbytes : (strings.filterMap fun data => data[place]?).length < 255 :=
    Nat.lt_of_le_of_lt (List.length_filterMap_le _ _) hfew
  obtain ⟨yes, hyes⟩ := exists_fresh (strings.filterMap fun data => data[place]?) (by omega)
  obtain ⟨no, hno⟩ := exists_fresh (yes :: strings.filterMap fun data => data[place]?)
    (by rw [List.length_cons]; omega)
  rw [List.mem_cons, not_or] at hno
  refine ⟨yes, no, Ne.symm hno.1, fun data hdata => ⟨?_, ?_⟩⟩
  · exact fun heq => hyes (List.mem_filterMap.mpr ⟨data, hdata, heq⟩)
  · exact fun heq => hno.2 (List.mem_filterMap.mpr ⟨data, hdata, heq⟩)

end DoubleHash
