/-
Readers that walk over a byte string of a given length: a read past its end, a negative rest, a
failed assertion and an access through a null pointer are faults, told apart from what a reader
refuses.
-/
import Mathlib.Data.List.Basic

namespace WireReader

/-- What goes wrong in a read that is not refused. -/
inductive Fault where
  | outOfBounds
  | negative
  | assertion
  | nullPointer
deriving DecidableEq, Repr

/-- How a read ends: with a value and the position behind it, refused with what had been written by
then, or with a fault. -/
inductive Result (ε α : Type) where
  | done (value : α) (pos : Nat)
  | refused (left : ε)
  | fault (reason : Fault)
deriving DecidableEq, Repr

end WireReader

/-- A reader gets the bytes and the position it stands at. -/
def WireReader (ε α : Type) : Type := List UInt8 → Nat → WireReader.Result ε α

namespace WireReader

variable {ε α β : Type}

instance : Monad (WireReader ε) where
  pure value := fun _ pos => .done value pos
  bind reader next := fun data pos =>
    match reader data pos with
    | .done value pos => next value data pos
    | .refused left => .refused left
    | .fault reason => .fault reason

/-- A copy of the next bytes. -/
def bytes (width : Nat) : WireReader ε (List UInt8) := fun data pos =>
  if pos + width ≤ data.length then .done ((data.drop pos).take width) (pos + width)
  else .fault .outOfBounds

/-- The position moves on, nothing is read. -/
def skip (width : Nat) : WireReader ε Unit := fun _ pos => .done () (pos + width)

def refuse (left : ε) : WireReader ε α := fun _ _ => .refused left

def fail (reason : Fault) : WireReader ε α := fun _ _ => .fault reason

def refuseIf (cond : Bool) (left : ε) : WireReader ε Unit :=
  if cond then refuse left else pure ()

/-- A part that is not always there. -/
def readIf (cond : Bool) (reader : WireReader ε α) (default : α) : WireReader ε α :=
  if cond then reader else pure default

/-- A message shorter than that is refused. -/
def atLeast (width : Nat) (left : ε) : WireReader ε Unit := fun data pos =>
  if data.length < width then .refused left else .done () pos

/-- The given length less the position, as a number that must not be negative. -/
def remaining : WireReader ε Nat := fun data pos =>
  if pos ≤ data.length then .done (data.length - pos) pos else .fault .negative

/-- `assert` that the position is not behind the end. -/
def assertInside : WireReader ε Unit := fun data pos =>
  if pos ≤ data.length then .done () pos else .fault .assertion

/-- The given length. -/
def messageLength : WireReader ε Nat := fun data pos => .done data.length pos

/-- The whole message, and where the reader stands. -/
def message : WireReader ε (List UInt8) := fun data pos => .done data pos

def position : WireReader ε Nat := fun _ pos => .done pos pos

/-- What was written before the refusal is forgotten. -/
def discard (reader : WireReader ε α) : WireReader Unit α := fun data pos =>
  match reader data pos with
  | .done value pos => .done value pos
  | .refused _ => .refused ()
  | .fault reason => .fault reason

/-- The refusal is not looked at. -/
def heedless (reader : WireReader Unit Unit) : WireReader Unit Unit := fun data pos =>
  match reader data pos with
  | .refused _ => .done () pos
  | result => result

/-- A reader that begins at the first byte. -/
def fromStart (reader : WireReader ε α) : WireReader ε α := fun data _ => reader data 0

def run (reader : WireReader ε α) (data : List UInt8) : Result ε α := reader data 0

/-! ### No faults -/

/-- The reader comes to no fault, and when it is done the condition holds. -/
def wp (reader : WireReader ε α) (data : List UInt8) (pos : Nat) (post : α → Nat → Prop) : Prop :=
  match reader data pos with
  | .done value pos => post value pos
  | .refused _ => True
  | .fault _ => False

section Wp

variable {data : List UInt8} {pos : Nat} {post : α → Nat → Prop}

@[simp] theorem wp_pure (value : α) :
    wp (pure value : WireReader ε α) data pos post ↔ post value pos :=
  Iff.rfl

@[simp] theorem wp_bind (reader : WireReader ε α) (next : α → WireReader ε β)
    (post : β → Nat → Prop) :
    wp (reader >>= next) data pos post ↔
      wp reader data pos fun value pos => wp (next value) data pos post := by
  have hbind : (reader >>= next) data pos =
      match reader data pos with
      | .done value pos => next value data pos
      | .refused left => .refused left
      | .fault reason => .fault reason := rfl
  simp only [wp, hbind]
  cases reader data pos <;> rfl

@[simp] theorem wp_bytes (width : Nat) (post : List UInt8 → Nat → Prop) :
    wp (bytes width : WireReader ε _) data pos post ↔
      pos + width ≤ data.length ∧ post ((data.drop pos).take width) (pos + width) := by
  by_cases hfits : pos + width ≤ data.length <;> simp [wp, bytes, hfits]

@[simp] theorem wp_skip (width : Nat) (post : Unit → Nat → Prop) :
    wp (skip width : WireReader ε _) data pos post ↔ post () (pos + width) :=
  Iff.rfl

@[simp] theorem wp_refuse (left : ε) : wp (refuse left : WireReader ε α) data pos post ↔ True :=
  Iff.rfl

@[simp] theorem wp_fail (reason : Fault) :
    wp (fail reason : WireReader ε α) data pos post ↔ False :=
  Iff.rfl

@[simp] theorem wp_refuseIf (cond : Bool) (left : ε) (post : Unit → Nat → Prop) :
    wp (refuseIf cond left) data pos post ↔ (cond = false → post () pos) := by
  cases cond <;> simp [refuseIf]

@[simp] theorem wp_readIf (cond : Bool) (reader : WireReader ε α) (default : α) :
    wp (readIf cond reader default) data pos post ↔
      (cond = true → wp reader data pos post) ∧ (cond = false → post default pos) := by
  cases cond <;> simp [readIf]

@[simp] theorem wp_atLeast (width : Nat) (left : ε) (post : Unit → Nat → Prop) :
    wp (atLeast width left) data pos post ↔ (width ≤ data.length → post () pos) := by
  by_cases hshort : data.length < width
  · have hnot : ¬ width ≤ data.length := Nat.not_le.mpr hshort
    simp [wp, atLeast, hshort, hnot]
  · simp [wp, atLeast, hshort, Nat.not_lt.mp hshort]

@[simp] theorem wp_remaining (post : Nat → Nat → Prop) :
    wp (remaining : WireReader ε _) data pos post ↔
      pos ≤ data.length ∧ post (data.length - pos) pos := by
  by_cases hinside : pos ≤ data.length <;> simp [wp, remaining, hinside]

@[simp] theorem wp_assertInside (post : Unit → Nat → Prop) :
    wp (assertInside : WireReader ε _) data pos post ↔ pos ≤ data.length ∧ post () pos := by
  by_cases hinside : pos ≤ data.length <;> simp [wp, assertInside, hinside]

@[simp] theorem wp_messageLength (post : Nat → Nat → Prop) :
    wp (messageLength : WireReader ε _) data pos post ↔ post data.length pos :=
  Iff.rfl

@[simp] theorem wp_message (post : List UInt8 → Nat → Prop) :
    wp (message : WireReader ε _) data pos post ↔ post data pos :=
  Iff.rfl

@[simp] theorem wp_position (post : Nat → Nat → Prop) :
    wp (position : WireReader ε _) data pos post ↔ post pos pos :=
  Iff.rfl

@[simp] theorem wp_discard (reader : WireReader ε α) :
    wp reader.discard data pos post ↔ wp reader data pos post := by
  simp only [wp, discard]
  cases reader data pos <;> rfl

@[simp] theorem wp_fromStart (reader : WireReader ε α) :
    wp reader.fromStart data pos post ↔ wp reader data 0 post :=
  Iff.rfl

@[simp] theorem wp_map (reader : WireReader ε α) (convert : α → β) (post : β → Nat → Prop) :
    wp (convert <$> reader) data pos post ↔
      wp reader data pos fun value pos => post (convert value) pos :=
  wp_bind reader _ post

theorem wp_mono {reader : WireReader ε α} {post' : α → Nat → Prop}
    (hpost : ∀ value pos, post value pos → post' value pos) (hread : wp reader data pos post) :
    wp reader data pos post' := by
  simp only [wp] at hread ⊢
  cases hresult : reader data pos with
  | done value pos =>
      rw [hresult] at hread
      exact hpost value pos hread
  | refused left => trivial
  | fault reason => rwa [hresult] at hread

/-- A reader that neither faults nor comes to its end refuses. -/
theorem refused_of_wp_false {reader : WireReader Unit α}
    (hread : wp reader data pos fun _ _ => False) : reader data pos = .refused () := by
  simp only [wp] at hread
  cases hresult : reader data pos with
  | done value pos => rw [hresult] at hread; exact hread.elim
  | refused left => rfl
  | fault reason => rw [hresult] at hread; exact hread.elim

/-- Without a refusal to look at, the condition has to hold after a refusal as well. -/
theorem wp_heedless {reader : WireReader Unit Unit} {post : Unit → Nat → Prop} :
    wp reader.heedless data pos post ↔
      wp reader data pos post ∧ (reader data pos = .refused () → post () pos) := by
  simp only [wp, heedless]
  cases reader data pos with
  | done value pos' => simp
  | refused left => simp
  | fault reason => simp

end Wp

/-- What no fault means for a run: it is done in the condition, or it is refused. -/
theorem wp_iff_run {reader : WireReader Unit α} {data : List UInt8} {post : α → Nat → Prop} :
    wp reader data 0 post ↔
      (∀ reason, reader.run data ≠ .fault reason) ∧
        ∀ value pos, reader.run data = .done value pos → post value pos := by
  simp only [wp, run]
  cases reader data 0 with
  | done value pos => simp
  | refused left => simp
  | fault reason => simp

/-! ### What is read when there is no fault -/

/-- Unless it comes to a fault, the reader is done, in the condition. -/
def wlp (reader : WireReader ε α) (data : List UInt8) (pos : Nat) (post : α → Nat → Prop) : Prop :=
  match reader data pos with
  | .done value pos => post value pos
  | .refused _ => False
  | .fault _ => True

section Wlp

variable {data : List UInt8} {pos : Nat} {post : α → Nat → Prop}

@[simp] theorem wlp_pure (value : α) :
    wlp (pure value : WireReader ε α) data pos post ↔ post value pos :=
  Iff.rfl

@[simp] theorem wlp_bind (reader : WireReader ε α) (next : α → WireReader ε β)
    (post : β → Nat → Prop) :
    wlp (reader >>= next) data pos post ↔
      wlp reader data pos fun value pos => wlp (next value) data pos post := by
  have hbind : (reader >>= next) data pos =
      match reader data pos with
      | .done value pos => next value data pos
      | .refused left => .refused left
      | .fault reason => .fault reason := rfl
  simp only [wlp, hbind]
  cases reader data pos <;> rfl

@[simp] theorem wlp_bytes (width : Nat) (post : List UInt8 → Nat → Prop) :
    wlp (bytes width : WireReader ε _) data pos post ↔
      (pos + width ≤ data.length → post ((data.drop pos).take width) (pos + width)) := by
  by_cases hfits : pos + width ≤ data.length <;> simp [wlp, bytes, hfits]

@[simp] theorem wlp_skip (width : Nat) (post : Unit → Nat → Prop) :
    wlp (skip width : WireReader ε _) data pos post ↔ post () (pos + width) :=
  Iff.rfl

@[simp] theorem wlp_refuseIf (cond : Bool) (left : ε) (post : Unit → Nat → Prop) :
    wlp (refuseIf cond left) data pos post ↔ cond = false ∧ post () pos := by
  cases cond with
  | false => simp [refuseIf]
  | true => simp [refuseIf, refuse, wlp]

@[simp] theorem wlp_atLeast (width : Nat) (left : ε) (post : Unit → Nat → Prop) :
    wlp (atLeast width left) data pos post ↔ width ≤ data.length ∧ post () pos := by
  by_cases hshort : data.length < width
  · simp [wlp, atLeast, hshort, Nat.not_le.mpr hshort]
  · simp [wlp, atLeast, hshort, Nat.not_lt.mp hshort]

@[simp] theorem wlp_message (post : List UInt8 → Nat → Prop) :
    wlp (message : WireReader ε _) data pos post ↔ post data pos :=
  Iff.rfl

@[simp] theorem wlp_readIf (cond : Bool) (reader : WireReader ε α) (default : α) :
    wlp (readIf cond reader default) data pos post ↔
      (cond = true → wlp reader data pos post) ∧ (cond = false → post default pos) := by
  cases cond <;> simp [readIf]

@[simp] theorem wlp_messageLength (post : Nat → Nat → Prop) :
    wlp (messageLength : WireReader ε _) data pos post ↔ post data.length pos :=
  Iff.rfl

@[simp] theorem wlp_position (post : Nat → Nat → Prop) :
    wlp (position : WireReader ε _) data pos post ↔ post pos pos :=
  Iff.rfl

@[simp] theorem wlp_map (reader : WireReader ε α) (convert : α → β) (post : β → Nat → Prop) :
    wlp (convert <$> reader) data pos post ↔
      wlp reader data pos fun value pos => post (convert value) pos :=
  wlp_bind reader _ post

theorem wlp_mono {reader : WireReader ε α} {post' : α → Nat → Prop}
    (hpost : ∀ value pos, post value pos → post' value pos) (hread : wlp reader data pos post) :
    wlp reader data pos post' := by
  simp only [wlp] at hread ⊢
  cases hresult : reader data pos with
  | done value pos =>
      rw [hresult] at hread
      exact hpost value pos hread
  | refused left =>
      rw [hresult] at hread
      exact hread
  | fault reason => trivial

theorem wlp.of_done {reader : WireReader ε α} {value : α} {pos' : Nat}
    (hread : wlp reader data pos post) (hdone : reader data pos = .done value pos') :
    post value pos' := by
  rwa [wlp, hdone] at hread

theorem wlp.not_refused {reader : WireReader ε α} (hread : wlp reader data pos post) (left : ε) :
    reader data pos ≠ .refused left := by
  intro hrefused
  rwa [wlp, hrefused] at hread

end Wlp

theorem bind_done {reader : WireReader ε α} {next : α → WireReader ε β} {data : List UInt8}
    {pos pos' : Nat} {value : α} (hdone : reader data pos = .done value pos') :
    (reader >>= next) data pos = next value data pos' := by
  change (match reader data pos with
    | .done value pos => next value data pos
    | .refused left => .refused left
    | .fault reason => .fault reason) = _
  rw [hdone]

theorem bind_refused {reader : WireReader ε α} {next : α → WireReader ε β} {data : List UInt8}
    {pos : Nat} {left : ε} (hrefused : reader data pos = .refused left) :
    (reader >>= next) data pos = .refused left := by
  change (match reader data pos with
    | .done value pos => next value data pos
    | .refused left => .refused left
    | .fault reason => .fault reason) = _
  rw [hrefused]

theorem bind_fault {reader : WireReader ε α} {next : α → WireReader ε β} {data : List UInt8}
    {pos : Nat} {reason : Fault} (hfault : reader data pos = .fault reason) :
    (reader >>= next) data pos = .fault reason := by
  change (match reader data pos with
    | .done value pos => next value data pos
    | .refused left => .refused left
    | .fault reason => .fault reason) = _
  rw [hfault]

/-- A reader that is done goes on with the next one. -/
theorem run_bind {reader : WireReader ε α} {next : α → WireReader ε β} {data : List UInt8}
    {value : α} {pos : Nat} (hdone : reader.run data = .done value pos) :
    (reader >>= next).run data = next value data pos :=
  bind_done hdone

/-! ### Fields that are read back -/

/-- At the position, and with `rest` behind it, the field is read as the value. -/
def Reads (pos : Nat) (rest : List UInt8) (reader : WireReader ε α) (field : List UInt8)
    (value : α) : Prop :=
  ∀ data : List UInt8, data.length = pos + field.length + rest.length →
    data.drop pos = field ++ rest → reader data pos = .done value (pos + field.length)

/-- The bytes at the position and behind it. -/
structure Stands (data : List UInt8) (pos : Nat) (rest : List UInt8) : Prop where
  length : data.length = pos + rest.length
  drop : data.drop pos = rest

theorem Stands.start (data : List UInt8) : Stands data 0 data :=
  ⟨by rw [Nat.zero_add], rfl⟩

/-- Behind a field stands what comes after it. -/
theorem Stands.behind {data : List UInt8} {pos : Nat} {field rest : List UInt8}
    (hstands : Stands data pos (field ++ rest)) : Stands data (pos + field.length) rest := by
  constructor
  · rw [hstands.length, List.length_append, Nat.add_assoc]
  · rw [← List.drop_drop, hstands.drop, List.drop_left]

theorem Stands.getD {data : List UInt8} {pos : Nat} {rest : List UInt8}
    (hstands : Stands data pos rest) (index : Nat) (default : UInt8) :
    data.getD (pos + index) default = rest.getD index default := by
  rw [← hstands.drop, List.getD_eq_getElem?_getD, List.getD_eq_getElem?_getD, List.getElem?_drop]

theorem Reads.done {reader : WireReader ε α} {pos : Nat} {field rest data : List UInt8} {value : α}
    (hreads : Reads pos rest reader field value) (hstands : Stands data pos (field ++ rest)) :
    reader data pos = .done value (pos + field.length) := by
  apply hreads data
  · rw [hstands.length, List.length_append, Nat.add_assoc]
  · exact hstands.drop

theorem Reads.run {reader : WireReader ε α} {field : List UInt8} {value : α}
    (hreads : Reads 0 [] reader field value) : reader.run field = .done value field.length := by
  have hdone := hreads field (by simp) (by simp)
  rwa [Nat.zero_add] at hdone

variable {pos : Nat} {rest : List UInt8}

theorem Reads.pure (value : α) : Reads pos rest (pure value : WireReader ε α) [] value := by
  intro data _ _
  rfl

theorem Reads.bind {reader : WireReader ε α} {next : α → WireReader ε β}
    {field after : List UInt8} {value : α} {value' : β}
    (hfirst : Reads pos (after ++ rest) reader field value)
    (hnext : Reads (pos + field.length) rest (next value) after value') :
    Reads pos rest (reader >>= next) (field ++ after) value' := by
  intro data hlength hdrop
  have hdone : reader data pos = .done value (pos + field.length) := by
    apply hfirst data
    · simp only [List.length_append] at hlength ⊢
      omega
    · rw [hdrop, List.append_assoc]
  have hafter : data.drop (pos + field.length) = after ++ rest := by
    rw [← List.drop_drop, hdrop, List.append_assoc, List.drop_left]
  have hrest : next value data (pos + field.length) =
      .done value' (pos + field.length + after.length) := by
    apply hnext data _ hafter
    rw [hlength, List.length_append]
    omega
  rw [bind_done hdone, hrest, List.length_append, Nat.add_assoc]

theorem Reads.map {reader : WireReader ε α} {field : List UInt8} {value : α} (convert : α → β)
    (hreads : Reads pos rest reader field value) :
    Reads pos rest (convert <$> reader) field (convert value) := by
  intro data hlength hdrop
  have hmap : (convert <$> reader) data pos = (match reader data pos with
    | .done value pos => .done (convert value) pos
    | .refused left => .refused left
    | .fault reason => .fault reason) := rfl
  rw [hmap, hreads data hlength hdrop]

/-- A step that reads nothing. -/
theorem Reads.next {reader : WireReader ε α} {next : α → WireReader ε β} {field : List UInt8}
    {value : α} {value' : β} (hfirst : Reads pos (field ++ rest) reader [] value)
    (hnext : Reads pos rest (next value) field value') :
    Reads pos rest (reader >>= next) field value' := by
  change Reads pos rest (reader >>= next) ([] ++ field) value'
  exact Reads.bind hfirst hnext

theorem Reads.bytes {field : List UInt8} {width : Nat} (hwidth : field.length = width) :
    Reads pos rest (bytes width : WireReader ε _) field field := by
  subst hwidth
  intro data hlength hdrop
  have hfits : pos + field.length ≤ data.length := by omega
  rw [WireReader.bytes, if_pos hfits, hdrop, List.take_left]

theorem Reads.skip {field : List UInt8} {width : Nat} (hwidth : field.length = width) :
    Reads pos rest (skip width : WireReader ε _) field () := by
  subst hwidth
  intro data _ _
  rfl

theorem Reads.refuseIf {cond : Bool} {left : ε} (hpasses : cond = false) :
    Reads pos rest (refuseIf cond left) [] () := by
  subst hpasses
  intro data _ _
  rfl

theorem Reads.readIf {cond : Bool} {reader : WireReader ε α} {default : α} {field : List UInt8}
    {value : α} (hcond : cond = true) (hreads : Reads pos rest reader field value) :
    Reads pos rest (readIf cond reader default) field value := by
  subst hcond
  exact hreads

theorem Reads.readIf_not {cond : Bool} {reader : WireReader ε α} {default : α}
    (hcond : cond = false) : Reads pos rest (WireReader.readIf cond reader default) [] default := by
  subst hcond
  exact Reads.pure default

theorem Reads.atLeast {width : Nat} {left : ε} (hlong : width ≤ pos + rest.length) :
    Reads pos rest (atLeast width left) [] () := by
  intro data hlength _
  have hnot : ¬ data.length < width := by
    rw [hlength, List.length_nil]
    omega
  rw [WireReader.atLeast, if_neg hnot]
  rfl

theorem Reads.remaining : Reads pos rest (remaining : WireReader ε _) [] rest.length := by
  intro data hlength _
  rw [List.length_nil] at hlength
  have hinside : pos ≤ data.length := by omega
  have hrest : data.length - pos = rest.length := by omega
  rw [WireReader.remaining, if_pos hinside, hrest]
  rfl

theorem Reads.assertInside : Reads pos rest (assertInside : WireReader ε _) [] () := by
  intro data hlength _
  rw [List.length_nil] at hlength
  have hinside : pos ≤ data.length := by omega
  rw [WireReader.assertInside, if_pos hinside]
  rfl

theorem Reads.messageLength :
    Reads pos rest (messageLength : WireReader ε _) [] (pos + rest.length) := by
  intro data hlength _
  rw [List.length_nil, Nat.add_zero] at hlength
  rw [WireReader.messageLength, hlength]
  rfl

theorem Reads.position : Reads pos rest (position : WireReader ε _) [] pos := by
  intro data _ _
  rfl

end WireReader
