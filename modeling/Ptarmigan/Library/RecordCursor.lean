/-
A cursor over a sequence of records.  Reading takes it to the next record; a deletion removes the
record that it is on and leaves it on the successor, which is then the next to be read.  A walk
deletes as it reads: what it leaves, and when that is no more than it should.
-/
import Mathlib.Data.List.Basic
import Mathlib.Logic.Function.Iterate

namespace RecordCursor

universe u

variable {α : Type u}

/-- The records before the cursor and those from it on; `onRead` is set while the first of these
has been read. -/
structure Cursor (α : Type u) where
  passed : List α
  rest : List α
  onRead : Bool

namespace Cursor

/-- Before the first record. -/
def atStart (records : List α) : Cursor α := ⟨[], records, false⟩

def records (cursor : Cursor α) : List α := cursor.passed ++ cursor.rest

/-- The records that have been read. -/
def behind (cursor : Cursor α) : List α :=
  if cursor.onRead then cursor.passed ++ cursor.rest.take 1 else cursor.passed

/-- The records still to be read. -/
def ahead (cursor : Cursor α) : List α :=
  if cursor.onRead then cursor.rest.drop 1 else cursor.rest

theorem behind_append_ahead (cursor : Cursor α) :
    cursor.behind ++ cursor.ahead = cursor.records := by
  unfold behind ahead records
  split_ifs
  · rw [List.append_assoc, List.take_append_drop]
  · rfl

/-- Read the next record; at the end the cursor stays. -/
def next (cursor : Cursor α) : Option α × Cursor α :=
  match cursor.ahead with
  | [] => (none, cursor)
  | record :: later => (some record, ⟨cursor.behind, record :: later, true⟩)

/-- Delete the record that the cursor is on, if any. -/
def delete (cursor : Cursor α) : Cursor α :=
  match cursor.rest with
  | [] => cursor
  | _ :: later => ⟨cursor.passed, later, false⟩

theorem next_of_ahead_nil {cursor : Cursor α} (hahead : cursor.ahead = []) :
    cursor.next = (none, cursor) := by
  simp only [next, hahead]

theorem next_of_ahead_cons {cursor : Cursor α} {record : α} {later : List α}
    (hahead : cursor.ahead = record :: later) :
    cursor.next = (some record, ⟨cursor.behind, record :: later, true⟩) := by
  simp only [next, hahead]

/-- Deletions after the first take the successors. -/
theorem delete_iterate (passed rest : List α) (count : Nat) :
    delete^[count] ⟨passed, rest, false⟩ = ⟨passed, rest.drop count, false⟩ := by
  induction count generalizing rest with
  | zero => rfl
  | succ count ih =>
      rw [Function.iterate_succ_apply]
      cases rest with
      | nil => simpa [delete] using ih []
      | cons record later => exact ih later

theorem delete_iterate_succ (passed : List α) (record : α) (later : List α) (count : Nat) :
    delete^[count + 1] ⟨passed, record :: later, true⟩ = ⟨passed, later.drop count, false⟩ := by
  rw [Function.iterate_succ_apply]
  exact delete_iterate passed later count

end Cursor

/-! ### Walks -/

/-- A walk reads the records one after the other until the body, which may move the cursor,
tells it to stop. -/
def walk (body : α → Cursor α → Bool × Cursor α) : Nat → Cursor α → Bool × Cursor α
  | 0, cursor => (false, cursor)
  | fuel + 1, cursor =>
      match cursor.next with
      | (none, cursor) => (false, cursor)
      | (some record, cursor) =>
          let (stop, cursor) := body record cursor
          if stop then (true, cursor) else walk body fuel cursor

/-- What is left when each record that is read is deleted together with so many behind it that
the number of deletions is the given one; `skip` records are still to go. -/
def thin (deletions : α → Nat) : Nat → List α → List α
  | _, [] => []
  | skip + 1, _ :: later => thin deletions skip later
  | 0, record :: later =>
      match deletions record with
      | 0 => record :: thin deletions 0 later
      | more + 1 => thin deletions more later

/-- The deletions hit no record for which there is none: each that goes together with another
is to be deleted itself. -/
def Spares (deletions : α → Nat) : Nat → List α → Prop
  | _, [] => True
  | skip + 1, record :: later => deletions record ≠ 0 ∧ Spares deletions skip later
  | 0, record :: later => Spares deletions (deletions record - 1) later

variable {deletions : α → Nat} {body : α → Cursor α → Bool × Cursor α}

theorem thin_drop (skip : Nat) (records : List α) :
    thin deletions 0 (records.drop skip) = thin deletions skip records := by
  induction skip generalizing records with
  | zero => rfl
  | succ skip ih =>
      cases records with
      | nil => rfl
      | cons record later => exact ih later

/-- A walk that never stops and only deletes leaves what the deletions leave. -/
theorem walk_records
    (hbody : ∀ record cursor, body record cursor = (false, Cursor.delete^[deletions record] cursor))
    (fuel : Nat) (cursor : Cursor α) (hfuel : cursor.ahead.length < fuel) :
    (walk body fuel cursor).2.records = cursor.behind ++ thin deletions 0 cursor.ahead := by
  induction fuel generalizing cursor with
  | zero => exact absurd hfuel (Nat.not_lt_zero _)
  | succ fuel ih =>
      cases hahead : cursor.ahead with
      | nil =>
          rw [walk, Cursor.next_of_ahead_nil hahead, ← cursor.behind_append_ahead, hahead, thin]
      | cons record later =>
          rw [hahead, List.length_cons, Nat.succ_lt_succ_iff] at hfuel
          simp only [walk, Cursor.next_of_ahead_cons hahead, hbody, Bool.false_eq_true, if_false]
          cases hdeletions : deletions record with
          | zero =>
              have hrest := ih ⟨cursor.behind, record :: later, true⟩ hfuel
              rw [Function.iterate_zero, id, hrest, thin, hdeletions]
              exact List.append_assoc cursor.behind [record] _
          | succ more =>
              rw [Cursor.delete_iterate_succ]
              have hshort : (later.drop more).length < fuel := by
                rw [List.length_drop]
                exact Nat.lt_of_le_of_lt (Nat.sub_le _ _) hfuel
              have hrest := ih ⟨cursor.behind, later.drop more, false⟩ hshort
              rw [hrest, thin, hdeletions]
              exact congrArg (cursor.behind ++ ·) (thin_drop more later)

theorem thin_sublist (deletions : α → Nat) (skip : Nat) (records : List α) :
    (thin deletions skip records).Sublist
      (records.filter fun record => decide (deletions record = 0)) := by
  induction records generalizing skip with
  | nil =>
      cases skip with
      | zero => exact .slnil
      | succ skip => exact .slnil
  | cons record later ih =>
      cases skip with
      | succ skip => exact (ih skip).trans ((List.sublist_cons_self record later).filter _)
      | zero =>
          cases hdeletions : deletions record with
          | zero =>
              rw [thin, hdeletions, List.filter_cons_of_pos (by simp [hdeletions])]
              exact (ih 0).cons_cons record
          | succ more =>
              rw [thin, hdeletions, List.filter_cons_of_neg (by simp [hdeletions])]
              exact ih more

/-- Just the records to be deleted are gone exactly when the deletions spare the others. -/
theorem thin_eq_filter_iff (skip : Nat) (records : List α) :
    thin deletions skip records =
        records.filter (fun record => decide (deletions record = 0)) ↔
      Spares deletions skip records := by
  induction records generalizing skip with
  | nil =>
      cases skip with
      | zero => simp [thin, Spares]
      | succ skip => simp [thin, Spares]
  | cons record later ih =>
      cases skip with
      | succ skip =>
          rw [thin, Spares]
          by_cases hzero : deletions record = 0
          · rw [List.filter_cons_of_pos (by simp [hzero])]
            constructor
            · intro hsame
              have hlength := (thin_sublist deletions skip later).length_le
              rw [hsame, List.length_cons] at hlength
              omega
            · rintro ⟨hne, -⟩
              exact absurd hzero hne
          · rw [List.filter_cons_of_neg (by simp [hzero]), ih]
            exact (and_iff_right hzero).symm
      | zero =>
          cases hdeletions : deletions record with
          | zero =>
              rw [thin, Spares, hdeletions, List.filter_cons_of_pos (by simp [hdeletions]),
                List.cons_inj_right, ih]
          | succ more =>
              rw [thin, Spares, hdeletions, List.filter_cons_of_neg (by simp [hdeletions]), ih]
              rfl

end RecordCursor
