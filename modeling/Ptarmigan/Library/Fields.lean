/-
A buffer made of consecutive fields: what stands where a field starts, and a field that is written
over in place.
-/
import Mathlib.Algebra.Ring.Nat
import Mathlib.Data.List.Basic

namespace Fields

variable {α : Type} {fields : List (List α)} {index : Nat} {field : List α}

/-- The field is written over what stands at the position and behind it. -/
def writeAt (data : List α) (pos : Nat) (field : List α) : List α :=
  data.take pos ++ field ++ data.drop (pos + field.length)

/-- Where a field starts. -/
def start (fields : List (List α)) (index : Nat) : Nat :=
  (fields.take index).flatten.length

/-- A field starts behind the lengths of the fields before it. -/
theorem start_eq_sum (fields : List (List α)) (index : Nat) :
    start fields index = ((fields.map List.length).take index).sum := by
  rw [start, List.length_flatten, List.map_take]

theorem flatten_split (fields : List (List α)) (index : Nat) :
    fields.flatten = (fields.take index).flatten ++ (fields.drop index).flatten := by
  rw [← List.flatten_append, List.take_append_drop]

theorem take_start : fields.flatten.take (start fields index) = (fields.take index).flatten := by
  rw [flatten_split fields index, start, List.take_left]

theorem drop_start : fields.flatten.drop (start fields index) = (fields.drop index).flatten := by
  rw [flatten_split fields index, start, List.drop_left]

/-- What stands where a field starts is the field. -/
theorem take_field (hfield : fields[index]? = some field) :
    (fields.flatten.drop (start fields index)).take field.length = field := by
  obtain ⟨hindex, rfl⟩ := List.getElem?_eq_some_iff.mp hfield
  rw [drop_start, List.drop_eq_getElem_cons hindex, List.flatten_cons, List.take_left]

/-- A field of the same length takes the place of a field, and all the others stay. -/
theorem writeAt_start {written : List α} (hfield : fields[index]? = some field)
    (hlength : written.length = field.length) :
    writeAt fields.flatten (start fields index) written = (fields.set index written).flatten := by
  obtain ⟨hindex, rfl⟩ := List.getElem?_eq_some_iff.mp hfield
  have hbehind : fields.flatten.drop (start fields index + written.length) =
      (fields.drop (index + 1)).flatten := by
    rw [← List.drop_drop, drop_start, List.drop_eq_getElem_cons hindex, List.flatten_cons, hlength,
      List.drop_left]
  rw [writeAt, take_start, hbehind, List.set_eq_take_append_cons_drop, if_pos hindex]
  simp only [List.flatten_append, List.flatten_cons, List.append_assoc]

end Fields
