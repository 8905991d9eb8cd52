import Mathlib.Data.List.TakeDrop
import Mathlib.Data.Vector.Defs

/-!
# Checked slices

A slice of a list is defined only inside the list, and an array of a fixed size is made only of a
slice of that size.  An array whose fields are copied in from left to right is the fields one after
the other, with zeros in the gaps.
-/

namespace Slices

variable {α : Type*}

/-- The items from the index `start` on and before the index `stop`. -/
def slice (items : List α) (start stop : Nat) : Option (List α) :=
  if start ≤ stop ∧ stop ≤ items.length then some ((items.drop start).take (stop - start)) else none

/-- The items from the index `start` on. -/
def sliceFrom (items : List α) (start : Nat) : Option (List α) := slice items start items.length

/-- An array of the items, if there are as many as it has room for. -/
def tryInto (size : Nat) (items : List α) : Option (List.Vector α size) :=
  if sized : items.length = size then some ⟨items, sized⟩ else none

theorem slice_of_le {items : List α} {start stop : Nat} (ordered : start ≤ stop)
    (inside : stop ≤ items.length) :
    slice items start stop = some ((items.drop start).take (stop - start)) :=
  if_pos ⟨ordered, inside⟩

theorem sliceFrom_of_le {items : List α} {start : Nat} (inside : start ≤ items.length) :
    sliceFrom items start = some (items.drop start) := by
  have whole : (items.drop start).length ≤ items.length - start := Nat.le_of_eq List.length_drop
  rw [sliceFrom, slice_of_le inside (Nat.le_refl _), List.take_of_length_le whole]

/-- A slice of the right size makes an array. -/
theorem tryInto_slice {items : List α} {start stop size : Nat} (ordered : start + size = stop)
    (inside : stop ≤ items.length) :
    ∃ array : List.Vector α size, slice items start stop = some array.val ∧
      array.val = (items.drop start).take size ∧ tryInto size array.val = some array := by
  have sized : ((items.drop start).take size).length = size := by
    rw [List.length_take, List.length_drop]
    omega
  refine ⟨⟨_, sized⟩, ?_, rfl, dif_pos sized⟩
  rw [slice_of_le (by omega) inside, ← ordered, Nat.add_sub_cancel_left]

/-! ## Arrays filled field by field -/

/-- What is copied into an array, with the first index of its place and the index behind it. -/
structure Field (α : Type*) where
  start : Nat
  stop : Nat
  source : List α

/-- A copy is defined only inside the array and for a place of the length of its source. -/
def copyFromSlice (items : List α) (field : Field α) : Option (List α) :=
  if field.start ≤ field.stop ∧ field.stop ≤ items.length ∧
      field.source.length = field.stop - field.start then
    some (items.take field.start ++ field.source ++ items.drop field.stop)
  else none

/-- An array of zeros into which the fields are copied in turn. -/
def fillArray (zero : α) (size : Nat) (fields : List (Field α)) : Option (List α) :=
  fields.foldlM copyFromSlice (List.replicate size zero)

/-- The fields stand in order between the offset and the size. -/
def Ordered (size : Nat) : Nat → List (Field α) → Prop
  | offset, [] => offset ≤ size
  | offset, field :: fields => offset ≤ field.start ∧
      field.start + field.source.length = field.stop ∧ Ordered size field.stop fields

/-- The fields from an offset on, with zeros before, between and after them. -/
def laidOut (zero : α) (size : Nat) : Nat → List (Field α) → List α
  | offset, [] => List.replicate (size - offset) zero
  | offset, field :: fields => List.replicate (field.start - offset) zero ++
      (field.source ++ laidOut zero size field.stop fields)

theorem Ordered.le {size offset : Nat} {fields : List (Field α)}
    (ordered : Ordered size offset fields) : offset ≤ size := by
  induction fields generalizing offset with
  | nil => exact ordered
  | cons field fields ih =>
      obtain ⟨before, sized, after⟩ := ordered
      have stop_le := ih after
      omega

/-- One field is copied behind those that are there. -/
theorem copyFromSlice_zeros {size : Nat} {zero : α} {written : List α} {field : Field α}
    (before : written.length ≤ field.start)
    (sized : field.start + field.source.length = field.stop) (inside : field.stop ≤ size) :
    copyFromSlice (written ++ List.replicate (size - written.length) zero) field =
      some (written ++ List.replicate (field.start - written.length) zero ++ field.source ++
        List.replicate (size - field.stop) zero) := by
  have fits : field.start ≤ field.stop ∧
      field.stop ≤ (written ++ List.replicate (size - written.length) zero).length ∧
      field.source.length = field.stop - field.start := by
    rw [List.length_append, List.length_replicate]
    omega
  have gap : min (field.start - written.length) (size - written.length) =
      field.start - written.length := by omega
  have left : size - written.length - (field.stop - written.length) = size - field.stop := by omega
  rw [copyFromSlice, if_pos fits, List.take_append, List.take_of_length_le before,
    List.take_replicate, gap, List.drop_append, List.drop_of_length_le (by omega),
    List.nil_append, List.drop_replicate, left]

theorem foldlM_copyFromSlice {size : Nat} {zero : α} {fields : List (Field α)} {written : List α}
    (ordered : Ordered size written.length fields) :
    fields.foldlM copyFromSlice (written ++ List.replicate (size - written.length) zero) =
      some (written ++ laidOut zero size written.length fields) := by
  induction fields generalizing written with
  | nil => rfl
  | cons field fields ih =>
      obtain ⟨before, sized, after⟩ := ordered
      have reached : (written ++ List.replicate (field.start - written.length) zero ++
          field.source).length = field.stop := by
        simp only [List.length_append, List.length_replicate]
        omega
      rw [← reached] at after
      have copied := ih after
      rw [reached] at copied
      rw [List.foldlM_cons, copyFromSlice_zeros before sized (reached ▸ after.le),
        Option.bind_eq_bind, Option.bind_some, copied, laidOut, List.append_assoc,
        List.append_assoc]

/-- Fields in order are laid out one after the other. -/
theorem fillArray_eq {size : Nat} {zero : α} {fields : List (Field α)}
    (ordered : Ordered size 0 fields) :
    fillArray zero size fields = some (laidOut zero size 0 fields) :=
  @foldlM_copyFromSlice α size zero fields [] ordered

end Slices
