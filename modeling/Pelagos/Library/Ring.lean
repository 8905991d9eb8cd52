import Mathlib.Data.List.DropRight
import Mathlib.Data.List.Rotate

/-!
# Ring buffers

The contents of a ring buffer begin at its head and go on behind its end at its beginning.  A buffer
that overwrites its oldest item when it is full holds the most recent items.
-/

namespace Ring

variable {α : Type*}

/-- The items of a ring from the oldest on. -/
def contents (buf : List α) (head len : Nat) : List α := (buf.rotate head).take len

theorem length_contents {buf : List α} {len : Nat} (fits : len ≤ buf.length) (head : Nat) :
    (contents buf head len).length = len := by
  rw [contents, List.length_take, List.length_rotate, Nat.min_eq_left fits]

theorem getElem?_contents {buf : List α} {head len index : Nat} (small : index < len)
    (fits : len ≤ buf.length) :
    (contents buf head len)[index]? = buf[(head + index) % buf.length]? := by
  rw [contents, List.getElem?_take_of_lt small, List.getElem?_rotate (by omega), Nat.add_comm]

/-- A ring that does not wrap is one slice. -/
theorem contents_contiguous {buf : List α} {head len : Nat} (fits : head + len ≤ buf.length) :
    contents buf head len = (buf.drop head).take len := by
  rw [contents, List.rotate_eq_drop_append_take (by omega), List.take_append_of_le_length]
  rw [List.length_drop]
  omega

/-- A ring that wraps is two slices. -/
theorem contents_wrapped {buf : List α} {head len : Nat} (inside : head ≤ buf.length)
    (wraps : buf.length ≤ head + len) (fits : len ≤ buf.length) :
    contents buf head len = buf.drop head ++ buf.take (len - (buf.length - head)) := by
  rw [contents, List.rotate_eq_drop_append_take inside, List.take_append, List.length_drop,
    List.take_of_length_le (by rw [List.length_drop]; omega), List.take_take,
    Nat.min_eq_left (by omega)]

/-- Two places of a ring are different when they are less than a turn apart. -/
theorem place_ne {size head first second : Nat} (ordered : first < second)
    (near : second < first + size) : (head + first) % size ≠ (head + second) % size := by
  intro same
  have difference : head + second - (head + first) = second - first := by omega
  have whole_turns : (head + second - (head + first)) % size = 0 :=
    Nat.sub_mod_eq_zero_of_mod_eq same.symm
  rw [difference, Nat.mod_eq_of_lt (by omega)] at whole_turns
  omega

/-- An item behind the contents is added at their end. -/
theorem contents_push {buf : List α} {head len : Nat} (room : len < buf.length) (item : α) :
    contents (buf.set ((head + len) % buf.length) item) head (len + 1) =
      contents buf head len ++ [item] := by
  refine List.ext_getElem? fun index => ?_
  rcases Nat.lt_trichotomy index len with before | rfl | behind
  · rw [getElem?_contents (by omega) (by rwa [List.length_set]),
      List.getElem?_append_left (by rwa [length_contents room.le]),
      getElem?_contents before room.le, List.length_set,
      List.getElem?_set_ne (place_ne before (by omega)).symm]
  · rw [getElem?_contents (by omega) (by rwa [List.length_set]), List.length_set,
      List.getElem?_set_self (Nat.mod_lt _ (by omega)),
      List.getElem?_append_right (by rw [length_contents room.le]), length_contents room.le]
    simp
  · rw [List.getElem?_eq_none (by rw [length_contents (by rwa [List.length_set])]; omega),
      List.getElem?_eq_none (by rw [List.length_append, length_contents room.le]; simp; omega)]

/-- A full ring loses its oldest item. -/
theorem contents_overwrite {buf : List α} {head : Nat} (nonempty : 0 < buf.length)
    (inside : head < buf.length) (item : α) :
    contents (buf.set head item) ((head + 1) % buf.length) buf.length =
      (contents buf head buf.length).drop 1 ++ [item] := by
  have full : (contents buf head buf.length).length = buf.length := length_contents le_rfl head
  refine List.ext_getElem? fun index => ?_
  rcases Nat.lt_trichotomy (index + 1) buf.length with before | last | behind
  · have place : ((head + 1) % buf.length + index) % buf.length =
        (head + (index + 1)) % buf.length := by
      rw [Nat.mod_add_mod, Nat.add_assoc, Nat.add_comm 1]
    have other : head ≠ (head + (index + 1)) % buf.length := by
      have apart : (head + 0) % buf.length ≠ (head + (index + 1)) % buf.length :=
        place_ne (by omega) (by omega)
      rwa [Nat.add_zero, Nat.mod_eq_of_lt inside] at apart
    rw [getElem?_contents (by omega) (by simp), List.length_set, place,
      List.getElem?_set_ne other, List.getElem?_append_left (by rw [List.length_drop]; omega),
      List.getElem?_drop, getElem?_contents (by omega) le_rfl, Nat.add_comm 1 index]
  · have place : ((head + 1) % buf.length + index) % buf.length = head := by
      rw [Nat.mod_add_mod, Nat.add_assoc, Nat.add_comm 1, last, Nat.add_mod_right,
        Nat.mod_eq_of_lt inside]
    rw [getElem?_contents (by omega) (by simp), List.length_set, place,
      List.getElem?_set_self inside, List.getElem?_append_right (by rw [List.length_drop]; omega),
      List.length_drop, full]
    simp [← last]
  · rw [List.getElem?_eq_none (by rw [length_contents (by simp)]; omega),
      List.getElem?_eq_none (by simp [full]; omega)]

/-! ## The most recent items -/

theorem rtake_of_length_le {count : Nat} {items : List α} (few : items.length ≤ count) :
    items.rtake count = items := by
  rw [List.rtake, Nat.sub_eq_zero_of_le few, List.drop_zero]

theorem rtake_append_of_le {count : Nat} {later : List α} (many : count ≤ later.length)
    (items : List α) : (items ++ later).rtake count = later.rtake count := by
  rw [List.rtake, List.rtake, List.length_append, Nat.add_sub_assoc many,
    List.drop_length_add_append]

theorem length_rtake {count : Nat} {items : List α} (many : count ≤ items.length) :
    (items.rtake count).length = count := by
  rw [List.rtake, List.length_drop]
  omega

theorem rtake_append_rtake (count : Nat) (front items : List α) :
    (front ++ items.rtake count).rtake count = (front ++ items).rtake count := by
  rcases Nat.le_total items.length count with few | many
  · rw [rtake_of_length_le few]
  · rw [rtake_append_of_le (length_rtake many).ge, rtake_append_of_le many,
      rtake_of_length_le (length_rtake many).le]

/-- What is dropped from the front first is not missed later. -/
theorem rtake_rtake_append (count : Nat) (items later : List α) :
    (items.rtake count ++ later).rtake count = (items ++ later).rtake count := by
  rcases Nat.le_total items.length count with few | many
  · rw [rtake_of_length_le few]
  · have split : items = items.take (items.length - count) ++ items.rtake count :=
      (List.take_append_drop _ items).symm
    have enough : count ≤ (items.rtake count ++ later).length := by
      rw [List.length_append, length_rtake many]
      omega
    conv_rhs => rw [split, List.append_assoc]
    exact (rtake_append_of_le enough _).symm

theorem rtake_append_singleton {count : Nat} {items : List α} (full : items.length = count)
    (positive : 0 < count) (item : α) :
    (items ++ [item]).rtake count = items.drop 1 ++ [item] := by
  rw [List.rtake, List.length_append, full, List.length_singleton, Nat.add_sub_cancel_left,
    List.drop_append_of_le_length (by omega)]

theorem rtake_map {β : Type*} (f : α → β) (count : Nat) (items : List α) :
    (items.map f).rtake count = (items.rtake count).map f := by
  rw [List.rtake, List.rtake, List.length_map, List.map_drop]

/-- A filter that keeps the most recent items. -/
theorem rtake_filter {keep : α → Bool} {count : Nat} {items : List α}
    (recent : ∀ item ∈ items.rtake count, keep item) :
    (items.filter keep).rtake count = items.rtake count := by
  have split : items = items.take (items.length - count) ++ items.rtake count :=
    (List.take_append_drop _ items).symm
  have kept : items.filter keep =
      (items.take (items.length - count)).filter keep ++ items.rtake count := by
    conv_lhs => rw [split, List.filter_append, List.filter_eq_self.mpr recent]
  rcases Nat.le_total items.length count with few | many
  · rw [kept, Nat.sub_eq_zero_of_le few]
    simp [rtake_of_length_le few]
  · rw [kept, rtake_append_of_le (length_rtake many).ge, rtake_of_length_le (length_rtake many).le]

/-- Items that are read one by one by their indices. -/
theorem mapM_range {items : List α} {read : Nat → Option α}
    (each : ∀ index < items.length, read index = items[index]?) :
    (List.range items.length).mapM read = some items := by
  induction items using List.reverseRecOn with
  | nil => rfl
  | append_singleton items item ih =>
      have front : (List.range items.length).mapM read = some items := by
        refine ih fun index small => ?_
        have same := each index (by rw [List.length_append]; omega)
        rwa [List.getElem?_append_left small] at same
      have last : read items.length = some item := by
        have same := each items.length (by simp)
        rwa [List.getElem?_concat_length] at same
      rw [List.length_append, List.length_singleton, List.range_succ, List.mapM_append, front]
      simp [last]

end Ring
