import Pelagos.Library.Text

/-!
# Field splitting of a shell

What a shell makes of an unquoted expansion: fields between blanks, or between separators, each of
which may then stand for the names that it matches as a pattern.
-/

namespace ShellFields

open Text

/-- The characters of the default `IFS`. -/
def isBlank (char : Char) : Bool := char == ' ' || char == '\t' || char == '\n'

/-- The fields under the default `IFS`. -/
def words (text : String) : List String :=
  ((text.toList.splitOnP isBlank).filter (· ≠ [])).map String.ofList

/-- The fields when `IFS` is one visible character, which ends a field. -/
def fieldsAt (separator : Char) (text : String) : List String :=
  let pieces := text.toList.splitOn separator
  (if pieces.getLast? = some [] then pieces.dropLast else pieces).map String.ofList

/-- The field is no pattern. -/
def IsLiteral (field : String) : Prop := ∀ char ∈ field.toList, char ∉ ['*', '?', '[']

/-- Pathname expansion leaves everything alone that is no pattern. -/
def KeepsLiterals (expand : String → List String) : Prop :=
  ∀ field, IsLiteral field → expand field = [field]

/-- The first piece of a split text begins it, and the others are in it. -/
theorem exists_splitOnP_cons {α : Type} (splits : α → Bool) (items : List α) :
    ∃ first pieces, items.splitOnP splits = first :: pieces ∧ first <+: items ∧
      ∀ piece ∈ pieces, piece <:+: items := by
  induction items with
  | nil => exact ⟨[], [], rfl, List.prefix_refl [], by simp⟩
  | cons item items ih =>
      obtain ⟨first, pieces, split, begins, inside⟩ := ih
      rw [List.splitOnP_cons_eq_if_modifyHead, split]
      have further (piece : List α) (member : piece ∈ pieces) : piece <:+: item :: items :=
        (inside piece member).trans (List.suffix_cons item items).isInfix
      split_ifs
      · refine ⟨[], first :: pieces, rfl, List.nil_prefix, fun piece member => ?_⟩
        rcases List.mem_cons.mp member with rfl | later
        · exact begins.isInfix.trans (List.suffix_cons item items).isInfix
        · exact further piece later
      · exact ⟨item :: first, pieces, rfl, List.prefix_cons_inj item |>.mpr begins, further⟩

theorem infix_of_mem_splitOnP {α : Type} {splits : α → Bool} {items piece : List α}
    (member : piece ∈ items.splitOnP splits) : piece <:+: items := by
  obtain ⟨first, pieces, split, begins, inside⟩ := exists_splitOnP_cons splits items
  rw [split] at member
  rcases List.mem_cons.mp member with rfl | later
  · exact begins.isInfix
  · exact inside piece later

theorem words_append_blank {blank : Char} (is_blank : isBlank blank = true)
    (left right : String) :
    words (left ++ String.singleton blank ++ right) = words left ++ words right := by
  simp [words, List.splitOnP_append_cons _ _ is_blank]

theorem words_of_visible {text : String} (visible : ∀ char ∈ text.toList, isBlank char = false)
    (nonempty : text ≠ "") : words text = [text] := by
  have chars_nonempty : text.toList ≠ [] := mt String.toList_eq_nil_iff.mp nonempty
  simp [words, List.splitOnP_eq_singleton visible, chars_nonempty]

/-- Nonempty fields without the separator are read back. -/
theorem fieldsAt_intercalate {separator : Char} {fields : List String} (some_field : fields ≠ [])
    (nonempty : ∀ field ∈ fields, field ≠ "")
    (free : ∀ field ∈ fields, separator ∉ field.toList) :
    fieldsAt separator ((String.singleton separator).intercalate fields) = fields := by
  have pieces : ((String.singleton separator).intercalate fields).toList.splitOn separator =
      fields.map String.toList := by
    have some_piece : fields.map String.toList ≠ [] := mt List.map_eq_nil_iff.mp some_field
    rw [String.toList_intercalate, String.toList_singleton]
    refine List.splitOn_intercalate separator ?_ some_piece
    intro piece member
    obtain ⟨field, field_mem, rfl⟩ := List.mem_map.mp member
    exact free field field_mem
  have last_nonempty : (fields.map String.toList).getLast? ≠ some [] := by
    intro last
    obtain ⟨field, field_mem, empty⟩ := List.mem_map.mp (List.mem_of_getLast? last)
    exact nonempty field field_mem (String.toList_eq_nil_iff.mp empty)
  rw [fieldsAt, pieces, if_neg last_nonempty, List.map_map]
  simp

end ShellFields
