import Pelagos.Library.Text

/-!
# Patterns in texts

The first occurrence of a pattern, the replacement of every occurrence from the left, and the
length of a text in bytes.
-/

namespace Text

/-- The text before and behind the first occurrence of a pattern. -/
def splitAt? (pattern : List Char) : List Char → Option (List Char × List Char)
  | [] => if pattern = [] then some ([], []) else none
  | char :: text =>
      if pattern.isPrefixOf (char :: text) then some ([], (char :: text).drop pattern.length)
      else (splitAt? pattern text).map fun (before, behind) => (char :: before, behind)

/-- Replace the occurrences of a pattern from the left; the first `skip` characters belong to an
occurrence that has been replaced. -/
def replaceChars (pattern replacement : List Char) : Nat → List Char → List Char
  | _, [] => []
  | skip + 1, _ :: text => replaceChars pattern replacement skip text
  | 0, char :: text =>
      if pattern.isPrefixOf (char :: text) then
        replacement ++ replaceChars pattern replacement (pattern.length - 1) text
      else char :: replaceChars pattern replacement 0 text

/-- `str::replace` for a pattern that is not empty. -/
def replace (text pattern replacement : String) : String :=
  String.ofList (replaceChars pattern.toList replacement.toList 0 text.toList)

theorem replaceChars_skip (pattern replacement front text : List Char) :
    replaceChars pattern replacement front.length (front ++ text) =
      replaceChars pattern replacement 0 text := by
  induction front with
  | nil => rfl
  | cons char front ih => exact ih

/-- An occurrence at the beginning is replaced. -/
theorem replaceChars_here {pattern : List Char} (nonempty : pattern ≠ [])
    (replacement text : List Char) :
    replaceChars pattern replacement 0 (pattern ++ text) =
      replacement ++ replaceChars pattern replacement 0 text := by
  cases pattern with
  | nil => exact absurd rfl nonempty
  | cons first pattern =>
      have here : (first :: pattern).isPrefixOf (first :: (pattern ++ text)) = true :=
        List.isPrefixOf_iff_prefix.mpr ⟨text, rfl⟩
      rw [List.cons_append, replaceChars, if_pos here, List.length_cons, Nat.add_sub_cancel,
        replaceChars_skip]

/-- A part of the text in which the pattern begins nowhere is kept. -/
theorem replaceChars_pass {pattern replacement front text : List Char}
    (nowhere : ∀ before behind, front = before ++ behind → behind ≠ [] →
      ¬pattern <+: behind ++ text) :
    replaceChars pattern replacement 0 (front ++ text) =
      front ++ replaceChars pattern replacement 0 text := by
  induction front with
  | nil => rfl
  | cons char front ih =>
      have here : ¬pattern <+: char :: (front ++ text) :=
        nowhere [] (char :: front) rfl (by simp)
      have later : ∀ before behind, front = before ++ behind → behind ≠ [] →
          ¬pattern <+: behind ++ text := by
        intro before behind front_eq
        exact nowhere (char :: before) behind (by rw [front_eq, List.cons_append])
      rw [List.cons_append, replaceChars, if_neg (mt List.isPrefixOf_iff_prefix.mp here),
        ih later, List.cons_append]

/-- An occurrence of a pattern without the separator ends before it. -/
theorem prefix_append_separator {pattern left right : List Char} {separator : Char}
    (free : separator ∉ pattern) :
    pattern <+: left ++ separator :: right ↔ pattern <+: left := by
  constructor
  · intro fits
    rcases List.prefix_or_prefix_of_prefix fits (List.prefix_append left _) with
      inside | ⟨rest, rfl⟩
    · exact inside
    · cases rest with
      | nil => exact (List.append_nil left).symm ▸ List.prefix_rfl
      | cons first rest =>
          rw [List.prefix_append_right_inj, List.cons_prefix_cons] at fits
          exact absurd (fits.1 ▸ by simp) free
  · exact fun inside => inside.trans (List.prefix_append left _)

/-- A pattern without the separator is replaced on both sides of it apart. -/
theorem replaceChars_append_separator {pattern replacement right : List Char} {separator : Char}
    (nonempty : pattern ≠ []) (free : separator ∉ pattern) {left : List Char} :
    ∀ {skip : Nat}, skip ≤ left.length →
      replaceChars pattern replacement skip (left ++ separator :: right) =
        replaceChars pattern replacement skip left ++
          separator :: replaceChars pattern replacement 0 right := by
  induction left with
  | nil =>
      intro skip within
      obtain rfl := Nat.le_zero.mp within
      have elsewhere : ¬pattern <+: separator :: right := by
        intro fits
        have inside : pattern <+: [] := (prefix_append_separator free).mp fits
        exact nonempty (List.prefix_nil.mp inside)
      have kept : replaceChars pattern replacement 0 (separator :: right) =
          separator :: replaceChars pattern replacement 0 right := by
        rw [replaceChars, if_neg (mt List.isPrefixOf_iff_prefix.mp elsewhere)]
      exact kept
  | cons char left ih =>
      intro skip within
      cases skip with
      | succ skip => exact ih (Nat.le_of_succ_le_succ within)
      | zero =>
          have same : pattern <+: char :: (left ++ separator :: right) ↔ pattern <+: char :: left :=
            @prefix_append_separator _ (char :: left) _ _ free
          rw [List.cons_append, replaceChars, replaceChars]
          simp only [List.isPrefixOf_iff_prefix, same]
          split
          · rename_i fits
            have shorter : pattern.length - 1 ≤ left.length := by
              have length_le := fits.length_le
              rw [List.length_cons] at length_le
              omega
            rw [ih shorter, List.append_assoc]
          · rw [ih (Nat.zero_le _), List.cons_append]

/-- The number of bytes of a text. -/
def byteLength : List Char → Nat
  | [] => 0
  | char :: chars => char.utf8Size + byteLength chars

@[simp]
theorem byteLength_nil : byteLength [] = 0 := rfl

@[simp]
theorem byteLength_cons (char : Char) (chars : List Char) :
    byteLength (char :: chars) = char.utf8Size + byteLength chars := rfl

theorem byteLength_eq_zero_iff {chars : List Char} : byteLength chars = 0 ↔ chars = [] := by
  cases chars with
  | nil => simp
  | cons char chars =>
      have positive := char.utf8Size_pos
      simp
      omega

@[simp]
theorem byteLength_append (left right : List Char) :
    byteLength (left ++ right) = byteLength left + byteLength right := by
  induction left with
  | nil => simp
  | cons char left ih => simp [ih, Nat.add_assoc]

theorem utf8ByteSize_ofList (chars : List Char) :
    (String.ofList chars).utf8ByteSize = byteLength chars := by
  induction chars with
  | nil => rfl
  | cons char chars ih =>
      rw [String.ofList_cons, String.utf8ByteSize_append, String.utf8ByteSize_singleton, ih,
        byteLength_cons]

end Text
