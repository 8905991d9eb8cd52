import Pelagos.Library.Lines
import Pelagos.Library.Utf8

/-!
# Texts that are read line by line

A reader takes the line ending off every line of a text, and a writer ends every line with a
newline.  The text is reproduced exactly when its last line is terminated and no line ends with a
carriage return and a newline.
-/

namespace LineText

open Lines

/-- Take the newline off, and a carriage return before it: one item of `BufRead::lines`. -/
def chomp (line : List Char) : List Char :=
  if line.getLast? = some '\n' then
    if line.dropLast.getLast? = some '\r' then line.dropLast.dropLast else line.dropLast
  else line

/-- A line as it is written again. -/
def terminated (line : List Char) : List Char := chomp line ++ ['\n']

/-- The text as it is written again, line by line. -/
def rewritten (text : List Char) : List Char := (linesOf '\n' text).flatMap terminated

/-- Every line is terminated, and by a newline only. -/
def Unchanged (text : List Char) : Prop :=
  (text = [] ∨ text.getLast? = some '\n') ∧ ¬ ['\r', '\n'] <:+: text

theorem chomp_of_free {line : List Char} (free : '\n' ∉ line) : chomp line = line :=
  if_neg fun ends => free (List.mem_of_getLast? ends)

theorem chomp_newline (body : List Char) :
    chomp (body ++ ['\n']) = if body.getLast? = some '\r' then body.dropLast else body := by
  simp [chomp]

theorem chomp_line_free {line : List Char} (is_line : IsLine '\n' line) : '\n' ∉ chomp line := by
  obtain ⟨body, rfl, free⟩ := is_line
  rw [chomp_newline]
  split
  · exact fun member => free (List.mem_of_mem_dropLast member)
  · exact free

/-- A line has no carriage return and newline, or it ends with them. -/
theorem crlf_infix_line_iff {body : List Char} (free : '\n' ∉ body) :
    ['\r', '\n'] <:+: body ++ ['\n'] ↔ body.getLast? = some '\r' := by
  constructor
  · rintro ⟨front, back, same⟩
    rcases List.eq_nil_or_concat' back with rfl | ⟨middle, last, rfl⟩
    · rw [List.append_nil, show front ++ ['\r', '\n'] = (front ++ ['\r']) ++ ['\n'] by simp] at same
      obtain ⟨rfl, -⟩ := List.append_inj' same rfl
      simp
    · rw [← List.append_assoc] at same
      obtain ⟨rfl, -⟩ := List.append_inj' same rfl
      simp at free
  · intro ends
    obtain ⟨front, rfl⟩ := List.getLast?_eq_some_iff.mp ends
    exact ⟨front, [], by simp⟩

theorem isLine_terminated {line : List Char} (is_line : IsLine '\n' line) :
    IsLine '\n' (terminated line) := ⟨chomp line, rfl, chomp_line_free is_line⟩

/-- A line is reproduced when it ends with a newline only. -/
theorem terminated_eq_iff {line : List Char} (is_line : IsLine '\n' line) :
    terminated line = line ↔ ¬ ['\r', '\n'] <:+: line := by
  obtain ⟨body, rfl, free⟩ := is_line
  rw [crlf_infix_line_iff free, terminated, chomp_newline]
  by_cases carriage : body.getLast? = some '\r'
  · obtain ⟨front, rfl⟩ := List.getLast?_eq_some_iff.mp carriage
    simp
  · simp [carriage]

theorem rewritten_append {line : List Char} (is_line : IsLine '\n' line) (rest : List Char) :
    rewritten (line ++ rest) = terminated line ++ rewritten rest := by
  rw [rewritten, linesOf_append is_line, List.flatMap_cons, rewritten]

/-- No carriage return and newline straddle the end of a line. -/
theorem crlf_infix_append_iff {line : List Char} (is_line : IsLine '\n' line) (rest : List Char) :
    ['\r', '\n'] <:+: line ++ rest ↔ ['\r', '\n'] <:+: line ∨ ['\r', '\n'] <:+: rest := by
  constructor
  · rintro ⟨front, back, same⟩
    obtain ⟨body, rfl, -⟩ := is_line
    rcases List.append_eq_append_iff.mp same with ⟨after, line_eq, -⟩ | ⟨middle, straddles, rest_eq⟩
    · exact Or.inl ⟨front, after, line_eq.symm⟩
    · rcases List.eq_nil_or_concat' middle with rfl | ⟨middle, last, rfl⟩
      · exact Or.inl ⟨front, [], by simpa using straddles⟩
      · have ends : (front ++ ['\r']) ++ ['\n'] = (body ++ ['\n'] ++ middle) ++ [last] := by
          simpa using straddles
        obtain ⟨before_eq, last_eq⟩ := List.append_inj' ends rfl
        obtain rfl := List.singleton_inj.mp last_eq
        rcases List.eq_nil_or_concat' middle with rfl | ⟨start, carriage, rfl⟩
        · rw [List.append_nil] at before_eq
          exact absurd (List.append_inj' before_eq rfl).2 (by decide)
        · rw [← List.append_assoc] at before_eq
          obtain rfl := List.singleton_inj.mp (List.append_inj' before_eq rfl).2
          exact Or.inr ⟨start, back, by simp [rest_eq]⟩
  · rintro (early | late)
    · exact early.trans (List.prefix_append line rest).isInfix
    · exact late.trans (List.suffix_append line rest).isInfix

/-- The text that is written is the one that was read, if and only if every line is terminated, and
by a newline only. -/
theorem rewritten_eq_iff (text : List Char) : rewritten text = text ↔ Unchanged text := by
  induction text using lines_induction '\n' with
  | empty => simp [rewritten, Unchanged]
  | unterminated items nonempty free =>
      have written : rewritten items = items ++ ['\n'] := by
        simp [rewritten, linesOf_of_free free nonempty, terminated, chomp_of_free free]
      refine iff_of_false (by simp [written]) fun unchanged => ?_
      rcases unchanged.1 with empty | ends
      · exact nonempty empty
      · exact free (List.mem_of_getLast? ends)
  | terminated line rest is_line ih =>
      have line_ends : line.getLast? = some '\n' := by
        obtain ⟨body, rfl, -⟩ := is_line
        simp
      have ends_iff : (line ++ rest = [] ∨ (line ++ rest).getLast? = some '\n') ↔
          (rest = [] ∨ rest.getLast? = some '\n') := by
        rcases List.eq_nil_or_concat' rest with rfl | ⟨front, last, rfl⟩
        · simp [line_ends]
        · simp [← List.append_assoc]
      rw [Unchanged, crlf_infix_append_iff is_line, ends_iff, rewritten_append is_line]
      rw [Unchanged] at ih
      constructor
      · intro same
        obtain ⟨line_eq, rest_eq⟩ := (isLine_terminated is_line).append_inj is_line same
        obtain ⟨ends, clean⟩ := ih.mp rest_eq
        exact ⟨ends, not_or.mpr ⟨(terminated_eq_iff is_line).mp line_eq, clean⟩⟩
      · rintro ⟨ends, clean⟩
        obtain ⟨line_clean, rest_clean⟩ := not_or.mp clean
        rw [(terminated_eq_iff is_line).mpr line_clean, ih.mpr ⟨ends, rest_clean⟩]

/-! ## Bytes -/

/-- The newline as a byte. -/
def newline : UInt8 := 10

/-- Lines read from a stream and written again, up to the first that is no text. -/
def linesAgain : List (List UInt8) → List String
  | [] => []
  | line :: lines =>
      match Utf8.decode line with
      | some text => String.ofList (terminated text.toList) :: linesAgain lines
      | none => []

theorem newline_notMem_encode {text : List Char} (free : '\n' ∉ text) :
    newline ∉ Utf8.encode (String.ofList text) := by
  intro member
  have char_member : '\n' ∈ (String.ofList text).toList :=
    Utf8.byte_mem_encode (by decide) member
  exact free (by simpa using char_member)

theorem isLine_encode {line : List Char} (is_line : IsLine '\n' line) :
    IsLine newline (Utf8.encode (String.ofList line)) := by
  obtain ⟨body, rfl, free⟩ := is_line
  refine ⟨Utf8.encode (String.ofList body), ?_, newline_notMem_encode free⟩
  rw [String.ofList_append, Utf8.encode_append]
  rfl

/-- The lines of a text's bytes are the bytes of its lines. -/
theorem linesOf_encode (text : List Char) :
    linesOf newline (Utf8.encode (String.ofList text)) =
      (linesOf '\n' text).map fun line => Utf8.encode (String.ofList line) := by
  induction text using lines_induction '\n' with
  | empty => rfl
  | unterminated items nonempty free =>
      have bytes : Utf8.encode (String.ofList items) ≠ [] := by
        intro empty
        have decoded : Utf8.decode (Utf8.encode (String.ofList items)) = Utf8.decode [] := by
          rw [empty]
        rw [Utf8.decode_encode] at decoded
        exact nonempty (String.ofList_injective (Option.some.inj decoded))
      rw [linesOf_of_free free nonempty, linesOf_of_free (newline_notMem_encode free) bytes]
      rfl
  | terminated line rest is_line ih =>
      rw [String.ofList_append, Utf8.encode_append, linesOf_append (isLine_encode is_line),
        linesOf_append is_line, List.map_cons, ih]

/-- A text's bytes are read and written again as the text is. -/
theorem join_linesAgain_encode (text : String) :
    String.join (linesAgain (linesOf newline (Utf8.encode text))) =
      String.ofList (rewritten text.toList) := by
  have all_lines (lines : List (List Char)) :
      String.join (linesAgain (lines.map fun line => Utf8.encode (String.ofList line))) =
        String.ofList (lines.flatMap terminated) := by
    induction lines with
    | nil => rfl
    | cons line lines ih =>
        rw [List.map_cons, linesAgain, Utf8.decode_encode, List.flatMap_cons, String.ofList_append,
          ← ih]
        simp
  have chars := linesOf_encode text.toList
  rw [String.ofList_toList] at chars
  rw [chars, all_lines, rewritten]

end LineText
