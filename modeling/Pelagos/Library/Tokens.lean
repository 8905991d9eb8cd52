import Pelagos.Library.Text

/-!
# Lines and tokens of a text

A text that is written line by line out of words reads back as these lines, with these words as the
tokens of a line, exactly when every word is one token and holds no line break.
-/

namespace Text

/-- The pieces between white space: `str::split_whitespace`. -/
def tokens (text : String) : List String :=
  ((text.toList.splitOnP isWhiteSpace).filter (· ≠ [])).map String.ofList

/-- The lines of a text; the last one needs no line break. -/
def lines (text : String) : List String :=
  let pieces := text.toList.splitOn '\n'
  (if pieces.getLast? = some [] then pieces.dropLast else pieces).map String.ofList

/-- The text is one token, perhaps with white space around it, and stays on its line. -/
def IsWord (text : String) : Prop := (tokens text).length = 1 ∧ '\n' ∉ text.toList

instance (text : String) : Decidable (IsWord text) := instDecidableAnd

/-- Words one after the other on one line. -/
def unwords (words : List String) : String := " ".intercalate words

/-- Lines one after the other, each out of words. -/
def unlines (templates : List (List String)) : String :=
  String.join (templates.map fun words => unwords words ++ "\n")

/-! ## Tokens -/

@[simp]
theorem tokens_empty : tokens "" = [] := rfl

theorem tokens_append_space {char : Char} (space : isWhiteSpace char = true)
    (left right : String) :
    tokens (left ++ String.singleton char ++ right) = tokens left ++ tokens right := by
  simp [tokens, List.splitOnP_append_cons _ _ space]

theorem tokens_of_visible {text : String}
    (visible : ∀ char ∈ text.toList, isWhiteSpace char = false) (nonempty : text ≠ "") :
    tokens text = [text] := by
  have chars_nonempty : text.toList ≠ [] := mt String.toList_eq_nil_iff.mp nonempty
  simp [tokens, List.splitOnP_eq_singleton visible, chars_nonempty]

/-- The first word begins a text that does not begin with white space. -/
theorem prefix_of_tokens_cons {text word : String} {words : List String}
    (trimmed : ∀ char ∈ text.toList.head?, isWhiteSpace char = false)
    (tokens_eq : tokens text = word :: words) : word.toList <+: text.toList := by
  have text_eq : text.toList = text.toList.takeWhile (!isWhiteSpace ·) ++
      text.toList.dropWhile (!isWhiteSpace ·) := List.takeWhile_append_dropWhile.symm
  generalize front_eq : text.toList.takeWhile (!isWhiteSpace ·) = front at text_eq
  have visible : ∀ char ∈ front, isWhiteSpace char = false := by
    intro char member
    have kept := List.mem_takeWhile_imp (front_eq ▸ member)
    simpa only [Bool.not_eq_true'] using kept
  have stops := List.head?_dropWhile_not (!isWhiteSpace ·) text.toList
  cases rest_eq : text.toList.dropWhile (!isWhiteSpace ·) with
  | nil =>
      rw [rest_eq, List.append_nil] at text_eq
      have nonempty : text ≠ "" := by
        rintro rfl
        cases tokens_eq
      rw [tokens_of_visible (text_eq ▸ visible) nonempty] at tokens_eq
      rw [(List.cons.inj tokens_eq).1]
  | cons space rest =>
      have space_white : isWhiteSpace space = true := by
        rw [rest_eq] at stops
        simpa using stops
      have front_nonempty : String.ofList front ≠ "" := by
        intro empty
        have no_front : front = [] := by simpa using congrArg String.toList empty
        rw [no_front, rest_eq, List.nil_append] at text_eq
        have space_visible := trimmed space (by rw [text_eq]; rfl)
        rw [space_white] at space_visible
        cases space_visible
      have whole_eq : text =
          String.ofList front ++ String.singleton space ++ String.ofList rest := by
        rw [← String.toList_inj, text_eq, rest_eq]
        simp
      rw [whole_eq, tokens_append_space space_white,
        tokens_of_visible (by simpa using visible) front_nonempty] at tokens_eq
      rw [← (List.cons.inj tokens_eq).1, String.toList_ofList, text_eq]
      exact List.prefix_append _ _

theorem isWord_of_visible {text : String}
    (visible : ∀ char ∈ text.toList, isWhiteSpace char = false) (nonempty : text ≠ "") :
    IsWord text := by
  refine ⟨by rw [tokens_of_visible visible nonempty]; rfl, fun newline => ?_⟩
  have newline_visible := visible '\n' newline
  simp [isWhiteSpace] at newline_visible

theorem unwords_cons_cons (word next : String) (words : List String) :
    unwords (word :: next :: words) = word ++ " " ++ unwords (next :: words) :=
  String.toList_inj.mp (by simp [unwords])

theorem unwords_singleton (word : String) : unwords [word] = word := rfl

/-- The tokens of a line are those of its words. -/
theorem tokens_unwords (words : List String) : tokens (unwords words) = words.flatMap tokens := by
  induction words with
  | nil => rfl
  | cons word words ih =>
      cases words with
      | nil => simp [unwords_singleton]
      | cons next words =>
          have space : isWhiteSpace ' ' = true := rfl
          rw [unwords_cons_cons, List.flatMap_cons, ← ih]
          exact tokens_append_space space word (unwords (next :: words))

theorem newline_mem_unwords {words : List String} :
    '\n' ∈ (unwords words).toList ↔ ∃ word ∈ words, '\n' ∈ word.toList := by
  induction words with
  | nil => simp [unwords]
  | cons word words ih =>
      cases words with
      | nil => simp [unwords_singleton]
      | cons next words =>
          rw [unwords_cons_cons]
          simp only [String.toList_append, List.mem_append, ih, List.exists_mem_cons_iff]
          simp

/-! ## Lines -/

theorem splitOn_join (rows : List String) :
    (String.join (rows.map fun row => row ++ "\n")).toList.splitOn '\n' =
      rows.flatMap (fun row => row.toList.splitOn '\n') ++ [[]] := by
  induction rows with
  | nil => rfl
  | cons row rows ih =>
      have text_eq : (String.join ((row :: rows).map fun row => row ++ "\n")).toList =
          row.toList ++ '\n' :: (String.join (rows.map fun row => row ++ "\n")).toList := by
        simp
      rw [text_eq, List.splitOn_append_cons_self, ih, List.flatMap_cons, List.append_assoc]

/-- Rows that each end their line are split into the pieces of each. -/
theorem lines_join (rows : List String) :
    lines (String.join (rows.map fun row => row ++ "\n")) =
      rows.flatMap fun row => (row.toList.splitOn '\n').map String.ofList := by
  rw [lines, splitOn_join]
  simp [List.map_flatMap]

/-- A row without line break is its own line. -/
theorem lines_join_of_free {rows : List String} (free : ∀ row ∈ rows, '\n' ∉ row.toList) :
    lines (String.join (rows.map fun row => row ++ "\n")) = rows := by
  rw [lines_join]
  induction rows with
  | nil => rfl
  | cons row rows ih =>
      rw [List.flatMap_cons, ih fun other member => free other (List.mem_cons_of_mem row member),
        List.splitOn_eq_singleton (free row List.mem_cons_self)]
      simp

/-- What has no separator goes to the last piece. -/
theorem splitOn_append_of_free {separator : Char} {left more last : List Char}
    {front : List (List Char)} (pieces : left.splitOn separator = front ++ [last])
    (free : separator ∉ more) : (left ++ more).splitOn separator = front ++ [last ++ more] := by
  induction left generalizing front last with
  | nil =>
      obtain ⟨rfl, rfl⟩ : front = [] ∧ last = [] := by
        simpa [List.singleton_eq_append_iff] using pieces
      simp [List.splitOn_eq_singleton free]
  | cons char left ih =>
      obtain ⟨rest, rest_last, rest_eq⟩ : ∃ rest rest_last,
          left.splitOn separator = rest ++ [rest_last] :=
        (List.eq_nil_or_concat' _).resolve_left (List.splitOn_ne_nil _ _)
      have longer := ih rest_eq
      rw [List.splitOn_cons_eq_if_modifyHead, rest_eq] at pieces
      rw [List.cons_append, List.splitOn_cons_eq_if_modifyHead, longer]
      split at pieces
      · rename_i same
        rw [if_pos same]
        obtain ⟨rfl, same_last⟩ :=
          List.append_inj' (show [] :: rest ++ [rest_last] = _ from pieces) rfl
        obtain rfl := List.singleton_inj.mp same_last
        rfl
      · rename_i different
        rw [if_neg different]
        cases rest with
        | nil =>
            obtain ⟨rfl, rfl⟩ : front = [] ∧ last = char :: rest_last := by
              simpa [List.singleton_eq_append_iff] using pieces
            rfl
        | cons first rest =>
            obtain ⟨rfl, same_last⟩ :=
              List.append_inj' (show (char :: first) :: rest ++ [rest_last] = _ from pieces) rfl
            obtain rfl := List.singleton_inj.mp same_last
            rfl

theorem two_le_length_splitOn {chars : List Char} (newline : '\n' ∈ chars) :
    2 ≤ (chars.splitOn '\n').length := by
  obtain ⟨before, after, rfl⟩ := List.append_of_mem newline
  have before_pos : 0 < (before.splitOn '\n').length :=
    List.length_pos_of_ne_nil (List.splitOn_ne_nil _ _)
  have after_pos : 0 < (after.splitOn '\n').length :=
    List.length_pos_of_ne_nil (List.splitOn_ne_nil _ _)
  rw [List.splitOn_append_cons_self, List.length_append]
  omega

/-- As many lines as rows means that no row breaks. -/
theorem free_of_length_lines {rows : List String}
    (count : (lines (String.join (rows.map fun row => row ++ "\n"))).length = rows.length) :
    ∀ row ∈ rows, '\n' ∉ row.toList := by
  have at_least (rows : List String) :
      rows.length ≤ (lines (String.join (rows.map fun row => row ++ "\n"))).length := by
    induction rows with
    | nil => exact Nat.zero_le _
    | cons row rows ih =>
        have row_pos : 0 < (row.toList.splitOn '\n').length :=
          List.length_pos_of_ne_nil (List.splitOn_ne_nil _ _)
        rw [lines_join] at ih ⊢
        rw [List.flatMap_cons, List.length_append, List.length_map, List.length_cons]
        omega
  induction rows with
  | nil => simp
  | cons row rows ih =>
      have others := at_least rows
      rw [lines_join, List.flatMap_cons, List.length_append, List.length_map, List.length_cons]
        at count
      rw [lines_join] at others ih
      have row_pos : 0 < (row.toList.splitOn '\n').length :=
        List.length_pos_of_ne_nil (List.splitOn_ne_nil _ _)
      intro other member
      rcases List.mem_cons.mp member with rfl | member
      · intro newline
        have broken := two_le_length_splitOn newline
        omega
      · exact ih (by omega) other member

/-- Written lines read back as their words exactly when every word is one. -/
theorem lines_unlines_iff {templates : List (List String)} :
    ((lines (unlines templates)).map tokens = templates.map (List.flatMap tokens) ∧
        ∀ words ∈ templates, ∀ word ∈ words, (tokens word).length = 1) ↔
      ∀ words ∈ templates, ∀ word ∈ words, IsWord word := by
  have unlines_eq : unlines templates =
      String.join ((templates.map unwords).map fun row => row ++ "\n") := by
    rw [unlines, List.map_map]
    rfl
  constructor
  · rintro ⟨read, single⟩ words member word word_member
    refine ⟨single words member word word_member, fun newline => ?_⟩
    have count : (lines (unlines templates)).length = (templates.map unwords).length := by
      simpa using congrArg List.length read
    rw [unlines_eq] at count
    exact free_of_length_lines count (unwords words) (List.mem_map_of_mem member)
      (newline_mem_unwords.mpr ⟨word, word_member, newline⟩)
  · intro all_words
    refine ⟨?_, fun words member word word_member => (all_words words member word word_member).1⟩
    have free : ∀ row ∈ templates.map unwords, '\n' ∉ row.toList := by
      intro row member newline
      obtain ⟨words, words_member, rfl⟩ := List.mem_map.mp member
      obtain ⟨word, word_member, broken⟩ := newline_mem_unwords.mp newline
      exact (all_words words words_member word word_member).2 broken
    rw [unlines_eq, lines_join_of_free free, List.map_map]
    exact List.map_congr_left fun words _ => tokens_unwords words

end Text
