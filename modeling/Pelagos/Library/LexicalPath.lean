import Mathlib.Data.List.Basic
import Mathlib.Data.List.DropRight
import Mathlib.Data.List.Induction
import Mathlib.Data.List.Infix
import Mathlib.Data.List.Pairwise

/-!
# Lexical paths

Unix paths as text, their components, and the place they name when no symbolic links are followed.
A place is the list of names on the way up to the root.  Two trees are compared: a path followed
from a place in one tree and from a place in the other leads to corresponding places exactly when,
after its last departure, it is back at two places that correspond.  In a table of mounts the last
mount on the way to a place decides in which tree it is.
-/

namespace LexicalPath

/-- One component of a path. -/
inductive Component where
  | rootDir
  | curDir
  | parentDir
  | normal (name : String)
  deriving DecidableEq

/-- The component written as `piece` after the first separator; empty pieces and dots disappear. -/
def component? (piece : List Char) : Option Component :=
  if piece = [] ∨ piece = ['.'] then none
  else if piece = ['.', '.'] then some .parentDir
  else some (.normal (String.ofList piece))

/-- The components of a relative path, a leading dot left out. -/
def body (path : String) : List Component :=
  (path.toList.splitOn '/').filterMap component?

/-- The path starts at the root. -/
def isAbsolute (path : String) : Bool := path.toList.head? == some '/'

/-- What a path has in front of its body. -/
def start (path : String) : List Component :=
  if isAbsolute path then [.rootDir]
  else if (path.toList.splitOn '/').head? == some ['.'] then [.curDir]
  else []

/-- `Path::components`; two paths are equal when their components are. -/
def components (path : String) : List Component := start path ++ body path

/-- `Path::join`. -/
def join (base path : String) : String :=
  if isAbsolute path then path
  else if base = "" then path
  else if base.toList.getLast? = some '/' then base ++ path
  else base ++ "/" ++ path

/-- A place: the names from it up to the root. -/
abbrev Place := List String

/-- Follow one component; the root is its own parent. -/
def follow (place : Place) : Component → Place
  | .rootDir => []
  | .curDir => place
  | .parentDir => place.tail
  | .normal name => name :: place

/-- Follow components one after the other. -/
def walk (place : Place) (path : List Component) : Place := path.foldl follow place

/-- The place a path names for a process in `workingDir`. -/
def resolve (workingDir : Place) (path : String) : Place := walk workingDir (components path)

theorem walk_append (place : Place) (first second : List Component) :
    walk place (first ++ second) = walk (walk place first) second :=
  List.foldl_append

theorem splitOn_append (left right : String) :
    (left ++ "/" ++ right).toList.splitOn '/' =
      left.toList.splitOn '/' ++ right.toList.splitOn '/' := by
  rw [← List.splitOn_append_cons_self]
  simp

theorem body_append (left right : String) :
    body (left ++ "/" ++ right) = body left ++ body right := by
  rw [body, splitOn_append, List.filterMap_append]
  rfl

/-- A body holds only names and steps to a parent. -/
theorem body_proper {path : String} {part : Component} (member : part ∈ body path) :
    part = .parentDir ∨ ∃ name, part = .normal name := by
  obtain ⟨piece, -, found⟩ := List.mem_filterMap.mp member
  unfold component? at found
  split at found
  · simp at found
  · split at found
    · exact .inl (Option.some.inj found).symm
    · exact .inr ⟨_, (Option.some.inj found).symm⟩

theorem start_append {left : String} (nonempty : left ≠ "") (right : String) :
    start (left ++ "/" ++ right) = start left := by
  obtain ⟨char, chars, chars_eq⟩ : ∃ char chars, left.toList = char :: chars := by
    cases left_eq : left.toList with
    | nil => exact absurd (String.toList_eq_nil_iff.mp left_eq) nonempty
    | cons char chars => exact ⟨char, chars, rfl⟩
  have same_head : (left ++ "/" ++ right).toList.head? = left.toList.head? := by
    simp [chars_eq]
  have same_piece : ((left ++ "/" ++ right).toList.splitOn '/').head? =
      (left.toList.splitOn '/').head? := by
    rw [splitOn_append, List.head?_append_of_ne_nil _ (List.splitOn_ne_nil _ _)]
  unfold start isAbsolute
  rw [same_head, same_piece]

/-- What follows a nonempty path and a separator only adds to its components. -/
theorem components_append {left : String} (nonempty : left ≠ "") (right : String) :
    components (left ++ "/" ++ right) = components left ++ body right := by
  rw [components, start_append nonempty, body_append, components, List.append_assoc]

theorem resolve_append {left : String} (nonempty : left ≠ "") (right : String)
    (workingDir : Place) :
    resolve workingDir (left ++ "/" ++ right) = walk (resolve workingDir left) (body right) := by
  rw [resolve, components_append nonempty, walk_append]
  rfl

theorem resolve_of_isAbsolute {path : String} (absolute : isAbsolute path = true)
    (workingDir : Place) : resolve workingDir path = resolve [] path := by
  simp only [resolve, components, start, if_pos absolute]
  rfl

theorem resolve_of_relative {path : String} (relative : isAbsolute path = false)
    (workingDir : Place) : resolve workingDir path = walk workingDir (body path) := by
  simp only [resolve, components, start, relative, Bool.false_eq_true, if_false]
  split <;> rfl

theorem join_ne_empty (base : String) {path : String} (nonempty : path ≠ "") :
    join base path ≠ "" := by
  unfold join
  split
  · exact nonempty
  · split
    · exact nonempty
    · split <;> simp [nonempty]

theorem join_ne_empty_of_base {base : String} (nonempty : base ≠ "") (path : String) :
    join base path ≠ "" := by
  unfold join
  split
  · rename_i absolute
    rintro rfl
    cases absolute
  · split <;> simp [nonempty]

/-- A relative path joined to a base continues from where the base leads. -/
theorem resolve_join {base path : String} (nonempty : base ≠ "")
    (relative : isAbsolute path = false) (workingDir : Place) :
    resolve workingDir (join base path) = walk (resolve workingDir base) (body path) := by
  unfold join
  rw [relative, if_neg (by simp), if_neg nonempty]
  split
  · rename_i trailing
    obtain ⟨chars, chars_eq⟩ : ∃ chars, base.toList = chars ++ ['/'] :=
      List.getLast?_eq_some_iff.mp trailing
    have base_eq : base = String.ofList chars ++ "/" ++ "" :=
      String.toList_inj.mp (by simp [chars_eq])
    have joined_eq : base ++ path = String.ofList chars ++ "/" ++ path :=
      String.toList_inj.mp (by simp [chars_eq])
    have nothing : body "" = [] := by decide
    by_cases front : String.ofList chars = ""
    · have absolute : isAbsolute ("" ++ "/" ++ path) = true := by simp [isAbsolute]
      have root_eq : resolve workingDir ("" ++ "/" ++ "") = [] := rfl
      rw [joined_eq, base_eq, front, root_eq, resolve, components, body_append, nothing, start,
        if_pos absolute]
      rfl
    · rw [joined_eq, base_eq, resolve_append front, resolve_append front, nothing]
      rfl
  · exact resolve_append nonempty path workingDir

theorem separator_notMem_piece {chars piece : List Char} (member : piece ∈ chars.splitOn '/') :
    '/' ∉ piece := by
  induction chars generalizing piece with
  | nil => simp_all
  | cons char chars ih =>
      rw [List.splitOn_cons_eq_if_modifyHead] at member
      split at member
      · rcases List.mem_cons.mp member with rfl | later
        · simp
        · exact ih later
      · rename_i different
        obtain ⟨first, rest, pieces_eq⟩ :=
          List.exists_cons_of_ne_nil (List.splitOn_ne_nil '/' chars)
        rw [pieces_eq, List.modifyHead_cons] at member
        rcases List.mem_cons.mp member with rfl | later
        · have first_free := ih (pieces_eq ▸ List.mem_cons_self)
          simpa [first_free] using fun same => different (by simp [← same])
        · exact ih (pieces_eq ▸ List.mem_cons_of_mem first later)

/-- A text without separators that is no dot or double dot is one name. -/
theorem body_of_name {name : String} (free : '/' ∉ name.toList) (nonempty : name.toList ≠ [])
    (not_dot : name.toList ≠ ['.']) (not_dots : name.toList ≠ ['.', '.']) :
    body name = [.normal name] := by
  simp [body, List.splitOn_eq_singleton free, component?, nonempty, not_dot, not_dots]

/-- A component as text. -/
def Component.text : Component → String
  | .rootDir => ""
  | .curDir => "."
  | .parentDir => ".."
  | .normal name => name

/-- Neither an empty piece nor a dot is a component. -/
def isTrivial (piece : List Char) : Bool := (component? piece).isNone

/-- The pieces behind the first components. -/
def dropComponents : Nat → List (List Char) → List (List Char)
  | 0, pieces => pieces
  | _ + 1, [] => []
  | count + 1, piece :: pieces =>
      if isTrivial piece then dropComponents (count + 1) pieces else dropComponents count pieces

/-- Pieces written one after the other, with separators between them. -/
def joinPieces (pieces : List (List Char)) : String := String.ofList (['/'].intercalate pieces)

/-- `Path::parent` of an absolute path: what is left keeps its text, but ends with a component. -/
def parentDir (path : String) : Option String :=
  if body path = [] then none
  else
    let pieces := (path.toList.splitOn '/').tail.rdropWhile isTrivial
    some ("/" ++ joinPieces (pieces.dropLast.rdropWhile isTrivial))

example : parentDir "/srv/./stack/./compose.reml/" = some "/srv/./stack" := by decide

/-- `Path::file_name`. -/
def lastName (path : String) : Option String :=
  match (body path).getLast? with
  | some (.normal name) => some name
  | _ => none

theorem body_of_lastName {path name : String} (last_eq : lastName path = some name) :
    ∃ parts, body path = parts ++ [.normal name] := by
  rw [lastName] at last_eq
  split at last_eq
  · rename_i found
    obtain rfl := Option.some.inj last_eq
    exact ⟨_, (List.dropLast_append_getLast? _ found).symm⟩
  · cases last_eq

/-- A name holds no separator, and it is neither empty nor a dot or double dot. -/
theorem proper_of_mem_body {path name : String} (member : .normal name ∈ body path) :
    '/' ∉ name.toList ∧ name.toList ≠ [] ∧ name.toList ≠ ['.'] ∧ name.toList ≠ ['.', '.'] := by
  obtain ⟨piece, piece_member, found⟩ := List.mem_filterMap.mp member
  have free := separator_notMem_piece piece_member
  unfold component? at found
  split at found
  · cases found
  · rename_i proper
    split at found
    · cases found
    · rename_i not_dots
      obtain rfl : String.ofList piece = name := by simpa using found
      push Not at proper
      rw [String.toList_ofList]
      exact ⟨free, proper.1, proper.2, not_dots⟩

theorem body_text {path : String} {part : Component} (member : part ∈ body path) :
    body part.text = [part] := by
  rcases body_proper member with rfl | ⟨name, rfl⟩
  · decide
  · obtain ⟨free, nonempty, not_dot, not_dots⟩ := proper_of_mem_body member
    exact body_of_name free nonempty not_dot not_dots

/-- `Path::strip_prefix`, as the components that are left. -/
def stripPrefix (path base : String) : Option (List Component) :=
  if components base <+: components path then
    some ((components path).drop (components base).length)
  else none

theorem stripPrefix_eq_some {path base : String} {rest : List Component} :
    stripPrefix path base = some rest ↔ components path = components base ++ rest := by
  unfold stripPrefix
  split
  · rename_i front
    obtain ⟨left_over, path_eq⟩ := front
    simp [← path_eq, eq_comm]
  · rename_i no_front
    simp only [reduceCtorEq, false_iff]
    intro path_eq
    exact no_front ⟨rest, path_eq.symm⟩

theorem components_ne_nil {path : String} (nonempty : path ≠ "") : components path ≠ [] := by
  unfold components start isAbsolute
  cases chars_eq : path.toList with
  | nil => exact absurd (String.toList_eq_nil_iff.mp chars_eq) nonempty
  | cons char chars =>
      by_cases absolute : char = '/'
      · simp [absolute]
      · obtain ⟨first, rest, pieces_eq⟩ :=
          List.exists_cons_of_ne_nil (List.splitOn_ne_nil '/' chars)
        have split : (char :: chars).splitOn '/' = (char :: first) :: rest := by
          rw [List.splitOn_cons_eq_if_modifyHead, if_neg (by simpa using absolute), pieces_eq,
            List.modifyHead_cons]
        by_cases dot : char :: first = ['.']
        · simp [absolute, split, dot]
        · by_cases dots : char :: first = ['.', '.'] <;>
            simp [absolute, split, dot, body, chars_eq, component?, dots]

theorem start_length_le (path : String) : (start path).length ≤ 1 := by
  unfold start
  split
  · simp
  · split <;> simp

/-- `Path::strip_prefix` of a base that is not empty: what is left keeps its text, but begins and
ends with a component. -/
def stripPrefixText (path base : String) : Option String :=
  if components base <+: components path then
    let pieces := dropComponents ((components base).length - (start path).length)
      (path.toList.splitOn '/')
    some (joinPieces ((pieces.dropWhile isTrivial).rdropWhile isTrivial))
  else none

theorem isTrivial_iff {piece : List Char} : isTrivial piece = true ↔ component? piece = none :=
  Option.isNone_iff_eq_none

theorem filterMap_dropWhile (pieces : List (List Char)) :
    (pieces.dropWhile isTrivial).filterMap component? = pieces.filterMap component? := by
  induction pieces with
  | nil => rfl
  | cons piece pieces ih =>
      by_cases trivial_piece : isTrivial piece = true
      · rw [List.dropWhile_cons_of_pos trivial_piece, ih,
          List.filterMap_cons_none (isTrivial_iff.mp trivial_piece)]
      · rw [List.dropWhile_cons_of_neg trivial_piece]

theorem filterMap_rdropWhile (pieces : List (List Char)) :
    (pieces.rdropWhile isTrivial).filterMap component? = pieces.filterMap component? := by
  rw [List.rdropWhile, List.filterMap_reverse, filterMap_dropWhile, List.filterMap_reverse,
    List.reverse_reverse]

theorem filterMap_dropComponents (count : Nat) (pieces : List (List Char)) :
    (dropComponents count pieces).filterMap component? =
      (pieces.filterMap component?).drop count := by
  induction count, pieces using dropComponents.induct with
  | case1 pieces => rw [dropComponents, List.drop_zero]
  | case2 count => rw [dropComponents, List.filterMap_nil, List.drop_nil]
  | case3 count piece pieces trivial_piece ih =>
      rw [dropComponents, if_pos trivial_piece, ih,
        List.filterMap_cons_none (isTrivial_iff.mp trivial_piece)]
  | case4 count piece pieces proper ih =>
      obtain ⟨part, part_eq⟩ : ∃ part, component? piece = some part := by
        rw [isTrivial_iff] at proper
        exact Option.ne_none_iff_exists'.mp proper
      rw [dropComponents, if_neg proper, ih, List.filterMap_cons_some part_eq, List.drop_succ_cons]

theorem dropComponents_suffix (count : Nat) (pieces : List (List Char)) :
    dropComponents count pieces <:+ pieces := by
  induction count, pieces using dropComponents.induct with
  | case1 pieces => simp [dropComponents]
  | case2 count => simp [dropComponents]
  | case3 count piece pieces trivial_piece ih =>
      rw [dropComponents, if_pos trivial_piece]
      exact ih.trans (List.suffix_cons piece pieces)
  | case4 count piece pieces proper ih =>
      rw [dropComponents, if_neg proper]
      exact ih.trans (List.suffix_cons piece pieces)

/-- Pieces that are written out are read back. -/
theorem body_joinPieces {pieces : List (List Char)} (free : ∀ piece ∈ pieces, '/' ∉ piece) :
    body (joinPieces pieces) = pieces.filterMap component? := by
  rw [body, joinPieces, String.toList_ofList]
  cases pieces with
  | nil => rfl
  | cons piece pieces => rw [List.splitOn_intercalate '/' free (by simp)]

/-- The text that is left has the components that are left. -/
theorem stripPrefix_of_text {path base text : String} (nonempty : base ≠ "")
    (stripped : stripPrefixText path base = some text) :
    stripPrefix path base = some (body text) := by
  unfold stripPrefixText at stripped
  split at stripped
  · rename_i front
    obtain rfl := Option.some.inj stripped
    have free : ∀ piece ∈ ((dropComponents ((components base).length - (start path).length)
        (path.toList.splitOn '/')).dropWhile isTrivial).rdropWhile isTrivial, '/' ∉ piece := by
      intro piece member
      have kept := (List.rdropWhile_prefix isTrivial _).subset member
      exact separator_notMem_piece
        ((dropComponents_suffix _ _).subset ((List.dropWhile_suffix isTrivial).subset kept))
    have long : (start path).length ≤ (components base).length :=
      (start_length_le path).trans (List.length_pos_of_ne_nil (components_ne_nil nonempty))
    have path_eq : components path = start path ++ body path := rfl
    rw [body_joinPieces free, filterMap_rdropWhile, filterMap_dropWhile, filterMap_dropComponents,
      stripPrefix, if_pos front, path_eq, List.drop_append, List.drop_of_length_le long]
    rfl
  · cases stripped

example : stripPrefixText "/home//ada/./shop/../shop/./stack/" "/home/ada" =
    some "shop/../shop/./stack" := by decide

/-- Leading separators do not matter. -/
theorem body_trimStart (path : String) :
    body (String.ofList (path.toList.dropWhile (· = '/'))) = body path := by
  unfold body
  rw [String.toList_ofList]
  induction path.toList with
  | nil => rfl
  | cons char chars ih =>
      by_cases separator : char = '/'
      · rw [List.dropWhile_cons_of_pos (by simpa using separator), ih,
          List.splitOn_cons_eq_if_modifyHead, if_pos (by simpa using separator)]
        rfl
      · rw [List.dropWhile_cons_of_neg (by simpa using separator)]

/-! ## Paths that stay below their start -/

/-- Followed from `depth` names below some place, the path never leaves that place upwards. -/
def staysBelow : Nat → List Component → Bool
  | _, [] => true
  | depth, .normal _ :: path => staysBelow (depth + 1) path
  | depth + 1, .parentDir :: path => staysBelow depth path
  | depth, .curDir :: path => staysBelow depth path
  | 0, .parentDir :: _ => false
  | _, .rootDir :: _ => false

theorem walk_of_staysBelow {path : List Component} (below base : Place)
    (stays : staysBelow below.length path = true) :
    walk (below ++ base) path = walk below path ++ base := by
  induction path generalizing below with
  | nil => rfl
  | cons part path ih =>
      cases part with
      | normal name => exact ih (name :: below) stays
      | curDir =>
          cases below <;> exact ih _ stays
      | rootDir =>
          cases below <;> simp [staysBelow] at stays
      | parentDir =>
          cases below with
          | nil => simp [staysBelow] at stays
          | cons name below => exact ih below stays

theorem staysBelow_append {first second : List Component} (below : Place) :
    staysBelow below.length (first ++ second) = true ↔
      staysBelow below.length first = true ∧
        staysBelow (walk below first).length second = true := by
  induction first generalizing below with
  | nil => simp [staysBelow, walk]
  | cons part first ih =>
      cases part with
      | normal name => exact ih (name :: below)
      | curDir => cases below <;> exact ih _
      | rootDir => cases below <;> simp [staysBelow]
      | parentDir =>
          cases below with
          | nil => simp [staysBelow]
          | cons name below => exact ih below

/-- A path that ends below `core`, from a place no deeper than `core`, passes through `core` and
stays below it from then on. -/
theorem exists_last_entry {path : List Component} {place core rest : Place}
    (proper : ∀ part ∈ path, part = .parentDir ∨ ∃ name, part = .normal name)
    (shallow : place.length ≤ core.length) (ends : walk place path = rest ++ core) :
    ∃ outer inner, path = outer ++ inner ∧ walk place outer = core ∧
      staysBelow 0 inner = true ∧ walk [] inner = rest := by
  induction path using List.reverseRecOn generalizing rest with
  | nil =>
      have rest_eq : rest = [] := by
        have lengths := congrArg List.length ends
        simp [walk] at lengths
        exact List.eq_nil_of_length_eq_zero (by omega)
      subst rest_eq
      exact ⟨[], [], rfl, ends, rfl, rfl⟩
  | append_singleton path part ih =>
      have proper_path : ∀ part ∈ path, part = .parentDir ∨ ∃ name, part = .normal name :=
        fun other member => proper other (List.mem_append_left _ member)
      rw [walk_append] at ends
      cases rest with
      | nil => exact ⟨path ++ [part], [], by simp, by rw [walk_append, ends]; rfl, rfl, rfl⟩
      | cons top rest =>
          rcases proper part (List.mem_append_right _ List.mem_cons_self) with rfl | ⟨name, rfl⟩
          · change (walk place path).tail = top :: rest ++ core at ends
            obtain ⟨above, above_eq⟩ : ∃ above, walk place path = above :: top :: rest ++ core := by
              cases before : walk place path with
              | nil => simp [before] at ends
              | cons above places => exact ⟨above, by simpa [before] using ends⟩
            obtain ⟨outer, inner, rfl, outer_eq, stays, inner_eq⟩ := ih proper_path above_eq
            refine ⟨outer, inner ++ [.parentDir], by simp, outer_eq, ?_, ?_⟩
            · exact (staysBelow_append []).mpr ⟨stays, by rw [inner_eq]; rfl⟩
            · rw [walk_append, inner_eq]
              rfl
          · obtain ⟨rfl, before⟩ : name = top ∧ walk place path = rest ++ core := by
              simpa [walk, follow] using ends
            obtain ⟨outer, inner, rfl, outer_eq, stays, inner_eq⟩ := ih proper_path before
            refine ⟨outer, inner ++ [.normal name], by simp, outer_eq, ?_, ?_⟩
            · exact (staysBelow_append []).mpr ⟨stays, by simp [staysBelow]⟩
            · rw [walk_append, inner_eq]
              rfl

/-! ## Corresponding places of two trees -/

/-- The two places are reached by the same names from a pair of places that correspond. -/
def Corresponds (mounts : Set (Place × Place)) (place image : Place) : Prop :=
  ∃ rest core root, (core, root) ∈ mounts ∧ place = rest ++ core ∧ image = rest ++ root

/-- The path can be cut so that its first part leads to a pair of places that correspond and its
second part stays below them. -/
def Reenters (mounts : Set (Place × Place)) (place image : Place) (path : List Component) : Prop :=
  ∃ outer inner, path = outer ++ inner ∧ (walk place outer, walk image outer) ∈ mounts ∧
    staysBelow 0 inner = true

theorem corresponds_walk_iff {mounts : Set (Place × Place)} {place : Place} (image : Place)
    {path : List Component}
    (proper : ∀ part ∈ path, part = .parentDir ∨ ∃ name, part = .normal name)
    (shallow : ∀ core root, (core, root) ∈ mounts → place.length ≤ core.length) :
    Corresponds mounts (walk place path) (walk image path) ↔ Reenters mounts place image path := by
  constructor
  · rintro ⟨rest, core, root, mounted, place_eq, image_eq⟩
    obtain ⟨outer, inner, rfl, outer_eq, stays, inner_eq⟩ :=
      exists_last_entry proper (shallow core root mounted) place_eq
    refine ⟨outer, inner, rfl, ?_, stays⟩
    have image_inner : walk image (outer ++ inner) = rest ++ walk image outer := by
      rw [walk_append, ← List.nil_append (walk image outer), walk_of_staysBelow [] _ stays,
        inner_eq]
      rfl
    have root_eq : walk image outer = root :=
      List.append_cancel_left (image_inner.symm.trans image_eq)
    rwa [outer_eq, root_eq]
  · rintro ⟨outer, inner, rfl, mounted, stays⟩
    refine ⟨walk [] inner, _, _, mounted, ?_, ?_⟩
    · rw [walk_append]
      exact walk_of_staysBelow [] _ stays
    · rw [walk_append]
      exact walk_of_staysBelow [] _ stays

end LexicalPath

/-! ## Trees mounted at places -/

namespace MountTable

variable {α ρ : Type*}

/-- No mount point is on the way to another. -/
def Apart (table : List (List α × ρ)) : Prop :=
  table.Pairwise fun first second => ¬ first.1 <:+ second.1 ∧ ¬ second.1 <:+ first.1

theorem Apart.eq_of_suffix {table : List (List α × ρ)} (apart : Apart table)
    {first second : List α × ρ} (first_mem : first ∈ table) (second_mem : second ∈ table)
    {place : List α} (first_above : first.1 <:+ place) (second_above : second.1 <:+ place) :
    first = second := by
  have symmetric : Std.Symm fun first second : List α × ρ =>
      ¬ first.1 <:+ second.1 ∧ ¬ second.1 <:+ first.1 := ⟨fun _ _ => And.symm⟩
  by_contra different
  obtain ⟨not_above, not_below⟩ := List.Pairwise.forall apart first_mem second_mem different
  rcases List.suffix_or_suffix_of_suffix first_above second_above with above | below
  · exact not_above above
  · exact not_below below

variable [DecidableEq α]

/-- What is mounted on the way to the place, and what is left of the place below the mount point;
later mounts hide earlier ones. -/
def lookup (table : List (List α × ρ)) (place : List α) : Option (ρ × List α) :=
  table.reverse.findSome? fun mount =>
    if mount.1 <:+ place then some (mount.2, place.take (place.length - mount.1.length)) else none

/-- With the mount points apart, the order of the mounts does not matter. -/
theorem lookup_eq_some_iff {table : List (List α × ρ)} (apart : Apart table) {place : List α}
    {root : ρ} {rest : List α} :
    lookup table place = some (root, rest) ↔
      ∃ point, (point, root) ∈ table ∧ place = rest ++ point := by
  constructor
  · intro found
    obtain ⟨⟨point, mounted⟩, member, at_point⟩ := List.exists_of_findSome?_eq_some found
    split at at_point
    · rename_i above
      obtain ⟨front, rfl⟩ := above
      obtain ⟨rfl, rfl⟩ := Prod.mk.inj (Option.some.inj at_point)
      refine ⟨point, List.mem_reverse.mp member, ?_⟩
      rw [List.length_append, Nat.add_sub_cancel, List.take_left]
    · cases at_point
  · rintro ⟨point, member, rfl⟩
    cases found : lookup table (rest ++ point) with
    | none =>
        have missed := List.findSome?_eq_none_iff.mp found (point, root)
          (List.mem_reverse.mpr member)
        simp at missed
    | some entry =>
        obtain ⟨⟨other, mounted⟩, other_mem, at_other⟩ := List.exists_of_findSome?_eq_some found
        split at at_other
        · rename_i above
          obtain ⟨rfl, rfl⟩ := Prod.mk.inj (apart.eq_of_suffix (List.mem_reverse.mp other_mem)
            member above (List.suffix_append rest point))
          simpa using at_other.symm
        · cases at_other

end MountTable
