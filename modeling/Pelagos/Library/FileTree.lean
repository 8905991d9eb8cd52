import Pelagos.Library.LexicalPath

/-!
# Trees of files

What stands at the places of a file system, and what it means that a tree has been copied or
unpacked at a place.
-/

namespace FileTree

open LexicalPath

/-- What stands at a place. -/
inductive Entry (α : Type) where
  | leaf (content : α)
  | directory
  deriving DecidableEq

/-- Entries at places, of which only directories have others below them. -/
structure Files (α : Type) where
  entry : Place → Option (Entry α)
  inside : ∀ {name place}, entry (name :: place) ≠ none → entry place = some .directory
  /-- No place lies deeper. -/
  depth : Nat
  bounded : ∀ place, depth < place.length → entry place = none

variable {α : Type}

namespace Files

/-- What stands at a place and below it. -/
def below (tree : Files α) (place : Place) : Files α where
  entry rel := tree.entry (rel ++ place)
  inside found := tree.inside found
  depth := tree.depth
  bounded rel deep := tree.bounded _ (by rw [List.length_append]; omega)

/-- The object stands at the place, perhaps among other things. -/
def Holds (tree : Files α) (place : Place) (object : Files α) : Prop :=
  ∀ rel entry, object.entry rel = some entry → tree.entry (rel ++ place) = some entry

/-- What a list has at a place. -/
def listed (entries : List (Place × Entry α)) (place : Place) : Option (Entry α) :=
  (entries.find? fun item => item.1 = place).map Prod.snd

theorem exists_mem_of_listed {entries : List (Place × Entry α)} {place : Place}
    (stands : listed entries place ≠ none) : ∃ item ∈ entries, item.1 = place := by
  cases found : entries.find? fun item => item.1 = place with
  | none => exact absurd (by rw [listed, found]; rfl) stands
  | some item =>
      exact ⟨item, List.mem_of_find?_eq_some found, by simpa using List.find?_some found⟩

/-- A tree that is given by a list of its places, each with its directory. -/
def ofList (entries : List (Place × Entry α))
    (closed : ∀ item ∈ entries, item.1 ≠ [] → listed entries item.1.tail = some .directory) :
    Files α where
  entry := listed entries
  inside := by
    intro name place stands
    obtain ⟨item, member, place_eq⟩ := exists_mem_of_listed stands
    have directory := closed item member (by rw [place_eq]; simp)
    rwa [place_eq] at directory
  depth := (entries.map fun item => item.1.length).max?.getD 0
  bounded place deep := by
    by_contra stands
    obtain ⟨item, member, rfl⟩ := exists_mem_of_listed stands
    have short := @List.le_max?_getD_of_mem _ _ 0
      (List.mem_map_of_mem (f := fun item : Place × Entry α => item.1.length) member)
    omega

/-- The tree with a leaf at the place, in an existing directory. -/
def put (tree : Files α) (place : Place) (content : α)
    (parent : tree.entry place.tail = some .directory)
    (free : tree.entry place ≠ some .directory) : Files α where
  entry other := if other = place then some (.leaf content) else tree.entry other
  inside := by
    intro name other stands
    have not_place : other ≠ place := by
      rintro rfl
      split at stands
      · rename_i cyclic
        exact absurd cyclic (by simp)
      · exact free (tree.inside stands)
    rw [if_neg not_place]
    split at stands
    · rename_i same
      rw [← same] at parent
      exact parent
    · exact tree.inside stands
  depth := max place.length tree.depth
  bounded other deep := by
    have not_place : other ≠ place := by
      rintro rfl
      omega
    rw [if_neg not_place]
    exact tree.bounded other (by omega)

/-- A place above something is a directory. -/
theorem directory_of_inside {tree : Files α} {rel place : Place} (nonempty : rel ≠ [])
    (found : tree.entry (rel ++ place) ≠ none) : tree.entry place = some .directory := by
  induction rel with
  | nil => exact absurd rfl nonempty
  | cons name rel ih =>
      have above : tree.entry (rel ++ place) = some .directory := tree.inside found
      cases rel with
      | nil => exact above
      | cons next rel => exact ih (by simp) (by rw [above]; simp)

theorem none_below (tree : Files α) {place : Place} (vacant : tree.entry place = none)
    (rel : Place) : tree.entry (rel ++ place) = none := by
  cases rel with
  | nil => exact vacant
  | cons name rel =>
      by_contra found
      have directory := directory_of_inside (List.cons_ne_nil name rel) found
      rw [vacant] at directory
      cases directory

end Files

/-- A program that unpacks an object at a place of a tree, or fails. -/
structure Unpacker (α : Type) where
  run : Files α → Place → Files α → Option (Files α)
  written : ∀ {tree place object after}, run tree place object = some after →
    after.Holds place object
  kept : ∀ {tree place object after}, run tree place object = some after →
    ∀ other, (∀ rel, object.entry rel ≠ none → other ≠ rel ++ place) →
      after.entry other = tree.entry other

/-! ## Putting one tree over another -/

/-- What stands at a place when the object is put over the tree. -/
def Files.overlayEntry (tree : Files α) (place : Place) (object : Files α) (other : Place) :
    Option (Entry α) :=
  if place <:+ other then
    (object.entry (other.take (other.length - place.length))).or (tree.entry other)
  else tree.entry other

theorem Files.overlayEntry_append (tree : Files α) (place : Place) (object : Files α)
    (rel : Place) :
    tree.overlayEntry place object (rel ++ place) =
      (object.entry rel).or (tree.entry (rel ++ place)) := by
  rw [Files.overlayEntry, if_pos (List.suffix_append _ _), List.length_append,
    Nat.add_sub_cancel, List.take_left]

theorem Files.overlayEntry_outside (tree : Files α) {place other : Place} (object : Files α)
    (outside : ¬place <:+ other) : tree.overlayEntry place object other = tree.entry other :=
  if_neg outside

theorem Files.overlayEntry_bounded (tree : Files α) (place : Place) (object : Files α) :
    ∀ other, max tree.depth (object.depth + place.length) < other.length →
      tree.overlayEntry place object other = none := by
  intro other deep
  have tree_none := tree.bounded other (by omega)
  by_cases below : place <:+ other
  · obtain ⟨rel, rfl⟩ := below
    rw [List.length_append] at deep
    rw [Files.overlayEntry_append, object.bounded rel (by omega), tree_none]
    rfl
  · rw [Files.overlayEntry_outside tree object below, tree_none]

theorem Files.overlayEntry_inside {tree object : Files α} {name : String} {dir : Place}
    (directory : tree.entry dir = some .directory) (vacant : tree.entry (name :: dir) = none)
    {next : String} {other : Place}
    (stands : tree.overlayEntry (name :: dir) object (next :: other) ≠ none) :
    tree.overlayEntry (name :: dir) object other = some .directory := by
  by_cases below : name :: dir <:+ other
  · obtain ⟨rel, rfl⟩ := below
    have nothing := tree.none_below vacant (next :: rel)
    rw [← List.cons_append, Files.overlayEntry_append, nothing, Option.or_none] at stands
    rw [Files.overlayEntry_append, object.inside stands]
    rfl
  · rw [Files.overlayEntry_outside tree object below]
    by_cases top : name :: dir <:+ next :: other
    · obtain ⟨-, rfl⟩ := List.cons.inj ((List.suffix_cons_iff.mp top).resolve_right below)
      exact directory
    · rw [Files.overlayEntry_outside tree object top] at stands
      exact tree.inside stands

/-- A name that is free in a directory. -/
structure Files.Vacancy (tree : Files α) where
  name : String
  dir : Place
  directory : tree.entry dir = some .directory
  vacant : tree.entry (name :: dir) = none

/-- The place that has the name. -/
abbrev Files.Vacancy.place {tree : Files α} (free : tree.Vacancy) : Place := free.name :: free.dir

/-- The tree with a copy of the object at a place that was free. -/
def Files.graft (tree : Files α) (free : tree.Vacancy) (object : Files α) : Files α where
  entry := tree.overlayEntry free.place object
  inside := Files.overlayEntry_inside free.directory free.vacant
  depth := max tree.depth (object.depth + free.place.length)
  bounded := tree.overlayEntry_bounded free.place object

section Graft

variable {tree object : Files α} {free : tree.Vacancy}

@[simp]
theorem Files.graft_below (rel : Place) :
    (tree.graft free object).entry (rel ++ free.place) = object.entry rel := by
  have nothing := tree.none_below free.vacant rel
  change tree.overlayEntry free.place object (rel ++ free.place) = object.entry rel
  rw [Files.overlayEntry_append, nothing, Option.or_none]

theorem Files.graft_outside {other : Place} (outside : ∀ rel, other ≠ rel ++ free.place) :
    (tree.graft free object).entry other = tree.entry other := by
  refine Files.overlayEntry_outside tree object ?_
  rintro ⟨rel, same⟩
  exact outside rel same.symm

/-- What was there stays. -/
theorem Files.graft_kept {place : Place} {stands : Entry α}
    (found : tree.entry place = some stands) :
    (tree.graft free object).entry place = some stands := by
  rw [Files.graft_outside, found]
  rintro rel rfl
  rw [tree.none_below free.vacant rel] at found
  cases found

end Graft

open Classical in
/-- The program that unpacks whenever a tree comes out. -/
noncomputable def overlaid : Unpacker α where
  run tree place object :=
    if inside : ∀ {name other}, tree.overlayEntry place object (name :: other) ≠ none →
        tree.overlayEntry place object other = some .directory then
      some { entry := tree.overlayEntry place object
             inside := inside
             depth := max tree.depth (object.depth + place.length)
             bounded := tree.overlayEntry_bounded place object }
    else none
  written := by
    intro tree place object after unpacked rel stands found
    split at unpacked
    · obtain rfl := Option.some.inj unpacked
      dsimp only
      rw [Files.overlayEntry_append, found]
      rfl
    · cases unpacked
  kept := by
    intro tree place object after unpacked other untouched
    split at unpacked
    · obtain rfl := Option.some.inj unpacked
      dsimp only
      by_cases below : place <:+ other
      · obtain ⟨rel, rfl⟩ := below
        have absent : object.entry rel = none := by
          by_contra stands
          exact untouched rel stands rfl
        rw [Files.overlayEntry_append, absent]
        rfl
      · exact Files.overlayEntry_outside tree object below
    · cases unpacked

/-- Where a directory has nothing of a name, an object can be unpacked under it. -/
theorem overlaid_vacant {tree object : Files α} {name : String} {dir : Place}
    (directory : tree.entry dir = some .directory) (vacant : tree.entry (name :: dir) = none) :
    (overlaid.run tree (name :: dir) object).isSome = true := by
  have inside : ∀ {next other},
      tree.overlayEntry (name :: dir) object (next :: other) ≠ none →
        tree.overlayEntry (name :: dir) object other = some .directory :=
    fun stands => Files.overlayEntry_inside directory vacant stands
  unfold overlaid
  dsimp only
  rw [dif_pos @inside]
  rfl

/-- A directory that is unpacked at a place does not come to stand below this place, where no
directory was before: it would have to hold itself. -/
theorem Unpacker.not_holds_inside (tar : Unpacker α) {tree object after : Files α} {place : Place}
    {name : String} (top : object.entry [] = some .directory)
    (fresh : tree.entry (name :: place) ≠ some .directory)
    (unpacked : tar.run tree place object = some after) : ¬after.Holds (name :: place) object := by
  intro holds
  have nested : ∀ count, object.entry (List.replicate count name) = some .directory := by
    intro count
    induction count with
    | zero => exact top
    | succ count ih =>
        have inner := holds _ _ ih
        rw [List.append_cons, ← List.replicate_succ'] at inner
        cases found : object.entry (List.replicate (count + 1) name) with
        | some stands => rw [← inner, tar.written unpacked _ _ found]
        | none =>
            have untouched : after.entry (List.replicate (count + 1) name ++ place) =
                tree.entry (List.replicate (count + 1) name ++ place) := by
              refine tar.kept unpacked _ fun rel stands same => stands ?_
              rw [← List.append_cancel_right same, found]
            rw [untouched, List.replicate_succ', ← List.append_cons] at inner
            cases count with
            | zero => exact absurd inner fresh
            | succ count =>
                have above := Files.directory_of_inside (by simp [List.replicate_succ])
                  (inner ▸ by simp : tree.entry
                    (List.replicate (count + 1) name ++ name :: place) ≠ none)
                exact absurd above fresh
  have deep := object.bounded (List.replicate (object.depth + 1) name) (by simp)
  rw [nested] at deep
  cases deep

end FileTree
