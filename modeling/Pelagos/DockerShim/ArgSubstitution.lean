import Pelagos.DockerShim.Dockerfile
import Pelagos.Guest.Substitution
import Pelagos.Library.LineText

/-!
# Variables in `FROM` lines

The shim replaces the variables of a `FROM` line before the guest sees it: key by key, in the order
of a hash map, wherever the text of a reference occurs.  The guest reads a line once and takes names
as long as they are.  The two agree when no key ever fits at a place that the guest reads otherwise.
-/

namespace Pelagos.DockerShim

open Serde Text Guest

/-- `str::lines`. -/
def contentLines (content : String) : List String :=
  (Lines.linesOf '\n' content.toList).map fun line => String.ofList (LineText.chomp line)

/-- A line that `preprocess_dockerfile_args` takes for a `FROM` line. -/
def startsFrom (line : String) : Bool := startsWith (asciiUpper (trim line)) "FROM"

/-- One line of the search for global `ARG` defaults. -/
def withArgDefault (state : Bool × HashMap String String) (line : String) :
    Bool × HashMap String String :=
  let inGlobal := state.1 && !startsFrom line
  if inGlobal && startsWith (asciiUpper (trim line)) "ARG " then
    let rest := trim (String.ofList ((trim line).toList.drop 4))
    match splitOnce '=' rest.toList with
    | none => (inGlobal, state.2)
    | some (key, value) =>
        let key := trim (String.ofList key)
        (inGlobal,
          if state.2.lookup key = none then state.2.insert key (trim (String.ofList value))
          else state.2)
  else (inGlobal, state.2)

/-- The build arguments over the defaults in front of the first `FROM`. -/
def resolvedArgs (buildArgs : List String) (content : String) : HashMap String String :=
  ((contentLines content).foldl withArgDefault (true, argMap buildArgs)).2

/-- A line of the resolved Dockerfile. -/
def resolveLine (entries : List (String × String)) (line : String) : String :=
  if startsFrom line then replaceArgs entries line else line

/-- The resolved Dockerfile; `none` if it needs no changes. -/
def preprocessDockerfileArgs (order : MapOrder String String) (buildArgs : List String)
    (content : String) : Option String :=
  let needsSubst := (contentLines content).any fun line =>
    startsFrom line && decide ('$' ∈ line.toList)
  if needsSubst then
    some (String.join ((contentLines content).map fun line =>
      resolveLine (order.entries (resolvedArgs buildArgs content)) line ++ "\n"))
  else none

/-! ## References that are replaced in turn -/

/-- The references to keys. -/
def references (keys : List String) : List Piece :=
  keys.flatMap fun key => [.braced key, .named key]

/-- A piece of the line when some references have been replaced. -/
def shown (vars : HashMap String String) (replaced : List Piece) (piece : Piece) : List Char :=
  if piece ∈ replaced then piece.expand vars else piece.spelling

/-- The line when some references have been replaced. -/
def shownLine (vars : HashMap String String) (replaced : List Piece) (parts : List Piece) :
    List Char :=
  parts.flatMap (shown vars replaced)

/-- A reference fits somewhere in the line where the guest does not read it. -/
def Misread (vars : HashMap String String) (replaced : List Piece) (reference : Piece)
    (parts : List Piece) : Prop :=
  ∃ front piece back before behind, parts = front ++ piece :: back ∧
    shown vars replaced piece = before ++ behind ∧ behind ≠ [] ∧ piece ≠ reference ∧
    reference.spelling <+: behind ++ shownLine vars replaced back

/-- When some keys have been replaced, another one fits only where the guest reads it. -/
def FitsOwn (vars : HashMap String String) (line : String) (earlier : List String) (key : String) :
    Prop :=
  ¬Misread vars (references earlier) (.braced key) (pieces line) ∧
    ¬Misread vars (.braced key :: references earlier) (.named key) (pieces line)

/-- Whatever keys have been replaced, another one fits only where the guest reads it. -/
def OnlyReferencesFit (vars : HashMap String String) (line : String) : Prop :=
  ∀ earlier : List String, ∀ key ∈ vars, key ∉ earlier → (∀ other ∈ earlier, other ∈ vars) →
    FitsOwn vars line earlier key

theorem shown_congr {vars : HashMap String String} {replaced replaced' : List Piece}
    (same : ∀ piece, piece ∈ replaced ↔ piece ∈ replaced') :
    shown vars replaced = shown vars replaced' := by
  funext piece
  simp only [shown, same]

theorem shown_nil (vars : HashMap String String) : shown vars [] = Piece.spelling := by
  funext piece
  simp [shown]

/-- A reference that is not replaced yet. -/
theorem shown_reference {vars : HashMap String String} {replaced : List Piece} {reference : Piece}
    (fresh : reference ∉ replaced) : shown vars replaced reference = reference.spelling :=
  if_neg fresh

theorem shown_cons_self (vars : HashMap String String) (replaced : List Piece) (piece : Piece) :
    shown vars (piece :: replaced) piece = piece.expand vars :=
  if_pos (List.mem_cons_self ..)

theorem shown_cons_of_ne {vars : HashMap String String} {replaced : List Piece}
    {reference piece : Piece} (other : piece ≠ reference) :
    shown vars (reference :: replaced) piece = shown vars replaced piece := by
  simp [shown, other]

theorem Misread.cons {vars : HashMap String String} {replaced : List Piece} {reference : Piece}
    {first : Piece} {parts : List Piece} (misread : Misread vars replaced reference parts) :
    Misread vars replaced reference (first :: parts) := by
  obtain ⟨front, piece, back, before, behind, rfl, rest⟩ := misread
  exact ⟨first :: front, piece, back, before, behind, rfl, rest⟩

/-- Replacing a reference that fits only at its own places replaces exactly these. -/
theorem replaceChars_shownLine {vars : HashMap String String} {replaced : List Piece}
    {reference : Piece} {parts : List Piece} (nonempty : reference.spelling ≠ [])
    (fresh : reference ∉ replaced) (read : ¬Misread vars replaced reference parts) :
    replaceChars reference.spelling (reference.expand vars) 0 (shownLine vars replaced parts) =
      shownLine vars (reference :: replaced) parts := by
  induction parts with
  | nil => rfl
  | cons piece parts ih =>
      have rest_eq := ih (mt Misread.cons read)
      simp only [shownLine, List.flatMap_cons] at rest_eq ⊢
      by_cases own : piece = reference
      · subst own
        rw [shown_reference fresh, replaceChars_here nonempty, rest_eq, shown_cons_self]
      · have nowhere : ∀ before behind, shown vars replaced piece = before ++ behind →
            behind ≠ [] →
            ¬reference.spelling <+: behind ++ parts.flatMap (shown vars replaced) := by
          intro before behind piece_eq nonempty fits
          exact read ⟨[], piece, parts, before, behind, rfl, piece_eq, nonempty, own, fits⟩
        rw [replaceChars_pass nowhere, rest_eq, shown_cons_of_ne own]

/-- The two replacements for one key. -/
theorem replaceArg_shownLine {vars : HashMap String String} {replaced : List Piece} {key : String}
    {value : String} {parts : List Piece} (found : vars.lookup key = some value)
    (fresh : Piece.braced key ∉ replaced ∧ Piece.named key ∉ replaced)
    (braced_read : ¬Misread vars replaced (.braced key) parts)
    (named_read : ¬Misread vars (.braced key :: replaced) (.named key) parts) :
    replace (replace (String.ofList (shownLine vars replaced parts))
        ("$\x7b" ++ key ++ "\x7d") value) ("$" ++ key) value =
      String.ofList (shownLine vars (.named key :: .braced key :: replaced) parts) := by
  have value_eq : value.toList = valueChars vars key := by
    rw [valueChars, found]
    rfl
  have braced_spelling : ("$\x7b" ++ key ++ "\x7d").toList = (Piece.braced key).spelling := by
    simp [Piece.spelling]
  have named_spelling : ("$" ++ key).toList = (Piece.named key).spelling := by
    simp [Piece.spelling]
  have named_fresh : Piece.named key ∉ .braced key :: replaced := by
    simp [fresh.2]
  have braced_eq := replaceChars_shownLine (by simp [Piece.spelling]) fresh.1 braced_read
  have named_eq := replaceChars_shownLine (by simp [Piece.spelling]) named_fresh named_read
  simp only [Piece.expand] at braced_eq named_eq
  rw [replace, replace, String.toList_ofList, String.toList_ofList, braced_spelling,
    named_spelling, value_eq, braced_eq, named_eq]

theorem line_eq_shownLine (vars : HashMap String String) (line : String) :
    line = String.ofList (shownLine vars (references []) (pieces line)) := by
  have nothing : references [] = [] := rfl
  rw [shownLine, nothing, shown_nil, pieces_spelling]

theorem mem_references {keys : List String} {piece : Piece} :
    piece ∈ references keys ↔ ∃ key ∈ keys, piece = .braced key ∨ piece = .named key := by
  simp [references]

theorem shown_references_concat (vars : HashMap String String) (earlier : List String)
    (key : String) :
    shown vars (.named key :: .braced key :: references earlier) =
      shown vars (references (earlier ++ [key])) := by
  refine shown_congr fun piece => ?_
  simp only [List.mem_cons, mem_references, List.mem_append, List.not_mem_nil, or_false,
    or_and_right, exists_or, exists_eq_left]
  rw [← or_assoc, or_comm, @or_comm (piece = Piece.named key)]

/-- The loop over the keys replaces the references of the line, and nothing else, while a key fits
only where the guest reads it. -/
theorem replaceArgs_shownLine {vars : HashMap String String} {line : String}
    {entries : List (String × String)} :
    ∀ {earlier : List String}, (∀ other ∈ earlier, other ∈ vars) →
      (∀ entry ∈ entries, vars.lookup entry.1 = some entry.2) →
      (earlier ++ entries.map Prod.fst).Nodup →
      (∀ front key value back, entries = front ++ (key, value) :: back →
        FitsOwn vars line (earlier ++ front.map Prod.fst) key) →
      replaceArgs entries (String.ofList (shownLine vars (references earlier) (pieces line))) =
        String.ofList (shownLine vars (references (earlier ++ entries.map Prod.fst))
          (pieces line)) := by
  induction entries with
  | nil =>
      intro earlier defined found distinct reads
      rw [List.map_nil, List.append_nil]
      rfl
  | cons entry entries ih =>
      intro earlier defined found distinct reads
      obtain ⟨key, value⟩ := entry
      obtain ⟨key_found, rest_found⟩ := List.forall_mem_cons.mp found
      have key_defined : key ∈ vars := by
        rw [HashMap.mem_iff_lookup_ne_none, key_found]
        exact Option.some_ne_none value
      have fresh : key ∉ earlier := by
        intro member
        exact (List.nodup_append.mp distinct).2.2 key member key (by simp) rfl
      have references_fresh : Piece.braced key ∉ references earlier ∧
          Piece.named key ∉ references earlier := by
        simp [mem_references, fresh]
      obtain ⟨braced_read, named_read⟩ := reads [] key value entries rfl
      rw [List.map_nil, List.append_nil] at braced_read named_read
      have now_eq := replaceArg_shownLine key_found references_fresh braced_read named_read
      have earlier_defined : ∀ other ∈ earlier ++ [key], other ∈ vars := by
        intro other member
        rcases List.mem_append.mp member with member | same
        · exact defined other member
        · exact List.mem_singleton.mp same ▸ key_defined
      have distinct_again : (earlier ++ [key] ++ entries.map Prod.fst).Nodup := by
        simpa using distinct
      have rest_reads : ∀ front later value back, entries = front ++ (later, value) :: back →
          FitsOwn vars line (earlier ++ [key] ++ front.map Prod.fst) later := by
        rintro front later value' back rfl
        have later_reads := reads ((key, value) :: front) later value' back rfl
        rwa [List.map_cons, List.append_cons] at later_reads
      have rest_eq := ih earlier_defined rest_found distinct_again rest_reads
      rw [replaceArgs, List.foldl_cons, now_eq, shownLine, shown_references_concat]
      rw [replaceArgs, shownLine] at rest_eq
      rw [rest_eq, List.append_assoc]
      rfl

/-- When all keys have been replaced, a line whose references are defined reads as in the guest. -/
theorem shown_all_eq_emitted {vars : HashMap String String} {line : String} {keys : List String}
    (ascii : ∀ char ∈ line.toList, char.toNat < 128) (complete : ∀ name ∈ vars, name ∈ keys)
    (defined : ∀ name, Piece.braced name ∈ pieces line ∨ Piece.named name ∈ pieces line →
      name ∈ vars) :
    ∀ piece ∈ pieces line, shown vars (references keys) piece = piece.emitted vars := by
  intro piece member
  cases piece with
  | copied char =>
      have plain : (Piece.copied char).Plain := ascii char (mem_of_copied member)
      rw [Piece.emitted_of_plain vars plain, shown]
      split
      · rfl
      · rfl
  | braced name =>
      exact if_pos (mem_references.mpr ⟨name, complete name (defined name (.inl member)), .inl rfl⟩)
  | named name =>
      exact if_pos (mem_references.mpr ⟨name, complete name (defined name (.inr member)), .inr rfl⟩)

/-- With only own references fitting, the line is read as the guest reads it. -/
theorem replaceArgs_eq_substituteBuildArgs (order : MapOrder String String)
    {vars : HashMap String String} {line : String} (ascii : ∀ char ∈ line.toList, char.toNat < 128)
    (defined : ∀ name, Piece.braced name ∈ pieces line ∨ Piece.named name ∈ pieces line →
      name ∈ vars)
    (fits : OnlyReferencesFit vars line) :
    replaceArgs (order.entries vars) line = substituteBuildArgs line vars := by
  have complete : ∀ name ∈ vars, name ∈ (order.entries vars).map Prod.fst := by
    intro name member
    obtain ⟨value, found⟩ :=
      Option.ne_none_iff_exists'.mp (HashMap.mem_iff_lookup_ne_none.mp member)
    exact List.mem_map.mpr ⟨(name, value), (order.complete vars name value).mpr found, rfl⟩
  have found : ∀ entry ∈ order.entries vars, vars.lookup entry.1 = some entry.2 :=
    fun entry => (order.complete vars entry.1 entry.2).mp
  have reads : ∀ front key value back, order.entries vars = front ++ (key, value) :: back →
      FitsOwn vars line ([] ++ front.map Prod.fst) key := by
    intro front key value back entries_eq
    have key_found := found (key, value) (by simp [entries_eq])
    have distinct := order.distinct vars
    rw [entries_eq, List.map_append, List.map_cons, List.nodup_append] at distinct
    refine fits _ key (HashMap.mem_iff_lookup_ne_none.mpr (by simp [key_found])) ?_ ?_
    · intro member
      exact distinct.2.2 key member key (List.mem_cons_self ..) rfl
    · intro other member
      obtain ⟨entry, in_front, rfl⟩ := List.mem_map.mp member
      have entry_found := found entry (by simp [entries_eq, in_front])
      exact HashMap.mem_iff_lookup_ne_none.mpr (by simp [entry_found])
  have replaced_eq := @replaceArgs_shownLine vars line (order.entries vars) [] (by simp)
    found (order.distinct vars) reads
  rw [← line_eq_shownLine, List.nil_append] at replaced_eq
  rw [replaced_eq, substituteBuildArgs_eq, shownLine]
  exact congrArg String.ofList
    (List.flatMap_congr (shown_all_eq_emitted ascii complete defined))

/-! ## Orders in which something else fits -/

/-- In this order the loop comes to the line with exactly some references replaced, and then the
next key fits where the guest does not read it. -/
def MisreadsIn (order : MapOrder String String) (vars : HashMap String String) (line : String) :
    Prop :=
  ∃ front key value back, order.entries vars = front ++ (key, value) :: back ∧
    replaceArgs front line =
      String.ofList (shownLine vars (references (front.map Prod.fst)) (pieces line)) ∧
    ¬FitsOwn vars line (front.map Prod.fst) key

theorem fitsOwn_congr {vars : HashMap String String} {line key : String}
    {earlier earlier' : List String} (same : ∀ other, other ∈ earlier ↔ other ∈ earlier') :
    FitsOwn vars line earlier key ↔ FitsOwn vars line earlier' key := by
  have shown_eq : shown vars (references earlier) = shown vars (references earlier') :=
    shown_congr fun piece => by simp only [mem_references, same]
  have braced_eq : shown vars (.braced key :: references earlier) =
      shown vars (.braced key :: references earlier') :=
    shown_congr fun piece => by simp only [List.mem_cons, mem_references, same]
  simp only [FitsOwn, Misread, shownLine, shown_eq, braced_eq]

/-- The entries that an order starts with. -/
theorem startingWith_entries {vars : HashMap String String} {earlier : List String} {key : String}
    (distinct : (earlier ++ [key]).Nodup) (defined : ∀ other ∈ earlier ++ [key], other ∈ vars) :
    ∃ front value back, front.map Prod.fst = earlier ∧
      (MapOrder.startingWith String (earlier ++ [key]) distinct).entries vars =
        front ++ (key, value) :: back := by
  have found : ∀ other ∈ earlier ++ [key], ∃ value, vars.lookup other = some value :=
    fun other member => Option.ne_none_iff_exists'.mp
      (HashMap.mem_iff_lookup_ne_none.mp (defined other member))
  obtain ⟨value, key_found⟩ := found key (by simp)
  have front_eq : ∀ keys : List String, (∀ other ∈ keys, other ∈ earlier) →
      ((keys.filterMap fun key => (vars.lookup key).map fun value => (key, value)).map
        Prod.fst) = keys := by
    intro keys listed
    induction keys with
    | nil => rfl
    | cons other keys ih =>
        obtain ⟨other_listed, rest_listed⟩ := List.forall_mem_cons.mp listed
        obtain ⟨_, other_found⟩ := found other (List.mem_append_left _ other_listed)
        simp [other_found, ih rest_listed]
  obtain ⟨rest, entries_eq⟩ : ∃ rest,
      (MapOrder.startingWith String (earlier ++ [key]) distinct).entries vars =
        (earlier ++ [key] ++ rest).filterMap fun key =>
          (vars.lookup key).map fun value => (key, value) := ⟨_, rfl⟩
  rw [entries_eq, List.append_assoc, List.filterMap_append, List.singleton_append,
    List.filterMap_cons, key_found]
  exact ⟨_, value, _, front_eq earlier fun _ => id, rfl⟩

/-- A key that fits elsewhere does so in some order, the first time that anything does. -/
theorem exists_order_misreads {vars : HashMap String String} {line : String}
    (unfit : ¬OnlyReferencesFit vars line) :
    ∃ order : MapOrder String String, MisreadsIn order vars line := by
  have some_list : ∃ count, ∃ earlier : List String, ∃ key ∈ vars, earlier.length = count ∧
      (earlier ++ [key]).Nodup ∧ (∀ other ∈ earlier, other ∈ vars) ∧
        ¬FitsOwn vars line earlier key := by
    simp only [OnlyReferencesFit, not_forall] at unfit
    obtain ⟨earlier, key, key_defined, fresh, defined, unfit⟩ := unfit
    refine ⟨_, earlier.dedup, key, key_defined, rfl, ?_, ?_, ?_⟩
    · rw [List.nodup_append]
      refine ⟨List.nodup_dedup _, List.nodup_singleton _, ?_⟩
      rintro other member _ single rfl
      rw [List.mem_singleton] at single
      exact fresh (List.mem_dedup.mp (single ▸ member))
    · exact fun other member => defined other (List.mem_dedup.mp member)
    · rwa [fitsOwn_congr fun other => List.mem_dedup]
  classical
  obtain ⟨earlier, key, key_defined, length_eq, distinct, defined, unfit⟩ := Nat.find_spec some_list
  have key_and_defined : ∀ other ∈ earlier ++ [key], other ∈ vars := by
    intro other member
    rcases List.mem_append.mp member with member | same
    · exact defined other member
    · exact List.mem_singleton.mp same ▸ key_defined
  obtain ⟨front, value, back, front_eq, entries_eq⟩ :=
    startingWith_entries distinct key_and_defined
  refine ⟨_, front, key, value, back, entries_eq, ?_, front_eq ▸ unfit⟩
  have found : ∀ entry ∈ front, vars.lookup entry.1 = some entry.2 := by
    intro entry member
    refine ((MapOrder.startingWith String _ distinct).complete vars entry.1 entry.2).mp ?_
    rw [entries_eq]
    exact List.mem_append_left _ member
  have front_distinct : (front.map Prod.fst).Nodup := front_eq ▸ (List.nodup_append.mp distinct).1
  -- A key that misreads after fewer keys would contradict the minimality.
  have reads : ∀ before other value after, front = before ++ (other, value) :: after →
      FitsOwn vars line ([] ++ before.map Prod.fst) other := by
    intro before other value' after split
    by_contra misreads
    have keys_eq : earlier = before.map Prod.fst ++ other :: after.map Prod.fst := by
      rw [← front_eq, split, List.map_append, List.map_cons]
    refine @Nat.find_min _ _ some_list (before.map Prod.fst).length ?_
      ⟨before.map Prod.fst, other, defined other (by simp [keys_eq]), rfl, ?_, ?_, misreads⟩
    · rw [← length_eq, keys_eq]
      simp
    · have nodup := (List.nodup_append.mp distinct).1
      rw [keys_eq, List.append_cons] at nodup
      exact (List.nodup_append.mp nodup).1
    · intro earliest member
      exact defined earliest (keys_eq ▸ List.mem_append_left _ member)
  have replaced_eq := @replaceArgs_shownLine vars line front [] (by simp) found front_distinct reads
  rwa [← line_eq_shownLine, List.nil_append] at replaced_eq

/-! ## Lines of a Dockerfile -/

theorem replaceArgs_cons (entry : String × String) (entries : List (String × String))
    (text : String) :
    replaceArgs (entry :: entries) text =
      replaceArgs entries (replace (replace text ("$\x7b" ++ entry.1 ++ "\x7d") entry.2)
        ("$" ++ entry.1) entry.2) := by
  rw [replaceArgs, List.foldl_cons, replaceArgs]

theorem entries_of_keys_empty (order : MapOrder String String) {vars : HashMap String String}
    (empty : vars.keys = ∅) : order.entries vars = [] := by
  rw [List.eq_nil_iff_forall_not_mem]
  intro entry member
  have found := (order.complete _ entry.1 entry.2).mp member
  have key_member : entry.1 ∈ vars.keys :=
    Finmap.mem_keys.mpr (HashMap.mem_iff_lookup_ne_none.mpr (by simp [found]))
  rw [empty] at key_member
  exact absurd key_member (Finset.notMem_empty _)

/-- Keys without a line break are replaced on every line apart. -/
theorem replaceArgs_append_newline {entries : List (String × String)}
    (free : ∀ entry ∈ entries, '\n' ∉ entry.1.toList) :
    ∀ left right : String, replaceArgs entries (left ++ "\n" ++ right) =
      replaceArgs entries left ++ "\n" ++ replaceArgs entries right := by
  induction entries with
  | nil => exact fun _ _ => rfl
  | cons entry entries ih =>
      intro left right
      obtain ⟨key_free, rest_free⟩ := List.forall_mem_cons.mp free
      have apart : ∀ (pattern left right : String), pattern ≠ "" → '\n' ∉ pattern.toList →
          replace (left ++ "\n" ++ right) pattern entry.2 =
            replace left pattern entry.2 ++ "\n" ++ replace right pattern entry.2 := by
        intro pattern left right nonempty pattern_free
        have chars_nonempty : pattern.toList ≠ [] := mt String.toList_eq_nil_iff.mp nonempty
        have parts := @replaceChars_append_separator _ entry.2.toList right.toList '\n'
          chars_nonempty pattern_free left.toList 0 (Nat.zero_le _)
        apply String.toList_inj.mp
        simpa [replace] using parts
      have braced_free : '\n' ∉ ("$\x7b" ++ entry.1 ++ "\x7d").toList := by
        simp [key_free]
      have named_free : '\n' ∉ ("$" ++ entry.1).toList := by
        simp [key_free]
      have braced_eq := apart _ left right (by simp) braced_free
      rw [replaceArgs_cons, replaceArgs_cons, replaceArgs_cons, braced_eq,
        apart _ _ _ (by simp) named_free, ih rest_free]

/-- The shim resolves a `FROM` line, in `preprocess_dockerfile_args` and in `pull_base_images`, as
the guest does, in every order of the map, if only the references of the guest ever fit.  If another
one does, some order comes to it. -/
theorem from_line_resolved_alike {vars : HashMap String String} {line : String}
    (from_line : startsFrom line = true) (ascii : ∀ char ∈ line.toList, char.toNat < 128)
    (defined : ∀ name, Piece.braced name ∈ pieces line ∨ Piece.named name ∈ pieces line →
      name ∈ vars) :
    (OnlyReferencesFit vars line → ∀ order : MapOrder String String,
      resolveLine (order.entries vars) line = substituteBuildArgs line vars ∧
      (∀ buildArgs, argMap buildArgs = vars →
        substituteText order buildArgs line = substituteBuildArgs line vars) ∧
      ((∀ name ∈ vars, '\n' ∉ name.toList) → ∀ above below,
        replaceArgs (order.entries vars) (above ++ "\n" ++ line ++ "\n" ++ below) =
          replaceArgs (order.entries vars) above ++ "\n" ++ substituteBuildArgs line vars ++ "\n" ++
            replaceArgs (order.entries vars) below)) ∧
    (¬OnlyReferencesFit vars line →
      ∃ order : MapOrder String String, MisreadsIn order vars line) := by
  refine ⟨fun fits order => ?_, exists_order_misreads⟩
  have replaced_eq := replaceArgs_eq_substituteBuildArgs order ascii defined fits
  refine ⟨?_, ?_, ?_⟩
  · rw [resolveLine, if_pos from_line, replaced_eq]
  · rintro buildArgs rfl
    rw [substituteText]
    split
    · rename_i empty
      rw [entries_of_keys_empty order empty] at replaced_eq
      exact replaced_eq
    · exact replaced_eq
  · intro free above below
    have entries_free : ∀ entry ∈ order.entries vars, '\n' ∉ entry.1.toList := by
      intro entry member
      have found := (order.complete vars entry.1 entry.2).mp member
      exact free entry.1 (HashMap.mem_iff_lookup_ne_none.mpr (by simp [found]))
    rw [replaceArgs_append_newline entries_free, replaceArgs_append_newline entries_free,
      replaced_eq]

/-- A text without a dollar has no reference to replace. -/
theorem replaceArgs_of_free {text : String} (free : '$' ∉ text.toList)
    (entries : List (String × String)) : replaceArgs entries text = text := by
  induction entries with
  | nil => rfl
  | cons entry entries ih =>
      have unchanged (name : String) : replace text ("$" ++ name) entry.2 = text := by
        have nowhere : ∀ before behind, text.toList = before ++ behind → behind ≠ [] →
            ¬('$' :: name.toList) <+: behind ++ [] := by
          rintro before behind split - ⟨rest, fits⟩
          rw [List.append_nil] at fits
          exact free (by simp [split, ← fits])
        have kept := @replaceChars_pass _ entry.2.toList _ _ nowhere
        apply String.toList_inj.mp
        simpa [replace, replaceChars] using kept
      have braced_eq : "$\x7b" ++ entry.1 ++ "\x7d" = "$" ++ ("\x7b" ++ entry.1 ++ "\x7d") :=
        String.toList_inj.mp (by simp)
      rw [replaceArgs_cons, braced_eq, unchanged, unchanged, ih]

/-- The shim and the guest read the line alike. -/
structure ReadAlike (vars : HashMap String String) (line : String) : Prop where
  ascii : ∀ char ∈ line.toList, char.toNat < 128
  defined : ∀ name, Piece.braced name ∈ pieces line ∨ Piece.named name ∈ pieces line → name ∈ vars
  fits : OnlyReferencesFit vars line

/-- The resolved Dockerfile has the lines of the Dockerfile, its `FROM` lines as the guest would
resolve them; where there is none, the guest would leave every `FROM` line as it is. -/
theorem preprocessed_lines (order : MapOrder String String) {buildArgs : List String}
    {content : String} (alike : ∀ line ∈ contentLines content, startsFrom line = true →
      ReadAlike (resolvedArgs buildArgs content) line) :
    (∀ resolved, preprocessDockerfileArgs order buildArgs content = some resolved →
      resolved = String.join ((contentLines content).map fun line =>
        (if startsFrom line then substituteBuildArgs line (resolvedArgs buildArgs content)
          else line) ++ "\n")) ∧
    (preprocessDockerfileArgs order buildArgs content = none →
      ∀ line ∈ contentLines content, startsFrom line = true →
        substituteBuildArgs line (resolvedArgs buildArgs content) = line) := by
  have replaced (line : String) (member : line ∈ contentLines content)
      (from_line : startsFrom line = true) :
      replaceArgs (order.entries (resolvedArgs buildArgs content)) line =
        substituteBuildArgs line (resolvedArgs buildArgs content) := by
    have read := alike line member from_line
    exact replaceArgs_eq_substituteBuildArgs order read.ascii read.defined read.fits
  unfold preprocessDockerfileArgs
  dsimp only
  constructor
  · intro resolved written
    split at written
    · obtain rfl := Option.some.inj written
      refine congrArg String.join (List.map_congr_left fun line member => ?_)
      rw [resolveLine]
      split
      · rename_i from_line
        rw [replaced line member from_line]
      · rfl
    · cases written
  · intro unchanged line member from_line
    split at unchanged
    · cases unchanged
    · rename_i no_reference
      have free : '$' ∉ line.toList := fun dollar =>
        no_reference (List.any_eq_true.mpr ⟨line, member, by simp [from_line, dollar]⟩)
      rw [← replaced line member from_line, replaceArgs_of_free free]

example : preprocessDockerfileArgs (.sorted String) [] "ARG B=base\nFROM $B\nRUN $B\n" =
    some "ARG B=base\nFROM base\nRUN $B\n" := by decide +kernel

/-! ## References in braces -/

/-- A key that is not empty, does not begin with a brace and has no closing one. -/
def IsName (key : String) : Prop := key ≠ "" ∧ key.toList.head? ≠ some '\x7b' ∧ '\x7d' ∉ key.toList

/-- A character other than a dollar, or a reference in braces. -/
def Enclosed : Piece → Prop
  | .copied char => char ≠ '$'
  | .braced name => '$' ∉ name.toList ∧ IsName name
  | .named _ => False

instance : DecidablePred IsName := fun _ => instDecidableAnd

instance : DecidablePred Enclosed
  | .copied char => inferInstanceAs (Decidable (char ≠ '$'))
  | .braced name => inferInstanceAs (Decidable ('$' ∉ name.toList ∧ IsName name))
  | .named _ => instDecidableFalse

theorem braced_fits_only_itself {key name : String} {rest : List Char} (key_name : IsName key)
    (is_name : IsName name)
    (fits : (Piece.braced key).spelling <+: (Piece.braced name).spelling ++ rest) : key = name := by
  obtain ⟨tail, same⟩ := fits
  have inner : key.toList ++ '\x7d' :: tail = name.toList ++ '\x7d' :: rest := by
    simpa [Piece.spelling] using same
  have key_split := splitOnce_append tail key_name.2.2
  rw [inner, splitOnce_append rest is_name.2.2, Option.some.injEq, Prod.mk.injEq] at key_split
  exact String.toList_inj.mp key_split.1.symm

theorem named_never_fits_braced {key name : String} {rest : List Char} (key_name : IsName key) :
    ¬(Piece.named key).spelling <+: (Piece.braced name).spelling ++ rest := by
  rintro ⟨tail, same⟩
  have inner : key.toList ++ tail = '\x7b' :: (name.toList ++ '\x7d' :: rest) := by
    simpa [Piece.spelling] using same
  cases chars_eq : key.toList with
  | nil => exact key_name.1 (String.toList_eq_nil_iff.mp chars_eq)
  | cons first chars =>
      rw [chars_eq, List.cons_append, List.cons.injEq] at inner
      exact key_name.2.1 (by rw [chars_eq, inner.1]; rfl)

/-- The only dollars of an enclosed piece are those that begin a reference. -/
theorem dollar_of_enclosed {vars : HashMap String String} {replaced : List Piece} {piece : Piece}
    {before behind : List Char} (enclosed : Enclosed piece)
    (plain : ∀ name value, vars.lookup name = some value → '$' ∉ value.toList)
    (shown_eq : shown vars replaced piece = before ++ '$' :: behind) :
    ∃ name, piece = .braced name ∧ '$' :: behind = piece.spelling := by
  have member : '$' ∈ shown vars replaced piece := by
    rw [shown_eq]
    simp
  cases piece with
  | copied char =>
      have same : '$' = char := by
        rw [shown] at member
        split at member
        · exact List.mem_singleton.mp member
        · exact List.mem_singleton.mp member
      exact absurd same.symm enclosed
  | braced name =>
      refine ⟨name, rfl, ?_⟩
      rw [shown] at member shown_eq
      split at member
      · rw [Piece.expand, valueChars] at member
        cases found : vars.lookup name with
        | none => simp [found] at member
        | some value => exact absurd (by simpa [found] using member) (plain name value found)
      · rename_i kept
        rw [if_neg kept] at shown_eq
        cases before with
        | nil => exact shown_eq.symm
        | cons first before =>
            have later : '\x7b' :: name.toList ++ ['\x7d'] = before ++ '$' :: behind :=
              (List.cons.inj shown_eq).2
            have inside : '$' ∈ '\x7b' :: name.toList ++ ['\x7d'] := by
              rw [later]
              simp
            simp [enclosed.1] at inside
  | named name => exact absurd enclosed id

/-- Among enclosed pieces, a reference that is misread fits a reference in braces. -/
theorem exists_braced_of_misread {vars : HashMap String String} {replaced parts : List Piece}
    {reference : Piece} {spelled : List Char}
    (plain : ∀ name value, vars.lookup name = some value → '$' ∉ value.toList)
    (enclosed : ∀ piece ∈ parts, Enclosed piece) (spelling_eq : reference.spelling = '$' :: spelled)
    (misread : Misread vars replaced reference parts) :
    ∃ name rest, IsName name ∧ Piece.braced name ≠ reference ∧
      reference.spelling <+: (Piece.braced name).spelling ++ rest := by
  obtain ⟨front, piece, back, before, behind, rfl, shown_eq, nonempty, other, fits⟩ := misread
  have piece_enclosed := enclosed piece (by simp)
  obtain ⟨first, behind, rfl⟩ := List.exists_cons_of_ne_nil nonempty
  obtain rfl : '$' = first := by
    rw [spelling_eq] at fits
    exact (List.cons_prefix_cons.mp fits).1
  obtain ⟨name, rfl, behind_eq⟩ := dollar_of_enclosed piece_enclosed plain shown_eq
  rw [behind_eq] at fits
  exact ⟨name, _, piece_enclosed.2, other, fits⟩

/-- References in braces are read alike, if the keys are names and no value has a dollar. -/
theorem onlyReferencesFit_of_enclosed {vars : HashMap String String} {line : String}
    (names : ∀ name ∈ vars, IsName name)
    (plain : ∀ name value, vars.lookup name = some value → '$' ∉ value.toList)
    (enclosed : ∀ piece ∈ pieces line, Enclosed piece) : OnlyReferencesFit vars line := by
  intro earlier key key_defined fresh defined
  have key_name := names key key_defined
  constructor
  · intro misread
    obtain ⟨name, rest, is_name, other, fits⟩ :=
      exists_braced_of_misread plain enclosed rfl misread
    exact other (congrArg _ (braced_fits_only_itself key_name is_name fits).symm)
  · intro misread
    obtain ⟨name, rest, -, -, fits⟩ := exists_braced_of_misread plain enclosed rfl misread
    exact named_never_fits_braced key_name fits

/-- A Dockerfile of the devcontainer tools, whose base image is a build argument. -/
def devLine : String := "FROM $\x7b_DEV_CONTAINERS_BASE_IMAGE\x7d AS dev_containers_target_stage"

def devArgs : HashMap String String := argMap ["_DEV_CONTAINERS_BASE_IMAGE=base"]

theorem devLine_resolved_alike :
    resolveLine ((MapOrder.sorted String).entries devArgs) devLine =
      substituteBuildArgs devLine devArgs := by
  have parts_eq : pieces devLine = "FROM ".toList.map .copied ++
      .braced "_DEV_CONTAINERS_BASE_IMAGE" ::
        " AS dev_containers_target_stage".toList.map .copied := by
    decide +kernel
  have keys_eq : devArgs.keys = {"_DEV_CONTAINERS_BASE_IMAGE"} := by decide
  have name_iff : ∀ name, name ∈ devArgs ↔ name = "_DEV_CONTAINERS_BASE_IMAGE" := by
    intro name
    rw [← Finmap.mem_keys, keys_eq, Finset.mem_singleton]
  have is_name : IsName "_DEV_CONTAINERS_BASE_IMAGE" := by decide
  have from_line : startsFrom devLine = true := by decide +kernel
  have ascii : ∀ char ∈ devLine.toList, char.toNat < 128 :=
    List.forall_iff_forall_mem.mp (by decide)
  refine ((from_line_resolved_alike from_line ascii ?_).1 ?_ (MapOrder.sorted String)).1
  · intro name member
    rw [name_iff]
    simpa [parts_eq] using member
  · refine onlyReferencesFit_of_enclosed ?_ ?_ ?_
    · intro name member
      rwa [(name_iff name).mp member]
    · intro name value found
      have member : name ∈ devArgs := by
        rw [HashMap.mem_iff_lookup_ne_none, found]
        exact Option.some_ne_none value
      obtain rfl := (name_iff name).mp member
      obtain rfl : "base" = value := Option.some.inj found
      decide
    · rw [parts_eq]
      decide

/-- Two arguments, one of which has a name that begins with the name of the other. -/
def prefixArgs : HashMap String String := argMap ["A=alpine", "AB=busybox"]

theorem prefixArgs_entries :
    (MapOrder.startingWith String ["A", "AB"] (by decide)).entries prefixArgs =
      [("A", "alpine"), ("AB", "busybox")] := by
  have keys_eq : prefixArgs.keys = {"A", "AB"} := by decide
  have no_others : (prefixArgs.keys.sort (· ≤ ·)).filter (· ∉ ["A", "AB"]) = [] := by
    rw [List.filter_eq_nil_iff]
    intro key member
    rw [Finset.mem_sort, keys_eq] at member
    simp only [Finset.mem_insert, Finset.mem_singleton] at member
    simp [member]
  simp only [MapOrder.startingWith, no_others]
  rfl

/-- `$A` is replaced in `$AB` before `$AB` is. -/
theorem shorter_name_replaced_first :
    ¬∀ order : MapOrder String String,
      resolveLine (order.entries prefixArgs) "FROM $AB" =
        substituteBuildArgs "FROM $AB" prefixArgs := by
  intro alike
  have shorter_first := alike (MapOrder.startingWith String ["A", "AB"] (by decide))
  rw [prefixArgs_entries] at shorter_first
  revert shorter_first
  decide

end Pelagos.DockerShim
