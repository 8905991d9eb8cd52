import Pelagos.CommandLine.Compose

/-!
# Environment variables of a compose file

The guest gets the variables that the compose file uses.  Which names the file uses is found by a
scan that never looks at the environment, so the values of all other variables stay on the host.
-/

namespace Pelagos.CommandLine

/-- The names that the scan from left to right finds. -/
def scannedNames (search : List Char) : List (List Char) :=
  match _found : behindFirst envNeedle search with
  | none => []
  | some rest =>
      match _quoted : Text.splitOnce '"' rest with
      | none => scannedNames rest
      | some (name, behind) => name :: scannedNames behind
termination_by search.length
decreasing_by
  · exact length_behind_envNeedle _found
  · exact (length_behind_quote _quoted).trans (length_behind_envNeedle _found)

/-- Enter a variable that is set. -/
def insertVar (envVar : String → Option String) (result : HashMap String String)
    (name : List Char) : HashMap String String :=
  if name = [] then result
  else
    match envVar (String.ofList name) with
    | some value => result.insert (String.ofList name) value
    | none => result

/-- The loop of `collect_compose_env`, stopped after some turns. -/
def collectTurns (envVar : String → Option String) :
    Nat → List Char → HashMap String String → Option (HashMap String String)
  | 0, _, _ => none
  | turns + 1, search, result =>
      match behindFirst envNeedle search with
      | none => some result
      | some rest =>
          match Text.splitOnce '"' rest with
          | none => collectTurns envVar turns rest result
          | some (name, behind) => collectTurns envVar turns behind (insertVar envVar result name)

/-- The loop ends: every turn leaves less to search. -/
theorem collectTurns_eq (envVar : String → Option String) {turns : Nat} {search : List Char}
    {result : HashMap String String} (enough : search.length < turns) :
    collectTurns envVar turns search result = some (collectEnv envVar search result) := by
  fun_induction collectEnv envVar search result generalizing turns with
  | case1 search result found =>
      obtain ⟨more, rfl⟩ := Nat.exists_eq_add_of_lt enough
      simp only [collectTurns, found]
  | case2 search result rest found unquoted ih =>
      obtain ⟨more, rfl⟩ := Nat.exists_eq_add_of_lt enough
      have shorter := length_behind_envNeedle found
      simp only [collectTurns, found, unquoted]
      exact ih (by omega)
  | case3 search result rest found name behind quoted ih =>
      obtain ⟨more, rfl⟩ := Nat.exists_eq_add_of_lt enough
      have shorter := (length_behind_quote quoted).trans (length_behind_envNeedle found)
      simp only [collectTurns, found, quoted]
      exact ih (by omega)

theorem scannedNames_eq (search : List Char) :
    scannedNames search =
      match behindFirst envNeedle search with
      | none => []
      | some rest =>
          match Text.splitOnce '"' rest with
          | none => scannedNames rest
          | some (name, behind) => name :: scannedNames behind := by
  rw [scannedNames]
  split
  case h_1 found => simp only [found]
  case h_2 rest found =>
    split
    case h_1 unquoted => simp only [found, unquoted]
    case h_2 name behind quoted => simp only [found, quoted]

/-- The environment is asked for the scanned names and nothing else. -/
theorem collectEnv_eq (envVar : String → Option String) (search : List Char)
    (result : HashMap String String) :
    collectEnv envVar search result = (scannedNames search).foldl (insertVar envVar) result := by
  fun_induction collectEnv envVar search result with
  | case1 search result found =>
      rw [scannedNames_eq]
      simp only [found, List.foldl_nil]
  | case2 search result rest found unquoted ih =>
      rw [scannedNames_eq]
      simp only [found, unquoted]
      exact ih
  | case3 search result rest found name behind quoted ih =>
      rw [scannedNames_eq]
      simp only [found, quoted, List.foldl_cons]
      exact ih

/-- The file uses every scanned name. -/
theorem uses_of_scanned {search name : List Char} (scanned : name ∈ scannedNames search) :
    Uses search (String.ofList name) := by
  fun_induction scannedNames search with
  | case1 search found => cases scanned
  | case2 search rest found unquoted ih =>
      obtain ⟨front, rfl⟩ := append_of_behindFirst found
      exact (ih scanned).trans (List.suffix_append _ rest).isInfix
  | case3 search rest found first behind quoted ih =>
      obtain ⟨front, rfl⟩ := append_of_behindFirst found
      obtain ⟨rfl, -⟩ := Text.splitOnce_eq_some quoted
      rcases List.mem_cons.mp scanned with rfl | later
      · exact ⟨front, behind, by simp⟩
      · exact (ih later).trans (((List.suffix_cons '"' behind).trans
          (List.suffix_append first _)).trans (List.suffix_append _ _)).isInfix

/-- A name gets its value in the environment if it is the one that is entered. -/
theorem lookup_insertVar (envVar : String → Option String) (result : HashMap String String)
    (chars : List Char) (name : String) :
    (insertVar envVar result chars).lookup name =
      if name.toList = chars ∧ name ≠ "" then (envVar name).or (result.lookup name)
      else result.lookup name := by
  by_cases same : name.toList = chars
  · subst same
    by_cases empty : name = ""
    · have empty_list : name.toList = [] := by rw [empty]; rfl
      rw [insertVar, if_pos empty_list, if_neg (fun entered => entered.2 empty)]
    · have nonempty_list : name.toList ≠ [] := fun none => empty (String.toList_eq_nil_iff.mp none)
      rw [insertVar, if_neg nonempty_list, if_pos ⟨rfl, empty⟩, String.ofList_toList]
      cases envVar name with
      | none => rfl
      | some value => simp
  · have other : name ≠ String.ofList chars := fun name_eq => same (by rw [name_eq]; simp)
    rw [if_neg (fun entered => same entered.1), insertVar]
    split
    · rfl
    · cases envVar (String.ofList chars) with
      | none => rfl
      | some value => simp [other]

theorem lookup_foldl_insertVar (envVar : String → Option String) (names : List (List Char))
    (result : HashMap String String) (name : String) :
    (names.foldl (insertVar envVar) result).lookup name =
      if name.toList ∈ names ∧ name ≠ "" then (envVar name).or (result.lookup name)
      else result.lookup name := by
  induction names generalizing result with
  | nil => simp
  | cons chars names ih =>
      rw [List.foldl_cons, ih, lookup_insertVar]
      by_cases empty : name = ""
      · simp [empty]
      · by_cases here : name.toList = chars <;> by_cases later : name.toList ∈ names <;>
          cases envVar name <;> simp [empty, here, later]

/-- The map holds the scanned names that are set, with their values. -/
theorem lookup_collectComposeEnv (envVar : String → Option String) (content name : String) :
    (collectComposeEnv envVar (some content)).lookup name =
      if name.toList ∈ scannedNames content.toList ∧ name ≠ "" then envVar name else none := by
  rw [collectComposeEnv, collectEnv_eq, lookup_foldl_insertVar, Finmap.lookup_empty]
  split
  · exact Option.or_none
  · rfl

/-- Variables that the file does not use have no influence. -/
theorem collectComposeEnv_agrees {envVar other : String → Option String} {content : String}
    (agrees : ∀ name, Uses content.toList name → other name = envVar name) :
    collectComposeEnv other (some content) = collectComposeEnv envVar (some content) := by
  refine Finmap.ext_lookup fun name => ?_
  rw [lookup_collectComposeEnv, lookup_collectComposeEnv]
  split
  case isTrue scanned =>
    have used := uses_of_scanned scanned.1
    rw [String.ofList_toList] at used
    exact agrees name used
  case isFalse => rfl

/-- For every compose file the scan ends, the map holds the variables of the scanned names and
nothing else, each of these is used in the file, and no other variable has an influence. -/
theorem compose_env_of_used (envVar : String → Option String) (content : String) :
    (∀ turns > content.toList.length, collectTurns envVar turns content.toList ∅ =
        some (collectComposeEnv envVar (some content))) ∧
      (∀ name value, (collectComposeEnv envVar (some content)).lookup name = some value →
        Uses content.toList name ∧ envVar name = some value) ∧
      (∀ name ∈ scannedNames content.toList, name ≠ [] →
        (collectComposeEnv envVar (some content)).lookup (String.ofList name) =
          envVar (String.ofList name)) ∧
      ∀ other : String → Option String, (∀ name, Uses content.toList name →
        other name = envVar name) →
        collectComposeEnv other (some content) = collectComposeEnv envVar (some content) := by
  refine ⟨fun turns enough => collectTurns_eq envVar enough, ?_, ?_, ?_⟩
  · intro name value found
    obtain ⟨set, text, read, used⟩ := used_of_collectComposeEnv found
    obtain rfl : content = text := Option.some.inj read
    exact ⟨used, set⟩
  · intro name scanned nonempty
    have nonempty_text : String.ofList name ≠ "" := by
      intro empty
      exact nonempty (by simpa using congrArg String.toList empty)
    rw [lookup_collectComposeEnv, String.toList_ofList, if_pos ⟨scanned, nonempty_text⟩]
  · intro other agrees
    exact collectComposeEnv_agrees agrees

/-- Two processes whose environments agree on the variables of the compose file send the guest the
same command. -/
theorem composeCommand_agrees (env : ComposeEnv) (sub : ComposeSubcmd)
    (other : String → Option String) (agrees : ∀ content, env.readFile
      (composeAbsFile env.currentDir sub.file) = some content →
      ∀ name, Uses content.toList name → other name = env.envVar name) :
    composeCommand { env with envVar := other } sub = composeCommand env sub := by
  have same : collectComposeEnv other (env.readFile (composeAbsFile env.currentDir sub.file)) =
      collectComposeEnv env.envVar (env.readFile (composeAbsFile env.currentDir sub.file)) := by
    cases read : env.readFile (composeAbsFile env.currentDir sub.file) with
    | none => rfl
    | some content => exact collectComposeEnv_agrees (agrees content read)
  simp only [composeCommand, same]

end Pelagos.CommandLine
