import Pelagos.Guest.Subscription
import Pelagos.Library.Json

/-!
# Readings that fail

The poller reads `state.json` of every container.  What cannot be read is left out of the reading,
and the comparison takes what is left out for a container that is gone.
-/

namespace Pelagos.Guest

/-- The record in the contents of a `state.json`; unknown keys are ignored. -/
def snapshotOfState (state : Json) : Option ContainerSnapshot :=
  let name := ((state.get "name").bind Json.asStr).getD ""
  if name = "" then none
  else
    some
      { name
        status := ((state.get "status").bind Json.asStr).getD "unknown"
        pid := Int32.ofInt (((state.get "pid").bind Json.asInt64).getD 0)
        rootfs := ((state.get "rootfs").bind Json.asStr).getD ""
        startedAt := ((state.get "started_at").bind Json.asStr).getD ""
        exitCode := ((state.get "exit_code").bind Json.asInt64).map Int32.ofInt
        ports := ((((state.get "spawn_config").bind (Json.get "publish")).bind
          Json.asArray).getD []).filterMap Json.asStr }

/-- The record in the text of a `state.json`. -/
def snapshotOfText (text : String) : Option ContainerSnapshot :=
  (Json.parse text).bind snapshotOfState

/-- What goes wrong with one directory entry. -/
inductive EntryFault where
  /-- The entry or its `state.json` cannot be read. -/
  | unreadable
  /-- Something that is not JSON is read, such as a file that is being rewritten. -/
  | unparsable (text : String) (broken : Json.parse text = none)

/-- The container directory at one poll, and what goes wrong while it is read. -/
structure DirectoryPoll where
  /-- `read_dir` succeeds. -/
  opened : Bool
  /-- The text stored in the `state.json` of each entry, with the fault of reading it. -/
  entries : List (String × Option EntryFault)

/-- The text that reading an entry yields. -/
def readEntry : String × Option EntryFault → Option String
  | (text, none) => some text
  | (_, some .unreadable) => none
  | (_, some (.unparsable text _)) => some text

namespace DirectoryPoll

/-- `read_container_states`: what cannot be read or parsed is skipped. -/
def readContainerStates (poll : DirectoryPoll) : List ContainerSnapshot :=
  if poll.opened then
    (poll.entries.filterMap fun entry => (readEntry entry).bind snapshotOfText).insertionSort
      fun left right => left.name ≤ right.name
  else []

/-- The records that are really stored. -/
def stored (poll : DirectoryPoll) : List ContainerSnapshot :=
  poll.entries.filterMap fun entry => snapshotOfText entry.1

/-- The container is absent from the directory or not stored as running. -/
def Gone (poll : DirectoryPoll) (name : String) : Prop :=
  (∀ container ∈ poll.stored, container.name ≠ name) ∨
    ∃ container ∈ poll.stored, container.name = name ∧ container.running = false

/-- Some record of the name is read without a fault. -/
def Sees (poll : DirectoryPoll) (name : String) : Prop :=
  poll.opened = true ∧ ∃ text container, (text, none) ∈ poll.entries ∧
    snapshotOfText text = some container ∧ container.name = name

/-- Every exit that this poll reports is one. -/
def ExitsTruthful (prev : List ContainerSnapshot) (poll : DirectoryPoll) : Prop :=
  ∀ name exitCode,
    GuestEvent.containerExited name exitCode ∈ diffContainerStates prev poll.readContainerStates →
      poll.Gone name

/-- No container that was listed before and is stored as running is missed. -/
def MissesNoRunning (prev : List ContainerSnapshot) (poll : DirectoryPoll) : Prop :=
  ∀ earlier ∈ prev, ¬poll.Gone earlier.name → poll.Sees earlier.name

theorem readEntry_faulty {text : String} {fault : EntryFault} {container : ContainerSnapshot} :
    ((readEntry (text, some fault)).bind snapshotOfText) ≠ some container := by
  cases fault with
  | unreadable => simp [readEntry]
  | unparsable other broken => simp [readEntry, snapshotOfText, broken]

theorem mem_readContainerStates {poll : DirectoryPoll} {container : ContainerSnapshot} :
    container ∈ poll.readContainerStates ↔
      poll.opened = true ∧ ∃ text, (text, none) ∈ poll.entries ∧
        snapshotOfText text = some container := by
  rw [readContainerStates]
  split
  · rename_i opened
    rw [(List.perm_insertionSort _ _).mem_iff, List.mem_filterMap]
    constructor
    · rintro ⟨⟨text, fault⟩, member, read⟩
      cases fault with
      | none => exact ⟨opened, text, member, read⟩
      | some fault => exact absurd read readEntry_faulty
    · rintro ⟨-, text, member, read⟩
      exact ⟨(text, none), member, read⟩
  · rename_i closed
    exact iff_of_false (by simp) fun found => closed found.1

/-- Only what is stored is read. -/
theorem mem_stored_of_read {poll : DirectoryPoll} {container : ContainerSnapshot}
    (read : container ∈ poll.readContainerStates) : container ∈ poll.stored := by
  obtain ⟨-, text, member, parsed⟩ := mem_readContainerStates.mp read
  exact List.mem_filterMap.mpr ⟨(text, none), member, parsed⟩

theorem sees_iff {poll : DirectoryPoll} {name : String} :
    poll.Sees name ↔ ∃ container ∈ poll.readContainerStates, container.name = name := by
  constructor
  · rintro ⟨opened, text, container, member, parsed, same⟩
    exact ⟨container, mem_readContainerStates.mpr ⟨opened, text, member, parsed⟩, same⟩
  · rintro ⟨container, read, same⟩
    obtain ⟨opened, text, member, parsed⟩ := mem_readContainerStates.mp read
    exact ⟨opened, text, container, member, parsed, same⟩

/-- An exit is reported for a name read as not running, or listed before and not read. -/
theorem exited_cases {prev current : List ContainerSnapshot} {name : String}
    {exitCode : Option Int32}
    (reported : GuestEvent.containerExited name exitCode ∈ diffContainerStates prev current) :
    (∃ container ∈ current, container.name = name ∧ container.running = false) ∨
      (∃ earlier ∈ prev, earlier.name = name) ∧ ∀ container ∈ current, container.name ≠ name := by
  rcases List.mem_append.mp reported with appeared | departed
  · obtain ⟨container, listed, emitted⟩ := List.mem_flatMap.mp appeared
    rw [appearanceEvents] at emitted
    split at emitted
    · cases running : container.running with
      | true => simp [running] at emitted
      | false =>
          obtain ⟨rfl, -⟩ : name = container.name ∧ exitCode = container.exitCode := by
            simpa [running] using emitted
          exact Or.inl ⟨container, listed, rfl, running⟩
    · split at emitted <;> simp at emitted
  · obtain ⟨earlier, listed, emitted⟩ := List.mem_flatMap.mp departed
    rw [departureEvents] at emitted
    split at emitted
    · rename_i absent
      obtain ⟨rfl, -⟩ : name = earlier.name ∧ exitCode = earlier.exitCode := by
        simpa using emitted
      refine Or.inr ⟨⟨earlier, listed, rfl⟩, fun container read => ?_⟩
      simpa using List.find?_eq_none.mp absent container read
    · rename_i container found
      split at emitted
      · rename_i stopped
        obtain ⟨rfl, -⟩ : name = container.name ∧ exitCode = container.exitCode := by
          simpa using emitted
        refine Or.inl ⟨container, List.mem_of_find?_eq_some found, rfl, ?_⟩
        simp only [Bool.and_eq_true, Bool.not_eq_eq_eq_not, Bool.not_true] at stopped
        exact stopped.2
      · simp at emitted

/-- A name that was listed and is not read is reported as exited. -/
theorem exited_of_missed {prev current : List ContainerSnapshot} {earlier : ContainerSnapshot}
    (listed : earlier ∈ prev) (missed : ∀ container ∈ current, container.name ≠ earlier.name) :
    GuestEvent.containerExited earlier.name earlier.exitCode ∈
      diffContainerStates prev current := by
  have absent : (current.find? fun container => container.name = earlier.name) = none := by
    rw [List.find?_eq_none]
    intro container read
    simpa using missed container read
  refine List.mem_append_right _ (List.mem_flatMap.mpr ⟨earlier, listed, ?_⟩)
  rw [departureEvents, absent]
  exact List.mem_singleton_self _

/-- One poll reports no false exit if and only if it misses no running container. -/
theorem exitsTruthful_iff {prev : List ContainerSnapshot} {poll : DirectoryPoll} :
    poll.ExitsTruthful prev ↔ poll.MissesNoRunning prev := by
  constructor
  · intro truthful earlier listed running
    by_contra unseen
    refine running (truthful earlier.name earlier.exitCode (exited_of_missed listed ?_))
    intro container read same
    exact unseen (sees_iff.mpr ⟨container, read, same⟩)
  · intro sees name exitCode reported
    rcases exited_cases reported with
      ⟨container, read, same, stopped⟩ | ⟨⟨earlier, listed, rfl⟩, missed⟩
    · exact Or.inr ⟨container, mem_stored_of_read read, same, stopped⟩
    · by_contra running
      obtain ⟨container, read, same⟩ := sees_iff.mp (sees earlier listed running)
      exact missed container read same

end DirectoryPoll

/-- A condition on every poll and the reading before it, along a run of the poller. -/
def Along (condition : List ContainerSnapshot → DirectoryPoll → Prop) :
    List ContainerSnapshot → List DirectoryPoll → Prop
  | _, [] => True
  | prev, poll :: polls => condition prev poll ∧ Along condition poll.readContainerStates polls

/-- Over every history of the directory and of read errors, the poller reports only containers that
are gone if and only if no poll misses a container that was listed before and is stored as
running. -/
theorem exits_truthful_iff_misses_no_running (first : DirectoryPoll) (polls : List DirectoryPoll) :
    Along (fun prev poll => poll.ExitsTruthful prev) first.readContainerStates polls ↔
      Along (fun prev poll => poll.MissesNoRunning prev) first.readContainerStates polls := by
  suffices equivalent : ∀ prev, Along (fun prev poll => poll.ExitsTruthful prev) prev polls ↔
      Along (fun prev poll => poll.MissesNoRunning prev) prev polls from equivalent _
  induction polls with
  | nil => exact fun prev => Iff.rfl
  | cons poll polls ih =>
      exact fun prev => and_congr DirectoryPoll.exitsTruthful_iff (ih poll.readContainerStates)

/-- The `state.json` of a running container. -/
def webState : String := "\x7b\"name\":\"web\",\"status\":\"running\"\x7d"

/-- The file of a running container is read at one poll and cannot be read at the next. -/
theorem unreadable_container_reported_exited :
    ¬Along (fun prev poll => poll.ExitsTruthful prev)
      (DirectoryPoll.readContainerStates ⟨true, [(webState, none)]⟩)
      [⟨true, [(webState, some .unreadable)]⟩] := by
  rintro ⟨truthful, -⟩
  have reported : GuestEvent.containerExited "web" none ∈ diffContainerStates
      (DirectoryPoll.readContainerStates ⟨true, [(webState, none)]⟩)
      (DirectoryPoll.readContainerStates ⟨true, [(webState, some .unreadable)]⟩) := by
    decide
  have stored : DirectoryPoll.stored ⟨true, [(webState, some .unreadable)]⟩ =
      [⟨"web", "running", 0, "", "", none, []⟩] := by
    rfl
  rcases truthful "web" none reported with absent | ⟨container, listed, -, stopped⟩
  · rw [stored] at absent
    exact absent _ List.mem_cons_self rfl
  · rw [stored] at listed
    obtain rfl := List.mem_singleton.mp listed
    cases stopped

end Pelagos.Guest
