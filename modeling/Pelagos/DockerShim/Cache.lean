import Pelagos.Library.Execution
import Pelagos.Library.Serde
import Pelagos.Library.Utf8

/-!
# The container cache of the docker shim

Every `pelagos-docker` process reads the whole cache file, changes the entry of one container and
writes the file again: it is truncated first and then written, without a lock.  What a process reads
while another one is between its read and its write is out of date or empty.
-/

namespace Pelagos.DockerShim

open Execution
open Serde

/-- What is kept of a container after the runtime has forgotten it. -/
structure CachedContainer where
  image : String
  labels : HashMap String String
  volSpecs : List String
  bindSpecs : List String
  startedAt : String
  portSpecs : List String
  /-- The port proxy of a detached container. -/
  proxyPid : Option UInt32
  deriving DecidableEq

/-- The orders in which one process visits the entries of its maps. -/
structure CacheOrder where
  containers : MapOrder String CachedContainer
  labels : MapOrder String String

namespace CachedContainer

def toJson (order : CacheOrder) (container : CachedContainer) : Json :=
  .object (record
    [("image", some (.string container.image)),
      ("labels", some (ofMap order.labels .string container.labels)),
      ("vol_specs", some (ofList .string container.volSpecs)),
      ("bind_specs", some (ofList .string container.bindSpecs)),
      ("started_at", some (.string container.startedAt)),
      ("port_specs", skipIf container.portSpecs.isEmpty (ofList .string container.portSpecs)),
      ("proxy_pid", container.proxyPid.map ofUInt32)])

def ofJson : Decoder CachedContainer
  | .object members => do
      return {
        image := ← required string "image" members
        labels := ← required (map string) "labels" members
        volSpecs := ← required (list string) "vol_specs" members
        bindSpecs := ← required (list string) "bind_specs" members
        startedAt := ← required string "started_at" members
        portSpecs := ← defaulted (list string) [] "port_specs" members
        proxyPid := ← defaulted (option uint32) none "proxy_pid" members }
  | _ => .error .invalidType

end CachedContainer

/-- The cache in the contents of the file; an empty or unreadable file is an empty cache. -/
def loadShimContainers (file : List UInt8) : HashMap String CachedContainer :=
  match Utf8.decode file with
  | none => ∅
  | some text =>
      match fromText (map CachedContainer.ofJson) text with
      | .ok containers => containers
      | .error _ => ∅

/-- The text that `save_shim_containers` writes. -/
def shimContainersText (order : CacheOrder) (containers : HashMap String CachedContainer) :
    String :=
  (ofMap order.containers (CachedContainer.toJson order) containers).toText

/-- A call that changes the cache. -/
inductive CacheCall where
  | cache (name : String) (entry : CachedContainer)
  | uncache (name : String)
  deriving DecidableEq

namespace CacheCall

def name : CacheCall → String
  | cache name _ => name
  | uncache name => name

/-- The entry the container is to have afterwards. -/
def value : CacheCall → Option CachedContainer
  | cache _ entry => some entry
  | uncache _ => none

/-- The cache with the call's change. -/
def apply (call : CacheCall) (containers : HashMap String CachedContainer) :
    HashMap String CachedContainer :=
  containers.set call.name call.value

/-- What the call saves after it has read the cache, if it saves anything. -/
def saves (containers : HashMap String CachedContainer) : CacheCall →
    Option (HashMap String CachedContainer)
  | cache name entry => some (containers.insert name entry)
  | uncache name => if name ∈ containers then some (containers.erase name) else none

end CacheCall

/-- Where a process is in its call. -/
inductive CachePhase where
  | entered
  /-- It has read the file and is to save these containers. -/
  | loaded (containers : HashMap String CachedContainer)
  /-- It has truncated the file. -/
  | truncated (containers : HashMap String CachedContainer)
  | returned
  deriving DecidableEq

/-- A `pelagos-docker` process inside its call. -/
structure CacheProcess where
  call : CacheCall
  phase : CachePhase
  deriving DecidableEq

/-- The container the process is about. -/
def CacheProcess.name (process : CacheProcess) : String := process.call.name

/-- The process has read the file and not written it yet. -/
def CacheProcess.Saving (process : CacheProcess) : Prop :=
  process.phase ≠ .entered ∧ process.phase ≠ .returned

instance (process : CacheProcess) : Decidable process.Saving := inferInstanceAs (Decidable (_ ∧ _))

/-- The file and the processes that use it. -/
structure CacheWorld where
  file : List UInt8
  processes : List CacheProcess
  deriving DecidableEq

/-- One system call of the process with the given number. -/
inductive CacheAction where
  | read (process : Nat)
  | truncate (process : Nat)
  | write (process : Nat) (order : CacheOrder)

namespace CacheWorld

/-- The file before any of the calls. -/
def init (file : List UInt8) (calls : List CacheCall) : CacheWorld :=
  { file, processes := calls.map fun call => { call, phase := .entered } }

/-- A process goes on to another phase, and the file may change. -/
def advance (world : CacheWorld) (index : Nat) (process : CacheProcess) (phase : CachePhase)
    (file : List UInt8) : CacheWorld :=
  { file, processes := world.processes.set index { process with phase } }

/-- Writing starts at the beginning of the file, over what is there. -/
def overwrite (file content : List UInt8) : List UInt8 := content ++ file.drop content.length

/-- One step; a process that finds nothing to remove returns without saving. -/
def step (world : CacheWorld) : CacheAction → Option CacheWorld
  | .read index =>
      match world.processes[index]? with
      | some ⟨call, .entered⟩ =>
          some (world.advance index ⟨call, .entered⟩
            (match call.saves (loadShimContainers world.file) with
              | some containers => .loaded containers
              | none => .returned)
            world.file)
      | _ => none
  | .truncate index =>
      match world.processes[index]? with
      | some ⟨call, .loaded containers⟩ =>
          some (world.advance index ⟨call, .loaded containers⟩ (.truncated containers) [])
      | _ => none
  | .write index order =>
      match world.processes[index]? with
      | some ⟨call, .truncated containers⟩ =>
          some (world.advance index ⟨call, .truncated containers⟩ .returned
            (overwrite world.file (Utf8.encode (shimContainersText order containers))))
      | _ => none

/-- All calls have returned. -/
def Finished (world : CacheWorld) : Prop :=
  ∀ process ∈ world.processes, process.phase = .returned

end CacheWorld

/-- The file is the JSON of the containers, written in some order. -/
def HoldsJson (file : List UInt8) (containers : HashMap String CachedContainer) : Prop :=
  ∃ order, file = Utf8.encode (shimContainersText order containers)

/-- A process reads the file while no other one is saving, or it is to remove a container that was
never there. -/
def ReadsAlone (initial : HashMap String CachedContainer) (world : CacheWorld) :
    CacheAction → Prop
  | .read index => (∀ process ∈ world.processes, ¬ process.Saving) ∨
      ∃ name, world.processes[index]? = some ⟨.uncache name, .entered⟩ ∧ name ∉ initial
  | _ => True

/-! ## The file's text -/

namespace CachedContainer

theorem ofJson_toJson (order : CacheOrder) (container : CachedContainer) :
    ofJson (container.toJson order) = .ok container := by
  have labels_read : map string (ofMap order.labels .string container.labels) =
      .ok container.labels := map_ofMap string_string container.labels
  rw [toJson, ofJson]
  simp [labels_read, orDefault_skip_nil, orDefault_map_uint32]

theorem fits_toJson (depth : Nat) (order : CacheOrder) (container : CachedContainer) :
    (container.toJson order).Fits (depth + 2) := by
  have labels_fit : (ofMap order.labels Json.string container.labels).Fits (depth + 1) :=
    fits_ofMap (fun label => fits_string depth label) container.labels
  refine fits_record ?_
  simp [labels_fit]

end CachedContainer

/-- What is saved is read back. -/
theorem loadShimContainers_of_holdsJson {file : List UInt8}
    {containers : HashMap String CachedContainer} (holds : HoldsJson file containers) :
    loadShimContainers file = containers := by
  obtain ⟨order, rfl⟩ := holds
  have fits : (ofMap order.containers (CachedContainer.toJson order) containers).Fits
      Json.depthLimit :=
    fits_ofMap (fun container => container.fits_toJson 124 order) containers
  have parsed : fromText (map CachedContainer.ofJson) (shimContainersText order containers) =
      .ok containers := by
    rw [fromText, shimContainersText, Json.parse_toText fits]
    exact map_ofMap (CachedContainer.ofJson_toJson order) containers
  simp only [loadShimContainers, Utf8.decode_encode, parsed]

/-! ## Updates one at a time -/

/-- The containers are the initial ones with the changes of the calls that have returned. -/
structure Reflects (initial : HashMap String CachedContainer) (processes : List CacheProcess)
    (containers : HashMap String CachedContainer) : Prop where
  named : ∀ (index : Nat) (process : CacheProcess), processes[index]? = some process →
    containers.lookup process.call.name =
      if process.phase = .returned then process.call.value
      else initial.lookup process.call.name
  others : ∀ name ∉ processes.map CacheProcess.name,
    containers.lookup name = initial.lookup name

/-- The call's change to the cache. -/
theorem eq_of_saves {call : CacheCall} {containers saved : HashMap String CachedContainer}
    (saves : call.saves containers = some saved) : saved = call.apply containers := by
  cases call with
  | cache name entry => exact (Option.some.inj saves).symm
  | uncache name =>
      simp only [CacheCall.saves] at saves
      split at saves
      · exact (Option.some.inj saves).symm
      · cases saves

/-- A call that saves nothing changes nothing. -/
theorem apply_of_saves_none {call : CacheCall} {containers : HashMap String CachedContainer}
    (saves : call.saves containers = none) : call.apply containers = containers := by
  cases call with
  | cache name entry => cases saves
  | uncache name =>
      simp only [CacheCall.saves] at saves
      split at saves
      · cases saves
      · rename_i absent
        rw [HashMap.mem_iff_lookup_ne_none, not_not] at absent
        exact HashMap.erase_of_lookup_eq_none absent

/-- A phase does not change what the process is to do. -/
theorem map_call_set {processes : List CacheProcess} {index : Nat} {process : CacheProcess}
    (found : processes[index]? = some process) (phase : CachePhase) :
    (processes.set index { process with phase }).map CacheProcess.call =
      processes.map CacheProcess.call := by
  refine List.ext_getElem? fun position => ?_
  rw [List.getElem?_map, List.getElem?_map, List.getElem?_set]
  split
  · rename_i same
    subst same
    rw [if_pos (List.getElem?_eq_some_iff.mp found).1, found]
    rfl
  · rfl

theorem map_name_set {processes : List CacheProcess} {index : Nat} {process : CacheProcess}
    (found : processes[index]? = some process) (phase : CachePhase) :
    (processes.set index { process with phase }).map CacheProcess.name =
      processes.map CacheProcess.name := by
  have names (list : List CacheProcess) :
      list.map CacheProcess.name = (list.map CacheProcess.call).map CacheCall.name := by
    rw [List.map_map]
    rfl
  rw [names, names, map_call_set found]

section Reflects

variable {initial containers : HashMap String CachedContainer} {processes : List CacheProcess}
  {index : Nat} {process : CacheProcess}

/-- Nothing changes while a call goes on. -/
theorem Reflects.advance (reflects : Reflects initial processes containers)
    (found : processes[index]? = some process) (running : process.phase ≠ .returned)
    {phase : CachePhase} (still : phase ≠ .returned) :
    Reflects initial (processes.set index { process with phase }) containers := by
  refine ⟨fun position other other_found => ?_, ?_⟩
  · rw [List.getElem?_set] at other_found
    split at other_found
    · split at other_found
      · obtain rfl := Option.some.inj other_found
        rw [reflects.named index process found, if_neg running, if_neg still]
      · cases other_found
    · exact reflects.named position other other_found
  · rw [map_name_set found]
    exact reflects.others

/-- A call that returns has made its change. -/
theorem Reflects.return (distinct : (processes.map CacheProcess.name).Nodup)
    (reflects : Reflects initial processes containers)
    (found : processes[index]? = some process) :
    Reflects initial (processes.set index { process with phase := .returned })
      (process.call.apply containers) := by
  have own : (processes.map CacheProcess.name)[index]? = some process.call.name := by
    rw [List.getElem?_map, found]
    rfl
  obtain ⟨bound, -⟩ := List.getElem?_eq_some_iff.mp own
  refine ⟨fun position other other_found => ?_, fun name absent => ?_⟩
  · rw [List.getElem?_set] at other_found
    split at other_found
    · split at other_found
      · obtain rfl := Option.some.inj other_found
        rw [CacheCall.apply, HashMap.lookup_set, if_pos rfl, if_pos rfl]
      · cases other_found
    · rename_i different
      have name_ne : other.call.name ≠ process.call.name := by
        intro same
        have other_own : (processes.map CacheProcess.name)[position]? =
            some process.call.name := by
          rw [List.getElem?_map, other_found, ← same]
          rfl
        exact different ((List.getElem?_inj bound distinct).mp (own.trans other_own.symm))
      rw [CacheCall.apply, HashMap.lookup_set, if_neg name_ne]
      exact reflects.named position other other_found
  · rw [map_name_set found] at absent
    have name_ne : name ≠ process.call.name := by
      rintro rfl
      exact absent (List.mem_of_getElem? own)
    rw [CacheCall.apply, HashMap.lookup_set, if_neg name_ne]
    exact reflects.others name absent

end Reflects

/-- No process but this one is saving. -/
def OnlySaving (processes : List CacheProcess) (index : Nat) : Prop :=
  ∀ (other : Nat) (process : CacheProcess), processes[other]? = some process → other ≠ index →
    ¬ process.Saving

/-- The file holds what the calls that have returned made of it, except while one process saves. -/
inductive FileState (world : CacheWorld) (containers : HashMap String CachedContainer) : Prop where
  | quiet (none_saving : ∀ process ∈ world.processes, ¬ process.Saving)
      (holds : HoldsJson world.file containers)
  | loaded (index : Nat) (call : CacheCall)
      (found : world.processes[index]? = some ⟨call, .loaded (call.apply containers)⟩)
      (alone : OnlySaving world.processes index) (holds : HoldsJson world.file containers)
  | truncated (index : Nat) (call : CacheCall)
      (found : world.processes[index]? = some ⟨call, .truncated (call.apply containers)⟩)
      (alone : OnlySaving world.processes index) (empty : world.file = [])

/-- The invariant of runs in which every process reads the file alone. -/
def Consistent (initial : HashMap String CachedContainer) (world : CacheWorld) : Prop :=
  (world.processes.map CacheProcess.name).Nodup ∧
    ∃ containers, Reflects initial world.processes containers ∧ FileState world containers

theorem OnlySaving.set {processes : List CacheProcess} {index other : Nat}
    (alone : OnlySaving processes index) {process : CacheProcess}
    (quiet : other ≠ index → ¬ process.Saving) :
    OnlySaving (processes.set other process) index := by
  intro position found_process found different
  rw [List.getElem?_set] at found
  split at found
  · rename_i same
    split at found
    · obtain rfl := Option.some.inj found
      exact quiet (same ▸ different)
    · cases found
  · exact alone position found_process found different

theorem onlySaving_of_none {processes : List CacheProcess} (index : Nat)
    (none_saving : ∀ process ∈ processes, ¬ process.Saving) : OnlySaving processes index :=
  fun _ process found _ => none_saving process (List.mem_of_getElem? found)

theorem none_saving_set {processes : List CacheProcess} {index : Nat}
    (alone : OnlySaving processes index) (call : CacheCall) :
    ∀ process ∈ processes.set index ⟨call, .returned⟩, ¬ process.Saving := by
  intro process member
  obtain ⟨position, found⟩ := List.mem_iff_getElem?.mp member
  rw [List.getElem?_set] at found
  split at found
  · split at found
    · obtain rfl := Option.some.inj found
      exact fun saving => saving.2 rfl
    · cases found
  · rename_i different
    exact alone position process found (Ne.symm different)

/-- The process that saves is the only one. -/
theorem OnlySaving.eq {processes : List CacheProcess} {index other : Nat} {process : CacheProcess}
    (alone : OnlySaving processes index) (found : processes[other]? = some process)
    (saving : process.Saving) : other = index := by
  by_contra different
  exact alone other process found different saving

section Steps

variable {initial : HashMap String CachedContainer} {before after : CacheWorld}

/-- A removal of a container that was never there leaves no trace, whatever the file holds. -/
theorem consistent_of_idle_read {index : Nat} {name : String}
    (consistent : Consistent initial before)
    (found : before.processes[index]? = some ⟨.uncache name, .entered⟩) (absent : name ∉ initial)
    (stepped : before.step (.read index) = some after) : Consistent initial after := by
  obtain ⟨distinct, containers, reflects, state⟩ := consistent
  have not_stored : containers.lookup name = none := by
    have unchanged := reflects.named index _ found
    rw [if_neg (by simp)] at unchanged
    rw [HashMap.mem_iff_lookup_ne_none, not_not] at absent
    exact unchanged.trans absent
  have none_saved : (CacheCall.uncache name).saves (loadShimContainers before.file) = none := by
    have not_read : name ∉ loadShimContainers before.file := by
      cases state with
      | quiet _ holds =>
          rw [loadShimContainers_of_holdsJson holds, HashMap.mem_iff_lookup_ne_none]
          simpa using not_stored
      | loaded _ _ _ _ holds =>
          rw [loadShimContainers_of_holdsJson holds, HashMap.mem_iff_lookup_ne_none]
          simpa using not_stored
      | truncated _ _ _ _ empty =>
          rw [empty]
          exact Finmap.notMem_empty
    rw [CacheCall.saves, if_neg not_read]
  simp only [CacheWorld.step, found, none_saved] at stepped
  obtain rfl := Option.some.inj stepped
  have nothing_removed : (CacheCall.uncache name).apply containers = containers :=
    HashMap.erase_of_lookup_eq_none not_stored
  have returned := reflects.return distinct found
  rw [nothing_removed] at returned
  refine ⟨by rwa [CacheWorld.advance, map_name_set found], containers, returned, ?_⟩
  have still_found {position : Nat} {process : CacheProcess}
      (other_found : before.processes[position]? = some process) (saving : process.Saving) :
      (before.processes.set index ⟨.uncache name, .returned⟩)[position]? = some process := by
    rw [List.getElem?_set, if_neg, other_found]
    rintro rfl
    obtain rfl := Option.some.inj (found.symm.trans other_found)
    exact saving.1 rfl
  have returned_quiet : ¬ (CacheProcess.mk (.uncache name) .returned).Saving :=
    fun saving => saving.2 rfl
  cases state with
  | quiet none_saving holds =>
      exact .quiet (none_saving_set (onlySaving_of_none index none_saving) _) holds
  | loaded saver call saver_found alone holds =>
      refine .loaded saver call ?_ (alone.set fun _ => returned_quiet) holds
      exact still_found saver_found (by simp [CacheProcess.Saving])
  | truncated saver call saver_found alone empty =>
      refine .truncated saver call ?_ (alone.set fun _ => returned_quiet) empty
      exact still_found saver_found (by simp [CacheProcess.Saving])

theorem consistent_of_lone_read {index : Nat} (consistent : Consistent initial before)
    (none_saving : ∀ process ∈ before.processes, ¬ process.Saving)
    (stepped : before.step (.read index) = some after) : Consistent initial after := by
  obtain ⟨distinct, containers, reflects, state⟩ := consistent
  have holds : HoldsJson before.file containers := by
    cases state with
    | quiet _ holds => exact holds
    | loaded _ _ _ _ holds => exact holds
    | truncated other call found =>
        exact absurd (by simp [CacheProcess.Saving])
          (none_saving _ (List.mem_of_getElem? found))
  simp only [CacheWorld.step] at stepped
  split at stepped
  · rename_i call found
    obtain rfl := Option.some.inj stepped
    have alone := onlySaving_of_none index none_saving
    rw [loadShimContainers_of_holdsJson holds, CacheWorld.advance]
    have bound := (List.getElem?_eq_some_iff.mp found).1
    refine ⟨by rwa [map_name_set found], ?_⟩
    cases saves : call.saves containers with
    | none =>
        refine ⟨containers, ?_, .quiet (none_saving_set alone call) holds⟩
        have returned := reflects.return distinct found
        rwa [apply_of_saves_none saves] at returned
    | some saved =>
        obtain rfl := eq_of_saves saves
        refine ⟨containers, reflects.advance found (by simp) (by simp), ?_⟩
        refine .loaded index call ?_ ?_ holds
        · simp [bound]
        · exact alone.set fun different => absurd rfl different
  · cases stepped

theorem consistent_of_truncate {index : Nat} (consistent : Consistent initial before)
    (stepped : before.step (.truncate index) = some after) : Consistent initial after := by
  obtain ⟨distinct, containers, reflects, state⟩ := consistent
  simp only [CacheWorld.step] at stepped
  split at stepped
  · rename_i call saved found
    obtain rfl := Option.some.inj stepped
    have saving : (CacheProcess.mk call (.loaded saved)).Saving := by simp [CacheProcess.Saving]
    have bound := (List.getElem?_eq_some_iff.mp found).1
    refine ⟨by rwa [CacheWorld.advance, map_name_set found], containers,
      reflects.advance found (by simp) (by simp), ?_⟩
    cases state with
    | quiet none_saving => exact absurd saving (none_saving _ (List.mem_of_getElem? found))
    | loaded saver other saver_found alone =>
        obtain rfl := alone.eq found saving
        obtain ⟨rfl, saved_eq⟩ :=
          CacheProcess.mk.inj (Option.some.inj (saver_found.symm.trans found))
        obtain rfl := CachePhase.loaded.inj saved_eq
        refine .truncated index other ?_ (alone.set fun different => absurd rfl different) rfl
        simp [CacheWorld.advance, bound]
    | truncated saver other saver_found alone =>
        obtain rfl := alone.eq found saving
        cases saver_found.symm.trans found
  · cases stepped

theorem consistent_of_write {index : Nat} {order : CacheOrder}
    (consistent : Consistent initial before)
    (stepped : before.step (.write index order) = some after) : Consistent initial after := by
  obtain ⟨distinct, containers, reflects, state⟩ := consistent
  simp only [CacheWorld.step] at stepped
  split at stepped
  · rename_i call saved found
    obtain rfl := Option.some.inj stepped
    have saving : (CacheProcess.mk call (.truncated saved)).Saving := by simp [CacheProcess.Saving]
    cases state with
    | quiet none_saving => exact absurd saving (none_saving _ (List.mem_of_getElem? found))
    | loaded saver other saver_found alone =>
        obtain rfl := alone.eq found saving
        cases saver_found.symm.trans found
    | truncated saver other saver_found alone empty =>
        obtain rfl := alone.eq found saving
        obtain ⟨rfl, saved_eq⟩ :=
          CacheProcess.mk.inj (Option.some.inj (saver_found.symm.trans found))
        obtain rfl := CachePhase.truncated.inj saved_eq
        refine ⟨by rwa [CacheWorld.advance, map_name_set found], other.apply containers,
          reflects.return distinct found, .quiet (none_saving_set alone other) ?_⟩
        exact ⟨order, by simp [CacheWorld.advance, CacheWorld.overwrite, empty]⟩
  · cases stepped

theorem consistent_step {action : CacheAction} (consistent : Consistent initial before)
    (alone : ReadsAlone initial before action) (stepped : before.step action = some after) :
    Consistent initial after := by
  cases action with
  | read index =>
      rcases alone with none_saving | ⟨name, found, absent⟩
      · exact consistent_of_lone_read consistent none_saving stepped
      · exact consistent_of_idle_read consistent found absent stepped
  | truncate index => exact consistent_of_truncate consistent stepped
  | write index order => exact consistent_of_write consistent stepped

theorem calls_of_step {action : CacheAction} (stepped : before.step action = some after) :
    after.processes.map CacheProcess.call = before.processes.map CacheProcess.call := by
  cases action <;> simp only [CacheWorld.step] at stepped <;> split at stepped
  all_goals first
    | cases stepped
      done
    | rename_i found
      obtain rfl := Option.some.inj stepped
      exact map_call_set found _

end Steps

/-! ## Whole runs -/

/-- The cache with the changes of all calls. -/
def applyAll (calls : List CacheCall) (containers : HashMap String CachedContainer) :
    HashMap String CachedContainer :=
  calls.foldl (fun containers call => call.apply containers) containers

theorem consistent_init {file : List UInt8} {initial : HashMap String CachedContainer}
    {calls : List CacheCall} (distinct : (calls.map CacheCall.name).Nodup)
    (holds : HoldsJson file initial) : Consistent initial (.init file calls) := by
  have entered : ∀ process ∈ (CacheWorld.init file calls).processes,
      process.phase = .entered := by
    intro process member
    obtain ⟨call, -, rfl⟩ := List.mem_map.mp member
    rfl
  refine ⟨?_, initial, ⟨fun index process found => ?_, fun name _ => rfl⟩, .quiet ?_ holds⟩
  · simpa [CacheWorld.init, Function.comp_def, CacheProcess.name] using distinct
  · rw [entered process (List.mem_of_getElem? found), if_neg (by simp)]
  · exact fun process member saving => saving.1 (entered process member)

/-- When all calls have returned, what the file reflects is the cache with all their changes. -/
theorem eq_applyAll {initial containers : HashMap String CachedContainer}
    {processes : List CacheProcess} (distinct : (processes.map CacheProcess.name).Nodup)
    (returned : ∀ process ∈ processes, process.phase = .returned)
    (reflects : Reflects initial processes containers) :
    containers = applyAll (processes.map CacheProcess.call) initial := by
  have updates_distinct : ((processes.map fun process : CacheProcess =>
      (process.name, process.call.value)).map Prod.fst).Nodup := by
    rw [List.map_map]
    exact distinct
  obtain ⟨given, others⟩ := HashMap.lookup_foldl_set updates_distinct initial
  have applied : applyAll (processes.map CacheProcess.call) initial =
      (processes.map fun process => (process.name, process.call.value)).foldl
        (fun map update => map.set update.1 update.2) initial := by
    rw [applyAll, List.foldl_map, List.foldl_map]
    rfl
  refine Finmap.ext_lookup fun name => ?_
  rw [applied]
  by_cases member : name ∈ processes.map CacheProcess.name
  · obtain ⟨process, is_process, rfl⟩ := List.mem_map.mp member
    obtain ⟨index, found⟩ := List.mem_iff_getElem?.mp is_process
    have value_eq := reflects.named index process found
    rw [if_pos (returned process is_process)] at value_eq
    exact value_eq.trans (given _ (List.mem_map_of_mem is_process)).symm
  · refine (reflects.others name member).trans (others name ?_).symm
    rw [List.map_map]
    exact member

/-- Calls on distinct containers that each read the cache alone leave the JSON of the initial cache
with all their insertions and removals. -/
theorem cache_holds_all_updates {file : List UInt8} {initial : HashMap String CachedContainer}
    (holds : HoldsJson file initial) {calls : List CacheCall}
    (distinct : (calls.map CacheCall.name).Nodup) {actions : List CacheAction} {after : CacheWorld}
    (execution : run CacheWorld.step actions (.init file calls) = some after)
    (alone : Guarded CacheWorld.step (ReadsAlone initial) actions (.init file calls))
    (finished : after.Finished) : HoldsJson after.file (applyAll calls initial) := by
  obtain ⟨after_distinct, containers, reflects, state⟩ :=
    invariant_of_guarded consistent_step (consistent_init distinct holds) alone execution
  have calls_eq : after.processes.map CacheProcess.call = calls := by
    have kept : ∀ {start : CacheWorld}, start.processes.map CacheProcess.call = calls →
        run CacheWorld.step actions start = some after →
        after.processes.map CacheProcess.call = calls :=
      invariant_of_run fun same stepped => (calls_of_step stepped).trans same
    exact kept (by simp [CacheWorld.init, Function.comp_def]) execution
  rw [← calls_eq, ← eq_applyAll after_distinct finished reflects]
  cases state with
  | quiet _ holds => exact holds
  | loaded index call found => cases finished _ (List.mem_of_getElem? found)
  | truncated index call found => cases finished _ (List.mem_of_getElem? found)

/-- Entries in the order of their keys. -/
def sortedOrder : CacheOrder := ⟨.sorted _, .sorted _⟩

/-- The contents of the file when the containers are written in that order. -/
def sortedFile (containers : HashMap String CachedContainer) : List UInt8 :=
  Utf8.encode (shimContainersText sortedOrder containers)

@[simp]
theorem load_sortedFile (containers : HashMap String CachedContainer) :
    loadShimContainers (sortedFile containers) = containers :=
  loadShimContainers_of_holdsJson ⟨sortedOrder, rfl⟩

/-- A container started one second after the epoch. -/
def exampleContainer : CachedContainer :=
  { image := "alpine", labels := ∅, volSpecs := [], bindSpecs := [], startedAt := "1",
    portSpecs := [], proxyPid := none }

/-- One call alone adds its container. -/
theorem cache_holds_one_update :
    HoldsJson (sortedFile ((∅ : HashMap String CachedContainer).insert "web" exampleContainer))
      (applyAll [.cache "web" exampleContainer] ∅) := by
  have execution : run CacheWorld.step [.read 0, .truncate 0, .write 0 sortedOrder]
      (.init (sortedFile ∅) [.cache "web" exampleContainer]) =
        some { file := sortedFile (Finmap.insert "web" exampleContainer ∅),
               processes := [⟨.cache "web" exampleContainer, .returned⟩] } := by
    simp [run, CacheWorld.step, CacheWorld.init, CacheWorld.advance, CacheCall.saves,
      CacheWorld.overwrite]
    rfl
  refine cache_holds_all_updates ⟨sortedOrder, rfl⟩ (by decide) execution ?_ ?_
  · refine ⟨Or.inl ?_, fun _ _ => ⟨trivial, fun _ _ => ⟨trivial, fun _ _ => trivial⟩⟩⟩
    simp [CacheWorld.init, CacheProcess.Saving]
  · simp [CacheWorld.Finished]

/-- Two processes that read the empty cache together: only the last one's container is kept. -/
theorem cache_loses_update :
    ¬ ∀ (file : List UInt8) (initial : HashMap String CachedContainer), HoldsJson file initial →
      ∀ calls : List CacheCall, (calls.map CacheCall.name).Nodup →
      ∀ (actions : List CacheAction) (after : CacheWorld),
        run CacheWorld.step actions (.init file calls) = some after → after.Finished →
        HoldsJson after.file (applyAll calls initial) := by
  intro kept
  have execution : run CacheWorld.step
      [.read 0, .read 1, .truncate 0, .write 0 sortedOrder, .truncate 1, .write 1 sortedOrder]
      (.init (sortedFile ∅) [.cache "web" exampleContainer, .cache "db" exampleContainer]) =
        some { file := sortedFile (Finmap.insert "db" exampleContainer ∅),
               processes := [⟨.cache "web" exampleContainer, .returned⟩,
                 ⟨.cache "db" exampleContainer, .returned⟩] } := by
    simp [run, CacheWorld.step, CacheWorld.init, CacheWorld.advance, CacheCall.saves,
      CacheWorld.overwrite]
    rfl
  have holds : HoldsJson (sortedFile (Finmap.insert "db" exampleContainer ∅)) _ :=
    kept _ ∅ ⟨sortedOrder, rfl⟩ _ (by decide) _ _ execution (by simp [CacheWorld.Finished])
  have same := (load_sortedFile _).symm.trans (loadShimContainers_of_holdsJson holds)
  have web_lost := congrArg (Finmap.lookup "web") same
  simp [applyAll, CacheCall.apply, CacheCall.name, CacheCall.value,
    HashMap.set] at web_lost

end Pelagos.DockerShim
