import Pelagos.DockerShim.PortSpecs
import Pelagos.DockerShim.ProxySignals
import Pelagos.DockerShim.PsTable
import Pelagos.DockerShim.VolumeSpecs

/-!
# `docker inspect`

The runtime forgets a container as soon as it has exited, and docker keeps it until `docker rm`.
`docker inspect` closes the gap with the cache: a container that the runtime does not list is
reported as it was run last, unless it has been removed since.
-/

namespace Pelagos.DockerShim

open Serde

/-! ## What is reported -/

/-- One entry of the container's list of mounts. -/
structure MountEntry where
  mountType : String
  source : String
  destination : String
  mode : String
  rw : Bool
  propagation : String
  deriving DecidableEq

/-- The state of a container. -/
structure ContainerState where
  status : String
  running : Bool
  startedAt : String
  deriving DecidableEq

/-- How a container was configured. -/
structure ContainerConfig where
  image : String
  labels : HashMap String String
  user : String
  env : List String
  cmd : List String
  workingDir : String
  entrypoint : Option (List String)
  deriving DecidableEq

/-- The fields of the host configuration that the devcontainer CLI reads. -/
structure HostConfig where
  binds : List String
  portBindings : HashMap String (List PortBinding)
  deriving DecidableEq

/-- The ports of a container. -/
structure NetworkSettings where
  ports : HashMap String (List PortBinding)
  deriving DecidableEq

/-- The report on a container, in the form that docker prints. -/
structure ContainerInspect where
  id : String
  name : String
  created : String
  state : ContainerState
  config : ContainerConfig
  hostConfig : HostConfig
  mounts : List MountEntry
  networkSettings : NetworkSettings
  deriving DecidableEq

/-- The labels that `pelagos inspect` prints. -/
def nativeLabels (native : Option Json) : HashMap String String :=
  match native.bind (·.get "labels") with
  | some (.object members) =>
      members.foldl (fun labels member => labels.insert member.1 (member.2.asStr.getD "")) ∅
  | _ => ∅

/-- The volumes or binds that `pelagos inspect` prints, with the host's paths. -/
def nativeSpecs (native : Option Json) (key : String) (shareMap : List (String × String)) :
    List String :=
  match ((native.bind (·.get "spawn_config")).bind (·.get key)).bind Json.asArray with
  | some specs => (specs.filterMap Json.asStr).map fun spec => translateVolumeSpec spec shareMap
  | none => []

def nativeStartedAt (native : Option Json) : String :=
  ((native.bind (·.get "started_at")).bind Json.asStr).getD ""

/-- The mount of a specification. -/
def mountOf (spec : String) : Option MountEntry :=
  (Text.splitOnce ':' spec.toList).map fun (src, dst) =>
    { mountType := "bind", source := String.ofList src, destination := String.ofList dst, mode := ""
      rw := true, propagation := "rprivate" }

/-- The record that both branches of `cmd_inspect_container` build. -/
def containerInspect (id image startedAt : String) (status : String) (running : Bool)
    (labels : HashMap String String) (specs portSpecs : List String) : ContainerInspect :=
  { id, name := "/" ++ id, created := startedAt, state := { status, running, startedAt }
    config := { image, labels, user := "", env := [], cmd := [], workingDir := ""
                entrypoint := none }
    hostConfig := { binds := specs, portBindings := buildPortsMap portSpecs }
    mounts := specs.filterMap mountOf
    networkSettings := { ports := buildPortsMap portSpecs } }

/-- What `cmd_inspect_container` meets. -/
structure InspectSurroundings where
  maps : CaseMaps
  /-- The output of `pelagos ps --all`, or why it could not be run. -/
  listing : Except String String
  /-- What `pelagos inspect` answers for a container, in time and readable. -/
  native : String → Option Json
  /-- The text of `vm.mounts`, if it can be read. -/
  mountsFile : Option String

namespace InspectSurroundings

/-- A container that `pelagos ps` lists; only its ports come from the cache. -/
def inspectListed (surroundings : InspectSurroundings)
    (cache : HashMap String CachedContainer) (entry : PsEntry) : ContainerInspect :=
  let native := surroundings.native entry.name
  let shareMap := readVmShareMap surroundings.mountsFile
  containerInspect entry.name entry.image (nativeStartedAt native) entry.status
    (entry.status == "running") (nativeLabels native)
    (nativeSpecs native "volume" shareMap ++ nativeSpecs native "bind" shareMap)
    (((cache.lookup entry.name).map CachedContainer.portSpecs).getD [])

/-- A container that only the cache knows. -/
def inspectCached (surroundings : InspectSurroundings) (name : String)
    (cached : CachedContainer) : ContainerInspect :=
  let shareMap := readVmShareMap surroundings.mountsFile
  containerInspect name cached.image cached.startedAt "exited" false cached.labels
    ((cached.volSpecs ++ cached.bindSpecs).map fun spec => translateVolumeSpec spec shareMap)
    cached.portSpecs

/-- The body of the loop over the names. -/
def inspectName (surroundings : InspectSurroundings) (cache : HashMap String CachedContainer)
    (entries : List PsEntry) (name : String) : Option ContainerInspect :=
  match entries.find? fun entry => entry.name == name with
  | some entry => some (surroundings.inspectListed cache entry)
  | none => (cache.lookup name).map (surroundings.inspectCached name)

end InspectSurroundings

/-- What `cmd_inspect_container` prints and returns. -/
structure InspectResult where
  /-- The array on the standard output, if one is printed. -/
  results : Option (List ContainerInspect)
  stderr : List String
  code : Int
  deriving DecidableEq

/-- `docker inspect --type container`. -/
def cmdInspectContainerResult (surroundings : InspectSurroundings) (file : List UInt8)
    (names : List String) : InspectResult :=
  match surroundings.listing with
  | .error reason =>
      { results := none, stderr := ["pelagos-docker inspect: " ++ reason], code := 1 }
  | .ok output =>
      let inspect := surroundings.inspectName (loadShimContainers file)
        (parsePelagosPs surroundings.maps output)
      let missing := names.filter fun name => (inspect name).isNone
      { results := some (names.filterMap inspect)
        stderr := missing.map fun name =>
          "pelagos-docker inspect: container '" ++ name ++ "' not found"
        code := if missing.isEmpty then 0 else 1 }

/-! ## What the history of calls says -/

/-- No call of a history changes what the cache has about a container. -/
def Untouched (name : String) (history : List ShimCall) : Prop :=
  ∀ call ∈ history, ∀ change, call.cacheCall = some change → change.name ≠ name

/-- This is the last successful run of the container, and the container was not removed after
it. -/
def LastRun (history : List ShimCall) (name : String) (run : CachedContainer) : Prop :=
  ∃ before call later, history = before ++ call :: later ∧
    call.cacheCall = some (.cache name run) ∧ Untouched name later

/-- The containers that are reported are those that the runtime lists and those that were run and
not removed.  The runtime says how a container that it lists is; any other one has exited, and is
reported as it was run last. -/
structure InspectContract (surroundings : InspectSurroundings) (entries : List PsEntry)
    (history : List ShimCall) (names : List String) (result : InspectResult) : Prop where
  code : result.code = 0 ↔
    ∀ name ∈ names, (∃ entry ∈ entries, entry.name = name) ∨ ∃ run, LastRun history name run
  /-- The reports come in the order in which they were asked for. -/
  asked : ∃ results, result.results = some results ∧
    (results.map ContainerInspect.id).Sublist names ∧
      ∀ name ∈ names, name ∈ results.map ContainerInspect.id ↔
        (∃ entry ∈ entries, entry.name = name) ∨ ∃ run, LastRun history name run
  listed : ∀ shown ∈ result.results.getD [], ∀ entry,
    entries.find? (fun entry => entry.name == shown.id) = some entry →
      shown.state.status = entry.status ∧ (shown.state.running ↔ entry.status = "running") ∧
        shown.config.image = entry.image ∧
        ∀ run, LastRun history shown.id run →
          shown.networkSettings.ports = buildPortsMap run.portSpecs
  exited : ∀ shown ∈ result.results.getD [], (∀ entry ∈ entries, entry.name ≠ shown.id) →
    ∃ run, LastRun history shown.id run ∧ shown = surroundings.inspectCached shown.id run

/-! ## The cache follows the history -/

/-- What a call does to the cache. -/
theorem load_result (call : ShimCall) (file : List UInt8) :
    loadShimContainers (call.result file).file =
      match call.cacheCall with
      | some change => change.apply (loadShimContainers file)
      | none => loadShimContainers file := by
  cases call with
  | run surroundings opts outcome order =>
      simp only [ShimCall.result, cmdRunResult, ShimCall.cacheCall]
      cases opts.imageAndArgs with
      | nil => rfl
      | cons image cmdArgs =>
          by_cases succeeded : outcome.exit.getD 1 = 0
          · simp only [if_pos succeeded]
            exact load_changeCache _ _ _
          · simp only [if_neg succeeded]
  | stop name exit => rfl
  | rm name exit order => exact load_changeCache order (.uncache name) file

theorem untouched_append {name : String} {history : List ShimCall} {call : ShimCall} :
    Untouched name (history ++ [call]) ↔
      Untouched name history ∧ ∀ change, call.cacheCall = some change → change.name ≠ name := by
  simp only [Untouched, List.forall_mem_append, List.forall_mem_singleton]

/-- One more call is the last run, or leaves it as it is, or removes the container. -/
theorem lastRun_append {history : List ShimCall} {call : ShimCall} {name : String}
    {run : CachedContainer} :
    LastRun (history ++ [call]) name run ↔ call.cacheCall = some (.cache name run) ∨
      LastRun history name run ∧
        ∀ change, call.cacheCall = some change → change.name ≠ name := by
  constructor
  · rintro ⟨before, last, later, split, changes, untouched⟩
    rcases List.eq_nil_or_concat later with rfl | ⟨later, other, rfl⟩
    · obtain rfl := List.singleton_inj.mp (List.append_inj' split rfl).2
      exact .inl changes
    · rw [List.concat_eq_append, untouched_append] at untouched
      rw [List.concat_eq_append, ← List.cons_append, ← List.append_assoc] at split
      obtain ⟨cut, same⟩ := List.append_inj' split rfl
      obtain rfl := List.singleton_inj.mp same
      exact .inr ⟨⟨before, last, later, cut, changes, untouched.1⟩, untouched.2⟩
  · rintro (changes | ⟨⟨before, last, later, split, changes, untouched⟩, other⟩)
    · exact ⟨history, call, [], rfl, changes, fun _ member => by cases member⟩
    · refine ⟨before, last, later ++ [call], by rw [split, List.append_assoc]; rfl, changes, ?_⟩
      exact untouched_append.mpr ⟨untouched, other⟩

/-- The cache has the last run of every container. -/
theorem lookup_after {file : List UInt8} (empty : loadShimContainers file = ∅)
    (history : List ShimCall) (name : String) (run : CachedContainer) :
    (loadShimContainers (ShimWorld.after file history).file).lookup name = some run ↔
      LastRun history name run := by
  induction history using List.reverseRecOn with
  | nil =>
      rw [ShimWorld.after, List.foldl_nil, ShimWorld.init, empty, Finmap.lookup_empty]
      constructor
      · intro found
        cases found
      · rintro ⟨before, call, later, split, -⟩
        exact absurd split.symm (by simp)
  | append_singleton history call ih =>
      rw [ShimWorld.after, List.foldl_concat, ← ShimWorld.after, ShimWorld.next, load_result,
        lastRun_append, ← ih]
      cases changes : call.cacheCall with
      | none => simp
      | some change =>
          simp only [CacheCall.apply, HashMap.lookup_set, Option.some.injEq, forall_eq']
          by_cases same : name = change.name
          · cases change with
            | cache other entry =>
                obtain rfl : name = other := same
                simp [CacheCall.name, CacheCall.value]
            | uncache other =>
                obtain rfl : name = other := same
                simp [CacheCall.name, CacheCall.value]
          · have unlike : change ≠ .cache name run := by
              rintro rfl
              exact same rfl
            simp [same, Ne.symm same, unlike]

/-! ## What is reported about a name -/

variable {surroundings : InspectSurroundings} {cache : HashMap String CachedContainer}
  {entries : List PsEntry} {name : String} {shown : ContainerInspect}

theorem inspectName_id (found : surroundings.inspectName cache entries name = some shown) :
    shown.id = name := by
  unfold InspectSurroundings.inspectName at found
  split at found
  · rename_i entry listed
    obtain rfl := Option.some.inj found
    have same := List.find?_some listed
    exact beq_iff_eq.mp same
  · obtain ⟨cached, -, rfl⟩ := Option.map_eq_some_iff.mp found
    rfl

theorem inspectName_isSome :
    (surroundings.inspectName cache entries name).isSome =
      ((entries.any fun entry => entry.name == name) || (cache.lookup name).isSome) := by
  unfold InspectSurroundings.inspectName
  rw [← List.isSome_find?]
  cases found : entries.find? fun entry => entry.name == name with
  | some entry => rfl
  | none => exact Option.isSome_map

/-- The reports come in the order in which they were asked for. -/
theorem map_id_inspected (names : List String) :
    (names.filterMap (surroundings.inspectName cache entries)).map ContainerInspect.id =
      names.filter fun name =>
        (entries.any fun entry => entry.name == name) || (cache.lookup name).isSome := by
  induction names with
  | nil => rfl
  | cons name names ih =>
      have known := @inspectName_isSome surroundings cache entries name
      cases found : surroundings.inspectName cache entries name with
      | none =>
          rw [found] at known
          rw [List.filterMap_cons_none found, List.filter_cons_of_neg (by simp [← known]), ih]
      | some shown =>
          rw [found] at known
          rw [List.filterMap_cons_some found, List.filter_cons_of_pos (by simp [← known]),
            List.map_cons, inspectName_id found, ih]

/-- Whatever the runtime lists and whatever `docker run`, `stop` and `rm` did before, the report is
the one that the history calls for. -/
theorem inspect_follows_history {file : List UInt8} (empty : loadShimContainers file = ∅)
    (history : List ShimCall) (surroundings : InspectSurroundings) {output : String}
    (listing : surroundings.listing = .ok output) (names : List String) :
    InspectContract surroundings (parsePelagosPs surroundings.maps output) history names
      (cmdInspectContainerResult surroundings (ShimWorld.after file history).file names) := by
  have remembered := lookup_after empty history
  simp only [cmdInspectContainerResult, listing]
  generalize loadShimContainers (ShimWorld.after file history).file = cache at remembered ⊢
  generalize parsePelagosPs surroundings.maps output = entries
  have known : ∀ name, (surroundings.inspectName cache entries name).isSome ↔
      (∃ entry ∈ entries, entry.name = name) ∨ ∃ run, LastRun history name run := by
    intro name
    rw [inspectName_isSome, Bool.or_eq_true, List.any_eq_true, Option.isSome_iff_exists]
    simp only [remembered, beq_iff_eq]
  constructor
  case code =>
    have all_known : (names.filter fun name =>
        (surroundings.inspectName cache entries name).isNone).isEmpty ↔
          ∀ name ∈ names, (surroundings.inspectName cache entries name).isSome := by
      simp [List.isEmpty_iff, List.filter_eq_nil_iff, Option.isSome_iff_ne_none]
    have zero_iff : (if (names.filter fun name =>
        (surroundings.inspectName cache entries name).isNone).isEmpty then (0 : Int) else 1) = 0 ↔
          (names.filter fun name =>
            (surroundings.inspectName cache entries name).isNone).isEmpty := by
      split <;> simp_all
    rw [zero_iff, all_known]
    exact forall₂_congr fun name _ => known name
  case asked =>
    refine ⟨_, rfl, ?_, fun name member => ?_⟩
    · rw [map_id_inspected]
      exact List.filter_sublist
    · rw [map_id_inspected, List.mem_filter, and_iff_right member, ← inspectName_isSome, known]
  case listed =>
    intro shown member entry listed
    obtain ⟨name, -, found⟩ := List.mem_filterMap.mp member
    obtain rfl := inspectName_id found
    rw [InspectSurroundings.inspectName, listed] at found
    obtain built := Option.some.inj found
    rw [← built, InspectSurroundings.inspectListed]
    refine ⟨rfl, beq_iff_eq, rfl, fun run last => ?_⟩
    have cached := (remembered entry.name run).mpr last
    rw [cached]
    rfl
  case exited =>
    intro shown member unlisted
    obtain ⟨name, -, found⟩ := List.mem_filterMap.mp member
    obtain rfl := inspectName_id found
    have absent : (entries.find? fun entry => entry.name == shown.id) = none := by
      simpa using unlisted
    rw [InspectSurroundings.inspectName, absent] at found
    obtain ⟨run, cached, built⟩ := Option.map_eq_some_iff.mp found
    exact ⟨run, (remembered shown.id run).mp cached, built.symm⟩

/-- Right after it was run, and with nothing in the listing, a container is reported as exited. -/
theorem exited_web_inspected :
    InspectContract ⟨asciiCase, .ok "", fun _ => none, none⟩ (parsePelagosPs asciiCase "") [runWeb]
      ["web"] (cmdInspectContainerResult ⟨asciiCase, .ok "", fun _ => none, none⟩
        (ShimWorld.after [] [runWeb]).file ["web"]) :=
  inspect_follows_history rfl [runWeb] ⟨asciiCase, .ok "", fun _ => none, none⟩ rfl ["web"]

end Pelagos.DockerShim
