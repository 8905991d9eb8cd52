import Pelagos.DockerShim.Cache
import Pelagos.DockerShim.Invocations

/-!
# Signals to port proxies

A detached run with published ports leaves a port proxy behind and keeps its process number in the
container cache.  `docker stop` and `docker rm` send a signal to the number they find there.  Only
`docker rm` takes the number out of the cache, so a number is used again after a `docker stop`, when
its process has ended and the system may have given the number to another one.
-/

namespace Pelagos.DockerShim

open Serde

/-- What `cmd_run` learns from its subprocesses and the clock. -/
structure RunOutcome where
  /-- The process number of the port proxy, unless it could not be started. -/
  spawned : Option UInt32
  /-- The exit code of `pelagos`, unless a signal ended it or it could not be started. -/
  exit : Option Int
  startedAt : String

/-- A call of the shim, with what it meets. -/
inductive ShimCall where
  | run (surroundings : Surroundings) (opts : RunOpts) (outcome : RunOutcome) (order : CacheOrder)
  | stop (name : String) (exit : Option Int)
  | rm (name : String) (exit : Option Int) (order : CacheOrder)

/-- What a call returns, the process number it sends `SIGTERM` to, and the cache file it leaves. -/
structure ShimResult where
  exit : Int
  signal : Option UInt32
  file : List UInt8

/-- Read the cache, change it and write it if there is something to write. -/
def changeCache (order : CacheOrder) (call : CacheCall) (file : List UInt8) : List UInt8 :=
  match call.saves (loadShimContainers file) with
  | some containers => Utf8.encode (shimContainersText order containers)
  | none => file

/-- `kill_proxy_for_container`: the process number that gets the signal. -/
def killProxyForContainer (file : List UInt8) (name : String) : Option UInt32 :=
  ((loadShimContainers file).lookup name).bind CachedContainer.proxyPid

/-- The labels of the cache entry; the last value of a label counts. -/
def labelsForCache (labelArgs : List String) : HashMap String String :=
  labelArgs.foldl (fun labels kv =>
    match Text.splitOnce '=' kv.toList with
    | some (key, value) => labels.insert (String.ofList key) (String.ofList value)
    | none => labels) ∅

/-- The entry of a run that succeeded; only a detached one keeps its proxy. -/
def runEntry (opts : RunOpts) (outcome : RunOutcome) (image : String) : CachedContainer :=
  { image, labels := labelsForCache opts.labelArgs, volSpecs := opts.volumes
    bindSpecs := opts.mounts.filterMap parseMountAsVolume, startedAt := outcome.startedAt
    portSpecs := opts.ports
    proxyPid := if !opts.ports.isEmpty && opts.detach then outcome.spawned else none }

/-- What `cmd_run` does to the cache. -/
def cmdRunResult (surroundings : Surroundings) (opts : RunOpts) (outcome : RunOutcome)
    (order : CacheOrder) (file : List UInt8) : ShimResult :=
  match opts.imageAndArgs with
  | [] => { exit := 1, signal := none, file }
  | image :: _ =>
      let exit := outcome.exit.getD 1
      if exit = 0 then
        { exit, signal := none
          file := changeCache order
            (.cache (effectiveName surroundings opts.name) (runEntry opts outcome image)) file }
      else { exit, signal := none, file }

def cmdStopResult (name : String) (exit : Option Int) (file : List UInt8) : ShimResult :=
  { exit := exit.getD 1, signal := killProxyForContainer file name, file }

def cmdRmResult (name : String) (exit : Option Int) (order : CacheOrder) (file : List UInt8) :
    ShimResult :=
  { exit := exit.getD 1, signal := killProxyForContainer file name
    file := changeCache order (.uncache name) file }

def ShimCall.result (file : List UInt8) : ShimCall → ShimResult
  | run surroundings opts outcome order => cmdRunResult surroundings opts outcome order file
  | stop name exit => cmdStopResult name exit file
  | rm name exit order => cmdRmResult name exit order file

/-! ## Whose proxy gets a signal -/

namespace ShimCall

/-- The container whose proxy is to get a signal. -/
def target : ShimCall → Option String
  | run .. => none
  | stop name _ => some name
  | rm name _ _ => some name

/-- The change to the cache, if the call gets to it. -/
def cacheCall : ShimCall → Option CacheCall
  | run surroundings opts outcome _ =>
      match opts.imageAndArgs with
      | [] => none
      | image :: _ =>
          if outcome.exit.getD 1 = 0 then
            some (.cache (effectiveName surroundings opts.name) (runEntry opts outcome image))
          else none
  | stop _ _ => none
  | rm name _ _ => some (.uncache name)

/-- The process number that the call leaves with the container; none if it leaves the entry as it
is. -/
def stored (call : ShimCall) (name : String) : Option (Option UInt32) :=
  match call.cacheCall with
  | none => none
  | some change =>
      if name = change.name then some (change.value.bind CachedContainer.proxyPid) else none

end ShimCall

/-- The shim's cache over a history of calls.  The runs are numbered; which of them stored a process
number, and whose proxies have been sent a signal, is kept beside the program. -/
structure ShimWorld where
  file : List UInt8
  calls : Nat
  storedBy : String → Option Nat
  signalled : List Nat

namespace ShimWorld

def init (file : List UInt8) : ShimWorld :=
  { file, calls := 0, storedBy := fun _ => none, signalled := [] }

def next (world : ShimWorld) (call : ShimCall) : ShimWorld :=
  let result := call.result world.file
  { file := result.file
    calls := world.calls + 1
    storedBy := fun name =>
      match call.stored name with
      | some pid => pid.map fun _ => world.calls
      | none => world.storedBy name
    signalled :=
      (result.signal.bind fun _ => call.target.bind world.storedBy).toList ++ world.signalled }

/-- The world after a history. -/
def after (file : List UInt8) (history : List ShimCall) : ShimWorld :=
  history.foldl next (init file)

end ShimWorld

/-- What the calls so far mean for the proxy of a container. -/
inductive ProxyPhase where
  /-- No process number is in the cache. -/
  | absent
  | live
  /-- The proxy has been sent its signal, and its number is still in the cache. -/
  | stopped
  deriving DecidableEq

namespace ProxyPhase

def next (name : String) (phase : ProxyPhase) (call : ShimCall) : ProxyPhase :=
  match call.stored name with
  | some (some _) => live
  | some none => absent
  | none => if call.target = some name ∧ phase = live then stopped else phase

/-- The phase after a history. -/
def after (history : List ShimCall) (name : String) : ProxyPhase := history.foldl (next name) absent

end ProxyPhase

/-- No container is stopped or removed after a `docker stop` of it unless it has been run
successfully in between, or its last successful run left no proxy. -/
def RestartedFirst (history : List ShimCall) : Prop :=
  ∀ before call rest, history = before ++ call :: rest →
    ∀ name, call.target = some name → ProxyPhase.after before name ≠ .stopped

/-! ## One call -/

/-- The cache holds the change of the call. -/
theorem load_changeCache (order : CacheOrder) (call : CacheCall) (file : List UInt8) :
    loadShimContainers (changeCache order call file) = call.apply (loadShimContainers file) := by
  rw [changeCache]
  split
  · rename_i containers saves
    rw [loadShimContainers_of_holdsJson ⟨order, rfl⟩, eq_of_saves saves]
  · rename_i saves
    exact (apply_of_saves_none saves).symm

theorem killProxy_changeCache (order : CacheOrder) (call : CacheCall) (file : List UInt8)
    (name : String) :
    killProxyForContainer (changeCache order call file) name =
      if name = call.name then call.value.bind CachedContainer.proxyPid
      else killProxyForContainer file name := by
  rw [killProxyForContainer, load_changeCache, CacheCall.apply, HashMap.lookup_set]
  split <;> rfl

/-- The process number in the cache is that which the call leaves. -/
theorem killProxy_result (call : ShimCall) (file : List UInt8) (name : String) :
    killProxyForContainer (call.result file).file name =
      (call.stored name).getD (killProxyForContainer file name) := by
  cases call with
  | run surroundings opts outcome order =>
      simp only [ShimCall.result, cmdRunResult, ShimCall.stored, ShimCall.cacheCall]
      cases opts.imageAndArgs with
      | nil => rfl
      | cons image cmdArgs =>
          by_cases succeeded : outcome.exit.getD 1 = 0
          · simp only [if_pos succeeded, killProxy_changeCache]
            split <;> rfl
          · simp only [if_neg succeeded]
            rfl
  | stop name exit => rfl
  | rm name exit order =>
      simp only [ShimCall.result, cmdRmResult, ShimCall.stored, ShimCall.cacheCall,
        killProxy_changeCache]
      split <;> rfl

theorem signal_result (call : ShimCall) (file : List UInt8) :
    (call.result file).signal = call.target.bind (killProxyForContainer file) := by
  cases call with
  | run surroundings opts outcome order =>
      simp only [ShimCall.result, cmdRunResult, ShimCall.target]
      split
      · rfl
      · split <;> rfl
  | stop name exit => rfl
  | rm name exit order => rfl

/-- A call changes the entry of one container only. -/
theorem stored_inj {call : ShimCall} {name other : String} {pid otherPid : Option UInt32}
    (stored : call.stored name = some pid) (other_stored : call.stored other = some otherPid) :
    name = other := by
  rw [ShimCall.stored] at stored other_stored
  cases change : call.cacheCall with
  | none => simp [change] at stored
  | some change =>
      simp_all only [Option.ite_none_right_eq_some]

/-! ## Histories -/

/-- The world agrees with the phases of the history. -/
structure Tracks (world : ShimWorld) (history : List ShimCall) : Prop where
  earlier : ∀ name run, world.storedBy name = some run → run < world.calls
  signalled_earlier : ∀ run ∈ world.signalled, run < world.calls
  distinct : ∀ name other run, world.storedBy name = some run → world.storedBy other = some run →
    name = other
  recorded : ∀ name, (world.storedBy name).isSome →
    (killProxyForContainer world.file name).isSome
  phase : ∀ name, ProxyPhase.after history name =
    match world.storedBy name with
    | none => .absent
    | some run => if run ∈ world.signalled then .stopped else .live

theorem tracks_init (file : List UInt8) : Tracks (ShimWorld.init file) [] where
  earlier _ _ stored := by cases stored
  signalled_earlier _ member := by cases member
  distinct _ _ _ stored := by cases stored
  recorded _ stored := by cases stored
  phase _ := rfl

/-- The signal goes to the proxy that the cache records for the target. -/
theorem Tracks.signalled_next {world : ShimWorld} {history : List ShimCall}
    (tracks : Tracks world history) (call : ShimCall) :
    (world.next call).signalled =
      (call.target.bind world.storedBy).toList ++ world.signalled := by
  rw [ShimWorld.next, signal_result]
  cases target : call.target with
  | none => rfl
  | some name =>
      cases stored : world.storedBy name with
      | none =>
          cases killProxyForContainer world.file name <;> simp [stored]
      | some run =>
          have recorded := tracks.recorded name (by simp [stored])
          obtain ⟨pid, found⟩ := Option.isSome_iff_exists.mp recorded
          simp [found, stored]

theorem storedBy_next (world : ShimWorld) (call : ShimCall) (name : String) :
    (world.next call).storedBy name =
      match call.stored name with
      | some pid => pid.map fun _ => world.calls
      | none => world.storedBy name := rfl

/-- A run whose number a container has stored the number now or before. -/
theorem storedBy_next_cases {world : ShimWorld} {call : ShimCall} {name : String} {run : Nat}
    (stored : (world.next call).storedBy name = some run) :
    (run = world.calls ∧ ∃ pid, call.stored name = some (some pid)) ∨
      (world.storedBy name = some run ∧ call.stored name = none) := by
  rw [storedBy_next] at stored
  match call_stored : call.stored name with
  | some (some pid) =>
      rw [call_stored] at stored
      exact .inl ⟨(Option.some.inj stored).symm, pid, rfl⟩
  | some none =>
      rw [call_stored] at stored
      cases stored
  | none =>
      rw [call_stored] at stored
      exact .inr ⟨stored, rfl⟩

/-- The signal of a call goes to no other container's proxy. -/
theorem Tracks.mem_signalled_next {world : ShimWorld} {history : List ShimCall}
    (tracks : Tracks world history) {call : ShimCall} {name : String} {run : Nat}
    (stored : world.storedBy name = some run) :
    run ∈ (world.next call).signalled ↔ call.target = some name ∨ run ∈ world.signalled := by
  rw [tracks.signalled_next, List.mem_append, Option.mem_toList]
  refine or_congr_left ?_
  constructor
  · intro signalled
    obtain ⟨other, target, other_stored⟩ := Option.bind_eq_some_iff.mp signalled
    rw [target, tracks.distinct other name run other_stored stored]
  · intro target
    rw [target, Option.bind_some, stored]

theorem Tracks.phase_next {world : ShimWorld} {history : List ShimCall}
    (tracks : Tracks world history) (call : ShimCall) (name : String) :
    ProxyPhase.next name (ProxyPhase.after history name) call =
      match (world.next call).storedBy name with
      | none => .absent
      | some run => if run ∈ (world.next call).signalled then .stopped else .live := by
  rw [ProxyPhase.next, storedBy_next, tracks.phase name]
  match call_stored : call.stored name with
  | some (some pid) =>
      have fresh : world.calls ∉ (world.next call).signalled := by
        rw [tracks.signalled_next, List.mem_append, Option.mem_toList]
        rintro (signalled | signalled)
        · obtain ⟨other, -, other_stored⟩ := Option.bind_eq_some_iff.mp signalled
          exact absurd (tracks.earlier other _ other_stored) (Nat.lt_irrefl _)
        · exact absurd (tracks.signalled_earlier _ signalled) (Nat.lt_irrefl _)
      exact (if_neg fresh).symm
  | some none => rfl
  | none =>
      cases stored : world.storedBy name with
      | none => simp
      | some run =>
          simp only [tracks.mem_signalled_next stored]
          by_cases target : call.target = some name <;>
            by_cases signalled : run ∈ world.signalled <;> simp [target, signalled]

theorem Tracks.next {world : ShimWorld} {history : List ShimCall} (tracks : Tracks world history)
    (call : ShimCall) : Tracks (world.next call) (history ++ [call]) where
  earlier name run stored := by
    rcases storedBy_next_cases stored with ⟨rfl, -⟩ | ⟨before, -⟩
    · exact Nat.lt_succ_self _
    · exact Nat.lt_succ_of_lt (tracks.earlier name run before)
  signalled_earlier run member := by
    rw [tracks.signalled_next, List.mem_append, Option.mem_toList] at member
    rcases member with signalled | signalled
    · obtain ⟨name, -, stored⟩ := Option.bind_eq_some_iff.mp signalled
      exact Nat.lt_succ_of_lt (tracks.earlier name run stored)
    · exact Nat.lt_succ_of_lt (tracks.signalled_earlier run signalled)
  distinct name other run stored other_stored := by
    rcases storedBy_next_cases stored with ⟨now, pid, call_stored⟩ | ⟨before, -⟩ <;>
      rcases storedBy_next_cases other_stored with
        ⟨other_now, otherPid, other_call⟩ | ⟨other_before, -⟩
    · exact stored_inj call_stored other_call
    · exact absurd (tracks.earlier other run other_before) (by rw [now]; exact Nat.lt_irrefl _)
    · exact absurd (tracks.earlier name run before) (by rw [other_now]; exact Nat.lt_irrefl _)
    · exact tracks.distinct name other run before other_before
  recorded name stored := by
    obtain ⟨run, stored⟩ := Option.isSome_iff_exists.mp stored
    have recorded : killProxyForContainer (world.next call).file name =
        (call.stored name).getD (killProxyForContainer world.file name) := killProxy_result _ _ _
    rcases storedBy_next_cases stored with ⟨-, pid, call_stored⟩ | ⟨before, call_stored⟩
    · rw [recorded, call_stored]
      rfl
    · rw [recorded, call_stored]
      exact tracks.recorded name (by rw [before]; rfl)
  phase name := by
    rw [ProxyPhase.after, List.foldl_append]
    exact tracks.phase_next call name

theorem tracks_after (file : List UInt8) (history : List ShimCall) :
    Tracks (ShimWorld.after file history) history := by
  induction history using List.reverseRecOn with
  | nil => exact tracks_init file
  | append_singleton history call ih =>
      rw [ShimWorld.after, List.foldl_append]
      exact ih.next call

/-! ## One signal for each proxy -/

theorem restartedFirst_append {history : List ShimCall} {call : ShimCall} :
    RestartedFirst (history ++ [call]) ↔ RestartedFirst history ∧
      ∀ name, call.target = some name → ProxyPhase.after history name ≠ .stopped := by
  constructor
  · intro restarted
    refine ⟨fun before other rest history_eq => ?_, restarted history call [] rfl⟩
    exact restarted before other (rest ++ [call]) (by rw [history_eq]; simp)
  · rintro ⟨restarted, last⟩ before other rest history_eq
    rcases List.eq_nil_or_concat' rest with rfl | ⟨front, final, rfl⟩
    · obtain ⟨rfl, same⟩ := List.append_inj' history_eq rfl
      obtain rfl := List.singleton_inj.mp same
      exact last
    · rw [← List.cons_append, ← List.append_assoc] at history_eq
      obtain ⟨history_eq, -⟩ := List.append_inj' history_eq rfl
      exact restarted before other front history_eq

/-- No proxy gets two signals exactly when containers are run again before they are stopped or
removed again. -/
theorem signalled_nodup_iff (file : List UInt8) (history : List ShimCall) :
    (ShimWorld.after file history).signalled.Nodup ↔ RestartedFirst history := by
  induction history using List.reverseRecOn with
  | nil =>
      refine iff_of_true List.nodup_nil ?_
      intro before call rest history_eq
      simp at history_eq
  | append_singleton history call ih =>
      have tracks := tracks_after file history
      have next_eq : ShimWorld.after file (history ++ [call]) =
          (ShimWorld.after file history).next call := by
        rw [ShimWorld.after, List.foldl_append]
        rfl
      rw [restartedFirst_append, ← ih, next_eq, tracks.signalled_next]
      cases target : call.target with
      | none => simp
      | some name =>
          have phase := tracks.phase name
          simp only [Option.some.injEq, forall_eq', Option.bind_some]
          cases stored : (ShimWorld.after file history).storedBy name with
          | none =>
              rw [stored] at phase
              simp [phase]
          | some run =>
              simp only [stored] at phase
              rw [Option.toList_some, List.singleton_append, List.nodup_cons, phase, and_comm]
              by_cases signalled : run ∈ (ShimWorld.after file history).signalled <;>
                simp [signalled]

/-- Over a history of calls that do not overlap, every proxy that a run of the history recorded gets
at most one signal exactly when no container is stopped or removed while the number of a proxy that
has had its signal is recorded for it.  A number that the cache file holds at first is of no run of
the history, and signals to it are not counted. -/
theorem proxy_signalled_once_iff (file : List UInt8) (history : List ShimCall) :
    (∀ run, (ShimWorld.after file history).signalled.count run ≤ 1) ↔ RestartedFirst history := by
  rw [← List.nodup_iff_count_le_one, signalled_nodup_iff]

/-- `docker run -d -p 8080:80 --name web nginx`, whose port proxy is process 4711. -/
def runWeb : ShimCall :=
  .run
    { millis := 0, listed := fun _ => [], polls := 0, resolved := .unchanged, pulled := []
      allPulled := true, isAlphanumeric := Char.isAlphanum }
    { name := some "web", detach := true, volumes := [], mounts := [], env := []
      ports := ["8080:80"], labelArgs := [], entrypoint := none, imageAndArgs := ["nginx"] }
    { spawned := some 4711, exit := some 0, startedAt := "1" } sortedOrder

/-- A second `docker stop` sends the signal to the same process number. -/
theorem proxy_signalled_twice :
    ¬∀ run, (ShimWorld.after [] [runWeb, .stop "web" (some 0),
      .stop "web" (some 1)]).signalled.count run ≤ 1 := by
  rw [← List.nodup_iff_count_le_one, signalled_nodup_iff]
  intro restarted
  exact restarted [runWeb, .stop "web" (some 0)] (.stop "web" (some 1)) [] rfl "web" rfl (by decide)

end Pelagos.DockerShim
