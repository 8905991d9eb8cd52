import Pelagos.Wire.Handlers

/-!
# One last response for every line

The answer to a line ends with one response that tells the host that it is over: an exit, an error,
a pong, a version or a status.  No process that the guest starts can change that, except by closing
its standard input early or by filling a pipe that the guest does not read yet.
-/

namespace Pelagos.Wire.Guest

open Serde Writing

/-- The answer has exactly one terminal response, and it is the last that is written. -/
abbrev Answers {α : Type} (reply : Reply α) : Prop := Concludes Output.IsTerminal reply

/-- No attempt that is made to pull the image stalls. -/
def PullEndsFrom (system : System) (image : String) : Nat → Prop
  | 0 => True
  | left + 1 =>
      match system.pull (pullCommand system image) (pullAttempts - left) with
      | .error _ => True
      | .ok child =>
          ¬ child.Stalls system ∧ (succeeded child.status = false → PullEndsFrom system image left)

/-- One of the attempts succeeds before the program cannot be started. -/
def PullSucceedsFrom (system : System) (image : String) : Nat → Prop
  | 0 => False
  | left + 1 =>
      match system.pull (pullCommand system image) (pullAttempts - left) with
      | .error _ => False
      | .ok child => succeeded child.status = true ∨ PullSucceedsFrom system image left

def PullEnds (system : System) (image : String) : Prop :=
  imageCachedLocally system image = true ∨ PullEndsFrom system image pullAttempts

def PullSucceeds (system : System) (image : String) : Prop :=
  imageCachedLocally system image = true ∨ PullSucceedsFrom system image pullAttempts

/-- No attempt stalls to pull an image that is reached. -/
def PullsEnd (system : System) : List String → Prop
  | [] => True
  | base :: bases => PullEnds system base ∧ (PullSucceeds system base → PullsEnd system bases)

/-- The child reads all of its standard input or leaves it in the pipe; or the input fits the pipe
and the child does not close its end before it is written. -/
def Takes (system : System) (child : FedChild) (stdinData : List UInt8) : Prop :=
  match child.feeding with
  | .taken => True
  | .blocked => stdinData.length ≤ system.pipeCapacity
  | .failed _ => False

/-- What a command asks of the processes it starts. -/
def ServedCommand (system : System) : GuestCommand → Prop
  | .run image .. => PullEnds system image
  | .build _ dockerfile buildArgs _ _ =>
      ∀ tar, system.extract (extractCommand system) = .ok tar → ¬ tar.Fails →
        PullsEnd system (imagesToPull system dockerfile buildArgs)
  | .imageLogin registry username password =>
      ∀ child, system.streamFed (loginCommand system registry username) = .ok child →
        Takes system child (Utf8.encode password)
  | .cpTo container dst dataSize =>
      ∀ pid, enterContainer system container = .ok pid →
        ∀ tar, system.receiveIn pid (receiveCommand dst) = .ok tar → ¬ tar.Stalls system dataSize
  | _ => True

/-- What a line asks: to be a text, and what its command asks. -/
def Served (system : System) (line : List UInt8) : Prop :=
  match Utf8.decode line with
  | none => False
  | some text =>
      match GuestCommand.ofLine (trimLine text) with
      | .error _ => True
      | .ok cmd => ServedCommand system cmd

/-! ## Responses -/

theorem answers_respond {response : GuestResponse} (terminal : response.IsTerminal) :
    Answers (respond response) := concludes_write terminal

theorem answers_error (message : String) : Answers (respond (.error message)) :=
  answers_respond trivial

theorem answers_handleVersion (system : System) : Answers (handleVersion system) :=
  concludes_write trivial

theorem answers_handleKubernetesStatus (system : System) :
    Answers (handleKubernetesStatus system) := concludes_write trivial

theorem quiet_stream (kind : StreamKind) (data : String) :
    Quiet Output.IsTerminal (respond (.stream kind data)) := quiet_write id

theorem quiet_progress (lines : List (List UInt8)) :
    Quiet Output.IsTerminal (writeAll (progress lines)) := by
  intro item member terminal
  obtain ⟨line, -, rfl⟩ := List.mem_map.mp member
  exact terminal

/-- After something quiet that returns, the rest must answer. -/
theorem answers_after {first : Reply Unit} {next : Unit → Reply Unit}
    (quiet : Quiet Output.IsTerminal first) (returned : first.ending = .returned ()) :
    Answers (first >>= next) ↔ Answers (next ()) := by
  rw [Answers, concludes_bind_iff quiet]
  constructor
  · rintro ⟨⟨⟩, -, answers⟩
    exact answers
  · exact fun answers => ⟨(), returned, answers⟩

theorem answers_after_stream (kind : StreamKind) (data : String) (next : Unit → Reply Unit) :
    Answers (respond (.stream kind data) >>= next) ↔ Answers (next ()) :=
  answers_after (quiet_stream kind data) rfl

/-! ## Streamed output -/

theorem StreamedChild.answers (child : StreamedChild) :
    Answers (writeAll (child.final.sent.map Output.response)) := by
  have forwards : StreamedExec.Forwards child.output child.status child.final :=
    Execution.invariant_of_run (fun forwards stepped => forwards.step stepped)
      (StreamedExec.forwards_start _ _) child.execution
  obtain ⟨data, all_data, sent_eq⟩ := forwards.exit_last
  rw [if_pos child.returned] at sent_eq
  refine ⟨data.map Output.response, .response (.exit (child.status.getD (-1))), ?_, trivial, ?_⟩
  · rw [sent_eq, List.map_append]
    rfl
  · intro item member terminal
    obtain ⟨response, is_data, rfl⟩ := List.mem_map.mp member
    obtain ⟨kind, text, rfl⟩ := all_data response is_data
    exact terminal

theorem answers_spawnAndStream (system : System) (cmd : Command) :
    Answers (spawnAndStream system cmd) := by
  rw [spawnAndStream]
  split
  · exact answers_respond trivial
  · rename_i child _
    exact child.answers

theorem answers_streamWithStdin_iff (system : System) (cmd : Command) (stdinData : List UInt8) :
    Answers (spawnAndStreamWithStdin system cmd stdinData) ↔
      ∀ child, system.streamFed cmd = .ok child → Takes system child stdinData := by
  rw [spawnAndStreamWithStdin]
  cases spawned : system.streamFed cmd with
  | error error => exact iff_of_true (answers_respond trivial) (by simp)
  | ok child =>
      simp only [Except.ok.injEq, forall_eq']
      rw [Takes]
      cases feeding : child.feeding with
      | taken => exact iff_of_true child.answers trivial
      | failed error =>
          refine iff_of_false (fun answers => answers.not_quiet ?_) id
          exact fun item member => nomatch member
      | blocked =>
          by_cases full : system.pipeCapacity < stdinData.length
          · simp only [full, if_true]
            refine iff_of_false (fun answers => answers.not_quiet ?_) (by omega)
            exact fun item member => nomatch member
          · simp only [full, if_false]
            exact iff_of_true child.answers (by omega)

theorem answers_runDetached (system : System) (cmd : Command) :
    Answers (runDetached system cmd) := by
  rw [runDetached]
  split
  · exact answers_respond trivial
  · dsimp only
    split
    · exact (answers_after_stream _ _ _).mpr (answers_respond trivial)
    · exact answers_respond trivial

/-! ## Pulls -/

theorem settles_pullFrom (system : System) (image : String) (left : Nat) (error : String) :
    Settles Output.IsTerminal (PullEndsFrom system image left) (PullSucceedsFrom system image left)
      (pullFrom system image left error) := by
  induction left generalizing error with
  | zero =>
      refine ⟨fun never => absurd trivial never, fun _ never => never.elim, fun _ _ => ⟨?_, rfl⟩⟩
      exact (concludes_bind_pure_iff _).mpr (answers_respond trivial)
  | succ left ih =>
      rw [pullFrom, PullEndsFrom, PullSucceedsFrom]
      cases system.pull (pullCommand system image) (pullAttempts - left) with
      | error spawn_error =>
          refine ⟨fun never => absurd trivial never, fun _ never => never.elim,
            fun _ _ => ⟨?_, rfl⟩⟩
          exact (concludes_bind_pure_iff _).mpr (answers_respond trivial)
      | ok child =>
          by_cases stalls : child.Stalls system
          · simp only [stalls, if_true, not_true_eq_false, false_and]
            exact ((settles_wait _ _).after (quiet_progress _) rfl)
          · simp only [stalls, if_false, not_false_eq_true, true_and]
            refine Settles.after (Settles.after ?_ (quiet_progress _) rfl) (quiet_progress _) rfl
            by_cases success : succeeded child.status = true
            · rw [if_pos success]
              exact settles_true.congr (by simp [success]) (by simp [success])
            · rw [if_neg success]
              exact (ih _).congr (by simp [success]) (by simp [success])

theorem settles_pullImage (system : System) (image : String) :
    Settles Output.IsTerminal (PullEnds system image) (PullSucceeds system image)
      (pullImage system image) := by
  rw [pullImage]
  by_cases cached : imageCachedLocally system image = true
  · rw [if_pos cached]
    exact settles_true.congr (by simp [PullEnds, cached]) (by simp [PullSucceeds, cached])
  · rw [if_neg cached]
    exact (settles_pullFrom system image pullAttempts "").congr (or_iff_right cached)
      (or_iff_right cached)

theorem settles_pullAll (system : System) (bases : List String) :
    Settles Output.IsTerminal (PullsEnd system bases) (∀ base ∈ bases, PullSucceeds system base)
      (pullAll system bases) := by
  induction bases with
  | nil => exact settles_true.congr Iff.rfl (by simp)
  | cons base bases ih =>
      exact ((settles_pullImage system base).bind ih).congr Iff.rfl List.forall_mem_cons

theorem answers_runContainer_iff (system : System) (image : String) (args : List String)
    (env : HashMap String String) (mounts : List GuestMount) (name : Option String) (detach : Bool)
    (labels publish : List String) (network : Option String) (dns : List String) :
    Answers (runContainer system image args env mounts name detach labels publish network dns) ↔
      PullEnds system image := by
  refine ((settles_pullImage system image).concludes_iff _).trans (and_iff_left fun _ => ?_)
  cases detach
  · exact answers_spawnAndStream system _
  · exact answers_runDetached system _

theorem answers_handleBuild_iff (system : System) (dirs : ∀ path, system.createDirAll path = true)
    (tag dockerfile : String) (buildArgs : List String) (noCache : Bool) :
    Answers (handleBuild system tag dockerfile buildArgs noCache) ↔
      ∀ tar, system.extract (extractCommand system) = .ok tar → ¬ tar.Fails →
        PullsEnd system (imagesToPull system dockerfile buildArgs) := by
  rw [handleBuild, if_neg (by simp [dirs])]
  cases system.extract (extractCommand system) with
  | error error => exact iff_of_true (answers_respond trivial) (by simp)
  | ok tar =>
      simp only [Except.ok.injEq, forall_eq']
      by_cases fails : tar.Fails
      · simp only [fails, if_true, not_true_eq_false, false_imp_iff, iff_true]
        exact answers_respond trivial
      · simp only [fails, if_false, not_false_eq_true, true_imp_iff]
        refine ((settles_pullAll system _).concludes_iff _).trans (and_iff_left fun _ => ?_)
        exact answers_spawnAndStream system _

/-! ## Removed containers -/

theorem pruneContainers_quiet (system : System) (entries : List (String × Option String))
    (removed : Nat) :
    Quiet Output.IsTerminal (pruneContainers system entries removed) ∧
      ∃ count, (pruneContainers system entries removed).ending = .returned count := by
  have after_stream (kind : StreamKind) (data : String) {next : Reply Nat}
      (quiet : Quiet Output.IsTerminal next ∧ ∃ count, next.ending = .returned count) :
      Quiet Output.IsTerminal (respond (.stream kind data) >>= fun _ => next) ∧
        ∃ count, (respond (.stream kind data) >>= fun _ => next).ending = .returned count := by
    have written : (respond (.stream kind data)).ending = .returned () := rfl
    refine ⟨quiet_bind (quiet_stream kind data) fun _ _ => quiet.1,
      quiet.2.imp fun _ returned => ?_⟩
    exact (bind_of_returned written fun _ => next).2.trans returned
  induction entries generalizing removed with
  | nil => exact ⟨quiet_pure removed, removed, rfl⟩
  | cons entry entries ih =>
      obtain ⟨name, state⟩ := entry
      rw [pruneContainers]
      split
      · exact ih removed
      · split
        · split
          · exact after_stream _ _ (ih (removed + 1))
          · exact after_stream _ _ (ih removed)
        · exact after_stream _ _ (ih removed)

theorem answers_containerPrune (system : System) : Answers (containerPrune system) := by
  obtain ⟨quiet, count, returned⟩ := pruneContainers_quiet system system.containerStates 0
  refine concludes_bind quiet returned ?_
  exact (answers_after_stream _ _ _).mpr (answers_respond trivial)

/-! ## Copies -/

theorem answers_handleCpFrom (system : System) (container src : String) :
    Answers (handleCpFrom system container src) := by
  rw [handleCpFrom]
  split
  · exact answers_respond trivial
  · split
    · exact answers_respond trivial
    · split
      · exact answers_respond trivial
      · refine (answers_after (quiet_write id) rfl).mpr ?_
        exact (answers_after (quiet_write id) rfl).mpr (answers_respond trivial)

theorem answers_handleCpTo_iff (system : System) (container dst : String) (dataSize : UInt64) :
    Answers (handleCpTo system container dst dataSize) ↔
      ∀ pid, enterContainer system container = .ok pid →
        ∀ tar, system.receiveIn pid (receiveCommand dst) = .ok tar →
          ¬ tar.Stalls system dataSize := by
  rw [handleCpTo]
  cases enterContainer system container with
  | error error => exact iff_of_true (answers_respond trivial) (by simp)
  | ok pid =>
      simp only [Except.ok.injEq, forall_eq']
      cases system.receiveIn pid (receiveCommand dst) with
      | error error => exact iff_of_true (answers_respond trivial) (by simp)
      | ok tar =>
          simp only [Except.ok.injEq, forall_eq']
          have finish : Answers (do
              let text := readToString tar.stderr
              if text ≠ "" then respond (.stream .stderr text)
              respond (.exit (exitCode tar.status))) := by
            dsimp only
            split
            · exact (answers_after_stream _ _ _).mpr (answers_respond trivial)
            · exact answers_respond trivial
          have waiting : ¬ Answers (wait : Reply Unit) := fun answers =>
            answers.not_quiet fun item member => nomatch member
          rw [ReceivingTar.Stalls]
          cases feeding : tar.feeding with
          | taken => exact iff_of_true finish (by simp)
          | failed error =>
              by_cases full : system.pipeCapacity < tar.stderr.length
              · simp only [full, if_true]
                exact iff_of_false waiting (by simp)
              · simp only [full, if_false]
                exact iff_of_true (answers_respond trivial) (by simp)
          | blocked =>
              by_cases full : system.pipeCapacity < dataSize.toNat
              · simp only [full, if_true]
                exact iff_of_false waiting (by simp)
              · simp only [full, if_false]
                exact iff_of_true finish (by simp)

/-! ## Kubernetes -/

/-- What is started before the exit is no response that ends the answer. -/
theorem answers_after_unlessRunning (system : System) (name : String) {start : Reply Unit}
    (quiet : Quiet Output.IsTerminal start) (returned : start.ending = .returned ())
    (next : Unit → Reply Unit) :
    Answers (unlessRunning system name start >>= next) ↔ Answers (next ()) := by
  rw [unlessRunning]
  split
  · exact answers_after (quiet_pure ()) rfl
  · exact answers_after quiet returned

theorem quiet_startForked (args : List String) (env : List (String × String)) :
    Quiet Output.IsTerminal (startForked args env) := quiet_write id

theorem answers_handleKubernetesStart (system : System) :
    Answers (handleKubernetesStart system) := by
  refine (answers_after_unlessRunning system _ ?_ rfl _).mpr ?_
  · exact quiet_bind (quiet_startForked _ _) fun _ _ => quiet_stream _ _
  · refine (answers_after_unlessRunning system _ ?_ rfl _).mpr ?_
    · refine quiet_bind (quiet_startForked _ _) fun _ _ => ?_
      exact quiet_bind (quiet_stream _ _) fun _ _ => quiet_stream _ _
    · refine (answers_after_unlessRunning system _ ?_ rfl _).mpr (answers_respond trivial)
      exact quiet_bind (quiet_startForked _ _) fun _ _ => quiet_stream _ _

theorem answers_handleKubernetesStop : Answers handleKubernetesStop := by
  refine (answers_after (quiet_writeAll fun item member terminal => ?_) rfl).mpr
    (answers_respond trivial)
  obtain ⟨name, -, rfl⟩ := List.mem_map.mp member
  exact terminal

/-! ## The connection -/

theorem answers_flow_iff {flow : Flow} {handler : Reply Unit} {reply : Reply Flow}
    (handled : flow.after handler = some reply) : Answers reply ↔ Answers handler := by
  obtain rfl := Option.some.inj handled
  exact concludes_bind_pure_iff _

theorem answers_handleCommand_iff (system : System)
    (dirs : ∀ path, system.createDirAll path = true) {cmd : GuestCommand} {reply : Reply Flow}
    (handled : handleCommand system cmd = some reply) :
    Answers reply ↔ ServedCommand system cmd := by
  have always {flow : Flow} {handler : Reply Unit} (answers : Answers handler)
      (handled : flow.after handler = some reply) : Answers reply ↔ True :=
    iff_true_intro ((answers_flow_iff handled).mpr answers)
  cases cmd with
  | exec | execInto | shell | subscribe => cases handled
  | start name interactive cmdOverride =>
      rw [handleCommand] at handled
      split at handled
      · cases handled
      · exact always (answers_spawnAndStream system _) handled
  | run image => exact (answers_flow_iff handled).trans (answers_runContainer_iff system image ..)
  | build tag dockerfile buildArgs noCache =>
      exact (answers_flow_iff handled).trans
        (answers_handleBuild_iff system dirs tag dockerfile buildArgs noCache)
  | imageLogin registry username password =>
      exact (answers_flow_iff handled).trans (answers_streamWithStdin_iff system _ _)
  | cpTo container dst dataSize =>
      exact (answers_flow_iff handled).trans (answers_handleCpTo_iff system container dst dataSize)
  | ping =>
      have pong : Answers (respond (.pong true)) := answers_respond trivial
      exact always pong handled
  | version => exact always (answers_handleVersion system) handled
  | kubernetesStatus => exact always (answers_handleKubernetesStatus system) handled
  | containerPrune => exact always (answers_containerPrune system) handled
  | cpFrom container src => exact always (answers_handleCpFrom system container src) handled
  | kubernetesStart => exact always (answers_handleKubernetesStart system) handled
  | kubernetesStop => exact always answers_handleKubernetesStop handled
  | _ => exact always (answers_spawnAndStream system _) handled

/-- Every line that is not empty, and not a command that is answered with frames or events, gets
exactly one terminal response, as the last that is written for it, if and only if the line is a text
and the child that its command feeds takes its input, or the pulls and copies it needs do not
stall. -/
theorem line_answered_iff (system : System) (dirs : ∀ path, system.createDirAll path = true)
    {line : List UInt8} (filled : ∀ text, Utf8.decode line = some text → trimLine text ≠ "")
    {reply : Reply Flow} (handled : handleLine system line = some reply) :
    Concludes Output.IsTerminal reply ↔ Served system line := by
  rw [handleLine] at handled
  rw [Served]
  cases decoded : Utf8.decode line with
  | none =>
      rw [decoded] at handled
      obtain rfl := Option.some.inj handled
      refine iff_of_false (fun answers => answers.not_quiet ?_) id
      exact fun item member => nomatch member
  | some text =>
      simp only [decoded, if_neg (filled text decoded)] at handled
      dsimp only
      cases parsed : GuestCommand.ofLine (trimLine text) with
      | error error =>
          rw [parsed] at handled
          exact iff_true_intro ((answers_flow_iff handled).mpr (answers_error _))
      | ok cmd =>
          rw [parsed] at handled
          exact answers_handleCommand_iff system dirs handled

/-! ## A login -/

theorem handleLine_ofCommand (system : System) (order : MapOrder String String)
    (cmd : Host.GuestCommand) :
    handleLine system (Host.commandLine order cmd) = handleCommand system (mirror cmd) := by
  have filled : cmd.toLine order ≠ "" := Json.toText_object_ne_empty _
  simp only [handleLine, Host.commandLine, Utf8.decode_encode, trimLine_commandLine, if_neg filled,
    ofLine_toLine]

theorem served_ofCommand (system : System) (order : MapOrder String String)
    (cmd : Host.GuestCommand) :
    Served system (Host.commandLine order cmd) ↔ ServedCommand system (mirror cmd) := by
  rw [Served, Host.commandLine, Utf8.decode_encode]
  dsimp only
  rw [trimLine_commandLine, ofLine_toLine]

theorem filled_ofCommand (order : MapOrder String String) (cmd : Host.GuestCommand) :
    ∀ text, Utf8.decode (Host.commandLine order cmd) = some text → trimLine text ≠ "" := by
  intro text decoded
  rw [Host.commandLine, Utf8.decode_encode] at decoded
  obtain rfl := Option.some.inj decoded
  rw [trimLine_commandLine]
  exact Json.toText_object_ne_empty _

/-- A child that writes nothing and exits with 0. -/
def silentChild : StreamedChild where
  output _ := []
  status := some 0
  schedule := [.lineEnds .stdout, .lineEnds .stderr, .main, .main, .main, .main]
  final := (Execution.run StreamedExec.step
    [.lineEnds .stdout, .lineEnds .stderr, .main, .main, .main, .main]
    (.start (fun _ => []) (some 0))).get rfl
  execution := (Option.some_get _).symm
  returned := rfl

/-- A system where only a login can be started. -/
def loginSystem (feeding : Feeding) : System where
  pelagosBin := "/usr/local/bin/pelagos"
  guestVersion := "0"
  errorText _ := "error"
  pipeCapacity := 65536
  micros := 0
  pathExists _ := false
  createDirAll _ := true
  readFile _ := none
  containerStates := []
  output _ := .error "not found"
  status _ := .error "not found"
  stream _ := .error "not found"
  streamFed _ := .ok { silentChild with feeding }
  detach _ := .error "not found"
  pull _ _ := .error "not found"
  extract _ := .error "not found"
  openNsFds _ := .error "not found"
  openRootFd _ := .error "not found"
  parseIntError text := text
  outputIn _ _ := .error "not found"
  receiveIn _ _ := .error "not found"

def loginLine : List UInt8 :=
  Host.commandLine (.sorted String) (.imageLogin "registry.io" "ada" "secret")

theorem handleLine_login (feeding : Feeding) :
    handleLine (loginSystem feeding) loginLine =
      Flow.nextLine.after (handleImageLogin (loginSystem feeding) "registry.io" "ada" "secret") :=
  handleLine_ofCommand _ _ _

theorem login_answered :
    ∃ reply, handleLine (loginSystem .taken) loginLine = some reply ∧
      Concludes Output.IsTerminal reply := by
  have filled := filled_ofCommand (.sorted String) (.imageLogin "registry.io" "ada" "secret")
  refine ⟨_, handleLine_login .taken, ?_⟩
  rw [line_answered_iff (loginSystem .taken) (fun _ => rfl) filled (handleLine_login .taken),
    served_ofCommand]
  intro child spawned
  obtain rfl := Except.ok.inj spawned
  trivial

/-- The child closes its standard input before the password is written: the handler returns without
a response. -/
theorem login_unanswered :
    ∃ reply, handleLine (loginSystem (.failed "Broken pipe")) loginLine = some reply ∧
      reply.written.length = 0 ∧ ¬ Concludes Output.IsTerminal reply := by
  refine ⟨_, handleLine_login (.failed "Broken pipe"), rfl, fun answers => answers.not_quiet ?_⟩
  exact fun item member => nomatch member

end Pelagos.Wire.Guest
