import Pelagos.CommandLine.GuestPaths
import Pelagos.Daemon.ComposePorts
import Pelagos.Wire.Commands

/-!
# `pelagos compose`

All four subcommands share one sequence of steps: register the ports of the command line, hand the
command to the guest, and release whatever ports the daemon tracks for the project.  The sequence
was written for `up`; `ps` and `logs` release the ports of a project that runs.
-/

namespace Pelagos.CommandLine

open Daemon Execution LexicalPath

/-- The subcommands of `pelagos compose`, with their arguments. -/
inductive ComposeSubcmd where
  | up (file : String) (project : Option String) (foreground : Bool)
  | down (file : String) (project : Option String) (removeVolumes : Bool)
  | ps (file : String) (project : Option String)
  | logs (file : String) (project : Option String) (follow : Bool) (service : Option String)
  deriving DecidableEq

namespace ComposeSubcmd

def file : ComposeSubcmd → String
  | up file _ _ | down file _ _ | ps file _ | logs file _ _ _ => file

def project : ComposeSubcmd → Option String
  | up _ project _ | down _ project _ | ps _ project | logs _ project _ _ => project

/-- The name of the subcommand in the guest. -/
def name : ComposeSubcmd → String
  | up .. => "up"
  | down .. => "down"
  | ps .. => "ps"
  | logs .. => "logs"

def extraArgs : ComposeSubcmd → List String
  | up _ _ foreground => if foreground then ["--foreground"] else []
  | down _ _ removeVolumes => if removeVolumes then ["--volumes"] else []
  | ps .. => []
  | logs _ _ follow service => (if follow then ["--follow"] else []) ++ service.toList

/-- The subcommand only asks for information. -/
def isQuery : ComposeSubcmd → Bool
  | ps .. | logs .. => true
  | up .. | down .. => false

end ComposeSubcmd

/-- The name of the parent directory of a path. -/
def parentName (path : String) : Option String :=
  match (components path).reverse with
  | .rootDir :: _ | [] => none
  | _ :: .normal name :: _ => some name
  | _ :: _ => none

/-- `compose_project_name`. -/
def composeProjectName (lowercase : String → String) (file : String) (projectFlag : Option String) :
    String :=
  match projectFlag with
  | some project => project
  | none => ((parentName file).map lowercase).getD "default"

/-- What stands behind the first occurrence of a text. -/
def behindFirst (part : List Char) : List Char → Option (List Char)
  | [] => if part = [] then some [] else none
  | char :: chars =>
      if part.isPrefixOf (char :: chars) then some ((char :: chars).drop part.length)
      else behindFirst part chars

theorem append_of_behindFirst {part chars rest : List Char}
    (found : behindFirst part chars = some rest) : ∃ front, chars = front ++ part ++ rest := by
  induction chars with
  | nil =>
      obtain ⟨rfl, same⟩ : part = [] ∧ [] = rest := by simpa [behindFirst] using found
      exact ⟨[], by simp [same]⟩
  | cons char chars ih =>
      rw [behindFirst] at found
      split at found
      · rename_i here
        obtain ⟨back, chars_eq⟩ := List.isPrefixOf_iff_prefix.mp here
        obtain rfl : back = rest := by simpa [← chars_eq] using found
        exact ⟨[], chars_eq.symm⟩
      · obtain ⟨front, rfl⟩ := ih found
        exact ⟨char :: front, rfl⟩

/-- What a use of an environment variable begins with in a compose file. -/
def envNeedle : List Char := "(env \"".toList

theorem length_behind_envNeedle {chars rest : List Char}
    (found : behindFirst envNeedle chars = some rest) : rest.length < chars.length := by
  obtain ⟨front, rfl⟩ := append_of_behindFirst found
  have needle : envNeedle.length = 6 := rfl
  simp only [List.length_append, needle]
  omega

theorem length_behind_quote {rest name behind : List Char}
    (quoted : Text.splitOnce '"' rest = some (name, behind)) : behind.length < rest.length := by
  obtain ⟨rest_eq, -⟩ := Text.splitOnce_eq_some quoted
  rw [rest_eq, List.length_append, List.length_cons]
  omega

/-- The loop of `collect_compose_env`. -/
def collectEnv (envVar : String → Option String) (search : List Char)
    (result : HashMap String String) : HashMap String String :=
  match _found : behindFirst envNeedle search with
  | none => result
  | some rest =>
      match _quoted : Text.splitOnce '"' rest with
      | none => collectEnv envVar rest result
      | some (name, behind) =>
          collectEnv envVar behind
            (if name = [] then result
            else
              match envVar (String.ofList name) with
              | some value => result.insert (String.ofList name) value
              | none => result)
termination_by search.length
decreasing_by
  · exact length_behind_envNeedle _found
  · exact (length_behind_quote _quoted).trans (length_behind_envNeedle _found)

/-- `collect_compose_env`, for a file that may fail to be read. -/
def collectComposeEnv (envVar : String → Option String) (content : Option String) :
    HashMap String String :=
  match content with
  | none => ∅
  | some content => collectEnv envVar content.toList ∅

/-- The file uses the environment variable. -/
def Uses (text : List Char) (name : String) : Prop := envNeedle ++ name.toList ++ ['"'] <:+: text

theorem collectEnv_lookup {envVar : String → Option String} {search : List Char}
    {result : HashMap String String} {name value : String}
    (found : (collectEnv envVar search result).lookup name = some value) :
    result.lookup name = some value ∨ (envVar name = some value ∧ Uses search name) := by
  fun_induction collectEnv envVar search result with
  | case1 search result _ => exact .inl found
  | case2 search result rest behind _ ih =>
      obtain ⟨front, rfl⟩ := append_of_behindFirst behind
      exact (ih found).imp_right fun ⟨set, uses⟩ =>
        ⟨set, uses.trans (List.suffix_append _ rest).isInfix⟩
  | case3 search result rest behind quotedName last quoted ih =>
      obtain ⟨front, rfl⟩ := append_of_behindFirst behind
      obtain ⟨rfl, -⟩ := Text.splitOnce_eq_some quoted
      have later : ∀ text, Uses last text → Uses (front ++ envNeedle ++ (quotedName ++ '"' :: last))
          text := fun text uses => uses.trans
        (((List.suffix_cons '"' last).trans (List.suffix_append quotedName _)).trans
          (List.suffix_append _ _)).isInfix
      have here : Uses (front ++ envNeedle ++ (quotedName ++ '"' :: last))
          (String.ofList quotedName) := ⟨front, last, by simp⟩
      rcases ih found with before | ⟨set, uses⟩
      · split at before
        · exact .inl before
        · split at before
          · rename_i bound is_set
            rw [HashMap.lookup_insert_eq] at before
            split at before
            · rename_i same
              exact .inr ⟨by rw [same, is_set, before], same ▸ here⟩
            · exact .inl before
          · exact .inl before
      · exact .inr ⟨set, later name uses⟩

/-- Only variables that the compose file uses are handed to the guest. -/
theorem used_of_collectComposeEnv {envVar : String → Option String} {content : Option String}
    {name value : String} (found : (collectComposeEnv envVar content).lookup name = some value) :
    envVar name = some value ∧ ∃ text ∈ content, Uses text.toList name := by
  cases content with
  | none => simp [collectComposeEnv] at found
  | some text =>
      rcases collectEnv_lookup found with before | ⟨set, uses⟩
      · simp at before
      · exact ⟨set, text, rfl, uses⟩

/-- What a `compose` process sees of its surroundings. -/
structure ComposeEnv where
  host : HostEnv
  currentDir : Option String
  lowercase : String → String
  envVar : String → Option String
  /-- The text of a file; none if it cannot be read. -/
  readFile : String → Option String

/-- The command for the guest; none if the compose file is outside `$HOME`. -/
def composeCommand (env : ComposeEnv) (sub : ComposeSubcmd) : Option Wire.Host.GuestCommand :=
  (composeVmFile env.host env.currentDir sub.file).map fun vmFile =>
    .compose sub.name vmFile ((parentDir vmFile).getD "/mnt/share0") sub.project sub.extraArgs
      (collectComposeEnv env.envVar (env.readFile (composeAbsFile env.currentDir sub.file)))

/-- The project whose ports the invocation tracks and releases. -/
def ComposeSubcmd.projectName (sub : ComposeSubcmd) (env : ComposeEnv) : String :=
  composeProjectName env.lowercase (composeAbsFile env.currentDir sub.file) sub.project

/-- The invocation as a client of the daemon, before its first registration.  Whatever the guest
answers to the command, the client goes on to release the ports of the project. -/
def composeClient (env : ComposeEnv) (ports : List String) (startedDaemon : Bool)
    (sub : ComposeSubcmd) : Option Client :=
  (composeCommand env sub).map fun _ =>
    .start (.compose (sub.projectName env)) startedDaemon ports

/-! ## Queries and port forwards -/

/-- A step of the invocation leaves the port state as it found it. -/
def LeavesPorts (index : Nat) (world : PortWorld) (action : ClientAction) : Prop :=
  action = .advance index → ∀ next ∈ world.step action, next.daemon.ports = world.daemon.ports

/-- When the invocation is about to release the ports of the project, none are tracked. -/
def ReleasesUntracked (project : String) (index : Nat) (world : PortWorld)
    (action : ClientAction) : Prop :=
  action = .advance index → ∀ client ∈ world.clients[index]?, client.phase = .releasingProject →
    world.daemon.ports.composeProjects.lookup project = none

instance (project : String) (index : Nat) (world : PortWorld) (action : ClientAction) :
    Decidable (ReleasesUntracked project index world action) :=
  inferInstanceAs (Decidable (_ = _ → ∀ client ∈ world.clients[index]?, _ → _))

/-- A compose client of the project that asks for no port. -/
structure Portless (project : String) (client : Client) : Prop where
  kind_eq : client.kind = .compose project
  registered_eq : client.registered = []
  phase_mem : client.phase ∈ [.registering [], .working, .releasingProject, .exited]

theorem portless_of_invoked {env : ComposeEnv} {startedDaemon : Bool} {sub : ComposeSubcmd}
    {client : Client} (invoked : composeClient env [] startedDaemon sub = some client) :
    Portless (sub.projectName env) client := by
  obtain ⟨_, -, rfl⟩ := Option.map_eq_some_iff.mp invoked
  exact ⟨rfl, rfl, List.mem_cons_self⟩

variable {project : String} {client : Client}

/-- A client without ports sends one command: it releases the ports of its project. -/
theorem Portless.command?_eq (portless : Portless project client) :
    client.command? =
      if client.phase = .releasingProject then some (.unregisterComposePorts project)
      else none := by
  obtain ⟨kind, startedDaemon, forwards, registered, phase⟩ := client
  obtain ⟨rfl, rfl, among⟩ := portless
  simp only [List.mem_cons, List.not_mem_nil, or_false] at among
  rcases among with rfl | rfl | rfl | rfl <;> rfl

theorem Portless.advance (portless : Portless project client) (response : DaemonResponse) :
    Portless project (client.advance response) := by
  obtain ⟨kind, startedDaemon, forwards, registered, phase⟩ := client
  obtain ⟨rfl, rfl, among⟩ := portless
  simp only [List.mem_cons, List.not_mem_nil, or_false] at among
  rcases among with rfl | rfl | rfl | rfl <;>
    exact ⟨rfl, rfl, by simp [Client.advance]⟩

/-- Releasing the ports of a project changes nothing exactly when none are tracked. -/
theorem ports_unregisterComposePorts_iff (daemon : PortDaemon) (project : String) :
    (daemon.handleDaemonCmd (.unregisterComposePorts project)).1.ports = daemon.ports ↔
      daemon.ports.composeProjects.lookup project = none := by
  rw [PortDaemon.handleDaemonCmd]
  cases tracked : daemon.ports.composeProjects.lookup project with
  | none => simp
  | some hostPorts =>
      refine iff_of_false (fun same => ?_) (Option.some_ne_none hostPorts)
      have projects_same := congrArg PortState.composeProjects same
      simp only [PortDaemon.foldl_releasePort] at projects_same
      have erased := congrArg (Finmap.lookup project) projects_same
      rw [HashMap.lookup_erase_eq, if_pos rfl, tracked] at erased
      cases erased

/-- The client at the index is a compose client of the project that asks for no port. -/
def Querying (project : String) (index : Nat) (world : PortWorld) : Prop :=
  ∃ client, world.clients[index]? = some client ∧ Portless project client

variable {index : Nat} {world after : PortWorld} {action : ClientAction}

theorem Querying.step (querying : Querying project index world)
    (stepped : world.step action = some after) : Querying project index after := by
  obtain ⟨client, present, portless⟩ := querying
  have inside : index < world.clients.length := (List.getElem?_eq_some_iff.mp present).1
  have replaced {position : Nat} {other next : Client}
      (found : world.clients[position]? = some other)
      (next_portless : Portless project other → Portless project next) :
      ∃ client, (world.clients.set position next)[index]? = some client ∧
        Portless project client := by
    by_cases here : position = index
    · subst here
      obtain rfl := Option.some.inj (present.symm.trans found)
      exact ⟨next, List.getElem?_set_self inside, next_portless portless⟩
    · exact ⟨client, by rw [List.getElem?_set_ne here, present], portless⟩
  rcases PortWorld.step_cases stepped with ⟨kind, startedDaemon, specs, rfl, rfl⟩ |
    ⟨position, other, rfl, found, ⟨silent, rfl⟩ | ⟨cmd, sends, rfl⟩⟩
  · exact ⟨client, by rw [List.getElem?_append_left inside, present], portless⟩
  · exact replaced found fun other_portless => other_portless.advance .ok
  · exact replaced found fun other_portless => other_portless.advance _

theorem Querying.leavesPorts_iff (querying : Querying project index world)
    (stepped : world.step action = some after) :
    LeavesPorts index world action ↔ ReleasesUntracked project index world action := by
  obtain ⟨client, present, portless⟩ := querying
  unfold LeavesPorts ReleasesUntracked
  refine imp_congr_right fun own => ?_
  subst own
  rw [stepped, present]
  simp only [Option.mem_some_iff, forall_eq']
  rcases PortWorld.step_cases stepped with ⟨kind, startedDaemon, specs, arrives, -⟩ |
    ⟨position, other, own, found, outcome⟩
  · cases arrives
  · obtain rfl : index = position := by simpa using own
    obtain rfl := Option.some.inj (present.symm.trans found)
    have command := portless.command?_eq
    rcases outcome with ⟨silent, rfl⟩ | ⟨cmd, sends, rfl⟩
    · refine iff_of_true rfl fun releasing => ?_
      rw [silent, if_pos releasing] at command
      cases command
    · rw [sends] at command
      split at command
      · rename_i releasing
        obtain rfl := Option.some.inj command
        rw [imp_iff_right releasing]
        exact ports_unregisterComposePorts_iff world.daemon project
      · cases command

/-- However other clients' steps come between its own, an invocation without `-p`, such as `compose
ps` or `compose logs`, leaves the port state as it is exactly when no ports are tracked for its
project when it ends. -/
theorem query_leaves_ports_iff (env : ComposeEnv) (startedDaemon : Bool) (sub : ComposeSubcmd)
    {client : Client} (invoked : composeClient env [] startedDaemon sub = some client)
    {world final : PortWorld} {index : Nat} (present : world.clients[index]? = some client)
    {actions : List ClientAction}
    (execution : run PortWorld.step actions world = some final) :
    Guarded PortWorld.step (LeavesPorts index) actions world ↔
      Guarded PortWorld.step (ReleasesUntracked (sub.projectName env) index) actions world := by
  have querying : Querying (sub.projectName env) index world :=
    ⟨client, present, portless_of_invoked invoked⟩
  have preserved {before after : PortWorld} {action : ClientAction}
      (querying : Querying (sub.projectName env) index before)
      (_ : LeavesPorts index before action) (stepped : before.step action = some after) :
      Querying (sub.projectName env) index after := querying.step stepped
  have same {before after : PortWorld} {action : ClientAction}
      (querying : Querying (sub.projectName env) index before)
      (stepped : before.step action = some after) :
      LeavesPorts index before action ↔
        ReleasesUntracked (sub.projectName env) index before action :=
    querying.leavesPorts_iff stepped
  exact guarded_iff_of_run preserved same querying execution

/-- A shop in the home directory of a user. -/
def adaShop : ComposeEnv where
  host :=
    { home := some "/Users/ada", xdgDataHome := none, pelagosKernel := none, pelagosInitrd := none
      pelagosDisk := none, pelagosCmdline := none, pathExists := fun _ => true
      profileConfig := fun _ =>
        { disk := none, kernel := none, initrd := none, memory := none, cpus := none
          cmdline := none }
      artifacts := none }
  currentDir := some "/Users/ada/shop"
  lowercase text := String.ofList (text.toList.map Char.toLower)
  envVar := fun _ => none
  readFile := fun _ => none

/-- The daemon while `compose up -p 8080:80` of the shop runs. -/
def shopUp : PortDaemon :=
  (((PortDaemon.init ⟨192, 168, 105, 2⟩).handleDaemonCmd (.registerPort 8080 80)).1.handleDaemonCmd
    (.trackComposeProject "shop" [8080])).1

/-- `compose ps` of a project that has no ports leaves those of the shop alone. -/
theorem other_project_untouched :
    ∃ client, composeClient adaShop [] false (.ps "compose.reml" (some "other")) = some client ∧
      Guarded PortWorld.step (LeavesPorts 0) [.advance 0, .advance 0, .advance 0]
        { daemon := shopUp, clients := [client], preregistered := [] } := by
  have invoked : composeClient adaShop [] false (.ps "compose.reml" (some "other")) =
      some (.start (.compose "other") false []) := by decide
  obtain ⟨final, execution⟩ : ∃ final,
      run PortWorld.step [.advance 0, .advance 0, .advance 0]
        { daemon := shopUp, clients := [.start (.compose "other") false []], preregistered := [] } =
          some final := ⟨_, rfl⟩
  exact ⟨_, invoked, (query_leaves_ports_iff adaShop false (.ps "compose.reml" (some "other"))
    invoked rfl execution).mpr (by decide)⟩

/-- `compose ps` of a project that is up releases its ports. -/
theorem ps_releases_ports :
    ¬ ∀ (env : ComposeEnv) (startedDaemon : Bool) (sub : ComposeSubcmd) (client : Client)
        (daemon : PortDaemon) (actions : List ClientAction) (final : PortWorld),
      sub.isQuery = true → composeClient env [] startedDaemon sub = some client →
      (∀ action ∈ actions, action = .advance 0) →
      run PortWorld.step actions { daemon, clients := [client], preregistered := [] } =
        some final →
      final.daemon.ports = daemon.ports := by
  intro untouched
  have invoked : composeClient adaShop [] false (.ps "compose.reml" none) =
      some (.start (.compose "shop") false []) := by decide
  have same := untouched adaShop false (.ps "compose.reml" none) _ shopUp
    [.advance 0, .advance 0, .advance 0] _ rfl invoked (by simp) rfl
  exact absurd (congrArg (fun ports => ports.active.lookup 8080) same) (by decide)

end Pelagos.CommandLine
