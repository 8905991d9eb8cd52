import Pelagos.Daemon.ComposePorts

/-!
# Refused registrations

A client registers its forwards one after the other and gives up at the first refusal.  `run` leaves
everything registered so far behind; `compose` releases everything it was told `Ok` for, the ports
that were active before included.
-/

namespace Pelagos.Daemon
namespace PortWorld

open Execution

/-- The daemon with one client, which has sent nothing yet. -/
def alone (daemon : PortDaemon) (kind : ClientKind) (startedDaemon : Bool) (specs : List String) :
    PortWorld :=
  { daemon, clients := [.start kind startedDaemon specs], preregistered := [] }

/-- Steps of the only client. -/
def ownSteps (count : Nat) : List ClientAction := List.replicate count (.advance 0)

/-- Of the forwards up to the first refusal, `run` found all active and `compose` none. -/
def RefusalHarmless (active : HashMap UInt16 UInt16) (forwards : List PortForward) :
    ClientKind → Prop
  | .run =>
      ∀ forward ∈ forwards.find? fun forward =>
          active.lookup forward.hostPort ≠ some forward.containerPort,
        active.lookup forward.hostPort ≠ none
  | .compose _ =>
      Consistent (forwards.takeWhile fun forward => active.lookup forward.hostPort = none) →
        ∀ forward ∈ forwards.find? fun forward => active.lookup forward.hostPort ≠ none,
          active.lookup forward.hostPort ≠ some forward.containerPort

instance (active : HashMap UInt16 UInt16) (forwards : List PortForward) :
    ∀ kind, Decidable (RefusalHarmless active forwards kind)
  | .run => inferInstanceAs (Decidable (∀ forward ∈ forwards.find? _, _))
  | .compose _ =>
      inferInstanceAs (Decidable (Consistent _ → ∀ forward ∈ forwards.find? _, _))

/-- What the daemon has answered `Ok` to, and nothing else, was added to the active map. -/
structure Granted (before after : HashMap UInt16 UInt16) (forwards : List PortForward) : Prop where
  compatible : ∀ forward ∈ forwards, before.lookup forward.hostPort = none ∨
    before.lookup forward.hostPort = some forward.containerPort
  mapped : ∀ forward ∈ forwards, after.lookup forward.hostPort = some forward.containerPort
  others : ∀ hostPort ∉ forwards.map PortForward.hostPort,
    after.lookup hostPort = before.lookup hostPort

namespace Granted

variable {before after : HashMap UInt16 UInt16} {forwards : List PortForward}

theorem nil (active : HashMap UInt16 UInt16) : Granted active active [] :=
  ⟨nofun, nofun, fun _ _ => rfl⟩

/-- No two granted forwards disagree on a port. -/
theorem consistent (granted : Granted before after forwards) : Consistent forwards := by
  intro first first_member second second_member same
  have first_mapped := granted.mapped first first_member
  rw [same, granted.mapped second second_member] at first_mapped
  obtain ⟨hostPort, containerPort⟩ := first
  exact (PortForward.mk.injEq ..).mpr ⟨same, (Option.some.inj first_mapped).symm⟩

/-- A port that was mapped before has its old mapping. -/
theorem kept (granted : Granted before after forwards) {hostPort : UInt16}
    (active : before.lookup hostPort ≠ none) : after.lookup hostPort = before.lookup hostPort := by
  by_cases asked : hostPort ∈ forwards.map PortForward.hostPort
  · obtain ⟨forward, member, rfl⟩ := List.mem_map.mp asked
    rw [granted.mapped forward member]
    exact ((granted.compatible forward member).resolve_left active).symm
  · exact granted.others hostPort asked

/-- The map is as before exactly when every granted forward was active. -/
theorem eq_iff (granted : Granted before after forwards) :
    after = before ↔ ∀ forward ∈ forwards,
      before.lookup forward.hostPort = some forward.containerPort := by
  constructor
  · rintro rfl
    exact granted.mapped
  · intro active
    refine Finmap.ext_lookup fun hostPort => ?_
    by_cases asked : hostPort ∈ forwards.map PortForward.hostPort
    · obtain ⟨forward, member, rfl⟩ := List.mem_map.mp asked
      rw [granted.mapped forward member, active forward member]
    · exact granted.others hostPort asked

/-- Without the granted ports the map is as before exactly when none of them was active. -/
theorem erased_eq_iff (granted : Granted before after forwards) :
    HashMap.eraseAll (forwards.map PortForward.hostPort) after = before ↔
      ∀ forward ∈ forwards, before.lookup forward.hostPort = none := by
  constructor
  · intro same forward member
    rw [← same, HashMap.lookup_eraseAll, if_pos (List.mem_map_of_mem member)]
  · intro inactive
    refine Finmap.ext_lookup fun hostPort => ?_
    rw [HashMap.lookup_eraseAll]
    split
    · rename_i asked
      obtain ⟨forward, member, rfl⟩ := List.mem_map.mp asked
      exact (inactive forward member).symm
    · rename_i unasked
      exact granted.others hostPort unasked

/-- One more registration that is answered `Ok`. -/
theorem register {daemon : PortDaemon} {asked : PortForward}
    (granted : Granted before daemon.ports.active forwards)
    (answered :
      (daemon.handleDaemonCmd (.registerPort asked.hostPort asked.containerPort)).2 = .ok) :
    Granted before
      (daemon.handleDaemonCmd (.registerPort asked.hostPort asked.containerPort)).1.ports.active
      (forwards ++ [asked]) := by
  have active_after := PortDaemon.active_registerPort_ok answered
  have found := PortDaemon.inactive_or_same_of_ok answered
  refine ⟨fun forward member => ?_, fun forward member => ?_, fun other unasked => ?_⟩
  · rcases List.mem_append.mp member with old | new
    · exact granted.compatible forward old
    · obtain rfl := List.mem_singleton.mp new
      by_cases active : before.lookup forward.hostPort = none
      · exact .inl active
      · rw [granted.kept active] at found
        exact found
  · rw [active_after]
    rcases List.mem_append.mp member with old | new
    · split
      · rename_i here
        rw [← here, granted.mapped forward old] at found
        exact (found.resolve_left (Option.some_ne_none _)).symm
      · exact granted.mapped forward old
    · obtain rfl := List.mem_singleton.mp new
      exact if_pos rfl
  · simp only [List.map_append, List.mem_append, List.map_cons, List.map_nil, List.mem_singleton,
      not_or] at unasked
    rw [active_after, if_neg unasked.2]
    exact granted.others other unasked.1

end Granted

/-! ## Up to the first refusal -/

/-- The only client is of this kind, and while it registers, the daemon has granted what it asked
for so far. -/
def Registering (daemon : PortDaemon) (kind : ClientKind) (forwards : List PortForward)
    (world : PortWorld) : Prop :=
  ∃ client, world.clients = [client] ∧ client.kind = kind ∧
    ∀ pending, client.phase = .registering pending →
      client.registered ++ pending = forwards ∧
        Granted daemon.ports.active world.daemon.ports.active client.registered

variable {daemon : PortDaemon} {kind : ClientKind} {forwards : List PortForward}
  {world after : PortWorld}

/-- A client that goes on registering has just been told `Ok`. -/
theorem registering_of_advance {client : Client} {response : DaemonResponse}
    {pending : List PortForward} (phase : (client.advance response).phase = .registering pending) :
    ∃ asked, client.phase = .registering (asked :: pending) ∧ response = .ok ∧
      (client.advance response).registered = client.registered ++ [asked] := by
  obtain ⟨kind, startedDaemon, forwards, registered, before_phase⟩ := client
  cases before_phase with
  | registering waiting =>
      cases waiting with
      | nil =>
          cases kind with
          | run => simp [Client.advance] at phase
          | compose project =>
              cases empty : registered.isEmpty <;> simp [Client.advance, empty] at phase
      | cons asked waiting =>
          cases response with
          | ok =>
              obtain rfl : waiting = pending := by simpa [Client.advance] using phase
              exact ⟨asked, rfl, rfl, rfl⟩
          | err message => cases kind <;> simp [Client.advance] at phase
  | rollingBack waiting => cases waiting <;> simp [Client.advance] at phase
  | releasing waiting => cases waiting <;> simp [Client.advance] at phase
  | working => cases kind <;> simp [Client.advance] at phase
  | tracking | releasingProject | aborted | exited => simp [Client.advance] at phase

theorem advance_kind (client : Client) (response : DaemonResponse) :
    (client.advance response).kind = client.kind := by
  obtain ⟨kind, startedDaemon, forwards, registered, phase⟩ := client
  cases phase with
  | registering waiting =>
      cases waiting with
      | nil => cases kind <;> rfl
      | cons asked waiting => cases response <;> cases kind <;> rfl
  | rollingBack waiting => cases waiting <;> rfl
  | releasing waiting => cases waiting <;> rfl
  | working => cases kind <;> rfl
  | tracking | releasingProject | aborted | exited => rfl

theorem registering_alone (daemon : PortDaemon) (kind : ClientKind) (startedDaemon : Bool)
    (specs : List String) :
    Registering daemon kind (specs.filterMap parsePortSpec)
      (alone daemon kind startedDaemon specs) := by
  refine ⟨_, rfl, rfl, ?_⟩
  rintro pending phase
  obtain rfl : specs.filterMap parsePortSpec = pending := by simpa [Client.start] using phase
  exact ⟨rfl, .nil _⟩

/-- What a step of the only client does. -/
theorem own_step_cases {client : Client} (present : world.clients = [client])
    (stepped : world.step (.advance 0) = some after) :
    (client.phase ≠ .aborted ∧ client.phase ≠ .exited) ∧
      ((client.command? = none ∧ after.daemon = world.daemon ∧
          after.clients = [client.advance .ok]) ∨
        ∃ cmd, client.command? = some cmd ∧ after.daemon = (world.daemon.handleDaemonCmd cmd).1 ∧
          after.clients = [client.advance (world.daemon.handleDaemonCmd cmd).2]) := by
  have first : world.clients[0]? = some client := by rw [present]; rfl
  have going : ¬ (client.phase = .aborted ∨ client.phase = .exited) := by
    intro ended
    simp [step, first, ended] at stepped
  refine ⟨not_or.mp going, ?_⟩
  rcases step_cases stepped with ⟨kind, startedDaemon, specs, arrives, -⟩ |
    ⟨index, found, own, found_eq, outcome⟩
  · cases arrives
  · obtain rfl : 0 = index := by simpa using own
    obtain rfl := Option.some.inj (first.symm.trans found_eq)
    rcases outcome with ⟨silent, rfl⟩ | ⟨cmd, sends, rfl⟩
    · exact .inl ⟨silent, rfl, by simp [present]⟩
    · exact .inr ⟨cmd, sends, rfl, by simp [present]⟩

theorem Registering.step (registering : Registering daemon kind forwards world)
    (stepped : world.step (.advance 0) = some after) : Registering daemon kind forwards after := by
  obtain ⟨client, present, kind_eq, granted⟩ := registering
  obtain ⟨-, ⟨silent, daemon_eq, clients_eq⟩ | ⟨cmd, sends, daemon_eq, clients_eq⟩⟩ :=
    own_step_cases present stepped
  · refine ⟨_, clients_eq, (advance_kind client .ok).trans kind_eq, fun pending phase => ?_⟩
    obtain ⟨asked, asking, -, -⟩ := registering_of_advance phase
    simp [Client.command?, asking] at silent
  · refine ⟨_, clients_eq, (advance_kind client _).trans kind_eq, fun pending phase => ?_⟩
    obtain ⟨asked, asking, response, registered_eq⟩ := registering_of_advance phase
    obtain ⟨forwards_eq, granted_before⟩ := granted _ asking
    obtain rfl : DaemonCmd.registerPort asked.hostPort asked.containerPort = cmd := by
      simpa [Client.command?, asking] using sends
    rw [registered_eq, daemon_eq]
    exact ⟨by rw [List.append_assoc, List.singleton_append, forwards_eq],
      granted_before.register response⟩

/-- The first refusal: what has been granted, and the request that is refused. -/
structure Refused (daemon : PortDaemon) (kind : ClientKind) (forwards : List PortForward)
    (world : PortWorld) (client : Client) (asked : PortForward) (pending : List PortForward) :
    Prop where
  clients_eq : world.clients = [client]
  kind_eq : client.kind = kind
  forwards_eq : client.registered ++ asked :: pending = forwards
  phase_eq : client.phase = .registering (asked :: pending)
  granted : Granted daemon.ports.active world.daemon.ports.active client.registered
  refused :
    (world.daemon.handleDaemonCmd (.registerPort asked.hostPort asked.containerPort)).2 ≠ .ok

theorem Registering.refused (registering : Registering daemon kind forwards world)
    (answered : ¬ world.RegistersOk (.advance 0)) :
    ∃ client asked pending, Refused daemon kind forwards world client asked pending := by
  obtain ⟨client, present, kind_eq, granted⟩ := registering
  have sent : ∃ cmd, client.command? = some cmd ∧ isRegistration cmd = true ∧
      (world.daemon.handleDaemonCmd cmd).2 ≠ .ok := by
    simpa [RegistersOk, present] using answered
  obtain ⟨cmd, sends, registration, refused⟩ := sent
  cases cmd with
  | registerPort hostPort containerPort =>
      obtain ⟨pending, phase⟩ := Client.registering_of_command sends
      obtain ⟨forwards_eq, granted_before⟩ := granted _ phase
      exact ⟨client, _, pending, present, kind_eq, forwards_eq, phase, granted_before, refused⟩
  | unregisterPort | trackComposeProject | unregisterComposePorts => cases registration

/-! ## After a refusal -/

/-- Of a client that has ended there is no further step. -/
theorem eq_of_ended {client : Client} {count : Nat} {final : PortWorld}
    (present : world.clients = [client])
    (ended : client.phase = .aborted ∨ client.phase = .exited)
    (execution : run step (ownSteps count) world = some final) : final = world := by
  cases count with
  | zero => exact (Option.some.inj execution).symm
  | succ count =>
      obtain ⟨next, stepped, -⟩ := run_cons_eq_some.mp execution
      exact absurd ended (not_or.mpr (own_step_cases present stepped).1)

/-- A client that rolls back releases the ports on its list. -/
theorem rolledBack {client : Client} {waiting : List UInt16} {count : Nat} {final : PortWorld}
    (present : world.clients = [client]) (phase : client.phase = .rollingBack waiting)
    (execution : run step (ownSteps count) world = some final)
    (ended : ∀ client ∈ final.clients, client.phase = .aborted ∨ client.phase = .exited) :
    final.daemon.ports.active = HashMap.eraseAll waiting world.daemon.ports.active := by
  induction waiting generalizing world client count with
  | nil =>
      cases count with
      | zero =>
          obtain rfl := Option.some.inj execution
          rfl
      | succ count =>
          obtain ⟨next, stepped, later⟩ := run_cons_eq_some.mp execution
          obtain ⟨-, ⟨-, daemon_eq, clients_eq⟩ | ⟨cmd, sends, -⟩⟩ := own_step_cases present stepped
          · have gone : (client.advance .ok).phase = .exited := by simp [Client.advance, phase]
            rw [eq_of_ended clients_eq (.inr gone) later, daemon_eq]
            rfl
          · simp [Client.command?, phase] at sends
  | cons hostPort waiting ih =>
      cases count with
      | zero =>
          obtain rfl := Option.some.inj execution
          have still := ended client (present ▸ List.mem_cons_self)
          simp [phase] at still
      | succ count =>
          obtain ⟨next, stepped, later⟩ := run_cons_eq_some.mp execution
          obtain ⟨-, ⟨silent, -⟩ | ⟨cmd, sends, daemon_eq, clients_eq⟩⟩ :=
            own_step_cases present stepped
          · simp [Client.command?, phase] at silent
          · obtain rfl : DaemonCmd.unregisterPort hostPort = cmd := by
              simpa [Client.command?, phase] using sends
            rw [ih clients_eq (by simp [Client.advance, phase]) later, daemon_eq]
            refine Finmap.ext_lookup fun other => ?_
            rw [HashMap.lookup_eraseAll, HashMap.lookup_eraseAll,
              PortDaemon.active_of_release _ (by simp)]
            by_cases here : other = hostPort <;> simp [PortDaemon.commandReleases, here]

/-- The active map when a client of this kind has ended after a refusal. -/
def afterRefusal (active : HashMap UInt16 UInt16) (registered : List PortForward) :
    ClientKind → HashMap UInt16 UInt16
  | .run => active
  | .compose _ => HashMap.eraseAll (registered.map PortForward.hostPort) active

theorem Refused.active_eq {client : Client} {asked : PortForward} {pending : List PortForward}
    (refused : Refused daemon kind forwards world client asked pending) {count : Nat}
    {final : PortWorld} (execution : run PortWorld.step (ownSteps (count + 1)) world = some final)
    (ended : ∀ client ∈ final.clients, client.phase = .aborted ∨ client.phase = .exited) :
    final.daemon.ports.active =
      afterRefusal world.daemon.ports.active client.registered kind := by
  obtain ⟨next, stepped, later⟩ := run_cons_eq_some.mp execution
  obtain ⟨-, ⟨silent, -⟩ | ⟨cmd, sends, daemon_eq, clients_eq⟩⟩ :=
    own_step_cases refused.clients_eq stepped
  · simp [Client.command?, refused.phase_eq] at silent
  · obtain rfl : DaemonCmd.registerPort asked.hostPort asked.containerPort = cmd := by
      simpa [Client.command?, refused.phase_eq] using sends
    rw [PortDaemon.registerPort_refused refused.refused] at daemon_eq
    obtain ⟨message, answer⟩ : ∃ message, (world.daemon.handleDaemonCmd
        (.registerPort asked.hostPort asked.containerPort)).2 = .err message := by
      cases answer : (world.daemon.handleDaemonCmd
          (.registerPort asked.hostPort asked.containerPort)).2 with
      | ok => exact absurd answer refused.refused
      | err message => exact ⟨message, rfl⟩
    rw [answer] at clients_eq
    rw [← daemon_eq]
    cases kind with
    | run =>
        have aborted : (client.advance (.err message)).phase = .aborted := by
          simp [Client.advance, refused.phase_eq, refused.kind_eq]
        rw [eq_of_ended clients_eq (.inl aborted) later]
        rfl
    | compose project =>
        refine rolledBack clients_eq ?_ later ended
        simp [Client.advance, refused.phase_eq, refused.kind_eq]

/-! ## The condition -/

theorem active_of_refusal {hostPort containerPort : UInt16}
    (refused : (daemon.handleDaemonCmd (.registerPort hostPort containerPort)).2 ≠ .ok) :
    ∃ existing, daemon.ports.active.lookup hostPort = some existing ∧ existing ≠ containerPort := by
  cases active : daemon.ports.active.lookup hostPort with
  | none => simp [PortDaemon.handleDaemonCmd, active] at refused
  | some existing =>
      refine ⟨existing, rfl, fun same => refused ?_⟩
      simp [PortDaemon.handleDaemonCmd, active, same]

/-- The front of a list with a property ends before an element without it. -/
theorem takeWhile_append_subset {α : Type*} {property : α → Bool} {front : List α} {item : α}
    (member : item ∈ front) (fails : property item = false) (rest : List α) :
    (front ++ rest).takeWhile property ⊆ front := by
  rw [List.takeWhile_append]
  split
  · rename_i whole
    have all := (List.takeWhile_prefix property).eq_of_length whole
    have holds := List.mem_takeWhile_imp (all ▸ member)
    rw [fails] at holds
    cases holds
  · exact (List.takeWhile_prefix property).subset

theorem refusalHarmless_run_iff {front pending : List PortForward} {asked : PortForward}
    {before after : HashMap UInt16 UInt16} (granted : Granted before after front)
    {existing : UInt16} (active : after.lookup asked.hostPort = some existing)
    (different : existing ≠ asked.containerPort) :
    (∀ forward ∈ front, before.lookup forward.hostPort = some forward.containerPort) ↔
      RefusalHarmless before (front ++ asked :: pending) .run := by
  rw [RefusalHarmless, List.find?_append]
  cases new : front.find? fun forward =>
      before.lookup forward.hostPort ≠ some forward.containerPort with
  | none =>
      have all_active : ∀ forward ∈ front,
          before.lookup forward.hostPort = some forward.containerPort := by
        simpa using new
      have before_active : before.lookup asked.hostPort = some existing := by
        rw [← granted.eq_iff.mpr all_active, active]
      refine iff_of_true all_active fun forward found => ?_
      rw [Option.none_or, List.find?_cons_of_pos (by simp [before_active, different])] at found
      obtain rfl := Option.some.inj found
      simp [before_active]
  | some forward =>
      have member := List.mem_of_find?_eq_some new
      have unmapped : before.lookup forward.hostPort ≠ some forward.containerPort := by
        simpa using List.find?_some new
      refine iff_of_false (fun all_active => unmapped (all_active forward member)) ?_
      intro harmless
      exact harmless forward rfl ((granted.compatible forward member).resolve_right unmapped)

theorem refusalHarmless_compose_iff {front pending : List PortForward} {asked : PortForward}
    {before after : HashMap UInt16 UInt16} (granted : Granted before after front)
    {existing : UInt16} (active : after.lookup asked.hostPort = some existing)
    (different : existing ≠ asked.containerPort) (project : String) :
    (∀ forward ∈ front, before.lookup forward.hostPort = none) ↔
      RefusalHarmless before (front ++ asked :: pending) (.compose project) := by
  rw [RefusalHarmless, List.find?_append]
  cases old : front.find? fun forward => before.lookup forward.hostPort ≠ none with
  | none =>
      have all_inactive : ∀ forward ∈ front, before.lookup forward.hostPort = none := by
        simpa using old
      refine iff_of_true all_inactive fun consistent forward found => ?_
      rw [Option.none_or] at found
      by_cases inactive : before.lookup asked.hostPort = none
      · -- The port was granted before with another container port.
        have repeated : asked.hostPort ∈ front.map PortForward.hostPort := by
          by_contra unasked
          rw [granted.others _ unasked, inactive] at active
          cases active
        obtain ⟨first, member, same⟩ := List.mem_map.mp repeated
        have both_inactive : first ∈ (front ++ asked :: pending).takeWhile
              (fun forward => before.lookup forward.hostPort = none) ∧
            asked ∈ (front ++ asked :: pending).takeWhile
              (fun forward => before.lookup forward.hostPort = none) := by
          rw [List.takeWhile_append_of_pos (by simpa using all_inactive),
            List.takeWhile_cons_of_pos (by simpa using inactive)]
          exact ⟨List.mem_append_left _ member, List.mem_append_right _ List.mem_cons_self⟩
        have equal := consistent first both_inactive.1 asked both_inactive.2 same
        rw [← same, granted.mapped first member, equal] at active
        exact absurd (Option.some.inj active).symm different
      · rw [List.find?_cons_of_pos (by simpa using inactive)] at found
        obtain rfl := Option.some.inj found
        rw [← granted.kept inactive, active]
        exact fun same => different (Option.some.inj same)
  | some forward =>
      have member := List.mem_of_find?_eq_some old
      have was_active : before.lookup forward.hostPort ≠ none := by simpa using List.find?_some old
      refine iff_of_false (fun none_active => was_active (none_active forward member)) ?_
      intro harmless
      refine harmless ?_ forward rfl ((granted.compatible forward member).resolve_left was_active)
      have within : (front ++ asked :: pending).takeWhile
          (fun forward => before.lookup forward.hostPort = none) ⊆ front :=
        takeWhile_append_subset member (by simpa using was_active) (asked :: pending)
      intro first first_member second second_member
      exact granted.consistent first (within first_member) second (within second_member)

/-- After a refusal the active map is as before exactly when no earlier request of `run` was new and
no earlier request of `compose` was old. -/
theorem refusal_undone_iff (daemon : PortDaemon) (kind : ClientKind) (startedDaemon : Bool)
    (specs : List String) {count : Nat} {final : PortWorld}
    (execution :
      run step (ownSteps count) (alone daemon kind startedDaemon specs) = some final)
    (refused :
      ¬ Guarded step RegistersOk (ownSteps count) (alone daemon kind startedDaemon specs))
    (ended : ∀ client ∈ final.clients, client.phase = .aborted ∨ client.phase = .exited) :
    final.daemon.ports.active = daemon.ports.active ↔
      RefusalHarmless daemon.ports.active (specs.filterMap parsePortSpec) kind := by
  obtain ⟨left, action, right, middle, next, split, reached, -, forbidden, stepped, later⟩ :=
    exists_of_not_guarded refused execution
  obtain ⟨-, left_eq, rest_eq⟩ := List.replicate_eq_append_iff.mp split
  obtain ⟨rfl, count_after, rfl⟩ : action = .advance 0 ∧ ∃ count, right = ownSteps count := by
    rw [List.length_cons, List.replicate_succ] at rest_eq
    obtain ⟨action_eq, right_eq⟩ := List.cons.inj rest_eq
    exact ⟨action_eq, right.length, right_eq⟩
  have registering : Registering daemon kind (specs.filterMap parsePortSpec) middle := by
    have preserved {before after : PortWorld} {action : ClientAction}
        (holds : Registering daemon kind (specs.filterMap parsePortSpec) before)
        (own : action = .advance 0) (stepped : before.step action = some after) :
        Registering daemon kind (specs.filterMap parsePortSpec) after := by
      subst own
      exact holds.step stepped
    have own_steps : Guarded step (fun _ action => action = .advance 0) left
        (alone daemon kind startedDaemon specs) := by
      rw [left_eq]
      exact guarded_of_forall (fun action member _ => List.eq_of_mem_replicate member) _
    exact invariant_of_guarded preserved (registering_alone daemon kind startedDaemon specs)
      own_steps reached
  obtain ⟨client, asked, pending, first_refusal⟩ := registering.refused forbidden
  obtain ⟨existing, active, different⟩ := active_of_refusal first_refusal.refused
  have from_refusal : run step (ownSteps (count_after + 1)) middle = some final :=
    run_cons_eq_some.mpr ⟨next, stepped, later⟩
  rw [first_refusal.active_eq from_refusal ended, ← first_refusal.forwards_eq]
  cases kind with
  | run =>
      exact first_refusal.granted.eq_iff.trans
        (refusalHarmless_run_iff first_refusal.granted active different)
  | compose project =>
      exact first_refusal.granted.erased_eq_iff.trans
        (refusalHarmless_compose_iff first_refusal.granted active different project)

/-- Port 9090 is mapped to 91. -/
def mapped9090 : PortDaemon := (PortDaemon.init ⟨192, 168, 105, 2⟩).addForward 9090 91

/-- `compose` releases the new port that it registered before the refusal. -/
theorem compose_undoes_new_port :
    ∃ final, run step (ownSteps 4)
        (alone mapped9090 (.compose "shop") false ["8080:80", "9090:90"]) = some final ∧
      final.daemon.ports.active = mapped9090.ports.active := by
  obtain ⟨final, execution, ended⟩ : ∃ final, run step (ownSteps 4)
        (alone mapped9090 (.compose "shop") false ["8080:80", "9090:90"]) = some final ∧
      ∀ client ∈ final.clients, client.phase = .aborted ∨ client.phase = .exited :=
    ⟨_, rfl, by decide⟩
  exact ⟨final, execution, (refusal_undone_iff mapped9090 (.compose "shop") false
    ["8080:80", "9090:90"] execution (by decide) ended).mpr (by decide)⟩

/-- After every refusal a client of this kind ends with the active map as it was. -/
def UndoesRefusals (kind : ClientKind) : Prop :=
  ∀ (daemon : PortDaemon) (startedDaemon : Bool) (specs : List String) (count : Nat)
    (final : PortWorld),
    run step (ownSteps count) (alone daemon kind startedDaemon specs) = some final →
    ¬ Guarded step RegistersOk (ownSteps count) (alone daemon kind startedDaemon specs) →
    (∀ client ∈ final.clients, client.phase = .aborted ∨ client.phase = .exited) →
    final.daemon.ports.active = daemon.ports.active

/-- `run` keeps the new port 8080; `compose` releases the old port 9090. -/
theorem refusal_leaves_traces :
    ¬ UndoesRefusals .run ∧ ¬ UndoesRefusals (.compose "shop") := by
  constructor
  · intro undoes
    have kept := undoes mapped9090 false ["8080:80", "9090:90"] 2 _ rfl (by decide) (by decide)
    exact absurd (congrArg (Finmap.lookup 8080) kept) (by decide)
  · intro undoes
    have released := undoes mapped9090 false ["9090:91", "9090:90"] 4 _ rfl (by decide) (by decide)
    exact absurd (congrArg (Finmap.lookup 9090) released) (by decide)

end PortWorld
end Pelagos.Daemon
