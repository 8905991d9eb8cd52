import Pelagos.Pfctl.Requests

/-!
# Failed requests

A request that is answered with an error should leave the helper's state as it was.  The handlers
that change the anchor change the state first and load the anchor afterwards, so a rule that could
not be loaded stays in the state.
-/

namespace Pelagos.Pfctl

/-- A host on which the outcome of each system call is given by its number. -/
def scripted (outcomes : Nat → Option String) : Host Nat where
  perform _ call := (outcomes call, call + 1)
  createUtun call :=
    ((match outcomes call with
      | some error => .error error
      | none => .ok "utun9"), call + 1)

/-- The anchor file can be written and loaded, from the call with this number on. -/
def ReloadSucceeds (outcomes : Nat → Option String) (call : Nat) : Prop :=
  outcomes call = none ∧ outcomes (call + 1) = none

/-- The interface names are safe, and its address and the forwarding flags can be set. -/
def ConfigureSucceeds {Address : Type} (rules : TextRules Address) (outcomes : Nat → Option String)
    (iface egressIface : String) : Prop :=
  isSafeIface rules iface = true ∧ isSafeIface rules egressIface = true ∧ outcomes 1 = none ∧
    outcomes 3 = none ∧ outcomes 4 = none

/-- When a request that fails leaves no trace: it is refused before it changes anything, or the
anchor can be loaded, or what it changes was that way before. -/
def LeavesNoTrace {Address : Type} (rules : TextRules Address) (outcomes : Nat → Option String)
    (state : DaemonState) : Request → Prop
  | .setupUtun iface _ _ ipv4Cidr egressIface =>
      ¬ ConfigureSucceeds rules outcomes iface egressIface ∨ ReloadSucceeds outcomes 7 ∨
        state.activeUtuns.lookup iface = some { egressIface, ipv4Cidr }
  | .addRdr proto hostPort vmIp vmPort =>
      ¬ (proto = "tcp" ∨ proto = "udp") ∨ ReloadSucceeds outcomes 0 ∨
        ∃ others, state.rdrRules = others ++ [{ proto, hostPort, vmIp, vmPort }] ∧
          ∀ rule ∈ others, DaemonState.isFor proto hostPort rule = false
  | .removeRdr proto hostPort =>
      ReloadSucceeds outcomes 0 ∨
        (∀ rule ∈ state.rdrRules, DaemonState.isFor proto hostPort rule = false) ∨
        state.activeUtuns = ∅ ∧
          ∀ rule ∈ state.rdrRules, DaemonState.isFor proto hostPort rule = true
  | .teardownUtun _ | .createUtun | .assignUtunAlias _ _ => True

/-! ## The host's answers -/

section Scripted

variable {Address : Type} {rules : TextRules Address} {outcomes : Nat → Option String}
  {order : UtunOrder}

theorem ok_reload_scripted (world : World Nat) :
    (reloadNatAnchor (scripted outcomes) order world).1.ok = true ↔
      world.state.anchorText order = "" ∨ ReloadSucceeds outcomes world.system := by
  rw [reloadNatAnchor_eq]
  split
  · rename_i empty
    exact iff_of_true rfl (Or.inl empty)
  · rename_i nonempty
    rw [or_iff_right nonempty, ReloadSucceeds]
    cases written : outcomes world.system with
    | some error => simp [perform, scripted, written, errResp]
    | none =>
        cases loaded : outcomes (world.system + 1) with
        | some error => simp [perform, runPfctl, scripted, written, loaded, errResp]
        | none => simp [perform, runPfctl, scripted, written, loaded, okResp]

/-- Configuring an interface takes five calls, three of which matter. -/
theorem configureUtun_scripted (iface ipv4Addr ipv4Peer : String) (state : DaemonState) :
    let configured := configureUtun (scripted outcomes) iface ipv4Addr ipv4Peer ⟨0, state⟩
    (configured.1 = none ↔ outcomes 1 = none ∧ outcomes 3 = none ∧ outcomes 4 = none) ∧
      (configured.1 = none → configured.2.system = 5) := by
  intro configured
  simp only [configured]
  rw [configureUtun_eq]
  simp only [runRoute, runIfconfig, runSysctlSet, perform, scripted, Nat.zero_add, Nat.reduceAdd]
  cases assigned : outcomes 1 with
  | some error => simp
  | none =>
      cases forwarding : outcomes 3 with
      | some error => simp
      | none => cases forwarding6 : outcomes 4 <;> simp

theorem setupAccepted_scripted (iface ipv4Addr ipv4Peer egressIface : String)
    (state : DaemonState) :
    SetupAccepted (scripted outcomes) rules iface ipv4Addr ipv4Peer egressIface ⟨0, state⟩ ↔
      ConfigureSucceeds rules outcomes iface egressIface := by
  rw [SetupAccepted, ConfigureSucceeds, (configureUtun_scripted _ _ _ _).1]

/-! ## Changes that change nothing -/

theorem withUtun_eq_self {state : DaemonState} {iface : String} {setup : UtunSetup} :
    state.withUtun iface setup = state ↔ state.activeUtuns.lookup iface = some setup := by
  constructor
  · intro same
    rw [← same]
    exact Finmap.lookup_insert _
  · intro found
    have entries_eq : state.activeUtuns.insert iface setup = state.activeUtuns := by
      refine Finmap.ext_lookup fun other => ?_
      rw [HashMap.lookup_insert_eq]
      split
      · rename_i same
        rw [same, found]
      · rfl
    rw [DaemonState.withUtun, entries_eq]

theorem withoutRdr_eq_self {state : DaemonState} {proto : String} {hostPort : UInt16} :
    state.withoutRdr proto hostPort = state ↔
      ∀ rule ∈ state.rdrRules, DaemonState.isFor proto hostPort rule = false := by
  have rules_eq : state.withoutRdr proto hostPort = state ↔
      (state.rdrRules.filter fun rule => !DaemonState.isFor proto hostPort rule) =
        state.rdrRules :=
    ⟨congrArg DaemonState.rdrRules,
      fun same => congrArg (fun forwards => { state with rdrRules := forwards }) same⟩
  rw [rules_eq, List.filter_eq_self]
  simp

/-- Adding a forward changes nothing when it is the last one already and the only one for its
port. -/
theorem withRdr_eq_self {state : DaemonState} {proto vmIp : String} {hostPort vmPort : UInt16} :
    (state.withoutRdr proto hostPort).withRdr ⟨proto, hostPort, vmIp, vmPort⟩ = state ↔
      ∃ others, state.rdrRules = others ++ [⟨proto, hostPort, vmIp, vmPort⟩] ∧
        ∀ rule ∈ others, DaemonState.isFor proto hostPort rule = false := by
  constructor
  · intro same
    refine ⟨(state.withoutRdr proto hostPort).rdrRules, ?_, ?_⟩
    · exact (congrArg DaemonState.rdrRules same).symm
    · intro rule member
      simpa using (List.mem_filter.mp member).2
  · rintro ⟨others, rules_eq, unrelated⟩
    have kept : (others.filter fun rule => !DaemonState.isFor proto hostPort rule) = others :=
      List.filter_eq_self.mpr fun rule member => by simp [unrelated rule member]
    have forwards_eq : (state.rdrRules.filter fun rule =>
        !DaemonState.isFor proto hostPort rule) = others := by
      rw [rules_eq, List.filter_append, kept]
      simp [DaemonState.isFor]
    rw [DaemonState.withRdr, DaemonState.withoutRdr, forwards_eq, ← rules_eq]

/-- Without the forwards for a port nothing is left to load exactly when there was nothing else. -/
theorem anchorText_withoutRdr {state : DaemonState} {proto : String} {hostPort : UInt16} :
    (state.withoutRdr proto hostPort).anchorText order = "" ↔
      state.activeUtuns = ∅ ∧
        ∀ rule ∈ state.rdrRules, DaemonState.isFor proto hostPort rule = true := by
  rw [DaemonState.anchorText_eq_empty]
  refine and_congr_right fun _ => ?_
  rw [DaemonState.withoutRdr, List.filter_eq_nil_iff]
  simp

/-! ## One request -/

/-- The answer is no error, or the state is as before. -/
def Atomic (state : DaemonState) (outcome : Answer × World Nat) : Prop :=
  outcome.1.ok = false → outcome.2.state = state

/-- A change that is made before the anchor is loaded is undone by nothing. -/
theorem atomic_reload_iff {state : DaemonState} {world : World Nat} {response : Response}
    (same_ok : response.ok = (reloadNatAnchor (scripted outcomes) order world).1.ok) :
    Atomic state
        (.response response, (reloadNatAnchor (scripted outcomes) order world).2) ↔
      world.state.anchorText order = "" ∨ ReloadSucceeds outcomes world.system ∨
        world.state = state := by
  have loaded : (reloadNatAnchor (scripted outcomes) order world).1.ok = true ↔ _ :=
    ok_reload_scripted world
  rw [Atomic, Answer.ok, same_ok, keepsState_reloadNatAnchor, ← or_assoc, ← loaded]
  cases (reloadNatAnchor (scripted outcomes) order world).1.ok <;> simp

theorem atomic_setup_iff (iface ipv4Addr ipv4Peer ipv4Cidr egressIface : String)
    (state : DaemonState) :
    Atomic state (handleRequest (scripted outcomes) rules order
        (.setupUtun iface ipv4Addr ipv4Peer ipv4Cidr egressIface) ⟨0, state⟩) ↔
      LeavesNoTrace rules outcomes state
        (.setupUtun iface ipv4Addr ipv4Peer ipv4Cidr egressIface) := by
  rw [LeavesNoTrace, ← setupAccepted_scripted iface ipv4Addr ipv4Peer egressIface state]
  by_cases accepted :
      SetupAccepted (scripted outcomes) rules iface ipv4Addr ipv4Peer egressIface ⟨0, state⟩
  · have configured : (setupWorld (scripted outcomes) iface ipv4Addr ipv4Peer ipv4Cidr egressIface
        ⟨0, state⟩).system = 7 :=
      congrArg (· + 2) ((configureUtun_scripted iface ipv4Addr ipv4Peer state).2 accepted.2.2)
    have same_ok (reloaded : Response) :
        (if reloaded.ok then okResp else reloaded).ok = reloaded.ok := by
      cases ok : reloaded.ok <;> simp [ok, okResp]
    rw [handleRequest, map_apply, handleSetupUtun_of_accepted accepted,
      atomic_reload_iff (same_ok _), configured, state_setupWorld, withUtun_eq_self,
      or_iff_right (not_not.mpr accepted)]
    refine or_iff_right fun empty => ?_
    have no_entry := (DaemonState.anchorText_eq_empty.mp empty).1
    have entry := congrArg (Finmap.lookup iface) no_entry
    simp [DaemonState.withUtun] at entry
  · refine iff_of_true (fun _ => ?_) (Or.inl accepted)
    exact (handleSetupUtun_of_refused accepted).2

theorem atomic_addRdr_iff (proto : String) (hostPort : UInt16) (vmIp : String) (vmPort : UInt16)
    (state : DaemonState) :
    Atomic state (handleRequest (scripted outcomes) rules order
        (.addRdr proto hostPort vmIp vmPort) ⟨0, state⟩) ↔
      LeavesNoTrace rules outcomes state (.addRdr proto hostPort vmIp vmPort) := by
  rw [LeavesNoTrace, ← withRdr_eq_self]
  by_cases valid : proto = "tcp" ∨ proto = "udp"
  · rw [handleRequest, map_apply, handleAddRdr_of_valid valid, or_iff_right (not_not.mpr valid)]
    rw [atomic_reload_iff rfl, DaemonState.anchorText_eq_empty]
    refine or_iff_right ?_
    simp [DaemonState.withRdr]
  · rw [handleRequest, map_apply, handleAddRdr_of_invalid valid]
    exact iff_of_true (fun _ => rfl) (Or.inl valid)

theorem atomic_removeRdr_iff (proto : String) (hostPort : UInt16) (state : DaemonState) :
    Atomic state (handleRequest (scripted outcomes) rules order
        (.removeRdr proto hostPort) ⟨0, state⟩) ↔
      LeavesNoTrace rules outcomes state (.removeRdr proto hostPort) := by
  rw [LeavesNoTrace, ← withoutRdr_eq_self, handleRequest, map_apply, handleRemoveRdr_eq,
    atomic_reload_iff rfl, anchorText_withoutRdr, or_comm, or_assoc]

theorem atomic_teardown (iface : String) (state : DaemonState) :
    Atomic state
      (handleRequest (scripted outcomes) rules order (.teardownUtun iface) ⟨0, state⟩) := by
  intro failed
  rw [handleRequest, map_apply, handleTeardownUtun_eq] at failed
  cases failed

theorem atomic_assign (iface addr : String) (state : DaemonState) :
    Atomic state
      (handleRequest (scripted outcomes) rules order (.assignUtunAlias iface addr) ⟨0, state⟩) := by
  rw [handleRequest, map_apply]
  by_cases accepted : AssignAccepted rules iface addr
  · rw [handleAssignUtunAlias_of_accepted accepted]
    split
    · exact fun _ => rfl
    · intro failed
      cases failed
  · obtain ⟨message, refused⟩ := handleAssignUtunAlias_of_refused accepted (⟨0, state⟩ : World Nat)
    rw [refused]
    exact fun _ => rfl

theorem atomic_request_iff (request : Request) (state : DaemonState) :
    Atomic state (handleRequest (scripted outcomes) rules order request ⟨0, state⟩) ↔
      LeavesNoTrace rules outcomes state request := by
  cases request with
  | setupUtun iface ipv4Addr ipv4Peer ipv4Cidr egressIface =>
      exact atomic_setup_iff iface ipv4Addr ipv4Peer ipv4Cidr egressIface state
  | teardownUtun iface => exact iff_of_true (atomic_teardown iface state) trivial
  | addRdr proto hostPort vmIp vmPort => exact atomic_addRdr_iff proto hostPort vmIp vmPort state
  | removeRdr proto hostPort => exact atomic_removeRdr_iff proto hostPort state
  | createUtun => exact iff_of_true (fun _ => rfl) trivial
  | assignUtunAlias iface addr => exact iff_of_true (atomic_assign iface addr state) trivial

end Scripted

/-- For every state, every line and every outcome of the system calls it leads to: a failed request
leaves the state as it was if and only if it is refused before it changes anything, or the anchor
can be loaded, or what it changes was that way before. -/
theorem failed_request_keeps_state_iff {Address : Type} (rules : TextRules Address)
    (order : UtunOrder) (outcomes : Nat → Option String) (state : DaemonState) (line : String) :
    Atomic state (handleConnection (scripted outcomes) rules order line ⟨0, state⟩) ↔
      ∀ request, Request.ofLine line = .ok request →
        LeavesNoTrace rules outcomes state request := by
  unfold handleConnection
  cases Request.ofLine line with
  | error error => exact iff_of_true (fun _ => rfl) (by simp)
  | ok request =>
      refine (atomic_request_iff request state).trans ⟨?_, fun each => each request rfl⟩
      rintro traceless other same
      exact Except.ok.inj same ▸ traceless

/-- A forward that could not be loaded stays in the state. -/
theorem failed_forward_kept :
    ¬ ∀ (rules : TextRules Unit) (order : UtunOrder) (outcomes : Nat → Option String)
      (state : DaemonState) (line : String),
      Atomic state (handleConnection (scripted outcomes) rules order line ⟨0, state⟩) := by
  intro atomic
  have kept := atomic (asciiRules fun _ => none) (.sorted _)
    (fun call => if call = 1 then some "busy" else none) .new
    (Request.addRdr "tcp" 2222 "192.168.105.2" 22).toLine
  rw [handleConnection_toLine] at kept
  have traceless := (atomic_request_iff _ _).mp kept
  simp [LeavesNoTrace, ReloadSucceeds, DaemonState.new] at traceless

end Pelagos.Pfctl
