import Pelagos.Pfctl.Requests

/-!
# The helper's state and the system

When the system commands succeed, the loaded anchor, the forwarding flags and the host routes are
what the helper's state says after every sequence of requests.
-/

namespace Pelagos.Pfctl

/-- What the helper's commands change. -/
structure System (Address : Type) where
  /-- Contents of the anchor file. -/
  anchorFile : String
  /-- The loaded anchor. -/
  anchor : String
  forwarding : Bool
  forwarding6 : Bool
  /-- Addresses with a host route. -/
  routes : List Address

namespace System

variable {Address : Type} [DecidableEq Address]

/-- The system before any request. -/
def init : System Address :=
  { anchorFile := "", anchor := "", forwarding := false, forwarding6 := false, routes := [] }

/-- The `pfctl` commands that flush or load an anchor. -/
def pfctl (args : List String) (system : System Address) : System Address :=
  match args with
  | ["-a", name, "-F", "all"] => if name = anchorNat then { system with anchor := "" } else system
  | ["-a", name, "-f", path] =>
      if name = anchorNat ∧ path = anchorFileNat then { system with anchor := system.anchorFile }
      else system
  | _ => system

/-- The `sysctl` commands that set a forwarding flag. -/
def sysctl (setting : String) (system : System Address) : System Address :=
  match setting with
  | "net.inet.ip.forwarding=1" => { system with forwarding := true }
  | "net.inet.ip.forwarding=0" => { system with forwarding := false }
  | "net.inet6.ip6.forwarding=1" => { system with forwarding6 := true }
  | "net.inet6.ip6.forwarding=0" => { system with forwarding6 := false }
  | _ => system

/-- The `route` commands about IPv6 hosts; an address gets no second route. -/
def route (parseIpv6 : String → Option Address) (args : List String) (system : System Address) :
    Option String × System Address :=
  match args with
  | ["add", "-inet6", "-host", addr, "-interface", _] =>
      match parseIpv6 addr with
      | none => (some "bad address", system)
      | some address =>
          if address ∈ system.routes then (some "File exists", system)
          else (none, { system with routes := system.routes ++ [address] })
  | ["delete", "-inet6", "-host", addr] =>
      (none, { system with routes := system.routes.filter (parseIpv6 addr ≠ some ·) })
  | _ => (none, system)

/-- Carry out a system call. -/
def perform (parseIpv6 : String → Option Address) (call : SystemCall) (system : System Address) :
    Option String × System Address :=
  match call with
  | .write path text =>
      (none, if path = anchorFileNat then { system with anchorFile := text } else system)
  | .run "/sbin/pfctl" args => (none, system.pfctl args)
  | .run "/usr/sbin/sysctl" ["-w", setting] => (none, system.sysctl setting)
  | .run "/sbin/route" args => system.route parseIpv6 args
  | .run _ _ => (none, system)

end System

/-- The interface a request about a utun names. -/
def Request.utun? : Request → Option String
  | setupUtun iface _ _ _ _ | teardownUtun iface | assignUtunAlias iface _ => some iface
  | addRdr _ _ _ _ | removeRdr _ _ | createUtun => none

/-- The last setup, teardown or assignment for an interface. -/
def lastUtunRequest (requests : List Request) (iface : String) : Option Request :=
  (requests.filter fun request => request.utun? = some iface).getLast?

theorem lastUtunRequest_concat (requests : List Request) (request : Request) (iface : String) :
    lastUtunRequest (requests ++ [request]) iface =
      if request.utun? = some iface then some request else lastUtunRequest requests iface := by
  rw [lastUtunRequest, List.filter_append]
  split
  · rename_i named
    rw [List.filter_cons_of_pos (by simpa using named)]
    simp
  · rename_i other
    rw [List.filter_cons_of_neg (by simpa using other), List.filter_nil, List.append_nil]
    rfl

section Agreement

variable {Address : Type} [DecidableEq Address] (rules : TextRules Address)

/-- A host on which only adding a route can fail. -/
def workingHost : Host (System Address) where
  perform := System.perform rules.parseIpv6
  createUtun system := (.ok "utun9", system)

/-- The world after the requests, each with the order in which it visits the active utuns. -/
def answerAll (requests : List (Request × UtunOrder)) : World (System Address) :=
  requests.foldl
    (fun world entry => (handleRequest (workingHost rules) rules entry.2 entry.1 world).2)
    { system := .init, state := .new }

/-- The system is what the state says. -/
structure Agrees (world : World (System Address)) : Prop where
  /-- The rules for some order of the utuns are loaded. -/
  anchor : ∃ order, world.system.anchor = world.state.anchorText order
  /-- A protocol and a port have at most one forward. -/
  forwards : (world.state.rdrRules.map fun rule => (rule.proto, rule.hostPort)).Nodup
  forwarding : world.system.forwarding = true ↔ world.state.activeUtuns ≠ ∅
  forwarding6 : world.system.forwarding6 = true ↔ world.state.activeUtuns ≠ ∅
  /-- The routes are those of the aliases. -/
  routes : ∀ address, address ∈ world.system.routes ↔
    ∃ entry ∈ world.state.ipv6Aliases, rules.parseIpv6 entry.2 = some address
  /-- No address is listed twice, however it is written. -/
  distinct : (world.state.ipv6Aliases.map fun entry => rules.parseIpv6 entry.2).Nodup

variable {rules} {world : World (System Address)} {order : UtunOrder}

/-! ## Commands that succeed -/

/-- Loading the anchor succeeds, and the loaded text is that of the state. -/
theorem reloadNatAnchor_working :
    let reloaded := reloadNatAnchor (workingHost rules) order world
    reloaded.1 = okResp ∧ reloaded.2.state = world.state ∧
      reloaded.2.system.anchor = world.state.anchorText order ∧
      reloaded.2.system.forwarding = world.system.forwarding ∧
      reloaded.2.system.forwarding6 = world.system.forwarding6 ∧
      reloaded.2.system.routes = world.system.routes := by
  rw [reloadNatAnchor_eq]
  by_cases empty : world.state.anchorText order = ""
  · rw [if_pos empty, empty]
    exact ⟨rfl, rfl, rfl, rfl, rfl, rfl⟩
  · rw [if_neg empty]
    exact ⟨rfl, rfl, rfl, rfl, rfl, rfl⟩

theorem setupWorld_working (iface ipv4Addr ipv4Peer ipv4Cidr egressIface : String) :
    setupWorld (workingHost rules) iface ipv4Addr ipv4Peer ipv4Cidr egressIface world =
      { system := { world.system with forwarding := true, forwarding6 := true }
        state := world.state.withUtun iface { egressIface, ipv4Cidr } } := rfl

theorem clearAnchor_working :
    clearAnchor (workingHost rules) world =
      ((), { system := { world.system with anchor := "", forwarding := false, forwarding6 := false }
             state := { world.state with rdrRules := [] } }) := rfl

/-- Releasing an interface deletes the routes of its aliases. -/
theorem releaseAliases_working (iface : String) (aliases : List (String × String))
    (world : World (System Address)) :
    ∃ routes, (releaseAliases (workingHost rules) iface aliases world).2 =
        { world with system := { world.system with routes } } ∧
      ∀ address, address ∈ routes ↔ address ∈ world.system.routes ∧
        ∀ entry ∈ aliases, entry.1 = iface → rules.parseIpv6 entry.2 ≠ some address := by
  induction aliases generalizing world with
  | nil => exact ⟨world.system.routes, rfl, by simp⟩
  | cons entry aliases ih =>
      obtain ⟨owner, addr⟩ := entry
      by_cases owned : owner = iface
      · obtain ⟨routes, world_eq, kept⟩ := ih
          { world with system := { world.system with
              routes := world.system.routes.filter (rules.parseIpv6 addr ≠ some ·) } }
        refine ⟨routes, ?_, fun address => ?_⟩
        · rw [releaseAliases, if_pos owned]
          exact world_eq
        · rw [kept]
          simp [owned, and_assoc]
      · obtain ⟨routes, world_eq, kept⟩ := ih world
        refine ⟨routes, ?_, fun address => ?_⟩
        · rw [releaseAliases, if_neg owned]
          exact world_eq
        · rw [kept]
          simp [owned]

theorem releaseUtun_working (iface : String) (world : World (System Address)) :
    ∃ routes, (releaseUtun (workingHost rules) iface world).2 =
        { system := { world.system with routes }
          state := { world.state with
            ipv6Aliases := world.state.ipv6Aliases.filter fun entry => entry.1 ≠ iface } } ∧
      ∀ address, address ∈ routes ↔ address ∈ world.system.routes ∧
        ∀ entry ∈ world.state.ipv6Aliases, entry.1 = iface →
          rules.parseIpv6 entry.2 ≠ some address := by
  obtain ⟨routes, world_eq, kept⟩ : ∃ routes,
      (releaseAliases (workingHost rules) iface world.state.ipv6Aliases world).2 = _ ∧ _ :=
    releaseAliases_working iface world.state.ipv6Aliases world
  refine ⟨routes, ?_, kept⟩
  have run_eq : (releaseUtun (workingHost rules) iface world).2 =
      { system := (releaseAliases (workingHost rules) iface world.state.ipv6Aliases world).2.system
        state :=
          { (releaseAliases (workingHost rules) iface world.state.ipv6Aliases world).2.state with
            ipv6Aliases :=
              (releaseAliases (workingHost rules) iface world.state.ipv6Aliases world).1 } } := rfl
  rw [run_eq, world_eq, releaseAliases_fst]

/-! ## One request -/

/-- Loading the anchor brings about agreement in what it is not already there. -/
theorem agrees_reload
    (forwards : (world.state.rdrRules.map fun rule => (rule.proto, rule.hostPort)).Nodup)
    (forwarding : world.system.forwarding = true ↔ world.state.activeUtuns ≠ ∅)
    (forwarding6 : world.system.forwarding6 = true ↔ world.state.activeUtuns ≠ ∅)
    (routes : ∀ address, address ∈ world.system.routes ↔
      ∃ entry ∈ world.state.ipv6Aliases, rules.parseIpv6 entry.2 = some address)
    (distinct : (world.state.ipv6Aliases.map fun entry => rules.parseIpv6 entry.2).Nodup) :
    Agrees rules (reloadNatAnchor (workingHost rules) order world).2 := by
  obtain ⟨-, state_eq, anchor_eq, forwarding_eq, forwarding6_eq, routes_eq⟩ :
      (reloadNatAnchor (workingHost rules) order world).1 = okResp ∧ _ := reloadNatAnchor_working
  constructor
  · exact ⟨order, by rw [state_eq, anchor_eq]⟩
  all_goals rw [state_eq]
  · exact forwards
  · rwa [forwarding_eq]
  · rwa [forwarding6_eq]
  · rwa [routes_eq]
  · exact distinct

theorem insert_ne_empty (state : DaemonState) (iface : String) (setup : UtunSetup) :
    (state.withUtun iface setup).activeUtuns ≠ ∅ := by
  intro empty
  have entry := congrArg (Finmap.lookup iface) empty
  simp [DaemonState.withUtun] at entry

theorem agrees_setup (agrees : Agrees rules world)
    (iface ipv4Addr ipv4Peer ipv4Cidr egressIface : String) :
    Agrees rules (handleSetupUtun (workingHost rules) rules order iface ipv4Addr ipv4Peer ipv4Cidr
      egressIface world).2 := by
  by_cases accepted :
      SetupAccepted (workingHost rules) rules iface ipv4Addr ipv4Peer egressIface world
  · rw [handleSetupUtun_of_accepted accepted, setupWorld_working]
    refine agrees_reload agrees.forwards ?_ ?_ agrees.routes agrees.distinct
    · exact iff_of_true rfl (insert_ne_empty _ _ _)
    · exact iff_of_true rfl (insert_ne_empty _ _ _)
  · have bad_name :
        ¬ (isSafeIface rules iface = true ∧ isSafeIface rules egressIface = true) :=
      fun safe => accepted ⟨safe.1, safe.2, rfl⟩
    rw [handleSetupUtun_of_bad_name bad_name]
    exact agrees

theorem forwards_filter {state : DaemonState}
    (forwards : (state.rdrRules.map fun rule => (rule.proto, rule.hostPort)).Nodup)
    (proto : String) (hostPort : UInt16) :
    ((state.withoutRdr proto hostPort).rdrRules.map fun rule =>
      (rule.proto, rule.hostPort)).Nodup :=
  forwards.sublist (List.filter_sublist.map _)

theorem agrees_addRdr (agrees : Agrees rules world) (proto : String) (hostPort : UInt16)
    (vmIp : String) (vmPort : UInt16) :
    Agrees rules
      (handleAddRdr (workingHost rules) rules order proto hostPort vmIp vmPort world).2 := by
  by_cases valid : proto = "tcp" ∨ proto = "udp"
  · rw [handleAddRdr_of_valid valid]
    refine agrees_reload ?_ agrees.forwarding agrees.forwarding6 agrees.routes agrees.distinct
    rw [DaemonState.withRdr, List.map_append, List.nodup_append']
    refine ⟨forwards_filter agrees.forwards proto hostPort, by simp, ?_⟩
    intro key member added
    obtain ⟨rule, kept, rfl⟩ := List.mem_map.mp member
    have unrelated := (List.mem_filter.mp kept).2
    obtain ⟨proto_eq, port_eq⟩ : rule.proto = proto ∧ rule.hostPort = hostPort := by
      simpa using added
    simp [DaemonState.isFor, proto_eq, port_eq] at unrelated
  · rw [handleAddRdr_of_invalid valid]
    exact agrees

theorem agrees_removeRdr (agrees : Agrees rules world) (proto : String) (hostPort : UInt16) :
    Agrees rules (handleRemoveRdr (workingHost rules) order proto hostPort world).2 := by
  rw [handleRemoveRdr_eq]
  exact agrees_reload (forwards_filter agrees.forwards proto hostPort) agrees.forwarding
    agrees.forwarding6 agrees.routes agrees.distinct

theorem agrees_assign (agrees : Agrees rules world) (iface addr : String) :
    Agrees rules (handleAssignUtunAlias (workingHost rules) rules iface addr world).2 := by
  by_cases accepted : AssignAccepted rules iface addr
  · obtain ⟨address, read⟩ := Option.isSome_iff_exists.mp accepted.2
    rw [handleAssignUtunAlias_of_accepted accepted]
    by_cases routed : address ∈ world.system.routes
    · have refused : runRoute (workingHost rules)
          ["add", "-inet6", "-host", addr, "-interface", iface] world =
            (some "File exists", world) := by
        simp only [runRoute, perform, workingHost, System.perform, System.route, read,
          if_pos routed]
      rw [refused]
      exact agrees
    · have added : runRoute (workingHost rules)
          ["add", "-inet6", "-host", addr, "-interface", iface] world =
            (none, { world with system :=
              { world.system with routes := world.system.routes ++ [address] } }) := by
        simp only [runRoute, perform, workingHost, System.perform, System.route, read,
          if_neg routed]
      rw [added]
      refine ⟨agrees.anchor, agrees.forwards, agrees.forwarding, agrees.forwarding6,
        fun other => ?_, ?_⟩
      · simp only [DaemonState.withAlias, List.mem_append, List.mem_singleton, agrees.routes,
          or_and_right, exists_or, exists_eq_left, read, Option.some.injEq, eq_comm]
      · rw [DaemonState.withAlias, List.map_append, List.nodup_append']
        refine ⟨agrees.distinct, by simp, fun key member new => ?_⟩
        obtain ⟨entry, is_entry, rfl⟩ := List.mem_map.mp member
        have same : rules.parseIpv6 entry.2 = some address := by simpa [read] using new
        exact routed ((agrees.routes address).mpr ⟨entry, is_entry, same⟩)
  · obtain ⟨message, refused⟩ := handleAssignUtunAlias_of_refused accepted world
    rw [refused]
    exact agrees

/-- Releasing an interface keeps the agreement. -/
theorem agrees_release (agrees : Agrees rules world) (iface : String) :
    Agrees rules (releaseUtun (workingHost rules) iface world).2 := by
  obtain ⟨routes, world_eq, kept⟩ :
      ∃ routes, (releaseUtun (workingHost rules) iface world).2 = _ ∧ _ :=
    releaseUtun_working iface world
  rw [world_eq]
  refine ⟨agrees.anchor, agrees.forwards, agrees.forwarding, agrees.forwarding6, fun address => ?_,
    agrees.distinct.sublist (List.filter_sublist.map _)⟩
  rw [kept, agrees.routes]
  constructor
  · rintro ⟨⟨entry, member, read⟩, released⟩
    refine ⟨entry, List.mem_filter.mpr ⟨member, ?_⟩, read⟩
    simpa using fun owned => released entry member owned read
  · rintro ⟨entry, member, read⟩
    obtain ⟨member, not_owned⟩ := List.mem_filter.mp member
    refine ⟨⟨entry, member, read⟩, fun other other_member owned other_read => ?_⟩
    -- Two entries with one address are the same entry.
    obtain rfl : other = entry :=
      List.inj_on_of_nodup_map agrees.distinct other_member member (other_read.trans read.symm)
    simp [owned] at not_owned

theorem agrees_teardown (agrees : Agrees rules world) (iface : String) :
    Agrees rules (handleTeardownUtun (workingHost rules) order iface world).2 := by
  rw [handleTeardownUtun_eq]
  refine agrees_release ?_ iface
  rw [teardownWorld]
  by_cases last : world.state.activeUtuns.erase iface = ∅
  · rw [if_pos last, clearAnchor_working]
    refine ⟨⟨order, ?_⟩, List.nodup_nil, ?_, ?_, agrees.routes, agrees.distinct⟩
    · exact (DaemonState.anchorText_eq_empty.mpr ⟨last, rfl⟩).symm
    · exact iff_of_false (by simp) (not_not.mpr last)
    · exact iff_of_false (by simp) (not_not.mpr last)
  · rw [if_neg last]
    have active : world.state.activeUtuns ≠ ∅ := by
      intro idle
      refine last (Finmap.ext_lookup fun other => ?_)
      rw [HashMap.lookup_erase_eq, idle]
      split <;> rfl
    refine agrees_reload agrees.forwards ?_ ?_ agrees.routes agrees.distinct
    · exact iff_of_true (agrees.forwarding.mpr active) last
    · exact iff_of_true (agrees.forwarding6.mpr active) last

theorem agrees_request (agrees : Agrees rules world) (request : Request) :
    Agrees rules (handleRequest (workingHost rules) rules order request world).2 := by
  cases request with
  | setupUtun iface ipv4Addr ipv4Peer ipv4Cidr egressIface =>
      exact agrees_setup agrees iface ipv4Addr ipv4Peer ipv4Cidr egressIface
  | teardownUtun iface => exact agrees_teardown agrees iface
  | addRdr proto hostPort vmIp vmPort => exact agrees_addRdr agrees proto hostPort vmIp vmPort
  | removeRdr proto hostPort => exact agrees_removeRdr agrees proto hostPort
  | createUtun => exact agrees
  | assignUtunAlias iface addr => exact agrees_assign agrees iface addr

/-! ## Sequences of requests -/

omit [DecidableEq Address] in
theorem agrees_init : Agrees rules { system := .init, state := .new } where
  anchor := ⟨.sorted _, (DaemonState.anchorText_eq_empty.mpr ⟨rfl, rfl⟩).symm⟩
  forwards := List.nodup_nil
  forwarding := iff_of_false (by simp [System.init]) (not_not.mpr rfl)
  forwarding6 := iff_of_false (by simp [System.init]) (not_not.mpr rfl)
  routes _ := iff_of_false (by simp [System.init]) (by simp [DaemonState.new])
  distinct := List.nodup_nil

variable (rules) in
theorem answerAll_concat (requests : List (Request × UtunOrder)) (request : Request)
    (order : UtunOrder) :
    answerAll rules (requests ++ [(request, order)]) =
      (handleRequest (workingHost rules) rules order request (answerAll rules requests)).2 := by
  rw [answerAll, List.foldl_append]
  rfl

/-- No alias belongs to an interface whose last request was its teardown. -/
theorem not_torn_down_of_mem_aliases (requests : List (Request × UtunOrder))
    {entry : String × String} (listed : entry ∈ (answerAll rules requests).state.ipv6Aliases) :
    lastUtunRequest (requests.map Prod.fst) entry.1 ≠ some (.teardownUtun entry.1) := by
  induction requests using List.reverseRecOn with
  | nil => cases listed
  | append_singleton requests last ih =>
      obtain ⟨request, order⟩ := last
      rw [answerAll_concat] at listed
      obtain ⟨kept, origin⟩ := mem_aliases_of_handleRequest listed
      rw [List.map_append, List.map_singleton, lastUtunRequest_concat]
      split
      · simpa using kept
      · rename_i other
        rcases origin with before | assigned
        · exact ih before
        · exact absurd (by rw [assigned]; rfl) other

/-- After every sequence of requests the loaded anchor, the forwarding flags and the host routes
agree with the state, and no alias is left of an interface that was last torn down. -/
theorem system_agrees_with_state (rules : TextRules Address)
    (requests : List (Request × UtunOrder)) :
    Agrees rules (answerAll rules requests) ∧
      ∀ iface, lastUtunRequest (requests.map Prod.fst) iface = some (.teardownUtun iface) →
        ∀ entry ∈ (answerAll rules requests).state.ipv6Aliases, entry.1 ≠ iface := by
  constructor
  · induction requests using List.reverseRecOn with
    | nil => exact agrees_init
    | append_singleton requests last ih =>
        rw [answerAll_concat]
        exact agrees_request ih last.1
  · rintro iface torn_down entry listed rfl
    exact not_torn_down_of_mem_aliases requests listed torn_down

end Agreement

end Pelagos.Pfctl
