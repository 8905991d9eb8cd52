import Pelagos.Library.Serde
import Pelagos.Library.Text

/-!
# The anchor of the packet filter helper

The privileged helper keeps one entry for each active utun and a list of port forwards, and renders
them to one text of rules: translation rules first, then filter rules.
-/

namespace Pelagos.Pfctl

/-- What is kept of an active utun. -/
structure UtunSetup where
  egressIface : String
  ipv4Cidr : String
  deriving DecidableEq

/-- A port forward. -/
structure RdrRule where
  proto : String
  hostPort : UInt16
  vmIp : String
  vmPort : UInt16
  deriving DecidableEq

/-- The state of the helper. -/
structure DaemonState where
  /-- Active utuns by interface name. -/
  activeUtuns : HashMap String UtunSetup
  rdrRules : List RdrRule
  /-- Interfaces with the addresses routed to them. -/
  ipv6Aliases : List (String × String)

/-- The state at the start. -/
def DaemonState.new : DaemonState := { activeUtuns := ∅, rdrRules := [], ipv6Aliases := [] }

namespace DaemonState

/-- The state with an entry for the interface. -/
def withUtun (state : DaemonState) (iface : String) (setup : UtunSetup) : DaemonState :=
  { state with activeUtuns := state.activeUtuns.insert iface setup }

def withoutUtun (state : DaemonState) (iface : String) : DaemonState :=
  { state with activeUtuns := state.activeUtuns.erase iface }

/-- The forward is the one for this protocol and port. -/
def isFor (proto : String) (hostPort : UInt16) (rule : RdrRule) : Bool :=
  rule.proto == proto && rule.hostPort == hostPort

def withoutRdr (state : DaemonState) (proto : String) (hostPort : UInt16) : DaemonState :=
  { state with rdrRules := state.rdrRules.filter fun rule => !isFor proto hostPort rule }

/-- The state with one more forward at the end. -/
def withRdr (state : DaemonState) (rule : RdrRule) : DaemonState :=
  { state with rdrRules := state.rdrRules ++ [rule] }

def withAlias (state : DaemonState) (iface addr : String) : DaemonState :=
  { state with ipv6Aliases := state.ipv6Aliases ++ [(iface, addr)] }

end DaemonState

/-- An order in which the active utuns are visited. -/
abbrev UtunOrder := Serde.MapOrder String UtunSetup

/-- The active utuns in the order in which they are visited. -/
def DaemonState.setups (state : DaemonState) (order : UtunOrder) : List UtunSetup :=
  (order.entries state.activeUtuns).map Prod.snd

/-- The masquerade rule of a utun. -/
def natRule (setup : UtunSetup) : String :=
  "nat on " ++ setup.egressIface ++ " inet from " ++ setup.ipv4Cidr ++ " to any -> (" ++
    setup.egressIface ++ ")\n"

/-- The rule that redirects connections from the host itself. -/
def loopbackRdrRule (rule : RdrRule) : String :=
  "rdr pass on lo0 proto " ++ rule.proto ++ " from any to 127.0.0.1 port " ++
    rule.hostPort.toNat.repr ++ " -> " ++ rule.vmIp ++ " port " ++ rule.vmPort.toNat.repr ++ "\n"

/-- The rule that redirects connections from outside. -/
def egressRdrRule (egress : String) (rule : RdrRule) : String :=
  "rdr pass on " ++ egress ++ " proto " ++ rule.proto ++ " from any to any port " ++
    rule.hostPort.toNat.repr ++ " -> " ++ rule.vmIp ++ " port " ++ rule.vmPort.toNat.repr ++ "\n"

/-- The filter rule of a utun. -/
def passRule (setup : UtunSetup) : String :=
  "pass quick inet from " ++ setup.ipv4Cidr ++ " to " ++ setup.ipv4Cidr ++ "\n"

/-- The rules of a port forward; the one for the egress interface needs an active utun. -/
def rdrRulesOf (anyEgress : Option String) (rule : RdrRule) : List String :=
  loopbackRdrRule rule :: (anyEgress.map fun egress => egressRdrRule egress rule).toList

/-- The rules in the order in which they are written. -/
def DaemonState.anchorRules (state : DaemonState) (order : UtunOrder) : List String :=
  let anyEgress := (state.setups order).head?.map UtunSetup.egressIface
  (state.setups order).map natRule ++ state.rdrRules.flatMap (rdrRulesOf anyEgress) ++
    (state.setups order).map passRule

/-- The text of the anchor. -/
def DaemonState.anchorText (state : DaemonState) (order : UtunOrder) : String :=
  String.join (state.anchorRules order)

/-! ## When there are no rules -/

theorem DaemonState.setups_eq_nil {state : DaemonState} {order : UtunOrder} :
    state.setups order = [] ↔ state.activeUtuns = ∅ := by
  rw [setups, List.map_eq_nil_iff]
  constructor
  · intro empty
    refine Finmap.ext_lookup fun iface => ?_
    rw [Finmap.lookup_empty]
    cases found : state.activeUtuns.lookup iface with
    | none => rfl
    | some setup =>
        have entered := (order.complete state.activeUtuns iface setup).mpr found
        rw [empty] at entered
        cases entered
  · intro empty
    rw [List.eq_nil_iff_forall_not_mem]
    rintro ⟨iface, setup⟩ entered
    have found := (order.complete state.activeUtuns iface setup).mp entered
    rw [empty] at found
    cases found

theorem append_newline_ne_empty (text : String) : text ++ "\n" ≠ "" := by
  intro empty
  have newline_gone := congrArg String.toList empty
  simp at newline_gone

/-- Every rule ends its line. -/
theorem DaemonState.exists_of_mem_anchorRules {state : DaemonState} {order : UtunOrder}
    {rule : String} (member : rule ∈ state.anchorRules order) : ∃ text, rule = text ++ "\n" := by
  simp only [anchorRules, List.mem_append, List.mem_map, List.mem_flatMap, rdrRulesOf,
    List.mem_cons, Option.mem_toList, Option.map_eq_some_iff] at member
  rcases member with (⟨setup, -, rfl⟩ | ⟨forward, -, rfl | ⟨egress, -, rfl⟩⟩) | ⟨setup, -, rfl⟩
  · exact ⟨"nat on " ++ setup.egressIface ++ " inet from " ++ setup.ipv4Cidr ++ " to any -> (" ++
      setup.egressIface ++ ")", String.toList_inj.mp (by simp [natRule])⟩
  · exact ⟨_, rfl⟩
  · exact ⟨_, rfl⟩
  · exact ⟨_, rfl⟩

/-- The text is empty exactly when nothing is active and nothing forwarded. -/
theorem DaemonState.anchorText_eq_empty {state : DaemonState} {order : UtunOrder} :
    state.anchorText order = "" ↔ state.activeUtuns = ∅ ∧ state.rdrRules = [] := by
  have no_rules : state.anchorText order = "" ↔ state.anchorRules order = [] := by
    rw [anchorText, ← String.toList_eq_nil_iff, String.toList_join, List.flatMap_eq_nil_iff,
      List.eq_nil_iff_forall_not_mem]
    refine forall_congr' fun rule => ⟨fun empty member => ?_, fun absent member => ?_⟩
    · obtain ⟨text, rfl⟩ := exists_of_mem_anchorRules member
      exact append_newline_ne_empty text (String.toList_eq_nil_iff.mp (empty member))
    · exact absurd member absent
  have no_forwards (egress : Option String) :
      state.rdrRules.flatMap (rdrRulesOf egress) = [] ↔ state.rdrRules = [] := by
    rw [List.flatMap_eq_nil_iff, List.eq_nil_iff_forall_not_mem]
    simp [rdrRulesOf]
  have no_setups : state.setups order = [] ↔ state.activeUtuns = ∅ := setups_eq_nil
  rw [no_rules, ← no_setups, anchorRules, List.append_eq_nil_iff, List.append_eq_nil_iff,
    List.map_eq_nil_iff, List.map_eq_nil_iff, no_forwards]
  exact ⟨fun ⟨⟨idle, unforwarded⟩, _⟩ => ⟨idle, unforwarded⟩,
    fun ⟨idle, unforwarded⟩ => ⟨⟨idle, unforwarded⟩, idle⟩⟩

end Pelagos.Pfctl
