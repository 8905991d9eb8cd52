import Pelagos.Daemon.Ports
import Pelagos.DockerShim.Cache

/-!
# Port specifications of the docker shim

The shim reads a published port as `[host_ip:]host_port:container_port[/proto]` and repeats the two
port texts as they stand; the daemon reads the same text as `host_port:container_port` or as one
bare port, and requires numbers below 65536.  The two agree on the form they share and part on the
forms that only one of them has.
-/

namespace Pelagos.DockerShim

open Pelagos.Daemon (PortForward parsePort parsePortSpec)

/-- One host side of a published port in Docker's maps. -/
structure PortBinding where
  hostIp : String
  hostPort : String
  deriving DecidableEq

/-- The texts that the shim reads out of one specification. -/
structure SpecBinding where
  hostPort : String
  containerPort : String
  proto : String
  deriving DecidableEq

/-- Strip the optional protocol suffix: `5000:5000/tcp` becomes `5000:5000` and `tcp`. -/
def stripProtocol (spec : String) : String × String :=
  match Text.rsplitOnce '/' spec with
  | some (body, proto) => (body, proto)
  | none => (spec, "tcp")

/-- The body that the loops of `build_ports_map` and `cmd_port` share. -/
def specBinding (spec : String) : Option SpecBinding :=
  let (body, proto) := stripProtocol spec
  match Text.splitn 3 ':' body with
  | [_, hostPort, containerPort] => some { hostPort, containerPort, proto }
  | [hostPort, containerPort] => some { hostPort, containerPort, proto }
  | _ => none

namespace SpecBinding

/-- The key of Docker's port maps: `container_port/proto`. -/
def key (binding : SpecBinding) : String := binding.containerPort ++ "/" ++ binding.proto

/-- The host side that `build_ports_map` stores. -/
def host (binding : SpecBinding) : PortBinding :=
  { hostIp := "0.0.0.0", hostPort := binding.hostPort }

/-- The line that `cmd_port` prints. -/
def line (binding : SpecBinding) : String :=
  binding.key ++ " -> 0.0.0.0:" ++ binding.hostPort

end SpecBinding

/-- `NetworkSettings.Ports` and `HostConfig.PortBindings` of a container. -/
def buildPortsMap (portSpecs : List String) : HashMap String (List PortBinding) :=
  portSpecs.foldl
    (fun map spec =>
      match specBinding spec with
      | none => map
      | some binding => HashMap.push map binding.key binding.host)
    ∅

/-- What a command printed and the code it exits with. -/
structure PortReport where
  stdout : List String
  stderr : List String
  code : Int32
  deriving DecidableEq

/-- The loop of `cmd_port`, after the lines already printed. -/
def printPorts (printed : List String) : List String → List String
  | [] => printed
  | spec :: specs =>
      match specBinding spec with
      | none => printPorts printed specs
      | some binding => printPorts (printed ++ [binding.line]) specs

/-- `docker port <container>`. -/
def cmdPort (cache : HashMap String CachedContainer) (name : String) : PortReport :=
  match cache.lookup name with
  | none =>
      { stdout := [], stderr := ["Error: No such container: " ++ name], code := 1 }
  | some container =>
      if container.portSpecs.isEmpty then { stdout := [], stderr := [], code := 0 }
      else { stdout := printPorts [] container.portSpecs, stderr := [], code := 0 }

theorem printPorts_eq (printed specs : List String) :
    printPorts printed specs = printed ++ (specs.filterMap specBinding).map SpecBinding.line := by
  induction specs generalizing printed with
  | nil => simp [printPorts]
  | cons spec specs ih =>
      cases read : specBinding spec with
      | none => simp [printPorts, read, ih]
      | some binding => simp [printPorts, read, ih]

/-- `cmd_port` prints one line for every specification it can read, in order. -/
theorem cmdPort_stdout {cache : HashMap String CachedContainer} {name : String}
    {container : CachedContainer} (cached : cache.lookup name = some container) :
    (cmdPort cache name).stdout =
      (container.portSpecs.filterMap specBinding).map SpecBinding.line := by
  cases specs : container.portSpecs with
  | nil => simp [cmdPort, cached, specs]
  | cons spec rest => simp [cmdPort, cached, specs, printPorts_eq]

/-- Every member of the list pushes its host side under its own key. -/
theorem buildPortsMap_eq (portSpecs : List String) :
    buildPortsMap portSpecs =
      ((portSpecs.filterMap specBinding).map fun binding => (binding.key, binding.host)).foldl
        (fun map entry => HashMap.push map entry.1 entry.2) ∅ := by
  rw [buildPortsMap]
  generalize (∅ : HashMap String (List PortBinding)) = map
  induction portSpecs generalizing map with
  | nil => rfl
  | cons spec specs ih =>
      cases read : specBinding spec with
      | none => simp only [List.foldl_cons, List.filterMap_cons, read, ih]
      | some binding =>
          simp only [List.foldl_cons, List.filterMap_cons, List.map_cons, read, ih]

/-! ## Keys tell bindings apart -/

theorem stripProtocol_proto_free (spec : String) : '/' ∉ (stripProtocol spec).2.toList := by
  rw [stripProtocol]
  split
  · rename_i body proto split
    exact (Text.rsplitOnce_eq_some split).2
  · simp

theorem specBinding_proto {spec : String} {binding : SpecBinding}
    (read : specBinding spec = some binding) : binding.proto = (stripProtocol spec).2 := by
  rw [specBinding] at read
  dsimp only at read
  split at read
  · exact (congrArg SpecBinding.proto (Option.some.inj read)).symm
  · exact (congrArg SpecBinding.proto (Option.some.inj read)).symm
  · cases read

/-- The last slash of a key ends the container port. -/
theorem append_slash_inj (left front : List Char) {right back : List Char} (free : '/' ∉ right)
    (back_free : '/' ∉ back) :
    left ++ '/' :: right = front ++ '/' :: back ↔ left = front ∧ right = back := by
  constructor
  · intro same
    have reversed := congrArg List.reverse same
    simp only [List.reverse_append, List.reverse_cons, List.append_assoc,
      List.singleton_append] at reversed
    have split := Text.splitOnce_append left.reverse (mt List.mem_reverse.mp free)
    rw [reversed, Text.splitOnce_append front.reverse (mt List.mem_reverse.mp back_free)] at split
    obtain ⟨back_eq, front_eq⟩ := Prod.mk.inj (Option.some.inj split)
    exact ⟨(List.reverse_inj.mp front_eq).symm, (List.reverse_inj.mp back_eq).symm⟩
  · rintro ⟨rfl, rfl⟩
    rfl

/-- A binding is stored under the TCP key of a container port exactly when it is one for it. -/
theorem key_eq_tcp_iff {spec : String} {binding : SpecBinding}
    (read : specBinding spec = some binding) (containerPort : String) :
    binding.key = containerPort ++ "/tcp" ↔
      binding.containerPort = containerPort ∧ binding.proto = "tcp" := by
  have free : '/' ∉ binding.proto.toList := by
    rw [specBinding_proto read]
    exact stripProtocol_proto_free spec
  have tcp_free : '/' ∉ "tcp".toList := by decide
  have separated :=
    append_slash_inj binding.containerPort.toList containerPort.toList free tcp_free
  rw [String.toList_inj, String.toList_inj] at separated
  rw [← separated, SpecBinding.key, ← String.toList_inj]
  simp

/-! ## The two grammars -/

/-- The TCP binding that the shim reports for one specification. -/
def tcpBinding (spec : String) : Option SpecBinding :=
  (specBinding spec).filter fun binding => binding.proto = "tcp"

/-- The shim reports a TCP binding exactly when the daemon accepts the specification, and with the
port numbers the daemon reads. -/
def SpecAgrees (spec : String) : Prop :=
  (tcpBinding spec).map (fun binding =>
      (parsePort binding.hostPort, parsePort binding.containerPort)) =
    (parsePortSpec spec).map fun forward =>
      (some forward.hostPort, some forward.containerPort)

/-- The specifications that both grammars accept or both refuse as a TCP port: two port numbers
around one colon, no colon and no number, and a protocol suffix on what is no TCP pair. -/
def SharedGrammar (spec : String) : Prop :=
  match Text.rsplitOnce '/' spec with
  | some (body, proto) => proto = "tcp" → ':' ∉ body.toList
  | none =>
      if ':' ∈ spec.toList then
        ∃ hostPort containerPort : String, spec = hostPort ++ ":" ++ containerPort ∧
          (parsePort hostPort).isSome ∧ (parsePort containerPort).isSome
      else parsePort spec = none

/-- A port number holds neither a colon nor a slash. -/
theorem parsePort_eq_none_of_mem {text : String} {char : Char} (member : char ∈ text.toList)
    (separator : char = ':' ∨ char = '/') : parsePort text = none := by
  rw [parsePort, Option.map_eq_none_iff, Option.eq_none_iff_forall_ne_some]
  intro value read
  have digit := Text.isDigit_of_parseUnsigned read member
  rcases separator with rfl | rfl <;> simp at digit

/-- The first colon of a specification separates it into two texts. -/
theorem exists_first_colon {spec : String} (colon : ':' ∈ spec.toList) :
    ∃ front back : String, spec = front ++ ":" ++ back ∧ ':' ∉ front.toList := by
  cases split : Text.splitOnce ':' spec.toList with
  | none => exact absurd colon (Text.splitOnce_eq_none_iff.mp split)
  | some halves =>
      obtain ⟨spec_eq, free⟩ := Text.splitOnce_eq_some split
      refine ⟨String.ofList halves.1, String.ofList halves.2, ?_, by simpa using free⟩
      exact String.toList_inj.mp (by simp [spec_eq])

theorem splitFirst_inj {front back front' back' : String} (free : ':' ∉ front.toList)
    (free' : ':' ∉ front'.toList) (same : front ++ ":" ++ back = front' ++ ":" ++ back') :
    front = front' ∧ back = back' := by
  have split := Text.splitOnce_append back.toList free
  have split' := Text.splitOnce_append back'.toList free'
  have chars : front.toList ++ ':' :: back.toList = front'.toList ++ ':' :: back'.toList := by
    simpa using congrArg String.toList same
  rw [chars, split'] at split
  obtain ⟨front_eq, back_eq⟩ := Prod.mk.inj (Option.some.inj split)
  exact ⟨String.toList_inj.mp front_eq.symm, String.toList_inj.mp back_eq.symm⟩

theorem parsePortSpec_of_free {spec : String} (free : ':' ∉ spec.toList) :
    parsePortSpec spec =
      (parsePort spec).map fun port => { hostPort := port, containerPort := port } := by
  rw [parsePortSpec, Text.splitn_of_free 1 free]

theorem parsePortSpec_append {front : String} (back : String) (free : ':' ∉ front.toList) :
    parsePortSpec (front ++ ":" ++ back) =
      (parsePort front).bind fun hostPort =>
        (parsePort back).map fun containerPort => { hostPort, containerPort } := by
  have split : Text.splitn 2 ':' (front ++ ":" ++ back) = [front, back] := by
    simpa [Text.splitn, Text.splitnChars] using Text.splitn_append 0 back free
  rw [parsePortSpec, split]
  dsimp only
  cases parsePort front <;> cases parsePort back <;> rfl

/-- The daemon has no protocol suffixes. -/
theorem parsePortSpec_of_slash {spec : String} (slash : '/' ∈ spec.toList) :
    parsePortSpec spec = none := by
  by_cases colon : ':' ∈ spec.toList
  · obtain ⟨front, back, rfl, free⟩ := exists_first_colon colon
    rw [parsePortSpec_append back free]
    rw [String.toList_append, String.toList_append, List.mem_append, List.mem_append] at slash
    rcases slash with (in_front | in_colon) | in_back
    · rw [parsePort_eq_none_of_mem in_front (.inr rfl), Option.bind_none]
    · simp at in_colon
    · rw [parsePort_eq_none_of_mem in_back (.inr rfl)]
      cases parsePort front <;> rfl
  · rw [parsePortSpec_of_free colon, parsePort_eq_none_of_mem slash (.inr rfl), Option.map_none]

theorem specBinding_of_free {spec : String} (free : ':' ∉ (stripProtocol spec).1.toList) :
    specBinding spec = none := by
  rw [specBinding]
  dsimp only
  rw [Text.splitn_of_free 2 free]

/-- With one colon in its body, a specification is read as a pair of ports. -/
theorem specBinding_of_pair {spec front back : String}
    (body_eq : (stripProtocol spec).1 = front ++ ":" ++ back) (free : ':' ∉ front.toList)
    (back_free : ':' ∉ back.toList) :
    specBinding spec =
      some { hostPort := front, containerPort := back, proto := (stripProtocol spec).2 } := by
  have split : Text.splitn 3 ':' (front ++ ":" ++ back) = [front, back] :=
    (Text.splitn_append 1 back free).trans (by rw [Text.splitn_of_free 1 back_free])
  rw [specBinding]
  dsimp only
  rw [body_eq, split]

/-- With a further colon, the text before the first one is taken for an address. -/
theorem specBinding_of_address {spec address : String} {front back : String}
    (body_eq : (stripProtocol spec).1 = address ++ ":" ++ (front ++ ":" ++ back))
    (address_free : ':' ∉ address.toList) (free : ':' ∉ front.toList) :
    specBinding spec =
      some { hostPort := front, containerPort := back, proto := (stripProtocol spec).2 } := by
  have inner : Text.splitn 2 ':' (front ++ ":" ++ back) = [front, back] := by
    simpa [Text.splitn, Text.splitnChars] using Text.splitn_append 0 back free
  have split : Text.splitn 3 ':' (address ++ ":" ++ (front ++ ":" ++ back)) =
      [address, front, back] :=
    (Text.splitn_append 1 _ address_free).trans (by rw [inner])
  rw [specBinding]
  dsimp only
  rw [body_eq, split]

/-- The shim reads a binding wherever the specification has a colon before its protocol. -/
theorem specBinding_eq_none_iff (spec : String) :
    specBinding spec = none ↔ ':' ∉ (stripProtocol spec).1.toList := by
  refine ⟨?_, specBinding_of_free⟩
  intro unread colon
  obtain ⟨address, rest, body_eq, address_free⟩ := exists_first_colon colon
  by_cases further : ':' ∈ rest.toList
  · obtain ⟨front, back, rfl, free⟩ := exists_first_colon further
    rw [specBinding_of_address body_eq address_free free] at unread
    cases unread
  · rw [specBinding_of_pair body_eq address_free further] at unread
    cases unread

theorem tcpBinding_eq_none_iff (spec : String) :
    tcpBinding spec = none ↔
      ((stripProtocol spec).2 = "tcp" → ':' ∉ (stripProtocol spec).1.toList) := by
  rw [tcpBinding, Option.filter_eq_none_iff, ← specBinding_eq_none_iff]
  constructor
  · intro other_protocol tcp
    rw [Option.eq_none_iff_forall_ne_some]
    intro binding read
    have not_tcp := other_protocol binding read
    rw [specBinding_proto read, tcp] at not_tcp
    simp at not_tcp
  · intro unread binding read
    rw [specBinding_proto read]
    intro tcp
    rw [unread (of_decide_eq_true tcp)] at read
    cases read

/-- Where the daemon refuses, the two agree when the shim reports no TCP binding. -/
theorem specAgrees_iff_of_refused {spec : String} (refused : parsePortSpec spec = none) :
    SpecAgrees spec ↔ tcpBinding spec = none := by
  rw [SpecAgrees, refused, Option.map_none, Option.map_eq_none_iff]

/-- A pair around its only colon: the two agree exactly when both sides are port numbers. -/
theorem specAgrees_pair_iff {front back : String} (free : ':' ∉ front.toList)
    (back_free : ':' ∉ back.toList)
    (strip : stripProtocol (front ++ ":" ++ back) = (front ++ ":" ++ back, "tcp")) :
    SpecAgrees (front ++ ":" ++ back) ↔
      (parsePort front).isSome ∧ (parsePort back).isSome := by
  have body_eq : (stripProtocol (front ++ ":" ++ back)).1 = front ++ ":" ++ back := by
    rw [strip]
  have read := specBinding_of_pair body_eq free back_free
  rw [SpecAgrees, tcpBinding, read, parsePortSpec_append back free, strip]
  cases front_read : parsePort front <;> cases back_read : parsePort back <;>
    simp [front_read, back_read]

/-- Two port numbers around a colon are the texts around the first one. -/
theorem portPair_iff {front back : String} (free : ':' ∉ front.toList) :
    (∃ hostPort containerPort : String, front ++ ":" ++ back = hostPort ++ ":" ++ containerPort ∧
      (parsePort hostPort).isSome ∧ (parsePort containerPort).isSome) ↔
    (parsePort front).isSome ∧ (parsePort back).isSome := by
  constructor
  · rintro ⟨hostPort, containerPort, same, host_read, container_read⟩
    have host_free : ':' ∉ hostPort.toList := by
      intro member
      simp [parsePort_eq_none_of_mem member (.inl rfl)] at host_read
    obtain ⟨rfl, rfl⟩ := splitFirst_inj free host_free same
    exact ⟨host_read, container_read⟩
  · rintro ⟨host_read, container_read⟩
    exact ⟨front, back, rfl, host_read, container_read⟩

/-- The shim and the daemon agree on a specification exactly in the grammar they share. -/
theorem specAgrees_iff (spec : String) : SpecAgrees spec ↔ SharedGrammar spec := by
  rw [SharedGrammar]
  cases suffix : Text.rsplitOnce '/' spec with
  | some halves =>
      obtain ⟨body, proto⟩ := halves
      have slash : '/' ∈ spec.toList := by
        rw [(Text.rsplitOnce_eq_some suffix).1]
        simp
      rw [specAgrees_iff_of_refused (parsePortSpec_of_slash slash), tcpBinding_eq_none_iff,
        stripProtocol, suffix]
  | none =>
      have strip : stripProtocol spec = (spec, "tcp") := by rw [stripProtocol, suffix]
      dsimp only
      by_cases colon : ':' ∈ spec.toList
      · rw [if_pos colon]
        obtain ⟨front, back, rfl, free⟩ := exists_first_colon colon
        rw [portPair_iff free]
        by_cases further : ':' ∈ back.toList
        · -- The daemon reads everything behind the first colon as one number.
          have refused : parsePortSpec (front ++ ":" ++ back) = none := by
            rw [parsePortSpec_append back free, parsePort_eq_none_of_mem further (.inl rfl)]
            cases parsePort front <;> rfl
          rw [specAgrees_iff_of_refused refused, tcpBinding_eq_none_iff, strip,
            parsePort_eq_none_of_mem further (.inl rfl)]
          exact iff_of_false (fun unread => unread rfl colon) (by simp)
        · exact specAgrees_pair_iff free further strip
      · have unread : tcpBinding spec = none := by
          rw [tcpBinding_eq_none_iff, strip]
          exact fun _ => colon
        rw [if_neg colon, SpecAgrees, unread, parsePortSpec_of_free colon, Option.map_none,
          eq_comm, Option.map_map, Option.map_eq_none_iff]

/-! ## Lists of specifications -/

theorem pushed_tcp (specs : List String) (containerPort : String) :
    HashMap.pushed
        ((specs.filterMap specBinding).map fun binding => (binding.key, binding.host))
        (containerPort ++ "/tcp") =
      ((specs.filterMap tcpBinding).filter fun binding =>
        binding.containerPort = containerPort).map SpecBinding.host := by
  rw [HashMap.pushed]
  induction specs with
  | nil => rfl
  | cons spec specs ih =>
      cases read : specBinding spec with
      | none => simpa [tcpBinding, read] using ih
      | some binding =>
          have keyed := key_eq_tcp_iff read containerPort
          by_cases tcp : binding.proto = "tcp"
          · have tcp_read : tcpBinding spec = some binding := by simp [tcpBinding, read, tcp]
            by_cases named : binding.containerPort = containerPort
            · simpa [read, tcp_read, named, keyed.mpr ⟨named, tcp⟩] using ih
            · simpa [read, tcp_read, named, keyed] using ih
          · have other : tcpBinding spec = none := by simp [tcpBinding, read, tcp]
            simpa [read, other, tcp, keyed] using ih

/-- The shim and the daemon agree exactly on the specifications of the shared grammar; the map
holds, under the TCP key of every container port, the host ports of the members that name it, in
order; and one line is printed for every member that is a binding. -/
theorem port_specs_agreement :
    (∀ spec, SpecAgrees spec ↔ SharedGrammar spec) ∧
      (∀ specs containerPort,
        ((buildPortsMap specs).lookup (containerPort ++ "/tcp")).getD [] =
          ((specs.filterMap tcpBinding).filter fun binding =>
            binding.containerPort = containerPort).map SpecBinding.host) ∧
      ∀ cache name,
        (cmdPort cache name).stdout =
          (((cache.lookup name).elim [] CachedContainer.portSpecs).filterMap specBinding).map
            SpecBinding.line := by
  refine ⟨specAgrees_iff, ?_, ?_⟩
  · intro specs containerPort
    rw [buildPortsMap_eq, HashMap.lookup_foldl_push, Finmap.lookup_empty]
    exact pushed_tcp specs containerPort
  · intro cache name
    cases cached : cache.lookup name with
    | none => rw [cmdPort, cached]; rfl
    | some container => exact cmdPort_stdout cached

/-- A bare port is forwarded by the daemon and not reported by the shim. -/
theorem bare_port_not_reported : ¬SpecAgrees "3000" := by
  have free : ':' ∉ "3000".toList := by decide
  have read : parsePort "3000" = some 3000 := by decide
  have unread : tcpBinding "3000" = none := by
    rw [tcpBinding_eq_none_iff]
    exact fun _ => by decide
  rw [SpecAgrees, unread, parsePortSpec_of_free free, read]
  simp

end Pelagos.DockerShim
