import Pelagos.Library.Ipv6Text
import Pelagos.Pfctl.RelaySessions
import Pelagos.TunRelay.Contract

/-!
# The address of the VM

The relay asks the helper for a route to the VM's address, which crosses as text.  The helper serves
others in between, refuses the request or fails, and the relay asks again with the next frame.  What
the helper has on record for the interface is always the address that the relay takes for
assigned.
-/

namespace Pelagos.TunRelay

open ByteStream Slices Execution Pfctl Serde

/-! ## Addresses as text -/

/-- `Ipv6Addr::segments`. -/
def segments : List UInt8 → List Nat
  | high :: low :: bytes => ofBigEndian [high, low] :: segments bytes
  | _ => []

/-- `Ipv6Addr::octets`, from the segments. -/
def octets (groups : List Nat) : List UInt8 := groups.flatMap (toBigEndian 2)

/-- `Ipv6Addr::from(src).to_string()`. -/
def ipv6ToString (addr : Ipv6) : String := String.ofList (Ipv6Text.format (segments addr.val))

/-- `str::parse::<Ipv6Addr>`. -/
def parseIpv6Addr (text : String) : Option Ipv6 := do
  tryInto 16 (octets (← Ipv6Text.parse text.toList))

/-- The helper reads addresses the way the standard library does. -/
def readingAddresses (rules : TextRules Ipv6) : TextRules Ipv6 :=
  { rules with parseIpv6 := parseIpv6Addr }

theorem segments_spec (pairs : Nat) {bytes : List UInt8} (even : bytes.length = 2 * pairs) :
    (segments bytes).length = pairs ∧ (∀ group ∈ segments bytes, group < 65536) ∧
      octets (segments bytes) = bytes := by
  induction pairs generalizing bytes with
  | zero =>
      obtain rfl := List.length_eq_zero_iff.mp even
      exact ⟨rfl, nofun, rfl⟩
  | succ pairs ih =>
      obtain ⟨high, low, rest, rfl⟩ : ∃ high low rest, bytes = high :: low :: rest := by
        match bytes, even with
        | high :: low :: rest, _ => exact ⟨high, low, rest, rfl⟩
      have rest_even : rest.length = 2 * pairs := by simpa [Nat.mul_add] using even
      obtain ⟨length_eq, small, back⟩ := ih rest_even
      have pair_small : ofBigEndian [high, low] < 65536 := by
        simpa using ofBigEndian_lt [high, low]
      have pair_back : toBigEndian 2 (ofBigEndian [high, low]) = [high, low] :=
        toBigEndian_ofBigEndian [high, low]
      refine ⟨by simp [segments, length_eq], List.forall_mem_cons.mpr ⟨pair_small, small⟩, ?_⟩
      rw [segments, octets, List.flatMap_cons, ← octets, back, pair_back]
      rfl

theorem tryInto_val {size : Nat} (bytes : List.Vector UInt8 size) :
    tryInto size bytes.val = some bytes := dif_pos bytes.property

/-- An address is read back from its text. -/
theorem parseIpv6Addr_ipv6ToString (addr : Ipv6) :
    parseIpv6Addr (ipv6ToString addr) = some addr := by
  obtain ⟨eight, small, back⟩ := segments_spec 8 addr.property
  rw [parseIpv6Addr, ipv6ToString, String.toList_ofList, Ipv6Text.parse_format eight small]
  simp only [Option.bind_eq_bind, Option.bind_some, back]
  exact tryInto_val addr

/-! ## The relay and the helper -/

/-- A relay beside the helper. -/
structure AliasWorld (σ : Type) where
  relay : Relay
  helper : World σ

/-- What happens to the relay, or to the helper by others. -/
inductive AliasEvent where
  /-- A frame from the VM. -/
  | avfFrame (frame : List UInt8)
  | utunPacket (packet : List UInt8)
  | raInterval
  /-- A request of anyone else. -/
  | request (order : UtunOrder) (request : Request)

section Runs

variable {σ : Type} (host : Host σ) (rules : TextRules Ipv6) (errorText : DecodeError → String)

/-- `pfctl_assign_utun_alias`: whether it returned `Ok`, and the helper afterwards. -/
def assignUtunAlias (asked : AliasRequest) (helper : World σ) : Bool × World σ :=
  let exchanged := exchange host (readingAddresses rules) errorText (.sorted _)
    (.assignUtunAlias asked.iface (ipv6ToString asked.addr)) helper
  (exchanged.1.isOk, exchanged.2)

namespace AliasWorld

/-- The turn of a frame that makes the relay ask for this, if for anything. -/
def avfTurn (world : AliasWorld σ) (frame : List UInt8) :
    Option AliasRequest → Option (AliasWorld σ)
  | none => do return { world with relay := ← world.relay.step (.avfFrame frame false) }
  | some asked => do
      let outcome := assignUtunAlias host rules errorText asked world.helper
      return { relay := ← world.relay.step (.avfFrame frame outcome.1), helper := outcome.2 }

/-- One turn of the relay, or a request of anyone else.  Whether a frame makes the relay ask, and
for what, does not depend on the answer. -/
def step (world : AliasWorld σ) : AliasEvent → Option (AliasWorld σ)
  | .avfFrame frame => do
      let (_, reaction) ← react world.relay.state (.avfFrame frame false)
      world.avfTurn host rules errorText frame reaction.aliasRequest
  | .utunPacket packet => do
      return { world with relay := ← world.relay.step (.utunPacket packet) }
  | .raInterval => do return { world with relay := ← world.relay.step .raInterval }
  | .request order request =>
      some { world with
             helper := (exchange host (readingAddresses rules) errorText order request
               world.helper).2 }

end AliasWorld

end Runs

/-! ## What a frame makes the relay ask for -/

/-- A packet that is passed on, from an address in the prefix. -/
structure FromVmAddress (guaPrefix : Option Ipv6) (frame : List UInt8) (addr : Ipv6) : Prop where
  isIpv6 : IsIpv6 frame
  notRouterSolicitation : ¬ IsRouterSolicitation frame
  notGatewaySolicitation : ¬ IsGatewaySolicitation frame
  source : (frame.drop 22).take 16 = addr.val
  nonzero : addr ≠ .replicate 16 0
  in_range : ∃ known, guaPrefix = some known ∧ addr.val.take 8 = known.val.take 8

/-- The state and the request, with the answer to the request. -/
def answered (state : RelayState) (wanted : Option Ipv6) (granted : Bool) :
    RelayState × Option AliasRequest :=
  match wanted with
  | none => (state, none)
  | some addr =>
      (if granted then { state with vmGua := some addr } else state,
        some { iface := state.utunIface, addr, granted })

theorem maybeAssignGuaAlias_eq (frame : List UInt8) (state : RelayState) :
    ∃ wanted, (∀ addr, wanted = some addr ↔ state.vmGua = none ∧
        (frame.drop 22).take 16 = addr.val ∧ addr ≠ .replicate 16 0 ∧
          ∃ known, state.guaPrefix = some known ∧ addr.val.take 8 = known.val.take 8) ∧
      ∀ granted,
        maybeAssignGuaAlias frame granted state = some (answered state wanted granted) := by
  by_cases assigned : state.vmGua.isSome
  · refine ⟨none, fun addr => ⟨nofun, ?_⟩, fun granted => if_pos assigned⟩
    rintro ⟨unassigned, -⟩
    simp [unassigned] at assigned
  have unassigned : state.vmGua = none := Option.not_isSome_iff_eq_none.mp assigned
  cases known : state.guaPrefix with
  | none =>
      refine ⟨none, fun addr => ⟨nofun, ?_⟩, fun granted => ?_⟩
      · rintro ⟨-, -, -, guaPrefix, prefixed, -⟩
        cases prefixed
      · simp [maybeAssignGuaAlias, unassigned, known, answered]
  | some guaPrefix =>
      by_cases short : frame.length < 38
      · refine ⟨none, fun addr => ⟨nofun, ?_⟩, fun granted => ?_⟩
        · rintro ⟨-, source, -⟩
          have sized := congrArg List.length source
          rw [addr.property, List.length_take, List.length_drop] at sized
          omega
        · simp [maybeAssignGuaAlias, unassigned, known, short, answered]
      · have inside : 38 ≤ frame.length := by omega
        obtain ⟨src, source_slice, source_eq, source_array⟩ :=
          tryInto_slice (show 22 + 16 = 38 from rfl) inside
        simp only [maybeAssignGuaAlias, if_neg assigned, known, if_neg short, source_slice,
          source_array, Option.bind_eq_bind, Option.bind_some, Option.pure_def]
        have source_iff (addr : Ipv6) : (frame.drop 22).take 16 = addr.val ↔ src = addr := by
          rw [← source_eq]
          exact Subtype.val_inj
        by_cases foreign : src = .replicate 16 0 ∨ src.val.take 8 ≠ guaPrefix.val.take 8
        · refine ⟨none, fun addr => ⟨nofun, ?_⟩, fun granted => if_pos foreign⟩
          rintro ⟨-, source, nonzero, known, same, in_range⟩
          obtain rfl := (source_iff addr).mp source
          obtain rfl := Option.some.inj same
          exact absurd foreign (not_or.mpr ⟨nonzero, not_not.mpr in_range⟩)
        · obtain ⟨nonzero, in_range⟩ : src ≠ .replicate 16 0 ∧
              src.val.take 8 = guaPrefix.val.take 8 := by
            simpa only [not_or, not_not] using foreign
          refine ⟨some src, fun addr => ?_, fun granted => ?_⟩
          · rw [source_iff, Option.some.injEq]
            constructor
            · rintro rfl
              exact ⟨unassigned, rfl, nonzero, guaPrefix, rfl, in_range⟩
            · exact fun found => found.2.1
          · rw [if_neg foreign]
            cases granted with
            | false => rfl
            | true =>
                rw [← known]
                rfl

/-- The answer to the request changes nothing else about the turn. -/
theorem processIpv6Frame_eq {frame : List UInt8} (isIpv6 : IsIpv6 frame)
    (long : 14 ≤ frame.length) {state : RelayState} {mac : Mac}
    (learned : state.vmMac = some mac) :
    ∃ emissions wanted, (∀ addr, wanted = some addr ↔
        state.vmGua = none ∧ FromVmAddress state.guaPrefix frame addr) ∧
      ∀ granted, processIpv6Frame frame granted state =
        some ((answered state wanted granted).1,
          { emissions, aliasRequest := (answered state wanted granted).2 }) := by
  obtain ⟨isRs, rs_eq, rs_iff⟩ := isIcmpv6_eq 133 frame
  have payload := sliceFrom_of_le long
  cases isRs with
  | true =>
      obtain ⟨answers, handled, -⟩ := handleRs_answers frame state
      refine ⟨answers, none, fun addr => ?_, fun granted => ?_⟩
      · refine iff_of_false (Option.some_ne_none addr).symm fun found => ?_
        exact absurd ⟨isIpv6, rs_iff.mp rfl⟩ found.2.notRouterSolicitation
      · simp [processIpv6Frame, isIcmpv6Rs, rs_eq, handled, answered]
  | false =>
      have not_rs : ¬ IsRouterSolicitation frame := fun found =>
        Bool.false_ne_true (rs_iff.mpr found.2)
      rcases consumeNdpNs_eq isIpv6 learned with ⟨answer, consumed, gateway⟩ |
        ⟨consumed, not_gateway⟩
      · refine ⟨[.toVm answer], none, fun addr => ?_, fun granted => ?_⟩
        · refine iff_of_false (Option.some_ne_none addr).symm fun found => ?_
          exact absurd gateway found.2.notGatewaySolicitation
        · simp [processIpv6Frame, isIcmpv6Rs, rs_eq, consumed, answered]
      · obtain ⟨wanted, wanted_iff, asked_eq⟩ := maybeAssignGuaAlias_eq frame state
        refine ⟨forwardToUtun (frame.drop 14) tunHdrIpv6, wanted, fun addr => ?_, fun granted => ?_⟩
        · rw [wanted_iff]
          constructor
          · rintro ⟨unassigned, source, nonzero, in_range⟩
            exact ⟨unassigned, isIpv6, not_rs, not_gateway, source, nonzero, in_range⟩
          · rintro ⟨unassigned, found⟩
            exact ⟨unassigned, found.source, found.nonzero, found.in_range⟩
        · simp [processIpv6Frame, isIcmpv6Rs, rs_eq, consumed, asked_eq, payload]

/-- The addresses and the interface stay as they are. -/
structure SameAddresses (before after : RelayState) : Prop where
  vmGua : after.vmGua = before.vmGua
  guaPrefix : after.guaPrefix = before.guaPrefix
  utunIface : after.utunIface = before.utunIface

theorem processAvfFrame_eq (frame : List UInt8) (state : RelayState) :
    ∃ learned emissions wanted, SameAddresses state learned ∧
      (∀ addr, wanted = some addr ↔
        state.vmGua = none ∧ FromVmAddress state.guaPrefix frame addr) ∧
      ∀ granted, processAvfFrame frame granted state =
        some ((answered learned wanted granted).1,
          { emissions, aliasRequest := (answered learned wanted granted).2 }) := by
  have not_asked (other : ¬ IsIpv6 frame) (addr : Ipv6) : none = some addr ↔
      state.vmGua = none ∧ FromVmAddress state.guaPrefix frame addr :=
    ⟨nofun, fun found => absurd found.2.isIpv6 other⟩
  by_cases short : frame.length < 14
  · have absent : frame[13]? = none := List.getElem?_eq_none (by omega)
    refine ⟨state, [], none, ⟨rfl, rfl, rfl⟩, not_asked ?_, fun granted => if_pos short⟩
    simp [IsIpv6, HasEthertype, absent]
  · have long : 14 ≤ frame.length := by omega
    obtain ⟨learn_eq, has_source⟩ := learnVmMac_eq long state
    obtain ⟨mac, learned⟩ : ∃ mac, state.vmMac.or (sourceMac frame) = some mac :=
      Option.isSome_iff_exists.mp (by simp [has_source])
    have knows : { state with vmMac := state.vmMac.or (sourceMac frame) }.vmMac = some mac :=
      learned
    have same : SameAddresses state { state with vmMac := state.vmMac.or (sourceMac frame) } :=
      ⟨rfl, rfl, rfl⟩
    generalize { state with vmMac := state.vmMac.or (sourceMac frame) } = learned
      at learn_eq knows same
    obtain ⟨high, first⟩ : ∃ high, frame[12]? = some high :=
      ⟨_, List.getElem?_eq_getElem (by omega)⟩
    obtain ⟨low, second⟩ : ∃ low, frame[13]? = some low :=
      ⟨_, List.getElem?_eq_getElem (by omega)⟩
    have type_iff := hasEthertype_iff first second
    have payload := sliceFrom_of_le long
    simp only [processAvfFrame, if_neg short, learn_eq, first, second, payload,
      Option.bind_eq_bind, Option.bind_some, Option.pure_def]
    by_cases arp : ofBigEndian [high, low] = 0x0806
    · have isArp : IsArp frame := (type_iff 0x08 0x06).mpr arp
      obtain ⟨emissions, handled, -⟩ := handleArp_answers frame knows
      refine ⟨learned, emissions, none, same, not_asked (isArp.ne (by decide)), fun granted => ?_⟩
      rw [if_pos arp, handled]
      rfl
    · by_cases ipv4 : ofBigEndian [high, low] = 0x0800
      · have isIpv4 : IsIpv4 frame := (type_iff 0x08 0x00).mpr ipv4
        refine ⟨learned, forwardToUtun (frame.drop 14) tunHdrIpv4, none, same,
          not_asked (isIpv4.ne (by decide)), fun granted => ?_⟩
        rw [if_neg arp, if_pos ipv4]
        rfl
      · by_cases ipv6 : ofBigEndian [high, low] = 0x86DD
        · have isIpv6 : IsIpv6 frame := (type_iff 0x86 0xDD).mpr ipv6
          obtain ⟨emissions, wanted, wanted_iff, processed⟩ :=
            processIpv6Frame_eq isIpv6 long knows
          rw [same.vmGua, same.guaPrefix] at wanted_iff
          refine ⟨learned, emissions, wanted, same, wanted_iff, fun granted => ?_⟩
          rw [if_neg arp, if_neg ipv4, if_pos ipv6, processed]
        · have not_ipv6 : ¬ IsIpv6 frame := fun isIpv6 => ipv6 ((type_iff 0x86 0xDD).mp isIpv6)
          refine ⟨learned, [], none, same, not_asked not_ipv6, fun granted => ?_⟩
          rw [if_neg arp, if_neg ipv4, if_neg ipv6]
          rfl

/-! ## What the helper has on record -/

/-- The addresses that the helper has on record for an interface. -/
def aliasesOf (iface : String) (state : DaemonState) : List String :=
  (state.ipv6Aliases.filter fun entry => entry.1 = iface).map Prod.snd

/-- A request that is not about the addresses of the interface. -/
def Spares (iface : String) : Request → Prop
  | .assignUtunAlias other _ => other ≠ iface
  | .teardownUtun other => other ≠ iface
  | _ => True

/-- Nobody but the relay assigns addresses to its interface, or has it torn down. -/
def AliasEvent.Spares (iface : String) : AliasEvent → Prop
  | request _ asked => TunRelay.Spares iface asked
  | _ => True

section Records

variable {σ : Type} {host : Host σ} {rules : TextRules Ipv6} {errorText : DecodeError → String}

theorem aliasesOf_withAlias (iface other addr : String) (state : DaemonState) :
    aliasesOf iface (state.withAlias other addr) =
      aliasesOf iface state ++ if other = iface then [addr] else [] := by
  rw [aliasesOf, DaemonState.withAlias, List.filter_append, List.map_append, ← aliasesOf]
  by_cases same : other = iface <;> simp [same]

theorem aliasesOf_exchange {iface : String} {request : Request} (spares : Spares iface request)
    {order : UtunOrder} {world : World σ} :
    aliasesOf iface (exchange host (readingAddresses rules) errorText order request world).2.state =
      aliasesOf iface world.state := by
  cases request with
  | setupUtun utun addr peer cidr egress =>
      rw [exchange_snd (by simp), handleRequest, map_apply]
      rcases @state_handleSetupUtun σ Ipv6 host (readingAddresses rules) order world utun addr peer
        cidr egress with same | ⟨-, changed⟩
      · rw [same]
      · rw [changed]
        rfl
  | teardownUtun utun =>
      have other : utun ≠ iface := spares
      rw [exchange_teardown, aliasesOf, aliasesOf, DaemonState.tornDown, List.filter_filter]
      refine congrArg (List.map Prod.snd) (List.filter_congr fun entry _ => ?_)
      by_cases own : entry.1 = iface <;> simp [own, Ne.symm other]
  | addRdr proto hostPort vmIp vmPort =>
      obtain ⟨kept, changed⟩ := @exchange_addRdr σ Ipv6 host (readingAddresses rules) order
        errorText world proto hostPort vmIp vmPort
      rw [changed]
      rfl
  | removeRdr proto hostPort =>
      obtain ⟨kept, changed⟩ := @exchange_removeRdr σ Ipv6 host (readingAddresses rules) order
        errorText world proto hostPort
      rw [changed]
      rfl
  | createUtun =>
      rw [exchange, serve_toLine]
      rfl
  | assignUtunAlias utun addr =>
      rcases @exchange_assign σ Ipv6 host (readingAddresses rules) order errorText world utun addr
        with same | changed
      · rw [same]
      · rw [changed, aliasesOf_withAlias, if_neg spares, List.append_nil]

/-- An address is on record as soon as the relay has been told so, and not before. -/
theorem state_assignUtunAlias (asked : AliasRequest) (helper : World σ) :
    (assignUtunAlias host rules errorText asked helper).2.state =
      if (assignUtunAlias host rules errorText asked helper).1 then
        helper.state.withAlias asked.iface (ipv6ToString asked.addr)
      else helper.state := by
  let addr := ipv6ToString asked.addr
  obtain ⟨response, handled, exchanged⟩ := @exchange_eq σ Ipv6 host (readingAddresses rules)
    (.sorted _) errorText helper (.assignUtunAlias asked.iface addr) (by simp)
  rw [handleRequest, map_apply] at handled exchanged
  obtain rfl := Answer.response.inj handled
  rw [assignUtunAlias, exchanged]
  dsimp only
  by_cases accepted : AssignAccepted (readingAddresses rules) asked.iface addr
  · rw [handleAssignUtunAlias_of_accepted accepted]
    split <;> rfl
  · obtain ⟨message, refused⟩ : ∃ message, handleAssignUtunAlias host (readingAddresses rules)
        asked.iface addr helper = (errResp message, helper) :=
      handleAssignUtunAlias_of_refused accepted helper
    rw [refused]
    rfl

/-! ## Runs -/

/-- No request of these turns was granted. -/
def NoneGranted (turns : List (RelayEvent × Reaction)) : Prop :=
  ∀ turn ∈ turns, ∀ asked ∈ turn.2.aliasRequest, asked.granted = false

/-- The relay asks for the source of each packet of the VM until a request is granted. -/
def AsksUntilGranted (guaPrefix : Option Ipv6) (iface : String)
    (turns : List (RelayEvent × Reaction)) : Prop :=
  ∀ earlier frame granted reaction later,
    turns = earlier ++ (.avfFrame frame granted, reaction) :: later →
      ∀ asked, reaction.aliasRequest = some asked ↔ NoneGranted earlier ∧
        asked.iface = iface ∧ asked.granted = granted ∧ FromVmAddress guaPrefix frame asked.addr

/-- What the helper has on record for the interface is what the relay takes for assigned. -/
structure AliasContract (guaPrefix : Option Ipv6) (iface : String) (world : AliasWorld σ) :
    Prop where
  recorded : (aliasesOf iface world.helper.state).map parseIpv6Addr =
    world.relay.state.vmGua.toList.map some
  /-- Each is one word of the system's commands, and not an option. -/
  plain : ∀ addr ∈ aliasesOf iface world.helper.state, addr.toList ⊆ Ipv6Text.addressChars
  granted : world.relay.grantedAliases = world.relay.state.vmGua.toList
  asked : AsksUntilGranted guaPrefix iface world.relay.log

/-- The invariant of the relay and the helper. -/
structure Tracks (guaPrefix : Option Ipv6) (iface : String) (world : AliasWorld σ) : Prop where
  keeps : world.relay.Keeps guaPrefix
  utunIface : world.relay.state.utunIface = iface
  listed : aliasesOf iface world.helper.state = world.relay.state.vmGua.toList.map ipv6ToString
  asked : AsksUntilGranted guaPrefix iface world.relay.log

variable {guaPrefix : Option Ipv6} {iface : String} {world : AliasWorld σ}

theorem Tracks.contract (tracks : Tracks guaPrefix iface world) :
    AliasContract guaPrefix iface world where
  recorded := by
    rw [tracks.listed, List.map_map]
    exact List.map_congr_left fun addr _ => parseIpv6Addr_ipv6ToString addr
  plain addr listed := by
    rw [tracks.listed] at listed
    obtain ⟨assigned, -, rfl⟩ := List.mem_map.mp listed
    rw [ipv6ToString, String.toList_ofList]
    exact Ipv6Text.format_subset (segments assigned.val)
  granted := tracks.keeps.granted_eq
  asked := tracks.asked

theorem Tracks.noneGranted_iff (tracks : Tracks guaPrefix iface world) :
    NoneGranted world.relay.log ↔ world.relay.state.vmGua = none := by
  rw [← Option.toList_eq_nil_iff, ← tracks.keeps.granted_eq, Relay.grantedAliases,
    List.filterMap_eq_nil_iff]
  refine forall₂_congr fun turn _ => ?_
  cases turn.2.aliasRequest <;> simp [Option.filter]

/-- One more turn asks as it should. -/
theorem AsksUntilGranted.concat {turns : List (RelayEvent × Reaction)}
    (asks : AsksUntilGranted guaPrefix iface turns) {event : RelayEvent} {reaction : Reaction}
    (last : ∀ frame granted, event = .avfFrame frame granted → ∀ asked,
      reaction.aliasRequest = some asked ↔ NoneGranted turns ∧ asked.iface = iface ∧
        asked.granted = granted ∧ FromVmAddress guaPrefix frame asked.addr) :
    AsksUntilGranted guaPrefix iface (turns ++ [(event, reaction)]) := by
  intro earlier frame granted answer later split
  cases later using List.reverseRecOn with
  | nil =>
      obtain ⟨rfl, same⟩ := List.append_inj' split rfl
      obtain ⟨rfl, rfl⟩ := Prod.mk.inj (List.singleton_inj.mp same)
      exact last frame granted rfl
  | append_singleton front final =>
      rw [← List.cons_append, ← List.append_assoc] at split
      obtain ⟨logged, -⟩ := List.append_inj' split rfl
      exact asks earlier frame granted answer front logged

/-- A turn of the relay, with what it does to the state and asks for. -/
theorem Tracks.turn (tracks : Tracks guaPrefix iface world) {event : RelayEvent}
    {state : RelayState} {reaction : Reaction}
    (reacted : react world.relay.state event = some (state, reaction)) {helper : World σ}
    (utunIface : state.utunIface = iface)
    (listed : aliasesOf iface helper.state = state.vmGua.toList.map ipv6ToString)
    (asks : ∀ frame granted, event = .avfFrame frame granted → ∀ asked,
      reaction.aliasRequest = some asked ↔ world.relay.state.vmGua = none ∧ asked.iface = iface ∧
        asked.granted = granted ∧ FromVmAddress guaPrefix frame asked.addr) :
    ∃ relay, world.relay.step event = some relay ∧ Tracks guaPrefix iface ⟨relay, helper⟩ := by
  obtain ⟨relay, stepped, keeps, -, -⟩ := tracks.keeps.step event
  have relay_eq : relay = { state, log := world.relay.log ++ [(event, reaction)] } := by
    rw [Relay.step, reacted] at stepped
    exact (Option.some.inj stepped).symm
  refine ⟨relay, stepped, keeps, ?_, ?_, ?_⟩
  · rw [relay_eq]
    exact utunIface
  · rw [relay_eq]
    exact listed
  · rw [relay_eq]
    refine tracks.asked.concat fun frame granted same asked => ?_
    rw [tracks.noneGranted_iff]
    exact asks frame granted same asked

/-- A frame that makes the relay ask for nothing. -/
theorem Tracks.step_unasked (tracks : Tracks guaPrefix iface world) {frame : List UInt8}
    (unasked : ∀ addr, ¬ (world.relay.state.vmGua = none ∧ FromVmAddress guaPrefix frame addr)) :
    ∃ relay, world.step host rules errorText (.avfFrame frame) = some ⟨relay, world.helper⟩ ∧
      Tracks guaPrefix iface ⟨relay, world.helper⟩ := by
  obtain ⟨learned, emissions, wanted, same, wanted_iff, processed⟩ :=
    processAvfFrame_eq frame world.relay.state
  rw [tracks.keeps.guaPrefix_eq] at wanted_iff
  obtain rfl : wanted = none :=
    Option.eq_none_iff_forall_ne_some.mpr fun addr asked =>
      unasked addr ((wanted_iff addr).mp asked)
  have reacted : react world.relay.state (.avfFrame frame false) =
    some (learned, { emissions }) := processed false
  have kept : aliasesOf iface world.helper.state = learned.vmGua.toList.map ipv6ToString :=
    same.vmGua ▸ tracks.listed
  have own : learned.utunIface = iface := same.utunIface.trans tracks.utunIface
  have asks (other : List UInt8) (granted : Bool)
      (same_event : RelayEvent.avfFrame frame false = .avfFrame other granted)
      (asked : AliasRequest) : none = some asked ↔ world.relay.state.vmGua = none ∧
        asked.iface = iface ∧ asked.granted = granted ∧
          FromVmAddress guaPrefix other asked.addr := by
    obtain ⟨rfl, rfl⟩ := RelayEvent.avfFrame.inj same_event
    refine ⟨nofun, ?_⟩
    rintro ⟨unassigned, -, -, found⟩
    exact absurd ⟨unassigned, found⟩ (unasked asked.addr)
  obtain ⟨relay, stepped, next⟩ := tracks.turn reacted own kept asks
  refine ⟨relay, ?_, next⟩
  simp [AliasWorld.step, AliasWorld.avfTurn, reacted, stepped]

/-- A packet from an address of the VM while none is assigned. -/
theorem Tracks.step_asked (tracks : Tracks guaPrefix iface world) {frame : List UInt8} {addr : Ipv6}
    (unassigned : world.relay.state.vmGua = none) (found : FromVmAddress guaPrefix frame addr) :
    ∃ relay, world.step host rules errorText (.avfFrame frame) = some ⟨relay,
        (assignUtunAlias host rules errorText ⟨iface, addr, false⟩ world.helper).2⟩ ∧
      relay.state.vmGua = (if (assignUtunAlias host rules errorText ⟨iface, addr, false⟩
        world.helper).1 then some addr else none) ∧
      Tracks guaPrefix iface ⟨relay,
        (assignUtunAlias host rules errorText ⟨iface, addr, false⟩ world.helper).2⟩ := by
  obtain ⟨learned, emissions, wanted, same, wanted_iff, processed⟩ :=
    processAvfFrame_eq frame world.relay.state
  rw [tracks.keeps.guaPrefix_eq] at wanted_iff
  obtain rfl : wanted = some addr := (wanted_iff addr).mpr ⟨unassigned, found⟩
  have own : learned.utunIface = iface := same.utunIface.trans tracks.utunIface
  have reacted (granted : Bool) : react world.relay.state (.avfFrame frame granted) =
    some (if granted then { learned with vmGua := some addr } else learned,
      { emissions, aliasRequest := some ⟨iface, addr, granted⟩ }) := own ▸ processed granted
  have turned : world.step host rules errorText (.avfFrame frame) =
      world.avfTurn host rules errorText frame (some ⟨iface, addr, false⟩) := by
    rw [AliasWorld.step, reacted]
    rfl
  have recorded := @state_assignUtunAlias σ host rules errorText ⟨iface, addr, false⟩ world.helper
  rw [turned, AliasWorld.avfTurn]
  generalize assignUtunAlias host rules errorText ⟨iface, addr, false⟩ world.helper = outcome
    at recorded ⊢
  obtain ⟨granted, helper⟩ := outcome
  have asks (other : List UInt8) (answer : Bool)
      (same_event : RelayEvent.avfFrame frame granted = .avfFrame other answer)
      (asked : AliasRequest) : some ⟨iface, addr, granted⟩ = some asked ↔
        world.relay.state.vmGua = none ∧ asked.iface = iface ∧ asked.granted = answer ∧
          FromVmAddress guaPrefix other asked.addr := by
    obtain ⟨rfl, rfl⟩ := RelayEvent.avfFrame.inj same_event
    constructor
    · intro made
      obtain rfl := Option.some.inj made
      exact ⟨unassigned, rfl, rfl, found⟩
    · rintro ⟨-, for_iface, same_answer, asked_found⟩
      obtain ⟨asked_iface, asked_addr, asked_granted⟩ := asked
      obtain rfl : addr = asked_addr :=
        Option.some.inj ((wanted_iff asked_addr).mpr ⟨unassigned, asked_found⟩)
      obtain rfl : asked_granted = granted := same_answer
      obtain rfl : asked_iface = iface := for_iface
      rfl
  have still : learned.vmGua = none := same.vmGua.trans unassigned
  have listed : aliasesOf iface world.helper.state = [] := by
    rw [tracks.listed, unassigned]
    rfl
  have turned_listed : aliasesOf iface helper.state =
      (if granted then { learned with vmGua := some addr } else learned).vmGua.toList.map
        ipv6ToString := by
    cases granted with
    | false =>
        have kept : helper.state = world.helper.state := recorded
        rw [kept, listed, if_neg Bool.false_ne_true, still]
        rfl
    | true =>
        have added : helper.state = world.helper.state.withAlias iface (ipv6ToString addr) :=
          recorded
        rw [added, aliasesOf_withAlias, if_pos rfl, listed]
        rfl
  have turned_own : (if granted then { learned with vmGua := some addr } else learned).utunIface =
      iface := by
    cases granted <;> exact own
  obtain ⟨relay, stepped, next⟩ := tracks.turn (reacted granted) turned_own turned_listed asks
  have state_eq : relay.state =
      if granted then { learned with vmGua := some addr } else learned := by
    rw [Relay.step, reacted] at stepped
    exact congrArg Relay.state (Option.some.inj stepped).symm
  refine ⟨relay, by simp [stepped], ?_, next⟩
  rw [state_eq]
  cases granted with
  | false => exact still
  | true => rfl

theorem Tracks.step (tracks : Tracks guaPrefix iface world) {event : AliasEvent}
    (spares : event.Spares iface) :
    ∃ after, world.step host rules errorText event = some after ∧
      Tracks guaPrefix iface after := by
  cases event with
  | avfFrame frame =>
      by_cases asked : ∃ addr, world.relay.state.vmGua = none ∧ FromVmAddress guaPrefix frame addr
      · obtain ⟨addr, unassigned, found⟩ := asked
        obtain ⟨relay, stepped, -, next⟩ := tracks.step_asked unassigned found
        exact ⟨_, stepped, next⟩
      · obtain ⟨relay, stepped, next⟩ := tracks.step_unasked (not_exists.mp asked)
        exact ⟨_, stepped, next⟩
  | utunPacket packet =>
      obtain ⟨reaction, processed, -, -⟩ := processUtunPacket_contract packet world.relay.state
      have reacted : react world.relay.state (.utunPacket packet) =
          some (world.relay.state, reaction) := by simp [react, processed]
      obtain ⟨relay, stepped, next⟩ := tracks.turn reacted tracks.utunIface tracks.listed
        (by intro frame granted same_event; cases same_event)
      exact ⟨⟨relay, world.helper⟩, by simp [AliasWorld.step, stepped], next⟩
  | raInterval =>
      obtain ⟨emissions, handled, -⟩ := handleRs_answers [] world.relay.state
      have reacted : react world.relay.state .raInterval =
          some (world.relay.state, { emissions }) := by simp [react, handled]
      obtain ⟨relay, stepped, next⟩ := tracks.turn reacted tracks.utunIface tracks.listed
        (by intro frame granted same_event; cases same_event)
      exact ⟨⟨relay, world.helper⟩, by simp [AliasWorld.step, stepped], next⟩
  | request order request =>
      refine ⟨_, rfl, tracks.keeps, tracks.utunIface, ?_, tracks.asked⟩
      rw [aliasesOf_exchange spares]
      exact tracks.listed

theorem tracks_start (gatewayIp4 : Ipv4) {helper : World σ}
    (unused : aliasesOf iface helper.state = []) :
    Tracks guaPrefix iface ⟨.start gatewayIp4 guaPrefix iface, helper⟩ where
  keeps := Relay.keeps_start gatewayIp4 guaPrefix iface
  utunIface := rfl
  listed := unused
  asked earlier _ _ _ _ split := by simp [Relay.start] at split

theorem Tracks.run (tracks : Tracks guaPrefix iface world) {events : List AliasEvent}
    (spares : ∀ event ∈ events, event.Spares iface) :
    ∃ final, Execution.run (AliasWorld.step host rules errorText) events world = some final ∧
      Tracks guaPrefix iface final := by
  induction events generalizing world with
  | nil => exact ⟨world, rfl, tracks⟩
  | cons event events ih =>
      obtain ⟨event_spares, events_spare⟩ := List.forall_mem_cons.mp spares
      obtain ⟨next, stepped, next_tracks⟩ := tracks.step event_spares
      obtain ⟨final, execution, final_tracks⟩ := ih next_tracks events_spare
      exact ⟨final, run_cons_eq_some.mpr ⟨next, stepped, execution⟩, final_tracks⟩

/-- The helper has no address on record for the interface at first, as after a teardown.  Whatever
the VM sends and the helper's commands return, and whatever anyone else asks of the helper in
between: the relay asks for the source of the VM's packets until one request is granted, and the
helper has on record, as it reads it, the address that was granted and no other. -/
theorem vm_address_recorded (host : Host σ) (rules : TextRules Ipv6)
    (errorText : DecodeError → String) (gatewayIp4 : Ipv4) (guaPrefix : Option Ipv6)
    {iface : String} {helper : World σ} (unused : aliasesOf iface helper.state = [])
    {events : List AliasEvent} (spares : ∀ event ∈ events, event.Spares iface) :
    ∃ world, Execution.run (AliasWorld.step host rules errorText) events
        ⟨.start gatewayIp4 guaPrefix iface, helper⟩ = some world ∧
      AliasContract guaPrefix iface world := by
  obtain ⟨final, execution, tracks⟩ := (tracks_start gatewayIp4 unused).run spares
  exact ⟨final, execution, tracks.contract⟩

end Records

/-! ## A system that carries out the commands -/

section Working

variable {rules : TextRules Ipv6} {errorText : DecodeError → String}
variable {guaPrefix : Option Ipv6} {iface : String} {world : AliasWorld (System Ipv6)}

theorem agrees_exchange {helper : World (System Ipv6)} {order : UtunOrder}
    (agrees : Agrees (readingAddresses rules) helper) (request : Request) :
    Agrees (readingAddresses rules) (exchange (workingHost (readingAddresses rules))
      (readingAddresses rules) errorText order request helper).2 := by
  rw [exchange, serve_toLine]
  exact agrees_request agrees request

theorem agrees_assignUtunAlias {helper : World (System Ipv6)}
    (agrees : Agrees (readingAddresses rules) helper) (asked : AliasRequest) :
    Agrees (readingAddresses rules)
      (assignUtunAlias (workingHost (readingAddresses rules)) rules errorText asked helper).2 := by
  rw [assignUtunAlias]
  dsimp only
  exact agrees_exchange agrees _

theorem agrees_step {after : AliasWorld (System Ipv6)} {event : AliasEvent}
    (agrees : Agrees (readingAddresses rules) world.helper)
    (stepped : world.step (workingHost (readingAddresses rules)) rules errorText event =
      some after) : Agrees (readingAddresses rules) after.helper := by
  cases event with
  | avfFrame frame =>
      obtain ⟨⟨state, reaction⟩, -, turned⟩ := Option.bind_eq_some_iff.mp stepped
      cases asked : reaction.aliasRequest with
      | none =>
          simp only [asked, AliasWorld.avfTurn] at turned
          obtain ⟨relay, -, next⟩ := Option.bind_eq_some_iff.mp turned
          obtain rfl := Option.some.inj next
          exact agrees
      | some asked_for =>
          have outcome_agrees :=
            @agrees_assignUtunAlias rules errorText world.helper agrees asked_for
          simp only [asked, AliasWorld.avfTurn] at turned
          generalize assignUtunAlias (workingHost (readingAddresses rules)) rules errorText
            asked_for world.helper = outcome at turned outcome_agrees
          obtain ⟨relay, -, next⟩ := Option.bind_eq_some_iff.mp turned
          obtain rfl := Option.some.inj next
          exact outcome_agrees
  | utunPacket packet =>
      obtain ⟨relay, -, next⟩ := Option.bind_eq_some_iff.mp stepped
      obtain rfl := Option.some.inj next
      exact agrees
  | raInterval =>
      obtain ⟨relay, -, next⟩ := Option.bind_eq_some_iff.mp stepped
      obtain rfl := Option.some.inj next
      exact agrees
  | request order request =>
      have answered_agrees :=
        @agrees_exchange rules errorText world.helper order agrees request
      rw [AliasWorld.step] at stepped
      generalize exchange (workingHost (readingAddresses rules)) (readingAddresses rules) errorText
        order request world.helper = exchanged at stepped answered_agrees
      obtain rfl := Option.some.inj stepped
      exact answered_agrees

/-- On a working system a request for an address without a route is granted. -/
theorem assignUtunAlias_granted {helper : World (System Ipv6)} {asked : AliasRequest}
    (safe : isSafeIface rules asked.iface = true) (unrouted : asked.addr ∉ helper.system.routes) :
    (assignUtunAlias (workingHost (readingAddresses rules)) rules errorText asked helper).1 =
      true := by
  have read : (readingAddresses rules).parseIpv6 (ipv6ToString asked.addr) = some asked.addr :=
    parseIpv6Addr_ipv6ToString asked.addr
  have accepted : AssignAccepted (readingAddresses rules) asked.iface (ipv6ToString asked.addr) :=
    ⟨safe, by rw [read]; rfl⟩
  obtain ⟨response, handled, exchanged⟩ := @exchange_eq (System Ipv6) Ipv6
    (workingHost (readingAddresses rules)) (readingAddresses rules) (.sorted _) errorText helper
    (.assignUtunAlias asked.iface (ipv6ToString asked.addr)) (by simp)
  have added : (runRoute (workingHost (readingAddresses rules))
      ["add", "-inet6", "-host", ipv6ToString asked.addr, "-interface", asked.iface] helper).1 =
        none := by
    simp only [runRoute, perform, workingHost, System.perform, System.route, read, if_neg unrouted]
  rw [handleRequest, map_apply, handleAssignUtunAlias_of_accepted accepted] at handled
  dsimp only at handled
  rw [added] at handled
  obtain rfl := Answer.response.inj handled
  rw [assignUtunAlias, exchanged]
  rfl

/-- On a working system, with no address on record for the interface at first, an assigned address
has a route, and the next packet from an address that has none is enough for it to be assigned. -/
theorem vm_address_routed (rules : TextRules Ipv6) (errorText : DecodeError → String)
    (gatewayIp4 : Ipv4) (guaPrefix : Option Ipv6) {iface : String}
    (safe : isSafeIface rules iface = true) {helper : World (System Ipv6)}
    (agrees : Agrees (readingAddresses rules) helper) (unused : aliasesOf iface helper.state = [])
    {events : List AliasEvent} (spares : ∀ event ∈ events, event.Spares iface) :
    ∃ world, Execution.run
        (AliasWorld.step (workingHost (readingAddresses rules)) rules errorText) events
        ⟨.start gatewayIp4 guaPrefix iface, helper⟩ = some world ∧
      (∀ addr, world.relay.state.vmGua = some addr → addr ∈ world.helper.system.routes) ∧
      ∀ frame addr, FromVmAddress guaPrefix frame addr → world.relay.state.vmGua = none →
        addr ∉ world.helper.system.routes →
        ∃ next, world.step (workingHost (readingAddresses rules)) rules errorText
            (.avfFrame frame) = some next ∧
          next.relay.state.vmGua = some addr ∧ addr ∈ next.helper.system.routes := by
  have routed {world : AliasWorld (System Ipv6)} (tracks : Tracks guaPrefix iface world)
      (agrees : Agrees (readingAddresses rules) world.helper) (addr : Ipv6)
      (assigned : world.relay.state.vmGua = some addr) : addr ∈ world.helper.system.routes := by
    have listed : ipv6ToString addr ∈ aliasesOf iface world.helper.state := by
      rw [tracks.listed, assigned]
      exact List.mem_singleton.mpr rfl
    obtain ⟨entry, member, text_eq⟩ := List.mem_map.mp listed
    refine (agrees.routes addr).mpr ⟨entry, (List.mem_filter.mp member).1, ?_⟩
    rw [text_eq]
    exact parseIpv6Addr_ipv6ToString addr
  obtain ⟨world, execution, tracks⟩ : ∃ world, Execution.run
      (AliasWorld.step (workingHost (readingAddresses rules)) rules errorText) events
      ⟨.start gatewayIp4 guaPrefix iface, helper⟩ = some world ∧ Tracks guaPrefix iface world :=
    (tracks_start gatewayIp4 unused).run spares
  have world_agrees : Agrees (readingAddresses rules) world.helper :=
    invariant_of_run (fun agrees stepped => agrees_step agrees stepped) agrees execution
  refine ⟨world, execution, routed tracks world_agrees, ?_⟩
  intro frame addr from_vm unassigned unrouted
  obtain ⟨relay, stepped, granted_eq, next_tracks⟩ : ∃ relay, world.step
      (workingHost (readingAddresses rules)) rules errorText (.avfFrame frame) = _ ∧ _ :=
    tracks.step_asked unassigned from_vm
  have granted := @assignUtunAlias_granted rules errorText world.helper ⟨iface, addr, false⟩ safe
    unrouted
  rw [granted, if_pos rfl] at granted_eq
  exact ⟨_, stepped, granted_eq,
    routed next_tracks (agrees_step world_agrees stepped) addr granted_eq⟩

end Working

/-- `2001:db8::`. -/
def documentationPrefix : Ipv6 :=
  ⟨[0x20, 0x01, 0x0d, 0xb8, 0, 0, 0, 0, 0, 0, 0, 0, 0, 0, 0, 0], rfl⟩

/-- A packet from `2001:db8::5`. -/
def firstPacket : List UInt8 :=
  List.replicate 12 2 ++ [0x86, 0xDD] ++ List.replicate 8 0 ++
    documentationPrefix.val.dropLast ++ [5] ++ List.replicate 20 0

theorem firstPacket_fromVmAddress :
    FromVmAddress (some documentationPrefix) firstPacket
      ⟨documentationPrefix.val.dropLast ++ [5], rfl⟩ where
  isIpv6 := ⟨rfl, rfl⟩
  notRouterSolicitation found := absurd found.2.1 (by decide)
  notGatewaySolicitation found := absurd found.2.1.1 (by decide)
  source := rfl
  nonzero same := absurd (congrArg (fun addr => addr.val.head?) same) (by decide)
  in_range := ⟨documentationPrefix, rfl, rfl⟩

def readsDocumentation : TextRules Ipv6 := asciiRules fun _ => none

theorem first_packet_recorded :
    ∃ world, Execution.run
        (AliasWorld.step (workingHost readsDocumentation) readsDocumentation fun _ => "EOF")
        [.raInterval, .avfFrame firstPacket, .request (.sorted _) (.teardownUtun "utun8")]
        ⟨.start ⟨[192, 168, 105, 1], rfl⟩ (some documentationPrefix) "utun9", ⟨.init, .new⟩⟩ =
          some world ∧
      AliasContract (some documentationPrefix) "utun9" world := by
  refine vm_address_recorded _ _ _ _ _ rfl fun event member => ?_
  simp only [List.mem_cons, List.not_mem_nil, or_false] at member
  rcases member with rfl | rfl | rfl
  · trivial
  · trivial
  · exact show "utun8" ≠ "utun9" by decide

/-- A packet for the VM that comes too early is dropped, and the VM's first packet gets a route. -/
theorem first_packet_routed :
    ∃ world next, Execution.run (AliasWorld.step
          (workingHost (readingAddresses readsDocumentation)) readsDocumentation fun _ => "EOF")
        [.utunPacket []] ⟨.start ⟨[192, 168, 105, 1], rfl⟩ (some documentationPrefix) "utun9",
          ⟨.init, .new⟩⟩ = some world ∧
      world.step (workingHost (readingAddresses readsDocumentation)) readsDocumentation
        (fun _ => "EOF") (.avfFrame firstPacket) = some next ∧
      next.relay.state.vmGua = some ⟨documentationPrefix.val.dropLast ++ [5], rfl⟩ := by
  have spares : ∀ event ∈ [AliasEvent.utunPacket []], event.Spares "utun9" :=
    List.forall_mem_singleton.mpr trivial
  obtain ⟨world, execution, -, assigns⟩ := vm_address_routed readsDocumentation
    (fun _ => "EOF") ⟨[192, 168, 105, 1], rfl⟩ (some documentationPrefix)
    (show isSafeIface readsDocumentation "utun9" = true by decide) agrees_init rfl spares
  obtain rfl := Option.some.inj execution
  obtain ⟨next, stepped, assigned, -⟩ :=
    assigns firstPacket _ firstPacket_fromVmAddress rfl List.not_mem_nil
  exact ⟨_, next, rfl, stepped, assigned⟩

end Pelagos.TunRelay
