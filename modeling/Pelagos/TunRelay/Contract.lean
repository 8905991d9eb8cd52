import Pelagos.TunRelay.Relay

/-!
# What the relay guarantees

Nothing panics.  The relay reacts to a frame with at most one emission, keeps to itself what it
answers, and passes everything else on unchanged.  It learns the VM's MAC address once and has at
most one address assigned.
-/

namespace Pelagos.TunRelay

open ByteStream Slices Execution

/-- The bytes of the ethertype. -/
def HasEthertype (frame : List UInt8) (high low : UInt8) : Prop :=
  frame[12]? = some high ∧ frame[13]? = some low

/-- An ICMPv6 message of this type directly behind the IPv6 header. -/
def HasIcmpv6Type (frame : List UInt8) (icmpType : UInt8) : Prop :=
  frame[20]? = some 58 ∧ frame[54]? = some icmpType

def IsArp (frame : List UInt8) : Prop := HasEthertype frame 0x08 0x06

def IsIpv4 (frame : List UInt8) : Prop := HasEthertype frame 0x08 0x00

def IsIpv6 (frame : List UInt8) : Prop := HasEthertype frame 0x86 0xDD

def IsRouterSolicitation (frame : List UInt8) : Prop := IsIpv6 frame ∧ HasIcmpv6Type frame 133

/-- The target of a neighbour solicitation. -/
def ndpTarget (frame : List UInt8) : List UInt8 := (frame.drop 62).take 16

/-- A neighbour solicitation for an address of the gateway, as long as one has to be. -/
def IsGatewaySolicitation (frame : List UInt8) : Prop :=
  IsIpv6 frame ∧ HasIcmpv6Type frame 135 ∧ 78 ≤ frame.length ∧
    (ndpTarget frame = gatewayIp6Ll.val ∨ ndpTarget frame = gatewayIp6Ula.val)

/-- The source of a frame with an Ethernet header. -/
def sourceMac (frame : List UInt8) : Option Mac :=
  if 14 ≤ frame.length then tryInto 6 ((frame.drop 6).take 6) else none

/-- Nothing is emitted, or one frame to the VM. -/
def Answers (emissions : List Emission) : Prop :=
  emissions = [] ∨ ∃ frame, emissions = [.toVm frame]

/-- What is done about a frame from the VM. -/
structure FrameContract (frame : List UInt8) (emissions : List Emission) : Prop where
  arp : IsArp frame → Answers emissions
  routerSolicitation : IsRouterSolicitation frame → Answers emissions
  gatewaySolicitation : IsGatewaySolicitation frame → ∃ answer, emissions = [.toVm answer]
  unknown : ¬ IsArp frame → ¬ IsIpv4 frame → ¬ IsIpv6 frame → emissions = []
  ipv4 : IsIpv4 frame → emissions = [.toUtun (tunHdrIpv4 ++ frame.drop 14)]
  ipv6 : IsIpv6 frame → ¬ IsRouterSolicitation frame → ¬ IsGatewaySolicitation frame →
    emissions = [.toUtun (tunHdrIpv6 ++ frame.drop 14)]

/-- What is done about a packet from the utun when this MAC address is known. -/
structure PacketContract (vmMac : Option Mac) (packet : List UInt8) (emissions : List Emission) :
    Prop where
  ipv4 : ∀ mac, vmMac = some mac → 5 ≤ packet.length → packet.take 4 = tunHdrIpv4 →
    emissions = [.toVm (mac.val ++ gatewayMac.val ++ [0x08, 0x00] ++ packet.drop 4)]
  ipv6 : ∀ mac, vmMac = some mac → 5 ≤ packet.length → packet.take 4 = tunHdrIpv6 →
    emissions = [.toVm (mac.val ++ gatewayMac.val ++ [0x86, 0xDD] ++ packet.drop 4)]
  dropped : vmMac = none ∨ packet.length < 5 ∨
    (packet.take 4 ≠ tunHdrIpv4 ∧ packet.take 4 ≠ tunHdrIpv6) → emissions = []

/-- What is done about an event. -/
def Contract (vmMac : Option Mac) : RelayEvent → List Emission → Prop
  | .avfFrame frame _, emissions => emissions.length ≤ 1 ∧ FrameContract frame emissions
  | .utunPacket packet, emissions => PacketContract vmMac packet emissions
  | .raInterval, emissions => Answers emissions

/-- Either the address stays as it is and no request is granted, or the first one is assigned. -/
inductive Assigns (before : RelayState) : RelayState → Option AliasRequest → Prop
  | unchanged {request : Option AliasRequest}
      (refused : ∀ asked ∈ request, asked.granted = false) : Assigns before before request
  | assigned {addr guaPrefix : Ipv6} (unassigned : before.vmGua = none)
      (known : before.guaPrefix = some guaPrefix) (nonzero : addr ≠ .replicate 16 0)
      (in_range : addr.val.take 8 = guaPrefix.val.take 8) :
      Assigns before { before with vmGua := some addr }
        (some { iface := before.utunIface, addr, granted := true })

theorem isIcmpv6_eq (icmpType : UInt8) (frame : List UInt8) :
    ∃ found, isIcmpv6 icmpType frame = some found ∧
      (found = true ↔ HasIcmpv6Type frame icmpType) := by
  by_cases long : 54 < frame.length
  · have header : frame[20]? = some frame[20] := List.getElem?_eq_getElem (by omega)
    have body : frame[54]? = some frame[54] := List.getElem?_eq_getElem long
    by_cases next : frame[20] = 58
    · refine ⟨decide (frame[54] = icmpType), ?_, ?_⟩
      · simp [isIcmpv6, long, header, next]
      · simp [HasIcmpv6Type, header, body, next]
    · refine ⟨false, ?_, ?_⟩
      · simp [isIcmpv6, long, header, next]
      · simp [HasIcmpv6Type, header, next]
  · refine ⟨false, if_neg long, ?_⟩
    have absent : frame[54]? = none := List.getElem?_eq_none (by omega)
    simp [HasIcmpv6Type, absent]

theorem learnVmMac_eq {frame : List UInt8} (long : 14 ≤ frame.length) (state : RelayState) :
    learnVmMac frame state = some { state with vmMac := state.vmMac.or (sourceMac frame) } ∧
      (sourceMac frame).isSome := by
  have inside : 12 ≤ frame.length := by omega
  obtain ⟨mac, slice_eq, mac_eq, array⟩ := tryInto_slice (show 6 + 6 = 12 from rfl) inside
  have source : sourceMac frame = some mac := by rw [sourceMac, if_pos long, ← mac_eq, array]
  refine ⟨?_, source ▸ rfl⟩
  rw [source]
  obtain ⟨vmMac, gatewayIp4, guaPrefix, utunIface, vmGua⟩ := state
  cases vmMac with
  | none => simp [learnVmMac, slice_eq, array]
  | some known => rfl

theorem handleArp_answers (frame : List UInt8) {state : RelayState} {mac : Mac}
    (learned : state.vmMac = some mac) :
    ∃ emissions, handleArp frame state = some emissions ∧ Answers emissions := by
  by_cases short : frame.length < 42
  · exact ⟨[], if_pos short, .inl rfl⟩
  · have op_high : frame[20]? = some frame[20] := List.getElem?_eq_getElem (by omega)
    have op_low : frame[21]? = some frame[21] := List.getElem?_eq_getElem (by omega)
    have target : slice frame 38 42 = some ((frame.drop 38).take 4) :=
      slice_of_le (by omega) (by omega)
    have sender : slice frame 28 32 = some ((frame.drop 28).take 4) :=
      slice_of_le (by omega) (by omega)
    simp only [handleArp, if_neg short, op_high, op_low, target, sender, learned,
      Option.bind_eq_bind, Option.bind_some, Option.pure_def]
    split
    · exact ⟨[], rfl, .inl rfl⟩
    · split
      · exact ⟨[], rfl, .inl rfl⟩
      · exact ⟨_, rfl, .inr ⟨_, rfl⟩⟩

/-- A neighbour solicitation is answered when its target is an address of the gateway. -/
theorem handleNdpNs_eq (frame : List UInt8) {state : RelayState} {mac : Mac}
    (learned : state.vmMac = some mac) :
    (∃ answer, handleNdpNs frame state = some (true, [.toVm answer]) ∧ 78 ≤ frame.length ∧
      (ndpTarget frame = gatewayIp6Ll.val ∨ ndpTarget frame = gatewayIp6Ula.val)) ∨
    (handleNdpNs frame state = some (false, []) ∧ ¬ (78 ≤ frame.length ∧
      (ndpTarget frame = gatewayIp6Ll.val ∨ ndpTarget frame = gatewayIp6Ula.val))) := by
  by_cases short : frame.length < 78
  · exact .inr ⟨if_pos short, by omega⟩
  · have target_inside : 78 ≤ frame.length := by omega
    have source_inside : 38 ≤ frame.length := by omega
    obtain ⟨target, target_slice, target_eq, target_array⟩ :=
      tryInto_slice (show 62 + 16 = 78 from rfl) target_inside
    obtain ⟨nsSrcIp, source_slice, -, source_array⟩ :=
      tryInto_slice (show 22 + 16 = 38 from rfl) source_inside
    obtain ⟨na, built⟩ := buildNdpNa_defined mac target nsSrcIp
    have target_iff (addr : Ipv6) : ndpTarget frame = addr.val ↔ target = addr := by
      rw [ndpTarget, ← target_eq]
      exact Subtype.val_inj
    rw [target_iff, target_iff]
    simp only [handleNdpNs, if_neg short, target_slice, target_array, source_slice, source_array,
      learned, built, Option.bind_eq_bind, Option.bind_some, Option.pure_def]
    by_cases other : target ≠ gatewayIp6Ll ∧ target ≠ gatewayIp6Ula
    · rw [if_pos other]
      exact .inr ⟨rfl, by tauto⟩
    · rw [if_neg other]
      exact .inl ⟨na, rfl, target_inside, by tauto⟩

theorem handleRs_answers (frame : List UInt8) (state : RelayState) :
    ∃ emissions, handleRs frame state = some emissions ∧ Answers emissions := by
  cases known : state.guaPrefix with
  | none => exact ⟨[], by simp [handleRs, known], .inl rfl⟩
  | some guaPrefix =>
      obtain ⟨ra, built⟩ := buildRa_defined guaPrefix
      exact ⟨[.toVm ra], by simp [handleRs, known, built], .inr ⟨ra, rfl⟩⟩

theorem maybeAssignGuaAlias_assigns (frame : List UInt8) (granted : Bool) (state : RelayState) :
    ∃ next request, maybeAssignGuaAlias frame granted state = some (next, request) ∧
      Assigns state next request := by
  have nothing : Assigns state state none := .unchanged nofun
  by_cases assigned : state.vmGua.isSome
  · exact ⟨state, none, if_pos assigned, nothing⟩
  · have unassigned : state.vmGua = none := Option.not_isSome_iff_eq_none.mp assigned
    cases known : state.guaPrefix with
    | none => exact ⟨state, none, by simp [maybeAssignGuaAlias, unassigned, known], nothing⟩
    | some guaPrefix =>
        by_cases short : frame.length < 38
        · refine ⟨state, none, ?_, nothing⟩
          simp [maybeAssignGuaAlias, unassigned, known, short]
        · have inside : 38 ≤ frame.length := by omega
          obtain ⟨src, source_slice, -, source_array⟩ :=
            tryInto_slice (show 22 + 16 = 38 from rfl) inside
          simp only [maybeAssignGuaAlias, if_neg assigned, known, if_neg short, source_slice,
            source_array, Option.bind_eq_bind, Option.bind_some, Option.pure_def]
          by_cases foreign : src = .replicate 16 0 ∨ src.val.take 8 ≠ guaPrefix.val.take 8
          · rw [if_pos foreign]
            exact ⟨state, none, rfl, nothing⟩
          · rw [if_neg foreign]
            cases granted with
            | false => exact ⟨state, _, rfl, .unchanged fun asked made => by cases made; rfl⟩
            | true =>
                refine ⟨{ state with vmGua := some src }, _, by rw [known]; rfl,
                  .assigned unassigned known ?_ ?_⟩
                · exact fun zero => foreign (.inl zero)
                · exact not_not.mp fun outside => foreign (.inr outside)

theorem hasEthertype_iff {frame : List UInt8} {high low : UInt8} (first : frame[12]? = some high)
    (second : frame[13]? = some low) (otherHigh otherLow : UInt8) :
    HasEthertype frame otherHigh otherLow ↔
      ofBigEndian [high, low] = ofBigEndian [otherHigh, otherLow] := by
  have same_length : [high, low].length = [otherHigh, otherLow].length := rfl
  rw [HasEthertype, first, second, ofBigEndian_inj same_length]
  simp

theorem HasEthertype.ne {frame : List UInt8} {high low otherHigh otherLow : UInt8}
    (found : HasEthertype frame high low) (other : (high, low) ≠ (otherHigh, otherLow)) :
    ¬ HasEthertype frame otherHigh otherLow := by
  intro same
  have high_eq := Option.some.inj (found.1.symm.trans same.1)
  have low_eq := Option.some.inj (found.2.symm.trans same.2)
  exact other (Prod.ext high_eq low_eq)

theorem not_isIcmpv6Type {frame : List UInt8} {first second : UInt8}
    (found : HasIcmpv6Type frame first) (other : first ≠ second) : ¬ HasIcmpv6Type frame second :=
  fun same => other (Option.some.inj (found.2.symm.trans same.2))

theorem frameContract_of_isIpv6 {frame : List UInt8} {emissions : List Emission}
    (isIpv6 : IsIpv6 frame) (routerSolicitation : IsRouterSolicitation frame → Answers emissions)
    (gatewaySolicitation : IsGatewaySolicitation frame → ∃ answer, emissions = [.toVm answer])
    (forwarded : ¬ IsRouterSolicitation frame → ¬ IsGatewaySolicitation frame →
      emissions = [.toUtun (tunHdrIpv6 ++ frame.drop 14)]) : FrameContract frame emissions where
  arp isArp := absurd isArp (isIpv6.ne (by decide))
  routerSolicitation := routerSolicitation
  gatewaySolicitation := gatewaySolicitation
  unknown _ _ other := absurd isIpv6 other
  ipv4 isIpv4 := absurd isIpv4 (isIpv6.ne (by decide))
  ipv6 _ := forwarded

/-- A neighbour solicitation is taken from the frames that are passed on when it is answered. -/
theorem consumeNdpNs_eq {frame : List UInt8} (isIpv6 : IsIpv6 frame) {state : RelayState}
    {mac : Mac} (learned : state.vmMac = some mac) :
    (∃ answer, consumeNdpNs frame state = some (true, [.toVm answer]) ∧
      IsGatewaySolicitation frame) ∨
    (consumeNdpNs frame state = some (false, []) ∧ ¬ IsGatewaySolicitation frame) := by
  obtain ⟨isNs, ns_eq, ns_iff⟩ := isIcmpv6_eq 135 frame
  simp only [consumeNdpNs, isNdpNs, ns_eq, Option.bind_eq_bind, Option.bind_some, Option.pure_def]
  cases isNs with
  | true =>
      have has_type := ns_iff.mp rfl
      rcases handleNdpNs_eq frame learned with ⟨answer, handled, long, target⟩ | ⟨handled, other⟩
      · exact .inl ⟨answer, handled, isIpv6, has_type, long, target⟩
      · exact .inr ⟨handled, fun found => other ⟨found.2.2.1, found.2.2.2⟩⟩
  | false => exact .inr ⟨rfl, fun found => nomatch ns_iff.mpr found.2.1⟩

theorem frameContract_of_not_isIpv6 {frame : List UInt8} {emissions : List Emission}
    (not_ipv6 : ¬ IsIpv6 frame) (arp : IsArp frame → Answers emissions)
    (ipv4 : IsIpv4 frame → emissions = [.toUtun (tunHdrIpv4 ++ frame.drop 14)])
    (unknown : ¬ IsArp frame → ¬ IsIpv4 frame → emissions = []) :
    FrameContract frame emissions where
  arp := arp
  routerSolicitation found := absurd found.1 not_ipv6
  gatewaySolicitation found := absurd found.1 not_ipv6
  unknown not_arp not_ipv4 _ := unknown not_arp not_ipv4
  ipv4 := ipv4
  ipv6 isIpv6 := absurd isIpv6 not_ipv6

theorem processIpv6Frame_contract {frame : List UInt8} (isIpv6 : IsIpv6 frame)
    (long : 14 ≤ frame.length) (granted : Bool) {state : RelayState} {mac : Mac}
    (learned : state.vmMac = some mac) :
    ∃ next reaction, processIpv6Frame frame granted state = some (next, reaction) ∧
      FrameContract frame reaction.emissions ∧ Assigns state next reaction.aliasRequest := by
  obtain ⟨isRs, rs_eq, rs_iff⟩ := isIcmpv6_eq 133 frame
  obtain ⟨answers, answered, rs_answers⟩ := handleRs_answers frame state
  obtain ⟨next, request, alias_eq, assigns⟩ := maybeAssignGuaAlias_assigns frame granted state
  have payload := sliceFrom_of_le long
  simp only [processIpv6Frame, isIcmpv6Rs, rs_eq, payload, alias_eq, answered,
    Option.bind_eq_bind, Option.bind_some, Option.pure_def]
  cases isRs with
  | true =>
      have has_type := rs_iff.mp rfl
      refine ⟨state, { emissions := answers }, rfl, ?_, .unchanged nofun⟩
      refine frameContract_of_isIpv6 isIpv6 (fun _ => rs_answers) ?_ ?_
      · exact fun found => absurd found.2.1 (not_isIcmpv6Type has_type (by decide))
      · exact fun other => absurd ⟨isIpv6, has_type⟩ other
  | false =>
      have not_rs : ¬ IsRouterSolicitation frame := fun found => nomatch rs_iff.mpr found.2
      rcases consumeNdpNs_eq isIpv6 learned with ⟨answer, consumed, gateway⟩ |
        ⟨consumed, not_gateway⟩
      · refine ⟨state, { emissions := [.toVm answer] }, ?_, ?_, .unchanged nofun⟩
        · simp [consumed]
        · exact frameContract_of_isIpv6 isIpv6 (fun found => absurd found not_rs)
            (fun _ => ⟨answer, rfl⟩) fun _ other => absurd gateway other
      · refine ⟨next, { emissions := forwardToUtun (frame.drop 14) tunHdrIpv6,
                        aliasRequest := request }, ?_, ?_, assigns⟩
        · simp [consumed]
        · exact frameContract_of_isIpv6 isIpv6 (fun found => absurd found not_rs)
            (fun found => absurd found not_gateway) fun _ _ => rfl

/-- Nothing is done about a frame without an ethertype. -/
theorem frameContract_of_short {frame : List UInt8} (short : frame.length < 14) :
    FrameContract frame [] := by
  have absent : frame[13]? = none := List.getElem?_eq_none (by omega)
  have untyped (high low : UInt8) : ¬ HasEthertype frame high low := by simp [HasEthertype, absent]
  refine frameContract_of_not_isIpv6 (untyped _ _) (fun _ => .inl rfl) ?_ fun _ _ => rfl
  exact fun isIpv4 => absurd isIpv4 (untyped _ _)

theorem processAvfFrame_contract (frame : List UInt8) (granted : Bool) (state : RelayState) :
    ∃ next reaction, processAvfFrame frame granted state = some (next, reaction) ∧
      FrameContract frame reaction.emissions ∧
      Assigns { state with vmMac := state.vmMac.or (sourceMac frame) } next
        reaction.aliasRequest := by
  by_cases short : frame.length < 14
  · refine ⟨state, {}, if_pos short, frameContract_of_short short, ?_⟩
    rw [sourceMac, if_neg (by omega), Option.or_none]
    exact .unchanged nofun
  · have long : 14 ≤ frame.length := by omega
    obtain ⟨learn_eq, has_source⟩ := learnVmMac_eq long state
    obtain ⟨mac, learned⟩ : ∃ mac, state.vmMac.or (sourceMac frame) = some mac :=
      Option.isSome_iff_exists.mp (by simp [has_source])
    have knows : { state with vmMac := state.vmMac.or (sourceMac frame) }.vmMac = some mac :=
      learned
    generalize { state with vmMac := state.vmMac.or (sourceMac frame) } = state at learn_eq knows ⊢
    obtain ⟨high, first⟩ : ∃ high, frame[12]? = some high :=
      ⟨_, List.getElem?_eq_getElem (by omega)⟩
    obtain ⟨low, second⟩ : ∃ low, frame[13]? = some low :=
      ⟨_, List.getElem?_eq_getElem (by omega)⟩
    have type_iff := hasEthertype_iff first second
    have payload := sliceFrom_of_le long
    simp only [processAvfFrame, if_neg short, learn_eq, first, second, payload,
      Option.bind_eq_bind, Option.bind_some, Option.pure_def]
    by_cases arp : ofBigEndian [high, low] = 0x0806
    · have isArp : IsArp frame := (type_iff 0x08 0x06).mpr arp
      obtain ⟨emissions, handled, answers⟩ := handleArp_answers frame knows
      rw [if_pos arp, handled]
      refine ⟨state, { emissions }, rfl, ?_, .unchanged nofun⟩
      refine frameContract_of_not_isIpv6 (isArp.ne (by decide)) (fun _ => answers) ?_ ?_
      · exact fun isIpv4 => absurd isIpv4 (isArp.ne (by decide))
      · exact fun not_arp => absurd isArp not_arp
    · have not_arp : ¬ IsArp frame := fun isArp => arp ((type_iff 0x08 0x06).mp isArp)
      rw [if_neg arp]
      by_cases ipv4 : ofBigEndian [high, low] = 0x0800
      · have isIpv4 : IsIpv4 frame := (type_iff 0x08 0x00).mpr ipv4
        rw [if_pos ipv4]
        refine ⟨state, _, rfl, ?_, .unchanged nofun⟩
        refine frameContract_of_not_isIpv6 (isIpv4.ne (by decide)) ?_ (fun _ => rfl) ?_
        · exact fun isArp => absurd isArp not_arp
        · exact fun _ not_ipv4 => absurd isIpv4 not_ipv4
      · have not_ipv4 : ¬ IsIpv4 frame := fun isIpv4 => ipv4 ((type_iff 0x08 0x00).mp isIpv4)
        rw [if_neg ipv4]
        by_cases ipv6 : ofBigEndian [high, low] = 0x86DD
        · have isIpv6 : IsIpv6 frame := (type_iff 0x86 0xDD).mpr ipv6
          rw [if_pos ipv6]
          exact processIpv6Frame_contract isIpv6 long granted knows
        · have not_ipv6 : ¬ IsIpv6 frame := fun isIpv6 => ipv6 ((type_iff 0x86 0xDD).mp isIpv6)
          rw [if_neg ipv6]
          refine ⟨state, {}, rfl, ?_, .unchanged nofun⟩
          refine frameContract_of_not_isIpv6 not_ipv6 (fun _ => .inl rfl) ?_ fun _ _ => rfl
          exact fun isIpv4 => absurd isIpv4 not_ipv4

theorem Answers.length_le {emissions : List Emission} (answers : Answers emissions) :
    emissions.length ≤ 1 := by
  rcases answers with rfl | ⟨frame, rfl⟩
  · exact Nat.zero_le 1
  · exact le_rfl

theorem FrameContract.length_le {frame : List UInt8} {emissions : List Emission}
    (contract : FrameContract frame emissions) : emissions.length ≤ 1 := by
  by_cases isArp : IsArp frame
  · exact (contract.arp isArp).length_le
  by_cases isIpv4 : IsIpv4 frame
  · rw [contract.ipv4 isIpv4, List.length_singleton]
  by_cases isIpv6 : IsIpv6 frame
  · by_cases router : IsRouterSolicitation frame
    · exact (contract.routerSolicitation router).length_le
    by_cases gateway : IsGatewaySolicitation frame
    · obtain ⟨answer, answered⟩ := contract.gatewaySolicitation gateway
      rw [answered, List.length_singleton]
    · rw [contract.ipv6 isIpv6 router gateway, List.length_singleton]
  · rw [contract.unknown isArp isIpv4 isIpv6]
    exact Nat.zero_le 1

theorem processUtunPacket_contract (packet : List UInt8) (state : RelayState) :
    ∃ reaction, processUtunPacket packet state = some reaction ∧ reaction.aliasRequest = none ∧
      PacketContract state.vmMac packet reaction.emissions := by
  rcases packet with _ | ⟨first, _ | ⟨second, _ | ⟨third, _ | ⟨fourth, _ | ⟨fifth, rest⟩⟩⟩⟩⟩
  iterate 5
    exact ⟨{}, rfl, rfl, { ipv4 := by simp, ipv6 := by simp, dropped := fun _ => rfl }⟩
  have long : ¬ (first :: second :: third :: fourth :: fifth :: rest).length < 5 := by simp
  have inside : 4 ≤ (first :: second :: third :: fourth :: fifth :: rest).length := by simp
  have payload := sliceFrom_of_le inside
  cases known : state.vmMac with
  | none =>
      refine ⟨{}, ?_, rfl, { ipv4 := nofun, ipv6 := nofun, dropped := fun _ => rfl }⟩
      simp only [processUtunPacket, if_neg long, known]
  | some mac =>
      have af_iff (header : List UInt8) (sized : header.length = 4) :
          ofBigEndian [first, second, third, fourth] = ofBigEndian header ↔
            [first, second, third, fourth] = header := ofBigEndian_inj sized.symm
      have ipv4_iff := af_iff tunHdrIpv4 rfl
      have ipv6_iff := af_iff tunHdrIpv6 rfl
      rw [show ofBigEndian tunHdrIpv4 = 2 from rfl] at ipv4_iff
      rw [show ofBigEndian tunHdrIpv6 = 30 from rfl] at ipv6_iff
      simp only [processUtunPacket, if_neg long, known, List.getElem?_cons_zero,
        List.getElem?_cons_succ, payload, Option.bind_eq_bind, Option.bind_some, Option.pure_def]
      by_cases ipv4 : ofBigEndian [first, second, third, fourth] = 2
      · have header := ipv4_iff.mp ipv4
        rw [if_pos ipv4]
        refine ⟨_, rfl, rfl, ?_⟩
        exact
          { ipv4 := fun mac same _ _ => by cases same; rfl
            ipv6 := fun _ _ _ other => absurd (header.symm.trans other) (by decide)
            dropped := by simp [header] }
      · rw [if_neg ipv4]
        by_cases ipv6 : ofBigEndian [first, second, third, fourth] = 30
        · have header := ipv6_iff.mp ipv6
          rw [if_pos ipv6]
          refine ⟨_, rfl, rfl, ?_⟩
          exact
            { ipv4 := fun _ _ _ other => absurd (header.symm.trans other) (by decide)
              ipv6 := fun mac same _ _ => by cases same; rfl
              dropped := by simp [header] }
        · rw [if_neg ipv6]
          refine ⟨{}, rfl, rfl, ?_⟩
          exact
            { ipv4 := fun _ _ _ header => absurd (ipv4_iff.mpr header) ipv4
              ipv6 := fun _ _ _ header => absurd (ipv6_iff.mpr header) ipv6
              dropped := fun _ => rfl }

namespace RelayEvent

/-- The source of the frame from the VM, if it is long enough to have one. -/
def source : RelayEvent → Option Mac
  | .avfFrame frame _ => sourceMac frame
  | .utunPacket _ => none
  | .raInterval => none

end RelayEvent

/-- The source of the first frame from the VM that is long enough to have one. -/
def firstSource (events : List RelayEvent) : Option Mac := events.findSome? RelayEvent.source

theorem react_contract (state : RelayState) (event : RelayEvent) :
    ∃ next reaction, react state event = some (next, reaction) ∧
      Contract state.vmMac event reaction.emissions ∧
      Assigns { state with vmMac := state.vmMac.or event.source } next reaction.aliasRequest := by
  cases event with
  | avfFrame frame aliasGranted =>
      obtain ⟨next, reaction, processed, contract, assigns⟩ :=
        processAvfFrame_contract frame aliasGranted state
      exact ⟨next, reaction, processed, ⟨contract.length_le, contract⟩, assigns⟩
  | utunPacket packet =>
      obtain ⟨reaction, processed, no_request, contract⟩ := processUtunPacket_contract packet state
      refine ⟨state, reaction, by simp [react, processed], contract, ?_⟩
      rw [no_request, RelayEvent.source, Option.or_none]
      exact .unchanged fun _ made => by cases made
  | raInterval =>
      obtain ⟨emissions, handled, answers⟩ := handleRs_answers [] state
      refine ⟨state, { emissions }, by simp [react, handled], answers, ?_⟩
      rw [RelayEvent.source, Option.or_none]
      exact .unchanged fun _ made => by cases made

theorem firstSource_concat (events : List RelayEvent) (event : RelayEvent) :
    firstSource (events ++ [event]) = (firstSource events).or event.source := by
  rw [firstSource, List.findSome?_append, List.findSome?_singleton]
  rfl

/-- What one reaction does to the learned and the assigned address. -/
structure Advances (before after : RelayState) (event : RelayEvent)
    (request : Option AliasRequest) : Prop where
  guaPrefix_eq : after.guaPrefix = before.guaPrefix
  vmMac_eq : after.vmMac = before.vmMac.or event.source
  granted_eq : after.vmGua.toList = before.vmGua.toList ++
    ((request.filter AliasRequest.granted).map AliasRequest.addr).toList
  vmGua_kept : before.vmGua.isSome → after.vmGua = before.vmGua
  inRange : ∀ addr, after.vmGua = some addr → before.vmGua = some addr ∨
    (addr ≠ .replicate 16 0 ∧
      ∃ known, before.guaPrefix = some known ∧ addr.val.take 8 = known.val.take 8)

theorem Assigns.advances {before after : RelayState} {event : RelayEvent}
    {request : Option AliasRequest}
    (assigns : Assigns { before with vmMac := before.vmMac.or event.source } after request) :
    Advances before after event request := by
  cases assigns with
  | unchanged refused =>
      have none_granted : request.filter AliasRequest.granted = none := by
        rw [Option.filter_eq_none_iff]
        intro asked made
        rw [refused asked made]
        exact Bool.false_ne_true
      exact
        { guaPrefix_eq := rfl
          vmMac_eq := rfl
          granted_eq := by simp [none_granted]
          vmGua_kept := fun _ => rfl
          inRange := fun _ assigned => .inl assigned }
  | assigned unassigned known nonzero in_range =>
      have unassigned : before.vmGua = none := unassigned
      exact
        { guaPrefix_eq := rfl
          vmMac_eq := rfl
          granted_eq := by simp [unassigned, Option.filter]
          vmGua_kept := by simp [unassigned]
          inRange := fun addr assigned => by
            cases assigned
            exact .inr ⟨nonzero, _, known, in_range⟩ }

namespace Relay

/-- The addresses of the requests that were granted, in order. -/
def grantedAliases (relay : Relay) : List Ipv6 :=
  relay.log.filterMap fun entry =>
    (entry.2.aliasRequest.filter AliasRequest.granted).map AliasRequest.addr

/-- The invariant of a relay that started with this prefix. -/
structure Keeps (guaPrefix : Option Ipv6) (relay : Relay) : Prop where
  guaPrefix_eq : relay.state.guaPrefix = guaPrefix
  vmMac_eq : relay.state.vmMac = firstSource (relay.log.map Prod.fst)
  reactions : ∀ earlier event reaction later, relay.log = earlier ++ (event, reaction) :: later →
    Contract (firstSource (earlier.map Prod.fst)) event reaction.emissions
  granted_eq : relay.grantedAliases = relay.state.vmGua.toList
  inRange : ∀ addr, relay.state.vmGua = some addr → addr ≠ .replicate 16 0 ∧
    ∃ known, guaPrefix = some known ∧ addr.val.take 8 = known.val.take 8

theorem keeps_start (gatewayIp4 : Ipv4) (guaPrefix : Option Ipv6) (utunIface : String) :
    Keeps guaPrefix (start gatewayIp4 guaPrefix utunIface) where
  guaPrefix_eq := rfl
  vmMac_eq := rfl
  reactions earlier event reaction later split := by simp [start] at split
  granted_eq := rfl
  inRange addr assigned := by cases assigned

theorem Keeps.step {guaPrefix : Option Ipv6} {relay : Relay} (keeps : Keeps guaPrefix relay)
    (event : RelayEvent) :
    ∃ next, relay.step event = some next ∧ Keeps guaPrefix next ∧
      next.log.map Prod.fst = relay.log.map Prod.fst ++ [event] ∧
      (relay.state.vmGua.isSome → next.state.vmGua = relay.state.vmGua) := by
  obtain ⟨state, reaction, reacted, contract, assigns⟩ := react_contract relay.state event
  have advances := assigns.advances
  refine ⟨{ state, log := relay.log ++ [(event, reaction)] }, by simp [Relay.step, reacted], ?_,
    by simp, advances.vmGua_kept⟩
  exact
    { guaPrefix_eq := advances.guaPrefix_eq.trans keeps.guaPrefix_eq
      vmMac_eq := by
        rw [List.map_append, List.map_singleton, firstSource_concat, ← keeps.vmMac_eq]
        exact advances.vmMac_eq
      reactions := by
        intro earlier one answer later split
        cases later using List.reverseRecOn with
        | nil =>
            obtain ⟨rfl, same⟩ := List.append_inj' split rfl
            cases same
            rw [← keeps.vmMac_eq]
            exact contract
        | append_singleton front last =>
            rw [← List.cons_append, ← List.append_assoc] at split
            obtain ⟨logged, -⟩ := List.append_inj' split rfl
            exact keeps.reactions earlier one answer front logged
      granted_eq := by
        rw [advances.granted_eq, ← keeps.granted_eq]
        rw [grantedAliases, grantedAliases, List.filterMap_append, List.filterMap_cons]
        cases (reaction.aliasRequest.filter AliasRequest.granted).map AliasRequest.addr <;> rfl
      inRange := by
        intro addr assigned
        rcases advances.inRange addr assigned with before | ⟨nonzero, known, prefix_eq, same⟩
        · exact keeps.inRange addr before
        · exact ⟨nonzero, known, keeps.guaPrefix_eq ▸ prefix_eq, same⟩ }

/-- Every run goes on from every relay; what has been learned and assigned stays. -/
theorem Keeps.run {guaPrefix : Option Ipv6} {relay : Relay} (keeps : Keeps guaPrefix relay)
    (events : List RelayEvent) :
    ∃ final, Execution.run Relay.step events relay = some final ∧ Keeps guaPrefix final ∧
      final.log.map Prod.fst = relay.log.map Prod.fst ++ events ∧
      (relay.state.vmGua.isSome → final.state.vmGua = relay.state.vmGua) := by
  induction events generalizing relay with
  | nil => exact ⟨relay, rfl, keeps, by simp, fun _ => rfl⟩
  | cons event events ih =>
      obtain ⟨next, stepped, next_keeps, logged, kept⟩ := keeps.step event
      obtain ⟨final, execution, final_keeps, later_logged, later_kept⟩ := ih next_keeps
      refine ⟨final, run_cons_eq_some.mpr ⟨next, stepped, execution⟩, final_keeps, ?_, ?_⟩
      · rw [later_logged, logged, List.append_assoc, List.singleton_append]
      · intro assigned
        have same := kept assigned
        rw [later_kept (same ▸ assigned), same]

/-- Whatever the VM and the utun send, in whatever order, and whatever the helper answers: the relay
does not panic, every reaction keeps the contract, the MAC address is that of the first frame, and
at most one address is assigned, the one whose request was granted. -/
theorem relay_keeps_contract (gatewayIp4 : Ipv4) (guaPrefix : Option Ipv6) (utunIface : String)
    (events : List RelayEvent) :
    ∃ relay, Execution.run Relay.step events (start gatewayIp4 guaPrefix utunIface) = some relay ∧
      relay.log.map Prod.fst = events ∧
      (∀ earlier event reaction later, relay.log = earlier ++ (event, reaction) :: later →
        Contract (firstSource (earlier.map Prod.fst)) event reaction.emissions) ∧
      relay.state.vmMac = firstSource events ∧
      relay.grantedAliases = relay.state.vmGua.toList ∧
      (∀ addr, relay.state.vmGua = some addr → addr ≠ .replicate 16 0 ∧
        ∃ known, guaPrefix = some known ∧ addr.val.take 8 = known.val.take 8) ∧
      ∀ earlier later, events = earlier ++ later →
        ∀ before ∈ Execution.run Relay.step earlier (start gatewayIp4 guaPrefix utunIface),
          (before.state.vmMac.isSome → relay.state.vmMac = before.state.vmMac) ∧
          (before.state.vmGua.isSome → relay.state.vmGua = before.state.vmGua) := by
  have initially := keeps_start gatewayIp4 guaPrefix utunIface
  obtain ⟨relay, execution, keeps, logged, -⟩ := initially.run events
  have all_logged : relay.log.map Prod.fst = events := logged
  have learned : relay.state.vmMac = firstSource events := all_logged ▸ keeps.vmMac_eq
  refine ⟨relay, execution, all_logged, keeps.reactions, learned, keeps.granted_eq, keeps.inRange,
    ?_⟩
  rintro earlier later rfl before reached
  obtain ⟨middle, first, middle_keeps, first_logged, -⟩ := initially.run earlier
  obtain rfl : middle = before := Option.some.inj (first.symm.trans reached)
  obtain ⟨final, second, -, -, kept⟩ := middle_keeps.run later
  obtain rfl : final = relay :=
    Option.some.inj ((run_append_eq_some.mpr ⟨middle, first, second⟩).symm.trans execution)
  refine ⟨fun known => ?_, kept⟩
  have source_eq : middle.state.vmMac = firstSource earlier :=
    middle_keeps.vmMac_eq.trans (congrArg firstSource first_logged)
  rw [learned, source_eq, firstSource, List.findSome?_append]
  rw [source_eq] at known
  exact Option.or_of_isSome known

end Relay

end Pelagos.TunRelay
