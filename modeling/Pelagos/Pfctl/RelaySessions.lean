import Pelagos.Library.Execution
import Pelagos.Pfctl.Client
import Pelagos.Pfctl.SystemAgreement

/-!
# The relays and the helper

Every machine has a relay, which asks the helper for a utun, has it set up, adds forwards and
aliases, and has it torn down when it is dropped.  Any number of relays share the helper, which
handles one request at a time; a relay that is killed within a request is one that is killed before
or after it.
-/

namespace Pelagos.Pfctl

open Serde CommandLine Execution

/-- How far a relay has come. -/
inductive RelayPhase where
  | idle
  /-- `pfctl_create_utun` has returned. -/
  | created (iface : String)
  /-- `start` has returned. -/
  | running (iface : String) (setup : UtunSetup)
  | gone
  deriving DecidableEq

/-- The interface whose descriptor the relay holds. -/
def RelayPhase.iface? : RelayPhase → Option String
  | created iface | running iface _ => some iface
  | idle | gone => none

/-- The helper and the relays. -/
structure RelayWorld (σ : Type) where
  helper : World σ
  relays : Nat → RelayPhase
  /-- The interfaces that were set up and whose relay has gone without having them torn down. -/
  stranded : List String

/-- What a relay does next. -/
inductive RelayAction where
  /-- `pfctl_create_utun`, with the answer of the kernel and what the control message carries. -/
  | create (relay : Nat) (answer : Except String String) (descriptor : Option Nat)
  /-- `pfctl_setup_utun`. -/
  | setUp (relay : Nat) (order : UtunOrder) (egress : String) (subnet : VmSubnet)
  | addRdr (relay : Nat) (order : UtunOrder) (proto : String) (hostPort : UInt16) (vmIp : String)
      (vmPort : UInt16)
  | removeRdr (relay : Nat) (order : UtunOrder) (proto : String) (hostPort : UInt16)
  /-- `pfctl_assign_utun_alias`. -/
  | assign (relay : Nat) (addr : String)
  /-- `TunRelayHandle::drop`. -/
  | drop (relay : Nat) (order : UtunOrder)
  /-- `start` finds no egress interface, or the process is killed. -/
  | giveUp (relay : Nat)

section Sessions

variable {σ Address : Type} (host : Host σ) (rules : TextRules Address)
variable (errorText : DecodeError → String)

/-- One request of `pfctl_send`: what it returns and the world it leaves. -/
def exchange (order : UtunOrder) (request : Request) (world : World σ) :
    Except String Unit × World σ :=
  let (reply, world) :=
    serve host rules order errorText (Utf8.encode request.toLine) world
  (pfctlSend errorText reply, world)

namespace RelayWorld

/-- The phase of one relay changes. -/
def enter (world : RelayWorld σ) (relay : Nat) (phase : RelayPhase) : RelayWorld σ :=
  { world with relays := Function.update world.relays relay phase }

/-- The relay goes and leaves its interface as it is. -/
def leave (world : RelayWorld σ) (relay : Nat) (iface : String) : RelayWorld σ :=
  let left := (world.helper.state.activeUtuns.lookup iface).isSome
  { world.enter relay .gone with
    stranded := if left then iface :: world.stranded else world.stranded }

/-- A request of a running relay, which goes on whatever comes back. -/
def request (world : RelayWorld σ) (order : UtunOrder) (request : Request) : RelayWorld σ :=
  { world with helper := (exchange host rules errorText order request world.helper).2 }

/-- One step of a relay. -/
def step (world : RelayWorld σ) : RelayAction → Option (RelayWorld σ)
  | .create relay answer descriptor =>
      match world.relays relay with
      | .idle =>
          let (reply, helper) := serve { host with createUtun := fun system => (answer, system) }
            rules (.sorted _) errorText (Utf8.encode Request.createUtun.toLine) world.helper
          let world := { world with helper }
          match pfctlCreateUtun errorText rules.quoted reply descriptor with
          | .ok (_, iface) => some (world.enter relay (.created iface))
          | .error _ => some (world.enter relay .gone)
      | _ => none
  | .setUp relay order egress subnet =>
      match world.relays relay with
      | .created iface =>
          let (result, helper) :=
            exchange host rules errorText order (setupRequest iface egress subnet) world.helper
          let world := { world with helper }
          match result with
          | .ok () =>
              some (world.enter relay
                (.running iface { egressIface := egress, ipv4Cidr := subnet.cidr }))
          | .error _ => some (world.leave relay iface)
      | _ => none
  | .addRdr relay order proto hostPort vmIp vmPort =>
      match world.relays relay with
      | .running _ _ =>
          some (world.request host rules errorText order (.addRdr proto hostPort vmIp vmPort))
      | _ => none
  | .removeRdr relay order proto hostPort =>
      match world.relays relay with
      | .running _ _ => some (world.request host rules errorText order (.removeRdr proto hostPort))
      | _ => none
  | .assign relay addr =>
      match world.relays relay with
      | .running iface _ =>
          some (world.request host rules errorText (.sorted _) (.assignUtunAlias iface addr))
      | _ => none
  | .drop relay order =>
      match world.relays relay with
      | .running iface _ =>
          let world := world.request host rules errorText order (.teardownUtun iface)
          some { world.enter relay .gone with stranded := world.stranded.filter (· ≠ iface) }
      | _ => none
  | .giveUp relay =>
      match (world.relays relay).iface? with
      | some iface => some (world.leave relay iface)
      | none => none

/-- No relay has been started. -/
def start (system : σ) : RelayWorld σ :=
  { helper := { system, state := .new }, relays := fun _ => .idle, stranded := [] }

/-- The kernel names a new utun unlike the ones that are open; the name and the texts of its errors
need no escapes and are short. -/
structure KernelNames (world : RelayWorld σ) (answer : Except String String) : Prop where
  plain : ∀ text, answer = .ok text ∨ answer = .error text → Unescaped text
  short : (Utf8.encode (utunReply answer)).length ≤ 256
  unused : ∀ iface, answer = .ok iface → ∀ relay, (world.relays relay).iface? ≠ some iface

/-- What the kernel answers, if it is asked. -/
def NamedByKernel (world : RelayWorld σ) : RelayAction → Prop
  | .create _ answer _ => world.KernelNames answer
  | _ => True

end RelayWorld

end Sessions

/-! ## What the helper keeps of each relay -/

/-- The helper's state beside the relays it is kept for. -/
structure Ledger where
  state : DaemonState
  relays : Nat → RelayPhase
  stranded : List String

namespace Ledger

def enter (ledger : Ledger) (relay : Nat) (phase : RelayPhase) : Ledger :=
  { ledger with relays := Function.update ledger.relays relay phase }

def leave (ledger : Ledger) (relay : Nat) (iface : String) : Ledger :=
  let left := (ledger.state.activeUtuns.lookup iface).isSome
  { ledger.enter relay .gone with
    stranded := if left then iface :: ledger.stranded else ledger.stranded }

/-- Some relay runs on the interface. -/
def Serves (ledger : Ledger) (iface : String) : Prop :=
  ∃ relay setup, ledger.relays relay = .running iface setup

/-- What a step of a relay can change. -/
inductive Step : Ledger → Ledger → Prop
  | created {ledger : Ledger} {relay : Nat} {iface : String}
      (idle : ledger.relays relay = .idle)
      (unused : ∀ other, (ledger.relays other).iface? ≠ some iface) :
      Step ledger (ledger.enter relay (.created iface))
  | notCreated {ledger : Ledger} {relay : Nat} (idle : ledger.relays relay = .idle) :
      Step ledger (ledger.enter relay .gone)
  | setUp {ledger : Ledger} {relay : Nat} {iface : String} (setup : UtunSetup)
      (held : ledger.relays relay = .created iface) :
      Step ledger { ledger.enter relay (.running iface setup) with
        state := ledger.state.withUtun iface setup }
  | refused {ledger : Ledger} {relay : Nat} {iface : String} {setup : UtunSetup}
      {state : DaemonState} (held : ledger.relays relay = .created iface)
      (changed : state = ledger.state ∨ state = ledger.state.withUtun iface setup) :
      Step ledger ({ ledger with state }.leave relay iface)
  | forwarded {ledger : Ledger} {iface : String} (rules : List RdrRule)
      (served : ledger.Serves iface) :
      Step ledger { ledger with state := { ledger.state with rdrRules := rules } }
  | assigned {ledger : Ledger} {iface : String} (addr : String) (served : ledger.Serves iface) :
      Step ledger { ledger with state := ledger.state.withAlias iface addr }
  | unchanged (ledger : Ledger) : Step ledger ledger
  | dropped {ledger : Ledger} {relay : Nat} {iface : String} {setup : UtunSetup}
      (held : ledger.relays relay = .running iface setup) :
      Step ledger { ledger.enter relay .gone with
        state := ledger.state.tornDown iface
        stranded := ledger.stranded.filter (· ≠ iface) }
  | left {ledger : Ledger} {relay : Nat} {iface : String}
      (held : (ledger.relays relay).iface? = some iface) :
      Step ledger (ledger.leave relay iface)

/-- The helper's entries are those of the running relays and of the stranded interfaces. -/
structure Balanced (ledger : Ledger) : Prop where
  /-- No two relays hold one interface. -/
  distinct : ∀ {first second iface}, (ledger.relays first).iface? = some iface →
    (ledger.relays second).iface? = some iface → first = second
  own : ∀ {relay iface setup}, ledger.relays relay = .running iface setup →
    ledger.state.activeUtuns.lookup iface = some setup
  accounted : ∀ {iface}, ledger.state.activeUtuns.lookup iface ≠ none →
    ledger.Serves iface ∨ iface ∈ ledger.stranded
  left_behind : ∀ iface ∈ ledger.stranded, ledger.state.activeUtuns.lookup iface ≠ none
  aliases : ∀ entry ∈ ledger.state.ipv6Aliases, ledger.state.activeUtuns.lookup entry.1 ≠ none
  forwards : ledger.state.activeUtuns = ∅ → ledger.state.rdrRules = []

theorem Balanced.active {ledger : Ledger} (balanced : Balanced ledger) {iface : String}
    (served : ledger.Serves iface) : ledger.state.activeUtuns.lookup iface ≠ none := by
  obtain ⟨relay, setup, running⟩ := served
  rw [balanced.own running]
  exact Option.some_ne_none setup

/-- An active interface is one of a running relay or a stranded one. -/
theorem Balanced.active_iff {ledger : Ledger} (balanced : Balanced ledger) (iface : String) :
    ledger.state.activeUtuns.lookup iface ≠ none ↔
      ledger.Serves iface ∨ iface ∈ ledger.stranded := by
  refine ⟨balanced.accounted, ?_⟩
  rintro (served | stranded)
  · exact balanced.active served
  · exact balanced.left_behind iface stranded

/-- The helper has an entry exactly when a relay runs or was stranded. -/
theorem Balanced.active_ne_empty_iff {ledger : Ledger} (balanced : Balanced ledger) :
    ledger.state.activeUtuns ≠ ∅ ↔ (∃ iface, ledger.Serves iface) ∨ ledger.stranded ≠ [] := by
  constructor
  · intro active
    by_contra none_left
    simp only [not_or, not_exists, not_not] at none_left
    refine active (Finmap.ext_lookup fun iface => ?_)
    rw [Finmap.lookup_empty]
    by_contra entry
    rcases balanced.accounted entry with served | stranded
    · exact none_left.1 iface served
    · simp [none_left.2] at stranded
  · intro left empty
    have inactive : ∀ iface, ledger.state.activeUtuns.lookup iface = none := by
      intro iface
      rw [empty]
      exact Finmap.lookup_empty iface
    rcases left with ⟨iface, served⟩ | stranded
    · exact balanced.active served (inactive iface)
    · obtain ⟨iface, stranded⟩ := List.exists_mem_of_ne_nil _ stranded
      exact balanced.left_behind iface stranded (inactive iface)

/-- The helper is as new exactly when no relay runs and none was stranded. -/
theorem Balanced.state_eq_new_iff {ledger : Ledger} (balanced : Balanced ledger) :
    ledger.state = .new ↔ (∀ iface, ¬ ledger.Serves iface) ∧ ledger.stranded = [] := by
  constructor
  · intro new
    have empty : ¬ ledger.state.activeUtuns ≠ ∅ := by rw [new]; exact not_not.mpr rfl
    rw [balanced.active_ne_empty_iff, not_or, not_not, not_exists] at empty
    exact empty
  · rintro ⟨none_served, none_stranded⟩
    have empty : ledger.state.activeUtuns = ∅ := by
      by_contra active
      rcases balanced.active_ne_empty_iff.mp active with ⟨iface, served⟩ | stranded
      · exact none_served iface served
      · exact stranded none_stranded
    have no_aliases : ledger.state.ipv6Aliases = [] := by
      refine List.eq_nil_iff_forall_not_mem.mpr fun entry listed => ?_
      have active := balanced.aliases entry listed
      rw [empty] at active
      exact active (Finmap.lookup_empty _)
    calc
      ledger.state = ⟨ledger.state.activeUtuns, ledger.state.rdrRules, ledger.state.ipv6Aliases⟩ :=
        rfl
      _ = .new := by rw [empty, balanced.forwards empty, no_aliases]; rfl

/-! ## One step -/

section Steps

variable {ledger : Ledger} {relay : Nat} {phase : RelayPhase} {iface : String}

theorem relays_enter_self : (ledger.enter relay phase).relays relay = phase := by
  rw [enter]
  exact Function.update_self ..

theorem relays_enter_of_ne {other : Nat} (different : other ≠ relay) :
    (ledger.enter relay phase).relays other = ledger.relays other := by
  rw [enter]
  exact Function.update_of_ne different ..

theorem lookup_withUtun (state : DaemonState) (iface other : String) (setup : UtunSetup) :
    (state.withUtun iface setup).activeUtuns.lookup other =
      if other = iface then some setup else state.activeUtuns.lookup other :=
  HashMap.lookup_insert_eq _ _ _ _

theorem lookup_withUtun_ne_none {state : DaemonState} {other : String} (iface : String)
    (setup : UtunSetup) (active : state.activeUtuns.lookup other ≠ none) :
    (state.withUtun iface setup).activeUtuns.lookup other ≠ none := by
  rw [lookup_withUtun]
  split
  · exact Option.some_ne_none setup
  · exact active

theorem lookup_tornDown (state : DaemonState) (iface other : String) :
    (state.tornDown iface).activeUtuns.lookup other =
      if other = iface then none else state.activeUtuns.lookup other :=
  HashMap.lookup_erase_eq _ _ _

/-- A running relay is still there when another one has changed its phase. -/
theorem Serves.enter (served : ledger.Serves iface)
    (other_phase : ∀ setup, ledger.relays relay ≠ .running iface setup) :
    (ledger.enter relay phase).Serves iface := by
  obtain ⟨other, setup, running⟩ := served
  refine ⟨other, setup, ?_⟩
  rw [relays_enter_of_ne, running]
  rintro rfl
  exact other_phase setup running

/-- A relay that gets an interface no other relay holds leaves all interfaces apart. -/
theorem Balanced.distinct_enter (balanced : Balanced ledger)
    (unused : ∀ iface, phase.iface? = some iface → ∀ other, other ≠ relay →
      (ledger.relays other).iface? ≠ some iface) {first second : Nat}
    (first_holds : ((ledger.enter relay phase).relays first).iface? = some iface)
    (second_holds : ((ledger.enter relay phase).relays second).iface? = some iface) :
    first = second := by
  by_cases first_same : first = relay <;> by_cases second_same : second = relay
  · rw [first_same, second_same]
  · rw [first_same, relays_enter_self] at first_holds
    rw [relays_enter_of_ne second_same] at second_holds
    exact absurd second_holds (unused iface first_holds second second_same)
  · rw [second_same, relays_enter_self] at second_holds
    rw [relays_enter_of_ne first_same] at first_holds
    exact absurd first_holds (unused iface second_holds first first_same)
  · rw [relays_enter_of_ne first_same] at first_holds
    rw [relays_enter_of_ne second_same] at second_holds
    exact balanced.distinct first_holds second_holds

/-- The entries of the relays that have not changed their phase. -/
theorem running_enter
    (not_running : ∀ iface setup, phase ≠ .running iface setup) {other : Nat} {setup : UtunSetup}
    (running : (ledger.enter relay phase).relays other = .running iface setup) :
    other ≠ relay ∧ ledger.relays other = .running iface setup := by
  by_cases same : other = relay
  · rw [same, relays_enter_self] at running
    exact absurd running (not_running iface setup)
  · rw [relays_enter_of_ne same] at running
    exact ⟨same, running⟩

/-- A relay that is not running changes its phase, without an entry. -/
theorem Balanced.enter (balanced : Balanced ledger)
    (unused : ∀ iface, phase.iface? = some iface → ∀ other, other ≠ relay →
      (ledger.relays other).iface? ≠ some iface)
    (not_running : ∀ iface setup, phase ≠ .running iface setup)
    (was_not_running : ∀ iface setup, ledger.relays relay ≠ .running iface setup) :
    Balanced (ledger.enter relay phase) where
  distinct := balanced.distinct_enter unused
  own running := balanced.own (running_enter not_running running).2
  accounted active :=
    (balanced.accounted active).imp_left fun served => served.enter (was_not_running _)
  left_behind := balanced.left_behind
  aliases := balanced.aliases
  forwards := balanced.forwards

/-- A relay whose interface has been set up runs. -/
theorem Balanced.setUp (balanced : Balanced ledger) (held : ledger.relays relay = .created iface)
    (setup : UtunSetup) :
    Balanced { ledger.enter relay (.running iface setup) with
      state := ledger.state.withUtun iface setup } where
  distinct := by
    refine balanced.distinct_enter fun name same other different other_holds => ?_
    obtain rfl : iface = name := Option.some.inj same
    exact different (balanced.distinct other_holds (by rw [held]; rfl))
  own {other name entry} running := by
    rw [lookup_withUtun]
    by_cases same : other = relay
    · subst same
      obtain ⟨rfl, rfl⟩ : iface = name ∧ setup = entry := by
        simpa only [relays_enter_self, RelayPhase.running.injEq] using running
      rw [if_pos rfl]
    · replace running : ledger.relays other = .running name entry := by
        rwa [relays_enter_of_ne same] at running
      have apart : name ≠ iface := by
        rintro rfl
        exact same (balanced.distinct (by rw [running]; rfl) (by rw [held]; rfl))
      rw [if_neg apart]
      exact balanced.own running
  accounted {name} active := by
    by_cases same : name = iface
    · subst same
      exact .inl ⟨relay, setup, relays_enter_self⟩
    · rw [lookup_withUtun, if_neg same] at active
      exact (balanced.accounted active).imp_left fun served =>
        served.enter (by simp [held])
  left_behind name stranded :=
    lookup_withUtun_ne_none iface setup (balanced.left_behind name stranded)
  aliases entry listed := lookup_withUtun_ne_none iface setup (balanced.aliases entry listed)
  forwards empty := absurd empty (insert_ne_empty _ _ _)

/-- A relay goes and its interface is stranded if it has an entry. -/
theorem Balanced.leave (balanced : Balanced ledger)
    (held : (ledger.relays relay).iface? = some iface) : Balanced (ledger.leave relay iface) where
  distinct := balanced.distinct_enter (by simp [RelayPhase.iface?])
  own running := balanced.own (running_enter (by simp) running).2
  accounted {name} active := by
    have split : (ledger.enter relay .gone).Serves name ∨ name ∈ ledger.stranded ∨
        name = iface := by
      rcases balanced.accounted active with ⟨other, setup, running⟩ | stranded
      · by_cases same : other = relay
        · rw [← same, running] at held
          exact .inr (.inr (Option.some.inj held))
        · exact .inl ⟨other, setup, by rw [relays_enter_of_ne same, running]⟩
      · exact .inr (.inl stranded)
    rcases split with served | stranded | rfl
    · exact .inl served
    · right
      rw [Ledger.leave]
      split
      · exact List.mem_cons_of_mem _ stranded
      · exact stranded
    · right
      have left : (ledger.state.activeUtuns.lookup name).isSome = true :=
        Option.isSome_iff_ne_none.mpr active
      rw [Ledger.leave, if_pos left]
      exact List.mem_cons_self
  left_behind name stranded := by
    rw [Ledger.leave] at stranded
    split at stranded
    · rename_i left
      rcases List.mem_cons.mp stranded with rfl | before
      · exact Option.isSome_iff_ne_none.mp left
      · exact balanced.left_behind name before
    · exact balanced.left_behind name stranded
  aliases := balanced.aliases
  forwards := balanced.forwards

/-- A relay goes after its setup was refused; its entry may have been made. -/
theorem Balanced.refused (balanced : Balanced ledger) (held : ledger.relays relay = .created iface)
    {setup : UtunSetup} {state : DaemonState}
    (changed : state = ledger.state ∨ state = ledger.state.withUtun iface setup) :
    Balanced ({ ledger with state }.leave relay iface) := by
  rcases changed with rfl | rfl
  · exact balanced.leave (by rw [held]; rfl)
  · have running := balanced.setUp held setup
    have gone := @Balanced.leave _ relay iface running (by rw [relays_enter_self]; rfl)
    have twice : Function.update (Function.update ledger.relays relay (.running iface setup)) relay
        .gone = Function.update ledger.relays relay .gone := Function.update_idem ..
    simpa only [Ledger.leave, Ledger.enter, twice] using gone

/-- A relay has its interface torn down. -/
theorem Balanced.dropped (balanced : Balanced ledger) {setup : UtunSetup}
    (held : ledger.relays relay = .running iface setup) :
    Balanced { ledger.enter relay .gone with
      state := ledger.state.tornDown iface
      stranded := ledger.stranded.filter (· ≠ iface) } where
  distinct := balanced.distinct_enter (by simp [RelayPhase.iface?])
  own {other name entry} running := by
    obtain ⟨different, still⟩ := running_enter (by simp) running
    have apart : name ≠ iface := by
      rintro rfl
      exact different (balanced.distinct (by rw [still]; rfl) (by rw [held]; rfl))
    rw [lookup_tornDown, if_neg apart]
    exact balanced.own still
  accounted {name} active := by
    rw [lookup_tornDown] at active
    split at active
    · exact absurd rfl active
    · rename_i apart
      rcases balanced.accounted active with served | stranded
      · refine .inl (served.enter fun entry running => apart ?_)
        exact (RelayPhase.running.inj (held.symm.trans running)).1.symm
      · exact .inr (List.mem_filter.mpr ⟨stranded, by simpa using apart⟩)
  left_behind name stranded := by
    obtain ⟨before, apart⟩ := List.mem_filter.mp stranded
    rw [lookup_tornDown, if_neg (by simpa using apart)]
    exact balanced.left_behind name before
  aliases entry listed := by
    obtain ⟨before, apart⟩ := List.mem_filter.mp listed
    rw [lookup_tornDown, if_neg (by simpa using apart)]
    exact balanced.aliases entry before
  forwards empty := if_pos empty

theorem Balanced.step {before after : Ledger} (balanced : Balanced before)
    (stepped : Step before after) : Balanced after := by
  cases stepped with
  | created idle unused =>
      refine balanced.enter (fun name same other _ => ?_) (by simp) (by simp [idle])
      obtain rfl := Option.some.inj same
      exact unused other
  | notCreated idle => exact balanced.enter (by simp [RelayPhase.iface?]) (by simp) (by simp [idle])
  | setUp setup held => exact balanced.setUp held setup
  | refused held changed => exact balanced.refused held changed
  | forwarded rules served =>
      refine { balanced with forwards := fun empty => ?_ }
      have inactive := balanced.active served
      rw [empty] at inactive
      exact absurd (Finmap.lookup_empty _) inactive
  | assigned addr served =>
      refine { balanced with aliases := fun entry listed => ?_ }
      rcases List.mem_append.mp listed with earlier | new
      · exact balanced.aliases entry earlier
      · obtain rfl := List.mem_singleton.mp new
        exact balanced.active served
  | unchanged => exact balanced
  | dropped held => exact balanced.dropped held
  | left held => exact balanced.leave held

end Steps

end Ledger

/-! ## The relays keep the ledger -/

section Sessions

variable {σ Address : Type} {host : Host σ} {rules : TextRules Address} {order : UtunOrder}
variable {errorText : DecodeError → String} {world : World σ}

theorem exchange_eq {request : Request} (sent : request ≠ .createUtun) :
    ∃ response, (handleRequest host rules order request world).1 = .response response ∧
      exchange host rules errorText order request world =
        (response.outcome, (handleRequest host rules order request world).2) := by
  obtain ⟨response, answered⟩ : ∃ response,
      (handleRequest host rules order request world).1 = .response response :=
    exists_response sent world
  refine ⟨response, answered, ?_⟩
  rw [exchange, serve_toLine, answered]
  exact congrArg (·, (handleRequest host rules order request world).2) (pfctlSend_toLine response)

theorem exchange_snd {request : Request} (sent : request ≠ .createUtun) :
    (exchange host rules errorText order request world).2 =
      (handleRequest host rules order request world).2 := by
  obtain ⟨response, -, exchange_eq⟩ := exchange_eq sent
  rw [exchange_eq]

/-- A setup that the relay takes for done has made the entry; one that was refused may have. -/
theorem exchange_setup (iface egress : String) (subnet : VmSubnet) :
    let setup : UtunSetup := { egressIface := egress, ipv4Cidr := subnet.cidr }
    let exchanged := exchange host rules errorText order (setupRequest iface egress subnet) world
    (exchanged.1 = .ok () → exchanged.2.state = world.state.withUtun iface setup) ∧
      (exchanged.2.state = world.state ∨ exchanged.2.state = world.state.withUtun iface setup) := by
  intro setup exchanged
  obtain ⟨response, answered, exchanged_eq⟩ : ∃ response,
      (handleRequest host rules order (setupRequest iface egress subnet) world).1 =
        .response response ∧ exchanged = _ := exchange_eq (by simp [setupRequest])
  rw [exchanged_eq]
  rw [setupRequest, handleRequest, map_apply] at answered ⊢
  obtain rfl := Answer.response.inj answered
  have changes := @state_handleSetupUtun σ Address host rules order world iface
    (String.ofList (ipv4Text subnet.hostIp4)) (String.ofList (ipv4Text subnet.guestIp4)) subnet.cidr
    egress
  refine ⟨fun succeeded => ?_, changes.imp_right And.right⟩
  have ok := outcome_eq_ok.mp succeeded
  by_cases accepted : SetupAccepted host rules iface (String.ofList (ipv4Text subnet.hostIp4))
      (String.ofList (ipv4Text subnet.guestIp4)) egress world
  · rw [handleSetupUtun_of_accepted accepted, keepsState_reloadNatAnchor, state_setupWorld]
  · rw [(handleSetupUtun_of_refused accepted).1] at ok
    cases ok

theorem exchange_addRdr (proto : String) (hostPort : UInt16) (vmIp : String) (vmPort : UInt16) :
    ∃ kept, (exchange host rules errorText order (.addRdr proto hostPort vmIp vmPort)
      world).2.state = { world.state with rdrRules := kept } := by
  rw [exchange_snd (by simp), handleRequest, map_apply]
  by_cases valid : proto = "tcp" ∨ proto = "udp"
  · rw [handleAddRdr_of_valid valid, keepsState_reloadNatAnchor]
    exact ⟨_, rfl⟩
  · rw [handleAddRdr_of_invalid valid]
    exact ⟨world.state.rdrRules, rfl⟩

theorem exchange_removeRdr (proto : String) (hostPort : UInt16) :
    ∃ kept, (exchange host rules errorText order (.removeRdr proto hostPort) world).2.state =
      { world.state with rdrRules := kept } := by
  rw [exchange_snd (by simp), handleRequest, map_apply, handleRemoveRdr_eq,
    keepsState_reloadNatAnchor]
  exact ⟨_, rfl⟩

theorem exchange_assign (iface addr : String) :
    let after := (exchange host rules errorText order (.assignUtunAlias iface addr) world).2.state
    after = world.state ∨ after = world.state.withAlias iface addr := by
  intro after
  have after_eq : after =
      (handleAssignUtunAlias host rules iface addr world).2.state := by
    simp only [after]
    rw [exchange_snd (by simp)]
    rfl
  rw [after_eq]
  exact state_handleAssignUtunAlias iface addr

theorem exchange_teardown (iface : String) :
    (exchange host rules errorText order (.teardownUtun iface) world).2.state =
      world.state.tornDown iface := by
  rw [exchange_snd (by simp), handleRequest, map_apply, state_handleTeardownUtun]

/-- The relays' part of a world. -/
def RelayWorld.ledger (world : RelayWorld σ) : Ledger :=
  { state := world.helper.state, relays := world.relays, stranded := world.stranded }

/-- The relay takes the interface that the kernel has named. -/
theorem RelayWorld.named {before : RelayWorld σ} {answer : Except String String}
    (names : before.KernelNames answer) {descriptor : Option Nat} {number : Nat} {iface : String}
    (read : pfctlCreateUtun errorText rules.quoted (Utf8.encode (utunReply answer)) descriptor =
      .ok (number, iface)) : answer = .ok iface := by
  rw [utun_received names.plain names.short] at read
  cases answer with
  | error error => simp [utunOutcome] at read
  | ok name =>
      cases descriptor with
      | none => simp [utunOutcome] at read
      | some descriptor =>
          simp only [utunOutcome, Except.ok.injEq, Prod.mk.injEq] at read
          rw [read.2]

theorem RelayWorld.ledger_create {before after : RelayWorld σ} {relay : Nat}
    {answer : Except String String} {descriptor : Option Nat} (names : before.KernelNames answer)
    (stepped : before.step host rules errorText (.create relay answer descriptor) = some after) :
    Ledger.Step before.ledger after.ledger := by
  simp only [RelayWorld.step] at stepped
  split at stepped
  · rename_i idle
    rw [serve_toLine] at stepped
    let answering : Host σ := { host with createUtun := fun system => (answer, system) }
    have reply_eq : (handleRequest answering rules (.sorted _) .createUtun before.helper).1.reply
        errorText = utunReply answer := rfl
    have helper_eq : (handleRequest answering rules (.sorted _) .createUtun before.helper).2 =
        before.helper := rfl
    dsimp only at stepped
    rw [helper_eq, reply_eq] at stepped
    split at stepped
    · rename_i number iface outcome
      obtain rfl := Option.some.inj stepped
      exact .created idle (names.unused iface (named names outcome))
    · obtain rfl := Option.some.inj stepped
      exact .notCreated idle
  · cases stepped

theorem RelayWorld.ledger_setUp {before after : RelayWorld σ} {relay : Nat} {egress : String}
    {subnet : VmSubnet}
    (stepped : before.step host rules errorText (.setUp relay order egress subnet) = some after) :
    Ledger.Step before.ledger after.ledger := by
  simp only [RelayWorld.step] at stepped
  split at stepped
  · rename_i iface held
    obtain ⟨succeeds, changes⟩ :=
      @exchange_setup σ Address host rules order errorText before.helper iface egress subnet
    generalize exchange host rules errorText order (setupRequest iface egress subnet)
      before.helper = exchanged at stepped succeeds changes
    split at stepped
    · rename_i succeeded
      obtain rfl := Option.some.inj stepped
      have step := @Ledger.Step.setUp before.ledger relay iface
        { egressIface := egress, ipv4Cidr := subnet.cidr } held
      rw [RelayWorld.ledger, ← succeeds succeeded] at step
      exact step
    · obtain rfl := Option.some.inj stepped
      exact .refused held changes
  · cases stepped

/-- A request that can change no more than the forwards and the aliases. -/
theorem RelayWorld.ledger_request {before : RelayWorld σ} {iface : String}
    (served : before.ledger.Serves iface) {request : Request}
    (changes : (∃ kept, (exchange host rules errorText order request before.helper).2.state =
        { before.helper.state with rdrRules := kept }) ∨
      ∃ addr, (exchange host rules errorText order request before.helper).2.state =
        before.helper.state.withAlias iface addr) :
    Ledger.Step before.ledger (before.request host rules errorText order request).ledger := by
  rw [RelayWorld.request]
  generalize exchange host rules errorText order request before.helper = exchanged at changes ⊢
  rcases changes with ⟨kept, state_eq⟩ | ⟨addr, state_eq⟩
  · have step := @Ledger.Step.forwarded before.ledger iface kept served
    rw [RelayWorld.ledger, ← state_eq] at step
    exact step
  · have step := @Ledger.Step.assigned before.ledger iface addr served
    rw [RelayWorld.ledger, ← state_eq] at step
    exact step

theorem RelayWorld.ledger_drop {before after : RelayWorld σ} {relay : Nat}
    (stepped : before.step host rules errorText (.drop relay order) = some after) :
    Ledger.Step before.ledger after.ledger := by
  simp only [RelayWorld.step] at stepped
  split at stepped
  · rename_i iface setup held
    obtain rfl := Option.some.inj stepped
    have state_eq := @exchange_teardown σ Address host rules order errorText before.helper iface
    rw [RelayWorld.request]
    generalize exchange host rules errorText order (.teardownUtun iface) before.helper = exchanged
      at state_eq ⊢
    have step := @Ledger.Step.dropped before.ledger relay iface setup held
    rw [RelayWorld.ledger, ← state_eq] at step
    exact step
  · cases stepped

/-- Whatever the system's commands return, a step of a relay is a step of the ledger. -/
theorem RelayWorld.ledger_step {before after : RelayWorld σ} {action : RelayAction}
    (named : before.NamedByKernel action)
    (stepped : before.step host rules errorText action = some after) :
    Ledger.Step before.ledger after.ledger := by
  cases action with
  | create relay answer descriptor => exact ledger_create named stepped
  | setUp relay order egress subnet => exact ledger_setUp stepped
  | addRdr relay order proto hostPort vmIp vmPort =>
      simp only [RelayWorld.step] at stepped
      split at stepped
      · rename_i iface setup held
        obtain rfl := Option.some.inj stepped
        exact ledger_request ⟨relay, setup, held⟩
          (.inl (exchange_addRdr proto hostPort vmIp vmPort))
      · cases stepped
  | removeRdr relay order proto hostPort =>
      simp only [RelayWorld.step] at stepped
      split at stepped
      · rename_i iface setup held
        obtain rfl := Option.some.inj stepped
        exact ledger_request ⟨relay, setup, held⟩ (.inl (exchange_removeRdr proto hostPort))
      · cases stepped
  | assign relay addr =>
      simp only [RelayWorld.step] at stepped
      split at stepped
      · rename_i iface setup held
        obtain rfl := Option.some.inj stepped
        refine ledger_request ⟨relay, setup, held⟩ ?_
        rcases exchange_assign iface addr with same | changed
        · exact .inl ⟨before.helper.state.rdrRules, same⟩
        · exact .inr ⟨addr, changed⟩
      · cases stepped
  | drop relay order => exact ledger_drop stepped
  | giveUp relay =>
      simp only [RelayWorld.step] at stepped
      split at stepped
      · rename_i iface held
        obtain rfl := Option.some.inj stepped
        exact .left held
      · cases stepped

theorem balanced_start (system : σ) : (RelayWorld.start system).ledger.Balanced where
  distinct held := by cases held
  own running := by cases running
  accounted active := absurd (Finmap.lookup_empty _) active
  left_behind _ stranded := by cases stranded
  aliases _ listed := by cases listed
  forwards _ := rfl

theorem RelayWorld.balanced_of_run {system : σ} {actions : List RelayAction}
    {world : RelayWorld σ}
    (named : Guarded (step host rules errorText) NamedByKernel actions (start system))
    (execution : run (step host rules errorText) actions (start system) = some world) :
    world.ledger.Balanced := by
  have preserved : ∀ {before after : RelayWorld σ} {action : RelayAction},
      before.ledger.Balanced → before.NamedByKernel action →
        before.step host rules errorText action = some after → after.ledger.Balanced :=
    fun balanced named stepped => balanced.step (ledger_step named stepped)
  exact invariant_of_guarded preserved (balanced_start system) named execution

/-- Whatever the other relays do, and whichever commands fail, a running relay has the entry it
asked for; the helper's entries are those of the running relays and of the stranded interfaces, and
with neither the helper is as it was at its start. -/
theorem helper_serves_relays (host : Host σ) (rules : TextRules Address)
    (errorText : DecodeError → String) {system : σ} {actions : List RelayAction}
    {world : RelayWorld σ}
    (named : Guarded (RelayWorld.step host rules errorText) RelayWorld.NamedByKernel actions
      (.start system))
    (execution : run (RelayWorld.step host rules errorText) actions (.start system) =
      some world) :
    (∀ relay iface setup, world.relays relay = .running iface setup →
      world.helper.state.activeUtuns.lookup iface = some setup) ∧
    (∀ iface, world.helper.state.activeUtuns.lookup iface ≠ none ↔
      (∃ relay setup, world.relays relay = .running iface setup) ∨ iface ∈ world.stranded) ∧
    (world.helper.state = .new ↔
      (∀ iface, ¬ ∃ relay setup, world.relays relay = .running iface setup) ∧
        world.stranded = []) := by
  have balanced := RelayWorld.balanced_of_run named execution
  exact ⟨fun relay iface setup running => balanced.own running, balanced.active_iff,
    balanced.state_eq_new_iff⟩

/-! ## On a working system -/

section Working

variable [DecidableEq Address]

/-- A request of a running relay keeps the agreement. -/
theorem RelayWorld.agrees_request {before : RelayWorld (System Address)}
    (agrees : Agrees rules before.helper) {request : Request} (sent : request ≠ .createUtun) :
    Agrees rules (before.request (workingHost rules) rules errorText order request).helper := by
  rw [RelayWorld.request, exchange_snd sent]
  exact Pfctl.agrees_request agrees request

theorem RelayWorld.agrees_create {before after : RelayWorld (System Address)} {relay : Nat}
    {answer : Except String String} {descriptor : Option Nat} (agrees : Agrees rules before.helper)
    (stepped : before.step (workingHost rules) rules errorText (.create relay answer descriptor) =
      some after) : Agrees rules after.helper := by
  simp only [RelayWorld.step] at stepped
  split at stepped
  · rw [serve_toLine] at stepped
    have helper_eq : (handleRequest { workingHost rules with
        createUtun := fun system => (answer, system) } rules (.sorted _) .createUtun
          before.helper).2 = before.helper := rfl
    dsimp only at stepped
    rw [helper_eq] at stepped
    split at stepped
    · obtain rfl := Option.some.inj stepped
      exact agrees
    · obtain rfl := Option.some.inj stepped
      exact agrees
  · cases stepped

theorem RelayWorld.agrees_setUp {before after : RelayWorld (System Address)} {relay : Nat}
    {egress : String} {subnet : VmSubnet} (agrees : Agrees rules before.helper)
    (stepped : before.step (workingHost rules) rules errorText (.setUp relay order egress subnet) =
      some after) : Agrees rules after.helper := by
  simp only [RelayWorld.step] at stepped
  split at stepped
  · rename_i iface held
    have kept : Agrees rules (exchange (workingHost rules) rules errorText order
        (setupRequest iface egress subnet) before.helper).2 := by
      rw [exchange_snd (by simp [setupRequest])]
      exact Pfctl.agrees_request agrees _
    generalize exchange (workingHost rules) rules errorText order
      (setupRequest iface egress subnet) before.helper = exchanged at stepped kept
    split at stepped
    · obtain rfl := Option.some.inj stepped
      exact kept
    · obtain rfl := Option.some.inj stepped
      exact kept
  · cases stepped

theorem RelayWorld.agrees_step {before after : RelayWorld (System Address)}
    {action : RelayAction} (agrees : Agrees rules before.helper)
    (stepped : before.step (workingHost rules) rules errorText action = some after) :
    Agrees rules after.helper := by
  cases action with
  | create relay answer descriptor => exact agrees_create agrees stepped
  | setUp relay order egress subnet => exact agrees_setUp agrees stepped
  | addRdr relay order proto hostPort vmIp vmPort =>
      simp only [RelayWorld.step] at stepped
      split at stepped
      · obtain rfl := Option.some.inj stepped
        exact RelayWorld.agrees_request agrees (by simp)
      · cases stepped
  | removeRdr relay order proto hostPort =>
      simp only [RelayWorld.step] at stepped
      split at stepped
      · obtain rfl := Option.some.inj stepped
        exact RelayWorld.agrees_request agrees (by simp)
      · cases stepped
  | assign relay addr =>
      simp only [RelayWorld.step] at stepped
      split at stepped
      · obtain rfl := Option.some.inj stepped
        exact RelayWorld.agrees_request agrees (by simp)
      · cases stepped
  | drop relay order =>
      simp only [RelayWorld.step] at stepped
      split at stepped
      · rename_i iface setup held
        obtain rfl := Option.some.inj stepped
        have kept : Agrees rules (before.request (workingHost rules) rules errorText order
            (.teardownUtun iface)).helper := RelayWorld.agrees_request agrees (by simp)
        generalize before.request (workingHost rules) rules errorText order
          (.teardownUtun iface) = requested at kept ⊢
        exact kept
      · cases stepped
  | giveUp relay =>
      simp only [RelayWorld.step] at stepped
      split at stepped
      · obtain rfl := Option.some.inj stepped
        exact agrees
      · cases stepped

/-- On a system that carries out the helper's commands, forwarding is on exactly while the helper
has an entry, and when every relay has been dropped nothing is left of them: no rule is loaded,
forwarding is off and no address has a route. -/
theorem relays_leave_no_trace (rules : TextRules Address) (errorText : DecodeError → String)
    {actions : List RelayAction} {world : RelayWorld (System Address)}
    (named : Guarded (RelayWorld.step (workingHost rules) rules errorText) RelayWorld.NamedByKernel
      actions (.start .init))
    (execution : run (RelayWorld.step (workingHost rules) rules errorText) actions
      (.start .init) = some world) :
    (world.helper.system.forwarding = true ↔
      (∃ iface relay setup, world.relays relay = .running iface setup) ∨ world.stranded ≠ []) ∧
    ((∀ iface relay setup, world.relays relay ≠ .running iface setup) → world.stranded = [] →
      world.helper.system.anchor = "" ∧ world.helper.system.forwarding = false ∧
        world.helper.system.forwarding6 = false ∧ world.helper.system.routes = []) := by
  have balanced := RelayWorld.balanced_of_run named execution
  have agrees : Agrees rules world.helper :=
    invariant_of_run (fun agrees stepped => RelayWorld.agrees_step agrees stepped) agrees_init
      execution
  constructor
  · exact agrees.forwarding.trans balanced.active_ne_empty_iff
  · intro none_running none_stranded
    have new : world.helper.state = .new :=
      balanced.state_eq_new_iff.mpr
        ⟨fun iface ⟨relay, setup, running⟩ => none_running iface relay setup running, none_stranded⟩
    obtain ⟨order, anchor_eq⟩ := agrees.anchor
    have forwarding := agrees.forwarding
    have forwarding6 := agrees.forwarding6
    have routes := agrees.routes
    rw [new] at anchor_eq forwarding forwarding6 routes
    refine ⟨?_, ?_, ?_, ?_⟩
    · rw [anchor_eq]
      exact DaemonState.anchorText_eq_empty.mpr ⟨rfl, rfl⟩
    · exact eq_false_of_ne_true fun on => forwarding.mp on rfl
    · exact eq_false_of_ne_true fun on => forwarding6.mp on rfl
    · refine List.eq_nil_iff_forall_not_mem.mpr fun address routed => ?_
      obtain ⟨entry, listed, -⟩ := (routes address).mp routed
      cases listed

end Working

/-! ## A relay from its start to its end -/

/-- A relay that gets a descriptor with the kernel's answer has its interface. -/
theorem RelayWorld.step_create {before : RelayWorld σ} {relay : Nat}
    (idle : before.relays relay = .idle) {iface : String} (names : before.KernelNames (.ok iface))
    (descriptor : Nat) :
    before.step host rules errorText (.create relay (.ok iface) (some descriptor)) =
      some (before.enter relay (.created iface)) := by
  have read : pfctlCreateUtun errorText rules.quoted (Utf8.encode (utunReply (.ok iface)))
      (some descriptor) = .ok (descriptor, iface) := utun_received names.plain names.short _ _
  let answering : Host σ := { host with createUtun := fun system => (.ok iface, system) }
  have reply_eq : (handleRequest answering rules (.sorted _) .createUtun before.helper).1.reply
      errorText = utunReply (.ok iface) := rfl
  have helper_eq : (handleRequest answering rules (.sorted _) .createUtun before.helper).2 =
      before.helper := rfl
  simp only [RelayWorld.step, idle]
  rw [serve_toLine]
  dsimp only
  rw [helper_eq, reply_eq, read]

variable [DecidableEq Address]

/-- On a working system a setup with safe names succeeds. -/
theorem RelayWorld.step_setUp {before : RelayWorld (System Address)} {relay : Nat} {iface : String}
    (held : before.relays relay = .created iface) {egress : String}
    (safe : isSafeIface rules iface = true) (egress_safe : isSafeIface rules egress = true)
    (subnet : VmSubnet) :
    ∃ helper, before.step (workingHost rules) rules errorText (.setUp relay order egress subnet) =
      some ({ before with helper }.enter relay
        (.running iface { egressIface := egress, ipv4Cidr := subnet.cidr })) := by
  have succeeds : (exchange (workingHost rules) rules errorText order
      (setupRequest iface egress subnet) before.helper).1 = .ok () := by
    obtain ⟨response, answered, exchanged⟩ := @exchange_eq (System Address) Address
      (workingHost rules) rules order errorText before.helper (setupRequest iface egress subnet)
      (by simp [setupRequest])
    rw [exchanged]
    rw [setupRequest, handleRequest, map_apply,
      handleSetupUtun_of_accepted ⟨safe, egress_safe, rfl⟩, reloadNatAnchor_working.1] at answered
    obtain rfl := Answer.response.inj answered
    rfl
  simp only [RelayWorld.step, held]
  generalize exchange (workingHost rules) rules errorText order (setupRequest iface egress subnet)
    before.helper = exchanged at succeeds ⊢
  exact ⟨exchanged.2, by rw [succeeds]⟩

omit [DecidableEq Address] in
theorem RelayWorld.step_drop {before : RelayWorld σ} {relay : Nat} {iface : String}
    {setup : UtunSetup} (held : before.relays relay = .running iface setup) :
    ∃ helper, before.step host rules errorText (.drop relay order) =
      some { { before with helper }.enter relay .gone with
        stranded := before.stranded.filter (· ≠ iface) } := by
  simp only [RelayWorld.step, held, RelayWorld.request]
  generalize exchange host rules errorText order (.teardownUtun iface) before.helper = exchanged
  exact ⟨exchanged.2, rfl⟩

end Sessions

/-- The subnet of the default profile. -/
def firstSubnet : VmSubnet := .fromGuestIp defaultGuestIp

def firstActions : List RelayAction :=
  [.create 0 (.ok "utun9") (some 7), .setUp 0 (.sorted _) "en0" firstSubnet]

def readsNone : TextRules Unit := asciiRules fun _ => none

theorem utun9_named {system : System Unit} :
    (RelayWorld.start system).KernelNames (.ok "utun9") where
  plain := by
    rintro text (same | same)
    · obtain rfl := Except.ok.inj same
      have unescaped : "utun9".toList.Forall fun char => Json.escape char = [char] := by decide
      exact List.forall_iff_forall_mem.mp unescaped
    · cases same
  short := by decide
  unused _ _ _ := by simp [RelayWorld.start, RelayPhase.iface?]

theorem firstActions_named {errorText : DecodeError → String} :
    Guarded (RelayWorld.step (workingHost readsNone) readsNone errorText) RelayWorld.NamedByKernel
      firstActions (.start .init) :=
  ⟨utun9_named, fun _ _ => ⟨trivial, fun _ _ => trivial⟩⟩

/-- The first relay runs, and no other has been started. -/
theorem first_relay_runs (errorText : DecodeError → String) :
    ∃ world, run (RelayWorld.step (workingHost readsNone) readsNone errorText) firstActions
        (.start .init) = some world ∧
      world.relays 0 = .running "utun9" { egressIface := "en0", ipv4Cidr := firstSubnet.cidr } ∧
      (∀ relay, relay ≠ 0 → world.relays relay = .idle) ∧ world.stranded = [] := by
  have created := @RelayWorld.step_create _ _ (workingHost readsNone) readsNone errorText
    (.start .init) 0 rfl "utun9" utun9_named 7
  obtain ⟨helper, set_up⟩ := @RelayWorld.step_setUp _ readsNone (.sorted _) errorText _
    ((RelayWorld.start .init).enter 0 (.created "utun9")) 0 "utun9" rfl "en0" (by decide)
    (by decide) firstSubnet
  refine ⟨_, run_cons_eq_some.mpr ⟨_, created, run_cons_eq_some.mpr ⟨_, set_up, rfl⟩⟩, rfl, ?_, rfl⟩
  intro relay other
  simp [RelayWorld.enter, RelayWorld.start, other]

theorem first_relay_served :
    ∃ world, run (RelayWorld.step (workingHost readsNone) readsNone fun _ => "EOF") firstActions
        (.start .init) = some world ∧
      world.helper.state.activeUtuns.lookup "utun9" =
        some { egressIface := "en0", ipv4Cidr := firstSubnet.cidr } := by
  obtain ⟨world, execution, running, -⟩ := first_relay_runs fun _ => "EOF"
  exact ⟨world, execution, (helper_serves_relays (workingHost readsNone) readsNone _
    firstActions_named execution).1 0 "utun9" _ running⟩

theorem dropped_relay_leaves_no_trace :
    ∃ world, run (RelayWorld.step (workingHost readsNone) readsNone fun _ => "EOF")
        (firstActions ++ [.drop 0 (.sorted _)]) (.start .init) = some world ∧
      world.helper.system.anchor = "" ∧ world.helper.system.forwarding = false := by
  obtain ⟨middle, execution, running, others, none_stranded⟩ := first_relay_runs fun _ => "EOF"
  obtain ⟨helper, dropped⟩ := @RelayWorld.step_drop _ _ (workingHost readsNone) readsNone
    (.sorted _) (fun _ => "EOF") middle 0 "utun9" _ running
  have last : run (RelayWorld.step (workingHost readsNone) readsNone fun _ => "EOF")
      [.drop 0 (.sorted _)] middle = some _ := run_cons_eq_some.mpr ⟨_, dropped, run_nil _ _⟩
  have whole := run_append_eq_some.mpr ⟨middle, execution, last⟩
  have named : Guarded (RelayWorld.step (workingHost readsNone) readsNone fun _ => "EOF")
      RelayWorld.NamedByKernel (firstActions ++ [.drop 0 (.sorted _)]) (.start .init) :=
    (guarded_append execution).mpr ⟨firstActions_named, trivial, fun _ _ => trivial⟩
  have clean := (relays_leave_no_trace readsNone _ named whole).2 ?_ ?_
  · exact ⟨_, whole, clean.1, clean.2.1⟩
  · intro iface relay setup
    by_cases first : relay = 0
    · simp [RelayWorld.enter, first]
    · simp [RelayWorld.enter, first, others relay first]
  · simp [none_stranded]

end Pelagos.Pfctl
