import Mathlib.Data.List.Range
import Pelagos.CommandLine.VmConf
import Pelagos.Library.Execution
import Pelagos.Library.LexicalPath

/-!
# Subnets of profiles

`ensure_vm_ip` gives a profile an address in a subnet of its own: it looks for one in the profile's
`vm.conf`, reads the `vm.conf` of every other profile, and appends the lowest address that is free
to its own.  Nothing is locked meanwhile, and processes for other profiles do the same.
-/

namespace Pelagos.CommandLine

open Execution LexicalPath
open Daemon (Ipv4Addr)

def defaultGuestIp : Ipv4Addr := { octet₀ := 192, octet₁ := 168, octet₂ := 105, octet₃ := 2 }

/-- The address that is assigned in a subnet. -/
def subnetAddress (third : UInt8) : Ipv4Addr :=
  { octet₀ := 192, octet₁ := 168, octet₂ := third, octet₃ := 2 }

/-- The subnets to choose from, `106..=254`. -/
def subnetCandidates : List UInt8 := (List.range' 106 149).map UInt8.ofNat

/-- The addresses of the host and of the guest in the network of a VM. -/
structure VmSubnet where
  hostIp4 : Ipv4Addr
  guestIp4 : Ipv4Addr
  cidr : String
  deriving DecidableEq

def VmSubnet.fromGuestIp (guest : Ipv4Addr) : VmSubnet where
  hostIp4 := { guest with octet₃ := 1 }
  guestIp4 := guest
  cidr := String.ofList (octetText guest.octet₀ ++ '.' :: octetText guest.octet₁ ++
    '.' :: octetText guest.octet₂) ++ ".0/24"

/-- The address is one of the `/24` of the host's. -/
def VmSubnet.Contains (subnet : VmSubnet) (ip : Ipv4Addr) : Prop :=
  ip.octet₀ = subnet.hostIp4.octet₀ ∧ ip.octet₁ = subnet.hostIp4.octet₁ ∧
    ip.octet₂ = subnet.hostIp4.octet₂

/-- The place of `profileDir`; `base` is that of the default profile. -/
def profilePlace (base : Place) (name : String) : Place :=
  if name = "default" then base else resolve ("profiles" :: base) name

/-- The name is a single path component. -/
def IsProfileName (name : String) : Prop :=
  name = "default" ∨ components name = [.normal name]

instance (name : String) : Decidable (IsProfileName name) := instDecidableOr

/-- Where a call of `ensure_vm_ip` is. -/
inductive EnsureVmIp where
  | notCalled
  /-- The profile is a named one, and its own file has no address. -/
  | unconfigured
  /-- The file of the default profile is read. -/
  | listing (taken : List UInt8)
  /-- The entries of the profiles directory whose files are still to be read. -/
  | scanning (taken : List UInt8) (entries : List String)
  | chosen (ip : Ipv4Addr)
  /-- The file is open and the rest of the line is to be written. -/
  | appending (ip : Ipv4Addr) (rest : List Char)
  | returned (result : Option Ipv4Addr)

/-- The address a call has chosen or returned. -/
def EnsureVmIp.address : EnsureVmIp → Option Ipv4Addr
  | chosen ip | appending ip _ => some ip
  | returned result => result
  | _ => none

/-- The directories and the calls, one for each profile. -/
structure Allocations where
  /-- The text of `vm.conf` in a directory, if there is such a file and such a directory. -/
  dirs : Place → Option (Option String)
  call : String → EnsureVmIp

/-- A step of a call.  Reads may fail, and the directory may be read in part. -/
inductive EnsureStep where
  | loadOwn (readable : Bool)
  | loadDefault (readable : Bool)
  | readDir (entries : List String)
  | loadEntry (readable : Bool)
  | choose
  | openConf
  | write (size : Nat)
  /-- The directory or the file cannot be created, or the file cannot be written. -/
  | fail
  | finish

namespace Allocations

def start (dirs : Place → Option (Option String)) : Allocations :=
  { dirs, call := fun _ => .notCalled }

def confOf (world : Allocations) (dir : Place) : Option String := (world.dirs dir).join

/-- The address in the `vm.conf` of a directory. -/
def configured (world : Allocations) (dir : Place) : Option Ipv4Addr :=
  (world.confOf dir).bind fun text => (VmConf.ofText text).vmIp

def withCall (world : Allocations) (name : String) (call : EnsureVmIp) : Allocations :=
  { world with call := Function.update world.call name call }

/-- Create the directory and those above it, and its file. -/
def openConf (world : Allocations) (dir : Place) : Allocations :=
  let created := fun place =>
    if place <:+ dir then some (world.confOf place) else world.dirs place
  { world with dirs := Function.update created dir (some (some ((world.confOf dir).getD ""))) }

def appendConf (world : Allocations) (dir : Place) (text : List Char) : Allocations :=
  { world with
    dirs := Function.update world.dirs dir
      (some (some ((world.confOf dir).getD "" ++ String.ofList text))) }

def step (base : Place) (world : Allocations) : String × EnsureStep → Option Allocations
  | (name, .loadOwn readable) =>
      match world.call name with
      | .notCalled =>
          some (world.withCall name
            (match VmConf.load (world.confOf (profilePlace base name)) readable with
            | none => .returned none
            | some conf =>
                match conf.vmIp with
                | some ip => .returned (some ip)
                | none => if name = "default" then .chosen defaultGuestIp else .unconfigured))
      | _ => none
  | (name, .loadDefault readable) =>
      match world.call name with
      | .unconfigured =>
          some (world.withCall name (.listing
            [((VmConf.load (world.confOf base) readable).bind VmConf.vmIp).elim 105
              Ipv4Addr.octet₂]))
      | _ => none
  | (name, .readDir entries) =>
      match world.call name with
      | .listing taken =>
          if ∀ entry ∈ entries, (world.dirs (entry :: "profiles" :: base)).isSome then
            some (world.withCall name (.scanning taken entries))
          else none
      | _ => none
  | (name, .loadEntry readable) =>
      match world.call name with
      | .scanning taken (entry :: entries) =>
          some (world.withCall name (.scanning
            (if entry = name then taken
            else
              match (VmConf.load (world.confOf (profilePlace base entry)) readable).bind
                  VmConf.vmIp with
              | some ip => ip.octet₂ :: taken
              | none => taken)
            entries))
      | _ => none
  | (name, .choose) =>
      match world.call name with
      | .scanning taken [] =>
          some (world.withCall name
            (match subnetCandidates.find? (· ∉ taken) with
            | some third => .chosen (subnetAddress third)
            | none => .returned none))
      | _ => none
  | (name, .openConf) =>
      match world.call name with
      | .chosen ip =>
          some ((world.openConf (profilePlace base name)).withCall name
            (.appending ip (vmIpLine ip)))
      | _ => none
  | (name, .write size) =>
      match world.call name with
      | .appending ip rest =>
          some ((world.appendConf (profilePlace base name) (rest.take size)).withCall name
            (.appending ip (rest.drop size)))
      | _ => none
  | (name, .fail) =>
      match world.call name with
      | .chosen _ | .appending _ (_ :: _) => some (world.withCall name (.returned none))
      | _ => none
  | (name, .finish) =>
      match world.call name with
      | .appending ip [] => some (world.withCall name (.returned (some ip)))
      | _ => none

/-- The directory has the address: its file does, or a call has chosen or returned it. -/
def Holds (base : Place) (world : Allocations) (dir : Place) (ip : Ipv4Addr) : Prop :=
  world.configured dir = some ip ∨
    ∃ name, profilePlace base name = dir ∧ (world.call name).address = some ip

end Allocations

/-- The third octets differ, and so no address is in both subnets. -/
def Apart (first second : Ipv4Addr) : Prop :=
  first.octet₂ ≠ second.octet₂ ∧
    ∀ ip, ¬ ((VmSubnet.fromGuestIp first).Contains ip ∧ (VmSubnet.fromGuestIp second).Contains ip)

/-- The configured addresses are in different subnets, that of the default profile reserved. -/
structure ConfiguredApart (base : Place) (dirs : Place → Option (Option String)) : Prop where
  apart : ∀ {first second : Place} {ip other : Ipv4Addr}, first ≠ second →
    (Allocations.start dirs).configured first = some ip →
    (Allocations.start dirs).configured second = some other → ip.octet₂ ≠ other.octet₂
  reserved : ∀ {dir : Place} {ip : Ipv4Addr}, dir ≠ base →
    (Allocations.start dirs).configured dir = some ip → ip.octet₂ ≠ 105

namespace Allocations

/-- Every returned address is apart from the others and from those of other profiles' files. -/
structure SubnetsDistinct (base : Place) (world : Allocations) : Prop where
  returned_apart : ∀ {first second : String} {ip other : Ipv4Addr}, first ≠ second →
    world.call first = .returned (some ip) → world.call second = .returned (some other) →
    Apart ip other
  configured_apart : ∀ {name : String} {dir : Place} {ip other : Ipv4Addr},
    dir ≠ profilePlace base name → world.call name = .returned (some ip) →
    world.configured dir = some other → Apart ip other

/-- What a scan needs to see every address.  Names are single path components; a file that has an
address is read without failing; the listing has every profile that has an address; the address of a
profile is in its file when the file is read; and a profile chooses one only while every other call
that has begun to read the entries has its file still to read. -/
def AddressesSeen (base : Place) (world : Allocations) : String × EnsureStep → Prop
  | (name, .loadOwn _) => IsProfileName name
  | (_, .loadDefault readable) => readable = true ∨ world.configured base = none
  | (name, .readDir entries) =>
      ∀ dir ip, dir ≠ base → dir ≠ profilePlace base name → world.Holds base dir ip →
        ∃ entry ∈ entries, profilePlace base entry = dir
  | (name, .loadEntry readable) =>
      ∀ taken entry entries, world.call name = .scanning taken (entry :: entries) →
        entry ≠ name → profilePlace base entry ≠ base →
        ∀ ip, world.Holds base (profilePlace base entry) ip →
          readable = true ∧ world.configured (profilePlace base entry) = some ip
  | (name, .choose) =>
      ∀ other taken entries, other ≠ name → world.call other = .scanning taken entries →
        ∃ entry ∈ entries, profilePlace base entry = profilePlace base name
  | _ => True

end Allocations

/-! ## Places of profiles -/

theorem resolve_profileDir {env : HostEnv} {base dir name : String}
    (base_eq : pelagosBase env = some base) (dir_eq : profileDir env name = some dir)
    (workingDir : Place) :
    resolve workingDir dir = profilePlace (resolve workingDir base) name := by
  have nonempty : base ≠ "" := by
    unfold pelagosBase at base_eq
    split at base_eq
    · exact Option.some.inj base_eq ▸ join_ne_empty _ (by decide)
    · obtain ⟨home, -, rfl⟩ := Option.map_eq_some_iff.mp base_eq
      exact join_ne_empty _ (by decide)
  rw [profileDir, base_eq, Option.map_some, Option.some.injEq] at dir_eq
  subst dir_eq
  rw [profilePlace]
  split
  · rfl
  · cases relative : isAbsolute name with
    | true =>
        rw [join, if_pos relative, resolve_of_isAbsolute relative,
          resolve_of_isAbsolute relative ("profiles" :: _)]
    | false =>
        rw [resolve_join (join_ne_empty _ (by decide)) relative, resolve_join nonempty rfl,
          resolve_of_relative relative]
        rfl

theorem profilePlace_of_named {name : String} (named : components name = [.normal name])
    (not_default : name ≠ "default") (base : Place) :
    profilePlace base name = name :: "profiles" :: base := by
  rw [profilePlace, if_neg not_default, resolve, named]
  rfl

/-- The default profile and no other is at the base. -/
theorem profilePlace_eq_base {name : String} (is_name : IsProfileName name) {base : Place} :
    profilePlace base name = base ↔ name = "default" := by
  constructor
  · intro at_base
    by_contra not_default
    rw [profilePlace_of_named (is_name.resolve_left not_default) not_default] at at_base
    have lengths := congrArg List.length at_base
    rw [List.length_cons, List.length_cons] at lengths
    omega
  · rintro rfl
    rfl

theorem profilePlace_inj {first second : String} (is_first : IsProfileName first)
    (is_second : IsProfileName second) {base : Place}
    (same : profilePlace base first = profilePlace base second) : first = second := by
  by_cases first_default : first = "default"
  · rw [first_default] at same
    rw [first_default, (profilePlace_eq_base is_second).mp same.symm]
  · by_cases second_default : second = "default"
    · rw [second_default] at same
      exact absurd ((profilePlace_eq_base is_first).mp same) first_default
    · rw [profilePlace_of_named (is_first.resolve_left first_default) first_default,
        profilePlace_of_named (is_second.resolve_left second_default) second_default] at same
      exact (List.cons.inj same).1

theorem apart_of_ne {first second : Ipv4Addr} (different : first.octet₂ ≠ second.octet₂) :
    Apart first second :=
  ⟨different, fun _ ⟨in_first, in_second⟩ => different (in_first.2.2.symm.trans in_second.2.2)⟩

namespace Allocations

variable {base : Place} {world after : Allocations} {name : String}

/-! ## The invariant -/

/-- Every address outside the call's own directory is taken, that of the default profile, or in a
file that is still to be read. -/
def Seen (base : Place) (world : Allocations) (name : String) (taken : List UInt8)
    (entries : List String) : Prop :=
  ∀ dir ip, dir ≠ profilePlace base name → world.Holds base dir ip →
    ip.octet₂ ∈ taken ∨ (dir = base ∧ ip.octet₂ = 105) ∨
      (dir ≠ base ∧ ∃ entry ∈ entries, profilePlace base entry = dir)

/-- What is known of a call. -/
def CallOk (base : Place) (world : Allocations) (name : String) : EnsureVmIp → Prop
  | .notCalled | .returned none => True
  | .unconfigured => name ≠ "default" ∧ world.configured (profilePlace base name) = none
  | .listing taken =>
      (name ≠ "default" ∧ world.configured (profilePlace base name) = none) ∧
        ∀ ip, world.Holds base base ip → ip.octet₂ ∈ taken ∨ ip.octet₂ = 105
  | .scanning taken entries =>
      (name ≠ "default" ∧ world.configured (profilePlace base name) = none) ∧
        world.Seen base name taken entries
  | .chosen ip =>
      world.configured (profilePlace base name) = none ∧ ip.octet₃ = 2 ∧
        (name = "default" → ip.octet₂ = 105)
  | .appending ip rest =>
      ip.octet₃ = 2 ∧ (name = "default" → ip.octet₂ = 105) ∧
        ∃ text written,
          world.confOf (profilePlace base name) = some (text ++ String.ofList written) ∧
          (VmConf.ofText text).vmIp = none ∧ written ++ rest = vmIpLine ip
  | .returned (some ip) =>
      name = "default" → ip.octet₂ = 105 ∨ world.configured base = some ip

/-- No subnet has two addresses, and every scan has seen or will see every address. -/
structure Tracked (base : Place) (world : Allocations) : Prop where
  named : ∀ name, world.call name ≠ .notCalled → IsProfileName name
  calls : ∀ name, world.CallOk base name (world.call name)
  apart : ∀ {first second : Place} {ip other : Ipv4Addr}, first ≠ second →
    world.Holds base first ip → world.Holds base second other → ip.octet₂ ≠ other.octet₂
  reserved : ∀ {dir : Place} {ip : Ipv4Addr}, dir ≠ base → world.Holds base dir ip →
    ip.octet₂ ≠ 105

/-- An address that no other directory has and no scan will miss. -/
structure Fresh (base : Place) (world : Allocations) (name : String) (ip : Ipv4Addr) : Prop where
  apart : ∀ {dir : Place} {other : Ipv4Addr}, dir ≠ profilePlace base name →
    world.Holds base dir other → ip.octet₂ ≠ other.octet₂
  reserved : name = "default" ↔ ip.octet₂ = 105
  still_read : name ≠ "default" → ∀ other taken entries, other ≠ name →
    world.call other = .scanning taken entries →
    ∃ entry ∈ entries, profilePlace base entry = profilePlace base name

@[simp]
theorem withCall_self (call : EnsureVmIp) : (world.withCall name call).call name = call :=
  Function.update_self name _ _

theorem withCall_withCall (first second : EnsureVmIp) :
    (world.withCall name first).withCall name second = world.withCall name second := by
  simp [withCall]

theorem withCall_of_ne {other : String} (different : other ≠ name) (call : EnsureVmIp) :
    (world.withCall name call).call other = world.call other :=
  Function.update_of_ne different _ _

theorem confOf_openConf_self (dir : Place) :
    (world.openConf dir).confOf dir = some ((world.confOf dir).getD "") := by
  simp [confOf, openConf]

theorem confOf_openConf_of_ne {dir other : Place} (different : other ≠ dir) :
    (world.openConf dir).confOf other = world.confOf other := by
  simp only [confOf, openConf, Function.update_of_ne different]
  split <;> rfl

theorem confOf_appendConf_self (dir : Place) (text : List Char) :
    (world.appendConf dir text).confOf dir =
      some ((world.confOf dir).getD "" ++ String.ofList text) := by
  simp [confOf, appendConf]

theorem confOf_appendConf_of_ne {dir other : Place} (different : other ≠ dir)
    (text : List Char) : (world.appendConf dir text).confOf other = world.confOf other := by
  simp only [confOf, appendConf, Function.update_of_ne different]

theorem holds_withCall {call : EnsureVmIp} {dir : Place} {ip : Ipv4Addr}
    (holds : (world.withCall name call).Holds base dir ip) :
    world.Holds base dir ip ∨ (dir = profilePlace base name ∧ call.address = some ip) := by
  rcases holds with in_file | ⟨other, at_dir, address⟩
  · exact .inl (.inl in_file)
  · by_cases same : other = name
    · rw [same, withCall_self] at address
      exact .inr ⟨same ▸ at_dir.symm, address⟩
    · rw [withCall_of_ne same] at address
      exact .inl (.inr ⟨other, at_dir, address⟩)

/-- What is known of a call stays true when a call gets an address that is its own or fresh. -/
theorem CallOk.withCall {other : String} {phase call : EnsureVmIp} (is_name : IsProfileName name)
    (is_other : phase ≠ .notCalled → IsProfileName other)
    (ok : world.CallOk base other phase)
    (address : ∀ ip, call.address = some ip →
      world.Holds base (profilePlace base name) ip ∨ (world.Fresh base name ip ∧
        (other ≠ name → world.call other = phase))) :
    (world.withCall name call).CallOk base other phase := by
  cases phase with
  | notCalled => trivial
  | unconfigured | chosen | appending => exact ok
  | returned result =>
      cases result with
      | none => trivial
      | some ip => exact ok
  | listing taken =>
      obtain ⟨unset, seen⟩ := ok
      refine ⟨unset, fun ip holds => ?_⟩
      rcases holds_withCall holds with held | ⟨at_base, gets⟩
      · exact seen ip held
      · rcases address ip gets with held | ⟨fresh, -⟩
        · exact seen ip ((congrArg (fun dir => world.Holds base dir ip) at_base).mpr held)
        · exact .inr (fresh.reserved.mp ((profilePlace_eq_base is_name).mp at_base.symm))
  | scanning taken entries =>
      obtain ⟨unset, seen⟩ := ok
      refine ⟨unset, fun dir ip elsewhere holds => ?_⟩
      rcases holds_withCall holds with held | ⟨rfl, gets⟩
      · exact seen dir ip elsewhere held
      · rcases address ip gets with held | ⟨fresh, unchanged⟩
        · exact seen _ ip elsewhere held
        · have different : other ≠ name := fun same => elsewhere (by rw [same])
          by_cases is_default : name = "default"
          · exact .inr (.inl ⟨(profilePlace_eq_base is_name).mpr is_default,
              fresh.reserved.mp is_default⟩)
          · exact .inr (.inr ⟨mt (profilePlace_eq_base is_name).mp is_default,
              fresh.still_read is_default other taken entries different (unchanged different)⟩)

/-- A call goes on, with an address that is its own or fresh. -/
theorem Tracked.withCall (tracked : world.Tracked base) {call : EnsureVmIp}
    (is_name : IsProfileName name) (ok : world.CallOk base name call)
    (address : ∀ ip, call.address = some ip →
      world.Holds base (profilePlace base name) ip ∨ world.Fresh base name ip) :
    (world.withCall name call).Tracked base where
  named other called := by
    by_cases same : other = name
    · exact same ▸ is_name
    · rw [withCall_of_ne same] at called
      exact tracked.named other called
  calls other := by
    by_cases same : other = name
    · subst same
      rw [withCall_self]
      exact ok.withCall is_name (fun _ => is_name) fun ip gets =>
        (address ip gets).imp_right fun fresh => ⟨fresh, fun different => absurd rfl different⟩
    · rw [withCall_of_ne same]
      exact (tracked.calls other).withCall is_name (tracked.named other) fun ip gets =>
        (address ip gets).imp_right fun fresh => ⟨fresh, fun _ => rfl⟩
  apart different first_holds second_holds := by
    rcases holds_withCall first_holds with first_held | ⟨rfl, first_gets⟩ <;>
      rcases holds_withCall second_holds with second_held | ⟨rfl, second_gets⟩
    · exact tracked.apart different first_held second_held
    · rcases address _ second_gets with held | fresh
      · exact tracked.apart different first_held held
      · exact (fresh.apart different first_held).symm
    · rcases address _ first_gets with held | fresh
      · exact tracked.apart different held second_held
      · exact fresh.apart different.symm second_held
    · exact absurd rfl different
  reserved elsewhere holds := by
    rcases holds_withCall holds with held | ⟨rfl, gets⟩
    · exact tracked.reserved elsewhere held
    · rcases address _ gets with held | fresh
      · exact tracked.reserved elsewhere held
      · exact mt fresh.reserved.mpr (mt (profilePlace_eq_base is_name).mpr elsewhere)

theorem CallOk.of_conf {other : String} {phase : EnsureVmIp} (ok : world.CallOk base other phase)
    (same : after.confOf (profilePlace base other) = world.confOf (profilePlace base other))
    (fewer : ∀ {dir ip}, after.Holds base dir ip → world.Holds base dir ip) :
    after.CallOk base other phase := by
  have configured_same : after.configured (profilePlace base other) =
      world.configured (profilePlace base other) := by
    rw [configured, same, configured]
  cases phase with
  | notCalled => trivial
  | unconfigured | chosen =>
      rw [CallOk, configured_same]
      exact ok
  | listing taken =>
      rw [CallOk, configured_same]
      exact ⟨ok.1, fun ip holds => ok.2 ip (fewer holds)⟩
  | scanning taken entries =>
      rw [CallOk, configured_same]
      exact ⟨ok.1, fun dir ip elsewhere holds => ok.2 dir ip elsewhere (fewer holds)⟩
  | appending ip rest =>
      rw [CallOk, same]
      exact ok
  | returned result =>
      cases result with
      | none => trivial
      | some ip =>
          rintro rfl
          exact (ok rfl).imp_right configured_same.trans

/-- A call writes to its own file, which has no other address then. -/
theorem Tracked.withConf (tracked : world.Tracked base) {ip : Ipv4Addr} {rest : List Char}
    (has : (world.call name).address = some ip)
    (others : ∀ dir, dir ≠ profilePlace base name → after.confOf dir = world.confOf dir)
    (own : ∀ other, after.configured (profilePlace base name) = some other → other = ip)
    (calls : after.call = world.call)
    (ok : after.CallOk base name (.appending ip rest)) :
    (after.withCall name (.appending ip rest)).Tracked base := by
  have is_name : IsProfileName name :=
    tracked.named name fun uncalled => by simp [uncalled, EnsureVmIp.address] at has
  have fewer {dir : Place} {other : Ipv4Addr}
      (holds : (after.withCall name (.appending ip rest)).Holds base dir other) :
      world.Holds base dir other := by
    rcases holds_withCall holds with (in_file | ⟨caller, at_dir, address⟩) | ⟨rfl, gets⟩
    · by_cases here : dir = profilePlace base name
      · subst here
        exact own other in_file ▸ .inr ⟨name, rfl, has⟩
      · refine .inl ?_
        rwa [configured, others dir here] at in_file
    · exact .inr ⟨caller, at_dir, calls ▸ address⟩
    · exact .inr ⟨name, rfl, has.trans gets⟩
  refine ⟨fun other called => ?_, fun other => ?_, fun different first second =>
    tracked.apart different (fewer first) (fewer second), fun elsewhere holds =>
    tracked.reserved elsewhere (fewer holds)⟩
  · by_cases same : other = name
    · exact same ▸ is_name
    · rw [withCall_of_ne same, calls] at called
      exact tracked.named other called
  · by_cases same : other = name
    · subst same
      rw [withCall_self]
      exact ok
    · rw [withCall_of_ne same, calls]
      by_cases called : world.call other = .notCalled
      · rw [called]
        trivial
      · refine (tracked.calls other).of_conf (others _ fun same_place => ?_) fewer
        exact same (profilePlace_inj (tracked.named other called) is_name same_place)

theorem start_tracked {dirs : Place → Option (Option String)}
    (initially : ConfiguredApart base dirs) : (start dirs).Tracked base := by
  have in_file {dir : Place} {ip : Ipv4Addr} (holds : (start dirs).Holds base dir ip) :
      (start dirs).configured dir = some ip := by
    rcases holds with in_file | ⟨name, -, address⟩
    · exact in_file
    · cases address
  exact ⟨fun name called => absurd rfl called, fun _ => trivial, fun different first second =>
    initially.apart different (in_file first) (in_file second), fun elsewhere holds =>
    initially.reserved elsewhere (in_file holds)⟩

/-! ## Steps -/

theorem configured_eq_ofText (dir : Place) :
    world.configured dir = (VmConf.ofText ((world.confOf dir).getD "")).vmIp := by
  rw [configured]
  cases world.confOf dir <;> rfl

theorem vmIp_of_load {dir : Place} {readable : Bool} {conf : VmConf}
    (loaded : VmConf.load (world.confOf dir) readable = some conf) :
    conf.vmIp = world.configured dir := by
  cases readable with
  | true =>
    rw [VmConf.load_getD] at loaded
    rw [← Option.some.inj loaded, configured_eq_ofText]
  | false => cases loaded

theorem load_of_configured {dir : Place} {ip : Ipv4Addr}
    (in_file : world.configured dir = some ip) :
    (VmConf.load (world.confOf dir) true).bind VmConf.vmIp = some ip := by
  rw [VmConf.load_getD, Option.bind_some, ← configured_eq_ofText, in_file]

/-- The default profile has the reserved subnet or the one in its file. -/
theorem Tracked.holds_base (tracked : world.Tracked base) {ip : Ipv4Addr}
    (holds : world.Holds base base ip) :
    ip.octet₂ = 105 ∨ world.configured base = some ip := by
  rcases holds with in_file | ⟨name, at_base, address⟩
  · exact .inr in_file
  · have is_name := tracked.named name fun uncalled => by
      simp [uncalled, EnsureVmIp.address] at address
    have is_default := (profilePlace_eq_base is_name).mp at_base
    have ok := tracked.calls name
    cases phase : world.call name with
    | chosen chosen =>
        rw [phase] at ok address
        exact .inl (Option.some.inj address ▸ ok.2.2 is_default)
    | appending chosen rest =>
        rw [phase] at ok address
        exact .inl (Option.some.inj address ▸ ok.2.1 is_default)
    | returned result =>
        rw [phase] at ok address
        obtain rfl : result = some ip := address
        exact ok is_default
    | notCalled | unconfigured | listing | scanning => simp [phase, EnsureVmIp.address] at address

theorem Tracked.loadOwn (tracked : world.Tracked base) {readable : Bool}
    (is_name : IsProfileName name)
    (stepped : world.step base (name, .loadOwn readable) = some after) : after.Tracked base := by
  simp only [step] at stepped
  split at stepped
  · obtain rfl := Option.some.inj stepped
    cases loaded : VmConf.load (world.confOf (profilePlace base name)) readable with
    | none => exact tracked.withCall is_name trivial fun _ gets => by cases gets
    | some conf =>
        have in_file := vmIp_of_load loaded
        cases own : conf.vmIp with
        | some ip =>
            rw [own] at in_file
            simp only [own]
            refine tracked.withCall is_name ?_ fun other gets => ?_
            · rintro rfl
              exact .inr in_file.symm
            · exact Option.some.inj gets ▸ .inl (.inl in_file.symm)
        | none =>
            rw [own] at in_file
            simp only [own]
            split
            · rename_i is_default
              subst is_default
              refine tracked.withCall is_name ⟨in_file.symm, rfl, fun _ => rfl⟩ fun ip gets => ?_
              obtain rfl := Option.some.inj gets
              exact .inr ⟨fun elsewhere holds => (tracked.reserved elsewhere holds).symm,
                ⟨fun _ => rfl, fun _ => rfl⟩, fun not_default => absurd rfl not_default⟩
            · rename_i not_default
              exact tracked.withCall is_name ⟨not_default, in_file.symm⟩ fun _ gets => by cases gets
  · cases stepped

theorem Tracked.loadDefault (tracked : world.Tracked base) {readable : Bool}
    (seen : readable = true ∨ world.configured base = none)
    (stepped : world.step base (name, .loadDefault readable) = some after) :
    after.Tracked base := by
  simp only [step] at stepped
  split at stepped
  · rename_i phase
    obtain rfl := Option.some.inj stepped
    have ok := tracked.calls name
    rw [phase] at ok
    refine tracked.withCall (tracked.named name (by simp [phase])) ⟨ok, fun ip holds => ?_⟩
      fun _ gets => by cases gets
    rcases tracked.holds_base holds with reserved | in_file
    · exact .inr reserved
    · left
      obtain rfl : readable = true := seen.resolve_right (by simp [in_file])
      simp [load_of_configured in_file]
  · cases stepped

theorem Tracked.readDir (tracked : world.Tracked base) {entries : List String}
    (seen : ∀ dir ip, dir ≠ base → dir ≠ profilePlace base name → world.Holds base dir ip →
      ∃ entry ∈ entries, profilePlace base entry = dir)
    (stepped : world.step base (name, .readDir entries) = some after) : after.Tracked base := by
  simp only [step] at stepped
  split at stepped
  · rename_i taken phase
    split at stepped
    · obtain rfl := Option.some.inj stepped
      have ok := tracked.calls name
      rw [phase] at ok
      refine tracked.withCall (tracked.named name (by simp [phase]))
        ⟨ok.1, fun dir ip elsewhere holds => ?_⟩ fun _ gets => by cases gets
      by_cases at_base : dir = base
      · subst at_base
        exact (ok.2 ip holds).imp_right fun reserved => .inl ⟨rfl, reserved⟩
      · exact .inr (.inr ⟨at_base, seen dir ip at_base elsewhere holds⟩)
    · cases stepped
  · cases stepped

theorem Tracked.loadEntry (tracked : world.Tracked base) {readable : Bool}
    (seen : ∀ taken entry entries, world.call name = .scanning taken (entry :: entries) →
      entry ≠ name → profilePlace base entry ≠ base →
      ∀ ip, world.Holds base (profilePlace base entry) ip →
        readable = true ∧ world.configured (profilePlace base entry) = some ip)
    (stepped : world.step base (name, .loadEntry readable) = some after) :
    after.Tracked base := by
  simp only [step] at stepped
  split at stepped
  · rename_i taken entry entries phase
    obtain rfl := Option.some.inj stepped
    have ok := tracked.calls name
    rw [phase] at ok
    refine tracked.withCall (tracked.named name (by simp [phase]))
      ⟨ok.1, fun dir ip elsewhere holds => ?_⟩ fun _ gets => by cases gets
    rcases ok.2 dir ip elsewhere holds with is_taken | reserved | ⟨not_base, other, member, rfl⟩
    · left
      split
      · exact is_taken
      · split
        · exact List.mem_cons_of_mem _ is_taken
        · exact is_taken
    · exact .inr (.inl reserved)
    · rcases List.mem_cons.mp member with rfl | later
      · left
        have not_own : other ≠ name := fun same => elsewhere (by rw [same])
        obtain ⟨rfl, in_file⟩ := seen taken other entries phase not_own not_base ip holds
        rw [if_neg not_own, load_of_configured in_file]
        exact List.mem_cons_self
      · exact .inr (.inr ⟨not_base, other, later, rfl⟩)
  · cases stepped

theorem ne_reserved_of_candidate {third : UInt8} (candidate : third ∈ subnetCandidates) :
    third ≠ 105 := by
  obtain ⟨value, member, rfl⟩ := List.mem_map.mp candidate
  obtain ⟨lower, upper⟩ : 106 ≤ value ∧ value < 255 := by simpa using member
  intro same
  have values := congrArg UInt8.toNat same
  have reserved : (105 : UInt8).toNat = 105 := rfl
  rw [UInt8.toNat_ofNat', Nat.mod_eq_of_lt (by omega), reserved] at values
  omega

theorem Tracked.choose (tracked : world.Tracked base)
    (seen : ∀ other taken entries, other ≠ name → world.call other = .scanning taken entries →
      ∃ entry ∈ entries, profilePlace base entry = profilePlace base name)
    (stepped : world.step base (name, .choose) = some after) : after.Tracked base := by
  simp only [step] at stepped
  split at stepped
  · rename_i taken phase
    obtain rfl := Option.some.inj stepped
    have is_name : IsProfileName name := tracked.named name (by simp [phase])
    have ok := tracked.calls name
    rw [phase] at ok
    obtain ⟨⟨not_default, unset⟩, all_seen⟩ := ok
    split
    · rename_i third found
      have free : third ∉ taken := by simpa using List.find?_some found
      have not_reserved := ne_reserved_of_candidate (List.mem_of_find?_eq_some found)
      refine tracked.withCall is_name ⟨unset, rfl, fun is_default => absurd is_default not_default⟩
        fun ip gets => ?_
      obtain rfl := Option.some.inj gets
      refine .inr ⟨fun {dir other} elsewhere holds same => ?_,
        ⟨fun is_default => absurd is_default not_default,
          fun reserved => absurd reserved not_reserved⟩,
        fun _ => seen⟩
      change third = other.octet₂ at same
      rcases all_seen dir other elsewhere holds with
        is_taken | ⟨-, reserved⟩ | ⟨-, entry, member, -⟩
      · exact free (same ▸ is_taken)
      · exact not_reserved (same.trans reserved)
      · cases member
    · exact tracked.withCall is_name trivial fun _ gets => by cases gets
  · cases stepped

theorem Tracked.openConf (tracked : world.Tracked base)
    (stepped : world.step base (name, .openConf) = some after) : after.Tracked base := by
  simp only [step] at stepped
  split at stepped
  · rename_i ip phase
    obtain rfl := Option.some.inj stepped
    have ok := tracked.calls name
    rw [phase] at ok
    obtain ⟨unset, one_digit, reserved⟩ := ok
    have opened := world.confOf_openConf_self (profilePlace base name)
    have still_unset :
        (VmConf.ofText ((world.confOf (profilePlace base name)).getD "")).vmIp = none := by
      rw [configured] at unset
      cases file : world.confOf (profilePlace base name) with
      | none => rfl
      | some text => simpa [file] using unset
    refine tracked.withConf (by rw [phase]; rfl) (fun dir => confOf_openConf_of_ne)
      (fun other in_file => ?_) rfl ⟨one_digit, reserved, _, [], ?_, still_unset, rfl⟩
    · rw [configured, opened, Option.bind_some, still_unset] at in_file
      cases in_file
    · rw [opened]
      simp
  · cases stepped

theorem Tracked.write (tracked : world.Tracked base) {size : Nat}
    (stepped : world.step base (name, .write size) = some after) : after.Tracked base := by
  simp only [step] at stepped
  split at stepped
  · rename_i ip rest phase
    obtain rfl := Option.some.inj stepped
    have ok := tracked.calls name
    rw [phase] at ok
    obtain ⟨one_digit, reserved, text, written, file, unset, line_eq⟩ := ok
    have appended : (world.appendConf (profilePlace base name) (rest.take size)).confOf
        (profilePlace base name) = some (text ++ String.ofList (written ++ rest.take size)) := by
      rw [confOf_appendConf_self, file, Option.getD_some, String.append_assoc,
        String.ofList_append]
    have line_again : (written ++ rest.take size) ++ rest.drop size = vmIpLine ip := by
      rw [List.append_assoc, List.take_append_drop, line_eq]
    refine tracked.withConf (by rw [phase]; rfl)
      (fun dir elsewhere => confOf_appendConf_of_ne elsewhere _) (fun other in_file => ?_) rfl
      ⟨one_digit, reserved, text, _, appended, unset, line_again⟩
    rw [configured, appended, Option.bind_some] at in_file
    rcases VmConf.vmIp_append one_digit unset ⟨_, line_again⟩ with none | own
    · rw [none] at in_file
      cases in_file
    · rw [own] at in_file
      exact (Option.some.inj in_file).symm
  · cases stepped

theorem Tracked.step (tracked : world.Tracked base) {action : String × EnsureStep}
    (seen : world.AddressesSeen base action) (stepped : world.step base action = some after) :
    after.Tracked base := by
  obtain ⟨name, step⟩ := action
  cases step with
  | loadOwn readable => exact tracked.loadOwn seen stepped
  | loadDefault readable => exact tracked.loadDefault seen stepped
  | readDir entries => exact tracked.readDir seen stepped
  | loadEntry readable => exact tracked.loadEntry seen stepped
  | choose => exact tracked.choose seen stepped
  | openConf => exact tracked.openConf stepped
  | write size => exact tracked.write stepped
  | fail =>
      simp only [Allocations.step] at stepped
      have gives_up (called : world.call name ≠ .notCalled) :
          (world.withCall name (.returned none)).Tracked base :=
        tracked.withCall (tracked.named name called) trivial fun _ gets => by cases gets
      split at stepped
      · rename_i phase
        exact Option.some.inj stepped ▸ gives_up (by simp [phase])
      · rename_i phase
        exact Option.some.inj stepped ▸ gives_up (by simp [phase])
      · cases stepped
  | finish =>
      simp only [Allocations.step] at stepped
      split at stepped
      · rename_i ip phase
        obtain rfl := Option.some.inj stepped
        have ok := tracked.calls name
        rw [phase] at ok
        refine tracked.withCall (tracked.named name (by simp [phase]))
          (fun is_default => .inl (ok.2.1 is_default)) fun other gets => ?_
        exact .inl (.inr ⟨name, rfl, by rw [phase]; exact gets⟩)
      · cases stepped

theorem Tracked.distinct (tracked : world.Tracked base) : world.SubnetsDistinct base where
  returned_apart {first second ip other} different first_returned second_returned := by
    have is_first : IsProfileName first := tracked.named first (by simp [first_returned])
    have is_second : IsProfileName second := tracked.named second (by simp [second_returned])
    refine apart_of_ne (tracked.apart (mt (profilePlace_inj is_first is_second) different)
      (.inr ⟨first, rfl, ?_⟩) (.inr ⟨second, rfl, ?_⟩))
    · rw [first_returned]
      rfl
    · rw [second_returned]
      rfl
  configured_apart {name dir ip other} elsewhere returned in_file := by
    refine apart_of_ne (tracked.apart elsewhere.symm (.inr ⟨name, rfl, ?_⟩) (.inl in_file))
    rw [returned]
    rfl

/-! ## Whole runs -/

/-- Whatever the files, and however the steps of the calls are interleaved: while every scan sees
every address, no two profiles get overlapping subnets. -/
theorem subnets_distinct_of_seen {base : Place} {dirs : Place → Option (Option String)}
    (initially : ConfiguredApart base dirs) {actions : List (String × EnsureStep)}
    (guarded : Guarded (step base) (AddressesSeen base) actions (start dirs)) :
    Always (step base) (SubnetsDistinct base) actions (start dirs) :=
  (always_of_guarded (fun tracked seen stepped => tracked.step seen stepped)
    (start_tracked initially) guarded).imp fun _ tracked => tracked.distinct

/-- The profile `b` has the first address. -/
def firstTaken : Place → Option (Option String) :=
  Function.update (fun _ => none) ["b", "profiles", "pelagos"]
    (some (some "vm_ip = 192.168.106.2\n"))

/-- One call, its scan reading the entries. -/
def oneCall (name : String) (entries : List String) : List (String × EnsureStep) :=
  [(name, .loadOwn true), (name, .loadDefault true), (name, .readDir entries)] ++
    entries.map (fun _ => (name, .loadEntry true)) ++
    [(name, .choose), (name, .openConf), (name, .write 100), (name, .finish)]

theorem second_subnet_distinct :
    ∃ world, run (step ["pelagos"]) (oneCall "a" ["b"]) (start firstTaken) = some world ∧
      world.call "a" = .returned (some (subnetAddress 107)) ∧
      world.SubnetsDistinct ["pelagos"] := by
  have only_b {dir : Place} {ip : Ipv4Addr}
      (in_file : (start firstTaken).configured dir = some ip) :
      dir = ["b", "profiles", "pelagos"] ∧ ip = subnetAddress 106 := by
    by_cases at_b : dir = ["b", "profiles", "pelagos"]
    · subst at_b
      exact ⟨rfl, (Option.some.inj in_file).symm⟩
    · simp [configured, confOf, start, firstTaken, Function.update_of_ne at_b] at in_file
  have initially : ConfiguredApart ["pelagos"] firstTaken := by
    refine ⟨fun different first second => ?_, fun _ in_file => ?_⟩
    · exact absurd ((only_b first).1.trans (only_b second).1.symm) different
    · rw [(only_b in_file).2]
      decide
  have unassigned {call : EnsureVmIp} (waits : call.address = none) {dir : Place} {ip : Ipv4Addr}
      (holds : ((start firstTaken).withCall "a" call).Holds ["pelagos"] dir ip) :
      dir = ["b", "profiles", "pelagos"] ∧ (start firstTaken).configured dir = some ip := by
    rcases holds_withCall holds with (in_file | ⟨name, -, address⟩) | ⟨-, gets⟩
    · exact ⟨(only_b in_file).1, in_file⟩
    · cases address
    · cases waits.symm.trans gets
  have guarded : Guarded (step ["pelagos"]) (AddressesSeen ["pelagos"]) (oneCall "a" ["b"])
      (start firstTaken) := by
    refine (guarded_cons rfl).mpr ⟨.inr rfl, (guarded_cons rfl).mpr ⟨.inl rfl,
      (guarded_cons rfl).mpr ⟨?_, (guarded_cons rfl).mpr ⟨?_, (guarded_cons rfl).mpr ⟨?_,
      (guarded_cons rfl).mpr ⟨trivial, (guarded_cons rfl).mpr ⟨trivial,
      (guarded_cons rfl).mpr ⟨trivial, trivial⟩⟩⟩⟩⟩⟩⟩⟩
    · intro dir ip _ _ holds
      rw [withCall_withCall] at holds
      exact ⟨"b", List.mem_singleton_self _, (unassigned rfl holds).1.symm⟩
    · intro taken entry entries phase not_own not_base ip holds
      rw [withCall_withCall, withCall_withCall] at holds
      exact ⟨rfl, (unassigned rfl holds).2⟩
    · intro other taken entries different phase
      simp [Allocations.withCall, start, different] at phase
  obtain ⟨world, execution, returned⟩ :
      ∃ world, run (step ["pelagos"]) (oneCall "a" ["b"]) (start firstTaken) = some world ∧
        world.call "a" = .returned (some (subnetAddress 107)) := ⟨_, rfl, rfl⟩
  exact ⟨world, execution, returned,
    subnets_distinct_of_seen initially guarded _ List.prefix_rfl world execution⟩

/-- Two calls that both scan before either appends get the same subnet. -/
theorem concurrent_calls_collide :
    ¬ ∀ (base : Place) (dirs : Place → Option (Option String))
      (actions : List (String × EnsureStep)), ConfiguredApart base dirs →
      Always (step base) (SubnetsDistinct base) actions (start dirs) := by
  intro distinct
  have initially : ConfiguredApart ["pelagos"] fun _ => none :=
    ⟨fun _ in_file => (by cases in_file), fun _ in_file => (by cases in_file)⟩
  obtain ⟨actions, world, execution, first_returned, second_returned⟩ :
      ∃ actions world, run (step ["pelagos"]) actions (start fun _ => none) = some world ∧
        world.call "a" = .returned (some (subnetAddress 106)) ∧
        world.call "b" = .returned (some (subnetAddress 106)) :=
    ⟨[("a", .loadOwn true), ("b", .loadOwn true), ("a", .loadDefault true),
      ("b", .loadDefault true), ("a", .readDir []), ("b", .readDir []), ("a", .choose),
      ("b", .choose), ("a", .openConf), ("b", .openConf), ("a", .write 100), ("b", .write 100),
      ("a", .finish), ("b", .finish)], _, rfl, rfl, rfl⟩
  have reached := distinct ["pelagos"] (fun _ => none) actions initially actions List.prefix_rfl
    world execution
  exact (reached.returned_apart (by decide) first_returned second_returned).1 rfl

end Allocations

end Pelagos.CommandLine
