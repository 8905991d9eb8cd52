import Pelagos.CommandLine.Subnets

/-!
# Addresses that are kept

`ensure_vm_ip` appends a line to `vm.conf` without looking at what the file ends with.  The line is
read back when the file is empty or its last line is terminated; otherwise it becomes a part of that
line.
-/

namespace Pelagos.CommandLine

open Execution LexicalPath
open Daemon (Ipv4Addr)

/-! ## The appended line -/

/-- The appended line without its newline. -/
def vmIpText (ip : Ipv4Addr) : String := String.ofList ("vm_ip = ".toList ++ ipv4Text ip)

theorem all_space_of_trim {line : String} (blank : Text.trim line = "") :
    ∀ char ∈ line.toList, Text.isWhiteSpace char = true := by
  intro char member
  by_contra visible
  have kept := Text.mem_trim member (Bool.eq_false_of_not_eq_true visible)
  rw [blank] at kept
  cases kept

theorem toList_entry (address : List Char) :
    (String.ofList ("vm_ip = ".toList ++ address)).toList =
      ['v', 'm', '_', 'i', 'p', ' '] ++ '=' :: ' ' :: address := by
  have literal : "vm_ip = ".toList = ['v', 'm', '_', 'i', 'p', ' '] ++ ['=', ' '] := by decide
  rw [String.toList_ofList, literal, List.append_assoc]
  rfl

theorem toList_vmIpText (ip : Ipv4Addr) :
    (vmIpText ip).toList = ['v', 'm', '_', 'i', 'p', ' '] ++ '=' :: ' ' :: ipv4Text ip :=
  toList_entry (ipv4Text ip)

theorem trim_vmIpText (ip : Ipv4Addr) : Text.trim (vmIpText ip) = vmIpText ip := by
  have begins : (vmIpText ip).toList.dropWhile Text.isWhiteSpace = (vmIpText ip).toList := by
    rw [toList_vmIpText, List.cons_append, List.dropWhile_cons_of_neg (by decide)]
  obtain ⟨front, last, address_eq⟩ : ∃ front last, ipv4Text ip = front ++ [last] := by
    refine (List.eq_nil_or_concat' _).resolve_left ?_
    simp [ipv4Text]
  have visible : Text.isWhiteSpace last = false :=
    visible_ipv4Text ip last (by rw [address_eq]; exact List.mem_concat_self)
  have ends : (vmIpText ip).toList =
      (['v', 'm', '_', 'i', 'p', ' '] ++ '=' :: ' ' :: front) ++ [last] := by
    rw [toList_vmIpText, address_eq]
    simp only [List.append_assoc, List.cons_append]
  rw [Text.trim, begins, String.ofList_toList]
  exact Text.trimEndWhere_keep visible ends

theorem keyValue_vmIpText {line : String} (blank : Text.trim line = "") (ip : Ipv4Addr) :
    keyValue (line ++ vmIpText ip) = some ("vm_ip", String.ofList (ipv4Text ip)) := by
  have trimmed : Text.trim (line ++ vmIpText ip) = vmIpText ip := by
    rw [Text.trim_space_append (all_space_of_trim blank), trim_vmIpText]
  have proper : ¬ (vmIpText ip = "" ∨ Text.startsWith (vmIpText ip) "#" = true) := by
    have entry := toList_vmIpText ip
    rintro (empty | comment)
    · simp [empty] at entry
    · obtain ⟨rest, text_eq⟩ := Text.startsWith_iff.mp comment
      simp [text_eq] at entry
  have key_eq : Text.trim (String.ofList ['v', 'm', '_', 'i', 'p', ' ']) = "vm_ip" := by decide
  have value_eq : Text.trim (String.ofList (' ' :: ipv4Text ip)) = String.ofList (ipv4Text ip) := by
    have spaced : String.ofList (' ' :: ipv4Text ip) = " " ++ String.ofList (ipv4Text ip) :=
      String.toList_inj.mp (by simp)
    have visible : ∀ char ∈ (String.ofList (ipv4Text ip)).toList,
        Text.isWhiteSpace char = false := by
      simpa using visible_ipv4Text ip
    have blank_front : ∀ char ∈ " ".toList, Text.isWhiteSpace char = true :=
      List.forall_mem_singleton.mpr rfl
    rw [spaced, Text.trim_space_append blank_front, Text.trim_of_visible visible]
  rw [keyValue, trimmed, if_neg proper, toList_vmIpText, Text.splitOnce_append _ (by decide),
    Option.map_some]
  dsimp only
  rw [key_eq, value_eq]

namespace VmConf

/-- A line of its own is read as the address. -/
theorem readLine_vmIpText {line : String} (blank : Text.trim line = "") (ip : Ipv4Addr)
    (conf : VmConf) : conf.readLine (line ++ vmIpText ip) = { conf with vmIp := some ip } := by
  rw [readLine, keyValue_vmIpText blank]
  simp only [VmConf.set, parseIpv4_ipv4Text]

theorem readLine_of_blank {line : String} (blank : Text.trim line = "") (conf : VmConf) :
    conf.readLine line = conf := by
  rw [readLine, keyValue, if_pos (.inl blank)]

end VmConf

/-- The characters of a text that are no white space. -/
def visibleChars (text : String) : List Char := text.toList.filter fun c => !Text.isWhiteSpace c

theorem visibleChars_append (front back : String) :
    visibleChars (front ++ back) = visibleChars front ++ visibleChars back := by
  rw [visibleChars, String.toList_append, List.filter_append, visibleChars, visibleChars]

theorem visibleChars_trim (text : String) : visibleChars (Text.trim text) = visibleChars text := by
  obtain ⟨front, back, front_space, back_space, text_eq⟩ := Text.trim_eq text
  have none_visible {space : List Char} (all : ∀ char ∈ space, Text.isWhiteSpace char = true) :
      space.filter (fun c => !Text.isWhiteSpace c) = [] := by
    simpa [List.filter_eq_nil_iff] using all
  rw [visibleChars, visibleChars, text_eq, List.filter_append, List.filter_append,
    none_visible front_space, none_visible back_space]
  simp

theorem trim_of_visibleChars {text : String} (none_visible : visibleChars text = []) :
    Text.trim text = "" := by
  have all_space : ∀ char ∈ text.toList, Text.isWhiteSpace char = true := by
    simpa [visibleChars, List.filter_eq_nil_iff] using none_visible
  have trimmed := Text.trim_append_space all_space ""
  rw [String.empty_append] at trimmed
  exact trimmed

/-- Behind anything visible the line is no entry of an address. -/
theorem vmIpEntry_append_visible {line : String} (visible : Text.trim line ≠ "")
    (ip other : Ipv4Addr) : vmIpEntry (line ++ vmIpText ip) ≠ some (some other) := by
  intro is_entry
  obtain ⟨⟨key, value⟩, read, address_eq⟩ := Option.bind_eq_some_iff.mp is_entry
  obtain ⟨rfl, address_read⟩ : key = "vm_ip" ∧ parseIpv4 value = some other := by
    simpa using Option.ite_none_right_eq_some.mp address_eq
  obtain ⟨before, after, line_eq, free, key_eq, rfl⟩ := keyValue_eq_some read
  have split_eq := congrArg (Text.splitOnce '=') line_eq
  rw [Text.splitOnce_append _ free, String.toList_append, toList_vmIpText] at split_eq
  cases on_line : Text.splitOnce '=' line.toList with
  | some parts =>
      -- The value contains the letters of what is appended.
      obtain ⟨key_part, value_part⟩ := parts
      obtain ⟨line_parts, key_free⟩ := Text.splitOnce_eq_some on_line
      rw [line_parts, List.append_assoc, List.cons_append, Text.splitOnce_append _ key_free]
        at split_eq
      obtain ⟨-, rfl⟩ := Prod.mk.inj (Option.some.inj split_eq)
      have in_value : 'v' ∈ (Text.trim (String.ofList (value_part ++
          (['v', 'm', '_', 'i', 'p', ' '] ++ '=' :: ' ' :: ipv4Text ip)))).toList :=
        Text.mem_trim (by simp) rfl
      have no_letter := digit_or_dot_of_parseIpv4 address_read in_value
      simp at no_letter
  | none =>
      -- The key contains what stands on the line.
      have line_free := Text.splitOnce_eq_none_iff.mp on_line
      rw [← List.append_assoc, Text.splitOnce_append _ (by simp [line_free])] at split_eq
      obtain ⟨rfl, -⟩ := Prod.mk.inj (Option.some.inj split_eq)
      have lengths := congrArg (fun text => (visibleChars text).length) key_eq
      rw [visibleChars_trim, String.ofList_append, String.ofList_toList, visibleChars_append,
        List.length_append] at lengths
      have five : (visibleChars "vm_ip").length = 5 := by decide
      have also_five :
          (visibleChars (String.ofList ['v', 'm', '_', 'i', 'p', ' '])).length = 5 := by
        decide
      rw [five, also_five] at lengths
      exact visible (trim_of_visibleChars (List.eq_nil_of_length_eq_zero (by omega)))

namespace VmConf

theorem ofText_append_eq (text : String) (ip : Ipv4Addr) :
    ∃ conf : VmConf, ofText text = conf.readLine (lastLine text) ∧
      ofText (text ++ String.ofList (vmIpLine ip)) =
        conf.readLine (lastLine text ++ vmIpText ip) := by
  obtain ⟨conf, text_eq, appended⟩ := ofText_append text
  have read_eq := (appended _ (newline_free_entry ip)).2
  exact ⟨conf, text_eq, read_eq⟩

/-- Where the last line is blank, the address is added and nothing else changes. -/
theorem ofText_append_vmIpLine {text : String} (blank : Text.trim (lastLine text) = "")
    (ip : Ipv4Addr) :
    ofText (text ++ String.ofList (vmIpLine ip)) = { ofText text with vmIp := some ip } := by
  obtain ⟨conf, text_eq, appended_eq⟩ := ofText_append_eq text ip
  rw [appended_eq, text_eq, readLine_of_blank blank, readLine_vmIpText blank]

/-- Where it is not, the file has no address afterwards. -/
theorem vmIp_append_vmIpLine {text : String} (visible : Text.trim (lastLine text) ≠ "")
    (unset : (ofText text).vmIp = none) (ip : Ipv4Addr) :
    (ofText (text ++ String.ofList (vmIpLine ip))).vmIp = none := by
  obtain ⟨conf, text_eq, appended_eq⟩ := ofText_append_eq text ip
  rw [text_eq, vmIp_readLine] at unset
  rw [appended_eq, vmIp_readLine]
  cases entry : vmIpEntry (lastLine text ++ vmIpText ip) with
  | none =>
      have no_entry : vmIpEntry (lastLine text) = none := by
        by_contra was_entry
        exact vmIpEntry_append was_entry _ entry
      simpa [no_entry] using unset
  | some address =>
      cases address with
      | none => rfl
      | some other => exact absurd entry (vmIpEntry_append_visible visible ip other)

end VmConf

namespace Allocations

variable {base : Place} {world after : Allocations} {name : String}

/-! ## One call -/

/-- The address is stored for the profile, and nothing else changes. -/
structure Persisted (base : Place) (before after : Place → Option (Option String)) (name : String)
    (ip : Ipv4Addr) : Prop where
  /-- Only the address of the profile's configuration is replaced. -/
  saved : VmConf.load ((start after).confOf (profilePlace base name)) true =
    (VmConf.load ((start before).confOf (profilePlace base name)) true).map fun conf =>
      { conf with vmIp := some ip }
  /-- A second call returns the address at once. -/
  again : ∃ world, step base (start after) (name, .loadOwn true) = some world ∧
    world.call name = .returned (some ip) ∧ world.dirs = after
  elsewhere : ∀ place ≠ profilePlace base name,
    (start after).confOf place = (start before).confOf place

/-- The file of the profile has an address, or nothing visible behind its last newline. -/
def Appendable (base : Place) (dirs : Place → Option (Option String)) (name : String) : Prop :=
  ∀ text ∈ (start dirs).confOf (profilePlace base name), (VmConf.ofText text).vmIp = none →
    Text.trim (VmConf.lastLine text) = ""

/-- The profile had no address, and this was appended to its file. -/
structure Appended (base : Place) (dirs : Place → Option (Option String)) (name : String)
    (world : Allocations) (written : List Char) : Prop where
  unset : (start dirs).configured (profilePlace base name) = none
  own : world.confOf (profilePlace base name) =
    some (((start dirs).confOf (profilePlace base name)).getD "" ++ String.ofList written)
  elsewhere : ∀ place ≠ profilePlace base name, world.confOf place = (start dirs).confOf place

/-- The files while a call is in this place, and no other has begun. -/
def Alone (base : Place) (dirs : Place → Option (Option String)) (name : String)
    (world : Allocations) : EnsureVmIp → Prop
  | .notCalled => world.dirs = dirs
  | .unconfigured | .listing _ | .scanning _ _ | .chosen _ =>
      world.dirs = dirs ∧ (start dirs).configured (profilePlace base name) = none
  | .appending ip rest =>
      ∃ written, written ++ rest = vmIpLine ip ∧ Appended base dirs name world written
  | .returned none => True
  | .returned (some ip) =>
      world.dirs = dirs ∧ (start dirs).configured (profilePlace base name) = some ip ∨
        Appended base dirs name world (vmIpLine ip)

section Alone

variable {dirs : Place → Option (Option String)}

theorem Alone.loadOwn {readable : Bool} (same : world.dirs = dirs)
    (phase : world.call name = .notCalled)
    (stepped : world.step base (name, .loadOwn readable) = some after) :
    Alone base dirs name after (after.call name) := by
  simp only [step, phase] at stepped
  obtain rfl := Option.some.inj stepped
  rw [withCall_self]
  have configured_eq : world.configured (profilePlace base name) =
      (start dirs).configured (profilePlace base name) := by
    rw [configured, confOf, same, configured]
    rfl
  cases loaded : VmConf.load (world.confOf (profilePlace base name)) readable with
  | none => trivial
  | some conf =>
      have in_file := vmIp_of_load loaded
      rw [configured_eq] at in_file
      cases own : conf.vmIp with
      | some ip =>
          simp only [own]
          exact Or.inl ⟨same, in_file.symm.trans own⟩
      | none =>
          simp only [own]
          split
          · exact ⟨same, in_file.symm.trans own⟩
          · exact ⟨same, in_file.symm.trans own⟩

theorem Appended.withCall {written : List Char}
    (appended : Appended base dirs name world written) (call : EnsureVmIp) :
    Appended base dirs name (world.withCall name call) written :=
  ⟨appended.unset, appended.own, appended.elsewhere⟩

theorem Appended.opened (same : world.dirs = dirs)
    (unset : (start dirs).configured (profilePlace base name) = none) :
    Appended base dirs name (world.openConf (profilePlace base name)) [] := by
  have conf_eq (place : Place) : world.confOf place = (start dirs).confOf place := by
    rw [confOf, same, confOf]
    rfl
  refine ⟨unset, ?_, fun place elsewhere => ?_⟩
  · rw [confOf_openConf_self, conf_eq, String.ofList_nil, String.append_empty]
  · rw [confOf_openConf_of_ne elsewhere, conf_eq]

/-- Some of the line is written behind what was written before. -/
theorem Appended.write {ip : Ipv4Addr} {written rest : List Char}
    (appended : Appended base dirs name world written) (line : written ++ rest = vmIpLine ip)
    (size : Nat) :
    ∃ longer, longer ++ rest.drop size = vmIpLine ip ∧
      Appended base dirs name (world.appendConf (profilePlace base name) (rest.take size))
        longer := by
  refine ⟨written ++ rest.take size, ?_, appended.unset, ?_, fun place elsewhere => ?_⟩
  · rw [List.append_assoc, List.take_append_drop, line]
  · rw [confOf_appendConf_self, appended.own, Option.getD_some, String.ofList_append,
      String.append_assoc]
  · rw [confOf_appendConf_of_ne elsewhere, appended.elsewhere place elsewhere]

theorem Alone.step (alone : Alone base dirs name world (world.call name)) {taken : EnsureStep}
    (stepped : world.step base (name, taken) = some after) :
    Alone base dirs name after (after.call name) := by
  cases phase : world.call name with
  | notCalled =>
      rw [phase] at alone
      cases taken with
      | loadOwn readable => exact Alone.loadOwn alone phase stepped
      | _ => simp [Allocations.step, phase] at stepped
  | unconfigured =>
      rw [phase] at alone
      cases taken with
      | loadDefault readable =>
          simp only [Allocations.step, phase] at stepped
          obtain rfl := Option.some.inj stepped
          rw [withCall_self]
          exact alone
      | _ => simp [Allocations.step, phase] at stepped
  | listing subnets =>
      rw [phase] at alone
      cases taken with
      | readDir entries =>
          simp only [Allocations.step, phase, Option.ite_none_right_eq_some] at stepped
          obtain rfl := Option.some.inj stepped.2
          rw [withCall_self]
          exact alone
      | _ => simp [Allocations.step, phase] at stepped
  | scanning subnets entries =>
      rw [phase] at alone
      cases taken with
      | loadEntry readable =>
          cases entries with
          | nil => simp [Allocations.step, phase] at stepped
          | cons entry entries =>
              simp only [Allocations.step, phase] at stepped
              obtain rfl := Option.some.inj stepped
              rw [withCall_self]
              exact alone
      | choose =>
          cases entries with
          | nil =>
              simp only [Allocations.step, phase] at stepped
              obtain rfl := Option.some.inj stepped
              rw [withCall_self]
              cases subnetCandidates.find? (· ∉ subnets) with
              | none => trivial
              | some third => exact alone
          | cons entry entries => simp [Allocations.step, phase] at stepped
      | _ => simp [Allocations.step, phase] at stepped
  | chosen ip =>
      rw [phase] at alone
      obtain ⟨same, unset⟩ := alone
      cases taken with
      | openConf =>
          simp only [Allocations.step, phase] at stepped
          obtain rfl := Option.some.inj stepped
          rw [withCall_self]
          exact ⟨[], rfl, (Appended.opened same unset).withCall _⟩
      | fail =>
          simp only [Allocations.step, phase] at stepped
          obtain rfl := Option.some.inj stepped
          rw [withCall_self]
          trivial
      | _ => simp [Allocations.step, phase] at stepped
  | appending ip rest =>
      rw [phase] at alone
      obtain ⟨written, line, appended⟩ := alone
      cases taken with
      | write size =>
          simp only [Allocations.step, phase] at stepped
          obtain rfl := Option.some.inj stepped
          rw [withCall_self]
          obtain ⟨longer, line_eq, longer_appended⟩ := appended.write line size
          exact ⟨longer, line_eq, longer_appended.withCall _⟩
      | fail =>
          cases rest with
          | nil => simp [Allocations.step, phase] at stepped
          | cons char rest =>
              simp only [Allocations.step, phase] at stepped
              obtain rfl := Option.some.inj stepped
              rw [withCall_self]
              trivial
      | finish =>
          cases rest with
          | cons char rest => simp [Allocations.step, phase] at stepped
          | nil =>
              simp only [Allocations.step, phase] at stepped
              obtain rfl := Option.some.inj stepped
              rw [withCall_self]
              rw [List.append_nil] at line
              subst line
              exact Or.inr (appended.withCall _)
      | _ => simp [Allocations.step, phase] at stepped
  | returned result => cases taken <;> simp [Allocations.step, phase] at stepped

theorem alone_of_run {actions : List (String × EnsureStep)}
    (own : ∀ action ∈ actions, action.1 = name)
    (execution : run (step base) actions (start dirs) = some world) :
    Alone base dirs name world (world.call name) := by
  have preserved {before after : Allocations} {action : String × EnsureStep}
      (alone : Alone base dirs name before (before.call name)) (is_own : action.1 = name)
      (stepped : before.step base action = some after) :
      Alone base dirs name after (after.call name) := by
    obtain ⟨caller, taken⟩ := action
    obtain rfl : caller = name := is_own
    exact alone.step stepped
  have initially : Alone base dirs name (start dirs) ((start dirs).call name) := rfl
  have guarded : Guarded (Allocations.step base) (fun _ action => action.1 = name) actions
      (start dirs) := guarded_of_forall (fun action member _ => own action member) _
  exact invariant_of_guarded preserved initially guarded execution

/-- The address in the file of a profile is returned. -/
theorem returns_configured {ip : Ipv4Addr}
    (in_file : (start dirs).configured (profilePlace base name) = some ip) :
    ∃ world, Allocations.step base (start dirs) (name, .loadOwn true) = some world ∧
      world.call name = .returned (some ip) ∧ world.dirs = dirs := by
  refine ⟨_, rfl, ?_, rfl⟩
  rw [withCall_self, VmConf.load_getD]
  rw [configured_eq_ofText] at in_file
  simp only [in_file]

theorem persisted_of_configured {ip : Ipv4Addr}
    (in_file : (start dirs).configured (profilePlace base name) = some ip) :
    Persisted base dirs dirs name ip where
  saved := by
    rw [configured_eq_ofText] at in_file
    rw [VmConf.load_getD, Option.map_some, ← in_file]
  again := returns_configured in_file
  elsewhere _ _ := rfl

/-- The appended address is the configured one, and nothing else has changed, exactly when the last
line was blank. -/
theorem Appended.persisted_iff {ip : Ipv4Addr}
    (appended : Appended base dirs name world (vmIpLine ip)) :
    Persisted base dirs world.dirs name ip ↔ Appendable base dirs name := by
  have unset := appended.unset
  have own : (start world.dirs).confOf (profilePlace base name) = _ := appended.own
  rw [configured_eq_ofText] at unset
  constructor
  · intro persisted text in_file _
    by_contra visible
    have saved := persisted.saved
    rw [in_file, Option.getD_some] at unset own
    rw [own, VmConf.load_getD, VmConf.load_getD, Option.getD_some, Option.map_some,
      Option.some.injEq] at saved
    have address := congrArg VmConf.vmIp saved
    rw [VmConf.vmIp_append_vmIpLine visible unset] at address
    cases address
  · intro appendable
    have blank : Text.trim
        (VmConf.lastLine (((start dirs).confOf (profilePlace base name)).getD "")) = "" := by
      cases in_file : (start dirs).confOf (profilePlace base name) with
      | none => decide
      | some text =>
          rw [in_file, Option.getD_some] at unset
          exact appendable text in_file unset
    have saved : VmConf.ofText
        (((start world.dirs).confOf (profilePlace base name)).getD "") =
          { VmConf.ofText (((start dirs).confOf (profilePlace base name)).getD "") with
            vmIp := some ip } := by
      rw [own, Option.getD_some, VmConf.ofText_append_vmIpLine blank]
    refine ⟨?_, returns_configured ?_, appended.elsewhere⟩
    · rw [VmConf.load_getD, VmConf.load_getD, Option.map_some, saved]
    · rw [configured_eq_ofText, saved]

/-- A call that goes alone and returns an address has stored it without damage exactly when the
profile had one or its file ended with a complete line. -/
theorem persisted_iff_appendable {actions : List (String × EnsureStep)}
    (own : ∀ action ∈ actions, action.1 = name)
    (execution : run (Allocations.step base) actions (start dirs) = some world) {ip : Ipv4Addr}
    (returned : world.call name = .returned (some ip)) :
    Persisted base dirs world.dirs name ip ↔ Appendable base dirs name := by
  have alone := alone_of_run own execution
  rw [returned] at alone
  rcases alone with ⟨same, in_file⟩ | appended
  · rw [same]
    refine iff_of_true (persisted_of_configured in_file) fun text is_file unset => ?_
    rw [configured_eq_ofText, is_file, Option.getD_some, unset] at in_file
    cases in_file
  · exact appended.persisted_iff

/-- A profile without a file gets one. -/
theorem persisted_in_new_file :
    ∃ world, run (Allocations.step ["pelagos"]) (oneCall "a" ["b"]) (start firstTaken) =
        some world ∧
      Persisted ["pelagos"] firstTaken world.dirs "a" (subnetAddress 107) := by
  obtain ⟨world, execution, returned⟩ : ∃ world,
      run (Allocations.step ["pelagos"]) (oneCall "a" ["b"]) (start firstTaken) = some world ∧
        world.call "a" = .returned (some (subnetAddress 107)) := ⟨_, rfl, rfl⟩
  have missing : (start firstTaken).confOf (profilePlace ["pelagos"] "a") = none := by
    rw [show profilePlace ["pelagos"] "a" = ["a", "profiles", "pelagos"] by decide]
    rfl
  refine ⟨world, execution,
    (persisted_iff_appendable (by decide) execution returned).mpr fun text in_file => ?_⟩
  rw [missing] at in_file
  cases in_file

/-- The default profile has a file that does not end with a newline. -/
def unterminatedConf : Place → Option (Option String) :=
  Function.update (fun _ => none) ["pelagos"] (some (some "memory = 2048"))

/-- The memory size and the address are both lost. -/
theorem unterminated_conf_damaged :
    ¬ ∀ (base : Place) (dirs : Place → Option (Option String)) (name : String)
        (actions : List (String × EnsureStep)) (world : Allocations) (ip : Ipv4Addr),
      (∀ action ∈ actions, action.1 = name) →
      run (Allocations.step base) actions (start dirs) = some world →
      world.call name = .returned (some ip) → Persisted base dirs world.dirs name ip := by
  intro persisted
  obtain ⟨world, execution, returned, in_file⟩ : ∃ world,
      run (Allocations.step ["pelagos"]) [("default", .loadOwn true), ("default", .openConf),
        ("default", .write 100), ("default", .finish)] (start unterminatedConf) = some world ∧
      world.call "default" = .returned (some defaultGuestIp) ∧
      (start world.dirs).confOf ["pelagos"] =
        some ("memory = 2048" ++ String.ofList (vmIpLine defaultGuestIp)) := ⟨_, rfl, rfl, rfl⟩
  have saved := (persisted ["pelagos"] unterminatedConf "default" _ world defaultGuestIp
    (by decide) execution returned).saved
  rw [show profilePlace ["pelagos"] "default" = ["pelagos"] from rfl, in_file] at saved
  exact absurd saved (by decide)

end Alone

end Allocations

end Pelagos.CommandLine
