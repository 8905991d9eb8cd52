import Pelagos.CommandLine.Volumes
import Pelagos.Library.Tokens

/-!
# The configuration of a profile

`vm.conf` has one entry a line; a later entry replaces an earlier one, and an entry that cannot be
read clears it.  The address of a profile is appended to the file in pieces.
-/

namespace Pelagos.CommandLine

open Daemon (Ipv4Addr)

/-- How `pelagos ping` checks VM readiness. -/
inductive PingMode where
  | vsock
  | ssh
  deriving DecidableEq

/-- All entries of `vm.conf`. -/
structure VmConf extends VmProfileConfig where
  pingMode : PingMode
  vmIp : Option Ipv4Addr
  deriving DecidableEq

/-- The configuration without a file. -/
def VmConf.default : VmConf where
  disk := none
  kernel := none
  initrd := none
  memory := none
  cpus := none
  cmdline := none
  pingMode := .vsock
  vmIp := none

/-- Read a number of an address: up to three digits, no leading zeros. -/
def octet? (digits : List Char) : Option UInt8 :=
  if digits ≠ [] ∧ digits.length ≤ 3 ∧ digits.all Char.isDigit ∧
      (digits.length = 1 ∨ digits.head? ≠ some '0') then
    let value := Nat.ofDigitChars 10 digits 0
    if value < 256 then some (UInt8.ofNat value) else none
  else none

/-- `Ipv4Addr::from_str`. -/
def parseIpv4 (text : String) : Option Ipv4Addr :=
  match text.toList.splitOn '.' with
  | [first, second, third, fourth] => do
      some
        { octet₀ := ← octet? first
          octet₁ := ← octet? second
          octet₂ := ← octet? third
          octet₃ := ← octet? fourth }
  | _ => none

def octetText (octet : UInt8) : List Char := Nat.toDigits 10 octet.toNat

/-- An address as it is printed. -/
def ipv4Text (ip : Ipv4Addr) : List Char :=
  octetText ip.octet₀ ++ '.' :: octetText ip.octet₁ ++ '.' :: octetText ip.octet₂ ++
    '.' :: octetText ip.octet₃

/-- The key and the value of a line, unless it is blank, a comment or without an equals sign. -/
def keyValue (line : String) : Option (String × String) :=
  if Text.trim line = "" ∨ Text.startsWith (Text.trim line) "#" then none
  else (Text.splitOnce '=' (Text.trim line).toList).map fun (key, value) =>
    (Text.trim (String.ofList key), Text.trim (String.ofList value))

namespace VmConf

def set (conf : VmConf) (key value : String) : VmConf :=
  match key with
  | "disk" => { conf with disk := some value }
  | "kernel" => { conf with kernel := some value }
  | "initrd" => { conf with initrd := some value }
  | "memory" => { conf with memory := parseSize value }
  | "cpus" => { conf with cpus := parseSize value }
  | "ping_mode" => { conf with pingMode := if value = "ssh" then .ssh else .vsock }
  | "cmdline" => { conf with cmdline := some value }
  | "vm_ip" => { conf with vmIp := parseIpv4 value }
  | _ => conf

def readLine (conf : VmConf) (line : String) : VmConf :=
  match keyValue line with
  | none => conf
  | some (key, value) => conf.set key value

/-- What `load_path` makes of the text of a file. -/
def ofText (text : String) : VmConf := (Text.lines text).foldl readLine .default

/-- `load_path` of a file that may be missing and may fail to be read. -/
def load (file : Option String) (readable : Bool) : Option VmConf :=
  if readable then some (file.elim .default ofText) else none

end VmConf

/-- What `append_vm_ip_to_conf` writes. -/
def vmIpLine (ip : Ipv4Addr) : List Char := "vm_ip = ".toList ++ ipv4Text ip ++ ['\n']

/-! ## Addresses as text -/

theorem octet?_octetText (octet : UInt8) : octet? (octetText octet) = some octet := by
  have reads : ∀ value : Fin 256,
      octet? (Nat.toDigits 10 value.val) = some (UInt8.ofNat value.val) := by
    decide +kernel
  simpa [octetText] using reads octet.toFin

theorem isDigit_of_octet {digits : List Char} {octet : UInt8} (read : octet? digits = some octet) :
    digits ≠ [] ∧ ∀ char ∈ digits, char.isDigit = true := by
  unfold octet? at read
  split at read
  · rename_i proper
    exact ⟨proper.1, List.all_eq_true.mp proper.2.2.1⟩
  · cases read

theorem isDigit_of_octetText {octet : UInt8} {char : Char} (member : char ∈ octetText octet) :
    char.isDigit = true :=
  Nat.isDigit_of_mem_toDigits (by decide) (by decide) member

theorem dot_free_octetText (octet : UInt8) : '.' ∉ octetText octet := by
  intro member
  have digit := isDigit_of_octetText member
  simp at digit

theorem splitOn_ipv4Text (ip : Ipv4Addr) :
    (ipv4Text ip).splitOn '.' =
      [octetText ip.octet₀, octetText ip.octet₁, octetText ip.octet₂, octetText ip.octet₃] := by
  simp [ipv4Text, List.splitOn_append_cons_self, List.splitOn_eq_singleton, dot_free_octetText]

/-- Printed addresses are read back. -/
theorem parseIpv4_ipv4Text (ip : Ipv4Addr) : parseIpv4 (String.ofList (ipv4Text ip)) = some ip := by
  simp [parseIpv4, splitOn_ipv4Text, octet?_octetText]

/-- What is read as an address is four numbers with dots between them. -/
theorem parseIpv4_eq_some {text : String} {ip : Ipv4Addr} (read : parseIpv4 text = some ip) :
    ∃ first second third fourth,
      text.toList = first ++ '.' :: second ++ '.' :: third ++ '.' :: fourth ∧ fourth ≠ [] ∧
        ∀ piece ∈ [first, second, third, fourth], ∀ char ∈ piece, char.isDigit = true := by
  unfold parseIpv4 at read
  split at read
  · rename_i first second third fourth split_eq
    refine ⟨first, second, third, fourth, ?_, ?_⟩
    · have joined : ['.'].intercalate (text.toList.splitOn '.') = text.toList :=
        List.intercalate_splitOn '.'
      rw [← joined, split_eq]
      simp
    · simp only [Option.bind_eq_bind, Option.bind_eq_some_iff] at read
      obtain ⟨_, first_read, _, second_read, _, third_read, _, fourth_read, -⟩ := read
      refine ⟨(isDigit_of_octet fourth_read).1, ?_⟩
      simp only [List.forall_mem_cons, List.not_mem_nil, false_imp_iff, implies_true, and_true]
      exact ⟨(isDigit_of_octet first_read).2, (isDigit_of_octet second_read).2,
        (isDigit_of_octet third_read).2, (isDigit_of_octet fourth_read).2⟩
  · cases read

/-- An address has no letters. -/
theorem digit_or_dot_of_parseIpv4 {text : String} {ip : Ipv4Addr}
    (read : parseIpv4 text = some ip) {char : Char} (member : char ∈ text.toList) :
    char.isDigit = true ∨ char = '.' := by
  obtain ⟨first, second, third, fourth, text_eq, -, digits⟩ := parseIpv4_eq_some read
  simp only [text_eq, List.mem_append, List.mem_cons] at member
  have digit {piece : List Char} (is_piece : piece ∈ [first, second, third, fourth])
      (inside : char ∈ piece) : char.isDigit = true ∨ char = '.' :=
    .inl (digits piece is_piece char inside)
  rcases member with ((in_first | dot | in_second) | dot | in_third) | dot | in_fourth
  · exact digit (by simp) in_first
  · exact .inr dot
  · exact digit (by simp) in_second
  · exact .inr dot
  · exact digit (by simp) in_third
  · exact .inr dot
  · exact digit (by simp) in_fourth

theorem visible_of_isDigit {char : Char} (digit : char.isDigit = true) :
    Text.isWhiteSpace char = false := by
  have bounds : 48 ≤ char.toNat ∧ char.toNat ≤ 57 := by
    simpa [Char.isDigit, UInt32.le_iff_toNat_le] using digit
  simp [Text.isWhiteSpace]
  omega

theorem visible_ipv4Text (ip : Ipv4Addr) :
    ∀ char ∈ ipv4Text ip, Text.isWhiteSpace char = false := by
  have digits {octet : UInt8} {char : Char} (member : char ∈ octetText octet) :
      Text.isWhiteSpace char = false := visible_of_isDigit (isDigit_of_octetText member)
  simp only [ipv4Text, List.forall_mem_append, List.forall_mem_cons]
  exact ⟨⟨⟨fun _ => digits, rfl, fun _ => digits⟩, rfl, fun _ => digits⟩, rfl, fun _ => digits⟩

theorem newline_free_entry (ip : Ipv4Addr) : '\n' ∉ "vm_ip = ".toList ++ ipv4Text ip := by
  intro newline
  rcases List.mem_append.mp newline with in_key | in_address
  · simp at in_key
  · have visible := visible_ipv4Text ip '\n' in_address
    simp [Text.isWhiteSpace] at visible

theorem dot_free {digits : List Char} (all_digits : ∀ char ∈ digits, char.isDigit = true) :
    digits.count '.' = 0 := by
  rw [List.count_eq_zero]
  intro member
  have digit := all_digits '.' member
  simp at digit

/-- The beginning of an address that ends in one digit is no other address. -/
theorem parseIpv4_prefix {ip other : Ipv4Addr} {front : List Char} (one_digit : ip.octet₃ = 2)
    (is_front : front <+: ipv4Text ip) (read : parseIpv4 (String.ofList front) = some other) :
    other = ip := by
  obtain ⟨first, second, third, fourth, front_eq, fourth_ne, digits⟩ := parseIpv4_eq_some read
  simp only [List.forall_mem_cons, List.not_mem_nil, false_imp_iff, implies_true, and_true]
    at digits
  obtain ⟨first_digits, second_digits, third_digits, fourth_digits⟩ := digits
  rw [String.toList_ofList] at front_eq
  have dots : front.count '.' = 3 := by
    simp [front_eq, dot_free first_digits, dot_free second_digits, dot_free third_digits,
      dot_free fourth_digits]
  obtain ⟨network, network_dots, ip_eq⟩ :
      ∃ network : List Char, network.count '.' = 2 ∧ ipv4Text ip = network ++ ['.', '2'] := by
    refine ⟨octetText ip.octet₀ ++ '.' :: octetText ip.octet₁ ++ '.' :: octetText ip.octet₂,
      ?_, ?_⟩
    · simp [dot_free fun _ => isDigit_of_octetText]
    · rw [ipv4Text, one_digit]
      rfl
  rw [ip_eq] at is_front
  rcases List.prefix_or_prefix_of_prefix is_front (List.prefix_append network _) with
    within | ⟨tail, tail_eq⟩
  · have fewer := within.sublist.count_le '.'
    omega
  · rw [← tail_eq, List.prefix_append_right_inj] at is_front
    obtain rfl | ⟨_, rfl, rfl | rfl⟩ : tail = [] ∨ ∃ last, tail = '.' :: last ∧
        (last = [] ∨ last = ['2']) := by
      simpa [List.prefix_cons_iff] using is_front
    · rw [← tail_eq, List.append_nil, network_dots] at dots
      cases dots
    · -- The last number would be empty.
      have last_dot : front.getLast? = some '.' := by simp [← tail_eq]
      rw [front_eq, List.getLast?_append_of_ne_nil _ (by simp),
        List.getLast?_cons_of_ne_nil fourth_ne] at last_dot
      have digit := fourth_digits '.' (List.mem_of_getLast? last_dot)
      simp at digit
    · rw [← tail_eq, ← ip_eq, parseIpv4_ipv4Text] at read
      exact (Option.some.inj read).symm

/-! ## Lines -/

/-- The key and the value of a line stand before and after its first equals sign. -/
theorem keyValue_eq_some {line key value : String} (read : keyValue line = some (key, value)) :
    ∃ before after, line.toList = before ++ '=' :: after ∧ '=' ∉ before ∧
      key = Text.trim (String.ofList before) ∧ value = Text.trim (String.ofList after) := by
  obtain ⟨front, back, front_space, back_space, line_eq⟩ := Text.trim_eq line
  unfold keyValue at read
  split at read
  · cases read
  · obtain ⟨⟨before, after⟩, split_eq, pair_eq⟩ := Option.map_eq_some_iff.mp read
    obtain ⟨trimmed_eq, free⟩ := Text.splitOnce_eq_some split_eq
    obtain ⟨rfl, rfl⟩ := Prod.mk.inj pair_eq
    refine ⟨front ++ before, after ++ back, ?_, ?_, ?_, ?_⟩
    · simp [line_eq, trimmed_eq]
    · rw [List.mem_append, not_or]
      refine ⟨fun member => ?_, free⟩
      have space := front_space '=' member
      simp [Text.isWhiteSpace] at space
    · rw [String.ofList_append, Text.trim_space_append (by simpa using front_space)]
    · rw [String.ofList_append, Text.trim_append_space (by simpa using back_space)]

/-- What follows on the line does not change its key. -/
theorem keyValue_append {line key value : String} (read : keyValue line = some (key, value))
    (more : String) : ∃ longer, keyValue (line ++ more) = some (key, longer) := by
  unfold keyValue at read
  split at read
  · cases read
  · rename_i proper
    obtain ⟨not_blank, not_comment⟩ := not_or.mp proper
    obtain ⟨⟨before, after⟩, split_eq, pair_eq⟩ := Option.map_eq_some_iff.mp read
    obtain ⟨trimmed_eq, free⟩ := Text.splitOnce_eq_some split_eq
    obtain ⟨rfl, -⟩ := Prod.mk.inj pair_eq
    obtain ⟨rest, longer_eq⟩ := Text.trim_append_of_ne not_blank more
    have still_proper : ¬ (Text.trim (line ++ more) = "" ∨
        Text.startsWith (Text.trim (line ++ more)) "#") := by
      obtain ⟨char, chars, chars_eq⟩ :=
        List.exists_cons_of_ne_nil (mt String.toList_eq_nil_iff.mp not_blank)
      rw [chars_eq] at longer_eq
      rintro (blank | comment)
      · simp [blank] at longer_eq
      · obtain ⟨text, text_eq⟩ := Text.startsWith_iff.mp comment
        obtain ⟨rfl, -⟩ : '#' = char ∧ _ := by simpa [text_eq] using longer_eq
        refine not_comment (Text.startsWith_iff.mpr ⟨String.ofList chars, ?_⟩)
        exact String.toList_inj.mp (by simp [chars_eq])
    refine ⟨Text.trim (String.ofList (after ++ rest)), ?_⟩
    rw [keyValue, if_neg still_proper, longer_eq, trimmed_eq, List.append_assoc, List.cons_append,
      Text.splitOnce_append _ free]
    rfl

/-- The address a line stands for, if it is an entry of one. -/
def vmIpEntry (line : String) : Option (Option Ipv4Addr) :=
  (keyValue line).bind fun (key, value) => if key = "vm_ip" then some (parseIpv4 value) else none

theorem VmConf.vmIp_readLine (conf : VmConf) (line : String) :
    (conf.readLine line).vmIp = (vmIpEntry line).getD conf.vmIp := by
  rw [readLine, vmIpEntry]
  cases keyValue line with
  | none => rfl
  | some entry =>
      obtain ⟨key, value⟩ := entry
      rw [Option.bind_some]
      simp only [VmConf.set]
      split <;> simp_all

/-- An entry stays one when the line goes on. -/
theorem vmIpEntry_append {line : String} (entry : vmIpEntry line ≠ none) (more : String) :
    vmIpEntry (line ++ more) ≠ none := by
  obtain ⟨address, is_entry⟩ := Option.ne_none_iff_exists'.mp entry
  obtain ⟨⟨key, value⟩, read, address_eq⟩ := Option.bind_eq_some_iff.mp is_entry
  obtain ⟨longer, read_longer⟩ := keyValue_append read more
  rw [vmIpEntry, read_longer, Option.bind_some]
  by_cases same : key = "vm_ip"
  · simp [same]
  · simp [same] at address_eq

/-- A line that ends with the beginning of the appended line stands for no other address. -/
theorem vmIpEntry_append_line {line : String} {ip other : Ipv4Addr} {front : List Char}
    (one_digit : ip.octet₃ = 2) (is_front : front <+: "vm_ip = ".toList ++ ipv4Text ip)
    (nonempty : front ≠ [])
    (is_entry : vmIpEntry (line ++ String.ofList front) = some (some other)) : other = ip := by
  obtain ⟨⟨key, value⟩, read, address_eq⟩ := Option.bind_eq_some_iff.mp is_entry
  have address_read : parseIpv4 value = some other := by
    simpa using (Option.ite_none_right_eq_some.mp address_eq).2
  obtain ⟨before, after, line_eq, free, -, rfl⟩ := keyValue_eq_some read
  have split_eq : Text.splitOnce '=' (line.toList ++ front) = some (before, after) := by
    rw [← String.toList_ofList (l := front), ← String.toList_append, line_eq]
    exact Text.splitOnce_append _ free
  cases on_line : Text.splitOnce '=' line.toList with
  | some parts =>
      -- The value contains the first letter of what is appended.
      obtain ⟨key_part, value_part⟩ := parts
      obtain ⟨line_parts, key_free⟩ := Text.splitOnce_eq_some on_line
      rw [line_parts, List.append_assoc, List.cons_append, Text.splitOnce_append _ key_free]
        at split_eq
      obtain ⟨-, rfl⟩ := Prod.mk.inj (Option.some.inj split_eq)
      have letter : 'v' ∈ front := by
        obtain ⟨first, tail, rfl⟩ := List.exists_cons_of_ne_nil nonempty
        obtain ⟨rfl, -⟩ := List.cons_prefix_cons.mp is_front
        exact List.mem_cons_self
      have in_value : 'v' ∈ (Text.trim (String.ofList (value_part ++ front))).toList :=
        Text.mem_trim (by simp [letter]) rfl
      have no_letter := digit_or_dot_of_parseIpv4 address_read in_value
      simp at no_letter
  | none =>
      have line_free := Text.splitOnce_eq_none_iff.mp on_line
      have in_front : '=' ∈ front := by
        have member : '=' ∈ line.toList ++ front := by
          rw [← String.toList_ofList (l := front), ← String.toList_append, line_eq]
          simp
        exact (List.mem_append.mp member).resolve_left line_free
      obtain ⟨⟨key_part, value_part⟩, front_split⟩ :=
        Option.ne_none_iff_exists'.mp (mt Text.splitOnce_eq_none_iff.mp (not_not.mpr in_front))
      obtain ⟨rfl, key_free⟩ := Text.splitOnce_eq_some front_split
      rw [← List.append_assoc, Text.splitOnce_append _ (by simp [line_free, key_free])] at split_eq
      obtain ⟨-, rfl⟩ := Prod.mk.inj (Option.some.inj split_eq)
      obtain ⟨rest, whole_eq⟩ := is_front
      have whole_split : Text.splitOnce '=' ("vm_ip = ".toList ++ ipv4Text ip) =
          some (key_part, value_part ++ rest) := by
        rw [← whole_eq, List.append_assoc, List.cons_append]
        exact Text.splitOnce_append _ key_free
      have value_front : value_part <+: ' ' :: ipv4Text ip := by
        refine ⟨rest, ?_⟩
        have value_eq := congrArg (Option.map Prod.snd) whole_split
        exact (Option.some.inj value_eq).symm
      cases value_part with
      | nil => cases address_read
      | cons space value_part =>
          obtain ⟨rfl, address_front⟩ := List.cons_prefix_cons.mp value_front
          have visible : ∀ char ∈ (String.ofList value_part).toList,
              Text.isWhiteSpace char = false := fun char member =>
            visible_ipv4Text ip char
              (address_front.subset (by simpa using member))
          have spaced : String.ofList (' ' :: value_part) = " " ++ String.ofList value_part :=
            String.toList_inj.mp (by simp)
          rw [spaced, Text.trim_space_append (by simp [Text.isWhiteSpace]),
            Text.trim_of_visible visible] at address_read
          exact parseIpv4_prefix one_digit address_front address_read

namespace VmConf

theorem load_getD (file : Option String) : load file true = some (ofText (file.getD "")) := by
  cases file <;> rfl

theorem readLine_blank (conf : VmConf) : conf.readLine (String.ofList []) = conf := rfl

theorem ofText_eq (text : String) :
    ofText text = (text.toList.splitOn '\n').foldl (fun conf piece =>
      conf.readLine (String.ofList piece)) .default := by
  rw [ofText, Text.lines, List.foldl_map]
  split
  · rename_i last_empty
    obtain ⟨front, pieces_eq⟩ := List.getLast?_eq_some_iff.mp last_empty
    rw [pieces_eq, List.dropLast_concat, List.foldl_append, List.foldl_cons, List.foldl_nil,
      readLine_blank]
  · rfl

/-- What stands after the last newline. -/
def lastLine (text : String) : String := String.ofList ((text.toList.splitOn '\n').getLastD [])

/-- What is appended to a text continues its last line. -/
theorem ofText_append (text : String) :
    ∃ conf : VmConf, ofText text = conf.readLine (lastLine text) ∧
      ∀ more : List Char, '\n' ∉ more →
        ofText (text ++ String.ofList more) =
          conf.readLine (lastLine text ++ String.ofList more) ∧
        ofText (text ++ String.ofList (more ++ ['\n'])) =
          conf.readLine (lastLine text ++ String.ofList more) := by
  obtain ⟨front, last, text_eq⟩ : ∃ front last, text.toList.splitOn '\n' = front ++ [last] :=
    (List.eq_nil_or_concat' _).resolve_left (List.splitOn_ne_nil _ _)
  have last_eq : lastLine text = String.ofList last := by
    rw [lastLine, text_eq, List.getLastD_concat]
  rw [last_eq]
  refine ⟨front.foldl (fun conf piece => conf.readLine (String.ofList piece)) .default,
    ?_, fun more free => ⟨?_, ?_⟩⟩
  · rw [ofText_eq, text_eq, List.foldl_append, List.foldl_cons, List.foldl_nil]
  · rw [ofText_eq, String.toList_append, String.toList_ofList,
      Text.splitOn_append_of_free text_eq free, List.foldl_append, List.foldl_cons, List.foldl_nil,
      String.ofList_append]
  · rw [ofText_eq, String.toList_append, String.toList_ofList, ← List.append_assoc,
      List.splitOn_append_cons_self, Text.splitOn_append_of_free text_eq free, List.splitOn_nil,
      List.foldl_append, List.foldl_append, List.foldl_cons, List.foldl_nil, List.foldl_cons,
      List.foldl_nil, readLine_blank, String.ofList_append]

/-- While its line is appended to a file without an address, the file has that address or none. -/
theorem vmIp_append {text : String} {ip : Ipv4Addr} {front : List Char}
    (one_digit : ip.octet₃ = 2) (unset : (ofText text).vmIp = none)
    (is_front : front <+: vmIpLine ip) :
    (ofText (text ++ String.ofList front)).vmIp = none ∨
      (ofText (text ++ String.ofList front)).vmIp = some ip := by
  obtain ⟨conf, text_eq, appended⟩ := ofText_append text
  have entry_free := newline_free_entry ip
  obtain ⟨body, body_front, read_eq⟩ : ∃ body, body <+: "vm_ip = ".toList ++ ipv4Text ip ∧
      ofText (text ++ String.ofList front) =
        conf.readLine (lastLine text ++ String.ofList body) := by
    rcases List.prefix_concat_iff.mp is_front with whole | within
    · exact ⟨_, List.prefix_rfl, whole ▸ (appended _ entry_free).2⟩
    · exact ⟨front, within, (appended front fun newline => entry_free (within.subset newline)).1⟩
  rw [text_eq, vmIp_readLine] at unset
  rw [read_eq, vmIp_readLine]
  by_cases nonempty : body = []
  · left
    simpa [nonempty] using unset
  · cases entry : vmIpEntry (lastLine text ++ String.ofList body) with
    | none =>
        -- The old line was no entry, either.
        left
        have no_entry : vmIpEntry (lastLine text) = none := by
          by_contra was_entry
          exact vmIpEntry_append was_entry _ entry
        simpa [no_entry] using unset
    | some address =>
        cases address with
        | none => exact .inl rfl
        | some other =>
            right
            rw [vmIpEntry_append_line one_digit body_front nonempty entry]
            rfl

end VmConf

end Pelagos.CommandLine
