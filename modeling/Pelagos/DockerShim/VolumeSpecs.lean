import Pelagos.CommandLine.GuestPaths
import Pelagos.Library.Serde

/-!
# Volume specifications shown by the docker shim

The shim translates a bind source of the guest back to the host path, with the shares that the
daemon recorded in `vm.mounts`.  It takes the first share whose mount point is a prefix of the
source as text, so `/mnt/share1` also answers for `/mnt/share10`.
-/

namespace Pelagos.DockerShim

open CommandLine Daemon
open LexicalPath (components)
open Serde

/-- A share in `vm.mounts`. -/
def shareToJson (share : VirtiofsShare) : Json :=
  .object (record
    [("host_path", some (.string share.hostPath)),
      ("tag", some (.string share.tag)),
      ("read_only", some (.bool share.readOnly)),
      ("container_path", some (.string share.containerPath))])

/-- What `write_mounts` writes to `vm.mounts`. -/
def writeMounts (shares : List VirtiofsShare) : String := (ofList shareToJson shares).toText

/-- An entry of the share map: tag and host path. -/
def shareEntry (entry : Json) : Option (String × String) := do
  let tag ← (← entry.get "tag").asStr
  let host ← (← entry.get "host_path").asStr
  return (tag, host)

/-- The share map in the text of `vm.mounts`, `none` when it could not be read. -/
def readVmShareMap (mountsFile : Option String) : List (String × String) :=
  match mountsFile.bind Json.parse with
  | some (.array entries) => entries.filterMap shareEntry
  | _ => []

/-- The host source behind a guest source, if it starts with the mount point of the share. -/
def hostSource (vmSrc : String) (share : String × String) : Option String :=
  (Text.stripPrefix vmSrc ("/mnt/" ++ share.1)).map fun suffix =>
    if suffix.isEmpty then share.2 else Text.trimEndMatches '/' share.2 ++ suffix

/-- Translate a volume specification of the guest to one of the host. -/
def translateVolumeSpec (spec : String) (shareMap : List (String × String)) : String :=
  match Text.splitOnce ':' spec.toList with
  | none => spec
  | some (vmSrc, rest) =>
      match shareMap.findSome? (hostSource (String.ofList vmSrc)) with
      | none => spec
      | some hostSrc => hostSrc ++ ":" ++ String.ofList rest

/-- The specification that `run_container` passes to the runtime for a mount. -/
def guestVolumeSpec (mount : GuestMount) : String :=
  runGuestSource mount ++ ":" ++ mount.containerPath

/-- The specification shown for a mount is the host path, in the sense of `same`, and the container
path. -/
def ShownAs (same : String → String → Prop) (shares : List VirtiofsShare) (mount : GuestMount)
    (hostPath : String) : Prop :=
  ∃ host, same host hostPath ∧
    translateVolumeSpec (guestVolumeSpec mount) (readVmShareMap (some (writeMounts shares))) =
      host ++ ":" ++ mount.containerPath

/-- The host path is under `$HOME`; or the first share with that path is not `share10` or a later
one and has the path written the same way; or it is one of these, and the path of the share with its
first digit happens to continue with its other digits to the host path. -/
def PathKept (same : String → String → Prop) (env : HostEnv) (shares : List VirtiofsShare)
    (hostPath : String) : Prop :=
  mountsFromHome env hostPath = true ∨
    ∃ share, shares.find? (fun share => components share.hostPath = components hostPath) =
        some share ∧
      ((∀ index, share.tag = "share" ++ index.repr → index < 10) ∧ same share.hostPath hostPath ∨
        ∃ digit < 10, ∃ others, others ≠ "" ∧ share.tag = "share" ++ Nat.repr digit ++ others ∧
          ∃ lead, shareNamed shares ("share" ++ digit.repr) = some lead ∧
            same (Text.trimEndMatches '/' lead.hostPath ++ others) hostPath)

/-- No doubled separator, and none at the end. -/
def CleanPath (path : String) : Prop :=
  ¬ ['/', '/'] <:+: path.toList ∧ path.toList.getLast? ≠ some '/'

instance (path : String) : Decidable (CleanPath path) := inferInstanceAs (Decidable (_ ∧ _))

/-! ## The share map -/

theorem shareEntry_shareToJson (share : VirtiofsShare) :
    shareEntry (shareToJson share) = some (share.tag, share.hostPath) := by
  simp [shareEntry, shareToJson, record, Json.get, Json.asStr]

/-- The shim reads the tags and the host paths that the daemon wrote. -/
theorem readVmShareMap_writeMounts (shares : List VirtiofsShare) :
    readVmShareMap (some (writeMounts shares)) =
      shares.map fun share => (share.tag, share.hostPath) := by
  have fits : (ofList shareToJson shares).Fits Json.depthLimit := by
    refine fits_ofList fun share _ => fits_record ?_
    simp
  rw [readVmShareMap, Option.bind_some, writeMounts, Json.parse_toText fits, ofList]
  change (shares.map shareToJson).filterMap shareEntry = _
  rw [List.filterMap_map]
  have entries : shareEntry ∘ shareToJson = fun share => some (share.tag, share.hostPath) :=
    funext shareEntry_shareToJson
  rw [entries, List.filterMap_eq_map']

/-! ## Mount points as prefixes -/

/-- A decimal number is its first digit and the others. -/
theorem exists_repr_eq_append (value : Nat) :
    ∃ digit others, digit < 10 ∧ digit ≤ value ∧ value.repr = Nat.repr digit ++ others ∧
      (others = "" ↔ value < 10) := by
  induction value using Nat.strongRecOn with
  | ind value ih =>
      by_cases single : value < 10
      · exact ⟨value, "", single, le_refl value, by simp, by simp [single]⟩
      · obtain ⟨digit, others, small, bounded, read, -⟩ := ih (value / 10) (by omega)
        refine ⟨digit, others.push (Nat.digitChar (value % 10)), small, by omega, ?_, ?_⟩
        · have last := Nat.toDigits_of_base_le (by decide : 1 < 10) (Nat.le_of_not_lt single)
          refine String.toList_inj.mp ?_
          rw [Nat.toList_repr, last, ← Nat.toList_repr, read]
          simp
        · simp [single]

theorem toList_repr_of_lt {digit : Nat} (small : digit < 10) :
    digit.repr.toList = [digit.digitChar] := by
  rw [Nat.toList_repr, Nat.toDigits_of_lt_base small]

/-- Mount points of two single digits are not prefixes of one source. -/
theorem hostSource_of_other_digit {other digit : Nat} (other_small : other < 10)
    (small : digit < 10) (different : other ≠ digit) (rest hostPath : String) :
    hostSource ("/mnt/share" ++ digit.repr ++ rest) ("share" ++ other.repr, hostPath) = none := by
  have distinct : ∀ first < 10, ∀ second < 10,
      Nat.digitChar first = Nat.digitChar second → first = second := by decide
  have no_prefix : Text.startsWith ("/mnt/share" ++ digit.repr ++ rest)
      ("/mnt/" ++ ("share" ++ other.repr)) = false := by
    rw [Bool.eq_false_iff, ne_eq, Text.startsWith, List.isPrefixOf_iff_prefix]
    simp only [String.toList_append, toList_repr_of_lt small, toList_repr_of_lt other_small]
    intro starts
    have same : Nat.digitChar other = Nat.digitChar digit := by simpa using starts
    exact different (distinct other other_small digit small same)
  rw [hostSource, Text.stripPrefix, no_prefix]
  rfl

/-- The volumes share does not answer for the other shares. -/
theorem hostSource_volumes (rest hostPath : String) :
    hostSource ("/mnt/share" ++ rest) ("pelagos-volumes", hostPath) = none := by
  have no_prefix : Text.startsWith ("/mnt/share" ++ rest) ("/mnt/" ++ "pelagos-volumes") =
      false := by
    rw [Bool.eq_false_iff, ne_eq, Text.startsWith, List.isPrefixOf_iff_prefix]
    simp
  rw [hostSource, Text.stripPrefix, no_prefix]
  rfl

theorem hostSource_of_prefix {vmSrc tag rest : String} (source_eq : vmSrc = "/mnt/" ++ tag ++ rest)
    (hostPath : String) :
    hostSource vmSrc (tag, hostPath) =
      some (if rest.isEmpty then hostPath else Text.trimEndMatches '/' hostPath ++ rest) := by
  rw [hostSource, source_eq, Text.stripPrefix_append]
  rfl

/-- The shares of accepted flags after the volumes share are numbered from zero. -/
theorem tag_of_getElem? {env : HostEnv} {now : Nat} {cli : Cli} {args : DaemonArgs}
    (accepted : daemonArgsFromCli env now cli = .ok args) {index : Nat} {share : VirtiofsShare}
    (found : args.virtiofsShares[index]? = some share) :
    index = 0 ∧ share = volumesShare env cli.profile ∨
      ∃ number, index = number + 1 ∧ share.tag = "share" ++ number.repr := by
  obtain ⟨-, shares, built, shares_eq⟩ := shares_of_daemonArgsFromCli accepted
  rw [shares_eq] at found
  cases index with
  | zero => exact Or.inl ⟨rfl, (Option.some.inj found).symm⟩
  | succ number =>
      refine Or.inr ⟨number, rfl, ?_⟩
      have tag_eq := congrArg (fun tags => tags[number]?) (tags_parseVolumesFrom built)
      rw [List.getElem?_cons_succ] at found
      simp only [List.getElem?_map, found, Option.map_some] at tag_eq
      obtain ⟨position, numbered, same⟩ := Option.map_eq_some_iff.mp tag_eq.symm
      obtain ⟨bound, rfl⟩ := List.getElem?_eq_some_iff.mp numbered
      simpa using same.symm

/-- A source whose tag starts with a digit is answered for by the share of that digit. -/
theorem findSome_hostSource {env : HostEnv} {now : Nat} {cli : Cli} {args : DaemonArgs}
    (accepted : daemonArgsFromCli env now cli = .ok args) {digit : Nat} (small : digit < 10)
    {lead : VirtiofsShare}
    (named : shareNamed args.virtiofsShares ("share" ++ digit.repr) = some lead) (rest : String) :
    (args.virtiofsShares.map fun share => (share.tag, share.hostPath)).findSome?
        (hostSource ("/mnt/share" ++ digit.repr ++ rest)) =
      some (if rest.isEmpty then lead.hostPath
        else Text.trimEndMatches '/' lead.hostPath ++ rest) := by
  obtain ⟨tag_eq, front, back, shares_eq, -⟩ := List.find?_eq_some_iff_append.mp named
  have lead_tag : lead.tag = "share" ++ digit.repr := by simpa using tag_eq
  have lead_place : front.length = digit + 1 := by
    have found : args.virtiofsShares[front.length]? = some lead := by simp [shares_eq]
    rcases tag_of_getElem? accepted found with ⟨-, rfl⟩ | ⟨number, place, same⟩
    · have letters := congrArg String.toList lead_tag
      simp [volumesShare] at letters
    · obtain rfl : number = digit := share_repr_injective (same.symm.trans lead_tag)
      exact place
  rw [List.findSome?_map]
  refine List.findSome?_eq_some_iff.mpr ⟨front, lead, back, shares_eq, ?_, ?_⟩
  · rw [Function.comp_apply, lead_tag]
    refine hostSource_of_prefix ?_ lead.hostPath
    exact String.toList_inj.mp (by simp)
  · intro share member
    obtain ⟨index, bound, share_eq⟩ := List.mem_iff_getElem.mp member
    have found : args.virtiofsShares[index]? = some share := by
      rw [shares_eq, List.getElem?_append_left bound, List.getElem?_eq_getElem bound, share_eq]
    rcases tag_of_getElem? accepted found with ⟨-, rfl⟩ | ⟨number, rfl, tag_eq⟩
    · rw [Function.comp_apply, String.append_assoc]
      exact hostSource_volumes _ _
    · rw [Function.comp_apply, tag_eq]
      exact hostSource_of_other_digit (by omega) small (by omega) rest share.hostPath

theorem translateVolumeSpec_of_found {vmSrc host : String} {shareMap : List (String × String)}
    (free : ':' ∉ vmSrc.toList) (found : shareMap.findSome? (hostSource vmSrc) = some host)
    (container : String) :
    translateVolumeSpec (vmSrc ++ ":" ++ container) shareMap = host ++ ":" ++ container := by
  have split : Text.splitOnce ':' (vmSrc ++ ":" ++ container).toList =
      some (vmSrc.toList, container.toList) := by
    simpa using Text.splitOnce_append container.toList free
  simp only [translateVolumeSpec, split, String.ofList_toList, found]

/-! ## The round trip -/

/-- The specification shown for a source whose tag starts with a digit. -/
theorem translate_guestVolumeSpec {env : HostEnv} {now : Nat} {cli : Cli} {args : DaemonArgs}
    (accepted : daemonArgsFromCli env now cli = .ok args) {digit : Nat} (small : digit < 10)
    {lead : VirtiofsShare}
    (named : shareNamed args.virtiofsShares ("share" ++ digit.repr) = some lead)
    {mount : GuestMount} {rest : String} (free : ':' ∉ rest.toList)
    (source_eq : runGuestSource mount = "/mnt/share" ++ digit.repr ++ rest) :
    translateVolumeSpec (guestVolumeSpec mount)
        (readVmShareMap (some (writeMounts args.virtiofsShares))) =
      (if rest.isEmpty then lead.hostPath else Text.trimEndMatches '/' lead.hostPath ++ rest) ++
        ":" ++ mount.containerPath := by
  have found := findSome_hostSource accepted small named rest
  have source_free : ':' ∉ (runGuestSource mount).toList := by
    rw [source_eq, String.toList_append, String.toList_append, List.mem_append, List.mem_append]
    rintro ((letter | digit_char) | after)
    · simp at letter
    · exact separator_notMem_repr digit digit_char
    · exact free after
  rw [readVmShareMap_writeMounts, guestVolumeSpec]
  rw [← source_eq] at found
  exact translateVolumeSpec_of_found source_free found mount.containerPath

theorem shownAs_iff_of_translate {same : String → String → Prop} {shares : List VirtiofsShare}
    {mount : GuestMount} {shown hostPath : String}
    (translated : translateVolumeSpec (guestVolumeSpec mount)
      (readVmShareMap (some (writeMounts shares))) = shown ++ ":" ++ mount.containerPath) :
    ShownAs same shares mount hostPath ↔ same shown hostPath := by
  constructor
  · rintro ⟨host, same_host, host_eq⟩
    have texts_eq : host ++ ":" ++ mount.containerPath = shown ++ ":" ++ mount.containerPath :=
      host_eq.symm.trans translated
    have chars_eq := congrArg String.toList texts_eq
    simp only [String.toList_append, List.append_cancel_right_eq] at chars_eq
    rwa [String.toList_inj.mp chars_eq] at same_host
  · intro same_shown
    exact ⟨shown, same_shown, translated⟩

theorem trimEndMatches_of_clean {front below : String} (clean : CleanPath (front ++ "/" ++ below)) :
    Text.trimEndMatches '/' front = front := by
  rcases List.eq_nil_or_concat front.toList with empty | ⟨chars, last, ends⟩
  · rw [String.toList_eq_nil_iff.mp empty]
    rfl
  · refine Text.trimEndWhere_keep ?_ (by simpa using ends)
    rw [beq_eq_false_iff_ne]
    rintro rfl
    refine clean.1 ⟨chars, below.toList, ?_⟩
    simp [ends]

theorem trimStart_of_clean {front below : String} (clean : CleanPath (front ++ "/" ++ below)) :
    Text.trimStart '/' below = below := by
  rw [Text.trimStart]
  cases chars_eq : below.toList with
  | nil => rw [String.toList_eq_nil_iff.mp chars_eq]; rfl
  | cons char chars =>
      have plain : char ≠ '/' := by
        rintro rfl
        refine clean.1 ⟨front.toList, chars, ?_⟩
        simp [chars_eq]
      rw [List.dropWhile_cons_of_neg (by simpa using plain), ← chars_eq, String.ofList_toList]

/-- A path under `$HOME` is shown as it was written. -/
theorem shownAs_of_home {same : String → String → Prop} (refl : ∀ path, same path path)
    {env : HostEnv} {now : Nat} {cli : Cli} {args : DaemonArgs}
    (accepted : daemonArgsFromCli env now cli = .ok args) {hostPath containerPath : String}
    (free : ':' ∉ hostPath.toList) (clean : CleanPath hostPath)
    (from_home : mountsFromHome env hostPath = true) :
    ShownAs same args.virtiofsShares
      { tag := "share0", subpath := (Text.stripPrefix hostPath (env.home.getD "" ++ "/")).getD "",
        containerPath } hostPath := by
  cases set : env.home with
  | none => simp [mountsFromHome, set] at from_home
  | some home =>
      obtain ⟨lead, named, -, lead_path⟩ := shareNamed_share0 accepted set
      simp only [mountsFromHome, underHome, set, Option.getD_some, Bool.and_eq_true,
        decide_eq_true_eq, Bool.or_eq_true, beq_iff_eq, Text.startsWith_iff] at from_home
      obtain ⟨nonempty, rfl | ⟨below, rfl⟩⟩ := from_home
      · have longer : Text.stripPrefix hostPath (hostPath ++ "/") = none := by
          refine if_neg fun starts => ?_
          obtain ⟨rest, same⟩ := Text.startsWith_iff.mp starts
          simpa using congrArg (fun text => text.toList.length) same
        have source_eq : runGuestSource { tag := "share0", subpath := "", containerPath } =
            "/mnt/share" ++ Nat.repr 0 ++ "" := rfl
        have translated := translate_guestVolumeSpec accepted (by decide : 0 < 10) named (by simp)
          source_eq
        rw [Option.getD_some, longer, Option.getD_none]
        refine (shownAs_iff_of_translate translated).mpr ?_
        rw [lead_path, Text.firstPiece_of_free free]
        exact refl hostPath
      · have home_free : ':' ∉ home.toList := fun member => free (by simp [member])
        have below_free : ':' ∉ ("/" ++ below).toList := by
          intro member
          exact free (by simpa using Or.inr member)
        have below_nonempty : below ≠ "" := by
          rintro rfl
          exact clean.2 (by simp)
        have source_eq : runGuestSource { tag := "share0", subpath := below, containerPath } =
            "/mnt/share" ++ Nat.repr 0 ++ ("/" ++ below) := by
          rw [runGuestSource, if_neg below_nonempty, trimStart_of_clean clean]
          exact String.toList_inj.mp (by simp)
        have translated := translate_guestVolumeSpec accepted (by decide : 0 < 10) named below_free
          source_eq
        have rest_nonempty : ("/" ++ below).isEmpty = false := by simp
        rw [Option.getD_some, Text.stripPrefix_append, Option.getD_some]
        refine (shownAs_iff_of_translate translated).mpr ?_
        rw [rest_nonempty, if_neg (by simp), lead_path, Text.firstPiece_of_free home_free,
          trimEndMatches_of_clean clean, ← String.append_assoc]
        exact refl _

theorem volumesTag_ne (text : String) : "pelagos-volumes" ≠ "share" ++ text := by
  intro same
  have letters := congrArg (fun tag => tag.toList.head?) same
  simp at letters

theorem translate_volumesShare {env : HostEnv} {now : Nat} {cli : Cli} {args : DaemonArgs}
    (accepted : daemonArgsFromCli env now cli = .ok args) (containerPath : String) :
    translateVolumeSpec (guestVolumeSpec { tag := "pelagos-volumes", subpath := "", containerPath })
        (readVmShareMap (some (writeMounts args.virtiofsShares))) =
      (volumesShare env cli.profile).hostPath ++ ":" ++ containerPath := by
  obtain ⟨-, shares, -, shares_eq⟩ := shares_of_daemonArgsFromCli accepted
  have source_eq : runGuestSource { tag := "pelagos-volumes", subpath := "", containerPath } =
      "/mnt/" ++ "pelagos-volumes" := if_pos rfl
  rw [readVmShareMap_writeMounts, guestVolumeSpec, source_eq]
  refine translateVolumeSpec_of_found (by decide) ?_ containerPath
  have own : hostSource ("/mnt/" ++ "pelagos-volumes")
      ("pelagos-volumes", (volumesShare env cli.profile).hostPath) =
        some (volumesShare env cli.profile).hostPath := by
    have whole : "/mnt/" ++ "pelagos-volumes" = "/mnt/" ++ "pelagos-volumes" ++ "" := by decide
    exact hostSource_of_prefix whole _
  rw [shares_eq, List.map_cons, List.findSome?_cons]
  simp only [volumesShare] at own ⊢
  rw [own]

/-- With a tag of its own for each index, the share of every smaller index has its tag too. -/
theorem exists_shareNamed {env : HostEnv} {now : Nat} {cli : Cli} {args : DaemonArgs}
    (accepted : daemonArgsFromCli env now cli = .ok args) {index : Nat}
    (bound : index + 1 < args.virtiofsShares.length) :
    ∃ share, shareNamed args.virtiofsShares ("share" ++ index.repr) = some share := by
  have found := List.getElem?_eq_getElem bound
  rcases tag_of_getElem? accepted found with ⟨place, -⟩ | ⟨number, place, tag_eq⟩
  · exact absurd place (Nat.succ_ne_zero index)
  · obtain rfl := Nat.succ.inj place
    rw [← tag_eq]
    exact ⟨_, shareNamed_of_mem (tags_nodup accepted) (List.getElem_mem bound)⟩

/-- The first digit of a tag and the others are determined. -/
theorem share_digit_inj {first second : Nat} (first_small : first < 10) (second_small : second < 10)
    {rest others : String}
    (same : "share" ++ first.repr ++ rest = "share" ++ second.repr ++ others) :
    first = second ∧ rest = others := by
  have distinct : ∀ one < 10, ∀ two < 10, Nat.digitChar one = Nat.digitChar two → one = two := by
    decide
  have chars_eq := congrArg String.toList same
  simp only [String.toList_append, toList_repr_of_lt first_small,
    toList_repr_of_lt second_small] at chars_eq
  obtain ⟨digits_eq, rest_eq⟩ : first.digitChar = second.digitChar ∧
      rest.toList = others.toList := by
    simpa using chars_eq
  exact ⟨distinct first first_small second second_small digits_eq, String.toList_inj.mp rest_eq⟩

/-- A share that answers for itself or for which a share of one digit answers. -/
theorem shownAs_outside_iff {same : String → String → Prop} {env : HostEnv} {now : Nat} {cli : Cli}
    {args : DaemonArgs} (accepted : daemonArgsFromCli env now cli = .ok args)
    {share : VirtiofsShare} (member : share ∈ args.virtiofsShares)
    (hostPath containerPath : String) :
    ShownAs same args.virtiofsShares { tag := share.tag, subpath := "", containerPath } hostPath ↔
      ((∀ index, share.tag = "share" ++ index.repr → index < 10) ∧ same share.hostPath hostPath ∨
        ∃ digit < 10, ∃ others, others ≠ "" ∧ share.tag = "share" ++ Nat.repr digit ++ others ∧
          ∃ lead, shareNamed args.virtiofsShares ("share" ++ digit.repr) = some lead ∧
            same (Text.trimEndMatches '/' lead.hostPath ++ others) hostPath) := by
  obtain ⟨position, bound, share_eq⟩ := List.mem_iff_getElem.mp member
  have found : args.virtiofsShares[position]? = some share := by
    rw [List.getElem?_eq_getElem bound, share_eq]
  rcases tag_of_getElem? accepted found with ⟨-, rfl⟩ | ⟨number, place, tag_eq⟩
  · have shown_iff : ShownAs same args.virtiofsShares
        { tag := (volumesShare env cli.profile).tag, subpath := "", containerPath } hostPath ↔
          same (volumesShare env cli.profile).hostPath hostPath :=
      shownAs_iff_of_translate (translate_volumesShare accepted containerPath)
    rw [shown_iff]
    refine ⟨fun kept => Or.inl ⟨fun index same_tag => ?_, kept⟩, ?_⟩
    · exact absurd same_tag (volumesTag_ne index.repr)
    · rintro (⟨-, kept⟩ | ⟨digit, -, others, -, same_tag, -⟩)
      · exact kept
      · rw [String.append_assoc] at same_tag
        exact absurd same_tag (volumesTag_ne (digit.repr ++ others))
  · obtain ⟨digit, others, small, bounded, number_eq, single⟩ := exists_repr_eq_append number
    obtain ⟨lead, named⟩ : ∃ lead,
        shareNamed args.virtiofsShares ("share" ++ digit.repr) = some lead :=
      exists_shareNamed accepted (by omega)
    have others_free : ':' ∉ others.toList := by
      intro separator
      exact separator_notMem_repr number (by simp [number_eq, separator])
    have source_eq : runGuestSource { tag := share.tag, subpath := "", containerPath } =
        "/mnt/share" ++ digit.repr ++ others := by
      rw [runGuestSource, if_pos rfl, tag_eq, number_eq]
      exact String.toList_inj.mp (by simp)
    have translated := translate_guestVolumeSpec accepted small named others_free source_eq
    rw [shownAs_iff_of_translate translated]
    have tag_digits : share.tag = "share" ++ digit.repr ++ others := by
      rw [tag_eq, number_eq, String.append_assoc]
    have index_eq : ∀ index, share.tag = "share" ++ index.repr → index = number :=
      fun index same_tag => share_repr_injective (same_tag.symm.trans tag_eq)
    by_cases alone : others = ""
    · have own : lead = share := by
        rw [alone, String.append_empty] at tag_digits
        rw [← tag_digits, shareNamed_of_mem (tags_nodup accepted) member] at named
        exact (Option.some.inj named).symm
      rw [alone, own, if_pos (by decide)]
      refine ⟨fun kept => Or.inl ⟨fun index same_tag => ?_, kept⟩, ?_⟩
      · rw [index_eq index same_tag]
        exact single.mp alone
      · rintro (⟨-, kept⟩ | ⟨other, other_small, after, nonempty, same_tag, -⟩)
        · exact kept
        · obtain ⟨-, rest_eq⟩ := share_digit_inj small other_small (tag_digits.symm.trans same_tag)
          exact absurd (rest_eq.symm.trans alone) nonempty
    · rw [if_neg (by simpa using alone)]
      constructor
      · intro kept
        exact Or.inr ⟨digit, small, others, alone, tag_digits, lead, named, kept⟩
      · rintro (⟨short, -⟩ |
          ⟨other, other_small, after, -, same_tag, other_lead, other_named, kept⟩)
        · exact absurd (single.mpr (short number tag_eq)) alone
        · obtain ⟨rfl, rfl⟩ :=
            share_digit_inj small other_small (tag_digits.symm.trans same_tag)
          rw [named] at other_named
          rw [Option.some.inj other_named]
          exact kept

/-- For shares of accepted flags and every mount `pelagos run` builds against them: the shim shows
the host path and the container path of its specification if and only if the share that answers for
the path is its own, or happens to lead to it.  `same` is what counts as the same host path. -/
theorem volume_spec_shown_iff {same : String → String → Prop} (refl : ∀ path, same path path)
    {env : HostEnv} {now : Nat} {cli : Cli} {args : DaemonArgs}
    (accepted : daemonArgsFromCli env now cli = .ok args) {spec : String} {mount : GuestMount}
    (mounted : guestMount env args.virtiofsShares spec = some mount)
    (clean : CleanPath (Text.firstPiece ':' spec)) :
    ShownAs same args.virtiofsShares mount (Text.firstPiece ':' spec) ↔
      PathKept same env args.virtiofsShares (Text.firstPiece ':' spec) := by
  unfold guestMount at mounted
  split at mounted
  · rename_i hostPath containerPath rest split_eq
    obtain ⟨free, -, path_eq⟩ := Text.splitn_three_cons split_eq
    rw [path_eq] at clean ⊢
    split at mounted
    · rename_i from_home
      obtain rfl := Option.some.inj mounted
      exact iff_of_true (shownAs_of_home refl accepted free clean from_home) (Or.inl from_home)
    · rename_i outside
      obtain ⟨share, found, rfl⟩ := Option.map_eq_some_iff.mp mounted
      have member := List.mem_of_find?_eq_some found
      rw [shownAs_outside_iff accepted member, PathKept, or_iff_right outside, found]
      simp
  · simp at mounted

/-- Accepted flags and what was computed about them. -/
theorem exists_of_daemonArgs (property : DaemonArgs → Prop) [DecidablePred property]
    (env : HostEnv) (now : Nat) (cli : Cli)
    (computed : (match daemonArgsFromCli env now cli with
      | .ok args => decide (property args)
      | .error _ => false) = true) :
    ∃ args, daemonArgsFromCli env now cli = .ok args ∧ property args := by
  cases accepted : daemonArgsFromCli env now cli with
  | error _ => simp [accepted] at computed
  | ok args => exact ⟨args, rfl, by simpa [accepted] using computed⟩

/-- A volume outside `$HOME` with a share of one digit is shown as it was given. -/
theorem volume_spec_shown_of_one_digit :
    ∃ args, daemonArgsFromCli (plainHost (some "/Users/ada") none) 0
        { Cli.defaults (plainHost (some "/Users/ada") none) with
          volumes := ["/Volumes/data:/data"] } = .ok args ∧
      ShownAs (· = ·) args.virtiofsShares ⟨"share1", "", "/data"⟩
        (Text.firstPiece ':' "/Volumes/data:/data") := by
  obtain ⟨args, accepted, mounted, found⟩ := exists_of_daemonArgs
    (fun args => guestMount (plainHost (some "/Users/ada") none) args.virtiofsShares
        "/Volumes/data:/data" = some ⟨"share1", "", "/data"⟩ ∧
      (args.virtiofsShares.find? fun share => components share.hostPath =
        components "/Volumes/data").map (fun share => (share.tag, share.hostPath)) =
          some ("share1", "/Volumes/data"))
    (plainHost (some "/Users/ada") none) 0 { Cli.defaults (plainHost (some "/Users/ada") none) with
          volumes := ["/Volumes/data:/data"] } (by decide)
  have clean : CleanPath (Text.firstPiece ':' "/Volumes/data:/data") := by decide
  have path_eq : Text.firstPiece ':' "/Volumes/data:/data" = "/Volumes/data" := by decide
  refine ⟨args, accepted, (volume_spec_shown_iff (fun _ => rfl) accepted mounted clean).mpr ?_⟩
  obtain ⟨share, found_share, share_eq⟩ := Option.map_eq_some_iff.mp found
  obtain ⟨tag_eq, host_eq⟩ := Prod.mk.inj share_eq
  rw [path_eq]
  refine Or.inr ⟨share, found_share, Or.inl ⟨fun index same_tag => ?_, host_eq⟩⟩
  have index_eq : index = 1 := share_repr_injective (same_tag.symm.trans tag_eq)
  omega

/-- With ten volumes outside `$HOME`, the last one is shown below the first one's path. -/
theorem volume_spec_shown_below_other :
    ¬ ∀ (env : HostEnv) (now : Nat) (cli : Cli) (args : DaemonArgs),
      daemonArgsFromCli env now cli = .ok args → ∀ spec ∈ cli.volumes, ∀ mount,
        guestMount env args.virtiofsShares spec = some mount →
        CleanPath (Text.firstPiece ':' spec) →
        ShownAs (fun shown path => components shown = components path) args.virtiofsShares mount
          (Text.firstPiece ':' spec) := by
  intro shown
  obtain ⟨args, accepted, mounted, lead_eq⟩ := exists_of_daemonArgs
    (fun args => guestMount (plainHost (some "/Users/ada") none) args.virtiofsShares "/j:/j" =
        some ⟨"share10", "", "/j"⟩ ∧
      (shareNamed args.virtiofsShares ("share" ++ Nat.repr 1)).map VirtiofsShare.hostPath =
        some "/a")
    (plainHost (some "/Users/ada") none) 0
    { Cli.defaults (plainHost (some "/Users/ada") none) with
      volumes := ["/a:/a", "/b:/b", "/c:/c", "/d:/d", "/e:/e", "/f:/f", "/g:/g", "/h:/h", "/i:/i",
        "/j:/j"] } (by decide)
  obtain ⟨lead, named, path_eq⟩ := Option.map_eq_some_iff.mp lead_eq
  have source_eq : runGuestSource ⟨"share10", "", "/j"⟩ = "/mnt/share" ++ Nat.repr 1 ++ "0" := by
    decide
  have translated := translate_guestVolumeSpec accepted (by decide) named (by decide) source_eq
  have same := (shownAs_iff_of_translate translated).mp
    (shown _ _ _ _ accepted "/j:/j" (by decide) _ mounted (by decide))
  rw [path_eq] at same
  exact absurd same (by decide)

end Pelagos.DockerShim
