import Pelagos.CommandLine.VmConf
import Pelagos.DockerShim.VolumeSpecs
import Pelagos.Library.FileReplacement
import Pelagos.Library.Utf8

/-!
# The state files of a profile

The daemon records its pid, its mounts and its extra disks, each in a file that it replaces by
renaming.  The CLI reads them back at any time, also while they are being replaced, and the docker
shim reads the mounts.
-/

namespace Pelagos.Daemon

open DockerShim Serde FileReplacement Execution

/-! ## What the files say -/

def VirtiofsShare.ofJson : Decoder VirtiofsShare
  | .object members => do
      return { hostPath := ← required string "host_path" members
               tag := ← required string "tag" members
               readOnly := ← required bool "read_only" members
               containerPath := ← required string "container_path" members }
  | _ => .error .invalidType

/-- What `write_pid` writes. -/
def pidText (pid : UInt32) : List UInt8 := Utf8.encode pid.toNat.repr

/-- What `write_mounts` writes. -/
def mountsText (mounts : List VirtiofsShare) : List UInt8 :=
  Utf8.encode (writeMounts mounts)

/-- What `write_extra_disks` writes. -/
def extraDisksText (paths : List String) : List UInt8 :=
  Utf8.encode (ofList .string paths).toText

/-- `StateDir::running_pid`, with what `read_to_string` has found. -/
def runningPid (alive : UInt32 → Bool) (found : Option (List UInt8)) : Option UInt32 := do
  let text ← Utf8.decode (← found)
  let pid ← Text.parseUnsigned (2 ^ 32) (Text.trim text)
  if alive (.ofNat pid) then some (.ofNat pid) else none

/-- Why a state file could not be read. -/
inductive StateFileError where
  | invalidUtf8
  | invalidData (error : DecodeError)
  deriving DecidableEq

/-- The shared part of `read_mounts` and `read_extra_disks`: no file reads as an empty list. -/
def readList {α : Type} (decode : Decoder α) (found : Option (List UInt8)) :
    Except StateFileError (List α) :=
  match found with
  | none => .ok []
  | some bytes =>
      match Utf8.decode bytes with
      | none => .error .invalidUtf8
      | some text => (fromText (list decode) text).mapError .invalidData

/-- `StateDir::read_mounts`. -/
def readMounts (found : Option (List UInt8)) : Except StateFileError (List VirtiofsShare) :=
  readList VirtiofsShare.ofJson found

/-- `StateDir::read_extra_disks`. -/
def readExtraDisks (found : Option (List UInt8)) : Except StateFileError (List String) :=
  readList string found

/-- `read_vm_share_map`, with what `std::fs::read` has found. -/
def readShareMap (found : Option (List UInt8)) : List (String × String) :=
  readVmShareMap (found.bind Utf8.decode)

/-! ## What is written is read back -/

theorem ofJson_shareToJson (share : VirtiofsShare) :
    VirtiofsShare.ofJson (shareToJson share) = .ok share := by
  simp [shareToJson, VirtiofsShare.ofJson]

theorem fits_share (depth : Nat) (share : VirtiofsShare) :
    (shareToJson share).Fits (depth + 1) := by
  refine fits_record fun entry member => ?_
  simp only [List.mem_cons, List.not_mem_nil, or_false] at member
  rcases member with rfl | rfl | rfl | rfl <;> simp

theorem runningPid_pidText (alive : UInt32 → Bool) (pid : Option UInt32) :
    runningPid alive (pid.map pidText) = pid.filter alive := by
  cases pid with
  | none => rfl
  | some pid =>
      have visible : ∀ char ∈ pid.toNat.repr.toList, Text.isWhiteSpace char = false := by
        intro char member
        rw [Nat.toList_repr] at member
        exact CommandLine.visible_of_isDigit (Json.isDigit_toDigits member)
      have bound : pid.toNat < 2 ^ 32 := pid.toNat_lt
      simp only [runningPid, pidText, Option.map_some, Option.bind_eq_bind, Option.bind_some,
        Utf8.decode_encode, Text.trim_of_visible visible, Text.parseUnsigned_repr bound,
        UInt32.ofNat_toNat, Option.filter_some]

/-- A list is read back when its items are. -/
theorem readList_ofList {α : Type} {decode : Decoder α} {encode : α → Json}
    (reads : ∀ item, decode (encode item) = .ok item)
    (fits : ∀ item, (encode item).Fits 126) (items : Option (List α)) :
    readList decode (items.map fun items => Utf8.encode (ofList encode items).toText) =
      .ok (items.getD []) := by
  cases items with
  | none => rfl
  | some items =>
      have parsed : Json.parse (ofList encode items).toText = some (ofList encode items) :=
        Json.parse_toText (fits_ofList fun item _ => fits item)
      have decoded := list_ofList reads items
      rw [List.map_id''] at decoded
      · simp only [readList, Option.map_some, Utf8.decode_encode, fromText, parsed, decoded,
          Option.getD_some]
        rfl
      · exact fun _ => rfl

theorem readMounts_mountsText (mounts : Option (List VirtiofsShare)) :
    readMounts (mounts.map mountsText) = .ok (mounts.getD []) :=
  readList_ofList ofJson_shareToJson (fits_share 125) mounts

theorem readExtraDisks_extraDisksText (paths : Option (List String)) :
    readExtraDisks (paths.map extraDisksText) = .ok (paths.getD []) :=
  readList_ofList string_string (fits_string 126) paths

theorem readShareMap_mountsText (mounts : Option (List VirtiofsShare)) :
    readShareMap (mounts.map mountsText) =
      (mounts.getD []).map fun share => (share.tag, share.hostPath) := by
  cases mounts with
  | none => rfl
  | some mounts =>
      rw [readShareMap, Option.map_some, Option.bind_some, mountsText, Utf8.decode_encode,
        readVmShareMap_writeMounts, Option.getD_some]

/-! ## What a reader finds -/

/-- In every run of writers and readers of a state file in which no two writers overlap, a reader
takes from it what the file held when it was opened, however the writers and readers stop. -/
def TakesWhatWasHeld {α ρ : Type} (text : α → List UInt8) (take : Option (List UInt8) → ρ)
    (meaning : Option α → ρ) : Prop :=
  ∀ (value : Option α) (leftover : List UInt8) (actions : List (Action α)) (after : Disk α UInt8),
    Guarded (Disk.step text) Disk.Alone actions (.holding text value leftover) →
    run (Disk.step text) actions (.holding text value leftover) = some after →
    ∀ process found, after.phases process = .read found →
      take found = meaning ((actions.foldl Register.step (.holding value)).found process)

theorem takesWhatWasHeld {α ρ : Type} {text : α → List UInt8} {take : Option (List UInt8) → ρ}
    {meaning : Option α → ρ} (reads : ∀ value, take (value.map text) = meaning value) :
    TakesWhatWasHeld text take meaning := by
  intro value leftover actions after alone execution process found read
  rw [found_of_run alone execution read]
  exact reads _

/-- The readers of the pid, the mounts and the extra disks never see a part of a text or a text
that does not parse: the CLI and the shim get what was recorded when they opened the file. -/
theorem state_files_read_back (alive : UInt32 → Bool) :
    TakesWhatWasHeld pidText (runningPid alive) (Option.filter alive) ∧
      TakesWhatWasHeld mountsText readMounts (fun mounts => .ok (mounts.getD [])) ∧
      TakesWhatWasHeld mountsText readShareMap
        (fun mounts => (mounts.getD []).map fun share => (share.tag, share.hostPath)) ∧
      TakesWhatWasHeld extraDisksText readExtraDisks (fun paths => .ok (paths.getD [])) :=
  ⟨takesWhatWasHeld (runningPid_pidText alive), takesWhatWasHeld readMounts_mountsText,
    takesWhatWasHeld readShareMap_mountsText, takesWhatWasHeld readExtraDisks_extraDisksText⟩

/-- A pid that is read in two pieces while another one takes its place. -/
theorem replaced_while_read :
    runningPid (fun _ => true) (some [55, 49]) = some 71 := by
  let actions : List (Action UInt32) := [.openFile 2, .openTemporary 0 840, .write 0 7, .take 2 0,
    .rename 0, .take 2 0, .take 2 0]
  have alone : Guarded (Disk.step pidText) Disk.Alone actions (.holding pidText (some 71) []) := by
    refine ⟨trivial, fun opened enabled => ?_⟩
    obtain rfl := Option.some.inj enabled
    refine ⟨fun process => ?_, fun started _ => guarded_of_forall (by simp [Disk.Alone]) started⟩
    rw [Refines.phases_enter]
    split <;> rfl
  exact (state_files_read_back fun _ => true).1 (some 71) [] actions _ alone rfl 2 _ rfl

/-- Two daemons that record their pids at once: the first renames the temporary file right after the
second has emptied it, and `running_pid` finds nothing to parse. -/
example : ∃ after, run (Disk.step pidText)
      [.openTemporary 0 71, .write 0 7, .openTemporary 1 72, .rename 0, .openFile 2, .take 2 7]
      (.holding pidText none []) = some after ∧
    after.phases 2 = .read (some []) ∧ runningPid (fun _ => true) (some []) = none :=
  ⟨_, rfl, rfl, by decide⟩

end Pelagos.Daemon
