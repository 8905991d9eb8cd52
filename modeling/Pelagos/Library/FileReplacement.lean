import Mathlib.Data.List.Infix
import Mathlib.Logic.Function.Basic
import Pelagos.Library.Execution

/-!
# Files that are replaced by renaming

A writer opens a temporary file, writes a text to it in pieces and renames it over the file; a
reader opens the file and reads it in pieces.  All writers use one temporary file.  As long as no
two of them use it at once, the file is an atomic register, wherever writers and readers stop.
-/

namespace FileReplacement

open Execution

variable {α β : Type*}

/-- What a process does with the file. -/
inductive Phase (α β : Type*) where
  | idle
  /-- The temporary file is open, and so many bytes of the text have been written. -/
  | writing (inode : Nat) (value : α) (offset : Nat)
  | reading (inode : Nat) (taken : List β)
  /-- The whole text, or nothing if there was no file. -/
  | read (found : Option (List β))

/-- The directory entries and the inodes behind them. -/
structure Disk (α β : Type*) where
  contents : Nat → List β
  /-- The inodes from here on are free. -/
  fresh : Nat
  temporary : Option Nat
  target : Option Nat
  phases : Nat → Phase α β

/-- The system calls of the processes. -/
inductive Action (α : Type*) where
  /-- Open the temporary file, creating or truncating it. -/
  | openTemporary (process : Nat) (value : α)
  /-- Write at most this many bytes and one more. -/
  | write (process count : Nat)
  | rename (process : Nat)
  /-- Give up, or be killed. -/
  | stop (process : Nat)
  /-- Somebody unlinks the file. -/
  | remove
  | openFile (process : Nat)
  /-- Read at most this many bytes and one more. -/
  | take (process count : Nat)

/-- What a file holds after a write at an offset; a gap is filled. -/
def overwrite [Inhabited β] (old : List β) (offset : Nat) (piece : List β) : List β :=
  old.take offset ++ List.replicate (offset - old.length) default ++ piece ++
    old.drop (offset + piece.length)

/-- A write at the end of the file. -/
theorem overwrite_end [Inhabited β] {old : List β} {offset : Nat} (length : old.length = offset)
    (piece : List β) : overwrite old offset piece = old ++ piece := by
  subst length
  simp [overwrite]

namespace Phase

/-- The process is not in the middle of something. -/
def isFree : Phase α β → Bool
  | idle | read _ => true
  | writing .. | reading .. => false

/-- The process has the temporary file open. -/
def isWriting : Phase α β → Bool
  | writing .. => true
  | idle | reading .. | read _ => false

end Phase

namespace Disk

def enter (disk : Disk α β) (process : Nat) (phase : Phase α β) : Disk α β :=
  { disk with phases := Function.update disk.phases process phase }

/-- Change the contents of an inode. -/
def store (disk : Disk α β) (inode : Nat) (contents : List β) : Disk α β :=
  { disk with contents := Function.update disk.contents inode contents }

variable [Inhabited β] (encode : α → List β)

/-- One system call. -/
def step (disk : Disk α β) : Action α → Option (Disk α β)
  | .openTemporary process value =>
      if (disk.phases process).isFree then
        match disk.temporary with
        | some inode => some ((disk.store inode []).enter process (.writing inode value 0))
        | none =>
            let created := { disk.store disk.fresh [] with
              fresh := disk.fresh + 1, temporary := some disk.fresh }
            some (created.enter process (.writing disk.fresh value 0))
      else none
  | .write process count =>
      match disk.phases process with
      | .writing inode value offset =>
          let piece := ((encode value).drop offset).take (count + 1)
          if piece.isEmpty then none
          else
            some ((disk.store inode (overwrite (disk.contents inode) offset piece)).enter process
              (.writing inode value (offset + piece.length)))
      | _ => none
  | .rename process =>
      match disk.phases process with
      | .writing _ value offset =>
          if offset < (encode value).length then none
          else
            match disk.temporary with
            | some inode =>
                some ({ disk with temporary := none, target := some inode }.enter process .idle)
            | none => some (disk.enter process .idle)
      | _ => none
  | .stop process => if (disk.phases process).isFree then none else some (disk.enter process .idle)
  | .remove => some { disk with target := none }
  | .openFile process =>
      if (disk.phases process).isFree then
        match disk.target with
        | some inode => some (disk.enter process (.reading inode []))
        | none => some (disk.enter process (.read none))
      else none
  | .take process count =>
      match disk.phases process with
      | .reading inode taken =>
          match (disk.contents inode).drop taken.length with
          | [] => some (disk.enter process (.read (some taken)))
          | byte :: rest =>
              some (disk.enter process
                (.reading inode (taken ++ (byte :: rest).take (count + 1))))
      | _ => none

/-- A file with the text of a value, or none, and what an earlier writer has left in the temporary
file. -/
def holding {β : Type*} (encode : α → List β) (value : Option α) (leftover : List β) :
    Disk α β where
  contents inode := if inode = 0 then leftover else (value.map encode).getD []
  fresh := 2
  temporary := some 0
  target := value.map fun _ => 1
  phases _ := .idle

/-- No process has the temporary file open when one opens it. -/
def Alone (disk : Disk α β) : Action α → Prop
  | .openTemporary _ _ => ∀ process, (disk.phases process).isWriting = false
  | _ => True

end Disk

/-! ## The register -/

/-- An atomic register, the values that processes are about to store and the ones they found. -/
structure Register (α : Type*) where
  value : Option α
  intended : Nat → Option α
  found : Nat → Option α

def Register.holding (value : Option α) : Register α :=
  { value, intended := fun _ => none, found := fun _ => none }

/-- The effect of a system call on the register: a value is stored at once when the writer renames,
and read at once when the reader opens. -/
def Register.step (register : Register α) : Action α → Register α
  | .openTemporary process value =>
      { register with intended := Function.update register.intended process (some value) }
  | .rename process => { register with value := register.intended process }
  | .remove => { register with value := none }
  | .openFile process =>
      { register with found := Function.update register.found process register.value }
  | .write _ _ | .stop _ | .take _ _ => register

/-- The disk does what the register does. -/
structure Refines (encode : α → List β) (disk : Disk α β) (register : Register α) : Prop where
  /-- A writer has written a front of its text to the temporary file. -/
  written : ∀ {process inode value offset}, disk.phases process = .writing inode value offset →
    register.intended process = some value ∧ disk.temporary = some inode ∧
      disk.contents inode = (encode value).take offset ∧ offset ≤ (encode value).length
  alone : ∀ {first second}, (disk.phases first).isWriting = true →
    (disk.phases second).isWriting = true → first = second
  published : disk.target.map disk.contents = register.value.map encode
  /-- A reader's file does not change any more. -/
  opened : ∀ {process inode taken}, disk.phases process = .reading inode taken →
    ∃ value, register.found process = some value ∧ disk.contents inode = encode value ∧
      taken <+: encode value
  obtained : ∀ {process found}, disk.phases process = .read found →
    found = (register.found process).map encode
  target_old : ∀ {inode}, disk.target = some inode → inode < disk.fresh
  temporary_old : ∀ {inode}, disk.temporary = some inode → inode < disk.fresh
  reading_old : ∀ {process inode taken}, disk.phases process = .reading inode taken →
    inode < disk.fresh
  target_apart : ∀ {inode}, disk.temporary = some inode → disk.target ≠ some inode
  reading_apart : ∀ {process inode taken}, disk.phases process = .reading inode taken →
    disk.temporary ≠ some inode

namespace Refines

variable {encode : α → List β} {disk : Disk α β} {register : Register α}

theorem init (value : Option α) (leftover : List β) :
    Refines encode (.holding encode value leftover) (.holding value) where
  written busy := by cases busy
  alone busy := by cases busy
  published := by cases value <;> rfl
  opened busy := by cases busy
  obtained done := by cases done
  target_old found := by
    obtain ⟨_, -, rfl⟩ := Option.map_eq_some_iff.mp found
    exact Nat.one_lt_two
  temporary_old found := by
    obtain rfl := Option.some.inj found
    exact Nat.two_pos
  reading_old busy := by cases busy
  target_apart found := by
    obtain rfl := Option.some.inj found
    cases value <;> simp [Disk.holding]
  reading_apart busy := by cases busy

/-- The process under consideration changes its phase; the others keep theirs. -/
theorem phases_enter (process other : Nat) (phase : Phase α β) :
    (disk.enter process phase).phases other =
      if other = process then phase else disk.phases other :=
  Function.update_apply disk.phases process phase other

theorem phases_of_ne {process other : Nat} {phase kept : Phase α β} (unlike : phase ≠ kept)
    (held : (disk.enter process phase).phases other = kept) :
    other ≠ process ∧ disk.phases other = kept := by
  rw [phases_enter] at held
  split at held
  · exact absurd held unlike
  · rename_i different
    exact ⟨different, held⟩

theorem isWriting_of_enter {process other : Nat} {phase : Phase α β}
    (not_writing : phase.isWriting = false)
    (writes : ((disk.enter process phase).phases other).isWriting = true) :
    (disk.phases other).isWriting = true := by
  rw [phases_enter] at writes
  split at writes
  · rw [not_writing] at writes
    cases writes
  · exact writes

/-- A process stops writing, or reads on. -/
theorem enter (refines : Refines encode disk register) {process : Nat} {phase : Phase α β}
    {found : Option α} (not_writing : phase.isWriting = false)
    (opened : ∀ inode taken, phase = .reading inode taken → ∃ value, found = some value ∧
      disk.contents inode = encode value ∧ taken <+: encode value ∧ inode < disk.fresh ∧
        disk.temporary ≠ some inode)
    (obtained : ∀ text, phase = .read text → text = found.map encode) :
    Refines encode (disk.enter process phase)
      { register with found := Function.update register.found process found } where
  written busy := refines.written
    (phases_of_ne (by rintro rfl; cases not_writing) busy).2
  alone first second := refines.alone (isWriting_of_enter not_writing first)
    (isWriting_of_enter not_writing second)
  published := refines.published
  opened {other inode taken} busy := by
    rw [phases_enter] at busy
    split at busy
    · rename_i same
      obtain ⟨value, found_eq, contents_eq, isFront, -⟩ := opened inode taken busy
      exact ⟨value, by rw [same, ← found_eq]; exact Function.update_self .., contents_eq, isFront⟩
    · rename_i different
      obtain ⟨value, found_eq, whole⟩ := refines.opened busy
      exact ⟨value, by rw [← found_eq]; exact Function.update_of_ne different .., whole⟩
  obtained {other text} done := by
    rw [phases_enter] at done
    split at done
    · rename_i same
      have own : Function.update register.found process found process = found :=
        Function.update_self ..
      rw [obtained text done, same]
      exact congrArg _ own.symm
    · rename_i different
      have others : Function.update register.found process found other = register.found other :=
        Function.update_of_ne different ..
      rw [refines.obtained done]
      exact congrArg _ others.symm
  target_old := refines.target_old
  temporary_old := refines.temporary_old
  reading_old {other inode taken} busy := by
    rw [phases_enter] at busy
    split at busy
    · exact (opened inode taken busy).choose_spec.2.2.2.1
    · exact refines.reading_old busy
  target_apart := refines.target_apart
  reading_apart {other inode taken} busy := by
    rw [phases_enter] at busy
    split at busy
    · exact (opened inode taken busy).choose_spec.2.2.2.2
    · exact refines.reading_apart busy

theorem enter_idle (refines : Refines encode disk register) (process : Nat) :
    Refines encode (disk.enter process .idle) register := by
  have entered := @enter _ _ _ _ _ refines process .idle (register.found process) rfl (by simp)
    (by simp)
  rwa [Function.update_eq_self] at entered

/-- The reader finds what the register holds when it opens the file. -/
theorem openFile (refines : Refines encode disk register) (process : Nat) {after : Disk α β}
    (stepped : (if (disk.phases process).isFree then
        match disk.target with
        | some inode => some (disk.enter process (.reading inode []))
        | none => some (disk.enter process (.read none))
      else none) = some after) :
    Refines encode after (register.step (.openFile process)) := by
  have published := refines.published
  split at stepped
  · split at stepped
    · rename_i inode target_eq
      obtain rfl := Option.some.inj stepped
      refine refines.enter rfl (fun other taken same => ?_) (by simp)
      obtain ⟨rfl, rfl⟩ := Phase.reading.inj same
      rw [target_eq] at published
      obtain ⟨value, value_eq, encoded⟩ := Option.map_eq_some_iff.mp published.symm
      refine ⟨value, value_eq, encoded.symm, List.nil_prefix, refines.target_old target_eq, ?_⟩
      exact fun shared => refines.target_apart shared target_eq
    · rename_i target_eq
      obtain rfl := Option.some.inj stepped
      refine refines.enter rfl (by simp) (fun text same => ?_)
      rw [← Phase.read.inj same, ← published, target_eq]
      rfl
  · cases stepped

/-- A reader goes on, or has the whole text. -/
theorem take (refines : Refines encode disk register) {process inode : Nat} {taken : List β}
    (reading : disk.phases process = .reading inode taken) {phase : Phase α β}
    (next : (phase = .read (some taken) ∧ (disk.contents inode).drop taken.length = []) ∨
      ∃ count, phase = .reading inode
        (taken ++ ((disk.contents inode).drop taken.length).take count)) :
    Refines encode (disk.enter process phase) register := by
  obtain ⟨value, found_eq, contents_eq, isFront⟩ := refines.opened reading
  have front_eq : (encode value).take taken.length = taken :=
    (List.prefix_iff_eq_take.mp isFront).symm
  have entered : Refines encode (disk.enter process phase)
      { register with found := Function.update register.found process (some value) } := by
    rcases next with ⟨rfl, all_read⟩ | ⟨count, rfl⟩
    · refine refines.enter rfl (by simp) (fun text same => ?_)
      have whole : taken = encode value := by
        rw [contents_eq, List.drop_eq_nil_iff] at all_read
        exact isFront.eq_of_length_le all_read
      rw [← Phase.read.inj same, whole]
      rfl
    · refine refines.enter rfl (fun other more same => ?_) (by simp)
      obtain ⟨rfl, rfl⟩ := Phase.reading.inj same
      refine ⟨value, rfl, contents_eq, ?_, refines.reading_old reading,
        refines.reading_apart reading⟩
      rw [contents_eq]
      nth_rewrite 1 [← front_eq]
      rw [← List.take_add]
      exact List.take_prefix _ _
  rwa [← found_eq, Function.update_eq_self] at entered

/-- A writer opens an inode that is neither the file nor read by anyone. -/
theorem startWriting (refines : Refines encode disk register)
    (none_writing : ∀ other, (disk.phases other).isWriting = false) {inode fresh : Nat}
    (target_apart : disk.target ≠ some inode)
    (reading_apart : ∀ other taken, disk.phases other ≠ .reading inode taken)
    (older : disk.fresh ≤ fresh) (inode_old : inode < fresh) (process : Nat) (value : α) :
    Refines encode
      ({ disk.store inode [] with fresh, temporary := some inode }.enter process
        (.writing inode value 0))
      (register.step (.openTemporary process value)) where
  written {other opened kept offset} busy := by
    rw [phases_enter] at busy
    split at busy
    · rename_i same
      obtain ⟨rfl, rfl, rfl⟩ := Phase.writing.inj busy
      refine ⟨by rw [same]; exact Function.update_self .., rfl, ?_, Nat.zero_le _⟩
      exact Function.update_self ..
    · have idle := none_writing other
      rw [show disk.phases other = _ from busy] at idle
      cases idle
  alone {first second} first_writes second_writes := by
    have only : ∀ other, (({ disk.store inode [] with fresh, temporary := some inode }.enter process
        (.writing inode value 0)).phases other).isWriting = true → other = process := by
      intro other writes
      rw [phases_enter] at writes
      split at writes
      · assumption
      · have idle := none_writing other
        rw [show (disk.phases other).isWriting = true from writes] at idle
        cases idle
    rw [only first first_writes, only second second_writes]
  published := by
    refine Eq.trans ?_ refines.published
    change disk.target.map (Function.update disk.contents inode []) = _
    cases target_eq : disk.target with
    | none => rfl
    | some published =>
        have apart : published ≠ inode := fun same => target_apart (same ▸ target_eq)
        exact congrArg some (Function.update_of_ne apart ..)
  opened {other opened taken} busy := by
    replace busy := (phases_of_ne (by simp) busy).2
    have apart : opened ≠ inode := fun same => reading_apart other taken (same ▸ busy)
    obtain ⟨found, found_eq, contents_eq, isFront⟩ := refines.opened busy
    refine ⟨found, found_eq, ?_, isFront⟩
    rw [← contents_eq]
    exact Function.update_of_ne apart ..
  obtained done := refines.obtained (phases_of_ne (by simp) done).2
  target_old found := Nat.lt_of_lt_of_le (refines.target_old found) older
  temporary_old found := Option.some.inj found ▸ inode_old
  reading_old busy := Nat.lt_of_lt_of_le (refines.reading_old (phases_of_ne (by simp) busy).2) older
  target_apart found := Option.some.inj found ▸ target_apart
  reading_apart {other opened taken} busy same := by
    obtain rfl := Option.some.inj same
    exact reading_apart other taken (phases_of_ne (by simp) busy).2

/-- A write makes the front that has been written longer. -/
theorem write [Inhabited β] (refines : Refines encode disk register) {process inode offset : Nat}
    {value : α} (writing : disk.phases process = .writing inode value offset) {piece : List β}
    (isFront : piece <+: (encode value).drop offset) :
    Refines encode
      ((disk.store inode (overwrite (disk.contents inode) offset piece)).enter process
        (.writing inode value (offset + piece.length))) register := by
  obtain ⟨intended, temporary_eq, contents_eq, offset_le⟩ := refines.written writing
  have length_eq : (disk.contents inode).length = offset := by
    rw [contents_eq, List.length_take, Nat.min_eq_left offset_le]
  have longer : overwrite (disk.contents inode) offset piece =
      (encode value).take (offset + piece.length) := by
    rw [overwrite_end length_eq, contents_eq, List.take_add, ← List.prefix_iff_eq_take.mp isFront]
  have same_writer : ∀ other, (((disk.store inode
      (overwrite (disk.contents inode) offset piece)).enter process
        (.writing inode value (offset + piece.length))).phases other).isWriting = true →
      (disk.phases other).isWriting = true := by
    intro other writes
    rw [phases_enter] at writes
    split at writes
    · rename_i same
      rw [same, writing]
      rfl
    · exact writes
  constructor
  case written =>
    intro other opened kept position busy
    rw [phases_enter] at busy
    split at busy
    · rename_i same
      obtain ⟨rfl, rfl, rfl⟩ := Phase.writing.inj busy
      refine ⟨same ▸ intended, temporary_eq, ?_, ?_⟩
      · rw [← longer]
        exact Function.update_self ..
      · have piece_le := isFront.length_le
        rw [List.length_drop] at piece_le
        omega
    · rename_i different
      have both := refines.alone (by rw [show disk.phases other = _ from busy]; rfl)
        (by rw [writing]; rfl)
      exact absurd both different
  case alone => exact fun first second => refines.alone (same_writer _ first) (same_writer _ second)
  case published =>
    refine Eq.trans ?_ refines.published
    change disk.target.map (Function.update disk.contents inode _) = _
    cases target_eq : disk.target with
    | none => rfl
    | some published =>
        have apart : published ≠ inode := fun same =>
          refines.target_apart temporary_eq (same ▸ target_eq)
        exact congrArg some (Function.update_of_ne apart ..)
  case opened =>
    intro other opened taken busy
    replace busy := (phases_of_ne (by simp) busy).2
    have apart : opened ≠ inode := fun same =>
      refines.reading_apart busy (same ▸ temporary_eq)
    obtain ⟨found, found_eq, contents_eq, isFront⟩ := refines.opened busy
    refine ⟨found, found_eq, ?_, isFront⟩
    rw [← contents_eq]
    exact Function.update_of_ne apart ..
  case obtained => exact fun done => refines.obtained (phases_of_ne (by simp) done).2
  case target_old => exact refines.target_old
  case temporary_old => exact refines.temporary_old
  case reading_old => exact fun busy => refines.reading_old (phases_of_ne (by simp) busy).2
  case target_apart => exact refines.target_apart
  case reading_apart => exact fun busy => refines.reading_apart (phases_of_ne (by simp) busy).2

/-- A writer that has written everything puts its text in place of the file. -/
theorem rename (refines : Refines encode disk register) {process inode offset : Nat} {value : α}
    (writing : disk.phases process = .writing inode value offset)
    (whole : (encode value).length ≤ offset) :
    Refines encode ({ disk with temporary := none, target := some inode }.enter process .idle)
      (register.step (.rename process)) := by
  obtain ⟨intended, temporary_eq, contents_eq, -⟩ := refines.written writing
  have none_writing : ∀ other, (({ disk with temporary := none, target := some inode }.enter process
      .idle).phases other).isWriting = false := by
    intro other
    rw [phases_enter]
    split
    · rfl
    · rename_i different
      refine eq_false_of_ne_true fun writes => different ?_
      exact refines.alone writes (by rw [writing]; rfl)
  constructor
  case written =>
    intro other opened kept position busy
    have idle := none_writing other
    rw [busy] at idle
    cases idle
  case alone =>
    intro first second writes
    rw [none_writing] at writes
    cases writes
  case published =>
    change some (disk.contents inode) = (register.intended process).map encode
    rw [intended, contents_eq, List.take_of_length_le whole]
    rfl
  case opened => exact fun busy => refines.opened (phases_of_ne (by simp) busy).2
  case obtained => exact fun done => refines.obtained (phases_of_ne (by simp) done).2
  case target_old =>
    intro published same
    obtain rfl := Option.some.inj same
    exact refines.temporary_old temporary_eq
  case temporary_old => exact fun found => by cases found
  case reading_old => exact fun busy => refines.reading_old (phases_of_ne (by simp) busy).2
  case target_apart => exact fun found => by cases found
  case reading_apart => exact fun _ found => by cases found

theorem remove (refines : Refines encode disk register) :
    Refines encode { disk with target := none } (register.step .remove) :=
  { refines with
    published := rfl
    target_old := fun found => by cases found
    target_apart := fun _ found => by cases found }

/-- Every system call does to the disk what it does to the register. -/
theorem step [Inhabited β] (refines : Refines encode disk register) {action : Action α}
    {after : Disk α β} (alone : disk.Alone action)
    (stepped : disk.step encode action = some after) :
    Refines encode after (register.step action) := by
  cases action with
  | openTemporary process value =>
      simp only [Disk.step, Option.ite_none_right_eq_some] at stepped
      obtain ⟨-, stepped⟩ := stepped
      split at stepped
      · rename_i inode temporary_eq
        obtain rfl := Option.some.inj stepped
        have started := refines.startWriting alone (refines.target_apart temporary_eq)
          (fun other taken busy => refines.reading_apart busy temporary_eq) (Nat.le_refl _)
          (refines.temporary_old temporary_eq) process value
        rw [← temporary_eq] at started
        exact started
      · obtain rfl := Option.some.inj stepped
        refine refines.startWriting alone (fun found => ?_) (fun other taken busy => ?_)
          (Nat.le_succ _) (Nat.lt_succ_self _) process value
        · exact Nat.lt_irrefl _ (refines.target_old found)
        · exact Nat.lt_irrefl _ (refines.reading_old busy)
  | write process count =>
      simp only [Disk.step] at stepped
      split at stepped
      · rename_i inode value offset writing
        simp only [Option.ite_none_left_eq_some] at stepped
        obtain ⟨-, stepped⟩ := stepped
        obtain rfl := Option.some.inj stepped
        exact refines.write writing (List.take_prefix _ _)
      · cases stepped
  | rename process =>
      simp only [Disk.step] at stepped
      split at stepped
      · rename_i inode value offset writing
        simp only [Option.ite_none_left_eq_some, Nat.not_lt] at stepped
        obtain ⟨whole, stepped⟩ := stepped
        rw [(refines.written writing).2.1] at stepped
        obtain rfl := Option.some.inj stepped
        exact refines.rename writing whole
      · cases stepped
  | stop process =>
      simp only [Disk.step, Option.ite_none_left_eq_some] at stepped
      obtain rfl := Option.some.inj stepped.2
      exact refines.enter_idle process
  | remove =>
      obtain rfl := Option.some.inj stepped
      exact refines.remove
  | openFile process => exact refines.openFile process stepped
  | take process count =>
      simp only [Disk.step] at stepped
      split at stepped
      · rename_i inode taken reading
        split at stepped
        · rename_i all_read
          obtain rfl := Option.some.inj stepped
          exact refines.take reading (.inl ⟨rfl, all_read⟩)
        · rename_i byte rest left
          obtain rfl := Option.some.inj stepped
          exact refines.take reading (.inr ⟨count + 1, by rw [left]⟩)
      · cases stepped

end Refines

/-- While no two writers overlap, every run on the disk is one of the register: a reader that has
finished has found what the register held when it opened the file. -/
theorem refines_of_run [Inhabited β] {encode : α → List β} {actions : List (Action α)}
    {disk after : Disk α β} {register : Register α} (refines : Refines encode disk register)
    (alone : Guarded (Disk.step encode) Disk.Alone actions disk)
    (execution : run (Disk.step encode) actions disk = some after) :
    Refines encode after (actions.foldl Register.step register) := by
  induction actions generalizing disk register with
  | nil =>
      obtain rfl := Option.some.inj execution
      exact refines
  | cons action actions ih =>
      obtain ⟨middle, stepped, later⟩ := run_cons_eq_some.mp execution
      obtain ⟨permitted, alone⟩ := (guarded_cons stepped).mp alone
      exact ih (refines.step permitted stepped) alone later

/-- What a reader finds, from a file that holds a value or none. -/
theorem found_of_run [Inhabited β] {encode : α → List β} {actions : List (Action α)}
    {value : Option α} {leftover : List β} {after : Disk α β}
    (alone : Guarded (Disk.step encode) Disk.Alone actions (.holding encode value leftover))
    (execution : run (Disk.step encode) actions (.holding encode value leftover) = some after)
    {process : Nat} {found : Option (List β)} (read : after.phases process = .read found) :
    found = ((actions.foldl Register.step (.holding value)).found process).map encode :=
  (refines_of_run (.init value leftover) alone execution).obtained read

end FileReplacement
