import Mathlib.Data.List.Basic

/-!
# Programs that write

A program writes items one after the other and then returns, gives up, or waits for ever.  The last
section is about programs that conclude: they write one final item, as their last.
-/

/-- How a program ends. -/
inductive Ending (α : Type*) where
  | returned (value : α)
  /-- An error is passed on to the caller. -/
  | failed
  | waits
  deriving DecidableEq

/-- A program by what it writes and how it ends. -/
structure Writing (ω α : Type*) where
  written : List ω
  ending : Ending α
  deriving DecidableEq

namespace Writing

universe u

variable {ω : Type*} {α β : Type u}

def write (item : ω) : Writing ω Unit := { written := [item], ending := .returned () }

def writeAll (items : List ω) : Writing ω Unit := { written := items, ending := .returned () }

def fail : Writing ω α := { written := [], ending := .failed }

def wait : Writing ω α := { written := [], ending := .waits }

/-- One program after the other. -/
def andThen (first : Writing ω α) (next : α → Writing ω β) : Writing ω β :=
  match first.ending with
  | .returned value =>
      { written := first.written ++ (next value).written, ending := (next value).ending }
  | .failed => { written := first.written, ending := .failed }
  | .waits => { written := first.written, ending := .waits }

instance : Monad (Writing ω) where
  pure value := { written := [], ending := .returned value }
  bind := andThen

theorem bind_of_returned {first : Writing ω α} {value : α}
    (returned : first.ending = .returned value)
    (next : α → Writing ω β) :
    (first >>= next).written = first.written ++ (next value).written ∧
      (first >>= next).ending = (next value).ending := by
  have bind_eq : first >>= next = first.andThen next := rfl
  rw [bind_eq, andThen, returned]
  exact ⟨rfl, rfl⟩

theorem bind_of_not_returned {first : Writing ω α}
    (stopped : ∀ value, first.ending ≠ .returned value) (next : α → Writing ω β) :
    (first >>= next).written = first.written ∧
      ∀ value, (first >>= next).ending ≠ .returned value := by
  have bind_eq : first >>= next = first.andThen next := rfl
  rw [bind_eq, andThen]
  cases ending : first.ending with
  | returned value => exact absurd ending (stopped value)
  | failed => exact ⟨rfl, by simp⟩
  | waits => exact ⟨rfl, by simp⟩

theorem ending_bind_of_waits {first : Writing ω α} (waits : first.ending = .waits)
    (next : α → Writing ω β) : (first >>= next).ending = .waits := by
  have bind_eq : first >>= next = first.andThen next := rfl
  rw [bind_eq, andThen, waits]

/-! ## Concluding -/

variable (final : ω → Prop)

/-- Nothing that is written is final. -/
def Quiet (program : Writing ω α) : Prop := ∀ item ∈ program.written, ¬ final item

/-- One final item is written, and nothing after it. -/
def Concludes (program : Writing ω α) : Prop :=
  ∃ front last, program.written = front ++ [last] ∧ final last ∧ ∀ item ∈ front, ¬ final item

variable {final}

theorem quiet_pure (value : α) : Quiet final (pure value : Writing ω α) := fun _ member => by
  cases member

theorem quiet_write {item : ω} (not_final : ¬ final item) : Quiet final (write item) :=
  fun _ member => List.mem_singleton.mp member ▸ not_final

theorem quiet_writeAll {items : List ω} (not_final : ∀ item ∈ items, ¬ final item) :
    Quiet final (writeAll items) := not_final

theorem quiet_bind {first : Writing ω α} {next : α → Writing ω β} (quiet : Quiet final first)
    (next_quiet : ∀ value, first.ending = .returned value → Quiet final (next value)) :
    Quiet final (first >>= next) := by
  intro item member
  by_cases returns : ∃ value, first.ending = .returned value
  · obtain ⟨value, returned⟩ := returns
    rw [(bind_of_returned returned next).1, List.mem_append] at member
    rcases member with early | late
    · exact quiet item early
    · exact next_quiet value returned item late
  · rw [(bind_of_not_returned (not_exists.mp returns) next).1] at member
    exact quiet item member

theorem Concludes.not_quiet {program : Writing ω α} (concludes : Concludes final program) :
    ¬ Quiet final program := by
  obtain ⟨front, last, written_eq, is_final, -⟩ := concludes
  intro quiet
  exact quiet last (by simp [written_eq]) is_final

theorem concludes_write {item : ω} (is_final : final item) : Concludes final (write item) :=
  ⟨[], item, rfl, is_final, by simp⟩

/-- A quiet beginning leaves the conclusion to what follows it. -/
theorem concludes_bind_iff {first : Writing ω α} {next : α → Writing ω β}
    (quiet : Quiet final first) :
    Concludes final (first >>= next) ↔
      ∃ value, first.ending = .returned value ∧ Concludes final (next value) := by
  constructor
  · intro concludes
    by_cases returns : ∃ value, first.ending = .returned value
    · obtain ⟨value, returned⟩ := returns
      refine ⟨value, returned, ?_⟩
      obtain ⟨front, last, written_eq, is_final, quiet_front⟩ := concludes
      rw [(bind_of_returned returned next).1] at written_eq
      rcases List.eq_nil_or_concat' (next value).written with empty | ⟨middle, end_item, ends⟩
      · have last_quiet : last ∈ first.written := by
          rw [empty, List.append_nil] at written_eq
          simp [written_eq]
        exact absurd is_final (quiet last last_quiet)
      · rw [ends, ← List.append_assoc] at written_eq
        obtain ⟨rfl, same_last⟩ := List.append_inj' written_eq rfl
        obtain rfl := List.singleton_inj.mp same_last
        exact ⟨middle, end_item, ends, is_final, fun item member =>
          quiet_front item (List.mem_append_right _ member)⟩
    · have written_eq := (bind_of_not_returned (not_exists.mp returns) next).1
      exact absurd (fun item member => quiet item (written_eq ▸ member)) concludes.not_quiet
  · rintro ⟨value, returned, front, last, written_eq, is_final, quiet_front⟩
    refine ⟨first.written ++ front, last, ?_, is_final, fun item member => ?_⟩
    · rw [(bind_of_returned returned next).1, written_eq, List.append_assoc]
    · rcases List.mem_append.mp member with early | late
      · exact quiet item early
      · exact quiet_front item late

theorem concludes_bind {first : Writing ω α} {next : α → Writing ω β} {value : α}
    (quiet : Quiet final first) (returned : first.ending = .returned value)
    (concludes : Concludes final (next value)) : Concludes final (first >>= next) :=
  (concludes_bind_iff quiet).mpr ⟨value, returned, concludes⟩

/-- A value computed at the end writes nothing. -/
theorem concludes_bind_pure_iff {first : Writing ω α} (next : α → β) :
    Concludes final (first >>= fun value => pure (next value)) ↔ Concludes final first := by
  have written_eq : (first >>= fun value => pure (next value)).written = first.written := by
    by_cases returns : ∃ value, first.ending = .returned value
    · obtain ⟨value, returned⟩ := returns
      rw [(bind_of_returned returned _).1]
      exact List.append_nil _
    · exact (bind_of_not_returned (not_exists.mp returns) _).1
  rw [Concludes, Concludes, written_eq]

/-! ## Programs that go on or conclude -/

/-- A program waits for ever when it does not end; when it succeeds it leaves the conclusion to its
caller, otherwise it has concluded. -/
structure Settles (final : ω → Prop) (ends succeeds : Prop) (program : Writing ω Bool) : Prop where
  waits : ¬ ends → Quiet final program ∧ program.ending = .waits
  goes_on : ends → succeeds → Quiet final program ∧ program.ending = .returned true
  concludes : ends → ¬ succeeds → Concludes final program ∧ program.ending = .returned false

theorem settles_true : Settles final True True (pure true : Writing ω Bool) where
  waits never := absurd trivial never
  goes_on _ _ := ⟨quiet_pure true, rfl⟩
  concludes _ never := absurd trivial never

theorem settles_wait (final : ω → Prop) (succeeds : Prop) :
    Settles final False succeeds (wait : Writing ω Bool) where
  waits _ := ⟨fun _ member => (nomatch member), rfl⟩
  goes_on never := never.elim
  concludes never := never.elim

theorem Settles.congr {ends succeeds ends' succeeds' : Prop} {program : Writing ω Bool}
    (settles : Settles final ends succeeds program) (ends_iff : ends' ↔ ends)
    (succeeds_iff : succeeds' ↔ succeeds) : Settles final ends' succeeds' program := by
  rwa [propext ends_iff, propext succeeds_iff]

/-- Something quiet before it changes nothing. -/
theorem Settles.after {ends succeeds : Prop} {program : Writing ω Bool}
    {first : Writing ω PUnit.{1}} (settles : Settles final ends succeeds program)
    (quiet : Quiet final first)
    (returned : first.ending = .returned ⟨⟩) :
    Settles final ends succeeds (first >>= fun _ => program) := by
  have ending_eq := (bind_of_returned returned fun _ => program).2
  refine ⟨fun stuck => ?_, fun ended success => ?_, fun ended failure => ?_⟩
  · obtain ⟨program_quiet, waits⟩ := settles.waits stuck
    exact ⟨quiet_bind quiet fun _ _ => program_quiet, ending_eq.trans waits⟩
  · obtain ⟨program_quiet, done⟩ := settles.goes_on ended success
    exact ⟨quiet_bind quiet fun _ _ => program_quiet, ending_eq.trans done⟩
  · obtain ⟨concludes, done⟩ := settles.concludes ended failure
    exact ⟨concludes_bind quiet returned concludes, ending_eq.trans done⟩

/-- What a caller that stops at a failure makes of a conclusion. -/
theorem Settles.concludes_iff {ends succeeds : Prop} {first : Writing ω Bool}
    (settles : Settles final ends succeeds first) (next : Writing ω PUnit.{1}) :
    Concludes final (first >>= fun ok => if ok then next else pure ⟨⟩) ↔
      ends ∧ (succeeds → Concludes final next) := by
  by_cases ended : ends
  · by_cases success : succeeds
    · obtain ⟨quiet, returned⟩ := settles.goes_on ended success
      rw [concludes_bind_iff quiet]
      constructor
      · rintro ⟨value, same, concludes⟩
        obtain rfl : true = value := Ending.returned.inj (returned.symm.trans same)
        exact ⟨ended, fun _ => concludes⟩
      · rintro ⟨-, concludes⟩
        exact ⟨true, returned, concludes success⟩
    · obtain ⟨concludes, returned⟩ := settles.concludes ended success
      refine iff_of_true ?_ ⟨ended, fun succeeded => absurd succeeded success⟩
      rw [Concludes, (bind_of_returned returned _).1]
      exact (List.append_nil first.written).symm ▸ concludes
  · obtain ⟨quiet, waits⟩ := settles.waits ended
    refine iff_of_false (fun concludes => ?_) fun both => ended both.1
    obtain ⟨value, returned, -⟩ := (concludes_bind_iff quiet).mp concludes
    rw [waits] at returned
    cases returned

/-- One program after the other, while they succeed. -/
theorem Settles.bind {ends succeeds ends' succeeds' : Prop} {first second : Writing ω Bool}
    (settles : Settles final ends succeeds first) (next : Settles final ends' succeeds' second) :
    Settles final (ends ∧ (succeeds → ends')) (succeeds ∧ succeeds')
      (first >>= fun ok => if ok then second else pure false) := by
  by_cases ended : ends
  · by_cases success : succeeds
    · obtain ⟨quiet, returned⟩ := settles.goes_on ended success
      have ending_eq : (first >>= fun ok => if ok then second else pure false).ending =
          second.ending := (bind_of_returned returned _).2
      have quiet_of (second_quiet : Quiet final second) :
          Quiet final (first >>= fun ok => if ok then second else pure false) := by
        refine quiet_bind quiet fun value same => ?_
        obtain rfl : true = value := Ending.returned.inj (returned.symm.trans same)
        exact second_quiet
      refine ⟨fun stuck => ?_, fun both success => ?_, fun both failure => ?_⟩
      · obtain ⟨second_quiet, waits⟩ := next.waits fun ended' => stuck ⟨ended, fun _ => ended'⟩
        exact ⟨quiet_of second_quiet, ending_eq.trans waits⟩
      · obtain ⟨second_quiet, done⟩ := next.goes_on (both.2 success.1) success.2
        exact ⟨quiet_of second_quiet, ending_eq.trans done⟩
      · obtain ⟨concludes, done⟩ :=
          next.concludes (both.2 success) fun success' => failure ⟨success, success'⟩
        exact ⟨concludes_bind quiet returned concludes, ending_eq.trans done⟩
    · obtain ⟨concludes, returned⟩ := settles.concludes ended success
      obtain ⟨written_eq, ending_eq⟩ := bind_of_returned returned
        (fun ok => if ok then second else pure false)
      refine ⟨fun stuck => absurd ⟨ended, fun success' => absurd success' success⟩ stuck,
        fun _ both => absurd both.1 success, fun _ _ => ⟨?_, ending_eq⟩⟩
      rw [Concludes, written_eq]
      exact (List.append_nil first.written).symm ▸ concludes
  · obtain ⟨quiet, waits⟩ := settles.waits ended
    have stopped : ∀ value, first.ending ≠ .returned value := by simp [waits]
    have written_eq := (bind_of_not_returned stopped
      (fun ok => if ok then second else pure false)).1
    refine ⟨fun _ => ⟨fun item member => quiet item (written_eq ▸ member), ?_⟩,
      fun both => absurd both.1 ended, fun both => absurd both.1 ended⟩
    exact ending_bind_of_waits waits _

end Writing
