import Mathlib.Data.List.Basic
import Pelagos.Library.Writing

/-!
# Writing in pieces

A write may take only a part of what it is offered.  `writeAll` repeats it until everything has
been taken.  At all times a front of the items has been written, and all of them once it returns;
programs composed of such programs have the same property.
-/

namespace ShortWrites

universe u

variable {ω : Type*} {α β : Type u}

/-- A front of the items is written, and all of them if the program returns. -/
structure Delivers (program : Writing ω α) (items : List ω) : Prop where
  front : program.written <+: items
  whole : ∀ value, program.ending = .returned value → program.written = items

theorem delivers_pure (value : α) : Delivers (pure value : Writing ω α) [] where
  front := List.nil_prefix
  whole _ _ := rfl

theorem delivers_wait (items : List ω) : Delivers (Writing.wait : Writing ω α) items where
  front := List.nil_prefix
  whole value returned := by cases returned

theorem delivers_fail (items : List ω) : Delivers (Writing.fail : Writing ω α) items where
  front := List.nil_prefix
  whole value returned := by cases returned

theorem Delivers.bind {first : Writing ω α} {next : α → Writing ω β} {early late : List ω}
    (delivers : Delivers first early)
    (next_delivers : ∀ value, first.ending = .returned value → Delivers (next value) late) :
    Delivers (first >>= next) (early ++ late) := by
  by_cases returns : ∃ value, first.ending = .returned value
  · obtain ⟨value, returned⟩ := returns
    obtain ⟨written_eq, ending_eq⟩ := Writing.bind_of_returned returned next
    have later := next_delivers value returned
    have first_whole := delivers.whole value returned
    refine ⟨?_, fun result result_returned => ?_⟩
    · rw [written_eq, first_whole]
      exact (List.prefix_append_right_inj early).mpr later.front
    · rw [ending_eq] at result_returned
      rw [written_eq, first_whole, later.whole result result_returned]
  · obtain ⟨written_eq, stops⟩ := Writing.bind_of_not_returned (not_exists.mp returns) next
    refine ⟨?_, fun result result_returned => absurd result_returned (stops result)⟩
    rw [written_eq]
    exact delivers.front.trans (List.prefix_append early late)

theorem delivers_writeAll (items : List ω) : Delivers (Writing.writeAll items) items where
  front := List.prefix_rfl
  whole _ _ := rfl

/-- What one write returns. -/
inductive WriteResult where
  /-- This many and one more have been taken, or all that was offered where this is less. -/
  | taken (count : Nat)
  | failed
  deriving DecidableEq

/-- Write until everything has been taken.  The results that have not been used are returned; where
none is left the next write blocks. -/
def writeAll : List WriteResult → List ω → Writing ω (List WriteResult)
  | results, [] => pure results
  | [], _ :: _ => .wait
  | .failed :: _, _ :: _ => .fail
  | .taken count :: results, item :: items => do
      Writing.writeAll ((item :: items).take (count + 1))
      writeAll results ((item :: items).drop (count + 1))

/-- However short the writes are, the items are written in order and each at most once. -/
theorem writeAll_delivers (results : List WriteResult) (items : List ω) :
    Delivers (writeAll results items) items := by
  induction results, items using writeAll.induct with
  | case1 results =>
      rw [writeAll]
      exact delivers_pure results
  | case2 item items => exact delivers_wait _
  | case3 results item items => exact delivers_fail _
  | case4 count results item items ih =>
      have split := List.take_append_drop (count + 1) (item :: items)
      have taken := delivers_writeAll ((item :: items).take (count + 1))
      have later := taken.bind fun _ _ => ih
      rwa [split] at later

end ShortWrites
