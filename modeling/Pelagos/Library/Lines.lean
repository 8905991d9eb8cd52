import Mathlib.Data.List.Infix

/-!
# Lines of a byte stream

A line ends with a stop, usually the newline, and has no other.  A buffered reader takes what a read
returns into its buffer and consumes the buffer up to the first stop; it never consumes more than
the lines it has returned and the beginning of the next.
-/

namespace Lines

variable {α : Type*} {stop : α}

/-- The last item is the stop, and no other is. -/
def IsLine (stop : α) (line : List α) : Prop := ∃ body, line = body ++ [stop] ∧ stop ∉ body

/-- Two streams that begin with a line and are the same begin with the same line. -/
theorem IsLine.append_inj {first second back rest : List α} (first_line : IsLine stop first)
    (second_line : IsLine stop second) (same : first ++ back = second ++ rest) :
    first = second ∧ back = rest := by
  obtain ⟨body, rfl, body_free⟩ := first_line
  obtain ⟨other, rfl, other_free⟩ := second_line
  induction body generalizing other with
  | nil =>
      cases other with
      | nil =>
          simp only [List.nil_append, List.singleton_append, List.cons.injEq, true_and] at same
          exact ⟨rfl, same⟩
      | cons item other =>
          simp only [List.nil_append, List.cons_append, List.cons.injEq] at same
          exact absurd (same.1 ▸ List.mem_cons_self) other_free
  | cons item body ih =>
      cases other with
      | nil =>
          simp only [List.nil_append, List.cons_append, List.cons.injEq] at same
          exact absurd (same.1 ▸ List.mem_cons_self) body_free
      | cons head other =>
          simp only [List.cons_append, List.cons.injEq] at same
          obtain ⟨rfl, same⟩ := same
          have rest_free := fun member => body_free (List.mem_cons_of_mem item member)
          obtain ⟨tails, rfl⟩ := ih rest_free other
            (fun member => other_free (List.mem_cons_of_mem item member)) same
          exact ⟨congrArg (item :: ·) tails, rfl⟩

theorem IsLine.ne_nil {line : List α} (is_line : IsLine stop line) : line ≠ [] := by
  obtain ⟨body, rfl, -⟩ := is_line
  simp

theorem IsLine.stop_mem {line : List α} (is_line : IsLine stop line) : stop ∈ line := by
  obtain ⟨body, rfl, -⟩ := is_line
  simp

/-! ## Splitting at a stop -/

section Split

variable [DecidableEq α]

/-- Split after the first stop. -/
def takeThrough (stop : α) : List α → Option (List α × List α)
  | [] => none
  | item :: rest =>
      if item = stop then some ([item], rest)
      else (takeThrough stop rest).map fun split => (item :: split.1, split.2)

theorem takeThrough_eq_none {items : List α} : takeThrough stop items = none ↔ stop ∉ items := by
  induction items with
  | nil => simp [takeThrough]
  | cons item items ih =>
      by_cases here : item = stop
      · simp [takeThrough, here]
      · simp [takeThrough, here, ih, Ne.symm here]

theorem takeThrough_eq_some {items line rest : List α}
    (split : takeThrough stop items = some (line, rest)) :
    IsLine stop line ∧ items = line ++ rest := by
  induction items generalizing line with
  | nil => simp [takeThrough] at split
  | cons item items ih =>
      rw [takeThrough] at split
      split at split
      · rename_i here
        obtain ⟨rfl, rfl⟩ := Prod.mk.inj (Option.some.inj split)
        exact ⟨⟨[], by simp [here], by simp⟩, rfl⟩
      · rename_i elsewhere
        obtain ⟨⟨tail, back⟩, found, same⟩ := Option.map_eq_some_iff.mp split
        obtain ⟨rfl, rfl⟩ := Prod.mk.inj same
        obtain ⟨⟨body, rfl, free⟩, rfl⟩ := ih found
        refine ⟨⟨item :: body, rfl, ?_⟩, rfl⟩
        simp [free, Ne.symm elsewhere]

theorem takeThrough_append {line : List α} (is_line : IsLine stop line) (rest : List α) :
    takeThrough stop (line ++ rest) = some (line, rest) := by
  cases split : takeThrough stop (line ++ rest) with
  | none =>
      exact absurd (List.mem_append_left rest is_line.stop_mem) (takeThrough_eq_none.mp split)
  | some parts =>
      obtain ⟨other, back⟩ := parts
      obtain ⟨other_line, same⟩ := takeThrough_eq_some split
      obtain ⟨rfl, rfl⟩ := is_line.append_inj other_line same
      rfl

/-! ## The lines of a whole stream -/

/-- Split after every stop; what follows the last one is a line too. -/
def linesOf (stop : α) : List α → List (List α)
  | [] => []
  | item :: rest =>
      if item = stop then [item] :: linesOf stop rest
      else
        match linesOf stop rest with
        | [] => [[item]]
        | line :: lines => (item :: line) :: lines

@[simp]
theorem linesOf_nil : linesOf stop ([] : List α) = [] := rfl

theorem linesOf_append {line : List α} (is_line : IsLine stop line) (rest : List α) :
    linesOf stop (line ++ rest) = line :: linesOf stop rest := by
  obtain ⟨body, rfl, free⟩ := is_line
  induction body with
  | nil => simp [linesOf]
  | cons item body ih =>
      have elsewhere : item ≠ stop := fun here => free (here ▸ List.mem_cons_self)
      have later := ih fun member => free (List.mem_cons_of_mem item member)
      rw [List.cons_append, List.cons_append, linesOf, if_neg elsewhere, later]

theorem linesOf_of_free {items : List α} (free : stop ∉ items) (nonempty : items ≠ []) :
    linesOf stop items = [items] := by
  induction items with
  | nil => exact absurd rfl nonempty
  | cons item items ih =>
      have elsewhere : item ≠ stop := fun here => free (here ▸ List.mem_cons_self)
      rw [linesOf, if_neg elsewhere]
      cases items with
      | nil => rfl
      | cons next items =>
          rw [ih (fun member => free (List.mem_cons_of_mem item member)) (by simp)]

/-- A stream is empty, the beginning of a line, or a line and a shorter stream. -/
theorem lines_cases (stop : α) (items : List α) :
    items = [] ∨ (items ≠ [] ∧ stop ∉ items) ∨
      ∃ line rest, IsLine stop line ∧ items = line ++ rest ∧ rest.length < items.length := by
  cases split : takeThrough stop items with
  | none =>
      by_cases empty : items = []
      · exact Or.inl empty
      · exact Or.inr (Or.inl ⟨empty, takeThrough_eq_none.mp split⟩)
  | some parts =>
      obtain ⟨line, rest⟩ := parts
      obtain ⟨is_line, rfl⟩ := takeThrough_eq_some split
      have nonempty : 0 < line.length := List.length_pos_iff.mpr is_line.ne_nil
      refine Or.inr (Or.inr ⟨line, rest, is_line, rfl, ?_⟩)
      rw [List.length_append]
      omega

/-- Induction over the lines of a stream. -/
theorem lines_induction (stop : α) {motive : List α → Prop} (empty : motive [])
    (unterminated : ∀ items, items ≠ [] → stop ∉ items → motive items)
    (terminated : ∀ line rest, IsLine stop line → motive rest → motive (line ++ rest))
    (items : List α) : motive items := by
  induction size : items.length using Nat.strong_induction_on generalizing items with
  | _ size ih =>
      rcases lines_cases stop items with rfl | ⟨nonempty, free⟩ | ⟨line, rest, is_line, rfl, less⟩
      · exact empty
      · exact unterminated items nonempty free
      · exact terminated line rest is_line (ih rest.length (size ▸ less) rest rfl)

end Split

/-! ## Buffered readers -/

/-- A buffered reader in the middle of a line. -/
structure LineReader (α : Type*) where
  /-- What has been read from the stream and not been consumed. -/
  buffer : List α
  /-- The part of the line that has been consumed. -/
  started : List α
  deriving DecidableEq

namespace LineReader

/-- A reader that has read nothing. -/
def fresh : LineReader α := { buffer := [], started := [] }

/-- Take what a read returned into the buffer. -/
def fill (reader : LineReader α) (items : List α) : LineReader α :=
  { reader with buffer := reader.buffer ++ items }

/-- The reader has returned `lines` and holds the rest of what was delivered to it. -/
structure Holds (stop : α) (reader : LineReader α) (delivered : List α) (lines : List (List α)) :
    Prop where
  delivered_eq : delivered = lines.flatten ++ (reader.started ++ reader.buffer)
  started_free : stop ∉ reader.started

theorem holds_fresh : (fresh : LineReader α).Holds stop [] [] := ⟨rfl, by simp [fresh]⟩

theorem Holds.fill {reader : LineReader α} {delivered : List α} {lines : List (List α)}
    (holds : reader.Holds stop delivered lines) (items : List α) :
    (reader.fill items).Holds stop (delivered ++ items) lines := by
  refine ⟨?_, holds.started_free⟩
  rw [holds.delivered_eq, LineReader.fill]
  simp only [List.append_assoc]

variable [DecidableEq α]

/-- Consume the buffer up to the first stop; the line is returned when it is complete. -/
def scan (stop : α) (reader : LineReader α) : Option (List α) × LineReader α :=
  match takeThrough stop reader.buffer with
  | none => (none, { buffer := [], started := reader.started ++ reader.buffer })
  | some (front, rest) => (some (reader.started ++ front), { buffer := rest, started := [] })

theorem length_scan_lt (stop : α) {reader : LineReader α} (more : reader.buffer ≠ []) :
    (reader.scan stop).2.buffer.length < reader.buffer.length := by
  have some_buffered : 0 < reader.buffer.length := List.length_pos_iff.mpr more
  cases split : takeThrough stop reader.buffer with
  | none => simpa [scan, split] using some_buffered
  | some parts =>
      obtain ⟨⟨body, line_eq, -⟩, buffer_eq⟩ := takeThrough_eq_some split
      simp only [scan, split]
      rw [buffer_eq, line_eq]
      simp only [List.length_append, List.length_singleton]
      omega

/-- The buffer had no stop: all of it belongs to the line. -/
theorem Holds.scan_none {reader next : LineReader α} {delivered : List α} {lines : List (List α)}
    (holds : reader.Holds stop delivered lines) (scanned : reader.scan stop = (none, next)) :
    next.Holds stop delivered lines := by
  rw [LineReader.scan] at scanned
  split at scanned
  · rename_i unsplit
    obtain ⟨-, rfl⟩ := Prod.mk.inj scanned
    refine ⟨by simp [holds.delivered_eq], ?_⟩
    simp [holds.started_free, takeThrough_eq_none.mp unsplit]
  · simp at scanned

/-- A line was completed: it is a line, and what follows it stays in the buffer. -/
theorem Holds.scan_some {reader next : LineReader α} {delivered line : List α}
    {lines : List (List α)} (holds : reader.Holds stop delivered lines)
    (scanned : reader.scan stop = (some line, next)) :
    IsLine stop line ∧ next.started = [] ∧ next.Holds stop delivered (lines ++ [line]) := by
  rw [LineReader.scan] at scanned
  split at scanned
  · simp at scanned
  · rename_i front rest split
    obtain ⟨⟨body, rfl, body_free⟩, same⟩ := takeThrough_eq_some split
    simp only [Prod.mk.injEq, Option.some.injEq] at scanned
    obtain ⟨rfl, rfl⟩ := scanned
    refine ⟨⟨reader.started ++ body, by simp, ?_⟩, rfl, ?_, by simp⟩
    · simp [holds.started_free, body_free]
    · simp [holds.delivered_eq, same]

/-- A reader that holds the next line of a stream gets exactly that line. -/
theorem Holds.line_eq {reader next : LineReader α} {delivered line sent rest behind : List α}
    {lines : List (List α)} (holds : reader.Holds stop delivered lines)
    (scanned : reader.scan stop = (some line, next)) (sent_line : IsLine stop sent)
    (stream : delivered ++ behind = lines.flatten ++ (sent ++ rest)) :
    line = sent ∧ next.buffer ++ behind = rest := by
  obtain ⟨is_line, started_eq, later⟩ := holds.scan_some scanned
  have after_line : line ++ (next.buffer ++ behind) = sent ++ rest := by
    have streams := stream
    rw [later.delivered_eq, started_eq] at streams
    simpa using streams
  exact is_line.append_inj sent_line after_line

end LineReader

end Lines
