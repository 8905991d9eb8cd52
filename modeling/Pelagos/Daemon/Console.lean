import Pelagos.Library.Ring

/-!
# The console's ring buffer

The daemon keeps the most recent console output in a ring buffer and shows it to a client that
connects.  The ring holds the last bytes that were pushed, for every capacity and all slices.
-/

namespace Pelagos.Daemon

/-- `ConsoleRingBuffer`; the operations are undefined where the code would panic. -/
structure ConsoleRingBuffer where
  buf : List UInt8
  /-- Index of the oldest byte. -/
  head : Nat
  /-- Number of valid bytes. -/
  len : Nat

namespace ConsoleRingBuffer

def new (capacity : Nat) : ConsoleRingBuffer :=
  { buf := List.replicate capacity 0, head := 0, len := 0 }

/-- The body of the loop of `push_slice`. -/
def pushByte (ring : ConsoleRingBuffer) (byte : UInt8) : Option ConsoleRingBuffer :=
  let cap := ring.buf.length
  if cap = 0 then none
  else
    let tail := (ring.head + ring.len) % cap
    if cap ≤ tail then none
    else if ring.len < cap then
      some { ring with buf := ring.buf.set tail byte, len := ring.len + 1 }
    else some { ring with buf := ring.buf.set tail byte, head := (ring.head + 1) % cap }

/-- `push_slice`: of data longer than the ring only the last bytes matter. -/
def pushSlice (ring : ConsoleRingBuffer) (data : List UInt8) : Option ConsoleRingBuffer :=
  let cap := ring.buf.length
  (if cap < data.length then data.drop (data.length - cap) else data).foldlM pushByte ring

/-- What `replay_to_fd` writes. -/
def replaySegments (ring : ConsoleRingBuffer) : Option (List (List UInt8)) :=
  if ring.len = 0 then some []
  else
    let cap := ring.buf.length
    let firstEnd := ring.head + ring.len
    if firstEnd ≤ cap then some [(ring.buf.drop ring.head).take ring.len]
    else if cap < ring.head ∨ ring.len < cap - ring.head ∨
        cap < ring.len - (cap - ring.head) then none
    else some [ring.buf.drop ring.head, ring.buf.take (ring.len - (cap - ring.head))]

/-- `contents`, byte by byte. -/
def contents (ring : ConsoleRingBuffer) : Option (List UInt8) :=
  (List.range ring.len).mapM fun index =>
    if ring.buf.length = 0 then none else ring.buf[(ring.head + index) % ring.buf.length]?

/-- The invariant: the indices are inside the buffer, and the ring has the most recent of the pushed
bytes. -/
structure Holds (capacity : Nat) (pushed : List UInt8) (ring : ConsoleRingBuffer) : Prop where
  length_eq : ring.buf.length = capacity
  head_lt : 0 < capacity → ring.head < capacity
  len_le : ring.len ≤ capacity
  contents_eq : Ring.contents ring.buf ring.head ring.len = pushed.rtake capacity

theorem holds_new (capacity : Nat) : Holds capacity [] (new capacity) where
  length_eq := List.length_replicate
  head_lt positive := positive
  len_le := Nat.zero_le capacity
  contents_eq := by simp [new, Ring.contents]

theorem Holds.length_contents {capacity : Nat} {pushed : List UInt8} {ring : ConsoleRingBuffer}
    (holds : Holds capacity pushed ring) : (pushed.rtake capacity).length = ring.len := by
  rw [← holds.contents_eq]
  exact Ring.length_contents (holds.length_eq ▸ holds.len_le) ring.head

theorem Holds.pushByte {capacity : Nat} {pushed : List UInt8} {ring : ConsoleRingBuffer}
    (holds : Holds capacity pushed ring) (positive : 0 < capacity) (byte : UInt8) :
    ∃ next, ring.pushByte byte = some next ∧ Holds capacity (pushed ++ [byte]) next := by
  have stored := holds.length_contents
  obtain ⟨rfl, head_lt, len_le, contents_eq⟩ := holds
  have head_inside := head_lt positive
  have tail_inside : (ring.head + ring.len) % ring.buf.length < ring.buf.length :=
    Nat.mod_lt _ positive
  have recent := Ring.rtake_rtake_append ring.buf.length pushed [byte]
  simp only [ConsoleRingBuffer.pushByte]
  rw [if_neg positive.ne', if_neg tail_inside.not_ge]
  generalize pushed.rtake ring.buf.length = kept at stored contents_eq recent
  by_cases room : ring.len < ring.buf.length
  · rw [if_pos room]
    refine ⟨_, rfl, List.length_set, head_lt, room, ?_⟩
    rw [Ring.contents_push room, contents_eq, ← recent, Ring.rtake_of_length_le]
    rw [List.length_append, stored]
    exact room
  · rw [if_neg room]
    refine ⟨_, rfl, List.length_set, fun _ => Nat.mod_lt _ positive, len_le, ?_⟩
    have full : ring.len = ring.buf.length := by omega
    have tail_eq : (ring.head + ring.len) % ring.buf.length = ring.head := by
      rw [full, Nat.add_mod_right, Nat.mod_eq_of_lt head_inside]
    dsimp only
    rw [full] at stored contents_eq
    rw [tail_eq, full, Ring.contents_overwrite positive head_inside, contents_eq, ← recent,
      Ring.rtake_append_singleton stored positive]

theorem Holds.pushBytes {capacity : Nat} {pushed : List UInt8} {ring : ConsoleRingBuffer}
    (holds : Holds capacity pushed ring) {data : List UInt8}
    (positive : data ≠ [] → 0 < capacity) :
    ∃ next, data.foldlM ConsoleRingBuffer.pushByte ring = some next ∧
      Holds capacity (pushed ++ data) next := by
  induction data generalizing pushed ring with
  | nil => exact ⟨ring, rfl, by simpa using holds⟩
  | cons byte data ih =>
      obtain ⟨middle, step, next_holds⟩ := holds.pushByte (positive (by simp)) byte
      obtain ⟨final, steps, final_holds⟩ := ih next_holds fun _ => positive (by simp)
      refine ⟨final, ?_, by simpa using final_holds⟩
      rw [List.foldlM_cons, step]
      exact steps

theorem Holds.pushSlice {capacity : Nat} {pushed : List UInt8} {ring : ConsoleRingBuffer}
    (holds : Holds capacity pushed ring) (data : List UInt8) :
    ∃ next, ring.pushSlice data = some next ∧ Holds capacity (pushed ++ data) next := by
  rw [ConsoleRingBuffer.pushSlice, holds.length_eq]
  have kept_eq : (if capacity < data.length then data.drop (data.length - capacity) else data) =
      data.rtake capacity := by
    split
    · rfl
    · exact (Ring.rtake_of_length_le (by omega)).symm
  have positive : data.rtake capacity ≠ [] → 0 < capacity := by
    intro nonempty
    by_contra empty
    obtain rfl : capacity = 0 := by omega
    exact nonempty (List.rtake_zero data)
  obtain ⟨next, pushes, next_holds⟩ := holds.pushBytes positive
  refine ⟨next, by simpa only [kept_eq] using pushes, { next_holds with contents_eq := ?_ }⟩
  rw [next_holds.contents_eq, Ring.rtake_append_rtake]

theorem holds_pushSlices (capacity : Nat) (slices : List (List UInt8)) :
    ∃ ring, slices.foldlM ConsoleRingBuffer.pushSlice (new capacity) = some ring ∧
      Holds capacity slices.flatten ring := by
  induction slices using List.reverseRecOn with
  | nil => exact ⟨_, rfl, holds_new capacity⟩
  | append_singleton slices slice ih =>
      obtain ⟨middle, pushes, holds⟩ := ih
      obtain ⟨ring, push, ring_holds⟩ := holds.pushSlice slice
      refine ⟨ring, ?_, by simpa using ring_holds⟩
      rw [List.foldlM_append, pushes]
      simpa using push

theorem Holds.contents {capacity : Nat} {pushed : List UInt8} {ring : ConsoleRingBuffer}
    (holds : Holds capacity pushed ring) : ring.contents = some (pushed.rtake capacity) := by
  obtain ⟨rfl, head_lt, len_le, contents_eq⟩ := holds
  have stored := Ring.length_contents len_le ring.head
  have each : ∀ index < (Ring.contents ring.buf ring.head ring.len).length,
      (if ring.buf.length = 0 then none else ring.buf[(ring.head + index) % ring.buf.length]?) =
        (Ring.contents ring.buf ring.head ring.len)[index]? := by
    intro index small
    rw [stored] at small
    rw [if_neg (by omega), Ring.getElem?_contents small len_le]
  have read := Ring.mapM_range each
  rw [stored, contents_eq] at read
  exact read

/-- At most two pieces are written, and together they are the contents. -/
theorem Holds.replaySegments {capacity : Nat} {pushed : List UInt8} {ring : ConsoleRingBuffer}
    (holds : Holds capacity pushed ring) :
    ∃ segments, ring.replaySegments = some segments ∧ segments.length ≤ 2 ∧
      segments.flatten = pushed.rtake capacity := by
  obtain ⟨rfl, head_lt, len_le, contents_eq⟩ := holds
  rw [← contents_eq, ConsoleRingBuffer.replaySegments]
  by_cases empty : ring.len = 0
  · exact ⟨[], by simp [empty], by simp, by simp [empty, Ring.contents]⟩
  · have head_inside := head_lt (by omega)
    rw [if_neg empty]
    dsimp only
    by_cases contiguous : ring.head + ring.len ≤ ring.buf.length
    · rw [if_pos contiguous]
      exact ⟨_, rfl, by simp, by simp [Ring.contents_contiguous contiguous]⟩
    · rw [if_neg contiguous, if_neg (by omega)]
      refine ⟨_, rfl, by simp, ?_⟩
      rw [Ring.contents_wrapped head_inside.le (by omega) len_le]
      simp

/-- For every capacity and all pushes: nothing panics, the indices stay in the buffer, and the most
recent bytes are read back, in at most two pieces when they are replayed. -/
theorem ring_keeps_recent (capacity : Nat) (slices : List (List UInt8)) :
    ∃ ring, slices.foldlM ConsoleRingBuffer.pushSlice (new capacity) = some ring ∧
      (0 < capacity → ring.head < capacity) ∧ ring.len ≤ capacity ∧
      ring.contents = some (slices.flatten.rtake capacity) ∧
      ∃ segments, ring.replaySegments = some segments ∧ segments.length ≤ 2 ∧
        segments.flatten = slices.flatten.rtake capacity := by
  obtain ⟨ring, pushes, holds⟩ := holds_pushSlices capacity slices
  exact ⟨ring, pushes, holds.head_lt, holds.len_le, holds.contents, holds.replaySegments⟩

example : [[97, 98, 99, 100, 101], [102, 103]].foldlM ConsoleRingBuffer.pushSlice (new 4) >>=
    ConsoleRingBuffer.contents = some [100, 101, 102, 103] := by
  decide

end ConsoleRingBuffer

end Pelagos.Daemon
