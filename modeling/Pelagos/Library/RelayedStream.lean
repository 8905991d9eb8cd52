import Mathlib.Data.List.Basic

/-!
# A stream through a relay

A sender writes, a relay reads in pieces and writes in pieces, and a receiver reads in pieces.
Every item that was sent has been delivered, waits before, in or behind the relay, or was lost when
the relay ended; the order never changes.
-/

/-- One direction of a relayed connection. -/
structure RelayedStream (α : Type*) where
  sent : List α
  /-- Not yet read by the relay. -/
  entering : List α
  /-- Read by the relay and not yet written. -/
  held : List α
  /-- Written by the relay and not yet read by the receiver. -/
  leaving : List α
  delivered : List α
  /-- What the relay had not written when it ended, and what was sent later. -/
  lost : List α
  ended : Bool
  accounted : delivered ++ (leaving ++ (held ++ (entering ++ lost))) = sent
  nothing_behind : ended = true → held = [] ∧ entering = []
  nothing_lost : ended = false → lost = []

namespace RelayedStream

variable {α : Type*}

/-- Nothing has been sent. -/
def idle : RelayedStream α where
  sent := []
  entering := []
  held := []
  leaving := []
  delivered := []
  lost := []
  ended := false
  accounted := rfl
  nothing_behind := by simp
  nothing_lost := by simp

/-- The sender writes. -/
def send (stream : RelayedStream α) (items : List α) : RelayedStream α :=
  if ended : stream.ended = true then
    { stream with
      sent := stream.sent ++ items
      lost := stream.lost ++ items
      accounted := by simp [← stream.accounted]
      nothing_lost := by simp [ended] }
  else
    { stream with
      sent := stream.sent ++ items
      entering := stream.entering ++ items
      accounted := by
        simp [← stream.accounted, stream.nothing_lost (eq_false_of_ne_true ended)]
      nothing_behind := fun now => absurd now ended }

/-- The relay reads at most `count` items. -/
def takeIn (stream : RelayedStream α) (count : Nat) : RelayedStream α where
  __ := stream
  entering := stream.entering.drop count
  held := stream.held ++ stream.entering.take count
  accounted := by
    rw [← stream.accounted, List.append_assoc, ← List.append_assoc (stream.entering.take count),
      List.take_append_drop]
  nothing_behind ended := by
    obtain ⟨held, entering⟩ := stream.nothing_behind ended
    simp [held, entering]

/-- The relay writes at most `count` of the items it holds. -/
def passOn (stream : RelayedStream α) (count : Nat) : RelayedStream α where
  __ := stream
  held := stream.held.drop count
  leaving := stream.leaving ++ stream.held.take count
  accounted := by
    rw [← stream.accounted, List.append_assoc, ← List.append_assoc (stream.held.take count),
      List.take_append_drop]
  nothing_behind ended := by
    obtain ⟨held, entering⟩ := stream.nothing_behind ended
    simp [held, entering]

/-- The relay passes on all it has been sent. -/
def flush (stream : RelayedStream α) : RelayedStream α :=
  let taken := stream.takeIn stream.entering.length
  taken.passOn taken.held.length

/-- The receiver reads at most `count` items. -/
def deliver (stream : RelayedStream α) (count : Nat) : RelayedStream α where
  __ := stream
  leaving := stream.leaving.drop count
  delivered := stream.delivered ++ stream.leaving.take count
  accounted := by
    rw [← stream.accounted, List.append_assoc, ← List.append_assoc (stream.leaving.take count),
      List.take_append_drop]

/-- The relay ends. -/
def finish (stream : RelayedStream α) : RelayedStream α where
  __ := stream
  entering := []
  held := []
  lost := stream.held ++ (stream.entering ++ stream.lost)
  ended := true
  accounted := by rw [← stream.accounted, List.nil_append, List.nil_append]
  nothing_behind _ := ⟨rfl, rfl⟩
  nothing_lost := by simp

/-- What the receiver can still get. -/
def onTheWay (stream : RelayedStream α) : List α :=
  stream.leaving ++ (stream.held ++ stream.entering)

/-- What the relay has written. -/
def written (stream : RelayedStream α) : List α := stream.delivered ++ stream.leaving

/-- The receiver is at the end of the stream. -/
def Drained (stream : RelayedStream α) : Prop := stream.ended = true ∧ stream.leaving = []

instance [DecidableEq α] (stream : RelayedStream α) : Decidable stream.Drained :=
  inferInstanceAs (Decidable (_ ∧ _))

theorem delivered_onTheWay_lost (stream : RelayedStream α) :
    stream.delivered ++ (stream.onTheWay ++ stream.lost) = stream.sent := by
  rw [← stream.accounted, onTheWay]
  simp only [List.append_assoc]

theorem written_prefix (stream : RelayedStream α) : stream.written <+: stream.sent := by
  refine ⟨stream.held ++ (stream.entering ++ stream.lost), ?_⟩
  rw [written, List.append_assoc, stream.accounted]

theorem delivered_prefix (stream : RelayedStream α) : stream.delivered <+: stream.sent :=
  (List.prefix_append stream.delivered stream.leaving).trans stream.written_prefix

/-- Everything is written when nothing waits for the relay and nothing was lost. -/
theorem written_eq_sent_iff {stream : RelayedStream α} :
    stream.written = stream.sent ↔
      stream.held = [] ∧ stream.entering = [] ∧ stream.lost = [] := by
  rw [← stream.accounted, written, ← List.append_assoc, List.self_eq_append_right,
    List.append_eq_nil_iff, List.append_eq_nil_iff]

/-- Nothing is delivered before something is sent. -/
theorem delivered_of_unsent {stream : RelayedStream α} (unsent : stream.sent = []) :
    stream.delivered = [] := by
  have accounted := stream.accounted
  rw [unsent, List.append_eq_nil_iff] at accounted
  exact accounted.1

/-! ## What the operations change -/

@[simp]
theorem send_sent (stream : RelayedStream α) (items : List α) :
    (stream.send items).sent = stream.sent ++ items := by
  rw [send]
  split <;> rfl

@[simp]
theorem send_delivered (stream : RelayedStream α) (items : List α) :
    (stream.send items).delivered = stream.delivered := by
  rw [send]
  split <;> rfl

@[simp]
theorem takeIn_sent (stream : RelayedStream α) (count : Nat) :
    (stream.takeIn count).sent = stream.sent := rfl

@[simp]
theorem takeIn_delivered (stream : RelayedStream α) (count : Nat) :
    (stream.takeIn count).delivered = stream.delivered := rfl

@[simp]
theorem passOn_sent (stream : RelayedStream α) (count : Nat) :
    (stream.passOn count).sent = stream.sent := rfl

@[simp]
theorem passOn_delivered (stream : RelayedStream α) (count : Nat) :
    (stream.passOn count).delivered = stream.delivered := rfl

@[simp]
theorem flush_sent (stream : RelayedStream α) : stream.flush.sent = stream.sent := rfl

@[simp]
theorem flush_delivered (stream : RelayedStream α) :
    stream.flush.delivered = stream.delivered := rfl

@[simp]
theorem deliver_sent (stream : RelayedStream α) (count : Nat) :
    (stream.deliver count).sent = stream.sent := rfl

@[simp]
theorem deliver_delivered (stream : RelayedStream α) (count : Nat) :
    (stream.deliver count).delivered = stream.delivered ++ stream.leaving.take count := rfl

@[simp]
theorem finish_sent (stream : RelayedStream α) : stream.finish.sent = stream.sent := rfl

@[simp]
theorem finish_delivered (stream : RelayedStream α) :
    stream.finish.delivered = stream.delivered := rfl

/-! ## What the relay has written -/

@[simp]
theorem held_send (stream : RelayedStream α) (items : List α) :
    (stream.send items).held = stream.held := by
  rw [send]
  split <;> rfl

@[simp]
theorem written_send (stream : RelayedStream α) (items : List α) :
    (stream.send items).written = stream.written := by
  rw [send]
  split <;> rfl

@[simp]
theorem written_deliver (stream : RelayedStream α) (count : Nat) :
    (stream.deliver count).written = stream.written := by
  rw [written, deliver, List.append_assoc, List.take_append_drop]
  rfl

@[simp]
theorem written_finish (stream : RelayedStream α) : stream.finish.written = stream.written := rfl

/-- A relay that holds nothing passes on what it reads. -/
theorem written_passOn_takeIn {stream : RelayedStream α} (free : stream.held = []) {items : List α}
    (waits : items <+: stream.entering) :
    ((stream.takeIn items.length).passOn items.length).written = stream.written ++ items ∧
      ((stream.takeIn items.length).passOn items.length).held = [] := by
  have taken : stream.entering.take items.length = items :=
    (List.prefix_iff_eq_take.mp waits).symm
  simp [written, passOn, takeIn, free, taken]

/-! ## The end of the stream -/

theorem Drained.send {stream : RelayedStream α} (drained : stream.Drained) (items : List α) :
    (stream.send items).Drained := by
  rw [RelayedStream.send, dif_pos drained.1]
  exact drained

theorem Drained.takeIn {stream : RelayedStream α} (drained : stream.Drained) (count : Nat) :
    (stream.takeIn count).Drained := drained

theorem Drained.passOn {stream : RelayedStream α} (drained : stream.Drained) (count : Nat) :
    (stream.passOn count).Drained := by
  refine ⟨drained.1, ?_⟩
  rw [RelayedStream.passOn]
  simp [drained.2, (stream.nothing_behind drained.1).1]

theorem Drained.flush {stream : RelayedStream α} (drained : stream.Drained) :
    stream.flush.Drained :=
  (drained.takeIn _).passOn _

theorem Drained.deliver {stream : RelayedStream α} (drained : stream.Drained) (count : Nat) :
    (stream.deliver count).Drained := by
  refine ⟨drained.1, ?_⟩
  rw [RelayedStream.deliver]
  simp [drained.2]

theorem Drained.finish {stream : RelayedStream α} (drained : stream.Drained) :
    stream.finish.Drained := ⟨rfl, drained.2⟩

/-- The receiver is at the end of a stream whose last items were lost. -/
def CutOff (stream : RelayedStream α) : Prop := stream.Drained ∧ stream.lost ≠ []

theorem CutOff.send {stream : RelayedStream α} (cut : stream.CutOff) (items : List α) :
    (stream.send items).CutOff := by
  refine ⟨cut.1.send items, ?_⟩
  rw [RelayedStream.send, dif_pos cut.1.1]
  simp [cut.2]

theorem CutOff.takeIn {stream : RelayedStream α} (cut : stream.CutOff) (count : Nat) :
    (stream.takeIn count).CutOff := ⟨cut.1.takeIn count, cut.2⟩

theorem CutOff.passOn {stream : RelayedStream α} (cut : stream.CutOff) (count : Nat) :
    (stream.passOn count).CutOff := ⟨cut.1.passOn count, cut.2⟩

theorem CutOff.flush {stream : RelayedStream α} (cut : stream.CutOff) : stream.flush.CutOff :=
  ⟨cut.1.flush, cut.2⟩

theorem CutOff.deliver {stream : RelayedStream α} (cut : stream.CutOff) (count : Nat) :
    (stream.deliver count).CutOff := ⟨cut.1.deliver count, cut.2⟩

theorem CutOff.finish {stream : RelayedStream α} (cut : stream.CutOff) : stream.finish.CutOff := by
  refine ⟨cut.1.finish, ?_⟩
  rw [RelayedStream.finish]
  simp [cut.2]

/-- Nothing more arrives at the end of the stream. -/
theorem Drained.onTheWay {stream : RelayedStream α} (drained : stream.Drained) :
    stream.onTheWay = [] := by
  obtain ⟨held, entering⟩ := stream.nothing_behind drained.1
  rw [RelayedStream.onTheWay, drained.2, held, entering]
  rfl

end RelayedStream
