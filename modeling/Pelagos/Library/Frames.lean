import Pelagos.Library.ByteStream

/-!
# Length-prefixed frames

A frame is a type byte, the length of its payload in four bytes, and the payload.  A receiver that
reads frame after frame gets back the frames that were sent, whatever the pieces its reads return;
cut off anywhere, it gets the frames that arrived whole and then the end of the stream.
-/

namespace Frames

open ByteStream

/-- A typed message. -/
structure Frame where
  type : UInt8
  payload : List UInt8
  deriving DecidableEq

/-- The bytes of a frame; the length is taken modulo `2 ^ 32`. -/
def encode (frame : Frame) : List UInt8 :=
  [frame.type] ++ toBigEndian 4 frame.payload.length ++ frame.payload

/-- Read one frame. -/
def receive (pieces : Pieces UInt8) : Except ReadError (Frame × Pieces UInt8) := do
  let (type, pieces) ← readExact 1 pieces
  let (length, pieces) ← readExact 4 pieces
  let (payload, pieces) ← readExact (ofBigEndian length) pieces
  return ({ type := type.headD 0, payload }, pieces)

/-- Receiving again and again yields these frames and then this error. -/
inductive Receives (receive : Pieces UInt8 → Except ReadError (Frame × Pieces UInt8)) :
    Pieces UInt8 → List Frame → ReadError → Prop
  | stop {pieces error} (failed : receive pieces = .error error) : Receives receive pieces [] error
  | more {pieces frame rest frames error} (received : receive pieces = .ok (frame, rest))
      (later : Receives receive rest frames error) : Receives receive pieces (frame :: frames) error

/-- The payload's length fits its field. -/
def Frame.Fits (frame : Frame) : Prop := frame.payload.length < 256 ^ 4

theorem length_encode (frame : Frame) : (encode frame).length = 5 + frame.payload.length := by
  simp only [encode, List.length_append, List.length_singleton, length_toBigEndian]

theorem ofBigEndian_length {frame : Frame} (fits : frame.Fits) :
    ofBigEndian (toBigEndian 4 frame.payload.length) = frame.payload.length := by
  rw [ofBigEndian_toBigEndian, Nat.mod_eq_of_lt fits]

/-- A frame that has arrived whole is received, and what follows it stays in the stream. -/
theorem receive_encode {frame : Frame} (fits : frame.Fits) {pieces : Pieces UInt8}
    {back : List UInt8} (stream : contents pieces = encode frame ++ back) :
    ∃ rest, receive pieces = .ok (frame, rest) ∧ contents rest = back := by
  simp only [encode, List.append_assoc] at stream
  obtain ⟨typed, type_read, typed_eq⟩ := readExact_append stream
  obtain ⟨sized, length_read, sized_eq⟩ := readExact_append typed_eq
  obtain ⟨rest, payload_read, rest_eq⟩ := readExact_append sized_eq
  rw [length_toBigEndian] at length_read
  rw [List.length_singleton] at type_read
  refine ⟨rest, ?_, rest_eq⟩
  simp only [receive, type_read, length_read, ofBigEndian_length fits, payload_read, bind,
    Except.bind, List.headD_cons]
  rfl

/-- A received frame stands at the front of the stream. -/
theorem receive_sound {pieces rest : Pieces UInt8} {frame : Frame}
    (received : receive pieces = .ok (frame, rest)) :
    contents pieces = encode frame ++ contents rest ∧ frame.Fits := by
  cases type_read : readExact 1 pieces with
  | error error => simp [receive, type_read, bind, Except.bind] at received
  | ok typed =>
      obtain ⟨type, pieces₁⟩ := typed
      cases length_read : readExact 4 pieces₁ with
      | error error => simp [receive, type_read, length_read, bind, Except.bind] at received
      | ok sized =>
          obtain ⟨length, pieces₂⟩ := sized
          cases payload_read : readExact (ofBigEndian length) pieces₂ with
          | error error =>
              simp [receive, type_read, length_read, payload_read, bind, Except.bind] at received
          | ok whole =>
              obtain ⟨payload, pieces₃⟩ := whole
              obtain ⟨rfl, rfl⟩ : { type := type.headD 0, payload } = frame ∧ pieces₃ = rest := by
                simpa [receive, type_read, length_read, payload_read, bind, Except.bind, pure,
                  Except.pure] using received
              obtain ⟨type_front, type_length⟩ := readExact_sound type_read
              obtain ⟨length_front, length_length⟩ := readExact_sound length_read
              obtain ⟨payload_front, payload_length⟩ := readExact_sound payload_read
              obtain ⟨byte, rfl⟩ := List.length_eq_one_iff.mp type_length
              have fits : payload.length < 256 ^ 4 := by
                rw [payload_length, ← length_length]
                exact ofBigEndian_lt length
              have length_eq : toBigEndian 4 payload.length = length := by
                refine (ofBigEndian_inj (by rw [length_toBigEndian, length_length])).mp ?_
                rw [ofBigEndian_toBigEndian, Nat.mod_eq_of_lt fits, payload_length]
              refine ⟨?_, fits⟩
              rw [encode, length_eq, type_front, length_front, payload_front]
              simp

/-- A frame that was cut off is not received. -/
theorem receive_cut {frame : Frame} (fits : frame.Fits) {pieces : Pieces UInt8}
    (cut : contents pieces <+: encode frame)
    (short : (contents pieces).length < (encode frame).length) :
    receive pieces = .error .unexpectedEof := by
  cases stream : contents pieces with
  | nil =>
      have failed : readExact 1 pieces = .error .unexpectedEof := readExact_of_lt (by simp [stream])
      simp [receive, failed, bind, Except.bind]
  | cons type tail =>
      rw [stream] at cut short
      rw [encode, List.append_assoc, List.singleton_append] at cut
      obtain ⟨rfl, tail_cut⟩ := List.cons_prefix_cons.mp cut
      have typed_stream : contents pieces = [frame.type] ++ tail := stream
      obtain ⟨typed, type_read, typed_eq⟩ := readExact_append typed_stream
      rw [List.length_singleton] at type_read
      by_cases headless : tail.length < 4
      · have failed : readExact 4 typed = .error .unexpectedEof :=
          readExact_of_lt (by rw [typed_eq]; exact headless)
        simp [receive, type_read, failed, bind, Except.bind]
      · have header : toBigEndian 4 frame.payload.length <+: tail :=
          List.prefix_of_prefix_length_le (List.prefix_append _ _) tail_cut (by
            rw [length_toBigEndian]
            omega)
        obtain ⟨body, rfl⟩ := header
        obtain ⟨sized, length_read, sized_eq⟩ := readExact_append typed_eq
        rw [length_toBigEndian] at length_read
        have failed : readExact frame.payload.length sized = .error .unexpectedEof := by
          refine readExact_of_lt ?_
          rw [length_encode, List.length_cons, List.length_append, length_toBigEndian] at short
          rw [sized_eq]
          omega
        simp [receive, type_read, length_read, ofBigEndian_length fits, failed, bind, Except.bind]

/-! ## Sequences of frames -/

/-- The frames that lie wholly within the first `available` bytes. -/
def wholeFrames : Nat → List Frame → List Frame
  | _, [] => []
  | available, frame :: frames =>
      if (encode frame).length ≤ available then
        frame :: wholeFrames (available - (encode frame).length) frames
      else []

/-- The whole frames are the longest front of the sequence that fits. -/
theorem prefix_wholeFrames_iff {front frames : List Frame} {available : Nat} :
    front <+: wholeFrames available frames ↔
      front <+: frames ∧ (front.flatMap encode).length ≤ available := by
  induction frames generalizing front available with
  | nil =>
      rw [wholeFrames, List.prefix_nil]
      constructor
      · rintro rfl
        simp
      · exact And.left
  | cons frame frames ih =>
      cases front with
      | nil => simp
      | cons first front =>
          rw [wholeFrames]
          split
          · rename_i fits
            rw [List.cons_prefix_cons, List.cons_prefix_cons, ih, and_assoc, List.flatMap_cons,
              List.length_append]
            refine and_congr_right fun same => and_congr_right fun _ => ?_
            subst same
            omega
          · rename_i broken
            refine iff_of_false (by simp) ?_
            rintro ⟨same, fits⟩
            obtain ⟨rfl, -⟩ := List.cons_prefix_cons.mp same
            rw [List.flatMap_cons, List.length_append] at fits
            omega

theorem wholeFrames_all {frames : List Frame} {available : Nat}
    (enough : (frames.flatMap encode).length ≤ available) :
    wholeFrames available frames = frames := by
  have front : wholeFrames available frames <+: frames :=
    (prefix_wholeFrames_iff.mp List.prefix_rfl).1
  have whole : frames <+: wholeFrames available frames :=
    prefix_wholeFrames_iff.mpr ⟨List.prefix_rfl, enough⟩
  exact front.eq_of_length_le whole.length_le

/-- On a front of the bytes of a sequence of frames, exactly the whole frames are received. -/
theorem receives_of_front {frames : List Frame} (fits : ∀ frame ∈ frames, frame.Fits)
    {pieces : Pieces UInt8} (cut : contents pieces <+: frames.flatMap encode) :
    Receives receive pieces (wholeFrames (contents pieces).length frames) .unexpectedEof := by
  induction frames generalizing pieces with
  | nil =>
      have stream : contents pieces = [] := by simpa using cut
      exact .stop (by
        have failed : readExact 1 pieces = .error .unexpectedEof :=
          readExact_of_lt (by simp [stream])
        simp [receive, failed, bind, Except.bind])
  | cons frame frames ih =>
      have frame_fits := fits frame List.mem_cons_self
      rw [List.flatMap_cons] at cut
      by_cases whole : (encode frame).length ≤ (contents pieces).length
      · obtain ⟨back, stream⟩ := List.prefix_of_prefix_length_le (List.prefix_append _ _) cut whole
        obtain ⟨rest, received, rest_eq⟩ := receive_encode frame_fits stream.symm
        rw [← stream] at cut
        have rest_cut : contents rest <+: frames.flatMap encode :=
          rest_eq ▸ (List.prefix_append_right_inj _).mp cut
        have later := ih (fun frame member => fits frame (List.mem_cons_of_mem _ member)) rest_cut
        have left : (contents pieces).length - (encode frame).length = (contents rest).length := by
          rw [← stream, List.length_append, rest_eq, Nat.add_sub_cancel_left]
        rw [wholeFrames, if_pos whole, left]
        exact .more received later
      · rw [wholeFrames, if_neg whole]
        refine .stop (receive_cut frame_fits ?_ (Nat.lt_of_not_le whole))
        exact List.prefix_of_prefix_length_le cut (List.prefix_append _ _)
          (Nat.le_of_lt (Nat.lt_of_not_le whole))

/-- What is received is determined by the stream. -/
theorem Receives.unique {receive : Pieces UInt8 → Except ReadError (Frame × Pieces UInt8)}
    {pieces : Pieces UInt8} {left right : List Frame} {left_error right_error : ReadError}
    (first : Receives receive pieces left left_error)
    (second : Receives receive pieces right right_error) :
    left = right ∧ left_error = right_error := by
  induction first generalizing right with
  | stop failed =>
      cases second with
      | stop also => exact ⟨rfl, Except.error.inj (failed.symm.trans also)⟩
      | more received => cases failed.symm.trans received
  | more received later ih =>
      cases second with
      | stop failed => cases received.symm.trans failed
      | more also rest =>
          obtain ⟨rfl, rfl⟩ := Prod.mk.inj (Except.ok.inj (received.symm.trans also))
          obtain ⟨rfl, rfl⟩ := ih rest
          exact ⟨rfl, rfl⟩

/-- All of the bytes of a sequence of frames are received as this sequence. -/
theorem receives_all {frames : List Frame} (fits : ∀ frame ∈ frames, frame.Fits)
    {pieces : Pieces UInt8} (stream : contents pieces = frames.flatMap encode) :
    Receives receive pieces frames .unexpectedEof := by
  have cut : contents pieces <+: frames.flatMap encode := stream ▸ List.prefix_rfl
  have received := receives_of_front fits cut
  rwa [wholeFrames_all (Nat.le_of_eq (congrArg List.length stream).symm)] at received

end Frames
