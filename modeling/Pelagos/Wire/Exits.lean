import Pelagos.Wire.PipedOutput
import Pelagos.Wire.StreamedOutput

/-!
# Exit codes out of broken streams

Five loops of the host turn what arrives from the guest into the exit code of a command.  The loops
over response lines return 1 unless they read an exit response.  The loop over frames returns 1 too
where the stream ends or holds another frame, but takes an exit frame with a payload of the wrong
length for success.
-/

namespace Pelagos.Wire

open ByteStream Frames Lines

/-! ## The loop over frames -/

theorem length_recvFrame_lt {pieces rest : Pieces UInt8} {frame : Frame}
    (received : Host.recvFrame pieces = .ok (frame, rest)) :
    (contents rest).length < (contents pieces).length := by
  obtain ⟨stream, -⟩ := receive_sound received
  rw [stream, List.length_append, length_encode]
  omega

/-- `read_guest_frames`, reading frame after frame. -/
def readGuestStream (pieces : Pieces UInt8) : HostOutput :=
  match _received : Host.recvFrame pieces with
  | .error _ => { stdout := [], stderr := [], code := 1 }
  | .ok (frame, rest) =>
      if frame.type = frameStdout then
        let later := readGuestStream rest
        { later with stdout := frame.payload ++ later.stdout }
      else if frame.type = frameStderr then
        let later := readGuestStream rest
        { later with stderr := frame.payload ++ later.stderr }
      else if frame.type = frameExit then
        { stdout := [], stderr := [],
          code := if frame.payload.length = 4 then i32OfBytes frame.payload else 0 }
      else { stdout := [], stderr := [], code := 1 }
termination_by (contents pieces).length
decreasing_by all_goals exact length_recvFrame_lt _received

theorem readGuestStream_error {pieces : Pieces UInt8} {error : ReadError}
    (failed : Host.recvFrame pieces = .error error) :
    readGuestStream pieces = { stdout := [], stderr := [], code := 1 } := by
  rw [readGuestStream]
  split
  · rfl
  · rename_i received
    rw [failed] at received
    cases received

/-- The code returned at the first frame without output. -/
def codeOf (frame : Frame) : Int32 :=
  if frame.type = frameExit then
    if frame.payload.length = 4 then i32OfBytes frame.payload else 0
  else 1

theorem readGuestStream_ok {pieces rest : Pieces UInt8} {frame : Frame}
    (received : Host.recvFrame pieces = .ok (frame, rest)) :
    readGuestStream pieces =
      if frame.type = frameStdout then
        { readGuestStream rest with stdout := frame.payload ++ (readGuestStream rest).stdout }
      else if frame.type = frameStderr then
        { readGuestStream rest with stderr := frame.payload ++ (readGuestStream rest).stderr }
      else { stdout := [], stderr := [], code := codeOf frame } := by
  rw [readGuestStream]
  split
  · rename_i failed
    rw [received] at failed
    cases failed
  · rename_i other_frame other_rest other
    obtain ⟨rfl, rfl⟩ := Prod.mk.inj (Except.ok.inj (received.symm.trans other))
    by_cases stdout : frame.type = frameStdout
    · rw [if_pos stdout, if_pos stdout]
    · by_cases stderr : frame.type = frameStderr
      · rw [if_neg stdout, if_neg stdout, if_pos stderr, if_pos stderr]
      · rw [if_neg stdout, if_neg stdout, if_neg stderr, if_neg stderr, codeOf]
        split <;> rfl

/-- The loop does with a stream what it does with the frames that are received from it. -/
theorem readGuestStream_eq {pieces : Pieces UInt8} {frames : List Frame} {error : ReadError}
    (receives : Receives Host.recvFrame pieces frames error) :
    readGuestStream pieces = readGuestFrames frames := by
  induction receives with
  | stop failed =>
      rw [readGuestStream_error failed]
      rfl
  | @more pieces frame rest frames error received later ih =>
      rw [readGuestStream_ok received, ih, readGuestFrames, codeOf]
      by_cases exited : frame.type = frameExit
      · rw [if_pos exited, if_pos exited]
      · rw [if_neg exited, if_neg exited]

/-- The frame carries output. -/
def CarriesOutput (frame : Frame) : Prop :=
  frame.type = frameStdout ∨ frame.type = frameStderr

instance (frame : Frame) : Decidable (CarriesOutput frame) := instDecidableOr

/-- The frame arrives whole and is the first one that carries no output. -/
def FirstOther (bytes : List UInt8) (frame : Frame) : Prop :=
  ∃ (frames : List Frame) (back : List UInt8),
    (∀ earlier ∈ frames, earlier.Fits ∧ CarriesOutput earlier) ∧ frame.Fits ∧
      ¬CarriesOutput frame ∧ bytes = frames.flatMap encode ++ (encode frame ++ back)

theorem code_of_output {pieces rest : Pieces UInt8} {frame : Frame}
    (received : Host.recvFrame pieces = .ok (frame, rest)) (output : CarriesOutput frame) :
    (readGuestStream pieces).code = (readGuestStream rest).code := by
  rw [readGuestStream_ok received]
  rcases output with stdout | stderr
  · rw [if_pos stdout]
  · by_cases stdout : frame.type = frameStdout
    · rw [if_pos stdout]
    · rw [if_neg stdout, if_pos stderr]

theorem code_of_other {pieces rest : Pieces UInt8} {frame : Frame}
    (received : Host.recvFrame pieces = .ok (frame, rest)) (other : ¬CarriesOutput frame) :
    (readGuestStream pieces).code = codeOf frame := by
  obtain ⟨not_stdout, not_stderr⟩ := not_or.mp other
  rw [readGuestStream_ok received, if_neg not_stdout, if_neg not_stderr]

/-- The loop returns at the first frame that carries no output. -/
theorem code_of_firstOther {pieces : Pieces UInt8} {frame : Frame}
    (first : FirstOther (contents pieces) frame) :
    (readGuestStream pieces).code = codeOf frame := by
  obtain ⟨frames, back, output, fits, other, stream⟩ := first
  induction frames generalizing pieces with
  | nil =>
      obtain ⟨rest, received, -⟩ := receive_encode fits stream
      exact code_of_other received other
  | cons earlier frames ih =>
      obtain ⟨⟨earlier_fits, earlier_output⟩, output_rest⟩ := List.forall_mem_cons.mp output
      rw [List.flatMap_cons, List.append_assoc] at stream
      obtain ⟨rest, received, rest_eq⟩ := receive_encode earlier_fits stream
      rw [code_of_output received earlier_output]
      exact ih output_rest rest_eq

/-- Without such a frame the loop returns 1. -/
theorem code_cases (pieces : Pieces UInt8) :
    (readGuestStream pieces).code = 1 ∨ ∃ frame, FirstOther (contents pieces) frame := by
  induction size : (contents pieces).length using Nat.strong_induction_on generalizing pieces with
  | _ size ih =>
      cases received : Host.recvFrame pieces with
      | error error => exact .inl (by rw [readGuestStream_error received])
      | ok parts =>
          obtain ⟨frame, rest⟩ := parts
          obtain ⟨stream, fits⟩ := receive_sound received
          by_cases output : CarriesOutput frame
          · rw [code_of_output received output]
            refine (ih _ (size ▸ length_recvFrame_lt received) rest rfl).imp_right ?_
            rintro ⟨first, frames, back, earlier, first_fits, other, rest_eq⟩
            refine ⟨first, frame :: frames, back, ?_, first_fits, other, ?_⟩
            · exact List.forall_mem_cons.mpr ⟨⟨fits, output⟩, earlier⟩
            · rw [stream, rest_eq, List.flatMap_cons, List.append_assoc]
          · exact .inr ⟨frame, [], contents rest, by simp, fits, output, stream⟩

/-! ## The frame a stream decides on -/

/-- No frame is the beginning of another. -/
theorem encode_append_inj {frame other : Frame} (fits : frame.Fits) (other_fits : other.Fits)
    {back other_back : List UInt8} (same : encode frame ++ back = encode other ++ other_back) :
    frame = other ∧ back = other_back := by
  have nonempty : encode frame ++ back ≠ [] := by simp [encode]
  let pieces : Pieces UInt8 := [⟨encode frame ++ back, nonempty⟩]
  have stream : contents pieces = encode frame ++ back := by simp [pieces]
  obtain ⟨rest, received, rest_eq⟩ := receive_encode fits stream
  obtain ⟨other_rest, other_received, other_eq⟩ :=
    receive_encode other_fits (stream.trans same)
  rw [received] at other_received
  obtain ⟨frame_eq, rfl⟩ := Prod.mk.inj (Except.ok.inj other_received)
  exact ⟨frame_eq, rest_eq.symm.trans other_eq⟩

theorem firstOther_unique {bytes : List UInt8} {frame other : Frame}
    (first : FirstOther bytes frame) (first' : FirstOther bytes other) : frame = other := by
  obtain ⟨frames, back, output, fits, no_output, rfl⟩ := first
  obtain ⟨frames', back', output', fits', no_output', same⟩ := first'
  induction frames generalizing frames' with
  | nil =>
      cases frames' with
      | nil => exact (encode_append_inj fits fits' same).1
      | cons earlier frames' =>
          obtain ⟨⟨earlier_fits, earlier_output⟩, -⟩ := List.forall_mem_cons.mp output'
          rw [List.flatMap_cons, List.append_assoc] at same
          obtain ⟨rfl, -⟩ := encode_append_inj fits earlier_fits same
          exact absurd earlier_output no_output
  | cons earlier frames ih =>
      obtain ⟨⟨earlier_fits, earlier_output⟩, output_rest⟩ := List.forall_mem_cons.mp output
      rw [List.flatMap_cons, List.append_assoc] at same
      cases frames' with
      | nil =>
          obtain ⟨rfl, -⟩ := encode_append_inj earlier_fits fits' same
          exact absurd earlier_output no_output'
      | cons earlier' frames' =>
          obtain ⟨⟨earlier_fits', -⟩, output_rest'⟩ := List.forall_mem_cons.mp output'
          rw [List.flatMap_cons, List.append_assoc] at same
          obtain ⟨-, rest_same⟩ := encode_append_inj earlier_fits earlier_fits' same
          exact ih output_rest frames' output_rest' rest_same

/-- The exit frame of a successful command. -/
def successFrame : Frame := { type := frameExit, payload := [0, 0, 0, 0] }

theorem codeOf_of_type_ne {frame : Frame} (other : frame.type ≠ frameExit) : codeOf frame = 1 :=
  if_neg other

/-- Of the exit frames with four bytes only this one is success. -/
theorem eq_successFrame {frame : Frame} (exit : frame.type = frameExit)
    (four : frame.payload.length = 4) (success : codeOf frame = 0) : frame = successFrame := by
  rw [codeOf, if_pos exit, if_pos four, i32OfBytes] at success
  have zero : UInt32.ofNat (ofBigEndian frame.payload) = 0 := by
    have back := congrArg Int32.toUInt32 success
    rwa [UInt32.toUInt32_toInt32] at back
  have small : ofBigEndian frame.payload < 2 ^ 32 := by
    have bound := ofBigEndian_lt frame.payload
    rwa [four] at bound
  have value : ofBigEndian frame.payload = ofBigEndian [0, 0, 0, 0] := by
    have number := congrArg UInt32.toNat zero
    rw [UInt32.toNat_ofNat', Nat.mod_eq_of_lt small] at number
    exact number
  have payload_eq : frame.payload = [0, 0, 0, 0] := (ofBigEndian_inj four).mp value
  cases frame
  simp_all [successFrame]

/-! ## The loops over response lines -/

/-- How the connection behaves behind the last byte. -/
inductive StreamEnd where
  | closed
  | failed
  deriving DecidableEq

/-- `read_line`: a line with its newline, or what is left when the stream is closed; `none` at the
end and where the stream fails. -/
def readLine (ending : StreamEnd) (bytes : List UInt8) : Option (List UInt8 × List UInt8) :=
  match takeThrough Json.newline bytes with
  | some found => some found
  | none => if ending = .closed ∧ bytes ≠ [] then some (bytes, []) else none

theorem readLine_sound {ending : StreamEnd} {bytes line rest : List UInt8}
    (read : readLine ending bytes = some (line, rest)) : bytes = line ++ rest ∧ line ≠ [] := by
  unfold readLine at read
  split at read
  · rename_i found split
    obtain rfl := Option.some.inj read
    obtain ⟨is_line, bytes_eq⟩ := takeThrough_eq_some split
    exact ⟨bytes_eq, is_line.ne_nil⟩
  · split at read
    · rename_i more
      obtain ⟨rfl, rfl⟩ := Prod.mk.inj (Option.some.inj read)
      exact ⟨(List.append_nil _).symm, more.2⟩
    · cases read

theorem length_readLine_lt {ending : StreamEnd} {bytes line rest : List UInt8}
    (read : readLine ending bytes = some (line, rest)) : rest.length < bytes.length := by
  obtain ⟨bytes_eq, nonempty⟩ := readLine_sound read
  have positive := List.length_pos_iff.mpr nonempty
  rw [bytes_eq, List.length_append]
  omega

/-- What the host makes of a line. -/
inductive LineMeaning where
  /-- It is no text, or no response. -/
  | unreadable
  | blank
  | response (response : Host.GuestResponse)
  deriving DecidableEq

/-- The test of the line that the response loops share. -/
def meaning (line : List UInt8) : LineMeaning :=
  match Utf8.decode line with
  | none => .unreadable
  | some text =>
      let trimmed := Text.trimEnd text
      if trimmed = "" then .blank
      else
        match Host.GuestResponse.ofLine trimmed with
        | .ok response => .response response
        | .error _ => .unreadable

/-- The loop of `passthrough_command`, `build_command` and `cp_to_command`. -/
def relayResponses (ending : StreamEnd) (host : Passthrough) (bytes : List UInt8) : Passthrough :=
  match _read : readLine ending bytes with
  | none => { host with returned := some 1 }
  | some (line, rest) =>
      let next := host.handleLine line
      if next.returned = none then relayResponses ending next rest else next
termination_by bytes.length
decreasing_by exact length_readLine_lt _read

/-- The code of a command whose earlier steps end as listed: 1 when one of them fails. -/
def commandCode (setup : List Bool) (ending : StreamEnd) (bytes : List UInt8) : Int32 :=
  if setup.all id then ((relayResponses ending .start bytes).returned).getD 1 else 1

/-- `passthrough_command`; the command is sent first. -/
def passthroughCommand (sent : Bool) (ending : StreamEnd) (bytes : List UInt8) : Int32 :=
  commandCode [sent] ending bytes

/-- `build_command`; the scratch directory, its copy of the context and of the Dockerfile, the
archive and its size come first, then the header and the archive are sent. -/
def buildCommand (scratch contextCopied dockerfileCopied packed measured header archive : Bool)
    (ending : StreamEnd) (bytes : List UInt8) : Int32 :=
  commandCode [scratch, contextCopied, dockerfileCopied, packed, measured, header, archive] ending
    bytes

/-- `cp_to_command`; the archive and its size come first, then the header and the archive, once it
is opened, are sent. -/
def cpToCommand (packed measured header opened archive : Bool) (ending : StreamEnd)
    (bytes : List UInt8) : Int32 :=
  commandCode [packed, measured, header, opened, archive] ending bytes

/-- The loop of `cp_from_command`; `extracts` tells of each payload whether it is unpacked. -/
def receiveCopy (extracts : Nat → List UInt8 → Bool) (ending : StreamEnd) (count : Nat)
    (bytes : List UInt8) : Int32 :=
  match _read : readLine ending bytes with
  | none => 1
  | some (line, rest) =>
      match meaning line with
      | .unreadable => 1
      | .blank => receiveCopy extracts ending count rest
      | .response (.rawBytes size) =>
          if ending = .failed ∧ rest.length < size.toNat then 1
          else if extracts count (rest.take size.toNat) then
            receiveCopy extracts ending (count + 1) (rest.drop size.toNat)
          else 1
      | .response (.error _) => 1
      | .response (.exit exit) => exit
      | .response _ => receiveCopy extracts ending count rest
termination_by bytes.length
decreasing_by
  · exact length_readLine_lt _read
  · rw [List.length_drop]
    exact Nat.lt_of_le_of_lt (Nat.sub_le _ _) (length_readLine_lt _read)
  · exact length_readLine_lt _read

/-- `cp_from_command`; the command is sent first. -/
def cpFromCommand (extracts : Nat → List UInt8 → Bool) (sent : Bool) (ending : StreamEnd)
    (bytes : List UInt8) : Int32 :=
  if sent then receiveCopy extracts ending 0 bytes else 1

/-! ## Exit responses that are reached -/

/-- The loops go on behind such a line; `payloads` tells whether raw bytes are announced by a
response. -/
def LineMeaning.Passes (payloads : Bool) : LineMeaning → Prop
  | .unreadable => False
  | .blank => True
  | .response (.exit _) | .response (.error _) => False
  | .response (.rawBytes _) => payloads = false
  | .response _ => True

/-- The stream holds an exit response that is reached from its front over lines that pass, and over
the announced payloads. -/
inductive ExitReached (payloads : Bool) (ending : StreamEnd) (code : Int32) : List UInt8 → Prop
  | here {bytes line rest} (read : readLine ending bytes = some (line, rest))
      (exit : meaning line = .response (.exit code)) : ExitReached payloads ending code bytes
  | behindLine {bytes line rest} (read : readLine ending bytes = some (line, rest))
      (passes : (meaning line).Passes payloads) (reached : ExitReached payloads ending code rest) :
      ExitReached payloads ending code bytes
  | behindPayload {bytes line rest size} (read : readLine ending bytes = some (line, rest))
      (announced : meaning line = .response (.rawBytes size)) (skipped : payloads = true)
      (reached : ExitReached payloads ending code (rest.drop size.toNat)) :
      ExitReached payloads ending code bytes

/-- What a line does to the host depends on its meaning only. -/
theorem handleLine_returned {host : Passthrough} (running : host.returned = none)
    (line : List UInt8) :
    (host.handleLine line).returned =
      match meaning line with
      | .unreadable => some 1
      | .response (.exit exit) => some exit
      | .response (.error _) => some 1
      | _ => none := by
  unfold Passthrough.handleLine meaning
  cases Utf8.decode line with
  | none => rfl
  | some text =>
      dsimp only
      by_cases blank : Text.trimEnd text = ""
      · rw [if_pos blank, if_pos blank, running]
      · rw [if_neg blank, if_neg blank]
        cases Host.GuestResponse.ofLine (Text.trimEnd text) with
        | error error => rfl
        | ok response => cases response <;> first | rfl | exact running

/-- The loop always returns, and with another code than 1 only at an exit response. -/
theorem relayResponses_cases (ending : StreamEnd) {host : Passthrough}
    (running : host.returned = none) (bytes : List UInt8) :
    ∃ code, (relayResponses ending host bytes).returned = some code ∧
      (code = 1 ∨ ExitReached false ending code bytes) := by
  induction length_eq : bytes.length using Nat.strong_induction_on generalizing bytes host with
  | _ length ih =>
      rw [relayResponses]
      split
      · exact ⟨1, rfl, .inl rfl⟩
      · rename_i line rest read
        have returned := handleLine_returned running line
        dsimp only
        by_cases goes_on : (host.handleLine line).returned = none
        · rw [if_pos goes_on]
          have passes : (meaning line).Passes false := by
            rw [goes_on] at returned
            cases means : meaning line with
            | unreadable => simp [means] at returned
            | blank => trivial
            | response response =>
                cases response <;> first | trivial | simp [means] at returned
          obtain ⟨code, code_eq, reached⟩ :=
            ih _ (length_eq ▸ length_readLine_lt read) goes_on rest rfl
          exact ⟨code, code_eq, reached.imp_right (.behindLine read passes)⟩
        · rw [if_neg goes_on]
          cases means : meaning line with
          | unreadable => exact ⟨1, by rw [returned, means], .inl rfl⟩
          | blank => exact absurd (by rw [returned, means]) goes_on
          | response response =>
              cases response with
              | exit code => exact ⟨code, by rw [returned, means], .inr (.here read means)⟩
              | error message => exact ⟨1, by rw [returned, means], .inl rfl⟩
              | _ => exact absurd (by rw [returned, means]) goes_on

theorem commandCode_cases (setup : List Bool) (ending : StreamEnd) (bytes : List UInt8) :
    commandCode setup ending bytes = 1 ∨
      ExitReached false ending (commandCode setup ending bytes) bytes := by
  unfold commandCode
  split
  · have running : Passthrough.start.returned = none := rfl
    obtain ⟨code, returned, reached⟩ := relayResponses_cases ending running bytes
    rw [returned]
    exact reached
  · exact .inl rfl

/-- The same for the loop that skips payloads. -/
theorem receiveCopy_cases (extracts : Nat → List UInt8 → Bool) (ending : StreamEnd) (count : Nat)
    (bytes : List UInt8) :
    receiveCopy extracts ending count bytes = 1 ∨
      ExitReached true ending (receiveCopy extracts ending count bytes) bytes := by
  induction length_eq : bytes.length using Nat.strong_induction_on generalizing bytes count with
  | _ length ih =>
      rw [receiveCopy]
      split
      · exact .inl rfl
      · rename_i line rest read
        have shorter := length_readLine_lt read
        have later (count : Nat) := ih _ (length_eq ▸ shorter) count rest rfl
        cases means : meaning line with
        | unreadable => exact .inl rfl
        | blank => exact (later count).imp_right (.behindLine read (by rw [means]; trivial))
        | response response =>
            cases response with
            | exit code => exact .inr (.here read means)
            | error message => exact .inl rfl
            | rawBytes announced =>
                dsimp only
                split
                · exact .inl rfl
                · split
                  · have behind : (rest.drop announced.toNat).length < bytes.length := by
                      rw [List.length_drop]
                      exact Nat.lt_of_le_of_lt (Nat.sub_le _ _) shorter
                    exact (ih _ (length_eq ▸ behind) (count + 1) _ rfl).imp_right
                      (.behindPayload read means rfl)
                  · exact .inl rfl
            | _ => exact (later count).imp_right (.behindLine read (by rw [means]; trivial))

/-! ## No false success -/

/-- The five functions return 0 only where the stream says so. -/
structure NoFalseSuccess (pieces : Pieces UInt8) : Prop where
  frames : (readGuestStream pieces).code = 0 → FirstOther (contents pieces) successFrame
  passthrough : ∀ sent ending, passthroughCommand sent ending (contents pieces) = 0 →
    ExitReached false ending 0 (contents pieces)
  build : ∀ scratch contextCopied dockerfileCopied packed measured header archive ending,
    buildCommand scratch contextCopied dockerfileCopied packed measured header archive ending
        (contents pieces) = 0 →
      ExitReached false ending 0 (contents pieces)
  cpFrom : ∀ extracts sent ending, cpFromCommand extracts sent ending (contents pieces) = 0 →
    ExitReached true ending 0 (contents pieces)
  cpTo : ∀ packed measured header opened archive ending,
    cpToCommand packed measured header opened archive ending (contents pieces) = 0 →
      ExitReached false ending 0 (contents pieces)

theorem exitReached_of_commandCode {setup : List Bool} {ending : StreamEnd} {bytes : List UInt8}
    (success : commandCode setup ending bytes = 0) : ExitReached false ending 0 bytes := by
  have reached := commandCode_cases setup ending bytes
  rw [success] at reached
  exact reached.resolve_left (by decide)

theorem exitReached_of_cpFrom {extracts : Nat → List UInt8 → Bool} {sent : Bool}
    {ending : StreamEnd} {bytes : List UInt8}
    (success : cpFromCommand extracts sent ending bytes = 0) : ExitReached true ending 0 bytes := by
  unfold cpFromCommand at success
  split at success
  · have reached := receiveCopy_cases extracts ending 0 bytes
    rw [success] at reached
    exact reached.resolve_left (by decide)
  · exact absurd success (by decide)

/-- A stream leads to no false success exactly when the first frame without output, if it arrives
whole and is an exit frame, has four bytes. -/
theorem noFalseSuccess_iff (pieces : Pieces UInt8) :
    NoFalseSuccess pieces ↔
      ∀ frame, FirstOther (contents pieces) frame → frame.type = frameExit →
        frame.payload.length = 4 := by
  constructor
  · intro contract frame first exit
    by_contra not_four
    have success : codeOf frame = 0 := by rw [codeOf, if_pos exit, if_neg not_four]
    have stopped := contract.frames ((code_of_firstOther first).trans success)
    rw [firstOther_unique first stopped] at not_four
    exact not_four rfl
  · intro four
    refine ⟨?_, fun _ _ => exitReached_of_commandCode, fun _ _ _ _ _ _ _ _ =>
      exitReached_of_commandCode, fun _ _ _ => exitReached_of_cpFrom,
      fun _ _ _ _ _ _ => exitReached_of_commandCode⟩
    intro success
    rcases code_cases pieces with failed | ⟨frame, first⟩
    · rw [failed] at success
      exact absurd success (by decide)
    · rw [code_of_firstOther first] at success
      have exit : frame.type = frameExit := by
        by_contra other
        rw [codeOf_of_type_ne other] at success
        exact absurd success (by decide)
      rwa [eq_successFrame exit (four frame first exit) success] at first

/-- An exit frame without payload, in one piece. -/
def emptyExit : Pieces UInt8 := [⟨[3, 0, 0, 0, 0], by decide⟩]

/-- The empty exit frame of a guest is taken for the success of its command. -/
theorem emptyExit_false_success : ¬NoFalseSuccess emptyExit := by
  intro contract
  have first : FirstOther (contents emptyExit) { type := frameExit, payload := [] } :=
    ⟨[], [], by simp, by simp [Frame.Fits], by decide, rfl⟩
  have stopped := contract.frames (code_of_firstOther first)
  exact absurd (firstOther_unique first stopped) (by decide)

end Pelagos.Wire
