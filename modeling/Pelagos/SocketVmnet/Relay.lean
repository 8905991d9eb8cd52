import Pelagos.Library.LengthPrefix
import Pelagos.Library.ShortWrites

/-!
# The socket_vmnet relay

Two threads stand between the stream of socket_vmnet, where every Ethernet frame travels behind its
length, and the datagram socket of the virtual machine.  They share nothing but the sockets, so each
is a program over what its system calls return.
-/

namespace Pelagos.SocketVmnet

open ByteStream LengthPrefix PrefixCode ShortWrites

/-- The size of `frame_buf`. -/
def bufferSize : Nat := 64 * 1024

theorem bufferSize_lt : bufferSize < 256 ^ 4 := by decide

/-! ## From socket_vmnet to the machine -/

/-- The datagrams sent, when each `send` succeeds or fails as listed and blocks after the last.  The
thread returns when it reads no further frame, and fails with a `send`; both close its sockets. -/
def relayVmnetToAvf : List Bool → Pieces UInt8 → Writing (List UInt8) Refusal
  | [], pieces =>
      match receive 4 bufferSize pieces with
      | .error refusal => pure refusal
      | .ok _ => .wait
  | sent :: sends, pieces =>
      match receive 4 bufferSize pieces with
      | .error refusal => pure refusal
      | .ok (frame, pieces) =>
          if sent then do
            Writing.write frame
            relayVmnetToAvf sends pieces
          else .fail

/-- The calls of `send` before the first that does not succeed. -/
def succeeding (sends : List Bool) : Nat := (sends.takeWhile id).length

/-- Exactly the frames at the front of the stream are sent, as far as `send` succeeds. -/
theorem relayVmnetToAvf_of_splits {pieces : Pieces UInt8} {frames : List (List UInt8)}
    {rest : List UInt8}
    (splits : Splits (encode 4) (Valid bufferSize) (contents pieces) frames rest)
    (sends : List Bool) :
    relayVmnetToAvf sends pieces =
      { written := frames.take (succeeding sends)
        ending :=
          if frames.length ≤ succeeding sends then .returned (refusal 4 bufferSize rest)
          else if sends.all id then .waits else .failed } := by
  induction sends generalizing pieces frames with
  | nil =>
      cases received : receive 4 bufferSize pieces with
      | error reason =>
          obtain ⟨rfl, rfl⟩ := splits_of_refusal bufferSize_lt splits received
          rw [relayVmnetToAvf, received]
          rfl
      | ok result =>
          obtain ⟨others, rfl, -⟩ := splits_of_receive bufferSize_lt splits received
          rw [relayVmnetToAvf, received]
          rfl
  | cons sent sends ih =>
      cases received : receive 4 bufferSize pieces with
      | error reason =>
          obtain ⟨rfl, rfl⟩ := splits_of_refusal bufferSize_lt splits received
          have none_left : ([] : List (List UInt8)).length ≤ succeeding (sent :: sends) :=
            Nat.zero_le _
          rw [relayVmnetToAvf, received, List.take_nil, if_pos none_left]
          rfl
      | ok result =>
          obtain ⟨frame, rest_pieces⟩ := result
          obtain ⟨others, rfl, later⟩ := splits_of_receive bufferSize_lt splits received
          cases sent with
          | false =>
              rw [relayVmnetToAvf, received]
              rfl
          | true =>
              have one_more : succeeding (true :: sends) = succeeding sends + 1 := rfl
              rw [relayVmnetToAvf, received, one_more]
              simp only [if_true, ih later, List.take_succ_cons, List.length_cons,
                Nat.add_le_add_iff_right, List.all_cons, id, Bool.true_and]
              rfl

/-! ## From the machine to socket_vmnet -/

/-- What one `recv` returns. -/
inductive Received where
  | datagram (bytes : List UInt8)
  | failed
  deriving DecidableEq

/-- What `recv` has put into the buffer, unless it returned zero or less: the rest of a datagram
that does not fit is discarded. -/
def Received.frame : Received → Option (List UInt8)
  | .failed => none
  | .datagram bytes =>
      let frame := bytes.take bufferSize
      if frame.length = 0 then none else some frame

/-- The bytes written to socket_vmnet.  The thread returns with the last `recv`, fails with a
`write`, and waits in a call whose result is not listed. -/
def relayAvfToVmnet : List Received → List WriteResult → Writing UInt8 Unit
  | [], _ => .wait
  | received :: later, results =>
      match received.frame with
      | none => pure ()
      | some frame => do
          let results ← writeAll results (toBigEndian 4 frame.length)
          let results ← writeAll results frame
          relayAvfToVmnet later results

/-- The frames read before the thread ends. -/
def readFrames : List Received → List (List UInt8)
  | [] => []
  | received :: later =>
      match received.frame with
      | none => []
      | some frame => frame :: readFrames later

theorem Received.valid_frame {received : Received} {frame : List UInt8}
    (read : received.frame = some frame) : Valid bufferSize frame := by
  cases received with
  | failed => cases read
  | datagram bytes =>
      simp only [Received.frame, Option.ite_none_left_eq_some, Option.some.injEq] at read
      obtain ⟨nonempty, rfl⟩ := read
      exact ⟨Nat.pos_of_ne_zero nonempty, List.length_take_le _ _⟩

theorem valid_readFrames (recvs : List Received) :
    ∀ frame ∈ readFrames recvs, Valid bufferSize frame := by
  induction recvs with
  | nil => simp [readFrames]
  | cons received later ih =>
      cases read : received.frame with
      | none => simp [readFrames, read]
      | some frame =>
          simp only [readFrames, read, List.mem_cons, forall_eq_or_imp]
          exact ⟨received.valid_frame read, ih⟩

/-- At all times the stream holds a front of the frames read, and whole frames once the thread has
returned. -/
theorem relayAvfToVmnet_delivers (recvs : List Received) (results : List WriteResult) :
    Delivers (relayAvfToVmnet recvs results) ((readFrames recvs).flatMap (encode 4)) := by
  induction recvs generalizing results with
  | nil => exact delivers_wait _
  | cons received later ih =>
      cases read : received.frame with
      | none =>
          simp only [relayAvfToVmnet, readFrames, read, List.flatMap_nil]
          exact delivers_pure ()
      | some frame =>
          simp only [relayAvfToVmnet, readFrames, read, List.flatMap_cons]
          rw [encode, List.append_assoc]
          refine (writeAll_delivers results _).bind fun results _ => ?_
          exact (writeAll_delivers results frame).bind fun results _ => ih results

/-! ## Frames are relayed whole -/

/-- What the thread towards the machine sends is determined by the stream: it is split in the one
way there is, whatever the pieces that are read, and only whole frames are sent. -/
theorem vmnet_frames_relayed (pieces : Pieces UInt8) :
    ∃ frames rest, Splits (encode 4) (Valid bufferSize) (contents pieces) frames rest ∧
      (∀ others other_rest, Splits (encode 4) (Valid bufferSize) (contents pieces) others
        other_rest → others = frames ∧ other_rest = rest) ∧
      ∀ sends, relayVmnetToAvf sends pieces =
        { written := frames.take (succeeding sends)
          ending :=
            if frames.length ≤ succeeding sends then .returned (refusal 4 bufferSize rest)
            else if sends.all id then .waits else .failed } := by
  have free := prefixFree bufferSize_lt
  obtain ⟨frames, rest, splits⟩ := exists_splits free (contents pieces)
  exact ⟨frames, rest, splits, fun others other_rest also => also.unique free splits,
    relayVmnetToAvf_of_splits splits⟩

/-- The two threads agree on the format: whatever front of what one has written reaches the other,
with short writes and in any pieces, it sends a front of the datagrams the first has read. -/
theorem avf_frames_cross (recvs : List Received) (results : List WriteResult)
    {pieces : Pieces UInt8}
    (arrived : contents pieces <+: (relayAvfToVmnet recvs results).written) (sends : List Bool) :
    (relayVmnetToAvf sends pieces).written <+: readFrames recvs ∧
      ((relayAvfToVmnet recvs results).ending = .returned () →
        contents pieces = (relayAvfToVmnet recvs results).written →
        (readFrames recvs).length ≤ succeeding sends →
        relayVmnetToAvf sends pieces =
          { written := readFrames recvs, ending := .returned .closed }) := by
  have free := prefixFree bufferSize_lt
  have delivers := relayAvfToVmnet_delivers recvs results
  have all_valid := valid_readFrames recvs
  obtain ⟨frames, rest, splits⟩ := exists_splits free (contents pieces)
  have relayed := relayVmnetToAvf_of_splits splits sends
  constructor
  · rw [relayed]
    exact (List.take_prefix _ _).trans
      (splits.of_written free all_valid (arrived.trans delivers.front))
  · intro returned everything enough
    have whole := delivers.whole () returned
    have splits : Splits (encode 4) (Valid bufferSize) (contents pieces) (readFrames recvs) [] := by
      refine ⟨by rw [everything, whole, List.append_nil], all_valid, ?_⟩
      exact fun frame valid empty => free.nonempty valid (List.prefix_nil.mp empty)
    rw [relayVmnetToAvf_of_splits splits sends, List.take_of_length_le enough, if_pos enough]
    rfl

/-- A short first write and a cut in the second frame: the first frame arrives. -/
theorem first_frame_crosses :
    (relayVmnetToAvf [true, true]
      [⟨[0], by simp⟩, ⟨[0, 0, 2, 7, 8, 0, 0, 0, 1], by simp⟩]).written <+:
      readFrames [.datagram [7, 8], .datagram [9], .failed] :=
  (avf_frames_cross [.datagram [7, 8], .datagram [9], .failed]
    [.taken 0, .taken 2, .taken 1, .taken 3, .taken 0] (by decide) [true, true]).1

end Pelagos.SocketVmnet
