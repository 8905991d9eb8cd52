import Pelagos.Wire.TornLines

/-!
# Copies end to end

An archive follows a line that announces its size: a response behind which the guest writes what
`tar` has packed, or a command behind which the host writes what is to be unpacked.  Each side hands
on exactly the announced bytes.  A copy out that was cut short is never a success; a copy in whose
stream ends early hands on what has arrived.
-/

namespace Pelagos.Wire

open Serde Lines

/-- What an output leaves on the connection. -/
def Guest.Output.bytes : Guest.Output → List UInt8
  | .response sent => Utf8.encode (Guest.sendResponse sent)
  | .raw bytes => bytes
  | .started .. => []

/-- What a handler leaves on the connection. -/
def replyBytes {α : Type} (reply : Guest.Reply α) : List UInt8 :=
  reply.written.flatMap Guest.Output.bytes

theorem replyBytes_respond (response : Guest.GuestResponse) :
    replyBytes (Guest.respond response) = Utf8.encode (Guest.sendResponse response) :=
  List.append_nil _

theorem replyBytes_bind (first : Guest.Reply Unit) (next : Unit → Guest.Reply Unit)
    (returned : first.ending = .returned ()) :
    replyBytes (first >>= next) = replyBytes first ++ replyBytes (next ()) := by
  rw [replyBytes, (Writing.bind_of_returned returned next).1, List.flatMap_append]
  rfl

theorem meaning_response (response : Guest.GuestResponse) :
    meaning (Utf8.encode (Guest.sendResponse response)) = .response (mirrorResponse response) := by
  rw [meaning, Utf8.decode_encode]
  dsimp only
  rw [trimEnd_sendResponse, if_neg (toText_response_ne_empty response), ofLine_response]

theorem readLine_append {line : List UInt8} (is_line : IsLine Json.newline line)
    (ending : StreamEnd) (rest : List UInt8) :
    readLine ending (line ++ rest) = some (line, rest) := by
  rw [readLine, takeThrough_append is_line rest]

/-- A proper front of a line is read as a line of its own at the end of the stream. -/
theorem readLine_front {line bytes : List UInt8} (is_line : IsLine Json.newline line)
    (isFront : bytes <+: line) (proper : ¬ line <+: bytes) (ending : StreamEnd) :
    readLine ending bytes = none ∨ readLine ending bytes = some (bytes, []) := by
  obtain ⟨body, rfl, free⟩ := is_line
  have within : bytes <+: body := by
    rcases List.prefix_concat_iff.mp isFront with rfl | within
    · exact absurd List.prefix_rfl proper
    · exact within
  have unterminated : takeThrough Json.newline bytes = none :=
    takeThrough_eq_none.mpr fun member => free (within.subset member)
  rw [readLine, unterminated]
  dsimp only
  split
  · exact .inr rfl
  · exact .inl rfl

/-! ## Out of a container -/

/-- What `tar` has packed, if the container was entered and `tar` succeeded. -/
def copiedOut (system : Guest.System) (container src : String) : Option (List UInt8) :=
  match Guest.enterContainer system container with
  | .error _ => none
  | .ok pid =>
      match system.outputIn pid
          (Guest.command "tar" ["-cC", Guest.parentOf src, Guest.fileName src]) with
      | .error _ => none
      | .ok out => if Guest.succeeded out.status then some out.stdout else none

/-- The handler writes an error, or the archive between its size and the exit. -/
theorem replyBytes_handleCpFrom (system : Guest.System) (container src : String) :
    match copiedOut system container src with
    | none => ∃ error, replyBytes (Guest.handleCpFrom system container src) =
        Utf8.encode (Guest.sendResponse (.error error))
    | some archive => replyBytes (Guest.handleCpFrom system container src) =
        Utf8.encode (Guest.sendResponse (.rawBytes (UInt64.ofNat archive.length))) ++
          (archive ++ Utf8.encode (Guest.sendResponse (.exit 0))) := by
  rw [copiedOut, Guest.handleCpFrom]
  cases Guest.enterContainer system container with
  | error error => exact ⟨error, replyBytes_respond _⟩
  | ok pid =>
      dsimp only
      cases system.outputIn pid
          (Guest.command "tar" ["-cC", Guest.parentOf src, Guest.fileName src]) with
      | error error => exact ⟨error, replyBytes_respond _⟩
      | ok out =>
          dsimp only
          by_cases succeeded : Guest.succeeded out.status = true
          · have raw : replyBytes (Writing.write (.raw out.stdout)) = out.stdout :=
              List.append_nil _
            rw [if_neg (not_not.mpr succeeded), if_pos succeeded]
            dsimp only
            rw [replyBytes_bind _ _ rfl, replyBytes_bind _ _ rfl, replyBytes_respond, raw,
              replyBytes_respond]
          · rw [if_pos succeeded, if_neg succeeded]
            exact ⟨_, replyBytes_respond _⟩

theorem receiveCopy_nil (extracts : Nat → List UInt8 → Bool) (ending : StreamEnd) (count : Nat) :
    receiveCopy extracts ending count [] = 1 := by
  have nothing : readLine ending [] = none := by
    cases ending <;> rfl
  rw [receiveCopy]
  split
  · rfl
  · rename_i line rest read
    rw [nothing] at read
    cases read

/-- What the loop does with a line depends on its meaning. -/
theorem receiveCopy_of_readLine {extracts : Nat → List UInt8 → Bool} {ending : StreamEnd}
    {count : Nat} {bytes line rest : List UInt8}
    (read : readLine ending bytes = some (line, rest)) :
    receiveCopy extracts ending count bytes =
      match meaning line with
      | .unreadable => 1
      | .blank => receiveCopy extracts ending count rest
      | .response (.rawBytes size) =>
          if ending = .failed ∧ rest.length < size.toNat then 1
          else if extracts count (rest.take size.toNat) then
            receiveCopy extracts ending (count + 1) (rest.drop size.toNat)
          else 1
      | .response (.error _) => 1
      | .response (.exit exit) => exit
      | .response _ => receiveCopy extracts ending count rest := by
  conv_lhs => rw [receiveCopy]
  split
  · rename_i nothing
    rw [read] at nothing
    cases nothing
  · rename_i other behind found
    obtain ⟨rfl, rfl⟩ := Prod.mk.inj (Option.some.inj (found.symm.trans read))
    rfl

theorem receiveCopy_error (extracts : Nat → List UInt8 → Bool) (ending : StreamEnd) (count : Nat)
    (error : String) (rest : List UInt8) :
    receiveCopy extracts ending count
      (Utf8.encode (Guest.sendResponse (.error error)) ++ rest) = 1 := by
  rw [receiveCopy_of_readLine (readLine_append (isLine_response _) ending rest), meaning_response,
    mirrorResponse]

theorem receiveCopy_exit (extracts : Nat → List UInt8 → Bool) (ending : StreamEnd) (count : Nat)
    (code : Int32) (rest : List UInt8) :
    receiveCopy extracts ending count
      (Utf8.encode (Guest.sendResponse (.exit code)) ++ rest) = code := by
  rw [receiveCopy_of_readLine (readLine_append (isLine_response _) ending rest), meaning_response,
    mirrorResponse]

theorem receiveCopy_rawBytes (extracts : Nat → List UInt8 → Bool) (ending : StreamEnd) (count : Nat)
    (size : UInt64) (rest : List UInt8) :
    receiveCopy extracts ending count
      (Utf8.encode (Guest.sendResponse (.rawBytes size)) ++ rest) =
        if ending = .failed ∧ rest.length < size.toNat then 1
        else if extracts count (rest.take size.toNat) then
          receiveCopy extracts ending (count + 1) (rest.drop size.toNat)
        else 1 := by
  rw [receiveCopy_of_readLine (readLine_append (isLine_response _) ending rest), meaning_response,
    mirrorResponse]

/-- A response that has not arrived with its newline ends the copy without success, unless it says
so itself. -/
theorem receiveCopy_torn (extracts : Nat → List UInt8 → Bool) (ending : StreamEnd) (count : Nat)
    {response : Guest.GuestResponse} (not_exit : ∀ code, response ≠ .exit code)
    {bytes : List UInt8} (isFront : bytes <+: Utf8.encode (Guest.sendResponse response))
    (proper : ¬ Utf8.encode (Guest.sendResponse response) <+: bytes) :
    receiveCopy extracts ending count bytes = 1 := by
  have means := meaning_cut response isFront
  rcases readLine_front (isLine_response response) isFront proper ending with read | read
  · rw [receiveCopy]
    split
    · rfl
    · rename_i line rest found
      rw [read] at found
      cases found
  · rw [receiveCopy_of_readLine read]
    rcases means with means | means | means
    · rw [means]
      cases response with
      | exit code => exact absurd rfl (not_exit code)
      | rawBytes size =>
          simp only [mirrorResponse, List.take_nil, List.drop_nil, receiveCopy_nil, ite_self]
      | error => rfl
      | _ => exact receiveCopy_nil _ _ _
    · rw [means]
      exact receiveCopy_nil _ _ _
    · rw [means]

/-- The host unpacks exactly what the guest's `tar` has packed, and returns 0 if and only if both
succeed.  When the connection is cut anywhere, by its end or by an error, 0 still means that all of
the archive was unpacked. -/
theorem copy_out_exact (system : Guest.System) (container src : String)
    (small : ∀ archive ∈ copiedOut system container src, archive.length < 2 ^ 64)
    (extracts : Nat → List UInt8 → Bool) (ending : StreamEnd) :
    (cpFromCommand extracts true ending (replyBytes (Guest.handleCpFrom system container src)) =
      match copiedOut system container src with
      | some archive => if extracts 0 archive then 0 else 1
      | none => 1) ∧
    ∀ bytes, bytes <+: replyBytes (Guest.handleCpFrom system container src) →
      cpFromCommand extracts true ending bytes = 0 →
        ∃ archive, copiedOut system container src = some archive ∧ extracts 0 archive = true := by
  have reply := replyBytes_handleCpFrom system container src
  have host (bytes : List UInt8) :
      cpFromCommand extracts true ending bytes = receiveCopy extracts ending 0 bytes := if_pos rfl
  simp only [host]
  cases copied : copiedOut system container src with
  | none =>
      rw [copied] at reply
      obtain ⟨error, reply⟩ := reply
      rw [reply]
      refine ⟨?_, fun bytes isFront zero => ?_⟩
      · have refused := receiveCopy_error extracts ending 0 error []
        rwa [List.append_nil] at refused
      · by_cases whole : Utf8.encode (Guest.sendResponse (.error error)) <+: bytes
        · obtain ⟨rest, rfl⟩ := whole
          rw [receiveCopy_error] at zero
          exact absurd zero (by decide)
        · rw [receiveCopy_torn extracts ending 0 (by simp) isFront whole] at zero
          exact absurd zero (by decide)
  | some archive =>
      rw [copied] at reply
      have fits : archive.length < 2 ^ 64 := small archive copied
      have size : (UInt64.ofNat archive.length).toNat = archive.length := by
        rw [UInt64.toNat_ofNat']
        exact Nat.mod_eq_of_lt fits
      rw [reply]
      refine ⟨?_, fun bytes isFront zero => ⟨archive, rfl, ?_⟩⟩
      · have long : ¬(ending = .failed ∧
            (archive ++ Utf8.encode (Guest.sendResponse (.exit 0))).length < archive.length) := by
          rw [List.length_append]
          omega
        rw [receiveCopy_rawBytes, size, if_neg long, List.take_left, List.drop_left]
        have done := receiveCopy_exit extracts ending 1 0 []
        rw [List.append_nil] at done
        rw [done]
      · have header_front := List.prefix_append
          (Utf8.encode (Guest.sendResponse (.rawBytes (UInt64.ofNat archive.length))))
          (archive ++ Utf8.encode (Guest.sendResponse (.exit 0)))
        by_cases whole :
            Utf8.encode (Guest.sendResponse (.rawBytes (UInt64.ofNat archive.length))) <+: bytes
        · obtain ⟨rest, rfl⟩ := whole
          have rest_front := (List.prefix_append_right_inj _).mp isFront
          rw [receiveCopy_rawBytes, size] at zero
          split at zero
          · exact absurd zero (by decide)
          · split at zero
            · rename_i extracted
              rcases List.prefix_or_prefix_of_prefix rest_front
                  (List.prefix_append archive _) with within | beyond
              · -- nothing is left for the exit line
                have drained : rest.drop archive.length = [] :=
                  List.drop_eq_nil_of_le within.length_le
                rw [drained, receiveCopy_nil] at zero
                exact absurd zero (by decide)
              · rwa [← List.prefix_iff_eq_take.mp beyond] at extracted
            · exact absurd zero (by decide)
        · have torn : bytes <+:
              Utf8.encode (Guest.sendResponse (.rawBytes (UInt64.ofNat archive.length))) := by
            rcases List.prefix_or_prefix_of_prefix isFront header_front with within | beyond
            · exact within
            · exact absurd beyond whole
          rw [receiveCopy_torn extracts ending 0 (by simp) torn whole] at zero
          exact absurd zero (by decide)

/-! ## Into a container or a build -/

/-- What `io::copy` hands on of at most `size` bytes, and whether it succeeds. -/
def takeArchive (ending : StreamEnd) (size : UInt64) (bytes : List UInt8) : List UInt8 × Bool :=
  (bytes.take size.toNat, !decide (ending = .failed ∧ bytes.length < size.toNat))

/-- The size of the archive behind a command. -/
def announced : Guest.GuestCommand → Option UInt64
  | .build _ _ _ _ contextSize => some contextSize
  | .cpTo _ _ dataSize => some dataSize
  | _ => none

/-- What `tar` is fed behind a line, and whether the copy succeeds. -/
def fedBehind (ending : StreamEnd) (line rest : List UInt8) : List UInt8 × Bool :=
  match Utf8.decode line with
  | none => ([], true)
  | some text =>
      match Guest.GuestCommand.ofLine (Guest.trimLine text) with
      | .error _ => ([], true)
      | .ok cmd =>
          match announced cmd with
          | some size => takeArchive ending size rest
          | none => ([], true)

/-- The guest answers the first line of a connection; how the machine behaves depends on what `tar`
is fed. -/
def serve (system : List UInt8 × Bool → Guest.System) (ending : StreamEnd) (bytes : List UInt8) :
    Option (Guest.Reply Guest.Flow) :=
  match readLine ending bytes with
  | none => some (pure .closes)
  | some (line, rest) => Guest.handleLine (system (fedBehind ending line rest)) line

theorem fedBehind_whole (ending : StreamEnd) (order : MapOrder String String)
    {cmd : Host.GuestCommand} {size : UInt64} (announces : announced (mirror cmd) = some size)
    {line : List UInt8}
    (whole : line = Utf8.encode (cmd.toLine order) ∨ line = Host.commandLine order cmd)
    (rest : List UInt8) :
    fedBehind ending line rest = takeArchive ending size rest := by
  obtain ⟨text, rfl, trimmed⟩ := Guest.trimLine_whole order cmd whole
  rw [fedBehind, Utf8.decode_encode]
  dsimp only
  rw [trimmed, ofLine_toLine]
  dsimp only
  rw [announces]

/-- What arrives of a command with its archive: the guest's `tar` is fed exactly the archive when
all of it arrives.  When the connection is cut, the command is refused, or the guest sees that the
archive is short because reading fails; but an end of the stream passes for the end of the
archive. -/
theorem upload_delivered {order : MapOrder String String} {cmd : Host.GuestCommand}
    {size : UInt64} (announces : announced (mirror cmd) = some size) {archive : List UInt8}
    (measured : size.toNat = archive.length) (system : List UInt8 × Bool → Guest.System)
    (ending : StreamEnd) :
    serve system ending (Host.commandLine order cmd ++ archive) =
      Guest.handleCommand (system (archive, true)) (mirror cmd) ∧
    ∀ bytes, bytes <+: Host.commandLine order cmd ++ archive →
      serve system ending bytes = some (pure .closes) ∨
      (∃ machine, Guest.Refuses machine bytes ∧
        serve system ending bytes = Guest.handleLine machine bytes) ∨
      ∃ front copied, front <+: archive ∧ (copied = true → ending = .failed → front = archive) ∧
        serve system ending bytes = Guest.handleCommand (system (front, copied)) (mirror cmd) := by
  have behind (rest : List UInt8) : serve system ending (Host.commandLine order cmd ++ rest) =
      Guest.handleCommand (system (takeArchive ending size rest)) (mirror cmd) := by
    rw [serve, readLine_append (isLine_commandLine order cmd)]
    dsimp only
    rw [fedBehind_whole ending order announces (.inr rfl),
      Guest.handleLine_whole _ order cmd (.inr rfl)]
  have fed {front : List UInt8} (isFront : front <+: archive) :
      ∃ copied, takeArchive ending size front = (front, copied) ∧
        (copied = true → ending = .failed → front = archive) := by
    have all : front.take size.toNat = front :=
      List.take_of_length_le (by rw [measured]; exact isFront.length_le)
    refine ⟨_, by rw [takeArchive, all], fun copied failed => ?_⟩
    have complete : ¬ front.length < archive.length := by
      simpa [failed, measured] using copied
    exact isFront.eq_of_length_le (by omega)
  constructor
  · have taken : takeArchive ending size archive = (archive, true) := by
      simp [takeArchive, measured]
    rw [behind, taken]
  · intro bytes isFront
    by_cases whole : Host.commandLine order cmd <+: bytes
    · obtain ⟨rest, rfl⟩ := whole
      have rest_front := (List.prefix_append_right_inj _).mp isFront
      obtain ⟨copied, fed_eq, fed_all⟩ := fed rest_front
      exact .inr (.inr ⟨rest, copied, rest_front, fed_all, by rw [behind, fed_eq]⟩)
    · have within : bytes <+: Host.commandLine order cmd := by
        rcases List.prefix_or_prefix_of_prefix isFront (List.prefix_append _ archive) with
          within | beyond
        · exact within
        · exact absurd beyond whole
      rcases readLine_front (isLine_commandLine order cmd) within whole ending with read | read
      · exact .inl (by rw [serve, read])
      · have served : serve system ending bytes =
            Guest.handleLine (system (fedBehind ending bytes [])) bytes := by
          rw [serve, read]
        rcases Json.torn_or_whole within with torn | complete
        · exact .inr (.inl ⟨_, Guest.refuses_torn _ torn, served⟩)
        · obtain ⟨copied, fed_eq, fed_all⟩ := fed List.nil_prefix
          refine .inr (.inr ⟨[], copied, List.nil_prefix, fed_all, ?_⟩)
          rw [served, fedBehind_whole ending order announces complete, fed_eq,
            Guest.handleLine_whole _ order cmd complete]

/-! ## The answer to a copy into a container -/

/-- What the `tar` that unpacks a copy complains about and its exit code, if they are sent. -/
def copiedIn (system : Guest.System) (container dst : String) (dataSize : UInt64) :
    Option (String × Int32) :=
  match Guest.enterContainer system container with
  | .error _ => none
  | .ok pid =>
      match system.receiveIn pid (Guest.receiveCommand dst) with
      | .error _ => none
      | .ok tar =>
          let answer := (Guest.readToString tar.stderr, Guest.exitCode tar.status)
          match tar.feeding with
          | .failed _ => none
          | .blocked => if system.pipeCapacity < dataSize.toNat then none else some answer
          | .taken => some answer

/-- The bytes of a complaint; an empty one is not sent. -/
def complaintBytes (complaint : String) : List UInt8 :=
  if complaint = "" then []
  else Utf8.encode (Guest.sendResponse (.stream .stderr complaint))

theorem relayResponses_of_readLine {ending : StreamEnd} {host : Passthrough}
    {bytes line rest : List UInt8} (read : readLine ending bytes = some (line, rest)) :
    relayResponses ending host bytes =
      if (host.handleLine line).returned = none then
        relayResponses ending (host.handleLine line) rest
      else host.handleLine line := by
  conv_lhs => rw [relayResponses]
  split
  · rename_i nothing
    rw [read] at nothing
    cases nothing
  · rename_i other behind found
    obtain ⟨rfl, rfl⟩ := Prod.mk.inj (Option.some.inj (found.symm.trans read))
    rfl

/-- The loop ends with a response that it returns at. -/
theorem relayResponses_last {host : Passthrough} {last : Guest.GuestResponse} {code : Int32}
    (ending : StreamEnd)
    (concludes : host.handleLine (Utf8.encode (Guest.sendResponse last)) =
      { host with returned := some code }) :
    relayResponses ending host (Utf8.encode (Guest.sendResponse last)) =
      { host with returned := some code } := by
  have read := readLine_append (isLine_response last) ending []
  rw [List.append_nil] at read
  rw [relayResponses_of_readLine read, concludes, if_neg (by simp)]

/-- A complaint in front is printed to standard error. -/
theorem relayResponses_complaint (ending : StreamEnd) (complaint : String) (rest : List UInt8) :
    relayResponses ending .start (complaintBytes complaint ++ rest) =
      relayResponses ending
        { Passthrough.start with printed := Function.update (fun _ => "") .stderr complaint }
        rest := by
  by_cases silent : complaint = ""
  · have unchanged : Function.update (fun _ : Guest.StreamKind => "") .stderr complaint =
        fun _ => "" := by
      rw [silent]
      exact Function.update_eq_self _ _
    rw [complaintBytes, if_pos silent, List.nil_append, unchanged]
    rfl
  · have read := readLine_append (isLine_response (.stream .stderr complaint)) ending rest
    have printed : Passthrough.start.handleLine
        (Utf8.encode (Guest.sendResponse (.stream .stderr complaint))) =
          { Passthrough.start with
            printed := Function.update (fun _ => "") .stderr complaint } := by
      rw [Passthrough.handleLine_stream]
      exact congrArg (fun text => { Passthrough.start with
        printed := Function.update (fun _ => "") .stderr text }) String.empty_append
    rw [complaintBytes, if_neg silent, relayResponses_of_readLine read, printed]
    exact if_pos rfl

/-- The handler, unless it waits for ever, writes what `tar` complained about and then its exit
code, or an error alone. -/
theorem replyBytes_handleCpTo {system : Guest.System} {container dst : String} {dataSize : UInt64}
    (answers : (Guest.handleCpTo system container dst dataSize).ending ≠ .waits) :
    match copiedIn system container dst dataSize with
    | some (complaint, code) => replyBytes (Guest.handleCpTo system container dst dataSize) =
        complaintBytes complaint ++ Utf8.encode (Guest.sendResponse (.exit code))
    | none => ∃ error, replyBytes (Guest.handleCpTo system container dst dataSize) =
        Utf8.encode (Guest.sendResponse (.error error)) := by
  rw [copiedIn]
  rw [Guest.handleCpTo] at answers ⊢
  cases entered : Guest.enterContainer system container with
  | error error => exact ⟨error, replyBytes_respond _⟩
  | ok pid =>
      rw [entered] at answers
      dsimp only at answers ⊢
      cases spawned : system.receiveIn pid (Guest.receiveCommand dst) with
      | error error => exact ⟨error, replyBytes_respond _⟩
      | ok tar =>
          rw [spawned] at answers
          dsimp only at answers ⊢
          have finished : replyBytes (do
              if Guest.readToString tar.stderr ≠ "" then
                Guest.respond (.stream .stderr (Guest.readToString tar.stderr))
              Guest.respond (.exit (Guest.exitCode tar.status))) =
              complaintBytes (Guest.readToString tar.stderr) ++
                Utf8.encode (Guest.sendResponse (.exit (Guest.exitCode tar.status))) := by
            by_cases silent : Guest.readToString tar.stderr = ""
            · rw [if_neg (not_not.mpr silent), complaintBytes, if_pos silent, List.nil_append,
                replyBytes_respond]
            · rw [if_pos silent, complaintBytes, if_neg silent, replyBytes_bind _ _ rfl,
                replyBytes_respond, replyBytes_respond]
          cases feeding : tar.feeding with
          | taken => exact finished
          | failed error =>
              rw [feeding] at answers
              dsimp only at answers ⊢
              split
              · rename_i full
                rw [if_pos full] at answers
                exact absurd rfl answers
              · exact ⟨error, replyBytes_respond _⟩
          | blocked =>
              rw [feeding] at answers
              dsimp only at answers ⊢
              by_cases full : system.pipeCapacity < dataSize.toNat
              · rw [if_pos full] at answers
                exact absurd rfl answers
              · rw [if_neg full, if_neg full]
                exact finished

/-- A copy into a container, end to end: the guest's `tar` is fed exactly the archive that the host
has packed.  The host returns the exit code of that `tar`, or 1 when there is none, and has printed
by then what it complained about, and nothing else. -/
theorem copy_in_exact (order : MapOrder String String) (container dst : String) {size : UInt64}
    {archive : List UInt8} (measured : size.toNat = archive.length)
    (system : List UInt8 × Bool → Guest.System) (ending hostEnding : StreamEnd)
    (answers : (Guest.handleCpTo (system (archive, true)) container dst size).ending ≠ .waits) :
    serve system ending (Host.commandLine order (.cpTo container dst size) ++ archive) =
      Guest.Flow.closes.after (Guest.handleCpTo (system (archive, true)) container dst size) ∧
    cpToCommand true true true true true hostEnding
        (replyBytes (Guest.handleCpTo (system (archive, true)) container dst size)) =
      (copiedIn (system (archive, true)) container dst size).elim 1 Prod.snd ∧
    (relayResponses hostEnding .start
        (replyBytes (Guest.handleCpTo (system (archive, true)) container dst size))).printed =
      Function.update (fun _ => "") .stderr
        ((copiedIn (system (archive, true)) container dst size).elim "" Prod.fst) := by
  have announces : announced (mirror (.cpTo container dst size)) = some size := rfl
  refine ⟨(upload_delivered announces measured system ending).1, ?_⟩
  have reply := replyBytes_handleCpTo answers
  have ready : [true, true, true, true, true].all id = true := rfl
  rw [cpToCommand, commandCode, if_pos ready]
  cases copied : copiedIn (system (archive, true)) container dst size with
  | some answer =>
      obtain ⟨complaint, code⟩ := answer
      rw [copied] at reply
      dsimp only at reply
      rw [reply, relayResponses_complaint,
        relayResponses_last hostEnding (Passthrough.handleLine_exit _ code)]
      exact ⟨rfl, rfl⟩
  | none =>
      rw [copied] at reply
      obtain ⟨error, reply⟩ := reply
      have silent : Function.update (fun _ : Guest.StreamKind => "") .stderr "" = fun _ => "" :=
        Function.update_eq_self _ _
      rw [reply, relayResponses_last hostEnding (Passthrough.handleLine_error _ error)]
      exact ⟨rfl, silent.symm⟩

/-- A machine with one running container. -/
def copySystem (archive : List UInt8) (feeding : Guest.Feeding) : Guest.System where
  pelagosBin := "/usr/local/bin/pelagos"
  guestVersion := "0"
  errorText _ := "error"
  pipeCapacity := 65536
  micros := 0
  pathExists _ := false
  createDirAll _ := true
  readFile _ := none
  containerStates := []
  output _ := .ok { stdout := Utf8.encode "web running 7", stderr := [], status := some 0 }
  status _ := .error "not found"
  stream _ := .error "not found"
  streamFed _ := .error "not found"
  detach _ := .error "not found"
  pull _ _ := .error "not found"
  extract _ := .error "not found"
  openNsFds _ := .ok ()
  openRootFd _ := .ok ()
  parseIntError text := text
  outputIn _ _ := .ok { stdout := archive, stderr := [], status := some 0 }
  receiveIn _ _ := .ok { feeding, stderr := Utf8.encode "tar: skipped", status := some 0 }

theorem enterContainer_copySystem (archive : List UInt8) (feeding : Guest.Feeding) :
    Guest.enterContainer (copySystem archive feeding) "web" = .ok 7 := by
  have line : Text.lines "web running 7" = ["web running 7"] := by decide
  have tokens : Text.tokens "web running 7" = ["web", "running", "7"] := by decide
  have pid : Text.parseUnsigned 4294967296 "7" = some 7 := by decide
  simp [Guest.enterContainer, Guest.getContainerPid, copySystem, line, Guest.pidOfLines, tokens,
    pid]

theorem file_copied_out :
    cpFromCommand (fun _ archive => archive = [1, 2, 3]) true .closed
      (replyBytes (Guest.handleCpFrom (copySystem [1, 2, 3] .taken) "web" "/etc/hosts")) = 0 := by
  have copied : copiedOut (copySystem [1, 2, 3] .taken) "web" "/etc/hosts" = some [1, 2, 3] := by
    rw [copiedOut, enterContainer_copySystem]
    rfl
  have unpacked := (copy_out_exact (copySystem [1, 2, 3] .taken) "web" "/etc/hosts"
    (by simp [copied]) (fun _ archive => archive = [1, 2, 3]) .closed).1
  rw [copied] at unpacked
  simpa using unpacked

/-- The machine for what `tar` is fed: it is content with this archive only. -/
def pickySystem : List UInt8 × Bool → Guest.System
  | (archive, copied) =>
      copySystem archive (if archive = [1, 2, 3] ∧ copied then .taken else .failed "Broken pipe")

/-- `tar` unpacks the archive and complains; the host prints the complaint and succeeds. -/
theorem file_copied_in :
    cpToCommand true true true true true .closed
        (replyBytes (Guest.handleCpTo (pickySystem ([1, 2, 3], true)) "web" "/tmp" 3)) = 0 ∧
      (relayResponses .closed .start (replyBytes (Guest.handleCpTo (pickySystem ([1, 2, 3], true))
        "web" "/tmp" 3))).printed .stderr = "tar: skipped" := by
  have taken : pickySystem ([1, 2, 3], true) = copySystem [1, 2, 3] .taken := rfl
  have complains : Guest.readToString (Utf8.encode "tar: skipped") = "tar: skipped" :=
    congrArg (·.getD "") (Utf8.decode_encode _)
  have copied : copiedIn (pickySystem ([1, 2, 3], true)) "web" "/tmp" 3 =
      some ("tar: skipped", 0) := by
    rw [taken, copiedIn, enterContainer_copySystem]
    exact congrArg (fun complaint => some (complaint, 0)) complains
  have answers : (Guest.handleCpTo (pickySystem ([1, 2, 3], true)) "web" "/tmp" 3).ending ≠
      .waits := by
    rw [taken, Guest.handleCpTo, enterContainer_copySystem]
    simp only [copySystem, complains]
    exact nofun
  have measured : (3 : UInt64).toNat = [(1 : UInt8), 2, 3].length := rfl
  obtain ⟨-, returned, printed⟩ := copy_in_exact (.sorted String) "web" "/tmp" measured pickySystem
    .closed .closed answers
  rw [copied] at returned printed
  exact ⟨returned, congrFun printed .stderr⟩

theorem context_delivered :
    serve pickySystem .closed (Host.commandLine (.sorted String)
        (.build "web" "Dockerfile" [] false 3) ++ [1, 2, 3]) =
      Guest.handleCommand (pickySystem ([1, 2, 3], true))
        (mirror (.build "web" "Dockerfile" [] false 3)) :=
  (@upload_delivered _ _ 3 rfl _ rfl pickySystem .closed).1

end Pelagos.Wire
