import Pelagos.Library.TornLines
import Pelagos.Wire.Exits
import Pelagos.Wire.Handlers
import Pelagos.Wire.Transparency

/-!
# Lines that were cut

A connection can end within a line, and `read_line` then returns what has arrived.  Such a piece is
taken for the whole line when only the newline is missing, and for nothing at all otherwise: the
guest runs no command, the host sees no response and the port watcher no event.
-/

namespace Pelagos.Wire

open Json Serde

/-! ## Commands -/

namespace Guest

/-- No command is run for the line: the connection ends, or the line is skipped or refused. -/
def Refuses (system : System) (line : List UInt8) : Prop :=
  handleLine system line = some Writing.fail ∨ handleLine system line = some (pure .nextLine) ∨
    ∃ error, handleLine system line =
      Flow.nextLine.after (respond (.error ("parse error: " ++ system.errorText error)))

theorem refuses_torn (system : System) {order : MapOrder String String} {cmd : Host.GuestCommand}
    {bytes : List UInt8} (torn : Torn (Host.commandLine order cmd) bytes) :
    Refuses system bytes := by
  cases decoded : Utf8.decode bytes with
  | none => exact .inl (by rw [handleLine, decoded])
  | some text =>
      right
      have trimmed_front : (trimLine text).toList <+: text.toList :=
        (prefix_trimEndWhere _ _).trans (prefix_trimEndWhere _ _)
      have unread : GuestCommand.ofLine (trimLine text) = .error .invalidText :=
        fromText_torn _ (fits_command order cmd) torn decoded trimmed_front
      by_cases blank : trimLine text = ""
      · exact .inl (by simp [handleLine, decoded, blank])
      · exact .inr ⟨.invalidText, by simp [handleLine, decoded, blank, unread]⟩

/-- The command line may lack its newline. -/
theorem trimLine_whole (order : MapOrder String String) (cmd : Host.GuestCommand)
    {bytes : List UInt8}
    (whole : bytes = Utf8.encode (cmd.toLine order) ∨ bytes = Host.commandLine order cmd) :
    ∃ text, bytes = Utf8.encode text ∧ trimLine text = cmd.toLine order := by
  rcases whole with rfl | rfl
  · refine ⟨_, rfl, ?_⟩
    obtain ⟨front, ends⟩ := Json.toText_object_ends (record (("cmd", _) :: cmd.fields order))
    have unterminated : Text.trimEndMatches '\n' (cmd.toLine order) = cmd.toLine order :=
      Text.trimEndWhere_keep (by decide) ends
    rw [trimLine, unterminated]
    exact Text.trimEndWhere_keep (by decide) ends
  · exact ⟨_, rfl, trimLine_commandLine order cmd⟩

theorem handleLine_whole (system : System) (order : MapOrder String String)
    (cmd : Host.GuestCommand) {bytes : List UInt8}
    (whole : bytes = Utf8.encode (cmd.toLine order) ∨ bytes = Host.commandLine order cmd) :
    handleLine system bytes = handleCommand system (mirror cmd) := by
  obtain ⟨text, rfl, trimmed⟩ := trimLine_whole order cmd whole
  have filled : cmd.toLine order ≠ "" := Json.toText_object_ne_empty _
  rw [handleLine, Utf8.decode_encode]
  dsimp only
  rw [trimmed, if_neg filled, ofLine_toLine]

end Guest

/-! ## Responses and events -/

theorem response_is_object (response : Guest.GuestResponse) :
    ∃ members, response.toJson = .object members := by
  cases response <;> exact ⟨_, rfl⟩

theorem event_is_object (event : Pelagos.Guest.GuestEvent) :
    ∃ members, Guest.eventToJson event = .object members := by
  cases event <;> exact ⟨_, rfl⟩

theorem meaning_cut (response : Guest.GuestResponse) {bytes : List UInt8}
    (isFront : bytes <+: Utf8.encode (Guest.sendResponse response)) :
    meaning bytes = .response (mirrorResponse response) ∨
      meaning bytes = .blank ∨ meaning bytes = .unreadable := by
  have fits := fits_response 125 response
  have reads := ofLine_response response
  obtain ⟨members, is_object⟩ := response_is_object response
  rw [Guest.sendResponse, is_object] at isFront
  rw [is_object] at fits reads
  rcases torn_or_whole isFront with torn | whole
  · right
    rw [meaning]
    cases decoded : Utf8.decode bytes with
    | none => exact .inr rfl
    | some text =>
        have unread : Host.GuestResponse.ofLine (Text.trimEnd text) = .error .invalidText :=
          fromText_torn _ fits torn decoded (prefix_trimEndWhere _ _)
        dsimp only
        split
        · exact .inl rfl
        · rw [unread]
          exact .inr rfl
  · left
    obtain ⟨text, decoded, trimmed⟩ := trimEnd_whole whole
    rw [meaning, decoded]
    dsimp only
    rw [trimmed, if_neg (Json.toText_object_ne_empty members), reads]

theorem eventOfLine_cut (event : Pelagos.Guest.GuestEvent) {bytes : List UInt8}
    (isFront : bytes <+: Utf8.encode (Guest.sendEvent event)) {text : String}
    (decoded : Utf8.decode bytes = some text) :
    Watcher.eventOfLine (Text.trimEnd text) = .ok (.ofGuest event) ∨
      Watcher.eventOfLine (Text.trimEnd text) = .error .invalidText := by
  have fits := fits_event 123 event
  have reads := eventOfVariant_eventToJson event
  obtain ⟨members, is_object⟩ := event_is_object event
  rw [Guest.sendEvent, is_object] at isFront
  rw [is_object] at fits reads
  rcases torn_or_whole isFront with torn | whole
  · right
    exact fromText_torn _ fits torn decoded (prefix_trimEndWhere _ _)
  · left
    obtain ⟨whole_text, whole_decoded, trimmed⟩ := trimEnd_whole whole
    obtain rfl := Option.some.inj (decoded.symm.trans whole_decoded)
    rw [trimmed, Watcher.eventOfLine, fromText, Json.parse_toText fits]
    exact reads

/-- Wherever the connection is cut within a line, the guest runs the host's command or refuses the
line, and the host and the port watcher read the guest's response or event or nothing: no line is
ever taken for another one. -/
theorem cut_lines_all_or_nothing :
    (∀ (order : MapOrder String String) (cmd : Host.GuestCommand) (bytes : List UInt8),
      bytes <+: Host.commandLine order cmd →
      (∀ system, Guest.handleLine system bytes = Guest.handleCommand system (mirror cmd)) ∨
        ∀ system, Guest.Refuses system bytes) ∧
    (∀ (response : Guest.GuestResponse) (bytes : List UInt8),
      bytes <+: Utf8.encode (Guest.sendResponse response) →
      meaning bytes = .response (mirrorResponse response) ∨
        meaning bytes = .blank ∨ meaning bytes = .unreadable) ∧
    (∀ (event : Pelagos.Guest.GuestEvent) (bytes : List UInt8) (text : String),
      bytes <+: Utf8.encode (Guest.sendEvent event) → Utf8.decode bytes = some text →
      Watcher.eventOfLine (Text.trimEnd text) = .ok (.ofGuest event) ∨
        Watcher.eventOfLine (Text.trimEnd text) = .error .invalidText) := by
  refine ⟨fun order cmd bytes isFront => ?_, fun response bytes => meaning_cut response,
    fun event bytes text isFront decoded => eventOfLine_cut event isFront decoded⟩
  rcases torn_or_whole isFront with torn | whole
  · exact .inr fun system => Guest.refuses_torn system torn
  · exact .inl fun system => Guest.handleLine_whole system order cmd whole

/-- Five bytes of a command. -/
theorem cut_ping_all_or_nothing :
    let bytes := (Host.commandLine (.sorted String) .ping).take 5
    (∀ system, Guest.handleLine system bytes = Guest.handleCommand system (mirror .ping)) ∨
      ∀ system, Guest.Refuses system bytes :=
  cut_lines_all_or_nothing.1 (.sorted String) .ping _ (List.take_prefix 5 _)

end Pelagos.Wire
