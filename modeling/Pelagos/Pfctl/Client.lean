import Pelagos.CommandLine.Subnets
import Pelagos.Library.TornLines
import Pelagos.Pfctl.Requests

/-!
# The relay's side of a request

The relay sends its request as a line and reads the answer as a line; each side closes the
connection after its line.  Either may go away within its line, and the other then reads what has
arrived.
-/

namespace Pelagos.Pfctl

open Serde CommandLine

/-! ## What the helper writes -/

def Response.toJson (response : Response) : Json :=
  .object (record [("ok", some (.bool response.ok)), ("error", response.error.map .string),
    ("active", response.active.map .bool)])

def Response.toLine (response : Response) : String := response.toJson.toText ++ "\n"

/-- The answer to `create_utun` is put together by hand, without escapes. -/
def utunReply : Except String String → String
  | .ok iface => "\x7b\"ok\":true,\"iface\":\"" ++ iface ++ "\"\x7d\n"
  | .error error => "\x7b\"ok\":false,\"error\":\"" ++ error ++ "\"\x7d\n"

/-- The line of an answer; the texts of parser errors are those of serde. -/
def Answer.reply (errorText : DecodeError → String) : Answer → String
  | .parseError error => (errResp ("parse error: " ++ errorText error)).toLine
  | .response given => given.toLine
  | .utun created => utunReply created

/-- The helper's handler, from the bytes of a line to those of the answer.  A line that is not UTF-8
is not answered. -/
def serve {σ Address : Type} (host : Host σ) (rules : TextRules Address) (order : UtunOrder)
    (errorText : DecodeError → String) (bytes : List UInt8) : Handler σ (List UInt8) :=
  match Utf8.decode bytes with
  | none => return []
  | some line => do
      let answer ← handleConnection host rules order line
      return Utf8.encode (answer.reply errorText)

/-! ## What the relay reads -/

/-- What `pfctl_send` reads of a response. -/
structure SendResp where
  ok : Bool
  error : Option String
  deriving DecidableEq

def SendResp.ofJson : Decoder SendResp
  | .object members => do
      return { ok := ← required bool "ok" members
               error := ← defaulted (option string) none "error" members }
  | _ => .error .invalidType

/-- What `pfctl_send` makes of the reply to its line, in which `read_line` has found no more than
these bytes. -/
def pfctlSend (errorText : DecodeError → String) (reply : List UInt8) : Except String Unit :=
  match Utf8.decode reply with
  | none => .error "pfctl read: stream did not contain valid UTF-8"
  | some text =>
      match fromText SendResp.ofJson (Text.trim text) with
      | .error error => .error ("pfctl parse: " ++ errorText error)
      | .ok response =>
          if response.ok then .ok () else .error ("pfctl: " ++ response.error.getD "")

/-- What `pfctl_create_utun` reads of a response. -/
structure CreateResp where
  ok : Bool
  error : Option String
  iface : Option String
  deriving DecidableEq

def CreateResp.ofJson : Decoder CreateResp
  | .object members => do
      return { ok := ← required bool "ok" members
               error := ← defaulted (option string) none "error" members
               iface := ← defaulted (option string) none "iface" members }
  | _ => .error .invalidType

/-- The characters that `pfctl_create_utun` trims. -/
def isLineEnd (char : Char) : Bool := char == '\n' || char == '\r' || char == ' '

/-- What `pfctl_create_utun` makes of what one `recvmsg` returns: at most 256 bytes, and the
descriptor that came with them. -/
def pfctlCreateUtun (errorText : DecodeError → String) (quoted : String → String)
    (received : List UInt8) (descriptor : Option Nat) : Except String (Nat × String) :=
  match Utf8.decode (received.take 256) with
  | none => .error "pfctl: invalid UTF-8 in create_utun response"
  | some text =>
      let text := Text.trimEndWhere isLineEnd (String.ofList (text.toList.dropWhile isLineEnd))
      match fromText CreateResp.ofJson text with
      | .error error => .error ("pfctl parse " ++ quoted text ++ ": " ++ errorText error)
      | .ok response =>
          if !response.ok then .error ("pfctl create_utun: " ++ response.error.getD "")
          else
            match response.iface with
            | none => .error "pfctl: create_utun response missing iface"
            | some iface =>
                match descriptor with
                | none => .error "pfctl: no SCM_RIGHTS fd in create_utun response"
                | some descriptor => .ok (descriptor, iface)

/-- The request of `pfctl_setup_utun`. -/
def setupRequest (iface egress : String) (subnet : VmSubnet) : Request :=
  .setupUtun iface (String.ofList (ipv4Text subnet.hostIp4))
    (String.ofList (ipv4Text subnet.guestIp4)) subnet.cidr egress

/-! ## Responses are read as they are meant -/

variable {σ Address : Type} {host : Host σ} {rules : TextRules Address} {order : UtunOrder}
variable {errorText : DecodeError → String}

/-- What `pfctl_send` returns for a response. -/
def Response.outcome (response : Response) : Except String Unit :=
  if response.ok then .ok () else .error ("pfctl: " ++ response.error.getD "")

theorem fits_response (response : Response) : response.toJson.Fits Json.depthLimit := by
  refine @fits_record 126 _ fun entry member => ?_
  obtain ⟨ok, error, active⟩ := response
  simp only [List.mem_cons, List.not_mem_nil, or_false] at member
  rcases member with rfl | rfl | rfl
  · simp
  · cases error <;> simp
  · cases active <;> simp

theorem ofJson_response (response : Response) :
    SendResp.ofJson response.toJson = .ok { ok := response.ok, error := response.error } := by
  simp [Response.toJson, SendResp.ofJson]

/-- A reply that is cut is refused, or read as it is meant when only its newline is missing. -/
theorem pfctlSend_cut {response : Response} {reply : List UInt8}
    (isFront : reply <+: Utf8.encode response.toLine) :
    pfctlSend errorText reply = response.outcome ∨
      ∃ message, pfctlSend errorText reply = .error message := by
  rw [pfctlSend]
  cases decoded : Utf8.decode reply with
  | none => exact .inr ⟨_, rfl⟩
  | some text =>
      dsimp only
      rcases Json.read_cut_line SendResp.ofJson (fits_response response) isFront decoded with
        whole | unread
      · left
        rw [whole, ← Response.toJson, ofJson_response]
        rfl
      · rw [unread]
        exact .inr ⟨_, rfl⟩

theorem pfctlSend_toLine (response : Response) :
    pfctlSend errorText (Utf8.encode response.toLine) = response.outcome := by
  have trimmed : Text.trim response.toLine = response.toJson.toText := Json.trim_object_line _
  rw [pfctlSend, Utf8.decode_encode]
  dsimp only
  rw [trimmed, fromText, Json.parse_toText (fits_response response)]
  dsimp only
  rw [ofJson_response]
  rfl

theorem outcome_eq_ok {response : Response} :
    response.outcome = .ok () ↔ response.ok = true := by
  rw [Response.outcome]
  split <;> simp_all

/-! ## The answer to `create_utun` -/

/-- JSON has no escape for any character of the text. -/
def Unescaped (text : String) : Prop := ∀ char ∈ text.toList, Json.escape char = [char]

theorem printString_unescaped {text : String} (plain : Unescaped text) :
    Json.printString text = '\x22' :: text.toList ++ ['\x22'] := by
  have kept : text.toList.flatMap Json.escape = text.toList := by
    rw [List.flatMap_congr plain, List.flatMap_singleton']
  rw [Json.printString, kept]

/-- The members of the object that the answer is, unless it needs escapes. -/
def utunMembers : Except String String → Members
  | .ok iface => [("ok", .bool true), ("iface", .string iface)]
  | .error error => [("ok", .bool false), ("error", .string error)]

/-- Without escapes the text put together by hand is that of an object. -/
theorem utunReply_eq {created : Except String String}
    (plain : ∀ text, created = .ok text ∨ created = .error text → Unescaped text) :
    utunReply created = (Json.object (utunMembers created)).toText ++ "\n" := by
  have ok_text : Json.printString "ok" = "\"ok\"".toList := by decide
  refine String.toList_inj.mp ?_
  cases created with
  | ok iface =>
      have reply_eq : utunReply (.ok iface) =
          "\x7b\"ok\":true,\"iface\":\"" ++ iface ++ "\"\x7d\n" := rfl
      have iface_text : Json.printString "iface" = "\"iface\"".toList := by decide
      simp only [reply_eq, utunMembers, Json.toText, Json.print, Json.printMembers, Json.commaJoin,
        printString_unescaped (plain iface (.inl rfl)), ok_text, iface_text, String.toList_append,
        String.toList_ofList]
      simp
  | error error =>
      have reply_eq : utunReply (.error error) =
          "\x7b\"ok\":false,\"error\":\"" ++ error ++ "\"\x7d\n" := rfl
      have error_text : Json.printString "error" = "\"error\"".toList := by decide
      simp only [reply_eq, utunMembers, Json.toText, Json.print, Json.printMembers, Json.commaJoin,
        printString_unescaped (plain error (.inr rfl)), ok_text, error_text, String.toList_append,
        String.toList_ofList]
      simp

/-- What `pfctl_create_utun` returns for an answer. -/
def utunOutcome (created : Except String String) (descriptor : Option Nat) :
    Except String (Nat × String) :=
  match created, descriptor with
  | .error error, _ => .error ("pfctl create_utun: " ++ error)
  | .ok _, none => .error "pfctl: no SCM_RIGHTS fd in create_utun response"
  | .ok iface, some descriptor => .ok (descriptor, iface)

/-- An answer that needs no escapes and fits the buffer is read as it is meant. -/
theorem utun_received {created : Except String String}
    (plain : ∀ text, created = .ok text ∨ created = .error text → Unescaped text)
    (short : (Utf8.encode (utunReply created)).length ≤ 256) (quoted : String → String)
    (descriptor : Option Nat) :
    pfctlCreateUtun errorText quoted (Utf8.encode (utunReply created)) descriptor =
      utunOutcome created descriptor := by
  obtain ⟨rest, opens⟩ := Json.toText_object_opens (utunMembers created)
  have visible : (utunReply created).toList.dropWhile isLineEnd = (utunReply created).toList := by
    rw [utunReply_eq plain, String.toList_append, opens, List.cons_append,
      List.dropWhile_cons_of_neg (by decide)]
  have trimmed : Text.trimEndWhere isLineEnd (utunReply created) =
      (Json.object (utunMembers created)).toText := by
    rw [utunReply_eq plain]
    exact Json.trimEndWhere_object_line (by decide) (by decide) _
  have fits : (Json.object (utunMembers created)).Fits Json.depthLimit := by
    cases created <;> simp [utunMembers, Json.Fits, Json.depthLimit]
  rw [pfctlCreateUtun, List.take_of_length_le short, Utf8.decode_encode]
  dsimp only
  rw [visible, String.ofList_toList, trimmed, fromText, Json.parse_toText fits]
  cases created with
  | error error => rfl
  | ok iface => cases descriptor <;> rfl

/-! ## One exchange -/

/-- The helper answers every request but one with a response. -/
theorem exists_response {request : Request} (sent : request ≠ .createUtun) (world : World σ) :
    ∃ response, (handleRequest host rules order request world).1 = .response response := by
  cases request with
  | createUtun => exact absurd rfl sent
  | setupUtun | teardownUtun | addRdr | removeRdr | assignUtunAlias => exact ⟨_, rfl⟩

theorem request_is_object (request : Request) : ∃ members, request.toJson = .object members := by
  cases request <;> exact ⟨_, rfl⟩

theorem fits_request (request : Request) : request.toJson.Fits Json.depthLimit := by
  obtain ⟨variant, entries, json_eq, -, fits, -⟩ := Request.toJson_eq_object request
  rw [json_eq, tagged]
  refine @fits_record 126 _ fun entry member => ?_
  rcases List.mem_cons.mp member with rfl | member
  · simp
  · exact fits entry member

/-- Of a line that was cut the helper reads the request, or nothing. -/
theorem ofLine_cut {request : Request} {bytes : List UInt8}
    (arrived : bytes <+: Utf8.encode request.toLine) {line : String}
    (decoded : Utf8.decode bytes = some line) :
    Request.ofLine line = .ok request ∨ Request.ofLine line = .error .invalidText := by
  have fits := fits_request request
  have reads := Request.ofLine_toLine request
  obtain ⟨members, is_object⟩ := request_is_object request
  rw [Request.ofLine, Request.toLine, is_object, Json.trim_object_line, fromText,
    Json.parse_toText (is_object ▸ fits)] at reads
  rw [Request.toLine, is_object] at arrived
  rw [← reads]
  exact Json.read_cut_line _ (is_object ▸ fits) arrived decoded

/-- The helper handles the request that was sent, or leaves everything as it is and answers with a
refusal, if at all. -/
theorem serve_cut {request : Request} {bytes : List UInt8}
    (arrived : bytes <+: Utf8.encode request.toLine) (world : World σ) :
    serve host rules order errorText bytes world =
        (Utf8.encode ((handleRequest host rules order request world).1.reply errorText),
          (handleRequest host rules order request world).2) ∨
      (serve host rules order errorText bytes world).2 = world ∧
        ((serve host rules order errorText bytes world).1 = [] ∨
          ∃ message, (serve host rules order errorText bytes world).1 =
            Utf8.encode (errResp message).toLine) := by
  cases decoded : Utf8.decode bytes with
  | none =>
      right
      have unanswered : serve host rules order errorText bytes world = ([], world) := by
        rw [serve, decoded]
        rfl
      rw [unanswered]
      exact ⟨rfl, .inl rfl⟩
  | some line =>
      rcases ofLine_cut arrived decoded with whole | unread
      · left
        rw [serve, decoded]
        dsimp only
        rw [bind_apply, handleConnection, whole]
        rfl
      · right
        have refused : serve host rules order errorText bytes world =
            (Utf8.encode (errResp ("parse error: " ++ errorText .invalidText)).toLine, world) := by
          rw [serve, decoded]
          dsimp only
          rw [bind_apply, handleConnection, unread]
          rfl
        refine ⟨by rw [refused], .inr ⟨"parse error: " ++ errorText .invalidText, ?_⟩⟩
        rw [refused]

theorem pfctlSend_nil : ∃ message, pfctlSend errorText [] = .error message := by
  have decoded : Utf8.decode [] = some "" := Utf8.decode_encode ""
  have unread : fromText SendResp.ofJson (Text.trim "") = .error .invalidText := rfl
  rw [pfctlSend, decoded]
  dsimp only
  rw [unread]
  exact ⟨_, rfl⟩

theorem serve_toLine (request : Request) (world : World σ) :
    serve host rules order errorText (Utf8.encode request.toLine) world =
      (Utf8.encode ((handleRequest host rules order request world).1.reply errorText),
        (handleRequest host rules order request world).2) := by
  rw [serve, Utf8.decode_encode]
  dsimp only
  rw [bind_apply, handleConnection_toLine]
  rfl

/-- Wherever the request and the answer are cut, the helper handles this request once or not at
all, and the relay hears of success only when the helper has handled it and succeeded. -/
theorem request_exchanged (host : Host σ) (rules : TextRules Address) (order : UtunOrder)
    (errorText : DecodeError → String) {request : Request} (sent : request ≠ .createUtun)
    {bytes : List UInt8} (arrived : bytes <+: Utf8.encode request.toLine) (world : World σ) :
    let handled := handleRequest host rules order request world
    let served := serve host rules order errorText bytes world
    (served.2 = handled.2 ∨ served.2 = world) ∧
      (∀ reply, reply <+: served.1 → pfctlSend errorText reply = .ok () →
        served.2 = handled.2 ∧ handled.1.ok = true) ∧
      (bytes = Utf8.encode request.toLine → served.2 = handled.2 ∧
        ∃ response, handled.1 = .response response ∧
          pfctlSend errorText served.1 = response.outcome) := by
  intro handled served
  obtain ⟨response, answered⟩ : ∃ response, handled.1 = .response response :=
    exists_response sent world
  have reply_eq : handled.1.reply errorText = response.toLine := by rw [answered]; rfl
  refine ⟨?_, fun reply isFront succeeded => ?_, fun whole => ?_⟩
  · rcases serve_cut arrived world with served_eq | ⟨unchanged, -⟩
    · exact .inl (congrArg Prod.snd served_eq)
    · exact .inr unchanged
  · rcases serve_cut arrived world with served_eq | ⟨-, nothing | ⟨message, refusal⟩⟩
    · refine ⟨congrArg Prod.snd served_eq, ?_⟩
      have written : served.1 = Utf8.encode response.toLine := by
        rw [← reply_eq]
        exact congrArg Prod.fst served_eq
      rw [written] at isFront
      rw [answered]
      rcases pfctlSend_cut isFront with read | ⟨message, unread⟩
      · exact outcome_eq_ok.mp (read.symm.trans succeeded)
      · rw [unread] at succeeded
        cases succeeded
    · obtain ⟨message, unread⟩ := @pfctlSend_nil errorText
      have unanswered : served.1 = [] := nothing
      rw [unanswered, List.prefix_nil] at isFront
      rw [isFront] at succeeded
      rw [unread] at succeeded
      cases succeeded
    · have refused : served.1 = Utf8.encode (errResp message).toLine := refusal
      rw [refused] at isFront
      rcases pfctlSend_cut isFront with read | ⟨other, unread⟩
      · rw [read] at succeeded
        cases succeeded
      · rw [unread] at succeeded
        cases succeeded
  · have served_eq : served = (Utf8.encode (handled.1.reply errorText), handled.2) := by
      simp only [served, whole]
      exact serve_toLine request world
    rw [served_eq, reply_eq]
    exact ⟨rfl, response, answered, pfctlSend_toLine response⟩

/-- A system on which every command succeeds and nothing is remembered. -/
def obligingHost : Host Unit where
  perform _ _ := (none, ())
  createUtun _ := (.ok "utun9", ())

/-- A teardown cut after ten bytes. -/
theorem torn_teardown_exchanged :
    let rules := asciiRules fun _ => (none : Option Unit)
    let world : World Unit := { system := (), state := .new }
    let handled := handleRequest obligingHost rules (.sorted _) (.teardownUtun "utun9") world
    let served := serve obligingHost rules (.sorted _) (fun _ => "EOF")
      ((Utf8.encode (Request.teardownUtun "utun9").toLine).take 10) world
    ∀ reply, reply <+: served.1 → pfctlSend (fun _ => "EOF") reply = .ok () →
      served.2 = handled.2 ∧ handled.1.ok = true :=
  have sent : Request.teardownUtun "utun9" ≠ .createUtun := by simp
  (request_exchanged obligingHost (asciiRules fun _ => (none : Option Unit)) (.sorted _)
    (fun _ => "EOF") sent (List.take_prefix 10 _) _).2.1

end Pelagos.Pfctl
