import Pelagos.DockerShim.Inspect
import Pelagos.Library.FirstOccurrences
import Pelagos.Library.Json

/-!
# `docker events`

The shim has no events to pass on.  It polls `pelagos ps --all`, and prints a start event for every
name that it has not seen before, one JSON object on a line.  A container that is listed again, or
run again under its old name, is not announced again.
-/

namespace Pelagos.DockerShim

open Serde FirstOccurrences Lines

/-- A start event of `docker events`. -/
structure StartEvent where
  id : String
  image : String
  attributes : HashMap String String
  /-- Seconds since the epoch. -/
  time : UInt64
  deriving DecidableEq

namespace StartEvent

/-- The event as `serde_json` keeps it, with its keys sorted. -/
def toJson (event : StartEvent) : Json :=
  .object
    [("Action", .string "start"),
      ("Actor", .object
        [("Attributes", ofMap (.sorted String) .string event.attributes),
          ("ID", .string event.id)]),
      ("Type", .string "container"), ("from", .string event.image), ("id", .string event.id),
      ("scope", .string "local"), ("status", .string "start"), ("time", ofUInt64 event.time),
      ("timeNano", ofUInt64 (event.time * 1000000000))]

/-- The line that is printed. -/
def line (event : StartEvent) : List UInt8 := Utf8.encode (event.toJson.toText ++ "\n")

end StartEvent

/-- What one poll meets. -/
structure EventPoll where
  /-- The output of `pelagos ps --all`, unless it could not be run. -/
  listing : Option String
  /-- What `pelagos inspect` answers for a container, in time and readable. -/
  native : String → Option Json
  /-- The clock when a container is announced. -/
  now : String → UInt64

namespace EventPoll

/-- The event of a listed container; the image and the name replace labels of these names. -/
def startEvent (poll : EventPoll) (entry : PsEntry) : StartEvent :=
  { id := entry.name, image := entry.image
    attributes :=
      ((nativeLabels (poll.native entry.name)).insert "image" entry.image).insert "name" entry.name
    time := poll.now entry.name }

/-- The body of the loop over the entries: the names that are known, and the events so far. -/
def see (poll : EventPoll) (seen : Seen StartEvent String) (entry : PsEntry) :
    Seen StartEvent String :=
  if entry.name ∈ seen.known then seen
  else { known := insert entry.name seen.known, passed := seen.passed ++ [poll.startEvent entry] }

def entries (maps : CaseMaps) (poll : EventPoll) : List PsEntry :=
  match poll.listing with
  | some output => parsePelagosPs maps output
  | none => []

/-- The events there would be if every entry were new. -/
def sightings (maps : CaseMaps) (poll : EventPoll) : List StartEvent :=
  (poll.entries maps).map poll.startEvent

end EventPoll

/-- The events that `cmd_events` has printed after these polls; no name is known at first. -/
def cmdEventsAfter (maps : CaseMaps) (polls : List EventPoll) : List StartEvent :=
  (polls.foldl (fun seen (poll : EventPoll) => (poll.entries maps).foldl poll.see seen)
    Seen.empty).passed

/-- What a program gets that reads the output line by line. -/
def readEvents (output : List UInt8) : List (Option Json) :=
  (linesOf Json.newline output).map fun line =>
    (Utf8.decode line).bind fun text => Json.parse (Text.trim text)

/-! ## The lines -/

theorem StartEvent.fits_toJson (event : StartEvent) : event.toJson.Fits Json.depthLimit := by
  have attributes_fit : (ofMap (.sorted String) Json.string event.attributes).Fits 125 :=
    fits_ofMap (fun value => fits_string 124 value) event.attributes
  have actor_fits : (Json.object
      [("Attributes", ofMap (.sorted String) .string event.attributes),
        ("ID", .string event.id)]).Fits 126 := by
    intro member is_member
    simp only [List.mem_cons, List.not_mem_nil, or_false] at is_member
    rcases is_member with rfl | rfl
    · exact attributes_fit
    · exact fits_string 125 event.id
  intro member is_member
  simp only [List.mem_cons, List.not_mem_nil, or_false] at is_member
  rcases is_member with rfl | rfl | rfl | rfl | rfl | rfl | rfl | rfl | rfl
  case inr.inl => exact actor_fits
  all_goals simp only [fits_string, fits_ofUInt64]

theorem readEvents_lines (events : List StartEvent) :
    readEvents (events.flatMap StartEvent.line) = events.map fun event => some event.toJson := by
  induction events with
  | nil => rfl
  | cons event events ih =>
      have is_line : IsLine Json.newline event.line := Json.isLine_toText event.fits_toJson
      rw [List.flatMap_cons, readEvents, linesOf_append is_line, List.map_cons, ← readEvents, ih,
        StartEvent.line, Utf8.decode_encode, Option.bind_some, StartEvent.toJson,
        Json.trim_object_line, ← StartEvent.toJson, Json.parse_toText event.fits_toJson]
      rfl

/-! ## The first sightings -/

theorem cmdEventsAfter_eq (maps : CaseMaps) (polls : List EventPoll) :
    cmdEventsAfter maps polls =
      ((polls.flatMap (EventPoll.sightings maps)).foldl (Seen.next StartEvent.id)
        Seen.empty).passed := by
  rw [List.foldl_flatMap, cmdEventsAfter]
  simp only [EventPoll.sightings, List.foldl_map]
  rfl

/-- In every run of polls each container is announced once, with what it had at the first poll that
listed it, in the order of these sightings; and the output reads back line by line as the events. -/
theorem events_announce_first_sightings (maps : CaseMaps) (polls : List EventPoll) :
    Firsts StartEvent.id (polls.flatMap (EventPoll.sightings maps)) (cmdEventsAfter maps polls) ∧
      readEvents ((cmdEventsAfter maps polls).flatMap StartEvent.line) =
        (cmdEventsAfter maps polls).map fun event => some event.toJson := by
  refine ⟨?_, readEvents_lines _⟩
  rw [cmdEventsAfter_eq]
  exact (firsts_foldl_next _).1

end Pelagos.DockerShim
