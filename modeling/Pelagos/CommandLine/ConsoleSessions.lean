import Pelagos.CommandLine.ConsoleInput
import Pelagos.Daemon.ConsoleRelay
import Pelagos.Library.RelayedStream

/-!
# Sessions on the VM console

Any number of `pelagos vm console` processes connect to the daemon.  Its relay thread serves one of
them after the other with `proxy_console`, and drains the console into the ring in between.  Each
side stops when it likes, and what it has not read by then is lost.
-/

namespace Pelagos.CommandLine

open Execution Daemon

/-! ## One turn of each loop -/

/-- What a turn of `console_proxy` reads from its connection. -/
def ConsoleProxy.consoleChunk (isTty : Bool) (proxy : ConsoleProxy) (turn : ConsoleTurn) :
    List UInt8 :=
  match proxy.beforePoll isTty turn.now turn.later with
  | none => []
  | some proxy =>
      match turn.poll with
      | .ready ready =>
          match proxy.readStdin ready with
          | .onward _ => ready.console.getD []
          | .stop _ | .again _ => []
      | .failed | .timedOut => []

/-- What `poll` reports in `proxy_console`, and what the calls on the ready descriptors return. -/
structure SessionReady where
  /-- `POLLIN` of the client, with the bytes that are read; at its end there are none. -/
  client : Option (List UInt8)
  clientHangUp : Bool
  /-- `POLLIN` of the serial console. -/
  serial : Option (List UInt8)
  /-- The write to the client succeeds. -/
  clientOpen : Bool
  serialHangUp : Bool
  deriving DecidableEq

/-- What a turn of `proxy_console` reads and writes. -/
structure Passage where
  toSerial : List UInt8
  fromSerial : List UInt8
  toClient : List UInt8
  /-- The loop is left. -/
  ends : Bool
  deriving DecidableEq

/-- One turn of the loop of `proxy_console`. -/
def proxyConsole (ready : SessionReady) : Passage :=
  if ready.client = some [] then { toSerial := [], fromSerial := [], toClient := [], ends := true }
  else
    let toSerial := ready.client.getD []
    if ready.clientHangUp then { toSerial, fromSerial := [], toClient := [], ends := true }
    else
      match ready.serial with
      | none => { toSerial, fromSerial := [], toClient := [], ends := ready.serialHangUp }
      | some [] => { toSerial, fromSerial := [], toClient := [], ends := true }
      | some (byte :: rest) =>
          if ready.clientOpen then
            { toSerial, fromSerial := byte :: rest, toClient := byte :: rest
              ends := ready.serialHangUp }
          else { toSerial, fromSerial := byte :: rest, toClient := [], ends := true }

/-! ## Terminals and the daemon -/

/-- A `pelagos vm console` process and its connection to the daemon. -/
structure Terminal where
  isTty : Bool
  /-- All that comes from its standard input, some of it later. -/
  input : List UInt8
  world : ConsoleWorld
  /-- From the process to the serial console. -/
  up : RelayedStream UInt8
  /-- From the serial console to the process. -/
  down : RelayedStream UInt8
  /-- The part of the ring that was replayed. -/
  replayed : List UInt8
  /-- What the daemon has read from the serial console for this terminal. -/
  live : List UInt8

namespace Terminal

def connected (isTty : Bool) (input : List UInt8) : Terminal where
  isTty := isTty
  input := input
  world := .init input
  up := .idle
  down := .idle
  replayed := []
  live := []

/-- What the system can report to `console_proxy`. -/
def Allows (terminal : Terminal) (turn : ConsoleTurn) : Prop :=
  match turn.poll with
  | .failed => True
  | .timedOut => terminal.world.proxy.stdinDone
  | .ready ready =>
      (terminal.world.proxy.stdinDone = false → ready.FitsInput terminal.world.unread) ∧
        ∀ chunk ∈ ready.console, chunk <+: terminal.down.leaving ∧ chunk.length ≤ 4096

instance (terminal : Terminal) (turn : ConsoleTurn) : Decidable (terminal.Allows turn) :=
  match found : turn.poll with
  | .failed => .isTrue (by rw [Allows, found]; trivial)
  | .timedOut => decidable_of_iff terminal.world.proxy.stdinDone (by rw [Allows, found])
  | .ready ready => decidable_of_iff
      ((terminal.world.proxy.stdinDone = false → ready.FitsInput terminal.world.unread) ∧
        ∀ chunk ∈ ready.console, chunk <+: terminal.down.leaving ∧ chunk.length ≤ 4096)
      (by rw [Allows, found])

/-- A turn of `console_proxy`; what it writes waits for the daemon. -/
def turn (terminal : Terminal) (turn : ConsoleTurn) : Terminal :=
  let before := terminal.world.proxy
  let proxy := before.turn terminal.isTty turn
  { terminal with
    world := { proxy
               unread := terminal.world.unread.drop ((terminal.world.chunk turn).getD []).length }
    up := terminal.up.send (proxy.forwarded.drop before.forwarded.length)
    down := terminal.down.deliver (before.consoleChunk terminal.isTty turn).length }

/-- The connection is accepted and the ring replayed. -/
def replay (terminal : Terminal) (shown : List UInt8) : Terminal :=
  { terminal with
    down := (terminal.down.send shown).flush
    replayed := shown }

/-- The daemon closes the connection. -/
def close (terminal : Terminal) : Terminal :=
  { terminal with up := terminal.up.finish, down := terminal.down.finish }

/-- A turn of `proxy_console` for this terminal. -/
def pass (terminal : Terminal) (passage : Passage) : Terminal :=
  let passed : Terminal :=
    { terminal with
      up := (terminal.up.takeIn passage.toSerial.length).passOn passage.toSerial.length
      down := ((terminal.down.send passage.fromSerial).takeIn passage.fromSerial.length).passOn
        passage.toClient.length
      live := terminal.live ++ passage.fromSerial }
  if passage.ends then passed.close else passed

end Terminal

/-- The daemon's relay thread and everybody who has connected, in the order of the connections. -/
structure ConsoleHost where
  relay : ConsoleRelay
  terminals : List Terminal
  /-- So many connections have been accepted; while a client is attached, it is the last of
  them. -/
  accepted : Nat
  /-- What the VM has been given on the serial console. -/
  typed : List UInt8
  /-- What the VM has written to the serial console. -/
  produced : List UInt8

/-- A terminal connects, a terminal or the daemon makes a step, or the VM writes. -/
inductive SessionAction where
  | connect (isTty : Bool) (input : List UInt8)
  | turn (terminal : Nat) (turn : ConsoleTurn)
  | produce (bytes : List UInt8)
  /-- The relay thread reads without a client. -/
  | drain (size : Nat)
  /-- The flag says whether `proxy_console` can duplicate the serial console. -/
  | accept (duplicates : Bool)
  /-- A turn of `proxy_console`. -/
  | pass (ready : SessionReady)
  /-- `poll` fails in `proxy_console`. -/
  | abandon

namespace ConsoleHost

def init : ConsoleHost :=
  { relay := .init, terminals := [], accepted := 0, typed := [], produced := [] }

/-- What the system can report to `proxy_console` when it serves this terminal. -/
def Allows (host : ConsoleHost) (terminal : Terminal) (ready : SessionReady) : Prop :=
  (∀ chunk ∈ ready.client,
      chunk <+: terminal.up.entering ∧ chunk.length ≤ ConsoleRelay.bufferSize) ∧
    ∀ chunk ∈ ready.serial,
      chunk <+: host.relay.unread ∧ chunk.length ≤ ConsoleRelay.bufferSize

instance (host : ConsoleHost) (terminal : Terminal) (ready : SessionReady) :
    Decidable (host.Allows terminal ready) := instDecidableAnd

/-- The terminal that is being served. -/
def attached (host : ConsoleHost) : Option Terminal :=
  if host.relay.attached then host.terminals[host.accepted - 1]? else none

/-- `proxy_console` has read these bytes from the serial console. -/
def readSerial (relay : ConsoleRelay) (bytes : List UInt8) : Option ConsoleRelay :=
  if bytes = [] then some relay else relay.step (.read bytes.length)

/-- `proxy_console` returns. -/
def endIf (ends : Bool) (relay : ConsoleRelay) : Option ConsoleRelay :=
  if ends then relay.step .disconnect else some relay

/-- `proxy_console` goes on with the attached terminal, or returns. -/
def serve (host : ConsoleHost) (terminal : Terminal) (passage : Passage) : Option ConsoleHost := do
  let read ← readSerial host.relay passage.fromSerial
  let relay ← endIf passage.ends read
  return { host with
    relay
    terminals := host.terminals.set (host.accepted - 1) (terminal.pass passage)
    typed := host.typed ++ passage.toSerial }

def step (host : ConsoleHost) : SessionAction → Option ConsoleHost
  | .connect isTty input =>
      some { host with terminals := host.terminals ++ [.connected isTty input] }
  | .turn index turn => do
      let terminal ← host.terminals[index]?
      if terminal.world.proxy.ended = false ∧ terminal.Allows turn then
        some { host with terminals := host.terminals.set index (terminal.turn turn) }
      else none
  | .produce bytes => do
      let relay ← host.relay.step (.produce bytes)
      return { host with relay, produced := host.produced ++ bytes }
  | .drain size =>
      if host.relay.attached then none
      else do
        let relay ← host.relay.step (.read size)
        return { host with relay }
  | .accept duplicates => do
      let terminal ← host.terminals[host.accepted]?
      let segments ← host.relay.ring.replaySegments
      let shown := terminal.replay segments.flatten
      let joined ← host.relay.step .connect
      let relay ← endIf (!duplicates) joined
      return { host with
        relay
        terminals := host.terminals.set host.accepted (if duplicates then shown else shown.close)
        accepted := host.accepted + 1 }
  | .pass ready => do
      let terminal ← host.attached
      if host.Allows terminal ready then host.serve terminal (proxyConsole ready) else none
  | .abandon => do
      let terminal ← host.attached
      host.serve terminal { toSerial := [], fromSerial := [], toClient := [], ends := true }

end ConsoleHost

/-! ## What a turn changes -/

namespace ConsoleProxy

/-- A turn forwards nothing, or the chunk that it reads. -/
inductive Forwards (proxy next : ConsoleProxy) (chunk : Option (List UInt8)) : Prop where
  | nothing (forwarded : next.forwarded = proxy.forwarded)
      (settled : next.Settled ∨ chunk.getD [] = [])
  | passed (bytes : List UInt8) (reading : proxy.stdinDone = false) (found : chunk = some bytes)
      (free : detachByte ∉ bytes) (forwarded : next.forwarded = proxy.forwarded ++ bytes)

theorem behind_forwarded (ready : Ready) (proxy : ConsoleProxy) :
    ((proxy.noteHangUp ready).readConsole ready).forwarded = proxy.forwarded := by
  rw [readConsole_forwarded, noteHangUp]
  split <;> rfl

theorem forwards_turn (isTty : Bool) (world : ConsoleWorld) (turn : ConsoleTurn) :
    Forwards world.proxy (world.proxy.turn isTty turn) (world.chunk turn) := by
  obtain ⟨now, later, poll⟩ := turn
  cases reading : world.proxy.stdinDone with
  | true =>
      obtain ⟨forwarded, done⟩ := turn_of_done isTty reading ⟨now, later, poll⟩
      exact .nothing forwarded (.inl (.inl done))
  | false =>
      have polled : world.proxy.beforePoll isTty now later = some world.proxy := by
        simp [beforePoll, reading]
      cases poll with
      | failed =>
          rw [ConsoleProxy.turn, polled]
          exact .nothing rfl (.inl (.inr rfl))
      | timedOut =>
          rw [ConsoleProxy.turn, polled]
          exact .nothing rfl (.inl (.inr rfl))
      | ready ready =>
          have found : world.chunk ⟨now, later, .ready ready⟩ = ready.stdin := by
            simp [ConsoleWorld.chunk, reading]
          rw [turn_of_reading isTty reading, found]
          cases received : ready.stdin with
          | none =>
              have reads : world.proxy.readStdin ready = .onward world.proxy := by
                simp [readStdin, received]
              rw [reads]
              exact .nothing (behind_forwarded ready world.proxy) (.inr rfl)
          | some bytes =>
              by_cases empty : bytes = []
              · have reads : world.proxy.readStdin ready =
                    .again { world.proxy with stdinDone := true } := by
                  simp [readStdin, received, reading, empty]
                rw [reads]
                exact .nothing rfl (.inl (.inl rfl))
              · by_cases detach : detachByte ∈ bytes
                · have reads : world.proxy.readStdin ready = .stop world.proxy := by
                    simp [readStdin, received, reading, empty, detach]
                  rw [reads]
                  exact .nothing rfl (.inl (.inr rfl))
                · have reads : world.proxy.readStdin ready = .onward
                      { world.proxy with forwarded := world.proxy.forwarded ++ bytes } := by
                    simp [readStdin, received, reading, empty, detach]
                  rw [reads]
                  exact .passed bytes reading rfl detach (behind_forwarded ready _)

theorem readConsole_printed (ready : Ready) (proxy : ConsoleProxy) :
    (proxy.readConsole ready).printed = proxy.printed ++ ready.console.getD [] ∨
      ((proxy.readConsole ready).printed = proxy.printed ∧
        (proxy.readConsole ready).ended = true) := by
  unfold readConsole leave
  cases ready.console <;> grind

/-- A turn prints what it reads from its connection, or it is the last one. -/
theorem printed_turn (isTty : Bool) (proxy : ConsoleProxy) (turn : ConsoleTurn) :
    (proxy.turn isTty turn).printed = proxy.printed ++ proxy.consoleChunk isTty turn ∨
      ((proxy.turn isTty turn).printed = proxy.printed ∧
        (proxy.turn isTty turn).ended = true) := by
  unfold ConsoleProxy.turn consoleChunk
  cases polled : proxy.beforePoll isTty turn.now turn.later with
  | none => exact .inr ⟨rfl, rfl⟩
  | some polling =>
      have kept : polling.printed = proxy.printed := by
        unfold beforePoll at polled
        grind
      cases turn.poll with
      | failed => exact .inr ⟨kept, rfl⟩
      | timedOut => exact .inr ⟨kept, rfl⟩
      | ready ready =>
          dsimp only
          cases reads : polling.readStdin ready with
          | stop stopped =>
              refine .inr ⟨?_, rfl⟩
              unfold readStdin at reads
              grind [leave]
          | again more =>
              refine .inl ?_
              unfold readStdin at reads
              grind
          | onward passed =>
              have same : (passed.noteHangUp ready).printed = proxy.printed := by
                unfold readStdin at reads
                unfold noteHangUp
                grind
              rw [← same]
              exact readConsole_printed ready (passed.noteHangUp ready)

end ConsoleProxy

/-! ## One terminal -/

namespace Terminal

/-- The invariant of a terminal: what went up is the front of its input that it has forwarded, and
what it has printed is a front of what it was shown. -/
structure Sound (terminal : Terminal) : Prop where
  held : terminal.up.held = []
  sent_up : terminal.up.sent = terminal.world.proxy.forwarded
  due : terminal.world.proxy.forwarded <+: beforeDetach terminal.input
  reading : ¬ terminal.world.proxy.Settled → terminal.world.due = beforeDetach terminal.input
  printed : terminal.world.proxy.printed <+: terminal.down.delivered
  running : terminal.world.proxy.ended = false →
    terminal.world.proxy.printed = terminal.down.delivered
  sent_down : terminal.down.sent = terminal.replayed ++ terminal.live

/-- The connection has not been accepted. -/
structure Unserved (terminal : Terminal) : Prop where
  written : terminal.up.written = []
  replayed : terminal.replayed = []
  live : terminal.live = []

theorem sound_connected (isTty : Bool) (input : List UInt8) : (connected isTty input).Sound where
  held := rfl
  sent_up := rfl
  due := List.nil_prefix
  reading _ := rfl
  printed := List.prefix_rfl
  running _ := rfl
  sent_down := rfl

theorem unserved_connected (isTty : Bool) (input : List UInt8) :
    (connected isTty input).Unserved := ⟨rfl, rfl, rfl⟩

variable {terminal : Terminal}

/-- A turn reads what waits in its connection. -/
theorem consoleChunk_waits {turn : ConsoleTurn} (allowed : terminal.Allows turn) :
    terminal.world.proxy.consoleChunk terminal.isTty turn <+: terminal.down.leaving := by
  unfold ConsoleProxy.consoleChunk
  unfold Allows at allowed
  split
  · exact List.nil_prefix
  · split
    · rename_i ready polled
      rw [polled] at allowed
      split
      · cases found : ready.console with
        | none => exact List.nil_prefix
        | some chunk => exact (allowed.2 chunk found).1
      · exact List.nil_prefix
      · exact List.nil_prefix
    · exact List.nil_prefix
    · exact List.nil_prefix

/-- The input that is owed stays the same while the terminal reads it. -/
theorem Sound.due_turn (sound : terminal.Sound) {turn : ConsoleTurn}
    (running : terminal.world.proxy.ended = false) (allowed : terminal.Allows turn) :
    (terminal.turn turn).world.proxy.forwarded <+: beforeDetach terminal.input ∧
      (¬ (terminal.turn turn).world.proxy.Settled →
        (terminal.turn turn).world.due = beforeDetach terminal.input) := by
  rcases ConsoleProxy.forwards_turn terminal.isTty terminal.world turn with
    ⟨forwarded, settled⟩ | ⟨bytes, reading, found, free, forwarded⟩
  · refine ⟨?_, fun unsettled => ?_⟩
    · change (terminal.world.proxy.turn terminal.isTty turn).forwarded <+: _
      rw [forwarded]
      exact sound.due
    · have nothing := settled.resolve_left unsettled
      have still : ¬ terminal.world.proxy.Settled := by
        rintro (done | ended)
        · exact unsettled (.inl (ConsoleProxy.turn_of_done terminal.isTty done turn).2)
        · rw [running] at ended
          cases ended
      rw [← sound.reading still]
      simp [ConsoleWorld.due, Terminal.turn, forwarded, nothing]
  · have still : ¬ terminal.world.proxy.Settled := by
      simp [ConsoleProxy.Settled, reading, running]
    have waits : bytes <+: terminal.world.unread := by
      unfold ConsoleWorld.chunk at found
      unfold Allows at allowed
      split at found
      · rename_i ready polled
        rw [polled] at allowed
        rw [if_neg (by simp [reading])] at found
        have fits := allowed.1 reading
        rw [Ready.FitsInput, found] at fits
        exact fits.1
      · cases found
    obtain ⟨rest, cut⟩ := waits
    have owed : (terminal.turn turn).world.due = beforeDetach terminal.input := by
      rw [← sound.reading still]
      simp [ConsoleWorld.due, Terminal.turn, forwarded, found, ← cut, beforeDetach_append free]
    exact ⟨⟨_, owed⟩, fun _ => owed⟩

theorem Sound.turn (sound : terminal.Sound) {turn : ConsoleTurn}
    (running : terminal.world.proxy.ended = false) (allowed : terminal.Allows turn) :
    (terminal.turn turn).Sound where
  held := (RelayedStream.held_send _ _).trans sound.held
  sent_up := by
    change (terminal.up.send _).sent = _
    rw [RelayedStream.send_sent, sound.sent_up]
    rcases ConsoleProxy.forwards_turn terminal.isTty terminal.world turn with
      ⟨forwarded, -⟩ | ⟨bytes, -, -, -, forwarded⟩ <;>
    simp [Terminal.turn, forwarded]
  due := (sound.due_turn running allowed).1
  reading := (sound.due_turn running allowed).2
  printed := by
    have waits := List.prefix_iff_eq_take.mp (consoleChunk_waits allowed)
    change (terminal.world.proxy.turn terminal.isTty turn).printed <+:
      (terminal.down.deliver _).delivered
    rw [RelayedStream.deliver_delivered, ← waits]
    rcases ConsoleProxy.printed_turn terminal.isTty terminal.world.proxy turn with
      printed | ⟨printed, -⟩
    · rw [printed, sound.running running]
    · rw [printed]
      exact sound.printed.trans (List.prefix_append _ _)
  running still := by
    have waits := List.prefix_iff_eq_take.mp (consoleChunk_waits allowed)
    change (terminal.world.proxy.turn terminal.isTty turn).printed =
      (terminal.down.deliver _).delivered
    rw [RelayedStream.deliver_delivered, ← waits]
    rcases ConsoleProxy.printed_turn terminal.isTty terminal.world.proxy turn with
      printed | ⟨-, ended⟩
    · rw [printed, sound.running running]
    · cases ended.symm.trans still
  sent_down := sound.sent_down

theorem Sound.replay (sound : terminal.Sound) (unserved : terminal.Unserved) (shown : List UInt8) :
    (terminal.replay shown).Sound :=
  { sound with
    printed := by simpa [Terminal.replay] using sound.printed
    running := by simpa [Terminal.replay] using sound.running
    sent_down := by simp [Terminal.replay, sound.sent_down, unserved.replayed, unserved.live] }

theorem Sound.close (sound : terminal.Sound) : terminal.close.Sound :=
  { sound with held := rfl }

/-- What is served is passed on in both directions. -/
theorem Sound.pass (sound : terminal.Sound) {passage : Passage}
    (waits : passage.toSerial <+: terminal.up.entering) :
    (terminal.pass passage).Sound ∧
      (terminal.pass passage).up.written = terminal.up.written ++ passage.toSerial ∧
      (terminal.pass passage).live = terminal.live ++ passage.fromSerial ∧
      (terminal.pass passage).replayed = terminal.replayed := by
  obtain ⟨written, held⟩ := RelayedStream.written_passOn_takeIn sound.held waits
  have passed : Sound
      { terminal with
        up := (terminal.up.takeIn passage.toSerial.length).passOn passage.toSerial.length
        down := ((terminal.down.send passage.fromSerial).takeIn passage.fromSerial.length).passOn
          passage.toClient.length
        live := terminal.live ++ passage.fromSerial } :=
    { sound with
      held
      printed := by simpa using sound.printed
      running := by simpa using sound.running
      sent_down := by simp [sound.sent_down] }
  unfold Terminal.pass
  split
  · exact ⟨passed.close, written, rfl, rfl⟩
  · exact ⟨passed, written, rfl, rfl⟩

theorem turn_served (turn : ConsoleTurn) :
    (terminal.turn turn).up.written = terminal.up.written ∧
      (terminal.turn turn).live = terminal.live ∧
      (terminal.turn turn).replayed = terminal.replayed :=
  ⟨RelayedStream.written_send _ _, rfl, rfl⟩

end Terminal

/-! ## Lists of which one element changes -/

theorem map_set_of_eq {α β : Type*} {items : List α} {index : Nat} {item changed : α}
    {f : α → β} (found : items[index]? = some item) (same : f changed = f item) :
    (items.set index changed).map f = items.map f := by
  refine List.ext_getElem? fun position => ?_
  rw [List.getElem?_map, List.getElem?_map, List.getElem?_set]
  split
  · rename_i here
    subst here
    rw [if_pos (List.getElem?_eq_some_iff.mp found).1, found]
    exact congrArg some same
  · rfl

/-- Only the elements up to this one contribute. -/
theorem flatMap_set_of_behind {α β : Type*} {items : List α} {index : Nat} {item changed : α}
    {f : α → List β} (found : items[index]? = some item)
    (behind : ∀ other ∈ items.drop (index + 1), f other = []) {more : List β}
    (longer : f changed = f item ++ more) :
    (items.set index changed).flatMap f = items.flatMap f ++ more := by
  obtain ⟨bound, rfl⟩ := List.getElem?_eq_some_iff.mp found
  have silent : (items.drop (index + 1)).flatMap f = [] := List.flatMap_eq_nil_iff.mpr behind
  have whole : items.flatMap f = (items.take index).flatMap f ++ f items[index] := by
    calc items.flatMap f =
        (items.take index ++ items[index] :: items.drop (index + 1)).flatMap f := by
          rw [List.cons_getElem_drop_succ, List.take_append_drop]
      _ = (items.take index).flatMap f ++ f items[index] := by
          rw [List.flatMap_append, List.flatMap_cons, silent, List.append_nil]
  rw [whole, List.set_eq_take_append_cons_drop, if_pos bound, List.flatMap_append,
    List.flatMap_cons, silent, longer, List.append_nil, List.append_assoc]

/-! ## The relay thread -/

/-- What the clients were shown live. -/
def liveBytes (history : List ReadByte) : List UInt8 :=
  (history.filter ReadByte.live).map ReadByte.byte

/-- What a read changes. -/
theorem relay_read {relay next : ConsoleRelay} {size : Nat}
    (stepped : relay.step (.read size) = some next) :
    size ≤ relay.unread.length ∧ next.history = relay.afterRead size ∧
      next.unread = relay.unread.drop size ∧ next.attached = relay.attached ∧
      next.replays = relay.replays := by
  simp only [ConsoleRelay.step] at stepped
  split at stepped
  · rename_i readable
    refine ⟨readable.2.2, ?_⟩
    split at stepped
    · obtain rfl := Option.some.inj stepped
      exact ⟨rfl, rfl, rfl, rfl⟩
    · obtain ⟨ring, -, stepped⟩ := Option.bind_eq_some_iff.mp stepped
      obtain rfl := Option.some.inj stepped
      exact ⟨rfl, rfl, rfl, rfl⟩
  · cases stepped

theorem relay_connect {relay next : ConsoleRelay} {segments : List (List UInt8)}
    (replayed : relay.ring.replaySegments = some segments)
    (stepped : relay.step .connect = some next) :
    relay.attached = false ∧ next = { relay with
      attached := true
      replays := relay.replays ++ [{ shown := segments.flatten, history := relay.history }] } := by
  simp only [ConsoleRelay.step, replayed, Option.bind_eq_bind, Option.bind_some,
    Option.ite_none_left_eq_some, Bool.not_eq_true] at stepped
  exact ⟨stepped.1, (Option.some.inj stepped.2).symm⟩

theorem relay_disconnect {relay next : ConsoleRelay}
    (stepped : relay.step .disconnect = some next) : next = { relay with attached := false } := by
  simp only [ConsoleRelay.step, Option.ite_none_right_eq_some] at stepped
  exact (Option.some.inj stepped.2).symm

/-- A read moves bytes from the unread ones to the history. -/
theorem bytes_afterRead (relay : ConsoleRelay) (size : Nat) :
    (relay.afterRead size).map ReadByte.byte ++ relay.unread.drop size =
      relay.history.map ReadByte.byte ++ relay.unread := by
  simp [ConsoleRelay.afterRead, Function.comp_def, List.take_append_drop]

theorem liveBytes_afterRead (relay : ConsoleRelay) (size : Nat) :
    liveBytes (relay.afterRead size) =
      liveBytes relay.history ++ if relay.attached then relay.unread.take size else [] := by
  rw [ConsoleRelay.afterRead, liveBytes, List.filter_append, List.map_append, List.filter_map,
    List.map_map]
  cases attached : relay.attached <;> simp [liveBytes, Function.comp_def]

/-! ## The host -/

namespace ConsoleHost

/-- The invariant: the terminals are sound, those that wait have had no part in anything, and what
the terminals have typed and were shown adds up to what the serial console was given and gave. -/
structure Keeps (host : ConsoleHost) : Prop where
  tracks : host.relay.Tracks
  sound : ∀ terminal ∈ host.terminals, terminal.Sound
  unserved : ∀ terminal ∈ host.terminals.drop host.accepted, terminal.Unserved
  serving : host.relay.attached = true → 0 < host.accepted
  connected : host.accepted ≤ host.terminals.length
  typed : host.typed = host.terminals.flatMap fun terminal => terminal.up.written
  live : liveBytes host.relay.history = host.terminals.flatMap Terminal.live
  replays : host.relay.replays.map Replay.shown =
    (host.terminals.take host.accepted).map Terminal.replayed
  produced : host.relay.history.map ReadByte.byte ++ host.relay.unread = host.produced

theorem keeps_init : init.Keeps where
  tracks := ConsoleRelay.tracks_init
  sound _ member := by cases member
  unserved _ member := by cases member
  serving attached := by cases attached
  connected := Nat.le_refl 0
  typed := rfl
  live := rfl
  replays := rfl
  produced := rfl

variable {host next : ConsoleHost}

/-- A terminal that does not exchange anything with the serial console may change. -/
theorem Keeps.set (keeps : host.Keeps) {index : Nat} {terminal changed : Terminal}
    (found : host.terminals[index]? = some terminal) (sound : changed.Sound)
    (same : changed.up.written = terminal.up.written ∧ changed.live = terminal.live ∧
      changed.replayed = terminal.replayed) :
    Keeps { host with terminals := host.terminals.set index changed } := by
  obtain ⟨written, live, replayed⟩ := same
  have keep {β : Type} (f : Terminal → List β) (kept : f changed = f terminal) :
      (host.terminals.set index changed).flatMap f = host.terminals.flatMap f := by
    rw [List.flatMap_def, map_set_of_eq found kept, ← List.flatMap_def]
  constructor
  case tracks => exact keeps.tracks
  case sound =>
    intro other member
    rcases List.mem_or_eq_of_mem_set member with old | rfl
    · exact keeps.sound other old
    · exact sound
  case unserved =>
    intro other member
    rw [List.drop_set] at member
    split at member
    · exact keeps.unserved other member
    · rename_i behind
      have waits : terminal ∈ host.terminals.drop host.accepted := by
        refine List.mem_of_getElem? (i := index - host.accepted) ?_
        rw [List.getElem?_drop, Nat.add_sub_cancel' (Nat.not_lt.mp behind), found]
      rcases List.mem_or_eq_of_mem_set member with old | rfl
      · exact keeps.unserved other old
      · have unserved := keeps.unserved terminal waits
        exact ⟨written.trans unserved.written, replayed.trans unserved.replayed,
          live.trans unserved.live⟩
  case serving => exact keeps.serving
  case connected => exact keeps.connected.trans_eq List.length_set.symm
  case typed => exact keeps.typed.trans (keep _ written).symm
  case live => exact keeps.live.trans (keep _ live).symm
  case replays =>
    rw [keeps.replays, List.map_take, List.map_take, map_set_of_eq found replayed]
  case produced => exact keeps.produced

theorem Keeps.connect (keeps : host.Keeps) (isTty : Bool) (input : List UInt8) :
    Keeps { host with terminals := host.terminals ++ [.connected isTty input] } where
  tracks := keeps.tracks
  sound terminal member := by
    rcases List.mem_append.mp member with old | new
    · exact keeps.sound terminal old
    · rw [List.mem_singleton.mp new]
      exact Terminal.sound_connected isTty input
  unserved terminal member := by
    rw [List.drop_append_of_le_length keeps.connected] at member
    rcases List.mem_append.mp member with old | new
    · exact keeps.unserved terminal old
    · rw [List.mem_singleton.mp new]
      exact Terminal.unserved_connected isTty input
  serving := keeps.serving
  connected := by
    rw [List.length_append]
    exact keeps.connected.trans (Nat.le_add_right _ _)
  typed := by
    rw [List.flatMap_append, ← keeps.typed]
    exact (List.append_nil _).symm
  live := by
    rw [List.flatMap_append, ← keeps.live]
    exact (List.append_nil _).symm
  replays := by
    rw [List.take_append_of_le_length keeps.connected]
    exact keeps.replays
  produced := keeps.produced

/-- The terminal that is served is the last one that was accepted. -/
theorem Keeps.attached (keeps : host.Keeps) {terminal : Terminal}
    (attached : host.attached = some terminal) :
    host.relay.attached = true ∧ host.terminals[host.accepted - 1]? = some terminal ∧
      host.accepted - 1 + 1 = host.accepted := by
  rw [ConsoleHost.attached, Option.ite_none_right_eq_some] at attached
  exact ⟨attached.1, attached.2, Nat.succ_pred_eq_of_pos (keeps.serving attached.1)⟩

/-- What `proxy_console` passes on was waiting. -/
theorem proxyConsole_waits {terminal : Terminal} {ready : SessionReady}
    (allowed : host.Allows terminal ready) :
    (proxyConsole ready).toSerial <+: terminal.up.entering ∧
      (proxyConsole ready).fromSerial <+: host.relay.unread := by
  have client : ready.client.getD [] <+: terminal.up.entering := by
    cases found : ready.client with
    | none => exact List.nil_prefix
    | some chunk => exact (allowed.1 chunk found).1
  unfold proxyConsole
  split
  · exact ⟨List.nil_prefix, List.nil_prefix⟩
  · dsimp only
    split
    · exact ⟨client, List.nil_prefix⟩
    · split
      · exact ⟨client, List.nil_prefix⟩
      · exact ⟨client, List.nil_prefix⟩
      · rename_i byte rest found
        have serial := (allowed.2 (byte :: rest) found).1
        split
        · exact ⟨client, serial⟩
        · exact ⟨client, serial⟩

/-- A part of the relay thread's state that `proxy_console` leaves behind. -/
theorem relay_serve {relay read served : ConsoleRelay} {passage : Passage}
    (attached : relay.attached = true) (waits : passage.fromSerial <+: relay.unread)
    (tracks : relay.Tracks)
    (reads : readSerial relay passage.fromSerial = some read)
    (leaves : endIf passage.ends read = some served) :
    served.Tracks ∧ served.replays = relay.replays ∧
      liveBytes served.history = liveBytes relay.history ++ passage.fromSerial ∧
      served.history.map ReadByte.byte ++ served.unread =
        relay.history.map ReadByte.byte ++ relay.unread := by
  have middle : read.Tracks ∧ read.replays = relay.replays ∧
      liveBytes read.history = liveBytes relay.history ++ passage.fromSerial ∧
      read.history.map ReadByte.byte ++ read.unread =
        relay.history.map ReadByte.byte ++ relay.unread := by
    unfold readSerial at reads
    split at reads
    · rename_i nothing
      obtain rfl := Option.some.inj reads
      exact ⟨tracks, rfl, by rw [nothing, List.append_nil], rfl⟩
    · obtain ⟨-, history, unread, -, replays⟩ := relay_read reads
      refine ⟨tracks.step reads, replays, ?_, ?_⟩
      · rw [history, liveBytes_afterRead, if_pos attached, ← List.prefix_iff_eq_take.mp waits]
      · rw [history, unread, bytes_afterRead]
  unfold endIf at leaves
  split at leaves
  · have closed := relay_disconnect leaves
    refine ⟨middle.1.step leaves, ?_⟩
    rw [closed]
    exact middle.2
  · obtain rfl := Option.some.inj leaves
    exact middle

theorem Keeps.serve (keeps : host.Keeps) {terminal : Terminal} {passage : Passage}
    (attached : host.attached = some terminal)
    (toSerial : passage.toSerial <+: terminal.up.entering)
    (fromSerial : passage.fromSerial <+: host.relay.unread)
    (served : host.serve terminal passage = some next) : next.Keeps := by
  obtain ⟨isAttached, found, last⟩ := keeps.attached attached
  simp only [ConsoleHost.serve, Option.bind_eq_bind, Option.bind_eq_some_iff] at served
  obtain ⟨read, reads, relay, leaves, served⟩ := served
  obtain rfl := Option.some.inj served
  obtain ⟨tracks, replays, live, produced⟩ :=
    relay_serve isAttached fromSerial keeps.tracks reads leaves
  have member : terminal ∈ host.terminals := List.mem_of_getElem? found
  obtain ⟨sound, written, shown, replayed⟩ := (keeps.sound terminal member).pass toSerial
  have behind : ∀ other ∈ host.terminals.drop (host.accepted - 1 + 1), other.Unserved :=
    last.symm ▸ keeps.unserved
  constructor
  case tracks => exact tracks
  case sound =>
    intro other changed
    rcases List.mem_or_eq_of_mem_set changed with old | rfl
    · exact keeps.sound other old
    · exact sound
  case unserved =>
    intro other waits
    have before : host.accepted - 1 < host.accepted := by omega
    rw [List.drop_set, if_pos before] at waits
    exact keeps.unserved other waits
  case serving => exact fun _ => keeps.serving isAttached
  case connected => exact keeps.connected.trans_eq List.length_set.symm
  case typed =>
    rw [keeps.typed]
    exact (flatMap_set_of_behind found (fun other waits => (behind other waits).written)
      written).symm
  case live =>
    rw [live, keeps.live]
    exact (flatMap_set_of_behind found (fun other waits => (behind other waits).live) shown).symm
  case replays =>
    rw [replays, keeps.replays, List.map_take, List.map_take, map_set_of_eq found replayed]
  case produced => exact produced.trans keeps.produced

theorem Keeps.accept (keeps : host.Keeps) {terminal : Terminal}
    {segments : List (List UInt8)} {joined relay : ConsoleRelay} (duplicates : Bool)
    (found : host.terminals[host.accepted]? = some terminal)
    (replayed : host.relay.ring.replaySegments = some segments)
    (joins : host.relay.step .connect = some joined)
    (goes_on : endIf (!duplicates) joined = some relay) :
    Keeps { host with
      relay
      terminals := host.terminals.set host.accepted
        (if duplicates then terminal.replay segments.flatten
          else (terminal.replay segments.flatten).close)
      accepted := host.accepted + 1 } := by
  obtain ⟨-, joined_eq⟩ := relay_connect replayed joins
  have same : relay.Tracks ∧ relay.history = host.relay.history ∧
      relay.unread = host.relay.unread ∧
      relay.replays = host.relay.replays ++
        [{ shown := segments.flatten, history := host.relay.history }] := by
    unfold endIf at goes_on
    split at goes_on
    · have closed := relay_disconnect goes_on
      refine ⟨(keeps.tracks.step joins).step goes_on, ?_⟩
      rw [closed, joined_eq]
      exact ⟨rfl, rfl, rfl⟩
    · obtain rfl := Option.some.inj goes_on
      exact ⟨keeps.tracks.step joins, by rw [joined_eq], by rw [joined_eq], by rw [joined_eq]⟩
  obtain ⟨tracks, history, unread, replays⟩ := same
  obtain ⟨bound, -⟩ := List.getElem?_eq_some_iff.mp found
  have waits : terminal ∈ host.terminals.drop host.accepted := by
    refine List.mem_of_getElem? (i := 0) ?_
    rw [List.getElem?_drop, Nat.add_zero, found]
  have unserved := keeps.unserved terminal waits
  have replay := (keeps.sound terminal (List.mem_of_getElem? found)).replay unserved
    segments.flatten
  generalize shown_eq : (if duplicates then terminal.replay segments.flatten
    else (terminal.replay segments.flatten).close) = shown
  have as_shown : shown.Sound ∧ shown.up.written = [] ∧ shown.live = [] ∧
      shown.replayed = segments.flatten := by
    rw [← shown_eq]
    split
    · exact ⟨replay, unserved.written, unserved.live, rfl⟩
    · exact ⟨replay.close, unserved.written, unserved.live, rfl⟩
  obtain ⟨sound, written, live, replayed_eq⟩ := as_shown
  have later : ∀ other ∈ host.terminals.drop (host.accepted + 1), other.Unserved :=
    fun other member => keeps.unserved other (List.drop_subset_drop_left _ (Nat.le_succ _) member)
  constructor
  case tracks => exact tracks
  case sound =>
    intro other changed
    rcases List.mem_or_eq_of_mem_set changed with old | rfl
    · exact keeps.sound other old
    · exact sound
  case unserved =>
    intro other member
    rw [List.drop_set, if_pos (Nat.lt_succ_self _)] at member
    exact later other member
  case serving => exact fun _ => Nat.succ_pos _
  case connected => exact Nat.succ_le_of_lt (bound.trans_eq List.length_set.symm)
  case typed =>
    rw [flatMap_set_of_behind found (fun other member => (later other member).written)
      (written.trans (by rw [unserved.written]; rfl : [] = terminal.up.written ++ [])),
      List.append_nil]
    exact keeps.typed
  case live =>
    rw [flatMap_set_of_behind found (fun other member => (later other member).live)
      (live.trans (by rw [unserved.live]; rfl : [] = terminal.live ++ [])), List.append_nil,
      history]
    exact keeps.live
  case replays =>
    rw [replays, List.map_append, keeps.replays, List.take_add_one,
      List.getElem?_set_self bound, List.take_set_of_le (Nat.le_refl _), List.map_append]
    simp [replayed_eq]
  case produced =>
    rw [history, unread]
    exact keeps.produced

theorem Keeps.step (keeps : host.Keeps) {action : SessionAction}
    (stepped : host.step action = some next) : next.Keeps := by
  cases action with
  | connect isTty input =>
      obtain rfl := Option.some.inj stepped
      exact keeps.connect isTty input
  | turn index turn =>
      simp only [ConsoleHost.step, Option.bind_eq_bind, Option.bind_eq_some_iff,
        Option.ite_none_right_eq_some] at stepped
      obtain ⟨terminal, found, ⟨running, allowed⟩, stepped⟩ := stepped
      obtain rfl := Option.some.inj stepped
      have sound := keeps.sound terminal (List.mem_of_getElem? found)
      exact keeps.set found (sound.turn running allowed) (terminal.turn_served turn)
  | produce bytes =>
      obtain rfl := Option.some.inj stepped
      exact { keeps with
        tracks := { ring := keeps.tracks.ring, replays := keeps.tracks.replays }
        produced := by rw [← keeps.produced]; exact (List.append_assoc _ _ _).symm }
  | drain size =>
      simp only [ConsoleHost.step, Option.ite_none_left_eq_some, Option.bind_eq_bind,
        Option.bind_eq_some_iff] at stepped
      obtain ⟨alone, relay, read, stepped⟩ := stepped
      obtain rfl := Option.some.inj stepped
      obtain ⟨-, history, unread, attached, replays⟩ := relay_read read
      exact { keeps with
        tracks := keeps.tracks.step read
        serving := fun serves => absurd (attached.symm.trans serves) alone
        live := by rw [history, liveBytes_afterRead, if_neg alone, List.append_nil, keeps.live]
        replays := replays ▸ keeps.replays
        produced := by rw [history, unread, bytes_afterRead, keeps.produced] }
  | accept duplicates =>
      simp only [ConsoleHost.step, Option.bind_eq_bind, Option.bind_eq_some_iff] at stepped
      obtain ⟨terminal, found, segments, replayed, joined, joins, relay, goes_on, stepped⟩ :=
        stepped
      obtain rfl := Option.some.inj stepped
      exact keeps.accept duplicates found replayed joins goes_on
  | pass ready =>
      simp only [ConsoleHost.step, Option.bind_eq_bind, Option.bind_eq_some_iff,
        Option.ite_none_right_eq_some] at stepped
      obtain ⟨terminal, attached, allowed, served⟩ := stepped
      obtain ⟨toSerial, fromSerial⟩ := proxyConsole_waits allowed
      exact keeps.serve attached toSerial fromSerial served
  | abandon =>
      simp only [ConsoleHost.step, Option.bind_eq_bind, Option.bind_eq_some_iff] at stepped
      obtain ⟨terminal, attached, served⟩ := stepped
      exact keeps.serve attached List.nil_prefix List.nil_prefix served

theorem keeps_of_run {actions : List SessionAction}
    (execution : run ConsoleHost.step actions init = some host) : host.Keeps :=
  invariant_of_run (fun keeps stepped => keeps.step stepped) keeps_init execution

end ConsoleHost

/-! ## Whole runs -/

/-- What holds of the console however the terminals, the relay thread and the VM take turns. -/
structure ConsoleHost.InOrder (host : ConsoleHost) : Prop where
  /-- The VM is given the inputs of the terminals one after the other, of each a front that ends
  before the first Ctrl-]. -/
  typed : ∃ fronts, host.typed = fronts.flatten ∧
    List.Forall₂ (fun front terminal => front <+: beforeDetach terminal.input) fronts
      host.terminals
  /-- A terminal prints, from the beginning, what was replayed to it and what was read for it. -/
  printed : ∀ terminal ∈ host.terminals,
    terminal.world.proxy.printed <+: terminal.replayed ++ terminal.live
  /-- What has not been read for a terminal has gone into the ring or waits. -/
  produced : host.relay.history.map ReadByte.byte ++ host.relay.unread = host.produced
  live : liveBytes host.relay.history = host.terminals.flatMap Terminal.live
  /-- A replay shows the most recent of the bytes that were read for no terminal. -/
  replayed : ∀ terminal ∈ host.terminals.take host.accepted, ∃ replay ∈ host.relay.replays,
    terminal.replayed = (ConsoleRelay.drained replay.history).rtake ConsoleRelay.ringCapacity

/-- Any number of console sessions: nothing is typed twice, out of order or from behind a Ctrl-],
and nothing that the VM writes is shown out of order or to two terminals live. -/
theorem console_sessions_in_order {actions : List SessionAction} {host : ConsoleHost}
    (execution : run ConsoleHost.step actions .init = some host) : host.InOrder := by
  have keeps := ConsoleHost.keeps_of_run execution
  constructor
  case typed =>
    refine ⟨host.terminals.map fun terminal => terminal.up.written, ?_, ?_⟩
    · rw [keeps.typed, List.flatMap_def]
    · rw [List.forall₂_map_left_iff, List.forall₂_same]
      intro terminal member
      have sound := keeps.sound terminal member
      have front := terminal.up.written_prefix
      rw [sound.sent_up] at front
      exact front.trans sound.due
  case printed =>
    intro terminal member
    have sound := keeps.sound terminal member
    rw [← sound.sent_down]
    exact sound.printed.trans terminal.down.delivered_prefix
  case produced => exact keeps.produced
  case live => exact keeps.live
  case replayed =>
    intro terminal member
    have shown : terminal.replayed ∈ host.relay.replays.map Replay.shown := by
      rw [keeps.replays]
      exact List.mem_map_of_mem member
    obtain ⟨replay, among, same⟩ := List.mem_map.mp shown
    exact ⟨replay, among, same ▸ keeps.tracks.replays replay among⟩

/-- A terminal types and detaches; the VM echoes, and the terminal prints the echo. -/
def echoSession : List SessionAction :=
  [.connect true [0x61, 0x1D], .accept true,
    .turn 0 ⟨0, 0, .ready ⟨some [0x61], false, none, true, false⟩⟩,
    .pass ⟨some [0x61], false, none, true, false⟩, .produce [0x61],
    .pass ⟨none, false, some [0x61], true, false⟩,
    .turn 0 ⟨0, 0, .ready ⟨none, false, some [0x61], true, false⟩⟩,
    .turn 0 ⟨0, 0, .ready ⟨some [0x1D], false, none, true, false⟩⟩,
    .pass ⟨some [], false, none, true, false⟩]

theorem echo_in_order :
    ∃ host, run ConsoleHost.step echoSession .init = some host ∧ host.typed = [0x61] ∧
      host.InOrder :=
  ⟨_, rfl, rfl, @console_sessions_in_order echoSession _ rfl⟩

end Pelagos.CommandLine
