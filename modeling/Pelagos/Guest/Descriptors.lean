import Pelagos.Library.DescriptorTable
import Pelagos.Library.Execution

/-!
# Descriptor numbers of the guest

The handlers of all connections share one descriptor table.  A handler's guard closes the number of
its connection while a detached input thread may still use it, and the number of a pseudo-terminal's
slave is closed explicitly and once more by each of the three `Stdio` values of the command.  A
number that was closed may already belong to another connection.
-/

namespace Pelagos.Guest.Descriptors

open Execution

/-- For whom a description was opened. -/
inductive Owner where
  /-- The listener, the poller and the like. -/
  | process
  | connection (connection : Nat)
  deriving DecidableEq

/-- What a step asks the kernel for. -/
inductive Syscall where
  | none
  /-- Any call that returns a new number. -/
  | open
  /-- A read, a write or an ioctl. -/
  | use (number : Nat)
  | close (number : Nat)
  deriving DecidableEq

namespace Syscall

/-- The number a call is made on. -/
def number? : Syscall → Option Nat
  | none | .open => Option.none
  | use number | close number => some number

/-- What becomes of the table. -/
def apply (owner : Owner) (table : DescriptorTable Owner) : Syscall → DescriptorTable Owner
  | none | use _ => table
  | .open => table.opened owner
  | close number => table.closed number

end Syscall

/-- The numbers `openpty` returned. -/
structure Pty where
  master : Nat
  slave : Nat
  deriving DecidableEq

/-- Where the thread of `handle_connection` is. -/
inductive MainPhase where
  /-- In `handle_connection` or a handler other than the two below, or before the spawn of
  `handle_exec_piped`. -/
  | lines
  /-- `handle_exec_piped` joins its output threads; the number of those that have not ended. -/
  | piped (running : Nat)
  /-- `handle_exec_tty` has opened the pseudo-terminal and put its slave into the command. -/
  | spawning (pty : Pty)
  /-- The spawn has failed and the master is closed. -/
  | abandoned (pty : Pty)
  /-- The spawn has succeeded and the slave is closed. -/
  | duplicating (pty : Pty)
  /-- Waiting for the child; `master_read_fd` until the output thread has closed it. -/
  | waiting (pty : Pty) (reader : Option Nat)
  /-- The child has exited and the master is closed. -/
  | joining (pty : Pty) (reader : Option Nat)
  /-- About to return; so many `Stdio` values of the command are still to be dropped. -/
  | returning (pty : Option Pty) (stdios : Nat)
  | returned (pty : Option Pty)
  deriving DecidableEq

namespace MainPhase

/-- The numbers of the pseudo-terminal, as the threads know them. -/
def pty? : MainPhase → Option Pty
  | lines | piped _ => none
  | spawning pty | abandoned pty | duplicating pty | waiting pty _ | joining pty _ => some pty
  | returning pty _ | returned pty => pty

/-- The numbers that are open for the pseudo-terminal. -/
def held : MainPhase → List Nat
  | spawning pty => [pty.master, pty.slave]
  | abandoned pty => [pty.slave]
  | duplicating pty => [pty.master]
  | waiting pty reader => pty.master :: reader.toList
  | joining _ reader => reader.toList
  | lines | piped _ | returning _ _ | returned _ => []

/-- `master_read_fd`, while the output thread may use it. -/
def reader? : MainPhase → Option Nat
  | waiting _ reader | joining _ reader => reader
  | _ => none

/-- The master has not been closed. -/
def masterOpen : MainPhase → Bool
  | spawning _ | duplicating _ | waiting _ _ => true
  | _ => false

/-- `handle_connection` has not returned. -/
def guardOpen : MainPhase → Bool
  | returned _ => false
  | _ => true

theorem reader_held {main : MainPhase} {reader : Nat} (is_reader : main.reader? = some reader) :
    reader ∈ main.held := by
  cases main <;> simp_all [reader?, held]

theorem master_held {main : MainPhase} {pty : Pty} (is_open : main.masterOpen = true)
    (is_pty : main.pty? = some pty) : pty.master ∈ main.held := by
  cases main <;> simp_all [pty?, masterOpen, held]

end MainPhase

/-- Where the input thread of an exec is. -/
inductive StdinPhase where
  | notStarted
  /-- About to read from the connection. -/
  | betweenReads
  | reading
  /-- `recv_frame` has returned a frame. -/
  | handling
  | ended
  deriving DecidableEq

/-- The threads that serve one connection. -/
structure Handler where
  /-- The number the connection was accepted with. -/
  conn : Nat
  main : MainPhase
  stdin : StdinPhase
  /-- The numbers in `OwnedFd` values and others with one owner, such as pipes to children. -/
  handles : List Nat
  deriving DecidableEq

/-- One step of a thread that serves a connection. -/
inductive HandlerAction where
  /-- Read a command, or write a line or a frame. -/
  | useConn
  | openHandle
  | useHandle (number : Nat)
  | closeHandle (number : Nat)
  /-- `handle_exec_piped` has spawned the child and starts its threads. -/
  | startPiped
  /-- The second half of `openpty`; the master is open already. -/
  | openSlave (master : Nat)
  | spawnFails
  | closeSlave
  | spawned
  | dup
  | dupFails
  | childExits
  | joined
  | handled
  /-- One of the three `Stdio` values is dropped with the command. -/
  | dropStdio
  /-- `Drop` of the connection's guard. -/
  | dropGuard
  | outputWrites
  | outputReads
  | outputEnds
  | beginRead
  /-- The read returns and the thread goes on with `next`. -/
  | readReturns (next : StdinPhase)
  /-- A frame of a tty exec is written to the master, or sets its size. -/
  | useMaster (next : StdinPhase)
  /-- A frame of a piped exec has been written to the child or needs no call. -/
  | frameHandled (next : StdinPhase)
  deriving DecidableEq

namespace Handler

/-- The handler of a connection that has just been accepted. -/
def accepted (conn : Nat) : Handler :=
  { conn, main := .lines, stdin := .notStarted, handles := [] }

/-- The phases a thread that has got a frame or bytes of one can go on with. -/
def GoesOn (next : StdinPhase) : Prop := next = .betweenReads ∨ next = .handling ∨ next = .ended

instance (next : StdinPhase) : Decidable (GoesOn next) := inferInstanceAs (Decidable (_ ∨ _))

/-- One step: its call, and the handler after it, given the number an opening call returns. -/
def step (handler : Handler) : HandlerAction → Option (Syscall × (Nat → Handler))
  | .useConn => if handler.main.guardOpen then some (.use handler.conn, fun _ => handler) else none
  | .openHandle =>
      match handler.main with
      | .lines | .spawning _ =>
          some (.open, fun number => { handler with handles := number :: handler.handles })
      | _ => none
  | .useHandle number =>
      if number ∈ handler.handles then some (.use number, fun _ => handler) else none
  | .closeHandle number =>
      if number ∈ handler.handles then
        some (.close number, fun _ => { handler with handles := handler.handles.erase number })
      else none
  | .startPiped =>
      match handler.main with
      | .lines =>
          some (.none, fun _ => { handler with main := .piped 2, stdin := .betweenReads })
      | _ => none
  | .openSlave master =>
      match handler.main with
      | .lines =>
          if master ∈ handler.handles then
            some (.open, fun slave =>
              { handler with
                main := .spawning { master, slave }, handles := handler.handles.erase master })
          else none
      | _ => none
  | .spawnFails =>
      match handler.main with
      | .spawning pty => some (.close pty.master, fun _ => { handler with main := .abandoned pty })
      | _ => none
  | .closeSlave =>
      match handler.main with
      | .abandoned pty =>
          some (.close pty.slave, fun _ => { handler with main := .returning (some pty) 3 })
      | _ => none
  | .spawned =>
      match handler.main with
      | .spawning pty => some (.close pty.slave, fun _ => { handler with main := .duplicating pty })
      | _ => none
  | .dup =>
      match handler.main with
      | .duplicating pty =>
          some (.open, fun number =>
            { handler with main := .waiting pty (some number), stdin := .betweenReads })
      | _ => none
  | .dupFails =>
      match handler.main with
      | .duplicating pty =>
          some (.close pty.master, fun _ => { handler with main := .returning (some pty) 3 })
      | _ => none
  | .childExits =>
      match handler.main with
      | .waiting pty reader =>
          some (.close pty.master, fun _ => { handler with main := .joining pty reader })
      | _ => none
  | .joined =>
      match handler.main with
      | .piped 0 => some (.none, fun _ => { handler with main := .returning none 0 })
      | .joining pty none =>
          some (.none, fun _ => { handler with main := .returning (some pty) 3 })
      | _ => none
  | .handled =>
      match handler.main with
      | .lines => some (.none, fun _ => { handler with main := .returning none 0 })
      | _ => none
  | .dropStdio =>
      match handler.main with
      | .returning (some pty) (stdios + 1) =>
          some (.close pty.slave, fun _ => { handler with main := .returning (some pty) stdios })
      | _ => none
  | .dropGuard =>
      match handler.main with
      | .returning pty 0 =>
          some (.close handler.conn, fun _ => { handler with main := .returned pty })
      | _ => none
  | .outputWrites =>
      match handler.main with
      | .piped (_ + 1) | .waiting _ (some _) | .joining _ (some _) =>
          some (.use handler.conn, fun _ => handler)
      | _ => none
  | .outputReads =>
      match handler.main.reader? with
      | some reader => some (.use reader, fun _ => handler)
      | none => none
  | .outputEnds =>
      match handler.main with
      | .piped (running + 1) => some (.none, fun _ => { handler with main := .piped running })
      | .waiting pty (some reader) =>
          some (.close reader, fun _ => { handler with main := .waiting pty none })
      | .joining pty (some reader) =>
          some (.close reader, fun _ => { handler with main := .joining pty none })
      | _ => none
  | .beginRead =>
      if handler.stdin = .betweenReads then
        some (.use handler.conn, fun _ => { handler with stdin := .reading })
      else none
  | .readReturns next =>
      if handler.stdin = .reading ∧ GoesOn next then
        some (.none, fun _ => { handler with stdin := next })
      else none
  | .useMaster next =>
      match handler.main.pty? with
      | some pty =>
          if handler.stdin = .handling ∧ (next = .betweenReads ∨ next = .ended) then
            some (.use pty.master, fun _ => { handler with stdin := next })
          else none
      | none => none
  | .frameHandled next =>
      if handler.stdin = .handling ∧
          (next = .betweenReads ∧ handler.main.pty? = none ∨ next = .ended) then
        some (.none, fun _ => { handler with stdin := next })
      else none

/-- The numbers the threads of a connection have opened and not closed. -/
def held (handler : Handler) : List Nat :=
  (if handler.main.guardOpen then [handler.conn] else []) ++ (handler.handles ++ handler.main.held)

/-- The number a step makes its call on. -/
def usedNumber (handler : Handler) (action : HandlerAction) : Option Nat :=
  (handler.step action).bind fun result => result.1.number?

/-- The step comes before the number it uses is closed for the first time. -/
def InTime (handler : Handler) : HandlerAction → Prop
  | .beginRead => handler.main.guardOpen = true
  | .useMaster _ => handler.main.masterOpen = true
  | .dropStdio => False
  | _ => True

instance (handler : Handler) : (action : HandlerAction) → Decidable (handler.InTime action)
  | .beginRead | .useMaster _ => inferInstanceAs (Decidable (_ = true))
  | .dropStdio => inferInstanceAs (Decidable False)
  | .useConn | .openHandle | .useHandle _ | .closeHandle _ | .startPiped | .openSlave _
  | .spawnFails | .closeSlave | .spawned | .dup | .dupFails | .childExits | .joined | .handled
  | .dropGuard | .outputWrites | .outputReads | .outputEnds | .readReturns _ | .frameHandled _ =>
      inferInstanceAs (Decidable True)

end Handler

/-- The guest process. -/
structure GuestProcess where
  table : DescriptorTable Owner
  /-- The handlers of all connections ever accepted. -/
  handlers : List Handler
  /-- The numbers that serve no connection. -/
  handles : List Nat
  deriving DecidableEq

/-- One step of any thread. -/
inductive Action where
  | accept
  | openHandle
  | useHandle (number : Nat)
  | closeHandle (number : Nat)
  | handler (connection : Nat) (action : HandlerAction)
  deriving DecidableEq

namespace GuestProcess

/-- A process with so many numbers open that serves no connection yet. -/
def start (count : Nat) : GuestProcess :=
  { table := List.replicate count (some .process), handlers := [], handles := List.range count }

def step (guest : GuestProcess) : Action → Option GuestProcess
  | .accept =>
      some { guest with
        table := guest.table.opened (.connection guest.handlers.length)
        handlers := guest.handlers ++ [.accepted guest.table.lowestFree] }
  | .openHandle =>
      some { guest with
        table := guest.table.opened .process
        handles := guest.table.lowestFree :: guest.handles }
  | .useHandle number => if number ∈ guest.handles then some guest else none
  | .closeHandle number =>
      if number ∈ guest.handles then
        some { guest with
          table := guest.table.closed number
          handles := guest.handles.erase number }
      else none
  | .handler connection action => do
      let handler ← guest.handlers[connection]?
      let (call, next) ← handler.step action
      return { guest with
        table := call.apply (.connection connection) guest.table
        handlers := guest.handlers.set connection (next guest.table.lowestFree) }

/-- What a thread of a connection uses denotes a description opened for the connection. -/
def Owned (guest : GuestProcess) : Action → Prop
  | .handler connection action =>
      ∀ handler ∈ guest.handlers[connection]?, ∀ number ∈ handler.usedNumber action,
        guest.table.denotes number = some (.connection connection)
  | _ => True

instance (guest : GuestProcess) : (action : Action) → Decidable (guest.Owned action)
  | .handler _ _ => inferInstanceAs (Decidable (∀ _ ∈ (_ : Option Handler), _))
  | .accept | .openHandle | .useHandle _ | .closeHandle _ => inferInstanceAs (Decidable True)

/-- The handler's step comes in time. -/
def InTime (guest : GuestProcess) : Action → Prop
  | .handler connection action => ∀ handler ∈ guest.handlers[connection]?, handler.InTime action
  | _ => True

instance (guest : GuestProcess) : (action : Action) → Decidable (guest.InTime action)
  | .handler _ _ => inferInstanceAs (Decidable (∀ _ ∈ (_ : Option Handler), _))
  | .accept | .openHandle | .useHandle _ | .closeHandle _ => inferInstanceAs (Decidable True)

/-- The numbers that are open for each owner. -/
def held (guest : GuestProcess) : Owner → List Nat
  | .process => guest.handles
  | .connection connection => (guest.handlers[connection]?.map Handler.held).getD []

end GuestProcess

/-! ## One handler -/

namespace Handler

/-- The numbers a handler knows are different; only `master_read_fd` may be the number the slave
had. -/
structure Distinct (handler : Handler) : Prop where
  handles : handler.handles.Nodup
  conn : handler.conn ∉ handler.handles
  master : ∀ pty ∈ handler.main.pty?, pty.master ≠ handler.conn ∧ pty.master ∉ handler.handles
  slave : ∀ pty ∈ handler.main.pty?,
    pty.slave ≠ handler.conn ∧ pty.slave ∉ handler.handles ∧ pty.slave ≠ pty.master
  reader : ∀ reader ∈ handler.main.reader?, reader ≠ handler.conn ∧ reader ∉ handler.handles ∧
    ∀ pty ∈ handler.main.pty?, reader ≠ pty.master

/-- What a step makes of the open numbers is what its call does to the table, and the numbers stay
different. -/
structure Sound (handler : Handler) (call : Syscall) (next : Nat → Handler) : Prop where
  used : ∀ number ∈ call.number?, number ∈ handler.held
  held : ∀ fresh ∉ handler.held, ∀ number, number ∈ (next fresh).held ↔
    match call with
    | .none | .use _ => number ∈ handler.held
    | .open => number = fresh ∨ number ∈ handler.held
    | .close closing => number ∈ handler.held ∧ number ≠ closing
  distinct : ∀ fresh ∉ handler.held, (next fresh).Distinct

theorem mem_held {handler : Handler} {number : Nat} :
    number ∈ handler.held ↔ handler.main.guardOpen = true ∧ number = handler.conn ∨
      number ∈ handler.handles ∨ number ∈ handler.main.held := by
  rw [held, List.mem_append, List.mem_append]
  split <;> simp_all

theorem distinct_accepted (conn : Nat) : (accepted conn).Distinct where
  handles := List.nodup_nil
  conn := by simp [accepted]
  master := by simp [accepted, MainPhase.pty?]
  slave := by simp [accepted, MainPhase.pty?]
  reader := by simp [accepted, MainPhase.reader?]

variable {handler : Handler} {main next : MainPhase}

/-- What is open for the pseudo-terminal is neither the connection nor a handle. -/
theorem Distinct.main_apart (distinct : handler.Distinct) {number : Nat}
    (member : number ∈ handler.main.held) :
    number ≠ handler.conn ∧ number ∉ handler.handles := by
  have master := distinct.master
  have slave := distinct.slave
  have reader := distinct.reader
  cases phase : handler.main <;>
    simp only [phase, MainPhase.held, MainPhase.pty?, MainPhase.reader?] at * <;> grind

/-- The number of the master is open only as long as the master is. -/
theorem Distinct.masterOpen_of_held (distinct : handler.Distinct) {pty : Pty}
    (is_pty : handler.main.pty? = some pty) (member : pty.master ∈ handler.main.held) :
    handler.main.masterOpen = true := by
  have slave := distinct.slave pty is_pty
  have reader := distinct.reader
  cases phase : handler.main <;>
    simp only [phase, MainPhase.held, MainPhase.pty?, MainPhase.reader?,
      MainPhase.masterOpen] at * <;> grind

/-- The main thread goes on without the numbers changing. -/
theorem Distinct.of_main (distinct : handler.Distinct) (phase : handler.main = main)
    (stdin : StdinPhase) (ptys : ∀ pty ∈ next.pty?, pty ∈ main.pty?)
    (readers : ∀ reader ∈ next.reader?, reader ∈ main.reader?) :
    Distinct { handler with main := next, stdin } := by
  subst phase
  refine ⟨distinct.handles, distinct.conn, ?_, ?_, fun reader is_reader => ?_⟩
  · exact fun pty is_pty => distinct.master pty (ptys pty is_pty)
  · exact fun pty is_pty => distinct.slave pty (ptys pty is_pty)
  · obtain ⟨conn, handles, master⟩ := distinct.reader reader (readers reader is_reader)
    exact ⟨conn, handles, fun pty is_pty => master pty (ptys pty is_pty)⟩

/-- A call on an open number changes nothing. -/
theorem Distinct.sound_use (distinct : handler.Distinct) {number : Nat}
    (member : number ∈ handler.held) (stdin : StdinPhase) :
    handler.Sound (.use number) fun _ => { handler with stdin } where
  used _ is_number := Option.some.inj is_number ▸ member
  held _ _ _ := Iff.rfl
  distinct _ _ := distinct.of_main rfl stdin (fun _ => id) fun _ => id

/-- A step without a call. -/
theorem Distinct.sound_none (distinct : handler.Distinct) (phase : handler.main = main)
    (stdin : StdinPhase) (guard : next.guardOpen = main.guardOpen) (same : next.held = main.held)
    (ptys : ∀ pty ∈ next.pty?, pty ∈ main.pty?)
    (readers : ∀ reader ∈ next.reader?, reader ∈ main.reader?) :
    handler.Sound .none fun _ => { handler with main := next, stdin } where
  used _ is_number := nomatch is_number
  held _ _ number := by simp only [mem_held, guard, same, phase]
  distinct _ _ := distinct.of_main phase stdin ptys readers

/-- The main thread or the output thread closes a number of the pseudo-terminal. -/
theorem Distinct.sound_close (distinct : handler.Distinct) (phase : handler.main = main)
    {closing : Nat} (guard : next.guardOpen = main.guardOpen) (member : closing ∈ main.held)
    (rest : ∀ number, number ∈ next.held ↔ number ∈ main.held ∧ number ≠ closing)
    (ptys : ∀ pty ∈ next.pty?, pty ∈ main.pty?)
    (readers : ∀ reader ∈ next.reader?, reader ∈ main.reader?) :
    handler.Sound (.close closing) fun _ => { handler with main := next } where
  used number is_number :=
    Option.some.inj is_number ▸ mem_held.mpr (.inr (.inr (phase ▸ member)))
  held _ _ number := by
    obtain ⟨conn, handles⟩ := distinct.main_apart (phase ▸ member)
    simp only [mem_held, guard, rest, phase]
    constructor
    · rintro (⟨is_open, rfl⟩ | handle | pty)
      · exact ⟨.inl ⟨is_open, rfl⟩, Ne.symm conn⟩
      · exact ⟨.inr (.inl handle), fun same => handles (same ▸ handle)⟩
      · exact ⟨.inr (.inr pty.1), pty.2⟩
    · rintro ⟨is_conn | handle | pty, other⟩
      · exact .inl is_conn
      · exact .inr (.inl handle)
      · exact .inr (.inr ⟨pty, other⟩)
  distinct _ _ := distinct.of_main phase handler.stdin ptys readers

/-- A handler that has all its numbers open opens one more. -/
theorem Distinct.sound_openHandle (distinct : handler.Distinct) (phase : handler.main = main)
    (guard : main.guardOpen = true) (reader : main.reader? = none)
    (ptys : ∀ pty ∈ main.pty?, pty.master ∈ main.held ∧ pty.slave ∈ main.held) :
    handler.Sound .open fun number => { handler with handles := number :: handler.handles } where
  used _ is_number := nomatch is_number
  held fresh _ number := by
    simp only [mem_held, List.mem_cons]
    tauto
  distinct fresh unheld := by
    subst phase
    rw [mem_held, not_or, not_or] at unheld
    obtain ⟨not_conn, not_handle, not_pty⟩ := unheld
    refine ⟨List.nodup_cons.mpr ⟨not_handle, distinct.handles⟩, ?_, fun pty is_pty => ?_,
      fun pty is_pty => ?_, fun _ is_reader => ?_⟩
    · have other : handler.conn ≠ fresh := fun same => not_conn ⟨guard, same.symm⟩
      simp [other, distinct.conn]
    · obtain ⟨conn, handles⟩ := distinct.master pty is_pty
      have other : pty.master ≠ fresh := fun same => not_pty (same ▸ (ptys pty is_pty).1)
      simp [conn, handles, other]
    · obtain ⟨conn, handles, master⟩ := distinct.slave pty is_pty
      have other : pty.slave ≠ fresh := fun same => not_pty (same ▸ (ptys pty is_pty).2)
      simp [conn, handles, master, other]
    · rw [reader] at is_reader
      cases is_reader

theorem Distinct.sound_closeHandle (distinct : handler.Distinct) {number : Nat}
    (member : number ∈ handler.handles) :
    handler.Sound (.close number)
      fun _ => { handler with handles := handler.handles.erase number } where
  used _ is_number := Option.some.inj is_number ▸ mem_held.mpr (.inr (.inl member))
  held _ _ other := by
    have conn : handler.conn ≠ number := fun same => distinct.conn (same ▸ member)
    have pty (is_pty : other ∈ handler.main.held) : other ≠ number := fun same =>
      (distinct.main_apart is_pty).2 (same ▸ member)
    simp only [mem_held, distinct.handles.mem_erase_iff]
    grind
  distinct _ _ := by
    have kept {other : Nat} (absent : other ∉ handler.handles) :
        other ∉ handler.handles.erase number :=
      fun is_handle => absent (List.mem_of_mem_erase is_handle)
    refine ⟨distinct.handles.erase number, kept distinct.conn, fun pty is_pty => ?_,
      fun pty is_pty => ?_, fun reader is_reader => ?_⟩
    · exact (distinct.master pty is_pty).imp_right kept
    · exact (distinct.slave pty is_pty).imp_right (And.imp_left kept)
    · exact (distinct.reader reader is_reader).imp_right (And.imp_left kept)

/-- `openpty` opens the slave; the master was a handle. -/
theorem Distinct.sound_openSlave (distinct : handler.Distinct) {master : Nat}
    (phase : handler.main = .lines) (member : master ∈ handler.handles) :
    handler.Sound .open fun slave =>
      { handler with
        main := .spawning { master, slave }, handles := handler.handles.erase master } where
  used _ is_number := nomatch is_number
  held fresh _ number := by
    simp only [mem_held, distinct.handles.mem_erase_iff, phase, MainPhase.guardOpen, MainPhase.held]
    grind
  distinct fresh unheld := by
    have kept {other : Nat} (absent : other ∉ handler.handles) :
        other ∉ handler.handles.erase master :=
      fun is_handle => absent (List.mem_of_mem_erase is_handle)
    rw [mem_held, not_or, not_or] at unheld
    obtain ⟨not_conn, not_handle, -⟩ := unheld
    refine ⟨distinct.handles.erase master, kept distinct.conn, ?_, ?_, fun _ is_reader => ?_⟩
    · rintro pty is_pty
      obtain rfl := Option.some.inj is_pty
      exact ⟨fun same => distinct.conn (same ▸ member), distinct.handles.not_mem_erase⟩
    · rintro pty is_pty
      obtain rfl := Option.some.inj is_pty
      refine ⟨fun same => not_conn ⟨by rw [phase]; rfl, same⟩, kept not_handle, ?_⟩
      exact fun (same : fresh = master) => not_handle (same ▸ member)
    · cases is_reader

/-- The duplicate of the master may get the number the slave had. -/
theorem Distinct.sound_dup (distinct : handler.Distinct) {pty : Pty}
    (phase : handler.main = .duplicating pty) (stdin : StdinPhase) :
    handler.Sound .open fun number =>
      { handler with main := .waiting pty (some number), stdin } where
  used _ is_number := nomatch is_number
  held fresh _ number := by
    simp only [mem_held, phase, MainPhase.guardOpen, MainPhase.held, Option.toList_some,
      List.mem_cons, List.not_mem_nil, or_false]
    tauto
  distinct fresh unheld := by
    rw [mem_held, not_or, not_or] at unheld
    obtain ⟨not_conn, not_handle, not_pty⟩ := unheld
    have same_pty : handler.main.pty? = some pty := by rw [phase]; rfl
    refine ⟨distinct.handles, distinct.conn, ?_, ?_, ?_⟩
    · exact fun other is_pty => distinct.master other (same_pty.trans is_pty)
    · exact fun other is_pty => distinct.slave other (same_pty.trans is_pty)
    · intro reader is_reader
      obtain rfl := Option.some.inj is_reader
      refine ⟨fun same => not_conn ⟨by rw [phase]; rfl, same⟩, not_handle, fun other is_pty => ?_⟩
      obtain rfl := Option.some.inj is_pty
      rw [phase] at not_pty
      simpa [MainPhase.held] using not_pty

/-- The guard closes the connection. -/
theorem Distinct.sound_dropGuard (distinct : handler.Distinct) {pty : Option Pty}
    (phase : handler.main = .returning pty 0) :
    handler.Sound (.close handler.conn) fun _ => { handler with main := .returned pty } where
  used _ is_number := by
    obtain rfl := Option.some.inj is_number
    exact mem_held.mpr (.inl ⟨by rw [phase]; rfl, rfl⟩)
  held _ _ number := by
    have conn := distinct.conn
    simp only [mem_held, phase, MainPhase.guardOpen, MainPhase.held]
    grind
  distinct _ _ := by
    exact distinct.of_main phase handler.stdin (fun _ => id) nofun

/-- Every step in time is sound. -/
theorem Distinct.step_sound {action : HandlerAction} {call : Syscall} {following : Nat → Handler}
    (distinct : handler.Distinct) (in_time : handler.InTime action)
    (stepped : handler.step action = some (call, following)) : handler.Sound call following := by
  cases action with
  | useConn =>
      simp only [step, Option.ite_none_right_eq_some, Option.some.injEq, Prod.mk.injEq] at stepped
      obtain ⟨guard, rfl, rfl⟩ := stepped
      exact distinct.sound_use (mem_held.mpr (.inl ⟨guard, rfl⟩)) handler.stdin
  | openHandle =>
      simp only [step] at stepped
      split at stepped
      · rename_i phase
        obtain ⟨rfl, rfl⟩ := Prod.mk.inj (Option.some.inj stepped)
        exact distinct.sound_openHandle phase rfl rfl nofun
      · rename_i pty phase
        obtain ⟨rfl, rfl⟩ := Prod.mk.inj (Option.some.inj stepped)
        refine distinct.sound_openHandle phase rfl rfl fun other is_pty => ?_
        obtain rfl := Option.some.inj is_pty
        simp [MainPhase.held]
      · cases stepped
  | useHandle number =>
      simp only [step, Option.ite_none_right_eq_some, Option.some.injEq, Prod.mk.injEq] at stepped
      obtain ⟨member, rfl, rfl⟩ := stepped
      exact distinct.sound_use (mem_held.mpr (.inr (.inl member))) handler.stdin
  | closeHandle number =>
      simp only [step, Option.ite_none_right_eq_some, Option.some.injEq, Prod.mk.injEq] at stepped
      obtain ⟨member, rfl, rfl⟩ := stepped
      exact distinct.sound_closeHandle member
  | startPiped =>
      simp only [step] at stepped
      split at stepped
      · rename_i phase
        obtain ⟨rfl, rfl⟩ := Prod.mk.inj (Option.some.inj stepped)
        exact distinct.sound_none phase _ rfl rfl nofun nofun
      · cases stepped
  | openSlave master =>
      simp only [step] at stepped
      split at stepped
      · rename_i phase
        simp only [Option.ite_none_right_eq_some, Option.some.injEq, Prod.mk.injEq] at stepped
        obtain ⟨member, rfl, rfl⟩ := stepped
        exact distinct.sound_openSlave phase member
      · cases stepped
  | spawnFails =>
      simp only [step] at stepped
      split at stepped
      · rename_i pty phase
        obtain ⟨rfl, rfl⟩ := Prod.mk.inj (Option.some.inj stepped)
        have slave := distinct.slave pty (by rw [phase]; rfl)
        refine distinct.sound_close phase rfl (by simp [MainPhase.held]) ?_ (fun _ => id) nofun
        simp only [MainPhase.held]
        grind
      · cases stepped
  | closeSlave =>
      simp only [step] at stepped
      split at stepped
      · rename_i pty phase
        obtain ⟨rfl, rfl⟩ := Prod.mk.inj (Option.some.inj stepped)
        refine distinct.sound_close phase rfl (by simp [MainPhase.held]) ?_ (fun _ => id) nofun
        simp [MainPhase.held]
      · cases stepped
  | spawned =>
      simp only [step] at stepped
      split at stepped
      · rename_i pty phase
        obtain ⟨rfl, rfl⟩ := Prod.mk.inj (Option.some.inj stepped)
        have slave := distinct.slave pty (by rw [phase]; rfl)
        refine distinct.sound_close phase rfl (by simp [MainPhase.held]) ?_ (fun _ => id) nofun
        simp only [MainPhase.held]
        grind
      · cases stepped
  | dup =>
      simp only [step] at stepped
      split at stepped
      · rename_i pty phase
        obtain ⟨rfl, rfl⟩ := Prod.mk.inj (Option.some.inj stepped)
        exact distinct.sound_dup phase _
      · cases stepped
  | dupFails =>
      simp only [step] at stepped
      split at stepped
      · rename_i pty phase
        obtain ⟨rfl, rfl⟩ := Prod.mk.inj (Option.some.inj stepped)
        refine distinct.sound_close phase rfl (by simp [MainPhase.held]) ?_ (fun _ => id) nofun
        simp [MainPhase.held]
      · cases stepped
  | childExits =>
      simp only [step] at stepped
      split at stepped
      · rename_i pty reader phase
        obtain ⟨rfl, rfl⟩ := Prod.mk.inj (Option.some.inj stepped)
        have other : ∀ number ∈ reader, number ≠ pty.master := fun number is_reader =>
          (distinct.reader number (by rw [phase]; exact is_reader)).2.2 pty (by rw [phase]; rfl)
        refine distinct.sound_close phase rfl (by simp [MainPhase.held]) ?_ (fun _ => id)
          fun _ => id
        simp only [MainPhase.held, List.mem_cons, Option.mem_toList]
        grind
      · cases stepped
  | joined =>
      simp only [step] at stepped
      split at stepped
      · rename_i phase
        obtain ⟨rfl, rfl⟩ := Prod.mk.inj (Option.some.inj stepped)
        exact distinct.sound_none phase handler.stdin rfl rfl nofun nofun
      · rename_i pty phase
        obtain ⟨rfl, rfl⟩ := Prod.mk.inj (Option.some.inj stepped)
        exact distinct.sound_none phase handler.stdin rfl rfl (fun _ => id) nofun
      · cases stepped
  | handled =>
      simp only [step] at stepped
      split at stepped
      · rename_i phase
        obtain ⟨rfl, rfl⟩ := Prod.mk.inj (Option.some.inj stepped)
        exact distinct.sound_none phase handler.stdin rfl rfl nofun nofun
      · cases stepped
  | dropStdio => exact in_time.elim
  | dropGuard =>
      simp only [step] at stepped
      split at stepped
      · rename_i pty phase
        obtain ⟨rfl, rfl⟩ := Prod.mk.inj (Option.some.inj stepped)
        exact distinct.sound_dropGuard phase
      · cases stepped
  | outputWrites =>
      simp only [step] at stepped
      split at stepped
      · rename_i phase
        obtain ⟨rfl, rfl⟩ := Prod.mk.inj (Option.some.inj stepped)
        exact distinct.sound_use (mem_held.mpr (.inl ⟨by rw [phase]; rfl, rfl⟩)) handler.stdin
      · rename_i phase
        obtain ⟨rfl, rfl⟩ := Prod.mk.inj (Option.some.inj stepped)
        exact distinct.sound_use (mem_held.mpr (.inl ⟨by rw [phase]; rfl, rfl⟩)) handler.stdin
      · rename_i phase
        obtain ⟨rfl, rfl⟩ := Prod.mk.inj (Option.some.inj stepped)
        exact distinct.sound_use (mem_held.mpr (.inl ⟨by rw [phase]; rfl, rfl⟩)) handler.stdin
      · cases stepped
  | outputReads =>
      simp only [step] at stepped
      split at stepped
      · rename_i reader is_reader
        obtain ⟨rfl, rfl⟩ := Prod.mk.inj (Option.some.inj stepped)
        have open_reader : reader ∈ handler.main.held := MainPhase.reader_held is_reader
        exact distinct.sound_use (mem_held.mpr (.inr (.inr open_reader))) handler.stdin
      · cases stepped
  | outputEnds =>
      simp only [step] at stepped
      split at stepped
      · rename_i running phase
        obtain ⟨rfl, rfl⟩ := Prod.mk.inj (Option.some.inj stepped)
        exact distinct.sound_none phase handler.stdin rfl rfl nofun nofun
      · rename_i pty reader phase
        obtain ⟨rfl, rfl⟩ := Prod.mk.inj (Option.some.inj stepped)
        have other : reader ≠ pty.master :=
          (distinct.reader reader (by rw [phase]; rfl)).2.2 pty (by rw [phase]; rfl)
        refine distinct.sound_close phase rfl (by simp [MainPhase.held]) ?_ (fun _ => id) nofun
        simp only [MainPhase.held, Option.toList_none, Option.toList_some]
        grind
      · rename_i pty reader phase
        obtain ⟨rfl, rfl⟩ := Prod.mk.inj (Option.some.inj stepped)
        refine distinct.sound_close phase rfl (by simp [MainPhase.held]) ?_ (fun _ => id) nofun
        simp [MainPhase.held]
      · cases stepped
  | beginRead =>
      simp only [step, Option.ite_none_right_eq_some, Option.some.injEq, Prod.mk.injEq] at stepped
      obtain ⟨-, rfl, rfl⟩ := stepped
      exact distinct.sound_use (mem_held.mpr (.inl ⟨in_time, rfl⟩)) _
  | readReturns next =>
      simp only [step, Option.ite_none_right_eq_some, Option.some.injEq, Prod.mk.injEq] at stepped
      obtain ⟨-, rfl, rfl⟩ := stepped
      exact distinct.sound_none rfl _ rfl rfl (fun _ => id) fun _ => id
  | useMaster next =>
      simp only [step] at stepped
      split at stepped
      · rename_i pty is_pty
        simp only [Option.ite_none_right_eq_some, Option.some.injEq, Prod.mk.injEq] at stepped
        obtain ⟨-, rfl, rfl⟩ := stepped
        have open_master : pty.master ∈ handler.main.held := MainPhase.master_held in_time is_pty
        exact distinct.sound_use (mem_held.mpr (.inr (.inr open_master))) _
      · cases stepped
  | frameHandled next =>
      simp only [step, Option.ite_none_right_eq_some, Option.some.injEq, Prod.mk.injEq] at stepped
      obtain ⟨-, rfl, rfl⟩ := stepped
      exact distinct.sound_none rfl _ rfl rfl (fun _ => id) fun _ => id

theorem notMem_held {number : Nat}
    (conn : handler.main.guardOpen = true → number ≠ handler.conn)
    (handle : number ∉ handler.handles) (pty : number ∉ handler.main.held) :
    number ∉ handler.held := by
  rw [mem_held]
  rintro (⟨guard, same⟩ | is_handle | is_pty)
  · exact conn guard same
  · exact handle is_handle
  · exact pty is_pty

/-- A step that does not come in time uses a number that is not open for the connection. -/
theorem Distinct.step_strays {action : HandlerAction} {call : Syscall} {next : Nat → Handler}
    (distinct : handler.Distinct) (late : ¬ handler.InTime action)
    (stepped : handler.step action = some (call, next)) :
    ∃ number ∈ call.number?, number ∉ handler.held := by
  cases action with
  | beginRead =>
      simp only [step, Option.ite_none_right_eq_some, Option.some.injEq, Prod.mk.injEq] at stepped
      obtain ⟨-, rfl, -⟩ := stepped
      exact ⟨handler.conn, rfl, notMem_held (fun guard => absurd guard late) distinct.conn
        fun pty => (distinct.main_apart pty).1 rfl⟩
  | useMaster following =>
      simp only [step] at stepped
      split at stepped
      · rename_i pty is_pty
        simp only [Option.ite_none_right_eq_some, Option.some.injEq, Prod.mk.injEq] at stepped
        obtain ⟨-, rfl, -⟩ := stepped
        obtain ⟨conn, handles⟩ := distinct.master pty is_pty
        exact ⟨pty.master, rfl, notMem_held (fun _ => conn) handles
          fun held => late (distinct.masterOpen_of_held is_pty held)⟩
      · cases stepped
  | dropStdio =>
      simp only [step] at stepped
      split at stepped
      · rename_i pty stdios phase
        obtain ⟨rfl, -⟩ := Prod.mk.inj (Option.some.inj stepped)
        obtain ⟨conn, handles, -⟩ := distinct.slave pty (by rw [phase]; rfl)
        refine ⟨pty.slave, rfl, notMem_held (fun _ => conn) handles ?_⟩
        rw [phase]
        exact List.not_mem_nil
      · cases stepped
  | _ => exact absurd trivial late

end Handler

/-! ## The process -/

namespace GuestProcess

/-- Every number denotes a description of the one who has it open. -/
structure Settled (guest : GuestProcess) : Prop where
  table : guest.table.Holds guest.held
  handlers : ∀ handler ∈ guest.handlers, handler.Distinct
  handles : guest.handles.Nodup

variable {guest : GuestProcess}

theorem held_of_handler {connection : Nat} {handler : Handler}
    (served : guest.handlers[connection]? = some handler) :
    guest.held (.connection connection) = handler.held := by
  rw [held, served]
  rfl

theorem handler_step {connection : Nat} {action : HandlerAction} {next : GuestProcess}
    (stepped : guest.step (.handler connection action) = some next) :
    ∃ handler call following, guest.handlers[connection]? = some handler ∧
      handler.step action = some (call, following) ∧
      next = { guest with
        table := call.apply (.connection connection) guest.table
        handlers := guest.handlers.set connection (following guest.table.lowestFree) } := by
  obtain ⟨handler, served, stepped⟩ := Option.bind_eq_some_iff.mp stepped
  obtain ⟨⟨call, following⟩, enabled, stepped⟩ := Option.bind_eq_some_iff.mp stepped
  exact ⟨handler, call, following, served, enabled, (Option.some.inj stepped).symm⟩

theorem settled_start (count : Nat) : (start count).Settled where
  table
    | .process, number => by
        simp only [start, held, DescriptorTable.denotes, List.getElem?_replicate, List.mem_range]
        split <;> simp_all
    | .connection _, number => by
        simp only [start, held, DescriptorTable.denotes, List.getElem?_replicate]
        split <;> simp
  handlers := by simp [start]
  handles := List.nodup_range

/-- A step of one connection's thread leaves what the others have open. -/
theorem held_set {connection : Nat} {following : Handler} {other : Owner}
    (table : DescriptorTable Owner) (different : other ≠ .connection connection) :
    held { guest with table, handlers := guest.handlers.set connection following } other =
      guest.held other := by
  cases other with
  | process => rfl
  | connection other =>
      have apart : connection ≠ other := fun same => different (same ▸ rfl)
      simp only [held, List.getElem?_set_ne apart]

theorem Settled.accept (settled : guest.Settled) :
    Settled { guest with
      table := guest.table.opened (.connection guest.handlers.length)
      handlers := guest.handlers ++ [.accepted guest.table.lowestFree] } where
  table := by
    refine settled.table.opened (fun other different number => ?_) fun number => ?_
    · cases other with
      | process => exact Iff.rfl
      | connection other =>
          have apart : other ≠ guest.handlers.length := fun same => different (same ▸ rfl)
          simp only [held, List.getElem?_append]
          grind
    · simp [held, Handler.accepted, Handler.held, MainPhase.guardOpen, MainPhase.held]
  handlers handler member := by
    rcases List.mem_append.mp member with earlier | accepted
    · exact settled.handlers handler earlier
    · rw [List.mem_singleton.mp accepted]
      exact Handler.distinct_accepted _
  handles := settled.handles

theorem Settled.openHandle (settled : guest.Settled) :
    Settled { guest with
      table := guest.table.opened .process
      handles := guest.table.lowestFree :: guest.handles } where
  table := by
    refine settled.table.opened (fun other different number => ?_) fun number => List.mem_cons
    cases other with
    | process => exact absurd rfl different
    | connection other => exact Iff.rfl
  handlers := settled.handlers
  handles := List.nodup_cons.mpr ⟨settled.table.lowestFree_notMem .process, settled.handles⟩

theorem Settled.closeHandle (settled : guest.Settled) {number : Nat}
    (member : number ∈ guest.handles) :
    Settled { guest with
      table := guest.table.closed number
      handles := guest.handles.erase number } where
  table := by
    have mine : number ∈ guest.held .process := member
    refine settled.table.closed mine (fun other different number => ?_) fun other => ?_
    · cases other with
      | process => exact absurd rfl different
      | connection other => exact Iff.rfl
    · rw [held, settled.handles.mem_erase_iff, and_comm]
      exact Iff.rfl
  handlers := settled.handlers
  handles := settled.handles.erase number

/-- What a sound step does to the handler its call does to the table. -/
theorem Settled.handler (settled : guest.Settled) {connection : Nat} {handler : Handler}
    {call : Syscall} {following : Nat → Handler}
    (served : guest.handlers[connection]? = some handler) (sound : handler.Sound call following) :
    Settled { guest with
      table := call.apply (.connection connection) guest.table
      handlers := guest.handlers.set connection (following guest.table.lowestFree) } where
  table := by
    have mine : guest.held (.connection connection) = handler.held := held_of_handler served
    have fresh : guest.table.lowestFree ∉ handler.held :=
      mine ▸ settled.table.lowestFree_notMem (.connection connection)
    have becomes := sound.held guest.table.lowestFree fresh
    have present : connection < guest.handlers.length := (List.getElem?_eq_some_iff.mp served).1
    have mine_next (table : DescriptorTable Owner) :
        held { guest with
          table, handlers := guest.handlers.set connection (following guest.table.lowestFree) }
          (.connection connection) = (following guest.table.lowestFree).held :=
      held_of_handler (List.getElem?_set_self present)
    have others (table : DescriptorTable Owner) (other : Owner)
        (different : other ≠ .connection connection) (number : Nat) :
        number ∈ held { guest with
          table, handlers := guest.handlers.set connection (following guest.table.lowestFree) }
          other ↔ number ∈ guest.held other := by
      rw [held_set table different]
    cases call with
    | none =>
        refine settled.table.of_same fun owner number => ?_
        by_cases same : owner = .connection connection
        · rw [same, mine_next, mine]
          exact becomes number
        · exact others _ owner same number
    | use used =>
        refine settled.table.of_same fun owner number => ?_
        by_cases same : owner = .connection connection
        · rw [same, mine_next, mine]
          exact becomes number
        · exact others _ owner same number
    | «open» =>
        refine settled.table.opened (others _) fun number => ?_
        rw [mine_next, mine]
        exact becomes number
    | close closing =>
        have own : closing ∈ guest.held (.connection connection) := mine ▸ sound.used closing rfl
        refine settled.table.closed own (others _) fun number => ?_
        rw [mine_next, mine]
        exact becomes number
  handlers other member := by
    rcases List.mem_or_eq_of_mem_set member with earlier | rfl
    · exact settled.handlers other earlier
    · have fresh := settled.table.lowestFree_notMem (.connection connection)
      rw [held_of_handler served] at fresh
      exact sound.distinct _ fresh
  handles := settled.handles

/-- A step in time keeps every number with its owner. -/
theorem Settled.step {action : Action} {next : GuestProcess} (settled : guest.Settled)
    (in_time : guest.InTime action) (stepped : guest.step action = some next) : next.Settled := by
  cases action with
  | accept => exact Option.some.inj stepped ▸ settled.accept
  | openHandle => exact Option.some.inj stepped ▸ settled.openHandle
  | useHandle number =>
      obtain ⟨-, same⟩ := Option.ite_none_right_eq_some.mp stepped
      exact Option.some.inj same ▸ settled
  | closeHandle number =>
      obtain ⟨member, same⟩ := Option.ite_none_right_eq_some.mp stepped
      exact Option.some.inj same ▸ settled.closeHandle member
  | handler connection action =>
      obtain ⟨handler, call, following, served, enabled, rfl⟩ := handler_step stepped
      have distinct := settled.handlers handler (List.mem_of_getElem? served)
      exact settled.handler served (distinct.step_sound (in_time handler served) enabled)

/-- From a settled state exactly the steps in time use numbers of their own connection. -/
theorem Settled.owned_iff_inTime {action : Action} {next : GuestProcess} (settled : guest.Settled)
    (stepped : guest.step action = some next) : guest.Owned action ↔ guest.InTime action := by
  cases action with
  | accept | openHandle | useHandle number | closeHandle number => exact Iff.rfl
  | handler connection action =>
      obtain ⟨handler, call, following, served, enabled, -⟩ := handler_step stepped
      have distinct := settled.handlers handler (List.mem_of_getElem? served)
      have used : handler.usedNumber action = call.number? := by
        rw [Handler.usedNumber, enabled]
        rfl
      have denotes (number : Nat) :
          guest.table.denotes number = some (.connection connection) ↔ number ∈ handler.held := by
        rw [settled.table, held_of_handler served]
      constructor
      · intro owned other is_other
        obtain rfl := Option.some.inj (served.symm.trans is_other)
        by_contra late
        obtain ⟨number, is_number, unheld⟩ := distinct.step_strays late enabled
        exact unheld ((denotes number).mp (owned handler served number (used ▸ is_number)))
      · intro in_time other is_other number is_number
        obtain rfl := Option.some.inj (served.symm.trans is_other)
        rw [used] at is_number
        exact (denotes number).mpr
          ((distinct.step_sound (in_time handler served) enabled).used number is_number)

/-- In every run, the threads of each connection use and close only numbers that denote descriptions
opened for the connection, if and only if no input thread begins a read after its connection was
closed or uses a master after it was closed, and no command is dropped that owns a slave. -/
theorem numbers_owned_iff_in_time {count : Nat} {actions : List Action} {reached : GuestProcess}
    (execution : run step actions (start count) = some reached) :
    Guarded step Owned actions (start count) ↔ Guarded step InTime actions (start count) :=
  (guarded_iff_of_run Settled.step (fun settled stepped => (settled.owned_iff_inTime stepped).symm)
    (settled_start count) execution).symm

/-- A piped exec whose input thread is blocked in its read when the connection is closed. -/
def pipedExec : List Action :=
  [.accept, .handler 0 .useConn, .handler 0 .openHandle, .handler 0 .startPiped,
    .handler 0 .beginRead, .accept, .handler 0 (.useHandle 6), .handler 0 (.closeHandle 6),
    .handler 0 .outputWrites, .handler 0 .outputEnds, .handler 0 .outputEnds, .handler 0 .joined,
    .handler 0 .useConn, .handler 0 .dropGuard, .accept, .handler 2 .useConn,
    .handler 0 (.readReturns .ended)]

theorem piped_exec_owned : Guarded step Owned pipedExec (start 5) := by
  have enabled : (run step pipedExec (start 5)).isSome = true := by decide
  exact (numbers_owned_iff_in_time (Option.eq_some_of_isSome enabled)).mpr (by decide)

/-- A shell on a terminal ends while two clients connect. -/
def shellEnds : List Action :=
  [.accept, .handler 0 .useConn, .handler 0 .openHandle, .handler 0 (.openSlave 5),
    .handler 0 .spawned, .handler 0 .dup, .handler 0 .childExits, .handler 0 .outputEnds,
    .accept, .accept, .handler 0 .joined, .handler 0 .dropStdio]

/-- Dropping the command of the first connection closes the third connection. -/
theorem dropped_command_closes_other_connection :
    (run step shellEnds (start 4)).isSome = true ∧
      ¬ Guarded step Owned shellEnds (start 4) := by
  decide

end GuestProcess

end Pelagos.Guest.Descriptors
