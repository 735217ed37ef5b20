import ColoDaemon.ReentrantLock
import ColoDaemon.Runs
import Mathlib.Data.List.Range

/-!
# The two QMP channels

`ColodQmpState` is the daemon's end of the main channel and of the yank channel: the lock of each
channel, the lines that qemu has sent and no coroutine has read, the suspension point of every
coroutine inside `qmp.c` and the sticky error. A step resumes one coroutine at its suspension point,
lets a channel timeout or failure strike it, starts a call of a caller or lets qemu send a line.
-/

namespace ColoDaemon

inductive ChannelName
  | channel
  | yankChannel
  deriving DecidableEq, Repr

def ChannelName.discardEvents : ChannelName → Bool
  | .channel => false
  | .yankChannel => true

/-- The coroutines that use a channel. The callers are the main coroutine, the clients and the
watchdog. -/
inductive QmpCo
  | handshake (c : ChannelName)
  | event (c : ChannelName)
  | caller (i : ℕ)
  deriving DecidableEq, Repr

/-- A line that qemu sends. An answer carries the number of its command, which is not part of the
text: qemu answers the commands of a channel in order. -/
inductive QmpLine (E A : Type*)
  | greeting
  | event (e : E)
  | answer (number : ℕ) (a : A)
  deriving DecidableEq, Repr

/-- The commands that `qmp.c` itself writes, and what it looks for in an answer: `yank` is the
command with the instances that `pick_yank_instances` finds, `isError` the member `error`. -/
structure QmpDialect (C E A : Type*) where
  qmpCapabilities : C
  queryYank : C
  yank : QmpLine E A → C
  isError : QmpLine E A → Bool

/-- Where `__qmp_execute_co` is suspended: waiting for the lock, writing the command, waiting for a
line, or in the idle yield after an event. `number` is that of the command it wrote. -/
inductive ExecutePoint (C : Type*)
  | lock (command : C)
  | write (command : C)
  | read (number : ℕ)
  | idle (number : ℕ)
  deriving DecidableEq, Repr

/-- What a coroutine does. A yank is nested in the read of command `outer` of the main channel, or
is a call of `qmp_yank_co` of its own; `executing` carries the argument `yank` of the read. -/
inductive QmpTask (C : Type*)
  | off
  | greeting (c : ChannelName) (idle : Bool)
  | capabilities (c : ChannelName) (point : ExecutePoint C)
  | watching (c : ChannelName)
  | reading (c : ChannelName)
  | executing (yank : Bool) (point : ExecutePoint C)
  | queryYank (outer : Option ℕ) (point : ExecutePoint C)
  | yank (outer : Option ℕ) (point : ExecutePoint C)
  deriving DecidableEq, Repr

/-- One channel. The commands that qemu received are `written`, of which it answered the first
`answered`; `emitted` are the events it sent. -/
structure QmpChannel (C E A : Type*) where
  lock : ReentrantLock QmpCo
  unread : List (QmpLine E A)
  written : List (QmpCo × C)
  answered : ℕ
  greeted : Bool
  emitted : List E

/-- A line that `__qmp_execute_co` returned to `caller`, which wrote command `number`. -/
structure QmpReturn (E A : Type*) where
  channel : ChannelName
  caller : QmpCo
  number : ℕ
  line : QmpLine E A
  deriving DecidableEq, Repr

structure ColodQmpState (C E A : Type*) where
  channel : ChannelName → QmpChannel C E A
  task : QmpCo → QmpTask C
  error : Bool
  didYank : Bool
  notified : List E
  returned : List (QmpReturn E A)

inductive QmpLabel (C E A : Type*)
  | greet (c : ChannelName)
  | emit (c : ChannelName) (e : E)
  | answer (c : ChannelName) (a : A)
  | execute (i : ℕ) (command : C)
  | yank (i : ℕ)
  | run (co : QmpCo)
  | timeout (co : QmpCo)
  | fail (co : QmpCo)
  deriving DecidableEq, Repr

variable {C E A : Type*}

namespace ColodQmpState
variable (this : ColodQmpState C E A) (co : QmpCo) (c : ChannelName)

def become (t : QmpTask C) : ColodQmpState C E A :=
  { this with task := Function.update this.task co t }

def setChannel (ch : QmpChannel C E A) : ColodQmpState C E A :=
  { this with channel := Function.update this.channel c ch }

/-- `qmp_set_error`. -/
def setError : ColodQmpState C E A := { this with error := true }

def notifyEvent (e : E) : ColodQmpState C E A :=
  if c.discardEvents then this else { this with notified := this.notified ++ [e] }

end ColodQmpState

namespace QmpChannel
variable (this : QmpChannel C E A)

def acquire (co : QmpCo) : QmpChannel C E A := { this with lock := this.lock.acquire co }
def release : QmpChannel C E A := { this with lock := this.lock.release }
def consume (rest : List (QmpLine E A)) : QmpChannel C E A := { this with unread := rest }
def write (co : QmpCo) (command : C) : QmpChannel C E A :=
  { this with written := this.written ++ [(co, command)] }

end QmpChannel

open ColodQmpState

variable (d : QmpDialect C E A) (this : ColodQmpState C E A) (co : QmpCo) (c : ChannelName)

def colodUnlockCo : ColodQmpState C E A := this.setChannel c (this.channel c).release

/-- `qmp_read_line_co` with `skip_events`: the next line, or `none` for an event. -/
def qmpReadLineCo : Option (Option (QmpLine E A) × ColodQmpState C E A) :=
  match (this.channel c).unread with
  | [] => none
  | .event e :: rest =>
      some (none, (this.setChannel c ((this.channel c).consume rest)).notifyEvent c e)
  | line :: rest => some (some line, this.setChannel c ((this.channel c).consume rest))

/-- `__qmp_execute_co` from one suspension point to the next, or to its end. -/
def qmpExecuteCo :
    ExecutePoint C → Option ((ExecutePoint C ⊕ QmpLine E A) × ColodQmpState C E A)
  | .lock command =>
      if (this.channel c).lock.Available co then
        some (.inl (.write command), this.setChannel c ((this.channel c).acquire co))
      else some (.inl (.lock command), this)
  | .write command =>
      some (.inl (.read (this.channel c).written.length),
        this.setChannel c ((this.channel c).write co command))
  | .read number =>
      match qmpReadLineCo this c with
      | none => none
      | some (none, this) =>
          some (.inl (if c.discardEvents then .read number else .idle number), this)
      | some (some line, this) =>
          let this := colodUnlockCo this c
          some (.inr line, { this with returned := this.returned ++ [⟨c, co, number, line⟩] })
  | .idle number => some (.inl (.read number), this)

/-- `_qmp_yank_co` returns -1: in a nested call this is the end of the exchange around it. -/
def qmpYankFailed (outer : Option ℕ) : ColodQmpState C E A :=
  match outer with
  | none => this.become co .off
  | some _ => ((colodUnlockCo this .channel).setError).become co .off

/-- `_qmp_yank_co` returns 0: a nested call resumes the read without a further yank. -/
def qmpYankDone (outer : Option ℕ) : ColodQmpState C E A :=
  match outer with
  | none => { this with didYank := true }.become co .off
  | some number => { this with didYank := true }.become co (.executing false (.read number))

/-- `_qmp_event_co` at its read. -/
def qmpEventCo : Option (ColodQmpState C E A) :=
  match (this.channel c).unread with
  | [] => none
  | line :: rest =>
      let next := (colodUnlockCo (this.setChannel c ((this.channel c).consume rest)) c).become co
        (.watching c)
      match line with
      | .event e => some (next.notifyEvent c e)
      | _ => some next.setError

def runCo : Option (ColodQmpState C E A) :=
  match this.task co with
  | .off => none
  | .greeting c true => some (this.become co (.greeting c false))
  | .greeting c false =>
      match qmpReadLineCo this c with
      | none => none
      | some (none, this) => some (this.become co (.greeting c (!c.discardEvents)))
      | some (some _, this) => some (this.become co (.capabilities c (.lock d.qmpCapabilities)))
  | .capabilities c point =>
      match qmpExecuteCo this co c point with
      | none => none
      | some (.inl point, this) => some (this.become co (.capabilities c point))
      | some (.inr line, this) =>
          let this := (colodUnlockCo this c).become co .off
          some (if d.isError line then this.setError else this)
  | .watching c =>
      if (this.channel c).lock.holder = none then
        some ((this.setChannel c ((this.channel c).acquire co)).become co (.reading c))
      else some this
  | .reading c => qmpEventCo this co c
  | .executing yank point =>
      match qmpExecuteCo this co .channel point with
      | none => none
      | some (.inl point, this) => some (this.become co (.executing yank point))
      | some (.inr _, this) => some (this.become co .off)
  | .queryYank outer point =>
      match qmpExecuteCo this co .yankChannel point with
      | none => none
      | some (.inl point, this) => some (this.become co (.queryYank outer point))
      | some (.inr line, this) =>
          if d.isError line then some (qmpYankFailed this co outer)
          else some (this.become co (.yank outer (.lock (d.yank line))))
  | .yank outer point =>
      match qmpExecuteCo this co .yankChannel point with
      | none => none
      | some (.inl point, this) => some (this.become co (.yank outer point))
      | some (.inr line, this) =>
          some (if d.isError line then qmpYankFailed this co outer else qmpYankDone this co outer)

/-- The coroutine waits for the channel to become readable or writable. -/
def ExecutePoint.waits : ExecutePoint C → Bool
  | .write _ => true
  | .read _ => true
  | _ => false

/-- A channel fails under the coroutine: end of file, an error or an unparsable line. -/
def failCo : Option (ColodQmpState C E A) :=
  match this.task co with
  | .greeting c false => some ((colodUnlockCo this c).setError.become co .off)
  | .capabilities c point =>
      if point.waits then
        some ((colodUnlockCo (colodUnlockCo this c) c).setError.become co .off)
      else none
  | .reading c => some ((colodUnlockCo this c).setError.become co .off)
  | .executing _ point =>
      if point.waits then some ((colodUnlockCo this .channel).setError.become co .off) else none
  | .queryYank outer point =>
      if point.waits then some (qmpYankFailed (colodUnlockCo this .yankChannel).setError co outer)
      else none
  | .yank outer point =>
      if point.waits then some (qmpYankFailed (colodUnlockCo this .yankChannel).setError co outer)
      else none
  | _ => none

/-- A timeout fails the channel, except that the first one at a read of the main channel starts the
nested yank. -/
def timeoutCo : Option (ColodQmpState C E A) :=
  match this.task co with
  | .executing true (.read number) =>
      some (this.become co (.queryYank (some number) (.lock d.queryYank)))
  | _ => failCo this co

namespace ColodQmpState

/-- `qmp_new`: both handshakes hold their lock from the start. -/
def qmpNew : ColodQmpState C E A where
  channel c :=
    { lock := .heldBy (.handshake c), unread := [], written := [], answered := 0, greeted := false,
      emitted := [] }
  task
    | .handshake c => .greeting c true
    | .event c => .watching c
    | .caller _ => .off
  error := false
  didYank := false
  notified := []
  returned := []

end ColodQmpState

def qmpStep (this : ColodQmpState C E A) : QmpLabel C E A → Option (ColodQmpState C E A)
  | .greet c =>
      let ch := this.channel c
      if ch.greeted then none
      else some (this.setChannel c { ch with greeted := true, unread := ch.unread ++ [.greeting] })
  | .emit c e =>
      let ch := this.channel c
      some (this.setChannel c
        { ch with unread := ch.unread ++ [.event e], emitted := ch.emitted ++ [e] })
  | .answer c a =>
      let ch := this.channel c
      if ch.answered < ch.written.length then
        some (this.setChannel c
          { ch with unread := ch.unread ++ [.answer ch.answered a], answered := ch.answered + 1 })
      else none
  | .execute i command =>
      match this.task (.caller i) with
      | .off => some (this.become (.caller i) (.executing true (.lock command)))
      | _ => none
  | .yank i =>
      match this.task (.caller i) with
      | .off => some (this.become (.caller i) (.queryYank none (.lock d.queryYank)))
      | _ => none
  | .run co => runCo d this co
  | .timeout co => timeoutCo d this co
  | .fail co => failCo this co

end ColoDaemon
