import ColoDaemon.ClientRequests
import ColoDaemon.QmpChannel
import Mathlib.Algebra.Group.Int.Defs
import Mathlib.Algebra.Group.Pi.Basic
import Mathlib.Algebra.Group.Prod
import Mathlib.Algebra.Ring.Int.Defs

/-!
# The coroutines of the QMP channels, frame by frame

A thread is what a coroutine keeps while it is suspended: the `Point` of the function that waits
for a channel, a lock or an idle source, and below it the frames of the functions that wait for a
function they called. When a function returns, `drive` lets the frames below react until one of
them suspends again. The bottom frame belongs to the handshake, to the event coroutine, to the loop
of a client, or to a caller outside: the main coroutine and the watchdog. The callbacks and the
event queue of the main coroutine are left out.

`ledger` and `exits` are no part of the program. The ledger counts what a coroutine has locked and
not unlocked, and by how much it has raised `inflight`; an exit records the ledger of a function
that returns beside the ledger it started with.
-/

namespace ColoDaemon.QmpFrames

inductive Co
  | handshake (c : ChannelName)
  | event (c : ChannelName)
  | main (i : ℕ)
  | client (i : ℕ)
  deriving DecidableEq, Repr

/-- The depth that a coroutine holds of each lock, and its part of `inflight`. -/
abbrev Ledger := (ChannelName → ℤ) × ℤ

def Ledger.lock (c : ChannelName) : Ledger := (Pi.single c 1, 0)
def Ledger.unit : Ledger := (0, 1)

/-- A function that a coroutine calls with `co_recurse`. -/
inductive Callee
  | readLine (c : ChannelName) (yank skipEvents : Bool)
  | execute (c : ChannelName) (yank : Bool) (command : String)
  | yank
  | executeNocheck (command : String)
  | colodExecute (command : String)
  | colodYank
  | checkHealth
  deriving DecidableEq, Repr

inductive Fn
  | callee (callee : Callee)
  | handshake (c : ChannelName)
  | event (c : ChannelName)
  | client
  deriving DecidableEq, Repr

/-- Where `local_errp` of the client loop points after an error of the connection. It is a fresh
`NULL` once the coroutine has been suspended. -/
inductive LocalError
  | null
  | eof
  | dangling
  deriving DecidableEq, Repr

/-- Where a function is suspended. -/
inductive Point
  | reading (c : ChannelName) (yank skipEvents : Bool)
  | idle (c : ChannelName) (yank skipEvents : Bool)
  | lock (c : ChannelName) (yank : Bool) (command : String)
  | write (c : ChannelName) (yank : Bool) (command : String)
  | start (c : ChannelName)
  | watching (c : ChannelName)
  | waitHolder (c : ChannelName)
  | clientReading (stoppedQemu : Bool)
  | clientWriting (stoppedQemu : Bool) (result : ColodQmpResult)

/-- A function that waits for a function it called. -/
inductive Frame
  | yanking (c : ChannelName) (skipEvents : Bool)
  | again (c : ChannelName) (skipEvents : Bool)
  | read (c : ChannelName) (yank : Bool) (command : String)
  | queryYank
  | yankCommand (command : String)
  | greeting (c : ChannelName)
  | capabilities (c : ChannelName)
  | eventRead (c : ChannelName)
  | executeNocheck (command : String)
  | colodExecute (command : String)
  | colodYank
  | healthStatus
  | healthColoStatus (qemuStatus : ColodQmpResult)
  | clientWaiting (stoppedQemu : Bool) (call : QemuCall)
  | closing (localErrp : LocalError)

def capabilitiesText : String :=
  "\x7b'execute': 'qmp_capabilities', 'arguments': \x7b'enable': ['oob']\x7d\x7d\n"
def queryYankText : String := "\x7b'exec-oob': 'query-yank', 'id': 'yank0'\x7d\n"
def yankText (instances : String) : String :=
  "\x7b'exec-oob': 'yank', 'id': 'yank0', 'arguments':\x7b 'instances': " ++ instances
    ++ " \x7d\x7d\n"
def queryStatusText : String := "\x7b'execute': 'query-status'\x7d\n"
def queryColoStatusText : String := "\x7b'execute': 'query-colo-status'\x7d\n"
def stopText : String := "\x7b'execute': 'stop'\x7d\n"
def contText : String := "\x7b'execute': 'cont'\x7d\n"

def qemuCallee : QemuCall → Callee
  | .queryStatus => .checkHealth
  | .yank => .colodYank
  | .stop => .colodExecute stopText
  | .cont => .colodExecute contText
  | .executeNocheck line => .executeNocheck line

namespace Point

def fn : Point → Fn
  | .reading c yank skipEvents | .idle c yank skipEvents => .callee (.readLine c yank skipEvents)
  | .lock c yank command | .write c yank command => .callee (.execute c yank command)
  | .start c => .handshake c
  | .watching c | .waitHolder c => .event c
  | .clientReading _ | .clientWriting _ _ => .client

/-- What the function holds there. -/
def held : Point → Ledger
  | .reading _ _ _ | .idle _ _ _ | .clientReading _ | .clientWriting _ _ => 0
  | .lock _ _ _ | .watching _ | .waitHolder _ => Ledger.unit
  | .write c _ _ | .start c => Ledger.lock c + Ledger.unit

end Point

namespace Frame

def fn : Frame → Fn
  | .yanking c skipEvents | .again c skipEvents => .callee (.readLine c true skipEvents)
  | .read c yank command => .callee (.execute c yank command)
  | .queryYank | .yankCommand _ => .callee .yank
  | .greeting c | .capabilities c => .handshake c
  | .eventRead c => .event c
  | .executeNocheck command => .callee (.executeNocheck command)
  | .colodExecute command => .callee (.colodExecute command)
  | .colodYank => .callee .colodYank
  | .healthStatus | .healthColoStatus _ => .callee .checkHealth
  | .clientWaiting _ _ | .closing _ => .client

/-- The function that the frame waits for. -/
def callee : Frame → Callee
  | .yanking _ _ => .yank
  | .again c skipEvents => .readLine c false skipEvents
  | .read c yank _ => .readLine c yank true
  | .queryYank => .execute .yankChannel false queryYankText
  | .yankCommand command => .execute .yankChannel false command
  | .greeting c => .readLine c false true
  | .capabilities c => .execute c false capabilitiesText
  | .eventRead c => .readLine c false false
  | .executeNocheck command => .execute .channel true command
  | .colodExecute command => .executeNocheck command
  | .colodYank => .yank
  | .healthStatus => .colodExecute queryStatusText
  | .healthColoStatus _ => .colodExecute queryColoStatusText
  | .clientWaiting _ call => qemuCallee call
  | .closing _ => .colodExecute contText

def held : Frame → Ledger
  | .read c _ _ | .greeting c | .capabilities c | .eventRead c => Ledger.lock c + Ledger.unit
  | _ => 0

/-- A suspension forgets where `local_errp` pointed. -/
def suspended : Frame → Frame
  | .closing _ => .closing .null
  | frame => frame

end Frame

/-- A frame with the ledger its function started with. -/
structure Activation where
  frame : Frame
  entry : Ledger

structure Thread where
  point : Point
  entry : Ledger
  below : List Activation

/-- What a function returns; `failed` is `NULL` or -1 with the error that is set, if one is. -/
inductive Ret
  | line (result : ColodQmpResult)
  | done
  | failed (error : Option GError)

/-- Why the daemon crashes. -/
inductive Abort
  | lockAssertion
  | missingError
  | danglingError
  | yankInstances
  | replyAssertion
  deriving DecidableEq, Repr

structure Exit where
  fn : Fn
  before : Ledger
  after : Ledger
  result : Ret

structure ColodQmpState where
  lock : ChannelName → ReentrantLock Co
  inflight : ℤ
  error : Option GError
  management : Management
  clientsQuit : Bool
  ledger : Co → Ledger
  exits : List Exit

namespace ColodQmpState
variable (this : ColodQmpState) (co : Co) (c : ChannelName)

def qmpSetError (error : GError) : ColodQmpState := { this with error := some error }

def setLock (lock : ReentrantLock Co) (entry : Ledger) : ColodQmpState :=
  { this with
    lock := Function.update this.lock c lock
    ledger := Function.update this.ledger co entry }

def acquire : ColodQmpState :=
  this.setLock co c ((this.lock c).acquire co) (this.ledger co + Ledger.lock c)

def release : ColodQmpState :=
  this.setLock co c (this.lock c).release (this.ledger co - Ledger.lock c)

/-- One turn of `colod_lock_co`; `none` if another coroutine holds the lock. -/
def colodLockCo : Except Abort (Option ColodQmpState) :=
  if (this.lock c).holder = some co then
    if (this.lock c).count = 0 then .error .lockAssertion else .ok (some (this.acquire co c))
  else if (this.lock c).holder.isSome then .ok none
  else if (this.lock c).count = 0 then .ok (some (this.acquire co c))
  else .error .lockAssertion

def colodUnlockCo : Except Abort ColodQmpState :=
  if (this.lock c).holder = some co ∧ (this.lock c).count ≠ 0 then .ok (this.release co c)
  else .error .lockAssertion

/-- `inflight++`. -/
def count : ColodQmpState :=
  { this with
    inflight := this.inflight + 1
    ledger := Function.update this.ledger co (this.ledger co + Ledger.unit) }

/-- `inflight--`. -/
def uncount : ColodQmpState :=
  { this with
    inflight := this.inflight - 1
    ledger := Function.update this.ledger co (this.ledger co - Ledger.unit) }

def exit (fn : Fn) (before : Ledger) (result : Ret) : ColodQmpState :=
  { this with exits := this.exits ++ [⟨fn, before, this.ledger co, result⟩] }

end ColodQmpState

/-- How a function goes on: it returns, its coroutine ends, it suspends, or it calls the function
that its new frame waits for. -/
inductive Next
  | ret (result : Ret)
  | finished
  | park (point : Point)
  | call (frame : Frame)

abbrev Reaction := Except Abort (ColodQmpState × Next)

abbrev Turn := Except Abort (ColodQmpState × Option Thread)

section Calls
variable (this : ColodQmpState) (co : Co)

/-- The first part of `__qmp_execute_co`. -/
def startExecute (c : ChannelName) (yank : Bool) (command : String) (k : List Activation) :
    Turn :=
  match (this.count co).colodLockCo co c with
  | .error abort => .error abort
  | .ok (some next) => .ok (next, some ⟨.write c yank command, this.ledger co, k⟩)
  | .ok none => .ok (this.count co, some ⟨.lock c yank command, this.ledger co, k⟩)

def startReadLine (c : ChannelName) (yank skipEvents : Bool) (k : List Activation) : Turn :=
  .ok (this, some ⟨.reading c yank skipEvents, this.ledger co, k⟩)

def startYank (k : List Activation) : Turn :=
  startExecute this co .yankChannel false queryYankText (⟨.queryYank, this.ledger co⟩ :: k)

def startExecuteNocheck (command : String) (k : List Activation) : Turn :=
  startExecute this co .channel true command (⟨.executeNocheck command, this.ledger co⟩ :: k)

def startColodExecute (command : String) (k : List Activation) : Turn :=
  startExecuteNocheck this co command (⟨.colodExecute command, this.ledger co⟩ :: k)

def startColodYank (k : List Activation) : Turn :=
  startYank this co (⟨.colodYank, this.ledger co⟩ :: k)

def startCheckHealth (k : List Activation) : Turn :=
  startColodExecute this co queryStatusText (⟨.healthStatus, this.ledger co⟩ :: k)

def startCallee (k : List Activation) : Callee → Turn
  | .readLine c yank skipEvents => startReadLine this co c yank skipEvents k
  | .execute c yank command => startExecute this co c yank command k
  | .yank => startYank this co k
  | .executeNocheck command => startExecuteNocheck this co command k
  | .colodExecute command => startColodExecute this co command k
  | .colodYank => startColodYank this co k
  | .checkHealth => startCheckHealth this co k

end Calls

section Reactions
variable (lib : JsonGlib) (this : ColodQmpState) (co : Co)

/-- `colod_unlock_co`, and what comes after it. -/
def unlocked (c : ChannelName) (next : ColodQmpState → Reaction) : Reaction :=
  match this.colodUnlockCo co c with
  | .error abort => .error abort
  | .ok this => next this

/-- `qmp_set_error` in a coroutine that ends with the error. -/
def endWithError (error : Option GError) : Reaction :=
  match error with
  | none => .error .missingError
  | some error => .ok ((this.qmpSetError error).uncount co, .finished)

/-- `_qmp_read_line_co` with a line. -/
def lineRead (c : ChannelName) (yank skipEvents : Bool) (line : String) : Reaction :=
  match qmpParseResult lib line with
  | .error error => .ok (this, .ret (.failed error))
  | .ok result =>
    if skipEvents && hasMember result.members "event" then
      if c.discardEvents then .ok (this, .park (.reading c yank skipEvents))
      else .ok (this, .park (.idle c yank skipEvents))
    else .ok (this, .ret (.line result))

/-- `_qmp_read_line_co` with an error of the channel. -/
def lineFailed (c : ChannelName) (yank skipEvents : Bool) (error : GError) : Reaction :=
  if error.code = .timeout && yank then .ok (this, .call (.yanking c skipEvents))
  else .ok (this, .ret (.failed (some error)))

/-- `__qmp_execute_co` with an error of the write. -/
def writeFailed (c : ChannelName) (error : GError) : Reaction :=
  unlocked (this.qmpSetError error) co c fun this =>
    .ok (this.uncount co, .ret (.failed (some (error.prefixed "qmp: "))))

/-- `__qmp_execute_co` with the result of the read. -/
def executeRead (c : ChannelName) (r : Ret) : Reaction :=
  unlocked this co c fun this =>
    match r with
    | .failed none => .error .missingError
    | .failed (some error) =>
      .ok ((this.uncount co).qmpSetError error, .ret (.failed (some (error.prefixed "qmp: "))))
    | r => .ok (this.uncount co, .ret r)

/-- `_qmp_yank_co` with the reply to `query-yank`. -/
def queryYankReturned (r : Ret) : Reaction :=
  match r with
  | .line result =>
    if hasMember result.members "error" then
      .ok (this, .ret (.failed (some ⟨.fatal, "qmp query-yank: " ++ result.line⟩)))
    else
      match pickYankInstances lib result.members this.management.yankInstances with
      | none => .error .yankInstances
      | some instances => .ok (this, .call (.yankCommand (yankText instances)))
  | r => .ok (this, .ret r)

def yankReturned (command : String) (r : Ret) : Reaction :=
  match r with
  | .line result =>
    if hasMember result.members "error" then
      .ok (this, .ret (.failed (some
        ⟨.fatal, "qmp yank: " ++ command ++ ": " ++ result.line⟩)))
    else .ok (this, .ret .done)
  | r => .ok (this, .ret r)

def greetingReturned (c : ChannelName) (r : Ret) : Reaction :=
  match r with
  | .failed error => unlocked this co c fun this => endWithError this co error
  | _ => .ok (this, .call (.capabilities c))

def capabilitiesReturned (c : ChannelName) (r : Ret) : Reaction :=
  unlocked this co c fun this =>
    match r with
    | .failed error => endWithError this co error
    | .line result =>
      if hasMember result.members "error" then
        endWithError this co (some ⟨.fatal, "qmp_capabilities: " ++ result.line⟩)
      else .ok (this.uncount co, .finished)
    | .done => .ok (this.uncount co, .finished)

/-- `_qmp_event_co` after its read. -/
def eventReturned (c : ChannelName) (r : Ret) : Reaction :=
  unlocked this co c fun this =>
    match r with
    | .failed error => endWithError this co error
    | .line result =>
      if hasMember result.members "event" then .ok (this, .park (.watching c))
      else
        .ok (this.qmpSetError ⟨.fatal, "Not an event: " ++ result.line⟩, .park (.watching c))
    | .done => .ok (this, .park (.watching c))

/-- A function that queues `EVENT_FAILED` with the message of an error and passes it on. -/
def passError (error : Option GError) : Reaction :=
  match error with
  | none => .error .missingError
  | some error => .ok (this, .ret (.failed (some error)))

/-- `_colod_execute_nocheck_co`; the sticky error makes a result a failure. -/
def executeNocheckReturned (r : Ret) : Reaction :=
  match r with
  | .failed error => passError this error
  | r =>
    match this.error with
    | some error => .ok (this, .ret (.failed (some (error.prefixed "qmp: "))))
    | none => .ok (this, .ret r)

def colodExecuteReturned (command : String) (r : Ret) : Reaction :=
  match r with
  | .line result =>
    if hasMember result.members "error" then
      .ok (this, .ret (.failed (some
        ⟨.qmp, "qmp command returned error: " ++ command ++ " " ++ result.line⟩)))
    else .ok (this, .ret r)
  | r => .ok (this, .ret r)

def getMemberMemberStr (object : Members) (member1 member2 : String) : Option String :=
  match object.lookup member1 with
  | some (.object inner) => getMemberStr inner member2
  | _ => none

def qemuRunning (status : String) : Bool :=
  status ∈ ["running", "finish-migrate", "colo", "prelaunch", "paused"]

/-- The end of `_qemu_query_status_co`: `primary` and `replication`. -/
def qemuQueryStatus (qemuStatus coloStatus : ColodQmpResult) : Except GError (Bool × Bool) :=
  match getMemberMemberStr qemuStatus.members "return" "status",
    getMemberMemberStr coloStatus.members "return" "mode",
    getMemberMemberStr coloStatus.members "return" "reason" with
  | some status, some mode, some reason =>
    if status = "inmigrate" ∨ status = "shutdown" then .ok (false, false)
    else if qemuRunning status ∧ mode = "none" ∧ (reason = "none" ∨ reason = "request") then
      .ok (true, false)
    else if qemuRunning status ∧ mode = "primary" then .ok (true, true)
    else if qemuRunning status ∧ mode = "secondary" then .ok (false, true)
    else
      .error ⟨.fatal, "Unknown qemu status: " ++ qemuStatus.line ++ ", " ++ coloStatus.line⟩
  | _, _, _ => .error ⟨.fatal, "Failed to parse query-status and query-colo-status output"⟩

/-- The end of `_colod_check_health_co`. -/
def checkHealth (qemuStatus coloStatus : ColodQmpResult) : Ret :=
  match qemuQueryStatus qemuStatus coloStatus with
  | .error error => .failed (some error)
  | .ok (primary, replication) =>
    let expected := this.management
    if !expected.transitioning
        && (expected.primary != primary || expected.replication != replication) then
      .failed (some ⟨.fatal, "qemu status mismatch: (" ++ boolToJson primary ++ ", "
        ++ boolToJson replication ++ ") Expected: (" ++ boolToJson expected.primary ++ ", "
        ++ boolToJson expected.replication ++ ")"⟩)
    else .done

def healthStatusReturned (r : Ret) : Reaction :=
  match r with
  | .failed error => passError this error
  | .line result => .ok (this, .call (.healthColoStatus result))
  | .done => .ok (this, .ret .done)

def healthColoStatusReturned (qemuStatus : ColodQmpResult) (r : Ret) : Reaction :=
  match r with
  | .failed error => passError this error
  | .line coloStatus => .ok (this, .ret (checkHealth this qemuStatus coloStatus))
  | .done => .ok (this, .ret .done)

def colodYankReturned (r : Ret) : Reaction :=
  match r with
  | .failed error => passError this error
  | r => .ok (this, .ret r)

/-- The reply is written, after the assertion that made it. -/
def writeReply (stoppedQemu : Bool) (result : Option ColodQmpResult) : Reaction :=
  match result with
  | none => .error .replyAssertion
  | some result => .ok (this, .park (.clientWriting stoppedQemu result))

/-- The client loop with what a call to qemu returned. -/
def clientReturned (stoppedQemu : Bool) (call : QemuCall) (r : Ret) : Reaction :=
  match call, r with
  | _, .failed none => .error .missingError
  | .queryStatus, .failed (some _) =>
    writeReply this stoppedQemu (handleQueryStatus lib this.management true)
  | .queryStatus, _ =>
    writeReply this stoppedQemu (handleQueryStatus lib this.management false)
  | _, .failed (some error) =>
    writeReply this stoppedQemu (createErrorReply lib error.message)
  | .stop, .line result => writeReply this true (some result)
  | .cont, .line result => writeReply this false (some result)
  | _, .line result => writeReply this stoppedQemu (some result)
  | _, .done => writeReply this stoppedQemu (createReply lib "\x7b\x7d")

/-- `error_client`. -/
def errorClient (stoppedQemu : Bool) (error : Option GError) : Reaction :=
  match error with
  | none => .error .missingError
  | some error =>
    if stoppedQemu then
      .ok (this, .call (.closing (if error.code = .eof then .eof else .dangling)))
    else .ok (this, .finished)

/-- The end of `error_client`, which reads `local_errp` if the command failed. -/
def closingReturned (localErrp : LocalError) (r : Ret) : Reaction :=
  match r with
  | .failed error =>
    match localErrp, error with
    | .dangling, _ => .error .danglingError
    | .null, none => .error .missingError
    | _, _ => .ok (this, .finished)
  | _ => .ok (this, .finished)

/-- The client loop with a line. -/
def clientRead (stoppedQemu : Bool) (line : String) : Reaction :=
  if this.clientsQuit then .ok (this, .finished)
  else
    match qmpParseResult lib line with
    | .error error => errorClient this stoppedQemu error
    | .ok request =>
      match handleRequest lib this.management request with
      | (management, .reply result) => writeReply { this with management } stoppedQemu result
      | (management, .call call) =>
        .ok ({ this with management }, .call (.clientWaiting stoppedQemu call))

/-- A frame with what its callee returned. -/
def react (frame : Frame) (r : Ret) : Reaction :=
  match frame with
  | .yanking c skipEvents =>
    match r with
    | .failed error => passError this error
    | _ => .ok (this, .call (.again c skipEvents))
  | .again _ _ => .ok (this, .ret r)
  | .read c _ _ => executeRead this co c r
  | .queryYank => queryYankReturned lib this r
  | .yankCommand command => yankReturned this command r
  | .greeting c => greetingReturned this co c r
  | .capabilities c => capabilitiesReturned this co c r
  | .eventRead c => eventReturned this co c r
  | .executeNocheck _ => executeNocheckReturned this r
  | .colodExecute command => colodExecuteReturned this command r
  | .colodYank => colodYankReturned this r
  | .healthStatus => healthStatusReturned this r
  | .healthColoStatus qemuStatus => healthColoStatusReturned this qemuStatus r
  | .clientWaiting stoppedQemu call => clientReturned lib this stoppedQemu call r
  | .closing localErrp => closingReturned this localErrp r

/-- What a channel operation ends with. -/
inductive Outcome
  | written
  | line (text : String)
  | failed (error : GError)

/-- A function whose channel operation has ended. -/
def reactIo (point : Point) (outcome : Outcome) : Option Reaction :=
  match point, outcome with
  | .reading c yank skipEvents, .line text => some (lineRead lib this c yank skipEvents text)
  | .reading c yank skipEvents, .failed error => some (lineFailed this c yank skipEvents error)
  | .write c yank command, .written => some (.ok (this, .call (.read c yank command)))
  | .write c _ _, .failed error => some (writeFailed this co c error)
  | .clientReading stoppedQemu, .line text => some (clientRead lib this stoppedQemu text)
  | .clientReading stoppedQemu, .failed error =>
    some (if this.clientsQuit then .ok (this, .finished)
      else errorClient this stoppedQemu (some error))
  | .clientWriting stoppedQemu _, .written =>
    some (if this.clientsQuit then .ok (this, .finished)
      else .ok (this, .park (.clientReading stoppedQemu)))
  | .clientWriting stoppedQemu _, .failed error =>
    some (errorClient this stoppedQemu (some error))
  | _, _ => none

/-- `colod_lock_co`, and where the function suspends with and without the lock. -/
def locked (c : ChannelName) (wait : Point) (next : Next) : Reaction :=
  match this.colodLockCo co c with
  | .error abort => .error abort
  | .ok (some this) => .ok (this, next)
  | .ok none => .ok (this, .park wait)

/-- A function that is resumed by a source of its own: the idle source of a read or of the
handshake, the progress source of a lock, or the watch of the event coroutine. -/
def reactResume (point : Point) : Option Reaction :=
  match point with
  | .idle c yank skipEvents => some (.ok (this, .park (.reading c yank skipEvents)))
  | .lock c yank command =>
    some (locked this co c (.lock c yank command) (.park (.write c yank command)))
  | .start c => some (.ok (this, .call (.greeting c)))
  | .watching c | .waitHolder c =>
    if (this.lock c).holder.isSome then some (.ok (this, .park (.waitHolder c)))
    else some (locked this co c (.waitHolder c) (.call (.eventRead c)))
  | _ => none

end Reactions

/-- Lets a function go on, and the functions below it as far as they get. `fn` and `entry` belong
to the function. -/
def drive (lib : JsonGlib) (co : Co) (fn : Fn) (entry : Ledger) :
    List Activation → Reaction → Turn
  | _, .error abort => .error abort
  | k, .ok (this, .park point) => .ok (this, some ⟨point, entry, k⟩)
  | k, .ok (this, .call frame) => startCallee this co (⟨frame, entry⟩ :: k) frame.callee
  | _, .ok (this, .finished) => .ok (this.exit co fn entry .done, none)
  | [], .ok (this, .ret r) => .ok (this.exit co fn entry r, none)
  | a :: k, .ok (this, .ret r) =>
    drive lib co a.frame.fn a.entry k (react lib (this.exit co fn entry r) co a.frame r)

section Drive
variable {lib : JsonGlib} {co : Co} {fn : Fn} {entry : Ledger} {k : List Activation}
  {this : ColodQmpState}

@[simp] theorem drive_error {abort : Abort} :
    drive lib co fn entry k (.error abort) = .error abort := by
  cases k <;> rfl

@[simp] theorem drive_park {point : Point} :
    drive lib co fn entry k (.ok (this, .park point)) = .ok (this, some ⟨point, entry, k⟩) := by
  cases k <;> rfl

@[simp] theorem drive_call {frame : Frame} :
    drive lib co fn entry k (.ok (this, .call frame)) =
      startCallee this co (⟨frame, entry⟩ :: k) frame.callee := by
  cases k <;> rfl

@[simp] theorem drive_finished :
    drive lib co fn entry k (.ok (this, .finished)) =
      .ok (this.exit co fn entry .done, none) := by
  cases k <;> rfl

end Drive

/-- The calls of the main coroutine and of the watchdog. -/
inductive MainCall
  | execute (command : String)
  | yank
  | checkHealth
  deriving DecidableEq, Repr

def MainCall.callee : MainCall → Callee
  | .execute command => .colodExecute command
  | .yank => .yank
  | .checkHealth => .checkHealth

structure System where
  qmp : ColodQmpState
  thread : Co → Option Thread
  aborted : Option Abort

/-- `waited` says that the coroutine was suspended before its channel operation ended. -/
inductive Label
  | accept (i : ℕ)
  | call (i : ℕ) (call : MainCall)
  | resume (co : Co)
  | io (co : Co) (waited : Bool) (outcome : Outcome)
  | main (update : MainUpdate)
  | quitClients

/-- A timeout strikes only a coroutine that waits. -/
def Outcome.possible (waited : Bool) : Outcome → Bool
  | failed error => waited || error.code ≠ .timeout
  | _ => true

def suspended (k : List Activation) : List Activation :=
  k.map fun a => { a with frame := a.frame.suspended }

namespace System
variable (lib : JsonGlib) (this : System) (co : Co)

def settle (turn : Turn) : System :=
  match turn with
  | .error abort => { this with aborted := some abort }
  | .ok (qmp, thread) => { this with qmp, thread := Function.update this.thread co thread }

def resume : Option System := do
  let thread ← this.thread co
  let reaction ← reactResume this.qmp co thread.point
  pure (this.settle co
    (drive lib co thread.point.fn thread.entry (suspended thread.below) reaction))

def io (waited : Bool) (outcome : Outcome) : Option System := do
  let thread ← this.thread co
  let reaction ← reactIo lib this.qmp co thread.point outcome
  let below := if waited then suspended thread.below else thread.below
  pure (this.settle co (drive lib co thread.point.fn thread.entry below reaction))

def step (label : Label) : Option System :=
  if this.aborted.isSome then none
  else
    match label with
    | .accept i =>
      if (this.thread (.client i)).isSome then none
      else
        some (this.settle (.client i)
          (.ok (this.qmp, some ⟨.clientReading false, this.qmp.ledger (.client i), []⟩)))
    | .call i call =>
      if (this.thread (.main i)).isSome then none
      else some (this.settle (.main i) (startCallee this.qmp (.main i) [] call.callee))
    | .resume co => this.resume lib co
    | .io co waited outcome =>
      if outcome.possible waited then this.io lib co waited outcome else none
    | .main update =>
      some { this with qmp := { this.qmp with management := this.qmp.management.update update } }
    | .quitClients => some { this with qmp := { this.qmp with clientsQuit := true } }

/-- `qmp_new`: the handshakes hold the locks of their channels, and each of the four coroutines is
counted. -/
def qmpNew (management : Management) : System where
  qmp :=
    { lock := fun c => ReentrantLock.heldBy (.handshake c)
      inflight := 4
      error := none
      management
      clientsQuit := false
      ledger := fun co =>
        match co with
        | .handshake c => Ledger.lock c + Ledger.unit
        | .event _ => Ledger.unit
        | .main _ | .client _ => 0
      exits := [] }
  thread := fun co =>
    match co with
    | .handshake c => some ⟨.start c, 0, []⟩
    | .event c => some ⟨.watching c, 0, []⟩
    | .main _ | .client _ => none
  aborted := none

end System
end ColoDaemon.QmpFrames
