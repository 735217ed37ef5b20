import ColoDaemon.Daemon

/-!
# The main coroutine

Each definition is the part of a coroutine function of `main_coroutine.c` from one program point
to the next one. `mainRun` executes one such part; a QMP exchange is left to the step function,
which hands its result to `execReturn` or `yankReturn`.
-/

namespace ColoDaemon

/-- The codes of `ColodError`. A failed QMP exchange carries a code other than `qmp` and
`interrupt`; `fatal` stands for all of these. -/
inductive ColodError
  | fatal
  | timeout
  | qmp
  | interrupt
  deriving DecidableEq, Repr

/-- A reply line of qemu: with a `return` or with an `error` member. -/
inductive QmpReply
  | result
  | error
  deriving DecidableEq, Repr

inductive YankReply
  | result
  | error
  | failed
  deriving DecidableEq, Repr

def eventAlwaysInterrupting : ColodEvent → Bool
  | .failed | .peerFailover | .quit | .autoquit => true
  | _ => false

/-- `none` is `abort()`. -/
def handleAlwaysInterrupting : ColodEvent → Option MainState
  | .failed => some .failed
  | .peerFailover => some .failedPeerFailover
  | .quit => some .quit
  | .autoquit => some .autoquit
  | _ => none

def eventFailover (event : ColodEvent) : Bool := event = .failoverSync

def eventYellow (event : ColodEvent) : Bool := event = .yellow ∨ event = .unyellow

def colodRaiseTimeoutCoroutine (this : Daemon) : Daemon :=
  if this.raise.isSome then this
  else { this with timeout := this.ctx.qmpTimeoutHigh, raise := some .start }

def qmpSetTimeoutLow (this : Daemon) : Daemon :=
  { this with timeout := this.ctx.qmpTimeoutLow }

def colodClearPeer (this : Daemon) : Daemon := { this with peer := "" }

namespace Daemon

def abort (this : Daemon) : Daemon := { this with pc := .aborted }

def gotoHandled (this : Daemon) (event : ColodEvent) : Daemon :=
  match handleAlwaysInterrupting event with
  | some newState => this.goto newState
  | none => this.abort

def execute (this : Daemon) (site : ExecSite) : Daemon :=
  this.continueAt (.exec site false .channel)

/-- `_qmp_wait_event_co` up to its yield. -/
def qmpWait (this : Daemon) (site : QmpWaitSite) : Daemon := this.suspendAt (.qmpWait site false)

/-- The call of `_colod_execute_array_co`, which borrows the installed array. -/
def executeArray (this : Daemon) (table : CommandTable) : Daemon :=
  (this.observe (.began table (this.commands table))).continueAt
    (.array ⟨table, this.commands table, 0, false⟩)

end Daemon

/-- `_colod_execute_nocheck_co` after the exchange. -/
def colodExecuteNocheckCo (this : Daemon) (reply : Option QmpReply) :
    Except ColodError QmpReply × Daemon :=
  match reply with
  | none => (.error .fatal, { this with qmpError := true }.queueEvent .failed)
  | some reply =>
    if this.qmpError then (.error .fatal, this.queueEvent .failed)
    else if this.didYank then
      (.ok reply, { this with didYank := false }.queueEvent .failoverSync)
    else (.ok reply, this)

def colodExecuteCo (this : Daemon) (reply : Option QmpReply) :
    Except ColodError Unit × Daemon :=
  match colodExecuteNocheckCo this reply with
  | (.error err, this) => (.error err, this)
  | (.ok .error, this) => (.error .qmp, this)
  | (.ok .result, this) => (.ok (), this)

/-! ### `_colod_primary_start_migration_co` -/

/-- The label `handle_event`. -/
def migrationHandleEvent (this : Daemon) : Daemon :=
  if this.pendingInterrupt then this.continueAt (.eventWait .startMigration) else this.abort

/-- The label `qmp_error`; its middle branch is `goto failover`. -/
def migrationQmpError (this : Daemon) : ColodError → Daemon
  | .interrupt => migrationHandleEvent this
  | .qmp => this.execute .migrateCancel
  | _ => this.goto .failed

/-! ### `_colod_execute_array_co` and its three callers -/

def executeArrayReturn (this : Daemon) (table : CommandTable) (err : Option ColodError) : Daemon :=
  match table, err with
  | .migrationStart, none =>
    if this.pendingInterrupt then migrationHandleEvent this
    else { this with transitioning := true }.qmpWait .preSwitchover
  | .migrationSwitchover, none =>
    if this.pendingInterrupt then migrationHandleEvent this
    else (colodRaiseTimeoutCoroutine this).execute .migrateContinue
  | .migrationStart, some err | .migrationSwitchover, some err => migrationQmpError this err
  | .failoverPrimary, none | .failoverSecondary, none => (colodClearPeer this).goto .primaryWait
  | .failoverPrimary, some _ | .failoverSecondary, some _ => this.goto .failed

def ignoreErrors : CommandTable → Bool
  | .failoverPrimary | .failoverSecondary => true
  | _ => false

/-- The loop head. Reading an element of a released array is undefined; the model stops there. -/
def colodExecuteArrayCo (this : Daemon) (co : ArrayFrame) : Daemon :=
  match co.array[co.i]? with
  | none => executeArrayReturn this co.table none
  | some line =>
    if co.dangling then this.abort
    else if this.pendingInterrupt then executeArrayReturn this co.table (some .interrupt)
    else this.execute (.element co line)

/-- The rest of the loop body, from the result of `colod_execute_co` on. -/
def executeArrayElement (this : Daemon) (co : ArrayFrame) (result : Except ColodError Unit) :
    Daemon :=
  match result with
  | .ok () => this.continueAt (.array { co with i := co.i + 1 })
  | .error err =>
    if ignoreErrors co.table ∧ err = .qmp then
      this.continueAt (.array { co with i := co.i + 1 })
    else executeArrayReturn this co.table (some err)

/-- The callers of `colod_execute_co` and `colod_stop_co` after the call. -/
def execReturn (this : Daemon) (site : ExecSite) (result : Except ColodError Unit) : Daemon :=
  match site, result with
  | .secondaryStartup, .ok () => this.goto .secondaryWait
  | .secondaryStartup, .error _ => this.goto .failed
  | .migrationCapabilities, .ok () =>
    if this.pendingInterrupt then migrationHandleEvent this else this.executeArray .migrationStart
  | .migrationCapabilities, .error err => migrationQmpError this err
  | .migrateContinue, .ok () =>
    if this.pendingInterrupt then migrationHandleEvent (qmpSetTimeoutLow this)
    else this.qmpWait .colo
  | .migrateContinue, .error err => migrationQmpError (qmpSetTimeoutLow this) err
  | .migrateCancel, .ok () => this.goto .failoverSync
  | .migrateCancel, .error _ => this.goto .failed
  | .stop, _ => this.continueAt (.eventWait .failed)
  | .element co _, result => executeArrayElement this co result

/-- `_colod_failover_co` after the yank. -/
def yankReturn (this : Daemon) (reply : YankReply) : Daemon :=
  match reply with
  | .result =>
    let this := { this with didYank := true, transitioning := true }.observe .yanked
    this.executeArray (if this.primary then .failoverPrimary else .failoverSecondary)
  | .error => this.goto .failed
  | .failed => { this with qmpError := true }.goto .failed

/-- The callers of `colod_qmp_event_wait_co` after the call. -/
def qmpWaitReturn (this : Daemon) (site : QmpWaitSite) (err : Option ColodError) : Daemon :=
  match site, err with
  | .secondaryWait, none =>
    (colodRaiseTimeoutCoroutine (this.observe .resumed)).goto .secondaryColoRunning
  | .secondaryWait, some _ =>
    if eventqueuePending this.loop.queue then this.continueAt (.eventWait .secondaryWait)
    else this.abort
  | .preSwitchover, none => this.executeArray .migrationSwitchover
  | .preSwitchover, some err => migrationQmpError this err
  | .colo, none => this.goto .primaryColoRunning
  | .colo, some err => migrationQmpError (qmpSetTimeoutLow this) err
  | .running1, none => this.qmpWait .running2
  | .running2, none => this.suspendAt .grace
  | .running1, some _ | .running2, some _ => this.continueAt (.eventWait .coloRunning)

def QmpWaitSite.hasTimeout : QmpWaitSite → Bool
  | .preSwitchover | .colo => true
  | _ => false

/-- `_colod_qmp_event_wait_co` when the wait it makes is resumed. -/
def colodQmpEventWaitCo (this : Daemon) (site : QmpWaitSite) (fired : Bool) : Daemon :=
  if fired then qmpWaitReturn this site none
  else if site.hasTimeout ∧ this.loop.current = some .timeout then
    qmpWaitReturn this site (some .timeout)
  else if eventqueuePending this.loop.queue = false then this.abort
  else if this.pendingInterrupt = false then this.qmpWait site
  else qmpWaitReturn this site (some .interrupt)

/-- `_colod_colo_running_co` when the grace wait ends. -/
def graceReturn (this : Daemon) : Daemon :=
  if this.loop.current = some .grace ∧ this.yellow ∧ !this.peerYellow then this.goto .failed
  else this.continueAt (.eventWait .coloRunning)

/-- The callers of `colod_event_wait` after the call. -/
def eventWaitReturn (this : Daemon) (site : EventWaitSite) (event : ColodEvent) : Daemon :=
  match site with
  | .secondaryWait =>
    if eventAlwaysInterrupting event then this.gotoHandled event
    else if eventFailover event then { this with peerFailed := false }.qmpWait .secondaryWait
    else this.qmpWait .secondaryWait
  | .coloRunning =>
    if eventFailover event then this.goto .failoverSync
    else if eventAlwaysInterrupting event then this.gotoHandled event
    else if eventYellow event ∧ this.primary ∧ this.yellow ∧ !this.peerYellow then
      this.goto .failed
    else this
  | .primaryWait =>
    match event with
    | .startMigration => this.goto .primaryStartMigration
    | .failed => this.goto .failed
    | .quit => this.goto .quit
    | .autoquit => this.goto .autoquit
    | _ => this
  | .startMigration =>
    if eventFailover event then this.execute .migrateCancel else this.gotoHandled event
  | .failoverSync =>
    if event = .failoverWin then this.goto .failover
    else if eventAlwaysInterrupting event then this.gotoHandled event
    else this
  | .failed =>
    match event with
    | .peerFailover => { this with peerFailover := true }
    | .quit => this.goto .quit
    | .autoquit => if this.qemuQuit then { this with loopQuit := true } else this.goto .autoquit
    | _ => this
  | .autoquit =>
    match event with
    | .peerFailover => { this with peerFailover := true }
    | .quit => this.goto .quit
    | .failed => if this.qemuQuit then { this with loopQuit := true } else this
    | _ => this

/-- `colod_main_co` when `_colod_main_co` returns: another source of the coroutine that is still
attached makes `colod_assert_remove_one_source` abort. -/
def colodMainCoReturn (this : Daemon) : Daemon :=
  if this.loop.wakeSources = [] ∧ this.resumeSources = 0 then
    { this with loop := this.loop.yieldRemove, pc := .done }
  else this.abort

/-- `_colod_main_co` up to its loop. -/
def colodMainCoStart (this : Daemon) : Daemon :=
  (((this.send .hello).observe (.sent this.state .hello))).goto
    (if this.primary then .primaryStartup else .secondaryStartup)

/-- One iteration of the loop of `_colod_main_co`, up to the first program point of the state. -/
def colodMainCo (this : Daemon) (newState : MainState) : Daemon :=
  let this := { this with transitioning := false, state := newState }.observe (.entered newState)
  match newState with
  | .secondaryStartup => this.execute .secondaryStartup
  | .secondaryWait =>
    (this.setInterrupting [.failoverSync, .failoverWin, .yellow, .unyellow]).qmpWait .secondaryWait
  | .secondaryColoRunning | .primaryColoRunning =>
    let this := { this with replication := true }.setInterrupting [.failoverSync]
    if this.primary then this.qmpWait .running1 else this.continueAt (.eventWait .coloRunning)
  | .primaryStartup => this.goto .primaryWait
  | .primaryWait =>
    { this with primary := true, replication := false }.continueAt (.eventWait .primaryWait)
  | .primaryStartMigration =>
    (this.setInterrupting [.failoverSync]).execute .migrationCapabilities
  | .failoverSync =>
    ((this.send .failover).observe (.sent newState .failover)).continueAt (.eventWait .failoverSync)
  | .failover => (this.setInterrupting []).continueAt (.yank .channel)
  | .failedPeerFailover => { this with peerFailover := true }.goto .failed
  | .failed =>
    (qmpSetTimeoutLow (({ this with failed := true }.send .failed).observe
      (.sent newState .failed))).execute .stop
  | .quit => colodMainCoReturn this
  | .autoquit =>
    (({ this with failed := true }.send .failed).observe (.sent newState .failed)).continueAt
      (.eventWait .autoquit)

/-- One part of the running main coroutine; none while it is in a QMP exchange or has ended. -/
def mainRun (this : Daemon) : Option Daemon :=
  match this.pc with
  | .start => some (colodMainCoStart this)
  | .enter newState => some (colodMainCo this newState)
  | .eventWait site =>
    match colodEventWait this.loop with
    | (none, loop) => some { this with loop }
    | (some event, loop) =>
      some (eventWaitReturn ({ this with loop }.observe (.popped this.state event)) site event)
  | .qmpWait site fired => some (colodQmpEventWaitCo this site fired)
  | .grace => some (graceReturn this)
  | .array co => some (colodExecuteArrayCo this co)
  | .exec .. | .yank _ | .done | .aborted => none

end ColoDaemon
