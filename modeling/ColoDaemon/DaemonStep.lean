import ColoDaemon.MainCoroutine

/-!
# The steps of one daemon

A step is one callback of the main loop or one part of the running main coroutine. The main loop
is single threaded: callbacks run only while the main coroutine is suspended, except for the event
lines that the coroutine itself reads inside a QMP exchange. Which source the main loop dispatches
next, the outcome of every QMP exchange, the messages, the link and qemu events and the client
requests are all chosen by the label.
-/

namespace ColoDaemon

inductive MigrationStatus
  | failed
  | preSwitchover
  | colo
  | other (name : String)
  deriving DecidableEq, Repr

inductive QuorumOpType
  | read
  | write
  | flush
  deriving DecidableEq, Repr

/-- The qemu events the daemon looks at. -/
inductive QmpEvent
  | stop
  | resume
  | reset
  | migration (status : MigrationStatus)
  | coloExit (reason : String)
  | quorumReportBad (nodeName : String) (type : QuorumOpType)
  | other (name : String)
  deriving DecidableEq, Repr

/-- One step of the QMP layer below `colod_execute_co` or `qmp_yank_co`. -/
inductive IoStep
  | suspend (inner : InnerWait)
  | write
  | event (event : QmpEvent)
  | yanked
  | reply (reply : Option QmpReply)
  | yankReply (reply : YankReply)
  deriving DecidableEq, Repr

/-- The client requests with an effect on the state; `busy` are those that run a QMP exchange
other than `stop` and `cont`. -/
inductive ClientRequest
  | startMigration
  | autoquit
  | quit
  | setCommands (table : CommandTable) (commands : List String)
  | setPeer (peer : String)
  | clearPeer
  | stop
  | cont
  | busy
  deriving DecidableEq, Repr

inductive Label
  | dispatch (source : Source)
  | run
  | io (step : IoStep)
  | cpgDeliver (message : ColodMessage) (messageFromThisNode : Bool)
  | cpgLeft
  | cpgRetransmit
  | qmpEvent (event : QmpEvent)
  | qmpHup
  | qmpError
  | link (ifname : String) (up : Bool)
  | yellowTimer
  | raiseDispatch
  | executeDone (reply : Option QmpReply)
  | nestedYank
  | yankDone (reply : YankReply)
  | healthDone (status : Option (Bool × Bool))
  | clientNew
  | clientRequest (client : ℕ) (request : ClientRequest)
  | clientWrite (client : ℕ)
  | clientDone (client : ℕ) (reply : Option QmpReply)
  | clientError (client : ℕ)
  | teardown
  deriving DecidableEq, Repr

/-- The event that `colod_qmp_event_wait_co` matches. -/
def QmpWaitSite.matches : QmpWaitSite → QmpEvent → Bool
  | .preSwitchover, event => event = .migration .preSwitchover
  | .colo, event => event = .migration .colo
  | _, event => event = .resume

def ExecSite.command : ExecSite → QmpCommand
  | .secondaryStartup => .migrateSetCapabilities false
  | .migrationCapabilities => .migrateSetCapabilities true
  | .migrateContinue => .migrateContinue
  | .migrateCancel => .migrateCancel
  | .stop => .stop
  | .element _ line => .element line

/-! ### Callbacks of the main coroutine -/

def colodYellowEventCb (this : Daemon) (event : ColodEvent) : Daemon :=
  if event = .yellow then { this with yellow := true }.queueEvent .yellow
  else { this with yellow := false }.queueEvent .unyellow

/-- Carries out what a resumption of the debouncer did. `notified` says that the main coroutine's
callback is still registered. -/
def yellowActions (notified : Bool) (this : Daemon) (actions : List YellowAction) : Daemon :=
  actions.foldl (fun this action =>
    match action with
    | .send message => this.send message
    | .notify event => if notified then colodYellowEventCb this event else this) this

def colodQmpEventCb (this : Daemon) : QmpEvent → Daemon
  | .quorumReportBad nodeName type =>
    if nodeName = "nbd0" then
      if type ≠ .read then this.queueEvent .failoverSync else this
    else if type = .read then this
    else
      let this := { this with yellow := true }.send .yellow
      let (yellowCo, actions) := yellowShutdown this.yellowCo
      (yellowActions true { this with yellowCo } actions).queueEvent .yellow
  | .migration status =>
    if status = .failed ∧ this.state = .primaryStartMigration then this.queueEvent .failoverSync
    else this
  | .coloExit reason => if reason = "error" then this.queueEvent .failoverSync else this
  | .reset => colodRaiseTimeoutCoroutine this
  | _ => this

/-- `qmp_wait_event_cb` of the wait of the main coroutine. It schedules the resumption and is
unregistered. -/
def mainWaitEventCb (this : Daemon) (event : QmpEvent) : Daemon :=
  match this.pc with
  | .qmpWait site false =>
    if site.matches event then
      { this with pc := .qmpWait site true, resumeSources := this.resumeSources + 1 }
    else this
  | _ => this

/-- `qmp_wait_event_cb` of the wait of the raise coroutine. -/
def raiseWaitEventCb (this : Daemon) (event : QmpEvent) : Daemon :=
  match this.raise, event with
  | some (.waitStop _), .stop => { this with raise := some (.waitStop true) }
  | some (.waitResume _), .resume => { this with raise := some (.waitResume true) }
  | _, _ => this

/-- `notify_event`: the callbacks registered last come first. -/
def notifyEvent (this : Daemon) (event : QmpEvent) : Daemon :=
  let this := raiseWaitEventCb (mainWaitEventCb this event) event
  if this.freed then this else colodQmpEventCb this event

def colodCpgEventCb (this : Daemon) (message : ColodMessage) (messageFromThisNode : Bool)
    (peerLeftGroup : Bool) : Daemon :=
  if peerLeftGroup then { this with peerFailed := true }.queueEvent .failoverSync
  else
    match message, messageFromThisNode with
    | .failover, true => this.queueEvent .failoverWin
    | .failover, false => this.queueEvent .peerFailover
    | .failed, false => { this with peerFailed := true }.queueEvent .failoverSync
    | .hello, _ => if this.yellow then this.send .yellow else this
    | .yellow, false => { this with peerYellow := true }.queueEvent .yellow
    | .unyellow, false => { this with peerYellow := false }.queueEvent .yellow
    | _, _ => this

def colodHupCb (this : Daemon) : Daemon := { this with qemuQuit := true }.queueEvent .failed

/-! ### Other coroutines -/

/-- `colod_raise_timeout_co`; a wait that has not fired is resumed only by
`colod_raise_timeout_coroutine_free`, and ends the coroutine. -/
def colodRaiseTimeoutCo (this : Daemon) : Daemon :=
  match this.raise with
  | some .start => { this with raise := some (.waitStop false) }
  | some (.waitStop true) => { this with raise := some (.waitResume false) }
  | some _ => qmpSetTimeoutLow { this with raise := none }
  | none => this

def RaisePc.resumable : RaisePc → Bool
  | .start => true
  | .waitStop fired | .waitResume fired => fired

/-- `_colod_yank_co` of a client after the yank. -/
def colodYankCo (this : Daemon) : YankReply → Daemon
  | .result => { this with didYank := false }.queueEvent .failoverSync
  | .error => this.queueEvent .failed
  | .failed => { this with qmpError := true }.queueEvent .failed

/-- `_colod_check_health_co` with the parsed answers of qemu, none if they make no sense. -/
def colodCheckHealthCo (this : Daemon) (status : Option (Bool × Bool)) : Daemon :=
  match status with
  | none => this.queueEvent .failed
  | some (primary, replication) =>
    if !this.transitioning ∧ (this.primary ≠ primary ∨ this.replication ≠ replication) then
      this.queueEvent .failed
    else this

/-! ### Clients -/

namespace Daemon

def setClient (this : Daemon) (i : ℕ) (client : Client) : Daemon :=
  { this with clients := this.clients.set i client }

/-- `qmp_commands_set_*`: the table held the only reference to the array it releases. -/
def setCommands (this : Daemon) (table : CommandTable) (commands : List String) : Daemon :=
  let release := fun co : ArrayFrame =>
    if co.table = table then { co with dangling := true } else co
  { this with
    commands := Function.update this.commands table commands
    pc :=
      match this.pc with
      | .array co => .array (release co)
      | .exec (.element co line) written inner => .exec (.element (release co) line) written inner
      | pc => pc }

end Daemon

def colodStartMigration (this : Daemon) : Daemon :=
  if this.state ≠ .primaryWait then this else this.queueEvent .startMigration

def colodSetPeer (this : Daemon) (peer : String) : Daemon :=
  { this with peer, peerFailed := false, peerYellow := false }

/-- One request line in `_colod_client_co`, up to the QMP exchange it starts. -/
def clientRequest (this : Daemon) (i : ℕ) (client : Client) : ClientRequest → Daemon
  | .startMigration => colodStartMigration this
  | .autoquit => this.queueEvent .autoquit
  | .quit => { this with loopQuit := true }
  | .setCommands table commands => this.setCommands table commands
  | .setPeer peer => colodSetPeer this peer
  | .clearPeer => colodClearPeer this
  | .stop => this.setClient i { client with pc := .stopping false }
  | .cont => this.setClient i { client with pc := .continuing false }
  | .busy => this.setClient i { client with pc := .busy }

/-- A client's command is written to the QMP channel. -/
def clientWrite (this : Daemon) (i : ℕ) (client : Client) : Option Daemon :=
  match client.pc with
  | .stopping false => some (this.setClient i { client with pc := .stopping true })
  | .continuing false => some (this.setClient i { client with pc := .continuing true })
  | .closing false =>
    some ((this.setClient i { client with pc := .closing true }).observe (.cont i))
  | _ => none

/-- `_handle_stop_co`, `_handle_cont_co` and the label `error_client` after `colod_execute_co`. -/
def clientDone (this : Daemon) (i : ℕ) (client : Client) (reply : Option QmpReply) :
    Option Daemon :=
  let (result, executed) := colodExecuteCo this reply
  match client.pc, result with
  | .stopping written, .ok () =>
    if written then some (executed.setClient i { stoppedQemu := true, pc := .reading }) else none
  | .continuing written, .ok () =>
    if written then some (executed.setClient i { stoppedQemu := false, pc := .reading }) else none
  | .closing written, .ok () =>
    if written then some (executed.setClient i { client with pc := .gone }) else none
  | .stopping _, .error _ | .continuing _, .error _ =>
    some (executed.setClient i { client with pc := .reading })
  | .closing _, .error _ =>
    some ((executed.queueEvent .failed).setClient i { client with pc := .gone })
  | .busy, _ => some (this.setClient i { client with pc := .reading })
  | _, _ => none

/-- The label `error_client` up to the exchange. -/
def clientError (this : Daemon) (i : ℕ) (client : Client) : Daemon :=
  this.setClient i { client with pc := if client.stoppedQemu then .closing false else .gone }

/-! ### The main loop -/

def InnerWait.leftOver : InnerWait → ℕ
  | .channel => 0
  | _ => 1

/-- The number of plain idle sources a suspended coroutine leaves behind when another source
resumes it. -/
def Pc.leftOver : Pc → ℕ
  | .start => 1
  | .exec _ _ inner | .yank inner => inner.leftOver
  | _ => 0

namespace Daemon

def resumeWith (this : Daemon) (source : Source) : Daemon :=
  { this with loop := { this.loop with current := some source } }

def dispatch (this : Daemon) (source : Source) : Option Daemon :=
  match source with
  | .start => if this.pc = .start then some (this.resumeWith source) else none
  | .wake id =>
    if id ∈ this.loop.wakeSources then
      some ({ this with
        loop := { this.loop with wakeSources := this.loop.wakeSources.erase id }
        resumeSources := this.resumeSources + this.pc.leftOver }.resumeWith source)
    else none
  | .resume =>
    if this.resumeSources = 0 then none
    else some ({ this with
      resumeSources := this.resumeSources - 1 + this.pc.leftOver }.resumeWith source)
  | .timeout =>
    match this.pc with
    | .qmpWait site _ => if site.hasTimeout then some (this.resumeWith source) else none
    | _ => none
  | .grace => if this.pc = .grace then some (this.resumeWith source) else none
  | .io =>
    match this.pc with
    | .exec .. | .yank _ => some (this.resumeWith source)
    | _ => none

/-- One step of the QMP exchange of the running main coroutine. -/
def io (this : Daemon) (step : IoStep) : Option Daemon :=
  match this.pc, step with
  | .exec site written _, .suspend inner => some (this.suspendAt (.exec site written inner))
  | .exec site false inner, .write =>
    some ((this.observe (.command this.state site.command)).continueAt (.exec site true inner))
  | .exec site true _, .event event =>
    some ((notifyEvent this event).suspendAt (.exec site true .idle))
  | .exec _ true _, .yanked => some { this with didYank := true }
  | .exec site written _, .reply reply =>
    if reply.isSome ∧ !written then none
    else
      let (result, this) := colodExecuteCo this reply
      some (execReturn this site result)
  | .yank _, .suspend inner => some (this.suspendAt (.yank inner))
  | .yank _, .yankReply reply => some (yankReturn this reply)
  | _, _ => none

/-- `colod_main_free` up to the loop that waits for the main coroutine. -/
def teardown (this : Daemon) : Daemon :=
  let this := this.queueEvent .quit
  let (yellowCo, actions) := yellowShutdown this.yellowCo
  { yellowActions false { this with yellowCo } actions with freed := true }

/-- A callback of the main loop other than a source of the main coroutine. -/
def callback (this : Daemon) : Label → Option Daemon
  | .cpgDeliver message own =>
    let this := { this with cpg := colodCpgDeliver this.cpg message own }
    some (if this.freed then this else colodCpgEventCb this message own false)
  | .cpgLeft =>
    let this := { this with cpg := (colodCpgRetransmit this.cpg).2 }
    some (if this.freed then this else colodCpgEventCb this .none false true)
  | .cpgRetransmit =>
    if this.cpg.retransmitSource then some { this with cpg := colodCpgRetransmitCb this.cpg }
    else none
  | .qmpEvent event => some (notifyEvent this event)
  | .qmpHup => if this.freed ∨ this.qemuQuit then none else some (colodHupCb this)
  | .qmpError => some { this with qmpError := true }
  | .link ifname up =>
    let (yellowCo, actions) :=
      yellowNetlinkEventCb this.yellowCo this.ctx.monitorInterface ifname up
    some (yellowActions true { this with yellowCo } actions)
  | .yellowTimer =>
    if this.yellowCo.timers = 0 then none
    else
      let (yellowCo, actions) := ColoDaemon.yellowCo this.yellowCo
      some (yellowActions true { this with yellowCo } actions)
  | .raiseDispatch =>
    match this.raise with
    | some pc => if pc.resumable ∨ this.freed then some (colodRaiseTimeoutCo this) else none
    | none => none
  | .executeDone reply => some (colodExecuteNocheckCo this reply).2
  | .nestedYank => some { this with didYank := true }
  | .yankDone reply => some (colodYankCo this reply)
  | .healthDone status => some (colodCheckHealthCo this status)
  | .clientNew => some { this with clients := this.clients ++ [⟨false, .reading⟩] }
  | .clientRequest i request =>
    match this.clients[i]? with
    | some client =>
      if client.pc = .reading then some (ColoDaemon.clientRequest this i client request) else none
    | none => none
  | .clientWrite i => this.clients[i]?.bind (ColoDaemon.clientWrite this i)
  | .clientDone i reply => this.clients[i]?.bind (ColoDaemon.clientDone this i · reply)
  | .clientError i =>
    match this.clients[i]? with
    | some client =>
      if client.pc = .reading then some (ColoDaemon.clientError this i client) else none
    | none => none
  | .teardown => if this.loopQuit ∧ !this.freed then some this.teardown else none
  | .dispatch _ | .run | .io _ => none

end Daemon

/-- One step of the daemon. After the main coroutine has ended or an assertion failed there is
none. -/
def step (this : Daemon) (label : Label) : Option Daemon :=
  if this.pc = .done ∨ this.pc = .aborted ∨ this.yellowCo.aborted then none
  else if this.running then
    match label with
    | .run => mainRun this
    | .io step => this.io step
    | _ => none
  else
    match label with
    | .dispatch source => this.dispatch source
    | label => this.callback label

/-! ### Schedules with which concrete runs begin -/

namespace Schedule

def context : ColodContext where
  primaryStartup := false
  qmpTimeoutLow := 600
  qmpTimeoutHigh := 10000
  monitorInterface := some "eth0"

/-- A command of the main coroutine that succeeds. -/
def exchange : List Label :=
  [.io (.suspend .channel), .dispatch .io, .io .write, .io (.suspend .channel), .dispatch .io,
    .io (.reply (some .result))]

def secondaryWait : List Label := [.dispatch .start, .run, .run] ++ exchange ++ [.run]

def coloRunning : List Label := secondaryWait ++ [.qmpEvent .resume, .dispatch .resume, .run, .run, .run]

/-- The peer leaves the group and the secondary sends its failover message. -/
def failoverSync : List Label := coloRunning ++ [.cpgLeft, .dispatch (.wake 1), .run, .run, .run]

end Schedule
end ColoDaemon
