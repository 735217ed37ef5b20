import ColoDaemon.EventLoop
import ColoDaemon.YellowCoroutine

/-!
# The state of one daemon

`Daemon` joins the fields of `ColodMainCoroutine` with the parts of the other subsystems that it
shares: the event loop, the group messages, the sticky QMP error and `did_yank`, the QMP timeout
and the coroutine that lowers it again, the link debouncer, the command tables and the clients.
The hand-rolled main coroutine is a program counter `Pc`: its program points are the heads of the
loops and the calls at which it can suspend. It is running when `loop.current` is set. `trace`
records, oldest first, what the main coroutine does and the commands the clients leave behind.
-/

namespace ColoDaemon

inductive MainState
  | secondaryStartup
  | secondaryWait
  | secondaryColoRunning
  | primaryStartup
  | primaryWait
  | primaryStartMigration
  | primaryColoRunning
  | failoverSync
  | failover
  | failedPeerFailover
  | failed
  | quit
  | autoquit
  deriving DecidableEq, Repr

/-- The members of `QmpCommands`. -/
inductive CommandTable
  | migrationStart
  | migrationSwitchover
  | failoverPrimary
  | failoverSecondary
  deriving DecidableEq, Repr

/-- The QMP commands the daemon sends. An array element is its text as printed by
`json_to_string`. -/
inductive QmpCommand
  | migrateSetCapabilities (pauseBeforeSwitchover : Bool)
  | migrateContinue
  | migrateCancel
  | stop
  | cont
  | element (text : String)
  deriving DecidableEq, Repr

/-- The calls of `colod_event_wait`. -/
inductive EventWaitSite
  | secondaryWait
  | coloRunning
  | primaryWait
  | startMigration
  | failoverSync
  | failed
  | autoquit
  deriving DecidableEq, Repr

/-- The calls of `colod_qmp_event_wait_co`; `STATE_PRIMARY_COLO_RUNNING` makes two. -/
inductive QmpWaitSite
  | secondaryWait
  | preSwitchover
  | colo
  | running1
  | running2
  deriving DecidableEq, Repr

/-- The frame of `_colod_execute_array_co`. The array is borrowed from a command table; `dangling`
says that the table has since released it. -/
structure ArrayFrame where
  table : CommandTable
  array : List String
  i : ℕ
  dangling : Bool
  deriving DecidableEq, Repr

/-- The calls of `colod_execute_co` and `colod_stop_co` by the main coroutine. -/
inductive ExecSite
  | secondaryStartup
  | migrationCapabilities
  | migrateContinue
  | migrateCancel
  | stop
  | element (co : ArrayFrame) (line : String)
  deriving DecidableEq, Repr

/-- Where a QMP exchange is suspended: on a channel lock, in a channel read or write, or in the
idle yield after an event line. -/
inductive InnerWait
  | lock
  | channel
  | idle
  deriving DecidableEq, Repr

inductive Pc
  | start
  | enter (newState : MainState)
  | eventWait (site : EventWaitSite)
  | qmpWait (site : QmpWaitSite) (fired : Bool)
  | grace
  | array (co : ArrayFrame)
  | exec (site : ExecSite) (written : Bool) (inner : InnerWait)
  | yank (inner : InnerWait)
  | done
  | aborted
  deriving DecidableEq, Repr

/-- The suspension points of `_colod_raise_timeout_co`. -/
inductive RaisePc
  | start
  | waitStop (fired : Bool)
  | waitResume (fired : Bool)
  deriving DecidableEq, Repr

inductive ClientPc
  | reading
  | stopping (written : Bool)
  | continuing (written : Bool)
  | busy
  | closing (written : Bool)
  | gone
  deriving DecidableEq, Repr

structure Client where
  stoppedQemu : Bool
  pc : ClientPc
  deriving DecidableEq, Repr

structure ColodContext where
  primaryStartup : Bool
  qmpTimeoutLow : ℕ
  qmpTimeoutHigh : ℕ
  monitorInterface : Option String

inductive Obs
  | entered (state : MainState)
  | popped (state : MainState) (event : ColodEvent)
  | sent (state : MainState) (message : ColodMessage)
  | resumed
  | yanked
  | began (table : CommandTable) (array : List String)
  | command (state : MainState) (command : QmpCommand)
  | cont (client : ℕ)
  deriving DecidableEq, Repr

structure Daemon where
  ctx : ColodContext
  loop : EventLoop
  resumeSources : ℕ
  pc : Pc
  state : MainState
  transitioning : Bool
  failed : Bool
  peerFailed : Bool
  yellow : Bool
  peerYellow : Bool
  qemuQuit : Bool
  peerFailover : Bool
  primary : Bool
  replication : Bool
  peer : String
  cpg : Cpg
  qmpError : Bool
  didYank : Bool
  timeout : ℕ
  raise : Option RaisePc
  yellowCo : YellowCoroutine
  commands : CommandTable → List String
  clients : List Client
  loopQuit : Bool
  freed : Bool
  trace : List Obs

def colodEventqueueNew : EventQueue :=
  eventqueueNew 32 [.failed, .peerFailover, .quit, .autoquit]

/-- The state after `daemon_mainloop` has created everything and before its main loop runs. -/
def Daemon.init (ctx : ColodContext) : Daemon where
  ctx := ctx
  loop :=
    { queue := colodEventqueueNew
      wakeSourceId := 0
      wakeSources := []
      nextId := 1
      current := none
      lost := [] }
  resumeSources := 0
  pc := .start
  state := .secondaryStartup
  transitioning := false
  failed := false
  peerFailed := false
  yellow := false
  peerYellow := false
  qemuQuit := false
  peerFailover := false
  primary := ctx.primaryStartup
  replication := false
  peer := ""
  cpg := .new
  qmpError := false
  didYank := false
  timeout := ctx.qmpTimeoutLow
  raise := none
  yellowCo := .new
  commands _ := []
  clients := []
  loopQuit := false
  freed := false
  trace := []

namespace Daemon

def queueEvent (this : Daemon) (event : ColodEvent) : Daemon :=
  { this with loop := colodEventQueue this.loop event }

def send (this : Daemon) (message : ColodMessage) : Daemon :=
  { this with cpg := colodCpgSend this.cpg message }

def observe (this : Daemon) (obs : Obs) : Daemon :=
  { this with trace := this.trace ++ [obs] }

def goto (this : Daemon) (newState : MainState) : Daemon :=
  { this with pc := .enter newState }

def continueAt (this : Daemon) (pc : Pc) : Daemon := { this with pc }

def setInterrupting (this : Daemon) (events : List ColodEvent) : Daemon :=
  { this with loop := this.loop.setInterrupting events }

/-- The main coroutine returns to the main loop and stays suspended at `pc`. -/
def suspendAt (this : Daemon) (pc : Pc) : Daemon :=
  { this with loop := this.loop.yieldRemove, pc }

def pendingInterrupt (this : Daemon) : Bool := eventqueuePendingInterrupt this.loop.queue

def running (this : Daemon) : Bool := this.loop.current.isSome

end Daemon
end ColoDaemon
