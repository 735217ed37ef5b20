import ColoDaemon.StepCases
import ColoDaemon.QmpAnswers

/-!
# Health checks of a secondary

`Secondary` joins the daemon of a secondary to its QMP channels and to a qemu that waits for the
migration until it emits `RESUME` and runs in COLO from then on. Any number of coroutines call
`colod_check_health_co`, which asks for `query-status` and `query-colo-status` in two exchanges and
compares the answers with the flags of the main coroutine.
-/

namespace ColoDaemon

inductive HealthCommand
  | queryStatus
  | queryColoStatus
  | other
  deriving DecidableEq, Repr

/-- The members of an answer that `_qemu_query_status_co` looks at. -/
inductive QemuAnswer
  | status (status : String)
  | coloStatus (mode reason : String)
  | other
  deriving DecidableEq, Repr

abbrev HealthLine := QmpLine QmpEvent QemuAnswer
abbrev HealthQmp := ColodQmpState HealthCommand QmpEvent QemuAnswer

/-- `get_member_member_str` for `status`. -/
def QmpLine.status? : HealthLine → Option String
  | .answer _ (.status status) => some status
  | _ => none

/-- `get_member_member_str` for `mode` and `reason`. -/
def QmpLine.colo? : HealthLine → Option (String × String)
  | .answer _ (.coloStatus mode reason) => some (mode, reason)
  | _ => none

def qemuRunning (status : String) : Bool :=
  status = "running" || status = "finish-migrate" || status = "colo" || status = "prelaunch" ||
    status = "paused"

/-- `_qemu_query_status_co` on the two answers: the flags `primary` and `replication`. -/
def qemuQueryStatusCo (qemuStatus coloStatus : HealthLine) : Option (Bool × Bool) :=
  match qemuStatus.status?, coloStatus.colo? with
  | some status, some (mode, reason) =>
    if status = "inmigrate" ∨ status = "shutdown" then some (false, false)
    else if qemuRunning status ∧ mode = "none" ∧ (reason = "none" ∨ reason = "request") then
      some (true, false)
    else if qemuRunning status ∧ mode = "primary" then some (true, true)
    else if qemuRunning status ∧ mode = "secondary" then some (false, true)
    else none
  | _, _ => none

/-- `_colod_check_health_co` returns 0. -/
def Daemon.agrees (this : Daemon) (status : Option (Bool × Bool)) : Bool :=
  match status with
  | none => false
  | some (primary, replication) =>
    this.transitioning || (this.primary == primary && this.replication == replication)

/-- A call of `colod_check_health_co`, or another coroutine that executes a command. Between the two
exchanges the frame keeps the first answer. -/
inductive HealthCheck
  | queryStatus
  | queryColoStatus (qemuStatus : HealthLine)
  | other
  | returned (ok : Bool)
  deriving DecidableEq, Repr

/-- Check `i` runs in coroutine `.caller i`; `resumed` says that qemu has emitted `RESUME`. -/
structure Secondary where
  qmp : HealthQmp
  daemon : Daemon
  resumed : Bool
  checks : List HealthCheck

inductive SecondaryLabel
  | greet (c : ChannelName)
  | emit (c : ChannelName) (event : QmpEvent)
  | answer (c : ChannelName) (reason : String)
  | check
  | execute
  | run (co : QmpCo)
  | main (label : Label)
  deriving DecidableEq, Repr

/-- Events that queue nothing for the main coroutine of a secondary. -/
def QmpEvent.quiet : QmpEvent → Bool
  | .quorumReportBad _ _ => false
  | .coloExit _ => false
  | _ => true

/-- No command of a secondary in this state is answered by an error. -/
def healthDialect : QmpDialect HealthCommand QmpEvent QemuAnswer where
  qmpCapabilities := .other
  queryYank := .other
  yank _ := .other
  isError _ := false

def qemuAnswer (resumed : Bool) (reason : String) : HealthCommand → QemuAnswer
  | .queryStatus => .status (if resumed then "running" else "inmigrate")
  | .queryColoStatus => .coloStatus (if resumed then "secondary" else "none") reason
  | .other => .other

namespace Secondary
variable (this : Secondary)

/-- The callbacks of the events that a step of the channels passes on. -/
def hears (qmp : HealthQmp) : Option Daemon :=
  (qmp.notified.drop this.qmp.notified.length).foldlM
    (fun daemon event => ColoDaemon.step daemon (.qmpEvent event)) this.daemon

/-- An exchange of the check returns `line`; the next one starts in the same dispatch. -/
def checkReturned (i : ℕ) (line : HealthLine) : Option Secondary :=
  match this.checks[i]? with
  | some .queryStatus =>
    (ColoDaemon.step this.daemon (.executeDone (some .result))).bind fun daemon =>
      (qmpStep healthDialect this.qmp (.execute i .queryColoStatus)).map fun qmp =>
        { this with qmp, daemon, checks := this.checks.set i (.queryColoStatus line) }
  | some (.queryColoStatus qemuStatus) =>
    let status := qemuQueryStatusCo qemuStatus line
    (ColoDaemon.step this.daemon (.executeDone (some .result))).bind fun daemon =>
      (ColoDaemon.step daemon (.healthDone status)).map fun next =>
        { this with daemon := next, checks := this.checks.set i (.returned (daemon.agrees status)) }
  | some .other => some { this with checks := this.checks.set i (.returned true) }
  | _ => none

/-- What a coroutine of the channels does with the line that its exchange returned, if any. -/
def continues (co : QmpCo) (returned : Option (QmpReturn QmpEvent QemuAnswer)) :
    Option Secondary :=
  match co, returned with
  | .caller i, some r => this.checkReturned i r.line
  | _, _ => some this

def step : SecondaryLabel → Option Secondary
  | .greet c => (qmpStep healthDialect this.qmp (.greet c)).map fun qmp => { this with qmp }
  | .emit c event =>
    if c = .channel ∧ event.quiet = false then none
    else
      (qmpStep healthDialect this.qmp (.emit c event)).map fun qmp =>
        { this with qmp, resumed := this.resumed || (c = .channel && event = .resume) }
  | .answer c reason =>
    ((this.qmp.channel c).written[(this.qmp.channel c).answered]?).bind fun w =>
      (qmpStep healthDialect this.qmp (.answer c (qemuAnswer this.resumed reason w.2))).map
        fun qmp => { this with qmp }
  | .check =>
    (qmpStep healthDialect this.qmp (.execute this.checks.length .queryStatus)).map fun qmp =>
      { this with qmp, checks := this.checks ++ [.queryStatus] }
  | .execute =>
    (qmpStep healthDialect this.qmp (.execute this.checks.length .other)).map fun qmp =>
      { this with qmp, checks := this.checks ++ [.other] }
  | .run co =>
    if this.daemon.running then none
    else
      (qmpStep healthDialect this.qmp (.run co)).bind fun qmp =>
        (this.hears qmp).bind fun daemon =>
          { this with qmp, daemon }.continues co qmp.returned[this.qmp.returned.length]?
  | .main label =>
    match label with
    | .dispatch source =>
      (ColoDaemon.step this.daemon (.dispatch source)).map fun daemon => { this with daemon }
    | .run => (ColoDaemon.step this.daemon .run).map fun daemon => { this with daemon }
    | _ => none

/-- The two answers that check `i` compares when it is resumed. -/
def comparing (i : ℕ) : Option (HealthLine × HealthLine) :=
  match this.checks[i]?, this.qmp.task (.caller i), (this.qmp.channel .channel).unread with
  | some (.queryColoStatus qemuStatus), .executing _ (.read _), line :: _ =>
    if line.awaited?.isSome then some (qemuStatus, line) else none
  | _, _, _ => none

/-- `RESUME` has been passed on and the main coroutine is not yet resumed by it. -/
def pending : Bool := this.daemon.pc = .qmpWait .secondaryWait true

/-- A check that learns that qemu runs in COLO was answered `inmigrate` before exactly if the main
coroutine has not moved on. -/
def coherent (qemuStatus coloStatus : HealthLine) : Bool :=
  coloStatus.colo?.map Prod.fst ≠ some "secondary" ||
    (qemuStatus.status? = some "inmigrate") == this.pending

/-- The answers of a check that compares in this step are coherent. -/
def Timely : SecondaryLabel → Bool
  | .run (.caller i) => (this.comparing i).all fun answers => this.coherent answers.1 answers.2
  | _ => true

end Secondary

/-- The main coroutine waits for `RESUME` in `STATE_SECONDARY_WAIT`, with no event queued. -/
structure Daemon.Waits (s : Daemon) : Prop where
  pc : s.pc = .qmpWait .secondaryWait false
  state : s.state = .secondaryWait
  current : s.loop.current = none
  sequence : s.loop.queue.sequence = []
  wakeSources : s.loop.wakeSources = []
  resumeSources : s.resumeSources = 0
  primary : s.primary = false
  replication : s.replication = false
  transitioning : s.transitioning = false
  qmpError : s.qmpError = false
  didYank : s.didYank = false

structure Secondary.Waits (this : Secondary) : Prop where
  qmp : this.qmp = .qmpNew
  daemon : this.daemon.Waits
  resumed : this.resumed = false
  checks : this.checks = []

end ColoDaemon
