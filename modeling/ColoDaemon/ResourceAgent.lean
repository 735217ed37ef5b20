import ColoDaemon.Script
import ColoDaemon.Runs
import Mathlib.Data.List.Basic
import Mathlib.Logic.Function.Basic

/-!
# The resource agent

The actions of the resource agent `colo` as scripts of external calls: QMP commands through the
helper socket, the Pacemaker tools and looks at the pid files. Pacemaker runs one action at a time;
every call may raise an exception, with or without having had its effect, which aborts the action.
`Cluster` is what the calls of the agent on one host act on.
-/

namespace ColoDaemon
open Script

inductive OcfCode
  | success
  | errGeneric
  | errConfigured
  | notRunning
  | runningMaster
  deriving DecidableEq, Repr

/-- The answer to `exec-colod: query-status`. -/
structure AgentStatus where
  primary : Bool
  replication : Bool
  failed : Bool
  peerFailed : Bool
  deriving DecidableEq, Repr

/-- The block job `resync` in the answer to `query-block-jobs`. -/
structure ResyncJob where
  error : Bool
  ready : Bool
  concluded : Bool
  deriving DecidableEq, Repr

inductive Pidfile
  | qemu
  | colod
  deriving DecidableEq, Repr

inductive AgentQmp
  | queryStatus
  | queryStore
  | setStore (pretendSecondary : Bool)
  | queryPeer
  | setPeer (peer : String)
  | clearPeer
  | blockdevAdd (peer : String)
  | blockdevMirror
  | queryBlockJobs
  | blockJobCancel (force : Bool)
  | blockJobDismiss
  | blockdevDel
  | qemuQueryStatus
  | other (command : String)
  deriving DecidableEq, Repr

@[reducible] def AgentQmp.Return : AgentQmp → Type
  | .queryStatus => AgentStatus
  | .queryStore => Bool
  | .queryPeer => String
  | .queryBlockJobs => Option ResyncJob
  | .qemuQueryStatus => String
  | _ => Unit

inductive AgentCall
  | connect
  | qmp (command : AgentQmp)
  | crmMaster (score : ℕ)
  | crmMasterRemote (remote : String) (score : ℕ)
  | crmMasterGet
  | crmResourceFail (remote : String)
  | runQemuPrimary
  | runColodPrimary
  | pidRunning (file : Pidfile)
  | kill
  deriving DecidableEq, Repr

/-- The answer to a QMP command is its value, or an error of some class. -/
@[reducible] def AgentCall.Answer : AgentCall → Type
  | .qmp command => Except String command.Return
  | .crmMasterGet => ℕ
  | .pidRunning _ => Bool
  | _ => Unit

abbrev Agent := Script AgentCall AgentCall.Answer

/-- The environment of an action. The variables with host names are split at blanks. `polls` and
`patience` bound the loops that wait for a block job or a process: `polls` those that give up at a
deadline, `patience` those that only end when Pacemaker kills the action. -/
structure AgentEnv where
  hostname : String
  interval : Bool
  configOk : Bool
  notifyType : String
  notifyOperation : String
  notifyKeyOperation : String
  startUname : List String
  stopUname : List String
  slaveUname : List String
  activeUname : List String
  polls : ℕ
  patience : ℕ

/-- `str.strip` on a variable that is split at blanks. -/
def strip (uname : List String) : String :=
  match ((uname.dropWhile (· = "")).reverse.dropWhile (· = "")).reverse with
  | [] => ""
  | [host] => host
  | hosts => String.intercalate " " hosts

/-! ### Calls -/

def agentCall (c : AgentCall) : Agent c.Answer := perform c

/-- `qmp_execute` with one command. -/
def agentExecute (command : AgentQmp) : Agent command.Return := do
  match ← agentCall (.qmp command) with
  | Except.ok answer => pure answer
  | Except.error _ => raised

/-- `qmp_execute` with `ignore_error`. -/
def agentExecuteIgnoring (command : AgentQmp) : Agent (Except String command.Return) :=
  agentCall (.qmp command)

def agentExecuteAll : List AgentQmp → Agent Unit
  | [] => pure ()
  | command :: commands => do
    let _ ← agentExecute command
    agentExecuteAll commands

def qmpOpen : Agent Unit := agentCall .connect

def setMasterScore (score : ℕ) : Agent Unit := agentCall (.crmMaster score)

def setRemoteMasterScore (remote : String) (score : ℕ) : Agent Unit :=
  agentCall (.crmMasterRemote remote score)

def getMasterScore : Agent ℕ := agentCall .crmMasterGet

def reportRemoteFailure (remote : String) : Agent Unit := do
  let _ ← attempt (agentCall (.crmResourceFail remote))
  pure ()

def pidRunning (file : Pidfile) : Agent Bool := agentCall (.pidRunning file)

def checkRunningPid : Agent Bool := do
  if ← pidRunning .qemu then pure true else pidRunning .colod

/-! ### The resync -/

def qmpCheckResync : Agent (Option ResyncJob) := agentExecute .queryBlockJobs

/-- `qmp_check_resync(fd)["status"]`; indexing `None` raises. -/
def resyncConcluded : Agent Bool := do
  match ← qmpCheckResync with
  | some job => pure job.concluded
  | none => raised

def qmpStartResync (peer : String) : Agent Unit := do
  match ← agentExecuteIgnoring (.blockdevAdd peer) with
  | .error _ => reportRemoteFailure peer
  | .ok _ => agentExecute .blockdevMirror

/-- The loop of `qmp_cancel_resync` with a deadline: whether the job concluded before it. -/
def waitConcluded : ℕ → Agent Bool
  | 0 => pure false
  | polls + 1 => do
    if ← resyncConcluded then pure true else waitConcluded polls

def awaitConcluded : ℕ → Agent Unit
  | 0 => raised
  | patience + 1 => do
    if ← resyncConcluded then pure () else awaitConcluded patience

def qmpCancelResync (env : AgentEnv) : Agent Unit := do
  if ← resyncConcluded then agentExecuteAll [.blockJobDismiss, .blockdevDel]
  else
    let _ ← agentExecuteIgnoring (.blockJobCancel true)
    if ← waitConcluded env.polls then agentExecuteAll [.blockJobDismiss, .blockdevDel]
    else
      agentExecuteAll [.other "yank"]
      awaitConcluded env.patience
      agentExecuteAll [.blockJobDismiss, .blockdevDel]

/-- `qmp_start_migration` after the look for the filter rewriter, which only selects what
`set-migration-start` installs. -/
def qmpMigrate (env : AgentEnv) : Agent Unit := do
  agentExecuteAll [.other "stop", .blockJobCancel false]
  awaitConcluded env.patience
  agentExecuteAll [.blockJobDismiss, .other "x-blockdev-change", .other "cont",
    .other "migrate-set-capabilities", .other "migrate-set-capabilities",
    .other "migrate-set-parameters", .other "set-migration-start", .other "start-migration"]

def qmpStartMigration (env : AgentEnv) : Agent Unit := do
  match ← agentExecuteIgnoring (.other "qom-list") with
  | .ok _ => qmpMigrate env
  | .error errorClass => if errorClass = "DeviceNotFound" then qmpMigrate env else raised

/-! ### Peers -/

def qmpUpdateStore (pretendSecondary : Bool) : Agent Unit := do
  let _ ← agentExecute .queryStore
  agentExecute (.setStore pretendSecondary)

def newPeer (peer : String) : Agent Unit := do
  let current ← agentExecute .queryPeer
  if current ≠ "" then pure ()
  else
    qmpStartResync peer
    agentExecuteAll [.setPeer peer]
    -- The secondary has inconsistent data until resync is finished
    setRemoteMasterScore peer 0

def delPeer (env : AgentEnv) : Agent Unit := do
  if (← qmpCheckResync).isSome then
    qmpCancelResync env
    agentExecuteAll [.clearPeer]
  else agentExecuteAll [.clearPeer]

def envDoShutdownGuest (env : AgentEnv) : Bool :=
  env.activeUname ≠ [""] && env.stopUname ≠ [""] && strip env.activeUname = strip env.stopUname

def envFindSecondary (env : AgentEnv) : Option String :=
  (env.slaveUname.find? fun host =>
    host ≠ "" && !env.stopUname.contains host && host ≠ env.hostname) <|>
  env.startUname.find? fun host => host ≠ env.hostname

/-! ### Stopping qemu -/

/-- Waits for a process to end; whether it did before the deadline. -/
def waitStopped (file : Pidfile) : ℕ → Agent Bool
  | 0 => pure false
  | polls + 1 => do
    if ← pidRunning file then waitStopped file polls else pure true

def awaitStopped (file : Pidfile) : ℕ → Agent Unit
  | 0 => raised
  | patience + 1 => do
    if ← pidRunning file then awaitStopped file patience else pure ()

/-- The loop after `system_powerdown`: whether qemu has ended. -/
def waitPowerdown : ℕ → Agent Bool
  | 0 => pure false
  | polls + 1 => do
    if ← pidRunning .qemu then
      if (← agentExecute .qemuQueryStatus) = "shutdown" then pure false else waitPowerdown polls
    else pure true

/-- The part of `stop_qemu` that shuts the guest down: whether qemu has ended. -/
def shutdownQemu (env : AgentEnv) (shutdownGuest : Bool) : Agent Bool := do
  if shutdownGuest then
    agentExecuteAll [.other "system_powerdown"]
    waitPowerdown env.polls
  else pure false

/-- The body of the `try` of `stop_qemu`: whether qemu has ended. -/
def stopQemuCleanly (env : AgentEnv) (failed shutdownGuest : Bool) : Agent Bool := do
  if failed then pure false
  else
    qmpOpen
    if ← shutdownQemu env shutdownGuest then pure true
    else
      agentExecuteAll [.other "quit"]
      waitStopped .qemu env.polls

def stopQemu (env : AgentEnv) (failed shutdownGuest : Bool) : Agent OcfCode := do
  if ← pidRunning .qemu then
    let ended ← attempt (stopQemuCleanly env failed shutdownGuest)
    if ended = some true then pure .success
    else if ← pidRunning .qemu then
      let _ ← attempt (agentCall .kill)
      awaitStopped .qemu env.patience
      pure .success
    else pure .success
  else pure .success

def autoquitColod : Agent Unit := do
  if ← pidRunning .colod then
    qmpOpen
    agentExecuteAll [.other "autoquit"]
  else pure ()

/-- `_qemu_colo_stop`. -/
def qemuColoStop (env : AgentEnv) (failed shutdownGuest : Bool) : Agent OcfCode := do
  autoquitColod
  let result ← stopQemu env failed shutdownGuest
  awaitStopped .colod env.patience
  pure result

/-! ### The actions -/

/-- The part of `qemu_colo_monitor` for a primary. -/
def monitorResync (env : AgentEnv) (status : AgentStatus) : Agent Unit := do
  match ← qmpCheckResync with
  | none => pure ()
  | some job =>
    if job.error ∨ status.peerFailed then
      let peer ← agentExecute .queryPeer
      delPeer env
      reportRemoteFailure peer
    else if job.ready then
      let _ ← agentExecute .queryPeer
      qmpStartMigration env
    else pure ()

/-- The part of `qemu_colo_monitor` for a secondary. -/
def monitorReplication (status : AgentStatus) : Agent Unit := do
  if status.replication then
    if (← getMasterScore) < 100 then setMasterScore 100 else pure ()
  else pure ()

/-- What a monitor that is not a probe does. -/
def monitorDuties (env : AgentEnv) (status : AgentStatus) : Agent Unit := do
  if env.interval then
    if status.primary then monitorResync env status else monitorReplication status
  else pure ()

def qemuColoMonitor (env : AgentEnv) : Agent OcfCode := do
  if ← checkRunningPid then
    qmpOpen
    let status ← agentExecute .queryStatus
    if status.failed then pure .errGeneric
    else
      monitorDuties env status
      let pretendSecondary ← agentExecute .queryStore
      pure (if status.primary && !pretendSecondary then .runningMaster else .success)
  else pure .notRunning

/-- `del_peer` if the host that stops is the current peer. -/
def delStoppingPeer (env : AgentEnv) : Agent Unit := do
  qmpOpen
  let ourPeer ← agentExecute .queryPeer
  if strip env.stopUname = ourPeer then delPeer env else pure ()

def qemuColoNotify (env : AgentEnv) : Agent OcfCode := do
  qmpOpen
  let status ← agentExecute .queryStatus
  if status.failed then pure .errGeneric
  else if env.notifyType = "post" ∧ env.notifyOperation = "start" then
    if status.primary then
      qmpOpen
      newPeer (strip env.startUname)
      pure .success
    else pure .success
  else if env.notifyType = "pre" ∧ env.notifyOperation = "stop" then
    if !envDoShutdownGuest env ∧ (status.primary ∨ status.replication) ∧
        env.hostname ≠ strip env.stopUname then
      delStoppingPeer env
      pure .success
    else pure .success
  else if env.notifyType = "post" ∧ env.notifyOperation = "stop" ∧
      env.notifyKeyOperation = "stonith" ∧ (status.primary ∨ status.replication) then
    setRemoteMasterScore (strip env.stopUname) 0
    delStoppingPeer env
    pure .success
  else pure .success

/-- The end of `qemu_colo_promote`. -/
def promotePeer (env : AgentEnv) : Agent OcfCode := do
  match envFindSecondary env with
  | none => pure .success
  | some peer =>
    if peer ≠ "" then
      newPeer peer
      pure .success
    else pure .success

/-- `qmp_setup_colod` with the settings for the throttle. -/
def setupColod : Agent Unit := do
  qmpUpdateStore false
  agentExecuteAll [.other "set-yank", .other "set-migration-switchover",
    .other "set-primary-failover", .other "set-secondary-failover", .other "qom-set"]

/-- Waits in `qemu_colo_promote` until the daemon is primary. -/
def awaitPromotion : ℕ → Agent Unit
  | 0 => raised
  | patience + 1 => do
    if (← agentExecute .queryStatus).primary then pure () else awaitPromotion patience

/-- The promotion of a fresh secondary: qemu and the daemon are started anew. -/
def promoteFresh (env : AgentEnv) : Agent OcfCode := do
  let stopped ← qemuColoStop env false false
  if stopped ≠ .success then pure stopped
  else
    let _ ← agentCall .runQemuPrimary
    let _ ← agentCall .runColodPrimary
    setMasterScore 101
    qmpOpen
    setupColod
    promotePeer env

def qemuColoPromote (env : AgentEnv) : Agent OcfCode := do
  qmpOpen
  let status ← agentExecute .queryStatus
  let _ ← agentExecute .queryStore
  if status.failed then pure .errGeneric
  else if !status.primary ∧ !status.replication then
    if env.configOk then promoteFresh env else pure .errConfigured
  else
    qmpOpen
    awaitPromotion env.patience
    qmpUpdateStore false
    setMasterScore 101
    promotePeer env

inductive AgentAction
  | monitor
  | notify
  | promote
  deriving DecidableEq, Repr

def AgentAction.script (env : AgentEnv) : AgentAction → Agent OcfCode
  | .monitor => qemuColoMonitor env
  | .notify => qemuColoNotify env
  | .promote => qemuColoPromote env

end ColoDaemon
