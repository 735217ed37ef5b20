import ColoDaemon.ResourceAgent

/-!
# What the actions of the resource agent call

Every action but the promotion makes calls of a few kinds only: QMP commands, the Pacemaker tools,
where a score for another host is 0, looks at the pid files and the signal that ends qemu. `Admits`
is for a property of calls that these kinds have, and the lemmas carry it to whole actions.
-/

namespace ColoDaemon
open Script

structure Admits (P : AgentCall → Prop) : Prop where
  connect : P .connect
  qmp : ∀ command, P (.qmp command)
  crmMaster : ∀ score, P (.crmMaster score)
  crmMasterRemote : ∀ remote, P (.crmMasterRemote remote 0)
  crmMasterGet : P .crmMasterGet
  crmResourceFail : ∀ remote, P (.crmResourceFail remote)
  pidRunning : ∀ file, P (.pidRunning file)
  kill : P .kill

namespace Admits
variable {P : AgentCall → Prop} (hP : Admits P) (env : AgentEnv)
include hP

theorem execute (command : AgentQmp) : (agentExecute command).Calls P := by
  refine calls_bind (calls_perform (hP.qmp command)) fun answer => ?_
  cases answer with
  | ok answer => exact calls_pure answer
  | error errorClass => exact calls_raised

theorem executeAll (commands : List AgentQmp) : (agentExecuteAll commands).Calls P := by
  induction commands with
  | nil => exact calls_pure ()
  | cons command commands ih => exact calls_bind (hP.execute command) fun _ => ih

theorem checkRunningPid : checkRunningPid.Calls P :=
  calls_bind (calls_perform (hP.pidRunning _)) fun _ =>
    calls_ite (calls_pure true) (calls_perform (hP.pidRunning _))

/-! ### The resync -/

theorem resyncConcluded : resyncConcluded.Calls P := by
  refine calls_bind (hP.execute _) fun job => ?_
  cases job with
  | none => exact calls_raised
  | some job => exact calls_pure _

theorem waitConcluded (polls : ℕ) : (waitConcluded polls).Calls P := by
  induction polls with
  | zero => exact calls_pure false
  | succ polls ih => exact calls_bind hP.resyncConcluded fun _ => calls_ite (calls_pure true) ih

theorem awaitConcluded (patience : ℕ) : (awaitConcluded patience).Calls P := by
  induction patience with
  | zero => exact calls_raised
  | succ patience ih => exact calls_bind hP.resyncConcluded fun _ => calls_ite (calls_pure ()) ih

theorem qmpCancelResync : (qmpCancelResync env).Calls P := by
  refine calls_bind hP.resyncConcluded fun _ => calls_ite (hP.executeAll _) ?_
  refine calls_bind (calls_perform (hP.qmp _)) fun _ => calls_bind (hP.waitConcluded _) fun _ => ?_
  apply calls_ite (hP.executeAll _)
  refine calls_bind (hP.executeAll _) fun _ => calls_bind (hP.awaitConcluded _) fun _ => ?_
  exact hP.executeAll _

theorem reportRemoteFailure (remote : String) : (reportRemoteFailure remote).Calls P :=
  calls_bind (calls_attempt (calls_perform (hP.crmResourceFail remote))) fun _ => calls_pure ()

theorem qmpStartResync (peer : String) : (qmpStartResync peer).Calls P := by
  refine calls_bind (calls_perform (hP.qmp _)) fun answer => ?_
  cases answer with
  | ok answer => exact hP.execute _
  | error errorClass => exact hP.reportRemoteFailure peer

theorem qmpStartMigration : (qmpStartMigration env).Calls P := by
  have hmigrate : (qmpMigrate env).Calls P :=
    calls_bind (hP.executeAll _) fun _ => calls_bind (hP.awaitConcluded _) fun _ =>
      hP.executeAll _
  refine calls_bind (calls_perform (hP.qmp _)) fun answer => ?_
  cases answer with
  | ok answer => exact hmigrate
  | error errorClass => exact calls_ite hmigrate calls_raised

/-! ### Peers -/

theorem qmpUpdateStore (pretendSecondary : Bool) : (qmpUpdateStore pretendSecondary).Calls P :=
  calls_bind (hP.execute _) fun _ => hP.execute _

theorem newPeer (peer : String) : (newPeer peer).Calls P := by
  refine calls_bind (hP.execute _) fun _ => calls_ite (calls_pure ()) ?_
  refine calls_bind (hP.qmpStartResync peer) fun _ => calls_bind (hP.executeAll _) fun _ => ?_
  exact calls_perform (hP.crmMasterRemote peer)

theorem delPeer : (delPeer env).Calls P := by
  refine calls_bind (hP.execute _) fun _ => calls_ite ?_ (hP.executeAll _)
  exact calls_bind (hP.qmpCancelResync env) fun _ => hP.executeAll _

theorem delStoppingPeer : (delStoppingPeer env).Calls P := by
  refine calls_bind (calls_perform hP.connect) fun _ => calls_bind (hP.execute _) fun _ => ?_
  exact calls_ite (hP.delPeer env) (calls_pure ())

theorem promotePeer : (promotePeer env).Calls P := by
  unfold ColoDaemon.promotePeer
  cases envFindSecondary env with
  | none => exact calls_pure _
  | some peer =>
    exact calls_ite (calls_bind (hP.newPeer peer) fun _ => calls_pure _) (calls_pure _)

theorem setupColod : setupColod.Calls P :=
  calls_bind (hP.qmpUpdateStore false) fun _ => hP.executeAll _

theorem awaitPromotion (patience : ℕ) : (awaitPromotion patience).Calls P := by
  induction patience with
  | zero => exact calls_raised
  | succ patience ih => exact calls_bind (hP.execute _) fun _ => calls_ite (calls_pure ()) ih

/-! ### Stopping qemu -/

theorem waitStopped (file : Pidfile) (polls : ℕ) : (waitStopped file polls).Calls P := by
  induction polls with
  | zero => exact calls_pure false
  | succ polls ih =>
    exact calls_bind (calls_perform (hP.pidRunning file)) fun _ => calls_ite ih (calls_pure true)

theorem waitPowerdown (polls : ℕ) : (waitPowerdown polls).Calls P := by
  induction polls with
  | zero => exact calls_pure false
  | succ polls ih =>
    refine calls_bind (calls_perform (hP.pidRunning _)) fun _ => calls_ite ?_ (calls_pure true)
    exact calls_bind (hP.execute _) fun _ => calls_ite (calls_pure false) ih

theorem stopQemuCleanly (failed shutdownGuest : Bool) :
    (stopQemuCleanly env failed shutdownGuest).Calls P := by
  have hshutdown : (shutdownQemu env shutdownGuest).Calls P :=
    calls_ite (calls_bind (hP.executeAll _) fun _ => hP.waitPowerdown _) (calls_pure false)
  refine calls_ite (calls_pure false) (calls_bind (calls_perform hP.connect) fun _ => ?_)
  refine calls_bind hshutdown fun _ => calls_ite (calls_pure true) ?_
  exact calls_bind (hP.executeAll _) fun _ => hP.waitStopped _ _

theorem autoquitColod : autoquitColod.Calls P := by
  refine calls_bind (calls_perform (hP.pidRunning _)) fun _ => calls_ite ?_ (calls_pure ())
  exact calls_bind (calls_perform hP.connect) fun _ => hP.executeAll _

/-! ### The actions -/

theorem monitorDuties (status : AgentStatus) : (monitorDuties env status).Calls P := by
  refine calls_ite (calls_ite ?_ ?_) (calls_pure ())
  · refine calls_bind (hP.execute _) fun job => ?_
    cases job with
    | none => exact calls_pure ()
    | some job =>
      refine calls_ite ?_ (calls_ite ?_ (calls_pure ()))
      · refine calls_bind (hP.execute _) fun peer => calls_bind (hP.delPeer env) fun _ => ?_
        exact hP.reportRemoteFailure peer
      · exact calls_bind (hP.execute _) fun _ => hP.qmpStartMigration env
  · refine calls_ite (calls_bind (calls_perform hP.crmMasterGet) fun _ => ?_) (calls_pure ())
    exact calls_ite (calls_perform (hP.crmMaster _)) (calls_pure ())

theorem monitor : (qemuColoMonitor env).Calls P := by
  refine calls_bind hP.checkRunningPid fun _ =>
    calls_ite (calls_bind (calls_perform hP.connect) fun _ => ?_) (calls_pure _)
  refine calls_bind (hP.execute _) fun status => calls_ite (calls_pure _) ?_
  refine calls_bind (hP.monitorDuties env status) fun _ => ?_
  exact calls_bind (hP.execute _) fun _ => calls_pure _

theorem notify : (qemuColoNotify env).Calls P := by
  refine calls_bind (calls_perform hP.connect) fun _ => calls_bind (hP.execute _) fun status => ?_
  refine calls_ite (calls_pure _) (calls_ite (calls_ite ?_ (calls_pure _)) (calls_ite (calls_ite ?_
    (calls_pure _)) (calls_ite ?_ (calls_pure _))))
  · refine calls_bind (calls_perform hP.connect) fun _ => ?_
    exact calls_bind (hP.newPeer _) fun _ => calls_pure _
  · exact calls_bind (hP.delStoppingPeer env) fun _ => calls_pure _
  · refine calls_bind (calls_perform (hP.crmMasterRemote _)) fun _ => ?_
    exact calls_bind (hP.delStoppingPeer env) fun _ => calls_pure _

end Admits
end ColoDaemon
