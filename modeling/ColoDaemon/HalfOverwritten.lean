import ColoDaemon.ResourceAgent

/-!
# Half-overwritten peers

From the start of the mirror to a peer until the peer's own monitor reports replication the peer's
disk holds parts of two images. Its master score must be 0 all the while. `Pacemaker` runs the
actions of the agent on one host, call by call, together with what else happens to the cluster.
-/

namespace ColoDaemon
open Script Runs

/-- What the calls of the agent act on. `nbd` is the peer that the node `nbd0` leads to; `half` says
that a mirror to a peer has been started since its own monitor last reported replication. -/
structure Cluster where
  hostname : String
  peer : String
  pretendSecondary : Bool
  status : AgentStatus
  qemuStatus : String
  nbd : Option String
  job : Option ResyncJob
  score : String → ℕ
  half : String → Bool
  running : Pidfile → Bool

namespace Cluster
variable (this : Cluster)

/-- The answer of qemu or the daemon to a command, and its effect. -/
def execute : (command : AgentQmp) → Except String command.Return × Cluster
  | .queryStatus => (.ok this.status, this)
  | .queryStore => (.ok this.pretendSecondary, this)
  | .setStore pretendSecondary => (.ok (), { this with pretendSecondary })
  | .queryPeer => (.ok this.peer, this)
  | .setPeer peer => (.ok (), { this with peer })
  | .clearPeer => (.ok (), { this with peer := "" })
  | .blockdevAdd peer =>
    if this.nbd.isSome then (.error "GenericError", this) else (.ok (), { this with nbd := some peer })
  | .blockdevMirror =>
    match this.nbd, this.job with
    | some peer, none =>
      (.ok (), { this with
        job := some ⟨false, false, false⟩
        half := Function.update this.half peer true })
    | _, _ => (.error "GenericError", this)
  | .queryBlockJobs => (.ok this.job, this)
  | .blockJobCancel _ => (.ok (), this)
  | .blockJobDismiss =>
    match this.job with
    | some job =>
      if job.concluded then (.ok (), { this with job := none }) else (.error "GenericError", this)
    | none => (.error "DeviceNotActive", this)
  | .blockdevDel => (.ok (), { this with nbd := none })
  | .qemuQueryStatus => (.ok this.qemuStatus, this)
  | .other _ => (.ok (), this)

def perform : (c : AgentCall) → c.Answer × Cluster
  | .connect => ((), this)
  | .qmp command => this.execute command
  | .crmMaster score =>
    ((), { this with score := Function.update this.score this.hostname score })
  | .crmMasterRemote remote score =>
    ((), { this with score := Function.update this.score remote score })
  | .crmMasterGet => (this.score this.hostname, this)
  | .crmResourceFail _ => ((), this)
  | .runQemuPrimary => ((), { this with nbd := none, job := none })
  | .runColodPrimary => ((), { this with peer := "", pretendSecondary := false })
  | .pidRunning file => (this.running file, this)
  | .kill => ((), this)

/-- Every half-overwritten peer is ineligible for promotion. -/
def Safe : Prop := ∀ peer ≠ this.hostname, this.half peer = true → this.score peer = 0

end Cluster

/-- How a call ends: with its answer, with an error that is no exception, or with an exception
before or after it had its effect. -/
inductive Outcome
  | returns
  | error (errorClass : String)
  | fails
  | lost
  deriving DecidableEq, Repr

def Outcome.effective : Outcome → Bool
  | .returns => true
  | .lost => true
  | _ => false

/-- The answer of a call that fails without an exception: `get_master_score` then answers 0. -/
def AgentCall.errorAnswer (errorClass : String) : (c : AgentCall) → Option c.Answer
  | .qmp _ => some (.error errorClass)
  | .crmMasterGet => some 0
  | _ => none

structure Pacemaker where
  cluster : Cluster
  action : Option (Agent OcfCode)

/-- Besides the actions and their calls: Pacemaker kills an action, the daemon and qemu change on
their own, and a peer's monitor reports replication. -/
inductive PacemakerLabel
  | start (action : AgentAction) (env : AgentEnv)
  | call (outcome : Outcome)
  | kill
  | status (status : AgentStatus) (qemuStatus : String)
  | process (file : Pidfile) (running : Bool)
  | progress (job : ResyncJob)
  | clearPeer
  | nodeGone
  | replicates (peer : String)

namespace Pacemaker
variable (this : Pacemaker)

/-- The next call of the action with its outcome. -/
def callStep (outcome : Outcome) : Option Pacemaker :=
  match this.action with
  | some (.call c next) =>
    let (answer, cluster) := this.cluster.perform c
    match outcome with
    | .returns => some ⟨cluster, some (next (some answer))⟩
    | .error errorClass =>
      (c.errorAnswer errorClass).map fun answer => { this with action := some (next (some answer)) }
    | .fails => some { this with action := some (next none) }
    | .lost => some ⟨cluster, some (next none)⟩
  | _ => none

/-- An action that has not ended. -/
def busy : Bool :=
  match this.action with
  | some (.call _ _) => true
  | _ => false

def step : PacemakerLabel → Option Pacemaker
  | .start action env =>
    if this.busy ∨ env.hostname ≠ this.cluster.hostname then none
    else some { this with action := some (action.script env) }
  | .call outcome => this.callStep outcome
  | .kill => some { this with action := none }
  | .status status qemuStatus =>
    some { this with cluster := { this.cluster with status, qemuStatus } }
  | .process file running =>
    some { this with cluster :=
      { this.cluster with running := Function.update this.cluster.running file running } }
  | .progress job =>
    some { this with cluster := { this.cluster with job := this.cluster.job.map fun _ => job } }
  | .clearPeer => some { this with cluster := { this.cluster with peer := "" } }
  | .nodeGone => some { this with cluster := { this.cluster with nbd := none } }
  | .replicates peer =>
    some { this with cluster := { this.cluster with
      score := Function.update this.cluster.score peer (max (this.cluster.score peer) 100)
      half := Function.update this.cluster.half peer false } }

/-- The peer to which the next call starts the mirror. -/
def mirrors : Option String :=
  match this.action with
  | some (.call (.qmp .blockdevMirror) _) =>
    if this.cluster.job = none then this.cluster.nbd else none
  | _ => none

/-- A mirror is only started to a peer whose score is 0. -/
def Zeroed : PacemakerLabel → Prop
  | .call outcome => outcome.effective = true → ∀ peer ∈ this.mirrors,
      peer ≠ this.cluster.hostname → this.cluster.score peer = 0
  | _ => True

end Pacemaker

/-! ### The agent gives no other host a score -/

/-- The only score that the agent sets for another host is 0. -/
def AgentCall.Tame : AgentCall → Prop
  | .crmMasterRemote _ score => score = 0
  | _ => True

/-- Every call of the script is tame. -/
def Tame {α : Type} (p : Agent α) : Prop := p.Calls AgentCall.Tame

section Tame
variable {α β : Type}

theorem tame_bind {p : Agent α} {f : α → Agent β} (h : Tame p) (hf : ∀ a, Tame (f a)) :
    Tame (p >>= f) := calls_bind h hf

theorem tame_ite {b : Prop} [Decidable b] {p q : Agent α} (hp : Tame p) (hq : Tame q) :
    Tame (if b then p else q) := calls_ite hp hq

theorem tame_pure (a : α) : Tame (pure a : Agent α) := trivial

theorem tame_raised : Tame (raised : Agent α) := trivial

theorem tame_call {c : AgentCall} (h : c.Tame) : Tame (agentCall c) := calls_perform h

theorem tame_execute (command : AgentQmp) : Tame (agentExecute command) := by
  refine tame_bind (tame_call trivial) fun answer => ?_
  cases answer with
  | ok answer => exact tame_pure answer
  | error errorClass => exact tame_raised

theorem tame_executeAll (commands : List AgentQmp) : Tame (agentExecuteAll commands) := by
  induction commands with
  | nil => exact tame_pure ()
  | cons command commands ih => exact tame_bind (tame_execute command) fun _ => ih

theorem tame_reportRemoteFailure (remote : String) : Tame (reportRemoteFailure remote) :=
  tame_bind (calls_attempt (tame_call trivial)) fun _ => tame_pure ()

theorem tame_pidRunning (file : Pidfile) : Tame (pidRunning file) := tame_call trivial

theorem tame_resyncConcluded : Tame resyncConcluded := by
  refine tame_bind (tame_execute _) fun job => ?_
  cases job with
  | none => exact tame_raised
  | some job => exact tame_pure _

theorem tame_waitConcluded (polls : ℕ) : Tame (waitConcluded polls) := by
  induction polls with
  | zero => exact tame_pure false
  | succ polls ih => exact tame_bind tame_resyncConcluded fun _ => tame_ite (tame_pure true) ih

theorem tame_awaitConcluded (patience : ℕ) : Tame (awaitConcluded patience) := by
  induction patience with
  | zero => exact tame_raised
  | succ patience ih => exact tame_bind tame_resyncConcluded fun _ => tame_ite (tame_pure ()) ih

theorem tame_qmpCancelResync (env : AgentEnv) : Tame (qmpCancelResync env) := by
  refine tame_bind tame_resyncConcluded fun _ => tame_ite (tame_executeAll _) ?_
  refine tame_bind (tame_call trivial) fun _ => tame_bind (tame_waitConcluded _) fun _ => ?_
  apply tame_ite (tame_executeAll _)
  refine tame_bind (tame_executeAll _) fun _ => tame_bind (tame_awaitConcluded _) fun _ => ?_
  exact tame_executeAll _

theorem tame_qmpStartResync (peer : String) : Tame (qmpStartResync peer) := by
  refine tame_bind (tame_call trivial) fun answer => ?_
  cases answer with
  | ok answer => exact tame_execute _
  | error errorClass => exact tame_reportRemoteFailure peer

theorem tame_qmpStartMigration (env : AgentEnv) : Tame (qmpStartMigration env) := by
  have hmigrate : Tame (qmpMigrate env) :=
    tame_bind (tame_executeAll _) fun _ => tame_bind (tame_awaitConcluded _) fun _ =>
      tame_executeAll _
  refine tame_bind (tame_call trivial) fun answer => ?_
  cases answer with
  | ok answer => exact hmigrate
  | error errorClass => exact tame_ite hmigrate tame_raised

theorem tame_newPeer (peer : String) : Tame (newPeer peer) := by
  refine tame_bind (tame_execute _) fun _ => tame_ite (tame_pure ()) ?_
  refine tame_bind (tame_qmpStartResync peer) fun _ => tame_bind (tame_executeAll _) fun _ => ?_
  exact tame_call rfl

theorem tame_delPeer (env : AgentEnv) : Tame (delPeer env) := by
  refine tame_bind (tame_execute _) fun _ => tame_ite ?_ (tame_executeAll _)
  exact tame_bind (tame_qmpCancelResync env) fun _ => tame_executeAll _

theorem tame_delStoppingPeer (env : AgentEnv) : Tame (delStoppingPeer env) := by
  refine tame_bind (tame_call trivial) fun _ => tame_bind (tame_execute _) fun _ => ?_
  exact tame_ite (tame_delPeer env) (tame_pure ())

theorem tame_waitStopped (file : Pidfile) (polls : ℕ) : Tame (waitStopped file polls) := by
  induction polls with
  | zero => exact tame_pure false
  | succ polls ih => exact tame_bind (tame_pidRunning file) fun _ => tame_ite ih (tame_pure true)

theorem tame_awaitStopped (file : Pidfile) (patience : ℕ) : Tame (awaitStopped file patience) := by
  induction patience with
  | zero => exact tame_raised
  | succ patience ih => exact tame_bind (tame_pidRunning file) fun _ => tame_ite ih (tame_pure ())

theorem tame_waitPowerdown (polls : ℕ) : Tame (waitPowerdown polls) := by
  induction polls with
  | zero => exact tame_pure false
  | succ polls ih =>
    refine tame_bind (tame_pidRunning _) fun _ => tame_ite ?_ (tame_pure true)
    exact tame_bind (tame_execute _) fun _ => tame_ite (tame_pure false) ih

theorem tame_stopQemuCleanly (env : AgentEnv) (failed shutdownGuest : Bool) :
    Tame (stopQemuCleanly env failed shutdownGuest) := by
  have hshutdown : Tame (shutdownQemu env shutdownGuest) :=
    tame_ite (tame_bind (tame_executeAll _) fun _ => tame_waitPowerdown _) (tame_pure false)
  refine tame_ite (tame_pure false) (tame_bind (tame_call trivial) fun _ => ?_)
  refine tame_bind hshutdown fun _ => tame_ite (tame_pure true) ?_
  exact tame_bind (tame_executeAll _) fun _ => tame_waitStopped _ _

theorem tame_qemuColoStop (env : AgentEnv) (failed shutdownGuest : Bool) :
    Tame (qemuColoStop env failed shutdownGuest) := by
  have hautoquit : Tame autoquitColod := by
    refine tame_bind (tame_pidRunning _) fun _ => tame_ite ?_ (tame_pure ())
    exact tame_bind (tame_call trivial) fun _ => tame_executeAll _
  have hstop : Tame (stopQemu env failed shutdownGuest) := by
    refine tame_bind (tame_pidRunning _) fun _ => tame_ite ?_ (tame_pure _)
    refine tame_bind (calls_attempt (tame_stopQemuCleanly env failed shutdownGuest)) fun _ => ?_
    apply tame_ite (tame_pure _)
    refine tame_bind (tame_pidRunning _) fun _ => tame_ite ?_ (tame_pure _)
    refine tame_bind (calls_attempt (tame_call trivial)) fun _ => ?_
    exact tame_bind (tame_awaitStopped _ _) fun _ => tame_pure _
  refine tame_bind hautoquit fun _ => tame_bind hstop fun _ => ?_
  exact tame_bind (tame_awaitStopped _ _) fun _ => tame_pure _

theorem tame_monitorDuties (env : AgentEnv) (status : AgentStatus) :
    Tame (monitorDuties env status) := by
  refine tame_ite (tame_ite ?_ ?_) (tame_pure ())
  · refine tame_bind (tame_execute _) fun job => ?_
    cases job with
    | none => exact tame_pure ()
    | some job =>
      refine tame_ite ?_ (tame_ite ?_ (tame_pure ()))
      · refine tame_bind (tame_execute _) fun peer => tame_bind (tame_delPeer env) fun _ => ?_
        exact tame_reportRemoteFailure peer
      · exact tame_bind (tame_execute _) fun _ => tame_qmpStartMigration env
  · refine tame_ite (tame_bind (tame_call trivial) fun _ => ?_) (tame_pure ())
    exact tame_ite (tame_call trivial) (tame_pure ())

theorem tame_monitor (env : AgentEnv) : Tame (qemuColoMonitor env) := by
  have hcheck : Tame checkRunningPid :=
    tame_bind (tame_pidRunning _) fun _ => tame_ite (tame_pure true) (tame_pidRunning _)
  refine tame_bind hcheck fun _ => tame_ite (tame_bind (tame_call trivial) fun _ => ?_) (tame_pure _)
  refine tame_bind (tame_execute _) fun status => tame_ite (tame_pure _) ?_
  refine tame_bind (tame_monitorDuties env status) fun _ => ?_
  exact tame_bind (tame_execute _) fun _ => tame_pure _

theorem tame_notify (env : AgentEnv) : Tame (qemuColoNotify env) := by
  refine tame_bind (tame_call trivial) fun _ => tame_bind (tame_execute _) fun status => ?_
  refine tame_ite (tame_pure _) (tame_ite (tame_ite ?_ (tame_pure _)) (tame_ite (tame_ite ?_
    (tame_pure _)) (tame_ite ?_ (tame_pure _))))
  · exact tame_bind (tame_call trivial) fun _ => tame_bind (tame_newPeer _) fun _ => tame_pure _
  · exact tame_bind (tame_delStoppingPeer env) fun _ => tame_pure _
  · refine tame_bind (tame_call rfl) fun _ => ?_
    exact tame_bind (tame_delStoppingPeer env) fun _ => tame_pure _

theorem tame_promotePeer (env : AgentEnv) : Tame (promotePeer env) := by
  unfold promotePeer
  cases envFindSecondary env with
  | none => exact tame_pure _
  | some peer => exact tame_ite (tame_bind (tame_newPeer peer) fun _ => tame_pure _) (tame_pure _)

theorem tame_promote (env : AgentEnv) : Tame (qemuColoPromote env) := by
  have hstore : Tame (qmpUpdateStore false) :=
    tame_bind (tame_execute _) fun _ => tame_execute _
  have hsetup : Tame setupColod := tame_bind hstore fun _ => tame_executeAll _
  have hawait : ∀ patience, Tame (awaitPromotion patience) := by
    intro patience
    induction patience with
    | zero => exact tame_raised
    | succ patience ih => exact tame_bind (tame_execute _) fun _ => tame_ite (tame_pure ()) ih
  have hfresh : Tame (promoteFresh env) := by
    refine tame_bind (tame_qemuColoStop env _ _) fun _ => tame_ite (tame_pure _) ?_
    refine tame_bind (tame_call trivial) fun _ => tame_bind (tame_call trivial) fun _ => ?_
    refine tame_bind (tame_call trivial) fun _ => tame_bind (tame_call trivial) fun _ => ?_
    exact tame_bind hsetup fun _ => tame_promotePeer env
  refine tame_bind (tame_call trivial) fun _ => tame_bind (tame_execute _) fun _ => ?_
  refine tame_bind (tame_execute _) fun _ => tame_ite (tame_pure _) ?_
  apply tame_ite (tame_ite hfresh (tame_pure _))
  refine tame_bind (tame_call trivial) fun _ => tame_bind (hawait _) fun _ => ?_
  refine tame_bind hstore fun _ => tame_bind (tame_call trivial) fun _ => ?_
  exact tame_promotePeer env

theorem tame_script (env : AgentEnv) (action : AgentAction) : Tame (action.script env) := by
  cases action with
  | monitor => exact tame_monitor env
  | notify => exact tame_notify env
  | promote => exact tame_promote env

end Tame

/-! ### When a half-overwritten peer is ineligible -/

namespace Pacemaker
variable {this next : Pacemaker}

/-- A tame call that starts no mirror keeps half-overwritten peers ineligible. -/
theorem safe_perform {w : Cluster} {c : AgentCall} (hsafe : w.Safe) (htame : c.Tame)
    (hmirror : c = .qmp .blockdevMirror → w.job = none → ∀ peer ∈ w.nbd, peer ≠ w.hostname →
      w.score peer = 0) : (w.perform c).2.Safe := by
  have hown : ∀ score, ({ w with score := Function.update w.score w.hostname score } :
      Cluster).Safe := by
    intro score peer hpeer hhalf
    simp only [Function.update_of_ne hpeer]
    exact hsafe peer hpeer hhalf
  cases c with
  | connect => exact hsafe
  | crmMaster score => exact hown score
  | crmMasterGet => exact hsafe
  | crmResourceFail remote => exact hsafe
  | runQemuPrimary => exact hsafe
  | runColodPrimary => exact hsafe
  | pidRunning file => exact hsafe
  | kill => exact hsafe
  | crmMasterRemote remote score =>
    intro peer hpeer hhalf
    rw [show score = 0 from htame]
    simp only [Cluster.perform, Function.update_apply]
    split_ifs
    · rfl
    · exact hsafe peer hpeer hhalf
  | qmp command =>
    cases command with
    | queryStatus => exact hsafe
    | queryStore => exact hsafe
    | setStore pretendSecondary => exact hsafe
    | queryPeer => exact hsafe
    | setPeer peer => exact hsafe
    | clearPeer => exact hsafe
    | queryBlockJobs => exact hsafe
    | blockJobCancel force => exact hsafe
    | blockdevDel => exact hsafe
    | qemuQueryStatus => exact hsafe
    | other command => exact hsafe
    | blockdevAdd peer =>
      simp only [Cluster.perform, Cluster.execute]
      split_ifs
      · exact hsafe
      · exact hsafe
    | blockJobDismiss =>
      simp only [Cluster.perform, Cluster.execute]
      split
      · split_ifs
        · exact hsafe
        · exact hsafe
      · exact hsafe
    | blockdevMirror =>
      simp only [Cluster.perform, Cluster.execute]
      split
      · next target hnbd hjob =>
        intro peer hpeer hhalf
        by_cases htarget : peer = target
        · exact hmirror rfl hjob peer (by rw [hnbd, htarget]; rfl) hpeer
        · simp only [Function.update_of_ne htarget] at hhalf
          exact hsafe peer hpeer hhalf
      · exact hsafe

structure Sound (this : Pacemaker) : Prop where
  safe : this.cluster.Safe
  tame : ∀ p ∈ this.action, Tame p

theorem sound_step {label : PacemakerLabel} (h : this.Sound) (hstep : this.step label = some next)
    (hzeroed : this.Zeroed label) : next.Sound := by
  cases label with
  | kill =>
    rw [Pacemaker.step, Option.some.injEq] at hstep
    exact hstep ▸ ⟨h.safe, by simp⟩
  | start action env =>
    simp only [Pacemaker.step] at hstep
    split_ifs at hstep
    rw [Option.some.injEq] at hstep
    refine hstep ▸ ⟨h.safe, fun p hp => ?_⟩
    rw [Option.mem_some_iff] at hp
    exact hp ▸ tame_script env action
  | status status qemuStatus =>
    rw [Pacemaker.step, Option.some.injEq] at hstep
    exact hstep ▸ ⟨h.safe, h.tame⟩
  | process file running =>
    rw [Pacemaker.step, Option.some.injEq] at hstep
    exact hstep ▸ ⟨h.safe, h.tame⟩
  | progress job =>
    rw [Pacemaker.step, Option.some.injEq] at hstep
    exact hstep ▸ ⟨h.safe, h.tame⟩
  | clearPeer =>
    rw [Pacemaker.step, Option.some.injEq] at hstep
    exact hstep ▸ ⟨h.safe, h.tame⟩
  | nodeGone =>
    rw [Pacemaker.step, Option.some.injEq] at hstep
    exact hstep ▸ ⟨h.safe, h.tame⟩
  | replicates peer =>
    rw [Pacemaker.step, Option.some.injEq] at hstep
    refine hstep ▸ ⟨fun peer' hpeer hhalf => ?_, h.tame⟩
    by_cases heq : peer' = peer
    · simp [heq] at hhalf
    · simp only [Function.update_of_ne heq] at hhalf ⊢
      exact h.safe peer' hpeer hhalf
  | call outcome =>
    simp only [Pacemaker.step, callStep] at hstep
    split at hstep
    · next c continuation haction =>
      have htame := h.tame _ haction
      have hafter : ∀ answer, Tame (continuation answer) := htame.2
      have hperform : outcome.effective = true → (this.cluster.perform c).2.Safe := by
        intro heffective
        refine safe_perform h.safe htame.1 fun hmirror hjob peer hpeer => ?_
        refine hzeroed heffective peer ?_
        subst hmirror
        simp only [mirrors, haction, hjob, if_true]
        exact hpeer
      have hnext : ∀ {cluster : Cluster} {p : Agent OcfCode}, cluster.Safe → Tame p →
          some (Pacemaker.mk cluster (some p)) = some next → next.Sound := by
        intro cluster p hsafe hp heq
        rw [Option.some.injEq] at heq
        refine heq ▸ ⟨hsafe, fun p' hp' => ?_⟩
        rw [Option.mem_some_iff] at hp'
        exact hp' ▸ hp
      cases outcome with
      | returns => exact hnext (hperform rfl) (hafter _) hstep
      | error errorClass =>
        obtain ⟨answer, -, heq⟩ := Option.map_eq_some_iff.mp hstep
        exact hnext h.safe (hafter _) (congrArg some heq)
      | fails => exact hnext h.safe (hafter _) hstep
      | lost => exact hnext (hperform rfl) (hafter _) hstep
    · exact absurd hstep (by simp)

/-- A mirror to a peer with a score makes a half-overwritten peer eligible. -/
theorem unsafe_step {label : PacemakerLabel} (hstep : this.step label = some next)
    (hzeroed : ¬ this.Zeroed label) : ¬ next.cluster.Safe := by
  cases label with
  | call outcome =>
    simp only [Zeroed, not_forall] at hzeroed
    obtain ⟨heffective, peer, hmirrors, hpeer, hscore⟩ := hzeroed
    unfold mirrors at hmirrors
    split at hmirrors
    · next continuation haction =>
      by_cases hjob : this.cluster.job = none
      swap
      · exact absurd hmirrors (by simp [hjob])
      rw [if_pos hjob] at hmirrors
      have hperform : (this.cluster.perform (.qmp .blockdevMirror)).2 =
          { this.cluster with
            job := some ⟨false, false, false⟩
            half := Function.update this.cluster.half peer true } := by
        rw [Option.mem_def] at hmirrors
        simp only [Cluster.perform, Cluster.execute, hmirrors, hjob]
      have hcluster : next.cluster = (this.cluster.perform (.qmp .blockdevMirror)).2 := by
        simp only [Pacemaker.step, callStep, haction] at hstep
        cases outcome with
        | returns => exact (Option.some.inj hstep) ▸ rfl
        | lost => exact (Option.some.inj hstep) ▸ rfl
        | error errorClass => exact absurd heffective (by simp [Outcome.effective])
        | fails => exact absurd heffective (by simp [Outcome.effective])
      intro hsafe
      rw [hcluster, hperform] at hsafe
      exact hscore (hsafe peer hpeer (Function.update_self _ _ _))
    · exact absurd hmirrors (by simp)
  | kill => exact absurd trivial hzeroed
  | start action env => exact absurd trivial hzeroed
  | status status qemuStatus => exact absurd trivial hzeroed
  | process file running => exact absurd trivial hzeroed
  | progress job => exact absurd trivial hzeroed
  | clearPeer => exact absurd trivial hzeroed
  | nodeGone => exact absurd trivial hzeroed
  | replicates peer => exact absurd trivial hzeroed

/-- Half-overwritten peers are ineligible throughout a run exactly if every mirror is started to a
peer whose score is already 0. -/
theorem peers_ineligible_iff {start this : Pacemaker} {labels : List PacemakerLabel}
    (hsafe : start.cluster.Safe) (hidle : start.action = none)
    (hrun : run Pacemaker.step start labels = some this) :
    (∀ n u, run Pacemaker.step start (labels.take n) = some u → u.cluster.Safe) ↔
      Along Pacemaker.step Zeroed start labels := by
  constructor
  · intro h
    apply along_iff.mpr
    intro n u label hu hlabel
    obtain ⟨v, hv, hnext⟩ := run_take_succ hrun hu hlabel
    by_contra hzeroed
    exact unsafe_step hv hzeroed (h (n + 1) v hnext)
  · intro halong n u hu
    have hsplit : labels.take n ++ labels.drop n = labels := List.take_append_drop n labels
    rw [← hsplit] at halong
    have hbefore := ((along_append hu).mp halong).1
    have hsound : u.Sound := by
      refine run_invariant_along (fun _ _ _ hs hz h => sound_step h hs hz) hu hbefore ⟨hsafe, ?_⟩
      rw [hidle]
      simp
    exact hsound.safe

/-- The primary `a` without a peer; `b` has some score. -/
def alone (score : ℕ) : Pacemaker where
  cluster :=
    { hostname := "a", peer := "", pretendSecondary := false
      status := ⟨true, false, false, false⟩, qemuStatus := "running", nbd := none, job := none
      score := fun host => if host = "b" then score else 0
      half := fun _ => false
      running := fun _ => true }
  action := none

/-- The host `b` has started. -/
def postStart : AgentEnv where
  hostname := "a"
  interval := true
  configOk := true
  notifyType := "post"
  notifyOperation := "start"
  notifyKeyOperation := "start"
  startUname := ["b"]
  stopUname := [""]
  slaveUname := [""]
  activeUname := ["a"]
  polls := 1
  patience := 1

/-- The last call of the notify action, which sets the score of `b`, ends with `outcome`. -/
def firstNotify (outcome : Outcome) : List PacemakerLabel :=
  .start .notify postStart :: List.replicate 7 (.call .returns) ++ [.call outcome]

theorem alone_safe (score : ℕ) : (alone score).cluster.Safe := by
  intro peer _ hhalf
  simp [alone] at hhalf

theorem peers_ineligible_iff_alone : ∃ this,
    run Pacemaker.step (alone 0) (firstNotify .returns) = some this ∧
    ((∀ n u, run Pacemaker.step (alone 0) ((firstNotify .returns).take n) = some u →
      u.cluster.Safe) ↔ Along Pacemaker.step Zeroed (alone 0) (firstNotify .returns)) := by
  have hrun : (run Pacemaker.step (alone 0) (firstNotify .returns)).isSome = true := by decide
  obtain ⟨this, hthis⟩ := Option.isSome_iff_exists.mp hrun
  exact ⟨this, hthis, peers_ineligible_iff (alone_safe 0) rfl hthis⟩

/-- The first notify action fails to set the score of `b`; later ones do not try again. -/
theorem eligible_after_failed_notify : (alone 100).cluster.Safe ∧ (alone 100).action = none ∧
    ∃ this, run Pacemaker.step (alone 100)
      (firstNotify .fails ++ .start .notify postStart :: List.replicate 4 (.call .returns) ++
        .start .monitor postStart :: List.replicate 5 (.call .returns)) = some this ∧
    this.busy = false ∧ this.cluster.half "b" = true ∧ this.cluster.score "b" = 100 := by
  refine ⟨alone_safe 100, rfl, ?_⟩
  have hrun : (run Pacemaker.step (alone 100)
      (firstNotify .fails ++ .start .notify postStart :: List.replicate 4 (.call .returns) ++
        .start .monitor postStart :: List.replicate 5 (.call .returns))).map
      (fun this => (this.busy, this.cluster.half "b", this.cluster.score "b")) =
      some (false, true, 100) := by decide
  obtain ⟨this, hthis, hvalues⟩ := Option.map_eq_some_iff.mp hrun
  simp only [Prod.mk.injEq] at hvalues
  exact ⟨this, hthis, hvalues⟩

end Pacemaker
end ColoDaemon
