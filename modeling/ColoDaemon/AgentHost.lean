import ColoDaemon.AgentCalls
import Mathlib.Logic.Relation

/-!
# The processes on a host of the resource agent

`qemu_colo_start`, `qemu_colo_stop` and `qemu_colo_demote`, and the one qemu and the one daemon that
all actions start and stop on their host. The processes may end at any time, and only the actions
start them; a call that starts one may fail after it did. A look at a pid file may find a process
where none is, as the file and its pid may be stale, but it does not miss one that runs. Pacemaker
runs one action at a time and may kill it anywhere.
-/

namespace ColoDaemon
namespace AgentHost
open Script

inductive QemuRole
  | dummy
  | secondary
  | primary
  deriving DecidableEq, Repr

/-- `QEMU_LOG` and `QMP_LOG`. -/
inductive Log
  | qemu
  | qmp
  deriving DecidableEq, Repr

/-- `ACTIVE_IMAGE` and `HIDDEN_IMAGE`. -/
inductive Image
  | active
  | hidden
  deriving DecidableEq, Repr

/-- The calls of `qemu_colo_start` that no other action makes. -/
inductive HostCall
  | checkConfig
  | mkdirBaseDir
  | rotateLogfile (log : Log) (numlogs : ℕ)
  | runQemuDummy
  | runQemuSecondary
  | runColod
  | createImage (image : Image)
  deriving DecidableEq, Repr

@[reducible] def HostCall.Answer : HostCall → Type
  | .checkConfig => OcfCode
  | _ => Unit

abbrev Call := AgentCall ⊕ HostCall

abbrev Call.Answer : Call → Type := Sum.elim AgentCall.Answer HostCall.Answer

abbrev HostScript := Script Call Call.Answer

def hostCall (c : HostCall) : HostScript c.Answer := perform (R := Call.Answer) (.inr c)

/-! ### The actions -/

/-- The part of `qemu_colo_start` that finds the size of the parent disk with a qemu of its own. -/
def probeDiskSize (env : AgentEnv) : HostScript Unit := do
  hostCall .runQemuDummy
  hostCall .runColod
  qmpOpen.lift
  let _ ← (agentExecute (.other "query-named-block-nodes")).lift
  let _ ← (qemuColoStop env false false).lift

/-- The QMP commands at the end of `qemu_colo_start`. -/
def setupSecondary : Agent Unit := do
  qmpOpen
  qmpUpdateStore false
  agentExecuteAll [.other "set-yank", .other "set-migration-switchover",
    .other "set-primary-failover", .other "set-secondary-failover"]
  qmpUpdateStore true
  agentExecuteAll [.other "qom-set", .other "migrate-set-capabilities",
    .other "migrate-set-capabilities", .other "migrate-set-parameters", .other "nbd-server-start",
    .other "nbd-server-add", .other "migrate-incoming"]

def qemuColoStart (env : AgentEnv) : HostScript OcfCode := do
  if ← checkRunningPid.lift then pure .success
  else
    let result ← hostCall .checkConfig
    if result ≠ .success then pure result
    else
      hostCall .mkdirBaseDir
      hostCall (.rotateLogfile .qemu 8)
      hostCall (.rotateLogfile .qmp 8)
      probeDiskSize env
      hostCall (.createImage .active)
      hostCall (.createImage .hidden)
      hostCall .runQemuSecondary
      hostCall .runColod
      setupSecondary.lift
      pure .success

def calculateMasterScore (status : AgentStatus) (shutdownGuest : Bool) : Agent Unit :=
  if shutdownGuest then
    if !status.primary && !status.replication then pure ()
    else if !status.primary && status.replication && !status.failed then setMasterScore 10
    else if !status.primary && status.replication && status.failed then setMasterScore 0
    else if status.primary && !status.replication then setMasterScore 11
    else if status.primary && status.replication && !status.failed then setMasterScore 11
    else if status.primary && status.replication && status.failed then setMasterScore 0
    else raised
  else if status.peerFailed then
    if !status.primary && !status.replication then pure ()
    else if !status.primary && status.replication then setMasterScore 10
    else if status.primary && !status.replication then setMasterScore 11
    else if status.primary && status.replication then setMasterScore 11
    else raised
  else
    if !status.primary && !status.replication then pure ()
    else if !status.primary && status.replication then setMasterScore 0
    else if status.primary && !status.replication then setMasterScore 11
    else if status.primary && status.replication then setMasterScore 0
    else raised

/-- `qemu_colo_stop`, around `_qemu_colo_stop`. -/
def qemuColoStopAction (env : AgentEnv) : Agent OcfCode := do
  let status ← attempt do
    qmpOpen
    agentExecute .queryStatus
  let ret ← qemuColoStop env (status.elim true AgentStatus.failed) (envDoShutdownGuest env)
  match status with
  | some status =>
    calculateMasterScore status (envDoShutdownGuest env)
    pure ret
  | none => pure ret

def qemuColoDemote (env : AgentEnv) : HostScript OcfCode := do
  let status ← (qemuColoStopAction env).lift
  if status ≠ .success then pure status else qemuColoStart env

inductive Action
  | start
  | stop
  | demote
  | agent (action : AgentAction)
  deriving DecidableEq, Repr

def Action.script (env : AgentEnv) : Action → HostScript OcfCode
  | .start => qemuColoStart env
  | .stop => (qemuColoStopAction env).lift
  | .demote => qemuColoDemote env
  | .agent action => (action.script env).lift

/-! ### The host -/

structure Host where
  qemu : Option QemuRole
  colod : Bool
  deriving DecidableEq, Repr

def startsQemu : Call → Option QemuRole
  | .inl .runQemuPrimary => some .primary
  | .inr .runQemuDummy => some .dummy
  | .inr .runQemuSecondary => some .secondary
  | _ => none

def startsColod : Call → Bool
  | .inl .runColodPrimary => true
  | .inr .runColod => true
  | _ => false

/-- What the answer of a look at a pid file says. -/
def Sees : (c : Call) → Option c.Answer → Host → Prop
  | .inl (.pidRunning .qemu), some false, h => h.qemu = none
  | .inl (.pidRunning .colod), some false, h => h.colod = false
  | _, _, _ => True

/-- A call may start what it is for, and processes may end meanwhile. It is allowed to start a
process where none runs. -/
def world : World Call Call.Answer Host where
  allows c h := (startsQemu c ≠ none → h.qemu = none) ∧ (startsColod c = true → h.colod = false)
  answers c h answer h' :=
    (h'.qemu = none ∨ h'.qemu = h.qemu ∨ h'.qemu = startsQemu c) ∧
      (h'.colod = true → h.colod = true ∨ startsColod c = true) ∧ Sees c answer h'

/-- What Pacemaker runs on a host, and how the last action ended. -/
structure Site where
  host : Host
  running : Option (Action × HostScript OcfCode)
  last : Option (Action × Option OcfCode)

inductive Site.Step : Site → Site → Prop
  | begin (s : Site) (env : AgentEnv) (action : Action) (h : s.running = none) :
    Step s { s with running := some (action, action.script env), last := none }
  | call (s : Site) (action : Action) (c : Call) (next : Option c.Answer → HostScript OcfCode)
    (answer : Option c.Answer) (host : Host) (h : s.running = some (action, .call c next))
    (ha : world.answers c s.host answer host) :
    Step s { s with host, running := some (action, next answer) }
  | finish (s : Site) (action : Action) (code : OcfCode)
    (h : s.running = some (action, .done code)) :
    Step s { s with running := none, last := some (action, some code) }
  | fail (s : Site) (action : Action) (h : s.running = some (action, .raised)) :
    Step s { s with running := none, last := some (action, none) }
  | kill (s : Site) : Step s { s with running := none, last := none }
  | qemuEnds (s : Site) : Step s { s with host := { s.host with qemu := none } }
  | colodEnds (s : Site) : Step s { s with host := { s.host with colod := false } }

/-! ### Calls that start nothing -/

/-- Processes may have ended. -/
structure Host.Within (h₀ h : Host) : Prop where
  qemu : h.qemu = none ∨ h.qemu = h₀.qemu
  colod : h.colod = true → h₀.colod = true

namespace Host.Within
variable {h₀ h h' : Host}

theorem refl (h : Host) : h.Within h := ⟨.inr rfl, id⟩

theorem trans (hw : h₀.Within h) (hw' : h.Within h') : h₀.Within h' := by
  refine ⟨?_, hw.colod ∘ hw'.colod⟩
  obtain hn | hs := hw'.qemu
  · exact .inl hn
  · rw [hs]
    exact hw.qemu

theorem qemu_none (hw : h₀.Within h) (hn : h₀.qemu = none) : h.qemu = none := by
  obtain h' | h' := hw.qemu
  · exact h'
  · exact h'.trans hn

theorem colod_false (hw : h₀.Within h) (hn : h₀.colod = false) : h.colod = false := by
  by_contra hne
  rw [hw.colod (Bool.not_eq_false _ ▸ hne)] at hn
  cases hn

end Host.Within

def Starts (c : Call) : Prop := startsQemu c ≠ none ∨ startsColod c = true

theorem not_starts {c : Call} (hqemu : startsQemu c = none) (hcolod : startsColod c = false) :
    ¬ Starts c := by
  rintro (h | h)
  · exact h hqemu
  · rw [hcolod] at h
    cases h

variable {h : Host}

theorem answers_within {c : Call} {answer : Option c.Answer} {h' : Host} (hc : ¬ Starts c)
    (ha : world.answers c h answer h') : h.Within h' := by
  obtain ⟨hqemu, hcolod, -⟩ := ha
  have hq : startsQemu c = none := by
    by_contra hne
    exact hc (.inl hne)
  refine ⟨?_, fun hcol => (hcolod hcol).resolve_right fun hs => hc (.inr hs)⟩
  rw [hq] at hqemu
  obtain hn | hs | hn := hqemu
  · exact .inl hn
  · exact .inr hs
  · exact .inl hn

theorem allows_of_not_starts {c : Call} (hc : ¬ Starts c) (h : Host) : world.allows c h :=
  ⟨fun hq => absurd (.inl hq) hc, fun hs => absurd (.inr hs) hc⟩

def Quiet (c : AgentCall) : Prop := ¬ Starts (.inl c)

theorem admits_quiet : Admits Quiet := by
  constructor <;> intros <;> exact not_starts rfl rfl

/-- A script whose calls start nothing. -/
theorem quiet_within {α : Type} {p : Agent α} (hp : p.Calls Quiet) (h : Host) :
    p.Ensures world.left (Ends fun _ h' => h.Within h') h :=
  ensures_calls hp (fun _ h hc _ => allows_of_not_starts hc h)
    (fun _ _ _ _ hc hw ha => hw.trans (answers_within hc ha)) (Host.Within.refl h)

/-! ### Looks at the pid files -/

def Gone : Pidfile → Host → Prop
  | .qemu, h => h.qemu = none
  | .colod, h => h.colod = false

theorem Gone.within {file : Pidfile} {h h' : Host} (hg : Gone file h) (hw : h.Within h') :
    Gone file h' := by
  cases file with
  | qemu => exact hw.qemu_none hg
  | colod => exact hw.colod_false hg

theorem pidRunning_ensures (file : Pidfile) (h : Host) :
    (pidRunning file).Ensures world.left
      (Ends fun running h' => h.Within h' ∧ (running = false → Gone file h')) h := by
  have hc : ¬ Starts (.inl (.pidRunning file)) := admits_quiet.pidRunning file
  refine ensures_perform (allows_of_not_starts hc h) fun answer h' ha => ?_
  have hw : h.Within h' := answers_within hc ha
  rintro running rfl
  refine ⟨hw, ?_⟩
  rintro rfl
  cases file with
  | qemu => exact ha.2.2
  | colod => exact ha.2.2

theorem checkRunningPid_ensures (h : Host) : checkRunningPid.Ensures world.left
    (Ends fun running h' => h.Within h' ∧ (running = false → h'.qemu = none ∧ h'.colod = false))
    h := by
  refine ensures_seq (ensures_imp (pidRunning_ensures .qemu h) fun running h' hq => ?_)
  refine ensures_ite (fun _ => ensures_pure ⟨hq.1, fun hf => by cases hf⟩) fun hrun => ?_
  refine ensures_imp (pidRunning_ensures .colod h') fun running' h'' hc => ?_
  have hgone := hq.2 (by simpa using hrun)
  exact ⟨hq.1.trans hc.1, fun hf => ⟨hc.1.qemu_none hgone, hc.2 hf⟩⟩

/-! ### The stop -/

theorem awaitStopped_ensures (file : Pidfile) (patience : ℕ) (h : Host) :
    (awaitStopped file patience).Ensures world.left
      (Ends fun _ h' => h.Within h' ∧ Gone file h') h := by
  induction patience generalizing h with
  | zero => exact ensures_raised
  | succ patience ih =>
    refine ensures_seq (ensures_imp (pidRunning_ensures file h) fun running h' hq => ?_)
    refine ensures_ite (fun _ => ?_) fun hrun => ?_
    · exact ensures_imp (ih h') fun _ h'' hr => ⟨hq.1.trans hr.1, hr.2⟩
    · exact ensures_pure ⟨hq.1, hq.2 (by simpa using hrun)⟩

theorem waitStopped_ensures (polls : ℕ) (h : Host) :
    (waitStopped .qemu polls).Ensures world.left
      (Ends fun ended h' => ended = true → h'.qemu = none) h := by
  induction polls generalizing h with
  | zero => exact ensures_pure fun hf => by cases hf
  | succ polls ih =>
    refine ensures_seq (ensures_imp (pidRunning_ensures .qemu h) fun running h' hq => ?_)
    refine ensures_ite (fun _ => ih h') fun hrun => ?_
    exact ensures_pure fun _ => hq.2 (by simpa using hrun)

theorem waitPowerdown_ensures (polls : ℕ) (h : Host) :
    (waitPowerdown polls).Ensures world.left
      (Ends fun ended h' => ended = true → h'.qemu = none) h := by
  induction polls generalizing h with
  | zero => exact ensures_pure fun hf => by cases hf
  | succ polls ih =>
    refine ensures_seq (ensures_imp (pidRunning_ensures .qemu h) fun running h' hq => ?_)
    refine ensures_ite (fun _ => ?_) fun hrun => ?_
    · refine ensures_seq (ensures_imp (quiet_within (admits_quiet.execute _) h') fun _ h'' _ => ?_)
      exact ensures_ite (fun _ => ensures_pure fun hf => by cases hf) fun _ => ih h''
    · exact ensures_pure fun _ => hq.2 (by simpa using hrun)

theorem stopQemuCleanly_ensures (env : AgentEnv) (failed shutdownGuest : Bool) (h : Host) :
    (stopQemuCleanly env failed shutdownGuest).Ensures world.left
      (Ends fun ended h' => ended = true → h'.qemu = none) h := by
  have hshutdown : ∀ h, (shutdownQemu env shutdownGuest).Ensures world.left
      (Ends fun ended h' => ended = true → h'.qemu = none) h := by
    intro h
    refine ensures_ite (fun _ => ?_) fun _ => ensures_pure fun hf => by cases hf
    refine ensures_seq (ensures_imp (quiet_within (admits_quiet.executeAll _) h) fun _ h' _ => ?_)
    exact waitPowerdown_ensures _ h'
  refine ensures_ite (fun _ => ensures_pure fun hf => by cases hf) fun _ => ?_
  refine ensures_seq (ensures_imp (quiet_within (calls_perform admits_quiet.connect) h)
    fun _ h' _ => ?_)
  refine ensures_seq (ensures_imp (hshutdown h') fun ended h'' hended => ?_)
  refine ensures_ite (fun he => ensures_pure fun _ => hended he) fun _ => ?_
  refine ensures_seq (ensures_imp (quiet_within (admits_quiet.executeAll _) h'') fun _ h₃ _ => ?_)
  exact waitStopped_ensures _ h₃

/-- However it ended: `stop_qemu` returns when no qemu runs. -/
theorem stopQemu_ensures (env : AgentEnv) (failed shutdownGuest : Bool) (h : Host) :
    (stopQemu env failed shutdownGuest).Ensures world.left (Ends fun _ h' => h'.qemu = none) h := by
  refine ensures_seq (ensures_imp (pidRunning_ensures .qemu h) fun running h' hq => ?_)
  refine ensures_ite (fun _ => ?_) fun hrun => ensures_pure (hq.2 (by simpa using hrun))
  refine ensures_seq (ensures_attempt ?_)
  refine ensures_mono (stopQemuCleanly_ensures env failed shutdownGuest h') fun r h'' hr => ?_
  refine ends_some ?_
  refine ensures_ite (fun hended => ensures_pure (hr true hended rfl)) fun _ => ?_
  refine ensures_seq (ensures_imp (pidRunning_ensures .qemu h'') fun running h₃ hq => ?_)
  refine ensures_ite (fun _ => ?_) fun hrun => ensures_pure (hq.2 (by simpa using hrun))
  refine ensures_seq (ensures_attempt (ensures_mono
    (quiet_within (calls_perform admits_quiet.kill) h₃) fun _ h₄ _ => ends_some ?_))
  refine ensures_seq (ensures_imp (awaitStopped_ensures .qemu _ h₄) fun _ h₅ hg => ?_)
  exact ensures_pure hg.2

theorem qemuColoStop_ensures (env : AgentEnv) (failed shutdownGuest : Bool) (h : Host) :
    (qemuColoStop env failed shutdownGuest).Ensures world.left
      (Ends fun _ h' => h'.qemu = none ∧ h'.colod = false) h := by
  refine ensures_seq (ensures_imp (quiet_within admits_quiet.autoquitColod h) fun _ h' _ => ?_)
  refine ensures_seq (ensures_imp (stopQemu_ensures env _ _ h') fun result h'' hq => ?_)
  refine ensures_seq (ensures_imp (awaitStopped_ensures .colod _ h'') fun _ h₃ hg => ?_)
  exact ensures_pure ⟨hg.1.qemu_none hq, hg.2⟩

/-! ### The actions -/

theorem calculateMasterScore_eq (status : AgentStatus) (shutdownGuest : Bool) :
    calculateMasterScore status shutdownGuest =
      if status.primary || status.replication then
        setMasterScore (if status.primary && !status.replication then 11
          else if shutdownGuest then
            if status.failed then 0 else if status.primary then 11 else 10
          else if status.peerFailed then if status.primary then 11 else 10 else 0)
      else pure () := by
  obtain ⟨primary, replication, failed, peerFailed⟩ := status
  cases primary <;> cases replication <;> cases failed <;> cases peerFailed <;>
    cases shutdownGuest <;> rfl

theorem quiet_calculateMasterScore (status : AgentStatus) (shutdownGuest : Bool) :
    (calculateMasterScore status shutdownGuest).Calls Quiet := by
  rw [calculateMasterScore_eq]
  exact calls_ite (calls_perform (admits_quiet.crmMaster _)) (calls_pure ())

theorem qemuColoStopAction_ensures (env : AgentEnv) (h : Host) :
    (qemuColoStopAction env).Ensures world.left
      (Ends fun _ h' => h'.qemu = none ∧ h'.colod = false) h := by
  have hstatus : (do qmpOpen; agentExecute .queryStatus : Agent AgentStatus).Calls Quiet :=
    calls_bind (calls_perform admits_quiet.connect) fun _ => admits_quiet.execute _
  refine ensures_seq (ensures_attempt (ensures_mono (quiet_within hstatus h)
    fun status h' _ => ends_some ?_))
  refine ensures_seq (ensures_imp (qemuColoStop_ensures env _ _ h') fun ret h'' hg => ?_)
  cases status with
  | none => exact ensures_pure hg
  | some status =>
    refine ensures_seq (ensures_imp (quiet_within (quiet_calculateMasterScore _ _) h'')
      fun _ h₃ hw => ?_)
    exact ensures_pure ⟨hw.qemu_none hg.1, hw.colod_false hg.2⟩

/-- A call of `qemu_colo_start` alone that starts nothing. -/
theorem hostCall_within {c : HostCall} (hc : ¬ Starts (.inr c)) (h : Host) :
    (hostCall c).Ensures world (Ends fun _ h' => h.Within h') h := by
  refine ensures_perform (allows_of_not_starts hc h) fun answer h' ha => ?_
  rintro a rfl
  exact answers_within hc ha

/-- Starting qemu where no process runs. -/
theorem runQemu_answers {c : Call} {role : QemuRole} (hc : startsQemu c = some role)
    (hstarts : startsColod c = false) {h h' : Host} (hqemu : h.qemu = none)
    (hcolod : h.colod = false) {answer : Option c.Answer} (ha : world.answers c h answer h') :
    (h'.qemu = none ∨ h'.qemu = some role) ∧ h'.colod = false := by
  constructor
  · obtain hn | hs | hr := ha.1
    · exact .inl hn
    · exact .inl (hs.trans hqemu)
    · exact .inr (hr.trans hc)
  · by_contra hne
    obtain hs | hs := ha.2.1 (by simpa using hne)
    · rw [hcolod] at hs
      cases hs
    · rw [hstarts] at hs
      cases hs

theorem runQemu_ensures {c : HostCall} {role : QemuRole} (hc : startsQemu (.inr c) = some role)
    (hstarts : startsColod (.inr c) = false) {h : Host} (hqemu : h.qemu = none)
    (hcolod : h.colod = false) : (hostCall c).Ensures world
      (Ends fun _ h' => (h'.qemu = none ∨ h'.qemu = some role) ∧ h'.colod = false) h := by
  refine ensures_perform ⟨fun _ => hqemu, fun hs => absurd (hstarts.symm.trans hs) (by decide)⟩
    fun answer h' ha => ?_
  rintro a rfl
  exact runQemu_answers hc hstarts hqemu hcolod ha

theorem runColod_ensures {h : Host} (hcolod : h.colod = false) :
    (hostCall .runColod).Ensures world
      (Ends fun _ h' => h'.qemu = none ∨ h'.qemu = h.qemu) h := by
  refine ensures_perform ⟨fun hs => absurd rfl hs, fun _ => hcolod⟩ fun answer h' ha => ?_
  rintro a rfl
  obtain hn | hs | hn := ha.1
  · exact .inl hn
  · exact .inr hs
  · exact .inl hn

theorem probeDiskSize_ensures (env : AgentEnv) {h : Host} (hqemu : h.qemu = none)
    (hcolod : h.colod = false) : (probeDiskSize env).Ensures world
      (Ends fun _ h' => h'.qemu = none ∧ h'.colod = false) h := by
  refine ensures_seq (ensures_imp (runQemu_ensures rfl rfl hqemu hcolod) fun _ h₁ hdummy => ?_)
  refine ensures_seq (ensures_imp (runColod_ensures hdummy.2) fun _ h₂ _ => ?_)
  refine ensures_seq (ensures_lift (ensures_imp
    (quiet_within (calls_perform admits_quiet.connect) h₂) fun _ h₃ _ => ?_))
  refine ensures_seq (ensures_lift (ensures_imp
    (quiet_within (admits_quiet.execute _) h₃) fun _ h₄ _ => ?_))
  refine ensures_seq (ensures_lift (ensures_imp (qemuColoStop_ensures env _ _ h₄)
    fun _ h₅ hg => ?_))
  exact ensures_pure hg

theorem quiet_setupSecondary : setupSecondary.Calls Quiet := by
  refine calls_bind (calls_perform admits_quiet.connect) fun _ => ?_
  refine calls_bind (admits_quiet.qmpUpdateStore false) fun _ => ?_
  refine calls_bind (admits_quiet.executeAll _) fun _ => ?_
  refine calls_bind (admits_quiet.qmpUpdateStore true) fun _ => ?_
  exact admits_quiet.executeAll _

/-- Whatever `qemu_colo_start` leaves running is a secondary, unless it was running before. -/
theorem qemuColoStart_ensures (env : AgentEnv) (h : Host) : (qemuColoStart env).Ensures world
    (Ends fun _ h' => h'.qemu = none ∨ h'.qemu = some .secondary ∨ h'.qemu = h.qemu) h := by
  refine ensures_seq (ensures_lift (ensures_imp (checkRunningPid_ensures h)
    fun running h₁ hrun => ?_))
  have hbefore : h₁.qemu = none ∨ h₁.qemu = some .secondary ∨ h₁.qemu = h.qemu :=
    hrun.1.qemu.imp_right .inr
  refine ensures_ite (fun _ => ensures_pure hbefore) fun hfalse => ?_
  obtain ⟨hqemu₁, hcolod₁⟩ := hrun.2 (by simpa using hfalse)
  refine ensures_seq (ensures_imp (hostCall_within (not_starts rfl rfl) h₁)
    fun result h₂ hw₂ => ?_)
  refine ensures_ite (fun _ => ensures_pure (.inl (hw₂.qemu_none hqemu₁))) fun _ => ?_
  refine ensures_seq (ensures_imp (hostCall_within (not_starts rfl rfl) h₂)
    fun _ h₃ hw₃ => ?_)
  refine ensures_seq (ensures_imp (hostCall_within (not_starts rfl rfl) h₃)
    fun _ h₄ hw₄ => ?_)
  refine ensures_seq (ensures_imp (hostCall_within (not_starts rfl rfl) h₄)
    fun _ h₅ hw₅ => ?_)
  have hw := ((hw₂.trans hw₃).trans hw₄).trans hw₅
  refine ensures_seq (ensures_imp (probeDiskSize_ensures env (hw.qemu_none hqemu₁)
    (hw.colod_false hcolod₁)) fun _ h₆ hg₆ => ?_)
  refine ensures_seq (ensures_imp (hostCall_within (not_starts rfl rfl) h₆)
    fun _ h₇ hw₇ => ?_)
  refine ensures_seq (ensures_imp (hostCall_within (not_starts rfl rfl) h₇)
    fun _ h₈ hw₈ => ?_)
  have hw' := hw₇.trans hw₈
  refine ensures_seq (ensures_imp (runQemu_ensures rfl rfl (hw'.qemu_none hg₆.1)
    (hw'.colod_false hg₆.2)) fun _ h₉ hsecondary => ?_)
  refine ensures_seq (ensures_imp (runColod_ensures hsecondary.2) fun _ h₁₀ hq => ?_)
  refine ensures_seq (ensures_lift (ensures_imp (quiet_within quiet_setupSecondary h₁₀)
    fun _ h₁₁ hw₁₁ => ?_))
  refine ensures_pure ?_
  have hend : h₁₁.qemu = none ∨ h₁₁.qemu = h₉.qemu := by
    obtain hn | hs := hw₁₁.qemu
    · exact .inl hn
    · rw [hs]
      exact hq
  obtain hn | hs := hend
  · exact .inl hn
  · rw [hs]
    exact hsecondary.1.imp_right .inl

theorem qemuColoDemote_ensures (env : AgentEnv) (h : Host) : (qemuColoDemote env).Ensures world
    (Ends fun _ h' => h'.qemu = none ∨ h'.qemu = some .secondary) h := by
  refine ensures_seq (ensures_lift (ensures_imp (qemuColoStopAction_ensures env h)
    fun status h' hg => ?_))
  refine ensures_ite (fun _ => ensures_pure (.inl hg.1)) fun _ => ?_
  refine ensures_imp (qemuColoStart_ensures env h') fun _ h'' hq => ?_
  obtain hn | hs | hsame := hq
  · exact .inl hn
  · exact .inr hs
  · exact .inl (hsame.trans hg.1)

theorem promoteFresh_ensures (env : AgentEnv) (h : Host) :
    (promoteFresh env).Ensures world.left (Ends fun _ _ => True) h := by
  refine ensures_seq (ensures_imp (qemuColoStop_ensures env _ _ h) fun stopped h₁ hg => ?_)
  refine ensures_ite (fun _ => ensures_pure trivial) fun _ => ?_
  refine ensures_seq (ensures_perform ⟨fun _ => hg.1, fun hs => by cases hs⟩ fun r h₂ ha => ?_)
  have hprimary := runQemu_answers rfl rfl hg.1 hg.2 ha
  rintro _ -
  refine ensures_seq (ensures_perform ⟨fun hs => absurd rfl hs, fun _ => hprimary.2⟩
    fun r h₃ _ => ?_)
  rintro _ -
  have hrest : (do
      setMasterScore 101
      qmpOpen
      setupColod
      promotePeer env : Agent OcfCode).Calls Quiet := by
    refine calls_bind (calls_perform (admits_quiet.crmMaster _)) fun _ => ?_
    refine calls_bind (calls_perform admits_quiet.connect) fun _ => ?_
    exact calls_bind admits_quiet.setupColod fun _ => admits_quiet.promotePeer env
  exact ensures_imp (quiet_within hrest h₃) fun _ _ _ => trivial

theorem qemuColoPromote_ensures (env : AgentEnv) (h : Host) :
    (qemuColoPromote env).Ensures world.left (Ends fun _ _ => True) h := by
  refine ensures_seq (ensures_imp (quiet_within (calls_perform admits_quiet.connect) h)
    fun _ h₁ _ => ?_)
  refine ensures_seq (ensures_imp (quiet_within (admits_quiet.execute _) h₁) fun status h₂ _ => ?_)
  refine ensures_seq (ensures_imp (quiet_within (admits_quiet.execute _) h₂) fun _ h₃ _ => ?_)
  refine ensures_ite (fun _ => ensures_pure trivial) fun _ => ?_
  refine ensures_ite (fun _ => ?_) fun _ => ?_
  · exact ensures_ite (fun _ => promoteFresh_ensures env h₃) fun _ => ensures_pure trivial
  · have hrest : (do
        qmpOpen
        awaitPromotion env.patience
        qmpUpdateStore false
        setMasterScore 101
        promotePeer env : Agent OcfCode).Calls Quiet := by
      refine calls_bind (calls_perform admits_quiet.connect) fun _ => ?_
      refine calls_bind (admits_quiet.awaitPromotion _) fun _ => ?_
      refine calls_bind (admits_quiet.qmpUpdateStore false) fun _ => ?_
      refine calls_bind (calls_perform (admits_quiet.crmMaster _)) fun _ => ?_
      exact admits_quiet.promotePeer env
    exact ensures_imp (quiet_within hrest h₃) fun _ _ _ => trivial

/-- What runs on the host when an action has returned. -/
def Leaves : Action → Host → Prop
  | .stop, h => h.qemu = none ∧ h.colod = false
  | .demote, h => h.qemu = none ∨ h.qemu = some .secondary
  | _, _ => True

theorem script_ensures (env : AgentEnv) (action : Action) (h : Host) :
    (action.script env).Ensures world (Ends fun _ => Leaves action) h := by
  cases action with
  | start => exact ensures_imp (qemuColoStart_ensures env h) fun _ _ _ => trivial
  | stop => exact ensures_lift (qemuColoStopAction_ensures env h)
  | demote => exact qemuColoDemote_ensures env h
  | agent action =>
    cases action with
    | monitor =>
      exact ensures_lift (ensures_imp (quiet_within (admits_quiet.monitor env) h)
        fun _ _ _ => trivial)
    | notify =>
      exact ensures_lift (ensures_imp (quiet_within (admits_quiet.notify env) h)
        fun _ _ _ => trivial)
    | promote => exact ensures_lift (qemuColoPromote_ensures env h)

/-! ### The site -/

theorem Leaves.within {action : Action} {h h' : Host} (hl : Leaves action h) (hw : h.Within h') :
    Leaves action h' := by
  cases action with
  | stop => exact ⟨hw.qemu_none hl.1, hw.colod_false hl.2⟩
  | demote =>
    obtain hn | hs := hw.qemu
    · exact .inl hn
    · exact hl.imp hs.trans hs.trans
  | start | agent => trivial

/-- A process that ends between two calls could as well have ended during the second. -/
theorem ensures_within {action : Action} {script : HostScript OcfCode} {h h' : Host}
    (hs : script.Ensures world (Ends fun _ => Leaves action) h) (hw : h.Within h') :
    script.Ensures world (Ends fun _ => Leaves action) h' := by
  cases script with
  | done code => exact ends_some ((hs code rfl).within hw)
  | raised => exact ends_none
  | call c next =>
    refine ⟨⟨fun hq => hw.qemu_none (hs.1.1 hq), fun hc => hw.colod_false (hs.1.2 hc)⟩,
      fun answer h'' ha => hs.2 answer h'' ⟨?_, fun hc => ?_, ha.2.2⟩⟩
    · obtain hn | hsame | hstart := ha.1
      · exact .inl hn
      · rw [hsame]
        exact hw.qemu.imp_right .inl
      · exact .inr (.inr hstart)
    · exact (ha.2.1 hc).imp_left hw.colod

structure Site.Sound (s : Site) : Prop where
  running : ∀ action script, s.running = some (action, script) →
    script.Ensures world (Ends fun _ => Leaves action) s.host
  idle : s.running ≠ none → s.last = none
  last : ∀ action code, s.last = some (action, some code) → Leaves action s.host

theorem Site.Sound.step {s t : Site} (hs : s.Sound) (hstep : s.Step t) : t.Sound := by
  cases hstep with
  | begin env action h =>
    refine ⟨fun a script hr => ?_, fun _ => rfl, fun a code hl => by cases hl⟩
    obtain ⟨rfl, rfl⟩ := Prod.mk.inj (Option.some.inj hr)
    exact script_ensures env action s.host
  | call action c next answer host h ha =>
    have hlast : s.last = none := hs.idle (by simp [h])
    refine ⟨fun a script hr => ?_, fun _ => hlast, fun a code hl => ?_⟩
    · obtain ⟨rfl, rfl⟩ := Prod.mk.inj (Option.some.inj hr)
      exact (hs.running _ _ h).2 answer host ha
    · rw [hlast] at hl
      cases hl
  | finish action code h =>
    refine ⟨fun a script hr => (by cases hr), fun hr => absurd rfl hr, fun a code' hl => ?_⟩
    obtain ⟨rfl, -⟩ := Prod.mk.inj (Option.some.inj hl)
    exact hs.running _ _ h code rfl
  | fail action h =>
    refine ⟨fun a script hr => (by cases hr), fun hr => absurd rfl hr, fun a code hl => ?_⟩
    cases (Prod.mk.inj (Option.some.inj hl)).2
  | kill =>
    exact ⟨fun a script hr => (by cases hr), fun hr => absurd rfl hr,
      fun a code hl => (by cases hl)⟩
  | qemuEnds =>
    have hw : s.host.Within { s.host with qemu := none } := ⟨.inl rfl, id⟩
    exact ⟨fun a script hr => ensures_within (hs.running a script hr) hw, hs.idle,
      fun a code hl => (hs.last a code hl).within hw⟩
  | colodEnds =>
    have hw : s.host.Within { s.host with colod := false } := ⟨.inr rfl, fun hf => by cases hf⟩
    exact ⟨fun a script hr => ensures_within (hs.running a script hr) hw, hs.idle,
      fun a code hl => (hs.last a code hl).within hw⟩

/-- Whatever runs at first, as long as it is no action. -/
def Site.new (host : Host) : Site where
  host := host
  running := none
  last := none

theorem Site.sound_of_run {host : Host} {s : Site}
    (h : Relation.ReflTransGen Site.Step (Site.new host) s) : s.Sound := by
  induction h with
  | refl =>
    exact ⟨fun a script hr => (by cases hr), fun hr => absurd rfl hr,
      fun a code hl => (by cases hl)⟩
  | tail _ hstep ih => exact ih.step hstep

/-- Over all runs of actions, killed or not, with whatever fails or ends: no action starts a qemu
while one runs on the host, nor a daemon while one runs. -/
theorem starts_one {host : Host} {s : Site}
    (h : Relation.ReflTransGen Site.Step (Site.new host) s) {action : Action} {c : Call}
    {next : Option c.Answer → HostScript OcfCode} (hr : s.running = some (action, .call c next)) :
    (∀ role, startsQemu c = some role → s.host.qemu = none) ∧
      (startsColod c = true → s.host.colod = false) := by
  have hallows := ((Site.sound_of_run h).running _ _ hr).1
  exact ⟨fun role hrole => hallows.1 (by simp [hrole]), hallows.2⟩

def someEnv : AgentEnv where
  hostname := "a"
  interval := false
  configOk := true
  notifyType := ""
  notifyOperation := ""
  notifyKeyOperation := ""
  startUname := [""]
  stopUname := [""]
  slaveUname := [""]
  activeUname := [""]
  polls := 1
  patience := 1

/-- A call that changes nothing on the host. -/
theorem Site.run_call {s₀ s : Site} (h : Relation.ReflTransGen Site.Step s₀ s) {action : Action}
    (c : Call) (answer : Option c.Answer) {next : Option c.Answer → HostScript OcfCode}
    (hr : s.running = some (action, .call c next)) (hs : Sees c answer s.host) :
    Relation.ReflTransGen Site.Step s₀ { s with running := some (action, next answer) } :=
  h.tail (.call s action c next answer s.host hr ⟨.inr (.inl rfl), .inl, hs⟩)

/-- `qemu_colo_start` on a host where nothing runs, at its first qemu. -/
theorem starts_one_dummy : ∃ s next,
    Relation.ReflTransGen Site.Step (Site.new ⟨none, false⟩) s ∧
      s.running = some (.start, .call (.inr .runQemuDummy) next) ∧ s.host.qemu = none := by
  have hbegin := Relation.ReflTransGen.single
    (Site.Step.begin (Site.new ⟨none, false⟩) someEnv .start rfl)
  have hqemu := Site.run_call hbegin (.inl (.pidRunning .qemu)) (some false) rfl rfl
  have hcolod := Site.run_call hqemu (.inl (.pidRunning .colod)) (some false) rfl rfl
  have hconfig := Site.run_call hcolod (.inr .checkConfig) (some OcfCode.success) rfl trivial
  have hmkdir := Site.run_call hconfig (.inr .mkdirBaseDir) (some ()) rfl trivial
  have hlog := Site.run_call hmkdir (.inr (.rotateLogfile .qemu 8)) (some ()) rfl trivial
  have hready := Site.run_call hlog (.inr (.rotateLogfile .qmp 8)) (some ()) rfl trivial
  exact ⟨_, _, hready, rfl, (starts_one hready rfl).1 .dummy rfl⟩

/-- From the time `qemu_colo_stop` returned until the next action neither qemu nor a daemon runs on
the host, and after `qemu_colo_demote` no qemu but a secondary. -/
theorem returned_leaves {host : Host} {s : Site}
    (h : Relation.ReflTransGen Site.Step (Site.new host) s) {action : Action} {code : OcfCode}
    (hl : s.last = some (action, some code)) :
    (action = .stop → s.host.qemu = none ∧ s.host.colod = false) ∧
      (action = .demote → s.host.qemu = none ∨ s.host.qemu = some .secondary) := by
  have hleaves := (Site.sound_of_run h).last _ _ hl
  refine ⟨?_, ?_⟩
  · rintro rfl
    exact hleaves
  · rintro rfl
    exact hleaves

/-- `qemu_colo_stop` on a host where nothing runs, and with no helper socket. -/
theorem returned_leaves_stop : ∃ s, Relation.ReflTransGen Site.Step (Site.new ⟨none, false⟩) s ∧
    s.last = some (.stop, some .success) ∧ s.host.qemu = none ∧ s.host.colod = false := by
  have hbegin := Relation.ReflTransGen.single
    (Site.Step.begin (Site.new ⟨none, false⟩) someEnv .stop rfl)
  have hstatus := Site.run_call hbegin (.inl .connect) none rfl trivial
  have hauto := Site.run_call hstatus (.inl (.pidRunning .colod)) (some false) rfl rfl
  have hqemu := Site.run_call hauto (.inl (.pidRunning .qemu)) (some false) rfl rfl
  have hcolod := Site.run_call hqemu (.inl (.pidRunning .colod)) (some false) rfl rfl
  have hdone := hcolod.tail (.finish _ .stop .success rfl)
  exact ⟨_, hdone, rfl, (returned_leaves hdone rfl).1 rfl⟩

end AgentHost
end ColoDaemon
