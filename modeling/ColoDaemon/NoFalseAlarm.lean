import ColoDaemon.HealthCheck

/-!
# False alarms of the health check

A check asks in two exchanges, so that `RESUME` may come between the answers. The main coroutine
then moves on before the check compares, which reports a mismatch. `Timely` is what a schedule must
keep to: then every check agrees, and otherwise one of them fails.
-/

namespace ColoDaemon
open Runs

section Channel
variable {C E A : Type*} {d : QmpDialect C E A} {this u : ColodQmpState C E A} {co : QmpCo}

/-- A call of `__qmp_execute_co` on the main channel is about `command`. -/
def ColodQmpState.Asks (this : ColodQmpState C E A) (co : QmpCo) (command : C) :
    ExecutePoint C → Prop
  | .lock command' => command' = command
  | .write command' => command' = command
  | .read number => (this.channel .channel).written[number]? = some (co, command)
  | .idle number => (this.channel .channel).written[number]? = some (co, command)

/-- A caller on the main channel goes on with its command or reads the line that it waits for. -/
theorem runCo_executing {yank : Bool} {point : ExecutePoint C}
    (htask : this.task co = .executing yank point) (h : runCo d this co = some u) :
    (∃ point', u.task co = .executing yank point' ∧ u.returned = this.returned ∧
      (∀ command, this.Asks co command point → u.Asks co command point') ∧
      ∀ number line rest, point = .read number → (this.channel .channel).unread = line :: rest →
        line.awaited? = none) ∨
    (∃ number line rest, point = .read number ∧ line.awaited? ≠ none ∧
      (this.channel .channel).unread = line :: rest ∧ u.task co = .off ∧
      u.returned = this.returned ++ [⟨.channel, co, number, line⟩] ∧
      u.notified = this.notified) := by
  rw [runCo, htask] at h
  dsimp only at h
  cases point with
  | lock command =>
    refine .inl ?_
    simp only [qmpExecuteCo] at h
    by_cases havailable : (this.channel .channel).lock.Available co
    · rw [if_pos havailable, Option.some.injEq] at h
      refine ⟨.write command, ?_, ?_, fun _ => id, by simp⟩
      · rw [← h, task_become]
      · rw [← h]
        rfl
    · rw [if_neg havailable, Option.some.injEq] at h
      refine ⟨.lock command, ?_, ?_, fun _ => id, by simp⟩
      · rw [← h, task_become]
      · rw [← h]
        rfl
  | write command =>
    refine .inl ?_
    simp only [qmpExecuteCo, Option.some.injEq] at h
    refine ⟨.read (this.channel .channel).written.length, ?_, ?_, ?_, by simp⟩
    · rw [← h, task_become]
    · rw [← h]
      rfl
    · intro command' hcommand
      rw [show command = command' from hcommand] at h
      rw [← h]
      simp [ColodQmpState.Asks, ColodQmpState.become, channel_setChannel, QmpChannel.write]
  | idle number =>
    refine .inl ?_
    simp only [qmpExecuteCo, Option.some.injEq] at h
    refine ⟨.read number, ?_, ?_, ?_, by simp⟩
    · rw [← h, task_become]
    · rw [← h]
      rfl
    · intro command hcommand
      rw [← h]
      exact hcommand
  | read number =>
    simp only [qmpExecuteCo] at h
    cases hread : qmpReadLineCo this .channel with
    | none =>
      rw [hread] at h
      exact absurd h (by simp)
    | some p =>
      obtain ⟨l, v⟩ := p
      rw [hread] at h
      obtain ⟨e, rest, rfl, hunread, hv⟩ | ⟨line, rest, rfl, hline, hunread, hv⟩ :=
        readLine_cases hread
      · refine .inl ⟨.idle number, ?_, ?_, ?_, ?_⟩
        · simp only [ChannelName.discardEvents, Bool.false_eq_true, if_false,
            Option.some.injEq] at h
          rw [← h, task_become]
        · simp only [Option.some.injEq] at h
          rw [← h, hv]
          exact (notifyEvent_fields _ _ e).2.2.2
        · intro command hcommand
          simp only [Option.some.injEq] at h
          rw [← h]
          simp only [ColodQmpState.Asks, ColodQmpState.become, hv,
            (notifyEvent_fields _ ChannelName.channel e).1, channel_setChannel]
          exact hcommand
        · intro number' line rest' _ hunread'
          rw [hunread] at hunread'
          rw [← (List.cons.inj hunread').1]
          rfl
      · simp only [Option.some.injEq] at h
        refine .inr ⟨number, line, rest, rfl, hline, hunread, ?_, ?_, ?_⟩
        · rw [← h, task_become]
        · rw [← h, hv]
          rfl
        · rw [← h, hv]
          rfl

end Channel

/-! ### The main coroutine on its way -/

section Move

/-- Where the main coroutine is between waiting for `RESUME` and running in COLO. -/
inductive Daemon.MovePhase (s : Daemon) : Bool → Prop
  | waiting (hpc : s.pc = .qmpWait .secondaryWait false) (hcurrent : s.loop.current = none)
      (hreplication : s.replication = false) (hsources : s.resumeSources = 0) : MovePhase s false
  | fired (hpc : s.pc = .qmpWait .secondaryWait true) (hcurrent : s.loop.current = none)
      (hreplication : s.replication = false) (hsources : s.resumeSources = 1) : MovePhase s true
  | resumed (hpc : s.pc = .qmpWait .secondaryWait true) (hcurrent : s.loop.current ≠ none)
      (hreplication : s.replication = false) (hsources : s.resumeSources = 0) : MovePhase s true
  | entering (hpc : s.pc = .enter .secondaryColoRunning) (hcurrent : s.loop.current ≠ none)
      (hsources : s.resumeSources = 0) : MovePhase s true
  | moved (hpc : s.pc = .eventWait .coloRunning) (hreplication : s.replication = true)
      (hsources : s.resumeSources = 0) : MovePhase s true

structure Daemon.Moves (s : Daemon) (heard : Bool) : Prop where
  phase : s.MovePhase heard
  state : s.state = .secondaryWait ∨ s.state = .secondaryColoRunning
  sequence : s.loop.queue.sequence = []
  wakeSources : s.loop.wakeSources = []
  primary : s.primary = false
  transitioning : s.transitioning = false
  qmpError : s.qmpError = false
  didYank : s.didYank = false

variable {s t : Daemon} {heard : Bool}

theorem Daemon.Waits.moves (h : s.Waits) : s.Moves false where
  phase := .waiting h.pc h.current h.replication h.resumeSources
  state := .inl h.state
  sequence := h.sequence
  wakeSources := h.wakeSources
  primary := h.primary
  transitioning := h.transitioning
  qmpError := h.qmpError
  didYank := h.didYank

/-- The raise coroutine has no part in the move. -/
theorem Daemon.Moves.raise (h : s.Moves heard) (timeout : ℕ) (raise : Option RaisePc) :
    { s with timeout := timeout, raise := raise }.Moves heard := by
  obtain ⟨hphase, hstate, hsequence, hwake, hprimary, htransitioning, herror, hyank⟩ := h
  refine ⟨?_, hstate, hsequence, hwake, hprimary, htransitioning, herror, hyank⟩
  cases hphase with
  | waiting hpc hcurrent hrep hsources => exact .waiting hpc hcurrent hrep hsources
  | fired hpc hcurrent hrep hsources => exact .fired hpc hcurrent hrep hsources
  | resumed hpc hcurrent hrep hsources => exact .resumed hpc hcurrent hrep hsources
  | entering hpc hcurrent hsources => exact .entering hpc hcurrent hsources
  | moved hpc hrep hsources => exact .moved hpc hrep hsources

/-- A callback runs while the main coroutine is suspended. -/
theorem callback_of_step {label : Label} (h : ColoDaemon.step s label = some t)
    (hdispatch : ∀ source, label ≠ .dispatch source) (hrun : label ≠ .run)
    (hio : ∀ x, label ≠ .io x) : s.running = false ∧ s.callback label = some t := by
  rcases step_cases h with h | ⟨source, hl, -⟩ | ⟨hl, -⟩ | ⟨x, hl, -⟩
  · exact h
  · exact absurd hl (hdispatch source)
  · exact absurd hl hrun
  · exact absurd hl (hio x)

/-- A quiet event resumes the waits that it matches and touches the raise coroutine at most. -/
theorem notifyEvent_quiet {event : QmpEvent} (hquiet : event.quiet = true)
    (hstate : s.state ≠ .primaryStartMigration) :
    ∃ timeout raise, notifyEvent s event = { mainWaitEventCb s event with timeout, raise } := by
  have hwait : ∀ u : Daemon, ∃ raise, raiseWaitEventCb u event = { u with raise } := by
    intro u
    unfold raiseWaitEventCb
    split
    · exact ⟨_, rfl⟩
    · exact ⟨_, rfl⟩
    · exact ⟨u.raise, rfl⟩
  have hcb : ∀ u : Daemon, u.state ≠ .primaryStartMigration →
      ∃ timeout raise, colodQmpEventCb u event = { u with timeout, raise } := by
    intro u hu
    cases event with
    | quorumReportBad nodeName type => exact absurd hquiet (by simp [QmpEvent.quiet])
    | coloExit reason => exact absurd hquiet (by simp [QmpEvent.quiet])
    | migration status =>
      simp only [colodQmpEventCb]
      rw [if_neg (fun h => hu h.2)]
      exact ⟨u.timeout, u.raise, rfl⟩
    | reset =>
      simp only [colodQmpEventCb, colodRaiseTimeoutCoroutine]
      split_ifs
      · exact ⟨u.timeout, u.raise, rfl⟩
      · exact ⟨_, _, rfl⟩
    | stop => exact ⟨u.timeout, u.raise, rfl⟩
    | resume => exact ⟨u.timeout, u.raise, rfl⟩
    | other name => exact ⟨u.timeout, u.raise, rfl⟩
  have hmain : (mainWaitEventCb s event).state = s.state := by
    unfold mainWaitEventCb
    split
    · split_ifs <;> rfl
    · rfl
  obtain ⟨raise, hraise⟩ := hwait (mainWaitEventCb s event)
  unfold notifyEvent
  rw [hraise]
  dsimp only
  split_ifs
  · exact ⟨(mainWaitEventCb s event).timeout, raise, rfl⟩
  · obtain ⟨timeout, raise', hcb⟩ := hcb { mainWaitEventCb s event with raise } (hmain ▸ hstate)
    exact ⟨timeout, raise', hcb⟩

theorem moves_event {event : QmpEvent} (h : s.Moves heard) (hquiet : event.quiet = true)
    (hstep : ColoDaemon.step s (.qmpEvent event) = some t) :
    t.Moves (heard || event = .resume) := by
  obtain ⟨hrunning, hcallback⟩ := callback_of_step hstep (by simp) (by simp) (by simp)
  have hstate : s.state ≠ .primaryStartMigration := by
    rcases h.state with hs | hs
    · simp [hs]
    · simp [hs]
  obtain ⟨timeout, raise, hnotify⟩ := notifyEvent_quiet hquiet hstate
  simp only [Daemon.callback, Option.some.injEq, hnotify] at hcallback
  rw [← hcallback]
  apply Daemon.Moves.raise
  have hcurrent : s.loop.current = none := by
    simpa [Daemon.running] using hrunning
  obtain ⟨hphase, hstate, hsequence, hwake, hprimary, htransitioning, herror, hyank⟩ := h
  cases hphase with
  | waiting hpc _ hrep hsources =>
    by_cases hresume : event = .resume
    · have hmain : mainWaitEventCb s event =
          { s with pc := .qmpWait .secondaryWait true, resumeSources := s.resumeSources + 1 } := by
        simp [mainWaitEventCb, hpc, QmpWaitSite.matches, hresume]
      rw [hmain, Bool.false_or, decide_eq_true hresume]
      refine ⟨.fired rfl hcurrent hrep ?_, hstate, hsequence, hwake, hprimary, htransitioning, herror,
        hyank⟩
      rw [hsources]
    · have hmain : mainWaitEventCb s event = s := by
        simp [mainWaitEventCb, hpc, QmpWaitSite.matches, hresume]
      rw [hmain, Bool.false_or, decide_eq_false hresume]
      exact ⟨.waiting hpc hcurrent hrep hsources, hstate, hsequence, hwake, hprimary, htransitioning,
        herror, hyank⟩
  | fired hpc _ hrep hsources =>
    rw [show mainWaitEventCb s event = s from by simp [mainWaitEventCb, hpc], Bool.true_or]
    exact ⟨.fired hpc hcurrent hrep hsources, hstate, hsequence, hwake, hprimary, htransitioning,
      herror, hyank⟩
  | resumed hpc hrunning _ _ => exact absurd hcurrent hrunning
  | entering hpc hrunning _ => exact absurd hcurrent hrunning
  | moved hpc hrep hsources =>
    rw [show mainWaitEventCb s event = s from by simp [mainWaitEventCb, hpc], Bool.true_or]
    exact ⟨.moved hpc hrep hsources, hstate, hsequence, hwake, hprimary, htransitioning, herror,
      hyank⟩

/-- Nothing resumes the main coroutine on its way but the event. -/
theorem moves_dispatch {source : Source} (h : s.Moves heard)
    (hstep : ColoDaemon.step s (.dispatch source) = some t) : t.Moves heard := by
  have hdispatch : s.running = false ∧ s.dispatch source = some t := by
    rcases step_cases hstep with ⟨-, h⟩ | ⟨source', hl, hrun, h⟩ | ⟨hl, -⟩ | ⟨x, hl, -⟩
    · exact absurd h (by simp [Daemon.callback])
    · rw [Label.dispatch.injEq] at hl
      exact ⟨hrun, hl ▸ h⟩
    · exact absurd hl (by simp)
    · exact absurd hl (by simp)
  obtain ⟨hphase, hstate, hsequence, hwake, hprimary, htransitioning, herror, hyank⟩ := h
  have hcurrent : s.loop.current = none := by
    simpa [Daemon.running] using hdispatch.1
  replace hdispatch := hdispatch.2
  cases hphase with
  | waiting hpc _ hrep hsources =>
    cases source <;> simp [Daemon.dispatch, hpc, hwake, hsources, QmpWaitSite.hasTimeout] at hdispatch
  | fired hpc _ hrep hsources =>
    cases source with
    | resume =>
      simp only [Daemon.dispatch, hsources, hpc, Pc.leftOver, Nat.one_ne_zero, if_false,
        Option.some.injEq] at hdispatch
      rw [← hdispatch]
      exact ⟨.resumed rfl (by simp [Daemon.resumeWith]) hrep rfl, hstate, hsequence, hwake, hprimary,
        htransitioning, herror, hyank⟩
    | start => simp [Daemon.dispatch, hpc] at hdispatch
    | wake id => simp [Daemon.dispatch, hwake] at hdispatch
    | timeout => simp [Daemon.dispatch, hpc, QmpWaitSite.hasTimeout] at hdispatch
    | grace => simp [Daemon.dispatch, hpc] at hdispatch
    | io => simp [Daemon.dispatch, hpc] at hdispatch
  | resumed hpc hrunning _ _ => exact absurd hcurrent hrunning
  | entering hpc hrunning _ => exact absurd hcurrent hrunning
  | moved hpc hrep hsources =>
    cases source <;> simp [Daemon.dispatch, hpc, hwake, hsources] at hdispatch

theorem moves_run (h : s.Moves heard) (hstep : ColoDaemon.step s .run = some t) :
    t.Moves heard := by
  have hrun : s.running = true ∧ mainRun s = some t := by
    rcases step_cases hstep with ⟨-, h⟩ | ⟨source, hl, -⟩ | ⟨-, h⟩ | ⟨x, hl, -⟩
    · exact absurd h (by simp [Daemon.callback])
    · exact absurd hl (by simp)
    · exact h
    · exact absurd hl (by simp)
  obtain ⟨hphase, hstate, hsequence, hwake, hprimary, htransitioning, herror, hyank⟩ := h
  have hcurrent : s.loop.current ≠ none := by
    simpa [Daemon.running, Option.isSome_iff_ne_none] using hrun.1
  replace hrun := hrun.2
  cases hphase with
  | waiting hpc hnone _ _ => exact absurd hnone hcurrent
  | fired hpc hnone _ _ => exact absurd hnone hcurrent
  | resumed hpc _ hrep hsources =>
    simp only [mainRun, hpc, colodQmpEventWaitCo, if_true, qmpWaitReturn, Option.some.injEq] at hrun
    rw [← hrun]
    unfold colodRaiseTimeoutCoroutine
    split_ifs
    · exact ⟨.entering rfl hcurrent hsources, hstate, hsequence, hwake, hprimary, htransitioning,
        herror, hyank⟩
    · exact ⟨.entering rfl hcurrent hsources, hstate, hsequence, hwake, hprimary, htransitioning,
        herror, hyank⟩
  | entering hpc _ hsources =>
    simp only [mainRun, hpc, colodMainCo, Option.some.injEq, Daemon.observe, Daemon.setInterrupting,
      hprimary, Bool.false_eq_true, if_false] at hrun
    rw [← hrun]
    refine ⟨.moved rfl rfl hsources, .inr rfl, ?_, hwake, rfl, rfl, herror, hyank⟩
    simp [Daemon.continueAt, EventLoop.setInterrupting, eventqueueSetInterrupting, hsequence,
      gSequenceSort]
  | moved hpc hrep hsources =>
    have hpending : eventqueuePending s.loop.queue = false := by
      simp [eventqueuePending, hsequence]
    have hforget : s.loop.forgetCurrent.queue = s.loop.queue ∧
        s.loop.forgetCurrent.wakeSources = s.loop.wakeSources := by
      unfold EventLoop.forgetCurrent
      split_ifs <;> exact ⟨rfl, rfl⟩
    have hyield : ∀ l : EventLoop, l.yieldRemove.queue = l.queue ∧
        l.yieldRemove.wakeSources = l.wakeSources := by
      intro l
      unfold EventLoop.yieldRemove
      split <;> exact ⟨rfl, rfl⟩
    simp only [mainRun, hpc, colodEventWait, hforget.1, hpending, true_or, if_true,
      Option.some.injEq] at hrun
    rw [← hrun]
    refine ⟨.moved rfl hrep hsources, hstate, ?_, ?_, hprimary, htransitioning, herror, hyank⟩
    · exact (congrArg EventQueue.sequence ((hyield _).1.trans hforget.1)).trans hsequence
    · exact ((hyield _).2.trans hforget.2).trans hwake

theorem moves_executeDone (h : s.Moves heard)
    (hstep : ColoDaemon.step s (.executeDone (some .result)) = some t) : t = s := by
  obtain ⟨-, hcallback⟩ := callback_of_step hstep (by simp) (by simp) (by simp)
  simp only [Daemon.callback, colodExecuteNocheckCo, h.qmpError, h.didYank, Bool.false_eq_true,
    if_false, Option.some.injEq] at hcallback
  exact hcallback.symm

theorem colodCheckHealthCo_eq (s : Daemon) (status : Option (Bool × Bool)) :
    colodCheckHealthCo s status = if s.agrees status then s else s.queueEvent .failed := by
  cases status with
  | none => rfl
  | some p =>
    obtain ⟨primary, replication⟩ := p
    simp only [colodCheckHealthCo, Daemon.agrees]
    by_cases ht : s.transitioning = true
    · simp [ht]
    · by_cases hp : s.primary = primary
      · by_cases hr : s.replication = replication
        · simp [hp, hr]
        · simp [ht, hp, hr]
      · simp [ht, hp]

end Move

/-! ### The stream of the main channel -/

/-- The lines of a stream: from `before` to `after` says whether `RESUME` has come, and every answer
is that of a qemu in the state of its place in the stream. -/
def Stream (written : List (QmpCo × HealthCommand)) : Bool → List HealthLine → Bool → Prop
  | before, [], after => before = after
  | before, .greeting :: rest, after => Stream written before rest after
  | before, .event e :: rest, after =>
      e.quiet = true ∧ Stream written (before || e = .resume) rest after
  | before, .answer number a :: rest, after =>
      (∃ co command reason, written[number]? = some (co, command) ∧
        a = qemuAnswer before reason command) ∧ Stream written before rest after

theorem stream_append {written : List (QmpCo × HealthCommand)} {before middle after : Bool}
    {lines lines' : List HealthLine} (h : Stream written before lines middle)
    (h' : Stream written middle lines' after) : Stream written before (lines ++ lines') after := by
  induction lines generalizing before with
  | nil =>
    rw [show before = middle from h]
    exact h'
  | cons line lines ih =>
    cases line with
    | greeting => exact ih h
    | event e => exact ⟨h.1, ih h.2⟩
    | answer number a => exact ⟨h.1, ih h.2⟩

theorem getElem?_of_grown {written written' : List (QmpCo × HealthCommand)} {number : ℕ}
    {w : QmpCo × HealthCommand} (hgrown : written <+: written') (h : written[number]? = some w) :
    written'[number]? = some w := by
  obtain ⟨rest, rfl⟩ := hgrown
  obtain ⟨hlt, -⟩ := List.getElem?_eq_some_iff.mp h
  rw [List.getElem?_append_left hlt, h]

theorem stream_grown {written written' : List (QmpCo × HealthCommand)} {before after : Bool}
    {lines : List HealthLine} (hgrown : written <+: written')
    (h : Stream written before lines after) : Stream written' before lines after := by
  induction lines generalizing before with
  | nil => exact h
  | cons line lines ih =>
    cases line with
    | greeting => exact ih h
    | event e => exact ⟨h.1, ih h.2⟩
    | answer number a =>
      obtain ⟨⟨co, command, reason, hw, ha⟩, hrest⟩ := h
      exact ⟨⟨co, command, reason, getElem?_of_grown hgrown hw, ha⟩, ih hrest⟩

/-! ### What holds as long as the schedule is timely -/

def HealthCheck.command? : HealthCheck → Option HealthCommand
  | .queryStatus => some .queryStatus
  | .queryColoStatus _ => some .queryColoStatus
  | .other => some .other
  | .returned _ => none

namespace Secondary

def heard (this : Secondary) : Bool := .resume ∈ this.qmp.notified

/-- Coroutine `i` is in the exchange that its check is at, if any. -/
def Tasked (this : Secondary) (i : ℕ) : Prop :=
  match this.checks[i]?.bind HealthCheck.command? with
  | none => this.qmp.task (.caller i) = .off
  | some command => ∃ yank point, this.qmp.task (.caller i) = .executing yank point ∧
      this.qmp.Asks (.caller i) command point

structure Steady (this : Secondary) : Prop where
  orderly : this.qmp.Orderly
  error : this.qmp.error = false
  daemon : this.daemon.Moves this.heard
  stream : Stream (this.qmp.channel .channel).written this.heard
    (this.qmp.channel .channel).unread this.resumed
  first : ∀ (i : ℕ) (line : HealthLine), this.checks[i]? = some (.queryColoStatus line) →
    line.status? = some "running" ∧ this.heard = true ∨ line.status? = some "inmigrate"
  ok : .returned false ∉ this.checks

structure Sure (this : Secondary) : Prop where
  steady : this.Steady
  tasked : ∀ i, this.Tasked i

variable {this next : Secondary}

theorem Waits.sure (h : this.Waits) : this.Sure := by
  obtain ⟨qmp, daemon, resumed, checks⟩ := this
  obtain ⟨hqmp, hdaemon, hresumed, hchecks⟩ := h
  simp only at hqmp hdaemon hresumed hchecks
  subst hqmp hresumed hchecks
  have hheard : (Secondary.mk .qmpNew daemon false []).heard = false := by
    simp [heard, ColodQmpState.qmpNew]
  refine ⟨⟨orderly_qmpNew, rfl, ?_, ?_, by simp, by simp⟩, fun i => rfl⟩
  · rw [hheard]
    exact hdaemon.moves
  · rw [hheard]
    rfl

/-- The verdict of a check is that of `Timely`. -/
theorem agrees_eq (h : this.Steady) (hrunning : this.daemon.running = false)
    {qemuStatus coloStatus : HealthLine} {reason : String}
    (hfirst : qemuStatus.status? = some "running" ∧ this.heard = true ∨
      qemuStatus.status? = some "inmigrate")
    (hcolo : coloStatus.colo? = some (if this.heard then "secondary" else "none", reason)) :
    this.daemon.agrees (qemuQueryStatusCo qemuStatus coloStatus) =
      this.coherent qemuStatus coloStatus := by
  have hcurrent : this.daemon.loop.current = none := by
    simpa [Daemon.running] using hrunning
  have hmoves := h.daemon
  have hprimary := hmoves.primary
  have htransitioning := hmoves.transitioning
  have hphase := hmoves.phase
  generalize this.heard = heard at hphase hfirst hcolo
  cases hphase with
  | waiting hpc _ hrep _ =>
    have hstatus : qemuStatus.status? = some "inmigrate" := by
      rcases hfirst with ⟨-, hheard⟩ | hstatus
      · exact absurd hheard (by simp)
      · exact hstatus
    simp [qemuQueryStatusCo, hstatus, hcolo, Daemon.agrees, hprimary, hrep, coherent]
  | fired hpc _ hrep _ =>
    rcases hfirst with ⟨hstatus, -⟩ | hstatus
    · simp [qemuQueryStatusCo, hstatus, hcolo, Daemon.agrees, hprimary, hrep, htransitioning,
        qemuRunning, coherent, pending, hpc]
    · simp [qemuQueryStatusCo, hstatus, hcolo, Daemon.agrees, hprimary, hrep, coherent,
        pending, hpc]
  | resumed _ hrunning _ _ => exact absurd hcurrent hrunning
  | entering _ hrunning _ => exact absurd hcurrent hrunning
  | moved hpc hrep _ =>
    rcases hfirst with ⟨hstatus, -⟩ | hstatus
    · simp [qemuQueryStatusCo, hstatus, hcolo, Daemon.agrees, hprimary, hrep, htransitioning,
        qemuRunning, coherent, pending, hpc]
    · simp [qemuQueryStatusCo, hstatus, hcolo, Daemon.agrees, hprimary, hrep, htransitioning,
        coherent, pending, hpc]

theorem asks_of_grown {qmp qmp' : HealthQmp} {co : QmpCo} {command : HealthCommand}
    {point : ExecutePoint HealthCommand}
    (hgrown : (qmp.channel .channel).written <+: (qmp'.channel .channel).written)
    (h : qmp.Asks co command point) : qmp'.Asks co command point := by
  cases point with
  | lock command' => exact h
  | write command' => exact h
  | read number => exact getElem?_of_grown hgrown h
  | idle number => exact getElem?_of_grown hgrown h

/-- A check's coroutine is where it was if only the lists of commands have grown. -/
theorem Tasked.of_grown {i : ℕ} (h : this.Tasked i)
    (hcheck : next.checks[i]?.bind HealthCheck.command? = this.checks[i]?.bind HealthCheck.command?)
    (htask : next.qmp.task (.caller i) = this.qmp.task (.caller i))
    (hgrown : (this.qmp.channel .channel).written <+: (next.qmp.channel .channel).written) :
    next.Tasked i := by
  unfold Tasked at h ⊢
  rw [hcheck, htask]
  cases hc : this.checks[i]?.bind HealthCheck.command? with
  | none =>
    rw [hc] at h
    exact h
  | some command =>
    rw [hc] at h
    obtain ⟨yank, point, hpoint, hasks⟩ := h
    exact ⟨yank, point, hpoint, asks_of_grown hgrown hasks⟩

/-- qemu sends a line on a channel. -/
theorem Sure.sent (h : this.Sure) {c : ChannelName}
    {ch : QmpChannel HealthCommand QmpEvent QemuAnswer} {line : HealthLine} {resumed : Bool}
    (hwritten : ch.written = (this.qmp.channel c).written)
    (hunread : ch.unread = (this.qmp.channel c).unread ++ [line])
    (horderly : (this.qmp.setChannel c ch).Orderly)
    (hstream : c = .channel → Stream ch.written this.resumed [line] resumed)
    (hother : c ≠ .channel → resumed = this.resumed) :
    { this with qmp := this.qmp.setChannel c ch, resumed := resumed }.Sure := by
  have hchannel : ((this.qmp.setChannel c ch).channel .channel).written =
      (this.qmp.channel .channel).written := by
    by_cases hc : c = .channel
    · subst hc
      rw [channel_setChannel, hwritten]
    · rw [channel_setChannel_of_ne (Ne.symm hc)]
  constructor
  · refine ⟨horderly, h.steady.error, h.steady.daemon, ?_, h.steady.first, h.steady.ok⟩
    have hold := h.steady.stream
    by_cases hc : c = .channel
    · subst hc
      dsimp only
      rw [channel_setChannel, hunread]
      rw [← hwritten] at hold
      exact stream_append hold (hstream rfl)
    · dsimp only
      rw [channel_setChannel_of_ne (Ne.symm hc), hother hc]
      exact hold
  · intro i
    exact (h.tasked i).of_grown rfl rfl (hchannel ▸ List.prefix_rfl)

theorem execute_eq {qmp qmp' : HealthQmp} {i : ℕ} {command : HealthCommand}
    (h : qmpStep healthDialect qmp (.execute i command) = some qmp') :
    qmp' = qmp.become (.caller i) (.executing true (.lock command)) := by
  simp only [qmpStep] at h
  split at h
  · exact (Option.some.inj h).symm
  · exact absurd h (by simp)

theorem tasked_execute (qmp : HealthQmp) (daemon : Daemon) (resumed : Bool)
    (checks : List HealthCheck) {i : ℕ} {command : HealthCommand}
    (hcheck : checks[i]?.bind HealthCheck.command? = some command) :
    (Secondary.mk (qmp.become (.caller i) (.executing true (.lock command))) daemon resumed
      checks).Tasked i := by
  unfold Tasked
  rw [hcheck]
  exact ⟨true, .lock command, task_become _ _ _, rfl⟩

/-- A coroutine starts a call. -/
theorem Sure.execute (h : this.Sure) {check : HealthCheck} {command : HealthCommand}
    {qmp : HealthQmp} (hcommand : check.command? = some command)
    (hcheck : ∀ line, check ≠ .queryColoStatus line)
    (hexecute : qmpStep healthDialect this.qmp (.execute this.checks.length command) = some qmp) :
    { this with qmp := qmp, checks := this.checks ++ [check] }.Sure := by
  have horderly : qmp.Orderly := by
    apply orderly_step h.steady.orderly hexecute
    rw [execute_eq hexecute]
    exact h.steady.error
  rw [execute_eq hexecute] at horderly ⊢
  constructor
  · refine ⟨horderly, h.steady.error, h.steady.daemon, h.steady.stream, ?_, ?_⟩
    · intro i line hi
      dsimp only at hi
      rw [List.getElem?_append] at hi
      split_ifs at hi
      · exact h.steady.first i line hi
      · have hmem := List.mem_of_getElem? hi
        exact absurd (List.mem_singleton.mp hmem).symm (hcheck line)
    · intro hmem
      rcases List.mem_append.mp hmem with hmem | hmem
      · exact h.steady.ok hmem
      · rw [← List.mem_singleton.mp hmem] at hcommand
        exact absurd hcommand (by simp [HealthCheck.command?])
  · intro i
    by_cases hi : i = this.checks.length
    · subst hi
      apply tasked_execute
      rw [List.getElem?_concat_length]
      exact hcommand
    · refine (h.tasked i).of_grown ?_ ?_ List.prefix_rfl
      · rw [List.getElem?_append]
        split_ifs with hlt
        · rfl
        · rw [List.getElem?_eq_none (by simp; omega), List.getElem?_eq_none (by omega)]
      · exact task_become_of_ne (by simpa using hi) _

theorem heard_append {qmp : HealthQmp} {event : QmpEvent} (daemon : Daemon)
    (hnotified : qmp.notified = this.qmp.notified ++ [event]) :
    { this with qmp := qmp, daemon := daemon }.heard = (this.heard || event = .resume) := by
  simp only [heard, hnotified, List.mem_append, List.mem_singleton, Bool.decide_or, eq_comm]

theorem heard_same {qmp : HealthQmp} (daemon : Daemon)
    (hnotified : qmp.notified = this.qmp.notified) :
    { this with qmp := qmp, daemon := daemon }.heard = this.heard := by
  simp only [heard, hnotified]

/-- The step of a coroutine of the channels together with the callbacks of the event it reads. -/
theorem Sure.hears (h : this.Sure) {co : QmpCo} {qmp : HealthQmp} {daemon : Daemon}
    (hrun : runCo healthDialect this.qmp co = some qmp) (hhears : this.hears qmp = some daemon) :
    { this with qmp := qmp, daemon := daemon }.Steady ∧
      ∀ i, co ≠ .caller i → { this with qmp := qmp, daemon := daemon }.Tasked i := by
  have herror := error_runCo hrun h.steady.orderly h.steady.error fun _ => rfl
  have horderly : qmp.Orderly :=
    orderly_step h.steady.orderly (show qmpStep healthDialect this.qmp (.run co) = some qmp from hrun)
      herror
  have hmove := runCo_move hrun
  have hgrown := written_grows hmove herror .channel
  have hold := stream_grown hgrown h.steady.stream
  have hsame : qmp.notified = this.qmp.notified → daemon = this.daemon := by
    intro hnotified
    simp only [Secondary.hears, hnotified, List.drop_length, List.foldlM_nil] at hhears
    exact (Option.some.inj hhears).symm
  refine ⟨?_, ?_⟩
  · rcases stream_of_move hmove herror with ⟨hunread, hnotified⟩ | ⟨event, hunread, hnotified, -⟩ |
      ⟨line, hline, hunread, hnotified⟩
    · have hheard := heard_same daemon hnotified
      refine ⟨horderly, herror, ?_, ?_, ?_, h.steady.ok⟩
      · rw [hheard, hsame hnotified]
        exact h.steady.daemon
      · rw [hheard]
        exact hunread ▸ hold
      · rw [hheard]
        exact h.steady.first
    · have hheard := heard_append daemon hnotified
      rw [hunread] at hold
      refine ⟨horderly, herror, ?_, ?_, ?_, h.steady.ok⟩
      · rw [hheard]
        simp only [Secondary.hears, hnotified, List.drop_left, List.foldlM_cons, List.foldlM_nil,
          Option.bind_eq_bind, Option.pure_def, Option.bind_fun_some] at hhears
        exact moves_event h.steady.daemon hold.1 hhears
      · rw [hheard]
        exact hold.2
      · rw [hheard]
        intro i line hi
        exact (h.steady.first i line hi).imp_left fun hr => ⟨hr.1, by rw [hr.2, Bool.true_or]⟩
    · have hheard := heard_same daemon hnotified
      refine ⟨horderly, herror, ?_, ?_, ?_, h.steady.ok⟩
      · rw [hheard, hsame hnotified]
        exact h.steady.daemon
      · rw [hheard]
        rw [hunread] at hold
        cases line with
        | greeting => exact hold
        | event e => exact absurd rfl hline
        | answer number a => exact hold.2
      · rw [hheard]
        exact h.steady.first
  · intro i hi
    obtain ⟨t, ht⟩ := task_of_move hmove herror
    refine (h.tasked i).of_grown rfl ?_ hgrown
    dsimp only
    rw [ht, Function.update_of_ne (Ne.symm hi)]

/-- The exchange of check `i` returns the answer to its command. -/
theorem Steady.returns (h : this.Steady) {i number : ℕ} {command : HealthCommand} {reason : String}
    {line : HealthLine} (htasked : ∀ j ≠ i, this.Tasked j)
    (hoff : this.qmp.task (.caller i) = .off) (hrunning : this.daemon.running = false)
    (hcommand : this.checks[i]?.bind HealthCheck.command? = some command)
    (hline : line = .answer number (qemuAnswer this.heard reason command))
    (hcoherent : ∀ qemuStatus, this.checks[i]? = some (.queryColoStatus qemuStatus) →
      this.coherent qemuStatus line = true)
    (hstep : this.checkReturned i line = some next) : next.Sure := by
  obtain ⟨check, hcheck, hcommand⟩ := Option.bind_eq_some_iff.mp hcommand
  obtain ⟨hlt, -⟩ := List.getElem?_eq_some_iff.mp hcheck
  have hset : ∀ check', (this.checks.set i check')[i]? = some check' := by
    intro check'
    rw [List.getElem?_set_self hlt]
  have hfirst : ∀ check', (∀ l, check' = HealthCheck.queryColoStatus l →
      l.status? = some "running" ∧ this.heard = true ∨ l.status? = some "inmigrate") →
      ∀ (j : ℕ) (l : HealthLine), (this.checks.set i check')[j]? = some (.queryColoStatus l) →
        l.status? = some "running" ∧ this.heard = true ∨ l.status? = some "inmigrate" := by
    intro check' hnew j l hj
    by_cases hji : i = j
    · subst hji
      rw [hset, Option.some.injEq] at hj
      exact hnew l hj
    · rw [List.getElem?_set_ne hji] at hj
      exact h.first j l hj
  have hok : ∀ check', check' ≠ .returned false → .returned false ∉ this.checks.set i check' := by
    intro check' hne hmem
    rcases List.mem_or_eq_of_mem_set hmem with hmem | heq
    · exact h.ok hmem
    · exact hne heq.symm
  have hdone : ∀ ok check', check' = HealthCheck.returned ok →
      ∀ j, (Secondary.mk this.qmp this.daemon this.resumed (this.checks.set i check')).Tasked j := by
    intro ok check' hcheck' j
    by_cases hji : i = j
    · subst hji
      simp only [Tasked, hset, hcheck', Option.bind_some, HealthCheck.command?]
      exact hoff
    · refine (htasked j (Ne.symm hji)).of_grown ?_ rfl List.prefix_rfl
      dsimp only
      rw [List.getElem?_set_ne hji]
  unfold checkReturned at hstep
  rw [hcheck] at hstep
  cases check with
  | returned ok => exact absurd hcommand (by simp [HealthCheck.command?])
  | other =>
    simp only [Option.some.injEq] at hstep
    rw [← hstep]
    refine ⟨⟨h.orderly, h.error, h.daemon, h.stream, hfirst _ (by simp), hok _ (by simp)⟩, ?_⟩
    exact hdone true _ rfl
  | queryStatus =>
    simp only [HealthCheck.command?, Option.some.injEq] at hcommand
    subst hcommand
    obtain ⟨daemon, hdaemon, hstep⟩ := Option.bind_eq_some_iff.mp hstep
    obtain ⟨qmp, hexecute, hnext⟩ := Option.map_eq_some_iff.mp hstep
    have hsame := moves_executeDone h.daemon hdaemon
    have horderly : qmp.Orderly := by
      apply orderly_step h.orderly hexecute
      rw [execute_eq hexecute]
      exact h.error
    rw [execute_eq hexecute] at hnext horderly
    rw [← hnext, hsame]
    refine ⟨⟨horderly, h.error, h.daemon, h.stream, hfirst _ ?_, hok _ (by simp)⟩, fun j => ?_⟩
    · intro l hl
      rw [HealthCheck.queryColoStatus.injEq] at hl
      rw [← hl, hline]
      cases hheard : this.heard with
      | true => exact .inl ⟨rfl, rfl⟩
      | false => exact .inr rfl
    · by_cases hji : i = j
      · subst hji
        apply tasked_execute
        rw [hset]
        rfl
      · refine (htasked j (Ne.symm hji)).of_grown ?_ ?_ List.prefix_rfl
        · dsimp only
          rw [List.getElem?_set_ne hji]
        · exact task_become_of_ne (by simpa using Ne.symm hji) _
  | queryColoStatus qemuStatus =>
    simp only [HealthCheck.command?, Option.some.injEq] at hcommand
    subst hcommand
    obtain ⟨daemon, hdaemon, hstep⟩ := Option.bind_eq_some_iff.mp hstep
    obtain ⟨daemon', hhealth, hnext⟩ := Option.map_eq_some_iff.mp hstep
    have hsame := moves_executeDone h.daemon hdaemon
    rw [hsame] at hhealth hnext
    have hcolo : line.colo? = some (if this.heard then "secondary" else "none", reason) := by
      rw [hline]
      rfl
    have hagrees := agrees_eq h hrunning (h.first i qemuStatus hcheck) hcolo
    rw [hcoherent qemuStatus hcheck] at hagrees
    obtain ⟨-, hcallback⟩ := callback_of_step hhealth (by simp) (by simp) (by simp)
    simp only [Daemon.callback, Option.some.injEq, colodCheckHealthCo_eq, hagrees, if_true]
      at hcallback
    rw [hagrees, ← hcallback] at hnext
    rw [← hnext]
    refine ⟨⟨h.orderly, h.error, h.daemon, h.stream, hfirst _ (by simp), hok _ (by simp)⟩, ?_⟩
    exact hdone true _ rfl

/-- The steps of a coroutine of the channels. -/
theorem run_inv {co : QmpCo} (hstep : this.step (.run co) = some next) :
    this.daemon.running = false ∧ ∃ qmp daemon, runCo healthDialect this.qmp co = some qmp ∧
      this.hears qmp = some daemon ∧
      { this with qmp, daemon }.continues co qmp.returned[this.qmp.returned.length]? =
        some next := by
  simp only [Secondary.step] at hstep
  split_ifs at hstep with hrunning
  obtain ⟨qmp, hrun, hstep⟩ := Option.bind_eq_some_iff.mp hstep
  obtain ⟨daemon, hhears, hstep⟩ := Option.bind_eq_some_iff.mp hstep
  exact ⟨by simpa using hrunning, qmp, daemon, hrun, hhears, hstep⟩

/-- What check `i` is resumed to: it is still in its exchange, or the exchange returns the answer to
its command. -/
theorem Sure.caller (h : this.Sure) {i : ℕ} {qmp : HealthQmp}
    (hrun : runCo healthDialect this.qmp (.caller i) = some qmp) :
    (qmp.returned = this.qmp.returned ∧ this.comparing i = none ∧
      ∀ daemon, { this with qmp := qmp, daemon := daemon }.Tasked i) ∨
    ∃ command number reason line, this.checks[i]?.bind HealthCheck.command? = some command ∧
      line = .answer number (qemuAnswer this.heard reason command) ∧
      qmp.returned = this.qmp.returned ++ [⟨.channel, .caller i, number, line⟩] ∧
      qmp.task (.caller i) = .off ∧ qmp.notified = this.qmp.notified ∧
      ∀ qemuStatus, this.checks[i]? = some (.queryColoStatus qemuStatus) →
        this.comparing i = some (qemuStatus, line) := by
  have htasked := h.tasked i
  unfold Tasked at htasked
  cases hcommand : this.checks[i]?.bind HealthCheck.command? with
  | none =>
    rw [hcommand] at htasked
    rw [runCo, htasked] at hrun
    exact absurd hrun (by simp)
  | some command =>
    rw [hcommand] at htasked
    obtain ⟨yank, point, htask, hasks⟩ := htasked
    rcases runCo_executing htask hrun with ⟨point', htask', hreturned, hkept, hnone⟩ |
      ⟨number, line, rest, rfl, hline, hunread, hoff, hreturned, hnotified⟩
    · refine .inl ⟨hreturned, ?_, fun daemon => ?_⟩
      · unfold comparing
        split
        · next qemuStatus yank' number' line rest _ htask'' hunread =>
          rw [htask, QmpTask.executing.injEq] at htask''
          rw [if_neg (by simp [hnone number' line rest htask''.2 hunread])]
        · rfl
      · unfold Tasked
        dsimp only
        rw [hcommand]
        exact ⟨yank, point', htask', hkept command hasks⟩
    · refine .inr ?_
      have hheld : 0 < this.qmp.depth .channel (.caller i) := by
        simp [ColodQmpState.depth, htask, QmpTask.depth, ExecutePoint.depth]
      obtain ⟨howes, -⟩ := (h.steady.orderly.served .channel).consume hheld hunread hline
      simp only [ColodQmpState.owes, htask, QmpTask.owes, if_true, ExecutePoint.owes] at howes
      have hstream := h.steady.stream
      rw [hunread] at hstream
      cases line with
      | greeting => simp [QmpLine.awaited?] at howes
      | event e => simp [QmpLine.awaited?] at howes
      | answer number' a =>
        simp only [QmpLine.awaited?, Option.toList_some, List.cons.injEq, Awaited.answer.injEq,
          and_true] at howes
        subst howes
        obtain ⟨⟨co', command', reason, hwritten, ha⟩, -⟩ := hstream
        have hcommand' : command' = command := by
          have heq := hwritten.symm.trans hasks
          simp only [Option.some.injEq, Prod.mk.injEq] at heq
          exact heq.2
        refine ⟨command, number, reason, .answer number a, rfl, ?_, hreturned, hoff, hnotified, ?_⟩
        · rw [ha, hcommand']
        · intro qemuStatus hcheck
          simp only [comparing, hcheck, htask, hunread]
          rfl

theorem Sure.step (h : this.Sure) {label : SecondaryLabel} (hstep : this.step label = some next)
    (htimely : this.Timely label = true) : next.Sure := by
  cases label with
  | greet c =>
    obtain ⟨qmp, hqmp, rfl⟩ := Option.map_eq_some_iff.mp hstep
    have horderly := orderly_step h.steady.orderly hqmp
    simp only [qmpStep] at hqmp
    split_ifs at hqmp
    rw [Option.some.injEq] at hqmp
    subst hqmp
    exact h.sent rfl rfl (horderly h.steady.error) (fun _ => rfl) fun _ => rfl
  | emit c event =>
    simp only [Secondary.step] at hstep
    split_ifs at hstep with hquiet
    obtain ⟨qmp, hqmp, rfl⟩ := Option.map_eq_some_iff.mp hstep
    have horderly := orderly_step h.steady.orderly hqmp
    simp only [qmpStep, Option.some.injEq] at hqmp
    subst hqmp
    refine h.sent rfl rfl (horderly h.steady.error) (fun hc => ?_) fun hc => ?_
    · subst hc
      refine ⟨by simpa using hquiet, ?_⟩
      simp [Stream]
    · simp [hc]
  | answer c reason =>
    obtain ⟨w, hw, hstep⟩ := Option.bind_eq_some_iff.mp hstep
    obtain ⟨qmp, hqmp, rfl⟩ := Option.map_eq_some_iff.mp hstep
    have horderly := orderly_step h.steady.orderly hqmp
    simp only [qmpStep] at hqmp
    split_ifs at hqmp
    rw [Option.some.injEq] at hqmp
    subst hqmp
    exact h.sent rfl rfl (horderly h.steady.error)
      (fun _ => ⟨⟨w.1, w.2, reason, hw, rfl⟩, rfl⟩) fun _ => rfl
  | check =>
    obtain ⟨qmp, hqmp, rfl⟩ := Option.map_eq_some_iff.mp hstep
    exact h.execute rfl (by simp) hqmp
  | execute =>
    obtain ⟨qmp, hqmp, rfl⟩ := Option.map_eq_some_iff.mp hstep
    exact h.execute rfl (by simp) hqmp
  | main label =>
    simp only [Secondary.step] at hstep
    split at hstep
    · obtain ⟨daemon, hdaemon, rfl⟩ := Option.map_eq_some_iff.mp hstep
      exact ⟨{ h.steady with daemon := moves_dispatch h.steady.daemon hdaemon }, h.tasked⟩
    · obtain ⟨daemon, hdaemon, rfl⟩ := Option.map_eq_some_iff.mp hstep
      exact ⟨{ h.steady with daemon := moves_run h.steady.daemon hdaemon }, h.tasked⟩
    · exact absurd hstep (by simp)
  | run co =>
    obtain ⟨hrunning, qmp, daemon, hrun, hhears, hnext⟩ := run_inv hstep
    obtain ⟨hsteady, htasked⟩ := h.hears hrun hhears
    cases co with
    | handshake c => exact Option.some.inj hnext ▸ ⟨hsteady, fun i => htasked i (by simp)⟩
    | event c => exact Option.some.inj hnext ▸ ⟨hsteady, fun i => htasked i (by simp)⟩
    | caller i =>
      rcases h.caller hrun with ⟨hreturned, -, hkept⟩ |
        ⟨command, number, reason, line, hcommand, hline, hreturned, hoff, hnotified, hcompare⟩
      · rw [hreturned, List.getElem?_length] at hnext
        refine Option.some.inj hnext ▸ ⟨hsteady, fun j => ?_⟩
        by_cases hj : j = i
        · exact hj ▸ hkept daemon
        · exact htasked j (by simpa using Ne.symm hj)
      · rw [hreturned, List.getElem?_concat_length] at hnext
        have hdaemon : daemon = this.daemon := by
          simp only [Secondary.hears, hnotified, List.drop_length, List.foldlM_nil] at hhears
          exact (Option.some.inj hhears).symm
        refine hsteady.returns (fun j hj => htasked j (by simpa using Ne.symm hj)) hoff
          (hdaemon ▸ hrunning) hcommand (heard_same daemon hnotified ▸ hline) ?_ hnext
        intro qemuStatus hcheck
        simp only [Timely, hcompare qemuStatus hcheck, Option.all_some] at htimely
        rw [hdaemon]
        exact htimely

/-- A check whose answers are not coherent fails. -/
theorem Sure.fails (h : this.Sure) {label : SecondaryLabel} (hstep : this.step label = some next)
    (htimely : this.Timely label = false) : .returned false ∈ next.checks := by
  obtain ⟨i, rfl⟩ : ∃ i, label = .run (.caller i) := by
    unfold Timely at htimely
    split at htimely
    · exact ⟨_, rfl⟩
    · exact absurd htimely (by simp)
  obtain ⟨hrunning, qmp, daemon, hrun, hhears, hnext⟩ := run_inv hstep
  obtain ⟨hsteady, -⟩ := h.hears hrun hhears
  simp only [Timely] at htimely
  rcases h.caller hrun with ⟨-, hnone, -⟩ |
    ⟨command, number, reason, line, hcommand, hline, hreturned, -, hnotified, hcompare⟩
  · rw [hnone] at htimely
    exact absurd htimely (by simp)
  have hdaemon : daemon = this.daemon := by
    simp only [Secondary.hears, hnotified, List.drop_length, List.foldlM_nil] at hhears
    exact (Option.some.inj hhears).symm
  obtain ⟨check, hcheck, hcommand⟩ := Option.bind_eq_some_iff.mp hcommand
  obtain ⟨hlt, -⟩ := List.getElem?_eq_some_iff.mp hcheck
  cases check with
  | queryColoStatus qemuStatus =>
    simp only [HealthCheck.command?, Option.some.injEq] at hcommand
    subst hcommand
    rw [hcompare qemuStatus hcheck, Option.all_some] at htimely
    rw [hreturned, List.getElem?_concat_length] at hnext
    simp only [continues, checkReturned, hcheck] at hnext
    obtain ⟨daemon', hdone, hnext⟩ := Option.bind_eq_some_iff.mp hnext
    obtain ⟨daemon'', -, hnext⟩ := Option.map_eq_some_iff.mp hnext
    have hcolo : line.colo? = some (if this.heard then "secondary" else "none", reason) := by
      rw [hline]
      rfl
    have hagrees := agrees_eq h.steady hrunning (h.steady.first i qemuStatus hcheck) hcolo
    rw [htimely] at hagrees
    rw [hdaemon] at hdone
    rw [moves_executeDone h.steady.daemon hdone, hagrees] at hnext
    rw [← hnext]
    exact List.mem_iff_getElem?.mpr ⟨i, List.getElem?_set_self hlt⟩
  | queryStatus =>
    have hnone : this.comparing i = none := by simp [comparing, hcheck]
    rw [hnone] at htimely
    exact absurd htimely (by simp)
  | other =>
    have hnone : this.comparing i = none := by simp [comparing, hcheck]
    rw [hnone] at htimely
    exact absurd htimely (by simp)
  | returned ok => exact absurd hcommand (by simp [HealthCheck.command?])

theorem mem_set_of_ne {i : ℕ} {check check' : HealthCheck} (hcheck : this.checks[i]? = some check)
    (hne : check ≠ .returned false) (h : .returned false ∈ this.checks) :
    .returned false ∈ this.checks.set i check' := by
  obtain ⟨j, hj⟩ := List.mem_iff_getElem?.mp h
  have hij : i ≠ j := by
    intro hij
    rw [hij, hj, Option.some.injEq] at hcheck
    exact hne hcheck.symm
  exact List.mem_iff_getElem?.mpr ⟨j, by rw [List.getElem?_set_ne hij, hj]⟩

theorem mem_checkReturned {i : ℕ} {line : HealthLine}
    (hstep : this.checkReturned i line = some next) (h : .returned false ∈ this.checks) :
    .returned false ∈ next.checks := by
  unfold checkReturned at hstep
  split at hstep
  · next hcheck =>
    obtain ⟨daemon, -, hstep⟩ := Option.bind_eq_some_iff.mp hstep
    obtain ⟨qmp, -, rfl⟩ := Option.map_eq_some_iff.mp hstep
    exact mem_set_of_ne hcheck (by simp) h
  · next qemuStatus hcheck =>
    obtain ⟨daemon, -, hstep⟩ := Option.bind_eq_some_iff.mp hstep
    obtain ⟨daemon', -, rfl⟩ := Option.map_eq_some_iff.mp hstep
    exact mem_set_of_ne hcheck (by simp) h
  · next hcheck =>
    rw [Option.some.injEq] at hstep
    exact hstep ▸ mem_set_of_ne hcheck (by simp) h
  · exact absurd hstep (by simp)

/-- A mismatch that has been reported stays on record. -/
theorem mem_step {label : SecondaryLabel} (hstep : this.step label = some next)
    (h : .returned false ∈ this.checks) : .returned false ∈ next.checks := by
  cases label with
  | greet c =>
    obtain ⟨qmp, -, rfl⟩ := Option.map_eq_some_iff.mp hstep
    exact h
  | emit c event =>
    simp only [Secondary.step] at hstep
    split_ifs at hstep
    obtain ⟨qmp, -, rfl⟩ := Option.map_eq_some_iff.mp hstep
    exact h
  | answer c reason =>
    obtain ⟨w, -, hstep⟩ := Option.bind_eq_some_iff.mp hstep
    obtain ⟨qmp, -, rfl⟩ := Option.map_eq_some_iff.mp hstep
    exact h
  | check =>
    obtain ⟨qmp, -, rfl⟩ := Option.map_eq_some_iff.mp hstep
    exact List.mem_append_left _ h
  | execute =>
    obtain ⟨qmp, -, rfl⟩ := Option.map_eq_some_iff.mp hstep
    exact List.mem_append_left _ h
  | main label =>
    simp only [Secondary.step] at hstep
    split at hstep
    · obtain ⟨daemon, -, rfl⟩ := Option.map_eq_some_iff.mp hstep
      exact h
    · obtain ⟨daemon, -, rfl⟩ := Option.map_eq_some_iff.mp hstep
      exact h
    · exact absurd hstep (by simp)
  | run co =>
    obtain ⟨-, qmp, daemon, -, -, hnext⟩ := run_inv hstep
    unfold continues at hnext
    split at hnext
    · exact mem_checkReturned hnext h
    · exact Option.some.inj hnext ▸ h

/-- A run in which no check fails was timely. -/
theorem Sure.along (h : this.Sure) {labels : List SecondaryLabel}
    (hrun : run Secondary.step this labels = some next) (hok : .returned false ∉ next.checks) :
    Along Secondary.step (fun s label => s.Timely label = true) this labels := by
  induction labels generalizing this with
  | nil => trivial
  | cons label labels ih =>
    obtain ⟨middle, hstep, hrest⟩ := run_cons_eq_some.mp hrun
    have hpersists : .returned false ∈ middle.checks → .returned false ∈ next.checks := by
      intro hmem
      exact run_invariant (P := fun s => .returned false ∈ s.checks)
        (fun _ _ _ hs hmem => mem_step hs hmem) hrest hmem
    have htimely : this.Timely label = true := by
      by_contra hnot
      exact hok (hpersists (h.fails hstep (by simpa using hnot)))
    refine ⟨htimely, fun middle' hmiddle => ?_⟩
    rw [hstep, Option.some.injEq] at hmiddle
    exact hmiddle ▸ ih (h.step hstep htimely) hrest

/-- No check fails and none queues `EVENT_FAILED` exactly if every check that learns that qemu runs
in COLO got both answers after `RESUME` and compares after the main coroutine has moved on, or got
the first answer before `RESUME` and compares before. -/
theorem no_false_alarm_iff {start this : Secondary} {labels : List SecondaryLabel}
    (hstart : start.Waits) (hrun : run Secondary.step start labels = some this) :
    (.returned false ∉ this.checks ∧ .failed ∉ this.daemon.loop.kinds) ↔
      Along Secondary.step (fun s label => s.Timely label = true) start labels := by
  constructor
  · rintro ⟨hok, -⟩
    exact hstart.sure.along hrun hok
  · intro halong
    have hsure : this.Sure := run_invariant_along (P := Sure)
      (fun _ _ _ hs htimely h => h.step hs htimely) hrun halong hstart.sure
    refine ⟨hsure.steady.ok, ?_⟩
    simp [EventLoop.kinds, EventQueue.kinds, hsure.steady.daemon.sequence]

end Secondary

/-! ### Two schedules -/

namespace Schedule

/-- The main channel's handshake, the first exchange of a check and the write of its second. -/
def halfChecked : List SecondaryLabel :=
  [.greet .channel] ++ List.replicate 4 (.run (.handshake .channel)) ++
    [.answer .channel "", .run (.handshake .channel), .check, .run (.caller 0), .run (.caller 0),
      .answer .channel "", .run (.caller 0), .run (.caller 0), .run (.caller 0)]

def mainMoves : List SecondaryLabel :=
  [.main (.dispatch .resume), .main .run, .main .run, .main .run]

/-- `RESUME` comes between the two answers: the check reads it before the second one. -/
def torn : List SecondaryLabel :=
  halfChecked ++ [.emit .channel .resume, .answer .channel "none", .run (.caller 0)] ++ mainMoves ++
    [.run (.caller 0), .run (.caller 0)]

/-- `RESUME` comes after both answers. -/
def whole : List SecondaryLabel :=
  halfChecked ++ [.answer .channel "none", .emit .channel .resume, .run (.caller 0),
    .run (.event .channel), .run (.event .channel)] ++ mainMoves

/-- A secondary after its startup. -/
def waiting : Option Secondary :=
  (run ColoDaemon.step (Daemon.init context) secondaryWait).map fun daemon =>
    ⟨.qmpNew, daemon, false, []⟩

theorem waiting_waits : ∃ start, waiting = some start ∧ start.Waits := by
  have hfields : (run ColoDaemon.step (Daemon.init context) secondaryWait).map
      (fun s => (s.pc, s.state, s.loop.current, s.loop.queue.sequence, s.loop.wakeSources,
        s.resumeSources, s.primary, s.replication, s.transitioning, s.qmpError, s.didYank)) =
      some (.qmpWait .secondaryWait false, .secondaryWait, none, [], [], 0, false, false, false,
        false, false) := rfl
  obtain ⟨daemon, hrun, hd⟩ := Option.map_eq_some_iff.mp hfields
  simp only [Prod.mk.injEq] at hd
  obtain ⟨hpc, hstate, hcurrent, hsequence, hwake, hsources, hprimary, hrep, htransitioning, herror,
    hyank⟩ := hd
  refine ⟨⟨.qmpNew, daemon, false, []⟩, ?_, rfl, ?_, rfl, rfl⟩
  · rw [waiting, hrun]
    rfl
  · exact ⟨hpc, hstate, hcurrent, hsequence, hwake, hsources, hprimary, hrep, htransitioning,
      herror, hyank⟩

end Schedule

namespace Secondary

theorem no_false_alarm_iff_whole : ∃ start this : Secondary, start.Waits ∧
    run Secondary.step start Schedule.whole = some this ∧
    this.checks = [.returned true] ∧ this.daemon.replication = true ∧
    ((.returned false ∉ this.checks ∧ .failed ∉ this.daemon.loop.kinds) ↔
      Along Secondary.step (fun s label => s.Timely label = true) start Schedule.whole) := by
  obtain ⟨start, hstart, hwaits⟩ := Schedule.waiting_waits
  have hfields : (Schedule.waiting.bind fun s => run Secondary.step s Schedule.whole).map
      (fun s => (s.checks, s.daemon.replication)) = some ([.returned true], true) := by decide
  rw [hstart, Option.bind_some] at hfields
  obtain ⟨this, hrun, hthis⟩ := Option.map_eq_some_iff.mp hfields
  simp only [Prod.mk.injEq] at hthis
  exact ⟨start, this, hwaits, hrun, hthis.1, hthis.2, no_false_alarm_iff hwaits hrun⟩

/-- The check compares `inmigrate` with the flags of a secondary that runs in COLO. -/
theorem false_alarm_torn : ∃ start this : Secondary, start.Waits ∧
    run Secondary.step start Schedule.torn = some this ∧
    .returned false ∈ this.checks ∧ .failed ∈ this.daemon.loop.kinds := by
  obtain ⟨start, hstart, hwaits⟩ := Schedule.waiting_waits
  have hfields : (Schedule.waiting.bind fun s => run Secondary.step s Schedule.torn).map
      (fun s => (s.checks, s.daemon.loop.kinds)) = some ([.returned false], [.failed]) := by decide
  rw [hstart, Option.bind_some] at hfields
  obtain ⟨this, hrun, hthis⟩ := Option.map_eq_some_iff.mp hfields
  simp only [Prod.mk.injEq] at hthis
  refine ⟨start, this, hwaits, hrun, ?_, ?_⟩
  · rw [hthis.1]
    exact List.mem_singleton_self _
  · rw [hthis.2]
    exact List.mem_singleton_self _

end Secondary
end ColoDaemon
