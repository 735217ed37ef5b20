import ColoDaemon.Announcements
import ColoDaemon.ControlFlow

/-!
# The QMP timeout and the coroutine that lowers it

`timeout` has three writers: `colod_raise_timeout_coroutine`, the coroutine it starts, and the
error paths of the main coroutine. A call finds the coroutine of an earlier call when its `STOP` or
`RESUME` has not come yet, and returns early whether or not the timeout is still high.
-/

namespace ColoDaemon
open Runs EventLoop
variable {s t : Daemon}

/-- The timeout and the coroutine that lowers it. -/
def Daemon.clock (s : Daemon) := (s.timeout, s.raise, s.ctx)

/-! ### The main coroutine -/

theorem clock_raise (h : t.clock = s.clock) :
    (colodRaiseTimeoutCoroutine t).clock = (colodRaiseTimeoutCoroutine s).clock := by
  simp only [Daemon.clock, Prod.mk.injEq] at h
  unfold colodRaiseTimeoutCoroutine
  rw [h.2.1, h.2.2]
  split_ifs <;> simp [Daemon.clock, h]

theorem clock_gotoHandled (s : Daemon) (event : ColodEvent) :
    (s.gotoHandled event).clock = s.clock := by
  unfold Daemon.gotoHandled
  split <;> rfl

theorem clock_eventWaitReturn (s : Daemon) (site : EventWaitSite) (event : ColodEvent) :
    (eventWaitReturn s site event).clock = s.clock := by
  cases site with
  | primaryWait => cases event <;> rfl
  | failed | autoquit =>
    cases event <;> simp only [eventWaitReturn] <;> (try split_ifs) <;> rfl
  | secondaryWait | coloRunning | startMigration | failoverSync =>
    simp only [eventWaitReturn]
    split_ifs <;> first | rfl | exact clock_gotoHandled s event

theorem clock_migrationHandleEvent (s : Daemon) : (migrationHandleEvent s).clock = s.clock := by
  unfold migrationHandleEvent
  split_ifs <;> rfl

theorem clock_migrationQmpError (s : Daemon) (err : ColodError) :
    (migrationQmpError s err).clock = s.clock := by
  cases err with
  | interrupt => exact clock_migrationHandleEvent s
  | _ => rfl

theorem clock_executeArrayReturn_error (s : Daemon) (table : CommandTable) (err : ColodError) :
    (executeArrayReturn s table (some err)).clock = s.clock := by
  cases table with
  | migrationStart | migrationSwitchover => exact clock_migrationQmpError s err
  | failoverPrimary | failoverSecondary => rfl

/-- The switchover commands are done and `migrate-continue` is next. -/
def Daemon.switches (s : Daemon) (table : CommandTable) : Bool :=
  table = .migrationSwitchover && !s.pendingInterrupt

theorem clock_executeArrayReturn (s : Daemon) (table : CommandTable) :
    (executeArrayReturn s table none).clock =
      if s.switches table then (colodRaiseTimeoutCoroutine s).clock else s.clock := by
  by_cases hp : s.pendingInterrupt = true
  · cases table <;> simp [executeArrayReturn, Daemon.switches, hp, clock_migrationHandleEvent] <;> rfl
  · cases table <;> simp [executeArrayReturn, Daemon.switches, hp] <;> rfl

theorem clock_executeArrayCo (s : Daemon) (co : ArrayFrame) :
    (colodExecuteArrayCo s co).clock =
      if co.array[co.i]?.isNone ∧ s.switches co.table then (colodRaiseTimeoutCoroutine s).clock
      else s.clock := by
  unfold colodExecuteArrayCo
  cases co.array[co.i]? with
  | none => simpa using clock_executeArrayReturn s co.table
  | some line =>
    simp only [Option.isNone_some, Bool.false_eq_true, false_and, if_false]
    split_ifs
    · rfl
    · exact clock_executeArrayReturn_error s co.table .interrupt
    · rfl

theorem clock_executeCo (s : Daemon) (reply : Option QmpReply) :
    (colodExecuteCo s reply).2.clock = s.clock := by
  obtain ⟨loop, qmpError, didYank, h, -⟩ := executeCo_eq s reply
  rw [h]
  rfl

theorem clock_executeArrayElement (s : Daemon) (co : ArrayFrame)
    (result : Except ColodError Unit) : (executeArrayElement s co result).clock = s.clock := by
  unfold executeArrayElement
  cases result with
  | ok => rfl
  | error err =>
    simp only
    split_ifs
    · rfl
    · exact clock_executeArrayReturn_error s co.table err

/-- `migrate-continue` has failed, or an interrupting event is pending after it. -/
def Daemon.givesUp (s : Daemon) (result : Except ColodError Unit) : Bool :=
  match result with
  | .ok () => s.pendingInterrupt
  | .error _ => true

theorem clock_execReturn (s : Daemon) (site : ExecSite) (result : Except ColodError Unit) :
    (execReturn s site result).clock =
      if site = .migrateContinue ∧ s.givesUp result then (qmpSetTimeoutLow s).clock
      else s.clock := by
  cases site with
  | element co line =>
    have hclock := clock_executeArrayElement s co result
    simpa [execReturn] using hclock
  | migrateContinue =>
    cases result with
    | ok =>
      simp only [execReturn, Daemon.givesUp, true_and]
      split_ifs
      · exact clock_migrationHandleEvent _
      · rfl
    | error err =>
      simp only [Daemon.givesUp, and_self, if_true]
      exact clock_migrationQmpError _ err
  | migrationCapabilities =>
    cases result with
    | ok =>
      simp only [execReturn, reduceCtorEq, false_and, if_false]
      split_ifs
      · exact clock_migrationHandleEvent s
      · rfl
    | error err =>
      have hclock := clock_migrationQmpError s err
      simpa [execReturn] using hclock
  | secondaryStartup | migrateCancel => cases result <;> rfl
  | stop => rfl

theorem clock_yankReturn (s : Daemon) (reply : YankReply) : (yankReturn s reply).clock = s.clock := by
  cases reply <;> rfl

/-- The wait for the end of the migration is given up. -/
def Daemon.interruptsColo (s : Daemon) : Bool :=
  s.loop.current = some .timeout || s.pendingInterrupt

theorem pending_of_pendingInterrupt (h : s.pendingInterrupt = true) :
    eventqueuePending s.loop.queue = true := by
  unfold Daemon.pendingInterrupt eventqueuePendingInterrupt eventqueuePeek at h
  unfold eventqueuePending
  cases hs : s.loop.queue.sequence with
  | nil => simp [hs] at h
  | cons => rfl

theorem clock_qmpEventWaitCo (s : Daemon) (site : QmpWaitSite) (fired : Bool) :
    (colodQmpEventWaitCo s site fired).clock =
      if site = .secondaryWait ∧ fired = true then (colodRaiseTimeoutCoroutine s).clock
      else if site = .colo ∧ fired = false ∧ s.interruptsColo then (qmpSetTimeoutLow s).clock
      else s.clock := by
  cases fired with
  | true =>
    cases site with
    | secondaryWait => exact clock_raise rfl
    | _ => rfl
  | false =>
    simp only [colodQmpEventWaitCo, Bool.false_eq_true, if_false, and_false]
    cases site with
    | colo =>
      simp only [QmpWaitSite.hasTimeout, true_and, Daemon.interruptsColo, Bool.or_eq_true,
        decide_eq_true_eq]
      by_cases hcurrent : s.loop.current = some .timeout
      · simp only [hcurrent, true_or, if_true]
        exact clock_migrationQmpError _ .timeout
      · simp only [hcurrent, false_or, if_false]
        by_cases hp : s.pendingInterrupt = true
        · have hpending := pending_of_pendingInterrupt hp
          simp only [hpending, hp, Bool.true_eq_false, if_false, if_true]
          exact clock_migrationQmpError _ .interrupt
        · rw [Bool.not_eq_true] at hp
          simp only [hp, Bool.false_eq_true, if_false, if_true]
          split_ifs <;> rfl
    | preSwitchover =>
      simp only [reduceCtorEq, false_and, if_false]
      split_ifs
      · exact clock_migrationQmpError s .timeout
      · rfl
      · rfl
      · exact clock_migrationQmpError s .interrupt
    | secondaryWait =>
      simp only [QmpWaitSite.hasTimeout, Bool.false_eq_true, reduceCtorEq, false_and, if_false]
      split_ifs
      · rfl
      · rfl
      · simp only [qmpWaitReturn]
        split_ifs <;> rfl
    | running1 | running2 =>
      simp only [reduceCtorEq, false_and, if_false]
      split_ifs <;> rfl

theorem clock_graceReturn (s : Daemon) : (graceReturn s).clock = s.clock := by
  unfold graceReturn
  split_ifs <;> rfl

theorem clock_mainCo (s : Daemon) (newState : MainState) :
    (colodMainCo s newState).clock =
      if newState = .failed then (qmpSetTimeoutLow s).clock else s.clock := by
  cases newState with
  | secondaryColoRunning | primaryColoRunning =>
    simp only [colodMainCo, reduceCtorEq, if_false]
    split_ifs <;> rfl
  | quit =>
    simp only [colodMainCo, colodMainCoReturn, reduceCtorEq, if_false]
    split_ifs <;> rfl
  | _ => rfl

/-! ### The callbacks -/

theorem clock_yellowActions (notified : Bool) (s : Daemon) (actions : List YellowAction) :
    (yellowActions notified s actions).clock = s.clock := by
  induction actions generalizing s with
  | nil => rfl
  | cons action actions ih =>
    refine (ih _).trans ?_
    cases action with
    | send message => rfl
    | notify event =>
      simp only [colodYellowEventCb]
      split_ifs <;> rfl

theorem clock_raiseWait (event : QmpEvent) (h : t.clock = s.clock) :
    (raiseWaitEventCb t event).clock = (raiseWaitEventCb s event).clock := by
  simp only [Daemon.clock, Prod.mk.injEq] at h
  obtain ⟨htimeout, hraise, hctx⟩ := h
  unfold raiseWaitEventCb
  rw [hraise]
  split <;> simp [Daemon.clock, htimeout, hraise, hctx]

theorem clock_qmpEventCb (s : Daemon) (event : QmpEvent) :
    (colodQmpEventCb s event).clock =
      if event = .reset then (colodRaiseTimeoutCoroutine s).clock else s.clock := by
  cases event with
  | reset => rfl
  | quorumReportBad nodeName type =>
    simp only [colodQmpEventCb, reduceCtorEq, if_false]
    split_ifs
    · rfl
    · rfl
    · rfl
    · exact clock_yellowActions true _ _
  | migration status =>
    simp only [colodQmpEventCb, reduceCtorEq, if_false]
    split_ifs <;> rfl
  | coloExit reason =>
    simp only [colodQmpEventCb, reduceCtorEq, if_false]
    split_ifs <;> rfl
  | stop | resume | other => rfl

/-- An event of qemu is first seen by the coroutine; a `RESET` raises the timeout. -/
theorem clock_notifyEvent (s : Daemon) (event : QmpEvent) :
    (notifyEvent s event).clock =
      if event = .reset ∧ s.freed = false then (colodRaiseTimeoutCoroutine s).clock
      else (raiseWaitEventCb s event).clock := by
  have hmain : (mainWaitEventCb s event).clock = s.clock ∧
      (mainWaitEventCb s event).freed = s.freed := by
    unfold mainWaitEventCb
    split
    · split_ifs <;> exact ⟨rfl, rfl⟩
    · exact ⟨rfl, rfl⟩
  have hclock := clock_raiseWait event hmain.1
  have hfreed : (raiseWaitEventCb (mainWaitEventCb s event) event).freed = s.freed :=
    congrArg (·.2.2.2.1) (announcement_wait s event)
  simp only [notifyEvent, hfreed]
  by_cases hf : s.freed = true
  · simpa [hf] using hclock
  · rw [if_neg hf, clock_qmpEventCb]
    have hf' : s.freed = false := by simpa using hf
    by_cases hreset : event = .reset
    · subst hreset
      have hsame : (raiseWaitEventCb (mainWaitEventCb s .reset) .reset).clock = s.clock := by
        refine hclock.trans ?_
        unfold raiseWaitEventCb
        split <;> simp_all
      simpa [hf'] using clock_raise hsame
    · simpa [hreset] using hclock

theorem clock_cpgEventCb (s : Daemon) (message : ColodMessage) (own left : Bool) :
    (colodCpgEventCb s message own left).clock = s.clock := by
  unfold colodCpgEventCb
  cases left with
  | true => rfl
  | false =>
    cases message with
    | hello =>
      simp only [Bool.false_eq_true, if_false]
      split_ifs <;> rfl
    | _ => cases own <;> rfl

theorem clock_clientRequest (s : Daemon) (i : ℕ) (client : Client) (request : ClientRequest) :
    (clientRequest s i client request).clock = s.clock := by
  cases request with
  | startMigration =>
    simp only [clientRequest, colodStartMigration]
    split_ifs <;> rfl
  | _ => rfl

theorem clock_clientDone {i : ℕ} {client : Client} {reply : Option QmpReply}
    (h : clientDone s i client reply = some t) : t.clock = s.clock := by
  have hexec := clock_executeCo s reply
  unfold clientDone at h
  simp only at h
  split at h
  · split_ifs at h
    cases h
    exact hexec
  · split_ifs at h
    cases h
    exact hexec
  · split_ifs at h
    cases h
    exact hexec
  · cases h
    exact hexec
  · cases h
    exact hexec
  · cases h
    exact hexec
  · cases h
    rfl
  · cases h

/-- The writers of the timeout among the callbacks: `RESET` and the coroutine itself. -/
def Label.ticks (s : Daemon) : Label → Daemon
  | .qmpEvent event => notifyEvent s event
  | .raiseDispatch => colodRaiseTimeoutCo s
  | _ => s

theorem clock_callback {label : Label} (h : s.callback label = some t) :
    t.clock = (label.ticks s).clock := by
  cases label with
  | qmpEvent event => cases h; rfl
  | raiseDispatch =>
    simp only [Daemon.callback] at h
    split at h
    · split_ifs at h
      cases h
      rfl
    · cases h
  | cpgDeliver message own =>
    cases h
    dsimp only
    split_ifs
    · rfl
    · exact clock_cpgEventCb _ message own false
  | cpgLeft =>
    cases h
    dsimp only
    split_ifs
    · rfl
    · exact clock_cpgEventCb _ .none false true
  | cpgRetransmit | qmpHup =>
    simp only [Daemon.callback] at h
    split_ifs at h
    cases h
    rfl
  | qmpError | nestedYank | clientNew => cases h; rfl
  | link ifname up => cases h; exact clock_yellowActions true _ _
  | yellowTimer =>
    simp only [Daemon.callback] at h
    split_ifs at h
    cases h
    exact clock_yellowActions true _ _
  | executeDone reply =>
    cases h
    exact executeCo_snd s reply ▸ clock_executeCo s reply
  | yankDone reply => cases h; cases reply <;> rfl
  | healthDone status =>
    cases h
    unfold colodCheckHealthCo
    split
    · rfl
    · split_ifs <;> rfl
  | clientRequest i request =>
    simp only [Daemon.callback] at h
    split at h
    · split_ifs at h
      cases h
      exact clock_clientRequest s i _ request
    · cases h
  | clientWrite i =>
    obtain ⟨client, -, h⟩ := Option.bind_eq_some_iff.mp h
    unfold clientWrite at h
    split at h <;> cases h <;> rfl
  | clientDone i reply =>
    obtain ⟨client, -, h⟩ := Option.bind_eq_some_iff.mp h
    exact clock_clientDone h
  | clientError i =>
    simp only [Daemon.callback] at h
    split at h
    · split_ifs at h
      cases h
      rfl
    · cases h
  | teardown =>
    simp only [Daemon.callback] at h
    split_ifs at h
    cases h
    exact clock_yellowActions false _ _
  | dispatch | run | io => cases h

/-! ### The writers of the timeout -/

/-- The next part of the main coroutine calls `colod_raise_timeout_coroutine`. -/
def Daemon.calls (s : Daemon) : Bool :=
  match s.pc with
  | .qmpWait .secondaryWait true => true
  | .array co => co.array[co.i]?.isNone && s.switches co.table
  | _ => false

/-- This step calls `colod_raise_timeout_coroutine`. -/
def Daemon.raises (s : Daemon) (label : Label) : Bool :=
  label = .run && s.calls || label.event? = some .reset && !s.freed

/-- In this step the main coroutine resets the timeout. -/
def Daemon.resets (s : Daemon) (label : Label) : Bool :=
  match label, s.pc with
  | .run, .enter newState => newState = .failed
  | .run, .qmpWait site fired => site = .colo && !fired && s.interruptsColo
  | .io (.reply reply), .exec site _ _ =>
    site = .migrateContinue && (colodExecuteCo s reply).2.givesUp (colodExecuteCo s reply).1
  | _, _ => false

/-- What a step does to the timeout and the coroutine. -/
def Daemon.ticked (s : Daemon) (label : Label) : Daemon :=
  if s.raises label then colodRaiseTimeoutCoroutine s
  else if s.resets label then qmpSetTimeoutLow s
  else
    match label with
    | .raiseDispatch => colodRaiseTimeoutCo s
    | .qmpEvent event | .io (.event event) => raiseWaitEventCb s event
    | _ => s

theorem clock_mainRun (h : mainRun s = some t) : t.clock = (s.ticked .run).clock := by
  have hsame : s.calls = false → s.resets .run = false → (s.ticked .run).clock = s.clock := by
    intro hcalls hresets
    simp [Daemon.ticked, Daemon.raises, hcalls, hresets, Label.event?]
  unfold mainRun at h
  split at h
  · rename_i hpc
    cases h
    exact (hsame (by simp [Daemon.calls, hpc]) (by simp [Daemon.resets, hpc])).symm
  · rename_i newState hpc
    cases h
    rw [clock_mainCo]
    split_ifs with hfailed
    · simp [Daemon.ticked, Daemon.raises, Daemon.calls, Daemon.resets, Label.event?, hpc, hfailed]
    · exact (hsame (by simp [Daemon.calls, hpc]) (by simp [Daemon.resets, hpc, hfailed])).symm
  · rename_i site hpc
    have hnot := hsame (by simp [Daemon.calls, hpc]) (by simp [Daemon.resets, hpc])
    split at h
    · cases h
      exact hnot.symm
    · cases h
      exact (clock_eventWaitReturn _ _ _).trans hnot.symm
  · rename_i site fired hpc
    cases h
    rw [clock_qmpEventWaitCo]
    split_ifs with hresumed hcolo
    · obtain ⟨rfl, rfl⟩ := hresumed
      simp [Daemon.ticked, Daemon.raises, Daemon.calls, hpc]
    · obtain ⟨rfl, rfl, hinterrupts⟩ := hcolo
      simp [Daemon.ticked, Daemon.raises, Daemon.calls, Daemon.resets, Label.event?, hpc,
        hinterrupts]
    · refine (hsame ?_ ?_).symm
      · cases site <;> cases fired <;> simp_all [Daemon.calls]
      · cases site <;> cases fired <;> simp_all [Daemon.resets]
  · rename_i hpc
    cases h
    rw [clock_graceReturn]
    exact (hsame (by simp [Daemon.calls, hpc]) (by simp [Daemon.resets, hpc])).symm
  · rename_i co hpc
    cases h
    rw [clock_executeArrayCo]
    split_ifs with hswitches
    · simp [Daemon.ticked, Daemon.raises, Daemon.calls, hpc, hswitches]
    · exact (hsame (by simpa [Daemon.calls, hpc] using hswitches) (by simp [Daemon.resets, hpc])).symm
  all_goals cases h

theorem clock_event {label : Label} {event : QmpEvent}
    (hlabel : label = .qmpEvent event ∨ label = .io (.event event)) :
    (notifyEvent s event).clock = (s.ticked label).clock := by
  rw [clock_notifyEvent]
  rcases hlabel with rfl | rfl
  · simp only [Daemon.ticked, Daemon.raises, Daemon.resets, Label.event?]
    split_ifs <;> simp_all
  · simp only [Daemon.ticked, Daemon.raises, Daemon.resets, Label.event?]
    split_ifs <;> simp_all

theorem clock_io {x : IoStep} (h : s.io x = some t) : t.clock = (s.ticked (.io x)).clock := by
  have hsame : (∀ event, x ≠ .event event) → s.resets (.io x) = false →
      (s.ticked (.io x)).clock = s.clock := by
    intro hevent hresets
    have hnone : (Label.io x).event? = none := by
      cases x <;> simp [Label.event?] at hevent ⊢
    simp only [Daemon.ticked, Daemon.raises, hnone, hresets]
    cases x <;> simp at hevent ⊢
  rcases io_cases h with ⟨site, written, inner, inner', hpc, rfl, ht⟩ |
      ⟨site, inner, hpc, rfl, ht⟩ | ⟨site, inner, event, hpc, rfl, ht⟩ |
      ⟨site, inner, hpc, rfl, ht⟩ | ⟨site, written, inner, reply, hpc, rfl, hw, ht⟩ |
      ⟨inner, inner', hpc, rfl, ht⟩ | ⟨inner, reply, hpc, rfl, ht⟩
  · rw [hsame (by simp) rfl, ht]
    rfl
  · rw [hsame (by simp) rfl, ht]
    rfl
  · rw [ht]
    exact clock_event (.inr rfl)
  · rw [hsame (by simp) rfl, ht]
    rfl
  · have hexec := clock_executeCo s reply
    rw [ht, clock_execReturn]
    split_ifs with hgives
    · simp only [Daemon.clock, Prod.mk.injEq] at hexec
      simp [Daemon.ticked, Daemon.raises, Daemon.resets, Label.event?, hpc, hgives, Daemon.clock,
        qmpSetTimeoutLow, hexec]
    · rw [hexec, hsame (by simp) (by simpa [Daemon.resets, hpc] using hgives)]
  · rw [hsame (by simp) rfl, ht]
    rfl
  · rw [hsame (by simp) rfl, ht]
    exact clock_yankReturn s reply

theorem clock_step {label : Label} (hstep : step s label = some t) :
    t.clock = (s.ticked label).clock := by
  rcases step_cases hstep with ⟨-, hc⟩ | ⟨source, rfl, -, hd⟩ | ⟨rfl, -, hm⟩ | ⟨x, rfl, -, hio⟩
  · have hclock := clock_callback hc
    cases label with
    | qmpEvent event => exact hclock.trans (clock_event (.inl rfl))
    | io | dispatch | run => cases hc
    | _ => exact hclock
  · obtain ⟨wakeSources, resumeSources, rfl⟩ := dispatch_eq hd
    rfl
  · exact clock_mainRun hm
  · exact clock_io hio

theorem ctx_step {label : Label} (hstep : step s label = some t) : t.ctx = s.ctx := by
  have hctx : t.ctx = (s.ticked label).ctx := congrArg (·.2.2) (clock_step hstep)
  rw [hctx]
  unfold Daemon.ticked
  split_ifs
  · unfold colodRaiseTimeoutCoroutine
    split_ifs <;> rfl
  · rfl
  · split
    · unfold colodRaiseTimeoutCo
      split <;> rfl
    · unfold raiseWaitEventCb
      split <;> rfl
    · unfold raiseWaitEventCb
      split <;> rfl
    · rfl

/-- `migrate-continue` is about to be written from the call on that raises the timeout. -/
theorem migrateContinue_step {label : Label} {inner : InnerWait} (hstep : step s label = some t)
    (hpc : t.pc = .exec .migrateContinue false inner) :
    s.raises label = true ∨
      (∃ inner', s.pc = .exec .migrateContinue false inner') ∧ s.resets label = false := by
  cases change_of_step hstep with
  | callback _ hc hout =>
    have ho := hout.pc
    rw [hpc] at ho
    have hs : s.pc = .exec .migrateContinue false inner := by
      generalize s.pc = pc, s.resumeSources = n, t.resumeSources = n' at ho
      cases ho
      rfl
    refine .inr ⟨⟨inner, hs⟩, ?_⟩
    cases label with
    | io | run | dispatch => cases hc
    | _ => rfl
  | dispatch source _ hd =>
    obtain ⟨wakeSources, resumeSources, rfl⟩ := dispatch_eq hd
    exact .inr ⟨⟨inner, hpc⟩, rfl⟩
  | start _ _ ht =>
    rw [ht] at hpc
    simp [colodMainCoStart, Daemon.goto] at hpc
  | enter newState _ _ ht =>
    have hpoint := enter_next s newState
    rw [← ht, Daemon.point, hpc] at hpoint
    cases newState <;> simp [MainState.next, Pc.point, ExecSite.point] at hpoint
  | wait site _ _ hs _ ht =>
    rw [ht] at hpc
    rw [show s.pc = _ from hpc] at hs
    cases hs
  | event _ _ _ _ _ _ _ _ hturn hc =>
    rw [hc.pc] at hpc
    rw [hpc] at hturn
    cases hturn
  | turn pc pc' obs susp _ hs hturn hc =>
    rw [hc.pc] at hpc
    rw [hpc] at hturn
    cases hturn with
    | arrayEnd co _ _ hi harray =>
      generalize htable : co.table = table at harray
      cases harray with
      | migrateContinue hpending =>
        exact .inl (by
          simp [Daemon.raises, Daemon.calls, hs, hi, Daemon.switches, htable, hpending])
    | arrayInterrupted co _ _ _ _ _ harray =>
      generalize co.table = table at harray
      cases harray
  | suspend site written inner' inner'' _ hs ht =>
    rw [ht] at hpc
    simp only [Daemon.suspendAt, Pc.exec.injEq] at hpc
    obtain ⟨rfl, rfl, -⟩ := hpc
    exact .inr ⟨⟨inner', hs⟩, rfl⟩
  | write _ _ _ _ hc =>
    rw [hc.pc] at hpc
    cases hpc
  | line _ _ _ _ _ ht =>
    rw [ht] at hpc
    cases hpc
  | nestedYank site _ _ hs ht =>
    rw [ht] at hpc
    rw [show s.pc = _ from hpc] at hs
    cases hs
  | executed _ _ _ reply _ _ _ _ _ _ hturn hc =>
    rw [hc.pc] at hpc
    rw [hpc] at hturn
    generalize (colodExecuteCo s reply).1 = result at hturn
    cases hturn with
    | broken co _ _ _ _ _ harray =>
      generalize co.table = table at harray
      cases harray
  | yankSuspend _ _ _ _ ht =>
    rw [ht] at hpc
    cases hpc
  | yanked _ _ _ _ _ hc | yankFailed _ _ _ _ _ hc =>
    rw [hc.pc] at hpc
    cases hpc

/-! ### Whole runs -/

/-- What has been seen of `STOP` and `RESUME` since the last call of
`colod_raise_timeout_coroutine`. -/
inductive Seen
  | nothing
  | stop
  deriving DecidableEq, Repr

/-- What has been seen after one more event of qemu. -/
def hearsSince (event : QmpEvent) : Option Seen → Option Seen
  | some .nothing => if event = .stop then some .stop else some .nothing
  | some .stop => if event = .resume then none else some .stop
  | none => none

/-- `since` is none before the first call, once a `STOP` and then a `RESUME` have been seen, and
once the main coroutine has reset the timeout. `sentLow` says that `migrate-continue` was written
without the high timeout. -/
structure Raised where
  daemon : Daemon
  since : Option Seen
  sentLow : Bool

namespace Raised
variable {r r' : Raised}

def init (ctx : ColodContext) : Raised := ⟨.init ctx, none, false⟩

def high (this : Raised) : Prop := this.daemon.timeout = this.daemon.ctx.qmpTimeoutHigh

instance (this : Raised) : Decidable this.high := inferInstanceAs (Decidable (_ = _))

def nextSince (this : Raised) (label : Label) : Option Seen :=
  if this.daemon.raises label then some .nothing
  else if this.daemon.resets label then none
  else
    match label.event? with
    | some event => hearsSince event this.since
    | none => this.since

/-- This step writes `migrate-continue`. -/
def continues (this : Raised) (label : Label) : Bool :=
  match this.daemon.pc, label with
  | .exec .migrateContinue false _, .io .write => true
  | _, _ => false

def step (this : Raised) (label : Label) : Option Raised :=
  (ColoDaemon.step this.daemon label).map fun daemon =>
    { daemon
      since := this.nextSince label
      sentLow := this.sentLow || this.continues label && !decide this.high }

/-- The property: the timeout is high after a call until `STOP` and `RESUME` have been seen or it is
reset, it is high when `migrate-continue` is written, and it is low while no coroutine is active. -/
structure Kept (this : Raised) : Prop where
  high : this.since.isSome = true → this.high
  sent : this.sentLow = false
  low : this.daemon.raise = none → this.daemon.timeout = this.daemon.ctx.qmpTimeoutLow

/-- The coroutine has not seen a `STOP` yet. -/
def beforeStop : Option RaisePc → Bool
  | some .start | some (.waitStop false) => true
  | _ => false

/-- The condition on a step. A call finds no coroutine, or one that still waits for `STOP` while the
timeout is high; when `migrate-continue` is written the coroutine is still active; and the coroutine
is not ended by `colod_raise_timeout_coroutine_free`. -/
structure Effective (this : Raised) (label : Label) : Prop where
  call : this.daemon.raises label = true →
    this.daemon.raise = none ∨ this.high ∧ beforeStop this.daemon.raise = true
  sent : this.continues label = true → this.daemon.raise.isSome = true
  kept : label = .raiseDispatch → ∀ pc ∈ this.daemon.raise, pc.resumable = true

instance (this : Raised) (label : Label) : Decidable (this.Effective label) :=
  decidable_of_iff ((this.daemon.raises label = true →
      this.daemon.raise = none ∨ this.high ∧ beforeStop this.daemon.raise = true) ∧
    (this.continues label = true → this.daemon.raise.isSome = true) ∧
    (label = .raiseDispatch → ∀ pc ∈ this.daemon.raise, pc.resumable = true))
    ⟨fun h => ⟨h.1, h.2.1, h.2.2⟩, fun h => ⟨h.call, h.sent, h.kept⟩⟩

/-- The program points of the coroutine that go with what has been seen. -/
def awaits : Seen → Option RaisePc → Bool
  | .nothing, raise => beforeStop raise
  | .stop, some .start | .stop, some (.waitStop _) | .stop, some (.waitResume false) => true
  | .stop, _ => false

structure Sure (this : Raised) : Prop where
  kept : this.Kept
  awaits : ∀ seen ∈ this.since, awaits seen this.daemon.raise = true
  sending : (∃ inner, this.daemon.pc = .exec .migrateContinue false inner) →
    this.daemon.raise.isSome = true → this.high

theorem pc_of_continues {label : Label} (h : r.continues label = true) :
    ∃ inner, r.daemon.pc = .exec .migrateContinue false inner := by
  unfold continues at h
  split at h
  · rename_i inner hpc
    exact ⟨inner, hpc⟩
  · cases h

/-- What the timeout and the coroutine owe to the last call. -/
structure Owed (this : Raised) (daemon : Daemon) : Prop where
  high : this.since.isSome = true → daemon.timeout = daemon.ctx.qmpTimeoutHigh
  awaits : ∀ seen ∈ this.since, awaits seen daemon.raise = true
  low : daemon.raise = none → daemon.timeout = daemon.ctx.qmpTimeoutLow

theorem Owed.of_clock {this : Raised} (h : this.Owed s) (hclock : t.clock = s.clock) :
    this.Owed t := by
  simp only [Daemon.clock, Prod.mk.injEq] at hclock
  obtain ⟨htimeout, hraise, hctx⟩ := hclock
  refine ⟨?_, ?_, ?_⟩
  · rw [htimeout, hctx]
    exact h.high
  · rw [hraise]
    exact h.awaits
  · rw [hraise, htimeout, hctx]
    exact h.low

theorem owed_call {this : Raised} (hsince : this.since = some .nothing)
    (hcall : s.raise = none ∨ s.timeout = s.ctx.qmpTimeoutHigh ∧ beforeStop s.raise = true) :
    this.Owed (colodRaiseTimeoutCoroutine s) := by
  unfold colodRaiseTimeoutCoroutine
  rcases hcall with hnone | ⟨hhigh, hbefore⟩
  · rw [if_neg (by simp [hnone])]
    exact ⟨fun _ => rfl, by simp [hsince, awaits, beforeStop], by simp⟩
  · cases hraise : s.raise with
    | none => simp [hraise, beforeStop] at hbefore
    | some pc =>
      rw [if_pos (by simp)]
      refine ⟨fun _ => hhigh, ?_, by simp [hraise]⟩
      simpa [hsince, awaits] using hbefore

theorem owed_dispatch (hs : r.Owed s) (hkept : ∀ pc ∈ s.raise, pc.resumable = true) :
    r.Owed (colodRaiseTimeoutCo s) := by
  have hawaits := hs.awaits
  unfold colodRaiseTimeoutCo
  cases hraise : s.raise with
  | none => simpa [hraise] using hs
  | some pc =>
    rw [hraise] at hawaits
    have hresumable := hkept pc hraise
    cases pc with
    | start =>
      refine ⟨hs.high, ?_, by simp⟩
      intro seen _
      cases seen <;> rfl
    | waitStop fired =>
      cases fired with
      | false => cases hresumable
      | true =>
        refine ⟨hs.high, ?_, by simp⟩
        intro seen hseen
        cases seen with
        | nothing => cases hawaits .nothing hseen
        | stop => rfl
    | waitResume fired =>
      cases fired with
      | false => cases hresumable
      | true =>
        have hnone : r.since = none := by
          rw [Option.eq_none_iff_forall_not_mem]
          intro seen hseen
          cases seen <;> cases hawaits _ hseen
        exact ⟨by simp [hnone], by simp [hnone], fun _ => rfl⟩

theorem raiseWait_eq (s : Daemon) (event : QmpEvent) :
    ∃ raise, raiseWaitEventCb s event = { s with raise } ∧ (raise = none ↔ s.raise = none) ∧
      ∀ seen, awaits seen s.raise = true → ∀ seen' ∈ hearsSince event (some seen),
        awaits seen' raise = true := by
  unfold raiseWaitEventCb
  split
  · rename_i fired hraise
    refine ⟨_, rfl, by simp [hraise], ?_⟩
    intro seen _ seen' hseen'
    cases seen <;> simp [hearsSince] at hseen' <;> subst hseen' <;> rfl
  · rename_i fired hraise
    refine ⟨_, rfl, by simp [hraise], ?_⟩
    intro seen hawaits seen' hseen'
    rw [hraise] at hawaits
    cases seen with
    | nothing => cases hawaits
    | stop => simp [hearsSince] at hseen'
  · rename_i event _ _ hstop hresume
    refine ⟨s.raise, rfl, Iff.rfl, ?_⟩
    intro seen hawaits seen' hseen'
    have hcases : seen' = seen ∨ seen = .nothing ∧ event = .stop ∧ seen' = .stop := by
      cases seen with
      | nothing =>
        by_cases he : event = .stop
        · exact .inr ⟨rfl, he, by simpa [hearsSince, he] using hseen'.symm⟩
        · exact .inl (by simpa [hearsSince, he] using hseen'.symm)
      | stop =>
        by_cases he : event = .resume
        · simp [hearsSince, he] at hseen'
        · exact .inl (by simpa [hearsSince, he] using hseen'.symm)
    rcases hcases with rfl | ⟨rfl, rfl, rfl⟩
    · exact hawaits
    · cases hraise : s.raise with
      | none => simp [hraise, awaits, beforeStop] at hawaits
      | some pc =>
        cases pc with
        | start => rfl
        | waitStop fired => exact (hstop fired hraise rfl).elim
        | waitResume => simp [hraise, awaits, beforeStop] at hawaits

theorem owed_event {event : QmpEvent} (hs : r.Owed s)
    (hsince : r'.since = hearsSince event r.since) : r'.Owed (raiseWaitEventCb s event) := by
  obtain ⟨raise, heq, hnone, hawaits⟩ := raiseWait_eq s event
  rw [heq]
  refine ⟨?_, ?_, fun h => hs.low (hnone.mp h)⟩
  · intro hsome
    apply hs.high
    cases h : r.since with
    | none => simp [hsince, h, hearsSince] at hsome
    | some => rfl
  · intro seen' hseen'
    cases h : r.since with
    | none => simp [hsince, h, hearsSince] at hseen'
    | some seen =>
      rw [hsince, h] at hseen'
      exact hawaits seen (hs.awaits seen h) seen' hseen'

theorem owed_step {label : Label} (hr : r.Sure) (hl : r.Effective label)
    (hsince : r'.since = r.nextSince label) : r'.Owed (r.daemon.ticked label) := by
  have hs : r.Owed r.daemon := ⟨hr.kept.high, hr.awaits, hr.kept.low⟩
  unfold nextSince at hsince
  unfold Daemon.ticked
  split_ifs at hsince ⊢ with hraises hresets
  · exact owed_call hsince (hl.call hraises)
  · exact ⟨by simp [hsince], by simp [hsince], fun _ => rfl⟩
  · have howed : label.event? = none → r'.Owed r.daemon := by
      intro hnone
      rw [hnone] at hsince
      exact ⟨hsince ▸ hs.high, hsince ▸ hs.awaits, hs.low⟩
    split
    · exact owed_dispatch (howed rfl) (hl.kept rfl)
    · exact owed_event hs hsince
    · exact owed_event hs hsince
    · rename_i hdispatch hevent hline
      apply howed
      cases label with
      | qmpEvent event => exact absurd rfl (hevent event)
      | io x => cases x <;> first | rfl | exact absurd rfl (hline _)
      | _ => rfl

/-- The timeout is lowered only together with the end of the coroutine, or by a reset. -/
theorem timeout_ticked {label : Label} (hraises : s.raises label = false)
    (hresets : s.resets label = false) (hsome : (s.ticked label).raise.isSome = true) :
    s.raise.isSome = true ∧ (s.ticked label).timeout = s.timeout := by
  have hevent : ∀ event, (raiseWaitEventCb s event).raise.isSome = true →
      s.raise.isSome = true ∧ (raiseWaitEventCb s event).timeout = s.timeout := by
    intro event h
    obtain ⟨raise, heq, hnone, -⟩ := raiseWait_eq s event
    rw [heq] at h ⊢
    refine ⟨?_, rfl⟩
    rw [Option.isSome_iff_ne_none] at h ⊢
    exact mt hnone.mpr h
  unfold Daemon.ticked at hsome ⊢
  simp only [hraises, hresets, Bool.false_eq_true, if_false] at hsome ⊢
  split at hsome
  · unfold colodRaiseTimeoutCo at hsome ⊢
    split at hsome <;> simp_all [qmpSetTimeoutLow]
  · exact hevent _ hsome
  · exact hevent _ hsome
  · exact ⟨hsome, rfl⟩

theorem sure_step {label : Label} (hstep : step r label = some r') (hr : r.Sure)
    (hl : r.Effective label) : r'.Sure := by
  obtain ⟨t, hd, rfl⟩ := Option.map_eq_some_iff.mp hstep
  have hclock := clock_step hd
  have howed : Owed ⟨t, r.nextSince label, r.sentLow || r.continues label && !decide r.high⟩ t :=
    (owed_step hr hl rfl).of_clock hclock
  refine ⟨⟨howed.high, ?_, howed.low⟩, howed.awaits, ?_⟩
  · by_cases hcontinues : r.continues label = true
    · have hhigh := hr.sending (pc_of_continues hcontinues) (hl.sent hcontinues)
      simp [hr.kept.sent, hhigh]
    · simp [hr.kept.sent, hcontinues]
  · rintro ⟨inner, hpc⟩ hsome
    by_cases hraises : r.daemon.raises label = true
    · exact howed.high (by simp [nextSince, hraises])
    · obtain ⟨hbefore, hresets⟩ := (migrateContinue_step hd hpc).resolve_left hraises
      have htimeout : t.timeout = (r.daemon.ticked label).timeout := congrArg (·.1) hclock
      have hraise : t.raise = (r.daemon.ticked label).raise := congrArg (·.2.1) hclock
      rw [hraise] at hsome
      obtain ⟨hsome', hsame⟩ := timeout_ticked (by simpa using hraises) hresets hsome
      have hhigh := hr.sending hbefore hsome'
      show t.timeout = t.ctx.qmpTimeoutHigh
      rw [htimeout, hsame, ctx_step hd]
      exact hhigh

/-! ### The claim -/

theorem timeout_kept (ctx : ColodContext) (labels : List Label) (r : Raised)
    (hrun : run step (init ctx) labels = some r)
    (halong : Along step Effective (init ctx) labels) : r.Kept := by
  have hsure : r.Sure := by
    refine run_invariant_along (fun _ _ _ hstep hl hu => sure_step hstep hu hl) hrun halong ?_
    refine ⟨⟨by simp [init], rfl, fun _ => rfl⟩, by simp [init], ?_⟩
    rintro ⟨inner, hpc⟩
    cases hpc
  exact hsure.kept

theorem timeout_kept_coloRunning :
    ∃ r, run step (init Schedule.context) Schedule.coloRunning = some r ∧
      r.since = some .nothing ∧ r.high := by
  have hcheck : (run step (init Schedule.context) Schedule.coloRunning).map
      (fun r => r.since) = some (some .nothing) := by decide
  obtain ⟨r, hrun, hsince⟩ := Option.map_eq_some_iff.mp hcheck
  have halong : Along step Effective (init Schedule.context) Schedule.coloRunning := by decide
  have hkept := timeout_kept Schedule.context Schedule.coloRunning r hrun halong
  exact ⟨r, hrun, hsince, hkept.high (by rw [hsince]; rfl)⟩

/-- The secondary fails before the guest has stopped, and qemu is reset. -/
def resetWhileFailed : List Label :=
  Schedule.coloRunning ++ [.qmpHup, .dispatch (.wake 1), .run, .run, .io (.suspend .channel),
    .qmpEvent .reset]

/-- The call finds the coroutine of the resumption and leaves the timeout low. -/
theorem timeout_not_raised :
    ¬ ∀ (ctx : ColodContext) (labels : List Label) (r : Raised),
      run step (init ctx) labels = some r → r.Kept := by
  intro hclaim
  have hcheck : (run step (init Schedule.context) resetWhileFailed).map
      (fun r => (r.since, decide r.high)) = some (some .nothing, false) := by decide
  obtain ⟨r, hrun, hr⟩ := Option.map_eq_some_iff.mp hcheck
  simp only [Prod.mk.injEq, decide_eq_false_iff_not] at hr
  have hkept := hclaim Schedule.context resetWhileFailed r hrun
  exact hr.2 (hkept.high (by rw [hr.1]; rfl))

end Raised
end ColoDaemon
