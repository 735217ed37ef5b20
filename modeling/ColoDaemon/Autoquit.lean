import ColoDaemon.ControlFlow
import ColoDaemon.EventLoss
import ColoDaemon.FailoverSync
import ColoDaemon.YellowPrimary

/-!
# Autoquit

A daemon that was asked to quit with qemu has to notice two things, the request and the end of
qemu, in either order. `STATE_FAILED` notices the request when qemu has quit before,
`STATE_AUTOQUIT` the end of qemu after the request. `Remembers` says where the main coroutine is
after each of the two, as long as no event is lost.
-/

namespace ColoDaemon
open Runs EventLoop
variable {s t : Daemon}

/-- This step calls `do_autoquit`. -/
def Daemon.DoesAutoquit (s : Daemon) (label : Label) : Prop :=
  s.qemuQuit = true ∧
    (s.pc = .eventWait .failed ∧ s.pops label = some .autoquit ∨
      s.pc = .eventWait .autoquit ∧ s.pops label = some .failed)

/-- The main coroutine has popped an `EVENT_AUTOQUIT`. -/
def Daemon.AutoquitPopped (s : Daemon) : Prop := ∃ state, .popped state .autoquit ∈ s.trace

/-- The main coroutine has gone to `STATE_QUIT`. -/
def Daemon.GoneToQuit (s : Daemon) : Prop := s.pc = .enter .quit ∨ s.state = .quit

/-! ### The end of qemu and of the main loop -/

/-- What a step other than the end of qemu does to the two flags. -/
structure KeepsFlags (s t : Daemon) : Prop where
  qemuQuit : t.qemuQuit = s.qemuQuit
  loopQuit : s.loopQuit = true → t.loopQuit = true

namespace KeepsFlags
variable {u : Daemon}

theorem of_eq (hqemu : t.qemuQuit = s.qemuQuit) (hloop : t.loopQuit = s.loopQuit) :
    KeepsFlags s t := ⟨hqemu, fun h => hloop.trans h⟩

theorem trans (h : KeepsFlags s t) (h' : KeepsFlags t u) : KeepsFlags s u :=
  ⟨h'.qemuQuit.trans h.qemuQuit, fun hs => h'.loopQuit (h.loopQuit hs)⟩

end KeepsFlags

/-- The flags that only the end of qemu and a quit set. -/
def Daemon.flags (s : Daemon) := (s.qemuQuit, s.loopQuit)

theorem keepsFlags_of_flags (h : t.flags = s.flags) : KeepsFlags s t :=
  .of_eq (congrArg Prod.fst h) (congrArg Prod.snd h)

theorem flags_gotoHandled (s : Daemon) (event : ColodEvent) :
    (s.gotoHandled event).flags = s.flags := by
  unfold Daemon.gotoHandled
  split <;> rfl

theorem keepsFlags_eventWaitReturn (s : Daemon) (site : EventWaitSite) (event : ColodEvent) :
    KeepsFlags s (eventWaitReturn s site event) := by
  cases site with
  | primaryWait => cases event <;> exact .of_eq rfl rfl
  | failed | autoquit =>
    cases event <;> simp only [eventWaitReturn] <;> (try split_ifs) <;>
      first | exact .of_eq rfl rfl | exact ⟨rfl, fun _ => rfl⟩
  | secondaryWait | coloRunning | startMigration | failoverSync =>
    simp only [eventWaitReturn]
    split_ifs <;>
      first | exact .of_eq rfl rfl | exact keepsFlags_of_flags (flags_gotoHandled s event)

theorem flags_migrationHandleEvent (s : Daemon) : (migrationHandleEvent s).flags = s.flags := by
  unfold migrationHandleEvent
  split_ifs <;> rfl

theorem flags_migrationQmpError (s : Daemon) (err : ColodError) :
    (migrationQmpError s err).flags = s.flags := by
  cases err with
  | interrupt => exact flags_migrationHandleEvent s
  | _ => rfl

theorem flags_raiseTimeout (s : Daemon) : (colodRaiseTimeoutCoroutine s).flags = s.flags := by
  unfold colodRaiseTimeoutCoroutine
  split_ifs <;> rfl

theorem flags_executeArrayReturn (s : Daemon) (table : CommandTable) (err : Option ColodError) :
    (executeArrayReturn s table err).flags = s.flags := by
  cases table with
  | migrationStart | migrationSwitchover =>
    cases err with
    | some err => exact flags_migrationQmpError s err
    | none =>
      simp only [executeArrayReturn]
      split_ifs
      · exact flags_migrationHandleEvent s
      · first | rfl | exact flags_raiseTimeout s
  | failoverPrimary | failoverSecondary => cases err <;> rfl

theorem flags_executeArrayCo (s : Daemon) (co : ArrayFrame) :
    (colodExecuteArrayCo s co).flags = s.flags := by
  unfold colodExecuteArrayCo
  split
  · exact flags_executeArrayReturn s _ _
  · split_ifs
    · rfl
    · exact flags_executeArrayReturn s _ _
    · rfl

theorem flags_execReturn (s : Daemon) (site : ExecSite) (result : Except ColodError Unit) :
    (execReturn s site result).flags = s.flags := by
  cases site with
  | secondaryStartup | migrateCancel | stop => cases result <;> rfl
  | migrationCapabilities =>
    cases result with
    | ok =>
      simp only [execReturn]
      split_ifs
      · exact flags_migrationHandleEvent s
      · rfl
    | error err => exact flags_migrationQmpError s err
  | migrateContinue =>
    cases result with
    | ok =>
      simp only [execReturn]
      split_ifs
      · exact flags_migrationHandleEvent _
      · rfl
    | error err => exact flags_migrationQmpError _ err
  | element co line =>
    simp only [execReturn, executeArrayElement]
    cases result with
    | ok => rfl
    | error err =>
      simp only
      split_ifs
      · rfl
      · exact flags_executeArrayReturn s _ _

theorem flags_qmpWaitReturn (s : Daemon) (site : QmpWaitSite) (err : Option ColodError) :
    (qmpWaitReturn s site err).flags = s.flags := by
  cases err with
  | none =>
    cases site with
    | secondaryWait => exact flags_raiseTimeout _
    | _ => rfl
  | some err =>
    cases site with
    | secondaryWait =>
      simp only [qmpWaitReturn]
      split_ifs <;> rfl
    | preSwitchover => exact flags_migrationQmpError s err
    | colo => exact flags_migrationQmpError _ err
    | running1 | running2 => rfl

theorem flags_qmpEventWaitCo (s : Daemon) (site : QmpWaitSite) (fired : Bool) :
    (colodQmpEventWaitCo s site fired).flags = s.flags := by
  unfold colodQmpEventWaitCo
  split_ifs <;> first | rfl | exact flags_qmpWaitReturn s site _

theorem flags_graceReturn (s : Daemon) : (graceReturn s).flags = s.flags := by
  unfold graceReturn
  split_ifs <;> rfl

theorem flags_mainCo (s : Daemon) (newState : MainState) :
    (colodMainCo s newState).flags = s.flags := by
  cases newState with
  | secondaryColoRunning | primaryColoRunning =>
    simp only [colodMainCo]
    split_ifs <;> rfl
  | quit =>
    simp only [colodMainCo, colodMainCoReturn]
    split_ifs <;> rfl
  | _ => rfl

theorem keepsFlags_mainRun (h : mainRun s = some t) : KeepsFlags s t := by
  unfold mainRun at h
  split at h
  · cases h
    exact .of_eq rfl rfl
  · cases h
    exact keepsFlags_of_flags (flags_mainCo s _)
  · split at h
    · cases h
      exact .of_eq rfl rfl
    · rename_i site _ _ event loop _
      cases h
      have hkeeps := keepsFlags_eventWaitReturn
        ({ s with loop }.observe (.popped s.state event)) site event
      exact ⟨hkeeps.qemuQuit, hkeeps.loopQuit⟩
  · cases h
    exact keepsFlags_of_flags (flags_qmpEventWaitCo s _ _)
  · cases h
    exact keepsFlags_of_flags (flags_graceReturn s)
  · cases h
    exact keepsFlags_of_flags (flags_executeArrayCo s _)
  all_goals cases h

/-! ### The callbacks -/

theorem flags_yellowActions (notified : Bool) (s : Daemon) (actions : List YellowAction) :
    (yellowActions notified s actions).flags = s.flags := by
  induction actions generalizing s with
  | nil => rfl
  | cons action actions ih =>
    refine (ih _).trans ?_
    cases action with
    | send message => rfl
    | notify event =>
      simp only [colodYellowEventCb]
      split_ifs <;> rfl

theorem flags_qmpEventCb (s : Daemon) (event : QmpEvent) :
    (colodQmpEventCb s event).flags = s.flags := by
  cases event with
  | quorumReportBad nodeName type =>
    simp only [colodQmpEventCb]
    split_ifs <;> first | rfl | exact (flags_yellowActions true _ _).trans rfl
  | migration | coloExit =>
    simp only [colodQmpEventCb]
    split_ifs <;> rfl
  | reset => exact flags_raiseTimeout s
  | stop | resume | other => rfl

theorem flags_notifyEvent (s : Daemon) (event : QmpEvent) :
    (notifyEvent s event).flags = s.flags := by
  have hmain : (mainWaitEventCb s event).flags = s.flags := by
    unfold mainWaitEventCb
    split
    · split_ifs <;> rfl
    · rfl
  have hraise : ∀ u : Daemon, (raiseWaitEventCb u event).flags = u.flags := by
    intro u
    unfold raiseWaitEventCb
    split <;> rfl
  simp only [notifyEvent]
  split_ifs
  · exact (hraise _).trans hmain
  · exact (flags_qmpEventCb _ event).trans ((hraise _).trans hmain)

theorem flags_executeCo (s : Daemon) (reply : Option QmpReply) :
    (colodExecuteCo s reply).2.flags = s.flags := by
  obtain ⟨loop, qmpError, didYank, h, -⟩ := executeCo_eq s reply
  rw [h]
  rfl

theorem flags_cpgEventCb (s : Daemon) (message : ColodMessage) (own left : Bool) :
    (colodCpgEventCb s message own left).flags = s.flags := by
  cases left with
  | true => rfl
  | false =>
    cases message with
    | hello =>
      simp only [colodCpgEventCb, Bool.false_eq_true, if_false]
      split_ifs <;> rfl
    | _ => cases own <;> rfl

theorem flags_clientDone {i : ℕ} {client : Client} {reply : Option QmpReply}
    (h : clientDone s i client reply = some t) : t.flags = s.flags := by
  have hexec := flags_executeCo s reply
  unfold clientDone at h
  simp only at h
  split at h
  · split_ifs at h
    cases h
    exact hexec
  · split_ifs at h
    cases h
    exact hexec
  · split_ifs at h
    cases h
    exact hexec
  · cases h
    exact hexec
  · cases h
    exact hexec
  · cases h
    exact hexec
  · cases h
    rfl
  · cases h

theorem keepsFlags_clientRequest (s : Daemon) (i : ℕ) (client : Client)
    (request : ClientRequest) : KeepsFlags s (clientRequest s i client request) := by
  cases request with
  | startMigration =>
    simp only [clientRequest, colodStartMigration]
    split_ifs <;> exact .of_eq rfl rfl
  | quit => exact ⟨rfl, fun _ => rfl⟩
  | _ => exact .of_eq rfl rfl

theorem keepsFlags_callback {label : Label} (h : s.callback label = some t) :
    KeepsFlags s t ∨ label = .qmpHup ∧ t = colodHupCb s := by
  cases label with
  | qmpHup =>
    simp only [Daemon.callback] at h
    split_ifs at h
    cases h
    exact .inr ⟨rfl, rfl⟩
  | cpgDeliver message own =>
    simp only [Daemon.callback, Option.some.injEq] at h
    subst h
    split_ifs
    · exact .inl (.of_eq rfl rfl)
    · exact .inl (keepsFlags_of_flags (flags_cpgEventCb _ message own false))
  | cpgLeft =>
    simp only [Daemon.callback, Option.some.injEq] at h
    subst h
    split_ifs <;> exact .inl (.of_eq rfl rfl)
  | cpgRetransmit =>
    simp only [Daemon.callback] at h
    split_ifs at h
    cases h
    exact .inl (.of_eq rfl rfl)
  | qmpEvent event =>
    cases h
    exact .inl (keepsFlags_of_flags (flags_notifyEvent s event))
  | qmpError | nestedYank | clientNew =>
    cases h
    exact .inl (.of_eq rfl rfl)
  | link ifname up =>
    cases h
    exact .inl (keepsFlags_of_flags (flags_yellowActions true _ _))
  | yellowTimer =>
    simp only [Daemon.callback] at h
    split_ifs at h
    cases h
    exact .inl (keepsFlags_of_flags (flags_yellowActions true _ _))
  | raiseDispatch =>
    simp only [Daemon.callback] at h
    split at h
    · split_ifs at h
      cases h
      refine .inl (keepsFlags_of_flags ?_)
      unfold colodRaiseTimeoutCo
      split <;> rfl
    · cases h
  | executeDone reply =>
    cases h
    refine .inl (keepsFlags_of_flags ?_)
    rw [← executeCo_snd]
    exact flags_executeCo s reply
  | yankDone reply =>
    cases h
    cases reply <;> exact .inl (.of_eq rfl rfl)
  | healthDone status =>
    cases h
    unfold colodCheckHealthCo
    split
    · exact .inl (.of_eq rfl rfl)
    · split_ifs <;> exact .inl (.of_eq rfl rfl)
  | clientRequest i request =>
    simp only [Daemon.callback] at h
    split at h
    · split_ifs at h
      cases h
      exact .inl (keepsFlags_clientRequest s i _ request)
    · cases h
  | clientWrite i =>
    obtain ⟨client, -, hwrite⟩ := Option.bind_eq_some_iff.mp h
    unfold clientWrite at hwrite
    split at hwrite <;> cases hwrite <;> exact .inl (.of_eq rfl rfl)
  | clientDone i reply =>
    obtain ⟨client, -, hdone⟩ := Option.bind_eq_some_iff.mp h
    exact .inl (keepsFlags_of_flags (flags_clientDone hdone))
  | clientError i =>
    simp only [Daemon.callback] at h
    split at h
    · split_ifs at h
      cases h
      exact .inl (.of_eq rfl rfl)
    · cases h
  | teardown =>
    simp only [Daemon.callback] at h
    split_ifs at h
    cases h
    exact .inl (keepsFlags_of_flags (flags_yellowActions false _ _))
  | dispatch | run | io => cases h

/-- Only the end of qemu sets `qemu_quit`, and it queues `EVENT_FAILED`. -/
theorem keepsFlags_step {label : Label} (h : step s label = some t) :
    KeepsFlags s t ∨ s.running = false ∧ t = colodHupCb s := by
  rcases step_cases h with ⟨hrun, hc⟩ | ⟨source, -, -, hd⟩ | ⟨-, -, hm⟩ | ⟨x, -, -, hio⟩
  · exact (keepsFlags_callback hc).imp_right fun ⟨_, ht⟩ => ⟨hrun, ht⟩
  · obtain ⟨wakeSources, resumeSources, rfl⟩ := dispatch_eq hd
    exact .inl (.of_eq rfl rfl)
  · exact .inl (keepsFlags_mainRun hm)
  · left
    rcases io_cases hio with ⟨_, _, _, _, -, -, rfl⟩ | ⟨_, _, -, -, rfl⟩ | ⟨_, _, event, -, -, rfl⟩ |
      ⟨_, _, -, -, rfl⟩ | ⟨site, _, _, reply, -, -, -, rfl⟩ | ⟨_, _, -, -, rfl⟩ | ⟨_, reply, -, -, rfl⟩
    · exact .of_eq rfl rfl
    · exact .of_eq rfl rfl
    · exact keepsFlags_of_flags (flags_notifyEvent s event)
    · exact .of_eq rfl rfl
    · exact keepsFlags_of_flags ((flags_execReturn _ site _).trans (flags_executeCo s reply))
    · exact .of_eq rfl rfl
    · cases reply <;> exact .of_eq rfl rfl

/-! ### What is pending and what was popped -/

/-- Entering a state adds and removes no event. -/
theorem mem_kinds_mainCo (s : Daemon) (newState : MainState) (e : ColodEvent) :
    e ∈ (colodMainCo s newState).loop.kinds ↔ e ∈ s.loop.kinds := by
  have hset : ∀ (l : EventLoop) events, e ∈ (l.setInterrupting events).kinds ↔ e ∈ l.kinds :=
    fun _ _ => EventQueue.mem_kinds_setInterrupting
  have hyield : ∀ l : EventLoop, e ∈ l.yieldRemove.kinds ↔ e ∈ l.kinds := by
    intro l
    rw [yieldRemove_kinds]
  cases newState with
  | secondaryWait => exact (hyield _).trans (hset _ _)
  | secondaryColoRunning | primaryColoRunning =>
    simp only [colodMainCo]
    split_ifs
    · exact (hyield _).trans (hset _ _)
    · exact hset _ _
  | primaryStartMigration | failover => exact hset _ _
  | quit =>
    simp only [colodMainCo, colodMainCoReturn]
    split_ifs
    · exact hyield _
    · exact Iff.rfl
  | _ => exact Iff.rfl

/-- An event stays pending until it is popped. -/
theorem kept_step {label : Label} {e : ColodEvent} (h : step s label = some t)
    (hmem : e ∈ s.loop.kinds) (hpops : s.pops label ≠ some e) : e ∈ t.loop.kinds := by
  have hout : ∀ {u : Daemon} {allowed}, Outside s u allowed → e ∈ u.loop.kinds := by
    intro u allowed hout
    obtain ⟨events, hloop, -⟩ := hout.loop
    rw [hloop]
    exact mem_kinds_queueAll hmem
  have hcontinues : ∀ {u : Daemon} {obs susp pc}, Continues u t obs susp pc →
      e ∈ u.loop.kinds → e ∈ t.loop.kinds := by
    intro u obs susp pc hc hu
    simpa only [kinds, hc.queue] using hu
  cases change_of_step h with
  | callback _ _ ho => exact hout ho
  | dispatch source _ hd =>
    obtain ⟨wakeSources, resumeSources, rfl⟩ := dispatch_eq hd
    exact hmem
  | start _ _ ht | nestedYank _ _ _ _ ht => exact ht ▸ hmem
  | enter newState _ _ ht =>
    subst ht
    exact (mem_kinds_mainCo s newState e).mpr hmem
  | wait site loop _ _ hwait ht =>
    obtain ⟨-, rfl⟩ := colodEventWait_none hwait
    rw [ht]
    simpa [kinds] using hmem
  | event site event loop susp pc _ hpc hwait _ hc =>
    obtain ⟨a, queue, hremove, rfl, -, rfl⟩ := colodEventWait_some hwait
    have hpopped : s.pops .run = some a.event := by simp [Daemon.pops, hpc, hwait]
    refine hcontinues hc (((EventQueue.mem_kinds_remove hremove).mp hmem).resolve_left ?_)
    rintro rfl
    exact hpops hpopped
  | turn _ _ _ _ _ _ _ hc | write _ _ _ _ hc | yanked _ _ _ _ _ hc | yankFailed _ _ _ _ _ hc =>
    exact hcontinues hc hmem
  | suspend _ _ _ _ _ _ ht | yankSuspend _ _ _ _ ht =>
    rw [ht]
    simpa [Daemon.suspendAt] using hmem
  | line _ _ event _ _ ht =>
    rw [ht]
    simpa [Daemon.suspendAt] using hout (outside_notifyEvent s event)
  | executed _ _ _ reply _ _ _ _ _ _ _ hc => exact hcontinues hc (hout (outside_executeCo s reply))

theorem popped_mainCo {newState state : MainState} {event : ColodEvent}
    (h : .popped state event ∈ (colodMainCo s newState).trace) :
    .popped state event ∈ s.trace := by
  cases newState with
  | secondaryColoRunning | primaryColoRunning =>
    simp only [colodMainCo] at h
    split_ifs at h <;> simpa [Daemon.observe, Daemon.setInterrupting, Daemon.qmpWait,
      Daemon.suspendAt, Daemon.continueAt] using h
  | quit =>
    simp only [colodMainCo, colodMainCoReturn] at h
    split_ifs at h <;> simpa [Daemon.observe, Daemon.abort] using h
  | _ =>
    simpa [colodMainCo, Daemon.observe, Daemon.setInterrupting, Daemon.qmpWait, Daemon.suspendAt,
      Daemon.continueAt, Daemon.execute, Daemon.goto, Daemon.send, qmpSetTimeoutLow] using h

theorem Turn.not_popped {pc pc' : Pc} {obs : List Obs} {susp : Bool} (h : Turn s pc obs susp pc')
    (state : MainState) (event : ColodEvent) : .popped state event ∉ obs := by
  cases h <;> simp

theorem ExecTurn.not_popped {site : ExecSite} {result : Except ColodError Unit} {obs : List Obs}
    {susp : Bool} {pc : Pc} (h : ExecTurn s site result obs susp pc) (state : MainState)
    (event : ColodEvent) : .popped state event ∉ obs := by
  cases h <;> simp

/-- The trace records an `EVENT_AUTOQUIT` as popped when it is. -/
theorem autoquitPopped_step {label : Label} (h : step s label = some t) (ht : t.AutoquitPopped) :
    s.AutoquitPopped ∨ s.pops label = some .autoquit := by
  obtain ⟨state, hmem⟩ := ht
  have hobs : ∀ obs, t.trace = s.trace ++ obs → .popped state .autoquit ∉ obs →
      s.AutoquitPopped := by
    intro obs htrace hnot
    rw [htrace, List.mem_append] at hmem
    exact ⟨state, hmem.resolve_right hnot⟩
  have hout : ∀ {u : Daemon} {allowed}, Outside s u allowed → ∀ obs, t.trace = u.trace ++ obs →
      .popped state .autoquit ∉ obs → s.AutoquitPopped := by
    intro u allowed hout obs hu hnot
    obtain ⟨clients, htrace⟩ := hout.trace
    rw [htrace, List.append_assoc] at hu
    exact hobs _ hu (by simpa using hnot)
  cases change_of_step h with
  | callback _ _ ho => exact .inl (hout ho [] (List.append_nil _).symm (by simp))
  | dispatch source _ hd =>
    obtain ⟨wakeSources, resumeSources, rfl⟩ := dispatch_eq hd
    exact .inl ⟨state, hmem⟩
  | start _ _ ht => exact .inl (hobs [.sent s.state .hello] (ht ▸ rfl) (by simp))
  | enter newState _ _ ht =>
    subst ht
    exact .inl ⟨state, popped_mainCo hmem⟩
  | wait _ _ _ _ _ ht | nestedYank _ _ _ _ ht | suspend _ _ _ _ _ _ ht
  | yankSuspend _ _ _ _ ht => exact .inl (hobs [] (by simp [ht, Daemon.suspendAt]) (by simp))
  | event site event loop susp pc _ hpc hwait _ hc =>
    by_cases hevent : event = .autoquit
    · exact .inr (by simp [Daemon.pops, hpc, hwait, hevent])
    · exact .inl (hobs _ hc.trace (by simp [Ne.symm hevent]))
  | turn _ _ obs _ _ _ hturn hc => exact .inl (hobs obs hc.trace (hturn.not_popped _ _))
  | write _ _ _ _ hc | yanked _ _ _ _ _ hc | yankFailed _ _ _ _ _ hc =>
    exact .inl (hobs _ hc.trace (by simp))
  | line _ _ event _ _ ht =>
    exact .inl (hout (outside_notifyEvent s event) [] (by simp [ht, Daemon.suspendAt]) (by simp))
  | executed site _ _ reply obs _ _ _ _ _ hturn hc =>
    exact .inl (hout (outside_executeCo s reply) obs hc.trace (hturn.not_popped _ _))

/-! ### Where the two conditions are noticed -/

/-- `STATE_FAILED` notices the request to quit with qemu. -/
def Point.fallen : Point → Bool
  | .enter .failed | .exec .stop | .eventWait .failed => true
  | _ => false

/-- `STATE_AUTOQUIT` notices the end of qemu. -/
def Point.quitting : Point → Bool
  | .enter .autoquit | .eventWait .autoquit => true
  | _ => false

theorem Point.not_quitting_of_fallen {p : Point} (h : p.fallen = true) : p.quitting = false := by
  unfold Point.fallen at h
  split at h
  · rfl
  · rfl
  · rfl
  · cases h

/-- A popped `EVENT_FAILED` leads to `STATE_FAILED`, except in `STATE_AUTOQUIT`. -/
theorem failed_next {p q : Point} (hq : q ∈ p.next (some .failed)) :
    q.fallen = true ∨ p = .eventWait .autoquit := by
  have hchecks : Point.checks (fun p popped q => !(popped = some .failed) || q.fallen ||
      p = .eventWait .autoquit) = true := rfl
  have hp := Point.of_checks hchecks hq
  simpa using hp

/-- `STATE_FAILED` is left for `STATE_QUIT` or by a popped `EVENT_AUTOQUIT`. -/
theorem fallen_next {p q : Point} {popped : Option ColodEvent} (hq : q ∈ p.next popped)
    (hp : p.fallen = true) : q.fallen = true ∨ q = .enter .quit ∨
      p = .eventWait .failed ∧ popped = some .autoquit := by
  have hchecks : Point.checks (fun p popped q => !p.fallen || q.fallen || q = .enter .quit ||
      (p = .eventWait .failed && popped = some .autoquit)) = true := rfl
  have hcheck := Point.of_checks hchecks hq
  simpa [hp, or_assoc] using hcheck

/-- A popped `EVENT_AUTOQUIT` leads to `STATE_AUTOQUIT`, except perhaps in `STATE_FAILED`. -/
theorem autoquit_next {p q : Point} (hq : q ∈ p.next (some .autoquit)) :
    q.quitting = true ∨ p = .eventWait .failed := by
  have hchecks : Point.checks (fun p popped q => !(popped = some .autoquit) || q.quitting ||
      p = .eventWait .failed) = true := rfl
  have hp := Point.of_checks hchecks hq
  simpa using hp

theorem quitting_next {p q : Point} {popped : Option ColodEvent} (hq : q ∈ p.next popped)
    (hp : p.quitting = true) : q.quitting = true ∨ q = .enter .quit := by
  have hchecks : Point.checks (fun p _ q => !p.quitting || q.quitting || q = .enter .quit) = true :=
    rfl
  have hcheck := Point.of_checks hchecks hq
  simpa [hp] using hcheck

/-- The step that pops an event is the return of `colod_event_wait`. -/
theorem step_of_pops {label : Label} {site : EventWaitSite} {event : ColodEvent}
    (h : step s label = some t) (hpc : s.pc = .eventWait site)
    (hpops : s.pops label = some event) :
    ∃ loop, t = eventWaitReturn ({ s with loop }.observe (.popped s.state event)) site event := by
  obtain ⟨rfl, -, -⟩ := pops_eq_some hpops
  have hwait : (colodEventWait s.loop).1 = some event := by
    simpa [Daemon.pops, hpc] using hpops
  rcases step_cases h with ⟨-, hc⟩ | ⟨_, hl, -⟩ | ⟨-, -, hm⟩ | ⟨_, hl, -⟩
  · cases hc
  · cases hl
  · rcases mainRun_eventWait hpc hm with ⟨loop, hnone, -⟩ | ⟨popped, loop, hsome, rfl⟩
    · simp [hnone] at hwait
    · have hevent : popped = event := by simpa [hsome] using hwait
      exact ⟨loop, by rw [hevent]⟩
  · cases hl

/-- While qemu runs, `STATE_FAILED` leaves for `STATE_AUTOQUIT`. -/
theorem autoquit_failed {label : Label} (h : step s label = some t)
    (hpc : s.pc = .eventWait .failed) (hpops : s.pops label = some .autoquit)
    (hqemu : s.qemuQuit = false) : t.pc = .enter .autoquit := by
  obtain ⟨loop, rfl⟩ := step_of_pops h hpc hpops
  simp [eventWaitReturn, Daemon.observe, hqemu, Daemon.goto]

/-! ### `STATE_QUIT` -/

/-- The main coroutine goes to `STATE_QUIT` for a popped `EVENT_QUIT` alone. -/
theorem quit_next {p : Point} {popped : Option ColodEvent}
    (hq : .enter .quit ∈ p.next popped) : popped = some .quit := by
  have hchecks : Point.checks (fun _ popped q => !(q = .enter .quit) || popped = some .quit) = true :=
    rfl
  simpa using Point.of_checks hchecks hq

theorem rests_next {p q : Point} {popped : Option ColodEvent} {state : MainState}
    (hq : q ∈ p.next popped) (hp : state = .quit → p = .done ∨ p = .aborted)
    (harrives : p.arrives state = .quit) : q = .done ∨ q = .aborted := by
  have hchecks : Point.checks (fun p _ q => MainState.all.all fun state =>
      state = .quit || !(p.arrives state = .quit) || q = .done || q = .aborted) = true := rfl
  have hleaves : Point.checks (fun p _ _ => !(p = .done || p = .aborted)) = true := rfl
  have hall := List.all_eq_true.mp (Point.of_checks hchecks hq) state state.mem_all
  have hp' := Point.of_checks hleaves hq
  by_cases hstate : state = .quit
  · rcases hp hstate with rfl | rfl
    · simp at hp'
    · simp at hp'
  · simpa [hstate, harrives] using hall

/-- Nothing follows `STATE_QUIT`, and the main loop has been quit before. -/
structure Quits (s : Daemon) : Prop where
  rests : s.state = .quit → s.point = .done ∨ s.point = .aborted
  gone : s.GoneToQuit → s.loopQuit = true
  pending : .quit ∈ s.loop.kinds → s.loopQuit = true

theorem mem_kinds_of_pops {label : Label} {event : ColodEvent}
    (h : s.pops label = some event) : event ∈ s.loop.kinds := by
  obtain ⟨-, -, a, queue, hremove, rfl⟩ := pops_eq_some h
  exact (EventQueue.mem_kinds_remove hremove).mpr (.inl rfl)

theorem loopQuit_step {label : Label} (h : step s label = some t) (hs : s.loopQuit = true) :
    t.loopQuit = true := by
  rcases keepsFlags_step h with hkeeps | ⟨-, rfl⟩
  · exact hkeeps.loopQuit hs
  · exact hs

theorem loopQuit_of_teardown (h : step s .teardown = some t) : s.loopQuit = true := by
  rcases step_cases h with ⟨-, hc⟩ | ⟨_, hl, -⟩ | ⟨hl, -, -⟩ | ⟨_, hl, -⟩
  · simp only [Daemon.callback] at hc
    split_ifs at hc with hquit
    exact hquit.1
  · cases hl
  · cases hl
  · cases hl

theorem Label.teardown_of_quit {label : Label} (h : .quit ∈ label.queued) : label = .teardown := by
  cases label with
  | teardown => rfl
  | cpgDeliver message own =>
    cases message <;> cases own <;> simp [Label.queued, Label.raises] at h
  | io x => cases x <;> simp [Label.queued, Label.raises] at h
  | _ => simp [Label.queued, Label.raises] at h

theorem quit_pending_step {label : Label} (h : step s label = some t) (hs : Quits s) :
    .quit ∈ t.loop.kinds → t.loopQuit = true := by
  apply (mem_kinds_invariant .quit (t.loopQuit = true)).step_queued h
  intro events hevents hmem
  apply loopQuit_step h
  rcases mem_kinds_of_queueAll hmem with hqueued | hpending
  · obtain rfl := Label.teardown_of_quit (hevents _ hqueued)
    exact loopQuit_of_teardown h
  · exact hs.pending hpending

theorem gone_of_arrives (h : s.point.arrives s.state = .quit) : s.GoneToQuit := by
  cases hpoint : s.point with
  | enter newState =>
    rw [hpoint] at h
    have hquit : newState = .quit := h
    subst hquit
    exact .inl (point_eq_enter.mp hpoint)
  | _ =>
    rw [hpoint] at h
    exact .inr h

theorem quits_step {label : Label} (h : step s label = some t) (hs : Quits s) : Quits t := by
  refine ⟨?_, ?_, quit_pending_step h hs⟩
  · intro hstate
    rcases point_step h with ⟨hpoint, -, hsame⟩ | ⟨-, hnext, harrives⟩
    · rw [hpoint]
      exact hs.rests (hsame ▸ hstate)
    · exact rests_next hnext hs.rests (harrives ▸ hstate)
  · intro hgone
    apply loopQuit_step h
    rcases point_step h with ⟨hpoint, -, hsame⟩ | ⟨-, hnext, harrives⟩
    · apply hs.gone
      rcases hgone with hpc | hstate
      · exact .inl (point_eq_enter.mp (hpoint.symm.trans (point_eq_enter.mpr hpc)))
      · exact .inr (hsame ▸ hstate)
    · rcases hgone with hpc | hstate
      · rw [point_eq_enter.mpr hpc] at hnext
        exact hs.pending (mem_kinds_of_pops (quit_next hnext))
      · exact hs.gone (gone_of_arrives (harrives ▸ hstate))

theorem goneToQuit_step {label : Label} (h : step s label = some t) (hs : Quits s)
    (hgone : s.GoneToQuit) : t.GoneToQuit := by
  rcases point_step h with ⟨hpoint, -, hsame⟩ | ⟨-, hnext, harrives⟩
  · rcases hgone with hpc | hstate
    · exact .inl (point_eq_enter.mp (hpoint.trans (point_eq_enter.mpr hpc)))
    · exact .inr (hsame.trans hstate)
  · rcases hgone with hpc | hstate
    · right
      rw [harrives, point_eq_enter.mpr hpc]
      rfl
    · right
      rw [harrives]
      rcases hs.rests hstate with hpoint | hpoint
      · rw [hpoint]
        exact hstate
      · rw [hpoint]
        exact hstate

/-! ### Both conditions are noticed -/

/-- Where the main coroutine is once qemu has quit, and once it was asked to quit with qemu. -/
structure Remembers (s : Daemon) : Prop where
  fallen : s.qemuQuit = true → s.GoneToQuit ∨ .failed ∈ s.loop.kinds ∨ s.point.fallen = true
  quitting : s.AutoquitPopped → s.GoneToQuit ∨ s.point.quitting = true

theorem fallen_step {label : Label} (h : step s label = some t) (hquits : Quits s)
    (hnot : ¬ s.DoesAutoquit label) (hqemu : s.qemuQuit = true)
    (hs : s.GoneToQuit ∨ .failed ∈ s.loop.kinds ∨ s.point.fallen = true) :
    t.GoneToQuit ∨ .failed ∈ t.loop.kinds ∨ t.point.fallen = true := by
  rcases hs with hgone | hpending | hfallen
  · exact .inl (goneToQuit_step h hquits hgone)
  · by_cases hpops : s.pops label = some .failed
    · rcases point_step h with ⟨-, hnone, -⟩ | ⟨-, hnext, -⟩
      · rw [hpops] at hnone
        cases hnone
      · rw [hpops] at hnext
        rcases failed_next hnext with hfallen | hautoquit
        · exact .inr (.inr hfallen)
        · exact absurd ⟨hqemu, .inr ⟨point_eq_eventWait.mp hautoquit, hpops⟩⟩ hnot
    · exact .inr (.inl (kept_step h hpending hpops))
  · rcases point_step h with ⟨hpoint, -, -⟩ | ⟨-, hnext, -⟩
    · exact .inr (.inr (hpoint ▸ hfallen))
    · rcases fallen_next hnext hfallen with hfallen | hquit | ⟨hpoint, hpops⟩
      · exact .inr (.inr hfallen)
      · exact .inl (.inl (point_eq_enter.mp hquit))
      · exact absurd ⟨hqemu, .inl ⟨point_eq_eventWait.mp hpoint, hpops⟩⟩ hnot

theorem quitting_step {label : Label} (h : step s label = some t) (hquits : Quits s)
    (hnot : ¬ s.DoesAutoquit label) (hpopped : t.AutoquitPopped)
    (hs : s.AutoquitPopped → s.GoneToQuit ∨ s.point.quitting = true) :
    t.GoneToQuit ∨ t.point.quitting = true := by
  rcases autoquitPopped_step h hpopped with hbefore | hpops
  · rcases hs hbefore with hgone | hquitting
    · exact .inl (goneToQuit_step h hquits hgone)
    · rcases point_step h with ⟨hpoint, -, -⟩ | ⟨-, hnext, -⟩
      · exact .inr (hpoint ▸ hquitting)
      · rcases quitting_next hnext hquitting with hquitting | hquit
        · exact .inr hquitting
        · exact .inl (.inl (point_eq_enter.mp hquit))
  · rcases point_step h with ⟨-, hnone, -⟩ | ⟨-, hnext, -⟩
    · rw [hpops] at hnone
      cases hnone
    · rw [hpops] at hnext
      rcases autoquit_next hnext with hquitting | hpoint
      · exact .inr hquitting
      · have hpc := point_eq_eventWait.mp hpoint
        have hqemu : s.qemuQuit = false := by
          by_contra hquit
          exact hnot ⟨by simpa using hquit, .inl ⟨hpc, hpops⟩⟩
        right
        rw [point_eq_enter.mpr (autoquit_failed h hpc hpops hqemu)]
        rfl

theorem remembers_step {label : Label} (h : step s label = some t) (hquits : Quits s)
    (hnot : ¬ s.DoesAutoquit label) (hlost : t.loop.lost = []) (hs : Remembers s) :
    Remembers t := by
  constructor
  · intro hqemu
    rcases keepsFlags_step h with hkeeps | ⟨-, rfl⟩
    · have hbefore : s.qemuQuit = true := hkeeps.qemuQuit ▸ hqemu
      exact fallen_step h hquits hnot hbefore (hs.fallen hbefore)
    · have hqueued : ColodEvent.failed ∈ (colodEventQueue s.loop .failed).kinds ∨
          (colodEventQueue s.loop .failed).lost = .failed :: s.loop.lost :=
        colodEventQueue_mem_or_lost
      rcases hqueued with hmem | hadd
      · exact .inr (.inl hmem)
      · have hnil : (colodEventQueue s.loop .failed).lost = [] := hlost
        rw [hadd] at hnil
        cases hnil
  · intro hpopped
    exact quitting_step h hquits hnot hpopped hs.quitting

theorem lost_suffix_invariant (lost : List ColodEvent) :
    MainInvariant fun l => lost <:+ l.lost where
  setInterrupting l events h := h
  yieldRemove l h := by simpa using h
  wait l event loop hwait h := by
    rw [lost_wait hwait]
    exact h
  dispatch u v source hrun hd h := by
    obtain ⟨wakeSources, resumeSources, rfl⟩ := dispatch_eq hd
    exact h

/-- What was lost stays lost. -/
theorem lost_nil_of_step {label : Label} (h : step s label = some t) (hlost : t.loop.lost = []) :
    s.loop.lost = [] := by
  have hsuffix : s.loop.lost <:+ t.loop.lost :=
    (lost_suffix_invariant s.loop.lost).step h fun _ => lost_suffix_queueAll
  rw [hlost] at hsuffix
  exact List.suffix_nil.mp hsuffix

theorem remembers_run {labels : List Label} (hrun : run step s labels = some t)
    (hnot : Along step (fun u label => ¬ u.DoesAutoquit label) s labels)
    (hlost : t.loop.lost = []) (hquits : Quits s) (hs : Remembers s) : Remembers t := by
  have hinv : Quits t ∧ (t.loop.lost = [] → Remembers t) := by
    refine run_invariant_along (P := fun u => Quits u ∧ (u.loop.lost = [] → Remembers u)) ?_ hrun
      hnot ⟨hquits, fun _ => hs⟩
    rintro u label v hstep hstays ⟨hu, hremembers⟩
    refine ⟨quits_step hstep hu, ?_⟩
    intro hv
    exact remembers_step hstep hu hstays hv (hremembers (lost_nil_of_step hstep hv))
  exact hinv.2 hlost

theorem quits_init (ctx : ColodContext) : Quits (Daemon.init ctx) where
  rests h := by cases h
  gone h := by
    rcases h with hpc | hstate
    · cases hpc
    · cases hstate
  pending h := by cases h

theorem remembers_init (ctx : ColodContext) : Remembers (Daemon.init ctx) where
  fallen h := by cases h
  quitting h := by
    obtain ⟨state, hmem⟩ := h
    cases hmem

theorem doesAutoquit_step {label : Label} (h : step s label = some t)
    (hdoes : s.DoesAutoquit label) : t.loopQuit = true := by
  obtain ⟨hqemu, ⟨hpc, hpops⟩ | ⟨hpc, hpops⟩⟩ := hdoes
  · obtain ⟨loop, rfl⟩ := step_of_pops h hpc hpops
    simp [eventWaitReturn, Daemon.observe, hqemu]
  · obtain ⟨loop, rfl⟩ := step_of_pops h hpc hpops
    simp [eventWaitReturn, Daemon.observe, hqemu]

theorem loopQuit_of_sometime {labels : List Label} (hrun : run step s labels = some t)
    (hdoes : Sometime step Daemon.DoesAutoquit s labels) : t.loopQuit = true := by
  induction labels generalizing s with
  | nil => exact hdoes.elim
  | cons label labels ih =>
    obtain ⟨u, hstep, hrest⟩ := run_cons_eq_some.mp hrun
    rcases hdoes with hnow | ⟨v, hv, hlater⟩
    · exact run_invariant (P := fun u => u.loopQuit = true) (fun _ _ _ => loopQuit_step) hrest
        (doesAutoquit_step hstep hnow)
    · obtain rfl : u = v := Option.some.inj (hstep.symm.trans hv)
      exact ih hrest hlater

/-- Once qemu has quit and an `EVENT_AUTOQUIT` was popped, in a run that lost no event,
`do_autoquit` was called, or the main coroutine has gone to `STATE_QUIT`, or it still has to pop
`EVENT_FAILED` or `EVENT_QUIT`; with an empty queue it does not rest before the main loop quits. -/
theorem autoquit_not_forgotten (ctx : ColodContext) (labels : List Label) (s : Daemon)
    (hrun : run step (Daemon.init ctx) labels = some s) (hlost : s.loop.lost = [])
    (hpopped : s.AutoquitPopped) (hqemu : s.qemuQuit = true) :
    (Sometime step Daemon.DoesAutoquit (Daemon.init ctx) labels ∨ s.GoneToQuit ∨
      .failed ∈ s.loop.kinds ∨ .quit ∈ s.loop.kinds) ∧
    (s.running = false → s.loop.kinds = [] → s.loopQuit = true) := by
  have hquits : Quits s :=
    run_invariant (P := Quits) (fun _ _ _ => quits_step) hrun (quits_init ctx)
  have hnoticed : Sometime step Daemon.DoesAutoquit (Daemon.init ctx) labels ∨ s.GoneToQuit ∨
      .failed ∈ s.loop.kinds := by
    by_cases hdoes : Sometime step Daemon.DoesAutoquit (Daemon.init ctx) labels
    · exact .inl hdoes
    · have hs : Remembers s :=
        remembers_run hrun (not_sometime.mp hdoes) hlost (quits_init ctx) (remembers_init ctx)
      rcases hs.quitting hpopped with hgone | hquitting
      · exact .inr (.inl hgone)
      · rcases hs.fallen hqemu with hgone | hpending | hfallen
        · exact .inr (.inl hgone)
        · exact .inr (.inr hpending)
        · rw [Point.not_quitting_of_fallen hfallen] at hquitting
          cases hquitting
  constructor
  · rcases hnoticed with hdoes | hgone | hpending
    · exact .inl hdoes
    · exact .inr (.inl hgone)
    · exact .inr (.inr (.inl hpending))
  · intro _ hempty
    rcases hnoticed with hdoes | hgone | hpending
    · exact loopQuit_of_sometime hrun hdoes
    · exact hquits.gone hgone
    · rw [hempty] at hpending
      cases hpending

/-- A request to quit with qemu, and then the end of qemu. -/
def quitWithQemu : List Label :=
  [.dispatch .start, .run, .run, .run, .run, .clientNew, .clientRequest 0 .autoquit,
    .dispatch (.wake 1), .run, .run, .run, .qmpHup, .dispatch (.wake 2), .run, .run]

theorem autoquit_not_forgotten_quitWithQemu : ∃ s,
    run step (Daemon.init { Schedule.context with primaryStartup := true }) quitWithQemu =
      some s ∧ s.running = false ∧ s.loop.kinds = [] ∧ s.loopQuit = true := by
  have hrun : (run step (Daemon.init { Schedule.context with primaryStartup := true })
      quitWithQemu).map (fun s => (s.running, s.loop.kinds, s.loop.lost, s.qemuQuit,
        s.trace[3]?)) =
      some (false, [], [], true, some (.popped .primaryWait .autoquit)) := by decide
  obtain ⟨s, hs, hvalues⟩ := Option.map_eq_some_iff.mp hrun
  simp only [Prod.mk.injEq] at hvalues
  obtain ⟨hsuspended, hkinds, hlost, hqemu, hpopped⟩ := hvalues
  exact ⟨s, hs, hsuspended, hkinds, (autoquit_not_forgotten _ _ s hs hlost
    ⟨.primaryWait, List.mem_of_getElem? hpopped⟩ hqemu).2 hsuspended hkinds⟩

end ColoDaemon
