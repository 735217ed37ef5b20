import ColoDaemon.ControlFlow
import ColoDaemon.DiskError
import ColoDaemon.EventLoss
import ColoDaemon.FailoverSync
import ColoDaemon.InterruptTable

/-!
# A yellow primary

`_colod_colo_running_co` compares the yellow status of the two nodes when its grace timer expires,
and from then on whenever it takes an event of the yellow status off the queue. The flags are set
by callbacks. A flag that was set while the grace wait was still to come has no pending event any
more when another source ends that wait, and a `set-peer` request resets `peer_yellow` without an
event.
-/

namespace ColoDaemon
open Runs EventLoop
variable {s t : Daemon}

/-- The condition under which a primary fails. -/
def Daemon.dark (s : Daemon) : Bool := s.yellow && !s.peerYellow

/-- The events that make `_colod_colo_running_co` look at the flags or leave its state. -/
def notices (event : ColodEvent) : Bool :=
  eventYellow event || event = .failoverSync || eventAlwaysInterrupting event

def Daemon.noticed (s : Daemon) : Bool := s.loop.kinds.any notices

/-- The main coroutine of a primary is suspended on an empty queue in the `handle_event` loop
although the primary should have failed. -/
def Daemon.Unnoticed (s : Daemon) : Prop :=
  s.pc = .eventWait .coloRunning ∧ s.running = false ∧ s.loop.kinds = [] ∧ s.primary = true ∧
    s.dark = true

/-- The callbacks that can bring about the condition. -/
def Label.darkens (s : Daemon) : Label → Bool
  | .cpgDeliver .unyellow false => !s.freed && s.yellow
  | .yellowTimer =>
    s.yellowCo.pc = .timer2 && s.yellowCo.targetEvent = .yellow && !s.peerYellow
  | .qmpEvent event => !s.freed && event.isDiskError && !s.peerYellow
  | .clientRequest _ (.setPeer _) => s.yellow
  | _ => false

/-- The condition on a step: unless an event that is noticed is pending, the grace wait of a yellow
primary is ended by its timer alone, and in the `handle_event` loop the flags change for the worse
only by a callback that queues an event, with room for it. -/
def Heeded (s : Daemon) (label : Label) : Prop :=
  s.noticed = false →
    (s.pc = .grace → label = .run → s.dark = true → s.loop.current = some .grace) ∧
    (s.pc = .eventWait .coloRunning → s.primary = true → label.darkens s = true →
      label.setsPeer = false ∧ s.loop.queue.used < 32)

instance (s : Daemon) (label : Label) : Decidable (Heeded s label) :=
  inferInstanceAs (Decidable (_ → _ ∧ _))

/-! ### The callbacks -/

def YellowAction.isSend : YellowAction → Bool
  | .send _ => true
  | .notify _ => false

/-- Sending changes no flag and queues no event. -/
theorem sends_eq (notified : Bool) {actions : List YellowAction}
    (h : ∀ action ∈ actions, action.isSend = true) :
    (yellowActions notified s actions).yellow = s.yellow ∧
      (yellowActions notified s actions).peerYellow = s.peerYellow ∧
      (yellowActions notified s actions).loop = s.loop := by
  induction actions generalizing s with
  | nil => exact ⟨rfl, rfl, rfl⟩
  | cons action actions ih =>
    obtain ⟨hhead, hrest⟩ := List.forall_mem_cons.mp h
    cases action with
    | send message => exact ih (s := s.send message) hrest
    | notify => cases hhead

theorem sends_queueEvent (y : YellowCoroutine) (event : ColodEvent) :
    ∀ action ∈ (yellowQueueEvent y event).2, action.isSend = true := by
  unfold yellowQueueEvent
  split_ifs
  · simp
  · unfold yellowCoResume
    cases y.pc with
    | idle => simp
    | timer1 =>
      simp only
      split_ifs <;> simp
    | timer2 =>
      simp only [yellowSendRevertMessage]
      split_ifs <;> simp [YellowAction.isSend]

theorem sends_shutdown (y : YellowCoroutine) :
    ∀ action ∈ (yellowShutdown y).2, action.isSend = true := by
  unfold yellowShutdown
  split_ifs
  · simp
  · exact sends_queueEvent y .quit

theorem sends_netlink (y : YellowCoroutine) (monitorInterface : Option String) (ifname : String)
    (up : Bool) :
    ∀ action ∈ (yellowNetlinkEventCb y monitorInterface ifname up).2, action.isSend = true := by
  unfold yellowNetlinkEventCb
  split_ifs
  · simp
  · exact sends_queueEvent y _
  · exact sends_queueEvent y _

/-- An expired timer makes a notification in the second stage alone. -/
theorem sends_timer {y : YellowCoroutine} (h : y.pc ≠ .timer2) :
    ∀ action ∈ (yellowCo y).2, action.isSend = true := by
  unfold yellowCo yellowCoResume
  cases hpc : y.pc with
  | idle => simp
  | timer1 =>
    simp only [yellowSendTargetMessage]
    split_ifs <;> simp [YellowAction.isSend]
  | timer2 => exact absurd hpc h

theorem loop_wait (s : Daemon) (event : QmpEvent) :
    (raiseWaitEventCb (mainWaitEventCb s event) event).loop = s.loop := by
  have hmain : (mainWaitEventCb s event).loop = s.loop := by
    unfold mainWaitEventCb
    split
    · split_ifs <;> rfl
    · rfl
  have hraise : ∀ u : Daemon, (raiseWaitEventCb u event).loop = u.loop := by
    intro u
    unfold raiseWaitEventCb
    split <;> rfl
  exact (hraise _).trans hmain

/-- A disk error queues its event and nothing else. -/
theorem loop_diskError {event : QmpEvent} (hfreed : s.freed = false)
    (herror : event.isDiskError = true) :
    (notifyEvent s event).loop = colodEventQueue s.loop .yellow := by
  have hloop := loop_wait s event
  have hu : (raiseWaitEventCb (mainWaitEventCb s event) event).freed = s.freed :=
    congrArg (·.2.2.2.1) (announcement_wait s event)
  simp only [notifyEvent]
  rw [if_neg (by simp [hu, hfreed])]
  generalize raiseWaitEventCb (mainWaitEventCb s event) event = u at hloop
  cases event with
  | quorumReportBad nodeName type =>
    simp only [QmpEvent.isDiskError, decide_eq_true_eq] at herror
    simp only [colodQmpEventCb, if_neg herror.1, if_neg herror.2]
    have hsends := sends_shutdown u.yellowCo
    rw [← hloop]
    exact congrArg (colodEventQueue · .yellow) (sends_eq _ hsends).2.2
  | _ => cases herror

/-- The flags become worse only by a callback that darkens them, and unless it is a `set-peer`
request it queues an event of the yellow status. -/
theorem dark_callback {label : Label} (h : s.callback label = some t) (hs : s.dark = false)
    (ht : t.dark = true) :
    label.darkens s = true ∧
      (label.setsPeer = true ∨ t.loop = colodEventQueue s.loop .yellow) := by
  have hsame : t.yellow = s.yellow → t.peerYellow = s.peerYellow → False := by
    intro hy hp
    rw [Daemon.dark, hy, hp] at ht
    rw [Daemon.dark, ht] at hs
    cases hs
  have hquiet : ∀ {u : Daemon}, t.announcement = u.announcement → u.yellow = s.yellow →
      u.peerYellow = s.peerYellow → False := by
    intro u hu hy hp
    simp only [Daemon.announcement, Prod.mk.injEq] at hu
    exact hsame (hu.1.trans hy) (hu.2.1.trans hp)
  simp only [Daemon.dark, Bool.and_eq_true, Bool.not_eq_true'] at ht
  obtain ⟨hyellow, hpeer⟩ := ht
  cases announces_callback h with
  | quiet _ _ ha => exact (hquiet ha rfl rfl).elim
  | sent _ message _ _ ha => exact (hquiet ha rfl rfl).elim
  | repeated _ cpg _ _ ha => exact (hquiet ha rfl rfl).elim
  | delivered message own hd =>
    by_cases hfreed : s.freed = true
    · rw [if_pos hfreed] at hd
      exact (hsame (by rw [hd]) (by rw [hd])).elim
    · rw [if_neg hfreed] at hd
      cases message with
      | unyellow =>
        cases own with
        | true => exact (hsame (by rw [hd]; rfl) (by rw [hd]; rfl)).elim
        | false =>
          have hy : t.yellow = s.yellow := by rw [hd]; rfl
          rw [hy] at hyellow
          exact ⟨by simp [Label.darkens, hfreed, hyellow], .inr (by rw [hd]; rfl)⟩
      | yellow =>
        cases own with
        | true => exact (hsame (by rw [hd]; rfl) (by rw [hd]; rfl)).elim
        | false =>
          have hp : t.peerYellow = true := by rw [hd]; rfl
          rw [hp] at hpeer
          cases hpeer
      | hello =>
        refine (hsame ?_ ?_).elim
        · rw [hd]
          simp only [colodCpgEventCb, Bool.false_eq_true, if_false]
          split_ifs <;> rfl
        · rw [hd]
          simp only [colodCpgEventCb, Bool.false_eq_true, if_false]
          split_ifs <;> rfl
      | none | failover | failed =>
        cases own <;> exact (hsame (by rw [hd]; rfl) (by rw [hd]; rfl)).elim
  | link ifname up hl =>
    have hsends := sends_netlink s.yellowCo s.ctx.monitorInterface ifname up
    obtain ⟨hy, hp, -⟩ := sends_eq true (s := { s with
      yellowCo := (yellowNetlinkEventCb s.yellowCo s.ctx.monitorInterface ifname up).1 }) hsends
    exact (hsame (hl ▸ hy) (hl ▸ hp)).elim
  | timer htimers hl =>
    by_cases hpc : s.yellowCo.pc = .timer2
    · have ht' : t = yellowActions true { s with yellowCo := (ColoDaemon.yellowCo s.yellowCo).1 }
          [.notify s.yellowCo.targetEvent] := by
        rw [hl, Daemon.resumeYellow]
        simp [ColoDaemon.yellowCo, yellowCoResume, hpc]
      simp only [yellowActions, List.foldl_cons, List.foldl_nil, if_true,
        colodYellowEventCb] at ht'
      by_cases htarget : s.yellowCo.targetEvent = .yellow
      · rw [if_pos htarget] at ht'
        have hp : t.peerYellow = s.peerYellow := by rw [ht']; rfl
        rw [hp] at hpeer
        exact ⟨by simp [Label.darkens, hpc, htarget, hpeer], .inr (by rw [ht']; rfl)⟩
      · rw [if_neg htarget] at ht'
        have hy : t.yellow = false := by rw [ht']; rfl
        rw [hy] at hyellow
        cases hyellow
    · obtain ⟨hy, hp, -⟩ := sends_eq true
        (s := { s with yellowCo := (ColoDaemon.yellowCo s.yellowCo).1 }) (sends_timer hpc)
      exact (hsame (hl ▸ hy) (hl ▸ hp)).elim
  | diskError label herror ha =>
    obtain ⟨hfreed, event, hevent, hdisk⟩ := herror
    cases label with
    | qmpEvent event' =>
      cases hevent
      cases h
      have hp : (notifyEvent s event).peerYellow = s.peerYellow := by
        have hpeer' := congrArg (·.2.1) ha
        have hunmoved := congrArg (·.2.2) (unmoved_resumeYellow true
          ({ s with yellow := true }.send .yellow) (yellowShutdown s.yellowCo))
        exact hpeer'.trans hunmoved
      rw [hp] at hpeer
      exact ⟨by simp [Label.darkens, hfreed, hdisk, hpeer],
        .inr (loop_diskError hfreed hdisk)⟩
    | io => cases h
    | _ => cases hevent
  | teardown ha =>
    obtain ⟨hy, hp, -⟩ := sends_eq false
      (s := { s with yellowCo := (yellowShutdown s.yellowCo).1 }) (sends_shutdown s.yellowCo)
    exact (hquiet ha hy hp).elim
  | setPeer i peer ha =>
    simp only [Daemon.announcement, Prod.mk.injEq] at ha
    exact ⟨by simpa [Label.darkens] using ha.1.symm.trans hyellow, .inl rfl⟩

/-! ### The main coroutine -/

/-- Whenever the `handle_event` loop of a primary is to fail it, an event that says so is pending. -/
def Noticed (s : Daemon) : Prop :=
  s.pc = .eventWait .coloRunning → s.primary = true → s.dark = true → s.noticed = true

theorem noticed_iff : s.noticed = true ↔ ∃ e ∈ s.loop.kinds, notices e = true :=
  List.any_eq_true

theorem coloRunning_next {p : Point} {popped : Option ColodEvent}
    (hq : .eventWait .coloRunning ∈ p.next popped) :
    p = .eventWait .coloRunning ∨ p = .grace ∨ p = .qmpWait .running1 ∨ p = .qmpWait .running2 ∨
      p = .enter .secondaryColoRunning ∨ p = .enter .primaryColoRunning := by
  have hchecks : Point.checks (fun p _ q => !(q = .eventWait .coloRunning) ||
      p = .eventWait .coloRunning || p = .grace || p = .qmpWait .running1 ||
      p = .qmpWait .running2 || p = .enter .secondaryColoRunning ||
      p = .enter .primaryColoRunning) = true := rfl
  have hp := Point.of_checks hchecks hq
  simpa [or_assoc] using hp

theorem noticed_outside {allowed : List ColodEvent} (hout : Outside s t allowed)
    (hs : s.noticed = true) : t.noticed = true := by
  obtain ⟨events, hloop, -⟩ := hout.loop
  obtain ⟨e, he, hn⟩ := noticed_iff.mp hs
  exact noticed_iff.mpr ⟨e, hloop ▸ mem_kinds_queueAll he, hn⟩

theorem noticed_callback {label : Label} (h : s.callback label = some t) (hb : s.loop.Bounded)
    (hs : Noticed s) (hl : Heeded s label) : Noticed t := by
  intro hpc hprimary hdark
  have hout := outside_callback h
  have hpc' : s.pc = .eventWait .coloRunning := by
    have hp := hout.pc
    rw [hpc] at hp
    exact hp.of_eventWait
  by_cases hn : s.noticed = true
  · exact noticed_outside hout hn
  have hn' : s.noticed = false := by simpa using hn
  by_cases hd : s.dark = true
  · exact absurd (hs hpc' (hout.primary ▸ hprimary) hd) hn
  · obtain ⟨hdarkens, hloop⟩ := dark_callback h (by simpa using hd) hdark
    obtain ⟨hset, hroom⟩ := (hl hn').2 hpc' (hout.primary ▸ hprimary) hdarkens
    have hadd : t.loop = colodEventQueue s.loop .yellow := by
      rcases hloop with hset' | hadd
      · rw [hset] at hset'
        cases hset'
      · exact hadd
    have hmem : .yellow ∈ t.loop.kinds := by
      rw [hadd]
      exact (mem_colodEventQueue_iff hb).mpr (.inr hroom)
    exact noticed_iff.mpr ⟨.yellow, hmem, rfl⟩

theorem mainRun_eventWait {site : EventWaitSite} (hpc : s.pc = .eventWait site)
    (h : mainRun s = some t) :
    (∃ loop, colodEventWait s.loop = (none, loop) ∧ t = { s with loop }) ∨
      ∃ event loop, colodEventWait s.loop = (some event, loop) ∧
        t = eventWaitReturn ({ s with loop }.observe (.popped s.state event)) site event := by
  unfold mainRun at h
  split at h
  case h_3 site' hpc' =>
    have hsite : site' = site := by
      rw [hpc] at hpc'
      cases hpc'
      rfl
    subst hsite
    split at h
    · rename_i loop hwait
      exact .inl ⟨loop, hwait, (Option.some.inj h).symm⟩
    · rename_i event loop hwait
      exact .inr ⟨event, loop, hwait, (Option.some.inj h).symm⟩
  all_goals simp_all

/-- In the `handle_event` loop of a primary that is to fail, taking an event off the queue that is
noticed leaves the loop. -/
theorem leaves_of_notices {event : ColodEvent}
    (hprimary : s.primary = true) (hdark : s.dark = true) (hn : notices event = true) :
    (eventWaitReturn s .coloRunning event).pc ≠ .eventWait .coloRunning := by
  simp only [Daemon.dark, Bool.and_eq_true, Bool.not_eq_true'] at hdark
  cases event with
  | failoverWin | startMigration => cases hn
  | yellow | unyellow =>
    simp [eventWaitReturn, eventFailover, eventAlwaysInterrupting, eventYellow, hprimary, hdark,
      Daemon.goto]
  | _ =>
    simp [eventWaitReturn, eventFailover, eventAlwaysInterrupting, Daemon.gotoHandled,
      handleAlwaysInterrupting, Daemon.goto]

theorem flags_continues {u : Daemon} {obs : List Obs} {susp : Bool} {pc : Pc}
    (hc : Continues u t obs susp pc) : t.primary = u.primary ∧ t.dark = u.dark := by
  have hy : t.yellow = u.yellow := congrArg (·.2.2.2.2.2.2.2.1) hc.frame
  have hp : t.peerYellow = u.peerYellow := congrArg (·.2.2.2.2.2.2.2.2.1) hc.frame
  exact ⟨hc.primary, by rw [Daemon.dark, hy, hp]; rfl⟩

theorem noticed_event (h : mainRun s = some t) (hpc : s.pc = .eventWait .coloRunning)
    (hs : Noticed s) : Noticed t := by
  intro hpc' hprimary hdark
  rcases mainRun_eventWait hpc h with ⟨loop, hwait, rfl⟩ | ⟨event, loop, hwait, ht⟩
  · obtain ⟨-, rfl⟩ := colodEventWait_none hwait
    obtain ⟨e, he, hn⟩ := noticed_iff.mp (hs hpc hprimary hdark)
    exact noticed_iff.mpr ⟨e, by simpa [kinds] using he, hn⟩
  · obtain ⟨a, queue, hremove, rfl, -, rfl⟩ := colodEventWait_some hwait
    obtain ⟨susp, pc, -, hc⟩ := eventWaitReturn_turn
      (s := { s with loop := { s.loop.forgetCurrent with queue } }.observe
        (.popped s.state a.event)) .coloRunning a.event hpc
    rw [← ht] at hc
    obtain ⟨hsame, hflags⟩ := flags_continues hc
    rw [hsame] at hprimary
    rw [hflags] at hdark
    obtain ⟨e, he, hn⟩ := noticed_iff.mp (hs hpc hprimary hdark)
    have hne : e ≠ a.event := by
      rintro rfl
      rw [ht] at hpc'
      exact leaves_of_notices hprimary hdark hn hpc'
    have hmem := ((EventQueue.mem_kinds_remove hremove).mp he).resolve_left hne
    refine noticed_iff.mpr ⟨e, ?_, hn⟩
    rw [kinds_continues hc]
    exact hmem

theorem noticed_grace (h : mainRun s = some t) (hpc : s.pc = .grace) (hl : Heeded s .run) :
    Noticed t := by
  intro hpc' hprimary hdark
  simp only [mainRun, hpc, Option.some.injEq] at h
  subst h
  unfold graceReturn at hpc' hdark ⊢
  split_ifs at hpc' hdark ⊢ with hgrace
  · cases hpc'
  · by_contra hn
    have hn' : s.noticed = false := by simpa [Daemon.noticed, Daemon.continueAt] using hn
    have hd : s.dark = true := hdark
    have hcurrent := (hl hn').1 hpc rfl hd
    simp only [Daemon.dark, Bool.and_eq_true] at hd
    exact hgrace ⟨hcurrent, hd⟩

/-- The waits for `RESUME` are interrupted by an event that is noticed. -/
theorem noticed_running {site : QmpWaitSite} {fired : Bool} (h : mainRun s = some t)
    (hfirst : s.loop.queue.InterruptFirst) (htabled : Tabled s) (hpc : s.pc = .qmpWait site fired)
    (hsite : site = .running1 ∨ site = .running2) : Noticed t := by
  intro hpc' _ _
  have ht : t = colodQmpEventWaitCo s site fired := by
    unfold mainRun at h
    rw [hpc] at h
    exact (Option.some.inj h).symm
  obtain ⟨obs, susp, pc, hturn, hc⟩ := qmpEventWaitCo_turn s site fired
  rw [← ht] at hc
  rw [hc.pc] at hpc'
  subst hpc'
  have hpending : s.pendingInterrupt = true := by
    cases hturn with
    | runningInterrupted _ _ hpending => exact hpending
  obtain ⟨e, he, hi⟩ := hfirst.pendingInterrupt_iff.mp hpending
  have htable := htabled.table [.failoverSync] (by
    rcases hsite with rfl | rfl <;> rw [hpc] <;> rfl)
  have hn : notices e = true := by
    rcases htable.interrupting_iff.mp hi with halways | hsync
    · simp [notices, halways]
    · rw [List.mem_singleton.mp hsync]
      rfl
  refine noticed_iff.mpr ⟨e, ?_, hn⟩
  rw [kinds_continues hc]
  exact he

/-- A primary waits for `RESUME` first. -/
theorem noticed_enter {newState : MainState}
    (hstate : newState = .secondaryColoRunning ∨ newState = .primaryColoRunning) :
    Noticed (colodMainCo s newState) := by
  intro hpc hprimary
  rcases hstate with rfl | rfl
  · simp only [colodMainCo] at hpc hprimary
    split_ifs at hpc hprimary with hp
    · cases hpc
    · exact absurd hprimary hp
  · simp only [colodMainCo] at hpc hprimary
    split_ifs at hpc hprimary with hp
    · cases hpc
    · exact absurd hprimary hp

theorem noticed_step {label : Label} (hstep : step s label = some t) (hb : s.loop.Bounded)
    (hfirst : s.loop.queue.InterruptFirst) (htabled : Tabled s) (hs : Noticed s)
    (hl : Heeded s label) : Noticed t := by
  intro hpc
  revert hpc
  rcases step_cases hstep with ⟨-, hc⟩ | ⟨source, -, -, hd⟩ | ⟨rfl, -, hm⟩ | ⟨x, rfl, -, hio⟩
  · exact noticed_callback hc hb hs hl
  · obtain ⟨wakeSources, resumeSources, rfl⟩ := dispatch_eq hd
    exact hs
  all_goals
    intro hpc
    have hpoint := point_eq_eventWait.mpr hpc
    have hbefore := (point_step hstep).imp (fun h => h.1 ▸ hpoint)
      fun h => coloRunning_next (hpoint ▸ h.2.1)
    have hpoints := hbefore.elim .inl id
  · rcases hpoints with h | h | h | h | h | h
    · exact noticed_event hm (point_eq_eventWait.mp h) hs hpc
    · exact noticed_grace hm (point_eq_grace.mp h) hl hpc
    · obtain ⟨fired, h⟩ := point_eq_qmpWait.mp h
      exact noticed_running hm hfirst htabled h (.inl rfl) hpc
    · obtain ⟨fired, h⟩ := point_eq_qmpWait.mp h
      exact noticed_running hm hfirst htabled h (.inr rfl) hpc
    · have ht := enter_eq hstep (point_eq_enter.mp h)
      exact (ht ▸ noticed_enter (.inl rfl) : Noticed t) hpc
    · have ht := enter_eq hstep (point_eq_enter.mp h)
      exact (ht ▸ noticed_enter (.inr rfl) : Noticed t) hpc
  · rcases point_of_io hio with ⟨command, h⟩ | ⟨table, h⟩ | h <;> simp [h] at hpoints

/-! ### The claim -/

theorem yellow_primary_noticed (ctx : ColodContext) (labels : List Label) (s : Daemon)
    (hrun : run step (Daemon.init ctx) labels = some s)
    (halong : Along step Heeded (Daemon.init ctx) labels) : ¬ s.Unnoticed := by
  have hinv : Noticed s ∧ s.loop.Bounded ∧ s.loop.queue.InterruptFirst ∧ Tabled s := by
    refine run_invariant_along (P := fun u =>
      Noticed u ∧ u.loop.Bounded ∧ u.loop.queue.InterruptFirst ∧ Tabled u) ?_ hrun halong ?_
    · rintro u label v hstep hl ⟨hn, hb, hfirst, htabled⟩
      refine ⟨noticed_step hstep hb hfirst htabled hn hl, ?_, interruptFirst_step hstep hfirst,
        tabled_step hstep htabled⟩
      exact bounded_invariant.step hstep fun _ =>
        queueAll_preserves (P := Bounded) (fun _ _ => Bounded.colodEventQueue) hb
    · refine ⟨?_, ⟨rfl, Nat.zero_le 32⟩, List.Pairwise.nil, tabled_init ctx⟩
      intro hpc
      cases hpc
  rintro ⟨hpc, -, hempty, hprimary, hdark⟩
  obtain ⟨e, he, -⟩ := noticed_iff.mp (hinv.1 hpc hprimary hdark)
  rw [hempty] at he
  cases he

/-- A secondary fails over and becomes a primary that waits. -/
def Schedule.promoted : List Label :=
  [.clientNew, .clientRequest 0 (.setCommands .failoverSecondary ["nbd-server-stop"])] ++
    failoverSync ++ [.cpgDeliver .failover true, .dispatch (.wake 2), .run, .run,
      .io (.suspend .channel), .dispatch .io, .io (.yankReply .result), .run] ++ exchange ++
    [.run, .run, .run, .dispatch (.wake 3), .run, .run]

/-- A client has it start a migration, which succeeds, up to the grace wait. -/
def Schedule.session (id : ℕ) : List Label :=
  [.clientRequest 0 .startMigration, .dispatch (.wake id), .run, .run] ++ exchange ++
    [.run, .qmpEvent (.migration .preSwitchover), .dispatch .resume, .run, .run] ++ exchange ++
    [.qmpEvent (.migration .colo), .dispatch .resume, .run, .run, .qmpEvent .resume,
      .dispatch .resume, .run, .qmpEvent .resume, .dispatch .resume, .run]

/-- A second copy of its own failover message ends the grace wait. -/
def Schedule.graceCut (id : ℕ) : List Label :=
  [.cpgDeliver .failover true, .dispatch (.wake id), .run, .run, .run]

/-- The link goes down for good. -/
def Schedule.linkFails : List Label := [.link "eth0" false, .yellowTimer, .yellowTimer]

namespace Schedule

/-- The link fails after the grace wait. -/
def linkFailsLate : List Label := promoted ++ session 4 ++ graceCut 5 ++ linkFails

/-- The link fails before the migration, when its event is dropped. -/
def linkFailsEarly : List Label :=
  promoted ++ linkFails ++ [.dispatch (.wake 4), .run, .run] ++ session 5 ++ graceCut 6

end Schedule

set_option maxRecDepth 4000 in
theorem yellow_primary_noticed_late :
    ∃ s, run step (Daemon.init Schedule.context) Schedule.linkFailsLate = some s ∧
      s.pc = .eventWait .coloRunning ∧ s.primary = true ∧ s.dark = true ∧ ¬ s.Unnoticed := by
  have hcheck : (run step (Daemon.init Schedule.context) Schedule.linkFailsLate).map
      (fun s => (s.pc, s.primary, s.dark)) = some (.eventWait .coloRunning, true, true) := by
    decide
  obtain ⟨s, hrun, hs⟩ := Option.map_eq_some_iff.mp hcheck
  simp only [Prod.mk.injEq] at hs
  obtain ⟨hpc, hprimary, hdark⟩ := hs
  have halong : Along step Heeded (Daemon.init Schedule.context) Schedule.linkFailsLate := by
    decide
  exact ⟨s, hrun, hpc, hprimary, hdark,
    yellow_primary_noticed Schedule.context Schedule.linkFailsLate s hrun halong⟩

set_option maxRecDepth 4000 in
/-- The grace wait is cut short, and nothing reports the link failure again. -/
theorem yellow_primary_unnoticed :
    ¬ ∀ (ctx : ColodContext) (labels : List Label) (s : Daemon),
      run step (Daemon.init ctx) labels = some s → ¬ s.Unnoticed := by
  intro hclaim
  have hcheck : (run step (Daemon.init Schedule.context) Schedule.linkFailsEarly).map
      (fun s => (s.pc, s.running, s.loop.kinds, s.primary, s.dark)) =
        some (.eventWait .coloRunning, false, [], true, true) := by decide
  obtain ⟨s, hrun, hs⟩ := Option.map_eq_some_iff.mp hcheck
  simp only [Prod.mk.injEq] at hs
  exact hclaim Schedule.context Schedule.linkFailsEarly s hrun hs

end ColoDaemon
