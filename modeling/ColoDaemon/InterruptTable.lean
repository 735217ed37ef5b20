import ColoDaemon.MainTurns

/-!
# Which events interrupt where

`eventqueue_set_interrupting` is called on entering some states and its table stays in force in
the states after them. `Pc.table` gives the table at the program points where it matters: the
secondary's wait discards everything but a start of migration, the migration, the running states
and the failover arbitration are interrupted by a failover, and the failover itself only by the
events that always interrupt.
-/

namespace ColoDaemon
open EventLoop
variable {s t : Daemon}

/-- The events, beside the always interrupting ones, that interrupt at a program point. -/
def Pc.table : Pc → Option (List ColodEvent)
  | .enter .primaryColoRunning | .enter .failoverSync => some [.failoverSync]
  | .eventWait .secondaryWait | .qmpWait .secondaryWait _ =>
    some [.failoverSync, .failoverWin, .yellow, .unyellow]
  | .eventWait .coloRunning | .eventWait .startMigration | .eventWait .failoverSync =>
    some [.failoverSync]
  | .qmpWait _ _ | .grace => some [.failoverSync]
  | .array co | .exec (.element co _) _ _ =>
    some (if co.table.migrates then [.failoverSync] else [])
  | .exec .migrationCapabilities _ _ | .exec .migrateContinue _ _ | .exec .migrateCancel _ _ =>
    some [.failoverSync]
  | .yank _ => some []
  | _ => none

def EventQueue.TableIs (q : EventQueue) (events : List ColodEvent) : Prop :=
  q.interrupting = fun e => eventAlwaysInterrupting e || decide (e ∈ events)

structure Tabled (s : Daemon) : Prop where
  always : s.loop.queue.interruptingAlways = eventAlwaysInterrupting
  table : ∀ events, s.pc.table = some events → s.loop.queue.TableIs events

theorem tableIs_setInterrupting {q : EventQueue} {events : List ColodEvent}
    (h : q.interruptingAlways = eventAlwaysInterrupting) :
    (eventqueueSetInterrupting q events).TableIs events := by
  unfold EventQueue.TableIs eventqueueSetInterrupting
  rw [h]

theorem EventQueue.TableIs.interrupting_iff {q : EventQueue} {events : List ColodEvent}
    (h : q.TableIs events) {e : ColodEvent} :
    q.interrupting e = true ↔ eventAlwaysInterrupting e = true ∨ e ∈ events := by
  rw [h]
  simp

theorem interruptingAlways_colodEventQueue (l : EventLoop) (event : ColodEvent) :
    (colodEventQueue l event).queue.interruptingAlways = l.queue.interruptingAlways := by
  rcases colodEventQueue_cases l event with ⟨he, -⟩ | ⟨_, he, hadd⟩ | ⟨he, -⟩
  · simp [he]
  · simpa [he] using (EventQueue.interrupting_add hadd).2.1
  · simp [he]

theorem always_invariant :
    MainInvariant fun l => l.queue.interruptingAlways = eventAlwaysInterrupting := by
  refine .of_queue (P := fun q => q.interruptingAlways = eventAlwaysInterrupting) ?_ ?_
  · intro q events h
    exact h
  · intro q event queue hremove h
    rw [(EventQueue.remove_eq_some.mp hremove).2]
    exact h

theorem PcOutside.table {pc pc' : Pc} {n n' : ℕ} (h : PcOutside pc n pc' n') :
    pc'.table = pc.table := by
  cases h with
  | fired site => cases site <;> rfl
  | same | releasedArray | releasedExec => rfl

theorem EventTurn.table {primary : Bool} {site : EventWaitSite} {event : ColodEvent} {susp : Bool}
    {pc : Pc} (h : EventTurn primary site event susp pc) :
    pc.table = none ∨ pc.table = (Pc.eventWait site).table := by
  cases h with
  | handled site event newState _ hevent => cases event <;> cases hevent <;> exact .inl rfl
  | leave event newState _ hevent => cases event <;> cases hevent <;> exact .inl rfl
  | secondaryWait | failover | cancel | ignored => exact .inr rfl
  | yellow | unexpected | migrate | win | quit | autoquit => exact .inl rfl

theorem ArrayTurn.table {table : CommandTable} {err : Option ColodError} {susp : Bool} {pc : Pc}
    (h : ArrayTurn s table err susp pc) :
    pc.table = none ∨ pc.table = some (if table.migrates then [.failoverSync] else []) := by
  cases h with
  | interrupted _ _ hmigrates => rw [hmigrates]; exact .inr rfl
  | cancel _ hmigrates => rw [hmigrates]; exact .inr rfl
  | preSwitchover | migrateContinue => exact .inr rfl
  | assertion | fails | finished => exact .inl rfl

theorem Turn.table {pc pc' : Pc} {obs : List Obs} {susp : Bool} (h : Turn s pc obs susp pc') :
    pc'.table = none ∨ pc'.table = pc.table := by
  cases h with
  | arrayEnd co _ _ _ hturn => exact hturn.table
  | arrayInterrupted co _ _ _ _ _ hturn => exact hturn.table
  | interrupted site hsite => cases site <;> cases hsite <;> exact .inr rfl
  | runningInterrupted site hsite => rcases hsite with rfl | rfl <;> exact .inr rfl
  | discard | preSwitchover | colo | running1 | running2 | again | grace | element => exact .inr rfl
  | resumed | timeout | assertion | yellow | released => exact .inl rfl

theorem ExecTurn.table {site : ExecSite} {written : Bool} {inner : InnerWait}
    {result : Except ColodError Unit} {obs : List Obs} {susp : Bool} {pc : Pc}
    (h : ExecTurn s site result obs susp pc) :
    pc.table = none ∨ pc.table = (Pc.exec site written inner).table := by
  cases h with
  | interrupted _ hsite => rcases hsite with rfl | rfl <;> exact .inr rfl
  | cancel _ hsite => rcases hsite with rfl | rfl <;> exact .inr rfl
  | broken co line err _ _ _ hturn => exact hturn.table
  | migrationStart | colo | cancelled | next => exact .inr rfl
  | started | fails | stopped => exact .inl rfl

/-- The queue is untouched and the table of the program point is none or the old one. -/
theorem Tabled.same {u : Daemon} (hs : Tabled s)
    (hint : u.loop.queue.interrupting = s.loop.queue.interrupting)
    (halways : u.loop.queue.interruptingAlways = s.loop.queue.interruptingAlways)
    (hpc : u.pc.table = none ∨ u.pc.table = s.pc.table) : Tabled u := by
  refine ⟨halways.trans hs.always, ?_⟩
  intro events h
  rcases hpc with hnone | hsame
  · rw [hnone] at h
    cases h
  · unfold EventQueue.TableIs
    rw [hint]
    exact hs.table events (hsame ▸ h)

theorem table_outside {allowed : List ColodEvent} (hout : Outside s t allowed) :
    t.loop.queue.interrupting = s.loop.queue.interrupting ∧
      t.loop.queue.interruptingAlways = s.loop.queue.interruptingAlways := by
  obtain ⟨events, hloop, -⟩ := hout.loop
  rw [hloop]
  exact ⟨queueAll_interrupting, queueAll_preserves
    (P := fun u => u.queue.interruptingAlways = s.loop.queue.interruptingAlways)
    (fun _ _ h => (interruptingAlways_colodEventQueue _ _).trans h) rfl⟩

theorem tabled_enter {newState : MainState} (hs : Tabled s) (hpc : s.pc = .enter newState)
    (halways : (colodMainCo s newState).loop.queue.interruptingAlways = eventAlwaysInterrupting) :
    Tabled (colodMainCo s newState) := by
  refine ⟨halways, ?_⟩
  intro events h
  have hset : ∀ events', (eventqueueSetInterrupting s.loop.queue events').TableIs events' :=
    fun _ => tableIs_setInterrupting hs.always
  have hyield : ∀ events', ((s.loop.setInterrupting events').yieldRemove.queue).TableIs events' := by
    intro events'
    rw [yieldRemove_queue]
    exact hset events'
  cases newState with
  | secondaryWait =>
    cases h
    exact hyield _
  | secondaryColoRunning | primaryColoRunning =>
    simp only [colodMainCo] at h ⊢
    split_ifs at h ⊢
    · cases h
      exact hyield _
    · cases h
      exact hset _
  | primaryStartMigration | failover =>
    cases h
    exact hset _
  | failoverSync =>
    cases h
    exact hs.table _ (by rw [hpc]; rfl)
  | quit =>
    simp only [colodMainCo, colodMainCoReturn] at h
    split_ifs at h <;> cases h
  | _ => cases h

theorem tabled_step {label : Label} (hstep : step s label = some t) (hs : Tabled s) :
    Tabled t := by
  have hcontinues : ∀ {u : Daemon} {obs susp pc}, Continues u t obs susp pc →
      u.loop.queue.interrupting = s.loop.queue.interrupting →
      u.loop.queue.interruptingAlways = s.loop.queue.interruptingAlways →
      pc.table = none ∨ pc.table = s.pc.table → Tabled t := by
    intro u obs susp pc hc hint halways hpc
    refine hs.same ?_ ?_ (hc.pc ▸ hpc) <;> rw [hc.queue]
    · exact hint
    · exact halways
  cases change_of_step hstep with
  | callback _ _ hout =>
    obtain ⟨hint, halways⟩ := table_outside hout
    exact hs.same hint halways (.inr hout.pc.table)
  | dispatch source _ hd =>
    obtain ⟨wakeSources, resumeSources, rfl⟩ := dispatch_eq hd
    exact hs.same rfl rfl (.inr rfl)
  | start _ _ ht =>
    subst ht
    refine hs.same rfl rfl (.inl ?_)
    by_cases hp : s.primary = true <;>
      simp [colodMainCoStart, Daemon.goto, Daemon.send, Daemon.observe, hp, Pc.table]
  | enter newState _ hpc ht =>
    subst ht
    exact tabled_enter hs hpc (always_invariant.enter newState hs.always)
  | wait site loop _ hpc hwait ht =>
    obtain ⟨-, rfl⟩ := colodEventWait_none hwait
    subst ht
    exact hs.same (by simp) (by simp) (.inr rfl)
  | event site event loop susp pc _ hpc hwait hturn hc =>
    obtain ⟨a, queue, hremove, -, -, rfl⟩ := colodEventWait_some hwait
    have hq := (EventQueue.remove_eq_some.mp hremove).2
    exact hcontinues hc (by rw [hq]) (by rw [hq]) (hpc ▸ hturn.table)
  | turn pc pc' obs susp _ hpc hturn hc => exact hcontinues hc rfl rfl (hpc ▸ hturn.table)
  | suspend site written inner inner' _ hpc ht =>
    subst ht
    refine hs.same (by simp [Daemon.suspendAt]) (by simp [Daemon.suspendAt]) (.inr ?_)
    rw [hpc]
    cases site <;> rfl
  | write site inner _ hpc hc =>
    refine hcontinues hc rfl rfl (.inr ?_)
    rw [hpc]
    cases site <;> rfl
  | line site inner event _ hpc ht =>
    subst ht
    obtain ⟨hint, halways⟩ := table_outside (outside_notifyEvent s event)
    refine hs.same (by simpa [Daemon.suspendAt] using hint)
      (by simpa [Daemon.suspendAt] using halways) (.inr ?_)
    rw [hpc]
    cases site <;> rfl
  | nestedYank site inner _ hpc ht => exact ht ▸ hs.same rfl rfl (.inr rfl)
  | executed site written inner reply obs susp pc _ hpc _ hturn hc =>
    obtain ⟨hint, halways⟩ := table_outside (outside_executeCo s reply)
    exact hcontinues hc hint halways (hpc ▸ hturn.table)
  | yankSuspend inner inner' _ hpc ht =>
    subst ht
    refine hs.same (by simp [Daemon.suspendAt]) (by simp [Daemon.suspendAt]) (.inr ?_)
    rw [hpc]
    rfl
  | yanked inner table _ hpc htable hc =>
    refine hcontinues hc rfl rfl (.inr ?_)
    rw [hpc, htable]
    cases s.primary <;> rfl
  | yankFailed inner reply _ _ _ hc => exact hcontinues hc rfl rfl (.inl rfl)

theorem tabled_init (ctx : ColodContext) : Tabled (Daemon.init ctx) := by
  refine ⟨?_, nofun⟩
  funext e
  cases e <;> rfl

theorem tabled_of_run {ctx : ColodContext} {labels : List Label}
    (hrun : Runs.run step (Daemon.init ctx) labels = some s) : Tabled s :=
  Runs.run_invariant (fun _ _ _ => tabled_step) hrun (tabled_init ctx)

end ColoDaemon
