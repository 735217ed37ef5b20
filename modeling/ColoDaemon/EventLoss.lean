import ColoDaemon.MainTurns

/-!
# When a queued event is lost

The queue has room for 32 events and `_colod_event_queue` ignores the result of `eventqueue_add`.
The rate limiter compares with the last event only, so two kinds that alternate fill the queue
while the main coroutine waits for a qemu event. An event is then lost unless one of its kind is
pending already.
-/

namespace ColoDaemon
open Runs EventLoop
variable {s t : Daemon} {l : EventLoop} {event e : ColodEvent}

theorem used_add {q queue : EventQueue} (hadd : eventqueueAdd q event = some queue) :
    q.used ≠ q.size ∧ queue.used = q.used + 1 := by
  unfold eventqueueAdd at hadd
  split_ifs at hadd with hfull
  cases hadd
  exact ⟨hfull, (perm_gSequenceInsertSorted _ _ _).length_eq⟩

theorem eventqueueAdd_none {q : EventQueue} (hadd : eventqueueAdd q event = none) :
    q.used = q.size := by
  unfold eventqueueAdd at hadd
  split_ifs at hadd with hfull
  exact hfull

def EventLoop.Bounded (l : EventLoop) : Prop := l.queue.size = 32 ∧ l.queue.used ≤ 32

theorem Bounded.colodEventQueue (h : l.Bounded) : (colodEventQueue l event).Bounded := by
  obtain ⟨hsize, hused⟩ := h
  rcases colodEventQueue_cases l event with ⟨he, -⟩ | ⟨queue, he, hadd⟩ | ⟨he, -⟩
  · simpa [he, Bounded] using ⟨hsize, hused⟩
  · obtain ⟨hroom, hone⟩ := used_add hadd
    have hq : queue.size = 32 := (EventQueue.interrupting_add hadd).2.2.trans hsize
    refine ⟨by simpa [he] using hq, ?_⟩
    have hle : queue.used ≤ 32 := by omega
    simpa [he] using hle
  · simpa [he, Bounded] using ⟨hsize, hused⟩

theorem used_remove {q queue : EventQueue} {event : Event}
    (hremove : eventqueueRemove q = some (event, queue)) : q.used = queue.used + 1 := by
  obtain ⟨hs, -⟩ := EventQueue.remove_eq_some.mp hremove
  unfold EventQueue.used
  rw [hs, List.length_cons]

theorem bounded_invariant : MainInvariant Bounded := by
  refine MainInvariant.of_queue (P := fun q => q.size = 32 ∧ q.used ≤ 32) ?_ ?_
  · rintro q events ⟨hsize, hused⟩
    exact ⟨hsize, EventQueue.used_setInterrupting q events ▸ hused⟩
  · rintro q event queue hremove ⟨hsize, hused⟩
    have hone := used_remove hremove
    have hq : queue.size = q.size := by rw [(EventQueue.remove_eq_some.mp hremove).2]
    exact ⟨hq.trans hsize, by omega⟩

theorem bounded_of_run {ctx : ColodContext} {labels : List Label}
    (hrun : run step (Daemon.init ctx) labels = some s) : s.loop.Bounded :=
  bounded_invariant.run (fun _ _ => Bounded.colodEventQueue) hrun ⟨rfl, Nat.zero_le 32⟩

/-- An event is pending after it was queued if and only if one of its kind was pending before or
there was room. -/
theorem mem_colodEventQueue_iff (h : l.Bounded) :
    e ∈ (colodEventQueue l e).kinds ↔ e ∈ l.kinds ∨ l.queue.used < 32 := by
  obtain ⟨hsize, hused⟩ := h
  constructor
  · intro hmem
    by_contra hnot
    obtain ⟨hpending, hfull⟩ := not_or.mp hnot
    rcases colodEventQueue_cases l e with ⟨-, hlast⟩ | ⟨queue, -, hadd⟩ | ⟨he, -⟩
    · exact hpending (last_mem_kinds hlast)
    · have hroom := (used_add hadd).1
      omega
    · exact hpending (by simpa [he, kinds] using hmem)
  · rintro (hpending | hroom)
    · exact mem_kinds_colodEventQueue hpending
    · rcases colodEventQueue_cases l e with ⟨he, hlast⟩ | ⟨queue, he, hadd⟩ | ⟨-, hadd, -⟩
      · simpa [he, kinds] using last_mem_kinds hlast
      · simpa [he, kinds] using (EventQueue.mem_kinds_add hadd).mpr (.inl rfl)
      · have hfull := eventqueueAdd_none hadd
        omega

/-! ### Whole runs -/

theorem lost_colodEventQueue (h : l.Bounded) :
    (colodEventQueue l event).lost = l.lost ∨
      (colodEventQueue l event).queue.used = 32 := by
  rcases colodEventQueue_cases l event with ⟨he, -⟩ | ⟨queue, he, -⟩ | ⟨he, hadd, -⟩
  · exact .inl (by simp [he])
  · exact .inl (by simp [he])
  · refine .inr ?_
    have hfull := (eventqueueAdd_none hadd).trans h.1
    simpa [he] using hfull

theorem used_le_colodEventQueue : l.queue.used ≤ (colodEventQueue l event).queue.used := by
  rcases colodEventQueue_cases l event with ⟨he, -⟩ | ⟨queue, he, hadd⟩ | ⟨he, -⟩
  · simp [he]
  · have hone := (used_add hadd).2
    simp only [he]
    omega
  · simp [he]

/-- A loss leaves the queue full. -/
theorem lost_queueAll {events : List ColodEvent} (h : l.Bounded) :
    (l.queueAll events).lost = l.lost ∨ (l.queueAll events).queue.used = 32 := by
  have hinv : (l.queueAll events).Bounded ∧
      ((l.queueAll events).lost = l.lost ∨ (l.queueAll events).queue.used = 32) := by
    refine queueAll_preserves (P := fun t => t.Bounded ∧ (t.lost = l.lost ∨ t.queue.used = 32))
      ?_ ⟨h, .inl rfl⟩
    rintro u event ⟨hu, hlost⟩
    have hb : (colodEventQueue u event).Bounded := Bounded.colodEventQueue hu
    refine ⟨hb, ?_⟩
    rcases hlost with hlost | hfull
    · rw [← hlost]
      exact lost_colodEventQueue hu
    · have hle : u.queue.used ≤ (colodEventQueue u event).queue.used := used_le_colodEventQueue
      have hle' := hb.2
      right
      omega
  exact hinv.2

theorem lost_wait {event : Option ColodEvent} {loop : EventLoop}
    (hwait : colodEventWait l = (event, loop)) : loop.lost = l.lost := by
  cases event with
  | none =>
    obtain ⟨-, rfl⟩ := colodEventWait_none hwait
    simp
  | some event =>
    obtain ⟨a, queue, -, -, -, rfl⟩ := colodEventWait_some hwait
    simp

theorem lost_invariant (lost : List ColodEvent) : MainInvariant fun l => l.lost = lost where
  setInterrupting l events h := h
  yieldRemove l h := by simpa using h
  wait l event loop hwait h := (lost_wait hwait).trans h
  dispatch u v source hrun hd h := by
    obtain ⟨wakeSources, resumeSources, rfl⟩ := dispatch_eq hd
    exact h

/-- The main coroutine itself loses nothing, and a callback that does leaves the queue full. -/
theorem lost_step {label : Label} (h : step s label = some t) (hb : s.loop.Bounded) :
    t.loop.lost = s.loop.lost ∨ t.loop.queue.used = 32 := by
  have hmain := lost_invariant s.loop.lost
  have hout : ∀ {u : Daemon} {allowed}, Outside s u allowed →
      u.loop.lost = s.loop.lost ∨ u.loop.queue.used = 32 := by
    intro u allowed ho
    obtain ⟨events, hloop, -⟩ := ho.loop
    rw [hloop]
    exact lost_queueAll hb
  cases change_of_step h with
  | callback _ _ ho => exact hout ho
  | dispatch source _ hd =>
    obtain ⟨wakeSources, resumeSources, rfl⟩ := dispatch_eq hd
    exact .inl rfl
  | start _ _ ht | nestedYank _ _ _ _ ht => exact .inl (ht ▸ rfl)
  | enter newState _ _ ht => exact .inl (ht ▸ hmain.enter newState rfl)
  | wait site loop _ _ hwait ht => exact .inl (ht ▸ lost_wait hwait)
  | event _ _ loop _ _ _ _ hwait _ hc => exact .inl (hmain.continues hc (lost_wait hwait))
  | turn _ _ _ _ _ _ _ hc | write _ _ _ _ hc | yanked _ _ _ _ _ hc
  | yankFailed _ _ _ _ _ hc => exact .inl (hmain.continues hc rfl)
  | suspend _ _ _ _ _ _ ht | yankSuspend _ _ _ _ ht =>
    exact .inl (ht ▸ hmain.yieldRemove _ rfl)
  | line _ _ event _ _ ht =>
    subst ht
    simpa [Daemon.suspendAt] using hout (outside_notifyEvent s event)
  | executed _ _ _ reply _ _ _ _ _ _ _ hc =>
    rcases hout (outside_executeCo s reply) with hlost | hfull
    · exact .inl ((lost_invariant s.loop.lost).continues hc hlost)
    · exact .inr (hc.queue ▸ hfull)

/-- A run that never fills the queue loses no event. -/
theorem lost_run {ctx : ColodContext} {labels : List Label}
    (hrun : run step (Daemon.init ctx) labels = some t)
    (hroom : Along step (fun s label => ∀ u, step s label = some u → u.loop.queue.used < 32)
      (Daemon.init ctx) labels) : t.loop.lost = [] := by
  have hinv : t.loop.Bounded ∧ t.loop.lost = [] := by
    refine run_invariant_along (P := fun u => u.loop.Bounded ∧ u.loop.lost = []) ?_ hrun hroom
      ⟨⟨rfl, Nat.zero_le 32⟩, rfl⟩
    rintro u label v hstep hnext ⟨hb, hlost⟩
    have hv : v.loop.Bounded := bounded_invariant.step hstep
      fun _ => queueAll_preserves (P := Bounded) (fun _ _ => Bounded.colodEventQueue) hb
    refine ⟨hv, ?_⟩
    rcases lost_step hstep hb with hsame | hfull
    · exact hsame.trans hlost
    · have hlt := hnext v hstep
      omega
  exact hinv.2

/-- In every reachable state, and after any events queued there, one more event is pending after
it was queued exactly when one of its kind was pending before or fewer than 32 events were; and a
run that never fills the queue loses no event. -/
theorem event_kept_iff_room (ctx : ColodContext) (labels : List Label) (s : Daemon)
    (hrun : run step (Daemon.init ctx) labels = some s) :
    (∀ (events : List ColodEvent) (e : ColodEvent),
      e ∈ (colodEventQueue (s.loop.queueAll events) e).kinds ↔
        e ∈ (s.loop.queueAll events).kinds ∨ (s.loop.queueAll events).queue.used < 32) ∧
    (Along step (fun s label => ∀ u, step s label = some u → u.loop.queue.used < 32)
      (Daemon.init ctx) labels → s.loop.lost = []) := by
  constructor
  · intro events e
    have hb : (s.loop.queueAll events).Bounded :=
      queueAll_preserves (P := Bounded) (fun _ _ => Bounded.colodEventQueue) (bounded_of_run hrun)
    exact mem_colodEventQueue_iff hb
  · exact lost_run hrun

theorem event_kept_iff_room_coloRunning :
    ∃ s, run step (Daemon.init Schedule.context) Schedule.coloRunning = some s ∧
      (ColodEvent.failed ∈ (colodEventQueue s.loop .failed).kinds ↔
        ColodEvent.failed ∈ s.loop.kinds ∨ s.loop.queue.used < 32) := by
  have hsome : (run step (Daemon.init Schedule.context) Schedule.coloRunning).isSome = true := by
    decide
  obtain ⟨s, hrun⟩ := Option.isSome_iff_exists.mp hsome
  exact ⟨s, hrun, (event_kept_iff_room _ _ s hrun).1 [] .failed⟩

/-! ### A full queue -/

/-- A primary starts a migration and waits for it to reach `pre-switchover`. -/
def migrationSchedule : List Label :=
  [.dispatch .start, .run, .run, .run, .run, .clientNew, .clientRequest 0 .startMigration,
    .dispatch (.wake 1), .run, .run] ++ Schedule.exchange ++ [.run]

/-- The link goes down and up again, each time for as long as the debouncer wants. -/
def linkFlap : List Label :=
  [.link "eth0" false, .yellowTimer, .yellowTimer, .link "eth0" true, .yellowTimer, .yellowTimer]

def fillSchedule : List Label := migrationSchedule ++ (List.replicate 16 linkFlap).flatten

set_option maxRecDepth 4000 in
theorem event_lost_in_migration :
    ¬ ∀ (ctx : ColodContext) (labels : List Label) (s : Daemon) (e : ColodEvent),
      run step (Daemon.init ctx) labels = some s → e ∈ (colodEventQueue s.loop e).kinds := by
  intro hclaim
  have hlost : (run step (Daemon.init { Schedule.context with primaryStartup := true })
      fillSchedule).map (fun s => decide (ColodEvent.failed ∈ (colodEventQueue s.loop .failed).kinds)) =
        some false := by decide
  obtain ⟨s, hrun, hnot⟩ := Option.map_eq_some_iff.mp hlost
  exact of_decide_eq_false hnot (hclaim _ _ s .failed hrun)

end ColoDaemon
