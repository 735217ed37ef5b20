import ColoDaemon.Wakeup

/-!
# Wake-ups of the plain event wait

`colod_event_wait` looks at the queue before it suspends, and whoever queues the first event while
it is suspended attaches a wake source. `wake_source_id` does not always name that source: the
destruction of an older wake source resets it. What keeps the wait awake is therefore the set of
the attached wake sources itself, which only a dispatch makes smaller.
-/

namespace ColoDaemon
open Runs EventLoop
variable {s t : Daemon} {l : EventLoop}

/-- The main coroutine is suspended in `colod_event_wait`. -/
def Daemon.InEventWait (s : Daemon) : Prop :=
  s.running = false ∧ ∃ site, s.pc = .eventWait site

/-- A wake source is attached, and its dispatch resumes the main coroutine where it is. -/
def Daemon.WillWake (s : Daemon) : Prop :=
  ∃ id ∈ s.loop.wakeSources, ∃ t,
    s.dispatch (.wake id) = some t ∧ t.running = true ∧ t.pc = s.pc

theorem willWake_iff : s.WillWake ↔ s.loop.wakeSources ≠ [] := by
  constructor
  · rintro ⟨id, hmem, -⟩
    exact List.ne_nil_of_mem hmem
  · intro hne
    obtain ⟨id, hmem⟩ := List.exists_mem_of_ne_nil _ hne
    exact ⟨id, hmem, _, if_pos hmem, rfl, rfl⟩

/-- The plain wait does not sleep on a pending event. -/
def Daemon.Awake (s : Daemon) : Prop :=
  s.InEventWait → s.loop.kinds ≠ [] → s.loop.wakeSources ≠ []

theorem awake_of_running (h : s.running = true) : s.Awake := by
  rintro ⟨hrun, -⟩
  rw [h] at hrun
  cases hrun

theorem awake_of_pc (h : ∀ site, s.pc ≠ .eventWait site) : s.Awake := by
  rintro ⟨-, site, hpc⟩
  exact absurd hpc (h site)

theorem awake_of_isWait (h : s.pc.isWait = true) : s.Awake := by
  apply awake_of_pc
  intro site hpc
  rw [hpc] at h
  cases h

/-- A queue with no event pending asks for a wake source. -/
theorem pending_or_wanted (l : EventLoop) (event : ColodEvent) :
    l.kinds ≠ [] ∨ eventqueuePending l.queue = false ∨ l.queue.interrupting event = true := by
  by_cases hpending : eventqueuePending l.queue = false
  · exact .inr (.inl hpending)
  · exact .inl (mt EventQueue.pending_eq_false.mpr hpending)

/-- The wait suspends on an empty queue, or because it still knows a wake source other than the
one it is dispatched by. -/
theorem wakeSources_of_wait {loop : EventLoop} (hknown : l.WakeKnown)
    (hwait : colodEventWait l = (none, loop)) (hkinds : loop.kinds ≠ []) :
    loop.wakeSources ≠ [] := by
  obtain ⟨hcases, rfl⟩ := colodEventWait_none hwait
  have hqueue : l.forgetCurrent.yieldRemove.kinds = l.kinds := by simp [kinds]
  rw [hqueue] at hkinds
  rw [yieldRemove_wakeSources]
  have hid := hcases.resolve_left hkinds
  rcases hknown.forgetCurrent hid with hmem | hcurrent
  · exact List.ne_nil_of_mem hmem
  · rw [forgetCurrent_current] at hcurrent
    have hforgotten : l.forgetCurrent.wakeSourceId = 0 := by
      unfold forgetCurrent at hcurrent ⊢
      split_ifs with hsame
      · rfl
      · rw [if_neg hsame] at hcurrent
        exact absurd hcurrent hsame
    exact absurd hforgotten hid

theorem awake_outside {allowed : List ColodEvent} (hrun : s.running = false)
    (hout : Outside s t allowed) (hknown : s.loop.WakeKnown) (hs : s.Awake) : t.Awake := by
  rintro ⟨-, site, hpc⟩ hkinds
  obtain ⟨events, hloop, -⟩ := hout.loop
  have hcurrent : s.loop.current = none := by simpa [Daemon.running] using hrun
  have hpc' : s.pc = .eventWait site := by
    have houtside := hout.pc
    rw [hpc] at houtside
    exact houtside.of_eventWait
  rw [hloop] at hkinds ⊢
  rcases wake_queueAll (Q := fun u => u.kinds ≠ []) (fun u event _ => pending_or_wanted u event) events
    hknown hcurrent hkinds with hbefore | hwake
  · have hgrow := length_queueAll s.loop events
    have hpos := List.length_pos_iff.mpr (hs ⟨hrun, site, hpc'⟩ hbefore)
    exact List.length_pos_iff.mp (Nat.lt_of_lt_of_le hpos hgrow)
  · exact List.length_pos_iff.mp hwake

theorem awake_step {label : Label} (h : step s label = some t) (hknown : s.loop.WakeKnown)
    (hs : s.Awake) : t.Awake := by
  -- the coroutine goes on, or suspends in a wait for a qemu event or for the grace timer
  have hcontinues : ∀ {u : Daemon} {obs susp pc}, Continues u t obs susp pc →
      u.running = true → (susp = true → pc.isWait = true) → t.Awake := by
    intro u obs susp pc hc hu hwait
    cases susp with
    | false => exact awake_of_running (by simpa [running_continues hc] using hu)
    | true => exact awake_of_isWait (hc.pc ▸ hwait rfl)
  cases change_of_step h with
  | callback hrun _ hout => exact awake_outside hrun hout hknown hs
  | dispatch source _ hd =>
    obtain ⟨wakeSources, resumeSources, rfl⟩ := dispatch_eq hd
    exact awake_of_running rfl
  | start hrun _ ht => exact awake_of_running (ht ▸ hrun)
  | enter newState hrun _ ht =>
    subst ht
    cases newState with
    | secondaryColoRunning | primaryColoRunning =>
      simp only [colodMainCo]
      split_ifs
      · exact awake_of_isWait rfl
      · exact awake_of_running hrun
    | secondaryWait => exact awake_of_isWait rfl
    | quit =>
      simp only [colodMainCo, colodMainCoReturn]
      split_ifs
      · exact awake_of_pc (fun _ hpc => by cases hpc)
      · exact awake_of_pc (fun _ hpc => by cases hpc)
    | _ => exact awake_of_running hrun
  | wait site loop _ _ hwait ht =>
    subst ht
    exact fun _ => wakeSources_of_wait hknown hwait
  | event site event loop susp pc hrun _ hwait hturn hc =>
    obtain ⟨a, queue, -, -, -, rfl⟩ := colodEventWait_some hwait
    refine hcontinues hc (by simpa [Daemon.running] using hrun) ?_
    rintro rfl
    exact hturn.isWait
  | turn pc pc' obs susp hrun _ hturn hc =>
    refine hcontinues hc hrun ?_
    rintro rfl
    exact hturn.isWait
  | suspend _ _ _ _ _ _ ht | line _ _ _ _ _ ht | yankSuspend _ _ _ _ ht =>
    subst ht
    exact awake_of_pc (fun _ hpc => by cases hpc)
  | nestedYank _ _ hrun _ ht => exact awake_of_running (ht ▸ hrun)
  | write _ _ hrun _ hc => exact hcontinues hc hrun (by simp)
  | executed site written inner reply obs susp pc hrun _ _ hturn hc =>
    obtain ⟨loop, qmpError, didYank, he, events, hloop, -⟩ := executeCo_eq s reply
    refine hcontinues hc (by simpa [he, hloop, Daemon.running] using hrun) ?_
    rintro rfl
    exact hturn.isWait
  | yanked _ _ hrun _ _ hc | yankFailed _ _ hrun _ _ hc => exact hcontinues hc hrun (by simp)

/-- In every reachable state in which the main coroutine is suspended in the plain event wait with
an event pending, a wake source that resumes it is attached. -/
theorem event_wait_wakes (ctx : ColodContext) (labels : List Label) (s : Daemon)
    (hrun : run step (Daemon.init ctx) labels = some s) (hwait : s.InEventWait)
    (hpending : eventqueuePending s.loop.queue = true) : s.WillWake := by
  have hinv : LoopSound s ∧ s.Awake := by
    refine run_invariant (P := fun u => LoopSound u ∧ u.Awake) ?_ hrun
      ⟨loopSound_init ctx, awake_of_pc (fun _ hpc => by cases hpc)⟩
    rintro u label v h ⟨hsound, hawake⟩
    exact ⟨loopSound_step h hsound, awake_step h hsound.known hawake⟩
  rw [willWake_iff]
  apply hinv.2 hwait
  intro hkinds
  rw [EventQueue.pending_eq_false.mpr hkinds] at hpending
  cases hpending

/-- A migration whose first command finds `did_yank` set. The event that this queues attaches a
wake source while the one that woke the coroutine is still being dispatched. -/
def ownWake : List Label :=
  [.dispatch .start, .run, .run, .run, .run, .nestedYank, .clientNew,
    .clientRequest 0 .startMigration, .dispatch (.wake 1), .run, .run, .io .write,
    .io (.reply (some .result)), .run]

theorem event_wait_wakes_ownWake : ∃ s,
    run step (Daemon.init { Schedule.context with primaryStartup := true }) ownWake = some s ∧
      s.loop.wakeSourceId = 0 ∧ s.loop.kinds = [.failoverSync] ∧ s.WillWake := by
  have hrun : (run step (Daemon.init { Schedule.context with primaryStartup := true })
      ownWake).map (fun s => (s.loop.wakeSourceId, s.loop.kinds, s.running, s.pc,
        eventqueuePending s.loop.queue)) =
      some (0, [.failoverSync], false, .eventWait .startMigration, true) := by decide
  obtain ⟨s, hs, hvalues⟩ := Option.map_eq_some_iff.mp hrun
  simp only [Prod.mk.injEq] at hvalues
  obtain ⟨hid, hkinds, hsuspended, hpc, hpending⟩ := hvalues
  exact ⟨s, hs, hid, hkinds, event_wait_wakes _ _ s hs ⟨hsuspended, _, hpc⟩ hpending⟩

/-- With `wake_source_id` reset the next event attaches a second wake source. -/
example : (run step (Daemon.init { Schedule.context with primaryStartup := true })
    (ownWake ++ [.qmpHup])).map (fun s => (s.loop.wakeSourceId, s.loop.wakeSources)) =
    some (3, [2, 3]) := by decide

end ColoDaemon
