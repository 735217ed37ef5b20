import ColoDaemon.InterruptTable

/-!
# Wake-ups of an interruptible QMP wait

The main coroutine suspends in `qmp_wait_event` without looking at the queue. Whether a source that
will resume it is attached while an interrupting event is pending is therefore a question about
every way into the wait. All of them keep a source, except those of `STATE_SECONDARY_WAIT`: on
entering the state and after discarding an event the wait begins whatever is still pending.
-/

namespace ColoDaemon
open Runs EventLoop
variable {s t : Daemon} {l : EventLoop}

namespace EventLoop

def InterruptPending (l : EventLoop) : Prop := ∃ e ∈ l.kinds, l.queue.interrupting e = true

/-- The wake source that the daemon remembers is attached or being dispatched. -/
def WakeKnown (l : EventLoop) : Prop :=
  l.wakeSourceId ≠ 0 →
    l.wakeSourceId ∈ l.wakeSources ∨ l.current = some (.wake l.wakeSourceId)

end EventLoop

/-- The number of attached sources that resume the main coroutine whenever they are dispatched. -/
def Daemon.sources (s : Daemon) : ℕ := s.loop.wakeSources.length + s.resumeSources

/-- A source that will resume the main coroutine is attached. -/
def Daemon.Attached (s : Daemon) : Prop := s.loop.wakeSources ≠ [] ∨ s.resumeSources ≠ 0

/-- No wake-up is lost: a wait with an interrupting event pending has a source attached. -/
def Daemon.Wakeful (s : Daemon) : Prop :=
  s.running = false → (∃ site fired, s.pc = .qmpWait site fired) → s.pendingInterrupt = true →
    s.Attached

theorem attached_iff : s.Attached ↔ 1 ≤ s.sources := by
  have hl : s.loop.wakeSources ≠ [] ↔ 1 ≤ s.loop.wakeSources.length := List.length_pos_iff.symm
  unfold Daemon.Attached Daemon.sources
  rw [hl]
  omega

theorem pendingInterrupt_iff (h : s.loop.queue.InterruptFirst) :
    s.pendingInterrupt = true ↔ s.loop.InterruptPending := h.pendingInterrupt_iff

/-! ### Queueing and dispatching -/

theorem EventLoop.WakeKnown.colodEventQueue {event : ColodEvent} (h : l.WakeKnown) :
    (colodEventQueue l event).WakeKnown := by
  have hwake : (l.wakeFor event).WakeKnown := by
    unfold wakeFor
    split_ifs
    · intro _
      exact .inl (List.mem_append_right _ List.mem_cons_self)
    · exact h
  rcases colodEventQueue_cases l event with ⟨he, -⟩ | ⟨_, he, -⟩ | ⟨he, -⟩ <;>
    exact he ▸ hwake

theorem EventLoop.WakeKnown.yieldRemove (h : l.WakeKnown) : l.yieldRemove.WakeKnown := by
  unfold EventLoop.yieldRemove
  split
  · intro hne
    exact absurd rfl hne
  · rename_i hcur
    intro hne
    rcases h hne with hmem | hc
    · exact .inl hmem
    · exact absurd hc (hcur _)

theorem EventLoop.WakeKnown.forgetCurrent (h : l.WakeKnown) : l.forgetCurrent.WakeKnown := by
  unfold EventLoop.forgetCurrent
  split_ifs
  · intro hne
    exact absurd rfl hne
  · exact h

/-- What a dispatch does to the wake sources. -/
theorem dispatch_wakeSources {source : Source} (h : s.dispatch source = some t) :
    t.loop.wakeSources = (match source with
      | .wake id => s.loop.wakeSources.erase id
      | _ => s.loop.wakeSources) ∧ t.loop.current = some source ∧ s.sources ≤ t.sources + 1 := by
  unfold Daemon.dispatch at h
  unfold Daemon.sources
  cases source with
  | start | grace =>
    simp only at h
    split_ifs at h
    cases h
    simp [Daemon.resumeWith]
  | wake id =>
    simp only at h
    split_ifs at h with hmem
    cases h
    have hlen := List.length_erase_of_mem hmem
    refine ⟨rfl, rfl, ?_⟩
    simp only [Daemon.resumeWith, hlen]
    omega
  | resume =>
    simp only at h
    split_ifs at h
    cases h
    refine ⟨rfl, rfl, ?_⟩
    simp only [Daemon.resumeWith]
    omega
  | timeout =>
    simp only at h
    split at h
    · split_ifs at h
      cases h
      simp [Daemon.resumeWith]
    · cases h
  | io =>
    simp only at h
    split at h
    · cases h
      simp [Daemon.resumeWith]
    · cases h
      simp [Daemon.resumeWith]
    · cases h

theorem wakeKnown_invariant : MainInvariant WakeKnown where
  setInterrupting l events h := h
  yieldRemove l h := h.yieldRemove
  wait l event loop hwait h := by
    cases event with
    | none =>
      obtain ⟨-, rfl⟩ := colodEventWait_none hwait
      exact h.forgetCurrent.yieldRemove
    | some event =>
      obtain ⟨a, queue, -, -, -, rfl⟩ := colodEventWait_some hwait
      exact h.forgetCurrent
  dispatch u v source hrun hd h := by
    obtain ⟨hsources, hcurrent, -⟩ := dispatch_wakeSources hd
    obtain ⟨wakeSources, resumeSources, hv⟩ := dispatch_eq hd
    have hid : v.loop.wakeSourceId = u.loop.wakeSourceId := by rw [hv]
    intro hne
    rw [hid] at hne ⊢
    have hmem : u.loop.wakeSourceId ∈ u.loop.wakeSources := by
      rcases h hne with hmem | hcur
      · exact hmem
      · simp [Daemon.running, hcur] at hrun
    rw [hsources, hcurrent]
    cases source with
    | wake id =>
      by_cases hsame : u.loop.wakeSourceId = id
      · exact .inr (by rw [hsame])
      · exact .inl ((List.mem_erase_of_ne hsame).mpr hmem)
    | _ => exact .inl hmem

theorem wakeKnown_step {label : Label} (h : step s label = some t) (hs : s.loop.WakeKnown) :
    t.loop.WakeKnown :=
  wakeKnown_invariant.step h fun _ =>
    queueAll_preserves (P := WakeKnown) (fun _ _ => WakeKnown.colodEventQueue) hs

theorem length_wakeFor (l : EventLoop) (event : ColodEvent) :
    l.wakeSources.length ≤ (l.wakeFor event).wakeSources.length := by
  unfold wakeFor
  split_ifs
  · simp [addWakeSource]
  · exact Nat.le_refl _

theorem length_queueAll (l : EventLoop) (events : List ColodEvent) :
    l.wakeSources.length ≤ (l.queueAll events).wakeSources.length := by
  refine queueAll_preserves (P := fun u => l.wakeSources.length ≤ u.wakeSources.length) ?_
    (Nat.le_refl _)
  intro u event h
  have hgrow := length_wakeFor u event
  rcases colodEventQueue_cases u event with ⟨he, -⟩ | ⟨_, he, -⟩ | ⟨he, -⟩ <;> rw [he] <;>
    exact Nat.le_trans h hgrow

/-- An event that `_colod_event_queue` wants a wake source for finds or attaches one while the
coroutine is suspended. `Q` is what the event brings about. -/
theorem wake_queueAll {Q : EventLoop → Prop}
    (hQ : ∀ u event, Q (colodEventQueue u event) →
      Q u ∨ eventqueuePending u.queue = false ∨ u.queue.interrupting event = true)
    (events : List ColodEvent) (hknown : l.WakeKnown) (hcurrent : l.current = none)
    (h : Q (l.queueAll events)) : Q l ∨ 1 ≤ (l.queueAll events).wakeSources.length := by
  induction events generalizing l with
  | nil => exact .inl h
  | cons event events ih =>
    have hstep : (colodEventQueue l event).wakeSources.length ≤
        (l.queueAll (event :: events)).wakeSources.length := length_queueAll _ events
    rcases ih hknown.colodEventQueue (colodEventQueue_current.trans hcurrent) h with hq | hwake
    · have hsources : (colodEventQueue l event).wakeSources = (l.wakeFor event).wakeSources := by
        rcases colodEventQueue_cases l event with ⟨he, -⟩ | ⟨_, he, -⟩ | ⟨he, -⟩ <;> rw [he]
      rcases hQ l event hq with hl | hwants
      · exact .inl hl
      · right
        rw [hsources] at hstep
        by_cases hid : l.wakeSourceId = 0
        · have hadd : (l.wakeFor event).wakeSources = l.wakeSources ++ [l.nextId] := by
            unfold wakeFor
            rw [if_pos ⟨hid, hwants⟩]
            rfl
          rw [hadd, List.length_append, List.length_singleton] at hstep
          omega
        · have hin : l.wakeSourceId ∈ l.wakeSources := by
            rcases hknown hid with hin | hcur
            · exact hin
            · rw [hcurrent] at hcur
              cases hcur
          have hpos := List.length_pos_of_mem hin
          have hgrow := length_wakeFor l event
          omega
    · exact .inr hwake

theorem interruptPending_colodEventQueue {event : ColodEvent}
    (h : (colodEventQueue l event).InterruptPending) :
    l.InterruptPending ∨ eventqueuePending l.queue = false ∨ l.queue.interrupting event = true := by
  obtain ⟨e, hmem, hint⟩ := h
  rw [colodEventQueue_interrupting] at hint
  rcases mem_kinds_of_colodEventQueue hmem with rfl | hold
  · exact .inr (.inr hint)
  · exact .inl ⟨e, hold, hint⟩

/-! ### The invariant -/

/-- What holds of the queue and the wake sources in every reachable state. -/
structure LoopSound (s : Daemon) : Prop where
  first : s.loop.queue.InterruptFirst
  known : s.loop.WakeKnown
  tabled : Tabled s

theorem loopSound_step {label : Label} (h : step s label = some t) (hs : LoopSound s) :
    LoopSound t :=
  ⟨interruptFirst_step h hs.first, wakeKnown_step h hs.known, tabled_step h hs.tabled⟩

theorem loopSound_init (ctx : ColodContext) : LoopSound (Daemon.init ctx) :=
  ⟨List.Pairwise.nil, fun h => absurd rfl h, tabled_init ctx⟩

theorem loopSound_of_run {ctx : ColodContext} {labels : List Label}
    (hrun : run step (Daemon.init ctx) labels = some s) : LoopSound s :=
  run_invariant (fun _ _ _ => loopSound_step) hrun (loopSound_init ctx)

/-- The program points of a secondary before it runs in COLO mode. -/
def Pc.secondary : Pc → Bool
  | .enter .secondaryStartup | .enter .secondaryWait | .enter .secondaryColoRunning => true
  | .exec .secondaryStartup _ _ => true
  | .qmpWait .secondaryWait _ => true
  | .eventWait .secondaryWait => true
  | _ => false

/-- The sources that must be attached in a wait while an interrupting event is pending. A fired
wait goes on to the next one, so it needs one more than the source that resumes it. -/
def Daemon.demand (s : Daemon) (fired : Bool) : ℕ :=
  (if s.running then 0 else 1) + if fired then 1 else 0

structure Alert (s : Daemon) : Prop where
  sound : LoopSound s
  secondary : s.pc.secondary = true → s.primary = false
  fired : ∀ site, s.pc = .qmpWait site true → s.running = false → 1 ≤ s.resumeSources
  waiting : ∀ site fired, s.pc = .qmpWait site fired → s.loop.InterruptPending →
    s.demand fired ≤ s.sources
  colo : s.pc = .enter .primaryColoRunning →
    s.running = true ∧ (s.loop.InterruptPending → 1 ≤ s.sources)

/-- The condition on a step of the running main coroutine: where `STATE_SECONDARY_WAIT` begins to
wait, no interrupting event stays pending unless a source is attached. -/
def Daemon.KeepsSource (s : Daemon) : Prop :=
  match s.pc with
  | .enter .secondaryWait =>
    (s.loop.setInterrupting [.failoverSync, .failoverWin, .yellow, .unyellow]).InterruptPending →
      s.Attached
  | .eventWait .secondaryWait =>
    ∀ first rest, s.loop.kinds = first :: rest → eventAlwaysInterrupting first = false →
      (∃ e ∈ rest, s.loop.queue.interrupting e = true) → s.Attached
  | _ => True

theorem Alert.wakeful (h : Alert s) : s.Wakeful := by
  rintro hrun ⟨site, fired, hpc⟩ hpending
  have hdemand := h.waiting site fired hpc ((pendingInterrupt_iff h.sound.first).mp hpending)
  refine attached_iff.mpr ?_
  simp only [Daemon.demand, hrun, Bool.false_eq_true, if_false] at hdemand
  omega

theorem interruptPending_yieldRemove : l.yieldRemove.InterruptPending ↔ l.InterruptPending := by
  simp [InterruptPending]

/-- In a wait for a qemu event, or about to begin the one of `STATE_PRIMARY_COLO_RUNNING`. -/
def Pc.awaits : Pc → Bool
  | .qmpWait _ _ | .enter .primaryColoRunning => true
  | _ => false

/-- A daemon that is neither in such a wait nor about to begin one. -/
theorem Alert.plain (hsound : LoopSound t) (hsecondary : t.pc.secondary = true → t.primary = false)
    (hawaits : t.pc.awaits = false) : Alert t := by
  have hnot : ∀ {pc : Pc}, pc.awaits = true → t.pc ≠ pc := by
    rintro pc hpc rfl
    rw [hawaits] at hpc
    cases hpc
  exact ⟨hsound, hsecondary, fun _ hpc => absurd hpc (hnot rfl),
    fun _ _ hpc => absurd hpc (hnot rfl), fun hpc => absurd hpc (hnot rfl)⟩

/-- A wait that begins: the coroutine is suspended and nothing has fired. -/
theorem Alert.begin (site : QmpWaitSite) (hsound : LoopSound t) (hpc : t.pc = .qmpWait site false)
    (hsecondary : site = .secondaryWait → t.primary = false) (hrun : t.running = false)
    (hsources : t.loop.InterruptPending → 1 ≤ t.sources) : Alert t where
  sound := hsound
  secondary h := by
    apply hsecondary
    cases site <;> first | rfl | (rw [hpc] at h; cases h)
  fired site' hpc' := by
    rw [hpc] at hpc'
    cases hpc'
  waiting site' fired hpc' hpending := by
    rw [hpc] at hpc'
    cases hpc'
    simpa [Daemon.demand, hrun] using hsources hpending
  colo hpc' := by
    rw [hpc] at hpc'
    cases hpc'

theorem PcOutside.secondary {pc pc' : Pc} {n n' : ℕ} (h : PcOutside pc n pc' n') :
    pc'.secondary = pc.secondary := by
  cases h with
  | fired site => cases site <;> rfl
  | same | releasedArray | releasedExec => rfl

theorem alert_callback {allowed : List ColodEvent} (hs : Alert s) (hrun : s.running = false)
    (hout : Outside s t allowed) (hsound : LoopSound t) : Alert t := by
  obtain ⟨events, hloop, -⟩ := hout.loop
  have hcurrent : s.loop.current = none := by simpa [Daemon.running] using hrun
  have hrun' : t.running = false := by simp [Daemon.running, hloop, hcurrent]
  have hgrow := length_queueAll s.loop events
  have hpending := wake_queueAll (Q := InterruptPending)
    (fun _ _ => interruptPending_colodEventQueue) events hs.sound.known hcurrent
  rw [← hloop] at hgrow hpending
  -- a wait that fires gains a source, one that has fired keeps its own
  have hresume : ∀ site fired', t.pc = .qmpWait site fired' → ∃ fired, s.pc = .qmpWait site fired ∧
      s.resumeSources ≤ t.resumeSources ∧
      (fired' = true → fired = false → s.resumeSources + 1 ≤ t.resumeSources) := by
    intro site fired' hpc'
    have hpc := hout.pc
    rw [hpc'] at hpc
    generalize s.pc = pc, s.resumeSources = n, t.resumeSources = n' at hpc ⊢
    cases hpc with
    | same => exact ⟨fired', rfl, Nat.le_refl _, by simp_all⟩
    | fired => exact ⟨false, rfl, Nat.le_succ _, by simp⟩
  have hfired : ∀ site, t.pc = .qmpWait site true → 1 ≤ t.resumeSources := by
    intro site hpc'
    obtain ⟨fired, hpc, hle, hone⟩ := hresume site true hpc'
    cases fired with
    | true =>
      have hold := hs.fired site hpc hrun
      omega
    | false =>
      have hnew := hone rfl rfl
      omega
  refine ⟨hsound, ?_, fun site hpc' _ => hfired site hpc', ?_, ?_⟩
  · intro h
    rw [hout.primary]
    exact hs.secondary (hout.pc.secondary ▸ h)
  · intro site fired' hpc' hp
    obtain ⟨fired, hpc, hle, hone⟩ := hresume site fired' hpc'
    have hold := hs.waiting site fired hpc
    have hres := hfired site
    simp only [Daemon.demand, hrun, hrun', Daemon.sources, Bool.false_eq_true, if_false] at hold ⊢
    rcases hpending hp with hp | hp
    · have hold := hold hp
      cases fired <;> cases fired' <;> simp_all <;> omega
    · cases fired' with
      | false => simp only [Bool.false_eq_true, if_false]; omega
      | true =>
        have hres := hres hpc'
        simp only [if_true]
        omega
  · intro hpc'
    have hpc := hout.pc
    rw [hpc'] at hpc
    have hsame : s.pc = .enter .primaryColoRunning := by
      generalize s.pc = pc, s.resumeSources = n, t.resumeSources = n' at hpc ⊢
      cases hpc
      rfl
    have hr := (hs.colo hsame).1
    rw [hrun] at hr
    cases hr

theorem alert_dispatch {source : Source} (hs : Alert s) (hrun : s.running = false)
    (hd : s.dispatch source = some t) (hsound : LoopSound t) : Alert t := by
  obtain ⟨-, hcurrent, hsources⟩ := dispatch_wakeSources hd
  have hrun' : t.running = true := by simp [Daemon.running, hcurrent]
  obtain ⟨wakeSources, resumeSources, ht⟩ := dispatch_eq hd
  have hpc : t.pc = s.pc := by rw [ht]
  have hprimary : t.primary = s.primary := by rw [ht]
  have hqueue : t.loop.queue = s.loop.queue := by rw [ht]
  have hpending : t.loop.InterruptPending ↔ s.loop.InterruptPending := by
    simp only [InterruptPending, kinds, hqueue]
  refine ⟨hsound, ?_, ?_, ?_, ?_⟩
  · rw [hpc, hprimary]
    exact hs.secondary
  · intro site _ hr
    rw [hrun'] at hr
    cases hr
  · intro site fired hp hi
    have hold := hs.waiting site fired (hpc ▸ hp) (hpending.mp hi)
    simp only [Daemon.demand, hrun, hrun', Bool.false_eq_true, if_false, if_true] at hold ⊢
    omega
  · intro hp
    have hr := (hs.colo (hpc ▸ hp)).1
    rw [hrun] at hr
    cases hr

/-- Setting the table that is in force already interrupts on the same events. -/
theorem interruptPending_setInterrupting {events : List ColodEvent}
    (halways : l.queue.interruptingAlways = eventAlwaysInterrupting)
    (htable : l.queue.TableIs events) :
    (l.setInterrupting events).InterruptPending ↔ l.InterruptPending := by
  have hsame : (l.setInterrupting events).queue.interrupting = l.queue.interrupting :=
    (tableIs_setInterrupting halways).trans htable.symm
  simp only [InterruptPending, hsame]
  constructor
  · rintro ⟨e, hmem, hint⟩
    exact ⟨e, EventQueue.mem_kinds_setInterrupting.mp hmem, hint⟩
  · rintro ⟨e, hmem, hint⟩
    exact ⟨e, EventQueue.mem_kinds_setInterrupting.mpr hmem, hint⟩

theorem alert_enter {newState : MainState} (hs : Alert s) (hpc : s.pc = .enter newState)
    (hkeeps : s.KeepsSource) (hsound : LoopSound (colodMainCo s newState)) :
    Alert (colodMainCo s newState) := by
  have hprimary : (Pc.enter newState).secondary = true → s.primary = false := by
    rw [← hpc]
    exact hs.secondary
  cases newState with
  | secondaryStartup => exact .plain hsound (fun _ => hprimary rfl) rfl
  | secondaryWait =>
    simp only [Daemon.KeepsSource, hpc] at hkeeps
    refine .begin .secondaryWait hsound rfl (fun _ => hprimary rfl)
      (by simp [colodMainCo, Daemon.running, Daemon.qmpWait, Daemon.suspendAt]) ?_
    intro hp
    have hattached := attached_iff.mp (hkeeps (interruptPending_yieldRemove.mp hp))
    simpa [Daemon.sources, colodMainCo, Daemon.qmpWait, Daemon.suspendAt, Daemon.setInterrupting,
      Daemon.observe, EventLoop.setInterrupting] using hattached
  | secondaryColoRunning =>
    have hp : s.primary = false := hprimary rfl
    have hnext : (colodMainCo s .secondaryColoRunning).pc = .eventWait .coloRunning := by
      simp [colodMainCo, Daemon.setInterrupting, Daemon.observe, hp, Daemon.continueAt]
    refine .plain hsound ?_ ?_ <;> rw [hnext]
    · simp [Pc.secondary]
    · rfl
  | primaryColoRunning =>
    obtain ⟨-, hsources⟩ := hs.colo hpc
    have htable : s.loop.queue.TableIs [.failoverSync] :=
      hs.sound.tabled.table _ (by rw [hpc]; rfl)
    by_cases hp : s.primary = true
    · have heq : colodMainCo s .primaryColoRunning =
          (({ s with transitioning := false, state := .primaryColoRunning, replication := true }.observe
            (.entered .primaryColoRunning)).setInterrupting [.failoverSync]).qmpWait .running1 := by
        simp [colodMainCo, Daemon.setInterrupting, Daemon.observe, hp]
      rw [heq] at hsound ⊢
      refine .begin .running1 hsound rfl (by simp)
        (by simp [Daemon.running, Daemon.qmpWait, Daemon.suspendAt]) ?_
      intro hpending
      have hold := hsources ((interruptPending_setInterrupting hs.sound.tabled.always htable).mp
        (interruptPending_yieldRemove.mp hpending))
      simpa [Daemon.sources, Daemon.qmpWait, Daemon.suspendAt, Daemon.setInterrupting,
        Daemon.observe, EventLoop.setInterrupting] using hold
    · have hnext : (colodMainCo s .primaryColoRunning).pc = .eventWait .coloRunning := by
        simp [colodMainCo, Daemon.setInterrupting, Daemon.observe, hp, Daemon.continueAt]
      refine .plain hsound ?_ ?_ <;> rw [hnext]
      · simp [Pc.secondary]
      · rfl
  | quit =>
    have hend : (colodMainCo s .quit).pc = .done ∨ (colodMainCo s .quit).pc = .aborted := by
      simp only [colodMainCo, colodMainCoReturn]
      split_ifs
      · exact .inl rfl
      · exact .inr rfl
    refine .plain hsound ?_ ?_
    · rcases hend with hend | hend <;> simp [hend, Pc.secondary]
    · rcases hend with hend | hend <;> rw [hend] <;> rfl
  | _ => exact .plain hsound (fun h => by cases h) rfl

theorem alert_event {site : EventWaitSite} {event : ColodEvent} {loop : EventLoop} {susp : Bool}
    {pc : Pc} (hs : Alert s) (hkeeps : s.KeepsSource) (hpc : s.pc = .eventWait site)
    (hwait : colodEventWait s.loop = (some event, loop))
    (hturn : EventTurn s.primary site event susp pc)
    (hc : Continues { s with loop } t [.popped s.state event] susp pc) (hsound : LoopSound t) :
    Alert t := by
  have hplain : pc.awaits = false → pc.secondary = false → Alert t := by
    intro hawaits hsec
    refine .plain hsound ?_ ?_ <;> rw [hc.pc]
    · simp [hsec]
    · exact hawaits
  cases hturn with
  | handled _ event newState _ hevent =>
    cases event <;> cases hevent <;> exact hplain rfl rfl
  | secondaryWait event hevent =>
    obtain ⟨a, queue, hremove, rfl, -, rfl⟩ := colodEventWait_some hwait
    obtain ⟨hseq, hq⟩ := EventQueue.remove_eq_some.mp hremove
    have hkinds : s.loop.kinds = a.event :: queue.kinds := by
      simp [kinds, EventQueue.kinds, hseq]
    have hint : queue.interrupting = s.loop.queue.interrupting := by rw [hq]
    simp only [Daemon.KeepsSource, hpc] at hkeeps
    refine .begin _ hsound hc.pc (fun _ => ?_) ?_ ?_
    · rw [hc.primary]
      exact hs.secondary (by rw [hpc]; rfl)
    · simp [Daemon.running, hc.loop]
    · intro hp
      have hrest : ∃ e ∈ queue.kinds, s.loop.queue.interrupting e = true := by
        rw [hc.loop, if_pos rfl, interruptPending_yieldRemove] at hp
        simpa [InterruptPending, kinds, hint] using hp
      have hattached := attached_iff.mp (hkeeps _ _ hkinds hevent hrest)
      simpa [Daemon.sources, hc.loop, hc.resumeSources] using hattached
  | ignored site event hsite =>
    refine hplain rfl ?_
    cases site <;> first | rfl | exact absurd rfl hsite.1
  | leave event newState _ hevent =>
    cases event <;> cases hevent <;> exact hplain rfl rfl
  | failover | yellow | cancel | unexpected | migrate | win | quit | autoquit =>
    exact hplain rfl rfl

theorem sources_continues {u : Daemon} {obs : List Obs} {susp : Bool} {pc : Pc}
    (hc : Continues u t obs susp pc) : t.sources = u.sources := by
  unfold Daemon.sources
  rw [hc.loop, hc.resumeSources]
  cases susp <;> simp

theorem interruptPending_continues {u : Daemon} {obs : List Obs} {susp : Bool} {pc : Pc}
    (hc : Continues u t obs susp pc) : t.loop.InterruptPending ↔ u.loop.InterruptPending := by
  simp only [InterruptPending, kinds, hc.queue]

/-- A wait that is begun only when nothing interrupting is pending. -/
theorem Alert.guarded {u : Daemon} {obs : List Obs} {site : QmpWaitSite}
    (hc : Continues u t obs true (.qmpWait site false)) (hu : u.loop.queue.InterruptFirst)
    (hpending : u.pendingInterrupt = false) (hsound : LoopSound t)
    (hsecondary : site = .secondaryWait → t.primary = false) : Alert t := by
  refine .begin _ hsound hc.pc hsecondary (by rw [running_continues hc]; rfl) ?_
  intro hp
  rw [interruptPending_continues hc, ← pendingInterrupt_iff hu, hpending] at hp
  cases hp

theorem alert_array {u : Daemon} {table : CommandTable} {err : Option ColodError} {susp : Bool}
    {pc : Pc} {obs : List Obs} (hturn : ArrayTurn u table err susp pc)
    (hc : Continues u t obs susp pc) (hu : u.loop.queue.InterruptFirst) (hsound : LoopSound t) :
    Alert t := by
  have hplain : pc.awaits = false → pc.secondary = false → Alert t := by
    intro hawaits hsec
    refine .plain hsound ?_ ?_ <;> rw [hc.pc]
    · simp [hsec]
    · exact hawaits
  cases hturn with
  | preSwitchover hpending => exact .guarded hc hu hpending hsound (by simp)
  | interrupted | assertion | migrateContinue | cancel | fails | finished =>
    exact hplain rfl rfl

theorem alert_turn {pc pc' : Pc} {obs : List Obs} {susp : Bool} (hs : Alert s)
    (hrun : s.running = true) (hpc : s.pc = pc) (hturn : Turn s pc obs susp pc')
    (hc : Continues s t obs susp pc') (hsound : LoopSound t) : Alert t := by
  have hplain : pc'.awaits = false → (pc'.secondary = true → pc.secondary = true) → Alert t := by
    intro hawaits hsec
    refine .plain hsound ?_ ?_ <;> rw [hc.pc]
    · intro h
      rw [hc.primary]
      exact hs.secondary (by rw [hpc, hsec h])
    · exact hawaits
  cases hturn with
  | resumed => exact hplain rfl (fun _ => rfl)
  | discard => exact hplain rfl (fun _ => rfl)
  | colo =>
    have hwait := hs.waiting .colo true hpc
    simp only [Daemon.demand, hrun, if_true] at hwait
    refine ⟨hsound, ?_, ?_, ?_, ?_⟩ <;> rw [hc.pc]
    · simp [Pc.secondary]
    · simp
    · simp
    · intro _
      refine ⟨by rw [running_continues hc, hrun]; rfl, ?_⟩
      rw [interruptPending_continues hc, sources_continues hc]
      exact hwait
  | running1 =>
    have hwait := hs.waiting .running1 true hpc
    simp only [Daemon.demand, hrun, if_true] at hwait
    refine .begin _ hsound hc.pc (by simp) (by rw [running_continues hc]; rfl) ?_
    rw [interruptPending_continues hc, sources_continues hc]
    exact hwait
  | again site hpending =>
    refine .guarded hc hs.sound.first hpending hsound ?_
    rintro rfl
    rw [hc.primary]
    exact hs.secondary (by rw [hpc]; rfl)
  | arrayEnd co susp pc' _ hturn => exact alert_array hturn hc hs.sound.first hsound
  | arrayInterrupted co line susp pc' _ _ hturn => exact alert_array hturn hc hs.sound.first hsound
  | preSwitchover | element | timeout | interrupted | running2 | runningInterrupted | assertion
  | yellow | grace | released => exact hplain rfl (by simp [Pc.secondary])

theorem alert_executed {site : ExecSite} {written : Bool} {inner : InnerWait}
    {reply : Option QmpReply} {result : Except ColodError Unit} {obs : List Obs} {susp : Bool}
    {pc : Pc} (hs : Alert s) (hpc : s.pc = .exec site written inner)
    (hturn : ExecTurn (colodExecuteCo s reply).2 site result obs susp pc)
    (hc : Continues (colodExecuteCo s reply).2 t obs susp pc) (hsound : LoopSound t) :
    Alert t := by
  obtain ⟨loop, qmpError, didYank, he, events, hloop, -⟩ := executeCo_eq s reply
  have hu : (colodExecuteCo s reply).2.loop.queue.InterruptFirst := by
    rw [he]
    exact hloop ▸ queueAll_interruptFirst hs.sound.first
  have hprimary : t.primary = s.primary := hc.primary.trans (by rw [he])
  have hplain : pc.awaits = false → (pc.secondary = true → s.pc.secondary = true) → Alert t := by
    intro hawaits hsec
    refine .plain hsound ?_ ?_ <;> rw [hc.pc]
    · intro h
      rw [hprimary]
      exact hs.secondary (hsec h)
    · exact hawaits
  cases hturn with
  | started => exact hplain rfl (fun _ => by rw [hpc]; rfl)
  | colo hpending => exact .guarded hc hu hpending hsound (by simp)
  | broken co line err susp pc _ hturn => exact alert_array hturn hc hu hsound
  | migrationStart | next | fails | interrupted | cancel | cancelled | stopped =>
    exact hplain rfl (by simp [Pc.secondary])

theorem alert_step {label : Label} (hstep : step s label = some t)
    (hkeeps : label = .run → s.KeepsSource) (hs : Alert s) : Alert t := by
  have hsound := loopSound_step hstep hs.sound
  -- a QMP exchange that goes on stays where it was
  have hexec : ∀ {site : ExecSite} {written written' : Bool} {inner inner' : InnerWait},
      s.pc = .exec site written inner → t.pc = .exec site written' inner' →
      t.primary = s.primary → Alert t := by
    intro site written written' inner inner' hpc hpc' hprimary
    refine .plain hsound ?_ ?_ <;> rw [hpc']
    · intro h
      rw [hprimary]
      apply hs.secondary
      rw [hpc]
      cases site <;> exact h
    · rfl
  have hplain : ∀ pc : Pc, t.pc = pc → pc.awaits = false → pc.secondary = false → Alert t := by
    intro pc hpc hawaits hsec
    refine .plain hsound ?_ ?_ <;> rw [hpc]
    · simp [hsec]
    · exact hawaits
  cases change_of_step hstep with
  | callback hrun _ hout => exact alert_callback hs hrun hout hsound
  | dispatch source hrun hd => exact alert_dispatch hs hrun hd hsound
  | start _ hpc ht =>
    subst ht
    by_cases hp : s.primary = true
    · refine hplain (.enter .primaryStartup) ?_ rfl rfl
      simp [colodMainCoStart, Daemon.goto, Daemon.send, Daemon.observe, hp]
    · refine .plain hsound ?_ ?_ <;>
        simp [colodMainCoStart, Daemon.goto, Daemon.send, Daemon.observe, hp, Pc.awaits]
  | enter newState _ hpc ht =>
    subst ht
    exact alert_enter hs hpc (hkeeps rfl) hsound
  | wait site loop _ hpc hwait ht =>
    have hpc' : t.pc = .eventWait site := by rw [ht, hpc]
    refine .plain hsound ?_ ?_ <;> rw [hpc']
    · intro h
      have hprimary : t.primary = s.primary := by rw [ht]
      rw [hprimary]
      exact hs.secondary (by rw [hpc]; exact h)
    · rfl
  | event site event loop susp pc _ hpc hwait hturn hc =>
    exact alert_event hs (hkeeps rfl) hpc hwait hturn hc hsound
  | turn pc pc' obs susp hrun hpc hturn hc => exact alert_turn hs hrun hpc hturn hc hsound
  | suspend site written inner inner' _ hpc ht =>
    exact hexec hpc (by rw [ht]; rfl) (by rw [ht]; rfl)
  | write site inner _ hpc hc => exact hexec hpc hc.pc hc.primary
  | line site inner event _ hpc ht =>
    exact hexec hpc (by rw [ht]; rfl) (by rw [ht]; exact (outside_notifyEvent s event).primary)
  | nestedYank site inner _ hpc ht => exact hexec hpc (by rw [ht, hpc]) (by rw [ht])
  | executed site written inner reply obs susp pc _ hpc _ hturn hc =>
    exact alert_executed hs hpc hturn hc hsound
  | yankSuspend inner inner' _ _ ht => exact hplain (.yank inner') (by rw [ht]; rfl) rfl rfl
  | yanked inner table _ _ _ hc => exact hplain _ hc.pc rfl rfl
  | yankFailed inner reply _ _ _ hc => exact hplain _ hc.pc rfl rfl

theorem alert_init (ctx : ColodContext) : Alert (Daemon.init ctx) :=
  .plain (loopSound_init ctx) (fun h => by cases h) rfl

/-! ### Waits for an event -/

/-- No event is left lying in `colod_event_wait`: while it is suspended with an event pending a
wake source is attached. -/
def Daemon.Attentive (s : Daemon) : Prop :=
  s.running = false → ∀ site, s.pc = .eventWait site → s.loop.kinds ≠ [] →
    s.loop.wakeSources ≠ []

theorem attentive_wait {loop : EventLoop} (hknown : s.loop.WakeKnown)
    (hwait : colodEventWait s.loop = (none, loop)) (hkinds : loop.kinds ≠ []) :
    loop.wakeSources ≠ [] := by
  obtain ⟨hnone, rfl⟩ := colodEventWait_none hwait
  rcases hnone with hnil | hid
  · exact absurd hnil (by simpa [kinds] using hkinds)
  · have hmem : s.loop.forgetCurrent.wakeSourceId ∈ s.loop.forgetCurrent.wakeSources := by
      rcases hknown.forgetCurrent hid with hmem | hcur
      · exact hmem
      · exfalso
        unfold EventLoop.forgetCurrent at hcur hid
        split_ifs at hcur hid with hc
        · exact hid rfl
        · exact hc hcur
    rw [yieldRemove_wakeSources]
    exact List.ne_nil_of_mem hmem

def Pc.isEventWait : Pc → Bool
  | .eventWait _ => true
  | _ => false

theorem attentive_step {label : Label} (hstep : step s label = some t) (hknown : s.loop.WakeKnown)
    (hs : s.Attentive) : t.Attentive := by
  have hcontinues : ∀ {u : Daemon} {obs susp pc}, Continues u t obs susp pc →
      u.running = true → (susp = true → ∀ site, pc ≠ .eventWait site) → t.Attentive := by
    intro u obs susp pc hc hu hpc hrun site ht
    rw [running_continues hc, hu] at hrun
    rw [hc.pc] at ht
    exact absurd ht (hpc (by simpa using hrun) site)
  have helse : ∀ pc : Pc, t.pc = pc → pc.isEventWait = false → t.Attentive := by
    rintro pc rfl hnot _ site ht
    rw [ht] at hnot
    cases hnot
  have hmoving : t.running = true → t.Attentive := by
    intro hrun hidle
    rw [hrun] at hidle
    cases hidle
  cases change_of_step hstep with
  | callback hrun _ hout =>
    obtain ⟨events, hloop, -⟩ := hout.loop
    have hcurrent : s.loop.current = none := by simpa [Daemon.running] using hrun
    intro _ site hpc hkinds
    have ho := hout.pc
    rw [hpc] at ho
    have hpc' := ho.of_eventWait
    have hgrow := length_queueAll s.loop events
    rw [hloop] at hkinds ⊢
    refine List.length_pos_iff.mp ?_
    have hq := wake_queueAll (Q := fun u => u.kinds ≠ []) ?_ events hknown hcurrent hkinds
    · rcases hq with hold | hwake
      · have hpos := List.length_pos_iff.mpr (hs hrun site hpc' hold)
        omega
      · exact hwake
    · intro u event _
      by_cases hempty : u.kinds = []
      · exact .inr (.inl (EventQueue.pending_eq_false.mpr hempty))
      · exact .inl hempty
  | dispatch source _ hd =>
    obtain ⟨-, hcurrent, -⟩ := dispatch_wakeSources hd
    exact hmoving (by simp [Daemon.running, hcurrent])
  | start hrun _ ht => exact hmoving (ht ▸ hrun)
  | enter newState hrun _ ht =>
    subst ht
    have hkeep : (colodMainCo s newState).running = true ∨
        (colodMainCo s newState).pc.isEventWait = false := by
      cases newState with
      | secondaryWait => exact .inr rfl
      | secondaryColoRunning | primaryColoRunning =>
        simp only [colodMainCo]
        split_ifs
        · exact .inr rfl
        · exact .inl hrun
      | quit =>
        simp only [colodMainCo, colodMainCoReturn]
        split_ifs
        · exact .inr rfl
        · exact .inr rfl
      | _ => exact .inl hrun
    rcases hkeep with hr | hpc
    · exact hmoving hr
    · exact helse _ rfl hpc
  | wait site loop _ _ hwait ht =>
    subst ht
    intro _ _ _ hkinds
    exact attentive_wait hknown hwait hkinds
  | event site event loop susp pc hrun _ hwait hturn hc =>
    obtain ⟨a, queue, -, -, -, rfl⟩ := colodEventWait_some hwait
    refine hcontinues hc (by simpa [Daemon.running] using hrun) ?_
    rintro rfl site' rfl
    have hwaits := hturn.isWait
    cases hwaits
  | turn pc pc' obs susp hrun _ hturn hc =>
    refine hcontinues hc hrun ?_
    rintro rfl site' rfl
    have hwaits := hturn.isWait
    cases hwaits
  | suspend site written _ inner' _ _ ht =>
    exact helse (.exec site written inner') (by rw [ht]; rfl) rfl
  | write _ _ _ _ hc => exact helse _ hc.pc rfl
  | line site _ _ _ _ ht => exact helse (.exec site true .idle) (by rw [ht]; rfl) rfl
  | nestedYank site inner _ hpc ht =>
    exact helse (.exec site true inner) (by rw [ht, hpc]) rfl
  | executed site written inner reply obs susp pc hrun _ _ hturn hc =>
    obtain ⟨loop, qmpError, didYank, he, events, hloop, -⟩ := executeCo_eq s reply
    refine hcontinues hc (by simpa [he, hloop, Daemon.running] using hrun) ?_
    rintro rfl site' rfl
    have hwaits := hturn.isWait
    cases hwaits
  | yankSuspend _ inner' _ _ ht => exact helse (.yank inner') (by rw [ht]; rfl) rfl
  | yanked _ _ _ _ _ hc => exact helse _ hc.pc rfl
  | yankFailed _ _ _ _ _ hc => exact helse _ hc.pc rfl

theorem attentive_of_run {ctx : ColodContext} {labels : List Label}
    (hrun : run step (Daemon.init ctx) labels = some s) : s.Attentive := by
  have hinv : LoopSound s ∧ s.Attentive := by
    refine run_invariant (P := fun u => LoopSound u ∧ u.Attentive) ?_ hrun ⟨loopSound_init ctx, ?_⟩
    · rintro u label v hstep ⟨hsound, hu⟩
      exact ⟨loopSound_step hstep hsound, attentive_step hstep hsound.known hu⟩
    · intro _ site hpc
      cases hpc
  exact hinv.2

/-! ### The condition is needed -/

/-- Without another source the remembered wake source is the one being dispatched. -/
theorem forgetCurrent_of_not_attached (hknown : s.loop.WakeKnown) (h : ¬ s.Attached) :
    s.loop.forgetCurrent.wakeSourceId = 0 := by
  have hnil : s.loop.wakeSources = [] := by
    by_contra hne
    exact h (.inl hne)
  unfold EventLoop.forgetCurrent
  split_ifs with hcur
  · rfl
  · by_contra hne
    rcases hknown hne with hmem | hc
    · rw [hnil] at hmem
      cases hmem
    · exact hcur hc

theorem not_wakeful_of_not_keepsSource (hfirst : t.loop.queue.InterruptFirst)
    (hknown : s.loop.WakeKnown) (hstep : step s .run = some t) (h : ¬ s.KeepsSource) :
    ¬ t.Wakeful := by
  -- the step begins the wait and attaches nothing
  have hbegin : t.running = false → t.pc = .qmpWait .secondaryWait false →
      t.loop.InterruptPending → t.sources = s.sources → ¬ s.Attached → ¬ t.Wakeful := by
    intro hrun hpc hpending hsources hnot hw
    have ha := attached_iff.mp (hw hrun ⟨_, _, hpc⟩ ((pendingInterrupt_iff hfirst).mpr hpending))
    rw [hsources] at ha
    exact hnot (attached_iff.mpr ha)
  unfold Daemon.KeepsSource at h
  cases change_of_step hstep with
  | callback _ hc => cases hc
  | start _ hpc => simp [hpc] at h
  | turn pc pc' obs susp _ hpc hturn =>
    cases hturn <;> simp [hpc] at h
  | enter newState _ hpc ht =>
    cases newState with
    | secondaryWait =>
      simp only [hpc, Classical.not_imp] at h
      obtain ⟨hpending, hnot⟩ := h
      refine hbegin (by simp [ht, colodMainCo, Daemon.running, Daemon.qmpWait, Daemon.suspendAt])
        (by simp [ht, colodMainCo, Daemon.qmpWait, Daemon.suspendAt]) ?_ ?_ hnot
      · rw [ht]
        exact interruptPending_yieldRemove.mpr hpending
      · simp [ht, Daemon.sources, colodMainCo, Daemon.qmpWait, Daemon.suspendAt,
          Daemon.setInterrupting, Daemon.observe, EventLoop.setInterrupting]
    | _ => simp [hpc] at h
  | wait site loop _ hpc hwait ht =>
    cases site with
    | secondaryWait =>
      simp only [hpc, not_forall] at h
      obtain ⟨first, rest, hkinds, -, -, hnot⟩ := h
      obtain ⟨hnone, -⟩ := colodEventWait_none hwait
      rcases hnone with hnil | hid
      · rw [hnil] at hkinds
        cases hkinds
      · exact absurd (forgetCurrent_of_not_attached hknown hnot) hid
    | _ => simp [hpc] at h
  | event site event loop susp pc _ hpc hwait hturn hc =>
    cases site with
    | secondaryWait =>
      simp only [hpc, not_forall] at h
      obtain ⟨first, rest, hkinds, hai, ⟨e, hmem, hint⟩, hnot⟩ := h
      obtain ⟨a, queue, hremove, rfl, -, rfl⟩ := colodEventWait_some hwait
      obtain ⟨hseq, hq⟩ := EventQueue.remove_eq_some.mp hremove
      have hcons : a.event :: queue.kinds = first :: rest := by
        rw [← hkinds]
        simp [kinds, EventQueue.kinds, hseq]
      obtain ⟨rfl, rfl⟩ := List.cons.inj hcons
      have hinterrupting : queue.interrupting = s.loop.queue.interrupting := by rw [hq]
      generalize a.event = event at hturn hai
      cases hturn with
      | handled _ _ newState _ hevent =>
        have hsome := handle_isSome event
        rw [hevent, hai] at hsome
        cases hsome
      | secondaryWait =>
        refine hbegin (by simp [Daemon.running, hc.loop]) hc.pc ?_ ?_ hnot
        · rw [hc.loop, if_pos rfl, interruptPending_yieldRemove]
          exact ⟨e, hmem, by rw [hinterrupting]; exact hint⟩
        · rw [sources_continues hc]
          simp [Daemon.sources]
      | quit _ hsite => simp at hsite
      | ignored _ _ hsite => exact absurd rfl hsite.1
    | _ => simp [hpc] at h

/-- Along every run no wake-up is lost in any state if and only if every step that begins the wait
of `STATE_SECONDARY_WAIT` leaves no interrupting event pending or finds a source attached. -/
theorem wakeful_iff_keepsSource (ctx : ColodContext) (labels : List Label) (s : Daemon)
    (hrun : run step (Daemon.init ctx) labels = some s) :
    (∀ n t, run step (Daemon.init ctx) (labels.take n) = some t → t.Wakeful) ↔
      Along step (fun u label => label = .run → u.KeepsSource) (Daemon.init ctx) labels := by
  constructor
  · intro hwakeful
    apply along_iff.mpr
    rintro n u label hu hl rfl
    obtain ⟨v, hstep, hv⟩ := run_take_succ hrun hu hl
    by_contra hnot
    exact not_wakeful_of_not_keepsSource (loopSound_of_run hv).first (loopSound_of_run hu).known
      hstep hnot (hwakeful (n + 1) v hv)
  · intro halong n t ht
    rw [← List.take_append_drop n labels] at halong
    have hprefix := ((along_append ht).mp halong).1
    have halert : Alert t := run_invariant_along (P := Alert)
      (fun _ _ _ hstep hkeeps hu => alert_step hstep hkeeps hu) ht hprefix (alert_init ctx)
    exact halert.wakeful

theorem wakeful_iff_keepsSource_secondaryWait :
    (∃ s, run step (Daemon.init Schedule.context) Schedule.secondaryWait = some s) ∧
    ((∀ n t, run step (Daemon.init Schedule.context) (Schedule.secondaryWait.take n) = some t →
        t.Wakeful) ↔
      Along step (fun u label => label = .run → u.KeepsSource) (Daemon.init Schedule.context)
        Schedule.secondaryWait) := by
  have hsome : (run step (Daemon.init Schedule.context) Schedule.secondaryWait).isSome = true := by
    decide
  obtain ⟨s, hrun⟩ := Option.isSome_iff_exists.mp hsome
  exact ⟨⟨s, hrun⟩, wakeful_iff_keepsSource _ _ s hrun⟩

/-- The peer leaves the group while the secondary still starts up. -/
def startupSchedule : List Label :=
  [.dispatch .start, .run, .run, .io (.suspend .channel), .cpgLeft, .dispatch (.wake 1)] ++
    Schedule.exchange ++ [.run]

theorem wakeup_lost_in_secondaryWait :
    ¬ ∀ (ctx : ColodContext) (labels : List Label) (s : Daemon),
      run step (Daemon.init ctx) labels = some s → s.Wakeful := by
  intro hclaim
  have hstuck : (run step (Daemon.init Schedule.context) startupSchedule).map (fun s =>
      (s.running, s.pc, s.pendingInterrupt, s.loop.wakeSources, s.resumeSources)) =
        some (false, .qmpWait .secondaryWait false, true, [], 0) := by decide
  obtain ⟨s, hrun, hs⟩ := Option.map_eq_some_iff.mp hstuck
  simp only [Prod.mk.injEq] at hs
  obtain ⟨hidle, hpc, hpending, hwake, hresume⟩ := hs
  rcases hclaim _ _ s hrun hidle ⟨_, _, hpc⟩ hpending with h | h
  · exact h hwake
  · exact h hresume

end ColoDaemon
