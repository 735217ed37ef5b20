import ColoDaemon.EventLoss
import ColoDaemon.Wakeup

/-!
# The failover arbitration of one node

In `STATE_FAILOVER_SYNC` the peer's message interrupts and the node's own one does not, so a
pending `EVENT_PEER_FAILOVER` is taken off the queue before an `EVENT_FAILOVER_WIN` that was
queued earlier. The outcome follows the total order exactly when the peer's message does not reach
the queue between the own one and the resumption that decides.
-/

namespace ColoDaemon
open Runs EventLoop
variable {s t : Daemon}

/-- The peer's failover message is delivered and finds room in the queue. -/
def PeerAccepted (s : Daemon) (label : Label) : Prop :=
  label = .cpgDeliver .failover false ∧ s.freed = false ∧ s.loop.queue.used < 32

/-- `EVENT_PEER_FAILOVER` is pending at the start or gets queued on the way. -/
def PeerQueued (s : Daemon) (labels : List Label) : Prop :=
  .peerFailover ∈ s.loop.kinds ∨ Sometime step PeerAccepted s labels

/-- None of the other events that end the arbitration is raised. -/
def Daemon.Undisturbed (s : Daemon) : Prop :=
  ∀ e ∈ s.loop.kinds, e ≠ .failed ∧ e ≠ .quit ∧ e ≠ .autoquit

instance (s : Daemon) : Decidable s.Undisturbed :=
  inferInstanceAs (Decidable (∀ e ∈ s.loop.kinds, e ≠ .failed ∧ e ≠ .quit ∧ e ≠ .autoquit))

/-- A stay in `STATE_FAILOVER_SYNC` from some point of the wait to its end in `newState`. -/
structure Stay (s : Daemon) (labels : List Label) (t : Daemon) (newState : MainState) : Prop where
  begins : s.pc = .eventWait .failoverSync
  run : run step s labels = some t
  stays : Along step (fun u _ => u.pc = .eventWait .failoverSync ∧ u.Undisturbed) s labels
  ends : t.pc = .enter newState

theorem peer_callback {label : Label} (hb : s.loop.Bounded) (h : s.callback label = some t)
    (hout : Outside s t label.raises) :
    .peerFailover ∈ t.loop.kinds ↔ .peerFailover ∈ s.loop.kinds ∨ PeerAccepted s label := by
  by_cases hl : label = .cpgDeliver .failover false
  · subst hl
    have ht : t.loop = if s.freed then s.loop else colodEventQueue s.loop .peerFailover := by
      simp only [Daemon.callback, Option.some.injEq] at h
      subst h
      cases hf : s.freed <;> simp [colodCpgEventCb, Daemon.queueEvent]
    rw [ht]
    cases hf : s.freed with
    | true => simp [PeerAccepted, hf]
    | false =>
      simp only [Bool.false_eq_true, if_false, PeerAccepted, hf, true_and]
      exact mem_colodEventQueue_iff hb
  · obtain ⟨events, hloop, hevents⟩ := hout.loop
    have hraise : ColodEvent.peerFailover ∉ label.raises := by
      cases label with
      | cpgDeliver message own =>
        cases message with
        | failover => cases own <;> simp_all [Label.raises]
        | _ => simp [Label.raises]
      | _ => simp [Label.raises]
    rw [hloop]
    constructor
    · intro hmem
      rcases mem_kinds_of_queueAll hmem with hin | hin
      · exact absurd (hevents _ hin) hraise
      · exact .inl hin
    · rintro (hmem | ⟨hlabel, -⟩)
      · exact mem_kinds_queueAll hmem
      · exact absurd hlabel hl

/-- A step of the wait keeps waiting, or decides for the peer exactly if its event is pending. -/
theorem stay_step {label : Label} (hstep : step s label = some t) (hsound : LoopSound s)
    (hb : s.loop.Bounded) (hpc : s.pc = .eventWait .failoverSync) (hs : s.Undisturbed) :
    (t.pc = .eventWait .failoverSync ∧
      (.peerFailover ∈ t.loop.kinds ↔ .peerFailover ∈ s.loop.kinds ∨ PeerAccepted s label)) ∨
    (t.pc = .enter .failover ∧ .peerFailover ∉ s.loop.kinds ∧ label = .run) ∨
    (t.pc = .enter .failedPeerFailover ∧ .peerFailover ∈ s.loop.kinds ∧ label = .run) := by
  have hnot : ∀ {l : Label}, (∀ m own, l ≠ .cpgDeliver m own) → ¬ PeerAccepted s l :=
    fun h hp => h _ _ hp.1
  cases change_of_step hstep with
  | callback _ hc hout =>
    have hpc' := (hpc ▸ hout.pc).eventWait
    exact .inl ⟨hpc', peer_callback hb hc hout⟩
  | dispatch source _ hd =>
    obtain ⟨wakeSources, resumeSources, rfl⟩ := dispatch_eq hd
    exact .inl ⟨hpc, by simp [hnot, kinds]⟩
  | wait site loop _ _ hwait ht =>
    obtain ⟨-, rfl⟩ := colodEventWait_none hwait
    subst ht
    exact .inl ⟨hpc, by simp [hnot, kinds]⟩
  | event site event loop susp pc _ hpc' hwait hturn hc =>
    obtain ⟨a, queue, hremove, rfl, -, rfl⟩ := colodEventWait_some hwait
    have hsite : site = .failoverSync := by
      rw [hpc] at hpc'
      cases hpc'
      rfl
    subst hsite
    have hmem : ∀ {e}, e ∈ s.loop.kinds ↔ e = a.event ∨ e ∈ queue.kinds :=
      EventQueue.mem_kinds_remove hremove
    have hnow := hs a.event (hmem.mpr (.inl rfl))
    have htable := hsound.tabled.table _ (by rw [hpc]; rfl)
    -- a pending message of the peer is not overtaken by an event that does not interrupt
    have hfirst : ColodEvent.peerFailover ∈ s.loop.kinds → a.event ≠ .failoverWin := by
      intro hpeer hwin
      have hint := hsound.first.remove_interrupting hremove hpeer
        (htable.interrupting_iff.mpr (.inl rfl))
      rw [hwin, htable.interrupting_iff] at hint
      simp [eventAlwaysInterrupting] at hint
    generalize ha : a.event = event at hturn hnow hfirst hmem
    cases hturn with
    | handled _ _ newState _ hevent =>
      cases event <;> cases hevent <;> simp_all [hc.pc]
    | win =>
      refine .inr (.inl ⟨hc.pc, ?_, rfl⟩)
      intro hpeer
      exact hfirst hpeer rfl
    | quit _ hsite => simp at hsite
    | ignored _ _ _ hhandled =>
      refine .inl ⟨hc.pc, ?_⟩
      have hne : event ≠ .peerFailover := by
        rintro rfl
        have himpossible := hhandled rfl
        cases himpossible
      have hq : t.loop.kinds = queue.kinds := by simp [kinds, hc.queue]
      rw [hq, hmem]
      simp [hnot, hne.symm]
  | start _ hpc' | enter _ _ hpc' | suspend _ _ _ _ _ hpc' | write _ _ _ hpc'
  | line _ _ _ _ hpc' | nestedYank _ _ _ hpc' | executed _ _ _ _ _ _ _ _ hpc'
  | yankSuspend _ _ _ hpc' | yanked _ _ _ hpc' | yankFailed _ _ _ hpc' =>
    rw [hpc] at hpc'
    cases hpc'
  | turn pc pc' obs susp _ hpc' hturn =>
    rw [hpc] at hpc'
    subst hpc'
    cases hturn

/-! ### The whole stay -/

/-- The node loses exactly if the peer's event is pending or gets queued before it decides. -/
theorem stay_outcome {labels : List Label} {newState : MainState} (hsound : LoopSound s)
    (hb : s.loop.Bounded) (h : Stay s labels t newState) :
    (newState = .failover ∧ ¬ PeerQueued s labels) ∨
      (newState = .failedPeerFailover ∧ PeerQueued s labels) := by
  induction labels generalizing s with
  | nil =>
    have hrun := h.run
    cases hrun
    have hpc := h.begins.symm.trans h.ends
    cases hpc
  | cons label labels ih =>
    obtain ⟨u, hstep, hrun⟩ := run_cons_eq_some.mp h.run
    obtain ⟨⟨hpc, hs⟩, hrest⟩ := h.stays
    have hrest := hrest u hstep
    have hbu : u.loop.Bounded := bounded_invariant.step hstep
      fun _ => queueAll_preserves (P := Bounded) (fun _ _ => Bounded.colodEventQueue) hb
    -- after the decision the wait is over
    have hover : ∀ {st}, u.pc = .enter st → label = .run → labels = [] ∧ u = t ∧ newState = st ∧
        (PeerQueued s (label :: labels) ↔ .peerFailover ∈ s.loop.kinds) := by
      intro st hu hl
      cases labels with
      | nil =>
        cases hrun
        have hends := h.ends
        rw [hu] at hends
        cases hends
        refine ⟨rfl, rfl, rfl, ?_⟩
        subst hl
        simp [PeerQueued, Sometime, PeerAccepted]
      | cons l ls =>
        have hpc' := hrest.1.1
        rw [hu] at hpc'
        cases hpc'
    rcases stay_step hstep hsound hb hpc hs with ⟨hpc', hpeer⟩ | ⟨hu, hpeer, hl⟩ | ⟨hu, hpeer, hl⟩
    · have hq : PeerQueued s (label :: labels) ↔ PeerQueued u labels := by
        simp only [PeerQueued, Sometime, hpeer, hstep, Option.some.injEq, exists_eq_left', or_assoc]
      rw [hq]
      exact ih (loopSound_step hstep hsound) hbu ⟨hpc', hrun, hrest, h.ends⟩
    · obtain ⟨-, -, hnew, hq⟩ := hover hu hl
      exact .inl ⟨hnew, hq.not.mpr hpeer⟩
    · obtain ⟨-, -, hnew, hq⟩ := hover hu hl
      exact .inr ⟨hnew, hq.mpr hpeer⟩

theorem run_enabled (hpc : s.pc = .eventWait .failoverSync) (hrun : s.running = true)
    (hyellow : s.yellowCo.aborted = false) : ∃ t, step s .run = some t := by
  have hstep : step s .run = mainRun s := by
    unfold step
    simp [hpc, hrun, hyellow]
  rw [hstep]
  unfold mainRun
  rw [hpc]
  cases hw : colodEventWait s.loop with
  | mk event loop => cases event <;> simp

theorem wake_enabled {id : ℕ} (hpc : s.pc = .eventWait .failoverSync) (hrun : s.running = false)
    (hyellow : s.yellowCo.aborted = false) (hid : id ∈ s.loop.wakeSources) :
    ∃ t, step s (.dispatch (.wake id)) = some t ∧ t.pc = s.pc ∧ t.yellowCo = s.yellowCo ∧
      t.running = true ∧ t.loop.queue = s.loop.queue ∧
      t.loop.wakeSources.length + 1 = s.loop.wakeSources.length := by
  have hstep : step s (.dispatch (.wake id)) = s.dispatch (.wake id) := by
    unfold step
    simp [hpc, hrun, hyellow]
  have hlen := List.length_erase_of_mem hid
  have hpos := List.length_pos_of_mem hid
  rw [hstep]
  simp only [Daemon.dispatch, if_pos hid]
  refine ⟨_, rfl, rfl, rfl, rfl, rfl, ?_⟩
  simp only [Daemon.resumeWith, hlen]
  omega

/-- A step of the wait that dispatches its wake sources; of the events at most those of `pending`
are left. -/
def Waking (pending : List ColodEvent) (s : Daemon) (label : Label) : Prop :=
  s.pc = .eventWait .failoverSync ∧ (∀ e ∈ s.loop.kinds, e ∈ pending) ∧
    (label = .run ∨ ∃ id, label = .dispatch (.wake id))

/-- Once a deciding event is pending, dispatching the attached wake sources ends the wait. -/
theorem stay_progress {n : ℕ} (pending : List ColodEvent) (hsound : LoopSound s)
    (hattentive : s.Attentive) (hpc : s.pc = .eventWait .failoverSync)
    (hyellow : s.yellowCo.aborted = false) (hpending : ∀ e ∈ s.loop.kinds, e ∈ pending)
    (hdecide : .failoverWin ∈ s.loop.kinds ∨ .peerFailover ∈ s.loop.kinds)
    (hn : 2 * s.loop.wakeSources.length + (if s.running then 1 else 0) + s.loop.queue.used ≤ n) :
    ∃ labels t, run step s labels = some t ∧ (∃ newState, t.pc = .enter newState) ∧
      Along step (Waking pending) s labels := by
  induction n generalizing s with
  | zero =>
    have hused : s.loop.queue.used = 0 := by omega
    have hnil : s.loop.kinds = [] := by
      simpa [kinds, EventQueue.kinds, EventQueue.used] using hused
    rw [hnil] at hdecide
    rcases hdecide with h | h <;> cases h
  | succ n ih =>
    have hwaking : ∀ {label}, label = .run ∨ (∃ id, label = .dispatch (.wake id)) →
        Waking pending s label := fun h => ⟨hpc, hpending, h⟩
    by_cases hrun : s.running = true
    · obtain ⟨t, hstep⟩ := run_enabled hpc hrun hyellow
      refine exists_run_cons hstep (hwaking (.inl rfl)) ?_
      have hsoundt := loopSound_step hstep hsound
      have hattentivet := attentive_step hstep hsound.known hattentive
      rw [if_pos hrun] at hn
      cases change_of_step hstep with
      | wait site loop _ _ hwait ht =>
        obtain ⟨-, rfl⟩ := colodEventWait_none hwait
        subst ht
        refine ih hsoundt hattentivet hpc hyellow (by simpa [kinds] using hpending)
          (by simpa [kinds] using hdecide) ?_
        simp only [yieldRemove_wakeSources, forgetCurrent_wakeSources, yieldRemove_queue,
          forgetCurrent_queue, Daemon.running, yieldRemove_current]
        simp only [Option.isSome_none, Bool.false_eq_true, if_false]
        omega
      | event site event loop susp pc _ hpc' hwait hturn hc =>
        obtain ⟨a, queue, hremove, rfl, -, rfl⟩ := colodEventWait_some hwait
        have hsite : site = .failoverSync := by
          rw [hpc] at hpc'
          cases hpc'
          rfl
        subst hsite
        have hused := used_remove hremove
        have hmem : ∀ {e}, e ∈ s.loop.kinds ↔ e = a.event ∨ e ∈ queue.kinds :=
          EventQueue.mem_kinds_remove hremove
        have hq : t.loop.kinds = queue.kinds := by simp [kinds, hc.queue]
        generalize a.event = event at hturn hmem
        have hdone : ∀ newState, t.pc = .enter newState →
            ∃ labels u, run step t labels = some u ∧ (∃ newState, u.pc = .enter newState) ∧
              Along step (Waking pending) t labels :=
          fun newState ht => ⟨[], t, rfl, ⟨newState, ht⟩, trivial⟩
        cases hturn with
        | handled _ _ newState => exact hdone _ hc.pc
        | win => exact hdone _ hc.pc
        | quit _ hsite => simp at hsite
        | ignored _ _ _ hhandled hsync =>
          have hwin : event ≠ .failoverWin := hsync rfl
          have hpeer : event ≠ .peerFailover := by
            rintro rfl
            have himpossible := hhandled rfl
            cases himpossible
          refine ih hsoundt hattentivet hc.pc (by rw [hc.yellowCo, hyellow]) ?_ ?_ ?_
          · intro e he
            rw [hq] at he
            exact hpending e (hmem.mpr (.inr he))
          · rw [hq]
            simpa [hmem, hwin.symm, hpeer.symm] using hdecide
          · have hr : t.running = true := by
              rw [running_continues hc]
              simpa [Daemon.running] using hrun
            have hw : t.loop.wakeSources = s.loop.wakeSources := by simp [hc.loop]
            rw [hr, if_pos rfl, hw, hc.queue]
            simp only
            omega
      | callback hr _ _ => simp [hrun] at hr
      | start _ hpc' | enter _ _ hpc' =>
        rw [hpc] at hpc'
        cases hpc'
      | turn pc pc' obs susp _ hpc' hturn =>
        rw [hpc] at hpc'
        subst hpc'
        cases hturn
    · have hidle : s.running = false := by simpa using hrun
      have hkinds : s.loop.kinds ≠ [] := by
        rcases hdecide with h | h <;> exact List.ne_nil_of_mem h
      obtain ⟨id, hid⟩ := List.exists_mem_of_ne_nil _ (hattentive hidle _ hpc hkinds)
      obtain ⟨t, hstep, hpc', hy, hr, hq, hlen⟩ := wake_enabled hpc hidle hyellow hid
      have hkindst : t.loop.kinds = s.loop.kinds := by simp [kinds, hq]
      refine exists_run_cons hstep (hwaking (.inr ⟨id, rfl⟩)) (ih (loopSound_step hstep hsound)
        (attentive_step hstep hsound.known hattentive) (hpc'.trans hpc) (by rw [hy, hyellow])
        (hkindst ▸ hpending) (hkindst ▸ hdecide) ?_)
      rw [if_neg hrun] at hn
      rw [hr, if_pos rfl, hq]
      omega

end ColoDaemon
