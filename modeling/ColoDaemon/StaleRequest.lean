import ColoDaemon.ControlFlow

/-!
# Which stay a migration request belongs to

`colod_start_migration` checks the state when the request arrives, not when its event is taken off
the queue. `Requests` follows one daemon and numbers the stays in `STATE_PRIMARY_WAIT`; for the
sequence number of every queued request it keeps the stay in which the request was accepted. A
request that is still pending when its migration ends in a failover is dropped only if the wait of
`STATE_FAILOVER_SYNC` takes it off the queue before the win.
-/

namespace ColoDaemon
open Runs EventLoop
variable {s t : Daemon}

/-! ### Where a queued event comes from -/

theorem mem_sequence_colodEventQueue {l : EventLoop} {event : ColodEvent} {a : Event}
    (ha : a ∈ (colodEventQueue l event).queue.sequence) :
    a ∈ l.queue.sequence ∨ a = ⟨event, l.queue.seqCounter⟩ ∧
      (colodEventQueue l event).queue.seqCounter ≠ l.queue.seqCounter := by
  rcases colodEventQueue_cases l event with ⟨he, -⟩ | ⟨queue, he, hadd⟩ | ⟨he, -⟩
  · exact .inl (by simpa [he] using ha)
  · rw [he] at ha ⊢
    unfold eventqueueAdd at hadd
    split_ifs at hadd
    cases hadd
    rcases List.mem_cons.mp ((perm_gSequenceInsertSorted _ _ _).mem_iff.mp ha) with rfl | hold
    · exact .inr ⟨rfl, by simp⟩
    · exact .inl hold
  · exact .inl (by simpa [he] using ha)

theorem mem_sequence_queueAll {l : EventLoop} {events : List ColodEvent} {a : Event}
    (ha : a ∈ (l.queueAll events).queue.sequence) : a ∈ l.queue.sequence ∨ a.event ∈ events := by
  induction events generalizing l with
  | nil => exact .inl ha
  | cons event events ih =>
    rcases ih ha with h | h
    · rcases mem_sequence_colodEventQueue h with h | ⟨rfl, -⟩
      · exact .inl h
      · exact .inr List.mem_cons_self
    · exact .inr (List.mem_cons_of_mem event h)

/-- The main coroutine itself adds no event. -/
theorem mem_sequence_invariant (a : Event) (Q : Prop) :
    MainInvariant fun l => a ∈ l.queue.sequence → Q :=
  .of_queue (P := fun q => a ∈ q.sequence → Q)
    (fun _ _ h ha => h ((perm_gSequenceSort _ _).mem_iff.mp ha))
    (fun _ _ _ hremove h ha =>
      h ((EventQueue.remove_eq_some.mp hremove).1 ▸ List.mem_cons_of_mem _ ha))

theorem mem_sequence_step {label : Label} {a : Event} (hstep : step s label = some t)
    (ha : a ∈ t.loop.queue.sequence) : a ∈ s.loop.queue.sequence ∨ a.event ∈ label.queued := by
  have hinv := mem_sequence_invariant a (a ∈ s.loop.queue.sequence ∨ a.event ∈ label.queued)
  apply hinv.step_queued hstep _ ha
  intro events hevents hmem
  exact (mem_sequence_queueAll hmem).imp_right (hevents _)

def Label.requestsMigration : Label → Bool
  | .clientRequest _ .startMigration => true
  | _ => false

/-- A request for a migration is queued only while the daemon is in `STATE_PRIMARY_WAIT`. -/
theorem request_step {label : Label} {a : Event} (hstep : step s label = some t)
    (hevent : a.event = .startMigration) (ha : a ∈ t.loop.queue.sequence) :
    a ∈ s.loop.queue.sequence ∨
      label.requestsMigration = true ∧ s.state = .primaryWait ∧ a.seqno = s.loop.queue.seqCounter ∧
        t.loop.queue.seqCounter ≠ s.loop.queue.seqCounter := by
  rcases mem_sequence_step hstep ha with hold | hqueued
  · exact .inl hold
  rw [hevent] at hqueued
  cases label with
  | clientRequest i request =>
    rcases step_cases hstep with ⟨-, hc⟩ | ⟨_, hl, -⟩ | ⟨hl, -, -⟩ | ⟨_, hl, -⟩
    · simp only [Daemon.callback] at hc
      split at hc
      · split_ifs at hc
        cases hc
        cases request with
        | startMigration =>
          simp only [clientRequest, colodStartMigration] at ha ⊢
          split_ifs at ha ⊢ with hstate
          · exact .inl ha
          · refine (mem_sequence_colodEventQueue ha).imp_right ?_
            rintro ⟨rfl, hcounter⟩
            exact ⟨rfl, by simpa using hstate, rfl, hcounter⟩
        | autoquit =>
          refine .inl ((mem_sequence_colodEventQueue ha).resolve_right ?_)
          rintro ⟨rfl, -⟩
          cases hevent
        | _ => exact .inl ha
      · cases hc
    · cases hl
    · cases hl
    · cases hl
  | cpgDeliver message own =>
    cases message <;> cases own <;> simp [Label.queued, Label.raises] at hqueued
  | io x => cases x <;> simp [Label.queued, Label.raises] at hqueued
  | _ => simp [Label.queued, Label.raises] at hqueued

/-! ### From the win to the next stay -/

/-- The program points before a stay in `STATE_PRIMARY_WAIT`: the start and a failover. -/
def Point.promoting : Point → Bool
  | .start | .enter .primaryStartup | .enter .failover | .enter .primaryWait | .yank => true
  | .array table => !table.migrates
  | _ => false

theorem promoting_next {p q : Point} {popped : Option ColodEvent} (hq : q ∈ p.next popped)
    (hpromoting : q.promoting = true) :
    p.promoting = true ∨ p = .eventWait .failoverSync ∧ popped = some .failoverWin := by
  have hchecks : Point.checks (fun p popped q => !q.promoting || p.promoting ||
      (p = .eventWait .failoverSync && popped = some .failoverWin)) = true := rfl
  have hp := Point.of_checks hchecks hq
  simpa [hpromoting] using hp

theorem primaryWait_next {p : Point} {popped : Option ColodEvent}
    (hq : .eventWait .primaryWait ∈ p.next popped) :
    p = .eventWait .primaryWait ∨ p = .enter .primaryWait := by
  have hchecks : Point.checks (fun p _ q => !(q = .eventWait .primaryWait) ||
      p = .eventWait .primaryWait || p = .enter .primaryWait) = true := rfl
  have hp := Point.of_checks hchecks hq
  simpa using hp

theorem not_primaryWait_of_promoting {p : Point} {state : MainState}
    (hp : p.promoting = true) (hhome : p.home state = true) : state ≠ .primaryWait := by
  rintro rfl
  have hall : Point.all.all (fun p => !p.promoting || !p.home .primaryWait) = true := rfl
  have hnot := List.all_eq_true.mp hall p p.mem_all
  simp [hp, hhome] at hnot

/-! ### The migrations of a run -/

/-- A transition from `STATE_PRIMARY_WAIT` to `STATE_PRIMARY_START_MIGRATION`: the number of the
stay that it ends, and the stay in which the request was accepted that it takes off the queue. -/
structure Migration where
  stay : ℕ
  request : Option ℕ

/-- One daemon with the number of stays in `STATE_PRIMARY_WAIT` it has begun. `accepted` is the
stay in which the request was accepted that queued the event with a given sequence number, 0 if
there is none, and `migrations` are the migrations started so far. -/
structure Requests where
  daemon : Daemon
  stay : ℕ
  accepted : UInt64 → ℕ
  migrations : List Migration

namespace Requests
variable {r r' : Requests}

def init (ctx : ColodContext) : Requests := ⟨.init ctx, 0, fun _ => 0, []⟩

def queue (this : Requests) : EventQueue := this.daemon.loop.queue

/-- The stay in which the request at the head of the queue was accepted. -/
def consumed (this : Requests) : Option ℕ :=
  match eventqueuePeek this.queue with
  | some ⟨.startMigration, seqno⟩ => some (this.accepted seqno)
  | _ => none

def step (this : Requests) (label : Label) : Option Requests :=
  (ColoDaemon.step this.daemon label).map fun daemon =>
    { daemon
      stay := if this.daemon.pc = .enter .primaryWait ∧ label = .run then this.stay + 1 else this.stay
      accepted :=
        if label.requestsMigration ∧ daemon.loop.queue.seqCounter ≠ this.queue.seqCounter then
          Function.update this.accepted this.queue.seqCounter this.stay
        else this.accepted
      migrations :=
        if this.daemon.pc = .eventWait .primaryWait ∧ daemon.pc = .enter .primaryStartMigration then
          this.migrations ++ [⟨this.stay, this.consumed⟩]
        else this.migrations }

/-- The property: every migration was started by a request of the stay that it ended. -/
def Current (this : Requests) : Prop := ∀ m ∈ this.migrations, m.request = some m.stay

/-- The condition on a step: no request is pending when a win is taken off the queue in
`STATE_FAILOVER_SYNC`. -/
def Drained (this : Requests) (label : Label) : Prop :=
  this.daemon.pc = .eventWait .failoverSync → this.daemon.pops label = some .failoverWin →
    .startMigration ∉ this.daemon.loop.kinds

instance (this : Requests) (label : Label) : Decidable (this.Drained label) :=
  inferInstanceAs (Decidable (_ → _ → _))

structure Sure (this : Requests) : Prop where
  current : this.Current
  home : this.daemon.point.home this.daemon.state = true
  drained : this.daemon.point.promoting = true →
    ∀ a ∈ this.queue.sequence, a.event ≠ .startMigration
  accepted : this.daemon.pc = .eventWait .primaryWait →
    ∀ a ∈ this.queue.sequence, a.event = .startMigration → this.accepted a.seqno = this.stay

theorem drained_step {label : Label} (hstep : ColoDaemon.step r.daemon label = some t)
    (hr : r.Sure) (hl : r.Drained label) (hpromoting : t.point.promoting = true) :
    ∀ a ∈ t.loop.queue.sequence, a.event ≠ .startMigration := by
  intro a ha hevent
  have hsame : r.daemon.point.promoting = true → False := by
    intro hbefore
    rcases request_step hstep hevent ha with hold | ⟨-, hstate, -⟩
    · exact hr.drained hbefore a hold hevent
    · exact not_primaryWait_of_promoting hbefore hr.home hstate
  rcases point_step hstep with ⟨hpoint, -⟩ | ⟨-, hnext, -⟩
  · rw [hpoint] at hpromoting
    exact hsame hpromoting
  · rcases promoting_next hnext hpromoting with hbefore | ⟨hpoint, hpops⟩
    · exact hsame hbefore
    · have hpending := hl (point_eq_eventWait.mp hpoint) hpops
      rcases request_step hstep hevent ha with hold | ⟨hrequest, -⟩
      · apply hpending
        rw [← hevent]
        exact List.mem_map_of_mem hold
      · rw [(pops_eq_some hpops).1] at hrequest
        cases hrequest

theorem consumed_eq {label : Label} (hpc : r.daemon.pc = .eventWait .primaryWait)
    (hpops : r.daemon.pops label = some .startMigration) (hr : r.Sure) :
    r.consumed = some r.stay := by
  obtain ⟨-, -, ⟨event, seqno⟩, queue, hremove, rfl⟩ := pops_eq_some hpops
  obtain ⟨hsequence, -⟩ := EventQueue.remove_eq_some.mp hremove
  have hmem : ⟨.startMigration, seqno⟩ ∈ r.queue.sequence := by
    simp [Requests.queue, hsequence]
  have haccepted := hr.accepted hpc _ hmem rfl
  simp [consumed, eventqueuePeek, Requests.queue, hsequence, haccepted]

theorem migrate_next {popped : Option ColodEvent}
    (hq : .enter .primaryStartMigration ∈ (Point.eventWait .primaryWait).next popped) :
    popped = some .startMigration := by
  have hchecks : Point.checks (fun p popped q => !(q = .enter .primaryStartMigration) ||
      !(p = .eventWait .primaryWait) || popped = some .startMigration) = true := rfl
  have hp := Point.of_checks hchecks hq
  simpa using hp

theorem sure_step {label : Label} (hstep : step r label = some r') (hr : r.Sure)
    (hl : r.Drained label) : r'.Sure := by
  obtain ⟨t, hd, rfl⟩ := Option.map_eq_some_iff.mp hstep
  refine ⟨?_, home_step hd hr.home, drained_step hd hr hl, ?_⟩
  · intro m hm
    simp only at hm
    split_ifs at hm with hmigrates
    · obtain ⟨hpc, hpc'⟩ := hmigrates
      rcases List.mem_append.mp hm with hold | hnew
      · exact hr.current m hold
      · rw [List.mem_singleton.mp hnew]
        rcases point_step hd with ⟨hpoint, -⟩ | ⟨-, hnext, -⟩
        · rw [point_eq_enter.mpr hpc', point_eq_eventWait.mpr hpc] at hpoint
          cases hpoint
        · rw [point_eq_enter.mpr hpc', point_eq_eventWait.mpr hpc] at hnext
          exact consumed_eq hpc (migrate_next hnext) hr
    · exact hr.current m hm
  · intro hpc a ha hevent
    have hbefore : r.daemon.pc = .eventWait .primaryWait ∨
        r.daemon.pc = .enter .primaryWait := by
      rw [← point_eq_eventWait, ← point_eq_enter]
      rcases point_step hd with ⟨hpoint, -⟩ | ⟨-, hnext, -⟩
      · exact .inl (hpoint ▸ point_eq_eventWait.mpr hpc)
      · exact primaryWait_next (point_eq_eventWait.mpr hpc ▸ hnext)
    rcases hbefore with hpc' | hpc'
    · have hstay : ¬ (r.daemon.pc = .enter .primaryWait ∧ label = .run) := by
        rw [hpc']
        simp
      simp only [if_neg hstay]
      rcases request_step hd hevent ha with hold | ⟨hrequest, -, hseqno, hcounter⟩
      · have haccepted := hr.accepted hpc' a hold hevent
        split_ifs
        · by_cases hseqno : a.seqno = r.queue.seqCounter
          · rw [hseqno, Function.update_self]
          · rw [Function.update_of_ne hseqno, haccepted]
        · exact haccepted
      · rw [if_pos ⟨hrequest, hcounter⟩, hseqno]
        exact Function.update_self _ _ _
    · have hpromoting : r.daemon.point.promoting = true := by
        rw [point_eq_enter.mpr hpc']
        rfl
      rcases request_step hd hevent ha with hold | ⟨-, hstate, -⟩
      · exact absurd hevent (hr.drained hpromoting a hold)
      · exact absurd hstate (not_primaryWait_of_promoting hpromoting hr.home)

/-! ### The claim -/

theorem migrations_current (ctx : ColodContext) (labels : List Label) (r : Requests)
    (hrun : run step (init ctx) labels = some r)
    (halong : Along step Drained (init ctx) labels) : r.Current := by
  have hsure : r.Sure := by
    refine run_invariant_along (fun _ _ _ hstep hl hu => sure_step hstep hu hl) hrun halong
      ⟨?_, rfl, ?_, ?_⟩
    · intro m hm
      cases hm
    · intro _ a ha
      cases ha
    · intro hpc
      cases hpc
  exact hsure.current

/-- A failover is over, and a client has asked for a migration. -/
def asked : List Label :=
  .clientNew :: Schedule.failoverSync ++ [.cpgDeliver .failover true, .dispatch (.wake 2), .run,
    .run, .io (.suspend .channel), .dispatch .io, .io (.yankReply .result), .run, .run, .run,
    .clientRequest 0 .startMigration]

theorem migrations_current_asked :
    ∃ r, run step (init Schedule.context) (asked ++ [.dispatch (.wake 3), .run]) = some r ∧
      r.migrations ≠ [] ∧ r.Current := by
  have hcheck : (run step (init Schedule.context) (asked ++ [.dispatch (.wake 3), .run])).map
      (fun r => r.migrations.length) = some 1 := by decide
  obtain ⟨r, hrun, hlength⟩ := Option.map_eq_some_iff.mp hcheck
  have halong : Along step Drained (init Schedule.context)
      (asked ++ [.dispatch (.wake 3), .run]) := by decide
  refine ⟨r, hrun, ?_, migrations_current Schedule.context _ r hrun halong⟩
  intro hnil
  rw [hnil] at hlength
  cases hlength

/-- A second copy of the own failover message and a second request arrive; the migration is aborted
and the win, which stands before the second request, decides the next failover. -/
def askedTwice : List Label :=
  asked ++ [.cpgDeliver .failover true, .clientRequest 0 .startMigration, .dispatch (.wake 3),
    .run, .run] ++ Schedule.exchange ++ [.run, .dispatch (.wake 4), .run] ++ Schedule.exchange ++
    [.run, .run, .run, .io (.suspend .channel), .dispatch .io, .io (.yankReply .result), .run, .run,
      .run]

/-- The request that was left over starts a migration in the next stay. -/
theorem stale_request_migrates :
    ¬ ∀ (ctx : ColodContext) (labels : List Label) (r : Requests),
      run step (init ctx) labels = some r → r.Current := by
  intro hclaim
  have hcheck : (run step (init Schedule.context) askedTwice).map
      (fun r => r.migrations.map fun m => (m.stay, m.request)) =
        some [(1, some 1), (2, some 1)] := by decide
  obtain ⟨r, hrun, hmigrations⟩ := Option.map_eq_some_iff.mp hcheck
  have hcurrent := hclaim Schedule.context askedTwice r hrun
  have hmem : (2, some 1) ∈ r.migrations.map fun m => (m.stay, m.request) := by
    rw [hmigrations]
    simp
  obtain ⟨m, hm, hpair⟩ := List.mem_map.mp hmem
  simp only [Prod.mk.injEq] at hpair
  have hrequest := hcurrent m hm
  rw [hpair.1, hpair.2] at hrequest
  cases hrequest

end Requests
end ColoDaemon
