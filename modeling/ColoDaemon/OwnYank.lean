import ColoDaemon.ControlFlow

/-!
# What becomes of the yank of a failover

The yank of `_colod_failover_co` sets `did_yank`, and the next command that finishes, whoever sent
it, clears the flag and queues `EVENT_FAILOVER_SYNC`. `Yanks` follows one daemon and remembers
whether the flag is still set from that yank and which pending events were queued for it.
-/

namespace ColoDaemon
open Runs EventLoop
variable {s t : Daemon}

/-- The states that a migration goes through. -/
def MainState.migrates : MainState → Bool
  | .primaryStartMigration | .primaryColoRunning => true
  | _ => false

/-- `own` says that `did_yank` is set since the yank of a failover, and `raised` are the sequence
numbers of the pending events that were queued when it was cleared. `aborted` says that such an
event has made the main coroutine leave a migration. -/
structure Yanks where
  daemon : Daemon
  own : Bool
  raised : List UInt64
  aborted : Bool

namespace Yanks
variable {y y' : Yanks}

def init (ctx : ColodContext) : Yanks := ⟨.init ctx, false, [], false⟩

def queue (this : Yanks) : EventQueue := this.daemon.loop.queue

/-- The yank of a failover succeeds. -/
def yanks (this : Yanks) (label : Label) : Bool :=
  this.daemon.point = .yank && label = .io (.yankReply .result)

def Label.isYankDone : Label → Bool
  | .yankDone _ => true
  | _ => false

/-- A command that finishes queues an event because of the own yank. A client's yank clears the
flag as well, but the event it queues is its own. -/
def raises (this : Yanks) (label : Label) (daemon : Daemon) : Bool :=
  this.own && !daemon.didYank && !Label.isYankDone label &&
    daemon.loop.queue.seqCounter != this.queue.seqCounter

/-- An event of the own yank ends a migration. -/
def aborts (this : Yanks) (label : Label) : Bool :=
  this.daemon.state.migrates && this.daemon.pops label = some .failoverSync &&
    (eventqueuePeek this.queue).any fun event => event.seqno ∈ this.raised

def step (this : Yanks) (label : Label) : Option Yanks :=
  (ColoDaemon.step this.daemon label).map fun daemon =>
    let raised :=
      if this.raises label daemon then this.raised ++ [this.queue.seqCounter] else this.raised
    { daemon
      own := daemon.didYank && (this.own || this.yanks label)
      raised := raised.filter fun seqno => ⟨.failoverSync, seqno⟩ ∈ daemon.loop.queue.sequence
      aborted := this.aborted || this.aborts label }

/-- The condition on a step: when `STATE_PRIMARY_START_MIGRATION` is entered, `did_yank` is not
still set from the yank of a failover, and no event that this yank has raised is pending. -/
def Settled (this : Yanks) (_ : Label) : Prop :=
  this.daemon.pc = .enter .primaryStartMigration → this.own = false ∧ this.raised = []

instance (this : Yanks) (label : Label) : Decidable (this.Settled label) :=
  inferInstanceAs (Decidable (_ → _))

/-- During a migration nothing is left of the yank. -/
structure Sure (this : Yanks) : Prop where
  aborted : this.aborted = false
  home : this.daemon.point.home this.daemon.state = true
  own : this.daemon.state.migrates = true → this.own = false
  raised : this.daemon.state.migrates = true → this.raised = []

theorem not_yank_of_migrates (hhome : s.point.home s.state = true)
    (hstate : s.state.migrates = true) : s.point ≠ .yank := by
  intro hpoint
  rw [hpoint] at hhome
  have hfailover : s.state = .failover := by simpa [Point.home] using hhome
  rw [hfailover] at hstate
  cases hstate

/-- A migration begins in `STATE_PRIMARY_START_MIGRATION` and goes on in
`STATE_PRIMARY_COLO_RUNNING`. -/
theorem migrates_step {label : Label} (hstep : ColoDaemon.step s label = some t)
    (hhome : s.point.home s.state = true) (hstate : t.state.migrates = true) :
    s.state.migrates = true ∨ s.pc = .enter .primaryStartMigration := by
  rcases state_or_enter hstep with hsame | ⟨newState, hpc, rfl⟩
  · exact .inl (hsame ▸ hstate)
  · rw [colodMainCo_state] at hstate
    cases newState with
    | primaryStartMigration => exact .inr hpc
    | primaryColoRunning =>
      rw [point_eq_enter.mpr hpc] at hhome
      have hmigration : s.state = .primaryStartMigration := by simpa [Point.home] using hhome
      rw [hmigration]
      exact .inl rfl
    | _ => cases hstate

theorem sure_step {label : Label} (hstep : step y label = some y') (hy : y.Sure)
    (hl : y.Settled label) : y'.Sure := by
  obtain ⟨t, hd, rfl⟩ := Option.map_eq_some_iff.mp hstep
  have hbefore : t.state.migrates = true →
      y.own = false ∧ y.raised = [] ∧ y.yanks label = false := by
    intro hstate
    rcases migrates_step hd hy.home hstate with hmigrates | hpc
    · have hyank := not_yank_of_migrates hy.home hmigrates
      exact ⟨hy.own hmigrates, hy.raised hmigrates, by simp [yanks, hyank]⟩
    · obtain ⟨hown, hraised⟩ := hl hpc
      exact ⟨hown, hraised, by simp [yanks, point_eq_enter.mpr hpc]⟩
  refine ⟨?_, home_step hd hy.home, ?_, ?_⟩
  · by_cases hmigrates : y.daemon.state.migrates = true
    · simp [hy.aborted, aborts, hy.raised hmigrates]
    · simp [hy.aborted, aborts, hmigrates]
  · intro hstate
    obtain ⟨hown, -, hyanks⟩ := hbefore hstate
    simp [hown, hyanks]
  · intro hstate
    obtain ⟨hown, hraised, -⟩ := hbefore hstate
    simp [raises, hown, hraised]

theorem own_yank_harmless (ctx : ColodContext) (labels : List Label) (y : Yanks)
    (hrun : run step (init ctx) labels = some y)
    (halong : Along step Settled (init ctx) labels) : y.aborted = false := by
  have hsure : y.Sure :=
    run_invariant_along (fun _ _ _ hstep hl hu => sure_step hstep hu hl) hrun halong
      ⟨rfl, rfl, by simp [init, Daemon.init, MainState.migrates],
        by simp [init, Daemon.init, MainState.migrates]⟩
  exact hsure.aborted

/-- A failover of a secondary, up to the yank. -/
def failover : List Label :=
  Schedule.failoverSync ++ [.cpgDeliver .failover true, .dispatch (.wake 2), .run, .run,
    .io (.suspend .channel), .dispatch .io, .io (.yankReply .result), .run]

/-- A client has the new primary start a migration. -/
def migration (id : ℕ) : List Label :=
  [.clientRequest 0 .startMigration, .dispatch (.wake id), .run, .run] ++ Schedule.exchange

/-- The command of the failover array clears the flag, and its event is dropped before the
migration. -/
def armed : List Label :=
  [.clientNew, .clientRequest 0 (.setCommands .failoverSecondary ["nbd-server-stop"])] ++
    failover ++ Schedule.exchange ++ [.run, .run, .run, .dispatch (.wake 3), .run, .run] ++
    migration 4

set_option maxRecDepth 2000 in
theorem own_yank_harmless_armed :
    ∃ y, run step (init Schedule.context) armed = some y ∧
      y.daemon.state = .primaryStartMigration ∧ y.daemon.didYank = false ∧ y.aborted = false := by
  have hcheck : (run step (init Schedule.context) armed).map
      (fun y => (y.daemon.state, y.daemon.didYank)) = some (.primaryStartMigration, false) := by
    decide
  obtain ⟨y, hrun, hy⟩ := Option.map_eq_some_iff.mp hcheck
  simp only [Prod.mk.injEq] at hy
  have halong : Along step Settled (init Schedule.context) armed := by decide
  exact ⟨y, hrun, hy.1, hy.2, own_yank_harmless Schedule.context armed y hrun halong⟩

/-- With the empty default array the flag outlives the failover. -/
def unarmed : List Label :=
  .clientNew :: failover ++ [.run, .run] ++ migration 3 ++ [.run, .dispatch (.wake 4), .run]

/-- The first command of the migration turns the yank of the failover against it. -/
theorem own_yank_aborts :
    ¬ ∀ (ctx : ColodContext) (labels : List Label) (y : Yanks),
      run step (init ctx) labels = some y → y.aborted = false := by
  intro hclaim
  have hcheck : (run step (init Schedule.context) unarmed).map (fun y => y.aborted) =
      some true := by decide
  obtain ⟨y, hrun, haborted⟩ := Option.map_eq_some_iff.mp hcheck
  rw [hclaim Schedule.context unarmed y hrun] at haborted
  cases haborted

end Yanks
end ColoDaemon
