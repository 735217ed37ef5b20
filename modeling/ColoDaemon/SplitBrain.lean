import ColoDaemon.BeforeFailover
import ColoDaemon.DiskError
import ColoDaemon.EventLoss

/-!
# Two daemons of one group

`Pair` joins two daemons by the group. A message that a node multicasts is in flight until the group
orders it; from then on it is delivered to both nodes, in the order that the group has given to all
messages, each at a time of its own. A message that is never ordered is lost. The sender of the first
failover message in that order wins, since the other node takes it off its queue before a win.
-/

namespace ColoDaemon
open Runs EventLoop
variable {s t : Daemon}

/-! ### One node -/

/-- No win is pending at a node that may still fail over. -/
def Unheard (s : Daemon) : Prop :=
  s.pc.ended = true ∨ s.pc.armed ∧ .failoverWin ∉ s.loop.kinds

/-- The peer's message comes before any win at a node that may still fail over. -/
def Beaten (s : Daemon) : Prop :=
  s.pc.ended = true ∨ s.pc.armed ∧
    (.peerFailover ∈ s.loop.kinds ∨ s.freed = true ∧ .failoverWin ∉ s.loop.kinds)

theorem freed_step {label : Label} (hstep : step s label = some t) (hfreed : s.freed = true) :
    t.freed = true := by
  have hresume : ∀ notified r, (s.resumeYellow notified r).freed = s.freed :=
    fun notified r => congrArg (·.2.1) (unmoved_resumeYellow notified s r)
  cases announces_step hstep with
  | quiet _ _ h => exact (congrArg (·.2.2.2.1) h).trans hfreed
  | sent _ _ _ _ h => exact (congrArg (·.2.2.2.1) h).trans hfreed
  | repeated _ _ _ _ h => exact (congrArg (·.2.2.2.1) h).trans hfreed
  | setPeer _ _ h => exact (congrArg (·.2.2.2.1) h).trans hfreed
  | delivered _ _ h =>
    rw [h, if_pos hfreed]
    exact hfreed
  | link _ _ h =>
    rw [h]
    exact (hresume _ _).trans hfreed
  | timer _ h =>
    rw [h]
    exact (hresume _ _).trans hfreed
  | diskError _ herror =>
    rw [herror.1] at hfreed
    cases hfreed
  | teardown h => exact congrArg (·.2.2.2.1) h

theorem not_enter_failover (h : s.pc.ended = true ∨ s.pc.armed) : s.pc ≠ .enter .failover := by
  intro hpc
  rw [hpc] at h
  rcases h with h | h <;> cases h

/-- A node at which no win is pending stays clear of a failover. -/
theorem armed_of_no_win {label : Label} (hstep : step s label = some t) (hs : Standing s)
    (harmed : s.pc.armed) (hwin : .failoverWin ∉ s.loop.kinds) :
    t.pc.ended = true ∨ t.pc.armed := by
  rcases armed_step hstep hs.first hs.tabled harmed with hended | ⟨harmed', -⟩ | ⟨henter, -⟩
  · exact .inl hended
  · exact .inr harmed'
  · rcases (sync_step hstep).1 henter with hbefore | ⟨-, hmem⟩
    · exact absurd hbefore (not_enter_failover (.inr harmed))
    · exact absurd hmem hwin

theorem unheard_step {label : Label} (hstep : step s label = some t) (hs : Standing s)
    (hlabel : label ≠ .cpgDeliver .failover true) (h : Unheard s) : Unheard t := by
  rcases h with hended | ⟨harmed, hwin⟩
  · exact .inl (ended_step hstep hended)
  refine (armed_of_no_win hstep hs harmed hwin).imp_right fun harmed' => ⟨harmed', ?_⟩
  intro hmem
  rcases mem_kinds_step hstep (.inl rfl) hmem with hpending | ⟨-, hdeliver⟩
  · exact hwin hpending
  · exact hlabel hdeliver

theorem beaten_step {label : Label} (hstep : step s label = some t) (hs : Standing s)
    (h : Beaten s) : Beaten t := by
  rcases h with hended | ⟨harmed, hpeer | ⟨hfreed, hwin⟩⟩
  · exact .inl (ended_step hstep hended)
  · rcases armed_step hstep hs.first hs.tabled harmed with
      hended | ⟨harmed', hkeeps⟩ | ⟨-, hnone⟩
    · exact .inl hended
    · exact .inr ⟨harmed', .inl (hkeeps hpeer)⟩
    · exact absurd hpeer hnone
  · refine (armed_of_no_win hstep hs harmed hwin).imp_right fun harmed' => ⟨harmed', .inr ?_⟩
    refine ⟨freed_step hstep hfreed, ?_⟩
    intro hmem
    rcases mem_kinds_step hstep (.inl rfl) hmem with hpending | ⟨hnot, -⟩
    · exact hwin hpending
    · rw [hfreed] at hnot
      cases hnot

/-- The delivery of the peer's message decides against the node, unless its event is lost. -/
theorem beaten_of_delivery (hstep : step s (.cpgDeliver .failover false) = some t)
    (hs : Standing s) (h : Unheard s) (hlost : t.loop.lost = s.loop.lost) : Beaten t := by
  rcases unheard_step hstep hs (by simp) h with hended | ⟨harmed, hwin⟩
  · exact .inl hended
  refine .inr ⟨harmed, ?_⟩
  by_cases hfreed : s.freed = true
  · exact .inr ⟨freed_step hstep hfreed, hwin⟩
  · left
    rcases step_cases hstep with ⟨-, hc⟩ | ⟨_, hlabel, -⟩ | ⟨hlabel, -⟩ | ⟨_, hlabel, -⟩
    · simp only [Daemon.callback, hfreed, Bool.false_eq_true, if_false, Option.some.injEq] at hc
      have hloop : t.loop = colodEventQueue s.loop .peerFailover := by
        rw [← hc]
        rfl
      rw [hloop] at hlost ⊢
      have hmem : .peerFailover ∈ (colodEventQueue s.loop .peerFailover).kinds ∨
          (colodEventQueue s.loop .peerFailover).lost = .peerFailover :: s.loop.lost :=
        colodEventQueue_mem_or_lost
      refine hmem.resolve_right fun h => ?_
      rw [hlost] at h
      exact List.cons_ne_self _ _ h.symm
    · cases hlabel
    · cases hlabel
    · cases hlabel

/-! ### The group -/

inductive Node
  | one
  | two
  deriving DecidableEq, Repr

def Node.other : Node → Node
  | .one => .two
  | .two => .one

def Label.delivers : Label → Bool
  | .cpgDeliver _ _ => true
  | _ => false

structure Pair where
  daemon : Node → Daemon
  flight : Node → List ColodMessage
  inbox : Node → List (Node × ColodMessage)

inductive PairLabel
  | act (node : Node) (label : Label)
  | order (sender : Node) (i : ℕ)
  | deliver (node : Node)
  deriving DecidableEq, Repr

namespace Pair
variable {p q : Pair} {l : PairLabel} {node loser : Node}

/-- `node` changes to `daemon`; what it has multicast meanwhile is in flight. -/
def update (this : Pair) (node : Node) (daemon : Daemon) : Pair :=
  { this with
    daemon := Function.update this.daemon node daemon
    flight := Function.update this.flight node
      (this.flight node ++ daemon.cpg.outbox.drop (this.daemon node).cpg.outbox.length) }

/-- The group may order the messages in flight in any way, and delivers them to both nodes in this
order. -/
def step (this : Pair) : PairLabel → Option Pair
  | .act node label =>
    if label.delivers then none
    else (ColoDaemon.step (this.daemon node) label).map (this.update node)
  | .order sender i =>
    (this.flight sender)[i]?.map fun message =>
      { this with
        flight := Function.update this.flight sender ((this.flight sender).eraseIdx i)
        inbox := fun node => this.inbox node ++ [(sender, message)] }
  | .deliver node =>
    match this.inbox node with
    | [] => none
    | (sender, message) :: inbox =>
      (ColoDaemon.step (this.daemon node) (.cpgDeliver message (sender = node))).map fun daemon =>
        { this.update node daemon with inbox := Function.update this.inbox node inbox }

/-- What a step is to one of the nodes. -/
theorem node_step (hstep : step p l = some q) (node : Node) :
    (q.daemon node = p.daemon node ∧ ∃ entries, q.inbox node = p.inbox node ++ entries ∧
      ((∀ sender i, l ≠ .order sender i) → entries = [])) ∨
    (∃ label, label.delivers = false ∧
      ColoDaemon.step (p.daemon node) label = some (q.daemon node) ∧ q.inbox node = p.inbox node) ∨
    (∃ sender message, ColoDaemon.step (p.daemon node) (.cpgDeliver message (sender = node)) =
      some (q.daemon node) ∧ p.inbox node = (sender, message) :: q.inbox node) := by
  cases l with
  | act actor label =>
    simp only [step] at hstep
    split_ifs at hstep with hdelivers
    obtain ⟨daemon, hd, rfl⟩ := Option.map_eq_some_iff.mp hstep
    by_cases hnode : node = actor
    · subst hnode
      exact .inr (.inl ⟨label, by simpa using hdelivers, by simpa [update] using hd, rfl⟩)
    · exact .inl ⟨by simp [update, hnode], [], by simp [update], fun _ => rfl⟩
  | order sender i =>
    obtain ⟨message, -, rfl⟩ := Option.map_eq_some_iff.mp hstep
    exact .inl ⟨rfl, _, rfl, fun h => absurd rfl (h sender i)⟩
  | deliver receiver =>
    simp only [step] at hstep
    split at hstep
    · cases hstep
    · rename_i sender message inbox hinbox
      obtain ⟨daemon, hd, rfl⟩ := Option.map_eq_some_iff.mp hstep
      by_cases hnode : node = receiver
      · subst hnode
        exact .inr (.inr ⟨sender, message, by simpa [update] using hd, by simpa using hinbox⟩)
      · exact .inl ⟨by simp [update, hnode], [], by simp [hnode], fun _ => rfl⟩

/-! ### The arbitration -/

/-- Both nodes run and the group holds no failover message for them. -/
structure Start (this : Pair) : Prop where
  reached : ∀ node, ∃ ctx labels,
    run ColoDaemon.step (.init ctx) labels = some (this.daemon node)
  running : ∀ node, (this.daemon node).state.isRunning = true
  win : ∀ node, .failoverWin ∉ (this.daemon node).loop.kinds
  inbox : ∀ node, ∀ entry ∈ this.inbox node, entry.2 ≠ .failover

/-- No event is lost in this step. -/
def Lossless (this : Pair) (l : PairLabel) : Prop :=
  ∀ next, step this l = some next → ∀ node,
    (next.daemon node).loop.lost = (this.daemon node).loop.lost

instance (this : Pair) (l : PairLabel) : Decidable (this.Lossless l) :=
  match h : step this l with
  | none => isTrue (by simp [Lossless, h])
  | some next =>
    decidable_of_iff ((next.daemon .one).loop.lost = (this.daemon .one).loop.lost ∧
        (next.daemon .two).loop.lost = (this.daemon .two).loop.lost) (by
      simp only [Lossless, h, Option.some.injEq, forall_eq']
      exact ⟨fun hboth node => by cases node; exacts [hboth.1, hboth.2], fun hall =>
        ⟨hall .one, hall .two⟩⟩)

/-- The main coroutine of `node` enters `STATE_FAILOVER`. -/
def Enters (node : Node) (this : Pair) (l : PairLabel) : Prop :=
  (this.daemon node).pc = .enter .failover ∧ l = .act node .run

instance (node : Node) (this : Pair) (l : PairLabel) : Decidable (this.Enters node l) :=
  inferInstanceAs (Decidable (_ ∧ _))

/-- No failover message was ordered yet. -/
structure Undecided (this : Pair) : Prop where
  standing : ∀ node, Standing (this.daemon node)
  unheard : ∀ node, Unheard (this.daemon node)
  inbox : ∀ node, ∀ entry ∈ this.inbox node, entry.2 ≠ .failover

/-- The first failover message is the other node's. -/
structure Decided (this : Pair) (loser : Node) : Prop where
  standing : ∀ node, Standing (this.daemon node)
  loser : Beaten (this.daemon loser) ∨ Unheard (this.daemon loser) ∧
    (this.inbox loser).find? (·.2 = .failover) = some (loser.other, .failover)

theorem all_standing_step (hstep : step p l = some q)
    (h : ∀ node, Standing (p.daemon node)) : ∀ node, Standing (q.daemon node) := by
  intro node
  rcases node_step hstep node with ⟨hsame, -⟩ | ⟨label, -, hd, -⟩ | ⟨sender, message, hd, -⟩
  · rw [hsame]
    exact h node
  · exact standing_step hd (h node)
  · exact standing_step hd (h node)

theorem decided_step (hstep : step p l = some q) (hlossless : Lossless p l)
    (h : Decided p loser) : Decided q loser := by
  refine ⟨all_standing_step hstep h.standing, ?_⟩
  have hs := h.standing loser
  rcases node_step hstep loser with
    ⟨hsame, entries, hinbox, -⟩ | ⟨label, hlabel, hd, hinbox⟩ | ⟨sender, message, hd, hinbox⟩
  · rw [hsame, hinbox]
    refine h.loser.imp_right fun ⟨hunheard, hfirst⟩ => ⟨hunheard, ?_⟩
    rw [List.find?_append, hfirst]
    rfl
  · rw [hinbox]
    rcases h.loser with hbeaten | ⟨hunheard, hfirst⟩
    · exact .inl (beaten_step hd hs hbeaten)
    · refine .inr ⟨unheard_step hd hs ?_ hunheard, hfirst⟩
      rintro rfl
      cases hlabel
  · rcases h.loser with hbeaten | ⟨hunheard, hfirst⟩
    · exact .inl (beaten_step hd hs hbeaten)
    rw [hinbox] at hfirst
    by_cases hmessage : message = .failover
    · subst hmessage
      simp only [List.find?_cons, decide_true, Option.some.injEq, Prod.mk.injEq, and_true] at hfirst
      have hpeer : decide (sender = loser) = false := by
        rw [hfirst]
        cases loser <;> rfl
      rw [hpeer] at hd
      exact .inl (beaten_of_delivery hd hs hunheard (hlossless q hstep loser))
    · refine .inr ⟨unheard_step hd hs ?_ hunheard, ?_⟩
      · simp [hmessage]
      · simpa [List.find?_cons, hmessage] using hfirst

theorem undecided_step (hstep : step p l = some q) (h : Undecided p) :
    Undecided q ∨ ∃ loser, Decided q loser := by
  have hstanding := all_standing_step hstep h.standing
  have hunheard : ∀ node, Unheard (q.daemon node) := by
    intro node
    rcases node_step hstep node with
      ⟨hsame, -⟩ | ⟨label, hlabel, hd, -⟩ | ⟨sender, message, hd, hinbox⟩
    · rw [hsame]
      exact h.unheard node
    · refine unheard_step hd (h.standing node) ?_ (h.unheard node)
      rintro rfl
      cases hlabel
    · refine unheard_step hd (h.standing node) ?_ (h.unheard node)
      have hnot : message ≠ .failover :=
        h.inbox node (sender, message) (hinbox ▸ List.mem_cons_self)
      simp [hnot]
  by_cases horder : ∃ sender i, l = .order sender i
  · obtain ⟨sender, i, rfl⟩ := horder
    obtain ⟨message, -, rfl⟩ := Option.map_eq_some_iff.mp hstep
    by_cases hmessage : message = .failover
    · subst hmessage
      refine .inr ⟨sender.other, hstanding, .inr ⟨hunheard _, ?_⟩⟩
      have hnone : (p.inbox sender.other).find? (·.2 = .failover) = none := by
        simpa using h.inbox sender.other
      simp only [List.find?_append, hnone]
      cases sender <;> rfl
    · refine .inl ⟨hstanding, hunheard, ?_⟩
      intro node entry hentry
      rcases List.mem_append.mp hentry with hold | hnew
      · exact h.inbox node entry hold
      · rw [List.mem_singleton.mp hnew]
        exact hmessage
  · refine .inl ⟨hstanding, hunheard, ?_⟩
    intro node entry hentry
    have hother : ∀ sender i, l ≠ .order sender i := fun sender i hl => horder ⟨sender, i, hl⟩
    apply h.inbox node entry
    rcases node_step hstep node with
      ⟨-, entries, hinbox, hnil⟩ | ⟨label, -, -, hinbox⟩ | ⟨sender, message, -, hinbox⟩
    · rwa [hinbox, hnil hother, List.append_nil] at hentry
    · rwa [hinbox] at hentry
    · rw [hinbox]
      exact List.mem_cons_of_mem _ hentry

theorem undecided_start (h : Start p) : Undecided p := by
  have hstanding : ∀ node, Standing (p.daemon node) := by
    intro node
    obtain ⟨ctx, labels, hrun⟩ := h.reached node
    exact standing_of_run hrun
  refine ⟨hstanding, ?_, h.inbox⟩
  intro node
  exact ((hstanding node).running (h.running node)).imp_right fun harmed => ⟨harmed, h.win node⟩

theorem Undecided.not_enters (h : Undecided p) : ¬ Enters node p l := by
  rintro ⟨hpc, -⟩
  exact not_enter_failover ((h.unheard node).imp_right And.left) hpc

theorem Decided.not_enters (h : Decided p loser) : ¬ Enters loser p l := by
  rintro ⟨hpc, -⟩
  rcases h.loser with hbeaten | ⟨hunheard, -⟩
  · exact not_enter_failover (hbeaten.imp_right And.left) hpc
  · exact not_enter_failover (hunheard.imp_right And.left) hpc

theorem decided_run {labels : List PairLabel} (hlossless : Along step Lossless p labels)
    (h : Decided p loser) : ¬ Sometime step (Enters loser) p labels := by
  induction labels generalizing p with
  | nil => exact id
  | cons l labels ih =>
    rintro (henters | ⟨q, hstep, hlater⟩)
    · exact h.not_enters henters
    · exact ih (hlossless.2 q hstep) (decided_step hstep hlossless.1 h) hlater

theorem undecided_run {labels : List PairLabel} (hlossless : Along step Lossless p labels)
    (h : Undecided p) : ∃ loser, ¬ Sometime step (Enters loser) p labels := by
  induction labels generalizing p with
  | nil => exact ⟨.one, id⟩
  | cons l labels ih =>
    cases hstep : step p l with
    | none =>
      refine ⟨.one, ?_⟩
      rintro (henters | ⟨q, hsome, -⟩)
      · exact h.not_enters henters
      · rw [hstep] at hsome
        cases hsome
    | some q =>
      have hrest := hlossless.2 q hstep
      have hlater : ∃ loser, ¬ Sometime step (Enters loser) q labels := by
        rcases undecided_step hstep h with hopen | ⟨loser, hdecided⟩
        · exact ih hrest hopen
        · exact ⟨loser, decided_run hrest hdecided⟩
      obtain ⟨loser, hnever⟩ := hlater
      refine ⟨loser, ?_⟩
      rintro (henters | ⟨q', hsome, hsometime⟩)
      · exact h.not_enters henters
      · rw [hstep, Option.some.injEq] at hsome
        exact hnever (hsome ▸ hsometime)

/-- In no run that loses no event do both nodes enter `STATE_FAILOVER`. Failover messages in flight
and pending retransmissions do no harm. -/
theorem at_most_one_failover (p : Pair) (labels : List PairLabel) (hstart : p.Start)
    (hlossless : Along step Lossless p labels) :
    ¬ ∀ node, Sometime step (Enters node) p labels := by
  obtain ⟨loser, hnever⟩ := undecided_run hlossless (undecided_start hstart)
  intro hboth
  exact hnever (hboth loser)

def acts (node : Node) (labels : List Label) : List PairLabel := labels.map (.act node)

/-- Replication breaks during the migration, both nodes ask for a failover, and the secondary's
message is ordered first. -/
def bothAsk : List PairLabel :=
  acts .one [.qmpEvent (.coloExit "error"), .dispatch (.wake 1), .run, .run, .run] ++
    acts .two ([.qmpEvent (.migration .failed), .dispatch (.wake 2), .run, .run] ++
      Schedule.exchange ++ [.run, .run]) ++
    [.order .one 0, .order .two 0, .deliver .two, .deliver .one] ++
    acts .one [.dispatch (.wake 2), .run, .run] ++ [.deliver .two] ++
    acts .two [.dispatch (.wake 3), .run, .run, .run]

theorem at_most_one_failover_bothAsk :
    ∃ p q, p.Start ∧ run step p bothAsk = some q ∧ Sometime step (Enters .one) p bothAsk ∧
      ¬ Sometime step (Enters .two) p bothAsk := by
  let pair (s t : Daemon) : Pair := ⟨fun | .one => s | .two => t, fun _ => [], fun _ => []⟩
  have hcheck : (run ColoDaemon.step (.init Schedule.context) Schedule.coloRunning).bind (fun s =>
      (run ColoDaemon.step (.init { Schedule.context with primaryStartup := true })
        migrationSchedule).bind fun t => (run step (pair s t) bothAsk).map fun _ =>
          (s.state.isRunning && t.state.isRunning,
            decide (.failoverWin ∈ s.loop.kinds) || decide (.failoverWin ∈ t.loop.kinds),
            decide (Along step Lossless (pair s t) bothAsk),
            decide (Along step (fun p l => ¬ Enters .one p l) (pair s t) bothAsk))) =
      some (true, false, true, false) := by decide
  obtain ⟨s, hs, hcheck⟩ := Option.bind_eq_some_iff.mp hcheck
  obtain ⟨t, ht, hcheck⟩ := Option.bind_eq_some_iff.mp hcheck
  obtain ⟨q, hrun, hcheck⟩ := Option.map_eq_some_iff.mp hcheck
  simp only [Prod.mk.injEq, Bool.and_eq_true, Bool.or_eq_false_iff, decide_eq_true_eq,
    decide_eq_false_iff_not] at hcheck
  obtain ⟨⟨hrunningOne, hrunningTwo⟩, ⟨hwinOne, hwinTwo⟩, hlossless, hone⟩ := hcheck
  have hstart : (pair s t).Start := by
    refine ⟨?_, ?_, ?_, by simp [pair]⟩
    · rintro ⟨⟩
      · exact ⟨_, _, hs⟩
      · exact ⟨_, _, ht⟩
    · rintro ⟨⟩
      · exact hrunningOne
      · exact hrunningTwo
    · rintro ⟨⟩
      · exact hwinOne
      · exact hwinTwo
  have henters : Sometime step (Enters .one) (pair s t) bothAsk := by
    by_contra hnever
    exact hone (not_sometime.mp hnever)
  refine ⟨pair s t, q, hstart, hrun, henters, ?_⟩
  intro htwo
  apply at_most_one_failover (pair s t) bothAsk hstart hlossless
  rintro ⟨⟩
  · exact henters
  · exact htwo

end Pair
end ColoDaemon
