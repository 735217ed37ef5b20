import ColoDaemon.Arbitration
import ColoDaemon.FailoverSync
import ColoDaemon.YellowRetransmit

/-!
# Which round a win belongs to

`EVENT_FAILOVER_WIN` carries no round. `Rounds` follows one daemon together with its failover
messages that were accepted by the group and not yet delivered, each with the number of the stay
in `STATE_FAILOVER_SYNC` in which it was multicast. A copy of an earlier stay that is delivered
while the queue is not drained, or during a later stay, is taken for the answer of that stay.
-/

namespace ColoDaemon
open Runs EventLoop
variable {s t : Daemon}

/-- `stay` counts the entries into `STATE_FAILOVER_SYNC` and `flight` are the stays in which the
accepted copies of the own failover message that are not delivered yet were multicast, 0 for none.
Of the current stay, `fresh` says that a copy multicast in it has been delivered during it, and
`leftover` that a win was already pending when it began. -/
structure Rounds where
  daemon : Daemon
  stay : ℕ
  flight : List ℕ
  fresh : Bool
  leftover : Bool

/-- A step of the daemon, with the acceptance of the multicasts it makes. -/
structure RoundLabel where
  label : Label
  accepted : List Bool

namespace Rounds
variable {r r' : Rounds}

def init (ctx : ColodContext) : Rounds := ⟨.init ctx, 0, [], false, false⟩

/-- The stay in which `daemon` multicasts. -/
def current (daemon : Daemon) (stay : ℕ) : ℕ :=
  if daemon.pc = .eventWait .failoverSync then stay else 0

/-- This step enters `STATE_FAILOVER_SYNC`. -/
def Enters (this : Rounds) (label : Label) : Prop :=
  this.daemon.pc = .enter .failoverSync ∧ label = .run

instance (this : Rounds) (label : Label) : Decidable (this.Enters label) :=
  inferInstanceAs (Decidable (_ ∧ _))

/-- The copies of the failover message that are accepted among the multicasts of a step. -/
def copies (s t : Daemon) (accepted : List Bool) : List ColodMessage :=
  (Group.accept accepted (t.cpg.outbox.drop s.cpg.outbox.length)).filter (· = .failover)

/-- The group delivers the own copies in order, so the one that arrives is the oldest. -/
def step (this : Rounds) (l : RoundLabel) : Option Rounds :=
  (ColoDaemon.step this.daemon l.label).bind fun daemon =>
    if this.Enters l.label then
      let stay := this.stay + 1
      let sent := (copies this.daemon daemon l.accepted).map fun _ => current daemon stay
      some ⟨daemon, stay, this.flight ++ sent, false, .failoverWin ∈ this.daemon.loop.kinds⟩
    else
      let sent := (copies this.daemon daemon l.accepted).map fun _ => current daemon this.stay
      if l.label = .cpgDeliver .failover true then
        match this.flight with
        | [] => none
        | tag :: flight =>
          let answered := tag = this.stay && this.daemon.pc = .eventWait .failoverSync
          some ⟨daemon, this.stay, flight ++ sent, this.fresh || answered, this.leftover⟩
      else some ⟨daemon, this.stay, this.flight ++ sent, this.fresh, this.leftover⟩

/-- The property: a failover follows the delivery of a copy that was multicast in the same stay,
and no win was left over when that stay began. -/
def Backed (this : Rounds) : Prop :=
  this.daemon.pc = .enter .failover → this.fresh = true ∧ this.leftover = false

/-- The condition on a step: no win is pending when `STATE_FAILOVER_SYNC` is entered, and the first
copy that is delivered during a stay was multicast in it. -/
def FreshOnly (this : Rounds) (l : RoundLabel) : Prop :=
  (this.Enters l.label → .failoverWin ∉ this.daemon.loop.kinds) ∧
    (this.daemon.pc = .eventWait .failoverSync → l.label = .cpgDeliver .failover true →
      this.fresh = false → this.flight.head? = some this.stay)

instance (this : Rounds) (l : RoundLabel) : Decidable (this.FreshOnly l) :=
  inferInstanceAs (Decidable (_ ∧ _))

theorem step_cases {l : RoundLabel} (hstep : step r l = some r') :
    ColoDaemon.step r.daemon l.label = some r'.daemon ∧
      ((r.Enters l.label ∧ r'.fresh = false ∧
          r'.leftover = decide (.failoverWin ∈ r.daemon.loop.kinds)) ∨
        (¬ r.Enters l.label ∧ r'.leftover = r.leftover ∧
          ((l.label ≠ .cpgDeliver .failover true ∧ r'.fresh = r.fresh) ∨
            (l.label = .cpgDeliver .failover true ∧ r'.fresh = (r.fresh ||
              (r.flight.head? = some r.stay && r.daemon.pc = .eventWait .failoverSync)))))) := by
  obtain ⟨daemon, hd, hr⟩ := Option.bind_eq_some_iff.mp hstep
  by_cases henters : r.Enters l.label
  · rw [if_pos henters] at hr
    cases hr
    exact ⟨hd, .inl ⟨henters, rfl, rfl⟩⟩
  · rw [if_neg henters] at hr
    by_cases hdeliver : l.label = .cpgDeliver .failover true
    · simp only [if_pos hdeliver] at hr
      split at hr
      · cases hr
      · rename_i tag flight hflight
        cases hr
        exact ⟨hd, .inr ⟨henters, rfl, .inr ⟨hdeliver, by simp [hflight]⟩⟩⟩
    · simp only [if_neg hdeliver] at hr
      cases hr
      exact ⟨hd, .inr ⟨henters, rfl, .inl ⟨hdeliver, rfl⟩⟩⟩

/-! ### Fresh copies only -/

/-- Whatever is pending in a stay was raised by a copy of that stay. -/
structure Sure (this : Rounds) : Prop where
  backed : this.Backed
  win : this.daemon.pc = .eventWait .failoverSync → .failoverWin ∈ this.daemon.loop.kinds →
    this.fresh = true
  stay : this.daemon.pc = .eventWait .failoverSync → this.leftover = false

theorem sure_step {l : RoundLabel} (hstep : step r l = some r') (hr : r.Sure)
    (hl : r.FreshOnly l) : r'.Sure := by
  obtain ⟨hd, hcases⟩ := step_cases hstep
  obtain ⟨hfailover, hsync⟩ := sync_step hd
  have hwin := mem_kinds_step hd (.inl rfl)
  -- outside the entry the stay goes on
  have hgo : ¬ r.Enters l.label → r'.leftover = r.leftover ∧ (r.fresh = true → r'.fresh = true) := by
    intro hnot
    rcases hcases with ⟨henters, -⟩ | ⟨-, hleft, ⟨-, hfresh⟩ | ⟨-, hfresh⟩⟩
    · exact absurd henters hnot
    · exact ⟨hleft, fun h => by rw [hfresh, h]⟩
    · exact ⟨hleft, fun h => by rw [hfresh, h]; rfl⟩
  have hstay : r.daemon.pc = .eventWait .failoverSync → ¬ r.Enters l.label := by
    rintro hpc ⟨henter, -⟩
    rw [hpc] at henter
    cases henter
  refine ⟨?_, ?_, ?_⟩
  · intro hpc
    rcases hfailover hpc with hbefore | ⟨hbefore, hmem⟩
    · have hnot : ¬ r.Enters l.label := by
        rintro ⟨henter, -⟩
        rw [hbefore] at henter
        cases henter
      obtain ⟨hleft, hfresh⟩ := hgo hnot
      obtain ⟨hf, hl'⟩ := hr.backed hbefore
      exact ⟨hfresh hf, hleft.trans hl'⟩
    · obtain ⟨hleft, hfresh⟩ := hgo (hstay hbefore)
      exact ⟨hfresh (hr.win hbefore hmem), hleft.trans (hr.stay hbefore)⟩
  · intro hpc hmem
    rcases hsync hpc with hbefore | ⟨hbefore, hlabel⟩
    · rcases hwin hmem with hpending | ⟨-, hdeliver⟩
      · exact (hgo (hstay hbefore)).2 (hr.win hbefore hpending)
      · rcases hcases with ⟨henters, -⟩ | ⟨-, -, ⟨hnot, -⟩ | ⟨-, hf⟩⟩
        · exact absurd henters (hstay hbefore)
        · exact absurd hdeliver hnot
        · cases hfresh : r.fresh with
          | true => rw [hf, hfresh]; rfl
          | false =>
            have htag := hl.2 hbefore hdeliver hfresh
            rw [hf, htag]
            simp [hbefore]
    · rcases hwin hmem with hpending | ⟨-, hdeliver⟩
      · exact absurd hpending (hl.1 ⟨hbefore, hlabel⟩)
      · rw [hlabel] at hdeliver
        cases hdeliver
  · intro hpc
    rcases hsync hpc with hbefore | henters
    · exact (hgo (hstay hbefore)).1.trans (hr.stay hbefore)
    · rcases hcases with ⟨-, -, hleft⟩ | ⟨hnot, -⟩
      · rw [hleft]
        exact decide_eq_false (hl.1 henters)
      · exact absurd henters hnot

/-! ### The condition is needed -/

theorem daemon_run {labels : List RoundLabel} (hrun : run step r labels = some r') :
    run ColoDaemon.step r.daemon (labels.map RoundLabel.label) = some r'.daemon := by
  induction labels generalizing r with
  | nil =>
    cases hrun
    rfl
  | cons l labels ih =>
    obtain ⟨u, hstep, hrun⟩ := run_cons_eq_some.mp hrun
    exact run_cons_eq_some.mpr ⟨u.daemon, (step_cases hstep).1, ih hrun⟩

/-- Waking the daemon up adds nothing to what is known of the stay. -/
theorem waking_lift {pending : List ColodEvent} {labels : List Label} {t : Daemon}
    (hrun : run ColoDaemon.step r.daemon labels = some t)
    (h : Along ColoDaemon.step (Waking pending) r.daemon labels) :
    ∃ labels' r', run step r labels' = some r' ∧ r'.daemon = t ∧ r'.fresh = r.fresh ∧
      r'.leftover = r.leftover := by
  induction labels generalizing r with
  | nil =>
    cases hrun
    exact ⟨[], r, rfl, rfl, rfl, rfl⟩
  | cons label labels ih =>
    obtain ⟨u, hstep, hrun⟩ := run_cons_eq_some.mp hrun
    obtain ⟨⟨hpc, -, hlabel⟩, hrest⟩ := h
    have hnot : ¬ r.Enters label := by
      rintro ⟨henter, -⟩
      rw [hpc] at henter
      cases henter
    have hdeliver : label ≠ .cpgDeliver .failover true := by
      rcases hlabel with rfl | ⟨id, rfl⟩ <;> simp
    have hv : step r ⟨label, []⟩ = some ⟨u, r.stay,
        r.flight ++ (copies r.daemon u []).map fun _ => current u r.stay, r.fresh, r.leftover⟩ := by
      simp only [step, hstep, Option.bind_some, if_neg hnot, if_neg hdeliver]
    obtain ⟨labels', r', hrun', ht, hfresh, hleft⟩ := ih (r := ⟨u, r.stay,
      r.flight ++ (copies r.daemon u []).map fun _ => current u r.stay, r.fresh, r.leftover⟩) hrun
      (hrest u hstep)
    exact ⟨_, r', run_cons_eq_some.mpr ⟨_, hv, hrun'⟩, ht, hfresh, hleft⟩

/-- A pending win that is not known to be fresh ends the stay in a failover. -/
theorem unbacked_of_stale {ctx : ColodContext} {labels : List RoundLabel}
    (hrun : run step (init ctx) labels = some r)
    (hpc : r.daemon.pc = .eventWait .failoverSync) (hwin : .failoverWin ∈ r.daemon.loop.kinds)
    (hstale : r.fresh = false ∨ r.leftover = true) (hquiet : r.daemon.Undisturbed)
    (hpeer : .peerFailover ∉ r.daemon.loop.kinds) (hyellow : r.daemon.yellowCo.aborted = false) :
    ∃ labels' r', run step r labels' = some r' ∧ ¬ r'.Backed := by
  have hdaemon := daemon_run hrun
  have hsound := loopSound_of_run hdaemon
  obtain ⟨schedule, t, hrun', ⟨newState, ht⟩, hwaking⟩ := stay_progress r.daemon.loop.kinds hsound
    (attentive_of_run hdaemon) hpc hyellow (fun _ => id) (.inl hwin) (Nat.le_refl _)
  have hstay : Stay r.daemon schedule t newState := by
    refine ⟨hpc, hrun', ?_, ht⟩
    rw [along_iff] at hwaking ⊢
    intro n u label hu hl
    obtain ⟨hupc, hkinds, -⟩ := hwaking n u label hu hl
    exact ⟨hupc, fun e he => hquiet e (hkinds e he)⟩
  have hnot : ¬ PeerQueued r.daemon schedule := by
    rintro (hmem | hdelivered)
    · exact hpeer hmem
    · revert hdelivered
      rw [imp_false, not_sometime, along_iff]
      rintro n u label hu hl ⟨rfl, -⟩
      obtain ⟨-, -, hrunlabel | ⟨id, hwake⟩⟩ := along_iff.mp hwaking n u _ hu hl
      · cases hrunlabel
      · cases hwake
  rcases stay_outcome hsound (bounded_of_run hdaemon) hstay with ⟨rfl, -⟩ | ⟨-, hqueued⟩
  · obtain ⟨labels', r', hr', hd, hfresh, hleft⟩ := waking_lift hrun' hwaking
    refine ⟨labels', r', hr', ?_⟩
    intro hbacked
    obtain ⟨hf, hl⟩ := hbacked (by rw [hd, ht])
    rcases hstale with h | h
    · rw [hfresh, h] at hf
      cases hf
    · rw [hleft, h] at hl
      cases hl
  · exact absurd hqueued hnot

/-! ### The claim -/

/-- In a run whose steps all meet the condition every failover is backed; and a step that does not
meet it can be followed by a failover that is not, as long as the win it leaves pending is not
preceded by an event that ends the stay. -/
theorem failover_backed_iff_fresh (ctx : ColodContext) :
    (∀ labels r, run step (init ctx) labels = some r →
      Along step FreshOnly (init ctx) labels → r.Backed) ∧
    (∀ labels r l r', run step (init ctx) labels = some r → step r l = some r' →
      ¬ r.FreshOnly l → .failoverWin ∈ r'.daemon.loop.kinds → r'.daemon.Undisturbed →
      .peerFailover ∉ r'.daemon.loop.kinds → r'.daemon.yellowCo.aborted = false →
      ∃ labels' r'', run step r' labels' = some r'' ∧ ¬ r''.Backed) := by
  constructor
  · intro labels r hrun halong
    have hsure : r.Sure :=
      run_invariant_along (P := Sure) (fun _ _ _ hstep hl hu => sure_step hstep hu hl) hrun halong
        ⟨nofun, nofun, nofun⟩
    exact hsure.backed
  · intro labels r l r' hrun hstep hl hwin hquiet hpeer hyellow
    have hrun' : run step (init ctx) (labels ++ [l]) = some r' :=
      run_snoc_eq_some.mpr ⟨r, hrun, hstep⟩
    obtain ⟨hd, hcases⟩ := step_cases hstep
    have hbroken : (r.Enters l.label ∧ .failoverWin ∈ r.daemon.loop.kinds) ∨
        (r.daemon.pc = .eventWait .failoverSync ∧ l.label = .cpgDeliver .failover true ∧
          r.fresh = false ∧ r.flight.head? ≠ some r.stay) := by
      by_contra hboth
      simp only [not_or, not_and, not_not] at hboth
      exact hl hboth
    rcases hbroken with ⟨henters, hpending⟩ | ⟨hpc, hlabel, hfresh, htag⟩
    · have hleft : r'.fresh = false := by
        rcases hcases with ⟨-, hf, -⟩ | ⟨hnot, -⟩
        · exact hf
        · exact absurd henters hnot
      have hpc' : r'.daemon.pc = .eventWait .failoverSync := by
        rw [henters.2] at hd
        exact enter_failoverSync hd henters.1
      exact unbacked_of_stale hrun' hpc' hwin (.inl hleft) hquiet hpeer hyellow
    · have hleft : r'.fresh = false := by
        rcases hcases with ⟨⟨henter, -⟩, -⟩ | ⟨-, -, ⟨-, hf⟩ | ⟨-, hf⟩⟩
        · rw [hpc] at henter
          cases henter
        · rw [hf, hfresh]
        · simp [hf, hfresh, htag]
      have hpc' : r'.daemon.pc = .eventWait .failoverSync := by
        rw [hlabel] at hd
        cases change_of_step hd with
        | callback _ _ hout => exact (hpc ▸ hout.pc).eventWait
      exact unbacked_of_stale hrun' hpc' hwin (.inl hleft) hquiet hpeer hyellow

def unsent (labels : List Label) : List RoundLabel := labels.map fun label => ⟨label, []⟩

/-- A secondary that has multicast its failover message twice and has received it once. -/
def answeredOnce : List RoundLabel :=
  unsent (.clientNew :: Schedule.coloRunning ++ [.cpgLeft, .dispatch (.wake 1), .run]) ++
    [⟨.run, [true]⟩, ⟨.run, []⟩, ⟨.cpgRetransmit, [true, true]⟩,
      ⟨.cpgDeliver .failover true, []⟩]

def won : List RoundLabel := answeredOnce ++ unsent [.dispatch (.wake 2), .run]

/-- The winner starts a migration, during which the second copy arrives and after which it is in
doubt about the peer again. -/
def inDoubtAgain : List RoundLabel :=
  won ++ unsent ([.run, .io (.suspend .channel), .dispatch .io, .io (.yankReply .result), .run,
    .run, .run, .clientRequest 0 .startMigration, .dispatch (.wake 3), .run, .run,
    .io (.suspend .channel), .cpgDeliver .failover true, .dispatch .io, .io .write,
    .io (.suspend .channel), .dispatch .io, .io (.reply (some .result)), .run,
    .dispatch (.wake 4), .run] ++ Schedule.exchange)

theorem failover_backed_iff_fresh_winner :
    (∃ r, run step (init Schedule.context) won = some r ∧ r.daemon.pc = .enter .failover ∧
      r.fresh = true ∧ r.leftover = false) ∧
    ∃ labels r, run step (init Schedule.context) (inDoubtAgain ++ labels) = some r ∧
      ¬ r.Backed := by
  obtain ⟨hbacked, hneeded⟩ := failover_backed_iff_fresh Schedule.context
  constructor
  · have hcheck : (run step (init Schedule.context) won).map (fun r => r.daemon.pc) =
        some (.enter .failover) := by decide
    obtain ⟨r, hrun, hpc⟩ := Option.map_eq_some_iff.mp hcheck
    have halong : Along step FreshOnly (init Schedule.context) won := by decide
    obtain ⟨hfresh, hleftover⟩ := hbacked won r hrun halong hpc
    exact ⟨r, hrun, hpc, hfresh, hleftover⟩
  · have hcheck : (run step (init Schedule.context) inDoubtAgain).bind (fun r =>
        (step r ⟨.run, [true]⟩).map fun r' => (decide (r.FreshOnly ⟨.run, [true]⟩),
          decide (.failoverWin ∈ r'.daemon.loop.kinds), decide r'.daemon.Undisturbed,
          decide (.peerFailover ∈ r'.daemon.loop.kinds), r'.daemon.yellowCo.aborted)) =
        some (false, true, true, false, false) := by decide
    obtain ⟨r, hrun, hcheck⟩ := Option.bind_eq_some_iff.mp hcheck
    obtain ⟨r', hstep, hcheck⟩ := Option.map_eq_some_iff.mp hcheck
    simp only [Prod.mk.injEq, decide_eq_true_eq, decide_eq_false_iff_not] at hcheck
    obtain ⟨hfresh, hwin, hquiet, hpeer, hyellow⟩ := hcheck
    obtain ⟨labels, r'', hrun', hunbacked⟩ :=
      hneeded _ r _ r' hrun hstep hfresh hwin hquiet hpeer hyellow
    refine ⟨⟨.run, [true]⟩ :: labels, r'', ?_, hunbacked⟩
    exact run_append_eq_some.mpr ⟨r, hrun, run_cons_eq_some.mpr ⟨r', hstep, hrun'⟩⟩

/-- The second copy of the first round's message, still pending, wins the second round. -/
theorem failover_unbacked :
    ¬ ∀ (ctx : ColodContext) (labels : List RoundLabel) (r : Rounds),
      run step (init ctx) labels = some r → r.Backed := by
  intro hclaim
  have hcheck : (run step (init Schedule.context)
      (inDoubtAgain ++ [⟨.run, [true]⟩, ⟨.run, []⟩])).map (fun r =>
        (r.daemon.pc, r.fresh)) = some (.enter .failover, false) := by decide
  obtain ⟨r, hrun, hr⟩ := Option.map_eq_some_iff.mp hcheck
  simp only [Prod.mk.injEq] at hr
  have hbacked := hclaim Schedule.context _ r hrun hr.1
  rw [hr.2] at hbacked
  cases hbacked.1

end Rounds
end ColoDaemon
