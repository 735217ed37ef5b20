import ColoDaemon.FailoverArray

/-!
# From secondary to primary, and the fence of a failed node

A daemon that starts as a secondary sets `primary` only after it has gone through the stages of
`promotion` in their order and has sent every command of `failover_secondary`. `Staged` says how
far along it is at each program point. Once `STATE_FAILED` or `STATE_AUTOQUIT` is entered, the
program counter stays in the set `FencedPc`, from which no failover and no command but `stop`
is sent.
-/

namespace ColoDaemon
open Runs EventLoop
variable {s t : Daemon}

/-- What a secondary does before it runs the failover commands. -/
def promotion : List Obs :=
  [.resumed, .sent .failoverSync .failover, .popped .failoverSync .failoverWin, .yanked]

def Promoted (trace : List Obs) : Prop :=
  ∃ array, Commanded promotion .failoverSecondary array array trace

/-- How far a secondary is along its promotion. Program points that a secondary cannot be at
before it is promoted are excluded. -/
def Staged : Pc → MainState → List Obs → Prop
  | .start, _, _ => True
  | .enter newState, _, trace =>
    match newState with
    | .secondaryStartup | .secondaryWait => True
    | .secondaryColoRunning | .failoverSync => (promotion.take 1).Sublist trace
    | .failover => (promotion.take 3).Sublist trace
    | .primaryWait => Promoted trace
    | .failedPeerFailover | .failed | .quit | .autoquit => True
    | .primaryStartup | .primaryStartMigration | .primaryColoRunning => False
  | .eventWait site, state, trace =>
    match site with
    | .secondaryWait | .failed | .autoquit => True
    | .coloRunning => (promotion.take 1).Sublist trace
    | .failoverSync => state = .failoverSync ∧ (promotion.take 2).Sublist trace
    | .primaryWait | .startMigration => False
  | .qmpWait site _, _, _ => site = .secondaryWait
  | .grace, _, _ => False
  | .array co, state, trace => Commanding promotion .failoverSecondary (.array co) state trace
  | .exec site written inner, state, trace =>
    match site with
    | .secondaryStartup | .stop => True
    | .element co line =>
      Commanding promotion .failoverSecondary (.exec (.element co line) written inner) state trace
    | .migrationCapabilities | .migrateContinue | .migrateCancel => False
  | .yank _, state, trace => state = .failover ∧ (promotion.take 3).Sublist trace
  | .done, _, _ | .aborted, _, _ => True

theorem Promoted.append {trace : List Obs} (h : Promoted trace) (obs : List Obs) :
    Promoted (trace ++ obs) := by
  obtain ⟨array, ha⟩ := h
  exact ⟨array, ha.append obs⟩

theorem Staged.append {pc : Pc} {state : MainState} {trace : List Obs}
    (h : Staged pc state trace) (obs : List Obs) : Staged pc state (trace ++ obs) := by
  have hsub : ∀ {l : List Obs}, l.Sublist trace → l.Sublist (trace ++ obs) :=
    fun h => h.trans (List.sublist_append_left _ _)
  cases pc with
  | enter newState =>
    cases newState with
    | primaryWait => exact Promoted.append h obs
    | secondaryColoRunning | failoverSync | failover => exact hsub h
    | _ => exact h
  | eventWait site =>
    cases site with
    | coloRunning => exact hsub h
    | failoverSync => exact ⟨h.1, hsub h.2⟩
    | _ => exact h
  | array co =>
    have hc : Commanding promotion .failoverSecondary (.array co) state trace := h
    exact hc.append obs
  | exec site written inner =>
    cases site with
    | element co line =>
      have hc : Commanding promotion .failoverSecondary (.exec (.element co line) written inner)
        state trace := h
      exact hc.append obs
    | _ => exact h
  | yank inner => exact ⟨h.1, hsub h.2⟩
  | _ => exact h

/-- One more stage. -/
theorem promotion_snoc {n : ℕ} {o : Obs} {trace : List Obs}
    (h : (promotion.take n).Sublist trace) (ho : promotion[n]? = some o) :
    (promotion.take (n + 1)).Sublist (trace ++ [o]) := by
  rw [List.take_add_one, ho]
  exact h.append (List.Sublist.refl [o])

/-- The program points of a failover array are the ones `Commanding` is about. -/
theorem staged_cases {pc : Pc} {state : MainState} {trace : List Obs}
    (h : Staged pc state trace) :
    Commanding promotion .failoverSecondary pc state trace ∨
      (∀ co, pc ≠ .array co) ∧ ∀ co line written inner, pc ≠ .exec (.element co line) written inner := by
  cases pc with
  | array co => exact .inl h
  | exec site written inner =>
    cases site with
    | element co line => exact .inl h
    | _ => exact .inr ⟨nofun, nofun⟩
  | _ => exact .inr ⟨nofun, nofun⟩

theorem staged_of_commandingNext {pc : Pc} {state : MainState} {trace : List Obs}
    (h : CommandingNext promotion .failoverSecondary pc state trace) : Staged pc state trace := by
  rcases h with h | ⟨rfl, array, h⟩ | rfl | rfl
  · cases pc with
    | array co => exact h
    | exec site written inner =>
      cases site with
      | element co line => exact h
      | _ => exact h.elim
    | _ => exact h.elim
  · exact ⟨array, h⟩
  · trivial
  · trivial

theorem Staged.outside {pc pc' : Pc} {n n' : ℕ} {state : MainState} {trace : List Obs}
    (h : Staged pc state trace) (hpc : PcOutside pc n pc' n') : Staged pc' state trace := by
  cases hpc with
  | same => exact h
  | fired => exact h
  | releasedArray co => exact h
  | releasedExec co line => exact h

/-! ### One step -/

theorem staged_enter {newState : MainState} (hprimary : s.primary = false)
    (hs : Staged (.enter newState) s.state s.trace) :
    Promoted (colodMainCo s newState).trace ∨ (colodMainCo s newState).primary = false ∧
      Staged (colodMainCo s newState).pc (colodMainCo s newState).state
        (colodMainCo s newState).trace := by
  have hentered : ∀ {l : List Obs} {o}, l.Sublist s.trace → l.Sublist (s.trace ++ [o]) :=
    fun h => h.trans (List.sublist_append_left _ _)
  cases newState with
  | secondaryStartup => exact .inr ⟨hprimary, trivial⟩
  | secondaryWait => exact .inr ⟨hprimary, rfl⟩
  | secondaryColoRunning =>
    simp only [colodMainCo, Daemon.setInterrupting, Daemon.observe, hprimary,
      Bool.false_eq_true, if_false]
    exact .inr ⟨rfl, hentered hs⟩
  | primaryWait => exact .inl (Promoted.append hs _)
  | failoverSync => exact .inr ⟨hprimary, rfl, promotion_snoc (hentered hs) rfl⟩
  | failover => exact .inr ⟨hprimary, rfl, hentered hs⟩
  | failedPeerFailover | failed | autoquit => exact .inr ⟨hprimary, trivial⟩
  | quit =>
    simp only [colodMainCo, colodMainCoReturn]
    split_ifs
    · exact .inr ⟨hprimary, trivial⟩
    · exact .inr ⟨hprimary, trivial⟩
  | primaryStartup | primaryStartMigration | primaryColoRunning => exact hs.elim

theorem staged_event {site : EventWaitSite} {event : ColodEvent} {susp : Bool} {pc : Pc}
    {state : MainState} {trace : List Obs} (hs : Staged (.eventWait site) state trace)
    (hturn : EventTurn false site event susp pc) :
    Staged pc state (trace ++ [.popped state event]) := by
  cases hturn with
  | handled _ event newState _ hevent => cases event <;> cases hevent <;> trivial
  | secondaryWait => rfl
  | failover => exact List.Sublist.trans hs (List.sublist_append_left _ _)
  | yellow _ _ hprimary => cases hprimary
  | cancel | unexpected | migrate | leave => exact hs.elim
  | win =>
    obtain ⟨rfl, hsync⟩ := hs
    exact promotion_snoc hsync rfl
  | quit => trivial
  | autoquit => trivial
  | ignored => exact hs.append _

theorem staged_turn {pc pc' : Pc} {obs : List Obs} {susp : Bool}
    (hs : Staged pc s.state s.trace) (harray : ∀ co, pc ≠ .array co)
    (hturn : Turn s pc obs susp pc') : Staged pc' s.state (s.trace ++ obs) := by
  cases hturn with
  | resumed => exact List.sublist_append_right s.trace [Obs.resumed]
  | discard => trivial
  | preSwitchover | colo | running1 | running2 | yellow | grace => cases hs
  | timeout site hsite => cases hs; cases hsite
  | interrupted site hsite => cases hs; cases hsite
  | runningInterrupted site hsite => cases hs; simp at hsite
  | again site hpending => exact hs
  | assertion | released => trivial
  | arrayEnd | arrayInterrupted | element => exact absurd rfl (harray _)

theorem staged_exec {site : ExecSite} {written : Bool} {inner : InnerWait}
    {result : Except ColodError Unit} {obs : List Obs} {susp : Bool} {pc : Pc}
    (hs : Staged (.exec site written inner) s.state s.trace)
    (helement : ∀ co line, site ≠ .element co line)
    (hturn : ExecTurn s site result obs susp pc) : Staged pc s.state (s.trace ++ obs) := by
  cases hturn with
  | started | stopped | fails => trivial
  | interrupted _ hsite => rcases hsite with rfl | rfl <;> exact hs.elim
  | cancel _ hsite => rcases hsite with rfl | rfl <;> exact hs.elim
  | migrationStart | colo | cancelled => exact hs.elim
  | next co line => exact absurd rfl (helement co line)
  | broken co line => exact absurd rfl (helement co line)

theorem staged_step {label : Label} (h : step s label = some t) (hprimary : s.primary = false)
    (hs : Staged s.pc s.state s.trace) :
    Promoted t.trace ∨ t.primary = false ∧ Staged t.pc t.state t.trace := by
  have hcontinues : ∀ {u : Daemon} {obs susp pc}, Continues u t obs susp pc →
      u.primary = s.primary → u.state = s.state → u.trace = s.trace →
      Staged pc s.state (s.trace ++ obs) →
      Promoted t.trace ∨ t.primary = false ∧ Staged t.pc t.state t.trace := by
    intro u obs susp pc hc hp hst htr h
    rw [hc.primary, hc.pc, hc.state, hc.trace, hp, hst, htr]
    exact .inr ⟨hprimary, h⟩
  rcases staged_cases hs with hcommanding | ⟨harray, helement⟩
  · obtain ⟨hp, hnext⟩ := commanding_step h rfl hcommanding
    exact .inr ⟨hp.trans hprimary, staged_of_commandingNext hnext⟩
  cases change_of_step h with
  | callback _ _ hout =>
    obtain ⟨clients, htrace⟩ := hout.trace
    rw [hout.primary, hout.state, htrace]
    exact .inr ⟨hprimary, (hs.outside hout.pc).append _⟩
  | dispatch source _ hd =>
    obtain ⟨wakeSources, resumeSources, rfl⟩ := dispatch_eq hd
    exact .inr ⟨hprimary, hs⟩
  | start _ hpc ht =>
    subst ht
    refine .inr ⟨hprimary, ?_⟩
    simp [colodMainCoStart, Daemon.send, Daemon.observe, Daemon.goto, hprimary, Staged]
  | enter newState _ hpc ht => exact ht ▸ staged_enter hprimary (hpc ▸ hs)
  | wait site loop _ hpc _ ht => exact ht ▸ .inr ⟨hprimary, hs⟩
  | event site event loop susp pc _ hpc _ hturn hc =>
    exact hcontinues hc rfl rfl rfl (staged_event (hpc ▸ hs) (hprimary ▸ hturn))
  | turn pc pc' obs susp _ hpc hturn hc =>
    exact hcontinues hc rfl rfl rfl (staged_turn (hpc ▸ hs) (hpc ▸ harray) hturn)
  | suspend site written inner inner' _ hpc ht =>
    subst ht
    rw [hpc] at hs
    exact .inr ⟨hprimary, by cases site <;> exact hs⟩
  | write site inner _ hpc hc =>
    rw [hpc] at hs
    refine hcontinues hc rfl rfl rfl ?_
    cases site with
    | element co line => exact absurd hpc (helement co line false inner)
    | _ => exact hs
  | line site inner event _ hpc ht =>
    subst ht
    have hout := outside_notifyEvent s event
    obtain ⟨clients, htrace⟩ := hout.trace
    rw [hpc] at hs
    refine .inr ⟨hout.primary.trans hprimary, ?_⟩
    have hs' : Staged (.exec site true .idle) s.state s.trace := by cases site <;> exact hs
    simp only [Daemon.suspendAt, hout.state, htrace]
    exact hs'.append _
  | nestedYank site inner _ hpc ht => exact ht ▸ .inr ⟨hprimary, hs⟩
  | executed site written inner reply obs susp pc _ hpc _ hturn hc =>
    obtain ⟨loop, qmpError, didYank, he, -⟩ := executeCo_eq s reply
    have hs' : Staged (.exec site written inner) (colodExecuteCo s reply).2.state
        (colodExecuteCo s reply).2.trace := by
      rw [he]
      exact hpc ▸ hs
    have hsite : ∀ co line, site ≠ .element co line := by
      rintro co line rfl
      exact helement co line written inner hpc
    have hstaged := staged_exec hs' hsite hturn
    rw [he] at hstaged hc
    exact hcontinues hc rfl rfl rfl hstaged
  | yankSuspend inner inner' _ hpc ht =>
    subst ht
    rw [hpc] at hs
    exact .inr ⟨hprimary, hs⟩
  | yanked inner table _ hpc htable hc =>
    rw [hpc] at hs
    rw [hprimary] at htable
    cases htable
    have hyank : promotion.Sublist (s.trace ++ [.yanked]) := promotion_snoc hs.2 rfl
    refine hcontinues hc rfl rfl rfl ?_
    rw [hs.1]
    exact commanding_yanked hyank
  | yankFailed inner reply _ hpc _ hc => exact hcontinues hc rfl rfl rfl trivial

/-- Along every run a primary that started as a secondary has been promoted. -/
theorem promoted_of_run {ctx : ColodContext} {labels : List Label}
    (hctx : ctx.primaryStartup = false) (hrun : run step (Daemon.init ctx) labels = some t)
    (hprimary : t.primary = true) : Promoted t.trace := by
  have hinv : Promoted t.trace ∨ t.primary = false ∧ Staged t.pc t.state t.trace := by
    have hinit : Staged (Daemon.init ctx).pc (Daemon.init ctx).state (Daemon.init ctx).trace :=
      trivial
    refine run_invariant (P := fun u =>
      Promoted u.trace ∨ u.primary = false ∧ Staged u.pc u.state u.trace) ?_ hrun
      (.inr ⟨hctx, hinit⟩)
    intro u label v hstep hu
    rcases hu with hpromoted | ⟨hp, hs⟩
    · obtain ⟨obs, hobs⟩ := trace_append hstep
      exact .inl (hobs ▸ hpromoted.append obs)
    · exact staged_step hstep hp hs
  rcases hinv with h | ⟨h, -⟩
  · exact h
  · rw [h] at hprimary
    cases hprimary

/-! ### The fence -/

/-- The program points of a failed main coroutine. -/
def Pc.fenced : Pc → Bool
  | .enter .quit | .enter .autoquit => true
  | .eventWait .failed | .eventWait .autoquit => true
  | .exec .stop _ _ => true
  | .done | .aborted => true
  | _ => false

def Fenced (s : Daemon) : Prop := s.failed = true ∧ s.pc.fenced = true

/-- Neither a failover message nor a command other than `stop`. -/
def Obs.harmless : Obs → Prop
  | .sent _ message => message ≠ .failover
  | .command _ c => c = .stop
  | _ => True

/-- `t` comes after `s` and the fence was kept meanwhile. -/
structure KeepsFence (s t : Daemon) : Prop where
  fenced : Fenced t
  primary : t.primary = s.primary
  replication : t.replication = s.replication
  trace : ∃ obs, t.trace = s.trace ++ obs ∧ ∀ o ∈ obs, o.harmless

theorem KeepsFence.trans {u : Daemon} (h : KeepsFence s t) (h' : KeepsFence t u) :
    KeepsFence s u := by
  obtain ⟨obs, ht, hobs⟩ := h.trace
  obtain ⟨obs', ht', hobs'⟩ := h'.trace
  refine ⟨h'.fenced, h'.primary.trans h.primary, h'.replication.trans h.replication,
    obs ++ obs', by rw [ht', ht, List.append_assoc], ?_⟩
  intro o ho
  exact (List.mem_append.mp ho).elim (hobs o) (hobs' o)

theorem Continues.keepsFence {u : Daemon} {obs : List Obs} {susp : Bool} {pc : Pc}
    (h : Continues u t obs susp pc) (hu : u.failed = true) (hp : u.primary = s.primary)
    (hr : u.replication = s.replication) (ht : u.trace = s.trace) (hpc : pc.fenced = true)
    (hobs : ∀ o ∈ obs, o.harmless) : KeepsFence s t :=
  ⟨⟨h.failed.trans hu, h.pc ▸ hpc⟩, h.primary.trans hp, h.replication.trans hr, obs,
    ht ▸ h.trace, hobs⟩

theorem PcOutside.fenced {pc pc' : Pc} {n n' : ℕ} (h : PcOutside pc n pc' n')
    (hf : pc.fenced = true) : pc'.fenced = true := by
  cases h with
  | same => exact hf
  | fired | releasedArray | releasedExec => cases hf

theorem keepsFence_outside {allowed : List ColodEvent} (hs : Fenced s)
    (hout : Outside s t allowed) : KeepsFence s t := by
  obtain ⟨clients, htrace⟩ := hout.trace
  refine ⟨⟨hout.failed.trans hs.1, ?_⟩, hout.primary, hout.replication, _, htrace, ?_⟩
  · exact hout.pc.fenced hs.2
  · intro o ho
    obtain ⟨i, -, rfl⟩ := List.mem_map.mp ho
    trivial

theorem keepsFence_enter {newState : MainState} (hs : Fenced s) (hpc : s.pc = .enter newState) :
    KeepsFence s (colodMainCo s newState) := by
  have hf := hs.2
  rw [hpc] at hf
  cases newState with
  | quit =>
    have hreturn : ∀ u : Daemon, u.failed = s.failed → u.primary = s.primary →
        u.replication = s.replication → u.trace = s.trace ++ [.entered .quit] →
        KeepsFence s (colodMainCoReturn u) := by
      intro u hu hp hr ht
      unfold colodMainCoReturn
      split_ifs
      · exact ⟨⟨hu.trans hs.1, rfl⟩, hp, hr, _, ht, by simp [Obs.harmless]⟩
      · exact ⟨⟨hu.trans hs.1, rfl⟩, hp, hr, _, ht, by simp [Obs.harmless]⟩
    exact hreturn _ rfl rfl rfl rfl
  | autoquit =>
    exact ⟨⟨rfl, rfl⟩, rfl, rfl, [.entered .autoquit, .sent .autoquit .failed],
      List.append_assoc s.trace _ _, by simp [Obs.harmless]⟩
  | _ => cases hf

theorem fenced_event {site : EventWaitSite} {event : ColodEvent} {susp : Bool} {pc : Pc}
    {primary : Bool} (hs : (Pc.eventWait site).fenced = true)
    (hturn : EventTurn primary site event susp pc) : pc.fenced = true := by
  cases hturn with
  | handled site _ _ hsite => cases site <;> cases hs <;> cases hsite
  | quit | autoquit => rfl
  | ignored => exact hs
  | _ => cases hs

theorem keepsFence_step {label : Label} (h : step s label = some t) (hs : Fenced s) :
    KeepsFence s t := by
  have hf := hs.2
  cases change_of_step h with
  | callback _ _ hout => exact keepsFence_outside hs hout
  | dispatch source _ hd =>
    obtain ⟨wakeSources, resumeSources, rfl⟩ := dispatch_eq hd
    exact ⟨hs, rfl, rfl, [], by simp, by simp⟩
  | start _ hpc => rw [hpc] at hf; cases hf
  | enter newState _ hpc ht => exact ht ▸ keepsFence_enter hs hpc
  | wait site loop _ _ _ ht => exact ht ▸ ⟨hs, rfl, rfl, [], by simp, by simp⟩
  | event site event loop susp pc _ hpc _ hturn hc =>
    rw [hpc] at hf
    exact hc.keepsFence hs.1 rfl rfl rfl (fenced_event hf hturn) (by simp [Obs.harmless])
  | turn pc pc' obs susp _ hpc hturn hc =>
    rw [hpc] at hf
    cases hturn <;> cases hf
  | suspend site written inner inner' _ hpc ht =>
    rw [hpc] at hf
    exact ht ▸ ⟨⟨hs.1, by cases site <;> exact hf⟩, rfl, rfl, [], by simp [Daemon.suspendAt], by simp⟩
  | write site inner _ hpc hc =>
    rw [hpc] at hf
    cases site with
    | stop => exact hc.keepsFence hs.1 rfl rfl rfl rfl (by simp [Obs.harmless, ExecSite.command])
    | _ => cases hf
  | line site inner event _ hpc ht =>
    have hk := keepsFence_outside hs (outside_notifyEvent s event)
    rw [hpc] at hf
    exact ht ▸ ⟨⟨hk.fenced.1, by cases site <;> exact hf⟩, hk.primary, hk.replication, hk.trace⟩
  | nestedYank site inner _ _ ht => exact ht ▸ ⟨hs, rfl, rfl, [], by simp, by simp⟩
  | executed site written inner reply obs susp pc _ hpc _ hturn hc =>
    obtain ⟨loop, qmpError, didYank, he, -⟩ := executeCo_eq s reply
    rw [he] at hturn hc
    rw [hpc] at hf
    have hstop : site = .stop := by
      cases site <;> first | rfl | cases hf
    subst hstop
    generalize (colodExecuteCo s reply).1 = result at hturn
    cases hturn with
    | stopped => exact hc.keepsFence hs.1 rfl rfl rfl rfl (by simp)
    | fails _ _ hsite => simp at hsite
    | interrupted _ hsite => simp at hsite
    | cancel _ hsite => simp at hsite
  | yankSuspend _ _ _ hpc | yanked _ _ _ hpc | yankFailed _ _ _ hpc =>
    rw [hpc] at hf
    cases hf

/-- A daemon in `STATE_FAILED` or `STATE_AUTOQUIT` is behind the fence. -/
theorem fenced_of_state {ctx : ColodContext} {labels : List Label}
    (hrun : run step (Daemon.init ctx) labels = some s)
    (hstate : s.state = .failed ∨ s.state = .autoquit) : Fenced s := by
  refine run_invariant (P := fun u => u.state = .failed ∨ u.state = .autoquit → Fenced u) ?_ hrun
    ?_ hstate
  · intro u label v hstep hu hv
    rcases state_or_enter hstep with hsame | ⟨newState, hpc, rfl⟩
    · exact (keepsFence_step hstep (hu (hsame ▸ hv))).fenced
    · have hnew : (colodMainCo u newState).state = newState := colodMainCo_state u newState
      rw [hnew] at hv
      rcases hv with rfl | rfl <;> exact ⟨rfl, rfl⟩
  · intro h
    rcases h with h | h <;> cases h

theorem keepsFence_run {labels : List Label} (hrun : run step s labels = some t) (hs : Fenced s) :
    KeepsFence s t := by
  refine run_invariant (P := KeepsFence s) ?_ hrun ⟨hs, rfl, rfl, [], by simp, by simp⟩
  intro u label v hstep hu
  exact hu.trans (keepsFence_step hstep hu.fenced)

/-- `primary` is set only after the whole promotion, and once a failure state is entered `failed`,
`primary` and `replication` are final and no failover or command but `stop` follows. -/
theorem secondary_promotion_and_fence (ctx : ColodContext) :
    (ctx.primaryStartup = false → ∀ labels t, run step (Daemon.init ctx) labels = some t →
      t.primary = true → Promoted t.trace) ∧
    (∀ labels s, run step (Daemon.init ctx) labels = some s →
      s.state = .failed ∨ s.state = .autoquit → ∀ labels' t, run step s labels' = some t →
        t.failed = true ∧ t.primary = s.primary ∧ t.replication = s.replication ∧
        ∃ obs, t.trace = s.trace ++ obs ∧ ∀ o ∈ obs, o.harmless) := by
  constructor
  · intro hctx labels t hrun hprimary
    exact promoted_of_run hctx hrun hprimary
  · intro labels s hrun hstate labels' t hrun'
    have h := keepsFence_run hrun' (fenced_of_state hrun hstate)
    exact ⟨h.fenced.1, h.primary, h.replication, h.trace⟩

/-- A secondary with one failover command wins the arbitration. -/
def promotionSchedule : List Label :=
  [.clientNew, .clientRequest 0 (.setCommands .failoverSecondary ["{}"])] ++ Schedule.failoverSync ++
    [.cpgDeliver .failover true, .dispatch (.wake 2), .run, .run, .io (.yankReply .result), .run] ++
    Schedule.exchange ++ [.run, .run]

def failedSchedule : List Label :=
  Schedule.coloRunning ++ [.qmpHup, .dispatch (.wake 1), .run, .run]

theorem secondary_promotion_and_fence_run :
    (∃ t, run step (Daemon.init Schedule.context) promotionSchedule = some t ∧ t.primary = true ∧
      Promoted t.trace) ∧
    (∃ s t, run step (Daemon.init Schedule.context) failedSchedule = some s ∧ s.state = .failed ∧
      run step s (Schedule.exchange ++ [.run, .cpgDeliver .failover true]) = some t ∧ t.failed = true ∧
      ∃ obs, t.trace = s.trace ++ obs ∧ ∀ o ∈ obs, o.harmless) := by
  obtain ⟨hpromotion, hfence⟩ := secondary_promotion_and_fence Schedule.context
  constructor
  · have hprimary : (run step (Daemon.init Schedule.context) promotionSchedule).map (·.primary) =
        some true := by decide
    obtain ⟨t, hrun, hp⟩ := Option.map_eq_some_iff.mp hprimary
    exact ⟨t, hrun, hp, hpromotion rfl _ t hrun hp⟩
  · have hstate : (run step (Daemon.init Schedule.context) failedSchedule).map (·.state) =
        some .failed := by decide
    obtain ⟨s, hrun, hs⟩ := Option.map_eq_some_iff.mp hstate
    have hlater : (run step (Daemon.init Schedule.context) (failedSchedule ++
        (Schedule.exchange ++ [.run, .cpgDeliver .failover true]))).isSome = true := by decide
    obtain ⟨t, hrun'⟩ := Option.isSome_iff_exists.mp hlater
    obtain ⟨u, hu, hrun'⟩ := run_append_eq_some.mp hrun'
    have hsu : u = s := Option.some.inj (hu.symm.trans hrun)
    subst hsu
    obtain ⟨hfailed, -, -, htrace⟩ := hfence _ u hrun (.inl hs) _ t hrun'
    exact ⟨u, t, hrun, hs, hrun', hfailed, htrace⟩

end ColoDaemon
