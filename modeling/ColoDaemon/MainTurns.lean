import ColoDaemon.Runs
import ColoDaemon.StepCases

/-!
# Where the main coroutine goes next

`Continues s t obs susp pc` says that `t` is `s` at the program counter `pc` after the observations
`obs`, suspended when `susp` is set; fields that no decision of the coroutine depends on may have
changed. `EventTurn` lists the outcomes of every event that `colod_event_wait` returns, and `Turn`
those of every other call. A new state is entered by `colodMainCo` alone.
-/

namespace ColoDaemon
open EventLoop
variable {s t : Daemon}

/-- The fields that only `colodMainCo` and the callbacks change. -/
def Daemon.frame (s : Daemon) :=
  (s.ctx, s.state, s.failed, s.primary, s.replication, s.resumeSources, s.cpg, s.yellow,
    s.peerYellow, s.yellowCo, s.commands, s.clients, s.freed)

structure Continues (s t : Daemon) (obs : List Obs) (susp : Bool) (pc : Pc) : Prop where
  pc : t.pc = pc
  loop : t.loop = if susp then s.loop.yieldRemove else s.loop
  trace : t.trace = s.trace ++ obs
  frame : t.frame = s.frame

namespace Continues
variable {obs : List Obs} {susp : Bool} {pc : Pc}

theorem at_pc (s : Daemon) (pc : Pc) : Continues s (s.continueAt pc) [] false pc :=
  ⟨rfl, rfl, by simp [Daemon.continueAt], rfl⟩

/-- The program point is looked at again; fields outside the frame may have changed. -/
theorem stay (hpc : t.pc = pc) (hloop : t.loop = s.loop) (htrace : t.trace = s.trace)
    (hframe : t.frame = s.frame) : Continues s t [] false pc :=
  ⟨hpc, hloop, by rw [htrace, List.append_nil], hframe⟩

theorem suspended (s : Daemon) (pc : Pc) : Continues s (s.suspendAt pc) [] true pc :=
  ⟨rfl, rfl, by simp [Daemon.suspendAt], rfl⟩

/-- A change of fields outside the frame first. -/
theorem of_eq {u : Daemon} (h : Continues u t obs susp pc) (hloop : u.loop = s.loop)
    (htrace : u.trace = s.trace) (hframe : u.frame = s.frame) : Continues s t obs susp pc :=
  ⟨h.pc, hloop ▸ h.loop, htrace ▸ h.trace, h.frame.trans hframe⟩

theorem executeArray (s : Daemon) (table : CommandTable) :
    Continues s (s.executeArray table) [.began table (s.commands table)] false
      (.array ⟨table, s.commands table, 0, false⟩) := ⟨rfl, rfl, rfl, rfl⟩

theorem ctx (h : Continues s t obs susp pc) : t.ctx = s.ctx := congrArg (·.1) h.frame

theorem state (h : Continues s t obs susp pc) : t.state = s.state := congrArg (·.2.1) h.frame

theorem failed (h : Continues s t obs susp pc) : t.failed = s.failed := congrArg (·.2.2.1) h.frame

theorem primary (h : Continues s t obs susp pc) : t.primary = s.primary :=
  congrArg (·.2.2.2.1) h.frame

theorem replication (h : Continues s t obs susp pc) : t.replication = s.replication :=
  congrArg (·.2.2.2.2.1) h.frame

theorem resumeSources (h : Continues s t obs susp pc) : t.resumeSources = s.resumeSources :=
  congrArg (·.2.2.2.2.2.1) h.frame

theorem cpg (h : Continues s t obs susp pc) : t.cpg = s.cpg :=
  congrArg (·.2.2.2.2.2.2.1) h.frame

theorem yellowCo (h : Continues s t obs susp pc) : t.yellowCo = s.yellowCo :=
  congrArg (·.2.2.2.2.2.2.2.2.2.1) h.frame

theorem commands (h : Continues s t obs susp pc) : t.commands = s.commands :=
  congrArg (·.2.2.2.2.2.2.2.2.2.2.1) h.frame

theorem clients (h : Continues s t obs susp pc) : t.clients = s.clients :=
  congrArg (·.2.2.2.2.2.2.2.2.2.2.2.1) h.frame

theorem freed (h : Continues s t obs susp pc) : t.freed = s.freed :=
  congrArg (·.2.2.2.2.2.2.2.2.2.2.2.2) h.frame

/-- The queue keeps its contents. -/
theorem queue (h : Continues s t obs susp pc) : t.loop.queue = s.loop.queue := by
  rw [h.loop]
  cases susp <;> simp

end Continues

/-! ### After an event -/

/-- The states that only wait for events and treat the always interrupting ones alike. -/
def EventWaitSite.handles : EventWaitSite → Bool
  | .primaryWait | .failed | .autoquit => false
  | _ => true

/-- `EventTurn primary site event susp pc`: the call at `site` returned `event`. -/
inductive EventTurn (primary : Bool) : EventWaitSite → ColodEvent → Bool → Pc → Prop
  | handled (site : EventWaitSite) (event : ColodEvent) (newState : MainState)
      (hsite : site.handles = true) (hevent : handleAlwaysInterrupting event = some newState) :
    EventTurn primary site event false (.enter newState)
  | secondaryWait (event : ColodEvent) (hevent : eventAlwaysInterrupting event = false) :
    EventTurn primary .secondaryWait event true (.qmpWait .secondaryWait false)
  | failover : EventTurn primary .coloRunning .failoverSync false (.enter .failoverSync)
  | yellow (event : ColodEvent) (hevent : eventYellow event = true) (hprimary : primary = true) :
    EventTurn primary .coloRunning event false (.enter .failed)
  | cancel :
    EventTurn primary .startMigration .failoverSync false (.exec .migrateCancel false .channel)
  | unexpected (event : ColodEvent) (hevent : eventAlwaysInterrupting event = false)
      (hsync : event ≠ .failoverSync) :
    EventTurn primary .startMigration event false .aborted
  | migrate : EventTurn primary .primaryWait .startMigration false (.enter .primaryStartMigration)
  | leave (event : ColodEvent) (newState : MainState) (hpeer : event ≠ .peerFailover)
      (hevent : handleAlwaysInterrupting event = some newState) :
    EventTurn primary .primaryWait event false (.enter newState)
  | win : EventTurn primary .failoverSync .failoverWin false (.enter .failover)
  | quit (site : EventWaitSite) (hsite : site = .failed ∨ site = .autoquit) :
    EventTurn primary site .quit false (.enter .quit)
  | autoquit : EventTurn primary .failed .autoquit false (.enter .autoquit)
  | ignored (site : EventWaitSite) (event : ColodEvent)
      (hsite : site ≠ .secondaryWait ∧ site ≠ .startMigration)
      (hhandled : site.handles = true → eventAlwaysInterrupting event = false)
      (hsync : site = .failoverSync → event ≠ .failoverWin)
      (hcolo : site = .coloRunning → event ≠ .failoverSync)
      (hwait : site = .primaryWait → event ≠ .startMigration ∧
        (event = .peerFailover ∨ eventAlwaysInterrupting event = false))
      (hquit : site = .failed ∨ site = .autoquit → event ≠ .quit) :
    EventTurn primary site event false (.eventWait site)

theorem eventFailover_iff {event : ColodEvent} :
    eventFailover event = true ↔ event = .failoverSync := decide_eq_true_iff

theorem handle_isSome (event : ColodEvent) :
    (handleAlwaysInterrupting event).isSome = eventAlwaysInterrupting event := by
  cases event <;> rfl

theorem gotoHandled_turn (site : EventWaitSite) (event : ColodEvent)
    (hsite : site.handles = true) (hevent : eventAlwaysInterrupting event = true) :
    ∃ newState, EventTurn s.primary site event false (.enter newState) ∧
      Continues s (s.gotoHandled event) [] false (.enter newState) := by
  obtain ⟨newState, hn⟩ := Option.isSome_iff_exists.mp (handle_isSome event ▸ hevent)
  refine ⟨newState, .handled site event newState hsite hn, ?_⟩
  unfold Daemon.gotoHandled
  rw [hn]
  exact .at_pc s _

theorem eventWaitReturn_turn (site : EventWaitSite) (event : ColodEvent)
    (hpc : s.pc = .eventWait site) :
    ∃ susp pc, EventTurn s.primary site event susp pc ∧
      Continues s (eventWaitReturn s site event) [] susp pc := by
  cases site with
  | secondaryWait =>
    simp only [eventWaitReturn]
    split_ifs with hai hsync
    · exact ⟨_, _, (gotoHandled_turn .secondaryWait event rfl hai).choose_spec⟩
    · exact ⟨_, _, .secondaryWait event (by simpa using hai), (Continues.suspended _ _).of_eq rfl rfl rfl⟩
    · exact ⟨_, _, .secondaryWait event (by simpa using hai), .suspended s _⟩
  | coloRunning =>
    simp only [eventWaitReturn]
    split_ifs with hsync hai hyellow
    · cases eventFailover_iff.mp hsync
      exact ⟨_, _, .failover, .at_pc s _⟩
    · exact ⟨_, _, (gotoHandled_turn .coloRunning event rfl hai).choose_spec⟩
    · exact ⟨_, _, .yellow event hyellow.1 hyellow.2.1, .at_pc s _⟩
    · exact ⟨_, _, .ignored _ event (by simp) (fun _ => by simpa using hai) (by simp)
        (fun _ => mt eventFailover_iff.mpr hsync) (by simp) (by simp), .stay hpc rfl rfl rfl⟩
  | primaryWait =>
    cases event with
    | startMigration => exact ⟨_, _, .migrate, .at_pc s _⟩
    | failed => exact ⟨_, _, .leave .failed _ (by simp) rfl, .at_pc s _⟩
    | quit => exact ⟨_, _, .leave .quit _ (by simp) rfl, .at_pc s _⟩
    | autoquit => exact ⟨_, _, .leave .autoquit _ (by simp) rfl, .at_pc s _⟩
    | peerFailover | failoverSync | failoverWin | yellow | unyellow =>
      exact ⟨_, _, .ignored _ _ (by simp) (by simp [EventWaitSite.handles]) (by simp) (by simp)
        (by simp [eventAlwaysInterrupting]) (by simp), .stay hpc rfl rfl rfl⟩
  | startMigration =>
    simp only [eventWaitReturn]
    split_ifs with hsync
    · cases eventFailover_iff.mp hsync
      exact ⟨_, _, .cancel, .at_pc s _⟩
    · by_cases hai : eventAlwaysInterrupting event = true
      · exact ⟨_, _, (gotoHandled_turn .startMigration event rfl hai).choose_spec⟩
      · have hn : handleAlwaysInterrupting event = none := by
          rw [← Option.not_isSome_iff_eq_none, handle_isSome]
          exact hai
        refine ⟨_, _, .unexpected event (by simpa using hai)
          (mt eventFailover_iff.mpr hsync), ?_⟩
        simp only [Daemon.gotoHandled, hn]
        exact .at_pc s _
  | failoverSync =>
    simp only [eventWaitReturn]
    split_ifs with hwin hai
    · cases hwin
      exact ⟨_, _, .win, .at_pc s _⟩
    · exact ⟨_, _, (gotoHandled_turn .failoverSync event rfl hai).choose_spec⟩
    · exact ⟨_, _, .ignored _ event (by simp) (fun _ => by simpa using hai) (fun _ => hwin)
        (by simp) (by simp) (by simp), .stay hpc rfl rfl rfl⟩
  | failed =>
    have hstay : event ≠ .quit → EventTurn s.primary .failed event false (.eventWait .failed) :=
      fun hquit => .ignored _ event (by simp) (by simp [EventWaitSite.handles]) (by simp) (by simp)
        (by simp) fun _ => hquit
    cases event with
    | quit => exact ⟨_, _, .quit _ (.inl rfl), .at_pc s _⟩
    | autoquit =>
      simp only [eventWaitReturn]
      split_ifs
      · exact ⟨_, _, hstay (by simp), Continues.stay hpc rfl rfl rfl⟩
      · exact ⟨_, _, .autoquit, .at_pc s _⟩
    | peerFailover => exact ⟨_, _, hstay (by simp), Continues.stay hpc rfl rfl rfl⟩
    | failed | failoverSync | failoverWin | yellow | unyellow | startMigration =>
      exact ⟨_, _, hstay (by simp), .stay hpc rfl rfl rfl⟩
  | autoquit =>
    have hstay : event ≠ .quit → EventTurn s.primary .autoquit event false (.eventWait .autoquit) :=
      fun hquit => .ignored _ event (by simp) (by simp [EventWaitSite.handles]) (by simp) (by simp)
        (by simp) fun _ => hquit
    cases event with
    | quit => exact ⟨_, _, .quit _ (.inr rfl), .at_pc s _⟩
    | failed =>
      simp only [eventWaitReturn]
      split_ifs
      · exact ⟨_, _, hstay (by simp), Continues.stay hpc rfl rfl rfl⟩
      · exact ⟨_, _, hstay (by simp), .stay hpc rfl rfl rfl⟩
    | peerFailover => exact ⟨_, _, hstay (by simp), Continues.stay hpc rfl rfl rfl⟩
    | autoquit | failoverSync | failoverWin | yellow | unyellow | startMigration =>
      exact ⟨_, _, hstay (by simp), .stay hpc rfl rfl rfl⟩

/-! ### After a command array -/

def CommandTable.migrates : CommandTable → Bool
  | .migrationStart | .migrationSwitchover => true
  | _ => false

/-- The callers of `colod_execute_array_co` after the call. -/
inductive ArrayTurn (s : Daemon) : CommandTable → Option ColodError → Bool → Pc → Prop
  | interrupted (table : CommandTable) (err : Option ColodError) (htable : table.migrates = true)
      (herr : err = none ∨ err = some .interrupt) (hpending : s.pendingInterrupt = true) :
    ArrayTurn s table err false (.eventWait .startMigration)
  | assertion (table : CommandTable) (hpending : s.pendingInterrupt = false) :
    ArrayTurn s table (some .interrupt) false .aborted
  | preSwitchover (hpending : s.pendingInterrupt = false) :
    ArrayTurn s .migrationStart none true (.qmpWait .preSwitchover false)
  | migrateContinue (hpending : s.pendingInterrupt = false) :
    ArrayTurn s .migrationSwitchover none false (.exec .migrateContinue false .channel)
  | cancel (table : CommandTable) (htable : table.migrates = true) :
    ArrayTurn s table (some .qmp) false (.exec .migrateCancel false .channel)
  | fails (table : CommandTable) (err : ColodError)
      (herr : table.migrates = true → err ≠ .qmp ∧ err ≠ .interrupt) :
    ArrayTurn s table (some err) false (.enter .failed)
  | finished (table : CommandTable) (htable : table.migrates = false) :
    ArrayTurn s table none false (.enter .primaryWait)

theorem executeArrayReturn_turn (s : Daemon) (table : CommandTable) (err : Option ColodError) :
    ∃ susp pc, ArrayTurn s table err susp pc ∧
      Continues s (executeArrayReturn s table err) [] susp pc := by
  have hmigration : ∀ err, table.migrates = true → ∃ susp pc,
      ArrayTurn s table (some err) susp pc ∧ Continues s (migrationQmpError s err) [] susp pc := by
    intro err ht
    cases err with
    | interrupt =>
      unfold migrationQmpError migrationHandleEvent
      by_cases hp : s.pendingInterrupt = true
      · rw [if_pos hp]
        exact ⟨_, _, .interrupted _ _ ht (.inr rfl) hp, .at_pc s _⟩
      · rw [if_neg hp]
        exact ⟨_, _, .assertion _ (by simpa using hp), .at_pc s _⟩
    | qmp => exact ⟨_, _, .cancel _ ht, .at_pc s _⟩
    | fatal | timeout => exact ⟨_, _, .fails _ _ (by simp), .at_pc s _⟩
  cases err with
  | some err =>
    cases table with
    | migrationStart | migrationSwitchover => exact hmigration err rfl
    | failoverPrimary | failoverSecondary =>
      exact ⟨_, _, .fails _ err (by simp [CommandTable.migrates]), .at_pc s _⟩
  | none =>
    cases table with
    | migrationStart =>
      by_cases hp : s.pendingInterrupt = true
      · simp only [executeArrayReturn, migrationHandleEvent, if_pos hp]
        exact ⟨_, _, .interrupted _ _ rfl (.inl rfl) hp, .at_pc s _⟩
      · simp only [executeArrayReturn, if_neg hp]
        exact ⟨_, _, .preSwitchover (by simpa using hp),
          (Continues.suspended _ _).of_eq rfl rfl rfl⟩
    | migrationSwitchover =>
      by_cases hp : s.pendingInterrupt = true
      · simp only [executeArrayReturn, migrationHandleEvent, if_pos hp]
        exact ⟨_, _, .interrupted _ _ rfl (.inl rfl) hp, .at_pc s _⟩
      · simp only [executeArrayReturn, if_neg hp, colodRaiseTimeoutCoroutine]
        refine ⟨_, _, .migrateContinue (by simpa using hp), ?_⟩
        split_ifs
        · exact .at_pc s _
        · exact (Continues.at_pc _ _).of_eq rfl rfl rfl
    | failoverPrimary | failoverSecondary =>
      exact ⟨_, _, .finished _ rfl, (Continues.at_pc _ _).of_eq rfl rfl rfl⟩

/-- A failover array ends in `STATE_PRIMARY_WAIT`, or fails. -/
theorem ArrayTurn.of_failover {table : CommandTable} {err : Option ColodError} {susp : Bool}
    {pc : Pc} (h : ArrayTurn s table err susp pc) (htable : table.migrates = false) :
    susp = false ∧ (err = none ∧ pc = .enter .primaryWait ∨
      err ≠ none ∧ (pc = .enter .failed ∨ pc = .aborted)) := by
  cases h with
  | interrupted _ _ hmigrates => simp [htable] at hmigrates
  | cancel _ hmigrates => simp [htable] at hmigrates
  | preSwitchover | migrateContinue => simp [CommandTable.migrates] at htable
  | assertion | fails | finished => simp

/-! ### After a command -/

/-- The callers of `colod_execute_co` after the call; `s` is the state that the call leaves. -/
inductive ExecTurn (s : Daemon) :
    ExecSite → Except ColodError Unit → List Obs → Bool → Pc → Prop
  | started : ExecTurn s .secondaryStartup (.ok ()) [] false (.enter .secondaryWait)
  | fails (site : ExecSite) (err : ColodError)
      (hsite : site = .secondaryStartup ∨ site = .migrateCancel ∨
        (site = .migrationCapabilities ∨ site = .migrateContinue) ∧ err ≠ .qmp) :
    ExecTurn s site (.error err) [] false (.enter .failed)
  | interrupted (site : ExecSite) (hsite : site = .migrationCapabilities ∨ site = .migrateContinue)
      (hpending : s.pendingInterrupt = true) :
    ExecTurn s site (.ok ()) [] false (.eventWait .startMigration)
  | cancel (site : ExecSite) (hsite : site = .migrationCapabilities ∨ site = .migrateContinue) :
    ExecTurn s site (.error .qmp) [] false (.exec .migrateCancel false .channel)
  | migrationStart (hpending : s.pendingInterrupt = false) :
    ExecTurn s .migrationCapabilities (.ok ())
      [.began .migrationStart (s.commands .migrationStart)] false
      (.array ⟨.migrationStart, s.commands .migrationStart, 0, false⟩)
  | colo (hpending : s.pendingInterrupt = false) :
    ExecTurn s .migrateContinue (.ok ()) [] true (.qmpWait .colo false)
  | cancelled : ExecTurn s .migrateCancel (.ok ()) [] false (.enter .failoverSync)
  | stopped (result : Except ColodError Unit) :
    ExecTurn s .stop result [] false (.eventWait .failed)
  | next (co : ArrayFrame) (line : String) (result : Except ColodError Unit)
      (hresult : result = .ok () ∨ result = .error .qmp ∧ ignoreErrors co.table = true) :
    ExecTurn s (.element co line) result [] false (.array { co with i := co.i + 1 })
  | broken (co : ArrayFrame) (line : String) (err : ColodError) (susp : Bool) (pc : Pc)
      (herr : err = .qmp → ignoreErrors co.table = false)
      (hturn : ArrayTurn s co.table (some err) susp pc) :
    ExecTurn s (.element co line) (.error err) [] susp pc

theorem execReturn_turn (s : Daemon) (site : ExecSite) (result : Except ColodError Unit)
    (hresult : result = .error .fatal ∨ result = .ok () ∨ result = .error .qmp) :
    ∃ obs susp pc, ExecTurn s site result obs susp pc ∧
      Continues s (execReturn s site result) obs susp pc := by
  have hlow : ∀ {obs susp pc u}, Continues (qmpSetTimeoutLow s) u obs susp pc →
      Continues s u obs susp pc := fun h => h.of_eq rfl rfl rfl
  cases site with
  | secondaryStartup =>
    rcases hresult with rfl | rfl | rfl
    · exact ⟨_, _, _, .fails _ _ (.inl rfl), .at_pc s _⟩
    · exact ⟨_, _, _, .started, .at_pc s _⟩
    · exact ⟨_, _, _, .fails _ _ (.inl rfl), .at_pc s _⟩
  | migrationCapabilities =>
    rcases hresult with rfl | rfl | rfl
    · exact ⟨_, _, _, .fails _ _ (by simp), .at_pc s _⟩
    · by_cases hp : s.pendingInterrupt = true
      · simp only [execReturn, migrationHandleEvent, if_pos hp]
        exact ⟨_, _, _, .interrupted _ (.inl rfl) hp, .at_pc s _⟩
      · simp only [execReturn, if_neg hp]
        exact ⟨_, _, _, .migrationStart (by simpa using hp), .executeArray s _⟩
    · exact ⟨_, _, _, .cancel _ (.inl rfl), .at_pc s _⟩
  | migrateContinue =>
    rcases hresult with rfl | rfl | rfl
    · exact ⟨_, _, _, .fails _ _ (by simp), hlow (.at_pc _ _)⟩
    · by_cases hp : s.pendingInterrupt = true
      · have hp' : (qmpSetTimeoutLow s).pendingInterrupt = true := hp
        simp only [execReturn, migrationHandleEvent, if_pos hp, if_pos hp']
        exact ⟨_, _, _, .interrupted _ (.inr rfl) hp, hlow (.at_pc _ _)⟩
      · simp only [execReturn, if_neg hp]
        exact ⟨_, _, _, .colo (by simpa using hp), .suspended s _⟩
    · exact ⟨_, _, _, .cancel _ (.inr rfl), hlow (.at_pc _ _)⟩
  | migrateCancel =>
    rcases hresult with rfl | rfl | rfl
    · exact ⟨_, _, _, .fails _ _ (.inr (.inl rfl)), .at_pc s _⟩
    · exact ⟨_, _, _, .cancelled, .at_pc s _⟩
    · exact ⟨_, _, _, .fails _ _ (.inr (.inl rfl)), .at_pc s _⟩
  | stop =>
    refine ⟨_, _, _, .stopped result, ?_⟩
    rcases hresult with rfl | rfl | rfl <;> exact .at_pc s _
  | element co line =>
    have hbroken : ∀ err, (err = .qmp → ignoreErrors co.table = false) → ∃ obs susp pc,
        ExecTurn s (.element co line) (.error err) obs susp pc ∧
          Continues s (executeArrayReturn s co.table (some err)) obs susp pc := by
      intro err herr
      obtain ⟨susp, pc, hturn, h⟩ := executeArrayReturn_turn s co.table (some err)
      exact ⟨_, _, _, .broken co line err susp pc herr hturn, h⟩
    rcases hresult with rfl | rfl | rfl
    · simpa [execReturn, executeArrayElement] using hbroken .fatal (by simp)
    · exact ⟨_, _, _, .next co line _ (.inl rfl), .at_pc s _⟩
    · by_cases hi : ignoreErrors co.table = true
      · simp only [execReturn, executeArrayElement, hi, and_self, if_true]
        exact ⟨_, _, _, .next co line _ (.inr ⟨rfl, hi⟩), .at_pc s _⟩
      · simpa [execReturn, executeArrayElement, hi] using hbroken .qmp (by simpa using hi)

/-! ### The other calls -/

/-- A part of the running main coroutine that neither waits for an event nor enters a state. -/
inductive Turn (s : Daemon) : Pc → List Obs → Bool → Pc → Prop
  | resumed : Turn s (.qmpWait .secondaryWait true) [.resumed] false (.enter .secondaryColoRunning)
  | discard (hpending : s.pendingInterrupt = true) :
    Turn s (.qmpWait .secondaryWait false) [] false (.eventWait .secondaryWait)
  | preSwitchover :
    Turn s (.qmpWait .preSwitchover true)
      [.began .migrationSwitchover (s.commands .migrationSwitchover)] false
      (.array ⟨.migrationSwitchover, s.commands .migrationSwitchover, 0, false⟩)
  | colo : Turn s (.qmpWait .colo true) [] false (.enter .primaryColoRunning)
  | timeout (site : QmpWaitSite) (hsite : site.hasTimeout = true) :
    Turn s (.qmpWait site false) [] false (.enter .failed)
  | interrupted (site : QmpWaitSite) (hsite : site.hasTimeout = true)
      (hpending : s.pendingInterrupt = true) :
    Turn s (.qmpWait site false) [] false (.eventWait .startMigration)
  | running1 : Turn s (.qmpWait .running1 true) [] true (.qmpWait .running2 false)
  | running2 : Turn s (.qmpWait .running2 true) [] true .grace
  | runningInterrupted (site : QmpWaitSite) (hsite : site = .running1 ∨ site = .running2)
      (hpending : s.pendingInterrupt = true) :
    Turn s (.qmpWait site false) [] false (.eventWait .coloRunning)
  | again (site : QmpWaitSite) (hpending : s.pendingInterrupt = false) :
    Turn s (.qmpWait site false) [] true (.qmpWait site false)
  | assertion (site : QmpWaitSite) : Turn s (.qmpWait site false) [] false .aborted
  | yellow : Turn s .grace [] false (.enter .failed)
  | grace : Turn s .grace [] false (.eventWait .coloRunning)
  | arrayEnd (co : ArrayFrame) (susp : Bool) (pc : Pc) (hi : co.array[co.i]? = none)
      (hturn : ArrayTurn s co.table none susp pc) : Turn s (.array co) [] susp pc
  | arrayInterrupted (co : ArrayFrame) (line : String) (susp : Bool) (pc : Pc)
      (hi : co.array[co.i]? = some line) (hpending : s.pendingInterrupt = true)
      (hturn : ArrayTurn s co.table (some .interrupt) susp pc) : Turn s (.array co) [] susp pc
  | element (co : ArrayFrame) (line : String) (hi : co.array[co.i]? = some line)
      (hdangling : co.dangling = false) (hpending : s.pendingInterrupt = false) :
    Turn s (.array co) [] false (.exec (.element co line) false .channel)
  | released (co : ArrayFrame) (line : String) (hi : co.array[co.i]? = some line)
      (hdangling : co.dangling = true) : Turn s (.array co) [] false .aborted

theorem qmpEventWaitCo_turn (s : Daemon) (site : QmpWaitSite) (fired : Bool) :
    ∃ obs susp pc, Turn s (.qmpWait site fired) obs susp pc ∧
      Continues s (colodQmpEventWaitCo s site fired) obs susp pc := by
  cases fired with
  | true =>
    simp only [colodQmpEventWaitCo, if_true]
    cases site with
    | secondaryWait =>
      refine ⟨_, _, _, .resumed, ?_⟩
      simp only [qmpWaitReturn, colodRaiseTimeoutCoroutine]
      split_ifs <;> exact ⟨rfl, rfl, rfl, rfl⟩
    | preSwitchover => exact ⟨_, _, _, .preSwitchover, .executeArray s _⟩
    | colo => exact ⟨_, _, _, .colo, .at_pc s _⟩
    | running1 => exact ⟨_, _, _, .running1, .suspended s _⟩
    | running2 => exact ⟨_, _, _, .running2, .suspended s _⟩
  | false =>
    simp only [colodQmpEventWaitCo, Bool.false_eq_true, if_false]
    split_ifs with htimeout hpending hinterrupt
    · cases site with
      | preSwitchover => exact ⟨_, _, _, .timeout _ rfl, .at_pc s _⟩
      | colo => exact ⟨_, _, _, .timeout _ rfl, (Continues.at_pc _ _).of_eq rfl rfl rfl⟩
      | secondaryWait | running1 | running2 => simp [QmpWaitSite.hasTimeout] at htimeout
    · exact ⟨_, _, _, .assertion site, .at_pc s _⟩
    · exact ⟨_, _, _, .again site hinterrupt, .suspended s _⟩
    · have hp : s.pendingInterrupt = true := by simpa using hinterrupt
      have hp' : (qmpSetTimeoutLow s).pendingInterrupt = true := hp
      cases site with
      | secondaryWait =>
        have hq : eventqueuePending s.loop.queue = true := by simpa using hpending
        simp only [qmpWaitReturn, hq, if_true]
        exact ⟨_, _, _, .discard hp, .at_pc s _⟩
      | preSwitchover =>
        simp only [qmpWaitReturn, migrationQmpError, migrationHandleEvent, if_pos hp]
        exact ⟨_, _, _, .interrupted _ rfl hp, .at_pc s _⟩
      | colo =>
        simp only [qmpWaitReturn, migrationQmpError, migrationHandleEvent, if_pos hp']
        exact ⟨_, _, _, .interrupted _ rfl hp, (Continues.at_pc _ _).of_eq rfl rfl rfl⟩
      | running1 => exact ⟨_, _, _, .runningInterrupted _ (.inl rfl) hp, .at_pc s _⟩
      | running2 => exact ⟨_, _, _, .runningInterrupted _ (.inr rfl) hp, .at_pc s _⟩

theorem executeArrayCo_turn (s : Daemon) (co : ArrayFrame) :
    ∃ obs susp pc, Turn s (.array co) obs susp pc ∧
      Continues s (colodExecuteArrayCo s co) obs susp pc := by
  unfold colodExecuteArrayCo
  cases hi : co.array[co.i]? with
  | none =>
    obtain ⟨susp, pc, hturn, h⟩ := executeArrayReturn_turn s co.table none
    exact ⟨_, _, _, .arrayEnd co susp pc hi hturn, h⟩
  | some line =>
    simp only
    split_ifs with hd hp
    · exact ⟨_, _, _, .released co line hi hd, .at_pc s _⟩
    · obtain ⟨susp, pc, hturn, h⟩ := executeArrayReturn_turn s co.table (some .interrupt)
      exact ⟨_, _, _, .arrayInterrupted co line susp pc hi hp hturn, h⟩
    · exact ⟨_, _, _, .element co line hi (by simpa using hd) (by simpa using hp), .at_pc s _⟩

theorem graceReturn_turn (s : Daemon) :
    ∃ obs susp pc, Turn s .grace obs susp pc ∧ Continues s (graceReturn s) obs susp pc := by
  unfold graceReturn
  split_ifs
  · exact ⟨_, _, _, .yellow, .at_pc s _⟩
  · exact ⟨_, _, _, .grace, .at_pc s _⟩

theorem yankReturn_turn (s : Daemon) (reply : YankReply) :
    (∃ table, reply = .result ∧
      table = (if s.primary then CommandTable.failoverPrimary else .failoverSecondary) ∧
      Continues s (yankReturn s reply) [.yanked, .began table (s.commands table)] false
        (.array ⟨table, s.commands table, 0, false⟩)) ∨
    (reply ≠ .result ∧ Continues s (yankReturn s reply) [] false (.enter .failed)) := by
  cases reply with
  | result =>
    exact .inl ⟨_, rfl, rfl, rfl, rfl, List.append_assoc s.trace _ _, rfl⟩
  | error => exact .inr ⟨by simp, .at_pc s _⟩
  | failed => exact .inr ⟨by simp, (Continues.at_pc _ _).of_eq rfl rfl rfl⟩

/-! ### One step -/

/-- Everything a step can do. -/
inductive Change (s t : Daemon) : Label → Prop
  | callback {label : Label} (hrun : s.running = false) (h : s.callback label = some t)
      (hout : Outside s t label.raises) : Change s t label
  | dispatch (source : Source) (hrun : s.running = false) (h : s.dispatch source = some t) :
    Change s t (.dispatch source)
  | start (hrun : s.running = true) (hpc : s.pc = .start) (h : t = colodMainCoStart s) :
    Change s t .run
  | enter (newState : MainState) (hrun : s.running = true) (hpc : s.pc = .enter newState)
      (h : t = colodMainCo s newState) : Change s t .run
  | wait (site : EventWaitSite) (loop : EventLoop) (hrun : s.running = true)
      (hpc : s.pc = .eventWait site) (hwait : colodEventWait s.loop = (none, loop))
      (h : t = { s with loop }) : Change s t .run
  | event (site : EventWaitSite) (event : ColodEvent) (loop : EventLoop) (susp : Bool) (pc : Pc)
      (hrun : s.running = true) (hpc : s.pc = .eventWait site)
      (hwait : colodEventWait s.loop = (some event, loop))
      (hturn : EventTurn s.primary site event susp pc)
      (h : Continues { s with loop } t [.popped s.state event] susp pc) : Change s t .run
  | turn (pc pc' : Pc) (obs : List Obs) (susp : Bool) (hrun : s.running = true) (hpc : s.pc = pc)
      (hturn : Turn s pc obs susp pc') (h : Continues s t obs susp pc') : Change s t .run
  | suspend (site : ExecSite) (written : Bool) (inner inner' : InnerWait)
      (hrun : s.running = true) (hpc : s.pc = .exec site written inner)
      (h : t = s.suspendAt (.exec site written inner')) : Change s t (.io (.suspend inner'))
  | write (site : ExecSite) (inner : InnerWait) (hrun : s.running = true)
      (hpc : s.pc = .exec site false inner)
      (h : Continues s t [.command s.state site.command] false (.exec site true inner)) :
    Change s t (.io .write)
  | line (site : ExecSite) (inner : InnerWait) (event : QmpEvent) (hrun : s.running = true)
      (hpc : s.pc = .exec site true inner)
      (h : t = (notifyEvent s event).suspendAt (.exec site true .idle)) :
    Change s t (.io (.event event))
  | nestedYank (site : ExecSite) (inner : InnerWait) (hrun : s.running = true)
      (hpc : s.pc = .exec site true inner) (h : t = { s with didYank := true }) :
    Change s t (.io .yanked)
  | executed (site : ExecSite) (written : Bool) (inner : InnerWait) (reply : Option QmpReply)
      (obs : List Obs) (susp : Bool) (pc : Pc) (hrun : s.running = true)
      (hpc : s.pc = .exec site written inner) (hwritten : reply.isSome = true → written = true)
      (hturn : ExecTurn (colodExecuteCo s reply).2 site (colodExecuteCo s reply).1 obs susp pc)
      (h : Continues (colodExecuteCo s reply).2 t obs susp pc) : Change s t (.io (.reply reply))
  | yankSuspend (inner inner' : InnerWait) (hrun : s.running = true) (hpc : s.pc = .yank inner)
      (h : t = s.suspendAt (.yank inner')) : Change s t (.io (.suspend inner'))
  | yanked (inner : InnerWait) (table : CommandTable) (hrun : s.running = true)
      (hpc : s.pc = .yank inner)
      (htable : table = if s.primary then CommandTable.failoverPrimary else .failoverSecondary)
      (h : Continues s t [.yanked, .began table (s.commands table)] false
        (.array ⟨table, s.commands table, 0, false⟩)) : Change s t (.io (.yankReply .result))
  | yankFailed (inner : InnerWait) (reply : YankReply) (hrun : s.running = true)
      (hpc : s.pc = .yank inner) (hreply : reply ≠ .result)
      (h : Continues s t [] false (.enter .failed)) : Change s t (.io (.yankReply reply))

theorem change_of_mainRun (hrun : s.running = true) (h : mainRun s = some t) :
    Change s t .run := by
  unfold mainRun at h
  split at h
  · rename_i hpc
    exact .start hrun hpc (Option.some.inj h).symm
  · rename_i newState hpc
    exact .enter newState hrun hpc (Option.some.inj h).symm
  · rename_i site hpc
    split at h
    · rename_i loop hwait
      exact .wait site loop hrun hpc hwait (Option.some.inj h).symm
    · rename_i event loop hwait
      cases h
      obtain ⟨susp, pc, hturn, hc⟩ := eventWaitReturn_turn
        (s := { s with loop }.observe (.popped s.state event)) site event hpc
      exact .event site event loop susp pc hrun hpc hwait hturn
        ⟨hc.pc, hc.loop, hc.trace.trans (List.append_nil _), hc.frame⟩
  · rename_i site fired hpc
    cases h
    obtain ⟨obs, susp, pc, hturn, hc⟩ := qmpEventWaitCo_turn s site fired
    exact .turn _ pc obs susp hrun hpc hturn hc
  · rename_i hpc
    cases h
    obtain ⟨obs, susp, pc, hturn, hc⟩ := graceReturn_turn s
    exact .turn _ pc obs susp hrun hpc hturn hc
  · rename_i co hpc
    cases h
    obtain ⟨obs, susp, pc, hturn, hc⟩ := executeArrayCo_turn s co
    exact .turn _ pc obs susp hrun hpc hturn hc
  all_goals cases h

theorem executeCo_fst' (s : Daemon) (reply : Option QmpReply) :
    (colodExecuteCo s reply).1 = .error .fatal ∨ (colodExecuteCo s reply).1 = .ok () ∨
      (colodExecuteCo s reply).1 = .error .qmp := by
  rcases executeCo_fst s reply with h | ⟨-, h⟩ | ⟨-, h⟩
  · exact .inl h
  · exact .inr (.inl h)
  · exact .inr (.inr h)

theorem change_of_step {label : Label} (h : step s label = some t) : Change s t label := by
  rcases step_cases h with ⟨hrun, hc⟩ | ⟨source, rfl, hrun, hd⟩ | ⟨rfl, hrun, hm⟩ | ⟨x, rfl, hrun, hio⟩
  · exact .callback hrun hc (outside_callback hc)
  · exact .dispatch source hrun hd
  · exact change_of_mainRun hrun hm
  · rcases io_cases hio with ⟨site, written, inner, inner', hpc, rfl, ht⟩ |
      ⟨site, inner, hpc, rfl, ht⟩ | ⟨site, inner, event, hpc, rfl, ht⟩ |
      ⟨site, inner, hpc, rfl, ht⟩ | ⟨site, written, inner, reply, hpc, rfl, hw, ht⟩ |
      ⟨inner, inner', hpc, rfl, ht⟩ | ⟨inner, reply, hpc, rfl, ht⟩
    · exact .suspend site written inner inner' hrun hpc ht
    · exact .write site inner hrun hpc (ht ▸ ⟨rfl, rfl, rfl, rfl⟩)
    · exact .line site inner event hrun hpc ht
    · exact .nestedYank site inner hrun hpc ht
    · obtain ⟨obs, susp, pc, hturn, hc⟩ := execReturn_turn (colodExecuteCo s reply).2 site
        (colodExecuteCo s reply).1 (executeCo_fst' s reply)
      exact .executed site written inner reply obs susp pc hrun hpc hw hturn (ht ▸ hc)
    · exact .yankSuspend inner inner' hrun hpc ht
    · rcases yankReturn_turn s reply with ⟨table, rfl, htable, hc⟩ | ⟨hreply, hc⟩
      · exact .yanked inner table hrun hpc htable (ht ▸ hc)
      · exact .yankFailed inner reply hrun hpc hreply (ht ▸ hc)

theorem colodMainCo_state (s : Daemon) (newState : MainState) :
    (colodMainCo s newState).state = newState := by
  have hreturn : ∀ u : Daemon, (colodMainCoReturn u).state = u.state := by
    intro u
    unfold colodMainCoReturn
    split_ifs <;> rfl
  cases newState with
  | quit => exact hreturn _
  | secondaryColoRunning | primaryColoRunning =>
    simp only [colodMainCo]
    split_ifs <;> rfl
  | _ => rfl

theorem colodMainCo_trace (s : Daemon) (newState : MainState) :
    ∃ obs, (colodMainCo s newState).trace = s.trace ++ .entered newState :: obs := by
  have hreturn : ∀ u : Daemon, (colodMainCoReturn u).trace = u.trace := by
    intro u
    unfold colodMainCoReturn
    split_ifs <;> rfl
  cases newState with
  | quit => exact ⟨[], hreturn _⟩
  | secondaryColoRunning | primaryColoRunning =>
    simp only [colodMainCo]
    split_ifs <;> exact ⟨[], rfl⟩
  | failoverSync | failed | autoquit => exact ⟨_, List.append_assoc s.trace _ _⟩
  | _ => exact ⟨[], rfl⟩

/-- The state changes only when the main coroutine enters a new one. -/
theorem state_or_enter {label : Label} (h : step s label = some t) :
    t.state = s.state ∨ ∃ newState, s.pc = .enter newState ∧ t = colodMainCo s newState := by
  cases change_of_step h with
  | callback _ _ hout => exact .inl hout.state
  | dispatch source _ hd =>
    obtain ⟨wakeSources, resumeSources, rfl⟩ := dispatch_eq hd
    exact .inl rfl
  | start _ _ ht => exact .inl (ht ▸ rfl)
  | enter newState _ hpc ht => exact .inr ⟨newState, hpc, ht⟩
  | wait _ _ _ _ _ ht | nestedYank _ _ _ _ ht | suspend _ _ _ _ _ _ ht
  | yankSuspend _ _ _ _ ht => exact .inl (ht ▸ rfl)
  | event _ _ _ _ _ _ _ _ _ hc | turn _ _ _ _ _ _ _ hc | write _ _ _ _ hc
  | yanked _ _ _ _ _ hc | yankFailed _ _ _ _ _ hc => exact .inl hc.state
  | line _ _ event _ _ ht => exact .inl (ht ▸ (outside_notifyEvent s event).state)
  | executed _ _ _ reply _ _ _ _ _ _ _ hc =>
    exact .inl (hc.state.trans (outside_executeCo s reply).state)

/-- The trace only grows. -/
theorem trace_append {label : Label} (h : step s label = some t) :
    ∃ obs, t.trace = s.trace ++ obs := by
  cases change_of_step h with
  | callback _ _ hout =>
    obtain ⟨clients, htrace⟩ := hout.trace
    exact ⟨_, htrace⟩
  | dispatch source _ hd =>
    obtain ⟨wakeSources, resumeSources, rfl⟩ := dispatch_eq hd
    exact ⟨[], by simp⟩
  | start _ _ ht =>
    subst ht
    exact ⟨[.sent s.state .hello], rfl⟩
  | enter newState _ hpc ht =>
    obtain ⟨obs, hobs⟩ := colodMainCo_trace s newState
    exact ⟨_, ht ▸ hobs⟩
  | wait _ _ _ _ _ ht | nestedYank _ _ _ _ ht | suspend _ _ _ _ _ _ ht
  | yankSuspend _ _ _ _ ht => exact ⟨[], by simp [ht, Daemon.suspendAt]⟩
  | event _ _ _ _ _ _ _ _ _ hc | turn _ _ _ _ _ _ _ hc | write _ _ _ _ hc
  | yanked _ _ _ _ _ hc | yankFailed _ _ _ _ _ hc => exact ⟨_, hc.trace⟩
  | line _ _ event _ _ ht =>
    obtain ⟨clients, htrace⟩ := (outside_notifyEvent s event).trace
    subst ht
    exact ⟨_, htrace⟩
  | executed _ _ _ reply _ _ _ _ _ _ _ hc =>
    obtain ⟨clients, htrace⟩ := (outside_executeCo s reply).trace
    exact ⟨_, by rw [hc.trace, htrace, List.append_assoc]⟩

/-! ### Invariants of the event loop -/

/-- The events a step with this label may queue. -/
def Label.queued : Label → List ColodEvent
  | .io (.event _) => [.failoverSync, .yellow, .unyellow]
  | .io (.reply _) => [.failed, .failoverSync]
  | label => label.raises

theorem Label.queued_of_callback {label : Label} (h : s.callback label = some t) :
    label.queued = label.raises := by
  cases label with
  | io => cases h
  | _ => rfl

/-- What the main coroutine's operations on the event loop preserve. -/
structure MainInvariant (P : EventLoop → Prop) : Prop where
  setInterrupting : ∀ l events, P l → P (l.setInterrupting events)
  yieldRemove : ∀ l, P l → P l.yieldRemove
  wait : ∀ l event loop, colodEventWait l = (event, loop) → P l → P loop
  dispatch : ∀ (u v : Daemon) source, u.running = false → u.dispatch source = some v →
    P u.loop → P v.loop

namespace MainInvariant
variable {P : EventLoop → Prop}

theorem continues {obs : List Obs} {susp : Bool} {pc : Pc} (hP : MainInvariant P)
    (hc : Continues s t obs susp pc) (hs : P s.loop) : P t.loop := by
  rw [hc.loop]
  cases susp with
  | true => exact hP.yieldRemove _ hs
  | false => exact hs

theorem enter (hP : MainInvariant P) (newState : MainState) (hs : P s.loop) :
    P (colodMainCo s newState).loop := by
  cases newState with
  | secondaryWait => exact hP.yieldRemove _ (hP.setInterrupting _ _ hs)
  | secondaryColoRunning | primaryColoRunning =>
    simp only [colodMainCo]
    split_ifs
    · exact hP.yieldRemove _ (hP.setInterrupting _ _ hs)
    · exact hP.setInterrupting _ _ hs
  | primaryStartMigration | failover => exact hP.setInterrupting _ _ hs
  | quit =>
    simp only [colodMainCo, colodMainCoReturn]
    split_ifs
    · exact hP.yieldRemove _ hs
    · exact hs
  | _ => exact hs

/-- The events a step queues are queued before anything else it does to the loop. -/
theorem step_queued {label : Label} (hP : MainInvariant P) (h : step s label = some t)
    (hs : ∀ events, (∀ e ∈ events, e ∈ label.queued) → P (s.loop.queueAll events)) : P t.loop := by
  have hsame : P s.loop := hs [] (by simp)
  have hout : ∀ {u : Daemon}, Outside s u label.queued → P u.loop := by
    intro u hout
    obtain ⟨events, hloop, hevents⟩ := hout.loop
    exact hloop ▸ hs events hevents
  cases change_of_step h with
  | callback _ hc ho => exact hout (ho.mono fun e he => Label.queued_of_callback hc ▸ he)
  | dispatch source hrun hd => exact hP.dispatch _ _ source hrun hd hsame
  | start _ _ ht => exact ht ▸ hsame
  | enter newState _ _ ht => exact ht ▸ hP.enter newState hsame
  | wait site loop _ _ hwait ht => exact ht ▸ hP.wait _ _ _ hwait hsame
  | event _ _ loop _ _ _ _ hwait _ hc => exact hP.continues hc (hP.wait _ _ _ hwait hsame)
  | turn _ _ _ _ _ _ _ hc | write _ _ _ _ hc | yanked _ _ _ _ _ hc
  | yankFailed _ _ _ _ _ hc => exact hP.continues hc hsame
  | nestedYank _ _ _ _ ht => exact ht ▸ hsame
  | suspend _ _ _ _ _ _ ht | yankSuspend _ _ _ _ ht => exact ht ▸ hP.yieldRemove _ hsame
  | line _ _ event _ _ ht => exact ht ▸ hP.yieldRemove _ (hout (outside_notifyEvent s event))
  | executed _ _ _ reply _ _ _ _ _ _ _ hc =>
    exact hP.continues hc (hout (outside_executeCo s reply))

theorem step {label : Label} (hP : MainInvariant P) (h : step s label = some t)
    (hs : ∀ events, P (s.loop.queueAll events)) : P t.loop :=
  hP.step_queued h fun events _ => hs events

/-- An invariant that queueing preserves as well holds along every run. -/
theorem run (hP : MainInvariant P) (hqueue : ∀ l event, P l → P (colodEventQueue l event))
    {labels : List Label} (hrun : Runs.run ColoDaemon.step s labels = some t) (hs : P s.loop) :
    P t.loop :=
  Runs.run_invariant (P := fun u => P u.loop)
    (fun _ _ _ h hu => hP.step h fun _ => queueAll_preserves (P := P) hqueue hu) hrun hs

/-- What depends on the queue alone is not affected by a dispatch. -/
theorem of_queue {P : EventQueue → Prop}
    (hset : ∀ q events, P q → P (eventqueueSetInterrupting q events))
    (hremove : ∀ q event queue, eventqueueRemove q = some (event, queue) → P q → P queue) :
    MainInvariant fun l => P l.queue where
  setInterrupting l events h := hset _ _ h
  yieldRemove l h := by simpa using h
  wait l event loop hwait h := by
    cases event with
    | none =>
      obtain ⟨-, rfl⟩ := colodEventWait_none hwait
      simpa using h
    | some event =>
      obtain ⟨a, queue, hr, -, -, rfl⟩ := colodEventWait_some hwait
      exact hremove _ _ _ hr h
  dispatch u v source hrun hd h := by
    obtain ⟨wakeSources, resumeSources, rfl⟩ := dispatch_eq hd
    exact h

end MainInvariant

theorem interruptFirst_invariant : MainInvariant fun l => l.queue.InterruptFirst :=
  .of_queue (fun q events _ => EventQueue.interruptFirst_setInterrupting q events)
    (fun _ _ _ hr h => h.remove hr)

theorem interruptFirst_step {label : Label} (h : step s label = some t)
    (hs : s.loop.queue.InterruptFirst) : t.loop.queue.InterruptFirst :=
  interruptFirst_invariant.step h fun _ => queueAll_interruptFirst hs

/-! ### Where the main coroutine suspends -/

def Pc.isWait : Pc → Bool
  | .qmpWait .. | .grace => true
  | _ => false

theorem EventTurn.isWait {primary : Bool} {site : EventWaitSite} {event : ColodEvent} {pc : Pc}
    (h : EventTurn primary site event true pc) : pc.isWait = true := by
  cases h
  rfl

theorem ArrayTurn.isWait {table : CommandTable} {err : Option ColodError} {pc : Pc}
    (h : ArrayTurn s table err true pc) : pc.isWait = true := by
  cases h
  rfl

theorem Turn.isWait {pc pc' : Pc} {obs : List Obs} (h : Turn s pc obs true pc') :
    pc'.isWait = true := by
  cases h with
  | arrayEnd _ _ _ _ hturn => exact hturn.isWait
  | arrayInterrupted _ _ _ _ _ _ hturn => exact hturn.isWait
  | running1 | running2 | again => rfl

theorem ExecTurn.isWait {site : ExecSite} {result : Except ColodError Unit} {obs : List Obs}
    {pc : Pc} (h : ExecTurn s site result obs true pc) : pc.isWait = true := by
  cases h with
  | broken _ _ _ _ _ _ hturn => exact hturn.isWait
  | colo => rfl

theorem running_continues {u : Daemon} {obs : List Obs} {susp : Bool} {pc : Pc}
    (hc : Continues u t obs susp pc) : t.running = (!susp && u.running) := by
  unfold Daemon.running
  rw [hc.loop]
  cases susp <;> simp

/-- The program points that the coroutine passes without returning to the main loop. -/
def Pc.passes : Pc → Bool
  | .enter _ | .array _ => true
  | _ => false

theorem Pc.passes_of_isWait {pc : Pc} (h : pc.isWait = true) : pc.passes = false := by
  cases pc <;> first | rfl | cases h

theorem running_step {label : Label} (h : step s label = some t)
    (hs : s.pc.passes = true → s.running = true) : t.pc.passes = true → t.running = true := by
  have hcontinues : ∀ {u : Daemon} {obs susp pc}, Continues u t obs susp pc →
      u.running = true → (susp = true → pc.isWait = true) → t.pc.passes = true →
        t.running = true := by
    intro u obs susp pc hc hu hwait hpasses
    rw [hc.pc] at hpasses
    cases susp with
    | false => simpa [running_continues hc] using hu
    | true =>
      rw [Pc.passes_of_isWait (hwait rfl)] at hpasses
      cases hpasses
  have helse : t.pc.passes = false → t.pc.passes = true → t.running = true := by
    intro hfalse htrue
    rw [hfalse] at htrue
    cases htrue
  cases change_of_step h with
  | callback hrun _ hout =>
    intro hpasses
    have hpc := hout.pc
    have hpasses' : s.pc.passes = true := by
      generalize s.pc = pc, s.resumeSources = n, t.pc = pc', t.resumeSources = n' at hpc hpasses ⊢
      cases hpc <;> exact hpasses
    rw [hs hpasses'] at hrun
    cases hrun
  | dispatch source _ hd =>
    obtain ⟨wakeSources, resumeSources, rfl⟩ := dispatch_eq hd
    exact fun _ => rfl
  | start hrun _ ht => exact fun _ => ht ▸ hrun
  | enter newState hrun _ ht =>
    subst ht
    cases newState with
    | secondaryColoRunning | primaryColoRunning =>
      simp only [colodMainCo]
      split_ifs
      · exact nofun
      · exact fun _ => hrun
    | quit =>
      simp only [colodMainCo, colodMainCoReturn]
      split_ifs
      · exact nofun
      · exact nofun
    | secondaryWait => exact nofun
    | _ => exact fun _ => hrun
  | wait site loop _ hpc _ ht => exact helse (by rw [ht]; simp [hpc, Pc.passes])
  | event site event loop susp pc hrun _ hwait hturn hc =>
    obtain ⟨a, queue, -, -, -, rfl⟩ := colodEventWait_some hwait
    refine hcontinues hc (by simpa [Daemon.running] using hrun) ?_
    rintro rfl
    exact hturn.isWait
  | turn pc pc' obs susp hrun _ hturn hc =>
    refine hcontinues hc hrun ?_
    rintro rfl
    exact hturn.isWait
  | suspend _ _ _ _ _ _ ht | line _ _ _ _ _ ht | yankSuspend _ _ _ _ ht =>
    exact helse (by rw [ht]; rfl)
  | nestedYank site inner _ hpc ht => exact helse (by rw [ht]; simp [hpc, Pc.passes])
  | write _ _ hrun _ hc => exact hcontinues hc hrun nofun
  | executed site written inner reply obs susp pc hrun _ _ hturn hc =>
    obtain ⟨loop, qmpError, didYank, he, events, hloop, -⟩ := executeCo_eq s reply
    refine hcontinues hc (by simpa [he, hloop, Daemon.running] using hrun) ?_
    rintro rfl
    exact hturn.isWait
  | yanked _ _ hrun _ _ hc | yankFailed _ _ hrun _ _ hc => exact hcontinues hc hrun nofun

theorem running_of_run {ctx : ColodContext} {labels : List Label}
    (hrun : Runs.run step (Daemon.init ctx) labels = some s) :
    s.pc.passes = true → s.running = true :=
  Runs.run_invariant (P := fun u => u.pc.passes = true → u.running = true)
    (fun _ _ _ => running_step) hrun nofun

end ColoDaemon
