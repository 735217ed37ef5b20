import ColoDaemon.MainTurns

/-!
# The control flow graph of the main coroutine

A `Point` is a program counter without its data. `Point.next` lists where the main coroutine can go
from a point, together with the event that it takes off the queue on the way. Every step follows an
edge of the graph or stays at its point, so that a statement about where the main coroutine has
been is a finite check of the graph.
-/

namespace ColoDaemon
open Runs EventLoop
variable {s t : Daemon}

/-- The commands the main coroutine sends outside the command arrays. -/
inductive Command
  | secondaryStartup
  | migrationCapabilities
  | migrateContinue
  | migrateCancel
  | stop
  deriving DecidableEq, Repr

inductive Point
  | start
  | enter (newState : MainState)
  | eventWait (site : EventWaitSite)
  | qmpWait (site : QmpWaitSite)
  | grace
  | array (table : CommandTable)
  | exec (command : Command)
  | yank
  | done
  | aborted
  deriving DecidableEq, Repr

def ExecSite.point : ExecSite → Point
  | .secondaryStartup => .exec .secondaryStartup
  | .migrationCapabilities => .exec .migrationCapabilities
  | .migrateContinue => .exec .migrateContinue
  | .migrateCancel => .exec .migrateCancel
  | .stop => .exec .stop
  | .element co _ => .array co.table

def Pc.point : Pc → Point
  | .start => .start
  | .enter newState => .enter newState
  | .eventWait site => .eventWait site
  | .qmpWait site _ => .qmpWait site
  | .grace => .grace
  | .array co => .array co.table
  | .exec site _ _ => site.point
  | .yank _ => .yank
  | .done => .done
  | .aborted => .aborted

def Daemon.point (s : Daemon) : Point := s.pc.point

theorem point_eq_eventWait {site : EventWaitSite} :
    s.point = .eventWait site ↔ s.pc = .eventWait site := by
  unfold Daemon.point
  cases s.pc with
  | eventWait => simp [Pc.point]
  | exec site => cases site <;> simp [Pc.point, ExecSite.point]
  | _ => simp [Pc.point]

theorem point_eq_enter {newState : MainState} :
    s.point = .enter newState ↔ s.pc = .enter newState := by
  unfold Daemon.point
  cases s.pc with
  | enter => simp [Pc.point]
  | exec site => cases site <;> simp [Pc.point, ExecSite.point]
  | _ => simp [Pc.point]

theorem point_eq_qmpWait {site : QmpWaitSite} :
    s.point = .qmpWait site ↔ ∃ fired, s.pc = .qmpWait site fired := by
  unfold Daemon.point
  cases s.pc with
  | qmpWait => simp [Pc.point]
  | exec site => cases site <;> simp [Pc.point, ExecSite.point]
  | _ => simp [Pc.point]

theorem point_eq_grace : s.point = .grace ↔ s.pc = .grace := by
  unfold Daemon.point
  cases s.pc with
  | exec site => cases site <;> simp [Pc.point, ExecSite.point]
  | _ => simp [Pc.point]

/-- Where an event leads that is always interrupting. -/
def handled (event : ColodEvent) (otherwise : List Point) : List Point :=
  match handleAlwaysInterrupting event with
  | some newState => [.enter newState]
  | none => otherwise

/-- The program points after `colod_event_wait` has returned `event`. -/
def EventWaitSite.next (site : EventWaitSite) (event : ColodEvent) : List Point :=
  match site with
  | .secondaryWait => handled event [.qmpWait .secondaryWait]
  | .coloRunning =>
    if event = .failoverSync then [.enter .failoverSync]
    else handled event
      (if eventYellow event then [.eventWait .coloRunning, .enter .failed]
        else [.eventWait .coloRunning])
  | .primaryWait =>
    if event = .startMigration then [.enter .primaryStartMigration]
    else if event = .peerFailover then [.eventWait .primaryWait]
    else handled event [.eventWait .primaryWait]
  | .startMigration =>
    if event = .failoverSync then [.exec .migrateCancel] else handled event [.aborted]
  | .failoverSync =>
    if event = .failoverWin then [.enter .failover] else handled event [.eventWait .failoverSync]
  | .failed =>
    if event = .quit then [.enter .quit]
    else if event = .autoquit then [.enter .autoquit, .eventWait .failed]
    else [.eventWait .failed]
  | .autoquit => if event = .quit then [.enter .quit] else [.eventWait .autoquit]

def MainState.next : MainState → List Point
  | .secondaryStartup => [.exec .secondaryStartup]
  | .secondaryWait => [.qmpWait .secondaryWait]
  | .secondaryColoRunning | .primaryColoRunning => [.qmpWait .running1, .eventWait .coloRunning]
  | .primaryStartup => [.enter .primaryWait]
  | .primaryWait => [.eventWait .primaryWait]
  | .primaryStartMigration => [.exec .migrationCapabilities]
  | .failoverSync => [.eventWait .failoverSync]
  | .failover => [.yank]
  | .failedPeerFailover => [.enter .failed]
  | .failed => [.exec .stop]
  | .quit => [.done, .aborted]
  | .autoquit => [.eventWait .autoquit]

def QmpWaitSite.next : QmpWaitSite → List Point
  | .secondaryWait => [.enter .secondaryColoRunning, .eventWait .secondaryWait]
  | .preSwitchover => [.array .migrationSwitchover, .enter .failed, .eventWait .startMigration]
  | .colo => [.enter .primaryColoRunning, .enter .failed, .eventWait .startMigration]
  | .running1 => [.qmpWait .running2, .eventWait .coloRunning]
  | .running2 => [.grace, .eventWait .coloRunning]

def CommandTable.next : CommandTable → List Point
  | .migrationStart =>
    [.qmpWait .preSwitchover, .eventWait .startMigration, .exec .migrateCancel, .enter .failed]
  | .migrationSwitchover =>
    [.exec .migrateContinue, .eventWait .startMigration, .exec .migrateCancel, .enter .failed]
  | .failoverPrimary | .failoverSecondary => [.enter .primaryWait, .enter .failed]

def Command.next : Command → List Point
  | .secondaryStartup => [.enter .secondaryWait, .enter .failed]
  | .migrationCapabilities =>
    [.array .migrationStart, .eventWait .startMigration, .exec .migrateCancel, .enter .failed]
  | .migrateContinue =>
    [.qmpWait .colo, .eventWait .startMigration, .exec .migrateCancel, .enter .failed]
  | .migrateCancel => [.enter .failoverSync, .enter .failed]
  | .stop => [.eventWait .failed]

/-- The edges that take no event off the queue; an assertion can fail nearly everywhere. -/
def Point.follows : Point → List Point
  | .start => [.enter .primaryStartup, .enter .secondaryStartup]
  | .enter newState => newState.next
  | .eventWait _ => []
  | .qmpWait site => .aborted :: site.next
  | .grace => [.enter .failed, .eventWait .coloRunning]
  | .array table => .aborted :: table.next
  | .exec command => command.next
  | .yank => [.array .failoverPrimary, .array .failoverSecondary, .enter .failed]
  | .done | .aborted => []

def Point.next (p : Point) (popped : Option ColodEvent) : List Point :=
  match p, popped with
  | .eventWait site, some event => site.next event
  | p, none => p.follows
  | _, some _ => []

/-- The state after an edge from `p`. -/
def Point.arrives (p : Point) (state : MainState) : MainState :=
  match p with
  | .enter newState => newState
  | _ => state

/-! ### Every step follows the graph -/

/-- The event that this step takes off the queue. -/
def Daemon.pops (s : Daemon) (label : Label) : Option ColodEvent :=
  match s.pc, label with
  | .eventWait _, .run => (colodEventWait s.loop).1
  | _, _ => none

theorem pops_eq_some {label : Label} {event : ColodEvent} (h : s.pops label = some event) :
    label = .run ∧ (∃ site, s.pc = .eventWait site) ∧
      ∃ a queue, eventqueueRemove s.loop.queue = some (a, queue) ∧ a.event = event := by
  unfold Daemon.pops at h
  split at h
  · rename_i site hpc
    have hwait : colodEventWait s.loop = (some event, (colodEventWait s.loop).2) := by
      rw [← h]
    obtain ⟨a, queue, hremove, ha, -, -⟩ := colodEventWait_some hwait
    exact ⟨rfl, ⟨site, hpc⟩, a, queue, hremove, ha⟩
  · cases h

theorem PcOutside.point {pc pc' : Pc} {n n' : ℕ} (h : PcOutside pc n pc' n') :
    pc'.point = pc.point := by
  cases h <;> rfl

theorem mem_handled {event : ColodEvent} {newState : MainState} {otherwise : List Point}
    (h : handleAlwaysInterrupting event = some newState) :
    .enter newState ∈ handled event otherwise := by
  simp [handled, h]

theorem handled_eq {event : ColodEvent} {otherwise : List Point}
    (h : eventAlwaysInterrupting event = false) : handled event otherwise = otherwise := by
  cases event <;> first | rfl | cases h

theorem EventTurn.follows {primary : Bool} {site : EventWaitSite} {event : ColodEvent} {susp : Bool}
    {pc : Pc} (h : EventTurn primary site event susp pc) : pc.point ∈ site.next event := by
  cases h with
  | handled _ _ newState hsite hevent =>
    have hne : event ≠ .failoverSync ∧ event ≠ .failoverWin := by
      constructor <;> rintro rfl <;> cases hevent
    cases site with
    | primaryWait | failed | autoquit => cases hsite
    | _ => simpa [EventWaitSite.next, hne, Pc.point] using mem_handled hevent
  | secondaryWait _ hevent => simp [EventWaitSite.next, handled_eq hevent, Pc.point]
  | failover | cancel | migrate | win | autoquit =>
    simp [EventWaitSite.next, Pc.point, ExecSite.point]
  | yellow _ hevent =>
    cases event <;> first | decide | cases hevent
  | unexpected _ hevent hsync =>
    simp [EventWaitSite.next, handled_eq hevent, hsync, Pc.point]
  | leave _ newState hpeer hevent =>
    have hne : event ≠ .startMigration := by
      rintro rfl
      cases hevent
    simpa [EventWaitSite.next, hne, hpeer, Pc.point] using mem_handled hevent
  | quit _ hsite =>
    rcases hsite with rfl | rfl <;> simp [EventWaitSite.next, Pc.point]
  | ignored _ _ hsite hhandled hsync hcolo hwait hquit =>
    cases site with
    | secondaryWait => exact absurd rfl hsite.1
    | startMigration => exact absurd rfl hsite.2
    | coloRunning =>
      simp only [EventWaitSite.next, if_neg (hcolo rfl), handled_eq (hhandled rfl)]
      split_ifs <;> exact List.mem_cons_self
    | failoverSync =>
      simp only [EventWaitSite.next, if_neg (hsync rfl), handled_eq (hhandled rfl)]
      exact List.mem_cons_self
    | primaryWait =>
      obtain ⟨hstart, hpeer⟩ := hwait rfl
      simp only [EventWaitSite.next, if_neg hstart]
      split_ifs with hp
      · exact List.mem_cons_self
      · rw [handled_eq (hpeer.resolve_left hp)]
        exact List.mem_cons_self
    | failed =>
      simp only [EventWaitSite.next, if_neg (hquit (.inl rfl))]
      split_ifs
      · exact List.mem_cons_of_mem _ List.mem_cons_self
      · exact List.mem_cons_self
    | autoquit =>
      simp only [EventWaitSite.next, if_neg (hquit (.inr rfl))]
      exact List.mem_cons_self

theorem enter_next (s : Daemon) (newState : MainState) :
    (colodMainCo s newState).point ∈ newState.next := by
  cases newState with
  | secondaryColoRunning | primaryColoRunning =>
    simp only [colodMainCo]
    split_ifs
    · exact List.mem_cons_self
    · exact List.mem_cons_of_mem _ List.mem_cons_self
  | quit =>
    simp only [colodMainCo, colodMainCoReturn]
    split_ifs
    · exact List.mem_cons_self
    · exact List.mem_cons_of_mem _ List.mem_cons_self
  | _ => exact List.mem_cons_self

theorem ArrayTurn.follows {table : CommandTable} {err : Option ColodError} {susp : Bool} {pc : Pc}
    (h : ArrayTurn s table err susp pc) : pc.point ∈ (Point.array table).next none := by
  cases h with
  | assertion | fails => cases table <;> decide
  | interrupted _ _ htable | cancel _ htable =>
    cases table <;> first | decide | cases htable
  | finished _ htable => cases table <;> first | decide | cases htable
  | preSwitchover | migrateContinue => decide

theorem Turn.follows {pc pc' : Pc} {obs : List Obs} {susp : Bool} (h : Turn s pc obs susp pc') :
    pc'.point = pc.point ∨ pc'.point ∈ pc.point.next none := by
  cases h with
  | arrayEnd _ _ _ _ hturn | arrayInterrupted _ _ _ _ _ _ hturn => exact .inr hturn.follows
  | element | again => exact .inl rfl
  | assertion site => cases site <;> exact .inr (by decide)
  | timeout site hsite | interrupted site hsite =>
    cases site <;> first | exact .inr (by decide) | cases hsite
  | runningInterrupted site hsite => rcases hsite with rfl | rfl <;> exact .inr (by decide)
  | released co => exact .inr List.mem_cons_self
  | _ => exact .inr (by simp [Pc.point, Point.next, Point.follows, QmpWaitSite.next])

theorem ExecTurn.follows {site : ExecSite} {result : Except ColodError Unit} {obs : List Obs}
    {susp : Bool} {pc : Pc} (h : ExecTurn s site result obs susp pc) :
    pc.point = site.point ∨ pc.point ∈ site.point.next none := by
  cases h with
  | next => exact .inl rfl
  | broken _ _ _ _ _ _ hturn => exact .inr hturn.follows
  | fails _ _ hsite =>
    rcases hsite with rfl | rfl | ⟨rfl | rfl, -⟩ <;> exact .inr (by decide)
  | interrupted _ hsite | cancel _ hsite =>
    rcases hsite with rfl | rfl <;> exact .inr (by decide)
  | _ => exact .inr (by simp [Pc.point, ExecSite.point, Point.next, Point.follows, Command.next])

/-- A step stays at its program point, or the running main coroutine follows an edge. -/
theorem point_step {label : Label} (h : step s label = some t) :
    t.point = s.point ∧ s.pops label = none ∧ t.state = s.state ∨
      s.running = true ∧ t.point ∈ s.point.next (s.pops label) ∧
        t.state = s.point.arrives s.state := by
  have hpops : (∀ site, s.pc ≠ .eventWait site) → s.pops label = none := by
    intro hpc
    unfold Daemon.pops
    split
    · rename_i site hs
      exact absurd hs (hpc site)
    · rfl
  have hexec : ∀ (site : ExecSite) state, site.point.arrives state = state := by
    intro site state
    cases site <;> rfl
  cases change_of_step h with
  | callback hrun hc hout =>
    refine .inl ⟨hout.pc.point, ?_, hout.state⟩
    unfold Daemon.pops
    split
    · cases hc
    · rfl
  | dispatch source _ hd =>
    obtain ⟨wakeSources, resumeSources, rfl⟩ := dispatch_eq hd
    exact .inl ⟨rfl, by simp [Daemon.pops], rfl⟩
  | start hrun hpc ht =>
    rw [hpops (by simp [hpc]), ht]
    refine .inr ⟨hrun, ?_, by rw [Daemon.point, hpc]; rfl⟩
    simp only [Daemon.point, hpc, colodMainCoStart]
    split_ifs <;> simp [Daemon.goto, Pc.point, Point.next, Point.follows]
  | enter newState hrun hpc ht =>
    rw [hpops (by simp [hpc]), ht]
    have hnext := enter_next s newState
    refine .inr ⟨hrun, ?_, ?_⟩
    · simpa only [Daemon.point, hpc, Pc.point, Point.next, Point.follows] using hnext
    · simp only [Daemon.point, hpc, Pc.point, Point.arrives, colodMainCo_state]
  | wait site loop _ hpc hwait ht =>
    refine .inl ⟨by rw [ht]; rfl, ?_, by rw [ht]⟩
    simp only [Daemon.pops, hpc, hwait]
  | event site event loop susp pc hrun hpc hwait hturn hc =>
    have hnext := hturn.follows
    refine .inr ⟨hrun, ?_, ?_⟩
    · simpa only [Daemon.point, Daemon.pops, hc.pc, hpc, hwait, Pc.point, Point.next] using hnext
    · simpa only [Daemon.point, hpc, Pc.point, Point.arrives] using hc.state
  | turn pc pc' obs susp hrun hpc hturn hc =>
    have hsite : ∀ site, s.pc ≠ .eventWait site := by
      intro site hs
      rw [hpc] at hs
      rw [hs] at hturn
      cases hturn
    have harrives : ∀ state, pc.point.arrives state = state := by
      intro state
      cases hturn <;> rfl
    rw [hpops hsite]
    simp only [Daemon.point, hc.pc, hpc, harrives]
    rcases hturn.follows with hsame | hnext
    · exact .inl ⟨hsame, trivial, hc.state⟩
    · exact .inr ⟨hrun, hnext, hc.state⟩
  | suspend site written inner inner' _ hpc ht =>
    rw [ht, hpops (by simp [hpc])]
    exact .inl ⟨by simp [Daemon.point, Daemon.suspendAt, hpc, Pc.point], rfl, rfl⟩
  | write site inner _ hpc hc =>
    rw [hpops (by simp [hpc])]
    exact .inl ⟨by simp [Daemon.point, hc.pc, hpc, Pc.point], rfl, hc.state⟩
  | line site inner event _ hpc ht =>
    rw [ht, hpops (by simp [hpc])]
    refine .inl ⟨by simp [Daemon.point, Daemon.suspendAt, hpc, Pc.point], rfl, ?_⟩
    exact (outside_notifyEvent s event).state
  | nestedYank site inner _ hpc ht =>
    rw [ht, hpops (by simp [hpc])]
    exact .inl ⟨rfl, rfl, rfl⟩
  | executed site written inner reply obs susp pc hrun hpc _ hturn hc =>
    rw [hpops (by simp [hpc])]
    have hstate := hc.state.trans (outside_executeCo s reply).state
    simp only [Daemon.point, hc.pc, hpc, Pc.point, hexec]
    rcases hturn.follows with hsame | hnext
    · exact .inl ⟨hsame, trivial, hstate⟩
    · exact .inr ⟨hrun, hnext, hstate⟩
  | yankSuspend inner inner' _ hpc ht =>
    rw [ht, hpops (by simp [hpc])]
    exact .inl ⟨by simp [Daemon.point, Daemon.suspendAt, hpc, Pc.point], rfl, rfl⟩
  | yanked inner table hrun hpc htable hc =>
    rw [hpops (by simp [hpc])]
    refine .inr ⟨hrun, ?_, ?_⟩
    · simp only [Daemon.point, hc.pc, hpc, Pc.point, htable]
      split_ifs <;> decide
    · simpa only [Daemon.point, hpc, Pc.point, Point.arrives] using hc.state
  | yankFailed inner reply hrun hpc _ hc =>
    rw [hpops (by simp [hpc])]
    refine .inr ⟨hrun, ?_, ?_⟩
    · simp only [Daemon.point, hc.pc, hpc, Pc.point]
      decide
    · simpa only [Daemon.point, hpc, Pc.point, Point.arrives] using hc.state

/-- A QMP exchange is made at a command, in a command array or for a yank. -/
theorem point_of_io {x : IoStep} (h : s.io x = some t) :
    (∃ command, s.point = .exec command) ∨ (∃ table, s.point = .array table) ∨ s.point = .yank := by
  have hexec : ∀ (site : ExecSite) written inner, s.pc = .exec site written inner →
      (∃ command, s.point = .exec command) ∨ (∃ table, s.point = .array table) ∨
        s.point = .yank := by
    intro site written inner hpc
    rw [Daemon.point, hpc]
    cases site with
    | element co => exact .inr (.inl ⟨co.table, rfl⟩)
    | _ => exact .inl ⟨_, rfl⟩
  rcases io_cases h with ⟨site, written, inner, -, hpc, -⟩ | ⟨site, inner, hpc, -⟩ |
    ⟨site, inner, -, hpc, -⟩ | ⟨site, inner, hpc, -⟩ | ⟨site, written, inner, -, hpc, -⟩ |
    ⟨inner, -, hpc, -⟩ | ⟨inner, -, hpc, -⟩
  · exact hexec _ _ _ hpc
  · exact hexec _ _ _ hpc
  · exact hexec _ _ _ hpc
  · exact hexec _ _ _ hpc
  · exact hexec _ _ _ hpc
  · exact .inr (.inr (by rw [Daemon.point, hpc]; rfl))
  · exact .inr (.inr (by rw [Daemon.point, hpc]; rfl))

/-! ### Finite checks of the graph -/

def ColodEvent.all : List ColodEvent :=
  [.failed, .peerFailover, .quit, .autoquit, .failoverSync, .failoverWin, .yellow, .unyellow,
    .startMigration]

def MainState.all : List MainState :=
  [.secondaryStartup, .secondaryWait, .secondaryColoRunning, .primaryStartup, .primaryWait,
    .primaryStartMigration, .primaryColoRunning, .failoverSync, .failover, .failedPeerFailover,
    .failed, .quit, .autoquit]

def Point.all : List Point :=
  [.start, .grace, .yank, .done, .aborted] ++ MainState.all.map .enter ++
    [EventWaitSite.secondaryWait, .coloRunning, .primaryWait, .startMigration, .failoverSync,
      .failed, .autoquit].map .eventWait ++
    [QmpWaitSite.secondaryWait, .preSwitchover, .colo, .running1, .running2].map .qmpWait ++
    [CommandTable.migrationStart, .migrationSwitchover, .failoverPrimary, .failoverSecondary].map
      .array ++
    [Command.secondaryStartup, .migrationCapabilities, .migrateContinue, .migrateCancel, .stop].map
      .exec

theorem Point.mem_all (p : Point) : p ∈ Point.all := by
  cases p with
  | enter newState => cases newState <;> decide
  | eventWait site => cases site <;> decide
  | qmpWait site => cases site <;> decide
  | array table => cases table <;> decide
  | exec command => cases command <;> decide
  | _ => decide

theorem ColodEvent.mem_all (event : ColodEvent) : event ∈ ColodEvent.all := by
  cases event <;> decide

theorem MainState.mem_all (state : MainState) : state ∈ MainState.all := by
  cases state <;> decide

/-- Every edge meets `R`. -/
def Point.checks (R : Point → Option ColodEvent → Point → Bool) : Bool :=
  Point.all.all fun p =>
    (none :: ColodEvent.all.map some).all fun popped => (p.next popped).all (R p popped)

theorem Point.of_checks {R : Point → Option ColodEvent → Point → Bool} {p q : Point}
    {popped : Option ColodEvent} (h : Point.checks R = true) (hq : q ∈ p.next popped) :
    R p popped q = true := by
  have hpopped : popped ∈ none :: ColodEvent.all.map some := by
    cases popped with
    | none => exact List.mem_cons_self
    | some event => exact List.mem_cons_of_mem _ (List.mem_map_of_mem event.mem_all)
  have hp := List.all_eq_true.mp h p p.mem_all
  exact List.all_eq_true.mp (List.all_eq_true.mp hp popped hpopped) q hq

/-! ### The state at a program point -/

/-- The states in which the main coroutine can be at a point. -/
def Point.home (p : Point) (state : MainState) : Bool :=
  match p with
  | .start | .enter .secondaryStartup | .enter .primaryStartup | .enter .secondaryWait
  | .exec .secondaryStartup => state = .secondaryStartup
  | .enter .secondaryColoRunning | .qmpWait .secondaryWait | .eventWait .secondaryWait =>
    state = .secondaryWait
  | .enter .primaryWait => state = .primaryStartup || state = .failover
  | .enter .primaryStartMigration | .eventWait .primaryWait => state = .primaryWait
  | .enter .primaryColoRunning | .eventWait .startMigration | .qmpWait .preSwitchover
  | .qmpWait .colo | .array .migrationStart | .array .migrationSwitchover
  | .exec .migrationCapabilities | .exec .migrateContinue | .exec .migrateCancel =>
    state = .primaryStartMigration
  | .eventWait .coloRunning | .qmpWait .running1 | .qmpWait .running2 | .grace =>
    state = .secondaryColoRunning || state = .primaryColoRunning
  | .enter .failoverSync =>
    state = .secondaryColoRunning || state = .primaryColoRunning || state = .primaryStartMigration
  | .enter .failover | .eventWait .failoverSync => state = .failoverSync
  | .yank | .array .failoverPrimary | .array .failoverSecondary => state = .failover
  | .exec .stop | .eventWait .failed => state = .failed
  | .eventWait .autoquit => state = .autoquit
  | .enter .failedPeerFailover | .enter .failed | .enter .quit | .enter .autoquit | .done
  | .aborted => true

theorem home_next {p q : Point} {popped : Option ColodEvent} {state : MainState}
    (hq : q ∈ p.next popped) (hp : p.home state = true) : q.home (p.arrives state) = true := by
  have hchecks : Point.checks (fun p _ q => MainState.all.all fun state =>
      !p.home state || q.home (p.arrives state)) = true := rfl
  have hall := List.all_eq_true.mp (Point.of_checks hchecks hq) state state.mem_all
  simpa [hp] using hall

theorem home_step {label : Label} (h : step s label = some t)
    (hs : s.point.home s.state = true) : t.point.home t.state = true := by
  rcases point_step h with ⟨hpoint, -, hstate⟩ | ⟨-, hnext, hstate⟩
  · rw [hpoint, hstate]
    exact hs
  · rw [hstate]
    exact home_next hnext hs

theorem home_of_run {ctx : ColodContext} {labels : List Label}
    (hrun : run step (Daemon.init ctx) labels = some s) : s.point.home s.state = true :=
  run_invariant (P := fun u => u.point.home u.state = true) (fun _ _ _ => home_step) hrun rfl

end ColoDaemon
