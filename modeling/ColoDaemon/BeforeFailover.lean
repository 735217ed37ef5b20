import ColoDaemon.FailoverSync
import ColoDaemon.InterruptTable
import ColoDaemon.Promotion

/-!
# From the running states to a failover

Between `STATE_*_COLO_RUNNING` or `STATE_PRIMARY_START_MIGRATION` and a failover the main coroutine
is at a program point at which `EVENT_FAILOVER_SYNC` interrupts, or it has given up. While it is at
such a point `EVENT_PEER_FAILOVER` is not taken off the queue without giving up, and no win is taken
off the queue before it.
-/

namespace ColoDaemon
open Runs EventLoop
variable {s t : Daemon}

def Pc.armed (pc : Pc) : Prop := pc.table = some [.failoverSync]

/-- The program points that lead to no failover any more. -/
def Pc.ended : Pc → Bool
  | .enter .failedPeerFailover | .enter .failed => true
  | pc => pc.fenced

theorem PcOutside.ended {pc pc' : Pc} {n n' : ℕ} (h : PcOutside pc n pc' n')
    (hended : pc.ended = true) : pc'.ended = true := by
  cases h with
  | same => exact hended
  | fired | releasedArray | releasedExec => cases hended

theorem ended_enter {newState : MainState} (h : (Pc.enter newState).ended = true) :
    (colodMainCo s newState).pc.ended = true := by
  cases newState with
  | quit =>
    simp only [colodMainCo, colodMainCoReturn]
    split_ifs <;> rfl
  | failedPeerFailover | failed | autoquit => rfl
  | _ => cases h

theorem ended_handled {event : ColodEvent} {newState : MainState}
    (h : handleAlwaysInterrupting event = some newState) :
    (Pc.enter newState).ended = true := by
  cases event <;> cases h <;> rfl

theorem ended_step {label : Label} (hstep : step s label = some t) (hended : s.pc.ended = true) :
    t.pc.ended = true := by
  cases change_of_step hstep with
  | callback _ _ hout => exact hout.pc.ended hended
  | dispatch source _ hd =>
    obtain ⟨wakeSources, resumeSources, rfl⟩ := dispatch_eq hd
    exact hended
  | start _ hpc =>
    rw [hpc] at hended
    cases hended
  | enter newState _ hpc ht =>
    rw [hpc] at hended
    rw [ht]
    exact ended_enter hended
  | wait _ _ _ _ _ ht | nestedYank _ _ _ _ ht =>
    rw [ht]
    exact hended
  | event site event loop susp pc _ hpc _ hturn hc =>
    rw [hpc] at hended
    rw [hc.pc]
    have hfenced : pc.fenced = true := fenced_event hended hturn
    unfold Pc.ended
    split
    · rfl
    · rfl
    · exact hfenced
  | turn pc pc' obs susp _ hpc hturn =>
    rw [hpc] at hended
    cases hturn <;> cases hended
  | suspend site written inner inner' _ hpc ht =>
    rw [hpc] at hended
    rw [ht]
    cases site with
    | stop => rfl
    | _ => cases hended
  | write site inner _ hpc hc =>
    rw [hpc] at hended
    rw [hc.pc]
    cases site with
    | stop => rfl
    | _ => cases hended
  | line site inner event _ hpc ht =>
    rw [hpc] at hended
    rw [ht]
    cases site with
    | stop => rfl
    | _ => cases hended
  | executed site written inner reply obs susp pc _ hpc _ hturn hc =>
    rw [hpc] at hended
    rw [hc.pc]
    cases site with
    | stop =>
      generalize (colodExecuteCo s reply).1 = result at hturn
      cases hturn with
      | stopped => rfl
      | fails _ _ hsite => simp at hsite
      | interrupted _ hsite => simp at hsite
      | cancel _ hsite => simp at hsite
    | _ => cases hended
  | yankSuspend _ _ _ hpc | yanked _ _ _ hpc | yankFailed _ _ _ hpc =>
    rw [hpc] at hended
    cases hended

/-! ### The armed program points -/

theorem armed_array {co : ArrayFrame} : (Pc.array co).armed ↔ co.table.migrates = true := by
  unfold Pc.armed Pc.table
  by_cases h : co.table.migrates = true <;> simp [h]

theorem armed_element {co : ArrayFrame} {line : String} {written : Bool} {inner : InnerWait} :
    (Pc.exec (.element co line) written inner).armed ↔ co.table.migrates = true :=
  armed_array

theorem PcOutside.armed {pc pc' : Pc} {n n' : ℕ} (h : PcOutside pc n pc' n')
    (harmed : pc.armed) : pc'.armed := h.table.trans harmed

theorem ArrayTurn.armed {table : CommandTable} {err : Option ColodError} {susp : Bool} {pc : Pc}
    (h : ArrayTurn s table err susp pc) (hmigrates : table.migrates = true) :
    pc.ended = true ∨ pc.armed := by
  cases h with
  | finished _ htable =>
    rw [hmigrates] at htable
    cases htable
  | assertion | fails => exact .inl rfl
  | interrupted | preSwitchover | migrateContinue | cancel => exact .inr rfl

theorem Turn.armed {pc pc' : Pc} {obs : List Obs} {susp : Bool} (h : Turn s pc obs susp pc')
    (harmed : pc.armed) : pc'.ended = true ∨ pc'.armed := by
  cases h with
  | arrayEnd _ _ _ _ hturn => exact hturn.armed (armed_array.mp harmed)
  | arrayInterrupted _ _ _ _ _ _ hturn => exact hturn.armed (armed_array.mp harmed)
  | element => exact .inr (armed_element.mpr (armed_array.mp harmed))
  | timeout | assertion | yellow | released => exact .inl rfl
  | again => exact .inr harmed
  | preSwitchover | colo | interrupted | running1 | running2 | runningInterrupted | grace =>
    exact .inr rfl
  | resumed | discard => cases harmed

theorem ExecTurn.armed {site : ExecSite} {written : Bool} {inner : InnerWait}
    {result : Except ColodError Unit} {obs : List Obs} {susp : Bool} {pc : Pc}
    (h : ExecTurn s site result obs susp pc) (harmed : (Pc.exec site written inner).armed) :
    pc.ended = true ∨ pc.armed := by
  cases h with
  | broken _ _ _ _ _ _ hturn => exact hturn.armed (armed_element.mp harmed)
  | next co =>
    have hmigrates : co.table.migrates = true := armed_element.mp harmed
    exact .inr (armed_array.mpr hmigrates)
  | fails => exact .inl rfl
  | interrupted | cancel | migrationStart | colo | cancelled => exact .inr rfl
  | started | stopped => cases harmed

theorem EventTurn.armed {primary : Bool} {site : EventWaitSite} {event : ColodEvent} {susp : Bool}
    {pc : Pc} (h : EventTurn primary site event susp pc) (harmed : (Pc.eventWait site).armed) :
    pc.ended = true ∨ pc.armed ∧ event ≠ .peerFailover ∨
      pc = .enter .failover ∧ event = .failoverWin := by
  cases h with
  | handled _ _ _ _ hevent => exact .inl (ended_handled hevent)
  | yellow | unexpected | quit | autoquit => exact .inl rfl
  | failover | cancel => exact .inr (.inl ⟨rfl, by simp⟩)
  | win => exact .inr (.inr ⟨rfl, rfl⟩)
  | ignored _ _ _ hhandled =>
    refine .inr (.inl ⟨harmed, ?_⟩)
    rintro rfl
    cases site with
    | coloRunning | startMigration | failoverSync => cases hhandled rfl
    | secondaryWait | primaryWait | failed | autoquit => cases harmed
  | secondaryWait | migrate | leave => cases harmed

theorem armed_enter {newState : MainState} (h : (Pc.enter newState).armed) :
    (colodMainCo s newState).pc.armed ∧
      ∀ e ∈ s.loop.kinds, e ∈ (colodMainCo s newState).loop.kinds := by
  cases newState with
  | failoverSync => exact ⟨rfl, fun _ he => he⟩
  | primaryColoRunning =>
    have hset : ∀ e ∈ s.loop.kinds, e ∈ (s.loop.setInterrupting [.failoverSync]).kinds :=
      fun _ he => EventQueue.mem_kinds_setInterrupting.mpr he
    simp only [colodMainCo]
    split_ifs
    · refine ⟨rfl, fun e he => ?_⟩
      have hyield := hset e he
      rwa [← yieldRemove_kinds] at hyield
    · exact ⟨rfl, hset⟩
  | _ => cases h

/-- At an armed program point the peer's event is taken before any win, and taking it is the
end. -/
theorem armed_step {label : Label} (hstep : step s label = some t)
    (hfirst : s.loop.queue.InterruptFirst) (htabled : Tabled s) (harmed : s.pc.armed) :
    t.pc.ended = true ∨
      t.pc.armed ∧ (.peerFailover ∈ s.loop.kinds → .peerFailover ∈ t.loop.kinds) ∨
      t.pc = .enter .failover ∧ .peerFailover ∉ s.loop.kinds := by
  have hgoes : ∀ {u : Daemon} {obs susp pc}, Continues u t obs susp pc →
      pc.ended = true ∨ pc.armed → (.peerFailover ∈ s.loop.kinds → .peerFailover ∈ u.loop.kinds) →
      t.pc.ended = true ∨
        t.pc.armed ∧ (.peerFailover ∈ s.loop.kinds → .peerFailover ∈ t.loop.kinds) ∨
        t.pc = .enter .failover ∧ .peerFailover ∉ s.loop.kinds := by
    intro u obs susp pc hc hpc hkinds
    rw [hc.pc, kinds_continues hc]
    exact hpc.imp_right fun h => .inl ⟨h, hkinds⟩
  have hout : ∀ {u : Daemon} {allowed}, Outside s u allowed → .peerFailover ∈ s.loop.kinds →
      .peerFailover ∈ u.loop.kinds := by
    intro u allowed ho hmem
    obtain ⟨events, hloop, -⟩ := ho.loop
    rw [hloop]
    exact mem_kinds_queueAll hmem
  cases change_of_step hstep with
  | callback _ _ ho => exact .inr (.inl ⟨ho.pc.armed harmed, hout ho⟩)
  | dispatch source _ hd =>
    obtain ⟨wakeSources, resumeSources, rfl⟩ := dispatch_eq hd
    exact .inr (.inl ⟨harmed, id⟩)
  | start _ hpc =>
    rw [hpc] at harmed
    cases harmed
  | enter newState _ hpc ht =>
    rw [hpc] at harmed
    obtain ⟨harmed', hkinds⟩ := armed_enter (s := s) harmed
    rw [ht]
    exact .inr (.inl ⟨harmed', hkinds _⟩)
  | wait site loop _ _ hwait ht =>
    obtain ⟨-, rfl⟩ := colodEventWait_none hwait
    rw [ht]
    exact .inr (.inl ⟨harmed, fun hmem => by simpa [kinds] using hmem⟩)
  | event site event loop susp pc _ hpc hwait hturn hc =>
    obtain ⟨a, queue, hremove, rfl, -, rfl⟩ := colodEventWait_some hwait
    have htable := htabled.table _ harmed
    rw [hpc] at harmed
    have hpeer : .peerFailover ∈ s.loop.kinds →
        a.event = .peerFailover ∨ .peerFailover ∈ queue.kinds := by
      intro hmem
      exact ((EventQueue.mem_kinds_remove hremove).mp hmem).imp_left Eq.symm
    rcases hturn.armed harmed with hended | ⟨harmed', hevent⟩ | ⟨hfailover, hevent⟩
    · rw [hc.pc]
      exact .inl hended
    · exact hgoes hc (.inr harmed') fun hmem => (hpeer hmem).resolve_left hevent
    · refine .inr (.inr ⟨hc.pc.trans hfailover, ?_⟩)
      intro hmem
      have hinterrupts := hfirst.remove_interrupting hremove hmem
        (htable.interrupting_iff.mpr (.inl rfl))
      rw [hevent] at hinterrupts
      simp [htable.interrupting_iff, eventAlwaysInterrupting] at hinterrupts
  | turn pc pc' obs susp _ hpc hturn hc =>
    rw [hpc] at harmed
    exact hgoes hc (hturn.armed harmed) id
  | suspend site written inner inner' _ hpc ht =>
    rw [hpc] at harmed
    rw [ht]
    refine .inr (.inl ⟨?_, fun hmem => by simpa [Daemon.suspendAt] using hmem⟩)
    cases site <;> exact harmed
  | write site inner _ hpc hc =>
    rw [hpc] at harmed
    refine hgoes hc (.inr ?_) id
    cases site <;> exact harmed
  | line site inner event _ hpc ht =>
    rw [hpc] at harmed
    rw [ht]
    have hnotify := hout (outside_notifyEvent s event)
    refine .inr (.inl ⟨?_, fun hmem => by simpa [Daemon.suspendAt] using hnotify hmem⟩)
    cases site <;> exact harmed
  | nestedYank _ _ _ _ ht =>
    rw [ht]
    exact .inr (.inl ⟨harmed, id⟩)
  | executed site written inner reply obs susp pc _ hpc _ hturn hc =>
    rw [hpc] at harmed
    exact hgoes hc (hturn.armed harmed) (hout (outside_executeCo s reply))
  | yankSuspend _ _ _ hpc | yanked _ _ _ hpc | yankFailed _ _ _ hpc =>
    rw [hpc] at harmed
    cases harmed

/-! ### Running daemons -/

/-- The states from which a failover is decided. -/
def MainState.isRunning : MainState → Bool
  | .secondaryColoRunning | .primaryColoRunning | .primaryStartMigration => true
  | _ => false

structure Standing (s : Daemon) : Prop where
  first : s.loop.queue.InterruptFirst
  tabled : Tabled s
  sync : s.pc = .eventWait .failoverSync → s.state = .failoverSync
  running : s.state.isRunning = true → s.pc.ended = true ∨ s.pc.armed

theorem running_enter {newState : MainState} (h : newState.isRunning = true) :
    (colodMainCo s newState).pc.armed := by
  cases newState with
  | secondaryColoRunning | primaryColoRunning =>
    simp only [colodMainCo]
    split_ifs <;> rfl
  | primaryStartMigration => rfl
  | _ => cases h

theorem standing_step {label : Label} (hstep : step s label = some t) (hs : Standing s) :
    Standing t := by
  have hfirst := interruptFirst_step hstep hs.first
  have htabled := tabled_step hstep hs.tabled
  obtain ⟨hfailover, hsync⟩ := sync_step hstep
  rcases state_or_enter hstep with hsame | ⟨newState, hpc, rfl⟩
  · refine ⟨hfirst, htabled, ?_, ?_⟩
    · intro hpc
      rcases hsync hpc with hbefore | ⟨henter, rfl⟩
      · exact hsame.trans (hs.sync hbefore)
      · rw [enter_eq hstep henter]
        exact colodMainCo_state s .failoverSync
    · intro hrunning
      rw [hsame] at hrunning
      rcases hs.running hrunning with hended | harmed
      · exact .inl (ended_step hstep hended)
      rcases armed_step hstep hs.first hs.tabled harmed with hended | ⟨harmed', -⟩ | ⟨henter, -⟩
      · exact .inl hended
      · exact .inr harmed'
      · rcases hfailover henter with hbefore | ⟨hbefore, -⟩
        · rw [hbefore] at harmed
          cases harmed
        · rw [hs.sync hbefore] at hrunning
          cases hrunning
  · refine ⟨hfirst, htabled, ?_, ?_⟩
    · intro hwait
      rw [colodMainCo_state]
      by_contra hstate
      have hnot : (colodMainCo s newState).pc.arbitrates = false := arbitrates_enter hstate
      rw [hwait] at hnot
      cases hnot
    · intro hrunning
      rw [colodMainCo_state] at hrunning
      exact .inr (running_enter hrunning)

theorem standing_of_run {ctx : ColodContext} {labels : List Label}
    (hrun : run step (Daemon.init ctx) labels = some s) : Standing s := by
  refine run_invariant (fun _ _ _ => standing_step) hrun ⟨?_, tabled_init ctx, nofun, nofun⟩
  exact List.Pairwise.nil

end ColoDaemon
