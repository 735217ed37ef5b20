import ColoDaemon.MainTurns

/-!
# Where a failover comes from

`STATE_FAILOVER` has one entrance, a win that is taken off the queue in `STATE_FAILOVER_SYNC`, and
the two events of the arbitration have one source each, the delivery of a failover message.
-/

namespace ColoDaemon
open EventLoop
variable {s t : Daemon}

/-- The wait of `STATE_FAILOVER_SYNC` and the entry of `STATE_FAILOVER`. -/
def Pc.arbitrates : Pc → Bool
  | .enter .failover | .eventWait .failoverSync => true
  | _ => false

theorem arbitrates_enter {newState : MainState} (h : newState ≠ .failoverSync) :
    (colodMainCo s newState).pc.arbitrates = false := by
  cases newState with
  | failoverSync => exact absurd rfl h
  | secondaryColoRunning | primaryColoRunning =>
    simp only [colodMainCo]
    split_ifs <;> rfl
  | quit =>
    simp only [colodMainCo, colodMainCoReturn]
    split_ifs <;> rfl
  | _ => rfl

theorem ArrayTurn.arbitrates {table : CommandTable} {err : Option ColodError} {susp : Bool}
    {pc : Pc} (h : ArrayTurn s table err susp pc) : pc.arbitrates = false := by
  cases h <;> rfl

theorem Turn.arbitrates {pc pc' : Pc} {obs : List Obs} {susp : Bool} (h : Turn s pc obs susp pc') :
    pc'.arbitrates = false := by
  cases h with
  | arrayEnd _ _ _ _ hturn => exact hturn.arbitrates
  | arrayInterrupted _ _ _ _ _ _ hturn => exact hturn.arbitrates
  | _ => rfl

theorem ExecTurn.arbitrates {site : ExecSite} {result : Except ColodError Unit} {obs : List Obs}
    {susp : Bool} {pc : Pc} (h : ExecTurn s site result obs susp pc) : pc.arbitrates = false := by
  cases h with
  | broken _ _ _ _ _ _ hturn => exact hturn.arbitrates
  | _ => rfl

theorem EventTurn.arbitrates {primary : Bool} {site : EventWaitSite} {event : ColodEvent}
    {susp : Bool} {pc : Pc} (h : EventTurn primary site event susp pc) :
    pc.arbitrates = false ∨
      site = .failoverSync ∧ (event = .failoverWin ∧ pc = .enter .failover ∨ pc = .eventWait site) := by
  cases h with
  | handled _ _ _ _ hevent | leave _ _ _ hevent =>
    left
    cases event <;> cases hevent <;> rfl
  | win => exact .inr ⟨rfl, .inl ⟨rfl, rfl⟩⟩
  | ignored =>
    cases site with
    | failoverSync => exact .inr ⟨rfl, .inr rfl⟩
    | _ => exact .inl rfl
  | _ => exact .inl rfl

/-- `STATE_FAILOVER` is entered only from `STATE_FAILOVER_SYNC`, by a pending win, and that wait
begins only with the state. -/
theorem sync_step {label : Label} (hstep : step s label = some t) :
    (t.pc = .enter .failover → s.pc = .enter .failover ∨
      s.pc = .eventWait .failoverSync ∧ .failoverWin ∈ s.loop.kinds) ∧
    (t.pc = .eventWait .failoverSync → s.pc = .eventWait .failoverSync ∨
      s.pc = .enter .failoverSync ∧ label = .run) := by
  have hneither : ∀ {pc : Pc}, t.pc = pc → pc.arbitrates = false →
      (t.pc = .enter .failover → s.pc = .enter .failover ∨
        s.pc = .eventWait .failoverSync ∧ .failoverWin ∈ s.loop.kinds) ∧
      (t.pc = .eventWait .failoverSync → s.pc = .eventWait .failoverSync ∨
        s.pc = .enter .failoverSync ∧ label = .run) := by
    rintro pc rfl harbitrates
    constructor
    · intro hpc
      rw [hpc] at harbitrates
      cases harbitrates
    · intro hpc
      rw [hpc] at harbitrates
      cases harbitrates
  cases change_of_step hstep with
  | callback _ _ hout =>
    have ho := hout.pc
    constructor
    · intro hpc
      rw [hpc] at ho
      exact .inl ho.of_enter
    · intro hpc
      rw [hpc] at ho
      exact .inl ho.of_eventWait
  | dispatch source _ hd =>
    obtain ⟨wakeSources, resumeSources, rfl⟩ := dispatch_eq hd
    exact ⟨.inl, .inl⟩
  | start _ _ ht =>
    subst ht
    refine hneither rfl ?_
    simp only [colodMainCoStart, Daemon.goto]
    split_ifs <;> rfl
  | enter newState _ hpc ht =>
    subst ht
    by_cases hstate : newState = .failoverSync
    · subst hstate
      refine ⟨?_, fun _ => .inr ⟨hpc, rfl⟩⟩
      rintro ⟨⟩
    · exact hneither rfl (arbitrates_enter hstate)
  | wait site loop _ _ _ ht => exact ht ▸ ⟨.inl, .inl⟩
  | event site event loop susp pc _ hpc hwait hturn hc =>
    obtain ⟨a, queue, hremove, rfl, -, -⟩ := colodEventWait_some hwait
    have hmem : a.event ∈ s.loop.kinds := (EventQueue.mem_kinds_remove hremove).mpr (.inl rfl)
    rcases hturn.arbitrates with hnot | ⟨rfl, ⟨hevent, -⟩ | hsame⟩
    · exact hneither hc.pc hnot
    · rw [hevent] at hmem
      exact ⟨fun _ => .inr ⟨hpc, hmem⟩, fun _ => .inl hpc⟩
    · rw [hc.pc, hsame, hpc]
      exact ⟨.inl, .inl⟩
  | turn _ _ _ _ _ _ hturn hc => exact hneither hc.pc hturn.arbitrates
  | suspend site written _ inner' _ _ ht =>
    exact hneither (by rw [ht]; rfl : t.pc = .exec site written inner') rfl
  | line site _ _ _ _ ht =>
    exact hneither (by rw [ht]; rfl : t.pc = .exec site true .idle) rfl
  | nestedYank _ _ _ _ ht => exact ht ▸ ⟨.inl, .inl⟩
  | executed _ _ _ _ _ _ _ _ _ _ hturn hc => exact hneither hc.pc hturn.arbitrates
  | yankSuspend _ inner' _ _ ht =>
    exact hneither (by rw [ht]; rfl : t.pc = .yank inner') rfl
  | write _ _ _ _ hc | yanked _ _ _ _ _ hc | yankFailed _ _ _ _ _ hc => exact hneither hc.pc rfl

theorem enter_eq {newState : MainState} (hstep : step s .run = some t)
    (hpc : s.pc = .enter newState) : t = colodMainCo s newState := by
  rcases step_cases hstep with ⟨-, h⟩ | ⟨_, hlabel, -⟩ | ⟨-, -, h⟩ | ⟨_, hlabel, -⟩
  · cases h
  · cases hlabel
  · simp only [mainRun, hpc, Option.some.injEq] at h
    exact h.symm
  · cases hlabel

theorem enter_failoverSync (hstep : step s .run = some t) (hpc : s.pc = .enter .failoverSync) :
    t.pc = .eventWait .failoverSync := by
  rw [enter_eq hstep hpc]
  rfl

/-! ### The events of the arbitration -/

theorem kinds_continues {u : Daemon} {obs : List Obs} {susp : Bool} {pc : Pc}
    (hc : Continues u t obs susp pc) : t.loop.kinds = u.loop.kinds := by
  simp only [kinds, hc.queue]

/-- An event that may not be raised is not pending afterwards unless it was. -/
theorem mem_kinds_outside {allowed : List ColodEvent} {e : ColodEvent} (hout : Outside s t allowed)
    (hallowed : e ∉ allowed) (hmem : e ∈ t.loop.kinds) : e ∈ s.loop.kinds := by
  obtain ⟨events, hloop, hevents⟩ := hout.loop
  rw [hloop] at hmem
  rcases mem_kinds_of_queueAll hmem with hin | hin
  · exact absurd (hevents e hin) hallowed
  · exact hin

/-- The main coroutine itself adds no event. -/
theorem mem_kinds_invariant (e : ColodEvent) (Q : Prop) :
    MainInvariant fun l => e ∈ l.queue.kinds → Q :=
  .of_queue (P := fun q => e ∈ q.kinds → Q)
    (fun _ _ h hmem => h (EventQueue.mem_kinds_setInterrupting.mp hmem))
    (fun _ _ _ hremove h hmem => h ((EventQueue.mem_kinds_remove hremove).mpr (.inr hmem)))

/-- The events of the arbitration are raised by the delivery of a failover message alone. -/
theorem mem_kinds_step {label : Label} {e : ColodEvent} (hstep : step s label = some t)
    (he : e = .failoverWin ∨ e = .peerFailover) (hmem : e ∈ t.loop.kinds) :
    e ∈ s.loop.kinds ∨
      s.freed = false ∧ label = .cpgDeliver .failover (decide (e = .failoverWin)) := by
  have hcontinues : ∀ {u : Daemon} {obs susp pc}, Continues u t obs susp pc → e ∈ u.loop.kinds := by
    intro u obs susp pc hc
    rw [← kinds_continues hc]
    exact hmem
  cases change_of_step hstep with
  | callback _ hc hout =>
    by_cases hraise : e ∈ label.raises
    · have hlabel : label = .cpgDeliver .failover (decide (e = .failoverWin)) := by
        cases label with
        | cpgDeliver message own =>
          cases message <;> cases own <;> rcases he with rfl | rfl <;>
            first | rfl | simp [Label.raises] at hraise
        | _ => rcases he with rfl | rfl <;> simp [Label.raises] at hraise
      by_cases hfreed : s.freed = false
      · exact .inr ⟨hfreed, hlabel⟩
      · subst hlabel
        have ht : t.loop = s.loop := by
          have hf : s.freed = true := by simpa using hfreed
          simp only [Daemon.callback, hf, if_true, Option.some.injEq] at hc
          rw [← hc]
        rw [ht] at hmem
        exact .inl hmem
    · exact .inl (mem_kinds_outside hout hraise hmem)
  | dispatch source _ hd =>
    obtain ⟨wakeSources, resumeSources, rfl⟩ := dispatch_eq hd
    exact .inl hmem
  | start _ _ ht => exact .inl (by rw [ht] at hmem; exact hmem)
  | enter newState _ _ ht =>
    subst ht
    exact .inl ((mem_kinds_invariant e (e ∈ s.loop.kinds)).enter newState id hmem)
  | wait site loop _ _ hwait ht =>
    obtain ⟨-, rfl⟩ := colodEventWait_none hwait
    rw [ht] at hmem
    exact .inl (by simpa [kinds] using hmem)
  | event site event loop susp pc _ _ hwait _ hc =>
    obtain ⟨a, queue, hremove, rfl, -, rfl⟩ := colodEventWait_some hwait
    exact .inl ((EventQueue.mem_kinds_remove hremove).mpr (.inr (hcontinues hc)))
  | turn _ _ _ _ _ _ _ hc | write _ _ _ _ hc | yanked _ _ _ _ _ hc | yankFailed _ _ _ _ _ hc =>
    exact .inl (hcontinues hc)
  | suspend _ _ _ _ _ _ ht | yankSuspend _ _ _ _ ht =>
    rw [ht] at hmem
    exact .inl (by simpa [Daemon.suspendAt] using hmem)
  | nestedYank _ _ _ _ ht => exact .inl (by rw [ht] at hmem; exact hmem)
  | line site inner event _ _ ht =>
    rw [ht] at hmem
    have hnotify : e ∈ (notifyEvent s event).loop.kinds := by
      simpa [Daemon.suspendAt] using hmem
    refine .inl (mem_kinds_outside (outside_notifyEvent s event) ?_ hnotify)
    rcases he with rfl | rfl <;> simp
  | executed _ _ _ reply _ _ _ _ _ _ _ hc =>
    refine .inl (mem_kinds_outside (outside_executeCo s reply) ?_ (hcontinues hc))
    rcases he with rfl | rfl <;> simp

end ColoDaemon
