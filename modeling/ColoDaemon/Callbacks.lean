import ColoDaemon.DaemonStep

/-!
# What a callback does to the main coroutine

`Outside s s' allowed` says that `s'` differs from `s`, as far as the main coroutine is concerned,
only by events of `allowed` that were queued, by a wait that may have fired and by an array that
may have been released. Every callback of the main loop is of this kind, with the events that its
label raises; so is the handling of an event line that the main coroutine reads itself.
-/

namespace ColoDaemon
open EventLoop

/-- The main coroutine's program counter and the plain idle sources attached for it, before and
after a callback. -/
inductive PcOutside : Pc → ℕ → Pc → ℕ → Prop
  | same (pc : Pc) (n : ℕ) : PcOutside pc n pc n
  | fired (site : QmpWaitSite) (n : ℕ) :
    PcOutside (.qmpWait site false) n (.qmpWait site true) (n + 1)
  | releasedArray (co : ArrayFrame) (n : ℕ) :
    PcOutside (.array co) n (.array { co with dangling := true }) n
  | releasedExec (co : ArrayFrame) (line : String) (written : Bool) (inner : InnerWait) (n : ℕ) :
    PcOutside (.exec (.element co line) written inner) n
      (.exec (.element { co with dangling := true } line) written inner) n

theorem PcOutside.trans {pc pc' pc'' : Pc} {n n' n'' : ℕ} (h : PcOutside pc n pc' n')
    (h' : PcOutside pc' n' pc'' n'') : PcOutside pc n pc'' n'' := by
  cases h with
  | same => exact h'
  | fired => cases h' with | same => exact .fired _ _
  | releasedArray =>
    cases h' with
    | same => exact .releasedArray _ _
    | releasedArray => exact .releasedArray _ _
  | releasedExec =>
    cases h' with
    | same => exact .releasedExec _ _ _ _ _
    | releasedExec => exact .releasedExec _ _ _ _ _

namespace PcOutside
variable {pc : Pc} {n n' : ℕ}

theorem enter {newState : MainState} (h : PcOutside (.enter newState) n pc n') :
    pc = .enter newState := by
  cases h
  rfl

theorem eventWait {site : EventWaitSite} (h : PcOutside (.eventWait site) n pc n') :
    pc = .eventWait site := by
  cases h
  rfl

theorem yank {inner : InnerWait} (h : PcOutside (.yank inner) n pc n') : pc = .yank inner := by
  cases h
  rfl

theorem of_enter {newState : MainState} (h : PcOutside pc n (.enter newState) n') :
    pc = .enter newState := by
  cases h
  rfl

theorem of_eventWait {site : EventWaitSite} (h : PcOutside pc n (.eventWait site) n') :
    pc = .eventWait site := by
  cases h
  rfl

end PcOutside

structure Outside (s s' : Daemon) (allowed : List ColodEvent) : Prop where
  loop : ∃ events, s'.loop = s.loop.queueAll events ∧ ∀ e ∈ events, e ∈ allowed
  pc : PcOutside s.pc s.resumeSources s'.pc s'.resumeSources
  trace : ∃ clients : List ℕ, s'.trace = s.trace ++ clients.map .cont
  ctx : s'.ctx = s.ctx
  state : s'.state = s.state
  transitioning : s'.transitioning = s.transitioning
  failed : s'.failed = s.failed
  peerFailover : s'.peerFailover = s.peerFailover
  primary : s'.primary = s.primary
  replication : s'.replication = s.replication

/-- The part of the state that a change of other fields leaves alone. -/
def Daemon.core (s : Daemon) :=
  (s.loop, s.pc, s.resumeSources, s.trace, s.ctx, s.state, s.transitioning, s.failed,
    s.peerFailover, s.primary, s.replication)

namespace Outside
variable {s t u : Daemon} {allowed allowed' : List ColodEvent}

theorem same (h : t.core = s.core) : Outside s t allowed := by
  simp only [Daemon.core, Prod.mk.injEq] at h
  obtain ⟨hloop, hpc, hn, htrace, hctx, hstate, htr, hfailed, hpf, hprimary, hrep⟩ := h
  refine ⟨⟨[], hloop, by simp⟩, ?_, ⟨[], by simp [htrace]⟩, hctx, hstate, htr, hfailed, hpf,
    hprimary, hrep⟩
  rw [hpc, hn]
  exact .same _ _

theorem refl (s : Daemon) : Outside s s allowed := same rfl

theorem trans (h : Outside s t allowed) (h' : Outside t u allowed) : Outside s u allowed where
  loop := by
    obtain ⟨events, hl, he⟩ := h.loop
    obtain ⟨events', hl', he'⟩ := h'.loop
    refine ⟨events ++ events', by rw [hl', hl, queueAll_append], ?_⟩
    intro e hmem
    exact (List.mem_append.mp hmem).elim (he e) (he' e)
  pc := h.pc.trans h'.pc
  trace := by
    obtain ⟨clients, ht⟩ := h.trace
    obtain ⟨clients', ht'⟩ := h'.trace
    exact ⟨clients ++ clients', by rw [ht', ht, List.map_append, List.append_assoc]⟩
  ctx := h'.ctx.trans h.ctx
  state := h'.state.trans h.state
  transitioning := h'.transitioning.trans h.transitioning
  failed := h'.failed.trans h.failed
  peerFailover := h'.peerFailover.trans h.peerFailover
  primary := h'.primary.trans h.primary
  replication := h'.replication.trans h.replication

/-- A change of other fields first. -/
theorem of_core (h : Outside t u allowed) (hcore : t.core = s.core) : Outside s u allowed :=
  (same hcore).trans h

theorem mono (h : Outside s t allowed) (hsub : ∀ e ∈ allowed, e ∈ allowed') :
    Outside s t allowed' := by
  obtain ⟨events, hl, he⟩ := h.loop
  exact { h with loop := ⟨events, hl, fun e hmem => hsub e (he e hmem)⟩ }

/-- Queueing an event after a change of other fields. -/
theorem queue {e : ColodEvent} (h : t.core = s.core) (he : e ∈ allowed) :
    Outside s (t.queueEvent e) allowed := by
  refine (same h).trans ⟨⟨[e], rfl, by simpa using he⟩, .same _ _, ⟨[], by simp [Daemon.queueEvent]⟩,
    rfl, rfl, rfl, rfl, rfl, rfl, rfl⟩

theorem cont (s : Daemon) (i : ℕ) : Outside s (s.observe (.cont i)) allowed :=
  ⟨⟨[], rfl, by simp⟩, .same _ _, ⟨[i], rfl⟩, rfl, rfl, rfl, rfl, rfl, rfl, rfl⟩

end Outside

/-- The events a callback with this label may queue. -/
def Label.raises : Label → List ColodEvent
  | .cpgDeliver .failover own => if own then [.failoverWin] else [.peerFailover]
  | .cpgDeliver .. | .cpgLeft => [.failoverSync, .yellow]
  | .qmpEvent _ => [.failoverSync, .yellow, .unyellow]
  | .qmpHup | .healthDone _ => [.failed]
  | .link .. | .yellowTimer => [.yellow, .unyellow]
  | .executeDone _ | .yankDone _ | .clientDone .. => [.failed, .failoverSync]
  | .clientRequest .. => [.startMigration, .autoquit]
  | .teardown => [.quit, .yellow, .unyellow]
  | _ => []

/-! ### The callbacks -/

theorem outside_yellowActions (notified : Bool) (s : Daemon) (actions : List YellowAction)
    {allowed : List ColodEvent} (hy : .yellow ∈ allowed) (hu : .unyellow ∈ allowed) :
    Outside s (yellowActions notified s actions) allowed := by
  induction actions generalizing s with
  | nil => exact .refl s
  | cons action actions ih =>
    refine Outside.trans ?_ (ih _)
    cases action with
    | send message => exact .same rfl
    | notify e =>
      cases notified with
      | false => exact .refl s
      | true =>
        simp only [if_true, colodYellowEventCb]
        split_ifs
        · exact .queue rfl hy
        · exact .queue rfl hu

theorem raiseTimeout_core (s : Daemon) : (colodRaiseTimeoutCoroutine s).core = s.core := by
  unfold colodRaiseTimeoutCoroutine
  split_ifs <;> rfl

theorem outside_qmpEventCb (s : Daemon) (event : QmpEvent) :
    Outside s (colodQmpEventCb s event) [.failoverSync, .yellow, .unyellow] := by
  cases event with
  | quorumReportBad nodeName type =>
    simp only [colodQmpEventCb]
    split_ifs
    · exact .queue rfl (by simp)
    · exact .refl s
    · exact .refl s
    · refine Outside.trans ?_ (.queue rfl (by simp))
      exact (outside_yellowActions true _ _ (by simp) (by simp)).of_core rfl
  | migration status =>
    simp only [colodQmpEventCb]
    split_ifs
    · exact .queue rfl (by simp)
    · exact .refl s
  | coloExit reason =>
    simp only [colodQmpEventCb]
    split_ifs
    · exact .queue rfl (by simp)
    · exact .refl s
  | reset => exact .same (raiseTimeout_core s)
  | stop | resume | other => exact .refl s

theorem outside_mainWaitEventCb (s : Daemon) (event : QmpEvent) :
    Outside s (mainWaitEventCb s event) [] := by
  unfold mainWaitEventCb
  split
  · rename_i site hpc
    split_ifs
    · exact ⟨⟨[], rfl, by simp⟩, hpc ▸ .fired site s.resumeSources, ⟨[], by simp⟩,
        rfl, rfl, rfl, rfl, rfl, rfl, rfl⟩
    · exact .refl s
  · exact .refl s

theorem raiseWaitEventCb_core (s : Daemon) (event : QmpEvent) :
    (raiseWaitEventCb s event).core = s.core := by
  unfold raiseWaitEventCb
  split <;> rfl

theorem outside_notifyEvent (s : Daemon) (event : QmpEvent) :
    Outside s (notifyEvent s event) [.failoverSync, .yellow, .unyellow] := by
  have hwait : Outside s (raiseWaitEventCb (mainWaitEventCb s event) event)
      [.failoverSync, .yellow, .unyellow] :=
    ((outside_mainWaitEventCb s event).mono (by simp)).trans (.same (raiseWaitEventCb_core _ event))
  simp only [notifyEvent]
  split_ifs
  · exact hwait
  · exact hwait.trans (outside_qmpEventCb _ event)

theorem outside_cpgEventCb (s : Daemon) (message : ColodMessage) (own left : Bool) :
    Outside s (colodCpgEventCb s message own left)
      (if left then [.failoverSync, .yellow] else (Label.cpgDeliver message own).raises) := by
  unfold colodCpgEventCb
  cases left with
  | true => exact .queue rfl (by simp)
  | false =>
    cases message with
    | failover => cases own <;> exact .queue rfl (by simp [Label.raises])
    | failed => cases own <;> [exact .queue rfl (by simp [Label.raises]); exact .refl s]
    | yellow => cases own <;> [exact .queue rfl (by simp [Label.raises]); exact .refl s]
    | unyellow => cases own <;> [exact .queue rfl (by simp [Label.raises]); exact .refl s]
    | hello =>
      simp only [Bool.false_eq_true, if_false]
      split_ifs
      · exact .same rfl
      · exact .refl s
    | none => exact .refl s

theorem outside_executeNocheckCo (s : Daemon) (reply : Option QmpReply) :
    Outside s (colodExecuteNocheckCo s reply).2 [.failed, .failoverSync] := by
  cases reply with
  | none => exact .queue rfl (by simp)
  | some reply =>
    simp only [colodExecuteNocheckCo]
    split_ifs
    · exact .queue rfl (by simp)
    · exact .queue rfl (by simp)
    · exact .refl s

theorem executeCo_snd (s : Daemon) (reply : Option QmpReply) :
    (colodExecuteCo s reply).2 = (colodExecuteNocheckCo s reply).2 := by
  unfold colodExecuteCo
  split <;> simp_all

theorem outside_executeCo (s : Daemon) (reply : Option QmpReply) :
    Outside s (colodExecuteCo s reply).2 [.failed, .failoverSync] := by
  rw [executeCo_snd]
  exact outside_executeNocheckCo s reply

theorem outside_raiseTimeoutCo (s : Daemon) : Outside s (colodRaiseTimeoutCo s) [] := by
  unfold colodRaiseTimeoutCo
  split <;> exact .same rfl

theorem outside_setCommands (s : Daemon) (table : CommandTable) (commands : List String) :
    Outside s (s.setCommands table commands) [] := by
  have hpc : PcOutside s.pc s.resumeSources (s.setCommands table commands).pc s.resumeSources := by
    unfold Daemon.setCommands
    cases hp : s.pc with
    | array co =>
      by_cases ht : co.table = table
      · simpa [ht] using PcOutside.releasedArray co _
      · simpa [ht] using PcOutside.same _ _
    | exec site written inner =>
      cases site with
      | element co line =>
        by_cases ht : co.table = table
        · simpa [ht] using PcOutside.releasedExec co line written inner _
        · simpa [ht] using PcOutside.same _ _
      | _ => exact .same _ _
    | _ => exact .same _ _
  exact ⟨⟨[], rfl, by simp⟩, hpc, ⟨[], by simp [Daemon.setCommands]⟩, rfl, rfl, rfl, rfl, rfl,
    rfl, rfl⟩

theorem outside_clientRequest (s : Daemon) (i : ℕ) (client : Client) (request : ClientRequest) :
    Outside s (clientRequest s i client request) [.startMigration, .autoquit] := by
  cases request with
  | startMigration =>
    simp only [clientRequest, colodStartMigration]
    split_ifs
    · exact .refl s
    · exact .queue rfl (by simp)
  | autoquit => exact .queue rfl (by simp)
  | setCommands table commands => exact (outside_setCommands s table commands).mono (by simp)
  | quit | setPeer | clearPeer | stop | cont | busy => exact .same rfl

theorem outside_clientWrite {s t : Daemon} {i : ℕ} {client : Client}
    (h : clientWrite s i client = some t) : Outside s t [] := by
  unfold clientWrite at h
  split at h
  · cases h; exact .same rfl
  · cases h; exact .same rfl
  · cases h; exact (Outside.cont _ i).of_core rfl
  · cases h

theorem outside_clientDone {s t : Daemon} {i : ℕ} {client : Client} {reply : Option QmpReply}
    (h : clientDone s i client reply = some t) : Outside s t [.failed, .failoverSync] := by
  have hexec := outside_executeCo s reply
  unfold clientDone at h
  simp only at h
  split at h
  · split_ifs at h
    cases h
    exact hexec.trans (.same rfl)
  · split_ifs at h
    cases h
    exact hexec.trans (.same rfl)
  · split_ifs at h
    cases h
    exact hexec.trans (.same rfl)
  · cases h
    exact hexec.trans (.same rfl)
  · cases h
    exact hexec.trans (.same rfl)
  · cases h
    have hfailed : Outside (colodExecuteCo s reply).2
        ((colodExecuteCo s reply).2.queueEvent .failed) [.failed, .failoverSync] :=
      .queue rfl (by simp)
    exact (hexec.trans hfailed).trans (.same rfl)
  · cases h
    exact .same rfl
  · cases h

theorem outside_callback {s t : Daemon} {l : Label} (h : s.callback l = some t) :
    Outside s t l.raises := by
  cases l with
  | cpgDeliver message own =>
    simp only [Daemon.callback, Option.some.injEq] at h
    subst h
    split_ifs
    · exact .same rfl
    · exact (outside_cpgEventCb _ message own false).of_core rfl
  | cpgLeft =>
    simp only [Daemon.callback, Option.some.injEq] at h
    subst h
    split_ifs
    · exact .same rfl
    · exact (outside_cpgEventCb _ .none false true).of_core rfl
  | cpgRetransmit =>
    simp only [Daemon.callback] at h
    split_ifs at h
    cases h
    exact .same rfl
  | qmpEvent event => cases h; exact outside_notifyEvent s event
  | qmpHup =>
    simp only [Daemon.callback] at h
    split_ifs at h
    cases h
    exact .queue rfl (by simp [Label.raises])
  | qmpError | nestedYank | clientNew => cases h; exact .same rfl
  | link ifname up =>
    cases h
    exact (outside_yellowActions true _ _ (by simp [Label.raises]) (by simp [Label.raises])).of_core rfl
  | yellowTimer =>
    simp only [Daemon.callback] at h
    split_ifs at h
    cases h
    exact (outside_yellowActions true _ _ (by simp [Label.raises]) (by simp [Label.raises])).of_core rfl
  | raiseDispatch =>
    simp only [Daemon.callback] at h
    split at h
    · split_ifs at h
      cases h
      exact outside_raiseTimeoutCo s
    · cases h
  | executeDone reply => cases h; exact outside_executeNocheckCo s reply
  | yankDone reply => cases h; cases reply <;> exact .queue rfl (by simp [Label.raises])
  | healthDone status =>
    cases h
    unfold colodCheckHealthCo
    split
    · exact .queue rfl (by simp [Label.raises])
    · split_ifs
      · exact .queue rfl (by simp [Label.raises])
      · exact .refl s
  | clientRequest i request =>
    simp only [Daemon.callback] at h
    split at h
    · split_ifs at h
      cases h
      exact outside_clientRequest s i _ request
    · cases h
  | clientWrite i =>
    obtain ⟨client, -, h⟩ := Option.bind_eq_some_iff.mp h
    exact outside_clientWrite h
  | clientDone i reply =>
    obtain ⟨client, -, h⟩ := Option.bind_eq_some_iff.mp h
    exact outside_clientDone h
  | clientError i =>
    simp only [Daemon.callback] at h
    split at h
    · split_ifs at h
      cases h
      exact .same rfl
    · cases h
  | teardown =>
    simp only [Daemon.callback] at h
    split_ifs at h
    cases h
    have hquit : Outside s (s.queueEvent .quit) Label.teardown.raises :=
      .queue rfl (by simp [Label.raises])
    have hy : ColodEvent.yellow ∈ Label.teardown.raises := by simp [Label.raises]
    have hu : ColodEvent.unyellow ∈ Label.teardown.raises := by simp [Label.raises]
    have hyellow := outside_yellowActions false
      { s.queueEvent .quit with yellowCo := (yellowShutdown s.yellowCo).1 }
      (yellowShutdown s.yellowCo).2 hy hu
    exact (hquit.trans (hyellow.of_core rfl)).trans (.same rfl)
  | dispatch | run | io => cases h

end ColoDaemon
