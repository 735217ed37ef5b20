import ColoDaemon.Arbitration
import ColoDaemon.FailoverArray
import ColoDaemon.FailoverSync

/-!
# The loser's late message during a failover

`_colod_execute_array_co` polls the queue before every element and treats the peer's failover
message like any interrupting event, so a winner that is still running its failover commands gives
up. `STATE_PRIMARY_WAIT` expects the late message and ignores it; the failover tolerates it only
after the last poll.
-/

namespace ColoDaemon
open Runs EventLoop
variable {s t : Daemon} {before : List Obs} {table : CommandTable}

/-- The program points of `STATE_FAILOVER`. -/
def Pc.inFailover : Pc → Bool
  | .enter .failover | .yank _ => true
  | .array co | .exec (.element co _) _ _ => !co.table.migrates
  | _ => false

/-- The yank succeeds and QMP answers every command. -/
def Usable (s : Daemon) (label : Label) : Prop :=
  s.qmpError = false ∧ label ≠ .io (.reply none) ∧ label ≠ .io (.yankReply .error) ∧
    label ≠ .io (.yankReply .failed)

instance (s : Daemon) (label : Label) : Decidable (Usable s label) :=
  inferInstanceAs (Decidable (_ ∧ _))

/-- What every step of a stay in `STATE_FAILOVER` meets. -/
def Staying (s : Daemon) (label : Label) : Prop :=
  s.pc.inFailover = true ∧ s.Undisturbed ∧ Usable s label

instance (s : Daemon) (label : Label) : Decidable (Staying s label) :=
  inferInstanceAs (Decidable (_ ∧ _))

/-- From entering `STATE_FAILOVER` to leaving it. -/
structure FailoverStay (s : Daemon) (labels : List Label) (t : Daemon) : Prop where
  begins : s.pc = .enter .failover
  run : run step s labels = some t
  stays : Along step Staying s labels
  ends : t.pc.inFailover = false

/-- The array that a failover runs. -/
def failoverTable (primary : Bool) : CommandTable :=
  if primary then .failoverPrimary else .failoverSecondary

/-- The property: the whole array is executed and the node becomes a standalone primary. -/
def Completes (s t : Daemon) : Prop :=
  t.pc = .enter .primaryWait ∧
    ∃ array, Commanded s.trace (failoverTable s.primary) array array t.trace

/-- A poll before an element finds the peer's message, or an array that a client has replaced. -/
def Thwarted (s : Daemon) (label : Label) : Prop :=
  label = .run ∧ ∃ co, s.pc = .array co ∧ co.i < co.array.length ∧
    (co.dangling = true ∨ .peerFailover ∈ s.loop.kinds)

theorem failoverTable_migrates (primary : Bool) : (failoverTable primary).migrates = false := by
  cases primary <;> rfl

/-! ### One step -/

/-- During a failover only the peer's message interrupts. -/
theorem pending_iff_peer (hsound : LoopSound s) (hquiet : s.Undisturbed) {co : ArrayFrame}
    (hpc : s.pc = .array co) (hmigrates : co.table.migrates = false) :
    s.pendingInterrupt = true ↔ .peerFailover ∈ s.loop.kinds := by
  have htable : s.loop.queue.TableIs [] :=
    hsound.tabled.table _ (by rw [hpc]; simp [Pc.table, hmigrates])
  rw [pendingInterrupt_iff hsound.first]
  constructor
  · rintro ⟨e, hmem, hint⟩
    obtain ⟨hfailed, hquit, hautoquit⟩ := hquiet e hmem
    have halways : eventAlwaysInterrupting e = true := by
      simpa using htable.interrupting_iff.mp hint
    cases e <;> first | exact hmem | contradiction
  · intro hmem
    exact ⟨_, hmem, htable.interrupting_iff.mpr (.inl rfl)⟩

theorem peer_outside {allowed : List ColodEvent} (hout : Outside s t allowed)
    (hallowed : ColodEvent.peerFailover ∉ allowed) :
    .peerFailover ∈ t.loop.kinds ↔ .peerFailover ∈ s.loop.kinds := by
  obtain ⟨events, hloop, hevents⟩ := hout.loop
  rw [hloop]
  constructor
  · intro hmem
    rcases mem_kinds_of_queueAll hmem with hin | hin
    · exact absurd (hevents _ hin) hallowed
    · exact hin
  · exact mem_kinds_queueAll

theorem PcOutside.inFailover {pc pc' : Pc} {n n' : ℕ} (h : PcOutside pc n pc' n') :
    pc'.inFailover = pc.inFailover := by
  cases h <;> rfl

/-- A step goes on with the failover, ends it well, or fails because a poll was thwarted. -/
theorem failover_step {label : Label} (hstep : step s label = some t) (hsound : LoopSound s)
    (hb : s.loop.Bounded) (hin : s.pc.inFailover = true) (hquiet : s.Undisturbed)
    (husable : Usable s label) :
    (t.pc.inFailover = true ∧ ¬ Thwarted s label ∧
      (.peerFailover ∈ t.loop.kinds ↔ .peerFailover ∈ s.loop.kinds ∨ PeerAccepted s label)) ∨
    (t.pc = .enter .primaryWait ∧ ¬ Thwarted s label) ∨
    ((t.pc = .enter .failed ∨ t.pc = .aborted) ∧ Thwarted s label) := by
  have hio : ∀ {x : IoStep}, ¬ Thwarted s (.io x) := fun h => nomatch h.1
  have hnot : ∀ {l : Label}, (∀ m own, l ≠ .cpgDeliver m own) → ¬ PeerAccepted s l :=
    fun h hp => h _ _ hp.1
  cases change_of_step hstep with
  | callback _ hc hout =>
    refine .inl ⟨hout.pc.inFailover.trans hin, ?_, peer_callback hb hc hout⟩
    rintro ⟨rfl, -⟩
    cases hc
  | dispatch source _ hd =>
    obtain ⟨wakeSources, resumeSources, rfl⟩ := dispatch_eq hd
    exact .inl ⟨hin, nofun, by simp [hnot, kinds]⟩
  | enter newState _ hpc ht =>
    rw [hpc] at hin
    have hnew : newState = .failover := by
      cases newState <;> first | rfl | cases hin
    subst hnew ht
    refine .inl ⟨rfl, ?_, ?_⟩
    · rintro ⟨-, co, hco, -⟩
      rw [hpc] at hco
      cases hco
    · have hno : ¬ PeerAccepted s .run := hnot (by simp)
      simp only [hno, or_false]
      exact EventQueue.mem_kinds_setInterrupting
  | turn pc pc' obs susp _ hpc hturn hc =>
    rw [hpc] at hin
    cases hturn with
    | arrayEnd co _ _ hi hturn =>
      obtain ⟨-, ⟨-, rfl⟩ | ⟨herr, -⟩⟩ := hturn.of_failover (by simpa [Pc.inFailover] using hin)
      · refine .inr (.inl ⟨hc.pc, ?_⟩)
        rintro ⟨-, co', hco', hlt, -⟩
        rw [hpc] at hco'
        cases hco'
        have hge := List.getElem?_eq_none_iff.mp hi
        omega
      · exact absurd rfl herr
    | arrayInterrupted co line _ _ hi hpending hturn =>
      have hmigrates : co.table.migrates = false := by simpa [Pc.inFailover] using hin
      have hpeer := (pending_iff_peer hsound hquiet hpc hmigrates).mp hpending
      obtain ⟨hlt, -⟩ := List.getElem?_eq_some_iff.mp hi
      obtain ⟨-, ⟨herr, -⟩ | ⟨-, hend⟩⟩ := hturn.of_failover hmigrates
      · cases herr
      · exact .inr (.inr ⟨hend.imp hc.pc.trans hc.pc.trans, rfl, co, hpc, hlt, .inr hpeer⟩)
    | element co line hi hdangling hpending =>
      have hmigrates : co.table.migrates = false := by simpa [Pc.inFailover] using hin
      refine .inl ⟨by rw [hc.pc]; exact hin, ?_, by simp [hnot, kinds_continues hc]⟩
      rintro ⟨-, co', hco', -, hd | hpeer⟩
      · rw [hpc] at hco'
        cases hco'
        rw [hdangling] at hd
        cases hd
      · rw [← pending_iff_peer hsound hquiet hpc hmigrates, hpending] at hpeer
        cases hpeer
    | released co line hi hdangling =>
      obtain ⟨hlt, -⟩ := List.getElem?_eq_some_iff.mp hi
      exact .inr (.inr ⟨.inr hc.pc, rfl, co, hpc, hlt, .inl hdangling⟩)
    | _ => cases hin
  | suspend site written inner inner' _ hpc ht =>
    subst ht
    rw [hpc] at hin
    exact .inl ⟨by cases site <;> exact hin, hio, by simp [hnot, kinds, Daemon.suspendAt]⟩
  | write site inner _ hpc hc =>
    rw [hpc] at hin
    refine .inl ⟨?_, hio, by simp [hnot, kinds_continues hc]⟩
    rw [hc.pc]
    cases site <;> exact hin
  | line site inner event _ hpc ht =>
    subst ht
    rw [hpc] at hin
    have hpeer := peer_outside (outside_notifyEvent s event) (by simp)
    refine .inl ⟨by cases site <;> exact hin, hio, ?_⟩
    simpa [hnot, kinds, Daemon.suspendAt] using hpeer
  | nestedYank site inner _ hpc ht =>
    subst ht
    exact .inl ⟨hin, hio, by simp [hnot]⟩
  | executed site written inner reply obs susp pc _ hpc _ hturn hc =>
    rw [hpc] at hin
    have hpeer := peer_outside (outside_executeCo s reply) (by simp)
    cases site with
    | element co line =>
      have hmigrates : co.table.migrates = false := by simpa [Pc.inFailover] using hin
      have hignore : ignoreErrors co.table = true := by
        cases hco : co.table <;> simp_all [CommandTable.migrates, ignoreErrors]
      have hresult : (colodExecuteCo s reply).1 ≠ .error .fatal := by
        obtain ⟨hqmp, hreply, -⟩ := husable
        cases reply with
        | none => exact absurd rfl hreply
        | some reply =>
          cases reply <;> cases hy : s.didYank <;>
            simp [colodExecuteCo, colodExecuteNocheckCo, hqmp, hy]
      have hres := executeCo_fst' s reply
      generalize (colodExecuteCo s reply).1 = result at hturn hresult hres
      cases hturn with
      | next =>
        refine .inl ⟨by rw [hc.pc]; exact hin, hio, ?_⟩
        rw [kinds_continues hc]
        simpa [hnot] using hpeer
      | broken _ _ err _ _ herr =>
        rcases hres with h | h | h
        · exact absurd h hresult
        · cases h
        · cases h
          simp [hignore] at herr
      | fails _ _ hsite => simp at hsite
      | interrupted _ hsite => simp at hsite
      | cancel _ hsite => simp at hsite
    | _ => cases hin
  | yankSuspend inner inner' _ hpc ht =>
    subst ht
    exact .inl ⟨rfl, hio, by simp [hnot, kinds, Daemon.suspendAt]⟩
  | yanked inner table _ hpc htable hc =>
    refine .inl ⟨?_, hio, by simp [hnot, kinds_continues hc]⟩
    rw [hc.pc, htable]
    cases s.primary <;> rfl
  | yankFailed inner reply _ hpc hreply =>
    obtain ⟨-, -, herror, hfailed⟩ := husable
    cases reply with
    | result => exact absurd rfl hreply
    | error => exact absurd rfl herror
    | failed => exact absurd rfl hfailed
  | start _ hpc | wait _ _ _ hpc | event _ _ _ _ _ _ hpc =>
    rw [hpc] at hin
    cases hin

/-! ### The whole failover -/

theorem failover_outcome {labels : List Label} (hsound : LoopSound s) (hb : s.loop.Bounded)
    (hin : s.pc.inFailover = true) (hrun : run step s labels = some t)
    (hstays : Along step Staying s labels) (hends : t.pc.inFailover = false) :
    (t.pc = .enter .primaryWait ∧ ¬ Sometime step Thwarted s labels) ∨
      ((t.pc = .enter .failed ∨ t.pc = .aborted) ∧ Sometime step Thwarted s labels) := by
  induction labels generalizing s with
  | nil =>
    cases hrun
    rw [hin] at hends
    cases hends
  | cons label labels ih =>
    obtain ⟨u, hstep, hrun⟩ := run_cons_eq_some.mp hrun
    obtain ⟨⟨-, hquiet, husable⟩, hrest⟩ := hstays
    have hrest := hrest u hstep
    have hsometime : Sometime step Thwarted s (label :: labels) ↔
        Thwarted s label ∨ Sometime step Thwarted u labels := by
      simp [Sometime, hstep]
    -- outside the failover the stay is over
    have hover : u.pc.inFailover = false → labels = [] ∧ u = t := by
      intro hu
      cases labels with
      | nil =>
        cases hrun
        exact ⟨rfl, rfl⟩
      | cons l ls =>
        have hin' := hrest.1.1
        rw [hu] at hin'
        cases hin'
    rw [hsometime]
    rcases failover_step hstep hsound hb hin hquiet husable with ⟨hu, hnot, -⟩ | ⟨hu, hnot⟩ |
      ⟨hu, hthwarted⟩
    · have hbu : u.loop.Bounded := bounded_invariant.step hstep
        fun _ => queueAll_preserves (P := Bounded) (fun _ _ => Bounded.colodEventQueue) hb
      simpa only [hnot, false_or] using ih (loopSound_step hstep hsound) hbu hu hrun hrest
    · obtain ⟨rfl, rfl⟩ := hover (by rw [hu]; rfl)
      exact .inl ⟨hu, by simp [hnot, Sometime]⟩
    · obtain ⟨rfl, rfl⟩ := hover (by rcases hu with hu | hu <;> rw [hu] <;> rfl)
      exact .inr ⟨hu, .inl hthwarted⟩

/-- During a failover the peer's event is pending exactly if it was at the start or has been
queued since. -/
theorem peer_iff_peerQueued {labels : List Label} (hsound : LoopSound s) (hb : s.loop.Bounded)
    (hin : s.pc.inFailover = true) (hrun : run step s labels = some t)
    (hstays : Along step Staying s labels) (hends : t.pc.inFailover = true) :
    .peerFailover ∈ t.loop.kinds ↔ PeerQueued s labels := by
  induction labels generalizing s with
  | nil =>
    cases hrun
    simp [PeerQueued, Sometime]
  | cons label labels ih =>
    obtain ⟨u, hstep, hrun⟩ := run_cons_eq_some.mp hrun
    obtain ⟨⟨-, hquiet, husable⟩, hrest⟩ := hstays
    have hrest := hrest u hstep
    have hu : u.pc.inFailover = true := by
      cases labels with
      | nil =>
        cases hrun
        exact hends
      | cons l ls => exact hrest.1.1
    have hbu : u.loop.Bounded := bounded_invariant.step hstep
      fun _ => queueAll_preserves (P := Bounded) (fun _ _ => Bounded.colodEventQueue) hb
    rw [ih (loopSound_step hstep hsound) hbu hu hrun hrest]
    rcases failover_step hstep hsound hb hin hquiet husable with ⟨-, -, hpeer⟩ | ⟨hpc, -⟩ |
      ⟨hpc | hpc, -⟩
    · simp only [PeerQueued, Sometime, hpeer, hstep, Option.some.injEq, exists_eq_left', or_assoc]
    · rw [hpc] at hu
      cases hu
    · rw [hpc] at hu
      cases hu
    · rw [hpc] at hu
      cases hu

/-! ### The commands of the failover -/

/-- How far a failover is with its array. -/
def Executing (before : List Obs) (table : CommandTable) (s : Daemon) : Prop :=
  (s.pc = .enter .failover ∧ before.Sublist s.trace) ∨
    (∃ inner, s.pc = .yank inner ∧ s.state = .failover ∧ before.Sublist s.trace) ∨
    Commanding before table s.pc s.state s.trace

theorem executing_step {label : Label} (hstep : step s label = some t)
    (hs : Executing before (failoverTable s.primary) s) :
    t.primary = s.primary ∧ (Executing before (failoverTable s.primary) t ∨
      CommandingNext before (failoverTable s.primary) t.pc t.state t.trace) := by
  have hgrow : ∀ {trace obs}, before.Sublist trace → before.Sublist (trace ++ obs) :=
    fun h => h.trans (List.sublist_append_left _ _)
  rcases hs with ⟨hpc, hsub⟩ | ⟨inner, hpc, hstate, hsub⟩ | hs
  · cases change_of_step hstep with
    | callback _ _ hout =>
      obtain ⟨clients, htrace⟩ := hout.trace
      have hpc' := (hpc ▸ hout.pc).enter
      exact ⟨hout.primary, .inl (.inl ⟨hpc', htrace ▸ hgrow hsub⟩)⟩
    | dispatch source _ hd =>
      obtain ⟨wakeSources, resumeSources, rfl⟩ := dispatch_eq hd
      exact ⟨rfl, .inl (.inl ⟨hpc, hsub⟩)⟩
    | enter newState _ hpc' ht =>
      rw [hpc] at hpc'
      cases hpc'
      subst ht
      exact ⟨rfl, .inl (.inr (.inl ⟨.channel, rfl, rfl, hgrow hsub⟩))⟩
    | start _ hpc' | wait _ _ _ hpc' | event _ _ _ _ _ _ hpc' | suspend _ _ _ _ _ hpc'
    | write _ _ _ hpc' | line _ _ _ _ hpc' | nestedYank _ _ _ hpc' | executed _ _ _ _ _ _ _ _ hpc'
    | yankSuspend _ _ _ hpc' | yanked _ _ _ hpc' | yankFailed _ _ _ hpc' =>
      rw [hpc] at hpc'
      cases hpc'
    | turn pc pc' obs susp _ hpc' hturn =>
      rw [hpc] at hpc'
      subst hpc'
      cases hturn
  · cases change_of_step hstep with
    | callback _ _ hout =>
      obtain ⟨clients, htrace⟩ := hout.trace
      have hpc' := (hpc ▸ hout.pc).yank
      have hstate' := hout.state.trans hstate
      exact ⟨hout.primary, .inl (.inr (.inl ⟨inner, hpc', hstate', htrace ▸ hgrow hsub⟩))⟩
    | dispatch source _ hd =>
      obtain ⟨wakeSources, resumeSources, rfl⟩ := dispatch_eq hd
      exact ⟨rfl, .inl (.inr (.inl ⟨inner, hpc, hstate, hsub⟩))⟩
    | yankSuspend _ inner' _ _ ht =>
      subst ht
      exact ⟨rfl, .inl (.inr (.inl ⟨inner', rfl, hstate, hsub⟩))⟩
    | yanked _ table _ _ htable hc =>
      refine ⟨hc.primary, .inl (.inr (.inr ?_))⟩
      rw [hc.pc, hc.state, hc.trace, hstate, ← show table = failoverTable s.primary from htable]
      have hyank : before.Sublist (s.trace ++ [.yanked]) := hgrow hsub
      exact commanding_yanked hyank
    | yankFailed _ _ _ _ _ hc => exact ⟨hc.primary, .inr (.inr (.inr (.inl hc.pc)))⟩
    | start _ hpc' | enter _ _ hpc' | wait _ _ _ hpc' | event _ _ _ _ _ _ hpc'
    | suspend _ _ _ _ _ hpc' | write _ _ _ hpc' | line _ _ _ _ hpc' | nestedYank _ _ _ hpc'
    | executed _ _ _ _ _ _ _ _ hpc' =>
      rw [hpc] at hpc'
      cases hpc'
    | turn pc pc' obs susp _ hpc' hturn =>
      rw [hpc] at hpc'
      subst hpc'
      cases hturn
  · obtain ⟨hprimary, hnext⟩ := commanding_step hstep (failoverTable_migrates _) hs
    exact ⟨hprimary, .inr hnext⟩

/-- A failover that ends in `STATE_PRIMARY_WAIT` has sent its whole array. -/
theorem commanded_of_run {labels : List Label} (hs : Executing before table s)
    (htable : table = failoverTable s.primary) (hrun : run step s labels = some t)
    (hstays : Along step Staying s labels) (hends : t.pc = .enter .primaryWait) :
    ∃ array, Commanded before table array array t.trace := by
  induction labels generalizing s with
  | nil =>
    cases hrun
    rcases hs with ⟨hpc, -⟩ | ⟨inner, hpc, -⟩ | hs
    · rw [hends] at hpc
      cases hpc
    · rw [hends] at hpc
      cases hpc
    · rw [hends] at hs
      exact hs.elim
  | cons label labels ih =>
    obtain ⟨u, hstep, hrun⟩ := run_cons_eq_some.mp hrun
    have hrest := hstays.2 u hstep
    obtain ⟨hprimary, hu⟩ := executing_step hstep (htable ▸ hs)
    rw [← htable] at hu
    have hgo : Executing before table u → ∃ array, Commanded before table array array t.trace :=
      fun h => ih h (by rw [htable, hprimary]) hrun hrest
    cases labels with
    | nil =>
      cases hrun
      rcases hu with h | h | ⟨-, h⟩ | h | h
      · exact hgo h
      · exact hgo (.inr (.inr h))
      · exact h
      · rw [hends] at h
        cases h
      · rw [hends] at h
        cases h
    | cons l ls =>
      have hin := hrest.1.1
      rcases hu with h | h | ⟨h, -⟩ | h | h
      · exact hgo h
      · exact hgo (.inr (.inr h))
      · rw [h] at hin
        cases hin
      · rw [h] at hin
        cases hin
      · rw [h] at hin
        cases hin

/-! ### The failover can be finished -/

/-- The main coroutine runs, QMP is usable and nothing that interrupts a failover is pending. -/
structure Daemon.Clear (s : Daemon) : Prop where
  running : s.running = true
  yellow : s.yellowCo.aborted = false
  qmp : s.qmpError = false
  quiet : s.Undisturbed
  peer : .peerFailover ∉ s.loop.kinds

namespace Daemon.Clear

/-- What keeps the fields that `Clear` is about and queues at most `EVENT_FAILOVER_SYNC`. -/
theorem of_eq (hs : s.Clear) (hrun : t.running = s.running) (hyellow : t.yellowCo = s.yellowCo)
    (hqmp : t.qmpError = s.qmpError)
    (hkinds : ∀ e ∈ t.loop.kinds, e = .failoverSync ∨ e ∈ s.loop.kinds) : t.Clear := by
  refine ⟨hrun.trans hs.running, hyellow ▸ hs.yellow, hqmp.trans hs.qmp, ?_, ?_⟩
  · intro e he
    rcases hkinds e he with rfl | hmem
    · simp
    · exact hs.quiet e hmem
  · intro hpeer
    rcases hkinds _ hpeer with h | hmem
    · cases h
    · exact hs.peer hmem

theorem step_run (hs : s.Clear) (hdone : s.pc ≠ .done) (haborted : s.pc ≠ .aborted) :
    step s .run = mainRun s := by
  unfold step
  simp [hdone, haborted, hs.yellow, hs.running]

theorem step_io (hs : s.Clear) (hdone : s.pc ≠ .done) (haborted : s.pc ≠ .aborted) (x : IoStep) :
    step s (.io x) = s.io x := by
  unfold step
  simp [hdone, haborted, hs.yellow, hs.running]

end Daemon.Clear

/-- The next command, its write and its answer. -/
theorem element_begins {co : ArrayFrame} {line : String} (hsound : LoopSound s) (hs : s.Clear)
    (hpc : s.pc = .array co) (hmigrates : co.table.migrates = false)
    (hi : co.array[co.i]? = some line) (hdangling : co.dangling = false) :
    ∃ t, step s .run = some t ∧ t.Clear ∧ t.pc = .exec (.element co line) false .channel := by
  have hpending : s.pendingInterrupt = false := by
    have hiff := pending_iff_peer hsound hs.quiet hpc hmigrates
    simpa [hs.peer] using hiff
  have hrun : mainRun s = some (s.execute (.element co line)) := by
    simp [mainRun, hpc, colodExecuteArrayCo, hi, hdangling, hpending]
  rw [hs.step_run (by simp [hpc]) (by simp [hpc])]
  exact ⟨_, hrun, hs.of_eq rfl rfl rfl fun _ he => .inr he, rfl⟩

theorem element_written {site : ExecSite} {inner : InnerWait} (hs : s.Clear)
    (hpc : s.pc = .exec site false inner) :
    ∃ t, step s (.io .write) = some t ∧ t.Clear ∧ t.pc = .exec site true inner := by
  have hio : s.io .write = some ((s.observe (.command s.state site.command)).continueAt
      (.exec site true inner)) := by
    simp [Daemon.io, hpc]
  rw [hs.step_io (by simp [hpc]) (by simp [hpc])]
  exact ⟨_, hio, hs.of_eq rfl rfl rfl fun _ he => .inr he, rfl⟩

theorem element_answered {co : ArrayFrame} {line : String} {inner : InnerWait} (hs : s.Clear)
    (hpc : s.pc = .exec (.element co line) true inner) :
    ∃ t, step s (.io (.reply (some .result))) = some t ∧ t.Clear ∧
      t.pc = .array { co with i := co.i + 1 } := by
  rw [hs.step_io (by simp [hpc]) (by simp [hpc])]
  by_cases hy : s.didYank = true
  · have hio : s.io (.reply (some .result)) =
        some (({ s with didYank := false }.queueEvent .failoverSync).continueAt
          (.array { co with i := co.i + 1 })) := by
      simp [Daemon.io, hpc, colodExecuteCo, colodExecuteNocheckCo, hs.qmp, hy, execReturn,
        executeArrayElement]
    refine ⟨_, hio, hs.of_eq ?_ rfl rfl ?_, rfl⟩
    · simp [Daemon.running, Daemon.continueAt, Daemon.queueEvent]
    · intro e he
      exact mem_kinds_of_colodEventQueue he
  · have hio : s.io (.reply (some .result)) =
        some (s.continueAt (.array { co with i := co.i + 1 })) := by
      simp [Daemon.io, hpc, colodExecuteCo, colodExecuteNocheckCo, hs.qmp, hy, execReturn,
        executeArrayElement]
    exact ⟨_, hio, hs.of_eq rfl rfl rfl fun _ he => .inr he, rfl⟩

theorem Daemon.Clear.staying {label : Label} (hs : s.Clear) (hin : s.pc.inFailover = true)
    (hl : label = .run ∨ label = .io .write ∨ label = .io (.reply (some .result)) ∨
      label = .io (.yankReply .result)) : Staying s label := by
  refine ⟨hin, hs.quiet, ?_⟩
  rcases hl with rfl | rfl | rfl | rfl <;> exact ⟨hs.qmp, by simp, by simp, by simp⟩

/-- The remaining commands can be sent. -/
theorem array_finishes {co : ArrayFrame} {n : ℕ} (hsound : LoopSound s) (hs : s.Clear)
    (hpc : s.pc = .array co) (hmigrates : co.table.migrates = false)
    (hdangling : co.dangling = false) (hn : co.array.length - co.i = n) :
    ∃ labels t, run step s labels = some t ∧ t.pc = .enter .primaryWait ∧
      Along step Staying s labels := by
  have hin : s.pc.inFailover = true := by simp [hpc, Pc.inFailover, hmigrates]
  induction n generalizing s co with
  | zero =>
    have hi : co.array[co.i]? = none := List.getElem?_eq_none_iff.mpr (by omega)
    have hend : mainRun s = some ((colodClearPeer s).goto .primaryWait) := by
      simp only [mainRun, hpc, colodExecuteArrayCo, hi]
      cases htable : co.table with
      | migrationStart | migrationSwitchover => simp [htable, CommandTable.migrates] at hmigrates
      | failoverPrimary | failoverSecondary => rfl
    have hrun := hs.step_run (by simp [hpc]) (by simp [hpc])
    rw [hend] at hrun
    exact exists_run_cons hrun (hs.staying hin (.inl rfl)) ⟨[], _, rfl, rfl, trivial⟩
  | succ n ih =>
    have hlt : co.i < co.array.length := by omega
    have hi : co.array[co.i]? = some co.array[co.i] := List.getElem?_eq_getElem hlt
    obtain ⟨u, hbegin, hu, hupc⟩ := element_begins hsound hs hpc hmigrates hi hdangling
    obtain ⟨v, hwrite, hv, hvpc⟩ := element_written hu hupc
    obtain ⟨w, hreply, hw, hwpc⟩ := element_answered hv hvpc
    have hinu : u.pc.inFailover = true := by simp [hupc, Pc.inFailover, hmigrates]
    have hinv : v.pc.inFailover = true := by simp [hvpc, Pc.inFailover, hmigrates]
    have hinw : w.pc.inFailover = true := by simp [hwpc, Pc.inFailover, hmigrates]
    have hsoundw : LoopSound w :=
      loopSound_step hreply (loopSound_step hwrite (loopSound_step hbegin hsound))
    have hleft : co.array.length - (co.i + 1) = n := by omega
    refine exists_run_cons hbegin (hs.staying hin (.inl rfl)) ?_
    refine exists_run_cons hwrite (hu.staying hinu (.inr (.inl rfl))) ?_
    refine exists_run_cons hreply (hv.staying hinv (.inr (.inr (.inl rfl)))) ?_
    exact ih hsoundw hw hwpc hmigrates hdangling hleft hinw

theorem failover_finishes (hsound : LoopSound s) (hs : s.Clear) (hpc : s.pc = .enter .failover) :
    ∃ labels t, run step s labels = some t ∧ t.pc = .enter .primaryWait ∧
      Along step Staying s labels := by
  have henter : mainRun s = some (colodMainCo s .failover) := by simp [mainRun, hpc]
  have hrun := hs.step_run (by simp [hpc]) (by simp [hpc])
  rw [henter] at hrun
  have hu : (colodMainCo s .failover).Clear := by
    refine hs.of_eq rfl rfl rfl fun e he => .inr ?_
    exact EventQueue.mem_kinds_setInterrupting.mp he
  have hupc : (colodMainCo s .failover).pc = .yank .channel := rfl
  have hsoundu := loopSound_step hrun hsound
  refine exists_run_cons hrun (hs.staying (by rw [hpc]; rfl) (.inl rfl)) ?_
  generalize colodMainCo s .failover = u at hu hupc hsoundu
  have hyank := hu.step_io (by simp [hupc]) (by simp [hupc]) (.yankReply .result)
  rw [show u.io (.yankReply .result) = some (yankReturn u .result) by
    simp [Daemon.io, hupc]] at hyank
  refine exists_run_cons hyank (hu.staying (by rw [hupc]; rfl) (.inr (.inr (.inr rfl)))) ?_
  have hv : (yankReturn u .result).Clear := hu.of_eq rfl rfl rfl fun _ he => .inr he
  exact array_finishes (loopSound_step hyank hsoundu) hv rfl (failoverTable_migrates _) rfl rfl

/-! ### The claim -/

/-- No poll before a command finds the peer's message, or an array that a client has replaced. -/
def InTime (s : Daemon) (labels : List Label) : Prop :=
  ∀ n u co, run step s (labels.take n) = some u → labels[n]? = some .run → u.pc = .array co →
    co.i < co.array.length → co.dangling = false ∧ ¬ PeerQueued s (labels.take n)

theorem inTime_iff {labels : List Label} (hsound : LoopSound s) (hb : s.loop.Bounded)
    (h : FailoverStay s labels t) : InTime s labels ↔ ¬ Sometime step Thwarted s labels := by
  rw [not_sometime, along_iff]
  have hin : s.pc.inFailover = true := by rw [h.begins]; rfl
  have hpoll : ∀ {n u label}, run step s (labels.take n) = some u → labels[n]? = some label →
      (.peerFailover ∈ u.loop.kinds ↔ PeerQueued s (labels.take n)) := by
    intro n u label hu hl
    have hstays := h.stays
    rw [← List.take_append_drop n labels, along_append hu] at hstays
    exact peer_iff_peerQueued hsound hb hin hu hstays.1 (along_iff.mp h.stays n u label hu hl).1
  constructor
  · rintro hintime n u label hu hl ⟨rfl, co, hpc, hlt, hthwarted⟩
    obtain ⟨hdangling, hpeer⟩ := hintime n u co hu hl hpc hlt
    rcases hthwarted with hd | hmem
    · rw [hdangling] at hd
      cases hd
    · exact hpeer ((hpoll hu hl).mp hmem)
  · intro hnot n u co hu hl hpc hlt
    constructor
    · by_contra hd
      exact hnot n u _ hu hl ⟨rfl, co, hpc, hlt, .inl (by simpa using hd)⟩
    · intro hpeer
      exact hnot n u _ hu hl ⟨rfl, co, hpc, hlt, .inr ((hpoll hu hl).mpr hpeer)⟩

/-- A failover on which nothing else intrudes executes its whole array and ends in
`STATE_PRIMARY_WAIT` if and only if no poll before a command finds the peer's message; and with
qemu answering it can always be brought to that end. -/
theorem failover_completes_iff_inTime (ctx : ColodContext) (before : List Label) (s : Daemon)
    (hrun : run step (Daemon.init ctx) before = some s) (hpc : s.pc = .enter .failover) :
    (∀ labels t, FailoverStay s labels t → (Completes s t ↔ InTime s labels)) ∧
    (s.yellowCo.aborted = false → s.qmpError = false → s.Undisturbed →
      .peerFailover ∉ s.loop.kinds → ∃ labels t, FailoverStay s labels t ∧ Completes s t) := by
  have hsound := loopSound_of_run hrun
  have hcommanded : ∀ {labels t}, FailoverStay s labels t → t.pc = .enter .primaryWait →
      Completes s t := by
    intro labels t h hend
    exact ⟨hend, commanded_of_run (.inl ⟨hpc, List.Sublist.refl _⟩) rfl h.run h.stays hend⟩
  constructor
  · intro labels t h
    have hin : s.pc.inFailover = true := by rw [hpc]; rfl
    rw [inTime_iff hsound (bounded_of_run hrun) h]
    rcases failover_outcome hsound (bounded_of_run hrun) hin h.run h.stays h.ends with
      ⟨hend, hnot⟩ | ⟨hend, hthwarted⟩
    · simp [hcommanded h hend, hnot]
    · simp only [hthwarted, not_true_eq_false, iff_false]
      rintro ⟨hwait, -⟩
      rw [hwait] at hend
      rcases hend with hend | hend <;> cases hend
  · intro hyellow hqmp hquiet hpeer
    have hclear : s.Clear :=
      ⟨running_of_run hrun (by rw [hpc]; rfl), hyellow, hqmp, hquiet, hpeer⟩
    obtain ⟨labels, t, hrun', hend, hstays⟩ := failover_finishes hsound hclear hpc
    have hstay : FailoverStay s labels t := ⟨hpc, hrun', hstays, by rw [hend]; rfl⟩
    exact ⟨labels, t, hstay, hcommanded hstay hend⟩

/-- A secondary with one failover command that has won the arbitration. -/
def Schedule.failover : List Label :=
  [.clientNew, .clientRequest 0 (.setCommands .failoverSecondary ["{}"])] ++ Schedule.failoverSync ++
    [.cpgDeliver .failover true, .dispatch (.wake 2), .run]

theorem failover_completes_iff_inTime_winner :
    ∃ s labels t, run step (Daemon.init Schedule.context) Schedule.failover = some s ∧
      FailoverStay s labels t ∧ Completes s t ∧ InTime s labels := by
  have hstate : (run step (Daemon.init Schedule.context) Schedule.failover).map (fun s =>
      (s.pc, s.yellowCo.aborted, s.qmpError, decide s.Undisturbed,
        decide (ColodEvent.peerFailover ∈ s.loop.kinds))) =
      some (.enter .failover, false, false, true, false) := by decide
  obtain ⟨s, hrun, hs⟩ := Option.map_eq_some_iff.mp hstate
  simp only [Prod.mk.injEq, decide_eq_true_eq, decide_eq_false_iff_not] at hs
  obtain ⟨hpc, hyellow, hqmp, hquiet, hpeer⟩ := hs
  obtain ⟨hiff, hfinish⟩ := failover_completes_iff_inTime Schedule.context _ s hrun hpc
  obtain ⟨labels, t, hstay, hcompletes⟩ := hfinish hyellow hqmp hquiet hpeer
  exact ⟨s, labels, t, hrun, hstay, hcompletes, (hiff labels t hstay).mp hcompletes⟩

/-- The loser's message arrives during the yank and the winner fails before its first command. -/
theorem failover_knocked_out :
    ¬ ∀ (ctx : ColodContext) (before : List Label) (s : Daemon) (labels : List Label) (t : Daemon),
      run step (Daemon.init ctx) before = some s → FailoverStay s labels t → Completes s t := by
  intro hclaim
  let labels : List Label := [.run, .io (.suspend .channel), .cpgDeliver .failover false,
    .dispatch .io, .io (.yankReply .result), .run]
  have hcheck : ((run step (Daemon.init Schedule.context) Schedule.failover).bind fun s =>
      (run step s labels).map fun t => (s.pc, t.pc, decide (Along step Staying s labels))) =
      some (.enter .failover, .enter .failed, true) := by decide
  obtain ⟨s, hs, h⟩ := Option.bind_eq_some_iff.mp hcheck
  obtain ⟨t, ht, h⟩ := Option.map_eq_some_iff.mp h
  simp only [Prod.mk.injEq] at h
  have hstay : FailoverStay s labels t :=
    ⟨h.1, ht, of_decide_eq_true h.2.2, by rw [h.2.1]; rfl⟩
  have hwait := (hclaim _ _ s labels t hs hstay).1
  rw [h.2.1] at hwait
  cases hwait

end ColoDaemon
