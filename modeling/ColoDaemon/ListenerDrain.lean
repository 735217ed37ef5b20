import ColoDaemon.FreedMain

/-!
# The drain of the listener

`client_listener_free` tells every client to quit, shuts down the channels of those that are not
busy, and lets the main context go on until no client is left.
-/

namespace ColoDaemon
namespace Teardown

section Drain
variable {s t : State}

/-- The order of the phases. -/
def Phase.index : Phase → ℕ
  | running => 0
  | mainFree => 1
  | watchdogFree => 2
  | listenerFree => 3
  | qmpFree => 4
  | finished => 5

theorem index_loopCheck (h : Sound s) {r : Except MemoryFault State} (hr : s.loopCheck = some r)
    (ht : r = .ok t) : s.phase.index ≤ t.phase.index := by
  subst ht
  unfold State.loopCheck at hr
  cases hp : s.phase with
  | mainFree =>
    simp only [hp, Option.some.injEq] at hr
    split_ifs at hr with hmain
    · rcases h.watchdogFree hp hmain with ⟨-, hfree, -⟩ | ⟨watchdog, -, -, hfree, -⟩
      · rw [hfree, Except.ok.injEq] at hr
        subst hr
        simp [Phase.index, State.listenerFree]
      · rw [hfree, Except.ok.injEq] at hr
        subst hr
        simp [Phase.index]
    · cases hr
      exact le_rfl
  | running | watchdogFree | listenerFree | qmpFree =>
    simp only [hp, Option.some.injEq, Except.ok.injEq] at hr
    subst hr
    split_ifs
    · simp [Phase.index, State.listenerFree]
    · simp [hp]
  | finished => simp [hp] at hr

theorem index_step (h : Sound s) (hfault : s.fault = none) {label : Label}
    (hstep : s.step label = some t) : s.phase.index ≤ t.phase.index := by
  by_cases hcheck : label = .check
  · subst hcheck
    rw [step_check hfault] at hstep
    obtain ⟨r, hr, rfl⟩ := Option.map_eq_some_iff.mp hstep
    obtain ⟨t, rfl, -, -⟩ := h.loopCheck hr
    exact index_loopCheck h hr rfl
  · cases hdispatching : s.dispatching with
    | false => simp [State.step, hfault, hcheck, hdispatching] at hstep
    | true =>
      rw [step_dispatch hfault hdispatching hcheck] at hstep
      obtain ⟨r, hr, rfl⟩ := Option.map_eq_some_iff.mp hstep
      rcases h.dispatch_ends hr with ⟨rfl, -, -⟩ | ⟨t, rfl, -, hphase, -⟩
      · exact le_rfl
      · exact hphase ▸ le_rfl

end Drain

end Teardown
end ColoDaemon
