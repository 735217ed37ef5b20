import ColoDaemon.Teardown

/-!
# Uses of the freed main coroutine

Which states of the clients and of the watchdog let the rest of the teardown use the main coroutine,
at the moment it is freed.
-/

namespace ColoDaemon
namespace Teardown

/-- The client will enter a call to qemu whatever it is told. -/
def Client.Dangling (client : Client) : Prop :=
  match client.point with
  | .calling _ | .resuming => True
  | .writing => client.stoppedQemu = true
  | .reading => False

/-- Some run from here uses the main coroutine after `g_free`. -/
def State.Faults (s : State) : Prop :=
  ∃ labels t, Runs.run State.step s labels = some t ∧ t.fault = some (.freed .main)

section Hazard
variable {s t : State}

theorem State.Faults.step {label : Label} (h : t.Faults) (hstep : s.step label = some t) :
    s.Faults := by
  obtain ⟨labels, u, hrun, hu⟩ := h
  exact ⟨label :: labels, u, Runs.run_cons_eq_some.mpr ⟨t, hstep, hrun⟩, hu⟩

theorem enterCall_freed (h : Sound s) (hfreed : s.phase.mainFreed) (call : QemuCall) :
    s.enterCall call = .error (.freed .main) := by
  rcases h.enterCall call with ⟨-, hcall⟩ | ⟨hnot, -⟩
  · exact hcall
  · exact absurd hfreed hnot

/-- A state from which the main coroutine is not used any more. -/
structure Safe (s : State) : Prop where
  fault : s.fault = none
  sound : Sound s
  freed : s.phase.mainFreed
  clients : ∀ client ∈ s.clients, ¬ client.Dangling
  checking : s.watchdog.point ≠ .checking
  watchdogFree : s.phase = .watchdogFree →
    s.listening = false ∧ s.clients = [] ∨ s.watchdog.point = .ended ∧ s.dispatching = false

theorem not_dangling_listenerFree (h : ∀ client ∈ s.clients, ¬ client.Dangling) :
    ∀ client ∈ s.listenerFree.clients, ¬ client.Dangling := by
  intro client hclient
  obtain ⟨old, hold, rfl⟩ := List.mem_map.mp hclient
  exact h old hold

theorem Safe.notified (h : Safe s) : s.watchdog.notified = false := by
  have hfits := h.sound.fits
  have hfreed := h.freed
  cases hp : s.phase with
  | running | mainFree =>
    rw [hp] at hfreed
    exact hfreed.elim
  | watchdogFree =>
    rw [hp] at hfits
    exact hfits.2.1
  | listenerFree | qmpFree | finished =>
    rw [hp] at hfits
    exact hfits.notified

theorem Safe.loopCheck (h : Safe s) {r : Except MemoryFault State} (hr : s.loopCheck = some r) :
    ∃ t, r = .ok t ∧ Safe t := by
  obtain ⟨t, rfl, ht, hfault⟩ := h.sound.loopCheck hr
  suffices hrest : t.phase.mainFreed ∧ (∀ client ∈ t.clients, ¬ client.Dangling) ∧
      t.watchdog.point ≠ .checking ∧
        (t.phase = .watchdogFree →
          t.listening = false ∧ t.clients = [] ∨
            t.watchdog.point = .ended ∧ t.dispatching = false) from
    ⟨t, rfl, hfault.trans h.fault, ht, hrest.1, hrest.2.1, hrest.2.2.1, hrest.2.2.2⟩
  have hfreed := h.freed
  unfold State.loopCheck at hr
  cases hp : s.phase with
  | running | mainFree =>
    rw [hp] at hfreed
    exact hfreed.elim
  | watchdogFree =>
    simp only [hp, Option.some.injEq, Except.ok.injEq] at hr
    subst hr
    split_ifs with hended
    · exact ⟨trivial, not_dangling_listenerFree h.clients, h.checking, fun h => by cases h⟩
    · refine ⟨trivial, h.clients, h.checking, fun _ => .inl ?_⟩
      exact (h.watchdogFree hp).resolve_right fun h => hended h.1
  | listenerFree =>
    simp only [hp, Option.some.injEq, Except.ok.injEq] at hr
    subst hr
    split_ifs
    · exact ⟨trivial, h.clients, h.checking, fun h => by cases h⟩
    · exact ⟨trivial, h.clients, h.checking, fun h => by cases h⟩
  | qmpFree =>
    simp only [hp, Option.some.injEq, Except.ok.injEq] at hr
    subst hr
    split_ifs
    · exact ⟨trivial, h.clients, h.checking, fun h => by cases h⟩
    · exact ⟨trivial, h.clients, h.checking, fun h => by cases h⟩
  | finished => simp [hp] at hr

/-- A client that was told to quit ends at its next turn, unless it enters a call to qemu. -/
theorem clientCo_quits (h : Sound s) (hfreed : s.phase.mainFreed) (i : ℕ) {client : Client}
    (hmem : client ∈ s.clients) (hq : client.quit = true) {turn : Turn}
    {r : Except MemoryFault State} (hr : s.clientCo i client turn = some r) :
    r = .ok { s with clients := s.clients.eraseIdx i } ∨
      client.Dangling ∧ r = .error (.freed .main) := by
  have hfree : s.clientFree i = .ok { s with clients := s.clients.eraseIdx i } := by
    simp only [State.clientFree, use_listener (h.live_of_client hmem)]
    rfl
  have hcall := enterCall_freed h hfreed
  cases hp : client.point with
  | calling call =>
    refine .inr ⟨by simp [Client.Dangling, hp], ?_⟩
    cases turn with
    | yields | answered => simpa [State.clientCo, hp, hcall, bind, Except.bind, eq_comm] using hr
    | line | readFails | written | resumed => simp [State.clientCo, hp] at hr
  | resuming =>
    refine .inr ⟨by simp [Client.Dangling, hp], ?_⟩
    cases turn with
    | yields | resumed => simpa [State.clientCo, hp, hcall, bind, Except.bind, eq_comm] using hr
    | line | readFails | written | answered => simp [State.clientCo, hp] at hr
  | reading =>
    cases turn with
    | line | readFails => exact .inl (by simpa [State.clientCo, hp, hq, hfree, eq_comm] using hr)
    | yields | answered | written | resumed => simp [State.clientCo, hp] at hr
  | writing =>
    cases turn with
    | written ok =>
      cases ok with
      | true =>
        exact .inl (by
          simpa [State.clientCo, hp, State.clientLoop, hq, hfree, eq_comm] using hr)
      | false =>
        cases hstopped : client.stoppedQemu with
        | true =>
          refine .inr ⟨by simp [Client.Dangling, hp, hstopped], ?_⟩
          simpa [State.clientCo, hp, State.errorClient, hstopped, hcall, bind, Except.bind,
            eq_comm] using hr
        | false =>
          exact .inl (by
            simpa [State.clientCo, hp, State.errorClient, hstopped, hfree, eq_comm] using hr)
    | line | readFails | yields | answered | resumed => simp [State.clientCo, hp] at hr

theorem Safe.dispatch (h : Safe s) (hdispatching : s.dispatching = true) {label : Label}
    {r : Except MemoryFault State} (hr : s.dispatch label = some r) :
    ∃ t, r = .ok t ∧ Safe t := by
  have hmain : s.mainQuit = true := h.sound.mainQuit h.freed
  have hdrain : s.phase = .watchdogFree → s.listening = false ∧ s.clients = [] := by
    intro hp
    refine (h.watchdogFree hp).resolve_right ?_
    rintro ⟨-, hnot⟩
    rw [hdispatching] at hnot
    cases hnot
  have hlistening : s.listening = false := by
    by_cases hclosed : s.phase.listenerClosed
    · exact h.sound.listening hclosed
    · have hfreed := h.freed
      cases hp : s.phase with
      | watchdogFree => exact (hdrain hp).1
      | running | mainFree =>
        rw [hp] at hfreed
        exact hfreed.elim
      | listenerFree | qmpFree | finished => simp [hp, Phase.listenerClosed] at hclosed
  cases label with
  | check => cases hr
  | accept ok => cases ok <;> simp [State.dispatch, hlistening] at hr
  | client i turn =>
    simp only [State.dispatch, Option.bind_eq_some_iff] at hr
    obtain ⟨client, hi, hr⟩ := hr
    have hmem := List.mem_of_getElem? hi
    have hfits := h.sound.clients client hmem
    have hfreed := h.freed
    cases hp : s.phase with
    | running | mainFree =>
      rw [hp] at hfreed
      exact hfreed.elim
    | watchdogFree =>
      rw [(hdrain hp).2] at hmem
      cases hmem
    | qmpFree | finished =>
      rw [hp] at hfits
      exact hfits.elim
    | listenerFree =>
      rw [hp] at hfits
      have hok := (clientCo_quits h.sound h.freed i hmem hfits.1 hr).resolve_right
        fun hd => h.clients client hmem hd.1
      refine ⟨_, hok, h.fault, h.sound.eraseClient i, h.freed, fun other hother => ?_, h.checking,
        fun hp' => ?_⟩
      · exact h.clients other (List.mem_of_mem_eraseIdx hother)
      · simp [hp] at hp'
  | source id outcome =>
    simp only [State.dispatch, Option.ite_none_right_eq_some, Option.some.injEq] at hr
    obtain ⟨hid, rfl⟩ := hr
    have hclosed := h.sound.not_closed (.inl (List.ne_nil_of_mem hid))
    have hfits := h.sound.fits
    have hfreed := h.freed
    cases hp : s.phase with
    | running | mainFree =>
      rw [hp] at hfreed
      exact hfreed.elim
    | listenerFree | qmpFree | finished => simp [hp, Phase.listenerClosed] at hclosed
    | watchdogFree =>
      rw [hp] at hfits
      obtain ⟨next, hnext, hturned⟩ := h.sound.watchdogCo_eq hid outcome
      have hended : next.point = .ended := hturned.ended hfits.1
      refine ⟨_, hnext, h.fault, ?_, h.freed, h.clients, ?_, fun _ => .inl (hdrain hp)⟩
      · exact h.sound.setWatchdog hturned.sound (h.sound.fits.turned hclosed hturned.keeps)
      · simp [hended]
  | checked outcome => simp [State.dispatch, h.checking] at hr
  | qmpEvent => simp [State.dispatch, h.notified] at hr
  | mainCommand => simp [State.dispatch, hmain] at hr
  | autoquit => simp [State.dispatch, hmain] at hr
  | mainQuits => simp [State.dispatch, hmain] at hr
  | qmpQuits =>
    simp only [State.dispatch, Option.ite_none_right_eq_some, Option.some.injEq] at hr
    obtain ⟨hp, rfl⟩ := hr
    refine ⟨_, rfl, h.fault, ?_, h.freed, h.clients, h.checking, fun hp' => ?_⟩
    · exact ⟨h.sound.watchdog, h.sound.fits, h.sound.clients, h.sound.listening, h.sound.mainQuit⟩
    · rw [hp] at hp'
      cases hp'

theorem Safe.step (h : Safe s) {label : Label} (hstep : s.step label = some t) : Safe t := by
  unfold State.step at hstep
  simp only [h.fault, ne_eq, not_true, if_false] at hstep
  split_ifs at hstep with hcheck hdispatching
  · obtain ⟨r, hr, rfl⟩ := Option.map_eq_some_iff.mp hstep
    obtain ⟨t, rfl, ht⟩ := h.loopCheck hr
    exact ht
  · obtain ⟨r, hr, rfl⟩ := Option.map_eq_some_iff.mp hstep
    obtain ⟨t, rfl, ht⟩ := h.dispatch hdispatching hr
    exact ht

end Hazard

end Teardown
end ColoDaemon
