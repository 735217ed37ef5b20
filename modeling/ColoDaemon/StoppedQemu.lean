import Mathlib.Data.List.InsertIdx
import ColoDaemon.ListenerDrain

/-!
# Clients that stop qemu

A client that has stopped qemu with `stop` and goes away makes the daemon send `cont` for it.
`Tracked` follows what qemu makes of the `stop` and `cont` of the clients, and whether the daemon
was told of a failed call.
-/

namespace ColoDaemon
namespace Teardown

/-- Why a call did not succeed: qemu answered with an error, or the call failed, and nobody knows
what qemu has made of it. -/
inductive Refusal
  | error
  | lost (stopped : Bool)
  deriving DecidableEq, Repr

/-- `stopped` says that the last `stop` or `cont` that qemu has executed for the clients was a
`stop`, `failed` that `EVENT_FAILED` was queued for a call of theirs. -/
structure Tracked where
  daemon : State
  stopped : Bool
  failed : Bool
  deriving DecidableEq, Repr

namespace Tracked

def start (interval : ℕ) : Tracked := ⟨.start interval, false, false⟩

def effect (call : QemuCall) (stopped : Bool) : Bool :=
  match call with
  | .stop => true
  | .cont => false
  | _ => stopped

/-- What client `i` is resumed with ends its call. A `cont` after an error that does not succeed is
told to `colod_qemu_failed`, whatever the reason. -/
def ended (this : Tracked) (daemon : State) (i : ℕ) (turn : Turn) (refusal : Refusal) : Tracked :=
  match this.daemon.clients[i]?.map Client.point, turn, refusal with
  | some (.calling call), .answered true, _ =>
    { this with daemon, stopped := effect call this.stopped }
  | some (.calling _), .answered false, .lost stopped => { daemon, stopped, failed := true }
  | some .resuming, .resumed true, _ => { this with daemon, stopped := false }
  | some .resuming, .resumed false, .lost stopped => { daemon, stopped, failed := true }
  | some .resuming, .resumed false, .error => { this with daemon, failed := true }
  | _, _, _ => { this with daemon }

def step (this : Tracked) (label : Label × Refusal) : Option Tracked :=
  (this.daemon.step label.1).map fun daemon =>
    match label.1 with
    | .client i turn => this.ended daemon i turn label.2
    | _ => { this with daemon }

end Tracked

/-- The `stopped_qemu` of the clients. -/
def State.flags (s : State) : List Bool := s.clients.map Client.stoppedQemu

section Flags
variable {s t : State}

theorem bind_ok {α : Type} {x : Except MemoryFault α} {f : α → Except MemoryFault State}
    (ht : x >>= f = .ok t) : ∃ a, x = .ok a ∧ f a = .ok t := by
  cases x with
  | error fault => cases ht
  | ok a => exact ⟨a, rfl, ht⟩

theorem flags_of_clients {u : State} (hu : u.clients = s.clients) : u.flags = s.flags :=
  congrArg (List.map Client.stoppedQemu) hu

theorem flags_setClient (i : ℕ) (client : Client) :
    (s.setClient i client).flags = s.flags.set i client.stoppedQemu := by
  simp [State.flags, State.setClient, List.map_set]

theorem getElem?_flags {i : ℕ} {client : Client} (hi : s.clients[i]? = some client) :
    s.flags[i]? = some client.stoppedQemu := by
  simp [State.flags, hi]

theorem set_flag {i : ℕ} {client : Client} (hi : s.clients[i]? = some client) :
    s.flags.set i client.stoppedQemu = s.flags := by
  obtain ⟨hlt, hget⟩ := List.getElem?_eq_some_iff.mp (getElem?_flags hi)
  rw [← hget, List.set_getElem_self]

theorem flags_clientFree {i : ℕ} (ht : s.clientFree i = .ok t) :
    t.flags = s.flags.eraseIdx i := by
  obtain ⟨-, -, ht⟩ := bind_ok ht
  cases ht
  simp [State.flags, List.eraseIdx_map]

theorem clients_enterCall {call : QemuCall} (ht : s.enterCall call = .ok t) :
    t.clients = s.clients := by
  cases call with
  | yank =>
    obtain ⟨-, -, ht⟩ := bind_ok ht
    cases ht
    rfl
  | queryStatus | stop | cont | executeNocheck =>
    obtain ⟨-, -, ht⟩ := bind_ok ht
    obtain ⟨watchdog, -, ht⟩ := bind_ok ht
    cases ht
    rfl

theorem flags_enterCall {call : QemuCall} (ht : s.enterCall call = .ok t) : t.flags = s.flags :=
  flags_of_clients (clients_enterCall ht)

theorem enterCall_bind {call : QemuCall} {f : State → Except MemoryFault State}
    (ht : s.enterCall call >>= f = .ok t) :
    ∃ u, u.clients = s.clients ∧ f u = .ok t := by
  obtain ⟨u, hu, ht⟩ := bind_ok ht
  exact ⟨u, clients_enterCall hu, ht⟩

/-- The client goes on with the flag it has, or goes away without one. -/
def Kept (s : State) (i : ℕ) (client : Client) (t : State) : Prop :=
  t.flags = s.flags ∨ client.stoppedQemu = false ∧ t.flags = s.flags.eraseIdx i

theorem Kept.set {u : State} (hu : u.clients = s.clients) {i : ℕ} {client next : Client}
    (hi : s.clients[i]? = some client) (hnext : next.stoppedQemu = client.stoppedQemu) :
    Kept s i client (u.setClient i next) := by
  have hflags := flags_of_clients hu
  refine .inl ?_
  rw [flags_setClient, hnext, hflags, set_flag hi]

theorem kept_errorClient {i : ℕ} {client next : Client} (hi : s.clients[i]? = some client)
    (hnext : next.stoppedQemu = client.stoppedQemu) (ht : s.errorClient i next = .ok t) :
    Kept s i client t := by
  unfold State.errorClient at ht
  split_ifs at ht with hflag
  · obtain ⟨u, hu, hv⟩ := enterCall_bind ht
    cases hv
    exact .set hu hi hnext
  · refine .inr ⟨?_, flags_clientFree ht⟩
    rw [← hnext]
    simpa using hflag

theorem kept_request {i : ℕ} {client : Client} {request : Request}
    (hi : s.clients[i]? = some client) (ht : s.request i client request = .ok t) :
    Kept s i client t := by
  unfold State.request at ht
  cases hcall : request.call with
  | some call =>
    simp only [hcall] at ht
    obtain ⟨u, hu, hv⟩ := enterCall_bind ht
    cases hv
    exact .set hu hi rfl
  | none =>
    simp only [hcall] at ht
    split_ifs at ht
    · refine kept_errorClient hi ?_ ht
      rfl
    · obtain ⟨-, -, ht⟩ := bind_ok ht
      cases ht
      exact .set rfl hi rfl

/-- One turn of a client that has not been told to quit. -/
theorem clientCo_flags {i : ℕ} {client : Client} (hi : s.clients[i]? = some client)
    (hq : client.quit = false) {turn : Turn} (ht : s.clientCo i client turn = some (.ok t)) :
    match client.point, turn with
    | .calling call, .answered ok => t.flags = s.flags.set i (State.stopped call ok client.stoppedQemu)
    | .resuming, .resumed _ => t.flags = s.flags.eraseIdx i
    | _, _ => Kept s i client t := by
  cases turn with
  | line request =>
    simp only [State.clientCo, hq, Bool.false_eq_true, if_false, Option.ite_none_right_eq_some,
      Option.some.injEq] at ht
    simp only [ht.1]
    exact kept_request hi ht.2
  | readFails =>
    simp only [State.clientCo, hq, Bool.false_eq_true, if_false, Option.ite_none_right_eq_some,
      Option.some.injEq] at ht
    simp only [ht.1]
    exact kept_errorClient hi rfl ht.2
  | yields =>
    have hcall : ∀ call, s.enterCall call = .ok t → Kept s i client t := by
      intro call hcall
      exact .inl (flags_enterCall hcall)
    simp only [State.clientCo] at ht
    cases hp : client.point with
    | reading | writing => simp [hp] at ht
    | calling call =>
      simp only [hp, Option.some.injEq] at ht
      exact hcall call ht
    | resuming =>
      simp only [hp, Option.some.injEq] at ht
      exact hcall .cont ht
  | answered ok =>
    simp only [State.clientCo] at ht
    cases hp : client.point with
    | reading | writing | resuming => simp [hp] at ht
    | calling call =>
      simp only [hp, Option.some.injEq] at ht
      obtain ⟨u, hu, hv⟩ := enterCall_bind ht
      cases hv
      have hflags := flags_of_clients hu
      simp only [flags_setClient, hflags]
  | written ok =>
    simp only [State.clientCo, Option.ite_none_right_eq_some, Option.some.injEq] at ht
    simp only [ht.1]
    cases ok with
    | true =>
      have hv := ht.2
      simp only [if_true, State.clientLoop, hq, Bool.false_eq_true, if_false,
        Except.ok.injEq] at hv
      subst hv
      exact .set rfl hi rfl
    | false => exact kept_errorClient hi rfl ht.2
  | resumed ok =>
    simp only [State.clientCo, Option.ite_none_right_eq_some, Option.some.injEq] at ht
    obtain ⟨hp, ht⟩ := ht
    simp only [hp]
    obtain ⟨u, hu, hv⟩ := enterCall_bind ht
    have hflags := flags_of_clients hu
    rw [flags_clientFree hv, hflags]

/-- Nothing but a client takes a flag away. -/
theorem mem_flags_dispatch (h : Sound s) {label : Label} (hlabel : ∀ i turn, label ≠ .client i turn)
    (ht : s.dispatch label = some (.ok t)) (hflag : true ∈ s.flags) : true ∈ t.flags := by
  cases label with
  | check => cases ht
  | client i turn => exact absurd rfl (hlabel i turn)
  | accept ok =>
    cases ok with
    | true =>
      simp only [State.dispatch, Option.ite_none_right_eq_some, Option.some.injEq,
        Except.ok.injEq] at ht
      rw [← ht.2]
      exact List.mem_cons_of_mem _ hflag
    | false =>
      simp only [State.dispatch, Option.ite_none_right_eq_some, Option.some.injEq,
        Except.ok.injEq] at ht
      rw [← ht.2]
      exact hflag
  | source id outcome =>
    simp only [State.dispatch, Option.ite_none_right_eq_some, Option.some.injEq] at ht
    obtain ⟨hid, ht⟩ := ht
    obtain ⟨watchdog, hnext, -⟩ := h.watchdogCo_eq hid outcome
    rw [hnext, Except.ok.injEq] at ht
    rw [← ht]
    exact hflag
  | checked outcome =>
    simp only [State.dispatch, Option.ite_none_right_eq_some, Option.some.injEq] at ht
    obtain ⟨-, ht⟩ := ht
    obtain ⟨-, -, ht⟩ := bind_ok ht
    obtain ⟨u, hu, ht⟩ := bind_ok ht
    rw [← flags_enterCall hu] at hflag
    cases outcome with
    | yields =>
      cases ht
      exact hflag
    | returned ok =>
      obtain ⟨watchdog, -, ht⟩ := bind_ok ht
      cases ht
      exact hflag
  | qmpEvent =>
    simp only [State.dispatch, Option.ite_none_right_eq_some, Option.some.injEq] at ht
    obtain ⟨-, ht⟩ := ht
    obtain ⟨-, -, ht⟩ := bind_ok ht
    obtain ⟨watchdog, -, ht⟩ := bind_ok ht
    cases ht
    exact hflag
  | mainCommand =>
    simp only [State.dispatch, Option.ite_none_left_eq_some, Option.some.injEq] at ht
    rwa [flags_enterCall ht.2]
  | autoquit =>
    simp only [State.dispatch, Option.ite_none_left_eq_some, Option.some.injEq,
      Except.ok.injEq] at ht
    rw [← ht.2]
    exact hflag
  | mainQuits | qmpQuits =>
    simp only [State.dispatch, Option.ite_none_right_eq_some, Option.some.injEq,
      Except.ok.injEq] at ht
    rw [← ht.2]
    exact hflag

theorem flags_listenerFree : s.listenerFree.flags = s.flags := by
  simp [State.flags, State.listenerFree, Function.comp_def]

theorem flags_loopCheck (ht : s.loopCheck = some (.ok t)) : t.flags = s.flags := by
  unfold State.loopCheck at ht
  cases hp : s.phase with
  | mainFree =>
    simp only [hp, Option.some.injEq] at ht
    split_ifs at ht
    · unfold State.watchdogFree at ht
      split_ifs at ht
      · cases ht
        exact flags_listenerFree
      · obtain ⟨watchdog, -, ht⟩ := bind_ok ht
        cases ht
        rfl
    · cases ht
      rfl
  | running | listenerFree | qmpFree =>
    simp only [hp, Option.some.injEq, Except.ok.injEq] at ht
    rw [← ht]
    split_ifs <;> rfl
  | watchdogFree =>
    simp only [hp, Option.some.injEq, Except.ok.injEq] at ht
    rw [← ht]
    split_ifs
    · exact flags_listenerFree
    · rfl
  | finished => simp [hp] at ht

theorem mem_eraseIdx_flags {flags : List Bool} {i : ℕ} (hi : flags[i]? = some false)
    (hflag : true ∈ flags) : true ∈ flags.eraseIdx i := by
  obtain ⟨j, hj⟩ := List.mem_iff_getElem?.mp hflag
  refine List.mem_eraseIdx_iff_getElem?.mpr ⟨j, ?_, hj⟩
  rintro rfl
  rw [hi] at hj
  cases hj

theorem Kept.mem_flags {i : ℕ} {client : Client} (hi : s.clients[i]? = some client)
    (hkept : Kept s i client t) (hflag : true ∈ s.flags) : true ∈ t.flags := by
  rcases hkept with hsame | ⟨hfalse, herased⟩
  · exact hsame ▸ hflag
  · rw [herased]
    exact mem_eraseIdx_flags (hfalse ▸ getElem?_flags hi) hflag

theorem quit_false (h : Sound s) (hclosed : ¬ s.phase.listenerClosed) {client : Client}
    (hclient : client ∈ s.clients) : client.quit = false := by
  have hfits := h.clients client hclient
  cases hp : s.phase with
  | running | mainFree | watchdogFree =>
    rw [hp] at hfits
    exact hfits.1
  | listenerFree | qmpFree | finished =>
    rw [hp] at hclosed
    exact absurd trivial hclosed

theorem listenerClosed_iff {phase : Phase} : phase.listenerClosed ↔ 3 ≤ phase.index := by
  cases phase <;> simp [Phase.listenerClosed, Phase.index]

end Flags

namespace Tracked

/-- Qemu runs, or some client has it on record that it stopped it, or the daemon was told of a
failure. -/
def Held (this : Tracked) : Prop :=
  this.failed = true ∨ (this.stopped = true → true ∈ this.daemon.flags)

section Held
variable {this next : Tracked}

theorem Held.kept (h : this.Held) {daemon : State} {i : ℕ} {client : Client}
    (hi : this.daemon.clients[i]? = some client) (hkept : Kept this.daemon i client daemon) :
    Held { this with daemon } :=
  h.imp_right fun hheld hstopped => hkept.mem_flags hi (hheld hstopped)

theorem Held.ended (h : this.Held) {daemon : State} {i : ℕ} {client : Client} {turn : Turn}
    (hi : this.daemon.clients[i]? = some client) (hq : client.quit = false)
    (ht : this.daemon.clientCo i client turn = some (.ok daemon)) (refusal : Refusal) :
    (this.ended daemon i turn refusal).Held := by
  have hflags := clientCo_flags hi hq ht
  unfold Tracked.ended
  rw [hi]
  simp only [Option.map_some]
  cases hp : client.point with
  | reading | writing =>
    simp only [hp] at hflags
    exact h.kept hi hflags
  | calling call =>
    cases turn with
    | line | readFails | yields | written | resumed =>
      simp only [hp] at hflags
      exact h.kept hi hflags
    | answered ok =>
      simp only [hp] at hflags
      cases ok with
      | true =>
        cases call with
        | stop =>
          refine .inr fun _ => ?_
          have hlt : i < this.daemon.flags.length :=
            (List.getElem?_eq_some_iff.mp (getElem?_flags hi)).1
          rw [hflags]
          exact List.mem_set hlt true
        | cont => exact .inr fun hstopped => by cases hstopped
        | queryStatus | yank | executeNocheck =>
          simp only [State.stopped, set_flag hi] at hflags
          exact h.kept hi (.inl hflags)
      | false =>
        cases refusal with
        | lost => exact .inl rfl
        | error =>
          have hflag : State.stopped call false client.stoppedQemu = client.stoppedQemu := by
            cases call <;> rfl
          rw [hflag, set_flag hi] at hflags
          exact h.kept hi (.inl hflags)
  | resuming =>
    cases turn with
    | line | readFails | yields | written | answered =>
      simp only [hp] at hflags
      exact h.kept hi hflags
    | resumed ok =>
      cases ok with
      | true => exact .inr fun hstopped => by cases hstopped
      | false => cases refusal <;> exact .inl rfl

theorem step_eq_some {label : Label} {refusal : Refusal}
    (hstep : this.step (label, refusal) = some next) :
    this.daemon.step label = some next.daemon ∧
      ((∀ i turn, label ≠ .client i turn) → next = { this with daemon := next.daemon }) ∧
      ∀ i turn, label = .client i turn → next = this.ended next.daemon i turn refusal := by
  simp only [Tracked.step, Option.map_eq_some_iff] at hstep
  obtain ⟨daemon, hdaemon, rfl⟩ := hstep
  cases label with
  | client i turn =>
    have hended : (this.ended daemon i turn refusal).daemon = daemon := by
      unfold Tracked.ended
      split <;> rfl
    refine ⟨hended.symm ▸ hdaemon, fun hlabel => absurd rfl (hlabel i turn), ?_⟩
    rintro j other ⟨rfl, rfl⟩
    simp only [hended]
  | check | accept | source | checked | qmpEvent | mainCommand | autoquit | mainQuits | qmpQuits =>
    exact ⟨hdaemon, fun _ => rfl, fun i turn hlabel => by cases hlabel⟩

/-- One step of a daemon whose listener is not being freed. -/
theorem Held.step (h : this.Held) (hs : Sound this.daemon) (hfault : this.daemon.fault = none)
    (hclosed : ¬ this.daemon.phase.listenerClosed) {label : Label × Refusal}
    (hstep : this.step label = some next) (hnext : next.daemon.fault = none) : next.Held := by
  obtain ⟨label, refusal⟩ := label
  obtain ⟨hdaemon, hother, hclient⟩ := step_eq_some hstep
  by_cases hcheck : label = .check
  · subst hcheck
    rw [step_check hfault] at hdaemon
    obtain ⟨r, hr, hsettle⟩ := Option.map_eq_some_iff.mp hdaemon
    obtain ⟨t, rfl, -, -⟩ := hs.loopCheck hr
    rw [hother (by simp), ← hsettle]
    exact h.imp_right fun hheld hstopped => flags_loopCheck hr ▸ hheld hstopped
  · cases hdispatching : this.daemon.dispatching with
    | false => simp [State.step, hfault, hcheck, hdispatching] at hdaemon
    | true =>
      rw [step_dispatch hfault hdispatching hcheck] at hdaemon
      obtain ⟨r, hr, hsettle⟩ := Option.map_eq_some_iff.mp hdaemon
      cases r with
      | error fault =>
        rw [← hsettle] at hnext
        cases hnext
      | ok t =>
        by_cases hlabel : ∀ i turn, label ≠ .client i turn
        · rw [hother hlabel, ← hsettle]
          exact h.imp_right fun hheld hstopped => mem_flags_dispatch hs hlabel hr (hheld hstopped)
        · push Not at hlabel
          obtain ⟨i, turn, rfl⟩ := hlabel
          simp only [State.dispatch, Option.bind_eq_some_iff] at hr
          obtain ⟨client, hi, hr⟩ := hr
          rw [hclient i turn rfl, ← hsettle]
          exact h.ended hi (quit_false hs hclosed (List.mem_of_getElem? hi)) hr refusal

/-- What every run keeps until the listener is freed. -/
def Invariant (this : Tracked) : Prop :=
  Fine this.daemon ∧
    (this.daemon.fault = none → ¬ this.daemon.phase.listenerClosed → this.Held)

theorem Invariant.step (h : this.Invariant) {label : Label × Refusal}
    (hstep : this.step label = some next) : next.Invariant := by
  have hdaemon : this.daemon.step label.1 = some next.daemon := (step_eq_some hstep).1
  refine ⟨h.1.step hdaemon, fun hnext hopen => ?_⟩
  have hfault : this.daemon.fault = none := by
    by_contra hfault
    simp [State.step, hfault] at hdaemon
  rcases h.1 with ⟨-, hs⟩ | ⟨hf, -⟩
  · have hclosed : ¬ this.daemon.phase.listenerClosed := by
      have hindex := index_step hs hfault hdaemon
      rw [listenerClosed_iff] at hopen ⊢
      omega
    exact (h.2 hfault hclosed).step hs hfault hclosed hstep hnext
  · rw [hf] at hfault
    cases hfault

theorem invariant_run {interval : ℕ} {labels : List (Label × Refusal)}
    (hrun : Runs.run step (start interval) labels = some this) : this.Invariant :=
  Runs.run_invariant (fun _ _ _ hstep h => h.step hstep) hrun
    ⟨.inl ⟨rfl, start_sound interval⟩, fun _ _ => .inr fun hstopped => by cases hstopped⟩

end Held
/-- In every run up to `client_listener_free`: while the last `stop` or `cont` of the clients was a
`stop`, one of those that are connected will resume qemu when it goes away, unless the daemon was
told that a call failed. -/
theorem stopped_held {interval : ℕ} {labels : List (Label × Refusal)} {this : Tracked}
    (hrun : Runs.run step (start interval) labels = some this) (hfault : this.daemon.fault = none)
    (hclosed : ¬ this.daemon.phase.listenerClosed) (hfailed : this.failed = false)
    (hstopped : this.stopped = true) :
    ∃ client ∈ this.daemon.clients, client.stoppedQemu = true := by
  rcases (invariant_run hrun).2 hfault hclosed with hf | hheld
  · rw [hfailed] at hf
    cases hf
  · obtain ⟨client, hclient, hflag⟩ := List.mem_map.mp (hheld hstopped)
    exact ⟨client, hclient, hflag⟩

/-- Two clients stop qemu. The one whose line cannot be read goes away with a `cont`, which resumes
qemu, and the other stops it again. -/
theorem stopped_held_again :
    ∃ client ∈ ([⟨.writing, true, false, false, true⟩] : List Client),
      client.stoppedQemu = true := by
  have hrun : Runs.run step (start 0)
      (([.accept true, .accept true, .client 0 (.line (.command .stop true)),
        .client 0 (.answered true), .client 0 (.written true),
        .client 1 (.line (.command .stop true)), .client 1 (.answered true),
        .client 1 (.written true), .client 0 .readFails, .client 0 (.resumed true),
        .client 0 (.line (.command .stop true)), .client 0 (.answered true)] :
        List Label).map (·, .error)) =
      some ⟨⟨.running, true, false, false, false, true, [⟨.writing, true, false, false, true⟩],
        .new 0, none⟩, true, false⟩ := rfl
  exact stopped_held hrun rfl not_false rfl rfl

end Tracked

end Teardown
end ColoDaemon
