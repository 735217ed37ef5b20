import ColoDaemon.Promotion

/-!
# Clients that resume a fenced qemu

`STATE_FAILED` stops qemu, and the main coroutine never resumes it. A client that had stopped qemu
on its own behalf does: when its connection breaks, `_colod_client_co` sends `cont`, whatever state
the main coroutine is in.
-/

namespace ColoDaemon
open Runs EventLoop
variable {s t : Daemon}

/-- What the clients are about: their sessions and the record of the commands they leave behind. -/
def Daemon.sessions (s : Daemon) := (s.clients, s.trace)

/-- No client is in the disconnect path with its `cont` still to be sent. -/
def Daemon.NoneClosing (s : Daemon) : Prop := ∀ client ∈ s.clients, client.pc ≠ .closing false

/-- The connection that breaks in this step, if any, is that of a client that has not stopped
qemu. -/
def Unflagged (s : Daemon) (label : Label) : Prop :=
  ∀ i client, label = .clientError i → s.clients[i]? = some client → client.stoppedQemu = false

/-- Nothing after `s` is a `cont` of the disconnect path. -/
def NotResumed (s t : Daemon) : Prop :=
  ∃ obs, t.trace = s.trace ++ obs ∧ ∀ i, Obs.cont i ∉ obs

theorem NotResumed.trans {u : Daemon} (h : NotResumed s t) (h' : NotResumed t u) :
    NotResumed s u := by
  obtain ⟨obs, ht, hobs⟩ := h
  obtain ⟨obs', hu, hobs'⟩ := h'
  refine ⟨obs ++ obs', by rw [hu, ht, List.append_assoc], ?_⟩
  intro i hi
  rcases List.mem_append.mp hi with hi | hi
  · exact hobs i hi
  · exact hobs' i hi

theorem notResumed_of_eq (h : t.trace = s.trace) : NotResumed s t := ⟨[], by simp [h], by simp⟩

/-! ### Callbacks that are not about clients -/

theorem sessions_yellowActions (notified : Bool) (s : Daemon) (actions : List YellowAction) :
    (yellowActions notified s actions).sessions = s.sessions := by
  induction actions generalizing s with
  | nil => rfl
  | cons action actions ih =>
    refine (ih _).trans ?_
    cases action with
    | send message => rfl
    | notify event =>
      simp only [colodYellowEventCb]
      split_ifs <;> rfl

theorem sessions_qmpEventCb (s : Daemon) (event : QmpEvent) :
    (colodQmpEventCb s event).sessions = s.sessions := by
  cases event with
  | quorumReportBad nodeName type =>
    simp only [colodQmpEventCb]
    split_ifs
    · rfl
    · rfl
    · rfl
    · exact sessions_yellowActions true _ _
  | migration status =>
    simp only [colodQmpEventCb]
    split_ifs <;> rfl
  | coloExit reason =>
    simp only [colodQmpEventCb]
    split_ifs <;> rfl
  | reset =>
    simp only [colodQmpEventCb, colodRaiseTimeoutCoroutine]
    split_ifs <;> rfl
  | stop | resume | other => rfl

theorem sessions_notifyEvent (s : Daemon) (event : QmpEvent) :
    (notifyEvent s event).sessions = s.sessions := by
  have hmain : (mainWaitEventCb s event).sessions = s.sessions := by
    unfold mainWaitEventCb
    split
    · split_ifs <;> rfl
    · rfl
  have hraise : ∀ u : Daemon, (raiseWaitEventCb u event).sessions = u.sessions := by
    intro u
    unfold raiseWaitEventCb
    split <;> rfl
  simp only [notifyEvent]
  split_ifs
  · exact (hraise _).trans hmain
  · exact (sessions_qmpEventCb _ event).trans ((hraise _).trans hmain)

theorem sessions_cpgEventCb (s : Daemon) (message : ColodMessage) (own left : Bool) :
    (colodCpgEventCb s message own left).sessions = s.sessions := by
  unfold colodCpgEventCb
  cases left with
  | true => rfl
  | false =>
    cases message with
    | hello =>
      simp only [Bool.false_eq_true, if_false]
      split_ifs <;> rfl
    | _ => cases own <;> rfl

theorem sessions_executeCo (s : Daemon) (reply : Option QmpReply) :
    (colodExecuteCo s reply).2.sessions = s.sessions := by
  obtain ⟨loop, qmpError, didYank, h, -⟩ := executeCo_eq s reply
  rw [h]
  rfl

/-- The labels of client sessions. -/
def Label.isClient : Label → Bool
  | .clientNew | .clientRequest .. | .clientWrite _ | .clientDone .. | .clientError _ => true
  | _ => false

theorem sessions_callback {label : Label} (h : s.callback label = some t)
    (hl : label.isClient = false) : t.sessions = s.sessions := by
  cases label with
  | cpgDeliver message own =>
    cases h
    dsimp only
    split_ifs
    · rfl
    · exact sessions_cpgEventCb _ message own false
  | cpgLeft =>
    cases h
    dsimp only
    split_ifs
    · rfl
    · exact sessions_cpgEventCb _ .none false true
  | cpgRetransmit =>
    simp only [Daemon.callback] at h
    split_ifs at h
    cases h
    rfl
  | qmpEvent event => cases h; exact sessions_notifyEvent s event
  | qmpHup =>
    simp only [Daemon.callback] at h
    split_ifs at h
    cases h
    rfl
  | qmpError | nestedYank => cases h; rfl
  | link ifname up => cases h; exact sessions_yellowActions true _ _
  | yellowTimer =>
    simp only [Daemon.callback] at h
    split_ifs at h
    cases h
    exact sessions_yellowActions true _ _
  | raiseDispatch =>
    simp only [Daemon.callback] at h
    split at h
    · split_ifs at h
      cases h
      unfold colodRaiseTimeoutCo
      split <;> rfl
    · cases h
  | executeDone reply => cases h; rw [← executeCo_snd]; exact sessions_executeCo s reply
  | yankDone reply => cases h; cases reply <;> rfl
  | healthDone status =>
    cases h
    unfold colodCheckHealthCo
    split
    · rfl
    · split_ifs <;> rfl
  | teardown =>
    simp only [Daemon.callback] at h
    split_ifs at h
    cases h
    exact sessions_yellowActions false _ _
  | clientNew | clientRequest | clientWrite | clientDone | clientError => cases hl
  | dispatch | run | io => cases h

/-! ### Client sessions -/

theorem noneClosing_setClient {i : ℕ} {client : Client} (h : s.NoneClosing)
    (hpc : client.pc ≠ .closing false) : (s.setClient i client).NoneClosing := by
  intro c hc
  rcases List.mem_or_eq_of_mem_set hc with hc | rfl
  · exact h c hc
  · exact hpc

theorem noneClosing_of_sessions (h : s.NoneClosing) (hs : t.sessions = s.sessions) :
    t.NoneClosing := by
  have hclients : t.clients = s.clients := congrArg Prod.fst hs
  unfold Daemon.NoneClosing
  rw [hclients]
  exact h

theorem sessions_setClient {u : Daemon} {i : ℕ} {client : Client} (hu : u.sessions = s.sessions)
    (hs : s.NoneClosing) (hpc : client.pc ≠ .closing false) :
    (u.setClient i client).NoneClosing ∧ NotResumed s (u.setClient i client) :=
  ⟨noneClosing_setClient (noneClosing_of_sessions hs hu) hpc,
    notResumed_of_eq (congrArg Prod.snd hu)⟩

theorem client_request {i : ℕ} {client : Client} {request : ClientRequest} (hs : s.NoneClosing) :
    (clientRequest s i client request).NoneClosing ∧
      NotResumed s (clientRequest s i client request) := by
  have hsame : ∀ {u : Daemon}, u.sessions = s.sessions → u.NoneClosing ∧ NotResumed s u :=
    fun h => ⟨noneClosing_of_sessions hs h, notResumed_of_eq (congrArg Prod.snd h)⟩
  cases request with
  | startMigration =>
    simp only [clientRequest, colodStartMigration]
    split_ifs
    · exact hsame rfl
    · exact hsame rfl
  | stop | cont | busy => exact sessions_setClient rfl hs (by simp)
  | autoquit | quit | setCommands | setPeer | clearPeer => exact hsame rfl

theorem client_write {i : ℕ} {client : Client} (hs : s.NoneClosing)
    (hclient : s.clients[i]? = some client) (h : clientWrite s i client = some t) :
    t.NoneClosing ∧ NotResumed s t := by
  have hpc := hs client (List.mem_of_getElem? hclient)
  unfold clientWrite at h
  split at h
  · cases h
    exact sessions_setClient rfl hs (by simp)
  · cases h
    exact sessions_setClient rfl hs (by simp)
  · rename_i hclosing
    exact absurd hclosing hpc
  · cases h

theorem client_done {i : ℕ} {client : Client} {reply : Option QmpReply} (hs : s.NoneClosing)
    (h : clientDone s i client reply = some t) : t.NoneClosing ∧ NotResumed s t := by
  have hexec := sessions_executeCo s reply
  unfold clientDone at h
  simp only at h
  split at h
  · split_ifs at h
    cases h
    exact sessions_setClient hexec hs (by simp)
  · split_ifs at h
    cases h
    exact sessions_setClient hexec hs (by simp)
  · split_ifs at h
    cases h
    exact sessions_setClient hexec hs (by simp)
  · cases h
    exact sessions_setClient hexec hs (by simp)
  · cases h
    exact sessions_setClient hexec hs (by simp)
  · cases h
    have hfailed : ((colodExecuteCo s reply).2.queueEvent .failed).sessions = s.sessions := hexec
    exact sessions_setClient hfailed hs (by simp)
  · cases h
    exact sessions_setClient rfl hs (by simp)
  · cases h

/-- While only clients that have not stopped qemu disconnect, no callback resumes it. -/
theorem callback_notResumed {label : Label} (h : s.callback label = some t) (hs : s.NoneClosing)
    (hl : Unflagged s label) : t.NoneClosing ∧ NotResumed s t := by
  by_cases hclient : label.isClient = false
  · have hsame := sessions_callback h hclient
    exact ⟨noneClosing_of_sessions hs hsame, notResumed_of_eq (congrArg Prod.snd hsame)⟩
  cases label with
  | clientNew =>
    cases h
    refine ⟨?_, notResumed_of_eq rfl⟩
    intro c hc
    rcases List.mem_append.mp hc with hc | hc
    · exact hs c hc
    · cases List.mem_singleton.mp hc
      simp
  | clientRequest i request =>
    simp only [Daemon.callback] at h
    split at h
    · split_ifs at h
      cases h
      exact client_request hs
    · cases h
  | clientWrite i =>
    obtain ⟨client, hi, h⟩ := Option.bind_eq_some_iff.mp h
    exact client_write hs hi h
  | clientDone i reply =>
    obtain ⟨client, -, h⟩ := Option.bind_eq_some_iff.mp h
    exact client_done hs h
  | clientError i =>
    simp only [Daemon.callback] at h
    split at h
    · rename_i client hi
      split_ifs at h
      cases h
      have hflag := hl i client rfl hi
      exact sessions_setClient rfl hs (by simp [hflag])
    · cases h
  | _ => exact absurd rfl hclient

/-! ### The steps of the main coroutine -/

theorem notResumed_enter {newState : MainState} (hf : (Pc.enter newState).fenced = true) :
    (colodMainCo s newState).clients = s.clients ∧ NotResumed s (colodMainCo s newState) := by
  cases newState with
  | quit =>
    simp only [colodMainCo, colodMainCoReturn]
    split_ifs
    · exact ⟨rfl, [.entered .quit], rfl, by simp⟩
    · exact ⟨rfl, [.entered .quit], rfl, by simp⟩
  | autoquit =>
    refine ⟨rfl, [.entered .autoquit, .sent .autoquit .failed], List.append_assoc s.trace _ _, ?_⟩
    simp
  | _ => cases hf

theorem notResumed_step {label : Label} (h : step s label = some t) (hfenced : Fenced s)
    (hs : s.NoneClosing) (hl : Unflagged s label) : t.NoneClosing ∧ NotResumed s t := by
  have hf := hfenced.2
  have hcontinues : ∀ {u : Daemon} {obs susp pc}, Continues u t obs susp pc →
      u.sessions = s.sessions → (∀ i, Obs.cont i ∉ obs) → t.NoneClosing ∧ NotResumed s t := by
    intro u obs susp pc hc hu hobs
    have hclients : t.clients = s.clients := hc.clients.trans (congrArg Prod.fst hu)
    have htrace : u.trace = s.trace := congrArg Prod.snd hu
    refine ⟨?_, obs, by rw [hc.trace, htrace], hobs⟩
    unfold Daemon.NoneClosing
    rw [hclients]
    exact hs
  cases change_of_step h with
  | callback _ hc => exact callback_notResumed hc hs hl
  | dispatch source _ hd =>
    obtain ⟨wakeSources, resumeSources, rfl⟩ := dispatch_eq hd
    exact ⟨hs, notResumed_of_eq rfl⟩
  | enter newState _ hpc ht =>
    rw [hpc] at hf
    obtain ⟨hclients, hn⟩ := notResumed_enter (s := s) hf
    subst ht
    refine ⟨?_, hn⟩
    unfold Daemon.NoneClosing
    rw [hclients]
    exact hs
  | wait _ _ _ _ _ ht | suspend _ _ _ _ _ _ ht | nestedYank _ _ _ _ ht | yankSuspend _ _ _ _ ht =>
    exact ht ▸ ⟨hs, notResumed_of_eq rfl⟩
  | event site event loop susp pc _ _ _ _ hc => exact hcontinues hc rfl (by simp)
  | write site inner _ _ hc => exact hcontinues hc rfl (by simp)
  | line site inner event _ _ ht =>
    subst ht
    have hsame := sessions_notifyEvent s event
    exact ⟨noneClosing_of_sessions (t := (notifyEvent s event).suspendAt (.exec site true .idle))
      hs hsame, notResumed_of_eq (congrArg Prod.snd hsame)⟩
  | executed site written inner reply obs susp pc _ hpc _ hturn hc =>
    refine hcontinues hc (sessions_executeCo s reply) ?_
    generalize (colodExecuteCo s reply).1 = result at hturn
    cases hturn <;> simp
  | turn pc pc' obs susp _ hpc hturn hc =>
    rw [hpc] at hf
    cases hturn <;> cases hf
  | start _ hpc | yanked _ _ _ hpc | yankFailed _ _ _ hpc =>
    rw [hpc] at hf
    cases hf

theorem notResumed_run {labels : List Label} (hrun : run step s labels = some t)
    (hfenced : Fenced s) (hs : s.NoneClosing) (hl : Along step Unflagged s labels) :
    NotResumed s t := by
  have hinv : Fenced t ∧ t.NoneClosing ∧ NotResumed s t := by
    refine run_invariant_along (P := fun u => Fenced u ∧ u.NoneClosing ∧ NotResumed s u) ?_ hrun hl
      ⟨hfenced, hs, notResumed_of_eq rfl⟩
    rintro u label v hstep hu ⟨hfu, hnu, hru⟩
    obtain ⟨hnv, hrv⟩ := notResumed_step hstep hfu hnu hu
    exact ⟨(keepsFence_step hstep hfu).fenced, hnv, hru.trans hrv⟩
  exact hinv.2.2

/-! ### The claim -/

/-- A client that has stopped qemu and is waiting for its next request. -/
def Daemon.Holding (s : Daemon) (i : ℕ) : Prop := s.clients[i]? = some ⟨true, .reading⟩

/-- Its disconnect resumes qemu at once. -/
theorem resumed_on_disconnect {i : ℕ} (hrun : s.running = false)
    (halive : s.pc ≠ .done ∧ s.pc ≠ .aborted ∧ s.yellowCo.aborted = false) (h : s.Holding i) :
    ∃ t, run step s [.clientError i, .clientWrite i] = some t ∧ t.trace = s.trace ++ [.cont i] := by
  obtain ⟨hdone, haborted, hyellow⟩ := halive
  have hlt : i < s.clients.length := (List.getElem?_eq_some_iff.mp h).1
  have hget : s.clients[i]? = some ⟨true, .reading⟩ := h
  have herror : step s (.clientError i) = some (s.setClient i ⟨true, .closing false⟩) := by
    rw [step_callback (l := .clientError i) hrun hdone haborted hyellow (by simp)]
    simp [Daemon.callback, hget, clientError]
  have hwrite : step (s.setClient i ⟨true, .closing false⟩) (.clientWrite i) =
      some (((s.setClient i ⟨true, .closing false⟩).setClient i ⟨true, .closing true⟩).observe
        (.cont i)) := by
    rw [step_callback (s := s.setClient i ⟨true, .closing false⟩) (l := .clientWrite i) hrun hdone
      haborted hyellow (by simp)]
    simp [Daemon.callback, Daemon.setClient, hlt, clientWrite]
  refine ⟨_, run_cons_eq_some.mpr ⟨_, herror, run_cons_eq_some.mpr ⟨_, hwrite, rfl⟩⟩, rfl⟩

/-- From `STATE_FAILED` on no `cont` of the disconnect path follows as long as no such
disconnect is under way and no client that has stopped qemu disconnects; but whenever one does,
its `cont` follows and the node, although still failed, runs again. -/
theorem fenced_not_resumed (ctx : ColodContext) (before : List Label) (s : Daemon)
    (hrun : run step (Daemon.init ctx) before = some s) (hstate : s.state = .failed) :
    (∀ labels t, run step s labels = some t → s.NoneClosing → Along step Unflagged s labels →
      NotResumed s t) ∧
    (∀ labels u i, run step s labels = some u → u.running = false →
      u.pc ≠ .done ∧ u.pc ≠ .aborted ∧ u.yellowCo.aborted = false → u.Holding i →
      ∃ t, run step u [.clientError i, .clientWrite i] = some t ∧ t.failed = true ∧
        t.trace = u.trace ++ [.cont i] ∧ ¬ NotResumed s t) := by
  have hfenced := fenced_of_state hrun (.inl hstate)
  constructor
  · intro labels t hrun' hs hl
    exact notResumed_run hrun' hfenced hs hl
  · intro labels u i hrun' hidle halive hholding
    obtain ⟨t, ht, htrace⟩ := resumed_on_disconnect hidle halive hholding
    have hkeep := keepsFence_run hrun' hfenced
    refine ⟨t, ht, (keepsFence_run ht hkeep.fenced).fenced.1, htrace, ?_⟩
    rintro ⟨obs, hobs, hnone⟩
    obtain ⟨obs', hu, -⟩ := hkeep.trace
    rw [htrace, hu, List.append_assoc] at hobs
    have heq : obs' ++ [.cont i] = obs := List.append_cancel_left hobs
    exact hnone i (by simp [← heq])

/-- A client stops qemu in COLO mode, then the peer takes over and the main coroutine sends its own
`stop`. -/
def Schedule.heldAndFenced : List Label :=
  Schedule.coloRunning ++
    [.clientNew, .clientRequest 0 .stop, .clientWrite 0, .clientDone 0 (some .result),
      .cpgDeliver .failover false, .dispatch (.wake 1), .run, .run, .run, .io (.suspend .channel),
      .dispatch .io, .io .write, .io (.suspend .channel)]

theorem heldAndFenced_run : ∃ s, run step (Daemon.init Schedule.context) Schedule.heldAndFenced =
    some s ∧ s.state = .failed ∧ .command .failed .stop ∈ s.trace ∧ s.running = false ∧
      (s.pc ≠ .done ∧ s.pc ≠ .aborted ∧ s.yellowCo.aborted = false) ∧ s.Holding 0 ∧
      s.NoneClosing := by
  have hstate : (run step (Daemon.init Schedule.context) Schedule.heldAndFenced).map (fun s =>
      (s.state, decide (Obs.command .failed .stop ∈ s.trace), s.running, s.pc, s.yellowCo.aborted,
        decide (s.clients = [⟨true, .reading⟩]))) =
      some (.failed, true, false, .exec .stop true .channel, false, true) := by decide
  obtain ⟨s, hrun, hs⟩ := Option.map_eq_some_iff.mp hstate
  simp only [Prod.mk.injEq, decide_eq_true_eq] at hs
  obtain ⟨hfailed, hstop, hidle, hpc, hyellow, hclients⟩ := hs
  refine ⟨s, hrun, hfailed, hstop, hidle, ⟨by simp [hpc], by simp [hpc], hyellow⟩, ?_, ?_⟩
  · unfold Daemon.Holding
    rw [hclients]
    rfl
  · unfold Daemon.NoneClosing
    rw [hclients]
    simp

theorem fenced_not_resumed_holding :
    ∃ s, run step (Daemon.init Schedule.context) Schedule.heldAndFenced = some s ∧
      (∀ t, run step s [.clientRequest 0 .cont, .clientWrite 0] = some t → NotResumed s t) ∧
      ∃ t, run step s [.clientError 0, .clientWrite 0] = some t ∧ t.failed = true ∧
        ¬ NotResumed s t := by
  obtain ⟨s, hrun, hfailed, -, hidle, halive, hholding, hclosing⟩ := heldAndFenced_run
  obtain ⟨hcalm, hresumed⟩ := fenced_not_resumed Schedule.context _ s hrun hfailed
  obtain ⟨t, ht, hfailed', -, hnot⟩ := hresumed [] s 0 rfl hidle halive hholding
  refine ⟨s, hrun, ?_, t, ht, hfailed', hnot⟩
  intro u hu
  exact hcalm _ u hu hclosing ⟨nofun, fun _ _ => ⟨nofun, fun _ _ => trivial⟩⟩

/-- The client disconnects and the fenced node runs again. -/
theorem fenced_resumed :
    ¬ ∀ (ctx : ColodContext) (before : List Label) (s : Daemon) (labels : List Label) (t : Daemon),
      run step (Daemon.init ctx) before = some s → s.state = .failed →
        .command .failed .stop ∈ s.trace → run step s labels = some t → NotResumed s t := by
  intro hclaim
  obtain ⟨s, hrun, hfailed, hstop, hidle, halive, hholding, -⟩ := heldAndFenced_run
  obtain ⟨t, ht, htrace⟩ := resumed_on_disconnect hidle halive hholding
  obtain ⟨obs, hobs, hnone⟩ := hclaim _ _ s _ t hrun hfailed hstop ht
  have heq : [Obs.cont 0] = obs := List.append_cancel_left (htrace.symm.trans hobs)
  exact hnone 0 (by simp [← heq])

end ColoDaemon
