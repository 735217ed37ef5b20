import ColoDaemon.MainTurns

/-!
# What a step announces

The fields of `announcement` are the yellow status of the two nodes, the debouncer and the group
messages. `Announces` lists everything that a step can do to them, with the label it does it under.
-/

namespace ColoDaemon
open Runs EventLoop
variable {s t u : Daemon}

/-- The fields that announcements read and write. -/
def Daemon.announcement (s : Daemon) := (s.yellow, s.peerYellow, s.yellowCo, s.freed, s.cpg)

/-- A write or flush error on a node other than `nbd0`. -/
def QmpEvent.isDiskError : QmpEvent → Bool
  | .quorumReportBad nodeName type => nodeName ≠ "nbd0" ∧ type ≠ .read
  | _ => false

/-- The qemu event that is read in this step. -/
def Label.event? : Label → Option QmpEvent
  | .qmpEvent event | .io (.event event) => some event
  | _ => none

/-- A disk error is reported to the main coroutine's callback. -/
def DiskError (s : Daemon) (label : Label) : Prop :=
  s.freed = false ∧ ∃ event, label.event? = some event ∧ event.isDiskError = true

def Label.retransmits : Label → Bool
  | .cpgLeft | .cpgRetransmit => true
  | _ => false

/-- The state after the debouncer was resumed. -/
def Daemon.resumeYellow (s : Daemon) (notified : Bool) (r : YellowCoroutine × List YellowAction) :
    Daemon := yellowActions notified { s with yellowCo := r.1 } r.2

/-- The message of the peer that is delivered in this step. -/
def Label.heard : Label → Option ColodMessage
  | .cpgDeliver message false => some message
  | _ => none

/-- What a step does to the fields of `announcement`. -/
inductive Announces (s t : Daemon) : Label → Prop
  | quiet (label : Label) (hlabel : label.heard = none) (h : t.announcement = s.announcement) :
    Announces s t label
  | sent (label : Label) (message : ColodMessage) (hlabel : label.heard = none)
      (hmessage : message = .hello ∨ message = .failover ∨ message = .failed)
      (h : t.announcement = (s.send message).announcement) : Announces s t label
  | delivered (message : ColodMessage) (own : Bool)
      (h : t = if s.freed then { s with cpg := colodCpgDeliver s.cpg message own }
        else colodCpgEventCb { s with cpg := colodCpgDeliver s.cpg message own } message own false) :
    Announces s t (.cpgDeliver message own)
  | repeated (label : Label) (cpg : Cpg) (hlabel : label.retransmits = true)
      (hcpg : cpg = (colodCpgRetransmit s.cpg).2 ∨ cpg = colodCpgRetransmitCb s.cpg)
      (h : t.announcement = { s with cpg }.announcement) : Announces s t label
  | link (ifname : String) (up : Bool)
      (h : t = s.resumeYellow true
        (yellowNetlinkEventCb s.yellowCo s.ctx.monitorInterface ifname up)) :
    Announces s t (.link ifname up)
  | timer (htimers : s.yellowCo.timers ≠ 0)
      (h : t = s.resumeYellow true (ColoDaemon.yellowCo s.yellowCo)) : Announces s t .yellowTimer
  | diskError (label : Label) (herror : DiskError s label)
      (h : t.announcement =
        (({ s with yellow := true }.send .yellow).resumeYellow true
          (yellowShutdown s.yellowCo)).announcement) : Announces s t label
  | teardown (h : t.announcement =
        { s.resumeYellow false (yellowShutdown s.yellowCo) with freed := true }.announcement) :
    Announces s t .teardown
  | setPeer (i : ℕ) (peer : String)
      (h : t.announcement = { s with peerYellow := false }.announcement) :
    Announces s t (.clientRequest i (.setPeer peer))

theorem announcement_wait (s : Daemon) (event : QmpEvent) :
    (raiseWaitEventCb (mainWaitEventCb s event) event).announcement = s.announcement := by
  have hmain : (mainWaitEventCb s event).announcement = s.announcement := by
    unfold mainWaitEventCb
    split
    · split_ifs <;> rfl
    · rfl
  have hraise : ∀ u : Daemon, (raiseWaitEventCb u event).announcement = u.announcement := by
    intro u
    unfold raiseWaitEventCb
    split <;> rfl
  exact (hraise _).trans hmain

theorem announcement_executeCo (s : Daemon) (reply : Option QmpReply) :
    (colodExecuteCo s reply).2.announcement = s.announcement := by
  obtain ⟨loop, qmpError, didYank, h, -⟩ := executeCo_eq s reply
  rw [h]
  rfl

theorem announcement_clientDone {i : ℕ} {client : Client} {reply : Option QmpReply}
    (h : clientDone s i client reply = some t) : t.announcement = s.announcement := by
  have hexec := announcement_executeCo s reply
  unfold clientDone at h
  simp only at h
  split at h
  · split_ifs at h
    cases h
    exact hexec
  · split_ifs at h
    cases h
    exact hexec
  · split_ifs at h
    cases h
    exact hexec
  · cases h
    exact hexec
  · cases h
    exact hexec
  · cases h
    exact hexec
  · cases h
    rfl
  · cases h

/-- The debouncer's actions read and write no other field. -/
theorem announcement_yellowActions {notified : Bool} {s t : Daemon} (actions : List YellowAction)
    (h : t.announcement = s.announcement) :
    (yellowActions notified t actions).announcement =
      (yellowActions notified s actions).announcement := by
  induction actions generalizing s t with
  | nil => exact h
  | cons action actions ih =>
    apply ih
    simp only [Daemon.announcement, Prod.mk.injEq] at h ⊢
    obtain ⟨hyellow, hpeer, hco, hfreed, hcpg⟩ := h
    cases action with
    | send message => simp [Daemon.send, hyellow, hpeer, hco, hfreed, hcpg]
    | notify event =>
      simp only [colodYellowEventCb]
      split_ifs <;> simp [Daemon.queueEvent, hyellow, hpeer, hco, hfreed, hcpg]

theorem announcement_resumeYellow (notified : Bool) (r : YellowCoroutine × List YellowAction)
    (h : t.announcement = s.announcement) :
    (t.resumeYellow notified r).announcement = (s.resumeYellow notified r).announcement := by
  apply announcement_yellowActions
  simp only [Daemon.announcement, Prod.mk.injEq] at h ⊢
  simp [h]

theorem announcement_diskError {event : QmpEvent} (hfreed : s.freed = false)
    (herror : event.isDiskError = true) : (notifyEvent s event).announcement =
      (({ s with yellow := true }.send .yellow).resumeYellow true
        (yellowShutdown s.yellowCo)).announcement := by
  have hwait := announcement_wait s event
  simp only [notifyEvent]
  generalize raiseWaitEventCb (mainWaitEventCb s event) event = u at hwait
  have hu : u.freed = s.freed := congrArg (·.2.2.2.1) hwait
  have hco : u.yellowCo = s.yellowCo := congrArg (·.2.2.1) hwait
  rw [if_neg (by simp [hu, hfreed])]
  cases event with
  | quorumReportBad nodeName type =>
    simp only [QmpEvent.isDiskError, decide_eq_true_eq] at herror
    have hset : ({ u with yellow := true }.send .yellow).announcement =
        ({ s with yellow := true }.send .yellow).announcement := by
      simp only [Daemon.announcement, Prod.mk.injEq] at hwait
      simp [Daemon.announcement, Daemon.send, hwait]
    simp only [colodQmpEventCb, if_neg herror.1, if_neg herror.2]
    rw [← announcement_resumeYellow true (yellowShutdown s.yellowCo) hset, ← hco]
    rfl
  | _ => cases herror

theorem announces_notifyEvent {label : Label} {event : QmpEvent}
    (hlabel : label.event? = some event) : Announces s (notifyEvent s event) label := by
  have hheard : label.heard = none := by
    cases label <;> first | rfl | cases hlabel
  by_cases herror : s.freed = false ∧ event.isDiskError = true
  · obtain ⟨hfreed, hdisk⟩ := herror
    exact .diskError _ ⟨hfreed, event, hlabel, hdisk⟩ (announcement_diskError hfreed hdisk)
  refine .quiet _ hheard ?_
  have hwait := announcement_wait s event
  simp only [notifyEvent]
  generalize raiseWaitEventCb (mainWaitEventCb s event) event = u at hwait
  have hu : u.freed = s.freed := congrArg (·.2.2.2.1) hwait
  split_ifs with hf
  · exact hwait
  refine Eq.trans ?_ hwait
  have hdisk : event.isDiskError = false := by
    by_contra hd
    exact herror ⟨by simpa [hu] using hf, by simpa using hd⟩
  cases event with
  | quorumReportBad nodeName type =>
    simp only [QmpEvent.isDiskError, decide_eq_false_iff_not, not_and, not_not] at hdisk
    simp only [colodQmpEventCb]
    split_ifs with hnode htype htype
    · rfl
    · rfl
    · rfl
    · exact absurd (hdisk hnode) htype
  | migration status =>
    simp only [colodQmpEventCb]
    split_ifs <;> rfl
  | coloExit reason =>
    simp only [colodQmpEventCb]
    split_ifs <;> rfl
  | reset =>
    simp only [colodQmpEventCb, colodRaiseTimeoutCoroutine]
    split_ifs <;> rfl
  | stop | resume | other => rfl

theorem announces_callback {label : Label} (h : s.callback label = some t) :
    Announces s t label := by
  cases label with
  | cpgDeliver message own =>
    cases h
    exact .delivered message own rfl
  | cpgLeft =>
    cases h
    refine .repeated _ _ rfl (.inl rfl) ?_
    dsimp only
    split_ifs <;> rfl
  | cpgRetransmit =>
    simp only [Daemon.callback] at h
    split_ifs at h
    cases h
    exact .repeated _ _ rfl (.inr rfl) rfl
  | qmpEvent event => cases h; exact announces_notifyEvent rfl
  | qmpHup =>
    simp only [Daemon.callback] at h
    split_ifs at h
    cases h
    exact .quiet _ rfl rfl
  | qmpError | nestedYank | clientNew => cases h; exact .quiet _ rfl rfl
  | link ifname up => cases h; exact .link ifname up rfl
  | yellowTimer =>
    simp only [Daemon.callback] at h
    split_ifs at h with htimers
    cases h
    exact .timer htimers rfl
  | raiseDispatch =>
    simp only [Daemon.callback] at h
    split at h
    · split_ifs at h
      cases h
      refine .quiet _ rfl ?_
      unfold colodRaiseTimeoutCo
      split <;> rfl
    · cases h
  | executeDone reply =>
    cases h
    rw [← executeCo_snd]
    exact .quiet _ rfl (announcement_executeCo s reply)
  | yankDone reply => cases h; exact .quiet _ rfl (by cases reply <;> rfl)
  | healthDone status =>
    cases h
    refine .quiet _ rfl ?_
    unfold colodCheckHealthCo
    split
    · rfl
    · split_ifs <;> rfl
  | teardown =>
    simp only [Daemon.callback] at h
    split_ifs at h
    cases h
    have hqueue : (s.queueEvent .quit).announcement = s.announcement := rfl
    have hresume := announcement_resumeYellow false (yellowShutdown s.yellowCo) hqueue
    refine .teardown ?_
    simp only [Daemon.announcement, Prod.mk.injEq] at hresume ⊢
    exact ⟨hresume.1, hresume.2.1, hresume.2.2.1, rfl, hresume.2.2.2.2⟩
  | clientRequest i request =>
    simp only [Daemon.callback] at h
    split at h
    · split_ifs at h
      cases h
      cases request with
      | setPeer peer => exact .setPeer i peer rfl
      | startMigration =>
        refine .quiet _ rfl ?_
        simp only [clientRequest, colodStartMigration]
        split_ifs <;> rfl
      | _ => exact .quiet _ rfl rfl
    · cases h
  | clientWrite i =>
    obtain ⟨client, hi, h⟩ := Option.bind_eq_some_iff.mp h
    refine .quiet _ rfl ?_
    unfold clientWrite at h
    split at h <;> cases h <;> rfl
  | clientDone i reply =>
    obtain ⟨client, -, h⟩ := Option.bind_eq_some_iff.mp h
    exact .quiet _ rfl (announcement_clientDone h)
  | clientError i =>
    simp only [Daemon.callback] at h
    split at h
    · split_ifs at h
      cases h
      exact .quiet _ rfl rfl
    · cases h
  | dispatch | run | io => cases h

theorem announces_enter (newState : MainState) : Announces s (colodMainCo s newState) .run := by
  cases newState with
  | failoverSync => exact .sent _ .failover rfl (.inr (.inl rfl)) rfl
  | failed | autoquit => exact .sent _ .failed rfl (.inr (.inr rfl)) rfl
  | secondaryColoRunning | primaryColoRunning =>
    refine .quiet _ rfl ?_
    simp only [colodMainCo]
    split_ifs <;> rfl
  | quit =>
    refine .quiet _ rfl ?_
    simp only [colodMainCo, colodMainCoReturn]
    split_ifs <;> rfl
  | _ => exact .quiet _ rfl rfl

theorem Continues.announcement {obs : List Obs} {susp : Bool} {pc : Pc}
    (h : Continues u t obs susp pc) (hu : u.announcement = s.announcement) :
    t.announcement = s.announcement := by
  have hframe := h.frame
  simp only [Daemon.frame, Daemon.announcement, Prod.mk.injEq] at hframe hu ⊢
  simp [hframe, hu]

theorem announces_step {label : Label} (hstep : step s label = some t) : Announces s t label := by
  cases change_of_step hstep with
  | callback _ hc => exact announces_callback hc
  | dispatch source _ hd =>
    obtain ⟨wakeSources, resumeSources, rfl⟩ := dispatch_eq hd
    exact .quiet _ rfl rfl
  | start _ _ ht => exact ht ▸ .sent _ .hello rfl (.inl rfl) rfl
  | enter newState _ _ ht => exact ht ▸ announces_enter newState
  | wait _ _ _ _ _ ht | suspend _ _ _ _ _ _ ht | nestedYank _ _ _ _ ht | yankSuspend _ _ _ _ ht =>
    exact .quiet _ rfl (ht ▸ rfl)
  | event _ _ _ _ _ _ _ _ _ hc | turn _ _ _ _ _ _ _ hc | write _ _ _ _ hc | yanked _ _ _ _ _ hc
  | yankFailed _ _ _ _ _ hc => exact .quiet _ rfl (hc.announcement rfl)
  | line site inner event _ _ ht =>
    have hnotify : Announces s (notifyEvent s event) (.io (.event event)) :=
      announces_notifyEvent rfl
    have hsame : t.announcement = (notifyEvent s event).announcement := by
      rw [ht]
      rfl
    cases hnotify with
    | quiet _ _ h => exact .quiet _ rfl (hsame.trans h)
    | sent _ message _ hmessage h => exact .sent _ message rfl hmessage (hsame.trans h)
    | repeated _ _ hlabel => cases hlabel
    | diskError _ herror h => exact .diskError _ herror (hsame.trans h)
  | executed _ _ _ reply _ _ _ _ _ _ _ hc =>
    exact .quiet _ rfl (hc.announcement (announcement_executeCo s reply))

end ColoDaemon
