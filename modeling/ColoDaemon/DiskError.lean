import ColoDaemon.Announcements

/-!
# Announcing a local disk error

A disk error sets `yellow`, sends `MESSAGE_YELLOW` and shuts the debouncer down, which resumes it
once more. In the second timer that resumption takes the debouncer's own message back: if it was
about to announce a link failure, `MESSAGE_UNYELLOW` is sent after the announcement of the disk
error. In every other stage nothing but `MESSAGE_YELLOW` follows.
-/

namespace ColoDaemon
open Runs EventLoop
variable {s t u : Daemon}

/-! ### The debouncer -/

/-- A timer source is attached in the two timed stages alone. -/
structure YellowCoroutine.Sound (y : YellowCoroutine) : Prop where
  timers : y.timers = if y.quit = true ∨ y.pc = .idle then 0 else 1
  target : y.targetEvent = .yellow ∨ y.targetEvent = .unyellow

namespace YellowCoroutine
variable {y : YellowCoroutine}

theorem Sound.timed (hy : y.Sound) (hquit : y.quit = false) (hpc : y.pc ≠ .idle) :
    y.timers = 1 := by
  rw [hy.timers, if_neg (by simp [hquit, hpc])]

theorem sound_top {event : ColodEvent} (hquit : y.quit = false) (htimers : y.timers = 0)
    (htarget : y.targetEvent = .yellow ∨ y.targetEvent = .unyellow) :
    (yellowDelayTop y (some event)).Sound := by
  unfold yellowDelayTop
  simp only
  split_ifs
  · exact ⟨by simp [htimers], htarget⟩
  · exact ⟨by simp [htimers], htarget⟩
  · exact ⟨by simp [hquit, htimers], htarget⟩

theorem sound_queueEvent (hy : y.Sound) (event : ColodEvent) :
    (yellowQueueEvent y event).1.Sound := by
  unfold yellowQueueEvent
  split_ifs with hquit
  · exact ⟨hy.timers, hy.target⟩
  · have hq : y.quit = false := by simpa using hquit
    unfold yellowCoResume
    cases hpc : y.pc with
    | idle =>
      have htimers : y.timers = 0 := by rw [hy.timers, if_pos (.inr hpc)]
      exact sound_top hq htimers hy.target
    | timer1 | timer2 =>
      have htimers : y.timers = 1 := hy.timed hq (by simp [hpc])
      simp only
      split_ifs
      · exact hy
      · exact sound_top hq (by simp [htimers]) hy.target

theorem sound_shutdown (hy : y.Sound) : (yellowShutdown y).1.Sound := by
  unfold yellowShutdown
  split_ifs
  · exact hy
  · exact sound_queueEvent hy .quit

theorem sound_netlink (hy : y.Sound) (monitorInterface : Option String) (ifname : String)
    (up : Bool) : (yellowNetlinkEventCb y monitorInterface ifname up).1.Sound := by
  unfold yellowNetlinkEventCb
  split_ifs
  · exact hy
  · exact sound_queueEvent hy _
  · exact sound_queueEvent hy _

theorem sound_timer (hy : y.Sound) (htimers : y.timers ≠ 0) : (ColoDaemon.yellowCo y).1.Sound := by
  have hrunning : y.quit = false ∧ y.pc ≠ .idle := by
    rw [hy.timers] at htimers
    split_ifs at htimers with h
    · exact absurd rfl htimers
    · simpa using h
  obtain ⟨hquit, hidle⟩ := hrunning
  have hone := hy.timed hquit hidle
  unfold ColoDaemon.yellowCo yellowCoResume
  cases hpc : y.pc with
  | idle => exact absurd hpc hidle
  | timer1 =>
    simp only [hquit, Bool.false_eq_true, if_false]
    exact ⟨by simp [hone], hy.target⟩
  | timer2 =>
    simp only [hquit, Bool.false_eq_true, if_false]
    refine ⟨by simp [hone], ?_⟩
    rcases hy.target with h | h <;> simp [h]

/-- What a shutdown sends. -/
theorem shutdown_eq (hy : y.Sound) : ∃ y', y'.quit = true ∧ yellowShutdown y = (y',
    if y.quit = false ∧ y.pc = .timer2 then [yellowSendRevertMessage y.targetEvent] else []) := by
  have htarget : ColodEvent.quit ≠ y.targetEvent := by
    rcases hy.target with h | h <;> simp [h]
  unfold yellowShutdown
  cases hquit : y.quit with
  | true => exact ⟨y, hquit, by simp⟩
  | false =>
    simp only [Bool.false_eq_true, if_false, yellowQueueEvent, hquit, yellowCoResume, true_and]
    cases hpc : y.pc <;> simp [yellowDelayTop, htarget]

end YellowCoroutine

/-! ### One step -/

/-- Fields that the debouncer's actions leave alone. -/
def Daemon.unmoved (s : Daemon) := (s.yellowCo, s.freed, s.peerYellow)

theorem unmoved_yellowActions (notified : Bool) (s : Daemon) (actions : List YellowAction) :
    (yellowActions notified s actions).unmoved = s.unmoved := by
  induction actions generalizing s with
  | nil => rfl
  | cons action actions ih =>
    refine (ih _).trans ?_
    cases action with
    | send message => rfl
    | notify event =>
      simp only [colodYellowEventCb]
      split_ifs <;> rfl

theorem unmoved_resumeYellow (notified : Bool) (s : Daemon)
    (r : YellowCoroutine × List YellowAction) :
    (s.resumeYellow notified r).unmoved = (r.1, s.freed, s.peerYellow) :=
  unmoved_yellowActions notified _ r.2

/-- What a node makes of a message of its peer. -/
def hears (peerYellow : Bool) : ColodMessage → Bool
  | .yellow => true
  | .unyellow => false
  | _ => peerYellow

theorem unmoved_cpgEventCb (s : Daemon) (message : ColodMessage) (own : Bool) :
    (colodCpgEventCb s message own false).unmoved =
      (s.yellowCo, s.freed, if own then s.peerYellow else hears s.peerYellow message) := by
  unfold colodCpgEventCb
  cases message with
  | hello =>
    simp only [Bool.false_eq_true, if_false]
    cases own <;> split_ifs <;> rfl
  | _ => cases own <;> rfl

/-- The debouncer's timers are sound after every step. -/
theorem yellowSound_step {label : Label} (hstep : step s label = some t)
    (hs : s.yellowCo.Sound) : t.yellowCo.Sound := by
  have hco : ∀ {v : Daemon}, t.announcement = v.announcement → v.yellowCo.Sound →
      t.yellowCo.Sound := by
    intro v h hv
    have heq : t.yellowCo = v.yellowCo := congrArg (·.2.2.1) h
    exact heq ▸ hv
  have hresume : ∀ (notified : Bool) (v : Daemon) (r : YellowCoroutine × List YellowAction),
      r.1.Sound → (v.resumeYellow notified r).yellowCo.Sound := by
    intro notified v r hr
    have heq : (v.resumeYellow notified r).yellowCo = r.1 :=
      congrArg (·.1) (unmoved_resumeYellow notified v r)
    exact heq ▸ hr
  cases announces_step hstep with
  | quiet _ _ h => exact hco h hs
  | sent _ message _ _ h => exact hco h hs
  | delivered message own h =>
    subst h
    split_ifs
    · exact hs
    · have heq := congrArg (·.1) (unmoved_cpgEventCb
        { s with cpg := colodCpgDeliver s.cpg message own } message own)
      simp only [Daemon.unmoved] at heq
      rw [heq]
      exact hs
  | repeated _ cpg _ _ h => exact hco h hs
  | link ifname up h => exact h ▸ hresume _ _ _ (YellowCoroutine.sound_netlink hs _ _ _)
  | timer htimers h => exact h ▸ hresume _ _ _ (YellowCoroutine.sound_timer hs htimers)
  | diskError _ _ h => exact hco h (hresume _ _ _ (YellowCoroutine.sound_shutdown hs))
  | teardown h => exact hco h (hresume _ _ _ (YellowCoroutine.sound_shutdown hs))
  | setPeer _ _ h => exact hco h hs

theorem yellowSound_of_run {ctx : ColodContext} {labels : List Label}
    (hrun : run step (Daemon.init ctx) labels = some s) : s.yellowCo.Sound :=
  run_invariant (P := fun u => u.yellowCo.Sound) (fun _ _ _ => yellowSound_step) hrun
    ⟨rfl, .inl rfl⟩

/-! ### After the error -/

/-- The disk error is known and the debouncer is shut down. -/
structure Daemon.Settled (s : Daemon) : Prop where
  yellow : s.yellow = true
  quit : s.yellowCo.quit = true

/-- The multicasts between two states. -/
def sentSince (s t : Daemon) : List ColodMessage := t.cpg.outbox.drop s.cpg.outbox.length

theorem sentSince_eq {messages : List ColodMessage}
    (h : t.cpg.outbox = s.cpg.outbox ++ messages) : sentSince s t = messages := by
  simp [sentSince, h]

theorem shutdown_quit {y : YellowCoroutine} (h : y.quit = true) : yellowShutdown y = (y, []) := by
  unfold yellowShutdown
  rw [if_pos h]

theorem settled_cpgEventCb (hs : s.Settled) (message : ColodMessage) (own : Bool) :
    (colodCpgEventCb s message own false).Settled ∧ ∃ messages,
      (colodCpgEventCb s message own false).cpg.outbox = s.cpg.outbox ++ messages ∧
        .unyellow ∉ messages := by
  have hkeep : ∀ {u : Daemon}, u.announcement = { s with peerYellow := u.peerYellow }.announcement →
      u.Settled ∧ ∃ messages, u.cpg.outbox = s.cpg.outbox ++ messages ∧ .unyellow ∉ messages := by
    intro u h
    simp only [Daemon.announcement, Prod.mk.injEq, true_and] at h
    obtain ⟨hy, hco, -, hcpg⟩ := h
    exact ⟨⟨hy.trans hs.yellow, by rw [hco, hs.quit]⟩, [], by simp [hcpg], by simp⟩
  unfold colodCpgEventCb
  cases message with
  | hello =>
    simp only [Bool.false_eq_true, if_false, hs.yellow, if_true]
    exact ⟨⟨hs.yellow, hs.quit⟩, [.yellow], rfl, by simp⟩
  | _ => cases own <;> exact hkeep rfl

/-- Nothing takes the announcement back any more. -/
theorem settled_step {label : Label} (hstep : step s label = some t) (hsound : s.yellowCo.Sound)
    (hs : s.Settled) : t.Settled ∧ ∃ messages, t.cpg.outbox = s.cpg.outbox ++ messages ∧
      (label.retransmits = false → .unyellow ∉ messages) := by
  have hmoved : ∀ {v : Daemon} {messages : List ColodMessage},
      t.announcement = v.announcement → v.yellow = true → v.yellowCo.quit = true →
      v.cpg.outbox = s.cpg.outbox ++ messages →
      (label.retransmits = false → .unyellow ∉ messages) → t.Settled ∧ ∃ messages,
        t.cpg.outbox = s.cpg.outbox ++ messages ∧
          (label.retransmits = false → .unyellow ∉ messages) := by
    intro v messages h hyellow hquit hout hno
    simp only [Daemon.announcement, Prod.mk.injEq] at h
    obtain ⟨hy, -, hco, -, hcpg⟩ := h
    exact ⟨⟨hy.trans hyellow, by rw [hco, hquit]⟩, messages, by rw [hcpg, hout], hno⟩
  have hquit := hs.quit
  cases announces_step hstep with
  | quiet _ _ h => exact hmoved h hs.yellow hquit (List.append_nil _).symm (by simp)
  | sent _ message _ hmessage h =>
    refine hmoved h hs.yellow hquit rfl ?_
    rcases hmessage with rfl | rfl | rfl <;> simp
  | delivered message own h =>
    have hout := outbox_deliver s.cpg message own
    by_cases hfreed : s.freed = true
    · rw [if_pos hfreed] at h
      subst h
      exact ⟨⟨hs.yellow, hquit⟩, [], by simp, by simp⟩
    · rw [if_neg hfreed] at h
      subst h
      obtain ⟨hsettled, messages, hm, hno⟩ := settled_cpgEventCb
        (s := { s with cpg := colodCpgDeliver s.cpg message own }) ⟨hs.yellow, hquit⟩ message own
      exact ⟨hsettled, messages, hm.trans (congrArg (· ++ messages) hout), fun _ => hno⟩
  | repeated _ cpg hlabel hcpg h =>
    have hout : cpg.outbox = s.cpg.outbox ++ s.cpg.pending := by
      rcases hcpg with rfl | rfl
      · exact (colodCpgRetransmit_eq s.cpg).2
      · exact (colodCpgRetransmitCb_eq s.cpg).2
    exact hmoved h hs.yellow hquit hout (by simp [hlabel])
  | link ifname up h =>
    have hnone : yellowNetlinkEventCb s.yellowCo s.ctx.monitorInterface ifname up =
        (s.yellowCo, []) := by
      unfold yellowNetlinkEventCb
      rw [if_pos (.inl hquit)]
    rw [hnone] at h
    exact hmoved (congrArg Daemon.announcement h) hs.yellow hquit (List.append_nil _).symm (by simp)
  | timer htimers =>
    rw [hsound.timers, if_pos (.inl hquit)] at htimers
    exact absurd rfl htimers
  | diskError _ _ h =>
    rw [shutdown_quit hquit] at h
    exact hmoved h rfl hquit rfl (by simp)
  | teardown h =>
    rw [shutdown_quit hquit] at h
    exact hmoved h hs.yellow hquit (List.append_nil _).symm (by simp)
  | setPeer _ _ h => exact hmoved h hs.yellow hquit (List.append_nil _).symm (by simp)

/-- The error itself: its announcement, and what the shutdown of the debouncer adds. -/
theorem diskError_step {label : Label} (hstep : step s label = some u) (hsound : s.yellowCo.Sound)
    (herror : DiskError s label) : u.Settled ∧ u.cpg.outbox = s.cpg.outbox ++ .yellow ::
      (if s.yellowCo.quit = false ∧ s.yellowCo.pc = .timer2 then
        [if s.yellowCo.targetEvent = .yellow then .unyellow else .yellow] else []) := by
  obtain ⟨hfreed, event, hlabel, hdisk⟩ := herror
  obtain ⟨y, hquit, hpair⟩ := YellowCoroutine.shutdown_eq hsound
  have hsame : u.announcement = (notifyEvent s event).announcement := by
    cases change_of_step hstep with
    | callback _ hc =>
      cases label with
      | qmpEvent event' =>
        cases hlabel
        cases hc
        rfl
      | io x => cases hc
      | _ => cases hlabel
    | line site inner event' _ _ ht =>
      cases hlabel
      rw [ht]
      rfl
    | _ => cases hlabel
  rw [announcement_diskError hfreed hdisk, hpair] at hsame
  have hu : ∀ messages : List ColodMessage, u.announcement =
      (true, s.peerYellow, y, s.freed, messages.foldl colodCpgSend (colodCpgSend s.cpg .yellow)) →
      u.Settled ∧ u.cpg = messages.foldl colodCpgSend (colodCpgSend s.cpg .yellow) := by
    intro messages h
    simp only [Daemon.announcement, Prod.mk.injEq] at h
    exact ⟨⟨h.1, by rw [h.2.2.1, hquit]⟩, h.2.2.2.2⟩
  by_cases htimer : s.yellowCo.quit = false ∧ s.yellowCo.pc = .timer2
  · rw [if_pos htimer] at hsame ⊢
    by_cases htarget : s.yellowCo.targetEvent = .yellow
    · rw [yellowSendRevertMessage, if_pos htarget] at hsame
      obtain ⟨hs, hcpg⟩ := hu [.unyellow] hsame
      exact ⟨hs, by simp [hcpg, htarget, colodCpgSend]⟩
    · rw [yellowSendRevertMessage, if_neg htarget] at hsame
      obtain ⟨hs, hcpg⟩ := hu [.yellow] hsame
      exact ⟨hs, by simp [hcpg, htarget, colodCpgSend]⟩
  · rw [if_neg htimer] at hsame ⊢
    obtain ⟨hs, hcpg⟩ := hu [] hsame
    exact ⟨hs, by rw [hcpg]; rfl⟩

/-- What the daemon multicasts in a run by its own logic; retransmissions are left out. -/
def ownSends : Daemon → List Label → List ColodMessage
  | _, [] => []
  | s, label :: labels =>
    match step s label with
    | none => []
    | some t => (if label.retransmits then [] else sentSince s t) ++ ownSends t labels

theorem ownSends_cons {label : Label} {labels : List Label} (hstep : step s label = some t) :
    ownSends s (label :: labels) =
      (if label.retransmits then [] else sentSince s t) ++ ownSends t labels := by
  rw [ownSends, hstep]

theorem settled_run {labels : List Label} (hrun : run step s labels = some t)
    (hsound : s.yellowCo.Sound) (hs : s.Settled) :
    t.Settled ∧ .unyellow ∉ ownSends s labels ∧ ((∀ label ∈ labels, label.retransmits = false) →
      t.cpg.outbox = s.cpg.outbox ++ ownSends s labels) := by
  induction labels generalizing s with
  | nil =>
    cases hrun
    exact ⟨hs, by simp [ownSends], by simp [ownSends]⟩
  | cons label labels ih =>
    obtain ⟨u, hstep, hrun⟩ := run_cons_eq_some.mp hrun
    obtain ⟨hu, messages, hout, hno⟩ := settled_step hstep hsound hs
    obtain ⟨ht, hrest, hlossless⟩ := ih hrun (yellowSound_step hstep hsound) hu
    rw [ownSends_cons hstep, sentSince_eq hout]
    refine ⟨ht, ?_, ?_⟩
    · intro hmem
      rcases List.mem_append.mp hmem with hmem | hmem
      · split_ifs at hmem with hl
        · cases hmem
        · exact hno (by simpa using hl) hmem
      · exact hrest hmem
    · intro hall
      have hl := hall label List.mem_cons_self
      rw [hlossless fun l hmem => hall l (List.mem_cons_of_mem label hmem), hout, List.append_assoc]
      simp [hl]

/-! ### The peer -/

/-- The peer answers `set-peer` by forgetting what it has heard. -/
def Label.setsPeer : Label → Bool
  | .clientRequest _ (.setPeer _) => true
  | _ => false

theorem heard_step {label : Label} (hstep : step s label = some t) (hl : label.setsPeer = false)
    (hfreed : t.freed = false) :
    s.freed = false ∧ t.peerYellow = (label.heard.toList).foldl hears s.peerYellow := by
  have hmoved : ∀ {v : Daemon}, t.announcement = v.announcement → v.freed = s.freed →
      v.peerYellow = s.peerYellow → label.heard = none →
      s.freed = false ∧ t.peerYellow = (label.heard.toList).foldl hears s.peerYellow := by
    intro v h hf hp hnone
    simp only [Daemon.announcement, Prod.mk.injEq] at h
    obtain ⟨-, hpeer, -, hfr, -⟩ := h
    rw [hnone]
    exact ⟨by rw [← hf, ← hfr, hfreed], by rw [hpeer, hp]; rfl⟩
  have hresume : ∀ (notified : Bool) (v : Daemon) (r : YellowCoroutine × List YellowAction),
      (v.resumeYellow notified r).freed = v.freed ∧
        (v.resumeYellow notified r).peerYellow = v.peerYellow := by
    intro notified v r
    have h := unmoved_resumeYellow notified v r
    exact ⟨congrArg (·.2.1) h, congrArg (·.2.2) h⟩
  cases announces_step hstep with
  | quiet _ hheard h => exact hmoved h rfl rfl hheard
  | sent _ message hheard _ h => exact hmoved h rfl rfl hheard
  | delivered message own h =>
    by_cases hf : s.freed = true
    · rw [if_pos hf] at h
      subst h
      simp only at hfreed
      rw [hf] at hfreed
      cases hfreed
    · rw [if_neg hf] at h
      have hcb := unmoved_cpgEventCb { s with cpg := colodCpgDeliver s.cpg message own } message own
      rw [← h] at hcb
      refine ⟨by simpa using hf, ?_⟩
      have hpeer : t.peerYellow = if own then s.peerYellow else hears s.peerYellow message :=
        congrArg (·.2.2) hcb
      rw [hpeer]
      cases own <;> rfl
  | repeated _ cpg hlabel _ h => exact hmoved h rfl rfl (by cases label <;> first | rfl | cases hlabel)
  | link ifname up h => exact hmoved (congrArg _ h) (hresume _ _ _).1 (hresume _ _ _).2 rfl
  | timer _ h => exact hmoved (congrArg _ h) (hresume _ _ _).1 (hresume _ _ _).2 rfl
  | diskError _ herror h =>
    obtain ⟨-, event, hevent, -⟩ := herror
    have hnone : label.heard = none := by
      cases label <;> first | rfl | cases hevent
    exact hmoved h (hresume _ _ _).1 (hresume _ _ _).2 hnone
  | teardown h =>
    have hfr := congrArg (·.2.2.2.1) h
    simp only [Daemon.announcement] at hfr
    rw [hfreed] at hfr
    cases hfr
  | setPeer => cases hl

theorem heard_run {labels : List Label} (hrun : run step s labels = some t)
    (hl : ∀ label ∈ labels, label.setsPeer = false) (hfreed : t.freed = false) :
    s.freed = false ∧ t.peerYellow = (labels.filterMap Label.heard).foldl hears s.peerYellow := by
  induction labels generalizing s with
  | nil =>
    cases hrun
    exact ⟨hfreed, rfl⟩
  | cons label labels ih =>
    obtain ⟨u, hstep, hrun⟩ := run_cons_eq_some.mp hrun
    obtain ⟨hu, hrest⟩ := ih hrun fun l hmem => hl l (List.mem_cons_of_mem label hmem)
    obtain ⟨hs, hpeer⟩ := heard_step hstep (hl label List.mem_cons_self) hu
    refine ⟨hs, ?_⟩
    rw [hrest, hpeer]
    cases hheard : label.heard <;> simp [hheard]

/-! ### The claim -/

theorem lastYellow_of_not_mem {messages : List ColodMessage} (h : .unyellow ∉ messages) :
    lastYellow (.yellow :: messages) = some .yellow := by
  cases hlast : lastYellow (.yellow :: messages) with
  | none => exact absurd (lastYellow_eq_none.mp hlast _ List.mem_cons_self) nofun
  | some message =>
    obtain ⟨hmem, hkind⟩ := mem_of_lastYellow hlast
    rcases List.mem_cons.mp hmem with rfl | hmem
    · rfl
    · cases message <;> first | rfl | exact absurd hmem h | cases hkind

theorem foldl_hears_of_not_mem {messages : List ColodMessage} (h : .unyellow ∉ messages) :
    messages.foldl hears true = true := by
  induction messages with
  | nil => rfl
  | cons message messages ih =>
    simp only [List.mem_cons, not_or] at h
    have hone : hears true message = true := by
      cases message <;> first | rfl | exact absurd rfl h.1
    rw [List.foldl_cons, hone]
    exact ih h.2

/-- The property: from the disk error on the flag stays set, the last of the two messages that the
daemon itself sends is `MESSAGE_YELLOW`, and a peer to which everything is delivered in order knows
it. -/
def AnnouncedForGood (s : Daemon) (label : Label) : Prop :=
  ∀ labels t, run step s (label :: labels) = some t →
    t.yellow = true ∧ lastYellow (ownSends s (label :: labels)) = some .yellow ∧
      ((∀ l ∈ labels, l.retransmits = false) → ∀ p heard p', run step p heard = some p' →
        p'.freed = false → (∀ l ∈ heard, l.setsPeer = false) →
        heard.filterMap Label.heard = sentSince s t → p'.peerYellow = true)

/-- A disk error is announced for good if and only if it does not arrive while the second timer
runs for a link failure. The flag stays set in any case. -/
theorem disk_error_announced_iff (ctx : ColodContext) (before : List Label) (s u : Daemon)
    (label : Label) (hrun : run step (Daemon.init ctx) before = some s)
    (hstep : step s label = some u) (herror : DiskError s label) :
    (∀ labels t, run step u labels = some t → t.yellow = true) ∧
    (AnnouncedForGood s label ↔ ¬ (s.yellowCo.quit = false ∧ s.yellowCo.pc = .timer2 ∧
      s.yellowCo.targetEvent = .yellow)) := by
  have hsound := yellowSound_of_run hrun
  have hsoundu := yellowSound_step hstep hsound
  obtain ⟨hu, hout⟩ := diskError_step hstep hsound herror
  have hretransmits : label.retransmits = false := by
    obtain ⟨-, event, hevent, -⟩ := herror
    cases label <;> first | rfl | cases hevent
  have hsent : ∀ labels, ownSends s (label :: labels) = sentSince s u ++ ownSends u labels := by
    intro labels
    rw [ownSends_cons hstep, hretransmits]
    rfl
  refine ⟨fun labels t hrun' => (settled_run hrun' hsoundu hu).1.yellow, ?_⟩
  constructor
  · rintro hgood ⟨hquit, hpc, htarget⟩
    have hlast := (hgood [] u (run_cons_eq_some.mpr ⟨u, hstep, rfl⟩)).2.1
    rw [hsent, sentSince_eq hout, if_pos ⟨hquit, hpc⟩, if_pos htarget] at hlast
    cases hlast
  · intro hnot labels t hrun'
    obtain ⟨v, hv, hrun'⟩ := run_cons_eq_some.mp hrun'
    rw [hstep, Option.some.injEq] at hv
    subst hv
    obtain ⟨ht, hno, hlossless⟩ := settled_run hrun' hsoundu hu
    have hfirst : ∃ rest, sentSince s u = .yellow :: rest ∧ .unyellow ∉ rest := by
      rw [sentSince_eq hout]
      refine ⟨_, rfl, ?_⟩
      split_ifs with htimer htarget
      · exact absurd ⟨htimer.1, htimer.2, htarget⟩ hnot
      · simp
      · simp
    obtain ⟨rest, hrest, hnorest⟩ := hfirst
    have hall : .unyellow ∉ rest ++ ownSends u labels := by
      intro hmem
      rcases List.mem_append.mp hmem with hmem | hmem
      · exact hnorest hmem
      · exact hno hmem
    refine ⟨ht.yellow, ?_, ?_⟩
    · rw [hsent, hrest]
      exact lastYellow_of_not_mem hall
    · intro hall' p heard p' hp hfreed hset hheard
      have hboth : t.cpg.outbox = s.cpg.outbox ++ (.yellow :: (rest ++ ownSends u labels)) := by
        rw [hlossless hall', hout, List.append_assoc, ← sentSince_eq hout, hrest]
        rfl
      rw [(heard_run hp hset hfreed).2, hheard, sentSince_eq hboth]
      exact foldl_hears_of_not_mem hall

/-- The monitored link goes down. -/
def Schedule.linkDown : List Label := [.link "eth0" false]

def Schedule.writeError : Label := .qmpEvent (.quorumReportBad "disk0" .write)

theorem disk_error_announced_iff_first_timer :
    ∃ s, run step (Daemon.init Schedule.context) Schedule.linkDown = some s ∧
      (step s Schedule.writeError).isSome = true ∧ AnnouncedForGood s Schedule.writeError := by
  have hcheck : (run step (Daemon.init Schedule.context) Schedule.linkDown).map (fun s =>
      (s.yellowCo.pc, s.freed, (step s Schedule.writeError).isSome)) =
      some (.timer1, false, true) := by decide
  obtain ⟨s, hrun, hs⟩ := Option.map_eq_some_iff.mp hcheck
  simp only [Prod.mk.injEq] at hs
  obtain ⟨hpc, hfreed, hsome⟩ := hs
  obtain ⟨u, hstep⟩ := Option.isSome_iff_exists.mp hsome
  have herror : DiskError s Schedule.writeError := ⟨hfreed, _, rfl, by decide⟩
  refine ⟨s, hrun, hsome, ?_⟩
  exact (disk_error_announced_iff Schedule.context _ s u _ hrun hstep herror).2.mpr (by simp [hpc])

/-- The error arrives in the second timer of a link failure and is taken back at once. -/
theorem disk_error_revoked :
    ¬ ∀ (ctx : ColodContext) (before : List Label) (s u : Daemon) (label : Label),
      run step (Daemon.init ctx) before = some s → step s label = some u → DiskError s label →
        AnnouncedForGood s label := by
  intro hclaim
  have hcheck : (run step (Daemon.init Schedule.context)
      (Schedule.linkDown ++ [.yellowTimer])).map (fun s =>
        (s.freed, (step s Schedule.writeError).isSome,
          lastYellow (ownSends s [Schedule.writeError]))) =
      some (false, true, some .unyellow) := by decide
  obtain ⟨s, hrun, hs⟩ := Option.map_eq_some_iff.mp hcheck
  simp only [Prod.mk.injEq] at hs
  obtain ⟨hfreed, hsome, hlast⟩ := hs
  obtain ⟨u, hstep⟩ := Option.isSome_iff_exists.mp hsome
  have herror : DiskError s Schedule.writeError := ⟨hfreed, _, rfl, by decide⟩
  have hgood := hclaim _ _ s u _ hrun hstep herror [] u (run_cons_eq_some.mpr ⟨u, hstep, rfl⟩)
  rw [hlast] at hgood
  cases hgood.2.1

end ColoDaemon
