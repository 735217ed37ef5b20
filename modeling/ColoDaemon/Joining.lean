import ColoDaemon.DiskError
import ColoDaemon.YellowRetransmit
import Mathlib.Data.List.Induction

/-!
# Joining a yellow node

A node that joins sends `MESSAGE_HELLO`, which is answered according to the flag `yellow`. The flag
follows the debouncer's announcement only at the end of the second timer, so that in between the
answer is about the status before the announcement. `Join` is a node `a` together with a node `b`
that joins its group, over a lossless channel in order.
-/

namespace ColoDaemon
open Runs
variable {s t : Daemon}

/-! ### The announced status -/

/-- The yellow status that the last announcement of the debouncer was about. -/
def Daemon.announced (s : Daemon) : Bool :=
  if s.yellowCo.pc = .timer2 then s.yellowCo.targetEvent = .yellow else s.yellow

/-- The debouncer runs, and its target is the opposite of the flag. -/
structure Daemon.Debounces (s : Daemon) : Prop where
  sound : s.yellowCo.Sound
  quit : s.yellowCo.quit = false
  freed : s.freed = false
  flag : s.yellow = decide (s.yellowCo.targetEvent = .unyellow)

/-- Disk errors, `set-peer` requests and the end of the daemon. -/
def Label.excluded (label : Label) : Bool :=
  (label.event?.any QmpEvent.isDiskError) || label.setsPeer || label = .teardown

def announcement (yellow : Bool) : ColodMessage := if yellow then .yellow else .unyellow

/-- What the messages of a step tell a listener. -/
inductive Tells (s t : Daemon) (label : Label) (messages : List ColodMessage) : Prop
  | nothing (hmessages : ∀ message ∈ messages, message.isYellow = false)
      (h : t.announced = s.announced)
  | status (h : messages = [announcement t.announced])
  | answer (own : Bool) (hlabel : label = .cpgDeliver .hello own) (hyellow : s.yellow = true)
      (hmessages : messages = [.yellow]) (h : t.announced = s.announced)
  | again (hlabel : label.retransmits = true) (hmessages : messages = s.cpg.pending)
      (h : t.announced = s.announced)

/-- The announcement is read off these fields. -/
theorem Debounces.of_eq {u : Daemon} (hu : u.Debounces) (hyellow : t.yellow = u.yellow)
    (hco : t.yellowCo = u.yellowCo) (hfreed : t.freed = u.freed) :
    t.Debounces ∧ t.announced = u.announced := by
  refine ⟨⟨hco ▸ hu.sound, hco ▸ hu.quit, hfreed.trans hu.freed, ?_⟩, ?_⟩
  · rw [hyellow, hco]
    exact hu.flag
  · simp only [Daemon.announced, hyellow, hco]

theorem outbox_resume (s : Daemon) (y : YellowCoroutine) (messages : List ColodMessage) :
    (s.resumeYellow true (y, messages.map .send)).announcement =
      (s.yellow, s.peerYellow, y, s.freed, messages.foldl colodCpgSend s.cpg) := by
  unfold Daemon.resumeYellow yellowActions
  induction messages generalizing s with
  | nil => rfl
  | cons message messages ih => exact ih (s.send message)

theorem outbox_sends (cpg : Cpg) (messages : List ColodMessage) :
    (messages.foldl colodCpgSend cpg).outbox = cpg.outbox ++ messages := by
  induction messages generalizing cpg with
  | nil => exact (List.append_nil _).symm
  | cons message messages ih =>
    rw [List.foldl_cons, ih]
    exact List.append_assoc cpg.outbox [message] messages

/-- A link event: a revert takes the announcement of the second timer back. -/
theorem queueEvent_tells {y : YellowCoroutine} {yellow : Bool} {event : ColodEvent}
    (htarget : y.targetEvent = .yellow ∨ y.targetEvent = .unyellow) (hquit : y.quit = false)
    (hflag : yellow = decide (y.targetEvent = .unyellow)) (hevent : event ≠ .quit) :
    ∃ y' messages, yellowQueueEvent y event = (y', messages.map .send) ∧
      y'.quit = false ∧ y'.targetEvent = y.targetEvent ∧
      (messages = [] ∧ (y'.pc = .timer2 ↔ y.pc = .timer2) ∨
        messages = [announcement yellow] ∧ y'.pc ≠ .timer2) := by
  have htop : ∀ z : YellowCoroutine, z.quit = false →
      (yellowDelayTop z (some event)).quit = false ∧
        (yellowDelayTop z (some event)).targetEvent = z.targetEvent ∧
        (yellowDelayTop z (some event)).pc ≠ .timer2 := by
    intro z hz
    unfold yellowDelayTop
    simp only [hevent, if_false]
    split_ifs <;> simp [hz]
  obtain ⟨target, pc, timers, quit, aborted⟩ := y
  simp only at htarget hquit hflag
  subst hquit
  simp only [yellowQueueEvent, Bool.false_eq_true, if_false, yellowCoResume]
  cases pc with
  | idle =>
    obtain ⟨hq, ht, hp⟩ := htop ⟨target, .idle, timers, false, aborted⟩ rfl
    exact ⟨_, [], rfl, hq, ht, .inl ⟨rfl, by simp [hp]⟩⟩
  | timer1 =>
    simp only
    split_ifs
    · exact ⟨_, [], rfl, rfl, rfl, .inl ⟨rfl, by simp⟩⟩
    · obtain ⟨hq, ht, hp⟩ := htop ⟨target, .timer1, timers - 1, false, aborted⟩ rfl
      exact ⟨_, [], rfl, hq, ht, .inl ⟨rfl, by simp [hp]⟩⟩
  | timer2 =>
    simp only
    split_ifs
    · exact ⟨_, [], rfl, rfl, rfl, .inl ⟨rfl, by simp⟩⟩
    · obtain ⟨hq, ht, hp⟩ := htop ⟨target, .timer2, timers - 1, false, aborted⟩ rfl
      refine ⟨_, [announcement yellow], ?_, hq, ht, .inr ⟨rfl, hp⟩⟩
      rw [hflag, announcement, yellowSendRevertMessage]
      rcases htarget with rfl | rfl <;> rfl

/-- What a link event tells. -/
theorem link_tells (hs : s.Debounces) (ifname : String) (up : Bool) :
    let t := s.resumeYellow true
      (yellowNetlinkEventCb s.yellowCo s.ctx.monitorInterface ifname up)
    t.Debounces ∧ ∃ messages, t.cpg.outbox = s.cpg.outbox ++ messages ∧
      Tells s t (.link ifname up) messages := by
  have hsound := YellowCoroutine.sound_netlink hs.sound s.ctx.monitorInterface ifname up
  unfold yellowNetlinkEventCb at hsound ⊢
  by_cases hother : s.yellowCo.quit = true ∨ s.ctx.monitorInterface ≠ some ifname
  · rw [if_pos hother]
    exact ⟨⟨hs.sound, hs.quit, hs.freed, hs.flag⟩, [], (List.append_nil _).symm,
      .nothing (by simp) rfl⟩
  rw [if_neg hother] at hsound ⊢
  have hevent : (if up then ColodEvent.unyellow else .yellow) ≠ .quit := by cases up <;> simp
  obtain ⟨y, messages, heq, hquit, htarget, hmessages⟩ :=
    queueEvent_tells hs.sound.target hs.quit hs.flag hevent
  rw [heq] at hsound ⊢
  have hann := outbox_resume s y messages
  simp only [Daemon.announcement, Prod.mk.injEq] at hann
  obtain ⟨hyellow, -, hco, hfreed, hcpg⟩ := hann
  refine ⟨⟨by rw [hco]; exact hsound, by rw [hco]; exact hquit, hfreed.trans hs.freed, ?_⟩,
    messages, ?_, ?_⟩
  · rw [hyellow, hco, htarget]
    exact hs.flag
  · rw [hcpg, outbox_sends]
  · rcases hmessages with ⟨rfl, hpc⟩ | ⟨rfl, hpc⟩
    · apply Tells.nothing (by simp)
      simp only [Daemon.announced, hyellow, hco, htarget, hpc]
    · apply Tells.status
      simp only [Daemon.announced, hyellow, hco, if_neg hpc]

/-- What an expired timer tells: the target, or nothing when the flag follows. -/
theorem timer_tells (hs : s.Debounces) (htimers : s.yellowCo.timers ≠ 0) :
    let t := s.resumeYellow true (ColoDaemon.yellowCo s.yellowCo)
    t.Debounces ∧ ∃ messages, t.cpg.outbox = s.cpg.outbox ++ messages ∧
      Tells s t .yellowTimer messages := by
  have hsound := YellowCoroutine.sound_timer hs.sound htimers
  have htarget := hs.sound.target
  have hquit := hs.quit
  have hflag := hs.flag
  rw [hs.sound.timers] at htimers
  rcases hy : s.yellowCo with ⟨target, pc, timers, quit, aborted⟩
  simp only [hy] at hsound htarget hquit hflag htimers
  subst hquit
  cases pc with
  | idle => simp at htimers
  | timer1 =>
    have heq : ColoDaemon.yellowCo ⟨target, .timer1, timers, false, aborted⟩ =
        (⟨target, .timer2, timers - 1 + 1, false, aborted⟩,
          [announcement (decide (target = .yellow))].map .send) := by
      simp only [ColoDaemon.yellowCo, yellowCoResume, yellowSendTargetMessage, announcement]
      rcases htarget with rfl | rfl <;> rfl
    rw [heq] at hsound ⊢
    have hann := outbox_resume s ⟨target, .timer2, timers - 1 + 1, false, aborted⟩
      [announcement (decide (target = .yellow))]
    simp only [Daemon.announcement, Prod.mk.injEq] at hann
    obtain ⟨hyellow, -, hco, hfreed, hcpg⟩ := hann
    refine ⟨⟨by rw [hco]; exact hsound, by rw [hco], hfreed.trans hs.freed, ?_⟩,
      [announcement (decide (target = .yellow))], ?_, .status ?_⟩
    · rw [hyellow, hco, hflag]
    · rw [hcpg, outbox_sends]
    · simp only [Daemon.announced, hco, if_true]
  | timer2 =>
    rcases htarget with rfl | rfl
    · refine ⟨⟨hsound, rfl, hs.freed, rfl⟩, [], (List.append_nil _).symm, .nothing (by simp) ?_⟩
      simp only [Daemon.announced, hy]
      rfl
    · refine ⟨⟨hsound, rfl, hs.freed, rfl⟩, [], (List.append_nil _).symm, .nothing (by simp) ?_⟩
      simp only [Daemon.announced, hy]
      rfl

/-- What one step of a node tells a listener. -/
theorem tells_step {label : Label} (hstep : step s label = some t)
    (hl : label.excluded = false) (hs : s.Debounces) :
    t.Debounces ∧ ∃ messages, t.cpg.outbox = s.cpg.outbox ++ messages ∧
      Tells s t label messages := by
  simp only [Label.excluded, Bool.or_eq_false_iff, decide_eq_false_iff_not] at hl
  obtain ⟨⟨hdisk, hpeer⟩, hteardown⟩ := hl
  have hsame : ∀ {u : Daemon} {messages : List ColodMessage}, t.announcement = u.announcement →
      u.yellow = s.yellow → u.yellowCo = s.yellowCo → u.freed = s.freed →
      u.cpg.outbox = s.cpg.outbox ++ messages →
      (t.announced = s.announced → Tells s t label messages) →
      t.Debounces ∧ ∃ messages, t.cpg.outbox = s.cpg.outbox ++ messages ∧
        Tells s t label messages := by
    intro u messages h hyellow hco hfreed hcpg htells
    simp only [Daemon.announcement, Prod.mk.injEq] at h
    obtain ⟨hy, -, hc, hf, hcpg'⟩ := h
    obtain ⟨hdebounces, hannounced⟩ := Debounces.of_eq hs (hy.trans hyellow) (hc.trans hco)
      (hf.trans hfreed)
    exact ⟨hdebounces, messages, by rw [hcpg', hcpg], htells hannounced⟩
  cases announces_step hstep with
  | quiet _ _ h =>
    exact hsame h rfl rfl rfl (List.append_nil _).symm fun ha => .nothing (by simp) ha
  | sent _ message _ hmessage h =>
    refine hsame h rfl rfl rfl rfl fun ha => .nothing ?_ ha
    rcases hmessage with rfl | rfl | rfl <;> simp [ColodMessage.isYellow]
  | delivered message own h =>
    rw [if_neg (by simp [hs.freed])] at h
    have hout := outbox_deliver s.cpg message own
    cases message with
    | hello =>
      simp only [colodCpgEventCb, Bool.false_eq_true, if_false] at h
      by_cases hyellow : s.yellow = true
      · rw [if_pos hyellow] at h
        refine hsame (congrArg _ h) rfl rfl rfl ?_ fun ha => .answer own rfl hyellow rfl ha
        exact congrArg (· ++ [ColodMessage.yellow]) hout
      · rw [if_neg hyellow] at h
        exact hsame (congrArg _ h) rfl rfl rfl (hout.trans (List.append_nil _).symm)
          fun ha => .nothing (by simp) ha
    | none | failover | failed | yellow | unyellow =>
      cases own <;> exact hsame (congrArg _ h) rfl rfl rfl (hout.trans (List.append_nil _).symm)
        fun ha => .nothing (by simp) ha
  | repeated _ cpg hlabel hcpg h =>
    have hout : cpg.outbox = s.cpg.outbox ++ s.cpg.pending := by
      rcases hcpg with rfl | rfl
      · exact (colodCpgRetransmit_eq s.cpg).2
      · exact (colodCpgRetransmitCb_eq s.cpg).2
    exact hsame h rfl rfl rfl hout fun ha => .again hlabel rfl ha
  | link ifname up h => exact h ▸ link_tells hs ifname up
  | timer htimers h => exact h ▸ timer_tells hs htimers
  | diskError _ herror =>
    obtain ⟨-, event, hevent, herror⟩ := herror
    rw [hevent] at hdisk
    simp [herror] at hdisk
  | teardown => exact absurd rfl hteardown
  | setPeer => cases hpeer

/-! ### The joining node -/

/-- A step of `b` is one that hears nothing of `a`. -/
inductive JoinLabel
  | act (label : Label)
  | other (label : Label)
  | join
  | hello
  | deliver
  deriving DecidableEq, Repr

/-- The node `a`, the node `b` and the multicasts of `a` in flight to it. `joined` says that `b` is
in the group, and `greeted` that its `MESSAGE_HELLO` was delivered to `a`. -/
structure Join where
  a : Daemon
  b : Daemon
  joined : Bool
  greeted : Bool
  inbox : List ColodMessage

namespace Join
variable {j k : Join}

def init (ctx ctx' : ColodContext) : Join := ⟨.init ctx, .init ctx', false, false, []⟩

/-- What `a` has sent in a step to `a'` is in flight to a node that has joined. -/
def moveTo (this : Join) (a' : Daemon) : Join :=
  { this with
    a := a'
    inbox := if this.joined then this.inbox ++ sentSince this.a a' else this.inbox }

def step (this : Join) : JoinLabel → Option Join
  | .act label =>
    if label.excluded ∨ label = .cpgDeliver .hello false then none
    else (ColoDaemon.step this.a label).map this.moveTo
  | .other label =>
    if !this.joined ∨ label.excluded ∨ label.heard.isSome then none
    else (ColoDaemon.step this.b label).map fun b => { this with b }
  | .join => if this.joined then none else some { this with joined := true }
  | .hello =>
    if .hello ∈ this.b.cpg.outbox then
      (ColoDaemon.step this.a (.cpgDeliver .hello false)).map fun a' =>
        { this.moveTo a' with greeted := true }
    else none
  | .deliver =>
    match this.inbox with
    | [] => none
    | message :: inbox =>
      (ColoDaemon.step this.b (.cpgDeliver message false)).map fun b => { this with b, inbox }

/-- What `b` will make of the messages in flight. -/
def believes (this : Join) : Bool := this.inbox.foldl hears this.b.peerYellow

/-- The property: with nothing in flight and no timer pending, `b` knows the status of `a`. -/
def Informed (this : Join) : Prop :=
  this.greeted = true → this.inbox = [] → this.a.yellowCo.timers = 0 →
    this.b.peerYellow = this.a.yellow

/-- The condition on a step: a `MESSAGE_HELLO` is not delivered in the second timer, except while a
link failure is announced to which `b` has listened; and a retransmission does not end with a
yellow message that was superseded. -/
def Timely (this : Join) : JoinLabel → Prop
  | .hello => this.a.yellowCo.pc = .timer2 →
    this.a.yellowCo.targetEvent = .yellow ∧ this.believes = true
  | .act label =>
    (label = .cpgDeliver .hello true → this.joined = true → this.a.yellowCo.pc = .timer2 →
      this.a.yellowCo.targetEvent = .yellow) ∧
    (label.retransmits = true → this.joined = true → lastYellow this.a.cpg.pending = none ∨
      lastYellow this.a.cpg.pending = some (announcement this.a.announced))
  | _ => True

instance (this : Join) : (l : JoinLabel) → Decidable (this.Timely l)
  | .hello => inferInstanceAs (Decidable (_ → _ ∧ _))
  | .act _ => inferInstanceAs (Decidable ((_ → _ → _ → _) ∧ (_ → _ → _ ∨ _)))
  | .other _ | .join | .deliver => isTrue trivial

structure Sure (this : Join) : Prop where
  debounces : this.a.Debounces
  freed : this.b.freed = false
  absent : this.joined = false →
    this.inbox = [] ∧ this.b.peerYellow = false ∧ this.b.cpg.outbox = [] ∧ this.greeted = false
  before : this.believes = true → this.a.announced = true
  after : this.greeted = true → this.believes = this.a.announced

/-! ### What the messages make a listener believe -/

theorem foldl_hears (peerYellow : Bool) (messages : List ColodMessage) :
    messages.foldl hears peerYellow =
      match lastYellow messages with
      | some message => decide (message = .yellow)
      | none => peerYellow := by
  induction messages using List.reverseRecOn with
  | nil => rfl
  | append_singleton messages message ih =>
    rw [List.foldl_append, ih, Group.lastYellow_send]
    cases message <;> rfl

theorem foldl_hears_announcement (peerYellow yellow : Bool) :
    [announcement yellow].foldl hears peerYellow = yellow := by
  cases yellow <;> rfl

theorem foldl_hears_quiet {messages : List ColodMessage} (peerYellow : Bool)
    (h : ∀ message ∈ messages, message.isYellow = false) :
    messages.foldl hears peerYellow = peerYellow := by
  rw [foldl_hears, lastYellow_eq_none.mpr h]

theorem believes_moveTo {a' : Daemon} {messages : List ColodMessage} (hjoined : j.joined = true)
    (hout : a'.cpg.outbox = j.a.cpg.outbox ++ messages) :
    (j.moveTo a').believes = messages.foldl hears j.believes := by
  unfold moveTo believes
  simp only [hjoined, if_true, sentSince_eq hout, List.foldl_append]

theorem believes_absent (a' : Daemon) (hj : j.Sure) (hjoined : j.joined = false) :
    (j.moveTo a').believes = false ∧ (j.moveTo a').inbox = [] := by
  obtain ⟨hinbox, hpeer, -, -⟩ := hj.absent hjoined
  simp [moveTo, believes, hjoined, hinbox, hpeer]

/-- A yellow node that answers outside the second timer has announced it. -/
theorem announced_of_yellow (hs : s.Debounces) (hyellow : s.yellow = true)
    (h : s.yellowCo.pc = .timer2 → s.yellowCo.targetEvent = .yellow) : s.announced = true := by
  have hflag := hs.flag
  rw [hyellow] at hflag
  have htarget : s.yellowCo.targetEvent = .unyellow := by simpa using hflag.symm
  unfold Daemon.announced
  rw [if_neg, hyellow]
  intro hpc
  rw [h hpc] at htarget
  cases htarget

theorem sure_act {label : Label} {a' : Daemon} (hstep : ColoDaemon.step j.a label = some a')
    (hexcluded : label.excluded = false) (hhello : label ≠ .cpgDeliver .hello false)
    (hl : j.Timely (.act label)) (hj : j.Sure) : (j.moveTo a').Sure := by
  obtain ⟨hdebounces, messages, hout, htells⟩ := tells_step hstep hexcluded hj.debounces
  cases hjoined : j.joined with
  | false =>
    obtain ⟨hbelieves, hinbox⟩ := believes_absent a' hj hjoined
    obtain ⟨-, hpeer, hb, hgreeted⟩ := hj.absent hjoined
    refine ⟨hdebounces, hj.freed, fun _ => ⟨hinbox, hpeer, hb, hgreeted⟩, ?_, ?_⟩
    · simp [hbelieves]
    · simp [moveTo, hgreeted]
  | true =>
    have hbelieves := believes_moveTo hjoined hout
    have hsame : (j.moveTo a').believes = j.believes → a'.announced = j.a.announced →
        (j.moveTo a').Sure := by
      intro hb ha
      refine ⟨hdebounces, hj.freed, by simp [moveTo, hjoined], ?_, ?_⟩
      · intro h
        exact ha.trans (hj.before (hb.symm.trans h))
      · intro h
        exact hb.trans ((hj.after h).trans ha.symm)
    have hknown : (j.moveTo a').believes = a'.announced → (j.moveTo a').Sure := by
      intro hb
      exact ⟨hdebounces, hj.freed, by simp [moveTo, hjoined], fun h => hb.symm.trans h,
        fun _ => hb⟩
    cases htells with
    | nothing hmessages h => exact hsame (hbelieves.trans (foldl_hears_quiet _ hmessages)) h
    | status h =>
      apply hknown
      rw [hbelieves, h, foldl_hears_announcement]
    | answer own hlabel hyellow hmessages h =>
      cases own with
      | false => exact absurd hlabel hhello
      | true =>
        apply hknown
        rw [hbelieves, hmessages, h]
        exact (announced_of_yellow hj.debounces hyellow (hl.1 hlabel hjoined)).symm
    | again hlabel hmessages h =>
      rw [hmessages, foldl_hears] at hbelieves
      rcases hl.2 hlabel hjoined with hlast | hlast
      · rw [hlast] at hbelieves
        exact hsame hbelieves h
      · apply hknown
        rw [hbelieves, hlast, h]
        cases j.a.announced <;> rfl

/-- The delivery of a `MESSAGE_HELLO` of the peer. -/
theorem hello_step (hstep : ColoDaemon.step s (.cpgDeliver .hello false) = some t)
    (hs : s.Debounces) : t.Debounces ∧ t.announced = s.announced ∧
      t.cpg.outbox = s.cpg.outbox ++ if s.yellow then [.yellow] else [] := by
  have hsame : ∀ {u : Daemon}, t = u → u.yellow = s.yellow → u.yellowCo = s.yellowCo →
      u.freed = s.freed → t.Debounces ∧ t.announced = s.announced := by
    rintro u rfl hyellow hco hfreed
    exact Debounces.of_eq hs hyellow hco hfreed
  cases announces_step hstep with
  | quiet _ hheard | sent _ _ hheard => cases hheard
  | repeated _ _ hlabel => cases hlabel
  | diskError _ herror =>
    obtain ⟨-, event, hevent, -⟩ := herror
    cases hevent
  | delivered _ _ h =>
    rw [if_neg (by simp [hs.freed])] at h
    simp only [colodCpgEventCb, Bool.false_eq_true, if_false] at h
    by_cases hyellow : s.yellow = true
    · rw [if_pos hyellow] at h
      obtain ⟨hd, ha⟩ := hsame h rfl rfl rfl
      exact ⟨hd, ha, by rw [h, if_pos hyellow]; rfl⟩
    · rw [if_neg hyellow] at h
      obtain ⟨hd, ha⟩ := hsame h rfl rfl rfl
      exact ⟨hd, ha, by rw [h, if_neg hyellow]; exact (List.append_nil _).symm⟩

theorem sure_hello {a' : Daemon} (hsent : .hello ∈ j.b.cpg.outbox)
    (hstep : ColoDaemon.step j.a (.cpgDeliver .hello false) = some a')
    (hl : j.Timely .hello) (hj : j.Sure) : Sure { j.moveTo a' with greeted := true } := by
  have hjoined : j.joined = true := by
    by_contra h
    obtain ⟨-, -, hb, -⟩ := hj.absent (by simpa using h)
    rw [hb] at hsent
    cases hsent
  obtain ⟨hdebounces, hannounced, hout⟩ := hello_step hstep hj.debounces
  have hbelieves := believes_moveTo hjoined hout
  have hknown : (j.moveTo a').believes = a'.announced := by
    rw [hbelieves, hannounced]
    by_cases hyellow : j.a.yellow = true
    · rw [if_pos hyellow]
      exact (announced_of_yellow hj.debounces hyellow fun hpc => (hl hpc).1).symm
    · rw [if_neg hyellow]
      by_cases hpc : j.a.yellowCo.pc = .timer2
      · obtain ⟨-, hb⟩ := hl hpc
        exact hb.trans (hj.before hb).symm
      · have hnot : j.a.announced = false := by
          rw [Daemon.announced, if_neg hpc]
          simpa using hyellow
        rw [hnot]
        by_contra hb
        have hyes := hj.before (by simpa using hb)
        rw [hnot] at hyes
        cases hyes
  exact ⟨hdebounces, hj.freed, by simp [moveTo, hjoined], fun h => hknown.symm.trans h,
    fun _ => hknown⟩

theorem freed_other {label : Label} (hstep : ColoDaemon.step s label = some t)
    (hl : label.excluded = false) : t.freed = s.freed := by
  have hresume : ∀ notified r, (s.resumeYellow notified r).freed = s.freed :=
    fun notified r => congrArg (·.2.1) (unmoved_resumeYellow notified s r)
  simp only [Label.excluded, Bool.or_eq_false_iff, decide_eq_false_iff_not] at hl
  cases announces_step hstep with
  | quiet _ _ h => exact congrArg (·.2.2.2.1) h
  | sent _ _ _ _ h => exact congrArg (·.2.2.2.1) h
  | repeated _ _ _ _ h => exact congrArg (·.2.2.2.1) h
  | setPeer _ _ h => exact congrArg (·.2.2.2.1) h
  | delivered message own h =>
    rw [h]
    split_ifs
    · rfl
    · exact congrArg (·.2.1) (unmoved_cpgEventCb _ message own)
  | link _ _ h => exact h ▸ hresume _ _
  | timer _ h => exact h ▸ hresume _ _
  | diskError _ herror =>
    obtain ⟨-, event, hevent, herror⟩ := herror
    rw [hevent] at hl
    simp [herror] at hl
  | teardown => exact absurd rfl hl.2

theorem sure_step {l : JoinLabel} (hstep : step j l = some k) (hl : j.Timely l) (hj : j.Sure) :
    k.Sure := by
  cases l with
  | act label =>
    simp only [step] at hstep
    split_ifs at hstep with hcond
    rw [not_or] at hcond
    obtain ⟨a', ha, rfl⟩ := Option.map_eq_some_iff.mp hstep
    exact sure_act ha (by simpa using hcond.1) hcond.2 hl hj
  | other label =>
    simp only [step] at hstep
    split_ifs at hstep with hcond
    simp only [not_or, Bool.not_eq_true', Bool.not_eq_false, Bool.not_eq_true,
      Option.isSome_eq_false_iff, Option.isNone_iff_eq_none] at hcond
    obtain ⟨b, hb, rfl⟩ := Option.map_eq_some_iff.mp hstep
    obtain ⟨hjoined, hexcluded, hheard⟩ := hcond
    have hfreed := (freed_other hb hexcluded).trans hj.freed
    have hsets : label.setsPeer = false := by
      simp only [Label.excluded, Bool.or_eq_false_iff] at hexcluded
      exact hexcluded.1.2
    have hpeer := (heard_step hb hsets hfreed).2
    rw [hheard] at hpeer
    have hbelieves : believes { j with b } = j.believes := by
      simp only [believes, hpeer]
      rfl
    refine ⟨hj.debounces, hfreed, by simp [hjoined], ?_, ?_⟩
    · intro h
      exact hj.before (hbelieves.symm.trans h)
    · intro h
      exact hbelieves.trans (hj.after h)
  | join =>
    simp only [step] at hstep
    split_ifs at hstep with hjoined
    cases hstep
    obtain ⟨hinbox, hpeer, hb, hgreeted⟩ := hj.absent (by simpa using hjoined)
    exact ⟨hj.debounces, hj.freed, by simp, hj.before, hj.after⟩
  | hello =>
    simp only [step] at hstep
    split_ifs at hstep with hsent
    obtain ⟨a', ha, rfl⟩ := Option.map_eq_some_iff.mp hstep
    exact sure_hello hsent ha hl hj
  | deliver =>
    simp only [step] at hstep
    split at hstep
    · cases hstep
    · rename_i message inbox hinbox
      obtain ⟨b, hb, rfl⟩ := Option.map_eq_some_iff.mp hstep
      have hjoined : j.joined = true := by
        by_contra h
        obtain ⟨hnil, -⟩ := hj.absent (by simpa using h)
        rw [hinbox] at hnil
        cases hnil
      have hfreed := (freed_other hb rfl).trans hj.freed
      have hpeer := (heard_step hb rfl hfreed).2
      have hbelieves : believes { j with b, inbox } = j.believes := by
        simp only [believes, hpeer, hinbox]
        rfl
      refine ⟨hj.debounces, hfreed, by simp [hjoined], ?_, ?_⟩
      · intro h
        exact hj.before (hbelieves.symm.trans h)
      · intro h
        exact hbelieves.trans (hj.after h)

theorem Sure.informed (hj : j.Sure) : j.Informed := by
  intro hgreeted hinbox htimers
  have hknown := hj.after hgreeted
  have hidle : j.a.yellowCo.pc = .idle := by
    have hsound := hj.debounces.sound.timers
    rw [htimers] at hsound
    by_contra hpc
    rw [if_neg (by simp [hj.debounces.quit, hpc])] at hsound
    cases hsound
  rw [believes, hinbox, Daemon.announced, hidle] at hknown
  exact hknown

/-! ### The claim -/

theorem joining_node_informed (ctx ctx' : ColodContext) (labels : List JoinLabel) (j : Join)
    (hrun : run step (init ctx ctx') labels = some j)
    (halong : Along step Timely (init ctx ctx') labels) : j.Informed := by
  have hsure : j.Sure := by
    refine run_invariant_along (fun _ _ _ hstep hl hu => sure_step hstep hl hu) hrun halong ?_
    refine ⟨⟨⟨rfl, .inl rfl⟩, rfl, rfl, rfl⟩, rfl, fun _ => ⟨rfl, rfl, rfl, rfl⟩, ?_, ?_⟩
    · intro h
      cases h
    · intro h
      cases h
  exact hsure.informed

/-- `b` starts and its `MESSAGE_HELLO` is delivered. -/
def greeting : List JoinLabel :=
  [.other (.dispatch .start), .other .run, .other .run, .other (.io (.suspend .channel)), .hello]

/-- The link of `a` fails and the failure is announced. -/
def announcing : List JoinLabel := [.act (.link "eth0" false), .act .yellowTimer]

/-- `b` has joined before the announcement. -/
theorem joining_node_informed_early :
    ∃ j, run step (init Schedule.context Schedule.context)
        ([.join] ++ announcing ++ greeting ++ [.deliver, .act .yellowTimer]) = some j ∧
      j.greeted = true ∧ j.a.yellow = true ∧ j.Informed := by
  have hcheck : (run step (init Schedule.context Schedule.context)
      ([.join] ++ announcing ++ greeting ++ [.deliver, .act .yellowTimer])).map
        (fun j => (j.greeted, j.a.yellow)) = some (true, true) := by decide
  obtain ⟨j, hrun, hj⟩ := Option.map_eq_some_iff.mp hcheck
  have halong : Along step Timely (init Schedule.context Schedule.context)
      ([.join] ++ announcing ++ greeting ++ [.deliver, .act .yellowTimer]) := by decide
  simp only [Prod.mk.injEq] at hj
  exact ⟨j, hrun, hj.1, hj.2, joining_node_informed _ _ _ j hrun halong⟩

/-- `b` joins after the announcement, and its `MESSAGE_HELLO` comes before the flag is set. -/
theorem joining_node_uninformed :
    ¬ ∀ (ctx ctx' : ColodContext) (labels : List JoinLabel) (j : Join),
      run step (init ctx ctx') labels = some j → j.Informed := by
  intro hclaim
  have hcheck : (run step (init Schedule.context Schedule.context)
      (announcing ++ [.join] ++ greeting ++ [.act .yellowTimer])).map
        (fun j => (j.greeted, j.inbox, j.a.yellowCo.timers, j.b.peerYellow, j.a.yellow)) =
          some (true, [], 0, false, true) := by decide
  obtain ⟨j, hrun, hj⟩ := Option.map_eq_some_iff.mp hcheck
  simp only [Prod.mk.injEq] at hj
  obtain ⟨hgreeted, hinbox, htimers, hpeer, hyellow⟩ := hj
  have hinformed := hclaim _ _ _ j hrun hgreeted hinbox htimers
  rw [hpeer, hyellow] at hinformed
  cases hinformed

end Join
end ColoDaemon
