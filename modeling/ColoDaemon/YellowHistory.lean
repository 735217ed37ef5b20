import ColoDaemon.YellowFrames

/-!
# What the link debouncer has reported

The log of a run of the two frames records the link events, the expired timers, the messages and
the notifications in order. `Stage` says for each stage what the log looks like, and `History` what
holds of the log in every stage: both status sequences alternate, and each notification follows
two timers during which the link kept its status.
-/

namespace ColoDaemon

/-- The elements are by turns `a` and `b`, starting with `a`. -/
def Alternates {α : Type} (a b : α) (l : List α) : Prop :=
  ∀ n x, l[n]? = some x → x = if n % 2 = 0 then a else b

/-- The element whose turn it is. -/
def turn {α : Type} (a b : α) (l : List α) : α := if l.length % 2 = 0 then a else b

section Alternates
variable {α : Type} {a b x : α} {l : List α}

theorem Alternates.snoc (h : Alternates a b l) (hx : x = turn a b l) :
    Alternates a b (l ++ [x]) := by
  intro n y hy
  rcases Nat.lt_trichotomy n l.length with hlt | rfl | hlt
  · rw [List.getElem?_append_left hlt] at hy
    exact h n y hy
  · have hxy : x = y := by simpa using hy
    exact hxy.symm.trans hx
  · rw [List.getElem?_eq_none (by simp; omega)] at hy
    cases hy

theorem turn_snoc : turn a b (l ++ [x]) = turn b a l := by
  unfold turn
  simp only [List.length_append, List.length_singleton]
  split_ifs <;> first | rfl | omega

/-- The last element is the one whose turn it is not; before the first one it is `b`. -/
theorem Alternates.getLast (h : Alternates a b l) : l.getLast?.getD b = turn b a l := by
  unfold turn
  cases hlast : l.getLast? with
  | none =>
    have hnil : l = [] := List.getLast?_eq_none_iff.mp hlast
    simp [hnil]
  | some x =>
    rw [List.getLast?_eq_getElem?] at hlast
    have hpos : 0 < l.length := by
      by_contra hzero
      rw [List.getElem?_eq_none (by omega)] at hlast
      cases hlast
    have hx := h _ x hlast
    simp only [Option.getD_some, hx]
    split_ifs <;> first | rfl | omega

end Alternates

namespace YellowEntry

def reported? : YellowEntry → Option ColodEvent
  | .reported event => some event
  | _ => none

def sent? : YellowEntry → Option ColodMessage
  | .sent message => some message
  | _ => none

def notified? : YellowEntry → Option ColodEvent
  | .notified event => some event
  | _ => none

end YellowEntry

/-- The message that tells the group this status. -/
def statusMessage (event : ColodEvent) : ColodMessage :=
  if event = .yellow then .yellow else .unyellow

def otherStatus (event : ColodEvent) : ColodEvent := if event = .yellow then .unyellow else .yellow

/-- The link was reported to have this status, and then both timers expired without the opposite
report. -/
def Confirmed (event : ColodEvent) (log : List YellowEntry) : Prop :=
  ∃ before during1 during2,
    log = before ++ .reported event :: (during1 ++ .expired .timeout1 ::
      .sent (statusMessage event) :: (during2 ++ [.expired .timeout2])) ∧
    ∀ entry ∈ during1 ++ during2, entry = .reported event

namespace YellowCoroutine
variable {y y' : YellowCoroutine} {log entries : List YellowEntry}

/-- What led to the stage the debouncer is in. -/
def Trail (y : YellowCoroutine) (log : List YellowEntry) : Prop :=
  match y.pc with
  | .idle => True
  | .timer1 => ∃ before during1, log = before ++ .reported y.targetEvent :: during1 ∧
      ∀ entry ∈ during1, entry = .reported y.targetEvent
  | .timer2 => ∃ before during1 during2,
      log = before ++ .reported y.targetEvent :: (during1 ++ .expired .timeout1 ::
        .sent (statusMessage y.targetEvent) :: during2) ∧
      ∀ entry ∈ during1 ++ during2, entry = .reported y.targetEvent

/-- What the log says while the coroutine runs. -/
structure Stage (y : YellowCoroutine) (log : List YellowEntry) : Prop where
  target : y.targetEvent = turn .yellow .unyellow (log.filterMap YellowEntry.notified?)
  message : turn .yellow .unyellow (log.filterMap YellowEntry.sent?) =
    statusMessage (if y.pc = .timer2 then otherStatus y.targetEvent else y.targetEvent)
  reported : (log.filterMap YellowEntry.reported?).getLast?.getD .unyellow =
    if y.pc = .idle then otherStatus y.targetEvent else y.targetEvent
  trail : y.Trail log
  running : .quit ∉ log

structure History (y : YellowCoroutine) (log : List YellowEntry) : Prop where
  notifications : Alternates .yellow .unyellow (log.filterMap YellowEntry.notified?)
  messages : Alternates .yellow .unyellow (log.filterMap YellowEntry.sent?)
  confirmed : ∀ before event after, log = before ++ .notified event :: after →
    Confirmed event before
  stage : y.quit = false → y.Stage log
  ended : y.quit = true → .quit ∈ log

theorem turn_cases {α : Type} (a b : α) (l : List α) : turn a b l = a ∨ turn a b l = b := by
  unfold turn
  split_ifs
  · exact .inl rfl
  · exact .inr rfl

theorem Stage.status (h : Stage y log) :
    y.targetEvent = .yellow ∨ y.targetEvent = .unyellow := by
  rw [h.target]
  exact turn_cases _ _ _

theorem other_of_ne {event target : ColodEvent} (hevent : event = .yellow ∨ event = .unyellow)
    (htarget : target = .yellow ∨ target = .unyellow) (hne : event ≠ target) :
    event = otherStatus target := by
  rcases hevent with rfl | rfl <;> rcases htarget with rfl | rfl <;> simp [otherStatus] at *

theorem other_other {target : ColodEvent} (h : target = .yellow ∨ target = .unyellow) :
    otherStatus (otherStatus target) = target := by
  rcases h with rfl | rfl <;> rfl

/-- Notifications are confirmed as long as the next one is. -/
theorem confirmed_snoc {x : YellowEntry}
    (h : ∀ before event after, log = before ++ .notified event :: after → Confirmed event before)
    (hx : ∀ event, x = .notified event → Confirmed event log) (before : List YellowEntry)
    (event : ColodEvent) (after : List YellowEntry)
    (hsplit : log ++ [x] = before ++ .notified event :: after) : Confirmed event before := by
  rcases List.eq_nil_or_concat after with rfl | ⟨init, z, rfl⟩
  · obtain ⟨rfl, hlast⟩ := List.append_inj' hsplit rfl
    exact hx event (by simpa using hlast)
  · have hcons : log ++ [x] = (before ++ .notified event :: init) ++ [z] := by
      simpa using hsplit
    exact h before event init (List.append_inj' hcons rfl).1

/-- The opposite status of the last message, by the turn. -/
theorem revert_message {target : ColodEvent} (h : target = .yellow ∨ target = .unyellow) :
    (yellowSendRevertMessage target).entry = .sent (statusMessage (otherStatus target)) := by
  rcases h with rfl | rfl <;> rfl

theorem target_message (target : ColodEvent) :
    (yellowSendTargetMessage target).entry = .sent (statusMessage target) := by
  unfold yellowSendTargetMessage statusMessage
  split_ifs <;> rfl

theorem turn_swap {target : ColodEvent} {l : List ColodMessage}
    (h : turn .yellow .unyellow l = statusMessage target)
    (htarget : target = .yellow ∨ target = .unyellow) :
    turn .unyellow .yellow l = statusMessage (otherStatus target) := by
  unfold turn at *
  rcases htarget with rfl | rfl <;> split_ifs at * <;> simp_all [statusMessage, otherStatus]

/-- A report that leaves no message behind. -/
theorem History.reported {event : ColodEvent} (h : History y log) (hquit : y'.quit = false)
    (hstage : y'.Stage (log ++ [.reported event])) :
    History y' (log ++ [.reported event]) where
  notifications := by
    simpa [List.filterMap_cons, YellowEntry.notified?] using h.notifications
  messages := by
    simpa [List.filterMap_cons, YellowEntry.sent?] using h.messages
  confirmed := confirmed_snoc h.confirmed (by simp)
  stage _ := hstage
  ended hended := by
    rw [hquit] at hended
    cases hended

/-- What a report changes of a stage, apart from the trail. -/
theorem Stage.report {event : ColodEvent} (h : Stage y log) (pc : YellowPc) (timers : ℕ)
    (hpc : pc = .timer2 ↔ y.pc = .timer2)
    (hevent : event = if pc = .idle then otherStatus y.targetEvent else y.targetEvent)
    (htrail : Trail { y with pc, timers } (log ++ [.reported event])) :
    Stage { y with pc, timers } (log ++ [.reported event]) where
  target := by simpa [List.filterMap_cons, YellowEntry.notified?] using h.target
  message := by simpa [List.filterMap_cons, YellowEntry.sent?, hpc] using h.message
  reported := by simpa [List.filterMap_cons, YellowEntry.reported?] using hevent
  trail := htrail
  running := by simpa using h.running

/-- The report of the target starts or continues a stage, any other ends it. -/
theorem History.link {event : ColodEvent} (h : History y log) (hquit : y.quit = false)
    (hevent : event = .yellow ∨ event = .unyellow) :
    History (yellowQueueEvent y event).1
      (log ++ .reported event :: (yellowQueueEvent y event).2.map YellowAction.entry) := by
  have hs := h.stage hquit
  have hne : event ≠ .quit := by rcases hevent with rfl | rfl <;> simp
  have hqueue : yellowQueueEvent y event = yellowCoResume y (some event) := by
    simp [yellowQueueEvent, hquit]
  rw [hqueue]
  have htrail := hs.trail
  by_cases hsame : event = y.targetEvent
  · cases hpc : y.pc with
    | idle =>
      have hstarts : y.targetEvent ≠ .quit := hsame ▸ hne
      have hresume : yellowCoResume y (some event) =
          ({ y with pc := .timer1, timers := y.timers + 1 }, []) := by
        simp [yellowCoResume, hpc, yellowDelayTop, hstarts, hsame]
      rw [hresume]
      refine h.reported hquit (hs.report _ _ (by simp [hpc]) hsame ?_)
      exact ⟨log, [], by rw [hsame], by simp⟩
    | timer1 =>
      have hresume : yellowCoResume y (some event) = (y, []) := by
        simp [yellowCoResume, hpc, hsame]
      rw [hresume]
      simp only [Trail, hpc] at htrail
      obtain ⟨before, during1, hlog, hduring⟩ := htrail
      refine h.reported hquit (hs.report y.pc y.timers Iff.rfl
        (by simp [hpc, hsame]) ?_)
      simp only [Trail, hpc]
      refine ⟨before, during1 ++ [.reported event], by simp [hlog], ?_⟩
      intro entry hentry
      rcases List.mem_append.mp hentry with hold | hnew
      · exact hduring entry hold
      · rw [List.mem_singleton.mp hnew, hsame]
    | timer2 =>
      have hresume : yellowCoResume y (some event) = (y, []) := by
        simp [yellowCoResume, hpc, hsame]
      rw [hresume]
      simp only [Trail, hpc] at htrail
      obtain ⟨before, during1, during2, hlog, hduring⟩ := htrail
      refine h.reported hquit (hs.report y.pc y.timers Iff.rfl
        (by simp [hpc, hsame]) ?_)
      simp only [Trail, hpc]
      refine ⟨before, during1, during2 ++ [.reported event], by simp [hlog], ?_⟩
      intro entry hentry
      rw [← List.append_assoc] at hentry
      rcases List.mem_append.mp hentry with hold | hnew
      · exact hduring entry hold
      · rw [List.mem_singleton.mp hnew, hsame]
  · have hother := other_of_ne hevent hs.status hsame
    cases hpc : y.pc with
    | idle =>
      have hresume : yellowCoResume y (some event) = ({ y with pc := .idle }, []) := by
        simp [yellowCoResume, hpc, yellowDelayTop, hne, hsame]
      rw [hresume]
      exact h.reported hquit (hs.report .idle y.timers (by simp [hpc])
        hother trivial)
    | timer1 =>
      have hresume : yellowCoResume y (some event) =
          ({ y with pc := .idle, timers := y.timers - 1 }, []) := by
        simp [yellowCoResume, hpc, yellowDelayTop, hne, hsame]
      rw [hresume]
      exact h.reported hquit (hs.report _ _ (by simp [hpc]) hother trivial)
    | timer2 =>
      have hresume : yellowCoResume y (some event) =
          ({ y with pc := .idle, timers := y.timers - 1 },
            [yellowSendRevertMessage y.targetEvent]) := by
        simp [yellowCoResume, hpc, yellowDelayTop, hne, hsame]
      rw [hresume]
      have hturn : turn .yellow .unyellow (log.filterMap YellowEntry.sent?) =
          statusMessage (otherStatus y.targetEvent) := by
        simpa [hpc] using hs.message
      have hswap := turn_swap hturn (by rcases hs.status with h | h <;> simp [otherStatus, h])
      rw [other_other hs.status] at hswap
      simp only [List.map_cons, List.map_nil, revert_message hs.status]
      constructor
      · simpa [List.filterMap_cons, YellowEntry.notified?] using h.notifications
      · simpa [List.filterMap_cons, YellowEntry.sent?] using h.messages.snoc hturn.symm
      · rw [List.append_cons]
        exact confirmed_snoc (confirmed_snoc h.confirmed (by simp)) (by simp)
      · intro _
        constructor
        · simpa [List.filterMap_cons, YellowEntry.notified?] using hs.target
        · simpa [List.filterMap_cons, YellowEntry.sent?, turn_snoc] using hswap
        · simpa [List.filterMap_cons, YellowEntry.reported?] using hother
        · trivial
        · simpa using hs.running
      · intro hended
        rw [hquit] at hended
        cases hended

theorem yellowCo_eq (hquit : y.quit = false)
    (hpc : y.pc = .timer1 ∨ y.pc = .timer2) :
    yellowCo y = yellowCoResume { y with timers := y.timers - 1 } none := by
  unfold yellowCo
  rcases hpc with hpc | hpc <;> simp [yellowCoResume, hpc, hquit]

/-- The first timer is followed by the message, the second by the notification. -/
theorem History.expire {timeout : YellowTimeout} (h : History y log) (hquit : y.quit = false)
    (hat : y.pc = .timer1 ∧ timeout = .timeout1 ∨ y.pc = .timer2 ∧ timeout = .timeout2) :
    History (yellowCo y).1
      (log ++ .expired timeout :: (yellowCo y).2.map YellowAction.entry) := by
  have hs := h.stage hquit
  have htrail := hs.trail
  have hother : otherStatus y.targetEvent = .yellow ∨ otherStatus y.targetEvent = .unyellow := by
    rcases hs.status with h | h <;> simp [otherStatus, h]
  rcases hat with ⟨hpc, rfl⟩ | ⟨hpc, rfl⟩
  · rw [yellowCo_eq hquit (.inl hpc)]
    have hresume : yellowCoResume { y with timers := y.timers - 1 } none =
        ({ y with pc := .timer2, timers := y.timers - 1 + 1 },
          [yellowSendTargetMessage y.targetEvent]) := by
      simp [yellowCoResume, hpc]
    rw [hresume]
    have hturn : turn .yellow .unyellow (log.filterMap YellowEntry.sent?) =
        statusMessage y.targetEvent := by
      simpa [hpc] using hs.message
    have hswap := turn_swap hturn hs.status
    simp only [List.map_cons, List.map_nil, target_message]
    constructor
    · simpa [List.filterMap_cons, YellowEntry.notified?] using h.notifications
    · simpa [List.filterMap_cons, YellowEntry.sent?] using h.messages.snoc hturn.symm
    · rw [List.append_cons]
      exact confirmed_snoc (confirmed_snoc h.confirmed (by simp)) (by simp)
    · intro _
      constructor
      · simpa [List.filterMap_cons, YellowEntry.notified?] using hs.target
      · simpa [List.filterMap_cons, YellowEntry.sent?, turn_snoc] using hswap
      · simpa [List.filterMap_cons, YellowEntry.reported?, hpc] using hs.reported
      · simp only [Trail, hpc] at htrail
        obtain ⟨before, during1, hlog, hduring⟩ := htrail
        exact ⟨before, during1, [], by simp [hlog], by simpa using hduring⟩
      · simpa using hs.running
    · intro hended
      rw [hquit] at hended
      cases hended
  · rw [yellowCo_eq hquit (.inr hpc)]
    have hresume : yellowCoResume { y with timers := y.timers - 1 } none =
        ({ y with pc := .idle, timers := y.timers - 1, targetEvent := otherStatus y.targetEvent },
          [.notify y.targetEvent]) := by
      simp [yellowCoResume, hpc, otherStatus]
    rw [hresume]
    have hconfirmed : Confirmed y.targetEvent (log ++ [.expired .timeout2]) := by
      simp only [Trail, hpc] at htrail
      obtain ⟨before, during1, during2, hlog, hduring⟩ := htrail
      exact ⟨before, during1, during2, by simp [hlog], hduring⟩
    have hturn : turn .yellow .unyellow (log.filterMap YellowEntry.notified?) = y.targetEvent :=
      hs.target.symm
    simp only [List.map_cons, List.map_nil, YellowAction.entry]
    constructor
    · simpa [List.filterMap_cons, YellowEntry.notified?] using h.notifications.snoc hturn.symm
    · simpa [List.filterMap_cons, YellowEntry.sent?] using h.messages
    · rw [List.append_cons]
      refine confirmed_snoc (confirmed_snoc h.confirmed (by simp)) ?_
      rintro event hevent
      cases hevent
      exact hconfirmed
    · intro _
      constructor
      · simp only [List.filterMap_append, List.filterMap_cons, YellowEntry.notified?,
          List.filterMap_nil, turn_snoc]
        unfold turn at hturn ⊢
        rw [← hturn]
        split_ifs <;> rfl
      · simpa [List.filterMap_cons, YellowEntry.sent?, hpc] using hs.message
      · simpa [List.filterMap_cons, YellowEntry.reported?, hpc, other_other hs.status]
          using hs.reported
      · trivial
      · simpa using hs.running
    · intro hended
      rw [hquit] at hended
      cases hended

/-- The end of the coroutine takes the message back that has not been confirmed. -/
theorem History.quit (h : History y log) (hquit : y.quit = false) :
    History (yellowShutdown y).1
      (log ++ .quit :: (yellowShutdown y).2.map YellowAction.entry) := by
  have hs := h.stage hquit
  have hne : ColodEvent.quit ≠ y.targetEvent := by
    rcases hs.status with h | h <;> simp [h]
  have hshutdown : yellowShutdown y = yellowCoResume y (some .quit) := by
    simp [yellowShutdown, yellowQueueEvent, hquit]
  have hended : (yellowCoResume y (some .quit)).1.quit = true := by
    cases hpc : y.pc <;> simp [yellowCoResume, hpc, yellowDelayTop, hne]
  rw [hshutdown]
  by_cases hpc : y.pc = .timer2
  · have hsent : (yellowCoResume y (some .quit)).2 = [yellowSendRevertMessage y.targetEvent] := by
      simp [yellowCoResume, hpc, hne]
    have hturn : turn .yellow .unyellow (log.filterMap YellowEntry.sent?) =
        statusMessage (otherStatus y.targetEvent) := by
      simpa [hpc] using hs.message
    rw [hsent]
    simp only [List.map_cons, List.map_nil, revert_message hs.status]
    constructor
    · simpa [List.filterMap_cons, YellowEntry.notified?] using h.notifications
    · simpa [List.filterMap_cons, YellowEntry.sent?] using h.messages.snoc hturn.symm
    · rw [List.append_cons]
      exact confirmed_snoc (confirmed_snoc h.confirmed (by simp)) (by simp)
    · intro hrunning
      rw [hended] at hrunning
      cases hrunning
    · simp
  · have hsent : (yellowCoResume y (some .quit)).2 = [] := by
      cases hy : y.pc with
      | timer2 => exact absurd hy hpc
      | idle | timer1 => simp [yellowCoResume, hy, hne]
    rw [hsent]
    constructor
    · simpa [List.filterMap_cons, YellowEntry.notified?] using h.notifications
    · simpa [List.filterMap_cons, YellowEntry.sent?] using h.messages
    · exact confirmed_snoc h.confirmed (by simp)
    · intro hrunning
      rw [hended] at hrunning
      cases hrunning
    · simp

theorem History.advances (h : History y log) (hstep : YellowFrames.Advances y entries y') :
    History y' (log ++ entries) := by
  cases hstep with
  | stays => simpa using h
  | link event hevent hquit => exact h.link hquit hevent
  | expire timeout hquit hat => exact h.expire hquit hat
  | quit hquit => exact h.quit hquit

theorem history_new : History .new [] where
  notifications := nofun
  messages := nofun
  confirmed before event after h := by simp at h
  stage _ := ⟨rfl, rfl, rfl, trivial, by simp⟩
  ended h := by cases h

end YellowCoroutine

namespace YellowFrames
open Runs
variable {s t : YellowFrames} {monitorInterface : Option String}

/-- The last link event; the link is up at first. -/
def lastReported (this : YellowFrames) : ColodEvent :=
  (this.log.filterMap YellowEntry.reported?).getLast?.getD .unyellow

def lastNotified (this : YellowFrames) : ColodEvent :=
  (this.log.filterMap YellowEntry.notified?).getLast?.getD .unyellow

def lastSent (this : YellowFrames) : ColodMessage :=
  (this.log.filterMap YellowEntry.sent?).getLast?.getD .unyellow

structure Consistent (monitorInterface : Option String) (s : YellowFrames) : Prop where
  /-- No assertion has failed. -/
  asserts : s.aborted = false
  idle : s.delayLine.pc = .idle → s.sources = []
  waiting : s.delayLine.pc ≠ .idle → ∃ source, s.sources = [source]
  notifications : Alternates .yellow .unyellow (s.log.filterMap YellowEntry.notified?)
  messages : Alternates .yellow .unyellow (s.log.filterMap YellowEntry.sent?)
  confirmed : ∀ before event after, s.log = before ++ .notified event :: after →
    Confirmed event before
  agree : .quit ∉ s.log → s.sources = [] →
    s.lastNotified = s.lastReported ∧ s.lastSent = statusMessage s.lastReported
  ends : ∃ t, step monitorInterface s .shutdown = some t ∧ t.aborted = false ∧
    t.coroutineQuit = true ∧ t.quit = true ∧ t.sources = []

/-- In a reachable state the frames stand for a debouncer with a sound history. -/
theorem history_of_run {inputs : List Input}
    (hrun : run (step monitorInterface) new inputs = some s) :
    ∃ y, Simulates s y ∧ y.History s.log := by
  refine run_invariant (P := fun s => ∃ y, Simulates s y ∧ y.History s.log) ?_ hrun
    ⟨.new, simulates_new, YellowCoroutine.history_new⟩
  rintro u input v hstep ⟨y, hsimulates, hhistory⟩
  obtain ⟨entries, y', hadvances, hnext, hlog⟩ := step_simulates hsimulates hstep
  exact ⟨y', hnext, hlog ▸ hhistory.advances hadvances⟩

theorem agree_of_history {y : YellowCoroutine} (h : Simulates s y) (hhistory : y.History s.log)
    (hrunning : .quit ∉ s.log) (hsources : s.sources = []) :
    s.lastNotified = s.lastReported ∧ s.lastSent = statusMessage s.lastReported := by
  have hquit : y.quit = false := by
    by_contra hquit
    exact hrunning (hhistory.ended (by simpa using hquit))
  have hs := hhistory.stage hquit
  have hdelays := (h.running (h.quit ▸ hquit)).1
  have hpc : y.pc = .idle := by
    rw [hdelays.sources] at hsources
    cases hy : y.pc <;> simp [hy, YellowPc.pending] at hsources ⊢
  have hreported : s.lastReported = otherStatus y.targetEvent := by
    have hlast := hs.reported
    rw [if_pos hpc] at hlast
    exact hlast
  have hmessage : turn .yellow .unyellow (s.log.filterMap YellowEntry.sent?) =
      statusMessage y.targetEvent := by
    simpa [hpc] using hs.message
  have hnotified : s.lastNotified = otherStatus y.targetEvent := by
    unfold lastNotified
    rw [hhistory.notifications.getLast]
    have htarget := hs.target
    unfold turn at htarget ⊢
    rw [htarget]
    split_ifs <;> rfl
  have hsent : s.lastSent = statusMessage (otherStatus y.targetEvent) := by
    unfold lastSent
    rw [hhistory.messages.getLast]
    exact YellowCoroutine.turn_swap hmessage hs.status
  rw [hreported]
  exact ⟨hnotified, hsent⟩

theorem shutdown_ends {y : YellowCoroutine} (h : Simulates s y) :
    ∃ t, step monitorInterface s .shutdown = some t ∧ t.aborted = false ∧
      t.coroutineQuit = true ∧ t.quit = true ∧ t.sources = [] := by
  have hstep : step monitorInterface s .shutdown = some s.yellowShutdown := by
    unfold step
    rw [if_neg (by simp [h.aborted])]
  refine ⟨_, hstep, ?_⟩
  cases hquit : s.quit with
  | true =>
    have hsame : s.yellowShutdown = s := if_pos hquit
    rw [hsame]
    exact ⟨h.aborted, h.coroutineQuit.trans hquit, hquit, (h.ended hquit).2.2.1⟩
  | false =>
    obtain ⟨hnext, hended, -⟩ := shutdown_simulates h hquit
    exact ⟨hnext.aborted, hnext.coroutineQuit.trans hended, hended, (hnext.ended hended).2.2.1⟩

/-- After any sequence of link events, expired timers and shutdowns the debouncer is consistent. -/
theorem debouncer_consistent (monitorInterface : Option String) (inputs : List Input)
    (s : YellowFrames) (hrun : run (step monitorInterface) new inputs = some s) :
    Consistent monitorInterface s := by
  obtain ⟨y, h, hhistory⟩ := history_of_run hrun
  refine ⟨h.aborted, ?_, ?_, hhistory.notifications, hhistory.messages, hhistory.confirmed,
    agree_of_history h hhistory, shutdown_ends h⟩
  · intro hidle
    cases hquit : s.quit with
    | true => exact (h.ended hquit).2.2.1
    | false =>
      have hdelays := (h.running hquit).1
      rw [hdelays.sources, hdelays.pc, hidle]
      rfl
  · intro hwaiting
    cases hquit : s.quit with
    | true =>
      rw [(h.ended hquit).2.2.2.2] at hwaiting
      exact absurd rfl hwaiting
    | false =>
      have hdelays := (h.running hquit).1
      rw [← hdelays.pc] at hwaiting
      rw [hdelays.sources]
      cases hpc : y.pc with
      | idle => exact absurd hpc hwaiting
      | timer1 => exact ⟨_, rfl⟩
      | timer2 => exact ⟨_, rfl⟩

/-- The link goes down for good and comes up again while the message is already out. -/
def downAndUp : List Input :=
  [.link "eth0" false, .expire 1, .expire 2, .link "eth0" true, .expire 3, .link "eth0" false,
    .link "lo" true, .shutdown]

theorem debouncer_consistent_downAndUp :
    ∃ s, run (step (some "eth0")) new downAndUp = some s ∧ Consistent (some "eth0") s ∧
      s.log.filterMap YellowEntry.notified? = [.yellow] ∧
      s.log.filterMap YellowEntry.sent? = [.yellow, .unyellow, .yellow] := by
  have hrun : (run (step (some "eth0")) new downAndUp).map (fun s =>
      (s.log.filterMap YellowEntry.notified?, s.log.filterMap YellowEntry.sent?)) =
      some ([.yellow], [.yellow, .unyellow, .yellow]) := by decide
  obtain ⟨s, hs, hvalues⟩ := Option.map_eq_some_iff.mp hrun
  simp only [Prod.mk.injEq] at hvalues
  exact ⟨s, hs, debouncer_consistent _ _ s hs, hvalues⟩

/-- An `EVENT_QUIT` in a waiting stage ends it without a notification, so that the last link event
stands alone. -/
theorem quit_leaves_report : ¬ ∀ inputs s, run (step (some "eth0")) new inputs = some s →
    s.sources = [] →
      s.lastNotified = s.lastReported ∧ s.lastSent = statusMessage s.lastReported := by
  intro hclaim
  have hrun : (run (step (some "eth0")) new [.link "eth0" false, .shutdown]).map (fun s =>
      (s.sources, s.lastNotified, s.lastReported)) = some ([], .unyellow, .yellow) := by decide
  obtain ⟨s, hs, hvalues⟩ := Option.map_eq_some_iff.mp hrun
  simp only [Prod.mk.injEq] at hvalues
  obtain ⟨hsources, hnotified, hreported⟩ := hvalues
  have hagree := (hclaim _ s hs hsources).1
  rw [hnotified, hreported] at hagree
  cases hagree

end YellowFrames
end ColoDaemon
