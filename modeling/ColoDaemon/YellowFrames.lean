import ColoDaemon.Runs
import ColoDaemon.YellowCoroutine

/-!
# The two frames of the link debouncer

`YellowFrames` keeps what `YellowCoroutine` leaves out: the line at which each of the two frames is
resumed, the ids of the timer sources and the flags of the coroutine. `abs` forgets them, and
`YellowCoroutine` answers every resumption as the two frames do.
-/

namespace ColoDaemon
open Runs

/-- The lines at which `_yellow_co` is entered. -/
inductive YellowLine
  | start
  | delayYellow
  | notifiedYellow
  | delayUnyellow
  | notifiedUnyellow
  deriving DecidableEq, Repr

/-- The lines at which `_yellow_delay_co` is entered. -/
inductive DelayLine
  | start
  | otherEvent
  | timeout1
  | sameEvent1
  | timeout2
  | sameEvent2
  deriving DecidableEq, Repr

inductive YellowTimeout
  | timeout1
  | timeout2
  deriving DecidableEq, Repr

/-- What happened, in order. -/
inductive YellowEntry
  | reported (event : ColodEvent)
  | expired (timeout : YellowTimeout)
  | quit
  | sent (message : ColodMessage)
  | notified (event : ColodEvent)
  deriving DecidableEq, Repr

structure YellowFrames where
  line : YellowLine
  delayLine : DelayLine
  /-- `source_id` in the frame of `_yellow_delay_co`. -/
  sourceId : ℕ
  yield : Bool
  coroutineQuit : Bool
  quit : Bool
  /-- `yellow_netlink_event_cb` is to be called. -/
  notified : Bool
  /-- The timer sources attached to the main loop. -/
  sources : List (ℕ × YellowTimeout)
  nextId : ℕ
  aborted : Bool
  log : List YellowEntry
  deriving DecidableEq, Repr

namespace YellowFrames

def new : YellowFrames where
  line := .start
  delayLine := .start
  sourceId := 0
  yield := false
  coroutineQuit := false
  quit := false
  notified := true
  sources := []
  nextId := 1
  aborted := false
  log := []

def abort (this : YellowFrames) : YellowFrames := { this with aborted := true }

def record (this : YellowFrames) (entry : YellowEntry) : YellowFrames :=
  { this with log := this.log ++ [entry] }

def send (this : YellowFrames) (message : ColodMessage) : YellowFrames :=
  this.record (.sent message)

/-- `co_yield(0)` of `_yellow_delay_co`. -/
def delayYield (this : YellowFrames) (line : DelayLine) : YellowFrames :=
  { this with delayLine := line, yield := true }

/-- `g_timeout_add`, with the id stored in the frame. -/
def gTimeoutAdd (this : YellowFrames) (timeout : YellowTimeout) : YellowFrames :=
  { this with
    sourceId := this.nextId
    sources := this.sources ++ [(this.nextId, timeout)]
    nextId := this.nextId + 1 }

def gSourceRemove (this : YellowFrames) (id : ℕ) : YellowFrames :=
  { this with sources := this.sources.filter fun source => source.1 ≠ id }

def sendTargetMessage (this : YellowFrames) (targetEvent : ColodEvent) : YellowFrames :=
  if targetEvent = .yellow then this.send .yellow else this.send .unyellow

def sendRevertMessage (this : YellowFrames) (targetEvent : ColodEvent) : YellowFrames :=
  if targetEvent = .yellow then this.send .unyellow else this.send .yellow

/-- How `_yellow_delay_co` gives control back. -/
inductive DelayReturn
  | yielded
  | returned (ret : ℤ)
  | aborted
  deriving DecidableEq, Repr

/-- `_yellow_delay_co` from the top of its loop. -/
def yellowDelayTop (this : YellowFrames) (targetEvent : ColodEvent) (event : Option ColodEvent) :
    YellowFrames × DelayReturn :=
  match event with
  | none => (this.abort, .aborted)
  | some event =>
    if event = .quit then (this, .returned (-1))
    else if event ≠ targetEvent then (this.delayYield .otherEvent, .yielded)
    else ((this.gTimeoutAdd .timeout1).delayYield .timeout1, .yielded)

/-- `_yellow_delay_co`, from the line at which it was left. -/
def yellowDelayCo (this : YellowFrames) (targetEvent : ColodEvent) (event : Option ColodEvent) :
    YellowFrames × DelayReturn :=
  match this.delayLine with
  | .start | .otherEvent => this.yellowDelayTop targetEvent event
  | .timeout1 | .sameEvent1 =>
    if event = some targetEvent then (this.delayYield .sameEvent1, .yielded)
    else if event ≠ none then (this.gSourceRemove this.sourceId).yellowDelayTop targetEvent event
    else
      (((this.sendTargetMessage targetEvent).gTimeoutAdd .timeout2).delayYield .timeout2, .yielded)
  | .timeout2 | .sameEvent2 =>
    if event = some targetEvent then (this.delayYield .sameEvent2, .yielded)
    else if event ≠ none then
      let this := this.sendRevertMessage targetEvent
      (this.gSourceRemove this.sourceId).yellowDelayTop targetEvent event
    else (this, .returned 0)

/-- `co_recurse(ret = yellow_delay_co(...))` and, unless `ret` is negative, `notify` and
`co_yield(0)`. -/
def recurse (this : YellowFrames) (targetEvent : ColodEvent) (delay notified : YellowLine)
    (event : Option ColodEvent) : YellowFrames :=
  match this.yellowDelayCo targetEvent event with
  | (this, .aborted) => this
  | (this, .yielded) => { this with line := delay }
  | (this, .returned ret) =>
    let this := { this with delayLine := .start }
    if ret < 0 then this
    else { this.record (.notified targetEvent) with line := notified, yield := true }

/-- `_yellow_co`. -/
def yellowCoBody (this : YellowFrames) (event : Option ColodEvent) : YellowFrames :=
  match this.line with
  | .start | .delayYellow | .notifiedUnyellow =>
    this.recurse .yellow .delayYellow .notifiedYellow event
  | .notifiedYellow | .delayUnyellow =>
    this.recurse .unyellow .delayUnyellow .notifiedUnyellow event

/-- `co_enter(coroutine, _yellow_co(coroutine, this, event))`. -/
def coEnter (this : YellowFrames) (event : Option ColodEvent) : YellowFrames :=
  let this := { this with yield := false }
  if this.coroutineQuit then this.abort
  else
    let this := this.yellowCoBody event
    if this.aborted ∨ this.yield then this
    else { this with line := .start, coroutineQuit := true }

/-- `yellow_co`. -/
def yellowCo (this : YellowFrames) : YellowFrames :=
  let this := this.coEnter none
  if this.aborted ∨ this.yield then this else this.abort

def yellowQueueEvent (this : YellowFrames) (event : ColodEvent) : YellowFrames :=
  let this := this.coEnter (some event)
  if this.aborted ∨ this.yield then this else { this with quit := true }

def yellowNetlinkEventCb (this : YellowFrames) (monitorInterface : Option String)
    (ifname : String) (up : Bool) : YellowFrames :=
  if monitorInterface = some ifname then
    let event : ColodEvent := if up then .unyellow else .yellow
    (this.record (.reported event)).yellowQueueEvent event
  else this

def yellowShutdown (this : YellowFrames) : YellowFrames :=
  if this.quit then this
  else
    let this := ({ this with notified := false }.record .quit).yellowQueueEvent .quit
    if this.aborted ∨ this.quit then this else this.abort

inductive Input
  | link (ifname : String) (up : Bool)
  | expire (id : ℕ)
  | shutdown
  deriving DecidableEq, Repr

/-- A source is removed when its callback has returned `G_SOURCE_REMOVE`. -/
def step (monitorInterface : Option String) (this : YellowFrames) (input : Input) :
    Option YellowFrames :=
  if this.aborted then none
  else
    match input with
    | .link ifname up =>
      if this.notified then some (this.yellowNetlinkEventCb monitorInterface ifname up) else none
    | .expire id =>
      (this.sources.find? fun source => source.1 = id).map fun source =>
        (this.record (.expired source.2)).yellowCo.gSourceRemove id
    | .shutdown => some this.yellowShutdown

end YellowFrames
/-! ### What the two frames compute -/

def YellowLine.target : YellowLine → ColodEvent
  | .start | .delayYellow | .notifiedUnyellow => .yellow
  | .notifiedYellow | .delayUnyellow => .unyellow

def DelayLine.pc : DelayLine → YellowPc
  | .start | .otherEvent => .idle
  | .timeout1 | .sameEvent1 => .timer1
  | .timeout2 | .sameEvent2 => .timer2

/-- The timer that a stage waits for. -/
def YellowPc.pending (pc : YellowPc) (sourceId : ℕ) : List (ℕ × YellowTimeout) :=
  match pc with
  | .idle => []
  | .timer1 => [(sourceId, .timeout1)]
  | .timer2 => [(sourceId, .timeout2)]

def YellowAction.entry : YellowAction → YellowEntry
  | .send message => .sent message
  | .notify event => .notified event

namespace YellowFrames
variable {s t : YellowFrames} {y : YellowCoroutine} {event : ColodEvent}

/-- The frame of `_yellow_delay_co` stands for the debouncer while that runs. -/
structure Delays (s : YellowFrames) (y : YellowCoroutine) : Prop where
  aborted : s.aborted = false
  pc : y.pc = s.delayLine.pc
  sources : s.sources = y.pc.pending s.sourceId
  timers : y.timers = s.sources.length
  fresh : s.sourceId < s.nextId
  running : y.quit = false ∧ y.aborted = false

/-- The fields that `_yellow_delay_co` leaves alone. -/
def outer (this : YellowFrames) := (this.line, this.coroutineQuit, this.quit, this.notified)

theorem sendRevertMessage_eq (s : YellowFrames) (targetEvent : ColodEvent) :
    s.sendRevertMessage targetEvent =
      s.record (yellowSendRevertMessage targetEvent).entry := by
  unfold sendRevertMessage yellowSendRevertMessage
  split_ifs <;> rfl

theorem sendTargetMessage_eq (s : YellowFrames) (targetEvent : ColodEvent) :
    s.sendTargetMessage targetEvent =
      s.record (yellowSendTargetMessage targetEvent).entry := by
  unfold sendTargetMessage yellowSendTargetMessage
  split_ifs <;> rfl

theorem gSourceRemove_pending (h : Delays s y) : (s.gSourceRemove s.sourceId).sources = [] := by
  unfold gSourceRemove
  simp only [h.sources]
  cases y.pc <;> simp [YellowPc.pending]

/-- What the top of the loop does with a link event. -/
theorem delayTop_link (hs : s.aborted = false) (hsources : s.sources = [])
    (hfresh : s.sourceId < s.nextId) (hy : y.quit = false ∧ y.aborted = false)
    (htimers : y.timers = 0) (hevent : event ≠ .quit) :
    ∃ t, s.yellowDelayTop y.targetEvent (some event) = (t, .yielded) ∧
      Delays t (ColoDaemon.yellowDelayTop y (some event)) ∧ t.yield = true ∧ t.outer = s.outer ∧
      t.log = s.log ∧
      (ColoDaemon.yellowDelayTop y (some event)).targetEvent = y.targetEvent := by
  unfold yellowDelayTop ColoDaemon.yellowDelayTop
  simp only [if_neg hevent]
  by_cases hother : event ≠ y.targetEvent
  · rw [if_pos hother, if_pos hother]
    exact ⟨_, rfl, ⟨hs, rfl, hsources, by simp [delayYield, hsources, htimers], hfresh, hy⟩,
      rfl, rfl, rfl, rfl⟩
  · rw [if_neg hother, if_neg hother]
    refine ⟨_, rfl, ⟨hs, rfl, ?_, ?_, Nat.lt_succ_self _, hy⟩, rfl, rfl, rfl, rfl⟩
    · simp [delayYield, gTimeoutAdd, hsources, YellowPc.pending]
    · simp [delayYield, gTimeoutAdd, hsources, htimers]

/-- A link event that does not end a stage leaves the timer alone. -/
theorem Delays.same (h : Delays s y) {line : DelayLine} (hline : line.pc = s.delayLine.pc) :
    Delays (s.delayYield line) y :=
  ⟨h.aborted, h.pc.trans hline.symm, h.sources, h.timers, h.fresh, h.running⟩

theorem Delays.record (h : Delays s y) (entry : YellowEntry) : Delays (s.record entry) y :=
  ⟨h.aborted, h.pc, h.sources, h.timers, h.fresh, h.running⟩

theorem Delays.idle (h : Delays s y) (hpc : y.pc = .idle) : s.sources = [] ∧ y.timers = 0 := by
  have hsources : s.sources = [] := by rw [h.sources, hpc, YellowPc.pending]
  exact ⟨hsources, by rw [h.timers, hsources, List.length_nil]⟩

/-- In a waiting stage there is exactly one timer. -/
theorem Delays.waiting (h : Delays s y) (hpc : y.pc ≠ .idle) : y.timers = 1 := by
  rw [h.timers, h.sources]
  cases hy : y.pc with
  | idle => exact absurd hy hpc
  | timer1 | timer2 => rfl

theorem delayCo_idle (hpc : s.delayLine.pc = .idle) (targetEvent : ColodEvent)
    (event : Option ColodEvent) :
    s.yellowDelayCo targetEvent event = s.yellowDelayTop targetEvent event := by
  unfold yellowDelayCo
  cases hs : s.delayLine <;> simp [hs, DelayLine.pc] at hpc <;> rfl

theorem delayCo_timer1 (hpc : s.delayLine.pc = .timer1) (targetEvent : ColodEvent)
    (event : Option ColodEvent) :
    s.yellowDelayCo targetEvent event =
      if event = some targetEvent then (s.delayYield .sameEvent1, .yielded)
      else if event ≠ none then (s.gSourceRemove s.sourceId).yellowDelayTop targetEvent event
      else (((s.record (yellowSendTargetMessage targetEvent).entry).gTimeoutAdd
        .timeout2).delayYield .timeout2, .yielded) := by
  unfold yellowDelayCo
  rw [sendTargetMessage_eq]
  cases hs : s.delayLine <;> simp [hs, DelayLine.pc] at hpc <;> rfl

theorem delayCo_timer2 (hpc : s.delayLine.pc = .timer2) (targetEvent : ColodEvent)
    (event : Option ColodEvent) :
    s.yellowDelayCo targetEvent event =
      if event = some targetEvent then (s.delayYield .sameEvent2, .yielded)
      else if event ≠ none then
        ((s.record (yellowSendRevertMessage targetEvent).entry).gSourceRemove
          s.sourceId).yellowDelayTop targetEvent event
      else (s, .returned 0) := by
  unfold yellowDelayCo
  rw [sendRevertMessage_eq]
  cases hs : s.delayLine <;> simp [hs, DelayLine.pc] at hpc <;> rfl

theorem delayCo_link (h : Delays s y) (hevent : event ≠ .quit) :
    ∃ t, s.yellowDelayCo y.targetEvent (some event) = (t, .yielded) ∧
      Delays t (yellowCoResume y (some event)).1 ∧ t.yield = true ∧ t.outer = s.outer ∧
      t.log = s.log ++ (yellowCoResume y (some event)).2.map YellowAction.entry ∧
      (yellowCoResume y (some event)).1.targetEvent = y.targetEvent := by
  obtain ⟨targetEvent, pc, timers, quit, aborted⟩ := y
  have hline : s.delayLine.pc = pc := h.pc.symm
  cases pc with
  | idle =>
    obtain ⟨hsources, htimers⟩ := h.idle rfl
    obtain ⟨t, htop, hdelays, hyield, houter, hlog, htarget⟩ :=
      delayTop_link h.aborted hsources h.fresh h.running htimers hevent
    rw [delayCo_idle hline]
    exact ⟨t, htop, hdelays, hyield, houter, by simp [hlog, yellowCoResume], htarget⟩
  | timer1 =>
    have htimers : timers = 1 := h.waiting (by simp)
    rw [delayCo_timer1 hline]
    by_cases hsame : event = targetEvent
    · simp only [hsame, yellowCoResume, if_true]
      exact ⟨_, rfl, h.same hline.symm, rfl, rfl, by simp [delayYield], trivial⟩
    · obtain ⟨t, htop, hdelays, hyield, houter, hlog, htarget⟩ :=
        delayTop_link (s := s.gSourceRemove s.sourceId)
          (y := ⟨targetEvent, .timer1, timers - 1, quit, aborted⟩) h.aborted
          (gSourceRemove_pending h) h.fresh h.running (by simp [htimers]) hevent
      simp only [Option.some.injEq, hsame, if_false, yellowCoResume]
      exact ⟨t, htop, hdelays, hyield, houter, by simpa [gSourceRemove] using hlog, htarget⟩
  | timer2 =>
    have htimers : timers = 1 := h.waiting (by simp)
    rw [delayCo_timer2 hline]
    by_cases hsame : event = targetEvent
    · simp only [hsame, yellowCoResume, if_true]
      exact ⟨_, rfl, h.same hline.symm, rfl, rfl, by simp [delayYield], trivial⟩
    · obtain ⟨t, htop, hdelays, hyield, houter, hlog, htarget⟩ :=
        delayTop_link
          (s := (s.record (yellowSendRevertMessage targetEvent).entry).gSourceRemove s.sourceId)
          (y := ⟨targetEvent, .timer2, timers - 1, quit, aborted⟩) h.aborted
          (gSourceRemove_pending (h.record _)) h.fresh h.running (by simp [htimers]) hevent
      simp only [Option.some.injEq, hsame, if_false, yellowCoResume]
      exact ⟨t, htop, hdelays, hyield, houter, hlog, htarget⟩

/-- An `EVENT_QUIT` leaves no timer behind. -/
theorem delayCo_quit (h : Delays s y) (htarget : y.targetEvent ≠ .quit) :
    ∃ t, s.yellowDelayCo y.targetEvent (some .quit) = (t, .returned (-1)) ∧ t.aborted = false ∧
      t.sources = [] ∧ t.yield = s.yield ∧ t.outer = s.outer ∧ t.sourceId < t.nextId ∧
      t.log = s.log ++ (yellowCoResume y (some .quit)).2.map YellowAction.entry ∧
      (yellowCoResume y (some .quit)).1.quit = true ∧
      (yellowCoResume y (some .quit)).1.timers = 0 ∧
      (yellowCoResume y (some .quit)).1.aborted = false := by
  obtain ⟨targetEvent, pc, timers, quit, aborted⟩ := y
  have hline : s.delayLine.pc = pc := h.pc.symm
  have hne : ColodEvent.quit ≠ targetEvent := fun heq => htarget heq.symm
  have hsome : some ColodEvent.quit ≠ some targetEvent := by simpa using hne
  cases pc with
  | idle =>
    obtain ⟨hsources, htimers⟩ := h.idle rfl
    rw [delayCo_idle hline]
    exact ⟨s, rfl, h.aborted, hsources, rfl, rfl, h.fresh, by simp [yellowCoResume], rfl, htimers,
      h.running.2⟩
  | timer1 =>
    have htimers : timers = 1 := h.waiting (by simp)
    rw [delayCo_timer1 hline, if_neg hsome, if_pos (by simp)]
    simp only [yellowCoResume, if_neg hne]
    exact ⟨_, rfl, h.aborted, gSourceRemove_pending h, rfl, rfl, h.fresh,
      by simp [gSourceRemove], rfl, by simp [ColoDaemon.yellowDelayTop, htimers], h.running.2⟩
  | timer2 =>
    have htimers : timers = 1 := h.waiting (by simp)
    rw [delayCo_timer2 hline, if_neg hsome, if_pos (by simp)]
    simp only [yellowCoResume, if_neg hne]
    exact ⟨_, rfl, h.aborted, gSourceRemove_pending (h.record _), rfl, rfl, h.fresh, rfl, rfl,
      by simp [ColoDaemon.yellowDelayTop, htimers], h.running.2⟩

/-! ### One resumption of the coroutine -/

/-- What the two frames stand for. -/
structure Simulates (s : YellowFrames) (y : YellowCoroutine) : Prop where
  quit : y.quit = s.quit
  coroutineQuit : s.coroutineQuit = s.quit
  notified : s.notified = !s.quit
  running : s.quit = false → Delays s y ∧ y.targetEvent = s.line.target
  ended : s.quit = true →
    s.aborted = false ∧ y.aborted = false ∧ s.sources = [] ∧ y.timers = 0 ∧ s.delayLine = .start

theorem body_eq (s : YellowFrames) (event : Option ColodEvent) :
    ∃ delay notified : YellowLine, delay.target = s.line.target ∧
      notified.target = (if s.line.target = .yellow then .unyellow else .yellow) ∧
      s.yellowCoBody event = s.recurse s.line.target delay notified event := by
  unfold yellowCoBody
  cases s.line with
  | start | delayYellow | notifiedUnyellow =>
    exact ⟨.delayYellow, .notifiedYellow, rfl, rfl, rfl⟩
  | notifiedYellow | delayUnyellow =>
    exact ⟨.delayUnyellow, .notifiedUnyellow, rfl, rfl, rfl⟩

theorem target_ne_quit (line : YellowLine) : line.target ≠ .quit := by
  cases line <;> simp [YellowLine.target]

theorem Delays.entered (h : Delays s y) : Delays { s with yield := false } y :=
  ⟨h.aborted, h.pc, h.sources, h.timers, h.fresh, h.running⟩

theorem coEnter_eq {event : Option ColodEvent} (hquit : s.coroutineQuit = false)
    (hbody : ({ s with yield := false } : YellowFrames).yellowCoBody event = t) :
    s.coEnter event = if t.aborted ∨ t.yield then t
      else { t with line := .start, coroutineQuit := true } := by
  unfold coEnter
  simp only [hbody]
  exact if_neg (by simp [hquit])

theorem coEnter_link (h : Delays s y) (htarget : y.targetEvent = s.line.target)
    (hquit : s.coroutineQuit = false) (hevent : event ≠ .quit) :
    ∃ t, s.coEnter (some event) = t ∧ Delays t (yellowCoResume y (some event)).1 ∧
      t.yield = true ∧ (yellowCoResume y (some event)).1.targetEvent = t.line.target ∧
      t.coroutineQuit = s.coroutineQuit ∧ t.quit = s.quit ∧ t.notified = s.notified ∧
      t.log = s.log ++ (yellowCoResume y (some event)).2.map YellowAction.entry := by
  obtain ⟨delay, notified, hdelay, -, hbody⟩ := body_eq { s with yield := false } (some event)
  obtain ⟨t, hco, hdelays, hyield, houter, hlog, hkept⟩ := delayCo_link h.entered hevent
  rw [htarget] at hco
  have hrecurse : ({ s with yield := false } : YellowFrames).yellowCoBody (some event) =
      { t with line := delay } := by
    rw [hbody]
    simp only [recurse, hco]
  simp only [outer, Prod.mk.injEq] at houter
  obtain ⟨-, hcoroutineQuit, hquit', hnotified⟩ := houter
  refine ⟨{ t with line := delay }, ?_, ?_, hyield, ?_, hcoroutineQuit, hquit', hnotified, hlog⟩
  · rw [coEnter_eq hquit hrecurse, if_pos (.inr hyield)]
  · exact ⟨hdelays.aborted, hdelays.pc, hdelays.sources, hdelays.timers, hdelays.fresh,
      hdelays.running⟩
  · rw [hkept, htarget]
    exact hdelay.symm

theorem coEnter_quit (h : Delays s y) (htarget : y.targetEvent = s.line.target)
    (hquit : s.coroutineQuit = false) :
    ∃ t, s.coEnter (some .quit) = t ∧ t.aborted = false ∧ t.yield = false ∧
      t.coroutineQuit = true ∧ t.delayLine = .start ∧ t.quit = s.quit ∧
      t.notified = s.notified ∧ t.sources = [] ∧
      t.log = s.log ++ (yellowCoResume y (some .quit)).2.map YellowAction.entry ∧
      (yellowCoResume y (some .quit)).1.quit = true ∧
      (yellowCoResume y (some .quit)).1.timers = 0 ∧
      (yellowCoResume y (some .quit)).1.aborted = false := by
  obtain ⟨delay, notified, -, -, hbody⟩ := body_eq { s with yield := false } (some .quit)
  obtain ⟨t, hco, haborted, hsources, hyield, houter, -, hlog, hy⟩ :=
    delayCo_quit h.entered (htarget ▸ target_ne_quit s.line)
  rw [htarget] at hco
  have hrecurse : ({ s with yield := false } : YellowFrames).yellowCoBody (some .quit) =
      { t with delayLine := .start } := by
    rw [hbody]
    simp [recurse, hco]
  simp only [outer, Prod.mk.injEq] at houter
  obtain ⟨-, -, hquit', hnotified⟩ := houter
  refine ⟨{ t with line := .start, delayLine := .start, coroutineQuit := true }, ?_, haborted,
    hyield, rfl, rfl, hquit', hnotified, hsources, hlog, hy⟩
  have hends : ¬ (t.aborted = true ∨ t.yield = true) := by simp [haborted, hyield]
  rw [coEnter_eq hquit hrecurse, if_neg hends]

theorem queueEvent_simulates (h : Simulates s y) (hquit : s.quit = false)
    (hevent : event ≠ .quit) :
    Simulates (s.yellowQueueEvent event) (ColoDaemon.yellowQueueEvent y event).1 ∧
      (s.yellowQueueEvent event).log =
        s.log ++ (ColoDaemon.yellowQueueEvent y event).2.map YellowAction.entry := by
  obtain ⟨hdelays, htarget⟩ := h.running hquit
  have hcoroutineQuit : s.coroutineQuit = false := h.coroutineQuit.trans hquit
  have hyquit : y.quit = false := h.quit.trans hquit
  obtain ⟨t, ht, hnext, hyield, hline, hco, hq, hnotified, hlog⟩ :=
    coEnter_link hdelays htarget hcoroutineQuit hevent
  have hqueue : s.yellowQueueEvent event = t := by
    simp [yellowQueueEvent, ht, hyield]
  have hcoarse : ColoDaemon.yellowQueueEvent y event = yellowCoResume y (some event) := by
    simp [ColoDaemon.yellowQueueEvent, hyquit]
  rw [hqueue, hcoarse]
  refine ⟨⟨?_, ?_, ?_, fun _ => ⟨hnext, hline⟩, ?_⟩, hlog⟩
  · rw [hnext.running.1, hq, hquit]
  · rw [hco, hq, hcoroutineQuit, hquit]
  · rw [hnotified, hq, h.notified]
  · intro hended
    rw [hq, hquit] at hended
    cases hended

theorem reported_simulates (h : Simulates s y) (hquit : s.quit = false)
    (hevent : event = .yellow ∨ event = .unyellow) :
    Simulates ((s.record (.reported event)).yellowQueueEvent event)
        (ColoDaemon.yellowQueueEvent y event).1 ∧
      ((s.record (.reported event)).yellowQueueEvent event).log = s.log ++
        .reported event :: (ColoDaemon.yellowQueueEvent y event).2.map YellowAction.entry := by
  have hreported : Simulates (s.record (.reported event)) y :=
    ⟨h.quit, h.coroutineQuit, h.notified,
      fun hq => ⟨(h.running hq).1.record _, (h.running hq).2⟩, h.ended⟩
  have hne : event ≠ .quit := by rcases hevent with rfl | rfl <;> simp
  obtain ⟨hnext, hlog⟩ := queueEvent_simulates hreported hquit hne
  refine ⟨hnext, ?_⟩
  rw [hlog]
  simp [record]

theorem shutdown_simulates (h : Simulates s y) (hquit : s.quit = false) :
    Simulates s.yellowShutdown (ColoDaemon.yellowShutdown y).1 ∧
      s.yellowShutdown.quit = true ∧
      s.yellowShutdown.log =
        s.log ++ .quit :: (ColoDaemon.yellowShutdown y).2.map YellowAction.entry := by
  obtain ⟨hdelays, htarget⟩ := h.running hquit
  have hcoroutineQuit : s.coroutineQuit = false := h.coroutineQuit.trans hquit
  have hyquit : y.quit = false := h.quit.trans hquit
  have hdeaf : Delays ({ s with notified := false }.record .quit) y :=
    ⟨hdelays.aborted, hdelays.pc, hdelays.sources, hdelays.timers, hdelays.fresh,
      hdelays.running⟩
  obtain ⟨t, ht, haborted, hyield, hco, hstart, -, hnotified, hsources, hlog, hyq, hyt, hya⟩ :=
    coEnter_quit hdeaf htarget hcoroutineQuit
  have hqueue : ({ s with notified := false }.record .quit).yellowQueueEvent .quit =
      { t with quit := true } := by
    simp only [yellowQueueEvent, ht]
    exact if_neg (by simp [haborted, hyield])
  have hshutdown : s.yellowShutdown = { t with quit := true } := by
    unfold yellowShutdown
    rw [if_neg (by simp [hquit])]
    simp only [hqueue]
    exact if_pos (by simp)
  have hcoarse : ColoDaemon.yellowShutdown y = yellowCoResume y (some .quit) := by
    simp [ColoDaemon.yellowShutdown, ColoDaemon.yellowQueueEvent, hyquit]
  rw [hshutdown, hcoarse]
  refine ⟨⟨hyq, hco, hnotified, ?_, fun _ => ⟨haborted, hya, hsources, hyt, hstart⟩⟩, rfl, ?_⟩
  · intro hrunning
    cases hrunning
  · rw [hlog]
    simp [record]

/-- An expired timer is the one the stage waits for. -/
theorem expired_eq (h : Delays s y) {id : ℕ} {source : ℕ × YellowTimeout}
    (hfind : s.sources.find? (fun source => source.1 = id) = some source) :
    id = s.sourceId ∧ (y.pc = .timer1 ∧ source.2 = .timeout1 ∨
      y.pc = .timer2 ∧ source.2 = .timeout2) := by
  rw [h.sources] at hfind
  have hid : source.1 = id := by simpa using List.find?_some hfind
  have hmem := List.mem_of_find?_eq_some hfind
  cases hpc : y.pc with
  | idle => simp [hpc, YellowPc.pending] at hmem
  | timer1 =>
    obtain rfl : source = (s.sourceId, .timeout1) := by simpa [hpc, YellowPc.pending] using hmem
    exact ⟨hid.symm, .inl ⟨rfl, rfl⟩⟩
  | timer2 =>
    obtain rfl : source = (s.sourceId, .timeout2) := by simpa [hpc, YellowPc.pending] using hmem
    exact ⟨hid.symm, .inr ⟨rfl, rfl⟩⟩

/-- The first timer makes `_yellow_delay_co` send its message and start the second. -/
theorem yellowCo_timer1 (hpc : s.delayLine.pc = .timer1) (hquit : s.coroutineQuit = false) :
    ∃ delay : YellowLine, delay.target = s.line.target ∧
      s.yellowCo = { (({ s with yield := false }.record
        (yellowSendTargetMessage s.line.target).entry).gTimeoutAdd
          .timeout2).delayYield .timeout2 with line := delay } := by
  obtain ⟨delay, notified, hdelay, -, hbody⟩ := body_eq { s with yield := false } none
  refine ⟨delay, hdelay, ?_⟩
  have hco := delayCo_timer1 (s := { s with yield := false }) hpc s.line.target none
  rw [if_neg (by simp), if_neg (by simp)] at hco
  simp only [recurse, hco] at hbody
  have henter := coEnter_eq hquit hbody
  rw [if_pos (.inr rfl)] at henter
  simp only [yellowCo, henter]
  exact if_pos (.inr rfl)

/-- The second timer ends `_yellow_delay_co`, and the notification follows. -/
theorem yellowCo_timer2 (hpc : s.delayLine.pc = .timer2) (hquit : s.coroutineQuit = false) :
    ∃ notified : YellowLine,
      notified.target = (if s.line.target = .yellow then .unyellow else .yellow) ∧
      s.yellowCo = { s.record (.notified s.line.target) with
        line := notified, delayLine := .start, yield := true } := by
  obtain ⟨delay, notified, -, hnotified, hbody⟩ := body_eq { s with yield := false } none
  refine ⟨notified, hnotified, ?_⟩
  have hco := delayCo_timer2 (s := { s with yield := false }) hpc s.line.target none
  rw [if_neg (by simp), if_neg (by simp)] at hco
  simp only [recurse, hco, if_neg (show ¬ (0 : ℤ) < 0 by simp)] at hbody
  have henter := coEnter_eq hquit hbody
  rw [if_pos (by simp)] at henter
  simp only [yellowCo, henter]
  exact if_pos (by simp)

theorem expire_simulates (h : Simulates s y) (hquit : s.quit = false) {id : ℕ}
    {source : ℕ × YellowTimeout}
    (hfind : s.sources.find? (fun source => source.1 = id) = some source) :
    Simulates ((s.record (.expired source.2)).yellowCo.gSourceRemove id)
        (ColoDaemon.yellowCo y).1 ∧
      ((s.record (.expired source.2)).yellowCo.gSourceRemove id).log =
        s.log ++ .expired source.2 :: (ColoDaemon.yellowCo y).2.map YellowAction.entry := by
  obtain ⟨hdelays, htarget⟩ := h.running hquit
  have hcoroutineQuit : s.coroutineQuit = false := h.coroutineQuit.trans hquit
  have hnot := h.notified
  obtain ⟨rfl, hat⟩ := expired_eq hdelays hfind
  obtain ⟨targetEvent, pc, timers, quit, aborted⟩ := y
  obtain ⟨hyquit, hyaborted⟩ := hdelays.running
  simp only at htarget hyquit hyaborted hat
  subst htarget hyquit hyaborted
  have hline : s.delayLine.pc = pc := hdelays.pc.symm
  have hfresh := hdelays.fresh
  have hsources := hdelays.sources
  rcases hat with ⟨rfl, -⟩ | ⟨rfl, -⟩
  · have hone : timers = 1 := hdelays.waiting (by simp)
    obtain ⟨delay, hdelay, hyellow⟩ :=
      yellowCo_timer1 (s := s.record (.expired source.2)) hline hcoroutineQuit
    rw [hyellow]
    have hne : s.sourceId ≠ s.nextId := Nat.ne_of_lt hfresh
    refine ⟨⟨hquit.symm, h.coroutineQuit, hnot, fun _ => ⟨⟨hdelays.aborted, rfl, ?_, ?_,
      Nat.lt_succ_self _, rfl, rfl⟩, hdelay.symm⟩, ?_⟩, ?_⟩
    · simp [ColoDaemon.yellowCo, yellowCoResume, YellowPc.pending, hsources, gSourceRemove,
        gTimeoutAdd, delayYield, record, hne.symm]
    · simp [ColoDaemon.yellowCo, yellowCoResume, YellowPc.pending, hsources, gSourceRemove,
        gTimeoutAdd, delayYield, record, hne.symm, hone]
    · intro hended
      have hfalse : s.quit = true := hended
      rw [hquit] at hfalse
      cases hfalse
    · simp [ColoDaemon.yellowCo, yellowCoResume, record, gSourceRemove, gTimeoutAdd, delayYield]
  · have hone : timers = 1 := hdelays.waiting (by simp)
    obtain ⟨notified, hnotified, hyellow⟩ :=
      yellowCo_timer2 (s := s.record (.expired source.2)) hline hcoroutineQuit
    rw [hyellow]
    refine ⟨⟨hquit.symm, h.coroutineQuit, hnot, fun _ => ⟨⟨hdelays.aborted, rfl, ?_, ?_,
      hfresh, rfl, rfl⟩, hnotified.symm⟩, ?_⟩, ?_⟩
    · simp [ColoDaemon.yellowCo, yellowCoResume, YellowPc.pending, hsources, gSourceRemove,
        record]
    · simp [ColoDaemon.yellowCo, yellowCoResume, YellowPc.pending, hsources, gSourceRemove,
        record, hone]
    · intro hended
      have hfalse : s.quit = true := hended
      rw [hquit] at hfalse
      cases hfalse
    · simp [ColoDaemon.yellowCo, yellowCoResume, record, gSourceRemove, YellowAction.entry]

theorem Simulates.aborted (h : Simulates s y) : s.aborted = false := by
  cases hquit : s.quit with
  | true => exact (h.ended hquit).1
  | false => exact (h.running hquit).1.aborted

/-- What the debouncer does on an input, next to what it records. -/
inductive Advances (y : YellowCoroutine) : List YellowEntry → YellowCoroutine → Prop
  | stays : Advances y [] y
  | link (event : ColodEvent) (hevent : event = .yellow ∨ event = .unyellow)
    (hquit : y.quit = false) :
    Advances y (.reported event :: (ColoDaemon.yellowQueueEvent y event).2.map YellowAction.entry)
      (ColoDaemon.yellowQueueEvent y event).1
  | expire (timeout : YellowTimeout) (hquit : y.quit = false)
    (hat : y.pc = .timer1 ∧ timeout = .timeout1 ∨ y.pc = .timer2 ∧ timeout = .timeout2) :
    Advances y (.expired timeout :: (ColoDaemon.yellowCo y).2.map YellowAction.entry)
      (ColoDaemon.yellowCo y).1
  | quit (hquit : y.quit = false) :
    Advances y (.quit :: (ColoDaemon.yellowShutdown y).2.map YellowAction.entry)
      (ColoDaemon.yellowShutdown y).1

/-- Every step of the two frames is one of the debouncer, and records what that does. -/
theorem step_simulates {monitorInterface : Option String} {input : Input} (h : Simulates s y)
    (hstep : step monitorInterface s input = some t) :
    ∃ entries y', Advances y entries y' ∧ Simulates t y' ∧ t.log = s.log ++ entries := by
  unfold step at hstep
  rw [if_neg (by simp [h.aborted])] at hstep
  have hend : s.quit = true → s.sources = [] ∧ s.notified = false := by
    intro hquit
    exact ⟨(h.ended hquit).2.2.1, by rw [h.notified, hquit]; rfl⟩
  cases input with
  | link ifname up =>
    simp only at hstep
    split_ifs at hstep with hnotified
    cases hstep
    have hquit : s.quit = false := by
      by_contra hquit
      rw [(hend (by simpa using hquit)).2] at hnotified
      cases hnotified
    by_cases hinterface : monitorInterface = some ifname
    · simp only [yellowNetlinkEventCb, if_pos hinterface]
      have hevent : (if up then ColodEvent.unyellow else .yellow) = .yellow ∨
          (if up then ColodEvent.unyellow else .yellow) = .unyellow := by
        cases up <;> simp
      obtain ⟨hnext, hlog⟩ := reported_simulates h hquit hevent
      exact ⟨_, _, .link _ hevent (h.quit.trans hquit), hnext, hlog⟩
    · simp only [yellowNetlinkEventCb, if_neg hinterface]
      exact ⟨[], y, .stays, h, by simp⟩
  | expire id =>
    obtain ⟨source, hfind, rfl⟩ := Option.map_eq_some_iff.mp hstep
    have hquit : s.quit = false := by
      by_contra hquit
      rw [(hend (by simpa using hquit)).1] at hfind
      cases hfind
    obtain ⟨hnext, hlog⟩ := expire_simulates h hquit hfind
    exact ⟨_, _, .expire source.2 (h.quit.trans hquit) (expired_eq (h.running hquit).1 hfind).2,
      hnext, hlog⟩
  | shutdown =>
    cases hstep
    cases hquit : s.quit with
    | true => exact ⟨[], y, .stays, by simpa [yellowShutdown, hquit] using h,
        by simp [yellowShutdown, hquit]⟩
    | false =>
      obtain ⟨hnext, -, hlog⟩ := shutdown_simulates h hquit
      exact ⟨_, _, .quit (h.quit.trans hquit), hnext, hlog⟩

theorem simulates_new : Simulates new .new where
  quit := rfl
  coroutineQuit := rfl
  notified := rfl
  running _ := ⟨⟨rfl, rfl, rfl, rfl, Nat.one_pos, rfl, rfl⟩, rfl⟩
  ended h := by cases h

end YellowFrames
end ColoDaemon
