import ColoDaemon.CoroutineStack
import ColoDaemon.YellowFrames

/-!
# The link debouncer on the stack of frames

`yellowFunctions` are the two functions of `yellow_coroutine.c` from one label to the next, with the
lines of the source. `YellowFrames` writes out what the macros do with them; here the macros
themselves do it.
-/

namespace ColoDaemon
open Runs CoFunctions

/-- The functions with the argument `target_event`. -/
inductive YellowFunction
  | yellowCo
  | yellowDelayCo (targetEvent : ColodEvent)
  deriving DecidableEq, Repr

/-- The debouncer, of which the lines and flags of the coroutine are not used, and the argument
`event` of the call. -/
structure YellowCall where
  this : YellowFrames
  event : Option ColodEvent
  deriving DecidableEq, Repr

/-- The line of the `co_recurse` or `co_yield`. -/
def YellowLine.number : YellowLine → ℕ
  | .start => 0
  | .delayYellow => 122
  | .notifiedYellow => 127
  | .delayUnyellow => 129
  | .notifiedUnyellow => 134

def DelayLine.number : DelayLine → ℕ
  | .start => 0
  | .otherEvent => 77
  | .timeout1 => 83
  | .sameEvent1 => 86
  | .timeout2 => 96
  | .sameEvent2 => 99

namespace YellowFunction

def label : YellowFunction → ℕ → Option (CaseLabel YellowFunction)
  | yellowCo, line =>
    if line = 0 ∨ line = 127 ∨ line = 134 then some .plain
    else if line = 122 then some (.recurse (yellowDelayCo .yellow))
    else if line = 129 then some (.recurse (yellowDelayCo .unyellow))
    else none
  | yellowDelayCo _, line =>
    if line = 0 ∨ line = 77 ∨ line = 83 ∨ line = 86 ∨ line = 96 ∨ line = 99 then some .plain
    else none

/-- `_yellow_delay_co` from the top of its loop. -/
def delayTop (targetEvent : ColodEvent) (call : YellowCall) : Segment ℤ ℤ × YellowCall :=
  match call.event with
  | none => (.abort, call)
  | some event =>
    if event = .quit then (.ret (-1), call)
    else if event ≠ targetEvent then (.yield 0 77, call)
    else (.yield 0 83, { call with this := call.this.gTimeoutAdd .timeout1 })

/-- `_yellow_delay_co` from a label. -/
def delayBody (targetEvent : ColodEvent) (line : ℕ) (call : YellowCall) :
    Segment ℤ ℤ × YellowCall :=
  if line = 0 ∨ line = 77 then delayTop targetEvent call
  else if line = 83 ∨ line = 86 then
    if call.event = some targetEvent then (.yield 0 86, call)
    else if call.event ≠ none then
      delayTop targetEvent { call with this := call.this.gSourceRemove call.this.sourceId }
    else
      (.yield 0 96,
        { call with this := (call.this.sendTargetMessage targetEvent).gTimeoutAdd .timeout2 })
  else
    if call.event = some targetEvent then (.yield 0 99, call)
    else if call.event ≠ none then
      let this := call.this.sendRevertMessage targetEvent
      delayTop targetEvent { call with this := this.gSourceRemove this.sourceId }
    else (.ret 0, call)

def body : YellowFunction → ℕ → ℕ → YellowCall → Segment ℤ ℤ × YellowCall
  | yellowCo, _, line, call => (.recurse (if line = 127 then 129 else 122), call)
  | yellowDelayCo targetEvent, _, line, call => delayBody targetEvent line call

/-- `_yellow_co` after a `co_recurse`. -/
def after : YellowFunction → ℕ → ℕ → ℤ → YellowCall → Segment ℤ ℤ × YellowCall
  | yellowCo, _, line, ret, call =>
    if ret < 0 then (.ret 0, call)
    else if line = 122 then
      (.yield 0 127, { call with this := call.this.record (.notified .yellow) })
    else (.yield 0 134, { call with this := call.this.record (.notified .unyellow) })
  | yellowDelayCo _, _, _, _, call => (.abort, call)

theorem delayTop_labelled (targetEvent target : ColodEvent) (call : YellowCall) :
    (delayTop targetEvent call).1.Labelled (label (yellowDelayCo target)) := by
  unfold delayTop
  split
  · trivial
  · split_ifs <;> trivial

theorem delayBody_labelled (targetEvent : ColodEvent) (line : ℕ) (call : YellowCall) :
    (delayBody targetEvent line call).1.Labelled (label (yellowDelayCo targetEvent)) := by
  unfold delayBody
  split_ifs
  all_goals first | exact delayTop_labelled .. | trivial

end YellowFunction

def yellowFunctions : CoFunctions YellowFunction YellowCall ℤ ℤ where
  label := YellowFunction.label
  yieldRet f := if f = .yellowCo then 0 else -1
  prologue _ call := call
  body := YellowFunction.body
  after := YellowFunction.after
  label_zero f := by cases f <;> rfl
  body_labelled f depth line call := by
    cases f with
    | yellowCo =>
      rw [YellowFunction.body]
      by_cases h : line = 127
      · rw [if_pos h]
        exact ⟨_, rfl⟩
      · rw [if_neg h]
        exact ⟨_, rfl⟩
    | yellowDelayCo targetEvent => exact YellowFunction.delayBody_labelled ..
  after_labelled f depth line ret call := by
    cases f with
    | yellowCo =>
      rw [YellowFunction.after]
      split_ifs <;> trivial
    | yellowDelayCo targetEvent => trivial

namespace YellowFrames

/-- Everything but the frames and the flags of the coroutine. -/
def data (y : YellowFrames) : YellowFrames :=
  { y with line := .start, delayLine := .start, yield := false, coroutineQuit := false }

/-- The functions that are suspended. -/
def frames (y : YellowFrames) : List (YellowFunction × ℕ) :=
  match y.line with
  | .delayYellow => [(.yellowCo, 122), (.yellowDelayCo .yellow, y.delayLine.number)]
  | .delayUnyellow => [(.yellowCo, 129), (.yellowDelayCo .unyellow, y.delayLine.number)]
  | line => [(.yellowCo, line.number)]

def stack (y : YellowFrames) : CoStack YellowFunction :=
  if y.coroutineQuit then .finished else .suspended y.frames

/-- The coroutine of `yellow_coroutine.c` has these frames. -/
structure In (y : YellowFrames) (c : Coroutine ℤ) : Prop where
  quit : c.quit = y.coroutineQuit
  frame : c.frame = 0
  line : c.line 0 = y.line.number
  delayLine : c.line 1 = y.delayLine.number
  unused : ∀ i, 2 ≤ i → c.line i = 0

/-- The frame of `_yellow_delay_co` is in use only while `_yellow_co` waits for it. -/
def Paired (y : YellowFrames) : Prop :=
  y.line = .delayYellow ∨ y.line = .delayUnyellow ∨ y.delayLine = .start

/-- A coroutine that has finished starts at the beginning, were it resumed again. -/
structure Aligned (y : YellowFrames) : Prop where
  paired : y.Paired
  finished : y.coroutineQuit = true → y.line = .start

/-- How the call of `_yellow_co` ends that leaves these frames. -/
def pause (y : YellowFrames) (event : Option ColodEvent) :
    Except CoFault (Pause YellowFunction ℤ ℤ × YellowCall) :=
  if y.aborted then .error .aborted
  else .ok (if y.yield then .suspended y.frames 0 else .returned 0, ⟨y.data, event⟩)

/-- The frames after a call of `_yellow_delay_co`, next to what its segment yields. -/
def DelayAgrees (y : YellowFrames) (event : Option ColodEvent) :
    YellowFrames × DelayReturn → Segment ℤ ℤ × YellowCall → Prop
  | (t, .aborted), (segment, _) => segment = .abort ∧ t.aborted = true
  | (t, .yielded), next => next = (.yield 0 t.delayLine.number, ⟨t.data, event⟩) ∧
      t.line = y.line ∧ t.coroutineQuit = y.coroutineQuit ∧ t.yield = true ∧
      t.aborted = y.aborted
  | (t, .returned ret), next => next = (.ret ret, ⟨t.data, event⟩) ∧
      t.line = y.line ∧ t.coroutineQuit = y.coroutineQuit ∧ t.yield = y.yield ∧
      t.aborted = y.aborted

variable {y t : YellowFrames} {event : Option ColodEvent}

theorem delayTop_agrees (y : YellowFrames) (targetEvent : ColodEvent)
    (event : Option ColodEvent) :
    DelayAgrees y event (y.yellowDelayTop targetEvent event)
      (YellowFunction.delayTop targetEvent ⟨y.data, event⟩) := by
  unfold yellowDelayTop YellowFunction.delayTop
  cases event with
  | none => exact ⟨rfl, rfl⟩
  | some event =>
    dsimp only
    by_cases hquit : event = .quit
    · rw [if_pos hquit, if_pos hquit]
      exact ⟨rfl, rfl, rfl, rfl, rfl⟩
    · rw [if_neg hquit, if_neg hquit]
      by_cases hother : event ≠ targetEvent
      · rw [if_pos hother, if_pos hother]
        exact ⟨rfl, rfl, rfl, rfl, rfl⟩
      · rw [if_neg hother, if_neg hother]
        exact ⟨rfl, rfl, rfl, rfl, rfl⟩

theorem DelayAgrees.trans {result : YellowFrames × DelayReturn}
    {next : Segment ℤ ℤ × YellowCall} (h : DelayAgrees t event result next)
    (hline : t.line = y.line) (hquit : t.coroutineQuit = y.coroutineQuit)
    (hyield : t.yield = y.yield) (haborted : t.aborted = y.aborted) :
    DelayAgrees y event result next := by
  obtain ⟨u, ret⟩ := result
  cases ret with
  | aborted => exact h
  | yielded =>
    obtain ⟨hnext, hline', hquit', hyield', haborted'⟩ := h
    exact ⟨hnext, hline'.trans hline, hquit'.trans hquit, hyield', haborted'.trans haborted⟩
  | returned ret =>
    obtain ⟨hnext, hline', hquit', hyield', haborted'⟩ := h
    exact ⟨hnext, hline'.trans hline, hquit'.trans hquit, hyield'.trans hyield,
      haborted'.trans haborted⟩

theorem delayCo_agrees (y : YellowFrames) (targetEvent : ColodEvent)
    (event : Option ColodEvent) :
    DelayAgrees y event (y.yellowDelayCo targetEvent event)
      (YellowFunction.delayBody targetEvent y.delayLine.number ⟨y.data, event⟩) := by
  unfold YellowFunction.delayBody
  by_cases hidle : y.delayLine.pc = .idle
  · have hline : y.delayLine.number = 0 ∨ y.delayLine.number = 77 := by
      revert hidle
      cases y.delayLine <;> decide
    rw [delayCo_idle hidle, if_pos hline]
    exact delayTop_agrees ..
  · have hline : ¬ (y.delayLine.number = 0 ∨ y.delayLine.number = 77) := by
      revert hidle
      cases y.delayLine <;> decide
    rw [if_neg hline]
    cases htimer : y.delayLine.pc with
    | idle => exact absurd htimer hidle
    | timer1 =>
      have hline₁ : y.delayLine.number = 83 ∨ y.delayLine.number = 86 := by
        revert htimer
        cases y.delayLine <;> decide
      rw [delayCo_timer1 htimer, if_pos hline₁]
      by_cases hsame : event = some targetEvent
      · rw [if_pos hsame, if_pos hsame]
        exact ⟨rfl, rfl, rfl, rfl, rfl⟩
      · rw [if_neg hsame, if_neg hsame]
        by_cases hevent : event ≠ none
        · rw [if_pos hevent, if_pos hevent]
          exact (delayTop_agrees (y.gSourceRemove y.sourceId) ..).trans rfl rfl rfl rfl
        · rw [if_neg hevent, if_neg hevent]
          refine ⟨?_, rfl, rfl, rfl, rfl⟩
          dsimp only
          rw [sendTargetMessage_eq]
          rfl
    | timer2 =>
      have hline₂ : ¬ (y.delayLine.number = 83 ∨ y.delayLine.number = 86) := by
        revert htimer
        cases y.delayLine <;> decide
      rw [delayCo_timer2 htimer, if_neg hline₂]
      by_cases hsame : event = some targetEvent
      · rw [if_pos hsame, if_pos hsame]
        exact ⟨rfl, rfl, rfl, rfl, rfl⟩
      · rw [if_neg hsame, if_neg hsame]
        by_cases hevent : event ≠ none
        · rw [if_pos hevent, if_pos hevent]
          dsimp only
          rw [sendRevertMessage_eq]
          exact (delayTop_agrees ((y.record (yellowSendRevertMessage targetEvent).entry).gSourceRemove
            y.sourceId) ..).trans rfl rfl rfl rfl
        · rw [if_neg hevent, if_neg hevent]
          exact ⟨rfl, rfl, rfl, rfl, rfl⟩

theorem pause_yielded (haborted : y.aborted = false) (hyield : y.yield = true) :
    y.pause event = .ok (.suspended y.frames 0, ⟨y.data, event⟩) := by
  simp only [pause, haborted, hyield, Bool.false_eq_true, if_false, if_true]

theorem pause_returned (haborted : y.aborted = false) (hyield : y.yield = false) :
    y.pause event = .ok (.returned 0, ⟨y.data, event⟩) := by
  simp only [pause, haborted, hyield, Bool.false_eq_true, if_false]

/-- A call of `_yellow_co` that goes on in `_yellow_delay_co`. -/
theorem drive_recurse (event : Option ColodEvent) {targetEvent : ColodEvent} {delay notified : YellowLine}
    (hyield : y.yield = false) (haborted : y.aborted = false)
    (hdelay : ∀ t : YellowFrames, t.line = delay →
      t.frames = [(.yellowCo, delay.number), (.yellowDelayCo targetEvent, t.delayLine.number)])
    (hnotified : ∀ t : YellowFrames, t.line = notified →
      t.frames = [(.yellowCo, notified.number)])
    (hafter : ∀ ret call, YellowFunction.after .yellowCo 0 delay.number ret call =
      if ret < 0 then (.ret 0, call)
      else (.yield 0 notified.number,
        { call with this := call.this.record (.notified targetEvent) })) :
    let next := YellowFunction.delayBody targetEvent y.delayLine.number ⟨y.data, event⟩
    yellowFunctions.drive 2 (.yellowDelayCo targetEvent) [(.yellowCo, delay.number)] next.1 next.2 =
      some ((y.recurse targetEvent delay notified event).pause event) := by
  have hagrees := delayCo_agrees y targetEvent event
  intro next
  change DelayAgrees y event (y.yellowDelayCo targetEvent event) next at hagrees
  unfold recurse
  match hresult : y.yellowDelayCo targetEvent event, next with
  | (t, .aborted), (segment, call) =>
    rw [hresult] at hagrees
    obtain ⟨rfl, ht⟩ := hagrees
    rw [pause, if_pos ht]
    rfl
  | (t, .yielded), next =>
    rw [hresult] at hagrees
    obtain ⟨rfl, -, -, hyielded, hlive⟩ := hagrees
    rw [haborted] at hlive
    dsimp only
    rw [pause_yielded (y := { t with line := delay }) hlive hyielded, hdelay _ rfl]
    rfl
  | (t, .returned ret), next =>
    rw [hresult] at hagrees
    obtain ⟨rfl, -, -, hreturned, hlive⟩ := hagrees
    rw [haborted] at hlive
    rw [hyield] at hreturned
    have hdrive : ∀ call, yellowFunctions.drive 2 (.yellowDelayCo targetEvent)
        [(.yellowCo, delay.number)] (.ret ret) call =
          yellowFunctions.drive 1 .yellowCo []
            (YellowFunction.after .yellowCo 0 delay.number ret call).1
            (YellowFunction.after .yellowCo 0 delay.number ret call).2 := fun _ => rfl
    rw [hdrive, hafter]
    dsimp only
    by_cases hret : ret < 0
    · rw [if_pos hret, if_pos hret,
        pause_returned (y := { t with delayLine := .start }) hlive hreturned]
      rfl
    · let u := { t with delayLine := .start }
      rw [if_neg hret, if_neg hret, pause_yielded (y := { u.record (.notified targetEvent) with
        line := notified, yield := true }) hlive rfl, hnotified _ rfl]
      rfl

theorem after_delayYellow (ret : ℤ) (call : YellowCall) :
    YellowFunction.after .yellowCo 0 YellowLine.delayYellow.number ret call =
      if ret < 0 then (.ret 0, call)
      else (.yield 0 YellowLine.notifiedYellow.number,
        { call with this := call.this.record (.notified .yellow) }) := rfl

theorem after_delayUnyellow (ret : ℤ) (call : YellowCall) :
    YellowFunction.after .yellowCo 0 YellowLine.delayUnyellow.number ret call =
      if ret < 0 then (.ret 0, call)
      else (.yield 0 YellowLine.notifiedUnyellow.number,
        { call with this := call.this.record (.notified .unyellow) }) := rfl

theorem frames_delayYellow (h : y.line = .delayYellow) :
    y.frames = [(.yellowCo, YellowLine.delayYellow.number),
      (.yellowDelayCo .yellow, y.delayLine.number)] := by
  rw [frames, h]
  rfl

theorem frames_delayUnyellow (h : y.line = .delayUnyellow) :
    y.frames = [(.yellowCo, YellowLine.delayUnyellow.number),
      (.yellowDelayCo .unyellow, y.delayLine.number)] := by
  rw [frames, h]
  rfl

theorem frames_notifiedYellow (h : y.line = .notifiedYellow) :
    y.frames = [(.yellowCo, YellowLine.notifiedYellow.number)] := by
  rw [frames, h]

theorem frames_notifiedUnyellow (h : y.line = .notifiedUnyellow) :
    y.frames = [(.yellowCo, YellowLine.notifiedUnyellow.number)] := by
  rw [frames, h]

/-- The suspended functions go on as `_yellow_co` does with the frames. -/
theorem resume_frames (hyield : y.yield = false) (haborted : y.aborted = false)
    (hpaired : y.Paired) :
    yellowFunctions.resume 3 [] y.frames ⟨y.data, event⟩ =
      some ((y.yellowCoBody event).pause event) := by
  have hyellow := drive_recurse event hyield haborted (fun _ => frames_delayYellow)
    (fun _ => frames_notifiedYellow) after_delayYellow
  have hunyellow := drive_recurse event hyield haborted (fun _ => frames_delayUnyellow)
    (fun _ => frames_notifiedUnyellow) after_delayUnyellow
  have hstart : y.delayLine = .start → ∀ targetEvent,
      YellowFunction.delayBody targetEvent 0 ⟨y.data, event⟩ =
        YellowFunction.delayBody targetEvent y.delayLine.number ⟨y.data, event⟩ := by
    intro hstart targetEvent
    rw [hstart]
    rfl
  have hfresh (hline : y.line ≠ .delayYellow ∧ y.line ≠ .delayUnyellow) : y.delayLine = .start :=
    (hpaired.resolve_left hline.1).resolve_left hline.2
  unfold yellowCoBody
  cases hline : y.line with
  | start | notifiedUnyellow =>
    rw [frames, hline]
    rw [← hstart (hfresh (by simp [hline]))] at hyellow
    exact hyellow
  | delayYellow =>
    rw [frames_delayYellow hline]
    exact drive_succ hyellow
  | notifiedYellow =>
    rw [frames, hline]
    rw [← hstart (hfresh (by simp [hline]))] at hunyellow
    exact hunyellow
  | delayUnyellow =>
    rw [frames_delayUnyellow hline]
    exact drive_succ hunyellow

/-! ### Resuming the debouncer -/

theorem recurse_aligned (hquit : y.coroutineQuit = false) {targetEvent : ColodEvent}
    {delay notified : YellowLine} (hdelay : delay = .delayYellow ∨ delay = .delayUnyellow)
    (h : (y.recurse targetEvent delay notified event).aborted = false) :
    (y.recurse targetEvent delay notified event).Paired ∧
      (y.recurse targetEvent delay notified event).coroutineQuit = false ∧
      ((y.recurse targetEvent delay notified event).yield = false →
        (y.recurse targetEvent delay notified event).delayLine = .start) := by
  have hagrees := delayCo_agrees y targetEvent event
  unfold recurse at h ⊢
  rcases hresult : y.yellowDelayCo targetEvent event with ⟨t, ret⟩
  rw [hresult] at hagrees h
  cases ret with
  | aborted =>
    rw [hagrees.2] at h
    cases h
  | yielded =>
    obtain ⟨-, -, hsame, hyielded, -⟩ := hagrees
    refine ⟨?_, hsame.trans hquit, fun hyield => ?_⟩
    · rcases hdelay with rfl | rfl
      · exact .inl rfl
      · exact .inr (.inl rfl)
    · cases hyielded.symm.trans hyield
  | returned ret =>
    obtain ⟨-, -, hsame, -⟩ := hagrees
    dsimp only
    by_cases hret : ret < 0
    · rw [if_pos hret]
      exact ⟨.inr (.inr rfl), hsame.trans hquit, fun _ => rfl⟩
    · rw [if_neg hret]
      exact ⟨.inr (.inr rfl), hsame.trans hquit, fun _ => rfl⟩

theorem body_aligned (event : Option ColodEvent) (hquit : y.coroutineQuit = false)
    (h : (y.yellowCoBody event).aborted = false) :
    (y.yellowCoBody event).Paired ∧ (y.yellowCoBody event).coroutineQuit = false ∧
      ((y.yellowCoBody event).yield = false → (y.yellowCoBody event).delayLine = .start) := by
  unfold yellowCoBody at h ⊢
  cases hline : y.line with
  | start | delayYellow | notifiedUnyellow =>
    rw [hline] at h
    exact recurse_aligned hquit (.inl rfl) h
  | notifiedYellow | delayUnyellow =>
    rw [hline] at h
    exact recurse_aligned hquit (.inr rfl) h

/-- What the macros answer when `y` is resumed and becomes `y'`. -/
def answer (y y' : YellowFrames) (event : Option ColodEvent) :
    Except CoFault (Resumed ℤ ℤ × CoStack YellowFunction × YellowCall) :=
  if y'.aborted then .error (if y.coroutineQuit then .assertFailed else .aborted)
  else .ok (if y'.yield then .yielded 0 else .finished 0, y'.stack, ⟨y'.data, event⟩)

theorem enterStack_answer (event : Option ColodEvent) (haborted : y.aborted = false) (h : y.Aligned) :
    yellowFunctions.enterStack 3 y.stack ⟨y.data, event⟩ =
      some (y.answer (y.coEnter event) event) ∧
    ((y.coEnter event).aborted = false → (y.coEnter event).Aligned) := by
  cases hquit : y.coroutineQuit with
  | true =>
    have hcoEnter : (y.coEnter event).aborted = true := by
      simp only [coEnter, hquit, if_true, abort]
    rw [answer, if_pos hcoEnter, stack, hquit]
    exact ⟨rfl, fun hlive => by rw [hcoEnter] at hlive; cases hlive⟩
  | false =>
    let this := { y with yield := false }
    have hresume : yellowFunctions.resume 3 [] y.frames ⟨y.data, event⟩ =
        some ((this.yellowCoBody event).pause event) :=
      resume_frames (y := this) rfl haborted h.paired
    have hbody := body_aligned (y := this) event hquit
    rw [coEnter_eq (t := this.yellowCoBody event) hquit rfl]
    generalize this.yellowCoBody event = t at hresume hbody
    rw [stack, hquit, if_neg Bool.false_ne_true, enterStack, hresume]
    by_cases haborted' : t.aborted = true
    · rw [pause, if_pos haborted', if_pos (.inl haborted'), answer, if_pos haborted', hquit,
        if_neg Bool.false_ne_true]
      exact ⟨rfl, fun hlive => by cases haborted'.symm.trans hlive⟩
    · have hlive := Bool.eq_false_iff.2 haborted'
      obtain ⟨hpaired, hquit', hstart⟩ := hbody hlive
      by_cases hyield : t.yield = true
      · rw [pause_yielded hlive hyield, if_pos (.inr hyield), answer, if_neg haborted',
          if_pos hyield, stack, hquit', if_neg Bool.false_ne_true]
        exact ⟨rfl, fun _ => ⟨hpaired, fun h => by cases hquit'.symm.trans h⟩⟩
      · have hend := Bool.eq_false_iff.2 hyield
        rw [pause_returned hlive hend, if_neg (not_or.2 ⟨haborted', hyield⟩), answer,
          if_neg haborted', if_neg hyield, stack, if_pos rfl]
        exact ⟨rfl, fun _ => ⟨.inr (.inr (hstart hend)), fun _ => rfl⟩⟩

/-- What the macros answer to the frames of `y`, and the frames they leave. -/
inductive MacrosAgree (y : YellowFrames) (event : Option ColodEvent) :
    Except CoFault (Resumed ℤ ℤ × Coroutine ℤ × YellowCall) → Prop
  | fault (fault : CoFault) (haborted : (y.coEnter event).aborted = true) :
      MacrosAgree y event (.error fault)
  | answer {c : Coroutine ℤ} (haborted : (y.coEnter event).aborted = false)
      (hin : (y.coEnter event).In c) :
      MacrosAgree y event (.ok (if (y.coEnter event).yield then .yielded 0 else .finished 0, c,
        ⟨(y.coEnter event).data, event⟩))

theorem In.stands {c : Coroutine ℤ} (hin : y.In c) (h : y.Aligned) :
    yellowFunctions.Stands .yellowCo c y.stack := by
  have hline := hin.line
  have hdelay := hin.delayLine
  cases hquit : y.coroutineQuit with
  | true =>
    have hstart := h.finished hquit
    have hdelayLine : y.delayLine = .start := by
      have hpaired := h.paired
      rw [Paired, hstart] at hpaired
      simpa using hpaired
    rw [stack, if_pos hquit]
    refine ⟨hin.quit.trans hquit, hin.frame, fun i _ => ?_⟩
    rw [hstart] at hline
    rw [hdelayLine] at hdelay
    match i with
    | 0 => exact hline
    | 1 => exact hdelay
    | i + 2 => exact hin.unused (i + 2) (by omega)
  | false =>
    rw [stack, hquit, if_neg Bool.false_ne_true]
    have hfresh (hwait : y.line ≠ .delayYellow ∧ y.line ≠ .delayUnyellow) :
        c.Remembers 1 ([] : List (YellowFunction × ℕ)) := by
      have hstart := (h.paired.resolve_left hwait.1).resolve_left hwait.2
      rw [hstart] at hdelay
      intro i hi
      match i with
      | 1 => exact hdelay
      | i + 2 => exact hin.unused (i + 2) (by omega)
    have hwaiting (targetEvent : ColodEvent) (hchain : yellowFunctions.label .yellowCo
        y.line.number = some (.recurse (.yellowDelayCo targetEvent))) :
        yellowFunctions.Stands .yellowCo c (.suspended [(.yellowCo, y.line.number),
          (.yellowDelayCo targetEvent, y.delayLine.number)]) := by
      refine ⟨hin.quit.trans hquit, hin.frame, ⟨hline, hdelay, hin.unused⟩,
        ⟨rfl, _, hchain, rfl, ?_⟩, by simp [coroutineStackSize]⟩
      cases y.delayLine <;> rfl
    have hplain (hwait : y.line ≠ .delayYellow ∧ y.line ≠ .delayUnyellow)
        (hlabel : yellowFunctions.label .yellowCo y.line.number = some .plain) :
        yellowFunctions.Stands .yellowCo c (.suspended [(.yellowCo, y.line.number)]) :=
      ⟨hin.quit.trans hquit, hin.frame, ⟨hline, hfresh hwait⟩, ⟨rfl, hlabel⟩,
        by simp [coroutineStackSize]⟩
    unfold frames
    cases hy : y.line with
    | delayYellow =>
      rw [hy] at hwaiting
      exact hwaiting .yellow rfl
    | delayUnyellow =>
      rw [hy] at hwaiting
      exact hwaiting .unyellow rfl
    | start | notifiedYellow | notifiedUnyellow =>
      rw [hy] at hplain
      exact hplain (by simp) rfl

/-- Frames that remember the stack of `y` are those of `y`. -/
theorem In.of_stands {c : Coroutine ℤ} (h : y.Aligned)
    (hstands : yellowFunctions.Stands .yellowCo c y.stack) : y.In c := by
  cases hquit : y.coroutineQuit with
  | true =>
    rw [stack, if_pos hquit] at hstands
    have hstart := h.finished hquit
    have hdelayLine : y.delayLine = .start := by
      have hpaired := h.paired
      rw [Paired, hstart] at hpaired
      simpa using hpaired
    exact ⟨hstands.1.trans hquit.symm, hstands.2.1,
      (hstands.2.2 0 (Nat.zero_le 0)).trans (by rw [hstart]; rfl),
      (hstands.2.2 1 (Nat.zero_le 1)).trans (by rw [hdelayLine]; rfl),
      fun i _ => hstands.2.2 i (Nat.zero_le i)⟩
  | false =>
    rw [stack, hquit, if_neg Bool.false_ne_true] at hstands
    obtain ⟨hc, hframe, hlines, -⟩ := hstands
    have hfresh (hwait : y.line ≠ .delayYellow ∧ y.line ≠ .delayUnyellow) :
        y.delayLine.number = 0 := by
      rw [(h.paired.resolve_left hwait.1).resolve_left hwait.2]
      rfl
    unfold frames at hlines
    cases hy : y.line with
    | delayYellow | delayUnyellow =>
      rw [hy] at hlines
      exact ⟨hc.trans hquit.symm, hframe, hlines.1.trans (by rw [hy]; rfl), hlines.2.1,
        hlines.2.2⟩
    | start | notifiedYellow | notifiedUnyellow =>
      rw [hy] at hlines
      exact ⟨hc.trans hquit.symm, hframe, hlines.1.trans (by rw [hy]),
        (hlines.2 1 (Nat.le_refl 1)).trans (hfresh (by simp [hy])).symm,
        fun i hi => hlines.2 i (by omega)⟩

theorem macros_agree {c : Coroutine ℤ} (hin : y.In c) (h : y.Aligned)
    (haborted : y.aborted = false) (event : Option ColodEvent) :
    ∃ n r, yellowFunctions.enterFrames .yellowCo n c ⟨y.data, event⟩ = some r ∧
      y.MacrosAgree event r := by
  obtain ⟨hstack, haligned⟩ := enterStack_answer event haborted h
  obtain ⟨n, r, hr⟩ := enterFrames_complete (hin.stands h) hstack
  refine ⟨n, r, hr, ?_⟩
  obtain ⟨fault, k, rfl, hsound⟩ | ⟨answer, c', stack', call, k, rfl, hstands, hsound⟩ :=
    enterFrames_sound (hin.stands h) hr
  · have hanswer := Option.some.inj ((enterStack_add hstack k).symm.trans (hsound 3))
    refine .fault fault ?_
    by_contra hlive
    rw [YellowFrames.answer, if_neg hlive] at hanswer
    cases hanswer
  · have hanswer := Option.some.inj ((enterStack_add hstack k).symm.trans (hsound 3))
    by_cases hlive : (y.coEnter event).aborted = true
    · rw [YellowFrames.answer, if_pos hlive] at hanswer
      cases hanswer
    · rw [YellowFrames.answer, if_neg hlive] at hanswer
      cases hanswer
      have haborted' := Bool.eq_false_iff.2 hlive
      exact .answer haborted' (In.of_stands (haligned haborted') hstands)

/-- A debouncer that has not aborted is aligned. -/
def Sound (y : YellowFrames) : Prop := y.aborted = false → y.Aligned

/-- What else changes leaves the frames alone. -/
theorem Sound.congr (h : y.Sound) (haborted : t.aborted = false → y.aborted = false)
    (hline : t.line = y.line) (hdelayLine : t.delayLine = y.delayLine)
    (hquit : t.coroutineQuit = y.coroutineQuit) : t.Sound := by
  intro hlive
  obtain ⟨hpaired, hfinished⟩ := h (haborted hlive)
  refine ⟨?_, fun ht => hline.trans (hfinished (hquit.symm.trans ht))⟩
  rw [Paired, hline, hdelayLine]
  exact hpaired

theorem coEnter_sound (h : y.Sound) (haborted : y.aborted = false) (event : Option ColodEvent) :
    (y.coEnter event).Sound := fun hlive => (enterStack_answer event haborted (h haborted)).2 hlive

theorem queueEvent_sound (h : y.Sound) (haborted : y.aborted = false) (event : ColodEvent) :
    (y.yellowQueueEvent event).Sound := by
  have hentered := coEnter_sound h haborted (some event)
  unfold yellowQueueEvent
  generalize y.coEnter (some event) = t at hentered
  dsimp only
  by_cases hyield : t.aborted ∨ t.yield
  · rwa [if_pos hyield]
  · rw [if_neg hyield]
    exact hentered.congr id rfl rfl rfl

theorem yellowCo_sound (h : y.Sound) (haborted : y.aborted = false) : y.yellowCo.Sound := by
  have hentered := coEnter_sound h haborted none
  unfold yellowCo
  generalize y.coEnter none = t at hentered
  dsimp only
  by_cases hyield : t.aborted ∨ t.yield
  · rwa [if_pos hyield]
  · rw [if_neg hyield]
    intro hlive
    cases hlive

theorem step_sound {monitorInterface : Option String} {input : Input} (h : y.Sound)
    (hstep : step monitorInterface y input = some t) : t.Sound := by
  unfold step at hstep
  by_cases haborted : y.aborted = true
  · rw [if_pos haborted] at hstep
    cases hstep
  · rw [if_neg haborted] at hstep
    have hlive := Bool.eq_false_iff.2 haborted
    have hrecord (entry : YellowEntry) : (y.record entry).Sound := h.congr id rfl rfl rfl
    cases input with
    | link ifname up =>
      dsimp only at hstep
      by_cases hnotified : y.notified = true
      · rw [if_pos hnotified, Option.some.injEq] at hstep
        rw [← hstep]
        unfold yellowNetlinkEventCb
        by_cases hname : monitorInterface = some ifname
        · rw [if_pos hname]
          exact queueEvent_sound (hrecord _) hlive _
        · rwa [if_neg hname]
      · rw [if_neg hnotified] at hstep
        cases hstep
    | expire id =>
      dsimp only at hstep
      obtain ⟨source, -, rfl⟩ := Option.map_eq_some_iff.1 hstep
      exact (yellowCo_sound (hrecord _) hlive).congr (fun h => h) rfl rfl rfl
    | shutdown =>
      simp only [Option.some.injEq] at hstep
      rw [← hstep]
      unfold yellowShutdown
      by_cases hquit : y.quit = true
      · rwa [if_pos hquit]
      · rw [if_neg hquit]
        have hclosed : ({ y with notified := false }.record .quit).Sound :=
          h.congr id rfl rfl rfl
        have hqueued := queueEvent_sound hclosed hlive .quit
        generalize ({ y with notified := false }.record .quit).yellowQueueEvent .quit = t at hqueued
        dsimp only
        by_cases hend : t.aborted ∨ t.quit
        · rwa [if_pos hend]
        · rw [if_neg hend]
          intro hlive
          cases hlive

theorem sound_new : new.Sound := fun _ => ⟨.inr (.inr rfl), fun _ => rfl⟩

/-- Whatever has happened to the debouncer, the macros resume its frames as `coEnter` does. -/
theorem run_macros_agree {monitorInterface : Option String} {inputs : List Input}
    (hrun : run (step monitorInterface) new inputs = some y) (haborted : y.aborted = false)
    {c : Coroutine ℤ} (hin : y.In c) (event : Option ColodEvent) :
    ∃ n r, yellowFunctions.enterFrames .yellowCo n c ⟨y.data, event⟩ = some r ∧
      y.MacrosAgree event r := by
  have hsound : y.Sound := run_invariant (fun _ _ _ hstep h => step_sound h hstep) hrun sound_new
  exact macros_agree hin (hsound haborted) haborted event

theorem run_macros_agree_linkDown :
    let y := new.yellowNetlinkEventCb (some "eth0") "eth0" false
    ∃ n r, yellowFunctions.enterFrames .yellowCo n
        ⟨false, true, some 0, 0, fun i => if i = 0 then 122 else if i = 1 then 83 else 0⟩
        ⟨y.data, none⟩ = some r ∧ y.MacrosAgree none r := by
  have hrun : run (step (some "eth0")) new [.link "eth0" false] =
      some (new.yellowNetlinkEventCb (some "eth0") "eth0" false) := rfl
  refine run_macros_agree hrun rfl ⟨rfl, rfl, rfl, rfl, fun i hi => ?_⟩ none
  dsimp only
  rw [if_neg (by omega), if_neg (by omega)]

end YellowFrames

end ColoDaemon
