import ColoDaemon.EventQueue
import ColoDaemon.Cpg

/-!
# The link debouncer

`YellowPc` are the suspension points of `_yellow_co` and the `_yellow_delay_co` it calls. `idle`
stands for the three points at which no timer runs and the next event is looked at from the top of
`_yellow_delay_co`: before the first event, after a notification, and the yield for an event other
than the target. A resumption yields the messages it sends and the notifications it makes, in
order.
-/

namespace ColoDaemon

inductive YellowPc
  | idle
  | timer1
  | timer2
  deriving DecidableEq, Repr

inductive YellowAction
  | send (message : ColodMessage)
  | notify (event : ColodEvent)
  deriving DecidableEq, Repr

structure YellowCoroutine where
  targetEvent : ColodEvent
  pc : YellowPc
  timers : ℕ
  quit : Bool
  aborted : Bool
  deriving DecidableEq, Repr

def YellowCoroutine.new : YellowCoroutine where
  targetEvent := .yellow
  pc := .idle
  timers := 0
  quit := false
  aborted := false

def yellowSendTargetMessage (targetEvent : ColodEvent) : YellowAction :=
  if targetEvent = .yellow then .send .yellow else .send .unyellow

def yellowSendRevertMessage (targetEvent : ColodEvent) : YellowAction :=
  if targetEvent = .yellow then .send .unyellow else .send .yellow

/-- The top of the loop of `_yellow_delay_co`; no event fails `assert(event)`. -/
def yellowDelayTop (this : YellowCoroutine) (event : Option ColodEvent) : YellowCoroutine :=
  match event with
  | none => { this with aborted := true }
  | some event =>
    if event = .quit then { this with quit := true }
    else if event ≠ this.targetEvent then { this with pc := .idle }
    else { this with pc := .timer1, timers := this.timers + 1 }

/-- One resumption of `_yellow_co`; `none` is the event 0 of an expired timer, whose source the
main loop removes. -/
def yellowCoResume (this : YellowCoroutine) (event : Option ColodEvent) :
    YellowCoroutine × List YellowAction :=
  match this.pc with
  | .idle => (yellowDelayTop this event, [])
  | .timer1 =>
    match event with
    | none =>
      ({ this with pc := .timer2, timers := this.timers + 1 },
        [yellowSendTargetMessage this.targetEvent])
    | some event =>
      if event = this.targetEvent then (this, [])
      else (yellowDelayTop { this with timers := this.timers - 1 } event, [])
  | .timer2 =>
    match event with
    | none =>
      ({ this with
          pc := .idle
          targetEvent := if this.targetEvent = .yellow then .unyellow else .yellow },
        [.notify this.targetEvent])
    | some event =>
      if event = this.targetEvent then (this, [])
      else (yellowDelayTop { this with timers := this.timers - 1 } event,
        [yellowSendRevertMessage this.targetEvent])

/-- `yellow_co`, dispatched by an expired timer. -/
def yellowCo (this : YellowCoroutine) : YellowCoroutine × List YellowAction :=
  let (this, actions) := yellowCoResume { this with timers := this.timers - 1 } none
  (if this.quit then { this with aborted := true } else this, actions)

def yellowQueueEvent (this : YellowCoroutine) (event : ColodEvent) :
    YellowCoroutine × List YellowAction :=
  if this.quit then ({ this with aborted := true }, [])
  else yellowCoResume this (some event)

def yellowShutdown (this : YellowCoroutine) : YellowCoroutine × List YellowAction :=
  if this.quit then (this, []) else yellowQueueEvent this .quit

/-- `yellow_netlink_event_cb`; `yellow_shutdown` removes the callback. -/
def yellowNetlinkEventCb (this : YellowCoroutine) (monitorInterface : Option String)
    (ifname : String) (up : Bool) : YellowCoroutine × List YellowAction :=
  if this.quit ∨ monitorInterface ≠ some ifname then (this, [])
  else yellowQueueEvent this (if up then .unyellow else .yellow)

end ColoDaemon
