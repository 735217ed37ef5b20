import ColoDaemon.EventQueue

/-!
# Queueing events and waking the main coroutine

`EventLoop` holds the event queue together with the wake sources that `_colod_event_queue`
attaches to the main loop. A dispatched source is `current` until the coroutine returns to the
main loop; it is then removed, and for a wake source the destroy notification resets
`wakeSourceId`. `lost` records the events whose `eventqueue_add` failed.
-/

namespace ColoDaemon

/-- The main-loop sources that resume the main coroutine: the idle source of `colod_main_new`, a
wake source, a plain idle source (a fired wait, or one left over from an earlier suspension), the
timeout of `qmp_wait_event`, the grace timer and the sources of a QMP exchange. -/
inductive Source
  | start
  | wake (id : ℕ)
  | resume
  | timeout
  | grace
  | io
  deriving DecidableEq, Repr

structure EventLoop where
  queue : EventQueue
  wakeSourceId : ℕ
  wakeSources : List ℕ
  nextId : ℕ
  current : Option Source
  lost : List ColodEvent

namespace EventLoop

/-- `g_idle_add_full` with `event_wake_source_destroy_cb`; source ids start at 1. -/
def addWakeSource (this : EventLoop) : EventLoop :=
  { this with
    wakeSourceId := this.nextId
    wakeSources := this.wakeSources ++ [this.nextId]
    nextId := this.nextId + 1 }

/-- Return to the main loop with `G_SOURCE_REMOVE`. -/
def yieldRemove (this : EventLoop) : EventLoop :=
  match this.current with
  | some (.wake _) => { this with wakeSourceId := 0, current := none }
  | _ => { this with current := none }

/-- `colod_event_wait` forgets the wake source that it is dispatched by. -/
def forgetCurrent (this : EventLoop) : EventLoop :=
  if this.current = some (.wake this.wakeSourceId) then { this with wakeSourceId := 0 } else this

def setInterrupting (this : EventLoop) (events : List ColodEvent) : EventLoop :=
  { this with queue := eventqueueSetInterrupting this.queue events }

end EventLoop

def colodEventQueue (this : EventLoop) (event : ColodEvent) : EventLoop :=
  let this :=
    if this.wakeSourceId = 0 ∧ (eventqueuePending this.queue = false ∨
        eventqueueEventInterrupting this.queue event) then
      this.addWakeSource
    else this
  if (eventqueueLast this.queue).map Event.event = some event then this
  else
    match eventqueueAdd this.queue event with
    | some queue => { this with queue }
    | none => { this with lost := event :: this.lost }

/-- The result `none` is a yield: the coroutine suspends in this wait and starts it anew when it
is resumed. -/
def colodEventWait (this : EventLoop) : Option ColodEvent × EventLoop :=
  let this := this.forgetCurrent
  if eventqueuePending this.queue = false ∨ this.wakeSourceId ≠ 0 then (none, this.yieldRemove)
  else
    match eventqueueRemove this.queue with
    | none => (none, this.yieldRemove)
    | some (event, queue) => (some event.event, { this with queue })

namespace EventLoop

def kinds (this : EventLoop) : List ColodEvent := this.queue.kinds

/-- Queues several events in order. -/
def queueAll (this : EventLoop) (events : List ColodEvent) : EventLoop :=
  events.foldl colodEventQueue this

/-- Attaches the wake source that `_colod_event_queue` wants for `event`. -/
def wakeFor (this : EventLoop) (event : ColodEvent) : EventLoop :=
  if this.wakeSourceId = 0 ∧ (eventqueuePending this.queue = false ∨
      eventqueueEventInterrupting this.queue event) then
    this.addWakeSource
  else this

end EventLoop

open EventLoop

/-- The three outcomes of queueing: rate limited, added, or lost in a full queue. -/
theorem colodEventQueue_cases (l : EventLoop) (event : ColodEvent) :
    (colodEventQueue l event = l.wakeFor event ∧
      (eventqueueLast l.queue).map Event.event = some event) ∨
    (∃ queue, colodEventQueue l event = { l.wakeFor event with queue } ∧
      eventqueueAdd l.queue event = some queue) ∨
    (colodEventQueue l event =
        { l.wakeFor event with lost := event :: l.lost } ∧
      eventqueueAdd l.queue event = none ∧
      (eventqueueLast l.queue).map Event.event ≠ some event) := by
  have hq : (l.wakeFor event).queue = l.queue := by
    unfold wakeFor
    split_ifs <;> rfl
  have hl : (l.wakeFor event).lost = l.lost := by
    unfold wakeFor
    split_ifs <;> rfl
  have he : colodEventQueue l event =
      if (eventqueueLast (l.wakeFor event).queue).map Event.event = some event then
        l.wakeFor event
      else
        match eventqueueAdd (l.wakeFor event).queue event with
        | some queue => { l.wakeFor event with queue }
        | none => { l.wakeFor event with lost := event :: (l.wakeFor event).lost } := rfl
  rw [hq, hl] at he
  by_cases hlast : (eventqueueLast l.queue).map Event.event = some event
  · rw [if_pos hlast] at he
    exact .inl ⟨he, hlast⟩
  · rw [if_neg hlast] at he
    cases hadd : eventqueueAdd l.queue event with
    | some queue => exact .inr (.inl ⟨queue, by simpa only [hadd] using he, rfl⟩)
    | none => exact .inr (.inr ⟨by simpa only [hadd] using he, rfl, hlast⟩)

theorem last_mem_kinds {queue : EventQueue} {event : ColodEvent}
    (h : (eventqueueLast queue).map Event.event = some event) : event ∈ queue.kinds := by
  obtain ⟨a, ha, rfl⟩ := Option.map_eq_some_iff.mp h
  exact List.mem_map_of_mem (List.mem_of_getLast? ha)

namespace EventLoop
variable {l : EventLoop} {event e : ColodEvent}

@[simp] theorem wakeFor_queue : (l.wakeFor event).queue = l.queue := by
  unfold wakeFor
  split_ifs <;> rfl

@[simp] theorem wakeFor_current : (l.wakeFor event).current = l.current := by
  unfold wakeFor
  split_ifs <;> rfl

@[simp] theorem wakeFor_lost : (l.wakeFor event).lost = l.lost := by
  unfold wakeFor
  split_ifs <;> rfl

@[simp] theorem colodEventQueue_current :
    (colodEventQueue l event).current = l.current := by
  rcases colodEventQueue_cases l event with ⟨h, -⟩ | ⟨_, h, -⟩ | ⟨h, -⟩ <;> simp [h]

@[simp] theorem colodEventQueue_interrupting :
    (colodEventQueue l event).queue.interrupting = l.queue.interrupting := by
  rcases colodEventQueue_cases l event with ⟨h, -⟩ | ⟨_, h, hadd⟩ | ⟨h, -⟩
  · simp [h]
  · simpa [h] using (EventQueue.interrupting_add hadd).1
  · simp [h]

theorem colodEventQueue_interruptFirst (h : l.queue.InterruptFirst) :
    (colodEventQueue l event).queue.InterruptFirst := by
  rcases colodEventQueue_cases l event with ⟨he, -⟩ | ⟨_, he, hadd⟩ | ⟨he, -⟩
  · simpa [he] using h
  · simpa [he] using h.add hadd
  · simpa [he] using h

/-- A pending event stays pending when another one is queued. -/
theorem mem_kinds_colodEventQueue (h : e ∈ l.kinds) : e ∈ (colodEventQueue l event).kinds := by
  rcases colodEventQueue_cases l event with ⟨he, -⟩ | ⟨_, he, hadd⟩ | ⟨he, -⟩
  · simpa [he, kinds] using h
  · simpa [he, kinds] using (EventQueue.mem_kinds_add hadd).mpr (.inr h)
  · simpa [he, kinds] using h

theorem mem_kinds_of_colodEventQueue (h : e ∈ (colodEventQueue l event).kinds) :
    e = event ∨ e ∈ l.kinds := by
  rcases colodEventQueue_cases l event with ⟨he, -⟩ | ⟨_, he, hadd⟩ | ⟨he, -⟩
  · exact .inr (by simpa [he, kinds] using h)
  · exact (EventQueue.mem_kinds_add hadd).mp (by simpa [he, kinds] using h)
  · exact .inr (by simpa [he, kinds] using h)

/-- An event is pending after it was queued, or it was lost. -/
theorem colodEventQueue_mem_or_lost :
    event ∈ (colodEventQueue l event).kinds ∨
      (colodEventQueue l event).lost = event :: l.lost := by
  rcases colodEventQueue_cases l event with ⟨he, hlast⟩ | ⟨_, he, hadd⟩ | ⟨he, -⟩
  · exact .inl (by simpa [he, kinds] using last_mem_kinds hlast)
  · exact .inl (by simpa [he, kinds] using (EventQueue.mem_kinds_add hadd).mpr (.inl rfl))
  · exact .inr (by simp [he])

theorem lost_suffix_colodEventQueue : l.lost <:+ (colodEventQueue l event).lost := by
  rcases colodEventQueue_cases l event with ⟨h, -⟩ | ⟨_, h, -⟩ | ⟨h, -⟩
  · simp [h]
  · simp [h]
  · simp [h, List.suffix_cons]

/-! ### Several events -/

@[simp] theorem queueAll_nil : l.queueAll [] = l := rfl

@[simp] theorem queueAll_cons {events : List ColodEvent} :
    l.queueAll (event :: events) = (colodEventQueue l event).queueAll events := rfl

theorem queueAll_append {events events' : List ColodEvent} :
    l.queueAll (events ++ events') = (l.queueAll events).queueAll events' :=
  List.foldl_append

/-- What queueing one event preserves, queueing several does. -/
theorem queueAll_preserves {P : EventLoop → Prop}
    (h : ∀ l event, P l → P (colodEventQueue l event)) {events : List ColodEvent}
    (hthis : P l) : P (l.queueAll events) := by
  induction events generalizing l with
  | nil => exact hthis
  | cons event events ih => exact ih (h l event hthis)

@[simp] theorem queueAll_current {events : List ColodEvent} :
    (l.queueAll events).current = l.current :=
  queueAll_preserves (P := fun t => t.current = l.current)
    (fun _ _ h => colodEventQueue_current.trans h) rfl

@[simp] theorem queueAll_interrupting {events : List ColodEvent} :
    (l.queueAll events).queue.interrupting = l.queue.interrupting :=
  queueAll_preserves (P := fun t => t.queue.interrupting = l.queue.interrupting)
    (fun _ _ h => colodEventQueue_interrupting.trans h) rfl

theorem queueAll_interruptFirst {events : List ColodEvent} (h : l.queue.InterruptFirst) :
    (l.queueAll events).queue.InterruptFirst :=
  queueAll_preserves (P := fun t => t.queue.InterruptFirst)
    (fun _ _ h => colodEventQueue_interruptFirst h) h

theorem mem_kinds_queueAll {events : List ColodEvent} (h : e ∈ l.kinds) :
    e ∈ (l.queueAll events).kinds :=
  queueAll_preserves (P := fun t => e ∈ t.kinds) (fun _ _ h => mem_kinds_colodEventQueue h) h

theorem mem_kinds_of_queueAll {events : List ColodEvent} (h : e ∈ (l.queueAll events).kinds) :
    e ∈ events ∨ e ∈ l.kinds := by
  induction events generalizing l with
  | nil => exact .inr h
  | cons event events ih =>
    rcases ih h with h | h
    · exact .inl (List.mem_cons_of_mem event h)
    · rcases mem_kinds_of_colodEventQueue h with rfl | h
      · exact .inl List.mem_cons_self
      · exact .inr h

theorem lost_suffix_queueAll {events : List ColodEvent} :
    l.lost <:+ (l.queueAll events).lost :=
  queueAll_preserves (P := fun t => l.lost <:+ t.lost)
    (fun _ _ h => h.trans lost_suffix_colodEventQueue) (List.suffix_refl _)

/-- Every event queued is pending afterwards if none is lost. -/
theorem mem_queueAll_of_lost {events : List ColodEvent} (he : e ∈ events)
    (hlost : (l.queueAll events).lost = []) : e ∈ (l.queueAll events).kinds := by
  induction events generalizing l with
  | nil => cases he
  | cons event events ih =>
    rcases List.mem_cons.mp he with rfl | he
    · have hnil : (colodEventQueue l e).lost = [] :=
        List.suffix_nil.mp (hlost ▸ lost_suffix_queueAll)
      have hmem : e ∈ (colodEventQueue l e).kinds ∨ (colodEventQueue l e).lost = e :: l.lost :=
        colodEventQueue_mem_or_lost
      rcases hmem with h | h
      · exact mem_kinds_queueAll (l := colodEventQueue l e) h
      · rw [hnil] at h
        cases h
    · exact ih he hlost

/-! ### Waiting and returning to the main loop -/

@[simp] theorem yieldRemove_queue : l.yieldRemove.queue = l.queue := by
  unfold yieldRemove
  split <;> rfl

@[simp] theorem yieldRemove_current : l.yieldRemove.current = none := by
  unfold yieldRemove
  split <;> rfl

@[simp] theorem yieldRemove_wakeSources : l.yieldRemove.wakeSources = l.wakeSources := by
  unfold yieldRemove
  split <;> rfl

@[simp] theorem yieldRemove_lost : l.yieldRemove.lost = l.lost := by
  unfold yieldRemove
  split <;> rfl

@[simp] theorem yieldRemove_kinds : l.yieldRemove.kinds = l.kinds := by
  simp [kinds]

@[simp] theorem forgetCurrent_queue : l.forgetCurrent.queue = l.queue := by
  unfold forgetCurrent
  split_ifs <;> rfl

@[simp] theorem forgetCurrent_current : l.forgetCurrent.current = l.current := by
  unfold forgetCurrent
  split_ifs <;> rfl

@[simp] theorem forgetCurrent_wakeSources :
    l.forgetCurrent.wakeSources = l.wakeSources := by
  unfold forgetCurrent
  split_ifs <;> rfl

@[simp] theorem forgetCurrent_lost : l.forgetCurrent.lost = l.lost := by
  unfold forgetCurrent
  split_ifs <;> rfl

/-- A wait suspends exactly when no event is pending or another wake source is known. -/
theorem colodEventWait_none {loop : EventLoop} (h : colodEventWait l = (none, loop)) :
    (l.kinds = [] ∨ l.forgetCurrent.wakeSourceId ≠ 0) ∧
      loop = l.forgetCurrent.yieldRemove := by
  unfold colodEventWait at h
  by_cases hc : eventqueuePending l.queue = false ∨ l.forgetCurrent.wakeSourceId ≠ 0
  · rw [if_pos (by simpa using hc)] at h
    exact ⟨hc.imp_left EventQueue.pending_eq_false.mp, (congrArg Prod.snd h).symm⟩
  · rw [if_neg (by simpa using hc)] at h
    cases hs : l.queue.sequence with
    | nil => simp [eventqueuePending, hs] at hc
    | cons a l => simp [eventqueueRemove, hs] at h

/-- A wait that does not suspend takes the first event off the queue. -/
theorem colodEventWait_some {loop : EventLoop} (h : colodEventWait l = (some event, loop)) :
    ∃ a queue, eventqueueRemove l.queue = some (a, queue) ∧ a.event = event ∧
      l.forgetCurrent.wakeSourceId = 0 ∧ loop = { l.forgetCurrent with queue } := by
  unfold colodEventWait at h
  by_cases hc : eventqueuePending l.queue = false ∨ l.forgetCurrent.wakeSourceId ≠ 0
  · rw [if_pos (by simpa using hc)] at h
    cases congrArg Prod.fst h
  · rw [if_neg (by simpa using hc)] at h
    cases hr : eventqueueRemove l.queue with
    | none => simp [hr] at h
    | some p =>
      simp only [forgetCurrent_queue, hr, Prod.mk.injEq, Option.some.injEq] at h
      exact ⟨p.1, p.2, rfl, h.1, by tauto, h.2.symm⟩

end EventLoop
end ColoDaemon
