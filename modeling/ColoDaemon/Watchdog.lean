import Mathlib.Data.List.Basic

/-!
# The watchdog

`_colod_watchdog_co` waits for a timer, checks the health of qemu and starts again. Every command
and every QMP event puts the timer off. A failed check ends the coroutine for good. The sources
that resume the coroutine while it checks belong to the QMP call and are not listed here; all of its
yields give `G_SOURCE_REMOVE`.
-/

namespace ColoDaemon

/-- The memory that the teardown frees. -/
inductive Object
  | main
  | cpg
  | watchdog
  | listener
  | commands
  | qmp
  deriving DecidableEq, Repr

inductive MemoryFault
  /-- A use after `g_free`. -/
  | freed (object : Object)
  /-- `g_source_remove` of a source that is gone. -/
  | sourceNotFound
  /-- The `abort` of `colod_assert_remove_one_source`. -/
  | moreSources
  /-- A source of the watchdog's own while it checks, or after its end. -/
  | reentered
  deriving DecidableEq, Repr

inductive WatchdogPoint
  | start
  | waiting
  | checking
  | ended
  deriving DecidableEq, Repr

/-- `sources` are the ids of the sources with the coroutine as their data, `notified` says that
`colod_watchdog_event_cb` is registered. -/
structure ColodWatchdog where
  interval : ℕ
  point : WatchdogPoint
  timerId : ℕ
  quit : Bool
  notified : Bool
  sources : List ℕ
  nextId : ℕ
  deriving DecidableEq, Repr

namespace ColodWatchdog

def sourceAdd (state : ColodWatchdog) : ColodWatchdog :=
  { state with sources := state.nextId :: state.sources, nextId := state.nextId + 1 }

def sourceRemove (state : ColodWatchdog) (id : ℕ) : Except MemoryFault ColodWatchdog :=
  if id ∈ state.sources then .ok { state with sources := state.sources.erase id }
  else .error .sourceNotFound

def addTimer (state : ColodWatchdog) : ColodWatchdog :=
  { state.sourceAdd with timerId := state.nextId }

/-- `colod_watchdog_refresh`. -/
def refresh (state : ColodWatchdog) : Except MemoryFault ColodWatchdog :=
  if state.timerId = 0 then .ok state else (state.sourceRemove state.timerId).map addTimer

/-- The end of `colod_watchdog_co`. -/
def ends (state : ColodWatchdog) : Except MemoryFault ColodWatchdog :=
  if state.sources.length ≤ 1 then .ok { state with point := .ended, sources := [] }
  else .error .moreSources

/-- The head of the loop. -/
def loop (state : ColodWatchdog) : Except MemoryFault ColodWatchdog :=
  if state.quit then state.ends else .ok { state.addTimer with point := .waiting }

def checked (state : ColodWatchdog) (ok : Bool) : Except MemoryFault ColodWatchdog :=
  if ok then state.loop else state.ends

/-- `colod_check_health_co` when it is called: it yields or it returns. -/
inductive Check
  | yields
  | returned (ok : Bool)
  deriving DecidableEq, Repr

/-- After the timer. -/
def check (state : ColodWatchdog) : Check → Except MemoryFault ColodWatchdog
  | .yields => .ok { state with timerId := 0, point := .checking }
  | .returned ok => { state with timerId := 0 }.checked ok

/-- The source `id` is dispatched and then removed. -/
def dispatch (state : ColodWatchdog) (id : ℕ) (outcome : Check) :
    Except MemoryFault ColodWatchdog := do
  let next ←
    match state.point with
    | .start => state.loop
    | .waiting => if state.quit then state.ends else state.check outcome
    | .checking | .ended => .error .reentered
  .ok { next with sources := next.sources.erase id }

/-- The first part of `colo_watchdog_free`, where the watchdog is enabled. -/
def free (state : ColodWatchdog) : Except MemoryFault ColodWatchdog :=
  let state := { state with quit := true, notified := false }
  if state.timerId = 0 then .ok state
  else (state.sourceRemove state.timerId).map fun state => { state.sourceAdd with timerId := 0 }

def new (interval : ℕ) : ColodWatchdog where
  interval := interval
  point := .start
  timerId := 0
  quit := false
  notified := interval ≠ 0
  sources := if interval = 0 then [] else [1]
  nextId := if interval = 0 then 1 else 2

/-- What resumes an enabled watchdog: the timer that `timer_id` names, or the idle source of
`colod_watchdog_new` or of `colo_watchdog_free`. -/
def Resumed (state : ColodWatchdog) : Prop :=
  match state.point with
  | .start => state.timerId = 0 ∧ ∃ id, state.sources = [id]
  | .waiting =>
    if state.quit then state.timerId = 0 ∧ ∃ id, state.sources = [id]
    else state.timerId ≠ 0 ∧ state.sources = [state.timerId]
  | .checking | .ended => state.timerId = 0 ∧ state.sources = []

/-- The main context gives every source a new id, and never 0. -/
structure Numbered (state : ColodWatchdog) : Prop where
  nextId : 0 < state.nextId
  known : ∀ id ∈ state.sources, id < state.nextId

structure Sound (state : ColodWatchdog) : Prop extends Numbered state where
  resumed : state.interval ≠ 0 → state.Resumed
  disabled : state.interval = 0 →
    state.notified = false ∧ state.timerId = 0 ∧ state.sources = [] ∧ state.point = .start

theorem new_sound (interval : ℕ) : (new interval).Sound := by
  by_cases h : interval = 0
  · subst h
    exact ⟨⟨Nat.one_pos, by simp [new]⟩, fun h => absurd rfl h, fun _ => ⟨rfl, rfl, rfl, rfl⟩⟩
  · refine ⟨⟨?_, ?_⟩, fun _ => ?_, fun h' => absurd h' h⟩
    · simp [new, h]
    · simp [new, h]
    · exact ⟨rfl, 1, by simp [new, h]⟩

section Steps
variable {state next : ColodWatchdog}

/-- What the steps of the watchdog leave alone. -/
structure Keeps (state next : ColodWatchdog) : Prop where
  interval : next.interval = state.interval
  quit : next.quit = state.quit
  notified : next.notified = state.notified

theorem Sound.timer (h : state.Sound) (ht : state.timerId ≠ 0) :
    state.interval ≠ 0 ∧ state.point = .waiting ∧ state.quit = false ∧
      state.sources = [state.timerId] := by
  have hi : state.interval ≠ 0 := fun hi => ht (h.disabled hi).2.1
  have hr := h.resumed hi
  unfold Resumed at hr
  cases hp : state.point with
  | start | checking | ended =>
    rw [hp] at hr
    exact absurd hr.1 ht
  | waiting =>
    rw [hp] at hr
    cases hq : state.quit with
    | true =>
      simp only [hq, if_true] at hr
      exact absurd hr.1 ht
    | false =>
      simp only [hq, Bool.false_eq_true, if_false] at hr
      exact ⟨hi, rfl, rfl, hr.2⟩

/-- A timer that is started while no source is left resumes the coroutine. -/
theorem Numbered.addTimer (h : state.Numbered) (hi : state.interval ≠ 0) (hq : state.quit = false) :
    { state with
      point := .waiting, timerId := state.nextId, sources := [state.nextId]
      nextId := state.nextId + 1 }.Sound where
  nextId := Nat.succ_pos _
  known := by simp
  resumed := by
    intro _
    have := h.nextId
    simp only [Resumed, hq, Bool.false_eq_true, if_false, and_true]
    omega
  disabled := fun h => absurd h hi

theorem Sound.refresh (h : state.Sound) :
    ∃ next, state.refresh = .ok next ∧ next.Sound ∧ Keeps state next ∧
      next.point = state.point := by
  by_cases ht : state.timerId = 0
  · exact ⟨state, if_pos ht, h, ⟨rfl, rfl, rfl⟩, rfl⟩
  · obtain ⟨hi, hp, hq, hs⟩ := h.timer ht
    refine ⟨_, ?_, h.toNumbered.addTimer hi hq, ⟨rfl, rfl, rfl⟩, hp.symm⟩
    simp [ColodWatchdog.refresh, ht, sourceRemove, hs, Except.map, ColodWatchdog.addTimer,
      sourceAdd, hp]

/-- An ended watchdog has no source. -/
theorem Numbered.ended (h : state.Numbered) (hi : state.interval ≠ 0) (ht : state.timerId = 0) :
    { state with point := .ended, sources := [] }.Sound where
  nextId := h.nextId
  known := by simp
  resumed := fun _ => ⟨ht, rfl⟩
  disabled := fun h => absurd h hi

theorem ends_eq (hs : state.sources.length ≤ 1) :
    state.ends = .ok { state with point := .ended, sources := [] } :=
  if_pos hs

/-- What an own turn of the watchdog leads to. -/
structure Turned (state next : ColodWatchdog) : Prop where
  sound : next.Sound
  keeps : Keeps state next
  ended : state.quit = true → next.point = .ended

/-- The rest of the loop when the QMP call was resumed last. -/
theorem Numbered.checked (h : state.Numbered) (hi : state.interval ≠ 0) (ht : state.timerId = 0)
    (hs : state.sources = []) (ok : Bool) :
    ∃ next, state.checked ok = .ok next ∧ Turned state next := by
  have hends := ends_eq (show state.sources.length ≤ 1 by simp [hs])
  cases ok with
  | false => exact ⟨_, hends, h.ended hi ht, ⟨rfl, rfl, rfl⟩, fun _ => rfl⟩
  | true =>
    cases hq : state.quit with
    | true =>
      refine ⟨_, ?_, h.ended hi ht, ⟨rfl, rfl, rfl⟩, fun _ => rfl⟩
      simp [ColodWatchdog.checked, loop, hq, hends]
    | false =>
      refine ⟨_, ?_, h.addTimer hi hq, ⟨rfl, rfl, rfl⟩, fun hq' => by simp [hq] at hq'⟩
      simp [ColodWatchdog.checked, loop, hq, ColodWatchdog.addTimer, sourceAdd, hs]

/-- The rest of the loop when the source `id` has resumed the coroutine. -/
theorem Numbered.checkedSource (h : state.Numbered) (hi : state.interval ≠ 0)
    (ht : state.timerId = 0) {id : ℕ} (hs : state.sources = [id]) (ok : Bool) :
    ∃ next, state.checked ok = .ok next ∧
      Turned state { next with sources := next.sources.erase id } := by
  have hends := ends_eq (show state.sources.length ≤ 1 by simp [hs])
  cases ok with
  | false => exact ⟨_, hends, h.ended hi ht, ⟨rfl, rfl, rfl⟩, fun _ => rfl⟩
  | true =>
    cases hq : state.quit with
    | true =>
      refine ⟨{ state with point := .ended, sources := [] }, ?_, h.ended hi ht, ⟨rfl, rfl, rfl⟩,
        fun _ => rfl⟩
      simp [ColodWatchdog.checked, loop, hq, hends]
    | false =>
      have hid : id < state.nextId := h.known id (by simp [hs])
      have herase : (state.nextId :: state.sources).erase id = [state.nextId] := by
        rw [hs, List.erase_cons_tail (by simpa using Nat.ne_of_gt hid)]
        simp
      refine ⟨{ state.addTimer with point := .waiting }, ?_, ?_, ⟨rfl, rfl, rfl⟩, ?_⟩
      · simp [ColodWatchdog.checked, loop, hq]
      · simp only [ColodWatchdog.addTimer, sourceAdd, herase]
        exact h.addTimer hi hq
      · intro hq'
        simp [hq] at hq'

theorem Sound.resume (h : state.Sound) (hp : state.point = .checking) (ok : Bool) :
    ∃ next, state.checked ok = .ok next ∧ Turned state next := by
  have hi : state.interval ≠ 0 := by
    intro hi
    rw [(h.disabled hi).2.2.2] at hp
    cases hp
  have hr := h.resumed hi
  simp only [Resumed, hp] at hr
  exact h.toNumbered.checked hi hr.1 hr.2 ok

/-- A source of the watchdog's own is dispatched only where the coroutine waits for it. -/
theorem Sound.source (h : state.Sound) {id : ℕ} (hid : id ∈ state.sources) :
    state.interval ≠ 0 ∧ state.sources = [id] ∧
      (state.point = .start ∧ state.timerId = 0 ∨
        state.point = .waiting ∧ (state.quit = true → state.timerId = 0)) := by
  have hi : state.interval ≠ 0 := by
    intro hi
    rw [(h.disabled hi).2.2.1] at hid
    cases hid
  have hr := h.resumed hi
  unfold Resumed at hr
  cases hp : state.point with
  | start =>
    rw [hp] at hr
    obtain ⟨ht, id', hs⟩ := hr
    rw [hs, List.mem_singleton] at hid
    exact ⟨hi, hid ▸ hs, .inl ⟨rfl, ht⟩⟩
  | waiting =>
    rw [hp] at hr
    cases hq : state.quit with
    | true =>
      simp only [hq, if_true] at hr
      obtain ⟨ht, id', hs⟩ := hr
      rw [hs, List.mem_singleton] at hid
      exact ⟨hi, hid ▸ hs, .inr ⟨rfl, fun _ => ht⟩⟩
    | false =>
      simp only [hq, Bool.false_eq_true, if_false] at hr
      rw [hr.2, List.mem_singleton] at hid
      exact ⟨hi, hid ▸ hr.2, .inr ⟨rfl, fun h => by cases h⟩⟩
  | checking | ended =>
    rw [hp] at hr
    rw [hr.2] at hid
    cases hid

theorem Sound.dispatch (h : state.Sound) {id : ℕ} (hid : id ∈ state.sources) (outcome : Check) :
    ∃ next, state.dispatch id outcome = .ok next ∧ Turned state next := by
  obtain ⟨hi, hs, ⟨hp, ht⟩ | ⟨hp, ht⟩⟩ := h.source hid
  · obtain ⟨next, hnext, hturned⟩ := h.toNumbered.checkedSource hi ht hs true
    refine ⟨_, ?_, hturned⟩
    simp only [ColodWatchdog.checked, if_true] at hnext
    simp [ColodWatchdog.dispatch, hp, hnext, bind, Except.bind]
  · cases hq : state.quit with
    | true =>
      have hends := ends_eq (show state.sources.length ≤ 1 by simp [hs])
      refine ⟨_, ?_, h.toNumbered.ended hi (ht hq), ⟨rfl, rfl, rfl⟩, fun _ => rfl⟩
      simp [ColodWatchdog.dispatch, hp, hq, hends, bind, Except.bind]
    | false =>
      cases outcome with
      | yields =>
        refine ⟨{ state with timerId := 0, point := .checking, sources := [] }, ?_, ?_,
          ⟨rfl, rfl, rfl⟩, ?_⟩
        · simp [ColodWatchdog.dispatch, hp, hq, hs, check, bind, Except.bind]
        · exact ⟨⟨h.nextId, by simp⟩, fun _ => ⟨rfl, rfl⟩, fun h => absurd h hi⟩
        · intro hq'
          simp [hq] at hq'
      | returned ok =>
        have hnumbered : { state with timerId := 0 }.Numbered := ⟨h.nextId, h.known⟩
        obtain ⟨next, hnext, hturned⟩ := hnumbered.checkedSource hi rfl hs ok
        have hcheck : state.check (.returned ok) = .ok next := hnext
        refine ⟨_, ?_, hturned.sound, ⟨hturned.keeps.1, hturned.keeps.2, hturned.keeps.3⟩,
          hturned.ended⟩
        simp [ColodWatchdog.dispatch, hp, hq, hcheck, bind, Except.bind]

theorem Sound.free (h : state.Sound) (hi : state.interval ≠ 0) :
    ∃ next, state.free = .ok next ∧ next.Sound ∧ next.quit = true ∧ next.notified = false ∧
      next.interval = state.interval ∧ next.point = state.point := by
  by_cases ht : state.timerId = 0
  · refine ⟨{ state with quit := true, notified := false }, if_pos ht, ?_, rfl, rfl, rfl, rfl⟩
    refine ⟨⟨h.nextId, h.known⟩, fun _ => ?_, fun h => absurd h hi⟩
    have hr := h.resumed hi
    unfold Resumed at hr ⊢
    cases hp : state.point with
    | start | checking | ended =>
      rw [hp] at hr
      simpa only [hp] using hr
    | waiting =>
      rw [hp] at hr
      simp only [ht] at hr
      simp only [if_true]
      split at hr
      · exact ⟨ht, hr.2⟩
      · exact absurd rfl hr.1
  · obtain ⟨-, hp, hq, hs⟩ := h.timer ht
    refine ⟨{ state with
      quit := true, notified := false, timerId := 0, sources := [state.nextId]
      nextId := state.nextId + 1 }, ?_, ?_, rfl, rfl, rfl, rfl⟩
    · simp [ColodWatchdog.free, ht, sourceRemove, hs, Except.map, sourceAdd]
    · refine ⟨⟨Nat.succ_pos _, by simp⟩, fun _ => ?_, fun h => absurd h hi⟩
      simp [Resumed, hp]

end Steps

end ColodWatchdog
end ColoDaemon
