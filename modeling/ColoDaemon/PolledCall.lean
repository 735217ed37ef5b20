import Mathlib.Data.List.Basic
import ColoDaemon.Runs

/-!
# Calls that poll and wait

A call tries an operation that does not block. While that gets nowhere, the call attaches a watch
to the main loop and suspends; whatever resumes it, it tries again, unless its own timer has fired.
`turn` is the loop body: what the call does with the answer of the operation. The sources are kept
by id. `withoutUnrelated` takes the resumptions out of a schedule that neither the watch nor the
timer made: with the retry, if that gets nowhere, and else as resumptions by the watch.
-/

namespace PolledCall
open Runs
variable {σ ρ ε α : Type}

/-- What the loop body does with an answer. -/
inductive Turn (σ ε α : Type)
  | wait
  | next (stage : σ)
  | finish (stage : σ) (result : Except ε α)

inductive Waker
  | watch
  | timeout
  | unrelated (id : ℕ)
  deriving DecidableEq, Repr

/-- An answer of the operation, with the number of ids that go to other sources before the watch
gets one, or a resumption. -/
inductive Label (ρ : Type)
  | answer (answer : ρ) (skipped : ℕ)
  | resume (waker : Waker)
  deriving DecidableEq, Repr

inductive Outcome (ε α : Type)
  | timedOut
  | failed (err : ε)
  | ok (value : α)
  deriving DecidableEq, Repr

structure Call (σ ε α : Type) where
  stage : σ
  timeoutSourceId : ℕ
  ioSourceId : ℕ
  /-- The sources of this call that are attached to the main loop. -/
  sources : List ℕ
  nextId : ℕ
  /-- The source that is being dispatched. -/
  current : ℕ
  suspended : Bool
  outcome : Option (Outcome ε α)
  /-- A source was removed that is not there. -/
  missing : Bool

namespace Call

/-- What stays attached when the dispatch is over, which removes the current source. -/
def attached (this : Call σ ε α) : List ℕ := this.sources.filter (· ≠ this.current)

def removeSource (this : Call σ ε α) (id : ℕ) : Call σ ε α :=
  { this with
    sources := this.sources.filter (· ≠ id)
    missing := this.missing || decide (id ∉ this.sources) }

end Call

section Step
variable (timeout : ℕ)

/-- The start of a call, in a frame that holds two old ids. -/
def start (stage : σ) (current skipped : ℕ) (frame : ℕ × ℕ) : Call σ ε α where
  stage := stage
  timeoutSourceId := if timeout = 0 then frame.1 else current + 1 + skipped
  ioSourceId := frame.2
  sources := if timeout = 0 then [] else [current + 1 + skipped]
  nextId := current + 2 + skipped
  current := current
  suspended := false
  outcome := none
  missing := false

def leave (this : Call σ ε α) (outcome : Outcome ε α) : Call σ ε α :=
  { (if timeout = 0 then this else this.removeSource this.timeoutSourceId) with
    outcome := some outcome }

def suspend (this : Call σ ε α) (skipped : ℕ) : Call σ ε α :=
  let id := this.nextId + skipped
  { this with
    ioSourceId := id
    sources := (this.sources ++ [id]).filter (· ≠ this.current)
    nextId := id + 1
    suspended := true }

/-- What the call does when the source `id` has resumed it. -/
def woken (this : Call σ ε α) (id : ℕ) : Call σ ε α :=
  let this := { this with current := id, suspended := false, nextId := max this.nextId (id + 1) }
  if timeout ≠ 0 ∧ id = this.timeoutSourceId then
    leave timeout (this.removeSource this.ioSourceId) .timedOut
  else if id ≠ this.ioSourceId then this.removeSource this.ioSourceId
  else this

/-- The source that resumes the call; an unrelated one is none of those attached. -/
def wakerId (this : Call σ ε α) : Waker → Option ℕ
  | .watch => if this.ioSourceId ∈ this.sources then some this.ioSourceId else none
  | .timeout =>
    if timeout ≠ 0 ∧ this.timeoutSourceId ∈ this.sources then some this.timeoutSourceId else none
  | .unrelated id => if id ∈ this.sources then none else some id

def answered (this : Call σ ε α) (skipped : ℕ) : Turn σ ε α → Call σ ε α
  | .wait => suspend this skipped
  | .next stage => { this with stage }
  | .finish stage (.ok value) => leave timeout { this with stage } (.ok value)
  | .finish stage (.error err) => leave timeout { this with stage } (.failed err)

def step (turn : σ → ρ → Option (Turn σ ε α)) (this : Call σ ε α) (label : Label ρ) :
    Option (Call σ ε α) :=
  if this.outcome.isSome then none
  else
    match label with
    | .answer r skipped =>
      if this.suspended then none
      else (turn this.stage r).map (answered timeout this skipped)
    | .resume waker =>
      if this.suspended then (wakerId timeout this waker).map (woken timeout this) else none

end Step

/-- The schedule without the unrelated resumptions. -/
def withoutUnrelated (fruitless : ρ → Bool) : List (Label ρ) → List (Label ρ)
  | .resume (.unrelated _) :: .answer r skipped :: labels =>
    if fruitless r then withoutUnrelated fruitless labels
    else .resume .watch :: .answer r skipped :: withoutUnrelated fruitless labels
  | .resume (.unrelated _) :: labels => withoutUnrelated fruitless labels
  | label :: labels => label :: withoutUnrelated fruitless labels
  | [] => []

/-- The answers that got the call anywhere. -/
def productive (fruitless : ρ → Bool) (labels : List (Label ρ)) : List ρ :=
  labels.filterMap fun
    | .answer r _ => if fruitless r then none else some r
    | .resume _ => none

def Label.isUnrelated : Label ρ → Bool
  | .resume (.unrelated _) => true
  | _ => false

/-! ### The sources of a call -/

section Sources
variable {timeout : ℕ} {turn : σ → ρ → Option (Turn σ ε α)} {c d : Call σ ε α}

/-- The timer of the call. -/
def timer (timeout : ℕ) (c : Call σ ε α) : List ℕ := if timeout = 0 then [] else [c.timeoutSourceId]

structure Sound (timeout : ℕ) (c : Call σ ε α) : Prop where
  missing : c.missing = false
  known : ∀ id ∈ c.sources, id < c.nextId
  current : c.current < c.nextId
  returned : c.outcome ≠ none → c.attached = []
  trying : c.outcome = none → c.suspended = false → c.attached = timer timeout c
  waiting : c.outcome = none → c.suspended = true →
    c.sources = timer timeout c ++ [c.ioSourceId] ∧ c.ioSourceId ∉ timer timeout c

theorem sound_start (stage : σ) (current skipped : ℕ) (frame : ℕ × ℕ) :
    Sound timeout (start timeout stage current skipped frame : Call σ ε α) where
  missing := rfl
  known id hid := by
    simp only [start] at hid ⊢
    split_ifs at hid
    · cases hid
    · rw [List.mem_singleton.mp hid]
      omega
  current := by
    simp only [start]
    omega
  returned h := absurd rfl h
  trying _ _ := by
    unfold Call.attached timer start
    by_cases hzero : timeout = 0
    · simp [hzero]
    · have hne : current + 1 + skipped ≠ current := by omega
      simp [hzero, hne]
  waiting _ h := by cases h

theorem mem_sources_of_attached {id : ℕ} (h : id ∈ c.attached) : id ∈ c.sources :=
  (List.mem_filter.mp h).1

/-- A call that has not suspended leaves nothing behind. -/
theorem sound_leave {outcome : Outcome ε α} (hmissing : c.missing = false)
    (hknown : ∀ id ∈ c.sources, id < c.nextId) (hcurrent : c.current < c.nextId)
    (htimer : c.attached = timer timeout c) : Sound timeout (leave timeout c outcome) := by
  by_cases hzero : timeout = 0
  · have hleave : leave timeout c outcome = { c with outcome := some outcome } := by
      simp [leave, hzero]
    rw [hleave]
    refine ⟨hmissing, hknown, hcurrent, fun _ => ?_, nofun, nofun⟩
    rw [timer, if_pos hzero] at htimer
    exact htimer
  · rw [timer, if_neg hzero] at htimer
    have hleave : leave timeout c outcome =
        { c.removeSource c.timeoutSourceId with outcome := some outcome } := by
      simp [leave, hzero]
    have hmem : c.timeoutSourceId ∈ c.sources := by
      apply mem_sources_of_attached
      rw [htimer]
      exact List.mem_singleton_self _
    rw [hleave]
    refine ⟨?_, ?_, hcurrent, fun _ => ?_, nofun, nofun⟩
    · simp [Call.removeSource, hmissing, hmem]
    · intro id hid
      exact hknown id (List.mem_filter.mp hid).1
    · have hfilter : (c.attached).filter (· ≠ c.timeoutSourceId) = [] := by simp [htimer]
      unfold Call.attached Call.removeSource at *
      rw [List.filter_filter] at hfilter ⊢
      simpa [and_comm] using hfilter

theorem sound_answered {skipped : ℕ} (h : Sound timeout c) (houtcome : c.outcome = none)
    (hsuspended : c.suspended = false) (t : Turn σ ε α) :
    Sound timeout (answered timeout c skipped t) := by
  have htimer := h.trying houtcome hsuspended
  cases t with
  | wait =>
    have hcurrent := h.current
    have hsources : (suspend c skipped).sources = timer timeout c ++ [c.nextId + skipped] := by
      have hne : c.nextId + skipped ≠ c.current := by omega
      unfold suspend
      simp only [List.filter_append]
      rw [← htimer]
      simp [Call.attached, hne]
    have hold : ∀ id ∈ timer timeout c, id < c.nextId := by
      intro id hid
      exact h.known id (mem_sources_of_attached (htimer ▸ hid))
    refine ⟨h.missing, ?_, ?_, fun hreturned => absurd houtcome hreturned, nofun, fun _ _ => ?_⟩
    · intro id hid
      change id ∈ (suspend c skipped).sources at hid
      change id < c.nextId + skipped + 1
      rw [hsources] at hid
      rcases List.mem_append.mp hid with hid | hid
      · have hlt := hold id hid
        omega
      · rw [List.mem_singleton.mp hid]
        omega
    · change c.current < c.nextId + skipped + 1
      omega
    · refine ⟨hsources, ?_⟩
      change c.nextId + skipped ∉ timer timeout c
      intro hmem
      have hlt := hold _ hmem
      omega
  | next stage =>
    exact ⟨h.missing, h.known, h.current, h.returned, h.trying, h.waiting⟩
  | finish stage result =>
    cases result with
    | ok value => exact sound_leave h.missing h.known h.current htimer
    | error err => exact sound_leave h.missing h.known h.current htimer

theorem filter_ne_of_not_mem {l : List ℕ} {id : ℕ} (h : id ∉ l) : l.filter (· ≠ id) = l := by
  apply List.filter_eq_self.mpr
  intro a ha
  simpa using ne_of_mem_of_not_mem ha h

/-- The call as the source `id` resumes it. -/
def resumed (c : Call σ ε α) (id : ℕ) : Call σ ε α :=
  { c with current := id, suspended := false, nextId := max c.nextId (id + 1) }

theorem sources_removeSource_io (hwaiting : c.sources = timer timeout c ++ [c.ioSourceId])
    (hio : c.ioSourceId ∉ timer timeout c) (id : ℕ) :
    ((resumed c id).removeSource c.ioSourceId).sources = timer timeout c ∧
      ((resumed c id).removeSource c.ioSourceId).missing = c.missing := by
  constructor
  · change c.sources.filter (· ≠ c.ioSourceId) = _
    rw [hwaiting, List.filter_append, filter_ne_of_not_mem hio]
    simp
  · change (c.missing || decide (c.ioSourceId ∉ c.sources)) = _
    simp [hwaiting]

/-- The resumption by the watch. -/
theorem woken_watch (h : Sound timeout c) (houtcome : c.outcome = none)
    (hsuspended : c.suspended = true) :
    woken timeout c c.ioSourceId = resumed c c.ioSourceId ∧
      Sound timeout (resumed c c.ioSourceId) := by
  obtain ⟨hwaiting, hio⟩ := h.waiting houtcome hsuspended
  have hnot : ¬ (timeout ≠ 0 ∧ c.ioSourceId = c.timeoutSourceId) := by
    rintro ⟨hzero, heq⟩
    simp [timer, hzero, heq] at hio
  have hmem : c.ioSourceId ∈ c.sources := by simp [hwaiting]
  have hlt := h.known _ hmem
  constructor
  · unfold woken
    rw [if_neg hnot, if_neg (by simp)]
    rfl
  · refine ⟨h.missing, ?_, ?_, fun hreturned => absurd houtcome hreturned, fun _ _ => ?_, nofun⟩
    · intro id hid
      exact Nat.lt_of_lt_of_le (h.known id hid) (Nat.le_max_left _ _)
    · change c.ioSourceId < max c.nextId (c.ioSourceId + 1)
      omega
    · change c.sources.filter (· ≠ c.ioSourceId) = timer timeout c
      rw [hwaiting, List.filter_append, filter_ne_of_not_mem hio]
      simp

/-- An unrelated resumption removes the watch before the call tries again. -/
theorem woken_unrelated {id : ℕ} (h : Sound timeout c) (houtcome : c.outcome = none)
    (hsuspended : c.suspended = true) (hid : id ∉ c.sources) :
    woken timeout c id = (resumed c id).removeSource c.ioSourceId ∧
      Sound timeout ((resumed c id).removeSource c.ioSourceId) := by
  obtain ⟨hwaiting, hio⟩ := h.waiting houtcome hsuspended
  obtain ⟨hsources, hmissing⟩ := sources_removeSource_io hwaiting hio id
  have hne : id ≠ c.ioSourceId := by
    rintro rfl
    exact hid (by simp [hwaiting])
  have hnot : ¬ (timeout ≠ 0 ∧ id = c.timeoutSourceId) := by
    rintro ⟨hzero, rfl⟩
    exact hid (by simp [hwaiting, timer, hzero])
  have htimer : id ∉ timer timeout c := by
    intro hmem
    exact hid (by simp [hwaiting, hmem])
  constructor
  · unfold woken
    rw [if_neg hnot, if_pos hne]
    rfl
  · refine ⟨hmissing.trans h.missing, ?_, ?_, fun hreturned => absurd houtcome hreturned,
      fun _ _ => ?_, nofun⟩
    · intro a ha
      rw [hsources] at ha
      have hmem : a ∈ c.sources := by simp [hwaiting, ha]
      exact Nat.lt_of_lt_of_le (h.known a hmem) (Nat.le_max_left _ _)
    · change id < max c.nextId (id + 1)
      omega
    · unfold Call.attached
      rw [hsources]
      exact filter_ne_of_not_mem htimer

/-- The timer ends the call. -/
theorem woken_timeout (h : Sound timeout c) (houtcome : c.outcome = none)
    (hsuspended : c.suspended = true) (hzero : timeout ≠ 0) :
    (woken timeout c c.timeoutSourceId).outcome = some .timedOut ∧
      (woken timeout c c.timeoutSourceId).stage = c.stage ∧
      Sound timeout (woken timeout c c.timeoutSourceId) := by
  obtain ⟨hwaiting, hio⟩ := h.waiting houtcome hsuspended
  obtain ⟨hsources, hmissing⟩ := sources_removeSource_io hwaiting hio c.timeoutSourceId
  have hwoken : woken timeout c c.timeoutSourceId =
      { ((resumed c c.timeoutSourceId).removeSource c.ioSourceId).removeSource
        c.timeoutSourceId with outcome := some .timedOut } := by
    unfold woken
    rw [if_pos ⟨hzero, rfl⟩, leave, if_neg hzero]
    rfl
  have htimer : timer timeout c = [c.timeoutSourceId] := if_neg hzero
  rw [hwoken]
  refine ⟨rfl, rfl, ?_⟩
  refine ⟨?_, ?_, ?_, fun _ => ?_, nofun, nofun⟩
  · change (((resumed c c.timeoutSourceId).removeSource c.ioSourceId).missing ||
      decide (c.timeoutSourceId ∉
        ((resumed c c.timeoutSourceId).removeSource c.ioSourceId).sources)) = false
    rw [hmissing, hsources, htimer]
    simp [h.missing]
  · intro id hid
    change id ∈ ((resumed c c.timeoutSourceId).removeSource c.ioSourceId).sources.filter _ at hid
    rw [hsources, htimer] at hid
    simp at hid
  · change c.timeoutSourceId < max c.nextId (c.timeoutSourceId + 1)
    omega
  · unfold Call.attached
    change (((resumed c c.timeoutSourceId).removeSource c.ioSourceId).sources.filter
      (· ≠ c.timeoutSourceId)).filter _ = []
    rw [hsources, htimer]
    simp

/-- What a step does. -/
inductive Moves (timeout : ℕ) (turn : σ → ρ → Option (Turn σ ε α)) (c : Call σ ε α) :
    Label ρ → Call σ ε α → Prop
  | answer (r : ρ) (skipped : ℕ) (t : Turn σ ε α) (hsuspended : c.suspended = false)
    (hturn : turn c.stage r = some t) :
    Moves timeout turn c (.answer r skipped) (answered timeout c skipped t)
  | watch (hsuspended : c.suspended = true) :
    Moves timeout turn c (.resume .watch) (resumed c c.ioSourceId)
  | timeout (hsuspended : c.suspended = true) (hzero : timeout ≠ 0) :
    Moves timeout turn c (.resume .timeout) (woken timeout c c.timeoutSourceId)
  | unrelated (id : ℕ) (hsuspended : c.suspended = true) (hid : id ∉ c.sources) :
    Moves timeout turn c (.resume (.unrelated id)) ((resumed c id).removeSource c.ioSourceId)

theorem moves_of_step {label : Label ρ} (h : Sound timeout c)
    (hstep : step timeout turn c label = some d) :
    c.outcome = none ∧ Moves timeout turn c label d := by
  unfold step at hstep
  have hreturned : ¬ c.outcome.isSome = true := by
    intro hsome
    rw [if_pos hsome] at hstep
    cases hstep
  rw [if_neg hreturned] at hstep
  have houtcome : c.outcome = none := by simpa using hreturned
  refine ⟨houtcome, ?_⟩
  cases label with
  | answer r skipped =>
    simp only at hstep
    split_ifs at hstep with hsuspended
    obtain ⟨t, hturn, rfl⟩ := Option.map_eq_some_iff.mp hstep
    exact .answer r skipped t (by simpa using hsuspended) hturn
  | resume waker =>
    simp only at hstep
    split_ifs at hstep with hsuspended
    obtain ⟨id, hid, rfl⟩ := Option.map_eq_some_iff.mp hstep
    cases waker with
    | watch =>
      simp only [wakerId] at hid
      split_ifs at hid
      cases hid
      rw [(woken_watch h houtcome hsuspended).1]
      exact .watch hsuspended
    | timeout =>
      simp only [wakerId] at hid
      split_ifs at hid with hfires
      cases hid
      exact .timeout hsuspended hfires.1
    | unrelated id' =>
      simp only [wakerId] at hid
      split_ifs at hid with hmem
      cases hid
      rw [(woken_unrelated h houtcome hsuspended hmem).1]
      exact .unrelated id hsuspended hmem

theorem Moves.step {label : Label ρ} (h : Sound timeout c) (houtcome : c.outcome = none)
    (hmoves : Moves timeout turn c label d) : PolledCall.step timeout turn c label = some d := by
  have hnone : c.outcome.isSome = false := by simp [houtcome]
  cases hmoves with
  | answer r skipped t hsuspended hturn => simp [PolledCall.step, hnone, hsuspended, hturn]
  | watch hsuspended =>
    obtain ⟨hwaiting, -⟩ := h.waiting houtcome hsuspended
    have hmem : c.ioSourceId ∈ c.sources := by simp [hwaiting]
    simp [PolledCall.step, hnone, hsuspended, wakerId, hmem,
      (woken_watch h houtcome hsuspended).1]
  | timeout hsuspended hzero =>
    obtain ⟨hwaiting, -⟩ := h.waiting houtcome hsuspended
    have hmem : c.timeoutSourceId ∈ c.sources := by simp [hwaiting, timer, hzero]
    simp [PolledCall.step, hnone, hsuspended, wakerId, hzero, hmem]
  | unrelated id hsuspended hid =>
    simp [PolledCall.step, hnone, hsuspended, wakerId, hid,
      (woken_unrelated h houtcome hsuspended hid).1]

theorem Moves.sound {label : Label ρ} (h : Sound timeout c) (houtcome : c.outcome = none)
    (hmoves : Moves timeout turn c label d) : Sound timeout d := by
  cases hmoves with
  | answer r skipped t hsuspended hturn => exact sound_answered h houtcome hsuspended t
  | watch hsuspended => exact (woken_watch h houtcome hsuspended).2
  | timeout hsuspended hzero => exact (woken_timeout h houtcome hsuspended hzero).2.2
  | unrelated id hsuspended hid => exact (woken_unrelated h houtcome hsuspended hid).2

theorem sound_step {label : Label ρ} (hstep : step timeout turn c label = some d)
    (h : Sound timeout c) : Sound timeout d := by
  obtain ⟨houtcome, hmoves⟩ := moves_of_step h hstep
  exact hmoves.sound h houtcome

theorem sound_run {labels : List (Label ρ)} (hrun : run (step timeout turn) c labels = some d)
    (h : Sound timeout c) : Sound timeout d :=
  run_invariant (P := Sound timeout) (fun _ _ _ hstep hc => sound_step hstep hc) hrun h

@[simp] theorem leave_outcome (c : Call σ ε α) (outcome : Outcome ε α) :
    (leave timeout c outcome).outcome = some outcome := rfl

@[simp] theorem leave_stage (c : Call σ ε α) (outcome : Outcome ε α) :
    (leave timeout c outcome).stage = c.stage := by
  unfold leave
  split_ifs <;> rfl

/-- Nothing happens to a call that has returned. -/
theorem step_returned {label : Label ρ} (h : c.outcome ≠ none) :
    step timeout turn c label = none := by
  unfold step
  rw [if_pos (Option.isSome_iff_ne_none.mpr h)]

/-- A call times out when its own timer has resumed it. -/
theorem timedOut_step {label : Label ρ} (h : Sound timeout c)
    (hstep : step timeout turn c label = some d) (hd : d.outcome = some .timedOut) :
    label = .resume .timeout := by
  obtain ⟨houtcome, hmoves⟩ := moves_of_step h hstep
  cases hmoves with
  | answer r skipped t hsuspended hturn =>
    cases t with
    | wait => exact absurd (houtcome.symm.trans hd) nofun
    | next stage => exact absurd (houtcome.symm.trans hd) nofun
    | finish stage result => cases result <;> simp [answered] at hd
  | watch hsuspended => exact absurd (houtcome.symm.trans hd) nofun
  | timeout hsuspended hzero => rfl
  | unrelated id hsuspended hid => exact absurd (houtcome.symm.trans hd) nofun

theorem timedOut_run {labels : List (Label ρ)} (h : Sound timeout c) (houtcome : c.outcome = none)
    (hrun : run (step timeout turn) c labels = some d) (hd : d.outcome = some .timedOut) :
    labels.getLast? = some (.resume .timeout) := by
  rcases List.eq_nil_or_concat labels with rfl | ⟨init, label, rfl⟩
  · cases hrun
    rw [houtcome] at hd
    cases hd
  · rw [List.concat_eq_append] at hrun ⊢
    obtain ⟨u, hu, hstep⟩ := run_snoc_eq_some.mp hrun
    rw [List.getLast?_concat, timedOut_step (sound_run hu h) hstep hd]

/-! ### Two runs -/

/-- The two calls differ in their source ids only. -/
structure Same (c d : Call σ ε α) : Prop where
  stage : d.stage = c.stage
  suspended : d.suspended = c.suspended
  outcome : d.outcome = c.outcome

theorem same_answered {c' : Call σ ε α} (hsame : Same c c') (skipped : ℕ) (t : Turn σ ε α) :
    Same (answered timeout c skipped t) (answered timeout c' skipped t) := by
  cases t with
  | wait => exact ⟨hsame.stage, rfl, hsame.outcome⟩
  | next stage => exact ⟨rfl, hsame.suspended, hsame.outcome⟩
  | finish stage result =>
    have hsuspended : ∀ (b : Call σ ε α) (outcome : Outcome ε α),
        (leave timeout b outcome).suspended = b.suspended := by
      intro b outcome
      unfold leave
      split_ifs <;> rfl
    cases result with
    | ok value =>
      exact ⟨by simp [answered], by simp [answered, hsuspended, hsame.suspended], rfl⟩
    | error err =>
      exact ⟨by simp [answered], by simp [answered, hsuspended, hsame.suspended], rfl⟩

/-- What resumes one call resumes the other. -/
theorem same_step {c' : Call σ ε α} {label : Label ρ} (h : Sound timeout c)
    (h' : Sound timeout c') (hsame : Same c c') (hlabel : label.isUnrelated = false)
    (hstep : step timeout turn c label = some d) :
    ∃ d', step timeout turn c' label = some d' ∧ Same d d' := by
  obtain ⟨houtcome, hmoves⟩ := moves_of_step h hstep
  have houtcome' : c'.outcome = none := hsame.outcome.trans houtcome
  cases hmoves with
  | answer r skipped t hsuspended hturn =>
    have hturn' : turn c'.stage r = some t := by rw [hsame.stage, hturn]
    exact ⟨_, Moves.step h' houtcome'
      (.answer r skipped t (hsame.suspended.trans hsuspended) hturn'),
      same_answered hsame skipped t⟩
  | watch hsuspended =>
    exact ⟨_, Moves.step h' houtcome' (.watch (hsame.suspended.trans hsuspended)),
      hsame.stage, rfl, hsame.outcome⟩
  | timeout hsuspended hzero =>
    have hsuspended' := hsame.suspended.trans hsuspended
    obtain ⟨hfires, hstage, -⟩ := woken_timeout h houtcome hsuspended hzero
    obtain ⟨hfires', hstage', -⟩ := woken_timeout h' houtcome' hsuspended' hzero
    refine ⟨_, Moves.step h' houtcome' (.timeout hsuspended' hzero), ?_, ?_, ?_⟩
    · rw [hstage, hstage', hsame.stage]
    · simp [woken, hzero, leave, Call.removeSource]
    · rw [hfires, hfires']
  | unrelated id => cases hlabel

/-- The answers after which the call waits. -/
def Fruitless (turn : σ → ρ → Option (Turn σ ε α)) (fruitless : ρ → Bool) : Prop :=
  ∀ stage r t, turn stage r = some t → (fruitless r = true ↔ t = .wait)

/-- An unrelated resumption leads to where the watch leads. -/
theorem same_unrelated {c' : Call σ ε α} {id : ℕ} (h : Sound timeout c) (h' : Sound timeout c')
    (hsame : Same c c') (hstep : step timeout turn c (.resume (.unrelated id)) = some d) :
    d.suspended = false ∧ d.stage = c.stage ∧ d.outcome = none ∧
      ∃ d', step timeout turn c' (.resume .watch) = some d' ∧ Same d d' := by
  obtain ⟨houtcome, hmoves⟩ := moves_of_step h hstep
  cases hmoves with
  | unrelated id hsuspended hid =>
    refine ⟨rfl, rfl, houtcome, _, Moves.step h' (hsame.outcome.trans houtcome)
      (.watch (hsame.suspended.trans hsuspended)), hsame.stage, rfl, hsame.outcome⟩

/-- A retry that gets nowhere suspends the call as before. -/
theorem same_retry {c' u : Call σ ε α} {id skipped : ℕ} {r : ρ} {fruitless : ρ → Bool}
    (hfruitless : Fruitless turn fruitless) (h : Sound timeout c) (hsame : Same c c')
    (hwake : step timeout turn c (.resume (.unrelated id)) = some u)
    (hstep : step timeout turn u (.answer r skipped) = some d) (hr : fruitless r = true) :
    Same d c' := by
  obtain ⟨houtcome, hmoves⟩ := moves_of_step h hwake
  cases hmoves with
  | unrelated id hsuspended hid =>
    have hu := sound_step hwake h
    obtain ⟨-, hanswer⟩ := moves_of_step hu hstep
    cases hanswer with
    | answer r skipped t _ hturn =>
      obtain rfl := (hfruitless _ _ _ hturn).mp hr
      exact ⟨hsame.stage, hsame.suspended.trans hsuspended, hsame.outcome⟩

/-- The run without the unrelated resumptions ends as the run does. -/
theorem run_withoutUnrelated {fruitless : ρ → Bool} (hfruitless : Fruitless turn fruitless)
    {labels : List (Label ρ)} {c' : Call σ ε α} (h : Sound timeout c) (h' : Sound timeout c')
    (hsame : Same c c') (hrun : run (step timeout turn) c labels = some d)
    (hd : d.outcome ≠ none) :
    ∃ d', run (step timeout turn) c' (withoutUnrelated fruitless labels) = some d' ∧
      Same d d' := by
  fun_induction withoutUnrelated fruitless labels generalizing c c' with
  | case1 id r skipped labels hr ih =>
    obtain ⟨u, hwake, hrest⟩ := run_cons_eq_some.mp hrun
    obtain ⟨v, hanswer, hrest⟩ := run_cons_eq_some.mp hrest
    have hv : Sound timeout v := sound_step hanswer (sound_step hwake h)
    exact ih hv h' (same_retry hfruitless h hsame hwake hanswer hr) hrest
  | case2 id r skipped labels hr ih =>
    obtain ⟨u, hwake, hrest⟩ := run_cons_eq_some.mp hrun
    obtain ⟨v, hanswer, hrest⟩ := run_cons_eq_some.mp hrest
    obtain ⟨-, -, -, u', hwatch, hu⟩ := same_unrelated h h' hsame hwake
    have hsound := sound_step hwake h
    have hsound' := sound_step hwatch h'
    obtain ⟨v', hanswer', hv⟩ := same_step hsound hsound' hu rfl hanswer
    obtain ⟨d', hrun', hd'⟩ :=
      ih (sound_step hanswer hsound) (sound_step hanswer' hsound') hv hrest
    exact ⟨d', run_cons_eq_some.mpr ⟨u', hwatch, run_cons_eq_some.mpr ⟨v', hanswer', hrun'⟩⟩, hd'⟩
  | case3 id labels hnot ih =>
    obtain ⟨u, hwake, hrest⟩ := run_cons_eq_some.mp hrun
    obtain ⟨hsuspended, -, houtcome, -⟩ := same_unrelated h h' hsame hwake
    exfalso
    cases labels with
    | nil =>
      cases hrest
      exact hd houtcome
    | cons label labels =>
      obtain ⟨v, hstep, -⟩ := run_cons_eq_some.mp hrest
      obtain ⟨-, hmoves⟩ := moves_of_step (sound_step hwake h) hstep
      cases hmoves with
      | answer r skipped t => exact hnot r skipped labels rfl
      | watch hwaits | timeout hwaits | unrelated _ hwaits =>
        rw [hsuspended] at hwaits
        cases hwaits
  | case4 label labels hne hne' ih =>
    obtain ⟨u, hstep, hrest⟩ := run_cons_eq_some.mp hrun
    have hlabel : label.isUnrelated = false := by
      cases label with
      | answer => rfl
      | resume waker =>
        cases waker with
        | unrelated id => exact absurd rfl (hne' id)
        | watch | timeout => rfl
    obtain ⟨u', hstep', hu⟩ := same_step h h' hsame hlabel hstep
    obtain ⟨d', hrun', hd'⟩ := ih (sound_step hstep h) (sound_step hstep' h') hu hrest
    exact ⟨d', run_cons_eq_some.mpr ⟨u', hstep', hrun'⟩, hd'⟩
  | case5 =>
    cases hrun
    exact ⟨c', rfl, hsame⟩

theorem withoutUnrelated_related (fruitless : ρ → Bool) (labels : List (Label ρ)) :
    ∀ label ∈ withoutUnrelated fruitless labels, label.isUnrelated = false := by
  fun_induction withoutUnrelated fruitless labels with
  | case1 id r skipped labels hr ih => exact ih
  | case2 id r skipped labels hr ih =>
    intro label hmem
    simp only [List.mem_cons] at hmem
    rcases hmem with rfl | rfl | hmem
    · rfl
    · rfl
    · exact ih label hmem
  | case3 id labels hnot ih => exact ih
  | case4 label labels hne hne' ih =>
    intro a hmem
    rcases List.mem_cons.mp hmem with rfl | hmem
    · cases a with
      | answer => rfl
      | resume waker =>
        cases waker with
        | unrelated id => exact absurd rfl (hne' id)
        | watch | timeout => rfl
    · exact ih a hmem
  | case5 => simp

/-- No answer that got the call anywhere is dropped. -/
theorem productive_withoutUnrelated (fruitless : ρ → Bool) (labels : List (Label ρ)) :
    productive fruitless (withoutUnrelated fruitless labels) = productive fruitless labels := by
  unfold productive
  fun_induction withoutUnrelated fruitless labels with
  | case1 id r skipped labels hr ih => simp [hr, ih]
  | case2 id r skipped labels hr ih => simp [hr, ih]
  | case3 id labels hnot ih => simp [ih]
  | case4 label labels hne hne' ih => simp [List.filterMap_cons, ih]
  | case5 => rfl

end Sources
end PolledCall
