import ColoDaemon.PidFile

/-!
# The start in the background

`os_daemonize` forks twice and leaves a pipe to the process that was started, which waits in
`colod_read_full` for the byte that `os_daemonize_post_init` writes. A process that ends closes its
end of the pipe. `read` sets `errno` only when it fails, so that at the end of the file
`colod_read_full` looks at the `errno` of an earlier call.
-/

namespace ColoDaemon
namespace Daemonize
open PidFile

/-! ### `colod_read_full` -/

inductive ReadAnswer
  | bytes (bytes : List UInt8)
  | eof
  | error (errno : Errno)
  deriving DecidableEq, Repr

/-- `colod_read_full` before a `read`: what it has read, and how much is left. -/
structure ReadFull where
  buf : List UInt8
  count : ℕ
  errno : Errno
  deriving DecidableEq, Repr

/-- Goes on after a `read`, or returns what was read. -/
def ReadFull.resume (r : ReadFull) : ReadAnswer → ReadFull ⊕ List UInt8
  | .bytes bytes =>
    if r.count ≤ bytes.length then .inr (r.buf ++ bytes)
    else .inl { r with buf := r.buf ++ bytes, count := r.count - bytes.length }
  | .eof => if r.errno = EINTR then .inl r else .inr r.buf
  | .error errno => if errno = EINTR then .inl { r with errno } else .inr r.buf

/-! ### The processes -/

/-- The process that was started, with the status it exits with. -/
inductive Parent
  | reading (r : ReadFull)
  | exited (success : Bool)
  deriving DecidableEq, Repr

/-- The process between the two calls of `fork`. -/
inductive Child
  | setsid
  | forking
  | ended
  deriving DecidableEq, Repr

/-- What the daemon does before its main loop, in its order. -/
inductive Stage
  | chdir
  | openLog
  | writePidfile
  | openQmp
  | openMngmt
  | openCpg
  | postInit
  | mainloop
  deriving DecidableEq, Repr

/-- What has to succeed before the parent may report success. -/
def Stage.order : List Stage :=
  [chdir, openLog, writePidfile, openQmp, openMngmt, openCpg, postInit]

def Stage.before (stage : Stage) : List Stage :=
  Stage.order.takeWhile (· != stage)

def Stage.next : Stage → Stage
  | chdir => openLog
  | openLog => writePidfile
  | writePidfile => openQmp
  | openQmp => openMngmt
  | openMngmt => openCpg
  | openCpg => postInit
  | postInit => mainloop
  | mainloop => mainloop

inductive Daemon
  | unborn
  | running (stage : Stage)
  | ended
  deriving DecidableEq, Repr

/-- `done` lists what the daemon has got through, `readFailed` says that a `read` of the parent
failed with something else than `EINTR`. -/
structure Start where
  parent : Parent
  child : Child
  daemon : Daemon
  pipe : List UInt8
  done : List Stage
  readFailed : Bool
  deriving DecidableEq, Repr

/-- After the first `fork`. -/
def Start.init (errno : Errno) : Start where
  parent := .reading ⟨[], 1, errno⟩
  child := .setsid
  daemon := .unborn
  pipe := []
  done := []
  readFailed := false

/-- Some process has the pipe open for writing. -/
def Start.writers (s : Start) : Bool :=
  s.child != .ended ||
    match s.daemon with
    | .running stage => stage != .mainloop
    | _ => false

inductive Label
  /-- A `read` of the parent, which fails only while it waits. -/
  | read (error : Option Errno)
  | setsid (ok : Bool)
  | fork (ok : Bool)
  | stage (ok : Bool)
  /-- The `write` of `colod_write_full` in `os_daemonize_post_init`. -/
  | write (error : Option Errno)
  | childDies
  | daemonDies
  deriving DecidableEq, Repr

/-- The parent after the answer to its `read`. -/
def Parent.answered (r : ReadFull) (answer : ReadAnswer) : Parent :=
  match r.resume answer with
  | .inl r => .reading r
  | .inr buf => .exited (buf == [0])

def Start.step (s : Start) : Label → Option Start
  | .read none =>
    match s.parent, s.pipe with
    | .reading r, byte :: pipe => some { s with parent := .answered r (.bytes [byte]), pipe }
    | .reading r, [] => if s.writers then none else some { s with parent := .answered r .eof }
    | .exited _, _ => none
  | .read (some errno) =>
    match s.parent, s.pipe with
    | .reading r, [] =>
      if s.writers then
        some { s with
          parent := .answered r (.error errno), readFailed := s.readFailed || errno != EINTR }
      else none
    | _, _ => none
  | .setsid ok =>
    if s.child = .setsid then some { s with child := if ok then .forking else .ended } else none
  | .fork ok =>
    if s.child = .forking then
      some { s with child := .ended, daemon := if ok then .running .chdir else .unborn }
    else none
  | .stage ok =>
    match s.daemon with
    | .running stage =>
      if stage = .postInit ∨ stage = .mainloop then none
      else if ok then
        some { s with daemon := .running stage.next, done := s.done ++ [stage] }
      else some { s with daemon := .ended }
    | _ => none
  | .write none =>
    if s.daemon = .running .postInit then
      some { s with
        daemon := .running .mainloop, pipe := s.pipe ++ [0], done := s.done ++ [.postInit] }
    else none
  | .write (some errno) =>
    if s.daemon = .running .postInit then
      some { s with daemon := if errno = EINTR then s.daemon else .ended }
    else none
  | .childDies => if s.child = .ended then none else some { s with child := .ended }
  | .daemonDies =>
    match s.daemon with
    | .running _ => some { s with daemon := .ended }
    | _ => none

/-! ### What the parent reports -/

def Start.started (s : Start) : Prop :=
  s.done = Stage.order

instance (s : Start) : Decidable s.started :=
  inferInstanceAs (Decidable (_ = _))

theorem Stage.before_next {stage : Stage} (h : stage ≠ .mainloop) :
    stage.next.before = stage.before ++ [stage] := by
  cases stage with
  | mainloop => exact absurd rfl h
  | chdir | openLog | writePidfile | openQmp | openMngmt | openCpg | postInit => rfl

theorem Stage.before_ne_order {stage : Stage} (h : stage ≠ .mainloop) :
    stage.before ≠ Stage.order := by
  cases stage with
  | mainloop => exact absurd rfl h
  | chdir | openLog | writePidfile | openQmp | openMngmt | openCpg | postInit => decide

/-- Nobody will write into the pipe any more, and nobody has. -/
def Start.Abandoned (s : Start) : Prop :=
  s.writers = false ∧ ¬ s.started

/-- The parent has read nothing while it reads, and what it exited with has a reason. -/
structure Start.Sound (s : Start) : Prop where
  reading : ∀ r, s.parent = .reading r →
    r.buf = [] ∧ r.count = 1 ∧ s.pipe = if s.started then [0] else []
  success : s.parent = .exited true → s.started
  failure : s.parent = .exited false → s.readFailed = true ∨ s.Abandoned
  running : ∀ stage, s.daemon = .running stage → s.done = stage.before
  unborn : s.child ≠ .ended → s.daemon = .unborn ∧ s.done = []

theorem Start.Sound.init (errno : Errno) : (Start.init errno).Sound where
  reading := by
    intro r hr
    cases hr
    exact ⟨rfl, rfl, rfl⟩
  success := by simp [Start.init]
  failure := by simp [Start.init]
  running := by simp [Start.init]
  unborn := fun _ => ⟨rfl, rfl⟩

section Steps
variable {s t : Start}

/-- A step that leaves the pipe and the parent alone. -/
structure Quiet (s t : Start) : Prop where
  parent : t.parent = s.parent
  pipe : t.pipe = s.pipe
  readFailed : t.readFailed = s.readFailed
  started : t.started ↔ s.started
  writers : s.writers = true

theorem Start.Sound.quiet (h : s.Sound) (hq : Quiet s t)
    (running : ∀ stage, t.daemon = .running stage → t.done = stage.before)
    (unborn : t.child ≠ .ended → t.daemon = .unborn ∧ t.done = []) : t.Sound where
  reading := by
    intro r hr
    simp only [hq.pipe, hq.started]
    exact h.reading r (hq.parent ▸ hr)
  success := fun hp => hq.started.mpr (h.success (hq.parent ▸ hp))
  failure := by
    intro hp
    rcases h.failure (hq.parent ▸ hp) with hf | hf
    · exact .inl (hq.readFailed.trans hf)
    · exact absurd hf.1 (by simp [hq.writers])
  running := running
  unborn := unborn

theorem writers_child (h : s.child ≠ .ended) : s.writers = true := by
  simp [Start.writers, h]

theorem writers_daemon {stage : Stage} (h : s.daemon = .running stage) (hs : stage ≠ .mainloop) :
    s.writers = true := by
  simp [Start.writers, h, hs]

theorem Start.Sound.child_ended {stage : Stage} (h : s.Sound) (hd : s.daemon = .running stage) :
    s.child = .ended := by
  by_contra hc
  have := (h.unborn hc).1
  rw [hd] at this
  cases this

theorem Start.Sound.not_started {stage : Stage} (h : s.Sound) (hd : s.daemon = .running stage)
    (hs : stage ≠ .mainloop) : ¬ s.started := by
  intro hstarted
  apply Stage.before_ne_order hs
  rw [← h.running stage hd]
  exact hstarted

/-- The step of a process that is not the parent, before the daemon has written the byte. -/
theorem Start.Sound.child (h : s.Sound) (hc : s.child ≠ .ended) {child : Child} {daemon : Daemon}
    (hd : daemon = .unborn ∨ child = .ended ∧ daemon = .running .chdir) :
    { s with child, daemon }.Sound := by
  obtain ⟨-, hdone⟩ := h.unborn hc
  refine h.quiet ⟨rfl, rfl, rfl, Iff.rfl, writers_child hc⟩ ?_ ?_
  · intro stage hstage
    rcases hd with rfl | ⟨-, rfl⟩
    · cases hstage
    · cases hstage
      exact hdone
  · intro hchild
    rcases hd with rfl | ⟨rfl, -⟩
    · exact ⟨rfl, hdone⟩
    · exact absurd rfl hchild

theorem Start.Sound.daemonEnds (h : s.Sound) {stage : Stage} (hd : s.daemon = .running stage) :
    { s with daemon := .ended }.Sound where
  reading := h.reading
  success := h.success
  failure := by
    intro hp
    refine (h.failure hp).imp_right fun hf => ⟨?_, hf.2⟩
    simp [Start.writers, h.child_ended hd]
  running := by simp
  unborn := fun hc => absurd (h.child_ended hd) hc

theorem Start.Sound.stage (h : s.Sound) {stage : Stage} (hd : s.daemon = .running stage)
    (hs : stage ≠ .postInit) (hm : stage ≠ .mainloop) :
    { s with daemon := .running stage.next, done := s.done ++ [stage] }.Sound := by
  have hdone : s.done ++ [stage] = stage.next.before := by
    rw [h.running stage hd, Stage.before_next hm]
  have hnext : stage.next ≠ .mainloop := by
    cases stage <;> simp_all [Stage.next]
  refine h.quiet ⟨rfl, rfl, rfl, ?_, writers_daemon hd hm⟩ ?_ ?_
  · apply iff_of_false
    · intro hstarted
      exact Stage.before_ne_order hnext (hdone.symm.trans hstarted)
    · exact h.not_started hd hm
  · intro next hn
    cases hn
    exact hdone
  · intro hc
    exact absurd (h.child_ended hd) hc

theorem Start.Sound.write (h : s.Sound) (hd : s.daemon = .running .postInit) :
    { s with
      daemon := .running .mainloop, pipe := s.pipe ++ [0]
      done := s.done ++ [Stage.postInit] }.Sound := by
  have hdone : s.done ++ [.postInit] = Stage.order := by
    rw [h.running _ hd]
    rfl
  refine ⟨fun r hr => ?_, fun _ => hdone, fun hp => ?_, fun stage hs => ?_, fun hc => ?_⟩
  · obtain ⟨hbuf, hcount, hpipe⟩ := h.reading r hr
    rw [if_neg (h.not_started hd (by decide))] at hpipe
    simp [hbuf, hcount, hpipe, Start.started, hdone]
  · rcases h.failure hp with hf | hf
    · exact .inl hf
    · exact absurd hf.1 (by simp [writers_daemon hd (by decide)])
  · cases hs
    exact hdone
  · exact absurd (h.child_ended hd) hc

/-- What the answer to a `read` makes of a parent that has read nothing. -/
theorem answered_bytes {r : ReadFull} (hb : r.buf = []) (hc : r.count = 1) (byte : UInt8) :
    Parent.answered r (.bytes [byte]) = .exited (byte == 0) := by
  simp [Parent.answered, ReadFull.resume, hb, hc]

theorem answered_eof {r : ReadFull} (hb : r.buf = []) :
    Parent.answered r .eof = if r.errno = EINTR then .reading r else .exited false := by
  simp only [Parent.answered, ReadFull.resume, hb]
  split_ifs <;> rfl

theorem answered_error {r : ReadFull} (hb : r.buf = []) (errno : Errno) :
    Parent.answered r (.error errno) =
      if errno = EINTR then .reading { r with errno } else .exited false := by
  simp only [Parent.answered, ReadFull.resume, hb]
  split_ifs <;> rfl

theorem Start.Sound.parent (h : s.Sound) {parent : Parent} {pipe : List UInt8} {readFailed : Bool}
    (reading : ∀ r, parent = .reading r →
      r.buf = [] ∧ r.count = 1 ∧ pipe = if s.started then [0] else [])
    (success : parent = .exited true → s.started)
    (failure : parent = .exited false → readFailed = true ∨ s.Abandoned) :
    { s with parent, pipe, readFailed }.Sound :=
  ⟨reading, success, failure, h.running, h.unborn⟩

/-- What a `read` that returns does. The three cases are those of `colod_read_full`. -/
theorem Start.Sound.read (h : s.Sound) (hstep : s.step (.read none) = some t) : t.Sound := by
  simp only [Start.step] at hstep
  cases hp : s.parent with
  | exited ok => simp [hp] at hstep
  | reading r =>
    obtain ⟨hbuf, hcount, hpipe⟩ := h.reading r hp
    by_cases hstarted : s.started
    · rw [if_pos hstarted] at hpipe
      simp only [hp, hpipe, answered_bytes hbuf hcount, Option.some.injEq] at hstep
      subst hstep
      exact h.parent (fun _ hr => by cases hr) (fun _ => hstarted) (fun hr => by cases hr)
    · rw [if_neg hstarted] at hpipe
      simp only [hp, hpipe, Option.ite_none_left_eq_some, Option.some.injEq] at hstep
      obtain ⟨hwriters, rfl⟩ := hstep
      rw [answered_eof hbuf]
      split_ifs
      · apply h.parent
        · intro r' hr
          cases hr
          exact ⟨hbuf, hcount, (if_neg hstarted).symm⟩
        · intro hr
          cases hr
        · intro hr
          cases hr
      · apply h.parent
        · intro r' hr
          cases hr
        · intro hr
          cases hr
        · exact fun _ => .inr ⟨by simpa using hwriters, hstarted⟩

theorem Start.Sound.readError (h : s.Sound) {errno : Errno}
    (hstep : s.step (.read (some errno)) = some t) : t.Sound := by
  simp only [Start.step] at hstep
  cases hp : s.parent with
  | exited ok => simp [hp] at hstep
  | reading r =>
    obtain ⟨hbuf, hcount, hpipe⟩ := h.reading r hp
    by_cases hstarted : s.started
    · rw [if_pos hstarted] at hpipe
      simp [hp, hpipe] at hstep
    · have hempty := hpipe
      rw [if_neg hstarted] at hempty
      simp only [hp, hempty, Option.ite_none_right_eq_some, Option.some.injEq] at hstep
      obtain ⟨-, rfl⟩ := hstep
      rw [answered_error hbuf]
      split_ifs with herrno
      · apply h.parent
        · intro r' hr
          cases hr
          exact ⟨hbuf, hcount, hempty.symm.trans hpipe⟩
        · intro hr
          cases hr
        · intro hr
          cases hr
      · apply h.parent
        · intro r' hr
          cases hr
        · intro hr
          cases hr
        · exact fun _ => .inl (by simp [herrno])

theorem Start.Sound.step (h : s.Sound) {l : Label} (hstep : s.step l = some t) : t.Sound := by
  cases l with
  | read error =>
    cases error with
    | none => exact h.read hstep
    | some errno => exact h.readError hstep
  | setsid ok =>
    simp only [Start.step, Option.ite_none_right_eq_some, Option.some.injEq] at hstep
    obtain ⟨hc, rfl⟩ := hstep
    have hne : s.child ≠ .ended := by simp [hc]
    have hd := (h.unborn hne).1
    exact h.child hne (.inl hd)
  | fork ok =>
    simp only [Start.step, Option.ite_none_right_eq_some, Option.some.injEq] at hstep
    obtain ⟨hc, rfl⟩ := hstep
    apply h.child (by simp [hc])
    cases ok with
    | true => exact .inr ⟨rfl, rfl⟩
    | false => exact .inl rfl
  | stage ok =>
    simp only [Start.step] at hstep
    cases hd : s.daemon with
    | unborn | ended => simp [hd] at hstep
    | running stage =>
      simp only [hd, Option.ite_none_left_eq_some, not_or] at hstep
      obtain ⟨⟨hs, hm⟩, hstep⟩ := hstep
      cases ok with
      | true =>
        cases hstep
        exact h.stage hd hs hm
      | false =>
        cases hstep
        exact h.daemonEnds hd
  | write error =>
    cases error with
    | none =>
      simp only [Start.step, Option.ite_none_right_eq_some, Option.some.injEq] at hstep
      obtain ⟨hd, rfl⟩ := hstep
      exact h.write hd
    | some errno =>
      simp only [Start.step, Option.ite_none_right_eq_some, Option.some.injEq] at hstep
      obtain ⟨hd, rfl⟩ := hstep
      split_ifs
      · exact h
      · exact h.daemonEnds hd
  | childDies =>
    simp only [Start.step, Option.ite_none_left_eq_some, Option.some.injEq] at hstep
    obtain ⟨hc, rfl⟩ := hstep
    exact h.child hc (.inl (h.unborn hc).1)
  | daemonDies =>
    simp only [Start.step] at hstep
    cases hd : s.daemon with
    | unborn | ended => simp [hd] at hstep
    | running stage =>
      simp only [hd, Option.some.injEq] at hstep
      subst hstep
      exact h.daemonEnds hd

theorem sound_run {errno : Errno} {ls : List Label}
    (hrun : Runs.run Start.step (Start.init errno) ls = some t) : t.Sound :=
  Runs.run_invariant (fun _ _ _ hstep h => h.step hstep) hrun (.init errno)

end Steps

/-- The exit status the user sees: success only after all of the initialisation, failure only when
it can not complete any more or when the `read` itself failed. -/
theorem parent_reports {errno : Errno} {ls : List Label} {t : Start} {ok : Bool}
    (hrun : Runs.run Start.step (Start.init errno) ls = some t) (hparent : t.parent = .exited ok) :
    (ok = true → t.done = Stage.order) ∧
      (ok = false → t.readFailed = true ∨ t.writers = false ∧ t.done ≠ Stage.order) := by
  have h := sound_run hrun
  constructor
  · rintro rfl
    exact h.success hparent
  · rintro rfl
    exact h.failure hparent

theorem parent_reports_success :
    let t : Start := ⟨.exited true, .ended, .running .mainloop, [], Stage.order, false⟩
    (true = true → t.done = Stage.order) ∧
      (true = false → t.readFailed = true ∨ t.writers = false ∧ t.done ≠ Stage.order) := by
  have hrun : Runs.run Start.step (Start.init 0)
      [.read (some EINTR), .setsid true, .fork true, .stage true, .stage true, .stage true,
        .stage true, .stage true, .stage true, .write (some EINTR), .write none, .read none] =
      some ⟨.exited true, .ended, .running .mainloop, [], Stage.order, false⟩ := rfl
  exact parent_reports hrun rfl

/-! ### The parent that waits for ever -/

section Waits
variable {s t : Start}

/-- The parent can still exit, and not because a `read` fails. -/
def Start.CanExit (s : Start) : Prop :=
  ∃ ls t ok, Runs.run Start.step s ls = some t ∧ t.parent = .exited ok ∧
    t.readFailed = s.readFailed

theorem Start.CanExit.step {l : Label} (h : t.CanExit) (hstep : s.step l = some t)
    (hread : t.readFailed = s.readFailed) : s.CanExit := by
  obtain ⟨ls, u, ok, hrun, hparent, hu⟩ := h
  exact ⟨l :: ls, u, ok, Runs.run_cons_eq_some.mpr ⟨t, hstep, hrun⟩, hparent, hu.trans hread⟩

/-- At the end of the file the parent goes on with the `errno` of an earlier call. -/
def Start.Spins (s : Start) : Prop :=
  s.Abandoned ∧ s.pipe = [] ∧ ∃ r, s.parent = .reading r ∧ r.buf = [] ∧ r.errno = EINTR

theorem Start.Abandoned.child (h : s.Abandoned) : s.child = .ended := by
  by_contra hc
  have := h.1
  rw [writers_child hc] at this
  cases this

theorem Start.Abandoned.daemon {stage : Stage} (h : s.Abandoned) (hd : s.daemon = .running stage) :
    stage = .mainloop := by
  by_contra hs
  have := h.1
  rw [writers_daemon hd hs] at this
  cases this

/-- Only the end of the main loop, or another `read` that finds nothing, can follow. -/
theorem Start.Spins.step (h : s.Spins) {l : Label} (hstep : s.step l = some t) : t.Spins := by
  obtain ⟨ha, hpipe, r, hr, hbuf, herrno⟩ := h
  cases l with
  | read error =>
    cases error with
    | none =>
      simp only [Start.step, hr, hpipe, ha.1, Bool.false_eq_true, if_false, answered_eof hbuf,
        herrno, if_true, Option.some.injEq] at hstep
      subst hstep
      exact ⟨ha, rfl, r, rfl, hbuf, herrno⟩
    | some errno => simp [Start.step, hr, hpipe, ha.1] at hstep
  | setsid ok => simp [Start.step, ha.child] at hstep
  | fork ok => simp [Start.step, ha.child] at hstep
  | childDies => simp [Start.step, ha.child] at hstep
  | stage ok =>
    simp only [Start.step] at hstep
    cases hd : s.daemon with
    | unborn | ended => simp [hd] at hstep
    | running stage => simp [hd, ha.daemon hd] at hstep
  | write error =>
    have hd : s.daemon ≠ .running .postInit := fun hd => by cases ha.daemon hd
    cases error <;> simp [Start.step, hd] at hstep
  | daemonDies =>
    simp only [Start.step] at hstep
    cases hd : s.daemon with
    | unborn | ended => simp [hd] at hstep
    | running stage =>
      simp only [hd, Option.some.injEq] at hstep
      subst hstep
      refine ⟨⟨?_, ha.2⟩, hpipe, r, hr, hbuf, herrno⟩
      simp [Start.writers, ha.child]

theorem Start.Spins.not_canExit (h : s.Spins) : ¬ s.CanExit := by
  rintro ⟨ls, t, ok, hrun, hparent, -⟩
  obtain ⟨-, -, r, hr, -, -⟩ :=
    Runs.run_invariant (P := Start.Spins) (fun _ _ _ hstep h => h.step hstep) hrun h
  rw [hparent] at hr
  cases hr

theorem canExit_exited {ok : Bool} (h : s.parent = .exited ok) : s.CanExit :=
  ⟨[], s, ok, rfl, h, rfl⟩

theorem canExit_started (h : s.Sound) (hstarted : s.started) : s.CanExit := by
  cases hp : s.parent with
  | exited ok => exact canExit_exited hp
  | reading r =>
    obtain ⟨hbuf, hcount, hpipe⟩ := h.reading r hp
    rw [if_pos hstarted] at hpipe
    have hstep : s.step (.read none) = some { s with parent := .exited true, pipe := [] } := by
      simp only [Start.step, hp, hpipe, answered_bytes hbuf hcount]
      rfl
    exact (canExit_exited rfl).step hstep rfl

/-- The daemon gets through the rest of its initialisation. -/
theorem canExit_stage {stage : Stage} (hs : stage ≠ .mainloop) (h : s.Sound)
    (hd : s.daemon = .running stage) : s.CanExit := by
  have hpost : ∀ s : Start, s.Sound → s.daemon = .running .postInit → s.CanExit := by
    intro s h hd
    have hstep : s.step (.write none) = some _ := if_pos hd
    refine Start.CanExit.step ?_ hstep rfl
    apply canExit_started (h.step hstep)
    exact congrArg (· ++ [Stage.postInit]) (h.running _ hd)
  have hnext : ∀ stage : Stage, stage ≠ .postInit → stage ≠ .mainloop →
      (∀ s : Start, s.Sound → s.daemon = .running stage.next → s.CanExit) →
        ∀ s : Start, s.Sound → s.daemon = .running stage → s.CanExit := by
    intro stage hp hm ih s h hd
    have hstep : s.step (.stage true) =
        some { s with daemon := .running stage.next, done := s.done ++ [stage] } := by
      simp [Start.step, hd, hp, hm]
    exact (ih _ (h.step hstep) rfl).step hstep rfl
  have hcpg := hnext .openCpg (by decide) (by decide) hpost
  have hmngmt := hnext .openMngmt (by decide) (by decide) hcpg
  have hqmp := hnext .openQmp (by decide) (by decide) hmngmt
  have hpid := hnext .writePidfile (by decide) (by decide) hqmp
  have hlog := hnext .openLog (by decide) (by decide) hpid
  have hchdir := hnext .chdir (by decide) (by decide) hlog
  cases stage with
  | chdir => exact hchdir s h hd
  | openLog => exact hlog s h hd
  | writePidfile => exact hpid s h hd
  | openQmp => exact hqmp s h hd
  | openMngmt => exact hmngmt s h hd
  | openCpg => exact hcpg s h hd
  | postInit => exact hpost s h hd
  | mainloop => exact absurd rfl hs

theorem canExit_forking (h : s.Sound) (hc : s.child = .forking) : s.CanExit := by
  have hstep : s.step (.fork true) = some _ := if_pos hc
  refine Start.CanExit.step ?_ hstep rfl
  exact canExit_stage (by decide : Stage.chdir ≠ .mainloop) (h.step hstep) rfl

theorem canExit_writers (h : s.Sound) (hw : s.writers = true) : s.CanExit := by
  cases hc : s.child with
  | setsid =>
    have hstep : s.step (.setsid true) = some _ := if_pos hc
    refine Start.CanExit.step ?_ hstep rfl
    exact canExit_forking (h.step hstep) rfl
  | forking => exact canExit_forking h hc
  | ended =>
    cases hd : s.daemon with
    | unborn | ended => simp [Start.writers, hc, hd] at hw
    | running stage =>
      have hs : stage ≠ .mainloop := by simpa [Start.writers, hc, hd] using hw
      exact canExit_stage hs h hd

end Waits

/-- The parent is stuck exactly when its last failed `read` was interrupted and the daemon then
ends, or ended, without having written the byte: `colod_read_full` does not tell the end of the file
from an error. -/
theorem parent_stuck_iff {errno : Errno} {ls : List Label} {s : Start} {r : ReadFull}
    (hrun : Runs.run Start.step (Start.init errno) ls = some s) (hparent : s.parent = .reading r) :
    ¬ s.CanExit ↔ r.errno = EINTR ∧ s.writers = false ∧ s.done ≠ Stage.order := by
  have h := sound_run hrun
  obtain ⟨hbuf, hcount, hpipe⟩ := h.reading r hparent
  constructor
  · intro hstuck
    have hw : s.writers = false := by
      by_contra hw
      exact hstuck (canExit_writers h (by simpa using hw))
    have hstarted : ¬ s.started := fun hs => hstuck (canExit_started h hs)
    refine ⟨?_, hw, hstarted⟩
    by_contra herrno
    rw [if_neg hstarted] at hpipe
    have hstep : s.step (.read none) = some { s with parent := .exited false } := by
      simp [Start.step, hparent, hpipe, hw, answered_eof hbuf, herrno]
    exact hstuck ((canExit_exited rfl).step hstep rfl)
  · rintro ⟨herrno, hw, hdone⟩
    have hspins : s.Spins := by
      refine ⟨⟨hw, hdone⟩, ?_, r, hparent, hbuf, herrno⟩
      rw [hpipe]
      exact if_neg hdone
    exact hspins.not_canExit

theorem parent_stuck_iff_noLog :
    let s : Start := ⟨.reading ⟨[], 1, EINTR⟩, .ended, .ended, [], [.chdir], false⟩
    ¬ s.CanExit ↔ EINTR = EINTR ∧ s.writers = false ∧ s.done ≠ Stage.order := by
  have hrun : Runs.run Start.step (Start.init 0)
      [.read (some EINTR), .setsid true, .fork true, .stage true, .stage false] =
      some ⟨.reading ⟨[], 1, EINTR⟩, .ended, .ended, [], [.chdir], false⟩ := rfl
  exact parent_stuck_iff hrun rfl

end Daemonize
end ColoDaemon
