import ColoDaemon.YellowStack

/-!
# How deep the coroutines call

`CoFunction` lists the coroutine functions of the daemon that have a frame and whom they call
through `co_recurse`. The calls are not recursive, since a read of the yank channel never yanks, so
that nine of the sixteen frames are enough. The only assertion of the macros that is left is the one
against resuming a coroutine that has finished.
-/

namespace ColoDaemon
namespace CoFunctions
variable {F S V Y : Type} {P : CoFunctions F S V Y} {f f₀ : F} {s : S} {n : ℕ}
  {below frames : List (F × ℕ)}

/-- `below` wait for `f`, the nearest one first and `f₀` last. -/
def Waiting (P : CoFunctions F S V Y) (f₀ : F) : F → List (F × ℕ) → Prop
  | f, [] => f = f₀
  | f, (caller, line) :: below =>
    P.label caller line = some (.recurse f) ∧ Waiting P f₀ caller below

theorem Waiting.chain (h : P.Waiting f₀ f below) (hframes : P.Chain f frames) :
    P.Chain f₀ (below.reverse ++ frames) := by
  induction below generalizing f frames with
  | nil =>
    obtain rfl : f = f₀ := h
    exact hframes
  | cons caller below ih =>
    rw [List.reverse_cons, List.append_assoc, List.singleton_append]
    exact ih h.2 (hframes.cons h.1)

/-- Every call goes to a function of smaller height. -/
def Descends (P : CoFunctions F S V Y) (height : F → ℕ) : Prop :=
  ∀ f line callee, P.label f line = some (.recurse callee) → height callee < height f

theorem Waiting.height {height : F → ℕ} (hheight : P.Descends height)
    (h : P.Waiting f₀ f below) : below.length + height f ≤ height f₀ := by
  induction below generalizing f with
  | nil =>
    obtain rfl : f = f₀ := h
    exact Nat.le_of_eq (Nat.zero_add _)
  | cons caller below ih =>
    have hcaller := ih h.2
    have hcallee := hheight _ _ _ h.1
    rw [List.length_cons]
    omega

/-- The stack goes wrong only where a function does. -/
inductive Sane (P : CoFunctions F S V Y) (f₀ : F) : Except CoFault (Pause F V Y × S) → Prop
  | aborted : Sane P f₀ (.error .aborted)
  | returned (v : V) (s : S) : Sane P f₀ (.ok (.returned v, s))
  | suspended {frames : List (F × ℕ)} (value : Y) (s : S) (hchain : P.Chain f₀ frames) :
      Sane P f₀ (.ok (.suspended frames value, s))

theorem drive_sane {height : F → ℕ} (hheight : P.Descends height)
    (hsize : height f₀ < coroutineStackSize) {segment : Segment V Y}
    {r : Except CoFault (Pause F V Y × S)} (h : P.drive n f below segment s = some r)
    (hbelow : P.Waiting f₀ f below) (hlabelled : segment.Labelled (P.label f)) :
    P.Sane f₀ r := by
  induction n generalizing f below segment s with
  | zero => simp [drive] at h
  | succ n ih =>
    cases segment with
    | ret v =>
      cases below with
      | nil =>
        cases h
        exact .returned v s
      | cons caller below => exact ih h hbelow.2 (P.after_labelled ..)
    | yield value line =>
      simp only [drive, Option.some.injEq] at h
      rw [← h]
      have hchain : P.Chain f [(f, line)] := ⟨rfl, hlabelled⟩
      exact .suspended value s (hbelow.chain hchain)
    | recurse line =>
      obtain ⟨callee, hlabel⟩ := hlabelled
      have hroom : below.length + 1 < coroutineStackSize := by
        have hlength := hbelow.height hheight
        have hcallee := hheight _ _ _ hlabel
        omega
      simp only [drive, hlabel, if_pos hroom] at h
      exact ih h ⟨hlabel, hbelow⟩ (P.body_labelled ..)
    | abort =>
      simp only [drive, Option.some.injEq] at h
      rw [← h]
      exact .aborted

theorem resume_sane {height : F → ℕ} (hheight : P.Descends height)
    (hsize : height f₀ < coroutineStackSize) {r : Except CoFault (Pause F V Y × S)}
    (h : P.resume n below frames s = some r) (hbelow : P.Waiting f₀ f below)
    (hframes : P.Chain f frames) : P.Sane f₀ r := by
  induction frames generalizing f below s with
  | nil => exact hframes.elim
  | cons frame frames ih =>
    cases frames with
    | nil =>
      obtain ⟨g, line⟩ := frame
      obtain ⟨rfl, hlabel⟩ := hframes
      exact drive_sane hheight hsize h hbelow (P.body_labelled ..)
    | cons next frames =>
      obtain ⟨g, line⟩ := frame
      obtain ⟨rfl, callee, hlabel, hchain⟩ := hframes
      exact ih h ⟨hlabel, hbelow⟩ hchain

/-- A suspended stack starts with `f₀`. -/
def StartsWith (P : CoFunctions F S V Y) (f₀ : F) : CoStack F → Prop
  | .finished => True
  | .suspended frames => P.Chain f₀ frames

/-- Among the answers, a failed assertion comes after the end of the coroutine. -/
theorem stack_faults {height : F → ℕ} (hheight : P.Descends height)
    (hsize : height f₀ < coroutineStackSize) {stack : CoStack F} (hstack : P.StartsWith f₀ stack)
    {schedule : List (S → S)} {answers : List (Except CoFault (Resumed V Y × S))}
    (h : coAnswers (P.enterStack n) schedule stack s = some answers) {fault : CoFault}
    (hfault : .error fault ∈ answers) :
    fault = .aborted ∨ fault = .assertFailed ∧
      (stack = .finished ∨ ∃ v s, .ok (.finished v, s) ∈ answers) := by
  induction schedule generalizing stack s answers with
  | nil =>
    cases h
    cases hfault
  | cons between rest ih =>
    rw [coAnswers] at h
    cases stack with
    | finished =>
      cases h
      obtain rfl : fault = .assertFailed := by simpa using hfault
      exact .inr ⟨rfl, .inl rfl⟩
    | suspended frames =>
      rw [enterStack] at h
      cases hr : P.resume n [] frames (between s) with
      | none => simp [hr] at h
      | some r =>
        rw [hr] at h
        have hsane := resume_sane hheight hsize hr (f := f₀) rfl hstack
        cases hsane with
        | aborted =>
          cases h
          exact .inl (by simpa using hfault)
        | returned v s' =>
          simp only [Option.map_eq_some_iff] at h
          obtain ⟨answers', h', rfl⟩ := h
          have hrest : .error fault ∈ answers' := by simpa using hfault
          have hfinished : P.StartsWith f₀ .finished := trivial
          refine (ih hfinished h' hrest).imp id fun hend => ?_
          exact ⟨hend.1, .inr ⟨v, s', List.mem_cons_self ..⟩⟩
        | suspended value s' hchain =>
          simp only [Option.map_eq_some_iff] at h
          obtain ⟨answers', h', rfl⟩ := h
          have hrest : .error fault ∈ answers' := by simpa using hfault
          have hsuspended : P.StartsWith f₀ (.suspended _) := hchain
          obtain haborted | ⟨hfailed, hfinished | ⟨v, s, hv⟩⟩ := ih hsuspended h' hrest
          · exact .inl haborted
          · cases hfinished
          · exact .inr ⟨hfailed, .inr ⟨v, s, List.mem_cons_of_mem _ hv⟩⟩

end CoFunctions

/-! ### The functions of the daemon -/

/-- The functions that have a frame. `yank` is the argument of that name. The functions that call
another one without `co_recurse` run in its frame: `_colod_execute_co`, `_colod_stop_co`,
`_handle_stop_co` and their like in that of `__qmp_execute_co`, `_handle_yank_co` in that of
`_qmp_yank_co` and `_colod_check_health_co` in that of `_qemu_query_status_co`. -/
inductive CoFunction
  | colodChannelReadLineTimeoutCo
  | colodChannelWriteTimeoutCo
  | qmpReadLineCo (yank : Bool)
  | qmpExecuteCo (yank : Bool)
  | qmpYankCo
  | qmpHandshakeReadableCo
  | qmpWaitEventCo
  | qmpEventCo
  | colodEventWait
  | colodQmpEventWaitCo
  | colodExecuteArrayCo
  | qemuQueryStatusCo
  | colodFailoverCo
  | colodFailoverSyncCo
  | colodSecondaryWaitCo
  | colodColoRunningCo
  | colodPrimaryWaitCo
  | colodPrimaryStartMigrationCo
  | colodMainCo
  | handleQueryStatusCo
  | colodClientCo
  | colodWatchdogCo
  | colodRaiseTimeoutCo
  | yellowDelayCo
  | yellowCo
  deriving DecidableEq, Repr

namespace CoFunction

/-- The callees of the `co_recurse` of a function. -/
def callees : CoFunction → List CoFunction
  | colodChannelReadLineTimeoutCo | colodChannelWriteTimeoutCo => []
  | qmpReadLineCo true => [colodChannelReadLineTimeoutCo, qmpYankCo, qmpReadLineCo false]
  | qmpReadLineCo false => [colodChannelReadLineTimeoutCo]
  | qmpExecuteCo yank => [colodChannelWriteTimeoutCo, qmpReadLineCo yank]
  | qmpYankCo => [qmpExecuteCo false]
  | qmpHandshakeReadableCo => [qmpReadLineCo false, qmpExecuteCo false]
  | qmpWaitEventCo => []
  | qmpEventCo => [qmpReadLineCo false]
  | colodEventWait => []
  | colodQmpEventWaitCo => [qmpWaitEventCo]
  | colodExecuteArrayCo => [qmpExecuteCo true]
  | qemuQueryStatusCo => [qmpExecuteCo true]
  | colodFailoverCo => [qmpYankCo, colodExecuteArrayCo]
  | colodFailoverSyncCo => [colodEventWait]
  | colodSecondaryWaitCo => [colodQmpEventWaitCo, colodEventWait]
  | colodColoRunningCo => [colodQmpEventWaitCo, colodEventWait]
  | colodPrimaryWaitCo => [colodEventWait]
  | colodPrimaryStartMigrationCo =>
    [qmpExecuteCo true, colodExecuteArrayCo, colodQmpEventWaitCo, colodEventWait]
  | colodMainCo =>
    [qmpExecuteCo true, colodSecondaryWaitCo, colodColoRunningCo, colodPrimaryWaitCo,
      colodPrimaryStartMigrationCo, colodFailoverSyncCo, colodFailoverCo, colodEventWait]
  | handleQueryStatusCo => [qemuQueryStatusCo]
  | colodClientCo =>
    [colodChannelReadLineTimeoutCo, handleQueryStatusCo, qmpYankCo, qmpExecuteCo true,
      colodChannelWriteTimeoutCo]
  | colodWatchdogCo => [qemuQueryStatusCo]
  | colodRaiseTimeoutCo => [qmpWaitEventCo]
  | yellowDelayCo => []
  | yellowCo => [yellowDelayCo]

/-- How many frames the function needs above its own. -/
def height : CoFunction → ℕ
  | colodChannelReadLineTimeoutCo | colodChannelWriteTimeoutCo | qmpWaitEventCo | colodEventWait
  | yellowDelayCo => 0
  | qmpReadLineCo false | colodQmpEventWaitCo | colodFailoverSyncCo | colodPrimaryWaitCo
  | colodRaiseTimeoutCo | yellowCo => 1
  | qmpExecuteCo false | qmpEventCo | colodSecondaryWaitCo | colodColoRunningCo => 2
  | qmpYankCo | qmpHandshakeReadableCo => 3
  | qmpReadLineCo true => 4
  | qmpExecuteCo true => 5
  | colodExecuteArrayCo | qemuQueryStatusCo => 6
  | colodFailoverCo | colodPrimaryStartMigrationCo | handleQueryStatusCo | colodWatchdogCo => 7
  | colodMainCo | colodClientCo => 8

theorem height_callees {f callee : CoFunction} (h : callee ∈ f.callees) :
    callee.height < f.height := by
  revert callee
  cases f with
  | qmpReadLineCo yank | qmpExecuteCo yank => cases yank <;> decide
  | _ => decide

theorem height_le (f : CoFunction) : f.height ≤ 8 := by
  cases f with
  | qmpReadLineCo yank | qmpExecuteCo yank => cases yank <;> decide
  | _ => decide

end CoFunction

/-- The function of the source. -/
def YellowFunction.source : YellowFunction → CoFunction
  | .yellowCo => .yellowCo
  | .yellowDelayCo _ => .yellowDelayCo

theorem YellowFunction.source_callees (f : YellowFunction) (line : ℕ) (callee : YellowFunction)
    (h : yellowFunctions.label f line = some (.recurse callee)) :
    callee.source ∈ f.source.callees := by
  change f.label line = _ at h
  cases f with
  | yellowCo =>
    rw [YellowFunction.label] at h
    split_ifs at h
    · cases h
    · cases h
      decide
    · cases h
      decide
  | yellowDelayCo targetEvent =>
    rw [YellowFunction.label] at h
    split_ifs at h
    cases h

/-- However the functions of the daemon are written, as long as they call each other as those of the
source do, none of the assertions of the macros fails but the one against resuming a coroutine that
has finished. -/
theorem daemon_coroutine_faults {F S V Y : Type} (P : CoFunctions F S V Y)
    (source : F → CoFunction)
    (hcalls : ∀ f line callee, P.label f line = some (.recurse callee) →
      source callee ∈ (source f).callees)
    {f : F} {n : ℕ} {schedule : List (S → S)} {s : S}
    {answers : List (Except CoFault (Resumed V Y × S))}
    (h : coAnswers (P.enterFrames f n) schedule Coroutine.new s = some answers)
    {fault : CoFault} (hfault : .error fault ∈ answers) :
    fault = .aborted ∨ fault = .assertFailed ∧ ∃ v s, .ok (.finished v, s) ∈ answers := by
  have hheight : P.Descends fun f => (source f).height := fun f line callee hlabel =>
    CoFunction.height_callees (hcalls f line callee hlabel)
  have hsize : (source f).height < coroutineStackSize :=
    Nat.lt_of_le_of_lt (CoFunction.height_le _) (by decide)
  obtain ⟨m, hm⟩ := CoFunctions.answers_stack (P.stands_new f) h
  have hfrom : P.StartsWith f (.suspended [(f, 0)]) := P.chain_fresh f
  have hfaults := CoFunctions.stack_faults hheight hsize hfrom hm hfault
  refine hfaults.imp id fun hend => ⟨hend.1, hend.2.resolve_left ?_⟩
  rintro ⟨⟩

theorem daemon_coroutine_faults_quitTwice :
    let answers : List (Except CoFault (Resumed ℤ ℤ × YellowCall)) :=
      [.ok (.finished 0, ⟨.new, some .quit⟩), .error .assertFailed]
    CoFault.assertFailed = .aborted ∨ CoFault.assertFailed = .assertFailed ∧
      ∃ v s, .ok (.finished v, s) ∈ answers := by
  let quit := fun call : YellowCall => { call with event := some .quit }
  have hanswers : coAnswers (yellowFunctions.enterFrames .yellowCo 8) [quit, quit] Coroutine.new
      ⟨.new, none⟩ = some [.ok (.finished 0, ⟨.new, some .quit⟩), .error .assertFailed] := rfl
  exact daemon_coroutine_faults yellowFunctions YellowFunction.source
    YellowFunction.source_callees hanswers (List.mem_cons_of_mem _ (List.mem_singleton.2 rfl))

end ColoDaemon
