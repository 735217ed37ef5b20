import ColoDaemon.CommandStore
import ColoDaemon.FailoverArray
import Mathlib.Data.List.TakeDrop

/-!
# A command array while the tables are set again

`Stored` is a daemon together with the JSON nodes behind its command tables. `ArrayRun` follows one
call of `_colod_execute_array_co`: the node it borrowed, the array it found there and the commands
it has sent. The mark `dangling` of the frame says exactly that the borrowed node is gone.
-/

namespace ColoDaemon
open Runs RefCount
variable {s t : Daemon}

/-! ### The frame of the running array -/

def Pc.arrayFrame : Pc → Option ArrayFrame
  | .array co => some co
  | .exec (.element co _) _ _ => some co
  | _ => none

/-- The frame of the running array, and the tables. -/
def Daemon.arrays (s : Daemon) := (s.pc.arrayFrame, s.commands)

def Label.setsCommands : Label → Bool
  | .clientRequest _ (.setCommands ..) => true
  | _ => false

theorem arrays_yellowActions (notified : Bool) (s : Daemon) (actions : List YellowAction) :
    (yellowActions notified s actions).arrays = s.arrays := by
  induction actions generalizing s with
  | nil => rfl
  | cons action actions ih =>
    refine (ih _).trans ?_
    cases action with
    | send message => rfl
    | notify event =>
      simp only [colodYellowEventCb]
      split_ifs <;> rfl

theorem arrays_notifyEvent (s : Daemon) (event : QmpEvent) :
    (notifyEvent s event).arrays = s.arrays := by
  have hmain : (mainWaitEventCb s event).arrays = s.arrays := by
    unfold mainWaitEventCb
    split
    · rename_i hpc
      split_ifs
      · simp [Daemon.arrays, hpc, Pc.arrayFrame]
      · rfl
    · rfl
  have hraise : ∀ u : Daemon, (raiseWaitEventCb u event).arrays = u.arrays := by
    intro u
    unfold raiseWaitEventCb
    split <;> rfl
  have hcb : ∀ u : Daemon, (colodQmpEventCb u event).arrays = u.arrays := by
    intro u
    cases event with
    | quorumReportBad =>
      simp only [colodQmpEventCb]
      split_ifs
      · rfl
      · rfl
      · rfl
      · exact arrays_yellowActions true _ _
    | migration | coloExit =>
      simp only [colodQmpEventCb]
      split_ifs <;> rfl
    | reset =>
      simp only [colodQmpEventCb, colodRaiseTimeoutCoroutine]
      split_ifs <;> rfl
    | stop | resume | other => rfl
  simp only [notifyEvent]
  split_ifs
  · rw [hraise, hmain]
  · rw [hcb, hraise, hmain]

theorem arrays_executeCo (s : Daemon) (reply : Option QmpReply) :
    (colodExecuteCo s reply).2.arrays = s.arrays := by
  obtain ⟨loop, qmpError, didYank, h, -⟩ := executeCo_eq s reply
  rw [h]
  rfl

theorem arrays_cpgEventCb (s : Daemon) (message : ColodMessage) (own left : Bool) :
    (colodCpgEventCb s message own left).arrays = s.arrays := by
  unfold colodCpgEventCb
  cases left with
  | true => rfl
  | false =>
    cases message with
    | hello =>
      simp only [Bool.false_eq_true, if_false]
      split_ifs <;> rfl
    | _ => cases own <;> rfl

theorem arrays_clientDone {i : ℕ} {client : Client} {reply : Option QmpReply}
    (h : clientDone s i client reply = some t) : t.arrays = s.arrays := by
  have hexec := arrays_executeCo s reply
  unfold clientDone at h
  simp only at h
  split at h
  · split_ifs at h
    cases h
    exact hexec
  · split_ifs at h
    cases h
    exact hexec
  · split_ifs at h
    cases h
    exact hexec
  · cases h
    exact hexec
  · cases h
    exact hexec
  · cases h
    exact hexec
  · cases h
    rfl
  · cases h

/-- Among the callbacks only a request that sets a table touches the tables or the frame. -/
theorem arrays_callback {label : Label} (h : s.callback label = some t)
    (hsets : label.setsCommands = false) : t.arrays = s.arrays := by
  cases label with
  | qmpEvent event => cases h; exact arrays_notifyEvent s event
  | raiseDispatch =>
    simp only [Daemon.callback] at h
    split at h
    · split_ifs at h
      cases h
      unfold colodRaiseTimeoutCo
      split <;> rfl
    · cases h
  | cpgDeliver message own =>
    cases h
    dsimp only
    split_ifs
    · rfl
    · exact arrays_cpgEventCb _ message own false
  | cpgLeft =>
    cases h
    dsimp only
    split_ifs
    · rfl
    · exact arrays_cpgEventCb _ .none false true
  | cpgRetransmit | qmpHup =>
    simp only [Daemon.callback] at h
    split_ifs at h
    cases h
    rfl
  | qmpError | nestedYank | clientNew => cases h; rfl
  | link ifname up => cases h; exact arrays_yellowActions true _ _
  | yellowTimer =>
    simp only [Daemon.callback] at h
    split_ifs at h
    cases h
    exact arrays_yellowActions true _ _
  | executeDone reply =>
    cases h
    exact executeCo_snd s reply ▸ arrays_executeCo s reply
  | yankDone reply => cases h; cases reply <;> rfl
  | healthDone status =>
    cases h
    unfold colodCheckHealthCo
    split
    · rfl
    · split_ifs <;> rfl
  | clientRequest i request =>
    simp only [Daemon.callback] at h
    split at h
    · split_ifs at h
      cases h
      cases request with
      | setCommands => cases hsets
      | startMigration =>
        simp only [clientRequest, colodStartMigration]
        split_ifs <;> rfl
      | _ => rfl
    · cases h
  | clientWrite i =>
    obtain ⟨client, -, h⟩ := Option.bind_eq_some_iff.mp h
    unfold clientWrite at h
    split at h <;> cases h <;> rfl
  | clientDone i reply =>
    obtain ⟨client, -, h⟩ := Option.bind_eq_some_iff.mp h
    exact arrays_clientDone h
  | clientError i =>
    simp only [Daemon.callback] at h
    split at h
    · split_ifs at h
      cases h
      rfl
    · cases h
  | teardown =>
    simp only [Daemon.callback] at h
    split_ifs at h
    cases h
    exact arrays_yellowActions false _ _
  | dispatch | run | io => cases h

/-! ### One call of `_colod_execute_array_co` -/

/-- How the call returned: with the position of the command that failed, and whether it was
written. -/
inductive ArrayEnd
  | finished
  | interrupted
  | failed (i : ℕ) (written : Bool)
  deriving DecidableEq, Repr

/-- The return value. -/
def ArrayEnd.ret : ArrayEnd → ℤ
  | .finished => 0
  | .interrupted | .failed .. => -1

/-- What a call has done. `replaced` says that its table was set again since it began. -/
structure ArrayRun where
  table : CommandTable
  node : ℕ
  installed : List String
  sent : List String
  replaced : Bool
  ended : Option ArrayEnd
  deriving DecidableEq, Repr

/-- The command that this step writes to the channel. -/
def Daemon.sends (s : Daemon) (label : Label) : List String :=
  match s.pc, label with
  | .exec (.element _ line) false _, .io .write => [line]
  | _, _ => []

/-- How the call returns in this step. -/
def Daemon.arrayEnd (s : Daemon) (label : Label) : Option ArrayEnd :=
  match s.pc, label with
  | .array co, .run =>
    match co.array[co.i]? with
    | none => some .finished
    | some _ => if !co.dangling && s.pendingInterrupt then some .interrupted else none
  | .exec (.element co _) written _, .io (.reply reply) =>
    match (colodExecuteCo s reply).1 with
    | .ok () => none
    | .error err =>
      if ignoreErrors co.table ∧ err = .qmp then none else some (.failed co.i written)
  | _, _ => none

def ArrayRun.next (this : ArrayRun) (s : Daemon) (label : Label) : ArrayRun :=
  { this with
    sent := this.sent ++ s.sends label
    ended := this.ended.or (s.arrayEnd label) }

namespace ArrayRun

/-- What was sent is a part of the array that depends on how the call ended. -/
def Accounted (this : ArrayRun) : Prop :=
  match this.ended with
  | none => this.sent <+: this.installed
  | some .finished => this.sent = this.installed
  | some .interrupted => ∃ i < this.installed.length, this.sent = this.installed.take i
  | some (.failed i written) =>
    i < this.installed.length ∧ this.sent = this.installed.take (if written then i + 1 else i)

/-- The call has not returned and its frame is `co`. -/
structure Tracks (this : ArrayRun) (co : ArrayFrame) : Prop where
  table : this.table = co.table
  installed : this.installed = co.array
  replaced : this.replaced = co.dangling
  ended : this.ended = none

/-- The commands before the current one were sent, and the current one as soon as it is written. -/
def Follows (this : ArrayRun) : Pc → Prop
  | .array co => this.Tracks co ∧ this.sent = co.array.take co.i
  | .exec (.element co line) written _ =>
    this.Tracks co ∧ co.array[co.i]? = some line ∧
      this.sent = co.array.take (if written then co.i + 1 else co.i)
  | _ => this.Accounted

theorem Accounted.prefix {r : ArrayRun} (h : r.Accounted) : r.sent <+: r.installed := by
  unfold Accounted at h
  split at h
  · exact h
  · exact h ▸ List.prefix_refl _
  · obtain ⟨i, -, h⟩ := h
    rw [h]
    exact List.take_prefix i _
  · rw [h.2]
    exact List.take_prefix _ _

theorem Follows.prefix {r : ArrayRun} {pc : Pc} (h : r.Follows pc) : r.sent <+: r.installed := by
  cases pc with
  | array co =>
    rw [h.1.installed, h.2]
    exact List.take_prefix _ _
  | exec site written inner =>
    cases site with
    | element co line =>
      rw [h.1.installed, h.2.2]
      exact List.take_prefix _ _
    | _ => exact Accounted.prefix h
  | _ => exact Accounted.prefix h

theorem Follows.tracks {r : ArrayRun} {pc : Pc} {co : ArrayFrame} (h : r.Follows pc)
    (hco : pc.arrayFrame = some co) : r.Tracks co := by
  cases pc with
  | array => cases hco; exact h.1
  | exec site written inner =>
    cases site with
    | element => cases hco; exact h.1
    | _ => cases hco
  | _ => cases hco

theorem Follows.accounted {r : ArrayRun} {pc : Pc} (h : r.Follows pc)
    (hpc : pc.arrayFrame = none) : r.Accounted := by
  cases pc with
  | array => cases hpc
  | exec site written inner =>
    cases site with
    | element => cases hpc
    | _ => exact h
  | _ => exact h

theorem Accounted.follows {r : ArrayRun} {pc : Pc} (h : r.Accounted)
    (hpc : pc.arrayFrame = none) : r.Follows pc := by
  cases pc with
  | array => cases hpc
  | exec site written inner =>
    cases site with
    | element => cases hpc
    | _ => exact h
  | _ => exact h

/-- The whole array was sent by the calls that return 0 and by those whose last command fails
after it was written. -/
theorem Accounted.whole_iff {r : ArrayRun} {e : ArrayEnd} (h : r.Accounted)
    (he : r.ended = some e) :
    r.sent = r.installed ↔ e.ret = 0 ∨ e = .failed (r.installed.length - 1) true := by
  have htake : ∀ {i}, r.sent = r.installed.take i → (r.sent = r.installed ↔ r.installed.length ≤ i) := by
    intro i hi
    rw [hi, List.take_eq_self_iff]
  unfold Accounted at h
  rw [he] at h
  cases e with
  | finished => simpa [ArrayEnd.ret] using h
  | interrupted =>
    obtain ⟨i, hlt, h⟩ := h
    rw [htake h]
    simp [ArrayEnd.ret]
    omega
  | failed i written =>
    obtain ⟨hlt, h⟩ := h
    rw [htake h]
    cases written with
    | true =>
      simp [ArrayEnd.ret]
      omega
    | false =>
      simp [ArrayEnd.ret]
      omega

end ArrayRun

/-! ### The main coroutine -/

variable {label : Label} {r : ArrayRun}

theorem Continues.arrays {obs : List Obs} {susp : Bool} {pc : Pc}
    (h : Continues s t obs susp pc) : t.arrays = (pc.arrayFrame, s.commands) := by
  rw [Daemon.arrays, h.pc, h.commands]

theorem arrayFrame_arrayTurn {table : CommandTable} {err : Option ColodError} {susp : Bool}
    {pc : Pc} (h : ArrayTurn s table err susp pc) : pc.arrayFrame = none := by
  cases h <;> rfl

theorem arrayFrame_eventTurn {primary : Bool} {site : EventWaitSite} {event : ColodEvent}
    {susp : Bool} {pc : Pc} (h : EventTurn primary site event susp pc) : pc.arrayFrame = none := by
  cases h <;> rfl

theorem arrays_mainCo (s : Daemon) (newState : MainState) :
    (colodMainCo s newState).arrays = (none, s.commands) := by
  cases newState with
  | secondaryColoRunning | primaryColoRunning =>
    simp only [colodMainCo]
    split_ifs <;> rfl
  | quit =>
    simp only [colodMainCo, colodMainCoReturn]
    split_ifs <;> rfl
  | _ => rfl

/-- The tables stay, and a call that begins borrows the array of its table. -/
structure Borrows (s t : Daemon) : Prop where
  commands : t.commands = s.commands
  begins : s.pc.arrayFrame = none → ∀ co, t.pc.arrayFrame = some co →
    t.pc = .array co ∧ co = ⟨co.table, s.commands co.table, 0, false⟩

theorem borrows_of_none (h : t.arrays = (none, s.commands)) : Borrows s t := by
  simp only [Daemon.arrays, Prod.mk.injEq] at h
  refine ⟨h.2, ?_⟩
  intro _ co hco
  rw [h.1] at hco
  cases hco

theorem borrows_of_eq (h : t.arrays = s.arrays) : Borrows s t := by
  simp only [Daemon.arrays, Prod.mk.injEq] at h
  refine ⟨h.2, ?_⟩
  intro hs co hco
  rw [h.1, hs] at hco
  cases hco

theorem borrows_of_begins {u : Daemon} {obs : List Obs} {susp : Bool} {table : CommandTable}
    (hu : u.commands = s.commands)
    (h : Continues u t obs susp (.array ⟨table, u.commands table, 0, false⟩)) : Borrows s t := by
  refine ⟨h.commands.trans hu, ?_⟩
  intro _ co hco
  rw [h.pc] at hco ⊢
  cases hco
  exact ⟨rfl, by rw [hu]⟩

theorem borrows_step (hstep : step s label = some t) (hsets : label.setsCommands = false) :
    Borrows s t := by
  cases change_of_step hstep with
  | callback _ h => exact borrows_of_eq (arrays_callback h hsets)
  | dispatch source _ h =>
    obtain ⟨wakeSources, resumeSources, rfl⟩ := dispatch_eq h
    exact borrows_of_eq rfl
  | start _ _ h =>
    cases h
    exact borrows_of_none rfl
  | enter newState _ _ h =>
    cases h
    exact borrows_of_none (arrays_mainCo s newState)
  | wait _ _ _ _ _ h =>
    cases h
    exact borrows_of_eq rfl
  | event _ _ _ _ _ _ _ _ hturn h =>
    exact borrows_of_none (h.arrays.trans (by rw [arrayFrame_eventTurn hturn]))
  | turn pc pc' obs susp _ hpc hturn h =>
    cases hturn with
    | preSwitchover => exact borrows_of_begins rfl h
    | arrayEnd _ _ _ _ hturn | arrayInterrupted _ _ _ _ _ _ hturn =>
      exact borrows_of_none (h.arrays.trans (by rw [arrayFrame_arrayTurn hturn]))
    | element co line =>
      apply borrows_of_eq
      rw [h.arrays, Daemon.arrays, hpc]
      rfl
    | _ => exact borrows_of_none h.arrays
  | suspend site written inner inner' _ hpc h =>
    cases h
    apply borrows_of_eq
    rw [Daemon.arrays, Daemon.arrays, hpc]
    cases site <;> rfl
  | write site inner _ hpc h =>
    apply borrows_of_eq
    rw [h.arrays, Daemon.arrays, hpc]
    cases site <;> rfl
  | line site inner event _ hpc h =>
    cases h
    have hc : (notifyEvent s event).commands = s.commands :=
      congrArg (·.2) (arrays_notifyEvent s event)
    apply borrows_of_eq
    simp only [Daemon.arrays, Daemon.suspendAt, hpc, hc]
    cases site <;> rfl
  | nestedYank _ _ _ _ h =>
    cases h
    exact borrows_of_eq rfl
  | executed site written inner reply obs susp pc _ hpc _ hturn h =>
    have hu : (colodExecuteCo s reply).2.commands = s.commands :=
      congrArg (·.2) (arrays_executeCo s reply)
    generalize (colodExecuteCo s reply).1 = result at hturn
    cases hturn with
    | migrationStart => exact borrows_of_begins hu h
    | next co line =>
      refine ⟨h.commands.trans hu, ?_⟩
      intro hs
      rw [hpc] at hs
      cases hs
    | broken _ _ _ _ _ _ hturn =>
      exact borrows_of_none (h.arrays.trans (by rw [arrayFrame_arrayTurn hturn, hu]))
    | _ => exact borrows_of_none (h.arrays.trans (by rw [hu]; rfl))
  | yankSuspend inner inner' _ hpc h =>
    cases h
    apply borrows_of_eq
    rw [Daemon.arrays, Daemon.arrays, hpc]
    rfl
  | yanked inner table _ _ _ h => exact borrows_of_begins rfl h
  | yankFailed _ _ _ _ _ h => exact borrows_of_none h.arrays

/-! ### A running call -/

theorem ArrayRun.next_eq (hs : s.sends label = []) (he : s.arrayEnd label = none) :
    r.next s label = r := by
  cases r with
  | mk table node installed sent replaced ended =>
    simp [ArrayRun.next, hs, he]

theorem sends_of_frame (label : Label) (hs : s.pc.arrayFrame = none) :
    s.sends label = [] ∧ s.arrayEnd label = none := by
  unfold Daemon.sends Daemon.arrayEnd
  cases hpc : s.pc with
  | array => rw [hpc] at hs; cases hs
  | exec site =>
    cases site with
    | element => rw [hpc] at hs; cases hs
    | _ => exact ⟨rfl, rfl⟩
  | _ => exact ⟨rfl, rfl⟩

theorem sends_of_callback (h : s.callback label = some t) :
    s.sends label = [] ∧ s.arrayEnd label = none := by
  cases label with
  | dispatch | run | io => cases h
  | _ =>
    unfold Daemon.sends Daemon.arrayEnd
    cases s.pc with
    | exec site written => cases site <;> cases written <;> exact ⟨rfl, rfl⟩
    | _ => exact ⟨rfl, rfl⟩

/-- A callback does not move a running call. -/
theorem pc_callback {co : ArrayFrame} (h : s.callback label = some t)
    (hsets : label.setsCommands = false) (hco : s.pc.arrayFrame = some co) : t.pc = s.pc := by
  have hframe : t.pc.arrayFrame = s.pc.arrayFrame := congrArg (·.1) (arrays_callback h hsets)
  have hout := (outside_callback h).pc
  generalize s.pc = pc at hout hframe hco
  generalize t.pc = pc' at hout hframe
  generalize s.resumeSources = n at hout
  generalize t.resumeSources = n' at hout
  cases hout with
  | same => rfl
  | fired => cases hco
  | releasedArray co =>
    rw [Option.some.inj hframe]
  | releasedExec co =>
    rw [Option.some.inj hframe]

theorem ArrayRun.follows_turn {pc pc' : Pc} {obs : List Obs} {susp : Bool} (hpc : s.pc = pc)
    (hr : r.Follows pc) (hframe : pc.arrayFrame.isSome) (hturn : Turn s pc obs susp pc') :
    (r.next s .run).Follows pc' := by
  have hsends : s.sends .run = [] := by
    unfold Daemon.sends
    rw [hpc]
    cases hturn <;> rfl
  cases hturn with
  | arrayEnd co susp _ hi hturn =>
    obtain ⟨htracks, hsent⟩ := hr
    apply Accounted.follows _ (arrayFrame_arrayTurn hturn)
    have hend : s.arrayEnd .run = some .finished := by simp [Daemon.arrayEnd, hpc, hi]
    simp only [Accounted, next, hend, htracks.ended, hsends, List.append_nil,
      htracks.installed, hsent, Option.none_or]
    exact List.take_of_length_le (List.getElem?_eq_none_iff.mp hi)
  | arrayInterrupted co line susp _ hi hpending hturn =>
    obtain ⟨htracks, hsent⟩ := hr
    apply Accounted.follows _ (arrayFrame_arrayTurn hturn)
    have hlt : co.i < co.array.length := (List.getElem?_eq_some_iff.mp hi).1
    by_cases hdangling : co.dangling = true
    · have hend : s.arrayEnd .run = none := by simp [Daemon.arrayEnd, hpc, hi, hdangling]
      rw [next_eq hsends hend]
      simp only [Accounted, htracks.ended, htracks.installed, hsent]
      exact List.take_prefix _ _
    · have hend : s.arrayEnd .run = some .interrupted := by
        simp [Daemon.arrayEnd, hpc, hi, hdangling, hpending]
      simp only [Accounted, next, hend, htracks.ended, hsends, List.append_nil,
        htracks.installed, hsent, Option.none_or]
      exact ⟨co.i, hlt, rfl⟩
  | element co line hi hdangling hpending =>
    obtain ⟨htracks, hsent⟩ := hr
    have hend : s.arrayEnd .run = none := by simp [Daemon.arrayEnd, hpc, hi, hpending]
    rw [next_eq hsends hend]
    exact ⟨htracks, hi, hsent⟩
  | released co line hi hdangling =>
    obtain ⟨htracks, hsent⟩ := hr
    have hend : s.arrayEnd .run = none := by simp [Daemon.arrayEnd, hpc, hi, hdangling]
    rw [next_eq hsends hend]
    have hprefix : r.sent <+: r.installed := by
      rw [htracks.installed, hsent]
      exact List.take_prefix _ _
    simpa only [Follows, Accounted, htracks.ended] using hprefix
  | _ => cases hframe

theorem ArrayRun.follows_exec {co : ArrayFrame} {line : String} {written : Bool}
    {inner : InnerWait} {reply : Option QmpReply} {obs : List Obs} {susp : Bool} {pc : Pc}
    (hpc : s.pc = .exec (.element co line) written inner)
    (hr : r.Follows (.exec (.element co line) written inner))
    (hwritten : (colodExecuteCo s reply).1 ≠ .error .fatal → written = true)
    (hturn : ExecTurn (colodExecuteCo s reply).2 (.element co line) (colodExecuteCo s reply).1
      obs susp pc) : (r.next s (.io (.reply reply))).Follows pc := by
  obtain ⟨htracks, hi, hsent⟩ := hr
  have hlt : co.i < co.array.length := (List.getElem?_eq_some_iff.mp hi).1
  have hsends : s.sends (.io (.reply reply)) = [] := by
    unfold Daemon.sends
    rw [hpc]
    cases written <;> rfl
  have hend : s.arrayEnd (.io (.reply reply)) =
      match (colodExecuteCo s reply).1 with
      | .ok () => none
      | .error err =>
        if ignoreErrors co.table ∧ err = .qmp then none else some (.failed co.i written) := by
    simp only [Daemon.arrayEnd, hpc]
  generalize (colodExecuteCo s reply).1 = result at hwritten hturn hend
  cases hturn with
  | next _ _ _ hresult =>
    have hw : written = true := by
      apply hwritten
      rcases hresult with rfl | ⟨rfl, -⟩ <;> simp
    have hend' : s.arrayEnd (.io (.reply reply)) = none := by
      rcases hresult with rfl | ⟨rfl, hignore⟩
      · exact hend
      · simpa [hignore] using hend
    rw [next_eq hsends hend']
    exact ⟨⟨htracks.table, htracks.installed, htracks.replaced, htracks.ended⟩,
      by simpa [hw] using hsent⟩
  | broken _ _ err _ _ herr hturn =>
    apply Accounted.follows _ (arrayFrame_arrayTurn hturn)
    have hend' : s.arrayEnd (.io (.reply reply)) = some (.failed co.i written) := by
      refine hend.trans (if_neg ?_)
      rintro ⟨hignore, hqmp⟩
      rw [herr hqmp] at hignore
      cases hignore
    simp only [Accounted, next, hend', htracks.ended, hsends, List.append_nil,
      htracks.installed, hsent, Option.none_or]
    exact ⟨hlt, trivial⟩
  | fails _ _ hsite => rcases hsite with h | h | ⟨h | h, -⟩ <;> cases h
  | interrupted _ hsite => rcases hsite with h | h <;> cases h
  | cancel _ hsite => rcases hsite with h | h <;> cases h

/-- A step of the daemon in terms of the call that it runs. -/
theorem ArrayRun.follows_step (hstep : step s label = some t)
    (hsets : label.setsCommands = false) (hr : r.Follows s.pc)
    (hbegins : s.pc.arrayFrame = none → t.pc.arrayFrame = none) :
    (r.next s label).Follows t.pc := by
  by_cases hs : s.pc.arrayFrame = none
  · obtain ⟨hsends, hend⟩ := sends_of_frame label hs
    rw [next_eq hsends hend]
    exact (hr.accounted hs).follows (hbegins hs)
  obtain ⟨co, hco⟩ := Option.ne_none_iff_exists'.mp hs
  have hsame : s.sends label = [] → s.arrayEnd label = none → t.pc = s.pc →
      (r.next s label).Follows t.pc := by
    intro hsends hend hpc
    rw [next_eq hsends hend, hpc]
    exact hr
  cases change_of_step hstep with
  | callback _ h =>
    obtain ⟨hsends, hend⟩ := sends_of_callback h
    exact hsame hsends hend (pc_callback h hsets hco)
  | dispatch source _ h =>
    obtain ⟨wakeSources, resumeSources, rfl⟩ := dispatch_eq h
    have hnone : s.sends (.dispatch source) = [] ∧ s.arrayEnd (.dispatch source) = none := by
      unfold Daemon.sends Daemon.arrayEnd
      cases s.pc with
      | exec site written => cases site <;> cases written <;> exact ⟨rfl, rfl⟩
      | _ => exact ⟨rfl, rfl⟩
    exact hsame hnone.1 hnone.2 rfl
  | turn pc pc' obs susp _ hpc hturn h =>
    rw [h.pc]
    exact follows_turn hpc (hpc ▸ hr) (by rw [← hpc, hco]; rfl) hturn
  | executed site written inner reply obs susp pc _ hpc hw hturn h =>
    rw [h.pc]
    cases site with
    | element => exact follows_exec hpc (hpc ▸ hr) (executeCo_written hw) hturn
    | _ => exact absurd (by rw [hpc]; rfl) hs
  | write site inner _ hpc h =>
    rw [h.pc]
    rw [hpc] at hr
    cases site with
    | element co line =>
      obtain ⟨htracks, hi, hsent⟩ := hr
      have hsends : s.sends (.io .write) = [line] := by
        simp [Daemon.sends, hpc]
      have hend : s.arrayEnd (.io .write) = none := by
        simp [Daemon.arrayEnd, hpc]
      refine ⟨⟨htracks.table, htracks.installed, htracks.replaced, ?_⟩, hi, ?_⟩
      · simp [next, hend, htracks.ended]
      · simp only [next, hsends, hsent, Bool.false_eq_true, if_false, if_true]
        rw [List.take_add_one, hi, Option.toList_some]
    | _ => exact absurd (by rw [hpc]; rfl) hs
  | suspend site written inner inner' _ hpc h =>
    cases h
    have hnone : s.sends (.io (.suspend inner')) = [] ∧
        s.arrayEnd (.io (.suspend inner')) = none := by
      unfold Daemon.sends Daemon.arrayEnd
      rw [hpc]
      cases site <;> cases written <;> exact ⟨rfl, rfl⟩
    rw [next_eq hnone.1 hnone.2]
    rw [hpc] at hr
    cases site <;> exact hr
  | line site inner event _ hpc h =>
    cases h
    have hnone : s.sends (.io (.event event)) = [] ∧ s.arrayEnd (.io (.event event)) = none := by
      unfold Daemon.sends Daemon.arrayEnd
      rw [hpc]
      cases site <;> exact ⟨rfl, rfl⟩
    rw [next_eq hnone.1 hnone.2]
    rw [hpc] at hr
    cases site <;> exact hr
  | nestedYank site inner _ hpc h =>
    cases h
    have hnone : s.sends (.io .yanked) = [] ∧ s.arrayEnd (.io .yanked) = none := by
      unfold Daemon.sends Daemon.arrayEnd
      rw [hpc]
      cases site <;> exact ⟨rfl, rfl⟩
    exact hsame hnone.1 hnone.2 rfl
  | start _ hpc | enter _ _ hpc | wait _ _ _ hpc | event _ _ _ _ _ _ hpc
  | yankSuspend _ _ _ hpc | yanked _ _ _ hpc | yankFailed _ _ _ hpc =>
    exact absurd (by rw [hpc]; rfl) hs

/-! ### The daemon with its JSON nodes -/

/-- The label of a request that sets a table is `set`; all others are those of the daemon. -/
inductive StoredLabel
  | daemon (label : Label)
  | set (client : ℕ) (table : CommandTable) (request : SetRequest)
  deriving DecidableEq, Repr

/-- `arrayRun` is the current or last call. -/
structure Stored where
  daemon : Daemon
  store : CommandStore
  arrayRun : Option ArrayRun

def SetRequest.texts (request : SetRequest) : List String :=
  match request.commands with
  | some (.array texts) => texts
  | _ => []

namespace Stored

def init (ctx : ColodContext) : Stored := ⟨.init ctx, .qmpCommandsNew, none⟩

/-- The call after a step of the daemon to `daemon`. -/
def nextRun (this : Stored) (label : Label) (daemon : Daemon) : Option ArrayRun :=
  match this.daemon.pc.arrayFrame, daemon.pc.arrayFrame with
  | none, some co => some ⟨co.table, this.store.node co.table, co.array, [], false, none⟩
  | _, _ => this.arrayRun.map (·.next this.daemon label)

/-- The main loop can run the callback of the client. -/
def listens (this : Stored) (client : ℕ) : Bool :=
  !this.daemon.running && (this.daemon.clients[client]?.map (·.pc)) = some .reading

def step (this : Stored) : StoredLabel → Option Stored
  | .daemon label =>
    if label.setsCommands then none
    else (ColoDaemon.step this.daemon label).map fun daemon =>
      { this with daemon, arrayRun := this.nextRun label daemon }
  | .set client table request =>
    match CommandStore.handler table this.store request with
    | (store, .ok ()) =>
      (ColoDaemon.step this.daemon (.clientRequest client (.setCommands table request.texts))).map
        fun daemon =>
          { daemon, store
            arrayRun := this.arrayRun.map fun r =>
              if r.table = table then { r with replaced := true } else r }
    | (store, .error _) => if this.listens client then some { this with store } else none

/-- The element that the next part of the main coroutine reads. -/
def reading (this : Stored) : Option ℕ :=
  match this.daemon.pc with
  | .array co => if co.i < co.array.length then some co.i else none
  | _ => none

/-- The borrowed node of the call in the store. -/
structure Lent (this : Stored) (r : ArrayRun) : Prop where
  installed : r.replaced = false → this.store.node r.table = r.node ∧
    this.daemon.commands r.table = r.installed
  gone : r.replaced = true →
    r.node < this.store.heap.length ∧ this.store.heap.cell r.node = none

structure Linked (this : Stored) : Prop where
  holds : Holds this.store this.daemon.commands
  current : ∀ co, this.daemon.pc.arrayFrame = some co → ∃ r, this.arrayRun = some r
  follows : ∀ r, this.arrayRun = some r → r.Follows this.daemon.pc
  lent : ∀ r, this.arrayRun = some r → this.Lent r

variable {u v : Stored}

theorem linked_daemon {daemon : Daemon} (hstep : ColoDaemon.step u.daemon label = some daemon)
    (hsets : label.setsCommands = false) (hu : u.Linked) :
    Linked { u with daemon, arrayRun := u.nextRun label daemon } := by
  have hborrows := borrows_step hstep hsets
  have hkept : (u.daemon.pc.arrayFrame = none → daemon.pc.arrayFrame = none) →
      Linked { u with daemon, arrayRun := u.arrayRun.map (·.next u.daemon label) } := by
    intro hbegins
    refine ⟨?_, ?_, ?_, ?_⟩
    · simpa only [hborrows.commands] using hu.holds
    · intro co hco
      by_cases hs : u.daemon.pc.arrayFrame = none
      · rw [hbegins hs] at hco
        cases hco
      · obtain ⟨co', hco'⟩ := Option.ne_none_iff_exists'.mp hs
        obtain ⟨r, hr⟩ := hu.current co' hco'
        exact ⟨r.next u.daemon label, by rw [hr]; rfl⟩
    · intro r hr
      obtain ⟨r', hr', rfl⟩ := Option.map_eq_some_iff.mp hr
      exact ArrayRun.follows_step hstep hsets (hu.follows r' hr') hbegins
    · intro r hr
      obtain ⟨r', hr', rfl⟩ := Option.map_eq_some_iff.mp hr
      have hlent := hu.lent r' hr'
      refine ⟨?_, hlent.gone⟩
      intro hreplaced
      obtain ⟨hnode, hcommands⟩ := hlent.installed hreplaced
      exact ⟨hnode, (congrFun hborrows.commands _).trans hcommands⟩
  unfold nextRun
  cases hs : u.daemon.pc.arrayFrame with
  | some co => exact hkept (by simp [hs])
  | none =>
    cases ht : daemon.pc.arrayFrame with
    | none => exact hkept fun _ => ht
    | some co =>
      obtain ⟨hpc, hco⟩ := hborrows.begins hs co ht
      refine ⟨?_, fun _ _ => ⟨_, rfl⟩, ?_, ?_⟩
      · simpa only [hborrows.commands] using hu.holds
      · intro r hr
        cases hr
        simp only [hpc]
        rw [hco]
        exact ⟨⟨rfl, rfl, rfl, rfl⟩, rfl⟩
      · intro r hr
        cases hr
        refine ⟨fun _ => ⟨rfl, ?_⟩, by simp⟩
        simp only [hborrows.commands]
        exact (congrArg ArrayFrame.array hco).symm

theorem setCommands_step {i : ℕ} {table : CommandTable} {texts : List String}
    (hstep : ColoDaemon.step s (.clientRequest i (.setCommands table texts)) = some t) :
    t = s.setCommands table texts := by
  rcases step_cases hstep with ⟨-, hc⟩ | ⟨_, hl, -⟩ | ⟨hl, -, -⟩ | ⟨_, hl, -⟩
  · simp only [Daemon.callback] at hc
    split at hc
    · split_ifs at hc
      exact (Option.some.inj hc).symm
    · cases hc
  · cases hl
  · cases hl
  · cases hl

theorem follows_setCommands (table : CommandTable) (texts : List String)
    (hr : r.Follows s.pc) :
    (if r.table = table then { r with replaced := true } else r).Follows
      (s.setCommands table texts).pc := by
  have htracks : ∀ co, r.Tracks co →
      (if r.table = table then { r with replaced := true } else r).Tracks
        (if co.table = table then { co with dangling := true } else co) := by
    intro co hco
    by_cases htable : r.table = table
    · rw [if_pos htable, if_pos (hco.table.symm.trans htable)]
      exact ⟨hco.table, hco.installed, rfl, hco.ended⟩
    · rw [if_neg htable, if_neg (hco.table ▸ htable)]
      exact hco
  have hsent : (if r.table = table then { r with replaced := true } else r).sent = r.sent := by
    split_ifs <;> rfl
  have hsame : r.Accounted →
      (if r.table = table then { r with replaced := true } else r).Accounted := by
    intro h
    split_ifs <;> exact h
  simp only [Daemon.setCommands]
  cases hpc : s.pc with
  | array co =>
    rw [hpc] at hr
    refine ⟨htracks co hr.1, ?_⟩
    rw [hsent, hr.2]
    split_ifs <;> rfl
  | exec site written inner =>
    rw [hpc] at hr
    cases site with
    | element co line =>
      refine ⟨htracks co hr.1, ?_, ?_⟩
      · have hi := hr.2.1
        split_ifs <;> exact hi
      · rw [hsent, hr.2.2]
        split_ifs <;> rfl
    | _ => exact hsame hr
  | _ =>
    rw [hpc] at hr
    exact hsame hr

theorem arrayFrame_setCommands (s : Daemon) (table : CommandTable) (texts : List String) :
    (s.setCommands table texts).pc.arrayFrame.isSome = s.pc.arrayFrame.isSome := by
  simp only [Daemon.setCommands]
  cases s.pc with
  | exec site => cases site <;> rfl
  | _ => rfl

theorem linked_set {store : CommandStore} {table : CommandTable} {texts : List String}
    (hholds : Holds store (Function.update u.daemon.commands table texts))
    (hnode : ∀ other, other ≠ table → store.node other = u.store.node other)
    (hgrown : Grown u.store.heap store.heap)
    (hgone : store.heap.cell (u.store.node table) = none) (hu : u.Linked) :
    Linked ⟨u.daemon.setCommands table texts, store, u.arrayRun.map fun r =>
      if r.table = table then { r with replaced := true } else r⟩ := by
  refine ⟨hholds, ?_, ?_, ?_⟩
  · intro co hco
    have hsome := arrayFrame_setCommands u.daemon table texts
    rw [hco] at hsome
    obtain ⟨co', hco'⟩ := Option.isSome_iff_exists.mp hsome.symm
    obtain ⟨r, hr⟩ := hu.current co' hco'
    exact ⟨_, congrArg (Option.map _) hr⟩
  · intro r hr
    obtain ⟨r', hr', rfl⟩ := Option.map_eq_some_iff.mp hr
    exact follows_setCommands table texts (hu.follows r' hr')
  · intro r hr
    obtain ⟨r', hr', rfl⟩ := Option.map_eq_some_iff.mp hr
    have hlent := hu.lent r' hr'
    by_cases htable : r'.table = table
    · rw [if_pos htable]
      refine ⟨by simp, fun _ => ?_⟩
      cases hreplaced : r'.replaced with
      | true =>
        obtain ⟨hlt, hc⟩ := hlent.gone hreplaced
        exact hgrown.gone hlt hc
      | false =>
        obtain ⟨hnode', -⟩ := hlent.installed hreplaced
        obtain ⟨c, hc⟩ := hu.holds.sound.exists_of_held (u.store.node_mem_held table)
        have hlt := Heap.lt_length hc
        have hlonger := hgrown.longer
        rw [htable] at hnode'
        simp only [← hnode']
        exact ⟨by omega, hgone⟩
    · rw [if_neg htable]
      refine ⟨?_, ?_⟩
      · intro hreplaced
        obtain ⟨hnode', hcommands⟩ := hlent.installed hreplaced
        refine ⟨(hnode _ htable).trans hnode', ?_⟩
        simpa [Daemon.setCommands, Function.update_of_ne htable] using hcommands
      · intro hreplaced
        obtain ⟨hlt, hc⟩ := hlent.gone hreplaced
        exact hgrown.gone hlt hc

theorem linked_step {l : StoredLabel} (hstep : step u l = some v) (hu : u.Linked) : v.Linked := by
  cases l with
  | daemon label =>
    simp only [step] at hstep
    split_ifs at hstep with hsets
    obtain ⟨daemon, hd, rfl⟩ := Option.map_eq_some_iff.mp hstep
    exact linked_daemon hd (by simpa using hsets) hu
  | set client table request =>
    by_cases harray : ∃ texts, request.commands = some (.array texts)
    · obtain ⟨texts, htexts⟩ := harray
      have hrequest : request = ⟨some (.array texts)⟩ := by rw [← htexts]
      obtain ⟨heap, commands, hhandler, hholds, hgrown, hgone⟩ :=
        handler_array hu.holds table texts
      simp only [step, hrequest, hhandler] at hstep
      obtain ⟨daemon, hd, rfl⟩ := Option.map_eq_some_iff.mp hstep
      cases setCommands_step hd
      apply linked_set hholds _ hgrown hgone hu
      intro other hother
      exact Function.update_of_ne hother _ _
    · obtain ⟨heap, message, hhandler, hholds, hgrown⟩ := handler_error hu.holds table request
        fun texts htexts => harray ⟨texts, htexts⟩
      simp only [step, hhandler] at hstep
      split_ifs at hstep
      cases hstep
      refine ⟨hholds, hu.current, hu.follows, ?_⟩
      intro r hr
      have hlent := hu.lent r hr
      refine ⟨hlent.installed, ?_⟩
      intro hreplaced
      obtain ⟨hlt, hc⟩ := hlent.gone hreplaced
      exact hgrown.gone hlt hc

theorem linked_init (ctx : ColodContext) : (init ctx).Linked := by
  refine ⟨holds_new, ?_, ?_, ?_⟩
  · intro co hco
    cases hco
  · intro r hr
    cases hr
  · intro r hr
    cases hr

theorem linked_of_run {ctx : ColodContext} {labels : List StoredLabel}
    (hrun : run step (init ctx) labels = some u) : u.Linked :=
  run_invariant (fun _ _ _ => linked_step) hrun (linked_init ctx)

/-- The mark of the frame says exactly that the borrowed node is gone. -/
theorem dangling_iff {ctx : ColodContext} {labels : List StoredLabel} {co : ArrayFrame}
    (hrun : run step (init ctx) labels = some u) (hr : u.arrayRun = some r)
    (hco : u.daemon.pc.arrayFrame = some co) :
    co.dangling = true ↔ u.store.heap.cell r.node = none := by
  have hlinked := linked_of_run hrun
  have hlent := hlinked.lent r hr
  rw [← ((hlinked.follows r hr).tracks hco).replaced]
  constructor
  · intro hreplaced
    exact (hlent.gone hreplaced).2
  · intro hnone
    by_contra hreplaced
    obtain ⟨hnode, -⟩ := hlent.installed (by simpa using hreplaced)
    obtain ⟨c, hc⟩ := hlinked.holds.sound.exists_of_held (u.store.node_mem_held r.table)
    rw [hnode, hnone] at hc
    cases hc

/-! ### The claim -/

/-- A call of `_colod_execute_array_co` at one moment of a run. -/
structure Isolated (this : Stored) (r : ArrayRun) : Prop where
  reads : r.replaced = false → ∀ i, this.reading = some i →
    ∃ text, element this.store.heap r.node i = some text ∧ r.installed[i]? = some text
  sent : r.sent <+: r.installed
  whole : ∀ e, r.ended = some e →
    (r.sent = r.installed ↔ e.ret = 0 ∨ e = .failed (r.installed.length - 1) true)

theorem arrayRun_isolated (ctx : ColodContext) (labels : List StoredLabel) (u : Stored)
    (r : ArrayRun) (hrun : run step (init ctx) labels = some u) (hr : u.arrayRun = some r) :
    u.Isolated r := by
  have hlinked := linked_of_run hrun
  have hfollows := hlinked.follows r hr
  refine ⟨?_, hfollows.prefix, ?_⟩
  · intro hreplaced i hi
    obtain ⟨hnode, hcommands⟩ := (hlinked.lent r hr).installed hreplaced
    have hspells := hlinked.holds.spells r.table
    rw [hnode, hcommands] at hspells
    unfold reading at hi
    split at hi
    · rename_i co hpc
      split_ifs at hi with hlt
      cases hi
      have htracks : r.Tracks co := hfollows.tracks (by rw [hpc]; rfl)
      rw [← htracks.installed] at hlt
      refine ⟨r.installed[co.i], ?_, List.getElem?_eq_getElem hlt⟩
      rw [element_of_spells hspells]
      exact List.getElem?_eq_getElem hlt
    · cases hi
  · intro e he
    apply ArrayRun.Accounted.whole_iff _ he
    apply hfollows.accounted
    by_contra hframe
    obtain ⟨co, hco⟩ := Option.ne_none_iff_exists'.mp hframe
    rw [(hfollows.tracks hco).ended] at he
    cases he

/-- A primary begins a migration with one command in `migration_start`. -/
def primary : ColodContext := { Schedule.context with primaryStartup := true }

def startup : List Label := [.dispatch .start, .run, .run, .run, .run, .clientNew]

def migration : List Label :=
  [.clientRequest 0 .startMigration, .dispatch (.wake 1), .run, .run] ++ Schedule.exchange

def migrating : List StoredLabel :=
  startup.map .daemon ++ [.set 0 .migrationStart ⟨some (.array ["x"])⟩] ++ migration.map .daemon

/-- The only command is written and qemu answers with an error. -/
def lastFails : List StoredLabel :=
  migrating ++ [.daemon .run, .daemon (.io .write), .daemon (.io (.reply (some .error)))]

set_option maxRecDepth 2000 in
theorem arrayRun_isolated_migrating :
    ∃ u r, run step (init primary) migrating = some u ∧ u.arrayRun = some r ∧
      r.replaced = false ∧ u.reading = some 0 ∧ u.Isolated r := by
  have hcheck : (run step (init primary) migrating).map (fun u => (u.arrayRun, u.reading)) =
      some (some ⟨.migrationStart, 5, ["x"], [], false, none⟩, some 0) := by decide
  obtain ⟨u, hrun, hu⟩ := Option.map_eq_some_iff.mp hcheck
  simp only [Prod.mk.injEq] at hu
  exact ⟨u, _, hrun, hu.1, rfl, hu.2, arrayRun_isolated primary migrating u _ hrun hu.1⟩

set_option maxRecDepth 2000 in
/-- The call sends its whole array and returns -1. -/
theorem whole_array_not_returned :
    ¬ ∀ (ctx : ColodContext) (labels : List StoredLabel) (u : Stored) (r : ArrayRun)
      (e : ArrayEnd), run step (init ctx) labels = some u → u.arrayRun = some r →
        r.ended = some e → (r.sent = r.installed ↔ e.ret = 0) := by
  intro hclaim
  have hcheck : (run step (init primary) lastFails).map (·.arrayRun) =
      some (some ⟨.migrationStart, 5, ["x"], ["x"], false, some (.failed 0 true)⟩) := by decide
  obtain ⟨u, hrun, hu⟩ := Option.map_eq_some_iff.mp hcheck
  have hret := (hclaim primary lastFails u _ _ hrun hu rfl).mp rfl
  cases hret

end Stored
end ColoDaemon
