import ColoDaemon.QmpBalance

/-!
# Failures and their errors

A function that fails passes on the error it was given, or makes one of its own; the one failure
without an error is that of the parser on a text with no value in it. `Careful` keeps such texts
away, and the two other ways in which an error can crash the daemon: the end of `error_client`
reads the error it has freed if its `cont` fails before the coroutine is suspended, and the message
of an error need not fit into a reply.
-/

namespace ColoDaemon.QmpFrames
open Runs

variable {lib : JsonGlib} {this before : ColodQmpState} {co : Co} {c : ChannelName} {fn : Fn}
  {entry : Ledger} {k : List Activation} {r : Ret} {s t : System}

/-- The client has stopped qemu, and its connection broke in this turn of the coroutine. -/
def System.Dangling (s : System) (co : Co) : Prop :=
  ∃ thread, s.thread co = some thread ∧ ∃ a ∈ thread.below, a.frame = .closing .dangling

/-- The outcome does not make the exchange fail: the command is written, or the line is an event to
skip or a result while no error is set. -/
def Answered (lib : JsonGlib) (this : ColodQmpState) (point : Point) (outcome : Outcome) : Prop :=
  outcome = .written ∨ ∃ c yank skipEvents text result, point = .reading c yank skipEvents ∧
    outcome = .line text ∧ qmpParseResult lib text = .ok result ∧
    ((skipEvents = true ∧ hasMember result.members "event" = true) ∨
      (hasMember result.members "error" = false ∧ this.error = none))

/-- The error that a frame passes on. -/
def Frame.passes : Frame → GError → GError
  | .read _ _ _, error => error.prefixed "qmp: "
  | _, error => error

/-- The error that the frames pass on. -/
def prefixed : List Activation → GError → GError
  | [], error => error
  | a :: k, error => prefixed k (a.frame.passes error)

/-- The parser reads the error reply with the message of a malformed line, unless no client waits
for such a reply. -/
def MessageFits (lib : JsonGlib) (k : List Activation) (error : GError) : Prop :=
  ∀ a ∈ k, ∀ stoppedQemu call, a.frame = .clientWaiting stoppedQemu call → call ≠ .queryStatus →
    ReadsObject lib (errorReplyText (prefixed k error).message)

/-- The parser reads the replies to `query-status`. -/
def ReadsStatus (lib : JsonGlib) : Prop :=
  ∀ (management : Management) failed, ReadsObject lib (management.statusReplyText failed)

/-- The coroutine parses the line it reads. -/
def System.Parses (s : System) (co : Co) : Prop :=
  ∃ thread, s.thread co = some thread ∧ (thread.point.fn = .client → s.qmp.clientsQuit = false)

structure Careful (lib : JsonGlib) (s : System) (label : Label) : Prop where
  value : ∀ co waited text, label = .io co waited (.line text) → s.Parses co →
    lib.fromString text ≠ .nothing
  closing : ∀ co outcome thread, label = .io co false outcome → s.Dangling co →
    s.thread co = some thread → Answered lib s.qmp thread.point outcome
  message : ∀ co waited text thread error, label = .io co waited (.line text) →
    s.thread co = some thread → qmpParseResult lib text = .error (some error) →
    MessageFits lib thread.below error

/-- The client loop has ended, or is in its `error_client`. -/
def System.ClientClosed (s : System) (co : Co) : Prop :=
  ∀ thread, s.thread co = some thread → ∃ a ∈ thread.below, ∃ localErrp, a.frame = .closing localErrp

/-- Every function that failed has set an error, and nothing has read an error that is not
there. -/
structure ErrorsSet (s : System) : Prop where
  failures : ∀ x ∈ s.qmp.exits, x.result ≠ .failed none
  missing : s.aborted ≠ some .missingError
  dangling : s.aborted ≠ some .danglingError

/-- A malformed line comes with an error, does not crash the daemon, and closes the client or sets
the sticky error. -/
def MalformedHandled (lib : JsonGlib) (s : System) (label : Label) (t : System) : Prop :=
  ∀ co waited text error thread, label = .io co waited (.line text) → s.Parses co →
    qmpParseResult lib text = .error error → s.thread co = some thread →
    error ≠ none ∧ t.aborted = none ∧ (thread.point.fn = .client → t.ClientClosed co) ∧
      (thread.point.fn ≠ .client → t.qmp.error.isSome = true)

/-- Failures come with an error. -/
def Allowed.withErrors : Allowed :=
  ⟨fun abort => abort = .yankInstances ∨ abort = .replyAssertion, False, False.elim⟩

section Exchange

/-- A frame between the end of `error_client` and its channel. -/
def Frame.exchange : Frame → Prop
  | .yanking _ _ | .again _ _ | .read _ _ _ | .queryYank | .yankCommand _ | .executeNocheck _
  | .colodExecute _ | .closing _ => True
  | _ => False

theorem exchange_of_closing {localErrp : LocalError} (hlinked : Linked co fn k)
    (hclosing : ∃ a ∈ k, a.frame = .closing localErrp) : ∀ a ∈ k, a.frame.exchange := by
  induction k generalizing fn with
  | nil => simp
  | cons a k ih =>
    obtain ⟨b, hb, hframe⟩ := hclosing
    rw [List.forall_mem_cons]
    rcases List.mem_cons.mp hb with rfl | hb
    · refine ⟨hframe ▸ trivial, ?_⟩
      cases k with
      | nil => simp
      | cons d k =>
        have hfn := hlinked.2.1
        rw [hframe] at hfn
        cases hfn
    · have hrest := ih hlinked.2 ⟨b, hb, hframe⟩
      refine ⟨?_, hrest⟩
      cases k with
      | nil => simp at hb
      | cons d k =>
        -- the frame below waits for this one
        have hfn := hlinked.2.1
        have hbelow := hrest d List.mem_cons_self
        cases ha : a.frame with
        | yanking | again | read | queryYank | yankCommand | executeNocheck | colodExecute
        | closing => trivial
        | greeting | capabilities | eventRead | clientWaiting =>
          rw [ha] at hfn
          cases hfn
        | colodYank | healthStatus | healthColoStatus =>
          rw [ha] at hfn
          cases hd : d.frame with
          | clientWaiting => exact absurd hbelow (by simp [hd, Frame.exchange])
          | _ =>
            rw [hd] at hfn
            cases hfn

/-- A result that is no error, while no error is set. -/
def Good (this : ColodQmpState) (r : Ret) : Prop :=
  this.error = none ∧
    match r with
    | .line result => hasMember result.members "error" = false
    | .done => True
    | .failed _ => False

theorem good_of_unlocked {next : ColodQmpState → Reaction} {this' : ColodQmpState} {r' : Ret}
    (h : unlocked this co c next = .ok (this', .ret r'))
    (hnext : next (this.release co c) = .ok (this', .ret r') → Good this' r') : Good this' r' := by
  unfold unlocked ColodQmpState.colodUnlockCo at h
  split at h
  · cases h
  · rename_i heq
    split_ifs at heq
    cases heq
    exact hnext h

/-- An exchange that goes well returns a result that is no error. -/
theorem good_react {a : Activation} {this' : ColodQmpState} {r' : Ret} (ha : a.frame.exchange)
    (hgood : Good this r) (h : react lib this co a.frame r = .ok (this', .ret r')) :
    Good this' r' := by
  obtain ⟨herror, hr⟩ := hgood
  cases r with
  | failed error => exact absurd hr id
  | line result =>
    cases hframe : a.frame with
    | again c skipEvents =>
      rw [hframe] at h
      cases h
      exact ⟨herror, hr⟩
    | read c yank command =>
      rw [hframe] at h
      refine good_of_unlocked h ?_
      intro h
      cases h
      exact ⟨herror, hr⟩
    | queryYank =>
      rw [hframe] at h
      simp only [react, queryYankReturned, hr, Bool.false_eq_true, if_false] at h
      split at h <;> cases h
    | yankCommand command =>
      rw [hframe] at h
      simp only [react, yankReturned, hr, Bool.false_eq_true, if_false] at h
      cases h
      exact ⟨herror, trivial⟩
    | executeNocheck command =>
      rw [hframe] at h
      simp only [react, executeNocheckReturned, herror] at h
      cases h
      exact ⟨herror, hr⟩
    | colodExecute command =>
      rw [hframe] at h
      simp only [react, colodExecuteReturned, hr, Bool.false_eq_true, if_false] at h
      cases h
      exact ⟨herror, hr⟩
    | yanking | closing =>
      rw [hframe] at h
      cases h
    | _ =>
      rw [hframe] at ha
      exact absurd ha id
  | done =>
    cases hframe : a.frame with
    | again | queryYank | yankCommand | colodExecute =>
      rw [hframe] at h
      cases h
      exact ⟨herror, trivial⟩
    | read c yank command =>
      rw [hframe] at h
      refine good_of_unlocked h ?_
      intro h
      cases h
      exact ⟨herror, trivial⟩
    | executeNocheck command =>
      rw [hframe] at h
      simp only [react, executeNocheckReturned, herror] at h
      cases h
      exact ⟨herror, trivial⟩
    | yanking | closing =>
      rw [hframe] at h
      cases h
    | _ =>
      rw [hframe] at ha
      exact absurd ha id

theorem flow_good {allowed : Allowed} (hk : ∀ a ∈ k, a.frame.exchange) :
    Flow allowed lib co k Good where
  exit _ _ _ _ _ h := h
  react a ha _ _ _ _ hgood h := good_react (hk a ha) hgood h
  closing a _ _ r hgood _ := by
    rintro ⟨error, rfl⟩
    exact absurd hgood.2 id

theorem good_of_answered {point : Point} {outcome : Outcome} {reaction : Reaction}
    (hanswered : Answered lib this point outcome)
    (hreact : reactIo lib this co point outcome = some reaction) {this' : ColodQmpState}
    (h : reaction = .ok (this', .ret r)) : Good this' r := by
  subst h
  rcases hanswered with rfl | ⟨c, yank, skipEvents, text, result, rfl, rfl, hparse, hresult⟩
  · cases point with
    | clientWriting stoppedQemu result =>
      simp only [reactIo, Option.some.injEq] at hreact
      split_ifs at hreact <;> cases hreact
    | _ => cases hreact
  · simp only [reactIo, lineRead, hparse, Option.some.injEq] at hreact
    rcases hresult with ⟨rfl, hevent⟩ | ⟨herror, hnone⟩
    · simp only [hevent, Bool.and_self, if_true] at hreact
      split_ifs at hreact <;> cases hreact
    · split_ifs at hreact
      all_goals cases hreact
      exact ⟨hnone, herror⟩

theorem immediate_of_careful (h : Balanced s) {outcome : Outcome}
    (hcareful : Careful lib s (.io co false outcome)) :
    Immediate .withErrors lib s co outcome := by
  intro thread reaction hthread hreact
  by_cases hdangling : ∃ a ∈ thread.below, a.frame = .closing .dangling
  · have hanswered := hcareful.closing co outcome thread rfl ⟨thread, hthread, hdangling⟩ hthread
    have hexchange := exchange_of_closing (h.threadOk hthread).linked hdangling
    exact ⟨Good, flow_good hexchange, fun _ _ => good_of_answered hanswered hreact⟩
  · refine ⟨fun _ _ => True, ⟨fun _ _ _ _ _ h => h, fun _ _ _ _ _ _ _ _ => trivial, ?_⟩,
      fun _ _ _ => trivial⟩
    intro a ha _ _ _ hframe
    exact absurd ⟨a, ha, hframe⟩ hdangling

end Exchange

theorem errorsSet_step {label : Label} (h : Balanced s) (hstep : s.step lib label = some t)
    (hcareful : Careful lib s label) (hs : ErrorsSet s) : ErrorsSet t := by
  have hcases : (∃ co turn, t = s.settle co turn ∧ Settled .withErrors s.qmp co turn) ∨
      ∃ management clientsQuit, t = { s with qmp := { s.qmp with management, clientsQuit } } := by
    refine settled_step h hstep (.inl rfl) (.inr rfl) ?_ ?_
    · rintro co waited outcome thread rfl hthread hbare
      cases outcome with
      | line text =>
        exact hcareful.value co waited text rfl ⟨thread, hthread, hbare.1⟩
          (qmpParseResult_error_none.mp hbare.2)
      | _ => exact hbare
    · rintro co outcome rfl
      exact immediate_of_careful h hcareful
  rcases hcases with ⟨co, turn, rfl, hturn⟩ | ⟨management, clientsQuit, rfl⟩
  · cases turn with
    | error abort =>
      refine ⟨hs.failures, ?_, ?_⟩
      all_goals
        intro haborted
        cases Option.some.inj haborted
        rcases hturn with hturn | hturn <;> cases hturn
    | ok result =>
      refine ⟨?_, hs.missing, hs.dangling⟩
      intro x hx
      rcases hturn.1.bare x hx with hold | hnew
      · exact hs.failures x hold
      · exact hnew
  · exact ⟨hs.failures, hs.missing, hs.dangling⟩

section Malformed

def Callee.isReadLine : Callee → Prop
  | .readLine _ _ _ => True
  | _ => False

def Fn.isReadLine : Fn → Prop
  | .callee (.readLine _ _ _) => True
  | _ => False

/-- The frame passes the error on, ends its coroutine or is suspended. If it waits for a read, it
sets the sticky error unless it is a read itself. -/
def TakesError (this : ColodQmpState) (frame : Frame) (error : GError) (reaction : Reaction) :
    Prop :=
  ∃ next n, reaction = .ok (next, n) ∧
    (this.error.isSome = true ∨ frame.callee.isReadLine →
      next.error.isSome = true ∨ frame.fn.isReadLine) ∧
    (n = .ret (.failed (some (frame.passes error))) ∨
      (n = .finished ∨ ∃ point, n = .park point) ∧ ¬ frame.fn.isReadLine)

theorem takesError_unlocked {frame : Frame} {error : GError} {n : Next}
    (next : ColodQmpState → ColodQmpState)
    (hunlock : this.colodUnlockCo co c = .ok (this.release co c))
    (herror : (next (this.release co c)).error.isSome = true)
    (hn : n = .ret (.failed (some (frame.passes error))) ∨
      (n = .finished ∨ ∃ point, n = .park point) ∧ ¬ frame.fn.isReadLine) :
    TakesError this frame error (unlocked this co c fun this => .ok (next this, n)) := by
  refine ⟨next (this.release co c), n, ?_, fun _ => .inl herror, hn⟩
  rw [unlocked, hunlock]

theorem react_failed {frame : Frame} {error : GError} {allowed : Allowed}
    (hat : At allowed before co k frame.held this) (hdangling : frame ≠ .closing .dangling)
    (hstatus : ReadsStatus lib)
    (hfits : ∀ stoppedQemu call, frame = .clientWaiting stoppedQemu call →
      call ≠ .queryStatus → ReadsObject lib (errorReplyText error.message)) :
    TakesError this frame error (react lib this co frame (.failed (some error))) := by
  have hpass : react lib this co frame (.failed (some error)) =
        .ok (this, .ret (.failed (some error))) → frame.passes error = error →
      (frame.callee.isReadLine → frame.fn.isReadLine) →
      TakesError this frame error (react lib this co frame (.failed (some error))) := by
    intro hreact hpasses hread
    exact ⟨this, _, hreact, Or.imp_right hread, .inl (by rw [hpasses])⟩
  have hunlock : ∀ c, frame.held = Ledger.lock c + Ledger.unit →
      this.colodUnlockCo co c = .ok (this.release co c) := by
    intro c hheld
    rw [hheld] at hat
    exact (hat.release le_rfl).1
  cases frame with
  | read c yank command =>
    exact takesError_unlocked (fun this => (this.uncount co).qmpSetError error) (hunlock c rfl)
      rfl (.inl rfl)
  | greeting c | capabilities c | eventRead c =>
    exact takesError_unlocked (fun this => (this.qmpSetError error).uncount co) (hunlock c rfl)
      rfl (.inr ⟨.inl rfl, id⟩)
  | clientWaiting stoppedQemu call =>
    have hreply := hfits stoppedQemu call rfl
    have hread : ¬ (qemuCallee call).isReadLine := by cases call <;> exact id
    have hwrites : ∀ result, react lib this co (.clientWaiting stoppedQemu call)
          (.failed (some error)) = writeReply this stoppedQemu result → result.isSome = true →
        TakesError this (.clientWaiting stoppedQemu call) error
          (react lib this co (.clientWaiting stoppedQemu call) (.failed (some error))) := by
      intro result hreact hsome
      obtain ⟨reply, rfl⟩ := Option.isSome_iff_exists.mp hsome
      exact ⟨this, _, hreact, fun h => .inl (h.resolve_right hread),
        .inr ⟨.inr ⟨_, rfl⟩, id⟩⟩
    cases call with
    | queryStatus => exact hwrites _ rfl (parseReply_isSome_iff.mpr (hstatus _ _))
    | _ => exact hwrites _ rfl (parseReply_isSome_iff.mpr (hreply (by simp)))
  | closing localErrp =>
    refine ⟨this, .finished, ?_, fun h => .inl (h.resolve_right id), .inr ⟨.inl rfl, id⟩⟩
    cases localErrp with
    | dangling => exact absurd rfl hdangling
    | _ => rfl
  | again => exact hpass rfl rfl (fun _ => trivial)
  | _ => exact hpass rfl rfl False.elim

/-- An error reaches a frame that takes it, with the sticky error set on the way. -/
theorem drive_failed {error : GError} (hat : At .withErrors before co k 0 this)
    (hentry : entry = heldBy k) (hentered : Entered k) (hlinked : Linked co fn k)
    (hdangling : ∀ a ∈ k, a.frame ≠ .closing .dangling)
    (hstatus : ReadsStatus lib) (hfits : MessageFits lib k error)
    (hset : this.error.isSome = true ∨ fn.isReadLine) :
    ∃ next thread, drive lib co fn entry k (.ok (this, .ret (.failed (some error)))) =
      .ok (next, thread) ∧ next.error.isSome = true := by
  induction k generalizing fn entry this error with
  | nil =>
    refine ⟨_, _, rfl, hset.resolve_right ?_⟩
    cases co with
    | main i =>
      obtain ⟨call, rfl⟩ := hlinked
      cases call <;> exact id
    | _ =>
      cases hlinked
      exact id
  | cons a k ih =>
    obtain ⟨rfl, hlinked⟩ := hlinked
    have hreturned : this.ledger co = entry := by
      rw [hat.ledger, hentry, zero_add]
    have hframe : At .withErrors before co k a.frame.held
        (this.exit co (.callee a.frame.callee) entry (.failed (some error))) :=
      ⟨hat.toContinued.exit hreturned (by simp), hreturned.trans hentry⟩
    have hnot : a.frame ≠ .closing .dangling := hdangling a List.mem_cons_self
    have hmoves : Moves .withErrors before co a.frame.fn k (react lib
        (this.exit co (.callee a.frame.callee) entry (.failed (some error))) co a.frame
        (.failed (some error))) :=
      moves_react hframe (by simp) (.inl rfl) (.inr rfl) (fun h _ => absurd h hnot)
    have hclient : ∀ stoppedQemu call, a.frame = .clientWaiting stoppedQemu call →
        call ≠ .queryStatus → ReadsObject lib (errorReplyText error.message) := by
      intro stoppedQemu call heq hcall
      have hfit := hfits a List.mem_cons_self stoppedQemu call heq hcall
      -- the client loop is at the bottom
      cases k with
      | nil => simpa [prefixed, heq, Frame.passes] using hfit
      | cons b k =>
        have hfn := hlinked.1
        rw [heq] at hfn
        cases hfn
    obtain ⟨next, n, hreact, herror, hn⟩ := react_failed hframe hnot hstatus hclient
    have hset' : next.error.isSome = true ∨ a.frame.fn.isReadLine := by
      apply herror
      refine hset.imp_right ?_
      cases a.frame.callee <;> exact id
    rw [drive, hreact]
    rw [hreact] at hmoves
    rcases hn with rfl | ⟨rfl | ⟨point, rfl⟩, hfn⟩
    · exact ih hmoves.1 hentered.1 hentered.2 hlinked
        (fun b hb => hdangling b (List.mem_cons_of_mem _ hb))
        (fun b hb => hfits b (List.mem_cons_of_mem _ hb)) hset'
    · exact ⟨_, _, drive_finished, hset'.resolve_right hfn⟩
    · exact ⟨_, _, drive_park, hset'.resolve_right hfn⟩

theorem prefixed_suspended (k : List Activation) (error : GError) :
    prefixed (suspended k) error = prefixed k error := by
  induction k generalizing error with
  | nil => rfl
  | cons a k ih =>
    have hcons : prefixed (suspended (a :: k)) error =
        prefixed (suspended k) (a.frame.suspended.passes error) := rfl
    have hpasses : a.frame.suspended.passes error = a.frame.passes error := by
      cases a.frame <;> rfl
    rw [hcons, hpasses, ih]
    rfl

theorem messageFits_suspended {error : GError} (h : MessageFits lib k error) :
    MessageFits lib (suspended k) error := by
  intro a ha stoppedQemu call hframe
  obtain ⟨b, hb, rfl⟩ := List.mem_map.mp ha
  rw [prefixed_suspended]
  refine h b hb stoppedQemu call ?_
  cases hb : b.frame <;> simp_all [Frame.suspended]

/-- A malformed line ends the client loop, or makes its `error_client` start qemu again. -/
theorem malformed_client {text : String} {error : GError} (h : Shared this)
    (herror : qmpParseResult lib text = .error (some error)) (co : Co) (entry : Ledger)
    (k : List Activation) (stoppedQemu : Bool) :
    ∃ next thread, drive lib co .client entry k (clientRead lib this stoppedQemu text) =
      .ok (next, thread) ∧
      ∀ u, thread = some u → ∃ a ∈ u.below, ∃ localErrp, a.frame = .closing localErrp := by
  unfold clientRead
  split_ifs
  · exact ⟨_, none, drive_finished, by simp⟩
  · rw [herror]
    cases stoppedQemu with
    | false => exact ⟨_, none, drive_finished, by simp⟩
    | true =>
      obtain ⟨next, point, heq⟩ := startExecute_ok h
      refine ⟨next, _, drive_call.trans heq, ?_⟩
      intro u hu
      cases hu
      exact ⟨_, .tail _ (.tail _ (.head _)), _, rfl⟩

theorem clientClosed_settle {next : ColodQmpState} {thread : Option Thread}
    (h : ∀ u, thread = some u → ∃ a ∈ u.below, ∃ localErrp, a.frame = .closing localErrp) :
    (s.settle co (.ok (next, thread))).ClientClosed co := by
  intro u hu
  exact h u (by simpa [System.settle] using hu)

/-- A malformed line that a read gets sets the sticky error. -/
theorem malformed_read {thread : Thread} {waited : Bool} {text : String} {error : GError}
    (h : Balanced s) (hstatus : ReadsStatus lib) (hthread : s.thread co = some thread)
    (hcareful : Careful lib s (.io co waited (.line text)))
    (herror : qmpParseResult lib text = .error (some error)) (hread : thread.point.fn.isReadLine) :
    ∃ next thread', drive lib co thread.point.fn thread.entry
        (if waited then suspended thread.below else thread.below)
        (.ok (s.qmp, .ret (.failed (some error)))) = .ok (next, thread') ∧
      next.error.isSome = true := by
  have hok := h.threadOk hthread
  have hfits := hcareful.message co waited text thread error rfl hthread herror
  have hzero : thread.point.held = 0 := by
    cases hpoint : thread.point <;> simp_all [Point.fn, Fn.isReadLine, Point.held]
  cases waited with
  | true =>
    have hsuspended := hok.suspended
    refine drive_failed ⟨.refl h.shared, ?_⟩ hsuspended.entry hsuspended.entered
      hsuspended.linked ?_ hstatus (messageFits_suspended hfits) (.inr hread)
    · simpa [hzero] using hsuspended.ledger
    · intro a ha
      obtain ⟨b, -, rfl⟩ := List.mem_map.mp ha
      cases b.frame <;> simp [Frame.suspended]
  | false =>
    refine drive_failed ⟨.refl h.shared, ?_⟩ hok.entry hok.entered hok.linked ?_ hstatus hfits
      (.inr hread)
    · simpa [hzero] using hok.ledger
    · intro a ha hframe
      rcases hcareful.closing co _ thread rfl ⟨thread, hthread, a, ha, hframe⟩ hthread with
        hwritten | ⟨d, yank, skipEvents, text', result, -, hline, hparse, -⟩
      · cases hwritten
      · cases hline
        rw [herror] at hparse
        cases hparse

theorem malformedHandled_step {label : Label} (h : Balanced s) (hstatus : ReadsStatus lib)
    (hstep : s.step lib label = some t) (hcareful : Careful lib s label) :
    MalformedHandled lib s label t := by
  rintro co waited text error thread rfl hparses herror hthread
  obtain ⟨error, rfl⟩ : ∃ e, error = some e := by
    cases error with
    | none =>
      exact absurd (qmpParseResult_error_none.mp herror) 
        (hcareful.value co waited text rfl hparses)
    | some error => exact ⟨error, rfl⟩
  unfold System.step at hstep
  split_ifs at hstep with haborted
  simp only [Outcome.possible, if_true] at hstep
  obtain ⟨thread', hthread', hstep⟩ := Option.bind_eq_some_iff.mp hstep
  obtain rfl : thread = thread' := Option.some.inj (hthread.symm.trans hthread')
  obtain ⟨reaction, hreaction, hstep⟩ := Option.bind_eq_some_iff.mp hstep
  cases hstep
  have hnone : s.aborted = none := by simpa using haborted
  cases hpoint : thread.point with
  | reading c yank skipEvents =>
    have hread : thread.point.fn.isReadLine := by rw [hpoint]; trivial
    obtain ⟨next, thread', hdrive, hset⟩ := malformed_read h hstatus hthread hcareful herror
      hread
    rw [hpoint] at hreaction hdrive
    simp only [reactIo, lineRead, herror, Option.some.injEq] at hreaction
    subst hreaction
    rw [hdrive]
    exact ⟨by simp, hnone, by simp [Point.fn], fun _ => hset⟩
  | clientReading stoppedQemu =>
    rw [hpoint] at hreaction
    cases hreaction
    obtain ⟨next, thread', hdrive, hclosing⟩ := malformed_client h.shared herror co thread.entry
      (if waited then suspended thread.below else thread.below) stoppedQemu
    rw [Point.fn, hdrive]
    exact ⟨by simp, hnone, fun _ => clientClosed_settle hclosing, by simp⟩
  | _ =>
    rw [hpoint] at hreaction
    cases hreaction

end Malformed

section Runs
variable {management : Management} {labels : List Label}

theorem failures_have_errors (hstatus : ReadsStatus lib)
    (hrun : run (System.step lib) (System.qmpNew management) labels = some s)
    (hcareful : Along (System.step lib) (Careful lib) (System.qmpNew management) labels) :
    ErrorsSet s ∧ ∀ label t, Careful lib s label → s.step lib label = some t →
      MalformedHandled lib s label t := by
  have hinit : Balanced (System.qmpNew management) ∧ ErrorsSet (System.qmpNew management) :=
    ⟨balanced_qmpNew management, by simp [System.qmpNew], by simp [System.qmpNew],
      by simp [System.qmpNew]⟩
  obtain ⟨hbalanced, herrors⟩ : Balanced s ∧ ErrorsSet s := by
    refine run_invariant_along (P := fun u => Balanced u ∧ ErrorsSet u) ?_ hrun hcareful hinit
    rintro u label v hstep hlabel ⟨hu, herrors⟩
    exact ⟨balanced_step hu hstep, errorsSet_step hu hstep hlabel herrors⟩
  exact ⟨herrors, fun label t hlabel hstep => malformedHandled_step hbalanced hstatus hstep hlabel⟩

/-- A parser of one request and of the empty object. -/
def requestGlib : JsonGlib where
  fromString text :=
    if text = "\n" then .nothing
    else if text = stopRequest then .value (.object [("exec-colod", .string "stop")])
    else if text.toList.head? = some '{' then .value (.object [])
    else .unparsable "Parse error"
  toText _ := "[]"
  equal _ _ := false

theorem head_append {a b : String} {c : Char} (h : a.toList.head? = some c) :
    (a ++ b).toList.head? = some c := by
  rw [String.toList_append, List.head?_append, h]
  rfl

theorem readsObject_requestGlib {text : String} (h : text.toList.head? = some '{') :
    ReadsObject requestGlib text := by
  have hblank : text ≠ "\n" := by
    rintro rfl
    cases h
  unfold ReadsObject requestGlib
  simp only [if_neg hblank]
  split_ifs
  · exact ⟨_, rfl⟩
  · exact ⟨_, rfl⟩

/-- The coroutine is suspended before its channel operation ends, and the line is not blank. -/
def Label.plain : Label → Bool
  | .io _ true (.line text) => text ≠ "\n"
  | .io _ waited _ => waited
  | _ => true

theorem careful_of_plain {label : Label} (h : label.plain = true) :
    Careful requestGlib s label where
  value co waited text hlabel _ := by
    subst hlabel
    cases waited with
    | false => cases h
    | true =>
      have hblank : text ≠ "\n" := by simpa [Label.plain] using h
      unfold requestGlib
      simp only [if_neg hblank]
      split_ifs <;> simp
  closing co outcome thread hlabel := by
    subst hlabel
    cases outcome <;> cases h
  message := by
    rintro - - - - - - - - a ha stoppedQemu call - -
    exact readsObject_requestGlib (head_append (head_append rfl))

theorem along_plain {labels : List Label} (h : ∀ label ∈ labels, label.plain = true) :
    Along (System.step requestGlib) (Careful requestGlib) s labels := by
  induction labels generalizing s with
  | nil => trivial
  | cons label labels ih =>
    rw [List.forall_mem_cons] at h
    exact ⟨careful_of_plain h.1, fun _ _ => ih h.2⟩

/-- The handshake of the main channel, and a client whose command is written. -/
def writtenCommand : List Label :=
  [.resume (.handshake .channel), .io (.handshake .channel) true (.line "\x7b\x7d\n"),
    .io (.handshake .channel) true .written,
    .io (.handshake .channel) true (.line "\x7b\x7d\n"), .accept 0,
    .io (.client 0) true (.line "\x7b\x7d\n"), .io (.client 0) true .written]

/-- The reply to the command is malformed. -/
theorem failures_have_errors_malformedReply :
    ∃ s t, run (System.step requestGlib) (System.qmpNew configuredManagement) writtenCommand =
      some s ∧ s.step requestGlib (.io (.client 0) true (.line "no\n")) = some t ∧
      ErrorsSet s ∧
      MalformedHandled requestGlib s (.io (.client 0) true (.line "no\n")) t := by
  have hmap : (run (System.step requestGlib) (System.qmpNew configuredManagement)
      (writtenCommand ++ [.io (.client 0) true (.line "no\n")])).map
      (fun s => (s.qmp.inflight, s.qmp.error.isSome)) = some (3, true) := rfl
  obtain ⟨t, hrun, -⟩ := Option.map_eq_some_iff.mp hmap
  obtain ⟨s, hrun, hstep⟩ := run_snoc_eq_some.mp hrun
  have hstatus : ReadsStatus requestGlib := by
    intro management failed
    apply readsObject_requestGlib
    unfold Management.statusReplyText
    repeat apply head_append
    rfl
  obtain ⟨herrors, hmalformed⟩ := failures_have_errors hstatus hrun (along_plain (by decide))
  exact ⟨s, t, hrun, hstep, herrors, hmalformed _ t (careful_of_plain (by decide)) hstep⟩

/-- A client that has stopped qemu breaks, and the command that starts qemu again cannot be
written. -/
def brokenClient : List Label :=
  [.resume (.handshake .channel), .io (.handshake .channel) true (.line "\x7b\x7d\n"),
    .io (.handshake .channel) true .written,
    .io (.handshake .channel) true (.line "\x7b\x7d\n"), .accept 0,
    .io (.client 0) true (.line stopRequest), .io (.client 0) true .written,
    .io (.client 0) true (.line "\x7b\x7d\n"), .io (.client 0) true .written,
    .io (.client 0) true (.failed ⟨.channel, "Connection reset by peer"⟩),
    .io (.client 0) false (.failed ⟨.channel, "Broken pipe"⟩)]

/-- A blank line of a client, and the broken client. -/
theorem blank_line_crashes :
    (∃ s, run (System.step requestGlib) (System.qmpNew configuredManagement)
        [.accept 0, .io (.client 0) true (.line "\n")] = some s ∧
      s.aborted = some .missingError ∧ ¬ ErrorsSet s) ∧
    ∃ s, run (System.step requestGlib) (System.qmpNew configuredManagement) brokenClient =
        some s ∧ s.aborted = some .danglingError ∧ ¬ ErrorsSet s := by
  have hblank : (run (System.step requestGlib) (System.qmpNew configuredManagement)
      [.accept 0, .io (.client 0) true (.line "\n")]).map System.aborted =
      some (some .missingError) := rfl
  have hbroken : (run (System.step requestGlib) (System.qmpNew configuredManagement)
      brokenClient).map System.aborted = some (some .danglingError) := rfl
  constructor
  · obtain ⟨s, hrun, haborted⟩ := Option.map_eq_some_iff.mp hblank
    exact ⟨s, hrun, haborted, fun h => h.missing haborted⟩
  · obtain ⟨s, hrun, haborted⟩ := Option.map_eq_some_iff.mp hbroken
    exact ⟨s, hrun, haborted, fun h => h.dangling haborted⟩

end Runs
end ColoDaemon.QmpFrames
