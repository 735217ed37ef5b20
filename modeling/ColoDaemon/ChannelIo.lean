import ColoDaemon.PolledCall

/-!
# Channel I/O of the coroutines

`colod_channel_write_timeout_co` writes and then flushes, `colod_channel_read_line_timeout_co`
reads a line; both poll the channel and wait in the same way. The channel answers as it likes.
`WriteStage` and `ReadStage` hold the channel's side as well: what was handed to it, and what it
still has to give.
-/

namespace ColoDaemon
open Runs PolledCall

inductive IoStatus
  | normal
  | again
  | error
  | eof
  deriving DecidableEq, Repr

inductive ChannelError
  | channel
  | eof
  deriving DecidableEq, Repr

/-! ### The write -/

structure WriteStage where
  offset : ℕ
  /-- What the channel has taken. -/
  handed : List UInt8
  /-- What of it was flushed. -/
  flushed : List UInt8
  deriving DecidableEq, Repr

def WriteStage.new : WriteStage where
  offset := 0
  handed := []
  flushed := []

/-- The results of `g_io_channel_write_chars` and `g_io_channel_flush`. -/
inductive WriteAnswer
  | write (status : IoStatus) (writeLen : ℕ)
  | flush (status : IoStatus)
  deriving DecidableEq, Repr

def WriteAnswer.fruitless : WriteAnswer → Bool
  | .write .normal writeLen | .write .again writeLen => writeLen = 0
  | .flush .again => true
  | _ => false

/-- The two loops of `_colod_channel_write_timeout_co`; the channel takes at most what it is
given. -/
def writeTurn (buf : List UInt8) (stage : WriteStage) :
    WriteAnswer → Option (Turn WriteStage ChannelError Unit)
  | .write status writeLen =>
    if stage.offset < buf.length ∧ writeLen ≤ buf.length - stage.offset then
      let taken := { stage with
        offset := stage.offset + writeLen
        handed := stage.handed ++ (buf.drop stage.offset).take writeLen }
      match status with
      | .normal | .again => if writeLen = 0 then some .wait else some (.next taken)
      | .error => some (.finish taken (.error .channel))
      | .eof => some (.finish taken (.error .eof))
    else none
  | .flush status =>
    if stage.offset < buf.length then none
    else
      match status with
      | .again => some .wait
      | .normal => some (.finish { stage with flushed := stage.handed } (.ok ()))
      | .error => some (.finish stage (.error .channel))
      | .eof => some (.finish stage (.error .eof))

abbrev WriteCall := Call WriteStage ChannelError Unit

def colodChannelWriteTimeoutCo (timeout : ℕ) (buf : List UInt8) :
    WriteCall → Label WriteAnswer → Option WriteCall :=
  step timeout (writeTurn buf)

/-! ### The read -/

/-- What the peer has sent or will send, from the first byte not yet read. -/
abbrev ReadStage := List UInt8

/-- The result of `g_io_channel_read_line`. -/
inductive ReadAnswer
  | readLine (status : IoStatus) (len : ℕ)
  deriving DecidableEq, Repr

def ReadAnswer.fruitless : ReadAnswer → Bool
  | .readLine .normal len => len = 0
  | .readLine .again _ => true
  | _ => false

/-- The loop of `_colod_channel_read_line_timeout_co`; `lineLength` is where the channel ends the
next line. -/
def readTurn (lineLength : List UInt8 → ℕ) (unread : ReadStage) :
    ReadAnswer → Option (Turn ReadStage ChannelError (List UInt8))
  | .readLine status len =>
    match status with
    | .normal =>
      if len = 0 then some .wait
      else if len = lineLength unread then
        some (.finish (unread.drop len) (.ok (unread.take len)))
      else none
    | .again => some .wait
    | .error => some (.finish unread (.error .channel))
    | .eof => some (.finish unread (.error .eof))

abbrev ReadCall := Call ReadStage ChannelError (List UInt8)

def colodChannelReadLineTimeoutCo (timeout : ℕ) (lineLength : List UInt8 → ℕ) :
    ReadCall → Label ReadAnswer → Option ReadCall :=
  step timeout (readTurn lineLength)

/-! ### What a call has done when it returns -/

theorem fruitless_write (buf : List UInt8) : Fruitless (writeTurn buf) WriteAnswer.fruitless := by
  intro stage r t ht
  cases r with
  | write status writeLen =>
    simp only [writeTurn, Option.ite_none_right_eq_some] at ht
    obtain ⟨-, ht⟩ := ht
    cases status with
    | normal | again =>
      simp only at ht
      split_ifs at ht with hzero <;> cases ht <;> simp [WriteAnswer.fruitless, hzero]
    | error | eof => cases ht; simp [WriteAnswer.fruitless]
  | flush status =>
    simp only [writeTurn, Option.ite_none_left_eq_some] at ht
    obtain ⟨-, ht⟩ := ht
    cases status <;> cases ht <;> simp [WriteAnswer.fruitless]

theorem fruitless_read (lineLength : List UInt8 → ℕ) :
    Fruitless (readTurn lineLength) ReadAnswer.fruitless := by
  intro stage r t ht
  obtain ⟨status, len⟩ := r
  simp only [readTurn] at ht
  cases status with
  | normal =>
    simp only at ht
    split_ifs at ht with hzero hlen
    · cases ht
      simp [ReadAnswer.fruitless, hzero]
    · cases ht
      simp [ReadAnswer.fruitless, hzero]
  | again | error | eof => cases ht; simp [ReadAnswer.fruitless]

/-- The channel has taken what lies before the offset, and a call that succeeds has handed over
and flushed everything. -/
structure Handed (buf : List UInt8) (call : WriteCall) : Prop where
  handed : call.stage.handed = buf.take call.stage.offset
  offset : call.stage.offset ≤ buf.length
  done : call.outcome = some (.ok ()) → call.stage.handed = buf ∧ call.stage.flushed = buf

theorem handed_step {timeout : ℕ} {buf : List UInt8} {c d : WriteCall} {label : Label WriteAnswer}
    (hsound : Sound timeout c) (hstep : colodChannelWriteTimeoutCo timeout buf c label = some d)
    (h : Handed buf c) : Handed buf d := by
  obtain ⟨houtcome, hmoves⟩ := moves_of_step hsound hstep
  obtain ⟨hhanded, hoffset, -⟩ := h
  have hidle : ∀ e : WriteCall, e.stage = c.stage → e.outcome ≠ some (.ok ()) → Handed buf e := by
    intro e hstage hnot
    exact ⟨by rw [hstage]; exact hhanded, by rw [hstage]; exact hoffset, fun hok => absurd hok hnot⟩
  cases hmoves with
  | answer r skipped t hsuspended hturn =>
    cases r with
    | write status writeLen =>
      simp only [writeTurn, Option.ite_none_right_eq_some] at hturn
      obtain ⟨⟨hlt, hle⟩, hturn⟩ := hturn
      have htaken : c.stage.handed ++ (buf.drop c.stage.offset).take writeLen =
          buf.take (c.stage.offset + writeLen) := by
        rw [hhanded, List.take_add]
      have hbound : c.stage.offset + writeLen ≤ buf.length := by omega
      have hmoved : ∀ e : WriteCall, e.stage = { c.stage with
          offset := c.stage.offset + writeLen
          handed := c.stage.handed ++ (buf.drop c.stage.offset).take writeLen } →
          e.outcome ≠ some (.ok ()) → Handed buf e := by
        intro e hstage hnot
        refine ⟨?_, ?_, fun hok => absurd hok hnot⟩
        · rw [hstage]
          exact htaken
        · rw [hstage]
          exact hbound
      cases status with
      | normal | again =>
        simp only at hturn
        split_ifs at hturn
        · cases hturn
          exact hidle _ rfl (by simp [answered, suspend, houtcome])
        · cases hturn
          exact hmoved _ rfl (by simp [answered, houtcome])
      | error | eof =>
        cases hturn
        exact hmoved _ (by simp [answered]) (by simp [answered])
    | flush status =>
      simp only [writeTurn, Option.ite_none_left_eq_some] at hturn
      obtain ⟨hleft, hturn⟩ := hturn
      have hall : c.stage.handed = buf := by
        rw [hhanded, List.take_of_length_le (by omega)]
      cases status with
      | again =>
        cases hturn
        exact hidle _ rfl (by simp [answered, suspend, houtcome])
      | normal =>
        cases hturn
        refine ⟨?_, ?_, fun _ => ?_⟩
        · simpa [answered] using hhanded
        · simpa [answered] using hoffset
        · simp [answered, hall]
      | error | eof =>
        cases hturn
        exact hidle _ (by simp [answered]) (by simp [answered])
  | watch hsuspended => exact hidle _ rfl (by simp [resumed, houtcome])
  | timeout hsuspended hzero =>
    obtain ⟨hfires, hstage, -⟩ := woken_timeout hsound houtcome hsuspended hzero
    exact hidle _ hstage (by simp [hfires])
  | unrelated id hsuspended hid =>
    exact hidle _ rfl (by simp [resumed, Call.removeSource, houtcome])

/-- A call that succeeds has returned the next line and left the rest. -/
structure Line (lineLength : List UInt8 → ℕ) (unread : List UInt8) (call : ReadCall) : Prop where
  pending : call.outcome = none → call.stage = unread
  done : ∀ line, call.outcome = some (.ok line) →
    line = unread.take (lineLength unread) ∧ call.stage = unread.drop (lineLength unread)

theorem line_step {timeout : ℕ} {lineLength : List UInt8 → ℕ} {unread : List UInt8}
    {c d : ReadCall} {label : Label ReadAnswer} (hsound : Sound timeout c)
    (hstep : colodChannelReadLineTimeoutCo timeout lineLength c label = some d)
    (h : Line lineLength unread c) : Line lineLength unread d := by
  obtain ⟨houtcome, hmoves⟩ := moves_of_step hsound hstep
  have hstage := h.pending houtcome
  have hidle : ∀ e : ReadCall, e.stage = c.stage → (∀ line, e.outcome ≠ some (.ok line)) →
      Line lineLength unread e := by
    intro e he hnot
    exact ⟨fun _ => he.trans hstage, fun line hok => absurd hok (hnot line)⟩
  cases hmoves with
  | answer r skipped t hsuspended hturn =>
    obtain ⟨status, len⟩ := r
    simp only [readTurn] at hturn
    cases status with
    | normal =>
      simp only at hturn
      split_ifs at hturn with hzero hlen
      · cases hturn
        exact hidle _ rfl (by simp [answered, suspend, houtcome])
      · cases hturn
        subst hlen
        refine ⟨fun hnone => ?_, fun line hok => ?_⟩
        · simp [answered] at hnone
        · simp only [answered, leave_outcome, Option.some.injEq, Outcome.ok.injEq] at hok
          subst hok
          simp [answered, hstage]
    | again =>
      cases hturn
      exact hidle _ rfl (by simp [answered, suspend, houtcome])
    | error | eof =>
      cases hturn
      exact hidle _ (by simp [answered]) (by simp [answered])
  | watch hsuspended => exact hidle _ rfl (by simp [resumed, houtcome])
  | timeout hsuspended hzero =>
    obtain ⟨hfires, hstage', -⟩ := woken_timeout hsound houtcome hsuspended hzero
    exact hidle _ hstage' (by simp [hfires])
  | unrelated id hsuspended hid =>
    exact hidle _ rfl (by simp [resumed, Call.removeSource, houtcome])

/-! ### Whole calls -/

section Calls
variable {σ ρ α : Type} (timeout : ℕ) (turn : σ → ρ → Option (Turn σ ChannelError α))
  (fruitless : ρ → Bool) (begin : Call σ ChannelError α) (labels : List (Label ρ))
  (call : Call σ ChannelError α)

/-- What holds of every call that has returned, whatever it has to do. -/
structure Transparent : Prop where
  /-- The run without the unrelated resumptions ends in the same way. -/
  sameOutcome : ∃ other, run (step timeout turn) begin (withoutUnrelated fruitless labels) =
    some other ∧ other.outcome = call.outcome
  related : ∀ label ∈ withoutUnrelated fruitless labels, label.isUnrelated = false
  sameAnswers : productive fruitless (withoutUnrelated fruitless labels) =
    productive fruitless labels
  /-- A timeout is reported by the dispatch of the call's own timer. -/
  timedOut : call.outcome = some .timedOut → labels.getLast? = some (.resume .timeout)
  detached : call.attached = []
  removed : call.missing = false

variable {timeout turn fruitless begin labels call}

theorem transparent (hfruitless : Fruitless turn fruitless) (hbegin : Sound timeout begin)
    (hnone : begin.outcome = none) (hrun : run (step timeout turn) begin labels = some call)
    (hreturned : call.outcome ≠ none) :
    Transparent timeout turn fruitless begin labels call := by
  have hsound := sound_run hrun hbegin
  obtain ⟨other, hother, hsame⟩ :=
    run_withoutUnrelated hfruitless hbegin hbegin ⟨rfl, rfl, rfl⟩ hrun hreturned
  exact ⟨⟨other, hother, hsame.outcome⟩, withoutUnrelated_related fruitless labels,
    productive_withoutUnrelated fruitless labels, timedOut_run hbegin hnone hrun,
    hsound.returned hreturned, hsound.missing⟩

end Calls

/-- Every call that returns is indifferent to partial progress and to unrelated resumptions: a
write that succeeds has handed over and flushed the buffer, a read that succeeds returns the next
line. -/
theorem channel_io_transparent (timeout current skipped : ℕ) (frame : ℕ × ℕ) :
    (∀ buf labels call,
      run (colodChannelWriteTimeoutCo timeout buf)
        (start timeout WriteStage.new current skipped frame) labels = some call →
      call.outcome ≠ none →
      Transparent timeout (writeTurn buf) WriteAnswer.fruitless
          (start timeout WriteStage.new current skipped frame) labels call ∧
        (call.outcome = some (.ok ()) → call.stage.handed = buf ∧ call.stage.flushed = buf)) ∧
    ∀ lineLength unread labels call,
      run (colodChannelReadLineTimeoutCo timeout lineLength)
        (start timeout unread current skipped frame) labels = some call →
      call.outcome ≠ none →
      Transparent timeout (readTurn lineLength) ReadAnswer.fruitless
          (start timeout unread current skipped frame) labels call ∧
        ∀ line, call.outcome = some (.ok line) →
          line = unread.take (lineLength unread) ∧
            call.stage = unread.drop (lineLength unread) := by
  constructor
  · intro buf labels call hrun hreturned
    refine ⟨transparent (fruitless_write buf) (sound_start _ _ _ _) rfl hrun hreturned, ?_⟩
    have hinv : Sound timeout call ∧ Handed buf call := by
      refine run_invariant (P := fun c => Sound timeout c ∧ Handed buf c) ?_ hrun
        ⟨sound_start _ _ _ _, by simp [start, WriteStage.new], Nat.zero_le _, by simp [start]⟩
      rintro c label d hstep ⟨hsound, hhanded⟩
      exact ⟨sound_step hstep hsound, handed_step hsound hstep hhanded⟩
    exact hinv.2.done
  · intro lineLength unread labels call hrun hreturned
    refine ⟨transparent (fruitless_read lineLength) (sound_start _ _ _ _) rfl hrun hreturned, ?_⟩
    have hinv : Sound timeout call ∧ Line lineLength unread call := by
      refine run_invariant (P := fun c => Sound timeout c ∧ Line lineLength unread c) ?_ hrun
        ⟨sound_start _ _ _ _, fun _ => rfl, by simp [start]⟩
      rintro c label d hstep ⟨hsound, hline⟩
      exact ⟨sound_step hstep hsound, line_step hsound hstep hline⟩
    exact hinv.2.done

/-- Three bytes in two pieces; another source resumes the call before the first. -/
def inTwoPieces : List (Label WriteAnswer) :=
  [.answer (.write .again 0) 0, .resume (.unrelated 99), .answer (.write .normal 0) 0,
    .resume .watch, .answer (.write .normal 2) 0, .answer (.write .again 1) 0,
    .answer (.flush .again) 0, .resume (.unrelated 7), .answer (.flush .normal) 0]

/-- The line is not there when the timer fires. -/
def noLine : List (Label ReadAnswer) :=
  [.answer (.readLine .again 0) 0, .resume (.unrelated 99), .answer (.readLine .again 0) 0,
    .resume .timeout]

theorem channel_io_transparent_inTwoPieces :
    (∃ call, run (colodChannelWriteTimeoutCo 5 [1, 2, 3])
        (start 5 WriteStage.new 0 0 (0, 0)) inTwoPieces = some call ∧
      call.stage.handed = [1, 2, 3] ∧ call.stage.flushed = [1, 2, 3] ∧ call.attached = []) ∧
    ∃ call, run (colodChannelReadLineTimeoutCo 5 List.length)
        (start 5 [65, 10] 0 0 (0, 0)) noLine = some call ∧
      call.outcome = some .timedOut ∧ call.attached = [] := by
  obtain ⟨hwrites, hreads⟩ := channel_io_transparent 5 0 0 (0, 0)
  have hwrite : (run (colodChannelWriteTimeoutCo 5 [1, 2, 3])
      (start 5 WriteStage.new 0 0 (0, 0)) inTwoPieces).map (fun call => call.outcome) =
      some (some (.ok ())) := by decide
  have hread : (run (colodChannelReadLineTimeoutCo 5 List.length)
      (start 5 [65, 10] 0 0 (0, 0)) noLine).map (fun call => call.outcome) =
      some (some .timedOut) := by decide
  obtain ⟨write, hw, hdone⟩ := Option.map_eq_some_iff.mp hwrite
  obtain ⟨read, hr, htimedOut⟩ := Option.map_eq_some_iff.mp hread
  obtain ⟨hclean, hhanded⟩ := hwrites _ _ write hw (by simp [hdone])
  obtain ⟨hclean', -⟩ := hreads _ _ _ read hr (by simp [htimedOut])
  exact ⟨⟨write, hw, (hhanded hdone).1, (hhanded hdone).2, hclean.detached⟩,
    ⟨read, hr, htimedOut, hclean'.detached⟩⟩

end ColoDaemon
