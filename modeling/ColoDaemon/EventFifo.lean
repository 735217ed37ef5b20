import ColoDaemon.ClassFifo
import ColoDaemon.EventQueue
import Mathlib.Algebra.Ring.Int.Defs
import Mathlib.Algebra.Ring.Nat

/-!
# The event queue is an interrupt-first FIFO

`EventFifo` holds the pending events in the order of arrival and says of every call what it should
answer. `EventQueue` sorts by class and by a truncated difference of sequence numbers instead;
`Represents` relates the two, and holds after any calls as long as the sequence numbers of the
pending events are close together.
-/

namespace ColoDaemon
open SortedInsert ClassFifo

/-- An event with the number of events that arrived before it. -/
structure Arrival where
  number : ℕ
  event : ColodEvent
  deriving DecidableEq, Repr

namespace Arrival

def toEvent (this : Arrival) : Event := ⟨this.event, .ofNat this.number⟩

def Before (a b : Arrival) : Prop := a.number < b.number

/-- Sequence numbers that the comparator can tell apart. -/
def Close (l : List Arrival) : Prop := ∀ a ∈ l, ∀ b ∈ l, a.number < b.number + 2 ^ 31

theorem before_trans (a b c : Arrival) (hab : a.Before b) (hbc : b.Before c) : a.Before c :=
  Nat.lt_trans hab hbc

theorem before_asymm (a b : Arrival) (hab : a.Before b) : ¬ b.Before a := Nat.lt_asymm hab

end Arrival

inductive QueueCall
  | add (event : ColodEvent)
  | remove
  | peek
  | last
  | setInterrupting (events : List ColodEvent)
  | pendingInterrupt
  deriving DecidableEq, Repr

inductive Answer (α : Type)
  | added (done : Bool)
  | removed (event : Option α)
  | peeked (event : Option α)
  | latest (event : Option α)
  | set
  | interrupt (pending : Bool)
  deriving DecidableEq, Repr

def Answer.map {α β : Type} (f : α → β) : Answer α → Answer β
  | .added done => .added done
  | .removed event => .removed (event.map f)
  | .peeked event => .peeked (event.map f)
  | .latest event => .latest (event.map f)
  | .set => .set
  | .interrupt pending => .interrupt pending

/-- The pending events in the order of arrival. -/
structure EventFifo where
  pending : List Arrival
  arrived : ℕ
  size : ℕ
  interruptingAlways : ColodEvent → Bool
  interrupting : ColodEvent → Bool

namespace EventFifo

def new (size : ℕ) (always : List ColodEvent) : EventFifo where
  pending := []
  arrived := 0
  size := size
  interruptingAlways e := e ∈ always
  interrupting e := e ∈ always

def interrupts (this : EventFifo) (a : Arrival) : Bool := this.interrupting a.event

def call (this : EventFifo) : QueueCall → Answer Arrival × EventFifo
  | .add event =>
    if this.size ≤ this.pending.length then (.added false, this)
    else (.added true, { this with
      pending := this.pending ++ [⟨this.arrived, event⟩]
      arrived := this.arrived + 1 })
  | .remove =>
    (.removed (first this.interrupts this.pending),
      { this with pending := rest this.interrupts this.pending })
  | .peek => (.peeked (first this.interrupts this.pending), this)
  | .last => (.latest (last this.interrupts this.pending), this)
  | .setInterrupting events =>
    (.set, { this with interrupting := fun e => this.interruptingAlways e || e ∈ events })
  | .pendingInterrupt => (.interrupt (this.pending.any this.interrupts), this)

end EventFifo

def EventQueue.call (this : EventQueue) : QueueCall → Answer Event × EventQueue
  | .add event =>
    match eventqueueAdd this event with
    | none => (.added false, this)
    | some queue => (.added true, queue)
  | .remove =>
    match eventqueueRemove this with
    | none => (.removed none, this)
    | some (event, queue) => (.removed (some event), queue)
  | .peek => (.peeked (eventqueuePeek this), this)
  | .last => (.latest (eventqueueLast this), this)
  | .setInterrupting events => (.set, eventqueueSetInterrupting this events)
  | .pendingInterrupt => (.interrupt (eventqueuePendingInterrupt this), this)

section Calls
variable {S A : Type} (call : S → QueueCall → A × S)

def answers : S → List QueueCall → List A
  | _, [] => []
  | s, c :: cs => (call s c).1 :: answers (call s c).2 cs

def after (s : S) (calls : List QueueCall) : S := calls.foldl (fun s c => (call s c).2) s

end Calls

/-- The events taken off the queue, in order. -/
def removed {α : Type} (answers : List (Answer α)) : List α :=
  answers.filterMap fun
    | .removed event => event
    | _ => none

/-- The events that `eventqueue_add` accepted, in order. -/
def accepted {α : Type} (calls : List QueueCall) (answers : List (Answer α)) : List ColodEvent :=
  (calls.zip answers).filterMap fun
    | (.add event, .added true) => some event
    | _ => none

/-! ### The comparator -/

/-- The truncated difference has the sign of the difference. -/
theorem seqno_sub_nonpos {m n : ℕ} (h : m < n + 2 ^ 31) (h' : n < m + 2 ^ 31) :
    (UInt64.ofNat m - UInt64.ofNat n).toUInt32.toInt32.toInt ≤ 0 ↔ m ≤ n := by
  have hnat : (UInt64.ofNat m - UInt64.ofNat n).toUInt32.toNat =
      (2 ^ 64 - n % 2 ^ 64 + m % 2 ^ 64) % 2 ^ 64 % 2 ^ 32 := by
    rw [UInt64.toNat_toUInt32, UInt64.toNat_sub]
    simp
  have hint : ∀ x : UInt32, x.toInt32.toInt =
      if 2 * x.toNat < 2 ^ 32 then (x.toNat : ℤ) else x.toNat - 2 ^ 32 :=
    fun x => BitVec.toInt_eq_toNat_cond x.toBitVec
  rw [hint, hnat]
  split_ifs
  · omega
  · omega

/-- The comparator puts the class first and keeps the order of arrival within a class. -/
theorem sort_nonpos_iff {interrupting : ColodEvent → Bool} {a b : Arrival}
    (hab : a.number < b.number + 2 ^ 31) (hba : b.number < a.number + 2 ^ 31)
    (hne : a.number ≠ b.number) :
    eventqueueSort interrupting b.toEvent a.toEvent ≤ 0 ↔
      Precedes (fun c => interrupting c.event) Arrival.Before b a := by
  have hseqno := seqno_sub_nonpos hba hab
  unfold eventqueueSort Precedes Arrival.toEvent Arrival.Before
  cases ha : interrupting a.event <;> cases hb : interrupting b.event
  · simp only [ha, hb, ne_eq, not_true_eq_false, if_false, if_true]
    rw [hseqno]
    omega
  · simp [ha, hb]
  · simp [ha, hb]
  · simp only [ha, hb, ne_eq, not_true_eq_false, if_false, if_true]
    rw [hseqno]
    omega

theorem insertAfter_map {α β : Type} (f : α → β) (q : β → Bool) (a : α) (l : List α) :
    insertAfter q (f a) (l.map f) = (insertAfter (q ∘ f) a l).map f := by
  unfold insertAfter
  simp [List.takeWhile_map, List.dropWhile_map]

/-- An insertion into the sequence, in terms of arrivals. -/
theorem gSequenceInsertSorted_map (interrupting : ColodEvent → Bool) (a : Arrival)
    (l : List Arrival) :
    gSequenceInsertSorted interrupting a.toEvent (l.map Arrival.toEvent) =
      (insertAfter (fun b => decide (eventqueueSort interrupting b.toEvent a.toEvent ≤ 0)) a
        l).map Arrival.toEvent :=
  insertAfter_map Arrival.toEvent _ a l

theorem gSequenceSort_map (interrupting : ColodEvent → Bool) (l : List Arrival) :
    gSequenceSort interrupting (l.map Arrival.toEvent) =
      (l.foldl (fun acc a => insertAfter
        (fun b => decide (eventqueueSort interrupting b.toEvent a.toEvent ≤ 0)) a acc)
        []).map Arrival.toEvent := by
  have hfold : ∀ l acc : List Arrival,
      (l.map Arrival.toEvent).foldl (fun acc a => gSequenceInsertSorted interrupting a acc)
          (acc.map Arrival.toEvent) =
        (l.foldl (fun acc a => insertAfter
          (fun b => decide (eventqueueSort interrupting b.toEvent a.toEvent ≤ 0)) a acc)
          acc).map Arrival.toEvent := by
    intro l
    induction l with
    | nil => exact fun acc => rfl
    | cons a l ih =>
      intro acc
      simp only [List.map_cons, List.foldl_cons, gSequenceInsertSorted_map]
      exact ih _
  exact hfold l []

/-! ### One call -/

/-- The state of the queue that stands for the arrivals. -/
structure Represents (q : EventQueue) (f : EventFifo) : Prop where
  sequence : q.sequence = (arrange f.interrupts f.pending).map Arrival.toEvent
  seqCounter : q.seqCounter = .ofNat f.arrived
  size : q.size = f.size
  interruptingAlways : q.interruptingAlways = f.interruptingAlways
  interrupting : q.interrupting = f.interrupting

namespace EventFifo

structure Sound (f : EventFifo) : Prop where
  ordered : f.pending.Pairwise Arrival.Before
  arrived : ∀ a ∈ f.pending, a.number < f.arrived
  room : f.pending.length ≤ f.size

theorem sound_new (size : ℕ) (always : List ColodEvent) : (new size always).Sound where
  ordered := List.Pairwise.nil
  arrived := nofun
  room := Nat.zero_le size

theorem Sound.append {f : EventFifo} (h : f.Sound) (event : ColodEvent) :
    (f.pending ++ [Arrival.mk f.arrived event]).Pairwise Arrival.Before := by
  refine List.pairwise_append.mpr ⟨h.ordered, List.pairwise_singleton _ _, ?_⟩
  intro a ha b hb
  rw [List.mem_singleton.mp hb]
  exact h.arrived a ha

theorem mem_of_mem_rest {f : EventFifo} {a : Arrival} (h : a ∈ rest f.interrupts f.pending) :
    a ∈ f.pending := by
  unfold rest at h
  split at h
  · cases h
  · exact List.mem_of_mem_erase h

theorem length_rest_le (f : EventFifo) :
    (rest f.interrupts f.pending).length ≤ f.pending.length := by
  unfold rest
  split
  · exact Nat.zero_le _
  · exact List.erase_sublist.length_le

theorem Sound.call {f : EventFifo} (h : f.Sound) (c : QueueCall) : (f.call c).2.Sound := by
  cases c with
  | add event =>
    simp only [EventFifo.call]
    split_ifs with hfull
    · exact h
    · refine ⟨h.append event, ?_, ?_⟩
      · intro a ha
        rcases List.mem_append.mp ha with ha | ha
        · exact Nat.lt_succ_of_lt (h.arrived a ha)
        · rw [List.mem_singleton.mp ha]
          exact Nat.lt_succ_self _
      · simp only [List.length_append, List.length_singleton]
        omega
  | remove =>
    refine ⟨?_, fun a ha => h.arrived a (mem_of_mem_rest ha), Nat.le_trans f.length_rest_le h.room⟩
    change (rest f.interrupts f.pending).Pairwise Arrival.Before
    unfold rest
    split
    · exact List.Pairwise.nil
    · exact h.ordered.sublist List.erase_sublist
  | setInterrupting events => exact ⟨h.ordered, h.arrived, h.room⟩
  | peek | last | pendingInterrupt => exact h

end EventFifo

namespace Represents
variable {q : EventQueue} {f : EventFifo}

theorem used (h : Represents q f) : q.used = f.pending.length := by
  rw [EventQueue.used, h.sequence, List.length_map, length_arrange]

/-- The comparator tells arrivals apart that are close together. -/
theorem sort_iff {interrupting : ColodEvent → Bool} {l : List Arrival} (hclose : Arrival.Close l)
    {a b : Arrival} (ha : a ∈ l) (hb : b ∈ l) (hdiffer : a.Before b ∨ b.Before a) :
    decide (eventqueueSort interrupting b.toEvent a.toEvent ≤ 0) = true ↔
      Precedes (fun c => interrupting c.event) Arrival.Before b a := by
  rw [decide_eq_true_iff]
  apply sort_nonpos_iff (hclose a ha b hb) (hclose b hb a ha)
  rcases hdiffer with hlt | hlt
  · exact Nat.ne_of_lt hlt
  · exact (Nat.ne_of_lt hlt).symm

theorem add (h : Represents q f) (hs : f.Sound) {event : ColodEvent}
    (hclose : Arrival.Close (f.pending ++ [Arrival.mk f.arrived event])) :
    gSequenceInsertSorted q.interrupting ⟨event, q.seqCounter⟩ q.sequence =
      (arrange f.interrupts (f.pending ++ [Arrival.mk f.arrived event])).map Arrival.toEvent := by
  have hnew : (⟨event, q.seqCounter⟩ : Event) = (⟨f.arrived, event⟩ : Arrival).toEvent := by
    rw [h.seqCounter]
    rfl
  rw [hnew, h.sequence, h.interrupting, gSequenceInsertSorted_map]
  congr 1
  apply insertAfter_arrange Arrival.before_trans Arrival.before_asymm (hs.append event)
  intro b hb
  exact sort_iff hclose (by simp) (by simp [hb]) (.inr (hs.arrived b hb))

theorem set (h : Represents q f) (hs : f.Sound) (hclose : Arrival.Close f.pending)
    (interrupting : ColodEvent → Bool) :
    gSequenceSort interrupting q.sequence =
      (arrange (fun a => interrupting a.event) f.pending).map Arrival.toEvent := by
  rw [h.sequence, gSequenceSort_map]
  congr 1
  apply sort_eq_arrange Arrival.before_trans Arrival.before_asymm hs.ordered
    (perm_arrange f.interrupts f.pending)
  intro a ha b hb hdiffer
  exact sort_iff hclose ha hb hdiffer

theorem first_eq (h : Represents q f) :
    q.sequence.head? = (first f.interrupts f.pending).map Arrival.toEvent := by
  rw [h.sequence, List.head?_map, head?_arrange]

/-- A pending event is interrupting exactly when the first one is. -/
theorem pendingInterrupt (h : Represents q f) :
    eventqueuePendingInterrupt q = f.pending.any f.interrupts := by
  unfold eventqueuePendingInterrupt eventqueuePeek
  rw [h.first_eq, h.interrupting]
  unfold first
  cases hfind : f.pending.find? f.interrupts with
  | some a =>
    have ha : f.interrupts a = true := List.find?_some hfind
    have hany : f.pending.any f.interrupts = true :=
      List.any_eq_true.mpr ⟨a, List.mem_of_find?_eq_some hfind, ha⟩
    rw [hany]
    exact ha
  | none =>
    have hnone : ∀ a ∈ f.pending, f.interrupts a = false := by simpa using hfind
    have hany : f.pending.any f.interrupts = false := by simpa using hnone
    rw [hany]
    cases hhead : f.pending.head? with
    | none => simp
    | some a => exact hnone a (List.mem_of_head? hhead)

/-- Each call answers as the arrivals say. -/
theorem call (h : Represents q f) (hs : f.Sound) (c : QueueCall)
    (hclose : Arrival.Close f.pending) (hnext : Arrival.Close (f.call c).2.pending) :
    (q.call c).1 = (f.call c).1.map Arrival.toEvent ∧ Represents (q.call c).2 (f.call c).2 := by
  cases c with
  | add event =>
    simp only [EventFifo.call] at hnext ⊢
    have hused := h.used
    have hsize := h.size
    have hroom := hs.room
    by_cases hfull : f.size ≤ f.pending.length
    · have hnone : eventqueueAdd q event = none := if_pos (by omega)
      simp only [EventQueue.call, hnone, if_pos hfull]
      exact ⟨rfl, h⟩
    · rw [if_neg hfull] at hnext
      have hsome : eventqueueAdd q event = some _ := if_neg (by omega)
      simp only [EventQueue.call, hsome, if_neg hfull]
      refine ⟨rfl, h.add hs hnext, ?_, h.size, h.interruptingAlways, h.interrupting⟩
      rw [h.seqCounter]
      simp
  | remove =>
    have hfirst := h.first_eq
    simp only [EventQueue.call, EventFifo.call, eventqueueRemove]
    cases hsequence : q.sequence with
    | nil =>
      have hempty : f.pending = [] := by
        have hlength := h.used
        rw [EventQueue.used, hsequence] at hlength
        exact List.length_eq_zero_iff.mp hlength.symm
      have hrest : rest f.interrupts f.pending = f.pending := by simp [hempty, rest, first]
      rw [hrest]
      exact ⟨by simp [hempty, first, Answer.map], h⟩
    | cons a tail =>
      have hsplit := hsequence.symm.trans h.sequence
      obtain ⟨b, arrived, harrange, rfl, htail⟩ := List.map_eq_cons_iff.mp hsplit.symm
      have hrest := arrange_eq_cons Arrival.before_asymm hs.ordered harrange
      have hb : first f.interrupts f.pending = some b := by
        rw [← head?_arrange, harrange, List.head?_cons]
      refine ⟨by simp [hb, Answer.map], ?_, h.seqCounter, h.size, h.interruptingAlways,
        h.interrupting⟩
      rw [← htail, hrest]
      rfl
  | peek =>
    exact ⟨by simp [EventQueue.call, EventFifo.call, Answer.map, eventqueuePeek, h.first_eq], h⟩
  | last =>
    refine ⟨?_, h⟩
    simp [EventQueue.call, EventFifo.call, Answer.map, eventqueueLast, h.sequence,
      getLast?_arrange]
  | setInterrupting events =>
    refine ⟨rfl, ?_, h.seqCounter, h.size, h.interruptingAlways, ?_⟩
    · change gSequenceSort _ q.sequence = _
      rw [h.set hs hclose, h.interruptingAlways]
      rfl
    · change (fun e => q.interruptingAlways e || decide (e ∈ events)) = _
      rw [h.interruptingAlways]
      rfl
  | pendingInterrupt =>
    exact ⟨by simp [EventQueue.call, EventFifo.call, Answer.map, h.pendingInterrupt], h⟩

end Represents

/-! ### Any calls -/

/-- The arrivals pending together are close after any number of the calls. -/
def CloseTogether (f : EventFifo) (calls : List QueueCall) : Prop :=
  ∀ n, Arrival.Close (after EventFifo.call f (calls.take n)).pending

theorem CloseTogether.cons {f : EventFifo} {c : QueueCall} {calls : List QueueCall}
    (h : CloseTogether f (c :: calls)) :
    Arrival.Close f.pending ∧ CloseTogether (f.call c).2 calls :=
  ⟨h 0, fun n => h (n + 1)⟩

theorem Represents.calls {q : EventQueue} {f : EventFifo} {calls : List QueueCall}
    (h : Represents q f) (hs : f.Sound) (hclose : CloseTogether f calls) :
    answers EventQueue.call q calls =
        (answers EventFifo.call f calls).map (Answer.map Arrival.toEvent) ∧
      Represents (after EventQueue.call q calls) (after EventFifo.call f calls) := by
  induction calls generalizing q f with
  | nil => exact ⟨rfl, h⟩
  | cons c calls ih =>
    obtain ⟨hnow, hlater⟩ := hclose.cons
    obtain ⟨hanswer, hnext⟩ := h.call hs c hnow (hlater 0)
    obtain ⟨hanswers, hafter⟩ := ih hnext (hs.call c) hlater
    exact ⟨by simp only [answers, List.map_cons, hanswer, hanswers], hafter⟩

theorem perm_rest {p : Arrival → Bool} {l : List Arrival} {a : Arrival}
    (h : first p l = some a) : (a :: rest p l).Perm l := by
  have hmem : a ∈ l := by
    rw [← head?_arrange] at h
    exact mem_arrange.mp (List.mem_of_head? h)
  simp only [rest, h]
  exact (List.perm_cons_erase hmem).symm

/-- Every arrival is either pending or was removed, once. -/
theorem EventFifo.conserved (f : EventFifo) (calls : List QueueCall) :
    (removed (answers EventFifo.call f calls) ++
        (after EventFifo.call f calls).pending).Perm
      (f.pending ++ (accepted calls (answers EventFifo.call f calls)).mapIdx
        fun n event => ⟨f.arrived + n, event⟩) := by
  induction calls generalizing f with
  | nil => simp [removed, accepted, answers, after]
  | cons c calls ih =>
    have ih := ih (f.call c).2
    cases c with
    | add event =>
      by_cases hfull : f.size ≤ f.pending.length
      · have hcall : f.call (.add event) = (.added false, f) := if_pos hfull
        rw [hcall] at ih
        simpa [removed, accepted, answers, after, hcall] using ih
      · have hcall : f.call (.add event) = (.added true, { f with
            pending := f.pending ++ [Arrival.mk f.arrived event]
            arrived := f.arrived + 1 }) := if_neg hfull
        rw [hcall] at ih
        simpa [removed, accepted, answers, after, hcall, List.mapIdx_cons, Nat.add_assoc,
          Nat.add_comm 1] using ih
    | remove =>
      cases hfirst : first f.interrupts f.pending with
      | none =>
        have hempty : rest f.interrupts f.pending = f.pending := by
          have hnil : f.pending = [] := by
            rw [← head?_arrange, List.head?_eq_none_iff] at hfirst
            have hlength := congrArg List.length hfirst
            simpa using hlength
          simp [hnil, rest, first]
        simpa [removed, accepted, answers, after, EventFifo.call, hfirst, hempty] using ih
      | some a =>
        have hperm := (ih.cons a).trans ((perm_rest hfirst).append_right _)
        simpa [removed, accepted, answers, after, EventFifo.call, hfirst] using hperm
    | peek | last | setInterrupting | pendingInterrupt =>
      simpa [removed, accepted, answers, after, EventFifo.call] using ih

theorem removed_map (f : Arrival → Event) (answers : List (Answer Arrival)) :
    removed (answers.map (Answer.map f)) = (removed answers).map f := by
  induction answers with
  | nil => rfl
  | cons answer answers ih =>
    unfold removed at ih
    cases answer with
    | removed event => cases event <;> simp [removed, Answer.map, ih]
    | _ => simp [removed, Answer.map, ih]

theorem accepted_map (f : Arrival → Event) (calls : List QueueCall)
    (answers : List (Answer Arrival)) :
    accepted calls (answers.map (Answer.map f)) = accepted calls answers := by
  induction calls generalizing answers with
  | nil => simp [accepted]
  | cons c calls ih =>
    cases answers with
    | nil => simp [accepted]
    | cons answer answers =>
      unfold accepted at ih
      cases answer with
      | added done => cases done <;> cases c <;> simp [accepted, Answer.map, ih]
      | _ => cases c <;> simp [accepted, Answer.map, ih]

theorem getElem?_answers {S A : Type} (call : S → QueueCall → A × S) (s : S)
    (calls : List QueueCall) (n : ℕ) :
    (answers call s calls)[n]? =
      calls[n]?.map fun c => (call (after call s (calls.take n)) c).1 := by
  induction calls generalizing s n with
  | nil => simp [answers]
  | cons c calls ih =>
    cases n with
    | zero => simp [answers, after]
    | succ n => simpa [answers, after] using ih (call s c).2 n

/-- What the queue does on these calls, next to the arrivals. -/
structure RefinesFifo (size : ℕ) (always : List ColodEvent) (calls : List QueueCall) : Prop where
  answers : answers EventQueue.call (eventqueueNew size always) calls =
    (answers EventFifo.call (.new size always) calls).map (Answer.map Arrival.toEvent)
  /-- No event is lost or duplicated. -/
  conserved : (removed (ColoDaemon.answers EventQueue.call (eventqueueNew size always) calls) ++
      (after EventQueue.call (eventqueueNew size always) calls).sequence).Perm
    ((accepted calls (ColoDaemon.answers EventQueue.call (eventqueueNew size always)
      calls)).mapIdx fun n event => ⟨event, .ofNat n⟩)
  /-- Nothing of the class of a removed event that arrived before it is still pending. -/
  inOrder : ∀ n event,
    (ColoDaemon.answers EventQueue.call (eventqueueNew size always) calls)[n]? =
      some (.removed (some event)) →
    ∃ f, f = after EventFifo.call (.new size always) (calls.take n) ∧
      ∃ a ∈ f.pending, a.toEvent = event ∧
        ∀ b ∈ f.pending, f.interrupts b = f.interrupts a → a.number ≤ b.number

theorem sound_after {f : EventFifo} (h : f.Sound) (calls : List QueueCall) :
    (after EventFifo.call f calls).Sound := by
  induction calls generalizing f with
  | nil => exact h
  | cons c calls ih => exact ih (h.call c)

theorem represents_new (size : ℕ) (always : List ColodEvent) :
    Represents (eventqueueNew size always) (.new size always) := ⟨rfl, rfl, rfl, rfl, rfl⟩

/-- The event queue answers every call as the pending events in the order of arrival say. -/
theorem eventqueue_refines_fifo (size : ℕ) (always : List ColodEvent) (calls : List QueueCall)
    (hclose : CloseTogether (.new size always) calls) : RefinesFifo size always calls := by
  have hsound := EventFifo.sound_new size always
  obtain ⟨hanswers, hafter⟩ := (represents_new size always).calls hsound hclose
  refine ⟨hanswers, ?_, ?_⟩
  · rw [hanswers, removed_map, accepted_map, hafter.sequence]
    have harrange := (perm_arrange (after EventFifo.call (.new size always) calls).interrupts
      (after EventFifo.call (.new size always) calls).pending).map Arrival.toEvent
    refine (harrange.append_left _).trans ?_
    rw [← List.map_append]
    have hconserved := (EventFifo.conserved (.new size always) calls).map Arrival.toEvent
    refine hconserved.trans (List.Perm.of_eq (List.ext_getElem? ?_))
    intro n
    simp [EventFifo.new, Arrival.toEvent, Function.comp_def]
  · intro n event hevent
    refine ⟨_, rfl, ?_⟩
    rw [hanswers, List.getElem?_map, getElem?_answers] at hevent
    have hordered := (sound_after hsound (calls.take n)).ordered
    cases hcall : calls[n]? with
    | none => simp [hcall] at hevent
    | some c =>
      rw [hcall] at hevent
      cases c with
      | remove =>
        simp only [Option.map_some, EventFifo.call, Answer.map, Option.some.injEq,
          Answer.removed.injEq, Option.map_eq_some_iff] at hevent
        obtain ⟨a, hfirst, rfl⟩ := hevent
        have hmem := hfirst
        rw [← head?_arrange] at hmem
        refine ⟨a, mem_arrange.mp (List.mem_of_head? hmem), rfl, ?_⟩
        intro b hb hclass
        by_contra hbefore
        exact not_before_first Arrival.before_asymm hordered hfirst hb hclass
          (Nat.lt_of_not_le hbefore)
      | add event =>
        simp only [Option.map_some, EventFifo.call] at hevent
        split_ifs at hevent <;> simp [Answer.map] at hevent
      | peek | last | setInterrupting | pendingInterrupt =>
        simp [EventFifo.call, Answer.map] at hevent

theorem arrived_after_le (f : EventFifo) (calls : List QueueCall) :
    (after EventFifo.call f calls).arrived ≤ f.arrived + calls.length := by
  induction calls generalizing f with
  | nil => exact Nat.le_refl _
  | cons c calls ih =>
    have hcall : (f.call c).2.arrived ≤ f.arrived + 1 := by
      cases c with
      | add event =>
        simp only [EventFifo.call]
        split_ifs
        · exact Nat.le_succ _
        · exact Nat.le_refl _
      | _ => exact Nat.le_succ _
    have hlater := ih (f.call c).2
    simp only [List.length_cons]
    change (after EventFifo.call (f.call c).2 calls).arrived ≤ _
    omega

/-- Fewer than 2^31 calls never queue events together that are too far apart. -/
theorem closeTogether_of_length (size : ℕ) (always : List ColodEvent) {calls : List QueueCall}
    (h : calls.length ≤ 2 ^ 31) : CloseTogether (.new size always) calls := by
  intro n a ha b hb
  have hsound := sound_after (EventFifo.sound_new size always) (calls.take n)
  have harrived := arrived_after_le (.new size always) (calls.take n)
  have hlt := hsound.arrived a ha
  have hlength : (calls.take n).length ≤ calls.length := (List.take_sublist n calls).length_le
  have hnew : (EventFifo.new size always).arrived = 0 := rfl
  omega

/-- A change of the table, and then another one. -/
def reclassified : List QueueCall :=
  [.add .yellow, .add .failed, .add .unyellow, .setInterrupting [.unyellow], .remove,
    .setInterrupting [.yellow], .last, .remove, .pendingInterrupt, .remove, .remove]

theorem eventqueue_refines_fifo_reclassified : RefinesFifo 4 [.failed] reclassified ∧
    removed (answers EventQueue.call (eventqueueNew 4 [.failed]) reclassified) =
      [⟨.failed, 1⟩, ⟨.yellow, 0⟩, ⟨.unyellow, 2⟩] :=
  ⟨eventqueue_refines_fifo 4 _ _ (closeTogether_of_length 4 _ (by decide)), by decide⟩

end ColoDaemon
