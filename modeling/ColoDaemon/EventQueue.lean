import Mathlib.Data.Int.Notation
import ColoDaemon.SortedInsert

/-!
# The event queue

`EventQueue` is a sequence sorted by `eventqueueSort`: events whose kind is currently interrupting
come first, events of one class stand in the order of their sequence numbers. The comparator
returns the difference of two 64-bit sequence numbers truncated to a 32-bit `gint`.
-/

namespace ColoDaemon
open SortedInsert

inductive ColodEvent
  | failed
  | peerFailover
  | quit
  | autoquit
  | failoverSync
  | failoverWin
  | yellow
  | unyellow
  | startMigration
  deriving DecidableEq, Repr

structure Event where
  event : ColodEvent
  seqno : UInt64
  deriving DecidableEq, Repr

structure EventQueue where
  sequence : List Event
  seqCounter : UInt64
  size : ℕ
  interruptingAlways : ColodEvent → Bool
  interrupting : ColodEvent → Bool

namespace EventQueue

/-- The counter `used`, which the source keeps in step with the sequence. -/
def used (this : EventQueue) : ℕ := this.sequence.length

/-- The kinds of the pending events, in the order of the sequence. -/
def kinds (this : EventQueue) : List ColodEvent := this.sequence.map Event.event

end EventQueue

def eventqueueSort (interrupting : ColodEvent → Bool) (a b : Event) : ℤ :=
  if interrupting a.event ≠ interrupting b.event then
    if interrupting a.event then -1 else 1
  else (a.seqno - b.seqno).toUInt32.toInt32.toInt

/-- `g_sequence_insert_sorted`: before the first element that is strictly greater. -/
def gSequenceInsertSorted (interrupting : ColodEvent → Bool) (a : Event) (l : List Event) :
    List Event :=
  insertAfter (fun b => eventqueueSort interrupting b a ≤ 0) a l

/-- `g_sequence_sort` takes the elements in order and inserts each into a new sequence. -/
def gSequenceSort (interrupting : ColodEvent → Bool) (l : List Event) : List Event :=
  l.foldl (fun acc a => gSequenceInsertSorted interrupting a acc) []

def eventqueueNew (size : ℕ) (always : List ColodEvent) : EventQueue where
  sequence := []
  seqCounter := 0
  size := size
  interruptingAlways e := e ∈ always
  interrupting e := e ∈ always

def eventqueueSetInterrupting (this : EventQueue) (events : List ColodEvent) : EventQueue :=
  let interrupting := fun e => this.interruptingAlways e || e ∈ events
  { this with interrupting, sequence := gSequenceSort interrupting this.sequence }

/-- `none` is the result -1 of a full queue. -/
def eventqueueAdd (this : EventQueue) (event : ColodEvent) : Option EventQueue :=
  if this.used = this.size then none
  else some { this with
    sequence := gSequenceInsertSorted this.interrupting ⟨event, this.seqCounter⟩ this.sequence
    seqCounter := this.seqCounter + 1 }

def eventqueueRemove (this : EventQueue) : Option (Event × EventQueue) :=
  match this.sequence with
  | [] => none
  | event :: sequence => some (event, { this with sequence })

def eventqueuePeek (this : EventQueue) : Option Event := this.sequence.head?

def eventqueueLast (this : EventQueue) : Option Event := this.sequence.getLast?

def eventqueuePending (this : EventQueue) : Bool := !this.sequence.isEmpty

def eventqueuePendingInterrupt (this : EventQueue) : Bool :=
  match eventqueuePeek this with
  | none => false
  | some event => this.interrupting event.event

def eventqueueEventInterrupting (this : EventQueue) (event : ColodEvent) : Bool :=
  this.interrupting event

/-! ### What the operations do to the pending events -/

theorem eventqueueSort_nonpos {interrupting : ColodEvent → Bool} {a b : Event}
    (h : eventqueueSort interrupting a b ≤ 0) (hb : interrupting b.event = true) :
    interrupting a.event = true := by
  by_contra ha
  simp [eventqueueSort, ha, hb] at h

theorem eventqueueSort_pos {interrupting : ColodEvent → Bool} {a b : Event}
    (h : ¬ eventqueueSort interrupting a b ≤ 0) (ha : interrupting a.event = true) :
    interrupting b.event = true := by
  by_contra hb
  simp [eventqueueSort, ha, hb] at h

theorem classFirst_gSequenceInsertSorted {interrupting : ColodEvent → Bool} {a : Event}
    {l : List Event} (hl : ClassFirst (fun b => interrupting b.event) l) :
    ClassFirst (fun b => interrupting b.event) (gSequenceInsertSorted interrupting a l) := by
  apply hl.insertAfter
  · intro b hb ha
    exact eventqueueSort_nonpos (of_decide_eq_true hb) ha
  · intro b hb hp
    exact eventqueueSort_pos (of_decide_eq_false hb) hp

theorem perm_gSequenceInsertSorted (interrupting : ColodEvent → Bool) (a : Event)
    (l : List Event) : (gSequenceInsertSorted interrupting a l).Perm (a :: l) :=
  insertAfter_perm _ a l

theorem gSequenceSort_aux (interrupting : ColodEvent → Bool) (l acc : List Event)
    (hacc : ClassFirst (fun b => interrupting b.event) acc) :
    ClassFirst (fun b => interrupting b.event)
        (l.foldl (fun acc a => gSequenceInsertSorted interrupting a acc) acc) ∧
      (l.foldl (fun acc a => gSequenceInsertSorted interrupting a acc) acc).Perm (l ++ acc) := by
  induction l generalizing acc with
  | nil => exact ⟨hacc, List.Perm.refl _⟩
  | cons a l ih =>
    obtain ⟨hsorted, hperm⟩ := ih _ (classFirst_gSequenceInsertSorted (a := a) hacc)
    refine ⟨hsorted, hperm.trans ?_⟩
    exact ((perm_gSequenceInsertSorted interrupting a acc).append_left l).trans List.perm_middle

theorem classFirst_gSequenceSort (interrupting : ColodEvent → Bool) (l : List Event) :
    ClassFirst (fun b => interrupting b.event) (gSequenceSort interrupting l) :=
  (gSequenceSort_aux interrupting l [] List.Pairwise.nil).1

theorem perm_gSequenceSort (interrupting : ColodEvent → Bool) (l : List Event) :
    (gSequenceSort interrupting l).Perm l := by
  have h := (gSequenceSort_aux interrupting l [] List.Pairwise.nil).2
  rwa [List.append_nil] at h

namespace EventQueue

/-- Interrupting events stand first. -/
def InterruptFirst (q : EventQueue) : Prop :=
  ClassFirst (fun event => q.interrupting event.event) q.sequence

theorem mem_kinds_of_perm {l l' : List Event} (h : l.Perm l') {e : ColodEvent} :
    e ∈ l.map Event.event ↔ e ∈ l'.map Event.event := (h.map Event.event).mem_iff

theorem interruptFirst_setInterrupting (q : EventQueue) (events : List ColodEvent) :
    (eventqueueSetInterrupting q events).InterruptFirst := classFirst_gSequenceSort _ _

@[simp] theorem mem_kinds_setInterrupting {q : EventQueue} {events : List ColodEvent}
    {e : ColodEvent} : e ∈ (eventqueueSetInterrupting q events).kinds ↔ e ∈ q.kinds :=
  mem_kinds_of_perm (perm_gSequenceSort _ _)

theorem used_setInterrupting (q : EventQueue) (events : List ColodEvent) :
    (eventqueueSetInterrupting q events).used = q.used :=
  (perm_gSequenceSort _ _).length_eq

theorem InterruptFirst.add {q queue : EventQueue} {event : ColodEvent}
    (h : q.InterruptFirst) (hadd : eventqueueAdd q event = some queue) :
    queue.InterruptFirst := by
  unfold eventqueueAdd at hadd
  split_ifs at hadd
  cases hadd
  exact classFirst_gSequenceInsertSorted h

theorem mem_kinds_add {q queue : EventQueue} {event e : ColodEvent}
    (hadd : eventqueueAdd q event = some queue) :
    e ∈ queue.kinds ↔ e = event ∨ e ∈ q.kinds := by
  unfold eventqueueAdd at hadd
  split_ifs at hadd
  cases hadd
  have hperm := (perm_gSequenceInsertSorted q.interrupting ⟨event, q.seqCounter⟩
    q.sequence).map Event.event
  rw [List.map_cons] at hperm
  exact hperm.mem_iff.trans List.mem_cons

theorem interrupting_add {q queue : EventQueue} {event : ColodEvent}
    (hadd : eventqueueAdd q event = some queue) :
    queue.interrupting = q.interrupting ∧
      queue.interruptingAlways = q.interruptingAlways ∧ queue.size = q.size := by
  unfold eventqueueAdd at hadd
  split_ifs at hadd
  cases hadd
  exact ⟨rfl, rfl, rfl⟩

theorem pending_eq_false {q : EventQueue} :
    eventqueuePending q = false ↔ q.kinds = [] := by
  simp [eventqueuePending, kinds]

/-- While interrupting events stand first, the head tells whether one is pending. -/
theorem InterruptFirst.pendingInterrupt_iff {q : EventQueue} (h : q.InterruptFirst) :
    eventqueuePendingInterrupt q = true ↔ ∃ e ∈ q.kinds, q.interrupting e = true := by
  unfold eventqueuePendingInterrupt eventqueuePeek kinds
  cases hs : q.sequence with
  | nil => simp
  | cons a tail =>
    simp only [List.head?_cons, List.map_cons]
    constructor
    · intro ha
      exact ⟨a.event, List.mem_cons_self, ha⟩
    · rintro ⟨e, he, hp⟩
      rw [← List.map_cons] at he
      obtain ⟨b, hb, rfl⟩ := List.mem_map.mp he
      have hfirst : ClassFirst (fun event => q.interrupting event.event) (a :: tail) := hs ▸ h
      exact hfirst.head hb hp

theorem remove_eq_some {q queue : EventQueue} {event : Event} :
    eventqueueRemove q = some (event, queue) ↔
      q.sequence = event :: queue.sequence ∧ queue = { q with sequence := queue.sequence } := by
  unfold eventqueueRemove
  cases hs : q.sequence with
  | nil => simp
  | cons a tail =>
    simp only [Option.some.injEq, Prod.mk.injEq, List.cons.injEq]
    constructor
    · rintro ⟨rfl, rfl⟩
      exact ⟨⟨rfl, rfl⟩, rfl⟩
    · rintro ⟨⟨rfl, rfl⟩, hq⟩
      exact ⟨rfl, hq.symm⟩

theorem InterruptFirst.remove {q queue : EventQueue} {event : Event} (h : q.InterruptFirst)
    (hremove : eventqueueRemove q = some (event, queue)) : queue.InterruptFirst := by
  obtain ⟨hs, hq⟩ := remove_eq_some.mp hremove
  have hi : queue.interrupting = q.interrupting := by rw [hq]
  have hfirst : ClassFirst (fun event => q.interrupting event.event)
      (event :: queue.sequence) := hs ▸ h
  unfold InterruptFirst
  rw [hi]
  exact hfirst.tail

theorem mem_kinds_remove {q queue : EventQueue} {event : Event} {e : ColodEvent}
    (hremove : eventqueueRemove q = some (event, queue)) :
    e ∈ q.kinds ↔ e = event.event ∨ e ∈ queue.kinds := by
  obtain ⟨hs, -⟩ := remove_eq_some.mp hremove
  simp [kinds, hs]

/-- The event removed is interrupting as soon as an interrupting one is pending. -/
theorem InterruptFirst.remove_interrupting {q queue : EventQueue} {event : Event}
    {e : ColodEvent} (h : q.InterruptFirst)
    (hremove : eventqueueRemove q = some (event, queue)) (he : e ∈ q.kinds)
    (hp : q.interrupting e = true) : q.interrupting event.event = true := by
  obtain ⟨hs, -⟩ := remove_eq_some.mp hremove
  obtain ⟨b, hb, rfl⟩ := List.mem_map.mp he
  have hfirst : ClassFirst (fun event => q.interrupting event.event)
      (event :: queue.sequence) := hs ▸ h
  exact hfirst.head (hs ▸ hb) hp

end EventQueue
end ColoDaemon
