import Mathlib.Data.List.Basic
import ColoDaemon.SortedInsert

/-!
# First in, first out, one class first

A list holds what is pending in the order of arrival, and a Boolean class says what is to go first.
`first p` is the earliest element of the class `p`, or the earliest of all if none is in the class;
`last p` is the latest element outside the class, or the latest of all. `arrange p` puts the whole
class in front: its head and its last element are these two, and taking off the head leaves the
arrangement of the rest.
-/

namespace ClassFifo
open SortedInsert
variable {α : Type*} {p : α → Bool} {before : α → α → Prop}

/-- The earliest element of the class, or else the earliest. -/
def first (p : α → Bool) (l : List α) : Option α := (l.find? p).or l.head?

/-- The latest element outside the class, or else the latest. -/
def last (p : α → Bool) (l : List α) : Option α :=
  (l.reverse.find? fun a => !p a).or l.reverse.head?

def arrange (p : α → Bool) (l : List α) : List α := l.filter p ++ l.filter fun a => !p a

theorem perm_arrange (p : α → Bool) (l : List α) : (arrange p l).Perm l :=
  List.filter_append_perm p l

@[simp] theorem mem_arrange {a : α} {l : List α} : a ∈ arrange p l ↔ a ∈ l :=
  (perm_arrange p l).mem_iff

@[simp] theorem length_arrange (l : List α) : (arrange p l).length = l.length :=
  (perm_arrange p l).length_eq

theorem head?_arrange (p : α → Bool) (l : List α) : (arrange p l).head? = first p l := by
  unfold arrange first
  rw [List.head?_append, List.head?_filter]
  cases hfind : l.find? p with
  | some a => rfl
  | none =>
    have hall : l.filter (fun a => !p a) = l := by
      apply List.filter_eq_self.mpr
      simpa using hfind
    rw [hall]

theorem getLast?_arrange (p : α → Bool) (l : List α) : (arrange p l).getLast? = last p l := by
  unfold arrange last
  rw [List.getLast?_append, ← List.head?_reverse, ← List.filter_reverse, List.head?_filter]
  cases hfind : l.reverse.find? fun a => !p a with
  | some a => rfl
  | none =>
    have hall : l.filter p = l := by
      apply List.filter_eq_self.mpr
      simpa using hfind
    rw [hall, List.head?_reverse]

/-- The order of `arrange p`: the class first, and within a class the order of arrival. -/
def Precedes (p : α → Bool) (before : α → α → Prop) (a b : α) : Prop :=
  if p a = p b then before a b else p a = true

theorem precedes_trans (htrans : ∀ a b c, before a b → before b c → before a c) {a b c : α}
    (hab : Precedes p before a b) (hbc : Precedes p before b c) : Precedes p before a c := by
  unfold Precedes at *
  cases ha : p a <;> cases hb : p b <;> cases hc : p c <;> simp [ha, hb, hc] at *
  · exact htrans a b c hab hbc
  · exact htrans a b c hab hbc

theorem precedes_asymm (hasymm : ∀ a b, before a b → ¬ before b a) {a b : α}
    (hab : Precedes p before a b) : ¬ Precedes p before b a := by
  unfold Precedes at *
  cases ha : p a <;> cases hb : p b <;> simp [ha, hb] at *
  · exact hasymm a b hab
  · exact hasymm a b hab

theorem pairwise_arrange {l : List α} (hl : l.Pairwise before) :
    (arrange p l).Pairwise (Precedes p before) := by
  refine List.pairwise_append.mpr ⟨?_, ?_, ?_⟩
  · refine (hl.filter p).imp_of_mem ?_
    intro a b ha hb hab
    simpa [Precedes, (List.mem_filter.mp ha).2, (List.mem_filter.mp hb).2] using hab
  · refine (hl.filter _).imp_of_mem ?_
    intro a b ha hb hab
    have hpa : p a = false := by simpa using (List.mem_filter.mp ha).2
    have hpb : p b = false := by simpa using (List.mem_filter.mp hb).2
    simpa [Precedes, hpa, hpb] using hab
  · intro a ha b hb
    have hpa : p a = true := (List.mem_filter.mp ha).2
    have hpb : p b = false := by simpa using (List.mem_filter.mp hb).2
    simp [Precedes, hpa, hpb]

/-- A list in this order is the arrangement of what it holds. -/
theorem eq_arrange (hasymm : ∀ a b, before a b → ¬ before b a) {l m : List α}
    (hm : m.Pairwise (Precedes p before)) (hperm : m.Perm l) (hl : l.Pairwise before) :
    m = arrange p l := by
  refine (hperm.trans (perm_arrange p l).symm).eq_of_pairwise ?_ hm (pairwise_arrange hl)
  intro a b _ _ hab hba
  exact absurd hba (precedes_asymm hasymm hab)

/-- Nothing of its own class arrived before the first element. -/
theorem not_before_first (hasymm : ∀ a b, before a b → ¬ before b a) {l : List α} {a b : α}
    (hl : l.Pairwise before) (ha : first p l = some a) (hb : b ∈ l) (hclass : p b = p a)
    (hba : before b a) : False := by
  rw [← head?_arrange, List.head?_eq_some_iff] at ha
  obtain ⟨rest, hrest⟩ := ha
  have hsorted : (arrange p l).Pairwise (Precedes p before) := pairwise_arrange hl
  rw [hrest] at hsorted
  have hmem : b ∈ a :: rest := hrest ▸ mem_arrange.mpr hb
  rcases List.mem_cons.mp hmem with rfl | hmem
  · exact hasymm b b hba hba
  · have hab := (List.pairwise_cons.mp hsorted).1 b hmem
    simp only [Precedes, hclass, if_true] at hab
    exact hasymm a b hab hba

/-- What is pending after the first element is gone. -/
def rest [DecidableEq α] (p : α → Bool) (l : List α) : List α :=
  match first p l with
  | none => []
  | some a => l.erase a

theorem arrange_eq_cons [DecidableEq α] (hasymm : ∀ a b, before a b → ¬ before b a)
    {l : List α} {a : α} {tail : List α} (hl : l.Pairwise before)
    (h : arrange p l = a :: tail) : tail = arrange p (rest p l) := by
  have hfirst : first p l = some a := by rw [← head?_arrange, h, List.head?_cons]
  have hsorted : (arrange p l).Pairwise (Precedes p before) := pairwise_arrange hl
  rw [h] at hsorted
  have hrest : rest p l = l.erase a := by simp only [rest, hfirst]
  rw [hrest]
  refine eq_arrange hasymm (List.pairwise_cons.mp hsorted).2 ?_ (hl.sublist List.erase_sublist)
  have hperm : (a :: tail).Perm l := h ▸ perm_arrange p l
  simpa using hperm.erase a

theorem precedes_of_not {a b : α} (htotal : before a b ∨ before b a)
    (h : ¬ Precedes p before b a) : Precedes p before a b := by
  unfold Precedes at *
  cases ha : p a <;> cases hb : p b <;> simp [ha, hb] at *
  · exact htotal.resolve_right h
  · exact htotal.resolve_right h

/-- A sorted insertion keeps the order. -/
theorem pairwise_insert (htrans : ∀ a b c, before a b → before b c → before a c)
    {q : α → Bool} {a : α} {l : List α} (htotal : ∀ b ∈ l, before a b ∨ before b a)
    (hq : ∀ b ∈ l, q b = true ↔ Precedes p before b a)
    (hl : l.Pairwise (Precedes p before)) :
    (insertAfter q a l).Pairwise (Precedes p before) := by
  refine pairwise_insertAfter ?_ ?_ ?_ hl
  · intro a b c hab hbc
    exact precedes_trans htrans hab hbc
  · intro b hb hqb
    exact (hq b hb).mp hqb
  · intro b hb hqb
    apply precedes_of_not (htotal b hb)
    rw [← hq b hb, hqb]
    exact Bool.false_ne_true

/-- A new arrival goes behind its class. -/
theorem insertAfter_arrange (htrans : ∀ a b c, before a b → before b c → before a c)
    (hasymm : ∀ a b, before a b → ¬ before b a) {q : α → Bool} {a : α} {l : List α}
    (hl : (l ++ [a]).Pairwise before) (hq : ∀ b ∈ l, q b = true ↔ Precedes p before b a) :
    insertAfter q a (arrange p l) = arrange p (l ++ [a]) := by
  obtain ⟨hpairs, -, hbefore⟩ := List.pairwise_append.mp hl
  refine eq_arrange hasymm ?_ ?_ hl
  · refine pairwise_insert htrans ?_ ?_ (pairwise_arrange hpairs)
    · intro b hb
      exact .inr (hbefore b (mem_arrange.mp hb) a List.mem_cons_self)
    · intro b hb
      exact hq b (mem_arrange.mp hb)
  · have hcons := insertAfter_perm q a (arrange p l)
    exact hcons.trans (((perm_arrange p l).cons a).trans (List.perm_append_singleton a l).symm)

/-- Sorting by insertion arranges the pending elements, whatever order they were in. -/
theorem sort_eq_arrange (htrans : ∀ a b c, before a b → before b c → before a c)
    (hasymm : ∀ a b, before a b → ¬ before b a) {q : α → α → Bool} {l m : List α}
    (hl : l.Pairwise before) (hm : m.Perm l)
    (hq : ∀ a ∈ l, ∀ b ∈ l, before a b ∨ before b a → (q a b = true ↔ Precedes p before b a)) :
    m.foldl (fun acc a => insertAfter (q a) a acc) [] = arrange p l := by
  have hsorted : ∀ m acc : List α, (m ++ acc).Perm l → acc.Pairwise (Precedes p before) →
      (m.foldl (fun acc a => insertAfter (q a) a acc) acc).Pairwise (Precedes p before) ∧
        (m.foldl (fun acc a => insertAfter (q a) a acc) acc).Perm l := by
    intro m
    induction m with
    | nil => exact fun acc hperm hacc => ⟨hacc, hperm⟩
    | cons a m ih =>
      intro acc hperm hacc
      have hpairs : (a :: m ++ acc).Pairwise fun a b => before a b ∨ before b a := by
        refine (hl.imp ?_).perm hperm.symm ?_
        · exact fun h => .inl h
        · exact fun h => h.symm
      have htotal : ∀ b ∈ acc, before a b ∨ before b a := fun b hb =>
        (List.pairwise_cons.mp hpairs).1 b (List.mem_append_right m hb)
      have hmem : ∀ b ∈ a :: m ++ acc, b ∈ l := fun b hb => hperm.mem_iff.mp hb
      apply ih
      · have hcons := (insertAfter_perm (q a) a acc).append_left m
        exact hcons.trans (List.perm_middle.trans hperm)
      · refine pairwise_insert htrans htotal ?_ hacc
        intro b hb
        exact hq a (hmem a (by simp)) b (hmem b (by simp [hb])) (htotal b hb)
  obtain ⟨hpairs, hperm⟩ := hsorted m [] (by simpa using hm) List.Pairwise.nil
  exact eq_arrange hasymm hpairs hperm hl

end ClassFifo
