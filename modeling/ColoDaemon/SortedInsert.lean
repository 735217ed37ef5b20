import Mathlib.Data.List.Basic

/-!
# Insertion after a prefix, and lists that hold one class first

`insertAfter q a l` inserts `a` after the longest prefix of `l` whose elements satisfy `q`. It
keeps any transitive relation that `q` respects. `ClassFirst p` orders a list by a Boolean class:
every element of the class `p` stands before every other one. It holds of a list whatever the
order within the classes is.
-/

namespace SortedInsert
variable {α : Type*} {r : α → α → Prop} {p : α → Bool}

def insertAfter (q : α → Bool) (a : α) (l : List α) : List α :=
  l.takeWhile q ++ a :: l.dropWhile q

theorem insertAfter_cons (q : α → Bool) (a b : α) (l : List α) :
    insertAfter q a (b :: l) = if q b then b :: insertAfter q a l else a :: b :: l := by
  unfold insertAfter
  cases h : q b <;> simp [h]

theorem insertAfter_perm (q : α → Bool) (a : α) (l : List α) :
    (insertAfter q a l).Perm (a :: l) := by
  have h : (l.takeWhile q ++ l.dropWhile q).Perm l := by rw [List.takeWhile_append_dropWhile]
  exact List.perm_middle.trans (h.cons a)

@[simp] theorem mem_insertAfter {q : α → Bool} {a b : α} {l : List α} :
    b ∈ insertAfter q a l ↔ b = a ∨ b ∈ l := by
  rw [(insertAfter_perm q a l).mem_iff, List.mem_cons]

@[simp] theorem length_insertAfter (q : α → Bool) (a : α) (l : List α) :
    (insertAfter q a l).length = l.length + 1 := (insertAfter_perm q a l).length_eq

theorem pairwise_insertAfter (htrans : ∀ {a b c}, r a b → r b c → r a c) {q : α → Bool} {a : α}
    {l : List α} (hbefore : ∀ b ∈ l, q b = true → r b a) (hafter : ∀ b ∈ l, q b = false → r a b)
    (hl : l.Pairwise r) : (insertAfter q a l).Pairwise r := by
  induction l with
  | nil => exact List.pairwise_singleton r a
  | cons b l ih =>
    obtain ⟨hb, hl'⟩ := List.pairwise_cons.mp hl
    rw [insertAfter_cons]
    cases hq : q b with
    | true =>
      rw [if_pos rfl]
      have ih := ih (fun c hc => hbefore c (List.mem_cons_of_mem b hc))
        (fun c hc => hafter c (List.mem_cons_of_mem b hc)) hl'
      refine List.pairwise_cons.mpr ⟨?_, ih⟩
      intro c hc
      rcases mem_insertAfter.mp hc with rfl | hc
      · exact hbefore b List.mem_cons_self hq
      · exact hb c hc
    | false =>
      rw [if_neg (by simp)]
      have hab := hafter b List.mem_cons_self hq
      refine List.pairwise_cons.mpr ⟨?_, hl⟩
      intro c hc
      rcases List.mem_cons.mp hc with rfl | hc
      · exact hab
      · exact htrans hab (hb c hc)

/-- Every element of the class stands before every other one. -/
def ClassFirst (p : α → Bool) (l : List α) : Prop := l.Pairwise fun a b => p b = true → p a = true

theorem ClassFirst.insertAfter {q : α → Bool} {a : α} {l : List α} (hl : ClassFirst p l)
    (hbefore : ∀ b, q b = true → p a = true → p b = true)
    (hafter : ∀ b, q b = false → p b = true → p a = true) :
    ClassFirst p (insertAfter q a l) :=
  pairwise_insertAfter (fun hab hbc hc => hab (hbc hc)) (fun b _ => hbefore b)
    (fun b _ => hafter b) hl

theorem ClassFirst.tail {a : α} {l : List α} (h : ClassFirst p (a :: l)) : ClassFirst p l :=
  (List.pairwise_cons.mp h).2

/-- The head belongs to the class as soon as some element does. -/
theorem ClassFirst.head {a b : α} {l : List α} (h : ClassFirst p (a :: l)) (hb : b ∈ a :: l)
    (hp : p b = true) : p a = true := by
  rcases List.mem_cons.mp hb with rfl | hb
  · exact hp
  · exact (List.pairwise_cons.mp h).1 b hb hp

end SortedInsert
