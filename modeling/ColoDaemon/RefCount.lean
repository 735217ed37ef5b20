import Mathlib.Data.List.Basic
import Mathlib.Data.List.Count

/-!
# A reference-counted store

The cell at an address has a count and a value, and a value owns one reference to each of its
children. A cell whose count drops to zero is gone, and the references its value owns are dropped
with it. `Sound` relates the counts to the references that are held outside the store; it is kept
by `alloc`, `ref` and `unref`, and it says exactly which cells exist. Addresses are not used again.
-/

namespace RefCount

structure Cell (α : Type*) where
  count : ℕ
  value : α

/-- The cell at each address, none once it is gone. -/
abbrev Heap (α : Type*) := List (Option (Cell α))

variable {α : Type*}

namespace Heap

def cell (h : Heap α) (a : ℕ) : Option (Cell α) := h[a]?.join

def read (h : Heap α) (a : ℕ) : Option α := (h.cell a).map (·.value)

def count (h : Heap α) (a : ℕ) : ℕ :=
  match h.cell a with
  | some c => c.count
  | none => 0

/-- A new cell with one reference; the references to the children come with the value. -/
def alloc (h : Heap α) (value : α) : Heap α × ℕ := (h ++ [some ⟨1, value⟩], h.length)

def ref (h : Heap α) (a : ℕ) : Heap α :=
  match h.cell a with
  | some c => h.set a (some { c with count := c.count + 1 })
  | none => h

variable (children : α → List ℕ)

/-- Drops one reference, down to cells `n` levels below. -/
def unrefTo : ℕ → Heap α → ℕ → Heap α
  | 0, h, _ => h
  | n + 1, h, a =>
    match h.cell a with
    | none => h
    | some c =>
      if c.count = 1 then (children c.value).foldl (unrefTo n) (h.set a none)
      else h.set a (some { c with count := c.count - 1 })

/-- Children have smaller addresses, so that `a + 1` levels are enough. -/
def unref (h : Heap α) (a : ℕ) : Heap α := unrefTo children (a + 1) h a

def owned : Option (Cell α) → List ℕ
  | some c => children c.value
  | none => []

/-- The references owned by the values in the store. -/
def edges (h : Heap α) : List ℕ := h.flatMap (owned children)

/-- The counts are those of the references `held` outside and of the ones owned by values. -/
structure Sound (h : Heap α) (held : List ℕ) : Prop where
  counts : ∀ a, h.count a = held.count a + (edges children h).count a
  positive : ∀ a c, h.cell a = some c → 0 < c.count
  descending : ∀ a c, h.cell a = some c → ∀ b ∈ children c.value, b < a

/-! ### Cells -/

variable {children} {h : Heap α} {a b : ℕ} {held : List ℕ} {v : α} {c : Cell α}

theorem cell_set (ha : a < h.length) (c : Option (Cell α)) (b : ℕ) :
    cell (h.set a c) b = if b = a then c else h.cell b := by
  unfold cell
  by_cases hb : b = a
  · subst hb
    simp [ha]
  · simp [hb, Ne.symm hb]

theorem lt_length (hc : h.cell a = some c) : a < h.length := by
  by_contra hge
  rw [cell, List.getElem?_eq_none (by omega)] at hc
  cases hc

theorem cell_alloc (h : Heap α) (value : α) (b : ℕ) :
    cell (h.alloc value).1 b = if b = h.length then some ⟨1, value⟩ else h.cell b := by
  unfold cell alloc
  by_cases hb : b = h.length
  · simp [hb]
  · rw [if_neg hb]
    by_cases hlt : b < h.length
    · rw [List.getElem?_append_left hlt]
    · rw [List.getElem?_eq_none (by simp; omega), List.getElem?_eq_none (by omega)]

theorem cell_ref (h : Heap α) (a b : ℕ) :
    cell (h.ref a) b =
      if b = a then (h.cell a).map (fun c => { c with count := c.count + 1 }) else h.cell b := by
  unfold ref
  cases hc : h.cell a with
  | none =>
    by_cases hb : b = a
    · simp [hb, hc]
    · simp [hb]
  | some c => rw [cell_set (lt_length hc)]; rfl

theorem read_eq_some : h.read a = some v ↔ ∃ c, h.cell a = some c ∧ c.value = v :=
  Option.map_eq_some_iff

theorem read_alloc_self (h : Heap α) (value : α) : read (h.alloc value).1 h.length = some value := by
  simp [read, cell_alloc]

theorem read_alloc_of_some (hb : h.read b = some v) (value : α) :
    read (h.alloc value).1 b = some v := by
  obtain ⟨c, hc, -⟩ := read_eq_some.mp hb
  have hne : b ≠ h.length := Nat.ne_of_lt (lt_length hc)
  rw [read, cell_alloc, if_neg hne]
  exact hb

theorem read_ref (h : Heap α) (a b : ℕ) : read (h.ref a) b = h.read b := by
  rw [read, read, cell_ref]
  by_cases hb : b = a
  · subst hb
    cases h.cell b <;> simp
  · rw [if_neg hb]

theorem count_eq_zero (hc : h.cell a = none) : h.count a = 0 := by
  rw [count, hc]

theorem count_eq (hc : h.cell a = some c) : h.count a = c.count := by
  rw [count, hc]

/-! ### References owned by values -/

variable (children) in
/-- What a value owns is exchanged with the value. -/
theorem count_edges_set {old : Option (Cell α)} (hold : h[a]? = some old) (new : Option (Cell α))
    (x : ℕ) :
    (edges children (h.set a new)).count x + (owned children old).count x =
      (edges children h).count x + (owned children new).count x := by
  induction h generalizing a with
  | nil => cases hold
  | cons d h ih =>
    cases a with
    | zero =>
      cases hold
      simp only [List.set_cons_zero, edges, List.flatMap_cons, List.count_append]
      omega
    | succ a =>
      have hrest := ih (a := a) (by simpa using hold)
      simp only [edges] at hrest
      simp only [List.set_cons_succ, edges, List.flatMap_cons, List.count_append]
      omega

theorem getElem?_of_cell (hc : h.cell a = some c) : h[a]? = some (some c) :=
  Option.join_eq_some_iff.mp hc

theorem mem_edges : b ∈ edges children h ↔ ∃ a c, h.cell a = some c ∧ b ∈ children c.value := by
  unfold edges
  rw [List.mem_flatMap]
  constructor
  · rintro ⟨d, hd, hb⟩
    obtain ⟨a, ha⟩ := List.getElem?_of_mem hd
    cases d with
    | none => cases hb
    | some c => exact ⟨a, c, by rw [cell, ha]; rfl, hb⟩
  · rintro ⟨a, c, hc, hb⟩
    exact ⟨some c, List.mem_of_getElem? (getElem?_of_cell hc), hb⟩

/-! ### Which cells exist -/

theorem Sound.exists_iff (hs : Sound children h held) :
    (∃ c, h.cell a = some c) ↔
      a ∈ held ∨ ∃ b c, h.cell b = some c ∧ a ∈ children c.value := by
  have hcounts := hs.counts a
  rw [← mem_edges, ← List.count_pos_iff, ← List.count_pos_iff (l := edges children h)]
  constructor
  · rintro ⟨c, hc⟩
    have hpos := hs.positive a c hc
    rw [count_eq hc] at hcounts
    omega
  · intro hpos
    cases hc : h.cell a with
    | some c => exact ⟨c, rfl⟩
    | none =>
      rw [count_eq_zero hc] at hcounts
      omega

theorem Sound.exists_of_held (hs : Sound children h held) (ha : a ∈ held) :
    ∃ c, h.cell a = some c := hs.exists_iff.mpr (.inl ha)

theorem Sound.exists_of_child (hs : Sound children h held) (hb : h.read b = some v)
    (ha : a ∈ children v) : ∃ c, h.cell a = some c := by
  obtain ⟨c, hc, rfl⟩ := read_eq_some.mp hb
  exact hs.exists_iff.mpr (.inr ⟨b, c, hc, ha⟩)

theorem Sound.perm {held' : List ℕ} (hs : Sound children h held) (hp : held.Perm held') :
    Sound children h held' :=
  ⟨fun a => by rw [← hp.count_eq]; exact hs.counts a, hs.positive, hs.descending⟩

/-! ### The operations -/

theorem sound_nil : Sound children [] [] := by
  constructor
  · intro a
    rfl
  · intro a c hc
    cases hc
  · intro a c hc
    cases hc

/-- The new value takes over the references to its children. -/
theorem sound_alloc (hs : Sound children h (children v ++ held)) :
    Sound children (h.alloc v).1 ((h.alloc v).2 :: held) := by
  have hchild : ∀ b ∈ children v, b < h.length := by
    intro b hb
    obtain ⟨c, hc⟩ := hs.exists_of_held (List.mem_append_left held hb)
    exact lt_length hc
  have hedges : edges children (h.alloc v).1 = edges children h ++ children v := by
    simp [edges, alloc, owned]
  constructor
  · intro a
    have hcounts := hs.counts a
    rw [hedges, List.count_append, List.count_cons]
    rw [List.count_append] at hcounts
    simp only [count, cell_alloc] at hcounts ⊢
    by_cases ha : a = h.length
    · subst ha
      have hnone : h.cell h.length = none := by
        rw [cell, List.getElem?_eq_none (Nat.le_refl _)]
        rfl
      rw [hnone] at hcounts
      simp only [alloc, if_true, beq_self_eq_true] at hcounts ⊢
      omega
    · have hbeq : ((h.alloc v).2 == a) = false := by
        simpa [alloc] using Ne.symm ha
      rw [if_neg ha, hbeq]
      simp only [Bool.false_eq_true, if_false]
      omega
  · intro a c hc
    rw [cell_alloc] at hc
    split_ifs at hc
    · cases hc
      exact Nat.one_pos
    · exact hs.positive a c hc
  · intro a c hc
    rw [cell_alloc] at hc
    split_ifs at hc with ha
    · cases hc
      rw [ha]
      exact hchild
    · exact hs.descending a c hc

/-- The count of a cell changes and its value stays. -/
theorem sound_recount {held' : List ℕ} {n : ℕ} (hs : Sound children h held)
    (hc : h.cell a = some c) (hn : 0 < n) (ha : n + held.count a = c.count + held'.count a)
    (hother : ∀ b, b ≠ a → held'.count b = held.count b) :
    Sound children (h.set a (some { c with count := n })) held' := by
  have hlt := lt_length hc
  have hedges : ∀ x, (edges children (h.set a (some { c with count := n }))).count x =
      (edges children h).count x := by
    intro x
    have hset := count_edges_set children (getElem?_of_cell hc)
      (some { c with count := n }) x
    simp only [owned] at hset
    omega
  constructor
  · intro b
    have hcounts := hs.counts b
    rw [hedges]
    simp only [count, cell_set hlt] at hcounts ⊢
    by_cases hb : b = a
    · subst hb
      rw [hc] at hcounts
      rw [if_pos rfl]
      simp only at hcounts ⊢
      omega
    · rw [if_neg hb, hother b hb]
      exact hcounts
  · intro b d hd
    rw [cell_set hlt] at hd
    split_ifs at hd
    · cases hd
      exact hn
    · exact hs.positive b d hd
  · intro b d hd
    rw [cell_set hlt] at hd
    split_ifs at hd with hb
    · cases hd
      rw [hb]
      exact hs.descending a c hc
    · exact hs.descending b d hd

theorem sound_ref (hs : Sound children h held) (hc : h.cell a = some c) :
    Sound children (h.ref a) (a :: held) := by
  simp only [ref, hc]
  apply sound_recount hs hc (by omega)
  · simp only [List.count_cons_self]
    omega
  · intro b hb
    exact List.count_cons_of_ne (Ne.symm hb)

/-- The last reference is dropped: those that the value owned are now held outside. -/
theorem sound_kill (hs : Sound children h (a :: held)) (hc : h.cell a = some c)
    (hone : c.count = 1) : Sound children (h.set a none) (children c.value ++ held) := by
  have hlt := lt_length hc
  have hedges := count_edges_set children (getElem?_of_cell hc) none
  simp only [owned, List.count_nil] at hedges
  constructor
  · intro b
    have hcounts := hs.counts b
    have hb' := hedges b
    rw [List.count_append]
    simp only [count, cell_set hlt] at hcounts ⊢
    by_cases hb : b = a
    · subst hb
      rw [hc, List.count_cons_self] at hcounts
      simp only [if_true] at hcounts ⊢
      omega
    · rw [List.count_cons_of_ne (Ne.symm hb)] at hcounts
      rw [if_neg hb]
      omega
  · intro b d hd
    rw [cell_set hlt] at hd
    split_ifs at hd
    exact hs.positive b d hd
  · intro b d hd
    rw [cell_set hlt] at hd
    split_ifs at hd
    exact hs.descending b d hd

theorem sound_unrefTo {n : ℕ} (hn : a < n) (hs : Sound children h (a :: held)) :
    Sound children (unrefTo children n h a) held := by
  induction n generalizing h a held with
  | zero => omega
  | succ n ih =>
    obtain ⟨c, hc⟩ := hs.exists_of_held List.mem_cons_self
    simp only [unrefTo, hc]
    by_cases hone : c.count = 1
    · rw [if_pos hone]
      have hbelow : ∀ b ∈ children c.value, b < n := by
        intro b hb
        have hlt := hs.descending a c hc b hb
        omega
      have hkill := sound_kill hs hc hone
      generalize h.set a none = g at hkill
      generalize children c.value = dropped at hbelow hkill
      -- the references of the value are dropped one after the other
      induction dropped generalizing g with
      | nil => exact hkill
      | cons b dropped ihd =>
        obtain ⟨hb, hrest⟩ := List.forall_mem_cons.mp hbelow
        exact ihd _ hrest (ih hb hkill)
    · rw [if_neg hone]
      have hpos := hs.positive a c hc
      apply sound_recount hs hc (by omega)
      · simp only [List.count_cons_self]
        omega
      · intro b hb
        exact (List.count_cons_of_ne (Ne.symm hb)).symm

theorem sound_unref (hs : Sound children h (a :: held)) : Sound children (h.unref children a) held :=
  sound_unrefTo (Nat.lt_succ_self a) hs

/-- Dropping references changes no value. -/
theorem read_of_unrefTo {n : ℕ} (hb : read (unrefTo children n h a) b = some v) :
    h.read b = some v := by
  induction n generalizing h a with
  | zero => exact hb
  | succ n ih =>
    cases hc : h.cell a with
    | none => simpa only [unrefTo, hc] using hb
    | some c =>
      have hset : ∀ {new : Option (Cell α)}, (∀ d, new = some d → d.value = c.value) →
          read (h.set a new) b = some v → h.read b = some v := by
        intro new hnew hr
        rw [read, cell_set (lt_length hc)] at hr
        split_ifs at hr with hba
        · obtain ⟨d, hd, hvalue⟩ := Option.map_eq_some_iff.mp hr
          rw [hba, read_eq_some]
          exact ⟨c, hc, (hnew d hd).symm.trans hvalue⟩
        · exact hr
      simp only [unrefTo, hc] at hb
      split_ifs at hb
      · have hkill : read (h.set a none) b = some v := by
          generalize h.set a none = g at hb ⊢
          generalize children c.value = dropped at hb
          induction dropped generalizing g with
          | nil => exact hb
          | cons d dropped ihd => exact ih (ihd _ hb)
        exact hset (by simp) hkill
      · exact hset (by simp) hb

theorem read_of_unref (hb : read (h.unref children a) b = some v) : h.read b = some v :=
  read_of_unrefTo hb

theorem length_unrefTo (n : ℕ) (h : Heap α) (a : ℕ) :
    (unrefTo children n h a).length = h.length := by
  induction n generalizing h a with
  | zero => rfl
  | succ n ih =>
    unfold unrefTo
    split
    · rfl
    · split_ifs
      · rename_i c _ _
        refine Eq.trans ?_ (List.length_set : (h.set a none).length = h.length)
        generalize h.set a none = g
        generalize children c.value = dropped
        induction dropped generalizing g with
        | nil => rfl
        | cons d dropped ihd => exact (ihd _).trans (ih g d)
      · exact List.length_set

theorem length_unref (h : Heap α) (a : ℕ) : (h.unref children a).length = h.length :=
  length_unrefTo _ h a

theorem length_ref (h : Heap α) (a : ℕ) : (h.ref a).length = h.length := by
  unfold ref
  split
  · exact List.length_set
  · rfl

end Heap
end RefCount
