import Mathlib.Data.List.Nodup
import Mathlib.Data.List.Perm.Subperm
import Mathlib.Logic.Function.Basic

/-!
# Intrusive doubly linked lists

A list whose elements hold the links. `lePrev` is not the element before but the address of the
pointer to this element, which is in the head or in another element, so that an element can be taken
out without knowing the head. `Heap` holds one list head and the elements; elements that are not
allocated can not be accessed. `Represents` says which elements are linked, in which order.
-/

namespace QList

/-- Where a pointer to an element is stored. -/
inductive Slot (A : Type)
  | first
  | next (a : A)
  deriving DecidableEq, Repr

structure Elem (A D : Type) where
  leNext : Option A
  lePrev : Option (Slot A)
  data : D
  deriving DecidableEq, Repr

/-- `allocated` is the number of elements that are allocated. -/
@[ext]
structure Heap (A D : Type) where
  lhFirst : Option A
  elem : A → Option (Elem A D)
  allocated : ℕ

inductive Fault
  | useAfterFree
  | assertFailed
  | endless
  deriving DecidableEq, Repr

/-- Both fail with the same fault, or both succeed with related results. -/
inductive Agree {X Y : Type} (r : X → Y → Prop) : Except Fault X → Except Fault Y → Prop
  | error (fault : Fault) : Agree r (.error fault) (.error fault)
  | ok {x : X} {y : Y} (h : r x y) : Agree r (.ok x) (.ok y)

theorem Agree.of_ok {X Y : Type} {r : X → Y → Prop} {x : Except Fault X} {y : Y}
    (h : Agree r x (.ok y)) : ∃ v, x = .ok v ∧ r v y := by
  cases h with
  | ok hr => exact ⟨_, rfl, hr⟩

theorem Agree.of_error {X Y : Type} {r : X → Y → Prop} {x : Except Fault X} {fault : Fault}
    (h : Agree r x (.error fault)) : x = .error fault := by
  cases h with
  | error => rfl

theorem Agree.imp {X Y : Type} {r r' : X → Y → Prop} {x : Except Fault X} {y : Except Fault Y}
    (h : Agree r x y) (hr : ∀ a b, r a b → r' a b) : Agree r' x y := by
  cases h with
  | error fault => exact .error fault
  | ok hab => exact .ok (hr _ _ hab)

theorem Agree.bind {X Y X' Y' : Type} {r : X → Y → Prop} {r' : X' → Y' → Prop}
    {x : Except Fault X} {y : Except Fault Y} {f : X → Except Fault X'} {g : Y → Except Fault Y'}
    (h : Agree r x y) (hfg : ∀ a b, r a b → Agree r' (f a) (g b)) : Agree r' (x >>= f) (y >>= g) := by
  cases h with
  | error fault => exact .error fault
  | ok hab => exact hfg _ _ hab

namespace Heap
variable {A D : Type}

def new : Heap A D where
  lhFirst := none
  elem := fun _ => none
  allocated := 0

def get (h : Heap A D) (a : A) : Except Fault (Elem A D) :=
  match h.elem a with
  | none => .error .useAfterFree
  | some e => .ok e

def setFirst (h : Heap A D) (first : Option A) : Heap A D :=
  { h with lhFirst := first }

/-- A search with `QLIST_FOREACH`. -/
def findFrom (h : Heap A D) (p : D → Bool) : ℕ → Option A → Except Fault (Option A)
  | _, none => .ok none
  | 0, some _ => .error .endless
  | n + 1, some a => do
    let e ← h.get a
    if p e.data then .ok (some a) else findFrom h p n e.leNext

/-- `QLIST_FOREACH_SAFE`, whose body may change the list. -/
def forEachSafe {B : Type} (body : A → Heap A D → Except Fault (B × Heap A D)) :
    ℕ → Option A → Heap A D → Except Fault (List B × Heap A D)
  | _, none, h => .ok ([], h)
  | 0, some _, _ => .error .endless
  | n + 1, some a, h => do
    let e ← h.get a
    let (b, h) ← body a h
    let (bs, h) ← forEachSafe body n e.leNext h
    .ok (b :: bs, h)

/-- The pointer to the element after `before`. -/
def slot : List A → Slot A
  | [] => .first
  | a :: before => .next ((a :: before).getLast (List.cons_ne_nil a before))

/-- The elements `as` are linked in this order. -/
structure Represents (h : Heap A D) (as : List A) : Prop where
  nodup : as.Nodup
  first : h.lhFirst = as.head?
  elem : ∀ l a r, as = l ++ a :: r → ∃ e, h.elem a = some e ∧ e.leNext = r.head? ∧
    e.lePrev = some (slot l)

/-- The same elements are allocated, with the same data. -/
structure SameData (h h' : Heap A D) : Prop where
  allocated : h'.allocated = h.allocated
  data : ∀ a, (h'.elem a).map Elem.data = (h.elem a).map Elem.data

section Operations
variable [DecidableEq A]

def set (h : Heap A D) (a : A) (e : Elem A D) : Heap A D :=
  { h with elem := Function.update h.elem a (some e) }

def setNext (h : Heap A D) (a : A) (next : Option A) : Except Fault (Heap A D) := do
  let e ← h.get a
  .ok (h.set a { e with leNext := next })

def setPrev (h : Heap A D) (a : A) (prev : Option (Slot A)) : Except Fault (Heap A D) := do
  let e ← h.get a
  .ok (h.set a { e with lePrev := prev })

/-- Writes the pointer at an address. -/
def store (h : Heap A D) (slot : Slot A) (value : Option A) : Except Fault (Heap A D) :=
  match slot with
  | .first => .ok (h.setFirst value)
  | .next a => h.setNext a value

/-- The allocator returns an address that is not in use. -/
def alloc (h : Heap A D) (a : A) (data : D) : Heap A D :=
  { h.set a ⟨none, none, data⟩ with allocated := h.allocated + 1 }

def free (h : Heap A D) (a : A) : Except Fault (Heap A D) := do
  let _ ← h.get a
  .ok { h with elem := Function.update h.elem a none, allocated := h.allocated - 1 }

def setPrevOfNext (h : Heap A D) (next : Option A) (prev : Option (Slot A)) :
    Except Fault (Heap A D) :=
  match next with
  | none => .ok h
  | some b => h.setPrev b prev

/-- `QLIST_INSERT_HEAD`. -/
def insertHead (h : Heap A D) (a : A) : Except Fault (Heap A D) := do
  let h ← h.setNext a h.lhFirst
  let h ← h.setPrevOfNext h.lhFirst (some (.next a))
  (h.setFirst (some a)).setPrev a (some .first)

/-- `QLIST_REMOVE`. -/
def remove (h : Heap A D) (a : A) : Except Fault (Heap A D) := do
  let e ← h.get a
  let h ← h.setPrevOfNext e.leNext e.lePrev
  let e ← h.get a
  let h ← match e.lePrev with
    | none => .error .useAfterFree
    | some slot => h.store slot e.leNext
  let h ← h.setNext a none
  h.setPrev a none

end Operations

/-! ### Which elements are linked -/

theorem slot_concat (l : List A) (a : A) : slot (l ++ [a]) = .next a := by
  cases l with
  | nil => rfl
  | cons b l => simp [slot]

theorem slot_cons_cons (a b : A) (l : List A) : slot (a :: b :: l) = slot (b :: l) := rfl

theorem slot_append (l : List A) (a : A) (m : List A) : slot (l ++ a :: m) = slot (a :: m) := by
  cases l with
  | nil => rfl
  | cons b l => simp [slot]

theorem slot_mem {l : List A} {b : A} (hs : slot l = .next b) : b ∈ l := by
  cases l with
  | nil => simp [slot] at hs
  | cons c l =>
    simp only [slot, Slot.next.injEq] at hs
    exact hs ▸ List.getLast_mem _

theorem represents_new : (new : Heap A D).Represents [] := by
  refine ⟨List.nodup_nil, rfl, fun l a r h => ?_⟩
  simp at h

theorem get_of_elem {h : Heap A D} {a : A} {e : Elem A D} (he : h.elem a = some e) :
    h.get a = .ok e := by
  rw [get, he]

variable {h : Heap A D} {as : List A} {a b : A} {e : Elem A D}

theorem Represents.allocated (hr : h.Represents as) (ha : a ∈ as) : ∃ e, h.elem a = some e := by
  obtain ⟨l, r, rfl⟩ := List.append_of_mem ha
  obtain ⟨e, he, -⟩ := hr.elem l a r rfl
  exact ⟨e, he⟩

/-- A search goes through the elements in their order. -/
theorem findFrom_spec (p : D → Bool) (hr : h.Represents as) :
    ∀ (r l : List A) (n : ℕ), as = l ++ r → r.length ≤ n →
      h.findFrom p n r.head? = .ok (r.find? fun a => (h.elem a).any fun e => p e.data)
  | [], _, n, _, _ => by cases n <;> rfl
  | a :: r, l, n, has, hn => by
    obtain ⟨e, he, hnext, -⟩ := hr.elem l a r has
    cases n with
    | zero => simp at hn
    | succ n =>
      have hrest := findFrom_spec p hr r (l ++ [a]) n (by simp [has])
        (by simp only [List.length_cons] at hn; omega)
      simp only [List.head?_cons, findFrom, get_of_elem he, bind, Except.bind, hnext, hrest]
      by_cases hp : p e.data = true
      · simp [hp, he]
      · simp [hp, he]

theorem Represents.of_linked (hr : h.Represents as) {h' : Heap A D}
    (hfirst : h'.lhFirst = h.lhFirst) (helem : ∀ a ∈ as, h'.elem a = h.elem a) :
    h'.Represents as := by
  refine ⟨hr.nodup, hfirst.trans hr.first, fun l a r has => ?_⟩
  rw [helem a (by simp [has])]
  exact hr.elem l a r has

/-- Changes links only. -/
def relink (h : Heap A D) (first : Option A) (links : A → Elem A D → Elem A D) : Heap A D :=
  { h with lhFirst := first, elem := fun a => (h.elem a).map (links a) }

theorem relink_sameData (first : Option A) {links : A → Elem A D → Elem A D}
    (hd : ∀ a e, (links a e).data = e.data) : h.SameData (h.relink first links) := by
  refine ⟨rfl, fun a => ?_⟩
  cases ha : h.elem a with
  | none => simp [relink, ha]
  | some e => simp [relink, ha, hd]

theorem relink_self (h : Heap A D) : h.relink h.lhFirst (fun _ e => e) = h := by
  simp [relink]

theorem relink_get (he : h.elem a = some e) (first : Option A)
    (links : A → Elem A D → Elem A D) : (h.relink first links).get a = .ok (links a e) := by
  simp [relink, get, he]

@[simp] theorem relink_lhFirst (first : Option A) (links : A → Elem A D → Elem A D) :
    (h.relink first links).lhFirst = first := rfl

theorem relink_setFirst (first first' : Option A) (links : A → Elem A D → Elem A D) :
    (h.relink first links).setFirst first' = h.relink first' links := rfl

/-- Whatever pointer is written next is one of an allocated element. -/
def Points (h : Heap A D) (next : Option A) : Prop :=
  ∀ b, next = some b → ∃ e, h.elem b = some e

theorem Represents.points (hr : h.Represents as) : h.Points h.lhFirst := by
  intro b hb
  rw [hr.first] at hb
  exact hr.allocated (List.mem_of_mem_head? hb)

variable [DecidableEq A]

section Relink
variable (first : Option A) (links : A → Elem A D → Elem A D)

theorem relink_set (he : h.elem a = some e) (f : Elem A D → Elem A D) :
    (h.relink first links).set a (f (links a e)) =
      h.relink first fun b e => if b = a then f (links b e) else links b e := by
  have hf : Function.update (h.relink first links).elem a (some (f (links a e))) =
      fun b => (h.elem b).map fun e => if b = a then f (links b e) else links b e := by
    funext b
    by_cases hb : b = a
    · subst hb
      simp [he]
    · simp [hb, relink]
  rw [set, hf]
  rfl

theorem relink_setNext (he : h.elem a = some e) (next : Option A) :
    (h.relink first links).setNext a next = .ok (h.relink first fun b e =>
      if b = a then { links b e with leNext := next } else links b e) := by
  rw [setNext, relink_get he, ← relink_set first links he fun e => { e with leNext := next }]
  rfl

theorem relink_setPrev (he : h.elem a = some e) (prev : Option (Slot A)) :
    (h.relink first links).setPrev a prev = .ok (h.relink first fun b e =>
      if b = a then { links b e with lePrev := prev } else links b e) := by
  rw [setPrev, relink_get he, ← relink_set first links he fun e => { e with lePrev := prev }]
  rfl

theorem relink_setPrevOfNext {next : Option A} (hn : h.Points next) (prev : Option (Slot A)) :
    (h.relink first links).setPrevOfNext next prev = .ok (h.relink first fun b e =>
      if next = some b then { links b e with lePrev := prev } else links b e) := by
  cases next with
  | none => simp [setPrevOfNext]
  | some c =>
    obtain ⟨e, he⟩ := hn c rfl
    simp only [setPrevOfNext, relink_setPrev first links he, Option.some.injEq, eq_comm]

theorem relink_store {slot : Slot A} (hs : ∀ b, slot = .next b → ∃ e, h.elem b = some e)
    (value : Option A) :
    (h.relink first links).store slot value =
      .ok (h.relink (if slot = .first then value else first) fun b e =>
        if slot = .next b then { links b e with leNext := value } else links b e) := by
  cases slot with
  | first => simp [store, relink_setFirst]
  | next c =>
    obtain ⟨e, he⟩ := hs c rfl
    simp only [store, relink_setNext first links he, Slot.next.injEq, eq_comm, reduceCtorEq,
      if_false]

end Relink

/-- The links after `QLIST_INSERT_HEAD`. -/
def insertLinks (a : A) (first : Option A) (b : A) (e : Elem A D) : Elem A D :=
  if b = a then { e with leNext := first, lePrev := some .first }
  else if first = some b then { e with lePrev := some (.next a) }
  else e

theorem insertHead_relink (hr : h.Represents as) (ha : a ∉ as) (he : h.elem a = some e) :
    h.insertHead a = .ok (h.relink (some a) (insertLinks a h.lhFirst)) := by
  have hfirst : h.lhFirst ≠ some a := by
    rw [hr.first]
    exact fun hf => ha (List.mem_of_mem_head? hf)
  have h₁ := relink_setNext h.lhFirst (fun _ e => e) he h.lhFirst
  rw [relink_self] at h₁
  simp only [insertHead, h₁, bind, Except.bind, relink_lhFirst,
    relink_setPrevOfNext _ _ hr.points, relink_setFirst, relink_setPrev _ _ he]
  congr 2
  funext b e
  by_cases hb : b = a
  · subst hb
    simp [insertLinks, hfirst]
  · simp [insertLinks, hb]

/-- A new first element. -/
theorem insertHead_spec (hr : h.Represents as) (ha : a ∉ as) (he : h.elem a = some e) :
    ∃ h', h.insertHead a = .ok h' ∧ h'.Represents (a :: as) ∧ h.SameData h' := by
  refine ⟨_, insertHead_relink hr ha he, ?_, ?_⟩
  · refine ⟨List.nodup_cons.mpr ⟨ha, hr.nodup⟩, rfl, fun l b r hl => ?_⟩
    cases l with
    | nil =>
      obtain ⟨rfl, rfl⟩ := List.cons.inj hl
      exact ⟨insertLinks a h.lhFirst a e, by simp [relink, he], by simp [insertLinks, hr.first],
        by simp [insertLinks, slot]⟩
    | cons c l =>
      obtain ⟨rfl, rfl⟩ := List.cons.inj hl
      obtain ⟨f, hf, hnext, hprev⟩ := hr.elem l b r rfl
      have hba : b ≠ a := fun hba => ha (hba ▸ by simp)
      refine ⟨insertLinks a h.lhFirst b f, by simp [relink, hf], ?_, ?_⟩
      · rw [← hnext]
        simp only [insertLinks, hba, if_false]
        split <;> rfl
      · cases l with
        | nil => simp [insertLinks, hr.first, hba, slot]
        | cons c l =>
          have hcb : c ≠ b := fun hcb =>
            (List.nodup_cons.mp hr.nodup).1 (hcb ▸ List.mem_append_right l List.mem_cons_self)
          rw [slot_cons_cons, ← hprev]
          simp [insertLinks, hr.first, hba, hcb]
  · refine relink_sameData _ fun b f => ?_
    unfold insertLinks
    split
    · rfl
    · split <;> rfl

/-- The links after `QLIST_REMOVE` of the element `removed` at `a`. -/
def removeLinks (removed : Elem A D) (a b : A) (e : Elem A D) : Elem A D :=
  if b = a then { e with leNext := none, lePrev := none }
  else
    { e with
      leNext := if removed.lePrev = some (.next b) then removed.leNext else e.leNext
      lePrev := if removed.leNext = some b then removed.lePrev else e.lePrev }

def removeFirst (removed : Elem A D) (first : Option A) : Option A :=
  if removed.lePrev = some .first then removed.leNext else first

theorem remove_relink {l r : List A} (hr : h.Represents (l ++ a :: r)) (he : h.elem a = some e) :
    h.remove a = .ok (h.relink (removeFirst e h.lhFirst) (removeLinks e a)) := by
  obtain ⟨f, hf, hnext, hprev⟩ := hr.elem l a r rfl
  obtain rfl : f = e := Option.some.inj (hf.symm.trans he)
  have ha : a ∉ l ++ r := (List.nodup_cons.mp (List.nodup_middle.mp hr.nodup)).1
  have hpoints : h.Points f.leNext := by
    intro b hb
    rw [hnext] at hb
    exact hr.allocated (by simp [List.mem_of_mem_head? hb])
  have hslot : ∀ b, slot l = .next b → ∃ e, h.elem b = some e := fun b hb =>
    hr.allocated (by simp [slot_mem hb])
  have hne : f.leNext ≠ some a := by
    rw [hnext]
    exact fun hhead => ha (List.mem_append_right l (List.mem_of_mem_head? hhead))
  have hna : slot l ≠ .next a := fun hs => ha (List.mem_append_left r (slot_mem hs))
  have h₁ := relink_setPrevOfNext h.lhFirst (fun _ e => e) hpoints (some (slot l))
  rw [relink_self] at h₁
  simp only [remove, get_of_elem he, hprev, h₁, bind, Except.bind, relink_get he, hne, if_false,
    relink_store _ _ hslot, relink_setNext _ _ he, relink_setPrev _ _ he, removeFirst,
    Option.some.injEq]
  congr 2
  funext b e
  by_cases hb : b = a
  · subst hb
    simp [removeLinks, hne, hna]
  · simp only [removeLinks, hb, hprev, if_false, Option.some.injEq]
    by_cases hs : slot l = .next b <;> by_cases hn : f.leNext = some b <;> simp [hs, hn]

section Remaining
variable {l r : List A} (hr : h.Represents (l ++ a :: r)) (he : h.elem a = some e)
include hr he

/-- An element behind the removed one. -/
theorem removeLinks_behind {m s : List A} (hm : r = m ++ b :: s) :
    ∃ f, (h.relink (removeFirst e h.lhFirst) (removeLinks e a)).elem b = some f ∧
      f.leNext = s.head? ∧ f.lePrev = some (slot (l ++ m)) := by
  obtain ⟨f, hf, hnext, hprev⟩ := hr.elem (l ++ a :: m) b s (by simp [hm])
  obtain ⟨f', hf', hnext', hprev'⟩ := hr.elem l a r rfl
  obtain rfl : f' = e := Option.some.inj (hf'.symm.trans he)
  have hnodup := hr.nodup
  rw [hm] at hnodup
  have hba : b ≠ a := by
    rintro rfl
    simp [List.nodup_append] at hnodup
  have hbl : b ∉ l := by
    intro hbl
    exact List.disjoint_of_nodup_append hnodup hbl (by simp)
  have hslot : slot l ≠ .next b := fun hs => hbl (slot_mem hs)
  refine ⟨removeLinks f' a b f, by simp [relink, hf], ?_, ?_⟩
  · simp [removeLinks, hba, hprev', hslot, hnext]
  · cases m with
    | nil => simp [removeLinks, hba, hnext', hm, hprev']
    | cons c m =>
      have hcb : c ≠ b := by
        rintro rfl
        simp [List.nodup_append] at hnodup
      have hskip : slot (l ++ a :: c :: m) = slot (l ++ c :: m) := by
        rw [slot_append l c m, slot_append l a (c :: m), slot_cons_cons]
      simp [removeLinks, hba, hnext', hm, hcb, hprev, hskip]

/-- An element in front of the removed one. -/
theorem removeLinks_before {m s : List A} (hm : l = m ++ b :: s) :
    ∃ f, (h.relink (removeFirst e h.lhFirst) (removeLinks e a)).elem b = some f ∧
      f.leNext = (s ++ r).head? ∧ f.lePrev = some (slot m) := by
  obtain ⟨f, hf, hnext, hprev⟩ := hr.elem m b (s ++ a :: r) (by simp [hm])
  obtain ⟨f', hf', hnext', hprev'⟩ := hr.elem l a r rfl
  obtain rfl : f' = e := Option.some.inj (hf'.symm.trans he)
  have hnodup := hr.nodup
  rw [hm] at hnodup
  have hba : b ≠ a := by
    rintro rfl
    simp [List.nodup_append] at hnodup
  have hbr : f'.leNext ≠ some b := by
    rw [hnext']
    intro hhead
    exact List.disjoint_of_nodup_append hnodup (by simp : b ∈ m ++ b :: s)
      (by simp [List.mem_of_mem_head? hhead])
  refine ⟨removeLinks f' a b f, by simp [relink, hf], ?_, ?_⟩
  · cases s with
    | nil =>
      have hslot : slot l = .next b := by rw [hm, slot_concat]
      simp [removeLinks, hba, hprev', hslot, hnext']
    | cons c s =>
      have hslot : slot l ≠ .next b := by
        rw [hm, slot_append m b (c :: s), slot_cons_cons]
        intro hs
        have hmem : b ∈ c :: s := slot_mem hs
        rw [List.append_assoc, List.cons_append] at hnodup
        have hnodup' := (List.nodup_cons.mp (List.nodup_middle.mp hnodup)).1
        exact hnodup' (by simp only [List.mem_append]; exact .inr (.inl hmem))
      simp [removeLinks, hba, hprev', hslot, hnext]
  · simp [removeLinks, hba, hbr, hprev]

end Remaining

/-- The element is no longer linked, the others keep their order. -/
theorem remove_spec {l r : List A} (hr : h.Represents (l ++ a :: r)) :
    ∃ h', h.remove a = .ok h' ∧ h'.Represents (l ++ r) ∧ h.SameData h' := by
  obtain ⟨e, he, hnext, hprev⟩ := hr.elem l a r rfl
  have hnodup := List.nodup_cons.mp (List.nodup_middle.mp hr.nodup)
  refine ⟨_, remove_relink hr he, ⟨hnodup.2, ?_, fun m b s hm => ?_⟩, ?_⟩
  · cases l with
    | nil => simp [removeFirst, hprev, hnext, slot]
    | cons c l => simp [removeFirst, hprev, slot, hr.first]
  · obtain ⟨k, rfl, hk⟩ | ⟨k, hk, hs⟩ := List.append_eq_append_iff.mp hm
    · exact removeLinks_behind hr he hk
    · cases k with
      | nil =>
        rw [List.append_nil] at hk
        rw [← hk, ← List.append_nil l]
        exact removeLinks_behind hr he hs.symm
      | cons c k =>
        obtain ⟨rfl, rfl⟩ := List.cons.inj hs
        exact removeLinks_before hr he hk
  · refine relink_sameData _ fun b f => ?_
    unfold removeLinks
    split <;> rfl

theorem free_spec (he : h.elem a = some e) :
    ∃ h', h.free a = .ok h' ∧ h'.lhFirst = h.lhFirst ∧ h'.allocated = h.allocated - 1 ∧
      h'.elem a = none ∧ ∀ b, b ≠ a → h'.elem b = h.elem b := by
  refine ⟨{ h with elem := Function.update h.elem a none, allocated := h.allocated - 1 }, ?_, rfl,
    rfl, Function.update_self .., fun b hb => Function.update_of_ne hb ..⟩
  rw [free, get_of_elem he]
  rfl

theorem alloc_elem_self (h : Heap A D) (a : A) (data : D) :
    (h.alloc a data).elem a = some ⟨none, none, data⟩ :=
  Function.update_self ..

theorem alloc_elem_ne (h : Heap A D) (data : D) (hb : b ≠ a) :
    (h.alloc a data).elem b = h.elem b :=
  Function.update_of_ne hb ..

end Heap

/-- Hands out addresses that are not in use, whenever all that are in use are counted. -/
structure Allocator (A D : Type) where
  malloc : Heap A D → A
  fresh : ∀ (h : Heap A D) (as : List A), (∀ a, h.elem a ≠ none → a ∈ as) →
    as.length ≤ h.allocated → h.elem (malloc h) = none

/-- The lowest address that is not in use. -/
def Allocator.lowest (D : Type) : Allocator ℕ D where
  malloc h := ((List.range (h.allocated + 1)).find? fun a => (h.elem a).isNone).getD 0
  fresh h as has hcount := by
    have hfree : ∃ a ∈ List.range (h.allocated + 1), h.elem a = none := by
      by_contra hnone
      have hsub : ∀ a ∈ List.range (h.allocated + 1), a ∈ as := fun a ha =>
        has a fun hn => hnone ⟨a, ha, hn⟩
      have hlength := (List.subperm_of_subset List.nodup_range hsub).length_le
      simp only [List.length_range] at hlength
      omega
    cases hfound : (List.range (h.allocated + 1)).find? fun a => (h.elem a).isNone with
    | none =>
      obtain ⟨a, ha, hn⟩ := hfree
      have hsome := List.find?_eq_none.mp hfound a ha
      simp [hn] at hsome
    | some a => simpa using List.find?_some hfound

end QList
