import ColoDaemon.QList
import Mathlib.Data.List.Find

/-!
# Registered callbacks

The lists of callbacks that `qmp.c`, `cpg.c`, `netlink.c` and `yellow_coroutine.c` keep, on the
pointers of `QLIST`. A notification calls every entry with `QLIST_FOREACH_SAFE`, and what it calls
may unregister callbacks, itself first of all. The addresses come from an allocator that never
returns an address in use. `Registry` is what the lists are for: the callbacks themselves, newest
first.
-/

namespace ColoDaemon
namespace CallbackList
open QList

/-- `ColodCallback`, without its links. -/
structure Callback (F U : Type) where
  func : F
  userData : U
  deriving DecidableEq, Repr

section Source
variable {A F U : Type} [DecidableEq F] [DecidableEq U]

def colodCallbackFind (head : Heap A (Callback F U)) (func : F) (userData : U) :
    Except Fault (Option A) :=
  head.findFrom (fun entry => entry.func == func && entry.userData == userData) head.allocated
    head.lhFirst

variable [DecidableEq A]

def colodCallbackAdd (alloc : Allocator A (Callback F U)) (head : Heap A (Callback F U)) (func : F)
    (userData : U) : Except Fault (Heap A (Callback F U)) := do
  let found ← colodCallbackFind head func userData
  if found.isSome then .error .assertFailed
  else
    let cb := alloc.malloc head
    (head.alloc cb ⟨func, userData⟩).insertHead cb

def colodCallbackDel (head : Heap A (Callback F U)) (func : F) (userData : U) :
    Except Fault (Heap A (Callback F U)) := do
  let found ← colodCallbackFind head func userData
  match found with
  | none => .error .assertFailed
  | some cb =>
    let head ← head.remove cb
    head.free cb

def clearLoop : ℕ → Heap A (Callback F U) → Except Fault (Heap A (Callback F U))
  | 0, head => if head.lhFirst.isSome then .error .endless else .ok head
  | n + 1, head =>
    match head.lhFirst with
    | none => .ok head
    | some cb => do
      let head ← head.remove cb
      let head ← head.free cb
      clearLoop n head

def colodCallbackClear (head : Heap A (Callback F U)) : Except Fault (Heap A (Callback F U)) :=
  clearLoop head.allocated head

/-- The callbacks that a callback unregisters while it is called. -/
def delAll : List (Callback F U) → Heap A (Callback F U) → Except Fault (Heap A (Callback F U))
  | [], head => .ok head
  | cb :: cbs, head => do
    let head ← colodCallbackDel head cb.func cb.userData
    delAll cbs head

def callEntry (removes : Callback F U → List (Callback F U)) (entry : A)
    (head : Heap A (Callback F U)) :
    Except Fault (Callback F U × Heap A (Callback F U)) := do
  let e ← head.get entry
  let head ← delAll (removes e.data) head
  .ok (e.data, head)

/-- `notify_event`, `notify_hup`, `notify`: the callbacks in the order of their calls. -/
def notify (removes : Callback F U → List (Callback F U)) (head : Heap A (Callback F U)) :
    Except Fault (List (Callback F U) × Heap A (Callback F U)) :=
  head.forEachSafe (callEntry removes) head.allocated head.lhFirst

end Source

/-- A use of a list of callbacks. -/
inductive Op (F U : Type)
  | add (func : F) (userData : U)
  | del (func : F) (userData : U)
  | notify (removes : Callback F U → List (Callback F U))
  | clear

section Run
variable {A F U : Type} [DecidableEq F] [DecidableEq U] [DecidableEq A]

def runOp (alloc : Allocator A (Callback F U)) (head : Heap A (Callback F U)) :
    Op F U → Except Fault (List (Callback F U) × Heap A (Callback F U))
  | .add func userData => do
    let head ← colodCallbackAdd alloc head func userData
    .ok ([], head)
  | .del func userData => do
    let head ← colodCallbackDel head func userData
    .ok ([], head)
  | .notify removes => notify removes head
  | .clear => do
    let head ← colodCallbackClear head
    .ok ([], head)

/-- The calls of every notification, in their order. -/
def run (alloc : Allocator A (Callback F U)) :
    List (Op F U) → Heap A (Callback F U) →
      Except Fault (List (List (Callback F U)) × Heap A (Callback F U))
  | [], head => .ok ([], head)
  | op :: ops, head => do
    let (called, head) ← runOp alloc head op
    let (calls, head) ← run alloc ops head
    .ok (called :: calls, head)

end Run

namespace Registry
variable {F U : Type} [DecidableEq F] [DecidableEq U]

def add (cb : Callback F U) (cbs : List (Callback F U)) : Except Fault (List (Callback F U)) :=
  if cb ∈ cbs then .error .assertFailed else .ok (cb :: cbs)

def del (cb : Callback F U) (cbs : List (Callback F U)) : Except Fault (List (Callback F U)) :=
  if cb ∈ cbs then .ok (cbs.erase cb) else .error .assertFailed

def delAll : List (Callback F U) → List (Callback F U) → Except Fault (List (Callback F U))
  | [], cbs => .ok cbs
  | cb :: removed, cbs => do
    let cbs ← del cb cbs
    delAll removed cbs

/-- Calls those of `todo` that are still registered. The entry behind a called one must survive the
call. -/
def call (removes : Callback F U → List (Callback F U)) :
    List (Callback F U) → List (Callback F U) →
      Except Fault (List (Callback F U) × List (Callback F U))
  | [], cbs => .ok ([], cbs)
  | cb :: todo, cbs =>
    if cb ∈ cbs then do
      let rest ← delAll (removes cb) cbs
      if ∃ next ∈ todo.find? (· ∈ cbs), next ∉ rest then .error .useAfterFree
      else
        let (called, rest) ← call removes todo rest
        .ok (cb :: called, rest)
    else call removes todo cbs

def notify (removes : Callback F U → List (Callback F U)) (cbs : List (Callback F U)) :
    Except Fault (List (Callback F U) × List (Callback F U)) :=
  call removes cbs cbs

def runOp (cbs : List (Callback F U)) :
    Op F U → Except Fault (List (Callback F U) × List (Callback F U))
  | .add func userData => do
    let cbs ← add ⟨func, userData⟩ cbs
    .ok ([], cbs)
  | .del func userData => do
    let cbs ← del ⟨func, userData⟩ cbs
    .ok ([], cbs)
  | .notify removes => notify removes cbs
  | .clear => .ok ([], [])

def run : List (Op F U) → List (Callback F U) →
    Except Fault (List (List (Callback F U)) × List (Callback F U))
  | [], cbs => .ok ([], cbs)
  | op :: ops, cbs => do
    let (called, cbs) ← runOp cbs op
    let (calls, cbs) ← run ops cbs
    .ok (called :: calls, cbs)

end Registry

/-! ### The pointers of a list of callbacks -/

section Holds
variable {A F U : Type} {head : Heap A (Callback F U)} {l : List (A × Callback F U)}

/-- Exactly the entries of `l` are allocated, they are linked in this order, and no two of them are
for the same callback. -/
structure Holds (head : Heap A (Callback F U)) (l : List (A × Callback F U)) : Prop where
  links : head.Represents (l.map Prod.fst)
  data : ∀ p ∈ l, ∃ e, head.elem p.1 = some e ∧ e.data = p.2
  only : ∀ a, head.elem a ≠ none → a ∈ l.map Prod.fst
  count : head.allocated = l.length
  nodup : (l.map Prod.snd).Nodup

theorem holds_new : Holds (Heap.new : Heap A (Callback F U)) [] := by
  refine ⟨Heap.represents_new, ?_, fun a ha => absurd rfl ha, rfl, List.nodup_nil⟩
  intro p hp
  cases hp

variable [DecidableEq F] [DecidableEq U]

/-- The search finds the entry of the callback. -/
theorem colodCallbackFind_eq (hl : Holds head l) (cb : Callback F U) :
    colodCallbackFind head cb.func cb.userData =
      .ok ((l.find? fun p => p.2 = cb).map Prod.fst) := by
  have hfind := Heap.findFrom_spec
    (fun entry : Callback F U => entry.func == cb.func && entry.userData == cb.userData) hl.links
    (l.map Prod.fst) [] head.allocated rfl (by simp [hl.count])
  rw [← hl.links.first] at hfind
  rw [colodCallbackFind, hfind, List.find?_map]
  congr 2
  refine List.find?_congr fun p hp => ?_
  obtain ⟨e, he, hdata⟩ := hl.data p hp
  have hcb : p.2 = cb ↔ p.2.func = cb.func ∧ p.2.userData = cb.userData := by
    cases cb
    cases p.2
    simp
  simp only [Function.comp_apply, he, Option.any_some, hdata, Bool.beq_eq_decide_eq, hcb]
  exact (Bool.decide_and ..).symm

theorem find_entry {l₁ l₂ : List (A × Callback F U)} {a : A} {cb : Callback F U}
    (hn : ((l₁ ++ (a, cb) :: l₂).map Prod.snd).Nodup) :
    (l₁ ++ (a, cb) :: l₂).find? (fun p => p.2 = cb) = some (a, cb) := by
  rw [List.map_append, List.map_cons] at hn
  have hfirst : l₁.find? (fun p => p.2 = cb) = none := by
    refine List.find?_eq_none.mpr fun p hp => ?_
    have hmem : p.2 ∈ l₁.map Prod.snd := List.mem_map_of_mem hp
    have hne : p.2 ≠ cb := fun h =>
      List.disjoint_of_nodup_append hn hmem (h ▸ List.mem_cons_self)
    simp [hne]
  rw [List.find?_append, hfirst]
  simp

variable [DecidableEq A]

omit [DecidableEq F] [DecidableEq U] in
/-- `QLIST_REMOVE` and `g_free` of an entry. -/
theorem remove_free {l₁ l₂ : List (A × Callback F U)} {a : A} {cb : Callback F U}
    (hl : Holds head (l₁ ++ (a, cb) :: l₂)) :
    ∃ h₁ h₂, head.remove a = .ok h₁ ∧ h₁.free a = .ok h₂ ∧ Holds h₂ (l₁ ++ l₂) := by
  have hcbs := hl.nodup
  have hlinks := hl.links
  rw [List.map_append, List.map_cons] at hlinks hcbs
  obtain ⟨h₁, hremove, hlinks₁, hsame⟩ := Heap.remove_spec hlinks
  rw [← List.map_append] at hlinks₁
  have ha : a ∉ (l₁ ++ l₂).map Prod.fst := by
    have hnodup := (List.nodup_cons.mp (List.nodup_middle.mp hlinks.nodup)).1
    rwa [← List.map_append] at hnodup
  have halloc : ∀ b, (h₁.elem b).isSome = (head.elem b).isSome := by
    intro b
    have hdata := congrArg Option.isSome (hsame.data b)
    simpa using hdata
  obtain ⟨e, he, -⟩ := hl.data (a, cb) (by simp)
  obtain ⟨e₁, he₁⟩ : ∃ e₁, h₁.elem a = some e₁ := by
    rw [← Option.isSome_iff_exists, halloc, he]
    rfl
  obtain ⟨h₂, hfree, hfirst, hcount, hself, hothers⟩ := Heap.free_spec he₁
  refine ⟨h₁, h₂, hremove, hfree, ?_⟩
  refine ⟨hlinks₁.of_linked hfirst fun b hb => ?_, fun p hp => ?_, fun b hb => ?_, ?_, ?_⟩
  · exact hothers b fun hba => ha (hba ▸ hb)
  · have hpa : p.1 ≠ a := fun hpa => ha (hpa ▸ List.mem_map_of_mem hp)
    obtain ⟨f, hf, hdata⟩ := hl.data p (by
      rw [List.mem_append] at hp
      simp only [List.mem_append, List.mem_cons]
      exact hp.imp_right .inr)
    have hdata₁ := hsame.data p.1
    rw [hf, Option.map_some, Option.map_eq_some_iff] at hdata₁
    obtain ⟨f₁, hf₁, hd⟩ := hdata₁
    exact ⟨f₁, (hothers _ hpa).trans hf₁, hd.trans hdata⟩
  · have hba : b ≠ a := by
      rintro rfl
      exact hb hself
    rw [hothers b hba, ← Option.isSome_iff_ne_none, halloc, Option.isSome_iff_ne_none] at hb
    have hmem := hl.only b hb
    rw [List.map_append, List.map_cons, List.mem_append, List.mem_cons] at hmem
    rw [List.map_append, List.mem_append]
    exact hmem.imp_right fun h => h.resolve_left hba
  · have hlength := hl.count
    simp only [List.length_append, List.length_cons] at hlength ⊢
    rw [hcount, hsame.allocated, hlength]
    omega
  · rw [List.map_append]
    exact (List.nodup_cons.mp (List.nodup_middle.mp hcbs)).2

/-- Unregistering takes out the one entry of the callback. -/
theorem colodCallbackDel_split {l₁ l₂ : List (A × Callback F U)} {a : A} {cb : Callback F U}
    (hl : Holds head (l₁ ++ (a, cb) :: l₂)) :
    ∃ head', colodCallbackDel head cb.func cb.userData = .ok head' ∧ Holds head' (l₁ ++ l₂) := by
  obtain ⟨h₁, h₂, hremove, hfree, hl₂⟩ := remove_free hl
  refine ⟨h₂, ?_, hl₂⟩
  rw [colodCallbackDel, colodCallbackFind_eq hl, find_entry hl.nodup]
  simp only [bind, Except.bind, Option.map_some, hremove, hfree]

/-- What is left of the list after callbacks were unregistered. -/
def Left (l : List (A × Callback F U)) (head : Heap A (Callback F U)) (cbs : List (Callback F U)) :
    Prop :=
  ∃ q : Callback F U → Bool, Holds head (l.filter fun p => q p.2) ∧ cbs = (l.map Prod.snd).filter q

theorem colodCallbackDel_agree (hl : Holds head l) (cb : Callback F U) :
    Agree (Left l) (colodCallbackDel head cb.func cb.userData) (Registry.del cb (l.map Prod.snd)) := by
  by_cases hcb : cb ∈ l.map Prod.snd
  · obtain ⟨⟨a, _⟩, hp, rfl⟩ := List.mem_map.mp hcb
    obtain ⟨l₁, l₂, rfl⟩ := List.append_of_mem hp
    rename_i cb
    have hcbs := hl.nodup
    obtain ⟨head', hdel, hl'⟩ := colodCallbackDel_split hl
    rw [hdel, Registry.del, if_pos hcb]
    refine .ok ⟨(· != cb), ?_, hcbs.erase_eq_filter cb⟩
    rw [List.map_append, List.map_cons] at hcbs
    have hne := (List.nodup_cons.mp (List.nodup_middle.mp hcbs)).1
    have hkeep : ∀ l' : List (A × Callback F U), (∀ p ∈ l', p.2 ∈ l₁.map Prod.snd ++ l₂.map Prod.snd) →
        l'.filter (fun p : A × Callback F U => p.2 != cb) = l' := by
      intro l' hsub
      refine List.filter_eq_self.mpr fun p hp => bne_iff_ne.mpr fun h => ?_
      exact hne (h ▸ hsub p hp)
    rw [List.filter_append, List.filter_cons_of_neg (by simp), hkeep l₁, hkeep l₂]
    · exact hl'
    · exact fun p hp => List.mem_append_right _ (List.mem_map_of_mem hp)
    · exact fun p hp => List.mem_append_left _ (List.mem_map_of_mem hp)
  · have hfind : l.find? (fun p => p.2 = cb) = none := by
      refine List.find?_eq_none.mpr fun p hp => ?_
      have hne : p.2 ≠ cb := fun h => hcb (h ▸ List.mem_map_of_mem hp)
      simp [hne]
    rw [colodCallbackDel, colodCallbackFind_eq hl, hfind, Registry.del, if_neg hcb]
    exact .error .assertFailed

omit [DecidableEq F] [DecidableEq U] [DecidableEq A] in
theorem map_snd_filter (l : List (A × Callback F U)) (q : Callback F U → Bool) :
    (l.filter fun p => q p.2).map Prod.snd = (l.map Prod.snd).filter q := by
  rw [List.filter_map]
  rfl

omit [DecidableEq F] [DecidableEq U] [DecidableEq A] in
theorem Left.of_filter {q : Callback F U → Bool} {cbs : List (Callback F U)}
    (h : Left (l.filter fun p => q p.2) head cbs) :
    ∃ q' : Callback F U → Bool, (∀ cb, q' cb = true → q cb = true) ∧
      Holds head (l.filter fun p => q' p.2) ∧ cbs = (l.map Prod.snd).filter q' := by
  obtain ⟨q', hl, hcbs⟩ := h
  refine ⟨fun cb => q' cb && q cb, fun cb hcb => (Bool.and_eq_true_iff.mp hcb).2, ?_, ?_⟩
  · rwa [List.filter_filter] at hl
  · rw [hcbs, map_snd_filter, List.filter_filter]

theorem delAll_agree : ∀ (removed : List (Callback F U)) {l : List (A × Callback F U)}
    {head : Heap A (Callback F U)}, Holds head l →
      Agree (Left l) (delAll removed head) (Registry.delAll removed (l.map Prod.snd))
  | [], l, head, hl => .ok ⟨fun _ => true, by simpa using hl, by simp⟩
  | cb :: removed, l, head, hl => by
    refine (colodCallbackDel_agree hl cb).bind fun head₁ cbs₁ h₁ => ?_
    obtain ⟨q, hl₁, rfl⟩ := h₁
    have hrest := delAll_agree removed hl₁
    rw [map_snd_filter] at hrest
    refine hrest.imp fun head₂ cbs₂ h₂ => ?_
    obtain ⟨q', -, hl₂⟩ := h₂.of_filter
    exact ⟨q', hl₂⟩

/-- What a notification leaves: the same calls, and the entries that are still registered. -/
def Notified (l : List (A × Callback F U)) (x : List (Callback F U) × Heap A (Callback F U))
    (y : List (Callback F U) × List (Callback F U)) : Prop :=
  x.1 = y.1 ∧ Left l x.2 y.2

omit [DecidableEq U] [DecidableEq F] [DecidableEq A] in
theorem filter_of_imp {q q' : Callback F U → Bool} (hq : ∀ cb, q' cb = true → q cb = true)
    (l : List (A × Callback F U)) :
    (l.filter fun p => q p.2).filter (fun p => q' p.2) = l.filter fun p => q' p.2 := by
  rw [List.filter_filter]
  refine List.filter_congr fun p _ => ?_
  by_cases hp : q' p.2 = true
  · simp [hp, hq _ hp]
  · simp [hp]

omit [DecidableEq A] in
/-- Among the entries left, the search of the notification finds the first. -/
theorem find_registered {q : Callback F U → Bool} {todo : List (A × Callback F U)}
    (hsub : ∀ p ∈ todo, p ∈ l) :
    (todo.map Prod.snd).find? (fun cb => cb ∈ (l.map Prod.snd).filter q) =
      (todo.filter fun p => q p.2).head?.map Prod.snd := by
  rw [List.find?_map, List.head?_filter]
  congr 1
  refine List.find?_congr fun p hp => ?_
  have hmem : p.2 ∈ l.map Prod.snd := List.mem_map_of_mem (hsub p hp)
  simp [List.mem_filter, hmem]

omit [DecidableEq U] [DecidableEq F] [DecidableEq A] in
/-- An entry that was unregistered is not allocated any more. -/
theorem elem_unregistered {q q' : Callback F U → Bool} {head' : Heap A (Callback F U)}
    {b : A} {cb : Callback F U} (hq : ∀ cb, q' cb = true → q cb = true)
    (hh : Holds head (l.filter fun p => q p.2)) (hh' : Holds head' (l.filter fun p => q' p.2))
    (hb : (b, cb) ∈ l.filter fun p => q p.2) (hcb : ¬ q' cb = true) : head'.elem b = none := by
  by_contra hne
  obtain ⟨⟨_, cb'⟩, hp, rfl⟩ := List.mem_map.mp (hh'.only b hne)
  have hp' := List.mem_filter.mp hp
  have hmem := (List.mem_filter (p := fun p => q p.2)).mpr ⟨hp'.1, hq _ hp'.2⟩
  have hsame := List.inj_on_of_nodup_map hh.links.nodup hb hmem rfl
  exact hcb ((Prod.mk.inj hsame).2 ▸ hp'.2)

/-- The saved pointer is to the first of `todo` that is still registered. -/
theorem forEach_agree (removes : Callback F U → List (Callback F U)) :
    ∀ (todo done : List (A × Callback F U)) (q : Callback F U → Bool) (n : ℕ)
      (head : Heap A (Callback F U)), l = done ++ todo → Holds head (l.filter fun p => q p.2) →
      (todo.filter fun p => q p.2).length ≤ n →
      Agree (Notified l)
        (head.forEachSafe (callEntry removes) n ((todo.filter fun p => q p.2).head?.map Prod.fst))
        (Registry.call removes (todo.map Prod.snd) ((l.map Prod.snd).filter q))
  | [], done, q, n, head, _, hh, _ => by
    have hend : head.forEachSafe (callEntry removes) n none = .ok ([], head) := by
      cases n <;> rfl
    rw [List.filter_nil, List.head?_nil, Option.map_none, hend]
    exact .ok ⟨rfl, q, hh, rfl⟩
  | (a, cb) :: todo, done, q, n, head, hl, hh, hn => by
    have hmem : cb ∈ (l.map Prod.snd).filter q ↔ q cb = true := by
      rw [List.mem_filter]
      refine and_iff_right (List.mem_map_of_mem (f := Prod.snd) (a := (a, cb)) ?_)
      simp [hl]
    have hl' : l = (done ++ [(a, cb)]) ++ todo := by simp [hl]
    have hsub : ∀ p ∈ todo, p ∈ l := fun p hp => by simp [hl, hp]
    by_cases hq : q cb = true
    · rw [List.filter_cons_of_pos (by simpa using hq)] at hn ⊢
      have hsplit : l.filter (fun p => q p.2) =
          done.filter (fun p => q p.2) ++ (a, cb) :: todo.filter fun p => q p.2 := by
        rw [hl, List.filter_append, List.filter_cons_of_pos (by simpa using hq)]
      obtain ⟨e, he, hdata⟩ := hh.data (a, cb) (by simp [hsplit])
      obtain ⟨f, hf, hnext, -⟩ := hh.links.elem _ a _ (by rw [hsplit, List.map_append]; rfl)
      obtain rfl : f = e := Option.some.inj (hf.symm.trans he)
      cases n with
      | zero => simp at hn
      | succ n =>
        simp only [List.length_cons, Nat.add_le_add_iff_right] at hn
        have hcall := delAll_agree (removes cb) hh
        rw [map_snd_filter] at hcall
        simp only [List.head?_cons, Option.map_some, Heap.forEachSafe, Heap.get_of_elem he,
          callEntry, hdata, bind, Except.bind, hnext, List.head?_map, List.map_cons, Registry.call,
          if_pos (hmem.mpr hq), find_registered hsub]
        generalize delAll (removes cb) head = x at hcall ⊢
        generalize Registry.delAll (removes cb) ((l.map Prod.snd).filter q) = y at hcall ⊢
        cases hcall with
        | error fault => exact .error fault
        | @ok head' rest hleft =>
          obtain ⟨q', hqq', hh', rfl⟩ := hleft.of_filter
          have hrest := forEach_agree removes todo _ q' n head' hl' hh'
          rw [← filter_of_imp hqq' todo] at hrest
          have hcalled : ∀ x y, Agree (Notified l) x y →
              Agree (Notified l) (x >>= fun v => .ok (cb :: v.1, v.2))
                (y >>= fun v => .ok (cb :: v.1, v.2)) := fun x y hxy =>
            hxy.bind fun v w hvw => .ok ⟨congrArg (cb :: ·) hvw.1, hvw.2⟩
          cases ht : todo.filter fun p => q p.2 with
          | nil =>
            rw [ht] at hrest
            simp only [List.head?_nil, Option.map_none, Option.mem_def, reduceCtorEq, false_and,
              exists_false, if_false]
            exact hcalled _ _ (hrest (Nat.zero_le n))
          | cons p todo' =>
            obtain ⟨b, d⟩ := p
            rw [ht] at hn hrest hsplit
            have hb : (b, d) ∈ l.filter fun p => q p.2 := by simp [hsplit]
            have hd : d ∈ (l.map Prod.snd).filter q' ↔ q' d = true := by
              rw [List.mem_filter]
              exact and_iff_right
                (List.mem_map_of_mem (f := Prod.snd) (List.mem_filter.mp hb).1)
            simp only [List.head?_cons, Option.map_some, Option.mem_def, Option.some.injEq,
              exists_eq_left', hd]
            by_cases hq' : q' d = true
            · rw [List.filter_cons_of_pos (by simpa using hq')] at hrest
              rw [if_neg (not_not_intro hq')]
              refine hcalled _ _ (hrest ?_)
              rw [List.length_cons] at hn ⊢
              exact (Nat.succ_le_succ (List.length_filter_le _ _)).trans hn
            · rw [if_pos hq']
              -- the saved pointer is to an entry that the call has freed
              have hfreed := elem_unregistered hqq' hh hh' hb hq'
              cases n with
              | zero => simp at hn
              | succ n =>
                simp only [Heap.forEachSafe, Heap.get, hfreed, bind, Except.bind]
                exact .error .useAfterFree
    · rw [List.filter_cons_of_neg (by simpa using hq)] at hn ⊢
      rw [List.map_cons, Registry.call, if_neg (mt hmem.mp hq)]
      exact forEach_agree removes todo _ q n head hl' hh hn

omit [DecidableEq A] in
theorem find_none {cb : Callback F U} (hcb : cb ∉ l.map Prod.snd) :
    l.find? (fun p => p.2 = cb) = none := by
  refine List.find?_eq_none.mpr fun p hp => ?_
  have hne : p.2 ≠ cb := fun h => hcb (h ▸ List.mem_map_of_mem hp)
  simp [hne]

/-- The registered callbacks of a list on the heap. -/
def Registers (head : Heap A (Callback F U)) (cbs : List (Callback F U)) : Prop :=
  ∃ l, Holds head l ∧ l.map Prod.snd = cbs

theorem colodCallbackAdd_agree (alloc : Allocator A (Callback F U)) (hl : Holds head l)
    (cb : Callback F U) :
    Agree Registers (colodCallbackAdd alloc head cb.func cb.userData)
      (Registry.add cb (l.map Prod.snd)) := by
  by_cases hcb : cb ∈ l.map Prod.snd
  · obtain ⟨⟨a, _⟩, hp, rfl⟩ := List.mem_map.mp hcb
    obtain ⟨l₁, l₂, rfl⟩ := List.append_of_mem hp
    rw [colodCallbackAdd, colodCallbackFind_eq hl, find_entry hl.nodup, Registry.add, if_pos hcb]
    exact .error .assertFailed
  · have hfree := alloc.fresh head (l.map Prod.fst) hl.only (by simp [hl.count])
    have ha : ∀ a ∈ l.map Prod.fst, a ≠ alloc.malloc head := by
      rintro a ha rfl
      obtain ⟨e, he⟩ := hl.links.allocated ha
      rw [hfree] at he
      cases he
    have hlinks : (head.alloc (alloc.malloc head) cb).Represents (l.map Prod.fst) :=
      hl.links.of_linked rfl fun a hal => Heap.alloc_elem_ne head cb (ha a hal)
    obtain ⟨head', hinsert, hlinks', hsame⟩ := Heap.insertHead_spec hlinks
      (fun hmem => ha _ hmem rfl) (Heap.alloc_elem_self head _ cb)
    rw [colodCallbackAdd, colodCallbackFind_eq hl, find_none hcb, Registry.add, if_neg hcb]
    simp only [bind, Except.bind, Option.map_none, Option.isSome_none, Bool.false_eq_true,
      if_false, hinsert]
    refine .ok ⟨(alloc.malloc head, cb) :: l, ⟨hlinks', fun p hp => ?_, fun a hne => ?_, ?_, ?_⟩, rfl⟩
    · have hdata := hsame.data p.1
      obtain rfl | hp := List.mem_cons.mp hp
      · rw [Heap.alloc_elem_self, Option.map_some, Option.map_eq_some_iff] at hdata
        exact hdata
      · obtain ⟨e, he, hd⟩ := hl.data p hp
        rw [Heap.alloc_elem_ne head cb (ha _ (List.mem_map_of_mem hp)), he, Option.map_some,
          Option.map_eq_some_iff] at hdata
        obtain ⟨e', he', hd'⟩ := hdata
        exact ⟨e', he', hd'.trans hd⟩
    · by_cases ham : a = alloc.malloc head
      · simp [ham]
      · have hdata := congrArg Option.isSome (hsame.data a)
        rw [Heap.alloc_elem_ne head cb ham] at hdata
        simp only [Option.isSome_map] at hdata
        rw [← Option.isSome_iff_ne_none, hdata, Option.isSome_iff_ne_none] at hne
        exact List.mem_cons_of_mem _ (hl.only a hne)
    · rw [hsame.allocated, List.length_cons, ← hl.count]
      rfl
    · rw [List.map_cons]
      exact List.nodup_cons.mpr ⟨hcb, hl.nodup⟩

omit [DecidableEq F] [DecidableEq U] in
theorem clearLoop_empties : ∀ (l : List (A × Callback F U)) (head : Heap A (Callback F U)),
    Holds head l → ∃ head', clearLoop l.length head = .ok head' ∧ Holds head' []
  | [], head, hl => by
    have hfirst : head.lhFirst = none := hl.links.first
    exact ⟨head, by simp [clearLoop, hfirst], hl⟩
  | (a, cb) :: l, head, hl => by
    have hfirst : head.lhFirst = some a := hl.links.first
    rw [← List.nil_append ((a, cb) :: l)] at hl
    obtain ⟨h₁, h₂, hremove, hfree, hl₂⟩ := remove_free hl
    obtain ⟨head', hclear, hl'⟩ := clearLoop_empties l h₂ hl₂
    refine ⟨head', ?_, hl'⟩
    simp only [List.length_cons, clearLoop, hfirst, hremove, hfree, bind, Except.bind, hclear]

/-- The same calls, and the heap holds what the registry has. -/
def Refines {C : Type} (x : C × Heap A (Callback F U)) (y : C × List (Callback F U)) : Prop :=
  x.1 = y.1 ∧ Registers x.2 y.2

omit [DecidableEq F] [DecidableEq U] [DecidableEq A] in
theorem Left.registers {cbs : List (Callback F U)} (h : Left l head cbs) : Registers head cbs := by
  obtain ⟨q, hq, rfl⟩ := h
  exact ⟨_, hq, map_snd_filter l q⟩

theorem notify_agree (removes : Callback F U → List (Callback F U)) (hl : Holds head l) :
    Agree Refines (notify removes head) (Registry.notify removes (l.map Prod.snd)) := by
  have hall : l.filter (fun _ => true) = l := by simp
  have hcall := forEach_agree (l := l) removes l [] (fun _ => true) head.allocated head rfl
    (by rwa [hall]) (by rw [hall, hl.count])
  rw [hall, List.filter_eq_self.mpr fun _ _ => rfl, ← List.head?_map, ← hl.links.first] at hcall
  exact hcall.imp fun x y hxy => ⟨hxy.1, hxy.2.registers⟩

theorem runOp_agree (alloc : Allocator A (Callback F U)) (hl : Holds head l) (op : Op F U) :
    Agree Refines (runOp alloc head op) (Registry.runOp (l.map Prod.snd) op) := by
  cases op with
  | add func userData =>
    exact (colodCallbackAdd_agree alloc hl ⟨func, userData⟩).bind fun _ _ h => .ok ⟨rfl, h⟩
  | del func userData =>
    exact (colodCallbackDel_agree hl ⟨func, userData⟩).bind fun _ _ h => .ok ⟨rfl, h.registers⟩
  | notify removes => exact notify_agree removes hl
  | clear =>
    obtain ⟨head', hclear, hl'⟩ := clearLoop_empties l head hl
    rw [runOp, colodCallbackClear, hl.count, hclear]
    exact .ok ⟨rfl, [], hl', rfl⟩

theorem run_agree (alloc : Allocator A (Callback F U)) :
    ∀ (ops : List (Op F U)) {head : Heap A (Callback F U)} {cbs : List (Callback F U)},
      Registers head cbs → Agree Refines (run alloc ops head) (Registry.run ops cbs)
  | [], _, _, hr => .ok ⟨rfl, hr⟩
  | op :: ops, _, _, ⟨l, hl, hcbs⟩ => by
    subst hcbs
    refine (runOp_agree alloc hl op).bind fun x y hxy => ?_
    refine (run_agree alloc ops hxy.2).bind fun v w hvw => .ok ⟨?_, hvw.2⟩
    rw [hxy.1, hvw.1]

/-- Whatever is registered, unregistered and notified, the pointers do what the registry does:
the same calls in the same order, and a failed assertion or an access to a freed entry exactly
where the registry has it. -/
theorem run_refines (alloc : Allocator A (Callback F U)) (ops : List (Op F U)) :
    Agree Refines (run alloc ops Heap.new) (Registry.run ops []) :=
  run_agree alloc ops ⟨[], holds_new, rfl⟩

/-! ### Callbacks that unregister themselves -/

/-- The callback unregisters at most itself, as `qmp_wait_event_cb` does. -/
def Tame (removes : Callback F U → List (Callback F U)) (cb : Callback F U) : Prop :=
  removes cb = [] ∨ removes cb = [cb]

instance (removes : Callback F U → List (Callback F U)) (cb : Callback F U) :
    Decidable (Tame removes cb) :=
  inferInstanceAs (Decidable (_ ∨ _))

namespace Registry

omit [DecidableEq A] in
/-- A tame callback is called, and everything behind it stays. -/
theorem call_tame {removes : Callback F U → List (Callback F U)} {cb : Callback F U}
    {todo cbs : List (Callback F U)} (htame : Tame removes cb) (hn : cbs.Nodup)
    (hsub : (cb :: todo).Sublist cbs) :
    ∃ rest, rest = cbs.filter (fun c => c = cb → removes c = []) ∧ todo.Sublist rest ∧
      call removes (cb :: todo) cbs =
        (call removes todo rest >>= fun v => .ok (cb :: v.1, v.2)) := by
  have hcb : cb ∈ cbs := hsub.subset List.mem_cons_self
  have hcons := List.nodup_cons.mp (hn.sublist hsub)
  have htodo : todo.Sublist cbs := (List.sublist_cons_self cb todo).trans hsub
  have hnext : ∀ rest : List (Callback F U), (∀ c ∈ todo, c ∈ rest) →
      ¬ ∃ next ∈ todo.find? (· ∈ cbs), next ∉ rest := by
    rintro rest hrest ⟨next, hfound, hgone⟩
    exact hgone (hrest next (List.mem_of_find?_eq_some hfound))
  obtain hnone | hself := htame
  · refine ⟨cbs, ?_, htodo, ?_⟩
    · refine (List.filter_eq_self.mpr fun c _ => decide_eq_true fun hc => ?_).symm
      rw [hc, hnone]
    · rw [call, if_pos hcb, hnone]
      simp only [delAll, bind, Except.bind]
      rw [if_neg (hnext cbs htodo.subset)]
  · have hrest : ∀ c ∈ todo, c ∈ cbs.erase cb := fun c hc =>
      (List.mem_erase_of_ne (ne_of_mem_of_not_mem hc hcons.1)).mpr (htodo.subset hc)
    refine ⟨cbs.erase cb, ?_, ?_, ?_⟩
    · rw [hn.erase_eq_filter]
      refine List.filter_congr fun c _ => ?_
      by_cases hc : c = cb
      · simp [hc, hself]
      · simp [hc]
    · have herase := htodo.erase cb
      rwa [List.erase_of_not_mem hcons.1] at herase
    · rw [call, if_pos hcb, hself]
      simp only [delAll, del, if_pos hcb, bind, Except.bind]
      rw [if_neg (hnext _ hrest)]

omit [DecidableEq A] in
theorem call_all_tame {removes : Callback F U → List (Callback F U)} :
    ∀ {todo cbs : List (Callback F U)}, (∀ cb ∈ todo, Tame removes cb) → cbs.Nodup →
      todo.Sublist cbs → call removes todo cbs =
        .ok (todo, cbs.filter fun c => c ∈ todo → removes c = [])
  | [], cbs, _, _, _ => by simp [call]
  | cb :: todo, cbs, htame, hn, hsub => by
    obtain ⟨rest, hrest, htodo, hcall⟩ := call_tame (htame cb List.mem_cons_self) hn hsub
    have hrestNodup : rest.Nodup := hrest ▸ hn.filter _
    rw [hcall, call_all_tame (fun c hc => htame c (List.mem_cons_of_mem _ hc)) hrestNodup htodo,
      hrest, List.filter_filter]
    simp only [bind, Except.bind]
    congr 2
    refine List.filter_congr fun c _ => ?_
    by_cases hc : c = cb
    · subst hc
      by_cases hr : removes c = [] <;> simp [hr]
    · simp [hc]

omit [DecidableEq A] in
theorem call_next {removes : Callback F U → List (Callback F U)} {cb next : Callback F U}
    {older : List (Callback F U)} (hremoves : removes cb = [next]) :
    ∀ {newer cbs : List (Callback F U)}, (∀ c ∈ newer, Tame removes c) → cbs.Nodup →
      (newer ++ cb :: next :: older).Sublist cbs →
      call removes (newer ++ cb :: next :: older) cbs = .error .useAfterFree
  | [], cbs, _, hn, hsub => by
    have hcb : cb ∈ cbs := hsub.subset (by simp)
    have hnext : next ∈ cbs := hsub.subset (by simp)
    have hgone : next ∉ cbs.erase next := hn.not_mem_erase
    have hfound : (next :: older).find? (· ∈ cbs) = some next := by simp [hnext]
    rw [List.nil_append, call, if_pos hcb, hremoves, hfound]
    simp only [delAll, del, if_pos hnext, bind, Except.bind]
    exact if_pos ⟨next, rfl, hgone⟩
  | c :: newer, cbs, htame, hn, hsub => by
    obtain ⟨rest, hrest, htodo, hcall⟩ := call_tame (htame c List.mem_cons_self) hn hsub
    have hrestNodup : rest.Nodup := hrest ▸ hn.filter _
    have hrest' := call_next hremoves (fun d hd => htame d (List.mem_cons_of_mem _ hd)) hrestNodup
      htodo
    refine hcall.trans ?_
    rw [List.append_eq, hrest']
    rfl

end Registry

/-- Whatever was registered: as long as callbacks unregister at most themselves, a notification
calls every one of them once, newest first. One that unregisters the callback registered just before
it makes the notification read a freed entry. -/
theorem notify_tame (alloc : Allocator A (Callback F U)) {ops : List (Op F U)}
    {calls : List (List (Callback F U))} {cbs : List (Callback F U)}
    (hrun : Registry.run ops [] = .ok (calls, cbs))
    (removes : Callback F U → List (Callback F U)) :
    ∃ head, run alloc ops Heap.new = .ok (calls, head) ∧
      ((∀ cb ∈ cbs, Tame removes cb) → ∃ head', notify removes head = .ok (cbs, head') ∧
        Registers head' (cbs.filter fun cb => removes cb = [])) ∧
      ∀ newer cb next older, cbs = newer ++ cb :: next :: older →
        (∀ c ∈ newer, Tame removes c) → removes cb = [next] →
        notify removes head = .error .useAfterFree := by
  have hnew : Registers (Heap.new : Heap A (Callback F U)) [] := ⟨[], holds_new, rfl⟩
  have hagree := run_agree alloc ops hnew
  rw [hrun] at hagree
  obtain ⟨⟨_, head⟩, hhead, rfl, l, hl, hcbs⟩ := hagree.of_ok
  simp only at hl hcbs
  have hn : cbs.Nodup := hcbs ▸ hl.nodup
  have hnotify := notify_agree removes hl
  rw [hcbs] at hnotify
  refine ⟨head, hhead, fun htame => ?_, fun newer cb next older hsplit htame hremoves => ?_⟩
  · rw [Registry.notify, Registry.call_all_tame htame hn (List.Sublist.refl cbs)] at hnotify
    obtain ⟨⟨called, head'⟩, hhead', hcalled, hregisters⟩ := hnotify.of_ok
    obtain rfl : called = cbs := hcalled
    refine ⟨head', hhead', ?_⟩
    have hfilter : called.filter (fun c => c ∈ called → removes c = []) =
        called.filter fun c => removes c = [] :=
      List.filter_congr fun c hc => by simp [hc]
    rwa [hfilter] at hregisters
  · rw [Registry.notify, hsplit, Registry.call_next hremoves htame (hsplit ▸ hn)
      (List.Sublist.refl _)] at hnotify
    exact hnotify.of_error

end Holds

/-- Of two registered callbacks the newer one unregisters the older one. -/
theorem notify_tame_two :
    ∃ head, run (Allocator.lowest _) [Op.add 0 0, Op.add 1 0] Heap.new =
        .ok ([[], []], head) ∧
      notify (fun cb : Callback ℕ ℕ => if cb.func = 1 then [⟨0, 0⟩] else []) head =
        .error .useAfterFree := by
  have hregistered : Registry.run [Op.add 0 0, Op.add 1 0] [] =
      .ok ([[], []], [(⟨1, 0⟩ : Callback ℕ ℕ), ⟨0, 0⟩]) := rfl
  obtain ⟨head, hrun, -, hfault⟩ := notify_tame (Allocator.lowest (Callback ℕ ℕ)) hregistered
    fun cb => if cb.func = 1 then [⟨0, 0⟩] else []
  exact ⟨head, hrun, hfault [] ⟨1, 0⟩ ⟨0, 0⟩ [] rfl (by simp) rfl⟩

end CallbackList
end ColoDaemon
