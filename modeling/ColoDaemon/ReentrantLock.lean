import Mathlib.Data.List.Basic
import Mathlib.Logic.Function.Basic
import Mathlib.Logic.Function.Iterate

/-!
# Re-entrant locks and what they guard

A lock that its holder may acquire again, together with a ledger: `depth t` counts the acquisitions
that `t` has not released, and `owes t` lists what `t` is in charge of. `Guarded` says that the
ledger agrees with the lock, so that the guarded items are in the charge of the holder alone.
-/

structure ReentrantLock (T : Type*) where
  holder : Option T
  count : ℕ

namespace ReentrantLock
variable {T α : Type*}

/-- The lock of which `t` is the holder once. -/
def heldBy (t : T) : ReentrantLock T := ⟨some t, 1⟩

/-- A thread that holds the lock may take it again. -/
def Available (l : ReentrantLock T) (t : T) : Prop := l.holder = none ∨ l.holder = some t

instance [DecidableEq T] (l : ReentrantLock T) (t : T) : Decidable (l.Available t) :=
  inferInstanceAs (Decidable (_ ∨ _))

def acquire (l : ReentrantLock T) (t : T) : ReentrantLock T := ⟨some t, l.count + 1⟩

def release (l : ReentrantLock T) : ReentrantLock T :=
  if l.count - 1 = 0 then ⟨none, 0⟩ else { l with count := l.count - 1 }

variable [DecidableEq T]

structure Guarded (l : ReentrantLock T) (depth : T → ℕ) (owes : T → List α)
    (items : List α) : Prop where
  depth_eq : ∀ t, depth t = if l.holder = some t then l.count else 0
  held : l.holder = none ↔ l.count = 0
  owes_eq : ∀ t, owes t = if l.holder = some t then items else []
  unheld : l.holder = none → items = []

namespace Guarded
variable {l : ReentrantLock T} {depth : T → ℕ} {owes : T → List α} {items items' : List α} {t u : T}

theorem heldBy (t : T) (items : List α) : Guarded (heldBy t) (Function.update (fun _ => 0) t 1)
    (Function.update (fun _ => []) t items) items := by
  have hsome : ∀ u, (ReentrantLock.heldBy t).holder = some u ↔ u = t := by
    intro u
    simp only [ReentrantLock.heldBy, Option.some.injEq, eq_comm]
  constructor
  · intro u
    simp only [Function.update_apply, hsome]
    rfl
  · simp [ReentrantLock.heldBy]
  · intro u
    simp only [Function.update_apply, hsome]
  · simp [ReentrantLock.heldBy]

theorem holder_of_depth (h : Guarded l depth owes items) (ht : 0 < depth t) :
    l.holder = some t := by
  by_contra hne
  have := h.depth_eq t
  rw [if_neg hne] at this
  omega

theorem eq_of_depth (h : Guarded l depth owes items) (ht : 0 < depth t) (hu : 0 < depth u) :
    t = u := by
  have := (h.holder_of_depth ht).symm.trans (h.holder_of_depth hu)
  exact Option.some_inj.mp this

theorem owes_of_depth (h : Guarded l depth owes items) (ht : 0 < depth t) : owes t = items := by
  rw [h.owes_eq t, if_pos (h.holder_of_depth ht)]

theorem holder_of_owes (h : Guarded l depth owes items) (ht : owes t ≠ []) :
    l.holder = some t := by
  by_contra hne
  apply ht
  rw [h.owes_eq t, if_neg hne]

theorem acquire (h : Guarded l depth owes items) (ht : l.Available t) :
    Guarded (l.acquire t) (Function.update depth t (depth t + 1)) owes items := by
  have hcount : depth t = l.count := by
    rw [h.depth_eq t]
    rcases ht with hnone | hsome
    · rw [if_neg (by simp [hnone]), h.held.mp hnone]
    · rw [if_pos hsome]
  have hother : ∀ u ≠ t, l.holder ≠ some u := by
    intro u hu
    rcases ht with hnone | hsome
    · simp [hnone]
    · rw [hsome]
      simpa using hu.symm
  have hsome : ∀ u, (l.acquire t).holder = some u ↔ u = t := by
    intro u
    simp only [ReentrantLock.acquire, Option.some.injEq, eq_comm]
  constructor
  · intro u
    by_cases hu : u = t
    · subst hu
      rw [Function.update_self, if_pos ((hsome u).mpr rfl), hcount]
      rfl
    · rw [Function.update_of_ne hu, h.depth_eq u, if_neg (hother u hu),
        if_neg (fun hs => hu ((hsome u).mp hs))]
  · simp [ReentrantLock.acquire]
  · intro u
    rw [h.owes_eq u]
    by_cases hu : u = t
    · subst hu
      rw [if_pos ((hsome u).mpr rfl)]
      rcases ht with hnone | hheld
      · rw [h.unheld hnone, ite_self]
      · rw [if_pos hheld]
    · rw [if_neg (hother u hu), if_neg (fun hs => hu ((hsome u).mp hs))]
  · simp [ReentrantLock.acquire]

/-- The last release needs that nothing is left in the holder's charge. -/
theorem release (h : Guarded l depth owes []) (ht : 0 < depth t) :
    Guarded l.release (Function.update depth t (depth t - 1)) owes [] := by
  have hholder := h.holder_of_depth ht
  have hcount : depth t = l.count := by rw [h.depth_eq t, if_pos hholder]
  have howes : ∀ u, owes u = [] := by
    intro u
    rw [h.owes_eq u, ite_self]
  have hother : ∀ u ≠ t, depth u = 0 := by
    intro u hu
    rw [h.depth_eq u, if_neg]
    rw [hholder]
    simpa using hu.symm
  unfold ReentrantLock.release
  by_cases hlast : l.count - 1 = 0
  · rw [if_pos hlast]
    refine ⟨fun u => ?_, by simp, fun u => by rw [howes u, ite_self], fun _ => rfl⟩
    rw [if_neg (by simp)]
    by_cases hu : u = t
    · rw [hu, Function.update_self]
      omega
    · rw [Function.update_of_ne hu, hother u hu]
  · rw [if_neg hlast]
    refine ⟨fun u => ?_, by simp [hholder, hlast], fun u => by rw [howes u, ite_self], fun _ => rfl⟩
    by_cases hu : u = t
    · subst hu
      rw [Function.update_self, if_pos hholder, hcount]
    · rw [Function.update_of_ne hu, hother u hu, if_neg]
      rw [hholder]
      simpa using Ne.symm hu

theorem release_iterate (h : Guarded l depth owes []) {k : ℕ} (hk : k ≤ depth t) :
    Guarded (ReentrantLock.release^[k] l) (Function.update depth t (depth t - k)) owes [] := by
  induction k with
  | zero => rwa [Function.iterate_zero, Nat.sub_zero, Function.update_eq_self]
  | succ k ih =>
    have hnext := (ih (by omega)).release (t := t) (by rw [Function.update_self]; omega)
    rw [Function.update_self, Function.update_idem, Nat.sub_sub] at hnext
    rwa [Function.iterate_succ_apply']

/-- The holder may change what is guarded. -/
theorem change (h : Guarded l depth owes items) (ht : 0 < depth t) (items' : List α) :
    Guarded l depth (Function.update owes t items') items' := by
  have hholder := h.holder_of_depth ht
  refine ⟨h.depth_eq, h.held, fun u => ?_, fun hnone => ?_⟩
  · by_cases hu : u = t
    · subst hu
      rw [Function.update_self, if_pos hholder]
    · have hne : l.holder ≠ some u := by
        rw [hholder]
        simpa using Ne.symm hu
      rw [Function.update_of_ne hu, h.owes_eq u, if_neg hne, if_neg hne]
  · rw [hholder] at hnone
    exact absurd hnone (by simp)

end Guarded
end ReentrantLock
