import Mathlib.Data.List.Basic

/-!
# Runs of a labelled transition function

A system is a partial step function `step : S → L → Option S` on states `S` and labels `L`;
`run` executes a whole schedule of labels. An invariant is proved for one step and carried along
a run by `run_invariant`. `Along` says that every step of a run meets a condition on the state
before it and its label, `Sometime` that some step does, and `run_invariant_along` carries
invariants that need such a condition.
-/

namespace Runs
variable {S L : Type*} (step : S → L → Option S)

def run : S → List L → Option S
  | s, [] => some s
  | s, l :: ls => (step s l).bind fun t => run t ls

/-- Every step of the run meets `C` on the state before it and its label. -/
def Along (C : S → L → Prop) : S → List L → Prop
  | _, [] => True
  | s, l :: ls => C s l ∧ ∀ t, step s l = some t → Along C t ls

/-- Some step of the run meets `C`. -/
def Sometime (C : S → L → Prop) : S → List L → Prop
  | _, [] => False
  | s, l :: ls => C s l ∨ ∃ t, step s l = some t ∧ Sometime C t ls

instance decidableAlong (C : S → L → Prop) [∀ s l, Decidable (C s l)] :
    ∀ s ls, Decidable (Along step C s ls)
  | _, [] => isTrue trivial
  | s, l :: ls =>
    match h : step s l with
    | none => decidable_of_iff (C s l) (by simp [Along, h])
    | some t =>
      haveI := decidableAlong C t ls
      decidable_of_iff (C s l ∧ Along step C t ls) (by simp [Along, h])

/-- How many steps of the run meet `C`. -/
def count (C : S → L → Bool) : S → List L → ℕ
  | _, [] => 0
  | s, l :: ls => (C s l).toNat + (step s l).elim 0 fun t => count C t ls

def Reachable (init : S → Prop) (s : S) : Prop :=
  ∃ s₀ ls, init s₀ ∧ run step s₀ ls = some s

variable {step}

@[simp] theorem run_nil (s : S) : run step s [] = some s := rfl

theorem run_cons_eq_some {s s' : S} {l : L} {ls : List L} :
    run step s (l :: ls) = some s' ↔ ∃ t, step s l = some t ∧ run step t ls = some s' := by
  simp only [run, Option.bind_eq_some_iff]

theorem run_append_eq_some {s s' : S} {ls ls' : List L} :
    run step s (ls ++ ls') = some s' ↔
      ∃ t, run step s ls = some t ∧ run step t ls' = some s' := by
  induction ls generalizing s with
  | nil => simp
  | cons l ls ih =>
    simp only [List.cons_append, run_cons_eq_some, ih]
    constructor
    · rintro ⟨t, ht, u, hu, hs⟩
      exact ⟨u, ⟨t, ht, hu⟩, hs⟩
    · rintro ⟨u, ⟨t, ht, hu⟩, hs⟩
      exact ⟨t, ht, u, hu, hs⟩

theorem run_snoc_eq_some {s s' : S} {l : L} {ls : List L} :
    run step s (ls ++ [l]) = some s' ↔ ∃ t, run step s ls = some t ∧ step t l = some s' := by
  simp only [run_append_eq_some, run_cons_eq_some, run_nil, Option.some.injEq, exists_eq_right]

theorem run_invariant {P : S → Prop}
    (hstep : ∀ s l s', step s l = some s' → P s → P s') {s s' : S} {ls : List L}
    (hrun : run step s ls = some s') (hs : P s) : P s' := by
  induction ls generalizing s with
  | nil => cases hrun; exact hs
  | cons l ls ih =>
    obtain ⟨t, ht, hr⟩ := run_cons_eq_some.mp hrun
    exact ih hr (hstep s l t ht hs)

theorem run_invariant_along {C : S → L → Prop} {P : S → Prop}
    (hstep : ∀ s l s', step s l = some s' → C s l → P s → P s') {s s' : S} {ls : List L}
    (hrun : run step s ls = some s') (hC : Along step C s ls) (hs : P s) : P s' := by
  induction ls generalizing s with
  | nil => cases hrun; exact hs
  | cons l ls ih =>
    obtain ⟨t, ht, hr⟩ := run_cons_eq_some.mp hrun
    exact ih hr (hC.2 t ht) (hstep s l t ht hC.1 hs)

theorem Reachable.invariant {init P : S → Prop} (hinit : ∀ s, init s → P s)
    (hstep : ∀ s l s', step s l = some s' → P s → P s') {s : S}
    (h : Reachable step init s) : P s := by
  obtain ⟨s₀, ls, h₀, hrun⟩ := h
  exact run_invariant hstep hrun (hinit s₀ h₀)

theorem along_append {C : S → L → Prop} {s t : S} {ls ls' : List L}
    (hrun : run step s ls = some t) :
    Along step C s (ls ++ ls') ↔ Along step C s ls ∧ Along step C t ls' := by
  induction ls generalizing s with
  | nil => cases hrun; simp [Along]
  | cons l ls ih =>
    obtain ⟨u, hu, hr⟩ := run_cons_eq_some.mp hrun
    simp only [List.cons_append, Along, and_assoc]
    apply and_congr_right
    intro _
    constructor
    · intro h
      exact ⟨fun v hv => by
        rw [hu, Option.some.injEq] at hv
        exact hv ▸ ((ih hr).mp (h u hu)).1, ((ih hr).mp (h u hu)).2⟩
    · rintro ⟨h, h'⟩ v hv
      have huv : u = v := Option.some.inj (hu.symm.trans hv)
      exact huv ▸ (ih hr).mpr ⟨h u hu, h'⟩

/-- `Along` in terms of the prefixes of the schedule. -/
theorem along_iff {C : S → L → Prop} {s : S} {ls : List L} :
    Along step C s ls ↔
      ∀ n u l, run step s (ls.take n) = some u → ls[n]? = some l → C u l := by
  induction ls generalizing s with
  | nil => simp [Along]
  | cons a ls ih =>
    constructor
    · rintro ⟨ha, hrest⟩ n u l hrun hl
      cases n with
      | zero =>
        cases hrun
        cases hl
        exact ha
      | succ n =>
        obtain ⟨t, ht, hr⟩ := run_cons_eq_some.mp hrun
        exact ih.mp (hrest t ht) n u l hr hl
    · intro h
      refine ⟨h 0 s a rfl rfl, ?_⟩
      intro t ht
      apply ih.mpr
      intro n u l hr hl
      exact h (n + 1) u l (run_cons_eq_some.mpr ⟨t, ht, hr⟩) hl

/-- If a step keeps `P` exactly when it meets `C`, then `P` holds all along a run exactly when every
step meets `C`. -/
theorem along_iff_invariant {C : S → L → Prop} {P : S → Prop}
    (hstep : ∀ s l t, step s l = some t → P s → (P t ↔ C s l)) {s t : S} {ls : List L}
    (hrun : run step s ls = some t) (hs : P s) :
    (∀ n u, run step s (ls.take n) = some u → P u) ↔ Along step C s ls := by
  induction ls generalizing s with
  | nil =>
    refine ⟨fun _ => trivial, fun _ n u hu => ?_⟩
    cases n <;> cases hu <;> exact hs
  | cons l ls ih =>
    obtain ⟨v, hv, hrun⟩ := run_cons_eq_some.mp hrun
    constructor
    · intro h
      have hP : P v := h 1 v (run_cons_eq_some.mpr ⟨v, hv, rfl⟩)
      refine ⟨(hstep s l v hv hs).mp hP, ?_⟩
      intro w hw
      obtain rfl : v = w := Option.some.inj (hv.symm.trans hw)
      exact (ih hrun hP).mp fun n u hu => h (n + 1) u (run_cons_eq_some.mpr ⟨v, hv, hu⟩)
    · rintro ⟨hC, halong⟩ n u hu
      have hP : P v := (hstep s l v hv hs).mpr hC
      cases n with
      | zero =>
        cases hu
        exact hs
      | succ n =>
        obtain ⟨w, hw, hu⟩ := run_cons_eq_some.mp hu
        obtain rfl : v = w := Option.some.inj (hv.symm.trans hw)
        exact (ih hrun hP).mpr (halong v hv) n u hu

theorem count_cons {C : S → L → Bool} {s t : S} {l : L} {ls : List L} (h : step s l = some t) :
    count step C s (l :: ls) = (C s l).toNat + count step C t ls := by
  rw [count, h, Option.elim_some]

/-- Steps that meet `C` open something, and steps that meet `D` close it. -/
theorem count_balance {C D : S → L → Bool} {P : S → Prop} {pending : S → ℕ}
    (hstep : ∀ s l t, step s l = some t → P s → P t →
      pending s + (C s l).toNat = pending t + (D s l).toNat) {s t : S} {ls : List L}
    (hrun : run step s ls = some t) (halong : Along step (fun u _ => P u) s ls) (ht : P t) :
    pending s + count step C s ls = pending t + count step D s ls := by
  induction ls generalizing s with
  | nil => cases hrun; rfl
  | cons l ls ih =>
    obtain ⟨u, hu, hrun⟩ := run_cons_eq_some.mp hrun
    have hP : P u := by
      cases ls with
      | nil => cases hrun; exact ht
      | cons l' ls => exact (halong.2 u hu).1
    have hone := hstep s l u hu halong.1 hP
    have hrest := ih hrun (halong.2 u hu)
    rw [count_cons hu, count_cons hu]
    omega

theorem not_sometime {C : S → L → Prop} {s : S} {ls : List L} :
    ¬ Sometime step C s ls ↔ Along step (fun u l => ¬ C u l) s ls := by
  induction ls generalizing s with
  | nil => simp [Sometime, Along]
  | cons l ls ih => simp only [Sometime, Along, not_or, not_exists, not_and, ih]

/-- A schedule that leads to `P` can be preceded by a step. -/
theorem exists_run_cons {C : S → L → Prop} {P : S → Prop} {s u : S} {l : L}
    (hstep : step s l = some u) (hC : C s l)
    (h : ∃ ls t, run step u ls = some t ∧ P t ∧ Along step C u ls) :
    ∃ ls t, run step s ls = some t ∧ P t ∧ Along step C s ls := by
  obtain ⟨ls, t, hrun, hP, halong⟩ := h
  refine ⟨l :: ls, t, run_cons_eq_some.mpr ⟨u, hstep, hrun⟩, hP, hC, ?_⟩
  intro v hv
  rw [hstep, Option.some.injEq] at hv
  exact hv ▸ halong

/-- Every prefix of a run is a run, and the next label leads on. -/
theorem run_take_succ {s s' u : S} {ls : List L} {l : L} {n : ℕ} (hrun : run step s ls = some s')
    (hu : run step s (ls.take n) = some u) (hl : ls[n]? = some l) :
    ∃ v, step u l = some v ∧ run step s (ls.take (n + 1)) = some v := by
  rw [← List.take_append_drop (n + 1) ls] at hrun
  obtain ⟨v, hv, -⟩ := run_append_eq_some.mp hrun
  have htake : ls.take (n + 1) = ls.take n ++ [l] := by
    rw [List.take_add_one, hl, Option.toList_some]
  have hsnoc := hv
  rw [htake] at hsnoc
  obtain ⟨w, hw, hstep⟩ := run_snoc_eq_some.mp hsnoc
  have huw : u = w := Option.some.inj (hu.symm.trans hw)
  exact ⟨v, huw ▸ hstep, hv⟩

end Runs
