import Mathlib.Logic.Basic

/-!
# Scripts of external calls

A `Script` ends with a value or with an exception, or makes an external call and goes on with its
answer. A call that fails answers `none`, which a script may handle or pass on as an exception.
`Calls P` says that every call a script can make satisfies `P`. A `World` says how calls are answered
in a state and which of them may be made there, and `Ensures` is what a script guarantees in it.
-/

inductive Script (C : Type) (R : C → Type) (α : Type)
  | done (a : α)
  | raised
  | call (c : C) (next : Option (R c) → Script C R α)

namespace Script
variable {C : Type} {R : C → Type} {α β : Type} {P : C → Prop}

def bind : Script C R α → (α → Script C R β) → Script C R β
  | done a, f => f a
  | raised, _ => raised
  | call c next, f => call c fun answer => bind (next answer) f

instance : Monad (Script C R) where
  pure := done
  bind := bind

/-- Makes a call and passes its exception on. -/
def perform (c : C) : Script C R (R c) :=
  call c fun
    | some answer => done answer
    | none => raised

/-- Runs a script and swallows its exception. -/
def attempt : Script C R α → Script C R (Option α)
  | done a => done (some a)
  | raised => done none
  | call c next => call c fun answer => attempt (next answer)

def Calls (P : C → Prop) : Script C R α → Prop
  | done _ => True
  | raised => True
  | call c next => P c ∧ ∀ answer, Calls P (next answer)

theorem calls_pure (a : α) : (pure a : Script C R α).Calls P := trivial

theorem calls_raised : (raised : Script C R α).Calls P := trivial

theorem calls_bind {p : Script C R α} {f : α → Script C R β} (h : p.Calls P)
    (hf : ∀ a, (f a).Calls P) : (p >>= f).Calls P := by
  induction p with
  | done a => exact hf a
  | raised => trivial
  | call c next ih => exact ⟨h.1, fun answer => ih answer (h.2 answer)⟩

theorem calls_perform {c : C} (h : P c) : (perform c : Script C R (R c)).Calls P := by
  refine ⟨h, fun answer => ?_⟩
  cases answer with
  | none => trivial
  | some answer => trivial

theorem calls_attempt {p : Script C R α} (h : p.Calls P) : p.attempt.Calls P := by
  induction p with
  | done a => trivial
  | raised => trivial
  | call c next ih => exact ⟨h.1, fun answer => ih answer (h.2 answer)⟩

theorem calls_ite {b : Prop} [Decidable b] {p q : Script C R α} (hp : p.Calls P)
    (hq : q.Calls P) : (if b then p else q).Calls P := by
  by_cases h : b
  · rwa [if_pos h]
  · rwa [if_neg h]

/-- A script that can make other calls as well. -/
def lift {D : Type} {S : D → Type} : Script C R α → Script (C ⊕ D) (Sum.elim R S) α
  | done a => done a
  | raised => raised
  | call c next => call (.inl c) fun answer => lift (next answer)

/-! ### Contracts -/

/-- `allows` are the calls that may be made in a state, `answers` how a call can end: with which
answer, and in which state. -/
structure World (C : Type) (R : C → Type) (H : Type) where
  allows : C → H → Prop
  answers : (c : C) → H → Option (R c) → H → Prop

section Contracts
variable {H : Type} {w : World C R H} {post post' : Option α → H → Prop} {h : H}

/-- Every call is allowed where it is made, and the end satisfies `post`. -/
def Ensures (w : World C R H) (post : Option α → H → Prop) : Script C R α → H → Prop
  | done a, h => post (some a) h
  | raised, h => post none h
  | call c next, h => w.allows c h ∧
      ∀ answer h', w.answers c h answer h' → Ensures w post (next answer) h'

/-- The postcondition of the first of two scripts. -/
def Then (w : World C R H) (post : Option β → H → Prop) (f : α → Script C R β) :
    Option α → H → Prop
  | some a, h => (f a).Ensures w post h
  | none, h => post none h

theorem ensures_mono {p : Script C R α} (hp : p.Ensures w post h)
    (hpost : ∀ r h, post r h → post' r h) : p.Ensures w post' h := by
  induction p generalizing h with
  | done a => exact hpost _ _ hp
  | raised => exact hpost _ _ hp
  | call c next ih => exact ⟨hp.1, fun answer h' ha => ih answer (hp.2 answer h' ha)⟩

theorem ensures_bind {post : Option β → H → Prop} {p : Script C R α} {f : α → Script C R β}
    (hp : p.Ensures w (Then w post f) h) : (p >>= f).Ensures w post h := by
  induction p generalizing h with
  | done a => exact hp
  | raised => exact hp
  | call c next ih => exact ⟨hp.1, fun answer h' ha => ih answer (hp.2 answer h' ha)⟩

theorem ensures_perform {c : C} {post : Option (R c) → H → Prop} (hc : w.allows c h)
    (hpost : ∀ answer h', w.answers c h answer h' → post answer h') :
    (perform c).Ensures w post h := by
  refine ⟨hc, fun answer h' ha => ?_⟩
  cases answer with
  | none => exact hpost none h' ha
  | some answer => exact hpost (some answer) h' ha

theorem ensures_attempt {p : Script C R α} {post : Option (Option α) → H → Prop}
    (hp : p.Ensures w (fun r h => post (some r) h) h) : p.attempt.Ensures w post h := by
  induction p generalizing h with
  | done a => exact hp
  | raised => exact hp
  | call c next ih => exact ⟨hp.1, fun answer h' ha => ih answer (hp.2 answer h' ha)⟩

theorem ensures_ite {b : Prop} [Decidable b] {p q : Script C R α}
    (hp : b → p.Ensures w post h) (hq : ¬ b → q.Ensures w post h) :
    (if b then p else q).Ensures w post h := by
  by_cases hb : b
  · rw [if_pos hb]
    exact hp hb
  · rw [if_neg hb]
    exact hq hb

/-- The postcondition for an end without an exception. -/
def Ends (q : α → H → Prop) (r : Option α) (h : H) : Prop :=
  ∀ a, r = some a → q a h

theorem ends_some {q : α → H → Prop} {a : α} (hq : q a h) : Ends q (some a) h := by
  rintro _ ⟨⟩
  exact hq

theorem ends_none {q : α → H → Prop} : Ends q none h := by
  rintro _ ⟨⟩

theorem ensures_pure {q : α → H → Prop} {a : α} (hq : q a h) :
    (pure a : Script C R α).Ensures w (Ends q) h :=
  ends_some hq

theorem ensures_raised {q : α → H → Prop} : (raised : Script C R α).Ensures w (Ends q) h :=
  ends_none

theorem ensures_imp {q q' : α → H → Prop} {p : Script C R α} (hp : p.Ensures w (Ends q) h)
    (hq : ∀ a h, q a h → q' a h) : p.Ensures w (Ends q') h :=
  ensures_mono hp fun _ _ hr a ha => hq a _ (hr a ha)

/-- One script after the other. -/
theorem ensures_seq {q : β → H → Prop} {p : Script C R α} {f : α → Script C R β}
    (hp : p.Ensures w (Ends fun a h => (f a).Ensures w (Ends q) h) h) :
    (p >>= f).Ensures w (Ends q) h := by
  refine ensures_bind (ensures_mono hp fun r h hr => ?_)
  cases r with
  | none => exact ends_none
  | some a => exact hr a rfl

/-- What no call of the script breaks. -/
theorem ensures_calls {inv : H → Prop} {p : Script C R α} (hp : p.Calls P)
    (hallows : ∀ c h, P c → inv h → w.allows c h)
    (hanswers : ∀ c h answer h', P c → inv h → w.answers c h answer h' → inv h') (hinv : inv h) :
    p.Ensures w (Ends fun _ => inv) h := by
  induction p generalizing h with
  | done a => exact ends_some hinv
  | raised => exact ends_none
  | call c next ih =>
    exact ⟨hallows c h hp.1 hinv, fun answer h' ha =>
      ih answer (hp.2 answer) (hanswers c h answer h' hp.1 hinv ha)⟩

/-- The part of a world that a lifted script sees. -/
def World.left {D : Type} {S : D → Type} (w : World (C ⊕ D) (Sum.elim R S) H) : World C R H where
  allows c := w.allows (.inl c)
  answers c := w.answers (.inl c)

theorem ensures_lift {D : Type} {S : D → Type} {w : World (C ⊕ D) (Sum.elim R S) H}
    {p : Script C R α} (hp : p.Ensures w.left post h) : (p.lift (S := S)).Ensures w post h := by
  induction p generalizing h with
  | done a => exact hp
  | raised => exact hp
  | call c next ih => exact ⟨hp.1, fun answer h' ha => ih answer (hp.2 answer h' ha)⟩

end Contracts

end Script
