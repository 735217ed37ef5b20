import Mathlib.Logic.Function.Basic
import Mathlib.Data.List.Basic

/-!
# Coroutines on a stack of frames

The macros of `coroutine.h` and `coroutine_stack.h`. A coroutine function is a `switch` over the
line that its frame remembers. To resume a coroutine its bottom function is called again; every
function on the way jumps to the `co_recurse` at which it waits and calls its callee again, until
the function that was suspended is reached.

`resume` is what this is meant to do: the suspended functions are a stack, the top one goes on, and
a function that returns hands its value to the one below. `coEnter` does the same, fault for fault.
-/

namespace ColoDaemon

/-- What a function does from one label to the next macro. -/
inductive Segment (V Y : Type)
  | ret (v : V)
  | yield (value : Y) (line : ℕ)
  | recurse (line : ℕ)
  | abort
  deriving DecidableEq, Repr

/-- The `case` labels of the `switch`: those of `co_begin` and `co_yield`, and those in the loop of
a `co_recurse`. -/
inductive CaseLabel (F : Type)
  | plain
  | recurse (callee : F)
  deriving DecidableEq, Repr

/-- The macros in a segment belong to labels of the function. -/
def Segment.Labelled {F V Y : Type} (label : ℕ → Option (CaseLabel F)) : Segment V Y → Prop
  | ret _ => True
  | yield _ line => label line = some .plain
  | recurse line => ∃ callee, label line = some (.recurse callee)
  | abort => True

/-- The coroutine functions of a program. `S` is the state of everything but the frames' lines.
`prologue` is the code before the `switch`, which runs at every entry; `body` goes on from a plain
label, `after` from the end of a `co_recurse` with the value of its expression. Both are given the
index of the frame. -/
structure CoFunctions (F S V Y : Type) where
  label : F → ℕ → Option (CaseLabel F)
  yieldRet : F → V
  prologue : F → S → S
  body : F → ℕ → ℕ → S → Segment V Y × S
  after : F → ℕ → ℕ → V → S → Segment V Y × S
  label_zero : ∀ f, label f 0 = some .plain
  body_labelled : ∀ f depth line s, (body f depth line s).1.Labelled (label f)
  after_labelled : ∀ f depth line v s, (after f depth line v s).1.Labelled (label f)

/-- `frame` is the index of the current frame; `NULL` before the first entry is 0 as well. -/
structure Coroutine (Y : Type) where
  quit : Bool
  yield : Bool
  yieldValue : Option Y
  frame : ℕ
  line : ℕ → ℕ

/-- `badLine` is the `default` of the `switch`, `aborted` an assertion of the function itself, the
others are assertions of the macros. -/
inductive CoFault
  | badLine
  | stackOverflow
  | assertFailed
  | aborted
  deriving DecidableEq, Repr

/-- `COROUTINE_STACK_SIZE`. -/
def coroutineStackSize : ℕ := 16

namespace Coroutine
variable {Y : Type}

/-- A coroutine that was allocated with `g_new0`. -/
def new : Coroutine Y where
  quit := false
  yield := false
  yieldValue := none
  frame := 0
  line := fun _ => 0

/-- `_co_yield` up to its `return`. -/
def setLine (c : Coroutine Y) (line : ℕ) : Coroutine Y :=
  { c with line := Function.update c.line c.frame line }

/-- `co_yield` up to its `return`. -/
def coYield (c : Coroutine Y) (value : Y) (line : ℕ) : Coroutine Y :=
  { c with yield := true, yieldValue := some value }.setLine line

/-- `coroutine->frame[1].line = 0`. -/
def clearAbove (c : Coroutine Y) : Coroutine Y :=
  { c with line := Function.update c.line (c.frame + 1) 0 }

end Coroutine

/-- Where the execution of a function is. -/
inductive CoControl (V Y : Type)
  | enter
  | segment (segment : Segment V Y)
  | recurse (line : ℕ)
  deriving DecidableEq, Repr

/-- How a resumption ends: with the value of the bottom function, or with the suspended functions
from the bottom up. -/
inductive Pause (F V Y : Type)
  | returned (v : V)
  | suspended (frames : List (F × ℕ)) (value : Y)
  deriving DecidableEq, Repr

namespace CoFunctions
variable {F S V Y : Type} (P : CoFunctions F S V Y)

/-- One call of a coroutine function. Running out of fuel is `none`. -/
def exec : ℕ → F → CoControl V Y → Coroutine Y → S →
    Option (Except CoFault (V × Coroutine Y × S))
  | 0, _, _, _, _ => none
  | n + 1, f, .enter, c, s =>
    match P.label f (c.line c.frame) with
    | none => some (.error .badLine)
    | some .plain =>
      let next := P.body f c.frame (c.line c.frame) (P.prologue f s)
      exec n f (.segment next.1) c next.2
    | some (.recurse _) => exec n f (.recurse (c.line c.frame)) c (P.prologue f s)
  | _ + 1, _, .segment (.ret v), c, s => some (.ok (v, c, s))
  | _ + 1, f, .segment (.yield value line), c, s =>
    some (.ok (P.yieldRet f, c.coYield value line, s))
  | n + 1, f, .segment (.recurse line), c, s => exec n f (.recurse line) c s
  | _ + 1, _, .segment .abort, _, _ => some (.error .aborted)
  | n + 1, f, .recurse line, c, s =>
    match P.label f line with
    | some (.recurse callee) =>
      if c.frame + 1 < coroutineStackSize then
        match exec n callee .enter { c with frame := c.frame + 1 } s with
        | none => none
        | some (.error fault) => some (.error fault)
        | some (.ok (v, c, s)) =>
          let c := { c with frame := c.frame - 1 }
          if c.yield then some (.ok (P.yieldRet f, c.setLine line, s))
          else
            let next := P.after f c.frame line v s
            exec n f (.segment next.1) c.clearAbove next.2
      else some (.error .stackOverflow)
    | _ => some (.error .badLine)

/-- `co_enter`. The value counts only if the coroutine has not yielded. -/
def coEnter (n : ℕ) (f : F) (c : Coroutine Y) (s : S) :
    Option (Except CoFault (V × Coroutine Y × S)) :=
  if c.quit ∨ c.frame ≠ 0 then some (.error .assertFailed)
  else
    match P.exec n f .enter { c with yield := false } s with
    | none => none
    | some (.error fault) => some (.error fault)
    | some (.ok (v, c, s)) =>
      if c.frame ≠ 0 then some (.error .assertFailed)
      else if c.yield then some (.ok (v, c, s))
      else some (.ok (v, { c.setLine 0 with quit := true }, s))

/-! ### The stack of suspended functions -/

/-- Function `f` goes on with a segment; `below` are the functions that wait for it, the nearest
one first. -/
def drive : ℕ → F → List (F × ℕ) → Segment V Y → S → Option (Except CoFault (Pause F V Y × S))
  | 0, _, _, _, _ => none
  | _ + 1, _, [], .ret v, s => some (.ok (.returned v, s))
  | n + 1, _, (caller, line) :: below, .ret v, s =>
    let next := P.after caller below.length line v s
    drive n caller below next.1 next.2
  | _ + 1, f, below, .yield value line, s =>
    some (.ok (.suspended (below.reverse ++ [(f, line)]) value, s))
  | n + 1, f, below, .recurse line, s =>
    match P.label f line with
    | some (.recurse callee) =>
      if below.length + 1 < coroutineStackSize then
        let next := P.body callee (below.length + 1) 0 (P.prologue callee s)
        drive n callee ((f, line) :: below) next.1 next.2
      else some (.error .stackOverflow)
    | _ => some (.error .badLine)
  | _ + 1, _, _, .abort, _ => some (.error .aborted)

/-- Resumes suspended functions, given from the bottom up, on top of those in `below`. -/
def resume (n : ℕ) : List (F × ℕ) → List (F × ℕ) → S →
    Option (Except CoFault (Pause F V Y × S))
  | _, [], _ => none
  | below, [(f, line)], s =>
    let next := P.body f below.length line (P.prologue f s)
    P.drive n f below next.1 next.2
  | below, (f, line) :: frame :: frames, s =>
    resume n ((f, line) :: below) (frame :: frames) (P.prologue f s)

/-- The functions of a suspended coroutine, from `f` up: each but the last one waits for the
next. -/
def Chain : F → List (F × ℕ) → Prop
  | _, [] => False
  | f, [(g, line)] => g = f ∧ P.label f line = some .plain
  | f, (g, line) :: frame :: frames =>
    g = f ∧ ∃ callee, P.label f line = some (.recurse callee) ∧ Chain callee (frame :: frames)

end CoFunctions

/-- From the frame `depth` up the coroutine remembers the lines of `frames`. -/
def Coroutine.Remembers {F Y : Type} (c : Coroutine Y) : ℕ → List (F × ℕ) → Prop
  | depth, [] => ∀ i, depth ≤ i → c.line i = 0
  | depth, frame :: frames => c.line depth = frame.2 ∧ c.Remembers (depth + 1) frames

namespace CoFunctions
variable {F S V Y : Type} {P : CoFunctions F S V Y} {f : F} {c : Coroutine Y} {s : S} {n m : ℕ}
  {below frames : List (F × ℕ)}

/-! ### Fuel -/

theorem exec_succ {control : CoControl V Y} {r : Except CoFault (V × Coroutine Y × S)}
    (h : P.exec n f control c s = some r) : P.exec (n + 1) f control c s = some r := by
  induction n generalizing f control c s r with
  | zero => simp [exec] at h
  | succ n ih =>
    match control with
    | .enter =>
      rw [exec] at h ⊢
      cases hlabel : P.label f (c.line c.frame) with
      | none => rwa [hlabel] at h
      | some label =>
        rw [hlabel] at h
        cases label with
        | plain => exact ih h
        | recurse callee => exact ih h
    | .segment (.ret v) => exact h
    | .segment (.yield value line) => exact h
    | .segment (.recurse line) => exact ih h
    | .segment .abort => exact h
    | .recurse line =>
      rw [exec] at h ⊢
      cases hlabel : P.label f line with
      | none => rwa [hlabel] at h
      | some label =>
        rw [hlabel] at h
        cases label with
        | plain => exact h
        | recurse callee =>
          dsimp only at h ⊢
          by_cases hframe : c.frame + 1 < coroutineStackSize
          · rw [if_pos hframe] at h ⊢
            cases hcallee : P.exec n callee .enter { c with frame := c.frame + 1 } s with
            | none => simp [hcallee] at h
            | some result =>
              rw [ih hcallee]
              rw [hcallee] at h
              match result with
              | .error fault => exact h
              | .ok (v, c, s) =>
                dsimp only at h ⊢
                cases hyield : c.yield with
                | false =>
                  simp only [hyield, Bool.false_eq_true, if_false] at h ⊢
                  exact ih h
                | true => simpa only [hyield, if_true] using h
          · rwa [if_neg hframe] at h ⊢

theorem exec_le {control : CoControl V Y} {r : Except CoFault (V × Coroutine Y × S)}
    (h : P.exec n f control c s = some r) (hle : n ≤ m) : P.exec m f control c s = some r := by
  induction hle with
  | refl => exact h
  | step _ ih => exact exec_succ ih

theorem drive_succ {segment : Segment V Y} {r : Except CoFault (Pause F V Y × S)}
    (h : P.drive n f below segment s = some r) : P.drive (n + 1) f below segment s = some r := by
  induction n generalizing f below segment s with
  | zero => simp [drive] at h
  | succ n ih =>
    match segment, below with
    | .ret v, [] => exact h
    | .ret v, (caller, line) :: below => exact ih h
    | .yield value line, below => simpa only [drive] using h
    | .abort, below => simpa only [drive] using h
    | .recurse line, below =>
      rw [drive] at h ⊢
      cases hlabel : P.label f line with
      | none => rwa [hlabel] at h
      | some label =>
        rw [hlabel] at h
        cases label with
        | plain => exact h
        | recurse callee =>
          dsimp only at h ⊢
          by_cases hdepth : below.length + 1 < coroutineStackSize
          · rw [if_pos hdepth] at h ⊢
            exact ih h
          · rwa [if_neg hdepth] at h ⊢

theorem drive_add {segment : Segment V Y} {r : Except CoFault (Pause F V Y × S)}
    (h : P.drive n f below segment s = some r) (k : ℕ) :
    P.drive (n + k) f below segment s = some r := by
  induction k with
  | zero => exact h
  | succ k ih => exact drive_succ ih

theorem resume_add {r : Except CoFault (Pause F V Y × S)}
    (h : P.resume n below frames s = some r) (k : ℕ) :
    P.resume (n + k) below frames s = some r := by
  induction frames generalizing below s with
  | nil => simp [resume] at h
  | cons frame frames ih =>
    cases frames with
    | nil => exact drive_add h k
    | cons next frames => exact ih h

/-! ### What a call does to the stack -/

/-- The stack goes on as a call of `f` does. -/
def proceed (P : CoFunctions F S V Y) (f : F) (below frames : List (F × ℕ)) :
    CoControl V Y → S → ℕ → Option (Except CoFault (Pause F V Y × S))
  | .enter, s, n => P.resume n below frames s
  | .segment segment, s, n => P.drive n f below segment s
  | .recurse line, s, n => P.resume n ((f, line) :: below) frames s

/-- `frames` are the functions that wait inside the call of `f`. -/
def Ready (P : CoFunctions F S V Y) (f : F) (below frames : List (F × ℕ)) (c : Coroutine Y) :
    CoControl V Y → Prop
  | .enter => c.Remembers below.length frames ∧ P.Chain f frames ∧
      below.length + frames.length ≤ coroutineStackSize
  | .segment segment => segment.Labelled (P.label f) ∧
      c.Remembers (below.length + 1) ([] : List (F × ℕ)) ∧ below.length < coroutineStackSize
  | .recurse line => ∃ callee, P.label f line = some (.recurse callee) ∧
      c.Remembers (below.length + 1) frames ∧ P.Chain callee frames ∧
      below.length + 1 + frames.length ≤ coroutineStackSize

/-- How a call of `f` ends, next to what the stack does in the meantime. -/
inductive Ended (P : CoFunctions F S V Y) (f : F) (below : List (F × ℕ)) (c : Coroutine Y)
    (stack : ℕ → Option (Except CoFault (Pause F V Y × S))) :
    Except CoFault (V × Coroutine Y × S) → Prop
  | fault {fault : CoFault} (k : ℕ) (h : ∀ n, stack (n + k) = some (.error fault)) :
      Ended P f below c stack (.error fault)
  | returned {v : V} {c' : Coroutine Y} {s' : S} (hframe : c'.frame = c.frame)
      (hquit : c'.quit = c.quit) (hyield : c'.yield = false)
      (hclear : c'.Remembers (below.length + 1) ([] : List (F × ℕ)))
      (k : ℕ) (h : ∀ n, stack (n + k) = P.drive n f below (.ret v) s') :
      Ended P f below c stack (.ok (v, c', s'))
  | suspended {v : V} {c' : Coroutine Y} {s' : S} {frames : List (F × ℕ)} {value : Y}
      (hframe : c'.frame = c.frame) (hquit : c'.quit = c.quit) (hyield : c'.yield = true)
      (hvalue : c'.yieldValue = some value) (hlines : c'.Remembers below.length frames)
      (hchain : P.Chain f frames) (hlength : below.length + frames.length ≤ coroutineStackSize)
      (k : ℕ)
      (h : ∀ n, stack (n + k) = some (.ok (.suspended (below.reverse ++ frames) value, s'))) :
      Ended P f below c stack (.ok (v, c', s'))

theorem Ended.mono {stack stack' : ℕ → Option (Except CoFault (Pause F V Y × S))}
    {r : Except CoFault (V × Coroutine Y × S)} {j : ℕ} (h : P.Ended f below c stack r)
    (hstack : ∀ n, stack' (n + j) = stack n) : P.Ended f below c stack' r := by
  cases h with
  | fault k h => exact .fault (k + j) fun n => by rw [← Nat.add_assoc, hstack, h]
  | returned hframe hquit hyield hclear k h =>
    exact .returned hframe hquit hyield hclear (k + j) fun n => by rw [← Nat.add_assoc, hstack, h]
  | suspended hframe hquit hyield hvalue hlines hchain hlength k h =>
    exact .suspended hframe hquit hyield hvalue hlines hchain hlength (k + j) fun n => by
      rw [← Nat.add_assoc, hstack, h]

end CoFunctions

namespace Coroutine
variable {F Y : Type} {c c' : Coroutine Y} {frames : List (F × ℕ)} {depth : ℕ}

/-- Only the lines from `depth` up count. -/
theorem Remembers.congr (h : c.Remembers depth frames)
    (hline : ∀ i, depth ≤ i → c'.line i = c.line i) : c'.Remembers depth frames := by
  induction frames generalizing depth with
  | nil => exact fun i hi => (hline i hi).trans (h i hi)
  | cons frame frames ih =>
    exact ⟨(hline depth (Nat.le_refl _)).trans h.1, ih h.2 fun i hi => hline i (by omega)⟩

theorem Remembers.setLine (h : c.Remembers (c.frame + 1) frames) (line : ℕ) (f : F) :
    (c.setLine line).Remembers c.frame ((f, line) :: frames) := by
  refine ⟨Function.update_self .., h.congr fun i hi => ?_⟩
  exact Function.update_of_ne (by omega) ..

theorem Remembers.clearAbove (h : c.Remembers (c.frame + 2) ([] : List (F × ℕ))) :
    c.clearAbove.Remembers (c.frame + 1) ([] : List (F × ℕ)) := by
  intro i hi
  by_cases hne : i = c.frame + 1
  · rw [hne]
    exact Function.update_self ..
  · exact (Function.update_of_ne hne ..).trans (h i (by omega))

end Coroutine

namespace CoFunctions
variable {F S V Y : Type} {P : CoFunctions F S V Y} {f callee : F} {c : Coroutine Y} {s : S}
  {n line : ℕ} {below frames : List (F × ℕ)}

theorem chain_fresh (P : CoFunctions F S V Y) (f : F) : P.Chain f [(f, 0)] := ⟨rfl, P.label_zero f⟩

theorem Chain.ne_nil (h : P.Chain f frames) : frames ≠ [] := by
  rintro rfl
  exact h

theorem Chain.cons (hlabel : P.label f line = some (.recurse callee))
    (h : P.Chain callee frames) : P.Chain f ((f, line) :: frames) := by
  cases frames with
  | nil => exact h.elim
  | cons frame frames => exact ⟨rfl, callee, hlabel, h⟩

/-- What a call of `f` does once its callee has ended. -/
theorem ended_recurse (hlabel : P.label f line = some (.recurse callee))
    (hframe : c.frame = below.length)
    {stack : ℕ → Option (Except CoFault (Pause F V Y × S))}
    {r r' : Except CoFault (V × Coroutine Y × S)}
    (hcallee : P.Ended callee ((f, line) :: below) { c with frame := c.frame + 1 } stack r)
    (hafter : ∀ v c' s', r = .ok (v, c', s') → c'.yield = false → c'.frame = c.frame + 1 →
      c'.Remembers (below.length + 2) ([] : List (F × ℕ)) →
      P.Ended f below { c' with frame := c.frame }.clearAbove
        (fun n => P.drive n f below (P.after f below.length line v s').1
          (P.after f below.length line v s').2) r')
    (hexec : ∀ v c' s', r = .ok (v, c', s') → c'.yield = true →
      r' = .ok (P.yieldRet f, { c' with frame := c'.frame - 1 }.setLine line, s'))
    (hfault : ∀ fault, r = .error fault → r' = .error fault) :
    P.Ended f below c stack r' := by
  cases hcallee with
  | fault k h =>
    rw [hfault _ rfl]
    exact .fault k h
  | @suspended v c' s' frames value hframe' hquit hyield hvalue hlines hchain hlength k h =>
    rw [hexec v c' s' rfl hyield]
    have hsame : { c' with frame := c'.frame - 1 }.frame = below.length := by
      simp only [hframe', hframe, Nat.add_sub_cancel]
    refine .suspended (hsame.trans hframe.symm) hquit hyield hvalue ?_ (hchain.cons hlabel) ?_ k ?_
    · rw [← hsame]
      apply Coroutine.Remembers.setLine
      rw [hsame]
      exact hlines.congr fun _ _ => rfl
    · simp only [List.length_cons] at hlength ⊢
      omega
    · intro n
      rw [h n, List.reverse_cons, List.append_assoc, List.singleton_append]
  | @returned v c' s' hframe' hquit hyield hclear k h =>
    have hended := hafter v c' s' rfl hyield hframe' hclear
    have hstack : ∀ n, stack (n + (k + 1)) =
        P.drive n f below (P.after f below.length line v s').1
          (P.after f below.length line v s').2 := by
      intro n
      rw [Nat.add_comm k 1, ← Nat.add_assoc, h (n + 1)]
      rfl
    cases hended.mono hstack with
    | fault k h => exact .fault k h
    | returned hframe₂ hquit₂ hyield₂ hclear₂ k h =>
      exact .returned hframe₂ (hquit₂.trans hquit) hyield₂ hclear₂ k h
    | suspended hframe₂ hquit₂ hyield₂ hvalue₂ hlines₂ hchain₂ hlength₂ k h =>
      exact .suspended hframe₂ (hquit₂.trans hquit) hyield₂ hvalue₂ hlines₂
        hchain₂ hlength₂ k h

/-- A call that ends has done what the stack does. -/
theorem exec_ended {control : CoControl V Y} {r : Except CoFault (V × Coroutine Y × S)}
    (h : P.exec n f control c s = some r) (hframe : c.frame = below.length)
    (hyield : c.yield = false) (hready : P.Ready f below frames c control) :
    P.Ended f below c (P.proceed f below frames control s) r := by
  induction n generalizing f control c s below frames r with
  | zero => simp [exec] at h
  | succ n ih =>
    match control with
    | .enter =>
      obtain ⟨hlines, hchain, hlength⟩ := hready
      match frames with
      | [] => exact hchain.elim
      | [(g, line)] =>
        obtain ⟨rfl, hlabel⟩ := hchain
        obtain ⟨hline, hclear⟩ := hlines
        rw [← hframe] at hline
        let next := P.body g below.length line (P.prologue g s)
        have hnext : P.exec n g (.segment next.1) c next.2 = some r := by
          rwa [exec, hline, hlabel, hframe] at h
        have hready : P.Ready g below [] c (.segment next.1) :=
          ⟨P.body_labelled .., hclear, hlength⟩
        have hended := ih hnext hframe hyield hready
        exact hended
      | (g, line) :: frame :: frames =>
        obtain ⟨rfl, callee, hlabel, hchain⟩ := hchain
        obtain ⟨hline, hlines⟩ := hlines
        rw [← hframe] at hline
        have hnext : P.exec n g (.recurse line) c (P.prologue g s) = some r := by
          rwa [exec, hline, hlabel] at h
        have hready : P.Ready g below (frame :: frames) c (.recurse line) := by
          refine ⟨callee, hlabel, hlines, hchain, ?_⟩
          rw [List.length_cons] at hlength
          omega
        have hended := ih hnext hframe hyield hready
        exact hended
    | .segment (.ret v) =>
      cases h
      exact .returned rfl rfl hyield hready.2.1 0 fun n => rfl
    | .segment (.yield value line) =>
      cases h
      obtain ⟨hlabelled, hclear, hdepth⟩ := hready
      have hlines : (c.coYield value line).Remembers below.length [(f, line)] := by
        rw [← hframe] at hclear ⊢
        exact Coroutine.Remembers.setLine (c := { c with yield := true, yieldValue := some value })
          (hclear.congr fun _ _ => rfl) line f
      refine .suspended rfl rfl rfl rfl hlines ⟨rfl, hlabelled⟩ hdepth 1 fun n => ?_
      simp only [proceed, drive]
    | .segment (.recurse line) =>
      obtain ⟨⟨callee, hlabel⟩, hclear, hdepth⟩ := hready
      have hproceed : ∀ n, P.proceed f below frames (.segment (.recurse line)) s (n + 1) =
          if below.length + 1 < coroutineStackSize then
            P.proceed f below [(callee, 0)] (.recurse line) s n
          else some (.error .stackOverflow) := by
        intro n
        simp only [proceed, drive, hlabel, resume, List.length_cons]
      by_cases hroom : below.length + 1 < coroutineStackSize
      · simp only [if_pos hroom] at hproceed
        have hfresh : P.Ready f below [(callee, 0)] c (.recurse line) :=
          ⟨callee, hlabel, ⟨hclear _ (Nat.le_refl _), fun i hi => hclear i (by omega)⟩,
            P.chain_fresh callee, hroom⟩
        exact (ih h hframe hyield hfresh).mono hproceed
      · simp only [if_neg hroom] at hproceed
        cases n with
        | zero => simp [exec] at h
        | succ n =>
          simp only [exec, hlabel, hframe, if_neg hroom, Option.some.injEq] at h
          rw [← h]
          exact .fault 1 hproceed
    | .segment .abort =>
      cases h
      refine .fault 1 fun n => ?_
      simp only [proceed, drive]
    | .recurse line =>
      obtain ⟨callee, hlabel, hlines, hchain, hlength⟩ := hready
      have hroom : below.length + 1 < coroutineStackSize := by
        have := List.length_pos_iff.2 hchain.ne_nil
        omega
      rw [exec, hlabel] at h
      dsimp only at h
      rw [if_pos (by rwa [hframe])] at h
      cases hcallee : P.exec n callee .enter { c with frame := c.frame + 1 } s with
      | none => simp [hcallee] at h
      | some result =>
        rw [hcallee] at h
        have hcallee' : P.Ready callee ((f, line) :: below) frames
            { c with frame := c.frame + 1 } .enter :=
          ⟨hlines.congr fun _ _ => rfl, hchain, by rwa [List.length_cons]⟩
        have hended := ih hcallee (by simp only [hframe, List.length_cons]) hyield hcallee'
        refine ended_recurse hlabel hframe hended ?_ ?_ ?_
        · rintro v c' s' rfl hyield' hframe' hclear
          dsimp only at h
          rw [if_neg (by rw [hyield']; exact Bool.false_ne_true), hframe', Nat.add_sub_cancel] at h
          rw [hframe] at h hframe' ⊢
          have hready : P.Ready f below []
              { c' with frame := below.length }.clearAbove
              (.segment (P.after f below.length line v s').1) := by
            refine ⟨P.after_labelled .., ?_, by omega⟩
            exact Coroutine.Remembers.clearAbove
              (c := { c' with frame := below.length }) (hclear.congr fun _ _ => rfl)
          have hended := ih h rfl hyield' hready
          exact hended
        · rintro v c' s' rfl hyield'
          simpa [hyield'] using h.symm
        · rintro fault rfl
          simpa using h.symm

/-! ### A call ends if the stack does -/

/-- A `co_recurse` ends if its callee does, and what follows it after the callee has returned. -/
theorem exec_recurse (hlabel : P.label f line = some (.recurse callee))
    {r : Except CoFault (V × Coroutine Y × S)}
    (hcallee : P.exec n callee .enter { c with frame := c.frame + 1 } s = some r)
    (hafter : ∀ v c' s', r = .ok (v, c', s') → c'.yield = false →
      ∃ m r', P.exec m f (.segment (P.after f (c'.frame - 1) line v s').1)
        { c' with frame := c'.frame - 1 }.clearAbove (P.after f (c'.frame - 1) line v s').2 =
          some r') :
    ∃ m r', P.exec m f (.recurse line) c s = some r' := by
  by_cases hroom : c.frame + 1 < coroutineStackSize
  · match r with
    | .error fault =>
      refine ⟨n + 1, .error fault, ?_⟩
      simp only [exec, hlabel, if_pos hroom, hcallee]
    | .ok (v, c', s') =>
      cases hyield : c'.yield with
      | true =>
        refine ⟨n + 1, .ok (P.yieldRet f, { c' with frame := c'.frame - 1 }.setLine line, s'), ?_⟩
        simp only [exec, hlabel, if_pos hroom, hcallee, hyield, if_true]
      | false =>
        obtain ⟨m, r', hm⟩ := hafter v c' s' rfl hyield
        refine ⟨max n m + 1, r', ?_⟩
        rw [exec, hlabel]
        dsimp only
        rw [if_pos hroom, exec_le hcallee (Nat.le_max_left n m)]
        dsimp only
        rw [if_neg (by rw [hyield]; exact Bool.false_ne_true)]
        exact exec_le hm (Nat.le_max_right n m)
  · exact ⟨1, .error .stackOverflow, by simp only [exec, hlabel, if_neg hroom]⟩

/-- What is left for the stack to do when a callee returns. -/
theorem after_of_returned {N : ℕ} {R : Except CoFault (Pause F V Y × S)} {r : Except CoFault
      (V × Coroutine Y × S)} {stack : ℕ → Option (Except CoFault (Pause F V Y × S))}
    (hstack : ∀ k, stack (N + k) = some R)
    (h : P.Ended callee ((f, line) :: below) c stack r) {v : V} {c' : Coroutine Y} {s' : S}
    (hr : r = .ok (v, c', s')) (hyield : c'.yield = false) :
    c'.frame = c.frame ∧ c'.Remembers (below.length + 2) ([] : List (F × ℕ)) ∧
      ∃ m, m < N ∧ P.drive m f below (P.after f below.length line v s').1
        (P.after f below.length line v s').2 = some R := by
  cases h with
  | fault k h => cases hr
  | suspended hframe hquit hyield' =>
    cases hr
    rw [hyield'] at hyield
    cases hyield
  | returned hframe hquit hyield' hclear k h =>
    cases hr
    refine ⟨hframe, hclear, ?_⟩
    have hdrive := (h N).symm.trans (hstack k)
    cases N with
    | zero => simp [drive] at hdrive
    | succ N => exact ⟨N, Nat.lt_succ_self N, hdrive⟩

theorem exec_of_drive {N : ℕ} {segment : Segment V Y} {R : Except CoFault (Pause F V Y × S)}
    (h : P.drive N f below segment s = some R) (hframe : c.frame = below.length)
    (hyield : c.yield = false) (hready : P.Ready f below [] c (.segment segment)) :
    ∃ n r, P.exec n f (.segment segment) c s = some r := by
  induction N using Nat.strongRecOn generalizing f below segment c s with
  | ind N ih =>
    match segment with
    | .ret v => exact ⟨1, _, rfl⟩
    | .yield value line => exact ⟨1, _, rfl⟩
    | .abort => exact ⟨1, _, rfl⟩
    | .recurse line =>
      obtain ⟨⟨callee, hlabel⟩, hclear, hdepth⟩ := hready
      suffices ∃ n r, P.exec n f (.recurse line) c s = some r by
        obtain ⟨n, r, hn⟩ := this
        exact ⟨n + 1, r, hn⟩
      by_cases hroom : below.length + 1 < coroutineStackSize
      · cases N with
        | zero => simp [drive] at h
        | succ N =>
          simp only [drive, hlabel, if_pos hroom] at h
          have hline : c.line (c.frame + 1) = 0 := hclear _ (Nat.le_of_eq (by rw [hframe]))
          have hbody : P.Ready callee ((f, line) :: below) [] { c with frame := c.frame + 1 }
              (.segment (P.body callee (below.length + 1) 0 (P.prologue callee s)).1) :=
            ⟨P.body_labelled .., fun i hi => hclear i (by rw [List.length_cons] at hi; omega), hroom⟩
          have hframe' : { c with frame := c.frame + 1 }.frame = ((f, line) :: below).length := by
            simp only [hframe, List.length_cons]
          obtain ⟨n, r, hn⟩ := ih N (Nat.lt_succ_self N) h hframe' hyield hbody
          have hended := exec_ended hn hframe' hyield hbody
          have hcallee : P.exec (n + 1) callee .enter { c with frame := c.frame + 1 } s =
              some r := by
            rw [exec, hline, P.label_zero]
            dsimp only
            rwa [← hframe] at hn
          refine exec_recurse hlabel hcallee fun v c' s' hr hyield' => ?_
          obtain ⟨hsame, hclear', m, hm, hdrive⟩ :=
            after_of_returned (drive_add h) hended hr hyield'
          have hback : c'.frame - 1 = below.length := by
            rw [hsame]
            exact hframe
          rw [hback]
          refine ih m (Nat.lt_trans hm (Nat.lt_succ_self N)) hdrive rfl hyield' ⟨P.after_labelled .., ?_,
            hdepth⟩
          exact Coroutine.Remembers.clearAbove
            (c := { c' with frame := below.length }) (hclear'.congr fun _ _ => rfl)
      · exact ⟨1, .error .stackOverflow, by simp only [exec, hlabel, hframe, if_neg hroom]⟩

theorem exec_of_resume {N : ℕ} {R : Except CoFault (Pause F V Y × S)}
    (h : P.resume N below frames s = some R) (hframe : c.frame = below.length)
    (hyield : c.yield = false) (hready : P.Ready f below frames c .enter) :
    ∃ n r, P.exec n f .enter c s = some r := by
  induction frames generalizing f below c s with
  | nil => exact hready.2.1.elim
  | cons frame frames ih =>
    obtain ⟨g, line⟩ := frame
    obtain ⟨⟨hline, hlines⟩, hchain, hlength⟩ := hready
    rw [← hframe] at hline
    cases frames with
    | nil =>
      obtain ⟨rfl, hlabel⟩ := hchain
      obtain ⟨n, r, hn⟩ := exec_of_drive h hframe hyield ⟨P.body_labelled .., hlines, hlength⟩
      refine ⟨n + 1, r, ?_⟩
      rw [exec, hline, hlabel]
      dsimp only
      rwa [hframe]
    | cons frame frames =>
      obtain ⟨rfl, callee, hlabel, hchain⟩ := hchain
      have hframe' : { c with frame := c.frame + 1 }.frame = ((g, line) :: below).length := by
        simp only [hframe, List.length_cons]
      have hready : P.Ready callee ((g, line) :: below) (frame :: frames)
          { c with frame := c.frame + 1 } .enter := by
        refine ⟨hlines.congr fun _ _ => rfl, hchain, ?_⟩
        simp only [List.length_cons] at hlength ⊢
        omega
      obtain ⟨n, r, hn⟩ := ih h hframe' hyield hready
      have hended := exec_ended hn hframe' hyield hready
      obtain ⟨m, r', hm⟩ := exec_recurse hlabel hn fun v c' s' hr hyield' => by
        obtain ⟨hsame, hclear, m, -, hdrive⟩ :=
          after_of_returned (resume_add h) hended hr hyield'
        have hback : c'.frame - 1 = below.length := by
          rw [hsame]
          exact hframe
        rw [hback]
        have hdepth : below.length < coroutineStackSize := by
          simp only [List.length_cons] at hlength
          omega
        refine exec_of_drive hdrive rfl hyield' ⟨P.after_labelled .., ?_, hdepth⟩
        exact Coroutine.Remembers.clearAbove
          (c := { c' with frame := below.length }) (hclear.congr fun _ _ => rfl)
      refine ⟨m + 1, r', ?_⟩
      rw [exec, hline, hlabel]
      exact hm

end CoFunctions

/-! ### Resuming a coroutine again and again -/

/-- What is left of a coroutine between two resumptions. -/
inductive CoStack (F : Type)
  | suspended (frames : List (F × ℕ))
  | finished
  deriving DecidableEq, Repr

/-- What a resumption answers. -/
inductive Resumed (V Y : Type)
  | yielded (value : Y)
  | finished (v : V)
  deriving DecidableEq, Repr

/-- The answers to resumptions of a state `σ`, where `between` says what the rest of the program
does before each of them. -/
def coAnswers {σ S V Y : Type} (enter : σ → S → Option (Except CoFault (Resumed V Y × σ × S))) :
    List (S → S) → σ → S → Option (List (Except CoFault (Resumed V Y × S)))
  | [], _, _ => some []
  | between :: rest, state, s =>
    match enter state (between s) with
    | none => none
    | some (.error fault) => some [.error fault]
    | some (.ok (answer, state, s)) => (coAnswers enter rest state s).map (.ok (answer, s) :: ·)

namespace CoFunctions
variable {F S V Y : Type} (P : CoFunctions F S V Y)

/-- `co_enter` and the look at `yield` that follows it. -/
def enterFrames (f : F) (n : ℕ) (c : Coroutine Y) (s : S) :
    Option (Except CoFault (Resumed V Y × Coroutine Y × S)) :=
  match P.coEnter n f c s with
  | none => none
  | some (.error fault) => some (.error fault)
  | some (.ok (v, c, s)) =>
    match c.yield, c.yieldValue with
    | true, some value => some (.ok (.yielded value, c, s))
    | true, none => some (.error .assertFailed)
    | false, _ => some (.ok (.finished v, c, s))

def enterStack (n : ℕ) : CoStack F → S →
    Option (Except CoFault (Resumed V Y × CoStack F × S))
  | .finished, _ => some (.error .assertFailed)
  | .suspended frames, s =>
    match P.resume n [] frames s with
    | none => none
    | some (.error fault) => some (.error fault)
    | some (.ok (.suspended frames value, s)) => some (.ok (.yielded value, .suspended frames, s))
    | some (.ok (.returned v, s)) => some (.ok (.finished v, .finished, s))

/-- The frames of a coroutine remember a stack of suspended functions. -/
def Stands (f : F) (c : Coroutine Y) : CoStack F → Prop
  | .finished => c.quit = true ∧ c.frame = 0 ∧ c.Remembers 0 ([] : List (F × ℕ))
  | .suspended frames => c.quit = false ∧ c.frame = 0 ∧ c.Remembers 0 frames ∧
      P.Chain f frames ∧ frames.length ≤ coroutineStackSize

variable {P} {f : F} {c : Coroutine Y} {stack : CoStack F} {s : S} {n : ℕ}

theorem stands_new (P : CoFunctions F S V Y) (f : F) :
    P.Stands f (Coroutine.new : Coroutine Y) (.suspended [(f, 0)]) :=
  ⟨rfl, rfl, ⟨rfl, fun _ _ => rfl⟩, P.chain_fresh f, by simp [coroutineStackSize]⟩

/-- The answer of `enterFrames` is that of the stack, and what is left stands for what is left. -/
theorem enterFrames_sound (hstands : P.Stands f c stack)
    {r : Except CoFault (Resumed V Y × Coroutine Y × S)} (h : P.enterFrames f n c s = some r) :
    (∃ fault k, r = .error fault ∧ ∀ m, P.enterStack (m + k) stack s = some (.error fault)) ∨
    ∃ answer c' stack' s' k, r = .ok (answer, c', s') ∧ P.Stands f c' stack' ∧
      ∀ m, P.enterStack (m + k) stack s = some (.ok (answer, stack', s')) := by
  cases stack with
  | finished =>
    rw [enterFrames, coEnter, if_pos (.inl hstands.1)] at h
    cases h
    exact .inl ⟨_, 0, rfl, fun m => rfl⟩
  | suspended frames =>
    obtain ⟨hquit, hframe, hlines, hchain, hlength⟩ := hstands
    have hready : P.Ready f [] frames { c with yield := false } .enter :=
      ⟨hlines.congr fun _ _ => rfl, hchain, by rwa [List.length_nil, Nat.zero_add]⟩
    have hframe₀ : { c with yield := false }.frame = ([] : List (F × ℕ)).length := hframe
    rw [enterFrames, coEnter, if_neg (by simp [hquit, hframe])] at h
    cases hexec : P.exec n f .enter { c with yield := false } s with
    | none => simp [hexec] at h
    | some result =>
      have hended := exec_ended hexec hframe₀ rfl hready
      rw [hexec] at h
      cases hended with
      | fault k hstack =>
        cases h
        refine .inl ⟨_, k, rfl, fun m => ?_⟩
        have hm := hstack m
        simp only [proceed] at hm
        simp only [enterStack, hm]
      | @returned v c' s' hframe' hquit' hyield' hclear k hstack =>
        have hzero : c'.frame = 0 := hframe'.trans hframe
        simp only [hzero, hyield', Bool.false_eq_true, if_false, ne_eq, not_true_eq_false,
          Coroutine.setLine, Option.some.injEq] at h
        refine .inr ⟨.finished v, _, .finished, s', k + 1, h.symm, ⟨rfl, rfl, ?_⟩, fun m => ?_⟩
        · intro i hi
          change Function.update c'.line 0 0 i = 0
          by_cases hne : i = 0
          · rw [hne]
            exact Function.update_self ..
          · exact (Function.update_of_ne hne ..).trans
              (hclear i (Nat.succ_le_of_lt (Nat.pos_of_ne_zero hne)))
        · have hm := hstack (m + 1)
          simp only [proceed, drive] at hm
          simp only [enterStack, Nat.add_comm k 1, ← Nat.add_assoc, hm]
      | @suspended v c' s' frames' value hframe' hquit' hyield' hvalue hlines' hchain' hlength' k
          hstack =>
        have hzero : c'.frame = 0 := hframe'.trans hframe
        simp only [hzero, hyield', ne_eq, not_true_eq_false, if_false, if_true, hvalue,
          Option.some.injEq] at h
        refine .inr ⟨.yielded value, c', .suspended frames', s', k, h.symm,
          ⟨hquit'.trans hquit, hzero, hlines', hchain', ?_⟩, fun m => ?_⟩
        · rwa [List.length_nil, Nat.zero_add] at hlength'
        · have hm := hstack m
          simp only [proceed, List.reverse_nil, List.nil_append] at hm
          simp only [enterStack, hm]

theorem enterFrames_complete (hstands : P.Stands f c stack)
    {r : Except CoFault (Resumed V Y × CoStack F × S)} (h : P.enterStack n stack s = some r) :
    ∃ m r', P.enterFrames f m c s = some r' := by
  cases stack with
  | finished =>
    exact ⟨0, .error .assertFailed, by rw [enterFrames, coEnter, if_pos (.inl hstands.1)]⟩
  | suspended frames =>
    obtain ⟨hquit, hframe, hlines, hchain, hlength⟩ := hstands
    have hready : P.Ready f [] frames { c with yield := false } .enter :=
      ⟨hlines.congr fun _ _ => rfl, hchain, by rwa [List.length_nil, Nat.zero_add]⟩
    cases hresume : P.resume n [] frames s with
    | none => simp [enterStack, hresume] at h
    | some result =>
      have hframe₀ : { c with yield := false }.frame = ([] : List (F × ℕ)).length := hframe
      obtain ⟨m, r', hm⟩ := exec_of_resume hresume hframe₀ rfl hready
      refine ⟨m, ?_⟩
      rw [enterFrames, coEnter, if_neg (by simp [hquit, hframe]), hm]
      match r' with
      | .error fault => exact ⟨_, rfl⟩
      | .ok (v, c', s') =>
        dsimp only
        by_cases hzero : c'.frame ≠ 0
        · rw [if_pos hzero]
          exact ⟨_, rfl⟩
        · rw [if_neg hzero]
          cases hyield : c'.yield with
          | false =>
            simp only [Bool.false_eq_true, if_false, Coroutine.setLine, hyield]
            exact ⟨_, rfl⟩
          | true =>
            simp only [if_true, hyield]
            cases c'.yieldValue with
            | none => exact ⟨_, rfl⟩
            | some value => exact ⟨_, rfl⟩

theorem enterStack_add {r : Except CoFault (Resumed V Y × CoStack F × S)}
    (h : P.enterStack n stack s = some r) (k : ℕ) : P.enterStack (n + k) stack s = some r := by
  cases stack with
  | finished => exact h
  | suspended frames =>
    cases hresume : P.resume n [] frames s with
    | none => simp [enterStack, hresume] at h
    | some result =>
      rw [enterStack, hresume] at h
      rw [enterStack, resume_add hresume k]
      exact h

theorem enterFrames_add {r : Except CoFault (Resumed V Y × Coroutine Y × S)}
    (h : P.enterFrames f n c s = some r) (k : ℕ) : P.enterFrames f (n + k) c s = some r := by
  by_cases hassert : c.quit ∨ c.frame ≠ 0
  · rw [enterFrames, coEnter, if_pos hassert] at h ⊢
    exact h
  · cases hexec : P.exec n f .enter { c with yield := false } s with
    | none => simp [enterFrames, coEnter, if_neg hassert, hexec] at h
    | some result =>
      rw [enterFrames, coEnter, if_neg hassert, hexec] at h
      rw [enterFrames, coEnter, if_neg hassert, exec_le hexec (Nat.le_add_right n k)]
      exact h

end CoFunctions

theorem coAnswers_mono {σ S V Y : Type}
    {enter enter' : σ → S → Option (Except CoFault (Resumed V Y × σ × S))}
    (henter : ∀ state s r, enter state s = some r → enter' state s = some r)
    {schedule : List (S → S)} {state : σ} {s : S} {l : List (Except CoFault (Resumed V Y × S))}
    (h : coAnswers enter schedule state s = some l) :
    coAnswers enter' schedule state s = some l := by
  induction schedule generalizing state s l with
  | nil => exact h
  | cons between rest ih =>
    rw [coAnswers] at h ⊢
    cases hr : enter state (between s) with
    | none => simp [hr] at h
    | some r =>
      rw [henter _ _ _ hr]
      rw [hr] at h
      match r with
      | .error fault => exact h
      | .ok (answer, state', s') =>
        simp only [Option.map_eq_some_iff] at h ⊢
        obtain ⟨l', hl', rfl⟩ := h
        exact ⟨l', ih hl', rfl⟩

namespace CoFunctions
variable {F S V Y : Type} {P : CoFunctions F S V Y} {f : F} {c : Coroutine Y} {stack : CoStack F}
  {s : S}

theorem answers_stack (hstands : P.Stands f c stack) {n : ℕ} {schedule : List (S → S)}
    {l : List (Except CoFault (Resumed V Y × S))}
    (h : coAnswers (P.enterFrames f n) schedule c s = some l) :
    ∃ m, coAnswers (P.enterStack m) schedule stack s = some l := by
  induction schedule generalizing c stack s l with
  | nil => exact ⟨0, h⟩
  | cons between rest ih =>
    rw [coAnswers] at h
    cases hr : P.enterFrames f n c (between s) with
    | none => simp [hr] at h
    | some r =>
      rw [hr] at h
      obtain ⟨fault, k, rfl, hstack⟩ | ⟨answer, c', stack', s', k, rfl, hstands', hstack⟩ :=
        enterFrames_sound hstands hr
      · refine ⟨0 + k, ?_⟩
        rw [coAnswers, hstack]
        exact h
      · simp only [Option.map_eq_some_iff] at h
        obtain ⟨l', hl', rfl⟩ := h
        obtain ⟨m, hm⟩ := ih hstands' hl'
        refine ⟨m + k, ?_⟩
        rw [coAnswers, hstack]
        simp only [Option.map_eq_some_iff]
        exact ⟨l', coAnswers_mono (fun _ _ _ hr => enterStack_add hr k) hm, rfl⟩

theorem answers_frames (hstands : P.Stands f c stack) {n : ℕ} {schedule : List (S → S)}
    {l : List (Except CoFault (Resumed V Y × S))}
    (h : coAnswers (P.enterStack n) schedule stack s = some l) :
    ∃ m, coAnswers (P.enterFrames f m) schedule c s = some l := by
  induction schedule generalizing c stack s l with
  | nil => exact ⟨0, h⟩
  | cons between rest ih =>
    rw [coAnswers] at h
    cases hr : P.enterStack n stack (between s) with
    | none => simp [hr] at h
    | some r =>
      rw [hr] at h
      obtain ⟨m, r', hm⟩ := enterFrames_complete hstands hr
      obtain ⟨fault, k, rfl, hstack⟩ | ⟨answer, c', stack', s', k, rfl, hstands', hstack⟩ :=
        enterFrames_sound hstands hm
      · obtain rfl := Option.some.inj ((enterStack_add hr k).symm.trans (hstack n))
        refine ⟨m, ?_⟩
        rw [coAnswers, hm]
        exact h
      · obtain rfl := Option.some.inj ((enterStack_add hr k).symm.trans (hstack n))
        simp only [Option.map_eq_some_iff] at h
        obtain ⟨l', hl', rfl⟩ := h
        obtain ⟨m', hm'⟩ := ih hstands' hl'
        refine ⟨m' + m, ?_⟩
        rw [coAnswers, Nat.add_comm m' m, enterFrames_add hm m']
        simp only [Option.map_eq_some_iff]
        refine ⟨l', coAnswers_mono (fun _ _ _ hr => ?_) hm', rfl⟩
        rw [Nat.add_comm m m']
        exact enterFrames_add hr m

/-- Whatever the rest of the program does between the resumptions, the frames of a coroutine answer
as the stack of its suspended functions does, fault for fault. -/
theorem frames_answer_as_stack (P : CoFunctions F S V Y) (f : F) (schedule : List (S → S)) (s : S)
    (answers : List (Except CoFault (Resumed V Y × S))) :
    (∃ n, coAnswers (P.enterFrames f n) schedule Coroutine.new s = some answers) ↔
      ∃ n, coAnswers (P.enterStack n) schedule (.suspended [(f, 0)]) s = some answers :=
  ⟨fun ⟨_, h⟩ => answers_stack (P.stands_new f) h,
    fun ⟨_, h⟩ => answers_frames (P.stands_new f) h⟩

end CoFunctions

end ColoDaemon
