import Mathlib

/-!
# Log rotation

`rotate_logfile` renames the logs from the oldest to the newest, so that one that is interrupted, by
an exception or by Pacemaker, has not overwritten any log.
-/

namespace ColoDaemon
namespace LogRotation

/-- The files that exist, with their contents. -/
abbrev Files := String → Option String

/-- The name of the log of `n` starts ago. -/
def logName (logfile : String) (n : ℕ) : String :=
  if n = 0 then logfile else logfile ++ "." ++ toString n

def remove (files : Files) (path : String) : Files :=
  Function.update files path none

def rename (files : Files) (path newname : String) : Files :=
  Function.update (Function.update files newname (files path)) path none

/-- The body of the loop of `rotate_logfile`. -/
def rotateOne (logfile : String) (numlogs n : ℕ) (files : Files) : Files :=
  if (files (logName logfile n)).isSome then
    if n = numlogs then remove files (logName logfile n)
    else rename files (logName logfile n) (logfile ++ "." ++ toString (n + 1))
  else files

/-- The first `steps` rounds of the loop, which starts with the log `numlogs`. -/
def rotateSteps (logfile : String) (numlogs : ℕ) : ℕ → Files → Files
  | 0, files => files
  | steps + 1, files =>
    rotateOne logfile numlogs (numlogs - steps) (rotateSteps logfile numlogs steps files)

/-- The loop has a round for each of the logs. -/
def rotateLogfile (logfile : String) (numlogs : ℕ) (files : Files) : Files :=
  rotateSteps logfile (numlogs - 1) numlogs files

theorem logName_succ (logfile : String) (n : ℕ) :
    logName logfile (n + 1) = logfile ++ "." ++ toString (n + 1) :=
  if_neg n.succ_ne_zero

theorem logName_ne {logfile : String} (n : ℕ) : logName logfile (n + 1) ≠ logfile := by
  intro h
  have hlength := congrArg String.length h
  rw [logName_succ, String.length_append, String.length_append] at hlength
  have hdot : ".".length = 1 := rfl
  omega

theorem logName_injective (logfile : String) {m n : ℕ}
    (h : logName logfile m = logName logfile n) : m = n := by
  cases m with
  | zero =>
    cases n with
    | zero => rfl
    | succ n => exact absurd h.symm (logName_ne n)
  | succ m =>
    cases n with
    | zero => exact absurd h (logName_ne m)
    | succ n =>
      rw [logName_succ, logName_succ] at h
      exact Nat.repr_injective ((String.append_right_inj _).mp h)

section Steps
variable {logfile : String} {numlogs n : ℕ} {files : Files}

theorem rotateOne_other {path : String} (hn : path ≠ logName logfile n)
    (hs : n ≠ numlogs → path ≠ logName logfile (n + 1)) :
    rotateOne logfile numlogs n files path = files path := by
  unfold rotateOne
  split_ifs with hsome hlast
  · exact Function.update_of_ne hn _ _
  · rw [rename, ← logName_succ, Function.update_of_ne hn, Function.update_of_ne (hs hlast)]
  · rfl

theorem rotateOne_self : rotateOne logfile numlogs n files (logName logfile n) = none := by
  unfold rotateOne
  split_ifs with hsome hlast
  · exact Function.update_self ..
  · exact Function.update_self ..
  · exact Option.not_isSome_iff_eq_none.mp hsome

theorem rotateOne_succ (hn : n ≠ numlogs)
    (hnone : files (logName logfile n) = none → files (logName logfile (n + 1)) = none) :
    rotateOne logfile numlogs n files (logName logfile (n + 1)) = files (logName logfile n) := by
  unfold rotateOne
  split_ifs with hsome
  · have hne : logName logfile (n + 1) ≠ logName logfile n := fun h =>
      absurd (logName_injective logfile h) (by omega)
    rw [rename, ← logName_succ, Function.update_of_ne hne, Function.update_self]
  · have hfile := Option.not_isSome_iff_eq_none.mp hsome
    rw [hfile, hnone hfile]

end Steps

/-- After any number of rounds: the logs that were not reached are where they were, the ones behind
them have moved on by one, and nothing else has changed. -/
theorem rotateSteps_eq (logfile : String) (numlogs : ℕ) (files : Files) {steps : ℕ}
    (hsteps : steps ≤ numlogs + 1) :
    (∀ n, n ≤ numlogs → rotateSteps logfile numlogs steps files (logName logfile n) =
      if n + steps ≤ numlogs then files (logName logfile n)
      else if n + steps = numlogs + 1 then none
      else files (logName logfile (n - 1))) ∧
    ∀ path, (∀ n, n ≤ numlogs → path ≠ logName logfile n) →
      rotateSteps logfile numlogs steps files path = files path := by
  induction steps with
  | zero => exact ⟨fun n hn => (if_pos hn).symm, fun _ _ => rfl⟩
  | succ steps ih =>
    obtain ⟨hlogs, hothers⟩ := ih (by omega)
    have hself : rotateSteps logfile numlogs steps files (logName logfile (numlogs - steps)) =
        files (logName logfile (numlogs - steps)) := by
      rw [hlogs _ (by omega), if_pos (by omega)]
    refine ⟨fun n hn => ?_, fun path hpath => ?_⟩
    · have hround : ∀ k, logName logfile n = logName logfile k → n = k := fun k =>
        logName_injective logfile
      obtain hless | rfl | rfl | hmore : n < numlogs - steps ∨ n = numlogs - steps ∨
          n = numlogs - steps + 1 ∨ numlogs - steps + 1 < n := by omega
      · rw [rotateSteps, rotateOne_other (fun h => by have := hround _ h; omega)
          (fun _ h => by have := hround _ h; omega), hlogs n hn, if_pos (by omega),
          if_pos (by omega)]
      · rw [rotateSteps, rotateOne_self, if_neg (by omega), if_pos (by omega)]
      · have hbelow : rotateSteps logfile numlogs steps files
            (logName logfile (numlogs - steps + 1)) = none := by
          rw [hlogs _ hn, if_neg (by omega), if_pos (by omega)]
        rw [rotateSteps, rotateOne_succ (by omega) (fun _ => hbelow), hself, if_neg (by omega),
          if_neg (by omega), Nat.add_sub_cancel]
      · rw [rotateSteps, rotateOne_other (fun h => by have := hround _ h; omega)
          (fun _ h => by have := hround _ h; omega), hlogs n hn, if_neg (by omega),
          if_neg (by omega), if_neg (by omega), if_neg (by omega)]
    · rw [rotateSteps, rotateOne_other (hpath _ (by omega)) fun hlast => hpath _ (by omega),
        hothers path hpath]

/-- A rotation that got through frees the name of the log, moves every older log on by one and
drops the last one; one that was interrupted at any point has dropped no other log and overwritten
none: each is under its old name or under the next one. -/
theorem rotateLogfile_keeps (logfile : String) (numlogs : ℕ) (files : Files)
    (hnumlogs : 0 < numlogs) :
    (rotateLogfile logfile numlogs files logfile = none ∧
      ∀ n, n + 1 < numlogs → rotateLogfile logfile numlogs files (logName logfile (n + 1)) =
        files (logName logfile n)) ∧
    ∀ steps, steps ≤ numlogs → ∀ n, n + 1 < numlogs →
      rotateSteps logfile (numlogs - 1) steps files (logName logfile n) =
        files (logName logfile n) ∨
      rotateSteps logfile (numlogs - 1) steps files (logName logfile (n + 1)) =
        files (logName logfile n) := by
  refine ⟨⟨?_, fun n hn => ?_⟩, fun steps hsteps n hn => ?_⟩
  · have hfirst := (rotateSteps_eq logfile (numlogs - 1) files (by omega : numlogs ≤ _)).1 0
      (Nat.zero_le _)
    rw [if_neg (by omega), if_pos (by omega)] at hfirst
    exact hfirst
  · rw [rotateLogfile, (rotateSteps_eq logfile (numlogs - 1) files (by omega)).1 _ (by omega),
      if_neg (by omega), if_neg (by omega), Nat.add_sub_cancel]
  · have hrotated := (rotateSteps_eq logfile (numlogs - 1) files (by omega : steps ≤ _)).1
    by_cases hreached : n + steps ≤ numlogs - 1
    · left
      rw [hrotated n (by omega), if_pos hreached]
    · right
      rw [hrotated (n + 1) (by omega), if_neg (by omega), if_neg (by omega), Nat.add_sub_cancel]

/-- Only the log of the last start but one is there. -/
theorem rotateLogfile_keeps_eight :
    let files : Files := fun path => if path = "qemu.log.1" then some "boot" else none
    rotateLogfile "qemu.log" 8 files "qemu.log" = none ∧
      rotateLogfile "qemu.log" 8 files "qemu.log.2" = some "boot" := by
  intro files
  have hkeeps := (rotateLogfile_keeps "qemu.log" 8 files (by decide)).1
  exact ⟨hkeeps.1, hkeeps.2 1 (by decide)⟩

end LogRotation
end ColoDaemon
