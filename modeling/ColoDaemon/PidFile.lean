import ColoDaemon.Runs
import Mathlib.Logic.Function.Basic
import Mathlib.Data.List.Infix

/-!
# The pid file

`colod_write_pidfile` of any number of processes that run at once, one system call after the other
in any order. A process may end anywhere, which closes its file and drops its lock. The file system
numbers a new file with any inode that no path and no open file refers to, and every call may fail.
Other programs do not touch the path.
-/

namespace ColoDaemon
namespace PidFile

abbrev Pid := ℕ
abbrev Inode := ℕ
abbrev Errno := ℕ

def EINTR : Errno := 4

inductive Call
  | open
  | fstat
  | setlk
  | stat
  | ftruncate
  | write (bytes : List Char)
  | unlink
  | close
  deriving DecidableEq, Repr

inductive Answer
  | file (i : Inode)
  | done
  | wrote (n : ℕ)
  | error (errno : Errno)
  deriving DecidableEq, Repr

/-- `colod_error_set`, whose text ends with the text of `errno`. -/
structure Failure where
  text : String
  errno : Errno
  deriving DecidableEq, Repr

/-- Where `colod_write_pidfile` is: before which call, with what it has to remember. -/
inductive Phase
  | opening
  | fstating
  | locking (b : Inode)
  | stating (b : Inode)
  | reopening
  | truncating
  | writing (rest : List Char)
  | written
  | unlinking (failure : Failure)
  | closing (failure : Failure)
  | failed (failure : Failure)
  deriving DecidableEq, Repr

def pidstr (pid : Pid) : List Char :=
  Nat.toDigits 10 pid ++ ['\n']

namespace Phase

def call : Phase → Option Call
  | opening => some .open
  | fstating => some .fstat
  | locking _ => some .setlk
  | stating _ => some .stat
  | reopening => some .close
  | truncating => some .ftruncate
  | writing rest => some (.write rest)
  | written => none
  | unlinking _ => some .unlink
  | closing _ => some .close
  | failed _ => none

/-- The loop of `colod_write_full`, with `rest` still to write. -/
def colodWriteFull (rest : List Char) : Phase :=
  if rest = [] then written else writing rest

/-- `colod_write_pidfile` up to the next call. -/
def resume (pid : Pid) : Phase → Answer → Phase
  | opening, .error errno => failed ⟨"Failed to open pid file: ", errno⟩
  | opening, _ => fstating
  | fstating, .error errno => closing ⟨"Cannot stat file: ", errno⟩
  | fstating, .file b => locking b
  | locking _, .error errno => closing ⟨"Cannot lock pid file: ", errno⟩
  | locking b, _ => stating b
  | stating b, .file a => if a = b then truncating else reopening
  | stating _, _ => reopening
  | reopening, _ => opening
  | truncating, .error errno => unlinking ⟨"Failed to truncate pid file: ", errno⟩
  | truncating, _ => colodWriteFull (pidstr pid)
  | writing rest, .error errno =>
    if errno = EINTR then writing rest else unlinking ⟨"Failed to write pid file: ", errno⟩
  | writing rest, .wrote n => colodWriteFull (rest.drop n)
  | unlinking failure, _ => closing failure
  | closing failure, _ => failed failure
  | phase, _ => phase

theorem resume_stating (pid : Pid) (b a : Inode) :
    (stating b).resume pid (.file a) = if a = b then truncating else reopening := rfl

theorem resume_writing_error (pid : Pid) (rest : List Char) (errno : Errno) :
    (writing rest).resume pid (.error errno) =
      if errno = EINTR then writing rest
      else unlinking ⟨"Failed to write pid file: ", errno⟩ := rfl

end Phase

/-- `path` is the file at the path, `fd` the file each process has open there and the offset in it.
The lock of a file is held by a process. -/
structure Kernel where
  path : Option Inode
  content : Inode → List Char
  lock : Inode → Option Pid
  openers : Inode → List Pid
  fd : Pid → Option (Inode × ℕ)

namespace Kernel

def openAt (k : Kernel) (p : Pid) (i : Inode) : Kernel :=
  { k with
    openers := Function.update k.openers i (p :: k.openers i)
    fd := Function.update k.fd p (some (i, 0)) }

/-- Closing any descriptor of a file drops the lock of the process. -/
def closeFd (k : Kernel) (p : Pid) : Kernel :=
  match k.fd p with
  | none => k
  | some (i, _) =>
    { k with
      lock := if k.lock i = some p then Function.update k.lock i none else k.lock
      openers := Function.update k.openers i ((k.openers i).filter (· != p))
      fd := Function.update k.fd p none }

def writeAt (content : List Char) (offset : ℕ) (bytes : List Char) : List Char :=
  content.take offset ++ List.replicate (offset - content.length) '\x00' ++ bytes ++
    content.drop (offset + bytes.length)

/-- The call of `p` with this answer, if the kernel can answer so. -/
def serve (k : Kernel) (p : Pid) : Call → Answer → Option Kernel
  | .close, _ => some (k.closeFd p)
  | _, .error _ => some k
  | .open, .file i =>
    match k.path with
    | some j => if i = j then some (k.openAt p i) else none
    | none =>
      if k.openers i = [] then
        some { k.openAt p i with path := some i, content := Function.update k.content i [] }
      else none
  | .fstat, .file b =>
    match k.fd p with
    | some (i, _) => if b = i then some k else none
    | none => none
  | .setlk, .done =>
    match k.fd p with
    | some (i, _) =>
      if k.lock i = none ∨ k.lock i = some p then
        some { k with lock := Function.update k.lock i (some p) }
      else none
    | none => none
  | .stat, .file a => if k.path = some a then some k else none
  | .ftruncate, .done =>
    match k.fd p with
    | some (i, _) => some { k with content := Function.update k.content i [] }
    | none => none
  | .write bytes, .wrote n =>
    match k.fd p with
    | some (i, offset) =>
      if n ≤ bytes.length then
        some { k with
          content := Function.update k.content i (writeAt (k.content i) offset (bytes.take n))
          fd := Function.update k.fd p (some (i, offset + n)) }
      else none
    | none => none
  | .unlink, .done => if k.path.isSome then some { k with path := none } else none
  | _, _ => none

section Serve
variable (k : Kernel) (p : Pid)

theorem serve_open (i : Inode) :
    k.serve p .open (.file i) =
      match k.path with
      | some j => if i = j then some (k.openAt p i) else none
      | none =>
        if k.openers i = [] then
          some { k.openAt p i with path := some i, content := Function.update k.content i [] }
        else none := rfl

theorem serve_fstat (b : Inode) :
    k.serve p .fstat (.file b) =
      match k.fd p with
      | some (i, _) => if b = i then some k else none
      | none => none := rfl

theorem serve_setlk :
    k.serve p .setlk .done =
      match k.fd p with
      | some (i, _) =>
        if k.lock i = none ∨ k.lock i = some p then
          some { k with lock := Function.update k.lock i (some p) }
        else none
      | none => none := rfl

theorem serve_stat (a : Inode) :
    k.serve p .stat (.file a) = if k.path = some a then some k else none := rfl

theorem serve_ftruncate :
    k.serve p .ftruncate .done =
      match k.fd p with
      | some (i, _) => some { k with content := Function.update k.content i [] }
      | none => none := rfl

theorem serve_write (bytes : List Char) (n : ℕ) :
    k.serve p (.write bytes) (.wrote n) =
      match k.fd p with
      | some (i, offset) =>
        if n ≤ bytes.length then
          some { k with
            content := Function.update k.content i (writeAt (k.content i) offset (bytes.take n))
            fd := Function.update k.fd p (some (i, offset + n)) }
        else none
      | none => none := rfl

theorem serve_unlink :
    k.serve p .unlink .done =
      if k.path.isSome then some { k with path := none } else none := rfl

end Serve

end Kernel

/-- `phase p` is `none` where no process with this id runs. -/
structure System where
  kernel : Kernel
  phase : Pid → Option Phase

inductive Label
  | start (p : Pid)
  | call (p : Pid) (answer : Answer)
  | exit (p : Pid)
  deriving DecidableEq, Repr

def System.step (s : System) : Label → Option System
  | .start p =>
    if s.phase p = none then
      some { s with phase := Function.update s.phase p (some .opening) }
    else none
  | .call p answer => do
    let phase ← s.phase p
    let call ← phase.call
    let kernel ← s.kernel.serve p call answer
    some ⟨kernel, Function.update s.phase p (some (phase.resume p answer))⟩
  | .exit p =>
    if s.phase p = none then none
    else some ⟨s.kernel.closeFd p, Function.update s.phase p none⟩

/-- No process runs yet. The path may hold a file of an earlier daemon. -/
structure System.Initial (s : System) : Prop where
  phase : ∀ p, s.phase p = none
  fd : ∀ p, s.kernel.fd p = none
  lock : ∀ i, s.kernel.lock i = none
  openers : ∀ i, s.kernel.openers i = []

/-! ### What a process knows of its file -/

section Own
variable {k k' : Kernel} {p q : Pid}

/-- What holds for a process in each phase, whatever the others do. -/
def Phase.Knows (k : Kernel) (p : Pid) : Phase → Prop
  | .opening => k.fd p = none
  | .fstating => ∃ i, k.fd p = some (i, 0)
  | .locking b => k.fd p = some (b, 0)
  | .stating b => k.fd p = some (b, 0) ∧ k.lock b = some p
  | .reopening => True
  | .truncating => ∃ i, k.fd p = some (i, 0) ∧ k.lock i = some p ∧ k.path = some i
  | .writing rest => ∃ i done, k.fd p = some (i, done.length) ∧ k.lock i = some p ∧
      k.path = some i ∧ k.content i = done ∧ done ++ rest = pidstr p
  | .written => ∃ i, k.fd p = some (i, (pidstr p).length) ∧ k.lock i = some p ∧
      k.path = some i ∧ k.content i = pidstr p
  | .unlinking _ => ∃ i offset, k.fd p = some (i, offset) ∧ k.lock i = some p ∧ k.path = some i
  | .closing _ => True
  | .failed _ => k.fd p = none

/-- What the others leave alone. -/
structure Frame (k k' : Kernel) (p : Pid) : Prop where
  fd : k'.fd p = k.fd p
  lock : ∀ i, k.lock i = some p → k'.lock i = some p
  path : ∀ i, k.lock i = some p → k.path = some i → k'.path = some i
  content : ∀ i, k.lock i = some p → k'.content i = k.content i

theorem Phase.Knows.frame {phase : Phase} (h : phase.Knows k p) (hf : Frame k k' p) :
    phase.Knows k' p := by
  cases phase with
  | opening | failed => exact hf.fd.trans h
  | fstating =>
    obtain ⟨i, hi⟩ := h
    exact ⟨i, hf.fd.trans hi⟩
  | locking b => exact hf.fd.trans h
  | stating b => exact ⟨hf.fd.trans h.1, hf.lock b h.2⟩
  | reopening | closing => trivial
  | truncating =>
    obtain ⟨i, hi, hlock, hpath⟩ := h
    exact ⟨i, hf.fd.trans hi, hf.lock i hlock, hf.path i hlock hpath⟩
  | writing rest =>
    obtain ⟨i, done, hi, hlock, hpath, hcontent, hdone⟩ := h
    exact ⟨i, done, hf.fd.trans hi, hf.lock i hlock, hf.path i hlock hpath,
      (hf.content i hlock).trans hcontent, hdone⟩
  | written =>
    obtain ⟨i, hi, hlock, hpath, hcontent⟩ := h
    exact ⟨i, hf.fd.trans hi, hf.lock i hlock, hf.path i hlock hpath,
      (hf.content i hlock).trans hcontent⟩
  | unlinking failure =>
    obtain ⟨i, offset, hi, hlock, hpath⟩ := h
    exact ⟨i, offset, hf.fd.trans hi, hf.lock i hlock, hf.path i hlock hpath⟩

/-- The kernel's books: who has a file open, and only who has it open holds its lock. -/
structure Kernel.Sound (k : Kernel) : Prop where
  openers : ∀ p i offset, k.fd p = some (i, offset) → p ∈ k.openers i
  opened : ∀ p i, p ∈ k.openers i → ∃ offset, k.fd p = some (i, offset)
  locked : ∀ i p, k.lock i = some p → ∃ offset, k.fd p = some (i, offset)

theorem closeFd_frame (hpq : p ≠ q) : Frame k (k.closeFd q) p := by
  unfold Kernel.closeFd
  cases hq : k.fd q with
  | none => exact ⟨rfl, fun _ h => h, fun _ _ h => h, fun _ _ => rfl⟩
  | some file =>
    obtain ⟨i, offset⟩ := file
    refine ⟨Function.update_of_ne hpq _ _, fun j hj => ?_, fun _ _ h => h, fun _ _ => rfl⟩
    simp only
    split
    · rename_i hlock
      have hji : j ≠ i := by
        rintro rfl
        exact hpq (Option.some.inj (hj.symm.trans hlock))
      rwa [Function.update_of_ne hji]
    · exact hj

theorem closeFd_fd (k : Kernel) (q : Pid) : (k.closeFd q).fd q = none := by
  unfold Kernel.closeFd
  cases hq : k.fd q with
  | none => exact hq
  | some file => exact Function.update_self ..

theorem Kernel.Sound.closeFd (h : k.Sound) (q : Pid) : (k.closeFd q).Sound := by
  unfold Kernel.closeFd
  cases hq : k.fd q with
  | none => exact h
  | some file =>
    obtain ⟨i, offset⟩ := file
    have hfd : ∀ p j off, Function.update k.fd q none p = some (j, off) →
        p ≠ q ∧ k.fd p = some (j, off) := by
      intro p j off hp
      have hpq : p ≠ q := by
        rintro rfl
        simp at hp
      rw [Function.update_of_ne hpq] at hp
      exact ⟨hpq, hp⟩
    refine ⟨fun p j off hp => ?_, fun p j hp => ?_, fun j p hp => ?_⟩
    · obtain ⟨hpq, hp⟩ := hfd p j off hp
      have hmem := h.openers p j off hp
      by_cases hji : j = i
      · subst hji
        simp [hmem, hpq]
      · simpa [hji] using hmem
    · have hmem : p ∈ k.openers j ∧ p ≠ q := by
        by_cases hji : j = i
        · subst hji
          simpa using hp
        · simp only [Function.update_of_ne hji] at hp
          refine ⟨hp, ?_⟩
          rintro rfl
          obtain ⟨off, hoff⟩ := h.opened p j hp
          rw [hq, Option.some.injEq, Prod.mk.injEq] at hoff
          exact hji hoff.1.symm
      obtain ⟨off, hoff⟩ := h.opened p j hmem.1
      exact ⟨off, (Function.update_of_ne hmem.2 _ _).trans hoff⟩
    · have hlock : k.lock j = some p ∧ p ≠ q := by
        by_cases hi : k.lock i = some q
        · simp only [hi, if_true] at hp
          by_cases hji : j = i
          · subst hji
            simp at hp
          · rw [Function.update_of_ne hji] at hp
            refine ⟨hp, ?_⟩
            rintro rfl
            obtain ⟨off, hoff⟩ := h.locked j p hp
            rw [hq, Option.some.injEq, Prod.mk.injEq] at hoff
            exact hji hoff.1.symm
        · simp only [hi, if_false] at hp
          refine ⟨hp, ?_⟩
          rintro rfl
          obtain ⟨off, hoff⟩ := h.locked j p hp
          rw [hq, Option.some.injEq, Prod.mk.injEq] at hoff
          exact hi (hoff.1 ▸ hp)
      obtain ⟨off, hoff⟩ := h.locked j p hlock.1
      exact ⟨off, (Function.update_of_ne hlock.2 _ _).trans hoff⟩

theorem Frame.refl (k : Kernel) (p : Pid) : Frame k k p :=
  ⟨rfl, fun _ h => h, fun _ _ h => h, fun _ _ => rfl⟩

/-- What an answered call does: the books stay sound, the process knows what its next phase needs,
and the other processes are left alone. -/
structure Answered (k k' : Kernel) (q : Pid) (next : Phase) : Prop where
  sound : k'.Sound
  knows : next.Knows k' q
  frame : ∀ p, p ≠ q → Frame k k' p

theorem resume_error (phase : Phase) {call : Call} (errno : Errno) (hcall : phase.call = some call)
    (hq : phase.Knows k q) (hclose : call ≠ .close) :
    (phase.resume q (.error errno)).Knows k q := by
  cases phase with
  | opening => exact hq
  | fstating | locking | stating | unlinking => trivial
  | reopening | closing =>
    cases hcall
    exact absurd rfl hclose
  | truncating =>
    obtain ⟨i, hi⟩ := hq
    exact ⟨i, 0, hi⟩
  | writing rest =>
    simp only [Phase.resume_writing_error]
    split
    · exact hq
    · obtain ⟨i, done, hi, hlock, hpath, -⟩ := hq
      exact ⟨i, done.length, hi, hlock, hpath⟩
  | written | failed => cases hcall

theorem Kernel.Sound.openAt (hk : k.Sound) (hfd : k.fd q = none) (i : Inode) :
    (k.openAt q i).Sound := by
  have hother : ∀ p j off, k.fd p = some (j, off) → p ≠ q := by
    rintro p j off hp rfl
    rw [hfd] at hp
    cases hp
  refine ⟨fun p j off hp => ?_, fun p j hp => ?_, fun j p hp => ?_⟩
  · by_cases hpq : p = q
    · subst hpq
      simp only [Kernel.openAt, Function.update_self, Option.some.injEq, Prod.mk.injEq] at hp
      simp [Kernel.openAt, hp.1]
    · simp only [Kernel.openAt, Function.update_of_ne hpq] at hp
      have hmem := hk.openers p j off hp
      by_cases hji : j = i
      · subst hji
        simp [Kernel.openAt, hmem]
      · simpa [Kernel.openAt, hji] using hmem
  · by_cases hpq : p = q
    · subst hpq
      have hji : j = i := by
        by_contra hji
        simp only [Kernel.openAt, Function.update_of_ne hji] at hp
        obtain ⟨off, hoff⟩ := hk.opened p j hp
        exact hother p j off hoff rfl
      exact ⟨0, by simp [Kernel.openAt, hji]⟩
    · have hmem : p ∈ k.openers j := by
        by_cases hji : j = i
        · subst hji
          simpa [Kernel.openAt, hpq] using hp
        · simpa [Kernel.openAt, hji] using hp
      obtain ⟨off, hoff⟩ := hk.opened p j hmem
      exact ⟨off, (Function.update_of_ne hpq _ _).trans hoff⟩
  · obtain ⟨off, hoff⟩ := hk.locked j p hp
    exact ⟨off, (Function.update_of_ne (hother p j off hoff) _ _).trans hoff⟩

theorem answered_open {answer : Answer} (hk : k.Sound) (hfd : k.fd q = none)
    (hserve : k.serve q .open answer = some k') :
    Answered k k' q (Phase.opening.resume q answer) := by
  cases answer with
  | done | wrote n => cases hserve
  | error errno =>
    cases hserve
    exact ⟨hk, hfd, fun p _ => Frame.refl k p⟩
  | file i =>
    have hopened : (k.openAt q i).Sound := hk.openAt hfd i
    simp only [Kernel.serve_open] at hserve
    cases hpath : k.path with
    | some j =>
      rw [hpath] at hserve
      simp only [Option.ite_none_right_eq_some] at hserve
      obtain ⟨rfl, hserve⟩ := hserve
      cases hserve
      refine ⟨hopened, ⟨i, Function.update_self ..⟩, fun p hpq => ?_⟩
      exact ⟨Function.update_of_ne hpq _ _, fun _ h => h, fun _ _ h => h, fun _ _ => rfl⟩
    | none =>
      rw [hpath] at hserve
      simp only [Option.ite_none_right_eq_some] at hserve
      obtain ⟨hfresh, hserve⟩ := hserve
      cases hserve
      refine ⟨⟨hopened.openers, hopened.opened, hopened.locked⟩, ⟨i, Function.update_self ..⟩,
        fun p hpq =>
          ⟨Function.update_of_ne hpq _ _, fun _ h => h, fun j _ hj => ?_, fun j hj => ?_⟩⟩
      · rw [hpath] at hj
        cases hj
      · -- a locked file is open, so its inode is not taken for the new file
        have hji : j ≠ i := by
          rintro rfl
          obtain ⟨off, hoff⟩ := hk.locked j p hj
          have hmem := hk.openers p j off hoff
          rw [hfresh] at hmem
          cases hmem
        exact Function.update_of_ne hji _ _

theorem answered_setlk {answer : Answer} {b : Inode} (hk : k.Sound) (hfd : k.fd q = some (b, 0))
    (hserve : k.serve q .setlk answer = some k') :
    Answered k k' q ((Phase.locking b).resume q answer) := by
  cases answer with
  | file i | wrote n => cases hserve
  | error errno =>
    cases hserve
    exact ⟨hk, trivial, fun p _ => Frame.refl k p⟩
  | done =>
    simp only [Kernel.serve_setlk, hfd, Option.ite_none_right_eq_some] at hserve
    obtain ⟨hfree, hserve⟩ := hserve
    cases hserve
    refine ⟨⟨hk.openers, hk.opened, fun j p hp => ?_⟩, ⟨hfd, Function.update_self ..⟩,
      fun p hpq => ⟨rfl, fun j hj => ?_, fun _ _ h => h, fun _ _ => rfl⟩⟩
    · by_cases hjb : j = b
      · subst hjb
        simp only [Function.update_self, Option.some.injEq] at hp
        exact ⟨0, hp ▸ hfd⟩
      · simp only [Function.update_of_ne hjb] at hp
        exact hk.locked j p hp
    · have hjb : j ≠ b := by
        rintro rfl
        obtain hfree | hfree := hfree
        · rw [hfree] at hj
          cases hj
        · exact hpq (Option.some.inj (hj.symm.trans hfree))
      exact (Function.update_of_ne hjb _ _).trans hj

theorem answered_stat {answer : Answer} {b : Inode} (hk : k.Sound) (hfd : k.fd q = some (b, 0))
    (hlock : k.lock b = some q) (hserve : k.serve q .stat answer = some k') :
    Answered k k' q ((Phase.stating b).resume q answer) := by
  cases answer with
  | done | wrote n => cases hserve
  | error errno =>
    cases hserve
    exact ⟨hk, trivial, fun p _ => Frame.refl k p⟩
  | file a =>
    simp only [Kernel.serve_stat, Option.ite_none_right_eq_some] at hserve
    obtain ⟨hpath, hserve⟩ := hserve
    cases hserve
    refine ⟨hk, ?_, fun p _ => Frame.refl k p⟩
    simp only [Phase.resume_stating]
    split
    · rename_i hab
      subst hab
      exact ⟨a, hfd, hlock, hpath⟩
    · trivial

/-- The bytes written so far, and those still to write, are the pid. -/
theorem colodWriteFull_knows {i : Inode} (done : List Char) {rest : List Char}
    (hfd : k.fd q = some (i, done.length)) (hlock : k.lock i = some q) (hpath : k.path = some i)
    (hcontent : k.content i = done) (hdone : done ++ rest = pidstr q) :
    (Phase.colodWriteFull rest).Knows k q := by
  unfold Phase.colodWriteFull
  split
  · rename_i hrest
    rw [hrest, List.append_nil] at hdone
    subst hdone
    exact ⟨i, hfd, hlock, hpath, hcontent⟩
  · exact ⟨i, done, hfd, hlock, hpath, hcontent, hdone⟩

/-- Others do not see a change of a file that `q` has locked. -/
theorem frame_content {i : Inode} (hlock : k.lock i = some q) {content : List Char}
    {fd : Pid → Option (Inode × ℕ)} {p : Pid} (hpq : p ≠ q) (hfd : fd p = k.fd p) :
    Frame k { k with content := Function.update k.content i content, fd } p := by
  refine ⟨hfd, fun _ h => h, fun _ _ h => h, fun j hj => Function.update_of_ne ?_ _ _⟩
  rintro rfl
  exact hpq (Option.some.inj (hj.symm.trans hlock))

theorem answered_ftruncate {answer : Answer} {i : Inode} (hk : k.Sound) (hfd : k.fd q = some (i, 0))
    (hlock : k.lock i = some q) (hpath : k.path = some i)
    (hserve : k.serve q .ftruncate answer = some k') :
    Answered k k' q (Phase.truncating.resume q answer) := by
  cases answer with
  | file j | wrote n => cases hserve
  | error errno =>
    cases hserve
    exact ⟨hk, ⟨i, 0, hfd, hlock, hpath⟩, fun p _ => Frame.refl k p⟩
  | done =>
    simp only [Kernel.serve_ftruncate, hfd, Option.some.injEq] at hserve
    subst hserve
    refine ⟨⟨hk.openers, hk.opened, hk.locked⟩, ?_, fun p hpq => frame_content hlock hpq rfl⟩
    exact colodWriteFull_knows [] hfd hlock hpath (Function.update_self ..) rfl

theorem writeAt_end (done bytes : List Char) :
    Kernel.writeAt done done.length bytes = done ++ bytes := by
  simp [Kernel.writeAt]

theorem Kernel.Sound.seek (hk : k.Sound) {i : Inode} {offset offset' : ℕ}
    (hfd : k.fd q = some (i, offset)) {content : Inode → List Char} :
    Kernel.Sound { k with content, fd := Function.update k.fd q (some (i, offset')) } := by
  have hsame : ∀ p j, (∃ off, Function.update k.fd q (some (i, offset')) p = some (j, off)) ↔
      ∃ off, k.fd p = some (j, off) := by
    intro p j
    by_cases hpq : p = q
    · subst hpq
      simp [hfd]
    · rw [Function.update_of_ne hpq]
  refine ⟨fun p j off hp => ?_, fun p j hp => (hsame p j).mpr (hk.opened p j hp),
    fun j p hp => (hsame p j).mpr (hk.locked j p hp)⟩
  obtain ⟨off', hoff'⟩ := (hsame p j).mp ⟨off, hp⟩
  exact hk.openers p j off' hoff'

theorem answered_write {answer : Answer} {i : Inode} {done rest : List Char} (hk : k.Sound)
    (hfd : k.fd q = some (i, done.length)) (hlock : k.lock i = some q) (hpath : k.path = some i)
    (hcontent : k.content i = done) (hdone : done ++ rest = pidstr q)
    (hserve : k.serve q (.write rest) answer = some k') :
    Answered k k' q ((Phase.writing rest).resume q answer) := by
  cases answer with
  | file j | done => cases hserve
  | error errno =>
    cases hserve
    have hknows : (Phase.writing rest).Knows k q :=
      ⟨i, done, hfd, hlock, hpath, hcontent, hdone⟩
    exact ⟨hk, resume_error _ errno rfl hknows (fun hclose => by cases hclose),
      fun p _ => Frame.refl k p⟩
  | wrote n =>
    simp only [Kernel.serve_write, hfd, Option.ite_none_right_eq_some] at hserve
    obtain ⟨hn, hserve⟩ := hserve
    cases hserve
    have hlength : done.length + n = (done ++ rest.take n).length := by
      rw [List.length_append, List.length_take, Nat.min_eq_left hn]
    refine ⟨hk.seek hfd, ?_, fun p hpq => frame_content hlock hpq (Function.update_of_ne hpq _ _)⟩
    refine colodWriteFull_knows (done ++ rest.take n) ?_ hlock hpath ?_ ?_
    · rw [← hlength]
      exact Function.update_self ..
    · rw [← writeAt_end, ← hcontent]
      exact Function.update_self ..
    · rw [List.append_assoc, List.take_append_drop, hdone]

theorem answered_unlink {answer : Answer} {failure : Failure} {i : Inode} (hk : k.Sound)
    (hlock : k.lock i = some q) (hpath : k.path = some i)
    (hserve : k.serve q .unlink answer = some k') :
    Answered k k' q ((Phase.unlinking failure).resume q answer) := by
  cases answer with
  | file j | wrote n => cases hserve
  | error errno =>
    cases hserve
    exact ⟨hk, trivial, fun p _ => Frame.refl k p⟩
  | done =>
    simp only [Kernel.serve_unlink, hpath, Option.isSome_some, if_true, Option.some.injEq] at hserve
    subst hserve
    refine ⟨⟨hk.openers, hk.opened, hk.locked⟩, trivial,
      fun p hpq => ⟨rfl, fun _ h => h, fun j hj hpathj => ?_, fun _ _ => rfl⟩⟩
    -- the file at the path is locked by the process that removes it
    obtain rfl : i = j := Option.some.inj (hpath.symm.trans hpathj)
    exact absurd (Option.some.inj (hj.symm.trans hlock)) hpq

theorem answered_close {answer : Answer} (hk : k.Sound) {next : Phase}
    (hnext : ∀ k : Kernel, k.fd q = none → next.Knows k q)
    (hserve : k.serve q .close answer = some k') : Answered k k' q next := by
  cases hserve
  exact ⟨hk.closeFd q, hnext _ (closeFd_fd k q), fun p hpq => closeFd_frame hpq⟩

theorem answered {phase : Phase} {call : Call} {answer : Answer} (hk : k.Sound)
    (hq : phase.Knows k q) (hcall : phase.call = some call)
    (hserve : k.serve q call answer = some k') : Answered k k' q (phase.resume q answer) := by
  cases phase with
  | opening =>
    cases hcall
    exact answered_open hk hq hserve
  | fstating =>
    cases hcall
    obtain ⟨i, hfd⟩ := hq
    cases answer with
    | done | wrote n => cases hserve
    | error errno =>
      cases hserve
      exact ⟨hk, trivial, fun p _ => Frame.refl k p⟩
    | file b =>
      simp only [Kernel.serve_fstat, hfd, Option.ite_none_right_eq_some] at hserve
      obtain ⟨rfl, hserve⟩ := hserve
      cases hserve
      exact ⟨hk, hfd, fun p _ => Frame.refl k p⟩
  | locking b =>
    cases hcall
    exact answered_setlk hk hq hserve
  | stating b =>
    cases hcall
    exact answered_stat hk hq.1 hq.2 hserve
  | reopening =>
    cases hcall
    exact answered_close hk (fun _ h => h) hserve
  | truncating =>
    cases hcall
    obtain ⟨i, hfd, hlock, hpath⟩ := hq
    exact answered_ftruncate hk hfd hlock hpath hserve
  | writing rest =>
    cases hcall
    obtain ⟨i, done, hfd, hlock, hpath, hcontent, hdone⟩ := hq
    exact answered_write hk hfd hlock hpath hcontent hdone hserve
  | unlinking failure =>
    cases hcall
    obtain ⟨i, offset, -, hlock, hpath⟩ := hq
    exact answered_unlink hk hlock hpath hserve
  | closing failure =>
    cases hcall
    exact answered_close hk (fun _ h => h) hserve
  | written | failed failure => cases hcall

end Own

namespace System
variable {s t : System} {l : Label} {p q : Pid}

/-- Every process knows what its phase needs, and only running processes have the file open. -/
structure Sound (s : System) : Prop where
  kernel : s.kernel.Sound
  knows : ∀ p phase, s.phase p = some phase → phase.Knows s.kernel p
  ended : ∀ p, s.phase p = none → s.kernel.fd p = none

theorem Initial.sound (h : s.Initial) : s.Sound := by
  refine ⟨⟨fun p i offset hp => ?_, fun p i hp => ?_, fun i p hp => ?_⟩, fun p phase hp => ?_,
    fun p _ => h.fd p⟩
  · rw [h.fd] at hp
    cases hp
  · rw [h.openers] at hp
    cases hp
  · rw [h.lock] at hp
    cases hp
  · rw [h.phase] at hp
    cases hp

theorem step_sound (hs : s.Sound) (hstep : s.step l = some t) : t.Sound := by
  cases l with
  | start p =>
    simp only [step, Option.ite_none_right_eq_some] at hstep
    obtain ⟨hp, hstep⟩ := hstep
    cases hstep
    refine ⟨hs.kernel, fun q phase hq => ?_, fun q hq => ?_⟩
    · by_cases hqp : q = p
      · subst hqp
        simp only [Function.update_self, Option.some.injEq] at hq
        subst hq
        exact hs.ended q hp
      · simp only [Function.update_of_ne hqp] at hq
        exact hs.knows q phase hq
    · by_cases hqp : q = p
      · subst hqp
        simp at hq
      · simp only [Function.update_of_ne hqp] at hq
        exact hs.ended q hq
  | call p answer =>
    simp only [step, Option.bind_eq_bind, Option.bind_eq_some_iff, Option.some.injEq] at hstep
    obtain ⟨phase, hphase, call, hcall, kernel, hserve, rfl⟩ := hstep
    have hanswered := answered hs.kernel (hs.knows p phase hphase) hcall hserve
    refine ⟨hanswered.sound, fun q next hq => ?_, fun q hq => ?_⟩
    · by_cases hqp : q = p
      · subst hqp
        simp only [Function.update_self, Option.some.injEq] at hq
        subst hq
        exact hanswered.knows
      · simp only [Function.update_of_ne hqp] at hq
        exact (hs.knows q next hq).frame (hanswered.frame q hqp)
    · by_cases hqp : q = p
      · subst hqp
        simp at hq
      · simp only [Function.update_of_ne hqp] at hq
        exact (hanswered.frame q hqp).fd.trans (hs.ended q hq)
  | exit p =>
    simp only [step, Option.ite_none_left_eq_some, Option.some.injEq] at hstep
    obtain ⟨-, rfl⟩ := hstep
    refine ⟨hs.kernel.closeFd p, fun q next hq => ?_, fun q hq => ?_⟩
    · by_cases hqp : q = p
      · subst hqp
        simp at hq
      · simp only [Function.update_of_ne hqp] at hq
        exact (hs.knows q next hq).frame (closeFd_frame hqp)
    · by_cases hqp : q = p
      · subst hqp
        exact closeFd_fd _ q
      · simp only [Function.update_of_ne hqp] at hq
        exact (closeFd_frame hqp).fd.trans (hs.ended q hq)

/-- In the part of `colod_write_pidfile` behind the comparison of the inodes. -/
def Owns (s : System) (p : Pid) : Prop :=
  s.phase p = some .truncating ∨ (∃ rest, s.phase p = some (.writing rest)) ∨
    s.phase p = some .written ∨ ∃ failure, s.phase p = some (.unlinking failure)

theorem Sound.owns (hs : s.Sound) (hp : s.Owns p) :
    ∃ i, s.kernel.lock i = some p ∧ s.kernel.path = some i := by
  obtain hp | ⟨rest, hp⟩ | hp | ⟨failure, hp⟩ := hp
  · obtain ⟨i, -, hlock, hpath⟩ := hs.knows p _ hp
    exact ⟨i, hlock, hpath⟩
  · obtain ⟨i, done, -, hlock, hpath, -⟩ := hs.knows p _ hp
    exact ⟨i, hlock, hpath⟩
  · obtain ⟨i, -, hlock, hpath, -⟩ := hs.knows p _ hp
    exact ⟨i, hlock, hpath⟩
  · obtain ⟨i, offset, -, hlock, hpath⟩ := hs.knows p _ hp
    exact ⟨i, hlock, hpath⟩

theorem Sound.owner (hs : s.Sound) (hp : s.Owns p) (hq : s.Owns q) : p = q := by
  obtain ⟨i, hlock, hpath⟩ := hs.owns hp
  obtain ⟨j, hlock', hpath'⟩ := hs.owns hq
  obtain rfl : i = j := Option.some.inj (hpath.symm.trans hpath')
  exact Option.some.inj (hlock.symm.trans hlock')

end System

/-- Once `colod_write_pidfile` has returned `TRUE` in a process, and until that process ends, no
other process gets past the comparison of the inodes, and the file at the path is locked by this
process and holds its pid. -/
theorem written_exclusive {s : System} {p : Pid} (h : Runs.Reachable System.step System.Initial s)
    (hp : s.phase p = some .written) :
    (∀ q, s.Owns q → q = p) ∧ ∃ i, s.kernel.path = some i ∧ s.kernel.lock i = some p ∧
      s.kernel.content i = pidstr p := by
  have hs : s.Sound := h.invariant (fun _ h => h.sound) fun _ _ _ hstep hs =>
    System.step_sound hs hstep
  refine ⟨fun q hq => hs.owner hq (.inr (.inr (.inl hp))), ?_⟩
  obtain ⟨i, -, hlock, hpath, hcontent⟩ := hs.knows p _ hp
  exact ⟨i, hpath, hlock, hcontent⟩

/-- An earlier daemon left the file, and two processes race for it. -/
def twoStarts : List Label :=
  [.start 12, .start 7, .call 12 (.file 5), .call 7 (.file 5), .call 7 (.file 5),
    .call 12 (.file 5), .call 12 .done, .call 7 (.error 11), .call 12 (.file 5), .call 7 .done, .call 12 .done,
    .call 12 (.wrote 1), .call 12 (.error EINTR), .call 12 (.wrote 2)]

def leftOver : System where
  kernel :=
    { path := some 5
      content := fun _ => ['4', '5', '6', '7', '\n']
      lock := fun _ => none
      openers := fun _ => []
      fd := fun _ => none }
  phase := fun _ => none

theorem leftOver_initial : leftOver.Initial :=
  ⟨fun _ => rfl, fun _ => rfl, fun _ => rfl, fun _ => rfl⟩

theorem written_exclusive_twoStarts : ∃ s, Runs.run System.step leftOver twoStarts = some s ∧
    s.phase 7 = some (.failed ⟨"Cannot lock pid file: ", 11⟩) ∧ ¬ s.Owns 7 ∧
    ∃ i, s.kernel.path = some i ∧ s.kernel.lock i = some 12 ∧
      s.kernel.content i = ['1', '2', '\n'] := by
  obtain ⟨s, hrun⟩ := Option.isSome_iff_exists.mp
    (show (Runs.run System.step leftOver twoStarts).isSome = true by decide)
  have hphase : (Runs.run System.step leftOver twoStarts).map (fun s => (s.phase 12, s.phase 7)) =
      some (some .written, some (.failed ⟨"Cannot lock pid file: ", 11⟩)) := by decide
  rw [hrun, Option.map_some, Option.some.injEq, Prod.mk.injEq] at hphase
  have hexclusive := written_exclusive ⟨leftOver, twoStarts, leftOver_initial, hrun⟩ hphase.1
  exact ⟨s, hrun, hphase.2, fun h => absurd (hexclusive.1 7 h) (by decide), hexclusive.2⟩

/-! ### A process that runs alone -/

namespace System
variable {s t : System} {l : Label} {p q : Pid}

def Alone (s : System) (p : Pid) : Prop :=
  ∀ q, q ≠ p → s.phase q = none

/-- The call does not fail, and it writes something if it is a write. -/
def Success : Answer → Prop
  | .error _ => False
  | .wrote n => n ≠ 0
  | _ => True

def Succeeds (p : Pid) (l : Label) : Prop :=
  ∃ answer, l = .call p answer ∧ Success answer

/-- How many calls are left at most. -/
def callsLeft (p : Pid) : Phase → ℕ
  | .opening => (pidstr p).length + 5
  | .fstating => (pidstr p).length + 4
  | .locking _ => (pidstr p).length + 3
  | .stating _ => (pidstr p).length + 2
  | .truncating => (pidstr p).length + 1
  | .writing rest => rest.length
  | _ => 0

/-- On the way, with nobody else to remove the file. -/
def OnPath (k : Kernel) (p : Pid) : Phase → Prop
  | .opening | .truncating | .written => True
  | .writing rest => rest ≠ []
  | .fstating => ∀ i offset, k.fd p = some (i, offset) → k.path = some i
  | .locking b | .stating b => k.path = some b
  | _ => False

theorem colodWriteFull_onPath (k : Kernel) (p : Pid) (rest : List Char) :
    OnPath k p (Phase.colodWriteFull rest) ∧
      callsLeft p (Phase.colodWriteFull rest) ≤ rest.length := by
  unfold Phase.colodWriteFull
  split
  · exact ⟨trivial, Nat.zero_le _⟩
  · exact ⟨by assumption, Nat.le_refl _⟩

theorem serve_onPath {k k' : Kernel} {phase : Phase} {call : Call} {answer : Answer}
    (hcall : phase.call = some call) (hserve : k.serve p call answer = some k')
    (hpath : OnPath k p phase) (hknows : phase.Knows k p)
    (hsuccess : Success answer) :
    OnPath k' p (phase.resume p answer) ∧
      callsLeft p (phase.resume p answer) < callsLeft p phase := by
  cases phase with
  | reopening | unlinking | closing | failed => exact absurd hpath id
  | written => cases hcall
  | opening =>
    cases hcall
    cases answer with
    | done | wrote n => cases hserve
    | error errno => exact absurd hsuccess id
    | file i =>
      refine ⟨?_, Nat.lt_succ_self _⟩
      have hopened : k'.path = some i ∧ k'.fd p = some (i, 0) := by
        simp only [Kernel.serve_open] at hserve
        cases hk : k.path with
        | some j =>
          rw [hk] at hserve
          simp only [Option.ite_none_right_eq_some, Option.some.injEq] at hserve
          obtain ⟨rfl, rfl⟩ := hserve
          exact ⟨hk, Function.update_self ..⟩
        | none =>
          rw [hk] at hserve
          simp only [Option.ite_none_right_eq_some, Option.some.injEq] at hserve
          obtain ⟨-, rfl⟩ := hserve
          exact ⟨rfl, Function.update_self ..⟩
      intro j offset hfd
      rw [hopened.2, Option.some.injEq, Prod.mk.injEq] at hfd
      exact hfd.1 ▸ hopened.1
  | fstating =>
    cases hcall
    obtain ⟨i, hfd⟩ := hknows
    cases answer with
    | done | wrote n => cases hserve
    | error errno => exact absurd hsuccess id
    | file b =>
      simp only [Kernel.serve_fstat, hfd, Option.ite_none_right_eq_some, Option.some.injEq] at hserve
      obtain ⟨rfl, rfl⟩ := hserve
      exact ⟨hpath b 0 hfd, Nat.lt_succ_self _⟩
  | locking b =>
    cases hcall
    cases answer with
    | file i | wrote n => cases hserve
    | error errno => exact absurd hsuccess id
    | done =>
      simp only [Kernel.serve_setlk, show k.fd p = some (b, 0) from hknows, Option.ite_none_right_eq_some,
        Option.some.injEq] at hserve
      obtain ⟨-, rfl⟩ := hserve
      exact ⟨hpath, Nat.lt_succ_self _⟩
  | stating b =>
    cases hcall
    cases answer with
    | done | wrote n => cases hserve
    | error errno => exact absurd hsuccess id
    | file a =>
      simp only [Kernel.serve_stat, Option.ite_none_right_eq_some] at hserve
      obtain rfl : b = a := Option.some.inj (Eq.trans (Eq.symm hpath) hserve.1)
      have hnext : (Phase.stating b).resume p (.file b) = .truncating := if_pos rfl
      rw [hnext]
      exact ⟨trivial, Nat.lt_succ_self _⟩
  | truncating =>
    cases hcall
    have hwrite := colodWriteFull_onPath k' p (pidstr p)
    cases answer with
    | file i | wrote n => cases hserve
    | error errno => exact absurd hsuccess id
    | done => exact ⟨hwrite.1, Nat.lt_succ_of_le hwrite.2⟩
  | writing rest =>
    cases hcall
    cases answer with
    | file i | done => cases hserve
    | error errno => exact absurd hsuccess id
    | wrote n =>
      have hwrite := colodWriteFull_onPath k' p (rest.drop n)
      have hn : n ≠ 0 := hsuccess
      have hrest : rest.length ≠ 0 := fun h => hpath (List.length_eq_zero_iff.mp h)
      refine ⟨hwrite.1, Nat.lt_of_le_of_lt hwrite.2 ?_⟩
      rw [List.length_drop]
      simp only [callsLeft]
      omega

theorem Sound.openers_alone (hs : s.Sound) (halone : s.Alone p) {q : Pid} {i : Inode}
    (hq : q ∈ s.kernel.openers i) : q = p := by
  by_contra hqp
  obtain ⟨offset, hfd⟩ := hs.kernel.opened q i hq
  rw [hs.ended q (halone q hqp)] at hfd
  cases hfd

/-- Nobody is in the way of the next call. -/
theorem exists_call (hs : s.Sound) (halone : s.Alone p) {phase : Phase}
    (hp : s.phase p = some phase) (hpath : OnPath s.kernel p phase) (hw : phase ≠ .written) :
    ∃ l t, Succeeds p l ∧ s.step l = some t := by
  have hknows := hs.knows p phase hp
  suffices hserve : ∃ call answer, phase.call = some call ∧ Success answer ∧
      (s.kernel.serve p call answer).isSome by
    obtain ⟨call, answer, hcall, hsuccess, hserve⟩ := hserve
    obtain ⟨k, hserve⟩ := Option.isSome_iff_exists.mp hserve
    refine ⟨.call p answer, ⟨k, Function.update s.phase p (some (phase.resume p answer))⟩,
      ⟨answer, rfl, hsuccess⟩, ?_⟩
    simp only [step, hp, hcall, hserve, Option.bind_eq_bind, Option.bind_some]
  cases phase with
  | reopening | unlinking | closing | failed => exact absurd hpath id
  | written => exact absurd rfl hw
  | opening =>
    cases hk : s.kernel.path with
    | some i =>
      refine ⟨.open, .file i, rfl, trivial, ?_⟩
      simp only [Kernel.serve_open, hk, if_true]
      rfl
    | none =>
      have hfresh : s.kernel.openers 0 = [] := by
        refine List.eq_nil_iff_forall_not_mem.mpr fun q hq => ?_
        obtain ⟨offset, hfd⟩ := hs.kernel.opened q 0 hq
        rw [hs.openers_alone halone hq, show s.kernel.fd p = none from hknows] at hfd
        cases hfd
      refine ⟨.open, .file 0, rfl, trivial, ?_⟩
      simp only [Kernel.serve_open, hk, hfresh, if_true]
      rfl
  | fstating =>
    obtain ⟨i, hfd⟩ := hknows
    refine ⟨.fstat, .file i, rfl, trivial, ?_⟩
    simp only [Kernel.serve_fstat, hfd, if_true]
    rfl
  | locking b =>
    have hfree : s.kernel.lock b = none ∨ s.kernel.lock b = some p := by
      cases hlock : s.kernel.lock b with
      | none => exact .inl rfl
      | some q =>
        obtain ⟨offset, hfd⟩ := hs.kernel.locked b q hlock
        rw [hs.openers_alone halone (hs.kernel.openers q b offset hfd)]
        exact .inr rfl
    refine ⟨.setlk, .done, rfl, trivial, ?_⟩
    simp only [Kernel.serve_setlk, show s.kernel.fd p = some (b, 0) from hknows, if_pos hfree]
    rfl
  | stating b =>
    refine ⟨.stat, .file b, rfl, trivial, ?_⟩
    simp only [Kernel.serve_stat, show s.kernel.path = some b from hpath, if_true]
    rfl
  | truncating =>
    obtain ⟨i, hfd, -⟩ := hknows
    refine ⟨.ftruncate, .done, rfl, trivial, ?_⟩
    simp only [Kernel.serve_ftruncate, hfd]
    rfl
  | writing rest =>
    obtain ⟨i, done, hfd, -⟩ := hknows
    have hrest : rest.length ≠ 0 := fun h => hpath (List.length_eq_zero_iff.mp h)
    refine ⟨.write rest, .wrote rest.length, rfl, hrest, ?_⟩
    simp only [Kernel.serve_write, hfd, Nat.le_refl, if_true]
    rfl

/-- The state of a process that runs alone, and how many calls are behind it. -/
structure Solo (p : Pid) (n : ℕ) (s : System) : Prop where
  sound : s.Sound
  alone : s.Alone p
  phase : ∃ phase, s.phase p = some phase ∧ OnPath s.kernel p phase ∧
    callsLeft p phase + n ≤ (pidstr p).length + 5

theorem Solo.step {n : ℕ} (h : Solo p n s) (hl : Succeeds p l) (hstep : s.step l = some t) :
    Solo p (n + 1) t := by
  obtain ⟨answer, rfl, hsuccess⟩ := hl
  have ht := step_sound h.sound hstep
  obtain ⟨phase, hp, hpath, hleft⟩ := h.phase
  simp only [System.step, Option.bind_eq_bind, Option.bind_eq_some_iff, Option.some.injEq] at hstep
  obtain ⟨phase', hphase, call, hcall, kernel, hserve, rfl⟩ := hstep
  obtain rfl : phase = phase' := Option.some.inj (hp.symm.trans hphase)
  have hnext := serve_onPath hcall hserve hpath (h.sound.knows p _ hp) hsuccess
  refine ⟨ht, fun q hq => ?_, _, Function.update_self .., hnext.1, ?_⟩
  · exact (Function.update_of_ne hq _ _).trans (h.alone q hq)
  · have hless := hnext.2
    omega

theorem Solo.run {ls : List Label} (hls : ∀ l ∈ ls, Succeeds p l) {n : ℕ} (h : Solo p n s)
    (hrun : Runs.run System.step s ls = some t) : Solo p (n + ls.length) t := by
  induction ls generalizing s n with
  | nil =>
    cases hrun
    exact h
  | cons l ls ih =>
    obtain ⟨u, hu, hrun⟩ := Runs.run_cons_eq_some.mp hrun
    have hrest := ih (fun l hl => hls l (List.mem_cons_of_mem _ hl))
      (h.step (hls l List.mem_cons_self) hu) hrun
    rw [List.length_cons]
    rwa [Nat.add_assoc, Nat.add_comm 1] at hrest

end System

/-- Whatever earlier processes left behind, at the path or by ending at any point: a process that
runs alone and whose calls do not fail never waits for anything, and gets its pid file after at most
five calls and the writes. -/
theorem alone_written {s t : System} {p : Pid} {ls : List Label}
    (h : Runs.Reachable System.step System.Initial s) (halone : s.Alone p)
    (hp : s.phase p = some .opening) (hls : ∀ l ∈ ls, System.Succeeds p l)
    (hrun : Runs.run System.step s ls = some t) :
    ls.length ≤ (pidstr p).length + 5 ∧
      (t.phase p = some .written ∨ ∃ l u, System.Succeeds p l ∧ t.step l = some u) := by
  have hs : s.Sound := h.invariant (fun _ h => h.sound) fun _ _ _ hstep hs =>
    System.step_sound hs hstep
  have hsolo : System.Solo p 0 s := ⟨hs, halone, .opening, hp, trivial, Nat.le_refl _⟩
  obtain ⟨ht, halone', phase, hphase, hpath, hleft⟩ := hsolo.run hls hrun
  refine ⟨by omega, ?_⟩
  by_cases hw : phase = .written
  · exact .inl (hw ▸ hphase)
  · exact .inr (System.exists_call ht halone' hphase hpath hw)

/-- The next daemon after one that was killed has opened the file and locked it. -/
theorem alone_written_leftOver : ∃ s t, leftOver.step (.start 12) = some s ∧
    Runs.run System.step s [.call 12 (.file 5), .call 12 (.file 5), .call 12 .done] = some t ∧
    (t.phase 12 = some .written ∨ ∃ l u, System.Succeeds 12 l ∧ t.step l = some u) := by
  obtain ⟨s, hstart⟩ := Option.isSome_iff_exists.mp
    (show (leftOver.step (.start 12)).isSome = true by decide)
  obtain ⟨t, hrun⟩ := Option.isSome_iff_exists.mp (show (Runs.run System.step leftOver
    [.start 12, .call 12 (.file 5), .call 12 (.file 5), .call 12 .done]).isSome = true by decide)
  rw [Runs.run, hstart, Option.bind_some] at hrun
  have hreach : Runs.Reachable System.step System.Initial s :=
    ⟨leftOver, [.start 12], leftOver_initial, by rw [Runs.run, hstart]; rfl⟩
  have hs : s.phase = Function.update leftOver.phase 12 (some .opening) := by
    cases hstart
    rfl
  refine ⟨s, t, hstart, hrun, (alone_written hreach (fun q hq => ?_) ?_ (fun l hl => ?_) hrun).2⟩
  · rw [hs]
    exact Function.update_of_ne hq _ _
  · rw [hs]
    rfl
  · simp only [List.mem_cons, List.not_mem_nil, or_false] at hl
    obtain rfl | rfl | rfl := hl <;> exact ⟨_, rfl, trivial⟩

end PidFile
end ColoDaemon
