import ColoDaemon.QmpFrames
import ColoDaemon.Runs
import Mathlib.Algebra.BigOperators.Group.Finset.Basic
import Mathlib.Algebra.Order.BigOperators.Group.Finset
import Mathlib.Data.Int.Order.Basic
import Mathlib.Logic.Relation
import Mathlib.Tactic.Abel

/-!
# Locks and `inflight` over the frames

`heldBy` adds up what suspended frames hold. `Shared` says that the ledgers agree with the locks
and with `inflight`; `ThreadOk` that the ledger of a coroutine is what its frames hold, and that a
function started with what the frames below it hold. A function that returns gives back what its own
frame holds, so its exit has the ledger of its entry.
-/

namespace ColoDaemon.QmpFrames
open Runs

def heldBy : List Activation → Ledger
  | [] => 0
  | a :: k => a.frame.held + heldBy k

/-- Each function started with what the frames below it hold. -/
def Entered : List Activation → Prop
  | [] => True
  | a :: k => a.entry = heldBy k ∧ Entered k

/-- The functions at the bottom of a coroutine. -/
def Root : Co → Fn → Prop
  | .handshake c, fn => fn = .handshake c
  | .event c, fn => fn = .event c
  | .main _, fn => ∃ call : MainCall, fn = .callee call.callee
  | .client _, fn => fn = .client

/-- Each frame waits for the function above it. -/
def Linked (co : Co) : Fn → List Activation → Prop
  | fn, [] => Root co fn
  | fn, a :: k => fn = .callee a.frame.callee ∧ Linked co a.frame.fn k

/-- `inflight` is the sum of the coroutines' parts. -/
def Counted (this : ColodQmpState) : Prop :=
  ∃ cos : Finset Co, (∀ co ∉ cos, (this.ledger co).2 = 0) ∧
    this.inflight = ∑ co ∈ cos, (this.ledger co).2

structure Shared (this : ColodQmpState) : Prop where
  depth : ∀ co c, (this.ledger co).1 c =
    if (this.lock c).holder = some co then ((this.lock c).count : ℤ) else 0
  held : ∀ c, (this.lock c).holder = none ↔ (this.lock c).count = 0
  counted : Counted this
  exits : ∀ x ∈ this.exits, x.after = x.before

structure ThreadOk (this : ColodQmpState) (co : Co) (thread : Thread) : Prop where
  ledger : this.ledger co = thread.point.held + heldBy thread.below
  entry : thread.entry = heldBy thread.below
  entered : Entered thread.below
  linked : Linked co thread.point.fn thread.below
  lock : ∀ c yank command, thread.point = .lock c yank command → (heldBy thread.below).1 c = 0

def Ok (this : ColodQmpState) (co : Co) : Option Thread → Prop
  | none => this.ledger co = 0
  | some thread => ThreadOk this co thread

/-- What a run may do: the ways to crash, and whether a failure may come without an error. -/
structure Allowed where
  abort : Abort → Prop
  bare : Prop
  missing : bare → abort .missingError

/-- The coroutine has gone on from `before`: nobody else's ledger has changed, an error has stayed
set and the new exits are allowed. -/
structure Continued (allowed : Allowed) (before : ColodQmpState) (co : Co)
    (this : ColodQmpState) : Prop where
  shared : Shared this
  same : ∀ u ≠ co, this.ledger u = before.ledger u
  error : before.error.isSome = true → this.error.isSome = true
  bare : ∀ x ∈ this.exits, x ∈ before.exits ∨ (x.result = .failed none → allowed.bare)

/-- The coroutine has gone on until it is suspended or ends. -/
def Settled (allowed : Allowed) (before : ColodQmpState) (co : Co) : Turn → Prop
  | .error abort => allowed.abort abort
  | .ok (this, thread) => Continued allowed before co this ∧ Ok this co thread

def Next.held : Next → Ledger
  | .ret _ | .finished => 0
  | .park point => point.held
  | .call frame => frame.held

/-- The next step belongs to the function `fn` above the frames `k`. -/
def Next.Of (allowed : Allowed) (fn : Fn) (k : List Activation) : Next → Prop
  | .ret r => r = .failed none → allowed.bare
  | .finished => ∀ callee, fn ≠ .callee callee
  | .park point => point.fn = fn ∧
    ∀ c yank command, point = .lock c yank command → (heldBy k).1 c = 0
  | .call frame => frame.fn = fn

/-- The coroutine holds `held` besides what the frames `k` hold. -/
structure At (allowed : Allowed) (before : ColodQmpState) (co : Co) (k : List Activation)
    (held : Ledger) (this : ColodQmpState) : Prop extends Continued allowed before co this where
  ledger : this.ledger co = held + heldBy k

def Moves (allowed : Allowed) (before : ColodQmpState) (co : Co) (fn : Fn)
    (k : List Activation) : Reaction → Prop
  | .error abort => allowed.abort abort
  | .ok (this, next) => At allowed before co k next.held this ∧ next.Of allowed fn k

variable {lib : JsonGlib} {this before : ColodQmpState} {co u : Co} {c : ChannelName}
  {fn : Fn} {entry : Ledger} {k : List Activation} {r : Ret} {allowed : Allowed}

theorem held_nonneg (frame : Frame) : 0 ≤ frame.held.1 c ∧ 0 ≤ frame.held.2 := by
  have hsingle : ∀ d : ChannelName, 0 ≤ (Pi.single d 1 : ChannelName → ℤ) c := by
    intro d
    rw [Pi.single_apply]
    split_ifs <;> decide
  cases frame <;> simp [Frame.held, Ledger.lock, Ledger.unit, hsingle]

theorem heldBy_nonneg : 0 ≤ (heldBy k).1 c ∧ 0 ≤ (heldBy k).2 := by
  induction k with
  | nil => simp [heldBy]
  | cons a k ih =>
    have hframe := held_nonneg (c := c) a.frame
    simp only [heldBy, Prod.fst_add, Prod.snd_add, Pi.add_apply]
    omega

@[simp] theorem lock_fst_self : (Ledger.lock c).1 c = 1 := by simp [Ledger.lock]

theorem lock_fst (d : ChannelName) : (Ledger.lock c).1 d = if d = c then 1 else 0 := by
  simp [Ledger.lock, Pi.single_apply]

@[simp] theorem lock_snd : (Ledger.lock c).2 = 0 := rfl
@[simp] theorem unit_fst : Ledger.unit.1 c = 0 := rfl
@[simp] theorem unit_snd : Ledger.unit.2 = 1 := rfl

section Operations

@[simp] theorem acquire_ledger_self :
    (this.acquire co c).ledger co = this.ledger co + Ledger.lock c :=
  Function.update_self ..

theorem acquire_ledger (h : u ≠ co) : (this.acquire co c).ledger u = this.ledger u :=
  Function.update_of_ne h ..

@[simp] theorem release_ledger_self :
    (this.release co c).ledger co = this.ledger co - Ledger.lock c :=
  Function.update_self ..

theorem release_ledger (h : u ≠ co) : (this.release co c).ledger u = this.ledger u :=
  Function.update_of_ne h ..

@[simp] theorem count_ledger_self : (this.count co).ledger co = this.ledger co + Ledger.unit :=
  Function.update_self ..

theorem count_ledger (h : u ≠ co) : (this.count co).ledger u = this.ledger u :=
  Function.update_of_ne h ..

@[simp] theorem uncount_ledger_self :
    (this.uncount co).ledger co = this.ledger co - Ledger.unit :=
  Function.update_self ..

theorem uncount_ledger (h : u ≠ co) : (this.uncount co).ledger u = this.ledger u :=
  Function.update_of_ne h ..

/-- `inflight` stays the sum when it changes by as much as a coroutine's part. -/
theorem Counted.change {next : ColodQmpState} (h : Counted this) (co : Co) (change : ℤ)
    (hself : (next.ledger co).2 = (this.ledger co).2 + change)
    (hother : ∀ u ≠ co, (next.ledger u).2 = (this.ledger u).2)
    (hinflight : next.inflight = this.inflight + change) : Counted next := by
  obtain ⟨cos, houtside, hsum⟩ := h
  refine ⟨insert co cos, ?_, ?_⟩
  · intro u hu
    rw [Finset.mem_insert, not_or] at hu
    rw [hother u hu.1, houtside u hu.2]
  · have hinsert : ∑ u ∈ insert co cos, (this.ledger u).2 = ∑ u ∈ cos, (this.ledger u).2 :=
      Finset.sum_insert_of_eq_zero_if_notMem (houtside co)
    have hrest : ∑ u ∈ (insert co cos).erase co, (next.ledger u).2 =
        ∑ u ∈ (insert co cos).erase co, (this.ledger u).2 :=
      Finset.sum_congr rfl fun u hu => hother u (Finset.ne_of_mem_erase hu)
    have hmem := Finset.mem_insert_self co cos
    rw [hinflight, hsum, ← hinsert, ← Finset.add_sum_erase _ _ hmem,
      ← Finset.add_sum_erase _ (fun u => (next.ledger u).2) hmem, hrest, hself]
    abel

theorem Shared.count (h : Shared this) (co : Co) : Shared (this.count co) where
  depth u c := by
    refine Eq.trans ?_ (h.depth u c)
    by_cases hu : u = co
    · subst hu
      simp
    · rw [count_ledger hu]
  held := h.held
  counted := h.counted.change co 1 (by simp) (fun u hu => by rw [count_ledger hu]) rfl
  exits := h.exits

theorem Shared.uncount (h : Shared this) (co : Co) : Shared (this.uncount co) where
  depth u c := by
    refine Eq.trans ?_ (h.depth u c)
    by_cases hu : u = co
    · subst hu
      simp
    · rw [uncount_ledger hu]
  held := h.held
  counted := h.counted.change co (-1) (by simp [sub_eq_add_neg])
    (fun u hu => by rw [uncount_ledger hu]) rfl
  exits := h.exits

/-- A change of one lock and of its holder's depth. -/
theorem Shared.setLock (h : Shared this) {lock : ReentrantLock Co} {entry : Ledger}
    (hdepth : ∀ d, d ≠ c → entry.1 d = (this.ledger co).1 d)
    (hself : entry.1 c = if lock.holder = some co then (lock.count : ℤ) else 0)
    (hother : ∀ u ≠ co, (this.ledger u).1 c = if lock.holder = some u then (lock.count : ℤ) else 0)
    (hheld : lock.holder = none ↔ lock.count = 0) (hunits : entry.2 = (this.ledger co).2) :
    Shared (this.setLock co c lock entry) where
  depth u d := by
    by_cases hd : d = c
    · subst hd
      by_cases hu : u = co
      · subst hu
        simpa [ColodQmpState.setLock] using hself
      · simpa [ColodQmpState.setLock, hu] using hother u hu
    · rw [show (this.setLock co c lock entry).lock d = this.lock d from
        Function.update_of_ne hd ..]
      by_cases hu : u = co
      · subst hu
        simpa [ColodQmpState.setLock, hdepth d hd] using h.depth u d
      · simpa [ColodQmpState.setLock, hu] using h.depth u d
  held d := by
    by_cases hd : d = c
    · subst hd
      simpa [ColodQmpState.setLock] using hheld
    · rw [show (this.setLock co c lock entry).lock d = this.lock d from
        Function.update_of_ne hd ..]
      exact h.held d
  counted := by
    refine h.counted.change co 0 ?_ ?_ (add_zero _).symm
    · simpa [ColodQmpState.setLock] using hunits
    · intro u hu
      simp [ColodQmpState.setLock, hu]
  exits := h.exits

theorem Shared.holder_of_depth (h : Shared this) (hdepth : 0 < (this.ledger co).1 c) :
    (this.lock c).holder = some co := by
  by_contra hne
  have := h.depth co c
  rw [if_neg hne] at this
  omega

theorem Shared.acquire (h : Shared this)
    (havailable : (this.lock c).holder = none ∨ (this.lock c).holder = some co) :
    Shared (this.acquire co c) := by
  have hcount : (this.ledger co).1 c = ((this.lock c).count : ℤ) := by
    rw [h.depth co c]
    rcases havailable with hnone | hsome
    · simp [hnone, (h.held c).mp hnone]
    · rw [if_pos hsome]
  apply h.setLock
  · intro d hd
    simp [lock_fst, hd]
  · simp [ReentrantLock.acquire, hcount]
  · intro u hu
    rw [h.depth u c, if_neg, if_neg]
    · simpa [ReentrantLock.acquire] using Ne.symm hu
    · rcases havailable with hnone | hsome
      · simp [hnone]
      · rw [hsome]
        simpa using Ne.symm hu
  · simp [ReentrantLock.acquire]
  · simp

theorem Shared.release (h : Shared this) (hdepth : 0 < (this.ledger co).1 c) :
    Shared (this.release co c) := by
  have hholder := h.holder_of_depth hdepth
  have hcount : (this.ledger co).1 c = ((this.lock c).count : ℤ) := by
    rw [h.depth co c, if_pos hholder]
  have hother : ∀ u ≠ co, (this.ledger u).1 c = 0 := by
    intro u hu
    rw [h.depth u c, if_neg]
    rw [hholder]
    simpa using Ne.symm hu
  apply h.setLock
  · intro d hd
    simp [lock_fst, hd]
  · unfold ReentrantLock.release
    by_cases hlast : (this.lock c).count - 1 = 0
    · simp [hlast, hcount]
      omega
    · simp [hlast, hholder, hcount]
      omega
  · intro u hu
    unfold ReentrantLock.release
    by_cases hlast : (this.lock c).count - 1 = 0
    · simp [hlast, hother u hu]
    · rw [if_neg hlast, if_neg, hother u hu]
      rw [hholder]
      simpa using Ne.symm hu
  · unfold ReentrantLock.release
    by_cases hlast : (this.lock c).count - 1 = 0
    · simp [hlast]
    · simp [hlast, hholder]
  · simp

theorem Shared.setError (h : Shared this) (error : GError) : Shared (this.qmpSetError error) :=
  ⟨h.depth, h.held, h.counted, h.exits⟩

theorem Shared.setManagement (h : Shared this) (management : Management) :
    Shared { this with management } :=
  ⟨h.depth, h.held, h.counted, h.exits⟩

/-- A function exits with the ledger it started with. -/
theorem Shared.exit (h : Shared this) (hledger : this.ledger co = entry) :
    Shared (this.exit co fn entry r) where
  depth := h.depth
  held := h.held
  counted := h.counted
  exits x hx := by
    simp only [ColodQmpState.exit, List.mem_append, List.mem_singleton] at hx
    rcases hx with hx | rfl
    · exact h.exits x hx
    · exact hledger

/-- `colod_lock_co` acquires the lock unless another coroutine holds it. -/
theorem colodLockCo_cases (h : Shared this) (co : Co) (c : ChannelName) :
    (this.colodLockCo co c = .ok (some (this.acquire co c)) ∧ Shared (this.acquire co c)) ∨
      (this.colodLockCo co c = .ok none ∧ (this.ledger co).1 c = 0) := by
  unfold ColodQmpState.colodLockCo
  by_cases hself : (this.lock c).holder = some co
  · left
    have hcount : (this.lock c).count ≠ 0 := by
      intro hzero
      rw [(h.held c).mpr hzero] at hself
      cases hself
    rw [if_pos hself, if_neg hcount]
    exact ⟨rfl, h.acquire (.inr hself)⟩
  · rw [if_neg hself]
    by_cases hother : (this.lock c).holder.isSome
    · right
      rw [if_pos hother]
      exact ⟨rfl, by rw [h.depth co c, if_neg hself]⟩
    · left
      have hnone : (this.lock c).holder = none := by simpa using hother
      rw [if_neg hother, if_pos ((h.held c).mp hnone)]
      exact ⟨rfl, h.acquire (.inl hnone)⟩

/-- A coroutine that holds the lock can unlock it. -/
theorem colodUnlockCo_eq (h : Shared this) (hdepth : 0 < (this.ledger co).1 c) :
    this.colodUnlockCo co c = .ok (this.release co c) := by
  have hholder := h.holder_of_depth hdepth
  have hcount : (this.lock c).count ≠ 0 := by
    intro hzero
    rw [(h.held c).mpr hzero] at hholder
    cases hholder
  rw [ColodQmpState.colodUnlockCo, if_pos ⟨hholder, hcount⟩]

end Operations

section Reactions
variable {held : Ledger}

theorem At.release (h : At allowed before co k (Ledger.lock c + held) this)
    (hheld : 0 ≤ held.1 c) :
    this.colodUnlockCo co c = .ok (this.release co c) ∧
      At allowed before co k held (this.release co c) := by
  have hdepth : 0 < (this.ledger co).1 c := by
    have hbelow := (heldBy_nonneg (c := c) (k := k)).1
    rw [h.ledger]
    simp only [Prod.fst_add, Pi.add_apply, lock_fst_self]
    omega
  refine ⟨colodUnlockCo_eq h.shared hdepth,
    ⟨h.shared.release hdepth, ?_, h.error, h.bare⟩, ?_⟩
  · intro u hu
    rw [release_ledger hu, h.same u hu]
  · rw [release_ledger_self, h.ledger]
    abel

theorem At.uncount (h : At allowed before co k (Ledger.unit + held) this) :
    At allowed before co k held (this.uncount co) where
  shared := h.shared.uncount co
  same u hu := by rw [uncount_ledger hu, h.same u hu]
  error := h.error
  bare := h.bare
  ledger := by
    rw [uncount_ledger_self, h.ledger]
    abel

theorem At.uncount_unit (h : At allowed before co k Ledger.unit this) :
    At allowed before co k 0 (this.uncount co) :=
  At.uncount (by rwa [add_zero])

theorem At.setError (h : At allowed before co k held this) (error : GError) :
    At allowed before co k held (this.qmpSetError error) :=
  ⟨⟨h.shared.setError error, h.same, fun _ => rfl, h.bare⟩, h.ledger⟩

theorem At.setManagement (h : At allowed before co k held this) (management : Management) :
    At allowed before co k held { this with management } :=
  ⟨⟨h.shared.setManagement management, h.same, h.error, h.bare⟩, h.ledger⟩

theorem moves_ret (h : At allowed before co k 0 this) (hr : r = .failed none → allowed.bare) :
    Moves allowed before co fn k (.ok (this, .ret r)) :=
  ⟨h, hr⟩

theorem moves_failed (h : At allowed before co k 0 this) (error : GError) :
    Moves allowed before co fn k (.ok (this, .ret (.failed (some error)))) :=
  moves_ret h (by simp)

theorem moves_call (frame : Frame) (h : At allowed before co k frame.held this) :
    Moves allowed before co frame.fn k (.ok (this, .call frame)) :=
  ⟨h, rfl⟩

theorem moves_unlocked {next : ColodQmpState → Reaction}
    (h : At allowed before co k (Ledger.lock c + Ledger.unit) this)
    (hnext : ∀ this, At allowed before co k Ledger.unit this →
      Moves allowed before co fn k (next this)) :
    Moves allowed before co fn k (unlocked this co c next) := by
  obtain ⟨hunlock, hat⟩ := h.release le_rfl
  rw [unlocked, hunlock]
  exact hnext _ hat

theorem moves_finished (h : At allowed before co k 0 this)
    (hfn : ∀ callee, fn ≠ .callee callee) :
    Moves allowed before co fn k (.ok (this, .finished)) :=
  ⟨h, hfn⟩

theorem moves_endWithError {error : Option GError}
    (h : At allowed before co k Ledger.unit this) (hfn : ∀ callee, fn ≠ .callee callee)
    (herror : error = none → allowed.bare) :
    Moves allowed before co fn k (endWithError this co error) := by
  cases error with
  | none => exact allowed.missing (herror rfl)
  | some error => exact moves_finished (h.setError error).uncount_unit hfn

theorem moves_passError {error : Option GError} (h : At allowed before co k 0 this)
    (herror : error = none → allowed.bare) :
    Moves allowed before co fn k (passError this error) := by
  cases error with
  | none => exact allowed.missing (herror rfl)
  | some error => exact moves_failed h error

theorem moves_executeRead (h : At allowed before co k (Ledger.lock c + Ledger.unit) this)
    (hr : r = .failed none → allowed.bare) :
    Moves allowed before co fn k (executeRead this co c r) := by
  apply moves_unlocked h
  intro this hat
  cases r with
  | failed error =>
    cases error with
    | none => exact allowed.missing (hr rfl)
    | some error => exact moves_failed (hat.uncount_unit.setError error) _
  | _ => exact moves_ret hat.uncount_unit hr

theorem moves_writeFailed {error : GError}
    (h : At allowed before co k (Ledger.lock c + Ledger.unit) this) :
    Moves allowed before co fn k (writeFailed this co c error) := by
  apply moves_unlocked (h.setError error)
  intro this hat
  exact moves_failed hat.uncount_unit _

theorem moves_queryYankReturned (h : At allowed before co k 0 this)
    (hr : r = .failed none → allowed.bare) (hyank : allowed.abort .yankInstances) :
    Moves allowed before co (.callee .yank) k (queryYankReturned lib this r) := by
  cases r with
  | line result =>
    simp only [queryYankReturned]
    split_ifs
    · exact moves_failed h _
    · cases pickYankInstances lib result.members this.management.yankInstances with
      | none => exact hyank
      | some instances => exact moves_call (.yankCommand _) h
  | _ => exact moves_ret h hr

theorem moves_yankReturned {command : String} (h : At allowed before co k 0 this)
    (hr : r = .failed none → allowed.bare) :
    Moves allowed before co fn k (yankReturned this command r) := by
  cases r with
  | line result =>
    simp only [yankReturned]
    split_ifs
    · exact moves_failed h _
    · exact moves_ret h (by simp)
  | _ => exact moves_ret h hr

theorem moves_greetingReturned (h : At allowed before co k (Ledger.lock c + Ledger.unit) this)
    (hr : r = .failed none → allowed.bare) :
    Moves allowed before co (.handshake c) k (greetingReturned this co c r) := by
  cases r with
  | failed error =>
    apply moves_unlocked h
    intro this hat
    exact moves_endWithError hat (by simp) (fun herror => hr (herror ▸ rfl))
  | _ => exact moves_call (.capabilities c) h

theorem moves_capabilitiesReturned
    (h : At allowed before co k (Ledger.lock c + Ledger.unit) this)
    (hr : r = .failed none → allowed.bare) :
    Moves allowed before co (.handshake c) k (capabilitiesReturned this co c r) := by
  apply moves_unlocked h
  intro this hat
  cases r with
  | failed error => exact moves_endWithError hat (by simp) (fun herror => hr (herror ▸ rfl))
  | line result =>
    simp only
    split_ifs
    · exact moves_endWithError hat (by simp) (by simp)
    · exact moves_finished hat.uncount_unit (by simp)
  | done => exact moves_finished hat.uncount_unit (by simp)

theorem moves_eventReturned (h : At allowed before co k (Ledger.lock c + Ledger.unit) this)
    (hr : r = .failed none → allowed.bare) :
    Moves allowed before co (.event c) k (eventReturned this co c r) := by
  have hwatch : ∀ this : ColodQmpState, At allowed before co k Ledger.unit this →
      Moves allowed before co (.event c) k (.ok (this, .park (.watching c))) := by
    intro this hat
    exact ⟨hat, rfl, by simp⟩
  apply moves_unlocked h
  intro this hat
  cases r with
  | failed error => exact moves_endWithError hat (by simp) (fun herror => hr (herror ▸ rfl))
  | line result =>
    simp only
    split_ifs
    · exact hwatch _ hat
    · exact hwatch _ (hat.setError _)
  | done => exact hwatch _ hat

theorem moves_executeNocheckReturned (h : At allowed before co k 0 this)
    (hr : r = .failed none → allowed.bare) :
    Moves allowed before co fn k (executeNocheckReturned this r) := by
  unfold executeNocheckReturned
  split
  · exact moves_passError h (fun herror => hr (herror ▸ rfl))
  · split
    · exact moves_failed h _
    · exact moves_ret h hr

theorem moves_colodExecuteReturned {command : String} (h : At allowed before co k 0 this)
    (hr : r = .failed none → allowed.bare) :
    Moves allowed before co fn k (colodExecuteReturned this command r) := by
  unfold colodExecuteReturned
  split
  · split_ifs
    · exact moves_failed h _
    · exact moves_ret h hr
  · exact moves_ret h hr

theorem moves_colodYankReturned (h : At allowed before co k 0 this)
    (hr : r = .failed none → allowed.bare) :
    Moves allowed before co fn k (colodYankReturned this r) := by
  unfold colodYankReturned
  split
  · exact moves_passError h (fun herror => hr (herror ▸ rfl))
  · exact moves_ret h hr

theorem moves_healthStatusReturned (h : At allowed before co k 0 this)
    (hr : r = .failed none → allowed.bare) :
    Moves allowed before co (.callee .checkHealth) k (healthStatusReturned this r) := by
  cases r with
  | failed error => exact moves_passError h (fun herror => hr (herror ▸ rfl))
  | line result => exact moves_call (.healthColoStatus result) h
  | done => exact moves_ret h hr

theorem checkHealth_ne_bare (qemuStatus coloStatus : ColodQmpResult) :
    checkHealth this qemuStatus coloStatus ≠ .failed none := by
  unfold checkHealth
  split
  · simp
  · simp only
    split_ifs <;> simp

theorem moves_healthColoStatusReturned {qemuStatus : ColodQmpResult}
    (h : At allowed before co k 0 this) (hr : r = .failed none → allowed.bare) :
    Moves allowed before co fn k (healthColoStatusReturned this qemuStatus r) := by
  cases r with
  | failed error => exact moves_passError h (fun herror => hr (herror ▸ rfl))
  | line coloStatus =>
    exact moves_ret h (fun hbare => absurd hbare (checkHealth_ne_bare qemuStatus coloStatus))
  | done => exact moves_ret h hr

theorem moves_writeReply {stoppedQemu : Bool} {result : Option ColodQmpResult}
    (h : At allowed before co k 0 this) (hreply : allowed.abort .replyAssertion) :
    Moves allowed before co .client k (writeReply this stoppedQemu result) := by
  cases result with
  | none => exact hreply
  | some result => exact ⟨h, rfl, by simp⟩

theorem moves_clientReturned {stoppedQemu : Bool} {call : QemuCall}
    (h : At allowed before co k 0 this) (hr : r = .failed none → allowed.bare)
    (hreply : allowed.abort .replyAssertion) :
    Moves allowed before co .client k (clientReturned lib this stoppedQemu call r) := by
  unfold clientReturned
  split
  · exact allowed.missing (hr rfl)
  all_goals exact moves_writeReply h hreply

theorem moves_errorClient {stoppedQemu : Bool} {error : Option GError}
    (h : At allowed before co k 0 this) (herror : error = none → allowed.bare) :
    Moves allowed before co .client k (errorClient this stoppedQemu error) := by
  cases error with
  | none => exact allowed.missing (herror rfl)
  | some error =>
    cases stoppedQemu with
    | true => exact moves_call (.closing _) h
    | false => exact moves_finished h (by simp)

theorem moves_closingReturned {localErrp : LocalError} (h : At allowed before co k 0 this)
    (hr : r = .failed none → allowed.bare)
    (hdangling : localErrp = .dangling → (∃ error, r = .failed error) →
      allowed.abort .danglingError) :
    Moves allowed before co .client k (closingReturned this localErrp r) := by
  unfold closingReturned
  split
  · split
    · exact hdangling rfl ⟨_, rfl⟩
    · exact allowed.missing (hr rfl)
    · exact moves_finished h (by simp)
  · exact moves_finished h (by simp)

theorem moves_clientRead {stoppedQemu : Bool} {line : String} (h : At allowed before co k 0 this)
    (hline : this.clientsQuit = false → qmpParseResult lib line = .error none → allowed.bare)
    (hreply : allowed.abort .replyAssertion) :
    Moves allowed before co .client k (clientRead lib this stoppedQemu line) := by
  unfold clientRead
  split_ifs with hquit
  · exact moves_finished h (by simp)
  · split
    · rename_i herror
      exact moves_errorClient h (fun hnone => hline (by simpa using hquit) (hnone ▸ herror))
    · split
      · exact moves_writeReply (h.setManagement _) hreply
      · exact moves_call (.clientWaiting _ _) (h.setManagement _)

theorem moves_react {frame : Frame} (h : At allowed before co k frame.held this)
    (hr : r = .failed none → allowed.bare) (hyank : allowed.abort .yankInstances)
    (hreply : allowed.abort .replyAssertion)
    (hdangling : frame = .closing .dangling → (∃ error, r = .failed error) →
      allowed.abort .danglingError) :
    Moves allowed before co frame.fn k (react lib this co frame r) := by
  cases frame with
  | yanking c skipEvents =>
    cases r with
    | failed error => exact moves_passError h (fun herror => hr (herror ▸ rfl))
    | _ => exact moves_call (.again c skipEvents) h
  | again => exact moves_ret h hr
  | read => exact moves_executeRead h hr
  | queryYank => exact moves_queryYankReturned h hr hyank
  | yankCommand => exact moves_yankReturned h hr
  | greeting => exact moves_greetingReturned h hr
  | capabilities => exact moves_capabilitiesReturned h hr
  | eventRead => exact moves_eventReturned h hr
  | executeNocheck => exact moves_executeNocheckReturned h hr
  | colodExecute => exact moves_colodExecuteReturned h hr
  | colodYank => exact moves_colodYankReturned h hr
  | healthStatus => exact moves_healthStatusReturned h hr
  | healthColoStatus => exact moves_healthColoStatusReturned h hr
  | clientWaiting => exact moves_clientReturned h hr hreply
  | closing localErrp =>
    exact moves_closingReturned h hr (fun hlocal => hdangling (congrArg Frame.closing hlocal))

/-- A line is parsed that has no value in it. -/
def Outcome.bare (lib : JsonGlib) (this : ColodQmpState) (point : Point) : Outcome → Prop
  | .line text => (point.fn = .client → this.clientsQuit = false) ∧
    qmpParseResult lib text = .error none
  | _ => False

theorem moves_reactIo {point : Point} {outcome : Outcome} {reaction : Reaction}
    (h : At allowed before co k point.held this)
    (hreact : reactIo lib this co point outcome = some reaction)
    (hbare : outcome.bare lib this point → allowed.bare)
    (hreply : allowed.abort .replyAssertion) :
    Moves allowed before co point.fn k reaction := by
  unfold reactIo at hreact
  split at hreact
  · cases hreact
    unfold lineRead
    split
    · rename_i herror
      refine moves_ret h (fun hfailed => hbare ⟨by simp [Point.fn], ?_⟩)
      cases hfailed
      exact herror
    · split_ifs
      · exact ⟨h, rfl, by simp⟩
      · exact ⟨h, rfl, by simp⟩
      · exact moves_ret h (by simp)
  · cases hreact
    unfold lineFailed
    split_ifs with hyank
    · simp only [Bool.and_eq_true, decide_eq_true_eq] at hyank
      rw [hyank.2]
      exact moves_call (.yanking _ _) h
    · exact moves_failed h _
  · cases hreact
    exact moves_call (.read _ _ _) h
  · cases hreact
    exact moves_writeFailed h
  · cases hreact
    exact moves_clientRead h (fun hquit hline => hbare ⟨fun _ => hquit, hline⟩) hreply
  · cases hreact
    split_ifs
    · exact moves_finished h (by simp [Point.fn])
    · exact moves_errorClient h (by simp)
  · cases hreact
    split_ifs
    · exact moves_finished h (by simp [Point.fn])
    · exact ⟨h, rfl, by simp⟩
  · cases hreact
    exact moves_errorClient h (by simp)
  · cases hreact

/-- The coroutine goes on with the lock, or waits for it and holds nothing of it. -/
theorem moves_locked {wait : Point} {next : Next} (h : At allowed before co k Ledger.unit this)
    (hwait : wait.held = Ledger.unit) (hfn : wait.fn = fn)
    (hlock : ∀ d yank command, wait = .lock d yank command → d = c)
    (hnext : next.held = Ledger.lock c + Ledger.unit) (hof : next.Of allowed fn k) :
    Moves allowed before co fn k (locked this co c wait next) := by
  unfold locked
  rcases colodLockCo_cases h.shared co c with ⟨heq, hshared⟩ | ⟨heq, hdepth⟩
  · rw [heq]
    refine ⟨⟨⟨hshared, ?_, h.error, h.bare⟩, ?_⟩, hof⟩
    · intro u hu
      rw [acquire_ledger hu, h.same u hu]
    · rw [acquire_ledger_self, h.ledger, hnext]
      abel
  · rw [heq]
    refine ⟨⟨h.toContinued, by rw [h.ledger]; exact congrArg (· + heldBy k) hwait.symm⟩,
      hfn, ?_⟩
    intro d yank command hpoint
    rw [hlock d yank command hpoint]
    simpa [h.ledger] using hdepth

theorem moves_reactResume {point : Point} {reaction : Reaction}
    (h : At allowed before co k point.held this)
    (hreact : reactResume this co point = some reaction) :
    Moves allowed before co point.fn k reaction := by
  have hevent : ∀ c, At allowed before co k Ledger.unit this →
      (if (this.lock c).holder.isSome then some (.ok (this, .park (.waitHolder c)))
        else some (locked this co c (.waitHolder c) (.call (.eventRead c)))) = some reaction →
      Moves allowed before co (.event c) k reaction := by
    intro c hat hreact
    split_ifs at hreact
    · cases hreact
      exact ⟨hat, rfl, by simp⟩
    · cases hreact
      exact moves_locked hat rfl rfl (by simp) rfl rfl
  cases point with
  | idle c yank skipEvents =>
    cases hreact
    exact ⟨h, rfl, by simp⟩
  | lock c yank command =>
    cases hreact
    exact moves_locked h rfl rfl (by simp) rfl ⟨rfl, by simp⟩
  | start c =>
    cases hreact
    exact moves_call (.greeting c) h
  | watching c => exact hevent c h hreact
  | waitHolder c => exact hevent c h hreact
  | _ => cases hreact

end Reactions

section Threads

theorem Continued.refl (h : Shared this) : Continued allowed this co this :=
  ⟨h, fun _ _ => rfl, id, fun _ hx => .inl hx⟩

theorem Continued.trans {next : ColodQmpState} (h : Continued allowed before co this)
    (hnext : Continued allowed this co next) : Continued allowed before co next where
  shared := hnext.shared
  same u hu := (hnext.same u hu).trans (h.same u hu)
  error := hnext.error ∘ h.error
  bare x hx := (hnext.bare x hx).elim (h.bare x) .inr

theorem settled_startExecute {yank : Bool} {command : String} (hshared : Shared this)
    (hledger : this.ledger co = heldBy k) (hentered : Entered k)
    (hlinked : Linked co (.callee (.execute c yank command)) k) :
    Settled allowed this co (startExecute this co c yank command k) := by
  have hcounted : (this.count co).ledger co = Ledger.unit + heldBy k := by
    rw [count_ledger_self, hledger, add_comm]
  unfold startExecute
  rcases colodLockCo_cases (hshared.count co) co c with
    ⟨heq, hacquired⟩ | ⟨heq, hdepth⟩
  · rw [heq]
    refine ⟨⟨hacquired, ?_, id, fun _ hx => .inl hx⟩, ?_, hledger, hentered, hlinked, by simp⟩
    · intro u hu
      rw [acquire_ledger hu, count_ledger hu]
    · rw [acquire_ledger_self, hcounted, Point.held]
      abel
  · rw [heq]
    refine ⟨⟨hshared.count co, fun u hu => count_ledger hu, id, fun _ hx => .inl hx⟩, hcounted,
      hledger, hentered, hlinked, ?_⟩
    intro d yank command hpoint
    cases hpoint
    rw [hcounted] at hdepth
    simpa using hdepth

theorem startExecute_ok {yank : Bool} {command : String} (h : Shared this) :
    ∃ next point, startExecute this co c yank command k =
      .ok (next, some ⟨point, this.ledger co, k⟩) := by
  unfold startExecute
  rcases colodLockCo_cases (h.count co) co c with ⟨heq, -⟩ | ⟨heq, -⟩
  · rw [heq]
    exact ⟨_, _, rfl⟩
  · rw [heq]
    exact ⟨_, _, rfl⟩

theorem startCallee_ok (h : Shared this) (co : Co) (k : List Activation) (callee : Callee) :
    ∃ next thread, startCallee this co k callee = .ok (next, some thread) := by
  cases callee with
  | readLine => exact ⟨_, _, rfl⟩
  | _ =>
    obtain ⟨next, point, heq⟩ := startExecute_ok h
    exact ⟨next, _, heq⟩

theorem settled_startCallee {callee : Callee} (hshared : Shared this)
    (hledger : this.ledger co = heldBy k) (hentered : Entered k)
    (hlinked : Linked co (.callee callee) k) :
    Settled allowed this co (startCallee this co k callee) := by
  have hpush : ∀ frame : Frame, frame.held = 0 → ∀ k, this.ledger co = heldBy k →
      this.ledger co = heldBy (⟨frame, this.ledger co⟩ :: k) := by
    intro frame hheld k hledger
    rw [heldBy, hheld, zero_add, hledger]
  cases callee with
  | readLine c yank skipEvents =>
    refine ⟨.refl hshared, ?_, hledger, hentered, hlinked, by simp⟩
    rw [Point.held, zero_add, hledger]
  | execute c yank command => exact settled_startExecute hshared hledger hentered hlinked
  | yank =>
    exact settled_startExecute hshared (hpush .queryYank rfl _ hledger) ⟨hledger, hentered⟩
      ⟨rfl, hlinked⟩
  | executeNocheck command =>
    exact settled_startExecute hshared (hpush (.executeNocheck command) rfl _ hledger)
      ⟨hledger, hentered⟩ ⟨rfl, hlinked⟩
  | colodExecute command =>
    have hbelow := hpush (.colodExecute command) rfl _ hledger
    exact settled_startExecute hshared (hpush (.executeNocheck command) rfl _ hbelow)
      ⟨hbelow, hledger, hentered⟩ ⟨rfl, rfl, hlinked⟩
  | colodYank =>
    have hbelow := hpush .colodYank rfl _ hledger
    exact settled_startExecute hshared (hpush .queryYank rfl _ hbelow)
      ⟨hbelow, hledger, hentered⟩ ⟨rfl, rfl, hlinked⟩
  | checkHealth =>
    have hbelow := hpush .healthStatus rfl _ hledger
    have hbelow' := hpush (.colodExecute queryStatusText) rfl _ hbelow
    exact settled_startExecute hshared (hpush (.executeNocheck queryStatusText) rfl _ hbelow')
      ⟨hbelow', hbelow, hledger, hentered⟩ ⟨rfl, rfl, rfl, hlinked⟩

theorem Settled.of_continued {turn : Turn} (h : Settled allowed this co turn)
    (hcontinued : Continued allowed before co this) : Settled allowed before co turn := by
  cases turn with
  | error abort => exact h
  | ok result => exact ⟨hcontinued.trans h.1, h.2⟩

theorem Continued.exit (h : Continued allowed before co this) (hledger : this.ledger co = entry)
    (hr : r = .failed none → allowed.bare) :
    Continued allowed before co (this.exit co fn entry r) where
  shared := h.shared.exit hledger
  same := h.same
  error := h.error
  bare x hx := by
    simp only [ColodQmpState.exit, List.mem_append, List.mem_singleton] at hx
    rcases hx with hx | rfl
    · exact h.bare x hx
    · exact .inr hr

/-- A property of what the functions return, under which the end of `error_client` is allowed. -/
structure Flow (allowed : Allowed) (lib : JsonGlib) (co : Co) (k : List Activation)
    (P : ColodQmpState → Ret → Prop) : Prop where
  exit : ∀ this fn entry r r', P this r → P (this.exit co fn entry r') r
  react : ∀ a ∈ k, ∀ this r this' r', P this r →
    react lib this co a.frame r = .ok (this', .ret r') → P this' r'
  closing : ∀ a ∈ k, ∀ this r, P this r → a.frame = .closing .dangling →
    (∃ error, r = .failed error) → allowed.abort .danglingError

/-- However far the functions get, the coroutine holds what its frames hold. -/
theorem settled_drive {reaction : Reaction} {P : ColodQmpState → Ret → Prop}
    (hmoves : Moves allowed before co fn k reaction) (hentry : entry = heldBy k)
    (hentered : Entered k) (hlinked : Linked co fn k) (hyank : allowed.abort .yankInstances)
    (hreply : allowed.abort .replyAssertion) (hflow : Flow allowed lib co k P)
    (hP : ∀ this r, reaction = .ok (this, .ret r) → P this r) :
    Settled allowed before co (drive lib co fn entry k reaction) := by
  induction k generalizing fn entry reaction with
  | nil =>
    match reaction with
    | .error abort => exact hmoves
    | .ok (this, next) =>
      obtain ⟨hat, hof⟩ := hmoves
      have hledger := hat.ledger
      cases next with
      | park point =>
        exact ⟨hat.toContinued, hledger, hentry, hentered, hof.1 ▸ hlinked, hof.2⟩
      | call frame =>
        apply (settled_startCallee hat.shared ?_ ?_ ?_).of_continued hat.toContinued
        · exact hledger
        · exact ⟨hentry, hentered⟩
        · exact ⟨rfl, hof ▸ hlinked⟩
      | finished =>
        have hzero : this.ledger co = 0 := by simpa [Next.held, heldBy] using hledger
        exact ⟨hat.toContinued.exit (hzero.trans hentry.symm) (by simp), hzero⟩
      | ret r =>
        have hzero : this.ledger co = 0 := by simpa [Next.held, heldBy] using hledger
        exact ⟨hat.toContinued.exit (hzero.trans hentry.symm) hof, hzero⟩
  | cons a k ih =>
    match reaction with
    | .error abort => exact hmoves
    | .ok (this, next) =>
      obtain ⟨hat, hof⟩ := hmoves
      have hledger := hat.ledger
      cases next with
      | park point =>
        exact ⟨hat.toContinued, hledger, hentry, hentered, hof.1 ▸ hlinked, hof.2⟩
      | call frame =>
        apply (settled_startCallee hat.shared ?_ ?_ ?_).of_continued hat.toContinued
        · exact hledger
        · exact ⟨hentry, hentered⟩
        · exact ⟨rfl, hof ▸ hlinked⟩
      | finished => exact absurd hlinked.1 (hof _)
      | ret r =>
        -- the function below goes on with the ledger of its frame
        have hreturned : this.ledger co = entry := by
          rw [hledger, hentry, Next.held, zero_add]
        have hframe : At allowed before co k a.frame.held (this.exit co fn entry r) :=
          ⟨hat.toContinued.exit hreturned hof, hreturned.trans hentry⟩
        have hexit := hflow.exit _ fn entry _ r (hP this r rfl)
        have hmem : a ∈ a :: k := List.mem_cons_self
        refine ih (moves_react hframe hof hyank hreply ?_) hentered.1 hentered.2 hlinked.2 ?_ ?_
        · exact hflow.closing a hmem _ _ hexit
        · exact ⟨hflow.exit, fun b hb => hflow.react b (List.mem_cons_of_mem _ hb),
            fun b hb => hflow.closing b (List.mem_cons_of_mem _ hb)⟩
        · intro this' r' heq
          exact hflow.react a hmem _ _ _ _ hexit heq

end Threads

/-- The invariant of the balance. -/
structure Balanced (s : System) : Prop where
  shared : Shared s.qmp
  threads : ∀ co, Ok s.qmp co (s.thread co)
  unlocks : s.aborted ≠ some .lockAssertion

section Steps
variable {s t : System}

theorem Ok.of_ledger {thread : Option Thread} (h : Ok before u thread)
    (hledger : this.ledger u = before.ledger u) : Ok this u thread := by
  cases thread with
  | none => exact hledger.trans h
  | some thread => exact ⟨hledger.trans h.ledger, h.entry, h.entered, h.linked, h.lock⟩

theorem suspended_held (frame : Frame) : frame.suspended.held = frame.held := by
  cases frame <;> rfl

theorem heldBy_suspended (k : List Activation) : heldBy (suspended k) = heldBy k := by
  induction k with
  | nil => rfl
  | cons a k ih =>
    have hcons : heldBy (suspended (a :: k)) = a.frame.suspended.held + heldBy (suspended k) := rfl
    rw [hcons, ih, suspended_held]
    rfl

theorem entered_suspended (k : List Activation) : Entered (suspended k) ↔ Entered k := by
  induction k with
  | nil => exact Iff.rfl
  | cons a k ih =>
    have hcons : Entered (suspended (a :: k)) ↔
        a.entry = heldBy (suspended k) ∧ Entered (suspended k) := Iff.rfl
    rw [hcons, ih, heldBy_suspended]
    rfl

theorem linked_suspended (k : List Activation) : Linked co fn (suspended k) ↔ Linked co fn k := by
  induction k generalizing fn with
  | nil => exact Iff.rfl
  | cons a k ih =>
    have hcons : Linked co fn (suspended (a :: k)) ↔
        fn = .callee a.frame.suspended.callee ∧ Linked co a.frame.suspended.fn (suspended k) :=
      Iff.rfl
    have hsame : a.frame.suspended.callee = a.frame.callee ∧ a.frame.suspended.fn = a.frame.fn := by
      cases a.frame <;> exact ⟨rfl, rfl⟩
    rw [hcons, hsame.1, hsame.2, ih]
    rfl

theorem ThreadOk.suspended {thread : Thread} (h : ThreadOk this co thread) :
    ThreadOk this co { thread with below := QmpFrames.suspended thread.below } where
  ledger := by rw [heldBy_suspended, h.ledger]
  entry := by rw [heldBy_suspended, h.entry]
  entered := (entered_suspended _).mpr h.entered
  linked := (linked_suspended _).mpr h.linked
  lock c yank command hpoint := by
    rw [heldBy_suspended]
    exact h.lock c yank command hpoint

theorem flow_suspended (allowed : Allowed) :
    Flow allowed lib co (suspended k) (fun _ _ => True) where
  exit _ _ _ _ _ h := h
  react _ _ _ _ _ _ _ _ := trivial
  closing a ha _ _ _ hframe := by
    obtain ⟨b, -, rfl⟩ := List.mem_map.mp ha
    cases hb : b.frame <;> simp [hb, Frame.suspended] at hframe

/-- Every flow is allowed where the dangling error is. -/
theorem flow_dangling (hdangling : allowed.abort .danglingError) :
    Flow allowed lib co k (fun _ _ => True) where
  exit _ _ _ _ _ h := h
  react _ _ _ _ _ _ _ _ := trivial
  closing _ _ _ _ _ _ _ := hdangling

/-- A thread that reacts at its point. -/
theorem settled_thread {thread : Thread} {reaction : Reaction}
    {P : ColodQmpState → Ret → Prop} (hshared : Shared this) (hthread : ThreadOk this co thread)
    (hmoves : At allowed this co thread.below thread.point.held this →
      Moves allowed this co thread.point.fn thread.below reaction)
    (hyank : allowed.abort .yankInstances) (hreply : allowed.abort .replyAssertion)
    (hflow : Flow allowed lib co thread.below P)
    (hP : ∀ this r, reaction = .ok (this, .ret r) → P this r) :
    Settled allowed this co
      (drive lib co thread.point.fn thread.entry thread.below reaction) :=
  settled_drive (hmoves ⟨.refl hshared, hthread.ledger⟩) hthread.entry hthread.entered
    hthread.linked hyank hreply hflow hP

theorem Balanced.threadOk (h : Balanced s) {thread : Thread}
    (hthread : s.thread co = some thread) : ThreadOk s.qmp co thread := by
  have hok := h.threads co
  rwa [hthread] at hok

theorem Balanced.ledger_of_none (h : Balanced s) (hthread : s.thread co = none) :
    s.qmp.ledger co = 0 := by
  have hok := h.threads co
  rwa [hthread] at hok

theorem settled_resume (h : Balanced s) (hstep : s.resume lib co = some t)
    (hyank : allowed.abort .yankInstances) (hreply : allowed.abort .replyAssertion) :
    ∃ turn, t = s.settle co turn ∧ Settled allowed s.qmp co turn := by
  obtain ⟨thread, hthread, hstep⟩ := Option.bind_eq_some_iff.mp hstep
  obtain ⟨reaction, hreaction, hstep⟩ := Option.bind_eq_some_iff.mp hstep
  cases hstep
  refine ⟨_, rfl, settled_thread h.shared (h.threadOk hthread).suspended
    (fun hat => moves_reactResume hat hreaction) hyank hreply (flow_suspended _) ?_⟩
  simp

/-- Unless the coroutine was suspended, the functions must return what the end of `error_client`
can take. -/
def Immediate (allowed : Allowed) (lib : JsonGlib) (s : System) (co : Co) (outcome : Outcome) :
    Prop :=
  ∀ thread reaction, s.thread co = some thread →
    reactIo lib s.qmp co thread.point outcome = some reaction →
    ∃ P, Flow allowed lib co thread.below P ∧ ∀ this r, reaction = .ok (this, .ret r) → P this r

theorem settled_io {waited : Bool} {outcome : Outcome} (h : Balanced s)
    (hstep : s.io lib co waited outcome = some t) (hyank : allowed.abort .yankInstances)
    (hreply : allowed.abort .replyAssertion)
    (hbare : ∀ thread, s.thread co = some thread → outcome.bare lib s.qmp thread.point →
      allowed.bare)
    (himmediate : waited = false → Immediate allowed lib s co outcome) :
    ∃ turn, t = s.settle co turn ∧ Settled allowed s.qmp co turn := by
  obtain ⟨thread, hthread, hstep⟩ := Option.bind_eq_some_iff.mp hstep
  obtain ⟨reaction, hreaction, hstep⟩ := Option.bind_eq_some_iff.mp hstep
  cases hstep
  refine ⟨_, rfl, ?_⟩
  have hok := h.threadOk hthread
  cases waited with
  | true =>
    refine settled_thread h.shared hok.suspended
      (fun hat => moves_reactIo hat hreaction (hbare thread hthread) hreply) hyank hreply
      (flow_suspended _) ?_
    simp
  | false =>
    obtain ⟨P, hflow, hP⟩ := himmediate rfl thread reaction hthread hreaction
    exact settled_thread h.shared hok
      (fun hat => moves_reactIo hat hreaction (hbare thread hthread) hreply) hyank hreply hflow hP

/-- A step settles one coroutine, or changes what the main coroutine and the listener change. -/
theorem settled_step {label : Label} (h : Balanced s) (hstep : s.step lib label = some t)
    (hyank : allowed.abort .yankInstances) (hreply : allowed.abort .replyAssertion)
    (hbare : ∀ co waited outcome thread, label = .io co waited outcome →
      s.thread co = some thread → outcome.bare lib s.qmp thread.point → allowed.bare)
    (himmediate : ∀ co outcome, label = .io co false outcome →
      Immediate allowed lib s co outcome) :
    (∃ co turn, t = s.settle co turn ∧ Settled allowed s.qmp co turn) ∨
      ∃ management clientsQuit, t = { s with qmp := { s.qmp with management, clientsQuit } } := by
  unfold System.step at hstep
  split_ifs at hstep with haborted
  cases label with
  | accept i =>
    simp only at hstep
    split_ifs at hstep with hsome
    cases hstep
    have hzero := h.ledger_of_none (Option.not_isSome_iff_eq_none.mp hsome)
    exact .inl ⟨_, _, rfl, .refl h.shared, hzero, hzero, trivial, rfl, by simp⟩
  | call i call =>
    simp only at hstep
    split_ifs at hstep with hsome
    cases hstep
    have hzero := h.ledger_of_none (Option.not_isSome_iff_eq_none.mp hsome)
    exact .inl ⟨_, _, rfl, settled_startCallee h.shared hzero trivial ⟨call, rfl⟩⟩
  | resume co => exact .inl ⟨co, settled_resume h hstep hyank hreply⟩
  | io co waited outcome =>
    simp only at hstep
    split_ifs at hstep
    refine .inl ⟨co, settled_io h hstep hyank hreply (fun _ => hbare _ _ _ _ rfl) ?_⟩
    rintro rfl
    exact himmediate _ _ rfl
  | main update =>
    cases hstep
    exact .inr ⟨_, _, rfl⟩
  | quitClients =>
    cases hstep
    exact .inr ⟨_, _, rfl⟩

/-- The locks are balanced whatever else happens. -/
def Allowed.anything : Allowed := ⟨fun abort => abort ≠ .lockAssertion, True, by simp⟩

theorem balanced_settle {turn : Turn} (h : Balanced s)
    (hturn : Settled .anything s.qmp co turn) : Balanced (s.settle co turn) := by
  cases turn with
  | error abort =>
    exact ⟨h.shared, h.threads, fun haborted => hturn (Option.some.inj haborted)⟩
  | ok result =>
    obtain ⟨hcontinued, hok⟩ := hturn
    refine ⟨hcontinued.shared, ?_, h.unlocks⟩
    intro u
    by_cases hu : u = co
    · subst hu
      simpa [System.settle] using hok
    · simpa [System.settle, hu] using (h.threads u).of_ledger (hcontinued.same u hu)

theorem balanced_step {label : Label} (h : Balanced s) (hstep : s.step lib label = some t) :
    Balanced t := by
  have hdangling : Allowed.anything.abort .danglingError := by simp [Allowed.anything]
  have hcases : (∃ co turn, t = s.settle co turn ∧ Settled .anything s.qmp co turn) ∨
      ∃ management clientsQuit, t = { s with qmp := { s.qmp with management, clientsQuit } } :=
    settled_step h hstep (by simp [Allowed.anything]) (by simp [Allowed.anything])
      (fun _ _ _ _ _ _ _ => trivial)
      (fun _ _ _ _ _ _ _ => ⟨_, flow_dangling hdangling, fun _ _ _ => trivial⟩)
  rcases hcases with ⟨co, turn, rfl, hturn⟩ | ⟨management, clientsQuit, rfl⟩
  · exact balanced_settle h hturn
  · exact ⟨⟨h.shared.depth, h.shared.held, h.shared.counted, h.shared.exits⟩,
      fun co => (h.threads co).of_ledger rfl, h.unlocks⟩

end Steps
theorem balanced_qmpNew (management : Management) : Balanced (System.qmpNew management) where
  shared :=
    { depth := by
        intro co c
        cases co with
        | handshake d =>
          by_cases hd : d = c
          · simp [System.qmpNew, ReentrantLock.heldBy, hd]
          · have hne : c ≠ d := Ne.symm hd
            simp [System.qmpNew, ReentrantLock.heldBy, lock_fst, hne]
        | _ => simp [System.qmpNew, ReentrantLock.heldBy]
      held := by simp [System.qmpNew, ReentrantLock.heldBy]
      counted := by
        refine ⟨{.handshake .channel, .handshake .yankChannel, .event .channel,
          .event .yankChannel}, ?_, rfl⟩
        intro co hco
        rcases co with (c | c) | (c | c) | i | i
        any_goals rfl
        all_goals exact absurd (by simp) hco
      exits := by simp [System.qmpNew] }
  threads co := by
    cases co with
    | handshake c => exact ⟨(add_zero _).symm, rfl, trivial, rfl, by simp⟩
    | event c => exact ⟨(add_zero _).symm, rfl, trivial, rfl, by simp⟩
    | main i => rfl
    | client i => rfl
  unlocks := by simp [System.qmpNew]

/-- The channel whose lock the coroutine waits for. -/
def Point.waits : Point → Option ChannelName
  | .lock c _ _ => some c
  | .waitHolder c => some c
  | _ => none

def System.WaitsFor (s : System) (a b : Co) : Prop :=
  ∃ thread c, s.thread a = some thread ∧ thread.point.waits = some c ∧
    (s.qmp.lock c).holder = some b

/-- The coroutine is suspended in a function of `qmp.c`. -/
def System.Unfinished (s : System) (co : Co) : Prop :=
  ∃ thread, s.thread co = some thread ∧ thread.point.fn ≠ .client

section Threads
variable {thread : Thread}

/-- A function of `main_coroutine.c` or `client.c`. -/
def Fn.above : Fn → Prop
  | .callee (.executeNocheck _) | .callee (.colodExecute _) | .callee .colodYank
  | .callee .checkHealth | .client => True
  | _ => False

/-- Outside `qmp.c` nothing is held. -/
theorem heldBy_above (hlinked : Linked co fn k) (hfn : fn.above) : heldBy k = 0 := by
  induction k generalizing fn with
  | nil => rfl
  | cons a k ih =>
    obtain ⟨rfl, hlinked⟩ := hlinked
    rw [heldBy]
    cases hframe : a.frame with
    | colodExecute | healthStatus | healthColoStatus | clientWaiting | closing =>
      rw [hframe] at hlinked
      rw [ih hlinked trivial]
      rfl
    | _ =>
      rw [hframe] at hfn
      exact absurd hfn id

/-- A read is part of an exchange, of a handshake or of the event coroutine. -/
theorem units_of_readLine {yank skipEvents : Bool}
    (hlinked : Linked co (.callee (.readLine c yank skipEvents)) k) : 0 < (heldBy k).2 := by
  induction k generalizing c yank skipEvents with
  | nil =>
    cases co with
    | main i =>
      obtain ⟨call, hcall⟩ := hlinked
      cases call <;> cases hcall
    | _ => cases hlinked
  | cons a k ih =>
    obtain ⟨hcallee, hlinked⟩ := hlinked
    have hbelow := (heldBy_nonneg (c := c) (k := k)).2
    rw [heldBy, Prod.snd_add]
    cases hframe : a.frame with
    | again d skip =>
      rw [hframe] at hlinked
      have hrest := ih hlinked
      have hframe' := (held_nonneg (c := c) (Frame.again d skip)).2
      omega
    | read | greeting | eventRead =>
      simp only [Frame.held, Prod.snd_add, lock_snd, unit_snd]
      omega
    | clientWaiting stoppedQemu call =>
      rw [hframe] at hcallee
      cases call <;> cases hcallee
    | _ =>
      rw [hframe] at hcallee
      cases hcallee

theorem units_of_qmp (h : ThreadOk this co thread) (hqmp : thread.point.fn ≠ .client) :
    0 < (this.ledger co).2 := by
  have hbelow := (heldBy_nonneg (c := .channel) (k := thread.below)).2
  have hlinked := h.linked
  rw [h.ledger, Prod.snd_add]
  cases hpoint : thread.point with
  | reading | idle =>
    rw [hpoint] at hlinked
    simpa [Point.held] using units_of_readLine hlinked
  | clientReading | clientWriting =>
    rw [hpoint] at hqmp
    exact absurd rfl hqmp
  | _ =>
    simp only [Point.held, Prod.snd_add, lock_snd, unit_snd]
    omega

/-- A coroutine that waits for the lock of the main channel holds nothing, and one that waits for
the lock of the yank channel does not hold that. -/
theorem depth_of_waits (h : ThreadOk this co thread) (hwaits : thread.point.waits = some c) :
    (this.ledger co).1 c = 0 ∧ (c = .channel → ∀ d, (this.ledger co).1 d = 0) := by
  have hledger := h.ledger
  have hlinked := h.linked
  have hlock := h.lock
  cases hpoint : thread.point with
  | lock d yank command =>
    rw [hpoint] at hwaits hledger hlinked
    cases hwaits
    have hzero := hlock _ _ _ hpoint
    refine ⟨by simpa [hledger, Point.held] using hzero, ?_⟩
    rintro rfl d
    suffices hbelow : heldBy thread.below = 0 by simp [hledger, hbelow, Point.held]
    cases hk : thread.below with
    | nil => rfl
    | cons a k =>
      rw [hk] at hlinked hzero
      obtain ⟨hcallee, hlinked⟩ := hlinked
      cases hframe : a.frame with
      | executeNocheck command =>
        rw [hframe] at hlinked
        rw [heldBy, hframe, heldBy_above hlinked trivial]
        rfl
      | capabilities e =>
        -- the handshake holds the lock it would wait for
        rw [hframe] at hcallee
        cases hcallee
        have hbelow := (heldBy_nonneg (c := .channel) (k := k)).1
        simp only [heldBy, hframe, Frame.held, Prod.fst_add, Pi.add_apply, lock_fst_self,
          unit_fst] at hzero
        omega
      | clientWaiting stoppedQemu call =>
        rw [hframe] at hcallee
        cases call <;> cases hcallee
      | _ =>
        rw [hframe] at hcallee
        cases hcallee
  | waitHolder d =>
    rw [hpoint] at hwaits hledger hlinked
    cases hwaits
    have hbelow : thread.below = [] := by
      cases hk : thread.below with
      | nil => rfl
      | cons a k =>
        rw [hk] at hlinked
        exact absurd hlinked.1 (by simp [Point.fn])
    simp [hledger, hbelow, Point.held, heldBy]
  | _ =>
    rw [hpoint] at hwaits
    cases hwaits

theorem ledger_of_client (h : ThreadOk this co thread) (hclient : thread.point.fn = .client) :
    this.ledger co = 0 := by
  have hbelow := heldBy_above h.linked (hclient ▸ trivial)
  rw [h.ledger, hbelow, add_zero]
  cases hpoint : thread.point with
  | clientReading | clientWriting => rfl
  | _ =>
    rw [hpoint] at hclient
    cases hclient

end Threads

section Runs
variable {s : System}

theorem Balanced.depth_of_waitsFor {a b : Co} (h : Balanced s) (hwaits : s.WaitsFor a b) :
    ∃ c, (s.qmp.lock c).holder = some b ∧ (s.qmp.ledger a).1 c = 0 ∧
      (c = .channel → ∀ d, (s.qmp.ledger a).1 d = 0) := by
  obtain ⟨thread, c, hthread, hpoint, hholder⟩ := hwaits
  exact ⟨c, hholder, depth_of_waits (h.threadOk hthread) hpoint⟩

theorem Balanced.depth_of_holder {a : Co} (h : Balanced s)
    (hholder : (s.qmp.lock c).holder = some a) : 0 < (s.qmp.ledger a).1 c := by
  have hcount : (s.qmp.lock c).count ≠ 0 := by
    intro hzero
    rw [(h.shared.held c).mpr hzero] at hholder
    cases hholder
  rw [h.shared.depth a c, if_pos hholder]
  omega

/-- A coroutine that waits while another waits for it waits for the yank channel, which it does not
hold. -/
theorem Balanced.waits_for_yankChannel {a b d : Co} (h : Balanced s) (hwaits : s.WaitsFor a b)
    (hheld : s.WaitsFor d a) :
    (s.qmp.lock .yankChannel).holder = some b ∧ (s.qmp.ledger a).1 .yankChannel = 0 := by
  obtain ⟨c, hholder, hzero, hchannel⟩ := h.depth_of_waitsFor hwaits
  obtain ⟨e, hholder', -⟩ := h.depth_of_waitsFor hheld
  have hdepth := h.depth_of_holder hholder'
  cases c with
  | channel =>
    rw [hchannel rfl e] at hdepth
    exact absurd hdepth (lt_irrefl 0)
  | yankChannel => exact ⟨hholder, hzero⟩

theorem Balanced.no_cycle (h : Balanced s) (a : Co) : ¬ Relation.TransGen s.WaitsFor a a := by
  intro hcycle
  obtain ⟨d, -, hheld⟩ := Relation.TransGen.tail'_iff.mp hcycle
  obtain ⟨b, hwaits, hrest⟩ := Relation.TransGen.head'_iff.mp hcycle
  obtain ⟨e, hwaits'⟩ : ∃ e, s.WaitsFor b e := by
    rcases Relation.ReflTransGen.cases_head hrest with rfl | ⟨e, hwaits', -⟩
    · exact ⟨b, hwaits⟩
    · exact ⟨e, hwaits'⟩
  have hfirst := h.waits_for_yankChannel hwaits hheld
  have hsecond := h.waits_for_yankChannel hwaits' hwaits
  have hdepth := h.depth_of_holder hfirst.1
  rw [hsecond.2] at hdepth
  exact lt_irrefl 0 hdepth

/-- What the exits of all functions leave behind. -/
structure ExitsBalanced (s : System) : Prop where
  exits : ∀ x ∈ s.qmp.exits, x.after = x.before
  depth : ∀ co c, (s.qmp.ledger co).1 c =
    if (s.qmp.lock c).holder = some co then ((s.qmp.lock c).count : ℤ) else 0
  held : ∀ c, (s.qmp.lock c).holder = none ↔ (s.qmp.lock c).count = 0
  unlocks : s.aborted ≠ some .lockAssertion
  inflight : Counted s.qmp
  unfinished : ∀ co, s.Unfinished co → 0 < (s.qmp.ledger co).2
  acyclic : ∀ co, ¬ Relation.TransGen s.WaitsFor co co
  ended : (∀ co, ¬ s.Unfinished co) →
    s.qmp.inflight = 0 ∧ ∀ c, (s.qmp.lock c).holder = none ∧ (s.qmp.lock c).count = 0

theorem Balanced.ended (h : Balanced s) (hended : ∀ co, ¬ s.Unfinished co) :
    s.qmp.inflight = 0 ∧ ∀ c, (s.qmp.lock c).holder = none ∧ (s.qmp.lock c).count = 0 := by
  have hzero : ∀ co, s.qmp.ledger co = 0 := by
    intro co
    have hok := h.threads co
    cases hthread : s.thread co with
    | none => rwa [hthread] at hok
    | some thread =>
      rw [hthread] at hok
      by_contra hne
      exact hended co ⟨thread, hthread, fun hclient => hne (ledger_of_client hok hclient)⟩
  constructor
  · obtain ⟨cos, -, hsum⟩ := h.shared.counted
    rw [hsum]
    exact Finset.sum_eq_zero fun co _ => by rw [hzero co]; rfl
  · intro c
    have hnone : (s.qmp.lock c).holder = none := by
      by_contra hsome
      obtain ⟨co, hholder⟩ := Option.ne_none_iff_exists'.mp hsome
      have hdepth := h.depth_of_holder hholder
      rw [hzero co] at hdepth
      exact lt_irrefl 0 hdepth
    exact ⟨hnone, (h.shared.held c).mp hnone⟩

theorem exits_balanced {management : Management} {labels : List Label}
    (hrun : run (System.step lib) (System.qmpNew management) labels = some s) :
    ExitsBalanced s := by
  have h : Balanced s :=
    run_invariant (fun _ _ _ hstep h => balanced_step h hstep) hrun (balanced_qmpNew management)
  refine ⟨h.shared.exits, h.shared.depth, h.shared.held, h.unlocks, h.shared.counted, ?_,
    h.no_cycle, h.ended⟩
  rintro co ⟨thread, hthread, hqmp⟩
  exact units_of_qmp (h.threadOk hthread) hqmp

def stopRequest : String := "\x7b\"exec-colod\": \"stop\"\x7d\n"

/-- A parser of the empty object. -/
def emptyGlib : JsonGlib where
  fromString text := if text = "\x7b\x7d\n" then .value (.object []) else .unparsable "Parse error"
  toText _ := "[]"
  equal _ _ := false

def configuredManagement : Management :=
  ⟨none, some "", false, false, some (.array []), false, false, false, false, false, false⟩

/-- Both handshakes, of which one fails, and a command that times out, yanks and reads again to the
end of the channel. -/
def timedOutExchange : List Label :=
  [.resume (.handshake .channel), .io (.handshake .channel) true (.line "\x7b\x7d\n"),
    .io (.handshake .channel) false .written,
    .io (.handshake .channel) true (.line "\x7b\x7d\n"), .call 0 (.execute stopText),
    .io (.main 0) false .written, .io (.main 0) true (.failed ⟨.timeout, "Channel read timed out"⟩),
    .resume (.handshake .yankChannel),
    .io (.handshake .yankChannel) true (.failed ⟨.eof, "Channel got EOF"⟩),
    .resume (.main 0), .io (.main 0) false .written, .io (.main 0) true (.line "\x7b\x7d\n"),
    .io (.main 0) false .written, .io (.main 0) true (.line "\x7b\x7d\n"),
    .io (.main 0) true (.failed ⟨.eof, "Channel got EOF"⟩)]

theorem exits_balanced_timedOut :
    ∃ s, run (System.step emptyGlib) (System.qmpNew configuredManagement) timedOutExchange =
      some s ∧ (s.qmp.inflight, s.qmp.exits.length) = (2, 16) ∧ ExitsBalanced s := by
  have hmap : (run (System.step emptyGlib) (System.qmpNew configuredManagement)
      timedOutExchange).map (fun s => (s.qmp.inflight, s.qmp.exits.length)) = some (2, 16) := rfl
  obtain ⟨s, hrun, hexits⟩ := Option.map_eq_some_iff.mp hmap
  exact ⟨s, hrun, hexits, exits_balanced hrun⟩

end Runs
end ColoDaemon.QmpFrames
