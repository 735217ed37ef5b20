import ColoDaemon.QmpChannel

/-!
# What a coroutine does to a channel

`depth` counts the acquisitions of a channel's lock that a task has not released, `owes` the line
that it has to read there. `CoMove` lists the effects that resuming a coroutine can have.
-/

namespace ColoDaemon
open ColodQmpState
variable {C E A : Type*}

/-- A line that qemu sends when it is due, unlike an event. -/
inductive Awaited
  | greeting
  | answer (number : ℕ)
  deriving DecidableEq, Repr

def QmpLine.awaited? : QmpLine E A → Option Awaited
  | .greeting => some .greeting
  | .event _ => none
  | .answer number _ => some (.answer number)

def QmpLine.event? : QmpLine E A → Option E
  | .event e => some e
  | _ => none

/-- The lines other than events that are still to be read, in order. -/
def QmpChannel.due (ch : QmpChannel C E A) : List Awaited :=
  ch.unread.filterMap QmpLine.awaited? ++
    ((List.range' ch.answered (ch.written.length - ch.answered)).map .answer ++
      if ch.greeted then [] else [.greeting])

def ExecutePoint.depth : ExecutePoint C → ℕ
  | .lock _ => 0
  | _ => 1

def ExecutePoint.owes : ExecutePoint C → List Awaited
  | .read number => [.answer number]
  | .idle number => [.answer number]
  | _ => []

def outerDepth (outer : Option ℕ) : ChannelName → ℕ
  | .channel => if outer.isSome then 1 else 0
  | .yankChannel => 0

def outerOwes (outer : Option ℕ) : ChannelName → List Awaited
  | .channel => outer.toList.map .answer
  | .yankChannel => []

def QmpTask.depth (c : ChannelName) : QmpTask C → ℕ
  | .off => 0
  | .greeting c' _ => if c = c' then 1 else 0
  | .capabilities c' point => if c = c' then 1 + point.depth else 0
  | .watching _ => 0
  | .reading c' => if c = c' then 1 else 0
  | .executing _ point => if c = .channel then point.depth else 0
  | .queryYank outer point => if c = .yankChannel then point.depth else outerDepth outer c
  | .yank outer point => if c = .yankChannel then point.depth else outerDepth outer c

def QmpTask.owes (c : ChannelName) : QmpTask C → List Awaited
  | .off => []
  | .greeting c' _ => if c = c' then [.greeting] else []
  | .capabilities c' point => if c = c' then point.owes else []
  | .watching _ => []
  | .reading _ => []
  | .executing _ point => if c = .channel then point.owes else []
  | .queryYank outer point => if c = .yankChannel then point.owes else outerOwes outer c
  | .yank outer point => if c = .yankChannel then point.owes else outerOwes outer c

/-- The call of `__qmp_execute_co` on channel `c` that the tasks `task point` are in. -/
structure Wraps (c : ChannelName) (task : ExecutePoint C → QmpTask C) (base : ℕ) : Prop where
  depth_eq : ∀ point, (task point).depth c = base + point.depth
  owes_eq : ∀ point, (task point).owes c = point.owes
  depth_ne : ∀ point point', ∀ c' ≠ c, (task point).depth c' = (task point').depth c'
  owes_ne : ∀ point point', ∀ c' ≠ c, (task point).owes c' = (task point').owes c'

theorem wraps_capabilities (c : ChannelName) : Wraps (C := C) c (.capabilities c) 1 where
  depth_eq _ := if_pos rfl
  owes_eq _ := if_pos rfl
  depth_ne _ _ _ hne := by simp only [QmpTask.depth, if_neg hne]
  owes_ne _ _ _ hne := by simp only [QmpTask.owes, if_neg hne]

theorem wraps_executing (yank : Bool) : Wraps (C := C) .channel (.executing yank) 0 where
  depth_eq _ := by simp only [QmpTask.depth, if_true, Nat.zero_add]
  owes_eq _ := by simp only [QmpTask.owes, if_true]
  depth_ne _ _ _ hne := by simp only [QmpTask.depth, if_neg hne]
  owes_ne _ _ _ hne := by simp only [QmpTask.owes, if_neg hne]

theorem wraps_queryYank (outer : Option ℕ) :
    Wraps (C := C) .yankChannel (.queryYank outer) 0 where
  depth_eq _ := by simp only [QmpTask.depth, if_true, Nat.zero_add]
  owes_eq _ := by simp only [QmpTask.owes, if_true]
  depth_ne _ _ _ hne := by simp only [QmpTask.depth, if_neg hne]
  owes_ne _ _ _ hne := by simp only [QmpTask.owes, if_neg hne]

theorem wraps_yank (outer : Option ℕ) : Wraps (C := C) .yankChannel (.yank outer) 0 where
  depth_eq _ := by simp only [QmpTask.depth, if_true, Nat.zero_add]
  owes_eq _ := by simp only [QmpTask.owes, if_true]
  depth_ne _ _ _ hne := by simp only [QmpTask.depth, if_neg hne]
  owes_ne _ _ _ hne := by simp only [QmpTask.owes, if_neg hne]

/-- The effects of resuming `co`: it becomes `t`, and at most one channel changes. In `consume` it
reads the line it waits for and releases the lock `k` times. -/
inductive CoMove (this : ColodQmpState C E A) (co : QmpCo) : ColodQmpState C E A → Prop
  | still (t : QmpTask C) (hdepth : ∀ c, t.depth c = (this.task co).depth c)
      (howes : ∀ c, t.owes c = (this.task co).owes c) : CoMove this co (this.become co t)
  | acquire (c : ChannelName) (t : QmpTask C) (h : (this.channel c).lock.Available co)
      (hdepth : t.depth c = (this.task co).depth c + 1)
      (hother : ∀ c' ≠ c, t.depth c' = (this.task co).depth c')
      (howes : ∀ c', t.owes c' = (this.task co).owes c') :
      CoMove this co ((this.setChannel c ((this.channel c).acquire co)).become co t)
  | write (c : ChannelName) (command : C) (t : QmpTask C) (hheld : 0 < (this.task co).depth c)
      (hdepth : ∀ c', t.depth c' = (this.task co).depth c')
      (hnothing : (this.task co).owes c = [])
      (howes : t.owes c = [.answer (this.channel c).written.length])
      (hother : ∀ c' ≠ c, t.owes c' = (this.task co).owes c') :
      CoMove this co ((this.setChannel c ((this.channel c).write co command)).become co t)
  | event (c : ChannelName) (e : E) (rest : List (QmpLine E A)) (t : QmpTask C)
      (hunread : (this.channel c).unread = .event e :: rest) (k : ℕ)
      (hdepth : t.depth c + k = (this.task co).depth c)
      (hother : ∀ c' ≠ c, t.depth c' = (this.task co).depth c')
      (howes : ∀ c', t.owes c' = (this.task co).owes c')
      (hnothing : k = 0 ∨ t.owes c = []) :
      CoMove this co (((this.setChannel c { (this.channel c).consume rest with
        lock := ReentrantLock.release^[k] (this.channel c).lock }).become co t).notifyEvent c e)
  | consume (c : ChannelName) (line : QmpLine E A) (rest : List (QmpLine E A)) (t : QmpTask C)
      (k : ℕ) (didYank : Bool) (returned : List (QmpReturn E A))
      (hunread : (this.channel c).unread = line :: rest) (hline : line.awaited? ≠ none)
      (hheld : 0 < (this.task co).depth c) (hdepth : t.depth c + k = (this.task co).depth c)
      (howes : t.owes c = []) (hother : ∀ c' ≠ c, t.depth c' = (this.task co).depth c')
      (hothers : ∀ c' ≠ c, t.owes c' = (this.task co).owes c')
      (hreturned : returned = [] ∨ ∃ number, (this.task co).owes c = [.answer number] ∧
        returned = [⟨c, co, number, line⟩]) :
      CoMove this co (({ this.setChannel c { (this.channel c).consume rest with
        lock := ReentrantLock.release^[k] (this.channel c).lock } with
        didYank := didYank, returned := this.returned ++ returned } :
          ColodQmpState C E A).become co t)
  | failed (next : ColodQmpState C E A) (h : next.error = true) : CoMove this co next

variable {this u : ColodQmpState C E A} {co : QmpCo} {c : ChannelName}

theorem setChannel_setChannel (this : ColodQmpState C E A) (c : ChannelName)
    (ch ch' : QmpChannel C E A) : (this.setChannel c ch).setChannel c ch' = this.setChannel c ch' := by
  simp only [setChannel, Function.update_idem]

theorem become_become (this : ColodQmpState C E A) (co : QmpCo) (t t' : QmpTask C) :
    (this.become co t).become co t' = this.become co t' := by
  simp only [become, Function.update_idem]

theorem notifyEvent_become (this : ColodQmpState C E A) (co : QmpCo) (t : QmpTask C)
    (c : ChannelName) (e : E) :
    (this.notifyEvent c e).become co t = (this.become co t).notifyEvent c e := by
  unfold notifyEvent
  split_ifs <;> rfl

theorem channel_setChannel (this : ColodQmpState C E A) (c : ChannelName) (ch : QmpChannel C E A) :
    (this.setChannel c ch).channel c = ch := by
  simp only [setChannel, Function.update_self]

theorem channel_setChannel_of_ne {c' : ChannelName} (h : c' ≠ c) (this : ColodQmpState C E A)
    (ch : QmpChannel C E A) : (this.setChannel c ch).channel c' = this.channel c' := by
  simp only [setChannel, Function.update_of_ne h]

/-- The two outcomes of reading a line. -/
theorem readLine_cases {line : Option (QmpLine E A)} (h : qmpReadLineCo this c = some (line, u)) :
    (∃ e rest, line = none ∧ (this.channel c).unread = .event e :: rest ∧
      u = (this.setChannel c ((this.channel c).consume rest)).notifyEvent c e) ∨
    (∃ l rest, line = some l ∧ l.awaited? ≠ none ∧ (this.channel c).unread = l :: rest ∧
      u = this.setChannel c ((this.channel c).consume rest)) := by
  unfold qmpReadLineCo at h
  split at h
  · exact absurd h (by simp)
  · next e rest hunread =>
    simp only [Option.some.injEq, Prod.mk.injEq] at h
    exact .inl ⟨e, rest, h.1.symm, hunread, h.2.symm⟩
  · next l rest hne hunread =>
    simp only [Option.some.injEq, Prod.mk.injEq] at h
    have hl : l.awaited? ≠ none := by
      cases l with
      | event e => exact absurd rfl (hne e)
      | greeting => simp [QmpLine.awaited?]
      | answer number a => simp [QmpLine.awaited?]
    exact .inr ⟨l, rest, h.1.symm, hl, hunread, h.2.symm⟩

/-- A call of `__qmp_execute_co` that is suspended again. -/
theorem execute_suspended {task : ExecutePoint C → QmpTask C} {base : ℕ}
    {point point' : ExecutePoint C} (hw : Wraps c task base) (htask : this.task co = task point)
    (h : qmpExecuteCo this co c point = some (.inl point', u)) :
    CoMove this co (u.become co (task point')) := by
  cases point with
  | lock command =>
    simp only [qmpExecuteCo] at h
    split at h
    · next havailable =>
      simp only [Option.some.injEq, Prod.mk.injEq, Sum.inl.injEq] at h
      obtain ⟨rfl, rfl⟩ := h
      refine .acquire c _ havailable ?_ (fun c' hne => ?_) fun c' => ?_
      · rw [htask, hw.depth_eq, hw.depth_eq]
        rfl
      · rw [htask, hw.depth_ne _ _ c' hne]
      · rw [htask]
        by_cases hc : c' = c
        · rw [hc, hw.owes_eq, hw.owes_eq]
          rfl
        · exact hw.owes_ne _ _ c' hc
    · simp only [Option.some.injEq, Prod.mk.injEq, Sum.inl.injEq] at h
      obtain ⟨rfl, rfl⟩ := h
      apply CoMove.still
      · intro c'
        rw [htask]
      · intro c'
        rw [htask]
  | write command =>
    simp only [qmpExecuteCo, Option.some.injEq, Prod.mk.injEq, Sum.inl.injEq] at h
    obtain ⟨rfl, rfl⟩ := h
    refine .write c command _ ?_ (fun c' => ?_) ?_ ?_ fun c' hne => ?_
    · rw [htask, hw.depth_eq]
      simp only [ExecutePoint.depth]
      omega
    · rw [htask]
      by_cases hc : c' = c
      · rw [hc, hw.depth_eq, hw.depth_eq]
        rfl
      · exact hw.depth_ne _ _ c' hc
    · rw [htask, hw.owes_eq]
      rfl
    · rw [hw.owes_eq]
      rfl
    · rw [htask, hw.owes_ne _ _ c' hne]
  | read number =>
    simp only [qmpExecuteCo] at h
    split at h
    · exact absurd h (by simp)
    · next v hread =>
      obtain ⟨e, rest, -, hunread, rfl⟩ | ⟨l, rest, hl, -⟩ := readLine_cases hread
      · simp only [Option.some.injEq, Prod.mk.injEq, Sum.inl.injEq] at h
        obtain ⟨rfl, rfl⟩ := h
        have hsame : ∀ c', (task (if c.discardEvents = true then .read number else .idle number)).depth c' =
              (this.task co).depth c' ∧
            (task (if c.discardEvents = true then .read number else .idle number)).owes c' =
              (this.task co).owes c' := by
          intro c'
          rw [htask]
          by_cases hc : c' = c
          · rw [hc, hw.depth_eq, hw.depth_eq, hw.owes_eq, hw.owes_eq]
            split_ifs
            · exact ⟨rfl, rfl⟩
            · exact ⟨rfl, rfl⟩
          · exact ⟨hw.depth_ne _ _ c' hc, hw.owes_ne _ _ c' hc⟩
        rw [notifyEvent_become]
        exact .event c e rest _ hunread 0 (hsame c).1 (fun c' _ => (hsame c').1)
          (fun c' => (hsame c').2) (.inl rfl)
      · exact absurd hl (by simp)
    · exact absurd h (by simp)
  | idle number =>
    simp only [qmpExecuteCo, Option.some.injEq, Prod.mk.injEq, Sum.inl.injEq] at h
    obtain ⟨rfl, rfl⟩ := h
    have hsame : ∀ c', (task (.read number)).depth c' = (task (.idle number)).depth c' ∧
        (task (.read number)).owes c' = (task (.idle number)).owes c' := by
      intro c'
      by_cases hc : c' = c
      · rw [hc, hw.depth_eq, hw.depth_eq, hw.owes_eq, hw.owes_eq]
        exact ⟨rfl, rfl⟩
      · exact ⟨hw.depth_ne _ _ c' hc, hw.owes_ne _ _ c' hc⟩
    apply CoMove.still
    · intro c'
      rw [htask]
      exact (hsame c').1
    · intro c'
      rw [htask]
      exact (hsame c').2

theorem execute_returned {point : ExecutePoint C} {line : QmpLine E A}
    (h : qmpExecuteCo this co c point = some (.inr line, u)) :
    ∃ number rest, point = .read number ∧ line.awaited? ≠ none ∧
      (this.channel c).unread = line :: rest ∧
      u = { colodUnlockCo (this.setChannel c ((this.channel c).consume rest)) c with
        returned := this.returned ++ [⟨c, co, number, line⟩] } := by
  cases point with
  | lock command =>
    simp only [qmpExecuteCo] at h
    split at h
    · exact absurd h (by simp)
    · exact absurd h (by simp)
  | write command => exact absurd h (by simp [qmpExecuteCo])
  | idle number => exact absurd h (by simp [qmpExecuteCo])
  | read number =>
    simp only [qmpExecuteCo] at h
    split at h
    · exact absurd h (by simp)
    · exact absurd h (by simp)
    · next l v hread =>
      obtain ⟨e, rest, hl, -⟩ | ⟨l', rest, hl, hawaited, hunread, rfl⟩ := readLine_cases hread
      · exact absurd hl (by simp)
      · simp only [Option.some.injEq, Prod.mk.injEq, Sum.inr.injEq] at h hl
        obtain ⟨rfl, rfl⟩ := h
        subst hl
        exact ⟨number, rest, rfl, hawaited, hunread, rfl⟩

/-- A call that returns ends the task, up to `k` releases of the lock. -/
theorem execute_consumes {task : ExecutePoint C → QmpTask C} {base : ℕ} {point : ExecutePoint C}
    {line : QmpLine E A} (hw : Wraps c task base) (htask : this.task co = task point)
    (h : qmpExecuteCo this co c point = some (.inr line, u)) (t : QmpTask C) (k : ℕ)
    (didYank : Bool) (hdepth : t.depth c + k = base) (howes : t.owes c = [])
    (hother : ∀ c' ≠ c, t.depth c' = (task point).depth c' ∧ t.owes c' = (task point).owes c') :
    CoMove this co (({ u.setChannel c { u.channel c with
      lock := ReentrantLock.release^[k] (u.channel c).lock } with didYank := didYank } :
        ColodQmpState C E A).become co t) := by
  obtain ⟨number, rest, rfl, hline, hunread, rfl⟩ := execute_returned h
  have hread : (task (.read number)).depth c = base + 1 := by rw [hw.depth_eq]; rfl
  have hmove : CoMove this co _ := .consume c line rest t (k + 1) didYank
    [⟨c, co, number, line⟩] hunread hline (by rw [htask]; omega) (by rw [htask]; omega) howes
    (fun c' hne => by rw [htask]; exact (hother c' hne).1)
    (fun c' hne => by rw [htask]; exact (hother c' hne).2)
    (.inr ⟨number, by rw [htask, hw.owes_eq]; rfl, rfl⟩)
  have hu : (colodUnlockCo (this.setChannel c ((this.channel c).consume rest)) c).channel c =
      ((this.channel c).consume rest).release := by
    simp only [colodUnlockCo, channel_setChannel]
  have hset : ∀ ch, (colodUnlockCo (this.setChannel c ((this.channel c).consume rest)) c).setChannel
      c ch = this.setChannel c ch := by
    intro ch
    simp only [colodUnlockCo, setChannel_setChannel]
  have heq : ({ (colodUnlockCo (this.setChannel c ((this.channel c).consume rest)) c) with
        returned := this.returned ++ [⟨c, co, number, line⟩] } : ColodQmpState C E A).setChannel c
        { (colodUnlockCo (this.setChannel c ((this.channel c).consume rest)) c).channel c with
          lock := ReentrantLock.release^[k]
            ((colodUnlockCo (this.setChannel c ((this.channel c).consume rest)) c).channel c).lock }
      = { this.setChannel c { (this.channel c).consume rest with
          lock := ReentrantLock.release^[k + 1] (this.channel c).lock } with
        returned := this.returned ++ [⟨c, co, number, line⟩] } := by
    rw [hu]
    exact congrArg (fun v : ColodQmpState C E A =>
      ({ v with returned := this.returned ++ [⟨c, co, number, line⟩] } : ColodQmpState C E A))
      (hset _)
  simp only at heq ⊢
  rw [heq]
  exact hmove

/-- A call that returns and holds on to no further lock. -/
theorem execute_leaves {task : ExecutePoint C → QmpTask C} {point : ExecutePoint C}
    {line : QmpLine E A} (hw : Wraps c task 0) (htask : this.task co = task point)
    (h : qmpExecuteCo this co c point = some (.inr line, u)) (t : QmpTask C) (didYank : Bool)
    (hdepth : t.depth c = 0) (howes : t.owes c = [])
    (hother : ∀ c' ≠ c, t.depth c' = (task point).depth c' ∧ t.owes c' = (task point).owes c') :
    CoMove this co (({ u with didYank := didYank } : ColodQmpState C E A).become co t) := by
  have hmove := execute_consumes hw htask h t 0 didYank hdepth howes hother
  have hset : u.setChannel c { u.channel c with lock := ReentrantLock.release^[0] (u.channel c).lock }
      = u := by
    simp only [setChannel, Function.iterate_zero, id_eq, Function.update_eq_self]
  rw [hset] at hmove
  exact hmove

theorem eq_channel_of_ne {c' : ChannelName} (h : c' ≠ .yankChannel) : c' = .channel := by
  cases c' with
  | channel => rfl
  | yankChannel => exact absurd rfl h

theorem eq_yankChannel_of_ne {c' : ChannelName} (h : c' ≠ .channel) : c' = .yankChannel := by
  cases c' with
  | channel => exact absurd rfl h
  | yankChannel => rfl

/-- What a yank that ends leaves to the exchange around it. -/
theorem yankFailed_move {d : Option ℕ → ExecutePoint C → QmpTask C} {outer : Option ℕ}
    {point : ExecutePoint C} {line : QmpLine E A} (hw : Wraps .yankChannel (d outer) 0)
    (hdepth : (d outer point).depth .channel = outerDepth outer .channel)
    (howes : (d outer point).owes .channel = outerOwes outer .channel)
    (htask : this.task co = d outer point)
    (h : qmpExecuteCo this co .yankChannel point = some (.inr line, u)) :
    CoMove this co (qmpYankFailed u co outer) := by
  cases outer with
  | some number => exact .failed _ rfl
  | none =>
    refine execute_leaves hw htask h .off u.didYank rfl rfl fun c' hne => ?_
    rw [eq_channel_of_ne hne, hdepth, howes]
    exact ⟨rfl, rfl⟩

variable {d : QmpDialect C E A}

/-- The effect of resuming a coroutine is one of those listed. -/
theorem runCo_move (h : runCo d this co = some u) : CoMove this co u := by
  unfold runCo at h
  split at h
  · exact absurd h (by simp)
  · next c htask =>
    rw [Option.some.injEq] at h
    subst h
    apply CoMove.still
    · intro c'
      rw [htask]
      rfl
    · intro c'
      rw [htask]
      rfl
  · next c htask =>
    split at h
    · exact absurd h (by simp)
    · next v hread =>
      obtain ⟨e, rest, -, hunread, rfl⟩ | ⟨l, rest, hl, -⟩ := readLine_cases hread
      · rw [Option.some.injEq, notifyEvent_become] at h
        subst h
        refine .event c e rest _ hunread 0 ?_ ?_ ?_ (.inl rfl)
        · rw [htask]
          rfl
        · intro c' _
          rw [htask]
          rfl
        · intro c'
          rw [htask]
          rfl
      · exact absurd hl (by simp)
    · next l v hread =>
      obtain ⟨e, rest, hl, -⟩ | ⟨l', rest, hl, hawaited, hunread, rfl⟩ := readLine_cases hread
      · exact absurd hl (by simp)
      · rw [Option.some.injEq] at h
        have hmove : CoMove this co _ := .consume c l' rest (.capabilities c (.lock d.qmpCapabilities))
          0 this.didYank [] hunread hawaited (by simp [htask, QmpTask.depth])
          (by simp [htask, QmpTask.depth, ExecutePoint.depth])
          (by simp [QmpTask.owes, ExecutePoint.owes])
          (fun c' hne => by simp [htask, QmpTask.depth, hne])
          (fun c' hne => by simp [htask, QmpTask.owes, hne]) (.inl rfl)
        rw [List.append_nil] at hmove
        rw [← h]
        exact hmove
  · next c point htask =>
    split at h
    · exact absurd h (by simp)
    · next point' v hexec =>
      rw [Option.some.injEq] at h
      subst h
      exact execute_suspended (wraps_capabilities c) htask hexec
    · next line v hexec =>
      rw [Option.some.injEq] at h
      subst h
      split_ifs
      · exact .failed _ rfl
      · refine execute_consumes (wraps_capabilities c) htask hexec .off 1 v.didYank rfl rfl ?_
        intro c' hne
        simp only [QmpTask.depth, QmpTask.owes, if_neg hne, and_self]
  · next c htask =>
    split at h
    · next hfree =>
      rw [Option.some.injEq] at h
      subst h
      refine .acquire c _ (.inl hfree) ?_ ?_ ?_
      · simp [htask, QmpTask.depth]
      · intro c' hne
        simp [htask, QmpTask.depth, hne]
      · intro c'
        rw [htask]
        rfl
    · rw [Option.some.injEq] at h
      have hself : this.become co (this.task co) = this := by
        simp only [become, Function.update_eq_self]
      have hmove : CoMove this co (this.become co (this.task co)) :=
        .still _ (fun _ => rfl) fun _ => rfl
      rw [hself] at hmove
      exact h ▸ hmove
  · next c htask =>
    unfold qmpEventCo at h
    split at h
    · exact absurd h (by simp)
    · next line rest hunread =>
      cases line with
      | greeting =>
        rw [Option.some.injEq] at h
        exact .failed _ (by rw [← h]; rfl)
      | answer number a =>
        rw [Option.some.injEq] at h
        exact .failed _ (by rw [← h]; rfl)
      | event e =>
        rw [Option.some.injEq] at h
        have hmove : CoMove this co _ := .event c e rest (.watching c) hunread 1
          (by simp [htask, QmpTask.depth]) (fun c' hne => by simp [htask, QmpTask.depth, hne])
          (fun c' => by rw [htask]; rfl) (.inr rfl)
        rw [← h, colodUnlockCo, setChannel_setChannel, channel_setChannel]
        exact hmove
  · next yank point htask =>
    split at h
    · exact absurd h (by simp)
    · next point' v hexec =>
      rw [Option.some.injEq] at h
      subst h
      exact execute_suspended (wraps_executing yank) htask hexec
    · next line v hexec =>
      rw [Option.some.injEq] at h
      subst h
      refine execute_leaves (wraps_executing yank) htask hexec .off v.didYank rfl rfl ?_
      intro c' hne
      simp only [QmpTask.depth, QmpTask.owes, if_neg hne, and_self]
  · next outer point htask =>
    split at h
    · exact absurd h (by simp)
    · next point' v hexec =>
      rw [Option.some.injEq] at h
      subst h
      exact execute_suspended (wraps_queryYank outer) htask hexec
    · next line v hexec =>
      split_ifs at h
      · rw [Option.some.injEq] at h
        subst h
        exact yankFailed_move (wraps_queryYank outer) rfl rfl htask hexec
      · rw [Option.some.injEq] at h
        subst h
        refine execute_leaves (wraps_queryYank outer) htask hexec (.yank outer (.lock (d.yank line)))
          v.didYank rfl rfl ?_
        intro c' hne
        simp only [QmpTask.depth, QmpTask.owes, if_neg hne, and_self]
  · next outer point htask =>
    split at h
    · exact absurd h (by simp)
    · next point' v hexec =>
      rw [Option.some.injEq] at h
      subst h
      exact execute_suspended (wraps_yank outer) htask hexec
    · next line v hexec =>
      rw [Option.some.injEq] at h
      subst h
      split_ifs
      · exact yankFailed_move (wraps_yank outer) rfl rfl htask hexec
      · cases outer with
        | none =>
          refine execute_leaves (wraps_yank none) htask hexec .off true rfl rfl fun c' hne => ?_
          rw [eq_channel_of_ne hne]
          exact ⟨rfl, rfl⟩
        | some number =>
          refine execute_leaves (wraps_yank (some number)) htask hexec
            (.executing false (.read number)) true rfl rfl fun c' hne => ?_
          rw [eq_channel_of_ne hne]
          exact ⟨rfl, rfl⟩

/-- A failure sets the sticky error. -/
theorem failCo_error (h : failCo this co = some u) : u.error = true := by
  have hyank : ∀ (v : ColodQmpState C E A) outer, v.error = true →
      (qmpYankFailed v co outer).error = true := by
    intro v outer hv
    cases outer with
    | none => exact hv
    | some number => rfl
  unfold failCo at h
  split at h
  · rw [Option.some.injEq] at h
    rw [← h]
    rfl
  · split_ifs at h
    rw [Option.some.injEq] at h
    rw [← h]
    rfl
  · rw [Option.some.injEq] at h
    rw [← h]
    rfl
  · split_ifs at h
    rw [Option.some.injEq] at h
    rw [← h]
    rfl
  · split_ifs at h
    rw [Option.some.injEq] at h
    rw [← h]
    exact hyank _ _ rfl
  · split_ifs at h
    rw [Option.some.injEq] at h
    rw [← h]
    exact hyank _ _ rfl
  · exact absurd h (by simp)

/-- The first timeout of an exchange on the main channel keeps its lock and its command. -/
theorem timeoutCo_move (h : timeoutCo d this co = some u) : CoMove this co u := by
  unfold timeoutCo at h
  split at h
  · next number htask =>
    rw [Option.some.injEq] at h
    subst h
    apply CoMove.still
    · intro c'
      rw [htask]
      cases c' with
      | channel => rfl
      | yankChannel => rfl
    · intro c'
      rw [htask]
      cases c' with
      | channel => rfl
      | yankChannel => rfl
  · exact .failed _ (failCo_error h)

/-- What qemu does to a channel by sending a line. -/
inductive Sends (ch : QmpChannel C E A) : QmpChannel C E A → Prop
  | greet (h : ch.greeted = false) :
      Sends ch { ch with greeted := true, unread := ch.unread ++ [.greeting] }
  | emit (e : E) :
      Sends ch { ch with unread := ch.unread ++ [.event e], emitted := ch.emitted ++ [e] }
  | answer (a : A) (h : ch.answered < ch.written.length) :
      Sends ch
        { ch with unread := ch.unread ++ [.answer ch.answered a], answered := ch.answered + 1 }

/-- A step is a line that qemu sends or the resumption of a coroutine. -/
inductive QmpChange (this : ColodQmpState C E A) : ColodQmpState C E A → Prop
  | sent (c : ChannelName) (ch : QmpChannel C E A) (h : Sends (this.channel c) ch) :
      QmpChange this (this.setChannel c ch)
  | moved (co : QmpCo) (u : ColodQmpState C E A) (h : CoMove this co u) : QmpChange this u

theorem step_change {label : QmpLabel C E A} (h : qmpStep d this label = some u) :
    QmpChange this u := by
  have hstart : ∀ i t, this.task (.caller i) = .off → (∀ c, QmpTask.depth (C := C) c t = 0) →
      (∀ c, QmpTask.owes (C := C) c t = []) →
      QmpChange this (this.become (.caller i) t) := by
    intro i t hoff hdepth howes
    refine .moved (.caller i) _ (.still t (fun c => ?_) fun c => ?_)
    · rw [hdepth, hoff]
      rfl
    · rw [howes, hoff]
      rfl
  cases label with
  | greet c =>
    simp only [qmpStep] at h
    split_ifs at h with hgreeted
    rw [Option.some.injEq] at h
    rw [← h]
    exact .sent c _ (.greet (by simpa using hgreeted))
  | emit c e =>
    simp only [qmpStep, Option.some.injEq] at h
    rw [← h]
    exact .sent c _ (.emit e)
  | answer c a =>
    simp only [qmpStep] at h
    split_ifs at h with hlt
    rw [Option.some.injEq] at h
    rw [← h]
    exact .sent c _ (.answer a hlt)
  | execute i command =>
    simp only [qmpStep] at h
    split at h
    · next hoff =>
      rw [Option.some.injEq] at h
      rw [← h]
      apply hstart i _ hoff
      · intro c
        cases c <;> rfl
      · intro c
        cases c <;> rfl
    · exact absurd h (by simp)
  | yank i =>
    simp only [qmpStep] at h
    split at h
    · next hoff =>
      rw [Option.some.injEq] at h
      rw [← h]
      apply hstart i _ hoff
      · intro c
        cases c <;> rfl
      · intro c
        cases c <;> rfl
    · exact absurd h (by simp)
  | run co => exact .moved co u (runCo_move h)
  | timeout co => exact .moved co u (timeoutCo_move h)
  | fail co => exact .moved co u (.failed u (failCo_error h))

/-! ### The course of a handshake -/

/-- The handshake of a channel has finished, or it is on its way. -/
def QmpTask.Opens (c : ChannelName) (t : QmpTask C) : Prop :=
  t = .off ∨ (∃ idle, t = .greeting c idle) ∨ ∃ point, t = .capabilities c point

theorem opens_depth {t : QmpTask C} (h : t.Opens c) (hoff : t ≠ .off) : 0 < t.depth c := by
  obtain rfl | ⟨idle, rfl⟩ | ⟨point, rfl⟩ := h
  · exact absurd rfl hoff
  · simp [QmpTask.depth]
  · simp only [QmpTask.depth, if_true]
    omega

@[simp] theorem task_become (this : ColodQmpState C E A) (co : QmpCo) (t : QmpTask C) :
    (this.become co t).task co = t := by
  simp only [become, Function.update_self]

theorem task_become_of_ne {co' : QmpCo} (h : co' ≠ co) (t : QmpTask C) :
    (this.become co t).task co' = this.task co' := by
  simp only [become, Function.update_of_ne h]

/-- A handshake that is resumed stays on its way, and one that has finished is not resumed. -/
theorem runCo_opens (h : runCo d this co = some u) (hopens : (this.task co).Opens c) :
    (u.task co).Opens c ∧ this.task co ≠ .off := by
  obtain hoff | ⟨idle, htask⟩ | ⟨point, htask⟩ := hopens
  · rw [runCo, hoff] at h
    exact absurd h (by simp)
  · refine ⟨?_, by simp [htask]⟩
    rw [runCo, htask] at h
    cases idle with
    | true =>
      rw [Option.some.injEq] at h
      rw [← h, task_become]
      exact .inr (.inl ⟨_, rfl⟩)
    | false =>
      dsimp only at h
      split at h
      · exact absurd h (by simp)
      · rw [Option.some.injEq] at h
        rw [← h, task_become]
        exact .inr (.inl ⟨_, rfl⟩)
      · rw [Option.some.injEq] at h
        rw [← h, task_become]
        exact .inr (.inr ⟨_, rfl⟩)
  · refine ⟨?_, by simp [htask]⟩
    rw [runCo, htask] at h
    dsimp only at h
    split at h
    · exact absurd h (by simp)
    · rw [Option.some.injEq] at h
      rw [← h, task_become]
      exact .inr (.inr ⟨_, rfl⟩)
    · rw [Option.some.injEq] at h
      rw [← h]
      refine .inl ?_
      split_ifs
      · exact task_become _ _ _
      · exact task_become _ _ _

theorem task_of_move (hmove : CoMove this co u) (herror : u.error = false) :
    ∃ t, u.task = Function.update this.task co t := by
  cases hmove with
  | still t _ _ => exact ⟨t, rfl⟩
  | acquire c t _ _ _ _ => exact ⟨t, rfl⟩
  | write c command t _ _ _ _ _ => exact ⟨t, rfl⟩
  | event c e rest t _ k _ _ _ _ =>
    refine ⟨t, ?_⟩
    unfold notifyEvent
    split_ifs
    · rfl
    · rfl
  | consume c line rest t k didYank returned _ _ _ _ _ _ _ _ => exact ⟨t, rfl⟩
  | failed _ hfailed => exact absurd hfailed (by simp [herror])

/-- A handshake only moves on, and once finished it stays so. -/
theorem handshake_step {label : QmpLabel C E A} (h : qmpStep d this label = some u)
    (herror : u.error = false) (hopens : (this.task (.handshake c)).Opens c) :
    (u.task (.handshake c)).Opens c ∧
      (this.task (.handshake c) = .off → u.task (.handshake c) = .off) := by
  have hmoved : ∀ {co}, CoMove this co u → co ≠ .handshake c →
      u.task (.handshake c) = this.task (.handshake c) := by
    intro co hmove hne
    obtain ⟨t, ht⟩ := task_of_move hmove herror
    rw [ht, Function.update_of_ne hne.symm]
  have hkept : u.task (.handshake c) = this.task (.handshake c) →
      (u.task (.handshake c)).Opens c ∧
        (this.task (.handshake c) = .off → u.task (.handshake c) = .off) := by
    intro heq
    rw [heq]
    exact ⟨hopens, id⟩
  cases label with
  | run co =>
    by_cases hco : co = .handshake c
    · subst hco
      obtain ⟨hnext, hactive⟩ := runCo_opens h hopens
      exact ⟨hnext, fun hoff => absurd hoff hactive⟩
    · exact hkept (hmoved (runCo_move h) hco)
  | timeout co =>
    by_cases hco : co = .handshake c
    · subst hco
      simp only [qmpStep, timeoutCo] at h
      split at h
      · next htask =>
        obtain hoff | ⟨idle, hother⟩ | ⟨point, hother⟩ := hopens
        · simp [htask] at hoff
        · simp [htask] at hother
        · simp [htask] at hother
      · exact absurd (failCo_error h) (by simp [herror])
    · exact hkept (hmoved (timeoutCo_move h) hco)
  | fail co => exact absurd (failCo_error h) (by simp [herror])
  | execute i command =>
    simp only [qmpStep] at h
    split at h
    · rw [Option.some.injEq] at h
      apply hkept
      rw [← h, task_become_of_ne (by simp)]
    · exact absurd h (by simp)
  | yank i =>
    simp only [qmpStep] at h
    split at h
    · rw [Option.some.injEq] at h
      apply hkept
      rw [← h, task_become_of_ne (by simp)]
    · exact absurd h (by simp)
  | greet c' =>
    simp only [qmpStep] at h
    split_ifs at h
    rw [Option.some.injEq] at h
    exact hkept (by rw [← h]; rfl)
  | emit c' e =>
    simp only [qmpStep, Option.some.injEq] at h
    exact hkept (by rw [← h]; rfl)
  | answer c' a =>
    simp only [qmpStep] at h
    split_ifs at h
    rw [Option.some.injEq] at h
    exact hkept (by rw [← h]; rfl)

end ColoDaemon
