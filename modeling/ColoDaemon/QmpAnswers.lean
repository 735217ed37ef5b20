import ColoDaemon.QmpMoves

/-!
# Every caller gets the answer to its own command

The lock of a channel guards what is due on it: the greeting and the answers that are still to be
read are what the holder waits for. As long as the sticky error is not set this is kept by every
step, from which the order of answers and of events follows.
-/

namespace ColoDaemon
open ColodQmpState ReentrantLock Runs
variable {C E A : Type*}

namespace ColodQmpState

def depth (this : ColodQmpState C E A) (c : ChannelName) (co : QmpCo) : ℕ := (this.task co).depth c

def owes (this : ColodQmpState C E A) (c : ChannelName) (co : QmpCo) : List Awaited :=
  (this.task co).owes c

/-- The holder of the lock waits for exactly what is due on the channel. -/
structure Served (this : ColodQmpState C E A) (c : ChannelName) : Prop where
  guarded : Guarded (this.channel c).lock (this.depth c) (this.owes c) (this.channel c).due
  answered_le : (this.channel c).answered ≤ (this.channel c).written.length

end ColodQmpState

variable {d : QmpDialect C E A} {this u : ColodQmpState C E A} {co : QmpCo} {c : ChannelName}

theorem depth_of_task {t : QmpTask C} (h : u.task = Function.update this.task co t)
    (c : ChannelName) : u.depth c = Function.update (this.depth c) co (t.depth c) := by
  funext co'
  simp only [ColodQmpState.depth, h, Function.update_apply]
  split_ifs <;> rfl

theorem owes_of_task {t : QmpTask C} (h : u.task = Function.update this.task co t)
    (c : ChannelName) : u.owes c = Function.update (this.owes c) co (t.owes c) := by
  funext co'
  simp only [ColodQmpState.owes, h, Function.update_apply]
  split_ifs <;> rfl

theorem notifyEvent_fields (this : ColodQmpState C E A) (c : ChannelName) (e : E) :
    (this.notifyEvent c e).channel = this.channel ∧ (this.notifyEvent c e).task = this.task ∧
      (this.notifyEvent c e).error = this.error ∧
      (this.notifyEvent c e).returned = this.returned := by
  unfold notifyEvent
  split_ifs
  · exact ⟨rfl, rfl, rfl, rfl⟩
  · exact ⟨rfl, rfl, rfl, rfl⟩

theorem owes_length_le (t : QmpTask C) (c : ChannelName) : (t.owes c).length ≤ 1 := by
  have hpoint : ∀ point : ExecutePoint C, point.owes.length ≤ 1 := by
    intro point
    cases point <;> simp [ExecutePoint.owes]
  have houter : ∀ outer, (outerOwes outer c).length ≤ 1 := by
    intro outer
    cases c <;> cases outer <;> simp [outerOwes]
  cases t with
  | off => exact Nat.zero_le _
  | watching c' => exact Nat.zero_le _
  | reading c' => exact Nat.zero_le _
  | greeting c' idle =>
    simp only [QmpTask.owes]
    split_ifs <;> simp
  | capabilities c' point =>
    simp only [QmpTask.owes]
    split_ifs
    · exact hpoint point
    · exact Nat.zero_le _
  | executing yank point =>
    simp only [QmpTask.owes]
    split_ifs
    · exact hpoint point
    · exact Nat.zero_le _
  | queryYank outer point =>
    simp only [QmpTask.owes]
    split_ifs
    · exact hpoint point
    · exact houter outer
  | yank outer point =>
    simp only [QmpTask.owes]
    split_ifs
    · exact hpoint point
    · exact houter outer

/-! ### What is due -/

theorem due_consume_event (ch : QmpChannel C E A) {e : E} {rest : List (QmpLine E A)}
    (h : ch.unread = .event e :: rest) : (ch.consume rest).due = ch.due := by
  simp only [QmpChannel.due, QmpChannel.consume, h]
  rfl

theorem due_of_unread (ch : QmpChannel C E A) {line : QmpLine E A} {rest : List (QmpLine E A)}
    {a : Awaited} (h : ch.unread = line :: rest) (hline : line.awaited? = some a) :
    ch.due = a :: (ch.consume rest).due := by
  simp only [QmpChannel.due, QmpChannel.consume, h, List.filterMap_cons, hline, List.cons_append]
  rfl

theorem due_emit (ch : QmpChannel C E A) (e : E) (emitted : List E) :
    ({ ch with unread := ch.unread ++ [.event e], emitted := emitted } :
      QmpChannel C E A).due = ch.due := by
  simp [QmpChannel.due, QmpLine.awaited?]

theorem due_answer (ch : QmpChannel C E A) (a : A) (h : ch.answered < ch.written.length) :
    ({ ch with
        unread := ch.unread ++ [.answer ch.answered a]
        answered := ch.answered + 1 } : QmpChannel C E A).due = ch.due := by
  obtain ⟨n, hn⟩ : ∃ n, ch.written.length - ch.answered = n + 1 :=
    ⟨ch.written.length - ch.answered - 1, by omega⟩
  have hn' : ch.written.length - (ch.answered + 1) = n := by omega
  simp only [QmpChannel.due, hn, hn', List.range'_succ, List.filterMap_append, List.map_cons,
    List.append_assoc]
  rfl

theorem due_greet (ch : QmpChannel C E A) (hgreeted : ch.greeted = false)
    (h : ch.due.length ≤ 1) :
    ({ ch with greeted := true, unread := ch.unread ++ [.greeting] } :
      QmpChannel C E A).due = ch.due := by
  simp only [QmpChannel.due, hgreeted, List.length_append, Bool.false_eq_true, if_false,
    List.length_singleton] at h
  have hunread : ch.unread.filterMap QmpLine.awaited? = [] := List.length_eq_zero_iff.mp (by omega)
  have hrange : (List.range' ch.answered (ch.written.length - ch.answered)).map Awaited.answer = [] :=
    List.length_eq_zero_iff.mp (by omega)
  simp only [QmpChannel.due, hgreeted, List.filterMap_append, hunread, hrange]
  rfl

theorem due_write (ch : QmpChannel C E A) (co : QmpCo) (command : C) (h : ch.due = [])
    (hle : ch.answered ≤ ch.written.length) :
    (ch.write co command).due = [.answer ch.written.length] := by
  simp only [QmpChannel.due, List.append_eq_nil_iff, List.map_eq_nil_iff, List.range'_eq_nil_iff]
    at h
  obtain ⟨hunread, hrange, hgreeted⟩ := h
  have hanswered : ch.answered = ch.written.length := by omega
  have hlength : ch.written.length + 1 - ch.written.length = 1 := by omega
  simp only [QmpChannel.due, QmpChannel.write, hunread, hanswered, List.length_append,
    List.length_singleton, hlength, List.range'_one, hgreeted]
  rfl

namespace ColodQmpState.Served

theorem due_length_le (h : this.Served c) : (this.channel c).due.length ≤ 1 := by
  cases hholder : (this.channel c).lock.holder with
  | none => simp [h.guarded.unheld hholder]
  | some co =>
    have howes := h.guarded.owes_eq co
    rw [if_pos hholder] at howes
    rw [← howes]
    exact owes_length_le _ _

/-- At most one command of the channel is unanswered. -/
theorem written_le (h : this.Served c) :
    (this.channel c).written.length ≤ (this.channel c).answered + 1 := by
  have hlength := h.due_length_le
  simp only [QmpChannel.due, List.length_append, List.length_map, List.length_range'] at hlength
  omega

theorem of_task {t : QmpTask C} {ch : QmpChannel C E A} (hchannel : u.channel c = ch)
    (htask : u.task = Function.update this.task co t)
    (hguarded : Guarded ch.lock (Function.update (this.depth c) co (t.depth c))
      (Function.update (this.owes c) co (t.owes c)) ch.due)
    (hle : ch.answered ≤ ch.written.length) : u.Served c := by
  constructor
  · rw [depth_of_task htask, owes_of_task htask, hchannel]
    exact hguarded
  · rw [hchannel]
    exact hle

/-- A channel that nobody touches stays served while the tasks keep their part in it. -/
theorem of_eq {t : QmpTask C} (h : this.Served c) (hchannel : u.channel c = this.channel c)
    (htask : u.task = Function.update this.task co t)
    (hdepth : t.depth c = this.depth c co) (howes : t.owes c = this.owes c co) : u.Served c := by
  apply of_task hchannel htask
  · rw [hdepth, howes, Function.update_eq_self, Function.update_eq_self]
    exact h.guarded
  · exact h.answered_le

/-- The line that a coroutine reads is the one it waits for, and nothing else is due. -/
theorem consume {line : QmpLine E A} {rest : List (QmpLine E A)} (h : this.Served c)
    (hheld : 0 < this.depth c co) (hunread : (this.channel c).unread = line :: rest)
    (hline : line.awaited? ≠ none) :
    this.owes c co = line.awaited?.toList ∧ ((this.channel c).consume rest).due = [] := by
  obtain ⟨a, ha⟩ := Option.ne_none_iff_exists'.mp hline
  have hdue := due_of_unread (this.channel c) hunread ha
  have hlength := h.due_length_le
  rw [hdue, List.length_cons] at hlength
  have hrest : ((this.channel c).consume rest).due = [] := List.length_eq_zero_iff.mp (by omega)
  refine ⟨?_, hrest⟩
  rw [h.guarded.owes_of_depth hheld, hdue, hrest, ha]
  rfl

theorem of_move (h : ∀ c, this.Served c) (hmove : CoMove this co u) (herror : u.error = false)
    (c : ChannelName) : u.Served c := by
  cases hmove with
  | still t hdepth howes => exact (h c).of_eq rfl rfl (hdepth c) (howes c)
  | failed _ hfailed => exact absurd hfailed (by simp [herror])
  | acquire c' t havailable hdepth hother howes =>
    by_cases hc : c = c'
    · subst hc
      refine of_task (channel_setChannel this c ((this.channel c).acquire co))
        (u := (this.setChannel c ((this.channel c).acquire co)).become co t) rfl ?_ ?_
      · rw [hdepth, howes c]
        have hnext := (h c).guarded.acquire havailable
        rw [← Function.update_eq_self co (this.owes c)] at hnext
        exact hnext
      · exact (h c).answered_le
    · exact (h c).of_eq (Function.update_of_ne hc _ _) rfl (hother c hc) (howes c)
  | write c' command t hheld hdepth hnothing howes hother =>
    by_cases hc : c = c'
    · subst hc
      have hdue : (this.channel c).due = [] := by
        rw [← (h c).guarded.owes_of_depth hheld]
        exact hnothing
      have hwritten := due_write (this.channel c) co command hdue (h c).answered_le
      refine of_task (channel_setChannel this c ((this.channel c).write co command))
        (u := (this.setChannel c ((this.channel c).write co command)).become co t) rfl ?_ ?_
      · rw [hdepth, howes, hwritten]
        have hnext := (h c).guarded.change hheld [.answer (this.channel c).written.length]
        rw [← Function.update_eq_self co (this.depth c)] at hnext
        exact hnext
      · have hle := (h c).answered_le
        simp only [QmpChannel.write, List.length_append, List.length_singleton]
        omega
    · exact (h c).of_eq (Function.update_of_ne hc _ _) rfl (hdepth c) (hother c hc)
  | event c' e rest t hunread k hdepth hother howes hnothing =>
    obtain ⟨hchannel, htask, -, -⟩ := notifyEvent_fields ((this.setChannel c'
      { (this.channel c').consume rest with
        lock := ReentrantLock.release^[k] (this.channel c').lock }).become co t) c' e
    by_cases hc : c = c'
    · subst hc
      have hguarded := (h c).guarded
      have hdue := due_consume_event (this.channel c) hunread
      refine of_task ((congrFun hchannel c).trans (channel_setChannel _ _ _)) htask ?_ (h c).answered_le
      rw [howes c, show t.depth c = this.depth c co - k from by
        simp only [ColodQmpState.depth]; omega]
      change Guarded (ReentrantLock.release^[k] (this.channel c).lock)
        (Function.update (this.depth c) _ _) (Function.update (this.owes c) _ _)
        ((this.channel c).consume rest).due
      rw [show (this.task co).owes c = this.owes c co from rfl, Function.update_eq_self, hdue]
      rcases hnothing with hk | hnothing
      · rw [hk, Nat.sub_zero, Function.update_eq_self]
        exact hguarded
      · by_cases hheld : 0 < this.depth c co
        · have hnone : (this.channel c).due = [] := by
            rw [← hguarded.owes_of_depth hheld, ← hnothing, howes c]
            rfl
          rw [hnone] at hguarded ⊢
          refine hguarded.release_iterate ?_
          simp only [ColodQmpState.depth]
          omega
        · have hk : k = 0 := by
            simp only [ColodQmpState.depth] at hheld
            omega
          rw [hk, Nat.sub_zero, Function.update_eq_self]
          exact hguarded
    · refine (h c).of_eq (t := t) ?_ htask (hother c hc) (howes c)
      rw [hchannel]
      exact Function.update_of_ne hc _ _
  | consume c' line rest t k didYank returned hunread hline hheld hdepth howes hother hothers _ =>
    by_cases hc : c = c'
    · subst hc
      obtain ⟨-, hrest⟩ := (h c).consume hheld hunread hline
      refine of_task (Function.update_self _ _ _) rfl ?_ (h c).answered_le
      rw [howes, show t.depth c = this.depth c co - k from by
        simp only [ColodQmpState.depth]; omega]
      change Guarded (ReentrantLock.release^[k] (this.channel c).lock) _ _
        ((this.channel c).consume rest).due
      rw [hrest]
      have hnext := (h c).guarded.change hheld []
      refine hnext.release_iterate ?_
      simp only [ColodQmpState.depth]
      omega
    · exact (h c).of_eq (Function.update_of_ne hc _ _) rfl (hother c hc) (hothers c hc)

theorem of_sends (h : ∀ c, this.Served c) {c' : ChannelName} {ch : QmpChannel C E A}
    (hsends : Sends (this.channel c') ch) (c : ChannelName) : (this.setChannel c' ch).Served c := by
  by_cases hc : c = c'
  · subst hc
    have hdue : ch.lock = (this.channel c).lock ∧ ch.due = (this.channel c).due ∧
        ch.answered ≤ ch.written.length := by
      have hle := (h c).answered_le
      cases hsends with
      | greet hgreeted => exact ⟨rfl, due_greet _ hgreeted (h c).due_length_le, hle⟩
      | emit e => exact ⟨rfl, due_emit _ e _, hle⟩
      | answer a hlt => exact ⟨rfl, due_answer _ a hlt, hlt⟩
    constructor
    · rw [channel_setChannel, hdue.1, hdue.2.1]
      exact (h c).guarded
    · rw [channel_setChannel]
      exact hdue.2.2
  · have hchannel : (this.setChannel c' ch).channel c = this.channel c :=
      Function.update_of_ne hc _ _
    constructor
    · rw [hchannel]
      exact (h c).guarded
    · rw [hchannel]
      exact (h c).answered_le

end ColodQmpState.Served

/-! ### The ledger of commands, answers and events -/

namespace ColodQmpState

/-- Coroutine `co` wrote command `number` of the channel. -/
def WroteBy (this : ColodQmpState C E A) (c : ChannelName) (number : ℕ) (co : QmpCo) : Prop :=
  ((this.channel c).written[number]?).map Prod.fst = some co

/-- What holds while the sticky error is not set. -/
structure Orderly (this : ColodQmpState C E A) : Prop where
  served : ∀ c, this.Served c
  opens : ∀ c, (this.task (.handshake c)).Opens c
  own : ∀ c co number, .answer number ∈ this.owes c co → this.WroteBy c number co
  opened : ∀ c, ∀ w ∈ (this.channel c).written,
    w.1 = .handshake c ∨ this.task (.handshake c) = .off
  returned : ∀ r ∈ this.returned, (∃ a, r.line = .answer r.number a) ∧
    this.WroteBy r.channel r.number r.caller
  events : this.notified ++ (this.channel .channel).unread.filterMap QmpLine.event? =
    (this.channel .channel).emitted

end ColodQmpState

theorem orderly_qmpNew : (qmpNew : ColodQmpState C E A).Orderly where
  served c := by
    have hdepth : (qmpNew : ColodQmpState C E A).depth c =
        Function.update (fun _ => 0) (.handshake c) 1 := by
      funext co
      cases co with
      | handshake c' =>
        simp only [ColodQmpState.depth, qmpNew, QmpTask.depth, Function.update_apply,
          QmpCo.handshake.injEq, eq_comm]
      | event c' => rfl
      | caller i => rfl
    have howes : (qmpNew : ColodQmpState C E A).owes c =
        Function.update (fun _ => []) (.handshake c) [.greeting] := by
      funext co
      cases co with
      | handshake c' =>
        simp only [ColodQmpState.owes, qmpNew, QmpTask.owes, Function.update_apply,
          QmpCo.handshake.injEq, eq_comm]
      | event c' => rfl
      | caller i => rfl
    constructor
    · rw [hdepth, howes]
      exact ReentrantLock.Guarded.heldBy (QmpCo.handshake c) [Awaited.greeting]
    · exact Nat.le_refl 0
  opens c := .inr (.inl ⟨true, rfl⟩)
  own c co number h := by
    cases co with
    | handshake c' =>
      simp only [ColodQmpState.owes, qmpNew, QmpTask.owes] at h
      split_ifs at h
      · simp at h
      · simp at h
    | event c' => simp [ColodQmpState.owes, qmpNew, QmpTask.owes] at h
    | caller i => simp [ColodQmpState.owes, qmpNew, QmpTask.owes] at h
  opened c w h := absurd h (by simp [qmpNew])
  returned r h := absurd h (by simp [qmpNew])
  events := rfl

/-- The channels' command lists only grow. -/
theorem wroteBy_of_grown {number : ℕ}
    (hgrown : (this.channel c).written <+: (u.channel c).written)
    (h : this.WroteBy c number co) : u.WroteBy c number co := by
  unfold WroteBy at h ⊢
  obtain ⟨w, hw, -⟩ := Option.map_eq_some_iff.mp h
  obtain ⟨rest, hrest⟩ := hgrown
  obtain ⟨hlt, -⟩ := List.getElem?_eq_some_iff.mp hw
  rw [← hrest, List.getElem?_append_left hlt]
  exact h

/-- A coroutine either writes a command, which it then waits for, or waits for nothing new. -/
theorem move_ledger (hmove : CoMove this co u) (herror : u.error = false) :
    ∃ t, u.task = Function.update this.task co t ∧ ∀ c,
      (u.channel c).written = (this.channel c).written ∧ t.owes c ⊆ this.owes c co ∨
      ∃ command, 0 < this.depth c co ∧
        (u.channel c).written = (this.channel c).written ++ [(co, command)] ∧
        t.owes c = [.answer (this.channel c).written.length] := by
  have hset : ∀ {c c' : ChannelName} {ch : QmpChannel C E A},
      ch.written = (this.channel c').written →
      ((this.setChannel c' ch).channel c).written = (this.channel c).written := by
    intro c c' ch hch
    by_cases hc : c = c'
    · subst hc
      rw [channel_setChannel, hch]
    · rw [channel_setChannel_of_ne hc]
  cases hmove with
  | still t _ howes => exact ⟨t, rfl, fun c => .inl ⟨rfl, by rw [howes c]; exact fun _ => id⟩⟩
  | acquire c' t _ _ _ howes =>
    exact ⟨t, rfl, fun c => .inl ⟨hset rfl, by rw [howes c]; exact fun _ => id⟩⟩
  | write c' command t hheld _ _ howes hother =>
    refine ⟨t, rfl, fun c => ?_⟩
    by_cases hc : c = c'
    · subst hc
      exact .inr ⟨command, hheld, congrArg QmpChannel.written (channel_setChannel _ _ _), howes⟩
    · refine .inl ⟨?_, by rw [hother c hc]; exact fun _ => id⟩
      exact congrArg QmpChannel.written (Function.update_of_ne hc _ _)
  | event c' e rest t _ k _ _ howes _ =>
    obtain ⟨hchannel, htask, -, -⟩ := notifyEvent_fields ((this.setChannel c'
      { (this.channel c').consume rest with
        lock := ReentrantLock.release^[k] (this.channel c').lock }).become co t) c' e
    refine ⟨t, htask, fun c => .inl ⟨?_, by rw [howes c]; exact fun _ => id⟩⟩
    rw [hchannel]
    exact hset rfl
  | consume c' line rest t k didYank returned _ _ _ _ howes _ hothers _ =>
    refine ⟨t, rfl, fun c => .inl ⟨hset rfl, ?_⟩⟩
    by_cases hc : c = c'
    · rw [hc, howes]
      exact List.nil_subset _
    · rw [hothers c hc]
      exact fun _ => id
  | failed _ hfailed => exact absurd hfailed (by simp [herror])

theorem written_grows (hmove : CoMove this co u) (herror : u.error = false) (c : ChannelName) :
    (this.channel c).written <+: (u.channel c).written := by
  obtain ⟨t, -, hledger⟩ := move_ledger hmove herror
  rcases hledger c with ⟨hsame, -⟩ | ⟨command, -, hwritten, -⟩
  · exact hsame ▸ List.prefix_rfl
  · rw [hwritten]
    exact List.prefix_append _ _

theorem own_of_move (h : this.Orderly) (hmove : CoMove this co u) (herror : u.error = false)
    (c : ChannelName) (co' : QmpCo) (number : ℕ) (howes : .answer number ∈ u.owes c co') :
    u.WroteBy c number co' := by
  obtain ⟨t, htask, hledger⟩ := move_ledger hmove herror
  rw [owes_of_task htask, Function.update_apply] at howes
  split_ifs at howes with hco
  · subst hco
    rcases hledger c with ⟨-, hsub⟩ | ⟨command, -, hwritten, hnew⟩
    · exact wroteBy_of_grown (written_grows hmove herror c) (h.own c co' number (hsub howes))
    · rw [hnew, List.mem_singleton, Awaited.answer.injEq] at howes
      rw [howes, WroteBy, hwritten, List.getElem?_concat_length]
      rfl
  · exact wroteBy_of_grown (written_grows hmove herror c) (h.own c co' number howes)

/-- Only the handshake writes before it has finished: it holds the lock. -/
theorem opened_of_move (h : this.Orderly) (hmove : CoMove this co u) (herror : u.error = false)
    (hoff : ∀ c, this.task (.handshake c) = .off → u.task (.handshake c) = .off)
    (c : ChannelName) (w : QmpCo × C) (hw : w ∈ (u.channel c).written) :
    w.1 = .handshake c ∨ u.task (.handshake c) = .off := by
  have hold : w ∈ (this.channel c).written →
      w.1 = .handshake c ∨ u.task (.handshake c) = .off := by
    intro hmem
    exact (h.opened c w hmem).imp_right (hoff c)
  obtain ⟨t, -, hledger⟩ := move_ledger hmove herror
  rcases hledger c with ⟨hsame, -⟩ | ⟨command, hheld, hwritten, -⟩
  · exact hold (hsame ▸ hw)
  · rw [hwritten, List.mem_append, List.mem_singleton] at hw
    rcases hw with hw | rfl
    · exact hold hw
    · by_cases hdone : this.task (.handshake c) = .off
      · exact .inr (hoff c hdone)
      · exact .inl ((h.served c).guarded.eq_of_depth hheld (opens_depth (h.opens c) hdone))

theorem returned_of_move (h : this.Orderly) (hmove : CoMove this co u) (herror : u.error = false)
    (r : QmpReturn E A) (hr : r ∈ u.returned) :
    (∃ a, r.line = .answer r.number a) ∧ u.WroteBy r.channel r.number r.caller := by
  have hold : r ∈ this.returned →
      (∃ a, r.line = .answer r.number a) ∧ u.WroteBy r.channel r.number r.caller := by
    intro hmem
    exact (h.returned r hmem).imp_right (wroteBy_of_grown (written_grows hmove herror _))
  have hgrown := written_grows hmove herror
  cases hmove with
  | still t _ _ => exact hold hr
  | acquire c t _ _ _ _ => exact hold hr
  | write c command t _ _ _ _ _ => exact hold hr
  | event c e rest t _ k _ _ _ _ =>
    obtain ⟨-, -, -, hreturned⟩ := notifyEvent_fields ((this.setChannel c
      { (this.channel c).consume rest with
        lock := ReentrantLock.release^[k] (this.channel c).lock }).become co t) c e
    rw [hreturned] at hr
    exact hold hr
  | failed _ hfailed => exact absurd hfailed (by simp [herror])
  | consume c line rest t k didYank returned hunread hline hheld _ _ _ _ hreturned =>
    rcases List.mem_append.mp hr with hr | hr
    · exact hold hr
    · rcases hreturned with rfl | ⟨number, howes, rfl⟩
      · exact absurd hr (by simp)
      · rw [List.mem_singleton] at hr
        subst hr
        obtain ⟨hown, -⟩ := (h.served c).consume hheld hunread hline
        rw [show this.owes c co = [.answer number] from howes] at hown
        refine ⟨?_, wroteBy_of_grown (hgrown c) (h.own c co number ?_)⟩
        · cases line with
          | greeting => simp [QmpLine.awaited?] at hown
          | event e => simp [QmpLine.awaited?] at hown
          | answer number' a =>
            simp only [QmpLine.awaited?, Option.toList_some, List.cons.injEq,
              Awaited.answer.injEq] at hown
            exact ⟨a, by rw [hown.1]⟩
        · simp [ColodQmpState.owes, howes]

/-- The events that are passed on, followed by those still unread, are those that qemu sent. -/
theorem events_of_move (h : this.Orderly) (hmove : CoMove this co u) (herror : u.error = false) :
    u.notified ++ (u.channel .channel).unread.filterMap QmpLine.event? =
      (u.channel .channel).emitted := by
  have hset : ∀ {c : ChannelName} {ch : QmpChannel C E A},
      ch.unread.filterMap QmpLine.event? = (this.channel c).unread.filterMap QmpLine.event? →
      ch.emitted = (this.channel c).emitted →
      this.notified ++
          ((this.setChannel c ch).channel .channel).unread.filterMap QmpLine.event? =
        ((this.setChannel c ch).channel .channel).emitted := by
    intro c ch hunread hemitted
    by_cases hc : c = .channel
    · subst hc
      rw [channel_setChannel, hunread, hemitted]
      exact h.events
    · rw [channel_setChannel_of_ne (Ne.symm hc)]
      exact h.events
  cases hmove with
  | still t _ _ => exact h.events
  | acquire c t _ _ _ _ => exact hset rfl rfl
  | write c command t _ _ _ _ _ => exact hset rfl rfl
  | failed _ hfailed => exact absurd hfailed (by simp [herror])
  | event c e rest t hunread k _ _ _ _ =>
    cases c with
    | yankChannel => exact h.events
    | channel =>
      have hevents := h.events
      rw [hunread] at hevents
      simp only [List.filterMap_cons, QmpLine.event?] at hevents
      simp only [notifyEvent, ChannelName.discardEvents, Bool.false_eq_true, if_false, become,
        channel_setChannel, QmpChannel.consume]
      rw [← hevents]
      simp [setChannel]
  | consume c line rest t k didYank returned hunread hline _ _ _ _ _ _ =>
    apply hset
    · rw [hunread]
      cases line with
      | event e => exact absurd rfl hline
      | greeting => rfl
      | answer number a => rfl
    · rfl

theorem orderly_sends (h : this.Orderly) {ch : QmpChannel C E A}
    (hsends : Sends (this.channel c) ch) : (this.setChannel c ch).Orderly := by
  have hwritten : ∀ c', ((this.setChannel c ch).channel c').written =
      (this.channel c').written := by
    intro c'
    by_cases hc : c' = c
    · subst hc
      rw [channel_setChannel]
      cases hsends <;> rfl
    · rw [channel_setChannel_of_ne hc]
  have hwrote : ∀ {c' number co}, this.WroteBy c' number co →
      (this.setChannel c ch).WroteBy c' number co := by
    intro c' number co
    exact wroteBy_of_grown (hwritten c' ▸ List.prefix_rfl)
  constructor
  · exact Served.of_sends h.served hsends
  · exact h.opens
  · intro c' co number howes
    exact hwrote (h.own c' co number howes)
  · intro c' w hw
    rw [hwritten] at hw
    exact h.opened c' w hw
  · intro r hr
    exact (h.returned r hr).imp_right hwrote
  · by_cases hc : c = .channel
    · subst hc
      rw [channel_setChannel]
      have hevents := h.events
      cases hsends with
      | greet hgreeted =>
        rw [List.filterMap_append, ← List.append_assoc]
        exact (List.append_nil _).trans hevents
      | answer a hlt =>
        rw [List.filterMap_append, ← List.append_assoc]
        exact (List.append_nil _).trans hevents
      | emit e =>
        rw [List.filterMap_append, ← List.append_assoc]
        exact congrArg (· ++ [e]) hevents
    · rw [channel_setChannel_of_ne (Ne.symm hc)]
      exact h.events

theorem orderly_step {label : QmpLabel C E A} (h : this.Orderly)
    (hstep : qmpStep d this label = some u) (herror : u.error = false) : u.Orderly := by
  have hhandshake := fun c => handshake_step hstep herror (h.opens c)
  rcases step_change hstep with ⟨c, ch, hsends⟩ | ⟨co, u, hmove⟩
  · exact orderly_sends h hsends
  · constructor
    · exact Served.of_move h.served hmove herror
    · intro c
      exact (hhandshake c).1
    · exact own_of_move h hmove herror
    · exact opened_of_move h hmove herror fun c => (hhandshake c).2
    · exact returned_of_move h hmove herror
    · exact events_of_move h hmove herror

/-- The sticky error stays set. -/
theorem error_step {label : QmpLabel C E A} (hstep : qmpStep d this label = some u)
    (herror : u.error = false) : this.error = false := by
  rcases step_change hstep with ⟨c, ch, -⟩ | ⟨co, u, hmove⟩
  · exact herror
  · cases hmove with
    | still t _ _ => exact herror
    | acquire c t _ _ _ _ => exact herror
    | write c command t _ _ _ _ _ => exact herror
    | consume c line rest t k didYank returned _ _ _ _ _ _ _ _ => exact herror
    | failed _ hfailed => exact absurd hfailed (by simp [herror])
    | event c e rest t _ k _ _ _ _ =>
      obtain ⟨-, -, hsame, -⟩ := notifyEvent_fields ((this.setChannel c
        { (this.channel c).consume rest with
          lock := ReentrantLock.release^[k] (this.channel c).lock }).become co t) c e
      exact hsame.symm.trans herror

theorem orderly_run {labels : List (QmpLabel C E A)}
    (hrun : run (qmpStep d) qmpNew labels = some u) (herror : u.error = false) : u.Orderly := by
  have hinv : u.error = false → u.Orderly := by
    refine run_invariant (P := fun v => v.error = false → v.Orderly) ?_ hrun ?_
    · intro v label w hstep hv hw
      exact orderly_step (hv (error_step hstep hw)) hstep hw
    · intro _
      exact orderly_qmpNew
  exact hinv herror

theorem error_readLine {line : Option (QmpLine E A)} (h : qmpReadLineCo this c = some (line, u)) :
    u.error = this.error := by
  obtain ⟨e, rest, -, -, rfl⟩ | ⟨l, rest, -, -, -, rfl⟩ := readLine_cases h
  · exact (notifyEvent_fields _ c e).2.2.1
  · rfl

theorem error_execute {point : ExecutePoint C} {r : ExecutePoint C ⊕ QmpLine E A}
    (h : qmpExecuteCo this co c point = some (r, u)) : u.error = this.error := by
  cases point with
  | lock command =>
    simp only [qmpExecuteCo] at h
    split_ifs at h
    · simp only [Option.some.injEq, Prod.mk.injEq] at h
      rw [← h.2]
      rfl
    · simp only [Option.some.injEq, Prod.mk.injEq] at h
      rw [← h.2]
  | write command =>
    simp only [qmpExecuteCo, Option.some.injEq, Prod.mk.injEq] at h
    rw [← h.2]
    rfl
  | idle number =>
    simp only [qmpExecuteCo, Option.some.injEq, Prod.mk.injEq] at h
    rw [← h.2]
  | read number =>
    simp only [qmpExecuteCo] at h
    split at h
    · exact absurd h (by simp)
    · next v hread =>
      simp only [Option.some.injEq, Prod.mk.injEq] at h
      rw [← h.2]
      exact error_readLine hread
    · next l v hread =>
      simp only [Option.some.injEq, Prod.mk.injEq] at h
      have hv := error_readLine hread
      rw [← h.2]
      exact hv

/-- Without failures, timeouts and commands answered by an error the sticky error stays unset: the
event coroutine never comes upon an answer. -/
theorem error_runCo (h : runCo d this co = some u) (horderly : this.Orderly)
    (herror : this.error = false) (hanswers : ∀ line, d.isError line = false) :
    u.error = false := by
  unfold runCo at h
  split at h
  · exact absurd h (by simp)
  · rw [Option.some.injEq] at h
    rw [← h]
    exact herror
  · split at h
    · exact absurd h (by simp)
    · next v hread =>
      rw [Option.some.injEq] at h
      rw [← h]
      exact (error_readLine hread).trans herror
    · next l v hread =>
      rw [Option.some.injEq] at h
      rw [← h]
      exact (error_readLine hread).trans herror
  · split at h
    · exact absurd h (by simp)
    · next point v hexec =>
      rw [Option.some.injEq] at h
      rw [← h]
      exact (error_execute hexec).trans herror
    · next line v hexec =>
      rw [Option.some.injEq, hanswers] at h
      rw [← h]
      exact (error_execute hexec).trans herror
  · split_ifs at h
    · rw [Option.some.injEq] at h
      rw [← h]
      exact herror
    · rw [Option.some.injEq] at h
      rw [← h]
      exact herror
  · next c htask =>
    have hnothing : ∀ line rest, (this.channel c).unread = line :: rest → line.awaited? = none := by
      intro line rest hunread
      by_contra hline
      have hheld : 0 < this.depth c co := by simp [ColodQmpState.depth, htask, QmpTask.depth]
      obtain ⟨howes, -⟩ := (horderly.served c).consume hheld hunread hline
      obtain ⟨a, ha⟩ := Option.ne_none_iff_exists'.mp hline
      simp [ColodQmpState.owes, htask, QmpTask.owes, ha] at howes
    unfold qmpEventCo at h
    split at h
    · exact absurd h (by simp)
    · next line rest hunread =>
      have hline := hnothing line rest hunread
      cases line with
      | greeting => simp [QmpLine.awaited?] at hline
      | answer number a => simp [QmpLine.awaited?] at hline
      | event e =>
        rw [Option.some.injEq] at h
        rw [← h]
        exact (notifyEvent_fields _ c e).2.2.1.trans herror
  · split at h
    · exact absurd h (by simp)
    · next point v hexec =>
      rw [Option.some.injEq] at h
      rw [← h]
      exact (error_execute hexec).trans herror
    · next line v hexec =>
      rw [Option.some.injEq] at h
      rw [← h]
      exact (error_execute hexec).trans herror
  · split at h
    · exact absurd h (by simp)
    · next point v hexec =>
      rw [Option.some.injEq] at h
      rw [← h]
      exact (error_execute hexec).trans herror
    · next line v hexec =>
      rw [hanswers, if_neg (by simp), Option.some.injEq] at h
      rw [← h]
      exact (error_execute hexec).trans herror
  · next outer point htask =>
    split at h
    · exact absurd h (by simp)
    · next point v hexec =>
      rw [Option.some.injEq] at h
      rw [← h]
      exact (error_execute hexec).trans herror
    · next line v hexec =>
      rw [hanswers, if_neg (by simp), Option.some.injEq] at h
      rw [← h]
      have hv := (error_execute hexec).trans herror
      cases outer with
      | none => exact hv
      | some number => exact hv

/-- What resuming a coroutine does to the stream of a channel. -/
theorem stream_of_move (hmove : CoMove this co u) (herror : u.error = false) :
    (u.channel .channel).unread = (this.channel .channel).unread ∧ u.notified = this.notified ∨
    (∃ e, (this.channel .channel).unread = .event e :: (u.channel .channel).unread ∧
      u.notified = this.notified ++ [e] ∧ u.returned = this.returned) ∨
    (∃ line, line.awaited? ≠ none ∧
      (this.channel .channel).unread = line :: (u.channel .channel).unread ∧
      u.notified = this.notified) := by
  have hset : ∀ {c : ChannelName} {ch : QmpChannel C E A}, ch.unread = (this.channel c).unread →
      ((this.setChannel c ch).channel .channel).unread = (this.channel .channel).unread := by
    intro c ch hch
    by_cases hc : c = .channel
    · subst hc
      rw [channel_setChannel, hch]
    · rw [channel_setChannel_of_ne (Ne.symm hc)]
  cases hmove with
  | still t _ _ => exact .inl ⟨rfl, rfl⟩
  | acquire c t _ _ _ _ => exact .inl ⟨hset rfl, rfl⟩
  | write c command t _ _ _ _ _ => exact .inl ⟨hset rfl, rfl⟩
  | failed _ hfailed => exact absurd hfailed (by simp [herror])
  | event c e rest t hunread k _ _ _ _ =>
    cases c with
    | yankChannel => exact .inl ⟨rfl, rfl⟩
    | channel => exact .inr (.inl ⟨e, hunread, rfl, rfl⟩)
  | consume c line rest t k didYank returned hunread hline _ _ _ _ _ _ =>
    cases c with
    | yankChannel => exact .inl ⟨rfl, rfl⟩
    | channel => exact .inr (.inr ⟨line, hline, hunread, rfl⟩)

/-- While the sticky error is not set, a call of `__qmp_execute_co` returns the answer to the
command that it wrote, nobody but the handshake writes to a channel before the handshake has
finished, a channel has at most one unanswered command, and the events passed on are those of the
main channel in the order of the stream. -/
theorem callers_get_own_answers {labels : List (QmpLabel C E A)}
    (hrun : run (qmpStep d) qmpNew labels = some u) (herror : u.error = false) :
    (∀ r ∈ u.returned, (∃ a, r.line = .answer r.number a) ∧
      ((u.channel r.channel).written[r.number]?).map Prod.fst = some r.caller) ∧
    (∀ c, ∀ w ∈ (u.channel c).written, w.1 = .handshake c ∨ u.task (.handshake c) = .off) ∧
    (∀ c, (u.channel c).written.length ≤ (u.channel c).answered + 1) ∧
    u.notified ++ (u.channel .channel).unread.filterMap QmpLine.event? =
      (u.channel .channel).emitted := by
  have h := orderly_run hrun herror
  exact ⟨h.returned, h.opened, fun c => (h.served c).written_le, h.events⟩

/-- Both handshakes, then a query that times out: the yank is nested in its read, an event comes in
on each channel, and the answer to the query is read after the yank. The texts abbreviate the lines. -/
def slowQuery : List (QmpLabel String String String) :=
  let handshake (c : ChannelName) : List (QmpLabel String String String) :=
    [.greet c] ++ List.replicate 4 (.run (.handshake c)) ++
      [.answer c "return", .run (.handshake c)]
  let co := QmpCo.caller 0
  handshake .channel ++ handshake .yankChannel ++
    [.execute 0 "query-status", .run co, .run co, .timeout co, .run co, .run co,
      .emit .yankChannel "RESUME", .answer .yankChannel "migration", .run co,
      .run co, .run co, .run co, .answer .yankChannel "return", .run co,
      .emit .channel "RESUME", .answer .channel "running", .run co,
      .run co, .run co]

def yankMigration : QmpDialect String String String where
  qmpCapabilities := "qmp_capabilities"
  queryYank := "query-yank"
  yank _ := "yank migration"
  isError _ := false

theorem callers_get_own_answers_slow : ∃ u : ColodQmpState String String String,
    run (qmpStep yankMigration) qmpNew slowQuery = some u ∧
    u.returned.getLast? =
      some ⟨.channel, .caller 0, 1, .answer 1 "running"⟩ ∧
    u.notified = ["RESUME"] ∧
    (∀ r ∈ u.returned, (∃ a, r.line = .answer r.number a) ∧
      ((u.channel r.channel).written[r.number]?).map Prod.fst = some r.caller) ∧
    (∀ c, ∀ w ∈ (u.channel c).written, w.1 = .handshake c ∨ u.task (.handshake c) = .off) ∧
    (∀ c, (u.channel c).written.length ≤ (u.channel c).answered + 1) ∧
    u.notified ++ (u.channel .channel).unread.filterMap QmpLine.event? =
      (u.channel .channel).emitted := by
  have hfields : (run (qmpStep yankMigration) qmpNew slowQuery).map
      (fun u => (u.error, u.returned.getLast?, u.notified)) =
      some (false, some ⟨.channel, .caller 0, 1, .answer 1 "running"⟩,
        ["RESUME"]) := rfl
  obtain ⟨u, hrun, hu⟩ := Option.map_eq_some_iff.mp hfields
  simp only [Prod.mk.injEq] at hu
  obtain ⟨herror, hreturned, hnotified⟩ := hu
  exact ⟨u, hrun, hreturned, hnotified, callers_get_own_answers hrun herror⟩

end ColoDaemon
