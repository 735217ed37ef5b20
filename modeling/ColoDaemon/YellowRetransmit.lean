import ColoDaemon.Cpg
import ColoDaemon.Runs

/-!
# Yellow status over unreliable multicasts

A multicast that `cpg_mcast_joined` does not accept is lost. `Group` runs the sender's `Cpg`
against an environment that accepts any of its multicasts and delivers the accepted ones in order,
to the sender and to the peer. One flag for each kind, sent again in the order of the enumeration
and cleared by any copy, does not remember which of the two yellow messages was the last: the
status converges as long as the flag of the last one stays set until a copy of it is the last one
accepted.
-/

namespace ColoDaemon
open Runs

/-- `log` are the accepted multicasts; `sender` and `peer` count the ones delivered to each, and
`sends` are the calls of `colod_cpg_send` that are not retransmissions. -/
structure Group where
  cpg : Cpg
  log : List ColodMessage
  sender : ℕ
  peer : ℕ
  sends : List ColodMessage

inductive GroupLabel
  | send (message : ColodMessage) (accepted : Bool)
  | tick (accepted : List Bool)
  | left (accepted : List Bool)
  | deliverSender
  | deliverPeer
  deriving DecidableEq, Repr

/-- The step is a call of `colod_cpg_send` by the daemon's own logic. -/
def GroupLabel.isSend : GroupLabel → Bool
  | .send .. => true
  | _ => false

namespace Group
variable {g h : Group}

def new : Group := ⟨.new, [], 0, 0, []⟩

/-- The messages of `messages` that are accepted. -/
def accept (accepted : List Bool) (messages : List ColodMessage) : List ColodMessage :=
  ((messages.zip accepted).filter Prod.snd).map Prod.fst

/-- The sender's state changes to `cpg` and its new multicasts are accepted or lost. -/
def multicast (this : Group) (cpg : Cpg) (accepted : List Bool) : Group :=
  { this with
    cpg
    log := this.log ++ accept accepted (cpg.outbox.drop this.cpg.outbox.length) }

def step (this : Group) : GroupLabel → Option Group
  | .send message accepted =>
    some { this.multicast (colodCpgSend this.cpg message) [accepted] with
      sends := this.sends ++ [message] }
  | .tick accepted =>
    if this.cpg.retransmitSource then
      some (this.multicast (colodCpgRetransmitCb this.cpg) accepted)
    else none
  | .left accepted => some (this.multicast (colodCpgRetransmit this.cpg).2 accepted)
  | .deliverSender =>
    match this.log[this.sender]? with
    | some message =>
      some { this with cpg := colodCpgDeliver this.cpg message true, sender := this.sender + 1 }
    | none => none
  | .deliverPeer =>
    if this.peer < this.log.length then some { this with peer := this.peer + 1 } else none

/-- The property: once nothing is pending or in flight, the peer's last yellow message is the one
sent last. -/
def Converged (g : Group) : Prop :=
  (∀ message, g.cpg.retransmit message = false) → g.sender = g.log.length →
    g.peer = g.log.length → lastYellow (g.log.take g.peer) = lastYellow g.sends

/-- The yellow message sent last is neither pending nor the last one accepted. -/
def Forgotten (g : Group) : Prop :=
  ∃ message, lastYellow g.sends = some message ∧ g.cpg.retransmit message = false ∧
    lastYellow g.log ≠ some message

/-- The condition on a step: no copy of the yellow message sent last is delivered to its sender
while the other one is the last accepted, and no copy of the other one is accepted in a
retransmission after the one sent last has been acknowledged. -/
def Remembers (g : Group) : GroupLabel → Prop
  | .deliverSender => ∀ message, lastYellow g.sends = some message →
    g.log[g.sender]? = some message → lastYellow g.log = some message
  | .tick accepted | .left accepted => ∀ message, lastYellow g.sends = some message →
    g.cpg.retransmit message = false → lastYellow (accept accepted g.cpg.pending) = none
  | .send .. | .deliverPeer => True

/-! ### Accepted messages -/

theorem mem_of_mem_accept {accepted : List Bool} {messages : List ColodMessage}
    {message : ColodMessage} (hmem : message ∈ accept accepted messages) : message ∈ messages := by
  obtain ⟨⟨m, a⟩, hin, rfl⟩ := List.mem_map.mp hmem
  exact (List.of_mem_zip (List.mem_filter.mp hin).1).1

theorem accept_replicate (messages : List ColodMessage) :
    accept (List.replicate messages.length true) messages = messages := by
  induction messages with
  | nil => rfl
  | cons message messages ih => exact congrArg (message :: ·) ih

theorem log_retransmit {cpg : Cpg} {accepted : List Bool}
    (hcpg : cpg.outbox = g.cpg.outbox ++ g.cpg.pending) :
    (g.multicast cpg accepted).log = g.log ++ accept accepted g.cpg.pending := by
  simp [multicast, hcpg]

theorem log_send (g : Group) (message : ColodMessage) (accepted : List Bool) :
    (g.multicast (colodCpgSend g.cpg message) accepted).log =
      g.log ++ accept accepted [message] := by
  simp [multicast, colodCpgSend]

/-- The steps, with the two kinds of retransmission taken together. -/
theorem step_cases {label : GroupLabel} (hstep : step g label = some h) :
    (∃ message accepted, label = .send message accepted ∧ h.sends = g.sends ++ [message] ∧
      h.cpg.retransmit = Function.update g.cpg.retransmit message true ∧
      h.log = g.log ++ accept [accepted] [message] ∧ h.sender = g.sender ∧ h.peer = g.peer) ∨
    (∃ accepted, (label = .tick accepted ∨ label = .left accepted) ∧ h.sends = g.sends ∧
      h.cpg.retransmit = g.cpg.retransmit ∧ h.log = g.log ++ accept accepted g.cpg.pending ∧
      h.sender = g.sender ∧ h.peer = g.peer) ∨
    (∃ message, label = .deliverSender ∧ g.log[g.sender]? = some message ∧
      h = { g with cpg := colodCpgDeliver g.cpg message true, sender := g.sender + 1 }) ∨
    (label = .deliverPeer ∧ g.peer < g.log.length ∧ h = { g with peer := g.peer + 1 }) := by
  cases label with
  | send message accepted =>
    cases hstep
    exact .inl ⟨message, accepted, rfl, rfl, rfl, log_send g message [accepted], rfl, rfl⟩
  | tick accepted =>
    simp only [step] at hstep
    split_ifs at hstep
    cases hstep
    obtain ⟨hr, ho⟩ := colodCpgRetransmitCb_eq g.cpg
    exact .inr (.inl ⟨accepted, .inl rfl, rfl, hr, log_retransmit ho, rfl, rfl⟩)
  | left accepted =>
    cases hstep
    obtain ⟨hr, ho⟩ := colodCpgRetransmit_eq g.cpg
    exact .inr (.inl ⟨accepted, .inr rfl, rfl, hr, log_retransmit ho, rfl, rfl⟩)
  | deliverSender =>
    simp only [step] at hstep
    split at hstep
    · rename_i message hmessage
      cases hstep
      exact .inr (.inr (.inl ⟨message, rfl, hmessage, rfl⟩))
    · cases hstep
  | deliverPeer =>
    simp only [step] at hstep
    split_ifs at hstep with hlt
    cases hstep
    exact .inr (.inr (.inr ⟨rfl, hlt, rfl⟩))

/-! ### The invariant -/

/-- Only what was sent is pending or accepted. -/
structure Sound (g : Group) : Prop where
  pending : ∀ message, g.cpg.retransmit message = true → message ∈ g.sends
  log : ∀ message ∈ g.log, message ∈ g.sends
  sender : g.sender ≤ g.log.length
  peer : g.peer ≤ g.log.length

theorem sound_step {label : GroupLabel} (hstep : step g label = some h) (hg : g.Sound) :
    h.Sound := by
  rcases step_cases hstep with ⟨message, accepted, -, hsends, hflags, hlog, hsender, hpeer⟩ |
    ⟨accepted, -, hsends, hflags, hlog, hsender, hpeer⟩ | ⟨message, -, hmessage, rfl⟩ |
    ⟨-, hlt, rfl⟩
  · refine ⟨?_, ?_, ?_, ?_⟩
    · intro m hm
      rw [hflags] at hm
      rw [hsends, List.mem_append]
      by_cases heq : m = message
      · exact .inr (List.mem_singleton.mpr heq)
      · rw [Function.update_of_ne heq] at hm
        exact .inl (hg.pending m hm)
    · intro m hm
      rw [hlog] at hm
      rw [hsends, List.mem_append]
      rcases List.mem_append.mp hm with hm | hm
      · exact .inl (hg.log m hm)
      · exact .inr (mem_of_mem_accept hm)
    · have hle := hg.sender
      rw [hsender, hlog, List.length_append]
      omega
    · have hle := hg.peer
      rw [hpeer, hlog, List.length_append]
      omega
  · refine ⟨?_, ?_, ?_, ?_⟩
    · intro m hm
      rw [hflags] at hm
      rw [hsends]
      exact hg.pending m hm
    · intro m hm
      rw [hlog] at hm
      rw [hsends]
      rcases List.mem_append.mp hm with hm | hm
      · exact hg.log m hm
      · exact hg.pending m (mem_pending.mp (mem_of_mem_accept hm))
    · have hle := hg.sender
      rw [hsender, hlog, List.length_append]
      omega
    · have hle := hg.peer
      rw [hpeer, hlog, List.length_append]
      omega
  · obtain ⟨hlt, -⟩ := List.getElem?_eq_some_iff.mp hmessage
    refine ⟨?_, hg.log, hlt, hg.peer⟩
    intro m hm
    apply hg.pending m
    by_cases heq : m = message
    · simp [colodCpgDeliver, heq] at hm
    · simpa [colodCpgDeliver, heq] using hm
  · exact ⟨hg.pending, hg.log, hg.sender, hlt⟩

theorem sound_of_run {labels : List GroupLabel} (hrun : run step new labels = some g) :
    g.Sound :=
  run_invariant (fun _ _ _ => sound_step) hrun
    ⟨by simp [new, Cpg.new], by simp [new], Nat.le_refl _, Nat.le_refl _⟩

theorem lastYellow_send (sends : List ColodMessage) (message : ColodMessage) :
    lastYellow (sends ++ [message]) =
      if message.isYellow then some message else lastYellow sends := by
  rw [lastYellow_append]
  cases hy : message.isYellow <;> simp [lastYellow, hy]

/-- The condition keeps the message sent last from being forgotten. -/
theorem remembered_step {label : GroupLabel} (hstep : step g label = some h)
    (hg : ¬ g.Forgotten) (hl : g.Remembers label) : ¬ h.Forgotten := by
  rintro ⟨x, hlast, hflag, hlog⟩
  rcases step_cases hstep with ⟨message, accepted, -, hsends, hflags, hlog', -⟩ |
    ⟨accepted, hlabel, hsends, hflags, hlog', -⟩ | ⟨message, rfl, hmessage, rfl⟩ | ⟨-, -, rfl⟩
  · rw [hsends, lastYellow_send] at hlast
    rw [hflags] at hflag
    by_cases hy : message.isYellow = true
    · rw [if_pos hy, Option.some.injEq] at hlast
      rw [hlast, Function.update_self] at hflag
      cases hflag
    · rw [if_neg hy] at hlast
      have hne : x ≠ message := by
        rintro rfl
        exact hy (mem_of_lastYellow hlast).2
      rw [Function.update_of_ne hne] at hflag
      refine hg ⟨x, hlast, hflag, ?_⟩
      have hnone : lastYellow (accept [accepted] [message]) = none := by
        rw [lastYellow_eq_none]
        intro m hm
        rw [List.mem_singleton.mp (mem_of_mem_accept hm)]
        simpa using hy
      rwa [hlog', lastYellow_append, hnone, Option.none_or] at hlog
  · rw [hsends] at hlast
    rw [hflags] at hflag
    have hnone : lastYellow (accept accepted g.cpg.pending) = none := by
      rcases hlabel with rfl | rfl
      · exact hl x hlast hflag
      · exact hl x hlast hflag
    rw [hlog', lastYellow_append, hnone, Option.none_or] at hlog
    exact hg ⟨x, hlast, hflag, hlog⟩
  · by_cases heq : x = message
    · exact hlog (hl x hlast (heq ▸ hmessage))
    · refine hg ⟨x, hlast, ?_, hlog⟩
      simpa [colodCpgDeliver, heq] using hflag
  · exact hg ⟨x, hlast, hflag, hlog⟩

theorem converged_of_remembered (hs : g.Sound) (hg : ¬ g.Forgotten) : g.Converged := by
  intro hflags _ hpeer
  rw [hpeer, List.take_length]
  cases hlast : lastYellow g.sends with
  | none =>
    rw [lastYellow_eq_none] at hlast ⊢
    intro message hmem
    exact hlast message (hs.log message hmem)
  | some x =>
    by_contra hlog
    exact hg ⟨x, hlast, hflags x, hlog⟩

/-! ### The condition is needed -/

theorem forgotten_step {label : GroupLabel} (hstep : step g label = some h)
    (hl : ¬ g.Remembers label) : h.Forgotten := by
  rcases step_cases hstep with ⟨message, accepted, rfl, -⟩ |
    ⟨accepted, hlabel, hsends, hflags, hlog, -⟩ | ⟨message, rfl, hmessage, rfl⟩ | ⟨rfl, -⟩
  · exact absurd trivial hl
  · have hbroken : ∃ x, lastYellow g.sends = some x ∧ g.cpg.retransmit x = false ∧
        lastYellow (accept accepted g.cpg.pending) ≠ none := by
      rcases hlabel with rfl | rfl
      · simpa [Remembers] using hl
      · simpa [Remembers] using hl
    obtain ⟨x, hlast, hflag, hsome⟩ := hbroken
    refine ⟨x, by rw [hsends, hlast], by rw [hflags, hflag], ?_⟩
    obtain ⟨y, hy⟩ := Option.ne_none_iff_exists'.mp hsome
    rw [hlog, lastYellow_append, hy, Option.some_or]
    rintro ⟨⟩
    have hpending := mem_pending.mp (mem_of_mem_accept (mem_of_lastYellow hy).1)
    rw [hflag] at hpending
    cases hpending
  · have hbroken : ∃ x, lastYellow g.sends = some x ∧ g.log[g.sender]? = some x ∧
        lastYellow g.log ≠ some x := by
      simpa [Remembers] using hl
    obtain ⟨x, hlast, hx, hlog⟩ := hbroken
    rw [hmessage] at hx
    cases hx
    exact ⟨message, hlast, by simp [colodCpgDeliver], hlog⟩
  · exact absurd trivial hl

/-- Everything in flight is delivered to the sender. -/
theorem drain_sender {n : ℕ} (hn : g.sender + n = g.log.length) :
    ∃ h, run step g (List.replicate n .deliverSender) = some h ∧ h.log = g.log ∧
      h.sends = g.sends ∧ h.sender = g.log.length ∧ h.peer = g.peer ∧
      ∀ message, h.cpg.retransmit message = true ↔
        g.cpg.retransmit message = true ∧ message ∉ g.log.drop g.sender := by
  induction n generalizing g with
  | zero =>
    refine ⟨g, rfl, rfl, rfl, by omega, rfl, ?_⟩
    intro message
    have hnil : g.log.drop g.sender = [] := List.drop_eq_nil_iff.mpr (by omega)
    simp [hnil]
  | succ n ih =>
    have hlt : g.sender < g.log.length := by omega
    have hget : g.log[g.sender]? = some g.log[g.sender] := List.getElem?_eq_getElem hlt
    have hstep : step g .deliverSender = some { g with
        cpg := colodCpgDeliver g.cpg g.log[g.sender] true
        sender := g.sender + 1 } := by
      simp [step, hget]
    have hleft : g.sender + 1 + n = g.log.length := by omega
    obtain ⟨h, hrun, hlog, hsends, hsender, hpeer, hflags⟩ := ih (g := { g with
      cpg := colodCpgDeliver g.cpg g.log[g.sender] true
      sender := g.sender + 1 }) hleft
    refine ⟨h, run_cons_eq_some.mpr ⟨_, hstep, hrun⟩, hlog, hsends, hsender, hpeer, ?_⟩
    intro message
    rw [hflags, List.drop_eq_getElem_cons hlt, List.mem_cons]
    by_cases heq : message = g.log[g.sender]
    · simp [colodCpgDeliver, heq]
    · simp [colodCpgDeliver, heq]

/-- Everything in flight is delivered to the peer. -/
theorem drain_peer {n : ℕ} (hn : g.peer + n = g.log.length) :
    run step g (List.replicate n .deliverPeer) = some { g with peer := g.log.length } := by
  induction n generalizing g with
  | zero =>
    have hpeer : g.peer = g.log.length := by omega
    rw [← hpeer]
    rfl
  | succ n ih =>
    have hlt : g.peer < g.log.length := by omega
    have hstep : step g .deliverPeer = some { g with peer := g.peer + 1 } := if_pos hlt
    have hleft : g.peer + 1 + n = g.log.length := by omega
    exact run_cons_eq_some.mpr ⟨_, hstep, ih (g := { g with peer := g.peer + 1 }) hleft⟩

/-- A forgotten message is never made up for without another call of the daemon. -/
theorem forgotten_diverges (hs : g.Sound) (hg : g.Forgotten) :
    ∃ labels h, (∀ label ∈ labels, label.isSend = false) ∧ run step g labels = some h ∧
      ¬ h.Converged := by
  obtain ⟨x, hlast, hflag, hlog⟩ := hg
  have hle := hs.sender
  have hlep := hs.peer
  -- deliver what is in flight, repeat what is still pending, deliver that too
  obtain ⟨g₁, hrun₁, hlog₁, hsends₁, hsender₁, hpeer₁, hflags₁⟩ :=
    drain_sender (g := g) (n := g.log.length - g.sender) (by omega)
  obtain ⟨g₂, hstep₂⟩ : ∃ g₂,
      step g₁ (.left (List.replicate g₁.cpg.pending.length true)) = some g₂ := ⟨_, rfl⟩
  rcases step_cases hstep₂ with ⟨_, _, hlabel, -⟩ |
    ⟨accepted, hlabel, hsends₂, hflags₂, hlog₂, hsender₂, hpeer₂⟩ | ⟨_, hlabel, -⟩ | ⟨hlabel, -⟩
  · cases hlabel
  · have hall : accepted = List.replicate g₁.cpg.pending.length true := by
      rcases hlabel with hlabel | hlabel
      · cases hlabel
      · cases hlabel
        rfl
    rw [hall, accept_replicate, hlog₁] at hlog₂
    have hlen₂ : g₂.log.length = g.log.length + g₁.cpg.pending.length := by
      rw [hlog₂, List.length_append]
    obtain ⟨g₃, hrun₃, hlog₃, hsends₃, hsender₃, hpeer₃, hflags₃⟩ :=
      drain_sender (g := g₂) (n := g₁.cpg.pending.length) (by rw [hsender₂, hsender₁, hlen₂])
    have hrun₄ := drain_peer (g := g₃) (n := g₂.log.length - g.peer) (by
      rw [hpeer₃, hpeer₂, hpeer₁, hlog₃]
      omega)
    refine ⟨_, _, ?_, run_append_eq_some.mpr ⟨g₁, hrun₁, run_cons_eq_some.mpr ⟨g₂, hstep₂,
      run_append_eq_some.mpr ⟨g₃, hrun₃, hrun₄⟩⟩⟩, ?_⟩
    · intro label hmem
      simp only [List.mem_append, List.mem_cons, List.mem_replicate] at hmem
      rcases hmem with ⟨-, rfl⟩ | rfl | ⟨-, rfl⟩ | ⟨-, rfl⟩ <;> rfl
    · intro hconverged
      have hquiet : ∀ message, g₃.cpg.retransmit message = false := by
        intro message
        by_contra hpending
        obtain ⟨hfl, hnot⟩ := (hflags₃ message).mp (by simpa using hpending)
        rw [hflags₂] at hfl
        apply hnot
        rw [hlog₂, hsender₂, hsender₁, List.drop_left]
        exact mem_pending.mpr hfl
      have hend := hconverged hquiet (by rw [hsender₃, hlog₃]) rfl
      simp only [List.take_length] at hend
      rw [hlog₃, hsends₃, hsends₂, hsends₁, hlast, hlog₂, lastYellow_append] at hend
      cases hy : lastYellow g₁.cpg.pending with
      | none =>
        rw [hy, Option.none_or] at hend
        exact hlog hend
      | some y =>
        rw [hy, Option.some_or, Option.some.injEq] at hend
        have hpending := mem_pending.mp (mem_of_lastYellow hy).1
        rw [hend, hflags₁] at hpending
        rw [hflag] at hpending
        cases hpending.1
  · cases hlabel
  · cases hlabel

/-! ### The claim -/

/-- In a run whose steps all meet the condition every state reached has converged; and after a
step that does not meet it the run can go on, without another call of the daemon, to a state that
has not. -/
theorem converges_iff_remembers (labels : List GroupLabel) (g : Group)
    (hrun : run step new labels = some g) :
    (Along step Remembers new labels → g.Converged) ∧
    (∀ label h, step g label = some h → ¬ g.Remembers label →
      ∃ labels' h', (∀ l ∈ labels', GroupLabel.isSend l = false) ∧
        run step h labels' = some h' ∧ ¬ h'.Converged) := by
  constructor
  · intro halong
    have hnew : ¬ new.Forgotten := by
      rintro ⟨x, hlast, -⟩
      cases hlast
    have hg : ¬ g.Forgotten :=
      run_invariant_along (P := fun u => ¬ u.Forgotten)
        (fun _ _ _ hstep hl hu => remembered_step hstep hu hl) hrun halong hnew
    exact converged_of_remembered (sound_of_run hrun) hg
  · intro label h hstep hl
    exact forgotten_diverges (sound_step hstep (sound_of_run hrun)) (forgotten_step hstep hl)

/-- The node turns yellow, then everything is delivered. -/
theorem converges_iff_remembers_yellow :
    ∃ g, run step new [.send .yellow true, .deliverSender, .deliverPeer] = some g ∧
      g.Converged ∧ lastYellow (g.log.take g.peer) = some .yellow := by
  have halong : Along step Remembers new [.send .yellow true, .deliverSender, .deliverPeer] := by
    refine ⟨trivial, ?_⟩
    rintro u ⟨⟩
    refine ⟨fun message hlast _ => hlast, ?_⟩
    rintro v ⟨⟩
    exact ⟨trivial, fun _ _ => trivial⟩
  exact ⟨_, rfl, (converges_iff_remembers _ _ rfl).1 halong, rfl⟩

/-- `MESSAGE_UNYELLOW` and then `MESSAGE_YELLOW` are sent and a retransmission repeats both in the
order of the enumeration before the copies arrive. -/
def crossing : List GroupLabel :=
  [.send .unyellow true, .send .yellow true, .tick [true, true]] ++
    List.replicate 4 .deliverSender ++ List.replicate 4 .deliverPeer

theorem yellow_diverges : ¬ ∀ labels g, run step new labels = some g → g.Converged := by
  intro hclaim
  have hcheck : (run step new crossing).map (fun g =>
      (ColodMessage.all.map g.cpg.retransmit, g.sender, g.peer, g.log, g.sends)) =
      some (List.replicate 6 false, 4, 4, [.unyellow, .yellow, .yellow, .unyellow],
        [.unyellow, .yellow]) := by decide
  obtain ⟨g, hrun, hg⟩ := Option.map_eq_some_iff.mp hcheck
  simp only [Prod.mk.injEq] at hg
  obtain ⟨hflags, hsender, hpeer, hlog, hsends⟩ := hg
  have hquiet : ∀ message, g.cpg.retransmit message = false := by
    simp only [ColodMessage.all, List.map_cons, List.map_nil, List.replicate, List.cons.injEq]
      at hflags
    intro message
    cases message <;> simp [hflags]
  have hlast := hclaim _ g hrun hquiet (by rw [hsender, hlog]; rfl) (by rw [hpeer, hlog]; rfl)
  rw [hpeer, hlog, hsends] at hlast
  have hwrong : some ColodMessage.unyellow = some ColodMessage.yellow := hlast
  cases hwrong

end Group
end ColoDaemon
