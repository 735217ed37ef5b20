import Mathlib.Algebra.Ring.Nat
import ColoDaemon.Cpg
import ColoDaemon.Runs

/-!
# The group and its wire format

Any number of daemons in one group of CPG. A message travels as the four bytes of `htonl`. The
group accepts a multicast or not, puts the accepted ones into one order for all members, and tells
the members when one has left. `colod_cpg_deliver` uses what it has read as an index where the
message is the node's own.
-/

namespace ColoDaemon
namespace CpgGroup

/-! ### The wire format -/

def htonl (message : ℕ) : List UInt8 :=
  [.ofNat (message / 2 ^ 24), .ofNat (message / 2 ^ 16), .ofNat (message / 2 ^ 8), .ofNat message]

/-- The check of the length, and `ntohl`. -/
def ntohl : List UInt8 → Option ℕ
  | [a, b, c, d] => some (a.toNat * 2 ^ 24 + b.toNat * 2 ^ 16 + c.toNat * 2 ^ 8 + d.toNat)
  | _ => none

theorem ntohl_htonl {message : ℕ} (h : message < 2 ^ 32) :
    ntohl (htonl message) = some message := by
  simp only [htonl, ntohl, UInt8.toNat_ofNat', Option.some.injEq]
  omega

/-- The value of the enumeration. -/
def toWire : ColodMessage → ℕ
  | .none => 0
  | .failover => 1
  | .failed => 2
  | .hello => 3
  | .yellow => 4
  | .unyellow => 5

/-- The element of an array of `MESSAGE_MAX`. -/
def ofWire (conv : ℕ) : Option ColodMessage := ColodMessage.all[conv]?

theorem ofWire_toWire (message : ColodMessage) : ofWire (toWire message) = some message := by
  cases message <;> rfl

theorem toWire_lt (message : ColodMessage) : toWire message < 2 ^ 32 := by
  cases message <;> decide

/-! ### The group -/

variable {N : Type*}

/-- What the group has in store for a member. -/
inductive Delivery (N : Type*)
  | message (sender : N) (bytes : List UInt8)
  | left
  deriving DecidableEq, Repr

/-- What a daemon sees of its group: its own calls of `colod_cpg_send` and its callbacks. -/
inductive Event
  | sent (message : ColodMessage)
  | notified (message : ColodMessage) (own : Bool)
  | peerLeft
  deriving DecidableEq, Repr

/-- `history` starts with the newest event. -/
structure Member (N : Type*) where
  cpg : Cpg
  inbox : List (Delivery N)
  history : List Event

/-- `sends` are the calls of `colod_cpg_send` by the logic of the daemons. -/
structure Group (N : Type*) where
  member : N → Option (Member N)
  sends : List (N × ColodMessage)
  outOfBounds : Bool

inductive Label (N : Type*)
  | join (n : N)
  | leave (n : N)
  | send (n : N) (message : ColodMessage)
  | tick (n : N)
  /-- `cpg_mcast_joined` of the oldest multicast of `n`. -/
  | multicast (n : N) (accepted : Bool)
  | deliver (n : N)
  deriving DecidableEq, Repr

namespace Group
variable [DecidableEq N]

def empty : Group N := ⟨fun _ => none, [], false⟩

def set (g : Group N) (n : N) (member : Member N) : Group N :=
  { g with member := Function.update g.member n (some member) }

/-- All members get the delivery next, after what they have not been given yet. -/
def tell (g : Group N) (delivery : Delivery N) : Group N :=
  { g with
    member := fun n =>
      (g.member n).map fun member => { member with inbox := member.inbox ++ [delivery] } }

/-- `colod_cpg_deliver` of a message for the node `n`. -/
def deliverMessage (g : Group N) (n : N) (member : Member N) (sender : N) (bytes : List UInt8) :
    Group N :=
  match ntohl bytes with
  | none => g.set n member
  | some conv =>
    match ofWire conv with
    | some message =>
      g.set n { member with
        cpg := colodCpgDeliver member.cpg message (sender = n)
        history := .notified message (sender = n) :: member.history }
    | none => { g.set n member with outOfBounds := g.outOfBounds || sender = n }

def step (g : Group N) : Label N → Option (Group N)
  | .join n =>
    match g.member n with
    | none => some (g.set n ⟨.new, [], []⟩)
    | some _ => none
  | .leave n =>
    match g.member n with
    | none => none
    | some _ => some (tell { g with member := Function.update g.member n none } .left)
  | .send n message =>
    (g.member n).map fun member =>
      { g.set n { member with
          cpg := colodCpgSend member.cpg message, history := .sent message :: member.history } with
        sends := (n, message) :: g.sends }
  | .tick n =>
    match g.member n with
    | none => none
    | some member =>
      if member.cpg.retransmitSource then
        some (g.set n { member with cpg := colodCpgRetransmitCb member.cpg })
      else none
  | .multicast n accepted =>
    match g.member n with
    | none => none
    | some member =>
      match member.cpg.outbox with
      | [] => none
      | message :: outbox =>
        let sent := g.set n { member with cpg := { member.cpg with outbox } }
        some (if accepted then sent.tell (.message n (htonl (toWire message))) else sent)
  | .deliver n =>
    match g.member n with
    | none => none
    | some member =>
      match member.inbox with
      | [] => none
      | .message sender bytes :: inbox =>
        some (g.deliverMessage n { member with inbox } sender bytes)
      | .left :: inbox =>
        some (g.set n { member with
          cpg := (colodCpgRetransmit member.cpg).2, inbox, history := .peerLeft :: member.history })

end Group

/-! ### Retransmission -/

/-- The node has sent the message and none of its copies has come back since. -/
def outstanding : List Event → ColodMessage → Bool
  | [], _ => false
  | .sent message' :: history, message => message' = message || outstanding history message
  | .notified message' own :: history, message =>
    if own ∧ message' = message then false else outstanding history message
  | .peerLeft :: history, message => outstanding history message

theorem mem_of_outstanding {history : List Event} {message : ColodMessage}
    (h : outstanding history message = true) : .sent message ∈ history := by
  induction history with
  | nil => cases h
  | cons event history ih =>
    cases event with
    | sent message' =>
      simp only [outstanding, Bool.or_eq_true, decide_eq_true_eq] at h
      rcases h with rfl | h
      · exact List.mem_cons_self ..
      · exact List.mem_cons_of_mem _ (ih h)
    | notified message' own =>
      simp only [outstanding] at h
      split_ifs at h
      exact List.mem_cons_of_mem _ (ih h)
    | peerLeft => exact List.mem_cons_of_mem _ (ih h)

/-- A retransmission starts the timer and says so as soon as one flag is set. -/
theorem colodCpgRetransmit_source (cpg : Cpg) :
    (colodCpgRetransmit cpg).1 = ColodMessage.all.any cpg.retransmit ∧
      (colodCpgRetransmit cpg).2.retransmitSource =
        (cpg.retransmitSource || ColodMessage.all.any cpg.retransmit) := by
  have hfold : ∀ (all : List ColodMessage) (acc : Bool × Cpg),
      (all.foldl (fun (acc : Bool × Cpg) message =>
        if acc.2.retransmit message then (true, colodCpgSend acc.2 message) else acc)
        acc).1 = (acc.1 || all.any acc.2.retransmit) ∧
      (all.foldl (fun (acc : Bool × Cpg) message =>
        if acc.2.retransmit message then (true, colodCpgSend acc.2 message) else acc)
        acc).2.retransmitSource = (acc.2.retransmitSource || all.any acc.2.retransmit) := by
    intro all
    induction all with
    | nil => simp
    | cons message all ih =>
      intro acc
      rw [List.foldl_cons]
      by_cases hflag : acc.2.retransmit message = true
      · obtain ⟨hsaid, hsource⟩ := ih (true, colodCpgSend acc.2 message)
        rw [if_pos hflag, hsaid, hsource]
        simp [hflag, colodCpgSend]
      · obtain ⟨hsaid, hsource⟩ := ih acc
        rw [if_neg hflag, hsaid, hsource]
        simp [hflag]
  have hall := hfold ColodMessage.all (false, cpg)
  rw [Bool.false_or] at hall
  exact hall

theorem mem_all (message : ColodMessage) : message ∈ ColodMessage.all := by
  cases message <;> decide

theorem retransmitCb_source {cpg : Cpg} {message : ColodMessage}
    (h : cpg.retransmit message = true) : (colodCpgRetransmitCb cpg).retransmitSource = true := by
  have hany : ColodMessage.all.any cpg.retransmit = true :=
    List.any_eq_true.mpr ⟨message, mem_all message, h⟩
  obtain ⟨hsaid, hsource⟩ := colodCpgRetransmit_source cpg
  rw [hany] at hsaid
  rw [hany, Bool.or_true] at hsource
  unfold colodCpgRetransmitCb
  split
  · rename_i heq
    rw [heq] at hsource
    exact hsource
  · rename_i heq
    rw [heq] at hsaid
    cases hsaid

/-! ### What holds in every run -/

/-- What a delivery says has been sent by the node it names. -/
def Delivery.Backed (sends : List (N × ColodMessage)) : Delivery N → Prop
  | .message sender bytes => ∃ message, (sender, message) ∈ sends ∧ bytes = htonl (toWire message)
  | .left => True

def Event.Backed (sends : List (N × ColodMessage)) (n : N) : Event → Prop
  | .sent message => (n, message) ∈ sends
  | .notified message own => ∃ sender, (sender, message) ∈ sends ∧ (own = true ↔ sender = n)
  | .peerLeft => True

structure Member.Sound (sends : List (N × ColodMessage)) (n : N) (member : Member N) : Prop where
  inbox : ∀ delivery ∈ member.inbox, delivery.Backed sends
  history : ∀ event ∈ member.history, event.Backed sends n
  flags : ∀ message, member.cpg.retransmit message = outstanding member.history message
  armed : ∀ message, member.cpg.retransmit message = true → member.cpg.retransmitSource = true
  outbox : ∀ message ∈ member.cpg.outbox, (n, message) ∈ sends

structure Group.Sound (g : Group N) : Prop where
  inBounds : g.outOfBounds = false
  member : ∀ n member, g.member n = some member → member.Sound g.sends n

section Steps
variable {g h : Group N} {n : N} {member : Member N} {sends : List (N × ColodMessage)}

theorem Delivery.Backed.cons {delivery : Delivery N} (hd : delivery.Backed sends)
    (send : N × ColodMessage) : delivery.Backed (send :: sends) := by
  cases delivery with
  | left => trivial
  | message sender bytes =>
    obtain ⟨message, hmem, hbytes⟩ := hd
    exact ⟨message, List.mem_cons_of_mem _ hmem, hbytes⟩

theorem Event.Backed.cons {event : Event} (he : event.Backed sends n) (send : N × ColodMessage) :
    event.Backed (send :: sends) n := by
  cases event with
  | sent message => exact List.mem_cons_of_mem _ he
  | peerLeft => trivial
  | notified message own =>
    obtain ⟨sender, hmem, hown⟩ := he
    exact ⟨sender, List.mem_cons_of_mem _ hmem, hown⟩

theorem Member.Sound.cons (hm : member.Sound sends n) (send : N × ColodMessage) :
    member.Sound (send :: sends) n :=
  ⟨fun delivery hd => (hm.inbox delivery hd).cons send,
    fun event he => (hm.history event he).cons send, hm.flags, hm.armed,
    fun message ho => List.mem_cons_of_mem _ (hm.outbox message ho)⟩

theorem Member.Sound.new : (⟨.new, [], []⟩ : Member N).Sound sends n :=
  ⟨by simp, by simp, fun _ => rfl, by simp [Cpg.new], by simp [Cpg.new]⟩

/-- A call of `colod_cpg_send` by the logic of the daemon. -/
theorem Member.Sound.send (hm : member.Sound sends n) (message : ColodMessage) :
    Member.Sound ((n, message) :: sends) n
      { member with
        cpg := colodCpgSend member.cpg message, history := .sent message :: member.history } := by
  have hcons := hm.cons (n, message)
  refine ⟨hcons.inbox, ?_, fun message' => ?_, fun _ _ => rfl, ?_⟩
  · intro event he
    rcases List.mem_cons.mp he with rfl | he
    · exact List.mem_cons_self ..
    · exact hcons.history event he
  · by_cases hmessage : message' = message
    · subst hmessage
      simp [colodCpgSend, outstanding]
    · simp [colodCpgSend, outstanding, hmessage, Ne.symm hmessage, hm.flags]
  · intro message' ho
    rcases List.mem_append.mp ho with ho | ho
    · exact hcons.outbox message' ho
    · rw [List.mem_singleton.mp ho]
      exact List.mem_cons_self ..

theorem Member.Sound.pending (hm : member.Sound sends n) {message : ColodMessage}
    (hp : message ∈ member.cpg.pending) : (n, message) ∈ sends := by
  rw [mem_pending, hm.flags] at hp
  exact hm.history _ (mem_of_outstanding hp)

/-- A retransmission, by the timer or because a member left. -/
theorem Member.Sound.retransmit (hm : member.Sound sends n) {cpg : Cpg}
    (hflags : cpg.retransmit = member.cpg.retransmit)
    (houtbox : cpg.outbox = member.cpg.outbox ++ member.cpg.pending)
    (harmed : ∀ message, member.cpg.retransmit message = true → cpg.retransmitSource = true) :
    Member.Sound sends n { member with cpg } := by
  refine ⟨hm.inbox, hm.history, fun message => ?_, fun message hflag => ?_, fun message ho => ?_⟩
  · simp only [hflags, hm.flags]
  · simp only [hflags] at hflag
    exact harmed message hflag
  · simp only [houtbox, List.mem_append] at ho
    rcases ho with ho | ho
    · exact hm.outbox message ho
    · exact hm.pending ho

theorem Member.Sound.tick (hm : member.Sound sends n) :
    Member.Sound sends n { member with cpg := colodCpgRetransmitCb member.cpg } :=
  hm.retransmit (colodCpgRetransmitCb_eq _).1 (colodCpgRetransmitCb_eq _).2
    fun _ hflag => retransmitCb_source hflag

theorem Member.Sound.left (hm : member.Sound sends n) {inbox : List (Delivery N)}
    (hinbox : ∀ delivery ∈ inbox, delivery.Backed sends) :
    Member.Sound sends n
      { member with
        cpg := (colodCpgRetransmit member.cpg).2, inbox
        history := .peerLeft :: member.history } := by
  have hsource := (colodCpgRetransmit_source member.cpg).2
  have hsent := hm.retransmit (colodCpgRetransmit_eq _).1 (colodCpgRetransmit_eq _).2
    fun message hflag => by rw [hsource, hm.armed message hflag, Bool.true_or]
  refine ⟨hinbox, fun event he => ?_, hsent.flags, hsent.armed, hsent.outbox⟩
  rcases List.mem_cons.mp he with rfl | he
  · trivial
  · exact hm.history event he

theorem Group.Sound.tell (hg : g.Sound) {delivery : Delivery N} (hd : delivery.Backed g.sends) :
    (g.tell delivery).Sound := by
  refine ⟨hg.inBounds, fun k other hk => ?_⟩
  obtain ⟨member, hmember, rfl⟩ := Option.map_eq_some_iff.mp hk
  have hm := hg.member k member hmember
  refine ⟨fun entry he => ?_, hm.history, hm.flags, hm.armed, hm.outbox⟩
  rcases List.mem_append.mp he with he | he
  · exact hm.inbox entry he
  · exact List.mem_singleton.mp he ▸ hd

variable [DecidableEq N]

theorem Member.Sound.notified (hm : member.Sound sends n) {sender : N} {message : ColodMessage}
    (hsend : (sender, message) ∈ sends) :
    Member.Sound sends n
      { member with
        cpg := colodCpgDeliver member.cpg message (sender = n)
        history := .notified message (sender = n) :: member.history } := by
  refine ⟨hm.inbox, fun event he => ?_, fun message' => ?_, fun message' hflag => ?_, ?_⟩
  · rcases List.mem_cons.mp he with rfl | he
    · exact ⟨sender, hsend, decide_eq_true_iff⟩
    · exact hm.history event he
  · by_cases hown : sender = n
    · by_cases hmessage : message' = message
      · subst hmessage
        simp [colodCpgDeliver, outstanding, hown]
      · simp [colodCpgDeliver, outstanding, hown, hmessage, Ne.symm hmessage, hm.flags]
    · simp [colodCpgDeliver, outstanding, hown, hm.flags]
  · by_cases hown : sender = n
    · have hflag' : member.cpg.retransmit message' = true := by
        by_cases hmessage : message' = message
        · subst hmessage
          simp [colodCpgDeliver, hown] at hflag
        · simpa [colodCpgDeliver, hown, hmessage] using hflag
      simpa [colodCpgDeliver, hown] using hm.armed message' hflag'
    · simp only [colodCpgDeliver, hown, decide_false, Bool.false_eq_true, if_false] at hflag ⊢
      exact hm.armed message' hflag
  · simpa using hm.outbox

theorem Group.Sound.set (hg : g.Sound) (hm : member.Sound g.sends n) : (g.set n member).Sound := by
  refine ⟨hg.inBounds, fun k other hk => ?_⟩
  by_cases hkn : k = n
  · subst hkn
    simp only [Group.set, Function.update_self, Option.some.injEq] at hk
    exact hk ▸ hm
  · simp only [Group.set, Function.update_of_ne hkn] at hk
    exact hg.member k other hk

theorem Group.Sound.deliverMessage (hg : g.Sound) (hm : member.Sound g.sends n) {sender : N}
    {bytes : List UInt8} (hd : (Delivery.message sender bytes).Backed g.sends) :
    (g.deliverMessage n member sender bytes).Sound := by
  obtain ⟨message, hsend, hbytes⟩ := hd
  have hread : ntohl bytes = some (toWire message) := by
    rw [hbytes]
    exact ntohl_htonl (toWire_lt message)
  simp only [Group.deliverMessage, hread, ofWire_toWire]
  exact hg.set (hm.notified hsend)

theorem Group.Sound.step (hg : g.Sound) {label : Label N} (hstep : g.step label = some h) :
    h.Sound := by
  cases label with
  | join n =>
    simp only [Group.step] at hstep
    cases hn : g.member n with
    | some member => simp [hn] at hstep
    | none =>
      simp only [hn, Option.some.injEq] at hstep
      exact hstep ▸ hg.set .new
  | leave n =>
    simp only [Group.step] at hstep
    cases hn : g.member n with
    | none => simp [hn] at hstep
    | some member =>
      simp only [hn, Option.some.injEq] at hstep
      rw [← hstep]
      have hrest : Group.Sound { g with member := Function.update g.member n none } := by
        refine ⟨hg.inBounds, fun k other hk => ?_⟩
        by_cases hkn : k = n
        · subst hkn
          simp at hk
        · simp only [Function.update_of_ne hkn] at hk
          exact hg.member k other hk
      exact hrest.tell trivial
  | send n message =>
    obtain ⟨member, hn, rfl⟩ := Option.map_eq_some_iff.mp hstep
    refine ⟨hg.inBounds, fun k other hk => ?_⟩
    by_cases hkn : k = n
    · subst hkn
      simp only [Group.set, Function.update_self, Option.some.injEq] at hk
      exact hk ▸ (hg.member k member hn).send message
    · simp only [Group.set, Function.update_of_ne hkn] at hk
      exact (hg.member k other hk).cons _
  | tick n =>
    simp only [Group.step] at hstep
    cases hn : g.member n with
    | none => simp [hn] at hstep
    | some member =>
      simp only [hn, Option.ite_none_right_eq_some, Option.some.injEq] at hstep
      obtain ⟨-, rfl⟩ := hstep
      exact hg.set (hg.member n member hn).tick
  | multicast n accepted =>
    simp only [Group.step] at hstep
    cases hn : g.member n with
    | none => simp [hn] at hstep
    | some member =>
      cases houtbox : member.cpg.outbox with
      | nil => simp [hn, houtbox] at hstep
      | cons message outbox =>
        simp only [hn, houtbox, Option.some.injEq] at hstep
        have hm := hg.member n member hn
        have hrest : Member.Sound g.sends n { member with cpg := { member.cpg with outbox } } :=
          ⟨hm.inbox, hm.history, hm.flags, hm.armed, fun message' ho =>
            hm.outbox message' (houtbox ▸ List.mem_cons_of_mem _ ho)⟩
        have hsent := hg.set hrest
        rw [← hstep]
        split_ifs
        · exact hsent.tell ⟨message, hm.outbox message (houtbox ▸ List.mem_cons_self ..), rfl⟩
        · exact hsent
  | deliver n =>
    simp only [Group.step] at hstep
    cases hn : g.member n with
    | none => simp [hn] at hstep
    | some member =>
      have hm := hg.member n member hn
      cases hinbox : member.inbox with
      | nil => simp [hn, hinbox] at hstep
      | cons delivery inbox =>
        have hrest : ∀ entry ∈ inbox, entry.Backed g.sends := fun entry he =>
          hm.inbox entry (hinbox ▸ List.mem_cons_of_mem _ he)
        cases delivery with
        | message sender bytes =>
          simp only [hn, hinbox, Option.some.injEq] at hstep
          have hd := hm.inbox (.message sender bytes) (hinbox ▸ List.mem_cons_self ..)
          have hread : Member.Sound g.sends n { member with inbox } :=
            ⟨hrest, hm.history, hm.flags, hm.armed, hm.outbox⟩
          exact hstep ▸ hg.deliverMessage hread hd
        | left =>
          simp only [hn, hinbox, Option.some.injEq] at hstep
          exact hstep ▸ hg.set (hm.left hrest)

end Steps

variable [DecidableEq N]

/-- In a group of any number of daemons that join, leave, come back and lose multicasts in any
order: no message is used as an index out of bounds, a daemon is told of nothing that no daemon has
sent, and knows its own messages; and it sends again exactly what it has sent and not got back. -/
theorem group_run {labels : List (Label N)} {g : Group N}
    (hrun : Runs.run Group.step Group.empty labels = some g) :
    g.outOfBounds = false ∧ ∀ n member, g.member n = some member →
      (∀ message own, .notified message own ∈ member.history →
        ∃ sender, (sender, message) ∈ g.sends ∧ (own = true ↔ sender = n)) ∧
      (∀ message, message ∈ member.cpg.pending ↔
        outstanding member.history message = true) ∧
      ((∃ message, outstanding member.history message = true) →
        member.cpg.retransmitSource = true) := by
  have hg : g.Sound := Runs.run_invariant (fun _ _ _ hstep hg => Group.Sound.step hg hstep) hrun
    ⟨rfl, fun n member hn => by cases hn⟩
  refine ⟨hg.inBounds, fun n member hn => ?_⟩
  have hm := hg.member n member hn
  refine ⟨fun message own he => hm.history _ he, fun message => ?_, ?_⟩
  · rw [mem_pending, hm.flags]
  · rintro ⟨message, ho⟩
    exact hm.armed message ((hm.flags message).trans ho)

/-- The first multicast is lost, the second one reaches both, and one of them leaves. -/
theorem group_run_retransmitted : ∃ g : Group Bool,
    Runs.run Group.step Group.empty
      [.join false, .join true, .send false .failover, .multicast false false, .tick false,
        .multicast false true, .deliver true, .leave true, .deliver false, .deliver false] =
      some g ∧
    g.outOfBounds = false ∧ ∀ n member, g.member n = some member →
      (∀ message own, .notified message own ∈ member.history →
        ∃ sender, (sender, message) ∈ g.sends ∧ (own = true ↔ sender = n)) ∧
      (∀ message, message ∈ member.cpg.pending ↔
        outstanding member.history message = true) ∧
      ((∃ message, outstanding member.history message = true) →
        member.cpg.retransmitSource = true) := by
  obtain ⟨g, hg⟩ := Option.isSome_iff_exists.mp
    (show (Runs.run Group.step (Group.empty : Group Bool)
      [.join false, .join true, .send false .failover, .multicast false false, .tick false,
        .multicast false true, .deliver true, .leave true, .deliver false,
        .deliver false]).isSome = true from by decide)
  exact ⟨g, hg, group_run hg⟩

end CpgGroup
end ColoDaemon
