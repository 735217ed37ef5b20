import Mathlib.Data.List.Basic
import Mathlib.Logic.Function.Basic

/-!
# Group messages and their retransmission

`Cpg` keeps one retransmit flag for each message kind. Every call of `cpg_mcast_joined` appends to
`outbox`, from which the environment takes the messages in order; whether a multicast is accepted
is the environment's choice, since the source ignores the result.
-/

namespace ColoDaemon

inductive ColodMessage
  | none
  | failover
  | failed
  | hello
  | yellow
  | unyellow
  deriving DecidableEq, Repr

/-- The values of the enumeration, in its order. -/
def ColodMessage.all : List ColodMessage :=
  [.none, .failover, .failed, .hello, .yellow, .unyellow]

structure Cpg where
  retransmit : ColodMessage → Bool
  retransmitSource : Bool
  outbox : List ColodMessage

def Cpg.new : Cpg where
  retransmit _ := false
  retransmitSource := false
  outbox := []

def colodCpgSend (cpg : Cpg) (message : ColodMessage) : Cpg where
  retransmit := Function.update cpg.retransmit message true
  retransmitSource := true
  outbox := cpg.outbox ++ [message]

def colodCpgRetransmit (cpg : Cpg) : Bool × Cpg :=
  ColodMessage.all.foldl (fun (acc : Bool × Cpg) message =>
    if acc.2.retransmit message then (true, colodCpgSend acc.2 message) else acc) (false, cpg)

def colodCpgRetransmitCb (cpg : Cpg) : Cpg :=
  match colodCpgRetransmit cpg with
  | (true, cpg) => cpg
  | (false, cpg) => { cpg with retransmitSource := false }

/-- `colod_cpg_deliver` up to the notification of the callbacks. -/
def colodCpgDeliver (cpg : Cpg) (message : ColodMessage) (messageFromThisNode : Bool) : Cpg :=
  if messageFromThisNode then
    { cpg with retransmit := Function.update cpg.retransmit message false }
  else cpg

/-! ### What is multicast -/

def ColodMessage.isYellow : ColodMessage → Bool
  | .yellow | .unyellow => true
  | _ => false

/-- The last of the two yellow messages among `messages`. -/
def lastYellow (messages : List ColodMessage) : Option ColodMessage :=
  (messages.filter ColodMessage.isYellow).getLast?

theorem lastYellow_append (messages messages' : List ColodMessage) :
    lastYellow (messages ++ messages') = (lastYellow messages').or (lastYellow messages) := by
  simp [lastYellow, List.getLast?_append]

theorem lastYellow_eq_none {messages : List ColodMessage} :
    lastYellow messages = none ↔ ∀ message ∈ messages, message.isYellow = false := by
  simp [lastYellow]

theorem mem_of_lastYellow {messages : List ColodMessage} {message : ColodMessage}
    (h : lastYellow messages = some message) : message ∈ messages ∧ message.isYellow = true :=
  List.mem_filter.mp (List.mem_of_getLast? h)

/-- The messages that a retransmission sends, in the order of the enumeration. -/
def Cpg.pending (cpg : Cpg) : List ColodMessage := ColodMessage.all.filter cpg.retransmit

theorem mem_pending {cpg : Cpg} {message : ColodMessage} :
    message ∈ cpg.pending ↔ cpg.retransmit message = true := by
  have hall : message ∈ ColodMessage.all := by cases message <;> decide
  simp [Cpg.pending, hall]

theorem colodCpgRetransmit_eq (cpg : Cpg) :
    (colodCpgRetransmit cpg).2.retransmit = cpg.retransmit ∧
      (colodCpgRetransmit cpg).2.outbox = cpg.outbox ++ cpg.pending := by
  have hfold : ∀ (all : List ColodMessage) (acc : Bool × Cpg),
      (all.foldl (fun (acc : Bool × Cpg) message =>
        if acc.2.retransmit message then (true, colodCpgSend acc.2 message) else acc)
        acc).2.retransmit = acc.2.retransmit ∧
      (all.foldl (fun (acc : Bool × Cpg) message =>
        if acc.2.retransmit message then (true, colodCpgSend acc.2 message) else acc)
        acc).2.outbox = acc.2.outbox ++ all.filter acc.2.retransmit := by
    intro all
    induction all with
    | nil => simp
    | cons message all ih =>
      intro acc
      rw [List.foldl_cons]
      by_cases hflag : acc.2.retransmit message = true
      · have hsame : (colodCpgSend acc.2 message).retransmit = acc.2.retransmit := by
          have hself := Function.update_eq_self message acc.2.retransmit
          rwa [hflag] at hself
        obtain ⟨hr, ho⟩ := ih (true, colodCpgSend acc.2 message)
        rw [if_pos hflag, hr, ho, hsame, List.filter_cons_of_pos hflag]
        exact ⟨rfl, List.append_assoc acc.2.outbox [message] _⟩
      · rw [if_neg hflag, List.filter_cons_of_neg hflag]
        exact ih acc
  exact hfold ColodMessage.all (false, cpg)

theorem colodCpgRetransmitCb_eq (cpg : Cpg) :
    (colodCpgRetransmitCb cpg).retransmit = cpg.retransmit ∧
      (colodCpgRetransmitCb cpg).outbox = cpg.outbox ++ cpg.pending := by
  have h := colodCpgRetransmit_eq cpg
  unfold colodCpgRetransmitCb
  split
  · rename_i heq
    rw [heq] at h
    exact h
  · rename_i heq
    rw [heq] at h
    exact h

@[simp] theorem outbox_deliver (cpg : Cpg) (message : ColodMessage) (own : Bool) :
    (colodCpgDeliver cpg message own).outbox = cpg.outbox := by
  cases own <;> rfl

end ColoDaemon
