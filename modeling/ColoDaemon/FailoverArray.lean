import ColoDaemon.MainTurns

/-!
# Running the failover commands

`Commanding` says of a daemon that runs a failover array which of its commands have been sent: all
those before the current one, and the current one as soon as it is written. The array ends in
`STATE_PRIMARY_WAIT` with all of its commands sent, or in `STATE_FAILED`.
-/

namespace ColoDaemon
open EventLoop
variable {s t : Daemon} {before : List Obs} {table : CommandTable}

def failoverCommands (array : List String) : List Obs :=
  array.map fun line => .command .failover (.element line)

/-- After `before` the trace has the choice of a command array and the commands `sent`. -/
def Commanded (before : List Obs) (table : CommandTable) (array sent : List String)
    (trace : List Obs) : Prop :=
  (before ++ .began table array :: failoverCommands sent).Sublist trace

def Commanding (before : List Obs) (table : CommandTable) : Pc → MainState → List Obs → Prop
  | .array co, state, trace =>
    state = .failover ∧ co.table = table ∧
      Commanded before table co.array (co.array.take co.i) trace
  | .exec (.element co line) written _, state, trace =>
    state = .failover ∧ co.table = table ∧ co.array[co.i]? = some line ∧
      Commanded before table co.array (co.array.take (if written then co.i + 1 else co.i)) trace
  | _, _, _ => False

theorem Commanded.append {array sent : List String} {trace : List Obs}
    (h : Commanded before table array sent trace) (obs : List Obs) :
    Commanded before table array sent (trace ++ obs) :=
  List.Sublist.trans h (List.sublist_append_left _ _)

/-- One more command. -/
theorem Commanded.snoc {array : List String} {i : ℕ} {line : String} {trace : List Obs}
    (h : Commanded before table array (array.take i) trace) (hi : array[i]? = some line) :
    Commanded before table array (array.take (i + 1))
      (trace ++ [.command .failover (.element line)]) := by
  have hone : failoverCommands (array.take (i + 1)) =
      failoverCommands (array.take i) ++ [.command .failover (.element line)] := by
    rw [List.take_add_one, hi]
    exact List.map_append
  unfold Commanded
  rw [hone, ← List.cons_append, ← List.append_assoc]
  exact List.Sublist.append h (List.Sublist.refl _)

theorem Commanding.append {pc : Pc} {state : MainState} {trace : List Obs}
    (h : Commanding before table pc state trace) (obs : List Obs) :
    Commanding before table pc state (trace ++ obs) := by
  cases pc with
  | array co => exact ⟨h.1, h.2.1, h.2.2.append obs⟩
  | exec site written inner =>
    cases site with
    | element co line => exact ⟨h.1, h.2.1, h.2.2.1, h.2.2.2.append obs⟩
    | _ => exact h
  | _ => exact h

theorem Commanding.outside {pc pc' : Pc} {n n' : ℕ} {state : MainState} {trace : List Obs}
    (h : Commanding before table pc state trace) (hpc : PcOutside pc n pc' n') :
    Commanding before table pc' state trace := by
  cases hpc with
  | same | releasedArray | releasedExec => exact h
  | fired => exact h

/-- What a step can make of a daemon that runs a failover array. -/
def CommandingNext (before : List Obs) (table : CommandTable) (pc : Pc) (state : MainState)
    (trace : List Obs) : Prop :=
  Commanding before table pc state trace ∨
    (pc = .enter .primaryWait ∧ ∃ array, Commanded before table array array trace) ∨
    pc = .enter .failed ∨ pc = .aborted

theorem commanding_array {err : Option ColodError} {susp : Bool} {pc : Pc} {state : MainState}
    {trace : List Obs} (array : List String) (hturn : ArrayTurn s table err susp pc)
    (htable : table.migrates = false)
    (hend : err = none → Commanded before table array array trace) :
    CommandingNext before table pc state trace := by
  obtain ⟨-, ⟨herr, rfl⟩ | ⟨-, rfl | rfl⟩⟩ := hturn.of_failover htable
  · exact .inr (.inl ⟨rfl, array, hend herr⟩)
  · exact .inr (.inr (.inl rfl))
  · exact .inr (.inr (.inr rfl))

theorem commanding_turn {pc pc' : Pc} {obs : List Obs} {susp : Bool}
    (htable : table.migrates = false) (hs : Commanding before table pc s.state s.trace)
    (hturn : Turn s pc obs susp pc') :
    CommandingNext before table pc' s.state (s.trace ++ obs) := by
  cases hturn with
  | arrayEnd co susp pc hi hturn =>
    obtain ⟨-, hco, hc⟩ := hs
    rw [hco] at hturn
    rw [List.take_of_length_le (List.getElem?_eq_none_iff.mp hi)] at hc
    exact commanding_array co.array hturn htable (fun _ => hc.append _)
  | arrayInterrupted co line susp pc hi hpending hturn =>
    obtain ⟨-, hco, -⟩ := hs
    rw [hco] at hturn
    exact commanding_array co.array hturn htable nofun
  | element co line hi hdangling hpending =>
    obtain ⟨hstate, hco, hc⟩ := hs
    exact .inl ⟨hstate, hco, hi, hc.append _⟩
  | released => exact .inr (.inr (.inr rfl))
  | _ => exact hs.elim

/-- An element is left only after its command was sent. -/
theorem commanding_exec {site : ExecSite} {written : Bool} {inner : InnerWait}
    {result : Except ColodError Unit} {obs : List Obs} {susp : Bool} {pc : Pc}
    (htable : table.migrates = false)
    (hs : Commanding before table (.exec site written inner) s.state s.trace)
    (hwritten : result ≠ .error .fatal → written = true)
    (hturn : ExecTurn s site result obs susp pc) :
    CommandingNext before table pc s.state (s.trace ++ obs) := by
  cases hturn with
  | next co line _ hresult =>
    have hw : written = true := by
      apply hwritten
      rcases hresult with rfl | ⟨rfl, -⟩ <;> simp
    subst hw
    obtain ⟨hstate, hco, -, hc⟩ := hs
    exact .inl ⟨hstate, hco, hc.append _⟩
  | broken co line err susp pc herr hturn =>
    obtain ⟨-, hco, -⟩ := hs
    rw [hco] at hturn
    exact commanding_array co.array hturn htable nofun
  | fails site _ hsite => rcases hsite with rfl | rfl | ⟨rfl | rfl, -⟩ <;> exact hs.elim
  | interrupted site hsite => rcases hsite with rfl | rfl <;> exact hs.elim
  | cancel site hsite => rcases hsite with rfl | rfl <;> exact hs.elim
  | _ => exact hs.elim

theorem executeCo_written {reply : Option QmpReply} {written : Bool}
    (hw : reply.isSome = true → written = true)
    (h : (colodExecuteCo s reply).1 ≠ .error .fatal) : written = true := by
  rcases executeCo_fst s reply with hf | ⟨hr, -⟩ | ⟨hr, -⟩
  · exact absurd hf h
  · exact hw (by simp [hr])
  · exact hw (by simp [hr])

theorem commanding_step {label : Label} (hstep : step s label = some t)
    (htable : table.migrates = false) (hs : Commanding before table s.pc s.state s.trace) :
    t.primary = s.primary ∧ CommandingNext before table t.pc t.state t.trace := by
  have hcontinues : ∀ {u : Daemon} {obs susp pc}, Continues u t obs susp pc →
      u.primary = s.primary → u.state = s.state → u.trace = s.trace →
      CommandingNext before table pc s.state (s.trace ++ obs) →
      t.primary = s.primary ∧ CommandingNext before table t.pc t.state t.trace := by
    intro u obs susp pc hc hp hst htr h
    rw [hc.primary, hc.pc, hc.state, hc.trace, hp, hst, htr]
    exact ⟨rfl, h⟩
  cases change_of_step hstep with
  | callback _ _ hout =>
    obtain ⟨clients, htrace⟩ := hout.trace
    rw [hout.primary, hout.state, htrace]
    exact ⟨rfl, .inl ((hs.outside hout.pc).append _)⟩
  | dispatch source _ hd =>
    obtain ⟨wakeSources, resumeSources, rfl⟩ := dispatch_eq hd
    exact ⟨rfl, .inl hs⟩
  | turn pc pc' obs susp _ hpc hturn hc =>
    exact hcontinues hc rfl rfl rfl (commanding_turn htable (hpc ▸ hs) hturn)
  | suspend site written inner inner' _ hpc ht =>
    subst ht
    rw [hpc] at hs
    exact ⟨rfl, .inl (by cases site <;> exact hs)⟩
  | write site inner _ hpc hc =>
    rw [hpc] at hs
    refine hcontinues hc rfl rfl rfl (.inl ?_)
    cases site with
    | element co line =>
      obtain ⟨hst, hco, hi, hcom⟩ := hs
      rw [hst]
      exact ⟨rfl, hco, hi, hcom.snoc hi⟩
    | _ => exact hs
  | line site inner event _ hpc ht =>
    subst ht
    have hout := outside_notifyEvent s event
    obtain ⟨clients, htrace⟩ := hout.trace
    rw [hpc] at hs
    have hs' : Commanding before table (.exec site true .idle) s.state s.trace := by
      cases site <;> exact hs
    simp only [Daemon.suspendAt, hout.state, htrace]
    exact ⟨hout.primary, .inl (hs'.append _)⟩
  | nestedYank site inner _ hpc ht => exact ht ▸ ⟨rfl, .inl hs⟩
  | executed site written inner reply obs susp pc _ hpc hw hturn hc =>
    obtain ⟨loop, qmpError, didYank, he, -⟩ := executeCo_eq s reply
    rw [hpc] at hs
    have hs' : Commanding before table (.exec site written inner) (colodExecuteCo s reply).2.state
        (colodExecuteCo s reply).2.trace := by
      rw [he]
      exact hs
    have hnext := commanding_exec htable hs' (executeCo_written hw) hturn
    rw [he] at hnext hc
    exact hcontinues hc rfl rfl rfl hnext
  | start _ hpc | enter _ _ hpc | wait _ _ _ hpc | event _ _ _ _ _ _ hpc
  | yankSuspend _ _ _ hpc | yanked _ _ _ hpc | yankFailed _ _ _ hpc =>
    rw [hpc] at hs
    exact hs.elim

/-- The yank chooses the array and no command of it has been sent. -/
theorem commanding_yanked {obs : List Obs} {trace : List Obs} {array : List String}
    (h : before.Sublist (trace ++ obs)) :
    Commanding before table (.array ⟨table, array, 0, false⟩) .failover
      (trace ++ (obs ++ [.began table array])) := by
  refine ⟨rfl, rfl, ?_⟩
  rw [← List.append_assoc]
  exact h.append (List.Sublist.refl [Obs.began table array])

end ColoDaemon
