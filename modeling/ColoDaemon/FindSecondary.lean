import ColoDaemon.ResourceAgent

/-!
# The search for a secondary

Pacemaker passes the hosts of a notification as texts in which blanks separate the names. The two
loops of `env_find_secondary` treat the empty strings between two blanks differently: the loop over
the slaves skips them, the loop over the starting hosts takes one for a host. `FindsSecondary` is
what the promotion relies on, and `BlankFirst` is when the second loop breaks it.
-/

namespace ColoDaemon

/-- `str.split(text, " ")`. -/
def strSplit (text : String) : List String := (text.toList.splitOn ' ').map String.ofList

/-- The environment with these texts as the notify variables. -/
def AgentEnv.notified (env : AgentEnv) (slaveUname stopUname startUname : String) : AgentEnv :=
  { env with
    slaveUname := strSplit slaveUname
    stopUname := strSplit stopUname
    startUname := strSplit startUname }

/-- What `if peer` sees of an answer. -/
def truthy : Option String → Bool
  | none => false
  | some peer => peer ≠ ""

namespace AgentEnv
variable (env : AgentEnv)

/-- A slave on another host that does not stop. -/
def Staying (host : String) : Prop :=
  host ≠ "" ∧ host ≠ env.hostname ∧ host ∈ env.slaveUname ∧ host ∉ env.stopUname

def Starting (host : String) : Prop :=
  host ≠ "" ∧ host ≠ env.hostname ∧ host ∈ env.startUname

/-- The answer is a secondary if there is one, and false exactly if there is none. -/
structure FindsSecondary (answer : Option String) : Prop where
  found : (∃ host, env.Staying host ∨ env.Starting host) →
    ∃ host, answer = some host ∧
      (env.Staying host ∨ (∀ other, ¬ env.Staying other) ∧ env.Starting host)
  none_iff : truthy answer = false ↔ ∀ host, ¬ env.Staying host ∧ ¬ env.Starting host

/-- Only this host is named before the first empty string among the starting hosts. -/
def BlankFirst : Prop :=
  env.hostname ≠ "" ∧ ∃ before after, env.startUname = before ++ "" :: after ∧
    ∀ host ∈ before, host = env.hostname

/-- The loop over the slaves. -/
def findStaying : Option String :=
  env.slaveUname.find? fun host =>
    host ≠ "" && !env.stopUname.contains host && host ≠ env.hostname

/-- The loop over the starting hosts. -/
def findStarting : Option String := env.startUname.find? fun host => host ≠ env.hostname

variable {env} {host : String}

theorem staying_of_find (h : env.findStaying = some host) : env.Staying host := by
  have hp := List.find?_some h
  have hmem := List.mem_of_find?_eq_some h
  simp only [ne_eq, decide_not, Bool.and_eq_true, Bool.not_eq_true', decide_eq_false_iff_not,
    List.contains_eq_mem] at hp
  exact ⟨hp.1.1, hp.2, hmem, hp.1.2⟩

theorem find_staying_eq_none : env.findStaying = none ↔ ∀ host, ¬ env.Staying host := by
  constructor
  · rintro hnone host ⟨hne, hhost, hmem, hstop⟩
    have hp := List.find?_eq_none.mp hnone host hmem
    simp [hne, hhost, hstop] at hp
  · intro hno
    cases hfind : env.findStaying with
    | none => rfl
    | some host => exact absurd (staying_of_find hfind) (hno host)

theorem starting_of_find (h : env.findStarting = some host) (hne : host ≠ "") :
    env.Starting host := by
  have hp := List.find?_some h
  exact ⟨hne, by simpa using hp, List.mem_of_find?_eq_some h⟩

theorem find_starting_isSome (h : env.Starting host) : ∃ first, env.findStarting = some first := by
  obtain ⟨-, hhost, hmem⟩ := h
  exact Option.isSome_iff_exists.mp
    (List.find?_isSome.mpr ⟨host, hmem, by simpa using hhost⟩)

/-- The second loop answers the empty string exactly if an empty string comes first. -/
theorem find_starting_blank : env.findStarting = some "" ↔ env.BlankFirst := by
  unfold findStarting BlankFirst
  rw [List.find?_eq_some_iff_append]
  simp only [ne_eq, decide_not, Bool.not_eq_true', decide_eq_false_iff_not, Bool.not_not,
    decide_eq_true_eq]
  constructor
  · rintro ⟨hne, before, after, hsplit, hbefore⟩
    exact ⟨Ne.symm hne, before, after, hsplit, hbefore⟩
  · rintro ⟨hne, before, after, hsplit, hbefore⟩
    exact ⟨Ne.symm hne, before, after, hsplit, hbefore⟩

theorem findSecondary_staying (h : env.findStaying = some host) :
    envFindSecondary env = some host := by
  change (env.findStaying <|> env.findStarting) = some host
  rw [h]
  rfl

theorem findSecondary_starting (h : env.findStaying = none) :
    envFindSecondary env = env.findStarting := by
  change (env.findStaying <|> env.findStarting) = env.findStarting
  rw [h]
  rfl

/-- A slave that stays is answered. -/
theorem finds_staying (h : ∃ host, env.Staying host) :
    env.FindsSecondary (envFindSecondary env) := by
  cases hfind : env.findStaying with
  | none =>
    obtain ⟨host, hhost⟩ := h
    exact absurd hhost (find_staying_eq_none.mp hfind host)
  | some host =>
    have hstaying := staying_of_find hfind
    rw [findSecondary_staying hfind]
    refine ⟨fun _ => ⟨host, rfl, .inl hstaying⟩, ?_⟩
    simp only [truthy, ne_eq, hstaying.1, not_false_eq_true, decide_true, Bool.true_eq_false,
      false_iff, not_forall]
    exact ⟨host, fun hno => hno.1 hstaying⟩

/-- Without a slave that stays the answer is the first starting host, unless that is empty. -/
theorem finds_starting (hno : ∀ host, ¬ env.Staying host) :
    env.FindsSecondary (envFindSecondary env) ↔
      (∀ host, ¬ env.Starting host) ∨ ¬ env.BlankFirst := by
  rw [findSecondary_starting (find_staying_eq_none.mpr hno), ← find_starting_blank]
  constructor
  · intro hfinds
    by_contra hblank
    simp only [not_or, not_not, not_forall] at hblank
    obtain ⟨⟨host, hhost⟩, hblank⟩ := hblank
    obtain ⟨answer, hanswer, hright⟩ := hfinds.found ⟨host, .inr hhost⟩
    rw [hblank, Option.some.injEq] at hanswer
    rcases hright with hstaying | ⟨-, hstarting⟩
    · exact hno answer hstaying
    · exact hstarting.1 hanswer.symm
  · intro hcases
    by_cases hstarting : ∃ host, env.Starting host
    · obtain ⟨host, hhost⟩ := hstarting
      obtain ⟨first, hfirst⟩ := find_starting_isSome hhost
      have hne : first ≠ "" := by
        rintro rfl
        rcases hcases with hnone | hblank
        · exact hnone host hhost
        · exact hblank hfirst
      have hanswer := starting_of_find hfirst hne
      rw [hfirst]
      refine ⟨fun _ => ⟨first, rfl, .inr ⟨hno, hanswer⟩⟩, ?_⟩
      simp only [truthy, ne_eq, hne, not_false_eq_true, decide_true, Bool.true_eq_false,
        false_iff, not_forall]
      exact ⟨first, fun hnone => hnone.2 hanswer⟩
    · have hnone : ∀ host, ¬ env.Starting host := not_exists.mp hstarting
      refine ⟨fun ⟨host, hhost⟩ => absurd hhost (not_or.mpr ⟨hno host, hnone host⟩), ?_⟩
      refine iff_of_true ?_ fun host => ⟨hno host, hnone host⟩
      cases hfind : env.findStarting with
      | none => rfl
      | some first =>
        by_cases hne : first = ""
        · simp [truthy, hne]
        · exact absurd (starting_of_find hfind hne) (hnone first)

end AgentEnv

open AgentEnv

/-- The promotion finds a secondary exactly if no empty string hides it among the starting hosts. -/
theorem finds_secondary_iff (env : AgentEnv) (slaveUname stopUname startUname : String) :
    let env := env.notified slaveUname stopUname startUname
    env.FindsSecondary (envFindSecondary env) ↔
      (∃ host, env.Staying host) ∨ (∀ host, ¬ env.Starting host) ∨ ¬ env.BlankFirst := by
  intro env
  by_cases hstaying : ∃ host, env.Staying host
  · exact iff_of_true (finds_staying hstaying) (.inl hstaying)
  · rw [finds_starting (not_exists.mp hstaying)]
    simp only [hstaying, false_or]

/-- The host `a` is promoted while `b` starts; the list of the starting hosts begins with a blank. -/
def promotedAlone : AgentEnv where
  hostname := "a"
  interval := false
  configOk := true
  notifyType := ""
  notifyOperation := ""
  notifyKeyOperation := ""
  startUname := strSplit " b"
  stopUname := strSplit ""
  slaveUname := strSplit ""
  activeUname := [""]
  polls := 1
  patience := 1

theorem starting_host_hidden : promotedAlone.Starting "b" ∧
    envFindSecondary promotedAlone = some "" ∧
    ¬ promotedAlone.FindsSecondary (envFindSecondary promotedAlone) := by
  have hsplit : promotedAlone.startUname = ["", "b"] := by decide
  have hslaves : promotedAlone.slaveUname = [""] := by decide
  have hno : ∀ host, ¬ promotedAlone.Staying host := by
    rintro host ⟨hne, -, hmem, -⟩
    rw [hslaves] at hmem
    exact hne (List.mem_singleton.mp hmem)
  have hstarting : promotedAlone.Starting "b" :=
    ⟨by decide, by decide, by rw [hsplit]; exact List.mem_cons_of_mem _ List.mem_cons_self⟩
  have hblank : promotedAlone.BlankFirst := ⟨by decide, [], ["b"], hsplit, by simp⟩
  refine ⟨hstarting, by decide, fun hfinds => ?_⟩
  rcases (finds_starting hno).mp hfinds with hnone | hnot
  · exact hnone "b" hstarting
  · exact hnot hblank

/-- A false answer ends the promotion without a peer. -/
theorem promotePeer_of_not_truthy {env : AgentEnv} (h : truthy (envFindSecondary env) = false) :
    promotePeer env = pure .success := by
  unfold promotePeer
  cases hfind : envFindSecondary env with
  | none => rfl
  | some peer =>
    rw [hfind] at h
    have hempty : peer = "" := by simpa [truthy] using h
    simp [hempty]

end ColoDaemon
