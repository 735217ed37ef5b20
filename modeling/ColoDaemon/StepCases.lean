import ColoDaemon.Callbacks

/-!
# The four kinds of steps

A step is a callback, the dispatch of a source of the main coroutine, one part of the running main
coroutine, or one step of its QMP exchange. The lemmas here say once what each kind changes.
-/

namespace ColoDaemon
variable {s t : Daemon}

theorem step_cases {l : Label} (h : step s l = some t) :
    (s.running = false ∧ s.callback l = some t) ∨
    (∃ source, l = .dispatch source ∧ s.running = false ∧ s.dispatch source = some t) ∨
    (l = .run ∧ s.running = true ∧ mainRun s = some t) ∨
    (∃ x, l = .io x ∧ s.running = true ∧ s.io x = some t) := by
  unfold step at h
  split_ifs at h with hdead hrunning
  · cases l with
    | run => exact .inr (.inr (.inl ⟨rfl, hrunning, h⟩))
    | io x => exact .inr (.inr (.inr ⟨x, rfl, hrunning, h⟩))
    | _ => cases h
  · have hr : s.running = false := by simpa using hrunning
    cases l with
    | dispatch source => exact .inr (.inl ⟨source, rfl, hr, h⟩)
    | _ => exact .inl ⟨hr, h⟩

/-- While the main coroutine is suspended every label but a dispatch is a callback. -/
theorem step_callback {l : Label} (hrun : s.running = false) (hdone : s.pc ≠ .done)
    (haborted : s.pc ≠ .aborted) (hyellow : s.yellowCo.aborted = false)
    (hl : ∀ source, l ≠ .dispatch source) : step s l = s.callback l := by
  unfold step
  rw [if_neg (by simp [hdone, haborted, hyellow]), if_neg (by simp [hrun])]
  cases l with
  | dispatch source => exact absurd rfl (hl source)
  | _ => rfl

/-- A dispatch makes its source current; only the sources attached change otherwise. -/
theorem dispatch_eq {source : Source} (h : s.dispatch source = some t) :
    ∃ wakeSources resumeSources, t = { s with
      loop := { s.loop with wakeSources, current := some source }, resumeSources } := by
  unfold Daemon.dispatch at h
  cases source with
  | start =>
    simp only at h
    split_ifs at h
    cases h
    exact ⟨_, _, rfl⟩
  | wake id =>
    simp only at h
    split_ifs at h
    cases h
    exact ⟨_, _, rfl⟩
  | resume =>
    simp only at h
    split_ifs at h
    cases h
    exact ⟨_, _, rfl⟩
  | timeout =>
    simp only at h
    split at h
    · split_ifs at h
      cases h
      exact ⟨_, _, rfl⟩
    · cases h
  | grace =>
    simp only at h
    split_ifs at h
    cases h
    exact ⟨_, _, rfl⟩
  | io =>
    simp only at h
    split at h
    · cases h
      exact ⟨_, _, rfl⟩
    · cases h
      exact ⟨_, _, rfl⟩
    · cases h

/-- After an exchange only the queue, the sticky error and `did_yank` have changed. -/
theorem executeCo_eq (s : Daemon) (reply : Option QmpReply) :
    ∃ loop qmpError didYank,
      (colodExecuteCo s reply).2 = { s with loop, qmpError, didYank } ∧
      ∃ events, loop = s.loop.queueAll events ∧ ∀ e ∈ events, e = .failed ∨ e = .failoverSync := by
  rw [executeCo_snd]
  cases reply with
  | none => exact ⟨_, _, _, rfl, [.failed], rfl, by simp⟩
  | some reply =>
    simp only [colodExecuteNocheckCo]
    split_ifs
    · exact ⟨_, _, _, rfl, [.failed], rfl, by simp⟩
    · exact ⟨_, _, _, rfl, [.failoverSync], rfl, by simp⟩
    · exact ⟨_, _, _, rfl, [], rfl, by simp⟩

/-- The steps of a QMP exchange of the main coroutine. -/
theorem io_cases {x : IoStep} (h : s.io x = some t) :
    (∃ site written inner inner', s.pc = .exec site written inner ∧ x = .suspend inner' ∧
      t = s.suspendAt (.exec site written inner')) ∨
    (∃ site inner, s.pc = .exec site false inner ∧ x = .write ∧
      t = (s.observe (.command s.state site.command)).continueAt (.exec site true inner)) ∨
    (∃ site inner event, s.pc = .exec site true inner ∧ x = .event event ∧
      t = (notifyEvent s event).suspendAt (.exec site true .idle)) ∨
    (∃ site inner, s.pc = .exec site true inner ∧ x = .yanked ∧ t = { s with didYank := true }) ∨
    (∃ site written inner reply, s.pc = .exec site written inner ∧ x = .reply reply ∧
      (reply.isSome = true → written = true) ∧
      t = execReturn (colodExecuteCo s reply).2 site (colodExecuteCo s reply).1) ∨
    (∃ inner inner', s.pc = .yank inner ∧ x = .suspend inner' ∧ t = s.suspendAt (.yank inner')) ∨
    (∃ inner reply, s.pc = .yank inner ∧ x = .yankReply reply ∧ t = yankReturn s reply) := by
  unfold Daemon.io at h
  split at h
  · rename_i site written inner inner' hpc
    cases h
    exact .inl ⟨site, written, inner, inner', hpc, rfl, rfl⟩
  · rename_i site inner hpc
    cases h
    exact .inr (.inl ⟨site, inner, hpc, rfl, rfl⟩)
  · rename_i site inner event hpc
    cases h
    exact .inr (.inr (.inl ⟨site, inner, event, hpc, rfl, rfl⟩))
  · rename_i site inner hpc
    cases h
    exact .inr (.inr (.inr (.inl ⟨site, inner, hpc, rfl, rfl⟩)))
  · rename_i site written inner reply hpc
    split_ifs at h with hw
    cases h
    refine .inr (.inr (.inr (.inr (.inl ⟨site, written, inner, reply, hpc, rfl, ?_, rfl⟩))))
    intro hr
    by_contra hwf
    exact hw ⟨hr, by simpa using hwf⟩
  · rename_i inner inner' hpc
    cases h
    exact .inr (.inr (.inr (.inr (.inr (.inl ⟨inner, inner', hpc, rfl, rfl⟩)))))
  · rename_i inner reply hpc
    cases h
    exact .inr (.inr (.inr (.inr (.inr (.inr ⟨inner, reply, hpc, rfl, rfl⟩)))))
  · cases h

/-- An exchange succeeds or fails with an error reply only after qemu has answered. -/
theorem executeCo_fst (s : Daemon) (reply : Option QmpReply) :
    (colodExecuteCo s reply).1 = .error .fatal ∨
      (reply = some .result ∧ (colodExecuteCo s reply).1 = .ok ()) ∨
      (reply = some .error ∧ (colodExecuteCo s reply).1 = .error .qmp) := by
  cases reply with
  | none => exact .inl rfl
  | some reply =>
    unfold colodExecuteCo colodExecuteNocheckCo
    by_cases he : s.qmpError = true
    · simp [he]
    · by_cases hy : s.didYank = true <;> cases reply <;> simp [he, hy]

end ColoDaemon
