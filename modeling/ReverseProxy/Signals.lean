import ReverseProxy.Shutdown

namespace ReverseProxy.AcceptLoop
open Runs Usize
set_option autoImplicit true

/-- No signal comes while the loop has no listener registered, and no accept wins over a listener
that has completed. -/
def KeepsSignal (s : State w) (l : Label) : Prop :=
  (l = .signal → s.phase = .selecting → s.installed = false) ∧
    ∀ polled, l = .accept polled → s.phase ≠ .waiting true

def Caught (s : State w) : Prop := s.phase ≠ .selecting ∧ s.phase ≠ .waiting false

theorem signal_caught {s s' : State w} (hk : KeepsSignal s .signal)
    (h : step m s .signal = some s') : Caught s' := by
  rcases step_effect h with ⟨hp, hi, _⟩ | ⟨_, _, rfl⟩ | ⟨f, _, rfl⟩ | ⟨hp, rfl⟩
  · rw [hk.1 rfl hp] at hi
    cases hi
  · exact ⟨nofun, nofun⟩
  · exact ⟨nofun, nofun⟩
  · constructor
    · rw [hp]
      exact nofun
    · rw [hp]
      exact nofun

theorem step_caught {s s' : State w} (hs : Caught s) (hk : KeepsSignal s l)
    (h : step m s l = some s') : Caught s' := by
  have he := step_effect h
  cases l with
  | poll => exact (hs.1 he.1).elim
  | accept polled =>
    obtain ⟨hp | ⟨f, hp⟩, _⟩ := he
    · exact (hs.1 hp).elim
    · cases f with
      | false => exact (hs.2 hp).elim
      | true => exact (hk.2 polled rfl hp).elim
  | acceptError =>
    obtain ⟨_, rfl⟩ := he
    exact ⟨nofun, nofun⟩
  | signal => exact signal_caught hk h
  | takeShutdown =>
    obtain ⟨_, rfl⟩ := he
    exact ⟨nofun, nofun⟩
  | mainReturns =>
    obtain ⟨_, rfl⟩ := he
    exact ⟨nofun, nofun⟩
  | advance i =>
    obtain ⟨_, _, rfl⟩ := he
    exact hs
  | finish i failed =>
    obtain ⟨_, _, rfl⟩ := he
    exact hs
  | panic i =>
    obtain ⟨_, _, rfl⟩ := he
    exact hs
  | decrement i =>
    obtain ⟨_, _, _, _, rfl⟩ := he
    exact hs

theorem signal_of_fired {s : State w} (hr : run (step m) (start w) ls = some s)
    (hs : s.phase = .waiting true) : .signal ∈ ls := by
  have hstart : ¬ (start w).phase = .waiting true := nofun
  obtain ⟨ls₁, l, ls₂, s₁, s₂, rfl, _, hl, hne, hp⟩ :=
    run_exists_step (P := fun s : State w => s.phase = .waiting true) hstart hr hs
  have he := step_effect hl
  have hsignal : l = .signal := by
    cases l with
    | signal => rfl
    | poll =>
      obtain ⟨_, rfl⟩ := he
      cases hp
    | accept polled =>
      obtain ⟨_, rfl⟩ := he
      cases hp
    | acceptError =>
      obtain ⟨_, rfl⟩ := he
      cases hp
    | takeShutdown =>
      obtain ⟨_, rfl⟩ := he
      cases hp
    | mainReturns =>
      obtain ⟨_, rfl⟩ := he
      cases hp
    | advance i =>
      obtain ⟨_, _, rfl⟩ := he
      exact (hne hp).elim
    | finish i failed =>
      obtain ⟨_, _, rfl⟩ := he
      exact (hne hp).elim
    | panic i =>
      obtain ⟨_, _, rfl⟩ := he
      exact (hne hp).elim
    | decrement i =>
      obtain ⟨_, _, _, _, rfl⟩ := he
      exact (hne hp).elim
  rw [hsignal]
  exact List.mem_append_right _ List.mem_cons_self

theorem run_caught {s t : State w} (hs : Caught s) (ha : Along (step m) KeepsSignal s ls)
    (hr : run (step m) s ls = some t) : Caught t :=
  run_invariant_along (fun _ _ _ hs hk h => step_caught hs hk h) hs ha hr

theorem poll_after_lost {s s' : State w} (hr : run (step m) (start w) ls = some s)
    (h : step m s l = some s') (hk : ¬ KeepsSignal s l) :
    .signal ∈ ls ++ [l] ∧ ∃ s'', step m s' .poll = some s'' ∧ s''.phase = .waiting false := by
  have he := step_effect h
  rw [KeepsSignal, not_and_or] at hk
  rcases hk with hk | hk
  · simp only [Classical.not_imp] at hk
    obtain ⟨rfl, hp, hi⟩ := hk
    rcases he with ⟨_, _, rfl⟩ | ⟨_, hi', _⟩ | ⟨f, hp', _⟩ | ⟨hp', _⟩
    · refine ⟨by simp, { s' with phase := .waiting false, installed := true }, ?_, rfl⟩
      simp only [step, hp]
    · exact (hi hi').elim
    · rw [hp] at hp'
      cases hp'
    · rw [hp] at hp'
      cases hp'
  · simp only [not_forall, not_not] at hk
    obtain ⟨polled, rfl, hp⟩ := hk
    obtain ⟨_, rfl⟩ := he
    exact ⟨List.mem_append_left _ (signal_of_fired hr hp), _, rfl, rfl⟩

/-- In the runs whose steps all keep the signal, a loop that waits after one waits on a completed
listener; a step that does not keep it is enough to wait for a second signal. -/
theorem signal_kept (m : Overflow) (ls : List Label) (s : State w)
    (hr : run (step m) (start w) ls = some s) :
    (Along (step m) KeepsSignal (start w) ls → .signal ∈ ls →
      ∀ fired, s.phase = .waiting fired → fired = true) ∧
    ∀ l s', step m s l = some s' → ¬ KeepsSignal s l → .signal ∈ ls ++ [l] ∧
      ∃ s'', step m s' .poll = some s'' ∧ s''.phase = .waiting false := by
  constructor
  · intro ha hmem fired hp
    obtain ⟨ls₁, ls₂, rfl⟩ := List.append_of_mem hmem
    obtain ⟨s₁, hr₁, hr₂⟩ := run_append_eq_some.1 hr
    obtain ⟨s₂, hl, hr₃⟩ := run_cons_eq_some.1 hr₂
    have ha₁ := along_append ha hr₁
    have hs := run_caught (signal_caught ha₁.1 hl) (ha₁.2 s₂ hl) hr₃
    cases fired with
    | false => exact (hs.2 hp).elim
    | true => rfl
  · intro l s' h hk
    exact poll_after_lost hr h hk

theorem signal_kept_waiting :
    ∃ s : State 64, run (step .checked) (start 64) [.poll, .accept false, .poll, .signal] = some s ∧
      ∀ fired, s.phase = .waiting fired → fired = true := by
  refine ⟨⟨.waiting true, true, 1, [.handling 0]⟩, by decide, ?_⟩
  apply (signal_kept .checked [.poll, .accept false, .poll, .signal] _ (by decide)).1
  · refine ⟨⟨nofun, nofun⟩, fun s₁ h₁ => ?_⟩
    cases h₁
    refine ⟨⟨nofun, nofun⟩, fun s₂ h₂ => ?_⟩
    cases h₂
    refine ⟨⟨nofun, nofun⟩, fun s₃ h₃ => ?_⟩
    cases h₃
    exact ⟨⟨nofun, nofun⟩, fun _ _ => trivial⟩
  · decide

/-- A signal between an accept and the next poll, and one whose listener an accept drops: the loop
waits for another one. -/
theorem signal_lost :
    (¬ ∀ (ls : List Label) (s : State 64), run (step .checked) (start 64) (.poll :: ls) = some s →
      .signal ∈ ls → ∀ fired, s.phase = .waiting fired → fired = true) ∧
      ∃ s : State 64, run (step .checked) (start 64) [.poll, .signal, .accept false, .poll] =
        some s ∧ s.phase = .waiting false := by
  constructor
  · intro h
    have hr : run (step .checked) (start 64) [.poll, .accept false, .signal, .poll] =
        some ⟨.waiting false, true, 1, [.handling 0]⟩ := by decide
    have := h [.accept false, .signal, .poll] _ hr (by decide) false rfl
    cases this
  · exact ⟨⟨.waiting false, true, 1, [.handling 0]⟩, by decide, rfl⟩

end ReverseProxy.AcceptLoop
