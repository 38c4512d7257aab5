import ReverseProxy.AcceptLoop

namespace ReverseProxy.AcceptLoop
open Runs Usize
set_option autoImplicit true

def Task.inFlight : Task → Bool
  | .handling _ => true
  | _ => false

def Task.wasCancelled : Task → Bool
  | .cancelled _ => true
  | _ => false

def Task.ranToEnd (t : Task) : Bool := !t.inFlight && !t.wasCancelled

def Effect (m : Overflow) (s s' : State w) : Label → Prop
  | .poll => s.phase = .selecting ∧ s' = { s with phase := .waiting false, installed := true }
  | .accept polled =>
    (s.phase = .selecting ∨ ∃ f, s.phase = .waiting f) ∧
      s' = { phase := .selecting, installed := s.installed || polled, active := s.active + 1,
             tasks := s.tasks ++ [.handling 0] }
  | .acceptError => (s.phase = .selecting ∨ ∃ f, s.phase = .waiting f) ∧ s' = s.endProcess .failed
  | .signal =>
    (s.phase = .selecting ∧ s.installed = true ∧ s' = s) ∨
      (s.phase = .selecting ∧ s.installed = false ∧ s' = s.endProcess .killed) ∨
      (∃ f, s.phase = .waiting f ∧ s' = { s with phase := .waiting true }) ∨
      (s.phase = .leaving ∧ s' = s)
  | .takeShutdown => s.phase = .waiting true ∧ s' = { s with phase := .leaving }
  | .mainReturns => s.phase = .leaving ∧ s' = s.endProcess .stopped
  | .advance i => ∃ k, s.tasks[i]? = some (.handling k) ∧ s' = s.setTask i (.handling (k + 1))
  | .finish i failed => ∃ k, s.tasks[i]? = some (.handling k) ∧ s' = s.setTask i (.ended failed)
  | .panic i => ∃ k, s.tasks[i]? = some (.handling k) ∧ s' = s.setTask i .panicked
  | .decrement i => ∃ failed t, s.tasks[i]? = some (.ended failed) ∧
      t = (if (Usize.sub m s.active 1).isSome then Task.done else Task.panicked) ∧
      s' = { s.setTask i t with active := s.active - 1 }

theorem step_effect (h : step m s l = some s') : Effect m s s' l := by
  cases l with
  | poll =>
    simp only [step] at h
    split at h
    · next hp => cases h; exact ⟨hp, rfl⟩
    · cases h
  | accept polled =>
    simp only [step] at h
    split at h
    · next hp => cases h; exact ⟨.inl hp, rfl⟩
    · next f hp => cases h; exact ⟨.inr ⟨f, hp⟩, rfl⟩
    · cases h
  | acceptError =>
    simp only [step] at h
    split at h
    · next hp => cases h; exact ⟨.inl hp, rfl⟩
    · next f hp => cases h; exact ⟨.inr ⟨f, hp⟩, rfl⟩
    · cases h
  | signal =>
    simp only [step] at h
    split at h
    · next hp =>
      split at h
      · next hi => cases h; exact .inl ⟨hp, hi, rfl⟩
      · next hi => cases h; exact .inr (.inl ⟨hp, by simpa using hi, rfl⟩)
    · next f hp => cases h; exact .inr (.inr (.inl ⟨f, hp, rfl⟩))
    · next hp => cases h; exact .inr (.inr (.inr ⟨hp, rfl⟩))
    · cases h
  | takeShutdown =>
    simp only [step] at h
    split at h
    · next hp => cases h; exact ⟨hp, rfl⟩
    · cases h
  | mainReturns =>
    simp only [step] at h
    split at h
    · next hp => cases h; exact ⟨hp, rfl⟩
    · cases h
  | advance i =>
    simp only [step] at h
    split at h
    · next k ht => cases h; exact ⟨k, ht, rfl⟩
    · cases h
  | finish i failed =>
    simp only [step] at h
    split at h
    · next k ht => cases h; exact ⟨k, ht, rfl⟩
    · cases h
  | panic i =>
    simp only [step] at h
    split at h
    · next k ht => cases h; exact ⟨k, ht, rfl⟩
    · cases h
  | decrement i =>
    simp only [step] at h
    split at h
    · next failed ht => cases h; exact ⟨failed, _, ht, rfl, rfl⟩
    · cases h

/-- What a task may be while `main` stands at `p`: nothing is cancelled before the process ends. -/
def Accounted : Phase → Task → Prop
  | .stopped, t => t.ranToEnd = true
  | .failed, _ | .killed, _ => True
  | _, t => t.wasCancelled = false

def TasksAccounted (s : State w) : Prop := ∀ t ∈ s.tasks, Accounted s.phase t

theorem accounted_ranToEnd (p : Phase) (ht : t.ranToEnd = true) : Accounted p t := by
  have hc : t.wasCancelled = false := by
    simp only [Task.ranToEnd, Bool.and_eq_true, Bool.not_eq_true'] at ht
    exact ht.2
  cases p with
  | stopped => exact ht
  | failed => trivial
  | killed => trivial
  | selecting => exact hc
  | waiting => exact hc
  | leaving => exact hc

theorem accounted_handling (h : Accounted p (.handling k)) (j : Nat) :
    Accounted p (.handling j) := by
  cases p with
  | stopped => cases h
  | failed => trivial
  | killed => trivial
  | selecting => rfl
  | waiting => rfl
  | leaving => rfl

theorem TasksAccounted.setTask {s : State w} (h : TasksAccounted s) (ht : Accounted s.phase t)
    (i : Nat) : TasksAccounted (s.setTask i t) := by
  intro u hu
  rcases List.mem_or_eq_of_mem_set hu with hu | rfl
  · exact h u hu
  · exact ht

/-- The runtime is dropped only when no connection is being handled. -/
def ReturnsIdle (s : State w) (l : Label) : Prop :=
  l = .mainReturns → ∀ t ∈ s.tasks, t.inFlight = false

theorem step_tasksAccounted (hs : TasksAccounted s) (hl : ReturnsIdle s l)
    (h : step m s l = some s') : TasksAccounted s' := by
  have he := step_effect h
  cases l with
  | poll =>
    obtain ⟨hp, rfl⟩ := he
    intro t ht
    have := hs t ht
    rwa [hp] at this
  | accept polled =>
    obtain ⟨hp, rfl⟩ := he
    intro t ht
    rcases List.mem_append.1 ht with ht | ht
    · have := hs t ht
      rcases hp with hp | ⟨f, hp⟩ <;> rwa [hp] at this
    · rw [List.mem_singleton.1 ht]
      rfl
  | acceptError =>
    obtain ⟨_, rfl⟩ := he
    exact fun t _ => trivial
  | signal =>
    rcases he with ⟨_, _, rfl⟩ | ⟨_, _, rfl⟩ | ⟨f, hp, rfl⟩ | ⟨_, rfl⟩
    · exact hs
    · exact fun t _ => trivial
    · intro t ht
      have := hs t ht
      rwa [hp] at this
    · exact hs
  | takeShutdown =>
    obtain ⟨hp, rfl⟩ := he
    intro t ht
    have := hs t ht
    rwa [hp] at this
  | mainReturns =>
    obtain ⟨hp, rfl⟩ := he
    intro t ht
    obtain ⟨u, hu, rfl⟩ := List.mem_map.1 ht
    have hc := hs u hu
    rw [hp] at hc
    have hi := hl rfl u hu
    cases u with
    | handling k => cases hi
    | cancelled k => cases hc
    | ended failed => rfl
    | done => rfl
    | panicked => rfl
  | advance i =>
    obtain ⟨k, ht, rfl⟩ := he
    exact hs.setTask (accounted_handling (hs _ (List.mem_of_getElem? ht)) _) i
  | finish i failed =>
    obtain ⟨k, ht, rfl⟩ := he
    exact hs.setTask (accounted_ranToEnd _ rfl) i
  | panic i =>
    obtain ⟨k, ht, rfl⟩ := he
    exact hs.setTask (accounted_ranToEnd _ rfl) i
  | decrement i =>
    obtain ⟨failed, t, ht, rfl, rfl⟩ := he
    apply hs.setTask (accounted_ranToEnd _ _) i
    split <;> rfl

theorem step_cancelled {s s' : State w} (hs : ∃ t ∈ s.tasks, t.wasCancelled = true)
    (h : step m s l = some s') : ∃ t ∈ s'.tasks, t.wasCancelled = true := by
  obtain ⟨t, ht, hc⟩ := hs
  have hmap : t ∈ s.tasks.map Task.cancel := by
    refine List.mem_map.2 ⟨t, ht, ?_⟩
    cases t with
    | cancelled k => rfl
    | _ => cases hc
  have hset {i : Nat} {u : Task} (hu : s.tasks[i]? = some u) (hn : u.wasCancelled = false)
      (v : Task) : t ∈ s.tasks.set i v := by
    obtain ⟨j, hj⟩ := List.mem_iff_getElem?.1 ht
    have hij : i ≠ j := by
      rintro rfl
      rw [hu] at hj
      cases hj
      rw [hn] at hc
      cases hc
    exact List.mem_of_getElem? ((List.getElem?_set_ne hij).trans hj)
  have he := step_effect h
  cases l with
  | poll => obtain ⟨_, rfl⟩ := he; exact ⟨t, ht, hc⟩
  | accept polled => obtain ⟨_, rfl⟩ := he; exact ⟨t, List.mem_append_left _ ht, hc⟩
  | acceptError => obtain ⟨_, rfl⟩ := he; exact ⟨t, hmap, hc⟩
  | signal =>
    rcases he with ⟨_, _, rfl⟩ | ⟨_, _, rfl⟩ | ⟨f, _, rfl⟩ | ⟨_, rfl⟩
    · exact ⟨t, ht, hc⟩
    · exact ⟨t, hmap, hc⟩
    · exact ⟨t, ht, hc⟩
    · exact ⟨t, ht, hc⟩
  | takeShutdown => obtain ⟨_, rfl⟩ := he; exact ⟨t, ht, hc⟩
  | mainReturns => obtain ⟨_, rfl⟩ := he; exact ⟨t, hmap, hc⟩
  | advance i => obtain ⟨k, hu, rfl⟩ := he; exact ⟨t, hset hu rfl _, hc⟩
  | finish i failed => obtain ⟨k, hu, rfl⟩ := he; exact ⟨t, hset hu rfl _, hc⟩
  | panic i => obtain ⟨k, hu, rfl⟩ := he; exact ⟨t, hset hu rfl _, hc⟩
  | decrement i => obtain ⟨failed, v, hu, _, rfl⟩ := he; exact ⟨t, hset hu rfl _, hc⟩

theorem start_tasksAccounted (w : Nat) : TasksAccounted (start w) := by
  intro t ht
  cases ht

theorem along_of_ranToEnd {s t : State w} (hr : run (step m) s ls = some t)
    (ht : ∀ u ∈ t.tasks, u.ranToEnd = true) : Along (step m) ReturnsIdle s ls := by
  induction ls generalizing s with
  | nil => trivial
  | cons l ls ih =>
    obtain ⟨s', hl, hr'⟩ := run_cons_eq_some.1 hr
    constructor
    · rintro rfl u hu
      by_contra hf
      have hc : ∃ v ∈ s'.tasks, v.wasCancelled = true := by
        obtain ⟨_, rfl⟩ := step_effect hl
        refine ⟨u.cancel, List.mem_map.2 ⟨u, hu, rfl⟩, ?_⟩
        cases u with
        | handling k => rfl
        | _ => exact absurd rfl hf
      obtain ⟨v, hv, hvc⟩ : ∃ v ∈ t.tasks, v.wasCancelled = true :=
        run_invariant (I := fun s : State w => ∃ v ∈ s.tasks, v.wasCancelled = true)
          (fun _ _ _ hs h => step_cancelled hs h) hc hr'
      have := ht v hv
      simp [Task.ranToEnd, hvc] at this
    · intro s'' h
      rw [hl] at h
      cases h
      exact ih hr'

/-- In the runs that end on the shutdown signal, every accepted connection ran to its end exactly
when none was being handled at the moment `main` returned. All of them were accepted before that
signal: an accept after it drops the listener it fired. -/
theorem shutdown_ranToEnd_iff (m : Overflow) (ls : List Label) (s : State w)
    (hr : run (step m) (start w) ls = some s) (hp : s.phase = .stopped) :
    (∀ t ∈ s.tasks, t.ranToEnd = true) ↔ Along (step m) ReturnsIdle (start w) ls := by
  constructor
  · exact along_of_ranToEnd hr
  intro ha t ht
  have hs : TasksAccounted s := run_invariant_along
    (fun s l s' hs hl h => step_tasksAccounted hs hl h) (start_tasksAccounted w) ha hr
  have := hs t ht
  rwa [hp] at this

theorem shutdown_ranToEnd_idle :
    ∃ s : State 64,
      run (step .checked) (start 64)
        [.poll, .accept false, .poll, .advance 0, .finish 0 false, .decrement 0, .signal,
          .takeShutdown, .mainReturns] = some s ∧
      s.tasks = [.done] ∧
      ((∀ t ∈ s.tasks, t.ranToEnd = true) ↔
        Along (step .checked) ReturnsIdle (start 64)
          [.poll, .accept false, .poll, .advance 0, .finish 0 false, .decrement 0, .signal,
            .takeShutdown, .mainReturns]) :=
  ⟨⟨.stopped, true, 0, [.done]⟩, by decide, rfl,
    shutdown_ranToEnd_iff .checked _ _ (by decide) rfl⟩

/-- A connection in flight when the signal arrives is cut off at its current await. -/
theorem shutdown_cuts_connection :
    ¬ ∀ (ls : List Label) (s : State 64), run (step .checked) (start 64) ls = some s →
      s.phase = .stopped → ∀ t ∈ s.tasks, t.ranToEnd = true := by
  intro h
  have hr : run (step .checked) (start 64)
      [.poll, .accept false, .poll, .advance 0, .signal, .takeShutdown, .mainReturns] =
        some ⟨.stopped, true, 1, [.cancelled 1]⟩ := by decide
  have := h _ _ hr rfl (.cancelled 1) (by simp)
  cases this

end ReverseProxy.AcceptLoop
