import Mathlib.Data.List.Basic
import Mathlib.Order.RelClasses

namespace Runs
set_option autoImplicit true

variable {S : Type u} {L : Type v} (step : S → L → Option S)

/-- The state after a list of labelled steps, each of which must be enabled. -/
def run (s : S) : List L → Option S
  | [] => some s
  | l :: ls => (step s l).bind (fun s' => run s' ls)

/-- The states of a run, its first and its last among them. -/
def visited (s : S) : List L → List S
  | [] => [s]
  | l :: ls => s :: match step s l with
    | none => []
    | some s' => visited s' ls

/-- Every step of the run is taken in a state where `P` allows it. -/
def Along (P : S → L → Prop) (s : S) : List L → Prop
  | [] => True
  | l :: ls => P s l ∧ ∀ s', step s l = some s' → Along P s' ls

variable {step}

theorem run_cons (hs : step s l = some s') : run step s (l :: ls) = run step s' ls := by
  rw [run, hs, Option.bind_some]

theorem run_singleton (hs : step s l = some s') : run step s [l] = some s' := run_cons hs

theorem run_congr {step' : S → L → Option S} (h : ∀ s, ∀ l ∈ ls, step s l = step' s l) (s : S) :
    run step s ls = run step' s ls := by
  induction ls generalizing s with
  | nil => rfl
  | cons l ls ih =>
    rw [run, run, h s l (by simp)]
    congr 1
    funext s'
    exact ih (fun s k hk => h s k (by simp [hk])) s'

theorem run_cons_eq_some :
    run step s (l :: ls) = some t ↔ ∃ s', step s l = some s' ∧ run step s' ls = some t := by
  rw [run, Option.bind_eq_some_iff]

theorem run_append (s : S) (ls ks : List L) :
    run step s (ls ++ ks) = (run step s ls).bind (fun s' => run step s' ks) := by
  induction ls generalizing s with
  | nil => rfl
  | cons l ls ih =>
    rw [List.cons_append, run, run]
    cases step s l with
    | none => rfl
    | some s' => exact ih s'

theorem run_append_eq_some : run step s (ls ++ ks) = some t ↔
    ∃ s', run step s ls = some s' ∧ run step s' ks = some t := by
  rw [run_append, Option.bind_eq_some_iff]

theorem mem_visited (hu : u ∈ visited step s ls) :
    ∃ ls₁ ls₂, ls = ls₁ ++ ls₂ ∧ run step s ls₁ = some u := by
  induction ls generalizing s with
  | nil =>
    rw [List.mem_singleton.1 hu]
    exact ⟨[], [], rfl, rfl⟩
  | cons l ls ih =>
    rcases List.mem_cons.1 hu with rfl | hu
    · exact ⟨[], l :: ls, rfl, rfl⟩
    · split at hu
      · cases hu
      · next s' hl =>
        obtain ⟨ls₁, ls₂, rfl, hr⟩ := ih hu
        exact ⟨l :: ls₁, ls₂, rfl, (run_cons hl).trans hr⟩

theorem run_invariant_along {I : S → Prop} {P : S → L → Prop}
    (hstep : ∀ s l s', I s → P s l → step s l = some s' → I s') (hs : I s)
    (ha : Along step P s ls) (hr : run step s ls = some t) : I t := by
  induction ls generalizing s with
  | nil =>
    cases hr
    exact hs
  | cons l ls ih =>
    obtain ⟨s', hl, hr⟩ := run_cons_eq_some.1 hr
    exact ih (hstep s l s' hs ha.1 hl) (ha.2 s' hl) hr

theorem along_append {P : S → L → Prop} (ha : Along step P s (ls ++ ks))
    (hr : run step s ls = some t) : Along step P t ks := by
  induction ls generalizing s with
  | nil =>
    cases hr
    exact ha
  | cons l ls ih =>
    obtain ⟨s', hl, hr⟩ := run_cons_eq_some.1 hr
    exact ih (ha.2 s' hl) hr

theorem along_of_forall {P : S → L → Prop} (h : ∀ s, ∀ l ∈ ls, P s l) (s : S) :
    Along step P s ls := by
  induction ls generalizing s with
  | nil => trivial
  | cons l ls ih =>
    exact ⟨h s l (by simp), fun s' _ => ih (fun s k hk => h s k (by simp [hk])) s'⟩

theorem run_invariant {I : S → Prop}
    (hstep : ∀ s l s', I s → step s l = some s' → I s') (hs : I s)
    (hr : run step s ls = some t) : I t :=
  run_invariant_along (P := fun _ _ => True) (fun s l s' hs _ => hstep s l s' hs) hs
    (along_of_forall (fun _ _ _ => trivial) s) hr

/-- When each step of a system is a course of another, so is each of its runs. -/
theorem run_simulation {S' : Type u'} {L' : Type v'} {step' : S' → L' → Option S'} {f : S → S'}
    (hstep : ∀ s l s', step s l = some s' → ∃ ks, run step' (f s) ks = some (f s'))
    (hr : run step s ls = some t) : ∃ ks, run step' (f s) ks = some (f t) := by
  induction ls generalizing s with
  | nil =>
    cases hr
    exact ⟨[], rfl⟩
  | cons l ls ih =>
    obtain ⟨u, hl, hr⟩ := run_cons_eq_some.1 hr
    obtain ⟨ks₁, h₁⟩ := hstep s l u hl
    obtain ⟨ks₂, h₂⟩ := ih hr
    exact ⟨ks₁ ++ ks₂, run_append_eq_some.2 ⟨_, h₁, h₂⟩⟩

theorem run_flatMap {S' : Type u'} {L' : Type v'} {step' : S' → L' → Option S'} {f : S → S'}
    {g : L → List L'} (hstep : ∀ s l s', step s l = some s' → run step' (f s) (g l) = some (f s'))
    (hr : run step s ls = some t) : run step' (f s) (ls.flatMap g) = some (f t) := by
  induction ls generalizing s with
  | nil =>
    cases hr
    rfl
  | cons l ls ih =>
    obtain ⟨u, hl, hr⟩ := run_cons_eq_some.1 hr
    rw [List.flatMap_cons]
    exact run_append_eq_some.2 ⟨_, hstep s l u hl, ih hr⟩

/-- Steps that take a rank down for as long as `Q` does not hold lead to where it holds. -/
theorem run_exists_of_rank {α : Type} [LT α] [WellFoundedLT α] {I Q : S → Prop} {P : L → Prop}
    (rank : S → α) (hstep : ∀ s, I s → Q s ∨
      ∃ l s', P l ∧ step s l = some s' ∧ I s' ∧ rank s' < rank s) (hs : I s) :
    ∃ ls t, (∀ l ∈ ls, P l) ∧ run step s ls = some t ∧ I t ∧ Q t := by
  induction hr : rank s using WellFoundedLT.induction generalizing s with
  | ind r ih =>
    rcases hstep s hs with hQ | ⟨l, s', hP, hl, hs', hlt⟩
    · exact ⟨[], s, nofun, rfl, hs, hQ⟩
    · obtain ⟨ls, t, hls, hrun, ht⟩ := ih _ (hr ▸ hlt) hs' rfl
      exact ⟨l :: ls, t, List.forall_mem_cons.2 ⟨hP, hls⟩, (run_cons hl).trans hrun, ht⟩

theorem run_reaches_of_rank {α : Type} [LT α] [WellFoundedLT α] {s₀ : S} {J Q : S → Prop}
    {P : L → Prop} (rank : S → α)
    (hstep : ∀ ls s, run step s₀ ls = some s → J s → Q s ∨
      ∃ l s', P l ∧ step s l = some s' ∧ J s' ∧ rank s' < rank s)
    (hr : run step s₀ ls = some s) (hs : J s) :
    ∃ vs t ks, (∀ l ∈ vs, P l) ∧ run step s vs = some t ∧ run step s₀ ks = some t ∧ Q t := by
  have hkept (s : S) (h : (∃ ls, run step s₀ ls = some s) ∧ J s) : Q s ∨ ∃ l s', P l ∧
      step s l = some s' ∧ ((∃ ls, run step s₀ ls = some s') ∧ J s') ∧ rank s' < rank s := by
    obtain ⟨⟨ls, hr⟩, hs⟩ := h
    rcases hstep ls s hr hs with hQ | ⟨l, s', hP, hl, hs', hlt⟩
    · exact .inl hQ
    · refine .inr ⟨l, s', hP, hl, ⟨⟨ls ++ [l], ?_⟩, hs'⟩, hlt⟩
      exact run_append_eq_some.2 ⟨s, hr, run_singleton hl⟩
  obtain ⟨vs, t, hvs, hrun, ⟨⟨ks, hks⟩, _⟩, hQ⟩ := run_exists_of_rank rank hkept ⟨⟨ls, hr⟩, hs⟩
  exact ⟨vs, t, ks, hvs, hrun, hks, hQ⟩

theorem run_length_le (rank : S → Nat)
    (hstep : ∀ s l s', step s l = some s' → rank s' < rank s) (hr : run step s ls = some t) :
    ls.length + rank t ≤ rank s := by
  induction ls generalizing s with
  | nil =>
    cases hr
    exact Nat.le_of_eq (Nat.zero_add _)
  | cons l ls ih =>
    obtain ⟨s', hs, hr⟩ := run_cons_eq_some.1 hr
    have hlt := hstep s l s' hs
    have hle := ih hr
    rw [List.length_cons]
    omega

theorem run_exists_step {P : S → Prop} (hs : ¬ P s) (hr : run step s ls = some t) (ht : P t) :
    ∃ ls₁ l ls₂ s₁ s₂, ls = ls₁ ++ l :: ls₂ ∧ run step s ls₁ = some s₁ ∧
      step s₁ l = some s₂ ∧ ¬ P s₁ ∧ P s₂ := by
  induction ls generalizing s with
  | nil =>
    cases hr
    exact (hs ht).elim
  | cons l ls ih =>
    obtain ⟨s', hl, hr⟩ := run_cons_eq_some.1 hr
    by_cases hs' : P s'
    · exact ⟨[], l, ls, s, s', rfl, rfl, hl, hs, hs'⟩
    · obtain ⟨ls₁, k, ls₂, s₁, s₂, rfl, hr₁, hk⟩ := ih hs' hr
      exact ⟨l :: ls₁, k, ls₂, s₁, s₂, rfl, run_cons_eq_some.2 ⟨s', hl, hr₁⟩, hk⟩

end Runs
