import ReverseProxy.Runs

namespace Sessions
open Runs
set_option autoImplicit true

/-- A program that accepts connections for as long as it does, and the tasks it has spawned for
them, which share nothing and end with it. -/
structure State (D A : Type) where
  accepting : Bool
  running : Bool
  sessions : List (D × A)

inductive Label (D L : Type)
  | accept (d : D)
  | stopAccepting
  | halt
  | session (i : Nat) (l : L)

def start : State D A := ⟨true, true, []⟩

def step (first : D → A) (act : D → A → L → Option A) (s : State D A) :
    Label D L → Option (State D A)
  | .accept d =>
    if s.running && s.accepting then some { s with sessions := s.sessions ++ [(d, first d)] }
    else none
  | .stopAccepting => if s.running then some { s with accepting := false } else none
  | .halt => if s.running then some { s with running := false } else none
  | .session i l =>
    if s.running then
      s.sessions[i]?.bind (fun (d, a) => (act d a l).map (fun a' =>
        { s with sessions := s.sessions.set i (d, a') }))
    else none

variable {D A L : Type} {first : D → A} {act : D → A → L → Option A} {s s' : State D A}

def Label.own (i : Nat) : Label D L → Option L
  | .session j l => if j = i then some l else none
  | .accept _ | .stopAccepting | .halt => none

inductive Effect (first : D → A) (act : D → A → L → Option A) :
    Option L → Option (D × A) → Option (D × A) → Prop
  | same : Effect first act none p p
  | accepted : Effect first act none none (some (d, first d))
  | moved : act d a l = some a' → Effect first act (some l) (some (d, a)) (some (d, a'))

theorem step_effect (hs : step first act s l = some s') (i : Nat) :
    Effect first act (l.own i) s.sessions[i]? s'.sessions[i]? := by
  cases l with
  | accept d =>
    obtain ⟨_, he⟩ := Option.ite_none_right_eq_some.1 hs
    cases he
    rcases Nat.lt_trichotomy i s.sessions.length with hlt | rfl | hlt
    · rw [List.getElem?_append_left hlt]
      exact .same
    · rw [List.getElem?_concat_length, List.getElem?_eq_none (Nat.le_refl _)]
      exact .accepted
    · have hle : (s.sessions ++ [(d, first d)]).length ≤ i := by
        rw [List.length_append, List.length_singleton]
        exact hlt
      rw [List.getElem?_eq_none hle, List.getElem?_eq_none (Nat.le_of_lt hlt)]
      exact .same
  | stopAccepting =>
    obtain ⟨_, he⟩ := Option.ite_none_right_eq_some.1 hs
    cases he
    exact .same
  | halt =>
    obtain ⟨_, he⟩ := Option.ite_none_right_eq_some.1 hs
    cases he
    exact .same
  | session j l =>
    obtain ⟨_, he⟩ := Option.ite_none_right_eq_some.1 hs
    obtain ⟨⟨d, a⟩, hj, he⟩ := Option.bind_eq_some_iff.1 he
    obtain ⟨a', hact, rfl⟩ := Option.map_eq_some_iff.1 he
    by_cases hij : j = i
    · subst hij
      rw [Label.own, if_pos rfl, hj, List.getElem?_set_self (List.getElem?_eq_some_iff.1 hj).1]
      exact .moved hact
    · rw [Label.own, if_neg hij, List.getElem?_set_ne hij]
      exact .same

theorem run_own {i : Nat} (hr : run (step first act) s ls = some s')
    (hi : s'.sessions[i]? = some (d, a')) : ∃ a, s.sessions[i]?.getD (d, first d) = (d, a) ∧
      run (act d) a (ls.filterMap (Label.own i)) = some a' := by
  induction ls generalizing s with
  | nil =>
    cases hr
    exact ⟨a', by rw [hi]; rfl, rfl⟩
  | cons l ls ih =>
    obtain ⟨s₁, hs, hr⟩ := run_cons_eq_some.1 hr
    obtain ⟨a, ha, hrun⟩ := ih hr
    have he := step_effect hs i
    revert he ha
    generalize s.sessions[i]? = p, s₁.sessions[i]? = p', hown : l.own i = o
    intro ha he
    cases he with
    | same =>
      rw [List.filterMap_cons_none hown]
      exact ⟨a, ha, hrun⟩
    | accepted =>
      cases ha
      rw [List.filterMap_cons_none hown]
      exact ⟨_, rfl, hrun⟩
    | moved hact =>
      cases ha
      rw [List.filterMap_cons_some hown]
      exact ⟨_, rfl, (run_cons hact).trans hrun⟩

theorem run_session {i : Nat} (hr : run (step first act) start ls = some s)
    (hi : s.sessions[i]? = some (d, a)) :
    run (act d) (first d) (ls.filterMap (Label.own i)) = some a := by
  obtain ⟨a₀, ha₀, hrun⟩ := run_own hr hi
  cases ha₀
  exact hrun

theorem act_eq_none {i : Nat} (act : D → A → L → Option A) (hrunning : s.running = true)
    (hi : s.sessions[i]? = some (d, a)) (hs : step first act s (.session i l) = none) :
    act d a l = none := by
  simp only [step, hrunning, if_true, hi, Option.bind_some, Option.map_eq_none_iff] at hs
  exact hs

end Sessions
