import ReverseProxy.Balancer

namespace ReverseProxy.C
open Cyclic Runs Tickets Usize
set_option autoImplicit true

def store (health : List Bool) : Nat × Bool → Option (List Bool)
  | (i, v) => if i < health.length then some (health.set i v) else none

def stored (w : Nat) (m : Overflow) (upstreams : List Addr) :
    Object w (List Bool) (Call w Addr) (Nat × Bool) :=
  object w m upstreams id store

variable {w : Nat} {Addr : Type} {m : Overflow} {upstreams : List Addr}
  {s s' t : State w (List Bool) (Call w Addr)} {start : BitVec w} {c i j k : Nat}

theorem store_eq_some (h : store health e = some health') :
    e.1 < health.length ∧ health' = health.set e.1 e.2 := by
  obtain ⟨i, v⟩ := e
  simp only [store] at h
  split at h
  · next hi =>
    cases h
    exact ⟨hi, rfl⟩
  · cases h

theorem stored_acts (h : (stored w m upstreams).act health x = some x') :
    Acts m upstreams health x x' := acts_of_act h

theorem step_memory (h : (stored w m upstreams).step s l = some s') :
    s'.memory = s.memory ∨ ∃ i v, l = .env (i, v) ∧ s'.memory = s.memory.set i v := by
  have he := step_effect h
  cases l with
  | fetch =>
    cases he
    exact .inl rfl
  | act c =>
    obtain ⟨x, x', _, _, rfl⟩ := he
    exact .inl rfl
  | env e =>
    obtain ⟨mem, hm, rfl⟩ := he
    exact .inr ⟨e.1, e.2, rfl, (store_eq_some hm).2⟩

theorem run_down {ls : List (Label (Nat × Bool))} (hls : ∀ i, Label.env (i, true) ∉ ls)
    (hj : s.memory[j]? = some false)
    (hr : run (stored w m upstreams).step s ls = some t) : t.memory[j]? = some false := by
  refine run_invariant_along (I := fun u => u.memory[j]? = some false)
    (P := fun _ l => ∀ i, l ≠ .env (i, true)) (fun u l u' hu hl h => ?_) hj
    (along_of_forall (fun u l hl i he => hls i (by rwa [he] at hl)) s) hr
  rcases step_memory h with hm | ⟨i, v, rfl, hm⟩
  · rw [hm, hu]
  · have hv : v = false := by
      cases v with
      | true => exact absurd rfl (hl i)
      | false => rfl
    rw [hm, hv]
    by_cases hij : i = j
    · subst hij
      exact List.getElem?_set_self (List.getElem?_eq_some_iff.1 hu).1
    · rw [List.getElem?_set_ne hij, hu]

theorem run_not_scanning {x : Call w Addr} (hd : ∀ health, x.act m upstreams health = none)
    (hx : s.calls[c]? = some x) (hr : run (stored w m upstreams).step s ls = some t) :
    t.calls[c]? ≠ some (.scanning start j) := by
  intro ht
  rw [run_ended hd hx hr] at ht
  cases ht
  exact act_scanning_ne_none start j (hd [])

theorem passed_down {ls : List (Label (Nat × Bool))} (hx : s.calls[c]? = some (.scanning start i))
    (hr : run (stored w m upstreams).step s ls = some t)
    (ht : t.calls[c]? = some (.scanning start j)) (hik : i ≤ k) (hkj : k < j)
    (hw : start.toNat + k < 2 ^ w) :
    ∃ u ∈ visited (stored w m upstreams).step s ls,
      u.memory[(start.toNat + k) % upstreams.length]? = some false := by
  induction ls generalizing s i with
  | nil =>
    cases hr
    rw [hx] at ht
    cases ht
    omega
  | cons l ls ih =>
    obtain ⟨s', hl, hr⟩ := run_cons_eq_some.1 hr
    have hmem : ∀ u ∈ visited (stored w m upstreams).step s' ls,
        u ∈ visited (stored w m upstreams).step s (l :: ls) := by
      intro u hu
      rw [visited, hl]
      exact List.mem_cons_of_mem _ hu
    rcases step_getElem? hl hx with hx' | ⟨_, _, x', hact, hx'⟩
    · obtain ⟨u, hu, hd⟩ := ih hx' hr hik
      exact ⟨u, hmem u hu, hd⟩
    · cases stored_acts hact with
      | passed _ hturn =>
        rcases Nat.eq_or_lt_of_le hik with rfl | hlt
        · obtain ⟨sum, hsum, hd⟩ := turn_ok hturn
          rw [Usize.add_of_lt m hw, Option.some.injEq] at hsum
          subst hsum
          exact ⟨s, List.mem_cons_self, hd⟩
        · obtain ⟨u, hu, hd⟩ := ih hx' hr hlt
          exact ⟨u, hmem u hu, hd⟩
      | exhausted _ => exact (run_not_scanning (fun _ => rfl) hx' hr ht).elim
      | found _ _ => exact (run_not_scanning (fun _ => rfl) hx' hr ht).elim
      | panicked _ _ => exact (run_not_scanning (fun _ => rfl) hx' hr ht).elim

theorem run_start {ls : List (Label (Nat × Bool))} (hx : s.calls[c]? = some (.scanning start i))
    (hr : run (stored w m upstreams).step s ls = some t)
    (ht : t.calls[c]? = some (.scanning start' j)) : start' = start := by
  have hI : ∃ x, t.calls[c]? = some x ∧ ∀ u k, x = .scanning u k → u = start := by
    refine run_invariant (I := fun u => ∃ x, u.calls[c]? = some x ∧
      ∀ v k, x = .scanning v k → v = start) (fun u l u' hu h => ?_) ⟨_, hx, ?_⟩ hr
    · obtain ⟨x, hux, hst⟩ := hu
      rcases step_getElem? h hux with h' | ⟨_, _, x', hact, h'⟩
      · exact ⟨x, h', hst⟩
      · refine ⟨x', h', fun v k hv => ?_⟩
        subst hv
        cases stored_acts hact with
        | passed _ _ => exact hst v _ rfl
    · intro v k hv
      cases hv
      rfl
  obtain ⟨x, hx', hst⟩ := hI
  rw [ht] at hx'
  exact hst _ _ (Option.some.inj hx').symm

/-- When a call finds nothing, each flag was down at the moment it was loaded, and all of them at
its last step if none was stored up in the meantime. -/
theorem nextHealthy_none (m : Overflow) (upstreams : List Addr)
    (ls : List (Label (Nat × Bool))) (s t t' : State w (List Bool) (Call w Addr))
    (hw : s.counter.toNat + upstreams.length < 2 ^ w)
    (hr : run (stored w m upstreams).step s (.fetch :: ls) = some t)
    (ht : (stored w m upstreams).step t (.act s.calls.length) = some t')
    (hnone : t'.calls[s.calls.length]? = some (.returned none)) :
    (∀ j < upstreams.length,
      ∃ u ∈ (visited (stored w m upstreams).step s (.fetch :: ls)).tail,
        u.memory[j]? = some false) ∧
      ((∀ i, Label.env (i, true) ∉ ls) → ∀ j < upstreams.length, t.memory[j]? = some false) := by
  obtain ⟨s', hs', hr⟩ := run_cons_eq_some.1 hr
  have hvisited : (visited (stored w m upstreams).step s (.fetch :: ls)).tail =
      visited (stored w m upstreams).step s' ls := by
    rw [visited, hs']
    rfl
  have hx : s'.calls[s.calls.length]? = some (.scanning s.counter 0) := by
    cases step_effect hs'
    exact List.getElem?_concat_length
  have hscan : ∃ start i, t.calls[s.calls.length]? = some (.scanning start i) := by
    obtain ⟨x, x', hx, hact, _⟩ := step_effect ht
    cases stored_acts hact <;> exact ⟨_, _, hx⟩
  obtain ⟨start, i, hti⟩ := hscan
  have hstart : start = s.counter := run_start hx hr hti
  have hi : upstreams.length ≤ i := by
    rcases step_getElem? ht hti with h | ⟨_, _, x, hact, hx'⟩
    · rw [hnone] at h
      cases h
    · rw [hnone, Option.some.injEq] at hx'
      subst hx'
      cases stored_acts hact with
      | exhausted hi => exact hi
  subst hstart
  have hdown (j : Nat) (hj : j < upstreams.length) :
      ∃ u ∈ visited (stored w m upstreams).step s' ls, u.memory[j]? = some false := by
    obtain ⟨k, hk, rfl⟩ := exists_offset hj s.counter.toNat
    exact passed_down hx hr hti (Nat.zero_le k) (by omega) (by omega)
  constructor
  · intro j hj
    rw [hvisited]
    exact hdown j hj
  intro hls j hj
  obtain ⟨u, hu, hd⟩ := hdown j hj
  obtain ⟨ls₁, ls₂, rfl, hru⟩ := mem_visited hu
  rw [run_append, hru, Option.bind_some] at hr
  exact run_down (fun i hi => hls i (List.mem_append_right _ hi)) hd hr

theorem nextHealthy_none_down :
    ∃ t t' : State 64 (List Bool) (Call 64 Nat),
      run (stored 64 .checked [10, 20]).step ⟨5, [false, true], []⟩
        [.fetch, .env (1, false), .act 0, .act 0] = some t ∧
      (stored 64 .checked [10, 20]).step t (.act 0) = some t' ∧
      t.memory[1]? = some false := by
  have hr : run (stored 64 .checked [10, 20]).step ⟨5, [false, true], []⟩
      [.fetch, .env (1, false), .act 0, .act 0] = some ⟨6, [false, false], [.scanning 5 2]⟩ := by
    decide
  have ht : (stored 64 .checked [10, 20]).step ⟨6, [false, false], [.scanning 5 2]⟩ (.act 0) =
      some ⟨6, [false, false], [.returned none]⟩ := by decide
  exact ⟨_, _, hr, ht, (nextHealthy_none .checked [10, 20] _ _ _ _ (by decide) hr ht
    rfl).2 (by simp) 1 (by decide)⟩

/-- Two checkers trade places between the two loads: the call finds nothing, though one upstream
or the other is up at every moment. -/
theorem nextHealthy_none_never_down :
    ¬ ∀ (upstreams : List Nat) (ls : List (Label (Nat × Bool)))
        (s t t' : State 64 (List Bool) (Call 64 Nat)),
      s.memory.length = upstreams.length →
      s.counter.toNat + upstreams.length < 2 ^ 64 →
      run (stored 64 .checked upstreams).step s (.fetch :: ls) = some t →
      (stored 64 .checked upstreams).step t (.act s.calls.length) = some t' →
      t'.calls[s.calls.length]? = some (.returned none) →
      ∃ u ∈ visited (stored 64 .checked upstreams).step s (.fetch :: ls ++ [.act s.calls.length]),
        ∀ j < upstreams.length, u.memory[j]? = some false := by
  intro h
  have := h [10, 20] [.act 0, .env (0, true), .env (1, false), .act 0] ⟨0, [false, true], []⟩
    ⟨1, [true, false], [.scanning 0 2]⟩ ⟨1, [true, false], [.returned none]⟩ rfl (by decide)
    (by decide) (by decide) rfl
  revert this
  decide

end ReverseProxy.C
