import ReverseProxy.Unavailable

namespace ReverseProxy.C
open Cyclic Runs Tickets Usize
set_option autoImplicit true

variable {w : Nat} {Addr : Type} {m : Overflow} {upstreams : List Addr}
  {s t : State w (List Bool) (Call w Addr)} {start : BitVec w} {j : Nat}

def Call.inProgress : Call w Addr → Bool
  | .scanning _ _ => true
  | .returned _ | .panicked _ => false

/-- What the call with ticket `start` comes to while the flag of `j` is up: it has not passed `j`
yet, or it has returned an upstream, and `j` if it began there. -/
def Meets (upstreams : List Addr) (start : BitVec w) (j : Nat) : Call w Addr → Prop
  | .scanning start' i =>
    start' = start ∧ ∀ k < i, (start.toNat + k) % upstreams.length ≠ j
  | .returned (some (k, addr)) =>
    upstreams[k]? = some addr ∧ (start.toNat % upstreams.length = j → k = j)
  | .returned none | .panicked _ => False

theorem meets_act {health : List Bool} (hlen : health.length = upstreams.length)
    (hj : j < upstreams.length) (hup : health[j]? = some true)
    (hw : start.toNat + upstreams.length < 2 ^ w) (h : Meets upstreams start j x)
    (hx : Acts m upstreams health x x') : Meets upstreams start j x' := by
  cases hx with
  | @exhausted i start' hi =>
    obtain ⟨rfl, hpassed⟩ := h
    obtain ⟨k, hk, hkj⟩ := exists_offset hj start'.toNat
    exact hpassed k (Nat.lt_of_lt_of_le hk hi) hkj
  | passed hi hturn =>
    obtain ⟨rfl, hpassed⟩ := h
    obtain ⟨sum, hsum, hdown⟩ := turn_ok hturn
    rw [Usize.add_of_lt m (by omega), Option.some.injEq] at hsum
    subst hsum
    refine ⟨rfl, fun k hk hkj => ?_⟩
    rcases Nat.lt_succ_iff_lt_or_eq.1 hk with hk | rfl
    · exact hpassed k hk hkj
    · rw [hkj, hup] at hdown
      cases hdown
  | @found i _ r hi hturn =>
    obtain ⟨rfl, hpassed⟩ := h
    obtain ⟨k, addr⟩ := r
    obtain ⟨sum, hsum, hk, _, haddr⟩ := turn_ok hturn
    rw [Usize.add_of_lt m (by omega), Option.some.injEq] at hsum
    subst hsum
    refine ⟨haddr, fun hstart => ?_⟩
    cases i with
    | zero => exact hk.trans hstart
    | succ i => exact (hpassed 0 (Nat.succ_pos i) hstart).elim
  | panicked hi hturn =>
    obtain ⟨rfl, _⟩ := h
    exact (turn_ne_error hlen hi (by omega) _ hturn).elim

theorem run_length {ls : List (Label (Nat × Bool))}
    (hr : run (stored w m upstreams).step s ls = some t) : t.memory.length = s.memory.length := by
  refine run_invariant (I := fun u => u.memory.length = s.memory.length) (fun u l u' hu h => ?_)
    rfl hr
  rcases step_memory h with hm | ⟨i, v, _, hm⟩
  · rw [hm, hu]
  · rw [hm, List.length_set, hu]

theorem inProgress_of_act {health : List Bool} {x : Call w Addr}
    (h : x.act m upstreams health = some x') : x.inProgress = true := by
  cases acts_of_act h <;> rfl

/-- The flag of `j` is up in the states of the run in which some call from the `n`-th on is in
progress. -/
def StaysUp (m : Overflow) (upstreams : List Addr) (s : State w (List Bool) (Call w Addr))
    (ls : List (Label (Nat × Bool))) (n j : Nat) : Prop :=
  ∀ u ∈ visited (stored w m upstreams).step s ls, ∀ c < upstreams.length, ∀ x,
    u.calls[n + c]? = some x → x.inProgress = true → u.memory[j]? = some true

theorem run_meets {ls : List (Label (Nat × Bool))} (hj : j < upstreams.length)
    (hlen : s.memory.length = upstreams.length)
    (hw : s.counter.toNat + 2 * upstreams.length < 2 ^ w)
    (hr : run (stored w m upstreams).step s ls = some t)
    (hup : StaysUp m upstreams s ls s.calls.length j) (hc : c < upstreams.length)
    (hx : t.calls[s.calls.length + c]? = some x) :
    Meets upstreams (s.counter + BitVec.ofNat w c) j x := by
  refine run_call (t := s.counter - BitVec.ofNat w s.calls.length)
    (BitVec.sub_add_cancel _ _).symm ?_ ?_ ?_ hr hx
  · rw [BitVec.ofNat_add, ← BitVec.add_assoc, BitVec.sub_add_cancel]
    exact ⟨rfl, fun k hk => (Nat.not_lt_zero k hk).elim⟩
  · intro u hu y y' hy hP hact
    obtain ⟨ls₁, ls₂, _, hru⟩ := mem_visited hu
    have hflag := hup u hu c hc y hy (inProgress_of_act hact)
    apply meets_act ((run_length hru).trans hlen) hj hflag _ hP (stored_acts hact)
    rw [toNat_add_ticket (by omega)]
    omega
  · intro y hy
    rw [List.getElem?_eq_none (by omega)] at hy
    cases hy

/-- Between arbitrary stores, each of as many calls as there are upstreams gets one as long as some
flag stays up while they are in progress, and the upstream of that flag is among those they get. -/
theorem nextHealthy_noStarvation (m : Overflow) (upstreams : List Addr)
    (ls : List (Label (Nat × Bool))) (s t : State w (List Bool) (Call w Addr)) (j : Nat)
    (hj : j < upstreams.length) (hlen : s.memory.length = upstreams.length)
    (hw : s.counter.toNat + 2 * upstreams.length < 2 ^ w)
    (hr : run (stored w m upstreams).step s ls = some t)
    (hup : StaysUp m upstreams s ls s.calls.length j)
    (hended : ∀ c < upstreams.length, ∃ x,
      t.calls[s.calls.length + c]? = some x ∧ x.inProgress = false) :
    (∀ c < upstreams.length, ∃ k addr, upstreams[k]? = some addr ∧
      t.calls[s.calls.length + c]? = some (.returned (some (k, addr)))) ∧
      ∃ c < upstreams.length, ∃ addr, upstreams[j]? = some addr ∧
        t.calls[s.calls.length + c]? = some (.returned (some (j, addr))) := by
  have hreturned (c : Nat) (hc : c < upstreams.length) : ∃ k addr, upstreams[k]? = some addr ∧
      t.calls[s.calls.length + c]? = some (.returned (some (k, addr))) ∧
        ((s.counter.toNat + c) % upstreams.length = j → k = j) := by
    obtain ⟨x, hx, hend⟩ := hended c hc
    have h := run_meets hj hlen hw hr hup hc hx
    cases x with
    | scanning start i => cases hend
    | panicked p => exact h.elim
    | returned r =>
      cases r with
      | none => exact h.elim
      | some r =>
        obtain ⟨haddr, hfirst⟩ := h
        rw [toNat_add_ticket (by omega)] at hfirst
        exact ⟨r.1, r.2, haddr, hx, hfirst⟩
  constructor
  · intro c hc
    obtain ⟨k, addr, haddr, hx, _⟩ := hreturned c hc
    exact ⟨k, addr, haddr, hx⟩
  · obtain ⟨c, hc, hcj⟩ := exists_offset hj s.counter.toNat
    obtain ⟨k, addr, haddr, hx, hk⟩ := hreturned c hc
    obtain rfl := hk hcj
    exact ⟨c, hc, addr, haddr, hx⟩

theorem nextHealthy_noStarvation_flapping :
    ∃ t : State 64 (List Bool) (Call 64 Nat),
      run (stored 64 .checked [10, 20]).step ⟨6, [false, true], []⟩
        [.fetch, .fetch, .act 0, .env (0, true), .act 1, .env (0, false), .act 0] = some t ∧
      ∃ c < 2, ∃ addr, [10, 20][1]? = some addr ∧
        t.calls[0 + c]? = some (.returned (some (1, addr))) := by
  have hr : run (stored 64 .checked [10, 20]).step ⟨6, [false, true], []⟩
      [.fetch, .fetch, .act 0, .env (0, true), .act 1, .env (0, false), .act 0] =
        some ⟨8, [false, true], [.returned (some (1, 20)), .returned (some (1, 20))]⟩ := by decide
  have hflag : ∀ u ∈ visited (stored 64 .checked [10, 20]).step ⟨6, [false, true], []⟩
      [.fetch, .fetch, .act 0, .env (0, true), .act 1, .env (0, false), .act 0],
        u.memory[1]? = some true := by decide
  refine ⟨_, hr, ?_⟩
  apply (nextHealthy_noStarvation .checked [10, 20] _ _ _ 1 (by decide) rfl (by decide) hr
    (fun u hu _ _ _ _ _ => hflag u hu) _).2
  intro c hc
  match c, hc with
  | 0, _ => exact ⟨_, rfl, rfl⟩
  | 1, _ => exact ⟨_, rfl, rfl⟩

end ReverseProxy.C
