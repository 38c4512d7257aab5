import ReverseProxy.Completeness
import ReverseProxy.Distribution

namespace ReverseProxy.C
open Cyclic Runs Tickets Usize
set_option autoImplicit true

variable {w : Nat} {Addr : Type} {m : Overflow} {b : Balancer w Addr}

def Balancer.nextFound (m : Overflow) (b : Balancer w Addr) :
    Except Panic (Option (Nat × Addr)) × Balancer w Addr :=
  (choose m b.upstreams b.health b.counter, (b.nextHealthy m).2)

def returns (j : Nat) : Except Panic (Option (Nat × Addr)) → Bool
  | .ok (some (i, _)) => i == j
  | .ok none | .error _ => false

/-- How a round of calls falls on the upstreams: a healthy one gets its own turn and those of the
unhealthy ones just before it. -/
structure Load (p : Nat → Bool) (upstreams : List Addr)
    (rs : List (Except Panic (Option (Nat × Addr)))) : Prop where
  count : ∀ j < upstreams.length, p j = true →
    rs.countP (returns j) = 1 + gapBefore p upstreams.length j
  healthy : ∀ j addr, .ok (some (j, addr)) ∈ rs → p j = true ∧ upstreams[j]? = some addr
  none : (∀ j < upstreams.length, p j = false) → ∀ r ∈ rs, r = .ok none
  noPanic : ∀ e, .error e ∉ rs

def EndedWith (cs : List (Call w Addr)) (rs : List (Except Panic (Option (Nat × Addr)))) : Prop :=
  ∃ os : List (Option (Nat × Addr)), cs = os.map .returned ∧ rs = os.map .ok

theorem calls_nextFound (m : Overflow) (k : Nat) (b : Balancer w Addr) :
    calls (Balancer.nextFound m) k b = (List.range k).map (fun c =>
      choose m b.upstreams b.health (b.counter + BitVec.ofNat w c)) := by
  have hiterate (c : Nat) : (fun b : Balancer w Addr => (b.nextFound m).2)^[c] b =
      { b with counter := b.counter + BitVec.ofNat w c } := Balancer.nextHealthy_iterate m b c
  rw [calls_eq]
  simp only [hiterate]
  rfl

theorem calls_firstFrom (hlen : b.health.length = b.upstreams.length)
    (hw : b.counter.toNat + 2 * b.upstreams.length < 2 ^ w) :
    calls (Balancer.nextFound m) b.upstreams.length b =
      (List.range b.upstreams.length).map (fun c =>
        .ok (found b.upstreams
          (firstFrom (up b.health) b.upstreams.length (b.counter.toNat + c)))) := by
  rw [calls_nextFound]
  apply List.map_congr_left
  intro c hc
  rw [List.mem_range] at hc
  have hticket := toNat_add_ticket (t := b.counter) (c := c) (by omega)
  rw [choose_eq hlen (by omega), hticket]

theorem returns_found (hlt : ∀ i, o = some i → i < upstreams.length) (j : Nat) :
    returns j (.ok (found upstreams o) : Except Panic (Option (Nat × Addr))) = true ↔
      o = some j := by
  cases o with
  | none => exact iff_of_false Bool.false_ne_true nofun
  | some i =>
    rw [found_eq_some (hlt i rfl), returns, beq_iff_eq, Option.some.injEq]

theorem load_firstFrom (p : Nat → Bool) (upstreams : List Addr) (t : Nat) :
    Load p upstreams ((List.range upstreams.length).map (fun c =>
      .ok (found upstreams (firstFrom p upstreams.length (t + c))))) := by
  have hlt (c : Nat) : ∀ i, firstFrom p upstreams.length (t + c) = some i →
      i < upstreams.length := fun i hi => (firstFrom_lt hi).1
  refine ⟨fun j hj hp => ?_, fun j addr hr => ?_, fun hdown r hr => ?_, fun e hr => ?_⟩
  · rw [List.countP_map, Nat.add_comm, ← count_firstFrom_window hj hp t, Nat.count]
    apply List.countP_congr
    intro c _
    rw [Function.comp_apply, returns_found (hlt c), decide_eq_true_eq]
  · obtain ⟨c, _, hc⟩ := List.mem_map.1 hr
    cases hfirst : firstFrom p upstreams.length (t + c) with
    | none =>
      rw [hfirst] at hc
      cases hc
    | some i =>
      obtain ⟨hi, hp⟩ := firstFrom_lt hfirst
      rw [hfirst, found_eq_some hi] at hc
      cases hc
      exact ⟨hp, List.getElem?_eq_getElem hi⟩
  · obtain ⟨c, _, rfl⟩ := List.mem_map.1 hr
    rw [firstFrom_eq_none.2 hdown]
    rfl
  · obtain ⟨c, _, hc⟩ := List.mem_map.1 hr
    cases hc

theorem nextHealthy_next (m : Overflow) (b : Balancer w Addr) (hn : b.upstreams ≠ [])
    (hlen : b.health.length = b.upstreams.length)
    (hup : ∀ j < b.upstreams.length, up b.health j = true) :
    (b.nextHealthy m).1 =
      (B.Balancer.next (⟨b.upstreams, b.counter⟩ : B.Balancer w Addr)).1.map some := by
  have hlt := Nat.mod_lt b.counter.toNat (List.length_pos_iff.2 hn)
  obtain ⟨addr, haddr, hchoose⟩ := choose_first (m := m) hlen hn (hup _ hlt)
  obtain ⟨addr', haddr', hnext⟩ := B.choose_eq hn b.counter
  rw [haddr, Option.some.injEq] at haddr'
  rw [Balancer.nextHealthy, B.Balancer.next, hchoose, hnext, haddr']
  rfl

theorem calls_next (m : Overflow) (b : Balancer w Addr) (hn : b.upstreams ≠ [])
    (hlen : b.health.length = b.upstreams.length)
    (hup : ∀ j < b.upstreams.length, up b.health j = true) (k : Nat) :
    calls (Balancer.nextHealthy m) k b =
      (calls B.Balancer.next k (⟨b.upstreams, b.counter⟩ : B.Balancer w Addr)).map
        (Except.map some) := by
  rw [calls_eq, calls_eq, List.map_map]
  apply List.map_congr_left
  intro c _
  rw [Balancer.nextHealthy_iterate, Function.comp_apply, B.Balancer.next_iterate]
  exact nextHealthy_next m { b with counter := b.counter + BitVec.ofNat w c } hn hlen hup

theorem run_calls (hlen : b.health.length = b.upstreams.length)
    (hw : b.counter.toNat + 2 * b.upstreams.length < 2 ^ w)
    (hr : run (frozen w m b.upstreams).step (fresh b.counter b.health) ls = some s)
    (hn : s.calls.length = b.upstreams.length)
    (hd : AllReturned m b.upstreams b.health s.calls) :
    EndedWith s.calls (calls (Balancer.nextFound m) b.upstreams.length b) := by
  refine ⟨(List.range b.upstreams.length).map (fun c =>
    found b.upstreams (firstFrom (up b.health) b.upstreams.length (b.counter.toNat + c))), ?_, ?_⟩
  · apply List.ext_getElem?
    intro c
    rcases Nat.lt_or_ge c b.upstreams.length with hc | hc
    · have hx := List.getElem?_eq_getElem (hn.symm ▸ hc : c < s.calls.length)
      have hticket := toNat_add_ticket (t := b.counter) (c := c) (by omega)
      have hagrees := ((frozen_keeps m b.upstreams b.health b.counter).run rfl hr).calls c _ hx
      have hreturned := hagrees.returned (hd _ (List.getElem_mem _)) hlen (by omega)
      rw [hx, hreturned, hticket]
      simp [hc]
    · rw [List.getElem?_eq_none (by omega), List.getElem?_eq_none (by simpa using hc)]
  · rw [calls_firstFrom hlen hw, List.map_map]
    rfl

/-- A round of calls from any counter in range loads each healthy upstream with its own turn and
those of its unhealthy predecessors, in any interleaving; with all up it is option B's. -/
theorem nextHealthy_load (m : Overflow) (b : Balancer w Addr) (hn : b.upstreams ≠ [])
    (hlen : b.health.length = b.upstreams.length)
    (hw : b.counter.toNat + 2 * b.upstreams.length < 2 ^ w) :
    calls (Balancer.nextHealthy m) b.upstreams.length b =
        (calls (Balancer.nextFound m) b.upstreams.length b).map
          (Except.map (Option.map Prod.snd)) ∧
      Load (up b.health) b.upstreams (calls (Balancer.nextFound m) b.upstreams.length b) ∧
      ((∀ j < b.upstreams.length, up b.health j = true) →
        calls (Balancer.nextHealthy m) b.upstreams.length b =
          (calls B.Balancer.next b.upstreams.length
            (⟨b.upstreams, b.counter⟩ : B.Balancer w Addr)).map (Except.map some)) ∧
      ∀ (ls : List (Label Empty)) (s : State w (List Bool) (Call w Addr)),
        run (frozen w m b.upstreams).step (fresh b.counter b.health) ls = some s →
        s.calls.length = b.upstreams.length → AllReturned m b.upstreams b.health s.calls →
        EndedWith s.calls (calls (Balancer.nextFound m) b.upstreams.length b) := by
  refine ⟨?_, ?_, fun hup => calls_next m b hn hlen hup _, fun ls s hr hs hd => ?_⟩
  · have hiterate (c : Nat) : (fun b : Balancer w Addr => (b.nextFound m).2)^[c] b =
        (fun b : Balancer w Addr => (b.nextHealthy m).2)^[c] b := rfl
    simp only [calls_eq, hiterate, List.map_map]
    rfl
  · rw [calls_firstFrom hlen hw]
    exact load_firstFrom _ _ _
  · exact run_calls hlen hw hr hs hd

theorem nextHealthy_load_three :
    Load (up [true, false, true]) [10, 20, 30] (calls (Balancer.nextFound .checked) 3
      (⟨[10, 20, 30], [true, false, true], 7⟩ : Balancer 64 Nat)) :=
  (nextHealthy_load .checked (⟨[10, 20, 30], [true, false, true], 7⟩ : Balancer 64 Nat)
    (by decide) rfl (by decide)).2.1

end ReverseProxy.C
