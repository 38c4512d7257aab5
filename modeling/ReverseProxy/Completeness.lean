import ReverseProxy.Balancer

namespace ReverseProxy.C
open Cyclic Usize
set_option autoImplicit true

variable {w : Nat} {Addr : Type} {m : Overflow} {upstreams : List Addr} {health : List Bool}
  {start : BitVec w} {b : Balancer w Addr}

/-- The scan from `start` computes `start + i`: it has found nothing at the offsets before. -/
def Reaches (m : Overflow) (upstreams : List Addr) (health : List Bool) (start : BitVec w)
    (i : Nat) : Prop :=
  i < upstreams.length ∧ scan m upstreams health start (List.range i) = .ok none

/-- The answer is an upstream that is up, if there is one, and nothing exactly when all are down. -/
structure FindsHealthy (m : Overflow) (b : Balancer w Addr) : Prop where
  some : (∃ j : Nat, b.health[j]? = some true) → ∃ (j : Nat) (addr : Addr),
    b.health[j]? = some true ∧ b.upstreams[j]? = some addr ∧
      (b.nextHealthy m).1 = .ok (some addr)
  none : (b.nextHealthy m).1 = .ok none ↔ ∀ flag ∈ b.health, flag = false

/-- What `next_healthy` owes its caller at any value of the counter. -/
structure Complete (m : Overflow) (b : Balancer w Addr) : Prop extends FindsHealthy m b where
  noOverflow : ∀ i, Reaches m b.upstreams b.health b.counter i → b.counter.toNat + i < 2 ^ w

/-- No offset leaves the word, or an upstream that the scan meets before one does is up. -/
def EndsInWord (upstreams : List Addr) (health : List Bool) (start : BitVec w) : Prop :=
  start.toNat + upstreams.length ≤ 2 ^ w ∨
    ∃ k < upstreams.length, start.toNat + k < 2 ^ w ∧
      up health ((start.toNat + k) % upstreams.length) = true

theorem scan_append_some {is : List Nat} (h : scan m upstreams health start is = .ok (some r))
    (js : List Nat) : scan m upstreams health start (is ++ js) = .ok (some r) := by
  induction is with
  | nil => cases h
  | cons i is ih =>
    rw [scan] at h
    rw [List.cons_append, scan]
    split at h
    · cases h
    · exact ih h
    · exact h

theorem scan_range (hlen : health.length = upstreams.length) (hk : k ≤ upstreams.length)
    (hw : start.toNat + k ≤ 2 ^ w) :
    scan m upstreams health start (List.range k) =
      .ok (found upstreams (((List.range k).find? (fun i =>
        up health ((start.toNat + i) % upstreams.length))).map
          (fun i => (start.toNat + i) % upstreams.length))) := by
  apply scan_eq hlen (fun i => start.toNat + i)
  intro i hi
  rw [List.mem_range] at hi
  exact ⟨by omega, Usize.add_of_lt m (by omega)⟩

theorem found_eq_some (hj : j < upstreams.length) :
    found upstreams (some j) = some (j, upstreams[j]) := by
  rw [found, Option.bind_some, List.getElem?_eq_getElem hj]
  rfl

theorem scan_found (hlen : health.length = upstreams.length) (hk : k < upstreams.length)
    (hw : start.toNat + k < 2 ^ w)
    (hup : up health ((start.toNat + k) % upstreams.length) = true) :
    ∃ r, found upstreams (firstFrom (up health) upstreams.length start.toNat) = some r ∧
      ∀ i, k < i → scan m upstreams health start (List.range i) = .ok (some r) := by
  cases hfirst : firstFrom (up health) upstreams.length start.toNat with
  | none =>
    have hlt := Nat.mod_lt (start.toNat + k) (Nat.lt_of_le_of_lt (Nat.zero_le k) hk)
    have hdown := firstFrom_eq_none.1 hfirst _ hlt
    rw [hup] at hdown
    cases hdown
  | some j =>
    have hj : j < upstreams.length := (firstFrom_lt hfirst).1
    have hfound := found_eq_some hj
    refine ⟨_, hfound, fun i hi => ?_⟩
    obtain ⟨d, rfl⟩ := Nat.exists_eq_add_of_le (Nat.succ_le_of_lt hi)
    rw [List.range_add]
    apply scan_append_some
    rw [scan_range hlen (Nat.succ_le_of_lt hk) (Nat.succ_le_of_lt hw), ← firstFrom_of_prefix hk hup,
      hfirst, hfound]

theorem choose_endsInWord (hlen : health.length = upstreams.length)
    (h : EndsInWord upstreams health start) :
    choose m upstreams health start =
      .ok (found upstreams (firstFrom (up health) upstreams.length start.toNat)) := by
  rcases h with hw | ⟨k, hk, hw, hup⟩
  · exact choose_eq hlen hw
  · obtain ⟨r, hr, hscan⟩ := scan_found (m := m) hlen hk hw hup
    rw [hr]
    exact hscan _ hk

theorem up_iff (health : List Bool) (j : Nat) : up health j = true ↔ health[j]? = some true := by
  rw [up, List.getD_eq_getElem?_getD]
  cases health[j]? <;> simp

theorem all_down_iff (hlen : health.length = upstreams.length) :
    (∀ j < upstreams.length, up health j = false) ↔ ∀ flag ∈ health, flag = false := by
  constructor
  · intro h flag hflag
    obtain ⟨j, hj⟩ := List.mem_iff_getElem?.1 hflag
    have hlt : j < health.length := (List.getElem?_eq_some_iff.1 hj).1
    have := h j (by omega)
    rwa [up, List.getD_eq_getElem?_getD, hj] at this
  · intro h j _
    rw [Bool.eq_false_iff, Ne, up_iff]
    intro hj
    cases h true (List.mem_of_getElem? hj)

theorem findsHealthy_of_choose (hlen : b.health.length = b.upstreams.length)
    (h : choose m b.upstreams b.health b.counter = .ok
      (found b.upstreams (firstFrom (up b.health) b.upstreams.length b.counter.toNat))) :
    FindsHealthy m b := by
  cases hfirst : firstFrom (up b.health) b.upstreams.length b.counter.toNat with
  | none =>
    have hdown := (all_down_iff hlen).1 (firstFrom_eq_none.1 hfirst)
    have hnext : (b.nextHealthy m).1 = .ok none := by
      rw [Balancer.nextHealthy, h, hfirst]
      rfl
    refine ⟨fun ⟨j, hj⟩ => ?_, iff_of_true hnext hdown⟩
    cases hdown true (List.mem_of_getElem? hj)
  | some j =>
    obtain ⟨hj, hup⟩ := firstFrom_lt hfirst
    have hnext : (b.nextHealthy m).1 = .ok (some b.upstreams[j]) := by
      rw [Balancer.nextHealthy, h, hfirst, found_eq_some hj]
      rfl
    refine ⟨fun _ => ⟨j, _, (up_iff _ _).1 hup, List.getElem?_eq_getElem hj, hnext⟩, ?_⟩
    rw [hnext]
    apply iff_of_false nofun
    intro hdown
    rw [(all_down_iff hlen).2 hdown j hj] at hup
    cases hup

theorem reaches_lt (hlen : health.length = upstreams.length)
    (h : EndsInWord upstreams health start) (hi : Reaches m upstreams health start i) :
    start.toNat + i < 2 ^ w := by
  obtain ⟨hlt, hscan⟩ := hi
  rcases h with hw | ⟨k, hk, hw, hup⟩
  · omega
  · rcases Nat.lt_or_ge k i with hki | hik
    · obtain ⟨r, _, hfound⟩ := scan_found (m := m) hlen hk hw hup
      rw [hfound i hki] at hscan
      cases hscan
    · omega

theorem reaches_overflow (hlen : health.length = upstreams.length)
    (h : ¬ EndsInWord upstreams health start) :
    Reaches m upstreams health start (2 ^ w - start.toNat) := by
  rw [EndsInWord, not_or, Nat.not_le] at h
  obtain ⟨hover, hnone⟩ := h
  have hlt := start.isLt
  have hdown : (List.range (2 ^ w - start.toNat)).find? (fun i =>
      up health ((start.toNat + i) % upstreams.length)) = none := by
    apply List.find?_eq_none.2
    intro i hi hup
    rw [List.mem_range] at hi
    exact hnone ⟨i, by omega, by omega, hup⟩
  refine ⟨by omega, ?_⟩
  rw [scan_range hlen (by omega) (by omega), hdown]
  rfl

/-- `next_healthy` is complete exactly when its scan ends before an offset leaves the word. -/
theorem nextHealthy_complete (m : Overflow) (b : Balancer w Addr)
    (hlen : b.health.length = b.upstreams.length) :
    Complete m b ↔ EndsInWord b.upstreams b.health b.counter := by
  constructor
  · intro h
    by_contra hends
    have hlt := h.noOverflow _ (reaches_overflow hlen hends)
    omega
  · intro h
    exact ⟨findsHealthy_of_choose hlen (choose_endsInWord hlen h), fun _ hi => reaches_lt hlen h hi⟩

theorem nextHealthy_complete_last :
    Complete .checked (⟨[10, 20], [true, false], BitVec.allOnes 64 - 1⟩ : Balancer 64 Nat) := by
  apply (nextHealthy_complete .checked _ rfl).2
  exact .inl (by decide)

theorem nextHealthy_counter (m : Overflow) (b : Balancer w Addr) :
    (fun b : Balancer w Addr => (b.nextHealthy m).2)^[b.counter.toNat]
      (Balancer.new b.upstreams b.health) = b := by
  rw [Balancer.nextHealthy_iterate, BitVec.ofNat_toNat, BitVec.setWidth_eq]
  exact congrArg (Balancer.mk b.upstreams b.health) (BitVec.zero_add b.counter)

/-- With the last ticket of the word, the second addition overflows; in a release build the third of
three upstreams is never looked at. -/
theorem nextHealthy_incomplete :
    let b : Balancer 64 Nat := ⟨[10, 20, 30], [false, false, true], BitVec.allOnes 64⟩
    (∃ k, (fun b : Balancer 64 Nat => (b.nextHealthy .checked).2)^[k]
        (Balancer.new b.upstreams b.health) = b) ∧
      (b.nextHealthy .checked).1 = .error .overflow ∧ (b.nextHealthy .wrapping).1 = .ok none ∧
      ¬ Complete .checked b ∧ ¬ Complete .wrapping b := by
  intro b
  have hchecked : (b.nextHealthy .checked).1 = .error .overflow := by decide
  have hwrapping : (b.nextHealthy .wrapping).1 = .ok none := by decide
  refine ⟨⟨_, nextHealthy_counter .checked b⟩, hchecked, hwrapping, fun h => ?_, fun h => ?_⟩
  · obtain ⟨_, _, _, _, hsome⟩ := h.some ⟨2, rfl⟩
    rw [hchecked] at hsome
    cases hsome
  · have hdown := h.none.1 hwrapping true (by decide)
    cases hdown

end ReverseProxy.C
