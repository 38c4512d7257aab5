import Mathlib.Data.Nat.Count
import Mathlib.Data.Nat.ModEq

namespace Cyclic
set_option autoImplicit true

/-- The first position at which `p` holds on a cycle of `n`, going round from `s`. -/
def firstFrom (p : Nat → Bool) (n s : Nat) : Option Nat :=
  ((List.range n).find? (fun i => p ((s + i) % n))).map (fun i => (s + i) % n)

/-- How many positions just before `j` in a row fail `p`. -/
def gapBefore (p : Nat → Bool) (n j : Nat) : Nat :=
  (List.range (n - 1)).findIdx (fun d => p ((j + n - 1 - d) % n))

theorem firstFrom_eq_some {p : Nat → Bool} : firstFrom p n s = some j ↔
    ∃ i < n, (s + i) % n = j ∧ p j = true ∧ ∀ k < i, p ((s + k) % n) = false := by
  simp only [firstFrom, Option.map_eq_some_iff, List.find?_range_eq_some, Bool.not_eq_true',
    List.mem_range]
  constructor
  · rintro ⟨i, ⟨hp, hi, hk⟩, rfl⟩
    exact ⟨i, hi, rfl, hp, hk⟩
  · rintro ⟨i, hi, rfl, hp, hk⟩
    exact ⟨i, ⟨hp, hi, hk⟩, rfl⟩

theorem firstFrom_lt {p : Nat → Bool} (h : firstFrom p n s = some j) : j < n ∧ p j = true := by
  obtain ⟨i, hi, rfl, hp, _⟩ := firstFrom_eq_some.1 h
  exact ⟨Nat.mod_lt _ (by omega), hp⟩

theorem firstFrom_of_prefix {p : Nat → Bool} (hk : k < n) (hp : p ((s + k) % n) = true) :
    firstFrom p n s = ((List.range (k + 1)).find? (fun i => p ((s + i) % n))).map
      (fun i => (s + i) % n) := by
  obtain ⟨r, rfl⟩ := Nat.exists_eq_add_of_le (Nat.succ_le_of_lt hk)
  rw [firstFrom, List.range_add, List.find?_append]
  cases hf : (List.range k.succ).find? (fun i => p ((s + i) % (k.succ + r))) with
  | some i => rfl
  | none =>
    have := List.find?_eq_none.1 hf k (List.mem_range.2 (Nat.lt_succ_self k))
    exact (this hp).elim

theorem firstFrom_add (p : Nat → Bool) (n s : Nat) : firstFrom p n (s + n) = firstFrom p n s := by
  have h (i : Nat) : (s + n + i) % n = (s + i) % n := by
    rw [Nat.add_right_comm, Nat.add_mod_right]
  simp only [firstFrom, h]

theorem gapBefore_le (p : Nat → Bool) (n j : Nat) : gapBefore p n j ≤ n - 1 := by
  have h : gapBefore p n j ≤ (List.range (n - 1)).length := List.findIdx_le_length
  rwa [List.length_range] at h

theorem le_gapBefore {p : Nat → Bool} (hd : d ≤ n - 1) :
    d ≤ gapBefore p n j ↔ ∀ e < d, p ((j + n - 1 - e) % n) = false := by
  constructor
  · intro h e he
    have := List.not_of_lt_findIdx (Nat.lt_of_lt_of_le he h)
    simpa using this
  · intro h
    by_contra hlt
    rw [Nat.not_le] at hlt
    have hw : gapBefore p n j < (List.range (n - 1)).length := by
      rw [List.length_range]
      exact Nat.lt_of_lt_of_le hlt hd
    have hp : p ((j + n - 1 - (List.range (n - 1))[gapBefore p n j]) % n) = true :=
      List.findIdx_getElem (w := hw)
    rw [List.getElem_range, h _ hlt] at hp
    cases hp

theorem back_mod {j n d : Nat} (hj : j < n) (hd : d < n) : ((j + n - d) % n + d) % n = j := by
  rw [Nat.mod_add_mod, Nat.sub_add_cancel (by omega), Nat.add_mod_right, Nat.mod_eq_of_lt hj]

theorem exists_offset (hj : j < n) (s : Nat) : ∃ k < n, (s + k) % n = j := by
  have hs : s % n < n := Nat.mod_lt _ (by omega)
  refine ⟨(j + n - s % n) % n, Nat.mod_lt _ (by omega), ?_⟩
  rw [Nat.add_comm, ← Nat.add_mod_mod, back_mod hj hs]

theorem firstFrom_eq_none {p : Nat → Bool} :
    firstFrom p n s = none ↔ ∀ j < n, p j = false := by
  simp only [firstFrom, Option.map_eq_none_iff, List.find?_eq_none, List.mem_range,
    Bool.not_eq_true]
  constructor
  · intro h j hj
    obtain ⟨k, hk, rfl⟩ := exists_offset hj s
    exact h k hk
  · intro h k hk
    exact h _ (Nat.mod_lt _ (Nat.lt_of_le_of_lt (Nat.zero_le k) hk))

theorem back_back {j n d : Nat} (hj : j < n) (hd : d < n) : (j + n - (j + n - d) % n) % n = d := by
  by_cases h : d ≤ j
  · have : (j + n - d) % n = j - d := by
      rw [Nat.sub_add_comm h, Nat.add_mod_right, Nat.mod_eq_of_lt (by omega)]
    rw [this, show j + n - (j - d) = d + n by omega, Nat.add_mod_right, Nat.mod_eq_of_lt hd]
  · rw [Nat.mod_eq_of_lt (a := j + n - d) (by omega), show j + n - (j + n - d) = d by omega,
      Nat.mod_eq_of_lt hd]

theorem eq_of_add_mod_eq {i k n s : Nat} (hi : i < n) (hk : k < n)
    (h : (s + i) % n = (s + k) % n) : i = k := by
  have := Nat.ModEq.add_left_cancel' s h
  rwa [Nat.ModEq, Nat.mod_eq_of_lt hi, Nat.mod_eq_of_lt hk] at this

/-- The starts that lead to `j` are `j` itself and the failing positions just before it. -/
theorem firstFrom_back {p : Nat → Bool} (hj : j < n) (hp : p j = true) (hd : d < n) :
    firstFrom p n ((j + n - d) % n) = some j ↔ d ≤ gapBefore p n j := by
  rw [firstFrom_eq_some, le_gapBefore (by omega)]
  have hback (k : Nat) : ((j + n - d) % n + k) % n = (j + n - d + k) % n := Nat.mod_add_mod _ _ _
  constructor
  · rintro ⟨i, hi, he, _, hk⟩ e hed
    have hid : i = d := eq_of_add_mod_eq hi hd (he.trans (back_mod hj hd).symm)
    have := hk (d - 1 - e) (by omega)
    rwa [hback, show j + n - d + (d - 1 - e) = j + n - 1 - e by omega] at this
  · intro h
    refine ⟨d, hd, back_mod hj hd, hp, fun k hk => ?_⟩
    have := h (d - 1 - k) (by omega)
    rwa [hback, show j + n - d + k = j + n - 1 - (d - 1 - k) by omega]

theorem count_periodic {P : Nat → Prop} [DecidablePred P] (hP : ∀ s, P (s + n) ↔ P s) (q r : Nat) :
    Nat.count P (q * n + r) = q * Nat.count P n + Nat.count P r := by
  have hshift (a q : Nat) : P (q * n + a) ↔ P a := by
    induction q with
    | zero => simp
    | succ q ih => rw [Nat.succ_mul, Nat.add_right_comm, hP, ih]
  induction q with
  | zero => simp
  | succ q ih =>
    have hcongr : Nat.count (fun a => P (n + a)) (q * n + r) = Nat.count P (q * n + r) := by
      simp only [Nat.add_comm n, hP]
    rw [Nat.succ_mul, Nat.add_comm (q * n) n, Nat.add_assoc, Nat.count_add, hcongr, ih,
      Nat.succ_mul]
    omega

theorem count_firstFrom {p : Nat → Bool} (hj : j < n) (hp : p j = true) :
    Nat.count (fun s => firstFrom p n s = some j) n = gapBefore p n j + 1 := by
  have hle := gapBefore_le p n j
  rw [Nat.count_eq_card_filter_range, ← Finset.card_range (gapBefore p n j + 1)]
  refine Finset.card_nbij' (fun s => (j + n - s) % n) (fun d => (j + n - d) % n) ?_ ?_ ?_ ?_
  · intro s hs
    simp only [Finset.coe_filter, Finset.mem_range, Set.mem_ofPred_eq] at hs
    simp only [Finset.coe_range, Set.mem_Iio]
    have := (firstFrom_back hj hp (Nat.mod_lt (j + n - s) (by omega))).1
      (by rw [back_back hj hs.1]; exact hs.2)
    omega
  · intro d hd
    simp only [Finset.coe_range, Set.mem_Iio] at hd
    simp only [Finset.coe_filter, Finset.mem_range, Set.mem_ofPred_eq]
    exact ⟨Nat.mod_lt _ (by omega), (firstFrom_back hj hp (by omega)).2 (by omega)⟩
  · intro s hs
    simp only [Finset.coe_filter, Finset.mem_range, Set.mem_ofPred_eq] at hs
    exact back_back hj hs.1
  · intro d hd
    simp only [Finset.coe_range, Set.mem_Iio] at hd
    exact back_back hj (by omega)

theorem firstFrom_true (hn : 0 < n) (s : Nat) : firstFrom (fun _ => true) n s = some (s % n) :=
  firstFrom_eq_some.2 ⟨0, hn, rfl, rfl, fun k hk => absurd hk (Nat.not_lt_zero k)⟩

theorem gapBefore_eq_zero {p : Nat → Bool} (h : ∀ j < n, p j = true) (j : Nat) :
    gapBefore p n j = 0 := by
  by_contra hne
  have hle := gapBefore_le p n j
  have := (le_gapBefore (d := 1) (by omega)).1 (Nat.one_le_iff_ne_zero.2 hne) 0 Nat.zero_lt_one
  rw [h _ (Nat.mod_lt _ (by omega))] at this
  cases this

theorem count_mod_eq (hj : j < n) : Nat.count (fun s => s % n = j) n = 1 := by
  have h := count_firstFrom (p := fun _ => true) hj rfl
  simp only [firstFrom_true (Nat.lt_of_le_of_lt (Nat.zero_le j) hj), Option.some.injEq,
    gapBefore_eq_zero (fun _ _ => rfl)] at h
  exact h

theorem count_mod_eq_range (hj : j < n) (k : Nat) :
    Nat.count (fun s => s % n = j) k =
      k / n + Nat.count (fun s => s % n = j) (k % n) := by
  have h := count_periodic (P := fun s => s % n = j) (fun s => by rw [Nat.add_mod_right])
    (k / n) (k % n)
  rwa [Nat.div_add_mod', count_mod_eq hj, Nat.mul_one] at h

theorem count_mod_eq_le (hi : i < n) (hj : j < n) (k : Nat) :
    Nat.count (fun s => s % n = i) k ≤ Nat.count (fun s => s % n = j) k + 1 := by
  have hle : Nat.count (fun s => s % n = i) (k % n) ≤ 1 := by
    rw [← count_mod_eq hi]
    exact Nat.count_monotone _ (Nat.mod_lt _ (by omega)).le
  rw [count_mod_eq_range hi, count_mod_eq_range hj]
  omega

theorem count_shift {P : Nat → Prop} [DecidablePred P] (hP : ∀ s, P (s + n) ↔ P s) (a : Nat) :
    Nat.count (fun s => P (a + s)) n = Nat.count P n := by
  have h := Nat.count_add P a n
  have hp := count_periodic hP 1 a
  rw [Nat.one_mul, Nat.one_mul, Nat.add_comm n a] at hp
  omega

theorem count_window (hj : j < n) (a : Nat) :
    Nat.count (fun s => (a + s) % n = j) n = 1 := by
  rw [count_shift (P := fun s => s % n = j) (fun s => by rw [Nat.add_mod_right]), count_mod_eq hj]

theorem count_firstFrom_window {p : Nat → Bool} (hj : j < n) (hp : p j = true) (a : Nat) :
    Nat.count (fun s => firstFrom p n (a + s) = some j) n = gapBefore p n j + 1 := by
  rw [count_shift (P := fun s => firstFrom p n s = some j) (fun s => by rw [firstFrom_add]),
    count_firstFrom hj hp]

theorem count_map_range [DecidableEq β] [BEq β] [LawfulBEq β] (f : Nat → β) (b : β) (k : Nat) :
    ((List.range k).map f).count b = Nat.count (fun s => f s = b) k := by
  rw [List.count, List.countP_map, Nat.count]
  exact List.countP_congr (fun s _ => by simp)

theorem window_map_range (f : Nat → β) (h : a + n ≤ k) :
    (((List.range k).map f).drop a).take n = (List.range n).map (fun s => f (a + s)) := by
  obtain ⟨r, rfl⟩ := Nat.exists_eq_add_of_le h
  rw [List.range_add, List.range_add, List.append_assoc, List.map_append,
    List.drop_left' (by simp), List.map_append, List.take_left' (by simp), List.map_map]
  rfl

end Cyclic
