import Mathlib.Data.Nat.ModEq
import Mathlib.Logic.Function.Iterate
import ReverseProxy.Runs

namespace Tickets
open Runs
set_option autoImplicit true

/-- Calls on a shared object: a call draws a ticket from a counter and then acts on what it reads
of the memory, which only the environment changes. -/
structure Object (w : Nat) (M X E : Type) where
  enter : BitVec w → X
  act : M → X → Option X
  env : M → E → Option M

/-- The calls stand in the order of their tickets. -/
structure State (w : Nat) (M X : Type) where
  counter : BitVec w
  memory : M
  calls : List X
deriving DecidableEq, Repr

inductive Label (E : Type)
  | fetch
  | act (c : Nat)
  | env (e : E)
deriving DecidableEq, Repr

variable {w : Nat} {M X E : Type}

/-- Any call may take the next step, so a client that waits for its calls is among the orders. -/
def Object.step (o : Object w M X E) (s : State w M X) : Label E → Option (State w M X)
  | .fetch =>
    some { s with counter := s.counter + 1, calls := s.calls ++ [o.enter s.counter] }
  | .act c =>
    match s.calls[c]? with
    | none => none
    | some x =>
      match o.act s.memory x with
      | none => none
      | some x' => some { s with calls := s.calls.set c x' }
  | .env e =>
    match o.env s.memory e with
    | none => none
    | some m => some { s with memory := m }

def fresh (t : BitVec w) (m : M) : State w M X := ⟨t, m, []⟩

def Object.only (o : Object w M X E) (p : E → Bool) : Object w M X E :=
  { o with env := fun m e => if p e then o.env m e else none }

theorem toNat_add_ticket {t : BitVec w} (h : t.toNat + c < 2 ^ w) :
    (t + BitVec.ofNat w c).toNat = t.toNat + c := by
  rw [BitVec.toNat_add, BitVec.toNat_ofNat, Nat.add_mod_mod, Nat.mod_eq_of_lt h]

theorem toNat_ticket (h : c < 2 ^ w) : ((0 : BitVec w) + BitVec.ofNat w c).toNat = c := by
  have hz : (0 : BitVec w).toNat = 0 := BitVec.toNat_zero
  rw [toNat_add_ticket (by rwa [hz, Nat.zero_add]), hz, Nat.zero_add]

theorem filterMap_calls {f : X → Option β} {g : Nat → β} {calls : List X}
    (h : ∀ c x, calls[c]? = some x → f x = some (g c)) :
    calls.filterMap f = (List.range calls.length).map g := by
  have hmap : calls.map f = ((List.range calls.length).map g).map some := by
    apply List.ext_getElem (by simp)
    intro c hc _
    rw [List.length_map] at hc
    simpa using h c _ (List.getElem?_eq_getElem hc)
  have := congrArg (List.filterMap id) hmap
  rwa [List.filterMap_map, List.filterMap_map, Function.id_comp, Function.id_comp,
    List.filterMap_some] at this

def Object.Effect (o : Object w M X E) (s s' : State w M X) : Label E → Prop
  | .fetch => s' = { s with counter := s.counter + 1, calls := s.calls ++ [o.enter s.counter] }
  | .act c => ∃ x x', s.calls[c]? = some x ∧ o.act s.memory x = some x' ∧
      s' = { s with calls := s.calls.set c x' }
  | .env e => ∃ m, o.env s.memory e = some m ∧ s' = { s with memory := m }

variable {o : Object w M X E} {s s' : State w M X} {t : BitVec w}

theorem step_effect (h : o.step s l = some s') : o.Effect s s' l := by
  cases l with
  | fetch =>
    cases h
    rfl
  | act c =>
    simp only [Object.step] at h
    split at h
    · cases h
    · next x hx =>
      split at h
      · cases h
      · next x' hx' =>
        cases h
        exact ⟨x, x', hx, hx', rfl⟩
  | env e =>
    simp only [Object.step] at h
    split at h
    · cases h
    · next m hm =>
      cases h
      exact ⟨m, hm, rfl⟩

theorem step_counter (hs : s.counter = t + BitVec.ofNat w s.calls.length)
    (h : o.step s l = some s') : s'.counter = t + BitVec.ofNat w s'.calls.length := by
  have he := step_effect h
  cases l with
  | fetch =>
    cases he
    simp only [List.length_append, List.length_singleton, BitVec.ofNat_add]
    rw [hs, BitVec.add_assoc]
    rfl
  | act c =>
    obtain ⟨x, x', _, _, rfl⟩ := he
    simp only [List.length_set]
    exact hs
  | env e =>
    obtain ⟨m, _, rfl⟩ := he
    exact hs

/-- `J c` holds of the call with the `c`-th ticket from `t` on, as long as `I` holds of the
memory. -/
structure Object.Keeps (o : Object w M X E) (t : BitVec w) (I : M → Prop) (J : Nat → M → X → Prop) :
    Prop where
  enter : ∀ c m, I m → J c m (o.enter (t + BitVec.ofNat w c))
  act : ∀ c m x x', I m → J c m x → o.act m x = some x' → J c m x'
  env : ∀ m e m', I m → o.env m e = some m' → I m'
  stable : ∀ c m e m' x, I m → J c m x → o.env m e = some m' → J c m' x

theorem run_counter (hs : s.counter = t + BitVec.ofNat w s.calls.length)
    (hr : run o.step s ls = some s') : s'.counter = t + BitVec.ofNat w s'.calls.length :=
  run_invariant (I := fun u => u.counter = t + BitVec.ofNat w u.calls.length)
    (fun _ _ _ hs h => step_counter hs h) hs hr

/-- The counter has handed out one ticket a call, and every call keeps to its ticket. -/
structure Inv (t : BitVec w) (I : M → Prop) (J : Nat → M → X → Prop) (s : State w M X) : Prop where
  counter : s.counter = t + BitVec.ofNat w s.calls.length
  memory : I s.memory
  calls : ∀ c x, s.calls[c]? = some x → J c s.memory x

variable {I : M → Prop} {J : Nat → M → X → Prop}

theorem Object.Keeps.step (hk : o.Keeps t I J) (hs : Inv t I J s) (h : o.step s l = some s') :
    Inv t I J s' := by
  have he := step_effect h
  cases l with
  | fetch =>
    cases he
    refine ⟨step_counter hs.counter h, hs.memory, fun c x hx => ?_⟩
    rcases Nat.lt_trichotomy c s.calls.length with hc | hc | hc
    · rw [List.getElem?_append_left hc] at hx
      exact hs.calls c x hx
    · rw [hc, List.getElem?_concat_length] at hx
      cases hx
      rw [hs.counter, hc]
      exact hk.enter _ _ hs.memory
    · rw [List.getElem?_eq_none (by simp; omega)] at hx
      cases hx
  | act c =>
    obtain ⟨x, x', hx, hx', rfl⟩ := he
    refine ⟨step_counter hs.counter h, hs.memory, fun d y hy => ?_⟩
    by_cases hcd : c = d
    · subst hcd
      have hlt : c < s.calls.length := (List.getElem?_eq_some_iff.1 hx).1
      simp only [List.getElem?_set_self hlt, Option.some.injEq] at hy
      subst hy
      exact hk.act c _ x _ hs.memory (hs.calls c x hx) hx'
    · simp only [List.getElem?_set_ne hcd] at hy
      exact hs.calls d y hy
  | env e =>
    obtain ⟨m, hm, rfl⟩ := he
    exact ⟨step_counter hs.counter h, hk.env _ e m hs.memory hm,
      fun c x hx => hk.stable c _ e m x hs.memory (hs.calls c x hx) hm⟩

theorem Object.Keeps.run_from (hk : o.Keeps t I J) (hs : Inv t I J s)
    (hr : run o.step s ls = some s') : Inv t I J s' :=
  run_invariant (fun _ _ _ hs h => hk.step hs h) hs hr

theorem Object.Keeps.run (hk : o.Keeps t I J) {m : M} (hm : I m)
    (hr : run o.step (fresh t m) ls = some s) : Inv t I J s :=
  hk.run_from ⟨by simp [fresh], hm, fun c x hx => by cases hx⟩ hr

theorem step_getElem? (h : o.step s l = some s') (hx : s.calls[c]? = some x) :
    s'.calls[c]? = some x ∨
      l = .act c ∧ s'.memory = s.memory ∧
        ∃ x', o.act s.memory x = some x' ∧ s'.calls[c]? = some x' := by
  have hlt : c < s.calls.length := (List.getElem?_eq_some_iff.1 hx).1
  have he := step_effect h
  cases l with
  | fetch =>
    cases he
    exact .inl ((List.getElem?_append_left hlt).trans hx)
  | act d =>
    obtain ⟨y, y', hy, hy', rfl⟩ := he
    by_cases hcd : d = c
    · subst hcd
      rw [hx] at hy
      cases hy
      exact .inr ⟨rfl, rfl, y', hy', List.getElem?_set_self hlt⟩
    · exact .inl ((List.getElem?_set_ne hcd).trans hx)
  | env e =>
    obtain ⟨m, hm, rfl⟩ := he
    exact .inl hx

theorem step_getElem?_new (h : o.step s l = some s') (hx : s'.calls[c]? = some x)
    (hne : s.calls[c]? ≠ some x) :
    (c = s.calls.length ∧ x = o.enter s.counter) ∨
      l = .act c ∧ ∃ y, s.calls[c]? = some y ∧ o.act s.memory y = some x := by
  have he := step_effect h
  cases l with
  | fetch =>
    cases he
    rcases Nat.lt_trichotomy c s.calls.length with hc | rfl | hc
    · rw [List.getElem?_append_left hc] at hx
      exact (hne hx).elim
    · rw [List.getElem?_concat_length] at hx
      exact .inl ⟨rfl, (Option.some.inj hx).symm⟩
    · rw [List.getElem?_eq_none (by simp; omega)] at hx
      cases hx
  | act d =>
    obtain ⟨y, y', hy, hy', rfl⟩ := he
    by_cases hcd : d = c
    · subst hcd
      have hlt : d < s.calls.length := (List.getElem?_eq_some_iff.1 hy).1
      simp only [List.getElem?_set_self hlt, Option.some.injEq] at hx
      subst hx
      exact .inr ⟨rfl, y, hy, hy'⟩
    · simp only [List.getElem?_set_ne hcd] at hx
      exact (hne hx).elim
  | env e =>
    obtain ⟨m, hm, rfl⟩ := he
    exact (hne hx).elim

theorem run_ended {c : Nat} (hd : ∀ m, o.act m x = none) (hx : s.calls[c]? = some x)
    (hr : run o.step s ls = some s') : s'.calls[c]? = some x := by
  refine run_invariant (I := fun u => u.calls[c]? = some x) (fun u l u' hu h => ?_) hx hr
  rcases step_getElem? h hu with hu' | ⟨_, _, x', hx', _⟩
  · exact hu'
  · rw [hd] at hx'
    cases hx'

/-- What holds of a call as it draws its ticket and is kept by its own steps in the states of the
run holds of it at the end. -/
theorem run_call {P : X → Prop} (hcount : s.counter = t + BitVec.ofNat w s.calls.length)
    (henter : P (o.enter (t + BitVec.ofNat w c)))
    (hact : ∀ u ∈ visited o.step s ls, ∀ x x', u.calls[c]? = some x → P x →
      o.act u.memory x = some x' → P x')
    (hs : ∀ x, s.calls[c]? = some x → P x) (hr : run o.step s ls = some s')
    (hx : s'.calls[c]? = some x) : P x := by
  induction ls generalizing s with
  | nil =>
    cases hr
    exact hs x hx
  | cons l ls ih =>
    obtain ⟨u, hl, hr⟩ := run_cons_eq_some.1 hr
    have hu : ∀ y, u.calls[c]? = some y → P y := by
      intro y hy
      by_cases hsy : s.calls[c]? = some y
      · exact hs y hsy
      · rcases step_getElem?_new hl hy hsy with ⟨rfl, rfl⟩ | ⟨_, z, hz, hzy⟩
        · rw [hcount]
          exact henter
        · exact hact s List.mem_cons_self z y hz (hs z hz) hzy
    refine ih (step_counter hcount hl) (fun v hv => hact v ?_) hu hr
    rw [visited, hl]
    exact List.mem_cons_of_mem _ hv

/-- What `k` calls return when each is made after the one before has returned. -/
def calls (f : S → β × S) : Nat → S → List β
  | 0, _ => []
  | k + 1, s => (f s).1 :: calls f k (f s).2

theorem calls_eq {f : S → β × S} (k : Nat) (s : S) :
    calls f k s = (List.range k).map (fun c => (f ((fun s => (f s).2)^[c] s)).1) := by
  induction k generalizing s with
  | zero => rfl
  | succ k ih =>
    rw [calls, ih, List.range_succ_eq_map, List.map_cons, List.map_map]
    rfl

theorem iterate_ticket {S : Type} {f : S → S} {g : BitVec w → S}
    (hf : ∀ t, f (g t) = g (t + 1)) (t : BitVec w) (c : Nat) :
    f^[c] (g t) = g (t + BitVec.ofNat w c) := by
  induction c with
  | zero => simp
  | succ c ih =>
    rw [Function.iterate_succ_apply', ih, hf, BitVec.ofNat_add, ← BitVec.add_assoc]
    rfl

end Tickets
