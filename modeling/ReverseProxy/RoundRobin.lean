import ReverseProxy.Balancer

namespace ReverseProxy.B
open Cyclic Runs Tickets
set_option autoImplicit true

variable {w : Nat} {Addr : Type} {upstreams : List Addr}

def Answers (upstreams : List Addr) (t : BitVec w) : Call w Addr → Prop
  | .drawn u => u = t
  | .returned idx addr => idx = t.toNat % upstreams.length ∧ upstreams[idx]? = some addr
  | .panicked _ => False

theorem answers_act (hn : upstreams ≠ []) {t : BitVec w} (h : Answers upstreams t x)
    (hx : Call.act upstreams x = some x') : Answers upstreams t x' := by
  cases x with
  | drawn u =>
    obtain rfl : u = t := h
    obtain ⟨addr, haddr, hc⟩ := choose_eq hn u
    simp only [Call.act, hc, Option.some.injEq] at hx
    rw [← hx]
    exact ⟨rfl, haddr⟩
  | returned idx addr => cases hx
  | panicked p => cases hx

theorem object_keeps (hn : upstreams ≠ []) (t : BitVec w) :
    (object w upstreams).Keeps t (fun _ => True)
      (fun c _ x => Answers upstreams (t + BitVec.ofNat w c) x) where
  enter _ _ _ := rfl
  act _ _ _ _ _ h hx := answers_act hn h hx
  env _ e := nomatch e
  stable _ _ e := nomatch e

def Call.idx : Call w Addr → Option Nat
  | .returned idx _ => some idx
  | .drawn _ | .panicked _ => none

def returnedIndices (calls : List (Call w Addr)) : List Nat := calls.filterMap Call.idx

def AllReturned (upstreams : List Addr) (calls : List (Call w Addr)) : Prop :=
  ∀ x ∈ calls, x.act upstreams = none

theorem Answers.idx (hx : Answers upstreams t x) (hd : x.act upstreams = none) :
    x.idx = some (t.toNat % upstreams.length) := by
  cases x with
  | drawn u =>
    simp only [Call.act] at hd
    split at hd <;> cases hd
  | returned idx addr =>
    rw [hx.1]
    rfl
  | panicked p => cases hx

theorem returnedIndices_eq (hn : upstreams ≠ [])
    (hr : run (object w upstreams).step (fresh 0 ()) ls = some s)
    (hd : AllReturned upstreams s.calls) (hk : s.calls.length ≤ 2 ^ w) :
    returnedIndices s.calls = (List.range s.calls.length).map (fun t => t % upstreams.length) := by
  have hs := (object_keeps hn 0).run trivial hr
  apply filterMap_calls
  intro c x hx
  have hc : c < s.calls.length := (List.getElem?_eq_some_iff.1 hx).1
  have := (hs.calls c x hx).idx (hd x (List.mem_of_getElem? hx))
  rwa [toNat_ticket (Nat.lt_of_lt_of_le hc hk)] at this

/-- `k` indices below `n`, in the order of the tickets, spread as evenly as they can be. -/
structure Balanced (n k : Nat) (is : List Nat) : Prop where
  count : ∀ i < n, is.count i = Nat.count (fun t => t % n = i) k
  differ : ∀ i < n, ∀ j < n, is.count i ≤ is.count j + 1
  multiset : (is : Multiset Nat) = Multiset.map (fun t => t % n) (Multiset.range k)
  window : ∀ a, a + n ≤ k → ∀ i < n, ((is.drop a).take n).count i = 1

theorem balanced_range (n k : Nat) : Balanced n k ((List.range k).map (fun t => t % n)) where
  count i _ := count_map_range _ i k
  differ i hi j hj := by
    rw [count_map_range, count_map_range]
    exact count_mod_eq_le hi hj k
  multiset := rfl
  window a ha i hi := by
    rw [window_map_range _ ha, count_map_range]
    exact count_window hi a

/-- Whatever the interleaving of the calls, `k` of them on a fresh balancer return each index as
often as it is a residue of a ticket below `k`, and any `n` with consecutive tickets return each
index once. -/
theorem next_balanced (upstreams : List Addr) (hn : upstreams ≠ []) (ls : List (Label Empty))
    (s : State w Unit (Call w Addr))
    (hr : run (object w upstreams).step (fresh 0 ()) ls = some s)
    (hd : AllReturned upstreams s.calls) (hk : s.calls.length ≤ 2 ^ w) :
    (∀ x ∈ s.calls, ∃ idx addr, x = .returned idx addr ∧ upstreams[idx]? = some addr) ∧
      Balanced upstreams.length s.calls.length (returnedIndices s.calls) := by
  constructor
  · intro x hx
    obtain ⟨c, hc⟩ := List.mem_iff_getElem?.1 hx
    have hJ := ((object_keeps hn 0).run trivial hr).calls c x hc
    have hidx := hJ.idx (hd x hx)
    cases x with
    | drawn u => cases hidx
    | returned idx addr => exact ⟨idx, addr, rfl, hJ.2⟩
    | panicked p => cases hidx
  · rw [returnedIndices_eq hn hr hd hk]
    exact balanced_range _ _

theorem next_balanced_two :
    ∃ s : State 64 Unit (Call 64 Nat),
      run (object 64 [10, 20]).step (fresh 0 ()) [.fetch, .fetch, .act 1, .fetch, .act 0, .act 2] =
        some s ∧
      Balanced 2 3 (returnedIndices s.calls) := by
  have hr : run (object 64 [10, 20]).step (fresh 0 ())
      [.fetch, .fetch, .act 1, .fetch, .act 0, .act 2] =
        some ⟨3, (), [.returned 0 10, .returned 1 20, .returned 0 10]⟩ := by decide
  exact ⟨_, hr, (next_balanced [10, 20] (by decide) _ _ hr (by unfold AllReturned; decide)
    (by decide)).2⟩

end ReverseProxy.B
