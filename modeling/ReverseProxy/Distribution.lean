import ReverseProxy.Balancer

namespace ReverseProxy.C
open Cyclic Runs Tickets Usize
set_option autoImplicit true

variable {w : Nat} {Addr : Type} {m : Overflow} {upstreams : List Addr} {health : List Bool}

def Call.result : Call w Addr → Option (Option Nat)
  | .returned r => some (r.map Prod.fst)
  | .scanning _ _ | .panicked _ => none

/-- The indices the calls returned, in the order of their tickets; `none` stands for a call that
found no healthy upstream. -/
def returnedIndices (calls : List (Call w Addr)) : List (Option Nat) := calls.filterMap Call.result

def AllReturned (m : Overflow) (upstreams : List Addr) (health : List Bool)
    (calls : List (Call w Addr)) : Prop :=
  ∀ x ∈ calls, x.act m upstreams health = none

theorem found_fst (h : ∀ j, o = some j → j < upstreams.length) :
    (found upstreams o).map Prod.fst = o := by
  cases o with
  | none => rfl
  | some j => simp [found, List.getElem?_eq_getElem (h j rfl)]

theorem Agrees.returned {start : BitVec w} (hx : Agrees m upstreams health start x)
    (hd : x.act m upstreams health = none) (hlen : health.length = upstreams.length)
    (hw : start.toNat + upstreams.length ≤ 2 ^ w) :
    x = .returned (found upstreams (firstFrom (up health) upstreams.length start.toNat)) := by
  have hc := choose_eq (m := m) hlen hw
  cases x with
  | scanning s i => exact (act_scanning_ne_none s i hd).elim
  | returned r =>
    obtain rfl := Except.ok.inj (hx.symm.trans hc)
    rfl
  | panicked e => cases hx.symm.trans hc

theorem Agrees.result {start : BitVec w} (hx : Agrees m upstreams health start x)
    (hd : x.act m upstreams health = none) (hlen : health.length = upstreams.length)
    (hw : start.toNat + upstreams.length ≤ 2 ^ w) :
    x.result = some (firstFrom (up health) upstreams.length start.toNat) := by
  rw [hx.returned hd hlen hw]
  exact congrArg some (found_fst (fun j hj => (firstFrom_lt hj).1))

theorem returnedIndices_eq
    (hr : run (frozen w m upstreams).step (fresh 0 health) ls = some s)
    (hd : AllReturned m upstreams health s.calls) (hlen : health.length = upstreams.length)
    (hk : s.calls.length + upstreams.length ≤ 2 ^ w) :
    returnedIndices s.calls =
      (List.range s.calls.length).map (firstFrom (up health) upstreams.length) := by
  have hs := (frozen_keeps m upstreams health 0).run rfl hr
  apply filterMap_calls
  intro c x hx
  have hc : c < s.calls.length := (List.getElem?_eq_some_iff.1 hx).1
  have hcw : ((0 : BitVec w) + BitVec.ofNat w c).toNat = c := by
    apply toNat_ticket
    omega
  have := (hs.calls c x hx).result (hd x (List.mem_of_getElem? hx)) hlen (by omega)
  rwa [hcw] at this

end ReverseProxy.C
