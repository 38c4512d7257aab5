import Mathlib.Data.Prod.Lex
import ReverseProxy.Clients

namespace Clients
open Runs Tickets
set_option autoImplicit true

/-- A measure of what a client has left to do until it is `finished`; one that `waits` before its
call may have no step to take. -/
structure Live (m : Machine D A K B X L) (o : Object w M X E) (finished : D → Place A K B → Prop)
    (P : D → A → Prop) (Q : D → K → Prop) (R : D → X → B → Prop) (waits : D → A → Prop) where
  kept : m.Keeps o P Q R
  before : D → A → Nat
  acting : X → Nat
  after : D → B → Nat
  before_step : ∀ d a, P d a → ¬ finished d (.before a) → ¬ waits d a →
    (∃ k, m.ask d a = some k) ∨ ∃ l a', m.before d a l = some a' ∧ before d a' < before d a
  acting_step : ∀ mem x d k, (∃ b, m.resume d k x = some b) ∨
    ∃ x', o.act mem x = some x' ∧ acting x' < acting x
  after_step : ∀ d x c b, R d x b → ¬ finished d (.after c b) →
    ∃ l b', m.after d b l = some b' ∧ after d b' < after d b

variable {w : Nat} {M X D A K B L E : Type} {m : Machine D A K B X L} {o : Object w M X E}
  {finished : D → Place A K B → Prop} {P : D → A → Prop} {Q : D → K → Prop} {R : D → X → B → Prop}
  {waits : D → A → Prop}

def Live.rank (h : Live m o finished P Q R waits) (u : Tickets.State w M X) (d : D) :
    Place A K B → Nat ×ₗ Nat
  | .before a => toLex (2, h.before d a)
  | .calling c _ => toLex (1, (u.calls[c]?).elim 0 h.acting)
  | .after _ b => toLex (0, h.after d b)

theorem Live.move (h : Live m o finished P Q R waits) {u : Tickets.State w M X}
    (hq : Holds o P Q R u d q) (hover : ¬ finished d q) (hw : ∀ a, q = .before a → ¬ waits d a) :
    ∃ v q' u', m.move o d u q v = some (q', u') ∧ h.rank u' d q' < h.rank u d q := by
  cases q with
  | before a =>
    rcases h.before_step d a hq hover (hw a rfl) with ⟨k, hk⟩ | ⟨l, a', ha, hlt⟩
    · refine ⟨.call, .calling u.calls.length k, _, by rw [Machine.move, hk]; rfl, ?_⟩
      exact Prod.Lex.toLex_lt_toLex.2 (.inl Nat.one_lt_two)
    · refine ⟨.own l, .before a', u, by rw [Machine.move, ha]; rfl, ?_⟩
      exact Prod.Lex.toLex_lt_toLex.2 (.inr ⟨rfl, hlt⟩)
  | calling c k =>
    have hlt := hq.2
    have hx := List.getElem?_eq_getElem hlt
    rcases h.acting_step u.memory u.calls[c] d k with ⟨b, hb⟩ | ⟨x', hact, hlt'⟩
    · refine ⟨.resume, .after c b, u, by rw [Machine.move, hx, Option.bind_some, hb]; rfl, ?_⟩
      exact Prod.Lex.toLex_lt_toLex.2 (.inl Nat.zero_lt_one)
    · refine ⟨.act, .calling c k, { u with calls := u.calls.set c x' }, ?_, ?_⟩
      · simp only [Machine.move, Object.step, hx, hact]
        rfl
      · refine Prod.Lex.toLex_lt_toLex.2 (.inr ⟨rfl, ?_⟩)
        simp only [List.getElem?_set_self hlt, hx]
        exact hlt'
  | after c b =>
    obtain ⟨x, _, _, hR⟩ := hq
    obtain ⟨l, b', hb, hlt⟩ := h.after_step d x c b hR hover
    refine ⟨.own l, .after c b', u, by rw [Machine.move, hb]; rfl, ?_⟩
    exact Prod.Lex.toLex_lt_toLex.2 (.inr ⟨rfl, hlt⟩)

def Live.rankOf (h : Live m o finished P Q R waits) (i : Nat) (s : State w M X D A K B) :
    Nat ×ₗ Nat :=
  (s.clients[i]?).elim (toLex (0, 0)) (fun c => h.rank s.object c.data c.place)

theorem Live.rankOf_set (h : Live m o finished P Q R waits) {s : State w M X D A K B}
    {c : Client D A K B} (hc : s.clients[i]? = some c)
    (hlt : h.rank u c.data q < h.rank s.object c.data c.place) :
    h.rankOf i ⟨s.clients.set i { c with place := q }, u⟩ < h.rankOf i s := by
  simp only [rankOf, hc, List.getElem?_set_self (List.getElem?_eq_some_iff.1 hc).1]
  exact hlt

end Clients
