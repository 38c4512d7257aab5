import Mathlib.Data.List.Basic

namespace Scripts
set_option autoImplicit true

/-- What a program has done from its start, in order, and what it has returned or stopped with. -/
structure Script (E X α : Type) where
  effects : List E
  result : Except X α

variable {E X α β : Type}

def Script.andThen (x : Script E X α) (f : α → Script E X β) : Script E X β :=
  match x.result with
  | .ok a => ⟨x.effects ++ (f a).effects, (f a).result⟩
  | .error e => ⟨x.effects, .error e⟩

instance : Monad (Script E X) where
  pure a := ⟨[], .ok a⟩
  bind := Script.andThen

def perform (e : E) : Script E X Unit := ⟨[e], .ok ()⟩

def orStop (stop : X) : Option α → Script E X α
  | none => ⟨[], .error stop⟩
  | some a => ⟨[], .ok a⟩

def ofExcept (f : Y → X) : Except Y α → Script E X α
  | .error y => ⟨[], .error (f y)⟩
  | .ok a => ⟨[], .ok a⟩

def Script.mapStop (f : X → X) (x : Script E X α) : Script E X α :=
  match x.result with
  | .ok _ => x
  | .error stop => ⟨x.effects, .error (f stop)⟩

variable {x : Script E X α} {f : α → Script E X β}

theorem bind_of_ok (h : x.result = .ok a) :
    x >>= f = ⟨x.effects ++ (f a).effects, (f a).result⟩ := by
  change x.andThen f = _
  unfold Script.andThen
  rw [h]

theorem bind_of_error (h : x.result = .error stop) : x >>= f = ⟨x.effects, .error stop⟩ := by
  change x.andThen f = _
  unfold Script.andThen
  rw [h]

theorem bind_eq_error : (x >>= f).result = .error stop ↔
    x.result = .error stop ∨ ∃ a, x.result = .ok a ∧ (f a).result = .error stop := by
  change (x.andThen f).result = .error stop ↔ _
  unfold Script.andThen
  cases hx : x.result with
  | ok a => simp
  | error e => simp

theorem mem_bind : e ∈ (x >>= f).effects ↔
    e ∈ x.effects ∨ ∃ a, x.result = .ok a ∧ e ∈ (f a).effects := by
  change e ∈ (x.andThen f).effects ↔ _
  unfold Script.andThen
  cases hx : x.result with
  | ok a => simp
  | error e => simp

theorem mem_pure : e ∈ (pure a : Script E X α).effects ↔ False :=
  List.mem_nil_iff e

theorem pure_ne_error : (pure a : Script E X α).result = .error stop ↔ False :=
  ⟨fun h => (by cases h), False.elim⟩

theorem mem_perform {e' : E} : e ∈ (perform e' : Script E X Unit).effects ↔ e = e' :=
  List.mem_singleton

theorem perform_ne_error : (perform e : Script E X Unit).result = .error stop ↔ False :=
  ⟨fun h => (by cases h), False.elim⟩

theorem orStop_eq_error {o : Option α} :
    (orStop stop o : Script E X α).result = .error stop' ↔ o = none ∧ stop = stop' := by
  cases o with
  | none => exact ⟨fun h => (by cases h; exact ⟨rfl, rfl⟩), fun h => (by rw [h.2.symm]; rfl)⟩
  | some b => exact ⟨fun h => (by cases h), fun h => (by cases h.1)⟩

theorem mem_orStop {o : Option α} : e ∈ (orStop stop o : Script E X α).effects ↔ False := by
  cases o with
  | none => exact List.mem_nil_iff e
  | some b => exact List.mem_nil_iff e

theorem mapStop_eq_ok {g : X → X} : (x.mapStop g).result = .ok a ↔ x.result = .ok a := by
  unfold Script.mapStop
  cases hx : x.result with
  | ok b => simp [hx]
  | error e => simp

theorem mapStop_eq_error {g : X → X} :
    (x.mapStop g).result = .error stop ↔ ∃ stop', x.result = .error stop' ∧ g stop' = stop := by
  unfold Script.mapStop
  cases hx : x.result with
  | ok b => simp [hx]
  | error e => simp

theorem mapStop_effects (g : X → X) : (x.mapStop g).effects = x.effects := by
  unfold Script.mapStop
  cases hx : x.result with
  | ok b => rfl
  | error e => rfl

end Scripts
