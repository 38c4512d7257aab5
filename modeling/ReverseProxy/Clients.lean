import ReverseProxy.Tickets
import ReverseProxy.Updates

namespace Clients
open Runs Tickets Updates
set_option autoImplicit true

/-- A machine that calls an object of tickets at most once. It is started with some data, and its
states before, during and after the call are of different types. -/
structure Machine (D A K B X L : Type) where
  start : D → A
  before : D → A → L → Option A
  ask : D → A → Option K
  resume : D → K → X → Option B
  after : D → B → L → Option B

inductive Place (A K B : Type)
  | before (a : A)
  | calling (c : Nat) (k : K)
  | after (c : Nat) (b : B)
deriving DecidableEq, Repr

def Place.index : Place A K B → Option Nat
  | .before _ => none
  | .calling c _ | .after c _ => some c

structure Client (D A K B : Type) where
  data : D
  place : Place A K B

structure State (w : Nat) (M X D A K B : Type) where
  clients : List (Client D A K B)
  object : Tickets.State w M X

/-- A step of its own, or one that has to do with its call. -/
inductive Move (L : Type)
  | own (l : L)
  | call
  | act
  | resume
deriving DecidableEq, Repr

inductive Label (D L E : Type)
  | arrive (d : D)
  | move (i : Nat) (v : Move L)
  | env (e : E)

variable {w : Nat} {M X D A K B L E : Type}

def Machine.move (m : Machine D A K B X L) (o : Object w M X E) (d : D)
    (s : Tickets.State w M X) : Place A K B → Move L → Option (Place A K B × Tickets.State w M X)
  | .before a, .own l => (m.before d a l).map (fun a' => (.before a', s))
  | .before a, .call =>
    (m.ask d a).bind (fun k =>
      (o.step s .fetch).map (fun s' => (.calling s.calls.length k, s')))
  | .calling c k, .act => (o.step s (.act c)).map (fun s' => (.calling c k, s'))
  | .calling c k, .resume =>
    s.calls[c]?.bind (fun x => (m.resume d k x).map (fun b => (.after c b, s)))
  | .after c b, .own l => (m.after d b l).map (fun b' => (.after c b', s))
  | _, _ => none

/-- Any client may move next, or one more may arrive. -/
def Machine.step (m : Machine D A K B X L) (o : Object w M X E) (s : State w M X D A K B) :
    Label D L E → Option (State w M X D A K B)
  | .arrive d => some { s with clients := s.clients ++ [⟨d, .before (m.start d)⟩] }
  | .move i v =>
    s.clients[i]?.bind (fun c =>
      (m.move o c.data s.object c.place v).map (fun r =>
        { clients := s.clients.set i { c with place := r.1 }, object := r.2 }))
  | .env e => (o.step s.object (.env e)).map (fun s' => { s with object := s' })

def idle (t : BitVec w) (mem : M) : State w M X D A K B := ⟨[], fresh t mem⟩

inductive Machine.Moves (m : Machine D A K B X L) (o : Object w M X E) (d : D) :
    Tickets.State w M X → Place A K B → Move L → Place A K B → Tickets.State w M X → Prop
  | before : m.before d a l = some a' → Moves m o d s (.before a) (.own l) (.before a') s
  | call : m.ask d a = some k → o.step s .fetch = some s' →
      Moves m o d s (.before a) .call (.calling s.calls.length k) s'
  | act : o.step s (.act c) = some s' → Moves m o d s (.calling c k) .act (.calling c k) s'
  | resume : s.calls[c]? = some x → m.resume d k x = some b →
      Moves m o d s (.calling c k) .resume (.after c b) s
  | after : m.after d b l = some b' → Moves m o d s (.after c b) (.own l) (.after c b') s

variable {m : Machine D A K B X L} {o : Object w M X E} {s s' : State w M X D A K B}

theorem moves_of_move {u u' : Tickets.State w M X} (h : m.move o d u p v = some (p', u')) :
    m.Moves o d u p v p' u' := by
  unfold Machine.move at h
  split at h
  · obtain ⟨a', ha, he⟩ := Option.map_eq_some_iff.1 h
    cases he
    exact .before ha
  · obtain ⟨k, hk, h⟩ := Option.bind_eq_some_iff.1 h
    obtain ⟨u', hu, he⟩ := Option.map_eq_some_iff.1 h
    cases he
    exact .call hk hu
  · obtain ⟨u', hu, he⟩ := Option.map_eq_some_iff.1 h
    cases he
    exact .act hu
  · obtain ⟨x, hx, h⟩ := Option.bind_eq_some_iff.1 h
    obtain ⟨b, hb, he⟩ := Option.map_eq_some_iff.1 h
    cases he
    exact .resume hx hb
  · obtain ⟨b', hb, he⟩ := Option.map_eq_some_iff.1 h
    cases he
    exact .after hb
  · cases h

def Machine.Effect (m : Machine D A K B X L) (o : Object w M X E) (s s' : State w M X D A K B) :
    Label D L E → Prop
  | .arrive d => s' = { s with clients := s.clients ++ [⟨d, .before (m.start d)⟩] }
  | .move i v => ∃ c p u, s.clients[i]? = some c ∧ m.Moves o c.data s.object c.place v p u ∧
      s' = ⟨s.clients.set i { c with place := p }, u⟩
  | .env e => ∃ u, o.step s.object (.env e) = some u ∧ s' = { s with object := u }

theorem step_effect (h : m.step o s l = some s') : m.Effect o s s' l := by
  cases l with
  | arrive d =>
    cases h
    rfl
  | move i v =>
    obtain ⟨c, hc, h⟩ := Option.bind_eq_some_iff.1 h
    obtain ⟨⟨p, u⟩, hm, he⟩ := Option.map_eq_some_iff.1 h
    cases he
    exact ⟨c, p, u, hc, moves_of_move hm, rfl⟩
  | env e =>
    obtain ⟨u, hu, he⟩ := Option.map_eq_some_iff.1 h
    cases he
    exact ⟨u, hu, rfl⟩

theorem Machine.Moves.object {u u' : Tickets.State w M X} (h : m.Moves o d u p v p' u') :
    ∃ ls, run o.step u ls = some u' := by
  cases h with
  | before _ => exact ⟨[], rfl⟩
  | call _ hu => exact ⟨[.fetch], run_singleton hu⟩
  | act hu => exact ⟨[_], run_singleton hu⟩
  | resume _ _ => exact ⟨[], rfl⟩
  | after _ => exact ⟨[], rfl⟩

theorem step_object (h : m.step o s l = some s') :
    ∃ ls, run o.step s.object ls = some s'.object := by
  have he := step_effect h
  cases l with
  | arrive d =>
    cases he
    exact ⟨[], rfl⟩
  | move i v =>
    obtain ⟨c, p, u, _, hm, rfl⟩ := he
    exact hm.object
  | env e =>
    obtain ⟨u, hu, rfl⟩ := he
    exact ⟨[.env e], run_singleton hu⟩

theorem run_object (hr : run (m.step o) s ls = some s') :
    ∃ ks, run o.step s.object ks = some s'.object :=
  run_simulation (f := State.object) (fun _ _ _ => step_object) hr

theorem run_only {p : E → Bool} (hp : ∀ e, .env e ∈ ls → p e = true) (s : State w M X D A K B) :
    run (m.step (o.only p)) s ls = run (m.step o) s ls := by
  refine run_congr (fun s l hl => ?_) s
  cases l with
  | arrive d => rfl
  | move i v => rfl
  | env e =>
    have he : (o.only p).env s.object.memory e = o.env s.object.memory e := if_pos (hp e hl)
    simp only [Machine.step, Object.step, he]

theorem step_length {u u' : Tickets.State w M X} (h : o.step u l = some u') :
    u.calls.length ≤ u'.calls.length := by
  have he := Tickets.step_effect h
  cases l with
  | fetch =>
    cases he
    rw [List.length_append]
    exact Nat.le_add_right _ _
  | act c =>
    obtain ⟨x, x', _, _, rfl⟩ := he
    rw [List.length_set]
  | env e =>
    obtain ⟨mem, _, rfl⟩ := he
    exact Nat.le_refl _

theorem run_length {u u' : Tickets.State w M X} (hr : run o.step u ls = some u') :
    u.calls.length ≤ u'.calls.length :=
  run_invariant (I := fun v => u.calls.length ≤ v.calls.length)
    (fun _ _ _ hv h => Nat.le_trans hv (step_length h)) (Nat.le_refl _) hr

/-- `P`, `Q` and `R` hold of a client before, during and after its call, `R` of what the call came
to as well; only a call that has ended is taken up. -/
structure Machine.Keeps (m : Machine D A K B X L) (o : Object w M X E) (P : D → A → Prop)
    (Q : D → K → Prop) (R : D → X → B → Prop) : Prop where
  start : ∀ d, P d (m.start d)
  before : ∀ d a l a', P d a → m.before d a l = some a' → P d a'
  ask : ∀ d a k, P d a → m.ask d a = some k → Q d k
  ended : ∀ d k x b, m.resume d k x = some b → ∀ mem, o.act mem x = none
  resume : ∀ d k x b, Q d k → m.resume d k x = some b → R d x b
  after : ∀ d x b l b', R d x b → m.after d b l = some b' → R d x b'

def Holds (o : Object w M X E) (P : D → A → Prop) (Q : D → K → Prop) (R : D → X → B → Prop)
    (u : Tickets.State w M X) (d : D) : Place A K B → Prop
  | .before a => P d a
  | .calling c k => Q d k ∧ c < u.calls.length
  | .after c b => ∃ x, u.calls[c]? = some x ∧ (∀ mem, o.act mem x = none) ∧ R d x b

variable {P : D → A → Prop} {Q : D → K → Prop} {R : D → X → B → Prop}

theorem Holds.mono {u u' : Tickets.State w M X} (h : Holds o P Q R u d p)
    (hr : run o.step u ls = some u') : Holds o P Q R u' d p := by
  cases p with
  | before a => exact h
  | calling c k => exact ⟨h.1, Nat.lt_of_lt_of_le h.2 (run_length hr)⟩
  | after c b =>
    obtain ⟨x, hx, hend, hb⟩ := h
    exact ⟨x, run_ended hend hx hr, hend, hb⟩

theorem Machine.Keeps.move (hk : m.Keeps o P Q R) {u u' : Tickets.State w M X}
    (h : Holds o P Q R u d p) (hm : m.Moves o d u p v p' u') : Holds o P Q R u' d p' := by
  cases hm with
  | before ha => exact hk.before _ _ _ _ h ha
  | call hask hu =>
    cases hu
    refine ⟨hk.ask _ _ _ h hask, ?_⟩
    rw [List.length_append]
    exact Nat.lt_succ_self _
  | act hu => exact h.mono (run_singleton hu)
  | resume hx hb => exact ⟨_, hx, hk.ended _ _ _ _ hb, hk.resume _ _ _ _ h.1 hb⟩
  | after hb =>
    obtain ⟨x, hx, hend, hR⟩ := h
    exact ⟨x, hx, hend, hk.after _ _ _ _ _ hR hb⟩

theorem Machine.Keeps.step (hk : m.Keeps o P Q R)
    (hs : ∀ c ∈ s.clients, Holds o P Q R s.object c.data c.place) (h : m.step o s l = some s') :
    ∀ c ∈ s'.clients, Holds o P Q R s'.object c.data c.place := by
  obtain ⟨ks, hobj⟩ := step_object h
  have he := step_effect h
  intro c hc
  cases l with
  | arrive d =>
    cases he
    rcases List.mem_append.1 hc with hc | hc
    · exact hs c hc
    · cases List.mem_singleton.1 hc
      exact hk.start d
  | move i v =>
    obtain ⟨c₀, p, u, hc₀, hm, rfl⟩ := he
    rcases List.mem_or_eq_of_mem_set hc with hc | rfl
    · exact (hs c hc).mono hobj
    · exact hk.move (hs c₀ (List.mem_of_getElem? hc₀)) hm
  | env e =>
    obtain ⟨u, _, rfl⟩ := he
    exact (hs c hc).mono hobj

theorem Machine.Keeps.run (hk : m.Keeps o P Q R)
    (hr : run (m.step o) (idle t mem) ls = some s) :
    ∀ c ∈ s.clients, Holds o P Q R s.object c.data c.place := by
  refine run_invariant (I := fun u : State w M X D A K B =>
    ∀ c ∈ u.clients, Holds o P Q R u.object c.data c.place) (fun _ _ _ hs h => hk.step hs h) ?_ hr
  intro c hc
  cases hc

def State.indices (s : State w M X D A K B) : List Nat :=
  s.clients.filterMap (fun c => c.place.index)

/-- The calls of the object are those of the clients: each has one caller. -/
theorem step_indices (hs : s.indices.Perm (List.range s.object.calls.length))
    (h : m.step o s l = some s') : s'.indices.Perm (List.range s'.object.calls.length) := by
  have he := step_effect h
  cases l with
  | arrive d =>
    cases he
    rw [State.indices, List.filterMap_append]
    exact (List.append_nil _).symm ▸ hs
  | move i v =>
    obtain ⟨c, p, u, hc, hm, rfl⟩ := he
    have hsame (hp : p.index = c.place.index) (hu : u.calls.length = s.object.calls.length) :
        (State.indices ⟨s.clients.set i { c with place := p }, u⟩).Perm
          (List.range u.calls.length) := by
      rw [hu, State.indices, filterMap_set (f := fun c => c.place.index) hc hp]
      exact hs
    obtain ⟨d, q⟩ := c
    cases hm with
    | before _ => exact hsame rfl rfl
    | call _ hu =>
      cases hu
      rw [List.length_append, List.length_singleton, List.range_succ]
      refine List.Perm.trans ?_ (hs.append_right _)
      apply filterMap_set_perm (f := fun c => c.place.index) hc
      · rfl
      · rfl
    | act hu =>
      obtain ⟨x, x', _, _, rfl⟩ := Tickets.step_effect hu
      exact hsame rfl List.length_set
    | resume _ _ => exact hsame rfl rfl
    | after _ => exact hsame rfl rfl
  | env e =>
    obtain ⟨u, hu, rfl⟩ := he
    obtain ⟨mem, _, rfl⟩ := Tickets.step_effect hu
    exact hs

theorem run_indices (hr : run (m.step o) (idle t mem) ls = some s) :
    s.indices.Perm (List.range s.object.calls.length) :=
  run_invariant (I := fun u : State w M X D A K B => u.indices.Perm
    (List.range u.object.calls.length)) (fun _ _ _ hs h => step_indices hs h) (List.Perm.refl _) hr

/-- A call enters or changes only by a step of its client. -/
theorem step_call (h : m.step o s l = some s') (hx : s'.object.calls[c]? = some x)
    (hne : s.object.calls[c]? ≠ some x) :
    (∃ t, x = o.enter t) ∨ ∃ i d y, l = .move i .act ∧ s.clients[i]? = some d ∧
      d.place.index = some c ∧ s.object.calls[c]? = some y ∧ o.act s.object.memory y = some x := by
  have he := step_effect h
  cases l with
  | arrive d =>
    cases he
    exact (hne hx).elim
  | move i v =>
    obtain ⟨⟨d, q⟩, p, u, hc, hm, rfl⟩ := he
    cases hm with
    | before _ => exact (hne hx).elim
    | call _ hu =>
      rcases step_getElem?_new hu hx hne with ⟨_, rfl⟩ | ⟨hl, _⟩
      · exact .inl ⟨_, rfl⟩
      · cases hl
    | act hu =>
      rcases step_getElem?_new hu hx hne with ⟨_, rfl⟩ | ⟨hl, y, hy, hact⟩
      · exact .inl ⟨_, rfl⟩
      · cases hl
        exact .inr ⟨i, _, y, rfl, hc, rfl, hy, hact⟩
    | resume _ _ => exact (hne hx).elim
    | after _ => exact (hne hx).elim
  | env e =>
    obtain ⟨u, hu, rfl⟩ := he
    obtain ⟨mem, _, rfl⟩ := Tickets.step_effect hu
    exact (hne hx).elim

theorem Machine.Moves.index {u u' : Tickets.State w M X} (h : m.Moves o d u p v p' u')
    (hp : p.index = some c) : p'.index = some c := by
  cases h with
  | before _ => cases hp
  | call _ _ => cases hp
  | act _ => exact hp
  | resume _ _ => exact hp
  | after _ => exact hp

/-- A client keeps its data, and at its place what each of its moves keeps. -/
theorem step_client {Q : D → Place A K B → Prop} {d : Client D A K B} {i : Nat}
    (hQ : ∀ e u p v p' u', m.Moves o e u p v p' u' → Q e p → Q e p')
    (h : m.step o s l = some s') (hd : s.clients[i]? = some d) (hplace : Q d.data d.place) :
    ∃ d', s'.clients[i]? = some d' ∧ d'.data = d.data ∧ Q d.data d'.place := by
  have he := step_effect h
  cases l with
  | arrive e =>
    cases he
    exact ⟨d, (List.getElem?_append_left (List.getElem?_eq_some_iff.1 hd).1).trans hd, rfl, hplace⟩
  | move j v =>
    obtain ⟨⟨e, q⟩, p, u, hj, hm, rfl⟩ := he
    by_cases hij : j = i
    · subst hij
      cases hj.symm.trans hd
      exact ⟨_, List.getElem?_set_self (List.getElem?_eq_some_iff.1 hd).1, rfl,
        hQ _ _ _ _ _ _ hm hplace⟩
    · exact ⟨d, (List.getElem?_set_ne hij).trans hd, rfl, hplace⟩
  | env e =>
    obtain ⟨u, _, rfl⟩ := he
    exact ⟨d, hd, rfl, hplace⟩

theorem run_client {Q : D → Place A K B → Prop} {d : Client D A K B} {i : Nat}
    (hQ : ∀ e u p v p' u', m.Moves o e u p v p' u' → Q e p → Q e p')
    (hr : run (m.step o) s ls = some s') (hd : s.clients[i]? = some d)
    (hplace : Q d.data d.place) :
    ∃ d', s'.clients[i]? = some d' ∧ d'.data = d.data ∧ Q d.data d'.place := by
  refine run_invariant (I := fun u : State w M X D A K B => ∃ d', u.clients[i]? = some d' ∧
    d'.data = d.data ∧ Q d.data d'.place) (fun u l u' hu h => ?_) ⟨d, hd, rfl, hplace⟩ hr
  obtain ⟨d₁, hd₁, hdata₁, hplace₁⟩ := hu
  obtain ⟨d₂, hd₂, hdata₂, hplace₂⟩ := step_client hQ h hd₁ (hdata₁ ▸ hplace₁)
  exact ⟨d₂, hd₂, hdata₂.trans hdata₁, hdata₁ ▸ hplace₂⟩

theorem step_mem {c : Client D A K B} (h : m.step o s l = some s') (hc : c ∈ s'.clients) :
    (∃ c₀ ∈ s.clients, c₀.data = c.data) ∨ l = .arrive c.data := by
  have he := step_effect h
  cases l with
  | arrive d =>
    cases he
    rcases List.mem_append.1 hc with hc | hc
    · exact .inl ⟨c, hc, rfl⟩
    · cases List.mem_singleton.1 hc
      exact .inr rfl
  | move i v =>
    obtain ⟨c₀, p, u, hc₀, _, rfl⟩ := he
    rcases List.mem_or_eq_of_mem_set hc with hc | rfl
    · exact .inl ⟨c, hc, rfl⟩
    · exact .inl ⟨c₀, List.mem_of_getElem? hc₀, rfl⟩
  | env e =>
    obtain ⟨u, _, rfl⟩ := he
    exact .inl ⟨c, hc, rfl⟩

theorem index_inj {d e : Client D A K B} {i j c : Nat}
    (hs : s.indices.Perm (List.range s.object.calls.length)) (hi : s.clients[i]? = some d)
    (hj : s.clients[j]? = some e) (hd : d.place.index = some c) (he : e.place.index = some c) :
    i = j := by
  have hpair := List.pairwise_filterMap.1 (hs.nodup_iff.2 List.nodup_range)
  have hlt {i j : Nat} {d e : Client D A K B} (hi : s.clients[i]? = some d)
      (hj : s.clients[j]? = some e) (hd : d.place.index = some c) (he : e.place.index = some c) :
      ¬ i < j := by
    intro hij
    obtain ⟨hi', rfl⟩ := List.getElem?_eq_some_iff.1 hi
    obtain ⟨hj', rfl⟩ := List.getElem?_eq_some_iff.1 hj
    exact List.pairwise_iff_getElem.1 hpair i j hi' hj' hij c hd c he rfl
  have h₁ := hlt hi hj hd he
  have h₂ := hlt hj hi he hd
  omega

theorem run_call_step {P : X → Prop} {d : Client D A K B} {i c : Nat} {x : X}
    (henter : ∀ t, ¬ P (o.enter t)) (hr : run (m.step o) (idle t mem) ls = some s)
    (hi : s.clients[i]? = some d) (hd : d.place.index = some c)
    (hx : s.object.calls[c]? = some x) (hP : P x) :
    ∃ ls₁ ls₂ s₁ y y', ls = ls₁ ++ .move i .act :: ls₂ ∧
      run (m.step o) (idle t mem) ls₁ = some s₁ ∧ s₁.object.calls[c]? = some y ∧
      o.act s₁.object.memory y = some y' ∧ ¬ P y ∧ P y' := by
  have hidle : ¬ ∃ x, (idle t mem : State w M X D A K B).object.calls[c]? = some x ∧ P x := by
    rintro ⟨x, hx, _⟩
    cases hx
  obtain ⟨ls₁, l, ls₂, s₁, s₂, rfl, hr₁, hl, hs₁, z, hz, hPz⟩ := run_exists_step
    (P := fun u : State w M X D A K B => ∃ x, u.object.calls[c]? = some x ∧ P x) hidle hr
    ⟨x, hx, hP⟩
  have hne : s₁.object.calls[c]? ≠ some z := fun hz₁ => hs₁ ⟨z, hz₁, hPz⟩
  rcases step_call hl hz hne with ⟨t', rfl⟩ | ⟨j, e, y, rfl, he, hec, hy, hact⟩
  · exact (henter t' hPz).elim
  · obtain ⟨v, hv, hr₂⟩ := run_append_eq_some.1 hr
    cases hr₁.symm.trans hv
    obtain ⟨e', he', _, hindex⟩ := run_client (Q := fun _ p => p.index = some c)
      (fun _ _ _ _ _ _ hm hp => hm.index hp) hr₂ he hec
    cases index_inj (run_indices hr) hi he' hd hindex
    refine ⟨ls₁, ls₂, s₁, y, z, rfl, hr₁, hy, hact, fun hPy => hs₁ ⟨y, hy, hPy⟩, hPz⟩

theorem map_filter_isSome (f : α → Option β) (as : List α) :
    (as.filter (fun a => (f a).isSome)).map f = (as.filterMap f).map some := by
  induction as with
  | nil => rfl
  | cons a as ih =>
    cases ha : f a with
    | none => rw [List.filter_cons_of_neg (by simp [ha]), List.filterMap_cons_none ha, ih]
    | some b =>
      rw [List.filter_cons_of_pos (by simp [ha]), List.filterMap_cons_some ha, List.map_cons,
        List.map_cons, ih, ha]

theorem exists_order {α : Type} {f : α → Option Nat} {as : List α}
    (h : (as.filterMap f).Perm (List.range n)) :
    ∃ called rest : List α, (called ++ rest).Perm as ∧ called.map f = (List.range n).map some ∧
      ∀ a ∈ rest, f a = none := by
  have hperm : ((List.range n).map some).Perm ((as.filter (fun a => (f a).isSome)).map f) := by
    rw [map_filter_isSome]
    exact (h.map some).symm
  obtain ⟨called, hmap, hcalled⟩ := (congrFun₂ (List.eq_map_comp_perm f) _ _).mpr hperm
  refine ⟨called, as.filter (fun a => !(f a).isSome), ?_, hmap.symm, fun a ha => ?_⟩
  · exact (hcalled.append_right _).trans (List.filter_append_perm _ as)
  · have := (List.mem_filter.1 ha).2
    rwa [Bool.not_eq_true', Option.isSome_eq_false_iff, Option.isNone_iff_eq_none] at this

/-- The clients, each as a part of what `g` takes it from, in the order of their calls, and after
them those that have not called. -/
theorem run_order {α : Type} {g : α → Client D A K B} {as : List α}
    (hr : run (m.step o) (idle t mem) ls = some s) (has : as.map g = s.clients) :
    ∃ called rest : List α, (called ++ rest).Perm as ∧
      called.length = s.object.calls.length ∧
      (∀ (c : Nat) (a : α), called[c]? = some a → (g a).place.index = some c) ∧
      ∀ a ∈ rest, (g a).place.index = none := by
  have hindices : (as.filterMap (fun a => (g a).place.index)).Perm
      (List.range s.object.calls.length) := by
    have := run_indices hr
    rwa [State.indices, ← has, List.filterMap_map] at this
  obtain ⟨called, rest, hperm, hmap, hrest⟩ := exists_order hindices
  have hlen : called.length = s.object.calls.length := by
    have := congrArg List.length hmap
    rwa [List.length_map, List.length_map, List.length_range] at this
  refine ⟨called, rest, hperm, hlen, fun c a ha => ?_, hrest⟩
  have hc : c < s.object.calls.length := by
    rw [← hlen]
    exact (List.getElem?_eq_some_iff.1 ha).1
  have hat := congrArg (fun l => l[c]?) hmap
  simpa [ha, hc] using hat

end Clients
