import Mathlib.Data.Prod.Lex
import ReverseProxy.Runs

namespace Futures
open Runs
set_option autoImplicit true

/-- What a call of `poll` comes to: an output or none yet, whether it has woken its task, and the
times for which it has left an alarm that will wake it. -/
structure Polled (σ α : Type) where
  state : σ
  output : Option α
  woken : Bool
  alarms : List Nat

/-- It is polled at a time, and `none` is a panic. -/
abbrev Future (σ α : Type) := Nat → σ → Option (Polled σ α)

/-- A task of an executor, which owns its future until that is ready, and what it is ready with. -/
structure Task (σ α : Type) where
  now : Nat
  future : Option σ
  scheduled : Bool
  alarms : List Nat
  output : Option (Nat × α)
  panicked : Bool

inductive Label
  | poll
  | tick
  | alarm (k : Nat)
  | wake
deriving DecidableEq, Repr

def spawn (now : Nat) (s : σ) : Task σ α := ⟨now, some s, true, [], none, false⟩

/-- The executor polls a task that is scheduled. It is scheduled again when it is woken: by its own
poll, by an alarm that goes off, or by anybody else. -/
def step (f : Future σ α) (s : Task σ α) : Label → Option (Task σ α)
  | .poll =>
    match s.future with
    | none => none
    | some state =>
      if s.scheduled then
        match f s.now state with
        | none => some { s with future := none, scheduled := false, panicked := true }
        | some p =>
          match p.output with
          | some a =>
            some { s with future := none, scheduled := false, alarms := s.alarms ++ p.alarms,
                          output := some (s.now, a) }
          | none =>
            some { s with future := some p.state, scheduled := p.woken,
                          alarms := s.alarms ++ p.alarms }
      else none
  | .tick => some { s with now := s.now + 1 }
  | .alarm k =>
    match s.alarms[k]? with
    | none => none
    | some t =>
      if t ≤ s.now then
        some { s with alarms := s.alarms.eraseIdx k, scheduled := s.future.isSome }
      else none
  | .wake => some { s with scheduled := s.future.isSome }

/-- What a poll may come to that keeps the task going: it is ready, it has woken its task and is
nearer to its end, it has left an alarm for later, or it waits for one that it has left before. -/
inductive Promise (I : σ → Prop) (due : σ → Option Nat) (left : σ → Nat) (R : Nat → α → Prop)
    (now : Nat) (s : σ) (p : Polled σ α) : Prop
  | ready (ho : p.output = some a) (hR : R now a)
  | woken (ho : p.output = none) (hI : I p.state) (hd : due p.state = none)
      (hw : p.woken = true) (hl : left p.state < left s)
  | armed (ho : p.output = none) (hI : I p.state) (hd : due p.state = some t) (ht : now < t)
      (ha : t ∈ p.alarms) (hl : left p.state < left s)
  | waiting (ho : p.output = none) (hI : I p.state) (hs : due s = some t)
      (hd : due p.state = some t) (ht : now < t) (hw : p.woken = false)
      (hl : left p.state ≤ left s)

/-- A future that is never left alone, and comes to what `R` says. -/
def Wakes (f : Future σ α) (I : σ → Prop) (due : σ → Option Nat) (left : σ → Nat)
    (R : Nat → α → Prop) : Prop :=
  ∀ now s, I s → ∃ p, f now s = some p ∧ Promise I due left R now s p

variable {σ τ α β : Type} {f : Future σ α} {g : Future τ β} {I : σ → Prop}
  {due : σ → Option Nat} {left : σ → Nat} {R : Nat → α → Prop} {s s' : Task σ α}

/-- The task is scheduled, or an alarm for it is still to go off. -/
structure Inv (I : σ → Prop) (due : σ → Option Nat) (R : Nat → α → Prop) (s : Task σ α) :
    Prop where
  holds : ∀ state, s.future = some state → I state
  alarmed : ∀ state t, s.future = some state → due state = some t → t ∈ s.alarms ∨ t ≤ s.now
  unlost : ∀ state, s.future = some state →
    s.scheduled = true ∨ ∃ t ∈ s.alarms, due state = some t
  output : ∀ t a, s.output = some (t, a) → t ≤ s.now ∧ R t a
  done : s.future = none → s.output.isSome = true
  retired : s.output.isSome = true → s.future = none
  unpanicked : s.panicked = false

theorem spawn_inv {state : σ} (hI : I state) (hd : due state = none) (now : Nat) :
    Inv I due R (spawn now state) where
  holds _ h := by cases h; exact hI
  alarmed _ _ h ht := by cases h; cases hd.symm.trans ht
  unlost _ _ := .inl rfl
  output _ _ h := by cases h
  done h := by cases h
  retired h := by cases h
  unpanicked := rfl

theorem Inv.poll (h : Inv I due R s) (hf : Wakes f I due left R)
    (hs : step f s .poll = some s') : Inv I due R s' := by
  simp only [step] at hs
  split at hs
  · cases hs
  · next state hstate =>
    have hpending : ¬ s.output.isSome = true := fun he => by cases hstate.symm.trans (h.retired he)
    obtain ⟨hscheduled, hs⟩ := Option.ite_none_right_eq_some.1 hs
    obtain ⟨p, hp, hpromise⟩ := hf s.now state (h.holds state hstate)
    simp only [hp] at hs
    cases hpromise with
    | ready ho hR =>
      simp only [ho] at hs
      cases hs
      refine ⟨fun _ he => (by cases he), fun _ _ he => (by cases he), fun _ he => (by cases he),
        fun t a he => ?_, fun _ => rfl, fun _ => rfl, h.unpanicked⟩
      cases he
      exact ⟨Nat.le_refl _, hR⟩
    | woken ho hI hd hw hl =>
      simp only [ho] at hs
      cases hs
      refine ⟨fun _ he => ?_, fun _ _ he ht => ?_, fun _ _ => .inl hw, h.output,
        fun he => (by cases he), fun he => ?_, h.unpanicked⟩
      · cases he
        exact hI
      · cases he
        cases hd.symm.trans ht
      · exact (hpending he).elim
    | armed ho hI hd ht ha hl =>
      simp only [ho] at hs
      cases hs
      refine ⟨fun _ he => ?_, fun _ _ he hd' => ?_, fun _ he => ?_, h.output,
        fun he => (by cases he), fun he => ?_, h.unpanicked⟩
      · cases he
        exact hI
      · cases he
        cases hd.symm.trans hd'
        exact .inl (List.mem_append_right _ ha)
      · cases he
        exact .inr ⟨_, List.mem_append_right _ ha, hd⟩
      · exact (hpending he).elim
    | waiting ho hI hds hd ht hw hl =>
      simp only [ho] at hs
      cases hs
      have hmem := (h.alarmed state _ hstate hds).resolve_right (Nat.not_le_of_lt ht)
      refine ⟨fun _ he => ?_, fun _ _ he hd' => ?_, fun _ he => ?_, h.output,
        fun he => (by cases he), fun he => ?_, h.unpanicked⟩
      · cases he
        exact hI
      · cases he
        cases hd.symm.trans hd'
        exact .inl (List.mem_append_left _ hmem)
      · cases he
        exact .inr ⟨_, List.mem_append_left _ hmem, hd⟩
      · exact (hpending he).elim

theorem Inv.step (h : Inv I due R s) (hf : Wakes f I due left R)
    (hs : Futures.step f s l = some s') : Inv I due R s' := by
  cases l with
  | poll => exact h.poll hf hs
  | tick =>
    cases hs
    refine ⟨h.holds, fun state t he ht => ?_, h.unlost, fun t a he => ?_, h.done, h.retired,
      h.unpanicked⟩
    · exact (h.alarmed state t he ht).imp_right Nat.le_succ_of_le
    · exact ⟨Nat.le_succ_of_le (h.output t a he).1, (h.output t a he).2⟩
  | alarm k =>
    simp only [Futures.step] at hs
    split at hs
    · cases hs
    · next t hk =>
      obtain ⟨hle, hs⟩ := Option.ite_none_right_eq_some.1 hs
      cases hs
      refine ⟨h.holds, fun state t' he ht => ?_, fun state he => .inl ?_, h.output, h.done,
        h.retired, h.unpanicked⟩
      · rcases h.alarmed state t' he ht with hmem | hle'
        · obtain ⟨i, hi⟩ := List.getElem?_of_mem hmem
          by_cases hik : i = k
          · subst hik
            cases hk.symm.trans hi
            exact .inr hle
          · exact .inl (List.mem_eraseIdx_iff_getElem?.2 ⟨i, hik, hi⟩)
        · exact .inr hle'
      · exact Option.isSome_iff_exists.2 ⟨state, he⟩
  | wake =>
    cases hs
    exact ⟨h.holds, h.alarmed, fun state he => .inl (Option.isSome_iff_exists.2 ⟨state, he⟩),
      h.output, h.done, h.retired, h.unpanicked⟩

def wait (s : Task σ α) : Option Nat → Nat
  | none => 1
  | some t =>
    if s.scheduled then
      if t ≤ s.now then 1 else t - s.now + 3
    else t - s.now + 2

theorem wait_pos (s : Task σ α) (t : Option Nat) : 0 < wait s t := by
  unfold wait
  split
  · exact Nat.one_pos
  · split
    · split
      · exact Nat.one_pos
      · exact Nat.succ_pos _
    · exact Nat.succ_pos _

def rank (due : σ → Option Nat) (left : σ → Nat) (s : Task σ α) : Nat ×ₗ Nat :=
  (s.future.map (fun state => toLex (left state, wait s (due state)))).getD (toLex (0, 0))

theorem rank_some {state : σ} (hs : s.future = some state) :
    rank due left s = toLex (left state, wait s (due state)) := by
  rw [rank, hs]
  rfl

theorem rank_lt_of_none {state : σ} (hs : s.future = some state) (hs' : s'.future = none) :
    rank due left s' < rank due left s := by
  rw [rank_some hs, rank, hs']
  refine Prod.Lex.toLex_lt_toLex.2 ?_
  rcases Nat.eq_zero_or_pos (left state) with hzero | hpos
  · exact .inr ⟨hzero.symm, wait_pos s _⟩
  · exact .inl hpos

theorem rank_lt_of_left {state state' : σ} (hs : s.future = some state)
    (hs' : s'.future = some state') (hl : left state' < left state) :
    rank due left s' < rank due left s := by
  rw [rank_some hs, rank_some hs']
  exact Prod.Lex.toLex_lt_toLex.2 (.inl hl)

theorem rank_lt_of_wait {state state' : σ} (hs : s.future = some state)
    (hs' : s'.future = some state') (hl : left state' ≤ left state)
    (hw : wait s' (due state') < wait s (due state)) : rank due left s' < rank due left s := by
  rcases Nat.lt_or_eq_of_le hl with hl | hl
  · exact rank_lt_of_left hs hs' hl
  · rw [rank_some hs, rank_some hs']
    exact Prod.Lex.toLex_lt_toLex.2 (.inr ⟨hl, hw⟩)

theorem Inv.poll_rank (h : Inv I due R s) (hf : Wakes f I due left R)
    (hs : s.future = some state) (hscheduled : s.scheduled = true) :
    ∃ s', Futures.step f s .poll = some s' ∧ rank due left s' < rank due left s := by
  obtain ⟨p, hp, hpromise⟩ := hf s.now state (h.holds state hs)
  simp only [Futures.step, hs, hscheduled, if_true, hp]
  cases hpromise with
  | ready ho hR =>
    simp only [ho]
    exact ⟨_, rfl, rank_lt_of_none hs rfl⟩
  | woken ho hI hd hw hl =>
    simp only [ho]
    exact ⟨_, rfl, rank_lt_of_left hs rfl hl⟩
  | armed ho hI hd ht ha hl =>
    simp only [ho]
    exact ⟨_, rfl, rank_lt_of_left hs rfl hl⟩
  | waiting ho hI hds hd ht hw hl =>
    simp only [ho]
    refine ⟨_, rfl, rank_lt_of_wait hs rfl hl ?_⟩
    simp only [wait, hds, hd, hw, hscheduled, if_true, Nat.not_le_of_lt ht, if_false,
      Bool.false_eq_true]
    omega

theorem Inv.exists_step (h : Inv I due R s) (hf : Wakes f I due left R)
    (hs : s.future = some state) :
    ∃ l s', l ≠ .wake ∧ Futures.step f s l = some s' ∧ rank due left s' < rank due left s := by
  cases hscheduled : s.scheduled with
  | true =>
    obtain ⟨s', hstep, hlt⟩ := h.poll_rank hf hs hscheduled
    exact ⟨.poll, s', nofun, hstep, hlt⟩
  | false =>
    rcases h.unlost state hs with htrue | ⟨t, ht, hd⟩
    · cases hscheduled.symm.trans htrue
    · rcases Nat.lt_or_ge s.now t with hlt | hle
      · refine ⟨.tick, { s with now := s.now + 1 }, nofun, rfl,
          rank_lt_of_wait hs hs (Nat.le_refl _) ?_⟩
        simp only [wait, hd, hscheduled, Bool.false_eq_true, if_false]
        omega
      · obtain ⟨k, hk⟩ := List.getElem?_of_mem ht
        refine ⟨.alarm k, { s with alarms := s.alarms.eraseIdx k, scheduled := true },
          nofun, ?_, rank_lt_of_wait hs hs (Nat.le_refl _) ?_⟩
        · simp only [Futures.step, hk, hle, if_true, hs, Option.isSome_some]
        · simp only [wait, hd, hscheduled, hle, if_true, Bool.false_eq_true, if_false]
          omega

/-- No wake-up is lost, whatever the order of polls, alarms and other wake-ups, and polls, time and
its own alarms alone can always bring the task to its output, after which nothing polls it. -/
structure Completes (f : Future σ α) (R : Nat → α → Prop) (s : Task σ α) : Prop where
  unlost : s.future.isSome = true → s.scheduled = true ∨ s.alarms ≠ []
  output : ∀ t a, s.output = some (t, a) → t ≤ s.now ∧ R t a
  retired : s.output.isSome = true → ∀ ls u, run (Futures.step f) s ls = some u →
    Label.poll ∉ ls ∧ u.output = s.output
  unpanicked : s.panicked = false
  ends : ∃ ls u, (∀ l ∈ ls, l ≠ .wake) ∧ run (Futures.step f) s ls = some u ∧
    u.output.isSome = true

theorem step_retired (hs : s.future = none) (hl : Futures.step f s l = some s') :
    l ≠ .poll ∧ s'.future = none ∧ s'.output = s.output := by
  cases l with
  | poll =>
    rw [Futures.step, hs] at hl
    cases hl
  | tick =>
    cases hl
    exact ⟨nofun, hs, rfl⟩
  | alarm k =>
    simp only [Futures.step] at hl
    split at hl
    · cases hl
    · obtain ⟨_, hl⟩ := Option.ite_none_right_eq_some.1 hl
      cases hl
      exact ⟨nofun, hs, rfl⟩
  | wake =>
    cases hl
    exact ⟨nofun, hs, rfl⟩

theorem run_retired (hs : s.future = none) (hr : run (Futures.step f) s ls = some s') :
    .poll ∉ ls ∧ s'.output = s.output := by
  induction ls generalizing s with
  | nil =>
    cases hr
    exact ⟨List.not_mem_nil, rfl⟩
  | cons l ls ih =>
    obtain ⟨s₁, hl, hr⟩ := run_cons_eq_some.1 hr
    obtain ⟨hne, hnone, hout⟩ := step_retired hs hl
    obtain ⟨hls, hout'⟩ := ih hnone hr
    exact ⟨List.not_mem_cons_of_ne_of_not_mem hne.symm hls, hout'.trans hout⟩

theorem Inv.completes (h : Inv I due R s) (hf : Wakes f I due left R) : Completes f R s where
  unlost hs := by
    obtain ⟨state, hs⟩ := Option.isSome_iff_exists.1 hs
    refine (h.unlost state hs).imp_right fun ⟨t, ht, _⟩ hnil => ?_
    rw [hnil] at ht
    cases ht
  output := h.output
  retired hs _ _ hr := run_retired (h.retired hs) hr
  unpanicked := h.unpanicked
  ends := by
    have hstep (s : Task σ α) (h : Inv I due R s) : s.future = none ∨ ∃ l s', l ≠ .wake ∧
        Futures.step f s l = some s' ∧ Inv I due R s' ∧ rank due left s' < rank due left s := by
      cases hs : s.future with
      | none => exact .inl rfl
      | some state =>
        obtain ⟨l, s', hl, hstep, hlt⟩ := h.exists_step hf hs
        exact .inr ⟨l, s', hl, hstep, h.step hf hstep, hlt⟩
    obtain ⟨ls, u, hls, hr, hu, hnone⟩ := run_exists_of_rank (P := fun l => l ≠ Label.wake)
      (rank due left) hstep h
    exact ⟨ls, u, hls, hr, hu.done hnone⟩

theorem run_completes (hf : Wakes f I due left R) {state : σ} (hI : I state)
    (hd : due state = none) (hr : run (Futures.step f) (spawn now state) ls = some s) :
    Completes f R s :=
  (run_invariant (fun _ _ _ h hs => Inv.step h hf hs) (spawn_inv hI hd now) hr).completes hf

section AndThen

/-- What an async function keeps at an `.await` and behind it. -/
inductive Then (σ τ α : Type)
  | first (s : σ)
  | second (a : α) (t : τ)

/-- It awaits one future and then, in the same poll, goes on to the next, which it makes from the
output of the first. -/
def andThen (f : Future σ α) (make : Nat → α → τ) (g : α → Future τ β) : Future (Then σ τ α) β
  | now, .first s =>
    (f now s).bind (fun p =>
      match p.output with
      | none => some ⟨.first p.state, none, p.woken, p.alarms⟩
      | some a => (g a now (make now a)).map (fun q =>
        ⟨.second a q.state, q.output, p.woken || q.woken, p.alarms ++ q.alarms⟩))
  | now, .second a t =>
    (g a now t).map (fun q => ⟨.second a q.state, q.output, q.woken, q.alarms⟩)

def Then.holds (I : σ → Prop) (K : α → Prop) (J : α → τ → Prop) : Then σ τ α → Prop
  | .first s => I s
  | .second a t => K a ∧ J a t

def Then.dueAt (due : σ → Option Nat) (due' : τ → Option Nat) : Then σ τ α → Option Nat
  | .first s => due s
  | .second _ t => due' t

def Then.leftAt (n : Nat) (left : σ → Nat) (left' : τ → Nat) : Then σ τ α → Nat
  | .first s => left s + n + 1
  | .second _ t => left' t

variable {g : α → Future τ β} {K : α → Prop} {J : α → τ → Prop} {due' : τ → Option Nat}
  {left' : τ → Nat} {S : Nat → β → Prop} {n now : Nat} {a : α} {t : τ} {q : Polled τ β}

theorem Promise.begin (h : Promise (J a) due' left' S now t q) (hd : due' t = none)
    (hl : left' t ≤ n) (ha : K a) (s : σ) (b : Bool) (ts : List Nat) :
    Promise (Then.holds I K J) (Then.dueAt due due') (Then.leftAt n left left') S now (.first s)
      ⟨.second a q.state, q.output, b || q.woken, ts ++ q.alarms⟩ := by
  have hlt : left' t < left s + n + 1 := by omega
  cases h with
  | ready ho hS => exact .ready ho hS
  | woken ho hJ hd' hw hl' =>
    refine .woken ho ⟨ha, hJ⟩ hd' ?_ (Nat.lt_trans hl' hlt)
    simp only [hw, Bool.or_true]
  | armed ho hJ hd' ht hmem hl' =>
    exact .armed ho ⟨ha, hJ⟩ hd' ht (List.mem_append_right _ hmem) (Nat.lt_trans hl' hlt)
  | waiting ho hJ hds hd' ht hw hl' => cases hd.symm.trans hds

theorem Promise.second (h : Promise (J a) due' left' S now t q) (ha : K a) :
    Promise (Then.holds I K J) (Then.dueAt due due') (Then.leftAt n left left') S now (.second a t)
      ⟨.second a q.state, q.output, q.woken, q.alarms⟩ := by
  cases h with
  | ready ho hS => exact .ready ho hS
  | woken ho hJ hd' hw hl' => exact .woken ho ⟨ha, hJ⟩ hd' hw hl'
  | armed ho hJ hd' ht hmem hl' => exact .armed ho ⟨ha, hJ⟩ hd' ht hmem hl'
  | waiting ho hJ hds hd' ht hw hl' => exact .waiting ho ⟨ha, hJ⟩ hds hd' ht hw hl'

theorem Promise.first {s : σ} {p : Polled σ α} (h : Promise I due left R now s p)
    (ho : p.output = none) :
    Promise (Then.holds I K J) (Then.dueAt due due') (Then.leftAt n left left') S now (.first s)
      ⟨.first p.state, none, p.woken, p.alarms⟩ := by
  cases h with
  | ready ho' hR => cases ho.symm.trans ho'
  | woken _ hI hd hw hl =>
    exact .woken rfl hI hd hw (Nat.add_lt_add_right (Nat.add_lt_add_right hl n) 1)
  | armed _ hI hd ht ha hl =>
    exact .armed rfl hI hd ht ha (Nat.add_lt_add_right (Nat.add_lt_add_right hl n) 1)
  | waiting _ hI hds hd ht hw hl =>
    exact .waiting rfl hI hds hd ht hw (Nat.add_le_add_right (Nat.add_le_add_right hl n) 1)

theorem Promise.output {s : σ} {p : Polled σ α} (h : Promise I due left R now s p)
    (ho : p.output = some a) : R now a := by
  cases h with
  | ready ho' hR =>
    cases ho.symm.trans ho'
    exact hR
  | woken ho' => cases ho.symm.trans ho'
  | armed ho' => cases ho.symm.trans ho'
  | waiting ho' => cases ho.symm.trans ho'

theorem Wakes.andThen (hf : Wakes f I due left R) (make : Nat → α → τ)
    (hg : ∀ a, K a → Wakes (g a) (J a) due' left' S)
    (hmake : ∀ now a, R now a →
      K a ∧ J a (make now a) ∧ due' (make now a) = none ∧ left' (make now a) ≤ n) :
    Wakes (Futures.andThen f make g) (Then.holds I K J) (Then.dueAt due due')
      (Then.leftAt n left left') S := by
  intro now s hs
  cases s with
  | first s =>
    obtain ⟨p, hp, hpromise⟩ := hf now s hs
    cases ho : p.output with
    | none =>
      simp only [Futures.andThen, hp, Option.bind_some, ho]
      exact ⟨_, rfl, hpromise.first ho⟩
    | some a =>
      obtain ⟨ha, hJ, hd, hl⟩ := hmake now a (hpromise.output ho)
      obtain ⟨q, hq, hbegin⟩ := hg a ha now _ hJ
      simp only [Futures.andThen, hp, Option.bind_some, ho, hq, Option.map_some]
      exact ⟨_, rfl, hbegin.begin hd hl ha s p.woken p.alarms⟩
  | second a t =>
    obtain ⟨ha, hJ⟩ := hs
    obtain ⟨q, hq, hpromise⟩ := hg a ha now t hJ
    simp only [Futures.andThen, hq, Option.map_some]
    exact ⟨_, rfl, hpromise.second ha⟩

end AndThen

structure Polled.Alike (Rel : σ → τ → Prop) (p : Polled σ α) (q : Polled τ α) : Prop where
  output : p.output = q.output
  woken : p.woken = q.woken
  alarms : p.alarms = q.alarms
  state : p.output = none → Rel p.state q.state

def Simulates (f : Future σ α) (h : Future τ α) (Rel : σ → τ → Prop) : Prop :=
  ∀ now s t, Rel s t → Option.Rel (Polled.Alike Rel) (f now s) (h now t)

structure Task.Alike (Rel : σ → τ → Prop) (s : Task σ α) (t : Task τ α) : Prop where
  now : s.now = t.now
  future : Option.Rel Rel s.future t.future
  scheduled : s.scheduled = t.scheduled
  alarms : s.alarms = t.alarms
  output : s.output = t.output
  panicked : s.panicked = t.panicked

variable {h : Future τ α} {Rel : σ → τ → Prop} {t : Task τ α}

theorem isSome_of_rel {o : Option σ} {o' : Option τ} (h : Option.Rel Rel o o') :
    o.isSome = o'.isSome := by
  cases h with
  | some _ => rfl
  | none => rfl

theorem Task.Alike.step (ht : Task.Alike Rel s t) (hsim : Simulates f h Rel)
    (hs : Futures.step f s l = some s') :
    ∃ t', Futures.step h t l = some t' ∧ Task.Alike Rel s' t' := by
  obtain ⟨now, state, scheduled, alarms, output, panicked⟩ := s
  obtain ⟨now', state', scheduled', alarms', output', panicked'⟩ := t
  obtain ⟨rfl, hstate, rfl, rfl, rfl, rfl⟩ := ht
  cases l with
  | poll =>
    cases hstate with
    | none => cases hs
    | some hrel =>
      simp only [Futures.step] at hs ⊢
      obtain ⟨hscheduled, hs⟩ := Option.ite_none_right_eq_some.1 hs
      rw [if_pos hscheduled]
      have hpolled := hsim now _ _ hrel
      revert hs hpolled
      generalize f now _ = p, h now _ = q
      intro hs hpolled
      cases hpolled with
      | none =>
        cases hs
        exact ⟨_, rfl, rfl, .none, rfl, rfl, rfl, rfl⟩
      | @some p q halike =>
        obtain ⟨pstate, poutput, pwoken, palarms⟩ := p
        obtain ⟨qstate, qoutput, qwoken, qalarms⟩ := q
        obtain ⟨rfl, rfl, rfl, hnext⟩ := halike
        cases poutput with
        | none =>
          cases hs
          exact ⟨_, rfl, rfl, .some (hnext rfl), rfl, rfl, rfl, rfl⟩
        | some a =>
          cases hs
          exact ⟨_, rfl, rfl, .none, rfl, rfl, rfl, rfl⟩
  | tick =>
    cases hs
    exact ⟨_, rfl, rfl, hstate, rfl, rfl, rfl, rfl⟩
  | alarm k =>
    simp only [Futures.step] at hs ⊢
    split at hs
    · cases hs
    · obtain ⟨hle, hs⟩ := Option.ite_none_right_eq_some.1 hs
      cases hs
      rw [if_pos hle]
      exact ⟨_, rfl, rfl, hstate, isSome_of_rel hstate, rfl, rfl, rfl⟩
  | wake =>
    cases hs
    exact ⟨_, rfl, rfl, hstate, isSome_of_rel hstate, rfl, rfl, rfl⟩

theorem run_alike (ht : Task.Alike Rel s t) (hsim : Simulates f h Rel)
    (hr : run (Futures.step f) s ls = some s') :
    ∃ t', run (Futures.step h) t ls = some t' ∧ Task.Alike Rel s' t' := by
  induction ls generalizing s t with
  | nil =>
    cases hr
    exact ⟨t, rfl, ht⟩
  | cons l ls ih =>
    obtain ⟨s₁, hs, hr⟩ := run_cons_eq_some.1 hr
    obtain ⟨t₁, ht₁, halike⟩ := ht.step hsim hs
    obtain ⟨t', hr', ht'⟩ := ih halike hr
    exact ⟨t', (run_cons ht₁).trans hr', ht'⟩

theorem rel_swap {o : Option σ} {o' : Option τ} (h : Option.Rel Rel o o') :
    Option.Rel (fun t s => Rel s t) o' o := by
  cases h with
  | some h => exact .some h
  | none => exact .none

theorem Task.Alike.swap (ht : Task.Alike Rel s t) : Task.Alike (fun t s => Rel s t) t s where
  now := ht.now.symm
  future := rel_swap ht.future
  scheduled := ht.scheduled.symm
  alarms := ht.alarms.symm
  output := ht.output.symm
  panicked := ht.panicked.symm

theorem Simulates.swap (hsim : Simulates f h Rel) : Simulates h f (fun t s => Rel s t) := by
  intro now t s hrel
  have hpolled := hsim now s t hrel
  revert hpolled
  generalize f now s = p, h now t = q
  intro hpolled
  cases hpolled with
  | none => exact .none
  | some halike =>
    obtain ⟨ho, hw, ha, hstate⟩ := halike
    exact .some ⟨ho.symm, hw.symm, ha.symm, fun hnone => hstate (ho.trans hnone)⟩

theorem Completes.of_alike (ht : Task.Alike Rel s t) (hsim : Simulates f h Rel)
    (hc : Completes h R t) : Completes f R s where
  unlost hs := by
    rw [ht.scheduled, ht.alarms]
    exact hc.unlost (isSome_of_rel ht.future ▸ hs)
  output a b he := by
    rw [ht.now]
    exact hc.output a b (ht.output ▸ he)
  retired he ls s' hr := by
    obtain ⟨t', hr', halike⟩ := run_alike ht hsim hr
    obtain ⟨hpoll, hout⟩ := hc.retired (ht.output ▸ he) ls t' hr'
    exact ⟨hpoll, halike.output.trans (hout.trans ht.output.symm)⟩
  unpanicked := ht.panicked.trans hc.unpanicked
  ends := by
    obtain ⟨ls, u, hls, hr, hu⟩ := hc.ends
    obtain ⟨s', hr', halike⟩ := run_alike ht.swap hsim.swap hr
    exact ⟨ls, s', hls, hr', halike.output ▸ hu⟩

end Futures
