import ReverseProxy.Relay
import ReverseProxy.Runs

namespace Relay
open Relation Runs Segments
set_option autoImplicit true

/-- An end of a connection: what it sends, and how many bytes it takes before it leaves off reading
for good, if it ever does. -/
structure Party (α : Type u) where
  sends : Stream α
  takes : Option Nat

inductive Flow.Move (takes : Option Nat) : Flow α → Flow α → Prop
  | read {f : Flow α} : f.source.read cap = .data xs rest →
      Move takes f { f with source := rest, held := f.held ++ xs }
  | write {f : Flow α} : (∀ n ∈ takes, (f.written ++ f.held.take k).length ≤ n) →
      Move takes f { f with held := f.held.drop k, written := f.written ++ f.held.take k }

abbrev Flow.Moves (takes : Option Nat) : Flow α → Flow α → Prop := ReflTransGen (Flow.Move takes)

inductive Failure
  | read
  | write
deriving DecidableEq, Repr

/-- What copies one way, from a source to a sink that takes so much; `fails` are the steps in which
a write fails. -/
structure Pump (S : Type v) (L : Type) (α : Type u) where
  start : Stream α → S
  step : Option Nat → S → L → Option S
  fails : L → Bool
  flow : S → Flow α
  result : S → Option (Except Failure Nat)

/-- A pump reads and writes and shuts nothing down. It returns how much it has written once there is
nothing more to write, or which of the two failed, and goes on for as long as it can. -/
structure Pump.Conforms (p : Pump S L α) : Prop where
  start : ∀ a, p.flow (p.start a) = .start a ∧ p.result (p.start a) = none
  step : ∀ takes s l s', p.step takes s l = some s' →
    p.result s = none ∧ (p.flow s).Moves takes (p.flow s')
  copied : ∀ takes s l s' n, p.step takes s l = some s' → p.result s' = some (.ok n) →
    (p.flow s').source.read 1 = .stop .eof ∧ (p.flow s').held = [] ∧
      n = (p.flow s').written.length
  readFailed : ∀ takes s l s', p.step takes s l = some s' →
    p.result s' = some (.error .read) → (p.flow s').source.read 1 = .stop .error
  writeFailed : ∀ takes s l s', p.step takes s l = some s' →
    p.result s' = some (.error .write) → p.fails l = true
  goesOn : ∀ takes s, p.result s = none →
    (∀ l, p.fails l = false → p.step takes s l = none) →
    (p.flow s).held = [] ∧ (p.flow s).source.read 1 = .stop .idle ∨
      (p.flow s).held ≠ [] ∧ ∃ n ∈ takes, n ≤ (p.flow s).written.length

structure Pump.Carries (p : Pump S L α) (source : Stream α) (takes : Option Nat) (s : S) :
    Prop where
  flow : (p.flow s).Carries source
  unshut : (p.flow s).shut = false
  within : ∀ n ∈ takes, (p.flow s).written.length ≤ n
  copied : ∀ n, p.result s = some (.ok n) →
    (p.flow s).written = source.contents ∧ source.ending = .eof ∧ n = source.contents.length
  failed : p.result s = some (.error .read) → source.ending = .error

/-- What a copy waits for that does not go on: more from its source, when it has written all there
was, or room for the rest. -/
inductive Flow.Waits (source : Stream α) (takes : Option Nat) (f : Flow α) : Prop
  | source : f.written = source.contents → source.ending = .idle → Waits source takes f
  | sink : takes = some f.written.length → f.written ≠ source.contents → Waits source takes f

variable {α : Type u} {S : Type v} {L : Type} {f f' : Flow α} {source : Stream α}
  {takes : Option Nat} {p : Pump S L α}

theorem Flow.Move.step (h : f.Move takes f') : f.Step f' := by
  cases h with
  | read hread => exact .read hread
  | write _ => exact .write

theorem Flow.Moves.steps (h : f.Moves takes f') : f.Steps f' :=
  h.lift id (fun _ _ => Flow.Move.step)

/-- Neither reads nor writes shut the sink down, and it is given no more than it takes. -/
theorem Flow.Moves.within (h : f.Moves takes f') (hf : f.shut = false)
    (hn : ∀ n ∈ takes, f.written.length ≤ n) :
    f'.shut = false ∧ ∀ n ∈ takes, f'.written.length ≤ n := by
  induction h with
  | refl => exact ⟨hf, hn⟩
  | tail _ hm ih =>
    cases hm with
    | read _ => exact ih
    | write hroom => exact ⟨ih.1, hroom⟩

theorem Pump.Conforms.start_carries (hp : p.Conforms) (source : Stream α) (takes : Option Nat) :
    p.Carries source takes (p.start source) := by
  obtain ⟨hflow, hresult⟩ := hp.start source
  refine ⟨?_, ?_, ?_, fun n hn => ?_, fun hf => ?_⟩
  · rw [hflow]
    exact Flow.start_carries source
  · rw [hflow]
    rfl
  · rw [hflow]
    exact fun n _ => Nat.zero_le n
  · cases hresult.symm.trans hn
  · cases hresult.symm.trans hf

theorem Pump.Carries.step (h : p.Carries source takes s) (hp : p.Conforms)
    (hs : p.step takes s l = some s') : p.Carries source takes s' := by
  have hmoves := (hp.step takes s l s' hs).2
  have hflow := h.flow.steps hmoves.steps
  obtain ⟨hunshut, hwithin⟩ := hmoves.within h.unshut h.within
  refine ⟨hflow, hunshut, hwithin, fun n hn => ?_, fun hf => ?_⟩
  · obtain ⟨hread, hheld, rfl⟩ := hp.copied takes s l s' n hs hn
    obtain ⟨hcontents, hending⟩ := Stream.read_stop hread
    have hwritten := hflow.contents
    rw [hheld, hcontents, List.append_nil, List.append_nil] at hwritten
    exact ⟨hwritten, hflow.ending.symm.trans hending, by rw [hwritten]⟩
  · exact hflow.ending.symm.trans (Stream.read_stop (hp.readFailed takes s l s' hs hf)).2

theorem Pump.Conforms.run_carries (hp : p.Conforms)
    (hr : run (p.step takes) (p.start source) ls = some s) : p.Carries source takes s :=
  run_invariant (fun _ _ _ h hs => h.step hp hs) (hp.start_carries source takes) hr

theorem Pump.Carries.waits (h : p.Carries source takes s) (hp : p.Conforms)
    (hr : p.result s = none) (hstuck : ∀ l, p.fails l = false → p.step takes s l = none) :
    (p.flow s).Waits source takes := by
  rcases hp.goesOn takes s hr hstuck with ⟨hheld, hread⟩ | ⟨hheld, n, hn, hfull⟩
  · obtain ⟨hcontents, hending⟩ := Stream.read_stop hread
    have hwritten := h.flow.contents
    rw [hheld, hcontents, List.append_nil, List.append_nil] at hwritten
    exact .source hwritten (h.flow.ending.symm.trans hending)
  · obtain rfl := Nat.le_antisymm hfull (h.within n hn)
    refine .sink hn fun hwritten => hheld ?_
    have hcontents := h.flow.contents
    rw [hwritten, List.append_right_eq_self] at hcontents
    exact (List.append_eq_nil_iff.1 hcontents).1

structure Copy (α : Type u) where
  flow : Flow α
  result : Option (Except Failure Nat)

inductive CopyMove
  | read (cap : Nat)
  | write (k : Nat)
  | finish
  | failRead
  | failWrite
deriving DecidableEq, Repr

def Copy.start (source : Stream α) : Copy α := ⟨.start source, none⟩

def Copy.set (c : Copy α) (flow : Flow α) : Copy α := { c with flow := flow }

/-- `room` says how much it may read behind what it holds. -/
def Copy.step (room : Nat → Nat → Bool) (takes : Option Nat) (c : Copy α) (v : CopyMove) :
    Option (Copy α) :=
  match c.result, v with
  | none, .read cap =>
    if 0 < cap ∧ room c.flow.held.length cap then (c.flow.read cap).map c.set else none
  | none, .write k =>
    if 0 < k ∧ k ≤ c.flow.held.length ∧ ∀ n ∈ takes, c.flow.written.length + k ≤ n then
      (c.flow.write k).map c.set
    else none
  | none, .finish =>
    match c.flow.source.read 1, c.flow.held with
    | .stop .eof, [] => some { c with result := some (.ok c.flow.written.length) }
    | _, _ => none
  | none, .failRead =>
    match c.flow.source.read 1 with
    | .stop .error => some { c with result := some (.error .read) }
    | _ => none
  | none, .failWrite =>
    if c.flow.held = [] then none else some { c with result := some (.error .write) }
  | some _, _ => none

inductive Copy.Effect (room : Nat → Nat → Bool) (takes : Option Nat) (c : Copy α) :
    CopyMove → Copy α → Prop
  | read {flow : Flow α} : 0 < cap → room c.flow.held.length cap = true →
      c.flow.read cap = some flow → Effect room takes c (.read cap) (c.set flow)
  | write : 0 < k → k ≤ c.flow.held.length → (∀ n ∈ takes, c.flow.written.length + k ≤ n) →
      Effect room takes c (.write k)
        (c.set { c.flow with held := c.flow.held.drop k,
                             written := c.flow.written ++ c.flow.held.take k })
  | finish : c.flow.source.read 1 = .stop .eof → c.flow.held = [] →
      Effect room takes c .finish { c with result := some (.ok c.flow.written.length) }
  | failRead : c.flow.source.read 1 = .stop .error →
      Effect room takes c .failRead { c with result := some (.error .read) }
  | failWrite : c.flow.held ≠ [] →
      Effect room takes c .failWrite { c with result := some (.error .write) }

variable {room : Nat → Nat → Bool} {c c' : Copy α}

theorem Copy.step_effect (h : c.step room takes v = some c') :
    c.result = none ∧ Copy.Effect room takes c v c' := by
  unfold Copy.step at h
  split at h
  · next hr =>
    obtain ⟨⟨hcap, hroom⟩, h⟩ := Option.ite_none_right_eq_some.1 h
    obtain ⟨flow, hflow, rfl⟩ := Option.map_eq_some_iff.1 h
    exact ⟨hr, .read hcap hroom hflow⟩
  · next hr =>
    obtain ⟨⟨hk, hle, hn⟩, h⟩ := Option.ite_none_right_eq_some.1 h
    cases h
    exact ⟨hr, .write hk hle hn⟩
  · next hr =>
    split at h
    · next hread hheld =>
      cases h
      exact ⟨hr, .finish hread hheld⟩
    · cases h
  · next hr =>
    split at h
    · next hread =>
      cases h
      exact ⟨hr, .failRead hread⟩
    · cases h
  · next hr =>
    split at h
    · cases h
    · next hheld =>
      cases h
      exact ⟨hr, .failWrite hheld⟩
  · cases h

/-- What is still to be read is also still to be written. -/
def Copy.left (c : Copy α) : Nat :=
  2 * c.flow.source.contents.length + c.flow.held.length + if c.result.isSome then 0 else 1

theorem Copy.step_left (h : c.step room takes v = some c') : c'.left < c.left := by
  obtain ⟨hr, he⟩ := Copy.step_effect h
  cases he with
  | @read cap flow hcap hroom hflow =>
    unfold Flow.read at hflow
    split at hflow
    · next xs rest hread =>
      cases hflow
      have hlength := congrArg List.length (Stream.read_data hread).1
      have hpos := List.length_pos_iff.2 (Stream.read_data_ne hread hcap)
      simp only [Copy.left, Copy.set, hr, List.length_append] at hlength ⊢
      omega
    · cases hflow
  | write hk hle _ =>
    simp only [Copy.left, Copy.set, hr, List.length_drop]
    omega
  | finish hread hheld => simp [Copy.left, hr]
  | failRead hread => simp [Copy.left, hr]
  | failWrite hheld => simp [Copy.left, hr]

theorem Copy.exists_step (hroom : ∃ cap, 0 < cap ∧ room 0 cap = true) (hr : c.result = none) :
    (∃ v c', v ≠ .failWrite ∧ c.step room takes v = some c') ∨
      c.flow.held = [] ∧ c.flow.source.read 1 = .stop .idle ∨
      c.flow.held ≠ [] ∧ ∃ n ∈ takes, n ≤ c.flow.written.length := by
  cases hheld : c.flow.held with
  | cons a held =>
    by_cases hn : ∀ n ∈ takes, c.flow.written.length + 1 ≤ n
    · have hwrite : c.step room takes (.write 1) = (c.flow.write 1).map c.set := by
        simp only [Copy.step, hr]
        exact if_pos ⟨Nat.one_pos, by simp [hheld], hn⟩
      exact .inl ⟨.write 1, _, nofun, hwrite⟩
    · obtain ⟨n, hn⟩ := not_forall.1 hn
      obtain ⟨hmem, hlt⟩ := Classical.not_imp.1 hn
      exact .inr (.inr ⟨List.cons_ne_nil a held, n, hmem, Nat.le_of_lt_succ (Nat.lt_of_not_le hlt)⟩)
  | nil =>
    obtain ⟨cap, hcap, hroom⟩ := hroom
    rcases c.flow.source.read_first 1 with ⟨_, hstop⟩ | ⟨hne, _⟩
    · cases hending : c.flow.source.ending with
      | eof =>
        refine .inl ⟨.finish, { c with result := some (.ok c.flow.written.length) }, nofun, ?_⟩
        simp [Copy.step, hr, hstop, hending, hheld]
      | error =>
        refine .inl ⟨.failRead, { c with result := some (.error .read) }, nofun, ?_⟩
        simp [Copy.step, hr, hstop, hending]
      | idle => exact .inr (.inl ⟨rfl, hending ▸ hstop⟩)
    · rcases c.flow.source.read_first cap with ⟨hnil, _⟩ | ⟨_, k, rest, _, hread⟩
      · exact (hne hnil).elim
      · refine .inl ⟨.read cap, c.set { c.flow with
          source := rest, held := c.flow.held ++ c.flow.source.contents.take k }, nofun, ?_⟩
        simp [Copy.step, hr, hcap, hheld, hroom, Flow.read, hread]

def Copy.pump (room : Nat → Nat → Bool) : Pump (Copy α) CopyMove α where
  start := .start
  step := Copy.step room
  fails v := v == .failWrite
  flow := Copy.flow
  result := Copy.result

theorem Copy.step_moves (h : c.step room takes v = some c') : c.flow.Moves takes c'.flow := by
  obtain ⟨_, he⟩ := Copy.step_effect h
  cases he with
  | @read cap flow _ _ hflow =>
    unfold Flow.read at hflow
    split at hflow
    · next hread =>
      cases hflow
      exact .single (.read hread)
    · cases hflow
  | @write k _ hle hn =>
    refine .single (.write fun n hmem => ?_)
    rw [List.length_append, List.length_take, Nat.min_eq_left hle]
    exact hn n hmem
  | finish _ _ => exact .refl
  | failRead _ => exact .refl
  | failWrite _ => exact .refl

theorem Copy.pump_conforms (hroom : ∃ cap, 0 < cap ∧ room 0 cap = true) :
    (Copy.pump room : Pump (Copy α) CopyMove α).Conforms where
  start _ := ⟨rfl, rfl⟩
  step _ _ _ _ h := ⟨(Copy.step_effect h).1, Copy.step_moves h⟩
  copied takes c v c' n h hn := by
    obtain ⟨hr, he⟩ := Copy.step_effect h
    cases he with
    | read _ _ _ => cases hr.symm.trans hn
    | write _ _ _ => cases hr.symm.trans hn
    | finish hread hheld =>
      cases hn
      exact ⟨hread, hheld, rfl⟩
    | failRead _ => cases hn
    | failWrite _ => cases hn
  readFailed takes c v c' h hf := by
    obtain ⟨hr, he⟩ := Copy.step_effect h
    cases he with
    | read _ _ _ => cases hr.symm.trans hf
    | write _ _ _ => cases hr.symm.trans hf
    | finish _ _ => cases hf
    | failRead hread => exact hread
    | failWrite _ => cases hf
  writeFailed takes c v c' h hf := by
    obtain ⟨hr, he⟩ := Copy.step_effect h
    cases he with
    | read _ _ _ => cases hr.symm.trans hf
    | write _ _ _ => cases hr.symm.trans hf
    | finish _ _ => cases hf
    | failRead _ => cases hf
    | failWrite _ => rfl
  goesOn takes c hr hstuck := by
    rcases Copy.exists_step hroom hr with ⟨v, c', hne, hs⟩ | hwaits
    · cases (hstuck v (beq_false_of_ne hne)).symm.trans hs
    · exact hwaits

theorem Copy.run_length_le (hr : run (Copy.step room takes) (Copy.start source) vs = some c) :
    vs.length ≤ 2 * source.contents.length + 1 := by
  have hle := Runs.run_length_le Copy.left (fun _ _ _ hs => Copy.step_left hs) hr
  have hstart : (Copy.start source).left = 2 * source.contents.length + 1 := rfl
  omega

end Relay
