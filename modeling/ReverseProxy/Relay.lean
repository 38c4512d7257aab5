import Mathlib.Data.List.Infix
import Mathlib.Logic.Relation
import ReverseProxy.Segments

namespace Relay
open Relation Segments
set_option autoImplicit true

/-- One direction of a relay: what its source still sends, what has been read and not written yet,
what its sink was given, and whether the sink was shut down. -/
structure Flow (α : Type u) where
  source : Stream α
  held : List α
  written : List α
  shut : Bool

def Flow.start (source : Stream α) : Flow α := ⟨source, [], [], false⟩

/-- A read adds to what is held, and a write takes from the front of it. The sink is shut down once
the source has ended and nothing is held. -/
inductive Flow.Step : Flow α → Flow α → Prop
  | read : f.source.read cap = .data xs rest →
      Step f { f with source := rest, held := f.held ++ xs }
  | write : Step f { f with held := f.held.drop k, written := f.written ++ f.held.take k }
  | shut : f.source.read cap = .stop .eof → f.held = [] → Step f { f with shut := true }

abbrev Flow.Steps : Flow α → Flow α → Prop := ReflTransGen Flow.Step

/-- The sink was given the contents of the source from the start, in order, and was shut down behind
the last of them only. -/
structure Flow.Carries (source : Stream α) (f : Flow α) : Prop where
  contents : f.written ++ (f.held ++ f.source.contents) = source.contents
  ending : f.source.ending = source.ending
  shut : f.shut = true → f.written = source.contents ∧ source.ending = .eof

variable {f f' : Flow α} {source : Stream α}

theorem Flow.start_carries (source : Stream α) : (Flow.start source).Carries source where
  contents := rfl
  ending := rfl
  shut := nofun

theorem Flow.Carries.held_of_shut (h : f.Carries source) (hs : f.shut = true) : f.held = [] := by
  have hc := h.contents
  rw [(h.shut hs).1, List.append_right_eq_self] at hc
  exact (List.append_eq_nil_iff.1 hc).1

theorem Flow.Carries.step (h : f.Carries source) (hs : f.Step f') : f'.Carries source := by
  cases hs with
  | read hread =>
    obtain ⟨hcontents, hending⟩ := Stream.read_data hread
    refine ⟨?_, hending.trans h.ending, h.shut⟩
    rw [List.append_assoc, hcontents]
    exact h.contents
  | @write k =>
    refine ⟨?_, h.ending, fun hs => ?_⟩
    · rw [List.append_assoc, ← List.append_assoc (f.held.take k), List.take_append_drop]
      exact h.contents
    · rw [h.held_of_shut hs, List.take_nil, List.append_nil]
      exact h.shut hs
  | shut hread hheld =>
    obtain ⟨hcontents, hending⟩ := Stream.read_stop hread
    refine ⟨h.contents, h.ending, fun _ => ⟨?_, h.ending.symm.trans hending⟩⟩
    have hc := h.contents
    rwa [hheld, hcontents, List.append_nil, List.append_nil] at hc

theorem Flow.Carries.steps (h : f.Carries source) (hs : f.Steps f') : f'.Carries source := by
  induction hs with
  | refl => exact h
  | tail _ hs ih => exact ih.step hs

theorem Flow.Carries.isPrefix (h : f.Carries source) : f.written <+: source.contents :=
  ⟨_, h.contents⟩

/-- What copies between two streams, one flow a way; `ended` says whether it has ended, and
well. -/
structure Copier (S L : Type) (α : Type u) where
  start : Stream α → Stream α → S
  step : S → L → Option S
  up : S → Flow α
  down : S → Flow α
  ended : S → Option Bool

/-- A copier reads, writes and shuts down as a relay does, and ends well only behind both ends. -/
structure Copier.Conforms (c : Copier S L α) : Prop where
  start : ∀ a b, c.up (c.start a b) = .start a ∧ c.down (c.start a b) = .start b
  step : ∀ s l s', c.step s l = some s' →
    (c.up s).Steps (c.up s') ∧ (c.down s).Steps (c.down s')
  ended : ∀ s, c.ended s = some true → (c.up s).shut = true ∧ (c.down s).shut = true

variable {S L : Type} {c : Copier S L α}

structure Copier.Carries (c : Copier S L α) (a b : Stream α) (s : S) : Prop where
  up : (c.up s).Carries a
  down : (c.down s).Carries b

theorem Copier.Conforms.start_carries (hc : c.Conforms) (a b : Stream α) :
    c.Carries a b (c.start a b) where
  up := (hc.start a b).1 ▸ Flow.start_carries a
  down := (hc.start a b).2 ▸ Flow.start_carries b

theorem Copier.Carries.step {a b : Stream α} (h : c.Carries a b s) (hc : c.Conforms)
    (hs : c.step s l = some s') : c.Carries a b s' where
  up := h.up.steps (hc.step s l s' hs).1
  down := h.down.steps (hc.step s l s' hs).2

inductive Side
  | up
  | down
deriving DecidableEq, Repr

inductive CopyAct
  | read (d : Side) (cap : Nat)
  | write (d : Side) (k : Nat)
  | shut (d : Side)
  | fail
deriving DecidableEq, Repr

structure Pair (α : Type) where
  up : Flow α
  down : Flow α
  failed : Bool

def Pair.update (p : Pair α) (f : Flow α → Option (Flow α)) : Side → Option (Pair α)
  | .up => (f p.up).map (fun up => { p with up := up })
  | .down => (f p.down).map (fun down => { p with down := down })

def Flow.read (cap : Nat) (f : Flow α) : Option (Flow α) :=
  match f.source.read cap with
  | .data xs rest => some { f with source := rest, held := f.held ++ xs }
  | .stop _ => none

def Flow.write (k : Nat) (f : Flow α) : Option (Flow α) :=
  some { f with held := f.held.drop k, written := f.written ++ f.held.take k }

def Flow.close (f : Flow α) : Option (Flow α) :=
  match f.source.read 1, f.held with
  | .stop .eof, [] => some { f with shut := true }
  | _, _ => none

/-- A copier that makes one move at a time, and stops at the first error. -/
def plain : Copier (Pair α) CopyAct α where
  start a b := ⟨.start a, .start b, false⟩
  step p
    | .read d cap => p.update (Flow.read cap) d
    | .write d k => p.update (Flow.write k) d
    | .shut d => p.update Flow.close d
    | .fail => some { p with failed := true }
  up := Pair.up
  down := Pair.down
  ended p :=
    if p.failed then some false
    else if p.up.shut && p.down.shut then some true
    else none

end Relay
