import ReverseProxy.Runs
import ReverseProxy.Usize

namespace ReverseProxy.AcceptLoop
open Runs Usize
set_option autoImplicit true

/-- A spawned connection task. `handle_connection` is abstracted to the awaits it has passed. -/
inductive Task
  | handling (awaits : Nat)
  | ended (failed : Bool)
  | done
  | panicked
  | cancelled (awaits : Nat)
deriving DecidableEq, Repr

/-- Where `main` stands. `selecting` is a fresh `select!` none of whose branches was polled. -/
inductive Phase
  | selecting
  | waiting (fired : Bool)
  | leaving
  | stopped
  | failed
  | killed
deriving DecidableEq, Repr

structure State (w : Nat) where
  phase : Phase
  /-- Whether the default action of the signal has been replaced. -/
  installed : Bool
  active : BitVec w
  tasks : List Task
deriving DecidableEq, Repr

def start (w : Nat) : State w := ⟨.selecting, false, 0, []⟩

inductive Label
  | poll
  | accept (polled : Bool)
  | acceptError
  | signal
  | takeShutdown
  | mainReturns
  | advance (i : Nat)
  | finish (i : Nat) (failed : Bool)
  | panic (i : Nat)
  | decrement (i : Nat)
deriving DecidableEq, Repr

/-- Dropping the runtime cuts a task off at the await it stands at. -/
def Task.cancel : Task → Task
  | .handling k => .cancelled k
  | t => t

def State.endProcess (s : State w) (p : Phase) : State w :=
  { s with phase := p, tasks := s.tasks.map Task.cancel }

def State.setTask (s : State w) (i : Nat) (t : Task) : State w :=
  { s with tasks := s.tasks.set i t }

/-- The steps of `main` and of the tasks it spawned. A signal that finds no registered listener
is lost, and before the first registration it kills the process. Left out is that the sum in the log
line of a new connection overflows where the counter does. -/
def step (m : Overflow) (s : State w) : Label → Option (State w)
  | .poll =>
    match s.phase with
    | .selecting => some { s with phase := .waiting false, installed := true }
    | _ => none
  | .accept polled =>
    match s.phase with
    | .selecting | .waiting _ =>
      some { phase := .selecting, installed := s.installed || polled, active := s.active + 1,
             tasks := s.tasks ++ [.handling 0] }
    | _ => none
  | .acceptError =>
    match s.phase with
    | .selecting | .waiting _ => some (s.endProcess .failed)
    | _ => none
  | .signal =>
    match s.phase with
    | .selecting => if s.installed then some s else some (s.endProcess .killed)
    | .waiting _ => some { s with phase := .waiting true }
    | .leaving => some s
    | _ => none
  | .takeShutdown =>
    match s.phase with
    | .waiting true => some { s with phase := .leaving }
    | _ => none
  | .mainReturns =>
    match s.phase with
    | .leaving => some (s.endProcess .stopped)
    | _ => none
  | .advance i =>
    match s.tasks[i]? with
    | some (.handling k) => some (s.setTask i (.handling (k + 1)))
    | _ => none
  | .finish i failed =>
    match s.tasks[i]? with
    | some (.handling _) => some (s.setTask i (.ended failed))
    | _ => none
  | .panic i =>
    match s.tasks[i]? with
    | some (.handling _) => some (s.setTask i .panicked)
    | _ => none
  | .decrement i =>
    match s.tasks[i]? with
    | some (.ended _) =>
      let t := if (Usize.sub m s.active 1).isSome then Task.done else Task.panicked
      some { s.setTask i t with active := s.active - 1 }
    | _ => none

end ReverseProxy.AcceptLoop
