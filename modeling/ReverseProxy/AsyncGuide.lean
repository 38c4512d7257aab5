import ReverseProxy.Futures

namespace ReverseProxy.AsyncGuide
open Futures Runs
set_option autoImplicit true

/-- `Countdown::poll`, which two of the examples have, with an output of its own each. -/
def Countdown.poll (text : String) : Future Nat String
  | _, 0 => some ⟨0, some text, false, []⟩
  | _, count + 1 => some ⟨count, none, true, []⟩

structure DelayedValue where
  value : String
  deadline : Nat
  wakerSet : Bool
deriving DecidableEq, Repr

def DelayedValue.new (value : String) (delay now : Nat) : DelayedValue :=
  ⟨value, now + delay, false⟩

/-- The alarm is a thread that sleeps until the deadline. -/
def DelayedValue.poll : Future DelayedValue String := fun now s =>
  if s.deadline ≤ now then some ⟨s, some s.value, false, []⟩
  else if s.wakerSet then some ⟨s, none, false, []⟩
  else some ⟨{ s with wakerSet := true }, none, false, [s.deadline]⟩

inductive State
  | notStarted
  | waitingStep1 (pollsRemaining : Nat)
  | waitingStep2 (step1Result : String) (pollsRemaining : Nat)
  | completed
deriving DecidableEq, Repr

def State.pollStep2 (step1Result : String) : Nat → Option (Polled State String)
  | 0 => some ⟨.completed, some (step1Result ++ " then data-from-step-2"), false, []⟩
  | k + 1 => some ⟨.waitingStep2 step1Result k, none, true, []⟩

-- The loop of `poll` comes around when the first step is over, to begin with the second.
def State.pollStep1 : Nat → Option (Polled State String)
  | 0 => State.pollStep2 "data-from-step-1" 2
  | k + 1 => some ⟨.waitingStep1 k, none, true, []⟩

def TwoStepJob.poll : Future State String
  | _, .notStarted => State.pollStep1 2
  | _, .waitingStep1 k => State.pollStep1 k
  | _, .waitingStep2 r k => State.pollStep2 r k
  | _, .completed => none

/-- `tokio::time::sleep` and how it is polled. -/
structure Sleep (S : Type) where
  timer : Nat → S
  poll : Future S Unit

def Sleep.Conforms (sleep : Sleep S) : Prop :=
  ∃ I due left n, Wakes sleep.poll I due left (fun _ _ => True) ∧
    ∀ d, I (sleep.timer d) ∧ due (sleep.timer d) = none ∧ left (sleep.timer d) ≤ n

def value (v : α) : Future Unit α := fun _ _ => some ⟨(), some v, false, []⟩

/-- An async function that sleeps for 100 ms and returns `v`; it does nothing before it is
polled. -/
def delayed (sleep : Sleep S) (v : α) : Future (Then Unit (Then S Unit Unit) Unit) α :=
  andThen (value ()) (fun now _ => .first (sleep.timer (now + 100))) (fun _ =>
    andThen sleep.poll (fun _ _ => ()) (fun _ => value v))

def stepOne (sleep : Sleep S) : Future (Then Unit (Then S Unit Unit) Unit) String :=
  delayed sleep "data-from-step-1"

def stepTwo (sleep : Sleep S) (input : String) :
    Future (Then Unit (Then S Unit Unit) Unit) String :=
  delayed sleep (input ++ " then data-from-step-2")

def twoStepJobReal (sleep : Sleep S) :
    Future (Then (Then Unit (Then S Unit Unit) Unit) (Then Unit (Then S Unit Unit) Unit) String)
      String :=
  andThen (stepOne sleep) (fun _ _ => .first ()) (stepTwo sleep)

theorem countdown_wakes (text : String) :
    Wakes (Countdown.poll text) (fun _ => True) (fun _ => none) id (fun _ a => a = text) := by
  intro now s _
  cases s with
  | zero => exact ⟨_, rfl, .ready rfl rfl⟩
  | succ count => exact ⟨_, rfl, .woken rfl trivial rfl rfl (Nat.lt_succ_self count)⟩

inductive Counting (s : Task Nat String) : Nat → Prop
  | going : s.future = some c → s.scheduled = true → s.output = none → s.alarms = [] →
      Counting s (c + 1)
  | liftoff : s.future = none → s.output.isSome = true → s.alarms = [] → Counting s 0

theorem Counting.step {s s' : Task Nat String} (h : Counting s n)
    (hs : Futures.step (Countdown.poll text) s l = some s') :
    ∃ n', Counting s' n' ∧ [l].count .poll + n' = n := by
  cases h with
  | @going c hfuture hscheduled houtput halarms =>
    cases l with
    | poll =>
      simp only [Futures.step, hfuture, hscheduled, if_true] at hs
      cases c with
      | zero =>
        cases hs
        exact ⟨0, .liftoff rfl rfl (by rw [halarms]; rfl), rfl⟩
      | succ c =>
        cases hs
        exact ⟨c + 1, .going rfl rfl houtput (by rw [halarms]; rfl), Nat.add_comm 1 (c + 1)⟩
    | tick =>
      cases hs
      exact ⟨c + 1, .going hfuture hscheduled houtput halarms, Nat.zero_add _⟩
    | alarm k =>
      simp only [Futures.step, halarms] at hs
      cases hs
    | wake =>
      cases hs
      exact ⟨c + 1, .going hfuture (by rw [hfuture]; rfl) houtput halarms, Nat.zero_add _⟩
  | liftoff hfuture houtput halarms =>
    cases l with
    | poll =>
      simp only [Futures.step, hfuture] at hs
      cases hs
    | tick =>
      cases hs
      exact ⟨0, .liftoff hfuture houtput halarms, rfl⟩
    | alarm k =>
      simp only [Futures.step, halarms] at hs
      cases hs
    | wake =>
      cases hs
      exact ⟨0, .liftoff hfuture houtput halarms, rfl⟩

theorem Counting.run {s s' : Task Nat String} (h : Counting s n)
    (hr : Runs.run (Futures.step (Countdown.poll text)) s ls = some s') :
    ∃ n', Counting s' n' ∧ ls.count .poll + n' = n := by
  induction ls generalizing s n with
  | nil =>
    cases hr
    exact ⟨n, h, Nat.zero_add n⟩
  | cons l ls ih =>
    obtain ⟨s₁, hs, hr⟩ := run_cons_eq_some.1 hr
    obtain ⟨n₁, h₁, hn₁⟩ := h.step hs
    obtain ⟨n', h', hn'⟩ := ih h₁ hr
    refine ⟨n', h', ?_⟩
    rw [← List.singleton_append, List.count_append]
    omega

/-- A countdown from `count` is ready at its poll number `count + 1`, whoever else wakes its task,
and is scheduled until then. -/
theorem countdown_polls (text : String) (count now : Nat) (ls : List Label)
    (s : Task Nat String) (hr : run (step (Countdown.poll text)) (spawn now count) ls = some s) :
    Completes (Countdown.poll text) (fun _ a => a = text) s ∧ ls.count .poll ≤ count + 1 ∧
      (s.output.isSome = true ↔ ls.count .poll = count + 1) ∧
      (s.future.isSome = true → s.scheduled = true) := by
  refine ⟨run_completes (countdown_wakes text) trivial rfl hr, ?_⟩
  have hstart : Counting (spawn now count) (count + 1) := .going rfl rfl rfl rfl
  obtain ⟨n, h, hn⟩ := hstart.run hr
  cases h with
  | @going c hfuture hscheduled houtput halarms =>
    refine ⟨by omega, ?_, fun _ => hscheduled⟩
    rw [houtput]
    exact ⟨fun h => (by cases h), fun h => (by omega)⟩
  | liftoff hfuture houtput halarms =>
    refine ⟨by omega, ⟨fun _ => by omega, fun _ => houtput⟩, fun h => ?_⟩
    rw [hfuture] at h
    cases h

theorem countdown_polls_woken :
    let s : Task Nat String := ⟨1, none, false, [], some (1, "Liftoff!"), false⟩
    Completes (Countdown.poll "Liftoff!") (fun _ a => a = "Liftoff!") s :=
  (countdown_polls "Liftoff!" 3 0 [.poll, .wake, .poll, .tick, .poll, .poll] _ rfl).1

def DelayedValue.due (s : DelayedValue) : Option Nat :=
  if s.wakerSet then some s.deadline else none

def DelayedValue.left (s : DelayedValue) : Nat :=
  if s.wakerSet then 0 else 1

theorem delayedValue_wakes (v : String) (deadline : Nat) :
    Wakes DelayedValue.poll (fun s => s.value = v ∧ s.deadline = deadline) DelayedValue.due
      DelayedValue.left (fun now a => a = v ∧ deadline ≤ now) := by
  rintro now ⟨v, deadline, wakerSet⟩ ⟨rfl, rfl⟩
  unfold DelayedValue.poll
  split
  · next hle => exact ⟨_, rfl, .ready rfl ⟨rfl, hle⟩⟩
  · next hlt =>
    cases wakerSet with
    | false =>
      exact ⟨_, rfl, .armed rfl ⟨rfl, rfl⟩ rfl (Nat.lt_of_not_le hlt) (List.mem_singleton_self _)
        Nat.one_pos⟩
    | true =>
      exact ⟨_, rfl, .waiting rfl ⟨rfl, rfl⟩ rfl rfl (Nat.lt_of_not_le hlt) rfl (Nat.le_refl 0)⟩

def threads (s : Task DelayedValue String) : Nat :=
  s.alarms.length + (s.future.map DelayedValue.left).getD 0

theorem poll_alarms (now : Nat) (s : DelayedValue) :
    ∃ p, DelayedValue.poll now s = some p ∧ p.alarms.length + p.state.left ≤ s.left := by
  obtain ⟨v, deadline, wakerSet⟩ := s
  unfold DelayedValue.poll
  split
  · exact ⟨_, rfl, Nat.le_of_eq (Nat.zero_add _)⟩
  · cases wakerSet with
    | false => exact ⟨_, rfl, Nat.le_refl 1⟩
    | true => exact ⟨_, rfl, Nat.le_refl 0⟩

theorem step_threads {s s' : Task DelayedValue String} (h : step DelayedValue.poll s l = some s') :
    threads s' ≤ threads s := by
  cases l with
  | poll =>
    simp only [step] at h
    split at h
    · cases h
    · next state hstate =>
      obtain ⟨_, h⟩ := Option.ite_none_right_eq_some.1 h
      obtain ⟨p, hp, hle⟩ := poll_alarms s.now state
      simp only [hp] at h
      split at h
      · cases h
        simp only [threads, hstate, List.length_append, Option.map_some, Option.map_none,
          Option.getD_some, Option.getD_none]
        omega
      · cases h
        simp only [threads, hstate, List.length_append, Option.map_some, Option.getD_some]
        omega
  | tick =>
    cases h
    exact Nat.le_refl _
  | alarm k =>
    simp only [step] at h
    split at h
    · cases h
    · obtain ⟨_, h⟩ := Option.ite_none_right_eq_some.1 h
      cases h
      exact Nat.add_le_add_right (List.length_eraseIdx_le _ _) _
  | wake =>
    cases h
    exact Nat.le_refl _

/-- A delayed value comes with its deadline and not before, whenever its task is polled, and one
thread is enough for that. -/
theorem delayedValue_completes (v : String) (delay now : Nat) (ls : List Label)
    (s : Task DelayedValue String)
    (hr : run (step DelayedValue.poll) (spawn now (.new v delay now)) ls = some s) :
    Completes DelayedValue.poll (fun t a => a = v ∧ now + delay ≤ t) s ∧ s.alarms.length ≤ 1 := by
  refine ⟨run_completes (delayedValue_wakes v (now + delay)) ⟨rfl, rfl⟩ rfl hr, ?_⟩
  have hthreads : threads s ≤ 1 :=
    run_invariant (I := fun s => threads s ≤ 1)
      (fun _ _ _ h hs => Nat.le_trans (step_threads hs) h)
      (show threads (spawn now (.new v delay now)) ≤ 1 from Nat.le_refl 1) hr
  exact Nat.le_trans (Nat.le_add_right _ _) hthreads

theorem delayedValue_completes_woken :
    let s : Task DelayedValue String :=
      ⟨2, none, false, [], some (2, "Hello from the future!"), false⟩
    Completes DelayedValue.poll (fun t a => a = "Hello from the future!" ∧ 0 + 2 ≤ t) s :=
  (delayedValue_completes "Hello from the future!" 2 0
    [.poll, .tick, .wake, .poll, .tick, .alarm 0, .poll] _ rfl).1

theorem value_wakes (v : α) :
    Wakes (value v) (fun _ => True) (fun _ => none) (fun _ => 0) (fun _ a => a = v) :=
  fun _ _ _ => ⟨_, rfl, .ready rfl rfl⟩

theorem delayed_wakes {sleep : Sleep S} (hsleep : sleep.Conforms) :
    ∃ due left n, ∀ v : α, ∃ I, Wakes (delayed sleep v) I due left (fun _ a => a = v) ∧
      I (.first ()) ∧ due (.first ()) = none ∧ left (.first ()) ≤ n := by
  obtain ⟨I, due, left, n, hpoll, htimer⟩ := hsleep
  have hinner (v : α) := hpoll.andThen (K := fun _ => True) (n := 0) (fun _ _ => ())
    (fun _ _ => value_wakes v) fun _ _ _ => ⟨trivial, trivial, rfl, Nat.le_refl 0⟩
  refine ⟨_, _, _, fun v => ⟨_, (value_wakes ()).andThen (K := fun _ => True) (n := n + 1) _
    (fun _ _ => hinner v) fun now _ _ => ?_, trivial, rfl, Nat.le_refl _⟩⟩
  obtain ⟨hI, hdue, hleft⟩ := htimer (now + 100)
  exact ⟨trivial, hI, hdue, Nat.succ_le_succ hleft⟩

def bothSteps : String := "data-from-step-1 then data-from-step-2"

theorem twoStepJobReal_wakes {sleep : Sleep S} (hsleep : sleep.Conforms) :
    ∃ I due left, Wakes (twoStepJobReal sleep) I due left (fun _ a => a = bothSteps) ∧
      I (.first (.first ())) ∧ due (.first (.first ())) = none := by
  obtain ⟨due, left, n, h⟩ := delayed_wakes (α := String) hsleep
  obtain ⟨I, hfirst, hI, hdue, hleft⟩ := h "data-from-step-1"
  obtain ⟨J, hsecond, hJ, hdue', hleft'⟩ := h bothSteps
  refine ⟨_, _, _, hfirst.andThen (K := fun a => a = "data-from-step-1") (n := n) (J := fun _ => J)
    (S := fun _ a => a = bothSteps) _ (fun a ha => ?_) fun _ a ha => ⟨ha, hJ, hdue', hleft'⟩,
    hI, hdue⟩
  subst ha
  exact hsecond

def twoCountdowns : Future (Then Nat Nat String) String :=
  andThen (Countdown.poll "data-from-step-1") (fun _ _ => 2) (fun a =>
    Countdown.poll (a ++ " then data-from-step-2"))

inductive State.Compiled : State → Then Nat Nat String → Prop
  | notStarted : State.Compiled .notStarted (.first 2)
  | waitingStep1 (k : Nat) : State.Compiled (.waitingStep1 k) (.first k)
  | waitingStep2 (r : String) (k : Nat) : State.Compiled (.waitingStep2 r k) (.second r k)

theorem twoStepJob_simulates : Simulates TwoStepJob.poll twoCountdowns State.Compiled := by
  intro now s t hrel
  cases hrel with
  | notStarted => exact .some ⟨rfl, rfl, rfl, fun _ => .waitingStep1 1⟩
  | waitingStep1 k =>
    cases k with
    | zero => exact .some ⟨rfl, rfl, rfl, fun _ => .waitingStep2 _ 1⟩
    | succ k => exact .some ⟨rfl, rfl, rfl, fun _ => .waitingStep1 k⟩
  | waitingStep2 r k =>
    cases k with
    | zero => exact .some ⟨rfl, rfl, rfl, fun hnone => (by cases hnone)⟩
    | succ k => exact .some ⟨rfl, rfl, rfl, fun _ => .waitingStep2 r k⟩

theorem twoCountdowns_wakes :
    ∃ I due left, Wakes twoCountdowns I due left (fun _ a => a = bothSteps) ∧
      I (.first 2) ∧ due (.first 2) = none := by
  have hsecond (a : String) (ha : a = "data-from-step-1") :
      Wakes (Countdown.poll (a ++ " then data-from-step-2")) (fun _ => True) (fun _ => none) id
        (fun _ b => b = bothSteps) := by
    subst ha
    exact countdown_wakes bothSteps
  exact ⟨_, _, _, (countdown_wakes "data-from-step-1").andThen (n := 2) _ hsecond
    fun _ a ha => ⟨ha, trivial, rfl, Nat.le_refl 2⟩, trivial, rfl⟩

/-- The state machine that is written by hand is one the compiler might make of an async function:
nobody who polls it or waits for it can tell. With the async function that sleeps it has no more in
common than their output, which both come to whatever wakes them. -/
theorem twoStepJob_agrees {S : Type} (sleep : Sleep S) (hsleep : sleep.Conforms) (now : Nat)
    (ls : List Label) :
    (∀ s, run (step TwoStepJob.poll) (spawn now .notStarted) ls = some s →
      Completes TwoStepJob.poll (fun _ a => a = bothSteps) s ∧
        ∃ t, run (step twoCountdowns) (spawn now (.first 2)) ls = some t ∧
          Task.Alike State.Compiled s t) ∧
      ∀ s, run (step (twoStepJobReal sleep)) (spawn now (.first (.first ()))) ls = some s →
        Completes (twoStepJobReal sleep) (fun _ a => a = bothSteps) s := by
  refine ⟨fun s hr => ?_, fun s hr => ?_⟩
  · have hstart : Task.Alike State.Compiled (spawn now .notStarted : Task State String)
        (spawn now (.first 2)) := ⟨rfl, .some .notStarted, rfl, rfl, rfl, rfl⟩
    obtain ⟨t, hrun, halike⟩ := run_alike hstart twoStepJob_simulates hr
    obtain ⟨I, due, left, hwakes, hI, hdue⟩ := twoCountdowns_wakes
    exact ⟨.of_alike halike twoStepJob_simulates (run_completes hwakes hI hdue hrun), t, hrun,
      halike⟩
  · obtain ⟨I, due, left, hwakes, hI, hdue⟩ := twoStepJobReal_wakes hsleep
    exact run_completes hwakes hI hdue hr

def threadSleep : Sleep DelayedValue where
  timer d := ⟨"", d, false⟩
  poll now s := (DelayedValue.poll now s).map (fun p =>
    ⟨p.state, p.output.map (fun _ => ()), p.woken, p.alarms⟩)

theorem threadSleep_conforms : threadSleep.Conforms := by
  refine ⟨fun _ => True, DelayedValue.due, DelayedValue.left, 1, fun now s _ => ?_,
    fun d => ⟨trivial, rfl, Nat.le_refl 1⟩⟩
  obtain ⟨p, hp, hpromise⟩ := delayedValue_wakes s.value s.deadline now s ⟨rfl, rfl⟩
  refine ⟨_, congrArg (Option.map _) hp, ?_⟩
  cases hpromise with
  | ready ho hR => exact .ready (congrArg (Option.map fun _ => ()) ho) trivial
  | woken ho hI hd hw hl => exact .woken (congrArg (Option.map fun _ => ()) ho) trivial hd hw hl
  | armed ho hI hd ht ha hl =>
    exact .armed (congrArg (Option.map fun _ => ()) ho) trivial hd ht ha hl
  | waiting ho hI hds hd ht hw hl =>
    exact .waiting (congrArg (Option.map fun _ => ()) ho) trivial hds hd ht hw hl

def slept : List Label :=
  .poll :: List.replicate 100 .tick ++ [.alarm 0, .poll] ++ List.replicate 100 .tick ++
    [.alarm 0, .poll]

set_option maxRecDepth 4000 in
theorem twoStepJob_agrees_slept :
    ∃ (s : Task State String) (t : Task (Then (Then Unit (Then DelayedValue Unit Unit) Unit)
        (Then Unit (Then DelayedValue Unit Unit) Unit) String) String),
      s.output = some (0, bothSteps) ∧ t.output = some (200, bothSteps) ∧
      Completes TwoStepJob.poll (fun _ a => a = bothSteps) s ∧
      Completes (twoStepJobReal threadSleep) (fun _ a => a = bothSteps) t :=
  ⟨_, _, rfl, rfl,
    ((twoStepJob_agrees threadSleep threadSleep_conforms 0 (List.replicate 5 .poll)).1 _ rfl).1,
    (twoStepJob_agrees threadSleep threadSleep_conforms 0 slept).2 _ rfl⟩

end ReverseProxy.AsyncGuide
