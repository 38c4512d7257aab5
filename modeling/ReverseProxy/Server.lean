import ReverseProxy.Clients
import ReverseProxy.Shutdown

namespace ReverseProxy
open Clients Runs Usize
set_option autoImplicit true

inductive End
  | returned (failed : Bool)
  | panicked
deriving DecidableEq, Repr

/-- A proxy: how a connection goes, what the connections share, and when one is over. -/
structure Server (w : Nat) (M X E D A K B L : Type) where
  machine : Machine D A K B X L
  object : Tickets.Object w M X E
  ended : Place A K B → Option End
  started : ∀ d, ended (.before (machine.start d)) = none

def Server.alone (start : D → A) (step : D → A → L → Option A) (ended : A → Option End)
    (started : ∀ d, ended (start d) = none) : Server 0 Unit Unit Empty D A Empty Empty L where
  machine :=
    { start := start
      before := step
      ask := fun _ _ => none
      resume := fun _ k _ => nomatch k
      after := fun _ b _ => nomatch b }
  object :=
    { enter := fun _ => ()
      act := fun _ _ => none
      env := fun _ e => nomatch e }
  ended
    | .before a => ended a
  started := started

namespace Server

/-- Task `i` of the accept loop serves client `i`. -/
structure State (u w : Nat) (M X D A K B : Type) where
  loop : AcceptLoop.State u
  clients : Clients.State w M X D A K B

inductive Label (D L E : Type)
  | loop (l : AcceptLoop.Label)
  | accept (polled : Bool) (d : D)
  | task (i : Nat) (v : Move L)
  | env (e : E)

def taskLabel (i : Nat) : Option End → AcceptLoop.Label
  | none => .advance i
  | some (.returned failed) => .finish i failed
  | some .panicked => .panic i

def aside : AcceptLoop.Label → Bool
  | .accept _ | .advance _ | .finish _ _ | .panic _ => false
  | .poll | .acceptError | .signal | .takeShutdown | .mainReturns | .decrement _ => true

def running : AcceptLoop.Phase → Bool
  | .selecting | .waiting _ | .leaving => true
  | .stopped | .failed | .killed => false

variable {u w : Nat} {M X E D A K B L : Type}

def start (mem : M) : State u w M X D A K B := ⟨AcceptLoop.start u, idle 0 mem⟩

/-- The whole process: `main`, the tasks of its connections, and what runs beside them. -/
def step (p : Server w M X E D A K B L) (m : Overflow) (s : State u w M X D A K B) :
    Label D L E → Option (State u w M X D A K B)
  | .loop l =>
    if aside l then (AcceptLoop.step m s.loop l).map (fun loop => { s with loop := loop }) else none
  | .accept polled d =>
    (AcceptLoop.step m s.loop (.accept polled)).bind (fun loop =>
      (p.machine.step p.object s.clients (.arrive d)).map (fun clients => ⟨loop, clients⟩))
  | .task i v =>
    (p.machine.step p.object s.clients (.move i v)).bind (fun clients =>
      clients.clients[i]?.bind (fun c =>
        (AcceptLoop.step m s.loop (taskLabel i (p.ended c.place))).map (fun loop =>
          ⟨loop, clients⟩)))
  | .env e =>
    if running s.loop.phase then
      (p.machine.step p.object s.clients (.env e)).map
        (fun clients => { s with clients := clients })
    else none

inductive Effect (p : Server w M X E D A K B L) (m : Overflow) (s : State u w M X D A K B) :
    Label D L E → State u w M X D A K B → Prop
  | loop : aside l = true → AcceptLoop.step m s.loop l = some loop →
      Effect p m s (.loop l) ⟨loop, s.clients⟩
  | accept : AcceptLoop.step m s.loop (.accept polled) = some loop →
      p.machine.step p.object s.clients (.arrive d) = some clients →
      Effect p m s (.accept polled d) ⟨loop, clients⟩
  | task : p.machine.step p.object s.clients (.move i v) = some clients →
      clients.clients[i]? = some c →
      AcceptLoop.step m s.loop (taskLabel i (p.ended c.place)) = some loop →
      Effect p m s (.task i v) ⟨loop, clients⟩
  | env : running s.loop.phase = true →
      p.machine.step p.object s.clients (.env e) = some clients →
      Effect p m s (.env e) ⟨s.loop, clients⟩

variable {p : Server w M X E D A K B L} {m : Overflow} {s s' : State u w M X D A K B}

theorem step_effect (h : p.step m s l = some s') : Effect p m s l s' := by
  cases l with
  | loop l =>
    rw [step] at h
    split at h
    · next hl =>
      obtain ⟨loop, hloop, rfl⟩ := Option.map_eq_some_iff.1 h
      exact .loop hl hloop
    · cases h
  | accept polled d =>
    obtain ⟨loop, hloop, h⟩ := Option.bind_eq_some_iff.1 h
    obtain ⟨clients, hclients, rfl⟩ := Option.map_eq_some_iff.1 h
    exact .accept hloop hclients
  | task i v =>
    obtain ⟨clients, hclients, h⟩ := Option.bind_eq_some_iff.1 h
    obtain ⟨c, hc, h⟩ := Option.bind_eq_some_iff.1 h
    obtain ⟨loop, hloop, rfl⟩ := Option.map_eq_some_iff.1 h
    exact .task hclients hc hloop
  | env e =>
    rw [step] at h
    split at h
    · next hrun =>
      obtain ⟨clients, hclients, rfl⟩ := Option.map_eq_some_iff.1 h
      exact .env hrun hclients
    · cases h

theorem step_env (h : p.step m s (.env e) = some s') :
    p.object.env s.clients.object.memory e = some s'.clients.object.memory := by
  cases step_effect h with
  | env _ hclients =>
    obtain ⟨u, hu, rfl⟩ := Clients.step_effect hclients
    obtain ⟨mem, hmem, rfl⟩ := Tickets.step_effect hu
    exact hmem

theorem run_loop (hr : run (p.step m) s ls = some s') :
    ∃ ks, run (AcceptLoop.step m) s.loop ks = some s'.loop := by
  refine run_simulation (f := State.loop) (fun s l s' h => ?_) hr
  cases step_effect h with
  | loop _ hloop => exact ⟨[_], run_singleton hloop⟩
  | accept hloop _ => exact ⟨[_], run_singleton hloop⟩
  | task _ _ hloop => exact ⟨[_], run_singleton hloop⟩
  | env _ _ => exact ⟨[], rfl⟩

def toClients : Label D L E → List (Clients.Label D L E)
  | .loop _ => []
  | .accept _ d => [.arrive d]
  | .task i v => [.move i v]
  | .env e => [.env e]

theorem run_clients (hr : run (p.step m) s ls = some s') :
    run (p.machine.step p.object) s.clients (ls.flatMap toClients) = some s'.clients := by
  refine run_flatMap (f := State.clients) (fun s l s' h => ?_) hr
  cases step_effect h with
  | loop _ _ => rfl
  | accept _ hclients => exact run_singleton hclients
  | task hclients _ _ => exact run_singleton hclients
  | env _ hclients => exact run_singleton hclients

/-- What the connections of a proxy keep that share nothing. -/
theorem alone_keeps {D A L : Type} {start : D → A} {step : D → A → L → Option A}
    {ended : A → Option End} {started : ∀ d, ended (start d) = none} {P : D → A → Prop}
    (hstart : ∀ d, P d (start d)) (hstep : ∀ d a l a', P d a → step d a l = some a' → P d a')
    {ls : List (Server.Label D L Empty)} {s : Server.State u 0 Unit Unit D A Empty Empty}
    (hr : run ((Server.alone start step ended started).step m) (Server.start ()) ls = some s) :
    ∀ c ∈ s.clients.clients, ∃ a, c.place = .before a ∧ P c.data a := by
  have hkeeps : (Server.alone start step ended started).machine.Keeps
      (Server.alone start step ended started).object P (fun _ _ => False)
      (fun _ _ _ => False) :=
    { start := hstart
      before := hstep
      ask := fun _ _ k => nomatch k
      ended := fun _ k => nomatch k
      resume := fun _ k => nomatch k
      after := fun _ _ b => nomatch b }
  intro c hc
  have hP := hkeeps.run (Server.run_clients hr) c hc
  cases hp : c.place with
  | before a =>
    rw [hp] at hP
    exact ⟨a, rfl, hP⟩
  | calling n k => cases k
  | after n b => cases b

def Serves (e : Option End) : AcceptLoop.Task → Prop
  | .handling _ | .cancelled _ => e = none
  | .ended failed => e = some (.returned failed)
  | .done => ∃ failed, e = some (.returned failed)
  | .panicked => e.isSome

structure Synced (p : Server w M X E D A K B L) (s : State u w M X D A K B) : Prop where
  length : s.loop.tasks.length = s.clients.clients.length
  serves : ∀ (i : Nat) t (c : Client D A K B), s.loop.tasks[i]? = some t →
    s.clients.clients[i]? = some c → Serves (p.ended c.place) t

theorem Serves.cancel (h : Serves e t) : Serves e t.cancel := by
  cases t <;> exact h

theorem Serves.ranToEnd_iff (h : Serves e t) : t.ranToEnd = true ↔ e.isSome = true := by
  cases t with
  | handling k =>
    cases h
    exact ⟨nofun, nofun⟩
  | cancelled k =>
    cases h
    exact ⟨nofun, nofun⟩
  | ended failed =>
    cases h
    exact ⟨fun _ => rfl, fun _ => rfl⟩
  | done =>
    obtain ⟨failed, rfl⟩ := h
    exact ⟨fun _ => rfl, fun _ => rfl⟩
  | panicked => exact ⟨fun _ => h, fun _ => rfl⟩

theorem Synced.aside (h : Synced p s) (hl : Server.aside l = true)
    (hs : AcceptLoop.step m s.loop l = some loop) : Synced p ⟨loop, s.clients⟩ := by
  have hcancel (ph : AcceptLoop.Phase) : Synced p ⟨s.loop.endProcess ph, s.clients⟩ := by
    refine ⟨(List.length_map _).trans h.length, fun i t c ht hc => ?_⟩
    rw [AcceptLoop.State.endProcess, List.getElem?_map] at ht
    obtain ⟨t₀, ht₀, rfl⟩ := Option.map_eq_some_iff.1 ht
    exact (h.serves i t₀ c ht₀ hc).cancel
  have he := AcceptLoop.step_effect hs
  cases l with
  | poll =>
    obtain ⟨_, rfl⟩ := he
    exact ⟨h.length, h.serves⟩
  | acceptError =>
    obtain ⟨_, rfl⟩ := he
    exact hcancel .failed
  | signal =>
    rcases he with ⟨_, _, rfl⟩ | ⟨_, _, rfl⟩ | ⟨_, _, rfl⟩ | ⟨_, rfl⟩
    · exact ⟨h.length, h.serves⟩
    · exact hcancel .killed
    · exact ⟨h.length, h.serves⟩
    · exact ⟨h.length, h.serves⟩
  | takeShutdown =>
    obtain ⟨_, rfl⟩ := he
    exact ⟨h.length, h.serves⟩
  | mainReturns =>
    obtain ⟨_, rfl⟩ := he
    exact hcancel .stopped
  | decrement i =>
    obtain ⟨failed, t, ht, rfl, rfl⟩ := he
    refine ⟨List.length_set.trans h.length, fun j u c hu hc => ?_⟩
    by_cases hj : i = j
    · subst hj
      have hi := h.serves i _ c ht hc
      rw [AcceptLoop.State.setTask, List.getElem?_set_self (List.getElem?_eq_some_iff.1 ht).1] at hu
      cases hu
      split
      · exact ⟨failed, hi⟩
      · exact hi ▸ rfl
    · rw [AcceptLoop.State.setTask, List.getElem?_set_ne hj] at hu
      exact h.serves j u c hu hc
  | accept polled => cases hl
  | advance i => cases hl
  | finish i failed => cases hl
  | panic i => cases hl

theorem taskLabel_effect (hs : AcceptLoop.step m loop (taskLabel i e) = some loop') :
    ∃ k t, loop.tasks[i]? = some (.handling k) ∧ loop' = loop.setTask i t ∧ Serves e t := by
  have he := AcceptLoop.step_effect hs
  cases e with
  | none =>
    obtain ⟨k, hk, rfl⟩ := he
    exact ⟨k, _, hk, rfl, rfl⟩
  | some e =>
    cases e with
    | returned failed =>
      obtain ⟨k, hk, rfl⟩ := he
      exact ⟨k, _, hk, rfl, rfl⟩
    | panicked =>
      obtain ⟨k, hk, rfl⟩ := he
      exact ⟨k, _, hk, rfl, rfl⟩

theorem step_synced (h : Synced p s) (hs : p.step m s l = some s') : Synced p s' := by
  cases step_effect hs with
  | loop hl hloop => exact h.aside hl hloop
  | accept hloop hclients =>
    obtain ⟨_, rfl⟩ := AcceptLoop.step_effect hloop
    cases hclients
    refine ⟨?_, fun i t c ht hc => ?_⟩
    · simp only [List.length_append, List.length_singleton, h.length]
    · simp only [List.getElem?_append, h.length] at ht hc
      split at hc
      · next hi =>
        rw [if_pos hi] at ht
        exact h.serves i t c ht hc
      · next hi =>
        rw [if_neg hi] at ht
        rw [List.getElem?_singleton] at ht hc
        split at hc
        · next hz =>
          rw [if_pos hz] at ht
          cases ht
          cases hc
          exact p.started _
        · cases hc
  | @task i _ clients c loop hclients hc hloop =>
    obtain ⟨k, t, hk, rfl, ht⟩ := taskLabel_effect hloop
    obtain ⟨c₀, q, u, hc₀, _, rfl⟩ := Clients.step_effect hclients
    refine ⟨?_, fun j t' c' ht' hc' => ?_⟩
    · simp only [AcceptLoop.State.setTask, List.length_set, h.length]
    · by_cases hj : i = j
      · subst hj
        rw [AcceptLoop.State.setTask, List.getElem?_set_self (List.getElem?_eq_some_iff.1 hk).1]
          at ht'
        cases ht'
        cases hc.symm.trans hc'
        exact ht
      · rw [AcceptLoop.State.setTask, List.getElem?_set_ne hj] at ht'
        simp only [List.getElem?_set_ne hj] at hc'
        exact h.serves j t' c' ht' hc'
  | env _ hclients =>
    obtain ⟨u, _, rfl⟩ := Clients.step_effect hclients
    exact ⟨h.length, h.serves⟩

theorem start_synced (mem : M) : Synced p (start mem : State u w M X D A K B) := by
  refine ⟨rfl, fun i t c ht _ => ?_⟩
  cases ht

theorem run_synced (hr : run (p.step m) (start mem) ls = some s) :
    Synced p (s : State u w M X D A K B) :=
  run_invariant (fun _ _ _ hs h => step_synced hs h) (start_synced mem) hr

theorem step_task {c : Client D A K B} (ht : s.loop.tasks[i]? = some (.handling k))
    (hc : s.clients.clients[i]? = some c)
    (hm : p.machine.move p.object c.data s.clients.object c.place v = some (q, o)) :
    ∃ t, t.wasCancelled = false ∧ p.step m s (.task i v) = some ⟨s.loop.setTask i t,
      ⟨s.clients.clients.set i { c with place := q }, o⟩⟩ := by
  have hclients : p.machine.step p.object s.clients (.move i v) =
      some ⟨s.clients.clients.set i { c with place := q }, o⟩ := by
    rw [Machine.step, hc, Option.bind_some, hm]
    rfl
  have hlabel : ∃ t, t.wasCancelled = false ∧ AcceptLoop.step m s.loop (taskLabel i (p.ended q)) =
      some (s.loop.setTask i t) := by
    rcases p.ended q with _ | failed | _
    · exact ⟨.handling (k + 1), rfl, by simp only [taskLabel, AcceptLoop.step, ht]⟩
    · exact ⟨.ended failed, rfl, by simp only [taskLabel, AcceptLoop.step, ht]⟩
    · exact ⟨.panicked, rfl, by simp only [taskLabel, AcceptLoop.step, ht]⟩
  obtain ⟨t, ht', hlabel⟩ := hlabel
  refine ⟨t, ht', ?_⟩
  rw [step, hclients, Option.bind_some,
    List.getElem?_set_self (List.getElem?_eq_some_iff.1 hc).1, Option.bind_some, hlabel]
  rfl

end Server

end ReverseProxy
