import ReverseProxy.HyperServer
import ReverseProxy.Progress

namespace ReverseProxy.AcceptLoop
open Runs Usize
set_option autoImplicit true

/-- As long as the process runs, no task is cut off. -/
def Uncut (s : State w) : Prop :=
  Server.running s.phase = true → ∀ t ∈ s.tasks, t.wasCancelled = false

theorem Uncut.setTask {s : State w} (h : Uncut s) (ht : t.wasCancelled = false) (i : Nat) :
    Uncut (s.setTask i t) := by
  intro hrunning u hu
  rcases List.mem_or_eq_of_mem_set hu with hu | rfl
  · exact h hrunning u hu
  · exact ht

theorem step_uncut {s s' : State w} (hs : Uncut s) (h : step m s l = some s') : Uncut s' := by
  have he := step_effect h
  cases l with
  | poll =>
    obtain ⟨hp, rfl⟩ := he
    exact fun _ => hs (by rw [hp]; rfl)
  | accept polled =>
    obtain ⟨hp, rfl⟩ := he
    intro _ t ht
    rcases List.mem_append.1 ht with ht | ht
    · refine hs ?_ t ht
      rcases hp with hp | ⟨f, hp⟩ <;> rw [hp] <;> rfl
    · cases List.mem_singleton.1 ht
      rfl
  | acceptError =>
    obtain ⟨_, rfl⟩ := he
    exact fun hrunning => (by cases hrunning)
  | signal =>
    rcases he with ⟨_, _, rfl⟩ | ⟨_, _, rfl⟩ | ⟨f, hp, rfl⟩ | ⟨_, rfl⟩
    · exact hs
    · exact fun hrunning => (by cases hrunning)
    · exact fun _ => hs (by rw [hp]; rfl)
    · exact hs
  | takeShutdown =>
    obtain ⟨hp, rfl⟩ := he
    exact fun _ => hs (by rw [hp]; rfl)
  | mainReturns =>
    obtain ⟨_, rfl⟩ := he
    exact fun hrunning => (by cases hrunning)
  | advance i =>
    obtain ⟨k, _, rfl⟩ := he
    exact hs.setTask rfl i
  | finish i failed =>
    obtain ⟨k, _, rfl⟩ := he
    exact hs.setTask rfl i
  | panic i =>
    obtain ⟨k, _, rfl⟩ := he
    exact hs.setTask rfl i
  | decrement i =>
    obtain ⟨failed, t, _, rfl, rfl⟩ := he
    refine Uncut.setTask hs ?_ i
    split <;> rfl

theorem run_uncut {s : State w} (hr : run (step m) (start w) ls = some s) : Uncut s := by
  refine run_invariant (I := Uncut) (fun _ _ _ hs h => step_uncut hs h) ?_ hr
  intro _ t ht
  cases ht

end ReverseProxy.AcceptLoop

namespace ReverseProxy.D
open C (Call Memory Tick system)
open Clients HttpHead Net Runs Usize
set_option autoImplicit true

variable {u w : Nat} {M U X B R : Type} {crate : HttpCrate M U} {mode m : Overflow}
  {upstreams : List SocketAddr} {s s' : Process u w M U X B R} {mem : Memory SocketAddr}
  {x : Asked M U X B R}

def Turn.Over (x : Asked M U X B R) : Turn M U X B R → Prop
  | .after _ (.finished _) => True
  | .after _ (.sending _ fwd) => x.send fwd = .silent
  | _ => False

def Handling.left : Handling M U X B R → Nat
  | .connecting _ _ => 3
  | .shaking _ _ => 2
  | .sending _ _ => 1
  | .finished _ => 0

theorem handling_left {b : Handling M U X B R} {n : Nat} (h : ¬ Turn.Over x (.after n b)) :
    ∃ b', b.step x = some b' ∧ b'.left < b.left := by
  cases b with
  | connecting addr fwd =>
    cases hc : x.connect addr with
    | succeeded => exact ⟨.shaking addr fwd, by rw [Handling.step, hc], Nat.lt_succ_self 2⟩
    | failed => exact ⟨.finished _, by rw [Handling.step, hc], Nat.succ_pos 2⟩
    | timedOut => exact ⟨.finished _, by rw [Handling.step, hc], Nat.succ_pos 2⟩
  | shaking addr fwd =>
    cases hh : x.handshake with
    | true => exact ⟨.sending addr fwd, if_pos hh, Nat.lt_succ_self 1⟩
    | false => exact ⟨.finished _, if_neg (Bool.eq_false_iff.1 hh), Nat.succ_pos 1⟩
  | sending addr fwd =>
    cases hsend : x.send fwd with
    | response response => exact ⟨.finished _, by rw [Handling.step, hsend], Nat.one_pos⟩
    | failed => exact ⟨.finished _, by rw [Handling.step, hsend], Nat.one_pos⟩
    | silent => exact (h hsend).elim
  | finished seen => exact (h trivial).elim

/-- A request is always as good as answered, unless its upstream is silent. -/
def serviceLive (crate : HttpCrate M U) (mode : Overflow) (upstreams : List SocketAddr) :
    Live (service crate C.Call.answer) (system w mode upstreams)
      (fun (x : Asked M U X B R) q => Turn.Over x q) (fun _ _ => True) (fun _ _ => True)
      (fun x y b => ∃ r, C.Call.answer y = some r ∧ b.finish x = handleAnswered crate x r)
      (fun _ _ => False) where
  kept := service_keeps fun y r h mem => C.answer_ended h mode upstreams _
  before _ _ := 0
  acting := C.Call.left upstreams.length
  after _ := Handling.left
  before_step _ _ _ _ _ := .inl ⟨(), rfl⟩
  acting_step mem y x k := by
    rcases C.call_left mode upstreams mem.flags y with ⟨r, hr⟩ | hact
    · exact .inl ⟨_, congrArg (Option.map (Handling.start crate x)) hr⟩
    · exact .inr hact
  after_step x y n b _ hover := by
    obtain ⟨b', hb, hlt⟩ := handling_left hover
    exact ⟨(), b', hb, hlt⟩

theorem exists_crash {l : Server.State u 0 Unit Unit Incoming Stage Empty Empty}
    (hr : run (listening.step m) (Server.start ()) ls = some l)
    (hrunning : Server.running l.loop.phase = true)
    (hi : l.clients.clients[i]? = some ⟨d, .before .serving⟩) :
    ∃ l', listening.step m l (.task i (.own .crash)) = some l' := by
  have hsync := Server.run_synced hr
  obtain ⟨ks, hloop⟩ := Server.run_loop hr
  have hlt : i < l.loop.tasks.length := by
    rw [hsync.length]
    exact (List.getElem?_eq_some_iff.1 hi).1
  have ht := List.getElem?_eq_getElem hlt
  have hserves := hsync.serves i _ _ ht hi
  have hcut := AcceptLoop.run_uncut hloop hrunning _ (List.getElem_mem hlt)
  cases htask : l.loop.tasks[i] with
  | handling k =>
    rw [htask] at ht
    obtain ⟨t, _, hstep⟩ := Server.step_task (p := listening) (m := m) (v := .own .crash) ht hi rfl
    exact ⟨_, hstep⟩
  | ended failed =>
    rw [htask] at hserves
    cases hserves
  | done =>
    rw [htask] at hserves
    obtain ⟨_, he⟩ := hserves
    cases he
  | panicked =>
    rw [htask] at hserves
    cases hserves
  | cancelled k =>
    rw [htask] at hcut
    cases hcut

theorem serving_eq_some (h : s.serving x = some d) :
    s.listener.clients.clients[x.conn]? = some ⟨d, .before .serving⟩ := by
  unfold Process.serving at h
  split at h
  · next hd =>
    cases h
    exact hd
  · cases h

theorem exists_unwind {ls : List (Server.Label Incoming ConnAct Empty)}
    (hr : run (listening.step m) (Server.start ()) ls = some s.listener)
    (hrunning : s.running = true) (hj : s.requests.clients[j]? = some ⟨x, q⟩) :
    ∃ s', s.unwind m j = some s' ∧ (Turn.Over x q ∨ s' = s) := by
  unfold Process.unwind
  split
  · next hpanicked =>
    cases hj.symm.trans hpanicked
    split
    · next d hd =>
      split
      · exact ⟨s, rfl, .inr rfl⟩
      · obtain ⟨l', hl⟩ := exists_crash hr hrunning (serving_eq_some hd)
        exact ⟨_, by rw [hl]; rfl, .inl trivial⟩
    · exact ⟨s, rfl, .inr rfl⟩
  · exact ⟨s, rfl, .inr rfl⟩

theorem exists_serve (hr : run (Process.step crate mode m upstreams) (.start mem) ls = some s)
    (hj : s.requests.clients[j]? = some ⟨x, q⟩) (hrunning : s.running = true)
    (halive : s.alive x = true) (hover : ¬ Turn.Over x q) :
    ∃ v q' s', s.step crate mode m upstreams (.serve j v) = some s' ∧
      s'.requests.clients[j]? = some ⟨x, q'⟩ ∧
      (Turn.Over x q' ∨ s'.running = true ∧ s'.alive x = true) ∧
      (serviceLive crate mode upstreams).rankOf j s'.requests <
        (serviceLive crate mode upstreams).rankOf j s.requests := by
  have hholds := (serviceLive crate mode upstreams).kept.run (run_requests hr) _
    (List.mem_of_getElem? hj)
  obtain ⟨v, q', o, hm, hless⟩ := (serviceLive crate mode upstreams).move hholds hover
    fun a _ hw => hw
  have hserve : (service crate C.Call.answer).step (system w mode upstreams) s.requests
      (.move j v) = some ⟨s.requests.clients.set j ⟨x, q'⟩, o⟩ := by
    rw [Machine.step, hj, Option.bind_some, hm]
    rfl
  obtain ⟨ks, hlistener⟩ := run_listener hr
  have hj' : (s.requests.clients.set j ⟨x, q'⟩)[j]? = some ⟨x, q'⟩ :=
    List.getElem?_set_self (List.getElem?_eq_some_iff.1 hj).1
  obtain ⟨s', hs', hkept⟩ := exists_unwind
    (s := { s with requests := ⟨s.requests.clients.set j ⟨x, q'⟩, o⟩ }) hlistener hrunning hj'
  have hrequests := unwind_requests hs'
  refine ⟨v, q', s', ?_, by rw [hrequests]; exact hj', ?_, ?_⟩
  · simp only [Process.step, hj, Option.bind_some, hrunning, halive, and_self, if_true, hserve]
    exact hs'
  · rcases hkept with hover' | rfl
    · exact .inl hover'
    · exact .inr ⟨hrunning, halive⟩
  · rw [hrequests]
    exact (serviceLive crate mode upstreams).rankOf_set hj hless

theorem handleAnswered_silent {r : Except Panic (Option SocketAddr)}
    (h : (handleAnswered crate x r).result = none) :
    ∃ fwd, (handleAnswered crate x r).forwarded = some fwd ∧ x.send fwd = .silent := by
  rcases r with p | _ | addr
  · cases h
  · cases h
  · cases hb : buildForwardedRequest crate x.request addr x.clientIp x.requestId with
    | error e =>
      simp only [handleAnswered, hb] at h
      cases h
    | ok fwd =>
      simp only [handleAnswered, hb] at h ⊢
      cases hc : x.connect addr with
      | failed =>
        simp only [hc] at h
        cases h
      | timedOut =>
        simp only [hc] at h
        cases h
      | succeeded =>
        simp only [hc] at h ⊢
        split at h
        · next hh =>
          rw [if_pos hh]
          cases hsend : x.send fwd with
          | response response =>
            simp only [hsend] at h
            cases h
          | failed =>
            simp only [hsend] at h
            cases h
          | silent => exact ⟨fwd, rfl, hsend⟩
        · cases h

theorem seen_of_over {b : Handling M U X B R} (h : Turn.Over x (.after n b)) :
    b.seen = b.finish x := by
  cases b with
  | connecting addr fwd => exact h.elim
  | shaking addr fwd => exact h.elim
  | sending addr fwd =>
    have hsend : x.send fwd = .silent := h
    simp only [Handling.seen, Handling.finish, Asked.sending, hsend]
  | finished seen => rfl

/-- No request of option D is held up by another, by a connection, a checker or `main`: wherever a
run has got to, a request that is still served can be served to its end by its own steps, and only
an upstream that has it and is silent can keep it without a result. -/
theorem process_answers (crate : HttpCrate M U) (mode m : Overflow)
    (upstreams : List SocketAddr) (mem : Memory SocketAddr) (ls : List (Label M U X B R))
    (s : Process u w M U X B R)
    (hr : run (Process.step crate mode m upstreams) (.start mem) ls = some s) (j : Nat)
    (c : Client (Asked M U X B R) Unit Unit (Handling M U X B R))
    (hj : s.requests.clients[j]? = some c) (hrunning : s.running = true)
    (halive : s.alive c.data = true) :
    ∃ vs s' place n y r, (∀ l ∈ vs, ∃ v, l = .serve j v) ∧
      run (Process.step crate mode m upstreams) s vs = some s' ∧
      s'.requests.clients[j]? = some ⟨c.data, place⟩ ∧ place.index = some n ∧
      s'.requests.object.calls[n]? = some y ∧ y.answer = some r ∧
      Turn.seen place = handleAnswered crate c.data r ∧
      ((Turn.seen place).result = none →
        ∃ fwd, (Turn.seen place).forwarded = some fwd ∧ c.data.send fwd = .silent) := by
  obtain ⟨x, q⟩ := c
  have hstep (ls : List (Label M U X B R)) (s : Process u w M U X B R)
      (hr : run (Process.step crate mode m upstreams) (.start mem) ls = some s)
      (hs : ∃ q, s.requests.clients[j]? = some ⟨x, q⟩ ∧
        (Turn.Over x q ∨ s.running = true ∧ s.alive x = true)) :
      (∃ q, s.requests.clients[j]? = some ⟨x, q⟩ ∧ Turn.Over x q) ∨
        ∃ l s', (∃ v, l = Label.serve j v) ∧ s.step crate mode m upstreams l = some s' ∧
          (∃ q, s'.requests.clients[j]? = some ⟨x, q⟩ ∧
            (Turn.Over x q ∨ s'.running = true ∧ s'.alive x = true)) ∧
          (serviceLive crate mode upstreams).rankOf j s'.requests <
            (serviceLive crate mode upstreams).rankOf j s.requests := by
    obtain ⟨q, hj, hgoing⟩ := hs
    by_cases hover : Turn.Over x q
    · exact .inl ⟨q, hj, hover⟩
    · obtain ⟨hrunning, halive⟩ := hgoing.resolve_left hover
      obtain ⟨v, q', s', hs', hj', hkept, hless⟩ := exists_serve hr hj hrunning halive hover
      exact .inr ⟨.serve j v, s', ⟨v, rfl⟩, hs', ⟨q', hj', hkept⟩, hless⟩
  obtain ⟨vs, s', ls', hvs, hrun, hr', place, hj', hover⟩ :=
    run_reaches_of_rank
      (fun s : Process u w M U X B R => (serviceLive crate mode upstreams).rankOf j s.requests)
      hstep hr ⟨q, hj, .inr ⟨hrunning, halive⟩⟩
  have hholds := (serviceLive crate mode upstreams).kept.run (run_requests hr') _
    (List.mem_of_getElem? hj')
  cases place with
  | before a => exact hover.elim
  | calling n k => exact hover.elim
  | after n b =>
    obtain ⟨y, hy, _, r, hans, hfinish⟩ := hholds
    have hseen : b.seen = handleAnswered crate x r := (seen_of_over hover).trans hfinish
    refine ⟨vs, s', .after n b, n, y, r, hvs, hrun, hj', rfl, hy, hans, hseen, fun hnone => ?_⟩
    change b.seen.result = none at hnone
    change ∃ fwd, b.seen.forwarded = some fwd ∧ _
    rw [hseen] at hnone ⊢
    exact handleAnswered_silent hnone

-- The request is in the middle of its scan, and has found the first upstream down.
set_option maxRecDepth 4000 in
theorem process_answers_sendingOn :
    ∃ (s s' : Process 64 64 (List (Bytes × Bytes)) PlainUri Unit Unit Bytes)
      (vs : List (Label (List (Bytes × Bytes)) PlainUri Unit Unit Bytes))
      (place : Turn (List (Bytes × Bytes)) PlainUri Unit Unit Bytes)
      (r : Except Panic (Option SocketAddr)),
      s.listener.clients.clients.length = 1 ∧
      run (Process.step plainCrate .checked .checked loopbacks) s vs = some s' ∧
      s'.requests.clients[0]? = some ⟨spoofing, place⟩ ∧
      Turn.seen place = handleAnswered plainCrate spoofing r := by
  obtain ⟨vs, s', place, _, _, r, _, hrun, hj, _, _, _, hseen, _⟩ :=
    process_answers (u := 64) (w := 64) plainCrate .checked .checked loopbacks
      ⟨[true, true], C.spawnCheckers loopbacks, []⟩ (sendingOn.take 9) _ rfl 0 _ rfl rfl rfl
  exact ⟨_, s', vs, place, r, rfl, hrun, hj, hseen⟩

end ReverseProxy.D
