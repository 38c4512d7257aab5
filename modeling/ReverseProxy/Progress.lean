import ReverseProxy.Liveness
import ReverseProxy.Serial

namespace ReverseProxy
open Clients HttpHead Runs Segments Server Usize
set_option autoImplicit true

namespace Server

variable {u w : Nat} {M X E D A K B L : Type} {p : Server w M X E D A K B L} {m : Overflow}
  {P : D → A → Prop} {Q : D → K → Prop} {R : D → X → B → Prop} {waits : D → A → Prop}
  {s s' : State u w M X D A K B}

abbrev Live (p : Server w M X E D A K B L) :=
  Clients.Live p.machine p.object (fun _ q => p.ended q ≠ none)

/-- The task of connection `i` has run to its end, or waits for its client. -/
def Settled (waits : D → A → Prop) (i : Nat) (s : State u w M X D A K B) : Prop :=
  (∃ t, s.loop.tasks[i]? = some t ∧ t.ranToEnd = true) ∨
    ∃ (c : Client D A K B) (a : A), s.clients.clients[i]? = some c ∧ c.place = .before a ∧
      waits c.data a

theorem advance (h : Live p P Q R waits) {mem : M}
    (hr : run (p.step m) (start mem) ls = some s) (ht : s.loop.tasks[i]? = some t)
    (hcut : t.wasCancelled = false) :
    Settled waits i s ∨ ∃ v s', p.step m s (.task i v) = some s' ∧
      (∃ t', s'.loop.tasks[i]? = some t' ∧ t'.wasCancelled = false) ∧
      h.rankOf i s'.clients < h.rankOf i s.clients := by
  have hsync := run_synced hr
  have hlt : i < s.clients.clients.length := by
    rw [← hsync.length]
    exact (List.getElem?_eq_some_iff.1 ht).1
  obtain ⟨c, hc⟩ : ∃ c, s.clients.clients[i]? = some c := ⟨_, List.getElem?_eq_getElem hlt⟩
  have hserves := hsync.serves i t c ht hc
  cases t with
  | handling k =>
    by_cases hw : ∃ a, c.place = .before a ∧ waits c.data a
    · obtain ⟨a, ha, hwa⟩ := hw
      exact .inl (.inr ⟨c, a, hc, ha, hwa⟩)
    · obtain ⟨v, q, o', hm, hless⟩ := h.move
        (h.kept.run (run_clients hr) c (List.mem_of_getElem? hc)) (not_not_intro hserves)
        (fun a ha hwa => hw ⟨a, ha, hwa⟩)
      obtain ⟨t', ht', hstep⟩ := step_task (m := m) ht hc hm
      refine .inr ⟨v, _, hstep, ⟨t', ?_, ht'⟩, h.rankOf_set hc hless⟩
      exact List.getElem?_set_self (List.getElem?_eq_some_iff.1 ht).1
  | ended failed => exact .inl (.inl ⟨_, ht, rfl⟩)
  | done => exact .inl (.inl ⟨_, ht, rfl⟩)
  | panicked => exact .inl (.inl ⟨_, ht, rfl⟩)
  | cancelled k => cases hcut

theorem finishes (h : Live p P Q R waits) {mem : M}
    (hr : run (p.step m) (start mem) ls = some s) (hi : s.loop.tasks[i]? = some (.handling k)) :
    ∃ (vs : List (Label D L E)) (s' : State u w M X D A K B),
      (∀ l ∈ vs, ∃ v, l = .task i v) ∧ run (p.step m) s vs = some s' ∧ Settled waits i s' := by
  have hstep (ls : List (Label D L E)) (s : State u w M X D A K B)
      (hr : run (p.step m) (start mem) ls = some s)
      (ht : ∃ t, s.loop.tasks[i]? = some t ∧ t.wasCancelled = false) :
      Settled waits i s ∨ ∃ l s', (∃ v, l = .task i v) ∧ p.step m s l = some s' ∧
        (∃ t, s'.loop.tasks[i]? = some t ∧ t.wasCancelled = false) ∧
        h.rankOf i s'.clients < h.rankOf i s.clients := by
    obtain ⟨t, ht, hcut⟩ := ht
    rcases advance h hr ht hcut with hsettled | ⟨v, s', hs', hkept, hless⟩
    · exact .inl hsettled
    · exact .inr ⟨.task i v, s', ⟨v, rfl⟩, hs', hkept, hless⟩
  obtain ⟨vs, s', _, hvs, hrun, _, hsettled⟩ :=
    run_reaches_of_rank (fun s : State u w M X D A K B => h.rankOf i s.clients) hstep hr
      ⟨_, hi, rfl⟩
  exact ⟨vs, s', hvs, hrun, hsettled⟩

end Server

/-- The client is silent before the end of its head. -/
def Before.Waits : Before → Prop
  | .reading _ buf client => buf.length < headerBufSize ∧
      client.read (headerBufSize - buf.length) = .stop .idle
  | _ => False

def Before.left (x : Exchange Addr) : Before → Nat
  | .accepted => headerBufSize + (x.clientWrite.sent response431).length + 4
  | .handshaking _ _ => headerBufSize + (x.clientWrite.sent response431).length + 3
  | .reading _ buf _ =>
    headerBufSize - buf.length + (x.clientWrite.sent response431).length + 2
  | .refusing sent => (x.clientWrite.sent response431).length - sent + 1
  | .headRead _ _ _ _ | .finished _ _ => 0

def After.left (x : Exchange Addr) : After Addr → Nat
  | .answering _ response sent => (x.clientWrite.sent response).length - sent + 1
  | .connecting _ rewritten rest => (x.clientWrite.sent response502).length +
      (x.headWrite.sent rewritten).length + min x.transfer.forwarded rest.contents.length +
      x.transfer.relayed.length + 4
  | .sendingHead _ rewritten rest sent => (x.headWrite.sent rewritten).length - sent +
      min x.transfer.forwarded rest.contents.length + x.transfer.relayed.length + 3
  | .copying _ _ rest up down => min x.transfer.forwarded rest.contents.length - up +
      (x.transfer.relayed.length - down) + 1
  | .finished _ => 0

section

variable {Addr : Type} {x : Exchange Addr} {tls : Option Attempt} {build : Build}
  {display : Addr → Bytes}

theorem push_one (h : moved < limit) : push limit moved 1 = some (moved + 1) :=
  if_pos ⟨Nat.one_pos, h⟩

theorem before_left {a : Before} (h : a.Inv build display tls x) (hw : ¬ a.Waits)
    (hover : ∀ e client, a ≠ .finished e client)
    (hread : ∀ clientIp len buf rest, a ≠ .headRead clientIp len buf rest) :
    ∃ l a', a.step tls x l = some a' ∧ a'.left x < a.left x := by
  cases a with
  | accepted =>
    cases hip : x.clientIp with
    | none =>
      exact ⟨.go, .finished (.failed "failed to get client address") [],
        by simp only [Before.step, hip], Nat.succ_pos _⟩
    | some ip =>
      cases htls : tls with
      | none =>
        refine ⟨.go, .reading ip [] x.client, by simp only [Before.step, hip], ?_⟩
        simp only [Before.left, List.length_nil]
        omega
      | some handshake =>
        refine ⟨.go, .handshaking ip handshake, by simp only [Before.step, hip], ?_⟩
        simp only [Before.left]
        omega
  | handshaking ip handshake =>
    cases handshake with
    | succeeded =>
      refine ⟨.go, _, rfl, ?_⟩
      simp only [Before.left, List.length_nil]
      omega
    | failed => exact ⟨.go, _, rfl, Nat.succ_pos _⟩
    | timedOut => exact ⟨.go, _, rfl, Nat.succ_pos _⟩
  | reading ip buf client =>
    refine ⟨.go, ?_⟩
    by_cases hfull : headerBufSize ≤ buf.length
    · refine ⟨.refusing 0, by simp only [Before.step, if_pos hfull], ?_⟩
      simp only [Before.left]
      omega
    · have hlt := Nat.lt_of_not_le hfull
      cases hr : client.read (headerBufSize - buf.length) with
      | stop ending =>
        cases ending with
        | eof =>
          refine ⟨.refusing 0, by simp only [Before.step, if_neg hfull, hr], ?_⟩
          simp only [Before.left]
          omega
        | error =>
          refine ⟨.refusing 0, by simp only [Before.step, if_neg hfull, hr], ?_⟩
          simp only [Before.left]
          omega
        | idle => exact (hw ⟨hlt, hr⟩).elim
      | data xs rest =>
        have hpos := (takes_of_read hlt hr).nonempty
        cases hfind : findEnd headersEnd (buf ++ xs) with
        | some len =>
          exact ⟨.headRead ip len (buf ++ xs) rest,
            by simp only [Before.step, if_neg hfull, hr, hfind], Nat.succ_pos _⟩
        | none =>
          refine ⟨.reading ip (buf ++ xs) rest,
            by simp only [Before.step, if_neg hfull, hr, hfind], ?_⟩
          simp only [Before.left, List.length_append]
          omega
  | refusing sent =>
    rcases Nat.lt_or_eq_of_le h.1 with hlt | heq
    · refine ⟨.send 1, .refusing (sent + 1), by rw [Before.step, push_one hlt]; rfl, ?_⟩
      simp only [Before.left]
      omega
    · exact ⟨.go, .finished .returned (response431.take sent),
        by simp only [Before.step, if_pos heq], Nat.succ_pos _⟩
  | headRead ip len buf rest => exact (hread _ _ _ _ rfl).elim
  | finished e client => exact (hover _ _ rfl).elim

theorem after_left {b : After Addr} (hw : b.Within x) (hover : ∀ outcome, b ≠ .finished outcome) :
    ∃ l b', b.step x l = some b' ∧ b'.left x < b.left x := by
  cases b with
  | answering connected response sent =>
    rcases Nat.lt_or_eq_of_le hw with hlt | heq
    · refine ⟨.send 1, .answering connected response (sent + 1),
        by rw [After.step, push_one hlt]; rfl, ?_⟩
      simp only [After.left]
      omega
    · exact ⟨.go, .finished ⟨.returned, connected, [], response.take sent⟩,
        by simp only [After.step, if_pos heq], Nat.succ_pos _⟩
  | connecting addr rewritten rest =>
    refine ⟨.go, ?_⟩
    cases hc : x.connect addr with
    | succeeded =>
      refine ⟨.sendingHead addr rewritten rest 0, by simp only [After.step, hc], ?_⟩
      simp only [After.left]
      omega
    | failed =>
      refine ⟨.answering (some addr) response502 0, by simp only [After.step, hc], ?_⟩
      simp only [After.left]
      omega
    | timedOut =>
      refine ⟨.answering (some addr) response502 0, by simp only [After.step, hc], ?_⟩
      simp only [After.left]
      omega
  | sendingHead addr rewritten rest sent =>
    rcases Nat.lt_or_eq_of_le hw with hlt | heq
    · refine ⟨.send 1, .sendingHead addr rewritten rest (sent + 1),
        by rw [After.step, push_one hlt]; rfl, ?_⟩
      simp only [After.left]
      omega
    · refine ⟨.go, ?_⟩
      cases hhead : x.headWrite with
      | done =>
        refine ⟨.copying addr rewritten rest 0 0,
          by rw [After.step, if_pos heq, hhead], ?_⟩
        simp only [After.left]
        omega
      | failed k =>
        exact ⟨.finished ⟨.failed "failed to write headers to upstream", some addr,
          rewritten.take sent, []⟩, by rw [After.step, if_pos heq, hhead], Nat.succ_pos _⟩
  | copying addr rewritten rest up down =>
    rcases Nat.lt_or_eq_of_le hw.1 with hlt | hup
    · refine ⟨.up 1, .copying addr rewritten rest (up + 1) down,
        by rw [After.step, push_one hlt]; rfl, ?_⟩
      simp only [After.left]
      omega
    · rcases Nat.lt_or_eq_of_le hw.2 with hlt | hdown
      · refine ⟨.down 1, .copying addr rewritten rest up (down + 1),
          by rw [After.step, push_one hlt]; rfl, ?_⟩
        simp only [After.left]
        omega
      · exact ⟨.go, .finished ⟨.returned, some addr, rewritten ++ rest.contents.take up,
          x.transfer.relayed.take down⟩, if_pos ⟨hup, hdown⟩, Nat.succ_pos _⟩
  | finished outcome => exact (hover _ rfl).elim

end

theorem toEnd_eq_none (h : Ended.toEnd e = none) : e = .reading := by
  cases e with
  | reading => rfl
  | _ => cases h

/-- A connection is always as good as done when its calls are, unless its client is silent. -/
def servingLive {w : Nat} {Addr M X E D : Type} (tls : D → Option Attempt)
    (exchange : D → Exchange Addr) (build : Build) (display : Addr → Bytes)
    (answer : X → Option (Except Panic (Option Addr))) (o : Tickets.Object w M X E)
    (hended : ∀ y r, answer y = some r → ∀ mem, o.act mem y = none) (acting : X → Nat)
    (hacting : ∀ mem y, (∃ r, answer y = some r) ∨
      ∃ y', o.act mem y = some y' ∧ acting y' < acting y) :
    Live (serving tls exchange build display answer o)
      (fun d => Before.Inv build display (tls d) (exchange d))
      (fun d head => (Before.headRead head.clientIp head.len head.buf head.rest).Inv build display
        (tls d) (exchange d))
      (fun d y b => readyWith (tls d) (exchange d) = true ∧
        ∃ r, answer y = some r ∧ b.Inv build display (tls d) (exchange d) r)
      (fun _ => Before.Waits) where
  kept := connection_keeps hended
  before d := Before.left (exchange d)
  acting := acting
  after d := After.left (exchange d)
  before_step d a h hend hw := by
    by_cases hread : ∃ clientIp len buf rest, a = .headRead clientIp len buf rest
    · obtain ⟨ip, len, buf, rest, rfl⟩ := hread
      exact .inl ⟨_, rfl⟩
    · refine .inr (before_left h hw ?_ fun ip len buf rest he => hread ⟨ip, len, buf, rest, he⟩)
      rintro e client rfl
      exact h.1 (toEnd_eq_none (not_not.1 hend))
  acting_step mem y d k := by
    rcases hacting mem y with ⟨r, hr⟩ | hact
    · refine .inl ⟨After.start build display (exchange d) k r, ?_⟩
      exact congrArg (Option.map (After.start build display (exchange d) k)) hr
    · exact .inr hact
  after_step d y c b h hend := by
    obtain ⟨_, r, _, hw, _⟩ := h
    refine after_left hw ?_
    rintro outcome rfl
    exact hw (toEnd_eq_none (not_not.1 hend))

def B.Call.left : B.Call w Addr → Nat
  | .drawn _ => 1
  | .returned _ _ | .panicked _ => 0

theorem B.call_left (upstreams : List Addr) (y : B.Call w Addr) :
    (∃ r, y.answer = some r) ∨ ∃ y', y.act upstreams = some y' ∧ y'.left < y.left := by
  cases y with
  | drawn t =>
    refine .inr ?_
    rw [B.Call.act]
    split
    · exact ⟨_, rfl, Nat.one_pos⟩
    · exact ⟨_, rfl, Nat.one_pos⟩
  | returned idx addr => exact .inl ⟨_, rfl⟩
  | panicked p => exact .inl ⟨_, rfl⟩

def C.Call.left (n : Nat) : C.Call w Addr → Nat
  | .scanning _ i => n - i + 1
  | .returned _ | .panicked _ => 0

theorem C.call_left (mode : Overflow) (upstreams : List Addr) (health : List Bool)
    (y : C.Call w Addr) : (∃ r, y.answer = some r) ∨
      ∃ y', y.act mode upstreams health = some y' ∧
        y'.left upstreams.length < y.left upstreams.length := by
  cases y with
  | scanning start i =>
    refine .inr ?_
    cases hact : C.Call.act mode upstreams health (.scanning start i) with
    | none => exact (C.act_scanning_ne_none start i hact).elim
    | some y' =>
      refine ⟨y', rfl, ?_⟩
      cases C.acts_of_act hact with
      | exhausted _ => exact Nat.succ_pos _
      | passed hi _ =>
        simp only [C.Call.left]
        omega
      | found _ _ => exact Nat.succ_pos _
      | panicked _ _ => exact Nat.succ_pos _
  | returned found => exact .inl ⟨_, rfl⟩
  | panicked p => exact .inl ⟨_, rfl⟩

/-- No connection of options B and C is held up by another, by a checker or by `main`: wherever a
run has got to, the steps of its own task alone take it to its end, or to where its client is silent
before the end of its head. -/
theorem server_finishes (parse : Httparse.Parser) (display : Addr → Bytes)
    (upstreams : List Addr) (m : Overflow) (i k : Nat) :
    (∀ (ls : List (Server.Label (Exchange Addr) Act Empty))
      (s : Server.State u w Unit (B.Call w Addr) (Exchange Addr) Before Head (After Addr)),
      run ((B.server w parse display upstreams).step m) (start ()) ls = some s →
      s.loop.tasks[i]? = some (.handling k) →
      ∃ vs s', (∀ l ∈ vs, ∃ v, l = .task i v) ∧
        run ((B.server w parse display upstreams).step m) s vs = some s' ∧
        Settled (fun _ => Before.Waits) i s') ∧
    ∀ (M E : Type) (mode : Overflow) (flags : M → List Bool) (env : M → E → Option M) (mem : M)
      (ls : List (Server.Label (Attempt × Exchange Addr) Act E))
      (s : Server.State u w M (C.Call w Addr) (Attempt × Exchange Addr) Before Head (After Addr)),
      run ((C.server parse display (C.object w mode upstreams flags env)).step m) (start mem) ls =
        some s →
      s.loop.tasks[i]? = some (.handling k) →
      ∃ vs s', (∀ l ∈ vs, ∃ v, l = .task i v) ∧
        run ((C.server parse display (C.object w mode upstreams flags env)).step m) s vs =
          some s' ∧ Settled (fun _ => Before.Waits) i s' := by
  constructor
  · intro ls s hr hi
    exact finishes (servingLive (fun _ => none) id (B.buildForwardedRequest parse) display
      B.Call.answer (B.object w upstreams) (fun y r h _ => B.answer_ended h upstreams) B.Call.left
      (fun _ => B.call_left upstreams)) hr hi
  · intro M E mode flags env mem ls s hr hi
    exact finishes (servingLive (fun d : Attempt × Exchange Addr => some d.1) Prod.snd
      (C.buildForwardedRequest parse) display C.Call.answer (C.object w mode upstreams flags env)
      (fun y r h _ => C.answer_ended h mode upstreams _) (C.Call.left upstreams.length)
      (fun mem => C.call_left mode upstreams (flags mem))) hr hi

set_option maxRecDepth 4000 in
theorem server_finishes_overtaken :
    (∃ (s : Server.State 64 64 Unit (B.Call 64 Bytes) (Exchange Bytes) Before Head (After Bytes))
        (vs : List (Server.Label (Exchange Bytes) Act Empty))
        (s' : Server.State 64 64 Unit (B.Call 64 Bytes) (Exchange Bytes) Before Head (After Bytes)),
      (∀ l ∈ vs, ∃ v, l = .task 0 v) ∧
      run ((B.server 64 Httparse.grammarParser id twoHosts).step .checked) s vs = some s' ∧
      Settled (fun _ => Before.Waits) 0 s') ∧
    ∃ (s : Server.State 64 64 (List Bool) (C.Call 64 Bytes) (Attempt × Exchange Bytes) Before Head
          (After Bytes)) (vs : List (Server.Label (Attempt × Exchange Bytes) Act Empty))
        (s' : Server.State 64 64 (List Bool) (C.Call 64 Bytes) (Attempt × Exchange Bytes) Before
          Head (After Bytes)),
      (∀ l ∈ vs, ∃ v, l = .task 0 v) ∧
      run ((C.server Httparse.grammarParser id (C.frozen 64 .checked twoHosts)).step .checked) s
        vs = some s' ∧ Settled (fun _ => Before.Waits) 0 s' :=
  ⟨⟨_, (server_finishes Httparse.grammarParser id twoHosts .checked 0 3).1
      (B.overtaking.take 18) _ rfl rfl⟩,
    ⟨_, (server_finishes Httparse.grammarParser id twoHosts .checked 0 2).2 _ _ .checked id _
      [false, true] [.loop .poll, .accept false (.succeeded, wellFormed), .loop .poll,
        .accept true (.timedOut, malformed), .task 0 (.own .go), .task 1 (.own .go),
        .task 0 (.own .go)] _ rfl rfl⟩⟩

end ReverseProxy
