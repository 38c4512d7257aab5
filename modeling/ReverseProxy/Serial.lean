import ReverseProxy.Refinement
import ReverseProxy.Server

namespace ReverseProxy
open Clients HttpHead Runs Server Tickets Usize
set_option autoImplicit true

def Ended.toEnd : Ended → Option End
  | .returned => some (.returned false)
  | .failed _ => some (.returned true)
  | .panicked _ => some .panicked
  | .reading => none

def serving (tls : D → Option Attempt) (exchange : D → Exchange Addr) (build : Build)
    (display : Addr → Bytes) (answer : X → Option (Except Panic (Option Addr)))
    (o : Object w M X E) : Server w M X E D Before Head (After Addr) Act where
  machine := connection tls exchange build display answer
  object := o
  ended p := (Standing.ended p).bind Ended.toEnd
  started _ := rfl

def B.server (w : Nat) (parse : Httparse.Parser) (display : Addr → Bytes) (upstreams : List Addr) :
    Server w Unit (B.Call w Addr) Empty (Exchange Addr) Before Head (After Addr) Act :=
  serving (fun _ => none) id (B.buildForwardedRequest parse) display B.Call.answer
    (B.object w upstreams)

def C.server (parse : Httparse.Parser) (display : Addr → Bytes) (o : Object w M (C.Call w Addr) E) :
    Server w M (C.Call w Addr) E (Attempt × Exchange Addr) Before Head (After Addr) Act :=
  serving (fun d => some d.1) Prod.snd (C.buildForwardedRequest parse) display C.Call.answer o

abbrev Conn (D Addr : Type) := AcceptLoop.Task × Client D Before Head (After Addr)

def conns (s : Server.State u w M X D Before Head (After Addr)) : List (Conn D Addr) :=
  s.loop.tasks.zip s.clients.clients

/-- The task of a connection does what comes to `outcome`: so far a part of it, and all of it when
the task has run to its end. -/
structure Serving (x : Exchange Addr) (t : AcceptLoop.Task) (p : Standing Addr)
    (outcome : Outcome Addr) : Prop where
  sent : (Standing.sent x p).Le outcome.sent
  ended : t.ranToEnd = true → Serves outcome.ended.toEnd t ∧ Standing.sent x p = outcome.sent

/-- The connections seem to have been handled one after another by `handle`, those in `called`
first, in the order of their tickets, and to have taken the balancer from `b` to `b'`. -/
structure Serial (handle : D → S → Handled Addr × S) (exchange : D → Exchange Addr) (b b' : S)
    (called rest : List (Conn D Addr)) : Prop where
  tickets : ∀ (c : Nat) (d : Conn D Addr), called[c]? = some d → d.2.place.index = some c
  waiting : ∀ d ∈ rest, d.2.place.index = none
  serving : ∀ (i : Nat) (d : Conn D Addr), (called ++ rest)[i]? = some d → ∃ h,
    (handleAll handle ((called ++ rest).map (fun d => d.2.data)) b).1[i]? = some h ∧
      Serving (exchange d.2.data) d.1 d.2.place h.outcome
  balancer : (handleAll handle (called.map (fun d => d.2.data)) b).2 = b'

variable {u w : Nat} {Addr M X E D S : Type} {tls : D → Option Attempt}
  {exchange : D → Exchange Addr} {build : Build} {display : Addr → Bytes}
  {answer : X → Option (Except Panic (Option Addr))} {o : Object w M X E}

theorem Tracks.serving {x : Exchange Addr} {p : Standing Addr} {outcome : Outcome Addr}
    (h : Tracks x p outcome) (ht : Serves ((Standing.ended p).bind Ended.toEnd) t) :
    Serving x t p outcome := by
  refine ⟨h.sent, fun hend => ?_⟩
  obtain ⟨e, he⟩ := Option.isSome_iff_exists.1 (ht.ranToEnd_iff.1 hend)
  obtain ⟨ended, hended, he'⟩ := Option.bind_eq_some_iff.1 he
  rw [he, ← he'] at ht
  rw [h.ended ended hended]
  exact ⟨ht, rfl⟩

theorem conns_mem {s : Server.State u w M X D Before Head (After Addr)}
    (hs : Synced (serving tls exchange build display answer o) s) (hd : d ∈ conns s) :
    d.2 ∈ s.clients.clients ∧ Serves ((Standing.ended d.2.place).bind Ended.toEnd) d.1 := by
  obtain ⟨i, hi⟩ := List.mem_iff_getElem?.1 hd
  obtain ⟨ht, hc⟩ := List.getElem?_zip_eq_some.1 hi
  exact ⟨List.mem_of_getElem? hc, hs.serves i d.1 d.2 ht hc⟩

/-- When a call comes to what `pick` gives after as many calls as have drawn a ticket before it, any
interleaving of the connections looks like one in which they are handled one after another. -/
theorem run_serial {mem : M} (tls : D → Option Attempt) (exchange : D → Exchange Addr)
    (build : Build) (display : Addr → Bytes) (answer : X → Option (Except Panic (Option Addr)))
    (o : Object w M X E) (pick : S → Except Panic (Option Addr) × S) (state : Nat → S)
    {s : Server.State u w M X D Before Head (After Addr)}
    (hended : ∀ y r, answer y = some r → ∀ mem, o.act mem y = none)
    (hnext : ∀ t, (pick (state t)).2 = state (t + 1))
    (hanswer : ∀ (ks : List (Tickets.Label E)) v, run o.step (fresh 0 mem) ks = some v →
      ∀ (c : Nat) y r, v.calls[c]? = some y → answer y = some r → (pick (state c)).1 = r)
    (hr : run ((serving tls exchange build display answer o).step m) (start mem) ls = some s) :
    ∃ called rest : List (Conn D Addr), (called ++ rest).Perm (conns s) ∧
      Serial (fun d => handleWith (tls d) build display pick (exchange d)) exchange (state 0)
        (state s.clients.object.calls.length) called rest := by
  have hclients := run_clients hr
  obtain ⟨js, hobject⟩ := run_object hclients
  have hstands : ∀ d ∈ s.clients.clients,
      Stands tls exchange build display answer o s.clients.object d.data d.place :=
    (connection_keeps hended).run hclients
  have hsync := run_synced hr
  have hmap : (conns s).map Prod.snd = s.clients.clients :=
    List.map_snd_zip (Nat.le_of_eq hsync.length.symm)
  obtain ⟨called, rest, hperm, hlen, hcalled, hrest⟩ := run_order hclients hmap
  have hmem {d : Conn D Addr} (hd : d ∈ called ++ rest) := conns_mem hsync (hperm.mem_iff.1 hd)
  have hready : ∀ d ∈ called.map (fun d => d.2.data), readyWith (tls d) (exchange d) = true := by
    intro a ha
    obtain ⟨d, hd, rfl⟩ := List.mem_map.1 ha
    obtain ⟨c, hc⟩ := List.mem_iff_getElem?.1 hd
    exact (hstands _ (hmem (List.mem_append_left _ hd)).1).ready (hcalled c d hc)
  have htickets (ds : List D) := handleAll_tickets
    (fun d => handleWith (tls d) build display pick (exchange d))
    (fun d => readyWith (tls d) (exchange d)) state
    (fun d t => handleWith_ticket hnext (tls d) (exchange d) t) ds 0
  refine ⟨called, rest, hperm, hcalled, hrest, fun i d hd => ?_, ?_⟩
  · obtain ⟨hd', hserves⟩ := hmem (List.mem_of_getElem? hd)
    have hi : ((called ++ rest).map (fun d => d.2.data))[i]? = some d.2.data := by
      rw [List.getElem?_map, hd]
      rfl
    refine ⟨_, (htickets _).1 i _ hi, Tracks.serving ((hstands _ hd').tracks pick _ ?_) hserves⟩
    intro c y r hc hy hans
    -- a connection that has called stands at the place of its ticket, behind ready ones only
    obtain ⟨rfl, hlt⟩ : c = i ∧ i < called.length := by
      rcases Nat.lt_or_ge i called.length with hlt | hge
      · rw [List.getElem?_append_left hlt] at hd
        exact ⟨Option.some.inj (hc.symm.trans (hcalled i d hd)), hlt⟩
      · rw [List.getElem?_append_right hge] at hd
        cases hc.symm.trans (hrest d (List.mem_of_getElem? hd))
    have htake : ((called ++ rest).map (fun d => d.2.data)).take c =
        (called.map (fun d => d.2.data)).take c := by
      rw [List.map_append, List.take_append_of_le_length]
      rw [List.length_map]
      exact Nat.le_of_lt hlt
    have hcount : ((called.map (fun d => d.2.data)).take c).countP
        (fun d => readyWith (tls d) (exchange d)) = c := by
      rw [List.countP_eq_length.2 (fun a ha => hready a (List.mem_of_mem_take ha)),
        List.length_take, List.length_map, Nat.min_eq_left (Nat.le_of_lt hlt)]
    rw [Nat.zero_add, htake, hcount]
    exact hanswer js _ hobject c y r hy hans
  · rw [(htickets _).2, List.countP_eq_length.2 hready, Nat.zero_add, List.length_map, hlen]

theorem run_counter {s : Server.State u w M X D Before Head (After Addr)} {mem : M}
    (hr : run ((serving tls exchange build display answer o).step m) (start mem) ls = some s) :
    s.clients.object.counter = BitVec.ofNat w s.clients.object.calls.length := by
  obtain ⟨ks, hobject⟩ := run_object (run_clients hr)
  exact (Tickets.run_counter (t := 0) (BitVec.zero_add _).symm hobject).trans (BitVec.zero_add _)

theorem ticket_zero (c : Nat) : (0 : BitVec w) + BitVec.ofNat w c = BitVec.ofNat w c :=
  BitVec.zero_add _

namespace B

def Agrees (upstreams : List Addr) (t : BitVec w) : Call w Addr → Prop
  | .drawn t' => t' = t
  | .returned idx addr => choose upstreams t = .ok (idx, addr)
  | .panicked p => choose upstreams t = .error p

theorem Agrees.act {upstreams : List Addr} {t : BitVec w} (h : Agrees upstreams t x)
    (hx : Call.act upstreams x = some x') : Agrees upstreams t x' := by
  cases x with
  | drawn t' =>
    cases h
    rw [Call.act] at hx
    split at hx
    · next p hp =>
      cases hx
      exact hp
    · next idx addr hp =>
      cases hx
      exact hp
  | returned idx addr => cases hx
  | panicked p => cases hx

theorem object_agrees (upstreams : List Addr) (t : BitVec w) :
    (object w upstreams).Keeps t (fun _ => True)
      (fun c _ x => Agrees upstreams (t + BitVec.ofNat w c) x) where
  enter _ _ _ := rfl
  act _ _ _ _ _ hJ hx := hJ.act hx
  env _ e := nomatch e
  stable _ _ e := nomatch e

theorem Agrees.pick {upstreams : List Addr} {t : BitVec w} {y : Call w Addr}
    (h : Agrees upstreams t y) (hr : y.answer = some r) : (pick ⟨upstreams, t⟩).1 = r := by
  cases y with
  | drawn t' => cases hr
  | returned idx addr =>
    cases hr
    simp only [B.pick, Balancer.next, show choose upstreams t = .ok (idx, addr) from h]
    rfl
  | panicked p =>
    cases hr
    simp only [B.pick, Balancer.next, show choose upstreams t = .error p from h]
    rfl

/-- Whatever the order of the steps of `main`, of its connections and of the shutdown, option B's
connections do what they would do one after another, in the order of their tickets; those cut off
have done a part of it. -/
theorem server_serializes (parse : Httparse.Parser) (display : Addr → Bytes)
    (upstreams : List Addr) (m : Overflow) (ls : List (Server.Label (Exchange Addr) Act Empty))
    (s : Server.State u w Unit (Call w Addr) (Exchange Addr) Before Head (After Addr))
    (hr : run ((server w parse display upstreams).step m) (start ()) ls = some s) :
    ∃ called rest : List (Conn (Exchange Addr) Addr), (called ++ rest).Perm (conns s) ∧
      Serial (handleConnection parse display) id (.new upstreams)
        ⟨upstreams, s.clients.object.counter⟩ called rest := by
  rw [run_counter hr]
  refine run_serial (fun _ => none) id (buildForwardedRequest parse) display Call.answer
    (object w upstreams) pick (fun t => ⟨upstreams, BitVec.ofNat w t⟩)
    (fun y r h _ => answer_ended h upstreams) (fun t => ?_) (fun ks v hv c y r hy hr => ?_) hr
  · rw [BitVec.ofNat_add]
    rfl
  · have := ((object_agrees upstreams 0).run trivial hv).calls c y hy
    rw [ticket_zero] at this
    exact this.pick hr

def overtaking : List (Server.Label (Exchange Bytes) Act Empty) :=
  [.loop .poll, .accept false malformed, .loop .poll, .accept false wellFormed, .loop .poll,
    .task 0 (.own .go), .task 1 (.own .go), .task 1 (.own .go), .task 1 .call, .task 0 (.own .go),
    .task 0 .call, .task 1 .act, .task 1 .resume, .task 1 (.own .go), .task 1 (.own (.send 158)),
    .task 1 (.own .go), .task 1 (.own .go), .loop (.decrement 1), .task 0 .act, .task 0 .resume,
    .task 0 (.own (.send 20)), .loop .signal, .loop .takeShutdown, .loop .mainReturns]

set_option maxRecDepth 4000 in
theorem server_serializes_overtaking :
    ∃ s : Server.State 64 64 Unit (Call 64 Bytes) (Exchange Bytes) Before Head (After Bytes),
      s.loop.tasks = [.cancelled 6, .done] ∧
      ∃ called rest : List (Conn (Exchange Bytes) Bytes), (called ++ rest).Perm (conns s) ∧
        Serial (handleConnection Httparse.grammarParser id) id (.new twoHosts)
          ⟨twoHosts, s.clients.object.counter⟩ called rest :=
  ⟨_, rfl, server_serializes Httparse.grammarParser id twoHosts .checked overtaking _ rfl⟩

end B

namespace C

theorem Agrees.nextHealthy {upstreams : List Addr} {health : List Bool} {t : BitVec w}
    {y : Call w Addr} (h : Agrees m upstreams health t y) (hr : y.answer = some r) :
    (Balancer.nextHealthy m ⟨upstreams, health, t⟩).1 = r := by
  cases y with
  | scanning start i => cases hr
  | returned found =>
    cases hr
    simp only [Balancer.nextHealthy, show choose m upstreams health t = .ok found from h]
    rfl
  | panicked p =>
    cases hr
    simp only [Balancer.nextHealthy, show choose m upstreams health t = .error p from h]
    rfl

/-- The same of option C while no flag changes, overflowing scans included. -/
theorem tlsServer_serializes (mode : Overflow) (parse : Httparse.Parser) (display : Addr → Bytes)
    (upstreams : List Addr) (health : List Bool) (m : Overflow)
    (ls : List (Server.Label (Attempt × Exchange Addr) Act Empty))
    (s : Server.State u w (List Bool) (Call w Addr) (Attempt × Exchange Addr) Before Head
      (After Addr))
    (hr : run ((server parse display (frozen w mode upstreams)).step m) (start health) ls =
      some s) :
    ∃ called rest : List (Conn (Attempt × Exchange Addr) Addr),
      (called ++ rest).Perm (conns s) ∧
      Serial (fun d => handleConnection mode parse display d.1 d.2) Prod.snd
        (.new upstreams health)
        ⟨upstreams, health, s.clients.object.counter⟩ called rest := by
  have heq : (fun d : Attempt × Exchange Addr =>
      handleConnection (w := w) mode parse display d.1 d.2) = fun d => handleWith (some d.1)
        (buildForwardedRequest parse) display (Balancer.nextHealthy mode) d.2 := by
    funext d b
    exact handleConnection_eq_with mode parse display d.1 d.2 b
  rw [heq, run_counter hr]
  refine run_serial (fun d : Attempt × Exchange Addr => some d.1) Prod.snd
    (buildForwardedRequest parse) display Call.answer (frozen w mode upstreams)
    (Balancer.nextHealthy mode) (fun t => ⟨upstreams, health, BitVec.ofNat w t⟩)
    (fun y r h _ => answer_ended h mode upstreams _) (fun t => ?_)
    (fun ks v hv c y r hy hr => ?_) hr
  · rw [BitVec.ofNat_add]
    rfl
  · have := ((frozen_keeps mode upstreams health 0).run rfl hv).calls c y hy
    rw [ticket_zero] at this
    exact this.nextHealthy hr

set_option maxRecDepth 4000 in
theorem tlsServer_serializes_second :
    ∃ s : Server.State 64 64 (List Bool) (Call 64 Bytes) (Attempt × Exchange Bytes) Before Head
        (After Bytes),
      s.clients.object.calls = [.returned (some (1, ascii "192.0.2.8:80"))] ∧
      ∃ called rest : List (Conn (Attempt × Exchange Bytes) Bytes),
        (called ++ rest).Perm (conns s) ∧
        Serial (fun d => handleConnection .checked Httparse.grammarParser id d.1 d.2) Prod.snd
          (.new twoHosts [false, true])
          ⟨twoHosts, [false, true], s.clients.object.counter⟩ called rest :=
  ⟨_, rfl, tlsServer_serializes .checked Httparse.grammarParser id twoHosts [false, true] .checked
    [.loop .poll, .accept false (.succeeded, wellFormed), .loop .poll,
      .accept true (.timedOut, malformed), .task 0 (.own .go), .task 1 (.own .go),
      .task 0 (.own .go), .task 0 (.own .go), .task 0 .call, .task 1 (.own .go), .task 0 .act,
      .task 0 .act, .task 0 .resume] _ rfl⟩

end C

end ReverseProxy
