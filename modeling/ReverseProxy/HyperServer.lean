import ReverseProxy.Grounds
import ReverseProxy.Server
import ReverseProxy.Service

namespace ReverseProxy.D
open C (Call Config Grounds Memory Tick run_grounds system wire)
open Clients HttpHead Net Runs Usize
set_option autoImplicit true

/-- A connection that `main` has accepted, and the protocol its handshake agrees on. -/
structure Incoming where
  peerIp : Option Bytes
  handshake : Attempt
  alpn : Option Bytes
deriving DecidableEq, Repr

def Incoming.clientIp (d : Incoming) : Bytes := d.peerIp.getD (ascii "unknown")

def Incoming.http2 (d : Incoming) : Bool := d.alpn == some (ascii "h2")

inductive Stage
  | handshaking
  | serving
  | returned
  | panicked
deriving DecidableEq, Repr

/-- The handshake ends; `serve_connection` returns, and its error is dropped; a request that is
served in the task of its connection panics. -/
inductive ConnAct
  | go
  | close
  | crash
deriving DecidableEq, Repr

def Stage.step (d : Incoming) : Stage → ConnAct → Option Stage
  | .handshaking, .go =>
    match d.handshake with
    | .succeeded => some .serving
    | .failed | .timedOut => some .returned
  | .serving, .close => some .returned
  | .serving, .crash => some .panicked
  | _, _ => none

def Stage.ended : Stage → Option End
  | .handshaking | .serving => none
  | .returned => some (.returned false)
  | .panicked => some .panicked

def listening : Server 0 Unit Unit Empty Incoming Stage Empty Empty ConnAct :=
  .alone (fun _ => .handshaking) Stage.step Stage.ended (fun _ => rfl)

/-- The whole process: `main` with its connections, and the requests that these bring. -/
structure Process (u w : Nat) (M U X B R : Type) where
  listener : Server.State u 0 Unit Unit Incoming Stage Empty Empty
  requests : Clients.State w (Memory SocketAddr) (Call w SocketAddr) (Asked M U X B R) Unit Unit
    (Handling M U X B R)

inductive Label (M U X B R : Type)
  | listener (l : Server.Label Incoming ConnAct Empty)
  | request (x : Asked M U X B R)
  | serve (j : Nat) (v : Move Unit)
  | env (e : Tick)

variable {u w : Nat} {M U X B R : Type}

def Process.start (mem : Memory SocketAddr) : Process u w M U X B R :=
  ⟨Server.start (), idle 0 mem⟩

def Process.running (s : Process u w M U X B R) : Bool := Server.running s.listener.loop.phase

def Process.serving (s : Process u w M U X B R) (x : Asked M U X B R) : Option Incoming :=
  match s.listener.clients.clients[x.conn]? with
  | some ⟨d, .before .serving⟩ => some d
  | _ => none

/-- The requests of HTTP/1 are served in the task of their connection and end with it. Those of
HTTP/2 are tasks of their own, which are taken to go on when their connection is gone; hyper may
drop them then. -/
def Process.alive (s : Process u w M U X B R) (x : Asked M U X B R) : Bool :=
  match s.listener.clients.clients[x.conn]? with
  | some d => d.data.http2 || (s.serving x).isSome
  | none => false

def isCrash : Server.Label Incoming ConnAct Empty → Bool
  | .task _ (.own .crash) => true
  | _ => false

def Process.unwind (m : Overflow) (s : Process u w M U X B R) (j : Nat) :
    Option (Process u w M U X B R) :=
  match s.requests.clients[j]? with
  | some ⟨x, .after _ (.finished ⟨_, _, some (.error _)⟩)⟩ =>
    match s.serving x with
    | some d =>
      if d.http2 then some s
      else (listening.step m s.listener (.task x.conn (.own .crash))).map
        (fun listener => { s with listener := listener })
    | none => some s
  | _ => some s

def Process.step (crate : HttpCrate M U) (mode m : Overflow) (upstreams : List SocketAddr)
    (s : Process u w M U X B R) : Label M U X B R → Option (Process u w M U X B R)
  | .listener l =>
    if isCrash l then none
    else (listening.step m s.listener l).map (fun listener => { s with listener := listener })
  | .request x =>
    if s.running ∧ (s.serving x).map Incoming.clientIp = some x.clientIp then
      ((service crate C.Call.answer).step (system w mode upstreams) s.requests (.arrive x)).map
        (fun requests => { s with requests := requests })
    else none
  | .serve j v =>
    s.requests.clients[j]?.bind (fun c =>
      if s.running ∧ s.alive c.data then
        ((service crate C.Call.answer).step (system w mode upstreams) s.requests (.move j v)).bind
          (fun requests => Process.unwind m { s with requests := requests } j)
      else none)
  | .env e =>
    if s.running then
      ((service crate C.Call.answer).step (system w mode upstreams) s.requests (.env e)).map
        (fun requests => { s with requests := requests })
    else none

variable {crate : HttpCrate M U} {mode m : Overflow} {upstreams : List SocketAddr}
  {s s' : Process u w M U X B R}

def toRequests : Label M U X B R → List (Clients.Label (Asked M U X B R) Unit Tick)
  | .listener _ => []
  | .request x => [.arrive x]
  | .serve j v => [.move j v]
  | .env e => [.env e]

theorem unwind_requests (h : s.unwind m j = some s') : s'.requests = s.requests := by
  unfold Process.unwind at h
  split at h
  · split at h
    · split at h
      · cases h
        rfl
      · obtain ⟨_, _, rfl⟩ := Option.map_eq_some_iff.1 h
        rfl
    · cases h
      rfl
  · cases h
    rfl

theorem unwind_listener (h : s.unwind m j = some s') :
    ∃ ls, run (listening.step m) s.listener ls = some s'.listener := by
  unfold Process.unwind at h
  split at h
  · split at h
    · split at h
      · cases h
        exact ⟨[], rfl⟩
      · obtain ⟨_, hl, rfl⟩ := Option.map_eq_some_iff.1 h
        exact ⟨[_], run_singleton hl⟩
    · cases h
      exact ⟨[], rfl⟩
  · cases h
    exact ⟨[], rfl⟩

theorem step_requests (h : s.step crate mode m upstreams l = some s') :
    run ((service crate C.Call.answer).step (system w mode upstreams)) s.requests (toRequests l) =
      some s'.requests := by
  cases l with
  | listener l =>
    rw [Process.step] at h
    split at h
    · cases h
    · obtain ⟨_, _, rfl⟩ := Option.map_eq_some_iff.1 h
      rfl
  | request x =>
    rw [Process.step] at h
    split at h
    · obtain ⟨_, hr, rfl⟩ := Option.map_eq_some_iff.1 h
      exact run_singleton hr
    · cases h
  | serve j v =>
    obtain ⟨c, _, h⟩ := Option.bind_eq_some_iff.1 h
    split at h
    · obtain ⟨requests, hr, h⟩ := Option.bind_eq_some_iff.1 h
      rw [unwind_requests h]
      exact run_singleton hr
    · cases h
  | env e =>
    rw [Process.step] at h
    split at h
    · obtain ⟨_, hr, rfl⟩ := Option.map_eq_some_iff.1 h
      exact run_singleton hr
    · cases h

theorem run_requests (hr : run (Process.step crate mode m upstreams) s ls = some s') :
    run ((service crate C.Call.answer).step (system w mode upstreams)) s.requests
      (ls.flatMap toRequests) = some s'.requests :=
  run_flatMap (f := Process.requests) (fun _ _ _ h => step_requests h) hr

theorem step_listener (h : s.step crate mode m upstreams l = some s') :
    ∃ ls, run (listening.step m) s.listener ls = some s'.listener := by
  cases l with
  | listener l =>
    rw [Process.step] at h
    split at h
    · cases h
    · obtain ⟨_, hl, rfl⟩ := Option.map_eq_some_iff.1 h
      exact ⟨[l], run_singleton hl⟩
  | request x =>
    rw [Process.step] at h
    split at h
    · obtain ⟨_, _, rfl⟩ := Option.map_eq_some_iff.1 h
      exact ⟨[], rfl⟩
    · cases h
  | serve j v =>
    obtain ⟨c, _, h⟩ := Option.bind_eq_some_iff.1 h
    split at h
    · obtain ⟨requests, _, h⟩ := Option.bind_eq_some_iff.1 h
      have := unwind_listener h
      exact this
    · cases h
  | env e =>
    rw [Process.step] at h
    split at h
    · obtain ⟨_, _, rfl⟩ := Option.map_eq_some_iff.1 h
      exact ⟨[], rfl⟩
    · cases h

theorem run_listener (hr : run (Process.step crate mode m upstreams) s ls = some s') :
    ∃ ks, run (listening.step m) s.listener ks = some s'.listener :=
  run_simulation (f := Process.listener) (fun _ _ _ h => step_listener h) hr

theorem run_handshake {l : Server.State u 0 Unit Unit Incoming Stage Empty Empty}
    (hr : run (listening.step m) (Server.start ()) ks = some l) (hd : d ∈ l.clients.clients)
    (hplace : d.place = .before .serving) : d.data.handshake = .succeeded := by
  have hstep (d : Incoming) (a : Stage) (v : ConnAct) (a' : Stage)
      (_ : a = .serving → d.handshake = .succeeded) (h : a.step d v = some a') :
      a' = .serving → d.handshake = .succeeded := by
    rintro rfl
    unfold Stage.step at h
    split at h
    · split at h
      · assumption
      · cases h
      · cases h
    · cases h
    · cases h
    · cases h
  obtain ⟨a, ha, hserving⟩ := Server.alone_keeps
    (P := fun d a => a = Stage.serving → d.handshake = .succeeded) (fun _ h => by cases h) hstep
    hr d hd
  cases ha.symm.trans hplace
  exact hserving rfl

theorem Stage.step_ne {d : Incoming} {a a' : Stage} (h : a.step d v = some a') :
    a' ≠ .handshaking := by
  unfold Stage.step at h
  split at h
  · split at h
    · cases h
      exact nofun
    · cases h
      exact nofun
    · cases h
      exact nofun
  · cases h
    exact nofun
  · cases h
    exact nofun
  · cases h

/-- The request was brought by an accepted connection, from the client of that connection and behind
its handshake, which has succeeded. -/
def Attributed (s : Process u w M U X B R) (x : Asked M U X B R) : Prop :=
  ∃ d, s.listener.clients.clients[x.conn]? = some d ∧ d.place ≠ .before .handshaking ∧
    d.data.handshake = .succeeded ∧ d.data.clientIp = x.clientIp

theorem Attributed.mono (h : Attributed s x)
    (hr : run (listening.step m) s.listener ks = some s'.listener) : Attributed s' x := by
  obtain ⟨d, hd, hplace, hshake, hip⟩ := h
  obtain ⟨d', hd', hdata, hplace'⟩ := run_client (Q := fun _ p => p ≠ .before .handshaking)
    (fun _ _ _ _ _ _ hm _ => by
      cases hm with
      | before hstep => exact fun he => Stage.step_ne hstep (Place.before.inj he)
      | call _ _ => exact nofun
      | act _ => exact nofun
      | resume _ _ => exact nofun
      | after _ => exact nofun)
    (Server.run_clients hr) hd hplace
  exact ⟨d', hd', hplace', by rw [hdata, hshake], by rw [hdata, hip]⟩

theorem serving_attributed (hr : run (listening.step m) (Server.start ()) ks = some s.listener)
    (h : (s.serving x).map Incoming.clientIp = some x.clientIp) : Attributed s x := by
  unfold Process.serving at h
  split at h
  · next d hd =>
    exact ⟨_, hd, nofun, run_handshake hr (List.mem_of_getElem? hd) rfl, Option.some.inj h⟩
  · cases h

theorem step_attributed (hr : run (listening.step m) (Server.start ()) ks = some s.listener)
    (hs : ∀ c ∈ s.requests.clients, Attributed s c.data)
    (h : s.step crate mode m upstreams l = some s') :
    ∀ c ∈ s'.requests.clients, Attributed s' c.data := by
  intro c hc
  obtain ⟨ks, hlistener⟩ := step_listener h
  have hrequests := step_requests h
  suffices hbefore : Attributed s c.data from hbefore.mono hlistener
  have hold {v : Clients.Label (Asked M U X B R) Unit Tick} (hne : ∀ x, v ≠ .arrive x)
      (hv : (service crate C.Call.answer).step (system w mode upstreams) s.requests v =
        some s'.requests) : Attributed s c.data := by
    rcases step_mem hv hc with ⟨c₀, hc₀, hdata⟩ | harrive
    · exact hdata ▸ hs c₀ hc₀
    · exact (hne _ harrive).elim
  cases l with
  | listener l =>
    have heq : s.requests = s'.requests := Option.some.inj hrequests
    rw [← heq] at hc
    exact hs c hc
  | request x =>
    rw [Process.step] at h
    split at h
    · next hserving =>
      obtain ⟨requests, hx, rfl⟩ := Option.map_eq_some_iff.1 h
      rcases step_mem hx hc with ⟨c₀, hc₀, hdata⟩ | harrive
      · exact hdata ▸ hs c₀ hc₀
      · cases harrive
        exact serving_attributed hr hserving.2
    · cases h
  | serve j v =>
    obtain ⟨u, hv, hu⟩ := run_cons_eq_some.1 hrequests
    cases hu
    refine hold (fun x hx => ?_) hv
    cases hx
  | env e =>
    obtain ⟨u, hv, hu⟩ := run_cons_eq_some.1 hrequests
    cases hu
    refine hold (fun x hx => ?_) hv
    cases hx

theorem run_attributed (hr : run (Process.step crate mode m upstreams) (.start mem) ls = some s) :
    ∀ c ∈ s.requests.clients, Attributed s c.data := by
  have hstep (s : Process u w M U X B R) (l : Label M U X B R) (s' : Process u w M U X B R)
      (hs : (∃ ks, run (listening.step m) (Server.start ()) ks = some s.listener) ∧
        ∀ c ∈ s.requests.clients, Attributed s c.data)
      (h : s.step crate mode m upstreams l = some s') :
      (∃ ks, run (listening.step m) (Server.start ()) ks = some s'.listener) ∧
        ∀ c ∈ s'.requests.clients, Attributed s' c.data := by
    obtain ⟨⟨ks, hks⟩, hs⟩ := hs
    obtain ⟨ks', hks'⟩ := step_listener h
    exact ⟨⟨ks ++ ks', run_append_eq_some.2 ⟨_, hks, hks'⟩⟩, step_attributed hks hs h⟩
  exact (run_invariant hstep ⟨⟨[], rfl⟩, fun c hc => by cases hc⟩ hr).2

/-- What a run has done for the request `c`, its `j`-th: nothing while the balancer has not
answered, and then a part of what `handle` does with the answer of its call, which has its grounds.
What is sent on goes to the upstream of that answer, with the fields of the proxy. -/
inductive Delivered (parseAddr : String → Option SocketAddr) (config : Config)
    (crate : HttpCrate M U) (mode : Overflow) (w : Nat) (upstreams : List SocketAddr)
    (mem : Memory SocketAddr) (calls : List (Call w SocketAddr)) (ls : List (Label M U X B R))
    (j : Nat) (c : Client (Asked M U X B R) Unit Unit (Handling M U X B R)) : Prop
  | unanswered : Turn.seen c.place = ⟨none, none, none⟩ →
      Delivered parseAddr config crate mode w upstreams mem calls ls j c
  | answered (n : Nat) (y : Call w SocketAddr) (r : Except Panic (Option SocketAddr)) :
      c.place.index = some n → calls[n]? = some y → y.answer = some r →
      Grounds (w := w) parseAddr config (service crate C.Call.answer) mode upstreams mem
        (ls.flatMap toRequests) j n r →
      (Turn.seen c.place).Le (handleAnswered crate c.data r) →
      (∀ fwd, (Turn.seen c.place).forwarded = some fwd → ∃ addr, r = .ok (some addr) ∧
        (Turn.seen c.place).connected = some addr ∧
        Rewritten crate c.data.request addr.display c.data.clientIp c.data.requestId fwd) →
      Delivered parseAddr config crate mode w upstreams mem calls ls j c

theorem connected_of_forwarded {b : Handling M U X B R} {x : Asked M U X B R}
    {t : Seen M U X B R} (hle : b.seen.Le t) (hfin : b.finish x = t)
    (hfwd : b.seen.forwarded = some fwd) : b.seen.connected = t.connected := by
  cases b with
  | connecting addr fwd => cases hfwd
  | shaking addr fwd => cases hfwd
  | sending addr fwd => exact hle.connected.resolve_left nofun
  | finished seen => exact congrArg Seen.connected hfin

/-- Whatever the order in which connections are accepted, requests of any of them are served and
checkers store their results, each request is answered on the grounds of the balancer's answer to
it, and carries the address of its own client. -/
theorem process_delivers (readToString : String → Option String)
    (fromToml : String → Option Config) (parseAddr : String → Option SocketAddr) (path : String)
    (config : Config) (crate : HttpCrate M U) (hc : crate.MapConforms) (mode m : Overflow)
    (upstreams : List SocketAddr) (mem : Memory SocketAddr) (ls : List (Label M U X B R))
    (s : Process u w M U X B R)
    (hload : Config.load readToString fromToml parseAddr path = .ok config)
    (hwire : wire parseAddr config = some (upstreams, mem))
    (hr : run (Process.step crate mode m upstreams) (.start mem) ls = some s) (j : Nat)
    (c : Client (Asked M U X B R) Unit Unit (Handling M U X B R))
    (hj : s.requests.clients[j]? = some c) :
    Attributed s c.data ∧
      Delivered parseAddr config crate mode w upstreams mem s.requests.object.calls ls j c := by
  refine ⟨run_attributed hr c (List.mem_of_getElem? hj), ?_⟩
  have hrequests := run_requests hr
  have hended : ∀ (y : Call w SocketAddr) r, y.answer = some r →
      ∀ mem, (system w mode upstreams).act mem y = none :=
    fun y r h mem => C.answer_ended h mode upstreams _
  have hholds := (service_keeps hended).run hrequests c (List.mem_of_getElem? hj)
  obtain ⟨x, place⟩ := c
  cases place with
  | before a => exact .unanswered rfl
  | calling n k => exact .unanswered rfl
  | after n b =>
    obtain ⟨y, hy, _, r, hans, hfin⟩ := hholds
    have hle : b.seen.Le (handleAnswered crate x r) := hfin ▸ seen_le b
    refine .answered n y r rfl hy hans
      (run_grounds (C.Config.load_valid hload) hwire hrequests hj rfl hy hans) hle
      fun fwd hfwd => ?_
    have hsent : (handleAnswered crate x r).forwarded = some fwd := by
      rcases hle.forwarded with h | h
      · cases h.symm.trans hfwd
      · exact h ▸ hfwd
    obtain ⟨addr, hr', hconn, hrewritten⟩ := handleAnswered_forwarded hc hsent
    exact ⟨addr, hr', (connected_of_forwarded hle hfin hfwd).trans hconn, hrewritten⟩

def parseLoopback (text : String) : Option SocketAddr :=
  if text = "127.0.0.1:8443" then some (.v4 ⟨127, 0, 0, 1⟩ 8443)
  else if text = "127.0.0.1:9091" then some (.v4 ⟨127, 0, 0, 1⟩ 9091)
  else if text = "127.0.0.1:9092" then some (.v4 ⟨127, 0, 0, 1⟩ 9092)
  else none

def loopbacks : List SocketAddr := [.v4 ⟨127, 0, 0, 1⟩ 9091, .v4 ⟨127, 0, 0, 1⟩ 9092]

def spoofing : Asked (List (Bytes × Bytes)) PlainUri Unit Unit Bytes where
  conn := 0
  clientIp := ascii "unknown"
  request := getRequest ⟨none, none, ascii "/"⟩ spoofedFields
  requestId := ascii "f47ac10b-58cc-4372-a567-0e02b2c3d479"
  connect _ := .succeeded
  handshake := true
  send _ := .response ⟨200, [], some (ascii "hello")⟩

def sendingOn : List (Label (List (Bytes × Bytes)) PlainUri Unit Unit Bytes) :=
  [.listener (.loop .poll), .listener (.accept false ⟨none, .succeeded, some (ascii "h2")⟩),
    .listener (.task 0 (.own .go)), .request spoofing, .env (.wake 0), .serve 0 .call,
    .env (.answer 0 false), .env (.store 0), .serve 0 .act, .serve 0 .act, .serve 0 .resume,
    .serve 0 (.own ()), .serve 0 (.own ())]

set_option maxRecDepth 4000 in
theorem process_delivers_sendingOn :
    ∃ (s : Process 64 64 (List (Bytes × Bytes)) PlainUri Unit Unit Bytes)
      (c : Client (Asked (List (Bytes × Bytes)) PlainUri Unit Unit Bytes) Unit Unit
        (Handling (List (Bytes × Bytes)) PlainUri Unit Unit Bytes)),
      (Turn.seen c.place).connected = some (.v4 ⟨127, 0, 0, 1⟩ 9092) ∧
      Attributed s c.data ∧
      Delivered parseLoopback C.twoUpstreams plainCrate .checked 64 loopbacks
        ⟨[true, true], C.spawnCheckers loopbacks, []⟩ s.requests.object.calls sendingOn 0 c :=
  ⟨_, _, rfl, process_delivers C.readLocal
    (fun text => if text = C.configText then some C.twoUpstreams else none) parseLoopback
    "config.toml" C.twoUpstreams plainCrate plainCrate_mapConforms .checked .checked loopbacks _
    sendingOn _ (C.load_eq_ok.2 ⟨C.configText, if_pos rfl, if_pos rfl, rfl⟩) rfl rfl 0 _ rfl⟩

end ReverseProxy.D
