import ReverseProxy.Grounds
import ReverseProxy.Serial

namespace ReverseProxy.C
open Clients HttpHead Runs Server Usize
set_option autoImplicit true

/-- `handle_connection` on its own, when its balancer answers `r`. -/
def handleAnswered (parse : Httparse.Parser) (display : Addr → Bytes) (d : Attempt × Exchange Addr)
    (r : Except Panic (Option Addr)) : Handled Addr :=
  (handleWith (some d.1) (buildForwardedRequest parse) display (fun u : Unit => (r, u)) d.2 ()).1

/-- What a run of option C has done for its `i`-th connection: nothing upstream while the balancer
has not answered, and then what `handle_connection` does with the answer of its call, which has its
grounds. -/
inductive Delivered (w : Nat) (parseAddr : String → Option Addr) (config : Config)
    (parse : Httparse.Parser) (display : Addr → Bytes) (mode : Overflow)
    (upstreams : List Addr) (mem : Memory Addr) (calls : List (Call w Addr))
    (ls : List (Server.Label (Attempt × Exchange Addr) Act Tick)) (i : Nat)
    (d : Conn (Attempt × Exchange Addr) Addr) : Prop
  | unanswered : (Standing.sent d.2.data.2 d.2.place).connected = none →
      (Standing.sent d.2.data.2 d.2.place).upstream = [] →
      (∀ r, Serving d.2.data.2 d.1 d.2.place
        (handleAnswered parse display d.2.data r).outcome) →
      Delivered w parseAddr config parse display mode upstreams mem calls ls i d
  | answered (c : Nat) (y : Call w Addr) (r : Except Panic (Option Addr)) :
      d.2.place.index = some c → calls[c]? = some y → y.answer = some r →
      Grounds parseAddr config (server parse display (system w mode upstreams)).machine mode
        upstreams mem (ls.flatMap toClients) i c r →
      Serving d.2.data.2 d.1 d.2.place (handleAnswered parse display d.2.data r).outcome →
      Delivered w parseAddr config parse display mode upstreams mem calls ls i d

theorem sent_before (a : Before) :
    (a.sent : Sent Addr).connected = none ∧ (a.sent : Sent Addr).upstream = [] := by
  cases a <;> exact ⟨rfl, rfl⟩

theorem handleAnswered_connected {parse : Httparse.Parser} {d : Attempt × Exchange Addr}
    (h : (handleAnswered parse display d r).outcome.sent.connected = some addr) :
    r = .ok (some addr) := by
  unfold handleAnswered handleWith at h
  split at h
  · cases h
  · split at h
    · cases h
    · cases h
    · next hnone => cases hnone
    · unfold handleRequest at h
      split at h
      · cases h
      · cases h
      · cases h
      · split at h
        · cases h
        · cases h
        · next hr =>
          cases hr
          unfold forward at h
          split at h
          · cases h
          · split at h
            · cases h
              rfl
            · cases h
              rfl
            · split at h
              · cases h
                rfl
              · cases h
                rfl

/-- A connection is served by the answer of its call, and before that has done nothing that it would
not do with any answer. -/
theorem served {M E : Type} {flags : M → List Bool} {env : M → E → Option M} {mem : M}
    {parse : Httparse.Parser} {d : Conn (Attempt × Exchange Addr) Addr} {i : Nat}
    {ls : List (Server.Label (Attempt × Exchange Addr) Act E)}
    {s : Server.State u w M (Call w Addr) (Attempt × Exchange Addr) Before Head (After Addr)}
    (hr : run ((server parse display (object w mode upstreams flags env)).step m) (start mem) ls =
      some s) (hd : (conns s)[i]? = some d) :
    ((Standing.sent d.2.data.2 d.2.place).connected = none ∧
      (Standing.sent d.2.data.2 d.2.place).upstream = [] ∧
      ∀ r, Serving d.2.data.2 d.1 d.2.place (handleAnswered parse display d.2.data r).outcome) ∨
    ∃ c y r, d.2.place.index = some c ∧ s.clients.object.calls[c]? = some y ∧
      y.answer = some r ∧
      Serving d.2.data.2 d.1 d.2.place (handleAnswered parse display d.2.data r).outcome := by
  have hclients := run_clients hr
  have hserves := (conns_mem (run_synced hr) (List.mem_of_getElem? hd)).2
  have hi := (List.getElem?_zip_eq_some.1 hd).2
  have hstands : Stands (fun d : Attempt × Exchange Addr => some d.1) Prod.snd
      (buildForwardedRequest parse) display Call.answer (object w mode upstreams flags env)
      s.clients.object d.2.data d.2.place :=
    (connection_keeps fun y r h _ => answer_ended h mode upstreams _).run hclients _
      (List.mem_of_getElem? hi)
  obtain ⟨t, data, place⟩ := d
  cases place with
  | before a =>
    refine .inl ⟨(sent_before a).1, (sent_before a).2, fun r => ?_⟩
    exact (hstands.tracks _ () (fun c y r' hc => nomatch hc)).serving hserves
  | calling c k =>
    refine .inl ⟨rfl, rfl, fun r => ?_⟩
    exact Tracks.serving ⟨Sent.Le.of_empty _, nofun⟩ hserves
  | after c b =>
    obtain ⟨y, hy, _, _, r, hans, _⟩ := id hstands
    refine .inr ⟨c, y, r, rfl, hy, hans, ?_⟩
    have hreturned := hstands.tracks (fun u : Unit => (r, u)) () fun c' y' r' hc hy' hr' => ?_
    refine hreturned.serving hserves
    cases hc
    cases hy.symm.trans hy'
    exact Option.some.inj (hans.symm.trans hr')

/-- Whatever the order of the steps of `main`, the connections, the health checkers and the
shutdown, each connection is served by the balancer's answer to it, which has its grounds. -/
theorem server_delivers (readToString : String → Option String)
    (fromToml : String → Option Config) (parseAddr : String → Option Addr) (path : String)
    (config : Config) (parse : Httparse.Parser) (display : Addr → Bytes) (mode m : Overflow)
    (upstreams : List Addr) (mem : Memory Addr)
    (ls : List (Server.Label (Attempt × Exchange Addr) Act Tick))
    (s : Server.State u w (Memory Addr) (Call w Addr) (Attempt × Exchange Addr) Before Head
      (After Addr))
    (hload : Config.load readToString fromToml parseAddr path = .ok config)
    (hwire : wire parseAddr config = some (upstreams, mem))
    (hr : run ((server parse display (system w mode upstreams)).step m) (start mem) ls = some s)
    (i : Nat) (d : Conn (Attempt × Exchange Addr) Addr) (hd : (conns s)[i]? = some d) :
    Delivered w parseAddr config parse display mode upstreams mem s.clients.object.calls ls i
      d := by
  have hi := (List.getElem?_zip_eq_some.1 hd).2
  rcases served hr hd with ⟨hconn, hup, hserving⟩ | ⟨c, y, r, hindex, hy, hans, hserving⟩
  · exact .unanswered hconn hup hserving
  · exact .answered c y r hindex hy hans
      (run_grounds (Config.load_valid hload) hwire (run_clients hr) hi hindex hy hans) hserving

def getRequest : Exchange String where
  requestId := wellFormed.requestId
  clientIp := wellFormed.clientIp
  client := wellFormed.client
  clientWrite := wellFormed.clientWrite
  connect _ := .succeeded
  headWrite := wellFormed.headWrite
  transfer := wellFormed.transfer

def avoiding : List (Server.Label (Attempt × Exchange String) Act Tick) :=
  [.loop .poll, .accept false (.succeeded, getRequest), .env (.wake 0), .task 0 (.own .go),
    .task 0 (.own .go), .env (.answer 0 false), .task 0 (.own .go), .env (.store 0), .task 0 .call,
    .task 0 .act, .task 0 .act, .task 0 .resume, .task 0 (.own .go)]

set_option maxRecDepth 4000 in
theorem server_delivers_avoiding :
    ∃ (s : Server.State 64 64 (Memory String) (Call 64 String) (Attempt × Exchange String) Before
        Head (After String)) (d : Conn (Attempt × Exchange String) String),
      (Standing.sent d.2.data.2 d.2.place).connected = some "127.0.0.1:9092" ∧
      Delivered 64 parseLocal twoUpstreams Httparse.grammarParser ascii .checked
        ["127.0.0.1:9091", "127.0.0.1:9092"] twoCheckers s.clients.object.calls avoiding 0 d :=
  ⟨_, _, rfl, server_delivers readLocal
    (fun text => if text = configText then some twoUpstreams else none) parseLocal "config.toml"
    twoUpstreams Httparse.grammarParser ascii .checked .checked _ twoCheckers avoiding
    _ twoUpstreams_load rfl rfl 0 _ rfl⟩

end ReverseProxy.C
