import ReverseProxy.Balancer
import ReverseProxy.HeadReader
import ReverseProxy.Http

namespace ReverseProxy
open HttpHead Segments Usize
set_option autoImplicit true

def response431 : Bytes := ascii
  "HTTP/1.1 431 Request Header Fields Too Large\r\nContent-Length: 0\r\nConnection: close\r\n\r\n"

def response400 : Bytes := ascii
  "HTTP/1.1 400 Bad Request\r\nContent-Length: 0\r\nConnection: close\r\n\r\n"

def response502 : Bytes := ascii
  "HTTP/1.1 502 Bad Gateway\r\nContent-Length: 0\r\nConnection: close\r\n\r\n"

def response503 : Bytes := ascii
  "HTTP/1.1 503 Service Unavailable\r\nContent-Length: 0\r\nConnection: close\r\n\r\n"

inductive Attempt
  | succeeded
  | failed
  | timedOut
deriving DecidableEq, Repr

/-- How a `write_all` ends; one that fails has sent some of its bytes. -/
inductive Write
  | done
  | failed (sent : Nat)
deriving DecidableEq, Repr

/-- What `copy_bidirectional` has moved by the time it ends: a number of client bytes and some
bytes of the upstream's response. -/
structure Transfer where
  forwarded : Nat
  relayed : Bytes
  ending : Attempt
deriving DecidableEq, Repr

/-- What a connection meets outside the proxy. -/
structure Exchange (Addr : Type) where
  requestId : Bytes
  clientIp : Option Bytes
  client : Stream UInt8
  clientWrite : Write
  connect : Addr → Attempt
  headWrite : Write
  transfer : Transfer

inductive Event (Addr : Type)
  | respond (response sent : Bytes)
  | connect (addr : Addr)
  | forward (bs : Bytes)
  | relay (bs : Bytes)
deriving DecidableEq, Repr

/-- How `handle_connection` ends; one that is `reading` waits for its client. -/
inductive Ended
  | returned
  | failed (message : String)
  | panicked (p : Panic)
  | reading
deriving DecidableEq, Repr

structure Handled (Addr : Type) where
  ended : Ended
  events : List (Event Addr)
deriving DecidableEq, Repr

def Write.sent (bs : Bytes) : Write → Bytes
  | .done => bs
  | .failed k => bs.take k

/-- A `write_all` of an error response, whose outcome is dropped, and the return after it. -/
def Exchange.answer (x : Exchange Addr) (before : List (Event Addr)) (response : Bytes) :
    Handled Addr :=
  ⟨.returned, before ++ [.respond response (x.clientWrite.sent response)]⟩

abbrev Build := Bytes → Nat → Bytes → Bytes → Bytes → Except String (Bytes × Bytes × Bytes)

def forward (build : Build) (display : Addr → Bytes) (x : Exchange Addr) (clientIp : Bytes)
    (len : Nat) (buf : Bytes) (rest : Stream UInt8) (addr : Addr) : Handled Addr :=
  match build buf len clientIp (display addr) x.requestId with
  | .error _ => x.answer [] response400
  | .ok (rewritten, _, _) =>
    match x.connect addr with
    | .failed | .timedOut => x.answer [.connect addr] response502
    | .succeeded =>
      match x.headWrite with
      | .failed k =>
        ⟨.failed "failed to write headers to upstream",
          [.connect addr, .forward (rewritten.take k)]⟩
      | .done =>
        -- whatever the transfer comes to, its result is dropped
        ⟨.returned, [.connect addr, .forward rewritten,
          .forward (rest.contents.take x.transfer.forwarded), .relay x.transfer.relayed]⟩

/-- From the first read of the client to the end; `pick` is the balancer's part. Option B's
balancer never answers that there is no upstream. -/
def handleRequest (build : Build) (display : Addr → Bytes)
    (pick : S → Except Panic (Option Addr) × S) (x : Exchange Addr) (clientIp : Bytes) (s : S) :
    Handled Addr × S :=
  match readUntilHeadersEnd x.client headerBufSize with
  | .waiting | .unfinished => (⟨.reading, []⟩, s)
  | .failed _ => (x.answer [] response431, s)
  | .found len buf rest =>
    match pick s with
    | (.error p, s') => (⟨.panicked p, []⟩, s')
    | (.ok none, s') => (x.answer [] response503, s')
    | (.ok (some addr), s') => (forward build display x clientIp len buf rest addr, s')

namespace B

def pick (b : Balancer w Addr) : Except Panic (Option Addr) × Balancer w Addr :=
  (b.next.1.map some, b.next.2)

def handleConnection (parse : Httparse.Parser) (display : Addr → Bytes) (x : Exchange Addr)
    (b : Balancer w Addr) : Handled Addr × Balancer w Addr :=
  match x.clientIp with
  | none => (⟨.failed "failed to get client address", []⟩, b)
  | some clientIp => handleRequest (buildForwardedRequest parse) display pick x clientIp b

end B

namespace C

/-- A failed handshake drops the connection without an answer. -/
def handleConnection (m : Overflow) (parse : Httparse.Parser) (display : Addr → Bytes)
    (handshake : Attempt) (x : Exchange Addr) (b : Balancer w Addr) :
    Handled Addr × Balancer w Addr :=
  match x.clientIp with
  | none => (⟨.failed "failed to get client address", []⟩, b)
  | some clientIp =>
    match handshake with
    | .failed | .timedOut => (⟨.returned, []⟩, b)
    | .succeeded =>
      handleRequest (buildForwardedRequest parse) display (Balancer.nextHealthy m) x clientIp b

end C

def sentUpstream (events : List (Event Addr)) : Bytes :=
  events.flatMap (fun
    | .forward bs => bs
    | .respond _ _ | .connect _ | .relay _ => [])

variable {Addr S : Type} {build : Build} {display : Addr → Bytes}
  {pick : S → Except Panic (Option Addr) × S} {x : Exchange Addr} {clientIp : Bytes} {s s' : S}

theorem B.handleConnection_eq {parse : Httparse.Parser} (hip : x.clientIp = some clientIp)
    (b : B.Balancer w Addr) :
    B.handleConnection parse display x b =
      handleRequest (B.buildForwardedRequest parse) display B.pick x clientIp b := by
  rw [B.handleConnection, hip]

theorem C.handleConnection_eq {parse : Httparse.Parser} (hip : x.clientIp = some clientIp)
    (m : Overflow) (b : C.Balancer w Addr) :
    C.handleConnection m parse display .succeeded x b =
      handleRequest (C.buildForwardedRequest parse) display (C.Balancer.nextHealthy m) x
        clientIp b := by
  rw [C.handleConnection, hip]

theorem handleRequest_found
    (hread : readUntilHeadersEnd x.client headerBufSize = .found len buf rest)
    (hpick : pick s = (.ok (some addr), s')) :
    handleRequest build display pick x clientIp s =
      (forward build display x clientIp len buf rest addr, s') := by
  simp only [handleRequest, hread, hpick]

theorem sentUpstream_forward
    (hb : build buf len clientIp (display addr) x.requestId = .ok (out, method, path))
    (hconn : x.connect addr = .succeeded) (hhead : x.headWrite = .done)
    (hfwd : rest.contents.length ≤ x.transfer.forwarded) :
    sentUpstream (forward build display x clientIp len buf rest addr).events =
      out ++ rest.contents := by
  simp only [forward, hb, hconn, hhead, sentUpstream, List.flatMap_cons, List.flatMap_nil,
    List.take_of_length_le hfwd, List.nil_append, List.append_nil]

theorem rewriteHead_congr {parse : Httparse.Parser} (h : buf.take len = buf'.take len')
    (strip : List Bytes) (proto ip host rid : Bytes) :
    rewriteHead strip proto parse buf len ip host rid =
      rewriteHead strip proto parse buf' len' ip host rid := by
  simp only [rewriteHead, h]

theorem rewriteHead_ok {parse : Httparse.Parser} (hp : Httparse.Conforms parse)
    (h : parse maxHeaders (buf.take len) = .ok (.complete n, r)) (strip : List Bytes)
    (proto ip host rid : Bytes) :
    ∃ out method path, rewriteHead strip proto parse buf len ip host rid =
      .ok (out, method, path) := by
  obtain ⟨q, _, _, rfl⟩ := (hp.complete_iff _ _ _ _).1 h
  simp only [rewriteHead, h, Httparse.Request.ofHead]
  exact ⟨_, _, _, rfl⟩

theorem handleRequest_sent {head body : Bytes} {parse : Httparse.Parser}
    (hp : Httparse.Conforms parse) (strip : List Bytes) (proto clientIp : Bytes)
    (display : Addr → Bytes) (hstream : x.client.contents = head ++ body)
    (hend : FirstEnd headersEnd (head ++ body) head.length) (hsize : head.length ≤ headerBufSize)
    (hacc : parse maxHeaders (head.take head.length) = .ok (.complete n, r))
    (hpick : pick s = (.ok (some addr), s')) (hconn : x.connect addr = .succeeded)
    (hhead : x.headWrite = .done) (hfwd : x.client.contents.length ≤ x.transfer.forwarded) :
    ∃ out method path,
      rewriteHead strip proto parse head head.length clientIp (display addr) x.requestId =
        .ok (out, method, path) ∧
      sentUpstream
          (handleRequest (rewriteHead strip proto parse) display pick x clientIp s).1.events =
        out ++ (head ++ body).drop (readEnd headerBufSize head.length 0 x.client.segments) := by
  rw [← hstream] at hend ⊢
  obtain ⟨rest, hread, hrest, _⟩ := readUntilHeadersEnd_found hend hsize
  have hle : head.length ≤ readEnd headerBufSize head.length 0 x.client.segments := by
    apply le_readEnd
    rw [Nat.zero_add]
    exact hend.1
  have htake : (x.client.contents.take (readEnd headerBufSize head.length 0
      x.client.segments)).take head.length = head.take head.length := by
    rw [List.take_take, Nat.min_eq_left hle, hstream, List.take_left, List.take_length]
  have hfwd' : rest.contents.length ≤ x.transfer.forwarded := by
    rw [hrest, List.length_drop]
    omega
  obtain ⟨out, method, path, hb⟩ := rewriteHead_ok hp hacc strip proto clientIp (display addr)
    x.requestId
  refine ⟨out, method, path, hb, ?_⟩
  rw [handleRequest_found hread hpick, ← hrest]
  exact sentUpstream_forward
    ((rewriteHead_congr htake strip proto clientIp (display addr) x.requestId).trans hb)
    hconn hhead hfwd'

theorem B.pick_eq {b : B.Balancer w Addr} (hn : b.upstreams ≠ []) :
    ∃ addr, b.upstreams[b.counter.toNat % b.upstreams.length]? = some addr ∧
      B.pick b = (.ok (some addr), { b with counter := b.counter + 1 }) := by
  obtain ⟨addr, ha, hc⟩ := B.choose_eq hn b.counter
  refine ⟨addr, ha, ?_⟩
  simp only [B.pick, B.Balancer.next, hc]
  rfl

def exchange (segments : List Bytes) (h : ∀ seg ∈ segments, seg ≠ []) (relayed : Bytes) :
    Exchange Bytes where
  requestId := ascii "f47ac10b-58cc-4372-a567-0e02b2c3d479"
  clientIp := some (ascii "192.0.2.1")
  client := ⟨segments, h, .idle⟩
  clientWrite := .done
  connect _ := .succeeded
  headWrite := .done
  transfer := ⟨segments.flatten.length, relayed, .succeeded⟩

end ReverseProxy
