import ReverseProxy.Clients
import ReverseProxy.Rotation

namespace ReverseProxy
open Clients HttpHead Segments Usize
set_option autoImplicit true

def sentClient (events : List (Event Addr)) : Bytes :=
  events.flatMap (fun
    | .respond _ sent => sent
    | .relay bs => bs
    | .connect _ | .forward _ => [])

structure Sent (Addr : Type) where
  connected : Option Addr
  upstream : Bytes
  client : Bytes
deriving DecidableEq, Repr

structure Outcome (Addr : Type) where
  ended : Ended
  sent : Sent Addr
deriving DecidableEq, Repr

def Handled.outcome (h : Handled Addr) : Outcome Addr :=
  ⟨h.ended, connectedTo h, sentUpstream h.events, sentClient h.events⟩

/-- A step of a connection: it goes on from one await to the next, a `write_all` sends some bytes,
or `copy_bidirectional` moves some, up from the client or down from the upstream. -/
inductive Act
  | go
  | send (k : Nat)
  | up (k : Nat)
  | down (k : Nat)
deriving DecidableEq, Repr

def push (limit moved k : Nat) : Option Nat :=
  if 0 < k ∧ moved + k ≤ limit then some (moved + k) else none

/-- Where `handle_connection` stands before it turns to the balancer. -/
inductive Before
  | accepted
  | handshaking (clientIp : Bytes) (handshake : Attempt)
  | reading (clientIp buf : Bytes) (client : Stream UInt8)
  | refusing (sent : Nat)
  | headRead (clientIp : Bytes) (len : Nat) (buf : Bytes) (rest : Stream UInt8)
  | finished (ended : Ended) (client : Bytes)

structure Head where
  clientIp : Bytes
  len : Nat
  buf : Bytes
  rest : Stream UInt8

inductive After (Addr : Type)
  | answering (connected : Option Addr) (response : Bytes) (sent : Nat)
  | connecting (addr : Addr) (rewritten : Bytes) (rest : Stream UInt8)
  | sendingHead (addr : Addr) (rewritten : Bytes) (rest : Stream UInt8) (sent : Nat)
  | copying (addr : Addr) (rewritten : Bytes) (rest : Stream UInt8) (up down : Nat)
  | finished (outcome : Outcome Addr)

/-- Option B has no handshake. A read that returns nothing yet does not end. -/
def Before.step (tls : Option Attempt) (x : Exchange Addr) : Before → Act → Option Before
  | .accepted, .go =>
    match x.clientIp with
    | none => some (.finished (.failed "failed to get client address") [])
    | some clientIp =>
      match tls with
      | none => some (.reading clientIp [] x.client)
      | some handshake => some (.handshaking clientIp handshake)
  | .handshaking clientIp .succeeded, .go => some (.reading clientIp [] x.client)
  | .handshaking _ .failed, .go | .handshaking _ .timedOut, .go => some (.finished .returned [])
  | .reading clientIp buf client, .go =>
    if headerBufSize ≤ buf.length then some (.refusing 0)
    else match client.read (headerBufSize - buf.length) with
      | .stop .eof | .stop .error => some (.refusing 0)
      | .stop .idle => none
      | .data xs rest =>
        match findEnd headersEnd (buf ++ xs) with
        | some len => some (.headRead clientIp len (buf ++ xs) rest)
        | none => some (.reading clientIp (buf ++ xs) rest)
  | .refusing sent, .send k =>
    (push (x.clientWrite.sent response431).length sent k).map .refusing
  | .refusing sent, .go =>
    if sent = (x.clientWrite.sent response431).length then
      some (.finished .returned (response431.take sent))
    else none
  | _, _ => none

def After.step (x : Exchange Addr) : After Addr → Act → Option (After Addr)
  | .answering connected response sent, .send k =>
    (push (x.clientWrite.sent response).length sent k).map (.answering connected response)
  | .answering connected response sent, .go =>
    if sent = (x.clientWrite.sent response).length then
      some (.finished ⟨.returned, connected, [], response.take sent⟩)
    else none
  | .connecting addr rewritten rest, .go =>
    match x.connect addr with
    | .failed | .timedOut => some (.answering (some addr) response502 0)
    | .succeeded => some (.sendingHead addr rewritten rest 0)
  | .sendingHead addr rewritten rest sent, .send k =>
    (push (x.headWrite.sent rewritten).length sent k).map (.sendingHead addr rewritten rest)
  | .sendingHead addr rewritten rest sent, .go =>
    if sent = (x.headWrite.sent rewritten).length then
      match x.headWrite with
      | .failed _ =>
        some (.finished ⟨.failed "failed to write headers to upstream", some addr,
          rewritten.take sent, []⟩)
      | .done => some (.copying addr rewritten rest 0 0)
    else none
  | .copying addr rewritten rest up down, .up k =>
    (push (min x.transfer.forwarded rest.contents.length) up k).map
      (fun up => .copying addr rewritten rest up down)
  | .copying addr rewritten rest up down, .down k =>
    (push x.transfer.relayed.length down k).map (.copying addr rewritten rest up)
  | .copying addr rewritten rest up down, .go =>
    if up = min x.transfer.forwarded rest.contents.length ∧ down = x.transfer.relayed.length then
      some (.finished ⟨.returned, some addr, rewritten ++ rest.contents.take up,
        x.transfer.relayed.take down⟩)
    else none
  | _, _ => none

def After.start (build : Build) (display : Addr → Bytes) (x : Exchange Addr) (head : Head) :
    Except Panic (Option Addr) → After Addr
  | .error p => .finished ⟨.panicked p, none, [], []⟩
  | .ok none => .answering none response503 0
  | .ok (some addr) =>
    match build head.buf head.len head.clientIp (display addr) x.requestId with
    | .error _ => .answering none response400 0
    | .ok (rewritten, _, _) => .connecting addr rewritten head.rest

/-- `handle_connection` in its steps; `answer` is what an ended call of the balancer returned. -/
def connection (tls : D → Option Attempt) (exchange : D → Exchange Addr) (build : Build)
    (display : Addr → Bytes) (answer : X → Option (Except Panic (Option Addr))) :
    Machine D Before Head (After Addr) X Act where
  start _ := .accepted
  before d := Before.step (tls d) (exchange d)
  ask _
    | .headRead clientIp len buf rest => some ⟨clientIp, len, buf, rest⟩
    | _ => none
  resume d head x := (answer x).map (After.start build display (exchange d) head)
  after d := After.step (exchange d)

def B.Call.answer : B.Call w Addr → Option (Except Panic (Option Addr))
  | .drawn _ => none
  | .returned _ addr => some (.ok (some addr))
  | .panicked p => some (.error p)

def C.Call.answer : C.Call w Addr → Option (Except Panic (Option Addr))
  | .scanning _ _ => none
  | .returned found => some (.ok (found.map Prod.snd))
  | .panicked p => some (.error p)

theorem B.answer_ended {y : B.Call w Addr} (h : y.answer = some r) (upstreams : List Addr) :
    y.act upstreams = none := by
  cases y with
  | drawn t => cases h
  | returned idx addr => rfl
  | panicked p => rfl

theorem C.answer_ended {y : C.Call w Addr} (h : y.answer = some r) (m : Overflow)
    (upstreams : List Addr) (health : List Bool) : y.act m upstreams health = none := by
  cases y with
  | scanning start i => cases h
  | returned found => rfl
  | panicked p => rfl

def Before.sent : Before → Sent Addr
  | .accepted | .handshaking _ _ | .reading _ _ _ | .headRead _ _ _ _ => ⟨none, [], []⟩
  | .refusing sent => ⟨none, [], response431.take sent⟩
  | .finished _ client => ⟨none, [], client⟩

def After.sent (x : Exchange Addr) : After Addr → Sent Addr
  | .answering connected response sent => ⟨connected, [], response.take sent⟩
  | .connecting addr _ _ => ⟨some addr, [], []⟩
  | .sendingHead addr rewritten _ sent => ⟨some addr, rewritten.take sent, []⟩
  | .copying addr rewritten rest up down =>
    ⟨some addr, rewritten ++ rest.contents.take up, x.transfer.relayed.take down⟩
  | .finished outcome => outcome.sent

end ReverseProxy
