import ReverseProxy.Config
import ReverseProxy.Proxy
import ReverseProxy.Relay
import ReverseProxy.Server

namespace ReverseProxy
open Clients Runs Tickets Usize
set_option autoImplicit true

namespace A
open HttpHead Relay Segments

inductive Ended
  | returned
  | failed (message : String)
  | panicked
deriving DecidableEq, Repr

def Ended.toEnd : Ended → End
  | .returned => .returned false
  | .failed _ => .returned true
  | .panicked => .panicked

/-- What a connection meets outside the proxy. -/
structure Exchange (Addr : Type) where
  clientAddr : Option String
  client : Stream UInt8
  connect : Addr → Attempt
  upstream : Addr → Stream UInt8

inductive Stage (S Addr : Type)
  | accepted
  | connecting (clientAddr : String) (addr : Addr)
  | copying (clientAddr : String) (addr : Addr) (s : S)
  | finished (ended : Ended) (connected : Option Addr) (session : Option S)

/-- A step of a connection: it goes on behind an await, `copy_bidirectional` does something, or the
transfer timeout expires. -/
inductive Act (L : Type)
  | go
  | copy (l : L)
  | expire

variable {S L Addr : Type}

def Stage.step (parseAddr : String → Option Addr) (config : Config) (copier : Copier S L UInt8)
    (x : Exchange Addr) : Stage S Addr → Act L → Option (Stage S Addr)
  | .accepted, .go =>
    match x.clientAddr with
    | none => some (.finished (.failed "failed to get client peer address") none none)
    | some clientAddr =>
      match config.upstreamSocketAddr parseAddr with
      | none => some (.finished .panicked none none)
      | some addr => some (.connecting clientAddr addr)
  | .connecting clientAddr addr, .go =>
    match x.connect addr with
    | .timedOut =>
      some (.finished (.failed ("timed out connecting to upstream " ++ config.upstreamAddr ++
        " after " ++ toString config.timeouts.connectTimeoutSecs ++ "s")) (some addr) none)
    | .failed =>
      some (.finished (.failed ("failed to connect to upstream " ++ config.upstreamAddr))
        (some addr) none)
    | .succeeded => some (.copying clientAddr addr (copier.start x.client (x.upstream addr)))
  | .copying clientAddr addr s, .copy l => (copier.step s l).map (.copying clientAddr addr)
  | .copying _ addr s, .go =>
    (copier.ended s).map (fun well =>
      .finished (if well then .returned else .failed "error during bidirectional copy")
        (some addr) (some s))
  | .copying clientAddr addr s, .expire =>
    match copier.ended s with
    | some _ => none
    | none =>
      some (.finished (.failed ("transfer timed out after " ++
        toString config.timeouts.transferTimeoutSecs ++ "s for client " ++ clientAddr))
        (some addr) (some s))
  | _, _ => none

def Stage.ended : Stage S Addr → Option Ended
  | .accepted | .connecting _ _ | .copying _ _ _ => none
  | .finished ended _ _ => some ended

def Stage.connected : Stage S Addr → Option Addr
  | .accepted => none
  | .connecting _ addr | .copying _ addr _ => some addr
  | .finished _ connected _ => connected

def Stage.session : Stage S Addr → Option S
  | .accepted | .connecting _ _ => none
  | .copying _ _ s => some s
  | .finished _ _ session => session

def server (parseAddr : String → Option Addr) (config : Config) (copier : Copier S L UInt8) :
    Server 0 Unit Unit Empty (Exchange Addr) (Stage S Addr) Empty Empty (Act L) :=
  .alone (fun _ => .accepted) (Stage.step parseAddr config copier)
    (fun a => a.ended.map Ended.toEnd) (fun _ => rfl)

variable {parseAddr : String → Option Addr} {config : Config} {copier : Copier S L UInt8}
  {x : Exchange Addr} {a a' : Stage S Addr}

def oneUpstream : Config := ⟨"127.0.0.1:8080", "127.0.0.1:9090", ⟨5, 60⟩⟩

def configText : String :=
  "listen_addr = \"127.0.0.1:8080\"\nupstream_addr = \"127.0.0.1:9090\"\n" ++
  "[timeouts]\nconnect_timeout_secs = 5\ntransfer_timeout_secs = 60\n"

def readLocal (path : String) : Option String :=
  if path = "config.toml" then some configText else none

def parseLocal (text : String) : Option String :=
  if ["127.0.0.1:8080", "127.0.0.1:9090"].contains text then some text else none

end A

end ReverseProxy
