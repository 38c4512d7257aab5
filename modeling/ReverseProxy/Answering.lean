import ReverseProxy.Proxy

namespace ReverseProxy
open HttpHead Segments Usize
set_option autoImplicit true

def toClient (events : List (Event Addr)) : List (Event Addr) :=
  events.filter (fun
    | .respond _ _ | .relay _ => true
    | .connect _ | .forward _ => false)

def errorResponses : List Bytes := [response431, response400, response502, response503]

/-- The client was sent some of the upstream's response, or else one error response in full. -/
def Answered (events : List (Event Addr)) : Prop :=
  (∃ bs, bs ≠ [] ∧ toClient events = [.relay bs]) ∨
    ∃ r ∈ errorResponses, toClient events = [.respond r r]

/-- No upstream is up, or the head is rejected, or the upstream cannot be reached, or it takes the
head and answers at least one byte. -/
def Completes (build : Build) (display : Addr → Bytes) (picked : Except Panic (Option Addr))
    (x : Exchange Addr) (clientIp : Bytes) (len : Nat) (buf : Bytes) : Prop :=
  match picked with
  | .error _ => False
  | .ok none => True
  | .ok (some addr) =>
    (∃ e, build buf len clientIp (display addr) x.requestId = .error e) ∨
      x.connect addr ≠ .succeeded ∨ (x.headWrite = .done ∧ x.transfer.relayed ≠ [])

variable {Addr S : Type} {build : Build} {display : Addr → Bytes}
  {pick : S → Except Panic (Option Addr) × S} {x : Exchange Addr} {clientIp : Bytes} {s : S}

theorem answered_answer (hw : x.clientWrite = .done) (hr : r ∈ errorResponses)
    (hb : toClient before = []) : Answered (x.answer before r).events := by
  refine .inr ⟨r, hr, ?_⟩
  simp only [Exchange.answer, hw, Write.sent, toClient, List.filter_append]
  exact congrArg (fun l => l ++ [Event.respond r r]) hb

theorem answered_relay {events : List (Event Addr)} (bs : Bytes)
    (h : toClient events = [.relay bs]) : Answered events ↔ bs ≠ [] := by
  constructor
  · rintro (⟨bs', hne, h'⟩ | ⟨r, _, h'⟩)
    · rw [h] at h'
      cases h'
      exact hne
    · rw [h] at h'
      cases h'
  · exact fun hne => .inl ⟨bs, hne, h⟩

theorem not_answered {events : List (Event Addr)} (h : toClient events = []) :
    ¬ Answered events := by
  rintro (⟨bs, _, h'⟩ | ⟨r, _, h'⟩)
  · rw [h] at h'
    cases h'
  · rw [h] at h'
    cases h'

theorem forward_answered (hw : x.clientWrite = .done) (len : Nat) (buf : Bytes)
    (rest : Stream UInt8) (addr : Addr) :
    Answered (forward build display x clientIp len buf rest addr).events ↔
      Completes build display (.ok (some addr)) x clientIp len buf := by
  simp only [Completes]
  cases hb : build buf len clientIp (display addr) x.requestId with
  | error e =>
    simp only [forward, hb]
    exact iff_of_true (answered_answer hw (by simp [errorResponses]) rfl) (.inl ⟨e, rfl⟩)
  | ok result =>
    obtain ⟨out, method, path⟩ := result
    cases hc : x.connect addr with
    | failed =>
      simp only [forward, hb, hc]
      exact iff_of_true (answered_answer hw (by simp [errorResponses]) rfl)
        (.inr (.inl (by decide)))
    | timedOut =>
      simp only [forward, hb, hc]
      exact iff_of_true (answered_answer hw (by simp [errorResponses]) rfl)
        (.inr (.inl (by decide)))
    | succeeded =>
      cases hh : x.headWrite with
      | failed k =>
        simp only [forward, hb, hc, hh]
        apply iff_of_false (not_answered rfl)
        rintro (⟨e, he⟩ | h | ⟨h, _⟩)
        · cases he
        · exact h rfl
        · cases h
      | done =>
        simp only [forward, hb, hc, hh]
        rw [answered_relay x.transfer.relayed rfl]
        constructor
        · exact fun h => .inr (.inr ⟨trivial, h⟩)
        · rintro (⟨e, he⟩ | h | ⟨_, h⟩)
          · cases he
          · exact (h rfl).elim
          · exact h

theorem handleRequest_answered (hw : x.clientWrite = .done)
    (hread : readUntilHeadersEnd x.client headerBufSize = .found len buf rest) :
    Answered (handleRequest build display pick x clientIp s).1.events ↔
      Completes build display (pick s).1 x clientIp len buf := by
  rcases hpick : pick s with ⟨picked, s'⟩
  cases picked with
  | error p =>
    simp only [handleRequest, hread, hpick]
    exact iff_of_false (not_answered rfl) id
  | ok found =>
    cases found with
    | none =>
      simp only [handleRequest, hread, hpick]
      exact iff_of_true (answered_answer hw (by simp [errorResponses]) rfl) trivial
    | some addr =>
      rw [handleRequest_found hread hpick]
      exact forward_answered hw len buf rest addr

/-- After a complete head, and as long as the client takes what it is sent, a connection is
answered exactly when it meets with a failure that has a response, or with a byte of the
upstream's. -/
theorem handleConnection_answered (parse : Httparse.Parser) (display : Addr → Bytes)
    (m : Overflow) (x : Exchange Addr) (clientIp : Bytes) (len : Nat) (buf : Bytes)
    (rest : Stream UInt8) (b : B.Balancer w Addr) (c : C.Balancer w Addr)
    (hip : x.clientIp = some clientIp)
    (hread : readUntilHeadersEnd x.client headerBufSize = .found len buf rest)
    (hw : x.clientWrite = .done) :
    (Answered (B.handleConnection parse display x b).1.events ↔
      Completes (B.buildForwardedRequest parse) display (B.pick b).1 x clientIp len buf) ∧
    (Answered (C.handleConnection m parse display .succeeded x c).1.events ↔
      Completes (C.buildForwardedRequest parse) display (c.nextHealthy m).1 x clientIp len
        buf) := by
  rw [B.handleConnection_eq hip, C.handleConnection_eq hip]
  exact ⟨handleRequest_answered hw hread, handleRequest_answered hw hread⟩

def shortRequest : Bytes := ascii "GET / HTTP/1.1\r\nHost: a\r\n\r\n"

theorem shortRequest_ne : ∀ seg ∈ [shortRequest], seg ≠ [] := by decide

def oneUpstream : List Bytes := [ascii "192.0.2.7:80"]

theorem handleConnection_answered_relay :
    Answered (B.handleConnection Httparse.grammarParser id
      (exchange [shortRequest] shortRequest_ne (ascii "HTTP/1.1 200 OK\r\n\r\n"))
      (⟨oneUpstream, 0⟩ : B.Balancer 64 Bytes)).1.events :=
  (handleConnection_answered Httparse.grammarParser id .checked
    (exchange [shortRequest] shortRequest_ne (ascii "HTTP/1.1 200 OK\r\n\r\n"))
    (ascii "192.0.2.1") 27 shortRequest ⟨[], nofun, .idle⟩ ⟨oneUpstream, 0⟩
    ⟨oneUpstream, [true], 0⟩ rfl rfl rfl).1.2 (Or.inr (Or.inr ⟨rfl, by decide⟩))

/-- An upstream that closes without a byte, and one that breaks while it is sent the head: neither
option sends its client anything. -/
theorem handleConnection_silent :
    let closed := exchange [shortRequest] shortRequest_ne []
    let broken := { closed with headWrite := .failed 0 }
    (∀ x ∈ [closed, broken], x.clientIp = some (ascii "192.0.2.1") ∧ x.clientWrite = .done ∧
      ∃ len buf rest, readUntilHeadersEnd x.client headerBufSize = .found len buf rest) ∧
    (∀ x ∈ [closed, broken],
      ¬ Answered (B.handleConnection Httparse.grammarParser id x
        (⟨oneUpstream, 0⟩ : B.Balancer 64 Bytes)).1.events ∧
      ¬ Answered (C.handleConnection .checked Httparse.grammarParser id .succeeded x
        (⟨oneUpstream, [true], 0⟩ : C.Balancer 64 Bytes)).1.events) := by
  intro closed broken
  constructor
  · intro x hx
    simp only [List.mem_cons, List.not_mem_nil, or_false] at hx
    rcases hx with rfl | rfl
    · exact ⟨rfl, rfl, 27, shortRequest, ⟨[], nofun, .idle⟩, rfl⟩
    · exact ⟨rfl, rfl, 27, shortRequest, ⟨[], nofun, .idle⟩, rfl⟩
  · intro x hx
    simp only [List.mem_cons, List.not_mem_nil, or_false] at hx
    rcases hx with rfl | rfl
    · exact ⟨fun h => (answered_relay [] rfl).1 h rfl, fun h => (answered_relay [] rfl).1 h rfl⟩
    · exact ⟨not_answered rfl, not_answered rfl⟩

end ReverseProxy
