import ReverseProxy.HttpRoundtrip

namespace ReverseProxy
open HttpHead
set_option autoImplicit true

namespace Httparse

/-- The fields of `httparse::Request`, filled in by a parse as far as it gets. -/
structure Request where
  method : Option Bytes
  path : Option Bytes
  version : Option Nat
  headers : List Header
deriving DecidableEq, Repr

inductive Status
  | complete (consumed : Nat)
  | incomplete
deriving DecidableEq, Repr

inductive Error
  | headerName
  | headerValue
  | newLine
  | status
  | token
  | tooManyHeaders
  | version
deriving DecidableEq, Repr

abbrev Parser := Nat → Bytes → Except Error (Status × Request)

def Request.ofHead (q : HttpHead.Request) : Request :=
  ⟨some q.method, some q.target, some q.version, q.headers⟩

theorem Request.ofHead_inj {q q' : HttpHead.Request}
    (h : Request.ofHead q = Request.ofHead q') : q = q' := by
  cases q
  cases q'
  cases h
  rfl

/-- The parser completes on exactly the texts that begin with a request head of the grammar whose
headers fit the array, and reports that head and its length. -/
structure Conforms (parse : Parser) : Prop where
  complete_iff : ∀ slots buf n r, parse slots buf = .ok (.complete n, r) ↔
    ∃ q, HttpHead.parse buf = some (q, n) ∧ q.headers.length ≤ slots ∧ r = .ofHead q

/-- The parser that knows the grammar and no errors but the two it cannot do without. -/
def grammarParser : Parser := fun slots buf =>
  match HttpHead.parse buf with
  | none => .error .token
  | some (q, n) =>
    if q.headers.length ≤ slots then .ok (.complete n, .ofHead q) else .error .tooManyHeaders

theorem grammarParser_conforms : Conforms grammarParser := by
  constructor
  intro slots buf n r
  unfold grammarParser
  cases hq : HttpHead.parse buf with
  | none => simp
  | some p =>
    obtain ⟨q, k⟩ := p
    by_cases hle : q.headers.length ≤ slots
    · simp only [if_pos hle, Except.ok.injEq, Prod.mk.injEq, Status.complete.injEq,
        Option.some.injEq]
      constructor
      · rintro ⟨rfl, rfl⟩
        exact ⟨q, ⟨rfl, rfl⟩, hle, rfl⟩
      · rintro ⟨_, ⟨rfl, rfl⟩, _, rfl⟩
        exact ⟨rfl, rfl⟩
    · simp only [if_neg hle, reduceCtorEq, Option.some.injEq, Prod.mk.injEq, false_iff]
      rintro ⟨_, ⟨rfl, rfl⟩, hle', _⟩
      exact hle hle'

end Httparse

def maxHeaders : Nat := 64

def copyHeaders (strip : List Bytes) : List Header → Bytes → Bytes
  | [], out => out
  | h :: hs, out =>
    if h.name.isEmpty then out
    else if strip.any (fun s => eqIgnoreAsciiCase h.name s) then copyHeaders strip hs out
    else copyHeaders strip hs (out ++ h.name ++ ascii ": " ++ h.value ++ ascii "\r\n")

/-- `build_forwarded_request` with the strip list and the text the options put between
`X-Forwarded-For` and `X-Request-ID`. Callers pass `len ≤ buf.len()`. -/
def rewriteHead (strip : List Bytes) (proto : Bytes) (parse : Httparse.Parser) (buf : Bytes)
    (len : Nat) (clientIp upstreamHost requestId : Bytes) :
    Except String (Bytes × Bytes × Bytes) :=
  match parse maxHeaders (buf.take len) with
  | .error _ => .error "failed to parse HTTP request"
  | .ok (.incomplete, _) => .error "incomplete HTTP headers"
  | .ok (.complete _, req) =>
    match req.method, req.path with
    | none, _ => .error "missing HTTP method"
    | some _, none => .error "missing HTTP path"
    | some method, some path =>
      -- each line below is one or two `extend_from_slice` calls
      let out := method ++ ascii " " ++ path ++ ascii " HTTP/1.1\r\n"
      let out := out ++ ascii "Host: " ++ upstreamHost ++ ascii "\r\n"
      let out := copyHeaders strip req.headers out
      let out := out ++ ascii "X-Forwarded-For: " ++ clientIp ++ ascii "\r\n"
      let out := out ++ proto
      let out := out ++ ascii "X-Request-ID: " ++ requestId ++ ascii "\r\n"
      let out := out ++ ascii "Via: 1.1 rust-proxy\r\n"
      let out := out ++ ascii "Connection: close\r\n"
      .ok (out ++ ascii "\r\n", method, path)

namespace B

def strip : List Bytes :=
  [ascii "host", ascii "connection", ascii "x-forwarded-for", ascii "x-request-id", ascii "via"]

def buildForwardedRequest : Httparse.Parser → Bytes → Nat → Bytes → Bytes → Bytes →
    Except String (Bytes × Bytes × Bytes) :=
  rewriteHead strip []

end B

namespace C

def strip : List Bytes :=
  [ascii "host", ascii "connection", ascii "x-forwarded-for", ascii "x-forwarded-proto",
    ascii "x-request-id", ascii "via"]

def buildForwardedRequest : Httparse.Parser → Bytes → Nat → Bytes → Bytes → Bytes →
    Except String (Bytes × Bytes × Bytes) :=
  rewriteHead strip (ascii "X-Forwarded-Proto: https\r\n")

end C

def kept (strip : List Bytes) (h : Header) : Bool :=
  !strip.any (fun s => eqIgnoreAsciiCase h.name s)

def injected (proto : List Header) (clientIp requestId : Bytes) : List Header :=
  ⟨ascii "X-Forwarded-For", clientIp⟩ :: proto ++
    [⟨ascii "X-Request-ID", requestId⟩, ⟨ascii "Via", ascii "1.1 rust-proxy"⟩,
      ⟨ascii "Connection", ascii "close"⟩]

def controlled (proto : List Header) (clientIp upstreamHost requestId : Bytes) : List Header :=
  ⟨ascii "Host", upstreamHost⟩ :: injected proto clientIp requestId

def forwardedFields (strip : List Bytes) (proto hs : List Header)
    (clientIp upstreamHost requestId : Bytes) : List Header :=
  ⟨ascii "Host", upstreamHost⟩ :: (hs.filter (kept strip) ++ injected proto clientIp requestId)

def forwardedHead (strip : List Bytes) (proto : List Header) (q : HttpHead.Request)
    (clientIp upstreamHost requestId : Bytes) : HttpHead.Request where
  method := q.method
  target := q.target
  version := 1
  headers := forwardedFields strip proto q.headers clientIp upstreamHost requestId

theorem copyHeaders_eq (hne : ∀ h ∈ hs, h.name ≠ []) (out : Bytes) :
    copyHeaders strip hs out =
      out ++ (hs.filter (kept strip)).flatMap (fun h => h.line ++ crlf) := by
  induction hs generalizing out with
  | nil => simp [copyHeaders]
  | cons h hs ih =>
    have hname : h.name.isEmpty = false := by simpa using hne h (by simp)
    have ih := ih (fun g hg => hne g (by simp [hg]))
    have hsep : ascii ": " = [colon, sp] := by decide
    have hend : ascii "\r\n" = crlf := by decide
    rw [copyHeaders, if_neg (by simp [hname])]
    split
    · next hs' =>
      rw [ih, List.filter_cons_of_neg (by simpa [kept] using hs')]
    · next hs' =>
      rw [ih, List.filter_cons_of_pos (by simpa [kept] using hs'), hsep, hend]
      simp [Header.line]

end ReverseProxy
