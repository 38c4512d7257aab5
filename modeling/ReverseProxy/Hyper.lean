import ReverseProxy.Forwarding
import ReverseProxy.Multimap
import ReverseProxy.Net

namespace ReverseProxy.D
open HttpHead Multimap Net
set_option autoImplicit true

/-- What the proxy uses of the `http` crate, with maps of headers `M` and URIs `U`. A name or a
value stands for its bytes; `pathAndQuery` is the text of that component. -/
structure HttpCrate (M U : Type) where
  headers : Ops M Bytes Bytes
  nameFromBytes : Bytes → Option Bytes
  valueFromStr : Bytes → Option Bytes
  parseUri : Bytes → Option U
  scheme : U → Option Bytes
  authority : U → Option Bytes
  path : U → Bytes
  query : U → Option Bytes
  pathAndQuery : U → Option Bytes

structure Request (M U X B : Type) where
  method : Bytes
  uri : U
  version : Nat
  headers : M
  extensions : X
  body : B
deriving DecidableEq, Repr

inductive BuildError
  | invalidUri
  | invalidHeaderValue
deriving DecidableEq, Repr

def strip : List Bytes :=
  [ascii "host", ascii "connection", ascii "keep-alive", ascii "proxy-connection", ascii "te",
    ascii "trailers", ascii "transfer-encoding", ascii "upgrade", ascii "x-forwarded-for",
    ascii "x-forwarded-proto", ascii "x-request-id", ascii "via"]

def stripHeaders (crate : HttpCrate M U) (headers : M) : M :=
  strip.foldl (fun headers name =>
    match crate.nameFromBytes name with
    | none => headers
    | some name => crate.headers.remove headers name) headers

def pathText (crate : HttpCrate M U) (uri : U) : Bytes := (crate.pathAndQuery uri).getD (ascii "/")

def buildForwardedRequest (crate : HttpCrate M U) (req : Request M U X B)
    (upstreamAddr : SocketAddr) (clientIp requestId : Bytes) :
    Except BuildError (Request M U X B) :=
  let headers := stripHeaders crate req.headers
  match crate.parseUri (pathText crate req.uri) with
  | none => .error .invalidUri
  | some uri =>
    match crate.valueFromStr upstreamAddr.display with
    | none => .error .invalidHeaderValue
    | some host =>
      let headers := crate.headers.insert headers (ascii "host") host
      match crate.valueFromStr clientIp with
      | none => .error .invalidHeaderValue
      | some ip =>
        let headers := crate.headers.insert headers (ascii "x-forwarded-for") ip
        let headers := crate.headers.insert headers (ascii "x-forwarded-proto") (ascii "https")
        match crate.valueFromStr requestId with
        | none => .error .invalidHeaderValue
        | some rid =>
          let headers := crate.headers.insert headers (ascii "x-request-id") rid
          let headers := crate.headers.insert headers (ascii "via") (ascii "1.1 rust-proxy")
          .ok { req with uri := uri, headers := headers }

def injected (host ip rid : Bytes) : List (Bytes × Bytes) :=
  [(ascii "host", host), (ascii "x-forwarded-for", ip), (ascii "x-forwarded-proto", ascii "https"),
    (ascii "x-request-id", rid), (ascii "via", ascii "1.1 rust-proxy")]

/-- Visible ASCII and tabs, which any header value may have. -/
def isValueChar (b : UInt8) : Bool := b == 9 || isVisible b

/-- What the crate documents of header maps: names compare without regard to case, a valid name is
taken as it is, and so is a value of visible bytes; no other value is changed. -/
structure HttpCrate.MapConforms (crate : HttpCrate M U) : Prop where
  lawful : Lawful crate.headers foldCase
  name : ∀ n, IsToken n → n.length < 65536 →
    ∃ k, crate.nameFromBytes n = some k ∧ foldCase k = foldCase n
  value : ∀ v, v.all isValueChar = true → crate.valueFromStr v = some v
  unchanged : ∀ v v', crate.valueFromStr v = some v' → v' = v

variable {M U X B : Type} {crate : HttpCrate M U} {req fwd : Request M U X B}

def removed (crate : HttpCrate M U) : List Bytes := strip.filterMap crate.nameFromBytes

theorem stripHeaders_eq (crate : HttpCrate M U) (headers : M) :
    stripHeaders crate headers = crate.headers.removeAll headers (removed crate) := by
  rw [stripHeaders, removed, Ops.removeAll, List.foldl_filterMap]
  congr 1
  funext headers name
  cases crate.nameFromBytes name <;> rfl

theorem build_eq_ok {addr : SocketAddr} {clientIp requestId : Bytes}
    (h : buildForwardedRequest crate req addr clientIp requestId = .ok fwd) :
    ∃ uri host ip rid, crate.parseUri (pathText crate req.uri) = some uri ∧
      crate.valueFromStr addr.display = some host ∧ crate.valueFromStr clientIp = some ip ∧
      crate.valueFromStr requestId = some rid ∧
      fwd = { req with
        uri := uri
        headers := crate.headers.insertAll
          (crate.headers.removeAll req.headers (removed crate)) (injected host ip rid) } := by
  unfold buildForwardedRequest at h
  split at h
  · cases h
  · next uri huri =>
    split at h
    · cases h
    · next host hhost =>
      simp only at h
      split at h
      · cases h
      · next ip hip =>
        split at h
        · cases h
        · next rid hrid =>
          cases h
          rw [stripHeaders_eq]
          exact ⟨uri, host, ip, rid, huri, hhost, hip, hrid, rfl⟩

theorem display_isValue (addr : SocketAddr) : addr.display.all isValueChar = true := by
  rw [List.all_eq_true]
  intro b hb
  rw [isValueChar, addr.display_visible b hb, Bool.or_true]

/-- A target that is rewritten without an error, and values that are header values, are all the
rewriter asks for: the text of an address is one. -/
theorem build_of_parse (hc : crate.MapConforms)
    (huri : crate.parseUri (pathText crate req.uri) = some uri) (addr : SocketAddr)
    (hip : clientIp.all isValueChar = true) (hrid : requestId.all isValueChar = true) :
    buildForwardedRequest crate req addr clientIp requestId = .ok { req with
      uri := uri
      headers := crate.headers.insertAll (crate.headers.removeAll req.headers (removed crate))
        (injected addr.display clientIp requestId) } := by
  simp only [buildForwardedRequest, huri, hc.value _ (display_isValue addr), hc.value _ hip,
    hc.value _ hrid, stripHeaders_eq]
  rfl

end ReverseProxy.D
