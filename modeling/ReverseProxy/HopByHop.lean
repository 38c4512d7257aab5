import ReverseProxy.HyperHeaders

namespace ReverseProxy.D
open HttpHead Multimap Net
set_option autoImplicit true

def comma : UInt8 := 44

/-- The fields of one connection that have names of their own. -/
def hopByHop : List Bytes :=
  [ascii "Connection", ascii "Keep-Alive", ascii "Proxy-Connection", ascii "TE", ascii "Trailer",
    ascii "Transfer-Encoding", ascii "Upgrade"]

def connectionOptions (value : Bytes) : List Bytes :=
  ((value.splitOn comma).map trim).filter (fun name => !name.isEmpty)

def nominated (crate : HttpCrate M U) (headers : M) : List Bytes :=
  (crate.headers.getAll headers (ascii "Connection")).flatMap connectionOptions

variable {M U X B : Type} {crate : HttpCrate M U} {req fwd : Request M U X B}

/-- No field of the client's connection is sent on. -/
structure NoHopByHop (crate : HttpCrate M U) (req fwd : Request M U X B) : Prop where
  fixed : ∀ name ∈ hopByHop, crate.headers.getAll fwd.headers name = []
  nominated : ∀ name ∈ nominated crate req.headers, isInjected name = false →
    crate.headers.getAll fwd.headers name = []

/-- The request has no field of the connection that the strip list does not name. -/
structure OnlyListed (crate : HttpCrate M U) (headers : M) : Prop where
  trailer : crate.headers.getAll headers (ascii "Trailer") = []
  nominated : ∀ name ∈ nominated crate headers, isStripped name = false →
    crate.headers.getAll headers name = []

theorem Rewritten.noHopByHop_iff (h : Rewritten crate req host ip rid fwd) :
    NoHopByHop crate req fwd ↔ OnlyListed crate req.headers := by
  have hlisted : ∀ name ∈ hopByHop,
      name = ascii "Trailer" ∨ (isStripped name = true ∧ isInjected name = false) := by decide
  constructor
  · intro hno
    constructor
    · rw [← h.kept (ascii "Trailer") (by decide)]
      exact hno.fixed _ (by decide)
    · intro name hname hstrip
      have hinj : isInjected name = false := by
        rw [Bool.eq_false_iff]
        intro hinj
        rw [isStripped_of_isInjected hinj] at hstrip
        cases hstrip
      rw [← h.kept name hstrip]
      exact hno.nominated name hname hinj
  · intro honly
    constructor
    · intro name hname
      rcases hlisted name hname with rfl | ⟨hstrip, hinj⟩
      · rw [h.kept _ (by decide)]
        exact honly.trailer
      · exact h.dropped name hstrip hinj
    · intro name hname hinj
      cases hstrip : isStripped name with
      | true => exact h.dropped name hstrip hinj
      | false =>
        rw [h.kept name hstrip]
        exact honly.nominated name hname hstrip

/-- The request sent on is free of hop-by-hop fields exactly when the client sent no Trailer, and
its Connection fields list no field of the request beyond the strip list. -/
theorem buildForwardedRequest_noHopByHop (crate : HttpCrate M U) (hc : crate.MapConforms)
    (req fwd : Request M U X B) (addr : SocketAddr) (clientIp requestId : Bytes)
    (hok : buildForwardedRequest crate req addr clientIp requestId = .ok fwd) :
    NoHopByHop crate req fwd ↔ OnlyListed crate req.headers := by
  obtain ⟨uri, host, ip, rid, _, _, _, _, rfl⟩ := build_eq_ok hok
  exact (rewritten_of_build hc uri host ip rid).noHopByHop_iff

def closeFields : List (Bytes × Bytes) :=
  [(ascii "Connection", ascii "close, TE"), (ascii "TE", ascii "trailers")]

theorem buildForwardedRequest_noHopByHop_close :
    ∃ fwd, buildForwardedRequest plainCrate (getRequest ⟨none, none, ascii "/"⟩ closeFields)
        upstreamAddr (ascii "192.0.2.1") (ascii "id") = .ok fwd ∧
      NoHopByHop plainCrate (getRequest ⟨none, none, ascii "/"⟩ closeFields) fwd := by
  refine ⟨_, rfl, ?_⟩
  apply (buildForwardedRequest_noHopByHop plainCrate plainCrate_mapConforms _ _ upstreamAddr
    (ascii "192.0.2.1") (ascii "id") rfl).2
  exact ⟨by decide, by decide⟩

def trailerFields : List (Bytes × Bytes) :=
  [(ascii "Trailer", ascii "Expires"), (ascii "Connection", ascii "close, X-Hop"),
    (ascii "X-Hop", ascii "1")]

theorem buildForwardedRequest_trailer :
    ∃ fwd, buildForwardedRequest plainCrate (getRequest ⟨none, none, ascii "/"⟩ trailerFields)
        upstreamAddr (ascii "192.0.2.1") (ascii "id") = .ok fwd ∧
      plainCrate.headers.getAll fwd.headers (ascii "Trailer") = [ascii "Expires"] ∧
      ascii "X-Hop" ∈ nominated plainCrate trailerFields ∧
      plainCrate.headers.getAll fwd.headers (ascii "X-Hop") = [ascii "1"] := by
  refine ⟨_, rfl, by decide, by decide, by decide⟩

end ReverseProxy.D
