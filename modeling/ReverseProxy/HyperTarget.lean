import ReverseProxy.HyperUri

namespace ReverseProxy.D
open HttpHead Multimap Net
set_option autoImplicit true

variable {M U X B : Type} {crate : HttpCrate M U} {req fwd : Request M U X B}

/-- The forwarded target is the client's path and query alone, with `/` for an empty path. -/
structure ForwardsTarget (crate : HttpCrate M U) (t : Target) (fwd : Request M U X B) : Prop where
  pathOnly : PathOnly crate fwd.uri
  path : crate.path fwd.uri = if t.path = [] then ascii "/" else t.path
  query : crate.query fwd.uri = t.query

/-- The query stands right after the authority. -/
def Target.bareQuery (t : Target) : Prop := t.path = [] ∧ t.query ≠ none

theorem rest_origin (t : Target) : (Target.origin t.path t.query).text = t.rest := rfl

theorem Target.Wf.origin {t : Target} (h : t.Wf) (hp : t.path ≠ []) :
    (Target.origin t.path t.query).Wf := by
  cases t with
  | origin path query => exact h
  | absolute scheme authority path query =>
    obtain ⟨_, _, _, hpath, hbytes, hquery⟩ := h
    exact ⟨hpath.resolve_left hp, hbytes, hquery⟩

theorem parse_pathText (hu : crate.UriConforms) {t : Target} (ht : t.Wf)
    (hparse : crate.parseUri t.text = some u) (hq : ¬ t.bareQuery) :
    ∃ u', crate.parseUri (pathText crate u) = some u' ∧ PathOnly crate u' ∧
      crate.path u' = (if t.path = [] then ascii "/" else t.path) ∧ crate.query u' = t.query := by
  rw [pathText, hu.pathAndQuery t u ht hparse, Option.getD_some]
  by_cases hp : t.path = []
  · have hquery : t.query = none := by
      by_contra hne
      exact hq ⟨hp, hne⟩
    have hrest : t.rest = [] := by rw [Target.rest, hp, hquery]; rfl
    have hwf : (Target.origin (ascii "/") none).Wf := ⟨by decide, by decide, by decide⟩
    have htext : (Target.origin (ascii "/") none).text = ascii "/" := by decide
    obtain ⟨u', hu'⟩ := Option.isSome_iff_exists.1 hu.root
    obtain ⟨hpo, hpath, hqu⟩ := hu.origin (ascii "/") none u' hwf (by rw [htext, hu'])
    rw [if_pos hrest, if_pos hp, hquery]
    exact ⟨u', hu', hpo, hpath, hqu⟩
  · have hrest : t.rest ≠ [] := by
      rw [Target.rest]
      exact List.append_ne_nil_of_left_ne_nil hp _
    obtain ⟨u', hu'⟩ := Option.isSome_iff_exists.1 (hu.accepted t u ht hp hparse)
    obtain ⟨hpo, hpath, hqu⟩ := hu.origin t.path t.query u' (ht.origin hp)
      (by rw [rest_origin, hu'])
    rw [if_neg hrest, if_neg hp]
    exact ⟨u', hu', hpo, hpath, hqu⟩

theorem rest_of_bareQuery {t : Target} (h : t.bareQuery) : ∃ q, t.rest = question :: q := by
  obtain ⟨hp, hq⟩ := h
  obtain ⟨q, hq⟩ := Option.ne_none_iff_exists'.1 hq
  exact ⟨q, by rw [Target.rest, hp, hq]; rfl⟩

/-- Every target is forwarded in path-only form, with its path and its query, except one whose
query stands right after the authority. -/
theorem buildForwardedRequest_target (crate : HttpCrate M U) (hm : crate.MapConforms)
    (hu : crate.UriConforms) (t : Target) (ht : t.Wf) (req : Request M U X B)
    (hparse : crate.parseUri t.text = some req.uri) (addr : SocketAddr)
    (clientIp requestId : Bytes) (hip : clientIp.all isValueChar = true)
    (hrid : requestId.all isValueChar = true) :
    (∃ fwd, buildForwardedRequest crate req addr clientIp requestId = .ok fwd ∧
      ForwardsTarget crate t fwd) ↔ ¬ t.bareQuery := by
  constructor
  · rintro ⟨fwd, hok, hfwd⟩ hbare
    obtain ⟨q, hq⟩ := rest_of_bareQuery hbare
    obtain ⟨uri, host, ip, rid, huri, _, _, _, rfl⟩ := build_eq_ok hok
    rw [pathText, hu.pathAndQuery t _ ht hparse, hq, if_neg (List.cons_ne_nil _ _)] at huri
    rcases hu.pathOnly _ _ huri hfwd.pathOnly with h | h
    · cases h
    · cases h
  · intro hq
    obtain ⟨u', hu', hpo, hpath, hqu⟩ := parse_pathText hu ht hparse hq
    exact ⟨_, build_of_parse hm hu' addr hip hrid, hpo, hpath, hqu⟩

def upstreamAddr : SocketAddr := .v4 ⟨192, 0, 2, 7⟩ 80

def getRequest (uri : PlainUri) (headers : List (Bytes × Bytes)) :
    Request (List (Bytes × Bytes)) PlainUri Unit Unit :=
  ⟨ascii "GET", uri, 1, headers, (), ()⟩

theorem buildForwardedRequest_target_absolute :
    ∃ fwd, buildForwardedRequest plainCrate
        (getRequest ⟨some (ascii "http"), some (ascii "h"), ascii "/a?q=1"⟩ [])
        upstreamAddr (ascii "192.0.2.1") (ascii "id") = .ok fwd ∧
      ForwardsTarget plainCrate
        (.absolute (ascii "http") (ascii "h") (ascii "/a") (some (ascii "q=1"))) fwd := by
  apply (buildForwardedRequest_target plainCrate plainCrate_mapConforms plainCrate_uriConforms
    (.absolute (ascii "http") (ascii "h") (ascii "/a") (some (ascii "q=1"))) ?_ _ ?_ _ _ _ ?_ ?_).2
  · rintro ⟨hp, _⟩
    cases hp
  · exact ⟨by decide, by decide, by decide, .inr (by decide), by decide, by decide⟩
  · decide
  · decide
  · decide

/-- A client that asks for `http://h?q=1` has its request refused. -/
theorem buildForwardedRequest_bareQuery :
    let t : Target := .absolute (ascii "http") (ascii "h") [] (some (ascii "q=1"))
    let uri : PlainUri := ⟨some (ascii "http"), some (ascii "h"), ascii "?q=1"⟩
    t.Wf ∧ plainCrate.parseUri t.text = some uri ∧
      buildForwardedRequest plainCrate (getRequest uri []) upstreamAddr (ascii "192.0.2.1")
        (ascii "id") = .error .invalidUri := by
  intro t uri
  refine ⟨⟨by decide, by decide, by decide, .inl rfl, by decide, by decide⟩, by decide, ?_⟩
  rfl

end ReverseProxy.D
