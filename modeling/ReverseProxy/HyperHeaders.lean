import ReverseProxy.HyperTarget

namespace ReverseProxy.D
open HttpHead Multimap Net
set_option autoImplicit true

def isStripped (name : Bytes) : Bool := strip.any (fun s => eqIgnoreAsciiCase name s)

def injectedNames : List Bytes := (injected [] [] []).map Prod.fst

def isInjected (name : Bytes) : Bool := injectedNames.any (fun s => eqIgnoreAsciiCase name s)

variable {M U X B : Type} {crate : HttpCrate M U} {req fwd : Request M U X B}

theorem any_eqIgnoreAsciiCase {names : List Bytes} :
    names.any (fun s => eqIgnoreAsciiCase name s) = true ↔
      ∃ s ∈ names, foldCase s = foldCase name := by
  simp only [List.any_eq_true, eqIgnoreAsciiCase_iff, eq_comm (a := foldCase name)]

theorem mem_injectedNames (h : f ∈ injected host ip rid) : f.1 ∈ injectedNames := by
  have hnames : (injected host ip rid).map Prod.fst = injectedNames := rfl
  rw [← hnames]
  exact List.mem_map_of_mem h

theorem isStripped_of_isInjected (h : isInjected name = true) : isStripped name = true := by
  have hsub : ∀ s ∈ injectedNames, s ∈ strip := by decide
  obtain ⟨s, hs, hname⟩ := any_eqIgnoreAsciiCase.1 h
  exact any_eqIgnoreAsciiCase.2 ⟨s, hsub s hs, hname⟩

theorem exists_removed (hc : crate.MapConforms) :
    (∃ k ∈ removed crate, foldCase k = foldCase name) ↔ isStripped name = true := by
  have hvalid : ∀ s ∈ strip, (s.all isTchar = true ∧ s ≠ []) ∧ s.length < 65536 := by decide
  have hname (s : Bytes) (hs : s ∈ strip) :
      ∃ k, crate.nameFromBytes s = some k ∧ foldCase k = foldCase s := by
    obtain ⟨⟨hall, hne⟩, hlen⟩ := hvalid s hs
    exact hc.name s ⟨hne, List.all_eq_true.1 hall⟩ hlen
  rw [isStripped, any_eqIgnoreAsciiCase]
  constructor
  · rintro ⟨k, hk, hfold⟩
    obtain ⟨s, hs, hsk⟩ := List.mem_filterMap.1 hk
    obtain ⟨k', hk', hfold'⟩ := hname s hs
    obtain rfl := Option.some.inj (hsk.symm.trans hk')
    exact ⟨s, hs, hfold'.symm.trans hfold⟩
  · rintro ⟨s, hs, hfold⟩
    obtain ⟨k, hk, hfold'⟩ := hname s hs
    exact ⟨k, List.mem_filterMap.2 ⟨s, hs, hk⟩, hfold'.trans hfold⟩

/-- What is sent on: the client's request with its own fields but the stripped ones, and the fields
of the proxy, one of each name. -/
structure Rewritten (crate : HttpCrate M U) (req : Request M U X B) (host ip rid : Bytes)
    (fwd : Request M U X B) : Prop where
  injected : ∀ f ∈ injected host ip rid, ∀ name, eqIgnoreAsciiCase name f.1 = true →
    crate.headers.getAll fwd.headers name = [f.2]
  kept : ∀ name, isStripped name = false →
    crate.headers.getAll fwd.headers name = crate.headers.getAll req.headers name
  dropped : ∀ name, isStripped name = true → isInjected name = false →
    crate.headers.getAll fwd.headers name = []
  method : fwd.method = req.method
  version : fwd.version = req.version
  extensions : fwd.extensions = req.extensions
  body : fwd.body = req.body

theorem rewritten_of_build (hc : crate.MapConforms) (uri : U) (host ip rid : Bytes) :
    Rewritten crate req host ip rid { req with
      uri := uri
      headers := crate.headers.insertAll (crate.headers.removeAll req.headers (removed crate))
        (D.injected host ip rid) } := by
  have hnd : ((D.injected host ip rid).map (fun f => foldCase f.1)).Nodup := by
    have : (D.injected host ip rid).map (fun f => foldCase f.1) = injectedNames.map foldCase := rfl
    rw [this]
    decide
  have hother {name : Bytes} (h : isInjected name = false) :
      ∀ f ∈ D.injected host ip rid, foldCase f.1 ≠ foldCase name := by
    intro f hf he
    have : isInjected name = true :=
      any_eqIgnoreAsciiCase.2 ⟨f.1, mem_injectedNames hf, he⟩
    rw [h] at this
    cases this
  refine ⟨fun f hf name hname => ?_, fun name hname => ?_, fun name hname hinj => ?_, rfl, rfl, rfl,
    rfl⟩
  · exact hc.lawful.insertAll_mem hnd hf (eqIgnoreAsciiCase_iff.1 hname).symm _
  · have hinj : isInjected name = false := by
      rw [Bool.eq_false_iff]
      intro h
      rw [isStripped_of_isInjected h] at hname
      cases hname
    have hremoved : ∀ k ∈ removed crate, foldCase k ≠ foldCase name := by
      intro k hk he
      have := (exists_removed hc).1 ⟨k, hk, he⟩
      rw [hname] at this
      cases this
    exact (hc.lawful.insertAll_other (hother hinj) _).trans
      (hc.lawful.removeAll_other hremoved _)
  · exact (hc.lawful.insertAll_other (hother hinj) _).trans
      (hc.lawful.removeAll_mem ((exists_removed hc).2 hname) _)

/-- Whatever fields the client sends, the proxy's own five are sent on with the proxy's values only,
those outside the strip list are sent on as they were, and there is nothing else. -/
theorem buildForwardedRequest_rewritten (crate : HttpCrate M U) (hc : crate.MapConforms)
    (req : Request M U X B) (uri : U)
    (huri : crate.parseUri (pathText crate req.uri) = some uri) (addr : SocketAddr)
    (clientIp requestId : Bytes) (hip : clientIp.all isValueChar = true)
    (hrid : requestId.all isValueChar = true) :
    ∃ fwd, buildForwardedRequest crate req addr clientIp requestId = .ok fwd ∧ fwd.uri = uri ∧
      Rewritten crate req addr.display clientIp requestId fwd :=
  ⟨_, build_of_parse hc huri addr hip hrid, rfl, rewritten_of_build hc uri _ _ _⟩

def spoofedFields : List (Bytes × Bytes) :=
  [(ascii "X-Forwarded-For", ascii "6.6.6.6"), (ascii "A", ascii "b"),
    (ascii "x-forwarded-FOR", ascii "7.7.7.7"), (ascii "a", ascii "c")]

theorem buildForwardedRequest_rewritten_spoofed :
    ∃ fwd, buildForwardedRequest plainCrate (getRequest ⟨none, none, ascii "/"⟩ spoofedFields)
        upstreamAddr (ascii "192.0.2.1") (ascii "id") = .ok fwd ∧
      plainCrate.headers.getAll fwd.headers (ascii "X-FORWARDED-FOR") = [ascii "192.0.2.1"] ∧
      plainCrate.headers.getAll fwd.headers (ascii "a") = [ascii "b", ascii "c"] := by
  obtain ⟨fwd, hok, _, hfwd⟩ := buildForwardedRequest_rewritten plainCrate plainCrate_mapConforms
    (getRequest ⟨none, none, ascii "/"⟩ spoofedFields) ⟨none, none, ascii "/"⟩ (by decide)
    upstreamAddr (ascii "192.0.2.1") (ascii "id") (by decide) (by decide)
  refine ⟨fwd, hok, hfwd.injected (ascii "x-forwarded-for", ascii "192.0.2.1") ?_ _ (by decide), ?_⟩
  · decide
  · rw [hfwd.kept _ (by decide)]
    decide

end ReverseProxy.D
