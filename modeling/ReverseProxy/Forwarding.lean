import ReverseProxy.Http

namespace ReverseProxy
open HttpHead
set_option autoImplicit true

theorem rewriteHead_eq {parse : Httparse.Parser} (strip : List Bytes) (proto : List Header)
    (hp : Httparse.Conforms parse)
    (h : parse maxHeaders (buf.take len) = .ok (.complete n, r)) (ip host rid : Bytes) :
    ∃ q, HttpHead.parse (buf.take len) = some (q, n) ∧ r = .ofHead q ∧
      rewriteHead strip (proto.flatMap (fun h => h.line ++ crlf)) parse buf len ip host rid =
        .ok ((forwardedHead strip proto q ip host rid).print, q.method, q.target) := by
  obtain ⟨q, hq, _, rfl⟩ := (hp.complete_iff _ _ _ _).1 h
  refine ⟨q, hq, rfl, ?_⟩
  have hne : ∀ g ∈ q.headers, g.name ≠ [] := fun g hg => ((parse_wf hq).headers g hg).name.1
  have hsp : ascii " " = [sp] := by decide
  have hend : ascii "\r\n" = crlf := by decide
  have hline : ascii " HTTP/1.1\r\n" = sp :: (ascii "HTTP/1.1" ++ crlf) := by decide
  have hhost : ascii "Host: " = ascii "Host" ++ [colon, sp] := by decide
  have hfor : ascii "X-Forwarded-For: " = ascii "X-Forwarded-For" ++ [colon, sp] := by decide
  have hid : ascii "X-Request-ID: " = ascii "X-Request-ID" ++ [colon, sp] := by decide
  have hvia : ascii "Via: 1.1 rust-proxy\r\n" =
      ascii "Via" ++ colon :: sp :: (ascii "1.1 rust-proxy" ++ crlf) := by decide
  have hconn : ascii "Connection: close\r\n" =
      ascii "Connection" ++ colon :: sp :: (ascii "close" ++ crlf) := by decide
  simp only [rewriteHead, h, Httparse.Request.ofHead, copyHeaders_eq hne, hsp, hend, hline, hhost,
    hfor, hid, hvia, hconn]
  simp only [forwardedHead, forwardedFields, injected, Request.print, Request.line, Header.line,
    List.append_assoc, List.cons_append, List.nil_append, List.flatMap_cons, List.flatMap_append,
    List.flatMap_nil]

theorem token_ascii {s : String} (h : (ascii s).all isTchar = true) (hne : ascii s ≠ []) :
    IsToken (ascii s) := ⟨hne, List.all_eq_true.1 h⟩

theorem forwardedHead_wf {proto : List Header} {q : HttpHead.Request} (hq : q.Wf)
    (hproto : ∀ h ∈ proto, h.Wf) (hip : IsFieldValue ip) (hhost : IsFieldValue host)
    (hrid : IsFieldValue rid) : (forwardedHead strip proto q ip host rid).Wf := by
  refine ⟨hq.method, hq.target, fun h hh => ?_⟩
  have hvia : IsFieldValue (ascii "1.1 rust-proxy") := .of_all (by decide) (by decide)
  have hclose : IsFieldValue (ascii "close") := .of_all (by decide) (by decide)
  simp only [forwardedHead, forwardedFields, injected, List.cons_append, List.mem_cons,
    List.mem_append, List.mem_filter, List.not_mem_nil, or_false] at hh
  rcases hh with rfl | ⟨hh, _⟩ | rfl | hh | rfl | rfl | rfl
  · exact ⟨token_ascii (by decide) (by decide), hhost⟩
  · exact hq.headers h hh
  · exact ⟨token_ascii (by decide) (by decide), hip⟩
  · exact hproto h hh
  · exact ⟨token_ascii (by decide) (by decide), hrid⟩
  · exact ⟨token_ascii (by decide) (by decide), hvia⟩
  · exact ⟨token_ascii (by decide) (by decide), hclose⟩

def foldCase (name : Bytes) : Bytes := name.map toAsciiLower

theorem eqIgnoreAsciiCase_iff : eqIgnoreAsciiCase a b = true ↔ foldCase a = foldCase b := by
  simp [eqIgnoreAsciiCase, foldCase]

theorem filter_name {l : List Header} (hnd : (l.map (fun g => foldCase g.name)).Nodup)
    (hh : h ∈ l) : l.filter (fun g => eqIgnoreAsciiCase g.name h.name) = [h] := by
  induction l with
  | nil => cases hh
  | cons g l ih =>
    simp only [List.map_cons, List.nodup_cons, List.mem_map, not_exists, not_and] at hnd
    rcases List.mem_cons.1 hh with rfl | hh
    · have hl : l.filter (fun g => eqIgnoreAsciiCase g.name h.name) = [] := by
        apply List.filter_eq_nil_iff.2
        intro k hk he
        exact hnd.1 k hk (eqIgnoreAsciiCase_iff.1 he)
      have hself : eqIgnoreAsciiCase h.name h.name = true := eqIgnoreAsciiCase_iff.2 rfl
      simp only [List.filter_cons, hself, if_true, hl]
    · have hg : ¬ eqIgnoreAsciiCase g.name h.name = true := fun he =>
        hnd.1 h hh (eqIgnoreAsciiCase_iff.1 he).symm
      simp only [List.filter_cons, hg, ih hnd.2 hh]
      rfl

theorem forwardedFields_controlled {proto hs : List Header}
    (hnd : ((controlled proto ip host rid).map (fun g => foldCase g.name)).Nodup)
    (hh : h ∈ controlled proto ip host rid)
    (hstrip : strip.any (fun s => eqIgnoreAsciiCase h.name s) = true) :
    (forwardedFields strip proto hs ip host rid).filter
      (fun g => eqIgnoreAsciiCase g.name h.name) = [h] := by
  have hkept : (hs.filter (kept strip)).filter
      (fun g => eqIgnoreAsciiCase g.name h.name) = [] := by
    rw [List.filter_eq_nil_iff]
    intro g hg he
    obtain ⟨s, hs, hhs⟩ := List.any_eq_true.1 hstrip
    have hgs : eqIgnoreAsciiCase g.name s = true :=
      eqIgnoreAsciiCase_iff.2 ((eqIgnoreAsciiCase_iff.1 he).trans (eqIgnoreAsciiCase_iff.1 hhs))
    have hk := (List.mem_filter.1 hg).2
    rw [kept, List.any_eq_true.2 ⟨s, hs, hgs⟩] at hk
    cases hk
  apply Eq.trans _ (filter_name hnd hh)
  simp only [forwardedFields, controlled, List.filter_cons, List.filter_append, hkept,
    List.nil_append]

/-- `out` is one head of version 1.1 and nothing else, to the grammar and to every parser call
with room for its fields. -/
structure IsHead (parse : Httparse.Parser) (out method path : Bytes) (hs : List Header) : Prop where
  grammar : HttpHead.parse out = some (⟨method, path, 1, hs⟩, out.length)
  parser : ∀ slots, hs.length ≤ slots →
    parse slots out = .ok (.complete out.length, ⟨some method, some path, some 1, hs⟩)

structure Rewrites (parse : Httparse.Parser) (strip : List Bytes) (proto : List Header)
    (r : Httparse.Request) (ip host rid : Bytes) (result : Except String (Bytes × Bytes × Bytes)) :
    Prop where
  exists_head : ∃ out method path, r.method = some method ∧ r.path = some path ∧
    result = .ok (out, method, path) ∧
    IsHead parse out method path (forwardedFields strip proto r.headers ip host rid)
  controlled_once : ∀ h ∈ controlled proto ip host rid,
    (forwardedFields strip proto r.headers ip host rid).filter
      (fun g => eqIgnoreAsciiCase g.name h.name) = [h]

def controlledNames (proto : List Header) : List Bytes :=
  (controlled proto [] [] []).map (fun h => h.name)

theorem controlled_names (proto : List Header) (ip host rid : Bytes) :
    (controlled proto ip host rid).map (fun h => h.name) = controlledNames proto := by
  simp [controlledNames, controlled, injected]

/-- The controlled names are distinct, and all of them are stripped from the client's fields. -/
structure Controls (strip : List Bytes) (proto : List Header) : Prop where
  proto_wf : ∀ h ∈ proto, h.Wf
  nodup : ((controlledNames proto).map foldCase).Nodup
  stripped : ∀ n ∈ controlledNames proto, strip.any (fun s => eqIgnoreAsciiCase n s) = true

theorem Controls.once {proto : List Header} (hc : Controls strip proto) (hs : List Header)
    (ip host rid : Bytes) (hg : g ∈ controlled proto ip host rid) :
    (forwardedFields strip proto hs ip host rid).filter
      (fun h => eqIgnoreAsciiCase h.name g.name) = [g] := by
  have hnd := hc.nodup
  have hname : g.name ∈ controlledNames proto := by
    rw [← controlled_names proto ip host rid]
    exact List.mem_map_of_mem hg
  rw [← controlled_names proto ip host rid, List.map_map] at hnd
  exact forwardedFields_controlled hnd hg (hc.stripped _ hname)

theorem rewriteHead_rewrites {parse : Httparse.Parser} {proto : List Header}
    (hc : Controls strip proto) (hp : Httparse.Conforms parse)
    (h : parse maxHeaders (buf.take len) = .ok (.complete n, r))
    (hip : IsFieldValue ip) (hhost : IsFieldValue host) (hrid : IsFieldValue rid) :
    Rewrites parse strip proto r ip host rid
      (rewriteHead strip (proto.flatMap (fun h => h.line ++ crlf)) parse buf len ip host rid) := by
  obtain ⟨q, hq, rfl, he⟩ := rewriteHead_eq strip proto hp h ip host rid
  have hw : (forwardedHead strip proto q ip host rid).Wf :=
    forwardedHead_wf (parse_wf hq) hc.proto_wf hip hhost hrid
  have hparse := parse_print hw rfl []
  rw [List.append_nil] at hparse
  refine ⟨⟨_, q.method, q.target, rfl, rfl, he, hparse, fun slots hslots => ?_⟩,
    fun g hg => hc.once q.headers ip host rid hg⟩
  exact (hp.complete_iff _ _ _ _).2 ⟨_, hparse, hslots, rfl⟩

def C.proto : List Header := [⟨ascii "X-Forwarded-Proto", ascii "https"⟩]

theorem B.controls : Controls B.strip [] := ⟨nofun, by decide, by decide⟩

theorem C.controls : Controls C.strip C.proto := by
  refine ⟨fun h hh => ?_, by decide, by decide⟩
  rw [List.mem_singleton.1 hh]
  exact ⟨token_ascii (by decide) (by decide), .of_all (by decide) (by decide)⟩

theorem B.buildForwardedRequest_eq : B.buildForwardedRequest =
    rewriteHead B.strip (([] : List Header).flatMap (fun h => h.line ++ crlf)) := rfl

theorem C.buildForwardedRequest_eq : C.buildForwardedRequest =
    rewriteHead C.strip (C.proto.flatMap (fun h => h.line ++ crlf)) := by
  have htext : ascii "X-Forwarded-Proto: https\r\n" =
      C.proto.flatMap (fun h => h.line ++ crlf) := by decide
  rw [C.buildForwardedRequest, htext]

/-- Whatever complete request the parser accepts, the rewriters of options B and C turn it into a
head that parses back to the same method and path, with exactly the fields they must send. -/
theorem buildForwardedRequest_rewrites (parse : Httparse.Parser) (hp : Httparse.Conforms parse)
    (buf : Bytes) (len n : Nat) (r : Httparse.Request) (ip host rid : Bytes)
    (h : parse maxHeaders (buf.take len) = .ok (.complete n, r))
    (hip : IsFieldValue ip) (hhost : IsFieldValue host) (hrid : IsFieldValue rid) :
    Rewrites parse B.strip [] r ip host rid
      (B.buildForwardedRequest parse buf len ip host rid) ∧
    Rewrites parse C.strip C.proto r ip host rid
      (C.buildForwardedRequest parse buf len ip host rid) := by
  rw [B.buildForwardedRequest_eq, C.buildForwardedRequest_eq]
  exact ⟨rewriteHead_rewrites B.controls hp h hip hhost hrid,
    rewriteHead_rewrites C.controls hp h hip hhost hrid⟩

def spoofedRequest : Bytes :=
  ascii "GET / HTTP/1.1\r\nX-Forwarded-For: 6.6.6.6\r\nA: b\r\nx-FORWARDED-for: 7.7.7.7\r\n\r\n"

theorem buildForwardedRequest_rewrites_spoofed :
    ∃ n r, Httparse.grammarParser maxHeaders (spoofedRequest.take 76) = .ok (.complete n, r) ∧
      Rewrites Httparse.grammarParser B.strip [] r (ascii "1.2.3.4") (ascii "u:1") (ascii "id")
        (B.buildForwardedRequest Httparse.grammarParser spoofedRequest 76 (ascii "1.2.3.4")
          (ascii "u:1") (ascii "id")) := by
  have h : Httparse.grammarParser maxHeaders (spoofedRequest.take 76) =
      .ok (.complete 76, ⟨some (ascii "GET"), some (ascii "/"), some 1,
        [⟨ascii "X-Forwarded-For", ascii "6.6.6.6"⟩, ⟨ascii "A", ascii "b"⟩,
          ⟨ascii "x-FORWARDED-for", ascii "7.7.7.7"⟩]⟩) := by decide +kernel
  have hip : IsFieldValue (ascii "1.2.3.4") := .of_all (by decide) (by decide)
  have hhost : IsFieldValue (ascii "u:1") := .of_all (by decide) (by decide)
  have hrid : IsFieldValue (ascii "id") := .of_all (by decide) (by decide)
  exact ⟨_, _, h, (buildForwardedRequest_rewrites _ Httparse.grammarParser_conforms _ _ _ _ _ _ _ h
    hip hhost hrid).1⟩

end ReverseProxy
