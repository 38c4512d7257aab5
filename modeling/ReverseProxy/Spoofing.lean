import ReverseProxy.Forwarding
import ReverseProxy.Proxy

namespace ReverseProxy
open HttpHead Segments Usize
set_option autoImplicit true

def forwardedFor (ip : Bytes) : Header := ⟨ascii "X-Forwarded-For", ip⟩

def requestIdField (rid : Bytes) : Header := ⟨ascii "X-Request-ID", rid⟩

theorem forwardedFor_mem (proto : List Header) (ip host rid : Bytes) :
    forwardedFor ip ∈ controlled proto ip host rid := by
  simp [controlled, injected, forwardedFor]

theorem requestIdField_mem (proto : List Header) (ip host rid : Bytes) :
    requestIdField rid ∈ controlled proto ip host rid := by
  simp [controlled, injected, requestIdField]

def named (h : Header) (hs : List Header) : List Header :=
  hs.filter (fun g => eqIgnoreAsciiCase g.name h.name)

/-- Every head in `sent` names the client's address and the proxy's id once each, and no other
line of `sent` has one of these names. -/
structure Unspoofed (ip rid sent : Bytes) : Prop where
  heads : ∀ q, Contains sent q → named (forwardedFor ip) q.headers = [forwardedFor ip] ∧
    named (requestIdField rid) q.headers = [requestIdField rid]
  lines : (named (forwardedFor ip) (fieldLines sent)).Sublist [forwardedFor ip] ∧
    (named (requestIdField rid) (fieldLines sent)).Sublist [requestIdField rid]

/-- Neither a head nor a line that claims an address or an id. -/
structure Clean (ip rid tail : Bytes) : Prop where
  heads : ∀ q, ¬ Contains tail q
  lines : named (forwardedFor ip) (fieldLines tail) = [] ∧
    named (requestIdField rid) (fieldLines tail) = []

theorem named_append (h : Header) (hs gs : List Header) :
    named h (hs ++ gs) = named h hs ++ named h gs := List.filter_append _ _

theorem sublist_singleton_append {f : Header} :
    ([f] ++ l).Sublist [f] ↔ l = [] := by
  constructor
  · intro h
    have := h.length_le
    simpa using this
  · rintro rfl
    exact List.Sublist.refl _

theorem not_contains_nil (q : Request) : ¬ Contains [] q := by
  intro hq
  obtain ⟨ls, n, hl, hp⟩ := hq
  rw [List.suffix_nil.1 hl] at hp
  cases hp

theorem unspoofed_nil (ip rid : Bytes) : Unspoofed ip rid [] :=
  ⟨fun q hq => (not_contains_nil q hq).elim, List.nil_sublist _, List.nil_sublist _⟩

theorem unspoofed_print {q : Request} (hw : q.Wf) (hv : q.version = 1)
    (hfor : named (forwardedFor ip) q.headers = [forwardedFor ip])
    (hid : named (requestIdField rid) q.headers = [requestIdField rid]) (tail : Bytes) :
    Unspoofed ip rid (q.print ++ tail) ↔ Clean ip rid tail := by
  constructor
  · intro h
    have hlines := h.lines
    rw [fieldLines_print hw, named_append, named_append, hfor, hid, sublist_singleton_append,
      sublist_singleton_append] at hlines
    apply Clean.mk _ hlines
    intro q' hq'
    have hq := (h.heads q' ((contains_print hw hv).2 (.inr hq'))).1
    have hmem : forwardedFor ip ∈ named (forwardedFor ip) q'.headers := by
      rw [hq]
      exact List.mem_singleton_self _
    have hline := hq'.fieldLines (List.mem_filter.1 hmem).1
    have hnamed : forwardedFor ip ∈ named (forwardedFor ip) (fieldLines tail) :=
      List.mem_filter.2 ⟨hline, (List.mem_filter.1 hmem).2⟩
    rw [hlines.1] at hnamed
    cases hnamed
  · intro h
    constructor
    · intro q' hq'
      rcases (contains_print hw hv).1 hq' with rfl | hq'
      · exact ⟨hfor, hid⟩
      · exact (h.heads q' hq').elim
    · rw [fieldLines_print hw, named_append, named_append, hfor, hid, h.lines.1, h.lines.2]
      exact ⟨List.Sublist.refl _, List.Sublist.refl _⟩

/-- What is left of the client's stream after the read that completes its first head, which is
`h` bytes long. -/
def unread (segments : List Bytes) (h : Nat) : Bytes :=
  segments.flatten.drop (readEnd headerBufSize h 0 segments)

theorem clean_nil (ip rid : Bytes) : Clean ip rid [] := ⟨not_contains_nil, rfl, rfl⟩

/-- A stream of request heads, each of which fits the buffer and parses. -/
def HeadStream (parse : Httparse.Parser) (heads : List Bytes) : Prop :=
  ∀ h ∈ heads, FirstEnd headersEnd h h.length ∧ h.length ≤ headerBufSize ∧
    ∃ n r, parse maxHeaders h = .ok (.complete n, r)

variable {Addr S : Type} {display : Addr → Bytes} {pick : S → Except Panic (Option Addr) × S}
  {x : Exchange Addr} {clientIp : Bytes} {s s' : S}

theorem sentUpstream_nil {build : Build} (h : x.client.contents = []) :
    sentUpstream (handleRequest build display pick x clientIp s).1.events = [] := by
  cases hread : readUntilHeadersEnd x.client headerBufSize with
  | found len buf rest =>
    have hend := (firstEnd_of_readUntilHeadersEnd hread).1
    have := headersEnd_pos hend
    rw [h] at hend
    have := hend.1
    simp only [List.length_nil] at this
    omega
  | failed message =>
    simp only [handleRequest, hread]
    rfl
  | waiting =>
    simp only [handleRequest, hread]
    rfl
  | unfinished =>
    simp only [handleRequest, hread]
    rfl

theorem handleRequest_unspoofed {parse : Httparse.Parser} {proto : List Header}
    (hp : Httparse.Conforms parse) (hcontrols : Controls strip proto)
    (hheads : HeadStream parse heads) (hstream : x.client.contents = heads.flatten)
    (hpick : pick s = (.ok (some addr), s')) (hconn : x.connect addr = .succeeded)
    (hhead : x.headWrite = .done) (hfwd : x.client.contents.length ≤ x.transfer.forwarded)
    (hip : IsFieldValue clientIp) (hhost : IsFieldValue (display addr))
    (hrid : IsFieldValue x.requestId) :
    Unspoofed clientIp x.requestId (sentUpstream (handleRequest
        (rewriteHead strip (proto.flatMap (fun h => h.line ++ crlf)) parse) display pick x clientIp
        s).1.events) ↔
      ∀ h ∈ heads.head?, Clean clientIp x.requestId (unread x.client.segments h.length) := by
  cases heads with
  | nil =>
    rw [sentUpstream_nil hstream]
    exact iff_of_true (unspoofed_nil _ _) nofun
  | cons h hs =>
    obtain ⟨hend, hsize, n, r, hacc⟩ := hheads h (by simp)
    have hcont : x.client.contents = h ++ hs.flatten := by rw [hstream, List.flatten_cons]
    have hend' : FirstEnd headersEnd (h ++ hs.flatten) h.length :=
      (firstEnd_append (le_refl _) _).2 hend
    rw [← List.take_length (l := h)] at hacc
    obtain ⟨out, method, path, hb, hsent⟩ := handleRequest_sent hp strip
      (proto.flatMap (fun h => h.line ++ crlf)) clientIp display hcont hend' hsize hacc hpick hconn
      hhead hfwd
    obtain ⟨q, hq, _, hb'⟩ := rewriteHead_eq strip proto hp hacc clientIp (display addr) x.requestId
    rw [hb'] at hb
    cases hb
    have hw : (forwardedHead strip proto q clientIp (display addr) x.requestId).Wf :=
      forwardedHead_wf (parse_wf hq) hcontrols.proto_wf hip hhost hrid
    have hfor := hcontrols.once q.headers _ _ _
      (forwardedFor_mem proto clientIp (display addr) x.requestId)
    have hid := hcontrols.once q.headers _ _ _
      (requestIdField_mem proto clientIp (display addr) x.requestId)
    rw [hsent, unspoofed_print hw rfl hfor hid, ← hcont]
    simp only [List.head?_cons, Option.mem_def, Option.some.injEq, forall_eq']
    rfl

/-- When nothing fails and the upstream stays open, a client that sends heads only cannot make
itself another address or id exactly when what the first head's read leaves behind holds no head
and no line of these names: it is piped as it stands. -/
theorem handleConnection_unspoofed (parse : Httparse.Parser) (hp : Httparse.Conforms parse)
    (display : Addr → Bytes) (m : Overflow) (x : Exchange Addr) (clientIp : Bytes)
    (heads : List Bytes) (b : B.Balancer w Addr) (c : C.Balancer w Addr)
    (hx : x.clientIp = some clientIp) (hheads : HeadStream parse heads)
    (hstream : x.client.contents = heads.flatten) (hb : b.upstreams ≠ [])
    (hc : ∃ addr, (c.nextHealthy m).1 = .ok (some addr)) (hconn : ∀ a, x.connect a = .succeeded)
    (hhead : x.headWrite = .done) (hfwd : x.client.contents.length ≤ x.transfer.forwarded)
    (hip : IsFieldValue clientIp) (hhost : ∀ a, IsFieldValue (display a))
    (hrid : IsFieldValue x.requestId) :
    (Unspoofed clientIp x.requestId
        (sentUpstream (B.handleConnection parse display x b).1.events) ↔
      ∀ h ∈ heads.head?, Clean clientIp x.requestId (unread x.client.segments h.length)) ∧
    (Unspoofed clientIp x.requestId
        (sentUpstream (C.handleConnection m parse display .succeeded x c).1.events) ↔
      ∀ h ∈ heads.head?, Clean clientIp x.requestId (unread x.client.segments h.length)) := by
  rw [B.handleConnection_eq hx, C.handleConnection_eq hx, B.buildForwardedRequest_eq,
    C.buildForwardedRequest_eq]
  obtain ⟨addr, _, hpick⟩ := B.pick_eq hb
  obtain ⟨addr', hc⟩ := hc
  exact ⟨handleRequest_unspoofed hp B.controls hheads hstream hpick (hconn _) hhead hfwd hip
    (hhost _) hrid, handleRequest_unspoofed hp C.controls hheads hstream (Prod.ext hc rfl)
    (hconn _) hhead hfwd hip (hhost _) hrid⟩

def plainHead : Bytes := ascii "GET / HTTP/1.1\r\n\r\n"

def spoofedHead : Bytes := ascii "GET / HTTP/1.1\r\nX-Forwarded-For: 6.6.6.6\r\n\r\n"

theorem plain_spoofed_headStream :
    HeadStream Httparse.grammarParser [plainHead, spoofedHead] := by
  intro h hh
  simp only [List.mem_cons, List.not_mem_nil, or_false] at hh
  rcases hh with rfl | rfl
  · exact ⟨findEnd_eq_some.1 (by decide), by decide, 18,
      ⟨some (ascii "GET"), some (ascii "/"), some 1, []⟩, by decide⟩
  · exact ⟨findEnd_eq_some.1 (by decide), by decide, 44,
      ⟨some (ascii "GET"), some (ascii "/"), some 1, [forwardedFor (ascii "6.6.6.6")]⟩, by decide⟩

theorem localValues : IsFieldValue (ascii "192.0.2.1") ∧ IsFieldValue (ascii "192.0.2.7:80") ∧
    IsFieldValue (ascii "f47ac10b-58cc-4372-a567-0e02b2c3d479") :=
  ⟨.of_all (by decide) (by decide), .of_all (by decide) (by decide),
    .of_all (by decide) (by decide)⟩

def localAddr : Bytes → Bytes := fun _ => ascii "192.0.2.7:80"

/-- Both heads in one segment: the second is dropped with the rest of the read. -/
theorem handleConnection_unspoofed_together :
    let x := exchange [plainHead ++ spoofedHead] (by decide) []
    Unspoofed (ascii "192.0.2.1") x.requestId
      (sentUpstream (B.handleConnection Httparse.grammarParser localAddr x
        (⟨[ascii "192.0.2.7:80"], 0⟩ : B.Balancer 64 Bytes)).1.events) := by
  intro x
  refine (handleConnection_unspoofed Httparse.grammarParser Httparse.grammarParser_conforms
    localAddr .checked x (ascii "192.0.2.1") [plainHead, spoofedHead]
    ⟨[ascii "192.0.2.7:80"], 0⟩ ⟨[ascii "192.0.2.7:80"], [true], 0⟩ rfl plain_spoofed_headStream
    (by decide) (by decide) ⟨ascii "192.0.2.7:80", rfl⟩ (fun _ => rfl) rfl (by decide)
    localValues.1 (fun _ => localValues.2.1) localValues.2.2).1.2 ?_
  intro h hh
  cases hh
  exact clean_nil _ _

/-- Two heads in two segments: all the assumptions hold, and the second head reaches the upstream
with the address its client made up. -/
theorem handleConnection_spoofed :
    let x := exchange [plainHead, spoofedHead] (by decide) []
    let b : B.Balancer 64 Bytes := ⟨[ascii "192.0.2.7:80"], 0⟩
    let c : C.Balancer 64 Bytes := ⟨[ascii "192.0.2.7:80"], [true], 0⟩
    (HeadStream Httparse.grammarParser [plainHead, spoofedHead] ∧
      x.client.contents = [plainHead, spoofedHead].flatten ∧
      (∀ a, x.connect a = .succeeded) ∧ x.headWrite = .done ∧
      x.client.contents.length ≤ x.transfer.forwarded) ∧
    ¬ Unspoofed (ascii "192.0.2.1") x.requestId
      (sentUpstream (B.handleConnection Httparse.grammarParser localAddr x b).1.events) ∧
    ¬ Unspoofed (ascii "192.0.2.1") x.requestId
      (sentUpstream (C.handleConnection .checked Httparse.grammarParser localAddr .succeeded x
        c).1.events) := by
  intro x b c
  have hclean : ¬ ∀ h ∈ [plainHead, spoofedHead].head?,
      Clean (ascii "192.0.2.1") x.requestId (unread x.client.segments h.length) := by
    intro h
    have := (h plainHead rfl).lines.1
    revert this
    decide
  have hip : x.clientIp = some (ascii "192.0.2.1") := rfl
  have hb : B.pick b = (.ok (some (ascii "192.0.2.7:80")), { b with counter := 1 }) := rfl
  have hc : c.nextHealthy .checked =
      (.ok (some (ascii "192.0.2.7:80")), { c with counter := 1 }) := rfl
  have hlocal : IsFieldValue (localAddr (ascii "192.0.2.7:80")) := localValues.2.1
  have hstream : x.client.contents = [plainHead, spoofedHead].flatten := by decide
  have hfwd : x.client.contents.length ≤ x.transfer.forwarded := by decide
  refine ⟨⟨plain_spoofed_headStream, hstream, fun _ => rfl, rfl, hfwd⟩, ?_, ?_⟩
  · rw [B.handleConnection_eq hip, B.buildForwardedRequest_eq]
    exact (handleRequest_unspoofed Httparse.grammarParser_conforms B.controls
      plain_spoofed_headStream hstream hb rfl rfl hfwd localValues.1 hlocal
      localValues.2.2).not.2 hclean
  · rw [C.handleConnection_eq hip, C.buildForwardedRequest_eq]
    exact (handleRequest_unspoofed Httparse.grammarParser_conforms C.controls
      plain_spoofed_headStream hstream hc rfl rfl hfwd localValues.1 hlocal
      localValues.2.2).not.2 hclean

end ReverseProxy
