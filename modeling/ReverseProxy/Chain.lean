import ReverseProxy.Forwarding
import ReverseProxy.Rotation

namespace ReverseProxy
open HttpHead Segments Usize
set_option autoImplicit true

inductive Proxy (w : Nat) (Addr : Type)
  | b (balancer : B.Balancer w Addr)
  | c (balancer : C.Balancer w Addr)

/-- A proxy on the way of a request, with how the bytes that are sent to it arrive, and what its TLS
handshake comes to with a client that does not speak TLS. -/
structure Hop (w : Nat) (Addr : Type) where
  proxy : Proxy w Addr
  clientIp : Bytes
  requestId : Bytes
  addr : Addr
  arrive : Bytes → Stream UInt8
  arrive_contents : ∀ bs, (arrive bs).contents = bs
  plain : Attempt
  plain_ne : plain ≠ .succeeded

variable {w : Nat} {Addr : Type}

def Proxy.tls : Proxy w Addr → Bool
  | .b _ => false
  | .c _ => true

def Proxy.pick (m : Overflow) : Proxy w Addr → Except Panic (Option Addr)
  | .b balancer => (B.pick balancer).1
  | .c balancer => (balancer.nextHealthy m).1

def Proxy.strip : Proxy w Addr → List Bytes
  | .b _ => B.strip
  | .c _ => C.strip

def Proxy.proto : Proxy w Addr → List Header
  | .b _ => []
  | .c _ => C.proto

def Proxy.handleConnection (m : Overflow) (parse : Httparse.Parser) (display : Addr → Bytes)
    (handshake : Attempt) (x : Exchange Addr) : Proxy w Addr → Handled Addr
  | .b balancer => (B.handleConnection parse display x balancer).1
  | .c balancer => (C.handleConnection m parse display handshake x balancer).1

/-- No connect, no write and no transfer fails. -/
def Hop.exchange (h : Hop w Addr) (bs : Bytes) : Exchange Addr where
  requestId := h.requestId
  clientIp := some h.clientIp
  client := h.arrive bs
  clientWrite := .done
  connect _ := .succeeded
  headWrite := .done
  transfer := ⟨bs.length, [], .succeeded⟩

def Hop.handle (m : Overflow) (parse : Httparse.Parser) (display : Addr → Bytes) (tls : Bool)
    (h : Hop w Addr) (bs : Bytes) : Handled Addr :=
  h.proxy.handleConnection m parse display (if tls then .succeeded else h.plain) (h.exchange bs)

/-- What the last of the proxies sends on, or what the one does that sends nothing on. The first of
them may have a client that speaks TLS; the proxies themselves connect in plain TCP. -/
def forwardAlong (m : Overflow) (parse : Httparse.Parser) (display : Addr → Bytes) :
    Bool → List (Hop w Addr) → Bytes → Except (Handled Addr) Bytes
  | _, [], bs => .ok bs
  | tls, h :: hops, bs =>
    match connectedTo (h.handle m parse display tls bs) with
    | none => .error (h.handle m parse display tls bs)
    | some _ =>
      forwardAlong m parse display false hops
        (sentUpstream (h.handle m parse display tls bs).events)

/-- A proxy whose balancer answers, and whose values are field values. -/
structure Hop.Wf (m : Overflow) (display : Addr → Bytes) (h : Hop w Addr) : Prop where
  pick : h.proxy.pick m = .ok (some h.addr)
  clientIp : IsFieldValue h.clientIp
  upstreamHost : IsFieldValue (display h.addr)
  requestId : IsFieldValue h.requestId

def Hop.sends (display : Addr → Bytes) (h : Hop w Addr) (q : HttpHead.Request) : HttpHead.Request :=
  forwardedHead h.proxy.strip h.proxy.proto q h.clientIp (display h.addr) h.requestId

/-- The fields of a request that proxies of option B behind this one let pass. -/
def Hop.carried (h : Hop w Addr) (hs : List Header) : List Header :=
  hs.filter (kept h.proxy.strip) ++ h.proxy.proto

/-- The head that a proxy of option B sends which stands somewhere behind `first`. -/
def Hop.headBehind (display : Addr → Bytes) (first : Hop w Addr) (q : HttpHead.Request)
    (h : Hop w Addr) : HttpHead.Request where
  method := q.method
  target := q.target
  version := 1
  headers := ⟨ascii "Host", display h.addr⟩ ::
    (first.carried q.headers ++ injected [] h.clientIp h.requestId)

/-- The head that arrives at each of the proxies behind one that sends `g`, and the last that is
sent on. -/
def headsBehind (display : Addr → Bytes) (first : Hop w Addr) (q g : HttpHead.Request)
    (hops : List (Hop w Addr)) : List HttpHead.Request :=
  g :: hops.map (first.headBehind display q)

def Fits (g : HttpHead.Request) : Prop :=
  g.print.length ≤ headerBufSize ∧ g.headers.length ≤ maxHeaders

/-- The proxies behind the first one are of option B, and each head between two of them fits. -/
structure Admits (hops : List (Hop w Addr)) (heads : List HttpHead.Request) : Prop where
  plain : ∀ h ∈ hops, h.proxy.tls = false
  fits : ∀ g ∈ heads.dropLast, Fits g

/-- The connection gets no answer, 431 or 400, and nothing is sent on. -/
inductive TurnedAway (x : Handled Addr) : Prop
  | handshake : x.events = [] → TurnedAway x
  | tooLarge : x.events = [.respond response431 response431] → TurnedAway x
  | rejected : x.events = [.respond response400 response400] → TurnedAway x

theorem kept_of_kept (h : kept C.strip g = true) : kept B.strip g = true := by
  simp only [kept, C.strip, B.strip, List.any_cons, List.any_nil, Bool.not_eq_true',
    Bool.or_eq_false_iff] at h ⊢
  exact ⟨h.1, h.2.1, h.2.2.1, h.2.2.2.2.1, h.2.2.2.2.2⟩

theorem Controls.not_kept (hc : Controls strip proto) (hn : g.name ∈ controlledNames proto) :
    kept strip g = false := by
  rw [kept, hc.stripped g.name hn]
  rfl

/-- Of what one proxy sends, another lets pass what it lets pass of the client's fields, and of the
first one's word on the protocol. -/
theorem Controls.filter_fields {proto' : List Header} (hc : Controls strip' proto')
    (proto hs : List Header) (ip host rid : Bytes) :
    (forwardedFields strip proto hs ip host rid).filter (kept strip') =
      (hs.filter (kept strip)).filter (kept strip') ++ proto.filter (kept strip') := by
  have hnot (name value : Bytes) (hn : name ∈ controlledNames proto') :
      kept strip' ⟨name, value⟩ = false := hc.not_kept hn
  have hhost := hnot (ascii "Host") host (by simp [controlledNames, controlled])
  have hfor := hnot (ascii "X-Forwarded-For") ip (by simp [controlledNames, controlled, injected])
  have hid := hnot (ascii "X-Request-ID") rid (by simp [controlledNames, controlled, injected])
  have hvia := hnot (ascii "Via") (ascii "1.1 rust-proxy")
    (by simp [controlledNames, controlled, injected])
  have hconn := hnot (ascii "Connection") (ascii "close")
    (by simp [controlledNames, controlled, injected])
  simp [forwardedFields, injected, List.filter_append, hhost, hfor, hid, hvia, hconn]

theorem Proxy.controls (p : Proxy w Addr) : Controls p.strip p.proto := by
  cases p with
  | b balancer => exact B.controls
  | c balancer => exact C.controls

theorem Proxy.filter_carried (p : Proxy w Addr) (hs : List Header) :
    (hs.filter (kept p.strip)).filter (kept B.strip) ++ p.proto.filter (kept B.strip) =
      hs.filter (kept p.strip) ++ p.proto := by
  have hfilter : (hs.filter (kept p.strip)).filter (kept B.strip) = hs.filter (kept p.strip) := by
    refine List.filter_eq_self.2 fun g hg => ?_
    have hkept := (List.mem_filter.1 hg).2
    cases p with
    | b balancer => exact hkept
    | c balancer => exact kept_of_kept hkept
  have hproto : p.proto.filter (kept B.strip) = p.proto := by
    cases p with
    | b balancer => rfl
    | c balancer => exact (by decide : C.proto.filter (kept B.strip) = C.proto)
  rw [hfilter, hproto]

/-- What a head that arrives behind `first` has in common with the request. -/
structure Behind (first : Hop w Addr) (q g : HttpHead.Request) : Prop where
  wf : g.Wf
  version : g.version = 1
  method : g.method = q.method
  target : g.target = q.target
  carried : g.headers.filter (kept B.strip) = first.carried q.headers

variable {m : Overflow} {parse : Httparse.Parser} {display : Addr → Bytes} {h first : Hop w Addr}
  {q g : HttpHead.Request} {tls : Bool} {body bs : Bytes}

theorem Hop.Wf.sends_wf (hw : h.Wf m display) (hq : q.Wf) : (h.sends display q).Wf :=
  forwardedHead_wf hq h.proxy.controls.proto_wf hw.clientIp hw.upstreamHost hw.requestId

theorem Hop.Wf.behind (hw : first.Wf m display) (hq : q.Wf) :
    Behind first q (first.sends display q) where
  wf := hw.sends_wf hq
  version := rfl
  method := rfl
  target := rfl
  carried := (B.controls.filter_fields _ _ _ _ _).trans (first.proxy.filter_carried q.headers)

theorem Behind.sends_eq (hg : Behind first q g) (ht : h.proxy.tls = false) :
    h.sends display g = first.headBehind display q h := by
  obtain ⟨proxy, clientIp, requestId, addr, arrive, hcontents, plain, hplain⟩ := h
  cases proxy with
  | c balancer => cases ht
  | b balancer =>
    simp only [Hop.sends, Hop.headBehind, forwardedHead, forwardedFields, Proxy.strip, Proxy.proto,
      hg.method, hg.target, hg.carried]

theorem Behind.next (hg : Behind first q g) (hw : h.Wf m display) (ht : h.proxy.tls = false) :
    Behind first q (first.headBehind display q h) := by
  rw [← hg.sends_eq ht]
  refine ⟨hw.sends_wf hg.wf, rfl, hg.method, hg.target, ?_⟩
  have hpassed := (B.controls.filter_fields h.proxy.proto g.headers h.clientIp (display h.addr)
    h.requestId).trans (h.proxy.filter_carried g.headers)
  obtain ⟨proxy, clientIp, requestId, addr, arrive, hcontents, plain, hplain⟩ := h
  cases proxy with
  | c balancer => cases ht
  | b balancer => exact hpassed.trans ((List.append_nil _).trans hg.carried)

theorem firstEnd_print {r : HttpHead.Request} (hw : r.Wf) (bs : Bytes) :
    FirstEnd headersEnd (r.print ++ bs) r.print.length := by
  have hend : headersEnd = crlf ++ crlf := by decide
  have hlines : ∀ l ∈ r.line :: r.headers.map Header.line, l ≠ [] ∧ cr ∉ l := by
    intro l hl
    rcases List.mem_cons.1 hl with rfl | hl
    · exact ⟨r.line_ne, hw.not_mem_line (by decide)⟩
    · obtain ⟨h, hh, rfl⟩ := List.mem_map.1 hl
      exact ⟨h.line_ne, (hw.headers h hh).not_mem_line (by decide)⟩
  refine (firstEnd_append (Nat.le_refl _) bs).2 ⟨Nat.le_refl _, ?_, ?_⟩
  · rw [List.take_length, hend, print_eq]
    obtain ⟨ls, l, hl⟩ := (List.eq_nil_or_concat _).resolve_left
      (List.cons_ne_nil r.line (r.headers.map Header.line))
    rw [hl, List.concat_eq_append, List.flatMap_append, List.flatMap_singleton]
    exact ⟨ls.flatMap (fun l => l ++ crlf) ++ l, by simp only [List.append_assoc]⟩
  · rintro k hk ⟨pre, hpre⟩
    have hsplit : r.print = pre ++ (crlf ++ (crlf ++ r.print.drop k)) := by
      have := List.take_append_drop k r.print
      rw [← hpre, hend] at this
      simpa using this.symm
    rw [print_eq] at hsplit
    have hnil := no_earlier_end hlines hsplit
    rw [← print_eq, List.drop_eq_nil_iff] at hnil
    omega

def answering (r : Except Panic (Option Addr)) (u : Unit) : Except Panic (Option Addr) × Unit :=
  (r, u)

theorem handleRequest_pick {S : Type} {build : Build} {pick : S → Except Panic (Option Addr) × S}
    {x : Exchange Addr} {clientIp : Bytes} (s : S) :
    (handleRequest build display pick x clientIp s).1 =
      (handleRequest build display (answering (pick s).1) x clientIp ()).1 := by
  unfold handleRequest
  split
  · rfl
  · rfl
  · rfl
  · unfold answering
    rcases pick s with ⟨p | _ | addr, s'⟩ <;> rfl

theorem Hop.handle_eq (hw : h.Wf m display) (ht : tls = true ∨ h.proxy.tls = false) (bs : Bytes) :
    h.handle m parse display tls bs =
      (handleRequest (rewriteHead h.proxy.strip
          (h.proxy.proto.flatMap (fun h => h.line ++ crlf)) parse) display
        (answering (.ok (some h.addr))) (h.exchange bs) h.clientIp ()).1 := by
  have hpick := hw.pick
  unfold Hop.handle
  cases hproxy : h.proxy with
  | b balancer =>
    rw [hproxy] at hpick
    change (B.handleConnection parse display (h.exchange bs) balancer).1 = _
    rw [B.handleConnection_eq rfl, B.buildForwardedRequest_eq, handleRequest_pick,
      show (B.pick balancer).1 = _ from hpick]
    rfl
  | c balancer =>
    rw [hproxy] at hpick ht
    have hshaken : (if tls then Attempt.succeeded else h.plain) = .succeeded :=
      if_pos (ht.resolve_right fun hc => by cases hc)
    rw [hshaken]
    change (C.handleConnection m parse display .succeeded (h.exchange bs) balancer).1 = _
    rw [C.handleConnection_eq rfl, C.buildForwardedRequest_eq, handleRequest_pick,
      show (balancer.nextHealthy m).1 = _ from hpick]
    rfl

theorem connectedTo_forward {build : Build} {x : Exchange Addr}
    (h : sentUpstream (forward build display x ip len buf rest addr).events ≠ []) :
    connectedTo (forward build display x ip len buf rest addr) = some addr := by
  unfold forward at h ⊢
  split
  · next he =>
    rw [he] at h
    exact (h rfl).elim
  · cases x.connect addr with
    | failed => rfl
    | timedOut => rfl
    | succeeded => cases x.headWrite <;> rfl

/-- A head that fits the buffer is what the rewriter is given; some of what follows may be gone. -/
theorem Hop.handle_found (hw : h.Wf m display) (ht : tls = true ∨ h.proxy.tls = false)
    (hend : FirstEnd headersEnd (head ++ body) head.length) (hsize : head.length ≤ headerBufSize) :
    ∃ buf rest, buf.take head.length = head ∧ rest.contents <:+ body ∧
      h.handle m parse display tls (head ++ body) =
        forward (rewriteHead h.proxy.strip
            (h.proxy.proto.flatMap (fun h => h.line ++ crlf)) parse) display
          (h.exchange (head ++ body)) h.clientIp head.length buf rest h.addr := by
  have hstream := h.arrive_contents (head ++ body)
  change (h.exchange (head ++ body)).client.contents = head ++ body at hstream
  rw [← hstream] at hend
  obtain ⟨rest, hread, hrest, _⟩ := readUntilHeadersEnd_found hend hsize
  obtain ⟨_, htake⟩ := readUntilHeadersEnd_take hread
  have hle : head.length ≤ readEnd headerBufSize head.length 0
      (h.exchange (head ++ body)).client.segments := by
    apply le_readEnd
    rw [Nat.zero_add]
    exact hend.1
  refine ⟨(h.exchange (head ++ body)).client.contents.take (readEnd headerBufSize head.length 0
    (h.exchange (head ++ body)).client.segments), rest, ?_, ?_, ?_⟩
  · rw [htake, hstream, List.take_left]
  · rw [hrest, hstream, List.drop_append, List.drop_of_length_le hle, List.nil_append]
    exact List.drop_suffix _ _
  · have hanswer : answering (.ok (some h.addr)) () = (.ok (some h.addr), ()) := rfl
    rw [h.handle_eq hw ht, handleRequest_found hread hanswer]

theorem Hop.handle_ok (hp : Httparse.Conforms parse) (hw : h.Wf m display)
    (ht : tls = true ∨ h.proxy.tls = false)
    (hend : FirstEnd headersEnd (head ++ body) head.length) (hsize : head.length ≤ headerBufSize)
    (hacc : parse maxHeaders head = .ok (.complete n, .ofHead q)) :
    ∃ rest, rest <:+ body ∧
      connectedTo (h.handle m parse display tls (head ++ body)) = some h.addr ∧
      sentUpstream (h.handle m parse display tls (head ++ body)).events =
        (h.sends display q).print ++ rest := by
  obtain ⟨buf, rest, htake, hrest, hhandle⟩ := Hop.handle_found hw ht hend hsize
  rw [← htake] at hacc
  obtain ⟨q', _, hq', hbuild⟩ := rewriteHead_eq h.proxy.strip h.proxy.proto hp hacc h.clientIp
    (display h.addr) h.requestId
  obtain rfl := Httparse.Request.ofHead_inj hq'
  have hfwd : rest.contents.length ≤ (h.exchange (head ++ body)).transfer.forwarded := by
    refine Nat.le_trans hrest.length_le ?_
    exact (List.suffix_append head body).length_le
  have hsent := sentUpstream_forward hbuild rfl rfl hfwd
  rw [hhandle]
  refine ⟨rest.contents, hrest, connectedTo_forward ?_, hsent⟩
  rw [hsent]
  exact List.append_ne_nil_of_left_ne_nil (by simp [HttpHead.Request.print, crlf]) _

theorem Hop.handle_rejected (hp : Httparse.Conforms parse) (hw : h.Wf m display)
    (ht : tls = true ∨ h.proxy.tls = false)
    (hend : FirstEnd headersEnd (head ++ body) head.length) (hsize : head.length ≤ headerBufSize)
    (hq : HttpHead.parse head = some (q, n)) (hlen : maxHeaders < q.headers.length) :
    TurnedAway (h.handle m parse display tls (head ++ body)) := by
  obtain ⟨buf, rest, htake, _, hhandle⟩ := Hop.handle_found hw ht hend hsize
  have hbuild : ∃ e, rewriteHead h.proxy.strip
      (h.proxy.proto.flatMap (fun h => h.line ++ crlf)) parse buf head.length h.clientIp
      (display h.addr) h.requestId = .error e := by
    unfold rewriteHead
    rw [htake]
    split
    · exact ⟨_, rfl⟩
    · exact ⟨_, rfl⟩
    · next hparse =>
      obtain ⟨q', hq', hle, _⟩ := (hp.complete_iff _ _ _ _).1 hparse
      cases hq.symm.trans hq'
      exact (Nat.not_le_of_lt hlen hle).elim
  obtain ⟨e, he⟩ := hbuild
  refine .rejected ?_
  rw [hhandle]
  simp only [forward, Hop.exchange, he]
  rfl

theorem Hop.handle_tooLarge (hw : h.Wf m display) (ht : tls = true ∨ h.proxy.tls = false)
    (hend : FirstEnd headersEnd (head ++ body) head.length)
    (hsize : headerBufSize < head.length) :
    TurnedAway (h.handle m parse display tls (head ++ body)) := by
  have hstream := h.arrive_contents (head ++ body)
  change (h.exchange (head ++ body)).client.contents = head ++ body at hstream
  have hno : ∀ k ≤ headerBufSize,
      ¬ FirstEnd headersEnd (h.exchange (head ++ body)).client.contents k := by
    intro k hk hend'
    rw [hstream] at hend'
    exact Nat.not_lt_of_le hk (hend'.unique hend ▸ hsize)
  have hlen : headerBufSize ≤ (h.exchange (head ++ body)).client.contents.length := by
    rw [hstream, List.length_append]
    omega
  have hreturned := readUntilHeadersEnd_returned (h.exchange (head ++ body)).client headerBufSize
  rw [headOutcome_missing hno, headMissing, if_pos hlen] at hreturned
  refine .tooLarge ?_
  rw [h.handle_eq hw ht]
  unfold handleRequest
  cases hread : readUntilHeadersEnd (h.exchange (head ++ body)).client headerBufSize with
  | failed message => rfl
  | found len buf rest =>
    rw [hread] at hreturned
    cases hreturned
  | waiting =>
    rw [hread] at hreturned
    cases hreturned
  | unfinished =>
    rw [hread] at hreturned
    cases hreturned

theorem Hop.handle_plain (ht : h.proxy.tls = true) :
    TurnedAway (h.handle m parse display false bs) := by
  refine .handshake ?_
  have hne := h.plain_ne
  unfold Hop.handle
  cases hproxy : h.proxy with
  | b balancer =>
    rw [hproxy] at ht
    cases ht
  | c balancer =>
    cases hplain : h.plain with
    | succeeded => exact (hne hplain).elim
    | failed => rfl
    | timedOut => rfl

theorem TurnedAway.connectedTo {x : Handled Addr} (h : TurnedAway x) : connectedTo x = none := by
  cases h with
  | handshake h => rw [ReverseProxy.connectedTo, h]; rfl
  | tooLarge h => rw [ReverseProxy.connectedTo, h]; rfl
  | rejected h => rw [ReverseProxy.connectedTo, h]; rfl

theorem forwardAlong_turnedAway {hops : List (Hop w Addr)}
    (hx : TurnedAway (h.handle m parse display tls bs)) :
    ∃ x, forwardAlong m parse display tls (h :: hops) bs = .error x ∧ TurnedAway x :=
  ⟨_, by rw [forwardAlong, hx.connectedTo], hx⟩

theorem forwardAlong_cons {hops : List (Hop w Addr)}
    (hconn : connectedTo (h.handle m parse display tls bs) = some addr)
    (hsent : sentUpstream (h.handle m parse display tls bs).events = out) :
    forwardAlong m parse display tls (h :: hops) bs =
      forwardAlong m parse display false hops out := by
  rw [forwardAlong, hconn, hsent]

theorem Admits.cons_iff {hops : List (Hop w Addr)} :
    Admits (h :: hops) (headsBehind display first q g (h :: hops)) ↔
      h.proxy.tls = false ∧ Fits g ∧
        Admits hops (headsBehind display first q (first.headBehind display q h) hops) := by
  have hdrop : (headsBehind display first q g (h :: hops)).dropLast =
      g :: (headsBehind display first q (first.headBehind display q h) hops).dropLast := rfl
  constructor
  · rintro ⟨hplain, hfits⟩
    rw [hdrop, List.forall_mem_cons] at hfits
    rw [List.forall_mem_cons] at hplain
    exact ⟨hplain.1, hfits.1, hplain.2, hfits.2⟩
  · rintro ⟨ht, hg, hplain, hfits⟩
    refine ⟨List.forall_mem_cons.2 ⟨ht, hplain⟩, ?_⟩
    rw [hdrop, List.forall_mem_cons]
    exact ⟨hg, hfits⟩

theorem Behind.parse_print (hg : Behind first q g) :
    HttpHead.parse g.print = some (g, g.print.length) := by
  have h := HttpHead.parse_print hg.wf hg.version []
  rwa [List.append_nil] at h

theorem Behind.accepted (hp : Httparse.Conforms parse) (hg : Behind first q g)
    (hlen : g.headers.length ≤ maxHeaders) :
    parse maxHeaders g.print = .ok (.complete g.print.length, .ofHead g) :=
  (hp.complete_iff _ _ _ _).2 ⟨g, hg.parse_print, hlen, rfl⟩

theorem Behind.isHead (hp : Httparse.Conforms parse) (hg : Behind first q g) :
    IsHead parse g.print q.method q.target g.headers := by
  have hgrammar := hg.parse_print
  obtain ⟨method, target, version, headers⟩ := g
  obtain ⟨_, rfl, rfl, rfl, _⟩ := hg
  exact ⟨hgrammar, fun slots hslots => (hp.complete_iff _ _ _ _).2 ⟨_, hgrammar, hslots, rfl⟩⟩

theorem forwardAlong_ok (hp : Httparse.Conforms parse) {hops : List (Hop w Addr)}
    (hw : ∀ h ∈ hops, h.Wf m display) (hg : Behind first q g)
    (ha : Admits hops (headsBehind display first q g hops)) (body : Bytes) :
    ∃ k rest, (headsBehind display first q g hops).getLast? = some k ∧ Behind first q k ∧
      rest <:+ body ∧
      forwardAlong m parse display false hops (g.print ++ body) = .ok (k.print ++ rest) := by
  induction hops generalizing g body with
  | nil => exact ⟨g, body, rfl, hg, List.suffix_refl body, rfl⟩
  | cons h hops ih =>
    obtain ⟨ht, hfits, ha⟩ := Admits.cons_iff.1 ha
    have hh := hw h List.mem_cons_self
    have hend := firstEnd_print hg.wf body
    obtain ⟨rest, hrest, hconn, hsent⟩ :=
      Hop.handle_ok hp hh (.inr ht) hend hfits.1 (hg.accepted hp hfits.2)
    rw [hg.sends_eq ht] at hsent
    obtain ⟨k, rest', hk, hbehind, hrest', hok⟩ :=
      ih (fun h' hh' => hw h' (List.mem_cons_of_mem _ hh')) (hg.next hh ht) ha rest
    refine ⟨k, rest', ?_, hbehind, hrest'.trans hrest, ?_⟩
    · rw [headsBehind, List.map_cons, List.getLast?_cons_cons]
      exact hk
    · rw [forwardAlong_cons hconn hsent]
      exact hok

theorem forwardAlong_error (hp : Httparse.Conforms parse) {hops : List (Hop w Addr)}
    (hw : ∀ h ∈ hops, h.Wf m display) (hg : Behind first q g)
    (ha : ¬ Admits hops (headsBehind display first q g hops)) (body : Bytes) :
    ∃ x, forwardAlong m parse display false hops (g.print ++ body) = .error x ∧ TurnedAway x := by
  induction hops generalizing g body with
  | nil => exact (ha ⟨nofun, nofun⟩).elim
  | cons h hops ih =>
    have hh := hw h List.mem_cons_self
    have hend := firstEnd_print hg.wf body
    rw [Admits.cons_iff] at ha
    by_cases ht : h.proxy.tls = false
    · by_cases hsize : g.print.length ≤ headerBufSize
      · by_cases hlen : g.headers.length ≤ maxHeaders
        · -- this one sends the head on, and the fault is behind it
          obtain ⟨rest, _, hconn, hsent⟩ :=
            Hop.handle_ok hp hh (.inr ht) hend hsize (hg.accepted hp hlen)
          rw [hg.sends_eq ht] at hsent
          rw [forwardAlong_cons hconn hsent]
          exact ih (fun h' hh' => hw h' (List.mem_cons_of_mem _ hh')) (hg.next hh ht)
            (fun hrest => ha ⟨ht, ⟨hsize, hlen⟩, hrest⟩) rest
        · exact forwardAlong_turnedAway
            (Hop.handle_rejected hp hh (.inr ht) hend hsize hg.parse_print (Nat.lt_of_not_le hlen))
      · exact forwardAlong_turnedAway
          (Hop.handle_tooLarge hh (.inr ht) hend (Nat.lt_of_not_le hsize))
    · exact forwardAlong_turnedAway (Hop.handle_plain (Bool.eq_true_of_not_eq_false ht))

/-- A request that the first of the proxies accepts comes through all of them exactly when only the
first of them terminates TLS and each head between two of them fits the buffer and the parser it
arrives at. The last one then sends its own fields around what the first lets pass. -/
theorem forwardAlong_composes (parse : Httparse.Parser) (hp : Httparse.Conforms parse)
    (m : Overflow) (display : Addr → Bytes) (first : Hop w Addr) (hops : List (Hop w Addr))
    (hw : ∀ h ∈ first :: hops, h.Wf m display) (head body : Bytes) (n : Nat)
    (q : HttpHead.Request) (hend : FirstEnd headersEnd (head ++ body) head.length)
    (hsize : head.length ≤ headerBufSize)
    (hacc : parse maxHeaders head = .ok (.complete n, .ofHead q)) :
    (Admits hops (headsBehind display first q (first.sends display q) hops) → ∃ k rest,
      (headsBehind display first q (first.sends display q) hops).getLast? = some k ∧
      rest <:+ body ∧
      forwardAlong m parse display true (first :: hops) (head ++ body) = .ok (k.print ++ rest) ∧
      IsHead parse k.print q.method q.target k.headers) ∧
    (¬ Admits hops (headsBehind display first q (first.sends display q) hops) → ∃ x,
      forwardAlong m parse display true (first :: hops) (head ++ body) = .error x ∧
      TurnedAway x) := by
  have hfirst := hw first List.mem_cons_self
  have hrest : ∀ h ∈ hops, h.Wf m display := fun h hh => hw h (List.mem_cons_of_mem _ hh)
  obtain ⟨q', hq, _, hq'⟩ := (hp.complete_iff _ _ _ _).1 hacc
  obtain rfl := Httparse.Request.ofHead_inj hq'
  have hg : Behind first q (first.sends display q) := hfirst.behind (parse_wf hq)
  obtain ⟨passed, hpassed, hconn, hsent⟩ := Hop.handle_ok hp hfirst (.inl rfl) hend hsize hacc
  rw [forwardAlong_cons hconn hsent]
  refine ⟨fun ha => ?_, fun ha => forwardAlong_error hp hrest hg ha passed⟩
  obtain ⟨k, rest, hk, hbehind, hsuffix, hok⟩ := forwardAlong_ok hp hrest hg ha passed
  exact ⟨k, rest, hk, hsuffix.trans hpassed, hok, hbehind.isHead hp⟩

def claimingRequest : Bytes :=
  ascii "GET / HTTP/1.1\r\nA: b\r\nx-forwarded-proto: http\r\n\r\n"

def pausing (bs : Bytes) : Stream UInt8 := .cut bs 16 .idle

theorem pausing_contents (bs : Bytes) : (pausing bs).contents = bs :=
  Stream.cut_contents bs 16 .idle

def outer : Hop 64 Bytes where
  proxy := .c ⟨[ascii "10.0.0.1:80"], [true], 0⟩
  clientIp := ascii "192.0.2.1"
  requestId := ascii "1"
  addr := ascii "10.0.0.1:80"
  arrive := pausing
  arrive_contents := pausing_contents
  plain := .failed
  plain_ne := nofun

def inner : Hop 64 Bytes where
  proxy := .b ⟨[ascii "10.0.1.1:80"], 0⟩
  clientIp := ascii "10.0.0.9"
  requestId := ascii "2"
  addr := ascii "10.0.1.1:80"
  arrive := pausing
  arrive_contents := pausing_contents
  plain := .failed
  plain_ne := nofun

theorem forwardAlong_composes_two :
    (∃ k, forwardAlong .wrapping Httparse.grammarParser id true [outer, inner] claimingRequest =
        .ok k ∧
      IsHead Httparse.grammarParser k (ascii "GET") (ascii "/")
        [⟨ascii "Host", ascii "10.0.1.1:80"⟩, ⟨ascii "A", ascii "b"⟩,
          ⟨ascii "X-Forwarded-Proto", ascii "https"⟩, ⟨ascii "X-Forwarded-For", ascii "10.0.0.9"⟩,
          ⟨ascii "X-Request-ID", ascii "2"⟩, ⟨ascii "Via", ascii "1.1 rust-proxy"⟩,
          ⟨ascii "Connection", ascii "close"⟩]) ∧
    ∃ x, forwardAlong .wrapping Httparse.grammarParser id true [inner, outer] claimingRequest =
      .error x ∧ TurnedAway x := by
  have hacc : Httparse.grammarParser maxHeaders claimingRequest = .ok (.complete 49, .ofHead
      ⟨ascii "GET", ascii "/", 1,
        [⟨ascii "A", ascii "b"⟩, ⟨ascii "x-forwarded-proto", ascii "http"⟩]⟩) := by
    decide +kernel
  have hend : FirstEnd headersEnd (claimingRequest ++ []) claimingRequest.length :=
    ⟨by decide, by decide +kernel, by decide +kernel⟩
  have hsize : claimingRequest.length ≤ headerBufSize := by decide
  have houter : outer.Wf .wrapping id :=
    ⟨by decide +kernel, .of_all (by decide) (by decide), .of_all (by decide) (by decide),
      .of_all (by decide) (by decide)⟩
  have hinner : inner.Wf .wrapping id :=
    ⟨by decide +kernel, .of_all (by decide) (by decide), .of_all (by decide) (by decide),
      .of_all (by decide) (by decide)⟩
  constructor
  · obtain ⟨k, rest, hk, hrest, hout, hhead⟩ := (forwardAlong_composes _
      Httparse.grammarParser_conforms .wrapping id outer [inner]
      (List.forall_mem_cons.2 ⟨houter, List.forall_mem_singleton.2 hinner⟩) claimingRequest [] 49 _
      hend hsize hacc).1
      ⟨by decide, List.forall_mem_singleton.2 ⟨by decide +kernel, by decide +kernel⟩⟩
    obtain rfl := List.suffix_nil.1 hrest
    simp only [List.append_nil] at hout
    cases hk
    exact ⟨_, hout, hhead⟩
  · exact (forwardAlong_composes _ Httparse.grammarParser_conforms .wrapping id inner [outer]
      (List.forall_mem_cons.2 ⟨hinner, List.forall_mem_singleton.2 houter⟩) claimingRequest [] 49 _
      hend hsize hacc).2 fun ha => nomatch ha.plain outer List.mem_cons_self

end ReverseProxy
