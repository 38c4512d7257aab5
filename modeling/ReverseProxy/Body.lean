import ReverseProxy.Proxy

namespace ReverseProxy
open HttpHead Segments Usize
set_option autoImplicit true

/-- The upstream that was picked is sent the rewritten head and then the whole body. -/
def Delivered (build : Build) (display : Addr → Bytes) (picked : Except Panic (Option Addr))
    (x : Exchange Addr) (clientIp head body : Bytes) (events : List (Event Addr)) : Prop :=
  ∃ addr out method path, picked = .ok (some addr) ∧
    build head head.length clientIp (display addr) x.requestId = .ok (out, method, path) ∧
    sentUpstream events = out ++ body

/-- A head of length `h` ends where one of the client's segments does, or fills the buffer. -/
def EndsRead (segments : List Bytes) (h : Nat) : Prop :=
  h = headerBufSize ∨ ∃ k, (segments.take k).flatten.length = h

theorem drop_eq_iff {head body : Bytes} (hle : head.length ≤ k) (hk : k ≤ (head ++ body).length) :
    (head ++ body).drop k = body ↔ k = head.length := by
  constructor
  · intro h
    have := congrArg List.length h
    rw [List.length_drop] at this
    rw [List.length_append] at this hk
    omega
  · rintro rfl
    exact List.drop_left

variable {Addr S : Type} {display : Addr → Bytes} {pick : S → Except Panic (Option Addr) × S}
  {x : Exchange Addr} {clientIp head body : Bytes} {s s' : S}

theorem handleRequest_delivered {parse : Httparse.Parser} (hp : Httparse.Conforms parse)
    (strip : List Bytes) (proto : Bytes) (hstream : x.client.contents = head ++ body)
    (hend : FirstEnd headersEnd (head ++ body) head.length) (hsize : head.length ≤ headerBufSize)
    (hacc : parse maxHeaders head = .ok (.complete n, r))
    (hpick : pick s = (.ok (some addr), s')) (hconn : x.connect addr = .succeeded)
    (hhead : x.headWrite = .done) (hfwd : x.client.contents.length ≤ x.transfer.forwarded) :
    Delivered (rewriteHead strip proto parse) display (pick s).1 x clientIp head body
        (handleRequest (rewriteHead strip proto parse) display pick x clientIp s).1.events ↔
      EndsRead x.client.segments head.length := by
  have hlen : head.length ≤ 0 + x.client.segments.flatten.length := by
    rw [Nat.zero_add]
    exact (hstream ▸ hend).1
  have hle := le_readEnd headerBufSize x.client.segments hlen
  have hk : readEnd headerBufSize head.length 0 x.client.segments ≤ (head ++ body).length := by
    rw [← hstream]
    simpa [Stream.contents] using readEnd_le headerBufSize head.length 0 x.client.segments
  obtain ⟨out, method, path, hb, hsent⟩ := handleRequest_sent hp strip proto clientIp display
    hstream hend hsize (by rwa [List.take_length]) hpick hconn hhead hfwd
  have hiff : (head ++ body).drop (readEnd headerBufSize head.length 0 x.client.segments) = body ↔
      EndsRead x.client.segments head.length := by
    rw [drop_eq_iff hle hk, readEnd_eq_iff hsize (headersEnd_pos hend) _ hlen]
    simp only [EndsRead, Nat.zero_add]
  rw [← hiff, hpick]
  constructor
  · rintro ⟨addr', out', method', path', ha, hb', hs⟩
    cases ha
    rw [hb] at hb'
    cases hb'
    exact List.append_cancel_left (hsent.symm.trans hs)
  · intro h
    rw [h] at hsent
    exact ⟨addr, out, method, path, rfl, hb, hsent⟩

/-- When nothing fails, the upstream gets all of a request's body exactly when no read of the
client takes the end of the head together with bytes after it. -/
theorem handleConnection_delivered (parse : Httparse.Parser) (hp : Httparse.Conforms parse)
    (display : Addr → Bytes) (m : Overflow) (x : Exchange Addr) (clientIp head body : Bytes)
    (n : Nat) (r : Httparse.Request) (b : B.Balancer w Addr) (c : C.Balancer w Addr)
    (hip : x.clientIp = some clientIp) (hstream : x.client.contents = head ++ body)
    (hend : FirstEnd headersEnd (head ++ body) head.length) (hsize : head.length ≤ headerBufSize)
    (hacc : parse maxHeaders head = .ok (.complete n, r)) (hb : b.upstreams ≠ [])
    (hc : ∃ addr, (c.nextHealthy m).1 = .ok (some addr)) (hconn : ∀ a, x.connect a = .succeeded)
    (hhead : x.headWrite = .done) (hfwd : x.client.contents.length ≤ x.transfer.forwarded) :
    (Delivered (B.buildForwardedRequest parse) display (B.pick b).1 x clientIp head body
        (B.handleConnection parse display x b).1.events ↔
      EndsRead x.client.segments head.length) ∧
    (Delivered (C.buildForwardedRequest parse) display (c.nextHealthy m).1 x clientIp head body
        (C.handleConnection m parse display .succeeded x c).1.events ↔
      EndsRead x.client.segments head.length) := by
  rw [B.handleConnection_eq hip, C.handleConnection_eq hip]
  obtain ⟨addr, _, hpick⟩ := B.pick_eq hb
  obtain ⟨addr', hc⟩ := hc
  exact ⟨handleRequest_delivered hp _ _ hstream hend hsize hacc hpick (hconn _) hhead hfwd,
    handleRequest_delivered hp _ _ hstream hend hsize hacc (Prod.ext hc rfl) (hconn _) hhead hfwd⟩

def postHead : Bytes := ascii "POST / HTTP/1.1\r\n\r\n"

def postBody : Bytes := ascii "hi"

theorem postHead_firstEnd : FirstEnd headersEnd (postHead ++ postBody) postHead.length :=
  findEnd_eq_some.1 (by decide)

theorem postHead_accepted : Httparse.grammarParser maxHeaders postHead =
    .ok (.complete 19, ⟨some (ascii "POST"), some (ascii "/"), some 1, []⟩) := by decide

theorem handleConnection_delivered_apart :
    Delivered (B.buildForwardedRequest Httparse.grammarParser) id
      (B.pick (⟨[ascii "192.0.2.7:80"], 0⟩ : B.Balancer 64 Bytes)).1
      (exchange [postHead, postBody] (by decide) []) (ascii "192.0.2.1") postHead postBody
      (B.handleConnection Httparse.grammarParser id (exchange [postHead, postBody] (by decide) [])
        (⟨[ascii "192.0.2.7:80"], 0⟩ : B.Balancer 64 Bytes)).1.events :=
  (handleConnection_delivered Httparse.grammarParser Httparse.grammarParser_conforms id .checked
    (exchange [postHead, postBody] (by decide) []) (ascii "192.0.2.1") postHead postBody 19 _
    ⟨[ascii "192.0.2.7:80"], 0⟩ ⟨[ascii "192.0.2.7:80"], [true], 0⟩ rfl rfl postHead_firstEnd
    (by decide) postHead_accepted (by decide) ⟨ascii "192.0.2.7:80", rfl⟩ (fun _ => rfl) rfl
    (by decide)).1.2 (.inr ⟨1, rfl⟩)

/-- Head and body in one segment: all the assumptions hold, and the body is lost. -/
theorem handleConnection_loses_body :
    let x := exchange [postHead ++ postBody] (by decide) []
    let b : B.Balancer 64 Bytes := ⟨[ascii "192.0.2.7:80"], 0⟩
    let c : C.Balancer 64 Bytes := ⟨[ascii "192.0.2.7:80"], [true], 0⟩
    (x.client.contents = postHead ++ postBody ∧
      FirstEnd headersEnd (postHead ++ postBody) postHead.length ∧
      postHead.length ≤ headerBufSize ∧
      (∃ n r, Httparse.grammarParser maxHeaders postHead = .ok (.complete n, r)) ∧
      (∀ a, x.connect a = .succeeded) ∧ x.headWrite = .done ∧
      x.client.contents.length ≤ x.transfer.forwarded) ∧
    ¬ Delivered (B.buildForwardedRequest Httparse.grammarParser) id (B.pick b).1 x
      (ascii "192.0.2.1") postHead postBody
      (B.handleConnection Httparse.grammarParser id x b).1.events ∧
    ¬ Delivered (C.buildForwardedRequest Httparse.grammarParser) id (c.nextHealthy .checked).1 x
      (ascii "192.0.2.1") postHead postBody
      (C.handleConnection .checked Httparse.grammarParser id .succeeded x c).1.events := by
  intro x b c
  have hends : ¬ EndsRead x.client.segments postHead.length := by
    rintro (h | ⟨k, hk⟩)
    · revert h
      decide
    · cases k with
      | zero => cases hk
      | succ k =>
        have : (x.client.segments.take (k + 1)).flatten.length = 21 := by
          simp only [x, exchange, List.take_succ_cons, List.take_nil]
          decide
        rw [this] at hk
        cases hk
  have hip : x.clientIp = some (ascii "192.0.2.1") := rfl
  refine ⟨⟨rfl, postHead_firstEnd, by decide, ⟨_, _, postHead_accepted⟩, fun _ => rfl, rfl,
    by decide⟩, ?_, ?_⟩
  · rw [B.handleConnection_eq hip]
    exact (handleRequest_delivered Httparse.grammarParser_conforms _ _ rfl postHead_firstEnd
      (by decide) postHead_accepted rfl rfl rfl (by decide)).not.2 hends
  · rw [C.handleConnection_eq hip]
    exact (handleRequest_delivered Httparse.grammarParser_conforms _ _ rfl postHead_firstEnd
      (by decide) postHead_accepted rfl rfl rfl (by decide)).not.2 hends

end ReverseProxy
