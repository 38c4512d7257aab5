import ReverseProxy.Connection
import ReverseProxy.HyperHeaders

namespace ReverseProxy.D
open Clients HttpHead Net
set_option autoImplicit true

/-- A response with its fields in order; an empty body is none. -/
structure Response (R : Type) where
  status : Nat
  fields : List (Bytes × Bytes)
  body : Option R
deriving DecidableEq, Repr

def errorResponse (status : Nat) : Response R :=
  ⟨status, [(ascii "content-length", ascii "0"), (ascii "connection", ascii "close")], none⟩

/-- What `send_request` comes to; no timeout ends its wait for an upstream that is silent. -/
inductive Answer (R : Type)
  | response (r : Response R)
  | failed
  | silent

/-- A request, and what it meets outside the proxy. -/
structure Asked (M U X B R : Type) where
  conn : Nat
  clientIp : Bytes
  request : Request M U X B
  requestId : Bytes
  connect : SocketAddr → Attempt
  handshake : Bool
  send : Request M U X B → Answer R

structure Seen (M U X B R : Type) where
  connected : Option SocketAddr
  forwarded : Option (Request M U X B)
  result : Option (Except Panic (Response R))

def handleAnswered (crate : HttpCrate M U) (x : Asked M U X B R) :
    Except Panic (Option SocketAddr) → Seen M U X B R
  | .error p => ⟨none, none, some (.error p)⟩
  | .ok none => ⟨none, none, some (.ok (errorResponse 503))⟩
  | .ok (some addr) =>
    match buildForwardedRequest crate x.request addr x.clientIp x.requestId with
    | .error _ => ⟨none, none, some (.ok (errorResponse 502))⟩
    | .ok fwd =>
      match x.connect addr with
      | .failed | .timedOut => ⟨some addr, none, some (.ok (errorResponse 502))⟩
      | .succeeded =>
        if x.handshake then
          match x.send fwd with
          | .response response => ⟨some addr, some fwd, some (.ok response)⟩
          | .failed => ⟨some addr, some fwd, some (.ok (errorResponse 502))⟩
          | .silent => ⟨some addr, some fwd, none⟩
        else ⟨some addr, none, some (.ok (errorResponse 502))⟩

def handle (crate : HttpCrate M U) (pick : S → Except Panic (Option SocketAddr) × S)
    (x : Asked M U X B R) (s : S) : Seen M U X B R × S :=
  (handleAnswered crate x (pick s).1, (pick s).2)

/-- Where a request stands with the balancer's answer, at each of its awaits. -/
inductive Handling (M U X B R : Type)
  | connecting (addr : SocketAddr) (fwd : Request M U X B)
  | shaking (addr : SocketAddr) (fwd : Request M U X B)
  | sending (addr : SocketAddr) (fwd : Request M U X B)
  | finished (seen : Seen M U X B R)

def Handling.start (crate : HttpCrate M U) (x : Asked M U X B R) :
    Except Panic (Option SocketAddr) → Handling M U X B R
  | .error p => .finished ⟨none, none, some (.error p)⟩
  | .ok none => .finished ⟨none, none, some (.ok (errorResponse 503))⟩
  | .ok (some addr) =>
    match buildForwardedRequest crate x.request addr x.clientIp x.requestId with
    | .error _ => .finished ⟨none, none, some (.ok (errorResponse 502))⟩
    | .ok fwd => .connecting addr fwd

def Handling.step (x : Asked M U X B R) : Handling M U X B R → Option (Handling M U X B R)
  | .connecting addr fwd =>
    match x.connect addr with
    | .failed | .timedOut => some (.finished ⟨some addr, none, some (.ok (errorResponse 502))⟩)
    | .succeeded => some (.shaking addr fwd)
  | .shaking addr fwd =>
    if x.handshake then some (.sending addr fwd)
    else some (.finished ⟨some addr, none, some (.ok (errorResponse 502))⟩)
  | .sending addr fwd =>
    match x.send fwd with
    | .response response => some (.finished ⟨some addr, some fwd, some (.ok response)⟩)
    | .failed => some (.finished ⟨some addr, some fwd, some (.ok (errorResponse 502))⟩)
    | .silent => none
  | .finished _ => none

/-- `ProxyService::call` in its steps; nothing comes before the call of the balancer. -/
def service (crate : HttpCrate M U) (answer : Y → Option (Except Panic (Option SocketAddr))) :
    Machine (Asked M U X B R) Unit Unit (Handling M U X B R) Y Unit where
  start _ := ()
  before _ _ _ := none
  ask _ _ := some ()
  resume x _ y := (answer y).map (Handling.start crate x)
  after x b _ := b.step x

def Handling.seen : Handling M U X B R → Seen M U X B R
  | .connecting addr _ | .shaking addr _ => ⟨some addr, none, none⟩
  | .sending addr fwd => ⟨some addr, some fwd, none⟩
  | .finished seen => seen

abbrev Turn (M U X B R : Type) := Place Unit Unit (Handling M U X B R)

def Turn.seen : Turn M U X B R → Seen M U X B R
  | .before _ | .calling _ _ => ⟨none, none, none⟩
  | .after _ b => b.seen

def Asked.sending (x : Asked M U X B R) (addr : SocketAddr) (fwd : Request M U X B) :
    Seen M U X B R :=
  match x.send fwd with
  | .response response => ⟨some addr, some fwd, some (.ok response)⟩
  | .failed => ⟨some addr, some fwd, some (.ok (errorResponse 502))⟩
  | .silent => ⟨some addr, some fwd, none⟩

def Asked.shaking (x : Asked M U X B R) (addr : SocketAddr) (fwd : Request M U X B) :
    Seen M U X B R :=
  if x.handshake then x.sending addr fwd
  else ⟨some addr, none, some (.ok (errorResponse 502))⟩

def Asked.connecting (x : Asked M U X B R) (addr : SocketAddr) (fwd : Request M U X B) :
    Seen M U X B R :=
  match x.connect addr with
  | .failed | .timedOut => ⟨some addr, none, some (.ok (errorResponse 502))⟩
  | .succeeded => x.shaking addr fwd

def Handling.finish (x : Asked M U X B R) : Handling M U X B R → Seen M U X B R
  | .connecting addr fwd => x.connecting addr fwd
  | .shaking addr fwd => x.shaking addr fwd
  | .sending addr fwd => x.sending addr fwd
  | .finished seen => seen

/-- What has come of a request so far is a part of what comes of it in the end, and all of it once
there is a result. -/
structure Seen.Le (s t : Seen M U X B R) : Prop where
  connected : s.connected = none ∨ s.connected = t.connected
  forwarded : s.forwarded = none ∨ s.forwarded = t.forwarded
  result : s.result = none ∨ s = t

variable {M U X B R Y : Type} {crate : HttpCrate M U} {x : Asked M U X B R}

theorem Seen.Le.refl (s : Seen M U X B R) : s.Le s := ⟨.inr rfl, .inr rfl, .inr rfl⟩

theorem step_finish {b b' : Handling M U X B R} (h : b.step x = some b') :
    b'.finish x = b.finish x := by
  cases b with
  | connecting addr fwd =>
    simp only [Handling.step] at h
    simp only [Handling.finish, Asked.connecting]
    cases hc : x.connect addr with
    | succeeded =>
      rw [hc] at h
      cases h
      rfl
    | failed =>
      rw [hc] at h
      cases h
      rfl
    | timedOut =>
      rw [hc] at h
      cases h
      rfl
  | shaking addr fwd =>
    simp only [Handling.step] at h
    simp only [Handling.finish, Asked.shaking]
    split at h
    · next hs =>
      cases h
      rw [if_pos hs]
    · next hs =>
      cases h
      rw [if_neg hs]
  | sending addr fwd =>
    simp only [Handling.step] at h
    split at h
    · next hs =>
      cases h
      simp only [Handling.finish, Asked.sending, hs]
    · next hs =>
      cases h
      simp only [Handling.finish, Asked.sending, hs]
    · cases h
  | finished seen => cases h

theorem start_finish (r : Except Panic (Option SocketAddr)) :
    (Handling.start crate x r).finish x = handleAnswered crate x r := by
  rcases r with p | _ | addr
  · rfl
  · rfl
  · simp only [Handling.start, handleAnswered]
    cases buildForwardedRequest crate x.request addr x.clientIp x.requestId with
    | error e => rfl
    | ok fwd => rfl

theorem sending_connected (addr : SocketAddr) (fwd : Request M U X B) :
    (x.sending addr fwd).connected = some addr ∧ (x.sending addr fwd).forwarded = some fwd := by
  rw [Asked.sending]
  cases x.send fwd <;> exact ⟨rfl, rfl⟩

theorem shaking_connected (addr : SocketAddr) (fwd : Request M U X B) :
    (x.shaking addr fwd).connected = some addr := by
  rw [Asked.shaking]
  split
  · exact (sending_connected addr fwd).1
  · rfl

theorem seen_le (b : Handling M U X B R) : b.seen.Le (b.finish x) := by
  cases b with
  | connecting addr fwd =>
    refine ⟨.inr ?_, .inl rfl, .inl rfl⟩
    simp only [Handling.seen, Handling.finish, Asked.connecting]
    cases x.connect addr with
    | succeeded => exact (shaking_connected addr fwd).symm
    | failed => rfl
    | timedOut => rfl
  | shaking addr fwd => exact ⟨.inr (shaking_connected addr fwd).symm, .inl rfl, .inl rfl⟩
  | sending addr fwd =>
    obtain ⟨hconn, hfwd⟩ := sending_connected (x := x) addr fwd
    exact ⟨.inr hconn.symm, .inr hfwd.symm, .inl rfl⟩
  | finished seen => exact Seen.Le.refl seen

theorem service_keeps {w : Nat} {Mem E : Type}
    {answer : Y → Option (Except Panic (Option SocketAddr))} {o : Tickets.Object w Mem Y E}
    (hended : ∀ y r, answer y = some r → ∀ mem, o.act mem y = none) :
    (service crate answer : Machine (Asked M U X B R) Unit Unit _ Y Unit).Keeps o
      (fun _ _ => True) (fun _ _ => True)
      (fun x y b => ∃ r, answer y = some r ∧ b.finish x = handleAnswered crate x r) where
  start _ := trivial
  before _ _ _ _ _ h := nomatch h
  ask _ _ _ _ _ := trivial
  ended x k y b hb := by
    obtain ⟨r, hr, _⟩ := Option.map_eq_some_iff.1 hb
    exact hended y r hr
  resume x k y b _ hb := by
    obtain ⟨r, hr, rfl⟩ := Option.map_eq_some_iff.1 hb
    exact ⟨r, hr, start_finish r⟩
  after x y b l b' h hb := by
    obtain ⟨r, hr, hfin⟩ := h
    exact ⟨r, hr, (step_finish hb).trans hfin⟩

/-- A request that is sent on carries the fields of its own connection, whatever the client put
there: its client's address, its own id and the upstream it goes to. -/
theorem handleAnswered_forwarded (hc : crate.MapConforms)
    {r : Except Panic (Option SocketAddr)}
    (h : (handleAnswered crate x r).forwarded = some fwd) :
    ∃ addr, r = .ok (some addr) ∧ (handleAnswered crate x r).connected = some addr ∧
      Rewritten crate x.request addr.display x.clientIp x.requestId fwd := by
  rcases r with p | _ | addr
  · cases h
  · cases h
  · cases hb : buildForwardedRequest crate x.request addr x.clientIp x.requestId with
    | error e =>
      simp only [handleAnswered, hb] at h
      cases h
    | ok fwd' =>
      have hfin : handleAnswered crate x (.ok (some addr)) = x.connecting addr fwd' := by
        simp only [handleAnswered, hb]
        rfl
      have hrewritten : Rewritten crate x.request addr.display x.clientIp x.requestId fwd' := by
        obtain ⟨uri, host, ip, rid, _, hhost, hip, hrid, rfl⟩ := build_eq_ok hb
        rw [hc.unchanged _ _ hhost, hc.unchanged _ _ hip, hc.unchanged _ _ hrid]
        exact rewritten_of_build hc uri _ _ _
      rw [hfin] at h ⊢
      simp only [Asked.connecting] at h ⊢
      cases hconn : x.connect addr with
      | succeeded =>
        simp only [hconn] at h ⊢
        rw [Asked.shaking] at h ⊢
        split at h
        · next hs =>
          rw [(sending_connected addr fwd').2] at h
          cases h
          rw [if_pos hs]
          exact ⟨addr, rfl, (sending_connected addr fwd).1, hrewritten⟩
        · cases h
      | failed =>
        simp only [hconn] at h
        cases h
      | timedOut =>
        simp only [hconn] at h
        cases h

end ReverseProxy.D
