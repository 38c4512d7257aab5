import ReverseProxy.Proxy

namespace ReverseProxy
open HttpHead Segments Usize
set_option autoImplicit true

def handleAll (handle : X → S → Handled Addr × S) : List X → S → List (Handled Addr) × S
  | [], s => ([], s)
  | x :: xs, s =>
    let (h, s) := handle x s
    let (hs, s) := handleAll handle xs s
    (h :: hs, s)

def connectedTo (h : Handled Addr) : Option Addr :=
  h.events.findSome? (fun
    | .connect addr => some addr
    | .respond _ _ | .forward _ | .relay _ => none)

def headRead (x : Exchange Addr) : Bool :=
  match readUntilHeadersEnd x.client headerBufSize with
  | .found _ _ _ => true
  | .failed _ | .waiting | .unfinished => false

def B.ready (x : Exchange Addr) : Bool := x.clientIp.isSome && headRead x

def C.ready (p : Attempt × Exchange Addr) : Bool :=
  p.2.clientIp.isSome && (p.1 == .succeeded) && headRead p.2

section

variable {Addr S X : Type} {build : Build} {display : Addr → Bytes}
  {pick : S → Except Panic (Option Addr) × S} {x : Exchange Addr} {clientIp : Bytes} {s s' : S}

theorem handleAll_tickets (handle : X → S → Handled Addr × S) (ready : X → Bool)
    (state : Nat → S)
    (hstep : ∀ x t, (handle x (state t)).2 = state (t + if ready x then 1 else 0)) (xs : List X)
    (t : Nat) :
    (∀ i x, xs[i]? = some x → (handleAll handle xs (state t)).1[i]? =
      some (handle x (state (t + (xs.take i).countP ready))).1) ∧
    (handleAll handle xs (state t)).2 = state (t + xs.countP ready) := by
  induction xs generalizing t with
  | nil => exact ⟨nofun, rfl⟩
  | cons y ys ih =>
    obtain ⟨ih₁, ih₂⟩ := ih (t + if ready y then 1 else 0)
    have hall : handleAll handle (y :: ys) (state t) =
        ((handle y (state t)).1 ::
          (handleAll handle ys (state (t + if ready y then 1 else 0))).1,
          (handleAll handle ys (state (t + if ready y then 1 else 0))).2) := by
      rw [← hstep]
      rfl
    rw [hall]
    constructor
    · intro i x hi
      cases i with
      | zero =>
        cases hi
        rfl
      | succ i =>
        have := ih₁ i x hi
        simp only [List.getElem?_cons_succ, List.take_succ_cons, List.countP_cons, this]
        rw [Nat.add_assoc, Nat.add_comm (if ready y then 1 else 0)]
    · rw [ih₂, List.countP_cons, Nat.add_assoc, Nat.add_comm (if ready y then 1 else 0)]

/-- A connection whose head was read is rejected without a connection, or goes to `addr`. -/
def RejectedOrSent (build : Build) (display : Addr → Bytes) (x : Exchange Addr) (addr : Addr)
    (h : Handled Addr) : Prop :=
  ∃ clientIp len buf rest, x.clientIp = some clientIp ∧
    readUntilHeadersEnd x.client headerBufSize = .found len buf rest ∧
    (((∃ e, build buf len clientIp (display addr) x.requestId = .error e) ∧
        h = x.answer [] response400) ∨
      (∃ r, build buf len clientIp (display addr) x.requestId = .ok r) ∧
        connectedTo h = some addr)

theorem forward_rejectedOrSent (hip : x.clientIp = some clientIp)
    (hread : readUntilHeadersEnd x.client headerBufSize = .found len buf rest) (addr : Addr) :
    RejectedOrSent build display x addr (forward build display x clientIp len buf rest addr) := by
  refine ⟨clientIp, len, buf, rest, hip, hread, ?_⟩
  cases hb : build buf len clientIp (display addr) x.requestId with
  | error e =>
    refine .inl ⟨⟨e, rfl⟩, ?_⟩
    simp only [forward, hb]
  | ok result =>
    obtain ⟨out, method, path⟩ := result
    refine .inr ⟨⟨_, rfl⟩, ?_⟩
    simp only [forward, hb]
    cases hc : x.connect addr with
    | failed => rfl
    | timedOut => rfl
    | succeeded => cases hh : x.headWrite <;> rfl

theorem handleRequest_ticket (hip : x.clientIp = some clientIp)
    (hpick : pick s = (.ok (some addr), s')) :
    (handleRequest build display pick x clientIp s).2 = (if headRead x then s' else s) ∧
      (headRead x = true → RejectedOrSent build display x addr
        (handleRequest build display pick x clientIp s).1) := by
  cases hread : readUntilHeadersEnd x.client headerBufSize with
  | found len buf rest =>
    rw [handleRequest_found hread hpick]
    simp only [headRead, hread, if_true]
    exact ⟨trivial, fun _ => forward_rejectedOrSent hip hread addr⟩
  | failed message => simp [handleRequest, headRead, hread]
  | waiting => simp [handleRequest, headRead, hread]
  | unfinished => simp [handleRequest, headRead, hread]

theorem ticket_unready {state : Nat → S} {ready : Bool} {P : Prop} (hr : ready = false)
    (hs : s = state t) : s = state (t + if ready then 1 else 0) ∧ (ready = true → P) := by
  rw [hr]
  refine ⟨hs, ?_⟩
  intro h
  cases h

/-- The `c`-th connection whose head is read, counting those answered with 400, is rejected or goes
to the upstream of ticket `c`; a ticket is all that each of them draws. -/
structure Rotates (build : Build) (display : Addr → Bytes) (w : Nat) (upstreams : List Addr)
    (ready : X → Bool) (exchange : X → Exchange Addr) (state : Nat → S) (xs : List X)
    (result : List (Handled Addr) × S) : Prop where
  state : result.2 = state (xs.countP ready)
  sent : ∀ i x, xs[i]? = some x → ready x = true → ∃ addr h,
    upstreams[(xs.take i).countP ready % 2 ^ w % upstreams.length]? = some addr ∧
    result.1[i]? = some h ∧ RejectedOrSent build display (exchange x) addr h

theorem handleAll_rotates {handle : X → S → Handled Addr × S} {ready : X → Bool} {state : Nat → S}
    {upstreams : List Addr} {exchange : X → Exchange Addr}
    (hticket : ∀ x t, (handle x (state t)).2 = state (t + if ready x then 1 else 0) ∧
      (ready x = true → ∃ addr, upstreams[t % 2 ^ w % upstreams.length]? = some addr ∧
        RejectedOrSent build display (exchange x) addr (handle x (state t)).1)) (xs : List X) :
    Rotates build display w upstreams ready exchange state xs (handleAll handle xs (state 0)) := by
  obtain ⟨hres, hstate⟩ := handleAll_tickets handle ready state (fun x t => (hticket x t).1) xs 0
  rw [Nat.zero_add] at hstate
  refine ⟨hstate, fun i x hi hr => ?_⟩
  obtain ⟨addr, ha, hsent⟩ := (hticket x ((xs.take i).countP ready)).2 hr
  have := hres i x hi
  rw [Nat.zero_add] at this
  exact ⟨addr, _, ha, this, hsent⟩

end

variable {Addr : Type} {display : Addr → Bytes} {upstreams : List Addr}

namespace B

def after (w : Nat) (upstreams : List Addr) (t : Nat) : Balancer w Addr :=
  ⟨upstreams, BitVec.ofNat w t⟩

theorem pick_after (hn : upstreams ≠ []) (w t : Nat) :
    ∃ addr, upstreams[t % 2 ^ w % upstreams.length]? = some addr ∧
      pick (after w upstreams t) = (.ok (some addr), after w upstreams (t + 1)) := by
  obtain ⟨addr, ha, hp⟩ := pick_eq (b := after w upstreams t) hn
  refine ⟨addr, ?_, hp.trans ?_⟩
  · rwa [after, BitVec.toNat_ofNat] at ha
  · rw [after, after, BitVec.ofNat_add]
    rfl

theorem handleConnection_ticket {parse : Httparse.Parser} (hn : upstreams ≠ [])
    (x : Exchange Addr) (t : Nat) :
    (handleConnection parse display x (after w upstreams t)).2 =
      after w upstreams (t + if ready x then 1 else 0) ∧
    (ready x = true → ∃ addr, upstreams[t % 2 ^ w % upstreams.length]? = some addr ∧
      RejectedOrSent (buildForwardedRequest parse) display x addr
        (handleConnection parse display x (after w upstreams t)).1) := by
  obtain ⟨addr, ha, hpick⟩ := pick_after hn w t
  cases hip : x.clientIp with
  | none =>
    apply ticket_unready
    · simp [ready, hip]
    · rw [handleConnection, hip]
  | some clientIp =>
    have hr : ready x = headRead x := by simp [ready, hip]
    rw [handleConnection_eq hip, hr]
    obtain ⟨hs, hh⟩ := handleRequest_ticket hip hpick
    rw [hs]
    refine ⟨?_, fun h => ⟨addr, ha, hh h⟩⟩
    cases headRead x <;> rfl

end B

namespace C

def after (w : Nat) (upstreams : List Addr) (t : Nat) : Balancer w Addr :=
  ⟨upstreams, List.replicate upstreams.length true, BitVec.ofNat w t⟩

theorem nextHealthy_after (hn : upstreams ≠ []) (m : Overflow) (w t : Nat) :
    ∃ addr, upstreams[t % 2 ^ w % upstreams.length]? = some addr ∧
      (after w upstreams t).nextHealthy m = (.ok (some addr), after w upstreams (t + 1)) := by
  have hlt := Nat.mod_lt (BitVec.ofNat w t).toNat (List.length_pos_iff.2 hn)
  have hup : up (List.replicate upstreams.length true)
      ((BitVec.ofNat w t).toNat % upstreams.length) = true := by
    rw [up, List.getD_eq_getElem _ _ (by rwa [List.length_replicate]), List.getElem_replicate]
  obtain ⟨addr, ha, hc⟩ := choose_first (m := m) List.length_replicate hn hup
  rw [BitVec.toNat_ofNat] at ha
  refine ⟨addr, ha, ?_⟩
  rw [Balancer.nextHealthy, after, hc, after, BitVec.ofNat_add]
  rfl

theorem handleConnection_ticket {parse : Httparse.Parser} (hn : upstreams ≠ []) (m : Overflow)
    (p : Attempt × Exchange Addr) (t : Nat) :
    (handleConnection m parse display p.1 p.2 (after w upstreams t)).2 =
      after w upstreams (t + if ready p then 1 else 0) ∧
    (ready p = true → ∃ addr, upstreams[t % 2 ^ w % upstreams.length]? = some addr ∧
      RejectedOrSent (buildForwardedRequest parse) display p.2 addr
        (handleConnection m parse display p.1 p.2 (after w upstreams t)).1) := by
  obtain ⟨addr, ha, hpick⟩ := nextHealthy_after hn m w t
  obtain ⟨handshake, x⟩ := p
  cases hip : x.clientIp with
  | none =>
    apply ticket_unready
    · simp [ready, hip]
    · simp only [handleConnection, hip]
  | some clientIp =>
    cases handshake with
    | succeeded =>
      have hr : ready (.succeeded, x) = headRead x := by simp [ready, hip]
      simp only [handleConnection_eq hip, hr]
      obtain ⟨hs, hh⟩ := handleRequest_ticket hip hpick
      rw [hs]
      refine ⟨?_, fun h => ⟨addr, ha, hh h⟩⟩
      cases headRead x <;> rfl
    | failed =>
      apply ticket_unready
      · simp [ready]
      · simp only [handleConnection, hip]
    | timedOut =>
      apply ticket_unready
      · simp [ready]
      · simp only [handleConnection, hip]

end C

/-- Any mixture of connections, served one after another by a fresh balancer with every flag up,
takes its upstreams in rotation, rejected requests included. -/
theorem handleConnection_rotates (parse : Httparse.Parser) (display : Addr → Bytes) (m : Overflow)
    (w : Nat) (upstreams : List Addr) (hn : upstreams ≠ []) (xs : List (Exchange Addr))
    (ps : List (Attempt × Exchange Addr)) :
    Rotates (B.buildForwardedRequest parse) display w upstreams B.ready id (B.after w upstreams) xs
      (handleAll (B.handleConnection parse display) xs (.new upstreams)) ∧
    Rotates (C.buildForwardedRequest parse) display w upstreams C.ready Prod.snd
      (C.after w upstreams) ps
      (handleAll (fun p => C.handleConnection m parse display p.1 p.2) ps
        (.new upstreams (List.replicate upstreams.length true))) :=
  ⟨handleAll_rotates (fun x t => B.handleConnection_ticket hn x t) xs,
    handleAll_rotates (fun p t => C.handleConnection_ticket hn m p t) ps⟩

def malformed : Exchange Bytes := exchange [ascii "GARBAGE\r\n\r\n"] (by decide) []

def wellFormed : Exchange Bytes := exchange [ascii "GET / HTTP/1.1\r\n\r\n"] (by decide) []

def twoHosts : List Bytes := [ascii "192.0.2.7:80", ascii "192.0.2.8:80"]

theorem handleConnection_rotates_malformed :
    Rotates (B.buildForwardedRequest Httparse.grammarParser) id 64 twoHosts B.ready id
      (B.after 64 twoHosts) [malformed, wellFormed]
      (handleAll (B.handleConnection Httparse.grammarParser id) [malformed, wellFormed]
        (.new twoHosts)) :=
  (handleConnection_rotates Httparse.grammarParser id .checked 64 twoHosts (by decide)
    [malformed, wellFormed] []).1

/-- The only request that is forwarded goes to the second upstream: the malformed one before it
has used up the turn of the first. -/
theorem handleConnection_skips_turn :
    (¬ ∀ (upstreams : List Bytes) (xs : List (Exchange Bytes)), upstreams ≠ [] →
      (∀ x ∈ xs, B.ready x = true) → ∀ j addr,
        ((handleAll (B.handleConnection Httparse.grammarParser id) xs
          (.new upstreams : B.Balancer 64 Bytes)).1.filterMap connectedTo)[j]? = some addr →
        upstreams[j % upstreams.length]? = some addr) ∧
    (¬ ∀ (upstreams : List Bytes) (ps : List (Attempt × Exchange Bytes)), upstreams ≠ [] →
      (∀ p ∈ ps, C.ready p = true) → ∀ j addr,
        ((handleAll (fun p => C.handleConnection .checked Httparse.grammarParser id p.1 p.2) ps
          (.new upstreams (List.replicate upstreams.length true) :
            C.Balancer 64 Bytes)).1.filterMap connectedTo)[j]? = some addr →
        upstreams[j % upstreams.length]? = some addr) := by
  constructor
  · intro h
    have := h twoHosts [malformed, wellFormed] (by decide) (by decide) 0
      (ascii "192.0.2.8:80") rfl
    revert this
    decide
  · intro h
    have := h twoHosts [(.succeeded, malformed), (.succeeded, wellFormed)] (by decide) (by decide) 0
      (ascii "192.0.2.8:80") rfl
    revert this
    decide

end ReverseProxy
