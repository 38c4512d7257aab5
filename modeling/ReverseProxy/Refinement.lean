import ReverseProxy.Connection

namespace ReverseProxy
open Clients HttpHead Runs Segments Usize
set_option autoImplicit true

structure Sent.Le (s t : Sent Addr) : Prop where
  connected : s.connected = none ∨ s.connected = t.connected
  upstream : s.upstream <+: t.upstream
  client : s.client <+: t.client

theorem Sent.Le.refl (s : Sent Addr) : s.Le s :=
  ⟨.inr rfl, List.prefix_rfl, List.prefix_rfl⟩

def finishHead (x : Exchange Addr) (addr : Addr) (rewritten : Bytes) (rest : Stream UInt8) :
    Outcome Addr :=
  match x.headWrite with
  | .failed k => ⟨.failed "failed to write headers to upstream", some addr, rewritten.take k, []⟩
  | .done =>
    ⟨.returned, some addr, rewritten ++ rest.contents.take x.transfer.forwarded,
      x.transfer.relayed⟩

def After.finish (x : Exchange Addr) : After Addr → Outcome Addr
  | .answering connected response _ => ⟨.returned, connected, [], x.clientWrite.sent response⟩
  | .connecting addr rewritten rest =>
    match x.connect addr with
    | .failed | .timedOut => ⟨.returned, some addr, [], x.clientWrite.sent response502⟩
    | .succeeded => finishHead x addr rewritten rest
  | .sendingHead addr rewritten rest _ => finishHead x addr rewritten rest
  | .copying addr rewritten rest _ _ =>
    ⟨.returned, some addr, rewritten ++ rest.contents.take x.transfer.forwarded,
      x.transfer.relayed⟩
  | .finished outcome => outcome

def After.Within (x : Exchange Addr) : After Addr → Prop
  | .answering _ response sent => sent ≤ (x.clientWrite.sent response).length
  | .connecting _ _ _ => True
  | .finished outcome => outcome.ended ≠ .reading
  | .sendingHead _ rewritten _ sent => sent ≤ (x.headWrite.sent rewritten).length
  | .copying _ _ rest up down =>
    up ≤ min x.transfer.forwarded rest.contents.length ∧ down ≤ x.transfer.relayed.length

variable {Addr D S X : Type} {x : Exchange Addr}

theorem push_eq_some (h : push limit moved k = some moved') : moved' ≤ limit := by
  unfold push at h
  split at h
  · next hk =>
    cases h
    exact hk.2
  · cases h

theorem Write.sent_prefix (v : Write) (bs : Bytes) : v.sent bs <+: bs := by
  cases v with
  | done => exact List.prefix_rfl
  | failed k => exact List.take_prefix k bs

theorem Write.take_sent (v : Write) (bs : Bytes) : bs.take (v.sent bs).length = v.sent bs :=
  (List.prefix_iff_eq_take.1 (v.sent_prefix bs)).symm

theorem Write.take_prefix (v : Write) {bs : Bytes} (h : k ≤ (v.sent bs).length) :
    bs.take k <+: v.sent bs := by
  rw [← v.take_sent bs]
  exact List.take_prefix_take_left h

theorem take_min_length (k : Nat) (bs : Bytes) : bs.take (min k bs.length) = bs.take k :=
  List.take_eq_take_min.symm

theorem after_step {b b' : After Addr} (hw : b.Within x) (h : b.step x a = some b') :
    b'.Within x ∧ b'.finish x = b.finish x := by
  unfold After.step at h
  split at h
  · obtain ⟨sent, hsent, rfl⟩ := Option.map_eq_some_iff.1 h
    exact ⟨push_eq_some hsent, rfl⟩
  · split at h
    · next hsent =>
      cases h
      refine ⟨nofun, ?_⟩
      rw [After.finish, After.finish, hsent, Write.take_sent]
    · cases h
  · split at h
    · next hc =>
      cases h
      refine ⟨Nat.zero_le _, ?_⟩
      simp only [After.finish, hc]
    · next hc =>
      cases h
      refine ⟨Nat.zero_le _, ?_⟩
      simp only [After.finish, hc]
    · next hc =>
      cases h
      refine ⟨Nat.zero_le _, ?_⟩
      simp only [After.finish, hc]
  · obtain ⟨sent, hsent, rfl⟩ := Option.map_eq_some_iff.1 h
    exact ⟨push_eq_some hsent, rfl⟩
  · split at h
    · next hsent =>
      split at h
      · next k hk =>
        cases h
        refine ⟨nofun, ?_⟩
        rw [After.finish, After.finish, hsent, Write.take_sent, finishHead, hk]
        rfl
      · next hk =>
        cases h
        refine ⟨⟨Nat.zero_le _, Nat.zero_le _⟩, ?_⟩
        rw [After.finish, After.finish, finishHead, hk]
    · cases h
  · obtain ⟨up, hup, rfl⟩ := Option.map_eq_some_iff.1 h
    exact ⟨⟨push_eq_some hup, hw.2⟩, rfl⟩
  · obtain ⟨down, hdown, rfl⟩ := Option.map_eq_some_iff.1 h
    exact ⟨⟨hw.1, push_eq_some hdown⟩, rfl⟩
  · split at h
    · next hmoved =>
      cases h
      refine ⟨nofun, ?_⟩
      rw [After.finish, After.finish, hmoved.1, hmoved.2, take_min_length, List.take_length]
    · cases h
  · cases h

theorem After.sent_le {b : After Addr} (hw : b.Within x) : (b.sent x).Le (b.finish x).sent := by
  cases b with
  | answering connected response sent =>
    exact ⟨.inr rfl, List.prefix_rfl, x.clientWrite.take_prefix hw⟩
  | connecting addr rewritten rest =>
    have hnone : ∀ o : Outcome Addr, o.sent.connected = some addr →
        (⟨some addr, [], []⟩ : Sent Addr).Le o.sent := fun o ho =>
      ⟨.inr ho.symm, List.nil_prefix, List.nil_prefix⟩
    apply hnone
    rw [After.finish, finishHead]
    cases x.connect addr with
    | failed => rfl
    | timedOut => rfl
    | succeeded => cases x.headWrite <;> rfl
  | sendingHead addr rewritten rest sent =>
    rw [After.finish, finishHead]
    cases hv : x.headWrite with
    | failed k =>
      refine ⟨.inr rfl, ?_, List.nil_prefix⟩
      have := x.headWrite.take_prefix hw
      rwa [hv] at this
    | done =>
      have hhead : rewritten.take sent <+: rewritten := List.take_prefix _ _
      exact ⟨.inr rfl, hhead.trans (List.prefix_append _ _), List.nil_prefix⟩
  | copying addr rewritten rest up down =>
    refine ⟨.inr rfl, ?_, List.take_prefix _ _⟩
    apply (List.prefix_append_right_inj rewritten).2
    exact List.take_prefix_take_left (Nat.le_trans hw.1 (Nat.min_le_left _ _))
  | finished outcome => exact Sent.Le.refl _

/-- `handle_connection` on its own, of option B when there is no handshake. -/
def handleWith (tls : Option Attempt) (build : Build) (display : Addr → Bytes)
    (pick : S → Except Panic (Option Addr) × S) (x : Exchange Addr) (s : S) : Handled Addr × S :=
  match x.clientIp with
  | none => (⟨.failed "failed to get client address", []⟩, s)
  | some clientIp =>
    match tls with
    | some .failed | some .timedOut => (⟨.returned, []⟩, s)
    | none | some .succeeded => handleRequest build display pick x clientIp s

theorem B.handleConnection_eq_with (parse : Httparse.Parser) (display : Addr → Bytes)
    (x : Exchange Addr) (b : B.Balancer w Addr) :
    B.handleConnection parse display x b =
      handleWith none (B.buildForwardedRequest parse) display B.pick x b := rfl

theorem C.handleConnection_eq_with (m : Overflow) (parse : Httparse.Parser)
    (display : Addr → Bytes) (handshake : Attempt) (x : Exchange Addr) (b : C.Balancer w Addr) :
    C.handleConnection m parse display handshake x b =
      handleWith (some handshake) (C.buildForwardedRequest parse) display (C.Balancer.nextHealthy m)
        x b := by
  rw [C.handleConnection, handleWith]
  cases x.clientIp with
  | none => rfl
  | some clientIp => cases handshake <;> rfl

structure Admitted (tls : Option Attempt) (x : Exchange Addr) (clientIp : Bytes) : Prop where
  clientIp : x.clientIp = some clientIp
  handshake : tls = none ∨ tls = some .succeeded

theorem Admitted.handleWith_eq {build : Build} {display : Addr → Bytes} {ip : Bytes}
    (h : Admitted tls x ip) (pick : S → Except Panic (Option Addr) × S) (s : S) :
    handleWith tls build display pick x s = handleRequest build display pick x ip s := by
  rw [handleWith, h.clientIp]
  rcases h.handshake with rfl | rfl <;> rfl

def readyWith (tls : Option Attempt) (x : Exchange Addr) : Bool :=
  x.clientIp.isSome && (tls == none || tls == some .succeeded) && headRead x

theorem Admitted.ready {ip : Bytes} (h : Admitted tls x ip)
    (hread : readUntilHeadersEnd x.client headerBufSize = .found len buf rest) :
    readyWith tls x = true := by
  simp only [readyWith, headRead, h.clientIp, hread, Option.isSome_some, Bool.true_and,
    Bool.and_true, Bool.or_eq_true, beq_iff_eq]
  exact h.handshake

theorem handleWith_ticket {build : Build} {display : Addr → Bytes}
    {pick : S → Except Panic (Option Addr) × S} {state : Nat → S}
    (hpick : ∀ t, (pick (state t)).2 = state (t + 1)) (tls : Option Attempt) (x : Exchange Addr)
    (t : Nat) : (handleWith tls build display pick x (state t)).2 =
      state (t + if readyWith tls x then 1 else 0) := by
  cases hip : x.clientIp with
  | none => simp [handleWith, readyWith, hip]
  | some clientIp =>
    have hrequest : (handleRequest build display pick x clientIp (state t)).2 =
        state (t + if headRead x then 1 else 0) := by
      cases hread : readUntilHeadersEnd x.client headerBufSize with
      | found len buf rest =>
        simp only [handleRequest, headRead, hread, if_true, ← hpick t]
        rcases pick (state t) with ⟨_ | _ | _, s⟩ <;> rfl
      | failed message => simp [handleRequest, headRead, hread]
      | waiting => simp [handleRequest, headRead, hread]
      | unfinished => simp [handleRequest, headRead, hread]
    rcases tls with _ | _ | _ | _
    · simp [handleWith, readyWith, hip, hrequest]
    · simp [handleWith, readyWith, hip, hrequest]
    · simp [handleWith, readyWith, hip]
    · simp [handleWith, readyWith, hip]

/-- What holds of a connection that has not turned to the balancer; one that is over has come to
what it would with any balancer. -/
def Before.Inv (build : Build) (display : Addr → Bytes) (tls : Option Attempt) (x : Exchange Addr) :
    Before → Prop
  | .accepted => True
  | .handshaking clientIp handshake => x.clientIp = some clientIp ∧ tls = some handshake
  | .reading clientIp buf client => Admitted tls x clientIp ∧
      ∃ reads, headerBufSize ≤ buf.length + reads ∧
        readUntilHeadersEnd x.client headerBufSize = readLoop headerBufSize reads buf client
  | .refusing sent => sent ≤ (x.clientWrite.sent response431).length ∧
      ∃ clientIp message, Admitted tls x clientIp ∧
        readUntilHeadersEnd x.client headerBufSize = .failed message
  | .headRead clientIp len buf rest => Admitted tls x clientIp ∧
      readUntilHeadersEnd x.client headerBufSize = .found len buf rest
  | .finished ended client => ended ≠ .reading ∧
      ∀ (S : Type) (pick : S → Except Panic (Option Addr) × S) (s : S),
        (handleWith tls build display pick x s).1.outcome = ⟨ended, none, [], client⟩ ∧
          (handleWith tls build display pick x s).2 = s

theorem handleRequest_failed {build : Build} {display : Addr → Bytes}
    (hread : readUntilHeadersEnd x.client headerBufSize = .failed message)
    (pick : S → Except Panic (Option Addr) × S) (s : S) :
    handleRequest build display pick x clientIp s = (x.answer [] response431, s) := by
  simp only [handleRequest, hread]

theorem answer_outcome (x : Exchange Addr) (response : Bytes) :
    (x.answer [] response).outcome = ⟨.returned, none, [], x.clientWrite.sent response⟩ := by
  simp [Handled.outcome, Exchange.answer, connectedTo, sentUpstream, sentClient]

theorem takes_of_read {client : Stream UInt8} (hbuf : buf.length < size)
    (hread : client.read (size - buf.length) = .data xs rest) : Takes size buf client xs rest := by
  obtain ⟨segs, hne, e⟩ := client
  cases segs with
  | nil => cases hread
  | cons seg segs =>
    obtain ⟨rest', ht⟩ := takes_cons hbuf seg segs hne e
    obtain ⟨rfl, rfl⟩ := Read.data.inj (hread.symm.trans ht.read)
    exact ht

theorem reading_inv {build : Build} {display : Addr → Bytes} {a : Before}
    (h : (Before.reading clientIp buf client).Inv build display tls x)
    (hstep : (Before.reading clientIp buf client).step tls x .go = some a) :
    a.Inv build display tls x := by
  obtain ⟨hadm, reads, hreads, hloop⟩ := h
  simp only [Before.step] at hstep
  split at hstep
  · next hfull =>
    cases hstep
    rw [readLoop_full hfull] at hloop
    exact ⟨Nat.zero_le _, _, _, hadm, hloop⟩
  · next hroom =>
    obtain ⟨n, rfl⟩ : ∃ n, reads = n + 1 := ⟨reads - 1, by omega⟩
    have hlt := Nat.lt_of_not_le hroom
    split at hstep
    · next hread =>
      cases hstep
      rw [readLoop_stopped hlt hread] at hloop
      exact ⟨Nat.zero_le _, _, _, hadm, hloop⟩
    · next hread =>
      cases hstep
      rw [readLoop_stopped hlt hread] at hloop
      exact ⟨Nat.zero_le _, _, _, hadm, hloop⟩
    · cases hstep
    · next xs rest hread =>
      rw [readLoop_data hlt hread] at hloop
      split at hstep
      · next len hfind =>
        cases hstep
        rw [hfind] at hloop
        exact ⟨hadm, hloop⟩
      · next hfind =>
        cases hstep
        rw [hfind] at hloop
        have hpos := (takes_of_read hlt hread).nonempty
        refine ⟨hadm, n, ?_, hloop⟩
        rw [List.length_append]
        omega

theorem before_inv {build : Build} {display : Addr → Bytes} {a a' : Before}
    (h : a.Inv build display tls x) (hstep : a.step tls x v = some a') :
    a'.Inv build display tls x := by
  unfold Before.step at hstep
  split at hstep
  · split at hstep
    · next hip =>
      cases hstep
      refine ⟨nofun, fun S pick s => ?_⟩
      rw [handleWith, hip]
      exact ⟨rfl, rfl⟩
    · next ip hip =>
      split at hstep
      · cases hstep
        exact ⟨⟨hip, .inl rfl⟩, headerBufSize, Nat.le_add_left _ _, rfl⟩
      · cases hstep
        exact ⟨hip, rfl⟩
  · cases hstep
    exact ⟨⟨h.1, .inr h.2⟩, headerBufSize, Nat.le_add_left _ _, rfl⟩
  · cases hstep
    refine ⟨nofun, fun S pick s => ?_⟩
    rw [handleWith, h.1, h.2]
    exact ⟨rfl, rfl⟩
  · cases hstep
    refine ⟨nofun, fun S pick s => ?_⟩
    rw [handleWith, h.1, h.2]
    exact ⟨rfl, rfl⟩
  · exact reading_inv h hstep
  · obtain ⟨sent, hsent, rfl⟩ := Option.map_eq_some_iff.1 hstep
    exact ⟨push_eq_some hsent, h.2⟩
  · split at hstep
    · next hsent =>
      cases hstep
      obtain ⟨_, ip, message, hadm, hread⟩ := h
      refine ⟨nofun, fun S pick s => ?_⟩
      rw [hadm.handleWith_eq, handleRequest_failed hread, answer_outcome, hsent, Write.take_sent]
      exact ⟨rfl, rfl⟩
    · cases hstep
  · cases hstep

theorem start_finish {build : Build} {display : Addr → Bytes} {head : Head}
    (hread : readUntilHeadersEnd x.client headerBufSize = .found head.len head.buf head.rest)
    (pick : S → Except Panic (Option Addr) × S) (s : S) :
    (After.start build display x head (pick s).1).Within x ∧
      (handleRequest build display pick x head.clientIp s).1.outcome =
        (After.start build display x head (pick s).1).finish x := by
  rcases hpick : pick s with ⟨picked, s'⟩
  cases picked with
  | error p =>
    simp only [handleRequest, hread, hpick]
    refine ⟨fun h => ?_, rfl⟩
    cases h
  | ok found =>
    cases found with
    | none =>
      simp only [handleRequest, hread, hpick, answer_outcome]
      exact ⟨Nat.zero_le _, rfl⟩
    | some addr =>
      rw [handleRequest_found hread hpick]
      simp only [After.start, forward]
      cases build head.buf head.len head.clientIp (display addr) x.requestId with
      | error e => exact ⟨Nat.zero_le _, answer_outcome x _⟩
      | ok result =>
        refine ⟨trivial, ?_⟩
        simp only [After.finish, finishHead]
        cases x.connect addr with
        | failed => simp [Handled.outcome, Exchange.answer, connectedTo, sentUpstream, sentClient]
        | timedOut => simp [Handled.outcome, Exchange.answer, connectedTo, sentUpstream, sentClient]
        | succeeded =>
          cases x.headWrite with
          | failed k => simp [Handled.outcome, connectedTo, sentUpstream, sentClient]
          | done => simp [Handled.outcome, connectedTo, sentUpstream, sentClient]

def After.Inv (build : Build) (display : Addr → Bytes) (tls : Option Attempt) (x : Exchange Addr)
    (r : Except Panic (Option Addr)) (b : After Addr) : Prop :=
  b.Within x ∧ ∀ (S : Type) (pick : S → Except Panic (Option Addr) × S) (s : S), (pick s).1 = r →
    (handleWith tls build display pick x s).1.outcome = b.finish x

theorem connection_keeps {M E : Type} {tls : D → Option Attempt} {exchange : D → Exchange Addr}
    {build : Build} {display : Addr → Bytes} {answer : X → Option (Except Panic (Option Addr))}
    {o : Tickets.Object w M X E}
    (hended : ∀ y r, answer y = some r → ∀ mem, o.act mem y = none) :
    (connection tls exchange build display answer).Keeps o
      (fun d => Before.Inv build display (tls d) (exchange d))
      (fun d head => (Before.headRead head.clientIp head.len head.buf head.rest).Inv build display
        (tls d) (exchange d))
      (fun d y b => readyWith (tls d) (exchange d) = true ∧
        ∃ r, answer y = some r ∧ b.Inv build display (tls d) (exchange d) r) where
  start _ := trivial
  before _ _ _ _ h hstep := before_inv h hstep
  ask d a k h hask := by
    cases a with
    | headRead clientIp len buf rest =>
      cases hask
      exact h
    | _ => cases hask
  ended d k y b hb := by
    obtain ⟨r, hr, _⟩ := Option.map_eq_some_iff.1 hb
    exact hended y r hr
  resume d k y b h hb := by
    obtain ⟨r, hr, rfl⟩ := Option.map_eq_some_iff.1 hb
    refine ⟨h.1.ready h.2, r, hr, ?_, fun S pick s hpick => ?_⟩
    · exact (start_finish h.2 (fun u : Unit => (r, u)) ()).1
    · rw [h.1.handleWith_eq, (start_finish h.2 pick s).2, hpick]
  after d y b v b' h hb := by
    obtain ⟨hready, r, hr, hw, hfin⟩ := h
    obtain ⟨hw', hfin'⟩ := after_step hw hb
    exact ⟨hready, r, hr, hw', fun S pick s hpick => by rw [hfin', hfin S pick s hpick]⟩

abbrev Standing (Addr : Type) := Place Before Head (After Addr)

def Standing.sent (x : Exchange Addr) : Standing Addr → Sent Addr
  | .before a => a.sent
  | .calling _ _ => ⟨none, [], []⟩
  | .after _ b => b.sent x

def Standing.ended : Standing Addr → Option Ended
  | .before (.finished e _) => some e
  | .after _ (.finished outcome) => some outcome.ended
  | _ => none

/-- A connection is on its way to an outcome: what it has sent is a part of what it will have
sent, and all of it when it has ended. -/
structure Tracks (x : Exchange Addr) (p : Standing Addr) (outcome : Outcome Addr) : Prop where
  sent : (Standing.sent x p).Le outcome.sent
  ended : ∀ e, Standing.ended p = some e → outcome = ⟨e, Standing.sent x p⟩

theorem Sent.Le.of_empty (t : Sent Addr) : (⟨none, [], []⟩ : Sent Addr).Le t :=
  ⟨.inl rfl, List.nil_prefix, List.nil_prefix⟩

theorem Before.Inv.tracks {build : Build} {display : Addr → Bytes} {a : Before}
    (h : a.Inv build display tls x) (pick : S → Except Panic (Option Addr) × S) (s : S) :
    Tracks x (.before a) (handleWith tls build display pick x s).1.outcome := by
  cases a with
  | refusing sent =>
    obtain ⟨hle, ip, message, hadm, hread⟩ := h
    rw [hadm.handleWith_eq, handleRequest_failed hread, answer_outcome]
    exact ⟨⟨.inl rfl, List.nil_prefix, x.clientWrite.take_prefix hle⟩, nofun⟩
  | finished e client =>
    rw [(h.2 S pick s).1]
    refine ⟨Sent.Le.refl _, ?_⟩
    rintro _ ⟨⟩
    rfl
  | accepted => exact ⟨Sent.Le.of_empty _, nofun⟩
  | handshaking _ _ => exact ⟨Sent.Le.of_empty _, nofun⟩
  | reading _ _ _ => exact ⟨Sent.Le.of_empty _, nofun⟩
  | headRead _ _ _ _ => exact ⟨Sent.Le.of_empty _, nofun⟩

theorem After.Inv.tracks {build : Build} {display : Addr → Bytes} {b : After Addr}
    (h : b.Inv build display tls x r) (pick : S → Except Panic (Option Addr) × S) (s : S)
    (hpick : (pick s).1 = r) (c : Nat) :
    Tracks x (.after c b) (handleWith tls build display pick x s).1.outcome := by
  rw [h.2 S pick s hpick]
  refine ⟨After.sent_le h.1, ?_⟩
  cases b with
  | finished outcome =>
    rintro _ ⟨⟩
    rfl
  | _ => exact nofun

abbrev Stands {M E : Type} (tls : D → Option Attempt) (exchange : D → Exchange Addr) (build : Build)
    (display : Addr → Bytes) (answer : X → Option (Except Panic (Option Addr)))
    (o : Tickets.Object w M X E) : Tickets.State w M X → D → Standing Addr → Prop :=
  Holds o (fun d => Before.Inv build display (tls d) (exchange d))
    (fun d head => (Before.headRead head.clientIp head.len head.buf head.rest).Inv build display
      (tls d) (exchange d))
    (fun d y b => readyWith (tls d) (exchange d) = true ∧
      ∃ r, answer y = some r ∧ b.Inv build display (tls d) (exchange d) r)

theorem Stands.ready {M E : Type} {tls : D → Option Attempt} {exchange : D → Exchange Addr}
    {build : Build} {display : Addr → Bytes} {answer : X → Option (Except Panic (Option Addr))}
    {o : Tickets.Object w M X E} {u : Tickets.State w M X}
    (h : Stands tls exchange build display answer o u d p) (hp : Place.index p = some c) :
    readyWith (tls d) (exchange d) = true := by
  cases p with
  | before a => cases hp
  | calling c k => exact h.1.1.ready h.1.2
  | after c b =>
    obtain ⟨_, _, _, hready, _⟩ := h
    exact hready

theorem Stands.tracks {M E : Type} {tls : D → Option Attempt} {exchange : D → Exchange Addr}
    {build : Build} {display : Addr → Bytes} {answer : X → Option (Except Panic (Option Addr))}
    {o : Tickets.Object w M X E} {u : Tickets.State w M X}
    (h : Stands tls exchange build display answer o u d p)
    (pick : S → Except Panic (Option Addr) × S) (s : S)
    (hpick : ∀ c y r, Place.index p = some c → u.calls[c]? = some y → answer y = some r →
      (pick s).1 = r) :
    Tracks (exchange d) p (handleWith (tls d) build display pick (exchange d) s).1.outcome := by
  cases p with
  | before a => exact Before.Inv.tracks h pick s
  | calling c k => exact ⟨Sent.Le.of_empty _, nofun⟩
  | after c b =>
    obtain ⟨y, hy, _, _, r, hr, hb⟩ := h
    exact hb.tracks pick s (hpick c y r rfl hy hr) c

end ReverseProxy
