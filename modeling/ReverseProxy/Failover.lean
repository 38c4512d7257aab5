import ReverseProxy.Delivery
import ReverseProxy.Probe

namespace ReverseProxy.C
open Clients HttpHead Runs Server Tickets Usize
set_option autoImplicit true

/-- A step of the `k`-th checker, whose probe meets `peer` and may be timed out. -/
inductive Watch
  | wake (k : Nat)
  | probe (k : Nat) (timedOut : Bool) (peer : Peer)
  | store (k : Nat)

def Memory.watch (path : Bytes) (display : Addr → Bytes) (mem : Memory Addr) :
    Watch → Option (Memory Addr)
  | .wake k => mem.tick (.wake k)
  | .probe k timedOut peer =>
    mem.checkers[k]?.bind (fun c =>
      if timedOut || (doProbe path (display c.addr) peer).isSome then
        mem.tick (.answer k (C.probe timedOut path (display c.addr) peer))
      else none)
  | .store k => mem.tick (.store k)

def watched (w : Nat) (m : Overflow) (upstreams : List Addr) (path : Bytes)
    (display : Addr → Bytes) : Object w (Memory Addr) (Call w Addr) Watch :=
  object w m upstreams Memory.flags (Memory.watch path display)

def Watch.agrees (path host : Bytes) (j : Nat) (v : Bool) : Watch → Bool
  | .probe k timedOut peer => k != j || C.probe timedOut path host peer == v
  | .wake _ | .store _ => true

def Config.probePath (config : Config) : Bytes := Utf8.encode config.health.path.toList

def Tick.task : Tick → Nat
  | .wake k | .answer k _ | .store k => k

/-- The flag of entry `j` shows `v`, and its checker has nothing else to store. -/
structure Shows (j : Nat) (v : Bool) (mem : Memory Addr) : Prop where
  flag : mem.flags[j]? = some v
  checker : ∀ c, mem.checkers[j]? = some c → c.phase ≠ .probed (!v)

/-- It does, or it will when the checker stores what it is about to find. -/
def Toward (j : Nat) (v : Bool) (mem : Memory Addr) : Prop :=
  Shows j v mem ∨ ∃ c, mem.checkers[j]? = some c ∧ (c.phase = .probing ∨ c.phase = .probed v)

variable {w : Nat} {Addr : Type} {m : Overflow} {upstreams : List Addr} {mem mem' : Memory Addr}
  {path : Bytes} {display : Addr → Bytes}

theorem Wired.tick_ne (h : Wired upstreams mem) (ht : mem.tick e = some mem') (hj : e.task ≠ j) :
    mem'.checkers[j]? = mem.checkers[j]? ∧ mem'.flags[j]? = mem.flags[j]? := by
  have he := tick_effect ht
  cases e with
  | wake k =>
    obtain ⟨c, _, rfl⟩ := he
    exact ⟨List.getElem?_set_ne hj, rfl⟩
  | answer k healthy =>
    obtain ⟨c, _, rfl⟩ := he
    exact ⟨List.getElem?_set_ne hj, rfl⟩
  | store k =>
    obtain ⟨c, healthy, hc, _, ⟨_, rfl⟩ | ⟨_, rfl⟩⟩ := he
    · refine ⟨List.getElem?_set_ne hj, ?_⟩
      rw [(h.checker k c hc).1]
      exact List.getElem?_set_ne hj
    · exact ⟨List.getElem?_set_ne hj, rfl⟩

theorem setPhase_checker {c : Checker Addr} (hc : mem.checkers[j]? = some c) (p : Phase) :
    (mem.setPhase j c p).checkers[j]? = some { c with phase := p } :=
  List.getElem?_set_self (List.getElem?_eq_some_iff.1 hc).1

theorem toward_wake (ht : mem.tick (.wake j) = some mem') (v : Bool) : Toward j v mem' := by
  obtain ⟨c, hc, rfl⟩ := tick_effect ht
  exact .inr ⟨_, setPhase_checker hc _, .inl rfl⟩

theorem Wired.store_shows (h : Wired upstreams mem) (hc : mem.checkers[j]? = some c)
    (hp : c.phase = .probed v) (ht : mem.tick (.store j) = some mem') : Shows j v mem' := by
  obtain ⟨c', healthy, hc', hp', hmem⟩ := tick_effect ht
  cases hc.symm.trans hc'
  cases hp.symm.trans hp'
  obtain ⟨hi, haddr⟩ := h.checker j c hc
  have hlt := (List.getElem?_eq_some_iff.1 haddr).1
  rw [hi, h.length] at hmem
  rcases hmem with ⟨_, rfl⟩ | ⟨hle, _⟩
  · refine ⟨List.getElem?_set_self (h.length ▸ hlt), fun d hd hprobed => ?_⟩
    cases (setPhase_checker hc _).symm.trans hd
    cases hprobed
  · exact (Nat.not_le_of_lt hlt hle).elim

theorem Toward.store (h : Toward j v mem) (hw : Wired upstreams mem)
    (ht : mem.tick (.store j) = some mem') : Shows j v mem' := by
  obtain ⟨c, healthy, hc, hp, _⟩ := tick_effect ht
  refine hw.store_shows hc ?_ ht
  rcases h with h | ⟨c', hc', hp' | hp'⟩
  · have hne := h.checker c hc
    rw [hp] at hne ⊢
    cases healthy <;> cases v <;> first | rfl | exact (hne rfl).elim
  · cases hc.symm.trans hc'
    cases hp.symm.trans hp'
  · cases hc.symm.trans hc'
    exact hp'

theorem Shows.tick (h : Shows j v mem) (hw : Wired upstreams mem) (ht : mem.tick e = some mem')
    (he : ∀ b, e = .answer j b → b = v) : Shows j v mem' := by
  by_cases hj : e.task = j
  · subst hj
    cases e with
    | wake k =>
      obtain ⟨c, hc, rfl⟩ := tick_effect ht
      refine ⟨h.flag, fun d hd hp => ?_⟩
      cases (setPhase_checker hc _).symm.trans hd
      cases hp
    | answer k b =>
      obtain ⟨c, hc, rfl⟩ := tick_effect ht
      refine ⟨h.flag, fun d hd hp => ?_⟩
      cases (setPhase_checker hc _).symm.trans hd
      cases he b rfl
      cases v <;> cases hp
    | store k => exact Toward.store (.inl h) hw ht
  · obtain ⟨hcheckers, hflags⟩ := hw.tick_ne ht hj
    exact ⟨hflags ▸ h.flag, hcheckers ▸ h.checker⟩

theorem Toward.tick (h : Toward j v mem) (hw : Wired upstreams mem) (ht : mem.tick e = some mem')
    (he : ∀ b, e = .answer j b → b = v) : Toward j v mem' := by
  rcases h with h | ⟨c, hc, hp⟩
  · exact .inl (h.tick hw ht he)
  · by_cases hj : e.task = j
    · subst hj
      cases e with
      | wake k => exact toward_wake ht v
      | answer k b =>
        obtain ⟨c', hc', rfl⟩ := tick_effect ht
        cases he b rfl
        exact .inr ⟨_, setPhase_checker hc' _, .inr rfl⟩
      | store k => exact .inl (Toward.store (.inr ⟨c, hc, hp⟩) hw ht)
    · obtain ⟨hcheckers, _⟩ := hw.tick_ne ht hj
      exact .inr ⟨c, hcheckers ▸ hc, hp⟩

theorem watch_tick (h : mem.watch path display e = some mem') : ∃ t, mem.tick t = some mem' := by
  cases e with
  | wake k => exact ⟨.wake k, h⟩
  | probe k timedOut peer =>
    obtain ⟨c, _, h⟩ := Option.bind_eq_some_iff.1 h
    exact ⟨_, (Option.ite_none_right_eq_some.1 h).2⟩
  | store k => exact ⟨.store k, h⟩

theorem watch_agrees (hw : Wired upstreams mem) (hj : upstreams[j]? = some addr)
    (h : mem.watch path display e = some mem') (he : e.agrees path (display addr) j v = true) :
    ∃ t, mem.tick t = some mem' ∧ ∀ b, t = .answer j b → b = v := by
  cases e with
  | wake k => exact ⟨.wake k, h, fun _ ht => nomatch ht⟩
  | probe k timedOut peer =>
    obtain ⟨c, hc, h⟩ := Option.bind_eq_some_iff.1 h
    refine ⟨_, (Option.ite_none_right_eq_some.1 h).2, fun b hb => ?_⟩
    cases hb
    have haddr := (hw.checker _ c hc).2
    rw [hj] at haddr
    cases haddr
    simpa [Watch.agrees] using he
  | store k => exact ⟨.store k, h, fun _ ht => nomatch ht⟩

/-- What the state of entry `j` makes of a call with the ticket `t`: it does not return an entry
that is down, and does not pass one that is up unless the scan goes past the end of the word. -/
def Heeds (upstreams : List Addr) (j : Nat) (v : Bool) (t : BitVec w) : Call w Addr → Prop
  | .scanning start i => start = t ∧ (v = true → t.toNat + upstreams.length ≤ 2 ^ w →
      ∀ k < i, (t.toNat + k) % upstreams.length ≠ j)
  | .returned (some found) => upstreams[found.1]? = some found.2 ∧ (v = false → found.1 ≠ j)
  | .returned none => v = true → 2 ^ w < t.toNat + upstreams.length
  | .panicked _ => True

theorem heeds_act {x x' : Call w Addr} (hj : j < upstreams.length)
    (hflag : health[j]? = some v) (h : Heeds upstreams j v t x)
    (hx : Call.act m upstreams health x = some x') : Heeds upstreams j v t x' := by
  cases acts_of_act hx with
  | exhausted hi =>
    intro hv
    refine Nat.lt_of_not_le fun hfit => ?_
    obtain ⟨k, hk, he⟩ := Cyclic.exists_offset hj t.toNat
    exact h.2 hv hfit k (Nat.lt_of_lt_of_le hk hi) he
  | passed hi hturn =>
    refine ⟨h.1, fun hv hfit k hk => ?_⟩
    rcases Nat.lt_succ_iff_lt_or_eq.1 hk with hk | rfl
    · exact h.2 hv hfit k hk
    · intro he
      obtain ⟨rfl, _⟩ := h
      obtain ⟨sum, hsum, hdown⟩ := turn_ok hturn
      rw [Usize.add_of_lt m (by omega), Option.some.injEq] at hsum
      rw [← hsum, he, hflag, hv] at hdown
      cases hdown
  | found _ hturn =>
    obtain ⟨_, _, _, hup, haddr⟩ := turn_ok hturn
    refine ⟨haddr, fun hv he => ?_⟩
    rw [he, hflag, hv] at hup
    cases hup
  | panicked _ _ => trivial

/-- The calls from the `n`-th on heed a flag that shows `v` as they are made. -/
theorem watched_keeps (m : Overflow) (t : BitVec w) (n : Nat) (hj : upstreams[j]? = some addr) :
    ((watched w m upstreams path display).only (Watch.agrees path (display addr) j v)).Keeps t
      (fun mem => Wired upstreams mem ∧ Shows j v mem)
      (fun c _ x => n ≤ c → Heeds upstreams j v (t + BitVec.ofNat w c) x) where
  enter _ _ _ _ := ⟨rfl, fun _ _ k hk => (Nat.not_lt_zero k hk).elim⟩
  act _ _ _ _ hI hJ hx hc :=
    heeds_act (List.getElem?_eq_some_iff.1 hj).1 hI.2.flag (hJ hc) hx
  env _ _ _ hI he := by
    obtain ⟨hagrees, he⟩ := Option.ite_none_right_eq_some.1 he
    obtain ⟨t, ht, hans⟩ := watch_agrees hI.1 hj he hagrees
    exact ⟨hI.1.tick ht, hI.2.tick hI.1 ht hans⟩
  stable _ _ _ _ _ _ hJ _ := hJ

theorem watched_toward (m : Overflow) (t : BitVec w) (hj : upstreams[j]? = some addr) :
    ((watched w m upstreams path display).only (Watch.agrees path (display addr) j v)).Keeps t
      (fun mem => Wired upstreams mem ∧ Toward j v mem) (fun _ _ _ => True) where
  enter _ _ _ := trivial
  act _ _ _ _ _ _ _ := trivial
  env _ _ _ hI he := by
    obtain ⟨hagrees, he⟩ := Option.ite_none_right_eq_some.1 he
    obtain ⟨t, ht, hans⟩ := watch_agrees hI.1 hj he hagrees
    exact ⟨hI.1.tick ht, hI.2.tick hI.1 ht hans⟩
  stable _ _ _ _ _ _ _ _ := trivial

theorem watched_wired (path : Bytes) (display : Addr → Bytes) (m : Overflow) (t : BitVec w) :
    (watched w m upstreams path display).Keeps t (Wired upstreams) (fun _ _ _ => True) where
  enter _ _ _ := trivial
  act _ _ _ _ _ _ _ := trivial
  env _ _ _ hI he := hI.tick (watch_tick he).choose_spec
  stable _ _ _ _ _ _ _ _ := trivial

theorem env_mem_toClients {D L E : Type} {ls : List (Server.Label D L E)} {e : E}
    (h : Clients.Label.env e ∈ ls.flatMap toClients) : Server.Label.env e ∈ ls := by
  obtain ⟨l, hl, he⟩ := List.mem_flatMap.1 h
  cases l with
  | env e' =>
    cases List.mem_singleton.1 he
    exact hl
  | loop _ => cases he
  | accept _ _ => cases List.mem_singleton.1 he
  | task _ _ => cases List.mem_singleton.1 he

/-- What the state of entry `j` makes of the connections whose tickets are from the `n`-th on: none
goes to an entry that is down, and none is turned away while one is up, unless the scan goes past
the end of the word. -/
structure Follows (parse : Httparse.Parser) (display : Addr → Bytes) (upstreams : List Addr)
    (j : Nat) (v : Bool) (n : Nat)
    (s : Server.State u w (Memory Addr) (Call w Addr) (Attempt × Exchange Addr) Before Head
      (After Addr)) : Prop where
  flag : s.clients.object.memory.flags[j]? = some v
  avoids : v = false → ∀ d ∈ conns s, ∀ c, d.2.place.index = some c → n ≤ c →
    ∀ a, (Standing.sent d.2.data.2 d.2.place).connected = some a →
      ∃ k, k ≠ j ∧ upstreams[k]? = some a
  serves : v = true → ∀ d ∈ conns s, ∀ c, d.2.place.index = some c → n ≤ c →
    c % 2 ^ w + upstreams.length ≤ 2 ^ w → ∃ r, r ≠ .ok none ∧
      (∀ y r', s.clients.object.calls[c]? = some y → y.answer = some r' → r' = r) ∧
      Serving d.2.data.2 d.1 d.2.place (handleAnswered parse display d.2.data r).outcome

theorem run_heeds {parse : Httparse.Parser} {mode m : Overflow}
    {ls₁ ls₂ ls₃ : List (Server.Label (Attempt × Exchange Addr) Act Watch)}
    {s₁ s : Server.State u w (Memory Addr) (Call w Addr) (Attempt × Exchange Addr) Before Head
      (After Addr)}
    (hm : Wired upstreams mem) (hj : upstreams[j]? = some addr)
    (hr₁ : run ((server parse display (watched w mode upstreams path display)).step m) (start mem)
      (ls₁ ++ .env (.wake j) :: (ls₂ ++ [.env (.store j)])) = some s₁)
    (hr : run ((server parse display (watched w mode upstreams path display)).step m) s₁ ls₃ =
      some s)
    (hagrees : ∀ e, .env e ∈ ls₂ ++ ls₃ → Watch.agrees path (display addr) j v e = true) :
    Tickets.Inv 0 (fun mem => Wired upstreams mem ∧ Shows j v mem)
      (fun c _ x => s₁.clients.object.calls.length ≤ c →
        Heeds upstreams j v (0 + BitVec.ofNat w c) x) s.clients.object := by
  have hreached {ls} {s' : Server.State u w (Memory Addr) (Call w Addr) (Attempt × Exchange Addr)
      Before Head (After Addr)}
      (hr : run ((server parse display (watched w mode upstreams path display)).step m)
        (start mem) ls = some s') :=
    (watched_wired path display mode 0).run hm
      (run_object (run_clients hr)).choose_spec
  have honly {ls} {s' s'' : Server.State u w (Memory Addr) (Call w Addr)
      (Attempt × Exchange Addr) Before Head (After Addr)}
      (hp : ∀ e, .env e ∈ ls → Watch.agrees path (display addr) j v e = true)
      (hr : run ((server parse display (watched w mode upstreams path display)).step m) s' ls =
        some s'') :=
    (run_object ((run_only (fun e he => hp e (env_mem_toClients he)) _).trans
      (run_clients hr))).choose_spec
  obtain ⟨sa, ha, hrest⟩ := run_append_eq_some.1 hr₁
  obtain ⟨sb, hwake, hrest⟩ := run_cons_eq_some.1 hrest
  obtain ⟨sc, hc, hrest⟩ := run_append_eq_some.1 hrest
  obtain ⟨_, hstore, hend⟩ := run_cons_eq_some.1 hrest
  cases hend
  have hb := hreached (run_append_eq_some.2 ⟨sa, ha, run_singleton hwake⟩)
  have htoward := (watched_toward mode 0 hj).run_from
    ⟨hb.counter, ⟨hb.memory, toward_wake (step_env hwake) v⟩, fun _ _ _ => trivial⟩
    (honly (fun e he => hagrees e (List.mem_append_left _ he)) hc)
  have hshows : Shows j v s₁.clients.object.memory :=
    htoward.memory.2.store htoward.memory.1 (step_env hstore)
  have h₁ := hreached hr₁
  exact (watched_keeps mode 0 s₁.clients.object.calls.length hj).run_from
    ⟨h₁.counter, ⟨h₁.memory, hshows⟩,
      fun c x hx hle => absurd (List.getElem?_eq_some_iff.1 hx).1 (Nat.not_lt_of_le hle)⟩
    (honly (fun e he => hagrees e (List.mem_append_right _ he)) hr)

/-- Checker `j` wakes up and stores a result, and from then on all its probes come to `v`: then the
flag shows `v`, and connections that turn to the balancer after that heed it. -/
theorem server_failsOver (readToString : String → Option String)
    (fromToml : String → Option Config) (parseAddr : String → Option Addr) (file : String)
    (config : Config) (parse : Httparse.Parser) (display : Addr → Bytes) (mode m : Overflow)
    (upstreams : List Addr) (mem : Memory Addr) (j : Nat) (addr : Addr) (v : Bool)
    (ls₁ ls₂ ls₃ : List (Server.Label (Attempt × Exchange Addr) Act Watch))
    (s₁ s : Server.State u w (Memory Addr) (Call w Addr) (Attempt × Exchange Addr) Before Head
      (After Addr))
    (hload : Config.load readToString fromToml parseAddr file = .ok config)
    (hwire : wire parseAddr config = some (upstreams, mem)) (hj : upstreams[j]? = some addr)
    (hr₁ : run ((server parse display (watched w mode upstreams config.probePath display)).step m)
      (start mem) (ls₁ ++ .env (.wake j) :: (ls₂ ++ [.env (.store j)])) = some s₁)
    (hr : run ((server parse display (watched w mode upstreams config.probePath display)).step m)
      s₁ ls₃ = some s)
    (hagrees : ∀ e, .env e ∈ ls₂ ++ ls₃ →
      Watch.agrees config.probePath (display addr) j v e = true) :
    Follows parse display upstreams j v s₁.clients.object.calls.length s := by
  obtain ⟨upstreams', mem', hwire', hm, _⟩ := wire_wired (Config.load_valid hload)
  obtain ⟨rfl, rfl⟩ := Prod.mk.inj (Option.some.inj (hwire'.symm.trans hwire))
  have hinv := run_heeds hm hj hr₁ hr hagrees
  have hserved {i : Nat} {d} (hd : (conns s)[i]? = some d) :=
    served (run_append_eq_some.2 ⟨s₁, hr₁, hr⟩) hd
  refine ⟨hinv.memory.2.flag, fun hv d hd c hc hle a ha => ?_, fun hv d hd c hc hle hfit => ?_⟩
  · obtain ⟨i, hi⟩ := List.mem_iff_getElem?.1 hd
    rcases hserved hi with ⟨hnone, _⟩ | ⟨c', y, r, hc', hy, hans, hserving⟩
    · rw [hnone] at ha
      cases ha
    · cases hc.symm.trans hc'
      have hheeds := hinv.calls c y hy hle
      rcases hserving.sent.connected with hnone | hsome
      · rw [hnone] at ha
        cases ha
      · cases handleAnswered_connected (hsome.symm.trans ha)
        cases y with
        | scanning start k => cases hans
        | panicked p => cases hans
        | returned found =>
          cases found with
          | none => cases hans
          | some found =>
            cases hans
            exact ⟨found.1, hheeds.2 hv, hheeds.1⟩
  · have hup (y : Call w Addr) r (hy : s.clients.object.calls[c]? = some y)
        (hans : y.answer = some r) : r ≠ .ok none := by
      have hheeds := hinv.calls c y hy hle
      rintro rfl
      cases y with
      | scanning start k => cases hans
      | panicked p => cases hans
      | returned found =>
        cases found with
        | some found => cases hans
        | none =>
          have hlt := hheeds hv
          rw [show ((0 : BitVec w) + BitVec.ofNat w c).toNat = c % 2 ^ w by simp] at hlt
          omega
    obtain ⟨i, hi⟩ := List.mem_iff_getElem?.1 hd
    rcases hserved hi with ⟨_, _, hserving⟩ | ⟨c', y, r, hc', hy, hans, hserving⟩
    · cases hans : s.clients.object.calls[c]?.bind Call.answer with
      | none =>
        refine ⟨.ok (some addr), nofun, fun y r hy hr => ?_, hserving _⟩
        rw [hy, Option.bind_some, hr] at hans
        cases hans
      | some r =>
        obtain ⟨y, hy, hr⟩ := Option.bind_eq_some_iff.1 hans
        refine ⟨r, hup y r hy hr, fun y' r' hy' hr' => ?_, hserving r⟩
        cases hy.symm.trans hy'
        exact Option.some.inj (hr'.symm.trans hr)
    · cases hc.symm.trans hc'
      refine ⟨r, hup y r hy hans, fun y' r' hy' hans' => ?_, hserving⟩
      cases hy.symm.trans hy'
      exact Option.some.inj (hans'.symm.trans hans)

def refusing : Peer := ⟨false, false, fun _ => .cut [] 0 .eof⟩

def beforeProbe : List (Server.Label (Attempt × Exchange String) Act Watch) :=
  [.loop .poll, .accept false (.succeeded, getRequest), .task 0 (.own .go)]

def duringProbe : List (Server.Label (Attempt × Exchange String) Act Watch) :=
  [.task 0 (.own .go), .env (.probe 0 false refusing), .task 0 (.own .go)]

def afterProbe : List (Server.Label (Attempt × Exchange String) Act Watch) :=
  [.task 0 .call, .env (.wake 0), .task 0 .act, .env (.probe 0 true refusing), .task 0 .act,
    .task 0 .resume, .env (.store 0), .task 0 (.own .go)]

set_option maxRecDepth 4000 in
theorem server_failsOver_refused :
    ∃ s : Server.State 64 64 (Memory String) (Call 64 String) (Attempt × Exchange String) Before
        Head (After String),
      (conns s).map (fun d => (Standing.sent d.2.data.2 d.2.place).connected) =
        [some "127.0.0.1:9092"] ∧
      Follows Httparse.grammarParser ascii ["127.0.0.1:9091", "127.0.0.1:9092"] 0 false 0 s := by
  refine ⟨_, rfl, server_failsOver readLocal
    (fun text => if text = configText then some twoUpstreams else none) parseLocal "config.toml"
    twoUpstreams Httparse.grammarParser ascii .checked .checked _ twoCheckers 0 "127.0.0.1:9091"
    false beforeProbe duringProbe afterProbe _ _ twoUpstreams_load rfl rfl rfl rfl fun e he => ?_⟩
  simp [duringProbe, afterProbe] at he
  rcases he with rfl | rfl | rfl | rfl <;> rfl

end ReverseProxy.C
