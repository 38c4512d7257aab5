import ReverseProxy.RoundRobin
import ReverseProxy.Routing

namespace ReverseProxy
open Runs Tickets Usize
set_option autoImplicit true

namespace B

/-- A loaded configuration unwraps, and no call on the balancer built from it panics. -/
structure NeverPanics (w : Nat) (parseAddr : String → Option Addr) (config : Config)
    (upstreams : List Addr) : Prop where
  listen : ∃ addr, config.listenSocketAddr parseAddr = some addr
  unwraps : config.upstreamSocketAddrs parseAddr = some upstreams
  nonempty : upstreams.length ≠ 0
  length : upstreams.length = config.upstreamAddrs.length
  calls : ∀ (ls : List (Label Empty)) (s : State w Unit (Call w Addr)),
    run (object w upstreams).step (fresh 0 ()) ls = some s → ∀ p, .panicked p ∉ s.calls

theorem run_not_panicked {upstreams : List Addr} (hn : upstreams ≠ [])
    (hr : run (object w upstreams).step (fresh t ()) ls = some s) (p : Panic) :
    .panicked p ∉ s.calls := by
  intro hp
  obtain ⟨c, hc⟩ := List.mem_iff_getElem?.1 hp
  exact ((object_keeps hn t).run trivial hr).calls c _ hc

theorem length_of_map {parse : String → Option Addr} {texts : List String} {addrs : List Addr}
    (h : texts.map parse = addrs.map some) : addrs.length = texts.length := by
  have := congrArg List.length h
  rw [List.length_map, List.length_map] at this
  exact this.symm

theorem Config.Valid.neverPanics {parseAddr : String → Option Addr} {config : Config}
    (h : config.Valid parseAddr) : ∃ upstreams, NeverPanics w parseAddr config upstreams := by
  obtain ⟨addrs, haddrs, hmap⟩ := h.upstreamSocketAddrs
  have hlen := length_of_map hmap
  have hpos : 0 < config.upstreamAddrs.length := List.length_pos_iff.2 h.nonempty
  have hn : addrs ≠ [] := List.length_pos_iff.1 (by omega)
  exact ⟨addrs, Option.isSome_iff_exists.1 h.listen, haddrs, by omega, hlen,
    fun ls s hr p => run_not_panicked hn hr p⟩

end B

namespace C

def HasRoom (upstreams : List Addr) (s : State w (Memory Addr) (Call w Addr)) (_ : Label Tick) :
    Prop := s.counter.toNat + upstreams.length < 2 ^ w

/-- Flags, checkers and upstreams fit together, and nothing has panicked. -/
structure Safe (upstreams : List Addr) (s : State w (Memory Addr) (Call w Addr)) : Prop where
  wired : Wired upstreams s.memory
  checkers : ∀ c ∈ s.memory.checkers, c.phase ≠ .panicked
  scans : ∀ start i, .scanning start i ∈ s.calls → start.toNat + upstreams.length < 2 ^ w
  calls : ∀ p, .panicked p ∉ s.calls

variable {w : Nat} {Addr : Type} {m : Overflow} {upstreams : List Addr}

theorem act_not_panicked {health : List Bool} {start : BitVec w}
    (hlen : health.length = upstreams.length) (hw : start.toNat + upstreams.length < 2 ^ w)
    (p : Panic) : Call.act m upstreams health (.scanning start i) ≠ some (.panicked p) := by
  intro h
  cases acts_of_act h with
  | panicked hi hturn => exact turn_ne_error hlen hi (by omega) _ hturn

theorem Wired.tick_checkers {mem mem' : Memory Addr} (h : Wired upstreams mem)
    (hc : ∀ c ∈ mem.checkers, c.phase ≠ .panicked) (ht : mem.tick e = some mem') :
    ∀ c ∈ mem'.checkers, c.phase ≠ .panicked := by
  have hset (k : Nat) (d : Checker Addr) (p : Phase) (hp : p ≠ .panicked) :
      ∀ c ∈ (mem.setPhase k d p).checkers, c.phase ≠ .panicked := by
    intro c hmem
    rcases List.mem_or_eq_of_mem_set hmem with hmem | rfl
    · exact hc c hmem
    · exact hp
  have he := tick_effect ht
  cases e with
  | wake k =>
    obtain ⟨d, _, rfl⟩ := he
    exact hset k d .probing (by decide)
  | answer k healthy =>
    obtain ⟨d, _, rfl⟩ := he
    exact hset k d (.probed healthy) nofun
  | store k =>
    obtain ⟨d, healthy, hd, _, ⟨_, rfl⟩ | ⟨hi, _⟩⟩ := he
    · exact hset k d .sleeping (by decide)
    · obtain ⟨hk, haddr⟩ := h.checker k d hd
      have hlt : k < upstreams.length := (List.getElem?_eq_some_iff.1 haddr).1
      rw [h.length, hk] at hi
      omega

theorem safe_step {s s' : State w (Memory Addr) (Call w Addr)} (hs : Safe upstreams s)
    (hroom : s.counter.toNat + upstreams.length < 2 ^ w)
    (h : (system w m upstreams).step s l = some s') : Safe upstreams s' := by
  have he := step_effect h
  cases l with
  | fetch =>
    cases he
    refine ⟨hs.wired, hs.checkers, fun start i hx => ?_, fun p hx => ?_⟩
    · rcases List.mem_append.1 hx with hx | hx
      · exact hs.scans start i hx
      · cases List.mem_singleton.1 hx
        exact hroom
    · rcases List.mem_append.1 hx with hx | hx
      · exact hs.calls p hx
      · cases List.mem_singleton.1 hx
  | act c =>
    obtain ⟨x, x', hx, hx', rfl⟩ := he
    have hmem := List.mem_of_getElem? hx
    refine ⟨hs.wired, hs.checkers, fun start i hy => ?_, fun p hy => ?_⟩
    · rcases List.mem_or_eq_of_mem_set hy with hy | rfl
      · exact hs.scans start i hy
      · cases acts_of_act hx' with
        | passed _ _ => exact hs.scans _ _ hmem
    · rcases List.mem_or_eq_of_mem_set hy with hy | rfl
      · exact hs.calls p hy
      · cases x with
        | scanning start i =>
          exact act_not_panicked hs.wired.length (hs.scans start i hmem) p hx'
        | returned r => cases hx'
        | panicked q => cases hx'
  | env e =>
    obtain ⟨mem', hm, rfl⟩ := he
    exact ⟨hs.wired.tick hm, hs.wired.tick_checkers hs.checkers hm, hs.scans, hs.calls⟩

theorem run_safe {s : State w (Memory Addr) (Call w Addr)} {mem : Memory Addr}
    (hm : Wired upstreams mem) (hc : ∀ c ∈ mem.checkers, c.phase ≠ .panicked)
    (ha : Along (system w m upstreams).step (HasRoom upstreams) (fresh t mem) ls)
    (hr : run (system w m upstreams).step (fresh t mem) ls = some s) : Safe upstreams s :=
  run_invariant_along (fun _ _ _ hs hroom h => safe_step hs hroom h)
    ⟨hm, hc, fun _ _ hx => (List.not_mem_nil hx).elim, fun _ hx => (List.not_mem_nil hx).elim⟩ ha hr

/-- A loaded configuration unwraps, what `main` builds from it fits together, and neither a call on
the balancer nor a checker panics as long as the counter has room for a scan. -/
structure NeverPanics (w : Nat) (parseAddr : String → Option Addr) (config : Config)
    (upstreams : List Addr) (mem : Memory Addr) : Prop where
  listen : ∃ addr, config.listenSocketAddr parseAddr = some addr
  unwraps : config.upstreamSocketAddrs parseAddr = some upstreams
  wire : wire parseAddr config = some (upstreams, mem)
  nonempty : upstreams.length ≠ 0
  length : upstreams.length = config.upstreamAddrs.length
  flags : mem.flags.length = upstreams.length
  calls : ∀ (m : Overflow) (ls : List (Label Tick)) (s : State w (Memory Addr) (Call w Addr)),
    run (system w m upstreams).step (fresh 0 mem) ls = some s →
    Along (system w m upstreams).step (HasRoom upstreams) (fresh 0 mem) ls →
    (∀ p, .panicked p ∉ s.calls) ∧ ∀ c ∈ s.memory.checkers, c.phase ≠ .panicked

theorem spawnCheckers_sleeping {c : Checker Addr} (h : c ∈ spawnCheckers upstreams) :
    c.phase = .sleeping := by
  obtain ⟨_, _, rfl⟩ := List.mem_map.1 h
  rfl

theorem Config.Valid.neverPanics {parseAddr : String → Option Addr} {config : Config}
    (h : config.Valid parseAddr) :
    ∃ upstreams mem, NeverPanics w parseAddr config upstreams mem := by
  obtain ⟨addrs, haddrs, hmap⟩ := h.upstreamSocketAddrs
  obtain ⟨upstreams, mem, hwire, hm, _⟩ := wire_wired h
  have hlen := B.length_of_map hmap
  have hpos : 0 < config.upstreamAddrs.length := List.length_pos_iff.2 h.nonempty
  have hmem : some (addrs, ⟨newFlags config.upstreamAddrs.length, spawnCheckers addrs, []⟩) =
      some (upstreams, mem) := by
    rw [← hwire, wire, haddrs]
    rfl
  cases hmem
  have hc : ∀ c ∈ spawnCheckers addrs, c.phase ≠ .panicked := by
    intro c hc
    rw [spawnCheckers_sleeping hc]
    decide
  refine ⟨addrs, _, Option.isSome_iff_exists.1 h.listen, haddrs, hwire, by omega, hlen, hm.length,
    fun m ls s hr ha => ?_⟩
  have hsafe := run_safe hm hc ha hr
  exact ⟨hsafe.calls, hsafe.checkers⟩

end C

/-- What a loaded configuration leads to in options B, C and D. -/
theorem load_neverPanics (w : Nat) (readToString : String → Option String)
    (parseAddr : String → Option Addr) (path : String) (fromTomlB : String → Option B.Config)
    (fromTomlC : String → Option C.Config) :
    (∀ config, B.Config.load readToString fromTomlB parseAddr path = .ok config →
      ∃ upstreams, B.NeverPanics w parseAddr config upstreams) ∧
    ∀ config, C.Config.load readToString fromTomlC parseAddr path = .ok config →
      ∃ upstreams mem, C.NeverPanics w parseAddr config upstreams mem :=
  ⟨fun _ h => (B.Config.load_valid h).neverPanics, fun _ h => (C.Config.load_valid h).neverPanics⟩

def B.twoUpstreams : B.Config where
  listenAddr := "127.0.0.1:8443"
  upstreamAddrs := ["127.0.0.1:9091", "127.0.0.1:9092"]
  timeouts := ⟨5, 60⟩

theorem load_neverPanics_two :
    (∃ upstreams, B.NeverPanics 64 C.parseLocal B.twoUpstreams upstreams) ∧
      ∃ upstreams mem, C.NeverPanics 64 C.parseLocal C.twoUpstreams upstreams mem := by
  have h := load_neverPanics 64 C.readLocal C.parseLocal "config.toml"
    (fun text => if text = C.configText then some B.twoUpstreams else none)
    (fun text => if text = C.configText then some C.twoUpstreams else none)
  have hload : B.Config.load C.readLocal
      (fun text => if text = C.configText then some B.twoUpstreams else none)
      C.parseLocal "config.toml" = .ok B.twoUpstreams :=
    C.load_eq_ok.2 ⟨C.configText, if_pos rfl, if_pos rfl, rfl⟩
  exact ⟨h.1 B.twoUpstreams hload, h.2 C.twoUpstreams C.twoUpstreams_load⟩

end ReverseProxy
