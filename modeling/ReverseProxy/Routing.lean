import ReverseProxy.Balancer
import ReverseProxy.Health

namespace ReverseProxy.C
open Runs Tickets Usize
set_option autoImplicit true

def system (w : Nat) (m : Overflow) (upstreams : List Addr) :
    Object w (Memory Addr) (Call w Addr) Tick :=
  object w m upstreams Memory.flags Memory.tick

variable {w : Nat} {Addr : Type} {m : Overflow} {upstreams : List Addr} {mem : Memory Addr}

theorem system_keeps (m : Overflow) (upstreams : List Addr) (t : BitVec w) :
    (system w m upstreams).Keeps t (Wired upstreams) (fun _ _ _ => True) where
  enter _ _ _ := trivial
  act _ _ _ _ _ _ _ := trivial
  env _ _ _ h he := h.tick he
  stable _ _ _ _ _ _ _ _ := trivial

theorem run_wired (hm : Wired upstreams mem)
    (hr : run (system w m upstreams).step (fresh t mem) ls = some s) : Wired upstreams s.memory :=
  ((system_keeps m upstreams t).run hm hr).memory

theorem Wired.latest_ne (h : Wired upstreams mem) (hj : mem.flags[j]? = some true) :
    latest mem.history j ≠ some false := by
  intro hl
  have hlt : j < upstreams.length := by
    rw [← h.length]
    exact (List.getElem?_eq_some_iff.1 hj).1
  rw [h.flag j hlt, hl] at hj
  cases hj

/-- At some step of the run `ls` the call `c` loaded the flag of entry `j`, with address `addr`,
when the latest result of that entry's probes was a success or there was none. -/
def LoadedUp (m : Overflow) (upstreams : List Addr) (s₀ : State w (Memory Addr) (Call w Addr))
    (ls : List (Label Tick)) (c j : Nat) (addr : Addr) : Prop :=
  ∃ ls₁ ls₂ s₁ start i, ls = ls₁ ++ .act c :: ls₂ ∧
    run (system w m upstreams).step s₀ ls₁ = some s₁ ∧
    s₁.calls[c]? = some (.scanning start i) ∧
    turn m upstreams s₁.memory.flags start i = .ok (some (j, addr)) ∧
    latest s₁.memory.history j ≠ some false ∧
    ∀ e ∈ s₁.memory.history, e.task = j → e.addr = addr

theorem run_loadedUp (hm : Wired upstreams mem)
    (hr : run (system w m upstreams).step (fresh t mem) ls = some s)
    (hc : s.calls[c]? = some (.returned (some (j, addr)))) :
    LoadedUp m upstreams (fresh t mem) ls c j addr := by
  have hfresh : ¬ (fresh t mem : State w (Memory Addr) (Call w Addr)).calls[c]? =
      some (.returned (some (j, addr))) := nofun
  obtain ⟨ls₁, l, ls₂, s₁, s₂, rfl, hr₁, hl, hne, heq⟩ := run_exists_step
    (P := fun u => u.calls[c]? = some (.returned (some (j, addr)))) hfresh hr hc
  rcases step_getElem?_new hl heq hne with ⟨_, he⟩ | ⟨rfl, y, hy, hact⟩
  · cases he
  · cases acts_of_act hact with
    | found _ hturn =>
      obtain ⟨_, _, _, hup, haddr⟩ := turn_ok hturn
      have hw := run_wired hm hr₁
      refine ⟨ls₁, ls₂, s₁, _, _, rfl, hr₁, hy, hturn, hw.latest_ne hup, fun e he hj => ?_⟩
      have := hw.probed e he
      rw [hj, haddr] at this
      exact (Option.some.inj this).symm

/-- What routing owes the entries of the configuration, at the end `s` of a run `ls`. -/
structure Routed (parseAddr : String → Option Addr) (config : Config) (m : Overflow)
    (upstreams : List Addr) (s₀ : State w (Memory Addr) (Call w Addr)) (ls : List (Label Tick))
    (s : State w (Memory Addr) (Call w Addr)) : Prop where
  returned : ∀ c j addr, s.calls[c]? = some (.returned (some (j, addr))) →
    (∃ text, config.upstreamAddrs[j]? = some text ∧ parseAddr text = some addr) ∧
      LoadedUp m upstreams s₀ ls c j addr
  isolated : ∀ e s', (system w m upstreams).step s (.env e) = some s' →
    ∀ j, s'.memory.flags[j]? ≠ s.memory.flags[j]? → e = .store j

/-- In every run from what `main` wires up out of a loaded configuration, in either overflow mode,
the addresses returned are those of entries that were up when their flag was loaded, and a result
moves no flag but that of its own entry. -/
theorem nextHealthy_routed (readToString : String → Option String)
    (fromToml : String → Option Config) (parseAddr : String → Option Addr) (path : String)
    (config : Config) (m : Overflow) (upstreams : List Addr) (mem : Memory Addr)
    (ls : List (Label Tick)) (s : State w (Memory Addr) (Call w Addr))
    (hload : Config.load readToString fromToml parseAddr path = .ok config)
    (hwire : wire parseAddr config = some (upstreams, mem))
    (hr : run (system w m upstreams).step (fresh 0 mem) ls = some s) :
    Routed parseAddr config m upstreams (fresh 0 mem) ls s := by
  obtain ⟨upstreams', mem', hwire', hm, hmap⟩ := wire_wired (Config.load_valid hload)
  obtain ⟨rfl, rfl⟩ := Prod.mk.inj (Option.some.inj (hwire'.symm.trans hwire))
  constructor
  · intro c j addr hc
    have hup := run_loadedUp hm hr hc
    refine ⟨?_, hup⟩
    obtain ⟨_, _, _, _, _, _, _, _, hturn, _⟩ := hup
    obtain ⟨_, _, _, _, haddr⟩ := turn_ok hturn
    have := congrArg (fun l => l[j]?) hmap
    simp only [List.getElem?_map, haddr, Option.map_some, Option.map_eq_some_iff] at this
    exact this
  · intro e s' hs j hj
    obtain ⟨mem', hmem, rfl⟩ := step_effect hs
    exact (run_wired hm hr).tick_flag hmem hj

def twoUpstreams : Config where
  listenAddr := "127.0.0.1:8443"
  upstreamAddrs := ["127.0.0.1:9091", "127.0.0.1:9092"]
  tls := ⟨"", ""⟩
  health := ⟨10, 2, "/health"⟩
  timeouts := ⟨5, 60⟩

def configText : String :=
  "listen_addr = \"127.0.0.1:8443\"\n" ++
  "upstream_addrs = [\"127.0.0.1:9091\", \"127.0.0.1:9092\"]\n" ++
  "[tls]\ncert_path = \"\"\nkey_path = \"\"\n" ++
  "[health]\ninterval_secs = 10\ntimeout_secs = 2\npath = \"/health\"\n" ++
  "[timeouts]\nconnect_timeout_secs = 5\ntransfer_timeout_secs = 60\n"

def parseLocal (text : String) : Option String :=
  if ["127.0.0.1:8443", "127.0.0.1:9091", "127.0.0.1:9092"].contains text then some text else none

def readLocal (path : String) : Option String :=
  if path = "config.toml" then some configText else none

theorem twoUpstreams_load :
    Config.load readLocal (fun text => if text = configText then some twoUpstreams else none)
      parseLocal "config.toml" = .ok twoUpstreams :=
  load_eq_ok.2 ⟨configText, if_pos rfl, if_pos rfl, rfl⟩

def twoCheckers : Memory String :=
  ⟨[true, true], [⟨0, "127.0.0.1:9091", .sleeping⟩, ⟨1, "127.0.0.1:9092", .sleeping⟩], []⟩

theorem nextHealthy_routed_second :
    ∃ s : State 64 (Memory String) (Call 64 String),
      s.calls = [.returned (some (1, "127.0.0.1:9092"))] ∧
      Routed parseLocal twoUpstreams .checked ["127.0.0.1:9091", "127.0.0.1:9092"]
        (fresh 0 twoCheckers)
        [.fetch, .env (.wake 0), .env (.answer 0 false), .env (.store 0), .act 0, .act 0] s := by
  have hwire : wire parseLocal twoUpstreams =
      some (["127.0.0.1:9091", "127.0.0.1:9092"], twoCheckers) := rfl
  have hr : run (system 64 .checked ["127.0.0.1:9091", "127.0.0.1:9092"]).step
      (fresh 0 twoCheckers)
      [.fetch, .env (.wake 0), .env (.answer 0 false), .env (.store 0), .act 0, .act 0] =
        some ⟨1, ⟨[false, true], twoCheckers.checkers, [⟨0, "127.0.0.1:9091", false⟩]⟩,
          [.returned (some (1, "127.0.0.1:9092"))]⟩ := rfl
  exact ⟨_, rfl, nextHealthy_routed _ _ _ _ _ _ _ _ _ _ twoUpstreams_load hwire hr⟩

end ReverseProxy.C
