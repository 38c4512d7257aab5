import ReverseProxy.Clients
import ReverseProxy.Connection
import ReverseProxy.Routing

namespace ReverseProxy.C
open Clients Runs Usize
set_option autoImplicit true

/-- At some step of the run client `i` loaded the flag of entry `j`, whose address is `addr`, and
the latest result of that address's probes was `healthy`; no result counts as a success. -/
def Loaded (machine : Machine D A K B (Call w Addr) L) (m : Overflow) (upstreams : List Addr)
    (mem : Memory Addr) (ls : List (Clients.Label D L Tick)) (i j : Nat) (addr : Addr)
    (healthy : Bool) : Prop :=
  ∃ ls₁ ls₂ s₁, ls = ls₁ ++ .move i .act :: ls₂ ∧
    run (machine.step (system w m upstreams)) (idle 0 mem) ls₁ = some s₁ ∧
    s₁.object.memory.flags[j]? = some healthy ∧
    (latest s₁.object.memory.history j).getD true = healthy ∧
    ∀ e ∈ s₁.object.memory.history, e.task = j → e.addr = addr

/-- Why a call with the ticket `c`, made by client `i`, may come to this answer. -/
def Grounds (parseAddr : String → Option Addr) (config : Config)
    (machine : Machine D A K B (Call w Addr) L) (m : Overflow) (upstreams : List Addr)
    (mem : Memory Addr) (ls : List (Clients.Label D L Tick)) (i c : Nat) :
    Except Panic (Option Addr) → Prop
  | .ok (some addr) => ∃ j text, config.upstreamAddrs[j]? = some text ∧
      parseAddr text = some addr ∧ Loaded machine m upstreams mem ls i j addr true
  | .ok none => c % 2 ^ w + config.upstreamAddrs.length ≤ 2 ^ w →
      ∀ (j : Nat) text addr, config.upstreamAddrs[j]? = some text → parseAddr text = some addr →
        Loaded machine m upstreams mem ls i j addr false
  | .error p => p = .overflow ∧ m = .checked ∧
      2 ^ w < c % 2 ^ w + config.upstreamAddrs.length

variable {w : Nat} {Addr D A K B L : Type} {m : Overflow} {upstreams : List Addr}
  {mem : Memory Addr} {machine : Machine D A K B (Call w Addr) L}

/-- What a call keeps: a scan starts from its ticket, and it panics only past the end of the
word. -/
def Sound (m : Overflow) (n : Nat) (t : BitVec w) : Call w Addr → Prop
  | .scanning start _ => start = t
  | .returned _ => True
  | .panicked p => p = .overflow ∧ m = .checked ∧ 2 ^ w < t.toNat + n

theorem turn_error (hlen : health.length = upstreams.length) (hi : i < upstreams.length)
    (h : turn m upstreams health start i = .error p) :
    p = .overflow ∧ m = .checked ∧ 2 ^ w ≤ (start : BitVec w).toNat + i := by
  cases hsum : Usize.add m start i with
  | none =>
    rw [turn, hsum] at h
    cases h
    refine ⟨rfl, ?_⟩
    cases m with
    | checked =>
      refine ⟨rfl, Nat.le_of_not_lt fun hlt => ?_⟩
      rw [Usize.add_of_lt _ hlt] at hsum
      cases hsum
    | wrapping => cases hsum
  | some sum =>
    rw [turn_eq hlen (Nat.lt_of_le_of_lt (Nat.zero_le i) hi) hsum] at h
    cases h

theorem system_sound (m : Overflow) (upstreams : List Addr) (t : BitVec w) :
    (system w m upstreams).Keeps t (Wired upstreams)
      (fun c _ x => Sound m upstreams.length (t + BitVec.ofNat w c) x) where
  enter _ _ _ := rfl
  act c mem x x' hw hJ hx := by
    cases acts_of_act (show Call.act m upstreams mem.flags x = some x' from hx) with
    | exhausted _ => trivial
    | passed _ _ => exact hJ
    | found _ _ => trivial
    | panicked hi hp =>
      obtain ⟨rfl, rfl, hle⟩ := turn_error hw.length hi hp
      cases hJ
      exact ⟨rfl, rfl, by omega⟩
  env _ _ _ h he := h.tick he
  stable _ _ _ _ _ _ hJ _ := hJ

def Past (n k : Nat) : Call w Addr → Prop
  | .scanning _ i => k < i
  | .returned none => k < n
  | .returned (some _) | .panicked _ => False

theorem past_act {x x' : Call w Addr} (hx : ¬ Past upstreams.length k x)
    (h : Call.act m upstreams health x = some x') (hx' : Past upstreams.length k x') :
    ∃ start, x = .scanning start k ∧ turn m upstreams health start k = .ok none := by
  cases acts_of_act h with
  | exhausted hi => exact (hx (Nat.lt_of_lt_of_le hx' hi)).elim
  | passed hi hp =>
    obtain rfl := Nat.le_antisymm (Nat.le_of_not_lt hx) (Nat.le_of_lt_succ hx')
    exact ⟨_, rfl, hp⟩
  | found _ _ => exact hx'.elim
  | panicked _ _ => exact hx'.elim

theorem Wired.shows (h : Wired upstreams mem) (hj : mem.flags[j]? = some healthy)
    (ha : upstreams[j]? = some addr) :
    (latest mem.history j).getD true = healthy ∧
      ∀ e ∈ mem.history, e.task = j → e.addr = addr := by
  refine ⟨?_, fun e he hej => ?_⟩
  · have := h.flag j (List.getElem?_eq_some_iff.1 ha).1
    exact Option.some.inj (this.symm.trans hj)
  · have := h.probed e he
    rw [hej, ha] at this
    exact (Option.some.inj this).symm

/-- In every run from what `main` wires up, every answer of the balancer has its grounds: an
address is that of an entry that was up when the client loaded its flag, and there is none when the
client found the flag of each entry down. -/
theorem run_grounds {parseAddr : String → Option Addr} {config : Config}
    {s : Clients.State w (Memory Addr) (Call w Addr) D A K B} {d : Client D A K B} {i c : Nat}
    (hconfig : config.Valid parseAddr) (hwire : wire parseAddr config = some (upstreams, mem))
    (hr : run (machine.step (system w m upstreams)) (idle 0 mem) ls = some s)
    (hi : s.clients[i]? = some d) (hd : d.place.index = some c)
    (hy : s.object.calls[c]? = some y) (hans : y.answer = some r) :
    Grounds parseAddr config machine m upstreams mem ls i c r := by
  obtain ⟨upstreams', mem', hwire', hm, hmap⟩ := wire_wired hconfig
  obtain ⟨rfl, rfl⟩ := Prod.mk.inj (Option.some.inj (hwire'.symm.trans hwire))
  have hlen : config.upstreamAddrs.length = upstreams'.length := by
    simpa using congrArg List.length hmap
  have hentry (j : Nat) : (config.upstreamAddrs[j]?).map parseAddr =
      (upstreams'[j]?).map some := by
    have := congrArg (fun l => l[j]?) hmap
    rwa [List.getElem?_map, List.getElem?_map] at this
  have hinv {ls₁} {s₁ : Clients.State w (Memory Addr) (Call w Addr) D A K B}
      (hr₁ : run (machine.step (system w m upstreams')) (idle 0 mem') ls₁ = some s₁) :=
    (system_sound m upstreams' 0).run hm (run_object hr₁).choose_spec
  have hticket : ((0 : BitVec w) + BitVec.ofNat w c).toNat = c % 2 ^ w := by
    simp
  cases y with
  | scanning start k => cases hans
  | panicked p =>
    cases hans
    obtain ⟨rfl, rfl, hlt⟩ := (hinv hr).calls c _ hy
    rw [hticket] at hlt
    exact ⟨rfl, rfl, by rwa [hlen]⟩
  | returned found =>
    cases hans
    cases found with
    | some found =>
      obtain ⟨j, addr⟩ := found
      have henter (t : BitVec w) :
          ¬ (system w m upstreams').enter t = .returned (some (j, addr)) := by
        intro h
        cases h
      obtain ⟨ls₁, ls₂, s₁, x, x', rfl, hr₁, hx, hact, _, rfl⟩ :=
        run_call_step (P := (· = .returned (some (j, addr)))) henter hr hi hd hy rfl
      cases acts_of_act (show Call.act m _ _ x = some _ from hact) with
      | found _ hturn =>
        obtain ⟨_, _, _, hup, haddr⟩ := turn_ok hturn
        obtain ⟨hlatest, hprobed⟩ := (hinv hr₁).memory.shows hup haddr
        have := hentry j
        rw [haddr] at this
        obtain ⟨text, htext, hparse⟩ := Option.map_eq_some_iff.1 this
        exact ⟨j, text, htext, hparse, ls₁, ls₂, s₁, rfl, hr₁, hup, hlatest, hprobed⟩
    | none =>
      intro hfit j text addr htext hparse
      have haddr := hentry j
      rw [htext, Option.map_some, hparse] at haddr
      obtain ⟨addr', haddr, he⟩ := Option.map_eq_some_iff.1 haddr.symm
      cases he
      rw [hlen] at hfit
      obtain ⟨k, hk, rfl⟩ := Cyclic.exists_offset (List.getElem?_eq_some_iff.1 haddr).1 (c % 2 ^ w)
      have henter (t : BitVec w) :
          ¬ Past upstreams'.length k ((system w m upstreams').enter t) := Nat.not_lt_zero k
      obtain ⟨ls₁, ls₂, s₁, x, x', rfl, hr₁, hx, hact, hx₀, hx₁⟩ :=
        run_call_step (P := Past upstreams'.length k) henter hr hi hd hy hk
      obtain ⟨start, rfl, hturn⟩ := past_act hx₀ hact hx₁
      obtain rfl : start = 0 + BitVec.ofNat w c := (hinv hr₁).calls c _ hx
      obtain ⟨sum, hsum, hdown⟩ := turn_ok hturn
      rw [Usize.add_of_lt m (by omega), Option.some.injEq, hticket] at hsum
      subst hsum
      obtain ⟨hlatest, hprobed⟩ := (hinv hr₁).memory.shows hdown haddr
      exact ⟨ls₁, ls₂, s₁, rfl, hr₁, hdown, hlatest, hprobed⟩

end ReverseProxy.C
