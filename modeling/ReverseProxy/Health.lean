import Mathlib.Data.List.Enum
import ReverseProxy.Config

namespace ReverseProxy.C
set_option autoImplicit true

inductive Phase
  | sleeping
  | probing
  | probed (healthy : Bool)
  | panicked
deriving DecidableEq, Repr

structure Checker (Addr : Type) where
  i : Nat
  addr : Addr
  phase : Phase
deriving DecidableEq, Repr

structure Stored (Addr : Type) where
  task : Nat
  addr : Addr
  healthy : Bool
deriving DecidableEq, Repr

/-- The flags, the tasks in the order they were spawned, and what they stored, last result first;
`history` is there for the statements only. -/
structure Memory (Addr : Type) where
  flags : List Bool
  checkers : List (Checker Addr)
  history : List (Stored Addr)
deriving DecidableEq, Repr

def newFlags (n : Nat) : List Bool := List.replicate n true

def spawnCheckers (upstreams : List Addr) : List (Checker Addr) :=
  upstreams.zipIdx.map (fun p => ⟨p.2, p.1, .sleeping⟩)

/-- A step of the `k`-th task: its sleep is over, its probe has an answer, or it stores that. -/
inductive Tick
  | wake (k : Nat)
  | answer (k : Nat) (healthy : Bool)
  | store (k : Nat)
deriving DecidableEq, Repr

def Memory.setPhase (mem : Memory Addr) (k : Nat) (c : Checker Addr) (p : Phase) : Memory Addr :=
  { mem with checkers := mem.checkers.set k { c with phase := p } }

def Memory.tick (mem : Memory Addr) : Tick → Option (Memory Addr)
  | .wake k =>
    match mem.checkers[k]? with
    | none => none
    | some c =>
      match c.phase with
      | .sleeping => some (mem.setPhase k c .probing)
      | _ => none
  | .answer k healthy =>
    match mem.checkers[k]? with
    | none => none
    | some c =>
      match c.phase with
      | .probing => some (mem.setPhase k c (.probed healthy))
      | _ => none
  | .store k =>
    match mem.checkers[k]? with
    | none => none
    | some c =>
      match c.phase with
      | .probed healthy =>
        if c.i < mem.flags.length then
          some { mem.setPhase k c .sleeping with
            flags := mem.flags.set c.i healthy
            history := ⟨k, c.addr, healthy⟩ :: mem.history }
        else some (mem.setPhase k c .panicked)
      | _ => none

/-- What `main` builds: the flags by the length of the list, the checkers and the balancer's
upstreams each from the list itself. -/
def wire (parseAddr : String → Option Addr) (config : Config) :
    Option (List Addr × Memory Addr) := do
  let flags := newFlags config.upstreamAddrs.length
  let checked ← config.upstreamSocketAddrs parseAddr
  let upstreams ← config.upstreamSocketAddrs parseAddr
  return (upstreams, ⟨flags, spawnCheckers checked, []⟩)

def Memory.Effect (mem mem' : Memory Addr) : Tick → Prop
  | .wake k => ∃ c, mem.checkers[k]? = some c ∧ mem' = mem.setPhase k c .probing
  | .answer k healthy => ∃ c, mem.checkers[k]? = some c ∧ mem' = mem.setPhase k c (.probed healthy)
  | .store k => ∃ c healthy, mem.checkers[k]? = some c ∧ c.phase = .probed healthy ∧
      ((c.i < mem.flags.length ∧ mem' = { mem.setPhase k c .sleeping with
          flags := mem.flags.set c.i healthy
          history := ⟨k, c.addr, healthy⟩ :: mem.history }) ∨
        mem.flags.length ≤ c.i ∧ mem' = mem.setPhase k c .panicked)

theorem tick_effect {mem mem' : Memory Addr} (h : mem.tick e = some mem') : mem.Effect mem' e := by
  cases e with
  | wake k =>
    simp only [Memory.tick] at h
    split at h
    · cases h
    · next c hc =>
      split at h
      · cases h
        exact ⟨c, hc, rfl⟩
      · cases h
  | answer k healthy =>
    simp only [Memory.tick] at h
    split at h
    · cases h
    · next c hc =>
      split at h
      · cases h
        exact ⟨c, hc, rfl⟩
      · cases h
  | store k =>
    simp only [Memory.tick] at h
    split at h
    · cases h
    · next c hc =>
      split at h
      · next healthy hp =>
        split at h
        · next hi =>
          cases h
          exact ⟨c, healthy, hc, hp, .inl ⟨hi, rfl⟩⟩
        · next hi =>
          cases h
          exact ⟨c, healthy, hc, hp, .inr ⟨Nat.le_of_not_lt hi, rfl⟩⟩
      · cases h

def latest (history : List (Stored Addr)) (j : Nat) : Option Bool :=
  (history.find? (fun e => e.task == j)).map Stored.healthy

theorem latest_cons_self (j : Nat) (addr : Addr) (healthy : Bool) (history : List (Stored Addr)) :
    latest (⟨j, addr, healthy⟩ :: history) j = some healthy := by
  simp [latest]

theorem latest_cons_ne {k j : Nat} (h : k ≠ j) (addr : Addr) (healthy : Bool)
    (history : List (Stored Addr)) :
    latest (⟨k, addr, healthy⟩ :: history) j = latest history j := by
  simp [latest, h]

/-- Task, flag and upstream of an entry carry the same index, and each flag shows the latest
result of its own task. -/
structure Wired (upstreams : List Addr) (mem : Memory Addr) : Prop where
  length : mem.flags.length = upstreams.length
  checker : ∀ k (c : Checker Addr), mem.checkers[k]? = some c →
    c.i = k ∧ upstreams[k]? = some c.addr
  flag : ∀ j < upstreams.length, mem.flags[j]? = some ((latest mem.history j).getD true)
  probed : ∀ e ∈ mem.history, upstreams[e.task]? = some e.addr

theorem Wired.setPhase {mem : Memory Addr} (h : Wired upstreams mem)
    (hc : mem.checkers[k]? = some c) (p : Phase) : Wired upstreams (mem.setPhase k c p) where
  length := h.length
  checker := by
    intro j d hd
    by_cases hkj : k = j
    · subst hkj
      have hlt : k < mem.checkers.length := (List.getElem?_eq_some_iff.1 hc).1
      simp only [Memory.setPhase, List.getElem?_set_self hlt, Option.some.injEq] at hd
      subst hd
      exact h.checker k c hc
    · simp only [Memory.setPhase, List.getElem?_set_ne hkj] at hd
      exact h.checker j d hd
  flag := h.flag
  probed := h.probed

theorem Wired.tick {mem mem' : Memory Addr} (h : Wired upstreams mem)
    (ht : mem.tick e = some mem') : Wired upstreams mem' := by
  have he := tick_effect ht
  cases e with
  | wake k =>
    obtain ⟨c, hc, rfl⟩ := he
    exact h.setPhase hc _
  | answer k healthy =>
    obtain ⟨c, hc, rfl⟩ := he
    exact h.setPhase hc _
  | store k =>
    obtain ⟨c, healthy, hc, _, ⟨hi, rfl⟩ | ⟨hi, rfl⟩⟩ := he
    · obtain ⟨hck, haddr⟩ := h.checker k c hc
      have hset := h.setPhase hc .sleeping
      refine ⟨?_, hset.checker, fun j hj => ?_, fun e he => ?_⟩
      · rw [List.length_set]
        exact h.length
      · by_cases hkj : k = j
        · subst hkj
          rw [latest_cons_self, hck, List.getElem?_set_self (by rwa [hck] at hi)]
          rfl
        · rw [latest_cons_ne hkj, hck, List.getElem?_set_ne hkj]
          exact h.flag j hj
      · rcases List.mem_cons.1 he with rfl | he
        · exact haddr
        · exact h.probed e he
    · exact h.setPhase hc _

theorem Wired.tick_flag {mem mem' : Memory Addr} (h : Wired upstreams mem)
    (ht : mem.tick e = some mem') (hj : mem'.flags[j]? ≠ mem.flags[j]?) : e = .store j := by
  have he := tick_effect ht
  cases e with
  | wake k =>
    obtain ⟨c, hc, rfl⟩ := he
    exact (hj rfl).elim
  | answer k healthy =>
    obtain ⟨c, hc, rfl⟩ := he
    exact (hj rfl).elim
  | store k =>
    obtain ⟨c, healthy, hc, _, ⟨hi, rfl⟩ | ⟨hi, rfl⟩⟩ := he
    · by_cases hkj : k = j
      · rw [hkj]
      · have hck := (h.checker k c hc).1
        exact (hj (by rw [hck, List.getElem?_set_ne hkj])).elim
    · exact (hj rfl).elim

theorem spawnCheckers_checker {upstreams : List Addr} {c : Checker Addr}
    (h : (spawnCheckers upstreams)[k]? = some c) : c.i = k ∧ upstreams[k]? = some c.addr := by
  simp only [spawnCheckers, List.getElem?_map, List.getElem?_zipIdx, Nat.zero_add,
    Option.map_map, Option.map_eq_some_iff] at h
  obtain ⟨addr, ha, rfl⟩ := h
  exact ⟨rfl, ha⟩

theorem wire_wired {parseAddr : String → Option Addr} {config : Config}
    (h : config.Valid parseAddr) :
    ∃ upstreams mem, wire parseAddr config = some (upstreams, mem) ∧ Wired upstreams mem ∧
      config.upstreamAddrs.map parseAddr = upstreams.map some := by
  obtain ⟨addrs, ha, hmap⟩ := h.upstreamSocketAddrs
  have hlen : config.upstreamAddrs.length = addrs.length := by
    simpa using congrArg List.length hmap
  refine ⟨addrs, ⟨newFlags config.upstreamAddrs.length, spawnCheckers addrs, []⟩, ?_, ?_, hmap⟩
  · simp [wire, ha]
  · refine ⟨by rw [newFlags, List.length_replicate, hlen], fun k c => spawnCheckers_checker,
      fun j hj => ?_, nofun⟩
    rw [newFlags, List.getElem?_replicate_of_lt (by omega)]
    rfl

end ReverseProxy.C
