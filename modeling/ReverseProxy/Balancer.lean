import Mathlib.Data.List.GetD
import ReverseProxy.Cyclic
import ReverseProxy.Tickets
import ReverseProxy.Usize

namespace ReverseProxy
open Cyclic Runs Tickets Usize
set_option autoImplicit true

inductive Panic
  | overflow
  | remainderByZero
  | outOfBounds
deriving DecidableEq, Repr

def index (v : List α) (i : Nat) : Except Panic α :=
  match v[i]? with
  | none => .error .outOfBounds
  | some a => .ok a

theorem index_of_lt {v : List α} (h : i < v.length) : index v i = .ok v[i] := by
  rw [index, List.getElem?_eq_getElem h]

theorem index_eq_ok {v : List α} (h : index v i = .ok a) : v[i]? = some a := by
  unfold index at h
  split at h
  · cases h
  · next b hb =>
    cases h
    exact hb

namespace B

structure Balancer (w : Nat) (Addr : Type) where
  upstreams : List Addr
  counter : BitVec w
deriving DecidableEq, Repr

def Balancer.new (upstreams : List Addr) : Balancer w Addr := ⟨upstreams, 0⟩

def choose (upstreams : List Addr) (t : BitVec w) : Except Panic (Nat × Addr) :=
  if upstreams.length = 0 then .error .remainderByZero
  else
    let idx := t.toNat % upstreams.length
    (index upstreams idx).map (fun a => (idx, a))

def Balancer.next (b : Balancer w Addr) : Except Panic Addr × Balancer w Addr :=
  ((choose b.upstreams b.counter).map Prod.snd, { b with counter := b.counter + 1 })

inductive Call (w : Nat) (Addr : Type)
  | drawn (t : BitVec w)
  | returned (idx : Nat) (addr : Addr)
  | panicked (p : Panic)
deriving DecidableEq, Repr

def Call.act (upstreams : List Addr) : Call w Addr → Option (Call w Addr)
  | .drawn t =>
    match choose upstreams t with
    | .error p => some (.panicked p)
    | .ok (idx, addr) => some (.returned idx addr)
  | .returned _ _ | .panicked _ => none

/-- `Balancer::next` called by any number of tasks at once. -/
def object (w : Nat) (upstreams : List Addr) : Object w Unit (Call w Addr) Empty where
  enter := .drawn
  act _ := Call.act upstreams
  env _ e := nomatch e

theorem choose_eq {upstreams : List Addr} (hn : upstreams ≠ []) (t : BitVec w) :
    ∃ addr, upstreams[t.toNat % upstreams.length]? = some addr ∧
      choose upstreams t = .ok (t.toNat % upstreams.length, addr) := by
  have hpos := List.length_pos_iff.2 hn
  have hlt := Nat.mod_lt t.toNat hpos
  refine ⟨upstreams[t.toNat % upstreams.length], List.getElem?_eq_getElem hlt, ?_⟩
  simp only [choose, if_neg (Nat.ne_of_gt hpos), index_of_lt hlt]
  rfl

theorem Balancer.next_iterate (b : Balancer w Addr) (c : Nat) :
    (fun b : Balancer w Addr => b.next.2)^[c] b =
      { b with counter := b.counter + BitVec.ofNat w c } :=
  iterate_ticket (g := Balancer.mk b.upstreams) (fun _ => rfl) b.counter c

end B

namespace C

structure Balancer (w : Nat) (Addr : Type) where
  upstreams : List Addr
  health : List Bool
  counter : BitVec w
deriving DecidableEq, Repr

def Balancer.new (upstreams : List Addr) (health : List Bool) : Balancer w Addr :=
  ⟨upstreams, health, 0⟩

/-- One turn of the loop of `next_healthy`; `none` moves on to the next offset. -/
def turn (m : Overflow) (upstreams : List Addr) (health : List Bool) (start : BitVec w) (i : Nat) :
    Except Panic (Option (Nat × Addr)) :=
  match Usize.add m start i with
  | none => .error .overflow
  | some sum =>
    let idx := sum % upstreams.length
    match index health idx with
    | .error p => .error p
    | .ok false => .ok none
    | .ok true => (index upstreams idx).map (fun addr => some (idx, addr))

def scan (m : Overflow) (upstreams : List Addr) (health : List Bool) (start : BitVec w) :
    List Nat → Except Panic (Option (Nat × Addr))
  | [] => .ok none
  | i :: is =>
    match turn m upstreams health start i with
    | .error p => .error p
    | .ok none => scan m upstreams health start is
    | .ok (some r) => .ok (some r)

def choose (m : Overflow) (upstreams : List Addr) (health : List Bool) (start : BitVec w) :
    Except Panic (Option (Nat × Addr)) :=
  scan m upstreams health start (List.range upstreams.length)

def Balancer.nextHealthy (m : Overflow) (b : Balancer w Addr) :
    Except Panic (Option Addr) × Balancer w Addr :=
  ((choose m b.upstreams b.health b.counter).map (Option.map Prod.snd),
    { b with counter := b.counter + 1 })

inductive Call (w : Nat) (Addr : Type)
  | scanning (start : BitVec w) (i : Nat)
  | returned (found : Option (Nat × Addr))
  | panicked (p : Panic)
deriving DecidableEq, Repr

def Call.act (m : Overflow) (upstreams : List Addr) (health : List Bool) :
    Call w Addr → Option (Call w Addr)
  | .scanning start i =>
    if i < upstreams.length then
      match turn m upstreams health start i with
      | .error p => some (.panicked p)
      | .ok none => some (.scanning start (i + 1))
      | .ok (some r) => some (.returned (some r))
    else some (.returned none)
  | .returned _ | .panicked _ => none

/-- `Balancer::next_healthy` called by any number of tasks while something else stores the
flags. -/
def object (w : Nat) (m : Overflow) (upstreams : List Addr) (flags : M → List Bool)
    (env : M → E → Option M) : Object w M (Call w Addr) E where
  enter start := .scanning start 0
  act mem := Call.act m upstreams (flags mem)
  env := env

def frozen (w : Nat) (m : Overflow) (upstreams : List Addr) :
    Object w (List Bool) (Call w Addr) Empty :=
  object w m upstreams id (fun _ e => nomatch e)

def up (health : List Bool) (j : Nat) : Bool := health.getD j false

variable {w : Nat} {Addr : Type} {m : Overflow} {upstreams : List Addr} {health : List Bool}
  {start : BitVec w}

theorem Balancer.nextHealthy_iterate (m : Overflow) (b : Balancer w Addr) (c : Nat) :
    (fun b : Balancer w Addr => (b.nextHealthy m).2)^[c] b =
      { b with counter := b.counter + BitVec.ofNat w c } :=
  iterate_ticket (g := Balancer.mk b.upstreams b.health) (fun _ => rfl) b.counter c

theorem turn_ok (h : turn m upstreams health start i = .ok r) :
    ∃ sum, Usize.add m start i = some sum ∧
      match r with
      | none => health[sum % upstreams.length]? = some false
      | some (j, addr) => j = sum % upstreams.length ∧ health[j]? = some true ∧
          upstreams[j]? = some addr := by
  unfold turn at h
  split at h
  · cases h
  · next sum hsum =>
    refine ⟨sum, hsum, ?_⟩
    simp only at h
    split at h
    · cases h
    · next hf =>
      cases h
      exact index_eq_ok hf
    · next hf =>
      cases ha : index upstreams (sum % upstreams.length) with
      | error p =>
        rw [ha] at h
        cases h
      | ok addr =>
        rw [ha] at h
        cases h
        exact ⟨rfl, index_eq_ok hf, index_eq_ok ha⟩

theorem turn_eq (hlen : health.length = upstreams.length) (hn : 0 < upstreams.length)
    (hsum : Usize.add m start i = some sum) :
    turn m upstreams health start i =
      .ok (if up health (sum % upstreams.length) then
        (upstreams[sum % upstreams.length]?).map
          (fun addr => (sum % upstreams.length, addr)) else none) := by
  have hlt : sum % upstreams.length < upstreams.length := Nat.mod_lt _ hn
  have hlt' : sum % upstreams.length < health.length := by rwa [hlen]
  rw [turn, hsum]
  have hup : up health (sum % upstreams.length) = health[sum % upstreams.length] :=
    List.getD_eq_getElem _ _ hlt'
  rw [hup]
  simp only [index_of_lt hlt', index_of_lt hlt, List.getElem?_eq_getElem hlt]
  cases health[sum % upstreams.length] <;> rfl

theorem turn_ne_error (hlen : health.length = upstreams.length) (hi : i < upstreams.length)
    (hw : start.toNat + i < 2 ^ w) (p : Panic) :
    turn m upstreams health start i ≠ .error p := by
  have hn : 0 < upstreams.length := Nat.lt_of_le_of_lt (Nat.zero_le i) hi
  rw [turn_eq hlen hn (Usize.add_of_lt m hw)]
  exact nofun

inductive Acts (m : Overflow) (upstreams : List Addr) (health : List Bool) :
    Call w Addr → Call w Addr → Prop
  | exhausted : upstreams.length ≤ i →
      Acts m upstreams health (.scanning t i) (.returned none)
  | passed : i < upstreams.length → turn m upstreams health t i = .ok none →
      Acts m upstreams health (.scanning t i) (.scanning t (i + 1))
  | found : i < upstreams.length → turn m upstreams health t i = .ok (some r) →
      Acts m upstreams health (.scanning t i) (.returned (some r))
  | panicked : i < upstreams.length → turn m upstreams health t i = .error p →
      Acts m upstreams health (.scanning t i) (.panicked p)

theorem acts_of_act {x x' : Call w Addr} (h : Call.act m upstreams health x = some x') :
    Acts m upstreams health x x' := by
  cases x with
  | scanning start i =>
    simp only [Call.act] at h
    split at h
    · next hi =>
      split at h
      · next p hp =>
        cases h
        exact .panicked hi hp
      · next hp =>
        cases h
        exact .passed hi hp
      · next r hp =>
        cases h
        exact .found hi hp
    · next hi =>
      cases h
      exact .exhausted (Nat.le_of_not_lt hi)
  | returned r => cases h
  | panicked p => cases h

theorem act_scanning_ne_none (start : BitVec w) (i : Nat) :
    Call.act m upstreams health (.scanning start i) ≠ none := by
  intro h
  simp only [Call.act] at h
  split at h
  · split at h <;> cases h
  · cases h

def found (upstreams : List Addr) (j : Option Nat) : Option (Nat × Addr) :=
  j.bind (fun j => (upstreams[j]?).map (fun addr => (j, addr)))

theorem scan_eq (hlen : health.length = upstreams.length) (sum : Nat → Nat) {is : List Nat}
    (his : ∀ i ∈ is, i < upstreams.length ∧ Usize.add m start i = some (sum i)) :
    scan m upstreams health start is =
      .ok (found upstreams ((is.find? (fun i => up health (sum i % upstreams.length))).map
        (fun i => sum i % upstreams.length))) := by
  induction is with
  | nil => rfl
  | cons i is ih =>
    obtain ⟨hi, hsum⟩ := his i (by simp)
    have hn : 0 < upstreams.length := Nat.lt_of_le_of_lt (Nat.zero_le i) hi
    have hlt : sum i % upstreams.length < upstreams.length := Nat.mod_lt _ hn
    rw [scan, turn_eq hlen hn hsum, List.find?_cons]
    cases up health (sum i % upstreams.length) with
    | true => simp only [if_true, found, Option.map_some, Option.bind_some,
        List.getElem?_eq_getElem hlt]
    | false => exact ih (fun k hk => his k (by simp [hk]))

theorem choose_eq (hlen : health.length = upstreams.length)
    (hw : start.toNat + upstreams.length ≤ 2 ^ w) :
    choose m upstreams health start =
      .ok (found upstreams (firstFrom (up health) upstreams.length start.toNat)) :=
  scan_eq hlen (fun i => start.toNat + i) (fun i hi => by
    rw [List.mem_range] at hi
    exact ⟨hi, Usize.add_of_lt m (by omega)⟩)

theorem choose_first (hlen : health.length = upstreams.length) (hn : upstreams ≠ [])
    (hup : up health (start.toNat % upstreams.length) = true) :
    ∃ addr, upstreams[start.toNat % upstreams.length]? = some addr ∧
      choose m upstreams health start = .ok (some (start.toNat % upstreams.length, addr)) := by
  have hpos := List.length_pos_iff.2 hn
  have hlt := Nat.mod_lt start.toNat hpos
  have hturn := turn_eq hlen hpos (Usize.add_of_lt m (show start.toNat + 0 < 2 ^ w from start.isLt))
  rw [Nat.add_zero, hup, if_pos rfl, List.getElem?_eq_getElem hlt] at hturn
  refine ⟨upstreams[start.toNat % upstreams.length], List.getElem?_eq_getElem hlt, ?_⟩
  have hrange : List.range upstreams.length =
      0 :: (List.range (upstreams.length - 1)).map Nat.succ := by
    rw [← List.range_succ_eq_map, Nat.sub_add_cancel hpos]
  rw [choose, hrange, scan, hturn]
  rfl

def Agrees (m : Overflow) (upstreams : List Addr) (health : List Bool) (start : BitVec w) :
    Call w Addr → Prop
  | .scanning s i => s = start ∧ choose m upstreams health start =
      scan m upstreams health start (List.range' i (upstreams.length - i))
  | .returned r => choose m upstreams health start = .ok r
  | .panicked p => choose m upstreams health start = .error p

theorem range'_offsets (hi : i < n) :
    List.range' i (n - i) = i :: List.range' (i + 1) (n - (i + 1)) := by
  rw [← Nat.sub_add_cancel (Nat.sub_pos_of_lt hi), List.range'_succ, Nat.sub_sub]

theorem agrees_act (h : Agrees m upstreams health start x)
    (hx : Call.act m upstreams health x = some x') : Agrees m upstreams health start x' := by
  cases acts_of_act hx with
  | exhausted hi =>
    obtain ⟨rfl, hscan⟩ := h
    rw [Nat.sub_eq_zero_of_le hi] at hscan
    exact hscan
  | passed hi hp =>
    obtain ⟨rfl, hscan⟩ := h
    rw [range'_offsets hi, scan, hp] at hscan
    exact ⟨rfl, hscan⟩
  | found hi hp =>
    obtain ⟨rfl, hscan⟩ := h
    rwa [range'_offsets hi, scan, hp] at hscan
  | panicked hi hp =>
    obtain ⟨rfl, hscan⟩ := h
    rwa [range'_offsets hi, scan, hp] at hscan

theorem frozen_keeps (m : Overflow) (upstreams : List Addr) (health : List Bool) (t : BitVec w) :
    (frozen w m upstreams).Keeps t (fun h => h = health)
      (fun c _ x => Agrees m upstreams health (t + BitVec.ofNat w c) x) where
  enter _ _ _ := ⟨rfl, by rw [Nat.sub_zero, choose, List.range_eq_range']⟩
  act _ _ _ _ hm hJ hx := agrees_act hJ (hm ▸ hx)
  env _ e := nomatch e
  stable _ _ e := nomatch e

end C

end ReverseProxy
