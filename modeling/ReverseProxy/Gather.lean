import ReverseProxy.Runs
import ReverseProxy.Updates

namespace Gather
open Runs Updates
set_option autoImplicit true

/-- A worker has a sender of its own until it ends. -/
inductive Worker (α : Type)
  | working
  | sending (a : α)
  | sent (a : α)
  | ended (a : α)

/-- The collector spawns its workers, drops its own sender and receives until the channel is
closed. -/
inductive Phase
  | spawning
  | collecting
  | collected
deriving DecidableEq, Repr

structure State (α : Type) where
  phase : Phase
  workers : List (Worker α)
  buffer : List α
  senders : Nat
  received : List α

inductive Label (α : Type)
  | spawn
  | dropSender
  | finish (i : Nat) (a : α)
  | send (i : Nat)
  | leave (i : Nat)
  | receive
  | close

def start : State α := ⟨.spawning, [], [], 1, []⟩

/-- Worker `i` of `n` makes one message and sends it over a channel that holds `capacity` of them.
The channel is taken to be as documented: it is closed when its last sender is dropped, and what it
holds can still be received. -/
def step (n capacity : Nat) (makes : Nat → α → Bool) (s : State α) : Label α → Option (State α)
  | .spawn =>
    if s.phase = .spawning ∧ s.workers.length < n then
      some { s with workers := s.workers ++ [.working], senders := s.senders + 1 }
    else none
  | .dropSender =>
    if s.phase = .spawning ∧ s.workers.length = n then
      some { s with phase := .collecting, senders := s.senders - 1 }
    else none
  | .finish i a =>
    match s.workers[i]? with
    | some .working =>
      if makes i a then some { s with workers := s.workers.set i (.sending a) } else none
    | _ => none
  | .send i =>
    match s.workers[i]? with
    | some (.sending a) =>
      if s.buffer.length < capacity then
        some { s with workers := s.workers.set i (.sent a), buffer := s.buffer ++ [a] }
      else none
    | _ => none
  | .leave i =>
    match s.workers[i]? with
    | some (.sent a) =>
      some { s with workers := s.workers.set i (.ended a), senders := s.senders - 1 }
    | _ => none
  | .receive =>
    match s.phase, s.buffer with
    | .collecting, a :: buffer =>
      some { s with buffer := buffer, received := s.received ++ [a] }
    | _, _ => none
  | .close =>
    if s.phase = .collecting ∧ s.buffer = [] ∧ s.senders = 0 then
      some { s with phase := .collected }
    else none

inductive Effect (n capacity : Nat) (makes : Nat → α → Bool) (s : State α) : State α → Prop
  | spawn : s.phase = .spawning → s.workers.length < n → Effect n capacity makes s
      { s with workers := s.workers ++ [.working], senders := s.senders + 1 }
  | dropSender : s.phase = .spawning → s.workers.length = n → Effect n capacity makes s
      { s with phase := .collecting, senders := s.senders - 1 }
  | finish : s.workers[i]? = some .working → makes i a = true → Effect n capacity makes s
      { s with workers := s.workers.set i (.sending a) }
  | send : s.workers[i]? = some (.sending a) → s.buffer.length < capacity →
      Effect n capacity makes s
        { s with workers := s.workers.set i (.sent a), buffer := s.buffer ++ [a] }
  | leave : s.workers[i]? = some (.sent a) → Effect n capacity makes s
      { s with workers := s.workers.set i (.ended a), senders := s.senders - 1 }
  | receive : s.phase = .collecting → s.buffer = a :: buffer → Effect n capacity makes s
      { s with buffer := buffer, received := s.received ++ [a] }
  | close : s.phase = .collecting → s.buffer = [] → s.senders = 0 → Effect n capacity makes s
      { s with phase := .collected }

variable {α : Type} {n capacity : Nat} {makes : Nat → α → Bool} {s s' : State α}

theorem step_effect (h : step n capacity makes s l = some s') :
    Effect n capacity makes s s' := by
  cases l with
  | spawn =>
    obtain ⟨⟨hp, hlt⟩, he⟩ := Option.ite_none_right_eq_some.1 h
    cases he
    exact .spawn hp hlt
  | dropSender =>
    obtain ⟨⟨hp, hn⟩, he⟩ := Option.ite_none_right_eq_some.1 h
    cases he
    exact .dropSender hp hn
  | finish i a =>
    simp only [step] at h
    split at h
    · next hw =>
      obtain ⟨ha, he⟩ := Option.ite_none_right_eq_some.1 h
      cases he
      exact .finish hw ha
    · cases h
  | send i =>
    simp only [step] at h
    split at h
    · next a hw =>
      obtain ⟨hlt, he⟩ := Option.ite_none_right_eq_some.1 h
      cases he
      exact .send hw hlt
    · cases h
  | leave i =>
    simp only [step] at h
    split at h
    · next a hw =>
      cases h
      exact .leave hw
    · cases h
  | receive =>
    simp only [step] at h
    split at h
    · next a buffer hp hb =>
      cases h
      exact .receive hp hb
    · cases h
  | close =>
    obtain ⟨⟨hp, hb, hs⟩, he⟩ := Option.ite_none_right_eq_some.1 h
    cases he
    exact .close hp hb hs

def Worker.made : Worker α → Option α
  | .working => none
  | .sending a | .sent a | .ended a => some a

def Worker.message : Worker α → Option α
  | .working | .sending _ => none
  | .sent a | .ended a => some a

def Worker.senders : Worker α → Nat
  | .ended _ => 0
  | .working | .sending _ | .sent _ => 1

def Phase.senders : Phase → Nat
  | .spawning => 1
  | .collecting | .collected => 0

/-- The channel has lost and made up nothing, and it knows who may still send. -/
structure Inv (n : Nat) (makes : Nat → α → Bool) (s : State α) : Prop where
  messages : (s.received ++ s.buffer).Perm (s.workers.filterMap Worker.message)
  senders : s.senders = s.phase.senders + (s.workers.map Worker.senders).sum
  made : ∀ (i : Nat) w a, s.workers[i]? = some w → w.made = some a → makes i a = true
  length : s.workers.length ≤ n
  spawned : s.phase ≠ .spawning → s.workers.length = n
  closed : s.phase = .collected → s.buffer = [] ∧ s.senders = 0

theorem made_set {workers : List (Worker α)} {w' : Worker α}
    (h : ∀ (i : Nat) w a, workers[i]? = some w → w.made = some a → makes i a = true)
    (h' : ∀ a, w'.made = some a → makes j a = true) :
    ∀ (i : Nat) w a, (workers.set j w')[i]? = some w → w.made = some a → makes i a = true := by
  intro i w a hw ha
  by_cases hij : j = i
  · subst hij
    have hlt : j < workers.length := by
      have hlt := (List.getElem?_eq_some_iff.1 hw).1
      rwa [List.length_set] at hlt
    rw [List.getElem?_set_self hlt] at hw
    cases hw
    exact h' a ha
  · rw [List.getElem?_set_ne hij] at hw
    exact h i w a hw ha

theorem Inv.step (h : Inv n makes s) (hs : step n capacity makes s l = some s') :
    Inv n makes s' := by
  cases step_effect hs with
  | spawn hp hlt =>
    refine ⟨?_, ?_, fun i w a hw ha => ?_, ?_, fun hne => (hne hp).elim,
      fun hc => nomatch hp.symm.trans hc⟩
    · rw [List.filterMap_append]
      exact (List.append_nil _).symm ▸ h.messages
    · simp only [List.map_append, List.sum_append, h.senders]
      rfl
    · rcases Nat.lt_or_ge i s.workers.length with hi | hi
      · rw [List.getElem?_append_left hi] at hw
        exact h.made i w a hw ha
      · rw [List.getElem?_append_right hi] at hw
        cases List.mem_singleton.1 (List.mem_of_getElem? hw)
        cases ha
    · rw [List.length_append]
      exact hlt
  | dropSender hp hn =>
    refine ⟨h.messages, ?_, h.made, h.length, fun _ => hn, nofun⟩
    have hsenders := h.senders
    rw [hp] at hsenders
    change s.senders - 1 = 0 + (s.workers.map Worker.senders).sum
    change s.senders = 1 + (s.workers.map Worker.senders).sum at hsenders
    omega
  | @finish i a hw ha =>
    have hmessages : (s.workers.set i (.sending a)).filterMap Worker.message = _ :=
      filterMap_set hw rfl
    refine ⟨hmessages ▸ h.messages, ?_, made_set h.made (fun b hb => by cases hb; exact ha),
      List.length_set.trans_le h.length, fun hne => List.length_set.trans (h.spawned hne), h.closed⟩
    rw [h.senders, Nat.add_right_cancel (sum_map_set (f := Worker.senders) hw (.sending a))]
  | @send i a hw hlt =>
    refine ⟨?_, ?_, made_set h.made (fun b hb => h.made i _ b hw hb),
      List.length_set.trans_le h.length, fun hne => List.length_set.trans (h.spawned hne),
      fun hc => ?_⟩
    · rw [← List.append_assoc]
      exact (h.messages.append_right [a]).trans
        (filterMap_set_perm (f := Worker.message) hw rfl rfl).symm
    · rw [h.senders, Nat.add_right_cancel (sum_map_set (f := Worker.senders) hw (.sent a))]
    · -- a channel with a sender left is not closed
      have hzero := (h.closed hc).2
      have hsum := sum_map_set (f := Worker.senders) hw (.ended a)
      rw [h.senders] at hzero
      change _ + 1 = _ + 0 at hsum
      omega
  | @leave i a hw =>
    have hmessages : (s.workers.set i (.ended a)).filterMap Worker.message = _ :=
      filterMap_set hw rfl
    refine ⟨hmessages ▸ h.messages, ?_, made_set h.made (fun b hb => h.made i _ b hw hb),
      List.length_set.trans_le h.length, fun hne => List.length_set.trans (h.spawned hne),
      fun hc => ⟨(h.closed hc).1, by simp only [(h.closed hc).2]⟩⟩
    have hsum := sum_map_set (f := Worker.senders) hw (.ended a)
    have hsenders := h.senders
    change _ + 1 = _ + 0 at hsum
    simp only
    omega
  | receive hp hb =>
    refine ⟨?_, h.senders, h.made, h.length, h.spawned, fun hc => nomatch hp.symm.trans hc⟩
    have hm := h.messages
    rw [hb] at hm
    rwa [List.append_assoc]
  | close hp hb hz =>
    refine ⟨h.messages, ?_, h.made, h.length, fun _ => h.spawned (by rw [hp]; nofun),
      fun _ => ⟨hb, hz⟩⟩
    have hsenders := h.senders
    rw [hp] at hsenders
    exact hsenders

def Worker.left : Worker α → Nat
  | .working => 4
  | .sending _ => 3
  | .sent _ => 1
  | .ended _ => 0

def Phase.left : Phase → Nat
  | .spawning => 2
  | .collecting => 1
  | .collected => 0

/-- How many steps are left; a message in the channel has one more to come. -/
def State.left (n : Nat) (s : State α) : Nat :=
  5 * (n - s.workers.length) + (s.workers.map Worker.left).sum + s.buffer.length + s.phase.left

theorem exists_open {workers : List (Worker α)} (h : (workers.map Worker.senders).sum ≠ 0) :
    ∃ (i : Nat) (w : Worker α), workers[i]? = some w ∧ ∀ a, w ≠ .ended a := by
  induction workers with
  | nil => exact (h rfl).elim
  | cons w workers ih =>
    cases w with
    | ended a =>
      rw [List.map_cons, List.sum_cons] at h
      obtain ⟨i, w, hw, hne⟩ := ih (fun hz => h (by rw [hz]; rfl))
      exact ⟨i + 1, w, hw, hne⟩
    | working => exact ⟨0, _, rfl, nofun⟩
    | sending a => exact ⟨0, _, rfl, nofun⟩
    | sent a => exact ⟨0, _, rfl, nofun⟩

theorem step_left (hs : step n capacity makes s l = some s') : s'.left n < s.left n := by
  cases step_effect hs with
  | spawn hp hlt =>
    simp only [State.left, List.length_append, List.map_append, List.sum_append,
      List.length_singleton, List.map_singleton, List.sum_singleton, Worker.left]
    omega
  | dropSender hp hn =>
    simp only [State.left, hp, Phase.left]
    omega
  | @finish i a hw ha =>
    have hsum := sum_map_set (f := Worker.left) hw (.sending a)
    simp only [State.left, List.length_set, Worker.left] at hsum ⊢
    omega
  | @send i a hw hlt =>
    have hsum := sum_map_set (f := Worker.left) hw (.sent a)
    simp only [State.left, List.length_set, List.length_append, List.length_singleton,
      Worker.left] at hsum ⊢
    omega
  | @leave i a hw =>
    have hsum := sum_map_set (f := Worker.left) hw (.ended a)
    simp only [State.left, List.length_set, Worker.left] at hsum ⊢
    omega
  | receive hp hb =>
    simp only [State.left, hb, List.length_cons]
    omega
  | close hp hb hz =>
    simp only [State.left, hp, Phase.left]
    omega

/-- Somebody can go on for as long as the collector is not done: the channel does not deadlock. -/
theorem exists_step (hcap : 0 < capacity) (hmakes : ∀ i < n, ∃ a, makes i a = true)
    (h : Inv n makes s) (hc : s.phase ≠ .collected) :
    ∃ l s', step n capacity makes s l = some s' := by
  cases hp : s.phase with
  | collected => exact (hc hp).elim
  | spawning =>
    rcases Nat.lt_or_ge s.workers.length n with hlt | hle
    · exact ⟨.spawn, _, if_pos ⟨hp, hlt⟩⟩
    · exact ⟨.dropSender, _, if_pos ⟨hp, Nat.le_antisymm h.length hle⟩⟩
  | collecting =>
    cases hb : s.buffer with
    | cons a buffer =>
      refine ⟨.receive, { s with buffer := buffer, received := s.received ++ [a] }, ?_⟩
      simp only [step, hp, hb]
    | nil =>
      by_cases hz : s.senders = 0
      · exact ⟨.close, _, if_pos ⟨hp, hb, hz⟩⟩
      · rw [h.senders, hp, Phase.senders, Nat.zero_add] at hz
        obtain ⟨i, w, hw, hne⟩ := exists_open hz
        cases w with
        | ended a => exact (hne a rfl).elim
        | working =>
          have hlt : i < n := by
            rw [← h.spawned (by rw [hp]; nofun)]
            exact (List.getElem?_eq_some_iff.1 hw).1
          obtain ⟨a, ha⟩ := hmakes i hlt
          refine ⟨.finish i a, { s with workers := s.workers.set i (.sending a) }, ?_⟩
          simp only [step, hw, ha, if_true]
        | sending a =>
          refine ⟨.send i, { s with workers := s.workers.set i (.sent a), buffer := [a] }, ?_⟩
          simp only [step, hw, hb, List.length_nil, hcap, if_true, List.nil_append]
        | sent a =>
          refine ⟨.leave i,
            { s with workers := s.workers.set i (.ended a), senders := s.senders - 1 }, ?_⟩
          simp only [step, hw]

end Gather
