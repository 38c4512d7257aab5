import ReverseProxy.Answering
import ReverseProxy.Shutdown

namespace ReverseProxy.AcceptLoop
open HttpHead Runs Usize
set_option autoImplicit true

/-- The connection's `handle_connection` has not ended, or its decrement is still to come. -/
def Task.counted : Task → Bool
  | .handling _ | .ended _ | .cancelled _ => true
  | .done | .panicked => false

def State.count (s : State w) : Nat := s.tasks.countP Task.counted

def Label.isPanic : Label → Bool
  | .panic _ => true
  | _ => false

variable {w : Nat} {s s' : State w}

theorem count_setTask (hu : s.tasks[i]? = some u) (t : Task) :
    (s.setTask i t).count + u.counted.toNat = s.count + t.counted.toNat := by
  obtain ⟨hlt, rfl⟩ := List.getElem?_eq_some_iff.1 hu
  have hpos : s.tasks[i].counted = true → 0 < s.tasks.countP Task.counted := fun h =>
    List.countP_pos_iff.2 ⟨_, List.getElem_mem hlt, h⟩
  simp only [State.count, State.setTask, List.countP_set hlt]
  cases hc : s.tasks[i].counted with
  | false => cases t.counted <;> rfl
  | true =>
    have := hpos hc
    cases t.counted <;> simp <;> omega

theorem count_endProcess (s : State w) (p : Phase) : (s.endProcess p).count = s.count := by
  have hcancel : Task.counted ∘ Task.cancel = Task.counted := by
    funext t
    cases t <;> rfl
  simp only [State.count, State.endProcess, List.countP_map, hcancel]

theorem step_count (h : step m s l = some s') :
    match l with
    | .accept _ => s'.active = s.active + 1 ∧ s'.count = s.count + 1
    | .panic _ => s'.active = s.active ∧ s.count = s'.count + 1
    | .decrement _ => s'.active = s.active - 1 ∧ s.count = s'.count + 1
    | _ => s'.active = s.active ∧ s'.count = s.count := by
  have he := step_effect h
  cases l with
  | poll =>
    obtain ⟨_, rfl⟩ := he
    exact ⟨rfl, rfl⟩
  | accept polled =>
    obtain ⟨_, rfl⟩ := he
    exact ⟨rfl, List.countP_append⟩
  | acceptError =>
    obtain ⟨_, rfl⟩ := he
    exact ⟨rfl, count_endProcess s _⟩
  | signal =>
    rcases he with ⟨_, _, rfl⟩ | ⟨_, _, rfl⟩ | ⟨f, _, rfl⟩ | ⟨_, rfl⟩
    · exact ⟨rfl, rfl⟩
    · exact ⟨rfl, count_endProcess s _⟩
    · exact ⟨rfl, rfl⟩
    · exact ⟨rfl, rfl⟩
  | takeShutdown =>
    obtain ⟨_, rfl⟩ := he
    exact ⟨rfl, rfl⟩
  | mainReturns =>
    obtain ⟨_, rfl⟩ := he
    exact ⟨rfl, count_endProcess s _⟩
  | advance i =>
    obtain ⟨k, hu, rfl⟩ := he
    exact ⟨rfl, Nat.add_right_cancel (count_setTask hu (.handling (k + 1)))⟩
  | finish i failed =>
    obtain ⟨k, hu, rfl⟩ := he
    exact ⟨rfl, Nat.add_right_cancel (count_setTask hu (.ended failed))⟩
  | panic i =>
    obtain ⟨k, hu, rfl⟩ := he
    exact ⟨rfl, (count_setTask hu .panicked).symm⟩
  | decrement i =>
    obtain ⟨failed, t, hu, rfl, rfl⟩ := he
    refine ⟨rfl, ?_⟩
    have hcount := count_setTask hu
      (if (Usize.sub m s.active 1).isSome then Task.done else Task.panicked)
    have hover : (if (Usize.sub m s.active 1).isSome then Task.done else Task.panicked).counted =
        false := by split <;> rfl
    rw [hover] at hcount
    exact hcount.symm

theorem ofNat_succ_sub_one (n : Nat) : BitVec.ofNat w (n + 1) - 1 = BitVec.ofNat w n := by
  rw [BitVec.ofNat_add]
  exact BitVec.add_sub_cancel _ _

theorem step_active {p : Nat} (hs : s.active = BitVec.ofNat w (s.count + p))
    (h : step m s l = some s') :
    s'.active = BitVec.ofNat w (s'.count + (p + l.isPanic.toNat)) := by
  have hc := step_count h
  cases l with
  | accept polled =>
    obtain ⟨ha, hc⟩ := hc
    rw [ha, hc, hs, Nat.add_right_comm, BitVec.ofNat_add _ 1]
    rfl
  | panic i =>
    obtain ⟨ha, hc⟩ := hc
    rw [ha, hs, hc, Nat.add_assoc, Nat.add_comm 1 p]
    rfl
  | decrement i =>
    obtain ⟨ha, hc⟩ := hc
    rw [ha, hs, hc, Nat.add_right_comm, ofNat_succ_sub_one]
    rfl
  | _ =>
    obtain ⟨ha, hc⟩ := hc
    rw [ha, hc, hs]
    rfl

theorem run_active {p : Nat} (hs : s.active = BitVec.ofNat w (s.count + p))
    (hr : run (step m) s ls = some s') :
    s'.active = BitVec.ofNat w (s'.count + (p + ls.countP Label.isPanic)) := by
  induction ls generalizing s p with
  | nil =>
    cases hr
    exact hs
  | cons l ls ih =>
    obtain ⟨u, hl, hr⟩ := run_cons_eq_some.1 hr
    rw [ih (step_active hs hl) hr, List.countP_cons, Nat.add_assoc p, Nat.add_comm l.isPanic.toNat]
    cases l.isPanic <;> rfl

/-- No `handle_connection` panics, and no accept takes the counter out of its word. -/
def Counts (s : State w) (l : Label) : Prop :=
  (∀ i, l ≠ .panic i) ∧ ∀ polled, l = .accept polled → s.active.toNat + 1 < 2 ^ w

theorem step_exact (hs : s.active.toNat = s.count) (hl : Counts s l)
    (h : step m s l = some s') : s'.active.toNat = s'.count := by
  have hc := step_count h
  cases l with
  | accept polled =>
    obtain ⟨ha, hc⟩ := hc
    have hw := hl.2 polled rfl
    have hadd := Tickets.toNat_add_ticket hw
    rw [ha, hc, ← hs]
    exact hadd
  | decrement i =>
    obtain ⟨ha, hc⟩ := hc
    have hlt := s.active.isLt
    have hactive : s.active = BitVec.ofNat w (s'.count + 1) := by
      rw [← hc, ← hs, BitVec.ofNat_toNat, BitVec.setWidth_eq]
    rw [ha, hactive, ofNat_succ_sub_one, BitVec.toNat_ofNat, Nat.mod_eq_of_lt (by omega)]
  | panic i => exact (hl.1 i rfl).elim
  | _ =>
    obtain ⟨ha, hc⟩ := hc
    rw [ha, hc, hs]

/-- `active` is what it is meant to be: the decrement of a task that has ended does not underflow,
and the counter comes back to 0. -/
structure Exact (s : State w) : Prop where
  count : s.active.toNat = s.count
  noUnderflow : ∀ (i : Nat) (failed : Bool), s.tasks[i]? = some (.ended failed) → 1 ≤ s.active.toNat
  idle : (∀ t ∈ s.tasks, t = .done ∨ t = .panicked) → s.active = 0

theorem exact_of_count (hs : s.active.toNat = s.count) : Exact s where
  count := hs
  noUnderflow i failed hu := by
    rw [hs]
    exact List.countP_pos_iff.2 ⟨_, List.mem_of_getElem? hu, rfl⟩
  idle hover := by
    have hzero : s.count = 0 := by
      apply List.countP_eq_zero.2
      intro t ht
      rcases hover t ht with rfl | rfl <;> exact Bool.false_ne_true
    apply BitVec.eq_of_toNat_eq
    rw [hs, hzero]
    exact BitVec.toNat_zero.symm

/-- As long as no `handle_connection` panics, the counter is exact; one that does is counted for
ever after. -/
theorem active_exact (m : Overflow) (ls : List Label) (s : State w)
    (hr : run (step m) (start w) ls = some s) :
    (Along (step m) Counts (start w) ls → Exact s) ∧
      s.active = BitVec.ofNat w (s.count + ls.countP Label.isPanic) := by
  constructor
  · intro ha
    apply exact_of_count
    exact run_invariant_along (I := fun u : State w => u.active.toNat = u.count)
      (fun _ _ _ hs hl h => step_exact hs hl h) BitVec.toNat_zero ha hr
  · have := run_active (p := 0) rfl hr
    rwa [Nat.zero_add] at this

theorem active_exact_ended :
    ∃ s : State 64, run (step .checked) (start 64)
        [.poll, .accept false, .accept false, .finish 1 true] = some s ∧
      s.tasks = [.handling 0, .ended true] ∧ Exact s := by
  refine ⟨⟨.selecting, true, 2, [.handling 0, .ended true]⟩, by decide, rfl, ?_⟩
  apply (active_exact .checked [.poll, .accept false, .accept false, .finish 1 true] _
    (by decide)).1
  refine ⟨⟨nofun, nofun⟩, fun s₁ h₁ => ?_⟩
  cases h₁
  refine ⟨⟨nofun, fun _ _ => by decide⟩, fun s₂ h₂ => ?_⟩
  cases h₂
  refine ⟨⟨nofun, fun _ _ => by decide⟩, fun s₃ h₃ => ?_⟩
  cases h₃
  exact ⟨⟨nofun, nofun⟩, fun _ _ => trivial⟩

/-- Option C's handler can panic, where the ticket counter is about to wrap; the task is over, and
the connection stays counted. -/
theorem active_after_panic :
    (C.handleConnection .checked Httparse.grammarParser id .succeeded
        (exchange [shortRequest] shortRequest_ne [])
        (⟨[ascii "192.0.2.7:80", ascii "192.0.2.8:80"], [true, false], BitVec.allOnes 64⟩ :
          C.Balancer 64 Bytes)).1.ended = .panicked .overflow ∧
      ∃ s : State 64, run (step .checked) (start 64) [.poll, .accept false, .panic 0] = some s ∧
        (∀ t ∈ s.tasks, t = .done ∨ t = .panicked) ∧ s.active = 1 ∧ ¬ Exact s := by
  refine ⟨rfl, ⟨.selecting, true, 1, [.panicked]⟩, by decide, by decide, rfl, fun h => ?_⟩
  have := h.count
  revert this
  decide

end ReverseProxy.AcceptLoop
