import Mathlib.Data.List.Nodup
import Mathlib.Data.String.Basic
import ReverseProxy.Gather

namespace ReverseProxy.UrlChecker
open Runs Gather
set_option autoImplicit true

structure Target where
  url : String
  willFail : Bool

structure HealthResult where
  url : String
  status : String
  durationMs : Nat
deriving DecidableEq, Repr

/-- How long the simulated check sleeps is left to `timeout`. -/
def checkUrl (willFail : Bool) : Except String Nat :=
  if willFail then .error "Connection refused" else .ok 200

/-- The text for what `timeout` returned: nothing when the second was over first. -/
def status : Option (Except String Nat) → String
  | some (.ok code) => s!"OK ({code})"
  | some (.error e) => s!"FAIL - {e}"
  | none => "TIMEOUT (>1s)"

def answers (urls : List Target) (i : Nat) (r : HealthResult) : Bool :=
  match urls[i]? with
  | some t =>
    r.url == t.url && (r.status == status (some (checkUrl t.willFail)) || r.status == status none)
  | none => false

/-- The channel has room for one result for each URL. -/
def step (urls : List Target) : State HealthResult → Label HealthResult →
    Option (State HealthResult) :=
  Gather.step urls.length urls.length (answers urls)

def startsWith (s p : String) : Bool :=
  p.toList.isPrefixOf s.toList

structure Table where
  rows : List (String × HealthResult)
  okCount : Nat
  failCount : Nat
  timeoutCount : Nat
deriving DecidableEq, Repr

def Table.add (t : Table) (r : HealthResult) : Table :=
  if startsWith r.status "OK" then
    { t with rows := t.rows ++ [("[OK]", r)], okCount := t.okCount + 1 }
  else if startsWith r.status "TIMEOUT" then
    { t with rows := t.rows ++ [("[!!]", r)], timeoutCount := t.timeoutCount + 1 }
  else
    { t with rows := t.rows ++ [("[XX]", r)], failCount := t.failCount + 1 }

inductive Outcome
  | ok
  | fail
  | timeout
deriving DecidableEq, Repr

def Outcome.text : Outcome → String
  | .ok => status (some (checkUrl false))
  | .fail => status (some (checkUrl true))
  | .timeout => status none

def Outcome.indicator : Outcome → String
  | .ok => "[OK]"
  | .fail => "[XX]"
  | .timeout => "[!!]"

def Table.count (t : Table) (o : Outcome) : Nat :=
  t.rows.countP fun row => row.1 == o.indicator

structure Table.Counts (t : Table) : Prop where
  indicators : ∀ row ∈ t.rows, ∃ o : Outcome, row.2.status = o.text ∧ row.1 = o.indicator
  ok : t.okCount = t.count .ok
  fail : t.failCount = t.count .fail
  timeout : t.timeoutCount = t.count .timeout
  total : t.okCount + t.failCount + t.timeoutCount = t.rows.length

def Outcome.adds (o o' : Outcome) : Nat :=
  if o = o' then 1 else 0

theorem add_text {t : Table} {r : HealthResult} {o : Outcome} (h : r.status = o.text) :
    t.add r = ⟨t.rows ++ [(o.indicator, r)], t.okCount + o.adds .ok, t.failCount + o.adds .fail,
      t.timeoutCount + o.adds .timeout⟩ := by
  cases o with
  | ok =>
    have hok : startsWith r.status "OK" = true := by rw [h]; decide
    rw [Table.add, if_pos hok]
    rfl
  | fail =>
    have hok : ¬startsWith r.status "OK" = true := by rw [h]; decide
    have htimeout : ¬startsWith r.status "TIMEOUT" = true := by rw [h]; decide
    rw [Table.add, if_neg hok, if_neg htimeout]
    rfl
  | timeout =>
    have hok : ¬startsWith r.status "OK" = true := by rw [h]; decide
    have htimeout : startsWith r.status "TIMEOUT" = true := by rw [h]; decide
    rw [Table.add, if_neg hok, if_pos htimeout]
    rfl

theorem count_append {t t' : Table} {o : Outcome} (h : t'.rows = t.rows ++ [(o.indicator, r)])
    (o' : Outcome) : t'.count o' = t.count o' + o.adds o' := by
  rw [Table.count, Table.count, h, List.countP_append, List.countP_singleton]
  cases o <;> cases o' <;> rfl

theorem Table.Counts.add {t : Table} {r : HealthResult} {o : Outcome} (h : t.Counts)
    (ho : r.status = o.text) : (t.add r).Counts := by
  rw [add_text ho]
  refine ⟨fun row hrow => ?_, ?_, ?_, ?_, ?_⟩
  · rcases List.mem_append.1 hrow with hrow | hrow
    · exact h.indicators row hrow
    · cases List.mem_singleton.1 hrow
      exact ⟨o, ho, rfl⟩
  · rw [count_append rfl .ok, h.ok]
  · rw [count_append rfl .fail, h.fail]
  · rw [count_append rfl .timeout, h.timeout]
  · have hone : o.adds .ok + o.adds .fail + o.adds .timeout = 1 := by cases o <;> rfl
    have htotal := h.total
    simp only [List.length_append, List.length_singleton]
    omega

theorem answers_text (h : answers urls i r = true) :
    ∃ t o, urls[i]? = some t ∧ r.url = t.url ∧ r.status = Outcome.text o := by
  unfold answers at h
  split at h
  · next t ht =>
    rw [Bool.and_eq_true, Bool.or_eq_true, beq_iff_eq, beq_iff_eq, beq_iff_eq] at h
    obtain ⟨hurl, hstatus | hstatus⟩ := h
    · cases hfail : t.willFail with
      | true => exact ⟨t, .fail, ht, hurl, by rw [hstatus, hfail]; rfl⟩
      | false => exact ⟨t, .ok, ht, hurl, by rw [hstatus, hfail]; rfl⟩
    · exact ⟨t, .timeout, ht, hurl, hstatus⟩
  · cases h

/-- One result for each URL, by the task spawned for it. -/
def Answered (urls : List Target) (results : List HealthResult) : Prop :=
  results.length = urls.length ∧ ∀ (i : Nat) r, results[i]? = some r → answers urls i r = true

theorem Answered.text (h : Answered urls results) (hr : r ∈ results) :
    ∃ o : Outcome, r.status = o.text := by
  obtain ⟨i, hi⟩ := List.getElem?_of_mem hr
  obtain ⟨t, o, ht, hurl, ho⟩ := answers_text (h.2 i r hi)
  exact ⟨o, ho⟩

end ReverseProxy.UrlChecker
