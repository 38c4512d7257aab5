import ReverseProxy.Copying
import ReverseProxy.HttpHead
import ReverseProxy.Sessions

namespace ReverseProxy.TokioCopy
open HttpHead Relay Runs Segments
set_option autoImplicit true

structure Exchange where
  client : Party UInt8
  connects : Bool
  upstream : Party UInt8

/-- Both copies of a session, once there are any. The write halves of its streams are dropped, and
so shut down, when it has ended. -/
inductive Session (S : Type)
  | accepted
  | copying (up down : S)
  | ended (copies : Option (S × S))

inductive Act (L : Type)
  | connect
  | up (l : L)
  | down (l : L)
  | join

variable {S L : Type}

/-- The task that `main` spawns for a client, with `copy` for `io::copy`: `join!` waits for both
copies, and prints what came of them. -/
def Session.step (copy : Pump S L UInt8) (x : Exchange) :
    Session S → Act L → Option (Session S)
  | .accepted, .connect =>
    if x.connects then some (.copying (copy.start x.client.sends) (copy.start x.upstream.sends))
    else some (.ended none)
  | .copying up down, .up l =>
    (copy.step x.upstream.takes up l).map (fun up => .copying up down)
  | .copying up down, .down l =>
    (copy.step x.client.takes down l).map (fun down => .copying up down)
  | .copying up down, .join =>
    match copy.result up, copy.result down with
    | some _, some _ => some (.ended (some (up, down)))
    | _, _ => none
  | _, _ => none

def main (copy : Pump S L UInt8) : Sessions.State Exchange (Session S) →
    Sessions.Label Exchange (Act L) → Option (Sessions.State Exchange (Session S)) :=
  Sessions.step (fun _ => .accepted) (Session.step copy)

def Session.copies : Session S → Option (S × S)
  | .accepted => none
  | .copying up down => some (up, down)
  | .ended copies => copies

def Act.fails (copy : Pump S L UInt8) : Act L → Bool
  | .connect | .join => false
  | .up l | .down l => copy.fails l

/-- A copy's result, with what it says of its two streams. -/
inductive Closes (copy : Pump S L UInt8) (source : Stream UInt8) (s : S) : Prop
  | copied : copy.result s = some (.ok source.contents.length) →
      (copy.flow s).written = source.contents → source.ending = .eof → Closes copy source s
  | readFailed : copy.result s = some (.error .read) → source.ending = .error →
      Closes copy source s
  | writeFailed : copy.result s = some (.error .write) → Closes copy source s

/-- Either end gets what the other one sends, from its start and in order, but learns of the end of
it only when both directions are over. -/
structure Relays (copy : Pump S L UInt8) (x : Exchange) (a : Session S) : Prop where
  carries : ∀ up down, a.copies = some (up, down) → x.connects = true ∧
    copy.Carries x.client.sends x.upstream.takes up ∧
    copy.Carries x.upstream.sends x.client.takes down
  joined : ∀ up down, a = .ended (some (up, down)) →
    Closes copy x.client.sends up ∧ Closes copy x.upstream.sends down

variable {copy : Pump S L UInt8} {x : Exchange} {a a' : Session S} {up down : S}

theorem closes_of_result {source : Stream UInt8} {s : S} (h : copy.Carries source takes s)
    (hr : copy.result s = some r) : Closes copy source s := by
  rcases r with (_ | _) | n
  · exact .readFailed hr (h.failed hr)
  · exact .writeFailed hr
  · obtain ⟨hwritten, hending, rfl⟩ := h.copied n hr
    exact .copied hr hwritten hending

theorem accepted_relays (x : Exchange) : Relays copy x .accepted :=
  ⟨fun _ _ he => (by cases he), fun _ _ he => (by cases he)⟩

theorem copying_relays (hconnects : x.connects = true)
    (hu : copy.Carries x.client.sends x.upstream.takes up)
    (hd : copy.Carries x.upstream.sends x.client.takes down) :
    Relays copy x (.copying up down) := by
  refine ⟨fun _ _ he => ?_, fun _ _ he => (by cases he)⟩
  cases he
  exact ⟨hconnects, hu, hd⟩

theorem step_relays (hc : copy.Conforms) (h : Relays copy x a) (hs : a.step copy x v = some a') :
    Relays copy x a' := by
  unfold Session.step at hs
  split at hs
  · split at hs
    · next hconnects =>
      cases hs
      exact copying_relays hconnects (hc.start_carries _ _) (hc.start_carries _ _)
    · cases hs
      exact ⟨fun _ _ he => (by cases he), fun _ _ he => (by cases he)⟩
  · obtain ⟨up', hup, rfl⟩ := Option.map_eq_some_iff.1 hs
    obtain ⟨hconnects, hu, hd⟩ := h.carries _ _ rfl
    exact copying_relays hconnects (hu.step hc hup) hd
  · obtain ⟨down', hdown, rfl⟩ := Option.map_eq_some_iff.1 hs
    obtain ⟨hconnects, hu, hd⟩ := h.carries _ _ rfl
    exact copying_relays hconnects hu (hd.step hc hdown)
  · split at hs
    · next hru hrd =>
      cases hs
      obtain ⟨hconnects, hu, hd⟩ := h.carries _ _ rfl
      refine ⟨fun _ _ he => ?_, fun _ _ he => ?_⟩
      · cases he
        exact ⟨hconnects, hu, hd⟩
      · cases he
        exact ⟨closes_of_result hu hru, closes_of_result hd hrd⟩
    · cases hs
  · cases hs

/-- One of the copies of a session has no result, and waits for its source or its sink. -/
inductive Waiting (copy : Pump S L UInt8) (x : Exchange) (up down : S) : Prop
  | up : copy.result up = none → (copy.flow up).Waits x.client.sends x.upstream.takes →
      Waiting copy x up down
  | down : copy.result down = none → (copy.flow down).Waits x.upstream.sends x.client.takes →
      Waiting copy x up down

/-- A session that cannot go on waits for one of its ends, whatever has become of the other. -/
theorem copying_waits (hc : copy.Conforms) (hu : copy.Carries x.client.sends x.upstream.takes up)
    (hd : copy.Carries x.upstream.sends x.client.takes down)
    (hstuck : ∀ v, Act.fails copy v = false → (Session.copying up down).step copy x v = none) :
    Waiting copy x up down := by
  cases hru : copy.result up with
  | none =>
    refine .up hru (hu.waits hc hru fun l hl => ?_)
    exact Option.map_eq_none_iff.1 (hstuck (.up l) hl)
  | some r =>
    cases hrd : copy.result down with
    | none =>
      refine .down hrd (hd.waits hc hrd fun l hl => ?_)
      exact Option.map_eq_none_iff.1 (hstuck (.down l) hl)
    | some r' =>
      have hjoin := hstuck .join rfl
      simp only [Session.step, hru, hrd] at hjoin
      cases hjoin

/-- In whatever order the sessions go on, each relays between its two ends. One that cannot go on
waits for an end which has sent all it will, or takes no more of what there is for it; and an
upstream which waits for the end of a request keeps its session from it for as long as there is a
client to answer. -/
theorem main_relays (copy : Pump S L UInt8) (hc : copy.Conforms)
    (ls : List (Sessions.Label Exchange (Act L))) (s : Sessions.State Exchange (Session S))
    (hr : run (main copy) Sessions.start ls = some s) (i : Nat) (x : Exchange) (a : Session S)
    (hi : s.sessions[i]? = some (x, a)) :
    Relays copy x a ∧
      (s.running = true →
        (∀ v, Act.fails copy v = false → main copy s (.session i v) = none) →
        ∀ up down, a = .copying up down → Waiting copy x up down) ∧
      (x.upstream.sends.ending = .idle → ∀ up down, a = .ended (some (up, down)) →
        copy.result down = some (.error .write)) := by
  have hsession := Sessions.run_session hr hi
  have h : Relays copy x a :=
    run_invariant (fun _ _ _ h hs => step_relays hc h hs) (accepted_relays x) hsession
  refine ⟨h, fun hrunning hstuck up down he => ?_, fun hidle up down he => ?_⟩
  · subst he
    obtain ⟨_, hu, hd⟩ := h.carries up down rfl
    exact copying_waits hc hu hd fun v hv =>
      Sessions.act_eq_none (Session.step copy) hrunning hi (hstuck v hv)
  · cases (h.joined up down he).2 with
    | copied _ _ hending => cases hidle.symm.trans hending
    | readFailed _ hending => cases hidle.symm.trans hending
    | writeFailed hresult => exact hresult

def buffered : Pump (Copy UInt8) CopyMove UInt8 := Copy.pump (fun held cap => held + cap ≤ 8192)

theorem buffered_conforms : buffered.Conforms := Copy.pump_conforms ⟨8192, by decide, by decide⟩

def asking : Exchange where
  client := ⟨.cut (ascii "hello") 5 .eof, none⟩
  connects := true
  upstream := ⟨.cut (ascii "hi") 2 .idle, some 5⟩

def halfClosed : List (Sessions.Label Exchange (Act CopyMove)) :=
  [.accept asking, .session 0 .connect] ++
    [.up (.read 5), .down (.read 8), .up (.write 2), .up (.write 3), .up .finish,
      .down (.write 2)].map (.session 0)

theorem main_relays_halfClosed :
    ∃ up down : Copy UInt8, up.result = some (.ok 5) ∧ up.flow.written = ascii "hello" ∧
      down.result = none ∧ down.flow.written = ascii "hi" ∧
      Relays buffered asking (.copying up down) :=
  ⟨_, _, rfl, rfl, rfl, rfl,
    (main_relays buffered buffered_conforms halfClosed _ rfl 0 asking _ rfl).1⟩

end ReverseProxy.TokioCopy
