import ReverseProxy.Copying
import ReverseProxy.HttpHead
import ReverseProxy.Sessions

namespace ReverseProxy.EchoServer
open HttpHead Relay Runs Segments
set_option autoImplicit true

def bufSize : Nat := 1024

/-- A read fills the buffer from its start, once all of it has been written back. -/
def room (held cap : Nat) : Bool := held == 0 && cap == bufSize

/-- `run_server`, with a task for each client, which is sent what it sends. -/
def runServer : Sessions.State (Party UInt8) (Copy UInt8) →
    Sessions.Label (Party UInt8) CopyMove → Option (Sessions.State (Party UInt8) (Copy UInt8)) :=
  Sessions.step (fun client => Copy.start client.sends)
    (fun client => Copy.step room client.takes)

/-- What the client of a task has got back: what it sent, as far as it was read, and all of it once
it has closed its side. -/
structure Echoes (client : Party UInt8) (c : Copy UInt8) : Prop where
  back : c.flow.written <+: client.sends.contents
  buffered : c.flow.held.length ≤ bufSize
  disconnected : ∀ n, c.result = some (.ok n) →
    c.flow.written = client.sends.contents ∧ client.sends.ending = .eof
  failed : c.result = some (.error .read) → client.sends.ending = .error

theorem step_buffered {c c' : Copy UInt8} (h : c.flow.held.length ≤ bufSize)
    (hs : c.step room takes v = some c') : c'.flow.held.length ≤ bufSize := by
  obtain ⟨_, he⟩ := Copy.step_effect hs
  cases he with
  | @read cap flow hcap hroom hflow =>
    obtain ⟨hnil, rfl⟩ : c.flow.held.length = 0 ∧ cap = bufSize := by
      simpa [room] using hroom
    unfold Flow.read at hflow
    split at hflow
    · next xs rest hread =>
      cases hflow
      have hle := Stream.read_data_length hread
      simp only [Copy.set, List.length_append]
      omega
    · cases hflow
  | write hk hle _ =>
    simp only [Copy.set, List.length_drop]
    omega
  | finish hread hheld => exact h
  | failRead hread => exact h
  | failWrite hheld => exact h

/-- Whatever the clients do and in whatever order they are served, each gets its own bytes back, in
order. Its task takes few steps for that, and when it cannot go on it has sent back everything or
all that its client takes. -/
theorem runServer_echoes {i : Nat} (hr : run runServer Sessions.start ls = some s)
    (hi : s.sessions[i]? = some (client, c)) :
    Echoes client c ∧
      (ls.filterMap (Sessions.Label.own i)).length ≤ 2 * client.sends.contents.length + 1 ∧
      (s.running = true → (∀ v, v ≠ .failWrite → runServer s (.session i v) = none) →
        c.result = none → c.flow.Waits client.sends client.takes) := by
  have hcopy := Sessions.run_session hr hi
  have hpump : (Copy.pump room : Pump (Copy UInt8) CopyMove UInt8).Conforms :=
    Copy.pump_conforms ⟨bufSize, by decide, rfl⟩
  have hcarries : (Copy.pump room).Carries client.sends client.takes c := hpump.run_carries hcopy
  have hbuffered : c.flow.held.length ≤ bufSize :=
    run_invariant (I := fun c : Copy UInt8 => c.flow.held.length ≤ bufSize)
      (fun _ _ _ h hs => step_buffered h hs)
      (show (Copy.start client.sends).flow.held.length ≤ bufSize from Nat.zero_le bufSize) hcopy
  refine ⟨⟨hcarries.flow.isPrefix, hbuffered, fun n hn => ?_, hcarries.failed⟩,
    Copy.run_length_le hcopy, fun hrunning hstuck hnone => ?_⟩
  · obtain ⟨hwritten, hending, _⟩ := hcarries.copied n hn
    exact ⟨hwritten, hending⟩
  · refine hcarries.waits hpump hnone fun v hv => ?_
    have hown := hstuck v (beq_eq_false_iff_ne.1 hv)
    exact Sessions.act_eq_none (fun client : Party UInt8 => Copy.step room client.takes) hrunning hi
      hown

def helloing (k : Nat) : Party UInt8 := ⟨.cut (ascii "Hello from client 1!\n") k .idle, none⟩

/-- The first client waits for the rest of its line while a second one is served and leaves. -/
def echoing : List (Sessions.Label (Party UInt8) CopyMove) :=
  [.accept (helloing 5), .session 0 (.read bufSize), .accept ⟨.cut (ascii "bye") 3 .eof, none⟩,
    .session 0 (.write 5), .session 1 (.read bufSize), .session 1 (.write 2), .session 1 (.write 1),
    .stopAccepting, .session 1 .finish, .session 0 (.read bufSize), .session 0 (.write 16)]

theorem runServer_echoes_hello :
    ∃ c : Copy UInt8, c.flow.written = ascii "Hello from client 1!\n" ∧ c.result = none ∧
      Echoes (helloing 5) c := by
  have hr : run runServer Sessions.start echoing = some _ := rfl
  exact ⟨_, rfl, rfl, (runServer_echoes (i := 0) hr rfl).1⟩

end ReverseProxy.EchoServer
