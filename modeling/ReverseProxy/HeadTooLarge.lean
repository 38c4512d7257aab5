import ReverseProxy.Answering

namespace ReverseProxy
open HttpHead Segments Usize
set_option autoImplicit true

def Told (response : Bytes) (events : List (Event Addr)) : Prop :=
  ∃ sent, .respond response sent ∈ events

/-- The client has delivered a buffer of bytes in which no head ends. -/
def TooLarge (client : Stream UInt8) : Prop :=
  headerBufSize ≤ client.contents.length ∧ ¬ headersEnd <:+: client.contents.take headerBufSize

/-- The client stops, by closing or by failing, before the buffer is full and without a head. -/
def CutShort (client : Stream UInt8) : Prop :=
  client.contents.length < headerBufSize ∧ client.ending ≠ .idle ∧
    ¬ headersEnd <:+: client.contents

variable {Addr S : Type} {build : Build} {display : Addr → Bytes}
  {pick : S → Except Panic (Option Addr) × S} {x : Exchange Addr} {clientIp : Bytes} {s : S}

theorem told_answer {before : List (Event Addr)} (hb : ¬ Told response431 before)
    (response : Bytes) :
    Told response431 (x.answer before response).events ↔ response = response431 := by
  constructor
  · rintro ⟨sent, h⟩
    rcases List.mem_append.1 h with h | h
    · exact (hb ⟨sent, h⟩).elim
    · cases List.mem_singleton.1 h
      rfl
  · rintro rfl
    exact ⟨_, List.mem_append_right _ (List.mem_singleton_self _)⟩

theorem not_told_forward (len : Nat) (buf : Bytes) (rest : Stream UInt8) (addr : Addr) :
    ¬ Told response431 (forward build display x clientIp len buf rest addr).events := by
  have hnil : ¬ Told response431 ([] : List (Event Addr)) := by simp [Told]
  have hconnect : ¬ Told response431 [Event.connect addr] := by simp [Told]
  unfold forward
  split
  · rw [told_answer hnil]
    decide
  · split
    · rw [told_answer hconnect]
      decide
    · rw [told_answer hconnect]
      decide
    · split
      · simp [Told]
      · simp [Told]

/-- Whatever error the read of the head comes to, the client is told 431, and nothing else is. -/
theorem handleRequest_told :
    Told response431 (handleRequest build display pick x clientIp s).1.events ↔
      ∃ message, (readUntilHeadersEnd x.client headerBufSize).returned = some (.error message) := by
  have hnil : ¬ Told response431 ([] : List (Event Addr)) := by simp [Told]
  unfold handleRequest
  cases hread : readUntilHeadersEnd x.client headerBufSize with
  | waiting => exact iff_of_false hnil nofun
  | unfinished => exact iff_of_false hnil nofun
  | failed message =>
    simp only [told_answer hnil]
    exact iff_of_true trivial ⟨message, rfl⟩
  | found len buf rest =>
    apply iff_of_false _ nofun
    simp only
    split
    · exact hnil
    · rw [told_answer hnil]
      decide
    · exact not_told_forward len buf rest _

theorem headOutcome_error (client : Stream UInt8) :
    (∃ message, headOutcome headerBufSize client.contents client.ending =
      some (.error message)) ↔ TooLarge client ∨ CutShort client := by
  by_cases hin : headersEnd <:+: client.contents.take headerBufSize
  · obtain ⟨h, hend⟩ := exists_firstEnd_iff.2 hin
    rw [headOutcome_ok.2 ((firstEnd_take _ _).1 hend)]
    apply iff_of_false nofun
    rintro (⟨_, hno⟩ | ⟨_, _, hno⟩)
    · exact hno hin
    · exact hno (hin.trans (List.take_prefix _ _).isInfix)
  · rw [headOutcome_missing ((forall_not_firstEnd_iff _ _).2 hin), headMissing_error]
    constructor
    · rintro (hle | he)
      · exact .inl ⟨hle, hin⟩
      · rcases Nat.lt_or_ge client.contents.length headerBufSize with hlt | hle
        · rw [List.take_of_length_le (Nat.le_of_lt hlt)] at hin
          exact .inr ⟨hlt, he, hin⟩
        · exact .inl ⟨hle, hin⟩
    · rintro (⟨hle, _⟩ | ⟨_, he, _⟩)
      · exact .inl hle
      · exact .inr he

theorem told_iff_tooLarge {told : Prop} {client : Stream UInt8}
    (h : told ↔ TooLarge client ∨ CutShort client) :
    (told ↔ TooLarge client) ↔ ¬ CutShort client := by
  have hexcl : CutShort client → ¬ TooLarge client := fun hc ht =>
    Nat.not_lt_of_le ht.1 hc.1
  tauto

theorem handleRequest_431 :
    (Told response431 (handleRequest build display pick x clientIp s).1.events ↔
      TooLarge x.client) ↔ ¬ CutShort x.client := by
  apply told_iff_tooLarge
  rw [handleRequest_told, readUntilHeadersEnd_returned, headOutcome_error]

/-- A connection whose head is read is told 431 exactly when the head is too large, unless the
client stops with an incomplete one: then it is told as well. -/
theorem handleConnection_431 (parse : Httparse.Parser) (display : Addr → Bytes) (m : Overflow)
    (x : Exchange Addr) (clientIp : Bytes) (b : B.Balancer w Addr) (c : C.Balancer w Addr)
    (hip : x.clientIp = some clientIp) :
    ((Told response431 (B.handleConnection parse display x b).1.events ↔ TooLarge x.client) ↔
      ¬ CutShort x.client) ∧
    ((Told response431 (C.handleConnection m parse display .succeeded x c).1.events ↔
      TooLarge x.client) ↔ ¬ CutShort x.client) := by
  rw [B.handleConnection_eq hip, C.handleConnection_eq hip]
  exact ⟨handleRequest_431, handleRequest_431⟩

theorem handleConnection_431_complete :
    Told response431 (B.handleConnection Httparse.grammarParser id
      (exchange [shortRequest] shortRequest_ne [])
      (⟨oneUpstream, 0⟩ : B.Balancer 64 Bytes)).1.events ↔
    TooLarge (exchange [shortRequest] shortRequest_ne []).client := by
  refine (handleConnection_431 Httparse.grammarParser id .checked
    (exchange [shortRequest] shortRequest_ne []) (ascii "192.0.2.1") ⟨oneUpstream, 0⟩
    ⟨oneUpstream, [true], 0⟩ rfl).1.2 ?_
  rintro ⟨_, he, _⟩
  exact he rfl

/-- A client that closes after three bytes is told that its header fields are too large. -/
theorem handleConnection_431_closed :
    let x := { exchange [ascii "GET"] (by decide) [] with
      client := ⟨[ascii "GET"], by decide, .eof⟩ }
    Told response431 (B.handleConnection Httparse.grammarParser id x
        (⟨oneUpstream, 0⟩ : B.Balancer 64 Bytes)).1.events ∧
      Told response431 (C.handleConnection .checked Httparse.grammarParser id .succeeded x
        (⟨oneUpstream, [true], 0⟩ : C.Balancer 64 Bytes)).1.events ∧
      ¬ TooLarge x.client := by
  intro x
  exact ⟨⟨response431, List.mem_singleton.2 rfl⟩, ⟨response431, List.mem_singleton.2 rfl⟩,
    fun h => absurd h.1 (by decide)⟩

end ReverseProxy
