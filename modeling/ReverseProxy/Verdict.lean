import ReverseProxy.Probe

namespace ReverseProxy.C
open HttpHead Segments Utf8
set_option autoImplicit true

/-- The peer takes the request and answers it with `bs`, in whatever segments. -/
structure Peer.Sends (p : Peer) (request bs : Bytes) (e : Ending) : Prop where
  connects : p.connects = true
  takesRequest : p.takesRequest = true
  contents : (p.answer request).contents = bs
  ending : (p.answer request).ending = e

/-- The bytes start with a word on `HTTP/`, white space and a `2`, all within one buffer. -/
def ShowsSuccess (bs : Bytes) : Prop :=
  ∃ a s, "HTTP/".toList <+: a ∧ (∀ c ∈ a, isWhitespace c = false) ∧ s ≠ [] ∧
    (∀ c ∈ s, isWhitespace c = true) ∧ encode (a ++ s ++ ['2']) <+: bs ∧
    (encode (a ++ s ++ ['2'])).length ≤ probeBufSize

def silentVerdict : Ending → Option Bool
  | .eof | .error => some false
  | .idle => none

theorem Peer.Sends.doProbe_eq {p : Peer} (h : p.Sends (probeRequest path host) bs e) :
    (bs = [] ∧ doProbe path host p = silentVerdict e) ∨
      bs ≠ [] ∧ ∃ k, k ≤ probeBufSize ∧ doProbe path host p = some (looksHealthy (bs.take k)) := by
  have hread := Stream.read_first (p.answer (probeRequest path host)) probeBufSize
  rw [h.contents, h.ending] at hread
  simp only [doProbe, h.connects, h.takesRequest]
  rcases hread with ⟨hbs, hread⟩ | ⟨hbs, k, rest, hk, hread⟩
  · rw [hread]
    exact .inl ⟨hbs, by cases e <;> rfl⟩
  · rw [hread]
    exact .inr ⟨hbs, k, hk, rfl⟩

theorem showsSuccess_iff :
    ShowsSuccess bs ↔ ∃ k, k ≤ probeBufSize ∧ looksHealthy (bs.take k) = true := by
  constructor
  · intro h
    obtain ⟨a, s, hpre, ha, hs, hws, henc, hlen⟩ := h
    refine ⟨_, hlen, ?_⟩
    rw [← List.prefix_iff_eq_take.1 henc]
    exact looksHealthy_iff.2 ⟨a, s, [], rfl, hpre, ha, hs, hws⟩
  · intro h
    obtain ⟨k, hk, h⟩ := h
    obtain ⟨a, s, rest, hbs, hpre, ha, hs, hws⟩ := looksHealthy_iff.1 h
    have henc : encode (a ++ s ++ ['2']) <+: bs.take k := by
      rw [hbs, List.append_cons (a ++ s) '2' rest, encode_append _ rest]
      exact List.prefix_append _ _
    have hlen := henc.length_le
    rw [List.length_take] at hlen
    exact ⟨a, s, hpre, ha, hs, hws, henc.trans (List.take_prefix k bs), by omega⟩

theorem looksHealthy_short (h : bs.length ≤ 1) : looksHealthy bs = false := by
  cases hl : looksHealthy bs with
  | false => rfl
  | true =>
    obtain ⟨a, s, rest, rfl, hpre, _, _, _⟩ := looksHealthy_iff.1 hl
    have hlen := length_le_encode (a ++ s ++ '2' :: rest)
    have hfive := hpre.length_le
    have : "HTTP/".toList.length = 5 := by decide
    simp only [List.length_append, List.length_cons] at hlen
    omega

def cutPeer (bs : Bytes) (k : Nat) (e : Ending) : Peer := ⟨true, true, fun _ => .cut bs k e⟩

theorem cutPeer_sends (request bs : Bytes) (k : Nat) (e : Ending) :
    (cutPeer bs k e).Sends request bs e :=
  ⟨rfl, rfl, Stream.cut_contents bs k e, rfl⟩

theorem cutPeer_delivers (request bs : Bytes) (k : Nat) (hk : bs.take k ≠ [])
    (hcap : k ≤ probeBufSize) (e : Ending) : (cutPeer bs k e).Delivers request (bs.take k) := by
  obtain ⟨rest, hread⟩ := Stream.cut_read probeBufSize hk e
  have htake : (bs.take k).take probeBufSize = bs.take k := by
    rw [List.take_take, Nat.min_eq_right hcap]
  rw [htake] at hread
  exact ⟨rfl, rfl, rest, hread⟩

theorem cutPeer_doProbe (path host bs : Bytes) (k : Nat) (hk : bs.take k ≠ [])
    (hcap : k ≤ probeBufSize) (e : Ending) :
    doProbe path host (cutPeer bs k e) = some (looksHealthy (bs.take k)) :=
  (cutPeer_delivers _ bs k hk hcap e).doProbe_eq

theorem doProbe_disagree (path host : Bytes) (hk : k ≤ probeBufSize)
    (h : looksHealthy (bs.take k) = true) (e : Ending) :
    doProbe path host (cutPeer bs k e) ≠ doProbe path host (cutPeer bs 1 e) := by
  have hne : bs.take k ≠ [] := by
    intro he
    have hshort : looksHealthy (bs.take k) = false := looksHealthy_short (by simp [he])
    rw [hshort] at h
    cases h
  have hone : bs.take 1 ≠ [] := by
    cases bs with
    | nil => exact (hne (List.take_nil)).elim
    | cons b bs => exact List.cons_ne_nil b _
  rw [cutPeer_doProbe path host bs k hne hk, cutPeer_doProbe path host bs 1 hone (by decide), h,
    looksHealthy_short (List.length_take_le 1 bs)]
  exact nofun

/-- The verdict does not depend on the segments exactly when no first read of the answer can be
taken for a success: one that ends early enough never is. -/
theorem doProbe_segmentation (path host bs : Bytes) (e : Ending) :
    (∀ p q : Peer, p.Sends (probeRequest path host) bs e → q.Sends (probeRequest path host) bs e →
      doProbe path host p = doProbe path host q) ↔ ¬ ShowsSuccess bs := by
  constructor
  · intro h hshows
    obtain ⟨k, hk, hhealthy⟩ := showsSuccess_iff.1 hshows
    apply doProbe_disagree path host hk hhealthy e
    exact h _ _ (cutPeer_sends _ bs k e) (cutPeer_sends _ bs 1 e)
  · intro h p q hp hq
    have hfalse (k : Nat) (hk : k ≤ probeBufSize) : looksHealthy (bs.take k) = false := by
      rw [Bool.eq_false_iff]
      intro hl
      exact h (showsSuccess_iff.2 ⟨k, hk, hl⟩)
    rcases hp.doProbe_eq with ⟨hbs, hp⟩ | ⟨hbs, k, hk, hp⟩
    · rcases hq.doProbe_eq with ⟨_, hq⟩ | ⟨hbs', _⟩
      · exact hp.trans hq.symm
      · exact (hbs' hbs).elim
    · rcases hq.doProbe_eq with ⟨hbs', _⟩ | ⟨_, l, hl, hq⟩
      · exact (hbs hbs').elim
      · rw [hp, hq, hfalse k hk, hfalse l hl]

def response200 : Bytes := ascii "HTTP/1.0 200 OK\r\n\r\n"

/-- A response that arrives whole is a success, and with its first byte on its own it is not. -/
theorem doProbe_splits :
    (cutPeer response200 19 .eof).Sends (probeRequest (ascii "/health") (ascii "a")) response200
        .eof ∧
      (cutPeer response200 1 .eof).Sends (probeRequest (ascii "/health") (ascii "a")) response200
        .eof ∧
      doProbe (ascii "/health") (ascii "a") (cutPeer response200 19 .eof) = some true ∧
      doProbe (ascii "/health") (ascii "a") (cutPeer response200 1 .eof) = some false := by
  refine ⟨cutPeer_sends _ _ _ _, cutPeer_sends _ _ _ _, ?_, ?_⟩
  · rw [cutPeer_doProbe _ _ _ _ (by decide) (by decide)]
    decide
  · rw [cutPeer_doProbe _ _ _ _ (by decide) (by decide)]
    decide

end ReverseProxy.C
