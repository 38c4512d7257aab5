import ReverseProxy.HttpHead
import ReverseProxy.Segments
import ReverseProxy.Utf8

namespace ReverseProxy.C
open HttpHead Segments Utf8
set_option autoImplicit true

def probeBufSize : Nat := 256

/-- What a probe meets: an upstream that accepts the connection or not, takes the request or not,
and answers it with a stream. -/
structure Peer where
  connects : Bool
  takesRequest : Bool
  answer : Bytes → Stream UInt8

def probeRequest (path host : Bytes) : Bytes :=
  ascii "GET " ++ path ++ ascii " HTTP/1.0\r\nHost: " ++ host ++ ascii "\r\n\r\n"

def looksHealthy (bs : Bytes) : Bool :=
  match decode bs with
  | none => false
  | some s =>
    "HTTP/".toList.isPrefixOf s &&
      match (splitWhitespace s)[1]? with
      | none => false
      | some c => ['2'].isPrefixOf c

/-- `do_probe`, which is `none` while it waits for an answer. -/
def doProbe (path host : Bytes) (peer : Peer) : Option Bool :=
  if !peer.connects then some false
  else if !peer.takesRequest then some false
  else match (peer.answer (probeRequest path host)).read probeBufSize with
    | .data bs _ => some (looksHealthy bs)
    | .stop .eof | .stop .error => some false
    | .stop .idle => none

def probe (timedOut : Bool) (path host : Bytes) (peer : Peer) : Bool :=
  !timedOut && doProbe path host peer == some true

/-- The peer takes the request, and the read of its answer delivers `bs`. -/
structure Peer.Delivers (p : Peer) (request bs : Bytes) : Prop where
  connects : p.connects = true
  takesRequest : p.takesRequest = true
  read : ∃ rest, (p.answer request).read probeBufSize = .data bs rest

theorem Peer.Delivers.doProbe_eq {p : Peer} (h : p.Delivers (probeRequest path host) bs) :
    doProbe path host p = some (looksHealthy bs) := by
  obtain ⟨rest, hread⟩ := h.read
  simp only [doProbe, h.connects, h.takesRequest, hread]
  rfl

theorem http_prefix_word (h : "HTTP/".toList <+: a ++ w :: r) (hw : isWhitespace w = true) :
    "HTTP/".toList <+: a := by
  rcases Nat.lt_or_ge a.length "HTTP/".toList.length with hlt | hle
  · have hpre : a ++ [w] <+: "HTTP/".toList := by
      have hword : a ++ [w] <+: a ++ w :: r := ⟨r, by simp⟩
      apply List.prefix_of_prefix_length_le hword h
      rw [List.length_append]
      exact hlt
    have hblank : "HTTP/".toList.all (fun c => !isWhitespace c) = true := by decide
    have hword := List.all_eq_true.1 hblank w (hpre.subset (by simp))
    rw [hw] at hword
    cases hword
  · exact List.prefix_of_prefix_length_le h (List.prefix_append _ _) hle

theorem looksHealthy_iff : looksHealthy bs = true ↔ ∃ a s rest,
    bs = encode (a ++ s ++ '2' :: rest) ∧ "HTTP/".toList <+: a ∧
      (∀ c ∈ a, isWhitespace c = false) ∧ s ≠ [] ∧ ∀ c ∈ s, isWhitespace c = true := by
  constructor
  · intro h
    unfold looksHealthy at h
    split at h
    · cases h
    · next cs hcs =>
      obtain ⟨hpre, hsecond⟩ := Bool.and_eq_true_iff.1 h
      rw [List.isPrefixOf_iff_prefix] at hpre
      split at hsecond
      · cases hsecond
      · next d hd =>
        obtain ⟨t, rfl⟩ := List.isPrefixOf_iff_prefix.1 hsecond
        obtain ⟨tail, rfl⟩ := hpre
        obtain ⟨a, s, rest, hsplit, ha, hs, hws⟩ := second_word (by decide) hd
        refine ⟨a, s, rest, ?_, ?_, ha, hs, hws⟩
        · rw [← hsplit]
          exact decode_eq_some.1 hcs
        · cases s with
          | nil => exact (hs rfl).elim
          | cons w s =>
            apply http_prefix_word (w := w) (r := s ++ '2' :: rest) _ (hws w (by simp))
            rw [List.append_assoc] at hsplit
            rw [← List.cons_append, ← hsplit]
            exact List.prefix_append "HTTP/".toList tail
  · rintro ⟨a, s, rest, hbs, hpre, ha, hs, hws⟩
    have hne : a ≠ [] := by
      rintro rfl
      cases List.prefix_nil.1 hpre
    obtain ⟨t, ht⟩ := second_word_eq hne ha hs hws (show isWhitespace '2' = false by decide) rest
    have hpre' : "HTTP/".toList.isPrefixOf (a ++ s ++ '2' :: rest) = true := by
      rw [List.isPrefixOf_iff_prefix, List.append_assoc]
      exact hpre.trans (List.prefix_append _ _)
    simp only [looksHealthy, decode_eq_some.2 hbs, hpre', ht]
    rfl

end ReverseProxy.C
