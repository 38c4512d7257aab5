import ReverseProxy.Verdict

namespace ReverseProxy.C
open HttpHead Segments Utf8
set_option autoImplicit true

/-- The peer answers with `bs`, and the first read of that fills the buffer or comes to its end. -/
structure Peer.SendsWhole (p : Peer) (request bs : Bytes) : Prop where
  connects : p.connects = true
  takesRequest : p.takesRequest = true
  contents : (p.answer request).contents = bs
  first : ∃ xs rest, (p.answer request).read probeBufSize = .data xs rest ∧
    (xs.length = probeBufSize ∨ xs = bs)

/-- A line that an answer may pass with: a text on `HTTP/` whose second word, if there is one,
starts with `2`. -/
def MayPass (line : Bytes) : Prop :=
  ∃ l, decode line = some l ∧ "HTTP/".toList <+: l ∧
    ∀ c, (splitWhitespace l)[1]? = some c → ['2'] <+: c

/-- What follows lets it pass: it is a text, and if the line has no second word, it starts with one
that starts with `2`. -/
def LetsPass (line tail : Bytes) : Prop :=
  ∃ d, decode tail = some d ∧ ∀ l, decode line = some l → (splitWhitespace l)[1]? = none →
    ∃ c, (splitWhitespace d)[0]? = some c ∧ ['2'] <+: c

theorem Peer.SendsWhole.delivers {p : Peer} (h : p.SendsWhole request bs) :
    p.Delivers request (bs.take probeBufSize) := by
  obtain ⟨xs, rest, hread, hxs⟩ := h.first
  have hfirst := Stream.read_first (p.answer request) probeBufSize
  rw [h.contents, hread] at hfirst
  rcases hfirst with ⟨_, hstop⟩ | ⟨_, k, rest', hk, hdata⟩
  · cases hstop
  · obtain ⟨rfl, rfl⟩ := Read.data.inj hdata
    have htake : bs.take k = bs.take probeBufSize := by
      rcases hxs with hlen | hall
      · rw [List.length_take] at hlen
        rw [show k = probeBufSize by omega]
      · have hlen := congrArg List.length hall
        rw [List.length_take] at hlen
        rw [hall, List.take_of_length_le (by omega)]
    rw [htake] at hread
    exact ⟨h.connects, h.takesRequest, rest, hread⟩

theorem looksHealthy_words : looksHealthy bs = true ↔ ∃ cs, decode bs = some cs ∧
    "HTTP/".toList <+: cs ∧ ∃ c, (splitWhitespace cs)[1]? = some c ∧ ['2'] <+: c := by
  unfold looksHealthy
  cases decode bs with
  | none => exact iff_of_false Bool.false_ne_true nofun
  | some cs =>
    simp only [Option.some.injEq, exists_eq_left', Bool.and_eq_true, List.isPrefixOf_iff_prefix]
    cases (splitWhitespace cs)[1]? with
    | none => simp
    | some c => simp [List.isPrefixOf_iff_prefix]

theorem second_append {ws vs : List (List Char)} (hne : ws ≠ []) :
    (∃ c, (ws ++ vs)[1]? = some c ∧ ['2'] <+: c) ↔
      (∀ c, ws[1]? = some c → ['2'] <+: c) ∧
        (ws[1]? = none → ∃ c, vs[0]? = some c ∧ ['2'] <+: c) := by
  match ws, hne with
  | [_], _ => simp
  | _ :: c :: _, _ => simp

theorem splitWhitespace_ne_nil (h : "HTTP/".toList <+: cs) : splitWhitespace cs ≠ [] := by
  obtain ⟨t, rfl⟩ := h
  obtain ⟨w, ws, hw⟩ := first_word (c := 'H') (by decide) ("TTP/".toList ++ t)
  intro hnil
  cases hw.symm.trans hnil

theorem looksHealthy_line (hline : crlf <:+ line) (tail : Bytes) :
    looksHealthy (line ++ tail) = true ↔ MayPass line ∧ LetsPass line tail := by
  obtain ⟨x, rfl⟩ := hline
  have hlf : x ++ crlf = (x ++ [cr]) ++ encode ['\n'] ++ [] := by
    rw [List.append_nil, List.append_assoc]
    rfl
  have htext : x ++ crlf ++ tail = (x ++ [cr]) ++ encode ['\n'] ++ tail := by
    rw [hlf, List.append_nil]
  have hspace : isWhitespace '\n' = true := by decide
  rw [looksHealthy_words, MayPass, LetsPass, htext, hlf, decode_append (by decide),
    decode_append (by decide)]
  cases decode (x ++ [cr]) with
  | none => simp
  | some u =>
    cases decode tail with
    | none => simp
    | some d =>
      have hnil : decode [] = some [] := decode_eq_some.2 rfl
      have hwords : splitWhitespace [] = [] := rfl
      have hpre (r : List Char) : "HTTP/".toList <+: u ++ '\n' :: r ↔ "HTTP/".toList <+: u :=
        ⟨fun h => http_prefix_word h hspace, fun h => h.trans (List.prefix_append _ _)⟩
      simp only [Option.bind_some, Option.map_some, hnil, Option.some.injEq, exists_eq_left',
        forall_eq', hpre, splitWhitespace_append hspace, hwords, List.append_nil]
      constructor
      · rintro ⟨hp, hc⟩
        obtain ⟨hline, htail⟩ := (second_append (splitWhitespace_ne_nil hp)).1 hc
        exact ⟨⟨hp, hline⟩, htail⟩
      · rintro ⟨⟨hp, hline⟩, htail⟩
        exact ⟨hp, (second_append (splitWhitespace_ne_nil hp)).2 ⟨hline, htail⟩⟩

theorem take_line (hlen : line.length ≤ probeBufSize) (tail : Bytes) :
    (line ++ tail).take probeBufSize = line ++ tail.take (probeBufSize - line.length) := by
  rw [List.take_append, List.take_of_length_le hlen]

theorem letsPass_two (line : Bytes) : LetsPass line (ascii "2") :=
  ⟨['2'], by decide, fun _ _ _ => ⟨['2'], by decide, List.prefix_rfl⟩⟩

theorem not_letsPass (line : Bytes) : ¬ LetsPass line [0xFF] := by
  rintro ⟨d, hd, _⟩
  have hnone : decode [0xFF] = none := by decide
  rw [hnone] at hd
  cases hd

theorem cutPeer_sendsWhole (request : Bytes) (hne : bs ≠ []) (e : Ending) :
    (cutPeer bs probeBufSize e).SendsWhole request bs := by
  have htake : bs.take probeBufSize ≠ [] := by
    cases bs with
    | nil => exact (hne rfl).elim
    | cons b bs => exact List.cons_ne_nil b _
  obtain ⟨rest, hread⟩ := Stream.cut_read probeBufSize htake e
  rw [List.take_take, Nat.min_self] at hread
  refine ⟨rfl, rfl, Stream.cut_contents bs probeBufSize e, _, rest, hread, ?_⟩
  rcases Nat.le_total probeBufSize bs.length with hle | hle
  · exact .inl (by rw [List.length_take, Nat.min_eq_left hle])
  · exact .inr (List.take_of_length_le hle)

theorem line_ne_nil (hline : crlf <:+ line) (tail : Bytes) : line ++ tail ≠ [] := by
  obtain ⟨x, rfl⟩ := hline
  simp [crlf]

theorem doProbe_agree (hline : crlf <:+ line) (hlen : line.length ≤ probeBufSize) {p q : Peer}
    (hp : p.SendsWhole (probeRequest path host) (line ++ t))
    (hq : q.SendsWhole (probeRequest path host) (line ++ t')) :
    doProbe path host p = doProbe path host q ↔
      (MayPass line → (LetsPass line (t.take (probeBufSize - line.length)) ↔
        LetsPass line (t'.take (probeBufSize - line.length)))) := by
  rw [hp.delivers.doProbe_eq, hq.delivers.doProbe_eq, Option.some.injEq, take_line hlen,
    take_line hlen, Bool.eq_iff_iff, looksHealthy_line hline, looksHealthy_line hline]
  exact and_congr_right_iff

/-- Two answers with one status line come to one verdict exactly when it may not pass, or what
follows it within the buffer lets both pass or neither; a line that may pass and leaves room for a
byte has tails that come to two. -/
theorem doProbe_firstLine (path host line : Bytes) (hline : crlf <:+ line)
    (hlen : line.length ≤ probeBufSize) :
    (∀ (t t' : Bytes) (p q : Peer), p.SendsWhole (probeRequest path host) (line ++ t) →
      q.SendsWhole (probeRequest path host) (line ++ t') →
      (doProbe path host p = doProbe path host q ↔
        (MayPass line → (LetsPass line (t.take (probeBufSize - line.length)) ↔
          LetsPass line (t'.take (probeBufSize - line.length)))))) ∧
    ((∀ (t t' : Bytes) (p q : Peer), p.SendsWhole (probeRequest path host) (line ++ t) →
      q.SendsWhole (probeRequest path host) (line ++ t') →
      doProbe path host p = doProbe path host q) ↔
        line.length = probeBufSize ∨ ¬ MayPass line) := by
  refine ⟨fun t t' p q hp hq => doProbe_agree hline hlen hp hq, ?_, ?_⟩
  · intro h
    by_contra hno
    rw [not_or, not_not] at hno
    obtain ⟨hroom, hmay⟩ := hno
    have hp := cutPeer_sendsWhole (probeRequest path host) (line_ne_nil hline (ascii "2")) .eof
    have hq := cutPeer_sendsWhole (probeRequest path host) (line_ne_nil hline [0xFF]) .eof
    have hiff := (doProbe_agree hline hlen hp hq).1 (h _ _ _ _ hp hq) hmay
    have hone : 1 ≤ probeBufSize - line.length := by omega
    rw [List.take_of_length_le (l := ascii "2") hone, List.take_of_length_le (l := [0xFF]) hone]
      at hiff
    exact not_letsPass line (hiff.1 (letsPass_two line))
  · intro h t t' p q hp hq
    apply (doProbe_agree hline hlen hp hq).2
    intro hmay
    rcases h with hfull | hno
    · rw [hfull, Nat.sub_self]
      exact Iff.rfl
    · exact (hno hmay).elim

def okLine : Bytes := ascii "HTTP/1.0 200 OK\r\n"

theorem okLine_letsPass (h : decode tail = some d) : LetsPass okLine tail := by
  refine ⟨d, h, fun l hl hsecond => ?_⟩
  have htext : decode okLine = some "HTTP/1.0 200 OK\r\n".toList := by decide
  cases hl.symm.trans htext
  exact absurd hsecond (by decide)

theorem doProbe_firstLine_ok :
    doProbe (ascii "/health") (ascii "a") (cutPeer (okLine ++ crlf) probeBufSize .eof) =
      doProbe (ascii "/health") (ascii "a")
        (cutPeer (okLine ++ (crlf ++ ascii "up")) probeBufSize .idle) := by
  have hline : crlf <:+ okLine := ⟨ascii "HTTP/1.0 200 OK", by decide⟩
  apply ((doProbe_firstLine (ascii "/health") (ascii "a") okLine hline (by decide)).1 crlf
    (crlf ++ ascii "up") _ _ (cutPeer_sendsWhole _ (line_ne_nil hline _) _)
    (cutPeer_sendsWhole _ (line_ne_nil hline _) _)).2
  intro _
  exact iff_of_true (okLine_letsPass (d := "\r\n".toList) (by decide))
    (okLine_letsPass (d := "\r\nup".toList) (by decide))

theorem doProbe_firstLine_binary :
    (cutPeer (okLine ++ crlf) probeBufSize .eof).SendsWhole
        (probeRequest (ascii "/health") (ascii "a")) (okLine ++ crlf) ∧
      (cutPeer (okLine ++ (crlf ++ [0xFF])) probeBufSize .eof).SendsWhole
        (probeRequest (ascii "/health") (ascii "a")) (okLine ++ (crlf ++ [0xFF])) ∧
      doProbe (ascii "/health") (ascii "a") (cutPeer (okLine ++ crlf) probeBufSize .eof) =
        some true ∧
      doProbe (ascii "/health") (ascii "a") (cutPeer (okLine ++ (crlf ++ [0xFF])) probeBufSize .eof)
        = some false := by
  have hline : crlf <:+ okLine := ⟨ascii "HTTP/1.0 200 OK", by decide⟩
  have hp := cutPeer_sendsWhole (probeRequest (ascii "/health") (ascii "a"))
    (line_ne_nil hline crlf) .eof
  have hq := cutPeer_sendsWhole (probeRequest (ascii "/health") (ascii "a"))
    (line_ne_nil hline (crlf ++ [0xFF])) .eof
  refine ⟨hp, hq, ?_, ?_⟩
  · rw [hp.delivers.doProbe_eq]
    decide
  · rw [hq.delivers.doProbe_eq]
    decide

end ReverseProxy.C
