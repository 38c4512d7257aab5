import ReverseProxy.HeadReader
import ReverseProxy.Http
import ReverseProxy.HttpLines

namespace ReverseProxy
open HttpHead Segments
set_option autoImplicit true

theorem getLast?_of_headersEnd (h : headersEnd <:+ bs) : bs.getLast? = some lf := by
  obtain ⟨pre, rfl⟩ := h
  have hend : headersEnd = [cr, lf, cr] ++ [lf] := by decide
  rw [hend, ← List.append_assoc, List.getLast?_concat]

/-- The scanner's end of a head is the parser's exactly when no line from the request line on and
before the last is empty: a bare LF can end a line the scanner does not see. -/
theorem consumed_eq_scanned (parse : Httparse.Parser) (hp : Httparse.Conforms parse)
    (client : Stream UInt8) (size slots h c : Nat) (buf : Bytes) (rest : Stream UInt8)
    (r : Httparse.Request) (hread : readUntilHeadersEnd client size = .found h buf rest)
    (hparse : parse slots (buf.take h) = .ok (.complete c, r)) :
    c ≤ h ∧ (c = h ↔ ∀ l ∈ innerLines (buf.take h), content l ≠ []) := by
  obtain ⟨hle, htake⟩ := readUntilHeadersEnd_take hread
  obtain ⟨hend, _⟩ := firstEnd_of_readUntilHeadersEnd hread
  obtain ⟨q, hq, _, _⟩ := (hp.complete_iff _ _ _ _).1 hparse
  have hlen : (buf.take h).length = h := by
    rw [List.length_take]
    omega
  have hlf : (buf.take h).getLast? = some lf := by
    rw [htake]
    exact getLast?_of_headersEnd hend.2.1
  have := parse_consumed hlf hq
  rwa [hlen] at this

def plainRequest : Bytes := ascii "GET / HTTP/1.1\r\nHost: a\r\n\r\n"

theorem consumed_eq_scanned_plain :
    ∃ rest r, readUntilHeadersEnd (.cut plainRequest 20 .idle) headerBufSize =
        .found 27 plainRequest rest ∧
      Httparse.grammarParser maxHeaders (plainRequest.take 27) = .ok (.complete 27, r) ∧
      ∀ l ∈ innerLines (plainRequest.take 27), content l ≠ [] := by
  have hread : readUntilHeadersEnd (.cut plainRequest 20 .idle) headerBufSize =
      .found 27 plainRequest ⟨[], nofun, .idle⟩ := rfl
  have hparse : Httparse.grammarParser maxHeaders (plainRequest.take 27) =
      .ok (.complete 27, ⟨some (ascii "GET"), some (ascii "/"), some 1,
        [⟨ascii "Host", ascii "a"⟩]⟩) := rfl
  exact ⟨_, _, hread, hparse, (consumed_eq_scanned _ Httparse.grammarParser_conforms _ _ _ _ _ _ _ _
    hread hparse).2.1 rfl⟩

def twoRequests : Bytes := ascii "GET / HTTP/1.1\n\nGET /x HTTP/1.1\r\n\r\n"

/-- The scanner takes two requests for one head: the second is in the bytes the rewriter is given,
and in nothing that is sent on. -/
theorem consumed_lt_scanned :
    (∃ rest, readUntilHeadersEnd (.cut twoRequests 35 .idle) headerBufSize =
        .found 35 twoRequests rest ∧ rest.contents = []) ∧
      (∃ r, Httparse.grammarParser maxHeaders (twoRequests.take 35) = .ok (.complete 16, r)) ∧
      ∃ out, B.buildForwardedRequest Httparse.grammarParser twoRequests 35 (ascii "192.0.2.1")
        (ascii "u:1") (ascii "id") = .ok (out, ascii "GET", ascii "/") := by
  refine ⟨⟨_, rfl, rfl⟩, ⟨_, rfl⟩, ⟨_, rfl⟩⟩

end ReverseProxy
