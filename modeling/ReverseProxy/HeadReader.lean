import ReverseProxy.HttpHead
import ReverseProxy.Segments

namespace ReverseProxy
open HttpHead Segments
set_option autoImplicit true

def headerBufSize : Nat := 8192

def headersEnd : Bytes := ascii "\r\n\r\n"

/-- What `read_until_headers_end` leaves behind: the length it returns, the filled part of the
buffer and the unread stream. `unfinished` marks a call given too few reads. -/
inductive HeadRead
  | found (len : Nat) (buf : Bytes) (rest : Stream UInt8)
  | failed (message : String)
  | waiting
  | unfinished

/-- The loop over a buffer of `size` bytes, whose filled part is `buf`, for at most `reads`
reads. -/
def readLoop (size : Nat) : Nat → Bytes → Stream UInt8 → HeadRead
  | reads, buf, client =>
    if size ≤ buf.length then
      .failed ("header buffer overflow: request headers exceed " ++ toString size ++ " bytes")
    else match reads with
      | 0 => .unfinished
      | reads + 1 =>
        match client.read (size - buf.length) with
        | .stop .eof => .failed "client closed connection before completing headers"
        | .stop .error => .failed "failed to read from client"
        | .stop .idle => .waiting
        | .data xs rest =>
          match findEnd headersEnd (buf ++ xs) with
          | some len => .found len (buf ++ xs) rest
          | none => readLoop size reads (buf ++ xs) rest

/-- Each read returns at least one byte, so the buffer's size bounds their number. -/
def readUntilHeadersEnd (client : Stream UInt8) (size : Nat) : HeadRead :=
  readLoop size size [] client

theorem readLoop_data (hbuf : buf.length < size)
    (hread : client.read (size - buf.length) = .data xs rest) :
    readLoop size (reads + 1) buf client =
      match findEnd headersEnd (buf ++ xs) with
      | some len => .found len (buf ++ xs) rest
      | none => readLoop size reads (buf ++ xs) rest := by
  rw [readLoop, if_neg (by omega)]
  simp only [hread]

structure Takes (size : Nat) (buf : Bytes) (client : Stream UInt8) (xs : Bytes)
    (rest : Stream UInt8) : Prop where
  room : buf.length < size
  read : client.read (size - buf.length) = .data xs rest
  nonempty : 0 < xs.length
  fits : buf.length + xs.length ≤ size
  contents : client.contents = xs ++ rest.contents
  ending : rest.ending = client.ending

def stopped : Ending → HeadRead
  | .eof => .failed "client closed connection before completing headers"
  | .error => .failed "failed to read from client"
  | .idle => .waiting

theorem stopped_ne_found (e : Ending) (len : Nat) (buf : Bytes) (rest : Stream UInt8) :
    stopped e ≠ .found len buf rest := by
  cases e <;> exact nofun

theorem stopped_ne_unfinished (e : Ending) : stopped e ≠ .unfinished := by
  cases e <;> exact nofun

theorem readLoop_full (hbuf : size ≤ buf.length) (reads : Nat) (client : Stream UInt8) :
    readLoop size reads buf client =
      .failed ("header buffer overflow: request headers exceed " ++ toString size ++ " bytes") := by
  cases reads <;> rw [readLoop, if_pos hbuf]

theorem readLoop_stopped (hbuf : buf.length < size)
    (hread : client.read (size - buf.length) = .stop e) (reads : Nat) :
    readLoop size (reads + 1) buf client = stopped e := by
  rw [readLoop, if_neg (Nat.not_le_of_lt hbuf)]
  simp only [hread]
  cases e <;> rfl

inductive Reads (size : Nat) : Nat → Bytes → Stream UInt8 → HeadRead → Prop
  | full : size ≤ buf.length → Reads size reads buf client
      (.failed ("header buffer overflow: request headers exceed " ++ toString size ++ " bytes"))
  | exhausted : buf.length < size → Reads size 0 buf client .unfinished
  | stopped : buf.length < size → client.contents = [] →
      client.read (size - buf.length) = .stop client.ending →
      Reads size (reads + 1) buf client (stopped client.ending)
  | found : Takes size buf client xs rest → findEnd headersEnd (buf ++ xs) = some len →
      Reads size (reads + 1) buf client (.found len (buf ++ xs) rest)
  | next : Takes size buf client xs rest → findEnd headersEnd (buf ++ xs) = none →
      Reads size reads (buf ++ xs) rest r → Reads size (reads + 1) buf client r

theorem takes_cons (hbuf : buf.length < size) (seg : Bytes) (segs : List Bytes)
    (hne : ∀ t ∈ seg :: segs, t ≠ []) (e : Ending) :
    ∃ rest, Takes size buf ⟨seg :: segs, hne, e⟩ (seg.take (size - buf.length)) rest := by
  obtain ⟨rest, hread, hcont, hending, _⟩ := Stream.read_cons (size - buf.length) seg segs hne e
  have hpos := List.length_pos_iff.2 (hne seg List.mem_cons_self)
  refine ⟨rest, hbuf, hread, ?_, ?_, hcont.symm, hending⟩
  · rw [List.length_take]
    omega
  · rw [List.length_take]
    omega

theorem reads_readLoop (size reads : Nat) (buf : Bytes) (client : Stream UInt8) :
    Reads size reads buf client (readLoop size reads buf client) := by
  induction reads generalizing buf client with
  | zero =>
    rw [readLoop]
    split
    · next hbuf => exact .full hbuf
    · next hbuf => exact .exhausted (Nat.lt_of_not_le hbuf)
  | succ reads ih =>
    by_cases hbuf : size ≤ buf.length
    · rw [readLoop_full hbuf]
      exact .full hbuf
    · have hroom := Nat.lt_of_not_le hbuf
      obtain ⟨segs, hne, e⟩ := client
      cases segs with
      | nil =>
        rw [readLoop_stopped hroom rfl]
        exact .stopped hroom rfl rfl
      | cons seg segs =>
        obtain ⟨rest, ht⟩ := takes_cons hroom seg segs hne e
        rw [readLoop_data hroom ht.read]
        split
        · next len hfind => exact .found ht hfind
        · next hfind => exact .next ht hfind (ih _ _)

theorem Reads.eq (h : Reads size reads buf client r) : readLoop size reads buf client = r := by
  induction h with
  | full hbuf => exact readLoop_full hbuf _ _
  | exhausted hbuf => rw [readLoop, if_neg (Nat.not_le_of_lt hbuf)]
  | stopped hbuf _ hread => exact readLoop_stopped hbuf hread _
  | found ht hfind => rw [readLoop_data ht.room ht.read, hfind]
  | next ht hfind _ ih => rw [readLoop_data ht.room ht.read, hfind, ih]

theorem readLoop_found (buf : Bytes) (client : Stream UInt8) (hbuf : buf.length < h)
    (hsize : h ≤ size) (hreads : size ≤ buf.length + reads)
    (hend : FirstEnd headersEnd (buf ++ client.contents) h) :
    ∃ rest, readLoop size reads buf client =
        .found h ((buf ++ client.contents).take (readEnd size h buf.length client.segments)) rest ∧
      rest.contents =
        (buf ++ client.contents).drop (readEnd size h buf.length client.segments) ∧
      rest.ending = client.ending := by
  induction reads generalizing buf client with
  | zero => omega
  | succ reads ih =>
    obtain ⟨segs, hne, e⟩ := client
    cases segs with
    | nil =>
      have hle := hend.1
      simp only [Stream.contents, List.flatten_nil, List.append_nil] at hle
      omega
    | cons seg segs =>
      obtain ⟨rest, hread, hcont, hending, hsegs⟩ :=
        Stream.read_cons (size - buf.length) seg segs hne e
      set buf' := buf ++ seg.take (size - buf.length) with hbuf'
      have hlen : buf'.length = min size (buf.length + seg.length) := by
        simp only [hbuf', List.length_append, List.length_take]
        omega
      have hcat : buf ++ Stream.contents ⟨seg :: segs, hne, e⟩ = buf' ++ rest.contents := by
        rw [hbuf', ← hcont, List.append_assoc]
      rw [readLoop_data (by omega) hread, readEnd, ← hlen]
      rw [hcat] at hend ⊢
      by_cases hle : h ≤ buf'.length
      · have hfirst := (firstEnd_append hle rest.contents).1 hend
        rw [findEnd_eq_some.2 hfirst, if_pos hle, List.take_left, List.drop_left]
        exact ⟨rest, rfl, rfl, hending⟩
      · have hnone : findEnd headersEnd buf' = none := by
          apply findEnd_eq_none.2
          intro k hk
          have := ((firstEnd_append hk.1 rest.contents).2 hk).unique hend
          have := hk.1
          omega
        have hlen' : buf'.length = buf.length + seg.length := by omega
        obtain ⟨rest', he, hrest, hend'⟩ := ih buf' rest (by omega) (by
          have := List.length_pos_iff.2 (hne seg (by simp))
          omega) hend
        rw [hsegs (by omega)] at he hrest
        rw [hnone, if_neg hle, ← hlen']
        exact ⟨rest', he, hrest, hend'.trans hending⟩

theorem Takes.firstEnd (h : Takes size buf client xs rest)
    (hfind : findEnd headersEnd (buf ++ xs) = some len) :
    FirstEnd headersEnd (buf ++ client.contents) len ∧ len ≤ size := by
  have hfirst := findEnd_eq_some.1 hfind
  have hle := hfirst.1
  have hfits := h.fits
  rw [List.length_append] at hle
  rw [h.contents, ← List.append_assoc]
  exact ⟨(firstEnd_append hfirst.1 _).2 hfirst, by omega⟩

theorem Reads.firstEnd (h : Reads size reads buf client r) :
    r = .found len buf' rest → FirstEnd headersEnd (buf ++ client.contents) len ∧ len ≤ size := by
  induction h with
  | full _ =>
    intro he
    cases he
  | exhausted _ =>
    intro he
    cases he
  | stopped _ _ _ =>
    intro he
    exact (stopped_ne_found _ _ _ _ he).elim
  | found ht hfind =>
    intro he
    cases he
    exact ht.firstEnd hfind
  | next ht _ _ ih =>
    intro he
    rw [ht.contents, ← List.append_assoc]
    exact ih he

/-- Every read fills at least one byte of the buffer, so the loop does not run out of reads. -/
theorem Reads.finished (h : Reads size reads buf client r) (hreads : size ≤ buf.length + reads) :
    r ≠ .unfinished := by
  induction h with
  | full _ => exact nofun
  | exhausted hbuf => omega
  | stopped _ _ _ => exact stopped_ne_unfinished _
  | found _ _ => exact nofun
  | next ht _ _ ih =>
    apply ih
    have hpos := ht.nonempty
    rw [List.length_append]
    omega

theorem headersEnd_pos (h : FirstEnd headersEnd xs len) : 0 < len := by
  have hlen := h.2.1.length_le
  have hfour : headersEnd.length = 4 := by decide
  simp only [List.length_take] at hlen
  omega

/-- Whatever the segmentation, a head that fits the buffer is found where it first ends; the
buffer holds the stream up to the end of the read that got there, and the rest is unread. -/
theorem readUntilHeadersEnd_found (hend : FirstEnd headersEnd client.contents len)
    (hsize : len ≤ size) :
    ∃ rest, readUntilHeadersEnd client size =
        .found len (client.contents.take (readEnd size len 0 client.segments)) rest ∧
      rest.contents = client.contents.drop (readEnd size len 0 client.segments) ∧
      rest.ending = client.ending :=
  readLoop_found [] _ (headersEnd_pos hend) hsize (by simp) hend

theorem firstEnd_of_readUntilHeadersEnd
    (h : readUntilHeadersEnd client size = .found len buf rest) :
    FirstEnd headersEnd client.contents len ∧ len ≤ size :=
  (reads_readLoop size size [] client).firstEnd h

theorem readUntilHeadersEnd_finished (client : Stream UInt8) (size : Nat) :
    readUntilHeadersEnd client size ≠ .unfinished :=
  (reads_readLoop size size [] client).finished (Nat.le_add_left _ _)

theorem readUntilHeadersEnd_take (h : readUntilHeadersEnd client size = .found len buf rest) :
    len ≤ buf.length ∧ buf.take len = client.contents.take len := by
  obtain ⟨hend, hsize⟩ := firstEnd_of_readUntilHeadersEnd h
  obtain ⟨rest', hread, _⟩ := readUntilHeadersEnd_found hend hsize
  rw [h] at hread
  obtain ⟨_, rfl, _⟩ := HeadRead.found.inj hread
  have hlen := hend.1
  have hle : len ≤ readEnd size len 0 client.segments := by
    apply le_readEnd
    rw [Nat.zero_add]
    exact hlen
  constructor
  · rw [List.length_take]
    omega
  · rw [List.take_take, Nat.min_eq_left hle]

theorem Reads.more (h : Reads size reads buf client r) (hr : r ≠ .unfinished) (k : Nat) :
    Reads size (reads + k) buf client r := by
  induction h with
  | full hbuf => exact .full hbuf
  | exhausted _ => exact (hr rfl).elim
  | stopped hbuf hcont hread =>
    rw [Nat.add_right_comm]
    exact .stopped hbuf hcont hread
  | found ht hfind =>
    rw [Nat.add_right_comm]
    exact .found ht hfind
  | next ht hfind _ ih =>
    rw [Nat.add_right_comm]
    exact .next ht hfind (ih hr)

def HeadRead.returned : HeadRead → Option (Except String Nat)
  | .found len _ _ => some (.ok len)
  | .failed message => some (.error message)
  | .waiting | .unfinished => none

def headMissing (size len : Nat) (e : Ending) : Option (Except String Nat) :=
  if size ≤ len then
    some (.error ("header buffer overflow: request headers exceed " ++ toString size ++ " bytes"))
  else (stopped e).returned

/-- What `read_until_headers_end` has to return on a stream, however the stream is cut. -/
def headOutcome (size : Nat) (contents : Bytes) (e : Ending) : Option (Except String Nat) :=
  match findEnd headersEnd (contents.take size) with
  | some len => some (.ok len)
  | none => headMissing size contents.length e

theorem headMissing_ne_ok (size len : Nat) (e : Ending) (h : Nat) :
    headMissing size len e ≠ some (.ok h) := by
  rw [headMissing]
  split
  · exact nofun
  · cases e <;> exact nofun

theorem headMissing_error :
    (∃ message, headMissing size len e = some (.error message)) ↔ size ≤ len ∨ e ≠ .idle := by
  by_cases hsize : size ≤ len
  · simp [headMissing, hsize]
  · cases e <;> simp [headMissing, stopped, HeadRead.returned, hsize]

theorem headOutcome_ok {contents : Bytes} :
    headOutcome size contents e = some (.ok h) ↔ FirstEnd headersEnd contents h ∧ h ≤ size := by
  rw [← firstEnd_take, ← findEnd_eq_some, headOutcome]
  cases findEnd headersEnd (contents.take size) with
  | some len => simp
  | none => exact iff_of_false (headMissing_ne_ok _ _ _ _) nofun

theorem headOutcome_missing {contents : Bytes}
    (hno : ∀ h ≤ size, ¬ FirstEnd headersEnd contents h) :
    headOutcome size contents e = headMissing size contents.length e := by
  have hnone : findEnd headersEnd (contents.take size) = none := by
    apply findEnd_eq_none.2
    intro h hend
    obtain ⟨hend, hle⟩ := (firstEnd_take size contents).1 hend
    exact hno h hle hend
  rw [headOutcome, hnone]

theorem Reads.missing (h : Reads size reads buf client r) (hreads : size ≤ buf.length + reads)
    (hno : ∀ h ≤ size, ¬ FirstEnd headersEnd (buf ++ client.contents) h) :
    r.returned = headMissing size (buf ++ client.contents).length client.ending := by
  induction h with
  | full hbuf =>
    rw [headMissing, if_pos (by rw [List.length_append]; omega)]
    rfl
  | exhausted hbuf => omega
  | stopped hbuf hcont _ => rw [headMissing, hcont, List.append_nil, if_neg (by omega)]
  | found ht hfind =>
    obtain ⟨hfirst, hle⟩ := ht.firstEnd hfind
    exact (hno _ hle hfirst).elim
  | next ht _ _ ih =>
    have hpos := ht.nonempty
    rw [ht.contents, ← List.append_assoc] at hno ⊢
    rw [← ht.ending]
    apply ih _ hno
    rw [List.length_append]
    omega

/-- The result is a function of the stream alone, whatever its segments. -/
theorem readUntilHeadersEnd_returned (client : Stream UInt8) (size : Nat) :
    (readUntilHeadersEnd client size).returned =
      headOutcome size client.contents client.ending := by
  by_cases hend : ∃ h ≤ size, FirstEnd headersEnd client.contents h
  · obtain ⟨h, hle, hend⟩ := hend
    obtain ⟨rest, hread, _⟩ := readUntilHeadersEnd_found hend hle
    rw [hread, headOutcome_ok.2 ⟨hend, hle⟩]
    rfl
  · have hno : ∀ h ≤ size, ¬ FirstEnd headersEnd client.contents h := fun h hle h' =>
      hend ⟨h, hle, h'⟩
    rw [headOutcome_missing hno]
    exact (reads_readLoop size size [] client).missing (Nat.le_add_left _ _) hno

end ReverseProxy
