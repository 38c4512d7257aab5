import ReverseProxy.Balancer
import ReverseProxy.HeadReader

namespace ReverseProxy
open HttpHead Segments
set_option autoImplicit true

def slice (buf : List α) (a b : Nat) : Except Panic (List α) :=
  if a ≤ b ∧ b ≤ buf.length then .ok ((buf.drop a).take (b - a)) else .error .outOfBounds

theorem slice_of_le {buf : List α} (hab : a ≤ b) (hb : b ≤ buf.length) :
    slice buf a b = .ok ((buf.drop a).take (b - a)) := if_pos ⟨hab, hb⟩

def overwrite (buf : Bytes) (filled : Nat) (xs : Bytes) : Bytes :=
  buf.take filled ++ xs ++ buf.drop (filled + xs.length)

def scanOffsets (buf : Bytes) : List Nat → Except Panic (Option Nat)
  | [] => .ok none
  | i :: is =>
    match slice buf i (i + 4) with
    | .error p => .error p
    | .ok window => if window == headersEnd then .ok (some (i + 4)) else scanOffsets buf is

def scanFilled (buf : Bytes) (filled : Nat) : Except Panic (Option Nat) :=
  if 4 ≤ filled then scanOffsets buf (List.range (filled - 4 + 1)) else .ok none

/-- The loop of `read_until_headers_end` on the whole buffer, for at most `reads` reads. -/
def fillLoop : Nat → Bytes → Nat → Stream UInt8 → Except Panic HeadRead
  | reads, buf, filled, client =>
    if buf.length ≤ filled then
      .ok (.failed
        ("header buffer overflow: request headers exceed " ++ toString buf.length ++ " bytes"))
    else match reads with
      | 0 => .ok .unfinished
      | reads + 1 =>
        match slice buf filled buf.length with
        | .error p => .error p
        | .ok room =>
          match client.read room.length with
          | .stop .eof => .ok (.failed "client closed connection before completing headers")
          | .stop .error => .ok (.failed "failed to read from client")
          | .stop .idle => .ok .waiting
          | .data xs rest =>
            let buf' := overwrite buf filled xs
            match scanFilled buf' (filled + xs.length) with
            | .error p => .error p
            | .ok (some len) => .ok (.found len buf' rest)
            | .ok none => fillLoop reads buf' (filled + xs.length) rest

/-- What a read leaves in the whole buffer, whose first bytes it has filled. -/
def HeadRead.over (old : Bytes) : HeadRead → HeadRead
  | .found len buf rest => .found len (buf ++ old.drop buf.length) rest
  | r => r

theorem overwrite_length (hf : filled + xs.length ≤ buf.length) :
    (overwrite buf filled xs).length = buf.length := by
  simp only [overwrite, List.length_append, List.length_take, List.length_drop]
  omega

theorem overwrite_take (hf : filled ≤ buf.length) :
    (overwrite buf filled xs).take (filled + xs.length) = buf.take filled ++ xs := by
  apply List.take_left'
  simp only [List.length_append, List.length_take]
  omega

theorem overwrite_drop (hf : filled ≤ buf.length) (hk : filled + xs.length ≤ k) :
    (overwrite buf filled xs).drop k = buf.drop k := by
  have hlen : (buf.take filled ++ xs).length = filled + xs.length := by
    simp only [List.length_append, List.length_take]
    omega
  rw [overwrite, List.drop_append, List.drop_of_length_le (by omega), List.nil_append, hlen,
    List.drop_drop, Nat.add_sub_cancel' hk]

theorem scanOffsets_eq {is : List Nat} (hf : filled ≤ buf.length)
    (his : ∀ i ∈ is, i + 4 ≤ filled) :
    scanOffsets buf is = .ok ((is.find? (fun i =>
      ((buf.take filled).drop i).take 4 == headersEnd)).map (fun i => i + 4)) := by
  induction is with
  | nil => rfl
  | cons i is ih =>
    have hi := his i (by simp)
    have hwindow : ((buf.take filled).drop i).take 4 = (buf.drop i).take 4 := by
      rw [List.drop_take, List.take_take, Nat.min_eq_left (by omega)]
    rw [scanOffsets, slice_of_le (Nat.le_add_right i 4) (by omega), Nat.add_sub_cancel_left,
      List.find?_cons, hwindow]
    cases hm : (buf.drop i).take 4 == headersEnd with
    | true => simp only [hm, if_true, Option.map_some]
    | false =>
      simp only [hm, Bool.false_eq_true, if_false]
      exact ih (fun k hk => his k (by simp [hk]))

theorem scanFilled_eq (hf : filled ≤ buf.length) :
    scanFilled buf filled = .ok (findEnd headersEnd (buf.take filled)) := by
  have hfour : headersEnd.length = 4 := by decide
  have hlen : (buf.take filled).length = filled := by
    rw [List.length_take]
    omega
  rw [scanFilled, findEnd, hfour, hlen]
  split
  · next hle =>
    rw [scanOffsets_eq hf (fun i hi => by rw [List.mem_range] at hi; omega),
      Nat.sub_add_comm hle]
  · next hle =>
    rw [Nat.sub_eq_zero_of_le (by omega)]
    rfl

theorem Reads.extends (h : Reads size reads buf client r) :
    r = .found len buf' rest → buf <+: buf' ∧ buf'.length ≤ size := by
  induction h with
  | full _ =>
    intro he
    cases he
  | exhausted _ =>
    intro he
    cases he
  | stopped _ _ _ =>
    intro he
    exact (stopped_ne_found _ _ _ _ he).elim
  | found ht _ =>
    intro he
    cases he
    rw [List.length_append]
    exact ⟨List.prefix_append _ _, ht.fits⟩
  | next _ _ _ ih =>
    intro he
    obtain ⟨hpre, hlen⟩ := ih he
    exact ⟨(List.prefix_append _ _).trans hpre, hlen⟩

theorem over_overwrite (hf : filled ≤ buf.length) (r : HeadRead)
    (hr : ∀ len b rest, r = .found len b rest → filled + xs.length ≤ b.length) :
    r.over (overwrite buf filled xs) = r.over buf := by
  cases r with
  | found len b rest =>
    simp only [HeadRead.over]
    rw [overwrite_drop hf (hr len b rest rfl)]
  | failed message => rfl
  | waiting => rfl
  | unfinished => rfl

theorem fillLoop_full (hf : buf.length ≤ filled) (reads : Nat) (client : Stream UInt8) :
    fillLoop reads buf filled client = .ok (.failed
      ("header buffer overflow: request headers exceed " ++ toString buf.length ++ " bytes")) := by
  cases reads <;> rw [fillLoop, if_pos hf]

theorem room_length (buf : Bytes) (filled : Nat) :
    ((buf.drop filled).take (buf.length - filled)).length = buf.length - filled := by
  rw [List.length_take, List.length_drop, Nat.min_self]

theorem fillLoop_stopped (hf : filled < buf.length)
    (hread : client.read (buf.length - filled) = .stop e) (reads : Nat) :
    fillLoop (reads + 1) buf filled client = .ok (stopped e) := by
  rw [fillLoop, if_neg (by omega), slice_of_le (by omega) (Nat.le_refl _)]
  simp only [room_length, hread]
  cases e <;> rfl

theorem fillLoop_data (hf : filled < buf.length)
    (hread : client.read (buf.length - filled) = .data xs rest) :
    fillLoop (reads + 1) buf filled client =
      match scanFilled (overwrite buf filled xs) (filled + xs.length) with
      | .error p => .error p
      | .ok (some len) => .ok (.found len (overwrite buf filled xs) rest)
      | .ok none => fillLoop reads (overwrite buf filled xs) (filled + xs.length) rest := by
  rw [fillLoop, if_neg (by omega), slice_of_le (by omega) (Nat.le_refl _)]
  simp only [room_length, hread]

theorem scanFilled_overwrite (hf : filled + xs.length ≤ buf.length) :
    scanFilled (overwrite buf filled xs) (filled + xs.length) =
      .ok (findEnd headersEnd (buf.take filled ++ xs)) := by
  have hlen := overwrite_length hf
  rw [scanFilled_eq (by omega), overwrite_take (by omega)]

/-- Every course of the loop on the filled part is one of the loop on the buffer. -/
theorem Reads.fillLoop (h : Reads size reads pre client r) (buf : Bytes) (filled : Nat)
    (hsize : buf.length = size) (hpre : buf.take filled = pre) (hf : filled = pre.length) :
    fillLoop reads buf filled client = .ok (r.over buf) := by
  induction h generalizing buf filled with
  | full hfull =>
    rw [← hsize, fillLoop_full (by omega)]
    rfl
  | exhausted hroom =>
    rw [ReverseProxy.fillLoop, if_neg (by omega)]
    rfl
  | @stopped _ _ client hroom _ hread =>
    rw [← hsize, ← hf] at hread
    rw [fillLoop_stopped (by omega) hread]
    cases client.ending <;> rfl
  | found ht hfind =>
    have hroom := ht.room
    have hfits := ht.fits
    have hread := ht.read
    rw [← hsize, ← hf] at hread
    rw [fillLoop_data (by omega) hread, scanFilled_overwrite (by omega), hpre, hfind]
    simp only [HeadRead.over, List.length_append, ← hf]
    rw [overwrite, hpre]
  | @next pre _ xs _ _ _ ht hfind hr ih =>
    have hroom := ht.room
    have hfits := ht.fits
    have hread := ht.read
    rw [← hsize, ← hf] at hread
    have hlen := (overwrite_length (by omega : filled + xs.length ≤ buf.length)).trans hsize
    have htake : (overwrite buf filled xs).take (filled + xs.length) = pre ++ xs :=
      (overwrite_take (by omega)).trans (by rw [hpre])
    have hfilled : filled + xs.length = (pre ++ xs).length := by rw [List.length_append, hf]
    rw [fillLoop_data (by omega) hread, scanFilled_overwrite (by omega), hpre, hfind]
    simp only
    rw [ih _ _ hlen htake hfilled, over_overwrite (by omega)]
    intro len b rest hfound
    have hle := (hr.extends hfound).1.length_le
    rw [List.length_append, ← hf] at hle
    exact hle

theorem fillLoop_eq (hf : filled ≤ buf.length) :
    fillLoop reads buf filled client =
      .ok ((readLoop buf.length reads (buf.take filled) client).over buf) := by
  apply (reads_readLoop buf.length reads (buf.take filled) client).fillLoop buf filled rfl rfl
  rw [List.length_take]
  omega

def readInto (client : Stream UInt8) (buf : Bytes) : Except Panic HeadRead :=
  fillLoop buf.length buf 0 client

theorem returned_over (old : Bytes) (r : HeadRead) : (r.over old).returned = r.returned := by
  cases r <;> rfl

/-- However many reads the loop is allowed beyond the buffer's size, it needs no more. -/
theorem fillLoop_enough (client : Stream UInt8) (hreads : buf.length ≤ reads) :
    fillLoop reads buf 0 client = .ok ((readUntilHeadersEnd client buf.length).over buf) := by
  have hmore := (reads_readLoop buf.length buf.length [] client).more
    (readUntilHeadersEnd_finished client buf.length) (reads - buf.length)
  rw [Nat.add_sub_cancel' hreads] at hmore
  rw [fillLoop_eq (Nat.zero_le _), List.take_zero, hmore.eq]
  rfl

/-- What `read_until_headers_end` makes of the stream: the first end of a head, if it is within the
buffer, and else an error as soon as the buffer is full or the stream ends. -/
structure ReadsHead (buf : Bytes) (client : Stream UInt8) (r : HeadRead) : Prop where
  found : ∀ h, r.returned = some (.ok h) ↔
    FirstEnd headersEnd client.contents h ∧ h ≤ buf.length
  buffer : ∀ h b rest, r = .found h b rest →
    b.length = buf.length ∧ b.take h = client.contents.take h
  failed : (∃ message, r.returned = some (.error message)) ↔
    (∀ h ≤ buf.length, ¬ FirstEnd headersEnd client.contents h) ∧
      (buf.length ≤ client.contents.length ∨ client.ending ≠ .idle)
  finished : r ≠ .unfinished

theorem over_finished (client : Stream UInt8) (buf : Bytes) :
    (readUntilHeadersEnd client buf.length).over buf ≠ .unfinished := by
  have := readUntilHeadersEnd_finished client buf.length
  cases hread : readUntilHeadersEnd client buf.length with
  | unfinished => exact (this hread).elim
  | _ => exact nofun

theorem over_buffer (h : (readUntilHeadersEnd client buf.length).over buf = .found len b rest) :
    b.length = buf.length ∧ b.take len = client.contents.take len := by
  cases hread : readUntilHeadersEnd client buf.length with
  | found len' b' rest' =>
    rw [hread] at h
    obtain ⟨rfl, rfl, rfl⟩ := HeadRead.found.inj h
    obtain ⟨hle, htake⟩ := readUntilHeadersEnd_take hread
    have hlen := ((reads_readLoop buf.length buf.length [] client).extends hread).2
    constructor
    · rw [List.length_append, List.length_drop]
      omega
    · rw [List.take_append_of_le_length hle, htake]
  | _ =>
    rw [hread] at h
    cases h

/-- Over any buffer and any stream, in any segments, `read_until_headers_end` stays in the buffer
and returns the first end of a head after no more reads than the buffer has bytes; another split of
the stream changes nothing. -/
theorem readInto_readsHead (buf : Bytes) (client : Stream UInt8) :
    (∃ r, readInto client buf = .ok r ∧
      (∀ reads, buf.length ≤ reads → fillLoop reads buf 0 client = .ok r) ∧
      ReadsHead buf client r) ∧
    ∀ client' : Stream UInt8, client'.contents = client.contents →
      client'.ending = client.ending →
      (readInto client' buf).map HeadRead.returned =
        (readInto client buf).map HeadRead.returned := by
  have hreturned (c : Stream UInt8) := readUntilHeadersEnd_returned c buf.length
  constructor
  · refine ⟨_, fillLoop_enough client (Nat.le_refl _),
      fun reads hreads => fillLoop_enough client hreads, ?_⟩
    refine ⟨fun h => ?_, fun h b rest hr => over_buffer hr, ?_, over_finished client buf⟩
    · rw [returned_over, hreturned, headOutcome_ok]
    · rw [returned_over, hreturned]
      by_cases hend : ∃ h ≤ buf.length, FirstEnd headersEnd client.contents h
      · obtain ⟨h, hle, hend⟩ := hend
        rw [headOutcome_ok.2 ⟨hend, hle⟩]
        constructor
        · rintro ⟨message, hmessage⟩
          cases hmessage
        · rintro ⟨hno, _⟩
          exact (hno h hle hend).elim
      · have hno : ∀ h ≤ buf.length, ¬ FirstEnd headersEnd client.contents h := fun h hle h' =>
          hend ⟨h, hle, h'⟩
        rw [headOutcome_missing hno, headMissing_error]
        exact ⟨fun h => ⟨hno, h⟩, fun h => h.2⟩
  · intro client' hcont hending
    rw [readInto, readInto, fillLoop_enough client' (Nat.le_refl _),
      fillLoop_enough client (Nat.le_refl _)]
    simp only [Except.map, returned_over, hreturned, hcont, hending]

end ReverseProxy
