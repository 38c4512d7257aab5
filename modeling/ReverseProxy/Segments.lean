import Mathlib.Data.List.Basic
import Mathlib.Data.Nat.Find

namespace Segments
set_option autoImplicit true

/-- How a stream goes on after its last segment; an idle stream sends nothing more. -/
inductive Ending
  | eof
  | error
  | idle
deriving DecidableEq, Repr

/-- A stream as the network cuts it, in segments that each hold something. -/
structure Stream (α : Type u) where
  segments : List (List α)
  nonempty : ∀ seg ∈ segments, seg ≠ []
  ending : Ending

def Stream.contents (s : Stream α) : List α := s.segments.flatten

inductive Read (α : Type u)
  | data (xs : List α) (rest : Stream α)
  | stop (e : Ending)

def Stream.leave (cap : Nat) (seg : List α) (segs : List (List α))
    (h : ∀ t ∈ segs, t ≠ []) (e : Ending) : Stream α :=
  if hc : seg.length ≤ cap then ⟨segs, h, e⟩
  else
    { segments := seg.drop cap :: segs
      nonempty := by
        intro t ht
        rcases List.mem_cons.1 ht with rfl | ht
        · exact fun he => hc (List.drop_eq_nil_iff.1 he)
        · exact h t ht
      ending := e }

/-- One read with room for `cap` elements takes no more than the next segment holds. -/
def Stream.read (cap : Nat) : Stream α → Read α
  | ⟨[], _, e⟩ => .stop e
  | ⟨seg :: segs, h, e⟩ =>
    .data (seg.take cap) (Stream.leave cap seg segs (fun t ht => h t (by simp [ht])) e)

theorem Stream.leave_contents (cap : Nat) (seg : List α) (segs : List (List α))
    (h : ∀ t ∈ segs, t ≠ []) (e : Ending) :
    (Stream.leave cap seg segs h e).contents = seg.drop cap ++ segs.flatten := by
  unfold Stream.leave
  split
  · next hc => simp [Stream.contents, List.drop_eq_nil_iff.2 hc]
  · simp [Stream.contents]

theorem Stream.leave_ending (cap : Nat) (seg : List α) (segs : List (List α))
    (h : ∀ t ∈ segs, t ≠ []) (e : Ending) : (Stream.leave cap seg segs h e).ending = e := by
  unfold Stream.leave
  split <;> rfl

theorem Stream.read_cons (cap : Nat) (seg : List α) (segs : List (List α))
    (h : ∀ t ∈ seg :: segs, t ≠ []) (e : Ending) :
    ∃ rest, Stream.read cap ⟨seg :: segs, h, e⟩ = .data (seg.take cap) rest ∧
      seg.take cap ++ rest.contents = Stream.contents ⟨seg :: segs, h, e⟩ ∧ rest.ending = e ∧
      (seg.length ≤ cap → rest.segments = segs) := by
  refine ⟨Stream.leave cap seg segs (fun t ht => h t (by simp [ht])) e, rfl, ?_,
    Stream.leave_ending _ _ _ _ _, fun hc => ?_⟩
  · rw [Stream.leave_contents, ← List.append_assoc, List.take_append_drop]
    rfl
  · rw [Stream.leave, dif_pos hc]

theorem Stream.read_first (s : Stream α) (cap : Nat) :
    (s.contents = [] ∧ s.read cap = .stop s.ending) ∨
      s.contents ≠ [] ∧ ∃ k rest, k ≤ cap ∧ s.read cap = .data (s.contents.take k) rest := by
  obtain ⟨segs, hne, e⟩ := s
  cases segs with
  | nil => exact .inl ⟨rfl, rfl⟩
  | cons seg segs =>
    obtain ⟨rest, hread, _⟩ := Stream.read_cons cap seg segs hne e
    refine .inr ⟨?_, min cap seg.length, rest, Nat.min_le_left _ _, ?_⟩
    · rw [Stream.contents, List.flatten_cons]
      exact List.append_ne_nil_of_left_ne_nil (hne seg (by simp)) _
    · rw [hread, Stream.contents, List.flatten_cons,
        List.take_append_of_le_length (Nat.min_le_right _ _), List.take_eq_take_min]

theorem Stream.read_data {s : Stream α} (h : s.read cap = .data xs rest) :
    xs ++ rest.contents = s.contents ∧ rest.ending = s.ending := by
  obtain ⟨segs, hne, e⟩ := s
  cases segs with
  | nil => cases h
  | cons seg segs =>
    obtain ⟨rest', hread, hcontents, hending, _⟩ := Stream.read_cons cap seg segs hne e
    cases hread.symm.trans h
    exact ⟨hcontents, hending⟩

theorem Stream.read_data_ne {s : Stream α} (h : s.read cap = .data xs rest) (hcap : 0 < cap) :
    xs ≠ [] := by
  obtain ⟨segs, hne, e⟩ := s
  cases segs with
  | nil => cases h
  | cons seg segs =>
    cases h
    rw [Ne, List.take_eq_nil_iff]
    rintro (hzero | hnil)
    · exact Nat.ne_of_gt hcap hzero
    · exact hne seg (by simp) hnil

theorem Stream.read_data_length {s : Stream α} (h : s.read cap = .data xs rest) :
    xs.length ≤ cap := by
  obtain ⟨segs, hne, e⟩ := s
  cases segs with
  | nil => cases h
  | cons seg segs =>
    cases h
    exact List.length_take_le cap seg

theorem Stream.read_stop {s : Stream α} (h : s.read cap = .stop e) :
    s.contents = [] ∧ s.ending = e := by
  obtain ⟨segs, hne, ending⟩ := s
  cases segs with
  | nil =>
    cases h
    exact ⟨rfl, rfl⟩
  | cons seg segs => cases h

/-- A stream in two segments, or in one when the cut leaves nothing on one side of it. -/
def Stream.cut (xs : List α) (k : Nat) (e : Ending) : Stream α where
  segments := [xs.take k, xs.drop k].filter (fun seg => !seg.isEmpty)
  nonempty := by
    intro seg h he
    rw [he] at h
    simp at h
  ending := e

theorem Stream.cut_contents (xs : List α) (k : Nat) (e : Ending) :
    (Stream.cut xs k e).contents = xs := by
  rw [Stream.contents, Stream.cut, List.flatten_filter_not_isEmpty, List.flatten_cons,
    List.flatten_singleton, List.take_append_drop]

theorem Stream.cut_read {xs : List α} (cap : Nat) (hk : xs.take k ≠ []) (e : Ending) :
    ∃ rest, (Stream.cut xs k e).read cap = .data ((xs.take k).take cap) rest := by
  have hsegs : (Stream.cut xs k e).segments =
      xs.take k :: [xs.drop k].filter (fun seg => !seg.isEmpty) := by
    have hp : (!(xs.take k).isEmpty) = true := by
      rw [Bool.not_eq_true', List.isEmpty_eq_false_iff]
      exact hk
    exact List.filter_cons_of_pos (p := fun seg : List α => !seg.isEmpty) hp
  revert hsegs
  cases Stream.cut xs k e with
  | mk segs hne e =>
    intro hsegs
    subst hsegs
    exact ⟨_, rfl⟩

/-- Where the read that reaches position `h` ends, when `filled` elements have been read and the
buffer holds `size`. -/
def readEnd (size h filled : Nat) : List (List α) → Nat
  | [] => filled
  | seg :: segs =>
    if h ≤ min size (filled + seg.length) then min size (filled + seg.length)
    else readEnd size h (filled + seg.length) segs

theorem le_readEnd (size : Nat) (segs : List (List α))
    (hlen : h ≤ filled + segs.flatten.length) : h ≤ readEnd size h filled segs := by
  induction segs generalizing filled with
  | nil => simpa [readEnd] using hlen
  | cons seg segs ih =>
    rw [readEnd]
    split
    · assumption
    · apply ih
      simp only [List.flatten_cons, List.length_append] at hlen
      omega

theorem readEnd_le (size h filled : Nat) (segs : List (List α)) :
    readEnd size h filled segs ≤ filled + segs.flatten.length := by
  induction segs generalizing filled with
  | nil => simp [readEnd]
  | cons seg segs ih =>
    have := ih (filled + seg.length)
    rw [readEnd]
    simp only [List.flatten_cons, List.length_append]
    split <;> omega

theorem readEnd_eq_iff (hsize : h ≤ size) (hf : filled < h) (segs : List (List α))
    (hlen : h ≤ filled + segs.flatten.length) :
    readEnd size h filled segs = h ↔
      h = size ∨ ∃ k, filled + (segs.take k).flatten.length = h := by
  induction segs generalizing filled with
  | nil =>
    simp only [List.flatten_nil, List.length_nil, Nat.add_zero] at hlen
    omega
  | cons seg segs ih =>
    rw [readEnd]
    simp only [List.flatten_cons, List.length_append] at hlen
    split
    · next hle =>
      constructor
      · intro he
        by_cases hs : h = size
        · exact .inl hs
        · refine .inr ⟨1, ?_⟩
          simp only [List.take_succ_cons, List.take_zero, List.flatten_cons, List.flatten_nil,
            List.append_nil]
          omega
      · rintro (he | ⟨k, hk⟩)
        · omega
        · cases k with
          | zero =>
            simp only [List.take_zero, List.flatten_nil, List.length_nil] at hk
            omega
          | succ k =>
            simp only [List.take_succ_cons, List.flatten_cons, List.length_append] at hk
            omega
    · next hle =>
      rw [ih (by omega) (by omega)]
      apply or_congr Iff.rfl
      constructor
      · rintro ⟨k, hk⟩
        refine ⟨k + 1, ?_⟩
        simp only [List.take_succ_cons, List.flatten_cons, List.length_append]
        omega
      · rintro ⟨k, hk⟩
        cases k with
        | zero =>
          simp only [List.take_zero, List.flatten_nil, List.length_nil] at hk
          omega
        | succ k =>
          refine ⟨k, ?_⟩
          simp only [List.take_succ_cons, List.flatten_cons, List.length_append] at hk
          omega

/-- The first occurrence of `pat` in `xs` ends at position `h`. -/
def FirstEnd (pat xs : List α) (h : Nat) : Prop :=
  h ≤ xs.length ∧ pat <:+ xs.take h ∧ ∀ k < h, ¬ pat <:+ xs.take k

theorem FirstEnd.unique (h₁ : FirstEnd pat xs i) (h₂ : FirstEnd pat xs j) : i = j := by
  rcases Nat.lt_trichotomy i j with h | h | h
  · exact (h₂.2.2 i h h₁.2.1).elim
  · exact h
  · exact (h₁.2.2 j h h₂.2.1).elim

theorem firstEnd_append (hle : h ≤ xs.length) (ys : List α) :
    FirstEnd pat (xs ++ ys) h ↔ FirstEnd pat xs h := by
  have htake (k : Nat) (hk : k ≤ h) : (xs ++ ys).take k = xs.take k :=
    List.take_append_of_le_length (by omega)
  constructor
  · rintro ⟨_, hs, hn⟩
    exact ⟨hle, htake h (by omega) ▸ hs, fun k hk => htake k (by omega) ▸ hn k hk⟩
  · rintro ⟨_, hs, hn⟩
    refine ⟨by simp only [List.length_append]; omega, ?_, fun k hk => ?_⟩
    · rwa [htake h (by omega)]
    · rw [htake k (by omega)]
      exact hn k hk

theorem firstEnd_take (size : Nat) (xs : List α) :
    FirstEnd pat (xs.take size) h ↔ FirstEnd pat xs h ∧ h ≤ size := by
  by_cases hle : h ≤ (xs.take size).length
  · have happ : FirstEnd pat (xs.take size ++ xs.drop size) h ↔ FirstEnd pat (xs.take size) h :=
      firstEnd_append hle _
    rw [List.take_append_drop] at happ
    rw [happ]
    rw [List.length_take] at hle
    exact ⟨fun hend => ⟨hend, by omega⟩, fun hend => hend.1⟩
  · constructor
    · intro hend
      exact (hle hend.1).elim
    · rintro ⟨hend, hsize⟩
      have hlen := hend.1
      rw [List.length_take] at hle
      omega

theorem exists_firstEnd_iff : (∃ h, FirstEnd pat xs h) ↔ pat <:+: xs := by
  constructor
  · rintro ⟨h, _, hsuf, _⟩
    exact List.infix_iff_suffix_prefix.2 ⟨xs.take h, hsuf, List.take_prefix h xs⟩
  · intro hin
    obtain ⟨ys, hsuf, hpre⟩ := List.infix_iff_suffix_prefix.1 hin
    have hex : ∃ k, pat <:+ xs.take k := ⟨ys.length, by rwa [← List.prefix_iff_eq_take.1 hpre]⟩
    classical
    refine ⟨Nat.find hex, ?_, Nat.find_spec hex, fun k hk => Nat.find_min hex hk⟩
    apply Nat.le_of_not_lt
    intro hlt
    apply Nat.find_min hex hlt
    have hsuf := Nat.find_spec hex
    rwa [List.take_of_length_le (Nat.le_of_lt hlt), ← List.take_length (l := xs)] at hsuf

theorem forall_not_firstEnd_iff (size : Nat) (xs : List α) :
    (∀ h ≤ size, ¬ FirstEnd pat xs h) ↔ ¬ pat <:+: xs.take size := by
  rw [← exists_firstEnd_iff]
  constructor
  · rintro hno ⟨h, hend⟩
    obtain ⟨hend, hle⟩ := (firstEnd_take size xs).1 hend
    exact hno h hle hend
  · intro hno h hle hend
    exact hno ⟨h, (firstEnd_take size xs).2 ⟨hend, hle⟩⟩

/-- A scan of every position in turn for `pat`; the result is where it ends. -/
def findEnd [BEq α] (pat xs : List α) : Option Nat :=
  ((List.range (xs.length + 1 - pat.length)).find? (fun i =>
    (xs.drop i).take pat.length == pat)).map (fun i => i + pat.length)

theorem suffix_take_iff (xs : List α) (hi : i + pat.length ≤ xs.length) :
    pat <:+ xs.take (i + pat.length) ↔ (xs.drop i).take pat.length = pat := by
  have hlen : ((xs.drop i).take pat.length).length = pat.length := by
    simp only [List.length_take, List.length_drop]
    omega
  have hsuf : (xs.drop i).take pat.length <:+ xs.take (i + pat.length) := by
    rw [List.take_add]
    exact List.suffix_append _ _
  constructor
  · intro h
    exact ((List.suffix_of_suffix_length_le h hsuf (by omega)).eq_of_length hlen.symm).symm
  · intro h
    rwa [h] at hsuf

theorem findEnd_eq_some [BEq α] [LawfulBEq α] {pat xs : List α} :
    findEnd pat xs = some h ↔ FirstEnd pat xs h := by
  simp only [findEnd, Option.map_eq_some_iff, List.find?_range_eq_some, beq_iff_eq,
    Bool.not_eq_true']
  constructor
  · rintro ⟨i, ⟨hi, hm, hn⟩, rfl⟩
    have hlen : i + pat.length ≤ xs.length := by
      have := List.mem_range.1 hm
      omega
    refine ⟨hlen, (suffix_take_iff xs hlen).2 hi, fun k hk hs => ?_⟩
    have hpk : pat.length ≤ k := by
      have := hs.length_le
      simp only [List.length_take] at this
      omega
    obtain ⟨j, rfl⟩ := Nat.exists_eq_add_of_le' hpk
    have := hn j (by omega)
    rw [(suffix_take_iff xs (by omega)).1 hs] at this
    simp at this
  · rintro ⟨hle, hs, hn⟩
    have hp : pat.length ≤ h := by
      have := hs.length_le
      simp only [List.length_take] at this
      omega
    obtain ⟨i, rfl⟩ := Nat.exists_eq_add_of_le' hp
    refine ⟨i, ⟨(suffix_take_iff xs hle).1 hs, List.mem_range.2 (by omega), fun j hj => ?_⟩, rfl⟩
    rw [beq_eq_false_iff_ne]
    exact fun he => hn (j + pat.length) (by omega) ((suffix_take_iff xs (by omega)).2 he)

theorem findEnd_eq_none [BEq α] [LawfulBEq α] {pat xs : List α} :
    findEnd pat xs = none ↔ ∀ h, ¬ FirstEnd pat xs h := by
  rw [Option.eq_none_iff_forall_ne_some]
  exact forall_congr' fun h => not_congr findEnd_eq_some

end Segments
