import Mathlib.Data.List.Basic

namespace Utf8
set_option autoImplicit true

def encode (cs : List Char) : List UInt8 := cs.flatMap String.utf8EncodeChar

def decode (bs : List UInt8) : Option (List Char) :=
  bs.toByteArray.utf8Decode?.map Array.toList

def isWhitespace (c : Char) : Bool :=
  (9 ≤ c.toNat && c.toNat ≤ 13) || (0x2000 ≤ c.toNat && c.toNat ≤ 0x200A) ||
    [0x20, 0x85, 0xA0, 0x1680, 0x2028, 0x2029, 0x202F, 0x205F, 0x3000].contains c.toNat

/-- The words of a text, which any amount of white space separates. -/
def splitWhitespace (cs : List Char) : List (List Char) :=
  (cs.splitOnP isWhitespace).filter (fun t => !t.isEmpty)

theorem encode_append (cs ds : List Char) : encode (cs ++ ds) = encode cs ++ encode ds :=
  List.flatMap_append

theorem length_le_encode (cs : List Char) : cs.length ≤ (encode cs).length := by
  induction cs with
  | nil => exact Nat.le_refl _
  | cons c cs ih =>
    have hc := Char.utf8Size_pos c
    rw [← String.length_utf8EncodeChar] at hc
    simp only [encode, List.flatMap_cons, List.length_append, List.length_cons] at ih ⊢
    omega

theorem decode_eq_some : decode bs = some cs ↔ bs = encode cs := by
  constructor
  · intro h
    obtain ⟨a, ha, rfl⟩ := Option.map_eq_some_iff.1 h
    have hsome : bs.toByteArray.utf8Decode?.isSome := by rw [ha]; rfl
    have henc := ByteArray.utf8Encode_get_utf8Decode? (h := hsome)
    simp only [ha, Option.get_some] at henc
    exact (List.toByteArray_inj.1 henc).symm
  · intro h
    have henc := List.utf8Decode?_utf8Encode (l := cs)
    rw [h, decode]
    exact congrArg (Option.map Array.toList) henc

theorem encode_inj (h : encode cs = encode ds) : cs = ds :=
  Option.some.inj ((decode_eq_some.2 rfl).symm.trans (decode_eq_some.2 h))

theorem encode_cons (c : Char) (cs : List Char) :
    encode (c :: cs) = String.utf8EncodeChar c ++ encode cs := List.flatMap_cons

theorem not_lt_or {a k : UInt8} (hk : 128 ≤ k.toNat) : ¬ (a ||| k).toNat < 128 := by
  rw [UInt8.toNat_or]
  have : k.toNat ≤ a.toNat ||| k.toNat := Nat.right_le_or
  omega

theorem utf8EncodeChar_of_mem (hb : b ∈ String.utf8EncodeChar c) (hlt : b.toNat < 128) :
    String.utf8EncodeChar c = [b] := by
  rcases Char.utf8Size_eq c with h | h | h | h
  · rw [String.utf8EncodeChar_eq_singleton h] at hb ⊢
    rw [List.mem_singleton.1 hb]
  · rw [String.utf8EncodeChar_eq_cons_cons h] at hb
    simp only [List.mem_cons, List.not_mem_nil, or_false] at hb
    rcases hb with rfl | rfl
    · exact (not_lt_or (by decide) hlt).elim
    · exact (not_lt_or (by decide) hlt).elim
  · rw [String.utf8EncodeChar_eq_cons_cons_cons h] at hb
    simp only [List.mem_cons, List.not_mem_nil, or_false] at hb
    rcases hb with rfl | rfl | rfl
    · exact (not_lt_or (by decide) hlt).elim
    · exact (not_lt_or (by decide) hlt).elim
    · exact (not_lt_or (by decide) hlt).elim
  · rw [String.utf8EncodeChar_eq_cons_cons_cons_cons h] at hb
    simp only [List.mem_cons, List.not_mem_nil, or_false] at hb
    rcases hb with rfl | rfl | rfl | rfl
    · exact (not_lt_or (by decide) hlt).elim
    · exact (not_lt_or (by decide) hlt).elim
    · exact (not_lt_or (by decide) hlt).elim
    · exact (not_lt_or (by decide) hlt).elim

theorem encode_ascii {a : Char} (ha : a.toNat < 128) :
    ∃ b : UInt8, encode [a] = [b] ∧ b.toNat < 128 := by
  have hsize : a.utf8Size = 1 := by
    rw [Char.utf8Size_eq_one_iff, UInt32.le_iff_toNat_le]
    exact Nat.le_of_lt_succ ha
  have henc := String.utf8EncodeChar_eq_singleton hsize
  refine ⟨a.val.toUInt8, by rw [encode_cons, henc]; rfl, ?_⟩
  rw [UInt32.toNat_toUInt8]
  exact Nat.lt_of_le_of_lt (Nat.mod_le _ _) ha

theorem length_encode_ascii {cs : List Char} (h : ∀ c ∈ cs, c.toNat < 128) :
    (encode cs).length = cs.length := by
  induction cs with
  | nil => rfl
  | cons c cs ih =>
    obtain ⟨b, hb, _⟩ := encode_ascii (h c List.mem_cons_self)
    have hcons : encode (c :: cs) = encode [c] ++ encode cs := encode_append [c] cs
    rw [hcons, hb, List.length_append, ih (fun d hd => h d (List.mem_cons_of_mem c hd))]
    exact Nat.add_comm 1 cs.length

theorem encode_split_byte (hb : encode [a] = [b]) (hlt : b.toNat < 128)
    (h : encode cs = x ++ b :: y) : ∃ u v, cs = u ++ a :: v ∧ x = encode u ∧ y = encode v := by
  induction cs generalizing x with
  | nil =>
    have := congrArg List.length h
    simp [encode] at this
  | cons c cs ih =>
    rw [encode_cons] at h
    have hrest (x' : List UInt8) (hx : x = String.utf8EncodeChar c ++ x')
        (hcs : encode cs = x' ++ b :: y) :
        ∃ u v, c :: cs = u ++ a :: v ∧ x = encode u ∧ y = encode v := by
      obtain ⟨u, v, rfl, rfl, rfl⟩ := ih hcs
      exact ⟨c :: u, v, rfl, by rw [hx, encode_cons], rfl⟩
    rcases List.append_eq_append_iff.1 h with ⟨x', hx, hcs⟩ | ⟨z, hc, hz⟩
    · exact hrest x' hx hcs
    · cases z with
      | nil =>
        rw [List.append_nil] at hc
        exact hrest [] (by rw [hc, List.append_nil]) hz.symm
      | cons d z =>
        obtain ⟨rfl, rfl⟩ := List.cons.inj hz
        have hchar := utf8EncodeChar_of_mem (c := c) (b := b) (by rw [hc]; simp) hlt
        have hca : [c] = [a] := encode_inj (by
          rw [hb, ← hchar, encode_cons]
          exact List.append_nil _)
        obtain rfl := List.head_eq_of_cons_eq hca
        rw [hchar] at hc
        have hlen := congrArg List.length hc
        simp only [List.length_append, List.length_cons, List.length_nil] at hlen
        obtain rfl := List.length_eq_zero_iff.1 (show x.length = 0 by omega)
        obtain rfl := List.length_eq_zero_iff.1 (show z.length = 0 by omega)
        exact ⟨[], cs, rfl, rfl, rfl⟩

theorem encode_split {a : Char} (ha : a.toNat < 128) (h : encode cs = x ++ encode [a] ++ y) :
    ∃ u v, cs = u ++ a :: v ∧ x = encode u ∧ y = encode v := by
  obtain ⟨b, hb, hlt⟩ := encode_ascii ha
  rw [hb, List.append_assoc] at h
  exact encode_split_byte hb hlt h

theorem head_of_encode {a : Char} (ha : a.toNat < 128) (h : encode [a] <+: encode cs) :
    cs.head? = some a := by
  obtain ⟨y, hy⟩ := h
  obtain ⟨u, v, rfl, hu, _⟩ := encode_split (x := []) ha hy.symm
  have hnil : encode [] = encode u := hu
  rw [← encode_inj hnil]
  rfl

theorem decode_append {a : Char} (ha : a.toNat < 128) (x y : List UInt8) :
    decode (x ++ encode [a] ++ y) =
      (decode x).bind (fun u => (decode y).map (fun v => u ++ a :: v)) := by
  ext cs
  rw [decode_eq_some, Option.bind_eq_some_iff]
  constructor
  · intro h
    obtain ⟨u, v, rfl, rfl, rfl⟩ := encode_split ha h.symm
    exact ⟨u, decode_eq_some.2 rfl, Option.map_eq_some_iff.2 ⟨v, decode_eq_some.2 rfl, rfl⟩⟩
  · rintro ⟨u, hu, h⟩
    obtain ⟨v, hv, rfl⟩ := Option.map_eq_some_iff.1 h
    rw [decode_eq_some.1 hu, decode_eq_some.1 hv, List.append_cons, encode_append, encode_append]

theorem splitWhitespace_space (hw : isWhitespace c = true) (cs : List Char) :
    splitWhitespace (c :: cs) = splitWhitespace cs := by
  have h := List.splitOnP_append_cons (p := isWhitespace) [] cs hw
  rw [List.nil_append, List.splitOnP_nil] at h
  rw [splitWhitespace, h]
  rfl

theorem splitWhitespace_spaces (hs : ∀ c ∈ s, isWhitespace c = true) (cs : List Char) :
    splitWhitespace (s ++ cs) = splitWhitespace cs := by
  induction s with
  | nil => rfl
  | cons c s ih =>
    rw [List.cons_append, splitWhitespace_space (hs c (by simp)),
      ih (fun d hd => hs d (by simp [hd]))]

theorem splitWhitespace_word (hne : a ≠ []) (ha : ∀ c ∈ a, isWhitespace c = false) :
    splitWhitespace a = [a] := by
  rw [splitWhitespace, List.splitOnP_eq_singleton ha]
  cases a with
  | nil => exact (hne rfl).elim
  | cons c a => rfl

theorem splitWhitespace_cons (hne : a ≠ []) (ha : ∀ c ∈ a, isWhitespace c = false)
    (hw : isWhitespace w = true) (cs : List Char) :
    splitWhitespace (a ++ w :: cs) = a :: splitWhitespace cs := by
  rw [splitWhitespace, List.splitOnP_append_cons _ _ hw, List.filter_append,
    List.splitOnP_eq_singleton ha]
  cases a with
  | nil => exact (hne rfl).elim
  | cons c a => rfl

theorem splitWhitespace_append (hw : isWhitespace w = true) (cs ds : List Char) :
    splitWhitespace (cs ++ w :: ds) = splitWhitespace cs ++ splitWhitespace ds := by
  rw [splitWhitespace, List.splitOnP_append_cons _ _ hw, List.filter_append]
  rfl

theorem exists_word (cs : List Char) : ∃ a, (∀ c ∈ a, isWhitespace c = false) ∧
    (cs = a ∨ ∃ w r, isWhitespace w = true ∧ cs = a ++ w :: r) := by
  induction cs with
  | nil => exact ⟨[], by simp, .inl rfl⟩
  | cons c cs ih =>
    cases hc : isWhitespace c with
    | true => exact ⟨[], by simp, .inr ⟨c, cs, hc, rfl⟩⟩
    | false =>
      obtain ⟨a, ha, h⟩ := ih
      have hca : ∀ d ∈ c :: a, isWhitespace d = false := by
        intro d hd
        rcases List.mem_cons.1 hd with rfl | hd
        · exact hc
        · exact ha d hd
      refine ⟨c :: a, hca, ?_⟩
      rcases h with rfl | ⟨w, r, hw, rfl⟩
      · exact .inl rfl
      · exact .inr ⟨w, r, hw, rfl⟩

theorem exists_spaces (cs : List Char) : ∃ s r, cs = s ++ r ∧
    (∀ c ∈ s, isWhitespace c = true) ∧ ∀ c ∈ r.head?, isWhitespace c = false := by
  induction cs with
  | nil => exact ⟨[], [], rfl, by simp, by simp⟩
  | cons c cs ih =>
    cases hc : isWhitespace c with
    | false => exact ⟨[], c :: cs, rfl, by simp, by simp [hc]⟩
    | true =>
      obtain ⟨s, r, rfl, hs, hr⟩ := ih
      refine ⟨c :: s, r, rfl, ?_, hr⟩
      intro d hd
      rcases List.mem_cons.1 hd with rfl | hd
      · exact hc
      · exact hs d hd

theorem first_word (hc : isWhitespace c = false) (cs : List Char) :
    ∃ t ts, splitWhitespace (c :: cs) = (c :: t) :: ts := by
  obtain ⟨a, ha, h⟩ := exists_word (c :: cs)
  cases a with
  | nil =>
    rcases h with h | ⟨w, r, hw, h⟩
    · cases h
    · cases h
      rw [hc] at hw
      cases hw
  | cons d t =>
    rcases h with h | ⟨w, r, hw, h⟩
    · rw [h, splitWhitespace_word (by simp) ha]
      cases h
      exact ⟨cs, [], rfl⟩
    · rw [h, splitWhitespace_cons (by simp) ha hw]
      cases h
      exact ⟨t, splitWhitespace r, rfl⟩

theorem second_word (hc : isWhitespace c = false)
    (h : (splitWhitespace (c :: cs))[1]? = some (d :: t)) :
    ∃ a s rest, c :: cs = a ++ s ++ d :: rest ∧ (∀ x ∈ a, isWhitespace x = false) ∧
      s ≠ [] ∧ ∀ x ∈ s, isWhitespace x = true := by
  obtain ⟨a, ha, hcs⟩ := exists_word (c :: cs)
  have hne : a ≠ [] := by
    rintro rfl
    rcases hcs with hcs | ⟨w, r, hw, hcs⟩
    · cases hcs
    · cases hcs
      rw [hc] at hw
      cases hw
  rcases hcs with hcs | ⟨w, r, hw, hcs⟩
  · rw [hcs, splitWhitespace_word hne ha] at h
    cases h
  · obtain ⟨s, r, rfl, hs, hr⟩ := exists_spaces r
    rw [hcs, splitWhitespace_cons hne ha hw, splitWhitespace_spaces hs] at h
    have hws : ∀ x ∈ w :: s, isWhitespace x = true := by
      intro x hx
      rcases List.mem_cons.1 hx with rfl | hx
      · exact hw
      · exact hs x hx
    cases r with
    | nil => cases h
    | cons e r =>
      obtain ⟨u, ts, hu⟩ := first_word (hr e rfl) r
      rw [hu] at h
      cases h
      exact ⟨a, w :: s, r, by rw [hcs]; simp, ha, by simp, hws⟩

theorem second_word_eq (hne : a ≠ []) (ha : ∀ c ∈ a, isWhitespace c = false) (hs : s ≠ [])
    (hws : ∀ c ∈ s, isWhitespace c = true) (hd : isWhitespace d = false) (rest : List Char) :
    ∃ t, (splitWhitespace (a ++ s ++ d :: rest))[1]? = some (d :: t) := by
  cases s with
  | nil => exact (hs rfl).elim
  | cons w s =>
    obtain ⟨t, ts, ht⟩ := first_word hd rest
    rw [List.append_assoc, List.cons_append, splitWhitespace_cons hne ha (hws w (by simp)),
      splitWhitespace_spaces (fun c hc => hws c (by simp [hc])), ht]
    exact ⟨t, rfl⟩

theorem takeWhile_word {p : α → Bool} {a r : List α} (ha : ∀ c ∈ a, p c = false)
    (hr : ∀ c ∈ r.head?, p c = true) : (a ++ r).takeWhile (fun c => !p c) = a := by
  rw [List.takeWhile_append_of_pos (fun c hc => by rw [ha c hc]; rfl)]
  cases r with
  | nil => exact List.append_nil a
  | cons c r => rw [List.takeWhile_cons_of_neg (by simp [hr c rfl]), List.append_nil]

theorem word_unique {p : α → Bool} {a a' r r' : List α} (ha : ∀ c ∈ a, p c = false)
    (hr : ∀ c ∈ r.head?, p c = true) (ha' : ∀ c ∈ a', p c = false)
    (hr' : ∀ c ∈ r'.head?, p c = true) (h : a ++ r = a' ++ r') : a = a' ∧ r = r' := by
  have hword := takeWhile_word ha hr
  rw [h, takeWhile_word ha' hr'] at hword
  rw [hword] at h
  exact ⟨hword.symm, List.append_cancel_left h⟩

end Utf8
