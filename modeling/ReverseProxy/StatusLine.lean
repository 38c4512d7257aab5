import ReverseProxy.Verdict

namespace ReverseProxy.C
open HttpHead Segments Utf8
set_option autoImplicit true

def digit (c : Char) : Nat := c.toNat - '0'.toNat

def IsVersion (a : List Char) : Prop :=
  ∃ major minor : Char, major.isDigit = true ∧ minor.isDigit = true ∧
    a = "HTTP/".toList ++ [major, '.', minor]

def IsSuccessCode (c : List Char) : Prop :=
  ∃ x y z : Char, c = [x, y, z] ∧ x.isDigit = true ∧ y.isDigit = true ∧ z.isDigit = true ∧
    200 ≤ 100 * digit x + 10 * digit y + digit z ∧ 100 * digit x + 10 * digit y + digit z ≤ 299

/-- What follows is a space or the end of the line, which is CRLF or a bare LF. -/
def EndsCode (rest : Bytes) : Prop := [sp] <+: rest ∨ [lf] <+: rest ∨ crlf <+: rest

instance (rest : Bytes) : Decidable (EndsCode rest) := by
  unfold EndsCode
  infer_instance

/-- The bytes begin with the status line of a success, up to its code and what ends that. -/
def BeginsSuccess (bs : Bytes) : Prop :=
  ∃ version code rest, IsVersion version ∧ IsSuccessCode code ∧ EndsCode rest ∧
    bs = encode (version ++ ' ' :: code) ++ rest

/-- The bytes are a text whose first words are `a` and `c`, with the white space `s` between them,
and which goes on with `r`. -/
structure FirstWords (bs : Bytes) (a s c r : List Char) : Prop where
  text : bs = encode (a ++ (s ++ (c ++ r)))
  first : a ≠ [] ∧ ∀ x ∈ a, isWhitespace x = false
  apart : s ≠ [] ∧ ∀ x ∈ s, isWhitespace x = true
  second : c ≠ [] ∧ ∀ x ∈ c, isWhitespace x = false
  rest : ∀ x ∈ r.head?, isWhitespace x = true

theorem head_of_forall {p : Char → Bool} {v : Bool} {t r : List Char} (hne : t ≠ [])
    (h : ∀ x ∈ t, p x = v) : ∀ x ∈ (t ++ r).head?, p x = v := by
  cases t with
  | nil => exact (hne rfl).elim
  | cons y t =>
    intro x hx
    cases hx
    exact h y List.mem_cons_self

theorem FirstWords.unique (h : FirstWords bs a s c r) (h' : FirstWords bs a' s' c' r') :
    a = a' ∧ s = s' ∧ c = c' ∧ r = r' := by
  have htext := encode_inj (h.text.symm.trans h'.text)
  obtain ⟨rfl, hapart⟩ := word_unique h.first.2 (head_of_forall h.apart.1 h.apart.2) h'.first.2
    (head_of_forall h'.apart.1 h'.apart.2) htext
  have hblank (x : Char) : (!isWhitespace x) = false ↔ isWhitespace x = true := by simp
  have hword (x : Char) : (!isWhitespace x) = true ↔ isWhitespace x = false := by simp
  have hs : ∀ x ∈ s, (!isWhitespace x) = false := fun x hx => (hblank x).2 (h.apart.2 x hx)
  have hs' : ∀ x ∈ s', (!isWhitespace x) = false := fun x hx => (hblank x).2 (h'.apart.2 x hx)
  have hc : ∀ x ∈ c, (!isWhitespace x) = true := fun x hx => (hword x).2 (h.second.2 x hx)
  have hc' : ∀ x ∈ c', (!isWhitespace x) = true := fun x hx => (hword x).2 (h'.second.2 x hx)
  obtain ⟨rfl, hrest⟩ := word_unique (p := fun x => !isWhitespace x) hs
    (head_of_forall h.second.1 hc) hs' (head_of_forall h'.second.1 hc') hapart
  obtain ⟨rfl, rfl⟩ := word_unique h.second.2 h.rest h'.second.2 h'.rest hrest
  exact ⟨rfl, rfl, rfl, rfl⟩

theorem exists_second (hd : isWhitespace d = false) (rest : List Char) :
    ∃ c r, d :: rest = c ++ r ∧ (∀ x ∈ c, isWhitespace x = false) ∧
      (∀ x ∈ r.head?, isWhitespace x = true) ∧ [d] <+: c := by
  obtain ⟨c, hc, hrest⟩ := exists_word rest
  have hdc : ∀ x ∈ d :: c, isWhitespace x = false := by
    intro x hx
    rcases List.mem_cons.1 hx with rfl | hx
    · exact hd
    · exact hc x hx
  rcases hrest with rfl | ⟨x, r, hx, rfl⟩
  · exact ⟨d :: rest, [], (List.append_nil _).symm, hdc, nofun, List.prefix_append [d] rest⟩
  · refine ⟨d :: c, x :: r, rfl, hdc, fun y hy => ?_, List.prefix_append [d] c⟩
    cases hy
    exact hx

theorem looksHealthy_firstWords : looksHealthy bs = true ↔
    ∃ a s c r, FirstWords bs a s c r ∧ "HTTP/".toList <+: a ∧ ['2'] <+: c := by
  rw [looksHealthy_iff]
  constructor
  · rintro ⟨a, s, rest, hbs, hpre, ha, hs, hws⟩
    obtain ⟨c, r, hrest, hc, hr, hsecond⟩ := exists_second (d := '2') (by decide) rest
    have hne : c ≠ [] := hsecond.ne_nil (List.cons_ne_nil _ _)
    refine ⟨a, s, c, r, ⟨?_, ⟨?_, ha⟩, ⟨hs, hws⟩, ⟨hne, hc⟩, hr⟩, hpre, hsecond⟩
    · rw [hbs, hrest, List.append_assoc]
    · rintro rfl
      cases List.prefix_nil.1 hpre
  · rintro ⟨a, s, c, r, h, hpre, t, rfl⟩
    refine ⟨a, s, t ++ r, ?_, hpre, h.first.2, h.apart.1, h.apart.2⟩
    rw [h.text]
    simp only [List.append_assoc, List.cons_append, List.nil_append]

theorem isDigit_iff {c : Char} : c.isDigit = true ↔ 48 ≤ c.toNat ∧ c.toNat ≤ 57 := by
  simp only [Char.isDigit, Bool.and_eq_true, decide_eq_true_eq, UInt32.le_iff_toNat_le, ge_iff_le]
  exact Iff.rfl

theorem digit_not_space {c : Char} (h : c.isDigit = true) : isWhitespace c = false := by
  obtain ⟨hlo, hhi⟩ := isDigit_iff.1 h
  simp only [isWhitespace, List.contains_eq_mem, List.mem_cons, List.not_mem_nil, or_false,
    Bool.or_eq_false_iff, Bool.and_eq_false_iff, decide_eq_false_iff_not]
  omega

theorem digit_ascii {c : Char} (h : c.isDigit = true) : c.toNat < 128 :=
  Nat.lt_of_le_of_lt (isDigit_iff.1 h).2 (by decide)

theorem isSuccessCode_iff : IsSuccessCode c ↔
    c.length = 3 ∧ (∀ x ∈ c, x.isDigit = true) ∧ ['2'] <+: c := by
  constructor
  · rintro ⟨x, y, z, rfl, hx, hy, hz, hlo, hhi⟩
    have hx' := isDigit_iff.1 hx
    have hy' := isDigit_iff.1 hy
    have hz' := isDigit_iff.1 hz
    have hzero : '0'.toNat = 48 := rfl
    simp only [digit, hzero] at hlo hhi
    have htwo : x = '2' := by
      apply Char.toNat_inj.1
      have : '2'.toNat = 50 := rfl
      omega
    subst htwo
    refine ⟨rfl, ?_, List.prefix_append ['2'] [y, z]⟩
    simp [hx, hy, hz]
  · rintro ⟨hlen, hdigit, t, rfl⟩
    match t, hlen with
    | [y, z], _ =>
      have hy := hdigit y (by simp)
      have hz := hdigit z (by simp)
      have hy' := isDigit_iff.1 hy
      have hz' := isDigit_iff.1 hz
      have hzero : '0'.toNat = 48 := rfl
      have htwo : '2'.toNat = 50 := rfl
      refine ⟨'2', y, z, rfl, rfl, hy, hz, ?_, ?_⟩
      · simp only [digit, hzero, htwo]
        omega
      · simp only [digit, hzero, htwo]
        omega

theorem head_space {a : Char} (ha : a.toNat < 128) (hw : isWhitespace a = true)
    (h : encode [a] <+: encode r) : ∀ x ∈ r.head?, isWhitespace x = true := by
  intro x hx
  rw [head_of_encode ha h] at hx
  cases hx
  exact hw

theorem EndsCode.space (h : EndsCode (encode r)) : ∀ x ∈ r.head?, isWhitespace x = true := by
  rcases h with hsp | hlf | hcrlf
  · exact head_space (a := ' ') (by decide) rfl hsp
  · exact head_space (a := '\n') (by decide) rfl hlf
  · have hcr : [cr] <+: encode r := (List.prefix_append [cr] [lf]).trans hcrlf
    exact head_space (a := '\r') (by decide) rfl hcr

theorem IsVersion.forall {P : Char → Prop} (h : IsVersion a) (hname : ∀ x ∈ "HTTP/".toList, P x)
    (hdot : P '.') (hdigit : ∀ x : Char, x.isDigit = true → P x) : ∀ x ∈ a, P x := by
  obtain ⟨major, minor, hmajor, hminor, rfl⟩ := h
  intro x hx
  rcases List.mem_append.1 hx with hx | hx
  · exact hname x hx
  · simp only [List.mem_cons, List.not_mem_nil, or_false] at hx
    rcases hx with rfl | rfl | rfl
    · exact hdigit x hmajor
    · exact hdot
    · exact hdigit x hminor

theorem IsVersion.first (h : IsVersion a) : a ≠ [] ∧ ∀ x ∈ a, isWhitespace x = false := by
  have hname : "HTTP/".toList.all (fun c => !isWhitespace c) = true := by decide
  refine ⟨?_, h.forall (fun x hx => ?_) rfl fun _ => digit_not_space⟩
  · obtain ⟨_, _, _, _, rfl⟩ := h
    exact List.cons_ne_nil _ _
  · simpa using List.all_eq_true.1 hname x hx

theorem IsVersion.ascii (h : IsVersion a) : ∀ x ∈ a, x.toNat < 128 := by
  have hname : "HTTP/".toList.all (fun c => c.toNat < 128) = true := by decide
  apply h.forall _ (by decide) fun _ => digit_ascii
  exact fun x hx => of_decide_eq_true (List.all_eq_true.1 hname x hx)

theorem BeginsSuccess.firstWords (h : BeginsSuccess bs) (hbs : bs = encode cs) :
    ∃ version code r, IsVersion version ∧ IsSuccessCode code ∧ EndsCode (encode r) ∧
      FirstWords bs version [' '] code r := by
  obtain ⟨version, code, rest, hversion, hcode, hends, htext⟩ := h
  obtain ⟨hlen, hdigit, hsuccess⟩ := isSuccessCode_iff.1 hcode
  have hne : code ≠ [] := hsuccess.ne_nil (List.cons_ne_nil _ _)
  have hlast := List.dropLast_append_getLast hne
  have hsplit : encode cs =
      encode (version ++ ' ' :: code.dropLast) ++ encode [code.getLast hne] ++ rest := by
    rw [← encode_append, List.append_assoc, List.cons_append, hlast, ← htext, hbs]
  have hascii : (code.getLast hne).toNat < 128 := digit_ascii (hdigit _ (List.getLast_mem hne))
  obtain ⟨u, r, rfl, hu, rfl⟩ := encode_split hascii hsplit
  have hspace : ∀ x ∈ [' '], isWhitespace x = true := by
    intro x hx
    rw [List.mem_singleton.1 hx]
    rfl
  refine ⟨version, code, r, hversion, hcode, hends, ?_, hversion.first,
    ⟨List.cons_ne_nil _ _, hspace⟩, ⟨hne, fun x hx => digit_not_space (hdigit x hx)⟩, hends.space⟩
  rw [htext, ← encode_append]
  simp

/-- A text on `HTTP/` whose second word starts with `2` opens with a version, one space and a code
of three digits, and goes on with a space or the end of the line. -/
def StatusWords (bs : Bytes) : Prop :=
  ∀ a s c r, FirstWords bs a s c r → "HTTP/".toList <+: a → ['2'] <+: c →
    IsVersion a ∧ s = [' '] ∧ (c.length = 3 ∧ ∀ x ∈ c, x.isDigit = true) ∧ EndsCode (encode r)

/-- A probe succeeds only on a status line exactly when the words it goes by are those of one. -/
theorem doProbe_success (path host : Bytes) (p : Peer) (bs : Bytes)
    (h : p.Delivers (probeRequest path host) bs) :
    (doProbe path host p = some true → BeginsSuccess bs) ↔ StatusWords bs := by
  rw [h.doProbe_eq, Option.some.injEq, looksHealthy_firstWords]
  constructor
  · intro hsuccess a s c r hwords hpre htwo
    obtain ⟨version, code, r', hversion, hcode, hends, hwords'⟩ :=
      (hsuccess ⟨a, s, c, r, hwords, hpre, htwo⟩).firstWords hwords.text
    obtain ⟨rfl, rfl, rfl, rfl⟩ := hwords.unique hwords'
    obtain ⟨hlen, hdigit, _⟩ := isSuccessCode_iff.1 hcode
    exact ⟨hversion, rfl, ⟨hlen, hdigit⟩, hends⟩
  · rintro hstatus ⟨a, s, c, r, hwords, hpre, htwo⟩
    obtain ⟨hversion, rfl, ⟨hlen, hdigit⟩, hends⟩ := hstatus a s c r hwords hpre htwo
    refine ⟨a, c, encode r, hversion, isSuccessCode_iff.2 ⟨hlen, hdigit, htwo⟩, hends, ?_⟩
    rw [hwords.text, ← encode_append]
    simp

theorem IsVersion.length (h : IsVersion a) : a.length = 8 := by
  obtain ⟨_, _, _, _, rfl⟩ := h
  rfl

theorem BeginsSuccess.endsCode (h : BeginsSuccess bs) : EndsCode (bs.drop 12) := by
  obtain ⟨version, code, rest, hversion, hcode, hends, rfl⟩ := h
  obtain ⟨hlen, hdigit, _⟩ := isSuccessCode_iff.1 hcode
  have hascii : ∀ x ∈ version ++ ' ' :: code, x.toNat < 128 := by
    intro x hx
    rcases List.mem_append.1 hx with hx | hx
    · exact hversion.ascii x hx
    · rcases List.mem_cons.1 hx with rfl | hx
      · decide
      · exact digit_ascii (hdigit x hx)
  have hlength : (encode (version ++ ' ' :: code)).length = 12 := by
    rw [length_encode_ascii hascii, List.length_append, List.length_cons, hversion.length, hlen]
  rwa [List.drop_left' hlength]

theorem doProbe_success_ok : StatusWords response200 := by
  apply (doProbe_success (ascii "/health") (ascii "a") (cutPeer response200 19 .eof) response200
    (cutPeer_delivers _ response200 19 (by decide) (by decide) .eof)).1
  intro _
  exact ⟨"HTTP/1.0".toList, "200".toList, ascii " OK\r\n\r\n", ⟨'1', '0', rfl, rfl, rfl⟩,
    ⟨'2', '0', '0', rfl, rfl, rfl, rfl, by decide, by decide⟩, by decide, by decide⟩

/-- The probe takes these bytes for a success, and they do not begin with the status line of one. -/
def Misjudged (path host bs : Bytes) : Prop :=
  ∃ p : Peer, p.Delivers (probeRequest path host) bs ∧ doProbe path host p = some true ∧
    ¬ BeginsSuccess bs

theorem misjudged_of_ends (path host : Bytes) (hne : bs ≠ []) (hlen : bs.length ≤ probeBufSize)
    (hhealthy : looksHealthy bs = true) (hends : ¬ EndsCode (bs.drop 12)) :
    Misjudged path host bs := by
  have hdelivers := cutPeer_delivers (probeRequest path host) bs bs.length
    (by rwa [List.take_length]) hlen .eof
  rw [List.take_length] at hdelivers
  refine ⟨_, hdelivers, ?_, fun h => hends h.endsCode⟩
  rw [hdelivers.doProbe_eq, hhealthy]

/-- A code that is cut off, one that is too long, and one on the next line. -/
theorem doProbe_success_malformed :
    Misjudged (ascii "/health") (ascii "a") (ascii "HTTP/1.1 2") ∧
      Misjudged (ascii "/health") (ascii "a") (ascii "HTTP/1.1 2000 OK\r\n\r\n") ∧
      Misjudged (ascii "/health") (ascii "a") (ascii "HTTP/1.1\r\n200 OK\r\n") := by
  refine ⟨?_, ?_, ?_⟩
  · exact misjudged_of_ends _ _ (by decide) (by decide) (by decide) (by decide)
  · exact misjudged_of_ends _ _ (by decide) (by decide) (by decide) (by decide)
  · exact misjudged_of_ends _ _ (by decide) (by decide) (by decide) (by decide)

end ReverseProxy.C
