import Mathlib.Data.Option.Basic
import ReverseProxy.HttpHead

namespace HttpHead
set_option autoImplicit true

theorem word_eq_some {p : UInt8 → Bool} (hstop : p stop = false) :
    word p stop bs = some (w, rest) ↔
      bs = w ++ stop :: rest ∧ w ≠ [] ∧ ∀ b ∈ w, p b = true := by
  constructor
  · intro h
    unfold word at h
    split at h
    · cases h
    · next b r hd =>
      split at h
      · next hb =>
        simp only [Option.some.injEq, Prod.mk.injEq] at h
        obtain ⟨rfl, rfl⟩ := h
        refine ⟨?_, hb.2, fun b hb => List.mem_takeWhile_imp hb⟩
        rw [← hb.1, ← hd, List.takeWhile_append_dropWhile]
      · cases h
  · rintro ⟨rfl, hne, hp⟩
    have htake : (w ++ stop :: rest).takeWhile p = w := by
      rw [List.takeWhile_append_of_pos hp, List.takeWhile_cons_of_neg (by simp [hstop]),
        List.append_nil]
    have hdrop : (w ++ stop :: rest).dropWhile p = stop :: rest := by
      rw [List.dropWhile_append_of_pos hp, List.dropWhile_cons_of_neg (by simp [hstop])]
    simp only [word, htake, hdrop]
    simp [hne]

theorem word_token (p : UInt8 → Bool) (stop : UInt8) (hstop : p stop = false) (hne : w ≠ [])
    (hp : ∀ b ∈ w, p b = true) (rest : Bytes) : word p stop (w ++ stop :: rest) = some (w, rest) :=
  (word_eq_some hstop).2 ⟨rfl, hne, hp⟩

theorem word_other (p : UInt8 → Bool) (c stop : UInt8) (hc : p c = false) (hne : c ≠ stop)
    (hp : ∀ b ∈ w, p b = true) (rest : Bytes) : word p stop (w ++ c :: rest) = none := by
  have hdrop : (w ++ c :: rest).dropWhile p = c :: rest := by
    rw [List.dropWhile_append_of_pos hp, List.dropWhile_cons_of_neg (by simp [hc])]
  simp [word, hdrop, hne]

@[simp] theorem content_crlf (l : Bytes) : content (l ++ crlf) = l := by
  have h : (l ++ crlf).dropLast = l ++ [cr] := by
    simp [crlf, List.dropLast_append_of_ne_nil]
  simp [content, h]

theorem rawLines_line (hl : lf ∉ l) (bs : Bytes) :
    rawLines (l ++ lf :: bs) = (l ++ [lf]) :: rawLines bs := by
  induction l with
  | nil => simp [rawLines]
  | cons b l ih =>
    simp only [List.mem_cons, not_or] at hl
    have hb : b ≠ lf := fun h => hl.1 h.symm
    simp [rawLines, hb, ih hl.2]

theorem rawLines_crlf (hl : lf ∉ l) (bs : Bytes) :
    rawLines (l ++ crlf ++ bs) = (l ++ crlf) :: rawLines bs := by
  have h : lf ∉ l ++ [cr] := by
    simp only [List.mem_append, List.mem_singleton, not_or]
    exact ⟨hl, by decide⟩
  have he : l ++ crlf ++ bs = (l ++ [cr]) ++ lf :: bs := by simp [crlf]
  rw [he, rawLines_line h]
  simp [crlf]

theorem not_mem_class {p : UInt8 → Bool} {w : Bytes} (hc : p c = false)
    (hp : ∀ b ∈ w, p b = true) : c ∉ w := by
  intro h
  rw [hp c h] at hc
  cases hc

theorem crlf_class : ∀ b ∈ crlf, isTchar b = false ∧ isTargetByte b = false ∧
    isValueByte b = false ∧ b ≠ colon ∧ b ≠ sp ∧ b ∉ ascii "HTTP/1.1" := by decide +kernel

theorem Header.Wf.not_mem_line {h : Header} (hw : h.Wf) (hb : b ∈ crlf) : b ∉ h.line := by
  obtain ⟨htchar, _, hvalue, hcolon, hsp, _⟩ := crlf_class b hb
  simp only [Header.line, List.mem_append, List.mem_cons, not_or]
  exact ⟨not_mem_class htchar hw.name.2, hcolon, hsp, not_mem_class hvalue hw.value.1⟩

theorem Request.Wf.not_mem_line {r : Request} (hw : r.Wf) (hb : b ∈ crlf) : b ∉ r.line := by
  obtain ⟨htchar, htarget, _, _, hsp, hversion⟩ := crlf_class b hb
  simp only [Request.line, List.mem_append, List.mem_cons, not_or]
  exact ⟨not_mem_class htchar hw.method.2, hsp, not_mem_class htarget hw.target.2.1, hsp, hversion⟩

theorem Header.Wf.lf_not_mem {h : Header} (hw : h.Wf) : lf ∉ h.line :=
  hw.not_mem_line (by decide)

theorem Request.Wf.lf_not_mem {r : Request} (hw : r.Wf) : lf ∉ r.line :=
  hw.not_mem_line (by decide)

theorem Header.line_ne (h : Header) : h.line ≠ [] := by simp [Header.line]

theorem Request.line_ne (r : Request) : r.line ≠ [] := by simp [Request.line]

theorem trim_blank_cons (hb : isBlank b = true) (v : Bytes) : trim (b :: v) = trim v := by
  simp [trim, List.dropWhile_cons_of_pos hb]

theorem parseFieldLine_line {h : Header} (hw : h.Wf) : parseFieldLine h.line = some h := by
  have hword := word_token isTchar colon (by decide) hw.name.1 hw.name.2
    (sp :: h.value)
  have hall : (sp :: h.value).all isValueByte = true := by
    simp only [List.all_cons, List.all_eq_true.2 hw.value.1, Bool.and_true]
    decide
  have htrim : trim (sp :: h.value) = h.value :=
    (trim_blank_cons (by decide) h.value).trans hw.value.2
  simp only [parseFieldLine, Header.line, hword, Option.bind_eq_bind, Option.bind_some, hall,
    guard_true, htrim]
  rfl

theorem parseRequestLine_line {r : Request} (hw : r.Wf) :
    parseRequestLine r.line = some (r.method, r.target, 1) := by
  have hm := word_token isTchar sp (by decide) hw.method.1 hw.method.2
    (r.target ++ sp :: ascii "HTTP/1.1")
  have ht := word_token isTargetByte sp (by decide) hw.target.1 hw.target.2.1
    (ascii "HTTP/1.1")
  have hv : parseVersion (ascii "HTTP/1.1") = some 1 := by decide
  simp only [parseRequestLine, Request.line, hm, ht, hv, hw.target.2.2, guard_true,
    Option.bind_eq_bind, Option.bind_some]
  rfl

theorem parseRequestLine_field {h : Header} (hw : h.Wf) : parseRequestLine h.line = none := by
  have hword := word_other isTchar colon sp (by decide) (by decide)
    hw.name.2 (sp :: h.value)
  simp only [parseRequestLine, Header.line, hword]
  rfl

theorem parseFieldLine_request {r : Request} (hw : r.Wf) : parseFieldLine r.line = none := by
  have hword := word_other isTchar sp colon (by decide) (by decide)
    hw.method.2 (r.target ++ sp :: ascii "HTTP/1.1")
  simp only [parseFieldLine, Request.line, hword]
  rfl

def fieldText (hs : List Header) : List Bytes := hs.map (fun h => h.line ++ crlf) ++ [crlf]

theorem rawLines_fields (hw : ∀ h ∈ hs, Header.Wf h) (bs : Bytes) :
    rawLines (hs.flatMap (fun h => h.line ++ crlf) ++ crlf ++ bs) =
      fieldText hs ++ rawLines bs := by
  induction hs with
  | nil => simpa [fieldText] using rawLines_crlf (l := []) (by simp) bs
  | cons h hs ih =>
    have hh := (hw h (by simp)).lf_not_mem
    have ih := ih (fun g hg => hw g (by simp [hg]))
    have he : (h :: hs).flatMap (fun h => h.line ++ crlf) ++ crlf ++ bs =
        h.line ++ crlf ++ (hs.flatMap (fun h => h.line ++ crlf) ++ crlf ++ bs) := by
      simp only [List.flatMap_cons, List.append_assoc]
    rw [he, rawLines_crlf hh, ih]
    rfl

theorem rawLines_print {r : Request} (hw : r.Wf) (bs : Bytes) :
    rawLines (r.print ++ bs) = (r.line ++ crlf) :: (fieldText r.headers ++ rawLines bs) := by
  have he : r.print ++ bs = r.line ++ crlf ++
      (r.headers.flatMap (fun h => h.line ++ crlf) ++ crlf ++ bs) := by
    simp only [Request.print, List.append_assoc]
  rw [he, rawLines_crlf hw.lf_not_mem, rawLines_fields hw.headers]

theorem parseFields_text (hw : ∀ h ∈ hs, Header.Wf h) (ls : List Bytes) :
    parseFields (fieldText hs ++ ls) =
      some (hs, (hs.flatMap (fun h => h.line ++ crlf) ++ crlf).length) := by
  induction hs with
  | nil =>
    have hc : content crlf = [] := content_crlf []
    simp [fieldText, parseFields, hc]
  | cons h hs ih =>
    have hh := parseFieldLine_line (hw h (by simp))
    have ih := ih (fun g hg => hw g (by simp [hg]))
    have he : fieldText (h :: hs) ++ ls = (h.line ++ crlf) :: (fieldText hs ++ ls) := rfl
    rw [he, parseFields, content_crlf, if_neg h.line_ne, hh, ih]
    simp [Nat.add_assoc]

/-- What is printed is parsed back, and nothing after it is taken. -/
theorem parse_print {r : Request} (hw : r.Wf) (hv : r.version = 1) (bs : Bytes) :
    parse (r.print ++ bs) = some (r, r.print.length) := by
  have hr := parseRequestLine_line hw
  have hf := parseFields_text hw.headers (rawLines bs)
  rw [parse, rawLines_print hw, parseLines, content_crlf, if_neg r.line_ne, hr, hf]
  have hlen : (r.line ++ crlf).length +
      (r.headers.flatMap (fun h => h.line ++ crlf) ++ crlf).length = r.print.length := by
    simp only [Request.print, List.length_append]
    omega
  cases r
  simp only at hv
  subst hv
  simpa using hlen

theorem eq_line (hcr : cr ∉ l) (h : l ++ crlf = pre ++ cr :: as) : pre = l ∧ as = [lf] := by
  rcases List.append_eq_append_iff.1 h with ⟨c, rfl, hc⟩ | ⟨c, rfl, hc⟩
  · match c, hc with
    | [], hc =>
      cases hc
      exact ⟨List.append_nil l, rfl⟩
    | [b], hc => exact absurd (List.cons.inj (List.cons.inj hc).2).1 (by decide)
    | b :: b' :: c, hc => simp [crlf] at hc
  · cases c with
    | nil =>
      cases hc
      exact ⟨(List.append_nil pre).symm, rfl⟩
    | cons b c =>
      cases hc
      simp at hcr

/-- Where no line before the last is empty, the first empty line is the last. -/
theorem no_earlier_end {lines : List Bytes} (hl : ∀ l ∈ lines, l ≠ [] ∧ cr ∉ l)
    (h : lines.flatMap (fun l => l ++ crlf) ++ crlf = pre ++ (crlf ++ (crlf ++ post))) :
    post = [] := by
  induction lines generalizing pre with
  | nil =>
    have hlen := congrArg List.length h
    simp only [List.flatMap_nil, List.nil_append, List.length_append, crlf, List.length_cons,
      List.length_nil] at hlen
    omega
  | cons l lines ih =>
    have hrest : ∀ k ∈ lines, k ≠ [] ∧ cr ∉ k := fun k hk => hl k (List.mem_cons_of_mem _ hk)
    rw [List.flatMap_cons, List.append_assoc, List.append_eq_append_iff] at h
    rcases h with ⟨a, _, h⟩ | ⟨a, ha, h⟩
    · exact ih hrest h
    · cases a with
      | nil => exact ih hrest (h.symm.trans (List.nil_append _).symm)
      | cons b a =>
        obtain ⟨rfl, _⟩ := List.cons.inj h
        obtain ⟨rfl, rfl⟩ := eq_line (hl l List.mem_cons_self).2 ha
        -- what follows the line begins with an empty one
        have htail : crlf ++ post = lines.flatMap (fun l => l ++ crlf) ++ crlf :=
          List.append_cancel_left (show crlf ++ _ = crlf ++ _ from h)
        cases lines with
        | nil => exact List.append_right_eq_self.1 htail
        | cons k lines =>
          obtain ⟨hne, hcr⟩ := hrest k List.mem_cons_self
          obtain ⟨b, k, rfl⟩ := List.exists_cons_of_ne_nil hne
          rw [← (List.cons.inj htail).1] at hcr
          exact (hcr List.mem_cons_self).elim

theorem print_eq (r : Request) :
    r.print = (r.line :: r.headers.map Header.line).flatMap (fun l => l ++ crlf) ++ crlf := by
  rw [Request.print, List.flatMap_cons, List.flatMap_map]

theorem trim_trim (v : Bytes) : trim (trim v) = trim v := by
  have hd : (trim v).dropWhile isBlank = trim v := by
    cases he : trim v with
    | nil => rfl
    | cons a t =>
      obtain ⟨u, hu⟩ : trim v <+: v.dropWhile isBlank := List.rdropWhile_prefix _ _
      rw [he] at hu
      have ha := List.head?_dropWhile_not isBlank v
      simp only [← hu, List.cons_append, List.head?_cons] at ha
      rw [List.dropWhile_cons_of_neg (by simp [ha])]
  calc trim (trim v) = (trim v).rdropWhile isBlank := by rw [trim, hd]
    _ = trim v := List.rdropWhile_idempotent _ _

theorem mem_of_mem_trim (h : b ∈ trim v) : b ∈ v :=
  (List.dropWhile_sublist _).subset ((List.rdropWhile_prefix _ _).subset h)

theorem parseFieldLine_wf (h : parseFieldLine l = some f) : f.Wf := by
  simp only [parseFieldLine, Option.bind_eq_bind, Option.bind_eq_some_iff] at h
  obtain ⟨⟨n, v⟩, hword, _, hg, hf⟩ := h
  obtain ⟨_, hne, hn⟩ := (word_eq_some (by decide)).1 hword
  have hv := List.all_eq_true.1 ((Option.guard_eq_some' _).1 hg)
  cases hf
  exact ⟨⟨hne, hn⟩, fun b hb => hv b (mem_of_mem_trim hb), trim_trim v⟩

theorem parseRequestLine_wf (h : parseRequestLine l = some (m, t, v)) :
    IsToken m ∧ IsTarget t := by
  simp only [parseRequestLine, Option.bind_eq_bind, Option.bind_eq_some_iff] at h
  obtain ⟨⟨m', l'⟩, hm, ⟨t', l''⟩, ht, _, hg, v', hv, he⟩ := h
  obtain ⟨_, hmne, hm⟩ := (word_eq_some (by decide)).1 hm
  obtain ⟨_, htne, ht⟩ := (word_eq_some (by decide)).1 ht
  cases he
  exact ⟨⟨hmne, hm⟩, htne, ht, (Option.guard_eq_some' _).1 hg⟩

theorem parseFields_wf (h : parseFields ls = some (hs, n)) : ∀ f ∈ hs, f.Wf := by
  induction ls generalizing hs n with
  | nil => cases h
  | cons l ls ih =>
    rw [parseFields] at h
    split at h
    · cases h
      simp
    · simp only [Option.bind_eq_bind, Option.bind_eq_some_iff] at h
      obtain ⟨f, hf, ⟨hs', n'⟩, hr, he⟩ := h
      cases he
      intro g hg
      rcases List.mem_cons.1 hg with rfl | hg
      · exact parseFieldLine_wf hf
      · exact ih hr g hg

theorem parseLines_wf (h : parseLines ls = some (r, n)) : r.Wf := by
  induction ls generalizing r n with
  | nil => cases h
  | cons l ls ih =>
    rw [parseLines] at h
    split at h
    · simp only [Option.bind_eq_bind, Option.bind_eq_some_iff] at h
      obtain ⟨⟨r', n'⟩, hr, he⟩ := h
      cases he
      exact ih hr
    · simp only [Option.bind_eq_bind, Option.bind_eq_some_iff] at h
      obtain ⟨⟨m, t, v⟩, hm, ⟨hs, n'⟩, hf, he⟩ := h
      cases he
      obtain ⟨hm, ht⟩ := parseRequestLine_wf hm
      exact ⟨hm, ht, parseFields_wf hf⟩

theorem parse_wf (h : parse bs = some (r, n)) : r.Wf := parseLines_wf h

/-- A text contains a head when one starts at the beginning of one of its lines. -/
def Contains (bs : Bytes) (r : Request) : Prop :=
  ∃ ls n, ls <:+ rawLines bs ∧ parseLines ls = some (r, n)

def lineField (l : Bytes) : Option Header := parseFieldLine (content l)

def fieldLines (bs : Bytes) : List Header := (rawLines bs).filterMap lineField

theorem parseFields_fieldLines (h : parseFields ls = some (hs, n)) (hf : f ∈ hs) :
    f ∈ ls.filterMap lineField := by
  induction ls generalizing hs n with
  | nil => cases h
  | cons l ls ih =>
    rw [parseFields] at h
    split at h
    · cases h
      cases hf
    · simp only [Option.bind_eq_bind, Option.bind_eq_some_iff] at h
      obtain ⟨g, hg, ⟨hs', n'⟩, hr, he⟩ := h
      cases he
      rw [List.filterMap_cons_some (f := lineField) hg]
      rcases List.mem_cons.1 hf with rfl | hf
      · exact List.mem_cons_self
      · exact List.mem_cons_of_mem _ (ih hr hf)

theorem parseLines_fieldLines (h : parseLines ls = some (r, n)) (hf : f ∈ r.headers) :
    f ∈ ls.filterMap lineField := by
  induction ls generalizing r n with
  | nil => cases h
  | cons l ls ih =>
    rw [parseLines] at h
    have hsub : ls.filterMap lineField ⊆
        (l :: ls).filterMap lineField :=
      ((List.sublist_cons_self l ls).filterMap _).subset
    split at h
    · simp only [Option.bind_eq_bind, Option.bind_eq_some_iff] at h
      obtain ⟨⟨r', n'⟩, hr, he⟩ := h
      cases he
      exact hsub (ih hr hf)
    · simp only [Option.bind_eq_bind, Option.bind_eq_some_iff] at h
      obtain ⟨⟨m, t, v⟩, hm, ⟨hs, n'⟩, hr, he⟩ := h
      cases he
      exact hsub (parseFields_fieldLines hr hf)

theorem Contains.fieldLines (h : Contains bs r) (hf : f ∈ r.headers) : f ∈ fieldLines bs := by
  obtain ⟨ls, n, hs, hp⟩ := h
  exact (hs.sublist.filterMap _).subset (parseLines_fieldLines hp hf)

theorem fieldLines_print {r : Request} (hw : r.Wf) (bs : Bytes) :
    fieldLines (r.print ++ bs) = r.headers ++ fieldLines bs := by
  have hreq : lineField (r.line ++ crlf) = none := by
    rw [lineField, content_crlf, parseFieldLine_request hw]
  have hend : lineField crlf = none := by decide
  have hmap : (r.headers.map (fun h => h.line ++ crlf)).filterMap lineField = r.headers := by
    rw [List.filterMap_map]
    refine (List.filterMap_congr fun h hh => ?_).trans List.filterMap_some
    rw [Function.comp_apply, lineField, content_crlf, parseFieldLine_line (hw.headers h hh)]
  simp only [HttpHead.fieldLines, rawLines_print hw, fieldText]
  rw [List.filterMap_cons_none hreq, List.filterMap_append, List.filterMap_append, hmap,
    List.filterMap_cons_none hend, List.filterMap_nil, List.append_nil]

theorem contains_fields (hw : ∀ h ∈ hs, Header.Wf h) (hl : ls <:+ fieldText hs ++ rawLines bs)
    (hp : parseLines ls = some (q, n)) : Contains bs q := by
  induction hs with
  | nil =>
    rcases List.suffix_cons_iff.1 hl with rfl | hl
    · have hc : content crlf = [] := content_crlf []
      simp only [parseLines, hc, if_true, Option.bind_eq_bind, Option.bind_eq_some_iff] at hp
      obtain ⟨⟨r, m⟩, hr, he⟩ := hp
      cases he
      exact ⟨_, m, List.suffix_refl _, hr⟩
    · exact ⟨ls, n, hl, hp⟩
  | cons h hs ih =>
    rcases List.suffix_cons_iff.1 hl with rfl | hl
    · have hh := parseRequestLine_field (hw h (by simp))
      simp only [parseLines, content_crlf, if_neg h.line_ne, hh] at hp
      cases hp
    · exact ih (fun g hg => hw g (by simp [hg])) hl

theorem contains_print {r : Request} (hw : r.Wf) (hv : r.version = 1) :
    Contains (r.print ++ bs) q ↔ q = r ∨ Contains bs q := by
  have hparse := parse_print hw hv bs
  constructor
  · rintro ⟨ls, n, hl, hp⟩
    rw [rawLines_print hw] at hl
    rcases List.suffix_cons_iff.1 hl with rfl | hl
    · rw [← rawLines_print hw, ← parse, hparse] at hp
      cases hp
      exact .inl rfl
    · exact .inr (contains_fields hw.headers hl hp)
  · rintro (rfl | ⟨ls, n, hl, hp⟩)
    · exact ⟨_, _, List.suffix_refl _, hparse⟩
    · refine ⟨ls, n, ?_, hp⟩
      rw [rawLines_print hw]
      exact (hl.trans (List.suffix_append _ _)).trans (List.suffix_cons _ _)

end HttpHead
