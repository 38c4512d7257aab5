import ReverseProxy.HttpHead

namespace HttpHead
set_option autoImplicit true

theorem rawLines_ne_nil (hl : l ∈ rawLines bs) : l ≠ [] := by
  induction bs generalizing l with
  | nil => cases hl
  | cons b bs ih =>
    rw [rawLines] at hl
    split at hl
    · rcases List.mem_cons.1 hl with rfl | hl
      · exact List.cons_ne_nil _ _
      · exact ih hl
    · split at hl
      · cases hl
      · next l' ls heq =>
        rcases List.mem_cons.1 hl with rfl | hl
        · exact List.cons_ne_nil _ _
        · exact ih (by rw [heq]; exact List.mem_cons_of_mem _ hl)

theorem rawLines_flatten (hlf : bs.getLast? = some lf) : (rawLines bs).flatten = bs := by
  induction bs with
  | nil => cases hlf
  | cons b bs ih =>
    have hrest : bs ≠ [] → (rawLines bs).flatten = bs := by
      intro hne
      obtain ⟨a, as, rfl⟩ := List.exists_cons_of_ne_nil hne
      exact ih (by rwa [List.getLast?_cons_cons] at hlf)
    rw [rawLines]
    split
    · next hb =>
      by_cases hne : bs = []
      · rw [hne]
        rfl
      · rw [List.flatten_cons, hrest hne]
        rfl
    · next hb =>
      have hne : bs ≠ [] := by
        rintro rfl
        exact hb (Option.some.inj hlf)
      have hflat := hrest hne
      split
      · next heq =>
        rw [heq] at hflat
        exact (hne hflat.symm).elim
      · next l ls heq =>
        rw [heq] at hflat
        rw [← hflat]
        rfl

theorem parseFields_split (h : parseFields ls = some (hs, n)) :
    ∃ fs e ls', ls = fs ++ e :: ls' ∧ (∀ l ∈ fs, content l ≠ []) ∧ content e = [] ∧
      n = (fs ++ [e]).flatten.length := by
  induction ls generalizing hs n with
  | nil => cases h
  | cons l ls ih =>
    rw [parseFields] at h
    split at h
    · next hl =>
      cases h
      exact ⟨[], l, ls, rfl, nofun, hl, by simp⟩
    · next hl =>
      obtain ⟨f, hf, h⟩ := Option.bind_eq_some_iff.1 h
      obtain ⟨⟨hs', n'⟩, htail, h⟩ := Option.bind_eq_some_iff.1 h
      cases h
      obtain ⟨fs, e, ls', rfl, hfs, he, rfl⟩ := ih htail
      refine ⟨l :: fs, e, ls', rfl, ?_, he, by simp⟩
      intro k hk
      rcases List.mem_cons.1 hk with rfl | hk
      · exact hl
      · exact hfs k hk

theorem parseLines_split (h : parseLines ls = some (r, n)) :
    ∃ es fs e ls', ls = es ++ (fs ++ e :: ls') ∧ (∀ l ∈ es, content l = []) ∧ fs ≠ [] ∧
      (∀ l ∈ fs, content l ≠ []) ∧ content e = [] ∧ n = (es ++ (fs ++ [e])).flatten.length := by
  induction ls generalizing r n with
  | nil => cases h
  | cons l ls ih =>
    rw [parseLines] at h
    split at h
    · next hl =>
      obtain ⟨⟨r', n'⟩, htail, h⟩ := Option.bind_eq_some_iff.1 h
      cases h
      obtain ⟨es, fs, e, ls', rfl, hes, hne, hfs, he, rfl⟩ := ih htail
      refine ⟨l :: es, fs, e, ls', rfl, ?_, hne, hfs, he, by simp⟩
      intro k hk
      rcases List.mem_cons.1 hk with rfl | hk
      · exact hl
      · exact hes k hk
    · next hl =>
      obtain ⟨⟨m, t, v⟩, _, h⟩ := Option.bind_eq_some_iff.1 h
      obtain ⟨⟨hs, n'⟩, htail, h⟩ := Option.bind_eq_some_iff.1 h
      cases h
      obtain ⟨fs, e, ls', rfl, hfs, he, rfl⟩ := parseFields_split htail
      refine ⟨[], l :: fs, e, ls', rfl, nofun, List.cons_ne_nil _ _, ?_, he, by simp⟩
      intro k hk
      rcases List.mem_cons.1 hk with rfl | hk
      · exact hl
      · exact hfs k hk

def isEmptyLine (l : Bytes) : Bool := (content l).isEmpty

/-- The lines of a text from the first that is not empty on, but for its last line. -/
def innerLines (bs : Bytes) : List Bytes := ((rawLines bs).dropWhile isEmptyLine).dropLast

/-- A head takes the whole text exactly when no line before the last ends it. -/
theorem parse_consumed (hlf : bs.getLast? = some lf) (h : parse bs = some (r, n)) :
    n ≤ bs.length ∧ (n = bs.length ↔ ∀ l ∈ innerLines bs, content l ≠ []) := by
  obtain ⟨es, fs, e, ls, hls, hes, hne, hfs, he, rfl⟩ := parseLines_split h
  have hlen : bs.length = (es ++ (fs ++ [e])).flatten.length + ls.flatten.length := by
    rw [← congrArg List.length (rawLines_flatten hlf), hls]
    simp only [List.flatten_append, List.flatten_cons, List.flatten_nil, List.length_append,
      List.append_nil]
    omega
  have hdrop : (rawLines bs).dropWhile isEmptyLine = fs ++ e :: ls := by
    obtain ⟨f, fs, rfl⟩ := List.exists_cons_of_ne_nil hne
    have hf : isEmptyLine f = false := by
      rw [isEmptyLine, List.isEmpty_eq_false_iff]
      exact hfs f List.mem_cons_self
    rw [hls, List.dropWhile_append_of_pos, List.cons_append, List.dropWhile_cons_of_neg]
    · rw [hf]
      exact Bool.false_ne_true
    · intro l hl
      rw [isEmptyLine, hes l hl]
      rfl
  refine ⟨by omega, ?_⟩
  rw [innerLines, hdrop]
  cases ls with
  | nil =>
    rw [List.dropLast_concat, hlen]
    exact iff_of_true rfl hfs
  | cons l ls =>
    have hl : l ≠ [] := rawLines_ne_nil (by rw [hls]; simp)
    have hpos := List.length_pos_iff.2 hl
    rw [hlen, List.flatten_cons, List.length_append]
    apply iff_of_false (by omega)
    intro hall
    apply hall e _ he
    rw [List.dropLast_append_of_ne_nil (List.cons_ne_nil _ _), List.dropLast_cons_cons]
    simp

end HttpHead
