import Mathlib.Algebra.GroupWithZero.Nat
import Mathlib.Algebra.Order.Group.Nat
import Mathlib.Data.List.Perm.Basic

namespace Updates
set_option autoImplicit true

theorem filterMap_set {f : α → Option β} {as : List α} (h : as[i]? = some a) (hf : f a' = f a) :
    (as.set i a').filterMap f = as.filterMap f := by
  induction as generalizing i with
  | nil => cases h
  | cons b as ih =>
    cases i with
    | zero =>
      cases h
      rw [List.set_cons_zero, List.filterMap_cons, List.filterMap_cons, hf]
    | succ i => rw [List.set_cons_succ, List.filterMap_cons, List.filterMap_cons, ih h]

theorem filterMap_set_perm {f : α → Option β} {as : List α} (h : as[i]? = some a)
    (ha : f a = none) (ha' : f a' = some b) :
    ((as.set i a').filterMap f).Perm (as.filterMap f ++ [b]) := by
  have hsplit := List.set_eq_take_append_cons_drop (l := as) (i := i) (a := a')
  obtain ⟨hlt, rfl⟩ := List.getElem?_eq_some_iff.1 h
  have has : as.filterMap f = (as.take i).filterMap f ++ (as.drop (i + 1)).filterMap f := by
    conv => lhs; rw [← List.take_append_drop i as, List.drop_eq_getElem_cons hlt,
      List.filterMap_append, List.filterMap_cons_none ha]
  rw [hsplit, if_pos hlt, List.filterMap_append, List.filterMap_cons_some ha', has,
    List.append_assoc]
  apply List.Perm.append_left
  exact (List.perm_append_singleton _ _).symm

theorem sum_map_set {f : α → Nat} {as : List α} (h : as[i]? = some a) (a' : α) :
    ((as.set i a').map f).sum + f a = (as.map f).sum + f a' := by
  induction as generalizing i with
  | nil => cases h
  | cons b as ih =>
    cases i with
    | zero =>
      cases h
      simp only [List.set_cons_zero, List.map_cons, List.sum_cons]
      omega
    | succ i =>
      simp only [List.set_cons_succ, List.map_cons, List.sum_cons]
      have := ih h
      omega

end Updates
