import Mathlib.Data.List.Basic

namespace Multimap
set_option autoImplicit true

/-- The operations on a map from names to lists of values. -/
structure Ops (M : Type u) (K : Type v) (V : Type w) where
  getAll : M → K → List V
  remove : M → K → M
  insert : M → K → V → M

/-- Names of one norm are one name; `remove` drops all its values and `insert` replaces them. -/
structure Lawful (o : Ops M K V) (norm : K → N) : Prop where
  getAll_congr : ∀ m k k', norm k = norm k' → o.getAll m k = o.getAll m k'
  remove_self : ∀ m k, o.getAll (o.remove m k) k = []
  remove_other : ∀ m k k', norm k ≠ norm k' → o.getAll (o.remove m k) k' = o.getAll m k'
  insert_self : ∀ m k v, o.getAll (o.insert m k v) k = [v]
  insert_other : ∀ m k v k', norm k ≠ norm k' → o.getAll (o.insert m k v) k' = o.getAll m k'

def Ops.removeAll (o : Ops M K V) (m : M) (ks : List K) : M := ks.foldl o.remove m

def Ops.insertAll (o : Ops M K V) (m : M) (fs : List (K × V)) : M :=
  fs.foldl (fun m f => o.insert m f.1 f.2) m

variable {o : Ops M K V} {norm : K → N}

theorem Lawful.removeAll_other (hl : Lawful o norm) (h : ∀ k' ∈ ks, norm k' ≠ norm k) (m : M) :
    o.getAll (o.removeAll m ks) k = o.getAll m k := by
  induction ks generalizing m with
  | nil => rfl
  | cons k' ks ih =>
    have hne := h k' List.mem_cons_self
    rw [Ops.removeAll, List.foldl_cons]
    exact (ih (fun k hk => h k (List.mem_cons_of_mem _ hk)) _).trans (hl.remove_other m k' k hne)

theorem Lawful.removeAll_mem (hl : Lawful o norm) (h : ∃ k' ∈ ks, norm k' = norm k) (m : M) :
    o.getAll (o.removeAll m ks) k = [] := by
  induction ks generalizing m with
  | nil =>
    obtain ⟨k', hk', _⟩ := h
    cases hk'
  | cons a ks ih =>
    by_cases hrest : ∃ k' ∈ ks, norm k' = norm k
    · exact ih hrest _
    · have ha : norm a = norm k := by
        obtain ⟨k', hk', hn⟩ := h
        rcases List.mem_cons.1 hk' with rfl | hk'
        · exact hn
        · exact (hrest ⟨k', hk', hn⟩).elim
      have hne : ∀ k' ∈ ks, norm k' ≠ norm k := fun k' hk' hn => hrest ⟨k', hk', hn⟩
      rw [Ops.removeAll, List.foldl_cons]
      calc o.getAll (o.removeAll (o.remove m a) ks) k
          = o.getAll (o.remove m a) k := hl.removeAll_other hne _
        _ = o.getAll (o.remove m a) a := hl.getAll_congr _ _ _ ha.symm
        _ = [] := hl.remove_self m a

theorem Lawful.insertAll_other (hl : Lawful o norm) (h : ∀ f ∈ fs, norm f.1 ≠ norm k) (m : M) :
    o.getAll (o.insertAll m fs) k = o.getAll m k := by
  induction fs generalizing m with
  | nil => rfl
  | cons f fs ih =>
    have hne := h f List.mem_cons_self
    rw [Ops.insertAll, List.foldl_cons]
    exact (ih (fun g hg => h g (List.mem_cons_of_mem _ hg)) _).trans
      (hl.insert_other m f.1 f.2 k hne)

theorem Lawful.insertAll_mem (hl : Lawful o norm) (hnd : (fs.map (fun f => norm f.1)).Nodup)
    (hf : f ∈ fs) (hk : norm f.1 = norm k) (m : M) : o.getAll (o.insertAll m fs) k = [f.2] := by
  induction fs generalizing m with
  | nil => cases hf
  | cons g fs ih =>
    simp only [List.map_cons, List.nodup_cons, List.mem_map, not_exists, not_and] at hnd
    rcases List.mem_cons.1 hf with rfl | hf
    · have hne : ∀ h ∈ fs, norm h.1 ≠ norm k := fun h hh hn => hnd.1 h hh (hn.trans hk.symm)
      rw [Ops.insertAll, List.foldl_cons]
      calc o.getAll (o.insertAll (o.insert m f.1 f.2) fs) k
          = o.getAll (o.insert m f.1 f.2) k := hl.insertAll_other hne _
        _ = o.getAll (o.insert m f.1 f.2) f.1 := hl.getAll_congr _ _ _ hk.symm
        _ = [f.2] := hl.insert_self m f.1 f.2
    · exact ih hnd.2 hf _

def listOps [DecidableEq N] (norm : K → N) : Ops (List (K × V)) K V where
  getAll m k := (m.filter (fun f => norm f.1 = norm k)).map Prod.snd
  remove m k := m.filter (fun f => norm f.1 ≠ norm k)
  insert m k v := m.filter (fun f => norm f.1 ≠ norm k) ++ [(k, v)]

theorem filter_ne_self [DecidableEq N] (norm : K → N) (m : List (K × V)) (k : K) :
    (m.filter (fun f => norm f.1 ≠ norm k)).filter (fun f => norm f.1 = norm k) = [] := by
  rw [List.filter_eq_nil_iff]
  intro f hf
  simpa using (List.mem_filter.1 hf).2

theorem filter_ne_other [DecidableEq N] (norm : K → N) (m : List (K × V)) (h : norm k ≠ norm k') :
    (m.filter (fun f => norm f.1 ≠ norm k)).filter (fun f => norm f.1 = norm k') =
      m.filter (fun f => norm f.1 = norm k') := by
  rw [List.filter_filter]
  apply List.filter_congr
  intro f _
  by_cases hf : norm f.1 = norm k'
  · simp [hf, h.symm]
  · simp [hf]

theorem listOps_lawful [DecidableEq N] (norm : K → N) :
    Lawful (listOps norm : Ops (List (K × V)) K V) norm where
  getAll_congr m k k' h := by simp only [listOps, h]
  remove_self m k := by simp only [listOps, filter_ne_self, List.map_nil]
  remove_other m k k' h := by simp only [listOps, filter_ne_other norm m h]
  insert_self m k v := by simp [listOps]
  insert_other m k v k' h := by
    simp only [listOps, List.filter_append, filter_ne_other norm m h]
    simp [h]

end Multimap
