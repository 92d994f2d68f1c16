/-
  Neutun/Foundation/SecondaryIndex.lean
  =====================================
  A collection kept in two tables: a primary one by identity and a secondary one
  by some other key that several values may share.

  The two tables are updated separately, so nothing ties them together by
  itself.  Writing a value overwrites whoever had its secondary key; deleting a
  value clears the secondary key only if the entry there has the same identity.
  What holds of every such collection is that values are `Filed` under their own
  keys; that the secondary table mentions present values only (`Coherent`) needs
  each identity to belong to one value.
-/
import Mathlib.Data.List.AList

namespace Foundation

/-- A finite table.  `entries` is the order in which an iteration visits it. -/
abbrev Table (κ ν : Type*) := AList fun _ : κ => ν

namespace Table

variable {κ ν : Type*} [DecidableEq κ]

theorem lookup_insert_ite (t : Table κ ν) (k k' : κ) (v : ν) :
    (t.insert k v).lookup k' = if k' = k then some v else t.lookup k' := by
  by_cases h : k' = k
  · subst h
    rw [if_pos rfl]
    exact AList.lookup_insert t
  · rw [if_neg h]
    exact AList.lookup_insert_ne h

theorem lookup_erase_ite (t : Table κ ν) (k k' : κ) :
    (t.erase k).lookup k' = if k' = k then none else t.lookup k' := by
  by_cases h : k' = k
  · subst h
    rw [if_pos rfl]
    exact AList.lookup_erase k' t
  · rw [if_neg h]
    exact AList.lookup_erase_ne h

/-- The entries of several keys are taken out, one after the other. -/
def eraseAll (t : Table κ ν) (keys : List κ) : Table κ ν := keys.foldl (fun t k => t.erase k) t

theorem lookup_eraseAll_ite (t : Table κ ν) (keys : List κ) (k : κ) :
    (eraseAll t keys).lookup k = if k ∈ keys then none else t.lookup k := by
  induction keys generalizing t with
  | nil => simp [eraseAll]
  | cons key keys ih =>
    rw [eraseAll, List.foldl_cons]
    apply (ih (t.erase key)).trans
    rw [lookup_erase_ite]
    by_cases hkey : k = key
    · simp [hkey]
    · simp [hkey]

/-- The values in the order of an iteration. -/
def values (t : Table κ ν) : List ν := t.entries.map Sigma.snd

theorem mem_values {t : Table κ ν} {v : ν} : v ∈ values t ↔ ∃ k, t.lookup k = some v := by
  constructor
  · intro h
    obtain ⟨⟨k, w⟩, hmem, rfl⟩ := List.mem_map.mp h
    exact ⟨k, AList.mem_lookup_iff.mpr hmem⟩
  · rintro ⟨k, hk⟩
    exact List.mem_map.mpr ⟨⟨k, v⟩, AList.mem_lookup_iff.mp hk, rfl⟩

/-- Values that know their keys are there once. -/
theorem nodup_values {t : Table κ ν} {key : ν → κ}
    (h : ∀ k v, t.lookup k = some v → key v = k) : (values t).Nodup := by
  have hkeys : t.entries.Pairwise fun x y => x.1 ≠ y.1 := List.nodupKeys_iff_pairwise.mp t.nodupKeys
  rw [values, List.Nodup, List.pairwise_map]
  refine List.Pairwise.imp_of_mem ?_ hkeys
  intro x y hx hy hne hsame
  apply hne
  rw [← h x.1 x.2 (AList.mem_lookup_iff.mpr hx), ← h y.1 y.2 (AList.mem_lookup_iff.mpr hy), hsame]

theorem mem_values_iff {t : Table κ ν} {key : ν → κ}
    (h : ∀ k v, t.lookup k = some v → key v = k) {v : ν} :
    v ∈ values t ↔ t.lookup (key v) = some v := by
  rw [mem_values]
  constructor
  · rintro ⟨k, hk⟩
    rw [h k v hk]
    exact hk
  · intro hk
    exact ⟨key v, hk⟩

/-- The same entries visited in another order, if `order` is one. -/
def reorder [DecidableEq ν] (t : Table κ ν) (order : List (Sigma fun _ : κ => ν)) : Table κ ν :=
  if h : t.entries.Perm order then ⟨order, (List.perm_nodupKeys h).mp t.nodupKeys⟩ else t

@[simp] theorem lookup_reorder [DecidableEq ν] (t : Table κ ν)
    (order : List (Sigma fun _ : κ => ν)) (k : κ) : (reorder t order).lookup k = t.lookup k := by
  unfold reorder
  split
  · next h => exact (AList.perm_lookup h).symm
  · rfl

end Table

/-- The two tables. -/
structure Index (κ ι ν : Type*) where
  primary : Table κ ν
  secondary : Table ι ν

namespace Index

variable {κ ι ν : Type*} [DecidableEq κ] [DecidableEq ι] (pk : ν → κ) (sk : ν → ι)

/-- Enter a value in both tables. -/
def put (x : Index κ ι ν) (v : ν) : Index κ ι ν :=
  ⟨x.primary.insert (pk v) v, x.secondary.insert (sk v) v⟩

/-- Enter a value in the secondary table only. -/
def point (x : Index κ ι ν) (v : ν) : Index κ ι ν :=
  ⟨x.primary, x.secondary.insert (sk v) v⟩

/-- Delete a value: its secondary key is cleared only if it is its own. -/
def drop (x : Index κ ι ν) (v : ν) : Index κ ι ν :=
  ⟨x.primary.erase (pk v),
   if (x.secondary.lookup (sk v)).any (fun u => decide (pk u = pk v)) then x.secondary.erase (sk v)
   else x.secondary⟩

theorem lookup_primary_put (x : Index κ ι ν) (v : ν) (k : κ) :
    (x.put pk sk v).primary.lookup k = if k = pk v then some v else x.primary.lookup k :=
  Table.lookup_insert_ite x.primary (pk v) k v

theorem lookup_secondary_put (x : Index κ ι ν) (v : ν) (i : ι) :
    (x.put pk sk v).secondary.lookup i = if i = sk v then some v else x.secondary.lookup i :=
  Table.lookup_insert_ite x.secondary (sk v) i v

omit [DecidableEq κ] in
theorem lookup_secondary_point (x : Index κ ι ν) (v : ν) (i : ι) :
    (x.point sk v).secondary.lookup i = if i = sk v then some v else x.secondary.lookup i :=
  Table.lookup_insert_ite x.secondary (sk v) i v

theorem lookup_primary_drop (x : Index κ ι ν) (v : ν) (k : κ) :
    (x.drop pk sk v).primary.lookup k = if k = pk v then none else x.primary.lookup k :=
  Table.lookup_erase_ite x.primary (pk v) k

/-- What is left in the secondary table: everything but an entry of the same
    identity under the value's own key. -/
theorem lookup_secondary_drop (x : Index κ ι ν) (v : ν) (i : ι) (u : ν) :
    (x.drop pk sk v).secondary.lookup i = some u ↔
      x.secondary.lookup i = some u ∧ ¬ (i = sk v ∧ pk u = pk v) := by
  unfold drop
  by_cases hi : i = sk v
  · subst hi
    cases hu : x.secondary.lookup (sk v) with
    | none => simp [hu]
    | some w =>
      by_cases hw : pk w = pk v
      · simp only [Option.any_some, hw, decide_true, if_true, Table.lookup_erase_ite,
          reduceCtorEq, Option.some.injEq, true_and, false_iff, not_and, not_not]
        rintro rfl
        exact hw
      · simp only [Option.any_some, hw, decide_false, Bool.false_eq_true, if_false, hu,
          Option.some.injEq, true_and, iff_self_and]
        rintro rfl
        exact hw
  · have hkeep : (if (x.secondary.lookup (sk v)).any (fun u => decide (pk u = pk v))
        then x.secondary.erase (sk v) else x.secondary).lookup i = x.secondary.lookup i := by
      split
      · rw [Table.lookup_erase_ite, if_neg hi]
      · rfl
    rw [hkeep]
    simp [hi]

/-! ### Every entry under its own key -/

/-- Every entry is filed under its own key. -/
structure Filed (x : Index κ ι ν) : Prop where
  primary : ∀ k v, x.primary.lookup k = some v → pk v = k
  secondary : ∀ i v, x.secondary.lookup i = some v → sk v = i

variable {pk sk}

theorem Filed.empty : Filed pk sk (⟨∅, ∅⟩ : Index κ ι ν) :=
  ⟨fun k v h => by simp at h, fun i v h => by simp at h⟩

theorem Filed.point {x : Index κ ι ν} (h : Filed pk sk x) (v : ν) : Filed pk sk (x.point sk v) := by
  refine ⟨h.primary, ?_⟩
  intro i w hw
  rw [lookup_secondary_point sk] at hw
  split at hw
  · next hi =>
    obtain rfl : v = w := Option.some.inj hw
    exact hi.symm
  · exact h.secondary i w hw

theorem Filed.put {x : Index κ ι ν} (h : Filed pk sk x) (v : ν) : Filed pk sk (x.put pk sk v) := by
  refine ⟨?_, (h.point v).secondary⟩
  intro k w hw
  rw [lookup_primary_put pk sk] at hw
  split at hw
  · next hk =>
    obtain rfl : v = w := Option.some.inj hw
    exact hk.symm
  · exact h.primary k w hw

theorem Filed.drop {x : Index κ ι ν} (h : Filed pk sk x) (v : ν) :
    Filed pk sk (x.drop pk sk v) := by
  refine ⟨?_, ?_⟩
  · intro k w hw
    rw [lookup_primary_drop pk sk] at hw
    split at hw
    · cases hw
    · exact h.primary k w hw
  · intro i w hw
    exact h.secondary i w ((lookup_secondary_drop pk sk x v i w).mp hw).1

/-! ### The secondary table mentions present values only -/

variable (pk sk) in
/-- Both tables hold values of `S` under their own keys, and every secondary
    entry is the primary entry of its identity. -/
structure Coherent (S : ν → Prop) (x : Index κ ι ν) : Prop extends Filed pk sk x where
  known : ∀ k v, x.primary.lookup k = some v → S v
  present : ∀ i v, x.secondary.lookup i = some v → x.primary.lookup (pk v) = some v

/-- Values of `S` with the same identity are the same value. -/
def OnePerKey (pk : ν → κ) (S : ν → Prop) : Prop := ∀ u v, S u → S v → pk u = pk v → u = v

theorem Coherent.empty {S : ν → Prop} : Coherent pk sk S (⟨∅, ∅⟩ : Index κ ι ν) where
  toFiled := Filed.empty
  known k v h := by simp at h
  present i v h := by simp at h

theorem Coherent.put {S : ν → Prop} (hS : OnePerKey pk S) {x : Index κ ι ν}
    (h : Coherent pk sk S x) {v : ν} (hv : S v) : Coherent pk sk S (x.put pk sk v) where
  toFiled := h.toFiled.put v
  known k w hw := by
    rw [lookup_primary_put pk sk] at hw
    split at hw
    · obtain rfl : v = w := Option.some.inj hw
      exact hv
    · exact h.known k w hw
  present i w hw := by
    rw [lookup_secondary_put pk sk] at hw
    rw [lookup_primary_put pk sk]
    split at hw
    · obtain rfl : v = w := Option.some.inj hw
      rw [if_pos rfl]
    · have hw' := h.present i w hw
      by_cases hk : pk w = pk v
      · rw [if_pos hk, hS w v (h.known _ w hw') hv hk]
      · rw [if_neg hk, hw']

theorem Coherent.drop {S : ν → Prop} (hS : OnePerKey pk S) {x : Index κ ι ν}
    (h : Coherent pk sk S x) {v : ν} (hv : S v) : Coherent pk sk S (x.drop pk sk v) where
  toFiled := h.toFiled.drop v
  known k w hw := by
    rw [lookup_primary_drop pk sk] at hw
    split at hw
    · cases hw
    · exact h.known k w hw
  present i w hw := by
    obtain ⟨hold, hkeep⟩ := (lookup_secondary_drop pk sk x v i w).mp hw
    have hpresent := h.present i w hold
    have hk : pk w ≠ pk v := by
      intro hk
      have heq : w = v := hS w v (h.known _ w hpresent) hv hk
      exact hkeep ⟨by rw [← heq, h.secondary i w hold], hk⟩
    rw [lookup_primary_drop pk sk, if_neg hk, hpresent]

/-- After a deletion neither table has the identity any more. -/
theorem Coherent.drop_forgets {S : ν → Prop} (hS : OnePerKey pk S) {x : Index κ ι ν}
    (h : Coherent pk sk S x) {v : ν} (hv : S v) :
    (x.drop pk sk v).primary.lookup (pk v) = none ∧
      ∀ i w, (x.drop pk sk v).secondary.lookup i = some w → pk w ≠ pk v := by
  refine ⟨by rw [lookup_primary_drop pk sk, if_pos rfl], ?_⟩
  intro i w hw hk
  have hpresent := (h.drop hS hv).present i w hw
  rw [lookup_primary_drop pk sk, if_pos hk] at hpresent
  cases hpresent

/-- A deletion leaves the entries of other identities as they were. -/
theorem drop_frame (x : Index κ ι ν) (v : ν) :
    (∀ k, k ≠ pk v → (x.drop pk sk v).primary.lookup k = x.primary.lookup k) ∧
      ∀ i u, pk u ≠ pk v →
        ((x.drop pk sk v).secondary.lookup i = some u ↔ x.secondary.lookup i = some u) := by
  refine ⟨fun k hk => by rw [lookup_primary_drop pk sk, if_neg hk], ?_⟩
  intro i u hu
  rw [lookup_secondary_drop pk sk]
  exact and_iff_left fun h => hu h.2

end Index

end Foundation
