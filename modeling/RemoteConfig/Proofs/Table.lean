import Mathlib.Data.List.Perm.Basic
import RemoteConfig.Snapshot.Basic
/-! # Ordered maps

What the proofs need about maps in the order of their keys: look-up after a change, and the lists of
values.  A list of values is determined by look-up, and so are the values that pass a filter; the
number of these follows the changes of the map. -/

namespace RemoteConfig.Table

open Std

variable {κ α β : Type} [Ord κ] [TransOrd κ] [LawfulEqOrd κ]

section Lookup

variable [DecidableEq κ] (t : ExtTreeMap κ α compare) (k a : κ)

theorem getElem?_insert_ite (v : α) : (t.insert k v)[a]? = if a = k then some v else t[a]? := by
  rw [ExtTreeMap.getElem?_insert]
  by_cases h : a = k
  · simp [h]
  · simp [h, Ne.symm h]

theorem getElem?_erase_ite : (t.erase k)[a]? = if a = k then none else t[a]? := by
  rw [ExtTreeMap.getElem?_erase]
  by_cases h : a = k
  · simp [h]
  · simp [h, Ne.symm h]

end Lookup

section Membership

variable {ks : ExtTreeSet κ compare} {k a : κ}

theorem mem_insert_set : a ∈ ks.insert k ↔ a = k ∨ a ∈ ks := by
  rw [ExtTreeSet.mem_insert, LawfulEqCmp.compare_eq_iff_eq, eq_comm]

theorem mem_erase_set : a ∈ ks.erase k ↔ a ∈ ks ∧ a ≠ k := by
  rw [ExtTreeSet.mem_erase, Ne, LawfulEqCmp.compare_eq_iff_eq, and_comm, eq_comm]

end Membership

omit [LawfulEqOrd κ] in
/-- No key comes twice. -/
theorem pairwise_toList (t : ExtTreeMap κ α compare) :
    t.toList.Pairwise fun a b => a.1 ≠ b.1 := by
  refine ExtTreeMap.distinct_keys_toList.imp ?_
  intro a b hne hsame
  rw [hsame] at hne
  exact hne ReflCmp.compare_self

omit [LawfulEqOrd κ] in
theorem values_eq (t : ExtTreeMap κ α compare) : t.values = t.toList.map Prod.snd := by
  have h : t.values = t.foldr (fun _ v l => v :: l) [] := by
    rcases t with ⟨t⟩
    induction t using ExtDTreeMap.inductionOn with
    | mk a => rfl
  rw [h, ExtTreeMap.foldr_eq_foldr_toList]
  induction t.toList with
  | nil => rfl
  | cons x rest ih => rw [List.foldr_cons, List.map_cons, ih]

theorem mem_values {t : ExtTreeMap κ α compare} {v : α} :
    v ∈ t.values ↔ ∃ k : κ, t[k]? = some v := by
  rw [values_eq, List.mem_map]
  constructor
  · rintro ⟨⟨k, v⟩, h, rfl⟩
    exact ⟨k, ExtTreeMap.mem_toList_iff_getElem?_eq_some.mp h⟩
  · rintro ⟨k, h⟩
    exact ⟨(k, v), ExtTreeMap.mem_toList_iff_getElem?_eq_some.mpr h, rfl⟩

omit [LawfulEqOrd κ] in
theorem values_map (t : ExtTreeMap κ α compare) (f : α → β) :
    (t.map fun _ v => f v).values = t.values.map f := by
  rw [values_eq, values_eq, ExtTreeMap.toList_map, List.map_map, List.map_map]
  rfl

/-- Values that are the same after a function has been applied to them. -/
theorem map_values_congr {s t : ExtTreeMap κ α compare} {f : α → β}
    (h : ∀ k : κ, s[k]?.map f = t[k]?.map f) : s.values.map f = t.values.map f := by
  have hmap : (s.map fun _ v => f v) = t.map fun _ v => f v :=
    ExtTreeMap.ext_getElem? fun {k} => by simpa using h k
  rw [← values_map, hmap, values_map]

/-- Values that are the same after a function has been applied to them are under the same keys. -/
theorem keys_congr {s t : ExtTreeMap κ α compare} {f : α → β}
    (h : ∀ k : κ, s[k]?.map f = t[k]?.map f) : s.keys = t.keys := by
  have hmap : (s.map fun _ v => f v) = t.map fun _ v => f v :=
    ExtTreeMap.ext_getElem? fun {k} => by simpa using h k
  rw [← ExtTreeMap.keys_map (f := fun _ v => f v), hmap, ExtTreeMap.keys_map]

theorem filterMap_toList_congr {s t : ExtTreeMap κ α compare} {f : κ → α → Option β}
    (h : ∀ k : κ, s[k]?.bind (f k) = t[k]?.bind (f k)) :
    (s.toList.filterMap fun row => f row.1 row.2) = t.toList.filterMap fun row => f row.1 row.2 := by
  have hmap : s.filterMap f = t.filterMap f :=
    ExtTreeMap.ext_getElem? fun {k} => by simpa using h k
  have hlist := congrArg (fun u => u.toList.map Prod.snd) hmap
  simpa [ExtTreeMap.toList_filterMap, List.map_filterMap, Function.comp_def] using hlist

/-- A set of keys of a map, in order, is a part of the keys of the map. -/
theorem keys_filter_contains {t : ExtTreeMap κ α compare} {ks : ExtTreeSet κ compare}
    (h : ∀ k ∈ ks, k ∈ t) : t.keys.filter (fun k => ks.contains k) = ks.toList := by
  have hlt : ∀ a b : κ, compare a b = .lt → compare b a = .lt → a = b := fun a b hab hba =>
    nomatch hab.symm.trans (OrientedCmp.gt_of_lt hba)
  refine List.Perm.eq_of_pairwise (fun a b _ _ => hlt a b)
    (ExtTreeMap.ordered_keys.filter _) ExtTreeSet.ordered_toList ?_
  refine (List.perm_ext_iff_of_nodup (ExtTreeMap.nodup_keys.filter _) ?_).mpr fun k => ?_
  · exact ExtTreeSet.distinct_toList.imp ReflCmp.ne_of_cmp_ne_eq
  · rw [List.mem_filter, ExtTreeMap.mem_keys, ExtTreeSet.mem_toList, ExtTreeSet.contains_iff_mem]
    exact ⟨And.right, fun hk => ⟨h k hk, hk⟩⟩

/-- To look keys of a map up in order is to go through the map. -/
theorem filterMap_getElem? {t : ExtTreeMap κ α compare} {ks : ExtTreeSet κ compare}
    (h : ∀ k ∈ ks, k ∈ t) (f : α → Option β) :
    (ks.toList.filterMap fun k => t[k]?.bind f) =
      t.toList.filterMap fun row => if ks.contains row.1 then f row.2 else none := by
  rw [← keys_filter_contains h, ← ExtTreeMap.map_fst_toList_eq_keys, List.filterMap_filter,
    List.filterMap_map]
  refine List.filterMap_congr ?_
  intro row hrow
  have hsome : t[row.1]? = some row.2 := ExtTreeMap.mem_toList_iff_getElem?_eq_some.mp hrow
  rw [Function.comp_apply, hsome, Option.bind_some]

/-! ## Counting values -/

section Counting

omit [LawfulEqOrd κ] in
theorem getElem?_filter_values (t : ExtTreeMap κ α compare) (p : α → Bool) (k : κ) :
    (t.filter fun _ v => p v)[k]? = t[k]?.filter p := by
  rw [ExtTreeMap.getElem?_filter, Option.pfilter_eq_filter]

omit [LawfulEqOrd κ] in
theorem contains_filter_values (t : ExtTreeMap κ α compare) (p : α → Bool) (k : κ) :
    (t.filter fun _ v => p v).contains k = t[k]?.any p := by
  rw [ExtTreeMap.contains_eq_isSome_getElem?, getElem?_filter_values, Option.isSome_filter]

omit [LawfulEqOrd κ] in
theorem size_erase_add (t : ExtTreeMap κ α compare) (k : κ) :
    (t.erase k).size + (if t.contains k then 1 else 0) = t.size := by
  rw [ExtTreeMap.size_erase]
  cases hk : t.contains k with
  | false => rfl
  | true =>
      have hpos : t.size ≠ 0 := by
        intro hzero
        rw [ExtTreeMap.eq_empty_iff_size_eq_zero.mpr hzero] at hk
        exact ExtTreeMap.not_mem_empty hk
      simp only [if_true]
      omega

variable [DecidableEq κ] (t : ExtTreeMap κ α compare) (k : κ) (p : α → Bool)

theorem filter_erase :
    ((t.erase k).filter fun _ v => p v) = (t.filter fun _ v => p v).erase k := by
  refine ExtTreeMap.ext_getElem? fun a => ?_
  rw [getElem?_filter_values, getElem?_erase_ite, getElem?_erase_ite, getElem?_filter_values]
  split <;> rfl

theorem filter_insert (v : α) : ((t.insert k v).filter fun _ v => p v) =
    if p v then (t.filter fun _ v => p v).insert k v else (t.filter fun _ v => p v).erase k := by
  refine ExtTreeMap.ext_getElem? fun a => ?_
  rw [getElem?_filter_values, getElem?_insert_ite]
  cases hv : p v with
  | true =>
      simp only [if_true, getElem?_insert_ite, getElem?_filter_values]
      split
      · simp [hv]
      · rfl
  | false =>
      simp only [Bool.false_eq_true, if_false, getElem?_erase_ite, getElem?_filter_values]
      split
      · simp [hv]
      · rfl

/-- A value that goes is counted no more. -/
theorem size_filter_erase :
    ((t.erase k).filter fun _ v => p v).size + (if t[k]?.any p then 1 else 0) =
      (t.filter fun _ v => p v).size := by
  rw [filter_erase, ← contains_filter_values, size_erase_add]

/-- A value that comes is counted in the place of the former one. -/
theorem size_filter_insert (v : α) :
    ((t.insert k v).filter fun _ v => p v).size + (if t[k]?.any p then 1 else 0) =
      (t.filter fun _ v => p v).size + if p v then 1 else 0 := by
  rw [filter_insert, ← contains_filter_values]
  cases hv : p v with
  | true =>
      simp only [if_true, ExtTreeMap.size_insert]
      split
      · rfl
      · rfl
  | false =>
      simp only [Bool.false_eq_true, if_false, size_erase_add]
      rfl

end Counting

/-- In a list whose members all have to differ, and do not, there is one at most. -/
theorem length_le_one_of_pairwise {R : α → α → Prop} {l : List α} (hdistinct : l.Pairwise R)
    (hsame : ∀ a ∈ l, ∀ b ∈ l, ¬ R a b) : l.length ≤ 1 := by
  match l with
  | [] => exact Nat.zero_le 1
  | [_] => exact Nat.le_refl 1
  | a :: b :: rest =>
      have hdiffer : R a b := List.rel_of_pairwise_cons hdistinct List.mem_cons_self
      exact absurd hdiffer (hsame a List.mem_cons_self b (List.mem_cons_of_mem _ List.mem_cons_self))

end RemoteConfig.Table
