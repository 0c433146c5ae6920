import Panella.Lib.JsonRoundTrip
import Panella.Lib.OrderedDict

/-!
# When two dicts are equal

A `dict` is what its lookups say; the order of its items goes when it is written with `sort_keys=True`. `Dict.lookup_*` say
what each operation does to a lookup, `Dict.perm_of_lookup` that the lookups are all there is, and `sortKeys_obj` that the
text is then the same.
-/

namespace PyJson

namespace Dict

theorem get_eq_lookup (d : Dict) (k : String) : get d k = (d.lookup k).getD .null := by
  induction d with
  | nil => rfl
  | cons kv d ih =>
    rw [OrderedDict.lookup_cons_if, get, ih]
    by_cases h : kv.1 = k
    · rw [if_pos h, if_pos h.symm]
      rfl
    · rw [if_neg h, if_neg (Ne.symm h)]

theorem has_eq_lookup (d : Dict) (k : String) : has d k = (d.lookup k).isSome := by
  rw [Bool.eq_iff_iff, has_iff, OrderedDict.lookup_isSome]

theorem getD_eq_lookup (d : Dict) (k : String) (v : Json) : getD d k v = (d.lookup k).getD v := by
  rw [getD, has_eq_lookup, get_eq_lookup]
  cases d.lookup k <;> rfl

theorem lookup_set (d : Dict) (k j : String) (v : Json) : (set d k v).lookup j = if j = k then some v else d.lookup j := by
  induction d with
  | nil => rw [set, OrderedDict.lookup_cons_if]
  | cons kv d ih =>
    by_cases h : kv.1 = k
    · simp only [set, OrderedDict.lookup_cons_if, h]
      by_cases hj : j = k
      · simp [hj]
      · simp [OrderedDict.lookup_cons_if, hj]
    · simp only [set, if_neg h, OrderedDict.lookup_cons_if, ih]
      by_cases hj : j = kv.1
      · rw [if_pos hj, if_pos hj, if_neg (hj ▸ h)]
      · rw [if_neg hj, if_neg hj]

/-- In a merge the second dict comes first. -/
theorem lookup_merge {e : Dict} (he : (e.map Prod.fst).Nodup) (d : Dict) (j : String) :
    (merge d e).lookup j = (e.lookup j).or (d.lookup j) := by
  induction e generalizing d with
  | nil => rfl
  | cons kv e ih =>
    obtain ⟨hkv, he⟩ := List.nodup_cons.1 (by simpa only [List.map_cons] using he)
    have hstep : (merge d (kv :: e)).lookup j = (merge (set d kv.1 kv.2) e).lookup j := rfl
    rw [hstep, ih he, lookup_set, OrderedDict.lookup_cons_if]
    by_cases hj : j = kv.1
    · have hnone : e.lookup j = none := by
        rw [← Option.not_isSome_iff_eq_none, OrderedDict.lookup_isSome, hj]
        exact hkv
      rw [if_pos hj, if_pos hj, hnone]
      rfl
    · rw [if_neg hj, if_neg hj]

theorem lookup_erase (d : Dict) (k j : String) : (erase d k).lookup j = if j = k then none else d.lookup j := by
  have h := OrderedDict.lookup_filter_keys (fun i => decide (i ≠ k)) d j
  by_cases hj : j = k
  · simpa [erase, hj] using h
  · simpa [erase, hj] using h

end Dict

theorem sortKeysMembers_eq (kvs : Dict) : sortKeysMembers kvs = kvs.map fun kv => (kv.1, sortKeys kv.2) := by
  induction kvs with
  | nil => rfl
  | cons kv kvs ih => rw [sortKeysMembers, ih, List.map_cons]

theorem sortItems_sorted (kvs : Dict) : (sortItems kvs).Pairwise fun a b => a.1 ≤ b.1 := by
  have : Std.Total fun a b : String × Json => a.1 ≤ b.1 := ⟨fun a b => le_total a.1 b.1⟩
  have : IsTrans (String × Json) fun a b => a.1 ≤ b.1 := ⟨fun _ _ _ => le_trans⟩
  exact List.pairwise_insertionSort _ kvs

/-- **Sorting forgets the order**, where the keys are distinct. -/
theorem sortItems_eq_of_perm {d e : Dict} (h : d.Perm e) (hd : (d.map Prod.fst).Nodup) : sortItems d = sortItems e := by
  refine List.Perm.eq_of_pairwise ?_ (sortItems_sorted d) (sortItems_sorted e)
    ((sortItems_perm d).trans (h.trans (sortItems_perm e).symm))
  rintro ⟨k, v⟩ ⟨k', v'⟩ ha hb hle hge
  obtain rfl : k = k' := le_antisymm hle hge
  rw [← Dict.get_of_mem hd ((sortItems_perm d).mem_iff.1 ha),
    ← Dict.get_of_mem hd (h.mem_iff.2 ((sortItems_perm e).mem_iff.1 hb))]

/-- **Equal dicts are written alike.** -/
theorem sortKeys_obj {d e : Dict} (hd : (d.map Prod.fst).Nodup) (he : (e.map Prod.fst).Nodup)
    (h : ∀ k, d.lookup k = e.lookup k) : sortKeys (.obj d) = sortKeys (.obj e) := by
  have hperm := (OrderedDict.perm_of_lookup hd he h).map fun kv => (kv.1, sortKeys kv.2)
  have hkeys : ((d.map fun kv => (kv.1, sortKeys kv.2)).map Prod.fst).Nodup := by
    rw [List.map_map]
    exact hd
  simp only [sortKeys, sortKeysMembers_eq, sortItems_eq_of_perm hperm hkeys]

end PyJson
