import Mathlib.Data.List.Nodup
import Mathlib.Data.List.Range
import Panella.Clusters

/-!
# `_cluster` ends, and returns a partition (`panella/reader.py:217-239`)

`find` of the model counts its rounds; the loop of the source does not. `Climbs` is that loop as a relation, with a derivation
exactly where it ends inside the list, and `ClusterRun` is the function over it. Every list of parents a derivation passes
through is a forest (`PointerForest`): halving and linking keep one.
-/

namespace Panella

open UnionFind Relation

/-- From every position the parents lead to a root, and never outside the list. -/
def PointerForest (parent : List Nat) : Prop :=
  ∀ x < parent.length, parentOf parent x < parent.length ∧
    ∃ k, parentOf parent ((parentOf parent)^[k] x) = (parentOf parent)^[k] x

/-- `parent[x] = parent[parent[x]]`. -/
def halved (parent : List Nat) (x : Nat) : List Nat := parent.set x (parentOf parent (parentOf parent x))

/-- `while parent[x] != x`, run to its end. -/
inductive Climbs : List Nat → Nat → List Nat → Nat → Prop
  | root {parent : List Nat} {x : Nat} (hforest : PointerForest parent) (hx : x < parent.length)
      (hroot : parentOf parent x = x) : Climbs parent x parent x
  | up {parent parent' : List Nat} {x r : Nat} (hforest : PointerForest parent) (hx : x < parent.length)
      (hup : parentOf parent x ≠ x) (hrest : Climbs (halved parent x) (parentOf (halved parent x) x) parent' r) :
      Climbs parent x parent' r

/-- The double loop over the pairs left. -/
inductive Joins (near : Nat × Nat → Bool) : List (Nat × Nat) → List Nat → List Nat → Prop
  | done {parent : List Nat} : Joins near [] parent parent
  | apart {i j : Nat} {pairs : List (Nat × Nat)} {parent parent' : List Nat} (hfar : near (i, j) = false)
      (hrest : Joins near pairs parent parent') : Joins near ((i, j) :: pairs) parent parent'
  | joined {i j r x : Nat} {pairs : List (Nat × Nat)} {parent right left parent' : List Nat} (hnear : near (i, j) = true)
      (hright : Climbs parent j right r) (hleft : Climbs right i left x)
      (hrest : Joins near pairs (left.set x r) parent') : Joins near ((i, j) :: pairs) parent parent'

/-- The second loop, over the positions left. -/
inductive Files : List Nat → List Nat → List (Nat × List Nat) → List (Nat × List Nat) → Prop
  | done {parent : List Nat} {groups : List (Nat × List Nat)} : Files [] parent groups groups
  | next {i r : Nat} {rest parent parent' : List Nat} {groups groups' : List (Nat × List Nat)}
      (hfind : Climbs parent i parent' r) (hrest : Files rest parent' (addToGroup groups r i) groups') :
      Files (i :: rest) parent groups groups'

/-! ## One run -/

theorem Climbs.unique {parent p q : List Nat} {x r s : Nat} (h : Climbs parent x p r) (h' : Climbs parent x q s) :
    p = q ∧ r = s := by
  induction h with
  | root _ _ hroot =>
    cases h' with
    | root => exact ⟨rfl, rfl⟩
    | up _ _ hup _ => exact absurd hroot hup
  | up _ _ hup _ ih =>
    cases h' with
    | root _ _ hroot => exact absurd hroot hup
    | up _ _ _ hrest => exact ih hrest

theorem Joins.unique {near : Nat × Nat → Bool} {pairs : List (Nat × Nat)} {parent p q : List Nat}
    (h : Joins near pairs parent p) (h' : Joins near pairs parent q) : p = q := by
  induction h with
  | done =>
    cases h'
    rfl
  | apart hfar _ ih =>
    cases h' with
    | apart _ hrest => exact ih hrest
    | joined hnear _ _ _ => simp [hfar] at hnear
  | joined hnear hright hleft _ ih =>
    cases h' with
    | apart hfar _ => simp [hfar] at hnear
    | joined _ hright' hleft' hrest =>
      obtain ⟨rfl, rfl⟩ := hright.unique hright'
      obtain ⟨rfl, rfl⟩ := hleft.unique hleft'
      exact ih hrest

theorem Files.unique {rest parent : List Nat} {groups g g' : List (Nat × List Nat)} (h : Files rest parent groups g)
    (h' : Files rest parent groups g') : g = g' := by
  induction h with
  | done =>
    cases h'
    rfl
  | next hfind _ ih =>
    cases h' with
    | next hfind' hrest =>
      obtain ⟨rfl, rfl⟩ := hfind.unique hfind'
      exact ih hrest

/-! ## The loops end -/

variable {n : Nat} {parent : List Nat} {rep depth : Nat → Nat}

theorem forest_reaches (h : Forest n (parentOf parent) rep depth) {x : Nat} (hx : x < n) :
    ∃ k, parentOf parent ((parentOf parent)^[k] x) = (parentOf parent)^[k] x := by
  induction hd : depth x using Nat.strong_induction_on generalizing x with
  | _ d ih =>
    by_cases hroot : parentOf parent x = x
    · exact ⟨0, hroot⟩
    · obtain ⟨k, hk⟩ := ih _ (hd ▸ h.depth_up x hx hroot) (h.up_lt x hx) rfl
      exact ⟨k + 1, hk⟩

theorem pointerForest_of_forest (hlen : parent.length = n) (h : Forest n (parentOf parent) rep depth) :
    PointerForest parent := by
  intro x hx
  rw [hlen] at hx ⊢
  exact ⟨h.up_lt x hx, forest_reaches h hx⟩

/-- **Where the rounds reach the depth, the loop ends**, and as the rounds end. -/
theorem find_climbs {rounds x : Nat} (hlen : parent.length = n) (h : Forest n (parentOf parent) rep depth) (hx : x < n)
    (hrounds : depth x ≤ rounds) : Climbs parent x (find rounds parent x).1 (find rounds parent x).2 := by
  have hforest := pointerForest_of_forest hlen h
  have hin : x < parent.length := by omega
  induction rounds generalizing parent x with
  | zero =>
    have hroot : parentOf parent x = x := by
      by_contra hne
      have hlt := h.depth_up x hx hne
      omega
    exact .root hforest hin hroot
  | succ rounds ih =>
    rw [find_succ]
    by_cases hroot : parentOf parent x = x
    · rw [if_neg (not_not.2 hroot)]
      exact .root hforest hin hroot
    · rw [if_pos hroot]
      have hset : parentOf (halved parent x) = Function.update (parentOf parent) x (parentOf parent (parentOf parent x)) :=
        parentOf_set hin
      have hnext : parentOf (halved parent x) x = parentOf parent (parentOf parent x) := by
        rw [hset, Function.update_self]
      have hhalf := h.halve hx
      rw [← hset] at hhalf
      have hlen' : (halved parent x).length = n := by rw [halved, List.length_set, hlen]
      have hup := h.up_lt x hx
      have hupup := h.up_lt _ hup
      have hdepth : depth (parentOf parent (parentOf parent x)) ≤ rounds := by
        have hlt := h.depth_up x hx hroot
        have hle := h.depth_le hup
        omega
      rw [← hnext] at hupup hdepth
      exact .up hforest hin hroot
        (ih hlen' hhalf hupup hdepth (pointerForest_of_forest hlen' hhalf) (by omega))

theorem Rooted.climbs (h : Rooted n parent rep) {x : Nat} (hx : x < n) :
    Climbs parent x (find parent.length parent x).1 (find parent.length parent x).2 := by
  obtain ⟨hlen, depth, hforest⟩ := h
  obtain ⟨depth', hforest', hbound⟩ := hforest.bounded
  exact find_climbs hlen hforest' hx ((hbound x).trans_eq hlen.symm)

theorem Rooted.joins (near : Nat × Nat → Bool) {pairs : List (Nat × Nat)} (hpairs : ∀ ij ∈ pairs, ij.1 < n ∧ ij.2 < n)
    (h : Rooted n parent rep) :
    Joins near pairs parent (pairs.foldl (fun parent ij => if near ij then join parent ij.1 ij.2 else parent) parent) := by
  induction pairs generalizing parent rep with
  | nil => exact .done
  | cons ij pairs ih =>
    obtain ⟨i, j⟩ := ij
    obtain ⟨hij, hrest⟩ := List.forall_mem_cons.1 hpairs
    rw [List.foldl_cons]
    by_cases hnear : near (i, j) = true
    · rw [if_pos hnear]
      have hright := (find_rooted h hij.2).1
      exact .joined hnear (h.climbs hij.2) (hright.climbs hij.1) (ih hrest (join_rooted h hij.1 hij.2))
    · rw [if_neg hnear]
      exact .apart (by simpa using hnear) (ih hrest h)

theorem Rooted.files (h : Rooted n parent rep) {rest : List Nat} (hrest : ∀ i ∈ rest, i < n)
    (groups : List (Nat × List Nat)) : Files rest parent groups (rest.foldl groupStep (parent, groups)).2 := by
  induction rest generalizing parent groups with
  | nil => exact .done
  | cons i rest ih =>
    obtain ⟨hi, hrest⟩ := List.forall_mem_cons.1 hrest
    exact .next (h.climbs hi) (ih (find_rooted h hi).1 hrest _)

/-! ## The groups are apart -/

theorem addToGroup_keys (groups : List (Nat × List Nat)) (root i : Nat) :
    (addToGroup groups root i).map Prod.fst =
      if root ∈ groups.map Prod.fst then groups.map Prod.fst else groups.map Prod.fst ++ [root] := by
  have hany : groups.any (·.1 = root) = true ↔ root ∈ groups.map Prod.fst := by simp [List.any_eq_true]
  unfold addToGroup
  by_cases hknown : root ∈ groups.map Prod.fst
  · rw [if_pos (hany.2 hknown), if_pos hknown, List.map_map]
    apply List.map_congr_left
    intro g _
    rw [Function.comp_apply]
    split <;> rfl
  · rw [if_neg fun h => hknown (hany.1 h), if_neg hknown]
    simp

theorem groupStep_keys_nodup {rest : List Nat} {s : List Nat × List (Nat × List Nat)} (h : (s.2.map Prod.fst).Nodup) :
    ((rest.foldl groupStep s).2.map Prod.fst).Nodup := by
  induction rest generalizing s with
  | nil => exact h
  | cons i rest ih =>
    apply ih
    rw [groupStep, addToGroup_keys]
    split
    · exact h
    · next hfresh =>
      refine List.nodup_append.2 ⟨h, List.nodup_singleton _, ?_⟩
      rintro a ha b hb rfl
      exact hfresh (List.mem_singleton.1 hb ▸ ha)

/-- Groups of distinct roots hold each position once. -/
theorem Grouped.flatten_perm {m : Nat} {groups : List (Nat × List Nat)} (h : Grouped rep m groups)
    (hkeys : (groups.map Prod.fst).Nodup) : (groups.map Prod.snd).flatten.Perm (List.range m) := by
  apply (List.perm_ext_iff_of_nodup _ List.nodup_range).2
  · intro x
    constructor
    · intro hx
      obtain ⟨cl, hcl, hx⟩ := List.mem_flatten.1 hx
      obtain ⟨g, hg, rfl⟩ := List.mem_map.1 hcl
      rw [h.classes g hg] at hx
      exact (List.mem_filter.1 hx).1
    · intro hx
      obtain ⟨g, hg, hkey⟩ := h.covers x (List.mem_range.1 hx)
      refine List.mem_flatten.2 ⟨g.2, List.mem_map_of_mem hg, ?_⟩
      rw [h.classes g hg]
      exact List.mem_filter.2 ⟨hx, by simp [hkey]⟩
  · refine List.nodup_flatten.2 ⟨?_, ?_⟩
    · intro cl hcl
      obtain ⟨g, hg, rfl⟩ := List.mem_map.1 hcl
      rw [h.classes g hg]
      exact List.nodup_range.filter _
    · rw [List.pairwise_map]
      refine (List.pairwise_map.1 hkeys).imp_of_mem ?_
      intro g g' hg hg' hne x hx hx'
      rw [h.classes g hg] at hx
      rw [h.classes g' hg'] at hx'
      have hr : rep x = g.1 := by simpa using (List.mem_filter.1 hx).2
      have hr' : rep x = g'.1 := by simpa using (List.mem_filter.1 hx').2
      exact hne (hr.symm.trans hr')

/-! ## `_cluster` -/

section
variable {F : Type} (env : ReaderEnv F) (sim : String → String → F) (tau : F) (hits : List (ReadHit F))

/-- A run of `_cluster` and what it returns. -/
def ClusterRun (clusters : List (List Nat)) : Prop :=
  ∃ parent groups, Joins (nearTest env sim tau hits) (pairsBelow hits.length) (List.range hits.length) parent ∧
    Files (List.range hits.length) parent [] groups ∧ clusters = groups.map Prod.snd

/-- **`_cluster` ends, its parents a forest throughout, and returns the connected components**: every position once, in
groups that are not empty, two positions in one group where a chain of near pairs joins them. -/
theorem cluster_components :
    (∀ clusters, ClusterRun env sim tau hits clusters ↔ clusters = cluster env sim tau hits) ∧
      (cluster env sim tau hits).flatten.Perm (List.range hits.length) ∧
      (∀ cl ∈ cluster env sim tau hits, cl ≠ []) ∧
      ∀ i j, (∃ cl ∈ cluster env sim tau hits, i ∈ cl ∧ j ∈ cl) ↔
        i < hits.length ∧ j < hits.length ∧ EqvGen (Near env sim tau hits) i j := by
  obtain ⟨rep, hrooted, hsame⟩ := joinedParents_rooted env sim tau hits
  have hgrouped := (groups_grouped hrooted le_rfl).2
  have hrun : ClusterRun env sim tau hits (cluster env sim tau hits) :=
    ⟨_, _, (range_rooted _).joins _ pairsBelow_lt, hrooted.files (fun _ => List.mem_range.1) [], rfl⟩
  refine ⟨fun clusters => ⟨?_, ?_⟩, ?_, ?_, ?_⟩
  · rintro ⟨parent, groups, hjoins, hfiles, rfl⟩
    obtain ⟨parent', groups', hjoins', hfiles', heq⟩ := hrun
    obtain rfl := hjoins.unique hjoins'
    obtain rfl := hfiles.unique hfiles'
    exact heq.symm
  · rintro rfl
    exact hrun
  · exact hgrouped.flatten_perm (groupStep_keys_nodup List.nodup_nil)
  · intro cl hcl
    obtain ⟨x, hx, hmem⟩ := (cluster_classes env sim tau hits).1 cl hcl
    exact List.ne_nil_of_mem ((hmem x).2 ⟨hx, .refl x⟩)
  · intro i j
    constructor
    · rintro ⟨cl, hcl, hicl, hjcl⟩
      obtain ⟨x, _, hmem⟩ := (cluster_classes env sim tau hits).1 cl hcl
      obtain ⟨hi, hxi⟩ := (hmem i).1 hicl
      obtain ⟨hj, hxj⟩ := (hmem j).1 hjcl
      exact ⟨hi, hj, (hxi.symm _ _).trans _ _ _ hxj⟩
    · rintro ⟨hi, hj, hij⟩
      obtain ⟨cl, hcl, hmem⟩ := (cluster_classes env sim tau hits).2 i hi
      exact ⟨cl, hcl, (hmem i).2 ⟨hi, .refl i⟩, (hmem j).2 ⟨hj, hij⟩⟩

end

end Panella
