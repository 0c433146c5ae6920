import Panella.Lib.UnionFind
import Panella.Reader

/-!
# The clusters are the classes of the similarity relation

`_cluster` joins the two roots of every near pair and then files each position under its root. `find` halves paths as it
climbs, which moves no root (`find_forest`); a join is a link (`join_forest`). What comes out are the classes generated by
`Near` (`cluster_classes`), whatever the similarity function is.
-/

namespace Panella

open UnionFind Relation

/-- `parent[x]`. -/
def parentOf (parent : List Nat) (x : Nat) : Nat := parent.getD x x

/-- The parents of `n` positions with the roots `rep`. -/
def Rooted (n : Nat) (parent : List Nat) (rep : Nat → Nat) : Prop :=
  parent.length = n ∧ ∃ depth, Forest n (parentOf parent) rep depth

variable {n : Nat} {parent : List Nat} {rep depth : Nat → Nat}

theorem parentOf_set {x v : Nat} (hx : x < parent.length) :
    parentOf (parent.set x v) = Function.update (parentOf parent) x v := by
  funext y
  by_cases hyx : y = x
  · subst hyx
    simp [parentOf, List.getD_eq_getElem?_getD, hx]
  · have hxy : x ≠ y := fun h => hyx h.symm
    simp [parentOf, List.getD_eq_getElem?_getD, hyx, hxy]

theorem find_succ (rounds : Nat) (parent : List Nat) (x : Nat) :
    find (rounds + 1) parent x =
      if parentOf parent x ≠ x then
        find rounds (parent.set x (parentOf parent (parentOf parent x)))
          (parentOf (parent.set x (parentOf parent (parentOf parent x))) x)
      else (parent, x) := rfl

/-- **A climb ends at the root and leaves the classes as they are**, where there are rounds for the depth. -/
theorem find_forest {rounds x : Nat} (hlen : parent.length = n) (h : Forest n (parentOf parent) rep depth) (hx : x < n)
    (hrounds : depth x ≤ rounds) :
    (find rounds parent x).1.length = n ∧ Forest n (parentOf (find rounds parent x).1) rep depth ∧
      (find rounds parent x).2 = rep x := by
  induction rounds generalizing parent x with
  | zero =>
    have hroot : parentOf parent x = x := by
      by_contra hne
      have hlt := h.depth_up x hx hne
      omega
    exact ⟨hlen, h, (h.rep_root x hx hroot).symm⟩
  | succ rounds ih =>
    rw [find_succ]
    by_cases hroot : parentOf parent x = x
    · rw [if_neg (not_not.2 hroot)]
      exact ⟨hlen, h, (h.rep_root x hx hroot).symm⟩
    · rw [if_pos hroot]
      have hset : parentOf (parent.set x (parentOf parent (parentOf parent x))) =
          Function.update (parentOf parent) x (parentOf parent (parentOf parent x)) := parentOf_set (hlen ▸ hx)
      have hnext : parentOf (parent.set x (parentOf parent (parentOf parent x))) x = parentOf parent (parentOf parent x) := by
        rw [hset, Function.update_self]
      have hforest := h.halve hx
      rw [← hset] at hforest
      have hup := h.up_lt x hx
      have hdepth : depth (parentOf parent (parentOf parent x)) ≤ rounds := by
        have hlt := h.depth_up x hx hroot
        have hle := h.depth_le hup
        omega
      have hrec := ih (by rw [List.length_set, hlen]) hforest (h.up_lt _ hup) hdepth
      rw [h.rep_up _ hup, h.rep_up _ hx] at hrec
      rw [hnext]
      exact hrec

/-- The rounds `join` and `_cluster` take are enough. -/
theorem find_rooted {x : Nat} (h : Rooted n parent rep) (hx : x < n) :
    Rooted n (find parent.length parent x).1 rep ∧ (find parent.length parent x).2 = rep x := by
  obtain ⟨hlen, depth, hforest⟩ := h
  obtain ⟨depth', hforest', hbound⟩ := hforest.bounded
  obtain ⟨hlen', hfound, hroot⟩ := find_forest hlen hforest' hx ((hbound x).trans_eq hlen.symm)
  exact ⟨⟨hlen', depth', hfound⟩, hroot⟩

/-- **A join is a link of the two roots.** -/
theorem join_rooted {i j : Nat} (h : Rooted n parent rep) (hi : i < n) (hj : j < n) :
    Rooted n (join parent i j) (Forest.linkedRep rep (rep i) (rep j)) := by
  obtain ⟨hright, hj'⟩ := find_rooted h hj
  obtain ⟨hleft, hi'⟩ := find_rooted hright hi
  have hlen := hleft.1
  obtain ⟨depth, hforest⟩ := hleft.2
  obtain ⟨hri, hrooti⟩ := hforest.rep_fixed hi
  obtain ⟨hrj, hrootj⟩ := hforest.rep_fixed hj
  unfold join
  dsimp only
  rw [hi', hj']
  refine ⟨by rw [List.length_set, hlen], ?_⟩
  rw [parentOf_set (hlen ▸ hri)]
  exact hforest.link hri hrj hrooti hrootj

theorem mem_pairsBelow {i j : Nat} : (i, j) ∈ pairsBelow n ↔ i < j ∧ j < n := by
  unfold pairsBelow
  simp only [List.mem_flatMap, List.mem_range, List.mem_map, List.mem_range'_1, Prod.mk.injEq]
  constructor
  · rintro ⟨i', hi', j', hj', rfl, rfl⟩
    omega
  · rintro ⟨hij, hj⟩
    exact ⟨i, by omega, j, by omega, rfl, rfl⟩

/-- Joining the pairs of a list that pass a test joins the classes. -/
theorem joins_rooted (near : Nat × Nat → Bool) {pairs : List (Nat × Nat)} (hpairs : ∀ ij ∈ pairs, ij.1 < n ∧ ij.2 < n)
    {r : Nat → Nat → Prop} (h : Rooted n parent rep) (hclasses : ∀ x y, rep x = rep y ↔ EqvGen r x y) :
    ∃ rep', Rooted n (pairs.foldl (fun parent ij => if near ij then join parent ij.1 ij.2 else parent) parent) rep' ∧
      ∀ x y, rep' x = rep' y ↔ EqvGen (fun a b => r a b ∨ ((a, b) ∈ pairs ∧ near (a, b) = true)) x y := by
  induction pairs generalizing parent rep r with
  | nil =>
    refine ⟨rep, h, fun x y => ?_⟩
    simpa using hclasses x y
  | cons ij pairs ih =>
    obtain ⟨i, j⟩ := ij
    obtain ⟨hij, hrest⟩ := List.forall_mem_cons.1 hpairs
    rw [List.foldl_cons]
    by_cases hnear : near (i, j) = true
    · rw [if_pos hnear]
      obtain ⟨rep', hrooted', hclasses'⟩ := ih hrest (join_rooted h hij.1 hij.2) fun x y => linkedRep_eq_iff hclasses
      refine ⟨rep', hrooted', fun x y => (hclasses' x y).trans ?_⟩
      have hsame : (fun a b => withPair r i j a b ∨ ((a, b) ∈ pairs ∧ near (a, b) = true)) =
          fun a b => r a b ∨ ((a, b) ∈ (i, j) :: pairs ∧ near (a, b) = true) := by
        ext a b
        simp only [withPair, List.mem_cons, Prod.mk.injEq]
        constructor
        · rintro ((hr | ⟨rfl, rfl⟩) | ⟨hmem, hn⟩)
          · exact .inl hr
          · exact .inr ⟨.inl ⟨rfl, rfl⟩, hnear⟩
          · exact .inr ⟨.inr hmem, hn⟩
        · rintro (hr | ⟨⟨rfl, rfl⟩ | hmem, hn⟩)
          · exact .inl (.inl hr)
          · exact .inl (.inr ⟨rfl, rfl⟩)
          · exact .inr ⟨hmem, hn⟩
      rw [hsame]
    · rw [if_neg hnear]
      obtain ⟨rep', hrooted', hclasses'⟩ := ih hrest h hclasses
      refine ⟨rep', hrooted', fun x y => (hclasses' x y).trans ?_⟩
      have hsame : (fun a b => r a b ∨ ((a, b) ∈ pairs ∧ near (a, b) = true)) =
          fun a b => r a b ∨ ((a, b) ∈ (i, j) :: pairs ∧ near (a, b) = true) := by
        ext a b
        simp only [List.mem_cons, Prod.mk.injEq]
        constructor
        · rintro (hr | ⟨hmem, hn⟩)
          · exact .inl hr
          · exact .inr ⟨.inr hmem, hn⟩
        · rintro (hr | ⟨⟨rfl, rfl⟩ | hmem, hn⟩)
          · exact .inl hr
          · exact absurd hn hnear
          · exact .inr ⟨hmem, hn⟩
      rw [hsame]

/-! ## The groups -/

/-- The groups of the first `m` positions: of each root, the positions under it. -/
structure Grouped (rep : Nat → Nat) (m : Nat) (groups : List (Nat × List Nat)) : Prop where
  classes : ∀ g ∈ groups, g.2 = (List.range m).filter fun x => rep x = g.1
  covers : ∀ x < m, ∃ g ∈ groups, g.1 = rep x
  keyed : ∀ g ∈ groups, ∃ x < m, g.1 = rep x

theorem Grouped.add {m : Nat} {groups : List (Nat × List Nat)} (h : Grouped rep m groups) :
    Grouped rep (m + 1) (addToGroup groups (rep m) m) := by
  have hnext : ∀ r, ((List.range (m + 1)).filter fun x => rep x = r) =
      ((List.range m).filter fun x => rep x = r) ++ if rep m = r then [m] else [] := by
    intro r
    rw [List.range_succ, List.filter_append, List.filter_singleton]
    simp
  unfold addToGroup
  split
  · next hknown =>
    obtain ⟨g₀, hg₀, hroot⟩ := List.any_eq_true.1 hknown
    have hkey : ∀ g : Nat × List Nat, (if g.1 = rep m then (g.1, g.2 ++ [m]) else g).1 = g.1 := by
      intro g
      split <;> rfl
    refine ⟨?_, ?_, ?_⟩
    · intro g' hg'
      obtain ⟨g, hg, rfl⟩ := List.mem_map.1 hg'
      rw [hkey, hnext, ← h.classes g hg]
      by_cases hgr : g.1 = rep m
      · rw [if_pos hgr, if_pos hgr.symm]
      · rw [if_neg hgr, if_neg fun e => hgr e.symm, List.append_nil]
    · intro x hx
      obtain ⟨g, hg, hgx⟩ : ∃ g ∈ groups, g.1 = rep x := by
        rcases Nat.lt_succ_iff_lt_or_eq.1 hx with hlt | rfl
        · exact h.covers x hlt
        · exact ⟨g₀, hg₀, by simpa using hroot⟩
      exact ⟨_, List.mem_map_of_mem hg, (hkey g).trans hgx⟩
    · intro g' hg'
      obtain ⟨g, hg, rfl⟩ := List.mem_map.1 hg'
      obtain ⟨x, hx, hgx⟩ := h.keyed g hg
      exact ⟨x, Nat.lt_succ_of_lt hx, (hkey g).trans hgx⟩
  · next hfresh =>
    have hnone : ∀ g ∈ groups, g.1 ≠ rep m := by
      intro g hg heq
      exact hfresh (List.any_eq_true.2 ⟨g, hg, by simpa using heq⟩)
    refine ⟨?_, ?_, ?_⟩
    · intro g hg
      rcases List.mem_append.1 hg with hg | hg
      · rw [hnext, if_neg fun e => hnone g hg e.symm, List.append_nil]
        exact h.classes g hg
      · rw [List.mem_singleton.1 hg]
        have hempty : ((List.range m).filter fun x => rep x = rep m) = [] := by
          rw [List.filter_eq_nil_iff]
          intro x hx heq
          obtain ⟨g', hg', hkey⟩ := h.covers x (List.mem_range.1 hx)
          exact hnone g' hg' (hkey.trans (by simpa using heq))
        rw [hnext, hempty, if_pos rfl, List.nil_append]
    · intro x hx
      rcases Nat.lt_succ_iff_lt_or_eq.1 hx with hlt | rfl
      · obtain ⟨g, hg, hkey⟩ := h.covers x hlt
        exact ⟨g, List.mem_append_left _ hg, hkey⟩
      · exact ⟨(rep x, [x]), List.mem_append_right _ (List.mem_singleton.2 rfl), rfl⟩
    · intro g hg
      rcases List.mem_append.1 hg with hg | hg
      · obtain ⟨x, hx, hkey⟩ := h.keyed g hg
        exact ⟨x, Nat.lt_succ_of_lt hx, hkey⟩
      · rw [List.mem_singleton.1 hg]
        exact ⟨m, Nat.lt_succ_self m, rfl⟩

/-- `groups[find(i)].append(i)`. -/
def groupStep (s : List Nat × List (Nat × List Nat)) (i : Nat) : List Nat × List (Nat × List Nat) :=
  ((find s.1.length s.1 i).1, addToGroup s.2 (find s.1.length s.1 i).2 i)

theorem groups_grouped (h : Rooted n parent rep) {m : Nat} (hm : m ≤ n) :
    Rooted n ((List.range m).foldl groupStep (parent, [])).1 rep ∧
      Grouped rep m ((List.range m).foldl groupStep (parent, [])).2 := by
  induction m with
  | zero => exact ⟨h, by simp, by simp, by simp⟩
  | succ m ih =>
    obtain ⟨hrooted, hgrouped⟩ := ih (Nat.le_of_succ_le hm)
    rw [List.range_succ, List.foldl_append, List.foldl_cons, List.foldl_nil]
    obtain ⟨hnext, hroot⟩ := find_rooted hrooted (Nat.lt_of_succ_le hm)
    refine ⟨hnext, ?_⟩
    have hadd := hgrouped.add
    rw [← hroot] at hadd
    exact hadd

/-! ## The clusters -/

section
variable {F : Type} (env : ReaderEnv F) (sim : String → String → F) (tau : F) (hits : List (ReadHit F))

/-- What the similarity function is asked about a row. -/
def bodyAt (i : Nat) : String := (hits.map fun h => contentBody (hitContent h)).getD i ""

/-- Two positions whose bodies are similar, in the order they are compared. -/
def Near (i j : Nat) : Prop :=
  i < j ∧ j < hits.length ∧ env.le tau (sim (bodyAt hits i) (bodyAt hits j)) = true

/-- Positions joined by a chain of near pairs. -/
def SameCluster : Nat → Nat → Prop := EqvGen (Near env sim tau hits)

/-- The test of a pair of positions. -/
def nearTest (ij : Nat × Nat) : Bool := env.le tau (sim (bodyAt hits ij.1) (bodyAt hits ij.2))

/-- The parents after the double loop. -/
def joinedParents : List Nat :=
  (pairsBelow hits.length).foldl (fun parent ij => if nearTest env sim tau hits ij then join parent ij.1 ij.2 else parent)
    (List.range hits.length)

theorem cluster_eq : cluster env sim tau hits =
    ((List.range hits.length).foldl groupStep (joinedParents env sim tau hits, [])).2.map Prod.snd := rfl

theorem range_rooted (n : Nat) : Rooted n (List.range n) id := by
  refine ⟨List.length_range, fun _ => 0, ?_⟩
  have hid : parentOf (List.range n) = id := by
    funext x
    unfold parentOf
    by_cases hx : x < n
    · simp [List.getD_eq_getElem?_getD, hx]
    · simp [List.getD_eq_getElem?_getD, hx]
  rw [hid]
  exact Forest.discrete _

theorem pairsBelow_lt : ∀ ij ∈ pairsBelow n, ij.1 < n ∧ ij.2 < n := by
  rintro ⟨i, j⟩ hij
  obtain ⟨hlt, hj⟩ := mem_pairsBelow.1 hij
  exact ⟨hlt.trans hj, hj⟩

/-- Two positions are left under one root where a chain of near pairs joins them. -/
theorem joinedParents_rooted : ∃ rep, Rooted hits.length (joinedParents env sim tau hits) rep ∧
    ∀ x y, rep x = rep y ↔ SameCluster env sim tau hits x y := by
  have hclasses : ∀ x y : Nat, id x = id y ↔ EqvGen (fun _ _ => False) x y := by
    intro x y
    constructor
    · rintro (rfl : x = y)
      exact .refl x
    · intro h
      induction h with
      | rel _ _ h => exact h.elim
      | refl => rfl
      | symm _ _ _ ih => exact ih.symm
      | trans _ _ _ _ _ ih ih' => exact ih.trans ih'
  obtain ⟨rep, hrooted, hrep⟩ :=
    joins_rooted (nearTest env sim tau hits) pairsBelow_lt (range_rooted hits.length) hclasses
  refine ⟨rep, hrooted, fun x y => ?_⟩
  rw [hrep, SameCluster]
  have hnear : (fun a b => False ∨ ((a, b) ∈ pairsBelow hits.length ∧ nearTest env sim tau hits (a, b) = true)) =
      Near env sim tau hits := by
    funext a b
    simp only [false_or, mem_pairsBelow, nearTest, Near, and_assoc]
  rw [hnear]

/-- **The clusters are the classes of `SameCluster`.** -/
theorem cluster_classes :
    (∀ cl ∈ cluster env sim tau hits, ∃ x < hits.length, ∀ y, y ∈ cl ↔ y < hits.length ∧ SameCluster env sim tau hits x y) ∧
      ∀ x < hits.length, ∃ cl ∈ cluster env sim tau hits, ∀ y, y ∈ cl ↔ y < hits.length ∧ SameCluster env sim tau hits x y := by
  obtain ⟨rep, hrooted, hsame⟩ := joinedParents_rooted env sim tau hits
  have hgrouped := (groups_grouped hrooted le_rfl).2
  have hclass : ∀ {x y r}, r = rep x → (y ∈ (List.range hits.length).filter (fun z => rep z = r) ↔
      y < hits.length ∧ SameCluster env sim tau hits x y) := by
    rintro x y _ rfl
    rw [List.mem_filter, List.mem_range, decide_eq_true_eq, ← hsame, eq_comm]
  rw [cluster_eq]
  constructor
  · intro cl hcl
    obtain ⟨g, hg, rfl⟩ := List.mem_map.1 hcl
    obtain ⟨x, hx, hkey⟩ := hgrouped.keyed g hg
    refine ⟨x, hx, fun y => ?_⟩
    rw [hgrouped.classes g hg]
    exact hclass hkey
  · intro x hx
    obtain ⟨g, hg, hkey⟩ := hgrouped.covers x hx
    refine ⟨g.2, List.mem_map_of_mem hg, fun y => ?_⟩
    rw [hgrouped.classes g hg]
    exact hclass hkey

end

end Panella
