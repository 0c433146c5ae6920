import Panella.Clusters
import Panella.Lib.StableSort
import Panella.ReadAccess

/-!
# What the reader does to the order of rows

`_readerpp_order` demotes exactly the rows that a newer row of their cluster supersedes (`mem_demoted`), and `select` keeps
them behind all others whatever a scorer says (`CanonicalOrder`). A scorer that breaks its contract is passed over, but for
one breach: `float(s)` may raise something else than what is caught there, and then so does `select`.
-/

namespace Panella

open Fallible StableSort

section
variable {F : Type} (env : ReaderEnv F) (sim : String → String → F) (tau : F) (hits : List (ReadHit F))

/-- `epochs[i]`. -/
def epochAt (i : Nat) : Option F := hits[i]?.bind (rowEpoch env)

/-- Row `j`, of date `y`, is newer than row `i`, of date `x`; on one date the row retrieved first is. -/
def Newer (fl : Floats F) (y : F) (j : Nat) (x : F) (i : Nat) : Prop :=
  fl.lt x y = true ∨ (fl.lt x y = false ∧ fl.lt y x = false ∧ j < i)

/-- A dated row with a newer one in its cluster. -/
def Superseded (i : Nat) : Prop :=
  ∃ x, epochAt env hits i = some x ∧ ∃ j < hits.length, SameCluster env sim tau hits i j ∧
    ∃ y, epochAt env hits j = some y ∧ Newer env.toFloats y j x i

/-- A dated row without a newer one in its cluster. -/
def Newest (i : Nat) : Prop :=
  ∃ x, epochAt env hits i = some x ∧ ∀ j < hits.length, SameCluster env sim tau hits i j →
    ∀ y, epochAt env hits j = some y → ¬ Newer env.toFloats y j x i

/-- Both rows are dated, and `j` earlier. -/
def Older (j i : Nat) : Prop :=
  ∃ y x, epochAt env hits j = some y ∧ epochAt env hits i = some x ∧ env.lt y x = true

/-- Dates compare: what is finite is ordered, and what `fromisoformat` makes is finite. -/
structure Chronological (env : ReaderEnv F) : Prop where
  asymm : ∀ x y, env.isFinite x = true → env.isFinite y = true → env.lt x y = false ∨ env.lt y x = false
  trans : ∀ x y z, env.isFinite x = true → env.isFinite y = true → env.isFinite z = true →
    env.lt x y = false → env.lt y z = false → env.lt x z = false
  iso : ∀ s x, env.isoTimestamp s = some x → env.isFinite x = true

end

variable {F : Type} {env : ReaderEnv F} {sim : String → String → F} {tau : F} {hits : List (ReadHit F)} {rrfK : Nat}

/-! ## Dates -/

theorem coerceEpoch_finite (hch : Chronological env) {v : PyJson.Json} {x : F} (h : coerceEpoch env v = some x) :
    env.isFinite x = true := by
  have hfinite : ∀ {r : Except ClientErr F}, coerceEpoch.finite env r = some x → env.isFinite x = true := by
    intro r hr
    unfold coerceEpoch.finite at hr
    split at hr
    · split at hr
      · next hx =>
        cases hr
        exact hx
      · cases hr
    · cases hr
  unfold coerceEpoch at h
  split at h
  · exact hfinite h
  · exact hfinite h
  · dsimp only at h
    split at h
    · cases h
    · split at h
      · exact hfinite h
      · exact hch.iso _ _ h
  · cases h

theorem epochAt_finite (hch : Chronological env) {i : Nat} {x : F} (h : epochAt env hits i = some x) :
    env.isFinite x = true := by
  obtain ⟨hit, -, hx⟩ := Option.bind_eq_some_iff.1 h
  unfold rowEpoch at hx
  split at hx
  · next hsource =>
    cases hx
    exact coerceEpoch_finite hch hsource
  · split at hx
    · next hcreated =>
      cases hx
      exact coerceEpoch_finite hch hcreated
    · exact coerceEpoch_finite hch hx

theorem lt_self (hch : Chronological env) {x : F} (hx : env.isFinite x = true) : env.lt x x = false :=
  (hch.asymm x x hx hx).elim id id

theorem keyLt_iff {fl : Floats F} {x y : F} {i j : Nat} : keyLt fl (true, x, i) (true, y, j) = true ↔ Newer fl y j x i := by
  unfold keyLt Newer
  cases fl.lt x y <;> cases fl.lt y x <;> simp

/-- Dated rows are ranked by what is not older. -/
theorem ranks_dated (hch : Chronological env) :
    Ranks (fun a b : Nat × F => keyLt env.toFloats (true, a.2, a.1) (true, b.2, b.1) = false) fun a =>
      env.isFinite a.2 = true where
  total a b ha hb := by
    rw [Bool.eq_false_iff, Bool.eq_false_iff, ne_eq, ne_eq, keyLt_iff, keyLt_iff]
    unfold Newer
    have hasymm := hch.asymm a.2 b.2 ha hb
    cases hab : env.lt a.2 b.2 <;> cases hba : env.lt b.2 a.2 <;> simp_all
    omega
  trans a b c ha hb hc hab hbc := by
    rw [Bool.eq_false_iff, ne_eq, keyLt_iff] at *
    unfold Newer at *
    push Not at hab hbc ⊢
    have hab' : env.lt a.2 b.2 = false := by simpa using hab.1
    have hbc' : env.lt b.2 c.2 = false := by simpa using hbc.1
    have hac := hch.trans a.2 b.2 c.2 ha hb hc hab' hbc'
    refine ⟨by simp [hac], fun _ hca => ?_⟩
    -- on one date all three are, and the places decide
    have hba : env.lt b.2 a.2 = false := hch.trans b.2 c.2 a.2 hb hc ha hbc' hca
    have hcb : env.lt c.2 b.2 = false := hch.trans c.2 a.2 b.2 hc ha hb hca hab'
    exact (hab.2 hab' hba).trans (hbc.2 hbc' hcb)

/-- **`max` is of the list, and nothing is newer.** -/
theorem newest_spec (hch : Chronological env) {l : List (Nat × F)} (hne : l ≠ []) (hl : ∀ a ∈ l, env.isFinite a.2 = true) :
    ∃ m ∈ l, newest env.toFloats l = some m.1 ∧ ∀ a ∈ l, keyLt env.toFloats (true, m.2, m.1) (true, a.2, a.1) = false := by
  have hranks := ranks_dated hch
  have hfold : ∀ (xs : List (Nat × F)) (x : Nat × F), (∀ a ∈ x :: xs, env.isFinite a.2 = true) →
      ∃ m ∈ x :: xs,
        xs.foldl (fun m y => if keyLt env.toFloats (true, m.2, m.1) (true, y.2, y.1) then y else m) x = m ∧
        ∀ a ∈ x :: xs, keyLt env.toFloats (true, m.2, m.1) (true, a.2, a.1) = false := by
    intro xs
    induction xs with
    | nil =>
      intro x hx
      refine ⟨x, List.mem_cons_self, rfl, ?_⟩
      intro a ha
      rw [List.mem_singleton.1 ha]
      exact (hranks.total x x (hx x List.mem_cons_self) (hx x List.mem_cons_self)).elim id id
    | cons y ys ih =>
      intro x hx
      have hxf := hx x List.mem_cons_self
      have hyf := hx y (List.mem_cons_of_mem _ List.mem_cons_self)
      have hys : ∀ a ∈ ys, env.isFinite a.2 = true := fun a ha =>
        hx a (List.mem_cons_of_mem _ (List.mem_cons_of_mem _ ha))
      rw [List.foldl_cons]
      -- the better of the two heads stands for both
      have hbetter : ∀ b, (b = x ∨ b = y) → keyLt env.toFloats (true, b.2, b.1) (true, x.2, x.1) = false →
          keyLt env.toFloats (true, b.2, b.1) (true, y.2, y.1) = false → ∃ m ∈ x :: y :: ys,
            ys.foldl (fun m y => if keyLt env.toFloats (true, m.2, m.1) (true, y.2, y.1) then y else m) b = m ∧
            ∀ a ∈ x :: y :: ys, keyLt env.toFloats (true, m.2, m.1) (true, a.2, a.1) = false := by
        intro b hb hbx hby
        have hbf : env.isFinite b.2 = true := by
          rcases hb with rfl | rfl
          · exact hxf
          · exact hyf
        obtain ⟨m, hm, hfoldm, hmax⟩ := ih b (List.forall_mem_cons.2 ⟨hbf, hys⟩)
        have hmf : env.isFinite m.2 = true := by
          rcases List.mem_cons.1 hm with rfl | hm
          · exact hbf
          · exact hys m hm
        have hmb := hmax b List.mem_cons_self
        refine ⟨m, ?_, hfoldm, ?_⟩
        · rcases List.mem_cons.1 hm with rfl | hm
          · rcases hb with rfl | rfl <;> simp
          · exact List.mem_cons_of_mem _ (List.mem_cons_of_mem _ hm)
        · intro a ha
          rcases List.mem_cons.1 ha with rfl | ha
          · exact hranks.trans m b a hmf hbf hxf hmb hbx
          · rcases List.mem_cons.1 ha with rfl | ha
            · exact hranks.trans m b a hmf hbf hyf hmb hby
            · exact hmax a (List.mem_cons_of_mem _ ha)
      by_cases hxy : keyLt env.toFloats (true, x.2, x.1) (true, y.2, y.1) = true
      · rw [if_pos hxy]
        have hyx := (hranks.total x y hxf hyf).resolve_left (by simp [hxy])
        exact hbetter y (.inr rfl) hyx ((hranks.total y y hyf hyf).elim id id)
      · rw [if_neg hxy]
        exact hbetter x (.inl rfl) ((hranks.total x x hxf hxf).elim id id) (by simpa using hxy)
  match l, hne with
  | x :: xs, _ =>
    obtain ⟨m, hm, hfoldm, hmax⟩ := hfold xs x hl
    exact ⟨m, hm, by rw [newest, hfoldm], hmax⟩

/-! ## What is demoted -/

theorem mem_dated {epochs : Nat → Option F} {cl : List Nat} {a : Nat × F} :
    a ∈ (cl.filterMap fun i => (epochs i).map fun x => (i, x)) ↔ a.1 ∈ cl ∧ epochs a.1 = some a.2 := by
  rw [List.mem_filterMap]
  constructor
  · rintro ⟨i, hi, ha⟩
    obtain ⟨x, hx, rfl⟩ := Option.map_eq_some_iff.1 ha
    exact ⟨hi, hx⟩
  · rintro ⟨hi, hx⟩
    exact ⟨a.1, hi, by rw [hx]; rfl⟩

/-- **A cluster demotes the rows it has a newer one for.** -/
theorem mem_demotedIn (hch : Chronological env) {cl : List Nat} {i : Nat} :
    i ∈ demotedIn env.toFloats (epochAt env hits) cl ↔
      i ∈ cl ∧ ∃ x, epochAt env hits i = some x ∧ ∃ j ∈ cl, ∃ y, epochAt env hits j = some y ∧
        Newer env.toFloats y j x i := by
  generalize hdated : (cl.filterMap fun i => (epochAt env hits i).map fun x => (i, x)) = dated
  have hmem : ∀ a, a ∈ dated ↔ a.1 ∈ cl ∧ epochAt env hits a.1 = some a.2 := fun a => hdated ▸ mem_dated
  have hfinite : ∀ a ∈ dated, env.isFinite a.2 = true := fun a ha => epochAt_finite hch ((hmem a).1 ha).2
  unfold demotedIn
  dsimp only
  rw [hdated]
  constructor
  · intro h
    split at h
    · obtain ⟨hi, hnot⟩ := List.mem_filter.1 h
      obtain ⟨a, ha, rfl⟩ := List.mem_map.1 hi
      obtain ⟨m, hm, hnewest, hmax⟩ := newest_spec hch (List.ne_nil_of_mem ha) hfinite
      refine ⟨((hmem a).1 ha).1, a.2, ((hmem a).1 ha).2, m.1, ((hmem m).1 hm).1, m.2, ((hmem m).1 hm).2, ?_⟩
      have hother : m.1 ≠ a.1 := by
        intro he
        rw [hnewest, he] at hnot
        simp at hnot
      have hold := hmax a ha
      rw [Bool.eq_false_iff, ne_eq, keyLt_iff] at hold
      unfold Newer at hold ⊢
      push Not at hold
      by_cases hlt : env.lt a.2 m.2 = true
      · exact .inl hlt
      · have hma : env.lt m.2 a.2 = false := by simpa using hold.1
        have ham : env.lt a.2 m.2 = false := by simpa using hlt
        have hplace := hold.2 hma ham
        exact .inr ⟨ham, hma, by omega⟩
    · cases h
  · rintro ⟨hi, x, hx, j, hj, y, hy, hnewer⟩
    have hix : (i, x) ∈ dated := (hmem (i, x)).2 ⟨hi, hx⟩
    have hjy : (j, y) ∈ dated := (hmem (j, y)).2 ⟨hj, hy⟩
    have hne : i ≠ j := by
      rintro rfl
      rw [hx] at hy
      cases hy
      rcases hnewer with hlt | ⟨-, -, hlt⟩
      · rw [lt_self hch (epochAt_finite hch hx)] at hlt
        cases hlt
      · omega
    have htwo : dated.length ≥ 2 := by
      match dated, hix, hjy with
      | [a], hix, hjy =>
        rw [List.mem_singleton] at hix hjy
        exact absurd (congrArg Prod.fst (hix.trans hjy.symm)) hne
      | _ :: _ :: _, _, _ => simp
    rw [if_pos htwo]
    refine List.mem_filter.2 ⟨List.mem_map.2 ⟨(i, x), hix, rfl⟩, ?_⟩
    obtain ⟨m, hm, hnewest, hmax⟩ := newest_spec hch (List.ne_nil_of_mem hix) hfinite
    rw [decide_eq_true_eq, hnewest]
    intro he
    rw [Option.some.injEq] at he
    have hmx : m.2 = x := by
      have hmepoch := ((hmem m).1 hm).2
      rw [he, hx] at hmepoch
      exact (Option.some.inj hmepoch).symm
    have hmaxj := hmax (j, y) hjy
    rw [hmx, he, keyLt_iff.2 hnewer] at hmaxj
    cases hmaxj

/-- **The demoted rows are the superseded ones.** -/
theorem mem_demoted (hch : Chronological env) {i : Nat} :
    i ∈ (readerppOrder env sim tau rrfK hits).2 ↔ i < hits.length ∧ Superseded env sim tau hits i := by
  obtain ⟨hclass, hcovers⟩ := cluster_classes env sim tau hits
  change i ∈ (cluster env sim tau hits).flatMap (demotedIn env.toFloats (epochAt env hits)) ↔ _
  rw [List.mem_flatMap]
  constructor
  · rintro ⟨cl, hcl, hi⟩
    obtain ⟨hin, x, hx, j, hj, y, hy, hnewer⟩ := (mem_demotedIn hch).1 hi
    obtain ⟨r, -, hmem⟩ := hclass cl hcl
    obtain ⟨hilt, hri⟩ := (hmem i).1 hin
    obtain ⟨hjlt, hrj⟩ := (hmem j).1 hj
    exact ⟨hilt, x, hx, j, hjlt, (hri.symm _ _).trans _ _ _ hrj, y, hy, hnewer⟩
  · rintro ⟨hilt, x, hx, j, hjlt, hsame, y, hy, hnewer⟩
    obtain ⟨cl, hcl, hmem⟩ := hcovers i hilt
    refine ⟨cl, hcl, (mem_demotedIn hch).2 ⟨(hmem i).2 ⟨hilt, .refl i⟩, x, hx, j, (hmem j).2 ⟨hjlt, hsame⟩, y, hy, hnewer⟩⟩

/-! ## The order -/

/-- An order of the positions that keeps the canonical rows in front. -/
structure CanonicalOrder {F : Type} (env : ReaderEnv F) (sim : String → String → F) (tau : F) (hits : List (ReadHit F))
    (order : List Nat) : Prop where
  perm : order.Perm (List.range hits.length)
  /-- Behind a superseded row come superseded rows only. -/
  canonical : order.Pairwise fun i j => Superseded env sim tau hits i → Superseded env sim tau hits j
  /-- No older row of a cluster stands before its newest. -/
  newestFirst : order.Pairwise fun j i =>
    ¬ (SameCluster env sim tau hits j i ∧ Newest env sim tau hits i ∧ Older env hits j i)
  /-- Behind a superseded row there is no undated one. -/
  undated : order.Pairwise fun i j => Superseded env sim tau hits i → (epochAt env hits j).isSome = true

theorem Newest.not_superseded {i : Nat} (h : Newest env sim tau hits i) : ¬ Superseded env sim tau hits i := by
  rintro ⟨x, hx, j, hj, hsame, y, hy, hnewer⟩
  obtain ⟨x', hx', hnone⟩ := h
  rw [hx] at hx'
  cases hx'
  exact hnone j hj hsame y hy hnewer

theorem Superseded.dated {i : Nat} (h : Superseded env sim tau hits i) : (epochAt env hits i).isSome = true := by
  obtain ⟨x, hx, -⟩ := h
  rw [hx]
  rfl

/-- It is enough that superseded rows come last. -/
theorem CanonicalOrder.of_canonical {order : List Nat} (hperm : order.Perm (List.range hits.length))
    (hcanonical : order.Pairwise fun i j => Superseded env sim tau hits i → Superseded env sim tau hits j) :
    CanonicalOrder env sim tau hits order where
  perm := hperm
  canonical := hcanonical
  newestFirst := by
    have hmem : ∀ j ∈ order, ∀ i ∈ order, i < hits.length ∧ j < hits.length := fun j hj i hi =>
      ⟨List.mem_range.1 (hperm.subset hi), List.mem_range.1 (hperm.subset hj)⟩
    refine hcanonical.imp_of_mem fun {j i} hj hi hlast => ?_
    rintro ⟨hsame, hnewest, y, x, hy, hx, hlt⟩
    exact hnewest.not_superseded (hlast ⟨y, hy, i, (hmem j hj i hi).1, hsame, x, hx, .inl hlt⟩)
  undated := hcanonical.imp fun hlast h => (hlast h).dated

theorem readerppOrder_canonical (hch : Chronological env) :
    CanonicalOrder env sim tau hits (readerppOrder env sim tau rrfK hits).1 := by
  refine .of_canonical (readerppOrder_perm env sim tau rrfK hits) ?_
  have hstratum : (readerppOrder env sim tau rrfK hits).1.Pairwise fun i j =>
      j ∉ (readerppOrder env sim tau rrfK hits).2 → i ∉ (readerppOrder env sim tau rrfK hits).2 := by
    apply stratum_insertionSort
    · intro i j hi hj
      have hi' : (readerppOrder env sim tau rrfK hits).2.contains i = false := by simpa using hi
      have hj' : (readerppOrder env sim tau rrfK hits).2.contains j = true := by simpa using hj
      simp only [readerppOrder] at hi' hj'
      simp only [keyLt, hi', hj']
      simp
    · intro i j hi hj
      have hi' : (readerppOrder env sim tau rrfK hits).2.contains i = true := by simpa using hi
      have hj' : (readerppOrder env sim tau rrfK hits).2.contains j = false := by simpa using hj
      simp only [readerppOrder] at hi' hj'
      simp only [keyLt, hi', hj']
      simp
  refine hstratum.imp_of_mem fun {i j} hi hj hlast hsuper => ?_
  have hlt := List.mem_range.1 ((readerppOrder_perm env sim tau rrfK hits).subset hi)
  by_contra hnot
  exact hlast (fun hmem => hnot ((mem_demoted hch).1 hmem).2) ((mem_demoted hch).2 ⟨hlt, hsuper⟩)

theorem mem_pick {α : Type} {xs : List α} {positions : List Nat} {a : α} :
    a ∈ pick xs positions ↔ ∃ p ∈ positions, xs[p]? = some a := List.mem_filterMap

/-- **A scorer re-orders within the strata.** -/
theorem stratified_canonical (hch : Chronological env) (scores : List F) :
    CanonicalOrder env sim tau hits (pick (readerppOrder env sim tau rrfK hits).1
      (stratified env.toFloats (readerppOrder env sim tau rrfK hits).1 (readerppOrder env sim tau rrfK hits).2 scores)) := by
  generalize hranked : readerppOrder env sim tau rrfK hits = ranked
  have hperm : ranked.1.Perm (List.range hits.length) := hranked ▸ readerppOrder_perm env sim tau rrfK hits
  have hdemoted : ∀ i, i ∈ ranked.2 ↔ i < hits.length ∧ Superseded env sim tau hits i := fun i => by
    rw [← hranked]
    exact mem_demoted hch
  have hat : ∀ {p i : Nat}, ranked.1[p]? = some i → ranked.1.getD p 0 = i := by
    intro p i hp
    rw [List.getD_eq_getElem?_getD, hp]
    rfl
  refine .of_canonical ((pick_perm (stratified_perm env.toFloats ranked.1 ranked.2 scores)).trans hperm) ?_
  unfold stratified
  dsimp only
  rw [pick, List.filterMap_append, List.pairwise_append]
  refine ⟨?_, ?_, ?_⟩
  · apply List.pairwise_of_forall_mem_list
    intro i hi j _ hsuper
    obtain ⟨p, hp, hpi⟩ := mem_pick.1 hi
    have hlive := (List.mem_filter.1 ((List.mem_insertionSort _).1 hp)).2
    rw [hat hpi] at hlive
    have hlt := List.mem_range.1 (hperm.subset (List.mem_of_getElem? hpi))
    simp only [Bool.not_eq_true', List.contains_eq_mem, decide_eq_false_iff_not] at hlive
    exact absurd ((hdemoted i).2 ⟨hlt, hsuper⟩) hlive
  · apply List.pairwise_of_forall_mem_list
    intro i _ j hj _
    obtain ⟨p, hp, hpj⟩ := mem_pick.1 hj
    have hdead := (List.mem_filter.1 ((List.mem_insertionSort _).1 hp)).2
    rw [hat hpj] at hdead
    simp only [List.contains_eq_mem, decide_eq_true_eq] at hdead
    exact ((hdemoted j).1 hdead).2
  · intro i _ j hj _
    obtain ⟨p, hp, hpj⟩ := mem_pick.1 hj
    have hdead := (List.mem_filter.1 ((List.mem_insertionSort _).1 hp)).2
    rw [hat hpj] at hdead
    simp only [List.contains_eq_mem, decide_eq_true_eq] at hdead
    exact ((hdemoted j).1 hdead).2

/-! ## The selection -/

section
variable {F : Type} (env : ReaderEnv F) (sim : String → String → F) (tau : F) (rrfK : Nat) (scorer : Option (Scorer F))
  (query : String) (hits : List (ReadHit F))

/-- What a scorer is given: the contents, in the order of the reader. -/
def orderedContents : List String := pick (hits.map hitContent) (readerppOrder env sim tau rrfK hits).1

/-- There is no score for every row: no scorer, one that raises, no list, a wrong length, or an entry that is no finite
float. -/
def NoScores : Prop :=
  ∀ f, scorer = some f → ∀ xs, f query (orderedContents env sim tau rrfK hits) = .entries xs → xs.length = hits.length →
    ∃ x ∈ xs, ∀ q, x = .ok q → env.isFinite q = false

/-- **The breach that is not caught**: a list of the right length, and the first entry `float` refuses is refused with none
of `TypeError`, `ValueError`, `OverflowError`. -/
def FloatRaises : Prop :=
  ∃ f, ∃ xs : List F, ∃ e rest, scorer = some f ∧
    f query (orderedContents env sim tau rrfK hits) = .entries (xs.map .ok ++ .error e :: rest) ∧
    xs.length + rest.length + 1 = hits.length ∧ (e.isTypeOrValueError || e.isOverflow) = false

/-- What a selection of `k` rows is. -/
structure Reorders (k : Int) (out : List (ReadHit F)) : Prop where
  order : ∃ order, CanonicalOrder env sim tau hits order ∧ out = pick hits (order.take k.toNat)
  size : out.length = min k.toNat hits.length
  /-- Only dated rows are demoted, and only for a newer row of their cluster. -/
  demoted : ∀ i ∈ (readerppOrder env sim tau rrfK hits).2,
    Superseded env sim tau hits i ∧ (epochAt env hits i).isSome = true
  plain : NoScores env sim tau rrfK scorer query hits → out = readerppSelect env sim tau rrfK hits k

end

theorem pick_of_lt {α : Type} {xs : List α} {positions : List Nat} (h : ∀ p ∈ positions, p < xs.length) (k : Nat) :
    (pick xs positions).take k = pick xs (positions.take k) ∧ (pick xs positions).length = positions.length := by
  induction positions generalizing k with
  | nil => simp [pick]
  | cons p positions ih =>
    obtain ⟨hp, hrest⟩ := List.forall_mem_cons.1 h
    have hcons : ∀ ps, pick xs (p :: ps) = xs[p] :: pick xs ps := fun ps =>
      List.filterMap_cons_some (List.getElem?_eq_getElem hp)
    constructor
    · cases k with
      | zero => simp [pick]
      | succ k => rw [hcons, List.take_succ_cons, List.take_succ_cons, hcons, (ih hrest k).1]
    · rw [hcons, List.length_cons, List.length_cons, (ih hrest 0).2]

/-- Cutting the rows is cutting the order. -/
theorem slice_pick {order : List Nat} {k : Int} (hk : 0 ≤ k) (hperm : order.Perm (List.range hits.length)) :
    slice (pick hits order) k = pick hits (order.take k.toNat) ∧ slice order k = order.take k.toNat ∧
      (pick hits (order.take k.toNat)).length = min k.toNat hits.length := by
  have hlt : ∀ p ∈ order, p < hits.length := fun p hp => List.mem_range.1 (hperm.subset hp)
  have hnot : ¬ k < 0 := by omega
  have hlen : order.length = hits.length := by rw [hperm.length_eq, List.length_range]
  refine ⟨?_, by rw [slice, if_neg hnot], ?_⟩
  · rw [slice, if_neg hnot]
    exact (pick_of_lt hlt _).1
  · rw [(pick_of_lt (fun p hp => hlt p (List.mem_of_mem_take hp)) 0).2, List.length_take, hlen]

/-- A loop of `float` calls stops at the first that raises. -/
theorem mapM_id_error {xs : List (Except ClientErr F)} {e : ClientErr} (h : xs.mapM id = .error e) :
    ∃ (pre : List F) (rest : _), xs = pre.map .ok ++ .error e :: rest := by
  induction xs with
  | nil => cases h
  | cons x xs ih =>
    rw [List.mapM_cons] at h
    cases x with
    | error e' =>
      cases h
      exact ⟨[], xs, rfl⟩
    | ok q =>
      cases hrest : xs.mapM id with
      | error e' =>
        rw [hrest] at h
        cases h
        obtain ⟨pre, rest, rfl⟩ := ih hrest
        exact ⟨q :: pre, rest, rfl⟩
      | ok qs =>
        rw [hrest] at h
        cases h

theorem mapM_id_of_error {pre : List F} {e : ClientErr} {rest : List (Except ClientErr F)} :
    (pre.map Except.ok ++ Except.error e :: rest).mapM id = .error e := by
  induction pre with
  | nil => rfl
  | cons q pre ih =>
    rw [List.map_cons, List.cons_append, List.mapM_cons, ih]
    rfl

theorem mapM_id_ok {xs : List (Except ClientErr F)} {qs : List F} (h : xs.mapM id = .ok qs) : xs = qs.map .ok := by
  have hall := mapM_ok h
  clear h
  induction hall with
  | nil => rfl
  | cons hx _ ih =>
    cases hx
    rw [List.map_cons, ih]

variable (env) (hits) in
/-- **What comes of the scores**: the scores, a breach that is passed over, or one that is raised. -/
theorem scoresOf_cases (xs : List (Except ClientErr F)) :
    (∃ scores, scoresOf env.toFloats hits.length xs = .ok (some scores) ∧ xs.length = hits.length ∧ xs = scores.map .ok ∧
        ∀ q ∈ scores, env.isFinite q = true) ∨
      (scoresOf env.toFloats hits.length xs = .ok none ∧
        ∀ (pre : List F) e rest, xs = pre.map .ok ++ .error e :: rest → xs.length = hits.length →
          (e.isTypeOrValueError || e.isOverflow) = true) ∨
      ∃ (pre : List F) (e : ClientErr) (rest : _), scoresOf env.toFloats hits.length xs = .error e ∧ xs = pre.map .ok ++ .error e :: rest ∧
        xs.length = hits.length ∧ (e.isTypeOrValueError || e.isOverflow) = false := by
  unfold scoresOf
  by_cases hlen : xs.length = hits.length
  · rw [if_neg (not_not.2 hlen)]
    cases hmap : xs.mapM id with
    | error e =>
      obtain ⟨pre, rest, rfl⟩ := mapM_id_error hmap
      by_cases hcaught : (e.isTypeOrValueError || e.isOverflow) = true
      · refine .inr (.inl ⟨by simp only [if_pos hcaught], ?_⟩)
        intro pre' e' rest' heq _
        rw [heq, mapM_id_of_error] at hmap
        cases hmap
        exact hcaught
      · exact .inr (.inr ⟨pre, e, rest, by simp only [if_neg hcaught], rfl, hlen, by simpa using hcaught⟩)
    | ok scores =>
      have hxs := mapM_id_ok hmap
      by_cases hfinite : scores.all env.isFinite = true
      · refine .inl ⟨scores, by simp only [if_pos hfinite], hlen, hxs, ?_⟩
        exact List.all_eq_true.1 hfinite
      · refine .inr (.inl ⟨by simp only [if_neg hfinite], ?_⟩)
        intro pre e rest heq _
        rw [heq, mapM_id_of_error] at hmap
        cases hmap
  · rw [if_pos hlen]
    exact .inr (.inl ⟨rfl, fun _ _ _ _ hlen' => absurd hlen' hlen⟩)

variable {scorer : Option (Scorer F)} {query : String} {k : Int}

theorem demoted_sound (hch : Chronological env) : ∀ i ∈ (readerppOrder env sim tau rrfK hits).2,
    Superseded env sim tau hits i ∧ (epochAt env hits i).isSome = true := fun _ hi =>
  ⟨((mem_demoted hch).1 hi).2, ((mem_demoted hch).1 hi).2.dated⟩

/-- The order of the reader alone is a selection. -/
theorem plain_reorders (hch : Chronological env) (hk : 0 ≤ k) :
    Reorders env sim tau rrfK scorer query hits k (pick hits (slice (readerppOrder env sim tau rrfK hits).1 k)) := by
  have hcanonical : CanonicalOrder env sim tau hits (readerppOrder env sim tau rrfK hits).1 := readerppOrder_canonical hch
  obtain ⟨-, hslice, hsize⟩ := slice_pick hk hcanonical.perm
  rw [hslice]
  exact ⟨⟨_, hcanonical, rfl⟩, hsize, demoted_sound hch, fun _ => by rw [readerppSelect, hslice]⟩

/-- **The reader re-orders and keeps canonical rows in front**, but where a score raises what is not caught. -/
theorem select_reorders_iff {F : Type} (env : ReaderEnv F) (hch : Chronological env) (sim : String → String → F) (tau : F)
    (rrfK : Nat) (scorer : Option (Scorer F)) (query : String) (hits : List (ReadHit F)) (k : Int) (hk : 0 ≤ k) :
    (∃ out, select env sim tau rrfK scorer query hits k = .ok out ∧
        Reorders env sim tau rrfK scorer query hits k out) ↔
      ¬ FloatRaises env sim tau rrfK scorer query hits := by
  have hperm := readerppOrder_perm env sim tau rrfK hits
  have hlen : (readerppOrder env sim tau rrfK hits).1.length = hits.length := by
    rw [hperm.length_eq, List.length_range]
  have hplain : Reorders env sim tau rrfK scorer query hits k (pick hits (slice (readerppOrder env sim tau rrfK hits).1 k)) :=
    plain_reorders hch hk
  cases hscorer : scorer with
  | none =>
    subst hscorer
    refine ⟨fun _ => ?_, fun _ => ⟨_, rfl, hplain⟩⟩
    rintro ⟨f, _, _, _, hf, -⟩
    cases hf
  | some f =>
    subst hscorer
    have hquery : pick (hits.map hitContent) (readerppOrder env sim tau rrfK hits).1 = orderedContents env sim tau rrfK hits :=
      rfl
    have hquiet : ∀ {reply}, f query (orderedContents env sim tau rrfK hits) = reply →
        (∀ (xs : List F) e rest, reply = .entries (xs.map .ok ++ .error e :: rest) → xs.length + rest.length + 1 = hits.length →
          (e.isTypeOrValueError || e.isOverflow) = true) → ¬ FloatRaises env sim tau rrfK (some f) query hits := by
      rintro reply hreply hcaught ⟨_, xs, e, rest, hf, hentries, hcount, hnot⟩
      cases hf
      rw [hreply] at hentries
      rw [hcaught xs e rest hentries hcount] at hnot
      cases hnot
    cases hreply : f query (orderedContents env sim tau rrfK hits) with
    | raised =>
      refine ⟨fun _ => hquiet hreply (fun _ _ _ h => by cases h), fun _ => ⟨_, ?_, hplain⟩⟩
      simp only [select, hquery, hreply]
    | other =>
      refine ⟨fun _ => hquiet hreply (fun _ _ _ h => by cases h), fun _ => ⟨_, ?_, hplain⟩⟩
      simp only [select, hquery, hreply]
    | entries xs =>
      rcases scoresOf_cases env hits xs with
        ⟨scores, hscores, hcount, rfl, hfinite⟩ | ⟨hscores, hcaught⟩ | ⟨pre, e, rest, hscores, rfl, hcount, hnot⟩
      · have hcanonical : CanonicalOrder env sim tau hits (pick (readerppOrder env sim tau rrfK hits).1
            (stratified env.toFloats (readerppOrder env sim tau rrfK hits).1 (readerppOrder env sim tau rrfK hits).2
              scores)) := stratified_canonical hch scores
        obtain ⟨hslice, -, hsize⟩ := slice_pick hk hcanonical.perm
        refine ⟨fun _ => hquiet hreply ?_, fun _ => ⟨_, ?_, ⟨_, hcanonical, rfl⟩, hsize, demoted_sound hch, ?_⟩⟩
        · intro pre e rest heq _
          have hmem : (.error e : Except ClientErr F) ∈ scores.map Except.ok := by
            rw [ScorerReply.entries.inj heq]
            simp
          obtain ⟨q, -, hq⟩ := List.mem_map.1 hmem
          cases hq
        · simp only [select, hquery, hreply, hlen, hscores, hslice]
        · intro hnone
          obtain ⟨x, hx, hbad⟩ := hnone f rfl _ hreply hcount
          obtain ⟨q, hq, rfl⟩ := List.mem_map.1 hx
          exact absurd (hfinite q hq) (by simp [hbad q rfl])
      · refine ⟨fun _ => hquiet hreply ?_, fun _ => ⟨_, ?_, hplain⟩⟩
        · intro pre e rest heq hcount
          have hxs := ScorerReply.entries.inj heq
          refine hcaught pre e rest hxs ?_
          rw [hxs]
          simp
          omega
        · simp only [select, hquery, hreply, hlen, hscores]
      · constructor
        · rintro ⟨out, hout, -⟩
          simp only [select, hquery, hreply, hlen, hscores] at hout
          cases hout
        · intro h
          refine absurd ⟨f, pre, e, rest, rfl, hreply, ?_, hnot⟩ h
          simp only [List.length_append, List.length_map, List.length_cons] at hcount
          omega

/-! ## Two runs -/

theorem chronological_sample : Chronological sampleEnv.toReaderEnv where
  asymm x y _ _ := by
    simp only [sampleEnv, sampleFloats, decide_eq_false_iff_not, Rat.not_lt]
    exact (Rat.le_total (a := x) (b := y)).symm
  trans x y z _ _ _ hxy hyz := by
    simp only [sampleEnv, sampleFloats, decide_eq_false_iff_not, Rat.not_lt] at *
    exact Rat.le_trans hyz hxy
  iso _ _ h := by cases h

/-- A row about coffee, dated. -/
def datedHit (id : String) (date : Int) : ReadHit Rat :=
  { drawerId := .str id, content := .str "coffee black", wing := "facts", room := "inbox", agent := .null
    memoryType := .null, tenantId := "t_default", status := "active", tags := []
    metadata := [("source_last_timestamp", .int date)], createdAt := .null, createdAtIso := .null, score := none }

/-- A scorer that likes the first row it is shown. -/
def loyalScorer : Scorer Rat := fun _ contents => .entries (contents.mapIdx fun i _ => .ok (-(i : Rat)))

theorem mapIdx_ok_not_error {contents : List String} {f : Nat → Rat} {pre : List Rat} {e : ClientErr}
    {rest : List (Except ClientErr Rat)} :
    (contents.mapIdx fun i _ => (.ok (f i) : Except ClientErr Rat)) ≠ pre.map .ok ++ .error e :: rest := by
  intro h
  have hmem : (.error e : Except ClientErr Rat) ∈ contents.mapIdx fun i _ => .ok (f i) := by
    rw [h]
    simp
  obtain ⟨i, hi, hok⟩ := List.mem_mapIdx.1 hmem
  cases hok

/-- Of two similar rows the newer comes first. -/
theorem select_reorders_coffee :
    ∃ out, select sampleEnv.toReaderEnv (fun _ _ => 1) 1 readerppRrfK (some loyalScorer) "coffee"
        [datedHit "old" 1, datedHit "new" 2] 2 = .ok out ∧
      Reorders sampleEnv.toReaderEnv (fun _ _ => 1) 1 readerppRrfK (some loyalScorer) "coffee"
        [datedHit "old" 1, datedHit "new" 2] 2 out := by
  refine (select_reorders_iff sampleEnv.toReaderEnv chronological_sample _ _ _ _ _ _ 2 (by decide)).2 ?_
  rintro ⟨f, xs, e, rest, hf, hentries, -⟩
  cases hf
  exact mapIdx_ok_not_error (ScorerReply.entries.inj hentries)

/-- Scores that are no scalars: `float` refuses each with a `RuntimeError`. -/
def tensorScorer : Scorer Rat := fun _ contents =>
  .entries (contents.map fun _ => .error (.py (.runtimeError "a Tensor with 2 elements cannot be converted to Scalar")))

/-- **A score that is no scalar fails the selection.** -/
theorem select_raises_on_tensor :
    ¬ ∃ out, select sampleEnv.toReaderEnv (fun _ _ => 1) 1 readerppRrfK (some tensorScorer) "coffee" [datedHit "a" 1] 1 =
        .ok out ∧
      Reorders sampleEnv.toReaderEnv (fun _ _ => 1) 1 readerppRrfK (some tensorScorer) "coffee" [datedHit "a" 1] 1 out := by
  rintro ⟨out, hout, -⟩
  have hraises : select sampleEnv.toReaderEnv (fun _ _ => 1) 1 readerppRrfK (some tensorScorer) "coffee" [datedHit "a" 1] 1 =
      .error (.py (.runtimeError "a Tensor with 2 elements cannot be converted to Scalar")) := rfl
  rw [hraises] at hout
  cases hout

end Panella
