import Panella.Lib.OrderedDict
import Panella.Lib.StableSort
import Panella.Resolver.Calibrate

/-!
# A fitted slice is well formed

The groups tile the ten bins from the first round to the last, and each holds the rows of its bins (`Tiles`); a round takes
one group away, so ten rounds are enough (`mergeLoop_settled`). The values rise along the groups (`calibrateGroups_ok`), every
row stands in one group only (`lookup_rowCalibrated`), and the lookup of `_calibrate` finds that group again (`calibrate_eq`).
-/

namespace Panella.Resolver

open Decimal SortedSet

variable {rows : List Observation} {groups pre post : List Group} {lo mid hi : Nat} {fitted : List (Group × ℚ)} {o : Observation}

/-! ## The merge loop -/

/-- The rows of the bins from `lo` up to `hi`, bin by bin. -/
def span (rows : List Observation) (lo hi : Nat) : List Observation := (List.range' lo (hi - lo)).flatMap (bucket rows)

/-- The groups stand side by side from `lo` to `hi`, each with the rows of its bins. -/
def Tiles (rows : List Observation) : Nat → List Group → Nat → Prop
  | lo, [], hi => lo = hi
  | lo, group :: groups, hi =>
    group.start = lo ∧ lo < group.stop ∧ group.rows = span rows lo group.stop ∧ Tiles rows group.stop groups hi

theorem span_append (h : lo ≤ mid) (h' : mid ≤ hi) : span rows lo mid ++ span rows mid hi = span rows lo hi := by
  unfold span
  rw [← List.flatMap_append]
  congr 1
  have hmid : mid = lo + 1 * (mid - lo) := by omega
  have hlen : hi - lo = (mid - lo) + (hi - mid) := by omega
  rw [hlen, ← List.range'_append, ← hmid]

theorem mem_span : o ∈ span rows lo hi ↔ o ∈ rows ∧ lo ≤ binIndex o.rawConfidence ∧ binIndex o.rawConfidence < hi := by
  simp only [span, bucket, List.mem_flatMap, List.mem_range'_1, List.mem_filter, decide_eq_true_eq]
  constructor
  · rintro ⟨i, hi', hmem, rfl⟩
    exact ⟨hmem, by omega, by omega⟩
  · rintro ⟨hmem, hlo, hhi⟩
    exact ⟨_, ⟨hlo, by omega⟩, hmem, rfl⟩

theorem Tiles.le (h : Tiles rows lo groups hi) : lo ≤ hi := by
  induction groups generalizing lo with
  | nil => exact Nat.le_of_eq h
  | cons group groups ih =>
    have hrest := ih h.2.2.2
    have hlt := h.2.1
    omega

theorem tiles_append : Tiles rows lo (pre ++ post) hi ↔ ∃ mid, Tiles rows lo pre mid ∧ Tiles rows mid post hi := by
  induction pre generalizing lo with
  | nil => simp [Tiles]
  | cons group pre ih =>
    simp only [List.cons_append, Tiles, ih]
    constructor
    · rintro ⟨hstart, hlt, hrows, mid, hpre, hpost⟩
      exact ⟨mid, ⟨hstart, hlt, hrows, hpre⟩, hpost⟩
    · rintro ⟨mid, ⟨hstart, hlt, hrows, hpre⟩, hpost⟩
      exact ⟨hstart, hlt, hrows, mid, hpre, hpost⟩

/-- All the rows, group by group. -/
theorem Tiles.flatMap_rows (h : Tiles rows lo groups hi) : groups.flatMap (·.rows) = span rows lo hi := by
  induction groups generalizing lo with
  | nil =>
    rw [show lo = hi from h]
    simp [span]
  | cons group groups ih =>
    obtain ⟨-, hlt, hrows, hrest⟩ := h
    rw [List.flatMap_cons, ih hrest, hrows, span_append hlt.le hrest.le]

theorem tiles_binGroups (rows : List Observation) : Tiles rows 0 (binGroups rows) 10 := by
  have hone : ∀ i, bucket rows i = span rows i (i + 1) := by
    intro i
    simp [span]
  simp [binGroups, Tiles, List.range_succ, ← hone]

theorem tiles_mergeAt (h : Tiles rows lo groups hi) (left : Nat) : Tiles rows lo (mergeAt groups left) hi := by
  rw [← List.take_append_drop left groups, tiles_append] at h
  obtain ⟨mid, hpre, hpost⟩ := h
  unfold mergeAt
  apply tiles_append.2
  refine ⟨mid, hpre, ?_⟩
  split
  · next a b post hdrop =>
    rw [hdrop] at hpost
    obtain ⟨ha, halt, harows, hb, hblt, hbrows, hrest⟩ := hpost
    refine ⟨ha, halt.trans hblt, ?_, hrest⟩
    rw [harows, hbrows, span_append halt.le hblt.le]
  · exact hpost

theorem length_mergeAt {left : Nat} (h : left + 1 < groups.length) : (mergeAt groups left).length = groups.length - 1 := by
  obtain ⟨a, b, post, hdrop⟩ : ∃ a b post, groups.drop left = a :: b :: post := by
    have hlen : (groups.drop left).length = groups.length - left := List.length_drop
    match hd : groups.drop left with
    | [] =>
      rw [hd, List.length_nil] at hlen
      omega
    | [_] =>
      rw [hd, List.length_singleton] at hlen
      omega
    | a :: b :: post => exact ⟨a, b, post, rfl⟩
  have hlen := congrArg List.length hdrop
  unfold mergeAt
  rw [hdrop]
  simp only [List.length_append, List.length_take, List.length_cons, List.length_drop] at hlen ⊢
  omega

theorem mergeStep_none (h : mergeStep groups = none) : ∀ group ∈ groups, 5 ≤ group.rows.length := by
  unfold mergeStep at h
  rw [Option.map_eq_none_iff, List.findIdx?_eq_none_iff] at h
  intro group hmem
  simpa using h group hmem

/-- **A round** keeps the tiling and takes one group away. -/
theorem mergeStep_some {groups' : List Group} (h : mergeStep groups = some groups') (htiles : Tiles rows lo groups hi) :
    Tiles rows lo groups' hi ∧ (1 < groups.length → groups'.length = groups.length - 1) := by
  unfold mergeStep at h
  obtain ⟨index, hindex, rfl⟩ := Option.map_eq_some_iff.1 h
  obtain ⟨hlt, -, -⟩ := List.findIdx?_eq_some_iff_getElem.1 hindex
  refine ⟨tiles_mergeAt htiles _, fun hmany => length_mergeAt ?_⟩
  split <;> omega

theorem tiles_mergeLoop (rounds : Nat) (h : Tiles rows lo groups hi) : Tiles rows lo (mergeLoop rounds groups) hi := by
  induction rounds generalizing groups with
  | zero => exact h
  | succ rounds ih =>
    unfold mergeLoop
    split
    · exact h
    split
    · exact h
    · next groups' hstep => exact ih (mergeStep_some hstep h).1

/-- **The loop ends** with one group, or with none too small, when it may go round once for each group but one. -/
theorem mergeLoop_settled (rounds : Nat) (hrounds : groups.length ≤ rounds + 1) (h : Tiles rows lo groups hi) :
    (mergeLoop rounds groups).length ≤ 1 ∨ ∀ group ∈ mergeLoop rounds groups, 5 ≤ group.rows.length := by
  induction rounds generalizing groups with
  | zero => exact .inl hrounds
  | succ rounds ih =>
    unfold mergeLoop
    split
    · next hone => exact .inl hone
    next hmany =>
    split
    · next hnone => exact .inr (mergeStep_none hnone)
    · next groups' hstep =>
      obtain ⟨htiles, hlen⟩ := mergeStep_some hstep h
      exact ih (by rw [hlen (by omega)]; omega) htiles

/-- More rounds change nothing once the loop has come to its end. -/
theorem mergeLoop_rest (rounds : Nat) (h : groups.length ≤ 1 ∨ ∀ group ∈ groups, 5 ≤ group.rows.length) :
    mergeLoop rounds groups = groups := by
  cases rounds with
  | zero => rfl
  | succ rounds =>
    unfold mergeLoop
    split
    · rfl
    next hmany =>
    have hlarge := h.resolve_left hmany
    have hnone : mergeStep groups = none := by
      rw [mergeStep, Option.map_eq_none_iff, List.findIdx?_eq_none_iff]
      simpa using hlarge
    rw [hnone]

theorem mergeLoop_add (rounds more : Nat) : mergeLoop (rounds + more) groups = mergeLoop more (mergeLoop rounds groups) := by
  induction rounds generalizing groups with
  | zero => rw [Nat.zero_add, mergeLoop]
  | succ rounds ih =>
    rw [Nat.succ_add, mergeLoop.eq_2, mergeLoop.eq_2]
    split
    · next hone => exact (mergeLoop_rest more (.inl hone)).symm
    next hmany =>
    cases hstep : mergeStep groups with
    | none => exact (mergeLoop_rest more (.inr (mergeStep_none hstep))).symm
    | some groups' => exact ih

/-- **The loop of the source**, which has no bound on its rounds, comes to rest on the same groups. -/
theorem mergeLoop_mergedGroups (rows : List Observation) (rounds : Nat) :
    mergeLoop (10 + rounds) (binGroups rows) = mergedGroups rows := by
  have hsettled : (mergedGroups rows).length ≤ 1 ∨ ∀ group ∈ mergedGroups rows, 5 ≤ group.rows.length :=
    mergeLoop_settled 10 (by simp [binGroups]) (tiles_binGroups rows)
  rw [mergeLoop_add]
  exact mergeLoop_rest rounds hsettled

theorem tiles_mergedGroups (rows : List Observation) : Tiles rows 0 (mergedGroups rows) 10 :=
  tiles_mergeLoop 10 (tiles_binGroups rows)

theorem binIndex_lt (confidence : ℚ) : binIndex confidence < 10 := by
  have h : binIndex confidence ≤ 9 := Nat.min_le_left 9 _
  omega

/-- The groups hold the rows, and no group is too small but a lone one. -/
theorem mergedGroups_rows (hne : rows ≠ []) : (∀ group ∈ mergedGroups rows, 0 < group.rows.length) ∧
    ∀ group ∈ mergedGroups rows, 5 ≤ group.rows.length ∨ (mergedGroups rows).length = 1 := by
  have htiles := tiles_mergedGroups rows
  have hsettled : (mergedGroups rows).length ≤ 1 ∨ ∀ group ∈ mergedGroups rows, 5 ≤ group.rows.length :=
    mergeLoop_settled 10 (by simp [binGroups]) (tiles_binGroups rows)
  rcases hsettled with hone | hlarge
  · match hgroups : mergedGroups rows with
    | [] => simp
    | [group] =>
      rw [hgroups] at htiles
      have hall := htiles.flatMap_rows
      rw [List.flatMap_singleton] at hall
      obtain ⟨o, ho⟩ := List.exists_mem_of_ne_nil rows hne
      have hmem : o ∈ group.rows := by
        rw [hall, mem_span]
        exact ⟨ho, Nat.zero_le _, binIndex_lt _⟩
      simpa using List.length_pos_of_mem hmem
    | _ :: _ :: _ =>
      rw [hgroups] at hone
      simp at hone
  · refine ⟨fun group hmem => ?_, fun group hmem => .inl (hlarge group hmem)⟩
    have hfive := hlarge group hmem
    omega

/-! ## The values -/

/-- **Every group is calibrated**, to values that rise from `running` on and stay within one. -/
theorem calibrateGroups_ok {running : ℚ} (hquantized : quantize 6 running = running) (hone : running ≤ 1)
    (h : ∀ group ∈ groups, 0 < group.rows.length) :
    ∃ fitted, calibrateGroups running groups = .ok fitted ∧ fitted.map (·.1) = groups ∧
      (∀ g ∈ fitted, running ≤ g.2 ∧ g.2 ≤ 1 ∧ quantize 6 g.2 = g.2) ∧ (fitted.map (·.2)).Pairwise (· ≤ ·) := by
  induction groups generalizing running with
  | nil => exact ⟨[], rfl, rfl, by simp, .nil⟩
  | cons group groups ih =>
    have hpos : group.rows.length ≠ 0 := (h group List.mem_cons_self).ne'
    set calibrated := quantize 6 (max running (quotient (group.rows.countP (·.correct)) group.rows.length)) with hcal
    have hle : running ≤ calibrated := by
      calc running = quantize 6 running := hquantized.symm
        _ ≤ calibrated := quantize_mono 6 (le_max_left _ _)
    have hunit : calibrated ≤ 1 := by
      calc calibrated ≤ quantize 6 1 := quantize_mono 6 (max_le hone (quotient_le_one List.countP_le_length))
        _ = 1 := quantize_one 6
    have hexact : quantize 6 calibrated = calibrated := quantize_quantize 6 _
    obtain ⟨fitted, hfitted, hfst, hrange, hsorted⟩ := ih hexact hunit fun g hg => h g (List.mem_cons_of_mem group hg)
    refine ⟨(group, calibrated) :: fitted, ?_, by rw [List.map_cons, hfst], ?_, ?_⟩
    · rw [calibrateGroups, if_neg hpos]
      dsimp only
      rw [← hcal, hfitted]
      rfl
    · intro g hg
      rcases List.mem_cons.1 hg with rfl | hg
      · exact ⟨hle, hunit, quantize_quantize 6 _⟩
      · obtain ⟨hrun, hrest⟩ := hrange g hg
        exact ⟨hle.trans hrun, hrest⟩
    · refine List.pairwise_cons.2 ⟨?_, hsorted⟩
      intro v hv
      obtain ⟨g, hg, rfl⟩ := List.mem_map.1 hv
      exact (hrange g hg).1

/-- The boundaries are tenths. -/
theorem tenth {k : Nat} (hk : k ≤ 10) : six (quotient k 10) = (k : ℚ) / 10 := by
  have hsix : six ((k : ℚ) / 10) = (k : ℚ) / 10 := by
    apply quantize_of_int (n := k * 10 ^ 5)
    push_cast
    ring
  rcases Nat.eq_zero_or_pos k with rfl | hpos
  · simp [quotient, six]
  · have hdigits : 2 ≤ (10 ^ 27 * 10 + k - 1) / k := (Nat.le_div_iff_mul_le hpos).2 (by omega)
    have hplaces : 0 < quotientPlaces k 10 := Nat.clog_pos (by omega) hdigits
    have hexact : quantize (quotientPlaces k 10) ((k : ℚ) / 10) = (k : ℚ) / 10 := by
      apply quantize_of_int (n := k * 10 ^ (quotientPlaces k 10 - 1))
      obtain ⟨p, hp⟩ := Nat.exists_eq_succ_of_ne_zero hplaces.ne'
      rw [hp]
      push_cast
      rw [pow_succ]
      ring
    rw [quotient, if_neg hpos.ne']
    push_cast
    rw [hexact, hsix]

/-! ## The rows and the values they were fitted with -/

theorem nodup_uids_span (h : (rows.map (·.probeUid)).Nodup) (lo hi : Nat) : ((span rows lo hi).map (·.probeUid)).Nodup := by
  rw [span, List.map_flatMap, List.nodup_flatMap]
  constructor
  · intro i _
    exact h.sublist (List.filter_sublist.map _)
  · apply (List.nodup_range' (s := lo) (n := hi - lo)).imp
    intro i j hij uid hi hj
    -- a uid in two bins is one row, and it is in one bin
    obtain ⟨x, hx, rfl⟩ := List.mem_map.1 hi
    obtain ⟨y, hy, hxy⟩ := List.mem_map.1 hj
    rw [bucket, List.mem_filter, decide_eq_true_eq] at hx hy
    have hsame : y = x := List.inj_on_of_nodup_map h hy.1 hx.1 hxy
    exact hij (hx.2.symm.trans (hsame ▸ hy.2))

theorem keys_rowCalibrated (fitted : List (Group × ℚ)) : (rowCalibrated fitted).map Prod.fst =
    (((fitted.map (·.1)).flatMap (·.rows)).map (·.probeUid)).reverse := by
  rw [rowCalibrated, List.map_reverse, List.map_flatMap, List.flatMap_map, List.map_flatMap]
  congr 2
  funext g
  rw [List.map_map]
  rfl

/-- **A row has the value of its group.** -/
theorem lookup_rowCalibrated (h : (rows.map (·.probeUid)).Nodup) (htiles : Tiles rows lo (fitted.map (·.1)) hi)
    {g : Group × ℚ} (hg : g ∈ fitted) (ho : o ∈ g.1.rows) : (rowCalibrated fitted).lookup o.probeUid = some g.2 := by
  have hnodup : ((rowCalibrated fitted).map Prod.fst).Nodup := by
    rw [keys_rowCalibrated, htiles.flatMap_rows, List.nodup_reverse]
    exact nodup_uids_span h lo hi
  apply (OrderedDict.mem_iff_lookup hnodup).1
  rw [rowCalibrated, List.mem_reverse, List.mem_flatMap]
  exact ⟨g, hg, List.mem_map_of_mem ho⟩

/-- Every row stands in a group. -/
theorem exists_group (htiles : Tiles rows 0 (fitted.map (·.1)) 10) (ho : o ∈ rows) : ∃ g ∈ fitted, o ∈ g.1.rows := by
  have hmem : o ∈ (fitted.map (·.1)).flatMap (·.rows) := by
    rw [htiles.flatMap_rows, mem_span]
    exact ⟨ho, Nat.zero_le _, binIndex_lt _⟩
  obtain ⟨group, hgroup, hin⟩ := List.mem_flatMap.1 hmem
  obtain ⟨g, hg, rfl⟩ := List.mem_map.1 hgroup
  exact ⟨g, hg, hin⟩

/-! ## The threshold -/

theorem le_of_max? {xs : List ℚ} {m : ℚ} (h : xs.max? = some m) : m ∈ xs ∧ ∀ x ∈ xs, x ≤ m :=
  ⟨List.max?_mem h, (List.max?_le_iff h).1 (le_refl m)⟩

/-- **The threshold is the lowest rung above every wrong row.** -/
theorem pickTau_some {wrong rungs : List ℚ} {tau : ℚ} (hsorted : rungs.Pairwise (· ≤ ·)) (h : pickTau wrong rungs = some tau) :
    tau ∈ rungs ∧ (∀ w ∈ wrong, w < tau) ∧ ∀ v ∈ rungs, (∀ w ∈ wrong, w < v) → tau ≤ v := by
  unfold pickTau at h
  split at h
  · next hnone =>
    rw [List.max?_eq_none_iff] at hnone
    cases rungs with
    | nil => cases h
    | cons v rungs =>
      cases h
      refine ⟨List.mem_cons_self, by simp [hnone], ?_⟩
      intro v hv _
      rcases List.mem_cons.1 hv with rfl | hv
      · exact le_refl _
      · exact (List.pairwise_cons.1 hsorted).1 v hv
  · next worst hworst =>
    obtain ⟨hmem, hmax⟩ := le_of_max? hworst
    obtain ⟨hlt, before, after, rfl, hbefore⟩ := List.find?_eq_some_iff_append.1 h
    have habove : worst < tau := by simpa using hlt
    refine ⟨by simp, fun w hw => (hmax w hw).trans_lt habove, ?_⟩
    intro v hv habove'
    rcases List.mem_append.1 hv with hv | hv
    · have hnot := hbefore v hv
      exact absurd (habove' worst hmem) (by simpa using hnot)
    · rcases List.mem_cons.1 hv with rfl | hv
      · exact le_refl _
      · exact (List.pairwise_cons.1 (List.pairwise_append.1 hsorted).2.1).1 v hv

theorem pickTau_none {wrong rungs : List ℚ} (hne : rungs ≠ []) (h : pickTau wrong rungs = none) :
    ∃ w ∈ wrong, ∀ v ∈ rungs, v ≤ w := by
  unfold pickTau at h
  split at h
  · cases rungs with
    | nil => exact absurd rfl hne
    | cons v rungs => cases h
  · next worst hworst =>
    refine ⟨worst, (le_of_max? hworst).1, fun v hv => ?_⟩
    simpa using List.find?_eq_none.1 h v hv

/-! ## The slice passes its own checks -/

theorem sum_buckets (rows : List Observation) : ((List.range 10).map fun i => ((bucket rows i).length : Int)).sum = rows.length := by
  have hone : ∀ b < 10, ((List.range 10).map fun i => if b = i then (1 : Int) else 0).sum = 1 := by decide
  induction rows with
  | nil => decide
  | cons row rows ih =>
    have hcons : ∀ i, ((bucket (row :: rows) i).length : Int) =
        (bucket rows i).length + if binIndex row.rawConfidence = i then 1 else 0 := by
      intro i
      unfold bucket
      rw [List.filter_cons]
      split <;> simp_all
    simp only [hcons, List.sum_map_add, ih, hone _ (binIndex_lt _)]
    simp

theorem mappingRow_eq {g : Group × ℚ} (h : g.1.start ≤ 10) (h' : g.1.stop ≤ 10) :
    mappingRow g = ⟨(g.1.start : ℚ) / 10, (g.1.stop : ℚ) / 10, g.2⟩ := by
  rw [mappingRow, tenth h, tenth h']

theorem Tiles.bounds (h : Tiles rows lo groups hi) {group : Group} (hg : group ∈ groups) :
    lo ≤ group.start ∧ group.start < group.stop ∧ group.stop ≤ hi ∧ group.rows = span rows group.start group.stop := by
  induction groups generalizing lo with
  | nil => cases hg
  | cons group' groups ih =>
    obtain ⟨hstart, hlt, hrows, hrest⟩ := h
    rcases List.mem_cons.1 hg with rfl | hg
    · exact ⟨hstart.ge, hstart ▸ hlt, hrest.le, hstart ▸ hrows⟩
    · obtain ⟨hlo, hrest'⟩ := ih hrest hg
      exact ⟨by omega, hrest'⟩

/-- The mapping runs on from where it starts, and ends where the tiling ends. -/
theorem monotoneMapping_eq {previous : ℚ} (htiles : Tiles rows lo (fitted.map (·.1)) hi) (hhi : hi ≤ 10)
    (hprevious : ∀ g ∈ fitted, previous ≤ g.2) (hsorted : (fitted.map (·.2)).Pairwise (· ≤ ·)) :
    monotoneMapping ((lo : ℚ) / 10) previous (fitted.map mappingRow) = some ((hi : ℚ) / 10) := by
  induction fitted generalizing lo previous with
  | nil =>
    rw [show lo = hi from htiles]
    rfl
  | cons g fitted ih =>
    obtain ⟨hstart, hlt, -, hrest⟩ := htiles
    have hstop : g.1.stop ≤ hi := hrest.le
    have hless' : g.1.start < g.1.stop := hstart ▸ hlt
    rw [List.map_cons, mappingRow_eq (by omega) (by omega), monotoneMapping]
    have hlow : (0 : ℚ) ≤ (g.1.start : ℚ) / 10 := by positivity
    have hless : (g.1.start : ℚ) / 10 < (g.1.stop : ℚ) / 10 := by
      apply (div_lt_div_iff_of_pos_right (by norm_num)).2
      exact_mod_cast hless'
    have hhigh : (g.1.stop : ℚ) / 10 ≤ 1 := by
      apply div_le_one_of_le₀ _ (by norm_num)
      exact_mod_cast hstop.trans hhi
    rw [if_pos ⟨hlow, hless, hhigh, by rw [hstart], hprevious g List.mem_cons_self⟩]
    rw [List.map_cons, List.pairwise_cons] at hsorted
    exact ih hrest (fun g' hg' => hsorted.1 _ (List.mem_map_of_mem hg')) hsorted.2

theorem le_binIndex_iff {c : ℚ} {k : Nat} (hk : k ≤ 9) (hc : 0 ≤ c) : k ≤ binIndex c ↔ (k : ℚ) / 10 ≤ c := by
  have hnonneg : 0 ≤ ⌊c * 10⌋ := Int.floor_nonneg.2 (by positivity)
  have hfloor : k ≤ binIndex c ↔ (k : ℤ) ≤ ⌊c * 10⌋ := by
    unfold binIndex
    omega
  rw [hfloor, Int.le_floor, div_le_iff₀ (by norm_num), Int.cast_natCast]

theorem binIndex_lt_iff {c : ℚ} {k : Nat} (hk : k ≤ 9) (hc : 0 ≤ c) : binIndex c < k ↔ c < (k : ℚ) / 10 := by
  rw [← not_le, le_binIndex_iff hk hc, not_le]

/-- **The lookup of `_calibrate` finds the group of a row.** -/
theorem calibrate_eq {slice : CalibrationSlice} {g : Group × ℚ} (hmapping : slice.mapping = fitted.map mappingRow)
    (htiles : Tiles rows lo (fitted.map (·.1)) 10) (hg : g ∈ fitted) (ho : o ∈ g.1.rows)
    (hunit : 0 ≤ o.rawConfidence ∧ o.rawConfidence ≤ 1) : calibrate o.rawConfidence slice = some g.2 := by
  rw [calibrate, hmapping, Option.map_eq_some_iff]
  refine ⟨mappingRow g, ?_, rfl⟩
  clear hmapping
  induction fitted generalizing lo with
  | nil => cases hg
  | cons g' fitted ih =>
    have hbounds := htiles.bounds (List.mem_map_of_mem hg)
    obtain ⟨-, -, hstop, hrows⟩ := hbounds
    rw [hrows, mem_span] at ho
    obtain ⟨homem, hlow, hhigh⟩ := ho
    obtain ⟨hstart, hlt, hrows', hrest⟩ := htiles
    have hlt' : g'.1.start < g'.1.stop := hstart ▸ hlt
    have hle' : g'.1.stop ≤ 10 := hrest.le
    rw [List.map_cons, List.find?_cons]
    rcases List.mem_cons.1 hg with rfl | hg
    · -- the row is in the first group
      have hfrom := (le_binIndex_iff (by omega) hunit.1).1 hlow
      have hhit : (mappingRow g).low ≤ o.rawConfidence ∧ o.rawConfidence < (mappingRow g).high ∨
          o.rawConfidence = 1 ∧ (mappingRow g).high = 1 := by
        rw [mappingRow_eq (by omega) hstop]
        rcases Nat.lt_or_ge g.1.stop 10 with hbelow | hlast
        · exact .inl ⟨hfrom, (binIndex_lt_iff (by omega) hunit.1).1 hhigh⟩
        · have hten : g.1.stop = 10 := by omega
          rcases hunit.2.lt_or_eq with hless | hone
          · refine .inl ⟨hfrom, ?_⟩
            dsimp only
            rw [hten]
            norm_num
            exact hless
          · refine .inr ⟨hone, ?_⟩
            simp [hten]
      rw [decide_eq_true hhit]
    · -- it is in a later one, so beyond the end of the first
      have hbeyond : g'.1.stop ≤ binIndex o.rawConfidence := by
        have hafter := (hrest.bounds (List.mem_map_of_mem hg)).1
        exact hafter.trans hlow
      have hmiss : ¬ ((mappingRow g').low ≤ o.rawConfidence ∧ o.rawConfidence < (mappingRow g').high ∨
          o.rawConfidence = 1 ∧ (mappingRow g').high = 1) := by
        have hbin := binIndex_lt o.rawConfidence
        have hfrom := (le_binIndex_iff (by omega) hunit.1).1 hbeyond
        rw [mappingRow_eq (by omega) hle']
        rintro (⟨-, hless⟩ | ⟨-, hone⟩)
        · exact absurd hfrom (not_le.2 hless)
        · dsimp only at hone
          rw [div_eq_one_iff_eq (by norm_num)] at hone
          have hten : g'.1.stop = 10 := by exact_mod_cast hone
          omega
      rw [decide_eq_false hmiss]
      exact ih hrest hg

/-! ## The slice -/

/-- Two wrong answers of low confidence and a right one of high. -/
def sampleEvidence : List Observation := [⟨"p1", 1 / 4, false⟩, ⟨"p2", 3 / 10, false⟩, ⟨"p3", 1, true⟩]

/-- What a fit comes to: the groups, each with its value, and the slice or `None`. -/
structure WellFitted (observations : List Observation) (fitted : List (Group × ℚ)) (slice : Option CalibrationSlice) : Prop where
  /-- The groups tile the interval from 0 to 1 at tenths. -/
  tiled : Tiles (sortedRows observations) 0 (fitted.map (·.1)) 10
  /-- A row is in the group that its confidence falls in. -/
  rows : ∀ g ∈ fitted, ∀ o, o ∈ g.1.rows ↔ o ∈ observations ∧ (g.1.start : ℚ) / 10 ≤ o.rawConfidence ∧
    (o.rawConfidence < (g.1.stop : ℚ) / 10 ∨ g.1.stop = 10)
  filled : ∀ g ∈ fitted, 0 < g.1.rows.length ∧ (5 ≤ g.1.rows.length ∨ fitted.length = 1)
  rising : (fitted.map (·.2)).Pairwise (· ≤ ·)
  unit : ∀ g ∈ fitted, 0 ≤ g.2 ∧ g.2 ≤ 1
  shutdown : slice = none ↔ ∃ wrong ∈ fitted, (∃ o ∈ wrong.1.rows, o.correct = false) ∧ ∀ g ∈ fitted, g.2 ≤ wrong.2
  mapping : ∀ s, slice = some s →
    s.mapping = fitted.map fun g => ⟨(g.1.start : ℚ) / 10, (g.1.stop : ℚ) / 10, g.2⟩
  /-- The threshold is the least value above that of every wrong row. -/
  tau : ∀ s, slice = some s → (∃ g ∈ fitted, g.2 = s.tau) ∧ (∀ g ∈ fitted, ∀ o ∈ g.1.rows, o.correct = false → g.2 < s.tau) ∧
    ∀ g ∈ fitted, (∀ g' ∈ fitted, ∀ o ∈ g'.1.rows, o.correct = false → g'.2 < g.2) → s.tau ≤ g.2
  counted : ∀ s, slice = some s → s.nSamples = observations.length ∧
    s.perBin = (List.range 10).map fun i => ((bucket (sortedRows observations) i).length : Int)
  valid : ∀ s, slice = some s → ∀ name, validateSlice name s = .ok ()
  /-- `_calibrate` gives each row the value it was fitted with. -/
  calibrated : ∀ s, slice = some s → ∀ g ∈ fitted, ∀ o ∈ g.1.rows, calibrate o.rawConfidence s = some g.2

section
variable {observations observations' : List Observation}

theorem sortedRows_perm (observations : List Observation) : (sortedRows observations).Perm observations :=
  List.perm_insertionSort ByUid observations

/-- **The order of the observations plays no part.** -/
theorem sortedRows_congr (h : (observations.map (·.probeUid)).Nodup) (hperm : observations.Perm observations') :
    sortedRows observations = sortedRows observations' := by
  have hranks : StableSort.Ranks ByUid fun _ => True :=
    ⟨fun x y _ _ => le_total x.probeUid y.probeUid, fun _ _ _ _ _ _ hxy hyz => le_trans (α := String) hxy hyz⟩
  have hsorted : ∀ xs, (sortedRows xs).Pairwise ByUid := fun xs =>
    StableSort.pairwise_insertionSort hranks fun _ _ => trivial
  have hboth := (sortedRows_perm observations).trans (hperm.trans (sortedRows_perm observations').symm)
  apply hboth.eq_of_pairwise _ (hsorted observations) (hsorted observations')
  intro x y hx hy hxy hyx
  have hx' := (sortedRows_perm observations).mem_iff.1 hx
  have hy' := hperm.mem_iff.2 ((sortedRows_perm observations').mem_iff.1 hy)
  exact List.inj_on_of_nodup_map h hx' hy' (le_antisymm hxy hyx)

theorem rungs_ne_nil (h : fitted ≠ []) : sortedSet ((fitted.map mappingRow).map (·.calibrated)) ≠ [] := by
  rw [Ne, sortedSet_eq_nil_iff]
  simpa using h

theorem mem_rungs {v : ℚ} : v ∈ sortedSet ((fitted.map mappingRow).map (·.calibrated)) ↔ ∃ g ∈ fitted, g.2 = v := by
  rw [mem_sortedSet, List.map_map, List.mem_map]
  rfl

/-- The values of the wrong rows. -/
theorem mem_wrong (hnodup : (rows.map (·.probeUid)).Nodup) (htiles : Tiles rows 0 (fitted.map (·.1)) 10) {v : ℚ} :
    v ∈ (rows.filter fun row => !row.correct).filterMap (fun row => (rowCalibrated fitted).lookup row.probeUid) ↔
      ∃ g ∈ fitted, (∃ o ∈ g.1.rows, o.correct = false) ∧ g.2 = v := by
  rw [List.mem_filterMap]
  constructor
  · rintro ⟨o, ho, hv⟩
    rw [List.mem_filter, Bool.not_eq_true'] at ho
    obtain ⟨g, hg, hog⟩ := exists_group htiles ho.1
    rw [lookup_rowCalibrated hnodup htiles hg hog, Option.some.injEq] at hv
    exact ⟨g, hg, ⟨o, hog, ho.2⟩, hv⟩
  · rintro ⟨g, hg, ⟨o, hog, hwrong⟩, rfl⟩
    refine ⟨o, ?_, lookup_rowCalibrated hnodup htiles hg hog⟩
    have hrows := (htiles.bounds (List.mem_map_of_mem hg)).2.2.2
    rw [List.mem_filter, Bool.not_eq_true']
    rw [hrows, mem_span] at hog
    exact ⟨hog.1, hwrong⟩

/-- The sum of the bins, and what the checks of a slice ask for besides. -/
theorem validateSlice_ok {slice : CalibrationSlice} (hpos : 0 < slice.nSamples) (hten : slice.perBin.length = 10)
    (hsum : slice.perBin.sum = slice.nSamples) (hne : slice.mapping ≠ [])
    (hmapping : monotoneMapping 0 (-1) slice.mapping = some 1) (htau : slice.tau ∈ slice.mapping.map (·.calibrated))
    (name : String) : validateSlice name slice = .ok () := by
  have hcounts : ¬ (slice.nSamples < 0 ∨ ¬ (slice.perBin.length = 0 ∨ slice.perBin.length = 10)) := by omega
  have hmatch : ¬ (slice.perBin.sum ≠ slice.nSamples ∨ slice.mapping.length = 0) := by
    rw [not_or, not_not, List.length_eq_zero_iff]
    exact ⟨hsum, hne⟩
  rw [validateSlice, if_neg hcounts, if_neg hpos.ne', if_neg hmatch, hmapping]
  simp [htau]

/-- What the slice of a fit is made of. -/
theorem sliceOf_some {slice : CalibrationSlice} (hnodup : (rows.map (·.probeUid)).Nodup)
    (htiles : Tiles rows 0 (fitted.map (·.1)) 10) (h : sliceOf rows fitted = some slice) :
    slice.nSamples = rows.length ∧ slice.perBin = (List.range 10).map (fun i => ((bucket rows i).length : Int)) ∧
      slice.mapping = fitted.map mappingRow ∧ ∃ tau, slice.tau = six tau ∧ (∃ g ∈ fitted, g.2 = tau) ∧
        (∀ g ∈ fitted, ∀ o ∈ g.1.rows, o.correct = false → g.2 < tau) ∧
        ∀ g ∈ fitted, (∀ g' ∈ fitted, ∀ o ∈ g'.1.rows, o.correct = false → g'.2 < g.2) → tau ≤ g.2 := by
  obtain ⟨tau, htau, rfl⟩ := Option.map_eq_some_iff.1 h
  obtain ⟨hmem, habove, hleast⟩ := pickTau_some (pairwise_sortedSet _) htau
  refine ⟨by rw [hnodup.dedup, List.length_map], rfl, rfl, tau, rfl, mem_rungs.1 hmem, ?_, ?_⟩
  · intro g hg o ho hwrong
    exact habove g.2 ((mem_wrong hnodup htiles).2 ⟨g, hg, ⟨o, ho, hwrong⟩, rfl⟩)
  · intro g hg hover
    apply hleast g.2 (mem_rungs.2 ⟨g, hg, rfl⟩)
    intro w hw
    obtain ⟨g', hg', ⟨o, ho, hwrong⟩, rfl⟩ := (mem_wrong hnodup htiles).1 hw
    exact hover g' hg' o ho hwrong

/-- **The fit is shut down** when no value is above that of every wrong row, and only then. -/
theorem sliceOf_none (hnodup : (rows.map (·.probeUid)).Nodup) (htiles : Tiles rows 0 (fitted.map (·.1)) 10) :
    sliceOf rows fitted = none ↔ ∃ wrong ∈ fitted, (∃ o ∈ wrong.1.rows, o.correct = false) ∧ ∀ g ∈ fitted, g.2 ≤ wrong.2 := by
  constructor
  · intro h
    have hfitted : fitted ≠ [] := by
      rintro rfl
      cases htiles
    obtain ⟨w, hw, hmax⟩ := pickTau_none (rungs_ne_nil hfitted) (Option.map_eq_none_iff.1 h)
    obtain ⟨wrong, hwrong, ho, rfl⟩ := (mem_wrong hnodup htiles).1 hw
    exact ⟨wrong, hwrong, ho, fun g hg => hmax g.2 (mem_rungs.2 ⟨g, hg, rfl⟩)⟩
  · rintro ⟨wrong, hwrong, ⟨o, ho, hfalse⟩, hmax⟩
    cases hslice : sliceOf rows fitted with
    | none => rfl
    | some slice =>
      obtain ⟨-, -, -, tau, -, ⟨g, hg, rfl⟩, habove, -⟩ := sliceOf_some hnodup htiles hslice
      exact absurd (habove wrong hwrong o ho hfalse) (not_lt.2 (hmax g hg))

theorem fitSlice_eq (hne : observations ≠ []) (hunit : ∀ o ∈ observations, 0 ≤ o.rawConfidence ∧ o.rawConfidence ≤ 1)
    (hfitted : calibrateGroups 0 (mergedGroups (sortedRows observations)) = .ok fitted) :
    fitSlice observations = .ok (sliceOf (sortedRows observations) fitted) := by
  have hperm := sortedRows_perm observations
  have hempty : (sortedRows observations).isEmpty = false := by
    rw [List.isEmpty_eq_false_iff]
    intro hnil
    rw [hnil] at hperm
    exact hne hperm.nil_eq.symm
  have hvalid : ((sortedRows observations).any fun row => !(0 ≤ row.rawConfidence && row.rawConfidence ≤ 1)) = false := by
    rw [List.any_eq_false]
    intro row hrow
    simpa using hunit row (hperm.mem_iff.1 hrow)
  unfold fitSlice
  dsimp only
  rw [hempty, hvalid, hfitted]
  rfl

/-- **Fitting is well formed and safe**: any list of valid observations is fitted, whatever its order, to groups that tile the
unit interval and to the least threshold above every wrong row. -/
theorem fitSlice_wellFitted (hne : observations ≠ []) (huid : (observations.map (·.probeUid)).Nodup)
    (hunit : ∀ o ∈ observations, 0 ≤ o.rawConfidence ∧ o.rawConfidence ≤ 1) :
    ∃ fitted slice, (∀ rounds, calibrateGroups 0 (mergeLoop (10 + rounds) (binGroups (sortedRows observations))) = .ok fitted) ∧
      fitSlice observations = .ok slice ∧ WellFitted observations fitted slice ∧
      ∀ observations', observations.Perm observations' → fitSlice observations' = .ok slice := by
  have hperm := sortedRows_perm observations
  have hsorted : sortedRows observations ≠ [] := by
    intro hnil
    rw [hnil] at hperm
    exact hne hperm.nil_eq.symm
  have hnodup : ((sortedRows observations).map (·.probeUid)).Nodup := (hperm.map _).nodup_iff.2 huid
  obtain ⟨hfilled, hlarge⟩ := mergedGroups_rows hsorted
  obtain ⟨fitted, hfitted, hgroups, hrange, hrising⟩ := calibrateGroups_ok (quantize_zero 6) zero_le_one hfilled
  have htiles : Tiles (sortedRows observations) 0 (fitted.map (·.1)) 10 := hgroups ▸ tiles_mergedGroups _
  have hmem : ∀ g ∈ fitted, g.1 ∈ mergedGroups (sortedRows observations) := fun g hg => hgroups ▸ List.mem_map_of_mem hg
  have hbounds : ∀ g ∈ fitted, g.1.start < g.1.stop ∧ g.1.stop ≤ 10 ∧
      g.1.rows = span (sortedRows observations) g.1.start g.1.stop := fun g hg => (htiles.bounds (List.mem_map_of_mem hg)).2
  have hfit := fitSlice_eq hne hunit hfitted
  have hmapping : fitted.map mappingRow = fitted.map fun g => ⟨(g.1.start : ℚ) / 10, (g.1.stop : ℚ) / 10, g.2⟩ := by
    apply List.map_congr_left
    intro g hg
    obtain ⟨hlt, hle, -⟩ := hbounds g hg
    exact mappingRow_eq (by omega) hle
  have htau : ∀ s, sliceOf (sortedRows observations) fitted = some s → (∃ g ∈ fitted, g.2 = s.tau) ∧
      (∀ g ∈ fitted, ∀ o ∈ g.1.rows, o.correct = false → g.2 < s.tau) ∧
      ∀ g ∈ fitted, (∀ g' ∈ fitted, ∀ o ∈ g'.1.rows, o.correct = false → g'.2 < g.2) → s.tau ≤ g.2 := by
    intro s hs
    obtain ⟨-, -, -, tau, hsix, ⟨g, hg, rfl⟩, hrest⟩ := sliceOf_some hnodup htiles hs
    have hexact : s.tau = g.2 := hsix.trans (hrange g hg).2.2
    rw [hexact]
    exact ⟨⟨g, hg, rfl⟩, hrest⟩
  refine ⟨fitted, _, ?_, hfit, ?_, ?_⟩
  · intro rounds
    rw [mergeLoop_mergedGroups, hfitted]
  · constructor
    case tiled => exact htiles
    case rows =>
      intro g hg o
      obtain ⟨hlt, hle, hrows⟩ := hbounds g hg
      rw [hrows, mem_span, hperm.mem_iff]
      apply and_congr_right
      intro ho
      have hc := (hunit o ho).1
      rw [le_binIndex_iff (by omega) hc]
      apply and_congr_right
      intro _
      rcases hle.lt_or_eq with hlow | hten
      · rw [binIndex_lt_iff (by omega) hc]
        simp [hlow.ne]
      · simp [hten, binIndex_lt]
    case filled =>
      intro g hg
      refine ⟨hfilled g.1 (hmem g hg), ?_⟩
      have hlen : fitted.length = (mergedGroups (sortedRows observations)).length := by rw [← hgroups, List.length_map]
      rw [hlen]
      exact hlarge g.1 (hmem g hg)
    case rising => exact hrising
    case unit => exact fun g hg => ⟨(hrange g hg).1, (hrange g hg).2.1⟩
    case shutdown => exact sliceOf_none hnodup htiles
    case mapping =>
      intro s hs
      obtain ⟨-, -, hmap, -⟩ := sliceOf_some hnodup htiles hs
      exact hmap.trans hmapping
    case tau => exact htau
    case counted =>
      intro s hs
      obtain ⟨hcount, hbins, -⟩ := sliceOf_some hnodup htiles hs
      exact ⟨hcount.trans (congrArg _ hperm.length_eq), hbins⟩
    case valid =>
      intro s hs name
      obtain ⟨hcount, hbins, hmap, -⟩ := sliceOf_some hnodup htiles hs
      obtain ⟨⟨g, hg, hgtau⟩, -⟩ := htau s hs
      apply validateSlice_ok
      · rw [hcount]
        exact_mod_cast List.length_pos_iff.2 hsorted
      · rw [hbins, List.length_map, List.length_range]
      · rw [hbins, hcount, sum_buckets]
      · rw [hmap, Ne, List.map_eq_nil_iff]
        exact List.ne_nil_of_mem hg
      · rw [hmap]
        have hlast := monotoneMapping_eq htiles (le_refl 10)
          (fun g hg => (by norm_num : (-1 : ℚ) ≤ 0).trans (hrange g hg).1) hrising
        simpa using hlast
      · rw [hmap, List.map_map, List.mem_map]
        exact ⟨g, hg, hgtau⟩
    case calibrated =>
      intro s hs g hg o ho
      obtain ⟨-, -, hmap, -⟩ := sliceOf_some hnodup htiles hs
      have hrow : o ∈ sortedRows observations := by
        rw [(hbounds g hg).2.2, mem_span] at ho
        exact ho.1
      exact calibrate_eq hmap htiles hg ho (hunit o (hperm.mem_iff.1 hrow))
  · intro observations' hsame
    have hne' : observations' ≠ [] := by
      rintro rfl
      exact hne hsame.eq_nil
    have hunit' : ∀ o ∈ observations', 0 ≤ o.rawConfidence ∧ o.rawConfidence ≤ 1 :=
      fun o ho => hunit o (hsame.mem_iff.2 ho)
    have hrows := sortedRows_congr huid hsame
    rw [hrows] at hfitted ⊢
    exact fitSlice_eq hne' hunit' hfitted

theorem fitSlice_wellFitted_sample :
    ∃ fitted slice, (∀ rounds, calibrateGroups 0 (mergeLoop (10 + rounds) (binGroups (sortedRows sampleEvidence))) = .ok fitted) ∧
      fitSlice sampleEvidence = .ok slice ∧ WellFitted sampleEvidence fitted slice ∧
      ∀ observations', sampleEvidence.Perm observations' → fitSlice observations' = .ok slice := by
  apply fitSlice_wellFitted
  · simp [sampleEvidence]
  · decide
  · intro o ho
    simp only [sampleEvidence, List.mem_cons, List.not_mem_nil, or_false] at ho
    rcases ho with rfl | rfl | rfl <;> norm_num

end

end Panella.Resolver
