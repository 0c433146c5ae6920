import Mathlib.Data.List.Infix

/-!
# `LIKE` and `REPLACE`, as SQLite has them

`like pattern text` is `text LIKE pattern`: `%` stands for any characters, `_` for any one, and every other character for
itself, the letters `A` to `Z` in either case.

A list of texts kept as one text is searched with the separator put around it (`bounded`): a pattern `%,word,%` finds the
members that are the word (**`word_mem_iff`**), a pattern `%,start%` those that start with it (**`start_mem_iff`**), and the
length that `REPLACE` takes off counts them (**`length_remove_bounded`**).
-/

namespace SqlLike

/-- `text LIKE pattern`. -/
def like : List Char → List Char → Bool
  | [], cs => cs.isEmpty
  | '%' :: ps, cs => cs.tails.any (like ps)
  | _ :: _, [] => false
  | '_' :: ps, _ :: cs => like ps cs
  | p :: ps, c :: cs => p.toLower = c.toLower && like ps cs

/-- A pattern without wildcards. -/
def Literal (ps : List Char) : Prop := '%' ∉ ps ∧ '_' ∉ ps

instance (ps : List Char) : Decidable (Literal ps) := inferInstanceAs (Decidable (_ ∧ _))

theorem like_percent {ps cs : List Char} : like ('%' :: ps) cs = true ↔ ∃ t, t <:+ cs ∧ like ps t = true := by
  simp [like, List.any_eq_true, List.mem_tails]

theorem like_cons {p c : Char} {ps cs : List Char} (hp : p ≠ '%') (hu : p ≠ '_') :
    like (p :: ps) (c :: cs) = true ↔ p.toLower = c.toLower ∧ like ps cs = true := by
  rw [like]
  · simp
  · exact hp
  · exact hu

theorem like_nil {p : Char} {ps : List Char} (hp : p ≠ '%') : like (p :: ps) [] = false := by
  rw [like]
  exact hp

theorem like_start {ps cs : List Char} (h : Literal ps) :
    like (ps ++ ['%']) cs = true ↔ ps.map Char.toLower <+: cs.map Char.toLower := by
  induction ps generalizing cs with
  | nil =>
    simp only [List.nil_append, List.map_nil, List.nil_prefix, iff_true]
    exact like_percent.2 ⟨[], List.nil_suffix, rfl⟩
  | cons p ps ih =>
    obtain ⟨hp, hu⟩ := h
    simp only [List.mem_cons, not_or] at hp hu
    cases cs with
    | nil =>
      rw [List.cons_append, like_nil (Ne.symm hp.1)]
      simp
    | cons c cs =>
      rw [List.cons_append, like_cons (Ne.symm hp.1) (Ne.symm hu.1), ih ⟨hp.2, hu.2⟩, List.map_cons, List.map_cons,
        List.cons_prefix_cons]

/-- **`%word%` looks for the word**, in either case. -/
theorem like_contains {ps cs : List Char} (h : Literal ps) :
    like ('%' :: (ps ++ ['%'])) cs = true ↔ ps.map Char.toLower <:+: cs.map Char.toLower := by
  rw [like_percent, List.infix_iff_prefix_suffix]
  constructor
  · rintro ⟨t, ht, hlike⟩
    exact ⟨t.map Char.toLower, (like_start h).1 hlike, ht.map _⟩
  · rintro ⟨u, hpre, hsuf⟩
    obtain ⟨t, ht, rfl⟩ := List.suffix_map_iff.1 hsuf
    exact ⟨t, ht, (like_start h).2 hpre⟩

/-! ## A separated list -/

section
variable {sep : Char} {ps : List (List Char)} {v w : List Char}

/-- Each text behind a separator, and a last separator. -/
def bounded (sep : Char) (ps : List (List Char)) : List Char := ps.flatMap (sep :: ·) ++ [sep]

theorem bounded_cons (sep : Char) (q : List Char) (ps : List (List Char)) :
    bounded sep (q :: ps) = sep :: (q ++ bounded sep ps) := by
  simp [bounded]

theorem bounded_head (sep : Char) (ps : List (List Char)) : ∃ r, bounded sep ps = sep :: r := by
  cases ps with
  | nil => exact ⟨[], rfl⟩
  | cons q ps => exact ⟨_, bounded_cons sep q ps⟩

theorem bounded_intercalate (hne : ps ≠ []) : bounded sep ps = sep :: ([sep].intercalate ps ++ [sep]) := by
  induction ps with
  | nil => exact absurd rfl hne
  | cons q ps ih =>
    rw [bounded_cons]
    cases ps with
    | nil => simp [bounded, List.intercalate]
    | cons r ps => simp [ih (by simp), List.intercalate]

/-- A text with its separators around it. -/
theorem bounded_splitOn (sep : Char) (s : List Char) : bounded sep (s.splitOn sep) = sep :: (s ++ [sep]) := by
  rw [bounded_intercalate (List.splitOn_ne_nil sep s), List.intercalate_splitOn]

theorem bounded_map (f : Char → Char) : (bounded sep ps).map f = bounded (f sep) (ps.map (List.map f)) := by
  induction ps with
  | nil => rfl
  | cons q ps ih => simp [bounded_cons, ih]

/-- What is searched from a separator on is at the start of a member. -/
theorem infix_bounded_iff {P : List Char → Prop} (hv : v ≠ [])
    (hP : ∀ q r, sep ∉ q → (v <+: q ++ sep :: r ↔ P q)) (hps : ∀ q ∈ ps, sep ∉ q) :
    sep :: v <:+: bounded sep ps ↔ ∃ q ∈ ps, P q := by
  have hskip : ∀ q r, sep ∉ q → (sep :: v <:+: q ++ r ↔ sep :: v <:+: r) := by
    intro q r hq
    induction q with
    | nil => rfl
    | cons c q ih =>
      simp only [List.mem_cons, not_or] at hq
      rw [List.cons_append, List.infix_cons_iff, ih hq.2]
      simp [hq.1]
  induction ps with
  | nil =>
    have hno : ¬ sep :: v <:+: [sep] := by
      intro h
      have := h.length_le
      exact hv (List.length_eq_zero_iff.1 (by simpa using this))
    simpa [bounded] using hno
  | cons q ps ih =>
    obtain ⟨hq, hps⟩ := List.forall_mem_cons.1 hps
    obtain ⟨r, hr⟩ := bounded_head sep ps
    rw [bounded_cons, List.infix_cons_iff, List.cons_prefix_cons, hskip q _ hq, List.exists_mem_cons_iff]
    refine or_congr ?_ (ih hps)
    rw [hr, hP q r hq]
    simp

theorem start_prefix_iff (hw : sep ∉ w) (q r : List Char) : w <+: q ++ sep :: r ↔ w <+: q := by
  constructor
  · intro h
    induction w generalizing q with
    | nil => exact List.nil_prefix
    | cons c w ih =>
      simp only [List.mem_cons, not_or] at hw
      cases q with
      | nil =>
        rw [List.nil_append, List.cons_prefix_cons] at h
        exact absurd h.1.symm hw.1
      | cons d q =>
        rw [List.cons_append, List.cons_prefix_cons] at h
        exact List.cons_prefix_cons.2 ⟨h.1, ih hw.2 q h.2⟩
  · intro h
    exact h.trans (List.prefix_append _ _)

theorem word_prefix_iff (hw : sep ∉ w) (q r : List Char) (hq : sep ∉ q) : w ++ [sep] <+: q ++ sep :: r ↔ w = q := by
  constructor
  · intro h
    induction w generalizing q with
    | nil =>
      cases q with
      | nil => rfl
      | cons d q =>
        simp only [List.nil_append, List.cons_append, List.cons_prefix_cons] at h
        exact absurd (by simp [h.1]) hq
    | cons c w ih =>
      simp only [List.mem_cons, not_or] at hw
      cases q with
      | nil =>
        rw [List.cons_append, List.nil_append, List.cons_prefix_cons] at h
        exact absurd h.1.symm hw.1
      | cons d q =>
        simp only [List.mem_cons, not_or] at hq
        rw [List.cons_append, List.cons_append, List.cons_prefix_cons] at h
        rw [h.1, ih hw.2 q hq.2 h.2]
  · rintro rfl
    rw [List.prefix_append_right_inj, List.cons_prefix_cons]
    exact ⟨rfl, List.nil_prefix⟩

/-- The members that start with a text, exactly. -/
theorem start_infix_iff (hw : sep ∉ w) (hne : w ≠ []) (hps : ∀ q ∈ ps, sep ∉ q) :
    sep :: w <:+: bounded sep ps ↔ ∃ q ∈ ps, w <+: q :=
  infix_bounded_iff hne (fun q r _ => start_prefix_iff hw q r) hps

theorem word_infix_iff (hw : sep ∉ w) (hps : ∀ q ∈ ps, sep ∉ q) :
    sep :: (w ++ [sep]) <:+: bounded sep ps ↔ w ∈ ps := by
  rw [infix_bounded_iff (by simp) (word_prefix_iff hw) hps]
  simp

end

/-! ## Searches in a list separated by commas -/

theorem toLower_eq_comma_iff {c : Char} : c.toLower = ',' ↔ c = ',' := by
  constructor
  · intro h
    unfold Char.toLower at h
    split at h
    · next hrange =>
      have hval := congrArg (fun c : Char => c.val.toNat) h
      have hlow : 65 ≤ c.toNat := UInt32.le_iff_toNat_le.1 hrange.1
      have hhigh : c.toNat ≤ 90 := UInt32.le_iff_toNat_le.1 hrange.2
      simp [UInt32.toNat_add] at hval
      omega
    · exact h
  · rintro rfl
    rfl

theorem comma_notMem_lower {q : List Char} (h : ',' ∉ q) : ',' ∉ q.map Char.toLower := by
  intro hm
  obtain ⟨c, hc, he⟩ := List.mem_map.1 hm
  exact h (toLower_eq_comma_iff.1 he ▸ hc)

theorem lower_notMem {ps : List (List Char)} (h : ∀ q ∈ ps, ',' ∉ q) : ∀ q ∈ ps.map (List.map Char.toLower), ',' ∉ q := by
  intro q hq
  obtain ⟨r, hr, rfl⟩ := List.mem_map.1 hq
  exact comma_notMem_lower (h r hr)

/-- **`LIKE '%,word,%'`** finds the members that are the word in some case. -/
theorem word_mem_iff {w : List Char} {ps : List (List Char)} (hlit : Literal w) (hw : ',' ∉ w) (hps : ∀ q ∈ ps, ',' ∉ q) :
    like ('%' :: (',' :: (w ++ [',']) ++ ['%'])) (bounded ',' ps) = true ↔
      ∃ q ∈ ps, q.map Char.toLower = w.map Char.toLower := by
  have hpattern : Literal (',' :: (w ++ [','])) := by
    simpa [Literal] using hlit
  rw [like_contains hpattern, bounded_map]
  have hmap : (',' :: (w ++ [','])).map Char.toLower = ',' :: (w.map Char.toLower ++ [',']) := by
    simp [toLower_eq_comma_iff.2]
  rw [hmap, toLower_eq_comma_iff.2 rfl, word_infix_iff (comma_notMem_lower hw) (lower_notMem hps), List.mem_map]

/-- **`LIKE '%,start%'`** finds the members that start with the text in some case. -/
theorem start_mem_iff {w : List Char} {ps : List (List Char)} (hlit : Literal w) (hw : ',' ∉ w) (hne : w ≠ [])
    (hps : ∀ q ∈ ps, ',' ∉ q) :
    like ('%' :: (',' :: w ++ ['%'])) (bounded ',' ps) = true ↔
      ∃ q ∈ ps, w.map Char.toLower <+: q.map Char.toLower := by
  have hpattern : Literal (',' :: w) := by
    simpa [Literal] using hlit
  rw [like_contains hpattern, bounded_map, List.map_cons, toLower_eq_comma_iff.2 rfl,
    start_infix_iff (comma_notMem_lower hw) (by simpa using hne) (lower_notMem hps)]
  simp

/-! ## `REPLACE(text, word, '')` -/

/-- The text without the occurrences of a word, from the left; the first characters are skipped. -/
def removeFrom (w : List Char) : Nat → List Char → List Char
  | _, [] => []
  | n + 1, _ :: cs => removeFrom w n cs
  | 0, c :: cs => if w.isPrefixOf (c :: cs) then removeFrom w (w.length - 1) cs else c :: removeFrom w 0 cs

/-- `REPLACE(text, word, '')`. -/
def remove (w cs : List Char) : List Char := removeFrom w 0 cs

theorem removeFrom_drop (w : List Char) (n : Nat) (cs : List Char) : removeFrom w n cs = remove w (cs.drop n) := by
  induction cs generalizing n with
  | nil => cases n <;> rfl
  | cons c cs ih =>
    cases n with
    | zero => rfl
    | succ n => rw [removeFrom, ih, List.drop_succ_cons]

section
variable {sep : Char} {v : List Char}

theorem remove_skip {q : List Char} (hq : sep ∉ q) (r : List Char) :
    remove (sep :: v) (q ++ r) = q ++ remove (sep :: v) r := by
  induction q with
  | nil => rfl
  | cons c q ih =>
    simp only [List.mem_cons, not_or] at hq
    have hno : (sep :: v).isPrefixOf (c :: (q ++ r)) = false := by
      simp [List.isPrefixOf, hq.1]
    have hstep : remove (sep :: v) (c :: (q ++ r)) = c :: remove (sep :: v) (q ++ r) := by
      simp only [remove, removeFrom, hno]
      rfl
    rw [List.cons_append, hstep, ih hq.2]
    rfl

/-- **What `REPLACE` takes off** counts the members that start with the text. -/
theorem length_remove_bounded (hv : sep ∉ v) (hne : v ≠ []) {ps : List (List Char)} (hps : ∀ q ∈ ps, sep ∉ q) :
    (remove (sep :: v) (bounded sep ps)).length + (v.length + 1) * ps.countP (v.isPrefixOf ·) =
      (bounded sep ps).length := by
  induction ps with
  | nil =>
    have hno : (sep :: v).isPrefixOf [sep] = false := by
      cases v with
      | nil => exact absurd rfl hne
      | cons c v => simp [List.isPrefixOf]
    simp [bounded, remove, removeFrom, hno]
  | cons q ps ih =>
    obtain ⟨hq, hps⟩ := List.forall_mem_cons.1 hps
    obtain ⟨r, hr⟩ := bounded_head sep ps
    have ih := ih hps
    have hiff : (sep :: v).isPrefixOf (sep :: (q ++ bounded sep ps)) = true ↔ v <+: q := by
      rw [List.isPrefixOf_iff_prefix, List.cons_prefix_cons, hr, start_prefix_iff hv]
      simp
    rw [bounded_cons]
    by_cases hstart : v <+: q
    · obtain ⟨q', rfl⟩ := hstart
      simp only [List.mem_append, not_or] at hq
      have hcut : remove (sep :: v) (sep :: ((v ++ q') ++ bounded sep ps)) = q' ++ remove (sep :: v) (bounded sep ps) := by
        rw [remove, removeFrom, if_pos (hiff.2 (List.prefix_append v q')), removeFrom_drop]
        simp [remove_skip hq.2]
      rw [hcut, List.countP_cons_of_pos (by simp)]
      simp only [List.length_append, List.length_cons] at ih ⊢
      rw [Nat.mul_add]
      omega
    · have hkeep : remove (sep :: v) (sep :: (q ++ bounded sep ps)) = sep :: (q ++ remove (sep :: v) (bounded sep ps)) := by
        rw [← remove_skip hq, remove, removeFrom, if_neg (fun h => hstart (hiff.1 h))]
        rfl
      rw [hkeep, List.countP_cons_of_neg (by simpa using hstart)]
      simp only [List.length_append, List.length_cons] at ih ⊢
      omega

end

end SqlLike
