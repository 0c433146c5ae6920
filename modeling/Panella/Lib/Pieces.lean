import Panella.Lib.Text

/-!
# A list of texts kept as one text

The texts are joined with a separator, and whoever reads the joined text splits it on that separator again,
strips each part and drops what is empty (`pieces`). Reading is not the inverse of joining: a text that has
the separator in it, or blanks at an end, comes back as something else. What is used of it:
**`pieces_intercalate`** (a joined list reads as the pieces of its members), **`mem_pieces`** (a piece is
stripped, has no separator and is not empty) and **`pieces_eq_self_iff`** (the texts that come back as they are).
-/

namespace PyText

variable {sep : Char} {s t : String}

/-- The parts of a text between separators, stripped, without the empty ones. -/
def pieces (sep : Char) (s : String) : List String :=
  ((s.toList.splitOn sep).map fun p => stripSpace (String.ofList p)).filter (· ≠ "")

/-- `sep.join(ts)`. -/
def joined (sep : Char) (ts : List String) : String := String.ofList ([sep].intercalate (ts.map String.toList))

/-- A text that is kept as it is. -/
def Whole (sep : Char) (s : String) : Prop := sep ∉ s.toList ∧ stripSpace s = s ∧ s ≠ ""

theorem not_mem_of_mem_splitOn {cs p : List Char} (h : p ∈ cs.splitOn sep) : sep ∉ p := by
  induction cs generalizing p with
  | nil =>
    rw [List.splitOn_nil, List.mem_singleton] at h
    rw [h]
    exact List.not_mem_nil
  | cons c cs ih =>
    rw [List.splitOn_cons_eq_if_modifyHead] at h
    by_cases hc : c == sep
    · rw [if_pos hc] at h
      rcases List.mem_cons.1 h with rfl | h
      · exact List.not_mem_nil
      · exact ih h
    · rw [if_neg hc] at h
      cases hs : cs.splitOn sep with
      | nil => exact absurd hs (List.splitOn_ne_nil sep cs)
      | cons q qs =>
        rw [hs, List.modifyHead_cons] at h
        rcases List.mem_cons.1 h with rfl | h
        · rw [List.mem_cons, not_or]
          refine ⟨fun he => hc (by simp [he]), ih ?_⟩
          rw [hs]
          exact List.mem_cons_self
        · refine ih ?_
          rw [hs]
          exact List.mem_cons_of_mem _ h

instance : Decidable (Whole sep s) := inferInstanceAs (Decidable (_ ∧ _ ∧ _))

/-- Two texts that are kept are kept as one. -/
theorem Whole.append (hs : Whole sep s) (ht : Whole sep t) : Whole sep (s ++ t) := by
  obtain ⟨h1, h2, h3⟩ := hs
  obtain ⟨h4, h5, h6⟩ := ht
  have trim : ∀ u : String, stripSpace u = u → Trim isSpace u.toList := by
    intro u hu
    rw [← strip_eq_self_iff, ← toList_stripSpace, hu]
  have hsne : s.toList ≠ [] := fun h => h3 (String.toList_eq_nil_iff.1 h)
  have htne : t.toList ≠ [] := fun h => h6 (String.toList_eq_nil_iff.1 h)
  refine ⟨?_, ?_, ?_⟩
  · rw [String.toList_append, List.mem_append, not_or]
    exact ⟨h1, h4⟩
  · have hboth : stripList isSpace (s ++ t).toList = (s ++ t).toList := by
      rw [strip_eq_self_iff, String.toList_append]
      constructor
      · rw [List.head?_append_of_ne_nil _ hsne]
        exact (trim s h2).1
      · rw [List.getLast?_append_of_ne_nil _ htne]
        exact (trim t h5).2
    rw [stripSpace, strip, hboth, String.ofList_toList]
  · intro h
    have := congrArg String.toList h
    rw [String.toList_append] at this
    exact hsne (List.append_eq_nil_iff.1 this).1

/-- **A piece comes back as it is.** -/
theorem mem_pieces (h : t ∈ pieces sep s) : Whole sep t := by
  rw [pieces, List.mem_filter, List.mem_map] at h
  obtain ⟨⟨p, hp, rfl⟩, hne⟩ := h
  refine ⟨fun hm => not_mem_of_mem_splitOn hp ?_, stripSpace_stripSpace _, by simpa using hne⟩
  have := mem_of_mem_stripSpace hm
  rwa [String.toList_ofList] at this

theorem pieces_of_whole (h : Whole sep s) : pieces sep s = [s] := by
  obtain ⟨hsep, hstrip, hne⟩ := h
  rw [pieces, List.splitOn_eq_singleton hsep]
  simp [hstrip, hne]

/-- **The texts that come back as they are.** -/
theorem pieces_eq_self_iff : pieces sep s = [s] ↔ Whole sep s := by
  constructor
  · intro h
    refine mem_pieces (s := s) ?_
    rw [h]
    exact List.mem_singleton_self s
  · exact pieces_of_whole

theorem whole_iff_mem_pieces : Whole sep s ↔ s ∈ pieces sep s := by
  constructor
  · intro h
    rw [pieces_of_whole h]
    exact List.mem_singleton_self s
  · exact mem_pieces

theorem toList_joined (ts : List String) : (joined sep ts).toList = [sep].intercalate (ts.map String.toList) :=
  String.toList_ofList

/-- **A joined list reads as the pieces of its members.** -/
theorem pieces_joined (ts : List String) : pieces sep (joined sep ts) = ts.flatMap (pieces sep) := by
  induction ts with
  | nil => simp [pieces, toList_joined, stripSpace, strip, stripList]
  | cons t ts ih =>
    rw [List.flatMap_cons, ← ih]
    cases ts with
    | nil => simp [pieces, toList_joined, stripSpace, strip, stripList]
    | cons u us =>
      have hjoin : (joined sep (t :: u :: us)).toList = t.toList ++ sep :: (joined sep (u :: us)).toList := by
        simp [toList_joined, List.intercalate]
      rw [pieces, hjoin, List.splitOn_append_cons_self, List.map_append, List.filter_append]
      rfl

/-- **Which pieces of a list are of a kind.** The first texts are of the kind; they are what is read of it if and
only if each is kept as it is and no piece of the other texts is of the kind. -/
theorem filter_pieces_eq_iff {P : String → Bool} {ls ts : List String} (hls : ∀ l ∈ ls, P l = true) :
    ((ls ++ ts).flatMap (pieces sep)).filter P = ls ↔
      (∀ l ∈ ls, Whole sep l) ∧ ∀ t ∈ ts, ∀ p ∈ pieces sep t, P p = false := by
  have hkept : (∀ l ∈ ls, Whole sep l) → (ls.flatMap (pieces sep)).filter P = ls := by
    intro h
    have hself : ls.flatMap (pieces sep) = ls := by
      rw [List.flatMap_congr fun l hl => pieces_of_whole (h l hl)]
      exact List.flatMap_singleton' ls
    rw [hself, List.filter_eq_self]
    exact hls
  rw [List.flatMap_append, List.filter_append]
  constructor
  · intro h
    have hwhole : ∀ l ∈ ls, Whole sep l := by
      intro l hl
      rw [← h, ← List.filter_append, List.mem_filter, ← List.flatMap_append, List.mem_flatMap] at hl
      obtain ⟨⟨u, -, hu⟩, -⟩ := hl
      exact mem_pieces hu
    refine ⟨hwhole, fun t ht p hp => ?_⟩
    rw [hkept hwhole, List.append_right_eq_self, List.filter_eq_nil_iff] at h
    simpa using h p (List.mem_flatMap.2 ⟨t, ht, hp⟩)
  · rintro ⟨hwhole, hrest⟩
    rw [hkept hwhole, List.append_right_eq_self, List.filter_eq_nil_iff]
    intro p hp
    obtain ⟨t, ht, hp⟩ := List.mem_flatMap.1 hp
    simpa using hrest t ht p hp

end PyText
