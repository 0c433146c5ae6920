import Mathlib.Data.List.Basic

/-!
# Lines of a text

`splitlines` cuts a text after every line end and keeps the ends: `lf`, `cr` or the two together. A list of lines is the lines of its
own concatenation when every line is followed by one it does not run into (**`splitlines_flatten`**), and only then: wherever a `cr`
stands directly before a bare `lf`, the two read as one end and a line is lost (**`length_splitlines_flatten_lt`**).
-/

namespace Lines

variable {α : Type} [DecidableEq α] {lf cr : α} {b : α} {line next rest rest' : List α} {lines : List (List α)}

/-- The lines of a text, each with its end. -/
def splitlines (lf cr : α) : List α → List (List α)
  | [] => []
  | b :: rest =>
    if b = lf ∨ b = cr ∧ rest.head? ≠ some lf then [b] :: splitlines lf cr rest
    else match splitlines lf cr rest with
      | [] => [[b]]
      | line :: lines => (b :: line) :: lines

/-- One line and no more. -/
def IsLine (lf cr : α) (line : List α) : Prop := splitlines lf cr line = [line]

/-- The line has an end of its own. -/
def Ended (lf cr : α) (line : List α) : Prop := line.getLast? = some lf ∨ line.getLast? = some cr

/-- What follows starts a line of its own. -/
def Closed (lf cr : α) (line rest : List α) : Prop := line.getLast? = some lf ∨ line.getLast? = some cr ∧ rest.head? ≠ some lf

instance : Decidable (IsLine lf cr line) := inferInstanceAs (Decidable (_ = _))
instance : Decidable (Ended lf cr line) := inferInstanceAs (Decidable (_ ∨ _))
instance : Decidable (Closed lf cr line rest) := inferInstanceAs (Decidable (_ ∨ _))

@[simp] theorem splitlines_nil : splitlines lf cr [] = [] := rfl

theorem splitlines_end (h : b = lf ∨ b = cr ∧ rest.head? ≠ some lf) :
    splitlines lf cr (b :: rest) = [b] :: splitlines lf cr rest := by
  rw [splitlines, if_pos h]

/-- A character that ends no line joins the line after it. -/
theorem splitlines_cons (h : ¬ (b = lf ∨ b = cr ∧ rest.head? ≠ some lf)) (hrest : splitlines lf cr rest = line :: lines) :
    splitlines lf cr (b :: rest) = (b :: line) :: lines := by
  rw [splitlines, if_neg h, hrest]

theorem splitlines_ne_nil (h : rest ≠ []) : splitlines lf cr rest ≠ [] := by
  cases rest with
  | nil => exact absurd rfl h
  | cons b rest =>
    rw [splitlines]
    split
    · simp
    · split <;> simp

theorem flatten_splitlines (lf cr : α) (text : List α) : (splitlines lf cr text).flatten = text := by
  induction text with
  | nil => rfl
  | cons b rest ih =>
    rw [splitlines]
    split
    · simp [ih]
    · split
      · rename_i hnil
        rw [hnil] at ih
        simpa using ih
      · rename_i line lines hcons
        rw [hcons] at ih
        simpa using ih

theorem IsLine.ne_nil (h : IsLine lf cr line) : line ≠ [] := by
  rintro rfl
  cases h

/-- A line that starts with a line feed is nothing else. -/
theorem IsLine.eq_of_head? (h : IsLine lf cr line) (hhead : line.head? = some lf) : line = [lf] := by
  cases line with
  | nil => simp at hhead
  | cons b line =>
    obtain rfl : b = lf := by simpa using hhead
    have hcut : splitlines b cr (b :: line) = [b] :: splitlines b cr line := splitlines_end (.inl rfl)
    rw [h, List.cons.injEq] at hcut
    exact hcut.1

/-- A line of more than one character does not end at its first. -/
theorem IsLine.tail {c : α} (h : IsLine lf cr (b :: c :: line)) :
    ¬ (b = lf ∨ b = cr ∧ (c :: line).head? ≠ some lf) ∧ IsLine lf cr (c :: line) := by
  by_cases hb : b = lf ∨ b = cr ∧ (c :: line).head? ≠ some lf
  · have hcut := splitlines_end hb
    rw [h, List.cons.injEq] at hcut
    exact absurd hcut.1 (by simp)
  · refine ⟨hb, ?_⟩
    obtain ⟨line', lines, hrest⟩ := List.exists_cons_of_ne_nil (@splitlines_ne_nil α _ lf cr _ (List.cons_ne_nil c line))
    have hcut := splitlines_cons hb hrest
    rw [h, List.cons.injEq, List.cons.injEq] at hcut
    rw [IsLine, hrest, ← hcut.1.2, ← hcut.2]

/-- A line before a text it does not run into is the first line of the two. -/
theorem splitlines_append (h : IsLine lf cr line) (hclosed : Closed lf cr line rest) :
    splitlines lf cr (line ++ rest) = line :: splitlines lf cr rest := by
  induction line with
  | nil => exact absurd rfl h.ne_nil
  | cons b line ih =>
    cases line with
    | nil =>
      apply splitlines_end
      simpa [Closed] using hclosed
    | cons c line =>
      obtain ⟨hb, hline⟩ := h.tail
      refine splitlines_cons ?_ (ih hline (by simpa [Closed] using hclosed))
      simpa using hb

/-- A line without a line feed at its end is still one line with it. -/
theorem IsLine.snoc (h : IsLine lf cr line) (hend : line.getLast? ≠ some lf) : IsLine lf cr (line ++ [lf]) := by
  have hlf : splitlines lf cr [lf] = [[lf]] := splitlines_end (.inl rfl)
  induction line with
  | nil => exact hlf
  | cons b line ih =>
    cases line with
    | nil =>
      refine splitlines_cons ?_ hlf
      have hb : b ≠ lf := by simpa using hend
      simp [hb]
    | cons c line =>
      obtain ⟨hb, hline⟩ := h.tail
      refine splitlines_cons ?_ (ih hline (by simpa using hend))
      simpa using hb

theorem isLine_of_mem {text : List α} (h : line ∈ splitlines lf cr text) : IsLine lf cr line := by
  induction text generalizing line with
  | nil => simp at h
  | cons b rest ih =>
    by_cases hb : b = lf ∨ b = cr ∧ rest.head? ≠ some lf
    · rw [splitlines_end hb, List.mem_cons] at h
      rcases h with rfl | h
      · rcases hb with rfl | ⟨rfl, -⟩
        · exact splitlines_end (.inl rfl)
        · exact splitlines_end (.inr ⟨rfl, by simp⟩)
      · exact ih h
    · cases hrest : splitlines lf cr rest with
      | nil =>
        rw [splitlines, if_neg hb, hrest, List.mem_singleton] at h
        have hnil : rest = [] := by rw [← flatten_splitlines lf cr rest, hrest, List.flatten_nil]
        subst h hnil
        rw [IsLine, splitlines, if_neg hb, splitlines_nil]
      | cons first lines =>
        rw [splitlines_cons hb hrest, List.mem_cons] at h
        rcases h with rfl | h
        · -- the first line of the rest starts with what the rest starts with
          have hfirst : IsLine lf cr first := ih (by simp [hrest])
          have hhead : rest.head? = first.head? := by
            rw [← flatten_splitlines lf cr rest, hrest, List.flatten_cons, List.head?_append_of_ne_nil _ hfirst.ne_nil]
          rw [hhead] at hb
          exact splitlines_cons hb hfirst
        · exact ih (by simp [hrest, h])

/-- Every line of a text but the last has an end. -/
theorem pairwise_ended (lf cr : α) (text : List α) : (splitlines lf cr text).Pairwise fun line _ => Ended lf cr line := by
  induction text with
  | nil => exact .nil
  | cons b rest ih =>
    by_cases hb : b = lf ∨ b = cr ∧ rest.head? ≠ some lf
    · rw [splitlines_end hb, List.pairwise_cons]
      refine ⟨fun _ _ => ?_, ih⟩
      rcases hb with rfl | ⟨rfl, -⟩ <;> simp [Ended]
    · cases hrest : splitlines lf cr rest with
      | nil => simp [splitlines, if_neg hb, hrest]
      | cons first lines =>
        rw [hrest, List.pairwise_cons] at ih
        rw [splitlines_cons hb hrest, List.pairwise_cons]
        refine ⟨fun next hnext => ?_, ih.2⟩
        have hfirst : first ≠ [] := (isLine_of_mem (show first ∈ splitlines lf cr rest by simp [hrest])).ne_nil
        obtain ⟨c, first', rfl⟩ := List.exists_cons_of_ne_nil hfirst
        simpa [Ended] using ih.1 next hnext

/-- Lines that do not run into each other are the lines of their concatenation. -/
theorem splitlines_flatten (hlines : ∀ line ∈ lines, IsLine lf cr line) (hclosed : lines.IsChain (Closed lf cr)) :
    splitlines lf cr lines.flatten = lines := by
  induction lines with
  | nil => rfl
  | cons line lines ih =>
    rw [List.forall_mem_cons] at hlines
    cases lines with
    | nil => rw [List.flatten_cons, List.flatten_nil, List.append_nil, hlines.1]
    | cons next lines =>
      rw [List.isChain_cons_cons] at hclosed
      have hhead : (next :: lines).flatten.head? = next.head? := by
        rw [List.flatten_cons, List.head?_append_of_ne_nil _ (hlines.2 next (by simp)).ne_nil]
      rw [List.flatten_cons, splitlines_append hlines.1 (by rw [Closed, hhead]; exact hclosed.1), ih hlines.2 hclosed.2]

theorem length_splitlines_append_le (lf cr : α) (text text' : List α) :
    (splitlines lf cr (text ++ text')).length ≤ (splitlines lf cr text).length + (splitlines lf cr text').length := by
  induction text with
  | nil => simp
  | cons b rest ih =>
    rw [List.cons_append]
    by_cases hb : b = lf ∨ b = cr ∧ (rest ++ text').head? ≠ some lf
    · by_cases hb' : b = lf ∨ b = cr ∧ rest.head? ≠ some lf
      · rw [splitlines_end hb, splitlines_end hb', List.length_cons, List.length_cons]
        omega
      · refine absurd (hb.imp_right fun h => ⟨h.1, fun hhead => h.2 ?_⟩) hb'
        rw [List.head?_append, hhead, Option.some_or]
    · have hcut : (splitlines lf cr (b :: (rest ++ text'))).length = max 1 (splitlines lf cr (rest ++ text')).length := by
        rw [splitlines, if_neg hb]
        cases splitlines lf cr (rest ++ text') <;> simp
      have hcut' : max 1 (splitlines lf cr rest).length ≤ (splitlines lf cr (b :: rest)).length := by
        rw [splitlines]
        split
        · rw [List.length_cons]
          omega
        · cases splitlines lf cr rest <;> simp
      omega

theorem length_splitlines_flatten_le (hlines : ∀ line ∈ lines, IsLine lf cr line) :
    (splitlines lf cr lines.flatten).length ≤ lines.length := by
  induction lines with
  | nil => simp
  | cons line lines ih =>
    rw [List.forall_mem_cons] at hlines
    have hcut := length_splitlines_append_le lf cr line lines.flatten
    rw [hlines.1, List.length_singleton] at hcut
    have hrest := ih hlines.2
    rw [List.flatten_cons, List.length_cons]
    omega

/-- A lone `cr` before a bare `lf`: the two lines read as one. -/
theorem length_splitlines_flatten_lt {before after : List (List α)} (hlf : lf ≠ cr)
    (hlines : ∀ line' ∈ before ++ line :: [lf] :: after, IsLine lf cr line') (hcr : line.getLast? = some cr) :
    (splitlines lf cr (before ++ line :: [lf] :: after).flatten).length < (before ++ line :: [lf] :: after).length := by
  have hjoined : IsLine lf cr (line ++ [lf]) := by
    apply (hlines line (by simp)).snoc
    rw [hcr]
    simpa using hlf.symm
  have hle := @length_splitlines_flatten_le α _ lf cr (before ++ (line ++ [lf]) :: after) (by
    intro line' hmem
    rw [List.mem_append, List.mem_cons] at hmem
    rcases hmem with hmem | rfl | hmem
    · exact hlines line' (by simp [hmem])
    · exact hjoined
    · exact hlines line' (by simp [hmem]))
  have hsame : (before ++ line :: [lf] :: after).flatten = (before ++ (line ++ [lf]) :: after).flatten := by simp
  rw [hsame]
  simp only [List.length_append, List.length_cons] at hle ⊢
  omega

/-- No line of a text runs into the next. -/
theorem isChain_closed (lf cr : α) (text : List α) : (splitlines lf cr text).IsChain (Closed lf cr) := by
  induction text with
  | nil => exact .nil
  | cons b rest ih =>
    cases hrest : splitlines lf cr rest with
    | nil =>
      rw [splitlines, hrest]
      split <;> exact .singleton _
    | cons first lines =>
      have hne : first ≠ [] := (isLine_of_mem (show first ∈ splitlines lf cr rest by simp [hrest])).ne_nil
      by_cases hb : b = lf ∨ b = cr ∧ rest.head? ≠ some lf
      · have hhead : rest.head? = first.head? := by
          rw [← flatten_splitlines lf cr rest, hrest, List.flatten_cons, List.head?_append_of_ne_nil _ hne]
        rw [hrest] at ih
        rw [splitlines_end hb, hrest, List.isChain_cons_cons]
        refine ⟨?_, ih⟩
        rw [hhead] at hb
        simpa [Closed] using hb
      · rw [splitlines_cons hb hrest]
        rw [hrest] at ih
        obtain ⟨c, first', rfl⟩ := List.exists_cons_of_ne_nil hne
        cases lines with
        | nil => exact .singleton _
        | cons next lines =>
          rw [List.isChain_cons_cons] at ih ⊢
          exact ⟨by simpa [Closed] using ih.1, ih.2⟩

/-- **What is read of each line** is the same once the lines are put together, if a `lf` more at the end of a line makes no
difference to it and nothing is read of an empty line: whatever line ends with a bare `cr` and runs into the `lf` of an empty one. -/
theorem filterMap_splitlines_flatten {β : Type} {v : List α → Option β} (hsnoc : ∀ line, v (line ++ [lf]) = v line)
    (hempty : v [lf] = none) : ∀ lines : List (List α), (∀ line ∈ lines, IsLine lf cr line) →
      (lines.Pairwise fun line _ => Ended lf cr line) → (splitlines lf cr lines.flatten).filterMap v = lines.filterMap v
  | [], _, _ => rfl
  | line :: rest, hlines, hended => by
    rw [List.forall_mem_cons] at hlines
    rw [List.pairwise_cons] at hended
    rw [List.flatten_cons]
    by_cases hclosed : Closed lf cr line rest.flatten
    · rw [splitlines_append hlines.1 hclosed, List.filterMap_cons, List.filterMap_cons,
        filterMap_splitlines_flatten hsnoc hempty rest hlines.2 hended.2]
    · match rest with
      | [] => rw [List.flatten_nil, List.append_nil, hlines.1]
      | next :: rest =>
        rw [List.forall_mem_cons] at hlines
        rw [List.pairwise_cons] at hended
        obtain ⟨hlf, hcr⟩ := not_or.1 hclosed
        have hend : line.getLast? = some cr := (hended.1 next List.mem_cons_self).resolve_left hlf
        have hhead : next.head? = some lf := by
          by_contra hne
          refine hcr ⟨hend, ?_⟩
          rwa [List.flatten_cons, List.head?_append_of_ne_nil _ hlines.2.1.ne_nil]
        obtain rfl := hlines.2.1.eq_of_head? hhead
        have hjoined : IsLine lf cr (line ++ [lf]) := hlines.1.snoc hlf
        rw [List.flatten_cons, ← List.append_assoc, splitlines_append hjoined (.inl (by simp)), List.filterMap_cons, hsnoc,
          List.filterMap_cons, List.filterMap_cons, hempty,
          filterMap_splitlines_flatten hsnoc hempty rest hlines.2.2 hended.2.2]

end Lines
