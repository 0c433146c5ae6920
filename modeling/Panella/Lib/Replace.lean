import Mathlib.Data.List.Infix

/-!
# Replacing the occurrences of words by a mark

`text.replace(word, mark)` of Python puts a mark for every occurrence of a word, from the left. A word that has nothing in common with
the mark is never made by it: it occurs in what comes out only where it did before. So words can be masked one after another in any
order, and none of them is left (**`not_infix_mask`**). In the order of their lengths, the longest first, no part of a word is left
either: the mark takes its place, and what stands before and after it is masked by itself (**`mask_occurrence`**).
-/

namespace Replace

variable {α : Type*} {w v mark cs xs ys u : List α} {n : Nat} {ws : List (List α)}

/-! ## Borders -/

/-- The word stands across the border of two lists. -/
def Straddles (w xs ys : List α) : Prop := ∃ u v, u ≠ [] ∧ v ≠ [] ∧ w = u ++ v ∧ u <:+ xs ∧ v <+: ys

/-- No occurrence of the word overlaps `v` between `xs` and `ys` and goes beyond it. -/
def Apart (w xs v ys : List α) : Prop := ¬ Straddles w xs (v ++ ys) ∧ ¬ Straddles w (xs ++ v) ys

theorem straddles_iff : Straddles w xs ys ↔ ∃ n < w.length, 0 < n ∧ w.take n <:+ xs ∧ w.drop n <+: ys := by
  constructor
  · rintro ⟨u, v, hu, hv, rfl, hs, hp⟩
    refine ⟨u.length, ?_, List.length_pos_iff.2 hu, by simpa using hs, by simpa using hp⟩
    have := List.length_pos_iff.2 hv
    rw [List.length_append]
    omega
  · rintro ⟨n, hn, hpos, hs, hp⟩
    refine ⟨w.take n, w.drop n, ?_, ?_, (List.take_append_drop n w).symm, hs, hp⟩
    · rw [← List.length_pos_iff, List.length_take]
      omega
    · rw [← List.length_pos_iff, List.length_drop]
      omega

instance [DecidableEq α] : Decidable (Straddles w xs ys) := decidable_of_iff _ straddles_iff.symm

instance [DecidableEq α] : Decidable (Apart w xs v ys) := inferInstanceAs (Decidable (_ ∧ _))

/-- The word cannot come to stand in what is made of a list: a part of it that has nothing in common with the mark is not there. -/
def Inert (mark w cs : List α) : Prop := ∃ p, p <:+: w ∧ p.Disjoint mark ∧ ¬ p <:+: cs

theorem Inert.mono {cs' : List α} (h : Inert mark w cs) (hcs : cs' <:+: cs) : Inert mark w cs' := by
  obtain ⟨p, hp, hdisjoint, hnot⟩ := h
  exact ⟨p, hp, hdisjoint, fun hin => hnot (hin.trans hcs)⟩

theorem prefix_append_cases (h : w <+: xs ++ ys) : w <+: xs ∨ ∃ v, w = xs ++ v ∧ v <+: ys := by
  obtain ⟨t, ht⟩ := h
  rcases List.append_eq_append_iff.1 ht with ⟨a, hxs, -⟩ | ⟨a, hw, hys⟩
  · exact .inl ⟨a, hxs.symm⟩
  · exact .inr ⟨a, hw, t, hys.symm⟩

theorem suffix_append_cases (h : w <:+ xs ++ ys) : w <:+ ys ∨ ∃ u, w = u ++ ys ∧ u <:+ xs := by
  obtain ⟨t, ht⟩ := h
  rcases List.append_eq_append_iff.1 ht with ⟨a, hxs, hw⟩ | ⟨a, -, hys⟩
  · exact .inr ⟨a, hw, t, hxs.symm⟩
  · exact .inl ⟨a, hys.symm⟩

theorem eq_nil_of_mark (hu : u.Disjoint mark) (h : u ⊆ mark) : u = [] :=
  List.eq_nil_iff_forall_not_mem.2 fun _ ha => hu ha (h ha)

theorem prefix_of_mark (hmark : mark ≠ []) (hu : u.Disjoint mark) (h : u <+: mark ++ cs) : u = [] := by
  obtain ⟨m, mark, rfl⟩ := List.exists_cons_of_ne_nil hmark
  cases u with
  | nil => rfl
  | cons a u =>
    obtain ⟨rfl, -⟩ := List.cons_prefix_cons.1 h
    exact absurd List.mem_cons_self (hu List.mem_cons_self)

theorem infix_of_mark (hu : u.Disjoint mark) (h : u <:+: mark ++ cs) : u <:+: cs := by
  rcases List.infix_append_iff.1 h with hin | hin | ⟨a, b, rfl, ha, hb⟩
  · rw [eq_nil_of_mark hu hin.subset]
    exact List.nil_infix
  · exact hin
  · rw [eq_nil_of_mark (List.disjoint_of_disjoint_append_left_left hu) ha.subset]
    exact hb.isInfix

/-- A mark parts what it stands between. -/
theorem infix_append_mark (hmark : mark ≠ []) (hu : u.Disjoint mark) (h : u <:+: xs ++ (mark ++ ys)) : u <:+: xs ∨ u <:+: ys := by
  rcases List.infix_append_iff.1 h with hin | hin | ⟨a, b, rfl, ha, hb⟩
  · exact .inl hin
  · exact .inr (infix_of_mark hu hin)
  · rw [prefix_of_mark hmark (List.disjoint_of_disjoint_append_left_right hu) hb, List.append_nil]
    exact .inl ha.isInfix

theorem infix_intercalate {xss : List (List α)} (hmark : mark ≠ []) (hne : u ≠ []) (hu : u.Disjoint mark)
    (h : u <:+: mark.intercalate xss) : ∃ xs ∈ xss, u <:+: xs := by
  induction xss with
  | nil => exact absurd (List.eq_nil_of_infix_nil h) hne
  | cons xs xss ih =>
    cases xss with
    | nil => exact ⟨xs, List.mem_singleton_self xs, by simpa using h⟩
    | cons ys xss =>
      rw [List.intercalate_cons_cons, List.append_assoc] at h
      rcases infix_append_mark hmark hu h with hin | hin
      · exact ⟨xs, List.mem_cons_self, hin⟩
      · obtain ⟨zs, hzs, hin⟩ := ih hin
        exact ⟨zs, List.mem_cons_of_mem _ hzs, hin⟩

theorem suffix_of_mark (hu : u.Disjoint mark) (h : u <:+ mark ++ cs) : u <:+ cs := by
  rcases suffix_append_cases h with hin | ⟨a, rfl, ha⟩
  · exact hin
  · rw [eq_nil_of_mark (List.disjoint_of_disjoint_append_left_left hu) ha.subset]
    exact List.suffix_rfl

/-! ## `replace` -/

variable [DecidableEq α]

/-- The list with the mark for the occurrences of a word, from the left; the first elements are skipped. -/
def replaceFrom (w mark : List α) : Nat → List α → List α
  | _, [] => []
  | n + 1, _ :: cs => replaceFrom w mark n cs
  | 0, c :: cs => if w.isPrefixOf (c :: cs) then mark ++ replaceFrom w mark (w.length - 1) cs else c :: replaceFrom w mark 0 cs

/-- `cs.replace(w, mark)`, for a word that is not empty. -/
def replace (w mark cs : List α) : List α := replaceFrom w mark 0 cs

/-- Every word is masked, one after another. -/
def mask (mark : List α) (ws : List (List α)) (cs : List α) : List α := ws.foldl (fun out w => replace w mark out) cs

@[simp] theorem replaceFrom_nil (n : Nat) : replaceFrom w mark n [] = [] := by cases n <;> rfl

theorem replaceFrom_hit {c : α} (h : w <+: c :: cs) :
    replaceFrom w mark 0 (c :: cs) = mark ++ replaceFrom w mark (w.length - 1) cs := by
  rw [replaceFrom, if_pos (List.isPrefixOf_iff_prefix.2 h)]

theorem replaceFrom_miss {c : α} (h : ¬ w <+: c :: cs) :
    replaceFrom w mark 0 (c :: cs) = c :: replaceFrom w mark 0 cs := by
  rw [replaceFrom, if_neg (fun hp => h (List.isPrefixOf_iff_prefix.1 hp))]

theorem replaceFrom_drop (n : Nat) (cs : List α) : replaceFrom w mark n cs = replace w mark (cs.drop n) := by
  induction cs generalizing n with
  | nil => simp [replace]
  | cons c cs ih =>
    cases n with
    | zero => rfl
    | succ n => exact ih n

@[simp] theorem mask_nil (cs : List α) : mask mark [] cs = cs := rfl

@[simp] theorem mask_cons (w : List α) (ws : List (List α)) (cs : List α) :
    mask mark (w :: ws) cs = mask mark ws (replace w mark cs) := rfl

theorem mask_append (ws ws' : List (List α)) (cs : List α) : mask mark (ws ++ ws') cs = mask mark ws' (mask mark ws cs) :=
  List.foldl_append

/-! ## Words that have nothing in common with the mark -/

/-- What is at the beginning afterwards was there before. -/
theorem prefix_replaceFrom (hmark : mark ≠ []) (hu : u.Disjoint mark) (h : u <+: replaceFrom w mark n cs) : u <+: cs.drop n := by
  induction cs generalizing n u with
  | nil => simpa using h
  | cons c cs ih =>
    cases n with
    | succ n => exact ih hu h
    | zero =>
      by_cases hw : w <+: c :: cs
      · rw [replaceFrom_hit hw] at h
        rw [prefix_of_mark hmark hu h]
        exact List.nil_prefix
      · rw [replaceFrom_miss hw] at h
        cases u with
        | nil => exact List.nil_prefix
        | cons a u =>
          obtain ⟨rfl, hrest⟩ := List.cons_prefix_cons.1 h
          exact List.cons_prefix_cons.2 ⟨rfl, ih (List.disjoint_of_disjoint_cons_left hu) hrest⟩

theorem replaceFrom_eq_of_disjoint (hmark : mark ≠ []) (h : (replaceFrom w mark 0 cs).Disjoint mark) :
    replaceFrom w mark 0 cs = cs := by
  induction cs with
  | nil => rfl
  | cons c cs ih =>
    by_cases hw : w <+: c :: cs
    · rw [replaceFrom_hit hw] at h
      exact absurd (eq_nil_of_mark (List.disjoint_of_disjoint_append_left_left h) (fun _ ha => ha)) hmark
    · rw [replaceFrom_miss hw] at h ⊢
      rw [ih (List.disjoint_of_disjoint_cons_left h)]

/-- What is at the end afterwards was there before. -/
theorem suffix_replaceFrom (hmark : mark ≠ []) (hu : u.Disjoint mark) (h : u <:+ replaceFrom w mark n cs) : u <:+ cs := by
  induction cs generalizing n with
  | nil => simpa using h
  | cons c cs ih =>
    cases n with
    | succ n => exact (ih h).trans (List.suffix_cons c cs)
    | zero =>
      by_cases hw : w <+: c :: cs
      · rw [replaceFrom_hit hw] at h
        exact (ih (suffix_of_mark hu h)).trans (List.suffix_cons c cs)
      · rw [replaceFrom_miss hw] at h
        rcases List.suffix_cons_iff.1 h with rfl | hrest
        · rw [replaceFrom_eq_of_disjoint hmark (List.disjoint_of_disjoint_cons_left hu)]
        · exact (ih hrest).trans (List.suffix_cons c cs)

/-- **Nothing new is made.** -/
theorem infix_replaceFrom (hmark : mark ≠ []) (hu : u.Disjoint mark) (h : u <:+: replaceFrom w mark n cs) : u <:+: cs.drop n := by
  induction cs generalizing n with
  | nil => simpa using h
  | cons c cs ih =>
    cases n with
    | succ n => exact ih h
    | zero =>
      by_cases hw : w <+: c :: cs
      · rw [replaceFrom_hit hw] at h
        have hrest := ih (infix_of_mark hu h)
        exact hrest.trans ((List.drop_suffix _ cs).isInfix.trans (List.suffix_cons c cs).isInfix)
      · rw [replaceFrom_miss hw] at h
        rcases List.infix_cons_iff.1 h with hp | hin
        · rw [← replaceFrom_miss hw] at hp
          exact (prefix_replaceFrom hmark hu hp).isInfix
        · exact (ih hin).trans (List.suffix_cons c cs).isInfix

/-- The word that is replaced is gone. -/
theorem not_infix_replaceFrom (hmark : mark ≠ []) (hne : w ≠ []) (hw : w.Disjoint mark) : ¬ w <:+: replaceFrom w mark n cs := by
  induction cs generalizing n with
  | nil => simpa using hne
  | cons c cs ih =>
    cases n with
    | succ n => exact ih
    | zero =>
      intro h
      by_cases hp : w <+: c :: cs
      · rw [replaceFrom_hit hp] at h
        exact ih (infix_of_mark hw h)
      · rw [replaceFrom_miss hp] at h
        rcases List.infix_cons_iff.1 h with hfirst | hin
        · rw [← replaceFrom_miss hp] at hfirst
          exact hp (prefix_replaceFrom hmark hw hfirst)
        · exact ih hin

/-- A word that does not occur. -/
theorem replace_of_not_infix (h : ¬ w <:+: cs) : replace w mark cs = cs := by
  induction cs with
  | nil => rfl
  | cons c cs ih =>
    have hrest : ¬ w <:+: cs := fun hin => h (List.infix_cons hin)
    rw [replace, replaceFrom_miss fun hp => h hp.isInfix]
    exact congrArg (c :: ·) (ih hrest)

theorem replace_self (hne : w ≠ []) : replace w mark w = mark := by
  obtain ⟨c, cs, rfl⟩ := List.exists_cons_of_ne_nil hne
  rw [replace, replaceFrom_hit List.prefix_rfl, replaceFrom_drop]
  simp [replace]

/-! ## Many words -/

theorem infix_mask (hmark : mark ≠ []) (hu : u.Disjoint mark) (h : u <:+: mask mark ws cs) : u <:+: cs := by
  induction ws generalizing cs with
  | nil => exact h
  | cons w ws ih => exact infix_replaceFrom hmark hu (ih h)

/-- **No word is left**, in whatever order they are masked. -/
theorem not_infix_mask (hmark : mark ≠ []) (hmem : w ∈ ws) (hne : w ≠ []) (hw : w.Disjoint mark) : ¬ w <:+: mask mark ws cs := by
  induction ws generalizing cs with
  | nil => cases hmem
  | cons w' ws ih =>
    rcases List.mem_cons.1 hmem with rfl | hmem
    · exact fun h => not_infix_replaceFrom hmark hne hw (infix_mask hmark hw h)
    · exact ih hmem

theorem mask_of_not_infix (h : ∀ w ∈ ws, ¬ w <:+: cs) : mask mark ws cs = cs := by
  induction ws with
  | nil => rfl
  | cons w ws ih =>
    obtain ⟨hw, hws⟩ := List.forall_mem_cons.1 h
    rw [mask_cons, replace_of_not_infix hw, ih hws]

theorem Inert.replace {w' : List α} (hmark : mark ≠ []) (h : Inert mark w cs) : Inert mark w (replace w' mark cs) := by
  obtain ⟨p, hp, hdisjoint, hnot⟩ := h
  exact ⟨p, hp, hdisjoint, fun hin => hnot (infix_replaceFrom hmark hdisjoint hin)⟩

/-- The inert words can be left out. -/
theorem mask_filter {P : List α → Prop} [DecidablePred P] (hmark : mark ≠ []) (h : ∀ w ∈ ws, ¬ P w → Inert mark w cs) :
    mask mark ws cs = mask mark (ws.filter P) cs := by
  induction ws generalizing cs with
  | nil => rfl
  | cons w ws ih =>
    obtain ⟨hw, hws⟩ := List.forall_mem_cons.1 h
    by_cases hP : P w
    · rw [List.filter_cons_of_pos (by simpa using hP), mask_cons, mask_cons]
      exact ih fun w' hw' hnot => (hws w' hw' hnot).replace hmark
    · obtain ⟨p, hp, -, hnot⟩ := hw hP
      rw [List.filter_cons_of_neg (by simpa using hP), mask_cons, replace_of_not_infix fun hin => hnot (hp.trans hin)]
      exact ih hws

/-! ## Where a word stands by itself -/

/-- What does not stand across a border is replaced on both sides of it. -/
theorem replaceFrom_append (h : ¬ Straddles w xs ys) (hn : n ≤ xs.length) :
    replaceFrom w mark n (xs ++ ys) = replaceFrom w mark n xs ++ replace w mark ys := by
  induction xs generalizing n with
  | nil =>
    obtain rfl : n = 0 := Nat.le_zero.1 hn
    rfl
  | cons c xs ih =>
    have hrest : ¬ Straddles w xs ys := fun ⟨u, v, hu, hv, hw, hs, hp⟩ => h ⟨u, v, hu, hv, hw, hs.trans (List.suffix_cons c xs), hp⟩
    cases n with
    | succ n => exact ih hrest (Nat.le_of_succ_le_succ hn)
    | zero =>
      have hiff : w <+: c :: (xs ++ ys) ↔ w <+: c :: xs := by
        constructor
        · intro hp
          rw [← List.cons_append] at hp
          rcases prefix_append_cases hp with hin | ⟨v, rfl, hv⟩
          · exact hin
          · by_cases hne : v = []
            · rw [hne, List.append_nil]
            · exact absurd ⟨_, v, List.cons_ne_nil c xs, hne, rfl, List.suffix_rfl, hv⟩ h
        · exact fun hp => hp.trans (List.prefix_append (c :: xs) ys)
      by_cases hw : w <+: c :: xs
      · have hlen : w.length - 1 ≤ xs.length := by
          have := hw.length_le
          rw [List.length_cons] at this
          omega
        rw [List.cons_append, replaceFrom_hit (hiff.2 hw), replaceFrom_hit hw, ih hrest hlen, List.append_assoc]
      · rw [List.cons_append, replaceFrom_miss (fun hp => hw (hiff.1 hp)), replaceFrom_miss hw,
          ih hrest (Nat.zero_le _), List.cons_append]

theorem replace_append (h : ¬ Straddles w xs ys) : replace w mark (xs ++ ys) = replace w mark xs ++ replace w mark ys :=
  replaceFrom_append h (Nat.zero_le _)

/-- A mark is a border that no word stands across. -/
theorem replace_mark (hmark : mark ≠ []) (hne : w ≠ []) (hw : w.Disjoint mark) :
    replace w mark (xs ++ (mark ++ ys)) = replace w mark xs ++ (mark ++ replace w mark ys) := by
  have hleft : ¬ Straddles w xs (mark ++ ys) := by
    rintro ⟨u, v, -, hv, rfl, -, hp⟩
    exact hv (prefix_of_mark hmark (List.disjoint_of_disjoint_append_left_right hw) hp)
  have hright : ¬ Straddles w mark ys := by
    rintro ⟨u, v, hu, -, rfl, hs, -⟩
    exact hu (eq_nil_of_mark (List.disjoint_of_disjoint_append_left_left hw) hs.subset)
  have hin : ¬ w <:+: mark := fun hin => hne (eq_nil_of_mark hw hin.subset)
  rw [replace_append hleft, replace_append hright, replace_of_not_infix hin]

theorem mask_mark (hmark : mark ≠ []) (hne : ∀ w ∈ ws, w ≠ []) (hws : ∀ w ∈ ws, w.Disjoint mark) :
    mask mark ws (xs ++ (mark ++ ys)) = mask mark ws xs ++ (mark ++ mask mark ws ys) := by
  induction ws generalizing xs ys with
  | nil => rfl
  | cons w ws ih =>
    obtain ⟨hw, hws⟩ := List.forall_mem_cons.1 hws
    obtain ⟨hn, hne⟩ := List.forall_mem_cons.1 hne
    rw [mask_cons, replace_mark hmark hn hw, ih hne hws]
    rfl

/-- It stays apart while another word is masked. -/
theorem Apart.replace {w' : List α} (hmark : mark ≠ []) (hw : w.Disjoint mark) (h : Apart w xs v ys) :
    Apart w (replace w' mark xs) v (replace w' mark ys) := by
  constructor
  · rintro ⟨u, u', hu, hu', rfl, hs, hp⟩
    have hdisjoint := List.disjoint_of_disjoint_append_left_left hw
    have hdisjoint' := List.disjoint_of_disjoint_append_left_right hw
    refine h.1 ⟨u, u', hu, hu', rfl, suffix_replaceFrom hmark hdisjoint hs, ?_⟩
    rcases prefix_append_cases hp with hin | ⟨r, rfl, hr⟩
    · exact hin.trans (List.prefix_append v ys)
    · have hrest := prefix_replaceFrom hmark (List.disjoint_of_disjoint_append_left_right hdisjoint') hr
      exact (List.prefix_append_right_inj v).2 hrest
  · rintro ⟨u, u', hu, hu', rfl, hs, hp⟩
    have hdisjoint := List.disjoint_of_disjoint_append_left_left hw
    have hdisjoint' := List.disjoint_of_disjoint_append_left_right hw
    refine h.2 ⟨u, u', hu, hu', rfl, ?_, prefix_replaceFrom hmark hdisjoint' hp⟩
    rcases suffix_append_cases hs with hin | ⟨r, rfl, hr⟩
    · exact hin.trans (List.suffix_append xs v)
    · obtain ⟨t, rfl⟩ := suffix_replaceFrom hmark (List.disjoint_of_disjoint_append_left_left hdisjoint) hr
      exact ⟨t, by rw [List.append_assoc]⟩

/-- Both sides of `v` by themselves, and `v`. -/
theorem Apart.replace_append (h : Apart w xs v ys) :
    Replace.replace w mark (xs ++ (v ++ ys)) =
      Replace.replace w mark xs ++ (Replace.replace w mark v ++ Replace.replace w mark ys) := by
  have hright : ¬ Straddles w v ys := fun ⟨u, u', hu, hu', hw, hs, hp⟩ =>
    h.2 ⟨u, u', hu, hu', hw, hs.trans (List.suffix_append xs v), hp⟩
  rw [Replace.replace_append h.1, Replace.replace_append hright]

/-- **A word goes as a whole.** The words are masked from the longest to the shortest: where one of them stands and no other that is
as long overlaps it, the mark is in its place, and what is before and after it is masked by itself. -/
theorem mask_occurrence (hmark : mark ≠ []) (hne : ∀ w ∈ ws, w ≠ []) (hws : ∀ w ∈ ws, w.Disjoint mark)
    (hlength : ws.Pairwise fun w w' => w'.length ≤ w.length) (hv : v ∈ ws) (hapart : ∀ w ∈ ws, v.length ≤ w.length → Apart w xs v ys) :
    mask mark ws (xs ++ (v ++ ys)) = mask mark ws xs ++ (mark ++ mask mark ws ys) := by
  induction ws generalizing xs ys with
  | nil => cases hv
  | cons w ws ih =>
    obtain ⟨hn, hne⟩ := List.forall_mem_cons.1 hne
    obtain ⟨hw, hws⟩ := List.forall_mem_cons.1 hws
    obtain ⟨hshorter, hlength⟩ := List.pairwise_cons.1 hlength
    obtain ⟨hfirst, hapart⟩ := List.forall_mem_cons.1 hapart
    simp only [mask_cons]
    by_cases heq : w = v
    · subst heq
      rw [(hfirst le_rfl).replace_append, replace_self hn, mask_mark hmark hne hws]
    · have hmem : v ∈ ws := (List.mem_cons.1 hv).resolve_left (Ne.symm heq)
      have hin : ¬ w <:+: v := fun hin => heq (hin.eq_of_length (le_antisymm hin.length_le (hshorter v hmem)))
      rw [(hfirst (hshorter v hmem)).replace_append, replace_of_not_infix hin]
      exact ih hne hws hlength hmem fun w' hw' hle => (hapart w' hw' hle).replace hmark (hws w' hw')

end Replace
