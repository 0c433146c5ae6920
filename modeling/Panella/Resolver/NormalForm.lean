import Panella.Lib.Pieces
import Panella.Resolver.Normalize

/-!
# Where normalization is stable

`resolver_normalize` drops the stopwords of a surface and then takes the plural off the tokens that are left. What it returns
is read back token by token (`resolverNormalize_join`), and no token is folded twice (`foldToken_foldToken`). But a token may
fold to a stopword, and that is dropped the second time: "news" becomes "new", and "new" nothing. `foldsToStopword` lists the
tokens that do.
-/

namespace Panella.Resolver

open PyText

/-- The plurals of the stopwords. -/
def foldsToStopword : List String :=
  ["thes", "fors", "currents", "currentlys", "currentlies", "primarys", "primaries", "mains", "news", "favorites", "favourites",
   "preferreds", "usuals", "regulars", "personals", "mies"]

/-- The tokens of a surface, as `extractor_normalize_domain(value).split("_")`. -/
def surfaceWords (u : Unicode) (value : String) : List (List Char) := (extractorNormalizeDomain u value).toList.splitOn '_'

/-- `if not token or token in STOPWORDS: continue`. -/
def kept (t : List Char) : Bool := t ≠ [] ∧ String.ofList t ∉ stopwords

def join (ts : List (List Char)) : String := String.ofList (['_'].intercalate ts)

/-- What is between two underscores. -/
def IsToken (t : List Char) : Prop := t ≠ [] ∧ ∀ c ∈ t, isDomainChar c = true

variable {u : Unicode} {s : String} {t : List Char} {ts ts' : List (List Char)} {p : Char → Bool} {r c : Char}

theorem resolverNormalize_eq : resolverNormalize u s = join (((surfaceWords u s).filter kept).map foldToken) := rfl

/-! ## Folding a token -/

theorem ends_in_s (h : ['s'] <:+ t) : ∃ pre, t = pre ++ ['s'] ∧ t.take (t.length - 1) = pre := by
  obtain ⟨pre, rfl⟩ := h
  exact ⟨pre, rfl, by simp⟩

theorem ends_in_ies (h : pluralYSuffix.toList <:+ t) : ∃ pre, t = pre ++ ['i', 'e', 's'] ∧ t.take (t.length - 3) = pre := by
  obtain ⟨pre, rfl⟩ := h
  exact ⟨pre, rfl, by simp [pluralYSuffix]⟩

/-- **What folding does to a token**: nothing, or one ending. -/
theorem foldToken_cases (t : List Char) : foldToken t = t ∨
    (∃ pre, t = pre ++ ['i', 'e', 's'] ∧ pre ≠ [] ∧ foldToken t = pre ++ ['y']) ∨
    ∃ pre, t = pre ++ ['s'] ∧ 3 ≤ pre.length ∧ ¬ ['s'] <:+ pre ∧ foldToken t = pre := by
  unfold foldToken
  split
  · next h =>
    obtain ⟨hlen, hs, hss, -⟩ := h
    split
    · next hies =>
      obtain ⟨pre, rfl, htake⟩ := ends_in_ies hies
      refine .inr (.inl ⟨pre, rfl, ?_, by rw [htake]⟩)
      rintro rfl
      simp at hlen
    · obtain ⟨pre, rfl, htake⟩ := ends_in_s hs
      refine .inr (.inr ⟨pre, rfl, ?_, ?_, htake⟩)
      · rw [List.length_append, List.length_singleton] at hlen
        omega
      · rintro ⟨rest, rfl⟩
        exact hss ⟨rest, by simp⟩
  · exact .inl rfl

theorem isToken_foldToken (h : IsToken t) : IsToken (foldToken t) := by
  rcases foldToken_cases t with he | ⟨pre, rfl, hne, he⟩ | ⟨pre, rfl, hlen, -, he⟩
  · rw [he]
    exact h
  · rw [he]
    refine ⟨by simp, fun c hc => ?_⟩
    rcases List.mem_append.1 hc with hc | hc
    · exact h.2 c (List.mem_append_left _ hc)
    · rw [List.mem_singleton.1 hc]
      decide
  · rw [he]
    refine ⟨?_, fun c hc => h.2 c (List.mem_append_left _ hc)⟩
    rintro rfl
    simp at hlen

/-- **A token is folded once.** -/
theorem foldToken_foldToken (t : List Char) : foldToken (foldToken t) = foldToken t := by
  have hfix : ∀ t : List Char, ¬ ['s'] <:+ t → foldToken t = t := by
    intro t h
    unfold foldToken
    rw [if_neg fun hs => h hs.2.1]
  rcases foldToken_cases t with he | ⟨pre, rfl, -, he⟩ | ⟨pre, rfl, -, hs, he⟩
  · rw [he, he]
  · rw [he]
    apply hfix
    rintro ⟨rest, hrest⟩
    have hlast := congrArg List.getLast? hrest
    simp at hlast
  · rw [he]
    exact hfix pre hs

/-- **The tokens that fold to a stopword.** -/
theorem folded_mem_stopwords_iff (h : String.ofList t ∉ stopwords) :
    String.ofList (foldToken t) ∈ stopwords ↔ String.ofList t ∈ foldsToStopword := by
  constructor
  · intro hmem
    rcases foldToken_cases t with he | ⟨pre, rfl, -, he⟩ | ⟨pre, rfl, hlen, -, he⟩
    · rw [he] at hmem
      exact absurd hmem h
    · have hall : ∀ w ∈ stopwords, ['y'] <:+ w.toList → String.ofList (w.toList.dropLast ++ ['i', 'e', 's']) ∈ foldsToStopword := by
        decide
      rw [he] at hmem
      have hin := hall _ hmem (by simp)
      rwa [String.toList_ofList, List.dropLast_concat] at hin
    · have hall : ∀ w ∈ stopwords, 3 ≤ w.toList.length → String.ofList (w.toList ++ ['s']) ∈ foldsToStopword := by decide
      rw [he] at hmem
      have hin := hall _ hmem (by rwa [String.toList_ofList])
      rwa [String.toList_ofList] at hin
  · intro hmem
    have hall : ∀ w ∈ foldsToStopword, String.ofList (foldToken w.toList) ∈ stopwords := by decide
    have hin := hall _ hmem
    rwa [String.toList_ofList] at hin

/-! ## Reading the tokens back -/

theorem mem_subRuns {replaced : Bool} {cs : List Char} (h : c ∈ subRuns p r replaced cs) : c = r ∨ (p c = false ∧ c ∈ cs) := by
  induction cs generalizing replaced with
  | nil => cases h
  | cons d cs ih =>
    have hrest : ∀ {b}, c ∈ subRuns p r b cs → c = r ∨ (p c = false ∧ c ∈ d :: cs) := by
      intro b hb
      rcases ih hb with hr | ⟨hp, hc⟩
      · exact .inl hr
      · exact .inr ⟨hp, List.mem_cons_of_mem d hc⟩
    unfold subRuns at h
    split at h
    · split at h
      · exact hrest h
      · rcases List.mem_cons.1 h with rfl | h
        · exact .inl rfl
        · exact hrest h
    · next hp =>
      rcases List.mem_cons.1 h with rfl | h
      · exact .inr ⟨by simpa using hp, List.mem_cons_self⟩
      · exact hrest h

/-- A normalized surface is of domain characters and underscores. -/
theorem mem_extractorNormalizeDomain (h : c ∈ (extractorNormalizeDomain u s).toList) : c = '_' ∨ isDomainChar c = true := by
  rw [extractorNormalizeDomain, strip, String.toList_ofList, String.toList_ofList] at h
  have hpre := List.rdropWhile_prefix (· = '_') ((subRuns (· = '_') '_' false
    (subRuns (fun c => !isDomainChar c) '_' false (u.lower s).toList)).dropWhile (· = '_'))
  have hmem := (List.dropWhile_suffix _).subset (hpre.subset h)
  rcases mem_subRuns hmem with hc | ⟨-, hmem⟩
  · exact .inl hc
  · rcases mem_subRuns hmem with hc | ⟨hc, -⟩
    · exact .inl hc
    · exact .inr (by simpa using hc)

theorem mem_intercalate (h : t ∈ ts) (hc : c ∈ t) : c ∈ ['_'].intercalate ts := by
  induction ts with
  | nil => cases h
  | cons t' ts ih =>
    cases ts with
    | nil =>
      rw [List.mem_singleton.1 h] at hc
      rwa [List.intercalate_singleton]
    | cons t'' ts =>
      rw [List.intercalate_cons_cons]
      rcases List.mem_cons.1 h with rfl | h
      · exact List.mem_append_left _ (List.mem_append_left _ hc)
      · exact List.mem_append_right _ (ih h)

theorem isToken_of_mem (h : t ∈ surfaceWords u s) (hne : t ≠ []) : IsToken t := by
  refine ⟨hne, fun c hc => ?_⟩
  have hmem : c ∈ (extractorNormalizeDomain u s).toList := by
    have hparts := mem_intercalate h hc
    rwa [surfaceWords, List.intercalate_splitOn] at hparts
  rcases mem_extractorNormalizeDomain hmem with rfl | hdomain
  · exact absurd hc (not_mem_of_mem_splitOn h)
  · exact hdomain

theorem IsToken.no_underscore (h : IsToken t) : '_' ∉ t := by
  intro hmem
  have hdomain := h.2 '_' hmem
  revert hdomain
  decide

/-- The tokens of a joined text are those that were joined. -/
theorem splitOn_join (h : ∀ t ∈ ts, IsToken t) (hne : ts ≠ []) : (join ts).toList.splitOn '_' = ts := by
  rw [join, String.toList_ofList]
  exact List.splitOn_intercalate '_' (fun t ht => (h t ht).no_underscore) hne

theorem join_injective (h : ∀ t ∈ ts, IsToken t) (h' : ∀ t ∈ ts', IsToken t) (he : join ts = join ts') : ts = ts' := by
  have hnil : ∀ {ts : List (List Char)}, (∀ t ∈ ts, IsToken t) → ts ≠ [] → join ts ≠ join [] := by
    intro ts h hne hempty
    have hsplit := splitOn_join h hne
    rw [hempty] at hsplit
    have hfirst : ([] : List Char) ∈ ts := by
      rw [← hsplit]
      exact List.mem_singleton.2 rfl
    exact (h [] hfirst).1 rfl
  by_cases hts : ts = []
  · by_cases hts' : ts' = []
    · rw [hts, hts']
    · exact absurd (he.symm.trans (by rw [hts])) (hnil h' hts')
  · by_cases hts' : ts' = []
    · exact absurd (he.trans (by rw [hts'])) (hnil h hts)
    · rw [← splitOn_join h hts, he, splitOn_join h' hts']

/-- A text of clean pieces between single underscores has no run to replace. -/
theorem subRuns_join (hp : p '_' = true) (h : ∀ t ∈ ts, t ≠ [] ∧ ∀ c ∈ t, p c = false) :
    subRuns p '_' false (['_'].intercalate ts) = ['_'].intercalate ts := by
  have happ : ∀ {t cs : List Char} {b : Bool}, t ≠ [] → (∀ c ∈ t, p c = false) →
      subRuns p '_' b (t ++ cs) = t ++ subRuns p '_' false cs := by
    intro t
    induction t with
    | nil => exact fun hne _ => absurd rfl hne
    | cons c t ih =>
      intro cs b _ hc
      rw [List.cons_append, subRuns, if_neg (by rw [hc c List.mem_cons_self]; exact Bool.false_ne_true)]
      cases t with
      | nil => rfl
      | cons d t =>
        rw [ih (List.cons_ne_nil d t) fun c hmem => hc c (List.mem_cons_of_mem _ hmem)]
        rfl
  -- the flag is down before a piece and up behind an underscore; either way a piece comes first
  have hgo : ∀ {b : Bool}, ts ≠ [] → subRuns p '_' b (['_'].intercalate ts) = ['_'].intercalate ts := by
    intro b
    induction ts generalizing b with
    | nil => exact fun hne => absurd rfl hne
    | cons t ts ih =>
      intro _
      obtain ⟨hne, hclean⟩ := h t List.mem_cons_self
      have hrest : ∀ t' ∈ ts, t' ≠ [] ∧ ∀ c ∈ t', p c = false := fun t' ht' => h t' (List.mem_cons_of_mem t ht')
      cases ts with
      | nil =>
        have hself : subRuns p '_' b (t ++ []) = t ++ subRuns p '_' false [] := happ hne hclean
        rw [List.append_nil, subRuns, List.append_nil] at hself
        rwa [List.intercalate_singleton]
      | cons t' ts =>
        rw [List.intercalate_cons_cons, List.append_assoc, happ hne hclean, List.singleton_append, subRuns, if_pos hp,
          if_neg Bool.false_ne_true, ih hrest (List.cons_ne_nil t' ts)]
  cases hts : ts with
  | nil => rfl
  | cons t rest =>
    rw [← hts]
    exact hgo (by rw [hts]; exact List.cons_ne_nil t rest)

theorem isDomainChar_ascii (h : isDomainChar c = true) : c.toNat < 128 ∧ c.toLower = c := by
  simp only [isDomainChar, Bool.or_eq_true, Bool.and_eq_true, decide_eq_true_eq, Char.le_def] at h
  have hrange : c.toNat < 123 ∧ ¬ (65 ≤ c.toNat ∧ c.toNat ≤ 90) := by
    rcases h with ⟨h1, h2⟩ | ⟨h1, h2⟩
    · have h1' : (97 : Nat) ≤ c.toNat := h1
      have h2' : c.toNat ≤ 122 := h2
      omega
    · have h1' : (48 : Nat) ≤ c.toNat := h1
      have h2' : c.toNat ≤ 57 := h2
      omega
  refine ⟨by omega, ?_⟩
  unfold Char.toLower
  split
  · next hupper => exact absurd ⟨UInt32.le_iff_toNat_le.1 hupper.1, UInt32.le_iff_toNat_le.1 hupper.2⟩ hrange.2
  · rfl

/-- The characters of a joined text are in ASCII and have no case. -/
theorem join_ascii (h : ∀ t ∈ ts, IsToken t) (hc : c ∈ (join ts).toList) : c.toNat < 128 ∧ c.toLower = c := by
  rw [join, String.toList_ofList] at hc
  induction ts with
  | nil => cases hc
  | cons t ts ih =>
    have hrest : ∀ t' ∈ ts, IsToken t' := fun t' ht' => h t' (List.mem_cons_of_mem t ht')
    cases ts with
    | nil =>
      rw [List.intercalate_singleton] at hc
      exact isDomainChar_ascii ((h t List.mem_cons_self).2 c hc)
    | cons t' ts =>
      rw [List.intercalate_cons_cons, List.append_assoc, List.mem_append, List.singleton_append, List.mem_cons] at hc
      rcases hc with hc | rfl | hc
      · exact isDomainChar_ascii ((h t List.mem_cons_self).2 c hc)
      · decide
      · exact ih hrest hc

/-- Neither end of a joined text is an underscore. -/
theorem join_trim (h : ∀ t ∈ ts, IsToken t) : Trim (· = '_') (['_'].intercalate ts) := by
  have hends : ∀ {t : List Char}, IsToken t → t.head? ≠ some '_' ∧ t.getLast? ≠ some '_' := fun ht =>
    ⟨fun he => ht.no_underscore (List.mem_of_head? he), fun he => ht.no_underscore (List.mem_of_getLast? he)⟩
  have hboth : (['_'].intercalate ts).head? ≠ some '_' ∧ (['_'].intercalate ts).getLast? ≠ some '_' := by
    induction ts with
    | nil => exact ⟨by simp, by simp⟩
    | cons t ts ih =>
      have ht := h t List.mem_cons_self
      have hrest : ∀ t' ∈ ts, IsToken t' := fun t' ht' => h t' (List.mem_cons_of_mem t ht')
      cases ts with
      | nil =>
        rw [List.intercalate_singleton]
        exact hends ht
      | cons t' ts =>
        rw [List.intercalate_cons_cons, List.append_assoc]
        constructor
        · rw [List.head?_append_of_ne_nil _ ht.1]
          exact (hends ht).1
        · obtain ⟨c, cs, hcs⟩ := List.exists_cons_of_ne_nil (hrest t' List.mem_cons_self).1
          have hne : ['_'].intercalate (t' :: ts) ≠ [] := by
            rw [hcs, List.intercalate_cons_cons_left]
            exact List.cons_ne_nil _ _
          rw [List.getLast?_append_of_ne_nil _ (by simp [hne]), List.getLast?_append_of_ne_nil _ hne]
          exact (ih hrest).2
  constructor
  · intro c hc
    have hne : c ≠ '_' := fun he => hboth.1 (he ▸ hc)
    simpa using hne
  · intro c hc
    have hne : c ≠ '_' := fun he => hboth.2 (he ▸ hc)
    simpa using hne

/-- **The syntax of a joined text is normal already.** -/
theorem extractorNormalizeDomain_join (h : ∀ t ∈ ts, IsToken t) : extractorNormalizeDomain u (join ts) = join ts := by
  have hlower : (u.lower (join ts)).toList = ['_'].intercalate ts := by
    have hself : (join ts).toList.map Char.toLower = (join ts).toList := by
      rw [List.map_congr_left fun c hc => (join_ascii h hc).2, List.map_id']
    rw [u.lower_ascii _ fun c hc => (join_ascii h hc).1, hself, String.ofList_toList, join, String.toList_ofList]
  have hdomain : ∀ t ∈ ts, t ≠ [] ∧ ∀ c ∈ t, (!isDomainChar c) = false := by
    intro t ht
    refine ⟨(h t ht).1, fun c hc => ?_⟩
    rw [(h t ht).2 c hc]
    rfl
  have hplain : ∀ t ∈ ts, t ≠ [] ∧ ∀ c ∈ t, decide (c = '_') = false := by
    intro t ht
    refine ⟨(h t ht).1, fun c hc => ?_⟩
    have hne : c ≠ '_' := fun he => (h t ht).no_underscore (he ▸ hc)
    simpa using hne
  unfold extractorNormalizeDomain
  dsimp only
  rw [hlower, subRuns_join (by decide) hdomain, subRuns_join (by decide) hplain, strip, String.toList_ofList,
    strip_eq_self_iff.2 (join_trim h), join]

/-- **What is normal is read back token by token.** -/
theorem resolverNormalize_join (h : ∀ t ∈ ts, IsToken t) :
    resolverNormalize u (join ts) = join ((ts.filter kept).map foldToken) := by
  rw [resolverNormalize_eq, surfaceWords, extractorNormalizeDomain_join h]
  by_cases hts : ts = []
  · rw [hts]
    rfl
  · rw [splitOn_join h hts]

/-- The tokens that are left of a surface. -/
theorem isToken_kept (h : t ∈ (surfaceWords u s).filter kept) : IsToken t ∧ String.ofList t ∉ stopwords := by
  rw [List.mem_filter, kept, decide_eq_true_eq] at h
  exact ⟨isToken_of_mem h.1 h.2.1, h.2.2⟩

theorem isToken_folded (h : t ∈ ((surfaceWords u s).filter kept).map foldToken) : IsToken t := by
  obtain ⟨t', ht', rfl⟩ := List.mem_map.1 h
  exact isToken_foldToken (isToken_kept ht').1

/-- Folding again changes nothing; a stopword may go. -/
theorem refold_eq_self_iff : ((ts.map foldToken).filter kept).map foldToken = ts.map foldToken ↔
    ∀ t ∈ ts.map foldToken, kept t = true := by
  have hrefold : ((ts.map foldToken).filter kept).map foldToken = (ts.map foldToken).filter kept := by
    have hself : ∀ t ∈ (ts.map foldToken).filter kept, foldToken t = id t := by
      intro t ht
      obtain ⟨t', -, rfl⟩ := List.mem_map.1 (List.mem_filter.1 ht).1
      exact foldToken_foldToken t'
    rw [List.map_congr_left hself, List.map_id]
  rw [hrefold, List.filter_eq_self]

/-- **Normalization is stable but for the plurals of stopwords**: a surface is normal after one pass if and only if no token
of it folds to a stopword. -/
theorem resolverNormalize_stable_iff (u : Unicode) (s : String) :
    resolverNormalize u (resolverNormalize u s) = resolverNormalize u s ↔
      ∀ t ∈ surfaceWords u s, String.ofList t ∉ foldsToStopword := by
  have hlisted : ∀ w ∈ foldsToStopword, w ≠ "" ∧ w ∉ stopwords := by decide
  rw [resolverNormalize_eq (s := s), resolverNormalize_join fun t ht => isToken_folded ht]
  have hinj : join (((((surfaceWords u s).filter kept).map foldToken).filter kept).map foldToken) =
        join (((surfaceWords u s).filter kept).map foldToken) ↔
      ((((surfaceWords u s).filter kept).map foldToken).filter kept).map foldToken =
        ((surfaceWords u s).filter kept).map foldToken := by
    refine ⟨join_injective ?_ fun t ht => isToken_folded ht, congrArg join⟩
    intro t ht
    obtain ⟨t', ht', rfl⟩ := List.mem_map.1 ht
    exact isToken_foldToken (isToken_folded (List.mem_filter.1 ht').1)
  rw [hinj, refold_eq_self_iff]
  constructor
  · intro h t ht hin
    obtain ⟨hne, hstop⟩ := hlisted _ hin
    have hkept : t ∈ (surfaceWords u s).filter kept := by
      rw [List.mem_filter, kept, decide_eq_true_eq]
      exact ⟨ht, fun hnil => hne (by rw [hnil]), hstop⟩
    have hfolded := h _ (List.mem_map_of_mem hkept)
    rw [kept, decide_eq_true_eq] at hfolded
    exact hfolded.2 ((folded_mem_stopwords_iff hstop).2 hin)
  · intro h t ht
    obtain ⟨t', ht', rfl⟩ := List.mem_map.1 ht
    obtain ⟨htoken, hstop⟩ := isToken_kept ht'
    rw [kept, decide_eq_true_eq]
    refine ⟨(isToken_foldToken htoken).1, fun hin => ?_⟩
    exact h t' (List.mem_filter.1 ht').1 ((folded_mem_stopwords_iff hstop).1 hin)

/-- "news" folds to "new", which is a stopword. -/
theorem news_unstable : resolverNormalize asciiOnly "news" = "new" ∧
    resolverNormalize asciiOnly (resolverNormalize asciiOnly "news") ≠ resolverNormalize asciiOnly "news" := by
  have hfirst : resolverNormalize asciiOnly "news" = "new" := by decide +kernel
  have hsecond : resolverNormalize asciiOnly "new" = "" := by decide +kernel
  refine ⟨hfirst, ?_⟩
  rw [hfirst, hsecond]
  decide

end Panella.Resolver
