import Panella.Lib.PyLower
import Panella.PreferenceExtraction
import Panella.Resolver.NormalForm

/-!
# One key for a domain, whoever writes it

| here | there |
| --- | --- |
| `extractorNormalizeDomain` | `extractor_normalize_domain` (`resolver/normalize.py` :19-21) |
| `normalizeDomain` | `normalize_domain` (`preference_extraction.py` :75-79) |

Both are read here on code points, lone surrogates included. Each returns the runs of domain characters of the lower-cased
text, joined by underscores (`strip_slug`). What the blanks at its ends change is at most which sigma a text has, and neither
is a domain character: **`normalizers_agree`**.
-/

namespace Panella.DomainKeys

open PyStr PyText Resolver

/-- A character of `[a-z0-9]`. -/
def domainChar? : CodePoint → Option Char
  | .scalar c => if isDomainChar c then some c else none
  | .surrogate _ => none

/-- `re.sub(r"[^a-z0-9]+", "_", s)`; the flag says that the run at the head has been replaced. -/
def slug : Bool → PyStr → List Char
  | _, [] => []
  | replaced, p :: s =>
    match domainChar? p with
    | some c => c :: slug false s
    | none => if replaced then slug true s else '_' :: slug true s

section
variable (t : CaseTable)

def extractorNormalizeDomain (value : PyStr) : String :=
  PyText.strip (· = '_') (String.ofList (subRuns (· = '_') '_' false (slug false (lower t value))))

def normalizeDomain (domain : PyStr) : String :=
  PyText.strip (· = '_') (String.ofList (slug false (lower t (PyStr.strip domain))))

end

/-! ## The words of a text -/

/-- The domain characters of a text, `none` for every other code point. -/
def marks (s : PyStr) : List (Option Char) := s.map domainChar?

@[simp] theorem marks_nil : marks [] = [] := rfl

@[simp] theorem marks_cons (p : CodePoint) (s : PyStr) : marks (p :: s) = domainChar? p :: marks s := rfl

@[simp] theorem marks_append (s s' : PyStr) : marks (s ++ s') = marks s ++ marks s' := List.map_append

/-- The runs of domain characters; the one that is being read comes first. -/
def words : List Char → List (Option Char) → List (List Char)
  | w, [] => if w = [] then [] else [w]
  | w, some c :: ms => words (w ++ [c]) ms
  | w, none :: ms => if w = [] then words [] ms else w :: words [] ms

theorem words_nones {ms : List (Option Char)} (h : ∀ m ∈ ms, m = none) (w : List Char) :
    words w ms = if w = [] then [] else [w] := by
  induction ms generalizing w with
  | nil => rfl
  | cons m ms ih =>
    obtain ⟨rfl, hms⟩ := List.forall_mem_cons.1 h
    rw [words, ih hms, if_pos rfl]

/-- What stands around the words is no part of them. -/
theorem words_around {a b : List (Option Char)} (ha : ∀ m ∈ a, m = none) (hb : ∀ m ∈ b, m = none)
    (ms : List (Option Char)) : words [] (a ++ ms ++ b) = words [] ms := by
  have hbehind : ∀ w, words w (ms ++ b) = words w ms := by
    intro w
    induction ms generalizing w with
    | nil => exact words_nones hb w
    | cons m ms ih =>
      cases m with
      | none => rw [List.cons_append, words, words, ih]
      | some c => rw [List.cons_append, words, words, ih]
  rw [List.append_assoc, ← hbehind]
  induction a with
  | nil => rfl
  | cons m a ih =>
    obtain ⟨rfl, hrest⟩ := List.forall_mem_cons.1 ha
    rw [List.cons_append, words, if_pos rfl, ih hrest]

theorem isToken_words {ms : List (Option Char)} (hms : ∀ c, some c ∈ ms → isDomainChar c = true) {w : List Char}
    (hw : ∀ c ∈ w, isDomainChar c = true) : ∀ v ∈ words w ms, IsToken v := by
  induction ms generalizing w with
  | nil =>
    intro v hv
    rw [words] at hv
    split at hv
    · cases hv
    · next hne =>
      obtain rfl := List.mem_singleton.1 hv
      exact ⟨hne, hw⟩
  | cons m ms ih =>
    have hrest : ∀ c, some c ∈ ms → isDomainChar c = true := fun c hc => hms c (List.mem_cons_of_mem m hc)
    cases m with
    | some c =>
      refine ih hrest fun d hd => ?_
      rcases List.mem_append.1 hd with hd | hd
      · exact hw d hd
      · rw [List.mem_singleton.1 hd]
        exact hms c List.mem_cons_self
    | none =>
      have hempty := ih hrest (w := []) (by simp)
      intro v hv
      rw [words] at hv
      split at hv
      · exact hempty v hv
      · next hne =>
        rcases List.mem_cons.1 hv with rfl | hv
        · exact ⟨hne, hw⟩
        · exact hempty v hv

theorem domainChar?_some {p : CodePoint} {c : Char} (h : domainChar? p = some c) : isDomainChar c = true := by
  cases p with
  | surrogate n => cases h
  | scalar d =>
    rw [domainChar?] at h
    split at h
    · next hd =>
      cases h
      exact hd
    · cases h

theorem isToken_marks (s : PyStr) : ∀ v ∈ words [] (marks s), IsToken v := by
  refine isToken_words (fun c hc => ?_) (by simp)
  obtain ⟨p, -, hp⟩ := List.mem_map.1 hc
  exact domainChar?_some hp

/-! ## A slug is its words -/

/-- Behind a word, and behind an underscore, a slug goes on with its words; underscores may be left at its end. -/
theorem slug_words (s : PyStr) : ∀ w : List Char, ∃ rest : List Char, (∀ c ∈ rest, c = '_') ∧
    w ++ slug (w = []) s = ['_'].intercalate (words w (marks s)) ++ rest := by
  induction s with
  | nil =>
    intro w
    refine ⟨[], by simp, ?_⟩
    rw [slug, marks_nil, words]
    split
    · next hw => rw [hw]; rfl
    · rw [List.intercalate_singleton]
  | cons p s ih =>
    intro w
    cases hp : domainChar? p with
    | some c =>
      obtain ⟨rest, hrest, heq⟩ := ih (w ++ [c])
      refine ⟨rest, hrest, ?_⟩
      have hne : decide (w ++ [c] = []) = false := by simp
      rw [marks_cons, hp, words, slug, hp]
      rw [hne, List.append_assoc] at heq
      exact heq
    | none =>
      obtain ⟨rest, hrest, heq⟩ := ih []
      have hempty : decide (([] : List Char) = []) = true := by simp
      rw [hempty, List.nil_append] at heq
      rw [marks_cons, hp, words, slug, hp]
      by_cases hw : w = []
      · subst hw
        exact ⟨rest, hrest, by simpa using heq⟩
      · have hflag : decide (w = []) = false := by simpa using hw
        simp only [hflag, if_neg hw, Bool.false_eq_true, if_false, heq]
        cases hws : words [] (marks s) with
        | nil =>
          refine ⟨'_' :: rest, fun c hc => ?_, ?_⟩
          · rcases List.mem_cons.1 hc with rfl | hc
            · rfl
            · exact hrest c hc
          · rw [List.intercalate_nil, List.nil_append, List.intercalate_singleton]
        | cons v vs =>
          refine ⟨rest, hrest, ?_⟩
          rw [List.intercalate_cons_cons]
          simp

theorem stripList_append {p : Char → Bool} {cs rest : List Char} (htrim : Trim p cs) (hrest : ∀ c ∈ rest, p c = true) :
    stripList p (cs ++ rest) = cs := by
  have hdrop : ∀ l : List Char, (∀ c ∈ l, p c = true) → l.dropWhile p = [] := fun l hl => List.dropWhile_eq_nil_iff.2 hl
  cases cs with
  | nil => rw [List.nil_append, stripList, hdrop rest hrest, List.rdropWhile_nil]
  | cons c cs =>
    have hself := strip_eq_self_iff.2 htrim
    have hc : ¬ p c = true := by simpa using htrim.1 c rfl
    rw [stripList, List.dropWhile_cons_of_neg hc] at hself
    rw [stripList, List.cons_append, List.dropWhile_cons_of_neg hc, List.rdropWhile, ← List.cons_append, List.reverse_append,
      List.dropWhile_append, hdrop rest.reverse fun c hc => hrest c (List.mem_reverse.1 hc)]
    exact hself

theorem slug_true (s : PyStr) : slug false s = slug true s ∨ slug false s = '_' :: slug true s := by
  cases s with
  | nil => exact .inl rfl
  | cons p s =>
    rw [slug, slug]
    split
    · exact .inl rfl
    · exact .inr rfl

/-- **A slug without the underscores at its ends is its words, joined.** -/
theorem strip_slug (s : PyStr) : PyText.strip (· = '_') (String.ofList (slug false s)) = join (words [] (marks s)) := by
  obtain ⟨rest, hrest, heq⟩ := slug_words s []
  have hflag : decide (([] : List Char) = []) = true := by simp
  rw [hflag, List.nil_append] at heq
  have hends : ∀ c ∈ rest, decide (c = '_') = true := by simpa using hrest
  have htail := stripList_append (join_trim (isToken_marks s)) hends
  have hstrip : stripList (· = '_') (slug false s) = stripList (· = '_') (slug true s) := by
    rcases slug_true s with h | h
    · rw [h]
    · rw [h, stripList, stripList, List.dropWhile_cons_of_pos (by simp)]
  rw [PyText.strip, String.toList_ofList, hstrip, heq, htail, join]

/-- `re.sub(r"_+", "_", …)` finds nothing to replace in a slug. -/
theorem subRuns_slug (s : PyStr) (replaced : Bool) : subRuns (· = '_') '_' replaced (slug replaced s) = slug replaced s := by
  induction s generalizing replaced with
  | nil => rfl
  | cons p s ih =>
    cases hp : domainChar? p with
    | some c =>
      have hc : c ≠ '_' := by
        rintro rfl
        exact absurd (domainChar?_some hp) (by decide)
      rw [slug, hp]
      simp only [subRuns, decide_eq_true_eq, if_neg hc, ih false]
    | none =>
      cases replaced with
      | true =>
        simp only [slug, hp, if_true]
        exact ih true
      | false =>
        simp only [slug, hp, Bool.false_eq_true, if_false, subRuns, decide_true, if_true, ih true]

/-! ## Lower case -/

variable {t : CaseTable}

/-- The marks of a code point in lower case, wherever it stands. -/
def pointMarks (t : CaseTable) (p : CodePoint) : List (Option Char) := marks (lowerPoint t [] [] p)

theorem marks_lowerPoint (before after : PyStr) (p : CodePoint) : marks (lowerPoint t before after p) = pointMarks t p := by
  have hsigma : ∀ b : Bool, marks [.scalar (if b then 'ς' else 'σ')] = [none] := by decide
  unfold pointMarks
  cases p with
  | surrogate n => rfl
  | scalar c =>
    rw [lowerPoint, lowerPoint]
    split
    · rw [hsigma, hsigma]
    · rfl

theorem marks_lower (s : PyStr) : marks (lower t s) = s.flatMap (pointMarks t) := by
  have hgo : ∀ before : PyStr, marks (lowerFrom t before s) = s.flatMap (pointMarks t) := by
    induction s with
    | nil => exact fun _ => rfl
    | cons p s ih =>
      intro before
      rw [lowerFrom, List.flatMap_cons, ← marks_lowerPoint before s p, ← ih (p :: before), marks_append]
  exact hgo []

theorem pointMarks_space {p : CodePoint} (h : p.holds isSpace = true) : ∀ m ∈ pointMarks t p, m = none := by
  cases p with
  | surrogate n => cases h
  | scalar c =>
    have hspace : isSpace c = true := h
    have hdomain : isDomainChar c = false := by
      by_contra hne
      obtain ⟨hascii, -⟩ := isDomainChar_ascii (by simpa using hne)
      have hall : ∀ n ∈ List.range 128, isSpace (Char.ofNat n) = true → isDomainChar (Char.ofNat n) = false := by
        decide +kernel
      have hc := hall c.toNat (List.mem_range.2 hascii)
      rw [Char.ofNat_toNat] at hc
      exact hne (hc hspace)
    have hsigma : c ≠ 'Σ' := by
      rintro rfl
      exact absurd hspace (by decide)
    intro m hm
    rw [pointMarks, lowerPoint, if_neg hsigma, t.lowercase_space c hspace] at hm
    simpa [marks, domainChar?, hdomain] using hm

theorem words_strip (s : PyStr) : words [] (marks (lower t (PyStr.strip s))) = words [] (marks (lower t s)) := by
  obtain ⟨a, b, hs, ha, hb⟩ := strip_decomp s
  have hnone : ∀ {r : PyStr}, (∀ p ∈ r, p.holds isSpace = true) → ∀ m ∈ r.flatMap (pointMarks t), m = none := by
    intro r hr m hm
    obtain ⟨p, hp, hm⟩ := List.mem_flatMap.1 hm
    exact pointMarks_space (hr p hp) m hm
  rw [marks_lower, marks_lower]
  conv_rhs => rw [hs]
  rw [List.flatMap_append, List.flatMap_append, words_around (hnone ha) (hnone hb)]

/-! ## The keys -/

theorem extractorNormalizeDomain_eq (t : CaseTable) (s : PyStr) :
    extractorNormalizeDomain t s = join (words [] (marks (lower t s))) := by
  rw [extractorNormalizeDomain, subRuns_slug, strip_slug]

theorem normalizeDomain_eq (t : CaseTable) (s : PyStr) : normalizeDomain t s = join (words [] (marks (lower t s))) := by
  rw [normalizeDomain, strip_slug, words_strip]

/-- The slug of a text. -/
theorem slug_ofString (replaced : Bool) (s : String) :
    slug replaced (ofString s) = subRuns (fun c => !isDomainChar c) '_' replaced s.toList := by
  rw [ofString]
  induction s.toList generalizing replaced with
  | nil => rfl
  | cons c cs ih =>
    rw [List.map_cons, slug, subRuns, domainChar?]
    cases isDomainChar c <;> simp [ih]

variable (t) (u : Unicode)

/-- On texts these are the functions of the two modules. -/
theorem extractorNormalizeDomain_text (s : String) :
    Resolver.extractorNormalizeDomain (t.unicode u) s = extractorNormalizeDomain t (ofString s) := by
  rw [extractorNormalizeDomain, ← ofString_lowerText, slug_ofString]
  rfl

theorem normalizeDomain_text (R : PreferenceExtraction.ReplyLib) (s : String) :
    PreferenceExtraction.normalizeDomain { R with unicode := t.unicode u } s = normalizeDomain t (ofString s) := by
  rw [normalizeDomain, PyStr.strip_ofString, ← ofString_lowerText, slug_ofString]
  rfl

/-- **The resolver's and the extractor's normalization are one function**, on every string; and a key it has written is its own
key. -/
theorem normalizers_agree :
    (∀ s : PyStr, extractorNormalizeDomain t s = normalizeDomain t s) ∧
      (∀ (R : PreferenceExtraction.ReplyLib) (s : String), Resolver.extractorNormalizeDomain (t.unicode u) s =
        PreferenceExtraction.normalizeDomain { R with unicode := t.unicode u } s) ∧
      ∀ s : PyStr, extractorNormalizeDomain t (ofString (normalizeDomain t s)) = normalizeDomain t s := by
  have hagree : ∀ s : PyStr, extractorNormalizeDomain t s = normalizeDomain t s := fun s => by
    rw [extractorNormalizeDomain_eq, normalizeDomain_eq]
  refine ⟨hagree, fun R s => ?_, fun s => ?_⟩
  · rw [extractorNormalizeDomain_text, normalizeDomain_text, hagree]
  · rw [normalizeDomain_eq, ← extractorNormalizeDomain_text t asciiOnly, extractorNormalizeDomain_join (isToken_marks _)]

/-- The cases of ASCII, and of two letters that have theirs there. -/
def fewCases : CaseTable where
  lowercase c := if c = '\u0130' then ['i', '\u0307'] else if c = '\u212A' then ['k'] else if c.toNat < 128 then [c.toLower] else [c]
  cased c := c.isAlpha || c = '\u0130' || c = '\u212A'
  ignorable c := c = '\'' || c = '\u0307'
  lowercase_ascii c hc := by
    have hdotted : c ≠ '\u0130' := by
      rintro rfl
      exact absurd hc (by decide)
    have hkelvin : c ≠ '\u212A' := by
      rintro rfl
      exact absurd hc (by decide)
    rw [if_neg hdotted, if_neg hkelvin, if_pos hc]
  lowercase_space c hc := by
    have hdotted : c ≠ '\u0130' := by
      rintro rfl
      exact absurd hc (by decide)
    have hkelvin : c ≠ '\u212A' := by
      rintro rfl
      exact absurd hc (by decide)
    rw [if_neg hdotted, if_neg hkelvin]
    split
    · next hascii =>
      have hall : ∀ n ∈ List.range 128, isSpace (Char.ofNat n) = true → (Char.ofNat n).toLower = Char.ofNat n := by
        decide +kernel
      have hlower := hall c.toNat (List.mem_range.2 hascii)
      rw [Char.ofNat_toNat] at hlower
      rw [hlower hc]
    · rfl

/-- A Kelvin sign becomes a letter of ASCII, a dotted capital two points. -/
example : normalizeDomain fewCases (ofString " \u212Aey\u0130  Ring ") = "keyi_ring" := by decide +kernel

end Panella.DomainKeys
