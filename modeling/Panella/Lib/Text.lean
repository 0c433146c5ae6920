import Mathlib.Data.List.DropRight
import Mathlib.Data.List.TakeWhile

/-!
# Stripping and folding, as Python's `str` and `re` do

`strip p s` drops the characters that satisfy `p` from both ends. What is used of it:
**`strip_ends`** (neither end of the result satisfies `p`), `length_strip_le`,
**`strip_eq_self_iff`** and `stripSpace_stripSpace`.

`subRuns p r` is `re.sub("p+", r, …)` for one replacement character. Of the Unicode database only what `Unicode` says is
used: what lies in ASCII is known, the rest is open.
-/

namespace PyText

variable {p : Char → Bool} {cs : List Char}

/-- `s.strip(chars)`, on the characters. -/
def stripList (p : Char → Bool) (cs : List Char) : List Char := (cs.dropWhile p).rdropWhile p

/-- `s.strip(chars)`. -/
def strip (p : Char → Bool) (s : String) : String := String.ofList (stripList p s.toList)

/-- `str.isspace` on one character. -/
def isSpace (c : Char) : Bool :=
  let n := c.toNat
  (9 ≤ n && n ≤ 13) || (28 ≤ n && n ≤ 32) || n = 0x85 || n = 0xA0 || n = 0x1680 || (0x2000 ≤ n && n ≤ 0x200A) ||
    n = 0x2028 || n = 0x2029 || n = 0x202F || n = 0x205F || n = 0x3000

/-- `s.strip()`. -/
def stripSpace (s : String) : String := strip isSpace s

/-- `re.sub("p+", r, …)`; the flag says that the run of `p` at the head has been replaced. -/
def subRuns (p : Char → Bool) (r : Char) : Bool → List Char → List Char
  | _, [] => []
  | replaced, c :: cs =>
    if p c then (if replaced then subRuns p r true cs else r :: subRuns p r true cs) else c :: subRuns p r false cs

structure Unicode where
  /-- `str.lower`. -/
  lower : String → String
  /-- `\w` of `re`. -/
  isWord : Char → Bool
  lower_ascii : ∀ s : String, (∀ c ∈ s.toList, c.toNat < 128) → lower s = String.ofList (s.toList.map Char.toLower)
  isWord_ascii : ∀ c : Char, c.toNat < 128 → isWord c = (c.isAlphanum || c == '_')

/-- Nothing outside ASCII has a case or is a letter. -/
def asciiOnly : Unicode where
  lower s := String.ofList (s.toList.map Char.toLower)
  isWord c := c.isAlphanum || c == '_'
  lower_ascii _ _ := rfl
  isWord_ascii _ _ := rfl

/-- Neither the first nor the last character satisfies `p`. -/
def Trim (p : Char → Bool) (cs : List Char) : Prop :=
  (∀ c ∈ cs.head?, p c = false) ∧ ∀ c ∈ cs.getLast?, p c = false

theorem length_stripList_le (p : Char → Bool) (cs : List Char) : (stripList p cs).length ≤ cs.length := by
  have h1 : (stripList p cs).length ≤ (cs.dropWhile p).length := (List.rdropWhile_prefix p _).length_le
  have h2 : (cs.dropWhile p).length ≤ cs.length := List.length_dropWhile_le p cs
  omega

/-- **What is left of a stripped text has clean ends.** -/
theorem strip_ends (p : Char → Bool) (cs : List Char) : Trim p (stripList p cs) := by
  constructor
  · intro c hc
    have hpre : stripList p cs <+: cs.dropWhile p := List.rdropWhile_prefix p _
    cases hs : stripList p cs with
    | nil => simp [hs] at hc
    | cons d ds =>
      rw [hs] at hc hpre
      obtain ⟨t, ht⟩ := hpre
      simp only [List.head?_cons, Option.mem_some_iff] at hc
      subst hc
      have := List.dropWhile_get_zero_not p cs (by rw [← ht]; simp)
      simpa [← ht] using this
  · intro c hc
    have hne : (cs.dropWhile p).rdropWhile p ≠ [] := by
      rintro h
      simp [stripList, h] at hc
    have := List.rdropWhile_last_not p (cs.dropWhile p) hne
    rw [Option.mem_def, stripList, List.getLast?_eq_getLast_of_ne_nil hne, Option.some.injEq] at hc
    rw [← hc]
    simpa using this

/-- A stripped text as long as before is the text. -/
theorem stripList_eq_of_length (h : (stripList p cs).length = cs.length) : stripList p cs = cs := by
  have hpre : stripList p cs <+: cs.dropWhile p := List.rdropWhile_prefix p _
  have hsuf : cs.dropWhile p <:+ cs := List.dropWhile_suffix p
  have h1 : cs.dropWhile p = cs := hsuf.eq_of_length_le (by have := hpre.length_le; omega)
  rw [h1] at hpre
  exact hpre.eq_of_length h

/-- **Stripping leaves alone exactly the texts with clean ends.** -/
theorem strip_eq_self_iff : stripList p cs = cs ↔ Trim p cs := by
  constructor
  · intro h
    rw [← h]
    exact strip_ends p cs
  · rintro ⟨hh, hl⟩
    have h1 : cs.dropWhile p = cs := by
      cases cs with
      | nil => rfl
      | cons c cs => rw [List.dropWhile_cons_of_neg]; simpa using hh c rfl
    rw [stripList, h1, List.rdropWhile_eq_self_iff]
    intro hne
    have := hl (cs.getLast hne) (List.getLast?_eq_getLast_of_ne_nil hne)
    simpa using this

/-! ## `s.strip()` -/

theorem toList_stripSpace (s : String) : (stripSpace s).toList = stripList isSpace s.toList := String.toList_ofList

theorem stripSpace_stripSpace (s : String) : stripSpace (stripSpace s) = stripSpace s := by
  have h : stripList isSpace (stripSpace s).toList = (stripSpace s).toList := by
    rw [toList_stripSpace]
    exact strip_eq_self_iff.2 (strip_ends isSpace s.toList)
  rw [stripSpace, strip, h, String.ofList_toList]

/-- What is stripped off is at the ends. -/
theorem mem_of_mem_stripSpace {c : Char} {s : String} (h : c ∈ (stripSpace s).toList) : c ∈ s.toList := by
  rw [toList_stripSpace] at h
  have hpre : stripList isSpace s.toList <+: s.toList.dropWhile isSpace := List.rdropWhile_prefix isSpace _
  exact (List.dropWhile_suffix isSpace).subset (hpre.subset h)

end PyText
