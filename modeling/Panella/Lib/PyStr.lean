import Mathlib.Data.String.Basic

/-!
# Python's `str`, lone surrogates included

A Python string is a sequence of code points, and a surrogate may stand in it alone: `json.loads` makes one of the escape
`\ud800`. Such a string cannot be encoded: `encode` raises `UnicodeEncodeError`. `text?` is the text of the others.
-/

namespace PyStr

inductive CodePoint
  | scalar (c : Char)
  /-- From U+D800 to U+DFFF. -/
  | surrogate (n : Fin 0x800)
deriving DecidableEq

end PyStr

/-- A Python string. -/
abbrev PyStr := List PyStr.CodePoint

namespace PyStr

def CodePoint.char? : CodePoint → Option Char
  | .scalar c => some c
  | .surrogate _ => none

def ofString (s : String) : PyStr := s.toList.map .scalar

/-- The text of a string that `encode("utf-8")` accepts. -/
def text? (s : PyStr) : Option String := (s.mapM CodePoint.char?).map String.ofList

/-- The string with U+FFFD for every lone surrogate: neither is a letter, a digit or a blank, and neither has a case. -/
def mended (s : PyStr) : String := String.ofList (s.map fun p => p.char?.getD '\uFFFD')

@[simp] theorem text?_ofString (s : String) : text? (ofString s) = some s := by
  have h : ∀ cs : List Char, (cs.map CodePoint.scalar).mapM CodePoint.char? = some cs := by
    intro cs
    induction cs with
    | nil => rfl
    | cons c cs ih => simp [List.mapM_cons, CodePoint.char?, ih]
  rw [text?, ofString, h, Option.map_some, String.ofList_toList]

/-- What can be encoded has nothing to mend. -/
theorem mended_of_text {s : PyStr} {t : String} (h : s.text? = some t) : s.mended = t := by
  have hmap : ∀ {s : PyStr} {cs : List Char}, s.mapM CodePoint.char? = some cs →
      s.map (fun p => p.char?.getD '\uFFFD') = cs := by
    intro s
    induction s with
    | nil =>
      intro cs hcs
      cases hcs
      rfl
    | cons p s ih =>
      intro cs hcs
      rw [List.mapM_cons] at hcs
      cases hp : p.char? with
      | none =>
        rw [hp] at hcs
        cases hcs
      | some c =>
        cases hrest : s.mapM CodePoint.char? with
        | none =>
          rw [hp, hrest] at hcs
          cases hcs
        | some rest =>
          rw [hp, hrest] at hcs
          cases hcs
          rw [List.map_cons, ih hrest, hp]
          rfl
  obtain ⟨cs, hcs, rfl⟩ := Option.map_eq_some_iff.1 h
  rw [mended, hmap hcs]

@[simp] theorem mended_ofString (s : String) : mended (ofString s) = s := mended_of_text (text?_ofString s)

end PyStr
