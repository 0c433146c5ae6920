import Panella.Lib.PyStr
import Panella.Lib.Text

/-!
# `str.lower` and `str.strip` on code points

A code point has its lower case wherever it stands, a capital sigma excepted: it becomes a final sigma where a letter with a
case comes before it and none behind, the points without weight left out of account. The Unicode database is a `CaseTable`; of
what lies outside ASCII it is known that no blank has a case.
-/

namespace PyStr

open PyText

structure CaseTable where
  /-- `Lowercase_Mapping`: one character or more. -/
  lowercase : Char → List Char
  /-- `Cased`. -/
  cased : Char → Bool
  /-- `Case_Ignorable`. -/
  ignorable : Char → Bool
  lowercase_ascii : ∀ c : Char, c.toNat < 128 → lowercase c = [c.toLower]
  lowercase_space : ∀ c : Char, isSpace c = true → lowercase c = [c]

namespace CodePoint

def holds (p : Char → Bool) : CodePoint → Bool
  | .scalar c => p c
  | .surrogate _ => false

end CodePoint

/-- `handle_capital_sigma`; what comes before is given backwards. -/
def finalSigma (t : CaseTable) (before after : PyStr) : Bool :=
  (before.dropWhile (·.holds t.ignorable)).head?.any (·.holds t.cased) &&
    !(after.dropWhile (·.holds t.ignorable)).head?.any (·.holds t.cased)

def lowerPoint (t : CaseTable) (before after : PyStr) : CodePoint → PyStr
  | .surrogate n => [.surrogate n]
  | .scalar c =>
    if c = 'Σ' then [.scalar (if finalSigma t before after then 'ς' else 'σ')] else (t.lowercase c).map .scalar

def lowerFrom (t : CaseTable) : PyStr → PyStr → PyStr
  | _, [] => []
  | before, p :: after => lowerPoint t before after p ++ lowerFrom t (p :: before) after

/-- `s.lower()`. -/
def lower (t : CaseTable) (s : PyStr) : PyStr := lowerFrom t [] s

/-- `s.strip()`. -/
def strip (s : PyStr) : PyStr := (s.dropWhile (·.holds isSpace)).rdropWhile (·.holds isSpace)

/-- What is stripped off are blanks. -/
theorem strip_decomp (s : PyStr) : ∃ a b : PyStr, s = a ++ strip s ++ b ∧ (∀ p ∈ a, p.holds isSpace = true) ∧
    ∀ p ∈ b, p.holds isSpace = true := by
  refine ⟨s.takeWhile (·.holds isSpace), ((s.dropWhile (·.holds isSpace)).reverse.takeWhile (·.holds isSpace)).reverse,
    ?_, ?_, ?_⟩
  · rw [List.append_assoc, strip, List.rdropWhile, ← List.reverse_append, List.takeWhile_append_dropWhile,
      List.reverse_reverse, List.takeWhile_append_dropWhile]
  · exact fun p hp => List.mem_takeWhile_imp hp
  · exact fun p hp => List.mem_takeWhile_imp (List.mem_reverse.1 hp)

/-! ## Texts -/

variable {t : CaseTable}

theorem lowerFrom_scalar (before : PyStr) (cs : List Char) :
    ∃ ds : List Char, lowerFrom t before (cs.map .scalar) = ds.map .scalar := by
  induction cs generalizing before with
  | nil => exact ⟨[], rfl⟩
  | cons c cs ih =>
    obtain ⟨ds, hds⟩ := ih (.scalar c :: before)
    rw [List.map_cons, lowerFrom, hds, lowerPoint]
    split
    · exact ⟨_ :: ds, rfl⟩
    · exact ⟨t.lowercase c ++ ds, by rw [List.map_append]⟩

theorem mended_scalar (cs : List Char) : mended (cs.map .scalar) = String.ofList cs := by
  rw [← mended_ofString (String.ofList cs), ofString, String.toList_ofList]

/-- `s.lower()`, of a text. -/
def lowerText (t : CaseTable) (s : String) : String := (lower t (ofString s)).mended

theorem ofString_lowerText (s : String) : ofString (lowerText t s) = lower t (ofString s) := by
  obtain ⟨ds, hds⟩ := lowerFrom_scalar (t := t) [] s.toList
  have hlower : lower t (ofString s) = ds.map .scalar := hds
  rw [lowerText, hlower, mended_scalar, ofString, String.toList_ofList]

theorem lowerText_ascii (s : String) (h : ∀ c ∈ s.toList, c.toNat < 128) :
    lowerText t s = String.ofList (s.toList.map Char.toLower) := by
  have hgo : ∀ (before : PyStr) (cs : List Char), (∀ c ∈ cs, c.toNat < 128) →
      lowerFrom t before (cs.map .scalar) = (cs.map Char.toLower).map .scalar := by
    intro before cs
    induction cs generalizing before with
    | nil => exact fun _ => rfl
    | cons c cs ih =>
      intro hcs
      obtain ⟨hc, hrest⟩ := List.forall_mem_cons.1 hcs
      have hsigma : c ≠ 'Σ' := by
        rintro rfl
        exact absurd hc (by decide)
      rw [List.map_cons, lowerFrom, ih _ hrest, lowerPoint, if_neg hsigma, t.lowercase_ascii c hc]
      rfl
  rw [lowerText, lower, ofString, hgo [] s.toList h, mended_scalar]

/-- A Unicode database whose `str.lower` reads the table. -/
def CaseTable.unicode (t : CaseTable) (u : Unicode) : Unicode :=
  { u with
    lower := lowerText t
    lower_ascii := lowerText_ascii }

theorem strip_ofString (s : String) : strip (ofString s) = ofString (stripSpace s) := by
  have hmap : (fun p : CodePoint => p.holds isSpace) ∘ CodePoint.scalar = isSpace := rfl
  rw [strip, ofString, ofString, toList_stripSpace, stripList, List.dropWhile_map, hmap, List.rdropWhile, List.rdropWhile,
    ← List.map_reverse, List.dropWhile_map, hmap, List.map_reverse]

end PyStr
