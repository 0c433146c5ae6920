import Mathlib.Data.List.Infix

/-!
# Shell patterns, as Python's `fnmatch.fnmatchcase`

| here | there (`Lib/fnmatch.py`) |
| --- | --- |
| `splitClass` | the scan for the closing bracket in `_translate` |
| `chunksFrom`, `mergeChunks` | the hyphen chunks, the removal of empty ranges |
| `tokens`, `fnmatchcase` | `_translate`, `fnmatchcase` |

A pattern that quotes a text (`escape`) matches that text and nothing else: **`fnmatchcase_escape`**.
-/

namespace Fnmatch

/-- A member of a character class. -/
inductive Item
  | lit (c : Char)
  | range (a b : Char)
deriving DecidableEq, Repr

inductive Token
  | star
  | any
  | lit (c : Char)
  | cls (negated : Bool) (items : List Item)
deriving DecidableEq, Repr

/-- After `[`: the text up to the closing bracket and what follows it. A `!` and then a `]` may open
the class without closing it. -/
def splitClass (cs : List Char) : Option (List Char × List Char) :=
  let (bang, cs) := match cs with | '!' :: r => (['!'], r) | _ => ([], cs)
  let (close, cs) := match cs with | ']' :: r => ([']'], r) | _ => ([], cs)
  match cs.dropWhile (· ≠ ']') with
  | [] => none
  | _ :: r => some (bang ++ close ++ cs.takeWhile (· ≠ ']'), r)

/-- The texts between the hyphens that make ranges; a hyphen in the first `skip` places does not. -/
def chunksFrom : Nat → Nat → List Char → List (List Char)
  | 0, _, cs => [cs]
  | fuel + 1, skip, cs =>
    match (cs.drop skip).dropWhile (· ≠ '-') with
    | [] => [cs]
    | _ :: r => cs.take (cs.length - r.length - 1) :: chunksFrom fuel 2 r

/-- A hyphen at the very end is a literal one. -/
def closeChunks : List (List Char) → List (List Char)
  | [c, []] => [c ++ ['-']]
  | c :: cs => c :: closeChunks cs
  | [] => []

/-- A range whose ends are the wrong way round goes, with its ends. -/
def mergeChunks : List (List Char) → List (List Char)
  | [] => []
  | c :: cs =>
    match mergeChunks cs with
    | [] => [c]
    | d :: ds =>
      match c.getLast?, d with
      | some a, b :: d' => if b < a then (c.dropLast ++ d') :: ds else c :: d :: ds
      | _, _ => c :: d :: ds

/-- The members the chunks stand for: the hyphen between two chunks makes a range of its neighbours,
and is a literal one where it has none on its left. -/
def itemsFrom (c : List Char) : List (List Char) → List Item
  | [] => c.map .lit
  | d :: ds =>
    match c.getLast?, d with
    | some a, b :: d' => c.dropLast.map .lit ++ .range a b :: itemsFrom d' ds
    | _, _ => c.map .lit ++ .lit '-' :: itemsFrom d ds

/-- The class between the brackets. `!` negates when it stands first once empty ranges are gone. -/
def classToken (stuff : List Char) : Token :=
  let skip := if stuff.head? = some '!' then 2 else 1
  let chunks :=
    if '-' ∈ stuff then mergeChunks (closeChunks (chunksFrom stuff.length skip stuff)) else [stuff]
  match chunks with
  | [] => .cls false []
  | ('!' :: c) :: cs => .cls true (itemsFrom c cs)
  | c :: cs => .cls false (itemsFrom c cs)

/-- The pattern's tokens; the fuel is its length. -/
def tokens : Nat → List Char → List Token
  | 0, _ => []
  | _ + 1, [] => []
  | fuel + 1, c :: cs =>
    if c = '*' then .star :: tokens fuel cs
    else if c = '?' then .any :: tokens fuel cs
    else if c = '[' then
      match splitClass cs with
      | none => .lit '[' :: tokens fuel cs
      | some (stuff, r) => classToken stuff :: tokens fuel r
    else .lit c :: tokens fuel cs

def Item.accepts : Item → Char → Bool
  | .lit a, c => c = a
  | .range a b, c => a ≤ c && c ≤ b

def Token.accepts : Token → Char → Bool
  | .star, _ => false
  | .any, _ => true
  | .lit a, c => c = a
  | .cls negated is, c => (is.any (·.accepts c)) != negated

/-- The whole text matches. -/
def matchTokens : List Token → List Char → Bool
  | [], cs => cs.isEmpty
  | .star :: ts, cs => cs.tails.any (matchTokens ts)
  | t :: ts, cs =>
    match cs with
    | [] => false
    | c :: cs => t.accepts c && matchTokens ts cs

/-- `fnmatch.fnmatchcase(name, pat)`. -/
def fnmatchcase (name pat : String) : Bool := matchTokens (tokens pat.length pat.toList) name.toList

/-! ## Quoting -/

/-- One character as a pattern: a special one goes into brackets. -/
def quote (c : Char) : List Char := if c = '*' ∨ c = '?' ∨ c = '[' then ['[', c, ']'] else [c]

/-- A text as the pattern that matches it. -/
def escape (s : String) : String := String.ofList (s.toList.flatMap quote)

/-- A quoted character is one token, and the token takes just that character. -/
theorem tokens_quote (c : Char) (cs : List Char) (fuel : Nat) :
    ∃ t, t ≠ .star ∧ (∀ d, t.accepts d = decide (d = c)) ∧ tokens (fuel + 1) (quote c ++ cs) = t :: tokens fuel cs := by
  by_cases hc : c = '*' ∨ c = '?' ∨ c = '['
  · refine ⟨.cls false [.lit c], by simp, fun d => by simp [Token.accepts, Item.accepts], ?_⟩
    have hsplit : splitClass (c :: ']' :: cs) = some ([c], cs) := by
      rcases hc with rfl | rfl | rfl <;> simp [splitClass]
    have htok : classToken [c] = .cls false [.lit c] := by
      rcases hc with rfl | rfl | rfl <;> decide
    simp [quote, hc, tokens, hsplit, htok]
  · have hne := not_or.1 hc
    have hne' := not_or.1 hne.2
    refine ⟨.lit c, by simp, fun d => by simp [Token.accepts], ?_⟩
    simp [quote, tokens, hne.1, hne'.1, hne'.2]

theorem matchTokens_cons {t : Token} (h : t ≠ .star) (ts : List Token) (cs : List Char) :
    matchTokens (t :: ts) cs = match cs with | [] => false | c :: cs => t.accepts c && matchTokens ts cs := by
  cases t with
  | star => exact absurd rfl h
  | any => rfl
  | lit c => rfl
  | cls n is => rfl

theorem length_quote_pos (c : Char) : 0 < (quote c).length := by
  unfold quote
  split <;> simp

theorem matchTokens_quoted (p : List Char) : ∀ (fuel : Nat) (s : List Char), (p.flatMap quote).length ≤ fuel →
    matchTokens (tokens fuel (p.flatMap quote)) s = decide (s = p) := by
  induction p with
  | nil =>
    intro fuel s _
    cases fuel <;> cases s <;> simp [tokens, matchTokens]
  | cons c p ih =>
    intro fuel s hf
    rw [List.flatMap_cons, List.length_append] at hf
    have hpos := length_quote_pos c
    obtain ⟨fuel, rfl⟩ : ∃ n, fuel = n + 1 := ⟨fuel - 1, by omega⟩
    obtain ⟨t, ht, hacc, htok⟩ := tokens_quote c (p.flatMap quote) fuel
    rw [List.flatMap_cons, htok, matchTokens_cons ht]
    cases s with
    | nil => simp
    | cons d s => simp [hacc, ih fuel s (by omega)]

/-- **A quoted text matches itself only.** -/
theorem fnmatchcase_escape (name s : String) : fnmatchcase name (escape s) = decide (name = s) := by
  unfold fnmatchcase escape
  rw [String.toList_ofList, matchTokens_quoted _ _ _ (by simp [← String.length_toList])]
  simp only [String.toList_inj]

/-- `*` matches every text. -/
theorem fnmatchcase_star (name : String) : fnmatchcase name "*" = true := by
  have htokens : tokens "*".length "*".toList = [.star] := by decide
  unfold fnmatchcase
  rw [htokens]
  show name.toList.tails.any (fun cs => cs.isEmpty) = true
  rw [List.any_eq_true]
  exact ⟨[], by simp, rfl⟩

end Fnmatch
