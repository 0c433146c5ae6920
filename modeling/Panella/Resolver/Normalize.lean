import Mathlib.Data.Finset.Card
import Panella.Lib.Sha256
import Panella.Lib.SortedSet
import Panella.Lib.Text

/-!
# Domain normalization of the resolver (`panella/resolver/normalize.py`)

| here | there |
| --- | --- |
| `extractorNormalizeDomain` | `extractor_normalize_domain` (:19-21) |
| `resolverNormalize` | `resolver_normalize` (:35-46) |
| `tokens` | `_tokens` (`blocking.py` :109-110, `registry.py` :104-105) |
-/

namespace Panella.Resolver

open PyText SortedSet

/-- `STOPWORDS`. -/
def stopwords : List String :=
  ["the", "a", "an", "my", "of", "in", "for", "current", "currently", "primary", "main", "new", "favorite", "favourite",
   "preferred", "usual", "regular", "personal"]

/-- `PLURAL_KEEP`. -/
def pluralKeep : List String :=
  ["status", "address", "gps", "analysis", "glasses", "fitness", "wellness", "business"]

def pluralYSuffix : String := "ies"
def normalizerVersion : String := "1.0.0"

/-- `repr` of a tuple of words. -/
def reprWords (ws : List String) : String := "(" ++ ", ".intercalate (ws.map fun w => "'" ++ w ++ "'") ++ ")"

/-- `_canonical_rules_repr()`. -/
def canonicalRulesRepr : String :=
  "(" ++ reprWords (sortedSet stopwords) ++ ", " ++ reprWords (sortedSet pluralKeep) ++ ", '" ++ pluralYSuffix ++ "')"

def normalizerRulesHash : String := Sha256.hexdigest (Sha256.utf8 canonicalRulesRepr)

/-- `[a-z0-9]`. -/
def isDomainChar (c : Char) : Bool := ('a' ≤ c && c ≤ 'z') || ('0' ≤ c && c ≤ '9')

/-- A plural loses its ending. -/
def foldToken (token : List Char) : List Char :=
  if 3 < token.length ∧ ['s'] <:+ token ∧ ¬ ['s', 's'] <:+ token ∧ String.ofList token ∉ pluralKeep then
    if pluralYSuffix.toList <:+ token then token.take (token.length - 3) ++ ['y'] else token.take (token.length - 1)
  else token

section
variable (u : Unicode)

def extractorNormalizeDomain (value : String) : String :=
  let cs := subRuns (fun c => !isDomainChar c) '_' false (u.lower value).toList
  strip (· = '_') (String.ofList (subRuns (· = '_') '_' false cs))

def resolverNormalize (value : String) : String :=
  let kept := ((extractorNormalizeDomain u value).toList.splitOn '_').filter fun t =>
    t ≠ [] ∧ String.ofList t ∉ stopwords
  String.ofList (['_'].intercalate (kept.map foldToken))

/-- `set(filter(None, resolver_normalize(value).split("_")))`. -/
def tokens (value : String) : Finset String :=
  ((((resolverNormalize u value).toList.splitOn '_').filter (· ≠ [])).map String.ofList).toFinset

end

/-- "My favourite code editors" and "code_editor" are one domain. -/
example : resolverNormalize asciiOnly "My favourite code editors" = "code_editor" := by decide +kernel

end Panella.Resolver
