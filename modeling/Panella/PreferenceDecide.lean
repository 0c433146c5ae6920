import Mathlib.Logic.Equiv.Defs
import Mathlib.Data.List.OfFn
import Panella.Governance
import Panella.Lib.JsonRoundTrip
import Panella.Lib.PyFloat
import Panella.Lib.SortedSet
import Panella.Lib.Text

/-!
# What to do with a new preference (`panella/preference_decide.py`)

| here | there |
| --- | --- |
| `extractJsonObject`, `parseJudge` | `_extract_json_object` (:143-161), `parse_judge` (:172-200) |
| `normValue` | `_norm_value` (:205-209) |
| `decide` | `decide` (:214-298) |

A model is asked which of the active preferences are in the slot of the new one, and answers in free text. A wrong merge is
worse than a missed one, so whatever is wrong with the answer has to end in `ADD`. It does wherever the answer can be read:
`decide_safe_iff`. `json.loads` and `float` raise more than the code catches, and then nothing is decided:
`longNumber_raises`.
-/

namespace Panella.PreferenceDecide

open Fallible PyFloat PyJson PyText SortedSet

/-- What the reply of the judge goes through on its way into numbers and texts. -/
structure JudgeLib (F : Type) where
  limits : Limits
  unicode : Unicode
  /-- `str(v)` of a value that is not a string. -/
  repr : Json → String
  /-- `str(v)` returns; of what nests too deep it is a `RecursionError`. -/
  prints : Json → Bool
  floatOfLit : FloatLit → F
  /-- `float(n)`, where it does not overflow. -/
  floatOfInt : Int → F
  /-- `float(s)`, where `s` is the text of a number. -/
  floatOfStr : String → Option F
  /-- `max(0.0, min(1.0, x))`. -/
  clamp : F → F
  zero : F

/-! ## Preferences and proposals -/

def riskNormal : String := "normal"
def riskHigh : String := "high"

inductive DecideAction
  | add
  | noop
  | update
  | updateNeedsApproval
deriving DecidableEq, Repr

inductive DecideReason
  | noActive
  | judgeNoMatch
  | judgeAmbiguous
  | parseError
  | kindGuard
  | riskGuard
  | sameValue
  | sameSlotUpdate
  | highRiskUpdate
deriving DecidableEq, Repr

structure PreferenceDescriptor where
  kind : String
  riskClass : String
  value : String
  slotQuestion : String
  slotLabel : String
  slotScope : String
  sourceSid : String
  /-- The durable row of an active preference. -/
  contentHash : Option String

/-- `a or b`, for two strings. -/
def orText (a b : String) : String := if a = "" then b else a

def PreferenceDescriptor.judgeDescriptor (p : PreferenceDescriptor) : String :=
  let base := orText (stripSpace p.slotQuestion) (stripSpace p.slotLabel)
  let slotScope := stripSpace p.slotScope
  if slotScope = "" then base else base ++ " (" ++ slotScope ++ ")"

structure DecideResult (F : Type) where
  action : DecideAction
  targetContentHash : Option String
  matchedIndex : Option Nat
  confidence : F
  ambiguous : Bool
  parseError : Bool
  rationale : String
  reason : DecideReason
  judgeIndices : List Nat
  judgeRationale : String

/-! ## The judge -/

def decideJudgeSys : String :=
  "You compare a NEW attribute about a user against a numbered list of EXISTING stored attributes, and " ++
  "identify which existing entries describe the SAME underlying attribute/slot as the new one — i.e. " ++
  "the new statement is an UPDATE to (or a restatement of) that same thing.\n\nMatch on the SLOT (what " ++
  "the attribute is ABOUT), NOT on the value. Two entries are the SAME slot even when their values " ++
  "DIFFER — e.g. 'favorite programming language: Python' and 'favorite programming language: Rust' are " ++
  "the SAME slot (an update). Two entries are DIFFERENT slots when they describe different attributes " ++
  "even if related — e.g. 'home city' vs 'work city', or 'food allergy' vs 'favorite food'.\n\nReturn " ++
  "ONLY a JSON object (no prose, no markdown fences) with:\n  \"same_slot_indices\": array of 0-based " ++
  "indices of EXISTING entries that are the SAME slot as the new attribute (normally 0 or 1; more than " ++
  "1 ONLY if the existing list genuinely repeats the same slot)\n  \"confidence\": 0.0-1.0\n  " ++
  "\"rationale\": one short sentence\n\nIf none match, return an empty array. When uncertain, PREFER an" ++
  " empty array — do NOT guess a match (a wrong match destroys a distinct fact; a missed match is " ++
  "harmless and recoverable)."

/-- `enumerate` and the lines of the active preferences. -/
def activeLines : Nat → List PreferenceDescriptor → List String
  | _, [] => []
  | i, p :: ps =>
    ("  [" ++ toString i ++ "] slot: " ++ p.judgeDescriptor ++ " | value: " ++ p.value) :: activeLines (i + 1) ps

def buildJudgeUser (candidate : PreferenceDescriptor) (active : List PreferenceDescriptor) : String :=
  "\n".intercalate
    (["NEW attribute:", "  slot: " ++ candidate.judgeDescriptor, "  value: " ++ candidate.value, "",
      "EXISTING stored attributes:"] ++ activeLines 0 active ++
      ["", "Which EXISTING indices are the SAME slot as the NEW attribute? Return the JSON object."])

def fence : List Char := ['`', '`', '`']

/-- ``re.sub(r"^```(?:json)?\s*|\s*```$", "", text, flags=re.DOTALL)``, for a stripped text that starts with a fence. -/
def dropFences (cs : List Char) : List Char :=
  let cs := cs.drop 3
  let cs := if ['j', 's', 'o', 'n'] <+: cs then cs.drop 4 else cs
  let cs := cs.dropWhile isSpace
  if fence <:+ cs then (cs.take (cs.length - 3)).rdropWhile isSpace else cs

/-- `text.find(c)`. -/
def find (c : Char) (cs : List Char) : Option Nat := cs.findIdx? (· = c)

/-- `text.rfind(c)`. -/
def rfind (c : Char) (cs : List Char) : Option Nat := (find c cs.reverse).map fun i => cs.length - 1 - i

/-- `text[start : end + 1]`, from the first brace to the last. -/
def braced (text : String) : Option String :=
  match find '\x7b' text.toList, rfind '\x7d' text.toList with
  | some start, some end' =>
    if end' ≤ start then none else some (String.ofList ((text.toList.take (end' + 1)).drop start))
  | _, _ => none

/-- The text the first `json.loads` reads. -/
def replyText (raw : String) : String :=
  let text := stripSpace raw
  if fence <+: text.toList then stripSpace (String.ofList (dropFences text.toList)) else text

/-- `parsed if isinstance(parsed, dict) else None`. -/
def dictOrNone : Json → Option Dict
  | .obj kvs => some kvs
  | _ => none

/-- What both extractors read: the whole text, or what `cut` takes out of it. A `JSONDecodeError` is caught, nothing else is. -/
def extractJson (lim : Limits) (cut : String → Option String) (raw : String) : Except JsonError (Option Json) :=
  match loadsMended lim (replyText raw) with
  | .ok v => .ok (some v)
  | .error .value =>
    match cut (replyText raw) with
    | none => .ok none
    | some text =>
      match loadsMended lim text with
      | .ok v => .ok (some v)
      | .error .value => .ok none
      | .error e => .error e
  | .error e => .error e

/-- `_extract_json_object`: a `JSONDecodeError` is caught, nothing else is. -/
def extractJsonObject (lim : Limits) (raw : String) : Except JsonError (Option Dict) :=
  match loadsMended lim (replyText raw) with
  | .ok v => .ok (dictOrNone v)
  | .error .value =>
    match braced (replyText raw) with
    | none => .ok none
    | some text =>
      match loadsMended lim text with
      | .ok v => .ok (dictOrNone v)
      | .error .value => .ok none
      | .error e => .error e
  | .error e => .error e

structure JudgeVerdict (F : Type) where
  indices : List Nat
  confidence : F
  rationale : String
  parseError : Bool

/-- The loop over `same_slot_indices`: `none` at the first entry that is no index. -/
def validIndices (n : Nat) : List Json → Option (List Nat)
  | [] => some []
  | .int i :: xs => if 0 ≤ i ∧ i < n then (validIndices n xs).map (i.toNat :: ·) else none
  | _ :: _ => none

section
variable {F : Type} (L : JudgeLib F)

/-- `float(v)`. -/
def JudgeLib.float : Json → Except PyErr F
  | .bool b => .ok (L.floatOfInt (if b then 1 else 0))
  | .int n =>
    if n.natAbs < floatLimit then .ok (L.floatOfInt n)
    else .error (.overflowError "int too large to convert to float")
  | .float x => .ok (L.floatOfLit x)
  | .str s =>
    match L.floatOfStr s with
    | some x => .ok x
    | none => .error (.valueError ("could not convert string to float: " ++ L.repr (.str s)))
  | v => .error (.typeError ("float() argument must be a string or a real number, not '" ++ typeName v ++ "'"))

/-- `str(v)`. -/
def JudgeLib.str : Json → Except PyErr String
  | .str s => .ok s
  | v => if L.prints v then .ok (L.repr v) else .error (.json .recursion)

/-- `obj.get("confidence", 0.0)`, as a float between 0 and 1. -/
def readConfidence (obj : Dict) : Except PyErr F :=
  if Dict.has obj "confidence" then
    match L.float (Dict.get obj "confidence") with
    | .ok x => .ok (L.clamp x)
    | .error e => if e.isValueOrType then .ok L.zero else .error e
  else .ok (L.clamp L.zero)

def JudgeVerdict.failed : JudgeVerdict F := ⟨[], L.zero, "", true⟩

def parseJudge (raw : String) (nActive : Nat) : Except PyErr (JudgeVerdict F) :=
  match extractJsonObject L.limits raw with
  | .error e => .error (.json e)
  | .ok none => .ok (.failed L)
  | .ok (some obj) =>
    match Dict.get obj "same_slot_indices" with
    | .arr xs =>
      match validIndices nActive xs with
      | none => .ok (.failed L)
      | some valid =>
        match readConfidence L obj with
        | .error e => .error e
        | .ok conf =>
          (L.str (Dict.getD obj "rationale" (.str ""))).map fun rationale =>
            ⟨sortedSet valid, conf, stripSpace rationale, false⟩
    | _ => .ok (.failed L)

/-! ## The decision -/

/-- `" .,;:!?\"'"`. -/
def isEdgePunctuation (c : Char) : Bool := [' ', '.', ',', ';', ':', '!', '?', '"', '\''].contains c

def normValue (s : String) : String :=
  strip isEdgePunctuation (String.ofList (subRuns isSpace ' ' false (L.unicode.lower (stripSpace s)).toList))

/-- `decide`, from the one match on. -/
def decideMatch (candidate : PreferenceDescriptor) (verdict : JudgeVerdict F) (idx : Nat) (found : PreferenceDescriptor) :
    DecideResult F :=
  if candidate.kind ≠ found.kind then
    { action := .add, targetContentHash := none, matchedIndex := some idx, confidence := verdict.confidence,
      ambiguous := false, parseError := false,
      rationale := "kind mismatch (" ++ candidate.kind ++ " vs " ++ found.kind ++ ") — not the same slot",
      reason := .kindGuard, judgeIndices := [idx], judgeRationale := verdict.rationale }
  else if candidate.riskClass ≠ found.riskClass then
    { action := .add, targetContentHash := none, matchedIndex := some idx, confidence := verdict.confidence,
      ambiguous := false, parseError := false,
      rationale := "risk-class mismatch (" ++ candidate.riskClass ++ " vs " ++ found.riskClass ++ ") — not the same slot",
      reason := .riskGuard, judgeIndices := [idx], judgeRationale := verdict.rationale }
  else
    let common (action : DecideAction) (reason : DecideReason) (rationale : String) : DecideResult F :=
      { action, targetContentHash := found.contentHash, matchedIndex := some idx, confidence := verdict.confidence,
        ambiguous := false, parseError := false, rationale, reason, judgeIndices := [idx],
        judgeRationale := verdict.rationale }
    if normValue L candidate.value = normValue L found.value then common .noop .sameValue "same slot, same value"
    else if candidate.riskClass = riskHigh then
      common .updateNeedsApproval .highRiskUpdate
        "high-risk slot update — never silent; route to Owner-visible approval"
    else common .update .sameSlotUpdate "same slot, new value"

/-- `decide`, from the verdict on; `active` is not empty. -/
def decideVerdict (candidate : PreferenceDescriptor) (active : List PreferenceDescriptor) (verdict : JudgeVerdict F) :
    Except PyErr (DecideResult F) :=
  if verdict.parseError then
    .ok { action := .add, targetContentHash := none, matchedIndex := none, confidence := L.zero, ambiguous := true,
          parseError := true, rationale := "judge reply unparseable — fail-safe ADD (never merge on an untrusted verdict)",
          reason := .parseError, judgeIndices := [], judgeRationale := "" }
  else
    match verdict.indices with
    | [] =>
      .ok { action := .add, targetContentHash := none, matchedIndex := none, confidence := verdict.confidence,
            ambiguous := false, parseError := false, rationale := "no same-slot match", reason := .judgeNoMatch,
            judgeIndices := [], judgeRationale := verdict.rationale }
    | [idx] =>
      match active[idx]? with
      | some found => .ok (decideMatch L candidate verdict idx found)
      | none => .error (.indexError "list index out of range")
    | indices =>
      .ok { action := .add, targetContentHash := none, matchedIndex := none, confidence := verdict.confidence,
            ambiguous := true, parseError := false,
            rationale := "ambiguous — " ++ toString indices.length ++ " same-slot matches; fail-safe ADD (never merge)",
            reason := .judgeAmbiguous, judgeIndices := indices, judgeRationale := verdict.rationale }

def decide (candidate : PreferenceDescriptor) (active : List PreferenceDescriptor) (judgeFn : String → String → String) :
    Except PyErr (DecideResult F) :=
  if active.isEmpty then
    .ok { action := .add, targetContentHash := none, matchedIndex := none, confidence := L.zero, ambiguous := false,
          parseError := false, rationale := "no active prefs in room", reason := .noActive, judgeIndices := [],
          judgeRationale := "" }
  else
    match parseJudge L (judgeFn decideJudgeSys (buildJudgeUser candidate active)) active.length with
    | .error e => .error e
    | .ok verdict => decideVerdict L candidate active verdict

/-! ## What a safe decision is -/

/-- The reply names the one index `i`: an object with a list of it, once or more often. -/
def NamesOne (raw : String) (nActive i : Nat) : Prop :=
  ∃ obj xs, extractJsonObject L.limits raw = .ok (some obj) ∧ Dict.get obj "same_slot_indices" = .arr xs ∧ xs ≠ [] ∧
    (∀ x ∈ xs, x = .int i) ∧ i < nActive

/-- The operation for a row in the slot of the candidate. -/
def operation (candidate found : PreferenceDescriptor) : DecideAction :=
  if normValue L candidate.value = normValue L found.value then .noop
  else if candidate.riskClass = riskHigh then .updateNeedsApproval
  else .update

/-- `res` never merges falsely, for the reply `raw`. -/
structure SafeResult (candidate : PreferenceDescriptor) (active : List PreferenceDescriptor) (raw : String)
    (res : DecideResult F) : Prop where
  /-- A target is the row of the one index named, of the same kind and risk, and the operation is the one for it. -/
  target : res.action ≠ .add ∨ res.targetContentHash ≠ none → ∃ i found, NamesOne L raw active.length i ∧
    active[i]? = some found ∧ found.kind = candidate.kind ∧ found.riskClass = candidate.riskClass ∧
    res.matchedIndex = some i ∧ res.targetContentHash = found.contentHash ∧ res.action = operation L candidate found
  silent : res.action = .update → ∃ i found, res.matchedIndex = some i ∧ active[i]? = some found ∧
    candidate.riskClass ≠ riskHigh ∧ found.riskClass ≠ riskHigh
  refused : (∀ i, ¬ NamesOne L raw active.length i) → res.action = .add ∧ res.targetContentHash = none

/-- Where row `i` goes. -/
def place {n : Nat} (σ : Equiv.Perm (Fin n)) (i : Nat) : Nat := if h : i < n then σ ⟨i, h⟩ else i

/-- An index of a reply, moved with its row; anything else stays. -/
def moveIndex {n : Nat} (σ : Equiv.Perm (Fin n)) : Json → Json
  | .int k => if 0 ≤ k ∧ k < n then .int (place σ k.toNat) else .int k
  | v => v

/-- The object of a reply with its indices moved. -/
def moveReply {n : Nat} (σ : Equiv.Perm (Fin n)) (obj : Dict) : Dict :=
  match Dict.get obj "same_slot_indices" with
  | .arr xs => Dict.set obj "same_slot_indices" (.arr (xs.map (moveIndex σ)))
  | _ => obj

/-- The list with row `i` at `place σ i`. -/
def moveRows (active : List PreferenceDescriptor) (σ : Equiv.Perm (Fin active.length)) : List PreferenceDescriptor :=
  List.ofFn fun i => active[σ.symm i]

/-- The same decision about the same row at its new place. -/
structure SameDecision (place : Nat → Nat) (res res' : DecideResult F) : Prop where
  action : res'.action = res.action
  target : res'.targetContentHash = res.targetContentHash
  matched : res'.matchedIndex = res.matchedIndex.map place

/-- **`decide` never merges falsely**, whatever the judge replies. -/
structure DecidesSafely (candidate : PreferenceDescriptor) (active : List PreferenceDescriptor)
    (judgeFn : String → String → String) : Prop where
  safe : ∃ res, decide L candidate active judgeFn = .ok res ∧
    SafeResult L candidate active (judgeFn decideJudgeSys (buildJudgeUser candidate active)) res
  /-- Another order of the rows, and a reply with the same indices moved, give the same decision. -/
  permuted : ∀ (σ : Equiv.Perm (Fin active.length)) (judgeFn' : String → String → String),
    extractJsonObject L.limits (judgeFn' decideJudgeSys (buildJudgeUser candidate (moveRows active σ))) =
      (extractJsonObject L.limits (judgeFn decideJudgeSys (buildJudgeUser candidate active))).map
        (Option.map (moveReply σ)) →
    ∃ res res', decide L candidate active judgeFn = .ok res ∧
      decide L candidate (moveRows active σ) judgeFn' = .ok res' ∧ SameDecision (place σ) res res'

/-- `str` has a text for the value. -/
def JudgeLib.Printable (v : Json) : Prop := ∃ text, L.str v = .ok text

/-- `json.loads` reads the text or says that it is no JSON. -/
def LoadsOrRejects (lim : Limits) (text : String) : Prop := ∀ e, loadsMended lim text = .error e → e = .value

/-- The reply can be read. -/
structure Readable (raw : String) (nActive : Nat) : Prop where
  whole : LoadsOrRejects L.limits (replyText raw)
  /-- Where the whole is no JSON: what stands in braces. -/
  inBraces : loadsMended L.limits (replyText raw) = .error .value →
    ∀ text, braced (replyText raw) = some text → LoadsOrRejects L.limits text
  /-- Beside valid indices the confidence is no integer too large for a float. -/
  confidence : ∀ obj xs valid k, extractJsonObject L.limits raw = .ok (some obj) →
    Dict.get obj "same_slot_indices" = .arr xs → validIndices nActive xs = some valid →
    Dict.get obj "confidence" = .int k → k.natAbs < floatLimit
  /-- Nor is the rationale a value too deep to print. -/
  rationale : ∀ obj xs valid, extractJsonObject L.limits raw = .ok (some obj) →
    Dict.get obj "same_slot_indices" = .arr xs → validIndices nActive xs = some valid →
    L.Printable (Dict.getD obj "rationale" (.str ""))

end

variable {F : Type} {L : JudgeLib F} {raw : String} {n : Nat}

/-! ## Reading a reply -/

theorem extractJson_ok_iff {lim : Limits} {cut : String → Option String} :
    (∃ parsed, extractJson lim cut raw = .ok parsed) ↔ LoadsOrRejects lim (replyText raw) ∧
      (loadsMended lim (replyText raw) = .error .value →
        ∀ text, cut (replyText raw) = some text → LoadsOrRejects lim text) := by
  unfold extractJson
  cases hwhole : loadsMended lim (replyText raw) with
  | ok v => simp [LoadsOrRejects, hwhole]
  | error e =>
    cases e with
    | value =>
      cases hcut : cut (replyText raw) with
      | none => simp [LoadsOrRejects, hwhole]
      | some text =>
        cases hin : loadsMended lim text with
        | ok v => simp [LoadsOrRejects, hwhole, hin]
        | error e => cases e <;> simp [LoadsOrRejects, hwhole, hin]
    | digits => simp [LoadsOrRejects, hwhole]
    | recursion => simp [LoadsOrRejects, hwhole]

/-- The one extractor keeps the objects of the other. -/
theorem extractJsonObject_eq {lim : Limits} :
    extractJsonObject lim raw = (extractJson lim braced raw).map fun parsed => parsed.bind dictOrNone := by
  unfold extractJsonObject extractJson
  split
  · rfl
  · split
    · rfl
    · split <;> rfl
  · rfl

theorem extractJsonObject_ok_iff {lim : Limits} :
    (∃ parsed, extractJsonObject lim raw = .ok parsed) ↔ LoadsOrRejects lim (replyText raw) ∧
      (loadsMended lim (replyText raw) = .error .value →
        ∀ text, braced (replyText raw) = some text → LoadsOrRejects lim text) := by
  rw [extractJsonObject_eq, map_ok_iff, extractJson_ok_iff]

/-- The entry that names row `i`. -/
def entry (i : Nat) : Json := .int i

/-- Valid indices are natural numbers in range, and nothing else. -/
theorem validIndices_eq_some_iff {xs : List Json} {valid : List Nat} :
    validIndices n xs = some valid ↔ xs = valid.map entry ∧ ∀ i ∈ valid, i < n := by
  induction xs generalizing valid with
  | nil => cases valid <;> simp [validIndices]
  | cons x xs ih =>
    cases x with
    | int k =>
      by_cases hk : 0 ≤ k ∧ k < n
      · rw [validIndices, if_pos hk, Option.map_eq_some_iff]
        constructor
        · rintro ⟨rest, hrest, rfl⟩
          obtain ⟨rfl, hlt⟩ := ih.1 hrest
          refine ⟨by simp [entry, hk.1], ?_⟩
          intro i hi
          rcases List.mem_cons.1 hi with rfl | hi
          · omega
          · exact hlt i hi
        · rintro ⟨hxs, hlt⟩
          cases valid with
          | nil => cases hxs
          | cons i rest =>
            simp only [List.map_cons, List.cons.injEq, entry, Json.int.injEq] at hxs
            refine ⟨rest, ih.2 ⟨hxs.2, fun j hj => hlt j (List.mem_cons_of_mem i hj)⟩, ?_⟩
            rw [hxs.1]
            rfl
      · rw [validIndices, if_neg hk]
        constructor
        · intro h
          cases h
        · rintro ⟨hxs, hlt⟩
          cases valid with
          | nil => cases hxs
          | cons i rest =>
            simp only [List.map_cons, List.cons.injEq, entry, Json.int.injEq] at hxs
            have hi := hlt i List.mem_cons_self
            exact absurd ⟨by omega, by omega⟩ hk
    | _ => cases valid <;> simp [validIndices, entry]

/-- `float` refuses integers only for their size, and everything else it refuses is caught. -/
theorem readConfidence_ok_iff {obj : Dict} :
    (∃ x, readConfidence L obj = .ok x) ↔ ∀ k, Dict.get obj "confidence" = .int k → k.natAbs < floatLimit := by
  unfold readConfidence
  by_cases hhas : Dict.has obj "confidence" = true
  · rw [if_pos hhas]
    cases hv : Dict.get obj "confidence" with
    | int k => by_cases hk : k.natAbs < floatLimit <;> simp [JudgeLib.float, hk, PyErr.isValueOrType]
    | str s => cases hs : L.floatOfStr s <;> simp [JudgeLib.float, hs, PyErr.isValueOrType]
    | _ => simp [JudgeLib.float, PyErr.isValueOrType]
  · rw [if_neg hhas, Dict.get_of_notMem (by simpa [Dict.has_iff] using hhas)]
    simp

/-- **What the parsed reply says**: whether it has valid indices, and which. -/
theorem parseJudge_ok {verdict : JudgeVerdict F} (h : parseJudge L raw n = .ok verdict) :
    (verdict = .failed L ∧ ∀ i, ¬ NamesOne L raw n i) ∨
      ∃ obj valid, extractJsonObject L.limits raw = .ok (some obj) ∧
        Dict.get obj "same_slot_indices" = .arr (valid.map entry) ∧ (∀ i ∈ valid, i < n) ∧
        verdict.parseError = false ∧ verdict.indices = sortedSet valid := by
  unfold parseJudge at h
  split at h
  · cases h
  · next hparsed =>
    cases h
    refine .inl ⟨rfl, ?_⟩
    rintro i ⟨obj, xs, hobj, -⟩
    rw [hparsed] at hobj
    cases hobj
  · next obj hparsed =>
    split at h
    · next xs hxs =>
      split at h
      · next hvalid =>
        cases h
        refine .inl ⟨rfl, ?_⟩
        rintro i ⟨obj', xs', hobj, hxs', -, hall, hi⟩
        rw [hparsed, Except.ok.injEq, Option.some.injEq] at hobj
        rw [← hobj, hxs, Json.arr.injEq] at hxs'
        have hsome : validIndices n xs = some (List.replicate xs.length i) := by
          apply validIndices_eq_some_iff.2
          constructor
          · rw [List.map_replicate]
            exact List.eq_replicate_of_mem fun x hx => hall x (hxs' ▸ hx)
          · intro j hj
            rw [List.eq_of_mem_replicate hj]
            exact hi
        rw [hvalid] at hsome
        cases hsome
      · next valid hvalid =>
        split at h
        · cases h
        · cases htext : L.str (Dict.getD obj "rationale" (.str "")) with
          | error e => rw [htext] at h; cases h
          | ok text =>
          rw [htext] at h
          cases h
          obtain ⟨hlist, hlt⟩ := validIndices_eq_some_iff.1 hvalid
          exact .inr ⟨obj, valid, hparsed, hlist ▸ hxs, hlt, rfl, rfl⟩
    · next hnot =>
      cases h
      refine .inl ⟨rfl, ?_⟩
      rintro i ⟨obj', xs', hobj, hxs', -⟩
      rw [hparsed, Except.ok.injEq, Option.some.injEq] at hobj
      exact hnot xs' (hobj ▸ hxs')

theorem NamesOne.lt {i : Nat} (h : NamesOne L raw n i) : i < n := by
  obtain ⟨_, _, _, _, _, _, hlt⟩ := h
  exact hlt

/-- **A reply names one index exactly where the verdict has it alone.** -/
theorem namesOne_iff {verdict : JudgeVerdict F} (h : parseJudge L raw n = .ok verdict) {i : Nat} :
    NamesOne L raw n i ↔ verdict.parseError = false ∧ verdict.indices = [i] := by
  rcases parseJudge_ok h with ⟨rfl, hnone⟩ | ⟨obj, valid, hobj, hxs, hlt, herr, hindices⟩
  · simp [JudgeVerdict.failed, hnone i]
  · rw [hindices, sortedSet_eq_singleton_iff]
    constructor
    · rintro ⟨obj', xs, hobj', hxs', hne, hall, -⟩
      rw [hobj, Except.ok.injEq, Option.some.injEq] at hobj'
      rw [← hobj', hxs, Json.arr.injEq] at hxs'
      refine ⟨herr, ?_, ?_⟩
      · rintro rfl
        exact hne (by simp [← hxs'])
      · intro j hj
        have hint := hall (entry j) (hxs' ▸ List.mem_map_of_mem hj)
        exact Int.ofNat_inj.1 (Json.int.inj hint)
    · rintro ⟨-, hne, hall⟩
      refine ⟨obj, _, hobj, hxs, by simpa using hne, ?_, ?_⟩
      · intro x hx
        obtain ⟨j, hj, rfl⟩ := List.mem_map.1 hx
        rw [hall j hj, entry]
      · obtain ⟨j, hj⟩ := List.exists_mem_of_ne_nil valid hne
        exact hall j hj ▸ hlt j hj

/-- The index of a verdict is in range. -/
theorem parseJudge_lt {verdict : JudgeVerdict F} (h : parseJudge L raw n = .ok verdict) {i : Nat}
    (hi : verdict.indices = [i]) : i < n := by
  rcases parseJudge_ok h with ⟨rfl, -⟩ | ⟨obj, valid, -, -, -, herr, -⟩
  · cases hi
  · exact ((namesOne_iff h).2 ⟨herr, hi⟩).lt

theorem parseJudge_ok_iff : (∃ verdict, parseJudge L raw n = .ok verdict) ↔ Readable L raw n := by
  constructor
  · rintro ⟨verdict, h⟩
    have hparsed : ∃ parsed, extractJsonObject L.limits raw = .ok parsed := by
      unfold parseJudge at h
      split at h
      · cases h
      · next hp => exact ⟨_, hp⟩
      · next hp => exact ⟨_, hp⟩
    obtain ⟨hwhole, hbraces⟩ := extractJsonObject_ok_iff.1 hparsed
    have hrest : ∀ obj xs valid, extractJsonObject L.limits raw = .ok (some obj) →
        Dict.get obj "same_slot_indices" = .arr xs → validIndices n xs = some valid →
        (∃ x, readConfidence L obj = .ok x) ∧ L.Printable (Dict.getD obj "rationale" (.str "")) := by
      intro obj xs valid hobj hxs hvalid
      unfold parseJudge at h
      rw [hobj] at h
      simp only [hxs, hvalid] at h
      split at h
      · cases h
      · next conf hr =>
        refine ⟨⟨conf, hr⟩, ?_⟩
        cases htext : L.str (Dict.getD obj "rationale" (.str "")) with
        | error e => rw [htext] at h; cases h
        | ok text => exact ⟨text, htext⟩
    refine ⟨hwhole, hbraces, ?_, ?_⟩
    · intro obj xs valid k hobj hxs hvalid
      exact readConfidence_ok_iff.1 (hrest obj xs valid hobj hxs hvalid).1 k
    · intro obj xs valid hobj hxs hvalid
      exact (hrest obj xs valid hobj hxs hvalid).2
  · rintro ⟨hwhole, hbraces, hconf, hrationale⟩
    obtain ⟨parsed, hparsed⟩ := extractJsonObject_ok_iff.2 ⟨hwhole, hbraces⟩
    unfold parseJudge
    rw [hparsed]
    cases parsed with
    | none => exact ⟨_, rfl⟩
    | some obj =>
      simp only
      split
      · next xs hxs =>
        split
        · exact ⟨_, rfl⟩
        · next valid hvalid =>
          obtain ⟨x, hx⟩ : ∃ x, readConfidence L obj = .ok x :=
            readConfidence_ok_iff.2 fun k => hconf obj xs valid k hparsed hxs hvalid
          obtain ⟨text, htext⟩ := hrationale obj xs valid hparsed hxs hvalid
          rw [hx, htext]
          exact ⟨_, rfl⟩
      · exact ⟨_, rfl⟩

/-! ## The decision about the one match -/

variable {candidate found : PreferenceDescriptor} {active : List PreferenceDescriptor} {verdict : JudgeVerdict F}

/-- **The guards decide whether there is a target**, the values and the risk which operation it is. -/
theorem decideMatch_cases (L : JudgeLib F) (candidate found : PreferenceDescriptor) (verdict : JudgeVerdict F) (i : Nat) :
    (decideMatch L candidate verdict i found).matchedIndex = some i ∧
      (((decideMatch L candidate verdict i found).action = .add ∧
          (decideMatch L candidate verdict i found).targetContentHash = none) ∨
        (found.kind = candidate.kind ∧ found.riskClass = candidate.riskClass ∧
          (decideMatch L candidate verdict i found).action = operation L candidate found ∧
          (decideMatch L candidate verdict i found).targetContentHash = found.contentHash)) := by
  unfold decideMatch
  by_cases hkind : candidate.kind ≠ found.kind
  · rw [if_pos hkind]
    exact ⟨rfl, .inl ⟨rfl, rfl⟩⟩
  · rw [if_neg hkind]
    by_cases hrisk : candidate.riskClass ≠ found.riskClass
    · rw [if_pos hrisk]
      exact ⟨rfl, .inl ⟨rfl, rfl⟩⟩
    · rw [if_neg hrisk]
      simp only [ne_eq, Decidable.not_not] at hkind hrisk
      unfold operation
      split
      · exact ⟨rfl, .inr ⟨hkind.symm, hrisk.symm, rfl, rfl⟩⟩
      · split
        · exact ⟨rfl, .inr ⟨hkind.symm, hrisk.symm, rfl, rfl⟩⟩
        · exact ⟨rfl, .inr ⟨hkind.symm, hrisk.symm, rfl, rfl⟩⟩

/-- The verdict's texts and the place of the row have no say in it. -/
theorem decideMatch_same (L : JudgeLib F) (candidate found : PreferenceDescriptor) (verdict verdict' : JudgeVerdict F)
    (i i' : Nat) :
    (decideMatch L candidate verdict' i' found).action = (decideMatch L candidate verdict i found).action ∧
      (decideMatch L candidate verdict' i' found).targetContentHash =
        (decideMatch L candidate verdict i found).targetContentHash := by
  unfold decideMatch
  split
  · exact ⟨rfl, rfl⟩
  · split
    · exact ⟨rfl, rfl⟩
    · split
      · exact ⟨rfl, rfl⟩
      · split <;> exact ⟨rfl, rfl⟩

/-- A silent update is of no high risk. -/
theorem operation_update (h : operation L candidate found = .update) : candidate.riskClass ≠ riskHigh := by
  unfold operation at h
  split at h
  · cases h
  · split at h
    · cases h
    · next hlow => exact hlow

/-! ## Every verdict -/

/-- An `ADD` without a target is safe where no index is named alone. -/
theorem safe_add {res : DecideResult F} (hadd : res.action = .add) (htarget : res.targetContentHash = none) :
    SafeResult L candidate active raw res := by
  refine ⟨?_, ?_, fun _ => ⟨hadd, htarget⟩⟩
  · rintro (h | h)
    · exact absurd hadd h
    · exact absurd htarget h
  · intro h
    rw [hadd] at h
    cases h

/-- **The one match, decided.** -/
theorem safe_match {i : Nat} (hnames : NamesOne L raw active.length i) (hfound : active[i]? = some found) :
    SafeResult L candidate active raw (decideMatch L candidate verdict i found) := by
  obtain ⟨hindex, hcases⟩ := decideMatch_cases L candidate found verdict i
  rcases hcases with ⟨hadd, htarget⟩ | ⟨hkind, hrisk, haction, htarget⟩
  · exact safe_add hadd htarget
  · refine ⟨?_, ?_, fun hnone => absurd hnames (hnone i)⟩
    · intro _
      exact ⟨i, found, hnames, hfound, hkind, hrisk, hindex, htarget, haction⟩
    · intro hupdate
      rw [haction] at hupdate
      have hlow : candidate.riskClass ≠ riskHigh := operation_update hupdate
      exact ⟨i, found, hindex, hfound, hlow, hrisk ▸ hlow⟩

variable (candidate) in
/-- A verdict on indices leads to a safe result. -/
theorem decideVerdict_safe (hverdict : parseJudge L raw active.length = .ok verdict) :
    ∃ res, decideVerdict L candidate active verdict = .ok res ∧ SafeResult L candidate active raw res := by
  unfold decideVerdict
  split
  · exact ⟨_, rfl, safe_add rfl rfl⟩
  · next herr =>
    split
    · exact ⟨_, rfl, safe_add rfl rfl⟩
    · next idx hindices =>
      have hnames : NamesOne L raw active.length idx := (namesOne_iff hverdict).2 ⟨by simpa using herr, hindices⟩
      have hlt : idx < active.length := hnames.lt
      rw [List.getElem?_eq_getElem hlt]
      exact ⟨_, rfl, safe_match hnames (List.getElem?_eq_getElem hlt)⟩
    · exact ⟨_, rfl, safe_add rfl rfl⟩

/-! ## Another order of the rows -/

variable {σ : Equiv.Perm (Fin active.length)}

theorem place_lt {n : Nat} (σ : Equiv.Perm (Fin n)) {i : Nat} (h : i < n) : place σ i < n := by
  rw [place, dif_pos h]
  exact (σ ⟨i, h⟩).isLt

theorem place_inj {n : Nat} (σ : Equiv.Perm (Fin n)) {i j : Nat} (hi : i < n) (hj : j < n) (h : place σ i = place σ j) :
    i = j := by
  rw [place, place, dif_pos hi, dif_pos hj] at h
  exact Fin.mk.inj (σ.injective (Fin.ext h))

theorem length_moveRows : (moveRows active σ).length = active.length := List.length_ofFn

theorem moveRows_place {i : Nat} (h : i < active.length) : (moveRows active σ)[place σ i]? = active[i]? := by
  rw [moveRows, List.getElem?_ofFn, dif_pos (place_lt σ h), List.getElem?_eq_getElem h]
  simp only [place, dif_pos h, Fin.eta, Equiv.symm_apply_apply, Fin.getElem_fin]

/-- The valid indices of a moved list are the moved ones. -/
theorem validIndices_move {n : Nat} (σ : Equiv.Perm (Fin n)) (xs : List Json) :
    validIndices n (xs.map (moveIndex σ)) = (validIndices n xs).map (List.map (place σ)) := by
  induction xs with
  | nil => rfl
  | cons x xs ih =>
    cases x with
    | int k =>
      by_cases hk : 0 ≤ k ∧ k < n
      · have hlt : place σ k.toNat < n := place_lt σ (by omega)
        rw [List.map_cons, moveIndex, if_pos hk, validIndices, if_pos (by omega), ih, validIndices, if_pos hk,
          Option.map_map, Option.map_map]
        rfl
      · rw [List.map_cons, moveIndex, if_neg hk, validIndices, if_neg hk, validIndices, if_neg hk, Option.map_none]
    | _ => rfl

theorem get_moveReply {n : Nat} (σ : Equiv.Perm (Fin n)) (obj : Dict) :
    Dict.get (moveReply σ obj) "same_slot_indices" =
      match Dict.get obj "same_slot_indices" with
      | .arr xs => .arr (xs.map (moveIndex σ))
      | v => v := by
  unfold moveReply
  split
  · next xs hxs => rw [Dict.get_set, if_pos rfl]
  · rfl

theorem get_moveReply_of_ne {n : Nat} (σ : Equiv.Perm (Fin n)) (obj : Dict) {k : String} (hk : k ≠ "same_slot_indices") :
    Dict.get (moveReply σ obj) k = Dict.get obj k := by
  unfold moveReply
  split
  · rw [Dict.get_set, if_neg hk.symm]
  · rfl

theorem has_moveReply_of_ne {n : Nat} (σ : Equiv.Perm (Fin n)) (obj : Dict) {k : String} (hk : k ≠ "same_slot_indices") :
    Dict.has (moveReply σ obj) k = Dict.has obj k := by
  unfold moveReply
  split
  · rw [Bool.eq_iff_iff, Dict.has_iff, Dict.has_iff, Dict.mem_keys_set, or_iff_left hk]
  · rfl

theorem readConfidence_move {n : Nat} (σ : Equiv.Perm (Fin n)) (obj : Dict) :
    readConfidence L (moveReply σ obj) = readConfidence L obj := by
  unfold readConfidence
  rw [has_moveReply_of_ne σ obj (by simp), get_moveReply_of_ne σ obj (by simp)]

theorem rationale_move {n : Nat} (σ : Equiv.Perm (Fin n)) (obj : Dict) :
    Dict.getD (moveReply σ obj) "rationale" (.str "") = Dict.getD obj "rationale" (.str "") := by
  unfold Dict.getD
  rw [has_moveReply_of_ne σ obj (by simp), get_moveReply_of_ne σ obj (by simp)]

/-- Sets of moved indices: none stays none, one stays one. -/
theorem sortedSet_move {n : Nat} (σ : Equiv.Perm (Fin n)) {xs : List Nat} (hxs : ∀ i ∈ xs, i < n) {i : Nat} (hi : i < n) :
    sortedSet (xs.map (place σ)) = [place σ i] ↔ sortedSet xs = [i] := by
  rw [sortedSet_eq_singleton_iff, sortedSet_eq_singleton_iff, ne_eq, List.map_eq_nil_iff]
  refine and_congr_right fun _ => ?_
  constructor
  · intro h j hj
    exact place_inj σ (hxs j hj) hi (h _ (List.mem_map_of_mem hj))
  · intro h j hj
    obtain ⟨k, hk, rfl⟩ := List.mem_map.1 hj
    rw [h k hk]

/-- The verdict on the moved reply is the moved verdict. -/
theorem parseJudge_move {raw' : String} {verdict : JudgeVerdict F} (σ : Equiv.Perm (Fin n))
    (hmoved : extractJsonObject L.limits raw' = (extractJsonObject L.limits raw).map (Option.map (moveReply σ)))
    (h : parseJudge L raw n = .ok verdict) :
    ∃ verdict', parseJudge L raw' n = .ok verdict' ∧ verdict'.parseError = verdict.parseError ∧
      (verdict'.indices = [] ↔ verdict.indices = []) ∧
      ∀ i < n, verdict'.indices = [place σ i] ↔ verdict.indices = [i] := by
  unfold parseJudge at h ⊢
  rw [hmoved]
  split at h
  · cases h
  · next hparsed =>
    cases h
    rw [hparsed]
    exact ⟨_, rfl, rfl, Iff.rfl, fun i _ => by simp [JudgeVerdict.failed]⟩
  · next obj hparsed =>
    rw [hparsed]
    simp only [Except.map, Option.map_some, get_moveReply]
    split at h
    · next xs hxs =>
      simp only [validIndices_move]
      split at h
      · next hvalid =>
        cases h
        rw [hvalid]
        exact ⟨_, rfl, rfl, Iff.rfl, fun i _ => by simp [JudgeVerdict.failed]⟩
      · next valid hvalid =>
        rw [hvalid]
        simp only [Option.map_some]
        rw [readConfidence_move, rationale_move]
        split at h
        · cases h
        · next x hx =>
          cases htext : L.str (Dict.getD obj "rationale" (.str "")) with
          | error e => rw [htext] at h; cases h
          | ok text =>
          rw [htext] at h
          cases h
          refine ⟨_, rfl, rfl, ?_, fun i hi => ?_⟩
          · rw [sortedSet_eq_nil_iff, sortedSet_eq_nil_iff, List.map_eq_nil_iff]
          · exact sortedSet_move σ (validIndices_eq_some_iff.1 hvalid).2 hi
    · next hnot =>
      cases h
      split
      · next xs hxs => exact absurd hxs (hnot xs)
      · exact ⟨_, rfl, rfl, Iff.rfl, fun i _ => by simp [JudgeVerdict.failed]⟩

/-- **A moved verdict on moved rows is the same decision.** -/
theorem decideVerdict_move {verdict verdict' : JudgeVerdict F} (hlt : ∀ i, verdict.indices = [i] → i < active.length)
    (herr : verdict'.parseError = verdict.parseError) (hnil : verdict'.indices = [] ↔ verdict.indices = [])
    (hone : ∀ i < active.length, verdict'.indices = [place σ i] ↔ verdict.indices = [i])
    (hlt' : ∀ i, verdict'.indices = [i] → i < active.length) {res : DecideResult F}
    (h : decideVerdict L candidate active verdict = .ok res) :
    ∃ res', decideVerdict L candidate (moveRows active σ) verdict' = .ok res' ∧ SameDecision (place σ) res res' := by
  unfold decideVerdict at h ⊢
  split at h
  · next hp =>
    cases h
    rw [if_pos (herr.trans hp)]
    exact ⟨_, rfl, rfl, rfl, rfl⟩
  · next hp =>
    rw [if_neg (herr ▸ hp)]
    split at h
    · next hindices =>
      cases h
      rw [hnil.2 hindices]
      exact ⟨_, rfl, rfl, rfl, rfl⟩
    · next i hindices =>
      have hi : i < active.length := hlt i hindices
      rw [(hone i hi).2 hindices]
      rw [List.getElem?_eq_getElem hi] at h
      cases h
      simp only [moveRows_place hi, List.getElem?_eq_getElem hi]
      obtain ⟨haction, htarget⟩ := decideMatch_same L candidate active[i] verdict verdict' i (place σ i)
      refine ⟨_, rfl, haction, htarget, ?_⟩
      rw [(decideMatch_cases L candidate active[i] verdict' (place σ i)).1,
        (decideMatch_cases L candidate active[i] verdict i).1]
      rfl
    · next hmany hnone =>
      cases h
      split
      · next hempty => exact absurd (hnil.1 hempty) hmany
      · next j hj =>
        -- `j` is the place of a row, and that row is the one index
        have hjlt : j < active.length := hlt' j hj
        have hback : place σ (place σ.symm j) = j := by
          simp [place, hjlt]
        have hi : place σ.symm j < active.length := place_lt σ.symm hjlt
        exact absurd ((hone _ hi).1 (hback.symm ▸ hj)) (hnone _)
      · exact ⟨_, rfl, rfl, rfl, rfl⟩

/-- **`decide` never merges falsely exactly where the reply can be read**, or is not asked for. -/
theorem decide_safe_iff (L : JudgeLib F) (candidate : PreferenceDescriptor) (active : List PreferenceDescriptor)
    (judgeFn : String → String → String) :
    DecidesSafely L candidate active judgeFn ↔
      active = [] ∨ Readable L (judgeFn decideJudgeSys (buildJudgeUser candidate active)) active.length := by
  by_cases hempty : active = []
  · subst hempty
    refine iff_of_true ?_ (.inl rfl)
    refine ⟨⟨_, rfl, safe_add rfl rfl⟩, fun σ judgeFn' _ => ⟨_, _, rfl, rfl, rfl, rfl, rfl⟩⟩
  · rw [or_iff_right hempty, ← parseJudge_ok_iff]
    have hdecide : ∀ {rows : List PreferenceDescriptor} {judge : String → String → String} {verdict : JudgeVerdict F},
        rows.length = active.length →
        parseJudge L (judge decideJudgeSys (buildJudgeUser candidate rows)) rows.length = .ok verdict →
        decide L candidate rows judge = decideVerdict L candidate rows verdict := by
      intro rows judge verdict hlen hverdict
      have hne : rows ≠ [] := by
        rintro rfl
        exact hempty (List.length_eq_zero_iff.1 hlen.symm)
      unfold decide
      rw [if_neg (by simpa using hne), hverdict]
    constructor
    · rintro ⟨⟨res, hres, -⟩, -⟩
      unfold decide at hres
      rw [if_neg (by simpa using hempty)] at hres
      split at hres
      · cases hres
      · next verdict hverdict => exact ⟨verdict, hverdict⟩
    · rintro ⟨verdict, hverdict⟩
      obtain ⟨res, hres, hsafe⟩ := decideVerdict_safe candidate hverdict
      refine ⟨⟨res, (hdecide rfl hverdict).trans hres, hsafe⟩, ?_⟩
      intro σ judgeFn' hmoved
      obtain ⟨verdict', hverdict', herr, hnil, hone⟩ := parseJudge_move σ hmoved hverdict
      obtain ⟨res', hres', hsame⟩ := decideVerdict_move (fun i => parseJudge_lt hverdict) herr hnil hone
        (fun i => parseJudge_lt hverdict') hres
      refine ⟨res, res', (hdecide rfl hverdict).trans hres, ?_, hsame⟩
      rw [← length_moveRows (σ := σ)] at hverdict'
      exact (hdecide length_moveRows hverdict').trans hres'

/-- A reply of `k + 1` ones. -/
def ones (k : Nat) : String := String.ofList (List.replicate (k + 1) '1')

theorem toList_ones (k : Nat) : (ones k).toList = '1' :: List.replicate k '1' := by
  rw [ones, String.toList_ofList, List.replicate_succ]

theorem scanNumber_ones (k : Nat) : scanNumber (ones k).toList = some (false, (ones k).toList, []) := by
  have hdigits : ∀ c ∈ List.replicate k '1', c.isDigit = true := by
    intro c hc
    rw [List.eq_of_mem_replicate hc]
    rfl
  have htake : (List.replicate k '1').takeWhile Char.isDigit = List.replicate k '1' := List.takeWhile_eq_self_iff.2 hdigits
  have hdrop : (List.replicate k '1').dropWhile Char.isDigit = [] := List.dropWhile_eq_nil_iff.2 hdigits
  rw [toList_ones]
  simp [scanNumber, scanUnsigned, scanWhole, htake, hdrop, scanFrac, scanExp]

/-- A number of too many digits is not read. -/
theorem loads_ones {lim : Limits} {k : Nat} (h : lim.digits < k + 1) : loads lim (ones k) = .error .digits := by
  have hopens : Opens (ones k).toList := toList_ones k ▸ opens_of_isDigit (by rfl) _
  have hparse : parseNumber lim.digits (ones k).toList = .error .digits := by
    unfold parseNumber
    split
    · next hnone =>
      rw [scanNumber_ones] at hnone
      cases hnone
    · next hfloat =>
      rw [scanNumber_ones] at hfloat
      cases hfloat
    · next t r hint =>
      rw [scanNumber_ones] at hint
      simp only [Option.some.injEq, Prod.mk.injEq, true_and] at hint
      have hlong : ¬ k + 1 ≤ lim.digits := by omega
      rw [← hint.1, toList_ones]
      simp [parseInt, Except.map, hlong]
  have hvalue := parseValue_number (scanNumber_ones k) lim.digits (2 * (ones k).toList.length + 1) lim.nesting []
  rw [List.append_nil] at hvalue
  unfold loads
  split
  · next hbom =>
    rw [toList_ones] at hbom
    cases hbom
  · rw [hopens.skipWs, hvalue, hparse]

theorem replyText_ones (k : Nat) : replyText (ones k) = ones k := by
  have hstrip : stripSpace (ones k) = ones k := by
    have htrim : stripList isSpace (ones k).toList = (ones k).toList := by
      apply strip_eq_self_iff.2
      rw [ones, String.toList_ofList]
      constructor
      · intro c hc
        rw [List.eq_of_mem_replicate (List.mem_of_mem_head? hc)]
        rfl
      · intro c hc
        rw [List.eq_of_mem_replicate (List.mem_of_getLast? hc)]
        rfl
    rw [stripSpace, strip, htrim, String.ofList_toList]
  unfold replyText
  rw [hstrip, if_neg]
  rw [toList_ones]
  simp [fence]

def sampleJudge : JudgeLib Unit where
  limits := ⟨1000, 4300⟩
  unicode := asciiOnly
  repr _ := ""
  prints _ := true
  floatOfLit _ := ()
  floatOfInt _ := ()
  floatOfStr _ := none
  clamp x := x
  zero := ()

def teaPreference : PreferenceDescriptor where
  kind := "preference"
  riskClass := riskNormal
  value := "tea"
  slotQuestion := "favourite drink"
  slotLabel := ""
  slotScope := ""
  sourceSid := ""
  contentHash := some "a"

/-- A reply that is too long a number stops the parser. -/
theorem parseJudge_ones {k : Nat} (h : L.limits.digits < k + 1) (nActive : Nat) :
    parseJudge L (ones k) nActive = .error (.json .digits) := by
  have hmended : loadsMended L.limits (ones k) = .error .digits := by
    rw [loadsMended_eq, loads_ones h]
    rw [ones, String.toList_ofList]
    intro hmem
    exact absurd (List.eq_of_mem_replicate hmem) (by decide)
  unfold parseJudge extractJsonObject
  rw [replyText_ones, hmended]

theorem decide_ones {k : Nat} (h : sampleJudge.limits.digits < k + 1) (candidate found : PreferenceDescriptor) :
    decide sampleJudge candidate [found] (fun _ _ => ones k) = .error (.json .digits) := by
  unfold decide
  rw [if_neg (by simp), List.length_singleton, parseJudge_ones h]

/-- **A judge that answers with a number of 4301 digits stops the decision**: `int` raises a `ValueError` that is no
`JSONDecodeError`. -/
theorem longNumber_raises : ¬ DecidesSafely sampleJudge teaPreference [teaPreference] fun _ _ => ones 4300 := by
  intro h
  obtain ⟨res, hres, -⟩ := h.safe
  rw [decide_ones (by decide)] at hres
  cases hres

end Panella.PreferenceDecide
