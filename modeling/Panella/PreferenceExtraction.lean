import Mathlib.Tactic.NormNum
import Panella.PreferenceDecide
import Panella.Resolver.Normalize

/-!
# What a model says about its user (`panella/preference_extraction.py`)

| here | there |
| --- | --- |
| `normalizeDomain`, `coerceConfidence` | `normalize_domain`, `_coerce_confidence` (:75-87) |
| `extractJsonArray` | `_extract_json_array` (:90-110) |
| `readItem`, `readItems`, `parseWithStats` | the body and the loop of `parse_with_stats`, and the whole (:113-157) |

Every element of the reply is counted once, as a candidate, as dropped or as malformed (`readItems_accounted`), and the counts
of a reply that is read add up. As in `panella/preference_decide.py` the calls on the way raise more than is caught:
**`parsers_safe_iff`**.
-/

namespace Panella.PreferenceExtraction

open Fallible PreferenceDecide PyFloat PyJson PyText SortedSet

/-- What the replies go through on their way into numbers and texts. -/
structure ReplyLib where
  limits : Limits
  unicode : Unicode
  repr : Json → String
  prints : Json → Bool
  floatOfLit : FloatLit → PyFloat
  floatOfStr : String → Option PyFloat

/-- The same, as the judge's parser takes it. -/
def ReplyLib.judge (R : ReplyLib) : JudgeLib PyFloat where
  limits := R.limits
  unicode := R.unicode
  repr := R.repr
  prints := R.prints
  floatOfLit := R.floatOfLit
  floatOfInt n := (PyFloat.ofInt n).getD .nan
  floatOfStr := R.floatOfStr
  clamp := PyFloat.clamp
  zero := .finite 0

structure PreferenceCandidate where
  sourceSid : String
  kind : String
  domain : String
  value : String
  confidence : PyFloat
  evidence : String
  coercedKind : Bool

/-- `ALLOWED_KINDS`. -/
def allowedKinds : List String := ["preference", "fact", "constraint"]

def defaultKind : String := "fact"

structure ParseStats where
  rawObjects : Nat
  dropped : Nat
  coerced : Nat
  malformed : Nat

/-- `text[start : end + 1]`, from the first bracket to the last. -/
def bracketed (text : String) : Option String :=
  match find '[' text.toList, rfind ']' text.toList with
  | some start, some end' =>
    if end' ≤ start then none else some (String.ofList ((text.toList.take (end' + 1)).drop start))
  | _, _ => none

/-- `parsed if isinstance(parsed, list) else None`. -/
def listOrNone : Json → Option (List Json)
  | .arr xs => some xs
  | _ => none

def extractJsonArray (lim : Limits) (raw : String) : Except JsonError (Option (List Json)) :=
  (extractJson lim bracketed raw).map fun parsed => parsed.bind listOrNone

/-- What becomes of an element. -/
inductive Item
  | malformed
  | dropped
  | emitted (c : PreferenceCandidate)

section
variable (R : ReplyLib)

/-- `normalize_domain`. -/
def normalizeDomain (text : String) : String :=
  strip (· = '_')
    (String.ofList (subRuns (fun c => !Resolver.isDomainChar c) '_' false (R.unicode.lower (stripSpace text)).toList))

def coerceConfidence (v : Json) : Except PyErr PyFloat :=
  match R.judge.float v with
  | .ok x => .ok x.clamp
  | .error e => if e.isValueOrType then .ok (.finite (1 / 2)) else .error e

/-- `f(str(x)) if x is not None else ""`, for `x = item.get(key)`. -/
def fieldText (f : String → String) (kvs : Dict) (key : String) : Except PyErr String :=
  match Dict.get kvs key with
  | .null => .ok ""
  | v => (R.judge.str v).map f

/-- The candidate of an object that has a domain and a value. -/
def readCandidate (sourceSid domain value : String) (kvs : Dict) : Except PyErr PreferenceCandidate := do
  let kindStr ← fieldText R (fun text => R.unicode.lower (stripSpace text)) kvs "kind"
  let confidence ← coerceConfidence R (Dict.get kvs "confidence")
  let evidence ← R.judge.str (Dict.getD kvs "evidence" (.str ""))
  let kindValid := kindStr ∈ allowedKinds
  .ok { sourceSid, kind := if kindValid then kindStr else defaultKind, domain, value, confidence
        evidence := stripSpace evidence, coercedKind := !decide kindValid }

/-- The body of the loop. -/
def readItem (sourceSid : String) : Json → Except PyErr Item
  | .obj kvs => do
    let domain ← fieldText R (normalizeDomain R) kvs "domain"
    let value ← fieldText R stripSpace kvs "value"
    if domain = "" ∨ value = "" then .ok .dropped else (readCandidate R sourceSid domain value kvs).map .emitted
  | _ => .ok .malformed

/-- The loop: the candidates and the three counters. -/
def readItems (sourceSid : String) : List Json → Except PyErr (List PreferenceCandidate × ParseStats)
  | [] => .ok ([], ⟨0, 0, 0, 0⟩)
  | item :: items => do
    let outcome ← readItem R sourceSid item
    let (out, stats) ← readItems sourceSid items
    match outcome with
    | .malformed => .ok (out, { stats with rawObjects := stats.rawObjects + 1, malformed := stats.malformed + 1 })
    | .dropped => .ok (out, { stats with rawObjects := stats.rawObjects + 1, dropped := stats.dropped + 1 })
    | .emitted c =>
      .ok (c :: out,
        { stats with
          rawObjects := stats.rawObjects + 1, coerced := if c.coercedKind then stats.coerced + 1 else stats.coerced })

def parseWithStats (raw sourceSid : String) : Except PyErr (List PreferenceCandidate × ParseStats) :=
  match extractJsonArray R.limits raw with
  | .error e => .error (.json e)
  | .ok none => .ok ([], ⟨1, 0, 0, 1⟩)
  | .ok (some items) => readItems R sourceSid items

/-! ## What the parsers are to do -/

/-- The reply is an object with a list of valid indices. -/
def NamesIndices (raw : String) (nActive : Nat) (valid : List Nat) : Prop :=
  ∃ obj, extractJsonObject R.limits raw = .ok (some obj) ∧ Dict.get obj "same_slot_indices" = .arr (valid.map entry) ∧
    ∀ i ∈ valid, i < nActive

/-- A verdict has all the indices of the reply, or says that there is an error and has none. -/
structure FailSafe (raw : String) (nActive : Nat) (verdict : JudgeVerdict PyFloat) : Prop where
  whole : ∀ valid, NamesIndices R raw nActive valid → verdict.parseError = false ∧ verdict.indices = sortedSet valid
  refused : (∀ valid, ¬ NamesIndices R raw nActive valid) → verdict.parseError = true ∧ verdict.indices = []

/-- A candidate with a slot, a value, a kind and a confidence. -/
structure Emitted (sourceSid : String) (c : PreferenceCandidate) : Prop where
  source : c.sourceSid = sourceSid
  normalized : ∃ text, c.domain = normalizeDomain R text
  domain : c.domain ≠ ""
  value : c.value ≠ ""
  kind : c.kind ∈ allowedKinds
  confidence : ∃ q, c.confidence = .finite q ∧ 0 ≤ q ∧ q ≤ 1

/-- The counts of the elements add up. -/
structure Accounted (sourceSid : String) (items : List Json) (out : List PreferenceCandidate) (stats : ParseStats) : Prop where
  every : stats.rawObjects = items.length
  conserved : stats.rawObjects = out.length + stats.dropped + stats.malformed
  malformed : stats.malformed = items.countP fun item => (dictOrNone item).isNone
  coerced : stats.coerced = out.countP (·.coercedKind)
  emitted : ∀ c ∈ out, Emitted R sourceSid c

/-- Both parsers return, with what they are to return. -/
structure ParsersSafe (raw sourceSid : String) (nActive : Nat) : Prop where
  judge : ∃ verdict, parseJudge R.judge raw nActive = .ok verdict ∧ FailSafe R raw nActive verdict
  extract : ∃ out stats, parseWithStats R raw sourceSid = .ok (out, stats) ∧
    (∀ items, extractJsonArray R.limits raw = .ok (some items) → Accounted R sourceSid items out stats) ∧
    (extractJsonArray R.limits raw = .ok none → out = [] ∧ stats = ⟨1, 0, 0, 1⟩)

/-! ## What they can read -/

/-- A field that is there can be printed. -/
def FieldPrints (kvs : Dict) (key : String) : Prop := Dict.get kvs key ≠ .null → R.judge.Printable (Dict.get kvs key)

/-- An object of the reply can be read. -/
structure ItemReads (kvs : Dict) : Prop where
  domain : FieldPrints R kvs "domain"
  value : FieldPrints R kvs "value"
  /-- Beside a domain and a value: no kind or evidence too deep to print, and no integer too large for a float. -/
  rest : ∀ domain value, fieldText R (normalizeDomain R) kvs "domain" = .ok domain →
    fieldText R stripSpace kvs "value" = .ok value → domain ≠ "" → value ≠ "" →
      FieldPrints R kvs "kind" ∧ (∀ k, Dict.get kvs "confidence" = .int k → k.natAbs < floatLimit) ∧
      R.judge.Printable (Dict.getD kvs "evidence" (.str ""))

/-- The reply of the extraction can be read. -/
structure Extractable (raw : String) : Prop where
  whole : LoadsOrRejects R.limits (replyText raw)
  /-- Where the whole is no JSON: what stands in brackets. -/
  inBrackets : loadsMended R.limits (replyText raw) = .error .value →
    ∀ text, bracketed (replyText raw) = some text → LoadsOrRejects R.limits text
  items : ∀ items kvs, extractJsonArray R.limits raw = .ok (some items) → .obj kvs ∈ items → ItemReads R kvs

end

variable {R : ReplyLib} {raw sourceSid : String} {kvs : Dict} {items : List Json}

/-! ## The judge -/

/-- A list with one bad entry is refused whole. -/
theorem failSafe_of_ok {n : Nat} {verdict : JudgeVerdict PyFloat} (h : parseJudge R.judge raw n = .ok verdict) :
    FailSafe R raw n verdict := by
  constructor
  · rintro valid ⟨obj, hobj, hxs, hlt⟩
    have hvalid : validIndices n (valid.map entry) = some valid := validIndices_eq_some_iff.2 ⟨rfl, hlt⟩
    have hobj' : extractJsonObject R.judge.limits raw = .ok (some obj) := hobj
    unfold parseJudge at h
    rw [hobj'] at h
    simp only [hxs, hvalid] at h
    split at h
    · cases h
    · cases htext : R.judge.str (Dict.getD obj "rationale" (.str "")) with
      | error e => rw [htext] at h; cases h
      | ok text =>
        rw [htext] at h
        cases h
        exact ⟨rfl, rfl⟩
  · intro hnone
    rcases parseJudge_ok h with ⟨rfl, -⟩ | ⟨obj, valid, hobj, hxs, hlt, -, -⟩
    · exact ⟨rfl, rfl⟩
    · exact absurd ⟨obj, hobj, hxs, hlt⟩ (hnone valid)

/-! ## An element -/

theorem fieldText_ok_iff {f : String → String} {key : String} :
    (∃ text, fieldText R f kvs key = .ok text) ↔ FieldPrints R kvs key := by
  unfold fieldText FieldPrints
  split
  · next hnull => simp [hnull]
  · next v hv =>
    rw [map_ok_iff]
    exact ⟨fun h _ => h, fun h => h hv⟩

/-- A slot that is not empty comes from a text. -/
theorem fieldText_normalized {domain : String} (h : fieldText R (normalizeDomain R) kvs "domain" = .ok domain)
    (hne : domain ≠ "") : ∃ text, domain = normalizeDomain R text := by
  unfold fieldText at h
  split at h
  · cases h
    exact absurd rfl hne
  · obtain ⟨text, -, rfl⟩ := map_ok h
    exact ⟨text, rfl⟩

/-- `float` refuses integers only for their size, and everything else it refuses is caught. -/
theorem coerceConfidence_ok_iff {v : Json} :
    (∃ x, coerceConfidence R v = .ok x) ↔ ∀ k, v = .int k → k.natAbs < floatLimit := by
  unfold coerceConfidence
  cases v with
  | int k => by_cases hk : k.natAbs < floatLimit <;> simp [JudgeLib.float, hk, PyErr.isValueOrType]
  | str s => cases hs : R.judge.floatOfStr s <;> simp [JudgeLib.float, hs, PyErr.isValueOrType]
  | _ => simp [JudgeLib.float, PyErr.isValueOrType]

theorem coerceConfidence_unit {v : Json} {x : PyFloat} (h : coerceConfidence R v = .ok x) :
    ∃ q, x = .finite q ∧ 0 ≤ q ∧ q ≤ 1 := by
  unfold coerceConfidence at h
  split at h
  · cases h
    exact clamp_unit _
  · split at h
    · cases h
      exact ⟨1 / 2, rfl, by norm_num, by norm_num⟩
    · cases h

theorem readCandidate_ok_iff {domain value : String} : (∃ c, readCandidate R sourceSid domain value kvs = .ok c) ↔
    FieldPrints R kvs "kind" ∧ (∀ k, Dict.get kvs "confidence" = .int k → k.natAbs < floatLimit) ∧
      R.judge.Printable (Dict.getD kvs "evidence" (.str "")) := by
  rw [← @fieldText_ok_iff R kvs fun text => R.unicode.lower (stripSpace text), ← @coerceConfidence_ok_iff R]
  unfold readCandidate JudgeLib.Printable
  cases fieldText R (fun text => R.unicode.lower (stripSpace text)) kvs "kind" with
  | error e => simp [bind, Except.bind]
  | ok kind =>
    cases coerceConfidence R (Dict.get kvs "confidence") with
    | error e => simp [bind, Except.bind]
    | ok x => cases R.judge.str (Dict.getD kvs "evidence" (.str "")) <;> simp [bind, Except.bind]

theorem readItem_of_fields {domain value : String} (hdomain : fieldText R (normalizeDomain R) kvs "domain" = .ok domain)
    (hvalue : fieldText R stripSpace kvs "value" = .ok value) :
    readItem R sourceSid (.obj kvs) =
      if domain = "" ∨ value = "" then .ok .dropped else (readCandidate R sourceSid domain value kvs).map .emitted := by
  unfold readItem
  simp only [hdomain, hvalue]
  rfl

theorem readItem_ok_iff : (∃ outcome, readItem R sourceSid (.obj kvs) = .ok outcome) ↔ ItemReads R kvs := by
  constructor
  · rintro ⟨outcome, h⟩
    unfold readItem at h
    obtain ⟨domain, hdomain, h⟩ := bind_ok h
    obtain ⟨value, hvalue, h⟩ := bind_ok h
    refine ⟨fieldText_ok_iff.1 ⟨domain, hdomain⟩, fieldText_ok_iff.1 ⟨value, hvalue⟩, ?_⟩
    intro domain' value' hdomain' hvalue' hne hne'
    rw [hdomain] at hdomain'
    rw [hvalue] at hvalue'
    cases hdomain'
    cases hvalue'
    rw [if_neg (by simp [hne, hne'])] at h
    exact readCandidate_ok_iff.1 (map_ok_iff.1 ⟨outcome, h⟩)
  · rintro ⟨hdomain, hvalue, hrest⟩
    obtain ⟨domain, hdomain⟩ := fieldText_ok_iff.2 hdomain
    obtain ⟨value, hvalue⟩ := fieldText_ok_iff.2 hvalue
    rw [readItem_of_fields hdomain hvalue]
    by_cases hempty : domain = "" ∨ value = ""
    · exact ⟨.dropped, if_pos hempty⟩
    · obtain ⟨hne, hne'⟩ := not_or.1 hempty
      obtain ⟨c, hc⟩ := (@readCandidate_ok_iff R sourceSid kvs domain value).2 (hrest domain value hdomain hvalue hne hne')
      refine ⟨.emitted c, ?_⟩
      rw [if_neg hempty, hc]
      rfl

/-- **A candidate has all that is asked of one.** -/
theorem readItem_emitted {item : Json} {c : PreferenceCandidate} (h : readItem R sourceSid item = .ok (.emitted c)) :
    Emitted R sourceSid c := by
  cases item with
  | obj kvs =>
    have hfields := h
    unfold readItem at hfields
    obtain ⟨domain, hdomain, hfields⟩ := bind_ok hfields
    obtain ⟨value, hvalue, -⟩ := bind_ok hfields
    rw [readItem_of_fields hdomain hvalue] at h
    split at h
    · cases h
    · next hempty =>
      obtain ⟨hne, hne'⟩ := not_or.1 hempty
      obtain ⟨c', hc', hc⟩ := map_ok h
      cases hc
      unfold readCandidate at hc'
      obtain ⟨kind, -, hc'⟩ := bind_ok hc'
      obtain ⟨confidence, hconfidence, hc'⟩ := bind_ok hc'
      obtain ⟨evidence, -, hc'⟩ := bind_ok hc'
      cases hc'
      refine ⟨rfl, fieldText_normalized hdomain hne, hne, hne', ?_, coerceConfidence_unit hconfidence⟩
      dsimp only
      split
      · next hkind => exact hkind
      · decide
  | _ => cases h

theorem readItem_malformed_iff {item : Json} : readItem R sourceSid item = .ok .malformed ↔ dictOrNone item = none := by
  cases item with
  | obj kvs =>
    refine iff_of_false (fun h => ?_) (by simp [dictOrNone])
    have hfields := h
    unfold readItem at hfields
    obtain ⟨domain, hdomain, hfields⟩ := bind_ok hfields
    obtain ⟨value, hvalue, -⟩ := bind_ok hfields
    rw [readItem_of_fields hdomain hvalue] at h
    split at h
    · cases h
    · obtain ⟨c, -, hc⟩ := map_ok h
      cases hc
  | _ => exact iff_of_true rfl rfl

/-! ## The loop -/

theorem readItems_cons {item : Json} {p : List PreferenceCandidate × ParseStats} :
    readItems R sourceSid (item :: items) = .ok p ↔ ∃ outcome out stats, readItem R sourceSid item = .ok outcome ∧
      readItems R sourceSid items = .ok (out, stats) ∧ p = match outcome with
        | .malformed => (out, { stats with rawObjects := stats.rawObjects + 1, malformed := stats.malformed + 1 })
        | .dropped => (out, { stats with rawObjects := stats.rawObjects + 1, dropped := stats.dropped + 1 })
        | .emitted c => (c :: out,
          { stats with
            rawObjects := stats.rawObjects + 1, coerced := if c.coercedKind then stats.coerced + 1 else stats.coerced }) := by
  constructor
  · intro h
    unfold readItems at h
    obtain ⟨outcome, houtcome, h⟩ := bind_ok h
    obtain ⟨⟨out, stats⟩, hrest, h⟩ := bind_ok h
    refine ⟨outcome, out, stats, houtcome, hrest, ?_⟩
    cases outcome <;> cases h <;> rfl
  · rintro ⟨outcome, out, stats, houtcome, hrest, rfl⟩
    unfold readItems
    rw [houtcome, hrest]
    cases outcome <;> rfl

theorem readItems_ok_iff :
    (∃ p, readItems R sourceSid items = .ok p) ↔ ∀ kvs, .obj kvs ∈ items → ItemReads R kvs := by
  induction items with
  | nil => exact iff_of_true ⟨_, rfl⟩ (by simp)
  | cons item items ih =>
    constructor
    · rintro ⟨p, h⟩ kvs hmem
      obtain ⟨outcome, out, stats, houtcome, hrest, -⟩ := readItems_cons.1 h
      rcases List.mem_cons.1 hmem with rfl | hmem
      · exact readItem_ok_iff.1 ⟨outcome, houtcome⟩
      · exact ih.1 ⟨_, hrest⟩ kvs hmem
    · intro h
      obtain ⟨⟨out, stats⟩, hrest⟩ := ih.2 fun kvs hmem => h kvs (List.mem_cons_of_mem _ hmem)
      have hitem : ∃ outcome, readItem R sourceSid item = .ok outcome := by
        cases item with
        | obj kvs => exact readItem_ok_iff.2 (h kvs List.mem_cons_self)
        | _ => exact ⟨.malformed, rfl⟩
      obtain ⟨outcome, houtcome⟩ := hitem
      exact ⟨_, readItems_cons.2 ⟨outcome, out, stats, houtcome, hrest, rfl⟩⟩

/-- **Every element is counted once.** -/
theorem readItems_accounted {out : List PreferenceCandidate} {stats : ParseStats}
    (h : readItems R sourceSid items = .ok (out, stats)) : Accounted R sourceSid items out stats := by
  induction items generalizing out stats with
  | nil =>
    cases h
    exact ⟨rfl, rfl, rfl, rfl, by simp⟩
  | cons item items ih =>
    obtain ⟨outcome, out', stats', houtcome, hrest, hp⟩ := readItems_cons.1 h
    obtain ⟨hevery, hconserved, hmalformed, hcoerced, hemitted⟩ := ih hrest
    have hcount : outcome = .malformed ↔ dictOrNone item = none := by
      rw [← @readItem_malformed_iff R sourceSid, houtcome]
      simp
    cases outcome with
    | malformed =>
      cases hp
      have hnone : dictOrNone item = none := hcount.1 rfl
      refine ⟨by simp [hevery], ?_, by simp [hnone, hmalformed], hcoerced, hemitted⟩
      dsimp only
      omega
    | dropped =>
      cases hp
      have hsome : dictOrNone item ≠ none := fun hnone => by cases hcount.2 hnone
      refine ⟨by simp [hevery], ?_, by simp [hsome, hmalformed], hcoerced, hemitted⟩
      dsimp only
      omega
    | emitted c =>
      cases hp
      have hsome : dictOrNone item ≠ none := fun hnone => by cases hcount.2 hnone
      refine ⟨by simp [hevery], ?_, by simp [hsome, hmalformed], ?_, ?_⟩
      · simp only [List.length_cons]
        omega
      · cases hc : c.coercedKind <;> simp [hc, hcoerced]
      · intro c' hmem
        rcases List.mem_cons.1 hmem with rfl | hmem
        · exact readItem_emitted houtcome
        · exact hemitted c' hmem

/-! ## The whole -/

theorem extractJsonArray_ok_iff : (∃ o, extractJsonArray R.limits raw = .ok o) ↔
    LoadsOrRejects R.limits (replyText raw) ∧ (loadsMended R.limits (replyText raw) = .error .value →
      ∀ text, bracketed (replyText raw) = some text → LoadsOrRejects R.limits text) := by
  rw [← extractJson_ok_iff]
  unfold extractJsonArray
  exact map_ok_iff

theorem parseWithStats_ok_iff : (∃ p, parseWithStats R raw sourceSid = .ok p) ↔ Extractable R raw := by
  constructor
  · rintro ⟨p, h⟩
    unfold parseWithStats at h
    split at h
    · cases h
    · next hnone =>
      obtain ⟨hwhole, hin⟩ := extractJsonArray_ok_iff.1 ⟨_, hnone⟩
      refine ⟨hwhole, hin, fun items kvs hsome _ => ?_⟩
      rw [hnone] at hsome
      cases hsome
    · next items hitems =>
      obtain ⟨hwhole, hin⟩ := extractJsonArray_ok_iff.1 ⟨_, hitems⟩
      refine ⟨hwhole, hin, fun items' kvs hsome hmem => ?_⟩
      rw [hitems] at hsome
      cases hsome
      exact readItems_ok_iff.1 ⟨p, h⟩ kvs hmem
  · rintro ⟨hwhole, hin, hitems⟩
    obtain ⟨o, ho⟩ := extractJsonArray_ok_iff.2 ⟨hwhole, hin⟩
    unfold parseWithStats
    rw [ho]
    cases o with
    | none => exact ⟨_, rfl⟩
    | some items => exact readItems_ok_iff.2 fun kvs hmem => hitems items kvs ho hmem

/-- **Both parsers return with what they are to return exactly where the reply can be read**: where no number of it has too many
digits or is too large for a float, and nothing of it nests too deep to be read or, where it stands for a text, printed. -/
theorem parsers_safe_iff (R : ReplyLib) (raw sourceSid : String) (nActive : Nat) :
    ParsersSafe R raw sourceSid nActive ↔ Readable R.judge raw nActive ∧ Extractable R raw := by
  rw [← parseJudge_ok_iff, ← @parseWithStats_ok_iff R raw sourceSid]
  constructor
  · rintro ⟨⟨verdict, hverdict, -⟩, out, stats, hparsed, -⟩
    exact ⟨⟨verdict, hverdict⟩, (out, stats), hparsed⟩
  · rintro ⟨⟨verdict, hverdict⟩, ⟨out, stats⟩, hparsed⟩
    refine ⟨⟨verdict, hverdict, failSafe_of_ok hverdict⟩, out, stats, hparsed, fun items hitems => ?_, fun hnone => ?_⟩
    · unfold parseWithStats at hparsed
      rw [hitems] at hparsed
      exact readItems_accounted hparsed
    · unfold parseWithStats at hparsed
      rw [hnone] at hparsed
      cases hparsed
      exact ⟨rfl, rfl⟩

def sampleReplies : ReplyLib where
  limits := ⟨1000, 4300⟩
  unicode := asciiOnly
  repr _ := ""
  prints _ := true
  floatOfLit _ := .finite 0
  floatOfStr _ := none

/-- **A reply that is a number of 4301 digits stops both parsers.** -/
theorem longNumber_stops : ¬ ParsersSafe sampleReplies (ones 4300) "s" 1 := by
  rintro ⟨⟨verdict, hverdict, -⟩, -⟩
  rw [parseJudge_ones (L := sampleReplies.judge) (by decide)] at hverdict
  cases hverdict

end Panella.PreferenceExtraction
