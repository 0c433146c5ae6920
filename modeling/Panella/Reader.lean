import Panella.Rows

/-!
# The reader (`panella/reader.py`)

| here | there |
| --- | --- |
| `readerEnabled`, `overfetchN`, `fetchK` | `reader_enabled`, `_overfetch_n`, `fetch_k` (:96-130) |
| `contentBody`, `contentTokens`, `jaccardSim` | `_content_body`, `_content_tokens`, `jaccard_sim` (:136-155) |
| `coerceEpoch`, `rowEpoch` | `_coerce_epoch`, `_row_epoch` (:165-214) |
| `find`, `join`, `cluster` | `_cluster` (:217-239), its `find` and the body of its double loop |
| `readerppOrder`, `readerppSelect`, `select` | `_readerpp_order`, `readerpp_select`, `select` (:242-358) |

A scorer is whatever is plugged in: it may raise, return something that is no list, too few scores, or entries that are
no numbers. The similarity function and `tau` are parameters of everything from `cluster` on, as they are there.
-/

namespace Panella

open PyJson

/-- What `scorer(query, contents)` does. -/
inductive ScorerReply (F : Type)
  | raised
  /-- No list and no tuple. -/
  | other
  /-- `float(s)` of each entry. -/
  | entries (xs : List (Except ClientErr F))

abbrev Scorer (F : Type) : Type := String → List String → ScorerReply F

/-- The process a search runs in. -/
structure ReaderEnv (F : Type) extends Floats F where
  /-- `PANELLA_READER`, `PANELLA_READER_OVERFETCH`. -/
  panellaReader : Option String
  panellaReaderOverfetch : Option String
  /-- `resolve_scorer()[0]`. -/
  scorer : Option (Scorer F)
  /-- `str.lower`. -/
  lower : String → String
  /-- `datetime.fromisoformat(text.replace("Z", "+00:00"))`, in UTC where it is naive, as a timestamp. -/
  isoTimestamp : String → Option F

/-! ## Configuration -/

/-- `reader_enabled()`. -/
def readerEnabled {F : Type} (env : ReaderEnv F) : Bool :=
  let raw := match env.panellaReader with | none | some "" => "off" | some v => v
  env.lower (PyText.stripSpace raw) = "readerpp"

def defaultOverfetch : Int := 50
def maxOverfetch : Int := 100

/-- `_overfetch_n()`. -/
def overfetchN {F : Type} (d : Deployment) (env : ReaderEnv F) : Int :=
  let raw := PyText.stripSpace (env.panellaReaderOverfetch.getD "")
  if raw = "" then defaultOverfetch
  else
    match d.intOf (.str raw) with
    | .error _ => defaultOverfetch
    | .ok n => if n < 1 then defaultOverfetch else if n > maxOverfetch then maxOverfetch else n

/-- `fetch_k(limit, enabled=enabled)`. -/
def fetchK {F : Type} (d : Deployment) (env : ReaderEnv F) (limit : Int) (enabled : Bool) : Int :=
  if !enabled then limit else max limit (overfetchN d env)

/-! ## Similarity -/

/-- `_STOP`. -/
def stopWords : List String :=
  ["the", "a", "an", "and", "or", "but", "if", "then", "so", "of", "to", "in", "on", "at", "for", "with", "from", "by",
   "as", "is", "am", "are", "was", "were", "be", "been", "being", "i", "me", "my", "mine", "you", "your", "we", "our",
   "it", "its", "this", "that", "these", "those", "now", "currently", "use", "used", "using", "have", "has", "had", "do",
   "does", "did", "just", "over", "again", "new", "my", "user"]

/-- `_SESSION_HDR.sub("", content, count=1)`. -/
def stripSessionHeader (cs : List Char) : List Char :=
  if "[Session ".toList.isPrefixOf cs then
    match (cs.drop 9).dropWhile (· ≠ ']') with
    | _ :: rest => rest
    | [] => cs
  else cs

/-- `_content_body`. -/
def contentBody (content : String) : String := PyText.stripSpace (String.ofList (stripSessionHeader content.toList))

/-- `[a-z0-9]`. -/
def tokenChar (c : Char) : Bool := ('a' ≤ c && c ≤ 'z') || ('0' ≤ c && c ≤ '9')

/-- `_content_tokens`. -/
def contentTokens {F : Type} (env : ReaderEnv F) (content : String) : List String :=
  let toks := ((env.lower (contentBody content)).toList.splitOnP fun c => !tokenChar c).map String.ofList
  (toks.filter fun t => t.length > 2 && !stopWords.contains t).dedup

/-- `jaccard_sim`. -/
def jaccardSim {F : Type} (env : ReaderEnv F) (a b : String) : F :=
  let ta := contentTokens env a
  let tb := contentTokens env b
  if ta.isEmpty || tb.isEmpty then env.lit 0
  else env.lit ((ta.filter tb.contains).length / (ta ++ tb).dedup.length)

/-- `READERPP_TAU`. -/
def readerppTau {F : Type} (env : ReaderEnv F) : F := env.lit (3 / 10)

/-- `_hit_content`. -/
def hitContent {F : Type} (h : ReadHit F) : String :=
  match h.content with
  | .str s => s
  | _ => ""

/-! ## Recency -/

/-- `_coerce_epoch`. -/
def coerceEpoch {F : Type} (env : ReaderEnv F) : Json → Option F
  | .int n => finite (env.ofJson (.int n))
  | .float x => finite (env.ofJson (.float x))
  | .str s =>
    let text := PyText.stripSpace s
    if text = "" then none
    else
      match env.ofJson (.str text) with
      | .ok x => finite (.ok x)
      | .error _ => env.isoTimestamp text
  | _ => none
where
  /-- An `int` too large for a float is no date, nor is what is not finite. -/
  finite : Except ClientErr F → Option F
    | .ok x => if env.isFinite x then some x else none
    | .error _ => none

/-- `_row_epoch`. -/
def rowEpoch {F : Type} (env : ReaderEnv F) (h : ReadHit F) : Option F :=
  match coerceEpoch env (Dict.get h.metadata "source_last_timestamp") with
  | some x => some x
  | none =>
    match coerceEpoch env h.createdAt with
    | some x => some x
    | none => coerceEpoch env h.createdAtIso

/-! ## Clusters -/

/-- `find(x)`: the parents as it leaves them, and the root. The rounds bound the length of the chain. -/
def find : Nat → List Nat → Nat → List Nat × Nat
  | 0, parent, x => (parent, x)
  | rounds + 1, parent, x =>
    let up := parent.getD x x
    if up ≠ x then
      let parent := parent.set x (parent.getD up up)
      find rounds parent (parent.getD x x)
    else (parent, x)

/-- `parent[find(i)] = find(j)`; the right side runs first. -/
def join (parent : List Nat) (i j : Nat) : List Nat :=
  let (parent, root) := find parent.length parent j
  let (parent, x) := find parent.length parent i
  parent.set x root

/-- The pairs of the double loop, in its order. -/
def pairsBelow (n : Nat) : List (Nat × Nat) :=
  (List.range n).flatMap fun i => (List.range' (i + 1) (n - (i + 1))).map fun j => (i, j)

/-- `groups[root].append(i)`. -/
def addToGroup (groups : List (Nat × List Nat)) (root i : Nat) : List (Nat × List Nat) :=
  if groups.any (·.1 = root) then groups.map fun g => if g.1 = root then (g.1, g.2 ++ [i]) else g
  else groups ++ [(root, [i])]

/-- `_cluster`. -/
def cluster {F : Type} (env : ReaderEnv F) (sim : String → String → F) (tau : F) (hits : List (ReadHit F)) :
    List (List Nat) :=
  let bodies := hits.map fun h => contentBody (hitContent h)
  let near : Nat × Nat → Bool := fun (i, j) => env.le tau (sim (bodies.getD i "") (bodies.getD j ""))
  let parent := (pairsBelow hits.length).foldl (fun parent ij => if near ij then join parent ij.1 ij.2 else parent)
    (List.range hits.length)
  let step : List Nat × List (Nat × List Nat) → Nat → List Nat × List (Nat × List Nat) := fun (parent, groups) i =>
    let (parent, root) := find parent.length parent i
    (parent, addToGroup groups root i)
  ((List.range hits.length).foldl step (parent, [])).2.map Prod.snd

/-! ## The order -/

/-- `a < b`, for the tuples `(bool, float, -i)`; the last component is `i`. -/
def keyLt {F : Type} (fl : Floats F) (a b : Bool × F × Nat) : Bool :=
  if a.1 ≠ b.1 then b.1
  else if fl.lt a.2.1 b.2.1 then true
  else if fl.lt b.2.1 a.2.1 then false
  else b.2.2 < a.2.2

/-- `sorted(range(n), key=key, reverse=True)`. -/
def sortedIndices {F : Type} (fl : Floats F) (n : Nat) (key : Nat → Bool × F × Nat) : List Nat :=
  (List.range n).insertionSort fun i j => keyLt fl (key i) (key j) = false

/-- `max(dated, key=lambda t: (t[1], -t[0]))[0]`. -/
def newest {F : Type} (fl : Floats F) : List (Nat × F) → Option Nat
  | [] => none
  | x :: xs => some (xs.foldl (fun m y => if keyLt fl (true, m.2, m.1) (true, y.2, y.1) then y else m) x).1

/-- What one cluster demotes: its dated rows but the newest, where it has two. -/
def demotedIn {F : Type} (fl : Floats F) (epochs : Nat → Option F) (cl : List Nat) : List Nat :=
  let dated := cl.filterMap fun i => (epochs i).map fun x => (i, x)
  if dated.length ≥ 2 then (dated.map Prod.fst).filter fun i => newest fl dated ≠ some i else []

/-- `rrf(i)`, of the ranks by retrieval and by recency. -/
def rrf {F : Type} (fl : Floats F) (rrfK i rank : Nat) : F :=
  fl.add (fl.lit (1 / (rrfK + i + 1))) (fl.lit (1 / (rrfK + rank + 1)))

/-- `READERPP_RRF_K`. -/
def readerppRrfK : Nat := 60

/-- `_readerpp_order`: all indices in order, and the demoted ones. -/
def readerppOrder {F : Type} (env : ReaderEnv F) (sim : String → String → F) (tau : F) (rrfK : Nat)
    (hits : List (ReadHit F)) : List Nat × List Nat :=
  let epochs : Nat → Option F := fun i => hits[i]?.bind (rowEpoch env)
  let byRecency := sortedIndices env.toFloats hits.length fun i => ((epochs i).isSome, (epochs i).getD (env.lit 0), i)
  let superseded := (cluster env sim tau hits).flatMap (demotedIn env.toFloats epochs)
  let order := sortedIndices env.toFloats hits.length fun i =>
    (!superseded.contains i, rrf env.toFloats rrfK i (byRecency.idxOf i), i)
  (order, superseded)

/-- `[hits[i] for i in order]`. -/
def pick {α : Type} (hits : List α) (order : List Nat) : List α := order.filterMap fun i => hits[i]?

/-- `readerpp_select`. -/
def readerppSelect {F : Type} (env : ReaderEnv F) (sim : String → String → F) (tau : F) (rrfK : Nat)
    (hits : List (ReadHit F)) (k : Int) : List (ReadHit F) :=
  pick hits (slice (readerppOrder env sim tau rrfK hits).1 k)

/-- `[float(s) for s in scores_raw]`, with the exceptions that count as a breach of contract. -/
def scoresOf {F : Type} (fl : Floats F) (n : Nat) (xs : List (Except ClientErr F)) : Except ClientErr (Option (List F)) :=
  if xs.length ≠ n then .ok none
  else
    match xs.mapM id with
    | .error e => if e.isTypeOrValueError || e.isOverflow then .ok none else .error e
    | .ok scores => .ok (if scores.all fl.isFinite then some scores else none)

/-- The order of two positions by `(-scores[p], p)`. -/
def scoreLe {F : Type} (fl : Floats F) (scores : List F) (p q : Nat) : Bool :=
  let s := scores.getD p (fl.lit 0)
  let t := scores.getD q (fl.lit 0)
  if fl.lt t s then true else if fl.lt s t then false else p ≤ q

/-- The positions of the order after the scorer: live rows by score, then demoted rows by score. -/
def stratified {F : Type} (fl : Floats F) (order superseded : List Nat) (scores : List F) : List Nat :=
  let positions := List.range order.length
  let demoted : Nat → Bool := fun p => superseded.contains (order.getD p 0)
  (positions.filter fun p => !demoted p).insertionSort (fun p q => scoreLe fl scores p q = true) ++
    (positions.filter demoted).insertionSort (fun p q => scoreLe fl scores p q = true)

/-- `select`. -/
def select {F : Type} (env : ReaderEnv F) (sim : String → String → F) (tau : F) (rrfK : Nat) (scorer : Option (Scorer F))
    (query : String) (hits : List (ReadHit F)) (k : Int) : Except ClientErr (List (ReadHit F)) :=
  let ranked := readerppOrder env sim tau rrfK hits
  let order := ranked.1
  let plain := pick hits (slice order k)
  match scorer with
  | none => .ok plain
  | some scorer =>
    match scorer query (pick (hits.map hitContent) order) with
    | .raised | .other => .ok plain
    | .entries xs =>
      match scoresOf env.toFloats order.length xs with
      | .error e => .error e
      | .ok none => .ok plain
      | .ok (some scores) =>
        .ok (slice (pick hits (pick order (stratified env.toFloats order ranked.2 scores))) k)

/-! ## What comes out is what went in -/

theorem pick_range {α : Type} (hits : List α) : pick hits (List.range hits.length) = hits := by
  induction hits using List.reverseRecOn with
  | nil => rfl
  | append_singleton hits h ih =>
    have hpre : pick (hits ++ [h]) (List.range hits.length) = pick hits (List.range hits.length) := by
      apply List.filterMap_congr
      intro i hi
      exact List.getElem?_append_left (List.mem_range.1 hi)
    rw [List.length_append, List.length_singleton, List.range_succ, pick, List.filterMap_append]
    change pick (hits ++ [h]) (List.range hits.length) ++ _ = _
    rw [hpre, ih]
    simp

/-- **Picking at a permutation of the positions permutes.** -/
theorem pick_perm {α : Type} {hits : List α} {order : List Nat} (h : order.Perm (List.range hits.length)) :
    (pick hits order).Perm hits := by
  have hp : (pick hits order).Perm (pick hits (List.range hits.length)) := h.filterMap _
  rwa [pick_range] at hp

theorem sortedIndices_perm {F : Type} (fl : Floats F) (n : Nat) (key : Nat → Bool × F × Nat) :
    (sortedIndices fl n key).Perm (List.range n) := List.perm_insertionSort _ _

theorem readerppOrder_perm {F : Type} (env : ReaderEnv F) (sim : String → String → F) (tau : F) (rrfK : Nat)
    (hits : List (ReadHit F)) : (readerppOrder env sim tau rrfK hits).1.Perm (List.range hits.length) :=
  sortedIndices_perm _ _ _

theorem stratified_perm {F : Type} (fl : Floats F) (order superseded : List Nat) (scores : List F) :
    (stratified fl order superseded scores).Perm (List.range order.length) := by
  unfold stratified
  refine ((List.perm_insertionSort _ _).append (List.perm_insertionSort _ _)).trans ?_
  have h := List.filter_append_perm (fun p => !superseded.contains (order.getD p 0)) (List.range order.length)
  simpa using h

/-- **The reader returns rows it was given, each at most once**, whatever the scorer does. -/
theorem select_subperm {F : Type} {env : ReaderEnv F} {sim : String → String → F} {tau : F} {rrfK : Nat}
    {scorer : Option (Scorer F)} {query : String} {hits out : List (ReadHit F)} {k : Int}
    (h : select env sim tau rrfK scorer query hits k = .ok out) : out.Subperm hits := by
  have hperm := readerppOrder_perm env sim tau rrfK hits
  have hplain : (pick hits (slice (readerppOrder env sim tau rrfK hits).1 k)).Subperm hits :=
    ((slice_sublist _ k).filterMap _).subperm.trans (pick_perm hperm).subperm
  simp only [select] at h
  split at h
  · cases h; exact hplain
  · split at h
    · cases h; exact hplain
    · cases h; exact hplain
    · split at h
      · cases h
      · cases h; exact hplain
      · next scores _ =>
        cases h
        have hs := (pick_perm (stratified_perm env.toFloats (readerppOrder env sim tau rrfK hits).1
          (readerppOrder env sim tau rrfK hits).2 scores)).trans hperm
        exact (slice_sublist _ k).subperm.trans (pick_perm hs).subperm

end Panella
