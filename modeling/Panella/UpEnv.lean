import Panella.EnvFile

/-!
# The `.env` of a released box: `_upsert_env` (`cli/up.py:177-229`)

| here | there |
| --- | --- |
| `apiKeyRe`, `uidRe`, `gidRe`, `projectRe` | `_API_KEY_RE`, `_UID_RE`, `_GID_RE`, `_PROJECT_RE` (:66-69) |
| `Rewrite.append`, `Rewrite.ensure` | `_append` and the tests before it (:203-222) |
| `upsertEnv` | `_upsert_env`, from the file that is there to the file it hands to `_atomic_write` |

`panella up` makes the API key of the box and `panella init` edits the file after it. What compose reads as the key (`apiValues`)
is made once, where no line sets it, and stays as it is: `upsertEnv` keeps it or refuses (**`upsertEnv_written`**), and
`_upsert_compose_env` keeps it, also where it makes two lines of the file one (**`upsertComposeEnv_apiValues`**).
-/

namespace Panella.Up

open Lines EnvFile

/-! ## The lines -/

/-- `^\s*(export\s+)?KEY\s*=`. -/
def setsKey (key : String) (line : Bytes) : Bool := (⟨ascii key, []⟩ : Target).sets line

def apiKeyRe : Bytes → Bool := setsKey "PANELLA_API_KEY"
def uidRe : Bytes → Bool := setsKey "PANELLA_UID"
def gidRe : Bytes → Bool := setsKey "PANELLA_GID"
def projectRe : Bytes → Bool := setsKey "COMPOSE_PROJECT_NAME"

/-- `bytes.strip()`. -/
def strip (text : Bytes) : Bytes := (((text.dropWhile isSpace).reverse).dropWhile isSpace).reverse

/-- `line.split(b"=", 1)[1].strip()`. -/
def valueOf (line : Bytes) : Bytes := strip ((line.dropWhile (· ≠ 61)).drop 1)

/-- A digit, a lower-case letter or a hyphen. -/
def plainByte (b : UInt8) : Bool := (48 ≤ b && b ≤ 57) || (97 ≤ b && b ≤ 122) || b == 45

/-- `secrets.token_hex(32)`, `os.getuid()`, `os.getgid()` and the name of the project, as they are written. -/
def Plain : Type := { text : Bytes // text ≠ [] ∧ ∀ b ∈ text, plainByte b = true }

/-- `f"{key}={value}\n"`. -/
def lineOf (key : String) (value : Plain) : Bytes := ascii key ++ 61 :: value.1 ++ [10]

/-- What one run of `up` writes into the file. -/
structure Generated where
  token : Plain
  uid : Plain
  gid : Plain
  project : Plain

/-! ## The file -/

/-- `rewritten` and `appended`. -/
structure Rewrite where
  rewritten : List Bytes
  appended : Bool

/-- `_append`. -/
def Rewrite.append (r : Rewrite) (line : Bytes) : Rewrite := ⟨endLast r.rewritten ++ [line], true⟩

/-- `if not any(RE.match(line) for line in rewritten): _append(line)`. -/
def Rewrite.ensure (r : Rewrite) (re : Bytes → Bool) (line : Bytes) : Rewrite := if r.rewritten.any re then r else r.append line

/-- What `_upsert_env` comes to. -/
inductive Upsert
  /-- `False`. -/
  | refused
  /-- Nothing to append. -/
  | kept
  | written (content : Bytes) (mode : Nat)

/-- The file of a fresh box. -/
def freshEnv (g : Generated) : Bytes :=
  lineOf "PANELLA_API_KEY" g.token ++ lineOf "PANELLA_UID" g.uid ++ lineOf "PANELLA_GID" g.gid ++
    lineOf "COMPOSE_PROJECT_NAME" g.project

/-- The lines with what is missing appended. -/
def completed (g : Generated) (content : Bytes) : Rewrite :=
  let start : Rewrite := ⟨lines content, false⟩
  let keyed := if (lines content).any apiKeyRe then start else start.append (lineOf "PANELLA_API_KEY" g.token)
  ((keyed.ensure uidRe (lineOf "PANELLA_UID" g.uid)).ensure gidRe (lineOf "PANELLA_GID" g.gid)).ensure projectRe
    (lineOf "COMPOSE_PROJECT_NAME" g.project)

/-- `_upsert_env`, for a file that is none or a regular one of the user. -/
def upsertEnv (g : Generated) : Option File → Upsert
  | none => .written (freshEnv g) 0o600
  | some f =>
    let keys := (lines f.content).filter apiKeyRe
    if 1 < keys.length ∨ keys.head?.any (fun key => valueOf key = []) then .refused
    else
      let r := completed g f.content
      if r.appended then .written r.rewritten.flatten (if keys.isEmpty then 0o600 else f.mode) else .kept

/-- What the lines set the API key to. -/
def apiValue (line : Bytes) : Option Bytes := if apiKeyRe line then some (valueOf line) else none

def apiValues (content : Bytes) : List Bytes := (lines content).filterMap apiValue

/-- The values in the file that is there. -/
def keyValues (file : Option File) : List Bytes := apiValues (readBytes file)

/-! ## A line feed more -/

theorem setsKey_snoc {key : String} (hkey : (ascii key).head? = some 80) (line : Bytes) :
    setsKey key (line ++ [10]) = setsKey key line := by
  unfold setsKey
  rw [Bool.eq_iff_iff, Target.sets_iff hkey, Target.sets_iff hkey]
  constructor
  · rintro ⟨indent, exported, gap, tail, hline, hspaces⟩
    rcases List.eq_nil_or_concat tail with rfl | ⟨tail', last, rfl⟩
    · have hlast := congrArg List.getLast? hline
      simp at hlast
    · rw [List.concat_eq_append] at hline
      refine ⟨indent, exported, gap, tail', ?_, hspaces⟩
      have hsame : line ++ [10] = (indent ++ (exported ++ (ascii key ++ (gap ++ 61 :: tail')))) ++ [last] := by simpa using hline
      exact (List.append_inj' hsame rfl).1
  · rintro ⟨indent, exported, gap, tail, rfl, hspaces⟩
    exact ⟨indent, exported, gap, tail ++ [10], by simp, hspaces⟩

theorem strip_snoc (text : Bytes) : strip (text ++ [10]) = strip text := by
  unfold strip
  rw [List.dropWhile_append]
  split
  · next hall =>
    have hnil : text.dropWhile isSpace = [] := by simpa using hall
    rw [hnil]
    rfl
  · rw [List.reverse_append, List.reverse_singleton, List.singleton_append, List.dropWhile_cons_of_pos (by decide)]

theorem apiValue_snoc (line : Bytes) : apiValue (line ++ [10]) = apiValue line := by
  have hsets : apiKeyRe (line ++ [10]) = apiKeyRe line := setsKey_snoc (by decide) line
  unfold apiValue
  rw [hsets]
  split
  · next hline =>
    -- the line has a `=`, so the value starts before its end
    obtain ⟨before, tail, rfl, hbefore⟩ : ∃ before tail, line = before ++ 61 :: tail ∧ 61 ∉ before := by
      obtain ⟨indent, exported, gap, tail, hmade, -⟩ := (Target.sets_iff (by decide)).1 hline
      exact List.eq_append_cons_of_mem (by rw [hmade]; simp)
    have hvalue : ∀ tail : Bytes, valueOf (before ++ 61 :: tail) = strip tail := by
      intro tail
      rw [valueOf, List.dropWhile_append_of_pos, List.dropWhile_cons_of_neg (by simp)]
      · rfl
      · intro b hb
        simpa using ne_of_mem_of_not_mem hb hbefore
    rw [List.append_assoc, List.cons_append, hvalue, hvalue, strip_snoc]
  · rfl

/-! ## The lines that are appended -/

/-- Lines that are the lines of their concatenation. -/
structure Lined (ls : List Bytes) : Prop where
  isLine : ∀ line ∈ ls, IsLine 10 13 line
  closed : ls.IsChain (Closed 10 13)

theorem Lined.lines {ls : List Bytes} (h : Lined ls) : lines ls.flatten = ls := splitlines_flatten h.isLine h.closed

theorem lined_lines (content : Bytes) : Lined (lines content) := ⟨fun _ h => isLine_of_mem h, isChain_closed 10 13 content⟩

theorem Lined.endLast {ls : List Bytes} (h : Lined ls) : Lined (endLast ls) := by
  rcases endLast_cases ls with ⟨hsame, -⟩ | ⟨init, last, rfl, hlast, hnew⟩
  · rw [hsame]
    exact h
  · have hline : IsLine 10 13 last := h.isLine last (by simp)
    have hchain := List.isChain_append.1 h.closed
    rw [hnew]
    constructor
    · intro line hmem
      rcases List.mem_append.1 hmem with hmem | hmem
      · exact h.isLine line (List.mem_append_left _ hmem)
      · rw [List.mem_singleton.1 hmem]
        exact hline.snoc hlast
    · refine List.isChain_append.2 ⟨hchain.1, .singleton _, ?_⟩
      intro before hbefore next hnext
      obtain rfl : last ++ [10] = next := by simpa using hnext
      have hclosed := hchain.2.2 before hbefore last (by simp)
      rwa [Closed, List.head?_append_of_ne_nil _ hline.ne_nil]

/-- The last line has a line feed after it. -/
theorem endLast_ended (ls : List Bytes) : ∀ last ∈ (endLast ls).getLast?, last.getLast? = some 10 := by
  rcases endLast_cases ls with ⟨hsame, hended⟩ | ⟨init, last, -, -, hnew⟩
  · rw [hsame]
    exact hended
  · rw [hnew]
    simp

theorem Lined.append {r : Rewrite} (h : Lined r.rewritten) {line : Bytes} (hline : IsLine 10 13 line) :
    Lined (r.append line).rewritten := by
  constructor
  · intro line' hmem
    rcases List.mem_append.1 hmem with hmem | hmem
    · exact h.endLast.isLine line' hmem
    · rw [List.mem_singleton.1 hmem]
      exact hline
  · refine List.isChain_append.2 ⟨h.endLast.closed, .singleton _, ?_⟩
    intro before hbefore next _
    exact .inl (endLast_ended _ before hbefore)

theorem Lined.ensure {r : Rewrite} (h : Lined r.rewritten) (re : Bytes → Bool) {line : Bytes} (hline : IsLine 10 13 line) :
    Lined (r.ensure re line).rewritten := by
  unfold Rewrite.ensure
  split
  · exact h
  · exact h.append hline

/-- A text without line ends is one line with a line feed after it. -/
theorem isLine_body {body : Bytes} (h : ∀ b ∈ body, b ≠ 10 ∧ b ≠ 13) : IsLine 10 13 (body ++ [10]) := by
  induction body with
  | nil => decide
  | cons b body ih =>
    obtain ⟨⟨hlf, hcr⟩, hbody⟩ := List.forall_mem_cons.1 h
    exact splitlines_cons (by simp [hlf, hcr]) (ih hbody)

theorem plain_ne {b : UInt8} (h : plainByte b = true) : b ≠ 10 ∧ b ≠ 13 ∧ isSpace b = false := by
  have hnot : ∀ b : UInt8, isSpace b = true → plainByte b = false := by
    intro b hb
    simp only [isSpace, Bool.or_eq_true, beq_iff_eq, Bool.and_eq_true, decide_eq_true_eq] at hb
    rcases hb with rfl | ⟨hlow, hhigh⟩
    · decide
    · have h1 : ¬ (48 ≤ b) := fun h48 => absurd (UInt8.le_trans h48 hhigh) (by decide)
      have h2 : ¬ (97 ≤ b) := fun h97 => absurd (UInt8.le_trans h97 hhigh) (by decide)
      have h3 : b ≠ 45 := by
        rintro rfl
        exact absurd hhigh (by decide)
      simp [plainByte, h1, h2, h3]
  refine ⟨?_, ?_, ?_⟩
  · rintro rfl
    exact absurd h (by decide)
  · rintro rfl
    exact absurd h (by decide)
  · rw [Bool.eq_false_iff]
    intro hspace
    rw [hnot b hspace] at h
    cases h

theorem isLine_lineOf {key : String} (hkey : (ascii key).all (fun b => b != 10 && b != 13) = true) (value : Plain) :
    IsLine 10 13 (lineOf key value) := by
  apply isLine_body
  intro b hb
  rcases List.mem_append.1 hb with hb | hb
  · simpa using List.all_eq_true.1 hkey b hb
  · rcases List.mem_cons.1 hb with rfl | hb
    · decide
    · have hplain := plain_ne (value.2.2 b hb)
      exact ⟨hplain.1, hplain.2.1⟩

/-- A line that starts with neither a space nor an `e` is matched from its start. -/
theorem setsKey_of_head {key : String} {b : UInt8} {rest : Bytes} (hspace : isSpace b = false) (hexport : b ≠ 101) :
    setsKey key (b :: rest) = decide (ascii key <+: b :: rest ∧
      (skipSpace ((b :: rest).drop (ascii key).length)).head? = some 61) := by
  have hskip : afterExport (skipSpace (b :: rest)) = b :: rest := by
    rw [skipSpace_of_head hspace, afterExport, if_neg]
    rintro ⟨⟨tail, hpre⟩, -⟩
    have hhead : 101 = b := by simpa [ascii] using congrArg List.head? hpre
    exact hexport hhead.symm
  unfold setsKey Target.sets
  rw [hskip]

theorem lineOf_cons {key : String} {b : UInt8} {rest : Bytes} (hkey : ascii key = b :: rest) (value : Plain) :
    lineOf key value = b :: (rest ++ 61 :: value.1 ++ [10]) := by
  rw [lineOf, hkey]
  rfl

/-- An appended line sets its own key. -/
theorem setsKey_lineOf {key : String} (hspace : (ascii key).head?.any (fun b => !isSpace b && b != 101) = true) (value : Plain) :
    setsKey key (lineOf key value) = true := by
  obtain ⟨b, rest, hkey⟩ : ∃ b rest, ascii key = b :: rest := by
    cases hk : ascii key with
    | nil => simp [hk] at hspace
    | cons b rest => exact ⟨b, rest, rfl⟩
  rw [hkey] at hspace
  simp only [List.head?_cons, Option.any_some, Bool.and_eq_true, Bool.not_eq_true', bne_iff_ne] at hspace
  rw [lineOf_cons hkey, setsKey_of_head hspace.1 hspace.2, ← lineOf_cons hkey, decide_eq_true_eq]
  constructor
  · exact ⟨61 :: value.1 ++ [10], by simp [lineOf]⟩
  · have hdrop : (lineOf key value).drop (ascii key).length = 61 :: value.1 ++ [10] := by
      rw [lineOf, List.append_assoc, List.drop_left]
    rw [hdrop, List.cons_append, skipSpace_of_head (by decide)]
    rfl

/-- An appended line sets no key that differs from its own within the first `n` bytes. -/
theorem setsKey_lineOf_other {key key' : String} (n : Nat)
    (hspace : (ascii key').head?.any (fun b => !isSpace b && b != 101) = true) (hlong : n ≤ (ascii key').length)
    (hdiffer : (ascii key).take n ≠ (ascii key').take n ∧ n ≤ (ascii key).length) (value : Plain) :
    setsKey key (lineOf key' value) = false := by
  obtain ⟨b, rest, hkey⟩ : ∃ b rest, ascii key' = b :: rest := by
    cases hk : ascii key' with
    | nil => simp [hk] at hspace
    | cons b rest => exact ⟨b, rest, rfl⟩
  have hhead := hspace
  rw [hkey] at hhead
  simp only [List.head?_cons, Option.any_some, Bool.and_eq_true, Bool.not_eq_true', bne_iff_ne] at hhead
  rw [lineOf_cons hkey, setsKey_of_head hhead.1 hhead.2, ← lineOf_cons hkey, decide_eq_false_iff_not]
  rintro ⟨⟨tail, hpre⟩, -⟩
  apply hdiffer.1
  have htake := congrArg (List.take n) hpre
  rw [List.take_append_of_le_length hdiffer.2, lineOf, List.append_assoc, List.take_append_of_le_length hlong] at htake
  exact htake

theorem apiValue_lineOf (value : Plain) : apiValue (lineOf "PANELLA_API_KEY" value) = some value.1 := by
  have hsets : apiKeyRe (lineOf "PANELLA_API_KEY" value) = true := setsKey_lineOf (by decide) value
  have hstrip : strip value.1 = value.1 := by
    obtain ⟨b, rest, hvalue⟩ := List.exists_cons_of_ne_nil value.2.1
    obtain ⟨init, last, hlast⟩ := List.eq_nil_or_concat value.1 |>.resolve_left value.2.1
    rw [List.concat_eq_append] at hlast
    have hfirst : isSpace b = false := (plain_ne (value.2.2 b (by simp [hvalue]))).2.2
    have hend : isSpace last = false := (plain_ne (value.2.2 last (by simp [hlast]))).2.2
    have hfront : value.1.dropWhile isSpace = value.1 := by
      rw [hvalue, List.dropWhile_cons_of_neg (by simp [hfirst])]
    rw [strip, hfront, hlast, List.reverse_append, List.reverse_singleton, List.singleton_append,
      List.dropWhile_cons_of_neg (by simp [hend])]
    simp
  rw [apiValue, if_pos hsets, valueOf, lineOf, List.append_assoc, List.dropWhile_append_of_pos, List.cons_append,
    List.dropWhile_cons_of_neg (by simp), List.drop_one, List.tail_cons, strip_snoc, hstrip]
  decide +kernel

/-! ## `_upsert_env` -/

/-- The file has the API key once, not empty, and a line for each of the other keys. -/
structure Ready (content : Bytes) : Prop where
  apiKey : ∃ value, apiValues content = [value] ∧ value ≠ []
  uid : (lines content).any uidRe = true
  gid : (lines content).any gidRe = true
  project : (lines content).any projectRe = true

theorem apiValues_eq (content : Bytes) : apiValues content = ((lines content).filter apiKeyRe).map valueOf := by
  rw [← List.filterMap_eq_map, List.filterMap_filter]
  rfl

theorem apiValues_eq_nil {content : Bytes} : apiValues content = [] ↔ (lines content).any apiKeyRe = false := by
  rw [apiValues_eq, List.map_eq_nil_iff, List.filter_eq_nil_iff, List.any_eq_false]

theorem filterMap_endLast {β : Type} {v : Bytes → Option β} (hsnoc : ∀ line, v (line ++ [10]) = v line) (ls : List Bytes) :
    (endLast ls).filterMap v = ls.filterMap v := by
  rcases endLast_cases ls with ⟨hsame, -⟩ | ⟨init, last, rfl, -, hnew⟩
  · rw [hsame]
  · rw [hnew, List.filterMap_append, List.filterMap_append, List.filterMap_cons, List.filterMap_cons, hsnoc]

theorem any_append {re : Bytes → Bool} (hsnoc : ∀ line, re (line ++ [10]) = re line) (r : Rewrite) (line : Bytes) :
    (r.append line).rewritten.any re = (r.rewritten.any re || re line) := by
  have hended : (endLast r.rewritten).any re = r.rewritten.any re := by
    rcases endLast_cases r.rewritten with ⟨hsame, -⟩ | ⟨init, last, heq, -, hnew⟩
    · rw [hsame]
    · rw [hnew, heq, List.any_append, List.any_append, List.any_cons, List.any_cons, hsnoc]
  rw [Rewrite.append, List.any_append, hended, List.any_cons, List.any_nil, Bool.or_false]

/-- What is ensured is there. -/
theorem any_ensure {re : Bytes → Bool} {line : Bytes} (hline : re line = true) (r : Rewrite) :
    (r.ensure re line).rewritten.any re = true := by
  unfold Rewrite.ensure
  split
  · next h => exact h
  · rw [Rewrite.append, List.any_append, List.any_cons, hline]
    simp

theorem any_ensure_of_any {re re' : Bytes → Bool} (hsnoc : ∀ line, re (line ++ [10]) = re line) {line : Bytes} {r : Rewrite}
    (h : r.rewritten.any re = true) : (r.ensure re' line).rewritten.any re = true := by
  unfold Rewrite.ensure
  split
  · exact h
  · rw [any_append hsnoc, h, Bool.true_or]

theorem values_append (r : Rewrite) (line : Bytes) :
    (r.append line).rewritten.filterMap apiValue = r.rewritten.filterMap apiValue ++ (apiValue line).toList := by
  rw [Rewrite.append, List.filterMap_append, filterMap_endLast apiValue_snoc]
  cases h : apiValue line <;> simp [h]

theorem values_ensure {re : Bytes → Bool} {line : Bytes} (hline : apiKeyRe line = false) (r : Rewrite) :
    (r.ensure re line).rewritten.filterMap apiValue = r.rewritten.filterMap apiValue := by
  unfold Rewrite.ensure
  split
  · rfl
  · rw [values_append, apiValue, hline]
    simp

theorem appended_ensure {r : Rewrite} (re : Bytes → Bool) (line : Bytes) (h : r.appended = true) :
    (r.ensure re line).appended = true := by
  unfold Rewrite.ensure
  split
  · exact h
  · rfl

theorem other_keys (g : Generated) : apiKeyRe (lineOf "PANELLA_UID" g.uid) = false ∧
    apiKeyRe (lineOf "PANELLA_GID" g.gid) = false ∧ apiKeyRe (lineOf "COMPOSE_PROJECT_NAME" g.project) = false :=
  ⟨setsKey_lineOf_other 9 (by decide) (by decide) (by decide) _, setsKey_lineOf_other 9 (by decide) (by decide) (by decide) _,
    setsKey_lineOf_other 1 (by decide) (by decide) (by decide) _⟩

/-- The lines once they are complete. -/
theorem lined_completed (g : Generated) (content : Bytes) : Lined (completed g content).rewritten := by
  have hkeyed : Lined (if (lines content).any apiKeyRe then (⟨lines content, false⟩ : Rewrite)
      else Rewrite.append ⟨lines content, false⟩ (lineOf "PANELLA_API_KEY" g.token)).rewritten := by
    split
    · exact lined_lines content
    · exact Lined.append (r := ⟨lines content, false⟩) (lined_lines content) (isLine_lineOf (by decide) _)
  exact ((hkeyed.ensure _ (isLine_lineOf (by decide) _)).ensure _ (isLine_lineOf (by decide) _)).ensure _
    (isLine_lineOf (by decide) _)

/-- **The API key is made where there is none, and kept where there is one.** -/
theorem apiValues_completed (g : Generated) (content : Bytes) :
    apiValues (completed g content).rewritten.flatten = if apiValues content = [] then [g.token.1] else apiValues content := by
  obtain ⟨huid, hgid, hproject⟩ := other_keys g
  rw [apiValues, (lined_completed g content).lines]
  simp only [completed, values_ensure hproject, values_ensure hgid, values_ensure huid]
  by_cases hany : (lines content).any apiKeyRe = true
  · have hne : apiValues content ≠ [] := by
      rw [Ne, apiValues_eq_nil, hany]
      simp
    rw [if_pos hany, if_neg hne]
    rfl
  · have hnil : apiValues content = [] := apiValues_eq_nil.2 (by simpa using hany)
    rw [if_neg hany, if_pos hnil, values_append, apiValue_lineOf]
    show apiValues content ++ _ = _
    rw [hnil]
    rfl

theorem ready_completed {g : Generated} {content : Bytes} (hone : (apiValues content).length ≤ 1)
    (hvalue : ∀ value ∈ apiValues content, value ≠ []) : Ready (completed g content).rewritten.flatten := by
  have hlines := (lined_completed g content).lines
  have huid : ∀ line, uidRe (line ++ [10]) = uidRe line := setsKey_snoc (by decide)
  have hgid : ∀ line, gidRe (line ++ [10]) = gidRe line := setsKey_snoc (by decide)
  refine ⟨?_, ?_, ?_, ?_⟩
  · rw [apiValues_completed]
    split
    · exact ⟨_, rfl, g.token.2.1⟩
    · next hne =>
      cases hvalues : apiValues content with
      | nil => exact absurd hvalues hne
      | cons value rest =>
        rw [hvalues, List.length_cons] at hone
        obtain rfl : rest = [] := List.length_eq_zero_iff.1 (by omega)
        exact ⟨value, rfl, hvalue value (by simp [hvalues])⟩
  · rw [hlines]
    exact any_ensure_of_any huid (any_ensure_of_any huid (any_ensure (setsKey_lineOf (by decide) _) _))
  · rw [hlines]
    exact any_ensure_of_any hgid (any_ensure (setsKey_lineOf (by decide) _) _)
  · rw [hlines]
    exact any_ensure (setsKey_lineOf (by decide) _) _

theorem ensure_of_not_appended {r : Rewrite} {re : Bytes → Bool} {line : Bytes} (h : (r.ensure re line).appended = false) :
    r.ensure re line = r := by
  unfold Rewrite.ensure at h ⊢
  split
  · rfl
  · next hany =>
    rw [if_neg hany] at h
    cases h

theorem completed_of_not_appended {g : Generated} {content : Bytes} (h : (completed g content).appended = false) :
    (completed g content).rewritten.flatten = content := by
  unfold completed at h ⊢
  simp only at h ⊢
  have hproject := ensure_of_not_appended h
  rw [hproject] at h ⊢
  have hgid := ensure_of_not_appended h
  rw [hgid] at h ⊢
  have huid := ensure_of_not_appended h
  rw [huid] at h ⊢
  split
  · exact flatten_splitlines 10 13 content
  · next hany =>
    rw [if_neg hany] at h
    cases h

/-- The lines of a fresh file. -/
theorem lines_freshEnv (g : Generated) : lines (freshEnv g) =
    [lineOf "PANELLA_API_KEY" g.token, lineOf "PANELLA_UID" g.uid, lineOf "PANELLA_GID" g.gid,
      lineOf "COMPOSE_PROJECT_NAME" g.project] := by
  have hended : ∀ (key : String) (value : Plain), (lineOf key value).getLast? = some 10 := by
    intro key value
    rw [lineOf, List.getLast?_append_of_ne_nil _ (by simp)]
    rfl
  have hlined : Lined [lineOf "PANELLA_API_KEY" g.token, lineOf "PANELLA_UID" g.uid, lineOf "PANELLA_GID" g.gid,
      lineOf "COMPOSE_PROJECT_NAME" g.project] := by
    constructor
    · intro line hline
      simp only [List.mem_cons, List.not_mem_nil, or_false] at hline
      rcases hline with rfl | rfl | rfl | rfl <;> exact isLine_lineOf (by decide) _
    · exact .cons_cons (.inl (hended _ _)) (.cons_cons (.inl (hended _ _)) (.cons_cons (.inl (hended _ _)) (.singleton _)))
  rw [← hlined.lines]
  simp [freshEnv]

theorem apiValues_freshEnv (g : Generated) : apiValues (freshEnv g) = [g.token.1] := by
  obtain ⟨huid, hgid, hproject⟩ := other_keys g
  have hnone : ∀ {line : Bytes}, apiKeyRe line = false → apiValue line = none := fun h => by rw [apiValue, h]; rfl
  rw [apiValues, lines_freshEnv, List.filterMap_cons_some (apiValue_lineOf _), List.filterMap_cons_none (hnone huid),
    List.filterMap_cons_none (hnone hgid), List.filterMap_cons_none (hnone hproject), List.filterMap_nil]

theorem ready_freshEnv (g : Generated) : Ready (freshEnv g) := by
  refine ⟨⟨_, apiValues_freshEnv g, g.token.2.1⟩, ?_, ?_, ?_⟩
  · rw [lines_freshEnv, List.any_cons, List.any_cons, uidRe, @setsKey_lineOf "PANELLA_UID" (by decide)]
    simp
  · rw [lines_freshEnv, List.any_cons, List.any_cons, List.any_cons, gidRe, @setsKey_lineOf "PANELLA_GID" (by decide)]
    simp
  · rw [lines_freshEnv, List.any_cons, List.any_cons, List.any_cons, List.any_cons, projectRe,
      @setsKey_lineOf "COMPOSE_PROJECT_NAME" (by decide)]
    simp

/-- A file that is not refused has the key at most once, and not empty. -/
theorem not_refused {g : Generated} {f : File} (h : upsertEnv g (some f) ≠ .refused) :
    (apiValues f.content).length ≤ 1 ∧ ∀ value ∈ apiValues f.content, value ≠ [] := by
  unfold upsertEnv at h
  simp only at h
  split at h
  · exact absurd rfl h
  · next hkeys =>
    obtain ⟨hlength, hhead⟩ := not_or.1 hkeys
    rw [apiValues_eq]
    refine ⟨by rw [List.length_map]; omega, ?_⟩
    intro value hvalue
    obtain ⟨key, hkey, rfl⟩ := List.mem_map.1 hvalue
    cases hfilter : (lines f.content).filter apiKeyRe with
    | nil =>
      rw [hfilter] at hkey
      cases hkey
    | cons first rest =>
      rw [hfilter] at hkey hlength hhead
      rw [List.length_cons] at hlength
      obtain rfl : rest = [] := List.length_eq_zero_iff.1 (by omega)
      obtain rfl := List.mem_singleton.1 hkey
      simpa using hhead

/-- **What `_upsert_env` writes.** -/
theorem upsertEnv_written {g : Generated} {file : Option File} {content : Bytes} {mode : Nat}
    (h : upsertEnv g file = .written content mode) :
    Ready content ∧ (keyValues file = [] ∧ apiValues content = [g.token.1] ∧ mode = 0o600 ∨
      ∃ f, file = some f ∧ keyValues file ≠ [] ∧ apiValues content = keyValues file ∧ mode = f.mode) := by
  cases file with
  | none =>
    cases h
    exact ⟨ready_freshEnv g, .inl ⟨rfl, apiValues_freshEnv g, rfl⟩⟩
  | some f =>
    obtain ⟨hone, hvalue⟩ := not_refused (g := g) (f := f) (by rw [h]; nofun)
    unfold upsertEnv at h
    simp only at h
    split at h
    · cases h
    · split at h
      · cases h
        refine ⟨ready_completed hone hvalue, ?_⟩
        rw [apiValues_completed]
        have hempty : ((lines f.content).filter apiKeyRe).isEmpty = true ↔ apiValues f.content = [] := by
          rw [List.isEmpty_iff, apiValues_eq, List.map_eq_nil_iff]
        by_cases hnil : apiValues f.content = []
        · rw [if_pos hnil, if_pos (hempty.2 hnil)]
          exact .inl ⟨hnil, rfl, rfl⟩
        · rw [if_neg hnil, if_neg (mt hempty.1 hnil)]
          exact .inr ⟨f, rfl, hnil, rfl, rfl⟩
      · cases h

/-- A file that is left as it is has all it needs. -/
theorem upsertEnv_kept {g : Generated} {file : Option File} (h : upsertEnv g file = .kept) :
    ∃ f, file = some f ∧ Ready f.content := by
  cases file with
  | none => cases h
  | some f =>
    obtain ⟨hone, hvalue⟩ := not_refused (g := g) (f := f) (by rw [h]; nofun)
    refine ⟨f, rfl, ?_⟩
    unfold upsertEnv at h
    simp only at h
    split at h
    · cases h
    · split at h
      · cases h
      · next hnot =>
        have hsame : (completed g f.content).rewritten.flatten = f.content := completed_of_not_appended (by simpa using hnot)
        rw [← hsame]
        exact ready_completed hone hvalue

/-! ## `_upsert_compose_env` -/

/-- Nothing `init` looks for or writes is the API key. -/
theorem apiValue_of_sets {t : Target} (ht : t ∈ targetValues) {line : Bytes} (h : t.sets line) : apiValue line = none := by
  have hother : apiKeyRe line = false := by
    rw [Bool.eq_false_iff]
    intro hkey
    unfold apiKeyRe setsKey at hkey
    unfold Target.sets at h hkey
    simp only [decide_eq_true_eq] at h hkey
    have hkeys : ∀ t ∈ targetValues, ¬ t.key <+: ascii "PANELLA_API_KEY" ∧ ¬ ascii "PANELLA_API_KEY" <+: t.key := by decide
    rcases List.prefix_or_prefix_of_prefix h.1 hkey.1 with hpre | hpre
    · exact (hkeys t ht).1 hpre
    · exact (hkeys t ht).2 hpre
  simp [apiValue, hother]

theorem values_settled (seen : List Target) (ls : List Bytes) :
    ((withoutRepeats seen ls).map setLine).filterMap apiValue = ls.filterMap apiValue := by
  induction ls generalizing seen with
  | nil => rfl
  | cons line rest ih =>
    rw [withoutRepeats]
    cases hm : matchedKey line with
    | none =>
      rw [List.map_cons, setLine_of_isOther (isOther_iff.2 hm), List.filterMap_cons, List.filterMap_cons, ih]
    | some t =>
      obtain ⟨ht, hsets⟩ := matchedKey_eq_some.1 hm
      rw [List.filterMap_cons, apiValue_of_sets ht hsets]
      dsimp only
      split
      · exact ih seen
      · rw [List.map_cons, setLine_of_matched hm, List.filterMap_cons, apiValue_of_sets ht (target_line t ht).1]
        exact ih _

/-- Where every line but the last has an end, and the last too. -/
theorem ended_endLast {ls : List Bytes} (h : ls.Pairwise fun line _ => Ended 10 13 line) :
    ∀ line ∈ endLast ls, Ended 10 13 line := by
  have hall : ∀ (init : List Bytes) (last : Bytes), (init ++ [last]).Pairwise (fun line _ => Ended 10 13 line) → last.getLast? = some 10 →
      ∀ line ∈ init ++ [last], Ended 10 13 line := by
    intro init last hpair hlast line hline
    rcases List.mem_append.1 hline with hline | hline
    · exact (List.pairwise_append.1 hpair).2.2 line hline last (by simp)
    · rw [List.mem_singleton.1 hline]
      exact .inl hlast
  rcases endLast_cases ls with ⟨hsame, hended⟩ | ⟨init, last, rfl, -, hnew⟩
  · rw [hsame]
    rcases List.eq_nil_or_concat ls with rfl | ⟨init, last, rfl⟩
    · exact List.forall_mem_nil _
    · rw [List.concat_eq_append] at h hended ⊢
      exact hall init last h (hended last (by simp))
  · rw [hnew]
    have hpair := List.pairwise_append.1 h
    refine hall init (last ++ [10]) (List.pairwise_append.2 ⟨hpair.1, .cons nofun .nil, ?_⟩) (by simp)
    exact fun line hline _ _ => hpair.2.2 line hline last (by simp)

/-- Every line that is written but the last has an end. -/
theorem ended_pieces (content : Bytes) : (pieces content).Pairwise fun line _ => Ended 10 13 line := by
  have hset : ∀ line : Bytes, Ended 10 13 line → Ended 10 13 (setLine line) := by
    intro line hline
    cases hm : matchedKey line with
    | none =>
      rw [setLine_of_isOther (isOther_iff.2 hm)]
      exact hline
    | some t =>
      rw [setLine_of_matched hm]
      exact .inl (target_line t (matchedKey_eq_some.1 hm).1).2.2.1
  have hsettled : (EnvFile.settled content).Pairwise fun line _ => Ended 10 13 line := by
    unfold EnvFile.settled
    rw [List.pairwise_map]
    exact ((pairwise_ended 10 13 content).sublist (withoutRepeats_sublist [] _)).imp fun {line _} h => hset line h
  unfold pieces
  split
  · exact hsettled
  · have hfirst := ended_endLast hsettled
    rw [List.pairwise_append]
    refine ⟨?_, ?_, fun line hline _ _ => hfirst line hline⟩
    · exact List.pairwise_of_forall_mem_list fun line hline _ _ => hfirst line hline
    · rw [List.pairwise_map]
      apply List.pairwise_of_forall_mem_list
      intro t ht _ _
      exact .inl (target_line t (missing_subset t ht)).2.2.1

/-- **`init` leaves the API key as it is**, whatever the file is. -/
theorem upsertComposeEnv_apiValues (file : Option File) : apiValues (upsertComposeEnv file).content = keyValues file := by
  have hmerged : apiValues (pieces (readBytes file)).flatten = (pieces (readBytes file)).filterMap apiValue :=
    filterMap_splitlines_flatten apiValue_snoc (by decide) _ (fun _ h => isLine_pieces h) (ended_pieces _)
  have hkept : (EnvFile.settled (readBytes file)).filterMap apiValue = keyValues file := values_settled [] _
  rw [content_upsert, hmerged]
  unfold pieces
  split
  · exact hkept
  · have hnew : ((missing (readBytes file)).map Target.line).filterMap apiValue = [] := by
      rw [List.filterMap_eq_nil_iff]
      intro line hline
      obtain ⟨t, ht, rfl⟩ := List.mem_map.1 hline
      exact apiValue_of_sets (missing_subset t ht) (target_line t (missing_subset t ht)).1
    rw [List.filterMap_append, filterMap_endLast apiValue_snoc, hnew, List.append_nil]
    exact hkept

end Panella.Up
