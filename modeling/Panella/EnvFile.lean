import Mathlib.Data.List.Chain
import Mathlib.Data.List.Infix
import Panella.Lib.Lines

/-!
# The `.env` file: `_upsert_compose_env` (`cli/init.py:448-477`)

`panella init` sets two keys in the operator's `.env`. The file is read as bytes and cut into lines by `splitlines(keepends=True)`,
which ends a line at `\n`, `\r` or `\r\n`. The first line that sets a key is rewritten, its repeats are dropped, and a key no line sets
is appended, after a `\n` where the last line does not end in one.

The file has one line for each key, its other lines are as they were, and a second run changes nothing (`Upserted`), if and only if no
other line that ends in a bare `\r` comes to stand before a `\n` (**`upsert_keeps_iff`**): dropping a repeat can bring it before an
empty line, and the `\n` put before an appended key goes after a last line that has an end already (`carriageReturn_loses`).
-/

namespace Panella.EnvFile

open Lines

abbrev Bytes := List UInt8

/-- `str.encode("ascii")`. -/
def ascii (text : String) : Bytes := text.toList.map fun c => c.toNat.toUInt8

/-- `\s` of a pattern over bytes. -/
def isSpace (b : UInt8) : Bool := b == 32 || (9 ≤ b && b ≤ 13)

/-- `bytes.splitlines(keepends=True)`. -/
def lines (content : Bytes) : List Bytes := splitlines 10 13 content

structure Target where
  key : Bytes
  value : Bytes
deriving DecidableEq, Repr

def overlay : Target := ⟨ascii "PANELLA_GOVERNANCE_OVERLAY", ascii "/app/local/governance.yaml"⟩
def mcpProfile : Target := ⟨ascii "PANELLA_MCP_PROFILE", ascii "mcp-write"⟩

def targetValues : List Target := [overlay, mcpProfile]

/-- `f"{key}={value}\n"`. -/
def Target.line (t : Target) : Bytes := t.key ++ 61 :: t.value ++ [10]

def skipSpace (text : Bytes) : Bytes := text.dropWhile isSpace

/-- What `(export\s+)?` leaves. -/
def afterExport (text : Bytes) : Bytes :=
  if ascii "export" <+: text ∧ (text.drop 6).head?.any isSpace then skipSpace (text.drop 6) else text

/-- `^\s*(export\s+)?KEY\s*=`. No key starts with a space or with `export`, so the pattern can match in one way only. -/
def Target.sets (t : Target) (line : Bytes) : Bool :=
  let rest := afterExport (skipSpace line)
  t.key <+: rest ∧ (skipSpace (rest.drop t.key.length)).head? = some 61

/-- `next((key for key, pattern in patterns.items() if pattern.match(line)), None)`. -/
def matchedKey (line : Bytes) : Option Target := targetValues.find? (·.sets line)

structure Rewrite where
  rewritten : List Bytes
  seen : List Target

/-- One line of the loop (`init.py:461-468`). -/
def rewriteLine (state : Rewrite) (line : Bytes) : Rewrite :=
  match matchedKey line with
  | none => { state with rewritten := state.rewritten ++ [line] }
  | some t => if t ∈ state.seen then state else ⟨state.rewritten ++ [t.line], t :: state.seen⟩

/-- `if rewritten and not rewritten[-1].endswith(b"\n"): rewritten[-1] += b"\n"`. -/
def endLast (rewritten : List Bytes) : List Bytes :=
  match rewritten.getLast? with
  | none => rewritten
  | some last => if last.getLast? = some 10 then rewritten else rewritten.dropLast ++ [last ++ [10]]

/-- One key of the loop after (`init.py:469-475`). -/
def appendMissing (state : Rewrite) (t : Target) : Rewrite :=
  if t ∈ state.seen then state else ⟨endLast state.rewritten ++ [t.line], t :: state.seen⟩

def rewriteLines (content : Bytes) : Rewrite := targetValues.foldl appendMissing ((lines content).foldl rewriteLine ⟨[], []⟩)

structure File where
  content : Bytes
  mode : Nat

/-- `path.read_bytes() if path.exists() else b""`. -/
def readBytes (file : Option File) : Bytes := file.elim [] (·.content)

/-- `_upsert_compose_env` (`init.py:448`): the file it leaves, from the one that was there. -/
def upsertComposeEnv (file : Option File) : File where
  content := (rewriteLines (readBytes file)).rewritten.flatten
  mode := file.elim 0o600 (·.mode)

/-! ## What is asked of it -/

/-- The line sets none of the keys. -/
def isOther (line : Bytes) : Bool := targetValues.all fun t => !t.sets line

def others (content : Bytes) : List Bytes := (lines content).filter isOther

/-- One line for each key, every other line as it was but for a `\n` after one without an end, and no change the second time. -/
structure Upserted (content : Bytes) (file : File) : Prop where
  once : ∀ t ∈ targetValues, (lines file.content).filter t.sets = [t.line]
  kept : others file.content = others content ∨
    ∃ init last, others content = init ++ [last] ∧ ¬ Ended 10 13 last ∧ others file.content = init ++ [last ++ [10]]
  again : upsertComposeEnv (some file) = file

/-- Another line that ends in a bare `\r`. -/
def LoneReturn (line : Bytes) : Prop := isOther line ∧ line.getLast? = some 13

/-- The lines that stay: a line that sets a key already set goes. -/
def withoutRepeats (seen : List Target) : List Bytes → List Bytes
  | [] => []
  | line :: rest =>
    match matchedKey line with
    | none => line :: withoutRepeats seen rest
    | some t => if t ∈ seen then withoutRepeats seen rest else line :: withoutRepeats (t :: seen) rest

/-- No other line that ends in a bare `\r` stands before an empty line once the repeats are gone, nor is it the last where a key is to
be appended. -/
structure Apart (content : Bytes) : Prop where
  within : (withoutRepeats [] (lines content)).IsChain fun line next => LoneReturn line → next ≠ [10]
  atEnd : (∃ t ∈ targetValues, ∀ line ∈ lines content, ¬ t.sets line) →
    ∀ line ∈ (withoutRepeats [] (lines content)).getLast?, ¬ LoneReturn line

/-! ## The keys -/

theorem skipSpace_append {spaces : Bytes} (h : spaces.all isSpace) (text : Bytes) : skipSpace (spaces ++ text) = skipSpace text := by
  apply List.dropWhile_append_of_pos
  simpa using h

theorem skipSpace_of_head {b : UInt8} (h : isSpace b = false) (text : Bytes) : skipSpace (b :: text) = b :: text := by
  rw [skipSpace, List.dropWhile_cons_of_neg (by simp [h])]

/-- What is skipped, and what is left. -/
theorem exists_skipSpace (text : Bytes) : ∃ spaces, spaces.all isSpace ∧ text = spaces ++ skipSpace text :=
  ⟨text.takeWhile isSpace, by simp, by rw [skipSpace, List.takeWhile_append_dropWhile]⟩

/-- The pattern, read as what a line it matches is made of. -/
theorem Target.sets_iff {t : Target} (hkey : t.key.head? = some 80) {line : Bytes} :
    t.sets line ↔ ∃ indent exported gap tail, line = indent ++ (exported ++ (t.key ++ (gap ++ 61 :: tail))) ∧
      indent.all isSpace ∧ gap.all isSpace ∧
        (exported = [] ∨ ∃ b spaces, exported = ascii "export" ++ b :: spaces ∧ (b :: spaces).all isSpace) := by
  obtain ⟨key', hkey'⟩ : ∃ key', t.key = 80 :: key' := by
    cases hk : t.key with
    | nil => simp [hk] at hkey
    | cons b key' => exact ⟨key', by simpa [hk] using hkey⟩
  unfold Target.sets
  simp only [decide_eq_true_eq]
  constructor
  · rintro ⟨⟨after, hafter⟩, hvalue⟩
    obtain ⟨indent, hindent, hline⟩ := exists_skipSpace line
    obtain ⟨gap, hgap, hrest⟩ := exists_skipSpace after
    rw [← hafter, List.drop_left] at hvalue
    obtain ⟨tail, htail⟩ : ∃ tail, skipSpace after = 61 :: tail := by
      cases hs : skipSpace after with
      | nil => simp [hs] at hvalue
      | cons b tail => exact ⟨tail, by simpa [hs] using hvalue⟩
    rw [htail] at hrest
    rw [hrest] at hafter
    unfold afterExport at hafter
    split at hafter
    · rename_i hexport
      obtain ⟨⟨rest, hpre⟩, hspace⟩ := hexport
      rw [← hpre, List.drop_left' (by decide)] at hspace hafter
      cases rest with
      | nil => simp at hspace
      | cons b rest =>
        simp only [List.head?_cons, Option.any_some] at hspace
        obtain ⟨spaces, hspaces, hrest'⟩ := exists_skipSpace rest
        have hskip : skipSpace (b :: rest) = skipSpace rest := by rw [skipSpace, List.dropWhile_cons_of_pos hspace]; rfl
        rw [hskip] at hafter
        refine ⟨indent, ascii "export" ++ b :: spaces, gap, tail, ?_, hindent, hgap, .inr ⟨b, spaces, rfl, ?_⟩⟩
        · rw [hafter, List.append_assoc, List.cons_append, ← hrest', hpre]
          exact hline
        · rw [List.all_cons, hspace, hspaces, Bool.and_self]
    · refine ⟨indent, [], gap, tail, ?_, hindent, hgap, .inl rfl⟩
      rw [hafter]
      exact hline
  · rintro ⟨indent, exported, gap, tail, rfl, hindent, hgap, hexport⟩
    have hrest : afterExport (skipSpace (indent ++ (exported ++ (t.key ++ (gap ++ 61 :: tail))))) = t.key ++ (gap ++ 61 :: tail) := by
      rw [skipSpace_append hindent, hkey']
      rcases hexport with rfl | ⟨b, spaces, rfl, hspaces⟩
      · rw [List.nil_append, List.cons_append, skipSpace_of_head (by decide), afterExport, if_neg]
        rintro ⟨⟨rest, hpre⟩, -⟩
        have := congrArg List.head? hpre
        simp [ascii] at this
      · have hs : skipSpace (ascii "export" ++ b :: spaces ++ (80 :: key' ++ (gap ++ 61 :: tail))) =
            ascii "export" ++ (b :: spaces ++ (80 :: key' ++ (gap ++ 61 :: tail))) := by
          rw [List.append_assoc]
          exact skipSpace_of_head (by decide) _
        rw [hs, afterExport, List.drop_left' (by decide), if_pos, skipSpace_append hspaces]
        · exact skipSpace_of_head (by decide) _
        · refine ⟨⟨_, rfl⟩, ?_⟩
          simp only [List.all_cons, Bool.and_eq_true] at hspaces
          simpa using hspaces.1
    rw [hrest, List.drop_left]
    refine ⟨⟨_, rfl⟩, ?_⟩
    rw [skipSpace_append hgap, skipSpace_of_head (by decide), List.head?_cons]

theorem key_head : ∀ t ∈ targetValues, t.key.head? = some 80 := by decide

/-- A `\n` at its end does not change what a line sets. -/
theorem sets_snoc {t : Target} (ht : t ∈ targetValues) (line : Bytes) : t.sets (line ++ [10]) = t.sets line := by
  have hkey := key_head t ht
  rw [Bool.eq_iff_iff, Target.sets_iff hkey, Target.sets_iff hkey]
  constructor
  · rintro ⟨indent, exported, gap, tail, hline, hspaces⟩
    rcases List.eq_nil_or_concat tail with rfl | ⟨tail', last, rfl⟩
    · -- the line would end in `=`
      have := congrArg List.getLast? hline
      simp at this
    · rw [List.concat_eq_append] at hline
      refine ⟨indent, exported, gap, tail', ?_, hspaces⟩
      have hsame : line ++ [10] = (indent ++ (exported ++ (t.key ++ (gap ++ 61 :: tail')))) ++ [last] := by simpa using hline
      exact (List.append_inj' hsame rfl).1
  · rintro ⟨indent, exported, gap, tail, rfl, hspaces⟩
    exact ⟨indent, exported, gap, tail ++ [10], by simp, hspaces⟩

/-- No line sets two keys: neither key starts with the other. -/
theorem sets_unique {t t' : Target} (ht : t ∈ targetValues) (ht' : t' ∈ targetValues) {line : Bytes} (h : t.sets line)
    (h' : t'.sets line) : t = t' := by
  unfold Target.sets at h h'
  simp only [decide_eq_true_eq] at h h'
  have hkeys : ∀ t ∈ targetValues, ∀ t' ∈ targetValues, t.key <+: t'.key → t = t' := by decide
  rcases List.prefix_or_prefix_of_prefix h.1 h'.1 with hpre | hpre
  · exact hkeys t ht t' ht' hpre
  · exact (hkeys t' ht' t ht hpre).symm

theorem matchedKey_eq_some {line : Bytes} {t : Target} : matchedKey line = some t ↔ t ∈ targetValues ∧ t.sets line := by
  constructor
  · intro h
    have hsets := List.find?_some (p := fun t : Target => t.sets line) h
    exact ⟨List.mem_of_find?_eq_some h, hsets⟩
  · rintro ⟨ht, hsets⟩
    cases hm : matchedKey line with
    | none => exact absurd hsets (List.find?_eq_none.1 hm t ht)
    | some t' =>
      have hsets' := List.find?_some (p := fun t : Target => t.sets line) hm
      rw [sets_unique ht (List.mem_of_find?_eq_some hm) hsets hsets']

/-- What the loop writes for a key sets it, and is one line with an end. -/
theorem target_line : ∀ t ∈ targetValues,
    t.sets t.line ∧ IsLine 10 13 t.line ∧ t.line.getLast? = some 10 ∧ t.line.head? = some 80 := by decide

theorem sets_line_iff {t t' : Target} (ht : t ∈ targetValues) (ht' : t' ∈ targetValues) : t.sets t'.line ↔ t = t' :=
  ⟨fun h => sets_unique ht ht' h (target_line t' ht').1, by rintro rfl; exact (target_line t ht).1⟩

theorem matchedKey_line {t : Target} (ht : t ∈ targetValues) : matchedKey t.line = some t :=
  matchedKey_eq_some.2 ⟨ht, (target_line t ht).1⟩

theorem isOther_iff {line : Bytes} : isOther line ↔ matchedKey line = none := by simp [isOther, matchedKey]

theorem isOther_line {t : Target} (ht : t ∈ targetValues) : isOther t.line = false := by
  rw [Bool.eq_false_iff, Ne, isOther_iff, matchedKey_line ht]
  simp

theorem isOther_snoc (line : Bytes) : isOther (line ++ [10]) = isOther line := by
  rw [Bool.eq_iff_iff, isOther, isOther, List.all_eq_true, List.all_eq_true]
  apply forall₂_congr
  intro t ht
  rw [sets_snoc ht]

/-! ## The loops -/

/-- A line that sets a key becomes that key's line. -/
def setLine (line : Bytes) : Bytes := (matchedKey line).elim line Target.line

/-- The keys no line sets. -/
def missing (content : Bytes) : List Target := targetValues.filter fun t => !(lines content).any t.sets

theorem withoutRepeats_sublist (seen : List Target) (lines : List Bytes) : (withoutRepeats seen lines).Sublist lines := by
  induction lines generalizing seen with
  | nil => exact .slnil
  | cons line rest ih =>
    rw [withoutRepeats]
    split
    · exact (ih seen).cons_cons line
    · split
      · exact (ih seen).cons line
      · exact (ih _).cons_cons line

theorem rewritten_rewriteLine (lines : List Bytes) (state : Rewrite) :
    (lines.foldl rewriteLine state).rewritten = state.rewritten ++ (withoutRepeats state.seen lines).map setLine := by
  induction lines generalizing state with
  | nil => simp [withoutRepeats]
  | cons line rest ih =>
    rw [List.foldl_cons, ih, rewriteLine, withoutRepeats]
    cases hm : matchedKey line with
    | none => simp [setLine, hm]
    | some t =>
      by_cases hseen : t ∈ state.seen
      · simp [hseen]
      · simp [hseen, setLine, hm]

theorem mem_seen_rewriteLine {t : Target} (ht : t ∈ targetValues) (lines : List Bytes) (state : Rewrite) :
    t ∈ (lines.foldl rewriteLine state).seen ↔ t ∈ state.seen ∨ lines.any t.sets := by
  induction lines generalizing state with
  | nil => simp
  | cons line rest ih =>
    have hstep : t ∈ (rewriteLine state line).seen ↔ t ∈ state.seen ∨ t.sets line := by
      rw [rewriteLine]
      cases hm : matchedKey line with
      | none =>
        have hnot : t.sets line = false := by simpa using List.find?_eq_none.1 hm t ht
        simp [hnot]
      | some t' =>
        have hiff : t.sets line ↔ t = t' :=
          ⟨fun h => sets_unique ht (matchedKey_eq_some.1 hm).1 h (matchedKey_eq_some.1 hm).2,
            by rintro rfl; exact (matchedKey_eq_some.1 hm).2⟩
        rw [hiff]
        dsimp only
        split
        · rename_i hseen
          exact ⟨.inl, by rintro (h | rfl) <;> assumption⟩
        · simp [or_comm]
    rw [List.foldl_cons, ih, hstep, List.any_cons, Bool.or_eq_true, or_assoc]

/-- `endLast` gives the last line an end, where it has not one. -/
theorem endLast_cases (rewritten : List Bytes) :
    (endLast rewritten = rewritten ∧ ∀ last ∈ rewritten.getLast?, last.getLast? = some 10) ∨
    ∃ init last, rewritten = init ++ [last] ∧ last.getLast? ≠ some 10 ∧ endLast rewritten = init ++ [last ++ [10]] := by
  rcases List.eq_nil_or_concat rewritten with rfl | ⟨init, last, rfl⟩
  · exact .inl ⟨rfl, by simp⟩
  · rw [List.concat_eq_append]
    by_cases hlast : last.getLast? = some 10
    · exact .inl ⟨by simp [endLast, hlast], by simpa using hlast⟩
    · exact .inr ⟨init, last, rfl, hlast, by simp [endLast, hlast]⟩

theorem endLast_of_ended {rewritten : List Bytes} (h : ∀ last ∈ rewritten.getLast?, last.getLast? = some 10) :
    endLast rewritten = rewritten := by
  unfold endLast
  split
  · rfl
  · rename_i last hlast
    rw [if_pos (h last hlast)]

/-- The keys no line sets go to the end, after an end for the last line. -/
theorem rewritten_appendMissing {targets : List Target} (htargets : ∀ t ∈ targets, t ∈ targetValues) (hnodup : targets.Nodup)
    (state : Rewrite) : (targets.foldl appendMissing state).rewritten =
      if targets.filter (· ∉ state.seen) = [] then state.rewritten
      else endLast state.rewritten ++ (targets.filter (· ∉ state.seen)).map Target.line := by
  induction targets generalizing state with
  | nil => rfl
  | cons t targets ih =>
    rw [List.forall_mem_cons] at htargets
    rw [List.nodup_cons] at hnodup
    rw [List.foldl_cons, ih htargets.2 hnodup.2, appendMissing]
    by_cases hseen : t ∈ state.seen
    · simp [hseen]
    · have hrest : targets.filter (· ∉ t :: state.seen) = targets.filter (· ∉ state.seen) := by
        apply List.filter_congr
        intro t' ht'
        have hne : t' ≠ t := fun h => hnodup.1 (h ▸ ht')
        simp [hne]
      have hended : endLast (endLast state.rewritten ++ [t.line]) = endLast state.rewritten ++ [t.line] := by
        apply endLast_of_ended
        simpa using (target_line t htargets.1).2.2.1
      simp only [hseen, ↓reduceIte, hrest, hended]
      split
      · rename_i hnil
        rw [List.filter_cons_of_pos (by simpa using hseen), hnil]
        simp
      · simp [hseen]

/-- The lines that stay, rewritten. -/
def settled (content : Bytes) : List Bytes := (withoutRepeats [] (lines content)).map setLine

/-- What the file is rewritten to: the lines that stay, then the keys no line set. -/
def pieces (content : Bytes) : List Bytes :=
  if missing content = [] then settled content else endLast (settled content) ++ (missing content).map Target.line

theorem rewriteLines_eq (content : Bytes) : (rewriteLines content).rewritten = pieces content := by
  have hmissing : targetValues.filter (· ∉ ((lines content).foldl rewriteLine ⟨[], []⟩).seen) = missing content := by
    apply List.filter_congr
    intro t ht
    rw [Bool.eq_iff_iff, decide_eq_true_eq, mem_seen_rewriteLine ht]
    simp
  rw [rewriteLines, rewritten_appendMissing (fun _ h => h) (by decide), hmissing, rewritten_rewriteLine, List.nil_append]
  rfl

/-! ## What is written -/

theorem setLine_of_isOther {line : Bytes} (h : isOther line) : setLine line = line := by
  rw [setLine, isOther_iff.1 h, Option.elim_none]

theorem setLine_of_matched {line : Bytes} {t : Target} (h : matchedKey line = some t) : setLine line = t.line := by
  rw [setLine, h, Option.elim_some]

/-- The lines that stay set a key once, unless it was set before. -/
theorem filter_sets_withoutRepeats {t : Target} (ht : t ∈ targetValues) (seen : List Target) (lines : List Bytes) :
    ((withoutRepeats seen lines).map setLine).filter t.sets = if t ∉ seen ∧ lines.any t.sets then [t.line] else [] := by
  induction lines generalizing seen with
  | nil => simp [withoutRepeats]
  | cons line rest ih =>
    rw [withoutRepeats]
    cases hm : matchedKey line with
    | none =>
      have hnot : t.sets line = false := by simpa using List.find?_eq_none.1 hm t ht
      simp [setLine, hm, hnot, ih]
    | some t' =>
      have ht' := (matchedKey_eq_some.1 hm).1
      have hline : t.sets line ↔ t = t' :=
        ⟨fun h => sets_unique ht ht' h (matchedKey_eq_some.1 hm).2, by rintro rfl; exact (matchedKey_eq_some.1 hm).2⟩
      dsimp only
      by_cases hseen : t' ∈ seen
      · rw [if_pos hseen, ih]
        by_cases heq : t = t'
        · simp [heq, hseen]
        · simp [hline, heq]
      · rw [if_neg hseen, List.map_cons, setLine_of_matched hm, List.filter_cons, ih]
        by_cases heq : t = t'
        · subst heq
          simp [hseen, hline, (target_line t ht).1]
        · simp [hline, heq, sets_line_iff ht ht']

theorem filter_isOther_withoutRepeats (seen : List Target) (lines : List Bytes) :
    ((withoutRepeats seen lines).map setLine).filter isOther = lines.filter isOther := by
  induction lines generalizing seen with
  | nil => rfl
  | cons line rest ih =>
    rw [withoutRepeats]
    cases hm : matchedKey line with
    | none =>
      have hother : isOther line := isOther_iff.2 hm
      simp [setLine_of_isOther hother, hother, ih]
    | some t =>
      have hnot : isOther line = false := by
        rw [Bool.eq_false_iff, Ne, isOther_iff, hm]
        simp
      dsimp only
      split
      · rw [ih, List.filter_cons_of_neg (by simp [hnot])]
      · rw [List.map_cons, setLine_of_matched hm, List.filter_cons_of_neg (by simp [isOther_line (matchedKey_eq_some.1 hm).1]), ih,
          List.filter_cons_of_neg (by simp [hnot])]

theorem filter_sets_map_line {t : Target} (ht : t ∈ targetValues) {targets : List Target}
    (htargets : ∀ t ∈ targets, t ∈ targetValues) (hnodup : targets.Nodup) : (targets.map Target.line).filter t.sets = if t ∈ targets then [t.line] else [] := by
  induction targets with
  | nil => rfl
  | cons t' targets ih =>
    rw [List.forall_mem_cons] at htargets
    rw [List.nodup_cons] at hnodup
    rw [List.map_cons, List.filter_cons, ih htargets.2 hnodup.2]
    by_cases heq : t = t'
    · subst heq
      simp [(target_line t ht).1, hnodup.1]
    · simp [sets_line_iff ht htargets.1, heq]

theorem filter_isOther_map_line {targets : List Target} (htargets : ∀ t ∈ targets, t ∈ targetValues) :
    (targets.map Target.line).filter isOther = [] := by
  rw [List.filter_eq_nil_iff]
  rintro line hline
  obtain ⟨t, ht, rfl⟩ := List.mem_map.1 hline
  simp [isOther_line (htargets t ht)]

theorem missing_subset {content : Bytes} : ∀ t ∈ missing content, t ∈ targetValues := fun _ h => (List.mem_filter.1 h).1

theorem mem_missing {t : Target} (ht : t ∈ targetValues) {content : Bytes} :
    t ∈ missing content ↔ ¬ (lines content).any t.sets := by
  simp [missing, ht]

/-- A line of the settled file that sets a key is that key's line. -/
theorem settled_cases {content line : Bytes} (h : line ∈ settled content) :
    (∃ t ∈ targetValues, line = t.line) ∨ line ∈ withoutRepeats [] (lines content) ∧ isOther line := by
  obtain ⟨orig, horig, rfl⟩ := List.mem_map.1 h
  cases hm : matchedKey orig with
  | none => exact .inr (by rw [setLine_of_isOther (isOther_iff.2 hm)]; exact ⟨horig, isOther_iff.2 hm⟩)
  | some t => exact .inl ⟨t, (matchedKey_eq_some.1 hm).1, setLine_of_matched hm⟩

/-- A last line without a line feed is one of the others, and the last that stayed. -/
theorem settled_last {content : Bytes} {init : List Bytes} {last : Bytes} (h : settled content = init ++ [last])
    (hend : last.getLast? ≠ some 10) : isOther last ∧ (withoutRepeats [] (lines content)).getLast? = some last := by
  have hlast : ((withoutRepeats [] (lines content)).map setLine).getLast? = some last := by
    rw [← settled, h, List.getLast?_concat]
  rw [List.getLast?_map, Option.map_eq_some_iff] at hlast
  obtain ⟨orig, horig, rfl⟩ := hlast
  cases hm : matchedKey orig with
  | none =>
    rw [setLine_of_isOther (isOther_iff.2 hm)]
    exact ⟨isOther_iff.2 hm, horig⟩
  | some t =>
    rw [setLine_of_matched hm] at hend
    exact absurd (target_line t (matchedKey_eq_some.1 hm).1).2.2.1 hend

/-- The pieces set every key once. -/
theorem filter_sets_pieces {t : Target} (ht : t ∈ targetValues) (content : Bytes) : (pieces content).filter t.sets = [t.line] := by
  have hsettled : (settled content).filter t.sets = if (lines content).any t.sets then [t.line] else [] := by
    rw [settled, filter_sets_withoutRepeats ht]
    simp
  have hended : (endLast (settled content)).filter t.sets = (settled content).filter t.sets := by
    rcases endLast_cases (settled content) with ⟨hsame, -⟩ | ⟨init, last, hlast, hend, hended⟩
    · rw [hsame]
    · have hnot : t.sets last = false := by
        have hother := (settled_last hlast hend).1
        simpa using List.all_eq_true.1 hother t ht
      rw [hended, hlast, List.filter_append, List.filter_append, List.filter_cons_of_neg (by simp [sets_snoc ht, hnot]),
        List.filter_cons_of_neg (by simp [hnot])]
  unfold pieces
  split
  · rename_i hnone
    rw [hsettled, if_pos]
    by_contra hany
    simpa [hnone] using (mem_missing ht).2 hany
  · have hnodup : targetValues.Nodup := by decide
    rw [List.filter_append, hended, hsettled, filter_sets_map_line ht missing_subset (hnodup.sublist List.filter_sublist)]
    by_cases hany : (lines content).any t.sets
    · rw [if_pos hany, if_neg ((mem_missing ht).not_left.2 hany), List.append_nil]
    · rw [if_neg hany, if_pos ((mem_missing ht).2 hany), List.nil_append]

/-- The pieces keep the other lines; where a key is missing, the last gets the line feed it has not. -/
theorem filter_isOther_pieces (content : Bytes) : (pieces content).filter isOther = others content ∨
    ∃ init last, missing content ≠ [] ∧ (withoutRepeats [] (lines content)).getLast? = some last ∧ isOther last ∧
      last.getLast? ≠ some 10 ∧ others content = init ++ [last] ∧ (pieces content).filter isOther = init ++ [last ++ [10]] := by
  have hsettled : (settled content).filter isOther = others content := filter_isOther_withoutRepeats _ _
  unfold pieces
  split
  · exact .inl hsettled
  · rename_i hmissing
    rw [List.filter_append, filter_isOther_map_line missing_subset, List.append_nil]
    rcases endLast_cases (settled content) with ⟨hsame, -⟩ | ⟨init, last, hlast, hend, hended⟩
    · exact .inl (by rw [hsame, hsettled])
    · obtain ⟨hother, hkept⟩ := settled_last hlast hend
      refine .inr ⟨init.filter isOther, last, hmissing, hkept, hother, hend, ?_, ?_⟩
      · rw [← hsettled, hlast, List.filter_append, List.filter_cons_of_pos hother, List.filter_nil]
      · rw [hended, List.filter_append, List.filter_cons_of_pos (by rw [isOther_snoc]; exact hother), List.filter_nil]

/-! ## The lines of what is written -/

theorem lines_flatten (content : Bytes) : (lines content).flatten = content := flatten_splitlines 10 13 content

/-- Every line is another, or sets one of the two keys. -/
theorem length_eq (lines : List Bytes) :
    lines.length = (lines.filter overlay.sets).length + (lines.filter mcpProfile.sets).length + (lines.filter isOther).length := by
  induction lines with
  | nil => rfl
  | cons line rest ih =>
    have hboth : overlay.sets line → mcpProfile.sets line = false := by
      intro h
      by_contra h'
      have heq : overlay = mcpProfile := sets_unique (by decide) (by decide) h (by simpa using h')
      exact absurd heq (by decide)
    have hother : isOther line = (!overlay.sets line && !mcpProfile.sets line) := by simp [isOther, targetValues]
    rw [List.length_cons, ih, List.filter_cons, List.filter_cons, List.filter_cons, hother]
    cases ho : overlay.sets line with
    | true =>
      simp [hboth ho]
      omega
    | false => cases mcpProfile.sets line <;> simp <;> omega

/-- As many lines as there are others and keys. -/
theorem length_pieces (content : Bytes) : (pieces content).length = 2 + (others content).length := by
  rw [length_eq, filter_sets_pieces (t := overlay) (by decide), filter_sets_pieces (t := mcpProfile) (by decide)]
  rcases filter_isOther_pieces content with h | ⟨init, last, -, -, -, -, h, h'⟩
  · rw [h]
    rfl
  · rw [h, h', List.length_append, List.length_append]
    rfl

theorem isLine_settled {content line : Bytes} (h : line ∈ settled content) : IsLine 10 13 line := by
  rcases settled_cases h with ⟨t, ht, rfl⟩ | ⟨hmem, -⟩
  · exact (target_line t ht).2.1
  · exact isLine_of_mem ((withoutRepeats_sublist [] (lines content)).subset hmem)

theorem isLine_endLast {content line : Bytes} (h : line ∈ endLast (settled content)) : IsLine 10 13 line := by
  rcases endLast_cases (settled content) with ⟨hsame, -⟩ | ⟨init, last, hlast, hend, hended⟩
  · rw [hsame] at h
    exact isLine_settled h
  · rw [hended, List.mem_append, List.mem_singleton] at h
    rcases h with h | rfl
    · have hmem : line ∈ settled content := by simp [hlast, h]
      exact isLine_settled hmem
    · exact (isLine_settled (show last ∈ settled content by simp [hlast])).snoc hend

theorem isLine_pieces {content line : Bytes} (h : line ∈ pieces content) : IsLine 10 13 line := by
  unfold pieces at h
  split at h
  · exact isLine_settled h
  · rw [List.mem_append] at h
    rcases h with h | h
    · exact isLine_endLast h
    · obtain ⟨t, ht, rfl⟩ := List.mem_map.1 h
      exact (target_line t (missing_subset t ht)).2.1

/-- A line that has an end, and is no lone `\r` before an empty line, does not run into the next. -/
theorem closed_setLine {line next : Bytes} (hended : Ended 10 13 line) (hnext : IsLine 10 13 next)
    (h : LoneReturn line → next ≠ [10]) : Closed 10 13 (setLine line) (setLine next) := by
  cases hm : matchedKey line with
  | some t =>
    rw [setLine_of_matched hm]
    exact .inl (target_line t (matchedKey_eq_some.1 hm).1).2.2.1
  | none =>
    rw [setLine_of_isOther (isOther_iff.2 hm)]
    refine hended.imp_right fun hreturn => ⟨hreturn, ?_⟩
    cases hm' : matchedKey next with
    | some t =>
      rw [setLine_of_matched hm', (target_line t (matchedKey_eq_some.1 hm').1).2.2.2]
      decide
    | none =>
      rw [setLine_of_isOther (isOther_iff.2 hm')]
      intro hhead
      exact h ⟨isOther_iff.2 hm, hreturn⟩ (hnext.eq_of_head? hhead)

theorem closed_settled {content : Bytes}
    (h : (withoutRepeats [] (lines content)).IsChain fun line next => LoneReturn line → next ≠ [10]) :
    (settled content).IsChain (Closed 10 13) := by
  have hsub := withoutRepeats_sublist [] (lines content)
  have hended := (pairwise_ended 10 13 content).sublist hsub
  rw [settled, List.isChain_map, List.isChain_iff_forall_rel_of_append_cons_cons]
  intro line next before after heq
  refine closed_setLine ?_ (isLine_of_mem (hsub.subset (by simp [heq]))) (List.isChain_iff_forall_rel_of_append_cons_cons.1 h heq)
  rw [heq, List.pairwise_append] at hended
  exact (List.pairwise_cons.1 hended.2.1).1 next (by simp)

/-- Pieces that stay apart are the lines of the new file, whatever its last line was. -/
theorem lines_pieces {content : Bytes}
    (h : (withoutRepeats [] (lines content)).IsChain fun line next => LoneReturn line → next ≠ [10]) :
    lines (pieces content).flatten = pieces content := by
  refine splitlines_flatten (fun _ => isLine_pieces) ?_
  have hchain := closed_settled h
  unfold pieces
  split
  · exact hchain
  · have hended : (endLast (settled content)).IsChain (Closed 10 13) ∧
        ∀ last ∈ (endLast (settled content)).getLast?, last.getLast? = some 10 := by
      rcases endLast_cases (settled content) with ⟨hsame, hlast⟩ | ⟨init, last, hlast, hend, hended⟩
      · rw [hsame]
        exact ⟨hchain, hlast⟩
      · have hne : last ≠ [] := (isLine_settled (show last ∈ settled content by simp [hlast])).ne_nil
        rw [hlast, List.isChain_append] at hchain
        rw [hended, List.isChain_append]
        refine ⟨⟨hchain.1, .singleton _, ?_⟩, by simp⟩
        intro before hbefore next hnext
        obtain rfl : last ++ [10] = next := by simpa using hnext
        have hclosed := hchain.2.2 before hbefore last (by simp)
        rwa [Closed, List.head?_append_of_ne_nil _ hne]
    refine List.isChain_append.2 ⟨hended.1, ?_, fun last hlast _ _ => .inl (hended.2 last hlast)⟩
    rw [List.isChain_map]
    apply List.Pairwise.isChain
    apply List.pairwise_of_forall_mem_list
    intro t ht _ _
    exact .inl (target_line t (missing_subset t ht)).2.2.1

/-! ## The new file -/

/-- Lines that set no key twice, and each to its value, stay as they are. -/
theorem map_withoutRepeats {seen : List Target} {lines : List Bytes}
    (honce : ∀ t ∈ targetValues, lines.filter t.sets = [] ∨ t ∉ seen ∧ lines.filter t.sets = [t.line]) :
    (withoutRepeats seen lines).map setLine = lines := by
  induction lines generalizing seen with
  | nil => rfl
  | cons line rest ih =>
    rw [withoutRepeats]
    cases hm : matchedKey line with
    | none =>
      rw [List.map_cons, setLine_of_isOther (isOther_iff.2 hm), ih]
      intro t ht
      have hnot : t.sets line = false := by simpa using List.find?_eq_none.1 hm t ht
      simpa [hnot] using honce t ht
    | some t =>
      obtain ⟨ht, hsets⟩ := matchedKey_eq_some.1 hm
      have hfirst := honce t ht
      rw [List.filter_cons_of_pos hsets, List.cons.injEq] at hfirst
      obtain h | ⟨hseen, hline, hrest⟩ := hfirst
      · simp at h
      · dsimp only
        rw [if_neg hseen, List.map_cons, setLine_of_matched hm, ih, hline]
        intro t' ht'
        by_cases heq : t' = t
        · exact .inl (heq ▸ hrest)
        · have hnot : t'.sets line = false := by
            by_contra h
            exact heq (sets_unique ht' ht (by simpa using h) hsets)
          have hlater := honce t' ht'
          rw [List.filter_cons_of_neg (by simp [hnot])] at hlater
          exact hlater.imp_right fun h => ⟨by simpa [heq] using h.1, h.2⟩

/-- A file whose lines set every key once, to its value, stays as it is. -/
theorem upsert_of_once {file : File} (honce : ∀ t ∈ targetValues, (lines file.content).filter t.sets = [t.line]) :
    upsertComposeEnv (some file) = file := by
  have hnone : missing file.content = [] := by
    rw [missing, List.filter_eq_nil_iff]
    intro t ht hany
    have hempty : (lines file.content).filter t.sets = [] := by simpa using hany
    simp [honce t ht] at hempty
  have hpieces : pieces file.content = lines file.content := by
    rw [pieces, if_pos hnone, settled, map_withoutRepeats]
    intro t ht
    exact .inr ⟨List.not_mem_nil, honce t ht⟩
  cases file
  simp only [upsertComposeEnv, readBytes, Option.elim_some, rewriteLines_eq, hpieces, lines_flatten]

theorem content_upsert (file : Option File) : (upsertComposeEnv file).content = (pieces (readBytes file)).flatten := by
  rw [upsertComposeEnv, rewriteLines_eq]

/-- A last other line without an end of its own is the unterminated one; a lone `\r` is excluded where a key is missing. -/
theorem Apart.upserted {file : Option File} (h : Apart (readBytes file)) :
    Upserted (readBytes file) (upsertComposeEnv file) := by
  have hlines : lines (upsertComposeEnv file).content = pieces (readBytes file) := by
    rw [content_upsert, lines_pieces h.within]
  have honce : ∀ t ∈ targetValues, (lines (upsertComposeEnv file).content).filter t.sets = [t.line] := by
    intro t ht
    rw [hlines, filter_sets_pieces ht]
  refine ⟨honce, ?_, upsert_of_once honce⟩
  rw [others, hlines]
  rcases filter_isOther_pieces (readBytes file) with hsame | ⟨init, last, hmissing, hlast, hother, hend, hothers, hnew⟩
  · exact .inl hsame
  · refine .inr ⟨init, last, hothers, ?_, hnew⟩
    rintro (hlf | hcr)
    · exact hend hlf
    · obtain ⟨t, ht⟩ := List.exists_mem_of_ne_nil _ hmissing
      refine h.atEnd ⟨t, missing_subset t ht, ?_⟩ last hlast ⟨hother, hcr⟩
      simpa using (mem_missing (missing_subset t ht)).1 ht

theorem Upserted.length_eq {content : Bytes} {file : File} (h : Upserted content file) :
    (lines file.content).length = 2 + (others content).length := by
  have hothers : (others file.content).length = (others content).length := by
    rcases h.kept with hsame | ⟨init, last, hothers, -, hnew⟩
    · rw [hsame]
    · rw [hothers, hnew, List.length_append, List.length_append]
      rfl
  rw [EnvFile.length_eq, h.once overlay (by decide), h.once mcpProfile (by decide), ← hothers]
  rfl

/-- Two lines that stay next to each other are two pieces next to each other. -/
theorem exists_pieces {content line : Bytes} {before after : List Bytes} (hother : isOther line)
    (heq : withoutRepeats [] (lines content) = before ++ line :: [10] :: after) :
    ∃ before' after', pieces content = before' ++ line :: [10] :: after' := by
  have hsettled : settled content = before.map setLine ++ line :: [10] :: after.map setLine := by
    rw [settled, heq, List.map_append, List.map_cons, List.map_cons, setLine_of_isOther hother,
      setLine_of_isOther (show isOther [10] by decide)]
  unfold pieces
  split
  · exact ⟨_, _, hsettled⟩
  · rcases endLast_cases (settled content) with ⟨hsame, -⟩ | ⟨init, last, hlast, hend, hended⟩
    · rw [hsame, hsettled]
      exact ⟨before.map setLine, after.map setLine ++ (missing content).map Target.line, by simp⟩
    · rcases List.eq_nil_or_concat (after.map setLine) with hnil | ⟨after', last', hafter⟩
      · -- the empty line would be the last
        rw [hsettled, hnil, ← List.singleton_append, ← List.append_assoc] at hlast
        obtain rfl : [10] = last := List.singleton_inj.1 (List.append_inj' hlast rfl).2
        exact absurd rfl hend
      · rw [hsettled, hafter, List.concat_eq_append, ← List.cons_append, ← List.cons_append, ← List.append_assoc] at hlast
        rw [hended, ← (List.append_inj' hlast rfl).1]
        exact ⟨before.map setLine, after' ++ (last ++ [10]) :: (missing content).map Target.line, by simp⟩

/-- A last other line without a line feed gets one before a key is appended. -/
theorem filter_isOther_pieces_of_missing {content last : Bytes} (hmissing : missing content ≠ [])
    (hlast : (withoutRepeats [] (lines content)).getLast? = some last) (hother : isOther last) (hend : last.getLast? ≠ some 10) :
    ∃ init, others content = init ++ [last] ∧ (pieces content).filter isOther = init ++ [last ++ [10]] := by
  have hsettled : (settled content).getLast? = some last := by
    rw [settled, List.getLast?_map, hlast, Option.map_some, setLine_of_isOther hother]
  rcases endLast_cases (settled content) with ⟨-, hended⟩ | ⟨init, last', hinit, -, hended⟩
  · exact absurd (hended last hsettled) hend
  · obtain rfl : last' = last := by simpa [hinit] using hsettled
    refine ⟨init.filter isOther, ?_, ?_⟩
    · rw [others, ← filter_isOther_withoutRepeats [], ← settled, hinit, List.filter_append, List.filter_cons_of_pos hother,
        List.filter_nil]
    · rw [pieces, if_neg hmissing, hended, List.filter_append, List.filter_append, filter_isOther_map_line missing_subset,
        List.filter_cons_of_pos (by rw [isOther_snoc]; exact hother), List.filter_nil, List.append_nil]

/-- A lone `\r` before an empty line costs a line; before an appended key it gets an end it does not need. -/
theorem Upserted.apart {file : Option File} (h : Upserted (readBytes file) (upsertComposeEnv file)) :
    Apart (readBytes file) := by
  have hwithin : (withoutRepeats [] (lines (readBytes file))).IsChain fun line next => LoneReturn line → next ≠ [10] := by
    rw [List.isChain_iff_forall_rel_of_append_cons_cons]
    rintro line next before after heq ⟨hother, hreturn⟩ rfl
    obtain ⟨before', after', hpieces⟩ := exists_pieces hother heq
    have hfewer : (lines (pieces (readBytes file)).flatten).length < (pieces (readBytes file)).length := by
      rw [hpieces]
      refine length_splitlines_flatten_lt (by decide) ?_ hreturn
      rw [← hpieces]
      exact fun _ => isLine_pieces
    rw [← content_upsert, h.length_eq, length_pieces] at hfewer
    exact absurd hfewer (Nat.lt_irrefl _)
  refine ⟨hwithin, ?_⟩
  rintro ⟨t, ht, hnone⟩ line hline ⟨hother, hreturn⟩
  have hmissing : missing (readBytes file) ≠ [] := List.ne_nil_of_mem ((mem_missing ht).2 (by simpa using hnone))
  obtain ⟨init, hothers, hnew⟩ := filter_isOther_pieces_of_missing hmissing hline hother (by rw [hreturn]; decide)
  have hkept := h.kept
  rw [others, content_upsert, lines_pieces hwithin, hnew, hothers] at hkept
  rcases hkept with hsame | ⟨init', last', hlast, hended, -⟩
  · have hlength := List.singleton_inj.1 (List.append_inj' hsame rfl).2
    simp at hlength
  · obtain rfl : line = last' := List.singleton_inj.1 (List.append_inj' hlast rfl).2
    exact hended (.inr hreturn)

/-- The file after it is as it should be if and only if no lone `\r` comes to stand before a `\n`. -/
theorem upsert_keeps_iff (file : Option File) :
    Upserted (readBytes file) (upsertComposeEnv file) ↔ Apart (readBytes file) :=
  ⟨Upserted.apart, Apart.upserted⟩

/-- `X\r`, one line with its end, gets a second end. -/
theorem carriageReturn_loses : ¬ Upserted (ascii "X\r") (upsertComposeEnv (some ⟨ascii "X\r", 0o600⟩)) := by
  intro h
  have hapart : Apart (ascii "X\r") := @Upserted.apart (some ⟨ascii "X\r", 0o600⟩) h
  exact hapart.atEnd ⟨overlay, by decide, by decide⟩ (ascii "X\r") (by decide) ⟨by decide, by decide⟩

end Panella.EnvFile
