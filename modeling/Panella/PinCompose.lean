import Mathlib.Data.List.DropRight
import Panella.EnvFile
import Panella.Lib.Sha256
import Panella.Lib.Utf8Cut

/-!
# Pinning a release's compose file (`scripts/release/pin_compose.py:22-107`)

The file is read line by line, without a YAML parser. Three variables say where the loop takes a line to stand: whether the
services have begun, which service was named last, and whether a `build:` block is being left out (`Control`). `Control.next`,
`action` and `credit` are what one line does to them, to the output and to the keys that were seen (`scanLine_eq`); the whole
function is its lines one after the other (`transformCompose_eq`).
-/

namespace Panella.PinCompose

open EnvFile Utf8Cut

/-- `_TARGET_SERVICES`. -/
def targetServices : List String := ["panella", "panella-http"]

/-- `_EXPECTED_PROPERTIES`. -/
def expectedProperties : List String := ["image", "pull_policy", "build"]

/-- `line.strip()`. -/
def strip (line : Bytes) : Bytes := (line.dropWhile isSpace).rdropWhile isSpace

/-- `_indentation`. -/
def indentation (line : Bytes) : Nat := line.length - (line.dropWhile (· = 32)).length

/-- `_line_ending`. -/
def lineEnding (line : Bytes) : Bytes :=
  if [13, 10] <:+ line then [13, 10] else if [10] <:+ line then [10] else []

inductive TransformError
  | unicodeDecode
  | valueError (message : String)
deriving DecidableEq, Repr

/-- Where the loop takes the next line to stand. -/
structure Control where
  inServices : Bool
  currentService : Option String
  buildBlockIndent : Option Nat
deriving DecidableEq, Repr

structure Scan where
  control : Control
  /-- The keys of `seen` whose value is true. -/
  seen : List (String × String)
  output : List Bytes

/-- `_missing_properties`. -/
def missingProperties (seen : List (String × String)) : List String :=
  targetServices.flatMap fun service =>
    (expectedProperties.filter fun property => !seen.contains (service, property)).map fun property => service ++ "." ++ property

/-- The dictionary `refs`. -/
def refOf (storeRef appRef : String) (service : String) : Option Bytes :=
  if service = "panella" then some (Sha256.utf8 storeRef)
  else if service = "panella-http" then some (Sha256.utf8 appRef)
  else none

/-- What a line says of the section and the service (:80-86). -/
def heading (c : Control) (indent : Nat) (stripped : Bytes) : Except TransformError Control :=
  if !c.inServices then
    .ok (if indent = 0 ∧ stripped = ascii "services:" then { c with inServices := true } else c)
  else if stripped ≠ [] ∧ indent = 0 then .ok { c with inServices := false, currentService := none }
  else if indent = 2 ∧ [58] <:+ stripped then
    match decode stripped.dropLast with
    | some name => .ok { c with currentService := some name }
    | none => .error .unicodeDecode
  else .ok c

section
variable (refs : String → Option Bytes)

/-- `refs[current_service]`, where the line is one of its keys: the condition of :88. -/
def refAt (c : Control) (indent : Nat) : Option (String × Bytes) :=
  if indent = 4 then c.currentService.bind fun service => (refs service).map fun ref => (service, ref) else none

/-- What becomes of a line, its heading read (:88-103). -/
def placeLine (s : Scan) (indent : Nat) (stripped line : Bytes) : Scan :=
  match refAt refs s.control indent with
  | none => { s with output := s.output ++ [line] }
  | some (service, ref) =>
    if ascii "image:" <+: stripped then
      { s with
        output := s.output ++ [List.replicate indent 32 ++ ascii "image: " ++ ref ++ lineEnding line]
        seen := (service, "image") :: s.seen }
    else if ascii "pull_policy:" <+: stripped then { s with seen := (service, "pull_policy") :: s.seen }
    else if ascii "build:" <+: stripped then
      { s with
        seen := (service, "build") :: s.seen
        control := { s.control with buildBlockIndent := some indent } }
    else { s with output := s.output ++ [line] }

/-- A line outside a build block. -/
def scanOpen (s : Scan) (line : Bytes) : Except TransformError Scan :=
  (heading s.control (indentation line) (strip line)).map fun c =>
    placeLine refs { s with control := c } (indentation line) (strip line) line

/-- One line of the loop (:57-105). -/
def scanLine (s : Scan) (line : Bytes) : Except TransformError Scan :=
  match s.control.buildBlockIndent with
  | none => scanOpen refs s line
  | some block =>
    let blockStripped := strip line
    if blockStripped = [] then .ok s
    else if [35] <+: blockStripped then
      if block < indentation line then .ok s else .ok { s with output := s.output ++ [line] }
    else if block < indentation line then .ok s
    else scanOpen refs { s with control := { s.control with buildBlockIndent := none } } line

end

def start : Control := ⟨false, none, none⟩

/-- `transform_compose`. -/
def transformCompose (compose : Bytes) (storeRef appRef : String) : Except TransformError Bytes :=
  match (lines compose).foldlM (scanLine (refOf storeRef appRef)) ⟨start, [], []⟩ with
  | .error e => .error e
  | .ok s =>
    match missingProperties s.seen with
    | [] => .ok s.output.flatten
    | missing => .error (.valueError ("compose transform did not see expected keys: " ++ ", ".intercalate missing))

/-! ## One line -/

/-- What becomes of a line. -/
inductive Action
  | keep
  | drop
  | pin (service : String)
deriving DecidableEq, Repr

/-- The pinned service the loop takes a line to stand in. -/
def Control.target (c : Control) : Option String := c.currentService.filter fun s => targetServices.contains s

/-- The key a line at indent 4 starts with. -/
def entryOf (line : Bytes) : Option String :=
  if indentation line = 4 then expectedProperties.find? fun property => ascii (property ++ ":") <+: strip line else none

/-- The line is passed over as part of a build block, or as a comment there. -/
def Control.inBlock (c : Control) (line : Bytes) : Bool :=
  c.buildBlockIndent.any fun block => strip line = [] || [35] <+: strip line || block < indentation line

/-- The variables where the line's own keys are looked for. -/
def Control.headed (c : Control) (line : Bytes) : Control :=
  let c := { c with buildBlockIndent := none }
  if !c.inServices then
    if indentation line = 0 ∧ strip line = ascii "services:" then { c with inServices := true } else c
  else if strip line ≠ [] ∧ indentation line = 0 then { c with inServices := false, currentService := none }
  else if indentation line = 2 ∧ [58] <:+ strip line then { c with currentService := decode (strip line).dropLast }
  else c

/-- The key of a pinned service that the loop takes a line to be. -/
def Control.credit (c : Control) (line : Bytes) : Option (String × String) :=
  if c.inBlock line then none
  else (c.headed line).target.bind fun service => (entryOf line).map fun property => (service, property)

def Control.next (c : Control) (line : Bytes) : Control :=
  if c.inBlock line then c
  else if (c.credit line).any (·.2 = "build") then { c.headed line with buildBlockIndent := some 4 }
  else c.headed line

def Control.action (c : Control) (line : Bytes) : Action :=
  if c.inBlock line then
    if strip line ≠ [] ∧ [35] <+: strip line ∧ ¬ c.buildBlockIndent.any (· < indentation line) then .keep else .drop
  else
    match c.credit line with
    | none => .keep
    | some (service, property) => if property = "image" then .pin service else .drop

/-- The bytes that are written for a line. -/
def chunk (storeRef appRef : String) (line : Bytes) : Action → List Bytes
  | .keep => [line]
  | .drop => []
  | .pin service =>
    [List.replicate 4 32 ++ ascii "image: " ++ (refOf storeRef appRef service).getD [] ++ lineEnding line]

/-- The name of a line that ends in `:` can be decoded. -/
def Decodes (line : Bytes) : Prop := [58] <:+ strip line → ∃ name, decode (strip line).dropLast = some name

variable {storeRef appRef : String} {c : Control} {s : Scan} {line : Bytes}

theorem heading_eq (h : Decodes line) :
    heading { c with buildBlockIndent := none } (indentation line) (strip line) = .ok (c.headed line) := by
  unfold heading Control.headed
  dsimp only
  split
  · rfl
  · split
    · rfl
    · split
      · next hname =>
        obtain ⟨name, hdecode⟩ := h hname.2
        rw [hdecode]
      · rfl

theorem refAt_eq (indent : Nat) : refAt (refOf storeRef appRef) c indent =
    if indent = 4 then c.target.map fun service => (service, (refOf storeRef appRef service).getD []) else none := by
  unfold refAt Control.target
  split
  · cases c.currentService with
    | none => rfl
    | some service =>
      by_cases hstore : service = "panella"
      · subst hstore
        rfl
      · by_cases happ : service = "panella-http"
        · subst happ
          rfl
        · have hother : service ∉ targetServices := by simp [targetServices, hstore, happ]
          simp [refOf, hstore, happ, hother, Option.filter]
  · rfl

theorem entryOf_at {property : String} (h : entryOf line = some property) : indentation line = 4 := by
  unfold entryOf at h
  split at h
  · next hindent => exact hindent
  · cases h

/-- The three tests of a key, as one. -/
theorem placeLine_eq (seen : List (String × String)) (output : List Bytes) :
    placeLine (refOf storeRef appRef) ⟨c, seen, output⟩ (indentation line) (strip line) line =
      match c.target, entryOf line with
      | some service, some property =>
        ⟨if property = "build" then { c with buildBlockIndent := some 4 } else c, (service, property) :: seen,
          output ++ chunk storeRef appRef line (if property = "image" then .pin service else .drop)⟩
      | _, _ => ⟨c, seen, output ++ [line]⟩ := by
  unfold placeLine
  rw [refAt_eq]
  by_cases hindent : indentation line = 4
  · rw [if_pos hindent]
    cases htarget : c.target with
    | none => rfl
    | some service =>
      have hentry : entryOf line = expectedProperties.find? fun property => ascii (property ++ ":") <+: strip line :=
        if_pos hindent
      have himage : ascii ("image" ++ ":") = ascii "image:" := rfl
      have hpull : ascii ("pull_policy" ++ ":") = ascii "pull_policy:" := rfl
      have hbuild : ascii ("build" ++ ":") = ascii "build:" := rfl
      rw [hentry]
      simp only [Option.map_some, expectedProperties, List.find?_cons, List.find?_nil, himage, hpull, hbuild]
      by_cases h1 : ascii "image:" <+: strip line
      · simp [h1, chunk, hindent]
      · by_cases h2 : ascii "pull_policy:" <+: strip line
        · simp [h1, h2, chunk]
        · by_cases h3 : ascii "build:" <+: strip line
          · simp [h1, h2, h3, chunk, hindent]
          · simp [h1, h2, h3]
  · have hentry : entryOf line = none := if_neg hindent
    rw [if_neg hindent, hentry]
    cases c.target <;> rfl

/-- **What a line of the file does.** -/
theorem scanLine_eq (h : Decodes line) : scanLine (refOf storeRef appRef) s line =
    .ok ⟨s.control.next line, (s.control.credit line).toList ++ s.seen,
      s.output ++ chunk storeRef appRef line (s.control.action line)⟩ := by
  obtain ⟨c, seen, output⟩ := s
  have hopen : c.inBlock line = false →
      scanOpen (refOf storeRef appRef) ⟨{ c with buildBlockIndent := none }, seen, output⟩ line =
        .ok ⟨c.next line, (c.credit line).toList ++ seen, output ++ chunk storeRef appRef line (c.action line)⟩ := by
    intro hout
    have hcredit : c.credit line = (c.headed line).target.bind fun service =>
        (entryOf line).map fun property => (service, property) := by
      rw [Control.credit, hout, if_neg Bool.false_ne_true]
    unfold scanOpen
    rw [heading_eq h, Except.map, placeLine_eq, Control.next, Control.action, hout, if_neg Bool.false_ne_true,
      if_neg Bool.false_ne_true, hcredit]
    cases (c.headed line).target with
    | none => rfl
    | some service =>
      cases entryOf line with
      | none => rfl
      | some property => simp
  unfold scanLine
  dsimp only
  cases hblock : c.buildBlockIndent with
  | none =>
    have hout : c.inBlock line = false := by rw [Control.inBlock, hblock, Option.any_none]
    have hself : { c with buildBlockIndent := none } = c := by rw [← hblock]
    have hrun := hopen hout
    rw [hself] at hrun
    exact hrun
  | some block =>
    have hin : c.inBlock line = (strip line = [] || [35] <+: strip line || block < indentation line) := by
      rw [Control.inBlock, hblock, Option.any_some]
    dsimp only
    by_cases hblank : strip line = []
    · simp [hblank, hin, Control.next, Control.action, Control.credit, chunk]
    · by_cases hcomment : [35] <+: strip line
      · by_cases hdeep : block < indentation line
        · simp [hblank, hcomment, hdeep, hin, hblock, Control.next, Control.action, Control.credit, chunk]
        · simp [hblank, hcomment, hdeep, hin, hblock, Control.next, Control.action, Control.credit, chunk]
      · by_cases hdeep : block < indentation line
        · simp [hblank, hcomment, hdeep, hin, Control.next, Control.action, Control.credit, chunk]
        · rw [if_neg hblank, if_neg hcomment, if_neg hdeep]
          exact hopen (by simp [hin, hblank, hcomment, hdeep])

/-! ## The lines of a file -/

/-- What is written for the lines from here on. -/
def chunks (storeRef appRef : String) : Control → List Bytes → List Bytes
  | _, [] => []
  | c, line :: rest => chunk storeRef appRef line (c.action line) ++ chunks storeRef appRef (c.next line) rest

/-- The keys that the lines from here on are taken for. -/
def credits : Control → List Bytes → List (String × String)
  | _, [] => []
  | c, line :: rest => (c.credit line).toList ++ credits (c.next line) rest

theorem scan_eq (storeRef appRef : String) {ls : List Bytes} (h : ∀ line ∈ ls, Decodes line) (s : Scan) : ∃ c seen,
    ls.foldlM (scanLine (refOf storeRef appRef)) s = .ok ⟨c, seen, s.output ++ chunks storeRef appRef s.control ls⟩ ∧
      ∀ key, key ∈ seen ↔ key ∈ credits s.control ls ∨ key ∈ s.seen := by
  induction ls generalizing s with
  | nil => exact ⟨s.control, s.seen, by simp [chunks, pure, Except.pure], by simp [credits]⟩
  | cons line ls ih =>
    obtain ⟨hline, hrest⟩ := List.forall_mem_cons.1 h
    obtain ⟨c, seen, hrun, hseen⟩ := ih hrest ⟨s.control.next line, (s.control.credit line).toList ++ s.seen,
      s.output ++ chunk storeRef appRef line (s.control.action line)⟩
    refine ⟨c, seen, ?_, fun key => ?_⟩
    · rw [List.foldlM_cons, scanLine_eq hline]
      exact hrun.trans (by rw [chunks, List.append_assoc])
    · rw [hseen, credits, List.mem_append, List.mem_append]
      tauto

/-- All six are there. -/
def AllSix (keys : List (String × String)) : Prop :=
  ∀ service ∈ targetServices, ∀ property ∈ expectedProperties, (service, property) ∈ keys

theorem missingProperties_nil {keys : List (String × String)} : missingProperties keys = [] ↔ AllSix keys := by
  simp [missingProperties, AllSix, List.flatMap_eq_nil_iff, List.filter_eq_nil_iff]

instance (keys : List (String × String)) : Decidable (AllSix keys) := decidable_of_iff _ missingProperties_nil

/-- **The function, line by line.** -/
theorem transformCompose_eq (storeRef appRef : String) {compose : Bytes} (h : ∀ line ∈ lines compose, Decodes line) :
    (AllSix (credits start (lines compose)) ∧ transformCompose compose storeRef appRef =
        .ok (chunks storeRef appRef start (lines compose)).flatten) ∨
      (¬ AllSix (credits start (lines compose)) ∧
        ∃ message, transformCompose compose storeRef appRef = .error (.valueError message)) := by
  obtain ⟨c, seen, hrun, hseen⟩ := scan_eq storeRef appRef h ⟨start, [], []⟩
  have hsame : AllSix seen ↔ AllSix (credits start (lines compose)) := by
    simp [AllSix, hseen]
  unfold transformCompose
  rw [hrun]
  dsimp only
  cases hmissing : missingProperties seen with
  | nil => exact .inl ⟨hsame.1 (missingProperties_nil.1 hmissing), by simp⟩
  | cons name names =>
    refine .inr ⟨fun hall => ?_, _, rfl⟩
    have hnil := missingProperties_nil.2 (hsame.2 hall)
    rw [hmissing] at hnil
    cases hnil

end Panella.PinCompose
