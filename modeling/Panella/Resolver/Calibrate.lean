import Panella.Lib.Decimal
import Panella.Resolver.Bind

/-!
# Fitting a calibration slice (`panella/resolver/calibrate.py`)

| here | there |
| --- | --- |
| `six`, `binIndex` | `_six`, `_bin_index` (:24-29) |
| `mergeStep`, `mergeLoop` | the `while` loop of `fit_slice` (:50-63) |
| `calibrateGroups` | its `for` loop over the groups (:67-76) |
| `fitSlice` | `fit_slice` (:32-81) |
| `validateSlice` | `_validate_slice` (:161-177) |

Floats are the rationals they stand for. `float(d)` of a decimal of six places is the float nearest to it, and as none but
such floats are compared with each other here, it is kept as that decimal.
-/

namespace Panella.Resolver

open Decimal SortedSet

/-- One row of evidence: `str(row["probe_uid"])`, `row["raw_confidence"]`, `row["correct"]`. -/
structure Observation where
  probeUid : String
  rawConfidence : ℚ
  correct : Bool

def six (value : ℚ) : ℚ := quantize 6 value

def binIndex (confidence : ℚ) : Nat := min 9 ⌊confidence * 10⌋.toNat

/-- An interval of bins, and its rows. -/
structure Group where
  start : Nat
  stop : Nat
  rows : List Observation

/-- The rows of one bin, in their order. -/
def bucket (rows : List Observation) (i : Nat) : List Observation := rows.filter fun row => binIndex row.rawConfidence = i

/-- `groups[left : right + 1] = [(a, b, a_rows + b_rows)]`, for neighbours. -/
def mergeAt (groups : List Group) (left : Nat) : List Group :=
  groups.take left ++
    match groups.drop left with
    | a :: b :: post => ⟨a.start, b.stop, a.rows ++ b.rows⟩ :: post
    | rest => rest

/-- One round: the first group of fewer than five rows goes to its right neighbour, the last one to its left. -/
def mergeStep (groups : List Group) : Option (List Group) :=
  (groups.findIdx? fun group => group.rows.length < 5).map fun index =>
    let neighbor := if index + 1 < groups.length then index + 1 else index - 1
    mergeAt groups (min index neighbor)

/-- `while len(groups) > 1`, for at most as many rounds. -/
def mergeLoop : Nat → List Group → List Group
  | 0, groups => groups
  | rounds + 1, groups =>
    if groups.length ≤ 1 then groups
    else
      match mergeStep groups with
      | none => groups
      | some groups' => mergeLoop rounds groups'

/-- The ten bins, each a group of its own. -/
def binGroups (rows : List Observation) : List Group := (List.range 10).map fun i => ⟨i, i + 1, bucket rows i⟩

/-- The groups that are left when nothing more is merged; every round takes one away. -/
def mergedGroups (rows : List Observation) : List Group := mergeLoop 10 (binGroups rows)

/-- The groups, each with the value it is calibrated to; an empty one cannot be divided by. -/
def calibrateGroups : ℚ → List Group → Except ResolverErr (List (Group × ℚ))
  | _, [] => .ok []
  | running, group :: groups =>
    if group.rows.length = 0 then .error (.runtimeError "decimal.DivisionUndefined")
    else
      let ratio := quotient (group.rows.countP (·.correct)) group.rows.length
      let calibrated := quantize 6 (max running ratio)
      (calibrateGroups calibrated groups).map ((group, calibrated) :: ·)

/-- `row_calibrated`, the later entries first. -/
def rowCalibrated (fitted : List (Group × ℚ)) : List (String × ℚ) :=
  (fitted.flatMap fun g => g.1.rows.map fun row => (row.probeUid, g.2)).reverse

def mappingRow (g : Group × ℚ) : CalibrationRow :=
  ⟨six (quotient g.1.start 10), six (quotient g.1.stop 10), g.2⟩

/-- The lowest rung above every wrong row, and the lowest of all if no row is wrong. -/
def pickTau (wrong rungs : List ℚ) : Option ℚ :=
  match wrong.max? with
  | none => rungs.head?
  | some worst => rungs.find? fun value => worst < value

/-- `fit_slice`, from the groups on. -/
def sliceOf (rows : List Observation) (fitted : List (Group × ℚ)) : Option CalibrationSlice :=
  let wrong := (rows.filter fun row => !row.correct).filterMap fun row => (rowCalibrated fitted).lookup row.probeUid
  let rungs := sortedSet ((fitted.map mappingRow).map (·.calibrated))
  (pickTau wrong rungs).map fun tau =>
    { nSamples := ((rows.map (·.probeUid)).dedup.length : Nat)
      perBin := (List.range 10).map fun i => ((bucket rows i).length : Int)
      mapping := fitted.map mappingRow
      tau := six tau }

def ByUid (x y : Observation) : Prop := x.probeUid ≤ y.probeUid

instance : DecidableRel ByUid := fun x y => inferInstanceAs (Decidable (x.probeUid ≤ y.probeUid))

/-- `sorted(…, key=lambda row: str(row["probe_uid"]))`. -/
def sortedRows (observations : List Observation) : List Observation := observations.insertionSort ByUid

def fitSlice (observations : List Observation) : Except ResolverErr (Option CalibrationSlice) :=
  let rows := sortedRows observations
  if rows.isEmpty then .ok none
  else if rows.any fun row => !(0 ≤ row.rawConfidence && row.rawConfidence ≤ 1) then
    .error (.valueError "invalid calibration observation")
  else (calibrateGroups 0 (mergedGroups rows)).map (sliceOf rows)

/-- The rows of a mapping, from where the one before ended and what it was calibrated to. -/
def monotoneMapping : ℚ → ℚ → List CalibrationRow → Option ℚ
  | previousHigh, _, [] => some previousHigh
  | previousHigh, previousCalibrated, row :: rows =>
    if 0 ≤ row.low ∧ row.low < row.high ∧ row.high ≤ 1 ∧ row.low = previousHigh ∧ previousCalibrated ≤ row.calibrated then
      monotoneMapping row.high row.calibrated rows
    else none

def validateSlice (name : String) (value : CalibrationSlice) : Except ResolverErr Unit :=
  if value.nSamples < 0 ∨ ¬ (value.perBin.length = 0 ∨ value.perBin.length = 10) then
    .error (.valueError (name ++ ": invalid per_bin"))
  else if value.nSamples = 0 then
    if value.perBin ≠ [] ∨ value.mapping.length ≠ 0 ∨ value.tau ≠ 0 then
      .error (.valueError (name ++ ": invalid shutdown slice"))
    else .ok ()
  else if value.perBin.sum ≠ value.nSamples ∨ value.mapping.length = 0 then
    .error (.valueError (name ++ ": counts do not match mapping"))
  else
    match monotoneMapping 0 (-1) value.mapping with
    | none => .error (.valueError (name ++ ": non-monotone mapping"))
    | some previousHigh =>
      if previousHigh ≠ 1 ∨ value.tau ∉ value.mapping.map (·.calibrated) then
        .error (.valueError (name ++ ": invalid tau"))
      else .ok ()

end Panella.Resolver
