import Mathlib.Algebra.Group.Int.Defs
import Panella.Lib.AsciiJson
import Panella.Outbox
import Panella.StoreProbe

/-!
# The reconciler (`panella/reconcile.py:80-161`, `memory_history.py:121-157`)

| here | there |
| --- | --- |
| `forgottenQuery` | the rows `FORGOTTEN_QUERY` takes (`reconcile.py:42-47`) |
| `detect`, `tenantFromTags` | one turn of `detect_forgotten` (:89-111), `_tenant_from_tags` (:70-77) |
| `forgottenEvents` | `forgotten_events` (`memory_history.py:121-157`) |
| `appendForgotten` | `append_history`, as `reconcile` calls it |
| `reconcile` | `reconcile` (:114-161) |

A run reads the soft-deleted rows that are still tagged active and appends a `forgotten` row for each whose drawer and
`deleted_at` are not in the history. The history keeps `deleted_at` in a JSON text; both sides compare `str(deleted_at or "")`.

Every pair has exactly one row after each run, nothing recorded is altered and a second run appends nothing (`Exact`) in every
sequence of runs where every step is `Clear`, and in no other (**`exact_iff_clear`**): the text of a `deleted_at` may be that of
another (`0` and the empty text, `zeroThenEmpty_lost`), and a row SQLite cannot store is dropped and counted as emitted.
-/

namespace Panella.Reconcile

open PyJson SqlLike Fallible

/-! ## Rows of the store -/

instance : DecidableEq FloatLit := fun a b => decidable_of_iff (a.text = b.text) ⟨by
  cases a
  cases b
  simp, fun h => by rw [h]⟩

/-- A value of a column. -/
inductive Column
  | null
  | int (n : Int64)
  | real (x : FloatLit)
  | text (s : String)
deriving DecidableEq

/-- The value as Python has it. -/
def Column.toJson : Column → Json
  | .null => .null
  | .int n => .int n.toInt
  | .real x => .float x
  | .text s => .str s

/-- The column a value was. -/
def Column.ofJson : Json → Option Column
  | .null => some .null
  | .int n => some (.int (Int64.ofInt n))
  | .float x => some (.real x)
  | .str s => some (.text s)
  | _ => none

/-- A row of `memories`, as the query selects it. -/
structure StoredRow where
  contentHash : Column
  tags : Column
  deletedAt : Column
  metadata : Column
  memoryType : Column

/-- `FORGOTTEN_QUERY`: a number is no text that has the tag in it. -/
def forgottenQuery (r : StoredRow) : Bool :=
  r.deletedAt ≠ .null &&
    match r.tags with
    | .text tags => like "%,status:active,%".toList (normTags tags)
    | _ => false

/-- `_tenant_from_tags`. -/
def tenantFromTags : Column → Json
  | .text tags =>
    match ((tags.toList.filter (· ≠ ' ')).splitOn ',').find? fun tag => "tenant:".toList <+: tag with
    | some tag => if tag.drop 7 = [] then .null else .str (String.ofList (tag.drop 7))
    | none => .null
  | _ => .null

/-- The dict a reading of the metadata gives, or an empty one. -/
def objectOf : Except JsonError Json → Dict
  | .ok (.obj kvs) => kvs
  | _ => []

/-- `json.loads(metadata)`, a lone surrogate once as U+FFFD and once as U+FFFC: the texts that have one are those that differ. -/
def readMetadata (lim : Limits) : Column → Except JsonError (Dict × Dict)
  | .text s =>
    if s = "" then .ok ([], [])
    else
      match loadsMended lim s with
      | .error .recursion => .error .recursion
      | outcome => .ok (objectOf outcome, objectOf (loads lim (String.ofList (mendAs 'c' s.toList))))
  | _ => .ok ([], [])

/-- A text without a lone surrogate, read twice; other values are written without their texts. -/
def encodable : Json → Json → Bool
  | .str s, .str s' => s = s'
  | _, _ => true

/-- What `detect_forgotten` keeps of a row. -/
structure Divergent where
  drawerId : String
  tenantId : String
  deletedAt : Column
  memoryType : Column
  wing : Json
  room : Json
  /-- The tenant, the wing and the room can be encoded in UTF-8. -/
  encodes : Bool

section
variable (d : Deployment)

/-- One turn of `detect_forgotten`; a metadata text that nests too deep raises. -/
def detect (r : StoredRow) : Except JsonError Divergent := do
  let (meta', again) ← readMetadata d.limits r.metadata
  .ok
    { drawerId := d.str r.contentHash.toJson
      tenantId := d.str (((Dict.get meta' "tenant_id").orElse (tenantFromTags r.tags)).orElse (.str d.defaultTenantId))
      deletedAt := r.deletedAt
      memoryType := r.memoryType
      wing := Dict.get meta' "wing"
      room := Dict.get meta' "room"
      encodes := ["tenant_id", "wing", "room"].all fun k => encodable (Dict.get meta' k) (Dict.get again k) }

def detectForgotten (rows : List StoredRow) : Except JsonError (List Divergent) := (rows.filter forgottenQuery).mapM (detect d)

/-! ## The history -/

/-- `str(deleted_at or "")`. -/
def deletedText (v : Json) : String := d.str (v.orElse (.str ""))

/-- The event a `forgotten` row stands for. -/
def eventOf (h : HistoryRow) : Except JsonError (String × String) :=
  match h.detailsJson with
  | none | some "" => .ok (h.drawerId, "")
  | some details =>
    match loads d.limits details with
    | .error .recursion => .error .recursion
    | .ok (.obj kvs) => .ok (h.drawerId, deletedText d (Dict.get kvs "deleted_at"))
    | _ => .ok (h.drawerId, "")

/-- `forgotten_events`: what raises on the way makes the set empty. -/
def forgottenEvents (history : List HistoryRow) : List (String × String) :=
  match (history.filter fun h => h.op = "forgotten").mapM (eventOf d) with
  | .ok events => events
  | .error _ => []

/-- `json.dumps({"deleted_at": …, "memory_type": …}, sort_keys=True)`. -/
def detailsText (x : Divergent) : String :=
  String.ofList (pairText "deleted_at" x.deletedAt.toJson "memory_type" x.memoryType.toJson)

/-- A value bound to a `TEXT` column: what it is stored as, or none where `sqlite3` raises. `realText` is the text of a float. -/
def bound (realText : FloatLit → Option String) : Json → Option (Option String)
  | .null => some none
  | .bool b => some (some (if b then "1" else "0"))
  | .int n => if -2 ^ 63 ≤ n ∧ n < 2 ^ 63 then some (some (String.ofList (intText n))) else none
  | .float x => some (realText x)
  | .str s => some (some s)
  | .arr _ | .obj _ => none

variable (realText : FloatLit → Option String)

/-- The row `reconcile` has appended, where it can be stored. -/
def forgottenRow (x : Divergent) : Option HistoryRow :=
  match x.encodes, bound realText x.wing, bound realText x.room with
  | true, some wing, some room =>
    some
      { op := "forgotten", drawerId := x.drawerId, tenantId := x.tenantId, principalId := none, wing, room
        reason := some "upstream forgetting soft-deleted a status:active memory (never-lose violation)"
        detailsJson := some (detailsText x) }
  | _, _, _ => none

/-- `append_history`: what raises is logged, and the memory of it ends there. -/
def appendForgotten (o : Outbox) (x : Divergent) : Outbox :=
  match forgottenRow realText x with
  | some row => o.appendHistory row
  | none => o

/-- What `reconcile` returns. -/
structure Summary where
  divergentTotal : Nat
  alreadyRecorded : Nat
  fresh : Nat
  emitted : Nat
  dryRun : Bool

/-- `reconcile`, with what it leaves in the outbox. -/
def reconcile (rows : List StoredRow) (dryRun : Bool) (o : Outbox) : Except JsonError (Summary × Outbox) := do
  let divergent ← detectForgotten d rows
  let already := forgottenEvents d o.history
  let fresh := divergent.filter fun x => (x.drawerId, deletedText d x.deletedAt.toJson) ∉ already
  .ok
    (⟨divergent.length, divergent.length - fresh.length, fresh.length, if dryRun then 0 else fresh.length, dryRun⟩,
      if dryRun then o else fresh.foldl (appendForgotten realText) o)

/-! ## What is asked of a run -/

/-- `str(content_hash)`. -/
def StoredRow.drawer (r : StoredRow) : String := d.str r.contentHash.toJson

/-- The `deleted_at` a row of the history holds. -/
def recordedAt (h : HistoryRow) : Option Column :=
  match loads d.limits (h.detailsJson.getD "") with
  | .ok (.obj kvs) => Column.ofJson (Dict.get kvs "deleted_at")
  | _ => none

/-- The row records this forgetting of the drawer. -/
def Records (drawer : String) (deletedAt : Column) (h : HistoryRow) : Bool :=
  h.op = "forgotten" && h.drawerId = drawer && recordedAt d h = some deletedAt

/-- How often the forgetting is recorded. -/
def recorded (drawer : String) (deletedAt : Column) (o : Outbox) : Nat := o.history.countP (Records d drawer deletedAt)

/-- A run that appends: every forgetting of the snapshot is then recorded once, another run appends nothing, and the rows recorded
before are as they were. -/
def Exact (rows : List StoredRow) (o : Outbox) : Prop :=
  ∃ summary o', reconcile d realText rows false o = .ok (summary, o') ∧
    (∀ r ∈ rows, forgottenQuery r → recorded d (r.drawer d) r.deletedAt o' = 1) ∧
    (∃ summary', reconcile d realText rows false o' = .ok (summary', o') ∧ summary'.emitted = 0) ∧
    o.history <+: o'.history

/-- The event is in the history, as the reconciler looks for it. -/
def known (o : Outbox) (x : Divergent) : Prop := (x.drawerId, deletedText d x.deletedAt.toJson) ∈ forgottenEvents d o.history

instance (o : Outbox) (x : Divergent) : Decidable (known d o x) := inferInstanceAs (Decidable (_ ∈ _))

/-- The rows of a snapshot that record the forgetting of this one and can be stored. -/
def storable (divergent : List Divergent) (x : Divergent) : Nat :=
  divergent.countP fun y => y.drawerId = x.drawerId ∧ y.deletedAt = x.deletedAt ∧ (forgottenRow realText y).isSome

/-- The snapshot is read, a forgetting whose event is in the history is recorded as it is, and of one that is not exactly one row
of the snapshot can be stored. -/
def Clear (rows : List StoredRow) (o : Outbox) : Prop :=
  ∃ divergent, detectForgotten d rows = .ok divergent ∧ ∀ x ∈ divergent,
    (known d o x → 0 < recorded d x.drawerId x.deletedAt o) ∧ (¬ known d o x → storable realText divergent x = 1)

/-- What runs leave; one that raises has written nothing. -/
def afterRuns (snapshots : List (List StoredRow)) (o : Outbox) : Outbox :=
  snapshots.foldl (fun o rows => match reconcile d realText rows false o with | .ok (_, o') => o' | .error _ => o) o

end

/-- The query takes the soft-deleted rows one of whose tags is `status:active`, in some case. -/
theorem forgottenQuery_iff {r : StoredRow} {tags : String} (h : r.tags = .text tags) :
    forgottenQuery r = true ↔ r.deletedAt ≠ .null ∧ NearTag "status:active" tags := by
  rw [forgottenQuery, h, Bool.and_eq_true, like_status_iff, decide_eq_true_eq]

/-! ## Writing and reading back -/

section
variable {d : Deployment} {realText : FloatLit → Option String}

theorem ofJson_toJson (c : Column) : Column.ofJson c.toJson = some c := by
  cases c <;> simp [Column.toJson, Column.ofJson]

theorem isScalar_toJson (c : Column) : IsScalar c.toJson := by cases c <;> rfl

/-- An integer of the store has at most 19 digits. -/
theorem intDigits_toJson (c : Column) : intDigits c.toJson ≤ 19 := by
  cases c with
  | int n =>
    have hlt := n.toInt_lt
    have hle := n.le_toInt
    rw [Column.toJson, intDigits, Nat.length_toDigits_le_iff (by decide) (by decide)]
    omega
  | _ => exact Nat.zero_le _

variable (hlim : 19 ≤ d.limits.digits ∧ 0 < d.limits.nesting)
include hlim

theorem loads_details (x : Divergent) :
    loads d.limits (detailsText x) = .ok (.obj [("deleted_at", x.deletedAt.toJson), ("memory_type", x.memoryType.toJson)]) :=
  loads_pairText (by decide) (isScalar_toJson _) (isScalar_toJson _) ((intDigits_toJson _).trans hlim.1)
    ((intDigits_toJson _).trans hlim.1) hlim.2

/-- **A row appended** reads back as the event it was appended for. -/
theorem forgottenRow_spec {x : Divergent} {row : HistoryRow} (h : forgottenRow realText x = some row) :
    row.op = "forgotten" ∧ row.drawerId = x.drawerId ∧ recordedAt d row = some x.deletedAt ∧
      eventOf d row = .ok (x.drawerId, deletedText d x.deletedAt.toJson) := by
  unfold forgottenRow at h
  split at h
  · cases h
    refine ⟨rfl, rfl, ?_, ?_⟩
    · rw [recordedAt, Option.getD_some, loads_details hlim]
      exact ofJson_toJson _
    · have hne : detailsText x ≠ "" := by simp [detailsText, pairText]
      unfold eventOf
      split
      · rename_i hdetails
        cases hdetails
      · rename_i hdetails
        exact absurd (Option.some.inj hdetails) hne
      · rename_i details _ hdetails
        obtain rfl := Option.some.inj hdetails
        rw [loads_details hlim]
        rfl
  · cases h

omit hlim in
/-- The row was appended by a run, and there is one for each forgetting. -/
structure Sound (d : Deployment) (o : Outbox) : Prop where
  rows : ∀ h ∈ o.history, h.op = "forgotten" → ∃ deletedAt, recordedAt d h = some deletedAt ∧
    eventOf d h = .ok (h.drawerId, deletedText d deletedAt.toJson)
  unique : ∀ drawer deletedAt, recorded d drawer deletedAt o ≤ 1

omit hlim

theorem recorded_pos {drawer : String} {deletedAt : Column} {o : Outbox} : 0 < recorded d drawer deletedAt o ↔
    ∃ h ∈ o.history, h.op = "forgotten" ∧ h.drawerId = drawer ∧ recordedAt d h = some deletedAt := by
  simp [recorded, List.countP_pos_iff, Records, and_assoc]

theorem mapM_of_ok {ε α β : Type} {f : α → Except ε β} {g : α → β} {xs : List α} (h : ∀ x ∈ xs, f x = .ok (g x)) :
    xs.mapM f = .ok (xs.map g) := by
  induction xs with
  | nil => rfl
  | cons x xs ih =>
    rw [List.forall_mem_cons] at h
    rw [List.mapM_cons, h.1, ok_then, ih h.2, ok_then]
    rfl

/-- An event is in the history where a row records the drawer's forgetting at a time of its text. -/
theorem Sound.mem_forgottenEvents {o : Outbox} (ho : Sound d o) {drawer text : String} :
    (drawer, text) ∈ forgottenEvents d o.history ↔
      ∃ deletedAt, 0 < recorded d drawer deletedAt o ∧ deletedText d deletedAt.toJson = text := by
  have hmap : (o.history.filter fun h => h.op = "forgotten").mapM (eventOf d) =
      .ok ((o.history.filter fun h => h.op = "forgotten").map fun h =>
        (h.drawerId, deletedText d (((recordedAt d h).getD .null).toJson))) := by
    apply mapM_of_ok
    intro h hh
    rw [List.mem_filter, decide_eq_true_eq] at hh
    obtain ⟨deletedAt, hat, hevent⟩ := ho.rows h hh.1 hh.2
    rw [hevent, hat, Option.getD_some]
  rw [forgottenEvents, hmap]
  simp only [List.mem_map, List.mem_filter, decide_eq_true_eq, Prod.mk.injEq, recorded_pos]
  constructor
  · rintro ⟨h, ⟨hh, hop⟩, rfl, rfl⟩
    obtain ⟨deletedAt, hat, -⟩ := ho.rows h hh hop
    exact ⟨deletedAt, ⟨h, hh, hop, rfl, hat⟩, by rw [hat, Option.getD_some]⟩
  · rintro ⟨deletedAt, ⟨h, hh, hop, rfl, hat⟩, rfl⟩
    exact ⟨h, ⟨hh, hop⟩, rfl, by rw [hat, Option.getD_some]⟩

theorem foldl_appendForgotten (xs : List Divergent) (o : Outbox) :
    xs.foldl (appendForgotten realText) o = { o with history := o.history ++ xs.filterMap (forgottenRow realText) } := by
  induction xs generalizing o with
  | nil => simp
  | cons x xs ih =>
    rw [List.foldl_cons, ih, appendForgotten]
    cases hrow : forgottenRow realText x with
    | none => rw [List.filterMap_cons_none hrow]
    | some row => simp [List.filterMap_cons_some hrow, Outbox.appendHistory]

/-! ## One run -/

/-- The forgettings of a snapshot that a run finds new. -/
def freshOf (d : Deployment) (divergent : List Divergent) (o : Outbox) : List Divergent :=
  divergent.filter fun x => (x.drawerId, deletedText d x.deletedAt.toJson) ∉ forgottenEvents d o.history

/-- What a run that reads its snapshot appends. -/
theorem reconcile_eq (realText : FloatLit → Option String) {rows : List StoredRow} {divergent : List Divergent}
    (h : detectForgotten d rows = .ok divergent) (o : Outbox) :
    ∃ summary, summary.emitted = (freshOf d divergent o).length ∧ reconcile d realText rows false o =
      .ok (summary, { o with history := o.history ++ (freshOf d divergent o).filterMap (forgottenRow realText) }) := by
  refine ⟨⟨divergent.length, divergent.length - (freshOf d divergent o).length, (freshOf d divergent o).length,
    (freshOf d divergent o).length, false⟩, rfl, ?_⟩
  rw [reconcile, h, ← foldl_appendForgotten]
  rfl

theorem detect_row {r : StoredRow} {x : Divergent} (h : detect d r = .ok x) :
    x.drawerId = r.drawer d ∧ x.deletedAt = r.deletedAt := by
  obtain ⟨readings, -, h⟩ := bind_ok h
  cases h
  exact ⟨rfl, rfl⟩

/-- The forgettings of a snapshot are its rows. -/
theorem detectForgotten_rows {rows : List StoredRow} {divergent : List Divergent} (h : detectForgotten d rows = .ok divergent)
    (P : String → Column → Prop) :
    (∀ r ∈ rows, forgottenQuery r → P (r.drawer d) r.deletedAt) ↔ ∀ x ∈ divergent, P x.drawerId x.deletedAt := by
  have hall := mapM_ok h
  have hrows : (∀ r ∈ rows, forgottenQuery r → P (r.drawer d) r.deletedAt) ↔
      ∀ r ∈ rows.filter forgottenQuery, P (r.drawer d) r.deletedAt := by simp [List.mem_filter]
  rw [hrows]
  clear h hrows
  generalize rows.filter forgottenQuery = selected at hall
  induction hall with
  | nil => simp
  | @cons r x rs xs hr hrest ih =>
    obtain ⟨hdrawer, hat⟩ := detect_row hr
    rw [List.forall_mem_cons, List.forall_mem_cons, hdrawer, hat]
    exact and_congr_right fun _ => ih

section
variable {divergent : List Divergent} {o : Outbox}

include hlim in
/-- A run records every storable new forgetting once more. -/
theorem recorded_run (drawer : String) (deletedAt : Column) :
    recorded d drawer deletedAt { o with history := o.history ++ (freshOf d divergent o).filterMap (forgottenRow realText) } =
      recorded d drawer deletedAt o + (freshOf d divergent o).countP fun y =>
        y.drawerId = drawer ∧ y.deletedAt = deletedAt ∧ (forgottenRow realText y).isSome := by
  rw [recorded, recorded, List.countP_append]
  congr 1
  rw [List.countP_filterMap]
  apply List.countP_congr
  intro y _
  cases hrow : forgottenRow realText y with
  | none => simp
  | some row =>
    obtain ⟨hop, hdrawer, hat, -⟩ := forgottenRow_spec hlim hrow
    simp [Records, hop, hdrawer, hat]

theorem mem_freshOf {x : Divergent} : x ∈ freshOf d divergent o ↔ x ∈ divergent ∧ ¬ known d o x := by
  simp [freshOf, known]

/-- What is recorded of a forgetting is known. -/
theorem Sound.known_of_recorded (ho : Sound d o) {x : Divergent} (h : 0 < recorded d x.drawerId x.deletedAt o) : known d o x :=
  ho.mem_forgottenEvents.2 ⟨x.deletedAt, h, rfl⟩

/-- Whether a forgetting is known depends on its drawer and its time. -/
theorem known_congr {x y : Divergent} (hdrawer : y.drawerId = x.drawerId) (hat : y.deletedAt = x.deletedAt) :
    known d o y ↔ known d o x := by
  rw [known, known, hdrawer, hat]

/-- Rows of the snapshot with the forgetting of `x` are all new, or none is. -/
theorem countP_freshOf (x : Divergent) : (freshOf d divergent o).countP (fun y =>
      y.drawerId = x.drawerId ∧ y.deletedAt = x.deletedAt ∧ (forgottenRow realText y).isSome) =
    if known d o x then 0 else storable realText divergent x := by
  rw [freshOf, List.countP_filter]
  split
  · rename_i hknown
    rw [List.countP_eq_zero]
    rintro y - hy
    simp only [Bool.and_eq_true, decide_eq_true_eq] at hy
    obtain ⟨⟨hdrawer, hat, -⟩, hnot⟩ := hy
    exact hnot ((known_congr hdrawer hat).2 hknown)
  · rename_i hnew
    apply List.countP_congr
    intro y _
    simp only [Bool.and_eq_true, decide_eq_true_eq, and_iff_left_iff_imp]
    rintro ⟨hdrawer, hat, -⟩ hknown
    exact hnew ((known_congr hdrawer hat).1 hknown)

/-- After a run a forgetting of the snapshot is recorded once exactly where the snapshot is clear about it. -/
theorem recorded_once_iff (hlim : 19 ≤ d.limits.digits ∧ 0 < d.limits.nesting) (ho : Sound d o) (x : Divergent) :
    recorded d x.drawerId x.deletedAt
        { o with history := o.history ++ (freshOf d divergent o).filterMap (forgottenRow realText) } = 1 ↔
      (known d o x → 0 < recorded d x.drawerId x.deletedAt o) ∧ (¬ known d o x → storable realText divergent x = 1) := by
  have hle := ho.unique x.drawerId x.deletedAt
  rw [recorded_run hlim, countP_freshOf]
  by_cases hknown : known d o x
  · rw [if_pos hknown]
    simp only [hknown, true_implies, not_true_eq_false, false_implies, and_true]
    omega
  · have hzero : recorded d x.drawerId x.deletedAt o = 0 := by
      by_contra hne
      exact hknown (ho.known_of_recorded (Nat.pos_of_ne_zero hne))
    rw [if_neg hknown, hzero, Nat.zero_add]
    simp [hknown]

/-- A run keeps the history sound. -/
theorem Sound.run (hlim : 19 ≤ d.limits.digits ∧ 0 < d.limits.nesting) (ho : Sound d o)
    (honce : ∀ x ∈ divergent, recorded d x.drawerId x.deletedAt
      { o with history := o.history ++ (freshOf d divergent o).filterMap (forgottenRow realText) } = 1) :
    Sound d { o with history := o.history ++ (freshOf d divergent o).filterMap (forgottenRow realText) } := by
  constructor
  · intro h hh hop
    rcases List.mem_append.1 hh with hh | hh
    · exact ho.rows h hh hop
    · obtain ⟨x, -, hrow⟩ := List.mem_filterMap.1 hh
      obtain ⟨-, hdrawer, hat, hevent⟩ := forgottenRow_spec hlim hrow
      exact ⟨x.deletedAt, hat, by rw [hevent, hdrawer]⟩
  · intro drawer deletedAt
    by_cases hin : ∃ x ∈ divergent, x.drawerId = drawer ∧ x.deletedAt = deletedAt
    · obtain ⟨x, hx, rfl, rfl⟩ := hin
      exact (honce x hx).le
    · -- the run appends nothing about another forgetting
      rw [recorded_run hlim, List.countP_eq_zero.2, Nat.add_zero]
      · exact ho.unique drawer deletedAt
      · intro y hy hmatch
        rw [decide_eq_true_eq] at hmatch
        exact hin ⟨y, (mem_freshOf.1 hy).1, hmatch.1, hmatch.2.1⟩

/-- One run is exact where its snapshot is clear, and only there. -/
theorem exact_iff (hlim : 19 ≤ d.limits.digits ∧ 0 < d.limits.nesting) (ho : Sound d o) (rows : List StoredRow) :
    Exact d realText rows o ↔ Clear d realText rows o := by
  constructor
  · rintro ⟨summary, o', hrun, honce, -, -⟩
    obtain ⟨divergent, hdetect, -⟩ := bind_ok hrun
    obtain ⟨summary', -, heq⟩ := reconcile_eq realText hdetect o
    obtain ⟨-, rfl⟩ := Prod.mk.inj (Except.ok.inj (hrun.symm.trans heq))
    refine ⟨divergent, hdetect, ?_⟩
    intro x hx
    exact (recorded_once_iff hlim ho x).1
      ((detectForgotten_rows hdetect fun drawer deletedAt => recorded d drawer deletedAt _ = 1).1 honce x hx)
  · rintro ⟨divergent, hdetect, hclear⟩
    obtain ⟨summary, -, heq⟩ := reconcile_eq realText hdetect o
    have honce : ∀ x ∈ divergent, _ := fun x hx => (recorded_once_iff hlim ho x).2 (hclear x hx)
    have ho' := ho.run hlim honce
    refine ⟨summary, _, heq, (detectForgotten_rows hdetect fun drawer deletedAt => recorded d drawer deletedAt _ = 1).2 honce,
      ?_, List.prefix_append _ _⟩
    -- everything of the snapshot is known now
    obtain ⟨summary', hemitted, hagain⟩ := reconcile_eq realText hdetect
      { o with history := o.history ++ (freshOf d divergent o).filterMap (forgottenRow realText) }
    have hnone : freshOf d divergent
        { o with history := o.history ++ (freshOf d divergent o).filterMap (forgottenRow realText) } = [] := by
      rw [List.eq_nil_iff_forall_not_mem]
      intro x hx
      obtain ⟨hmem, hnot⟩ := mem_freshOf.1 hx
      exact hnot (ho'.known_of_recorded (by rw [honce x hmem]; exact Nat.one_pos))
    rw [hnone] at hemitted hagain
    refine ⟨summary', ?_, hemitted⟩
    rw [hagain, List.filterMap_nil, List.append_nil]

end

/-! ## Every sequence of runs -/

theorem afterRuns_append (before : List (List StoredRow)) (rows : List StoredRow) (o : Outbox) :
    afterRuns d realText (before ++ [rows]) o = afterRuns d realText [rows] (afterRuns d realText before o) := by
  rw [afterRuns, List.foldl_append]
  rfl

/-- An exact run leaves a sound history. -/
theorem Exact.sound (hlim : 19 ≤ d.limits.digits ∧ 0 < d.limits.nesting) {o : Outbox} {rows : List StoredRow} (ho : Sound d o)
    (h : Exact d realText rows o) : Sound d (afterRuns d realText [rows] o) := by
  obtain ⟨divergent, hdetect, hclear⟩ := (exact_iff hlim ho rows).1 h
  obtain ⟨summary, -, heq⟩ := reconcile_eq realText hdetect o
  rw [afterRuns, List.foldl_cons, List.foldl_nil, heq]
  exact ho.run hlim fun x hx => (recorded_once_iff hlim ho x).2 (hclear x hx)

theorem sound_of_fresh {o : Outbox} (hnone : ∀ h ∈ o.history, h.op ≠ "forgotten") : Sound d o := by
  constructor
  · intro h hh hop
    exact absurd hop (hnone h hh)
  · intro drawer deletedAt
    rw [recorded, List.countP_eq_zero.2]
    · exact Nat.zero_le 1
    · intro h hh hrecords
      simp [Records, hnone h hh] at hrecords

/-- Every state on the way is sound, where every run from a sound one is exact. -/
theorem sound_afterRuns (hlim : 19 ≤ d.limits.digits ∧ 0 < d.limits.nesting) {o : Outbox} (ho : Sound d o)
    {before : List (List StoredRow)}
    (h : ∀ earlier rows, earlier ++ [rows] <+: before → Sound d (afterRuns d realText earlier o) →
      Exact d realText rows (afterRuns d realText earlier o)) : Sound d (afterRuns d realText before o) := by
  induction before using List.reverseRecOn with
  | nil => exact ho
  | append_singleton before rows ih =>
    have hbefore : Sound d (afterRuns d realText before o) :=
      ih fun earlier rows' hpre => h earlier rows' (hpre.trans (List.prefix_append _ _))
    rw [afterRuns_append]
    exact (h before rows (List.prefix_refl _) hbefore).sound hlim hbefore

end

/-! ## A text of another time -/

/-- A row of the drawer `h1`, soft-deleted and still tagged. -/
def softDeleted (deletedAt : Column) : StoredRow := ⟨.text "h1", .text "status:active", deletedAt, .null, .text "observation"⟩

/-- Forgotten at the time 0, recovered, and forgotten again at an empty text. -/
def zeroThenEmpty : List (List StoredRow) := [[softDeleted (.int 0)], [softDeleted (.text "")]]

theorem sampleLimits : 19 ≤ sampleDeployment.limits.digits ∧ 0 < sampleDeployment.limits.nesting := by decide

/-- What the run makes of the row. -/
def forgotten (deletedAt : Column) : Divergent :=
  ⟨"h1", "t_default", deletedAt, .text "observation", .null, .null, true⟩

theorem detectForgotten_softDeleted {deletedAt : Column} (h : deletedAt ≠ .null) :
    detectForgotten sampleDeployment [softDeleted deletedAt] = .ok [forgotten deletedAt] := by
  have hquery : forgottenQuery (softDeleted deletedAt) = true := by
    simp only [forgottenQuery, softDeleted, ne_eq, h, not_false_eq_true, decide_true, Bool.true_and]
    decide +kernel
  rw [detectForgotten, List.filter_cons_of_pos hquery]
  rfl

end Panella.Reconcile
