import Panella.Mutations
import Panella.StoreProbe

/-!
# Three readers of one row (`panella/cli/lifecycle.py`, `panella/reconcile.py`, `panella/panella_adapter.py`)

| here | there |
| --- | --- |
| `rowWing`, `exportRecord`, `export` | `_row_wing`, the loop of `_cmd_export` (`lifecycle.py` :439-531) |
| `tenantFromTags`, `forgottenEvent`, `detectForgotten` | `_tenant_from_tags`, `detect_forgotten` (`reconcile.py` :71-112) |
| `StoredRow.hit` | `_normalize_hit` (:919-969) of the tags split at commas, and the parsed metadata |

The export keeps the last wing tag that is not empty, the reconciler the first tenant tag, the live path the last tag of
either kind; the first two drop every blank of the text, the last one those around a tag. They agree where the metadata
settles it or the tags leave them no choice (`WingSettled`, `TenantSettled`).
-/

namespace Panella

open PyJson PyText SqlLike

/-- A row of `memories`. -/
structure StoredRow where
  contentHash : String
  content : String
  tags : Option String
  /-- What the text of the column is the JSON of; none for NULL and for an empty text. -/
  metadata : Option Json
  memoryType : Json
  createdAt : Json
  createdAtIso : Json
  updatedAt : Json
  updatedAtIso : Json
  deletedAt : Option Json

/-- `parsed`, where it is a dict. -/
def StoredRow.metadataDict (row : StoredRow) : Dict :=
  match row.metadata with
  | some (.obj kvs) => kvs
  | _ => []

/-- The values of the tags of a namespace. -/
def tagValues (key : String) (tags : List (List Char)) : List String :=
  tags.filterMap fun t =>
    if (key ++ ":").toList <+: t then some (String.ofList (t.drop (key.length + 1))) else none

/-- `text.replace(" ", "").split(",")`. -/
def unspacedTags (text : String) : List (List Char) := (text.toList.filter (· ≠ ' ')).splitOn ','

/-! ## The export -/

/-- The loop of `_row_wing`. -/
def wingFromTags (tags : List (List Char)) : Option String :=
  tags.foldl (fun wing t =>
    if "wing:".toList <+: t then
      let value := String.ofList (t.drop 5)
      if value ≠ "" then some value else wing
    else wing) none

/-- `_row_wing`. -/
def rowWing (tags : Option String) (metadata : Dict) : String :=
  let fromTags := (wingFromTags (unspacedTags (tags.getD ""))).getD "knowledge"
  match Dict.get metadata "wing" with
  | .str s => if s ≠ "" then s else fromTags
  | _ => fromTags

/-- The wing the export files a row under. -/
def StoredRow.exportWing (row : StoredRow) : String := rowWing row.tags row.metadataDict

structure ExportRecord where
  id : String
  content : String
  wing : String
  tags : List String
  metadata : Dict
  memoryType : Json
  createdAt : Json
  createdAtIso : Json
  updatedAt : Json
  updatedAtIso : Json

def StoredRow.exportRecord (wing : String) (row : StoredRow) : ExportRecord where
  id := row.contentHash
  content := row.content
  wing := wing
  tags := (((row.tags.getD "").toList.splitOn ',').filter (· ≠ [])).map String.ofList
  metadata := row.metadataDict
  memoryType := row.memoryType
  createdAt := row.createdAt
  createdAtIso := row.createdAtIso
  updatedAt := row.updatedAt
  updatedAtIso := row.updatedAtIso

/-- `panella export --wing`: the records it writes. -/
def exportRows (wing : String) (rows : List StoredRow) : List ExportRecord :=
  ((rows.filter fun row => row.deletedAt.isNone).filter fun row => row.exportWing = wing).map (·.exportRecord wing)

/-! ## The reconciler -/

/-- The loop of `_tenant_from_tags`: it returns at the first tenant tag. -/
def firstTenant : List (List Char) → Option String
  | [] => none
  | t :: ts =>
    if "tenant:".toList <+: t then
      let value := String.ofList (t.drop 7)
      if value ≠ "" then some value else none
    else firstTenant ts

/-- `_tenant_from_tags`. -/
def tenantFromTags : Option String → Option String
  | none => none
  | some text => if text = "" then none else firstTenant (unspacedTags text)

structure ForgottenEvent where
  drawerId : String
  tenantId : String
  deletedAt : Json
  memoryType : Json
  wing : Json
  room : Json

/-- The tenant the reconciler gives a row to. -/
def StoredRow.reconciledTenant (d : Deployment) (row : StoredRow) : String :=
  d.str (((Dict.get row.metadataDict "tenant_id").orElse (Json.ofOption (tenantFromTags row.tags))).orElse
    (.str d.defaultTenantId))

def StoredRow.forgottenEvent (d : Deployment) (row : StoredRow) (deletedAt : Json) : ForgottenEvent where
  drawerId := row.contentHash
  tenantId := row.reconciledTenant d
  deletedAt := deletedAt
  memoryType := row.memoryType
  wing := Dict.get row.metadataDict "wing"
  room := Dict.get row.metadataDict "room"

/-- `detect_forgotten`, on the rows `FORGOTTEN_QUERY` takes. -/
def detectForgotten (d : Deployment) (rows : List StoredRow) : List ForgottenEvent :=
  rows.filterMap fun row =>
    match row.deletedAt, row.tags with
    | some deletedAt, some text =>
      if like "%,status:active,%".toList (normTags text) then some (row.forgottenEvent d deletedAt) else none
    | _, _ => none

/-! ## The live path -/

/-- The row as the adapter is given it. -/
def StoredRow.api (row : StoredRow) : Dict :=
  [("content_hash", .str row.contentHash), ("content", .str row.content),
   ("tags", .arr ((pieces ',' (row.tags.getD "")).map .str)), ("metadata", row.metadata.getD .null),
   ("memory_type", row.memoryType)]

/-- `_normalize_hit`. -/
def StoredRow.hit (d : Deployment) (row : StoredRow) : Except PyErr Hit := (readRow row.api).map (normalizeHit d)

/-- The wing, the tenant, the live path files a row under; an error where it cannot read the row. -/
def StoredRow.liveWing (d : Deployment) (row : StoredRow) : Except PyErr String := (row.hit d).map (·.wing)
def StoredRow.liveTenant (d : Deployment) (row : StoredRow) : Except PyErr String := (row.hit d).map (·.tenantId)

/-- The readers of a row give it the same wing and the same tenant. -/
structure ReadersAgree (d : Deployment) (row : StoredRow) : Prop where
  wing : row.liveWing d = .ok row.exportWing
  tenant : row.liveTenant d = .ok (row.reconciledTenant d)

/-! ## What each of them reads -/

/-- The value, where it is there and not empty. -/
def filled (value : Option String) (fallback : String) : String := (value.filter (· ≠ "")).getD fallback

/-- The tags of a row, without the blanks around each. -/
def StoredRow.tagList (row : StoredRow) : List (List Char) := (pieces ',' (row.tags.getD "")).map String.toList

/-- The tags of a row, without any blanks. -/
def StoredRow.unspaced (row : StoredRow) : List (List Char) := unspacedTags (row.tags.getD "")

theorem wingFromTags_eq (tags : List (List Char)) :
    wingFromTags tags = ((tagValues "wing" tags).filter (· ≠ "")).getLast? := by
  induction tags using List.reverseRecOn with
  | nil => rfl
  | append_singleton tags t ih =>
    have hsplit : tagValues "wing" (tags ++ [t]) = tagValues "wing" tags ++ tagValues "wing" [t] := List.filterMap_append
    rw [wingFromTags, List.foldl_append, hsplit, List.filter_append, List.foldl_cons, List.foldl_nil]
    change (if "wing:".toList <+: t then _ else wingFromTags tags) = _
    by_cases hwing : "wing:".toList <+: t
    · have hone : tagValues "wing" [t] = [String.ofList (t.drop 5)] := List.filterMap_cons_some (if_pos hwing)
      rw [if_pos hwing, hone]
      by_cases hvalue : String.ofList (t.drop 5) = ""
      · simp only [hvalue, ne_eq, not_true_eq_false, if_false, decide_false, Bool.false_eq_true, not_false_eq_true,
          List.filter_cons_of_neg, List.filter_nil, List.append_nil]
        exact ih
      · simp [hvalue]
    · have hnone : tagValues "wing" [t] = [] := List.filterMap_cons_none (if_neg hwing)
      rw [if_neg hwing, hnone, List.filter_nil, List.append_nil]
      exact ih

theorem firstTenant_eq (tags : List (List Char)) :
    firstTenant tags = (tagValues "tenant" tags).head?.filter (· ≠ "") := by
  induction tags with
  | nil => rfl
  | cons t tags ih =>
    rw [firstTenant]
    by_cases htenant : "tenant:".toList <+: t
    · have hcons : tagValues "tenant" (t :: tags) = String.ofList (t.drop 7) :: tagValues "tenant" tags :=
        List.filterMap_cons_some (if_pos htenant)
      rw [if_pos htenant, hcons, List.head?_cons]
      by_cases hvalue : String.ofList (t.drop 7) = ""
      · simp [hvalue, Option.filter_some]
      · simp [hvalue, Option.filter_some]
    · have hcons : tagValues "tenant" (t :: tags) = tagValues "tenant" tags := List.filterMap_cons_none (if_neg htenant)
      rw [if_neg htenant, hcons]
      exact ih

theorem filled_filter (value : Option String) (fallback : String) : filled (value.filter (· ≠ "")) fallback = filled value fallback := by
  cases value with
  | none => rfl
  | some s => by_cases hs : s = "" <;> simp [filled, hs]

section
variable {d : Deployment} {row : StoredRow}

/-- What the tags give the reconciler. -/
theorem tenantFromTags_filled : filled (tenantFromTags row.tags) d.defaultTenantId =
    filled (tagValues "tenant" row.unspaced).head? d.defaultTenantId := by
  unfold tenantFromTags StoredRow.unspaced
  cases row.tags with
  | none => rfl
  | some text =>
    by_cases htext : text = ""
    · subst htext
      rfl
    · dsimp only
      rw [if_neg htext, firstTenant_eq, filled_filter]
      rfl

theorem parseNamespacedTag_map (key : String) (tags : List String) :
    parseNamespacedTag (tags.map .str) key = Json.ofOption (tagValues key (tags.map String.toList)).getLast? := by
  unfold parseNamespacedTag tagValues
  rw [List.filterMap_map, List.filterMap_map]
  rfl

/-- The live path reads the row of a dict. -/
theorem hit_eq (d : Deployment) (row : StoredRow) :
    row.hit d = (toDict (row.metadata.getD .null)).map fun m =>
      normalizeHit d ⟨.str row.contentHash, .str row.content, (pieces ',' (row.tags.getD "")).map .str, row.memoryType, m⟩ := by
  unfold StoredRow.hit
  have hread : readRow row.api = (toDict (row.metadata.getD .null)).map fun m =>
      ⟨.str row.contentHash, .str row.content, (pieces ',' (row.tags.getD "")).map .str, row.memoryType, m⟩ := by
    change (do
      let metadata ← toDict (row.metadata.getD .null)
      let tags ← listOrEmpty (.arr ((pieces ',' (row.tags.getD "")).map .str))
      Except.ok (RawHit.mk (.str row.contentHash) (.str row.content) tags row.memoryType metadata)) = _
    rw [listOrEmpty_arr]
    cases toDict (row.metadata.getD .null) <;> rfl
  rw [hread]
  cases toDict (row.metadata.getD .null) <;> rfl

/-- A value of the metadata, or what the tags give. -/
theorem str_orElse_filled (v : Json) (value : Option String) (fallback : String) :
    d.str ((v.orElse (Json.ofOption value)).orElse (.str fallback)) =
      if v.truthy then d.str v else filled value fallback := by
  have hskip : ∀ {w x : Json}, w.truthy = false → w.orElse x = x := fun h => by simp [Json.orElse, h]
  have hkeep : ∀ {w x : Json}, w.truthy = true → w.orElse x = w := fun h => by simp [Json.orElse, h]
  by_cases hv : v.truthy = true
  · rw [hkeep hv, hkeep hv, if_pos hv]
  · have hv' : v.truthy = false := by simpa using hv
    rw [hskip hv', if_neg hv]
    cases value with
    | none =>
      have hnull : (Json.ofOption none).truthy = false := rfl
      rw [hskip hnull]
      rfl
    | some s =>
      by_cases hs : s = ""
      · subst hs
        have hempty : (Json.ofOption (some "")).truthy = false := rfl
        rw [hskip hempty]
        rfl
      · rw [Json.ofOption, Json.orElse_str hs, Deployment.str_str, filled, Option.filter_some, if_pos (by simpa using hs)]
        rfl

/-- What the live path makes of the wing, the tenant, of a row. -/
theorem live_eq {m : Dict} (hm : toDict (row.metadata.getD .null) = .ok m) :
    row.liveWing d = .ok (if (Dict.get m "wing").truthy then d.str (Dict.get m "wing")
        else filled (tagValues "wing" row.tagList).getLast? legacyFallbackWing) ∧
      row.liveTenant d = .ok (if (Dict.get m "tenant_id").truthy then d.str (Dict.get m "tenant_id")
        else filled (tagValues "tenant" row.tagList).getLast? d.defaultTenantId) := by
  unfold StoredRow.liveWing StoredRow.liveTenant
  rw [hit_eq, hm]
  constructor
  · change Except.ok (d.str (((Dict.get m "wing").orElse (parseNamespacedTag _ "wing")).orElse _)) = _
    rw [parseNamespacedTag_map, str_orElse_filled]
    rfl
  · change Except.ok (d.str (((Dict.get m "tenant_id").orElse (parseNamespacedTag _ "tenant")).orElse _)) = _
    rw [parseNamespacedTag_map, str_orElse_filled]
    rfl

theorem live_error {e : PyErr} (hm : toDict (row.metadata.getD .null) = .error e) :
    row.liveWing d = .error e ∧ row.liveTenant d = .error e := by
  unfold StoredRow.liveWing StoredRow.liveTenant
  rw [hit_eq, hm]
  exact ⟨rfl, rfl⟩

theorem getLast?_filled (values : List String) (fallback : String) :
    (values.filter (· ≠ "")).getLast?.getD fallback = filled (values.filter (· ≠ "")).getLast? fallback := by
  unfold filled
  cases hlast : (values.filter (· ≠ "")).getLast? with
  | none => rfl
  | some s =>
    have hs : s ≠ "" := by simpa using (List.mem_filter.1 (List.mem_of_getLast? hlast)).2
    rw [Option.filter_some, if_pos (by simpa using hs)]

/-- What the export makes of the wing. -/
theorem exportWing_eq (row : StoredRow) :
    row.exportWing = match Dict.get row.metadataDict "wing" with
      | .str s => if s ≠ "" then s else filled ((tagValues "wing" row.unspaced).filter (· ≠ "")).getLast? legacyFallbackWing
      | _ => filled ((tagValues "wing" row.unspaced).filter (· ≠ "")).getLast? legacyFallbackWing := by
  have htags : (wingFromTags (unspacedTags (row.tags.getD ""))).getD "knowledge" =
      filled ((tagValues "wing" row.unspaced).filter (· ≠ "")).getLast? legacyFallbackWing := by
    rw [wingFromTags_eq, StoredRow.unspaced, ← getLast?_filled]
    rfl
  unfold StoredRow.exportWing rowWing
  rw [htags]

theorem reconciledTenant_eq (d : Deployment) (row : StoredRow) :
    row.reconciledTenant d = if (Dict.get row.metadataDict "tenant_id").truthy then d.str (Dict.get row.metadataDict "tenant_id")
      else filled (tagValues "tenant" row.unspaced).head? d.defaultTenantId := by
  rw [StoredRow.reconciledTenant, str_orElse_filled, tenantFromTags_filled]

/-! ## Where they agree -/

/-- What settles the wing of a row. -/
inductive WingSettled (d : Deployment) (row : StoredRow) : Prop
  /-- The metadata is an object with a text for a wing. -/
  | metadata (kvs : Dict) (s : String) (hobject : row.metadata = some (.obj kvs)) (hwing : Dict.get kvs "wing" = .str s)
      (hfilled : s ≠ "")
  /-- The metadata has no wing, and the last wing tag is the last that is not empty once all blanks are gone. -/
  | tags (m : Dict) (hdict : toDict (row.metadata.getD .null) = .ok m) (hnone : (Dict.get m "wing").truthy = false)
      (hlast : filled (tagValues "wing" row.tagList).getLast? legacyFallbackWing =
        filled ((tagValues "wing" row.unspaced).filter (· ≠ "")).getLast? legacyFallbackWing)
  /-- The metadata has another value for a wing, or is no object, and the tags repeat it. -/
  | repeated (m : Dict) (hdict : toDict (row.metadata.getD .null) = .ok m) (hsome : (Dict.get m "wing").truthy = true)
      (hrepeat : d.str (Dict.get m "wing") =
        filled ((tagValues "wing" row.unspaced).filter (· ≠ "")).getLast? legacyFallbackWing)

/-- What settles the tenant of a row. -/
inductive TenantSettled (d : Deployment) (row : StoredRow) : Prop
  /-- The metadata is an object with a tenant. -/
  | metadata (kvs : Dict) (hobject : row.metadata = some (.obj kvs)) (htenant : (Dict.get kvs "tenant_id").truthy = true)
  /-- The metadata has no tenant, and the last tenant tag is the first once all blanks are gone. -/
  | tags (m : Dict) (hdict : toDict (row.metadata.getD .null) = .ok m) (hnone : (Dict.get m "tenant_id").truthy = false)
      (honly : filled (tagValues "tenant" row.tagList).getLast? d.defaultTenantId =
        filled (tagValues "tenant" row.unspaced).head? d.defaultTenantId)
  /-- The metadata is no object, has a tenant all the same, and the tags repeat it. -/
  | repeated (m : Dict) (hdict : toDict (row.metadata.getD .null) = .ok m) (hsome : (Dict.get m "tenant_id").truthy = true)
      (hrepeat : d.str (Dict.get m "tenant_id") = filled (tagValues "tenant" row.unspaced).head? d.defaultTenantId)

/-- Metadata that is no object is none to the export and to the reconciler. -/
theorem metadataDict_cases {m : Dict} (hdict : toDict (row.metadata.getD .null) = .ok m) :
    (row.metadata = some (.obj m) ∧ row.metadataDict = m) ∨
      ((∀ kvs, row.metadata ≠ some (.obj kvs)) ∧ row.metadataDict = []) := by
  unfold StoredRow.metadataDict
  cases hmeta : row.metadata with
  | none =>
    refine .inr ⟨?_, rfl⟩
    intro kvs h
    cases h
  | some v =>
    cases v with
    | obj kvs =>
      rw [hmeta] at hdict
      have hkvs : kvs = m := Except.ok.inj ((toDict_obj kvs).symm.trans hdict)
      exact .inl ⟨by rw [hkvs], hkvs⟩
    | null | bool _ | int _ | float _ | str _ | arr _ =>
      refine .inr ⟨?_, rfl⟩
      intro kvs h
      cases h

theorem wing_agrees_iff : row.liveWing d = .ok row.exportWing ↔ WingSettled d row := by
  cases hdict : toDict (row.metadata.getD .null) with
  | error e =>
    rw [(live_error hdict).1]
    constructor
    · intro h
      cases h
    · rintro (⟨kvs, s, hobject, -, -⟩ | ⟨m, hm, -, -⟩ | ⟨m, hm, -, -⟩)
      · rw [hobject] at hdict
        exact absurd ((toDict_obj kvs).symm.trans hdict) (by simp)
      · rw [hdict] at hm
        cases hm
      · rw [hdict] at hm
        cases hm
  | ok m =>
    rw [(live_eq hdict).1, exportWing_eq, Except.ok.injEq]
    have hsettled : WingSettled d row → ∀ m', toDict (row.metadata.getD .null) = .ok m' → m' = m := by
      intro _ m' hm'
      exact Except.ok.inj (hm'.symm.trans hdict)
    -- the export follows the metadata only for a text
    have hexport : (∃ s, Dict.get row.metadataDict "wing" = .str s ∧ s ≠ "") ∨
        (match Dict.get row.metadataDict "wing" with
          | .str s => if s ≠ "" then s else filled ((tagValues "wing" row.unspaced).filter (· ≠ "")).getLast? legacyFallbackWing
          | _ => filled ((tagValues "wing" row.unspaced).filter (· ≠ "")).getLast? legacyFallbackWing) =
            filled ((tagValues "wing" row.unspaced).filter (· ≠ "")).getLast? legacyFallbackWing := by
      split
      · next s hs =>
        by_cases hempty : s = ""
        · exact .inr (if_neg (not_not.2 hempty))
        · exact .inl ⟨s, hs, hempty⟩
      · exact .inr rfl
    rcases hexport with ⟨s, hs, hfilled⟩ | htags
    · have hobject : row.metadata = some (.obj m) ∧ row.metadataDict = m := by
        rcases metadataDict_cases hdict with hobject | ⟨-, hempty⟩
        · exact hobject
        · rw [hempty] at hs
          cases hs
      rw [hobject.2] at hs ⊢
      refine iff_of_true ?_ (.metadata m s hobject.1 hs hfilled)
      simp [hs, Json.truthy, hfilled]
    · rw [htags]
      constructor
      · intro h
        by_cases hwing : (Dict.get m "wing").truthy = true
        · rw [if_pos hwing] at h
          exact .repeated m hdict hwing h
        · rw [if_neg hwing] at h
          exact .tags m hdict (by simpa using hwing) h
      · rintro (⟨kvs, s, hobject, hwing, hfilled⟩ | ⟨m', hm', hnone, hlast⟩ | ⟨m', hm', hsome, hrepeat⟩)
        · have hkvs : row.metadataDict = kvs := by
            unfold StoredRow.metadataDict
            rw [hobject]
          have hm : kvs = m := by
            rw [hobject] at hdict
            exact Except.ok.inj ((toDict_obj kvs).symm.trans hdict)
          rw [hkvs, hwing] at htags
          simp only [ne_eq, hfilled, not_false_eq_true, if_true] at htags
          rw [← hm, hwing, if_pos (by simp [Json.truthy, hfilled]), Deployment.str_str, htags]
        · rw [hdict] at hm'
          cases hm'
          rw [hnone, if_neg Bool.false_ne_true, hlast]
        · rw [hdict] at hm'
          cases hm'
          rw [if_pos hsome, hrepeat]

theorem tenant_agrees_iff : row.liveTenant d = .ok (row.reconciledTenant d) ↔ TenantSettled d row := by
  cases hdict : toDict (row.metadata.getD .null) with
  | error e =>
    rw [(live_error hdict).2]
    constructor
    · intro h
      cases h
    · rintro (⟨kvs, hobject, -⟩ | ⟨m, hm, -, -⟩ | ⟨m, hm, -, -⟩)
      · rw [hobject] at hdict
        exact absurd ((toDict_obj kvs).symm.trans hdict) (by simp)
      · rw [hdict] at hm
        cases hm
      · rw [hdict] at hm
        cases hm
  | ok m =>
    rw [(live_eq hdict).2, reconciledTenant_eq, Except.ok.injEq]
    rcases metadataDict_cases hdict with ⟨hobject, hsame⟩ | ⟨hno, hempty⟩
    · rw [hsame]
      by_cases htenant : (Dict.get m "tenant_id").truthy = true
      · rw [if_pos htenant, if_pos htenant]
        exact iff_of_true rfl (.metadata m hobject htenant)
      · rw [if_neg htenant, if_neg htenant]
        constructor
        · intro h
          exact .tags m hdict (by simpa using htenant) h
        · rintro (⟨kvs, hobject', hkvs⟩ | ⟨m', hm', -, honly⟩ | ⟨m', hm', hsome, -⟩)
          · rw [hobject] at hobject'
            cases hobject'
            exact absurd hkvs htenant
          · exact honly
          · rw [hdict] at hm'
            cases hm'
            exact absurd hsome htenant
    · have hfalsy : (Dict.get ([] : Dict) "tenant_id").truthy = false := rfl
      rw [hempty, hfalsy, if_neg Bool.false_ne_true]
      constructor
      · intro h
        by_cases htenant : (Dict.get m "tenant_id").truthy = true
        · rw [if_pos htenant] at h
          exact .repeated m hdict htenant h
        · rw [if_neg htenant] at h
          exact .tags m hdict (by simpa using htenant) h
      · rintro (⟨kvs, hobject, -⟩ | ⟨m', hm', hnone, honly⟩ | ⟨m', hm', hsome, hrepeat⟩)
        · exact absurd hobject (hno kvs)
        · rw [hdict] at hm'
          cases hm'
          rw [hnone, if_neg Bool.false_ne_true, honly]
        · rw [hdict] at hm'
          cases hm'
          rw [if_pos hsome, hrepeat]

/-- The rows a wing exports are those the live path files under it. -/
theorem export_selects {rows : List StoredRow} (h : ∀ row ∈ rows, WingSettled d row) (wing : String) :
    exportRows wing rows =
      ((rows.filter fun row => row.deletedAt.isNone).filter fun row => row.liveWing d = .ok wing).map (·.exportRecord wing) := by
  unfold exportRows
  congr 1
  apply List.filter_congr
  intro row hrow
  rw [wing_agrees_iff.2 (h row (List.mem_filter.1 hrow).1)]
  simp only [Except.ok.injEq]

/-- The tenant of an event is the one the live path gave the row to. -/
theorem forgotten_tenant {rows : List StoredRow} (h : ∀ row ∈ rows, TenantSettled d row) {event : ForgottenEvent}
    (hevent : event ∈ detectForgotten d rows) :
    ∃ row ∈ rows, event.drawerId = row.contentHash ∧ row.liveTenant d = .ok event.tenantId := by
  obtain ⟨row, hrow, hof⟩ := List.mem_filterMap.1 hevent
  refine ⟨row, hrow, ?_⟩
  split at hof
  · split at hof
    · cases hof
      exact ⟨rfl, tenant_agrees_iff.2 (h row hrow)⟩
    · cases hof
  · cases hof

end

/-- **When the readers of a row agree**; a wing then exports the rows the live path files under it, and what is forgotten is
recorded under the tenant that owned it. -/
theorem readers_agree_iff (d : Deployment) :
    (∀ row, ReadersAgree d row ↔ WingSettled d row ∧ TenantSettled d row) ∧
      ∀ rows : List StoredRow, (∀ row ∈ rows, WingSettled d row ∧ TenantSettled d row) →
        (∀ wing, exportRows wing rows =
          ((rows.filter fun row => row.deletedAt.isNone).filter fun row => row.liveWing d = .ok wing).map
            (·.exportRecord wing)) ∧
        ∀ event ∈ detectForgotten d rows,
          ∃ row ∈ rows, event.drawerId = row.contentHash ∧ row.liveTenant d = .ok event.tenantId := by
  refine ⟨fun row => ⟨fun h => ?_, fun h => ?_⟩, fun rows h => ⟨fun wing => ?_, fun event hevent => ?_⟩⟩
  · exact ⟨wing_agrees_iff.1 h.wing, tenant_agrees_iff.1 h.tenant⟩
  · exact ⟨wing_agrees_iff.2 h.1, tenant_agrees_iff.2 h.2⟩
  · exact export_selects (fun row hrow => (h row hrow).1) wing
  · exact forgotten_tenant (fun row hrow => (h row hrow).2) hevent

/-- Two wing tags, the last one empty, and two tenant tags. -/
def retaggedRow : StoredRow where
  contentHash := "h1"
  content := "coffee black"
  tags := some "status:active,wing:facts,wing:,tenant:t_a,tenant:t_b"
  metadata := none
  memoryType := .str "observation"
  createdAt := .null
  createdAtIso := .null
  updatedAt := .null
  updatedAtIso := .null
  deletedAt := some (.int 1)

/-- **The readers of a row may disagree**: its wing is `facts` to the export and `knowledge` to the live path, its tenant
`t_a` to the reconciler and `t_b` to the live path. -/
theorem retaggedRow_disagrees : ¬ ∀ row, ReadersAgree sampleDeployment row := by
  intro h
  have hlive : retaggedRow.liveTenant sampleDeployment = .ok "t_b" := by decide +kernel
  have hreconciled : retaggedRow.reconciledTenant sampleDeployment = "t_a" := by decide +kernel
  have hagree := (h retaggedRow).tenant
  rw [hlive, hreconciled] at hagree
  exact absurd (Except.ok.inj hagree) (by decide)

end Panella
