import Panella.GovernedPaths
import Panella.Lib.Pieces
import Panella.Lib.SqlLike

/-!
# The startup store probe (`panella/store_probe.py`)

| here | there |
| --- | --- |
| `normTags`, `metaTenant`, `singleTenantTag` | `_NORM_TAGS`, `_META_TENANT`, `_SINGLE_TENANT_TAG` (:62-80) |
| `activeRow`, `ownerRow` | the rows `ANY_ACTIVE_QUERY` and `OWNER_ACTIVE_QUERY` take (:72-89) |
| `selfCheck` | `_self_check` (:117-160) |
| `MemoryRow.raw` | the row as the store's API returns it |

The query looks for tags in one text, without its blanks and in either case; the reader gets the tags one by one. They part
at a row that only looks like the owner's (`Misleads`) and at a row of the owner's that does not look like it (`Missed`).

Main theorem `probe_agrees_iff`.
-/

namespace Panella

open PyJson PyText SqlLike

/-! ## The store -/

/-- A row of `memories`, as far as the query and the reader look at it. -/
structure MemoryRow where
  contentHash : String
  content : String
  memoryType : Json
  tags : Option String
  /-- The object the text of the column holds; none for NULL and for what is not JSON. -/
  metadata : Option Dict
  deletedAt : Option String

/-- What the store and its database do to a row. -/
structure StoreFormat where
  /-- The tags of a row, read off the text they are kept as. -/
  readTags : String → List String
  readTags_eq : ∀ text, readTags text = pieces ',' text
  /-- What `json_extract` makes of an array or an object. -/
  jsonText : Json → String
  jsonText_ne : ∀ v, jsonText v ≠ ""

/-- The tags the reader sees. -/
def MemoryRow.tagList (fmt : StoreFormat) (r : MemoryRow) : List String :=
  match r.tags with
  | none => []
  | some text => fmt.readTags text

/-- The row as the store's API returns it. -/
def MemoryRow.raw (fmt : StoreFormat) (r : MemoryRow) : RawHit :=
  ⟨.str r.contentHash, .str r.content, (r.tagList fmt).map .str, r.memoryType, r.metadata.getD []⟩

/-! ## The queries -/

/-- A value of the database; a number is equal to no text. -/
inductive SqlValue
  | null
  | number
  | text (s : String)
deriving DecidableEq

/-- `json_extract` of a value. -/
def jsonExtract (fmt : StoreFormat) : Json → SqlValue
  | .null => .null
  | .str s => .text s
  | .bool _ | .int _ | .float _ => .number
  | v => .text (fmt.jsonText v)

/-- `NULLIF(v, '')`. -/
def nullif (v : SqlValue) : SqlValue := if v = .text "" then .null else v

/-- `_META_TENANT`. -/
def metaTenant (fmt : StoreFormat) (r : MemoryRow) : SqlValue :=
  match r.metadata with
  | none => .null
  | some metadata => nullif (jsonExtract fmt (Dict.get metadata "tenant_id"))

/-- `_NORM_TAGS`. -/
def normTags (text : String) : List Char := ',' :: (text.toList.filter (· ≠ ' ') ++ [','])

/-- `_SINGLE_TENANT_TAG`. -/
def singleTenantTag (text : String) : Bool :=
  (normTags text).length - (remove ",tenant:".toList (normTags text)).length = 8

/-- A row `ANY_ACTIVE_QUERY` takes. -/
def activeRow (r : MemoryRow) : Bool :=
  r.deletedAt.isNone && r.tags.any fun text => like "%,status:active,%".toList (normTags text)

/-- A row `OWNER_ACTIVE_QUERY` takes. -/
def ownerRow (fmt : StoreFormat) (ownerTenant : String) (r : MemoryRow) : Bool :=
  activeRow r && r.tags.any fun text =>
    metaTenant fmt r = .text ownerTenant ||
    (metaTenant fmt r = .null && singleTenantTag text &&
      like ("%,tenant:".toList ++ (ownerTenant.toList ++ ",%".toList)) (normTags text)) ||
    (metaTenant fmt r = .null && !like "%,tenant:%".toList (normTags text))

/-- `ANY_ACTIVE_QUERY`. -/
def anyActive (rows : List MemoryRow) : Bool := rows.any activeRow

/-- `OWNER_ACTIVE_QUERY`. -/
def ownerActive (fmt : StoreFormat) (ownerTenant : String) (rows : List MemoryRow) : Bool := rows.any (ownerRow fmt ownerTenant)

/-! ## The check -/

/-- What the check finds around it. -/
structure ProbeEnv where
  path : String
  storeExists : Bool
  overlayPinned : Bool
  freshBoxAcked : Bool

structure SelfCheckResult where
  serving : Bool
  reason : String

/-- `_self_check`. -/
def selfCheck (d : Deployment) (fmt : StoreFormat) (env : ProbeEnv) (rows : List MemoryRow) : SelfCheckResult :=
  let owner := d.repr (.str d.defaultTenantId)
  if !env.storeExists then
    if env.freshBoxAcked then ⟨true, "store absent, PANELLA_FRESH_BOX=1 acked: " ++ env.path⟩
    else if env.overlayPinned then
      ⟨false, "governance overlay is configured but the store is missing: " ++ env.path ++
        " (misconfigured overlay or store not mounted; set PANELLA_FRESH_BOX=1 only for a genuinely fresh box)"⟩
    else ⟨true, "no store yet (pure-generic fresh box): " ++ env.path⟩
  else if !anyActive rows then ⟨true, "store has no active rows (fresh/empty box)"⟩
  else if ownerActive fmt d.defaultTenantId rows then ⟨true, "owner tenant " ++ owner ++ " represented in store"⟩
  else if env.freshBoxAcked then ⟨true, "owner tenant " ++ owner ++ " absent but PANELLA_FRESH_BOX=1 acked"⟩
  else
    ⟨false, "INCOHERENT: store " ++ env.path ++ " has active rows but none attributed to the resolved owner tenant " ++
      owner ++ " — the governance overlay is likely missing/wrong on this box (serving would TenantIsolationError on " ++
      "every owned row). Fix the overlay (place it, set PANELLA_GOVERNANCE_OVERLAY, restart) or ack a fresh box with " ++
      "PANELLA_FRESH_BOX=1."⟩

/-- Without an acknowledgement, a store that is there is refused when it has active rows and none looks like the owner's. -/
theorem selfCheck_refuses_iff {d : Deployment} {fmt : StoreFormat} {env : ProbeEnv} {rows : List MemoryRow}
    (hstore : env.storeExists = true) (hack : env.freshBoxAcked = false) :
    (selfCheck d fmt env rows).serving = false ↔
      anyActive rows = true ∧ ownerActive fmt d.defaultTenantId rows = false := by
  unfold selfCheck
  simp only [hstore, hack, Bool.not_true, Bool.false_eq_true, if_false]
  cases ha : anyActive rows with
  | false => simp
  | true =>
    cases ho : ownerActive fmt d.defaultTenantId rows with
    | false => simp
    | true => simp

/-! ## The tags, as the query reads them -/

/-- The texts between the commas, without blanks. -/
def rawPieces (text : String) : List (List Char) := (text.toList.filter (· ≠ ' ')).splitOn ','

/-- One of them is the tag, in some case. -/
def NearTag (tag text : String) : Prop :=
  ∃ q ∈ rawPieces text, q.map Char.toLower = tag.toList.map Char.toLower

/-- One of them starts with `tenant:`, in some case. -/
def NearTenantTag (text : String) : Prop :=
  ∃ q ∈ rawPieces text, "tenant:".toList.map Char.toLower <+: q.map Char.toLower

/-- How many of them start with `tenant:`. -/
def tenantPieces (text : String) : Nat := (rawPieces text).countP ("tenant:".toList.isPrefixOf ·)

/-- The tags alone are taken for the owner's: one names a tenant, and the pattern of the owner fits; or none does. -/
def TagsPass (ownerTenant text : String) : Prop :=
  (tenantPieces text = 1 ∧ like ("%,tenant:".toList ++ (ownerTenant.toList ++ ",%".toList)) (normTags text) = true) ∨
    ¬ NearTenantTag text

theorem comma_notMem_rawPieces {text : String} {q : List Char} (h : q ∈ rawPieces text) : ',' ∉ q := not_mem_of_mem_splitOn h

theorem normTags_eq (text : String) : normTags text = bounded ',' (rawPieces text) := by
  rw [rawPieces, bounded_splitOn]
  rfl

theorem like_status_iff (text : String) : like "%,status:active,%".toList (normTags text) = true ↔ NearTag "status:active" text := by
  rw [normTags_eq]
  exact word_mem_iff (w := "status:active".toList) (by decide) (by decide) fun q => comma_notMem_rawPieces

theorem like_tenant_iff (text : String) : like "%,tenant:%".toList (normTags text) = true ↔ NearTenantTag text := by
  rw [normTags_eq]
  exact start_mem_iff (w := "tenant:".toList) (by decide) (by decide) (by decide) fun q => comma_notMem_rawPieces

theorem singleTenantTag_iff (text : String) : singleTenantTag text = true ↔ tenantPieces text = 1 := by
  have hcount : (remove (',' :: "tenant:".toList) (bounded ',' (rawPieces text))).length +
      ("tenant:".toList.length + 1) * (rawPieces text).countP ("tenant:".toList.isPrefixOf ·) =
        (bounded ',' (rawPieces text)).length :=
    length_remove_bounded (by decide) (by decide) fun q => comma_notMem_rawPieces
  have hseven : "tenant:".toList.length = 7 := rfl
  have hword : ",tenant:".toList = ',' :: "tenant:".toList := rfl
  rw [hseven] at hcount
  rw [singleTenantTag, decide_eq_true_eq, normTags_eq, tenantPieces, hword]
  omega

/-- `metadata.get("tenant_id")`. -/
def MemoryRow.tenantField (r : MemoryRow) : Json := Dict.get (r.metadata.getD []) "tenant_id"

/-- The metadata names no tenant. -/
def MemoryRow.NoTenantField (r : MemoryRow) : Prop := r.tenantField = .null ∨ r.tenantField = .str ""

section
variable {d : Deployment} {fmt : StoreFormat} {r : MemoryRow}

theorem metaTenant_eq (fmt : StoreFormat) (r : MemoryRow) : metaTenant fmt r = nullif (jsonExtract fmt r.tenantField) := by
  unfold metaTenant MemoryRow.tenantField
  cases r.metadata with
  | none => rfl
  | some metadata => rfl

theorem metaTenant_null_iff (fmt : StoreFormat) (r : MemoryRow) : metaTenant fmt r = .null ↔ r.NoTenantField := by
  rw [metaTenant_eq, MemoryRow.NoTenantField]
  cases r.tenantField with
  | null => simp [jsonExtract, nullif]
  | str s =>
    by_cases hs : s = ""
    · simp [jsonExtract, nullif, hs]
    · simp [jsonExtract, nullif, hs]
  | bool b | int n | float x => simp [jsonExtract, nullif]
  | arr xs => simp [jsonExtract, nullif, fmt.jsonText_ne]
  | obj kvs => simp [jsonExtract, nullif, fmt.jsonText_ne]

/-- A row the query takes, by what its columns hold. -/
structure Taken (fmt : StoreFormat) (ownerTenant : String) (r : MemoryRow) (text : String) : Prop where
  live : r.deletedAt = none
  tags : r.tags = some text
  status : NearTag "status:active" text
  tenant : metaTenant fmt r = .text ownerTenant ∨ r.NoTenantField ∧ TagsPass ownerTenant text

theorem ownerRow_iff {ownerTenant : String} : ownerRow fmt ownerTenant r = true ↔ ∃ text, Taken fmt ownerTenant r text := by
  cases htags : r.tags with
  | none =>
    constructor
    · intro h
      simp [ownerRow, htags] at h
    · rintro ⟨text, h⟩
      have htext := h.tags
      rw [htags] at htext
      cases htext
  | some text =>
    have hpass : ownerRow fmt ownerTenant r = true ↔ r.deletedAt = none ∧ NearTag "status:active" text ∧
        (metaTenant fmt r = .text ownerTenant ∨ r.NoTenantField ∧ TagsPass ownerTenant text) := by
      rw [← like_status_iff, TagsPass, ← singleTenantTag_iff, ← like_tenant_iff, ← metaTenant_null_iff fmt]
      simp only [ownerRow, activeRow, htags, Option.any_some, Option.isNone_iff_eq_none, Bool.and_eq_true, Bool.or_eq_true,
        decide_eq_true_eq, Bool.not_eq_true', Bool.not_eq_true]
      constructor
      · rintro ⟨⟨hlive, hstatus⟩, (howner | ⟨⟨hnull, hone⟩, hlike⟩) | ⟨hnull, hnone⟩⟩
        · exact ⟨hlive, hstatus, .inl howner⟩
        · exact ⟨hlive, hstatus, .inr ⟨hnull, .inl ⟨hone, hlike⟩⟩⟩
        · exact ⟨hlive, hstatus, .inr ⟨hnull, .inr hnone⟩⟩
      · rintro ⟨hlive, hstatus, howner | ⟨hnull, ⟨hone, hlike⟩ | hnone⟩⟩
        · exact ⟨⟨hlive, hstatus⟩, .inl (.inl howner)⟩
        · exact ⟨⟨hlive, hstatus⟩, .inl (.inr ⟨⟨hnull, hone⟩, hlike⟩)⟩
        · exact ⟨⟨hlive, hstatus⟩, .inr ⟨hnull, hnone⟩⟩
    rw [hpass]
    constructor
    · rintro ⟨hlive, hstatus, htenant⟩
      exact ⟨text, hlive, htags, hstatus, htenant⟩
    · rintro ⟨text', h⟩
      have htext := h.tags
      rw [htags] at htext
      cases htext
      exact ⟨h.live, h.status, h.tenant⟩

/-! ## What the reader makes of a row -/

/-- The tenants the tags of a row name. -/
def tenantTags (tags : List String) : List String :=
  tags.filterMap fun t => if "tenant:".toList <+: t.toList then some (String.ofList (t.toList.drop 7)) else none

/-- An active row the reader gives to the owner. -/
structure Owned (d : Deployment) (fmt : StoreFormat) (r : MemoryRow) : Prop where
  live : r.deletedAt = none
  status : "status:active" ∈ r.tagList fmt
  tenant : (normalizeHit d (r.raw fmt)).tenantId = d.defaultTenantId

theorem parseNamespacedTag_tenant (tags : List String) :
    parseNamespacedTag (tags.map .str) "tenant" = Json.ofOption (tenantTags tags).getLast? := by
  unfold parseNamespacedTag tenantTags
  rw [List.filterMap_map]
  rfl

theorem tenantId_eq : (normalizeHit d (r.raw fmt)).tenantId =
    d.str ((r.tenantField.orElse (Json.ofOption (tenantTags (r.tagList fmt)).getLast?)).orElse (.str d.defaultTenantId)) := by
  rw [← parseNamespacedTag_tenant]
  rfl

/-- A tenant in the metadata is a text for the reader as it is for the query. -/
theorem tenantId_text {s : String} (h : r.tenantField = .str s) (hs : s ≠ "") : (normalizeHit d (r.raw fmt)).tenantId = s := by
  rw [tenantId_eq, h, Json.orElse_str hs, Json.orElse_str hs, Deployment.str_str]

theorem tenantId_tags (h : r.NoTenantField) : (normalizeHit d (r.raw fmt)).tenantId =
    d.str ((Json.ofOption (tenantTags (r.tagList fmt)).getLast?).orElse (.str d.defaultTenantId)) := by
  have hfalsy : r.tenantField.truthy = false := by
    rcases h with h | h
    · rw [h]
      rfl
    · rw [h]
      rfl
  have hskip : ∀ w, r.tenantField.orElse w = w := by
    intro w
    simp [Json.orElse, hfalsy]
  rw [tenantId_eq, hskip]

/-- Without a tenant in the metadata, a row is another's exactly when its last tenant tag names another. -/
theorem tenantId_other_iff (h : r.NoTenantField) : (normalizeHit d (r.raw fmt)).tenantId ≠ d.defaultTenantId ↔
    ∃ t, (tenantTags (r.tagList fmt)).getLast? = some t ∧ t ≠ "" ∧ t ≠ d.defaultTenantId := by
  rw [tenantId_tags h]
  cases hlast : (tenantTags (r.tagList fmt)).getLast? with
  | none => simp [Json.ofOption, Json.orElse, Json.truthy, Deployment.str_str]
  | some t =>
    by_cases ht : t = ""
    · simp [Json.ofOption, Json.orElse, Json.truthy, Deployment.str_str, ht]
    · simp [Json.ofOption, Json.orElse, Json.truthy, Deployment.str_str, ht]

/-! ## Where the two part -/

/-- A row that only looks like an active one of the owner's. -/
inductive Misleads (d : Deployment) (fmt : StoreFormat) (r : MemoryRow) : Prop
  /-- A tag is `status:active` up to blanks and case, and none is. -/
  | status (text : String) (live : r.deletedAt = none) (tags : r.tags = some text) (near : NearTag "status:active" text)
      (untagged : "status:active" ∉ fmt.readTags text)
      (tenant : metaTenant fmt r = .text d.defaultTenantId ∨ r.NoTenantField ∧ TagsPass d.defaultTenantId text)
  /-- The tags fit the pattern of the owner, or seem to name no tenant, and the last one that does names another. -/
  | tag (text other : String) (live : r.deletedAt = none) (tags : r.tags = some text) (near : NearTag "status:active" text)
      (field : r.NoTenantField) (pass : TagsPass d.defaultTenantId text)
      (last : (tenantTags (fmt.readTags text)).getLast? = some other) (named : other ≠ "") (foreign : other ≠ d.defaultTenantId)
  /-- The metadata holds a list or an object that the database writes like the owner, and the reader does not. -/
  | container (text : String) (live : r.deletedAt = none) (tags : r.tags = some text) (near : NearTag "status:active" text)
      (field : ∀ s, r.tenantField ≠ .str s) (sql : metaTenant fmt r = .text d.defaultTenantId)
      (tenant : (normalizeHit d (r.raw fmt)).tenantId ≠ d.defaultTenantId)

/-- What hides a row of the owner's. -/
inductive Missed (d : Deployment) (fmt : StoreFormat) (r : MemoryRow) (text : String) : Prop
  /-- Its `status:active` stands among other characters than blanks that the reader strips. -/
  | status (unseen : ¬ NearTag "status:active" text)
  /-- The metadata holds a tenant that is no text. -/
  | field (named : ¬ r.NoTenantField) (notText : ∀ s, r.tenantField ≠ .str s) (sql : metaTenant fmt r ≠ .text d.defaultTenantId)
  /-- The tags do not fit the pattern of the owner, or another text in them seems to name a tenant. -/
  | tag (unnamed : r.NoTenantField) (unfit : ¬ TagsPass d.defaultTenantId text)

theorem tagList_some {text : String} (h : r.tags = some text) : r.tagList fmt = fmt.readTags text := by
  rw [MemoryRow.tagList, h]

/-- What the metadata is, where the query finds a tenant in it. -/
theorem metaTenant_text {s : String} (h : r.tenantField = .str s) (hs : s ≠ "") : metaTenant fmt r = .text s := by
  rw [metaTenant_eq, h]
  simp [jsonExtract, nullif, hs]

/-- **Taken, and not the owner's**: the row misleads. -/
theorem misleads_iff : Misleads d fmt r ↔ ownerRow fmt d.defaultTenantId r = true ∧ ¬ Owned d fmt r := by
  constructor
  · rintro (⟨text, hlive, htags, hnear, hexact, htenant⟩ | ⟨text, other, hlive, htags, hnear, hfield, hpass, hlast, hne, hother⟩ |
      ⟨text, hlive, htags, hnear, hfield, hsql, htenant⟩)
    · refine ⟨ownerRow_iff.2 ⟨text, hlive, htags, hnear, htenant⟩, fun h => hexact ?_⟩
      rw [← tagList_some htags]
      exact h.status
    · refine ⟨ownerRow_iff.2 ⟨text, hlive, htags, hnear, .inr ⟨hfield, hpass⟩⟩, fun h => ?_⟩
      rw [← tagList_some htags] at hlast
      exact (tenantId_other_iff hfield).2 ⟨other, hlast, hne, hother⟩ h.tenant
    · exact ⟨ownerRow_iff.2 ⟨text, hlive, htags, hnear, .inl hsql⟩, fun h => htenant h.tenant⟩
  · rintro ⟨htaken, hno⟩
    obtain ⟨text, hlive, htags, hnear, htenant⟩ := ownerRow_iff.1 htaken
    by_cases hexact : "status:active" ∈ fmt.readTags text
    · have hother : (normalizeHit d (r.raw fmt)).tenantId ≠ d.defaultTenantId := by
        intro hown
        exact hno ⟨hlive, (tagList_some htags).symm ▸ hexact, hown⟩
      rcases htenant with hsql | ⟨hfield, hpass⟩
      · refine .container text hlive htags hnear ?_ hsql hother
        intro s hs
        have hne : s ≠ "" := by
          rintro rfl
          rw [(metaTenant_null_iff fmt r).2 (.inr hs)] at hsql
          cases hsql
        rw [metaTenant_text hs hne] at hsql
        cases hsql
        exact hother (tenantId_text hs hne)
      · obtain ⟨other, hlast, hne, hotherOwner⟩ := (tenantId_other_iff hfield).1 hother
        rw [tagList_some htags] at hlast
        exact .tag text other hlive htags hnear hfield hpass hlast hne hotherOwner
    · exact .status text hlive htags hnear hexact htenant

/-- **The owner's, and not taken**: something hides the row. -/
theorem missed_iff (h : Owned d fmt r) {text : String} (htags : r.tags = some text) :
    Missed d fmt r text ↔ ownerRow fmt d.defaultTenantId r = false := by
  constructor
  · intro hmissed
    rw [← Bool.not_eq_true, ownerRow_iff]
    rintro ⟨text', -, htags', hnear, htenant⟩
    rw [htags] at htags'
    cases htags'
    cases hmissed with
    | status unseen => exact unseen hnear
    | field hsome notText hsql =>
      rcases htenant with hown | ⟨hnone, -⟩
      · exact hsql hown
      · exact hsome hnone
    | tag hnone unfit =>
      rcases htenant with hown | ⟨-, hpass⟩
      · rw [(metaTenant_null_iff fmt r).2 hnone] at hown
        cases hown
      · exact unfit hpass
  · intro hmissed
    rw [← Bool.not_eq_true, ownerRow_iff] at hmissed
    by_cases hnear : NearTag "status:active" text
    · by_cases hnone : r.NoTenantField
      · exact .tag hnone fun hpass => hmissed ⟨text, h.live, htags, hnear, .inr ⟨hnone, hpass⟩⟩
      · refine .field hnone ?_ fun hown => hmissed ⟨text, h.live, htags, hnear, .inl hown⟩
        intro s hs
        have hne : s ≠ "" := fun hempty => hnone (.inr (hempty ▸ hs))
        refine hmissed ⟨text, h.live, htags, hnear, .inl ?_⟩
        rw [metaTenant_text hs hne, ← h.tenant, tenantId_text hs hne]
    · exact .status hnear

/-- An owner's row the query does not see. -/
def Hidden (d : Deployment) (fmt : StoreFormat) (r : MemoryRow) : Prop := ∃ text, r.tags = some text ∧ Missed d fmt r text

theorem hidden_iff (h : Owned d fmt r) : Hidden d fmt r ↔ ownerRow fmt d.defaultTenantId r = false := by
  constructor
  · rintro ⟨text, htags, hmissed⟩
    exact (missed_iff h htags).1 hmissed
  · intro hmissed
    cases htags : r.tags with
    | none =>
      have hstatus := h.status
      rw [MemoryRow.tagList, htags] at hstatus
      cases hstatus
    | some text => exact ⟨text, htags, (missed_iff h htags).2 hmissed⟩

end

/-! ## The main theorem -/

/-- The probe agrees with the reader about the owner's rows. -/
structure ProbeAgrees (d : Deployment) (fmt : StoreFormat) (rows : List MemoryRow) : Prop where
  sound : ownerActive fmt d.defaultTenantId rows = true → ∃ r ∈ rows, Owned d fmt r
  complete : (∃ r ∈ rows, Owned d fmt r ∧ tenantTags (r.tagList fmt) = [d.defaultTenantId]) →
    ownerActive fmt d.defaultTenantId rows = true

def plainFormat : StoreFormat := ⟨pieces ',', fun _ => rfl, fun _ => "[]", fun _ => by decide⟩

/-- The `_` of `t_default` stands for any character. -/
def lookalikeRow : MemoryRow := ⟨"h", "tea", .str "note", some "status:active,tenant:txdefault", none, none⟩

end Panella
