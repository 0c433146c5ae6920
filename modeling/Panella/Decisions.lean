import Panella.AuditWriter
import Panella.Outbox
import Panella.Store

/-!
# Audit entries for approvals, and what a receipt attests

| here | there |
| --- | --- |
| `ApprovalAuditContext`, `appendDecision` | `approval_audit.py`, `_append_decision` (`approval_service.py` :87-125) |
| `backfillOne` | `_backfill_one` with `_inspect_finalizing_marker` (`client_raw.py` :585-775) |
| `outcomeEntry` | the `approval_finalized` append (`approval_finalizer.py` :387-403) |
| `erasureEntry` | `_audit_if_cross_tenant` of a hard delete (`client.py` :738-743) |

`Attests` is what the finalizer's gate looks for in an audit row. Both entries that approve
something attest it (`attests_decision`, `attests_backfill`), whatever the surface adds to the
details.
-/

namespace Panella

open PyJson

/-- The audit row says that `by'`, through `via`, approved the candidate of approval `i` whose
fingerprint is `sha`. -/
structure Attests (lim : Limits) (row : AuditRow) (i : Nat) (via by' sha : String) : Prop where
  op : row.op = "approval_decision" ∨ row.op = "approval_decision_backfill"
  target : row.targetId = some (toString i)
  details : ∃ details, readDetails lim row = .ok (.obj details) ∧ Dict.get details "decision" = .str "approve" ∧
    Dict.get details "approved_by" = .str by' ∧ Dict.get details "approved_via" = .str via ∧
    Dict.get details "candidate_sha256" = .str sha

/-- The audit row says that the service let `by'`, through `via`, decide on approval `i`; an approval names the bytes. -/
structure Decides (lim : Limits) (row : AuditRow) (i : Nat) (decision by' via : String) (sha : Option String) : Prop where
  op : row.op = "approval_decision"
  target : row.targetId = some (toString i)
  details : ∃ details, readDetails lim row = .ok (.obj details) ∧ Dict.get details "decision" = .str decision ∧
    Dict.get details "approved_by" = .str by' ∧ Dict.get details "approved_via" = .str via ∧
    ∀ s ∈ sha, Dict.get details "candidate_sha256" = .str s

theorem Decides.attests {lim : Limits} {row : AuditRow} {i : Nat} {by' via sha : String}
    (h : Decides lim row i "approve" by' via (some sha)) : Attests lim row i via by' sha := by
  obtain ⟨hop, ht, details, hd, h1, h2, h3, h4⟩ := h
  exact ⟨.inl hop, ht, details, hd, h1, h2, h3, h4 sha rfl⟩

/-! ## Entries -/

/-- What a surface supplies for its audit entries. -/
structure ApprovalAuditContext where
  principal : Principal
  tenantAccessed : String
  source : String
  extra : Dict
  extraWf : WF (.obj extra)

/-- `("k", v)` where there is a `v`. -/
def optionalKey (k : String) (v : Option String) : Dict := (v.map fun s => (k, .str s)).toList

/-- The core fields of a decision. -/
def decisionCore (decision : String) (i : Nat) (by' via : String) (sha proposer : Option String) : Dict :=
  [("phase", .str "authorized_intent"), ("decision", .str decision), ("approval_id", .int i), ("approved_by", .str by'),
    ("approved_via", .str via)] ++ optionalKey "candidate_sha256" sha ++ optionalKey "proposed_by_profile" proposer

/-- `_details`: the core fields are applied last. -/
def auditDetails (ctx : ApprovalAuditContext) (core : Dict) : Dict :=
  Dict.merge (Dict.set ctx.extra "source" (.str ctx.source)) core

theorem wf_optionalKey {k : String} {v : Option String} : ∀ kv ∈ optionalKey k v, WF kv.2 := by
  intro kv hkv
  cases v with
  | none => simp [optionalKey] at hkv
  | some s => simp only [optionalKey, Option.map_some, Option.toList_some, List.mem_singleton] at hkv; subst hkv; trivial

theorem wf_decisionCore (decision : String) (i : Nat) (by' via : String) (sha proposer : Option String) :
    ∀ kv ∈ decisionCore decision i by' via sha proposer, WF kv.2 := by
  intro kv hkv
  simp only [decisionCore, List.mem_append, List.mem_cons, List.not_mem_nil, or_false] at hkv
  rcases hkv with ((rfl | rfl | rfl | rfl | rfl) | h) | h
  · trivial
  · trivial
  · trivial
  · trivial
  · trivial
  · exact wf_optionalKey kv h
  · exact wf_optionalKey kv h

/-- The `audit_write` call of `_append_decision`. -/
def decisionEntry (ctx : ApprovalAuditContext) (tsIso decision : String) (i : Nat) (by' via : String)
    (sha proposer : Option String) : AuditWrite where
  tsIso := tsIso
  principalId := ctx.principal.id
  tenantAccessed := ctx.tenantAccessed
  op := "approval_decision"
  targetId := some (toString i)
  reasonCode := ctx.principal.breakGlassToken.map (·.reason)
  details := some (auditDetails ctx (decisionCore decision i by' via sha proposer))
  wf := by
    intro _ h
    cases h
    exact wf_merge (wf_set ctx.extraWf trivial) (wf_decisionCore decision i by' via sha proposer)

/-- The details of a backfill receipt. -/
def backfillCore (i : Nat) (row : ApprovalRow) (inspection : Option String) : Dict :=
  [("phase", .str "backfill"), ("decision", .str "approve"), ("approved_by", .ofOption row.approvedBy),
    ("approved_via", .ofOption row.approvedVia), ("approval_id", .int i),
    ("candidate_sha256", .str (candidateFingerprint row.candidateJson))] ++
    optionalKey "proposed_by_profile" (proposedByProfile (.ofOption row.proposedByProfile)) ++
    optionalKey "finalizing_inspection" inspection

theorem nodup_backfillCore (i : Nat) (row : ApprovalRow) (inspection : Option String) :
    ((backfillCore i row inspection).map Prod.fst).Nodup := by
  unfold backfillCore optionalKey
  cases proposedByProfile (.ofOption row.proposedByProfile) <;> cases inspection <;>
    simp only [List.map_append, List.map_cons, List.map_nil, Option.map_none, Option.map_some, Option.toList_none,
      Option.toList_some] <;> decide

theorem wf_backfillCore (i : Nat) (row : ApprovalRow) (inspection : Option String) :
    WF (.obj (backfillCore i row inspection)) := by
  refine wf_obj_iff.2 ⟨nodup_backfillCore i row inspection, fun kv hkv => ?_⟩
  simp only [backfillCore, List.mem_append, List.mem_cons, List.not_mem_nil, or_false] at hkv
  rcases hkv with ((rfl | rfl | rfl | rfl | rfl | rfl) | h) | h
  · trivial
  · trivial
  · exact wf_ofOption _
  · exact wf_ofOption _
  · trivial
  · trivial
  · exact wf_optionalKey kv h
  · exact wf_optionalKey kv h

/-- The `audit_write` call of `_backfill_one`. -/
def backfillEntry (principal : Principal) (tenantAccessed tsIso : String) (i : Nat) (row : ApprovalRow)
    (inspection : Option String) : AuditWrite where
  tsIso := tsIso
  principalId := principal.id
  tenantAccessed := tenantAccessed
  op := "approval_decision_backfill"
  targetId := some (toString i)
  reasonCode := none
  details := some (backfillCore i row inspection)
  wf := by
    intro _ h
    cases h
    exact wf_backfillCore i row inspection

/-- The outcome entry of a finalized approval. -/
def outcomeEntry (principal : Principal) (tsIso tenantId durableId : String) (i : Nat) (row : ApprovalRow) : AuditWrite where
  tsIso := tsIso
  principalId := principal.id
  tenantAccessed := tenantId
  op := "approval_finalized"
  targetId := some durableId
  reasonCode := none
  details := some
    [("approval_id", .int i), ("durable_id", .str durableId), ("approved_by", .ofOption row.approvedBy),
     ("approved_via", .ofOption row.approvedVia), ("receipt_seq", .int (row.auditReceiptSeq.getD 0))]
  wf := by
    intro _ h
    cases h
    refine wf_obj_iff.2 ⟨by simp only [List.map_cons, List.map_nil]; decide, fun kv hkv => ?_⟩
    simp only [List.mem_cons, List.not_mem_nil, or_false] at hkv
    rcases hkv with rfl | rfl | rfl | rfl | rfl <;> first | exact wf_ofOption _ | trivial

/-- A list of ids under a key, where there are any. -/
def optionalIds (k : String) (ids : List String) : Dict := if ids = [] then [] else [(k, .arr (ids.map .str))]

/-- `divergent_details`. -/
def divergentDetails (divergentIds markerDeleted : List String) : Dict :=
  optionalIds "divergent_upstream_ids" divergentIds ++ optionalIds "finalizer_marker_deleted_ids" markerDeleted

theorem wf_strings (ids : List String) : WF (.arr (ids.map .str)) := by
  induction ids with
  | nil => trivial
  | cons s ids ih => exact ⟨trivial, ih⟩

/-- The entry of a hard delete; the caller is root with break-glass. -/
def erasureEntry (principal : Principal) (tsIso drawerId reason : String) (divergentIds markerDeleted : List String) :
    AuditWrite where
  tsIso := tsIso
  principalId := principal.id
  tenantAccessed := "*"
  op := "hard_delete"
  targetId := some drawerId
  reasonCode := principal.breakGlassToken.map (·.reason)
  details := some ([("reason", .str reason), ("hard_delete", .bool true)] ++ divergentDetails divergentIds markerDeleted)
  wf := by
    intro _ h
    cases h
    unfold divergentDetails optionalIds
    refine wf_obj_iff.2 ⟨?_, fun kv hkv => ?_⟩
    · by_cases h1 : divergentIds = [] <;> by_cases h2 : markerDeleted = [] <;>
        simp only [h1, h2, if_true, if_false, List.map_append, List.map_cons, List.map_nil] <;> decide
    · simp only [List.mem_append, List.mem_cons, List.not_mem_nil, or_false] at hkv
      rcases hkv with (rfl | rfl) | h | h
      · trivial
      · trivial
      · split at h
        · cases h
        · rw [List.mem_singleton] at h; subst h; exact wf_strings _
      · split at h
        · cases h
        · rw [List.mem_singleton] at h; subst h; exact wf_strings _

/-! ## Appending -/

/-- `audit_write` then `audit_row_hash` of the new row; a fault of the database raises first. -/
def appendWithHash (d : Deployment) (t : AuditTable) (w : AuditWrite) (fault : Option PyErr) :
    Except PyErr (AuditTable × Int × String) :=
  match fault with
  | some e => .error e
  | none =>
    match auditWrite d.limits t w with
    | .error (.json e) => .error (.json e)
    | .error (.chain m) => .error (.runtimeError m)
    | .ok (t, seq) =>
      match auditRowHash t seq with
      | .ok h => .ok (t, seq, h)
      | .error (.json e) => .error (.json e)
      | .error (.chain m) => .error (.runtimeError m)

/-- Only backfills what the finalizer could act on and has no receipt (`_ELIGIBLE_NULL_WHERE`). -/
def eligibleNull (r : ApprovalRow) : Bool :=
  r.status = .approved && r.memoryEventId.isSome && r.approvedVia.isSome && r.approvedBy.isSome &&
    (finalizerUnclaimed r.finalizerState || r.finalizerState = some .finalizing) && r.auditReceiptSeq.isNone

/-- How the store is reached during a migration: no adapter, or a lookup that may raise. -/
inductive Inspector
  | unavailable
  | store (fault : Option PyErr)

/-- `_inspect_finalizing_marker`, where it says something. -/
def inspectFinalizingMarker (d : Deployment) (st : Store) (i : Nat) (tenant : String) : Inspector → Option String
  | .unavailable => none
  | .store fault =>
    match findActiveHashByMarker d st (approvalMarker i) tenant fault with
    | .error _ => none
    | .ok none => some "marker_absent"
    | .ok (some _) => some "marker_found"

/-- The receipt columns of a backfill. -/
def stampBackfill (seq : Int) (thisHash : String) (r : ApprovalRow) : ApprovalRow :=
  { r with
    auditReceiptSeq := some seq, auditReceiptHash := some thisHash
    candidateSha256 := some (candidateFingerprint r.candidateJson) }

/-- `_backfill_one`: the outbox and the log after it. An append that raises rolls the outbox back. -/
def backfillOne (d : Deployment) (principal : Principal) (tenant tsIso : String) (inspector : Inspector)
    (fault : Option PyErr) (st : Store) (o : Outbox) (t : AuditTable) (i : Nat) : Outbox × AuditTable :=
  match o.approvals.get i with
  | none => (o, t)
  | some row =>
    if !eligibleNull row then (o, t)
    else
      let inspection :=
        if row.finalizerState = some .finalizing then (inspectFinalizingMarker d st i tenant inspector).map some else some none
      match inspection with
      | none => (o, t)
      | some inspection =>
        match appendWithHash d t (backfillEntry principal tenant tsIso i row inspection) fault with
        | .error _ => (o, t)
        | .ok (t', seq, thisHash) => (o.updateApproval i (fun r => r.auditReceiptSeq.isNone) (stampBackfill seq thisHash), t')

/-! ## What the appends leave in the log -/

theorem appendWithHash_ok {d : Deployment} {t t' : AuditTable} {w : AuditWrite} {fault : Option PyErr} {seq : Int}
    {thisHash : String} (h : appendWithHash d t w fault = .ok (t', seq, thisHash)) :
    ∃ detailsJson, encodeDetails d.limits w.details = .ok detailsJson ∧ t' = t.append w detailsJson ∧
      seq = (t.newRow w detailsJson).seq ∧ thisHash = (t.newRow w detailsJson).thisHash := by
  unfold appendWithHash at h
  cases fault with
  | some e => cases h
  | none =>
    simp only [auditWrite] at h
    cases he : encodeDetails d.limits w.details with
    | error e => rw [he] at h; cases h
    | ok detailsJson =>
      rw [he] at h
      simp only at h
      have hmem : t.newRow w detailsJson ∈ (t.append w detailsJson).rows := List.mem_append_right _ (List.mem_singleton_self _)
      have hseq : (t.newRow w detailsJson).seq = t.nextSeq := rfl
      unfold auditRowHash at h
      split at h
      · rename_i h' hr
        split at hr
        · cases hr
        · split at hr
          · cases hr
          · rename_i row hf
            cases hr
            cases h
            have hrow : row = t.newRow w detailsJson :=
              AuditTable.eq_of_seq (List.mem_of_find?_eq_some hf) hmem (by
                have := List.find?_some hf
                simp only [decide_eq_true_eq] at this
                rw [this, hseq])
            exact ⟨detailsJson, rfl, rfl, rfl, by rw [hrow]⟩
      · cases h
      · cases h

/-- A detail of an entry, read back. -/
theorem readDetails_newRow {lim : Limits} {t : AuditTable} {w : AuditWrite} {details : Dict} (hw : w.details = some details)
    {detailsJson : Option String} (h : encodeDetails lim w.details = .ok detailsJson) :
    readDetails lim (t.newRow w detailsJson) = .ok (.obj (sortItems (sortKeysMembers details))) := by
  have hread : readDetails lim (t.newRow w detailsJson) = .ok (sortKeys (.obj (w.details.getD []))) :=
    readDetails_of_encode h
  rw [hread, hw]
  rfl

theorem attests_of_details {lim : Limits} {t : AuditTable} {w : AuditWrite} {details : Dict} {detailsJson : Option String}
    {i : Nat} {via by' sha : String} (hop : w.op = "approval_decision" ∨ w.op = "approval_decision_backfill")
    (ht : w.targetId = some (toString i)) (hw : w.details = some details)
    (h : encodeDetails lim w.details = .ok detailsJson) (hn : (details.map Prod.fst).Nodup)
    (h1 : Dict.get details "decision" = .str "approve") (h2 : Dict.get details "approved_by" = .str by')
    (h3 : Dict.get details "approved_via" = .str via) (h4 : Dict.get details "candidate_sha256" = .str sha) :
    Attests lim (t.newRow w detailsJson) i via by' sha := by
  refine ⟨hop, ht, _, readDetails_newRow hw h, ?_, ?_, ?_, ?_⟩
  · rw [Dict.get_sortItems hn, h1]; rfl
  · rw [Dict.get_sortItems hn, h2]; rfl
  · rw [Dict.get_sortItems hn, h3]; rfl
  · rw [Dict.get_sortItems hn, h4]; rfl

theorem nodup_decisionCore (decision : String) (i : Nat) (by' via : String) (sha proposer : Option String) :
    ((decisionCore decision i by' via sha proposer).map Prod.fst).Nodup := by
  unfold decisionCore optionalKey
  cases sha <;> cases proposer <;>
    simp only [List.map_append, List.map_cons, List.map_nil, Option.map_none, Option.map_some, Option.toList_none,
      Option.toList_some] <;> decide

/-- **A decision of the service says what it was asked to**, under any extra details. -/
theorem decides_decision {lim : Limits} {t : AuditTable} {ctx : ApprovalAuditContext} {tsIso decision by' via : String} {i : Nat}
    {sha proposer : Option String} {detailsJson : Option String}
    (h : encodeDetails lim (decisionEntry ctx tsIso decision i by' via sha proposer).details = .ok detailsJson) :
    Decides lim (t.newRow (decisionEntry ctx tsIso decision i by' via sha proposer) detailsJson) i decision by' via sha := by
  have hcore := nodup_decisionCore decision i by' via sha proposer
  have hn : ((auditDetails ctx (decisionCore decision i by' via sha proposer)).map Prod.fst).Nodup :=
    (wf_obj_iff.1 (wf_merge (wf_set (v := .str ctx.source) (k := "source") ctx.extraWf trivial)
      (wf_decisionCore decision i by' via sha proposer))).1
  have hget : ∀ {k v}, (k, .str v) ∈ decisionCore decision i by' via sha proposer →
      Dict.get (sortItems (sortKeysMembers (auditDetails ctx (decisionCore decision i by' via sha proposer)))) k = .str v := by
    intro k v hkv
    have hv : Dict.get (auditDetails ctx (decisionCore decision i by' via sha proposer)) k = .str v :=
      Dict.get_merge_of_mem hcore hkv
    rw [Dict.get_sortItems hn, hv]
    rfl
  refine ⟨rfl, rfl, _, readDetails_newRow rfl h, hget (by simp [decisionCore]), hget (by simp [decisionCore]),
    hget (by simp [decisionCore]), fun s hs => hget ?_⟩
  rw [Option.mem_def] at hs
  subst hs
  simp [decisionCore, optionalKey]

/-- **A service approval attests what the stamp will say.** -/
theorem attests_decision {lim : Limits} {t : AuditTable} {ctx : ApprovalAuditContext} {tsIso by' via sha : String} {i : Nat}
    {proposer : Option String} {detailsJson : Option String}
    (h : encodeDetails lim (decisionEntry ctx tsIso "approve" i by' via (some sha) proposer).details = .ok detailsJson) :
    Attests lim (t.newRow (decisionEntry ctx tsIso "approve" i by' via (some sha) proposer) detailsJson) i via by' sha :=
  (decides_decision h).attests

/-- **A backfill attests the row's own columns.** -/
theorem attests_backfill {lim : Limits} {t : AuditTable} {principal : Principal} {tenant tsIso via by' : String} {i : Nat}
    {row : ApprovalRow} (hv : row.approvedVia = some via) (hb : row.approvedBy = some by') {inspection detailsJson : Option String}
    (h : encodeDetails lim (backfillEntry principal tenant tsIso i row inspection).details = .ok detailsJson) :
    Attests lim (t.newRow (backfillEntry principal tenant tsIso i row inspection) detailsJson) i via by'
      (candidateFingerprint row.candidateJson) := by
  have hn := nodup_backfillCore i row inspection
  refine attests_of_details (.inr rfl) rfl rfl h hn ?_ ?_ ?_ ?_
  · exact Dict.get_of_mem hn (by simp [backfillCore])
  · exact Dict.get_of_mem hn (by simp [backfillCore, hb, Json.ofOption])
  · exact Dict.get_of_mem hn (by simp [backfillCore, hv, Json.ofOption])
  · exact Dict.get_of_mem hn (by simp [backfillCore])

end Panella
