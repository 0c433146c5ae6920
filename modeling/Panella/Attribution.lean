import Panella.DurableRow
import Panella.ReceiptAgrees

/-!
# Who proposed a memory

The queue column `proposed_by_profile` is stamped by the server. An approval copies it into its receipt, and the
finalizer reads it from the receipt it has verified: as `author_agent_id` and in the provenance of the durable row.
Two places build receipts (`ReceiptBuilder`), and the approval service starts from an open map of the surface.
`_details` puts the typed fields over it, so no entry of the map shadows a field that is there. A field that is left
out is shadowed all the same: **`attribution_stamped`** is the exact condition, `extraProposer_written` a row whose
author came from the map.
-/

namespace Panella

open PyJson PyText

variable {d : Deployment} {api : StoreApi}

/-! ## The fields of a receipt -/

/-- The keys of a receipt's details that the gate and the finalizer read. -/
def interpretedKeys : List String := ["decision", "approved_by", "approved_via", "candidate_sha256", "proposed_by_profile"]

/-- Under these keys the details say what the typed fields say, and nothing else. -/
def SaysOnly (details typed : Dict) : Prop :=
  ∀ k ∈ interpretedKeys, (k ∈ details.map Prod.fst ↔ k ∈ typed.map Prod.fst) ∧ Dict.get details k = Dict.get typed k

/-- The proposer of a row, from the column. -/
def stampedProposer (row : ApprovalRow) : Option String := proposedByProfile (.ofOption row.proposedByProfile)

/-- The typed fields of an approval of the row. -/
def typedDetails (by' via : Json) (row : ApprovalRow) : Dict :=
  [("decision", .str "approve"), ("approved_by", by'), ("approved_via", via),
   ("candidate_sha256", .str (candidateFingerprint row.candidateJson))] ++ optionalKey "proposed_by_profile" (stampedProposer row)

/-- The core fields of an approval of the row. -/
def approveCore (i : Nat) (canonical via : String) (row : ApprovalRow) : Dict :=
  decisionCore "approve" i canonical via (some (candidateFingerprint row.candidateJson)) (stampedProposer row)

/-- The two builders of a receipt: `_append_decision` of an approval, and `_backfill_one`. -/
inductive ReceiptBuilder
  | approve (audit : ApprovalAuditContext) (canonical via : String)
  | backfill (principal : Principal) (tenant : String) (inspection : Option String)

namespace ReceiptBuilder

/-- What is appended for approval `i`, whose row is read just before. -/
def entry (b : ReceiptBuilder) (tsIso : String) (i : Nat) (row : ApprovalRow) : AuditWrite :=
  match b with
  | approve audit canonical via =>
    decisionEntry audit tsIso "approve" i canonical via (some (candidateFingerprint row.candidateJson)) (stampedProposer row)
  | backfill principal tenant inspection => backfillEntry principal tenant tsIso i row inspection

/-- The details of that entry. -/
def details (b : ReceiptBuilder) (i : Nat) (row : ApprovalRow) : Dict :=
  match b with
  | approve audit canonical via => auditDetails audit (approveCore i canonical via row)
  | backfill _ _ inspection => backfillCore i row inspection

def typed (b : ReceiptBuilder) (row : ApprovalRow) : Dict :=
  match b with
  | approve _ canonical via => typedDetails (.str canonical) (.str via) row
  | backfill .. => typedDetails (.ofOption row.approvedBy) (.ofOption row.approvedVia) row

/-- The row has a proposer, or the surface's map does not name one. -/
def Clean (b : ReceiptBuilder) (row : ApprovalRow) : Prop :=
  match b with
  | approve audit _ _ => stampedProposer row ≠ none ∨ "proposed_by_profile" ∉ audit.extra.map Prod.fst
  | backfill .. => True

end ReceiptBuilder

theorem entry_details (b : ReceiptBuilder) (tsIso : String) (i : Nat) (row : ApprovalRow) :
    (b.entry tsIso i row).details = some (b.details i row) := by
  cases b <;> rfl

theorem nodup_details (b : ReceiptBuilder) (tsIso : String) (i : Nat) (row : ApprovalRow) :
    ((b.details i row).map Prod.fst).Nodup :=
  (wf_obj_iff.1 ((b.entry tsIso i row).wf _ (entry_details b tsIso i row))).1

/-- **The map of the surface shows exactly where a typed field is missing.** -/
theorem saysOnly_auditDetails {audit : ApprovalAuditContext} {core : Dict} (hn : (core.map Prod.fst).Nodup) :
    SaysOnly (auditDetails audit core) core ↔
      ∀ k ∈ interpretedKeys, k ∉ core.map Prod.fst → k ∉ audit.extra.map Prod.fst := by
  have hsource : ∀ k ∈ interpretedKeys, k ≠ "source" := by decide
  have hkeys : ∀ k ∈ interpretedKeys, (k ∈ (auditDetails audit core).map Prod.fst ↔
      k ∈ audit.extra.map Prod.fst ∨ k ∈ core.map Prod.fst) := by
    intro k hk
    rw [auditDetails, Dict.mem_keys_merge, Dict.mem_keys_set]
    simp [hsource k hk]
  constructor
  · intro h k hk hcore hextra
    exact hcore ((h k hk).1.1 ((hkeys k hk).2 (.inl hextra)))
  · intro h k hk
    rw [hkeys k hk]
    by_cases hcore : k ∈ core.map Prod.fst
    · refine ⟨⟨fun _ => hcore, .inr⟩, ?_⟩
      obtain ⟨⟨k', v⟩, hm, rfl⟩ := List.mem_map.1 hcore
      rw [auditDetails, Dict.get_merge_of_mem hn hm, Dict.get_of_mem hn hm]
    · have hextra := h k hk hcore
      refine ⟨⟨fun hor => hor.resolve_left hextra, .inr⟩, ?_⟩
      rw [auditDetails, Dict.get_merge_of_notMem _ hcore, Dict.get_set, if_neg (Ne.symm (hsource k hk)),
        Dict.get_of_notMem hextra, Dict.get_of_notMem hcore]

/-- The core of an approval is typed. -/
theorem approveCore_typed (i : Nat) (canonical via : String) (row : ApprovalRow) :
    SaysOnly (approveCore i canonical via row) (typedDetails (.str canonical) (.str via) row) := by
  intro k hk
  simp only [interpretedKeys, List.mem_cons, List.not_mem_nil, or_false] at hk
  rcases hk with rfl | rfl | rfl | rfl | rfl <;> cases hr : stampedProposer row <;>
    simp [approveCore, decisionCore, typedDetails, optionalKey, Dict.get, hr]

theorem backfillCore_typed (i : Nat) (row : ApprovalRow) (inspection : Option String) :
    SaysOnly (backfillCore i row inspection) (typedDetails (.ofOption row.approvedBy) (.ofOption row.approvedVia) row) := by
  intro k hk
  have hp : proposedByProfile (.ofOption row.proposedByProfile) = stampedProposer row := rfl
  simp only [interpretedKeys, List.mem_cons, List.not_mem_nil, or_false] at hk
  rcases hk with rfl | rfl | rfl | rfl | rfl <;> cases hr : stampedProposer row <;> cases inspection <;>
    simp [backfillCore, typedDetails, optionalKey, Dict.get, hp, hr]

theorem SaysOnly.trans {a b c : Dict} (h : SaysOnly a b) (h' : SaysOnly b c) : SaysOnly a c :=
  fun k hk => ⟨(h k hk).1.trans (h' k hk).1, (h k hk).2.trans (h' k hk).2⟩

theorem SaysOnly.symm {a b : Dict} (h : SaysOnly a b) : SaysOnly b a := fun k hk => ⟨(h k hk).1.symm, (h k hk).2.symm⟩

/-- **When a receipt says only what is typed.** -/
theorem saysOnly_iff (b : ReceiptBuilder) (i : Nat) (row : ApprovalRow) :
    SaysOnly (b.details i row) (b.typed row) ↔ b.Clean row := by
  cases b with
  | backfill principal tenant inspection => exact ⟨fun _ => trivial, fun _ => backfillCore_typed i row inspection⟩
  | approve audit canonical via =>
    have hcore := approveCore_typed i canonical via row
    have hnodup : ((approveCore i canonical via row).map Prod.fst).Nodup := nodup_decisionCore _ _ _ _ _ _
    have hiff : SaysOnly (auditDetails audit (approveCore i canonical via row)) (approveCore i canonical via row) ↔ _ :=
      saysOnly_auditDetails hnodup
    have hmissing : ∀ k ∈ interpretedKeys, (k ∉ (approveCore i canonical via row).map Prod.fst ↔
        k = "proposed_by_profile" ∧ stampedProposer row = none) := by
      intro k hk
      simp only [interpretedKeys, List.mem_cons, List.not_mem_nil, or_false] at hk
      rcases hk with rfl | rfl | rfl | rfl | rfl <;> cases hr : stampedProposer row <;>
        simp [approveCore, decisionCore, optionalKey, hr]
    constructor
    · intro h
      by_cases hp : stampedProposer row = none
      · exact .inr (hiff.1 (h.trans hcore.symm) "proposed_by_profile" (by decide)
          ((hmissing _ (by decide)).2 ⟨rfl, hp⟩))
      · exact .inl hp
    · intro h
      refine (hiff.2 fun k hk hcorek => ?_).trans hcore
      obtain ⟨rfl, hp⟩ := (hmissing k hk).1 hcorek
      exact h.resolve_left fun hne => hne hp

/-! ## From the receipt to the row -/

/-- What is read of a proposer is read as itself. -/
theorem proposedByProfile_idem (v : Json) : proposedByProfile (.ofOption (proposedByProfile v)) = proposedByProfile v := by
  cases v with
  | str s =>
    unfold proposedByProfile
    by_cases h : stripSpace s = ""
    · simp [h, Json.ofOption]
    · simp [h, Json.ofOption, stripSpace_stripSpace]
  | null | bool b | int n | float x | arr xs | obj kvs => rfl

/-- **The finalizer reads the proposer of the row**, from a receipt that says only what is typed. -/
theorem receiptProposer_typed {b : ReceiptBuilder} {tsIso : String} {i : Nat} {row : ApprovalRow} {t : AuditTable}
    {detailsJson : Option String} {receipt : Receipt} (hs : SaysOnly (b.details i row) (b.typed row))
    (he : encodeDetails d.limits (b.entry tsIso i row).details = .ok detailsJson)
    (hrow : receipt.row = t.newRow (b.entry tsIso i row) detailsJson)
    (hread : readDetails d.limits receipt.row = .ok receipt.details) : receiptProposer receipt = stampedProposer row := by
  have hd : receipt.details = .obj (sortItems (sortKeysMembers (b.details i row))) := by
    rw [hrow, readDetails_newRow (entry_details b tsIso i row) he] at hread
    exact (Except.ok.inj hread).symm
  have hdec : Dict.get (b.details i row) "decision" = .str "approve" := by
    rw [(hs "decision" (by decide)).2]
    cases b <;> rfl
  have hget := Dict.get_sortItems (nodup_details b tsIso i row)
  have hne : sortItems (sortKeysMembers (b.details i row)) ≠ [] := by
    intro hnil
    have := hget "decision"
    rw [hnil, hdec] at this
    cases this
  have hdict : receiptDetails receipt = .ok (sortItems (sortKeysMembers (b.details i row))) := by
    unfold receiptDetails
    rw [hd]
    simp [Json.truthy, hne, asDict]
  have hp : Dict.get (b.details i row) "proposed_by_profile" = .ofOption (stampedProposer row) := by
    rw [(hs "proposed_by_profile" (by decide)).2]
    have htyped : ∀ by' via : Json, Dict.get (typedDetails by' via row) "proposed_by_profile" = .ofOption (stampedProposer row) := by
      intro by' via
      cases hr : stampedProposer row <;> simp [typedDetails, optionalKey, Dict.get, hr, Json.ofOption]
    cases b <;> exact htyped _ _
  unfold receiptProposer
  rw [hdict]
  simp only
  rw [hget, hp]
  have hsort : sortKeys (.ofOption (stampedProposer row)) = .ofOption (stampedProposer row) := by cases stampedProposer row <;> rfl
  rw [hsort]
  exact proposedByProfile_idem _

/-- The adapter keeps what it does not set itself. -/
theorem addMemoryBody_metadata {wing room content : String} {metadata : Dict} {sani : Bool} {cid : Option String}
    {body : MemoryBody} (h : addMemoryBody d wing room content metadata sani cid = .ok body) {k : String}
    (hk : k ∉ ["tags", "importance_score", "wing", "room", "agent", "tenant_id"]) :
    Dict.get body.metadata k = Dict.get metadata k := by
  simp only [List.mem_cons, List.not_mem_nil, or_false, not_or] at hk
  obtain ⟨h1, h2, h3, h4, h5, h6⟩ := hk
  unfold addMemoryBody at h
  simp only at h
  split at h
  · cases h
  · split at h
    · cases h
    · cases h
      rw [Dict.get_merge_of_notMem _ (by simp [h3, h4, h5, h6])]
      split <;> simp [Dict.get_set, Dict.get_erase, h1, Ne.symm h2]

/-- The row names its author, and its provenance says the same. -/
structure AuthoredBy (metadata : Dict) (proposer : Option String) : Prop where
  author : Dict.get metadata "author_agent_id" = .ofOption proposer
  provenance : ∃ provenance, Dict.get metadata "provenance" = .obj provenance ∧
    Dict.get provenance "proposed_by_profile" = .ofOption proposer ∧
    ("proposed_by_profile" ∈ provenance.map Prod.fst ↔ proposer ≠ none)

/-- **The author of a durable row is the proposer that was handed over**, whatever the candidate says. -/
theorem durable_author {candidateJson marker via createdAt conversationId : String} {i : Nat} {proposer : Option String}
    {built : DurablePayload} {profile : AgentProfile} {body : MemoryBody}
    (hbuild : reconstructDurablePayload d candidateJson marker i via proposer createdAt = .ok built)
    (hbody : finalizeWrite d profile built conversationId = .ok body) : AuthoredBy body.metadata proposer := by
  obtain ⟨cand, -, rfl⟩ := reconstruct_ok hbuild
  unfold finalizeWrite at hbody
  split at hbody
  · cases hbody
  · split at hbody
    · cases hbody
    · simp only at hbody
      split at hbody
      · cases hbody
      · constructor
        · rw [addMemoryBody_metadata hbody (by decide)]
          rfl
        · rw [addMemoryBody_metadata hbody (by decide)]
          refine ⟨_, rfl, ?_⟩
          cases proposer with
          | none => exact ⟨rfl, by simp⟩
          | some p => exact ⟨rfl, by simp⟩

/-- What is to hold of a receipt: it says only what is typed, and wherever the gate verifies it for a row, the durable
row that is written names the proposer of the queue column. -/
structure Attributed (d : Deployment) (b : ReceiptBuilder) (tsIso : String) (i : Nat) (row : ApprovalRow) : Prop where
  fields : SaysOnly (b.details i row) (b.typed row)
  durable : ∀ (t log : AuditTable) (detailsJson : Option String) (claimed : ApprovalRow) (receipt : Receipt),
    encodeDetails d.limits (b.entry tsIso i row).details = .ok detailsJson →
    t.newRow (b.entry tsIso i row) detailsJson ∈ log.rows →
    claimed.auditReceiptSeq = some (t.newRow (b.entry tsIso i row) detailsJson).seq →
    receiptGateRefusal d (.ok log) i claimed = .ok (.verified receipt) →
    ∀ marker via createdAt conversationId profile built body,
      reconstructDurablePayload d claimed.candidateJson marker i via (receiptProposer receipt) createdAt = .ok built →
      finalizeWrite d profile built conversationId = .ok body → AuthoredBy body.metadata (stampedProposer row)

/-- **When the attribution is server-stamped.** For every candidate, row, context and builder: the receipt says only what
is typed, and the durable row names the profile of the queue column or nobody, if and only if the column names a profile
or the surface's map has no `proposed_by_profile`. -/
theorem attribution_stamped (d : Deployment) (b : ReceiptBuilder) (tsIso : String) (i : Nat) (row : ApprovalRow) :
    Attributed d b tsIso i row ↔ b.Clean row := by
  rw [← saysOnly_iff b i row]
  constructor
  · intro h
    exact h.fields
  · intro hs
    refine ⟨hs, ?_⟩
    intro t log detailsJson claimed receipt he hmem hseq hgate marker via createdAt conversationId profile built body hbuild hbody
    obtain ⟨log', hlog, hholds⟩ := receiptGateRefusal_verified hgate
    obtain rfl : log = log' := Except.ok.inj hlog
    obtain ⟨seq, hseq', hv⟩ := hholds.verified
    obtain ⟨-, -, -, hrow, hrseq, hread⟩ := auditVerifyThrough_ok.1 hv
    rw [hseq] at hseq'
    cases hseq'
    have hnew : receipt.row = t.newRow (b.entry tsIso i row) detailsJson := AuditTable.eq_of_seq hrow hmem hrseq
    rw [← receiptProposer_typed hs he hnew hread]
    exact durable_author hbuild hbody

/-! ## The builders in the system -/

/-- **An approval appends what the builder says**, for the row it reads. -/
theorem approve_entry {w w' : World} {rep : Reply} {q : ServiceCall} {canonical candidateJson : String}
    {proposer : Option String} (h : advance d api w rep (.deciding q) = (w', .appending q canonical candidateJson proposer)) :
    ∃ row, w.outbox.approvals.get q.approvalId = some row ∧ ∀ tsIso,
      decisionEntry q.audit tsIso "approve" q.approvalId canonical q.via (some (candidateFingerprint candidateJson)) proposer =
        (ReceiptBuilder.approve q.audit canonical q.via).entry tsIso q.approvalId row := by
  simp only [advance, advanceDeciding] at h
  split at h
  · cases h
  · split at h
    · cases h
    · rename_i row hrow
      cases h
      exact ⟨row, hrow, fun tsIso => rfl⟩

/-! ## A proposer from the map -/

/-- The surface adds a proposer of its own. -/
def extraContext : ApprovalAuditContext where
  principal := sampleRoot
  tenantAccessed := "t_default"
  source := "http"
  extra := [("proposed_by_profile", .str "mallory")]
  extraWf := wf_obj_iff.2 ⟨by decide, by simp [WF]⟩

def extraBuilder : ReceiptBuilder := .approve extraContext "telegram:1" "telegram"

/-- A row nobody proposed. -/
def unattributedRow : ApprovalRow := queuedRow sampleCandidate "t0" none

def extraDetails : String := String.ofList (encode compact (sortKeys (.obj (extraBuilder.details 1 unattributedRow))))

theorem extraEntry_encodes :
    encodeDetails sampleDeployment.limits (extraBuilder.entry "t1" 1 unattributedRow).details = .ok (some extraDetails) := rfl

/-- The log with the receipt, and the row that is stamped with it. -/
def extraLog : AuditTable := AuditTable.empty.append (extraBuilder.entry "t1" 1 unattributedRow) (some extraDetails)

def extraReceipt : Receipt where
  row := AuditTable.empty.newRow (extraBuilder.entry "t1" 1 unattributedRow) (some extraDetails)
  details := .obj (sortItems (sortKeysMembers (extraBuilder.details 1 unattributedRow)))

def extraRow : ApprovalRow :=
  stampApproved (serviceStamp "telegram" "telegram:1"
    ⟨1, extraReceipt.row.thisHash, candidateFingerprint sampleCandidate⟩ "t2") 1 unattributedRow

theorem extraReceipt_verified : auditVerifyThrough sampleDeployment.limits extraLog 1 = .ok extraReceipt := by
  have hup : extraLog.upTo 1 = extraLog.rows := by
    simp [extraLog, AuditTable.upTo, AuditTable.append, AuditTable.newRow, AuditTable.nextSeq, AuditTable.empty]
  have hlinked : Contiguous 1 extraLog.rows ∧ Chained zeroHash extraLog.rows := append_linked _ _ trivial trivial
  refine auditVerifyThrough_ok.2 ⟨le_refl 1, ?_, ?_, List.mem_singleton_self _, rfl, ?_⟩
  · rw [hup]
    exact hlinked.1
  · rw [hup]
    exact hlinked.2
  · exact readDetails_newRow (entry_details extraBuilder "t1" 1 unattributedRow) extraEntry_encodes

theorem extraReceipt_passes : receiptGateRefusal sampleDeployment (.ok extraLog) 1 extraRow = .ok (.verified extraReceipt) := by
  let receipt : ReceiptTriple := ⟨1, extraReceipt.row.thisHash, candidateFingerprint sampleCandidate⟩
  have hhonest : HonestReceipt sampleDeployment extraLog 1 "telegram" "telegram:1" receipt :=
    ⟨_, List.mem_singleton_self _, rfl, rfl, attests_decision extraEntry_encodes⟩
  have hagrees : Agrees sampleDeployment extraLog 1 extraRow := agrees_of_receipt rfl rfl rfl rfl rfl rfl hhonest
  exact gate_of_agrees hagrees rfl extraReceipt_verified rfl

theorem extraReceipt_proposer : receiptProposer extraReceipt = some "mallory" := by
  have hget : Dict.get (extraBuilder.details 1 unattributedRow) "proposed_by_profile" = .str "mallory" := by
    show Dict.get (auditDetails extraContext _) "proposed_by_profile" = _
    rw [auditDetails, Dict.get_merge_of_notMem _ (by decide)]
    rfl
  have hdict : Dict.get (sortItems (sortKeysMembers (extraBuilder.details 1 unattributedRow))) "proposed_by_profile" =
      .str "mallory" := by
    rw [Dict.get_sortItems (nodup_details extraBuilder "t1" 1 unattributedRow), hget]
    rfl
  have hne : sortItems (sortKeysMembers (extraBuilder.details 1 unattributedRow)) ≠ [] := by
    intro hnil
    rw [hnil] at hdict
    cases hdict
  have hdetails : receiptDetails extraReceipt = .ok (sortItems (sortKeysMembers (extraBuilder.details 1 unattributedRow))) := by
    simp [receiptDetails, extraReceipt, Json.truthy, hne, asDict]
  unfold receiptProposer
  rw [hdetails]
  simp only
  rw [hdict]
  decide

/-- **A durable row whose author the surface made up**: the column is empty, the gate verifies the receipt, and the row
is written by `mallory`. -/
theorem extraProposer_written :
    stampedProposer extraRow = none ∧
    receiptGateRefusal sampleDeployment (.ok extraLog) 1 extraRow = .ok (.verified extraReceipt) ∧
    (∃ built body,
      reconstructDurablePayload sampleDeployment extraRow.candidateJson (approvalMarker 1) 1 "telegram"
        (receiptProposer extraReceipt) "t3" = .ok built ∧
      finalizeWrite sampleDeployment finalizerProfile built "approval:1" = .ok body ∧
      Dict.get body.metadata "author_agent_id" = .str "mallory") ∧
    ¬ Attributed sampleDeployment extraBuilder "t1" 1 unattributedRow := by
  refine ⟨rfl, extraReceipt_passes, ?_, fun h => ?_⟩
  · obtain ⟨body, hbody⟩ := sampleWrite_admitted [("memory_id", .str "x"), ("text", .str "tea")] rfl 1 "telegram" "approval:1"
      "t3" (some "mallory")
    have hbuild : reconstructDurablePayload sampleDeployment extraRow.candidateJson (approvalMarker 1) 1 "telegram"
        (receiptProposer extraReceipt) "t3" =
        .ok (durablePayload sampleDeployment [("memory_id", .str "x"), ("text", .str "tea")] (approvalMarker 1) 1 "telegram"
          (some "mallory") "t3") := by
      rw [extraReceipt_proposer]
      exact reconstruct_obj sampleCandidate_loads _ _ _ _ _
    refine ⟨_, body, hbuild, hbody, ?_⟩
    rw [extraReceipt_proposer] at hbuild
    exact (durable_author hbuild hbody).author
  · rcases (attribution_stamped sampleDeployment extraBuilder "t1" 1 unattributedRow).1 h with h | h
    · exact h rfl
    · exact h (by decide)

end Panella
