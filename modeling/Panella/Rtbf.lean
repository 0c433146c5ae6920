import Panella.Finalizer

/-!
# Forgetting: the sidecar scan, the claim, the purge (`panella/client.py`)

| here | there |
| --- | --- |
| `eventPayloadIdentity` | `_event_payload_identity` (:1233-1251) |
| `scanApprovals`, `scanSidecar` | `_scan_sidecar` (:1083-1127) |
| `resolveDivergentUpstreamIds` | `_resolve_divergent_upstream_ids` (:1129-1140) |
| `claimSidecarForRtbf`, `hardDeleteSidecar` | `_claim_sidecar_for_rtbf` (:1173-1210), `_hard_delete_sidecar` (:1142-1171) |

The scan walks the events and then the approvals, and the set of events grows while it walks.
**`scanApprovals_spec`** says what it has found at the end.
-/

namespace Panella

open PyJson

/-! ## The scan -/

/-- `json.loads(text)`, where the strings are only compared: a lone surrogate reads as U+FFFD. -/
def Deployment.loadsMended (d : Deployment) (text : String) : Except PyErr Json :=
  match PyJson.loadsMended d.limits text with
  | .ok v => .ok v
  | .error e => .error (.json e)

/-- `_event_payload_identity`; what does not parse is about nothing. -/
def eventPayloadIdentity (d : Deployment) (payloadJson : String) : Except PyErr (Option String) :=
  match d.loadsMended payloadJson with
  | .error e => if e.isValueOrType then .ok none else .error e
  | .ok (.obj payload) =>
    let ident := Dict.get payload "expected_id"
    if ident.truthy then .ok (some (d.str ident))
    else
      match Dict.get payload "metadata" with
      | .obj m =>
        let memoryId := Dict.get m "memory_id"
        .ok (if memoryId.truthy then some (d.str memoryId) else none)
      | _ => .ok none
  | .ok _ => .ok none

/-- The event is about the drawer. -/
def eventAbout (d : Deployment) (drawerId : String) (ev : MemoryEvent) : Except PyErr Bool :=
  if ev.completedMemoryId = some drawerId then .ok true
  else (eventPayloadIdentity d ev.payloadJson).map fun o => o = some drawerId

/-- The first loop of the scan. -/
def scanEvents (d : Deployment) (drawerId : String) : List (Nat × MemoryEvent) → Except PyErr (List Nat)
  | [] => .ok []
  | (e, ev) :: evs =>
    match eventAbout d drawerId ev with
    | .error x => .error x
    | .ok about => (scanEvents d drawerId evs).map fun es => if about then e :: es else es

/-- `json.loads(candidate_json).get("memory_id") == drawer_id`, where there is such a thing. -/
def candidateNames (d : Deployment) (drawerId candidateJson : String) : Except PyErr Bool :=
  match d.loadsMended candidateJson with
  | .error e => if e.isValueOrType then .ok false else .error e
  | .ok (.obj cand) => .ok ((Dict.get cand "memory_id").isStr drawerId)
  | .ok _ => .ok false

/-- The second loop: the stale approvals, and the events with the ones that are linked from them. -/
def scanApprovals (d : Deployment) (drawerId : String) : List Nat → List (Nat × ApprovalRow) →
    Except PyErr (List Nat × List Nat)
  | eventIds, [] => .ok ([], eventIds)
  | eventIds, (i, row) :: rows =>
    if row.memoryEventId.any eventIds.contains then
      (scanApprovals d drawerId eventIds rows).map fun se => (i :: se.1, se.2)
    else
      match candidateNames d drawerId row.candidateJson with
      | .error e => .error e
      | .ok false => scanApprovals d drawerId eventIds rows
      | .ok true => (scanApprovals d drawerId (eventIds ++ row.memoryEventId.toList) rows).map fun se => (i :: se.1, se.2)

structure SidecarScan where
  staleIds : List Nat
  eventIds : List Nat
  upstreamIds : List String

/-- The ids the events were completed as, other than the drawer's. -/
def upstreamIds (o : Outbox) (drawerId : String) (eventIds : List Nat) : List String :=
  (eventIds.filterMap fun e => (o.events.get e).bind (·.completedMemoryId)).filter fun x => x ≠ "" ∧ x ≠ drawerId

/-- `_scan_sidecar`. -/
def scanSidecar (d : Deployment) (o : Outbox) (drawerId : String) : Except PyErr SidecarScan :=
  match scanEvents d drawerId o.events.rows with
  | .error e => .error e
  | .ok about =>
    match scanApprovals d drawerId about o.approvals.rows with
    | .error e => .error e
    | .ok (staleIds, eventIds) => .ok ⟨staleIds, eventIds, upstreamIds o drawerId eventIds⟩

/-! ## Claim, resolve, purge -/

/-- `UPDATE … SET finalizer_state='rtbf_deleting', finalizer_worker_id='rtbf'`. -/
def claimForRtbf (r : ApprovalRow) : ApprovalRow :=
  { r with finalizerState := some .rtbfDeleting, finalizerWorkerId := some "rtbf" }

/-- The claim of all the rows found. -/
def claimAllForRtbf (o : Outbox) (ids : List Nat) : Outbox :=
  ids.foldl (fun o i => o.updateApproval i (fun _ => true) claimForRtbf) o

/-- `_claim_sidecar_for_rtbf`; a live finalize defers the whole claim. -/
def claimSidecarForRtbf (d : Deployment) (o : Outbox) (drawerId cutoff : String) : Except PyErr (Outbox × List Nat) :=
  match scanSidecar d o drawerId with
  | .error e => .error e
  | .ok scan =>
    match scan.staleIds.find? fun i => o.approvals.hits i (leaseLive cutoff) with
    | some i => .error (.runtimeError ("forget deferred: approval " ++ toString i ++ " finalize in-flight"))
    | none => .ok (claimAllForRtbf o scan.staleIds, scan.staleIds)

/-- `sorted(_resolve_divergent_upstream_ids(drawer_id))`. -/
def resolveDivergentUpstreamIds (d : Deployment) (o : Outbox) (drawerId : String) : Except PyErr (List String) :=
  (scanSidecar d o drawerId).map fun scan => (scan.upstreamIds.dedup).insertionSort (· ≤ ·)

/-- The two `DELETE`s of the purge. -/
def purgeScanned (o : Outbox) (scan : SidecarScan) : Outbox :=
  { o with approvals := o.approvals.delete scan.staleIds, events := o.events.delete scan.eventIds }

/-- `_hard_delete_sidecar`. -/
def hardDeleteSidecar (d : Deployment) (o : Outbox) (drawerId : String) : Except PyErr Outbox :=
  (scanSidecar d o drawerId).map (purgeScanned o)

/-! ## What the scan finds -/

theorem Deployment.loadsMended_eq {d : Deployment} {text : String} (h : '\\' ∉ text.toList) :
    d.loadsMended text = d.loads text := by
  rw [Deployment.loadsMended, PyJson.loadsMended_eq h]
  rfl

/-- **What the second loop finds.** The events only grow; an approval linked to an event the loop
started with is found; a found approval takes its event along; and every new event comes from a
found approval. -/
theorem scanApprovals_spec {d : Deployment} {drawerId : String} {rows : List (Nat × ApprovalRow)} {E S E' : List Nat}
    (h : scanApprovals d drawerId E rows = .ok (S, E')) :
    E ⊆ E' ∧
    (∀ i r, (i, r) ∈ rows → ∀ e ∈ E, r.memoryEventId = some e → i ∈ S) ∧
    (∀ i ∈ S, ∃ r, (i, r) ∈ rows ∧ ∀ e, r.memoryEventId = some e → e ∈ E') ∧
    (∀ e ∈ E', e ∈ E ∨ ∃ i ∈ S, ∃ r, (i, r) ∈ rows ∧ r.memoryEventId = some e) := by
  induction rows generalizing E S E' with
  | nil =>
    cases h
    exact ⟨List.Subset.refl _, by simp, by simp, fun e he => .inl he⟩
  | cons ir rows ih =>
    obtain ⟨i, row⟩ := ir
    simp only [scanApprovals] at h
    by_cases hlink : row.memoryEventId.any E.contains = true
    · -- found through its event
      rw [if_pos hlink] at h
      cases hs : scanApprovals d drawerId E rows with
      | error e => rw [hs] at h; cases h
      | ok se =>
        rw [hs] at h
        cases h
        obtain ⟨h1, h2, h3, h4⟩ := ih (S := se.1) (show _ = Except.ok (se.1, se.2) from hs)
        refine ⟨h1, ?_, ?_, ?_⟩
        · intro j r hj e he hl
          rcases List.mem_cons.1 hj with hj | hj
          · cases hj; exact List.mem_cons_self ..
          · exact List.mem_cons_of_mem _ (h2 j r hj e he hl)
        · intro j hj
          rcases List.mem_cons.1 hj with rfl | hj
          · refine ⟨row, List.mem_cons_self .., fun e he => h1 ?_⟩
            rw [he] at hlink
            simpa using hlink
          · obtain ⟨r, hr, hl⟩ := h3 j hj
            exact ⟨r, List.mem_cons_of_mem _ hr, hl⟩
        · intro e he
          rcases h4 e he with he | ⟨j, hj, r, hr, hl⟩
          · exact .inl he
          · exact .inr ⟨j, List.mem_cons_of_mem _ hj, r, List.mem_cons_of_mem _ hr, hl⟩
    · rw [if_neg hlink] at h
      have hno : ∀ e ∈ E, row.memoryEventId ≠ some e := by
        intro e he hl
        exact hlink (by rw [hl]; simpa using he)
      cases hc : candidateNames d drawerId row.candidateJson with
      | error e => rw [hc] at h; cases h
      | ok named =>
        rw [hc] at h
        cases named with
        | false =>
          obtain ⟨h1, h2, h3, h4⟩ := ih h
          refine ⟨h1, ?_, ?_, ?_⟩
          · intro j r hj e he hl
            rcases List.mem_cons.1 hj with hj | hj
            · cases hj; exact absurd hl (hno e he)
            · exact h2 j r hj e he hl
          · intro j hj
            obtain ⟨r, hr, hl⟩ := h3 j hj
            exact ⟨r, List.mem_cons_of_mem _ hr, hl⟩
          · intro e he
            rcases h4 e he with he | ⟨j, hj, r, hr, hl⟩
            · exact .inl he
            · exact .inr ⟨j, hj, r, List.mem_cons_of_mem _ hr, hl⟩
        | true =>
          -- found by its candidate, and its event is found with it
          simp only at h
          cases hs : scanApprovals d drawerId (E ++ row.memoryEventId.toList) rows with
          | error e => rw [hs] at h; cases h
          | ok se =>
            rw [hs] at h
            cases h
            obtain ⟨h1, h2, h3, h4⟩ := ih (S := se.1) (show _ = Except.ok (se.1, se.2) from hs)
            refine ⟨fun e he => h1 (List.mem_append_left _ he), ?_, ?_, ?_⟩
            · intro j r hj e he hl
              rcases List.mem_cons.1 hj with hj | hj
              · cases hj; exact absurd hl (hno e he)
              · exact List.mem_cons_of_mem _ (h2 j r hj e (List.mem_append_left _ he) hl)
            · intro j hj
              rcases List.mem_cons.1 hj with rfl | hj
              · refine ⟨row, List.mem_cons_self .., fun e he => h1 (List.mem_append_right _ ?_)⟩
                rw [he]
                exact List.mem_singleton_self e
              · obtain ⟨r, hr, hl⟩ := h3 j hj
                exact ⟨r, List.mem_cons_of_mem _ hr, hl⟩
            · intro e he
              rcases h4 e he with he | ⟨j, hj, r, hr, hl⟩
              · rcases List.mem_append.1 he with he | he
                · exact .inl he
                · refine .inr ⟨i, List.mem_cons_self .., row, List.mem_cons_self .., ?_⟩
                  cases hm : row.memoryEventId with
                  | none => rw [hm] at he; cases he
                  | some x => rw [hm] at he; rw [List.mem_singleton.1 he]
              · exact .inr ⟨j, List.mem_cons_of_mem _ hj, r, List.mem_cons_of_mem _ hr, hl⟩

theorem scanSidecar_ok {d : Deployment} {o : Outbox} {drawerId : String} {scan : SidecarScan}
    (h : scanSidecar d o drawerId = .ok scan) :
    ∃ about, scanEvents d drawerId o.events.rows = .ok about ∧
      scanApprovals d drawerId about o.approvals.rows = .ok (scan.staleIds, scan.eventIds) ∧
      scan.upstreamIds = upstreamIds o drawerId scan.eventIds := by
  unfold scanSidecar at h
  split at h
  · cases h
  · rename_i about ha
    split at h
    · cases h
    · rename_i staleIds eventIds hs
      cases h
      exact ⟨about, ha, hs, rfl⟩

/-- A found approval is in the table and takes its event along. -/
theorem scanSidecar_stale {d : Deployment} {o : Outbox} {drawerId : String} {scan : SidecarScan}
    (h : scanSidecar d o drawerId = .ok scan) {i : Nat} (hi : i ∈ scan.staleIds) :
    ∃ r, o.approvals.get i = some r ∧ ∀ e, r.memoryEventId = some e → e ∈ scan.eventIds := by
  obtain ⟨about, -, hs, -⟩ := scanSidecar_ok h
  obtain ⟨r, hr, hl⟩ := (scanApprovals_spec hs).2.2.1 i hi
  exact ⟨r, Table.mem_rows.1 hr, hl⟩

/-- The claim, row by row. -/
theorem get_claimAllForRtbf (o : Outbox) (ids : List Nat) (j : Nat) :
    (claimAllForRtbf o ids).approvals.get j =
      if j ∈ ids then (o.approvals.get j).map claimForRtbf else o.approvals.get j := by
  induction ids generalizing o with
  | nil => simp [claimAllForRtbf]
  | cons i ids ih =>
    have hstep : (o.updateApproval i (fun _ => true) claimForRtbf).approvals.get j =
        if j = i then (o.approvals.get j).map claimForRtbf else o.approvals.get j := by
      simp [Outbox.updateApproval, Table.get_update]
    show (claimAllForRtbf (o.updateApproval i (fun _ => true) claimForRtbf) ids).approvals.get j = _
    rw [ih, hstep]
    by_cases h1 : j = i
    · have hidem : claimForRtbf ∘ claimForRtbf = claimForRtbf := rfl
      simp [h1, hidem]
    · simp [h1]

theorem claimAllForRtbf_events (o : Outbox) (ids : List Nat) : (claimAllForRtbf o ids).events = o.events := by
  induction ids generalizing o with
  | nil => rfl
  | cons i ids ih => exact ih (o.updateApproval i (fun _ => true) claimForRtbf)

theorem claimAllForRtbf_nextId (o : Outbox) (ids : List Nat) :
    (claimAllForRtbf o ids).approvals.nextId = o.approvals.nextId := by
  induction ids generalizing o with
  | nil => rfl
  | cons i ids ih => exact ih (o.updateApproval i (fun _ => true) claimForRtbf)

theorem claimAllForRtbf_history (o : Outbox) (ids : List Nat) : (claimAllForRtbf o ids).history = o.history := by
  induction ids generalizing o with
  | nil => rfl
  | cons i ids ih => exact ih (o.updateApproval i (fun _ => true) claimForRtbf)

theorem claimSidecarForRtbf_ok {d : Deployment} {o o' : Outbox} {drawerId cutoff : String} {ids : List Nat}
    (h : claimSidecarForRtbf d o drawerId cutoff = .ok (o', ids)) :
    o' = claimAllForRtbf o ids ∧ ∃ scan, scanSidecar d o drawerId = .ok scan ∧ scan.staleIds = ids := by
  unfold claimSidecarForRtbf at h
  split at h
  · cases h
  · rename_i scan hs
    split at h
    · cases h
    · cases h
      exact ⟨rfl, scan, hs, rfl⟩

/-- A claim goes through where no found row has a live finalizer. -/
theorem claimSidecarForRtbf_of_scan {d : Deployment} {o : Outbox} {drawerId cutoff : String} {scan : SidecarScan}
    (hs : scanSidecar d o drawerId = .ok scan) (hl : ∀ i ∈ scan.staleIds, o.approvals.hits i (leaseLive cutoff) = false) :
    claimSidecarForRtbf d o drawerId cutoff = .ok (claimAllForRtbf o scan.staleIds, scan.staleIds) := by
  have hf : (scan.staleIds.find? fun i => o.approvals.hits i (leaseLive cutoff)) = none := by
    rw [List.find?_eq_none]
    intro i hi
    rw [hl i hi]
    decide
  simp only [claimSidecarForRtbf, hs, hf]

end Panella
