import Panella.Audit
import Panella.Lib.Machine

/-!
# Every log the writer builds verifies

The writers' transactions are `BEGIN IMMEDIATE`, so a history of any number of writers is the list
of their calls in commit order; `auditLog` runs it from the empty table. The row a call appends is
read back field by field (`Records`), and its details through `json.loads` (`readDetails_of_encode`).
**`auditLog_verifies`** puts the parts together.
-/

namespace Panella

open PyJson HashChain Machine

/-- One call on a log: a call that raises commits nothing. -/
def commitWrite (lim : Limits) (t : AuditTable) (w : AuditWrite) : AuditTable :=
  match auditWrite lim t w with
  | .ok (t', _) => t'
  | .error _ => t

/-- The log after a sequence of calls on an empty one. -/
def auditLog (lim : Limits) (ws : List AuditWrite) : AuditTable := run (commitWrite lim) .empty ws

/-- `details` is `None` or `json.dumps` accepts it. -/
def AuditWrite.serializable (lim : Limits) (w : AuditWrite) : Bool := (encodeDetails lim w.details).isOk

/-- The calls that commit; all of them, where all details are JSON-serializable. -/
def committed (lim : Limits) (ws : List AuditWrite) : List AuditWrite := ws.filter (·.serializable lim)

/-- The row holds what the call was given. -/
structure Records (lim : Limits) (w : AuditWrite) (r : AuditRow) : Prop where
  tsIso : r.tsIso = w.tsIso
  principalId : r.principalId = w.principalId
  tenantAccessed : r.tenantAccessed = w.tenantAccessed
  op : r.op = w.op
  targetId : r.targetId = w.targetId
  reasonCode : r.reasonCode = w.reasonCode
  detailsJson : encodeDetails lim w.details = .ok r.detailsJson

theorem commitWrite_eq (lim : Limits) (t : AuditTable) (w : AuditWrite) :
    (w.serializable lim = false ∧ commitWrite lim t w = t) ∨
    (w.serializable lim = true ∧ ∃ d, encodeDetails lim w.details = .ok d ∧ commitWrite lim t w = t.append w d) := by
  unfold commitWrite auditWrite AuditWrite.serializable
  cases h : encodeDetails lim w.details with
  | error e => exact .inl ⟨rfl, rfl⟩
  | ok d => exact .inr ⟨rfl, d, rfl, rfl⟩

/-! ## The invariant of the log -/

/-- The log is contiguous and linked, and its rows record the committed calls in order. -/
structure LogOf (lim : Limits) (cs : List AuditWrite) (t : AuditTable) : Prop where
  contiguous : Contiguous 1 t.rows
  chained : Chained zeroHash t.rows
  records : List.Forall₂ (Records lim) cs t.rows

theorem logOf_empty (lim : Limits) : LogOf lim [] .empty := ⟨trivial, trivial, .nil⟩

theorem logOf_append {lim : Limits} {cs : List AuditWrite} {t : AuditTable} (h : LogOf lim cs t) {w : AuditWrite}
    {d : Option String} (hd : encodeDetails lim w.details = .ok d) : LogOf lim (cs ++ [w]) (t.append w d) := by
  obtain ⟨hc, hl⟩ := append_linked w d h.contiguous h.chained
  have hr : Records lim w (t.newRow w d) := ⟨rfl, rfl, rfl, rfl, rfl, rfl, hd⟩
  exact ⟨hc, hl, List.rel_append h.records (.cons hr .nil)⟩

theorem logOf_auditLog (lim : Limits) (ws : List AuditWrite) : LogOf lim (committed lim ws) (auditLog lim ws) := by
  refine run_history (I := fun as t => LogOf lim (committed lim as) t) (logOf_empty lim) (fun as w h => ?_) ws
  unfold committed at h ⊢
  rw [List.filter_append]
  rcases commitWrite_eq lim (run (commitWrite lim) .empty as) w with ⟨hs, he⟩ | ⟨hs, d, hd, he⟩
  · rw [he, List.filter_cons_of_neg (by simp [hs]), List.filter_nil, List.append_nil]
    exact h
  · rw [he, List.filter_cons_of_pos hs, List.filter_nil]
    exact logOf_append h hd

/-! ## Reading a row back -/

theorem encode_obj_ne_nil (st : Style) (d : Dict) : encode st (.obj d) ≠ [] := by
  obtain ⟨c, r, h, -⟩ := opens_encode st (.obj d)
  simp [h]

/-- The details of a recorded call, up to the order of the keys; `None` and `{}` both come back as
`{}`. -/
theorem readDetails_of_encode {lim : Limits} {w : AuditWrite} {r : AuditRow}
    (h : encodeDetails lim w.details = .ok r.detailsJson) :
    readDetails lim r = .ok (sortKeys (.obj (w.details.getD []))) := by
  have hwf := w.wf
  unfold readDetails
  generalize r.detailsJson = o at h ⊢
  cases hd : w.details with
  | none => rw [hd] at h; cases h; rfl
  | some d =>
    rw [hd] at h hwf
    cases d with
    | nil => cases h; rfl
    | cons kv d =>
      simp only [encodeDetails] at h
      cases ht : dumps lim compact (.obj (kv :: d)) with
      | error e => rw [ht] at h; cases h
      | ok text =>
        rw [ht] at h
        cases h
        have hne : text ≠ "" := by
          unfold dumps at ht
          split at ht
          · cases ht
          · split at ht
            · cases ht
            · cases ht
              intro he
              have := congrArg String.toList he
              rw [String.toList_ofList] at this
              exact encode_obj_ne_nil compact _ this
        simp only [if_neg hne]
        exact loads_dumps (hwf _ rfl) ht

/-- **A fresh row of a linked log verifies.** -/
theorem verifyThrough_append {lim : Limits} {t : AuditTable} {w : AuditWrite} {detailsJson : Option String}
    (hc : Contiguous 1 t.rows) (hl : Chained zeroHash t.rows) (hd : encodeDetails lim w.details = .ok detailsJson) :
    auditVerifyThrough lim (t.append w detailsJson) (t.newRow w detailsJson).seq =
      .ok ⟨t.newRow w detailsJson, sortKeys (.obj (w.details.getD []))⟩ := by
  have hseq : (t.newRow w detailsJson).seq = t.nextSeq := rfl
  have hone : 1 ≤ t.nextSeq := by
    rw [AuditTable.nextSeq_of_contiguous hc]
    omega
  have hup : (t.append w detailsJson).upTo (t.newRow w detailsJson).seq = (t.append w detailsJson).rows := by
    refine List.filter_eq_self.2 fun r hr => ?_
    rw [decide_eq_true_eq, hseq]
    rcases List.mem_append.1 hr with h | h
    · have := t.lt_nextSeq r h
      omega
    · rw [List.mem_singleton] at h
      rw [h, hseq]
  obtain ⟨hc', hl'⟩ := append_linked w detailsJson hc hl
  refine auditVerifyThrough_ok.2 ⟨by rw [hseq]; exact hone, by rw [hup]; exact hc', by rw [hup]; exact hl', ?_, rfl, ?_⟩
  · exact List.mem_append_right _ (List.mem_singleton_self _)
  · exact readDetails_of_encode hd

/-- What `audit_verify_through` gives back is what the call was given. -/
structure Receipt.Reads (rc : Receipt) (w : AuditWrite) : Prop where
  tsIso : rc.row.tsIso = w.tsIso
  principalId : rc.row.principalId = w.principalId
  tenantAccessed : rc.row.tenantAccessed = w.tenantAccessed
  op : rc.row.op = w.op
  targetId : rc.row.targetId = w.targetId
  reasonCode : rc.row.reasonCode = w.reasonCode
  details : rc.details = sortKeys (.obj (w.details.getD []))

/-- The receipt at a seq of the log. -/
theorem verifyThrough_of_logOf {lim : Limits} {cs : List AuditWrite} {t : AuditTable} (h : LogOf lim cs t) {k : Nat}
    (hk : k < cs.length) :
    ∃ rc, auditVerifyThrough lim t ((k : Int) + 1) = .ok rc ∧ rc.row.seq = (k : Int) + 1 ∧ rc.Reads cs[k] := by
  have hlen := h.records.length_eq
  have hkr : k < t.rows.length := by omega
  have hseq : t.rows[k].seq = (k : Int) + 1 := by rw [contiguous_getElem h.contiguous hkr]; omega
  have hrec : Records lim cs[k] t.rows[k] := h.records.get hk hkr
  have hup : t.upTo ((k : Int) + 1) = t.rows.take (k + 1) := by
    have := AuditTable.upTo_eq_take h.contiguous (k + 1)
    push_cast at this
    exact this
  have htake : Contiguous 1 (t.rows.take (k + 1)) ∧ Chained zeroHash (t.rows.take (k + 1)) := by
    have hc := h.contiguous
    have hl := h.chained
    rw [← List.take_append_drop (k + 1) t.rows] at hc hl
    exact ⟨contiguous_left hc, (linked_append.1 hl).1⟩
  refine ⟨⟨t.rows[k], _⟩, auditVerifyThrough_ok.2 ⟨by omega, by rw [hup]; exact htake.1, by rw [hup]; exact htake.2,
    List.getElem_mem _, hseq, readDetails_of_encode hrec.detailsJson⟩, hseq, ?_⟩
  exact ⟨hrec.tsIso, hrec.principalId, hrec.tenantAccessed, hrec.op, hrec.targetId, hrec.reasonCode, rfl⟩

theorem verifyThrough_outside {lim : Limits} {cs : List AuditWrite} {t : AuditTable} (h : LogOf lim cs t) {k : Int}
    (hk : k < 1 ∨ (cs.length : Int) < k) : ∃ m, auditVerifyThrough lim t k = .error (.chain m) := by
  unfold auditVerifyThrough
  split
  · exact ⟨_, rfl⟩
  · rename_i h1
    split
    · rename_i e he
      obtain ⟨m, rfl⟩ := walk_error he
      exact ⟨m, rfl⟩
    · split
      · exact ⟨_, rfl⟩
      · rename_i r hr
        have hm := (List.mem_filter.1 (List.mem_of_find?_eq_some hr)).1
        have hs : r.seq = k := by simpa using List.find?_some hr
        obtain ⟨i, hi, rfl⟩ := List.getElem_of_mem hm
        rw [contiguous_getElem h.contiguous hi] at hs
        have := h.records.length_eq
        omega

/-- **Every log the writer builds verifies**: its seqs are `1..n`, the full walk succeeds, the
receipt at `k` is the `k`-th committed call, and no seq outside `1..n` has a receipt. -/
theorem auditLog_verifies (lim : Limits) (ws : List AuditWrite) :
    (auditLog lim ws).rows.map AuditRow.seq
      = (List.range (committed lim ws).length).map (fun (i : Nat) => (i : Int) + 1) ∧
    auditVerifyChain (auditLog lim ws) = .ok true ∧
    (∀ k (hk : k < (committed lim ws).length),
      ∃ rc, auditVerifyThrough lim (auditLog lim ws) ((k : Int) + 1) = .ok rc ∧ rc.row.seq = (k : Int) + 1 ∧
        rc.Reads (committed lim ws)[k]) ∧
    (∀ k : Int, k < 1 ∨ ((committed lim ws).length : Int) < k →
      ∃ m, auditVerifyThrough lim (auditLog lim ws) k = .error (.chain m)) := by
  have h := logOf_auditLog lim ws
  refine ⟨?_, auditVerifyChain_ok.2 ⟨h.contiguous, h.chained⟩, fun k hk => verifyThrough_of_logOf h hk,
    fun k hk => verifyThrough_outside h hk⟩
  have hlen := h.records.length_eq
  refine List.ext_getElem (by simp [hlen]) fun i hi _ => ?_
  have hi' : i < (auditLog lim ws).rows.length := by simpa using hi
  rw [List.getElem_map, contiguous_getElem h.contiguous hi', List.getElem_map, List.getElem_range]
  omega

end Panella
