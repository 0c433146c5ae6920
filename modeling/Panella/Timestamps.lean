import Panella.Rtbf
import Panella.Tokens

/-!
# Where the code compares times, it compares their texts

| here | there |
| --- | --- |
| `leaseLive`, `claimable` | the lease test and the claim's `WHERE` of `finalize_approved_candidate` (`approval_finalizer.py` :268-325), the in-flight test of `_claim_sidecar_for_rtbf` (`client.py` :1185-1202) |
| `dueAt` | the `WHERE` of `resurface_deferred_approvals` (`client_raw.py` :899-916) |
| `TokenRow.revoke` | the `CASE` of `TokenStore.revoke` (`http/tokens.py` :139-154) |

A text with a fraction is longer than one without; the order is that of the times all the same (`isoformat_le_iff`).
-/

namespace Panella

open UtcTime

namespace ApprovalRow

/-- The row with a claim taken at `t`. -/
def claimedAt (row : ApprovalRow) (t : DateTime) : ApprovalRow :=
  { row with status := .approved, finalizerState := some .finalizing, finalizerClaimedAt := some t.isoformat }

/-- The row put off until `t`. -/
def deferredUntil (row : ApprovalRow) (t : DateTime) : ApprovalRow :=
  { row with status := .deferred, expiresAt := some t.isoformat }

end ApprovalRow

/-- A claim is live from the cutoff on, for the finalizer and for the RTBF claim. -/
theorem leaseLive_claimedAt (row : ApprovalRow) (cutoff t : DateTime) :
    leaseLive cutoff.isoformat (row.claimedAt t) = decide (cutoff ≤ t) := by
  simp [leaseLive, ApprovalRow.claimedAt, isoformat_le_iff]

/-- It may be taken over before. -/
theorem claimable_claimedAt (row : ApprovalRow) (cutoff t : DateTime) :
    claimable cutoff.isoformat (row.claimedAt t) = !decide (cutoff ≤ t) := by
  have hclaimed : finalizerUnclaimed (some .finalizing) = false := rfl
  simp only [claimable, ApprovalRow.claimedAt, hclaimed, decide_true, Bool.true_and, Bool.false_or, Option.any_some]
  rw [← decide_not, decide_eq_decide, ← isoformat_le_iff, not_le]

theorem dueAt_deferredUntil (row : ApprovalRow) (now t : DateTime) :
    dueAt now.isoformat (row.deferredUntil t) = decide (t ≤ now) := by
  simp [dueAt, ApprovalRow.deferredUntil, isoformat_le_iff]

/-- A revocation leaves the earlier of the two times. -/
theorem revoke_revokedAt (row : TokenRow) (now t : DateTime) :
    (TokenRow.revoke now { row with revokedAt := some t }).revokedAt = some (if t ≤ now then t else now) := by
  simp only [TokenRow.revoke]
  by_cases hle : t ≤ now
  · rw [if_pos hle, if_neg (not_lt.2 ((isoformat_le_iff t now).2 hle))]
  · rw [if_neg hle, if_pos (not_le.1 (mt (isoformat_le_iff t now).1 hle))]

/-- **Timestamp strings order like times**, and each test on them decides as the times do. -/
theorem timestamps_order (a b : DateTime) :
    (a.isoformat ≤ b.isoformat ↔ a ≤ b) ∧ (a.isoformat < b.isoformat ↔ a < b) ∧
      (∀ row : ApprovalRow, leaseLive a.isoformat (row.claimedAt b) = decide (a ≤ b) ∧
        claimable a.isoformat (row.claimedAt b) = !decide (a ≤ b) ∧
        dueAt b.isoformat (row.deferredUntil a) = decide (a ≤ b)) ∧
      ∀ row : TokenRow, (TokenRow.revoke b { row with revokedAt := some a }).revokedAt = some (if a ≤ b then a else b) :=
  ⟨isoformat_le_iff a b, isoformat_lt_iff a b,
    fun row => ⟨leaseLive_claimedAt row a b, claimable_claimedAt row a b, dueAt_deferredUntil row b a⟩,
    fun row => revoke_revokedAt row b a⟩

end Panella
