import Panella.RtbfSticky

/-!
# Receipt and provenance of a row

An approval is stamped twice: with who approved it, first writer wins, and with the receipt of the audit row
that says so, first receipt wins. **`Agrees`** is that the two are about the same decision. Every path stamps
both at once or neither, but for one: a telegram approval may come without a receipt, and a later one, by
another presser, may bring its own. `Drifts` is that step, and **`receipts_agree`** says that the columns agree
through a run exactly when it does not happen.
-/

namespace Panella

open Machine PyJson

variable {d : Deployment} {api : StoreApi}

/-- The log has the receipt, and it says that `by'`, through `via`, approved the candidate of approval `i`. -/
def HonestReceipt (d : Deployment) (t : AuditTable) (i : Nat) (via by' : String) (rc : ReceiptTriple) : Prop :=
  ∃ row ∈ t.rows, row.seq = rc.seq ∧ row.thisHash = rc.thisHash ∧ Attests d.limits row i via by' rc.sha256

theorem HonestReceipt.grows {t t' : AuditTable} {i : Nat} {via by' : String} {rc : ReceiptTriple}
    (h : HonestReceipt d t i via by' rc) (hg : Grows d t t') : HonestReceipt d t' i via by' rc := by
  obtain ⟨row, hrow, h⟩ := h
  exact ⟨row, hg.mem hrow, h⟩

/-- A seq says one thing. -/
theorem HonestReceipt.unique {t : AuditTable} {i : Nat} {via by' via₂ by₂ : String} {rc rc₂ : ReceiptTriple}
    (h : HonestReceipt d t i via by' rc) (h₂ : HonestReceipt d t i via₂ by₂ rc₂) (hs : rc.seq = rc₂.seq) :
    via = via₂ ∧ by' = by₂ := by
  obtain ⟨row, hrow, hseq, -, -, -, details, hd, -, hb, hv, -⟩ := h
  obtain ⟨row₂, hrow₂, hseq₂, -, -, -, details₂, hd₂, -, hb₂, hv₂, -⟩ := h₂
  obtain rfl := AuditTable.eq_of_seq hrow hrow₂ (by rw [hseq, hseq₂, hs])
  rw [hd] at hd₂
  cases hd₂
  rw [hv] at hv₂
  rw [hb] at hb₂
  exact ⟨Json.str.inj hv₂, Json.str.inj hb₂⟩

/-- **The receipt a row carries is about the row's own decision.** -/
def Agrees (d : Deployment) (t : AuditTable) (i : Nat) (r : ApprovalRow) : Prop :=
  ∀ seq, r.auditReceiptSeq = some seq → ∃ via by' rc, r.approvedVia = some via ∧ r.approvedBy = some by' ∧ rc.seq = seq ∧
    r.auditReceiptHash = some rc.thisHash ∧ r.candidateSha256 = some rc.sha256 ∧
    rc.sha256 = candidateFingerprint r.candidateJson ∧ HonestReceipt d t i via by' rc

def AllAgree (d : Deployment) (s : System) : Prop :=
  ∀ i r, s.world.outbox.approvals.get i = some r → Agrees d s.world.audit i r

/-- A receipt that is passed in was appended for its own presser, transport, approval and candidate. -/
def HonestReceipts (d : Deployment) (s : System) (a : Action) : Prop :=
  ∀ i presser tg rc now, a = .op (.approveTelegram i presser tg (some rc) now) →
    HonestReceipt d s.world.audit i "telegram" ("telegram:" ++ presser) rc

/-- A telegram approval brings a receipt to a row without one that somebody else has approved before. -/
def Drifts (d : Deployment) (s : System) (a : Action) : Prop :=
  ∃ i presser tg rc now r, a = .op (.approveTelegram i presser tg (some rc) now) ∧
    TelegramBound d s.world.outbox i presser tg (some rc) ∧ s.world.outbox.approvals.get i = some r ∧
    alreadyApproved r ≠ none ∧ rc.sha256 = candidateFingerprint r.candidateJson ∧ r.auditReceiptSeq = none ∧
    r.approvedVia ≠ none ∧ ¬ (r.approvedVia = some "telegram" ∧ r.approvedBy = some ("telegram:" ++ presser))

theorem Agrees.grows {t t' : AuditTable} {i : Nat} {r : ApprovalRow} (h : Agrees d t i r) (hg : Grows d t t') :
    Agrees d t' i r := by
  intro seq hseq
  obtain ⟨via, by', rc, h1, h2, h3, h4, h5, h6, h7⟩ := h seq hseq
  exact ⟨via, by', rc, h1, h2, h3, h4, h5, h6, h7.grows hg⟩

theorem agrees_of_none {t : AuditTable} {i : Nat} {r : ApprovalRow} (h : r.auditReceiptSeq = none) : Agrees d t i r := by
  intro seq hseq
  rw [h] at hseq
  cases hseq

theorem agrees_of_receipt {t : AuditTable} {i : Nat} {r : ApprovalRow} {via by' : String} {rc : ReceiptTriple}
    (h1 : r.approvedVia = some via) (h2 : r.approvedBy = some by') (h3 : r.auditReceiptSeq = some rc.seq)
    (h4 : r.auditReceiptHash = some rc.thisHash) (h5 : r.candidateSha256 = some rc.sha256)
    (h6 : rc.sha256 = candidateFingerprint r.candidateJson) (h7 : HonestReceipt d t i via by' rc) : Agrees d t i r := by
  intro seq hseq
  rw [h3] at hseq
  exact ⟨via, by', rc, h1, h2, Option.some.inj hseq, h4, h5, h6, h7⟩

/-! ## The two stamps -/

theorem stampProvenance_of_some {p : ApproveStamp} {r : ApprovalRow} (h : r.approvedVia ≠ none) : stampProvenance p r = r :=
  if_neg fun hc => h hc.2

theorem stampReceipt_of_some {p : ApproveStamp} {r : ApprovalRow} (h : r.auditReceiptSeq ≠ none) : stampReceipt p r = r :=
  if_neg fun hc => h hc.2

theorem stampReceipt_of_no_receipt {p : ApproveStamp} {r : ApprovalRow} (h : p.auditReceiptSeq = none) : stampReceipt p r = r :=
  if_neg fun hc => by rw [h] at hc; exact absurd hc.1 (by simp)

theorem stampReceipt_of_none {p : ApproveStamp} {r : ApprovalRow} (hp : p.auditReceiptSeq.isSome = true)
    (h : r.auditReceiptSeq = none) : stampReceipt p r =
      { r with
        auditReceiptSeq := p.auditReceiptSeq, auditReceiptHash := p.auditReceiptHash, candidateSha256 := p.candidateSha256 } :=
  if_pos ⟨hp, h⟩

@[simp] theorem stampProvenance_seq (p : ApproveStamp) (r : ApprovalRow) :
    (stampProvenance p r).auditReceiptSeq = r.auditReceiptSeq := by
  unfold stampProvenance; split <;> rfl

@[simp] theorem stampProvenance_candidate (p : ApproveStamp) (r : ApprovalRow) :
    (stampProvenance p r).candidateJson = r.candidateJson := by
  unfold stampProvenance; split <;> rfl

section Row

variable {s : System} {a : Action} {i : Nat} {r r' : ApprovalRow}

/-- A telegram approval of an approved row: a receipt only lands on a row that the presser has approved. -/
theorem agrees_reapproved {presser : String} {tg : Option Int} {receipt : Option ReceiptTriple} {now : String}
    (h : Agrees d s.world.audit i r) (hget : s.world.outbox.approvals.get i = some r)
    (hb : TelegramBound d s.world.outbox i presser tg receipt) (hdone : alreadyApproved r ≠ none)
    (hsha : ∀ sha ∈ (telegramStamp presser tg receipt now).candidateSha256, sha = candidateFingerprint r.candidateJson)
    (hhonest : HonestReceipts d s (.op (.approveTelegram i presser tg receipt now)))
    (hdrift : ¬ Drifts d s (.op (.approveTelegram i presser tg receipt now))) :
    Agrees d s.world.audit i
      (stampReceipt (telegramStamp presser tg receipt now) (stampProvenance (telegramStamp presser tg receipt now) r)) := by
  by_cases hseq : r.auditReceiptSeq = none
  · cases receipt with
    | none =>
      rw [stampReceipt_of_no_receipt rfl]
      exact agrees_of_none (by rw [stampProvenance_seq, hseq])
    | some rc =>
      have hfp : rc.sha256 = candidateFingerprint r.candidateJson := hsha rc.sha256 rfl
      have hrc := hhonest i presser tg rc now rfl
      rw [stampReceipt_of_none rfl (by rw [stampProvenance_seq, hseq])]
      by_cases hvia : r.approvedVia = none
      · have hprov : stampProvenance (telegramStamp presser tg (some rc) now) r =
            { r with
              approvedVia := some "telegram", approvedBy := some ("telegram:" ++ presser)
              approvedTgMessageId := tg.or r.approvedTgMessageId } := if_pos ⟨rfl, hvia⟩
        rw [hprov]
        exact agrees_of_receipt rfl rfl rfl rfl rfl hfp hrc
      · have hown : r.approvedVia = some "telegram" ∧ r.approvedBy = some ("telegram:" ++ presser) := by
          by_contra hno
          exact hdrift ⟨i, presser, tg, rc, now, r, rfl, hb, hget, hdone, hfp, hseq, hvia, hno⟩
        rw [stampProvenance_of_some hvia]
        exact agrees_of_receipt hown.1 hown.2 rfl rfl rfl hfp hrc
  · rw [stampReceipt_of_some (by rw [stampProvenance_seq]; exact hseq)]
    obtain ⟨seq, hs⟩ := Option.ne_none_iff_exists'.1 hseq
    obtain ⟨via, by', rc, hv, -⟩ := h seq hs
    rw [stampProvenance_of_some (by rw [hv]; simp)]
    exact h

/-- The receipts that service calls are about to stamp. -/
def StampsHonest (d : Deployment) (s : System) : Prop :=
  ∀ t q canonical rc, s.calls t = .stamping q canonical rc → HonestReceipt d s.world.audit q.approvalId q.via canonical rc

/-- **What becomes of a row agrees**, as long as the step does not drift. -/
theorem agrees_change (h : Agrees d s.world.audit i r) (hget : s.world.outbox.approvals.get i = some r)
    (hstamps : StampsHonest d s) (hhonest : HonestReceipts d s a) (hdrift : ¬ Drifts d s a) (hc : RowChange d s a i r r') :
    Agrees d (step d api s a).world.audit i r' := by
  have hg := audit_step d api s a
  cases hc with
  | approved hp hopen hsha =>
    refine Agrees.grows ?_ hg
    cases hp with
    | raw decidedBy now => exact agrees_of_none rfl
    | @telegram presser tg receipt now hb =>
      cases receipt with
      | none => exact agrees_of_none rfl
      | some rc => exact agrees_of_receipt rfl rfl rfl rfl rfl (hsha rc.sha256 rfl) (hhonest i presser tg rc now rfl)
    | @service t rep q canonical rc hcall hi =>
      subst hi
      exact agrees_of_receipt rfl rfl rfl rfl rfl (hsha rc.sha256 rfl) (hstamps t q canonical rc hcall)
  | edited he =>
    cases he with
    | reapproved hp ha hdone hsha =>
      refine Agrees.grows ?_ hg
      cases hp with
      | raw decidedBy now =>
        rw [stampReceipt_of_no_receipt rfl]
        have hraw : stampProvenance (rawStamp d decidedBy now) r = r := if_neg (by simp [rawStamp])
        rw [hraw]
        exact h
      | telegram now hb => exact agrees_reapproved h hget hb hdone hsha hhonest hdrift
      | service => cases ha
    | @backfilled principal tenant tsIso inspector fault inspection detailsJson ha hel hd hw =>
      simp only [eligibleNull, Bool.and_eq_true, Option.isSome_iff_exists] at hel
      obtain ⟨⟨⟨⟨-, via, hvia⟩, by', hby⟩, -⟩, -⟩ := hel
      have haudit : (step d api s a).world.audit =
          s.world.audit.append (backfillEntry principal tenant tsIso i r inspection) detailsJson := by
        rw [ha]
        exact hw
      rw [haudit]
      have hbackfill : HonestReceipt d (s.world.audit.append (backfillEntry principal tenant tsIso i r inspection) detailsJson)
          i via by' ⟨_, _, _⟩ :=
        ⟨_, List.mem_append_right _ (List.mem_singleton_self _), rfl, rfl, attests_backfill hvia hby hd⟩
      exact agrees_of_receipt hvia hby rfl rfl rfl rfl hbackfill
    | kept | sent | decided | resurfaced | refused | claimed | recorded | failed | rtbfClaimed => exact h.grows hg

end Row

/-! ## One step -/

/-- **A service call's receipt is its own decision's.** -/
theorem stampsHonest_step {s : System} (h : StampsHonest d s) (a : Action) : StampsHonest d (step d api s a) := by
  intro t q canonical rc hc
  have hg := audit_step d api s a
  rcases call_step d api s a t with ⟨he, -⟩ | ⟨st, -, -, he⟩ | ⟨rep, rfl, hm⟩
  · exact (h t q canonical rc (he ▸ hc)).grows hg
  · rw [he] at hc
    cases st <;> cases hc
  · have hno : ∀ {c ids}, Call.stamping q canonical rc = c → c.erasing = some ids → False := by
      rintro c ids rfl he
      cases he
    generalize hb : s.calls t = c0 at hm
    generalize (step d api s (.advance t rep)).calls t = c1 at hm hc
    cases hm with
    | ends he => rw [hc] at he; cases he
    | resolves | cascades => exact (hno hc.symm (cascadeNext_erasing _ _ _)).elim
    | sweepsNothing | sweepDeletes => exact (hno hc.symm (sweepNext_erasing _ _ _)).elim
    | @appends _ _ candidateJson proposer t' seq thisHash ha =>
      have haudit : (step d api s (.advance t rep)).world.audit = t' := by
        show (advance d api s.world rep (s.calls t)).1.audit = t'
        rw [hb]
        simp only [advance, advanceAppending, ha]
      cases hc
      rw [haudit]
      obtain ⟨detailsJson, hd, rfl, rfl, rfl⟩ := appendWithHash_ok ha
      exact ⟨_, List.mem_append_right _ (List.mem_singleton_self _), rfl, rfl, attests_decision hd⟩
    | _ => cases hc

theorem allAgree_step {s : System} {a : Action} (h : AllAgree d s) (hstamps : StampsHonest d s)
    (hhonest : HonestReceipts d s a) (hdrift : ¬ Drifts d s a) : AllAgree d (step d api s a) := by
  intro i r' hr'
  cases hr : s.world.outbox.approvals.get i with
  | none =>
    obtain ⟨-, candidateJson, createdAt, profile, -, rfl⟩ := row_new d api hr hr'
    exact agrees_of_none rfl
  | some r =>
    rcases row_step d api a hr with ⟨q, hq, hc⟩ | ⟨hn, -⟩
    · rw [hr'] at hq
      cases hq
      exact agrees_change (h i r hr) hr hstamps hhonest hdrift hc
    · rw [hn] at hr'
      cases hr'

/-- **A step that drifts breaks the agreement**: the receipt names the later presser, the row the earlier one. -/
theorem not_agree_of_drifts {s : System} {a : Action} (hhonest : HonestReceipts d s a) (h : Drifts d s a) :
    ¬ AllAgree d (step d api s a) := by
  obtain ⟨i, presser, tg, rc, now, r, rfl, hb, hr, hdone, hfp, hseq, hvia, hno⟩ := h
  obtain ⟨e, he⟩ := Option.ne_none_iff_exists'.1 hdone
  have happ : approveAuthorizedTelegramCandidate d s.world.outbox i presser tg (some rc) now = .ok _ :=
    (approveTelegram_of_bound hb now).trans (approveInConn_again hr (by
      intro sha hs
      cases hs
      exact hfp) he)
  have hout : (step d api s (.op (.approveTelegram i presser tg (some rc) now))).world.outbox =
      s.world.outbox.updateApproval i (fun _ => true)
        (stampReceipt (telegramStamp presser tg (some rc) now) ∘ stampProvenance (telegramStamp presser tg (some rc) now)) := by
    show commitOr s.world.outbox (approveAuthorizedTelegramCandidate d s.world.outbox i presser tg (some rc) now) = _
    rw [happ]
    rfl
  intro hall
  have hrow := hall i _ (by rw [hout]; exact get_updateApproval _ _ hr)
  rw [if_pos ⟨rfl, rfl⟩, Function.comp_apply, stampProvenance_of_some hvia, stampReceipt_of_none rfl hseq] at hrow
  obtain ⟨via, by', rc', h1, h2, h3, -, -, -, h4⟩ := hrow rc.seq rfl
  obtain ⟨rfl, rfl⟩ := h4.unique (hhonest i presser tg rc now rfl) h3
  exact hno ⟨h1, h2⟩

/-! ## Over a run -/

theorem agree_runs {s : System} {as : List Action} (h : AllAgree d s) (hstamps : StampsHonest d s)
    (hhonest : Along (step d api) (HonestReceipts d) s as) :
    (∀ cs, cs <+: as → AllAgree d (runs d api s cs)) ↔ Along (step d api) (fun s a => ¬ Drifts d s a) s as := by
  refine prefixes_iff_along (J := StampsHonest d) (fun s a hs _ => stampsHonest_step hs a) (fun s a hs h hhonest => ?_)
    hstamps h hhonest
  exact ⟨fun h' hd => not_agree_of_drifts hhonest hd h', fun hd => allAgree_step h hs hhonest hd⟩

/-- **The gate does not refuse a row that agrees**, once the log verifies up to its receipt and the receipt is of this tenant. -/
theorem gate_of_agrees {t : AuditTable} {i : Nat} {r : ApprovalRow} {receipt : Receipt} {seq : Int} (h : Agrees d t i r)
    (hseq : r.auditReceiptSeq = some seq) (hv : auditVerifyThrough d.limits t seq = .ok receipt)
    (htenant : receipt.row.tenantAccessed = d.defaultTenantId) :
    receiptGateRefusal d (.ok t) i r = .ok (.verified receipt) := by
  obtain ⟨via, by', rc, hvia, hby, rfl, hhash, hsha, hfp, row, hrow, hrs, hrh, hatt⟩ := h seq hseq
  obtain ⟨-, -, hchain, hmem, hrseq, hread⟩ := auditVerifyThrough_ok.1 hv
  obtain rfl := AuditTable.eq_of_seq hmem hrow (by rw [hrseq, hrs])
  have hdigest : ∀ bs : List UInt8, Sha256.hexdigest bs ≠ "" := by
    intro bs he
    have := Sha256.length_hexdigest bs
    rw [he] at this
    cases this
  have hhne : rc.thisHash ≠ "" := by
    rw [← hrh, HashChain.linked_this hchain receipt.row (List.mem_filter.2 ⟨hmem, by simp [hrseq]⟩)]
    exact hdigest _
  have hsne : rc.sha256 ≠ "" := by
    rw [hfp]
    exact hdigest _
  obtain ⟨details, hd, h1, h2, h3, h4⟩ := hatt.details
  rw [hread] at hd
  have hdet : receipt.details = .obj details := Except.ok.inj hd
  have hne : details ≠ [] := by
    rintro rfl
    cases h1
  have hrd : receiptDetails receipt = .ok details := by
    unfold receiptDetails
    rw [hdet]
    simp [Json.truthy, hne, asDict]
  unfold receiptGateRefusal
  simp only [hseq, hhash, hsha, hhne, hsne, or_self, if_false, hv]
  refine checkReceipt_verified.2 ⟨rfl, hrh, hatt.op, hatt.target, htenant, hfp, details, hrd, h1, ?_, ?_, h4⟩
  · rw [hby]; exact h2
  · rw [hvia]; exact h3

/-- **When receipt and provenance agree.** In a run from an empty outbox, with any calls and operations, in which
every receipt passed in was appended for its own presser, transport, approval and candidate: the rows agree with the
audit rows at their seqs in every state if and only if no telegram approval brings a receipt to a row without one
that somebody else has approved before. And a row that agrees passes the receipt gate. -/
theorem receipts_agree (d : Deployment) (api : StoreApi) (audit : AuditTable) (store : Store) (as : List Action)
    (hhonest : Along (step d api) (HonestReceipts d) (.initial ⟨.empty, audit, store⟩) as) :
    ((∀ cs, cs <+: as → AllAgree d (runs d api (.initial ⟨.empty, audit, store⟩) cs)) ↔
      Along (step d api) (fun s a => ¬ Drifts d s a) (.initial ⟨.empty, audit, store⟩) as) ∧
    (∀ t i r seq receipt, Agrees d t i r → r.auditReceiptSeq = some seq → auditVerifyThrough d.limits t seq = .ok receipt →
      receipt.row.tenantAccessed = d.defaultTenantId → receiptGateRefusal d (.ok t) i r = .ok (.verified receipt)) := by
  refine ⟨agree_runs ?_ ?_ hhonest, fun t i r seq receipt h hseq hv htenant => gate_of_agrees h hseq hv htenant⟩
  · intro i r hr
    cases hr
  · intro t q canonical rc hc
    cases hc

/-! ## A run that drifts -/

def sampleContext : ApprovalAuditContext where
  principal := sampleRoot
  tenantAccessed := "t_default"
  source := "telegram"
  extra := []
  extraWf := wf_obj_iff.2 ⟨List.nodup_nil, by simp⟩

/-- What the telegram handler appends when approver 2 presses. -/
def sampleEntry : AuditWrite :=
  decisionEntry sampleContext "t2" "approve" 1 "telegram:2" "telegram" (some (candidateFingerprint sampleCandidate)) none

def sampleDetails : String :=
  String.ofList (encode compact (sortKeys (.obj (auditDetails sampleContext
    (decisionCore "approve" 1 "telegram:2" "telegram" (some (candidateFingerprint sampleCandidate)) none)))))

theorem sampleEntry_encodes : encodeDetails sampleDeployment.limits sampleEntry.details = .ok (some sampleDetails) := rfl

def sampleReceipt : ReceiptTriple :=
  ⟨1, (AuditTable.empty.newRow sampleEntry (some sampleDetails)).thisHash, candidateFingerprint sampleCandidate⟩

theorem sampleReceipt_required : requireReceipt sampleDeployment sampleReceipt = .ok sampleReceipt := by
  have h1 : isSha256Hex sampleReceipt.thisHash = true := isSha256Hex_hexdigest _
  have h2 : isSha256Hex sampleReceipt.sha256 = true := isSha256Hex_hexdigest _
  have h3 : ¬ sampleReceipt.seq < 1 := by decide
  simp [requireReceipt, h1, h2, h3]

theorem sampleReceipt_honest :
    HonestReceipt sampleDeployment (AuditTable.empty.append sampleEntry (some sampleDetails)) 1 "telegram" "telegram:2"
      sampleReceipt :=
  ⟨_, List.mem_append_right _ (List.mem_singleton_self _), rfl, rfl, attests_decision sampleEntry_encodes⟩

/-- Approver 1 approves without a receipt, approver 2 presses too, and the handler has appended a receipt for it. -/
def driftRun : List Action :=
  [.op (.enqueue sampleCandidate "t0" none), .op (.markSent 1 (some 7) none),
   .op (.approveTelegram 1 "1" (some 7) none "t1"), .op (.append sampleEntry)]

theorem driftRun_state : ∃ r o, sampleRun driftRun =
    .initial ⟨o, AuditTable.empty.append sampleEntry (some sampleDetails), .empty⟩ ∧ o.approvals.get 1 = some r ∧
      r.candidateJson = sampleCandidate ∧ r.status = .approved ∧ r.memoryEventId = some 1 ∧ r.auditReceiptSeq = none ∧
      r.approvedVia = some "telegram" ∧ r.approvedBy = some "telegram:1" ∧ r.tgMessageIds = none ∧ r.tgMessageId = some 7 := by
  obtain ⟨payload, text, hp⟩ := sampleCandidate_payload "t1"
  have hrow : (markApprovalSent sampleQueue 1 (some 7) none).approvals.get 1 =
      some { queuedRow sampleCandidate "t0" none with tgMessageId := some 7 } := rfl
  have hb : TelegramBound sampleDeployment (markApprovalSent sampleQueue 1 (some 7) none) 1 "1" (some 7) none :=
    ⟨by decide, rfl, _, [7], hrow, rfl, rfl⟩
  have h1 : step sampleDeployment sampleStoreApi (.initial ⟨.empty, .empty, .empty⟩)
      (.op (.enqueue sampleCandidate "t0" none)) = .initial ⟨sampleQueue, .empty, .empty⟩ := rfl
  have h2 : step sampleDeployment sampleStoreApi (.initial ⟨sampleQueue, .empty, .empty⟩) (.op (.markSent 1 (some 7) none)) =
      .initial ⟨markApprovalSent sampleQueue 1 (some 7) none, .empty, .empty⟩ := rfl
  have h3 := @step_approveTelegram sampleDeployment sampleStoreApi
    (.initial ⟨markApprovalSent sampleQueue 1 (some 7) none, .empty, .empty⟩) 1 "1" "t1" text (some 7) none
    { queuedRow sampleCandidate "t0" none with tgMessageId := some 7 } payload hb hrow (by simp) (by decide) hp
  have hlog : commitWrite sampleDeployment.limits .empty sampleEntry =
      AuditTable.empty.append sampleEntry (some sampleDetails) := by
    unfold commitWrite auditWrite
    rw [sampleEntry_encodes]
  have h4 : ∀ o : Outbox, step sampleDeployment sampleStoreApi (.initial ⟨o, .empty, .empty⟩) (.op (.append sampleEntry)) =
      .initial ⟨o, AuditTable.empty.append sampleEntry (some sampleDetails), .empty⟩ := by
    intro o
    rw [← hlog]
    rfl
  simp only [sampleRun, runs, driftRun, run_cons, run_nil]
  rw [h1, h2, h3]
  exact ⟨_, _, h4 _, get_updateApproval (o := Outbox.insertEvent _ _) _ _ hrow, rfl, rfl, rfl, rfl, rfl, rfl, rfl, rfl⟩

theorem driftRun_honest : Along (step sampleDeployment sampleStoreApi) (HonestReceipts sampleDeployment)
    (.initial ⟨.empty, .empty, .empty⟩) driftRun := by
  refine ⟨?_, ?_, ?_, ?_, trivial⟩
  all_goals
    intro i presser tg rc now h
    cases h

theorem receipts_agree_sample :
    Along (step sampleDeployment sampleStoreApi) (HonestReceipts sampleDeployment) (.initial ⟨.empty, .empty, .empty⟩) driftRun ∧
    ((∀ cs, cs <+: driftRun → AllAgree sampleDeployment (sampleRun cs)) ↔
      Along (step sampleDeployment sampleStoreApi) (fun s a => ¬ Drifts sampleDeployment s a)
        (.initial ⟨.empty, .empty, .empty⟩) driftRun) :=
  ⟨driftRun_honest, (receipts_agree sampleDeployment sampleStoreApi .empty .empty driftRun driftRun_honest).1⟩

/-- **The receipt of approver 2 on the approval of approver 1.** -/
theorem receipt_drifts :
    Along (step sampleDeployment sampleStoreApi) (HonestReceipts sampleDeployment) (.initial ⟨.empty, .empty, .empty⟩)
      (driftRun ++ [.op (.approveTelegram 1 "2" (some 7) (some sampleReceipt) "t3")]) ∧
    ¬ AllAgree sampleDeployment
      (sampleRun (driftRun ++ [.op (.approveTelegram 1 "2" (some 7) (some sampleReceipt) "t3")])) := by
  obtain ⟨r, o, hs, hr, hcand, hstat, hev, hseq, hvia, hby, hids, hid⟩ := driftRun_state
  have hhonest : HonestReceipts sampleDeployment (sampleRun driftRun)
      (.op (.approveTelegram 1 "2" (some 7) (some sampleReceipt) "t3")) := by
    intro i presser tg rc now h
    cases h
    rw [hs]
    exact sampleReceipt_honest
  have hdrift : Drifts sampleDeployment (sampleRun driftRun)
      (.op (.approveTelegram 1 "2" (some 7) (some sampleReceipt) "t3")) := by
    have hb : TelegramBound sampleDeployment o 1 "2" (some 7) (some sampleReceipt) :=
      ⟨by decide, requireOptionalReceipt_some sampleReceipt_required, r, [7], hr, by rw [hids, hid]; rfl, rfl⟩
    rw [hs]
    refine ⟨1, "2", some 7, sampleReceipt, "t3", r, rfl, hb, hr, ?_, ?_, hseq, by rw [hvia]; simp, ?_⟩
    · simp [alreadyApproved, hev, hstat]
    · exact congrArg candidateFingerprint hcand.symm
    · rw [hvia, hby]
      decide
  refine ⟨along_snoc.2 ⟨driftRun_honest, hhonest⟩, ?_⟩
  have h : ¬ AllAgree sampleDeployment (step sampleDeployment sampleStoreApi (sampleRun driftRun) _) :=
    not_agree_of_drifts hhonest hdrift
  simp only [sampleRun, runs, run_snoc] at h ⊢
  exact h

end Panella
