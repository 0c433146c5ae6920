import Panella.FailsClosed
import Panella.ReceiptAgrees

/-!
# The receipt migration (`panella/client_raw.py` :584-757)

| here | there |
| --- | --- |
| `eligibleIds` | the two `SELECT`s on `_ELIGIBLE_NULL_WHERE` |
| `finalizingInspection`, `migrateOne` | `_backfill_one` with `_inspect_finalizing_marker` |
| `Migrating`, `migrateStep` | `migrate_audit_receipts` |

A pass takes a snapshot of ids, goes through it with one outbox transaction an id, and counts what is left. Between two of
its transactions the whole system may take steps, the migrator may die, and a new pass may be started. Inside the
transaction of one id the outbox is locked, but the append to the log commits on its own: what comes after it can
raise, or the process can die there, and then the log keeps the entry and the outbox has nothing (`lost`).

**`migration_sound`** is about every run of the migrator and the system together. The ids the migrator has stamped are
kept beside its state (`stamped`).
-/

namespace Panella

open Machine PyJson

variable {d : Deployment} {api : StoreApi}

/-! ## One row -/

/-- The keyword arguments of a migration. -/
structure MigrationArgs where
  principal : Principal
  tenantAccessed : String

/-- What a transaction of the migrator cannot know. -/
structure MigrationReply where
  tsIso : String
  inspector : Inspector
  /-- The append raises. -/
  fault : Option PyErr := none
  /-- The append has committed, and then something raises or the process dies. -/
  lost : Option PyErr := none

/-- The ids of `_ELIGIBLE_NULL_WHERE`, in order. -/
def eligibleIds (o : Outbox) : List Nat := (o.approvals.rows.filter fun ir => eligibleNull ir.2).map Prod.fst

/-- What the details say of a row in `finalizing`; `none` where the store could not be asked. -/
def finalizingInspection (d : Deployment) (m : MigrationArgs) (st : Store) (inspector : Inspector) (i : Nat) (row : ApprovalRow) :
    Option (Option String) :=
  if row.finalizerState = some .finalizing then
    (inspectFinalizingMarker d st i m.tenantAccessed inspector).map some
  else some none

/-- `_backfill_one`. -/
def migrateOne (d : Deployment) (m : MigrationArgs) (w : World) (r : MigrationReply) (i : Nat) : World × Except PyErr Bool :=
  match w.outbox.approvals.get i with
  | none => (w, .ok false)
  | some row =>
    if !eligibleNull row then (w, .ok false)
    else
      match finalizingInspection d m w.store r.inspector i row with
      | none => (w, .ok false)
      | some inspection =>
        match appendWithHash d w.audit (backfillEntry m.principal m.tenantAccessed r.tsIso i row inspection) r.fault with
        | .error e => (w, .error e)
        | .ok (t, seq, thisHash) =>
          match r.lost with
          | some e => ({ w with audit := t }, .error e)
          | none =>
            ({ w with
                outbox := w.outbox.updateApproval i (fun r => r.auditReceiptSeq.isNone) (stampBackfill seq thisHash)
                audit := t },
              .ok true)

/-! ## A pass -/

/-- `AuditReceiptMigration`. -/
structure AuditReceiptMigration where
  eligible : Nat
  backfilled : Nat
  remaining : Nat
deriving DecidableEq

inductive Migrating
  /-- Not started, or dead. -/
  | stopped
  /-- The snapshot is next. -/
  | started
  /-- The next id is; where none is left, the count. -/
  | backfilling (todo : List Nat) (eligible backfilled : Nat)
  | returned (result : AuditReceiptMigration)
  | raised (e : PyErr)

structure Migration where
  system : System
  call : Migrating
  stamped : List Nat

def Migration.initial (w : World) : Migration := ⟨.initial w, .stopped, []⟩

inductive MigrationAction
  | start
  | advance (r : MigrationReply)
  /-- The process dies between two transactions. -/
  | crash
  | others (a : Action)

/-- A pass can be started. -/
def Migrating.free : Migrating → Bool
  | .stopped | .returned _ | .raised _ => true
  | _ => false

/-- The transaction of one id. -/
def Migration.backfill (d : Deployment) (m : MigrationArgs) (s : Migration) (r : MigrationReply) (i : Nat) (todo : List Nat)
    (eligible backfilled : Nat) : Migration :=
  let out := migrateOne d m s.system.world r i
  { system := { s.system with world := out.1 }
    call :=
      match out.2 with
      | .error e => .raised e
      | .ok true => .backfilling todo eligible (backfilled + 1)
      | .ok false => .backfilling todo eligible backfilled
    stamped :=
      match out.2 with
      | .ok true => s.stamped ++ [i]
      | _ => s.stamped }

/-- One step of the migrator or of the others. -/
def migrateStep (d : Deployment) (api : StoreApi) (m : MigrationArgs) (s : Migration) : MigrationAction → Migration
  | .others a => { s with system := step d api s.system a }
  | .crash => { s with call := .stopped }
  | .start => if s.call.free then { s with call := .started } else s
  | .advance r =>
    match s.call with
    | .started =>
      let ids := eligibleIds s.system.world.outbox
      { s with call := .backfilling ids ids.length 0 }
    | .backfilling [] eligible backfilled =>
      { s with call := .returned ⟨eligible, backfilled, (eligibleIds s.system.world.outbox).length⟩ }
    | .backfilling (i :: todo) eligible backfilled => s.backfill d m r i todo eligible backfilled
    | _ => s

/-! ## Rows with a receipt -/

/-- The row is approved, and the log has the receipt it carries, of this deployment's tenant and in a log that verifies. -/
structure Passing (d : Deployment) (t : AuditTable) (i : Nat) (r : ApprovalRow) : Prop where
  approved : r.status = .approved
  via : r.approvedVia ≠ none
  verified : ∃ receipt, r.auditReceiptSeq = some receipt.row.seq ∧
    auditVerifyThrough d.limits t receipt.row.seq = .ok receipt ∧ receipt.row.tenantAccessed = d.defaultTenantId
  agrees : Agrees d t i r

theorem Passing.gate {t : AuditTable} {i : Nat} {r : ApprovalRow} (h : Passing d t i r) :
    ∃ receipt, receiptGateRefusal d (.ok t) i r = .ok (.verified receipt) := by
  obtain ⟨receipt, hseq, hv, htenant⟩ := h.verified
  exact ⟨receipt, gate_of_agrees h.agrees hseq hv htenant⟩

theorem Passing.grows {t t' : AuditTable} {i : Nat} {r : ApprovalRow} (h : Passing d t i r) (hg : Grows d t t') :
    Passing d t' i r := by
  obtain ⟨receipt, hseq, hv, htenant⟩ := h.verified
  exact ⟨h.approved, h.via, ⟨receipt, hseq, hg.verifies hv, htenant⟩, h.agrees.grows hg⟩

/-- It is a matter of the decision columns. -/
theorem Passing.of_decision {t : AuditTable} {i : Nat} {r r' : ApprovalRow} (h : Passing d t i r)
    (he : r'.decision = r.decision) : Passing d t i r' := by
  have hcj : r'.candidateJson = r.candidateJson := congrArg DecisionColumns.candidateJson he
  have hvia : r'.approvedVia = r.approvedVia := congrArg DecisionColumns.approvedVia he
  have hby : r'.approvedBy = r.approvedBy := congrArg DecisionColumns.approvedBy he
  have hseq : r'.auditReceiptSeq = r.auditReceiptSeq := congrArg DecisionColumns.auditReceiptSeq he
  have hhash : r'.auditReceiptHash = r.auditReceiptHash := congrArg DecisionColumns.auditReceiptHash he
  have hsha : r'.candidateSha256 = r.candidateSha256 := congrArg DecisionColumns.candidateSha256 he
  refine ⟨(congrArg DecisionColumns.status he).trans h.approved, by rw [hvia]; exact h.via, ?_, ?_⟩
  · rw [hseq]
    exact h.verified
  · unfold Agrees
    rw [hvia, hby, hseq, hhash, hsha, hcj]
    exact h.agrees

/-- **An approved row keeps its decision and its receipt**, whatever step is taken. -/
theorem rowChange_receipted {s : System} {a : Action} {i : Nat} {r r' : ApprovalRow} (hc : RowChange d s a i r r')
    (hs : r.status = .approved) (hvia : r.approvedVia ≠ none) (hseq : r.auditReceiptSeq ≠ none) : r'.decision = r.decision := by
  cases hc with
  | approved hp hopen =>
    rw [hs] at hopen
    exact absurd hopen (by decide)
  | edited h =>
    cases h with
    | reapproved =>
      rw [stampReceipt_of_some (by rw [stampProvenance_seq]; exact hseq), stampProvenance_of_some hvia]
    | decided status _ _ _ hopen => simp [openForDecision, hs] at hopen
    | resurfaced h =>
      rw [hs] at h
      cases h
    | backfilled ha he => simp [eligibleNull, hseq] at he
    | kept | sent | refused | claimed | recorded | failed | rtbfClaimed => rfl

/-! ## One step of the migrator -/

section One

variable {m : MigrationArgs} {w : World} {r : MigrationReply} {i : Nat}

/-- **The migrator stamps a row**: it was eligible, it was inspected where it is in `finalizing`, the entry is in the log, and
the row carries the entry's receipt. -/
structure Backfills (d : Deployment) (m : MigrationArgs) (w w' : World) (r : MigrationReply) (i : Nat) (row : ApprovalRow) :
    Prop where
  found : w.outbox.approvals.get i = some row
  eligible : eligibleNull row = true
  stamp : ∃ inspection detailsJson, finalizingInspection d m w.store r.inspector i row = some inspection ∧
    encodeDetails d.limits (backfillEntry m.principal m.tenantAccessed r.tsIso i row inspection).details = .ok detailsJson ∧
    w'.audit = w.audit.append (backfillEntry m.principal m.tenantAccessed r.tsIso i row inspection) detailsJson ∧
    w'.outbox = w.outbox.updateApproval i (fun r => r.auditReceiptSeq.isNone)
      (stampBackfill (w.audit.newRow (backfillEntry m.principal m.tenantAccessed r.tsIso i row inspection) detailsJson).seq
        (w.audit.newRow (backfillEntry m.principal m.tenantAccessed r.tsIso i row inspection) detailsJson).thisHash)

/-- **The transaction of an id** leaves the outbox alone, or stamps the row. -/
theorem migrateOne_cases (d : Deployment) (m : MigrationArgs) (w : World) (r : MigrationReply) (i : Nat) :
    ((migrateOne d m w r i).1.outbox = w.outbox ∧ (migrateOne d m w r i).2 ≠ .ok true) ∨
      ((migrateOne d m w r i).2 = .ok true ∧ ∃ row, Backfills d m w (migrateOne d m w r i).1 r i row) := by
  unfold migrateOne
  cases hr : w.outbox.approvals.get i with
  | none => exact .inl ⟨rfl, by simp⟩
  | some row =>
    dsimp only
    by_cases he : eligibleNull row = true
    · rw [if_neg (by simp [he])]
      cases hi : finalizingInspection d m w.store r.inspector i row with
      | none => exact .inl ⟨rfl, by simp⟩
      | some inspection =>
        dsimp only
        cases ha : appendWithHash d w.audit (backfillEntry m.principal m.tenantAccessed r.tsIso i row inspection) r.fault with
        | error e => exact .inl ⟨rfl, by simp⟩
        | ok tsh =>
          obtain ⟨t, seq, thisHash⟩ := tsh
          obtain ⟨detailsJson, hd, rfl, rfl, rfl⟩ := appendWithHash_ok ha
          cases hl : r.lost with
          | some e => exact .inl ⟨rfl, by simp⟩
          | none => exact .inr ⟨rfl, row, hr, he, inspection, detailsJson, hi, hd, rfl, rfl⟩
    · rw [if_pos (by simpa using he)]
      exact .inl ⟨rfl, by simp⟩

theorem migrateOne_grows (d : Deployment) (m : MigrationArgs) (w : World) (r : MigrationReply) (i : Nat) :
    Grows d w.audit (migrateOne d m w r i).1.audit := by
  unfold migrateOne
  split
  · exact .inl rfl
  · split
    · exact .inl rfl
    · split
      · exact .inl rfl
      · split
        · exact .inl rfl
        · rename_i ha
          have hg := grows_appendWithHash ha
          split <;> exact hg

/-- Where nothing is lost, it is the operation of the running system. -/
theorem migrateOne_world (h : r.lost = none) :
    (migrateOne d m w r i).1 = (Operation.backfill i m.principal m.tenantAccessed r.tsIso r.inspector r.fault).run d w := by
  show _ = { w with
    outbox := (backfillOne d m.principal m.tenantAccessed r.tsIso r.inspector r.fault w.store w.outbox w.audit i).1
    audit := (backfillOne d m.principal m.tenantAccessed r.tsIso r.inspector r.fault w.store w.outbox w.audit i).2 }
  unfold migrateOne backfillOne finalizingInspection
  cases w.outbox.approvals.get i with
  | none => rfl
  | some row =>
    dsimp only
    by_cases he : eligibleNull row = true
    · have hgo : ¬ (!eligibleNull row) = true := by simp [he]
      simp only [if_neg hgo]
      generalize (if row.finalizerState = some .finalizing then
        (inspectFinalizingMarker d w.store i m.tenantAccessed r.inspector).map some else some none) = inspection
      cases inspection with
      | none => rfl
      | some inspection =>
        dsimp only
        cases appendWithHash d w.audit (backfillEntry m.principal m.tenantAccessed r.tsIso i row inspection) r.fault with
        | error e => rfl
        | ok tsh => rw [h]
    · have hstop : (!eligibleNull row) = true := by simpa using he
      simp only [if_pos hstop]

theorem Backfills.get_ne {w' : World} {row : ApprovalRow} (h : Backfills d m w w' r i row) {k : Nat} (hk : k ≠ i) :
    w'.outbox.approvals.get k = w.outbox.approvals.get k := by
  obtain ⟨inspection, detailsJson, -, -, -, ho⟩ := h.stamp
  rw [ho]
  exact Table.get_update_ne _ _ _ hk

/-- **A stamped row passes.** -/
theorem Backfills.passing {w' : World} {row : ApprovalRow} (h : Backfills d m w w' r i row)
    (hlog : Contiguous 1 w.audit.rows ∧ Chained zeroHash w.audit.rows) (htenant : m.tenantAccessed = d.defaultTenantId) :
    ∃ row', w'.outbox.approvals.get i = some row' ∧ Passing d w'.audit i row' := by
  obtain ⟨inspection, detailsJson, -, hd, hw, ho⟩ := h.stamp
  have he := h.eligible
  simp only [eligibleNull, Bool.and_eq_true, decide_eq_true_eq, Option.isSome_iff_exists] at he
  obtain ⟨⟨⟨⟨⟨hs, -⟩, via, hvia⟩, by', hby⟩, -⟩, hnone⟩ := he
  refine ⟨_, by rw [ho, get_updateApproval _ _ h.found, if_pos ⟨rfl, hnone⟩], ?_⟩
  rw [hw]
  have hhonest : HonestReceipt d
      (w.audit.append (backfillEntry m.principal m.tenantAccessed r.tsIso i row inspection) detailsJson) i via by' ⟨_, _, _⟩ :=
    ⟨_, List.mem_append_right _ (List.mem_singleton_self _), rfl, rfl, attests_backfill hvia hby hd⟩
  refine ⟨hs, ?_, ⟨⟨w.audit.newRow _ detailsJson, _⟩, rfl, verifyThrough_append hlog.1 hlog.2 hd, htenant⟩, ?_⟩
  · show row.approvedVia ≠ none
    rw [hvia]
    exact Option.some_ne_none via
  · exact agrees_of_receipt hvia hby rfl rfl rfl rfl hhonest

end One

/-! ## The migrator and the system together -/

/-- The log verifies, and every stamped row that is still there passes the gate. -/
structure Sound (d : Deployment) (s : Migration) : Prop where
  linked : Contiguous 1 s.system.world.audit.rows ∧ Chained zeroHash s.system.world.audit.rows
  passing : ∀ i ∈ s.stamped, i < s.system.world.outbox.approvals.nextId ∧
    ∀ r, s.system.world.outbox.approvals.get i = some r → Passing d s.system.world.audit i r

theorem linked_grows {t t' : AuditTable} (h : Contiguous 1 t.rows ∧ Chained zeroHash t.rows) (hg : Grows d t t') :
    Contiguous 1 t'.rows ∧ Chained zeroHash t'.rows := by
  rcases hg with rfl | ⟨entry, detailsJson, -, rfl⟩
  · exact h
  · exact append_linked entry detailsJson h.1 h.2

/-- **The others** cannot undo a stamp. -/
theorem sound_others {s : Migration} (h : Sound d s) (a : Action) :
    Sound d { s with system := step d api s.system a } where
  linked := linked_grows h.linked (audit_step d api s.system a)
  passing i hi := by
    obtain ⟨hlt, hpass⟩ := h.passing i hi
    refine ⟨lt_of_lt_of_le hlt (nextId_step s.system a), fun r' hr' => ?_⟩
    cases hr : s.system.world.outbox.approvals.get i with
    | none =>
      obtain ⟨he, -⟩ := row_new d api hr hr'
      omega
    | some r =>
      have hp := hpass r hr
      rcases row_step d api a hr with ⟨q, hq, hc⟩ | ⟨hn, -⟩
      · have hq' : r' = q := Option.some.inj (hr'.symm.trans hq)
        subst hq'
        obtain ⟨receipt, hseq, -⟩ := hp.verified
        have hdec := rowChange_receipted hc hp.approved hp.via (by rw [hseq]; simp)
        exact (hp.of_decision hdec).grows (audit_step d api s.system a)
      · have hr' : (step d api s.system a).world.outbox.approvals.get i = some r' := hr'
        rw [hn] at hr'
        cases hr'

/-- **The transaction of an id** stamps a row that passes, and no other. -/
theorem sound_backfill {m : MigrationArgs} {s : Migration} (h : Sound d s) (htenant : m.tenantAccessed = d.defaultTenantId)
    (r : MigrationReply) (i : Nat) (todo : List Nat) (eligible backfilled : Nat) :
    Sound d (s.backfill d m r i todo eligible backfilled) := by
  have hg := migrateOne_grows d m s.system.world r i
  rcases migrateOne_cases d m s.system.world r i with ⟨ho, hne⟩ | ⟨hok, row, hb⟩
  · have hst : (s.backfill d m r i todo eligible backfilled).stamped = s.stamped := by
      show (match (migrateOne d m s.system.world r i).2 with | .ok true => s.stamped ++ [i] | _ => s.stamped) = _
      split
      · rename_i hok
        exact absurd hok hne
      · rfl
    refine ⟨linked_grows h.linked hg, fun k hk => ?_⟩
    rw [hst] at hk
    obtain ⟨hlt, hpass⟩ := h.passing k hk
    show k < (migrateOne d m s.system.world r i).1.outbox.approvals.nextId ∧
      ∀ q, (migrateOne d m s.system.world r i).1.outbox.approvals.get k = some q → _
    rw [ho]
    exact ⟨hlt, fun q hq => (hpass q hq).grows hg⟩
  · have hst : (s.backfill d m r i todo eligible backfilled).stamped = s.stamped ++ [i] := by
      show (match (migrateOne d m s.system.world r i).2 with | .ok true => s.stamped ++ [i] | _ => s.stamped) = _
      rw [hok]
    refine ⟨linked_grows h.linked hg, fun k hk => ?_⟩
    rw [hst] at hk
    show k < (migrateOne d m s.system.world r i).1.outbox.approvals.nextId ∧
      ∀ q, (migrateOne d m s.system.world r i).1.outbox.approvals.get k = some q →
        Passing d (migrateOne d m s.system.world r i).1.audit k q
    generalize migrateOne d m s.system.world r i = out at hg hb ⊢
    obtain ⟨row', hget, hpass⟩ := hb.passing h.linked htenant
    by_cases hki : k = i
    · subst hki
      refine ⟨Table.lt_of_get hget, fun q hq => ?_⟩
      rw [hget] at hq
      cases hq
      exact hpass
    · rcases List.mem_append.1 hk with hk | hk
      · obtain ⟨hlt, hold⟩ := h.passing k hk
        refine ⟨?_, fun q hq => ?_⟩
        · obtain ⟨inspection, detailsJson, -, -, -, ho⟩ := hb.stamp
          rw [ho]
          exact hlt
        · rw [hb.get_ne hki] at hq
          exact (hold q hq).grows hg
      · exact absurd (List.mem_singleton.1 hk) hki

/-- **One step.** -/
theorem sound_step {m : MigrationArgs} (htenant : m.tenantAccessed = d.defaultTenantId) {s : Migration} (h : Sound d s)
    (a : MigrationAction) : Sound d (migrateStep d api m s a) := by
  cases a with
  | others a => exact sound_others h a
  | crash => exact ⟨h.linked, h.passing⟩
  | start =>
    unfold migrateStep
    dsimp only
    split
    · exact ⟨h.linked, h.passing⟩
    · exact h
  | advance r =>
    unfold migrateStep
    dsimp only
    split
    · exact ⟨h.linked, h.passing⟩
    · exact ⟨h.linked, h.passing⟩
    · exact sound_backfill h htenant r _ _ _ _
    · exact h

/-! ## The count -/

/-- Every approved row with an event and a provenance that is neither finalized nor being forgotten has a receipt. -/
def Complete (o : Outbox) : Prop :=
  ∀ i row, o.approvals.get i = some row → row.status = .approved → row.memoryEventId ≠ none → row.approvedVia ≠ none →
    row.approvedBy ≠ none → row.finalizerState ≠ some .finalized → row.finalizerState ≠ some .rtbfDeleting →
    row.auditReceiptSeq ≠ none

theorem mem_eligibleIds {o : Outbox} {i : Nat} :
    i ∈ eligibleIds o ↔ ∃ row, o.approvals.get i = some row ∧ eligibleNull row = true := by
  unfold eligibleIds
  rw [List.mem_map]
  constructor
  · rintro ⟨⟨k, row⟩, hk, rfl⟩
    obtain ⟨hmem, he⟩ := List.mem_filter.1 hk
    exact ⟨row, Table.mem_rows.1 hmem, he⟩
  · rintro ⟨row, hr, he⟩
    exact ⟨(i, row), List.mem_filter.2 ⟨Table.mem_rows.2 hr, he⟩, rfl⟩

/-- **Nothing is left to count exactly when nothing is missing.** -/
theorem complete_iff {o : Outbox} : eligibleIds o = [] ↔ Complete o := by
  rw [List.eq_nil_iff_forall_not_mem]
  constructor
  · intro h i row hr hs he hv hb h1 h2 hseq
    refine h i (mem_eligibleIds.2 ⟨row, hr, ?_⟩)
    have hstate : (finalizerUnclaimed row.finalizerState || row.finalizerState = some .finalizing) = true := by
      cases hf : row.finalizerState with
      | none => rfl
      | some f => cases f <;> simp_all [finalizerUnclaimed]
    simp only [eligibleNull, hs, hseq, hstate, Option.isSome_iff_ne_none.2 he, Option.isSome_iff_ne_none.2 hv,
      Option.isSome_iff_ne_none.2 hb]
    rfl
  · intro h i hi
    obtain ⟨row, hr, he⟩ := mem_eligibleIds.1 hi
    simp only [eligibleNull, Bool.and_eq_true, decide_eq_true_eq, Option.isSome_iff_ne_none, Bool.or_eq_true,
      Option.isNone_iff_eq_none] at he
    obtain ⟨⟨⟨⟨⟨hs, hev⟩, hv⟩, hb⟩, hf⟩, hseq⟩ := he
    have hclaim : row.finalizerState ≠ some .finalized ∧ row.finalizerState ≠ some .rtbfDeleting := by
      constructor
      · intro hx
        rw [hx] at hf
        simp [finalizerUnclaimed] at hf
      · intro hx
        rw [hx] at hf
        simp [finalizerUnclaimed] at hf
    exact h i row hr hs hev hv hb hclaim.1 hclaim.2 hseq

/-! ## Over a run -/

/-- **What holds of the migrator** in a state of a run. -/
structure MigrationSound (d : Deployment) (api : StoreApi) (m : MigrationArgs) (s : Migration) : Prop where
  /-- A row it has stamped has its receipt, and the finalizer's gate accepts it. -/
  gated : ∀ i ∈ s.stamped, ∀ row, s.system.world.outbox.approvals.get i = some row →
    row.auditReceiptSeq ≠ none ∧ ∃ receipt, receiptGateRefusal d (.ok s.system.world.audit) i row = .ok (.verified receipt)
  /-- Its next step leaves a row as it is, or stamps it: a row without a receipt that is neither finalized nor being
  forgotten, and one in `finalizing` only when the store has answered what the marker finds. -/
  step : ∀ a, (∀ b, a ≠ .others b) → ∀ i,
    (migrateStep d api m s a).system.world.outbox.approvals.get i = s.system.world.outbox.approvals.get i ∨
    ∃ r row, a = .advance r ∧ Backfills d m s.system.world (migrateStep d api m s a).system.world r i row ∧
      (migrateStep d api m s a).stamped = s.stamped ++ [i] ∧ row.auditReceiptSeq = none ∧
      row.finalizerState ≠ some .finalized ∧ row.finalizerState ≠ some .rtbfDeleting ∧
      (row.finalizerState = some .finalizing → ∃ fault found, r.inspector = .store fault ∧
        findActiveHashByMarker d s.system.world.store (approvalMarker i) m.tenantAccessed fault = .ok found)
  /-- A pass that ends with nothing remaining leaves a complete outbox, and the next one has nothing to do. -/
  counts : ∀ r result, (∃ eligible backfilled, s.call = .backfilling [] eligible backfilled) →
    (migrateStep d api m s (.advance r)).call = .returned result → result.remaining = 0 →
    Complete (migrateStep d api m s (.advance r)).system.world.outbox ∧
    ∀ r₁ r₂, run (migrateStep d api m) (migrateStep d api m s (.advance r)) [.start, .advance r₁, .advance r₂] =
      { migrateStep d api m s (.advance r) with call := .returned ⟨0, 0, 0⟩ }

theorem migration_step {m : MigrationArgs} {s : Migration} {a : MigrationAction} (ha : ∀ b, a ≠ .others b) (i : Nat) :
    (migrateStep d api m s a).system.world.outbox.approvals.get i = s.system.world.outbox.approvals.get i ∨
    ∃ r row, a = .advance r ∧ Backfills d m s.system.world (migrateStep d api m s a).system.world r i row ∧
      (migrateStep d api m s a).stamped = s.stamped ++ [i] := by
  cases a with
  | others b => exact absurd rfl (ha b)
  | crash => exact .inl rfl
  | start =>
    left
    unfold migrateStep
    dsimp only
    split <;> rfl
  | advance r =>
    unfold migrateStep
    dsimp only
    split
    · exact .inl rfl
    · exact .inl rfl
    · rename_i k todo eligible backfilled hc
      rcases migrateOne_cases d m s.system.world r k with ⟨ho, -⟩ | ⟨hok, row, hb⟩
      · left
        show (migrateOne d m s.system.world r k).1.outbox.approvals.get i = _
        rw [ho]
      · by_cases hk : i = k
        · subst hk
          refine .inr ⟨r, row, rfl, hb, ?_⟩
          show (match (migrateOne d m s.system.world r i).2 with | .ok true => s.stamped ++ [i] | _ => s.stamped) = _
          rw [hok]
        · exact .inl (hb.get_ne hk)
    · exact .inl rfl

/-- What a stamped row was like. -/
theorem Backfills.before {m : MigrationArgs} {w w' : World} {r : MigrationReply} {i : Nat} {row : ApprovalRow}
    (h : Backfills d m w w' r i row) :
    row.auditReceiptSeq = none ∧ row.finalizerState ≠ some .finalized ∧ row.finalizerState ≠ some .rtbfDeleting ∧
      (row.finalizerState = some .finalizing → ∃ fault found, r.inspector = .store fault ∧
        findActiveHashByMarker d w.store (approvalMarker i) m.tenantAccessed fault = .ok found) := by
  have he := h.eligible
  simp only [eligibleNull, Bool.and_eq_true, decide_eq_true_eq, Bool.or_eq_true, Option.isNone_iff_eq_none] at he
  obtain ⟨⟨-, hf⟩, hseq⟩ := he
  refine ⟨hseq, ?_, ?_, fun hx => ?_⟩
  · intro hx
    rw [hx] at hf
    simp [finalizerUnclaimed] at hf
  · intro hx
    rw [hx] at hf
    simp [finalizerUnclaimed] at hf
  · obtain ⟨inspection, -, hi, -⟩ := h.stamp
    unfold finalizingInspection at hi
    rw [if_pos hx] at hi
    cases hins : r.inspector with
    | unavailable =>
      rw [hins] at hi
      cases hi
    | store fault =>
      rw [hins] at hi
      simp only [inspectFinalizingMarker] at hi
      cases hfind : findActiveHashByMarker d w.store (approvalMarker i) m.tenantAccessed fault with
      | error e =>
        rw [hfind] at hi
        cases hi
      | ok found => exact ⟨fault, found, rfl, hfind⟩

theorem migration_counts {m : MigrationArgs} {s : Migration} {r : MigrationReply} {result : AuditReceiptMigration}
    (hc : ∃ eligible backfilled, s.call = .backfilling [] eligible backfilled)
    (hr : (migrateStep d api m s (.advance r)).call = .returned result) (h0 : result.remaining = 0) :
    Complete (migrateStep d api m s (.advance r)).system.world.outbox ∧
    ∀ r₁ r₂, run (migrateStep d api m) (migrateStep d api m s (.advance r)) [.start, .advance r₁, .advance r₂] =
      { migrateStep d api m s (.advance r) with call := .returned ⟨0, 0, 0⟩ } := by
  obtain ⟨eligible, backfilled, hc⟩ := hc
  have hs : migrateStep d api m s (.advance r) =
      { s with call := .returned ⟨eligible, backfilled, (eligibleIds s.system.world.outbox).length⟩ } := by
    unfold migrateStep
    simp only [hc]
  rw [hs] at hr ⊢
  have hids : eligibleIds s.system.world.outbox = [] := by
    cases hr
    exact List.length_eq_zero_iff.1 h0
  refine ⟨complete_iff.1 hids, fun r₁ r₂ => ?_⟩
  simp only [run_cons, run_nil]
  unfold migrateStep
  simp only [Migrating.free, if_true, hids, List.length_nil]

/-- **The receipt migration is sound and restart-safe.** Take any outbox and store and a log that verifies, the deployment's
own tenant, and any run: passes of the migrator, with any faults, killed and started again at any point, also between
an append and its stamp, and any steps of the system in between. Then in every state what it has stamped passes the
gate; its own step only ever stamps an eligible row; and when a pass ends with nothing remaining, nothing is missing
and the next pass does nothing. -/
theorem migration_sound (d : Deployment) (api : StoreApi) (m : MigrationArgs) (w : World) (as : List MigrationAction)
    (hlog : auditVerifyChain w.audit = .ok true) (htenant : m.tenantAccessed = d.defaultTenantId) :
    MigrationSound d api m (run (migrateStep d api m) (.initial w) as) := by
  have hsound : Sound d (run (migrateStep d api m) (.initial w) as) := by
    refine run_inv (I := Sound d) (fun s a h => sound_step htenant h a) ⟨auditVerifyChain_ok.1 hlog, ?_⟩ as
    intro i hi
    cases hi
  refine ⟨fun i hi row hr => ?_, fun a ha i => ?_, fun r result hc hr h0 => migration_counts hc hr h0⟩
  · have hp := (hsound.passing i hi).2 row hr
    obtain ⟨receipt, hseq, -⟩ := hp.verified
    refine ⟨?_, hp.gate⟩
    rw [hseq]
    exact Option.some_ne_none _
  · rcases migration_step (d := d) (m := m) ha i with h | ⟨r, row, hr, hb, hst⟩
    · exact .inl h
    · exact .inr ⟨r, row, hr, hb, hst, hb.before⟩

/-! ## A pass that dies -/

/-- An approval of the time before receipts. -/
def legacyRow : ApprovalRow :=
  { queuedRow sampleCandidate "t0" none with
    status := .approved, memoryEventId := some 1, approvedVia := some "telegram", approvedBy := some "telegram:1" }

def legacyWorld : World where
  outbox := ⟨Table.empty.insert legacyRow, .empty, []⟩
  audit := .empty
  store := .empty

def sampleMigration : MigrationArgs := ⟨sampleRoot, "t_default"⟩

/-- The first pass dies between the append and the stamp, the second one goes through. -/
def restartedPass : List MigrationAction :=
  let reply : MigrationReply := { tsIso := "t1", inspector := .unavailable }
  [.start, .advance reply, .advance { reply with lost := some (.runtimeError "killed") }, .start, .advance reply, .advance reply,
    .advance reply]

theorem migration_restarted :
    MigrationSound sampleDeployment sampleStoreApi sampleMigration
      (run (migrateStep sampleDeployment sampleStoreApi sampleMigration) (.initial legacyWorld) restartedPass) ∧
    (run (migrateStep sampleDeployment sampleStoreApi sampleMigration) (.initial legacyWorld) restartedPass).call =
      .returned ⟨1, 1, 0⟩ :=
  ⟨migration_sound _ _ _ _ _ rfl rfl, rfl⟩

end Panella
