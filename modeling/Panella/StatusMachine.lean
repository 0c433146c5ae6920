import Panella.RowStep

/-!
# The status machine of an approval

**`Linked`** ties the two tables together: the approved rows and the events are in bijection through
`memory_event_id`. Each kind of step keeps it (`linked_enqueued`, `linked_edits`, `linked_approval`,
`linked_purged`); a purge does because its scan follows the links both ways. The decided statuses
are terminal row by row (`rowChange_terminal`). **`approvalStatus_machine`** is both, over every run.
-/

namespace Panella

open Machine

/-- Approved rows and events match up. -/
structure Linked (o : Outbox) : Prop where
  approved : ∀ i r, o.approvals.get i = some r → (r.status = .approved ↔ r.memoryEventId ≠ none)
  present : ∀ i r e, o.approvals.get i = some r → r.memoryEventId = some e → (o.events.get e).isSome = true
  single : ∀ i j r q e, o.approvals.get i = some r → o.approvals.get j = some q → r.memoryEventId = some e →
    q.memoryEventId = some e → i = j
  owned : ∀ e, (o.events.get e).isSome = true → ∃ i r, o.approvals.get i = some r ∧ r.memoryEventId = some e

/-- Every link leads to an event, and no two approvals share one. -/
structure Joined (o : Outbox) : Prop where
  present : ∀ i r e, o.approvals.get i = some r → r.memoryEventId = some e → (o.events.get e).isSome = true
  single : ∀ i j r q e, o.approvals.get i = some r → o.approvals.get j = some q → r.memoryEventId = some e →
    q.memoryEventId = some e → i = j

theorem Linked.joined {o : Outbox} (h : Linked o) : Joined o := ⟨h.present, h.single⟩

theorem linked_empty : Linked .empty where
  approved i r h := by cases h
  present i r e h := by cases h
  single i j r q e h := by cases h
  owned e h := by cases h

/-! ## What stamps and edits leave alone -/

@[simp] theorem stampProvenance_status (p : ApproveStamp) (r : ApprovalRow) : (stampProvenance p r).status = r.status := by
  unfold stampProvenance; split <;> rfl

@[simp] theorem stampProvenance_event (p : ApproveStamp) (r : ApprovalRow) :
    (stampProvenance p r).memoryEventId = r.memoryEventId := by
  unfold stampProvenance; split <;> rfl

@[simp] theorem stampReceipt_status (p : ApproveStamp) (r : ApprovalRow) : (stampReceipt p r).status = r.status := by
  unfold stampReceipt; split <;> rfl

@[simp] theorem stampReceipt_event (p : ApproveStamp) (r : ApprovalRow) :
    (stampReceipt p r).memoryEventId = r.memoryEventId := by
  unfold stampReceipt; split <;> rfl

/-- The row awaits a decision. -/
def Awaiting (r : ApprovalRow) : Prop := r.status ∈ [ApprovalStatus.pending, .pendingApproval, .deferred]

theorem awaiting_of_open {r : ApprovalRow} (h : openForDecision r = true) : Awaiting r := by
  simp only [openForDecision, Bool.and_eq_true, List.contains_iff_mem] at h
  exact h.1

theorem Awaiting.ne_approved {r : ApprovalRow} (h : Awaiting r) : r.status ≠ .approved := by
  intro he
  rw [Awaiting, he] at h
  exact absurd h (by decide)

theorem Awaiting.ne_rejected {r : ApprovalRow} (h : Awaiting r) : r.status ≠ .rejected := by
  intro he
  rw [Awaiting, he] at h
  exact absurd h (by decide)

section RowEdit

variable {d : Deployment} {s : System} {a : Action} {i : Nat} {r r' : ApprovalRow}

/-- An edit keeps the link, and whether the row is approved. -/
theorem rowEdit_link (h : RowEdit d s a i r r') :
    r'.memoryEventId = r.memoryEventId ∧ (r'.status = .approved ↔ r.status = .approved) := by
  cases h with
  | reapproved => simp
  | decided status x y z hopen hs =>
    refine ⟨rfl, fun h => ?_, fun h => absurd h (awaiting_of_open hopen).ne_approved⟩
    rw [show status = .approved from h] at hs
    exact absurd hs (by decide)
  | resurfaced hs =>
    have hne : r.status ≠ .approved := by rw [hs]; decide
    refine ⟨rfl, ?_, fun h => absurd h hne⟩
    intro h
    cases h
  | kept | sent | backfilled | refused | claimed | recorded | failed | rtbfClaimed => exact ⟨rfl, Iff.rfl⟩

/-- **A decided row keeps its status and its link.** -/
theorem rowChange_terminal (h : RowChange d s a i r r') (hr : r.status = .approved ∨ r.status = .rejected) :
    r'.status = r.status ∧ r'.memoryEventId = r.memoryEventId := by
  have hno : ¬ Awaiting r := fun hw => hr.elim hw.ne_approved hw.ne_rejected
  cases h with
  | approved hp hopen => exact absurd hopen hno
  | edited h =>
    cases h with
    | reapproved => simp
    | decided status x y z hopen => exact absurd (awaiting_of_open hopen) hno
    | resurfaced hs => exact absurd (show Awaiting r by rw [Awaiting, hs]; decide) hno
    | kept | sent | backfilled | refused | claimed | recorded | failed | rtbfClaimed => exact ⟨rfl, rfl⟩

end RowEdit

/-! ## The bijection, step by step -/

section Step

variable {d : Deployment} {s : System} {a : Action} {o' : Outbox}

/-- The rows after an enqueue. -/
theorem get_enqueued {o : Outbox} {candidateJson createdAt : String} {profile : Option String} {i : Nat} {r : ApprovalRow}
    (h : (enqueueApproval o candidateJson createdAt profile).approvals.get i = some r) :
    r = queuedRow candidateJson createdAt profile ∨ o.approvals.get i = some r := by
  have h : (if i = o.approvals.nextId then some (queuedRow candidateJson createdAt profile) else o.approvals.get i) = some r := h
  split at h
  · cases h
    exact .inl rfl
  · exact .inr h

theorem joined_enqueued (hj : Joined s.world.outbox) (h : Enqueued s a o') : Joined o' := by
  obtain ⟨cj, ca, pr, -, rfl⟩ := h
  constructor
  · intro i r e hi he
    rcases get_enqueued hi with rfl | hi
    · cases he
    · exact hj.present i r e hi he
  · intro i j r q e hi hq hr he
    rcases get_enqueued hi with rfl | hi
    · cases hr
    rcases get_enqueued hq with rfl | hq
    · cases he
    · exact hj.single i j r q e hi hq hr he

theorem linked_enqueued (hl : Linked s.world.outbox) (h : Enqueued s a o') : Linked o' := by
  obtain ⟨hpresent, hsingle⟩ := joined_enqueued hl.joined h
  obtain ⟨cj, ca, pr, -, rfl⟩ := h
  refine ⟨?_, hpresent, hsingle, ?_⟩
  · intro i r hi
    rcases get_enqueued hi with rfl | hi
    · simp [queuedRow]
    · exact hl.approved i r hi
  · intro e he
    obtain ⟨i, r, hi, hr⟩ := hl.owned e he
    refine ⟨i, r, ?_, hr⟩
    show (s.world.outbox.approvals.insert _).get i = _
    rw [Table.get_insert, if_neg (Nat.ne_of_lt (Table.lt_of_get hi)), hi]

/-- The row that an edited row was before. -/
theorem edits_back (h : Edits d s a o') {i : Nat} {r' : ApprovalRow} (hi : o'.approvals.get i = some r') :
    ∃ r, s.world.outbox.approvals.get i = some r ∧ r'.memoryEventId = r.memoryEventId ∧
      (r'.status = .approved ↔ r.status = .approved) := by
  cases hr : s.world.outbox.approvals.get i with
  | none => rw [h.absent i hr] at hi; cases hi
  | some r =>
    obtain ⟨q, hq, he⟩ := h.rows i r hr
    rw [hi] at hq
    cases hq
    exact ⟨r, rfl, rowEdit_link he⟩

theorem joined_edits (hj : Joined s.world.outbox) (h : Edits d s a o') : Joined o' := by
  constructor
  · intro i r' e hi hre
    obtain ⟨r, hr, he, -⟩ := edits_back h hi
    rw [h.events]
    exact hj.present i r e hr (he ▸ hre)
  · intro i j r' q' e hi hq' hre hqe
    obtain ⟨r, hr, he, -⟩ := edits_back h hi
    obtain ⟨q, hq, he', -⟩ := edits_back h hq'
    exact hj.single i j r q e hr hq (he ▸ hre) (he' ▸ hqe)

theorem linked_edits (hl : Linked s.world.outbox) (h : Edits d s a o') : Linked o' := by
  obtain ⟨hpresent, hsingle⟩ := joined_edits hl.joined h
  refine ⟨?_, hpresent, hsingle, ?_⟩
  · intro i r' hi
    obtain ⟨r, hr, he, hs⟩ := edits_back h hi
    rw [hs, he]
    exact hl.approved i r hr
  · intro e he
    rw [h.events] at he
    obtain ⟨i, r, hr, hre⟩ := hl.owned e he
    obtain ⟨r', hr', hed⟩ := h.rows i r hr
    exact ⟨i, r', hr', by rw [(rowEdit_link hed).1, hre]⟩

/-- The rows after an approval. -/
theorem get_stamped {o : Outbox} {ev : MemoryEvent} {k : Nat} {p : ApproveStamp} {q : ApprovalRow}
    (hq : o.approvals.get k = some q) {i : Nat} {r' : ApprovalRow}
    (h : ((o.insertEvent ev).updateApproval k (fun _ => true) (stampApproved p o.events.nextId)).approvals.get i = some r') :
    (i = k ∧ r' = stampApproved p o.events.nextId q) ∨ (i ≠ k ∧ o.approvals.get i = some r') := by
  cases hr : o.approvals.get i with
  | none => rw [get_updateApproval_none (o := o.insertEvent _) _ _ hr] at h; cases h
  | some r =>
    rw [get_updateApproval (o := o.insertEvent _) _ _ hr] at h
    by_cases hik : i = k
    · subst hik
      rw [hq] at hr
      cases hr
      rw [if_pos ⟨rfl, rfl⟩] at h
      cases h
      exact .inl ⟨rfl, rfl⟩
    · rw [if_neg (fun hx => hik hx.1)] at h
      cases h
      exact .inr ⟨hik, rfl⟩

/-- The events after an insert. -/
theorem isSome_insertEvent {o : Outbox} {ev : MemoryEvent} {e : Nat} :
    ((o.insertEvent ev).events.get e).isSome = true ↔ e = o.events.nextId ∨ (o.events.get e).isSome = true := by
  show ((o.events.insert ev).get e).isSome = true ↔ _
  rw [Table.get_insert]
  by_cases he : e = o.events.nextId <;> simp [he]

/-- The event of an approval belongs to no row before. -/
theorem Joined.ne_nextId {o : Outbox} (hj : Joined o) {i : Nat} {r : ApprovalRow} (hr : o.approvals.get i = some r) :
    r.memoryEventId ≠ some o.events.nextId := by
  intro he
  have hsome := hj.present i r _ hr he
  rw [o.events.fresh _ (le_refl _)] at hsome
  cases hsome

/-- An event that no approval belongs to changes no link. -/
theorem joined_insertEvent {o : Outbox} (hj : Joined o) (ev : MemoryEvent) : Joined (o.insertEvent ev) where
  present i r e hr he := isSome_insertEvent.2 (.inr (hj.present i r e hr he))
  single := hj.single

theorem joined_approval (hj : Joined s.world.outbox) (h : FirstApproval d s a o') : Joined o' := by
  obtain ⟨k, p, q, payload, text, -, hq, -, -, -, rfl⟩ := h
  constructor
  · intro i r' e hi he
    apply isSome_insertEvent.2
    rcases get_stamped hq hi with ⟨rfl, rfl⟩ | ⟨-, hr⟩
    · cases he
      exact .inl rfl
    · exact .inr (hj.present i r' e hr he)
  · intro i j r' q' e hi hjq hre hqe
    rcases get_stamped hq hi with ⟨rfl, rfl⟩ | ⟨-, hr⟩
    · cases hre
      rcases get_stamped hq hjq with ⟨rfl, -⟩ | ⟨-, hq'⟩
      · rfl
      · exact absurd hqe (hj.ne_nextId hq')
    · rcases get_stamped hq hjq with ⟨rfl, rfl⟩ | ⟨-, hq'⟩
      · cases hqe
        exact absurd hre (hj.ne_nextId hr)
      · exact hj.single i j r' q' e hr hq' hre hqe

/-- The fresh event goes to the one row that is approved. -/
theorem linked_approval (hl : Linked s.world.outbox) (h : FirstApproval d s a o') : Linked o' := by
  obtain ⟨hpresent, hsingle⟩ := joined_approval hl.joined h
  obtain ⟨k, p, q, payload, text, -, hq, hopen, -, -, rfl⟩ := h
  refine ⟨?_, hpresent, hsingle, ?_⟩
  · intro i r' hi
    rcases get_stamped hq hi with ⟨rfl, rfl⟩ | ⟨-, hr⟩
    · simp [stampApproved]
    · exact hl.approved i r' hr
  · intro e he
    rcases isSome_insertEvent.1 he with rfl | he
    · exact ⟨k, _, get_updateApproval (o := s.world.outbox.insertEvent _) _ _ hq, by simp [stampApproved]⟩
    · obtain ⟨i, r, hr, hre⟩ := hl.owned e he
      have hik : i ≠ k := by
        rintro rfl
        rw [hq] at hr
        cases hr
        have hne : q.status ≠ .approved := Awaiting.ne_approved hopen
        rw [Ne, hl.approved i q hq, hre] at hne
        exact hne (by simp)
      refine ⟨i, r, ?_, hre⟩
      rw [get_updateApproval (o := s.world.outbox.insertEvent _) _ _ hr, if_neg (fun hx => hik hx.1)]

/-- **What a purge takes is closed under the links**: an approval goes exactly when its event goes. -/
theorem stale_iff_event {o : Outbox} (hj : Joined o) {drawerId : String} {scan : SidecarScan}
    (hs : scanSidecar d o drawerId = .ok scan) {i e : Nat} {r : ApprovalRow}
    (hr : o.approvals.get i = some r) (he : r.memoryEventId = some e) : i ∈ scan.staleIds ↔ e ∈ scan.eventIds := by
  obtain ⟨about, -, hscan, -⟩ := scanSidecar_ok hs
  obtain ⟨-, h2, h3, h4⟩ := scanApprovals_spec hscan
  constructor
  · intro hi
    obtain ⟨r', hr', hl'⟩ := h3 i hi
    rw [Table.mem_rows, hr] at hr'
    cases hr'
    exact hl' e he
  · intro hmem
    rcases h4 e hmem with ha | ⟨j, hjm, q, hq, hqe⟩
    · exact h2 i r (Table.mem_rows.2 hr) e ha he
    · rw [hj.single i j r q e hr (Table.mem_rows.1 hq) he hqe]
      exact hjm

/-- The rows and the events that a purge leaves. -/
theorem get_purgeScanned {o : Outbox} {scan : SidecarScan} {i : Nat} {r : ApprovalRow} :
    (purgeScanned o scan).approvals.get i = some r ↔ i ∉ scan.staleIds ∧ o.approvals.get i = some r := by
  show (o.approvals.delete scan.staleIds).get i = some r ↔ _
  rw [Table.get_delete]
  by_cases hi : i ∈ scan.staleIds <;> simp [hi]

theorem get_event_purgeScanned {o : Outbox} {scan : SidecarScan} {e : Nat} {ev : MemoryEvent} :
    (purgeScanned o scan).events.get e = some ev ↔ e ∉ scan.eventIds ∧ o.events.get e = some ev := by
  show (o.events.delete scan.eventIds).get e = some ev ↔ _
  rw [Table.get_delete]
  by_cases he : e ∈ scan.eventIds <;> simp [he]

theorem joined_purgeScanned {o : Outbox} (hj : Joined o) {drawerId : String} {scan : SidecarScan}
    (hs : scanSidecar d o drawerId = .ok scan) : Joined (purgeScanned o scan) := by
  constructor
  · intro i r e hi he
    obtain ⟨hni, hr⟩ := get_purgeScanned.1 hi
    obtain ⟨ev, hev⟩ := Option.isSome_iff_exists.1 (hj.present i r e hr he)
    have hne : e ∉ scan.eventIds := fun hm => hni ((stale_iff_event hj hs hr he).2 hm)
    rw [get_event_purgeScanned.2 ⟨hne, hev⟩]
    rfl
  · intro i j r q e hi hq hre hqe
    exact hj.single i j r q e (get_purgeScanned.1 hi).2 (get_purgeScanned.1 hq).2 hre hqe

theorem linked_purged (hl : Linked s.world.outbox) (h : Purged d s a o') : Linked o' := by
  obtain ⟨t, rep, f, er, scan, -, -, hs, rfl⟩ := h
  obtain ⟨hpresent, hsingle⟩ := joined_purgeScanned hl.joined hs
  refine ⟨?_, hpresent, hsingle, ?_⟩
  · intro i r hi
    exact hl.approved i r (get_purgeScanned.1 hi).2
  · intro e he
    obtain ⟨ev, hev⟩ := Option.isSome_iff_exists.1 he
    obtain ⟨hne, hev⟩ := get_event_purgeScanned.1 hev
    obtain ⟨i, r, hr, hre⟩ := hl.owned e (by rw [hev]; rfl)
    have hni : i ∉ scan.staleIds := fun hi => hne ((stale_iff_event hl.joined hs hr hre).1 hi)
    exact ⟨i, r, get_purgeScanned.2 ⟨hni, hr⟩, hre⟩

end Step

variable {d : Deployment} {api : StoreApi}

/-- **Every step keeps the bijection.** -/
theorem linked_step {s : System} (hl : Linked s.world.outbox) (a : Action) : Linked (step d api s a).world.outbox := by
  rcases outbox_step d api s a with h | h | h | h
  · exact linked_enqueued hl h
  · exact linked_purged hl h
  · exact linked_approval hl h
  · exact linked_edits hl h

theorem linked_runs {s : System} (hl : Linked s.world.outbox) (as : List Action) :
    Linked (runs d api s as).world.outbox :=
  run_inv (I := fun s : System => Linked s.world.outbox) (fun _ a h => linked_step h a) hl as

/-! ## Over a run -/

theorem nextId_step (s : System) (a : Action) :
    s.world.outbox.approvals.nextId ≤ (step d api s a).world.outbox.approvals.nextId := by
  rcases outbox_step d api s a with ⟨cj, ca, pr, -, h⟩ | ⟨t, rep, f, e, scan, -, -, -, h⟩ |
    ⟨k, p, q, payload, text, -, -, -, -, -, h⟩ | h
  · rw [h]; exact Nat.le_succ _
  · rw [h]; exact le_refl _
  · rw [h]; exact le_refl _
  · rw [h.nextId]

/-- An approval that is gone stays gone: its id is not given out again. -/
def Gone (s : System) (i : Nat) : Prop := s.world.outbox.approvals.get i = none ∧ i < s.world.outbox.approvals.nextId

theorem gone_step {s : System} {i : Nat} (h : Gone s i) (a : Action) : Gone (step d api s a) i := by
  refine ⟨?_, lt_of_lt_of_le h.2 (nextId_step s a)⟩
  cases hr : (step d api s a).world.outbox.approvals.get i with
  | none => rfl
  | some r =>
    have := (row_new d api h.1 hr).1
    have := h.2
    omega

/-- A decided row keeps its status and its link for as long as it is there. -/
theorem terminal_runs {s : System} {i : Nat} {r : ApprovalRow} (hr : s.world.outbox.approvals.get i = some r)
    (hdec : r.status = .approved ∨ r.status = .rejected) (as : List Action) {r' : ApprovalRow}
    (hr' : (runs d api s as).world.outbox.approvals.get i = some r') :
    r'.status = r.status ∧ r'.memoryEventId = r.memoryEventId := by
  have key : Gone (runs d api s as) i ∨ ∃ q, (runs d api s as).world.outbox.approvals.get i = some q ∧
      q.status = r.status ∧ q.memoryEventId = r.memoryEventId := by
    refine run_inv (I := fun s : System => Gone s i ∨ ∃ q, s.world.outbox.approvals.get i = some q ∧ q.status = r.status ∧
      q.memoryEventId = r.memoryEventId) ?_ (.inr ⟨r, hr, rfl, rfl⟩) as
    rintro s a (hg | ⟨q, hq, h1, h2⟩)
    · exact .inl (gone_step hg a)
    · rcases row_step d api a hq with ⟨q', hq', hc⟩ | ⟨hn, -⟩
      · obtain ⟨h3, h4⟩ := rowChange_terminal hc (h1 ▸ hdec)
        exact .inr ⟨q', hq', h3.trans h1, h4.trans h2⟩
      · exact .inl ⟨hn, lt_of_lt_of_le (Table.lt_of_get hq) (nextId_step s a)⟩
  rcases key with hg | ⟨q, hq, h⟩
  · rw [hg.1] at hr'; cases hr'
  · rw [hr'] at hq
    cases hq
    exact h

/-- A row that is approved in a step gets an event that was not there. -/
theorem approval_inserts {s : System} (hl : Linked s.world.outbox) (a : Action) {i : Nat} {r' : ApprovalRow}
    (hr' : (step d api s a).world.outbox.approvals.get i = some r') (hs : r'.status = .approved)
    (hbefore : ∀ r, s.world.outbox.approvals.get i = some r → r.status ≠ .approved) :
    ∃ e, r'.memoryEventId = some e ∧ s.world.outbox.events.get e = none ∧
      ((step d api s a).world.outbox.events.get e).isSome = true := by
  have hl' : Linked (step d api s a).world.outbox := linked_step hl a
  cases hr : s.world.outbox.approvals.get i with
  | none =>
    obtain ⟨-, cj, ca, pr, -, rfl⟩ := row_new d api hr hr'
    cases hs
  | some r =>
    rcases row_step d api a hr with ⟨q, hq, hc⟩ | ⟨hn, -⟩
    · rw [hr'] at hq
      cases hq
      cases hc with
      | edited h => exact absurd ((rowEdit_link h).2.1 hs) (hbefore r hr)
      | approved => exact ⟨_, rfl, s.world.outbox.events.fresh _ (le_refl _), hl'.present i _ _ hr' rfl⟩
    · rw [hn] at hr'; cases hr'

/-- **The status machine.** In every state a run from an empty outbox reaches: approved rows and
events are in bijection and no other row has an event; whatever happens next, an approved or rejected
row keeps its status and its link while it is there; and the step that approves a row is the step
that inserts its event. -/
theorem approvalStatus_machine (d : Deployment) (api : StoreApi) (audit : AuditTable) (store : Store) (as : List Action) :
    let s := runs d api (.initial ⟨.empty, audit, store⟩) as
    Linked s.world.outbox ∧
    (∀ bs i r r', s.world.outbox.approvals.get i = some r → r.status = .approved ∨ r.status = .rejected →
      (runs d api s bs).world.outbox.approvals.get i = some r' →
      r'.status = r.status ∧ r'.memoryEventId = r.memoryEventId) ∧
    (∀ a i r', (step d api s a).world.outbox.approvals.get i = some r' → r'.status = .approved →
      (∀ r, s.world.outbox.approvals.get i = some r → r.status ≠ .approved) →
      ∃ e, r'.memoryEventId = some e ∧ s.world.outbox.events.get e = none ∧
        ((step d api s a).world.outbox.events.get e).isSome = true) := by
  have hl : Linked (runs d api (.initial ⟨.empty, audit, store⟩) as).world.outbox := linked_runs linked_empty as
  exact ⟨hl, fun bs i r r' hr hdec hr' => terminal_runs hr hdec bs hr',
    fun a i r' hr' hs hb => approval_inserts hl a hr' hs hb⟩

end Panella
