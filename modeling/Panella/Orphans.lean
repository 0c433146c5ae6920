import Panella.DurableRow
import Panella.OneDurableRow

/-!
# Orphans: durable rows of approvals that are being forgotten

A finalizer that is past its re-check writes its row no matter what has become of the approval. From then on somebody has to
see to that row: the call that wrote it, until it has recorded or removed it (`Call.handles`), or a hard delete that has
claimed the approval and is still to look for the marker (`Call.awaits`), or an operator, once the history says
`orphan_cleanup_pending` (`Noted`). `passed_step` says how a hard delete comes past a row, and `history_step` that what
is noted stays.
-/

namespace Panella

open Machine PyJson PyText

variable {d : Deployment} {api : StoreApi}

/-! ## The history -/

theorem completeEvent_history (o : Outbox) (e : Option Nat) (h now : String) : (o.completeEvent e h now).history = o.history := by
  cases e <;> rfl

theorem approveInConn_history {o o' : Outbox} {i e : Nat} {p : ApproveStamp} (h : approveInConn d o i p = .ok (o', e)) :
    o'.history = o.history := by
  obtain ⟨row, -, -, ⟨-, rfl⟩ | ⟨-, rfl, payload, text, -, rfl⟩⟩ := approveInConn_ok h <;> rfl

theorem recordFinalized_history (o : Outbox) (i : Nat) (workerId contentHash : String) (eventId : Option Nat) (now : String) :
    (recordFinalized o i workerId contentHash eventId now).1.history = o.history := by
  rcases recordFinalized_cases o i workerId contentHash eventId now
    with ⟨cur, -, -, he⟩ | ⟨-, he⟩ | ⟨cur, -, -, -, he⟩ | ⟨cur, -, -, he⟩ | ⟨cur, -, -, -, -, he⟩ <;> rw [he]
  · exact completeEvent_history _ _ _ _
  · exact completeEvent_history _ _ _ _

theorem history_op (d : Deployment) (w : World) (o : Operation) : (o.run d w).outbox.history = w.outbox.history := by
  cases o with
  | approveRaw i decidedBy now =>
    show (commitOr w.outbox (approveQueuedCandidate d w.outbox i decidedBy now)).history = _
    rcases commitOr_cases w.outbox (approveQueuedCandidate d w.outbox i decidedBy now) with h | ⟨o', e, ho, h⟩ <;> rw [h]
    exact approveInConn_history ho
  | approveTelegram i presser tg receipt now =>
    show (commitOr w.outbox (approveAuthorizedTelegramCandidate d w.outbox i presser tg receipt now)).history = _
    rcases commitOr_cases w.outbox (approveAuthorizedTelegramCandidate d w.outbox i presser tg receipt now)
      with h | ⟨o', e, ho, h⟩ <;> rw [h]
    exact approveInConn_history (approveTelegram_ok ho).2
  | updateStatus i status decidedBy now =>
    show (commitOr w.outbox (updateApprovalStatus d w.outbox i status decidedBy now)).history = _
    unfold updateApprovalStatus
    split <;> rfl
  | backfill i principal tenant tsIso inspector fault =>
    show (backfillOne d principal tenant tsIso inspector fault w.store w.outbox w.audit i).1.history = _
    rcases backfillOne_cases d principal tenant tsIso inspector fault w.store w.outbox w.audit i
      with h | ⟨row, inspection, detailsJson, -, -, -, h⟩ <;> rw [h]
    rfl
  | enqueue | markSent | defer | resurface | append | put | drop => rfl

theorem history_advance (d : Deployment) (api : StoreApi) (w : World) (rep : Reply) (c : Call) :
    w.outbox.history <+: (advance d api w rep c).1.outbox.history := by
  have same : ∀ {o' : Outbox}, o'.history = w.outbox.history → w.outbox.history <+: o'.history := fun h => h ▸ List.prefix_rfl
  cases c with
  | gate j =>
    refine same ?_
    show (gateAndClaim d (w.auditView rep) j.args (j.args.worker rep.defaultWorkerId) rep.now rep.cutoff w.outbox).1.history = _
    rcases gateAndClaim_cases d (w.auditView rep) j.args (j.args.worker rep.defaultWorkerId) rep.now rep.cutoff w.outbox
      with ⟨h, -⟩ | ⟨row, message, -, -, -, -, h⟩ | ⟨row, receipt, -, -, -, h⟩ <;> rw [h] <;> rfl
  | recording j c built h => exact same (recordFinalized_history _ _ _ _ _ _)
  | stamping q canonical receipt =>
    refine same ?_
    show (advanceStamping d w q canonical receipt rep).1.outbox.history = _
    unfold advanceStamping
    cases hm : mcpApproveOrRedrive d w.outbox q.approvalId q.via canonical receipt rep.now with
    | error e => rfl
    | ok om =>
      obtain ⟨o', mode⟩ := om
      rcases mcpApprove_ok hm with ⟨rfl, -⟩ | ⟨-, -, e, ha⟩
      · rfl
      · exact approveInConn_history ha
  | forgetting f =>
    refine same ?_
    show (advanceForgetting d w f rep).1.outbox.history = _
    unfold advanceForgetting
    cases hm : claimSidecarForRtbf d w.outbox f.drawerId rep.cutoff with
    | error e => rfl
    | ok oi =>
      obtain ⟨o', ids⟩ := oi
      obtain ⟨rfl, -⟩ := claimSidecarForRtbf_ok hm
      exact claimAllForRtbf_history _ _
  | purging f e =>
    refine same ?_
    show (advancePurging d w f e).1.outbox.history = _
    unfold advancePurging hardDeleteSidecar
    cases scanSidecar d w.outbox f.drawerId <;> rfl
  | posting j c built =>
    refine same ?_
    show (advancePosting d api w j c built rep).1.outbox.history = _
    unfold advancePosting
    split <;> rfl
  | deciding q =>
    refine same ?_
    show (advanceDeciding d w q rep).1.outbox.history = _
    unfold advanceDeciding
    split
    · rw [appendBestEffort_outbox]
    · split
      · rw [appendBestEffort_outbox]
      · rfl
  | appending q canonical candidateJson proposer =>
    refine same ?_
    show (advanceAppending d w q canonical candidateJson proposer rep).1.outbox.history = _
    unfold advanceAppending
    dsimp only
    split <;> rfl
  | attesting j c built h => exact same (congrArg Outbox.history (appendBestEffort_outbox _ _ _ _))
  | remembering f e =>
    show _ <+: (advanceRemembering d w f e).outbox.history
    unfold advanceRemembering
    split
    · exact List.prefix_append _ _
    · exact List.prefix_rfl
  | auditing f e =>
    refine same ?_
    show (advanceAuditing d w f e rep).1.outbox.history = _
    unfold advanceAuditing
    split
    · split <;> rfl
    · rfl
  | noting | announcing => exact List.prefix_append _ _
  | idle | claimed | lookingUp | failing | cleaning | redriving | deleting | resolving | cascading | sweeping | sweepDeleting
  | returned => exact List.prefix_rfl

/-- **The history only grows.** -/
theorem history_step (d : Deployment) (api : StoreApi) (s : System) (a : Action) :
    s.world.outbox.history <+: (step d api s a).world.outbox.history := by
  cases a with
  | op o => exact (history_op d s.world o) ▸ List.prefix_rfl
  | start t c =>
    show _ <+: (if (s.calls t).free = true then _ else _ : System).world.outbox.history
    split <;> exact List.prefix_rfl
  | advance t rep => exact history_advance d api s.world rep (s.calls t)

/-- The history says that the row is still to be removed. -/
def Noted (s : System) (h : String) : Prop :=
  ∃ row ∈ s.world.outbox.history, row.op = "orphan_cleanup_pending" ∧ row.drawerId = h

theorem noted_step {s : System} {h : String} (hn : Noted s h) (a : Action) : Noted (step d api s a) h := by
  obtain ⟨row, hrow, hop, hid⟩ := hn
  exact ⟨row, (history_step d api s a).subset hrow, hop, hid⟩

/-! ## The tags of a written row -/

/-- Every row that was written for an approval can be found by its marker in all tenants. -/
def RowsMarked (s : System) : Prop :=
  ∀ r ∈ s.world.store.rows, ∀ i, r.writtenFor = some i → r.hasTags (markerTags (approvalMarker i) "*") = true

theorem whole_approvalMarker (i : Nat) : Whole ',' (approvalMarker i) := Whole.append (by decide) (whole_toString i)

theorem rowsMarked_step {s : System} (h : RowsMarked s) (hb : PayloadsBuilt d s) (a : Action) : RowsMarked (step d api s a) := by
  intro r hr i hi
  rcases store_new d api hr with hold | ⟨row, -, rfl, -⟩ | ⟨t, rep, j, c, built, body, -, hc, hf, rfl, -⟩
  · exact h r hold i hi
  · cases hi
  · obtain rfl : j.args.approvalId = i := Option.some.inj hi
    obtain ⟨j', c', now, hheld, hrec⟩ := hb t built (by rw [hc]; rfl)
    rw [hc] at hheld
    cases hheld
    obtain ⟨-, hmarker, hstatus⟩ := finalizeWrite_ok (reconstruct_tags hrec) hf
    obtain ⟨h1, h2, h3⟩ := whole_approvalMarker j.args.approvalId
    have hm : approvalMarker j.args.approvalId ∈ storedTags body.tags := mem_storedTags hmarker h1 h2 h3
    have ha : "status:active" ∈ storedTags body.tags := mem_storedTags hstatus (by decide) (by decide) (by decide)
    show List.all _ (storedTags body.tags).contains = true
    simp [markerTags, hm, ha]

/-- **The sweep of a root principal misses no row**: what the lookup of a marker answers is the row that was written. -/
theorem sweep_finds {s : System} (h : RowsMarked s) {f : Forget} {r : StoreRow} (hr : r ∈ s.world.store.rows) {i : Nat}
    (hi : r.writtenFor = some i) {fault : Option PyErr} {o : Option String}
    (hl : findActiveHashByMarker d s.world.store (approvalMarker i) f.principal.tenantId fault = .ok o) :
    o = some r.contentHash := by
  have htenant : f.principal.tenantId = "*" := by
    have hroot := f.admitted
    simp only [Principal.isRootWithBreakGlass, Bool.and_eq_true, decide_eq_true_eq] at hroot
    exact hroot.1.2
  refine lookup_finds hl hr ?_
  rw [htenant]
  exact h r hr i hi

/-! ## Who sees to a row -/

/-- The call records, removes or notes the row `h` of approval `i`, or is looking for it. -/
def Call.handles (i : Nat) (h : String) : Call → Prop
  | .lookingUp j _ _ _ => j.args.approvalId = i
  | .recording j _ _ x => j.args.approvalId = i ∧ x = h
  | .cleaning _ x | .noting _ x _ => x = h
  | _ => False

/-- The hard delete has claimed approval `i` and is still to look for the row `h`, or to delete it. -/
def Call.awaits (i : Nat) (h : String) : Call → Prop
  | .deleting _ ids | .resolving _ ids _ => i ∈ ids
  | .cascading _ e _ _ => i ∈ e.claimed
  | .sweeping _ _ k todo => i = k ∨ i ∈ todo
  | .sweepDeleting _ _ k x todo => (i = k ∧ h = x) ∨ i ∈ todo
  | _ => False

/-- The hard delete has claimed the approval and will not look for the row again. -/
def Call.past (i : Nat) (h : String) (c : Call) : Prop := (∃ ids, c.erasing = some ids ∧ i ∈ ids) ∧ ¬ c.awaits i h

/-- The approval is purged, or a hard delete that is about to purge it is past the row. -/
def Passed (s : System) (i : Nat) (h : String) : Prop := Gone s i ∨ ∃ t, (s.calls t).past i h

/-- Somebody sees to the row. -/
def Handled (s : System) (i : Nat) (h : String) : Prop := Noted s h ∨ ∃ t, (s.calls t).handles i h

theorem free_handles {c : Call} {i : Nat} {h : String} (hc : c.free = true) : ¬ c.handles i h := by
  cases c <;> first | exact id | cases hc

theorem not_past_of_erasing {c : Call} {i : Nat} {h : String} (hc : c.erasing = none) : ¬ c.past i h := by
  rintro ⟨⟨ids, he, -⟩, -⟩
  rw [hc] at he
  cases he

theorem past_sweepNext {f : Forget} {e : Erasure} {todo : List Nat} {i : Nat} {h : String} :
    (sweepNext f e todo).past i h ↔ i ∈ e.claimed ∧ i ∉ todo := by
  have hids : (∃ ids, (sweepNext f e todo).erasing = some ids ∧ i ∈ ids) ↔ i ∈ e.claimed := by
    rw [sweepNext_erasing]
    simp
  rw [Call.past, hids]
  cases todo with
  | nil => simp [sweepNext, Call.awaits]
  | cons k todo => simp [sweepNext, Call.awaits]

/-- The cascade comes before the sweep. -/
theorem not_past_cascadeNext (f : Forget) (e : Erasure) (todo : List String) (i : Nat) (h : String) :
    ¬ (cascadeNext f e todo).past i h := by
  cases todo with
  | nil =>
    show ¬ (sweepNext f e e.claimed).past i h
    rw [past_sweepNext]
    exact fun hp => hp.2 hp.1
  | cons x todo =>
    rintro ⟨⟨ids, he, hi⟩, hn⟩
    cases he
    exact hn hi

/-- **How a hard delete comes past a row**: its lookup finds nothing, or something else, or its DELETE of it is answered. -/
theorem past_step {s : System} {a : Action} {t i : Nat} {h : String} (hp : ((step d api s a).calls t).past i h) :
    (s.calls t).past i h ∨
    (∃ rep f e todo o, a = .advance t rep ∧ s.calls t = .sweeping f e i todo ∧ o ≠ some h ∧
      findActiveHashByMarker d s.world.store (approvalMarker i) f.principal.tenantId rep.searchFault = .ok o) ∨
    (∃ rep f e todo b, a = .advance t rep ∧ s.calls t = .sweepDeleting f e i h todo ∧
      (s.world.store.delete h rep.delete).2 = .ok b) := by
  rcases call_step d api s a t with ⟨he, -⟩ | ⟨st, -, -, he⟩ | ⟨rep, rfl, hm⟩
  · exact .inl (he ▸ hp)
  · rw [he] at hp
    exact absurd hp (not_past_of_erasing (by cases st <;> rfl))
  · generalize hc : s.calls t = c0 at hm ⊢
    generalize (step d api s (.advance t rep)).calls t = c1 at hm hp
    cases hm with
    | ends he =>
      refine absurd hp (not_past_of_erasing ?_)
      cases c1 <;> first | rfl | cases he
    | rtbfClaims | deletes =>
      obtain ⟨⟨ids, he, hi⟩, hn⟩ := hp
      cases he
      exact absurd hi hn
    | resolves | cascades => exact absurd hp (not_past_cascadeNext _ _ _ _ _)
    | @sweepsNothing f e k todo hl =>
      rw [past_sweepNext] at hp
      by_cases hik : i = k
      · subst hik
        exact .inr (.inl ⟨rep, f, e, todo, none, rfl, rfl, by simp, hl⟩)
      · refine .inl ⟨⟨e.claimed, rfl, hp.1⟩, ?_⟩
        rintro (hi | hi)
        · exact hik hi
        · exact hp.2 hi
    | @sweepsUp f e k todo x hl =>
      obtain ⟨⟨ids, he, hi⟩, hn⟩ := hp
      cases he
      by_cases hik : i = k
      · subst hik
        refine .inr (.inl ⟨rep, f, e, todo, some x, rfl, rfl, fun hx => hn (.inl ⟨rfl, ?_⟩), hl⟩)
        exact (Option.some.inj hx).symm
      · refine .inl ⟨⟨e.claimed, rfl, hi⟩, ?_⟩
        rintro (hk | hk)
        · exact hik hk
        · exact hn (.inr hk)
    | @sweepDeletes f e k x todo b hd =>
      rw [past_sweepNext] at hp
      by_cases hix : i = k ∧ h = x
      · obtain ⟨rfl, rfl⟩ := hix
        exact .inr (.inr ⟨rep, f, e, todo, b, rfl, rfl, hd⟩)
      · refine .inl ⟨⟨e.claimed, rfl, hp.1⟩, ?_⟩
        rintro (hk | hk)
        · exact hix hk
        · exact hp.2 hk
    | idle | claims | builds | buildFails | posts | postsBlind | postFails | finds | looksAgain | lookupFails | orphans
    | announces | attests | notes | decides | appends | purges | remembers => exact absurd hp (not_past_of_erasing rfl)

end Panella
