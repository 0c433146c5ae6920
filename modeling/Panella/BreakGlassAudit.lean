import Panella.CallStep
import Panella.Mutations
import Panella.ReadAccess
import Panella.WriteMemory

/-!
# Break-glass access is audited while the token lasts

Six of the seven operations end in `_audit_if_cross_tenant` (`panella/client.py:1022-1040`), which looks at the token once
more: an operation let in by a token that runs out on the way leaves no row. `sample_by_wing` ends without it.
**`break_glass_audited`**: an operation that was let in leaves its row exactly when it is not `sample_by_wing` and the
token lives at that last look.

A `hard_delete` is a call of the running system, with any other calls in flight (`Erases`). Only its last step writes to
the audit log (`advance_forget`).
-/

namespace Panella

open Fallible Machine PyJson

/-! ## The audit at the end -/

/-- The entry names the operation, the principal and the break-glass reason. -/
structure NamesAccess (op : String) (pr : Principal) (w : AuditWrite) : Prop where
  op : w.op = op
  principal : w.principalId = pr.id
  reason : w.reasonCode = pr.breakGlassToken.map (·.reason)

theorem names_crossTenantWrite (pr : Principal) (tsIso op tenantAccessed : String) (targetId : Option String) (details : Dict)
    (wf : WF (.obj details)) : NamesAccess op pr (crossTenantWrite pr tsIso op tenantAccessed targetId details wf) :=
  ⟨rfl, rfl, rfl⟩

/-- The audit log took an entry that names the access. -/
def Left (sink : AuditSink) (op : String) (pr : Principal) (audit : Option AuditWrite) : Prop :=
  ∃ w ∈ audit, NamesAccess op pr w ∧ sink w = .ok ()

/-- **`_audit_if_cross_tenant` leaves its entry exactly while the token lives.** -/
theorem left_iff {sink : AuditSink} {pr : Principal} {now : Instant} {op : String} {w : AuditWrite} {audit : Option AuditWrite}
    (hw : NamesAccess op pr w) (h : auditIfCrossTenant sink pr now w = .ok audit) :
    Left sink op pr audit ↔ pr.isRootWithBreakGlass now = true := by
  unfold auditIfCrossTenant at h
  by_cases hactive : pr.isRootWithBreakGlass now = true
  · rw [if_pos hactive] at h
    refine iff_of_true ?_ hactive
    cases hsink : sink w with
    | error e => rw [hsink] at h; cases h
    | ok u =>
      rw [hsink] at h
      cases h
      exact ⟨w, rfl, hw, hsink⟩
  · rw [if_neg hactive] at h
    cases h
    refine iff_of_false ?_ hactive
    rintro ⟨w', hw', -⟩
    cases hw'

/-! ## The reads -/

section Reads

variable {F : Type} {d : Deployment} {pr : Principal} {clk : ReadClock} {sink : AuditSink}

theorem search_left {env : ReadEnv F} {p : ReadProfile F} {api again : SearchApi} {query : String} {k : Option Int}
    {wingsHint : Option (List String)} {out : Served (List (ReadHit F))}
    (h : search d env p pr clk sink api again query k wingsHint = .ok out) :
    Left sink "search" pr out.audit ↔ pr.isRootWithBreakGlass clk.audit = true := by
  unfold search at h
  obtain ⟨⟨⟩, -, h⟩ := bind_ok h
  obtain ⟨ids, -, h⟩ := bind_ok h
  obtain ⟨raw, -, h⟩ := bind_ok h
  obtain ⟨filtered, -, h⟩ := bind_ok h
  obtain ⟨boosted, -, h⟩ := bind_ok h
  obtain ⟨audit, haudit, h⟩ := bind_ok h
  cases h
  exact left_iff (names_crossTenantWrite ..) haudit

theorem getMemory_left {p : AgentProfile} {reply : GetReply} {memoryId : String} {hit : ReadHit F} {audit : Option AuditWrite}
    (h : getMemory d p pr clk sink reply memoryId = .ok ⟨some hit, audit⟩) :
    Left sink "get_memory" pr audit ↔ pr.isRootWithBreakGlass clk.audit = true := by
  unfold getMemory at h
  obtain ⟨⟨⟩, -, h⟩ := bind_ok h
  obtain ⟨found, -, h⟩ := bind_ok h
  cases found with
  | none => cases h
  | some raw =>
    obtain ⟨⟨allowed, blocked⟩, -, h⟩ := bind_ok h
    cases allowed with
    | nil => cases h
    | cons first rest =>
      obtain ⟨audit', haudit, h⟩ := bind_ok h
      cases h
      exact left_iff (names_crossTenantWrite ..) haudit

end Reads

/-! ## The mutations -/

theorem mutate_left {d : Deployment} {p : AgentProfile} {pr : Principal} {clk : MutationClock} {sink : AuditSink}
    {op reason : String} {supersededBy : Option String} {tr : TagTransition} {details : Dict} {wf : WF (.obj details)}
    {replies : MutationReplies} {drawerId : String} {st : RowStore} {ok : Bool}
    (h : (mutate d p pr clk sink op reason supersededBy tr details wf replies drawerId st).result = .ok ok)
    (hchanged : (mutate d p pr clk sink op reason supersededBy tr details wf replies drawerId st).store ≠ st) :
    Left sink op pr (mutate d p pr clk sink op reason supersededBy tr details wf replies drawerId st).audit ↔
      pr.isRootWithBreakGlass clk.audit = true := by
  unfold mutate at h hchanged ⊢
  cases hgate : mutationGate pr clk op reason with
  | error e => simp only [hgate] at h; cases h
  | ok u =>
    simp only [hgate] at h hchanged ⊢
    cases howned : requireMutationTargetOwned d p pr clk.scope (st.reply replies.owned drawerId) drawerId with
    | error e => simp only [howned] at h; cases h
    | ok owned =>
      cases owned with
      | false => simp only [howned] at hchanged; exact absurd rfl hchanged
      | true =>
        simp only [howned] at h hchanged ⊢
        cases hdone : (transitionCall d tr drawerId replies st).2 with
        | error e => simp only [hdone] at h; cases h
        | ok done =>
          simp only [hdone] at h ⊢
          cases haudit : auditIfCrossTenant sink pr clk.audit
              (crossTenantWrite pr clk.tsIso op "*" (some drawerId) details wf) with
          | error e => simp only [haudit] at h; cases h
          | ok audit => exact left_iff (names_crossTenantWrite ..) haudit

/-! ## The write -/

section Write

variable {d : Deployment} {p : WriteProfile} {pr : Principal} {sink : AuditSink} {r : WriteReadings} {replies : WriteReplies}
  {c : WriteCall} {a : PreparedWrite} {s s' : ClientState} {out : Served WriteResult}

theorem settleWrite_left {writtenId : String} {skipped : Bool} {existingHash : Option String}
    (h : settleWrite d p pr sink r a writtenId skipped existingHash s = (s', .ok out)) :
    Left sink "write" pr out.audit ↔ pr.isRootWithBreakGlass r.audit = true := by
  unfold settleWrite at h
  cases haudit : auditIfCrossTenant sink pr r.audit (crossTenantWrite pr r.tsIso "write" a.tenantId (some writtenId)
      (storedDetails skipped) (wf_storedDetails skipped)) with
  | error e => simp only [haudit] at h; cases h
  | ok audit =>
    simp only [haudit] at h
    cases h
    exact left_iff (names_crossTenantWrite ..) haudit

theorem queueWrite_left (h : queueWrite d p pr sink r replies a s = (s', .ok out)) :
    Left sink "write" pr out.audit ↔ pr.isRootWithBreakGlass r.audit = true := by
  unfold queueWrite at h
  cases hdumps : d.dumps (.obj (a.candidate p.name)) with
  | error e => simp only [hdumps] at h; cases h
  | ok candidateJson =>
    cases hfault : replies.enqueueFault with
    | some e => simp only [hdumps, hfault] at h; cases h
    | none =>
      cases haudit : auditIfCrossTenant sink pr r.audit
          (crossTenantWrite pr r.tsIso "write" a.tenantId (some a.drawerId) queuedDetails wf_queuedDetails) with
      | error e => simp only [hdumps, hfault, haudit] at h; cases h
      | ok audit =>
        simp only [hdumps, hfault, haudit] at h
        cases h
        exact left_iff (names_crossTenantWrite ..) haudit

theorem handOver_left (h : handOver d p pr sink r replies c a s = (s', .ok out)) :
    Left sink "write" pr out.audit ↔ pr.isRootWithBreakGlass r.audit = true := by
  unfold handOver at h
  cases hbody : addMemoryBody d a.wing a.room a.content a.metadata true c.conversationId with
  | error e => simp only [hbody] at h; cases h
  | ok body =>
    simp only [hbody] at h
    cases hout : (replies.post s.store body).2 with
    | raised e => simp only [hout] at h; cases h
    | stored contentHash =>
      simp only [hout] at h
      exact settleWrite_left h
    | dedupSkipped existingHash =>
      simp only [hout] at h
      split at h
      · cases h
      · exact settleWrite_left h

theorem writeMemory_left (h : writeMemory d p pr sink r replies c s = (s', .ok out)) :
    Left sink "write" pr out.audit ↔ pr.isRootWithBreakGlass r.audit = true := by
  unfold writeMemory at h
  cases hargs : writeArguments d p.toAgentProfile pr r.now c with
  | error e => simp only [hargs] at h; cases h
  | ok infer =>
    cases hquota : enforceWriteQuota p.toAgentProfile (s.count.at' r.quota) with
    | error e => simp only [hargs, hquota] at h; cases h
    | ok u =>
      cases htarget : writeTarget d p.toAgentProfile pr r.scope r.requested c with
      | error e => simp only [hargs, hquota, htarget] at h; cases h
      | ok tenantId =>
        simp only [hargs, hquota, htarget, commitPrepared] at h
        split at h
        · exact queueWrite_left h
        · exact handOver_left h

end Write

/-! ## The hard delete -/

/-- The hard delete the call is, where it is one in flight. -/
def Call.forget : Call → Option Forget
  | .forgetting f | .deleting f _ | .resolving f _ _ | .cascading f _ _ _ | .sweeping f _ _ _ | .sweepDeleting f _ _ _ _
  | .purging f _ | .remembering f _ | .auditing f _ => some f
  | _ => none

section HardDelete

variable {d : Deployment} {api : StoreApi}

theorem sweepNext_forget (f : Forget) (e : Erasure) (todo : List Nat) : (sweepNext f e todo).forget = some f := by
  cases todo <;> rfl

theorem cascadeNext_forget (f : Forget) (e : Erasure) (todo : List String) : (cascadeNext f e todo).forget = some f := by
  cases todo with
  | nil => exact sweepNext_forget f e e.claimed
  | cons h todo => rfl

/-- A step of a hard delete that leaves the audit log alone: it goes on, or it raises. -/
def GoesOn (f : Forget) (w : World) (out : World × Call) : Prop :=
  out.1.audit = w.audit ∧ (out.2.forget = some f ∨ ∃ e, out.2 = .returned (.raised e))

theorem advanceDelete_goesOn {w : World} {f : Forget} {hash : String} {rep : Reply} {next : Bool → Call}
    (hnext : ∀ b, (next b).forget = some f) : GoesOn f w (advanceDelete w hash rep next) := by
  refine ⟨rfl, ?_⟩
  dsimp only [advanceDelete]
  cases (w.store.delete hash rep.delete).2 with
  | error e => exact .inr ⟨e, rfl⟩
  | ok b => exact .inl (hnext b)

/-- **What a step of a hard delete does to the audit log**: nothing, but for the last. -/
theorem advance_forget (d : Deployment) (api : StoreApi) (w : World) (rep : Reply) {c : Call} {f : Forget} (h : c.forget = some f) :
    GoesOn f w (advance d api w rep c) ∨ ∃ e, c = .auditing f e := by
  cases c <;> cases h
  case forgetting =>
    left
    simp only [advance, advanceForgetting]
    cases claimSidecarForRtbf d w.outbox f.drawerId rep.cutoff with
    | error e => exact ⟨rfl, .inr ⟨e, rfl⟩⟩
    | ok claimed => exact ⟨rfl, .inl rfl⟩
  case deleting => exact .inl (advanceDelete_goesOn fun b => rfl)
  case resolving claimed ok =>
    left
    refine ⟨rfl, ?_⟩
    simp only [advance, advanceResolving]
    cases resolveDivergentUpstreamIds d w.outbox f.drawerId with
    | error e => exact .inr ⟨e, rfl⟩
    | ok divergent => exact .inl (cascadeNext_forget ..)
  case cascading => exact .inl (advanceDelete_goesOn fun b => cascadeNext_forget ..)
  case sweeping e i todo =>
    left
    refine ⟨rfl, ?_⟩
    simp only [advance, advanceSweeping]
    cases findActiveHashByMarker d w.store (approvalMarker i) f.principal.tenantId rep.searchFault with
    | error x => exact .inr ⟨x, rfl⟩
    | ok found =>
      cases found with
      | none => exact .inl (sweepNext_forget ..)
      | some h => exact .inl rfl
  case sweepDeleting => exact .inl (advanceDelete_goesOn fun b => sweepNext_forget ..)
  case purging =>
    left
    simp only [advance, advancePurging]
    cases hardDeleteSidecar d w.outbox f.drawerId with
    | error x => exact ⟨rfl, .inr ⟨x, rfl⟩⟩
    | ok o => exact ⟨rfl, .inl rfl⟩
  case remembering e =>
    left
    refine ⟨?_, .inl rfl⟩
    simp only [advance, advanceRemembering]
    split <;> rfl
  case auditing e => exact .inr ⟨e, rfl⟩

/-- In the run, a step of call `t` appended an entry with `P` to the audit log. -/
def Appended (d : Deployment) (api : StoreApi) (s : System) (as : List Action) (t : Nat) (P : AuditWrite → Prop) : Prop :=
  ∃ pre rep post w detailsJson, as = pre ++ .advance t rep :: post ∧ P w ∧
    (runs d api s (pre ++ [.advance t rep])).world.audit = (runs d api s pre).world.audit.append w detailsJson

/-- In the run, a step of call `t` changed a row of the store, or purged a sidecar row. -/
def Erased (d : Deployment) (api : StoreApi) (s : System) (as : List Action) (t : Nat) : Prop :=
  ∃ pre rep post, as = pre ++ .advance t rep :: post ∧
    let w := (runs d api s pre).world
    let w' := (runs d api s (pre ++ [.advance t rep])).world
    w'.store ≠ w.store ∨ (∃ i, w.outbox.approvals.get i ≠ none ∧ w'.outbox.approvals.get i = none) ∨
      ∃ i, w.outbox.events.get i ≠ none ∧ w'.outbox.events.get i = none

/-- A hard delete from its start to its return: call `t` of the run, whose slot is not used twice. -/
structure Erases (d : Deployment) (api : StoreApi) (s : System) (t : Nat) (f : Forget) (as : List Action) (rep : Reply)
    (ok : Bool) : Prop where
  free : (s.calls t).free = true
  once : ∀ st, .start t st ∉ as
  inFlight : ∀ result, (runs d api s (.start t (.forget f) :: as)).calls t ≠ .returned result
  returned : (runs d api s (.start t (.forget f) :: as ++ [.advance t rep])).calls t = .returned (.forgotten ok)

theorem append_ne (t : AuditTable) (w : AuditWrite) (detailsJson : Option String) : t.append w detailsJson ≠ t := by
  intro h
  have hlen := congrArg (fun x => x.rows.length) h
  simp [AuditTable.append] at hlen

/-- The call is in flight and has not written to the log yet, or it has returned. -/
def Silent (d : Deployment) (api : StoreApi) (s : System) (t : Nat) (f : Forget) (as : List Action) : Prop :=
  (((runs d api s as).calls t).forget = some f ∧ ¬ Appended d api s as t fun _ => True) ∨
    ∃ result, (runs d api s as).calls t = .returned result

/-- The steps of a run one longer. -/
theorem appended_snoc {s : System} {as : List Action} {a : Action} {t : Nat} {P : AuditWrite → Prop} :
    Appended d api s (as ++ [a]) t P ↔ Appended d api s as t P ∨
      ∃ rep w detailsJson, a = .advance t rep ∧ P w ∧
        (step d api (runs d api s as) a).world.audit = (runs d api s as).world.audit.append w detailsJson := by
  constructor
  · rintro ⟨pre, rep, post, w, detailsJson, has, hw, haudit⟩
    rcases List.eq_nil_or_concat post with rfl | ⟨post', b, rfl⟩
    · obtain ⟨rfl, ha⟩ := List.append_inj' has rfl
      obtain rfl := List.singleton_inj.1 ha
      rw [runs, run_snoc] at haudit
      exact .inr ⟨rep, w, detailsJson, rfl, hw, haudit⟩
    · rw [List.concat_eq_append, ← List.cons_append, ← List.append_assoc] at has
      obtain ⟨rfl, -⟩ := List.append_inj' has rfl
      exact .inl ⟨pre, rep, post', w, detailsJson, rfl, hw, haudit⟩
  · rintro (⟨pre, rep, post, w, detailsJson, rfl, hw, haudit⟩ | ⟨rep, w, detailsJson, rfl, hw, haudit⟩)
    · exact ⟨pre, rep, post ++ [a], w, detailsJson, by simp, hw, haudit⟩
    · refine ⟨as, rep, [], w, detailsJson, rfl, hw, ?_⟩
      rw [runs, run_snoc]
      exact haudit

theorem silent_runs {s : System} {t : Nat} {f : Forget} {as : List Action} (hfree : (s.calls t).free = true)
    (honce : ∀ st, .start t st ∉ as) : Silent d api s t f (.start t (.forget f) :: as) := by
  induction as using List.reverseRecOn with
  | nil =>
    left
    constructor
    · show ((step d api s (.start t (.forget f))).calls t).forget = some f
      rw [step_start _ hfree]
      show (Function.update s.calls t (Start.forget f).call t).forget = some f
      rw [Function.update_self]
      rfl
    · rintro ⟨pre, rep, post, -, -, has, -⟩
      rcases List.cons_eq_append_iff.1 has with ⟨rfl, h⟩ | ⟨pre', rfl, h⟩
      · cases h
      · simp at h
  | append_singleton as a ih =>
    have hprev := ih fun st hst => honce st (List.mem_append_left _ hst)
    have hstart : ∀ st, a ≠ .start t st := by
      rintro st rfl
      exact honce st (List.mem_append_right _ (List.mem_singleton_self _))
    rw [← List.cons_append]
    have hrun : runs d api s ((.start t (.forget f) :: as) ++ [a]) = step d api (runs d api s (.start t (.forget f) :: as)) a :=
      run_snoc _ _ _ _
    have hnot : ∀ (h : ¬ Appended d api s (.start t (.forget f) :: as) t fun _ => True),
        (∀ rep w detailsJson, a = .advance t rep → (step d api (runs d api s (.start t (.forget f) :: as)) a).world.audit ≠
          (runs d api s (.start t (.forget f) :: as)).world.audit.append w detailsJson) →
        ¬ Appended d api s ((.start t (.forget f) :: as) ++ [a]) t fun _ => True := by
      intro h hlast happ
      rcases appended_snoc.1 happ with happ | ⟨rep, w, detailsJson, ha, -, haudit⟩
      · exact h happ
      · exact hlast rep w detailsJson ha haudit
    unfold Silent
    rw [hrun]
    rcases call_step d api (runs d api s (.start t (.forget f) :: as)) a t with
      ⟨hsame, hother⟩ | ⟨st, hst, -, -⟩ | ⟨rep, rfl, -⟩
    · -- another call's step
      rw [hsame]
      refine hprev.imp_left fun ⟨hf, hsilent⟩ => ⟨hf, hnot hsilent ?_⟩
      intro rep w detailsJson ha
      exact absurd ha (hother rep)
    · exact absurd hst (hstart st)
    · -- a step of the call itself
      rw [advance_calls]
      rcases hprev with ⟨hf, hsilent⟩ | ⟨result, hresult⟩
      · rcases advance_forget d api (runs d api s (.start t (.forget f) :: as)).world rep hf
          with ⟨haudit, hgo | ⟨e, he⟩⟩ | ⟨e, he⟩
        · refine .inl ⟨hgo, hnot hsilent ?_⟩
          intro rep' w detailsJson ha happ
          exact append_ne _ w detailsJson (happ.symm.trans haudit)
        · exact .inr ⟨_, he⟩
        · right
          rw [he]
          simp only [advance, advanceAuditing]
          split
          · split <;> exact ⟨_, rfl⟩
          · exact ⟨_, rfl⟩
      · rw [hresult]
        exact .inr ⟨result, rfl⟩

/-- **A hard delete leaves its entry exactly while the token lives at its last step.** -/
theorem erases_appended {s : System} {t : Nat} {f : Forget} {as : List Action} {rep : Reply} {ok : Bool}
    (h : Erases d api s t f as rep ok) :
    Appended d api s (.start t (.forget f) :: as ++ [.advance t rep]) t (NamesAccess "hard_delete" f.principal) ↔
      f.principal.isRootWithBreakGlass rep.instant = true := by
  have hsilent : ((runs d api s (.start t (.forget f) :: as)).calls t).forget = some f ∧
      ¬ Appended d api s (.start t (.forget f) :: as) t fun _ => True := by
    rcases silent_runs h.free h.once with hs | ⟨result, hr⟩
    · exact hs
    · exact absurd hr (h.inFlight result)
  obtain ⟨hf, hquiet⟩ := hsilent
  have hret := h.returned
  rw [runs, run_snoc, advance_calls] at hret
  obtain ⟨e, he⟩ : ∃ e, (runs d api s (.start t (.forget f) :: as)).calls t = .auditing f e := by
    rcases advance_forget d api (runs d api s (.start t (.forget f) :: as)).world rep hf
      with ⟨-, hgo | ⟨x, hx⟩⟩ | he
    · rw [hret] at hgo
      cases hgo
    · rw [hret] at hx
      cases hx
    · exact he
  have hworld : (step d api (runs d api s (.start t (.forget f) :: as)) (.advance t rep)).world =
      (advanceAuditing d (runs d api s (.start t (.forget f) :: as)).world f e rep).1 := by
    show (advance d api _ rep ((runs d api s (.start t (.forget f) :: as)).calls t)).1 = _
    rw [he]
    rfl
  rw [he] at hret
  rw [appended_snoc, hworld]
  constructor
  · rintro (⟨pre, rep', post, w, detailsJson, has, -, haudit⟩ | ⟨rep', w, detailsJson, ha, -, haudit⟩)
    · exact absurd ⟨pre, rep', post, w, detailsJson, has, trivial, haudit⟩ hquiet
    · by_contra hdead
      unfold advanceAuditing at haudit
      rw [if_neg hdead] at haudit
      exact append_ne _ w detailsJson haudit.symm
  · intro hactive
    right
    simp only [advance, advanceAuditing, if_pos hactive] at hret ⊢
    cases happ : appendWithHash d (runs d api s (.start t (.forget f) :: as)).world.audit
        (erasureEntry f.principal rep.now f.drawerId f.reason e.divergent (sortedSet e.markerDeleted)) rep.auditFault with
    | error x =>
      simp only [happ] at hret
      cases hret
    | ok out =>
      obtain ⟨table, seq, thisHash⟩ := out
      obtain ⟨detailsJson, -, htable, -⟩ := appendWithHash_ok happ
      exact ⟨rep, _, detailsJson, rfl, ⟨rfl, rfl, rfl⟩, htable⟩

end HardDelete

/-! ## The seven operations -/

/-- A call of an operation that returned. -/
structure Access where
  op : String
  principal : Principal
  /-- When the entry checks looked at the token. -/
  entered : Instant
  /-- When `_audit_if_cross_tenant` looked at it. -/
  auditAt : Instant
  /-- It returned a row of another tenant, changed a row of the store or purged a sidecar row. -/
  crossed : Prop
  /-- An entry that names it was committed before it returned. -/
  audited : Prop

/-- Calls that returned. -/
inductive Access.Finished (d : Deployment) (api : StoreApi) : Access → Prop
  | search {F : Type} {env : ReadEnv F} {p : ReadProfile F} {pr : Principal} {clk : ReadClock} {sink : AuditSink}
      {first again : SearchApi} {query : String} {k : Option Int} {wingsHint : Option (List String)}
      {out : Served (List (ReadHit F))} (h : search d env p pr clk sink first again query k wingsHint = .ok out) :
      Finished d api ⟨"search", pr, clk.ttl, clk.audit, ∃ x ∈ out.value, x.tenantId ≠ pr.tenantId, Left sink "search" pr out.audit⟩
  | getMemory {F : Type} {p : AgentProfile} {pr : Principal} {clk : ReadClock} {sink : AuditSink} {reply : GetReply}
      {memoryId : String} {hit : ReadHit F} {audit : Option AuditWrite}
      (h : getMemory d p pr clk sink reply memoryId = .ok ⟨some hit, audit⟩) :
      Finished d api
        ⟨"get_memory", pr, clk.ttl, clk.audit, hit.tenantId ≠ pr.tenantId, Left sink "get_memory" pr audit⟩
  /-- It hands nothing to the audit log. -/
  | sampleByWing {F : Type} {p : AgentProfile} {pr : Principal} {clk : ReadClock} {sink : AuditSink} {first again : ByTagApi}
      {wing : String} {k : Int} {hits : List (ReadHit F)} (h : sampleByWing d p pr clk first again wing k = .ok hits) :
      Finished d api
        ⟨"sample_by_wing", pr, clk.ttl, clk.audit, ∃ x ∈ hits, x.tenantId ≠ pr.tenantId, Left sink "sample_by_wing" pr none⟩
  | write {p : WriteProfile} {pr : Principal} {sink : AuditSink} {r : WriteReadings} {replies : WriteReplies} {c : WriteCall}
      {s s' : ClientState} {out : Served WriteResult} (h : writeMemory d p pr sink r replies c s = (s', .ok out)) :
      Finished d api ⟨"write", pr, r.now, r.audit, s'.store ≠ s.store, Left sink "write" pr out.audit⟩
  | tombstone {p : AgentProfile} {pr : Principal} {clk : MutationClock} {sink : AuditSink} {replies : MutationReplies}
      {drawerId reason : String} {st : RowStore} {ok : Bool}
      (h : (tombstone d p pr clk sink replies drawerId reason st).result = .ok ok) :
      Finished d api
        ⟨"tombstone", pr, clk.ttl, clk.audit, (tombstone d p pr clk sink replies drawerId reason st).store ≠ st,
          Left sink "tombstone" pr (tombstone d p pr clk sink replies drawerId reason st).audit⟩
  | supersede {p : AgentProfile} {pr : Principal} {clk : MutationClock} {sink : AuditSink} {replies : MutationReplies}
      {drawerId reason : String} {supersededBy : Option String} {st : RowStore} {ok : Bool}
      (h : (supersede d p pr clk sink replies drawerId reason supersededBy st).result = .ok ok) :
      Finished d api
        ⟨"supersede", pr, clk.ttl, clk.audit, (supersede d p pr clk sink replies drawerId reason supersededBy st).store ≠ st,
          Left sink "supersede" pr (supersede d p pr clk sink replies drawerId reason supersededBy st).audit⟩
  /-- One call among any others of a running system. -/
  | hardDelete {w : World} {before : List Action} {t : Nat} {f : Forget} {as : List Action} {rep : Reply} {ok : Bool}
      (h : Erases d api (runs d api (.initial w) before) t f as rep ok) :
      Finished d api
        ⟨"hard_delete", f.principal, f.admittedAt, rep.instant,
          Erased d api (runs d api (.initial w) before) (.start t (.forget f) :: as ++ [.advance t rep]) t,
          Appended d api (runs d api (.initial w) before) (.start t (.forget f) :: as ++ [.advance t rep]) t
            (NamesAccess "hard_delete" f.principal)⟩

/-- **Break-glass access is audited while the token lasts**: a call that the token let in and that reached across tenants
leaves its entry exactly when it is not `sample_by_wing` and the token lives when `_audit_if_cross_tenant` looks. -/
theorem break_glass_audited (d : Deployment) (api : StoreApi) {a : Access} (h : a.Finished d api)
    (_hentered : a.principal.isRootWithBreakGlass a.entered = true) (hcrossed : a.crossed) :
    a.audited ↔ a.op ≠ "sample_by_wing" ∧ a.principal.isRootWithBreakGlass a.auditAt = true := by
  cases h with
  | search h => exact (search_left h).trans (by simp)
  | getMemory h => exact (getMemory_left h).trans (by simp)
  | sampleByWing h =>
    refine iff_of_false ?_ fun hop => hop.1 rfl
    rintro ⟨w, hw, -⟩
    cases hw
  | write h => exact (writeMemory_left h).trans (by simp)
  | tombstone h => exact (mutate_left h hcrossed).trans (by simp)
  | supersede h => exact (mutate_left h hcrossed).trans (by simp)
  | hardDelete h => exact (erases_appended h).trans (by simp)

/-! ## Access without an entry -/

/-- Root, let in until 100. -/
def glassPrincipal : Principal := ⟨"root", "*", "owner", ["memory.read", "memory.write"], true, some ⟨"incident", 100⟩⟩

/-- The token runs out while the store answers. -/
def expiringClock : ReadClock := { sampleClock with audit := 100 }

/-- One row of another tenant. -/
def sampleRecent : ByTagApi := fun _ _ => .ok (.obj [("results", .arr [resultRow "h1" "a" "inbox" "t_other" 9])])

/-- **The code violates the claim**: `sample_by_wing` leaves nothing while the token lives, and `search` leaves nothing
where it runs out before the audit. -/
theorem access_unaudited :
    (∃ a : Access, a.Finished sampleDeployment sampleStoreApi ∧ a.op = "sample_by_wing" ∧
      a.principal.isRootWithBreakGlass a.entered = true ∧ a.crossed ∧ ¬ a.audited) ∧
    ∃ a : Access, a.Finished sampleDeployment sampleStoreApi ∧ a.op = "search" ∧
      a.principal.isRootWithBreakGlass a.entered = true ∧ a.crossed ∧ ¬ a.audited := by
  constructor
  · have hrun : (sampleByWing (F := Rat) sampleDeployment readerProfile.toAgentProfile glassPrincipal sampleClock sampleRecent
        sampleRecent "facts" 5).toOption.map (fun hits => hits.map (·.tenantId)) = some ["t_other"] := by
      decide +kernel
    cases h : sampleByWing (F := Rat) sampleDeployment readerProfile.toAgentProfile glassPrincipal sampleClock sampleRecent
        sampleRecent "facts" 5 with
    | error e => rw [h] at hrun; cases hrun
    | ok hits =>
      rw [h] at hrun
      have hvalue : hits.map (·.tenantId) = ["t_other"] := Option.some.inj hrun
      have hmem : "t_other" ∈ hits.map (·.tenantId) := by rw [hvalue]; exact List.mem_singleton_self _
      obtain ⟨x, hx, htenant⟩ := List.mem_map.1 hmem
      refine ⟨⟨"sample_by_wing", glassPrincipal, sampleClock.ttl, sampleClock.audit,
        ∃ x ∈ hits, x.tenantId ≠ glassPrincipal.tenantId, Left (fun _ => .ok ()) "sample_by_wing" glassPrincipal none⟩,
        .sampleByWing h, rfl, rfl, ⟨x, hx, ?_⟩, ?_⟩
      · rw [htenant]
        decide
      · rintro ⟨w, hw, -⟩
        cases hw
  · have hrun : (search sampleDeployment sampleEnv readerProfile glassPrincipal expiringClock (fun _ => .ok ()) sampleSearch
        sampleSearch "q" (some 5) none).toOption.map (fun out => (out.value.map (·.tenantId), out.audit.isSome)) =
        some (["t_other", "t_default"], false) := by
      decide +kernel
    cases h : search sampleDeployment sampleEnv readerProfile glassPrincipal expiringClock (fun _ => .ok ()) sampleSearch
        sampleSearch "q" (some 5) none with
    | error e => rw [h] at hrun; cases hrun
    | ok out =>
      rw [h] at hrun
      obtain ⟨hvalue, haudit⟩ := Prod.mk.inj (Option.some.inj hrun)
      have hmem : "t_other" ∈ out.value.map (·.tenantId) := by rw [hvalue]; exact List.mem_cons_self
      obtain ⟨x, hx, htenant⟩ := List.mem_map.1 hmem
      refine ⟨_, .search h, rfl, rfl, ⟨x, hx, ?_⟩, ?_⟩
      · rw [htenant]
        decide
      · rintro ⟨w, hw, -⟩
        rw [Option.mem_def] at hw
        rw [hw] at haudit
        cases haudit

/-- The same search, while the token lives. -/
theorem break_glass_audited_sample : ∃ out : Served (List (ReadHit Rat)),
    search sampleDeployment sampleEnv readerProfile glassPrincipal sampleClock (fun _ => .ok ()) sampleSearch sampleSearch "q"
      (some 5) none = .ok out ∧ Left (fun _ => .ok ()) "search" glassPrincipal out.audit := by
  have hrun : (search sampleDeployment sampleEnv readerProfile glassPrincipal sampleClock (fun _ => .ok ()) sampleSearch
      sampleSearch "q" (some 5) none).toOption.map (fun out => out.value.map (·.tenantId)) = some ["t_other", "t_default"] := by
    decide +kernel
  cases h : search sampleDeployment sampleEnv readerProfile glassPrincipal sampleClock (fun _ => .ok ()) sampleSearch
      sampleSearch "q" (some 5) none with
  | error e => rw [h] at hrun; cases hrun
  | ok out =>
    rw [h] at hrun
    have hvalue : out.value.map (·.tenantId) = ["t_other", "t_default"] := Option.some.inj hrun
    have hmem : "t_other" ∈ out.value.map (·.tenantId) := by rw [hvalue]; exact List.mem_cons_self
    obtain ⟨x, hx, htenant⟩ := List.mem_map.1 hmem
    refine ⟨out, rfl, (break_glass_audited sampleDeployment sampleStoreApi (.search h) rfl ⟨x, hx, ?_⟩).2 ⟨?_, rfl⟩⟩
    · rw [htenant]
      decide
    · show "search" ≠ "sample_by_wing"
      decide

end Panella
