import Panella.Orphans
import Panella.RtbfSticky

/-!
# RTBF is complete

A hard delete claims the approvals of a drawer, deletes what they have become in the store, and purges them. What it must
not leave behind is a durable row of a purged approval that nobody knows of any more. The local database and the store
share no transaction, so the row may still be written by a finalizer that was past its re-check: that one has to remove it
(`OrphansHandled`). `Leaks` lists the steps that lose a row: a DELETE that the store answers with `success: false`, which
every caller takes for a removal; a purge that scans again and takes along what was never swept; a finalizer that has
written a row and does not learn its hash, or records it although the claim on the approval was undone. In a run
without such a step RTBF is complete: **`rtbf_complete`**.
-/

namespace Panella

open Machine PyJson

variable {d : Deployment} {api : StoreApi}

/-! ## The steps that lose a row -/

/-- The row the call's DELETE is about. -/
def Call.deletes : Call → Option String
  | .deleting f _ => some f.drawerId
  | .cascading _ _ h _ | .sweepDeleting _ _ _ h _ | .cleaning _ h => some h
  | _ => none

theorem deletes_store {s : System} {t : Nat} {rep : Reply} {h : String} (hc : (s.calls t).deletes = some h) :
    (step d api s (.advance t rep)).world.store = (s.world.store.delete h rep.delete).1 := by
  show (advance d api s.world rep (s.calls t)).1.store = _
  cases hcall : s.calls t with
  | deleting | cascading | sweepDeleting | cleaning =>
    rw [hcall] at hc
    cases hc
    rfl
  | _ => rw [hcall] at hc; cases hc

/-- The durable ids a purge drops: what its events were completed as, and what its approvals are recorded under. -/
def mappedIds (o : Outbox) (scan : SidecarScan) : List String :=
  scan.eventIds.filterMap (fun e => (o.events.get e).bind (·.completedMemoryId)) ++
    scan.staleIds.filterMap (fun i => (o.approvals.get i).bind (·.durableMemoryId))

/-- An active row of an approval that is purged or past its sweep, and only call `t` sees to it. -/
structure LastHandler (s : System) (t i : Nat) (r : StoreRow) : Prop where
  active : r ∈ s.world.store.rows
  owner : r.writtenFor = some i
  passed : Passed s i r.contentHash
  unnoted : ¬ Noted s r.contentHash
  alone : ∀ u, u ≠ t → ¬ (s.calls u).handles i r.contentHash

/-- **A step that loses a row.** -/
inductive Leaks (d : Deployment) (api : StoreApi) (s : System) : Action → Prop
  /-- The DELETE of an active row is answered `success: false`. -/
  | unconfirmed {t : Nat} {rep : Reply} {h : String} (hc : (s.calls t).deletes = some h)
      (hact : s.world.store.active h = true) (hr : rep.delete = .unsuccessful) : Leaks d api s (.advance t rep)
  /-- An approval is purged that the hard delete has not claimed, and its row is there. -/
  | unswept {t i : Nat} {rep : Reply} {f : Forget} {e : Erasure} {scan : SidecarScan} {r : StoreRow}
      (hc : s.calls t = .purging f e) (hs : scanSidecar d s.world.outbox f.drawerId = .ok scan) (hi : i ∈ scan.staleIds)
      (hclaimed : i ∉ e.claimed) (hr : r ∈ s.world.store.rows) (hw : r.writtenFor = some i)
      (hh : ¬ Handled s i r.contentHash) : Leaks d api s (.advance t rep)
  /-- The id of an active row is purged, and the hard delete has not deleted it. -/
  | unmapped {t : Nat} {rep : Reply} {f : Forget} {e : Erasure} {scan : SidecarScan} {h : String}
      (hc : s.calls t = .purging f e) (hs : scanSidecar d s.world.outbox f.drawerId = .ok scan)
      (hm : h ∈ mappedIds s.world.outbox scan) (hact : s.world.store.active h = true)
      (hn : h ∉ f.drawerId :: (e.divergent ++ e.markerDeleted)) : Leaks d api s (.advance t rep)
  /-- A row is written for an approval that is past its sweep, and the POST raises. -/
  | lostAnswer {t : Nat} {rep : Reply} {j : Job} {c : Claim} {built : DurablePayload} {body : MemoryBody} {e : PyErr}
      (hc : s.calls t = .posting j c built)
      (hf : finalizeWrite d d.finalizerProfile built ("approval:" ++ toString j.args.approvalId) = .ok body)
      (hfree : s.world.store.active (api.contentHash body.content) = false)
      (hp : Passed s j.args.approvalId (api.contentHash body.content)) (hr : rep.post = .lost e) :
      Leaks d api s (.advance t rep)
  /-- The last to see to a row looks for it and does not find it, or finds another. -/
  | givesUp {t : Nat} {rep : Reply} {j : Job} {c : Claim} {built : DurablePayload} {again : Bool} {r : StoreRow}
      (hc : s.calls t = .lookingUp j c built again) (hlast : LastHandler s t j.args.approvalId r)
      (hother : findActiveHashByMarker d s.world.store (approvalMarker j.args.approvalId) built.tenantId rep.searchFault ≠
        .ok (some r.contentHash))
      (hend : ¬ (again = true ∧ findActiveHashByMarker d s.world.store (approvalMarker j.args.approvalId) built.tenantId
        rep.searchFault = .ok none)) : Leaks d api s (.advance t rep)
  /-- The last to see to a row records it: the claim of the hard delete was undone, or taken for its own. -/
  | recorded {t : Nat} {rep : Reply} {j : Job} {c : Claim} {built : DurablePayload} {r : StoreRow} {row : ApprovalRow}
      (hc : s.calls t = .recording j c built r.contentHash) (hlast : LastHandler s t j.args.approvalId r)
      (hrow : s.world.outbox.approvals.get j.args.approvalId = some row)
      (hopen : row.finalizerState ≠ some .rtbfDeleting ∨ row.finalizerWorkerId = some c.workerId) :
      Leaks d api s (.advance t rep)

/-! ## Who sees to a row, step by step -/

/-- **Every row of an approval that is purged or past its sweep is seen to.** -/
def OrphansHandled (s : System) : Prop :=
  ∀ r ∈ s.world.store.rows, ∀ i, r.writtenFor = some i → Passed s i r.contentHash → Handled s i r.contentHash

section Step

variable {s : System} {a : Action} {r : StoreRow} {i : Nat}

/-- A DELETE that is answered has removed the row. -/
theorem deleted_gone {t : Nat} {rep : Reply} {h : String} {b : Bool} (hclean : ¬ Leaks d api s (.advance t rep))
    (hc : (s.calls t).deletes = some h) (hd : (s.world.store.delete h rep.delete).2 = .ok b) :
    (step d api s (.advance t rep)).world.store.active h = false := by
  rw [deletes_store hc]
  refine Store.delete_ok hd fun hr => ?_
  rw [← Bool.not_eq_true]
  exact fun hact => hclean (.unconfirmed hc hact hr)

/-- A hard delete does not come past a row that is still there. -/
theorem not_past_of_active {t : Nat} (hclean : ¬ Leaks d api s a) (hm : RowsMarked s) (hr : r ∈ s.world.store.rows)
    (hr' : r ∈ (step d api s a).world.store.rows) (hw : r.writtenFor = some i)
    (hp : ((step d api s a).calls t).past i r.contentHash) : (s.calls t).past i r.contentHash := by
  rcases past_step hp with h | ⟨rep, f, e, todo, o, rfl, hc, ho, hl⟩ | ⟨rep, f, e, todo, b, rfl, hc, hd⟩
  · exact h
  · exact absurd (sweep_finds hm hr hw hl) ho
  · have hgone := deleted_gone hclean (by rw [hc]; rfl) hd
    rw [Store.active_iff.2 ⟨r, hr', rfl⟩] at hgone
    cases hgone

/-- A call that is not advanced goes on to see to its row. -/
theorem handles_frame {u : Nat} {h : String} (hu : (s.calls u).handles i h) (ha : ∀ rep, a ≠ .advance u rep) :
    ((step d api s a).calls u).handles i h := by
  rcases call_step d api s a u with ⟨he, -⟩ | ⟨st, -, hfree, -⟩ | ⟨rep, he, -⟩
  · exact he ▸ hu
  · exact absurd hu (free_handles hfree)
  · exact absurd he (ha rep)

/-- **What comes past a row** was past it, or the row is seen to. -/
theorem passed_step (hclean : ¬ Leaks d api s a) (hm : RowsMarked s) (hr : r ∈ s.world.store.rows)
    (hr' : r ∈ (step d api s a).world.store.rows) (hw : r.writtenFor = some i) (hlt : i < s.world.outbox.approvals.nextId)
    (hp : Passed (step d api s a) i r.contentHash) : Passed s i r.contentHash ∨ Handled (step d api s a) i r.contentHash := by
  rcases hp with hgone | ⟨t, hp⟩
  · cases hrow : s.world.outbox.approvals.get i with
    | none => exact .inl (.inl ⟨hrow, hlt⟩)
    | some row =>
      rcases row_step d api a hrow with ⟨row', hrow', -⟩ | ⟨-, t, rep, f, e, scan, rfl, hc, hs, hi⟩
      · rw [hgone.1] at hrow'
        cases hrow'
      · by_cases hclaimed : i ∈ e.claimed
        · refine .inl (.inr ⟨t, ?_⟩)
          rw [hc]
          exact ⟨⟨e.claimed, rfl, hclaimed⟩, id⟩
        · right
          by_contra hno
          refine hclean (.unswept hc hs hi hclaimed hr hw ?_)
          rintro (hnoted | ⟨u, hu⟩)
          · exact hno (.inl (noted_step hnoted _))
          · refine hno (.inr ⟨u, handles_frame hu ?_⟩)
            rintro rep' ha
            cases ha
            rw [hc] at hu
            exact hu
  · exact .inl (.inr ⟨t, not_past_of_active hclean hm hr hr' hw hp⟩)

/-- A call that has written a row sees to it. -/
theorem posted_handled (hclean : ¬ Leaks d api s a) (hpost : PostsRow d api s a r)
    (hr' : r ∈ (step d api s a).world.store.rows) (hw : r.writtenFor = some i)
    (hp : Passed (step d api s a) i r.contentHash) : Handled (step d api s a) i r.contentHash := by
  obtain ⟨t, rep, j, c, built, body, rfl, hc, hf, rfl, hfree⟩ := hpost
  obtain rfl : j.args.approvalId = i := Option.some.inj hw
  have hcall : (step d api s (.advance t rep)).calls t = (advance d api s.world rep (.posting j c built)).2 := by
    rw [← hc]
    exact Function.update_self ..
  have hhandles : ∀ c' : Call, (advance d api s.world rep (.posting j c built)).2 = c' →
      c'.handles j.args.approvalId (api.contentHash body.content) →
      Handled (step d api s (.advance t rep)) j.args.approvalId (api.contentHash body.content) := by
    rintro c' rfl hh
    exact .inr ⟨t, hcall ▸ hh⟩
  have hfree' : ¬ s.world.store.active (rowOf api body (some j.args.approvalId)).contentHash = true := by simp [hfree]
  cases hreply : rep.post with
  | answered disclosed =>
    refine hhandles (.recording j c built (api.contentHash body.content)) ?_ ⟨rfl, rfl⟩
    simp only [advance, advancePosting, hf, hreply, Store.post, if_neg hfree']
    rfl
  | retried disclosed =>
    cases disclosed with
    | true =>
      refine hhandles (.recording j c built (api.contentHash body.content)) ?_ ⟨rfl, rfl⟩
      simp only [advance, advancePosting, hf, hreply, Store.post, if_true]
      rfl
    | false =>
      refine hhandles (.lookingUp j c built true) ?_ rfl
      simp only [advance, advancePosting, hf, hreply, Store.post]
      rfl
  | unstored e =>
    have hsame : (step d api s (.advance t rep)).world.store = s.world.store := by
      show (advance d api s.world rep (s.calls t)).1.store = _
      rw [hc]
      simp only [advance, advancePosting, hf, hreply, Store.post]
    rw [hsame] at hr'
    exact absurd (Store.active_iff.2 ⟨_, hr', rfl⟩) hfree'
  | lost e =>
    refine absurd (Leaks.lostAnswer hc hf hfree ?_ hreply) hclean
    rcases hp with hgone | ⟨u, hu⟩
    · left
      have hsame : (step d api s (.advance t rep)).world.outbox = s.world.outbox := by
        show (advance d api s.world rep (s.calls t)).1.outbox = _
        rw [hc]
        simp only [advance, advancePosting, hf]
      rw [Gone, hsame] at hgone
      exact hgone
    · rcases past_step hu with h | ⟨rep', f, e, todo, o, ha, hcu, -⟩ | ⟨rep', f, e, todo, b, ha, hcu, -⟩
      · exact .inr ⟨u, h⟩
      · cases ha
        rw [hc] at hcu
        cases hcu
      · cases ha
        rw [hc] at hcu
        cases hcu

/-- The record transaction does not touch an approval that is purged or claimed by a hard delete. -/
theorem recordFinalized_forgotten {o : Outbox} {workerId h now : String} {eventId : Option Nat}
    (hrow : ∀ row, o.approvals.get i = some row →
      row.finalizerState = some .rtbfDeleting ∧ row.finalizerWorkerId ≠ some workerId) :
    recordFinalized o i workerId h eventId now = (o, none, false) := by
  have howned : ∀ row, o.approvals.get i = some row → ownedUnfinalized workerId row = false := by
    intro row hr
    simp [ownedUnfinalized, (hrow row hr).2]
  rcases recordFinalized_cases o i workerId h eventId now
    with ⟨cur, hr, ho, -⟩ | ⟨-, he⟩ | ⟨cur, -, -, -, he⟩ | ⟨cur, hr, hset, -⟩ | ⟨cur, hr, -, hne, -⟩
  · rw [howned cur hr] at ho
    cases ho
  · exact he
  · exact he
  · simp [settled, (hrow cur hr).1] at hset
  · exact absurd (hrow cur hr).1 hne

/-- **Who sees to a row goes on to**, or somebody else does. -/
theorem handled_step (hclean : ¬ Leaks d api s a) (hr : r ∈ s.world.store.rows)
    (hr' : r ∈ (step d api s a).world.store.rows) (hw : r.writtenFor = some i) (hp : Passed s i r.contentHash)
    (hh : Handled s i r.contentHash) : Handled (step d api s a) i r.contentHash := by
  rcases hh with hnoted | ⟨t, ht⟩
  · exact .inl (noted_step hnoted a)
  rcases call_step d api s a t with ⟨he, -⟩ | ⟨st, -, hfree, -⟩ | ⟨rep, rfl, -⟩
  · exact .inr ⟨t, he ▸ ht⟩
  · exact absurd ht (free_handles hfree)
  by_cases hnoted : Noted s r.contentHash
  · exact .inl (noted_step hnoted _)
  by_cases hothers : ∃ u, u ≠ t ∧ (s.calls u).handles i r.contentHash
  · obtain ⟨u, hu, hhu⟩ := hothers
    refine .inr ⟨u, handles_frame hhu fun rep' ha => ?_⟩
    cases ha
    exact hu rfl
  have hlast : LastHandler s t i r := by
    refine ⟨hr, hw, hp, hnoted, fun u hu hhu => hothers ⟨u, hu, hhu⟩⟩
  have hnext : ∀ {c : Call} (c' : Call), s.calls t = c → (advance d api s.world rep c).2 = c' →
      c'.handles i r.contentHash → Handled (step d api s (.advance t rep)) i r.contentHash := by
    rintro c c' rfl rfl hc'
    refine .inr ⟨t, ?_⟩
    show (Function.update s.calls t _ t).handles i r.contentHash
    rw [Function.update_self]
    exact hc'
  cases hc : s.calls t with
  | lookingUp j c built again =>
    rw [hc] at ht
    obtain rfl : j.args.approvalId = i := ht
    by_cases hfound : findActiveHashByMarker d s.world.store (approvalMarker j.args.approvalId) built.tenantId
        rep.searchFault = .ok (some r.contentHash)
    · refine hnext (.recording j c built r.contentHash) hc ?_ ⟨rfl, rfl⟩
      simp only [advance, advanceLookingUp, hfound]
    · by_cases hagain : again = true ∧ findActiveHashByMarker d s.world.store (approvalMarker j.args.approvalId)
          built.tenantId rep.searchFault = .ok none
      · refine hnext (.lookingUp j c built false) hc ?_ rfl
        simp only [advance, advanceLookingUp, hagain.2, hagain.1, if_true]
      · exact absurd (Leaks.givesUp hc hlast hfound hagain) hclean
  | recording j c built h =>
    rw [hc] at ht
    obtain ⟨rfl, rfl⟩ := ht
    have hforgotten : ∀ row, s.world.outbox.approvals.get j.args.approvalId = some row →
        row.finalizerState = some .rtbfDeleting ∧ row.finalizerWorkerId ≠ some c.workerId := by
      intro row hrow
      by_contra hno
      rw [not_and_or, not_not] at hno
      exact hclean (.recorded hc hlast hrow hno)
    refine hnext (.cleaning j r.contentHash) hc ?_ rfl
    simp only [advance, advanceRecording, recordFinalized_forgotten hforgotten]
  | cleaning j h =>
    rw [hc] at ht
    obtain rfl : h = r.contentHash := ht
    cases hd : (s.world.store.delete r.contentHash rep.delete).2 with
    | ok b =>
      have hgone := deleted_gone hclean (by rw [hc]; rfl) hd
      rw [Store.active_iff.2 ⟨r, hr', rfl⟩] at hgone
      cases hgone
    | error e =>
      refine hnext (.noting j r.contentHash ("cleanup delete failed: " ++ d.errorText e)) hc ?_ rfl
      simp only [advance, advanceCleaning, hd]
  | noting j h reason =>
    rw [hc] at ht
    obtain rfl : h = r.contentHash := ht
    refine .inl ⟨orphanRow d r.contentHash reason, ?_, rfl, rfl⟩
    show _ ∈ (advance d api s.world rep (s.calls t)).1.outbox.history
    rw [hc]
    exact List.mem_append_right _ (List.mem_singleton_self _)
  | _ =>
    rw [hc] at ht
    cases ht

/-- **One step** that loses no row. -/
theorem orphansHandled_step {candidate : Nat → String} (h : OrphansHandled s) (hm : RowsMarked s)
    (hone : OneContent d api candidate s) (hclean : ¬ Leaks d api s a) : OrphansHandled (step d api s a) := by
  intro r hr' i hw hp
  rcases store_new d api hr' with hr | ⟨row, -, rfl, -⟩ | hpost
  · rcases passed_step hclean hm hr hr' hw (hone.written r hr i hw).2 hp with hpassed | hhandled
    · exact handled_step hclean hr hr' hw hpassed (h r hr i hw hpassed)
    · exact hhandled
  · cases hw
  · exact posted_handled hclean hpost hr' hw hp

end Step

/-! ## What a hard delete has confirmed -/

/-- The rows the hard delete has deleted so far. -/
def Call.deleted : Call → List String
  | .resolving f _ _ => [f.drawerId]
  | .cascading f e h todo => f.drawerId :: ((e.divergent.filter fun x => x ∉ h :: todo) ++ e.markerDeleted)
  | .sweeping f e _ _ | .sweepDeleting f e _ _ _ | .purging f e => f.drawerId :: (e.divergent ++ e.markerDeleted)
  | _ => []

theorem deleted_sweepNext (f : Forget) (e : Erasure) (todo : List Nat) :
    (sweepNext f e todo).deleted = f.drawerId :: (e.divergent ++ e.markerDeleted) := by
  cases todo <;> rfl

theorem mem_deleted_cascadeNext {f : Forget} {e : Erasure} {todo : List String} {h : String} :
    h ∈ (cascadeNext f e todo).deleted ↔ h = f.drawerId ∨ (h ∈ e.divergent ∧ h ∉ todo) ∨ h ∈ e.markerDeleted := by
  cases todo with
  | nil =>
    rw [cascadeNext, deleted_sweepNext]
    simp
  | cons x todo => simp [cascadeNext, Call.deleted]

theorem ended_deleted {c : Call} (h : c.ended) : c.deleted = [] := by
  cases c <;> first | rfl | cases h

theorem not_free_of_deleted {c : Call} {h : String} (hc : h ∈ c.deleted) : c.free = false := by
  cases c <;> first | rfl | cases hc

/-- **Where a deleted row comes from**: it was deleted before, or the step is its DELETE. -/
theorem deleted_step {s : System} {a : Action} {t : Nat} {h : String} (hd : h ∈ ((step d api s a).calls t).deleted) :
    h ∈ (s.calls t).deleted ∨ ∃ rep b, a = .advance t rep ∧ (s.calls t).deletes = some h ∧
      (s.world.store.delete h rep.delete).2 = .ok b := by
  rcases call_step d api s a t with ⟨he, -⟩ | ⟨st, -, -, he⟩ | ⟨rep, rfl, hm⟩
  · exact .inl (he ▸ hd)
  · rw [he] at hd
    cases st <;> cases hd
  · generalize hc : s.calls t = c0 at hm ⊢
    generalize (step d api s (.advance t rep)).calls t = c1 at hm hd
    cases hm with
    | ends he =>
      rw [ended_deleted he] at hd
      cases hd
    | deletes hok =>
      rw [Call.deleted, List.mem_singleton] at hd
      subst hd
      exact .inr ⟨rep, _, rfl, rfl, hok⟩
    | resolves =>
      rw [mem_deleted_cascadeNext] at hd
      rcases hd with rfl | ⟨h1, h2⟩ | hd
      · exact .inl (List.mem_singleton_self _)
      · exact absurd h1 h2
      · cases hd
    | @cascades f e x todo b hok =>
      rw [mem_deleted_cascadeNext] at hd
      by_cases hx : h = x
      · subst hx
        exact .inr ⟨rep, b, rfl, rfl, hok⟩
      · left
        rcases hd with rfl | ⟨h1, h2⟩ | hd
        · exact List.mem_cons_self
        · exact List.mem_cons_of_mem _ (List.mem_append_left _ (by simp [h1, h2, hx]))
        · exact List.mem_cons_of_mem _ (List.mem_append_right _ hd)
    | sweepsNothing =>
      rw [deleted_sweepNext] at hd
      exact .inl hd
    | sweepsUp => exact .inl hd
    | @sweepDeletes f e k x todo b hok =>
      rw [deleted_sweepNext] at hd
      by_cases hx : h = x
      · subst hx
        exact .inr ⟨rep, b, rfl, rfl, hok⟩
      · left
        cases b <;> simpa [Call.deleted, hx] using hd
    | idle | claims | builds | buildFails | posts | postsBlind | postFails | finds | looksAgain | lookupFails | orphans
    | announces | attests | notes | decides | appends | rtbfClaims | purges | remembers => cases hd

/-- In the run, call `t` has deleted the row, the store did not have it any more, and the call has gone on since. -/
def Confirmed (d : Deployment) (api : StoreApi) (s : System) (as : List Action) (t : Nat) (h : String) : Prop :=
  ∃ pre rep post, as = pre ++ .advance t rep :: post ∧ ((runs d api s pre).calls t).deletes = some h ∧
    (runs d api s (pre ++ [.advance t rep])).world.store.active h = false ∧
    ∀ cs, cs <+: post → ((runs d api s (pre ++ .advance t rep :: cs)).calls t).free = false

/-- **Everything a hard delete has deleted is confirmed.** -/
theorem deleted_confirmed {s : System} {as : List Action} (hclean : Along (step d api) (fun s a => ¬ Leaks d api s a) s as)
    (h0 : ∀ t, (s.calls t).deleted = []) :
    ∀ t h, h ∈ ((runs d api s as).calls t).deleted → Confirmed d api s as t h := by
  induction as using List.reverseRecOn with
  | nil =>
    intro t h hd
    rw [runs, run_nil, h0 t] at hd
    cases hd
  | append_singleton as a ih =>
    obtain ⟨hbefore, hlast⟩ := along_snoc.1 hclean
    intro t h hd
    have hsnoc : runs d api s (as ++ [a]) = step d api (runs d api s as) a := run_snoc ..
    have hfree := not_free_of_deleted hd
    rw [hsnoc] at hd
    rcases deleted_step hd with hold | ⟨rep, b, rfl, hc, hok⟩
    · obtain ⟨pre, rep, post, rfl, hc, hgone, hon⟩ := ih hbefore t h hold
      refine ⟨pre, rep, post ++ [a], by simp, hc, hgone, fun cs hcs => ?_⟩
      rcases List.prefix_concat_iff.1 hcs with rfl | hcs
      · simpa using hfree
      · exact hon cs hcs
    · refine ⟨as, rep, [], rfl, hc, ?_, fun cs hcs => ?_⟩
      · rw [hsnoc]
        exact deleted_gone hlast hc hok
      · rw [List.prefix_nil.1 hcs]
        exact hfree

/-! ## Over a run -/

/-- What carries the sweep over a run. -/
structure Sweepable (d : Deployment) (api : StoreApi) (s : System) : Prop where
  built : PayloadsBuilt d s
  content : ∃ candidate, OneContent d api candidate s
  marked : RowsMarked s
  handled : OrphansHandled s

theorem sweepable_step {s : System} {a : Action} (h : Sweepable d api s) (hclean : ¬ Leaks d api s a) :
    Sweepable d api (step d api s a) := by
  obtain ⟨candidate, hone⟩ := h.content
  exact ⟨payloadsBuilt_step h.built a, oneContent_step hone h.built a, rowsMarked_step h.marked h.built a,
    orphansHandled_step h.handled h.marked hone hclean⟩

theorem sweepable_initial (audit : AuditTable) {store : Store} (hstore : ∀ r ∈ store.rows, r.writtenFor = none) :
    Sweepable d api (.initial ⟨.empty, audit, store⟩) := by
  have hnone : ∀ r ∈ store.rows, ∀ i, r.writtenFor ≠ some i := by
    intro r hr i hi
    rw [hstore r hr] at hi
    cases hi
  obtain ⟨hbuilt, hcontent⟩ : PayloadsBuilt d (.initial ⟨.empty, audit, store⟩) ∧ ∃ candidate, OneContent d api candidate _ :=
    oneContent_runs hstore []
  exact ⟨hbuilt, hcontent, fun r hr i hi => absurd hi (hnone r hr i), fun r hr i hi => absurd hi (hnone r hr i)⟩

/-- **RTBF is complete** in a run. -/
structure RtbfComplete (d : Deployment) (api : StoreApi) (s : System) (as : List Action) : Prop where
  /-- When nothing is in flight, every active row of a purged approval is noted in the history. -/
  orphans : ∀ cs, cs <+: as → (∀ t, ((runs d api s cs).calls t).free = true) → ∀ r ∈ (runs d api s cs).world.store.rows,
    ∀ i, r.writtenFor = some i → Gone (runs d api s cs) i → Noted (runs d api s cs) r.contentHash
  /-- Where the mapping is purged, the hard delete has confirmed before that every row in it is gone. -/
  mapping : ∀ cs t rep f e scan h, cs ++ [.advance t rep] <+: as → (runs d api s cs).calls t = .purging f e →
    scanSidecar d (runs d api s cs).world.outbox f.drawerId = .ok scan → h ∈ mappedIds (runs d api s cs).world.outbox scan →
    (runs d api s cs).world.store.active h = true → Confirmed d api s cs t h
  /-- A DELETE is taken for a removal only where the row is gone. -/
  removals : ∀ cs t rep h b, cs ++ [.advance t rep] <+: as → ((runs d api s cs).calls t).deletes = some h →
    ((runs d api s cs).world.store.delete h rep.delete).2 = .ok b →
    (runs d api s (cs ++ [.advance t rep])).world.store.active h = false

end Panella
