import Panella.PriorSet

/-!
# When a replacement settles the set of a source

The store answers, deduplicates by `normalizedHash` and appends what is new (`normalizedApi`, `Answered`). A replacement
converges (`Converges`) if it returns, the source's active hashes are the expected ones, those of every other source are as
before, and the same call made again finds nothing to do.

| part of `Rewritable` | what fails without it |
| --- | --- |
| `found`, `owned` | the prior set is not deleted |
| `writable`, `quiet` | a `write` raises |
| `settled` | the verify step: what is stored is not what is expected |
| `others` | another source loses or gains a hash |

**`replacement_converges_iff`**: a replacement converges where the set is already the expected one or is `Rewritable`, and
nowhere else. `settled` asks that no row outside the set holds the content of an atom: the store keeps one row for a content,
so two sources cannot both have it (`shared_content_unsettled`).
-/

namespace Panella

open Fallible PyJson

variable {d : Deployment} {lower : String → String} {p : WriteProfile} {pr : Principal} {sink : AuditSink}
variable {r r' : ReplaceReplies} {key room memoryType tenantId : String} {atoms : List AtomWrite} {s s' : ClientState}

/-! ## A store that works -/

theorem normalizedHash_ne (lower : String → String) (content : String) : normalizedHash lower content ≠ "" := by
  intro h
  have hhex := isSha256Hex_hexdigest (Sha256.utf8 (lower (PyText.stripSpace content)))
  rw [show Sha256.hexdigest (Sha256.utf8 (lower (PyText.stripSpace content))) = "" from h] at hhex
  revert hhex
  decide

/-- A store whose hash is `generate_content_hash`. -/
def normalizedApi (lower : String → String) : StoreApi := ⟨normalizedHash lower, normalizedHash_ne lower⟩

/-- Every request is answered, and what is local works. -/
structure ReplaceReplies.Answered (r : ReplaceReplies) (sink : AuditSink) : Prop where
  finds : r.firstFind = none ∧ r.priorFind = none ∧ r.remainingFind = none ∧ r.lastFind = none
  owned : ∀ k, (r.candidate k).owned = none
  deletes : ∀ k, (r.candidate k).delete = .answered
  queues : ∀ k, (r.atom k).enqueueFault = none
  posts : ∀ k, ∃ disclosed, (r.atom k).post = .answered disclosed
  audits : ∀ w, sink w = .ok ()

/-! ## The quota -/

/-- The looks of a call at the quota. -/
def ReplaceReplies.quotaLooks (r : ReplaceReplies) (now : Rat) : Prop :=
  now = r.preflight ∨ now = r.deleteQuota ∨ ∃ k, now = (r.atom k).quota

/-- The writes fit the quota at each look. -/
structure InQuota (p : AgentProfile) (n : WriteCount) (r : ReplaceReplies) (writes : Nat) : Prop where
  daily : n.writesToday + writes ≤ p.writeQuota.dailyMaxDrawers
  burst : ∀ now, r.quotaLooks now →
    ((n.writeTimestamps.filter fun ts => now - ts < 60).length : Int) + writes ≤ p.writeQuota.burstMaxPerMinute

/-- The count after at most some writes. -/
def WriteCount.Within (n : WriteCount) (writes : Nat) (m : WriteCount) : Prop :=
  m.writesToday ≤ n.writesToday + writes ∧
    ∃ old new, m.writeTimestamps = old ++ new ∧ old.Sublist n.writeTimestamps ∧ new.length ≤ writes

namespace WriteCount

variable {n m : WriteCount} {k : Nat}

theorem within_self (n : WriteCount) : n.Within 0 n := ⟨by simp, n.writeTimestamps, [], by simp, List.Sublist.refl _, by simp⟩

theorem Within.succ (h : n.Within k m) : n.Within (k + 1) m := by
  obtain ⟨hday, old, new, he, hold, hnew⟩ := h
  exact ⟨by omega, old, new, he, hold, by omega⟩

theorem Within.enforced (h : n.Within k m) (p : AgentProfile) (now : Rat) : n.Within k (m.enforced p now) := by
  obtain ⟨hday, old, new, he, hold, hnew⟩ := h
  unfold WriteCount.enforced
  split
  · exact ⟨hday, old, new, he, hold, hnew⟩
  · refine ⟨hday, old.filter fun ts => now - ts < 60, new.filter fun ts => now - ts < 60, ?_, ?_, ?_⟩
    · rw [← List.filter_append, ← he]
    · exact List.filter_sublist.trans hold
    · exact (List.length_filter_le _ _).trans hnew

theorem Within.record (h : n.Within k m) (now : Rat) : n.Within (k + 1) (m.record now) := by
  obtain ⟨hday, old, new, he, hold, hnew⟩ := h
  refine ⟨by simp only [WriteCount.record]; omega, old, new ++ [now], by simp [WriteCount.record, he], hold, ?_⟩
  simp
  omega

end WriteCount

theorem InQuota.preflight {writes : Nat} {p : AgentProfile} {n : WriteCount} (h : InQuota p n r writes) :
    checkWriteQuota p (n.at' r.preflight) writes = .ok () := by
  have hburst := h.burst r.preflight (.inl rfl)
  have hdaily := h.daily
  unfold checkWriteQuota
  split
  · rfl
  · rw [if_neg (by simp only [WriteCount.at']; omega)]
    exact if_neg (not_lt.2 hburst)

/-- **A list that fits the quota passes each look at it**, as long as no more is written than fits. -/
theorem InQuota.enforce {writes k : Nat} {p : AgentProfile} {n m : WriteCount} {now : Rat} (h : InQuota p n r writes)
    (hk : k < writes) (hm : n.Within k m) (hnow : r.quotaLooks now) : enforceWriteQuota p (m.at' now) = .ok () := by
  obtain ⟨hday, old, new, he, hold, hnew⟩ := hm
  have hdaily := h.daily
  have hburst := h.burst now hnow
  have hlen : ((m.writeTimestamps.filter fun ts => now - ts < 60).length : Int) ≤
      (n.writeTimestamps.filter fun ts => now - ts < 60).length + k := by
    rw [he, List.filter_append, List.length_append]
    have h1 := (hold.filter fun ts => decide (now - ts < 60)).length_le
    have h2 := List.length_filter_le (fun ts => decide (now - ts < 60)) new
    omega
  have hroom : ((m.writeTimestamps.filter fun ts => now - ts < 60).length : Int) < p.writeQuota.burstMaxPerMinute := by omega
  unfold enforceWriteQuota
  rw [if_neg (by simp only [WriteCount.at']; omega)]
  exact if_neg (not_le.2 hroom)

/-! ## The set of a source -/

theorem Store.length_tagged (st : Store) (tags : List String) :
    (st.tagged tags).length = (st.rows.filter fun x => x.hasTags tags).length := by
  simp [Store.tagged]

/-- **The search for a source**: all of its hashes, below the limit. -/
theorem findSource_eq (d : Deployment) (st : Store) (key tenantId : String) :
    (∃ e, findSource d st key tenantId none = .error e ∧
        findActiveHashesLimit ≤ (st.tagged (markerTags (sourceTag key) tenantId)).length) ∨
      findSource d st key tenantId none = .ok (st.tagged (markerTags (sourceTag key) tenantId)) ∧
        (st.tagged (markerTags (sourceTag key) tenantId)).length < findActiveHashesLimit := by
  rw [Store.length_tagged]
  unfold findSource sourceVersions findActiveHashesByTag Store.searchByTag
  simp only
  by_cases hfew : (st.rows.filter fun x => x.hasTags (markerTags (sourceTag key) tenantId)).length < findActiveHashesLimit
  · refine .inr ⟨?_, hfew⟩
    simp only [List.take_of_length_le hfew.le]
    rw [if_neg (by simpa using hfew)]
    simp only [List.filter_filter, Bool.and_self, mapError_of_ok]
    exact congrArg Except.ok (eraseDups_of_nodup (st.nodup_tagged _))
  · rw [if_pos (by simp; omega)]
    exact .inl ⟨_, rfl, by omega⟩

theorem sameSet_iff {a b : List String} : sameSet a b = true ↔ ∀ h, h ∈ a ↔ h ∈ b := by
  simp only [sameSet, Bool.and_eq_true, List.all_eq_true, List.contains_eq_mem, decide_eq_true_eq]
  exact ⟨fun h x => ⟨h.1 x, h.2 x⟩, fun h => ⟨fun x => (h x).1, fun x => (h x).2⟩⟩

/-- The active hashes of the source are the expected ones. -/
def HoldsExpected (d : Deployment) (lower : String → String) (key tenantId : String) (atoms : List AtomWrite) (st : Store) :
    Prop :=
  ∀ h, h ∈ st.tagged (markerTags (sourceTag key) tenantId) ↔ h ∈ expectedHashes d lower atoms

theorem HoldsExpected.length {st : Store} (h : HoldsExpected d lower key tenantId atoms st) :
    (st.tagged (markerTags (sourceTag key) tenantId)).length = (expectedHashes d lower atoms).length :=
  ((List.perm_ext_iff_of_nodup (st.nodup_tagged _) (List.nodup_dedup _)).2 h).length_eq

/-- A set below the limit is read, and is seen to be the expected one where it is. -/
theorem unchangedSet_iff {st : Store} (hfind : r.firstFind = none)
    (hfew : (expectedHashes d lower atoms).length < findActiveHashesLimit) :
    unchangedSet d lower r key tenantId atoms st = true ↔ HoldsExpected d lower key tenantId atoms st := by
  unfold unchangedSet
  rw [hfind]
  rcases findSource_eq d st key tenantId with ⟨e, he, hmany⟩ | ⟨he, -⟩
  · rw [he]
    refine iff_of_false (by simp) fun h => ?_
    have := h.length
    omega
  · rw [he]
    exact sameSet_iff

/-! ## The deletes -/

theorem Store.live_remove {st : Store} {h h' : String} (hne : h' ≠ h) : (st.remove h).live h' = st.live h' := by
  unfold Store.live Store.remove
  simp only [List.find?_filter]
  congr 2
  funext x
  by_cases hx : x.contentHash = h'
  · simp [hx, hne]
  · simp [hx]

/-- The row under a hash passes the ownership check of a turn. -/
def PassesOwnership (d : Deployment) (p : AgentProfile) (pr : Principal) (r : CandidateReplies) (st : Store) (h : String) :
    Prop :=
  requireMutationTargetOwned d p pr r.scope (st.live.reply none h) h = .ok true

theorem PassesOwnership.remove_iff {p : AgentProfile} {r : CandidateReplies} {st : Store} {h h' : String} (hne : h' ≠ h) :
    PassesOwnership d p pr r (st.remove h) h' ↔ PassesOwnership d p pr r st h' := by
  unfold PassesOwnership RowStore.reply
  simp only [Store.live_remove hne]

/-- A turn that is answered deletes what is owned, and nothing else. -/
theorem takes_iff_owned {p : AgentProfile} {r : CandidateReplies} {st : Store} {h : String} (howned : r.owned = none)
    (hdelete : r.delete = .answered) : r.takes d p pr st h = true ↔ PassesOwnership d p pr r st h := by
  unfold CandidateReplies.takes PassesOwnership
  rw [howned, hdelete]
  cases requireMutationTargetOwned d p pr r.scope (st.live.reply none h) h with
  | error e => simp
  | ok owned => cases owned <;> simp [DeleteReply.lands]

theorem auditIfCrossTenant_returns (hsink : ∀ w, sink w = .ok ()) (pr : Principal) (now : Instant) (w : AuditWrite) :
    ∃ o, auditIfCrossTenant sink pr now w = .ok o := by
  unfold auditIfCrossTenant
  split
  · rw [hsink]
    exact ⟨_, rfl⟩
  · exact ⟨_, rfl⟩

theorem deleteCandidate_owned {p : AgentProfile} {r : CandidateReplies} {h : String} (tenantId key : String)
    (howned : r.owned = none) (hdelete : r.delete = .answered) (hsink : ∀ w, sink w = .ok ())
    (ho : PassesOwnership d p pr r s.store h) :
    ∃ gone, (deleteCandidate d p pr sink r tenantId key h s).2 = .ok gone := by
  unfold deleteCandidate
  rw [howned, show requireMutationTargetOwned d p pr r.scope (s.store.live.reply none h) h = .ok true from ho]
  simp only [hdelete, Store.delete]
  cases s.store.active h with
  | false => exact ⟨_, rfl⟩
  | true =>
    obtain ⟨o, haudit⟩ := auditIfCrossTenant_returns hsink pr r.audit
      (crossTenantWrite pr r.tsIso "hard_delete" tenantId (some h) (replacedDetails key) (wf_replacedDetails key))
    simp only [haudit]
    exact ⟨_, rfl⟩

theorem deleteCandidate_count (d : Deployment) (p : AgentProfile) (pr : Principal) (sink : AuditSink) (r : CandidateReplies)
    (tenantId key h : String) (s : ClientState) : (deleteCandidate d p pr sink r tenantId key h s).1.count = s.count := by
  unfold deleteCandidate
  split
  · rfl
  · rfl
  · simp only
    split
    · rfl
    · rfl
    · split <;> rfl

theorem deleteCandidates_count (d : Deployment) (p : AgentProfile) (pr : Principal) (sink : AuditSink) (r : Nat → CandidateReplies)
    (tenantId key : String) (keep : Option String) (k : Nat) (hs : List String) (s : ClientState) :
    (deleteCandidates d p pr sink r tenantId key keep k hs s).1.count = s.count := by
  induction hs generalizing k s with
  | nil => rfl
  | cons h hs ih =>
    have hturn := deleteCandidate_count d p pr sink (r k) tenantId key h s
    rw [deleteCandidates]
    split
    · exact ih (k + 1) s
    cases hstep : deleteCandidate d p pr sink (r k) tenantId key h s with
    | mk s₁ out =>
      rw [hstep] at hturn
      cases out with
      | error e => exact hturn
      | ok gone =>
        have hrest := ih (k + 1) s₁
        simp only
        cases hloop : deleteCandidates d p pr sink r tenantId key keep (k + 1) hs s₁ with
        | mk s₂ out =>
          rw [hloop] at hrest
          cases out <;> exact hrest.trans hturn

/-- **The loop of deletes takes every candidate exactly if each is owned.** -/
theorem takenBy_all_iff (d : Deployment) (p : AgentProfile) (pr : Principal) (tenantId key : String) {r : Nat → CandidateReplies}
    (howned : ∀ k, (r k).owned = none) (hdelete : ∀ k, (r k).delete = .answered) (hsink : ∀ w, sink w = .ok ())
    {hs : List String} (hnodup : hs.Nodup) (k : Nat) (s : ClientState) :
    hs ⊆ takenBy d p pr sink r tenantId key k hs s ↔ ∀ i h, hs[i]? = some h → PassesOwnership d p pr (r (k + i)) s.store h := by
  induction hs generalizing k s with
  | nil => simp
  | cons h hs ih =>
    obtain ⟨hnot, hrest⟩ := List.nodup_cons.1 hnodup
    have hfirst : h ∈ takenBy d p pr sink r tenantId key k (h :: hs) s ↔ PassesOwnership d p pr (r k) s.store h := by
      rw [← takes_iff_owned (howned k) (hdelete k)]
      unfold takenBy
      simp only
      split
      · rename_i ht
        simp [ht]
      · rename_i ht
        refine iff_of_false (fun hm => hnot ?_) ht
        split at hm
        · cases hm
        · exact takenBy_subset _ _ _ _ _ hm
    have hother : PassesOwnership d p pr (r k) s.store h →
        (hs ⊆ takenBy d p pr sink r tenantId key k (h :: hs) s ↔
          ∀ i x, hs[i]? = some x → PassesOwnership d p pr (r (k + 1 + i)) s.store x) := by
      intro ho
      obtain ⟨gone, hok⟩ := deleteCandidate_owned tenantId key (howned k) (hdelete k) hsink ho
      have htakes := (takes_iff_owned (howned k) (hdelete k)).2 ho
      have hstore := deleteCandidate_store d p pr sink (r k) tenantId key h s
      rw [if_pos htakes] at hstore
      have hne : ∀ (i : Nat) (x : String), hs[i]? = some x → x ≠ h := by
        rintro i x hx rfl
        exact hnot (List.mem_of_getElem? hx)
      rw [takenBy]
      simp only [hok, htakes, if_true]
      have hsub : hs ⊆ h :: takenBy d p pr sink r tenantId key (k + 1) hs
          (deleteCandidate d p pr sink (r k) tenantId key h s).1 ↔
          hs ⊆ takenBy d p pr sink r tenantId key (k + 1) hs (deleteCandidate d p pr sink (r k) tenantId key h s).1 := by
        constructor
        · intro hall x hx
          rcases List.mem_cons.1 (hall hx) with rfl | hm
          · exact absurd hx hnot
          · exact hm
        · exact fun hall => List.Subset.trans hall (List.subset_cons_self _ _)
      rw [hsub, ih hrest (k + 1), hstore]
      constructor
      · intro hall i x hx
        exact (PassesOwnership.remove_iff (hne i x hx)).1 (hall i x hx)
      · intro hall i x hx
        exact (PassesOwnership.remove_iff (hne i x hx)).2 (hall i x hx)
    rw [List.cons_subset]
    constructor
    · rintro ⟨hm, hsub⟩ i x hx
      have ho := hfirst.1 hm
      cases i with
      | zero =>
        cases hx
        exact ho
      | succ i =>
        rw [show k + (i + 1) = k + 1 + i by omega]
        exact (hother ho).1 hsub i x hx
    · intro hall
      have ho : PassesOwnership d p pr (r k) s.store h := hall 0 h rfl
      refine ⟨hfirst.2 ho, (hother ho).2 fun i x hx => ?_⟩
      rw [show k + 1 + i = k + (i + 1) by omega]
      exact hall (i + 1) x hx

theorem deleteCandidates_owned (tenantId key : String) {p : AgentProfile} {r : Nat → CandidateReplies}
    (howned : ∀ k, (r k).owned = none) (hdelete : ∀ k, (r k).delete = .answered) (hsink : ∀ w, sink w = .ok ()) {hs : List String} (hnodup : hs.Nodup) {k : Nat}
    (hall : ∀ i h, hs[i]? = some h → PassesOwnership d p pr (r (k + i)) s.store h) :
    ∃ gone, (deleteCandidates d p pr sink r tenantId key none k hs s).2 = .ok gone := by
  induction hs generalizing k s with
  | nil => exact ⟨[], rfl⟩
  | cons h hs ih =>
    obtain ⟨hnot, hnodup⟩ := List.nodup_cons.1 hnodup
    have ho : PassesOwnership d p pr (r k) s.store h := hall 0 h rfl
    obtain ⟨gone, hok⟩ := deleteCandidate_owned tenantId key (howned k) (hdelete k) hsink ho
    have hstore := deleteCandidate_store d p pr sink (r k) tenantId key h s
    rw [if_pos ((takes_iff_owned (howned k) (hdelete k)).2 ho)] at hstore
    obtain ⟨rest, hrest⟩ := ih (s := (deleteCandidate d p pr sink (r k) tenantId key h s).1) (k := k + 1) hnodup (by
      intro i x hx
      have hne : x ≠ h := by
        rintro rfl
        exact hnot (List.mem_of_getElem? hx)
      rw [hstore, PassesOwnership.remove_iff hne, show k + 1 + i = k + (i + 1) by omega]
      exact hall (i + 1) x hx)
    simp only [deleteCandidates, Option.any_none, Bool.false_eq_true, if_false]
    cases hstep : deleteCandidate d p pr sink (r k) tenantId key h s with
    | mk s₁ out =>
      rw [hstep] at hok hrest
      cases hok
      cases hloop : deleteCandidates d p pr sink r tenantId key none (k + 1) hs s₁ with
      | mk s₂ out =>
        rw [hloop] at hrest
        cases hrest
        exact ⟨_, by simp only [hloop]; rfl⟩

/-! ## The writes -/

/-- The row an atom is to be stored as, and whether it asks for `PanellaDedupSkipped`; nothing where it is queued. -/
def plannedRow (d : Deployment) (api : StoreApi) (p : AgentProfile) (pr : Principal) (r : AtomReplies)
    (key room memoryType : String) (a : AtomWrite) : Except PyErr (Option (StoreRow × Bool)) := do
  let c ← atomCall key room memoryType a
  let infer ← writeArguments d p pr r.now c
  let target ← writeTarget d p pr r.scope r.requested c
  let prepared := preparedRow d p pr r.toWriteClock c target infer
  if approvalRequired p prepared.wing prepared.room then
    let _ ← d.dumps (.obj (prepared.candidate p.name))
    .ok none
  else
    let body ← addMemoryBody d prepared.wing prepared.room prepared.content prepared.metadata true c.conversationId
    .ok (some (rowOf api body none, (Dict.getD c.metadata "raise_dedup_skipped" (.bool false)).truthy))

/-- The rows of the atoms, from a position. -/
def plannedRows (d : Deployment) (api : StoreApi) (p : AgentProfile) (pr : Principal) (r : Nat → AtomReplies)
    (key room memoryType : String) : Nat → List AtomWrite → Except PyErr (List (StoreRow × Bool))
  | _, [] => .ok []
  | k, a :: as => do
    let row ← plannedRow d api p pr (r k) key room memoryType a
    let rows ← plannedRows d api p pr r key room memoryType (k + 1) as
    .ok (row.toList ++ rows)

/-- No row that asks for `PanellaDedupSkipped` meets its content. -/
def Quiet : Store → List (StoreRow × Bool) → Prop
  | _, [] => True
  | st, (x, loud) :: rows => (loud = true → st.active x.contentHash = false) ∧ Quiet (st.insert x) rows

theorem quiet_append {st : Store} {xs ys : List (StoreRow × Bool)} :
    Quiet st (xs ++ ys) ↔ Quiet st xs ∧ Quiet ((xs.map Prod.fst).foldl Store.insert st) ys := by
  induction xs generalizing st with
  | nil => simp [Quiet]
  | cons x xs ih => simp only [List.cons_append, Quiet, ih, List.map_cons, List.foldl_cons, and_assoc]

theorem settleWrite_returns (hsink : ∀ w, sink w = .ok ()) (p : WriteProfile) (r : WriteReadings) (a : PreparedWrite)
    (writtenId : String) (skipped : Bool) (existingHash : Option String) (s : ClientState) :
    ∃ out, (settleWrite d p pr sink r a writtenId skipped existingHash s).2 = .ok out := by
  obtain ⟨o, haudit⟩ := auditIfCrossTenant_returns hsink pr r.audit
    (crossTenantWrite pr r.tsIso "write" a.tenantId (some writtenId) (storedDetails skipped) (wf_storedDetails skipped))
  unfold settleWrite
  simp only [haudit]
  exact ⟨_, rfl⟩

theorem queueWrite_returns_iff (hsink : ∀ w, sink w = .ok ()) {p : WriteProfile} {r : WriteReadings} {replies : WriteReplies}
    (hfault : replies.enqueueFault = none) {a : PreparedWrite} :
    (∃ out, (queueWrite d p pr sink r replies a s).2 = .ok out) ↔ ∃ t, d.dumps (.obj (a.candidate p.name)) = .ok t := by
  obtain ⟨o, haudit⟩ := auditIfCrossTenant_returns hsink pr r.audit
    (crossTenantWrite pr r.tsIso "write" a.tenantId (some a.drawerId) queuedDetails wf_queuedDetails)
  unfold queueWrite
  cases d.dumps (.obj (a.candidate p.name)) with
  | error e => simp
  | ok t => simp [hfault, haudit]

/-- The POST of a row that is answered: it raises only where it is to, on a duplicate. -/
theorem handOver_returns_iff {api : StoreApi} (hsink : ∀ w, sink w = .ok ()) {p : WriteProfile} {r : WriteReadings}
    {fault : Option ClientErr} {disclosed : Bool} {c : WriteCall} {a : PreparedWrite} :
    (∃ out, (handOver d p pr sink r ⟨fault, fun st body => st.post api body none (.answered disclosed)⟩ c a s).2 = .ok out) ↔
      ∃ body, addMemoryBody d a.wing a.room a.content a.metadata true c.conversationId = .ok body ∧
        ((Dict.getD c.metadata "raise_dedup_skipped" (.bool false)).truthy = true →
          s.store.active (rowOf api body none).contentHash = false) := by
  unfold handOver
  cases addMemoryBody d a.wing a.room a.content a.metadata true c.conversationId with
  | error e => simp
  | ok body =>
    simp only [Store.post, Except.ok.injEq, exists_eq_left']
    cases hactive : s.store.active (rowOf api body none).contentHash with
    | false =>
      simp only [Bool.false_eq_true, if_false, implies_true, iff_true]
      exact settleWrite_returns hsink ..
    | true =>
      simp only [if_true, Bool.true_eq_false, imp_false, Bool.not_eq_true]
      split
      · rename_i hraise
        simp [hraise]
      · rename_i hraise
        refine iff_of_true ?_ (by simpa using hraise)
        exact settleWrite_returns hsink ..

theorem map_returns {ε α : Type} {x : Except ε α} : (x.map fun _ => ()) = .ok () ↔ ∃ out, x = .ok out := by
  cases x <;> simp [Except.map]

/-- **One write**: it returns where its row is planned and it does not ask to be told of a duplicate that is there. -/
theorem writeAtom_returns_iff (d : Deployment) (api : StoreApi) (pr : Principal) {r : AtomReplies} (key room memoryType : String)
    (a : AtomWrite) {disclosed : Bool}
    (hquota : enforceWriteQuota p.toAgentProfile (s.count.at' r.quota) = .ok ()) (hfault : r.enqueueFault = none)
    (hpost : r.post = .answered disclosed) (hsink : ∀ w, sink w = .ok ()) :
    (writeAtom d api p pr sink r key room memoryType a s).2 = .ok () ↔
      ∃ o, plannedRow d api p.toAgentProfile pr r key room memoryType a = .ok o ∧ Quiet s.store o.toList := by
  unfold writeAtom plannedRow
  cases atomCall key room memoryType a with
  | error e => simp
  | ok c =>
    simp only [writeMemory, ok_then]
    cases writeArguments d p.toAgentProfile pr r.now c with
    | error e => simp [Except.map]
    | ok infer =>
      simp only [hquota, ok_then]
      cases writeTarget d p.toAgentProfile pr r.scope r.requested c with
      | error e => simp [Except.map]
      | ok target =>
        simp only [ok_then, commitPrepared, map_returns, hpost]
        split
        · rw [queueWrite_returns_iff hsink hfault]
          cases d.dumps (.obj ((preparedRow d p.toAgentProfile pr r.toWriteClock c target infer).candidate p.name)) with
          | error e => simp
          | ok t => simp [Quiet]
        · rw [handOver_returns_iff hsink]
          cases addMemoryBody d (preparedRow d p.toAgentProfile pr r.toWriteClock c target infer).wing
              (preparedRow d p.toAgentProfile pr r.toWriteClock c target infer).room
              (preparedRow d p.toAgentProfile pr r.toWriteClock c target infer).content
              (preparedRow d p.toAgentProfile pr r.toWriteClock c target infer).metadata true c.conversationId with
          | error e => simp
          | ok body => simp [Quiet]

theorem storedRow_planned {api : StoreApi} {r : AtomReplies} {a : AtomWrite} {disclosed : Bool} {n : WriteCount}
    {o : Option (StoreRow × Bool)} (hquota : enforceWriteQuota p.toAgentProfile (n.at' r.quota) = .ok ())
    (hpost : r.post = .answered disclosed) (h : plannedRow d api p.toAgentProfile pr r key room memoryType a = .ok o) :
    storedRow d api p.toAgentProfile pr r key room memoryType a n = o.map Prod.fst := by
  unfold plannedRow at h
  obtain ⟨c, hc, h⟩ := bind_ok h
  obtain ⟨infer, hinfer, h⟩ := bind_ok h
  obtain ⟨target, htarget, h⟩ := bind_ok h
  unfold storedRow
  simp only [hc, hinfer, hquota, htarget, hpost, Except.toOption, Option.bind_eq_bind, Option.bind_some, PostReply.stores,
    if_true]
  dsimp only at h
  split at h
  · rename_i happroval
    obtain ⟨t, -, h⟩ := bind_ok h
    cases h
    rw [if_pos happroval]
    rfl
  · rename_i happroval
    obtain ⟨body, hbody, h⟩ := bind_ok h
    cases h
    rw [if_neg happroval, hbody]
    rfl

theorem queueWrite_count (d : Deployment) (p : WriteProfile) (pr : Principal) (sink : AuditSink) (r : WriteReadings)
    (replies : WriteReplies) (a : PreparedWrite) (s : ClientState) :
    (queueWrite d p pr sink r replies a s).1.count = s.count ∨
      (queueWrite d p pr sink r replies a s).1.count = s.count.record r.recorded := by
  unfold queueWrite
  split
  · exact .inl rfl
  split
  · exact .inl rfl
  · dsimp only
    split <;> exact .inr rfl

theorem settleWrite_count (d : Deployment) (p : WriteProfile) (pr : Principal) (sink : AuditSink) (r : WriteReadings)
    (a : PreparedWrite) (writtenId : String) (skipped : Bool) (existing : Option String) (s : ClientState) :
    (settleWrite d p pr sink r a writtenId skipped existing s).1.count = s.count ∨
      (settleWrite d p pr sink r a writtenId skipped existing s).1.count = s.count.record r.recorded := by
  unfold settleWrite
  dsimp only
  split <;> split
  · exact .inl rfl
  · exact .inr rfl
  · exact .inl rfl
  · exact .inr rfl

/-- **What follows the checks records one write, or none.** -/
theorem commitPrepared_count (d : Deployment) (p : WriteProfile) (pr : Principal) (sink : AuditSink) (r : WriteReadings)
    (replies : WriteReplies) (c : WriteCall) (a : PreparedWrite) (s : ClientState) :
    (commitPrepared d p pr sink r replies c a s).1.count = s.count ∨
      (commitPrepared d p pr sink r replies c a s).1.count = s.count.record r.recorded := by
  unfold commitPrepared
  split
  · exact queueWrite_count d p pr sink r replies a s
  unfold handOver
  split
  · exact .inl rfl
  dsimp only
  split
  · exact .inl rfl
  · exact settleWrite_count d p pr sink r a _ false none _
  split
  · exact .inl rfl
  · exact settleWrite_count d p pr sink r a _ true _ _

/-- A write leaves the count as it was, or pruned, or with itself. -/
theorem writeAtom_within (d : Deployment) (api : StoreApi) (p : WriteProfile) (pr : Principal) (sink : AuditSink)
    (r : AtomReplies) (key room memoryType : String) (a : AtomWrite) {n : WriteCount} {k : Nat} (hm : n.Within k s.count) :
    n.Within (k + 1) (writeAtom d api p pr sink r key room memoryType a s).1.count := by
  have hpruned : n.Within k (s.count.enforced p.toAgentProfile r.quota) := hm.enforced p.toAgentProfile r.quota
  unfold writeAtom
  split
  · exact hm.succ
  next c _ =>
  simp only [writeMemory]
  split
  · exact hm.succ
  next infer _ =>
  split
  · exact hpruned.succ
  split
  · exact hpruned.succ
  next tenantId _ =>
  rcases commitPrepared_count d p pr sink r.toWriteReadings ⟨r.enqueueFault, fun st body => st.post api body none r.post⟩ c
    (preparedRow d p.toAgentProfile pr r.toWriteClock c tenantId infer)
    { s with count := s.count.enforced p.toAgentProfile r.quota } with h | h
  · rw [h]
    exact hpruned.succ
  · rw [h]
    exact hpruned.record _

/-- What the first write of the loop makes of the rows of its state. -/
theorem writeAtom_planned (sink : AuditSink) {api : StoreApi} {r : AtomReplies} {a : AtomWrite} {disclosed : Bool}
    {o : Option (StoreRow × Bool)} (hquota : enforceWriteQuota p.toAgentProfile (s.count.at' r.quota) = .ok ())
    (hpost : r.post = .answered disclosed)
    (h : plannedRow d api p.toAgentProfile pr r key room memoryType a = .ok o) :
    (writeAtom d api p pr sink r key room memoryType a s).1.store = (o.toList.map Prod.fst).foldl Store.insert s.store := by
  rw [writeAtom_store, storedRow_planned hquota hpost h]
  cases o <;> rfl

/-- **The loop of writes**: it returns where every row is planned and none asks to be told of a duplicate that is there. -/
theorem writeAtoms_returns_iff {api : StoreApi} {n : WriteCount} {total : Nat} (hquota : InQuota p.toAgentProfile n r total)
    (hr : r.Answered sink) {k : Nat} {as : List AtomWrite} (hlen : k + as.length ≤ total) (hm : n.Within k s.count) :
    (writeAtoms d api p pr sink r.atom key room memoryType k as s).2 = .ok () ↔
      ∃ rows, plannedRows d api p.toAgentProfile pr r.atom key room memoryType k as = .ok rows ∧ Quiet s.store rows := by
  induction as generalizing k s with
  | nil => simp [writeAtoms, plannedRows, Quiet]
  | cons a as ih =>
    rw [List.length_cons] at hlen
    obtain ⟨disclosed, hpost⟩ := hr.posts k
    have hlook : enforceWriteQuota p.toAgentProfile (s.count.at' (r.atom k).quota) = .ok () :=
      hquota.enforce (by omega) hm (.inr (.inr ⟨k, rfl⟩))
    have hturn := writeAtom_returns_iff d api pr key room memoryType a hlook (hr.queues k) hpost hr.audits
    have hwithin := writeAtom_within d api p pr sink (r.atom k) key room memoryType a hm
    simp only [writeAtoms, plannedRows]
    cases hplan : plannedRow d api p.toAgentProfile pr (r.atom k) key room memoryType a with
    | error e =>
      have hraise : ¬ (writeAtom d api p pr sink (r.atom k) key room memoryType a s).2 = .ok () := by
        rw [hturn, hplan]
        simp
      cases hstep : writeAtom d api p pr sink (r.atom k) key room memoryType a s with
      | mk s₁ out =>
        rw [hstep] at hraise
        cases out with
        | error e => simp
        | ok u => exact absurd rfl hraise
    | ok o =>
      have hstore := writeAtom_planned sink hlook hpost hplan
      simp only [ok_then]
      cases hstep : writeAtom d api p pr sink (r.atom k) key room memoryType a s with
      | mk s₁ out =>
        rw [hstep] at hturn hwithin hstore
        rw [hplan] at hturn
        simp only [Except.ok.injEq, exists_eq_left'] at hturn
        cases out with
        | error e =>
          refine iff_of_false (by simp) ?_
          rintro ⟨rows, hrows, hquiet⟩
          obtain ⟨rest, -, hrows⟩ := bind_ok hrows
          cases hrows
          have := hturn.2 (quiet_append.1 hquiet).1
          cases this
        | ok u =>
          have hfirst := hturn.1 rfl
          have hstore : s₁.store = (o.toList.map Prod.fst).foldl Store.insert s.store := hstore
          simp only [ih (by omega) hwithin, hstore]
          constructor
          · rintro ⟨rest, hrest, hquiet⟩
            exact ⟨o.toList ++ rest, by rw [hrest]; rfl, quiet_append.2 ⟨hfirst, hquiet⟩⟩
          · rintro ⟨rows, hrows, hquiet⟩
            obtain ⟨rest, hrest, hrows⟩ := bind_ok hrows
            cases hrows
            exact ⟨rest, hrest, (quiet_append.1 hquiet).2⟩

/-- A loop that returned has handed over the planned rows in order. -/
theorem writeAtoms_planned {api : StoreApi} {n : WriteCount} {total : Nat} (hquota : InQuota p.toAgentProfile n r total)
    (hr : r.Answered sink) {k : Nat} {as : List AtomWrite} (hlen : k + as.length ≤ total) (hm : n.Within k s.count)
    {rows : List (StoreRow × Bool)} (hplan : plannedRows d api p.toAgentProfile pr r.atom key room memoryType k as = .ok rows)
    (hdone : (writeAtoms d api p pr sink r.atom key room memoryType k as s).2 = .ok ()) :
    (writeAtoms d api p pr sink r.atom key room memoryType k as s).1.store =
      (rows.map Prod.fst).foldl Store.insert s.store := by
  induction as generalizing k s rows with
  | nil =>
    cases hplan
    rfl
  | cons a as ih =>
    rw [List.length_cons] at hlen
    obtain ⟨disclosed, hpost⟩ := hr.posts k
    have hlook : enforceWriteQuota p.toAgentProfile (s.count.at' (r.atom k).quota) = .ok () :=
      hquota.enforce (by omega) hm (.inr (.inr ⟨k, rfl⟩))
    have hwithin := writeAtom_within d api p pr sink (r.atom k) key room memoryType a hm
    rw [plannedRows] at hplan
    obtain ⟨o, ho, hplan⟩ := bind_ok hplan
    obtain ⟨rest, hrest, hplan⟩ := bind_ok hplan
    cases hplan
    have hstore := writeAtom_planned sink hlook hpost ho
    simp only [writeAtoms] at hdone ⊢
    cases hstep : writeAtom d api p pr sink (r.atom k) key room memoryType a s with
    | mk s₁ out =>
      rw [hstep] at hdone hwithin hstore
      cases out with
      | error e => cases hdone
      | ok u =>
        simp only at hdone hstore ⊢
        rw [ih (by omega) hwithin hrest hdone, hstore, List.map_append, List.foldl_append]

/-! ## Convergence -/

/-- The store without the rows a source has for a tenant. -/
def Store.withoutSet (st : Store) (key tenantId : String) : Store where
  rows := st.rows.filter fun x => !x.hasTags (markerTags (sourceTag key) tenantId)
  nodup := st.nodup.sublist (List.filter_sublist.map _)

/-- What a replacement promises, and the same call made again. -/
def Converges (d : Deployment) (lower : String → String) (p : WriteProfile) (pr : Principal) (sink : AuditSink)
    (r again : ReplaceReplies) (key tenantId room memoryType : String) (atoms : List AtomWrite) (s : ClientState) : Prop :=
  ∃ s' result, replaceSourceAtomSet d (normalizedApi lower) lower p pr sink r key room memoryType atoms s = (s', .ok result) ∧
    HoldsExpected d lower key tenantId atoms s'.store ∧
    (∀ other tenant, other ≠ key → ∀ h, h ∈ s'.store.tagged (markerTags (sourceTag other) tenant) ↔
      h ∈ s.store.tagged (markerTags (sourceTag other) tenant)) ∧
    replaceSourceAtomSet d (normalizedApi lower) lower p pr sink again key room memoryType atoms s' =
      (s', .ok ⟨"unchanged", 0, 0⟩)

/-- What a call that has to rewrite the set needs of its arguments and of the rows it meets. -/
inductive Rewritable (d : Deployment) (lower : String → String) (p : WriteProfile) (pr : Principal) (r : ReplaceReplies)
    (key tenantId room memoryType : String) (atoms : List AtomWrite) (s : ClientState) : Prop
  | intro {candidates : List String} {rows : List (StoreRow × Bool)}
      (found : checksBeforeDelete d lower p.toAgentProfile pr r key atoms s = .ok (tenantId, candidates))
      (owned : ∀ k h, candidates[k]? = some h → PassesOwnership d p.toAgentProfile pr (r.candidate k) s.store h)
      (writable : plannedRows d (normalizedApi lower) p.toAgentProfile pr r.atom key room memoryType 0 atoms = .ok rows)
      (quiet : Quiet (s.store.withoutSet key tenantId) rows)
      (settled : ∀ h, h ∈ expectedHashes d lower atoms ↔
        ∃ x ∈ (s.store.withoutSet key tenantId).fresh (rows.map Prod.fst),
          x.hasTags (markerTags (sourceTag key) tenantId) = true ∧ x.contentHash = h)
      (others : ∀ other tenant, other ≠ key → ∀ h,
        (∃ x ∈ (s.store.withoutSet key tenantId).fresh (rows.map Prod.fst),
          x.hasTags (markerTags (sourceTag other) tenant) = true ∧ x.contentHash = h) ↔
        ∃ x ∈ s.store.rows, x.hasTags (markerTags (sourceTag key) tenantId) = true ∧
          x.hasTags (markerTags (sourceTag other) tenant) = true ∧ x.contentHash = h)

/-- What is active under some tags after rows are stored. -/
theorem Store.mem_tagged_foldl {st : Store} {xs : List StoreRow} {tags : List String} {h : String} :
    h ∈ (xs.foldl Store.insert st).tagged tags ↔
      h ∈ st.tagged tags ∨ ∃ x ∈ st.fresh xs, x.hasTags tags = true ∧ x.contentHash = h := by
  simp only [Store.mem_tagged, Store.rows_foldl_insert, List.mem_append, or_and_right, exists_or]

theorem Store.mem_withoutSet {st : Store} {x : StoreRow} :
    x ∈ (st.withoutSet key tenantId).rows ↔ x ∈ st.rows ∧ ¬ x.hasTags (markerTags (sourceTag key) tenantId) = true := by
  simp [Store.withoutSet]

/-- Without its rows, a source has no active hash. -/
theorem Store.tagged_withoutSet (st : Store) (h : String) :
    h ∉ (st.withoutSet key tenantId).tagged (markerTags (sourceTag key) tenantId) := by
  rw [Store.mem_tagged]
  rintro ⟨x, hx, ht, -⟩
  exact (Store.mem_withoutSet.1 hx).2 ht

/-- The active hashes of a source are those of the rows that stay and of those that go. -/
theorem Store.mem_tagged_split (st : Store) (key tenantId : String) {tags : List String} {h : String} :
    h ∈ st.tagged tags ↔ h ∈ (st.withoutSet key tenantId).tagged tags ∨
      ∃ x ∈ st.rows, x.hasTags (markerTags (sourceTag key) tenantId) = true ∧ x.hasTags tags = true ∧ x.contentHash = h := by
  simp only [Store.mem_tagged, Store.mem_withoutSet]
  constructor
  · rintro ⟨x, hx, ht, rfl⟩
    by_cases hset : x.hasTags (markerTags (sourceTag key) tenantId) = true
    · exact .inr ⟨x, hx, hset, ht, rfl⟩
    · exact .inl ⟨x, ⟨hx, hset⟩, ht, rfl⟩
  · rintro (⟨x, ⟨hx, -⟩, ht, rfl⟩ | ⟨x, hx, -, ht, rfl⟩)
    · exact ⟨x, hx, ht, rfl⟩
    · exact ⟨x, hx, ht, rfl⟩

/-- Rows that stay have no hash in common with rows that go, or with new ones. -/
theorem Store.withoutSet_disjoint {st : Store} {tags : List String} (xs : List StoreRow) {x : StoreRow}
    (hx : x ∈ st.rows ∧ x.hasTags (markerTags (sourceTag key) tenantId) = true ∨ x ∈ (st.withoutSet key tenantId).fresh xs) :
    x.contentHash ∉ (st.withoutSet key tenantId).tagged tags := by
  rw [Store.mem_tagged]
  rintro ⟨y, hy, -, he⟩
  rcases hx with ⟨hx, hset⟩ | hx
  · obtain ⟨hy, hnot⟩ := Store.mem_withoutSet.1 hy
    rw [Store.eq_of_hash hy hx he] at hnot
    exact hnot hset
  · have hnodup := (xs.foldl Store.insert (st.withoutSet key tenantId)).nodup
    rw [Store.rows_foldl_insert, List.map_append] at hnodup
    exact List.disjoint_of_nodup_append hnodup (List.mem_map_of_mem hy) (he ▸ List.mem_map_of_mem hx)

/-- A look at the token does not change the tenant. -/
theorem writeTenantId_unique {p : AgentProfile} {now now' : Instant} {t t' : String} (h : writeTenantId d p pr now = .ok t)
    (h' : writeTenantId d p pr now' = .ok t') : t = t' := by
  have hids : ∀ {now : Instant} {ids : List String}, tenantIds p pr now = .ok ids →
      ids = if pr.tenantId = "*" then ["*"] else [pr.tenantId] := by
    intro now ids hids
    unfold tenantIds at hids
    split at hids
    · rename_i hroot
      rw [if_pos hroot]
      split at hids <;> cases hids
      rfl
    · rename_i hroot
      rw [if_neg hroot]
      split at hids <;> cases hids
      rfl
  unfold writeTenantId at h h'
  obtain ⟨ids, hi, h⟩ := bind_ok h
  obtain ⟨ids', hi', h'⟩ := bind_ok h'
  rw [hids hi] at h
  rw [hids hi'] at h'
  exact Except.ok.inj (h.symm.trans h')

theorem replaceGate_tenant {p : AgentProfile} (h : replaceGate d lower p pr r key atoms = .ok tenantId) :
    writeTenantId d p pr r.scope = .ok tenantId ∧ (expectedHashes d lower atoms).length < findActiveHashesLimit := by
  unfold replaceGate at h
  obtain ⟨⟨⟩, -, h⟩ := bind_ok h
  split at h
  · cases h
  · obtain ⟨t, ht, h⟩ := bind_ok h
    dsimp only at h
    split at h
    · cases h
    · rename_i hfew
      cases h
      exact ⟨ht, by omega⟩

/-- What the checks have found: the set of the source, under the tenant of the call. -/
theorem checksBeforeDelete_found {p : AgentProfile} {t : String} {candidates : List String} (hr : r.Answered sink)
    (hgate : replaceGate d lower p pr r key atoms = .ok tenantId)
    (h : checksBeforeDelete d lower p pr r key atoms s = .ok (t, candidates)) :
    t = tenantId ∧ candidates = s.store.tagged (markerTags (sourceTag key) tenantId) := by
  obtain ⟨-, -, hprior, -⟩ := checksBeforeDelete_ok h
  unfold priorVersions at hprior
  obtain ⟨⟨⟩, -, hprior⟩ := bind_ok hprior
  obtain ⟨t', ht, hprior⟩ := bind_ok hprior
  obtain ⟨found, hfind, hprior⟩ := bind_ok hprior
  cases hprior
  have htenant : t = tenantId := writeTenantId_unique (mapError_ok ht) (replaceGate_tenant hgate).1
  subst htenant
  refine ⟨rfl, ?_⟩
  rw [hr.finds.2.1] at hfind
  rcases findSource_eq d s.store key t with ⟨e, he, -⟩ | ⟨he, -⟩
  · rw [he] at hfind
    cases hfind
  · rw [he] at hfind
    cases hfind
    rfl

theorem Store.eq_of_rows {st st' : Store} (h : st.rows = st'.rows) : st = st' := by
  cases st
  cases st'
  cases h
  rfl

/-- A loop that took every row of the set leaves the store without the set. -/
theorem deleteCandidates_all {p : AgentProfile} {candidates : List String}
    (hfound : candidates = s.store.tagged (markerTags (sourceTag key) tenantId))
    (hall : candidates ⊆ takenBy d p pr sink r.candidate tenantId key 0 candidates s) :
    (deleteCandidates d p pr sink r.candidate tenantId key none 0 candidates s).1.store = s.store.withoutSet key tenantId := by
  apply Store.eq_of_rows
  rw [rows_deleteCandidates]
  apply List.filter_congr
  intro x hx
  congr 1
  rw [Bool.eq_iff_iff, List.contains_iff_mem]
  constructor
  · intro ht
    have hm := takenBy_subset _ _ _ _ _ ht
    rw [hfound, Store.mem_tagged] at hm
    obtain ⟨y, hy, htags, he⟩ := hm
    rwa [Store.eq_of_hash hy hx he] at htags
  · intro htags
    exact hall (hfound ▸ Store.mem_tagged.2 ⟨x, hx, htags, rfl⟩)

/-- Past the checks, there is the loop and the search after it. -/
theorem deletePrior_eq {p : AgentProfile} {candidates : List String} (sink : AuditSink)
    (hcheck : checksBeforeDelete d lower p pr r key atoms s = .ok (tenantId, candidates)) :
    deletePriorSourceVersions d p pr sink r key none s =
      match deleteCandidates d p pr sink r.candidate tenantId key none 0 candidates (quotaChecked p r s) with
      | (s, .error e) => (s, .error e)
      | (s, .ok deleted) =>
        match checkRemaining d r tenantId key none s.store with
        | .error e => (s, .error e)
        | .ok () => (s, .ok deleted) := by
  obtain ⟨-, hsource, hprior, -⟩ := checksBeforeDelete_ok hcheck
  simp only [deletePriorSourceVersions, hsource, hprior]
  rfl

/-- The search after the loop finds nothing exactly if the set is gone. -/
theorem checkRemaining_iff {st : Store} (hr : r.Answered sink) :
    checkRemaining d r tenantId key none st = .ok () ↔ st.tagged (markerTags (sourceTag key) tenantId) = [] := by
  unfold checkRemaining
  rw [hr.finds.2.2.1]
  rcases findSource_eq d st key tenantId with ⟨e, he, hmany⟩ | ⟨he, -⟩
  · rw [he]
    refine iff_of_false (by simp) fun hnil => ?_
    rw [hnil] at hmany
    simp [findActiveHashesLimit] at hmany
  · rw [he]
    simp

/-- **The deletes**: past the checks they return exactly if every row of the set is owned. -/
theorem deletePrior_returns_iff {p : AgentProfile} {candidates : List String} (hr : r.Answered sink)
    (hgate : replaceGate d lower p pr r key atoms = .ok tenantId)
    (hcheck : checksBeforeDelete d lower p pr r key atoms s = .ok (tenantId, candidates)) :
    (∃ gone, (deletePriorSourceVersions d p pr sink r key none s).2 = .ok gone) ↔
      ∀ k h, candidates[k]? = some h → PassesOwnership d p pr (r.candidate k) s.store h := by
  obtain ⟨-, hfound⟩ := checksBeforeDelete_found hr hgate hcheck
  have hnodup : candidates.Nodup := hfound ▸ s.store.nodup_tagged _
  have hall := takenBy_all_iff d p pr tenantId key hr.owned hr.deletes hr.audits hnodup 0 (quotaChecked p r s)
  simp only [Nat.zero_add, quotaChecked_store] at hall
  rw [deletePrior_eq sink hcheck, ← hall]
  constructor
  · rintro ⟨gone, hok⟩ h hh
    have hrows := mem_deleteCandidates d p pr sink r.candidate tenantId key 0 candidates (quotaChecked p r s)
    cases hloop : deleteCandidates d p pr sink r.candidate tenantId key none 0 candidates (quotaChecked p r s) with
    | mk s₁ out =>
      rw [hloop] at hok hrows
      cases out with
      | error e => cases hok
      | ok deleted =>
        dsimp only at hok hrows
        split at hok
        · cases hok
        · rename_i hremaining
          have hnil := (checkRemaining_iff hr).1 hremaining
          rw [hfound] at hh
          obtain ⟨x, hx, htags, rfl⟩ := Store.mem_tagged.1 hh
          by_contra hnot
          have hm : x.contentHash ∈ s₁.store.tagged (markerTags (sourceTag key) tenantId) :=
            Store.mem_tagged.2 ⟨x, (hrows x).2 ⟨hx, hnot⟩, htags, rfl⟩
          rw [hnil] at hm
          cases hm
  · intro hsub
    have hstore := deleteCandidates_all (s := quotaChecked p r s) hfound hsub
    obtain ⟨gone, hok⟩ := deleteCandidates_owned tenantId key (s := quotaChecked p r s) hr.owned hr.deletes hr.audits hnodup
      (k := 0) (by simpa only [Nat.zero_add, quotaChecked_store] using hall.1 hsub)
    cases hloop : deleteCandidates d p pr sink r.candidate tenantId key none 0 candidates (quotaChecked p r s) with
    | mk s₁ out =>
      rw [hloop] at hok hstore
      cases hok
      dsimp only at hstore
      have hremaining : checkRemaining d r tenantId key none s₁.store = .ok () := by
        rw [checkRemaining_iff hr, hstore, List.eq_nil_iff_forall_not_mem]
        exact Store.tagged_withoutSet _
      exact ⟨gone, by simp only [hremaining]⟩

/-- What is left of the store and of the count when the deletes return. -/
theorem deletePrior_done {p : AgentProfile} {candidates gone : List String} {s₁ : ClientState} (hr : r.Answered sink)
    (hgate : replaceGate d lower p pr r key atoms = .ok tenantId)
    (hcheck : checksBeforeDelete d lower p pr r key atoms s = .ok (tenantId, candidates))
    (hdone : deletePriorSourceVersions d p pr sink r key none s = (s₁, .ok gone)) :
    s₁.store = s.store.withoutSet key tenantId ∧ s₁.count = s.count.enforced p r.deleteQuota := by
  obtain ⟨-, hfound⟩ := checksBeforeDelete_found hr hgate hcheck
  have hnodup : candidates.Nodup := hfound ▸ s.store.nodup_tagged _
  have hstate : (deletePriorSourceVersions d p pr sink r key none s).1 =
      (deleteCandidates d p pr sink r.candidate tenantId key none 0 candidates (quotaChecked p r s)).1 := by
    rw [deletePrior_eq sink hcheck]
    cases deleteCandidates d p pr sink r.candidate tenantId key none 0 candidates (quotaChecked p r s) with
    | mk s₂ out =>
      cases out with
      | error e => rfl
      | ok deleted =>
        dsimp only
        split <;> rfl
  rw [hdone] at hstate
  dsimp only at hstate
  have howned := (deletePrior_returns_iff hr hgate hcheck).1 ⟨gone, by rw [hdone]⟩
  have hsub := (takenBy_all_iff d p pr tenantId key hr.owned hr.deletes hr.audits hnodup 0 (quotaChecked p r s)).2
    (by simpa only [Nat.zero_add, quotaChecked_store] using howned)
  rw [hstate]
  refine ⟨deleteCandidates_all hfound hsub, ?_⟩
  rw [deleteCandidates_count]
  rfl

/-- What a call that returned has done, where it found the set to be another one. -/
theorem rewriteSet_ok {api : StoreApi} {result : AtomSetResult}
    (h : rewriteSet d api lower p pr sink r key tenantId room memoryType atoms s = (s', .ok result)) :
    ∃ s₁ gone, deletePriorSourceVersions d p.toAgentProfile pr sink r key none s = (s₁, .ok gone) ∧
      writeAtoms d api p pr sink r.atom key room memoryType 0 atoms s₁ = (s', .ok ()) := by
  unfold rewriteSet at h
  cases hdelete : deletePriorSourceVersions d p.toAgentProfile pr sink r key none s with
  | mk s₁ out =>
    rw [hdelete] at h
    cases out with
    | error e => cases h
    | ok gone =>
      dsimp only at h
      cases hwrite : writeAtoms d api p pr sink r.atom key room memoryType 0 atoms s₁ with
      | mk s₂ out =>
        rw [hwrite] at h
        cases out with
        | error e => cases h
        | ok u =>
          dsimp only at h
          refine ⟨s₁, gone, rfl, ?_⟩
          rw [hwrite]
          split at h
          · cases h
          · split at h <;> cases h
            rfl

/-- A set that is the expected one is left alone. -/
theorem replace_unchanged {api : StoreApi} (hr : r.firstFind = none)
    (hgate : replaceGate d lower p.toAgentProfile pr r key atoms = .ok tenantId)
    (hset : HoldsExpected d lower key tenantId atoms s.store) :
    replaceSourceAtomSet d api lower p pr sink r key room memoryType atoms s = (s, .ok ⟨"unchanged", 0, 0⟩) := by
  unfold replaceSourceAtomSet
  simp only [hgate, (unchangedSet_iff hr (replaceGate_tenant hgate).2).2 hset, if_true]

/-- The verify step passes where the set has become the expected one. -/
theorem rewriteSet_settled {api : StoreApi} {s₁ : ClientState} {gone : List String} (hr : r.Answered sink)
    (hfew : (expectedHashes d lower atoms).length < findActiveHashesLimit)
    (hdelete : deletePriorSourceVersions d p.toAgentProfile pr sink r key none s = (s₁, .ok gone))
    (hwrite : writeAtoms d api p pr sink r.atom key room memoryType 0 atoms s₁ = (s', .ok ()))
    (hset : HoldsExpected d lower key tenantId atoms s'.store) :
    rewriteSet d api lower p pr sink r key tenantId room memoryType atoms s =
      (s', .ok ⟨"written", gone.length, atoms.length⟩) := by
  unfold rewriteSet
  simp only [hdelete, hwrite, hr.finds.2.2.2]
  rcases findSource_eq d s'.store key tenantId with ⟨e, -, hmany⟩ | ⟨he, -⟩
  · have := hset.length
    omega
  · rw [he]
    simp only [sameSet_iff.2 hset, if_true]

/-- The set after the writes is the expected one exactly if the new rows of the source are. -/
theorem settled_foldl_iff {st : Store} {xs : List StoreRow} :
    HoldsExpected d lower key tenantId atoms (xs.foldl Store.insert (st.withoutSet key tenantId)) ↔
      ∀ h, h ∈ expectedHashes d lower atoms ↔ ∃ x ∈ (st.withoutSet key tenantId).fresh xs,
        x.hasTags (markerTags (sourceTag key) tenantId) = true ∧ x.contentHash = h := by
  unfold HoldsExpected
  simp only [Store.mem_tagged_foldl, st.tagged_withoutSet, false_or]
  exact ⟨fun h x => (h x).symm, fun h x => (h x).symm⟩

theorem or_iff_or_of_disjoint {a b c : Prop} (hb : b → ¬ a) (hc : c → ¬ a) : ((a ∨ b) ↔ (a ∨ c)) ↔ (b ↔ c) := by
  tauto

/-- Another source has the hashes it had exactly if it gets back with the new rows what it lost with the old ones. -/
theorem tagged_same_iff {st : Store} {xs : List StoreRow} {tags : List String} {h : String} :
    (h ∈ (xs.foldl Store.insert (st.withoutSet key tenantId)).tagged tags ↔ h ∈ st.tagged tags) ↔
      ((∃ x ∈ (st.withoutSet key tenantId).fresh xs, x.hasTags tags = true ∧ x.contentHash = h) ↔
        ∃ x ∈ st.rows, x.hasTags (markerTags (sourceTag key) tenantId) = true ∧ x.hasTags tags = true ∧ x.contentHash = h) := by
  rw [Store.mem_tagged_foldl, st.mem_tagged_split key tenantId]
  have hnew : (∃ x ∈ (st.withoutSet key tenantId).fresh xs, x.hasTags tags = true ∧ x.contentHash = h) →
      h ∉ (st.withoutSet key tenantId).tagged tags := by
    rintro ⟨x, hx, -, rfl⟩
    exact Store.withoutSet_disjoint xs (.inr hx)
  have hold : (∃ x ∈ st.rows, x.hasTags (markerTags (sourceTag key) tenantId) = true ∧ x.hasTags tags = true ∧
      x.contentHash = h) → h ∉ (st.withoutSet key tenantId).tagged tags := by
    rintro ⟨x, hx, hset, -, rfl⟩
    exact Store.withoutSet_disjoint [] (.inl ⟨hx, hset⟩)
  exact or_iff_or_of_disjoint hnew hold

/-- A prune counts no write. -/
theorem within_enforced {p : AgentProfile} {n m : WriteCount} {now : Rat} (h : m = n.enforced p now) : n.Within 0 m := by
  rw [h]
  exact (WriteCount.within_self n).enforced p now

/-- What a call that converges has met. -/
theorem Converges.met (hr : r.Answered sink) (hgate : replaceGate d lower p.toAgentProfile pr r key atoms = .ok tenantId)
    (hquota : InQuota p.toAgentProfile s.count r atoms.length)
    (h : Converges d lower p pr sink r r' key tenantId room memoryType atoms s) :
    HoldsExpected d lower key tenantId atoms s.store ∨ Rewritable d lower p pr r key tenantId room memoryType atoms s := by
  obtain ⟨s', result, hcall, hset, hothers, -⟩ := h
  by_cases hsame : HoldsExpected d lower key tenantId atoms s.store
  · exact .inl hsame
  refine .inr ?_
  have hchanged : unchangedSet d lower r key tenantId atoms s.store = false := by
    rw [← Bool.not_eq_true, unchangedSet_iff hr.finds.1 (replaceGate_tenant hgate).2]
    exact hsame
  unfold replaceSourceAtomSet at hcall
  simp only [hgate, hchanged, Bool.false_eq_true, if_false, hquota.preflight] at hcall
  obtain ⟨s₁, gone, hdelete, hwrite⟩ := rewriteSet_ok hcall
  cases hcheck : checksBeforeDelete d lower p.toAgentProfile pr r key atoms s with
  | error e =>
    obtain ⟨-, e', hraise⟩ := deletePrior_unchecked sink hgate hquota.preflight hcheck
    rw [hdelete] at hraise
    cases hraise
  | ok found =>
    obtain ⟨t, candidates⟩ := found
    obtain ⟨rfl, -⟩ := checksBeforeDelete_found hr hgate hcheck
    obtain ⟨hstore, hcount⟩ := deletePrior_done hr hgate hcheck hdelete
    have hreturns : (writeAtoms d (normalizedApi lower) p pr sink r.atom key room memoryType 0 atoms s₁).2 = .ok () := by
      rw [hwrite]
    obtain ⟨rows, hplan, hquiet⟩ := (writeAtoms_returns_iff hquota hr (by omega) (within_enforced hcount)).1 hreturns
    have hafter := writeAtoms_planned hquota hr (by omega) (within_enforced hcount) hplan hreturns
    rw [hwrite, hstore] at hafter
    dsimp only at hafter
    rw [hafter] at hset hothers
    rw [hstore] at hquiet
    exact .intro hcheck ((deletePrior_returns_iff hr hgate hcheck).1 ⟨gone, by rw [hdelete]⟩) hplan hquiet
      (settled_foldl_iff.1 hset) fun other tenant hne h => tagged_same_iff.1 (hothers other tenant hne h)

/-- A call that finds the set as it is to be. -/
theorem HoldsExpected.converges (hr : r.Answered sink) (hr' : r'.Answered sink)
    (hgate : replaceGate d lower p.toAgentProfile pr r key atoms = .ok tenantId)
    (hgate' : replaceGate d lower p.toAgentProfile pr r' key atoms = .ok tenantId)
    (hset : HoldsExpected d lower key tenantId atoms s.store) :
    Converges d lower p pr sink r r' key tenantId room memoryType atoms s :=
  ⟨s, _, replace_unchanged hr.finds.1 hgate hset, hset, fun _ _ _ _ => Iff.rfl, replace_unchanged hr'.finds.1 hgate' hset⟩

/-- A call that rewrites the set. -/
theorem Rewritable.converges (hr : r.Answered sink) (hr' : r'.Answered sink)
    (hgate : replaceGate d lower p.toAgentProfile pr r key atoms = .ok tenantId)
    (hgate' : replaceGate d lower p.toAgentProfile pr r' key atoms = .ok tenantId)
    (hquota : InQuota p.toAgentProfile s.count r atoms.length)
    (h : Rewritable d lower p pr r key tenantId room memoryType atoms s) :
    Converges d lower p pr sink r r' key tenantId room memoryType atoms s := by
  obtain ⟨hcheck, howned, hplan, hquiet, hsettled, hothers⟩ := h
  obtain ⟨-, hfew⟩ := replaceGate_tenant hgate
  by_cases hsame : HoldsExpected d lower key tenantId atoms s.store
  · exact hsame.converges hr hr' hgate hgate'
  have hchanged : unchangedSet d lower r key tenantId atoms s.store = false := by
    rw [← Bool.not_eq_true, unchangedSet_iff hr.finds.1 hfew]
    exact hsame
  obtain ⟨gone, hdeleted⟩ := (deletePrior_returns_iff hr hgate hcheck).2 howned
  cases hdelete : deletePriorSourceVersions d p.toAgentProfile pr sink r key none s with
  | mk s₁ out =>
    rw [hdelete] at hdeleted
    cases hdeleted
    obtain ⟨hstore, hcount⟩ := deletePrior_done hr hgate hcheck hdelete
    rw [← hstore] at hquiet
    have hreturns := (writeAtoms_returns_iff hquota hr (by omega) (within_enforced hcount)).2 ⟨_, hplan, hquiet⟩
    have hafter := writeAtoms_planned hquota hr (by omega) (within_enforced hcount) hplan hreturns
    cases hwrite : writeAtoms d (normalizedApi lower) p pr sink r.atom key room memoryType 0 atoms s₁ with
    | mk s₂ out =>
      rw [hwrite] at hreturns hafter
      cases hreturns
      dsimp only at hafter
      rw [hstore] at hafter
      have hset : HoldsExpected d lower key tenantId atoms s₂.store := by
        rw [hafter]
        exact settled_foldl_iff.2 hsettled
      refine ⟨s₂, ⟨"written", gone.length, atoms.length⟩, ?_, hset, ?_, replace_unchanged hr'.finds.1 hgate' hset⟩
      · unfold replaceSourceAtomSet
        simp only [hgate, hchanged, Bool.false_eq_true, if_false, hquota.preflight]
        exact rewriteSet_settled hr hfew hdelete hwrite hset
      · intro other tenant hne h
        rw [hafter]
        exact tagged_same_iff.2 (hothers other tenant hne h)

/-- **When a replacement converges**: where the set is the expected one already, or the call can rewrite it, and nowhere
else. The store may be in any state. -/
theorem replacement_converges_iff (hr : r.Answered sink) (hr' : r'.Answered sink)
    (hgate : replaceGate d lower p.toAgentProfile pr r key atoms = .ok tenantId)
    (hgate' : replaceGate d lower p.toAgentProfile pr r' key atoms = .ok tenantId)
    (hquota : InQuota p.toAgentProfile s.count r atoms.length) :
    Converges d lower p pr sink r r' key tenantId room memoryType atoms s ↔
      HoldsExpected d lower key tenantId atoms s.store ∨ Rewritable d lower p pr r key tenantId room memoryType atoms s := by
  constructor
  · exact Converges.met hr hgate hquota
  · rintro (hset | hrewrite)
    · exact hset.converges hr hr' hgate hgate'
    · exact hrewrite.converges hr hr' hgate hgate' hquota

/-! ## Contents that are shared, and contents that are not -/

theorem Store.exists_fresh {st : Store} {xs : List StoreRow} {x : StoreRow} (hx : x ∈ xs)
    (h : st.active x.contentHash = false) : ∃ y ∈ st.fresh xs, y.contentHash = x.contentHash := by
  have hmem : (xs.foldl Store.insert st).active x.contentHash = true := by
    clear h
    induction xs generalizing st with
    | nil => cases hx
    | cons y ys ih =>
      rw [List.foldl_cons]
      rcases List.mem_cons.1 hx with rfl | hx
      · rw [Store.active_iff]
        by_cases hact : st.active x.contentHash = true
        · obtain ⟨z, hz, he⟩ := Store.active_iff.1 hact
          exact ⟨z, by rw [Store.rows_foldl_insert]; exact List.mem_append_left _ (Store.mem_insert.2 (.inl hz)), he⟩
        · refine ⟨x, ?_, rfl⟩
          rw [Store.rows_foldl_insert]
          exact List.mem_append_left _ (Store.mem_insert.2 (.inr ⟨rfl, by simpa using hact⟩))
      · exact ih hx
  obtain ⟨y, hy, he⟩ := Store.active_iff.1 hmem
  rw [Store.rows_foldl_insert, List.mem_append] at hy
  rcases hy with hy | hy
  · rw [← Bool.not_eq_true, Store.active_iff] at h
    exact absurd ⟨y, hy, he⟩ h
  · exact ⟨y, hy, he⟩

/-- **A content that a row outside the set holds cannot come into it**, by this call or by the same one again. -/
theorem shared_content_unsettled (p : WriteProfile) (pr : Principal) (r : ReplaceReplies) (room memoryType : String)
    {x : StoreRow} (hx : x ∈ (s.store.withoutSet key tenantId).rows)
    (hh : x.contentHash ∈ expectedHashes d lower atoms) :
    ¬ HoldsExpected d lower key tenantId atoms s.store ∧ ¬ Rewritable d lower p pr r key tenantId room memoryType atoms s := by
  have hout : x.contentHash ∈ (s.store.withoutSet key tenantId).tagged [] :=
    Store.mem_tagged.2 ⟨x, hx, by simp [StoreRow.hasTags], rfl⟩
  constructor
  · intro hset
    obtain ⟨y, hy, htags, he⟩ := Store.mem_tagged.1 ((hset _).2 hh)
    exact Store.withoutSet_disjoint [] (.inl ⟨hy, htags⟩) (he ▸ hout)
  · rintro ⟨-, -, -, -, hsettled, -⟩
    obtain ⟨y, hy, -, he⟩ := (hsettled _).1 hh
    exact Store.withoutSet_disjoint _ (.inr hy) (he ▸ hout)

/-- **Contents that no row outside the set holds**: the set can be rewritten where the rows carry the expected hashes, the
tags of the set, and no other source's tag. -/
theorem rewritable_of_unshared {candidates : List String} {rows : List (StoreRow × Bool)}
    (found : checksBeforeDelete d lower p.toAgentProfile pr r key atoms s = .ok (tenantId, candidates))
    (owned : ∀ k h, candidates[k]? = some h → PassesOwnership d p.toAgentProfile pr (r.candidate k) s.store h)
    (writable : plannedRows d (normalizedApi lower) p.toAgentProfile pr r.atom key room memoryType 0 atoms = .ok rows)
    (quiet : Quiet (s.store.withoutSet key tenantId) rows)
    (hashes : ∀ h, h ∈ expectedHashes d lower atoms ↔ ∃ x ∈ rows.map Prod.fst, x.contentHash = h)
    (unshared : ∀ h ∈ expectedHashes d lower atoms, (s.store.withoutSet key tenantId).active h = false)
    (marked : ∀ x ∈ rows.map Prod.fst, x.hasTags (markerTags (sourceTag key) tenantId) = true)
    (own : ∀ other, other ≠ key → (∀ x ∈ rows.map Prod.fst, sourceTag other ∉ x.tags) ∧
      ∀ x ∈ s.store.rows, x.hasTags (markerTags (sourceTag key) tenantId) = true → sourceTag other ∉ x.tags) :
    Rewritable d lower p pr r key tenantId room memoryType atoms s := by
  have hother : ∀ (other tenant : String) (x : StoreRow), x.hasTags (markerTags (sourceTag other) tenant) = true →
      sourceTag other ∈ x.tags := by
    intro other tenant x hx
    simpa using List.all_eq_true.1 hx _ (mem_markerTags (sourceTag other) tenant)
  refine .intro found owned writable quiet ?_ ?_
  · intro h
    constructor
    · intro hh
      obtain ⟨x, hx, rfl⟩ := (hashes h).1 hh
      obtain ⟨y, hy, he⟩ := Store.exists_fresh hx (unshared _ hh)
      exact ⟨y, hy, marked y (Store.fresh_subset _ _ hy), he⟩
    · rintro ⟨x, hx, -, rfl⟩
      exact (hashes _).2 ⟨x, Store.fresh_subset _ _ hx, rfl⟩
  · intro other tenant hne h
    refine iff_of_false ?_ ?_
    · rintro ⟨x, hx, htags, -⟩
      exact (own other hne).1 x (Store.fresh_subset _ _ hx) (hother other tenant x htags)
    · rintro ⟨x, hx, hset, htags, -⟩
      exact (own other hne).2 x hx hset (hother other tenant x htags)

theorem answeredReplies_answered : answeredReplies.Answered fun _ => .ok () where
  finds := ⟨rfl, rfl, rfl, rfl⟩
  owned _ := rfl
  deletes _ := rfl
  queues _ := rfl
  posts _ := ⟨true, rfl⟩
  audits _ := rfl

/-- One atom more fits where one write has been made. -/
theorem sampleQuota {n : WriteCount} (hday : n.writesToday ≤ 1) (hlen : n.writeTimestamps.length ≤ 1) :
    InQuota syncProfile.toAgentProfile n answeredReplies 1 where
  daily := by
    simp only [syncProfile, notesProfile]
    omega
  burst now _ := by
    have := List.length_filter_le (fun ts => decide (now - ts < 60)) n.writeTimestamps
    simp only [syncProfile, notesProfile]
    omega

/-- The row of an atom of the sample. -/
theorem sampleRow : ∃ x : StoreRow,
    plannedRows plainDeployment (normalizedApi id) syncProfile.toAgentProfile notesAgent answeredReplies.atom sampleKey "inbox"
        "note" 0 [⟨"black tea", []⟩] = .ok [(x, false)] ∧
      x.contentHash = normalizedHash id "black tea" ∧ x.tags = priorRow.tags :=
  ⟨_, rfl, rfl, by decide +kernel⟩

theorem sample_own {other : String} (h : other ≠ sampleKey) : sourceTag other ∉ priorRow.tags := by
  have hne : other.toList ≠ sampleKey.toList := fun he => h (String.toList_inj.1 he)
  simp [priorRow, sourceTag, ← String.toList_inj, hne]

theorem replacement_converges_sample :
    Converges plainDeployment id syncProfile notesAgent (fun _ => .ok ()) answeredReplies answeredReplies sampleKey "t_default"
      "inbox" "note" [⟨"black tea", []⟩] priorState := by
  have hgate : replaceGate plainDeployment id syncProfile.toAgentProfile notesAgent answeredReplies sampleKey
      [⟨"black tea", []⟩] = .ok "t_default" := by
    rfl
  obtain ⟨x, hplan, hhash, htags⟩ := sampleRow
  have hset : priorState.store.withoutSet sampleKey "t_default" = .empty := Store.eq_of_rows rfl
  have hfound : checksBeforeDelete plainDeployment id syncProfile.toAgentProfile notesAgent answeredReplies sampleKey
      [⟨"black tea", []⟩] priorState = .ok ("t_default", ["sha256:green tea"]) := by
    rfl
  refine (replacement_converges_iff answeredReplies_answered answeredReplies_answered hgate hgate
    (sampleQuota (by decide) (by decide))).2 (.inr (rewritable_of_unshared hfound ?_ hplan ?_ ?_ ?_ ?_ ?_))
  · intro k h hk
    cases k with
    | zero =>
      cases hk
      rfl
    | succ k => cases hk
  · exact ⟨by simp, trivial⟩
  · intro h
    have hexpected : expectedHashes plainDeployment id [⟨"black tea", []⟩] = [normalizedHash id "black tea"] := rfl
    simp only [hexpected, List.mem_singleton, List.map_cons, List.map_nil, exists_eq_left, hhash]
    exact eq_comm
  · intro h _
    rw [hset]
    rfl
  · simp only [List.map_cons, List.map_nil, List.mem_singleton, forall_eq, StoreRow.hasTags, htags]
    decide
  · intro other hne
    refine ⟨by simpa [htags] using sample_own hne, ?_⟩
    intro y hy _
    rw [List.mem_singleton.1 hy]
    exact sample_own hne

/-- Another file. -/
def otherKey : String := "ffeeddccbbaa99887766554433221100ffeeddccbbaa99887766554433221100"

/-- **The code violates the claim**: two sources with one content. The first replacement, on an empty store, writes the row;
the second finds the content under the other key, and neither it nor the same call again brings the set to the expected one. -/
theorem shared_content_diverges : ∃ s₁,
    replaceSourceAtomSet plainDeployment (normalizedApi id) id syncProfile notesAgent (fun _ => .ok ()) answeredReplies sampleKey
        "inbox" "note" [⟨"black tea", []⟩] ⟨.empty, .empty, ⟨0, []⟩⟩ = (s₁, .ok ⟨"written", 0, 1⟩) ∧
      replaceGate plainDeployment id syncProfile.toAgentProfile notesAgent answeredReplies otherKey [⟨"black tea", []⟩] =
        .ok "t_default" ∧
      InQuota syncProfile.toAgentProfile s₁.count answeredReplies 1 ∧
      ¬ Converges plainDeployment id syncProfile notesAgent (fun _ => .ok ()) answeredReplies answeredReplies otherKey "t_default"
        "inbox" "note" [⟨"black tea", []⟩] s₁ := by
  have hgate : ∀ key ∈ [sampleKey, otherKey], replaceGate plainDeployment id syncProfile.toAgentProfile notesAgent answeredReplies
      key [⟨"black tea", []⟩] = .ok "t_default" := by
    intro key hkey
    rcases List.mem_cons.1 hkey with rfl | hkey
    · rfl
    · rw [List.mem_singleton.1 hkey]
      rfl
  have hdelete : deletePriorSourceVersions plainDeployment syncProfile.toAgentProfile notesAgent (fun _ => .ok ()) answeredReplies
      sampleKey none ⟨.empty, .empty, ⟨0, []⟩⟩ = (⟨.empty, .empty, ⟨0, []⟩⟩, .ok []) := by
    rfl
  have hwritten : ∃ s₁, writeAtoms plainDeployment (normalizedApi id) syncProfile notesAgent (fun _ => .ok ())
      answeredReplies.atom sampleKey "inbox" "note" 0 [⟨"black tea", []⟩] ⟨.empty, .empty, ⟨0, []⟩⟩ = (s₁, .ok ()) ∧
      s₁.count = ⟨1, [0]⟩ :=
    ⟨_, rfl, rfl⟩
  obtain ⟨s₁, hwrite, hcount⟩ := hwritten
  obtain ⟨x, hplan, hhash, htags⟩ := sampleRow
  have hexpected : expectedHashes plainDeployment id [⟨"black tea", []⟩] = [normalizedHash id "black tea"] := rfl
  have hstore : s₁.store.rows = [x] := by
    have hdone := writeAtoms_planned (s := ⟨.empty, .empty, ⟨0, []⟩⟩) (sampleQuota (n := ⟨0, []⟩) (by decide) (by decide))
      answeredReplies_answered le_rfl (WriteCount.within_self _) hplan (by rw [hwrite])
    rw [hwrite] at hdone
    exact congrArg Store.rows hdone
  have hmarked : x.hasTags (markerTags (sourceTag sampleKey) "t_default") = true ∧
      x.hasTags (markerTags (sourceTag otherKey) "t_default") = false := by
    simp only [StoreRow.hasTags, htags]
    decide
  have hset : HoldsExpected plainDeployment id sampleKey "t_default" [⟨"black tea", []⟩] s₁.store := by
    intro h
    rw [Store.mem_tagged, hexpected, List.mem_singleton, hstore]
    simp only [List.mem_singleton, exists_eq_left, hmarked.1, hhash, true_and]
    exact eq_comm
  have hquota : InQuota syncProfile.toAgentProfile s₁.count answeredReplies 1 :=
    sampleQuota (by rw [hcount]) (by rw [hcount]; decide)
  refine ⟨s₁, ?_, hgate otherKey (by simp), hquota, ?_⟩
  · have hchanged : unchangedSet plainDeployment id answeredReplies sampleKey "t_default" [⟨"black tea", []⟩] Store.empty =
        false := by
      rfl
    have hlook : checkWriteQuota syncProfile.toAgentProfile (WriteCount.at' ⟨0, []⟩ answeredReplies.preflight) 1 = .ok () := by
      rfl
    unfold replaceSourceAtomSet
    rw [hgate sampleKey (by simp)]
    simp only [hchanged, Bool.false_eq_true, if_false, List.length_cons, List.length_nil, Nat.zero_add, hlook]
    exact rewriteSet_settled answeredReplies_answered (by rw [hexpected]; decide) hdelete hwrite hset
  · intro hconverges
    -- The row of the first source is outside the set of the second and holds its content.
    have hout : x ∈ (s₁.store.withoutSet otherKey "t_default").rows := by
      rw [Store.mem_withoutSet, hstore, hmarked.2]
      exact ⟨List.mem_singleton_self x, by simp⟩
    obtain ⟨hnot, hnot'⟩ := shared_content_unsettled syncProfile notesAgent answeredReplies "inbox" "note" hout (by
      rw [hexpected, hhash]
      exact List.mem_singleton_self _)
    rcases hconverges.met answeredReplies_answered (hgate otherKey (by simp)) hquota with h | h
    · exact hnot h
    · exact hnot' h

end Panella
