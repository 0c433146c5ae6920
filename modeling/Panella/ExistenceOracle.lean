import Panella.MemoryRoutes
import Panella.ReadAccess

/-!
# What an answer gives away about the rows one may not see

Both properties are about two runs: the rows of one store against the rows of another, or one id against another, where
the difference is in rows the caller may not see.

* `getMemory_noOracle_iff`: a read by id keeps foreign, denied and excluded rows apart from missing ones exactly where the
  call is refused before the row is looked up or the profile admits the caller's tenant. `get_memory` looks the row up
  first and asks for the tenants only of a row it found; `search` asks first.
* `mutations_blind_iff`: `tombstone`, `supersede` and a soft delete tell a foreign row from a missing one on every call
  that gets as far as the lookup. No such call changes a row (`mutate_unowned`).
-/

namespace Panella

open Fallible PyJson

/-! ## Reading by id -/

/-- The caller may see the row. -/
def LiveRow.seenBy (d : Deployment) (p : AgentProfile) (pr : Principal) (r : LiveRow) : Bool :=
  let h := normalizeHit d r.toRawHit
  h.tenantId = pr.tenantId && readable p h.path && !hasExcludedRecallStatus h

/-- The two stores hold the same rows the caller may see. -/
def SameSeen (d : Deployment) (p : AgentProfile) (pr : Principal) (st st' : RowStore) : Prop :=
  ∀ id, (st id).filter (LiveRow.seenBy d p pr) = (st' id).filter (LiveRow.seenBy d p pr)

/-- `GET /v1/memory/{id}` says nothing of rows the caller may not see. -/
structure NoReadOracle (F : Type) (d : Deployment) (p : AgentProfile) (pr : Principal) (clk : ReadClock) : Prop where
  /-- The id of a row out of sight is answered as an id of no row. -/
  ids : ∀ auditHttp (st : RowStore) id id' r, st id = some r → r.seenBy d p pr = false → st id' = none →
    getMemoryRoute (F := F) d p pr clk auditHttp st none id = getMemoryRoute d p pr clk auditHttp st none id'
  /-- Stores that agree on the rows in sight are answered from alike. -/
  stores : ∀ auditHttp (st st' : RowStore) fault id, SameSeen d p pr st st' →
    getMemoryRoute (F := F) d p pr clk auditHttp st fault id = getMemoryRoute d p pr clk auditHttp st' fault id

/-- The call is refused before the row is looked up. -/
def ReadRefused (pr : Principal) (clk : ReadClock) : Prop :=
  pr.hasScope "memory.read" = false ∨ ∃ t ∈ pr.breakGlassToken, t.isActive clk.ttl = false

/-- The profile admits the caller's tenant, which is a concrete one. -/
def Admits (p : AgentProfile) (pr : Principal) : Prop := pr.tenantId ≠ "*" ∧ p.allowsTenant pr.tenantId = true

theorem scopeAndToken_error {pr : Principal} {scope : String} {now : Instant} :
    (∃ e, (do (pr.requireScope scope).mapError ClientErr.py; (pr.requireActiveBreakGlass now).mapError ClientErr.py) =
      Except.error e) ↔ pr.hasScope scope = false ∨ ∃ t ∈ pr.breakGlassToken, t.isActive now = false := by
  unfold Principal.requireScope Principal.requireActiveBreakGlass
  cases hs : pr.hasScope scope with
  | false => exact ⟨fun _ => .inl rfl, fun _ => ⟨_, rfl⟩⟩
  | true =>
    cases ht : pr.breakGlassToken with
    | none => simp [Except.mapError, bind, Except.bind]
    | some t => cases ha : t.isActive now <;> simp [ha, Except.mapError, bind, Except.bind]

theorem readGate_error {pr : Principal} {clk : ReadClock} : (∃ e, readGate pr clk = .error e) ↔ ReadRefused pr clk :=
  scopeAndToken_error

/-- Without break-glass, `_tenant_ids` answers with the caller's tenant or refuses. -/
theorem tenantIds_cases {p : AgentProfile} {pr : Principal} {now : Instant} (hbg : pr.isRootWithBreakGlass now = false) :
    Admits p pr ∧ tenantIds p pr now = .ok [pr.tenantId] ∨
      ¬ Admits p pr ∧ ∃ m, tenantIds p pr now = .error (.permissionError m) := by
  unfold Admits tenantIds
  by_cases hstar : pr.tenantId = "*"
  · right
    refine ⟨fun h => h.1 hstar, ?_⟩
    rw [if_pos hstar, hbg]
    exact ⟨_, rfl⟩
  · rw [if_neg hstar]
    by_cases hallow : p.allowsTenant pr.tenantId = true
    · left
      exact ⟨⟨hstar, hallow⟩, if_pos hallow⟩
    · right
      refine ⟨fun h => hallow h.2, ?_⟩
      rw [if_neg hallow]
      exact ⟨_, rfl⟩

/-- A call that got past its gate filters the row it found. -/
theorem getMemory_found {F : Type} {d : Deployment} {p : AgentProfile} {pr : Principal} {clk : ReadClock} {sink : AuditSink}
    {st : RowStore} {id : String} (hgate : readGate pr clk = .ok ()) :
    getMemory (F := F) d p pr clk sink (st.reply none id) id =
      match st id with
      | none => .ok ⟨none, none⟩
      | some r => filterHits d p pr clk [r.hit d] >>= fun filtered => serveFound pr clk sink id filtered.1 := by
  unfold getMemory
  rw [hgate, getDrawer_reply]
  cases st id <;> rfl

/-- What the filter does with one row of the store. -/
theorem filterHits_singleton {F : Type} {d : Deployment} {p : AgentProfile} {pr : Principal} {clk : ReadClock} {r : LiveRow}
    (hstar : pr.tenantId ≠ "*") (hids : tenantIds p pr clk.filterScope = .ok [pr.tenantId])
    (hr : r.seenBy d p pr = false) :
    (∃ m, filterHits (F := F) d p pr clk [r.hit d] = .error (.tenantIsolation m)) ∨
      filterHits (F := F) d p pr clk [r.hit d] = .ok ([], [r.hit d]) := by
  unfold filterHits
  rw [hids, mapError_of_ok, ok_then]
  have hhit : (LiveRow.hit (F := F) d r).toHit = normalizeHit d r.toRawHit := rfl
  unfold filterLoop filterLoop
  simp only [hhit]
  by_cases hexcl : hasExcludedRecallStatus (normalizeHit d r.toRawHit) = true
  · right
    rw [if_pos hexcl]
    rfl
  · rw [if_neg hexcl]
    by_cases hown : (normalizeHit d r.toRawHit).tenantId = pr.tenantId
    · right
      have hunread : readable p (normalizeHit d r.toRawHit).path = false := by simpa [LiveRow.seenBy, hown, hexcl] using hr
      rw [if_neg (by simp [hown]), if_neg (by simp [hunread])]
      rfl
    · left
      rw [if_pos (by simp [hown, Ne.symm hstar])]
      exact ⟨_, rfl⟩

/-- Where the profile admits the caller, a row out of sight is answered as no row. -/
theorem getMemoryAnswer_unseen {F : Type} {d : Deployment} {p : AgentProfile} {pr : Principal} {clk : ReadClock}
    {sink : AuditSink} {st : RowStore} {id : String} (hgate : readGate pr clk = .ok ()) (hadm : Admits p pr)
    (hbg : pr.isRootWithBreakGlass clk.filterScope = false) (h : (st id).filter (LiveRow.seenBy d p pr) = none) :
    getMemoryAnswer (F := F) d (getMemory d p pr clk sink (st.reply none id) id) =
      .error 404 "memory_not_found" "memory not found" := by
  have hids : tenantIds p pr clk.filterScope = .ok [pr.tenantId] := by
    rcases tenantIds_cases (p := p) hbg with ⟨-, h⟩ | ⟨hn, -⟩
    · exact h
    · exact absurd hadm hn
  rw [getMemory_found hgate]
  cases hr : st id with
  | none => rfl
  | some r =>
    rw [hr] at h
    have hunseen : r.seenBy d p pr = false := by simpa [Option.filter] using h
    rcases filterHits_singleton (F := F) hadm.1 hids hunseen with ⟨m, hf⟩ | hf
    · simp only [hf]
      rfl
    · simp only [hf]
      rfl

theorem getMemoryRoute_refused {F : Type} {d : Deployment} {p : AgentProfile} {pr : Principal} {clk : ReadClock}
    {e : ClientErr} (hgate : readGate pr clk = .error e) (auditHttp : Except ClientErr Unit) (st : RowStore)
    (fault : Option ClientErr) (id : String) :
    getMemoryRoute (F := F) d p pr clk auditHttp st fault id = audited auditHttp (getMemoryAnswer d (.error e)) := by
  unfold getMemoryRoute getMemory
  rw [hgate]
  rfl

/-! ### A row nobody may see -/

/-- A row with the status of a candidate. -/
def candidateRow : LiveRow where
  contentHash := .str "h1"
  content := .str "text"
  tags := []
  memoryType := .null
  metadata := [("status", .str "candidate")]
  createdAt := .null
  createdAtIso := .null

theorem candidateRow_unseen (d : Deployment) (p : AgentProfile) (pr : Principal) : candidateRow.seenBy d p pr = false := by
  have h : hasExcludedRecallStatus (normalizeHit d candidateRow.toRawHit) = true := by
    have hs : (normalizeHit d candidateRow.toRawHit).status = "candidate" := by
      simp [normalizeHit, candidateRow, Dict.get, Json.orElse, Json.truthy]
    rw [hasExcludedRecallStatus, hs]
    rfl
  simp [LiveRow.seenBy, h]

/-- One row, under one id. -/
def oneRow (id : String) (r : LiveRow) : RowStore := fun id' => if id' = id then some r else none

/-- **A read by id is no existence oracle exactly where it is refused before the lookup or the profile admits the caller's
tenant.** -/
theorem getMemory_noOracle_iff {F : Type} (d : Deployment) (p : AgentProfile) (pr : Principal) (clk : ReadClock)
    (hbg : pr.isRootWithBreakGlass clk.filterScope = false) :
    NoReadOracle F d p pr clk ↔ ReadRefused pr clk ∨ Admits p pr := by
  constructor
  · intro h
    by_contra hn
    rw [not_or] at hn
    have hgate : readGate pr clk = .ok () := by
      cases hg : readGate pr clk with
      | ok u => rfl
      | error e => exact absurd (readGate_error.1 ⟨e, hg⟩) hn.1
    obtain ⟨-, m, hids⟩ | ⟨hadm, -⟩ := (tenantIds_cases (p := p) hbg).symm
    · have hsame := h.ids (.ok ()) (fun id => if id = "a" then some candidateRow else none) "a" "b" candidateRow rfl
        (candidateRow_unseen d p pr) rfl
      unfold getMemoryRoute at hsame
      rw [getMemory_found hgate, getMemory_found hgate] at hsame
      simp only [filterHits, hids] at hsame
      cases hsame
    · exact hn.2 hadm
  · intro h
    by_cases hrefused : ReadRefused pr clk
    · obtain ⟨e, hgate⟩ := readGate_error.2 hrefused
      constructor
      · intros
        rw [getMemoryRoute_refused hgate, getMemoryRoute_refused hgate]
      · intros
        rw [getMemoryRoute_refused hgate, getMemoryRoute_refused hgate]
    · have hadm := h.resolve_left hrefused
      have hgate : readGate pr clk = .ok () := by
        cases hg : readGate pr clk with
        | ok u => rfl
        | error e => exact absurd (readGate_error.1 ⟨e, hg⟩) hrefused
      constructor
      · intro auditHttp st id id' r hr hunseen hnone
        unfold getMemoryRoute
        rw [getMemoryAnswer_unseen hgate hadm hbg (by rw [hr]; simp [Option.filter, hunseen]),
          getMemoryAnswer_unseen hgate hadm hbg (by rw [hnone]; rfl)]
      · intro auditHttp st st' fault id hsame
        cases fault with
        | some e => rfl
        | none =>
          unfold getMemoryRoute
          cases hs : (st id).filter (LiveRow.seenBy d p pr) with
          | none =>
            rw [getMemoryAnswer_unseen hgate hadm hbg hs, getMemoryAnswer_unseen hgate hadm hbg (hsame id ▸ hs)]
          | some r =>
            have hr : st id = some r := (Option.filter_eq_some_iff.1 hs).1
            have hr' : st' id = some r := (Option.filter_eq_some_iff.1 (hsame id ▸ hs)).1
            rw [getMemory_found hgate, getMemory_found hgate, hr, hr']

theorem getMemory_noOracle_admitted :
    NoReadOracle Unit sampleDeployment readerProfile.toAgentProfile readerPrincipal sampleClock :=
  (getMemory_noOracle_iff sampleDeployment readerProfile.toAgentProfile readerPrincipal sampleClock rfl).2
    (.inr ⟨by decide, by decide⟩)

/-! ### A caller the profile does not admit -/

def strangerPrincipal : Principal :=
  ⟨"agent:serving@t_other", "t_other", "owner", ["memory.read", "memory.write"], false, none⟩

/-- A row of `facts/inbox`. -/
def inboxRow (tenant : String) : LiveRow where
  contentHash := .str "h1"
  content := .str "text"
  tags := []
  memoryType := .null
  metadata := [("wing", .str "facts"), ("room", .str "inbox"), ("tenant_id", .str tenant)]
  createdAt := .null
  createdAtIso := .null

/-- Two stores that agree on all a stranger may see, which is nothing: 403 where there is a row, 404 where there is none. -/
theorem getMemory_tellsExistence :
    SameSeen sampleDeployment readerProfile.toAgentProfile strangerPrincipal (oneRow "h1" (inboxRow "t_default"))
      (fun _ => none) ∧
    getMemoryRoute (F := Unit) sampleDeployment readerProfile.toAgentProfile strangerPrincipal sampleClock (.ok ())
        (oneRow "h1" (inboxRow "t_default")) none "h1" =
      .error 403 "forbidden" "profile serving does not allow tenant t_other" ∧
    getMemoryRoute (F := Unit) sampleDeployment readerProfile.toAgentProfile strangerPrincipal sampleClock (.ok ())
        (fun _ => none) none "h1" = .error 404 "memory_not_found" "memory not found" := by
  refine ⟨?_, rfl, rfl⟩
  intro id
  by_cases h : id = "h1"
  · subst h
    rfl
  · simp [oneRow, h]

/-! ## Mutating by id -/

/-- The row is of another tenant than the caller's. -/
def LiveRow.foreignTo (d : Deployment) (pr : Principal) (r : LiveRow) : Bool :=
  (normalizeHit d r.toRawHit).tenantId ≠ pr.tenantId

/-- No row, or a row of another tenant. -/
def Unowned (d : Deployment) (pr : Principal) (st : RowStore) (id : String) : Prop :=
  ∀ r, st id = some r → r.foreignTo d pr = true

/-- A mutation of the client answers for a foreign row as for no row, and changes neither store. -/
structure MutationBlind (d : Deployment) (pr : Principal)
    (op : AuditSink → MutationReplies → String → RowStore → Mutated) : Prop where
  same : ∀ sink replies (st st' : RowStore) id id' r, st id = some r → r.foreignTo d pr = true → st' id' = none →
    (op sink replies id st).result = (op sink replies id' st').result
  unchanged : ∀ sink replies st id, Unowned d pr st id → (op sink replies id st).store = st

/-- `POST /v1/memory/delete` in soft mode answers for a foreign row as for no row, and changes neither store. -/
structure DeleteBlind (d : Deployment) (p : AgentProfile) (pr : Principal) (clk : MutationClock) (reason : String) : Prop where
  same : ∀ auditHttp replies (st st' : RowStore) id r, st id = some r → r.foreignTo d pr = true → st' id = none →
    (deleteMemoryRoute d p pr clk auditHttp replies id reason st).2 =
      (deleteMemoryRoute d p pr clk auditHttp replies id reason st').2
  unchanged : ∀ auditHttp replies st id, Unowned d pr st id →
    (deleteMemoryRoute d p pr clk auditHttp replies id reason st).1 = st

/-- The call is refused before the row is looked up. -/
def MutationRefused (p : AgentProfile) (pr : Principal) (clk : MutationClock) (reason : String) : Prop :=
  (pr.hasScope "memory.write" = false ∨ ∃ t ∈ pr.breakGlassToken, t.isActive clk.ttl = false) ∨
    PyText.stripSpace reason = "" ∨ ¬ Admits p pr

/-- The refusal names neither the row nor its id. -/
theorem mutationGate_error {pr : Principal} {clk : MutationClock} {op reason : String} :
    (∃ e, mutationGate pr clk op reason = .error e) ↔
      (pr.hasScope "memory.write" = false ∨ ∃ t ∈ pr.breakGlassToken, t.isActive clk.ttl = false) ∨
        PyText.stripSpace reason = "" := by
  have hgate : mutationGate pr clk op reason =
      (do (pr.requireScope "memory.write").mapError ClientErr.py; (pr.requireActiveBreakGlass clk.ttl).mapError ClientErr.py) >>=
        fun _ => if PyText.stripSpace reason = "" then .error (.py (.valueError (op ++ " reason is required"))) else .ok () := by
    unfold mutationGate
    cases (pr.requireScope "memory.write").mapError ClientErr.py <;> simp only [error_then, ok_then]
  rw [hgate, ← scopeAndToken_error]
  cases hc : (do
      (pr.requireScope "memory.write").mapError ClientErr.py
      (pr.requireActiveBreakGlass clk.ttl).mapError ClientErr.py) with
  | error e => exact ⟨fun _ => .inl ⟨e, rfl⟩, fun _ => ⟨e, rfl⟩⟩
  | ok u =>
    by_cases hr : PyText.stripSpace reason = ""
    · exact ⟨fun _ => .inr hr, fun _ => ⟨_, if_pos hr⟩⟩
    · constructor
      · rintro ⟨e, he⟩
        rw [ok_then, if_neg hr] at he
        cases he
      · rintro (⟨e, he⟩ | h)
        · cases he
        · exact absurd h hr

section Mutate

variable {d : Deployment} {p : AgentProfile} {pr : Principal} {clk : MutationClock} {op reason : String}
  {by' : Option String} {tr : TagTransition} {details : Dict} {wf : WF (.obj details)}

/-- The ownership check of a caller the profile admits goes by the row alone. -/
theorem requireMutationTargetOwned_admitted (st : RowStore) (id : String) (hadm : Admits p pr)
    (hbg : pr.isRootWithBreakGlass clk.scope = false) (fault : Option ClientErr) :
    requireMutationTargetOwned d p pr clk.scope (st.reply fault id) id =
      match fault with
      | some e => .error e
      | none => ownershipOf pr [pr.tenantId] id ((st id).map fun r => normalizeHit d r.toRawHit) := by
  have hids : tenantIds p pr clk.scope = .ok [pr.tenantId] := by
    rcases tenantIds_cases (p := p) hbg with ⟨-, h⟩ | ⟨hn, -⟩
    · exact h
    · exact absurd hadm hn
  have hstar : ¬ List.contains [pr.tenantId] "*" = true := by simp [Ne.symm hadm.1]
  unfold requireMutationTargetOwned
  rw [hids, mapError_of_ok, ok_then, if_neg hstar]
  cases fault with
  | some e => rfl
  | none =>
    rw [getDrawer_reply, ok_then, Option.map_map]
    rfl

theorem ownershipOf_foreign {r : LiveRow} (id : String) (h : r.foreignTo d pr = true) :
    ∃ m, ownershipOf pr [pr.tenantId] id (some (normalizeHit d r.toRawHit)) = .error (.py (.permissionError m)) := by
  have hforeign : (normalizeHit d r.toRawHit).tenantId ≠ pr.tenantId := by simpa [LiveRow.foreignTo] using h
  refine ⟨_, if_neg ?_⟩
  simp [hforeign]

/-- A row that is not the caller's never passes for one. -/
theorem requireMutationTargetOwned_unowned {st : RowStore} {id : String} {fault : Option ClientErr}
    (hbg : pr.isRootWithBreakGlass clk.scope = false) (h : Unowned d pr st id) :
    requireMutationTargetOwned d p pr clk.scope (st.reply fault id) id ≠ .ok true := by
  intro howned
  obtain ⟨hadm, -⟩ | ⟨-, m, hm⟩ := tenantIds_cases (p := p) hbg
  · rw [requireMutationTargetOwned_admitted st id hadm hbg] at howned
    cases fault with
    | some e => cases howned
    | none =>
      cases hr : st id with
      | none => rw [hr] at howned; cases howned
      | some r =>
        obtain ⟨m, hm⟩ := ownershipOf_foreign id (h r hr)
        rw [hr] at howned
        exact absurd (hm.symm.trans howned) (by simp)
  · unfold requireMutationTargetOwned at howned
    rw [hm] at howned
    cases howned

/-- **A mutation of a row that is not the caller's changes nothing.** -/
theorem mutate_unowned (hbg : pr.isRootWithBreakGlass clk.scope = false) (sink : AuditSink) (replies : MutationReplies)
    {st : RowStore} {id : String} (h : Unowned d pr st id) :
    (mutate d p pr clk sink op reason by' tr details wf replies id st).store = st := by
  unfold mutate
  split
  · rfl
  · split
    · rfl
    · rfl
    · next howned => exact absurd howned (requireMutationTargetOwned_unowned hbg h)

/-- A refused call has the same end for every row of every store. -/
theorem mutate_refused (hbg : pr.isRootWithBreakGlass clk.scope = false) (h : MutationRefused p pr clk reason) :
    ∃ e, ∀ sink replies id st, (mutate d p pr clk sink op reason by' tr details wf replies id st).result = .error e := by
  by_cases hgate : ∃ e, mutationGate pr clk op reason = .error e
  · obtain ⟨e, he⟩ := hgate
    refine ⟨e, ?_⟩
    intro sink replies id st
    unfold mutate
    rw [he]
  · have hadm : ¬ Admits p pr := by
      rcases h with h | h | h
      · exact absurd (mutationGate_error.2 (.inl h)) hgate
      · exact absurd (mutationGate_error.2 (.inr h)) hgate
      · exact h
    have hok : mutationGate pr clk op reason = .ok () := by
      cases hg : mutationGate pr clk op reason with
      | ok u => rfl
      | error e => exact absurd ⟨e, hg⟩ hgate
    obtain ⟨ha, -⟩ | ⟨-, m, hm⟩ := tenantIds_cases (p := p) hbg
    · exact absurd ha hadm
    · refine ⟨.py (.permissionError m), ?_⟩
      intro sink replies id st
      unfold mutate requireMutationTargetOwned
      rw [hok, hm]
      rfl

/-- A call that reaches the lookup ends by whether there is a row, and whose it is. -/
theorem mutate_lookup (hbg : pr.isRootWithBreakGlass clk.scope = false) (h : ¬ MutationRefused p pr clk reason)
    (sink : AuditSink) (replies : MutationReplies) (hf : replies.owned = none) {st : RowStore} {id : String} :
    (st id = none → (mutate d p pr clk sink op reason by' tr details wf replies id st).result = .ok false) ∧
      ∀ r, st id = some r → r.foreignTo d pr = true →
        ∃ m, (mutate d p pr clk sink op reason by' tr details wf replies id st).result = .error (.py (.permissionError m)) := by
  unfold MutationRefused at h
  rw [← or_assoc, not_or, not_not] at h
  obtain ⟨hgate, hadm⟩ := h
  have hok : mutationGate pr clk op reason = .ok () := by
    cases hg : mutationGate pr clk op reason with
    | ok u => rfl
    | error e => exact absurd (mutationGate_error.1 ⟨e, hg⟩) hgate
  have howned := requireMutationTargetOwned_admitted (d := d) st id hadm hbg replies.owned
  rw [hf] at howned
  unfold mutate
  rw [hok, hf, howned]
  constructor
  · intro hr
    rw [hr]
    rfl
  · intro r hr hforeign
    obtain ⟨m, hm⟩ := ownershipOf_foreign id hforeign
    refine ⟨m, ?_⟩
    rw [hr, Option.map_some, hm]

end Mutate

/-- A row of the tenant whose name is the caller's and one letter more. -/
def otherTenantRow (pr : Principal) : LiveRow where
  contentHash := .str "h1"
  content := .str "text"
  tags := []
  memoryType := .null
  metadata := [("tenant_id", .str (pr.tenantId ++ "x"))]
  createdAt := .null
  createdAtIso := .null

theorem otherTenantRow_foreign (d : Deployment) (pr : Principal) : (otherTenantRow pr).foreignTo d pr = true := by
  have hne : pr.tenantId ++ "x" ≠ "" := by
    intro h
    have := congrArg String.length h
    simp at this
  have htenant : (normalizeHit d (otherTenantRow pr).toRawHit).tenantId = pr.tenantId ++ "x" := by
    simp [normalizeHit, otherTenantRow, Dict.get, Json.orElse_str hne]
  have hother : pr.tenantId ++ "x" ≠ pr.tenantId := by
    intro h
    have := congrArg String.length h
    simp at this
  simp [LiveRow.foreignTo, htenant, hother]

/-- One call of either kind is blind exactly where it is refused before the lookup. -/
theorem mutate_blind_iff {d : Deployment} {p : AgentProfile} {pr : Principal} {clk : MutationClock} {op reason : String}
    {by' : Option String} {tr : TagTransition} {details : Dict} {wf : WF (.obj details)}
    (hbg : pr.isRootWithBreakGlass clk.scope = false) :
    MutationBlind d pr (fun sink => mutate d p pr clk sink op reason by' tr details wf) ↔ MutationRefused p pr clk reason := by
  constructor
  · intro h
    by_contra hn
    have hsame := h.same (fun _ => .ok ()) calmReplies (oneRow "a" (otherTenantRow pr)) (fun _ => none) "a" "a" _ rfl
      (otherTenantRow_foreign d pr) rfl
    obtain ⟨m, hm⟩ : ∃ m, (mutate d p pr clk (fun _ => .ok ()) op reason by' tr details wf calmReplies "a"
        (oneRow "a" (otherTenantRow pr))).result = .error (.py (.permissionError m)) :=
      (mutate_lookup hbg hn _ _ rfl).2 _ rfl (otherTenantRow_foreign d pr)
    have hnone : (mutate d p pr clk (fun _ => .ok ()) op reason by' tr details wf calmReplies "a"
        (fun _ => none)).result = .ok false := (mutate_lookup hbg hn _ _ rfl).1 rfl
    rw [hm, hnone] at hsame
    cases hsame
  · intro h
    constructor
    · intro sink replies st st' id id' r _ _ _
      obtain ⟨e, he⟩ : ∃ e, ∀ sink replies id st,
          (mutate d p pr clk sink op reason by' tr details wf replies id st).result = .error e := mutate_refused hbg h
      rw [he, he]
    · intro sink replies st id hunowned
      exact mutate_unowned hbg sink replies hunowned

theorem deleteMemoryRoute_unchanged {d : Deployment} {p : AgentProfile} {pr : Principal} {clk : MutationClock}
    {reason id : String} {st : RowStore} (hbg : pr.isRootWithBreakGlass clk.scope = false)
    (auditHttp : Except ClientErr Unit) (replies : MutationReplies) (h : Unowned d pr st id) :
    (deleteMemoryRoute d p pr clk auditHttp replies id reason st).1 = st :=
  mutate_unowned hbg _ replies h

/-- The soft delete of the route is blind exactly where the mutation is. -/
theorem deleteMemoryRoute_blind_iff {d : Deployment} {p : AgentProfile} {pr : Principal} {clk : MutationClock}
    {reason : String} (hbg : pr.isRootWithBreakGlass clk.scope = false) :
    DeleteBlind d p pr clk reason ↔ MutationRefused p pr clk reason := by
  constructor
  · intro h
    by_contra hn
    have hsame := h.same (.ok ()) calmReplies (oneRow "a" (otherTenantRow pr)) (fun _ => none) "a" _ rfl
      (otherTenantRow_foreign d pr) rfl
    obtain ⟨m, hm⟩ : ∃ m, (tombstone d p pr clk (fun _ => .ok ()) calmReplies "a" reason
        (oneRow "a" (otherTenantRow pr))).result = .error (.py (.permissionError m)) :=
      (mutate_lookup hbg hn _ _ rfl).2 _ rfl (otherTenantRow_foreign d pr)
    have hnone : (tombstone d p pr clk (fun _ => .ok ()) calmReplies "a" reason (fun _ => none)).result = .ok false :=
      (mutate_lookup hbg hn _ _ rfl).1 rfl
    simp only [deleteMemoryRoute, hm, hnone, audited] at hsame
    cases hsame
  · intro h
    obtain ⟨e, he⟩ : ∃ e, ∀ sink replies id st, (tombstone d p pr clk sink replies id reason st).result = .error e :=
      mutate_refused hbg h
    constructor
    · intro auditHttp replies st st' id r _ _ _
      simp only [deleteMemoryRoute, he]
    · intro auditHttp replies st id hunowned
      exact deleteMemoryRoute_unchanged hbg auditHttp replies hunowned

def writerPrincipal : Principal := ⟨"agent:serving@t_default", "t_default", "owner", ["memory.write"], false, none⟩

def sampleMutationClock : MutationClock := ⟨0, 0, 0, "2026-01-01T00:00:00Z"⟩

/-- **A mutation keeps a foreign row apart from a missing one on every call that reaches the lookup**, and on no other. -/
theorem mutations_blind_iff (d : Deployment) (p : AgentProfile) (pr : Principal) (clk : MutationClock) (reason : String)
    (hbg : pr.isRootWithBreakGlass clk.scope = false) :
    (MutationBlind d pr (fun sink replies id st => tombstone d p pr clk sink replies id reason st) ↔
      MutationRefused p pr clk reason) ∧
    (∀ supersededBy, MutationBlind d pr (fun sink replies id st => supersede d p pr clk sink replies id reason supersededBy st) ↔
      MutationRefused p pr clk reason) ∧
    (DeleteBlind d p pr clk reason ↔ MutationRefused p pr clk reason) := by
  refine ⟨?_, ?_, ?_⟩
  · exact mutate_blind_iff hbg
  · intro supersededBy
    exact mutate_blind_iff hbg
  · exact deleteMemoryRoute_blind_iff hbg

theorem mutations_blind_blankReason :
    DeleteBlind sampleDeployment readerProfile.toAgentProfile writerPrincipal sampleMutationClock " " :=
  (mutations_blind_iff sampleDeployment readerProfile.toAgentProfile writerPrincipal sampleMutationClock " " rfl).2.2.2
    (.inr (.inl (by decide)))

/-- A row of `t_other`, and no row: a refusal that names the owner, and `False`; 403, and 200. -/
theorem mutations_tellForeign :
    let p := readerProfile.toAgentProfile
    let foreign := oneRow "h1" (inboxRow "t_other")
    let refusal := "principal agent:serving@t_default (tenant t_default) cannot mutate drawer h1 owned by tenant t_other"
    let sink : AuditSink := fun _ => .ok ()
    let tomb := tombstone sampleDeployment p writerPrincipal sampleMutationClock sink calmReplies "h1" "stale"
    let super := supersede sampleDeployment p writerPrincipal sampleMutationClock sink calmReplies "h1" "stale" none
    let route := deleteMemoryRoute sampleDeployment p writerPrincipal sampleMutationClock (.ok ()) calmReplies "h1" "stale"
    (tomb foreign).result = .error (.py (.permissionError refusal)) ∧ (tomb fun _ => none).result = .ok false ∧
      (super foreign).result = .error (.py (.permissionError refusal)) ∧ (super fun _ => none).result = .ok false ∧
      (route foreign).2 = .error 403 "forbidden" refusal ∧ (route fun _ => none).2 = .ok ⟨false, "h1"⟩ :=
  ⟨rfl, rfl, rfl, rfl, rfl, rfl⟩

end Panella
