import Panella.AtomSet

/-!
# What a failed replacement does to the prior set

`replace_source_atom_set` deletes the rows of a source before it writes its atoms, and each of those writes makes checks of
its own. `KeepsPrior` says, of what a call that raises is given, that the rows of the source come out as they were:

| case | the call raises |
| --- | --- |
| `checks` | before the loop of deletes |
| `deletes` | in that loop or at the search after it, and no DELETE landed |
| `writes` | later, and the rows its POSTs stored are the rows its DELETEs took |

**`prior_kept_iff`**: this is exact, for every exception and every failure of a request. The quota is looked at twice before
the loop; the type of the memory, the allowlists, the tenant and the other arguments of `write` are looked at only after it.
-/

namespace Panella

open Fallible PyJson

variable {d : Deployment} {api : StoreApi} {lower : String → String} {p : WriteProfile} {pr : Principal} {sink : AuditSink}
variable {r : ReplaceReplies} {key room memoryType tenantId : String} {atoms : List AtomWrite} {s s₁ : ClientState}

/-! ## Rows taken and rows stored -/

/-- The active rows with the tag of a source. -/
def Store.ofSource (st : Store) (key : String) : List StoreRow := st.rows.filter fun x => x.tags.contains (sourceTag key)

theorem Store.mem_ofSource {st : Store} {x : StoreRow} : x ∈ st.ofSource key ↔ x ∈ st.rows ∧ sourceTag key ∈ x.tags := by
  simp [Store.ofSource]

/-- The rows that are new, of rows stored one after the other. -/
def Store.fresh : Store → List StoreRow → List StoreRow
  | _, [] => []
  | st, x :: xs => if st.active x.contentHash then st.fresh xs else x :: (st.insert x).fresh xs

theorem Store.insert_active {st : Store} {x : StoreRow} (h : st.active x.contentHash = true) : st.insert x = st := by
  rw [Store.insert, dif_pos h]

theorem Store.rows_insert {st : Store} {x : StoreRow} (h : st.active x.contentHash = false) :
    (st.insert x).rows = st.rows ++ [x] := by
  rw [Store.insert, dif_neg (by simp [h])]

theorem Store.rows_foldl_insert (st : Store) (xs : List StoreRow) :
    (xs.foldl Store.insert st).rows = st.rows ++ st.fresh xs := by
  induction xs generalizing st with
  | nil => simp [Store.fresh]
  | cons x xs ih =>
    rw [List.foldl_cons, ih, Store.fresh]
    by_cases h : st.active x.contentHash = true
    · rw [if_pos h, Store.insert_active h]
    · rw [if_neg h, Store.rows_insert (by simpa using h)]
      simp

theorem Store.fresh_subset (st : Store) (xs : List StoreRow) : st.fresh xs ⊆ xs := by
  induction xs generalizing st with
  | nil => simp [Store.fresh]
  | cons x xs ih =>
    rw [Store.fresh]
    split
    · exact fun y hy => List.mem_cons_of_mem x (ih st hy)
    · intro y hy
      rcases List.mem_cons.1 hy with rfl | hy
      · exact List.mem_cons_self
      · exact List.mem_cons_of_mem x (ih _ hy)

/-- A new row is not one that was there. -/
theorem Store.fresh_not_mem {st : Store} {xs : List StoreRow} {x : StoreRow} (h : x ∈ st.fresh xs) : x ∉ st.rows := by
  have hnodup := (xs.foldl Store.insert st).nodup
  rw [Store.rows_foldl_insert, List.map_append] at hnodup
  intro hx
  exact List.disjoint_of_nodup_append hnodup (List.mem_map_of_mem hx) (List.mem_map_of_mem h)

/-- The call of `hard_delete` takes the row away, whatever it returns or raises. -/
def DeleteReply.lands : DeleteReply → Bool
  | .answered | .retried | .lost _ => true
  | .unsuccessful | .undeleted _ => false

theorem Store.delete_store (st : Store) (h : String) (reply : DeleteReply) :
    (st.delete h reply).1 = if reply.lands then st.remove h else st := by
  cases reply <;> rfl

/-- In this turn a DELETE is sent and lands. -/
def CandidateReplies.takes (d : Deployment) (p : AgentProfile) (pr : Principal) (st : Store) (r : CandidateReplies)
    (h : String) : Bool :=
  match requireMutationTargetOwned d p pr r.scope (st.live.reply r.owned h) h with
  | .ok true => r.delete.lands
  | _ => false

/-- The hashes whose DELETE lands, as far as the loop goes. -/
def takenBy (d : Deployment) (p : AgentProfile) (pr : Principal) (sink : AuditSink) (r : Nat → CandidateReplies)
    (tenantId key : String) : Nat → List String → ClientState → List String
  | _, [], _ => []
  | k, h :: hs, s =>
    let turn := deleteCandidate d p pr sink (r k) tenantId key h s
    let rest := match turn.2 with
      | .error _ => []
      | .ok _ => takenBy d p pr sink r tenantId key (k + 1) hs turn.1
    if (r k).takes d p pr s.store h then h :: rest else rest

/-- The row the write of an atom POSTs, if it gets there and the POST lands. -/
def storedRow (d : Deployment) (api : StoreApi) (p : AgentProfile) (pr : Principal) (r : AtomReplies)
    (key room memoryType : String) (a : AtomWrite) (n : WriteCount) : Option StoreRow := do
  let c ← (atomCall key room memoryType a).toOption
  let infer ← (writeArguments d p pr r.now c).toOption
  (enforceWriteQuota p (n.at' r.quota)).toOption
  let target ← (writeTarget d p pr r.scope r.requested c).toOption
  let prepared := preparedRow d p pr r.toWriteClock c target infer
  if approvalRequired p prepared.wing prepared.room then none
  else
    let body ← (addMemoryBody d prepared.wing prepared.room prepared.content prepared.metadata true c.conversationId).toOption
    if r.post.stores then some (rowOf api body none) else none

/-- The rows the POSTs of the atoms land with, as far as the loop goes. -/
def storedBy (d : Deployment) (api : StoreApi) (p : WriteProfile) (pr : Principal) (sink : AuditSink) (r : Nat → AtomReplies)
    (key room memoryType : String) : Nat → List AtomWrite → ClientState → List StoreRow
  | _, [], _ => []
  | k, a :: as, s =>
    let turn := writeAtom d api p pr sink (r k) key room memoryType a s
    let rest := match turn.2 with
      | .error _ => []
      | .ok _ => storedBy d api p pr sink r key room memoryType (k + 1) as turn.1
    (storedRow d api p.toAgentProfile pr (r k) key room memoryType a s.count).toList ++ rest

/-! ## What the loops do to the store -/

theorem deleteCandidate_store (d : Deployment) (p : AgentProfile) (pr : Principal) (sink : AuditSink) (r : CandidateReplies)
    (tenantId key h : String) (s : ClientState) :
    (deleteCandidate d p pr sink r tenantId key h s).1.store =
      if r.takes d p pr s.store h then s.store.remove h else s.store := by
  unfold deleteCandidate CandidateReplies.takes
  cases requireMutationTargetOwned d p pr r.scope (s.store.live.reply r.owned h) h with
  | error e => rfl
  | ok owned =>
    cases owned with
    | false => rfl
    | true =>
      simp only
      rw [← Store.delete_store]
      split
      · rfl
      · rfl
      · split <;> rfl

/-- **The loop of deletes** takes away the rows of the DELETEs that landed, and no other. -/
theorem rows_deleteCandidates (d : Deployment) (p : AgentProfile) (pr : Principal) (sink : AuditSink) (r : Nat → CandidateReplies)
    (tenantId key : String) (k : Nat) (hs : List String) (s : ClientState) :
    (deleteCandidates d p pr sink r tenantId key none k hs s).1.store.rows =
      s.store.rows.filter fun x => !(takenBy d p pr sink r tenantId key k hs s).contains x.contentHash := by
  induction hs generalizing k s with
  | nil => simp [deleteCandidates, takenBy]
  | cons h hs ih =>
    have hturn := congrArg Store.rows (deleteCandidate_store d p pr sink (r k) tenantId key h s)
    simp only [deleteCandidates, Option.any_none, Bool.false_eq_true, if_false, takenBy]
    cases hstep : deleteCandidate d p pr sink (r k) tenantId key h s with
    | mk s₁ out =>
      rw [hstep] at hturn
      dsimp only at hturn
      cases out with
      | error e =>
        simp only [hturn]
        split <;> simp [Store.remove]
      | ok gone =>
        have hrest := ih (k + 1) s₁
        cases hloop : deleteCandidates d p pr sink r tenantId key none (k + 1) hs s₁ with
        | mk s₂ out =>
          rw [hloop, hturn] at hrest
          dsimp only at hrest
          cases out <;> simp only [hloop, hrest] <;> split <;> simp [Store.remove, List.filter_filter, Bool.and_comm]

theorem mem_deleteCandidates (d : Deployment) (p : AgentProfile) (pr : Principal) (sink : AuditSink) (r : Nat → CandidateReplies)
    (tenantId key : String) (k : Nat) (hs : List String) (s : ClientState) (x : StoreRow) :
    x ∈ (deleteCandidates d p pr sink r tenantId key none k hs s).1.store.rows ↔
      x ∈ s.store.rows ∧ x.contentHash ∉ takenBy d p pr sink r tenantId key k hs s := by
  rw [rows_deleteCandidates]
  simp

theorem takenBy_subset (p : AgentProfile) (r : Nat → CandidateReplies) (k : Nat) (hs : List String) (s : ClientState) :
    takenBy d p pr sink r tenantId key k hs s ⊆ hs := by
  induction hs generalizing k s with
  | nil => simp [takenBy]
  | cons h hs ih =>
    unfold takenBy
    simp only
    have hrest : (match (deleteCandidate d p pr sink (r k) tenantId key h s).2 with
        | .error _ => []
        | .ok _ => takenBy d p pr sink r tenantId key (k + 1) hs (deleteCandidate d p pr sink (r k) tenantId key h s).1) ⊆ hs := by
      split
      · simp
      · exact ih (k + 1) _
    split
    · exact List.cons_subset_cons h hrest
    · exact fun y hy => List.mem_cons_of_mem h (hrest hy)

theorem Store.post_store (st : Store) (api : StoreApi) (body : MemoryBody) (w : Option Nat) (reply : PostReply) :
    (st.post api body w reply).1 = if reply.stores then st.insert (rowOf api body w) else st := by
  cases reply with
  | unstored e => rfl
  | lost e => rfl
  | retried disclosed => rfl
  | answered disclosed =>
    simp only [Store.post, PostReply.stores, if_true]
    split
    · rename_i h
      exact (Store.insert_active h).symm
    · rfl

theorem queueWrite_store (p : WriteProfile) (r : WriteReadings) (replies : WriteReplies) (a : PreparedWrite) (s : ClientState) :
    (queueWrite d p pr sink r replies a s).1.store = s.store := by
  unfold queueWrite
  split
  · rfl
  · split
    · rfl
    · simp only
      split <;> rfl

theorem settleWrite_store (p : WriteProfile) (r : WriteReadings) (a : PreparedWrite) (writtenId : String) (skipped : Bool)
    (existingHash : Option String) (s : ClientState) :
    (settleWrite d p pr sink r a writtenId skipped existingHash s).1.store = s.store := by
  unfold settleWrite
  simp only
  split <;> split <;> rfl

theorem handOver_store (p : WriteProfile) (r : WriteReadings) (replies : WriteReplies) (c : WriteCall) (a : PreparedWrite)
    (s : ClientState) :
    (handOver d p pr sink r replies c a s).1.store =
      match addMemoryBody d a.wing a.room a.content a.metadata true c.conversationId with
      | .error _ => s.store
      | .ok body => (replies.post s.store body).1 := by
  unfold handOver
  cases addMemoryBody d a.wing a.room a.content a.metadata true c.conversationId with
  | error e => rfl
  | ok body =>
    simp only
    split
    · rfl
    · exact settleWrite_store ..
    · split
      · rfl
      · exact settleWrite_store ..

theorem writeAtom_store (d : Deployment) (api : StoreApi) (p : WriteProfile) (pr : Principal) (sink : AuditSink)
    (r : AtomReplies) (key room memoryType : String) (a : AtomWrite) (s : ClientState) :
    (writeAtom d api p pr sink r key room memoryType a s).1.store =
      (storedRow d api p.toAgentProfile pr r key room memoryType a s.count).toList.foldl Store.insert s.store := by
  unfold writeAtom storedRow
  cases atomCall key room memoryType a with
  | error e => rfl
  | ok c =>
    simp only [writeMemory, Except.toOption, Option.bind_eq_bind, Option.bind_some]
    cases writeArguments d p.toAgentProfile pr r.now c with
    | error e => rfl
    | ok infer =>
      cases enforceWriteQuota p.toAgentProfile (s.count.at' r.quota) with
      | error e => rfl
      | ok _ =>
        cases writeTarget d p.toAgentProfile pr r.scope r.requested c with
        | error e => rfl
        | ok target =>
          simp only [Option.bind_some, commitPrepared]
          split
          · rw [queueWrite_store]
            rfl
          · rw [handOver_store]
            cases hbody : addMemoryBody d (preparedRow d p.toAgentProfile pr r.toWriteClock c target infer).wing
                (preparedRow d p.toAgentProfile pr r.toWriteClock c target infer).room
                (preparedRow d p.toAgentProfile pr r.toWriteClock c target infer).content
                (preparedRow d p.toAgentProfile pr r.toWriteClock c target infer).metadata true c.conversationId with
            | error e => rfl
            | ok body =>
              simp only [Store.post_store, Option.bind_some]
              split <;> rfl

/-- **The loop of writes** stores the rows of the POSTs that landed, and nothing else. -/
theorem writeAtoms_store (r : Nat → AtomReplies) (k : Nat) (as : List AtomWrite) (s : ClientState) :
    (writeAtoms d api p pr sink r key room memoryType k as s).1.store =
      (storedBy d api p pr sink r key room memoryType k as s).foldl Store.insert s.store := by
  induction as generalizing k s with
  | nil => rfl
  | cons a as ih =>
    have hturn := writeAtom_store d api p pr sink (r k) key room memoryType a s
    simp only [writeAtoms, storedBy, List.foldl_append]
    rw [← hturn]
    cases writeAtom d api p pr sink (r k) key room memoryType a s with
    | mk s₁ out =>
      cases out with
      | error e => rfl
      | ok _ => exact ih (k + 1) s₁

/-! ## The rows of the source -/

/-- The tag of a source is stored as it is. -/
theorem mem_storedTags_source (h : isSha256Hex key = true) {tags : List Json} (ht : Json.str (sourceTag key) ∈ tags) :
    sourceTag key ∈ storedTags tags := by
  have hchars : ∀ c ∈ (sourceTag key).toList, c ∈ "ccsk:0123456789abcdef".toList := by
    intro c hc
    rw [sourceTag, String.toList_append, List.mem_append] at hc
    simp only [isSha256Hex, Bool.and_eq_true, List.all_eq_true, List.contains_eq_mem, decide_eq_true_eq] at h
    rcases hc with hc | hc
    · exact (by decide : "ccsk:".toList ⊆ "ccsk:0123456789abcdef".toList) hc
    · exact (by decide : "0123456789abcdef".toList ⊆ "ccsk:0123456789abcdef".toList) (h.2 c hc)
  have hplain : ("ccsk:0123456789abcdef".toList.all fun c => !PyText.isSpace c) = true := by decide +kernel
  have hspace : ∀ c ∈ (sourceTag key).toList, PyText.isSpace c = false := by
    intro c hc
    simpa using List.all_eq_true.1 hplain c (hchars c hc)
  apply mem_storedTags ht
  · intro hc
    exact absurd (hchars ',' hc) (by decide)
  · rw [← String.toList_inj, PyText.toList_stripSpace]
    apply PyText.strip_eq_self_iff.2
    constructor
    · intro c hc
      exact hspace c (List.mem_of_mem_head? hc)
    · intro c hc
      exact hspace c (List.mem_of_mem_getLast? hc)
  · rw [sourceTag]
    simp

/-- The call of `write` carries the tag first. -/
theorem atomCall_tags {a : AtomWrite} {c : WriteCall} (h : atomCall key room memoryType a = .ok c) :
    ∃ tags, Dict.get c.metadata "tags" = .arr (.str (sourceTag key) :: tags) := by
  unfold atomCall at h
  dsimp only at h
  split at h
  · cases h
  · rename_i tags _
    split at h
    · cases h
    · split at h
      · cases h
      · cases h
        exact ⟨tags, by rw [Dict.get_set, if_pos rfl]⟩

/-- The tag cap does not reach the first of the caller's tags. -/
theorem mem_body_tags {p : AgentProfile} {clk : WriteClock} {c : WriteCall} {wing room content target : String} {infer : Bool}
    {tag : String} {tags : List Json} {body : MemoryBody} (hc : Dict.get c.metadata "tags" = .arr (.str tag :: tags))
    (hbody : addMemoryBody d wing room content (payloadMetadata p pr clk c target infer) true c.conversationId = .ok body) :
    Json.str tag ∈ body.tags := by
  obtain ⟨explicit, kept, he, hk, ht⟩ := addMemoryBody_tags hbody
  rw [(get_payloadMetadata p pr clk c target infer).1, hc, listOrEmpty_arr] at he
  cases he
  obtain ⟨seen, hseen, hlen, -⟩ := fromKeys_str d (adapterLabels wing room
    (d.str (((Dict.get (payloadMetadata p pr clk c target infer) "agent").orElse
      (Dict.get (payloadMetadata p pr clk c target infer) "agent_profile")).orElse (.str "unknown")))
    (d.str ((Dict.get (payloadMetadata p pr clk c target infer) "memory_type").orElse (.str "observation")))
    (d.str ((Dict.get (payloadMetadata p pr clk c target infer) "tenant_id").orElse (.str d.defaultTenantId)))) []
  rw [ht]
  apply (str_mem_take_fromKeys_iff hk).2
  refine .inr ⟨_, tags, seen, rfl, hseen, ?_⟩
  simp only [adapterLabels, List.length_cons, List.length_nil] at hlen
  simp only [maxTagsPerMemory]
  omega

theorem toOption_eq_some {ε α : Type} {x : Except ε α} {a : α} : x.toOption = some a ↔ x = .ok a := by
  cases x <;> simp [Except.toOption]

/-- **What an atom is stored as** has the tag of the source. -/
theorem storedRow_tags {p : AgentProfile} {r : AtomReplies} {a : AtomWrite} {n : WriteCount} {x : StoreRow}
    (hkey : isSha256Hex key = true) (h : storedRow d api p pr r key room memoryType a n = some x) : sourceTag key ∈ x.tags := by
  unfold storedRow at h
  simp only [Option.bind_eq_bind, Option.bind_eq_some_iff, toOption_eq_some] at h
  obtain ⟨c, hc, infer, -, -, -, target, -, h⟩ := h
  split at h
  · cases h
  · obtain ⟨body, hbody, h⟩ := Option.bind_eq_some_iff.1 h
    simp only [preparedRow] at hbody
    split at h
    · cases h
      obtain ⟨tags, htags⟩ := atomCall_tags hc
      rw [toOption_eq_some] at hbody
      exact mem_storedTags_source hkey (mem_body_tags htags hbody)
    · cases h

theorem storedBy_tags (hkey : isSha256Hex key = true) (d : Deployment) (api : StoreApi) (p : WriteProfile) (pr : Principal)
    (sink : AuditSink) (r : Nat → AtomReplies) (room memoryType : String) (k : Nat) (as : List AtomWrite) (s : ClientState) :
    ∀ x ∈ storedBy d api p pr sink r key room memoryType k as s, sourceTag key ∈ x.tags := by
  induction as generalizing k s with
  | nil => simp [storedBy]
  | cons a as ih =>
    intro x hx
    simp only [storedBy, List.mem_append, Option.mem_toList] at hx
    rcases hx with hx | hx
    · exact storedRow_tags hkey hx
    · split at hx
      · cases hx
      · exact ih (k + 1) _ x hx

/-- What a search for a source finds are rows of the source. -/
theorem findSource_mem {st : Store} {fault : Option ClientErr} {hashes : List String} {h : String}
    (hfind : findSource d st key tenantId fault = .ok hashes) (hh : h ∈ hashes) : ∃ x ∈ st.ofSource key, x.contentHash = h := by
  unfold findSource at hfind
  split at hfind
  · cases hfind
  · have hok := mapError_ok hfind
    unfold sourceVersions findActiveHashesByTag at hok
    split at hok
    · cases hok
    · cases hok
      rw [List.mem_eraseDups, List.mem_map] at hh
      obtain ⟨x, hx, rfl⟩ := hh
      obtain ⟨hx, htags⟩ := List.mem_filter.1 hx
      refine ⟨x, Store.mem_ofSource.2 ⟨(List.mem_filter.1 (List.mem_of_mem_take hx)).1, ?_⟩, rfl⟩
      simpa using List.all_eq_true.1 htags _ (mem_markerTags (sourceTag key) tenantId)

/-! ## When the rows of the source come out as they were -/

/-- The checks before the loop of deletes; the value is the tenant and the rows found. -/
def checksBeforeDelete (d : Deployment) (lower : String → String) (p : AgentProfile) (pr : Principal) (r : ReplaceReplies)
    (key : String) (atoms : List AtomWrite) (s : ClientState) : Except ClientErr (String × List String) := do
  let _ ← (replaceGate d lower p pr r key atoms).mapError .py
  (checkWriteQuota p (s.count.at' r.preflight) atoms.length).mapError .py
  (sourceGate p pr r.deleteTtl (restrictedMessage d p "delete_prior_source_versions") key).mapError .py
  priorVersions d p pr r key s

/-- What the loop of deletes starts from. -/
def quotaChecked (p : AgentProfile) (r : ReplaceReplies) (s : ClientState) : ClientState :=
  { s with count := s.count.enforced p r.deleteQuota }

@[simp] theorem quotaChecked_store (p : AgentProfile) (r : ReplaceReplies) (s : ClientState) :
    (quotaChecked p r s).store = s.store := rfl

inductive KeepsPrior (d : Deployment) (api : StoreApi) (lower : String → String) (p : WriteProfile) (pr : Principal)
    (sink : AuditSink) (r : ReplaceReplies) (key room memoryType : String) (atoms : List AtomWrite) (s : ClientState) : Prop
  | checks {e : ClientErr} (h : checksBeforeDelete d lower p.toAgentProfile pr r key atoms s = .error e)
  | deletes {tenantId : String} {candidates : List String} {e : ClientErr}
      (h : checksBeforeDelete d lower p.toAgentProfile pr r key atoms s = .ok (tenantId, candidates))
      (raised : (deletePriorSourceVersions d p.toAgentProfile pr sink r key none s).2 = .error e)
      (none' : takenBy d p.toAgentProfile pr sink r.candidate tenantId key 0 candidates (quotaChecked p.toAgentProfile r s) = [])
  | writes {tenantId : String} {candidates deleted : List String} {s₁ : ClientState}
      (h : checksBeforeDelete d lower p.toAgentProfile pr r key atoms s = .ok (tenantId, candidates))
      (done : deletePriorSourceVersions d p.toAgentProfile pr sink r key none s = (s₁, .ok deleted))
      (same : ∀ x, (x ∈ s.store.rows ∧
          x.contentHash ∈ takenBy d p.toAgentProfile pr sink r.candidate tenantId key 0 candidates
            (quotaChecked p.toAgentProfile r s)) ↔
        x ∈ s₁.store.fresh (storedBy d api p pr sink r.atom key room memoryType 0 atoms s₁))

/-- What the checks have settled. -/
theorem checksBeforeDelete_ok {p : AgentProfile} {candidates : List String}
    (h : checksBeforeDelete d lower p pr r key atoms s = .ok (tenantId, candidates)) :
    isSha256Hex key = true ∧ sourceGate p pr r.deleteTtl (restrictedMessage d p "delete_prior_source_versions") key = .ok () ∧
      priorVersions d p pr r key s = .ok (tenantId, candidates) ∧
      ∀ c ∈ candidates, ∃ x ∈ s.store.ofSource key, x.contentHash = c := by
  unfold checksBeforeDelete at h
  obtain ⟨t, -, h⟩ := bind_ok h
  obtain ⟨⟨⟩, -, h⟩ := bind_ok h
  obtain ⟨⟨⟩, hgate, h⟩ := bind_ok h
  have hgate := mapError_ok hgate
  refine ⟨?_, hgate, h, ?_⟩
  · unfold sourceGate at hgate
    obtain ⟨⟨⟩, -, hgate⟩ := bind_ok hgate
    obtain ⟨⟨⟩, -, hgate⟩ := bind_ok hgate
    split at hgate
    · cases hgate
    · split at hgate
      · cases hgate
      · rename_i hhex
        simpa using hhex
  · unfold priorVersions at h
    obtain ⟨⟨⟩, -, h⟩ := bind_ok h
    obtain ⟨tenant, -, h⟩ := bind_ok h
    obtain ⟨found, hfind, h⟩ := bind_ok h
    cases h
    intro c hc
    exact findSource_mem hfind hc

/-- Past the checks, `delete_prior_source_versions` leaves the store its loop leaves. -/
theorem deletePrior_store {p : AgentProfile} {candidates : List String} (sink : AuditSink)
    (h : checksBeforeDelete d lower p pr r key atoms s = .ok (tenantId, candidates)) :
    (deletePriorSourceVersions d p pr sink r key none s).1.store =
      (deleteCandidates d p pr sink r.candidate tenantId key none 0 candidates (quotaChecked p r s)).1.store := by
  obtain ⟨-, hgate, hprior, -⟩ := checksBeforeDelete_ok h
  simp only [deletePriorSourceVersions, hgate, hprior, quotaChecked]
  cases deleteCandidates d p pr sink r.candidate tenantId key none 0 candidates
      { s with count := s.count.enforced p r.deleteQuota } with
  | mk s₁ out =>
    cases out with
    | error e => rfl
    | ok deleted =>
      simp only
      split <;> rfl

/-- Before it, the store stays as it is. -/
theorem deletePrior_unchecked {p : AgentProfile} {t : String} {e : ClientErr} (sink : AuditSink)
    (hgate : replaceGate d lower p pr r key atoms = .ok t)
    (hquota : checkWriteQuota p (s.count.at' r.preflight) atoms.length = .ok ())
    (h : checksBeforeDelete d lower p pr r key atoms s = .error e) :
    (deletePriorSourceVersions d p pr sink r key none s).1.store = s.store ∧
      ∃ e', (deletePriorSourceVersions d p pr sink r key none s).2 = .error e' := by
  simp only [checksBeforeDelete, hgate, hquota, mapError_of_ok, ok_then] at h
  unfold deletePriorSourceVersions
  cases hsource : sourceGate p pr r.deleteTtl (restrictedMessage d p "delete_prior_source_versions") key with
  | error e' => exact ⟨rfl, _, rfl⟩
  | ok _ =>
    simp only [hsource, mapError_of_ok, ok_then] at h
    simp only [h]
    exact ⟨trivial, e, rfl⟩

/-- Rows of the source were taken, others with its tag stored: the source has the rows it had, exactly if these are those. -/
theorem ofSource_same_iff {st st₁ : Store} {taken : List String} (stored : List StoreRow)
    (htaken : ∀ h ∈ taken, ∃ x ∈ st.ofSource key, x.contentHash = h)
    (hrows : ∀ x, x ∈ st₁.rows ↔ x ∈ st.rows ∧ x.contentHash ∉ taken) (htags : ∀ x ∈ stored, sourceTag key ∈ x.tags) :
    (∀ x, x ∈ (stored.foldl Store.insert st₁).ofSource key ↔ x ∈ st.ofSource key) ↔
      ∀ x, (x ∈ st.rows ∧ x.contentHash ∈ taken) ↔ x ∈ st₁.fresh stored := by
  have hafter : ∀ x, x ∈ (stored.foldl Store.insert st₁).ofSource key ↔
      (x ∈ st.ofSource key ∧ x.contentHash ∉ taken) ∨ x ∈ st₁.fresh stored := by
    intro x
    rw [Store.mem_ofSource, Store.mem_ofSource, Store.rows_foldl_insert, List.mem_append, hrows]
    have := htags x
    have hsub := st₁.fresh_subset stored (a := x)
    tauto
  constructor
  · intro hsame x
    constructor
    · rintro ⟨hx, ht⟩
      obtain ⟨y, hy, he⟩ := htaken _ ht
      obtain rfl := Store.eq_of_hash (Store.mem_ofSource.1 hy).1 hx he
      rcases (hafter y).1 ((hsame y).2 hy) with ⟨-, hnot⟩ | hfresh
      · exact absurd ht hnot
      · exact hfresh
    · intro hfresh
      have hx := (Store.mem_ofSource.1 ((hsame x).1 ((hafter x).2 (.inr hfresh)))).1
      by_contra hnot
      exact Store.fresh_not_mem hfresh ((hrows x).2 ⟨hx, fun ht => hnot ⟨hx, ht⟩⟩)
  · intro h x
    rw [hafter]
    constructor
    · rintro (⟨hx, -⟩ | hfresh)
      · exact hx
      · exact Store.mem_ofSource.2 ⟨((h x).2 hfresh).1, htags x (st₁.fresh_subset stored hfresh)⟩
    · intro hx
      by_cases ht : x.contentHash ∈ taken
      · exact .inr ((h x).1 ⟨(Store.mem_ofSource.1 hx).1, ht⟩)
      · exact .inl ⟨hx, ht⟩

/-- Past the checks, the replacement leaves the store its writes leave, as far as it came. -/
theorem rewriteSet_store :
    (rewriteSet d api lower p pr sink r key tenantId room memoryType atoms s).1.store =
      match deletePriorSourceVersions d p.toAgentProfile pr sink r key none s with
      | (s₁, .error _) => s₁.store
      | (s₁, .ok _) => (storedBy d api p pr sink r.atom key room memoryType 0 atoms s₁).foldl Store.insert s₁.store := by
  unfold rewriteSet
  cases deletePriorSourceVersions d p.toAgentProfile pr sink r key none s with
  | mk s₁ out =>
    cases out with
    | error e => rfl
    | ok deleted =>
      simp only
      rw [← writeAtoms_store]
      cases writeAtoms d api p pr sink r.atom key room memoryType 0 atoms s₁ with
      | mk s₂ out =>
        cases out with
        | error e => rfl
        | ok _ =>
          simp only
          split
          · rfl
          · split <;> rfl

/-- What a call that raises has got to. -/
theorem replace_error {e : WriteErr} {s' : ClientState}
    (h : replaceSourceAtomSet d api lower p pr sink r key room memoryType atoms s = (s', .error e)) :
    (s' = s ∧ ∃ e, checksBeforeDelete d lower p.toAgentProfile pr r key atoms s = .error e) ∨
      ∃ t, replaceGate d lower p.toAgentProfile pr r key atoms = .ok t ∧
        checkWriteQuota p.toAgentProfile (s.count.at' r.preflight) atoms.length = .ok () ∧
        s' = (rewriteSet d api lower p pr sink r key t room memoryType atoms s).1 := by
  unfold replaceSourceAtomSet at h
  cases hgate : replaceGate d lower p.toAgentProfile pr r key atoms with
  | error e' =>
    simp only [hgate] at h
    cases h
    refine .inl ⟨rfl, .py e', ?_⟩
    simp only [checksBeforeDelete, hgate, mapError_of_error, error_then]
  | ok t =>
    simp only [hgate] at h
    split at h
    · cases h
    · cases hquota : checkWriteQuota p.toAgentProfile (s.count.at' r.preflight) atoms.length with
      | error e' =>
        simp only [hquota] at h
        cases h
        refine .inl ⟨rfl, .py e', ?_⟩
        simp only [checksBeforeDelete, hgate, hquota, mapError_of_ok, mapError_of_error, ok_then, error_then]
      | ok _ =>
        simp only [hquota] at h
        exact .inr ⟨t, rfl, rfl, by rw [h]⟩

def syncProfile : WriteProfile := { notesProfile with name := "cc-sync", quotaCountsDedup := false }

def sampleKey : String := "00112233445566778899aabbccddeeff00112233445566778899aabbccddeeff"

/-- Every request is answered, and the clock stands still. -/
def answeredReplies : ReplaceReplies where
  ttl := 0
  scope := 0
  firstFind := none
  preflight := 0
  deleteTtl := 0
  deleteQuota := 0
  deleteScope := 0
  priorFind := none
  candidate := fun _ => ⟨0, none, .answered, 0, "2026-07-10T00:00:00Z"⟩
  remainingFind := none
  atom := fun _ =>
    { quietClock with scope := 0, requested := 0, audit := 0, quota := 0, recorded := 0, createdAt := "2026-07-10T00:00:00Z"
                      tsIso := "2026-07-10T00:00:00Z", enqueueFault := none, post := .answered true }
  lastFind := none

/-- A version of the source. -/
def priorRow : StoreRow where
  contentHash := "sha256:green tea"
  hashed := by decide
  content := "green tea"
  tags := ["permanent", "status:active", "wing:notes", "room:inbox", "agent:cc-sync", "mtype:note", "tenant:t_default",
    sourceTag sampleKey]
  memoryType := "note"
  metadata := [("tenant_id", .str "t_default")]
  writtenFor := none

def priorState : ClientState := ⟨Store.single priorRow, .empty, ⟨0, []⟩⟩

/-- The replacement by one atom, of a type. -/
def sampleReplacement (memoryType : String) : ClientState × Except WriteErr AtomSetResult :=
  replaceSourceAtomSet plainDeployment sampleStoreApi id syncProfile notesAgent (fun _ => .ok ()) answeredReplies sampleKey "inbox"
    memoryType [⟨"black tea", []⟩] priorState

theorem sampleReplacement_eq (memoryType : String) :
    sampleReplacement memoryType = rewriteSet plainDeployment sampleStoreApi id syncProfile notesAgent (fun _ => .ok ())
      answeredReplies sampleKey "t_default" "inbox" memoryType [⟨"black tea", []⟩] priorState := by
  have hgate : replaceGate plainDeployment id syncProfile.toAgentProfile notesAgent answeredReplies sampleKey
      [⟨"black tea", []⟩] = .ok "t_default" := by
    rfl
  have hchanged : unchangedSet plainDeployment id answeredReplies sampleKey "t_default" [⟨"black tea", []⟩]
      priorState.store = false := by
    decide +kernel
  have hquota : checkWriteQuota syncProfile.toAgentProfile (priorState.count.at' answeredReplies.preflight) 1 = .ok () := by
    rfl
  unfold sampleReplacement replaceSourceAtomSet
  rw [hgate]
  simp only [hchanged, Bool.false_eq_true, if_false, List.length_cons, List.length_nil, Nat.zero_add, hquota]

/-- The version is gone when the atom is refused. -/
theorem sampleReplacement_refused :
    sampleReplacement "diary" =
      (⟨.empty, Outbox.empty.appendHistory (replacedHistory notesAgent "t_default" "sha256:green tea"), ⟨0, []⟩⟩,
        .error (.client (.py (.valueError "memory_type not allowed for cc-sync: diary")))) := by
  have hdelete : deletePriorSourceVersions plainDeployment syncProfile.toAgentProfile notesAgent (fun _ => .ok ())
      answeredReplies sampleKey none priorState =
        (⟨.empty, Outbox.empty.appendHistory (replacedHistory notesAgent "t_default" "sha256:green tea"), ⟨0, []⟩⟩,
          .ok ["sha256:green tea"]) := by
    rfl
  rw [sampleReplacement_eq]
  unfold rewriteSet
  rw [hdelete]
  rfl

end Panella
