import Panella.Mutations
import Panella.SourceKeys
import Panella.WriteMemory

/-!
# `replace_source_atom_set` (`panella/client.py:493-680`)

| here | there |
| --- | --- |
| `findSource` | the calls of `find_active_hashes_by_tag`, which may fail |
| `storedContentHash` | `stored_content_hash` (`sanitize.py` :183-196) |
| `checkWriteQuota` | `check_write_quota` (`client.py` :902-930) |
| `deleteCandidate`, `deleteCandidates`, `deletePriorSourceVersions` | `delete_prior_source_versions`, its loop body and its loop |
| `atomCall`, `writeAtoms` | step 4 of `replace_source_atom_set` |
| `replaceSourceAtomSet` | `replace_source_atom_set` |

The store is the one of `Panella.Store`. Each request has its own fault or reply, and each look at the clock its own reading;
those of the loops are given by position.
-/

namespace Panella

open PyJson

/-! ## What is asked for and what it meets -/

structure AtomWrite where
  content : String
  metadata : Dict

structure AtomSetResult where
  status : String
  deleted : Nat
  written : Nat
deriving DecidableEq

/-- What a turn of the loop of deletes meets: `_tenant_ids`, the GET of the ownership check, the DELETE, the audit. -/
structure CandidateReplies where
  scope : Instant
  owned : Option ClientErr
  delete : DeleteReply
  audit : Instant
  tsIso : String

/-- What the write of an atom meets. -/
structure AtomReplies extends WriteReadings where
  enqueueFault : Option ClientErr
  post : PostReply

/-- What a call meets, in its order. -/
structure ReplaceReplies where
  ttl : Instant
  scope : Instant
  firstFind : Option ClientErr
  preflight : Rat
  deleteTtl : Instant
  deleteQuota : Rat
  deleteScope : Instant
  priorFind : Option ClientErr
  candidate : Nat → CandidateReplies
  remainingFind : Option ClientErr
  atom : Nat → AtomReplies
  lastFind : Option ClientErr

/-! ## The adapter -/

/-- The row under a hash, as `GET /api/memories/{hash}` returns it. -/
def Store.live (st : Store) : RowStore := fun h =>
  (st.rows.find? fun r => r.contentHash = h).map fun r => { toRawHit := r.raw, createdAt := .null, createdAtIso := .null }

/-- The rows of a source, or what the search raises. -/
def findSource (d : Deployment) (st : Store) (key tenantId : String) (fault : Option ClientErr) : Except ClientErr (List String) :=
  match fault with
  | some e => .error e
  | none => (sourceVersions d st key tenantId).mapError .py

/-- `generate_content_hash` of the store: `sha256(content.strip().lower())`. -/
def normalizedHash (lower : String → String) (content : String) : String :=
  Sha256.hexdigest (Sha256.utf8 (lower (PyText.stripSpace content)))

/-- `stored_content_hash`. -/
def storedContentHash (d : Deployment) (lower : String → String) (content : String) : String :=
  normalizedHash lower (d.sanitize content)

/-! ## The quota -/

/-- `check_write_quota(n)`. -/
def checkWriteQuota (p : AgentProfile) (q : QuotaState) (n : Nat) : Except PyErr Unit :=
  if n = 0 then .ok ()
  else if q.writesToday + n > p.writeQuota.dailyMaxDrawers then
    .error (.quotaExceeded (p.name ++ " daily memory write quota: " ++ toString q.writesToday ++ "+" ++ toString n ++ " > " ++
      toString p.writeQuota.dailyMaxDrawers))
  else
    let recent := q.writeTimestamps.filter fun ts => q.now - ts < 60
    if (recent.length : Int) + n > p.writeQuota.burstMaxPerMinute then
      .error (.quotaExceeded (p.name ++ " burst memory write quota: " ++ toString recent.length ++ "+" ++ toString n ++ " > " ++
        toString p.writeQuota.burstMaxPerMinute))
    else .ok ()

/-! ## Deleting the prior set -/

/-- `_write_tenant_id`. -/
def writeTenantId (d : Deployment) (p : AgentProfile) (pr : Principal) (now : Instant) : Except PyErr String := do
  let ids ← tenantIds p pr now
  .ok (if "*" ∈ ids then d.defaultTenantId else ids.headD "")

/-- The checks both functions begin with. -/
def sourceGate (p : AgentProfile) (pr : Principal) (now : Instant) (restricted key : String) : Except PyErr Unit := do
  pr.requireScope "memory.write"
  pr.requireActiveBreakGlass now
  if p.name ≠ "cc-sync" then .error (.permissionError restricted)
  else if !isSha256Hex key then .error (.valueError "source_artifact_key must be a sha256 hex digest")
  else .ok ()

def restrictedMessage (d : Deployment) (p : AgentProfile) (op : String) : String :=
  op ++ " is restricted to the cc-sync profile; profile=" ++ d.repr (.str p.name) ++ " rejected"

/-- The details of the audit row of a replaced version. -/
def replacedDetails (key : String) : Dict :=
  [("reason", .str "cc_sync_source_version_replace"), ("source_artifact_key", .str key)]

theorem wf_replacedDetails (key : String) : WF (.obj (replacedDetails key)) :=
  wf_obj_iff.2 ⟨by simp only [replacedDetails, List.map_cons, List.map_nil]; decide, by simp [replacedDetails, WF]⟩

/-- The row of `memory_history` of a replaced version. -/
def replacedHistory (pr : Principal) (tenantId contentHash : String) : HistoryRow :=
  { op := "cc_sync_source_replace_delete", drawerId := contentHash, tenantId, principalId := some pr.id, wing := none
    room := none, reason := some "cc-sync oversize source-version replace", detailsJson := none }

/-- One turn of the loop; `true` is a deleted version. -/
def deleteCandidate (d : Deployment) (p : AgentProfile) (pr : Principal) (sink : AuditSink) (r : CandidateReplies)
    (tenantId key contentHash : String) (s : ClientState) : ClientState × Except ClientErr Bool :=
  match requireMutationTargetOwned d p pr r.scope (s.store.live.reply r.owned contentHash) contentHash with
  | .error e => (s, .error e)
  | .ok false => (s, .ok false)
  | .ok true =>
    let out := s.store.delete contentHash r.delete
    let s := { s with store := out.1 }
    match out.2 with
    | .error e => (s, .error (.py e))
    | .ok false => (s, .ok false)
    | .ok true =>
      match auditIfCrossTenant sink pr r.audit
          (crossTenantWrite pr r.tsIso "hard_delete" tenantId (some contentHash) (replacedDetails key) (wf_replacedDetails key)) with
      | .error e => (s, .error e)
      | .ok _ => ({ s with outbox := s.outbox.appendHistory (replacedHistory pr tenantId contentHash) }, .ok true)

/-- The loop, from its position; the value is `deleted`. -/
def deleteCandidates (d : Deployment) (p : AgentProfile) (pr : Principal) (sink : AuditSink) (r : Nat → CandidateReplies)
    (tenantId key : String) (keep : Option String) :
    Nat → List String → ClientState → ClientState × Except ClientErr (List String)
  | _, [], s => (s, .ok [])
  | k, h :: hs, s =>
    if keep.any fun kept => kept ≠ "" ∧ h = kept then deleteCandidates d p pr sink r tenantId key keep (k + 1) hs s
    else
      match deleteCandidate d p pr sink (r k) tenantId key h s with
      | (s, .error e) => (s, .error e)
      | (s, .ok gone) =>
        match deleteCandidates d p pr sink r tenantId key keep (k + 1) hs s with
        | (s, .error e) => (s, .error e)
        | (s, .ok deleted) => (s, .ok (if gone then h :: deleted else deleted))

/-- The quota, the tenant and the search of `delete_prior_source_versions`. -/
def priorVersions (d : Deployment) (p : AgentProfile) (pr : Principal) (r : ReplaceReplies) (key : String) (s : ClientState) :
    Except ClientErr (String × List String) := do
  (enforceWriteQuota p (s.count.at' r.deleteQuota)).mapError .py
  let tenantId ← (writeTenantId d p pr r.deleteScope).mapError .py
  let candidates ← findSource d s.store key tenantId r.priorFind
  .ok (tenantId, candidates)

/-- The search after the loop. -/
def checkRemaining (d : Deployment) (r : ReplaceReplies) (tenantId key : String) (keep : Option String) (st : Store) :
    Except ClientErr Unit := do
  let found ← findSource d st key tenantId r.remainingFind
  let remaining := found.filter fun h => some h ≠ keep
  if remaining = [] then .ok ()
  else
    .error (.py (.runtimeError ("delete_prior_source_versions: " ++ toString remaining.length ++
      " prior version(s) still active after delete for source_artifact_key=" ++ key ++ ": " ++
      d.repr (.arr (remaining.map .str)) ++ "; refusing to leave a conflict-detection near-duplicate")))

/-- `delete_prior_source_versions`. -/
def deletePriorSourceVersions (d : Deployment) (p : AgentProfile) (pr : Principal) (sink : AuditSink) (r : ReplaceReplies)
    (key : String) (keep : Option String) (s : ClientState) : ClientState × Except ClientErr (List String) :=
  match sourceGate p pr r.deleteTtl (restrictedMessage d p "delete_prior_source_versions") key with
  | .error e => (s, .error (.py e))
  | .ok () =>
    let counted := { s with count := s.count.enforced p r.deleteQuota }
    match priorVersions d p pr r key s with
    | .error e => (counted, .error e)
    | .ok (tenantId, candidates) =>
      match deleteCandidates d p pr sink r.candidate tenantId key keep 0 candidates counted with
      | (s, .error e) => (s, .error e)
      | (s, .ok deleted) =>
        match checkRemaining d r tenantId key keep s.store with
        | .error e => (s, .error e)
        | .ok () => (s, .ok deleted)

/-! ## Writing the atoms -/

/-- The call of `write` for an atom: the keyword arguments with the grouping tag in front of the atom's tags. -/
def atomCall (key room memoryType : String) (a : AtomWrite) : Except PyErr WriteCall :=
  let metadata := a.metadata.filter fun kv => kv.1 ≠ "room" ∧ kv.1 ≠ "memory_type"
  match listOrEmpty (Dict.get metadata "tags") with
  | .error e => .error e
  | .ok tags =>
    let metadata := Dict.set metadata "tags" (.arr (.str (sourceTag key) :: tags))
    match metadata.find? fun kv => kv.1 = "content" ∨ kv.1 = "conversation_id" with
    | some kv =>
      .error (.typeError ("panella.client.MemoryClient.write() got multiple values for keyword argument '" ++ kv.1 ++ "'"))
    | none =>
      if Dict.has metadata "self" then .error (.typeError "MemoryClient.write() got multiple values for argument 'self'")
      else .ok { content := a.content, room, memoryType, conversationId := some ("cc-sync:" ++ key), metadata }

/-- The write of one atom. -/
def writeAtom (d : Deployment) (api : StoreApi) (p : WriteProfile) (pr : Principal) (sink : AuditSink) (r : AtomReplies)
    (key room memoryType : String) (a : AtomWrite) (s : ClientState) : ClientState × Except WriteErr Unit :=
  match atomCall key room memoryType a with
  | .error e => (s, .error (.client (.py e)))
  | .ok c =>
    let out := writeMemory d p pr sink r.toWriteReadings ⟨r.enqueueFault, fun st body => st.post api body none r.post⟩ c s
    (out.1, out.2.map fun _ => ())

/-- The loop over the atoms, from its position. -/
def writeAtoms (d : Deployment) (api : StoreApi) (p : WriteProfile) (pr : Principal) (sink : AuditSink) (r : Nat → AtomReplies)
    (key room memoryType : String) : Nat → List AtomWrite → ClientState → ClientState × Except WriteErr Unit
  | _, [], s => (s, .ok ())
  | k, a :: atoms, s =>
    match writeAtom d api p pr sink (r k) key room memoryType a s with
    | (s, .error e) => (s, .error e)
    | (s, .ok ()) => writeAtoms d api p pr sink r key room memoryType (k + 1) atoms s

/-! ## The replacement -/

/-- `{stored_content_hash(atom.content) for atom in atoms}`. -/
def expectedHashes (d : Deployment) (lower : String → String) (atoms : List AtomWrite) : List String :=
  (atoms.map fun a => storedContentHash d lower a.content).dedup

/-- `a == b`, of two sets. -/
def sameSet (a b : List String) : Bool := a.all b.contains && b.all a.contains

/-- The checks of the arguments; the value is the tenant. -/
def replaceGate (d : Deployment) (lower : String → String) (p : AgentProfile) (pr : Principal) (r : ReplaceReplies)
    (key : String) (atoms : List AtomWrite) : Except PyErr String := do
  sourceGate p pr r.ttl (restrictedMessage d p "replace_source_atom_set") key
  if atoms = [] then .error (.valueError "replace_source_atom_set requires a non-empty atom set")
  else
    let tenantId ← writeTenantId d p pr r.scope
    let expected := expectedHashes d lower atoms
    if expected.length ≥ findActiveHashesLimit then
      .error (.runtimeError ("replace_source_atom_set: atom set for source_artifact_key=" ++ key ++ " has " ++
        toString expected.length ++ " distinct atoms, at/above the " ++ toString findActiveHashesLimit ++
        "-row tag-lookup cap; refusing to write an un-enumerable set (split the source file)"))
    else .ok tenantId

/-- Step 1: the active set is read and is the expected one. -/
def unchangedSet (d : Deployment) (lower : String → String) (r : ReplaceReplies) (key tenantId : String)
    (atoms : List AtomWrite) (st : Store) : Bool :=
  match findSource d st key tenantId r.firstFind with
  | .error _ => false
  | .ok active => sameSet active (expectedHashes d lower atoms)

/-- Steps 3 to 5. -/
def rewriteSet (d : Deployment) (api : StoreApi) (lower : String → String) (p : WriteProfile) (pr : Principal) (sink : AuditSink)
    (r : ReplaceReplies) (key tenantId room memoryType : String) (atoms : List AtomWrite) (s : ClientState) :
    ClientState × Except WriteErr AtomSetResult :=
  match deletePriorSourceVersions d p.toAgentProfile pr sink r key none s with
  | (s, .error e) => (s, .error (.client e))
  | (s, .ok deleted) =>
    match writeAtoms d api p pr sink r.atom key room memoryType 0 atoms s with
    | (s, .error e) => (s, .error e)
    | (s, .ok ()) =>
      match findSource d s.store key tenantId r.lastFind with
      | .error e => (s, .error (.client e))
      | .ok finalActive =>
        if sameSet finalActive (expectedHashes d lower atoms) then (s, .ok ⟨"written", deleted.length, atoms.length⟩)
        else
          (s, .error (.client (.py (.runtimeError ("replace_source_atom_set verify failed for source_artifact_key=" ++ key ++
            ": active set (" ++ toString finalActive.dedup.length ++ ") != expected (" ++
            toString (expectedHashes d lower atoms).length ++ "); next sync re-detects A != E and rewrites")))))

/-- `replace_source_atom_set`. -/
def replaceSourceAtomSet (d : Deployment) (api : StoreApi) (lower : String → String) (p : WriteProfile) (pr : Principal)
    (sink : AuditSink) (r : ReplaceReplies) (key room memoryType : String) (atoms : List AtomWrite) (s : ClientState) :
    ClientState × Except WriteErr AtomSetResult :=
  match replaceGate d lower p.toAgentProfile pr r key atoms with
  | .error e => (s, .error (.client (.py e)))
  | .ok tenantId =>
    if unchangedSet d lower r key tenantId atoms s.store then (s, .ok ⟨"unchanged", 0, 0⟩)
    else
      match checkWriteQuota p.toAgentProfile (s.count.at' r.preflight) atoms.length with
      | .error e => (s, .error (.client (.py e)))
      | .ok () => rewriteSet d api lower p pr sink r key tenantId room memoryType atoms s

end Panella
