import Panella.Lib.KeepFirst
import Panella.Lib.Machine
import Panella.Mutations
import Panella.Payload

/-!
# The lifecycle of one row (`_tag_transition`, `tombstone`, `supersede`, `ensure_tag`)

A run is a list of calls on one row, each with what happens around its requests, and of writes of others between them.
The lock keeps two calls apart. Others change metadata only, before a call or between its GET and its PUT.

The PUT sends a delta that the store merges into the row as it is then, so that a "concurrent metadata write … is not
clobbered by our possibly-stale GET" (`_tag_transition`'s docstring). The `valid_to` of `supersede` is the exception: the
delta has the value of the GET, and where another writer has set one since, the PUT takes it away. `lifecycle_monotone_iff`
says that this is all that can go wrong, `racing_supersede` is a run where it does.
-/

namespace Panella

open PyJson Machine KeepFirst

/-! ## Calls and runs -/

inductive LifecycleCall
  | tombstone (reason principalId : String)
  | supersede (reason : String) (supersededBy : Option String)
  | ensureTag (tag : String)

def LifecycleCall.transition : LifecycleCall → TagTransition
  | .tombstone reason principalId => tombstoneTransition reason principalId
  | .supersede reason supersededBy => supersedeTransition reason supersededBy
  | .ensureTag tag => ensureTagTransition tag

/-- The status a call writes into the metadata. -/
def LifecycleCall.status : LifecycleCall → Option String
  | .tombstone .. => some "tombstoned"
  | .supersede .. => some "superseded"
  | .ensureTag _ => none

inductive LifecycleEvent
  /-- The ownership check is the client's and plays no part here. -/
  | call (c : LifecycleCall) (replies : MutationReplies)
  /-- Others write while no call is under way. -/
  | write (f : RowStore → RowStore)

section
variable (d : Deployment) (id : String)

def LifecycleCall.run (c : LifecycleCall) (replies : MutationReplies) (st : RowStore) : RowStore × Except ClientErr Bool :=
  transitionCall d c.transition id replies st

def lifecycleStep (st : RowStore) : LifecycleEvent → RowStore
  | .call c replies => (c.run d id replies st).1
  | .write f => f st

/-- Others change the metadata of the row, not its tags, and neither make nor delete it. -/
def MetadataOnly (f : RowStore → RowStore) : Prop := ∀ st, (f st id).map (·.tags) = (st id).map (·.tags)

def LifecycleEvent.MetadataOnly : LifecycleEvent → Prop
  | .call _ replies => Panella.MetadataOnly id replies.first.others ∧ Panella.MetadataOnly id replies.second.others
  | .write f => Panella.MetadataOnly id f

/-! ## The attempts of a call -/

/-- The attempts a call makes, each with the rows its GET finds. -/
def attemptsMade (tr : TagTransition) : List AttemptReplies → RowStore → List (RowStore × AttemptReplies)
  | [], _ => []
  | replies :: rest, st =>
    (st, replies) ::
      match attempt d tr id replies st with
      | (st', .again) => attemptsMade tr rest st'
      | _ => []

def LifecycleCall.attempts (c : LifecycleCall) (replies : MutationReplies) (st : RowStore) :
    List (RowStore × AttemptReplies) :=
  match replies.lock with
  | some _ => []
  | none => attemptsMade d id c.transition [replies.first, replies.second] st

/-- The row at the last GET. -/
def LifecycleCall.lastGet (c : LifecycleCall) (replies : MutationReplies) (st : RowStore) : Option LiveRow :=
  (c.attempts d id replies st).getLast?.bind fun a => a.1 id

/-- The tags an attempt keeps. -/
def TagTransition.kept (tr : TagTransition) (tags : List Json) : List Json :=
  tags.filter fun t => !tr.dropTags.any fun s => d.tagEq t (.str s)

/-- `new_tags`. -/
def TagTransition.newTags (tr : TagTransition) (tags : List Json) : Except PyErr (List Json) :=
  d.fromKeys [] (tr.kept d tags ++ tr.addTags.map .str)

/-- The row as the GET of an attempt returned it and as its PUT finds it, where the attempt gets that far. -/
def seen (tr : TagTransition) (a : RowStore × AttemptReplies) : Option (LiveRow × LiveRow) :=
  match a.2.get, a.1 id with
  | none, some got =>
    match tr.newTags d got.tags with
    | .ok _ => (a.2.others a.1 id).map (got, ·)
    | .error _ => none
  | _, _ => none

/-- The PUT updates the row. -/
def PutReply.applied : PutReply → Bool
  | .updated | .lost _ => true
  | .unsuccessful | .refused _ => false

def LiveRow.validTo (r : LiveRow) : Json := Dict.get r.metadata "valid_to"
def LiveRow.status (r : LiveRow) : Json := Dict.get r.metadata "status"

/-- **The race**: when a `supersede` updates the row, another writer has left in `valid_to` a value that the GET did not
return. (A value that happens to be the time of the call is written once more.) -/
def RacesValidTo (c : LifecycleCall) (a : RowStore × AttemptReplies) : Prop :=
  (∃ reason supersededBy, c = .supersede reason supersededBy) ∧ a.2.put.applied = true ∧
    ∃ got r, seen d id c.transition a = some (got, r) ∧ r.validTo.truthy = true ∧ r.validTo ≠ got.validTo ∧
      (got.validTo.truthy = false → r.validTo ≠ .str a.2.now.text)

/-- No attempt of the event races with a writer of `valid_to`. -/
def KeepsClear (st : RowStore) : LifecycleEvent → Prop
  | .call c replies => ∀ a ∈ c.attempts d id replies st, ¬ RacesValidTo d id c a
  | .write _ => True

/-! ## What the claims of the docstrings come to -/

/-- Every tag of the last GET is on the row, the dropped one apart. -/
def LeavesTags (c : LifecycleCall) (replies : MutationReplies) (st : RowStore) : Prop :=
  ∃ got r, c.lastGet d id replies st = some got ∧ (c.run d id replies st).1 id = some r ∧
    ∀ t ∈ c.transition.kept d got.tags, d.tagIn r.tags t = true

/-- The row is there and recall leaves it out. -/
def Excluded (st : RowStore) : Prop :=
  ∃ r, st id = some r ∧ hasExcludedRecallStatus (normalizeHit d r.toRawHit) = true

/-- Each PUT leaves a `valid_to` that is set when it finds the row. -/
def LeavesValidTo (c : LifecycleCall) (replies : MutationReplies) (st : RowStore) : Prop :=
  ∀ a ∈ c.attempts d id replies st, ∀ got r, seen d id c.transition a = some (got, r) → r.validTo.truthy = true →
    ∃ r', (attempt d c.transition id a.2 a.1).1 id = some r' ∧ r'.validTo = r.validTo

/-- What a call may not change when it is repeated. -/
def LiveRow.lifecycle (r : LiveRow) : List Json × Json × Json := (r.tags, r.status, r.validTo)

/-- The writers in the window leave `k` of the row as it is. -/
def LeavesKey (k : String) (replies : MutationReplies) : Prop :=
  ∀ f ∈ [replies.first.others, replies.second.others], ∀ st,
    (f st id).map (fun r => Dict.get r.metadata k) = (st id).map fun r => Dict.get r.metadata k

/-- The call leaves the tags of the row as they were, and `status` and `valid_to` where nobody else writes them meanwhile. -/
structure Repeats (c : LifecycleCall) (replies : MutationReplies) (st : RowStore) : Prop where
  tags : ((c.run d id replies st).1 id).map (·.tags) = (st id).map (·.tags)
  status : LeavesKey id "status" replies → ((c.run d id replies st).1 id).map (·.status) = (st id).map (·.status)
  validTo : LeavesKey id "valid_to" replies → ((c.run d id replies st).1 id).map (·.validTo) = (st id).map (·.validTo)

/-- **Lifecycle transitions are monotone** in the run `es` from `st`. -/
structure LifecycleMonotone (st : RowStore) (es : List LifecycleEvent) : Prop where
  tags : ∀ pre c replies post, es = pre ++ .call c replies :: post →
    (c.run d id replies (run (lifecycleStep d id) st pre)).2 = .ok true →
      LeavesTags d id c replies (run (lifecycleStep d id) st pre)
  excluded : ∀ pre c replies mid post, es = pre ++ .call c replies :: (mid ++ post) → c.status.isSome = true →
    (c.run d id replies (run (lifecycleStep d id) st pre)).2 = .ok true →
      Excluded d id (run (lifecycleStep d id) st (pre ++ .call c replies :: mid))
  validTo : ∀ pre reason supersededBy replies post, es = pre ++ .call (.supersede reason supersededBy) replies :: post →
    LeavesValidTo d id (.supersede reason supersededBy) replies (run (lifecycleStep d id) st pre)
  repeated : ∀ pre c replies mid replies' post,
    es = pre ++ .call c replies :: (mid ++ .call c replies' :: post) →
    (c.run d id replies (run (lifecycleStep d id) st pre)).2 = .ok true →
    (run (lifecycleStep d id) st (pre ++ .call c replies :: mid) id).map LiveRow.lifecycle =
      ((c.run d id replies (run (lifecycleStep d id) st pre)).1 id).map LiveRow.lifecycle →
    Repeats d id c replies' (run (lifecycleStep d id) st (pre ++ .call c replies :: mid))

end

variable {d : Deployment} {id : String} {c : LifecycleCall} {tr : TagTransition} {replies : AttemptReplies} {st : RowStore}

/-! ## One attempt -/

theorem MetadataOnly.row {f : RowStore → RowStore} (h : MetadataOnly id f) {got : LiveRow} (hgot : st id = some got) :
    ∃ r, f st id = some r ∧ r.tags = got.tags := by
  have hf := h st
  rw [hgot] at hf
  obtain ⟨r, hr, htags⟩ := Option.map_eq_some_iff.1 hf
  exact ⟨r, hr, htags⟩

/-- The row a PUT leaves. -/
def TagTransition.putRow (tr : TagTransition) (replies : AttemptReplies) (got r : LiveRow) (tags : List Json) : LiveRow :=
  if replies.put.applied then
    { r with tags, metadata := Dict.merge r.metadata (tr.metaDelta replies.now got.metadata) }
  else r

theorem put_row (tags : List Json) (delta : Dict) {r : LiveRow} (hr : st id = some r) (reply : PutReply) :
    (st.put id tags delta reply).1 id =
      some (if reply.applied then { r with tags, metadata := Dict.merge r.metadata delta } else r) := by
  cases reply <;> simp [RowStore.put, RowStore.update, PutReply.applied, hr]

variable (d) (tr) (st) in
/-- **What an attempt does to the row**: nothing, or what its PUT does. -/
theorem attempt_row (hothers : MetadataOnly id replies.others) :
    ((attempt d tr id replies st).1 id = st id ∧ seen d id tr (st, replies) = none ∧
        (attempt d tr id replies st).2 ≠ .landed) ∨
      ∃ got r tags, st id = some got ∧ replies.others st id = some r ∧ r.tags = got.tags ∧
        tr.newTags d got.tags = .ok tags ∧ seen d id tr (st, replies) = some (got, r) ∧
        (attempt d tr id replies st).1 id = some (tr.putRow replies got r tags) := by
  cases hget : replies.get with
  | some e => exact .inl (by simp [attempt, seen, hget])
  | none =>
    cases hgot : st id with
    | none => exact .inl (by simp [attempt, seen, hget, hgot])
    | some got =>
      cases htags : tr.newTags d got.tags with
      | error e =>
        have hseen : seen d id tr (st, replies) = none := by simp [seen, hget, hgot, htags]
        unfold TagTransition.newTags TagTransition.kept at htags
        exact .inl (by simp [attempt, hget, hgot, htags, hseen])
      | ok tags =>
        obtain ⟨r, hr, hrtags⟩ := hothers.row hgot
        refine .inr ⟨got, r, tags, rfl, hr, hrtags, htags, by simp [seen, hget, hgot, htags, hr], ?_⟩
        have hput := put_row tags (tr.metaDelta replies.now got.metadata) hr replies.put
        unfold TagTransition.newTags TagTransition.kept at htags
        unfold TagTransition.putRow
        rw [← hput]
        simp only [attempt, hget, hgot, htags]
        split <;> rename_i hdone <;> first | rfl | (split <;> rfl)

/-- An attempt lands with its PUT applied and verified. -/
theorem attempt_landed (h : (attempt d tr id replies st).2 = .landed) :
    replies.put.applied = true ∧ ∃ got r, st id = some got ∧ (attempt d tr id replies st).1 id = some r ∧
      ∀ t ∈ tr.kept d got.tags, d.tagIn r.tags t = true := by
  cases hget : replies.get with
  | some e => simp [attempt, hget] at h
  | none =>
    cases hgot : st id with
    | none => simp [attempt, hget, hgot] at h
    | some got =>
      cases htags : tr.newTags d got.tags with
      | error e =>
        unfold TagTransition.newTags TagTransition.kept at htags
        simp [attempt, hget, hgot, htags] at h
      | ok tags =>
        unfold TagTransition.newTags TagTransition.kept at htags
        simp only [attempt, hget, hgot, htags] at h ⊢
        split at h
        · cases h
        · cases h
        · next hdone =>
          split at h
          · cases h
          · next hverified =>
            refine ⟨?_, got, ?_⟩
            · cases hput : replies.put <;> simp [RowStore.put, hput, PutReply.applied] at hdone ⊢
            · unfold verified at hverified
              split at hverified
              · cases hverified
              · split at hverified
                · cases hverified
                · next r hr =>
                  simp only [Except.ok.injEq, Bool.and_eq_true, List.all_eq_true] at hverified
                  exact ⟨r, rfl, hr, hverified.2⟩
          · cases h

/-! ## One call -/

/-- **The invariant rule of a call.** -/
theorem tagTransition_inv {I : RowStore → Prop} {rs : List AttemptReplies} (h0 : I st)
    (hstep : ∀ replies ∈ rs, ∀ st, I st → I (attempt d tr id replies st).1) : I (tagTransition d tr id rs st).1 := by
  induction rs generalizing st with
  | nil => exact h0
  | cons replies rest ih =>
    have hhere := hstep replies List.mem_cons_self st h0
    unfold tagTransition
    split <;> rename_i hend <;> rw [hend] at hhere
    · exact hhere
    · exact hhere
    · exact hhere
    · exact ih hhere fun r hr => hstep r (List.mem_cons_of_mem replies hr)

/-- A transition that returns `True` has landed in its last attempt. -/
theorem tagTransition_true {rs : List AttemptReplies} (h : (tagTransition d tr id rs st).2 = .ok true) :
    ∃ a, (attemptsMade d id tr rs st).getLast? = some a ∧ a.2 ∈ rs ∧ (attempt d tr id a.2 a.1).2 = .landed ∧
      (attempt d tr id a.2 a.1).1 = (tagTransition d tr id rs st).1 := by
  induction rs generalizing st with
  | nil => cases h
  | cons replies rest ih =>
    unfold tagTransition at h ⊢
    unfold attemptsMade
    split at h
    · cases h
    · next hend => exact ⟨(st, replies), by simp [hend], List.mem_cons_self, by simp [hend], by simp [hend]⟩
    · cases h
    · next hend =>
      obtain ⟨a, hlast, hmem, hlanded, hst⟩ := ih h
      refine ⟨a, ?_, List.mem_cons_of_mem replies hmem, hlanded, hst⟩
      simp only [hend]
      rw [List.getLast?_cons, hlast]
      rfl

theorem attemptsMade_replies {rs : List AttemptReplies} {a : RowStore × AttemptReplies}
    (ha : a ∈ attemptsMade d id tr rs st) : a.2 ∈ rs := by
  induction rs generalizing st with
  | nil => cases ha
  | cons replies rest ih =>
    unfold attemptsMade at ha
    rcases List.mem_cons.1 ha with rfl | ha
    · exact List.mem_cons_self
    · split at ha
      · exact List.mem_cons_of_mem replies (ih ha)
      · cases ha

/-- **The invariant rule of a call**, for its two attempts. -/
theorem LifecycleCall.run_inv {I : RowStore → Prop} {replies : MutationReplies} (h0 : I st)
    (hstep : ∀ a ∈ [replies.first, replies.second], ∀ st, I st → I (attempt d c.transition id a st).1) :
    I (c.run d id replies st).1 := by
  unfold LifecycleCall.run transitionCall
  split
  · exact h0
  · exact tagTransition_inv h0 hstep

theorem LifecycleCall.run_true {replies : MutationReplies} (h : (c.run d id replies st).2 = .ok true) :
    ∃ a, (c.attempts d id replies st).getLast? = some a ∧ a.2 ∈ [replies.first, replies.second] ∧
      (attempt d c.transition id a.2 a.1).2 = .landed ∧
      (attempt d c.transition id a.2 a.1).1 = (c.run d id replies st).1 := by
  cases hlock : replies.lock with
  | some e =>
    simp [LifecycleCall.run, transitionCall, hlock] at h
  | none =>
    have hrun : c.run d id replies st = tagTransition d c.transition id [replies.first, replies.second] st := by
      simp [LifecycleCall.run, transitionCall, hlock]
    have hattempts : c.attempts d id replies st = attemptsMade d id c.transition [replies.first, replies.second] st := by
      simp [LifecycleCall.attempts, hlock]
    rw [hrun] at h ⊢
    rw [hattempts]
    exact tagTransition_true h

theorem LifecycleCall.attempts_replies {replies : MutationReplies} {a : RowStore × AttemptReplies}
    (ha : a ∈ c.attempts d id replies st) : a.2 ∈ [replies.first, replies.second] := by
  unfold LifecycleCall.attempts at ha
  split at ha
  · cases ha
  · exact attemptsMade_replies ha

theorem LifecycleEvent.MetadataOnly.attempt {replies : MutationReplies} (he : (LifecycleEvent.call c replies).MetadataOnly id)
    {a : AttemptReplies} (ha : a ∈ [replies.first, replies.second]) : Panella.MetadataOnly id a.others := by
  simp only [List.mem_cons, List.not_mem_nil, or_false] at ha
  rcases ha with rfl | rfl
  · exact he.1
  · exact he.2

/-- **A call that returns `True` left every tag in place.** -/
theorem leavesTags {replies : MutationReplies} (h : (c.run d id replies st).2 = .ok true) : LeavesTags d id c replies st := by
  obtain ⟨a, hlast, -, hlanded, hst⟩ := c.run_true h
  obtain ⟨-, got, r, hgot, hr, htags⟩ := attempt_landed hlanded
  refine ⟨got, r, ?_, hst ▸ hr, htags⟩
  rw [LifecycleCall.lastGet, hlast]
  exact hgot

/-! ## Tags -/

/-- `hash(t)` is there. -/
def hashable : Json → Bool
  | .arr _ | .obj _ => false
  | _ => true

/-- `dict.fromkeys` keeps the first of equal tags. -/
theorem fromKeys_ok_iff {ts acc tags : List Json} :
    d.fromKeys acc ts = .ok tags ↔ (∀ t ∈ ts, hashable t = true) ∧ tags = keepFirst d.tagEq acc ts := by
  induction ts generalizing acc with
  | nil =>
    rw [Deployment.fromKeys, keepFirst_nil, Except.ok.injEq]
    exact ⟨fun h => ⟨fun t ht => absurd ht List.not_mem_nil, h.symm⟩, fun h => h.2.symm⟩
  | cons t ts ih =>
    cases t <;> simp [Deployment.fromKeys, hashable, ih]

theorem mem_kept {tags : List Json} {t : Json} :
    t ∈ tr.kept d tags ↔ t ∈ tags ∧ ∀ s ∈ tr.dropTags, d.tagEq t (.str s) = false := by
  simp [TagTransition.kept]

/-- A string tag stays unless it is dropped. -/
theorem str_mem_kept {tags : List Json} {s : String} : .str s ∈ tr.kept d tags ↔ .str s ∈ tags ∧ s ∉ tr.dropTags := by
  rw [mem_kept, and_congr_right_iff]
  intro _
  constructor
  · intro h hs
    have hself : d.tagEq (.str s) (.str s) = true := tagEq_str.2 rfl
    rw [h s hs] at hself
    cases hself
  · intro h s' hs'
    by_contra he
    rw [Bool.not_eq_false, tagEq_str, Json.str.injEq] at he
    exact h (he ▸ hs')

theorem str_mem_newTags {tags tags' : List Json} (h : tr.newTags d tags = .ok tags') {s : String}
    (hs : (.str s ∈ tags ∧ s ∉ tr.dropTags) ∨ s ∈ tr.addTags) : .str s ∈ tags' := by
  obtain ⟨-, rfl⟩ := fromKeys_ok_iff.1 h
  apply keepFirst_exact fun u hu => tagEq_str.1 hu
  rcases hs with hs | hs
  · exact List.mem_append_left _ (str_mem_kept.2 hs)
  · exact List.mem_append_right _ (List.mem_map_of_mem hs)

/-- **A transition changes the tags once.** -/
theorem newTags_again {tags tags' : List Json} (hdisj : ∀ s ∈ tr.addTags, s ∉ tr.dropTags)
    (h : tr.newTags d tags = .ok tags') : tr.newTags d tags' = .ok tags' := by
  have hadded : ∀ s ∈ tr.addTags, .str s ∈ tags' := fun s hs => str_mem_newTags h (.inr hs)
  obtain ⟨hhash, htags⟩ := fromKeys_ok_iff.1 h
  have hfrom : ∀ t ∈ tags', t ∈ tr.kept d tags ++ tr.addTags.map .str := by
    intro t ht
    rw [htags] at ht
    exact (mem_keepFirst ht).resolve_left List.not_mem_nil
  have hkept : tr.kept d tags' = tags' := by
    unfold TagTransition.kept
    rw [List.filter_eq_self]
    intro t ht
    rcases List.mem_append.1 (hfrom t ht) with hk | ha
    · exact (List.mem_filter.1 hk).2
    · obtain ⟨s, hs, rfl⟩ := List.mem_map.1 ha
      have hin : Json.str s ∈ tr.kept d tags' := str_mem_kept.2 ⟨ht, hdisj s hs⟩
      exact (List.mem_filter.1 hin).2
  rw [TagTransition.newTags, hkept]
  apply fromKeys_ok_iff.2
  constructor
  · intro t ht
    rcases List.mem_append.1 ht with ht | ht
    · exact hhash t (hfrom t ht)
    · exact hhash t (List.mem_append_right _ ht)
  · rw [htags, keepFirst_again]
    intro u hu
    obtain ⟨s, hs, rfl⟩ := List.mem_map.1 hu
    rw [← htags]
    exact List.any_eq_true.2 ⟨.str s, hadded s hs, tagEq_str.2 rfl⟩

/-! ## Recall -/

/-- A status that keeps its row out of recall. -/
def denied (s : String) : Prop := s = "tombstoned" ∨ s = "superseded"

/-- The tag of a denied status is on the row. -/
def Tagged (id : String) (s : String) (st : RowStore) : Prop :=
  ∃ r, st id = some r ∧ .str ("status:" ++ s) ∈ r.tags

theorem Tagged.excluded {s : String} (hs : denied s) (h : Tagged id s st) : Excluded d id st := by
  obtain ⟨r, hr, htag⟩ := h
  refine ⟨r, hr, ?_⟩
  have hdeny : excludedStatusTag (.str ("status:" ++ s)) = true := by
    rcases hs with rfl | rfl <;> decide
  unfold hasExcludedRecallStatus
  rw [Bool.or_eq_true]
  exact .inr (List.any_eq_true.2 ⟨_, htag, hdeny⟩)

theorem LifecycleCall.status_denied {s : String} (h : c.status = some s) : denied s := by
  cases c with
  | tombstone => exact .inl (Option.some.inj h).symm
  | supersede => exact .inr (Option.some.inj h).symm
  | ensureTag => cases h

theorem LifecycleCall.added (h : c.status.isSome = true) : ∃ s, c.status = some s ∧ "status:" ++ s ∈ c.transition.addTags := by
  cases c with
  | tombstone => exact ⟨_, rfl, List.mem_singleton.2 rfl⟩
  | supersede => exact ⟨_, rfl, List.mem_singleton.2 rfl⟩
  | ensureTag => cases h

/-- No call drops the tag of a denied status. -/
theorem LifecycleCall.not_dropped {s : String} (hs : denied s) : "status:" ++ s ∉ c.transition.dropTags := by
  have hne : "status:" ++ s ≠ "status:active" := by rcases hs with rfl | rfl <;> decide
  cases c with
  | tombstone => simpa [LifecycleCall.transition, tombstoneTransition] using hne
  | supersede => simpa [LifecycleCall.transition, supersedeTransition] using hne
  | ensureTag => simp [LifecycleCall.transition, ensureTagTransition]

theorem attempt_tagged {s : String} (hs : denied s) (hothers : MetadataOnly id replies.others) (h : Tagged id s st) :
    Tagged id s (attempt d c.transition id replies st).1 := by
  obtain ⟨r₀, hr₀, htag⟩ := h
  rcases attempt_row d c.transition st hothers with
    ⟨hsame, -, -⟩ | ⟨got, r, tags, hgot, -, hrtags, htags, -, hafter⟩
  · exact ⟨r₀, hsame.trans hr₀, htag⟩
  · refine ⟨_, hafter, ?_⟩
    rw [hr₀, Option.some.injEq] at hgot
    subst hgot
    unfold TagTransition.putRow
    split
    · exact str_mem_newTags htags (.inl ⟨htag, LifecycleCall.not_dropped hs⟩)
    · rw [hrtags]
      exact htag

/-- **No event takes the tag of a denied status off.** -/
theorem lifecycleStep_tagged {s : String} (hs : denied s) {e : LifecycleEvent} (he : e.MetadataOnly id) (h : Tagged id s st) :
    Tagged id s (lifecycleStep d id st e) := by
  cases e with
  | call c replies =>
    apply c.run_inv h
    intro a ha st hst
    simp only [List.mem_cons, List.not_mem_nil, or_false] at ha
    rcases ha with rfl | rfl
    · exact attempt_tagged hs he.1 hst
    · exact attempt_tagged hs he.2 hst
  | write f =>
    obtain ⟨r₀, hr₀, htag⟩ := h
    obtain ⟨r, hr, hrtags⟩ := MetadataOnly.row he hr₀
    exact ⟨r, hr, hrtags ▸ htag⟩

/-! ## What a call that returned `True` has settled -/

/-- The row as the call that returned `True` leaves it, in what a repetition looks at. -/
structure Settled (d : Deployment) (c : LifecycleCall) (x : List Json × Json × Json) : Prop where
  tags : c.transition.newTags d x.1 = .ok x.1
  status : ∀ s, c.status = some s → x.2.1 = .str s
  validTo : (∃ reason supersededBy, c = .supersede reason supersededBy) → x.2.2.truthy = true

theorem LifecycleCall.disjoint (c : LifecycleCall) : ∀ s ∈ c.transition.addTags, s ∉ c.transition.dropTags := by
  cases c <;>
    simp [LifecycleCall.transition, tombstoneTransition, supersedeTransition, ensureTagTransition]

/-- What a PUT that is applied leaves in `status`. -/
theorem status_putRow {got r : LiveRow} {tags : List Json} :
    (c.transition.putRow replies got r tags).status =
      if replies.put.applied then (c.status.map Json.str).getD r.status else r.status := by
  unfold TagTransition.putRow
  split
  · cases c with
    | tombstone =>
      exact Dict.get_merge_of_mem (by simp [LifecycleCall.transition, tombstoneTransition]) List.mem_cons_self
    | supersede =>
      exact Dict.get_merge_of_mem (by simp [LifecycleCall.transition, supersedeTransition]) List.mem_cons_self
    | ensureTag => rfl
  · rfl

/-- What a PUT leaves in `valid_to`. -/
theorem validTo_putRow_supersede {reason : String} {by' : Option String} {got r : LiveRow} {tags : List Json} :
    ((LifecycleCall.supersede reason by').transition.putRow replies got r tags).validTo =
      if replies.put.applied then got.validTo.orElse (.str replies.now.text) else r.validTo := by
  unfold TagTransition.putRow
  split
  · exact Dict.get_merge_of_mem (by simp [LifecycleCall.transition, supersedeTransition])
      (List.mem_cons_of_mem _ List.mem_cons_self)
  · rfl

theorem validTo_putRow (hc : ∀ reason by', c ≠ .supersede reason by') {got r : LiveRow} {tags : List Json} :
    (c.transition.putRow replies got r tags).validTo = r.validTo := by
  unfold TagTransition.putRow
  split
  · cases c with
    | tombstone => exact Dict.get_merge_of_notMem _ (by simp [LifecycleCall.transition, tombstoneTransition])
    | supersede reason by' => exact absurd rfl (hc reason by')
    | ensureTag => rfl
  · rfl

theorem tags_putRow {got r : LiveRow} {tags : List Json} :
    (tr.putRow replies got r tags).tags = if replies.put.applied then tags else r.tags := by
  unfold TagTransition.putRow
  split <;> rfl

theorem orElse_truthy (v : Json) (now : UtcIso) : (v.orElse (.str now.text)).truthy = true := by
  by_cases hv : v.truthy = true
  · rw [Json.orElse, if_pos hv]
    exact hv
  · rw [Json.orElse, if_neg hv]
    simpa [Json.truthy] using now.nonempty

theorem attempt_settled (hothers : MetadataOnly id replies.others) (h : (attempt d c.transition id replies st).2 = .landed) :
    ∃ r, (attempt d c.transition id replies st).1 id = some r ∧ Settled d c r.lifecycle := by
  have happlied : replies.put.applied = true := (attempt_landed h).1
  rcases attempt_row d c.transition st hothers with
    ⟨-, -, hnot⟩ | ⟨got, r, tags, hgot, -, hrtags, htags, -, hafter⟩
  · exact absurd h hnot
  · refine ⟨_, hafter, ?_, ?_, ?_⟩
    · simp only [LiveRow.lifecycle, tags_putRow, happlied, if_true]
      exact newTags_again c.disjoint htags
    · intro s hs
      simp only [LiveRow.lifecycle, status_putRow, happlied, if_true, hs]
      rfl
    · rintro ⟨reason, by', rfl⟩
      simp only [LiveRow.lifecycle, validTo_putRow_supersede, happlied, if_true]
      exact orElse_truthy _ _

/-- **A call that returns `True` has settled the row.** -/
theorem run_settled {replies : MutationReplies} (he : (LifecycleEvent.call c replies).MetadataOnly id)
    (h : (c.run d id replies st).2 = .ok true) :
    ∃ r, (c.run d id replies st).1 id = some r ∧ Settled d c r.lifecycle := by
  obtain ⟨a, -, ha, hlanded, hst⟩ := c.run_true h
  rw [← hst]
  exact attempt_settled (he.attempt ha) hlanded

/-! ## Repetition -/

/-- What is to be shown of one attempt of a repetition: the tags stay, and with them `key`. -/
theorem attempt_repeats {β : Type} {key : LiveRow → β} {x : List Json × Json × Json} {v : β} (hx : Settled d c x)
    (hothers : MetadataOnly id replies.others)
    (hkey : ∀ got r tags, key got = v → got.tags = x.1 → replies.others st id = some r → st id = some got →
      key (c.transition.putRow replies got r tags) = v)
    (h : (st id).map (fun r => (r.tags, key r)) = some (x.1, v)) :
    ((attempt d c.transition id replies st).1 id).map (fun r => (r.tags, key r)) = some (x.1, v) := by
  rcases attempt_row d c.transition st hothers with
    ⟨hsame, -, -⟩ | ⟨got, r, tags, hgot, hr, hrtags, htags, -, hafter⟩
  · rw [hsame, h]
  · rw [hgot, Option.map_some, Option.some.injEq, Prod.mk.injEq] at h
    rw [hafter, Option.map_some, hkey got r tags h.2 h.1 hr hgot, tags_putRow]
    rw [h.1, hx.tags, Except.ok.injEq] at htags
    split
    · rw [htags]
    · rw [hrtags, h.1]

/-- The key of the row in the window of an attempt. -/
theorem LeavesKey.row {k : String} {replies : MutationReplies} (h : LeavesKey id k replies) {a : AttemptReplies}
    (ha : a ∈ [replies.first, replies.second]) {got r : LiveRow} (hgot : st id = some got) (hr : a.others st id = some r) :
    Dict.get r.metadata k = Dict.get got.metadata k := by
  have hf : a.others ∈ [replies.first.others, replies.second.others] := by
    simp only [List.mem_cons, List.not_mem_nil, or_false] at ha ⊢
    rcases ha with rfl | rfl
    · exact .inl rfl
    · exact .inr rfl
  simpa [hgot, hr] using h _ hf st

/-- What is to be shown of a whole repetition: the attempts leave the tags, and with them `key`, as `r₀` has them. -/
theorem run_repeats {β : Type} {replies : MutationReplies} {r₀ : LiveRow} (key : LiveRow → β)
    (he : (LifecycleEvent.call c replies).MetadataOnly id) (hr₀ : st id = some r₀) (hx : Settled d c r₀.lifecycle)
    (hkey : ∀ a ∈ [replies.first, replies.second], ∀ st got r tags, key got = key r₀ → a.others st id = some r →
      st id = some got → key (c.transition.putRow a got r tags) = key r₀) :
    ((c.run d id replies st).1 id).map (·.tags) = (st id).map (·.tags) ∧
      ((c.run d id replies st).1 id).map key = (st id).map key := by
  have hrun : ((c.run d id replies st).1 id).map (fun r => (r.tags, key r)) = some (r₀.tags, key r₀) := by
    apply c.run_inv (I := fun st => (st id).map (fun r => (r.tags, key r)) = some (r₀.tags, key r₀))
    · rw [hr₀]
      rfl
    · intro a ha st hst
      exact attempt_repeats hx (he.attempt ha) (fun got r tags hg _ hr hgot => hkey a ha st got r tags hg hr hgot) hst
  obtain ⟨r, hr, hpair⟩ := Option.map_eq_some_iff.1 hrun
  obtain ⟨htags, hsame⟩ := Prod.mk.inj hpair
  rw [hr, hr₀]
  exact ⟨congrArg some htags, congrArg some hsame⟩

/-- **A repetition changes nothing.** -/
theorem repeats_of_settled {replies : MutationReplies} {r₀ : LiveRow} (he : (LifecycleEvent.call c replies).MetadataOnly id)
    (hr₀ : st id = some r₀) (hx : Settled d c r₀.lifecycle) : Repeats d id c replies st := by
  refine ⟨?_, ?_, ?_⟩
  · exact (run_repeats (fun _ => ()) he hr₀ hx fun _ _ _ _ _ _ _ _ _ => rfl).1
  · intro hleaves
    apply (run_repeats LiveRow.status he hr₀ hx ?_).2
    intro a ha st got r tags hkey hr hgot
    have hsame : r.status = r₀.status := (hleaves.row ha hgot hr).trans hkey
    rw [status_putRow]
    split
    · cases hs : c.status with
      | none => exact hsame
      | some s => exact (hx.status s hs).symm
    · exact hsame
  · intro hleaves
    apply (run_repeats LiveRow.validTo he hr₀ hx ?_).2
    intro a ha st got r tags hkey hr hgot
    have hsame : r.validTo = r₀.validTo := (hleaves.row ha hgot hr).trans hkey
    by_cases hc : ∃ reason by', c = .supersede reason by'
    · have htruthy : r₀.validTo.truthy = true := hx.validTo hc
      obtain ⟨reason, by', rfl⟩ := hc
      rw [validTo_putRow_supersede]
      split
      · rw [hkey, Json.orElse, if_pos htruthy]
      · exact hsame
    · rw [validTo_putRow fun reason by' h => hc ⟨reason, by', h⟩]
      exact hsame

/-! ## `valid_to` -/

/-- **An attempt leaves a `valid_to` that is set alone exactly when it does not race.** -/
theorem attempt_validTo_iff {reason : String} {by' : Option String} (hothers : MetadataOnly id replies.others) :
    (∀ got r, seen d id (LifecycleCall.supersede reason by').transition (st, replies) = some (got, r) →
      r.validTo.truthy = true →
        ∃ r', (attempt d (LifecycleCall.supersede reason by').transition id replies st).1 id = some r' ∧
          r'.validTo = r.validTo) ↔
      ¬ RacesValidTo d id (.supersede reason by') (st, replies) := by
  rcases attempt_row d (LifecycleCall.supersede reason by').transition st hothers with
    ⟨-, hseen, -⟩ | ⟨got, r, tags, hgot, -, hrtags, htags, hseen, hafter⟩
  · simp [RacesValidTo, hseen]
  · constructor
    · rintro h ⟨-, happlied, got', r', hseen', htruthy, hne, hnow⟩
      rw [hseen, Option.some.injEq, Prod.mk.injEq] at hseen'
      obtain ⟨rfl, rfl⟩ := hseen'
      obtain ⟨r', hr', hsame⟩ := h got r hseen htruthy
      rw [hafter, Option.some.injEq] at hr'
      rw [← hr', validTo_putRow_supersede, if_pos happlied] at hsame
      by_cases hg : got.validTo.truthy = true
      · rw [Json.orElse, if_pos hg] at hsame
        exact hne hsame.symm
      · rw [Json.orElse, if_neg hg] at hsame
        exact hnow (by simpa using hg) hsame.symm
    · intro h got' r' hseen' htruthy
      rw [hseen, Option.some.injEq, Prod.mk.injEq] at hseen'
      obtain ⟨rfl, rfl⟩ := hseen'
      refine ⟨_, hafter, ?_⟩
      rw [validTo_putRow_supersede]
      split
      · next happlied =>
        by_contra hchanged
        refine h ⟨⟨reason, by', rfl⟩, happlied, got, r, hseen, htruthy, ?_, ?_⟩
        · intro he
          rw [Json.orElse, if_pos (he ▸ htruthy)] at hchanged
          exact hchanged he.symm
        · intro hg he
          rw [Json.orElse, if_neg (by simp [hg])] at hchanged
          exact hchanged he.symm
      · rfl

/-! ## Runs -/

theorem run_tagged {s : String} (hs : denied s) {es : List LifecycleEvent} (hes : ∀ e ∈ es, e.MetadataOnly id)
    (h : Tagged id s st) : Tagged id s (run (lifecycleStep d id) st es) := by
  induction es generalizing st with
  | nil => exact h
  | cons e es ih =>
    apply ih fun e' he' => hes e' (List.mem_cons_of_mem e he')
    exact lifecycleStep_tagged hs (hes e List.mem_cons_self) h

/-- **Lifecycle transitions are monotone in a run exactly when no `supersede` of it races with a writer of `valid_to`.** -/
theorem lifecycle_monotone_iff (d : Deployment) (id : String) (st : RowStore) (es : List LifecycleEvent)
    (hes : ∀ e ∈ es, e.MetadataOnly id) :
    LifecycleMonotone d id st es ↔ Along (lifecycleStep d id) (KeepsClear d id) st es := by
  rw [along_iff]
  constructor
  · intro h pre e post hsplit
    cases e with
    | write f => trivial
    | call c replies =>
      rintro a ha ⟨⟨reason, by', rfl⟩, hrace⟩
      have hothers : MetadataOnly id a.2.others :=
        (hes (.call (.supersede reason by') replies) (by simp [hsplit])).attempt (LifecycleCall.attempts_replies ha)
      exact (attempt_validTo_iff hothers).1 (h.validTo pre reason by' replies post hsplit a ha) ⟨⟨reason, by', rfl⟩, hrace⟩
  · intro h
    refine ⟨?_, ?_, ?_, ?_⟩
    · intro pre c replies post _ htrue
      exact leavesTags htrue
    · rintro pre c replies mid post rfl hstatus htrue
      obtain ⟨s, hs, hadd⟩ := c.added hstatus
      have hdenied : denied s := c.status_denied hs
      have hcall : (LifecycleEvent.call c replies).MetadataOnly id := hes _ (by simp)
      have htagged : Tagged id s (c.run d id replies (run (lifecycleStep d id) st pre)).1 := by
        obtain ⟨r, hr, hsettled⟩ := run_settled hcall htrue
        exact ⟨r, hr, str_mem_newTags hsettled.tags (.inr hadd)⟩
      rw [run_append, run_cons]
      apply Tagged.excluded hdenied
      apply run_tagged hdenied ?_ htagged
      intro e he
      exact hes e (by simp [he])
    · intro pre reason by' replies post hsplit a ha
      have hothers : MetadataOnly id a.2.others :=
        (hes (.call (.supersede reason by') replies) (by simp [hsplit])).attempt (LifecycleCall.attempts_replies ha)
      exact (attempt_validTo_iff hothers).2 (h pre _ post hsplit a ha)
    · rintro pre c replies mid replies' post rfl htrue hsame
      obtain ⟨r, hr, hsettled⟩ := run_settled (hes (.call c replies) (by simp)) htrue
      rw [hr, Option.map_some] at hsame
      obtain ⟨r₀, hr₀, hlife⟩ := Option.map_eq_some_iff.1 hsame
      exact repeats_of_settled (hes (.call c replies') (by simp)) hr₀ (hlife ▸ hsettled)

/-- An active row that nobody has ended. -/
def agedRow : LiveRow :=
  { contentHash := .str "a", content := .str "tea", tags := [.str "permanent", .str "status:active"],
    memoryType := .str "observation", metadata := [], createdAt := .null, createdAtIso := .null }

def agedRows : RowStore := fun id => if id = "a" then some agedRow else none

/-- Another writer ends the validity of every row. -/
def endsValidity (text : String) (st : RowStore) : RowStore := fun id =>
  (st id).map fun r => { r with metadata := Dict.set r.metadata "valid_to" (.str text) }

theorem endsValidity_metadataOnly (text id : String) : MetadataOnly id (endsValidity text) := by
  intro st
  rw [endsValidity, Option.map_map]
  rfl

theorem calm_metadataOnly (id : String) (c : LifecycleCall) : (LifecycleEvent.call c calmReplies).MetadataOnly id :=
  ⟨fun _ => rfl, fun _ => rfl⟩

/-- A call whose window nobody writes in does not race. -/
theorem calm_keepsClear (d : Deployment) (id : String) (c : LifecycleCall) (st : RowStore) :
    KeepsClear d id st (.call c calmReplies) := by
  rintro a ha ⟨-, -, got, r, hseen, -, hne, -⟩
  have hothers : a.2.others a.1 = a.1 := by
    have hmem := LifecycleCall.attempts_replies ha
    simp only [List.mem_cons, List.not_mem_nil, or_false] at hmem
    rcases hmem with h | h <;> rw [h] <;> rfl
  unfold seen at hseen
  split at hseen
  · next hgot =>
    split at hseen
    · rw [hothers, hgot, Option.map_some, Option.some.injEq, Prod.mk.injEq] at hseen
      obtain ⟨rfl, rfl⟩ := hseen
      exact hne rfl
    · cases hseen
  · cases hseen

/-- Tombstoned, tagged active again, ended by another writer, superseded. -/
def agedRun : List LifecycleEvent :=
  [.call (.tombstone "old" "root") calmReplies, .call (.ensureTag "status:active") calmReplies,
   .write (endsValidity "2026-02-01"), .call (.supersede "newer" (some "b")) calmReplies]

theorem agedRun_monotone : LifecycleMonotone sampleDeployment "a" agedRows agedRun := by
  apply (lifecycle_monotone_iff sampleDeployment "a" agedRows agedRun ?_).2
  · exact ⟨calm_keepsClear _ _ _ _, calm_keepsClear _ _ _ _, trivial, calm_keepsClear _ _ _ _, trivial⟩
  · intro e he
    simp only [agedRun, List.mem_cons, List.not_mem_nil, or_false] at he
    rcases he with rfl | rfl | rfl | rfl
    · exact calm_metadataOnly "a" _
    · exact calm_metadataOnly "a" _
    · exact endsValidity_metadataOnly _ "a"
    · exact calm_metadataOnly "a" _

/-- Another writer ends the row between the GET and the PUT. -/
def racingReplies : MutationReplies :=
  { calmReplies with first := ⟨sampleUtcIso, none, endsValidity "2025-12-31", .updated, none⟩ }

/-- **The PUT takes the `valid_to` away that the other writer has just set.** -/
theorem racing_supersede :
    ¬ LifecycleMonotone sampleDeployment "a" agedRows [.call (.supersede "newer" (some "b")) racingReplies] := by
  intro h
  have hclear : ¬ RacesValidTo sampleDeployment "a" (.supersede "newer" (some "b")) (agedRows, racingReplies.first) :=
    (attempt_validTo_iff (endsValidity_metadataOnly _ "a")).1
      (h.validTo [] "newer" (some "b") racingReplies [] rfl (agedRows, racingReplies.first) List.mem_cons_self)
  apply hclear
  refine ⟨⟨"newer", some "b", rfl⟩, rfl, agedRow, { agedRow with metadata := [("valid_to", .str "2025-12-31")] }, rfl, ?_, ?_, ?_⟩
  · decide
  · simp [LiveRow.validTo, agedRow, Dict.get]
  · intro _
    simp [LiveRow.validTo, Dict.get, racingReplies, sampleUtcIso]

end Panella
