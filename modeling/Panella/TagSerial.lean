import Panella.TagLock

/-!
# The calls on one row, one after the other

The lifecycle of a row has each call in one piece, with what others do "between its GET and its PUT" as a part of its
replies. Here it is the abstract level: whatever the requests of the calls are interleaved with, the calls on one row end as if each
had been made in one piece at some point, in the order in which they end (**`calls_serialized`**), and the row is the row of
that run whenever no call is in the middle of it. What another writer does falls into the window of the call
that has the lock, or before it, or after it, by the request it falls between (`Midway`).

From it, what a call has returned `True` for holds from then on, whatever else is going on (`denied_lasts`).
-/

namespace Panella.TagLock

open PyJson Machine Mutex

/-! ## What the callers see -/

/-- The row a call is about. -/
def TagCall.target : TagCall → Option (LifecycleCall × String)
  | .opening c id | .waiting c id _ | .getting c id _ | .putting c id _ _ _ _ | .verifying c id _ _ => some (c, id)
  | .idle | .ended _ => none

/-- A call on row `id` with its result, which is `none` when its process died. -/
abbrev Answer : Type := LifecycleCall × Option (Except ClientErr Bool)

variable (d : Deployment) (id : String)

/-- The end of a call on row `id`. -/
def answered (c : TagCall) (next : TagCall) : Option Answer :=
  match c.target with
  | some (call, id') =>
    if id' = id then
      match next with
      | .ended result => some (call, some result)
      | .idle => some (call, none)
      | _ => none
    else none
  | none => none

/-- The call on row `id` that ends in this step. -/
def endsIn (s : LockSystem) (a : LockAction) : Option Answer :=
  match a with
  | .advance p _ | .crash p => answered id (s.calls p) ((lockStep d s a).calls p)
  | _ => none

/-- The calls on row `id` that have ended in the run, in the order of their ends. -/
def answersIn : LockSystem → List LockAction → List Answer
  | _, [] => []
  | s, a :: as => (endsIn d id s a).toList ++ answersIn (lockStep d s a) as

/-- The results of the calls of a run that has each in one piece. -/
def resultsOf : RowStore → List LifecycleEvent → List (LifecycleCall × Except ClientErr Bool)
  | _, [] => []
  | st, .call c replies :: es => (c, (c.run d id replies st).2) :: resultsOf (lifecycleStep d id st (.call c replies)) es
  | st, .write f :: es => resultsOf (lifecycleStep d id st (.write f)) es

/-- The caller has been told the result, where it was told anything. -/
def Told (a : Answer) (r : LifecycleCall × Except ClientErr Bool) : Prop := a.1 = r.1 ∧ ∀ result ∈ a.2, result = r.2

/-! ## A call on its way -/

/-- `S` is where the attempts of `c` stand that leave it `left` more: nothing has been done, or the first PUT was refused. -/
def Upto (c : LifecycleCall) (S₀ : RowStore) : Nat → RowStore → Prop
  | 0, S => ∃ r : AttemptReplies, r.get = none ∧ r.put = .unsuccessful ∧ MetadataOnly id r.others ∧
      (∃ got tags, S₀ id = some got ∧ c.transition.newTags d got.tags = .ok tags) ∧ S = r.others S₀
  | 1, S => S = S₀
  | _, _ => False

/-- How an attempt ends that has updated the row. -/
def landing : Option ClientErr → AttemptEnd
  | some e => .raised e
  | none => .landed

/-- **A call in the middle of the row**, which is `o`, whose last state in one piece is `S₀`. -/
def Midway (S₀ : RowStore) (o : Option LiveRow) : TagCall → Prop
  | .getting c _ left => ∃ S, Upto d id c S₀ left S ∧ S id = o
  | .putting c _ left kept newTags delta =>
    -- what others have written since the GET
    ∃ S got now f, Upto d id c S₀ left S ∧ S id = some got ∧ c.transition.newTags d got.tags = .ok newTags ∧
      kept = c.transition.kept d got.tags ∧ delta = c.transition.metaDelta now got.metadata ∧ KeepsTags f ∧
      f (some got) = o
  | .verifying c _ left kept =>
    -- what others have written since the PUT
    ∃ (S : RowStore) (r : AttemptReplies) (S' : RowStore) (g : Option LiveRow → Option LiveRow),
      Upto d id c S₀ left S ∧ MetadataOnly id r.others ∧
      (∀ verify, attempt d c.transition id { r with verify } S = (S', landing verify)) ∧
      verified d c.transition kept S' id none = .ok true ∧ KeepsTags g ∧ g (S' id) = o
  | _ => True

/-- **The rows are those of the run in one piece** that leaves `S₀`, apart from what the call inside the lock has done. -/
structure Serial (s : LockSystem) (S₀ : RowStore) : Prop where
  quiet : (∀ p, (s.calls p).drawer ≠ some id) → S₀ id = s.rows id
  midway : ∀ p, (s.calls p).drawer = some id → Midway d id S₀ (s.rows id) (s.calls p)

/-- The tags are strings, as the store keeps them in one comma-separated text. -/
def Textual (o : Option LiveRow) : Prop := ∀ r, o = some r → ∀ t ∈ r.tags, ∃ u, t = .str u

variable {d id} {s : LockSystem} {a : LockAction} {p q : Nat} {c : LifecycleCall} {left : Nat} {S₀ S S' : RowStore}
  {r : AttemptReplies} {f g : Option LiveRow → Option LiveRow} {got : LiveRow} {kept newTags : List Json}

/-! ## Writers -/

theorem keepsTags_id : KeepsTags fun o => o := fun _ => rfl

theorem KeepsTags.comp (hg : KeepsTags g) (hf : KeepsTags f) : KeepsTags fun o => g (f o) :=
  fun o => (hg (f o)).trans (hf o)

theorem KeepsTags.metadataOnly (hf : KeepsTags f) : MetadataOnly id (onRow id f) := by
  intro st
  rw [onRow, if_pos rfl]
  exact hf (st id)

theorem KeepsTags.row (hf : KeepsTags f) (got : LiveRow) : ∃ r, f (some got) = some r ∧ r.tags = got.tags :=
  Option.map_eq_some_iff.1 (hf (some got))

theorem metadataOnly_id : MetadataOnly id fun st => st := fun _ => rfl

theorem onRow_self {st : RowStore} : onRow id f st id = f (st id) := if_pos rfl

/-! ## One attempt -/

/-- An attempt whose GET has found the row. -/
theorem attempt_put {tr : TagTransition} (reply : PutReply) (now : UtcIso) (verify : Option ClientErr) (hgot : S id = some got)
    (htags : tr.newTags d got.tags = .ok newTags) (hf : KeepsTags f) :
    attempt d tr id ⟨now, none, onRow id f, reply, verify⟩ S =
      match reply with
      | .updated =>
        let S' := (onRow id f S).update id newTags (tr.metaDelta now got.metadata)
        match verified d tr (tr.kept d got.tags) S' id verify with
        | .error e => (S', .raised e)
        | .ok true => (S', .landed)
        | .ok false => (S', .again)
      | .unsuccessful => (onRow id f S, .again)
      | .refused e => (onRow id f S, .raised e)
      | .lost e => ((onRow id f S).update id newTags (tr.metaDelta now got.metadata), .raised e) := by
  obtain ⟨r, hr, -⟩ := hf.row got
  have hrow : (onRow id f S id).isSome = true := by rw [onRow_self, hgot, hr]; rfl
  unfold TagTransition.newTags at htags
  cases reply <;> simp only [attempt, hgot, TagTransition.kept] at htags ⊢ <;> simp only [htags, RowStore.put, if_pos hrow]
  all_goals rfl

/-- **The re-GET finds what the PUT has written**, where the tags are strings. -/
theorem verified_put {st : RowStore} {row : LiveRow} (htext : ∀ t ∈ got.tags, ∃ u, t = .str u)
    (htags : c.transition.newTags d got.tags = .ok newTags) (hrow : st id = some row) (hnew : row.tags = newTags) :
    verified d c.transition (c.transition.kept d got.tags) st id none = .ok true := by
  have hin : ∀ {u : String}, .str u ∈ newTags → d.tagIn row.tags (.str u) = true := by
    intro u hu
    exact List.any_eq_true.2 ⟨.str u, hnew ▸ hu, tagEq_str.2 rfl⟩
  obtain ⟨-, hkeep⟩ := fromKeys_ok_iff.1 htags
  have hadd : ∀ u ∈ c.transition.addTags, d.tagIn row.tags (.str u) = true :=
    fun u hu => hin (str_mem_newTags htags (.inr hu))
  have hdrop : ∀ u ∈ c.transition.dropTags, d.tagIn row.tags (.str u) = false := by
    intro u hu
    rw [Bool.eq_false_iff]
    intro hany
    obtain ⟨t, ht, he⟩ := List.any_eq_true.1 hany
    obtain rfl := tagEq_str.1 he
    rw [hnew, hkeep] at ht
    rcases List.mem_append.1 ((KeepFirst.mem_keepFirst ht).resolve_left List.not_mem_nil) with ht | ht
    · exact (str_mem_kept.1 ht).2 hu
    · obtain ⟨u', hu', he'⟩ := List.mem_map.1 ht
      cases he'
      exact c.disjoint u hu' hu
  have hkept : ∀ t ∈ c.transition.kept d got.tags, d.tagIn row.tags t = true := by
    intro t ht
    obtain ⟨u, rfl⟩ := htext t (List.mem_filter.1 ht).1
    exact hin (str_mem_newTags htags (.inl (str_mem_kept.1 ht)))
  simp only [verified, hrow, Except.ok.injEq, Bool.and_eq_true, Bool.not_eq_true', List.all_eq_true, List.any_eq_false,
    Bool.not_eq_true]
  exact ⟨⟨hadd, hdrop⟩, hkept⟩

/-! ## One call -/

/-- The result of an attempt that is the last. -/
def resultOf : AttemptEnd → Except ClientErr Bool
  | .notFound | .again => .ok false
  | .landed => .ok true
  | .raised e => .error e

/-- **An attempt ends the call**: it is not repeated, or it is the second. -/
theorem Upto.ends {e : AttemptEnd} (h : Upto d id c S₀ left S) (hothers : MetadataOnly id r.others)
    (hattempt : attempt d c.transition id r S = (S', e)) (hlast : e ≠ .again ∨ left = 0) :
    ∃ replies, (LifecycleEvent.call c replies).MetadataOnly id ∧ c.run d id replies S₀ = (S', resultOf e) := by
  obtain _ | _ | left := left
  case zero =>
    obtain ⟨r₀, hget, hput, hothers₀, ⟨got, tags, hgot, htags⟩, rfl⟩ := h
    unfold TagTransition.newTags TagTransition.kept at htags
    have hfirst : attempt d c.transition id r₀ S₀ = (r₀.others S₀, .again) := by
      simp [attempt, hget, hgot, htags, hput, RowStore.put]
    refine ⟨⟨none, none, r₀, r⟩, ⟨hothers₀, hothers⟩, ?_⟩
    cases e <;> simp [LifecycleCall.run, transitionCall, tagTransition, hfirst, hattempt, resultOf]
  case succ.zero =>
    obtain rfl : S = S₀ := h
    have hne : e ≠ .again := hlast.resolve_right (by simp)
    refine ⟨⟨none, none, r, r⟩, ⟨hothers, hothers⟩, ?_⟩
    cases e <;> simp [LifecycleCall.run, transitionCall, tagTransition, hattempt, resultOf] at hne ⊢
  case succ.succ => exact h.elim

/-- A first attempt whose PUT was refused leaves one more. -/
theorem Upto.retry (h : Upto d id c S₀ (left + 1) S) (hf : KeepsTags f) (hgot : S id = some got)
    (htags : c.transition.newTags d got.tags = .ok newTags) : Upto d id c S₀ left (onRow id f S) := by
  cases left with
  | zero =>
    obtain rfl : S = S₀ := h
    exact ⟨⟨sampleUtcIso, none, onRow id f, .unsuccessful, none⟩, rfl, rfl, hf.metadataOnly, ⟨got, newTags, hgot, htags⟩, rfl⟩
  | succ => exact h.elim

/-- A write between two attempts falls into the window of the first. -/
theorem Upto.write (h : Upto d id c S₀ 0 S) (hf : KeepsTags f) : Upto d id c S₀ 0 (onRow id f S) := by
  obtain ⟨r, hget, hput, hothers, hseen, rfl⟩ := h
  refine ⟨{ r with others := fun st => onRow id f (r.others st) }, hget, hput, ?_, hseen, rfl⟩
  intro st
  rw [hf.metadataOnly (r.others st), hothers st]

/-- A call that ends before it has the lock. -/
theorem locked_out (d : Deployment) (id : String) (c : LifecycleCall) (S₀ : RowStore) (e : ClientErr) :
    ∃ replies, (LifecycleEvent.call c replies).MetadataOnly id ∧ c.run d id replies S₀ = (S₀, .error e) :=
  ⟨{ calmReplies with lock := some e }, ⟨fun _ => rfl, fun _ => rfl⟩, rfl⟩

/-! ## One step -/

/-- The step is that of a run in one piece: `es` is what it adds there. -/
structure Follows (d : Deployment) (id : String) (s : LockSystem) (a : LockAction) (S₀ : RowStore)
    (es : List LifecycleEvent) : Prop where
  others : ∀ e ∈ es, e.MetadataOnly id
  told : List.Forall₂ Told (endsIn d id s a).toList (resultsOf d id S₀ es)
  serial : Serial d id (lockStep d s a) (run (lifecycleStep d id) S₀ es)

/-- Nobody else is in the middle of a row. -/
theorem alone (hheld : LocksHeld s) (hp : (s.calls p).drawer = some id) (hq : q ≠ p) : (s.calls q).drawer ≠ some id := by
  intro h
  have hin : ∀ r, (s.calls r).drawer = some id → (s.calls r).inside = some (lockPath id) := by
    intro r hr
    rw [TagCall.inside, hr, Option.map_some]
  exact hq (hheld.eq (hin q h) (hin p hp))

/-- What is to be shown of the state after a step of a call that has the row to itself. -/
theorem serial_of_alone {s' : LockSystem} (halone : ∀ q, q ≠ p → (s'.calls q).drawer ≠ some id)
    (hout : (s'.calls p).drawer ≠ some id → S id = s'.rows id)
    (hin : (s'.calls p).drawer = some id → Midway d id S (s'.rows id) (s'.calls p)) : Serial d id s' S := by
  constructor
  · intro hnobody
    exact hout (hnobody p)
  · intro q hq
    by_cases hqp : q = p
    · subst hqp
      exact hin hq
    · exact absurd hq (halone q hqp)

/-- A step that changes neither the row nor who is in the middle of it. -/
theorem Serial.same {s' : LockSystem} (h : Serial d id s S) (hrows : s'.rows id = s.rows id)
    (hcalls : ∀ q, (s'.calls q).drawer = some id ∨ (s.calls q).drawer = some id → s'.calls q = s.calls q) :
    Serial d id s' S := by
  constructor
  · intro hnobody
    rw [hrows]
    refine h.quiet fun q hq => hnobody q ?_
    rw [hcalls q (.inr hq)]
    exact hq
  · intro q hq
    have hsame := hcalls q (.inl hq)
    rw [hrows, hsame]
    exact h.midway q (hsame ▸ hq)

variable {i : Input} {result : Except ClientErr Bool}

theorem advance_self : (lockStep d s (.advance p i)).calls p =
    (advanceCall d (fun k => (s.holder k).isNone) s.rows i (s.calls p)).2 := Function.update_self ..

theorem advance_other (hq : q ≠ p) : (lockStep d s (.advance p i)).calls q = s.calls q := Function.update_of_ne hq ..

theorem advance_rows : (lockStep d s (.advance p i)).rows =
    (advanceCall d (fun k => (s.holder k).isNone) s.rows i (s.calls p)).1 := rfl

theorem endsIn_advance (hc : (s.calls p).target = some (c, id)) (hnext : (lockStep d s (.advance p i)).calls p = .ended result) :
    endsIn d id s (.advance p i) = some (c, some result) := by
  simp only [endsIn, answered, hc, hnext, if_true]

/-- **The last step of a call that is inside the lock.** -/
theorem follows_of_end {told : Option (Except ClientErr Bool)} (hheld : LocksHeld s) (hp : (s.calls p).drawer = some id)
    (hends : endsIn d id s a = some (c, told)) (hnext : ((lockStep d s a).calls p).drawer = none)
    (hothers : ∀ q, q ≠ p → (lockStep d s a).calls q = s.calls q)
    (hrun : ∃ replies, (LifecycleEvent.call c replies).MetadataOnly id ∧ c.run d id replies S₀ = (S', result))
    (htold : ∀ x ∈ told, x = result) (hg : KeepsTags g) (hrow : g (S' id) = (lockStep d s a).rows id) :
    ∃ es, Follows d id s a S₀ es := by
  obtain ⟨replies, hreplies, hrun⟩ := hrun
  refine ⟨[.call c replies, .write (onRow id g)], ?_, ?_, ?_⟩
  · intro e he
    simp only [List.mem_cons, List.not_mem_nil, or_false] at he
    rcases he with rfl | rfl
    · exact hreplies
    · exact hg.metadataOnly
  · simp only [hends, resultsOf, hrun, Option.toList_some]
    exact .cons ⟨rfl, htold⟩ .nil
  · apply serial_of_alone (p := p)
    · intro q hq
      rw [hothers q hq]
      exact alone hheld hp hq
    · intro _
      simp only [run_cons, run_nil, lifecycleStep, hrun, onRow_self]
      exact hrow
    · intro hin
      rw [hnext] at hin
      cases hin

/-- A step of a call that stays inside the lock. -/
theorem follows_of_stay (hheld : LocksHeld s) (hp : (s.calls p).drawer = some id) (hends : endsIn d id s a = none)
    (hnext : ((lockStep d s a).calls p).drawer = some id) (hothers : ∀ q, q ≠ p → (lockStep d s a).calls q = s.calls q)
    (hmid : Midway d id S₀ ((lockStep d s a).rows id) ((lockStep d s a).calls p)) : ∃ es, Follows d id s a S₀ es := by
  refine ⟨[], List.forall_mem_nil _, by rw [hends]; exact .nil, ?_⟩
  apply serial_of_alone (p := p)
  · intro q hq
    rw [hothers q hq]
    exact alone hheld hp hq
  · intro hout
    exact absurd hnext hout
  · intro _
    exact hmid

/-- A step that ends a call outside the lock. -/
theorem follows_of_locked_out {told : Option (Except ClientErr Bool)} (e : ClientErr) (hserial : Serial d id s S₀)
    (hp : (s.calls p).drawer = none) (hends : endsIn d id s a = some (c, told)) (htold : ∀ x ∈ told, x = .error e)
    (hnext : ((lockStep d s a).calls p).drawer = none) (hothers : ∀ q, q ≠ p → (lockStep d s a).calls q = s.calls q)
    (hrows : (lockStep d s a).rows = s.rows) : ∃ es, Follows d id s a S₀ es := by
  obtain ⟨replies, hreplies, hrun⟩ := locked_out d id c S₀ e
  refine ⟨[.call c replies], ?_, ?_, ?_⟩
  · intro e he
    rw [List.mem_singleton.1 he]
    exact hreplies
  · simp only [hends, resultsOf, hrun, Option.toList_some]
    exact .cons ⟨rfl, htold⟩ .nil
  · simp only [run_cons, run_nil, lifecycleStep, hrun]
    apply hserial.same (by rw [hrows])
    rintro q (hq | hq)
    · apply hothers q
      rintro rfl
      rw [hnext] at hq
      cases hq
    · apply hothers q
      rintro rfl
      rw [hp] at hq
      cases hq

/-- A step that ends no call on the row, changes nothing of the row, and neither enters nor leaves it. -/
theorem follows_of_same (hserial : Serial d id s S₀) (hends : endsIn d id s a = none)
    (hrows : (lockStep d s a).rows id = s.rows id)
    (hcalls : ∀ q, ((lockStep d s a).calls q).drawer = some id ∨ (s.calls q).drawer = some id →
      (lockStep d s a).calls q = s.calls q) : ∃ es, Follows d id s a S₀ es :=
  ⟨[], List.forall_mem_nil _, by rw [hends]; exact .nil, hserial.same hrows hcalls⟩

/-- Somebody writes the row without the lock. -/
theorem write_follows (hheld : LocksHeld s) (hserial : Serial d id s S₀) (hf : KeepsTags f) :
    ∃ es, Follows d id s (.write id f) S₀ es := by
  have hrow : (lockStep d s (.write id f)).rows id = f (s.rows id) := onRow_self
  have hcalls : (lockStep d s (.write id f)).calls = s.calls := rfl
  by_cases hnobody : ∀ p, (s.calls p).drawer ≠ some id
  · refine ⟨[.write (onRow id f)], ?_, .nil, ?_, ?_⟩
    · intro e he
      rw [List.mem_singleton.1 he]
      exact hf.metadataOnly
    · intro _
      rw [hrow, ← hserial.quiet hnobody]
      exact onRow_self
    · intro p hp
      rw [hcalls] at hp
      exact absurd hp (hnobody p)
  · obtain ⟨p, hp⟩ := not_forall.1 hnobody
    rw [not_not] at hp
    have hmid := hserial.midway p hp
    have hstay : Midway d id S₀ (f (s.rows id)) (s.calls p) → ∃ es, Follows d id s (.write id f) S₀ es := by
      intro h
      refine follows_of_stay hheld hp rfl (by rw [hcalls]; exact hp) (fun _ _ => by rw [hcalls]) ?_
      rw [hrow, hcalls]
      exact h
    cases hc : s.calls p with
    | getting c id' left =>
      rw [hc] at hp hmid hstay
      obtain rfl : id' = id := Option.some.inj hp
      match left with
      | 0 =>
        obtain ⟨S, hS, hrows⟩ := hmid
        exact hstay ⟨onRow id' f S, hS.write hf, by rw [onRow_self, hrows]⟩
      | 1 =>
        -- nothing has been read yet: the write comes before the call
        obtain ⟨S, rfl, hrows⟩ := hmid
        refine ⟨[.write (onRow id' f)], ?_, .nil, ?_⟩
        · intro e he
          rw [List.mem_singleton.1 he]
          exact hf.metadataOnly
        · have hin : (s.calls p).drawer = some id' := by rw [hc]; rfl
          apply serial_of_alone (p := p) <;> rw [hcalls]
          · intro q hq
            exact alone hheld hin hq
          · intro hout
            exact absurd hin hout
          · intro _
            rw [hc, hrow]
            exact ⟨_, rfl, by rw [← hrows]; exact onRow_self⟩
      | _ + 2 => exact hmid.choose_spec.1.elim
    | putting c id' left kept newTags delta =>
      rw [hc] at hp hmid hstay
      obtain rfl : id' = id := Option.some.inj hp
      obtain ⟨S, got, now, g, hS, hgot, htags, hkept, hdelta, hg, hrows⟩ := hmid
      exact hstay ⟨S, got, now, fun o => f (g o), hS, hgot, htags, hkept, hdelta, hf.comp hg, by rw [← hrows]⟩
    | verifying c id' left kept =>
      rw [hc] at hp hmid hstay
      obtain rfl : id' = id := Option.some.inj hp
      obtain ⟨S, r, S', g, hS, hothers, hattempt, hverified, hg, hrows⟩ := hmid
      exact hstay ⟨S, r, S', fun o => f (g o), hS, hothers, hattempt, hverified, hf.comp hg, by rw [← hrows]⟩
    | _ =>
      rw [hc] at hp
      cases hp

theorem answered_elsewhere {call next : TagCall} (hcall : ∀ c, call.target ≠ some (c, id)) :
    answered id call next = none := by
  unfold answered
  cases htarget : call.target with
  | none => rfl
  | some target =>
    obtain ⟨c, id'⟩ := target
    have hne : id' ≠ id := fun h => hcall c (by rw [htarget, h])
    simp only [if_neg hne]

/-- A call on another row. -/
theorem advanceCall_elsewhere {free : String → Bool} {rows : RowStore} {call : TagCall}
    (hcall : ∀ c, call.target ≠ some (c, id)) :
    (advanceCall d free rows i call).1 id = rows id ∧ (advanceCall d free rows i call).2.drawer ≠ some id := by
  have hagain : ∀ {c : LifecycleCall} {id' : String} {left : Nat}, id' ≠ id → (again c id' left).drawer ≠ some id := by
    rintro c id' (- | left) hne h
    · cases h
    · exact hne (Option.some.inj h)
  cases call with
  | idle => exact ⟨rfl, by simp [advanceCall, TagCall.drawer]⟩
  | ended => exact ⟨rfl, by simp [advanceCall, TagCall.drawer]⟩
  | opening c id' =>
    refine ⟨rfl, ?_⟩
    show (advanceOpening i c id').drawer ≠ _
    unfold advanceOpening
    split <;> simp [TagCall.drawer]
  | waiting c id' start =>
    refine ⟨rfl, ?_⟩
    show (advanceWaiting free i c id' start).drawer ≠ _
    unfold advanceWaiting
    split
    · exact fun h => hcall c (by rw [← Option.some.inj h]; rfl)
    · split <;> simp [TagCall.drawer]
  | getting c id' left =>
    refine ⟨rfl, ?_⟩
    show (advanceGetting d rows i c id' left).drawer ≠ _
    unfold advanceGetting
    split
    · simp [TagCall.drawer]
    · split
      · simp [TagCall.drawer]
      · split
        · simp [TagCall.drawer]
        · exact fun h => hcall c (by rw [← Option.some.inj h]; rfl)
  | putting c id' left kept newTags delta =>
    have hne : id' ≠ id := fun h => hcall c (by rw [← h]; rfl)
    constructor
    · show (rows.put id' newTags delta i.reply).1 id = _
      rw [put_applied]
      split
      · rw [RowStore.update, if_neg hne.symm]
      · rfl
    · show (advancePutting rows i c id' left kept newTags delta).2.drawer ≠ _
      unfold advancePutting
      simp only
      split
      · simp [TagCall.drawer]
      · exact hagain hne
      · exact fun h => hne (Option.some.inj h)
  | verifying c id' left kept =>
    have hne : id' ≠ id := fun h => hcall c (by rw [← h]; rfl)
    refine ⟨rfl, ?_⟩
    show (advanceVerifying d rows i c id' left kept).drawer ≠ _
    unfold advanceVerifying
    split
    · simp [TagCall.drawer]
    · simp [TagCall.drawer]
    · exact hagain hne

theorem target_of_drawer {call : TagCall} (h : call.drawer = some id) : ∃ c, call.target = some (c, id) := by
  cases call <;> cases h <;> exact ⟨_, rfl⟩

theorem elsewhere_follows (hserial : Serial d id s S₀) (hcall : ∀ c, (s.calls p).target ≠ some (c, id)) :
    ∃ es, Follows d id s (.advance p i) S₀ es := by
  obtain ⟨hrows, hnext⟩ :
      (advanceCall d (fun k => (s.holder k).isNone) s.rows i (s.calls p)).1 id = s.rows id ∧
        (advanceCall d (fun k => (s.holder k).isNone) s.rows i (s.calls p)).2.drawer ≠ some id :=
    advanceCall_elsewhere hcall
  apply follows_of_same hserial
  · exact answered_elsewhere hcall
  · exact hrows
  · intro q hq
    apply advance_other
    rintro rfl
    rw [advance_self] at hq
    rcases hq with hq | hq
    · exact hnext hq
    · obtain ⟨c, hc⟩ := target_of_drawer hq
      exact hcall c hc

theorem opening_follows (hserial : Serial d id s S₀) (hc : s.calls p = .opening c id) :
    ∃ es, Follows d id s (.advance p i) S₀ es := by
  have hnext : (lockStep d s (.advance p i)).calls p = advanceOpening i c id := by
    rw [advance_self, hc]
    rfl
  have hrows : (lockStep d s (.advance p i)).rows = s.rows := by
    rw [advance_rows, hc]
    rfl
  have hdrawer : (s.calls p).drawer = none := by rw [hc]; rfl
  have htarget : (s.calls p).target = some (c, id) := by rw [hc]; rfl
  unfold advanceOpening at hnext
  cases hfault : i.fault with
  | some e =>
    rw [hfault] at hnext
    refine follows_of_locked_out e hserial hdrawer (endsIn_advance htarget hnext) (fun x hx => ?_) ?_ (fun q => advance_other)
      hrows
    · exact (Option.some.inj hx).symm
    · rw [hnext]
      rfl
  | none =>
    rw [hfault] at hnext
    apply follows_of_same hserial
    · simp only [endsIn, answered, htarget, hnext, if_true]
    · rw [hrows]
    · rintro q (hq | hq) <;> refine advance_other ?_ <;> rintro rfl
      · rw [hnext] at hq
        cases hq
      · rw [hdrawer] at hq
        cases hq

/-- A call gets the lock where nobody is in the middle of the row. -/
theorem waiting_follows {start : Nat} (hheld : LocksHeld s) (hserial : Serial d id s S₀) (hc : s.calls p = .waiting c id start) :
    ∃ es, Follows d id s (.advance p i) S₀ es := by
  have hnext : (lockStep d s (.advance p i)).calls p = advanceWaiting (fun k => (s.holder k).isNone) i c id start := by
    rw [advance_self, hc]
    rfl
  have hrows : (lockStep d s (.advance p i)).rows = s.rows := by
    rw [advance_rows, hc]
    rfl
  have hdrawer : (s.calls p).drawer = none := by rw [hc]; rfl
  have htarget : (s.calls p).target = some (c, id) := by rw [hc]; rfl
  unfold advanceWaiting at hnext
  by_cases hfree : (s.holder (lockPath id)).isNone = true
  · rw [if_pos hfree] at hnext
    have hnobody : ∀ q, (s.calls q).drawer ≠ some id := by
      intro q hq
      refine hheld.free_iff.1 (Option.isNone_iff_eq_none.1 hfree) q ?_
      rw [TagCall.inside, hq, Option.map_some]
    refine ⟨[], List.forall_mem_nil _, ?_, ?_⟩
    · simp only [endsIn, answered, htarget, hnext, if_true]
      exact .nil
    · apply serial_of_alone (p := p)
      · intro q hq
        rw [advance_other hq]
        exact hnobody q
      · intro hout
        rw [hnext] at hout
        exact absurd rfl hout
      · intro _
        rw [hnext, hrows]
        exact ⟨S₀, rfl, hserial.quiet hnobody⟩
  · rw [if_neg hfree] at hnext
    split at hnext
    · refine follows_of_locked_out (tagLockTimeout id) hserial hdrawer (endsIn_advance htarget hnext) (fun x hx => ?_) ?_
        (fun q => advance_other) hrows
      · exact (Option.some.inj hx).symm
      · rw [hnext]
        rfl
    · apply follows_of_same hserial
      · simp only [endsIn, answered, htarget, hnext, if_true]
      · rw [hrows]
      · rintro q (hq | hq) <;> refine advance_other ?_ <;> rintro rfl
        · rw [hnext] at hq
          cases hq
        · rw [hdrawer] at hq
          cases hq

/-- A call inside the lock takes its next step: what is to be shown of the row and of where the call is then. -/
theorem inside_follows (hheld : LocksHeld s) (hcall : (s.calls p).target = some (c, id)) (hp : (s.calls p).drawer = some id)
    (h : (∃ result, (lockStep d s (.advance p i)).calls p = .ended result ∧ ∃ S' g, KeepsTags g ∧
        g (S' id) = (lockStep d s (.advance p i)).rows id ∧
        ∃ replies, (LifecycleEvent.call c replies).MetadataOnly id ∧ c.run d id replies S₀ = (S', result)) ∨
      ((lockStep d s (.advance p i)).calls p).drawer = some id ∧
        Midway d id S₀ ((lockStep d s (.advance p i)).rows id) ((lockStep d s (.advance p i)).calls p)) :
    ∃ es, Follows d id s (.advance p i) S₀ es := by
  rcases h with ⟨result, hnext, S', g, hg, hrow, hrun⟩ | ⟨hin, hmid⟩
  · refine follows_of_end hheld hp (endsIn_advance hcall hnext) ?_ (fun q => advance_other) hrun (fun x hx => ?_) hg hrow
    · rw [hnext]
      rfl
    · exact (Option.some.inj hx).symm
  · refine follows_of_stay hheld hp ?_ hin (fun q => advance_other) hmid
    show answered id (s.calls p) ((lockStep d s (.advance p i)).calls p) = none
    generalize (lockStep d s (.advance p i)).calls p = next at hin
    cases next with
    | idle => cases hin
    | ended => cases hin
    | _ => simp only [answered, hcall, if_true]

theorem getting_follows (hheld : LocksHeld s) (hserial : Serial d id s S₀) (hc : s.calls p = .getting c id left) :
    ∃ es, Follows d id s (.advance p i) S₀ es := by
  have hnext : (lockStep d s (.advance p i)).calls p = advanceGetting d s.rows i c id left := by
    rw [advance_self, hc]
    rfl
  have hrows : (lockStep d s (.advance p i)).rows = s.rows := by
    rw [advance_rows, hc]
    rfl
  have hp : (s.calls p).drawer = some id := by rw [hc]; rfl
  have hmid := hserial.midway p hp
  rw [hc] at hmid
  obtain ⟨S, hS, hrow⟩ := hmid
  apply inside_follows hheld (by rw [hc]; rfl) hp
  rw [hrows, ← hrow]
  unfold advanceGetting at hnext
  cases hfault : i.fault with
  | some e =>
    rw [hfault] at hnext
    have hattempt : attempt d c.transition id ⟨i.utc, some e, fun st => st, .unsuccessful, none⟩ S = (S, .raised e) := rfl
    exact .inl ⟨_, hnext, S, _, keepsTags_id, rfl, hS.ends metadataOnly_id hattempt (.inl (by simp))⟩
  | none =>
    rw [hfault] at hnext
    cases hgot : S id with
    | none =>
      rw [← hrow, hgot] at hnext
      have hattempt : attempt d c.transition id ⟨i.utc, none, fun st => st, .unsuccessful, none⟩ S = (S, .notFound) := by
        simp only [attempt, hgot]
      exact .inl ⟨_, hnext, S, _, keepsTags_id, hgot, hS.ends metadataOnly_id hattempt (.inl (by simp))⟩
    | some got =>
      rw [← hrow, hgot] at hnext
      cases htags : c.transition.newTags d got.tags with
      | error e =>
        simp only [htags] at hnext
        have hattempt : attempt d c.transition id ⟨i.utc, none, fun st => st, .unsuccessful, none⟩ S = (S, .raised (.py e)) := by
          unfold TagTransition.newTags TagTransition.kept at htags
          simp only [attempt, hgot, htags]
        exact .inl ⟨_, hnext, S, _, keepsTags_id, hgot, hS.ends metadataOnly_id hattempt (.inl (by simp))⟩
      | ok newTags =>
        simp only [htags] at hnext
        right
        rw [hnext]
        exact ⟨rfl, S, got, i.utc, _, hS, hgot, htags, rfl, rfl, keepsTags_id, rfl⟩

theorem update_self (st : RowStore) (tags : List Json) (delta : Dict) :
    st.update id tags delta id = (st id).map fun r => { r with tags, metadata := Dict.merge r.metadata delta } := if_pos rfl

theorem putting_follows {delta : Dict} (hheld : LocksHeld s) (hserial : Serial d id s S₀) (htext : Textual (s.rows id))
    (hc : s.calls p = .putting c id left kept newTags delta) : ∃ es, Follows d id s (.advance p i) S₀ es := by
  have hnext : (lockStep d s (.advance p i)).calls p = (advancePutting s.rows i c id left kept newTags delta).2 := by
    rw [advance_self, hc]
    rfl
  have hrows : (lockStep d s (.advance p i)).rows = (s.rows.put id newTags delta i.reply).1 := by
    rw [advance_rows, hc]
    rfl
  have hp : (s.calls p).drawer = some id := by rw [hc]; rfl
  have hmid := hserial.midway p hp
  rw [hc] at hmid
  obtain ⟨S, got, now, f, hS, hgot, htags, rfl, rfl, hf, hrow⟩ := hmid
  obtain ⟨r, hr, hrtags⟩ := hf.row got
  have hwindow : onRow id f S id = some r := by rw [onRow_self, hgot, hr]
  have hhere : s.rows id = some r := hrow ▸ hr
  apply inside_follows hheld (by rw [hc]; rfl) hp
  rw [hrows]
  unfold advancePutting at hnext
  have hattempt := fun verify => attempt_put i.reply now verify hgot htags hf
  cases hreply : i.reply with
  | refused e =>
    simp only [hreply, RowStore.put] at hnext hattempt ⊢
    exact .inl ⟨_, hnext, _, _, keepsTags_id, hwindow.trans hhere.symm, hS.ends hf.metadataOnly (hattempt none) (.inl (by simp))⟩
  | lost e =>
    simp only [hreply, RowStore.put] at hnext hattempt ⊢
    refine .inl ⟨_, hnext, _, _, keepsTags_id, ?_, hS.ends hf.metadataOnly (hattempt none) (.inl (by simp))⟩
    rw [update_self, update_self, hwindow, hhere]
  | unsuccessful =>
    simp only [hreply, RowStore.put] at hnext hattempt ⊢
    cases left with
    | zero =>
      exact .inl ⟨_, hnext, _, _, keepsTags_id, hwindow.trans hhere.symm, hS.ends hf.metadataOnly (hattempt none) (.inr rfl)⟩
    | succ left =>
      right
      rw [hnext]
      exact ⟨rfl, _, hS.retry hf hgot htags, hwindow.trans hhere.symm⟩
  | updated =>
    simp only [hreply, RowStore.put, hhere, Option.isSome_some, if_true] at hnext hattempt ⊢
    have hput : ((onRow id f S).update id newTags (c.transition.metaDelta now got.metadata)) id =
        s.rows.update id newTags (c.transition.metaDelta now got.metadata) id := by
      rw [update_self, update_self, hwindow, hhere]
    have hverified : verified d c.transition (c.transition.kept d got.tags)
        ((onRow id f S).update id newTags (c.transition.metaDelta now got.metadata)) id none = .ok true := by
      apply verified_put (fun t ht => htext r hhere t (hrtags ▸ ht)) htags
      · rw [update_self, hwindow, Option.map_some]
      · rfl
    right
    rw [hnext]
    refine ⟨rfl, S, ⟨now, none, onRow id f, .updated, none⟩, _, fun o => o, hS, hf.metadataOnly, ?_, hverified, keepsTags_id, hput⟩
    intro verify
    rw [hattempt verify]
    cases verify with
    | none =>
      simp only [hverified]
      rfl
    | some e => rfl

theorem verifying_follows (hheld : LocksHeld s) (hserial : Serial d id s S₀) (hc : s.calls p = .verifying c id left kept) :
    ∃ es, Follows d id s (.advance p i) S₀ es := by
  have hnext : (lockStep d s (.advance p i)).calls p = advanceVerifying d s.rows i c id left kept := by
    rw [advance_self, hc]
    rfl
  have hrows : (lockStep d s (.advance p i)).rows = s.rows := by
    rw [advance_rows, hc]
    rfl
  have hp : (s.calls p).drawer = some id := by rw [hc]; rfl
  have hmid := hserial.midway p hp
  rw [hc] at hmid
  obtain ⟨S, r, S', g, hS, hothers, hattempt, hverified, hg, hrow⟩ := hmid
  -- the writes since the PUT have left what the re-GET looks at
  have hsame : verified d c.transition kept s.rows id none = .ok true := by
    cases hS' : S' id with
    | none => simp [verified, hS'] at hverified
    | some r' =>
      obtain ⟨r'', hr'', htags⟩ := hg.row r'
      have hhere : s.rows id = some r'' := by rw [← hrow, hS', hr'']
      simp only [verified, hS'] at hverified
      simp only [verified, hhere, htags]
      exact hverified
  apply inside_follows hheld (by rw [hc]; rfl) hp
  rw [hrows]
  unfold advanceVerifying at hnext
  cases hfault : i.fault with
  | some e =>
    rw [hfault] at hnext
    exact .inl ⟨_, hnext, S', g, hg, hrow, hS.ends (r := { r with verify := some e }) hothers (hattempt (some e)) (.inl nofun)⟩
  | none =>
    rw [hfault, hsame] at hnext
    exact .inl ⟨_, hnext, S', g, hg, hrow, hS.ends (r := { r with verify := none }) hothers (hattempt none) (.inl nofun)⟩

theorem advance_follows (hheld : LocksHeld s) (hserial : Serial d id s S₀) (htext : Textual (s.rows id)) :
    ∃ es, Follows d id s (.advance p i) S₀ es := by
  by_cases hcall : ∃ c, (s.calls p).target = some (c, id)
  · obtain ⟨c, hcall⟩ := hcall
    cases hc : s.calls p <;> rw [hc] at hcall <;> cases hcall
    · exact opening_follows hserial hc
    · exact waiting_follows hheld hserial hc
    · exact getting_follows hheld hserial hc
    · exact putting_follows hheld hserial htext hc
    · exact verifying_follows hheld hserial hc
  · exact elsewhere_follows hserial (not_exists.1 hcall)

/-- A process dies: its call ends where it is. -/
theorem crash_follows (hheld : LocksHeld s) (hserial : Serial d id s S₀) : ∃ es, Follows d id s (.crash p) S₀ es := by
  have hnext : (lockStep d s (.crash p)).calls p = .idle := Function.update_self ..
  have hother : ∀ q, q ≠ p → (lockStep d s (.crash p)).calls q = s.calls q := fun q hq => Function.update_of_ne hq ..
  have hrows : (lockStep d s (.crash p)).rows = s.rows := rfl
  have hout : ((lockStep d s (.crash p)).calls p).drawer = none := by rw [hnext]; rfl
  by_cases hcall : ∃ c, (s.calls p).target = some (c, id)
  · obtain ⟨c, hcall⟩ := hcall
    have hends : endsIn d id s (.crash p) = some (c, none) := by simp only [endsIn, answered, hcall, hnext, if_true]
    -- the call in one piece raises where this one stops
    let e : ClientErr := .http "killed"
    by_cases hp : (s.calls p).drawer = some id
    · have hmid := hserial.midway p hp
      cases hc : s.calls p <;> rw [hc] at hcall hp hmid <;> cases hcall
      · cases hp
      · cases hp
      · obtain ⟨S, hS, hrow⟩ := hmid
        have hattempt : attempt d c.transition id ⟨sampleUtcIso, some e, fun st => st, .unsuccessful, none⟩ S = (S, .raised e) :=
          rfl
        refine follows_of_end hheld (by rw [hc]; exact hp) hends hout hother (hS.ends metadataOnly_id hattempt (.inl nofun)) nofun
          keepsTags_id ?_
        rw [hrows, hrow]
      · obtain ⟨S, got, now, f, hS, hgot, htags, rfl, rfl, hf, hrow⟩ := hmid
        have hattempt := attempt_put (.refused e) now none hgot htags hf
        refine follows_of_end hheld (by rw [hc]; exact hp) hends hout hother (hS.ends hf.metadataOnly hattempt (.inl nofun)) nofun
          keepsTags_id ?_
        rw [hrows, onRow_self, hgot, hrow]
      · obtain ⟨S, r, S', g, hS, hothers, hattempt, -, hg, hrow⟩ := hmid
        exact follows_of_end hheld (by rw [hc]; exact hp) hends hout hother
          (hS.ends (r := { r with verify := none }) hothers (hattempt none) (.inl nofun)) nofun hg hrow
    · have hdrawer : (s.calls p).drawer = none := by
        cases hc : s.calls p <;> rw [hc] at hcall hp <;> cases hcall
        · rfl
        · rfl
        · exact absurd rfl hp
        · exact absurd rfl hp
        · exact absurd rfl hp
      exact follows_of_locked_out e hserial hdrawer hends nofun hout hother hrows
  · have hends : endsIn d id s (.crash p) = none := answered_elsewhere (not_exists.1 hcall)
    apply follows_of_same hserial hends (by rw [hrows])
    rintro q (hq | hq) <;> refine hother q ?_ <;> rintro rfl
    · rw [hout] at hq
      cases hq
    · exact hcall (target_of_drawer hq)

/-- **Every step of the interleaved calls is a step of calls in one piece.** -/
theorem serial_step (hheld : LocksHeld s) (hserial : Serial d id s S₀) (htext : Textual (s.rows id)) (ha : a.KeepsTags id) :
    ∃ es, Follows d id s a S₀ es := by
  cases a with
  | advance p i => exact advance_follows hheld hserial htext
  | crash p => exact crash_follows hheld hserial
  | write id' f =>
    by_cases hid : id' = id
    · subst hid
      exact write_follows hheld hserial (ha rfl)
    · exact follows_of_same hserial rfl (if_neg (Ne.symm hid)) fun _ _ => rfl
  | start p c id' =>
    have hstart : lockStep d s (.start p c id') = if (s.calls p).free then s.move p (.opening c id') else s := rfl
    by_cases hfree : (s.calls p).free = true
    · rw [if_pos hfree] at hstart
      apply follows_of_same hserial rfl (by rw [hstart]; rfl)
      rintro q (hq | hq) <;> rw [hstart] at * <;> refine Function.update_of_ne ?_ .. <;> rintro rfl
      · simp [LockSystem.move, TagCall.drawer] at hq
      · generalize s.calls q = call at hfree hq
        cases call <;> cases hfree <;> cases hq
    · rw [if_neg hfree] at hstart
      exact follows_of_same hserial rfl (by rw [hstart]) fun _ _ => by rw [hstart]

/-! ## Runs -/

theorem resultsOf_append {es es' : List LifecycleEvent} :
    resultsOf d id S (es ++ es') = resultsOf d id S es ++ resultsOf d id (run (lifecycleStep d id) S es) es' := by
  induction es generalizing S with
  | nil => rfl
  | cons e es ih =>
    cases e with
    | call c replies => exact congrArg _ ih
    | write f => exact ih

theorem retag_textual {tags : List Json} (h : ∀ t ∈ tags, ∃ u, t = .str u) (c : LifecycleCall) :
    ∀ t ∈ retag d tags c, ∃ u, t = .str u := by
  unfold retag
  split
  · next tags' htags =>
    intro t ht
    rw [(fromKeys_ok_iff.1 htags).2] at ht
    rcases List.mem_append.1 ((KeepFirst.mem_keepFirst ht).resolve_left List.not_mem_nil) with ht | ht
    · exact h t (List.mem_filter.1 ht).1
    · obtain ⟨u, -, rfl⟩ := List.mem_map.1 ht
      exact ⟨u, rfl⟩
  · exact h

theorem textual_step (hcur : ReadsCurrent d id s) (ha : a.KeepsTags id) (h : Textual (s.rows id)) :
    Textual ((lockStep d s a).rows id) := by
  intro r hr
  have hstep := tags_step hcur ha
  rw [hr] at hstep
  obtain ⟨r₀, hr₀, hfold⟩ := Option.map_eq_some_iff.1 hstep.symm
  have htags : r.tags = (applied id s a).toList.foldl (retag d) r₀.tags := hfold.symm
  rw [htags]
  cases applied id s a with
  | none => exact h r₀ hr₀
  | some c => exact retag_textual (h r₀ hr₀) c

/-- **The rule for runs** whose other writers leave the tags. -/
theorem lockRun_inv {I : LockSystem → Prop} {as : List LockAction}
    (hstep : ∀ s a, ReadsCurrent d id s → a.KeepsTags id → I s → I (lockStep d s a)) (hall : ∀ a ∈ as, a.KeepsTags id)
    (hheld : LocksHeld s) (hcur : ReadsCurrent d id s) (h : I s) :
    LocksHeld (run (lockStep d) s as) ∧ ReadsCurrent d id (run (lockStep d) s as) ∧ I (run (lockStep d) s as) := by
  have halong : Along (lockStep d) (fun _ a => a.KeepsTags id) s as :=
    along_iff.2 fun pre a post has => hall a (by simp [has])
  apply run_inv_along (I := fun s => LocksHeld s ∧ ReadsCurrent d id s ∧ I s) ?_ ⟨hheld, hcur, h⟩ halong
  rintro s a ⟨hheld, hcur, h⟩ ha
  exact ⟨locksHeld_step hheld a, readsCurrent_step hheld hcur ha, hstep s a hcur ha h⟩

/-- **The interleaving has no effect of its own.** For every interleaving of the requests of any number of calls, on this row and
on others, with lock timeouts, failed requests, lost answers and crashes anywhere, and of writers that leave the tags: there is a
run that makes each call on the row in one piece, in the order in which they ended, each with the result its caller was told;
and whenever no call is in the middle of the row, the row is what that run has left. -/
theorem calls_serialized (d : Deployment) (rows : RowStore) (id : String) (as : List LockAction)
    (hothers : ∀ a ∈ as, a.KeepsTags id) (htext : Textual (rows id)) :
    ∃ es : List LifecycleEvent, (∀ e ∈ es, e.MetadataOnly id) ∧
      List.Forall₂ Told (answersIn d id (.initial rows) as) (resultsOf d id rows es) ∧
      ((∀ p, ((run (lockStep d) (.initial rows) as).calls p).drawer ≠ some id) →
        run (lifecycleStep d id) rows es id = (run (lockStep d) (.initial rows) as).rows id) := by
  have hrun : ∀ (as : List LockAction) (s : LockSystem) (S : RowStore), (∀ a ∈ as, a.KeepsTags id) → LocksHeld s →
      ReadsCurrent d id s → Textual (s.rows id) → Serial d id s S →
        ∃ es : List LifecycleEvent, (∀ e ∈ es, e.MetadataOnly id) ∧
          List.Forall₂ Told (answersIn d id s as) (resultsOf d id S es) ∧
          Serial d id (run (lockStep d) s as) (run (lifecycleStep d id) S es) := by
    intro as
    induction as with
    | nil =>
      intro s S _ _ _ _ hserial
      exact ⟨[], List.forall_mem_nil _, .nil, hserial⟩
    | cons a as ih =>
      intro s S hall hheld hcur htext hserial
      obtain ⟨ha, hrest⟩ := List.forall_mem_cons.1 hall
      obtain ⟨es, hes, htold, hnext⟩ := serial_step hheld hserial htext ha
      obtain ⟨es', hes', htold', hend⟩ := ih _ _ hrest (locksHeld_step hheld a) (readsCurrent_step hheld hcur ha)
        (textual_step hcur ha htext) hnext
      refine ⟨es ++ es', ?_, ?_, ?_⟩
      · intro e he
        exact (List.mem_append.1 he).elim (hes e) (hes' e)
      · rw [resultsOf_append]
        exact List.rel_append htold htold'
      · rw [run_cons, run_append]
        exact hend
  have hstart : Serial d id (.initial rows) rows := ⟨fun _ => rfl, nofun⟩
  obtain ⟨es, hes, htold, hend⟩ := hrun as _ rows hothers (locksHeld_initial rows) nofun htext hstart
  exact ⟨es, hes, htold, hend.quiet⟩

theorem calls_serialized_sample :
    ∃ es : List LifecycleEvent, (∀ e ∈ es, e.MetadataOnly "a") ∧
      List.Forall₂ Told (answersIn sampleDeployment "a" (.initial agedRows) sharedRun) (resultsOf sampleDeployment "a" agedRows es) ∧
      ((∀ p, ((run (lockStep sampleDeployment) (.initial agedRows) sharedRun).calls p).drawer ≠ some "a") →
        run (lifecycleStep sampleDeployment "a") agedRows es "a" =
          (run (lockStep sampleDeployment) (.initial agedRows) sharedRun).rows "a") := by
  apply calls_serialized sampleDeployment agedRows "a" sharedRun sharedRun_keepsTags
  intro r hr t ht
  cases hr
  simp only [agedRow, List.mem_cons, List.not_mem_nil, or_false] at ht
  rcases ht with rfl | rfl <;> exact ⟨_, rfl⟩

/-! ## What `True` means from then on -/

/-- A call that returns `True` has just seen what it wanted. -/
theorem endsIn_true (h : endsIn d id s a = some (c, some (.ok true))) :
    ∃ r, s.rows id = some r ∧ ∀ u ∈ c.transition.addTags, .str u ∈ r.tags := by
  cases a with
  | start => cases h
  | write => cases h
  | crash p =>
    have hnext : (lockStep d s (.crash p)).calls p = .idle := Function.update_self ..
    simp only [endsIn, answered, hnext] at h
    split at h
    · split at h <;> cases h
    · cases h
  | advance p i =>
    have hagain : ∀ {c' : LifecycleCall} {id' : String} {left : Nat}, again c' id' left ≠ .ended (.ok true) := by
      rintro c' id' (- | left) h <;> cases h
    have hends : (s.calls p).target = some (c, id) ∧
        (advanceCall d (fun k => (s.holder k).isNone) s.rows i (s.calls p)).2 = .ended (.ok true) := by
      simp only [endsIn, answered, advance_self] at h
      split at h
      · next c' id' htarget =>
        split at h
        · next hid =>
          split at h
          · next result hnext =>
            cases h
            exact ⟨hid ▸ htarget, hnext⟩
          · cases h
          · cases h
        · cases h
      · cases h
    obtain ⟨htarget, hnext⟩ := hends
    cases hc : s.calls p with
    | idle =>
      rw [hc] at htarget
      cases htarget
    | ended =>
      rw [hc] at htarget
      cases htarget
    | opening c' id' =>
      rw [hc] at hnext
      change advanceOpening i c' id' = _ at hnext
      unfold advanceOpening at hnext
      split at hnext <;> cases hnext
    | waiting c' id' start =>
      rw [hc] at hnext
      change advanceWaiting (fun k => (s.holder k).isNone) i c' id' start = _ at hnext
      unfold advanceWaiting at hnext
      split at hnext
      · cases hnext
      · split at hnext <;> cases hnext
    | getting c' id' left =>
      rw [hc] at hnext
      change advanceGetting d s.rows i c' id' left = _ at hnext
      unfold advanceGetting at hnext
      split at hnext
      · cases hnext
      · split at hnext
        · cases hnext
        · split at hnext <;> cases hnext
    | putting c' id' left kept newTags delta =>
      rw [hc] at hnext
      change (advancePutting s.rows i c' id' left kept newTags delta).2 = _ at hnext
      unfold advancePutting at hnext
      simp only at hnext
      split at hnext
      · cases hnext
      · exact absurd hnext hagain
      · cases hnext
    | verifying c' id' left kept =>
      rw [hc] at htarget hnext
      cases htarget
      change advanceVerifying d s.rows i c id left kept = _ at hnext
      unfold advanceVerifying at hnext
      split at hnext
      · cases hnext
      · next hverified =>
        unfold verified at hverified
        split at hverified
        · cases hverified
        · split at hverified
          · cases hverified
          · next r hr =>
            simp only [Except.ok.injEq, Bool.and_eq_true, List.all_eq_true] at hverified
            refine ⟨r, hr, fun u hu => ?_⟩
            obtain ⟨t, ht, he⟩ := List.any_eq_true.1 (hverified.1.1 u hu)
            exact tagEq_str.1 he ▸ ht
      · exact absurd hnext hagain

/-- No step takes the tag of a denied status off. -/
theorem tagged_step {u : String} (hu : denied u) (hcur : ReadsCurrent d id s) (ha : a.KeepsTags id)
    (h : Tagged id u s.rows) : Tagged id u (lockStep d s a).rows := by
  obtain ⟨r₀, hr₀, htag⟩ := h
  have hstep := tags_step hcur ha
  rw [hr₀] at hstep
  obtain ⟨r, hr, htags⟩ := Option.map_eq_some_iff.1 hstep
  refine ⟨r, hr, ?_⟩
  rw [htags]
  cases applied id s a with
  | none => exact htag
  | some c =>
    show _ ∈ retag d r₀.tags c
    unfold retag
    split
    · next hnew => exact str_mem_newTags hnew (.inl ⟨htag, LifecycleCall.not_dropped hu⟩)
    · exact htag

/-- **`True` lasts.** For every interleaving: once a `tombstone` or a `supersede` has returned `True`, the row is there and recall
leaves it out in every state from then on, whatever else is still going on and whoever dies. -/
theorem denied_lasts (d : Deployment) (rows : RowStore) (id : String) (c : LifecycleCall) (pre post : List LockAction)
    (a : LockAction) (hothers : ∀ a' ∈ pre ++ a :: post, a'.KeepsTags id) (hstatus : c.status.isSome = true)
    (htrue : endsIn d id (run (lockStep d) (.initial rows) pre) a = some (c, some (.ok true))) :
    Excluded d id (run (lockStep d) (.initial rows) (pre ++ a :: post)).rows := by
  obtain ⟨u, hu, hadd⟩ := c.added hstatus
  have hdenied : denied u := c.status_denied hu
  have hpre : ∀ a' ∈ pre, a'.KeepsTags id := fun a' ha' => hothers a' (List.mem_append_left _ ha')
  have hpost : ∀ a' ∈ a :: post, a'.KeepsTags id := fun a' ha' => hothers a' (List.mem_append_right _ ha')
  obtain ⟨hheld, hcur, -⟩ := lockRun_inv (d := d) (I := fun _ => True) (fun _ _ _ _ _ => trivial) hpre (locksHeld_initial rows)
    nofun trivial
  obtain ⟨r, hr, htags⟩ := endsIn_true htrue
  obtain ⟨-, -, htagged⟩ := lockRun_inv (I := fun s => Tagged id u s.rows) (fun _ _ hcur ha h => tagged_step hdenied hcur ha h)
    hpost hheld hcur ⟨r, hr, htags _ hadd⟩
  rw [run_append]
  exact htagged.excluded hdenied

/-- The tombstone of `sharedRun` has returned, the other call is waiting. -/
theorem denied_lasts_sample :
    endsIn sampleDeployment "a" (run (lockStep sampleDeployment) (.initial agedRows) (sharedRun.take 9)) (.advance 0 calmInput) =
        some (.tombstone "old" "root", some (.ok true)) ∧
      Excluded sampleDeployment "a" (run (lockStep sampleDeployment) (.initial agedRows)
        (sharedRun.take 9 ++ .advance 0 calmInput :: sharedRun.drop 10)).rows := by
  have htrue : endsIn sampleDeployment "a" (run (lockStep sampleDeployment) (.initial agedRows) (sharedRun.take 9))
      (.advance 0 calmInput) = some (.tombstone "old" "root", some (.ok true)) := by rfl
  refine ⟨htrue, denied_lasts sampleDeployment agedRows "a" _ _ _ _ ?_ rfl htrue⟩
  exact sharedRun_keepsTags

end Panella.TagLock
