import Panella.Rows
import Panella.RtbfSticky
import Panella.StatusMachine

/-!
# The purge of the sidecars is exact (`panella/client.py:1077-1171`)

A purge takes the approvals that are about a drawer or whose event is, and the events that are about it or linked from such an
approval; no more (**`exact_of_scan`**), as long as no two approvals share an event. The scan skips what does not parse, but a
text that nests too deep raises a `RecursionError`, which `except (ValueError, TypeError)` lets through: **`purge_exact_iff`**.
-/

namespace Panella

open Fallible Machine PyJson

/-! ## What is about a drawer -/

/-- `json.loads` gives up on the depth of the text. -/
def TooDeep (d : Deployment) (text : String) : Prop := d.loadsMended text = .error (.json .recursion)

/-- The event is about the drawer: it was completed as it, or its payload names it. -/
def EventIs (d : Deployment) (drawerId : String) (ev : MemoryEvent) : Prop :=
  ev.completedMemoryId = some drawerId ∨ eventPayloadIdentity d ev.payloadJson = .ok (some drawerId)

/-- `candidate.memory_id` is the drawer. -/
def CandidateIs (d : Deployment) (drawerId : String) (r : ApprovalRow) : Prop :=
  candidateNames d drawerId r.candidateJson = .ok true

/-- The event that the approval is linked to is about the drawer. -/
def LinkedIs (d : Deployment) (o : Outbox) (drawerId : String) (r : ApprovalRow) : Prop :=
  ∃ e ev, r.memoryEventId = some e ∧ o.events.get e = some ev ∧ EventIs d drawerId ev

/-- An approval to forget. -/
def StaleApproval (d : Deployment) (o : Outbox) (drawerId : String) (i : Nat) : Prop :=
  ∃ r, o.approvals.get i = some r ∧ (CandidateIs d drawerId r ∨ LinkedIs d o drawerId r)

/-- An event to forget. -/
def StaleEvent (d : Deployment) (o : Outbox) (drawerId : String) (e : Nat) : Prop :=
  (∃ ev, o.events.get e = some ev ∧ EventIs d drawerId ev) ∨
    ∃ i r, o.approvals.get i = some r ∧ r.memoryEventId = some e ∧ StaleApproval d o drawerId i

/-- What a purge leaves is all that was not to be forgotten, with its links. -/
structure ExactPurge (d : Deployment) (o : Outbox) (drawerId : String) (o' : Outbox) : Prop where
  approvals : ∀ i r, o'.approvals.get i = some r ↔ o.approvals.get i = some r ∧ ¬ StaleApproval d o drawerId i
  events : ∀ e ev, o'.events.get e = some ev ↔ o.events.get e = some ev ∧ ¬ StaleEvent d o drawerId e
  history : o'.history = o.history
  /-- No approval refers to a deleted event. -/
  linked : ∀ i r e, o'.approvals.get i = some r → r.memoryEventId = some e → (o'.events.get e).isSome = true
  goneApprovals : ∀ i, ¬ StaleApproval d o' drawerId i
  goneEvents : ∀ e, ¬ StaleEvent d o' drawerId e
  /-- A second call deletes nothing. -/
  again : hardDeleteSidecar d o' drawerId = .ok o'

/-- The scan parses no text that is too deep: what is, it skips. -/
structure Scannable (d : Deployment) (o : Outbox) (drawerId : String) : Prop where
  events : ∀ e ev, o.events.get e = some ev → TooDeep d ev.payloadJson → ev.completedMemoryId = some drawerId
  approvals : ∀ i r, o.approvals.get i = some r → TooDeep d r.candidateJson → LinkedIs d o drawerId r

/-! ## What the scan raises -/

section
variable {d : Deployment} {o : Outbox} {drawerId : String}

/-- What does not parse raises only if it is too deep. -/
theorem loadsMended_error {text : String} {x : PyErr} (h : d.loadsMended text = .error x) :
    x.isValueOrType = true ∧ ¬ TooDeep d text ∨ x.isValueOrType = false ∧ TooDeep d text := by
  unfold TooDeep
  rw [h]
  unfold Deployment.loadsMended at h
  cases hload : PyJson.loadsMended d.limits text with
  | ok v => rw [hload] at h; cases h
  | error e =>
    rw [hload] at h
    cases h
    cases e <;> simp [PyErr.isValueOrType]

theorem eventPayloadIdentity_raises_iff {text : String} :
    (∃ x, eventPayloadIdentity d text = .error x) ↔ TooDeep d text := by
  unfold eventPayloadIdentity
  cases hload : d.loadsMended text with
  | error x =>
    dsimp only
    rcases loadsMended_error hload with ⟨hcaught, hnot⟩ | ⟨hloose, hdeep⟩
    · simp [hcaught, hnot]
    · simp [hloose, hdeep]
  | ok v =>
    have hnot : ¬ TooDeep d text := by
      unfold TooDeep
      rw [hload]
      simp
    simp only [hnot, iff_false, not_exists]
    intro x
    split
    · next h => cases h
    · split
      · simp
      · split <;> simp
    · simp

theorem candidateNames_raises_iff {text : String} : (∃ x, candidateNames d drawerId text = .error x) ↔ TooDeep d text := by
  unfold candidateNames
  cases hload : d.loadsMended text with
  | error x =>
    dsimp only
    rcases loadsMended_error hload with ⟨hcaught, hnot⟩ | ⟨hloose, hdeep⟩
    · simp [hcaught, hnot]
    · simp [hloose, hdeep]
  | ok v =>
    have hnot : ¬ TooDeep d text := by
      unfold TooDeep
      rw [hload]
      simp
    simp only [hnot, iff_false, not_exists]
    intro x
    split <;> simp_all

theorem eventAbout_ok {ev : MemoryEvent} {about : Bool} (h : eventAbout d drawerId ev = .ok about) :
    about = true ↔ EventIs d drawerId ev := by
  unfold eventAbout at h
  unfold EventIs
  by_cases hdone : ev.completedMemoryId = some drawerId
  · rw [if_pos hdone] at h
    cases h
    simp [hdone]
  · rw [if_neg hdone] at h
    cases hident : eventPayloadIdentity d ev.payloadJson with
    | error x => rw [hident] at h; cases h
    | ok ident =>
      rw [hident] at h
      cases h
      simp [hdone]

theorem eventAbout_raises_iff {ev : MemoryEvent} :
    (∃ x, eventAbout d drawerId ev = .error x) ↔ ev.completedMemoryId ≠ some drawerId ∧ TooDeep d ev.payloadJson := by
  unfold eventAbout
  by_cases hdone : ev.completedMemoryId = some drawerId
  · simp [hdone]
  · rw [if_neg hdone, ← eventPayloadIdentity_raises_iff]
    cases eventPayloadIdentity d ev.payloadJson <;> simp [hdone, Except.map]

/-- **The first loop** finds the events about the drawer, or meets one that is too deep. -/
theorem scanEvents_ok {evs : List (Nat × MemoryEvent)} {es : List Nat} (h : scanEvents d drawerId evs = .ok es) :
    (∀ e ev, (e, ev) ∈ evs → TooDeep d ev.payloadJson → ev.completedMemoryId = some drawerId) ∧
      ∀ e, e ∈ es ↔ ∃ ev, (e, ev) ∈ evs ∧ EventIs d drawerId ev := by
  induction evs generalizing es with
  | nil =>
    cases h
    simp
  | cons first evs ih =>
    obtain ⟨e₀, ev₀⟩ := first
    unfold scanEvents at h
    cases habout : eventAbout d drawerId ev₀ with
    | error x => rw [habout] at h; cases h
    | ok about =>
      rw [habout] at h
      cases hrest : scanEvents d drawerId evs with
      | error x => rw [hrest] at h; cases h
      | ok rest =>
        rw [hrest] at h
        cases h
        obtain ⟨hread, hmem⟩ := ih hrest
        constructor
        · intro e ev hev hdeep
          rcases List.mem_cons.1 hev with hev | hev
          · cases hev
            by_contra hne
            obtain ⟨x, hx⟩ := eventAbout_raises_iff.2 ⟨hne, hdeep⟩
            rw [habout] at hx
            cases hx
          · exact hread e ev hev hdeep
        · intro e
          have hfirst := eventAbout_ok habout
          cases about with
          | true =>
            have his := hfirst.1 rfl
            simp only [if_true, List.mem_cons, hmem, Prod.mk.injEq]
            constructor
            · rintro (rfl | ⟨ev, hev, h⟩)
              · exact ⟨ev₀, .inl ⟨rfl, rfl⟩, his⟩
              · exact ⟨ev, .inr hev, h⟩
            · rintro ⟨ev, ⟨rfl, rfl⟩ | hev, h⟩
              · exact .inl rfl
              · exact .inr ⟨ev, hev, h⟩
          | false =>
            have hnot : ¬ EventIs d drawerId ev₀ := fun his => Bool.false_ne_true (hfirst.2 his)
            simp only [Bool.false_eq_true, if_false, List.mem_cons, hmem, Prod.mk.injEq]
            constructor
            · rintro ⟨ev, hev, h⟩
              exact ⟨ev, .inr hev, h⟩
            · rintro ⟨ev, ⟨rfl, rfl⟩ | hev, h⟩
              · exact absurd h hnot
              · exact ⟨ev, hev, h⟩

theorem scanEvents_returns {evs : List (Nat × MemoryEvent)}
    (h : ∀ e ev, (e, ev) ∈ evs → TooDeep d ev.payloadJson → ev.completedMemoryId = some drawerId) :
    ∃ es, scanEvents d drawerId evs = .ok es := by
  induction evs with
  | nil => exact ⟨[], rfl⟩
  | cons first evs ih =>
    obtain ⟨e, ev⟩ := first
    obtain ⟨es, hes⟩ := ih fun e' ev' hmem => h e' ev' (List.mem_cons_of_mem _ hmem)
    unfold scanEvents
    cases habout : eventAbout d drawerId ev with
    | error x =>
      obtain ⟨hne, hdeep⟩ := eventAbout_raises_iff.1 ⟨x, habout⟩
      exact absurd (h e ev List.mem_cons_self hdeep) hne
    | ok about =>
      rw [hes]
      exact ⟨_, rfl⟩

/-- The link of a row is among the events, or is that of an approval that names the drawer. -/
def Reached (d : Deployment) (drawerId : String) (rows : List (Nat × ApprovalRow)) (E : List Nat) (r : ApprovalRow) : Prop :=
  ∃ e, r.memoryEventId = some e ∧ (e ∈ E ∨ ∃ j q, (j, q) ∈ rows ∧ CandidateIs d drawerId q ∧ q.memoryEventId = some e)

theorem Reached.cons {rows : List (Nat × ApprovalRow)} {E : List Nat} {r : ApprovalRow} (h : Reached d drawerId rows E r)
    (first : Nat × ApprovalRow) : Reached d drawerId (first :: rows) E r := by
  obtain ⟨e, he, h | ⟨j, q, hq, h⟩⟩ := h
  · exact ⟨e, he, .inl h⟩
  · exact ⟨e, he, .inr ⟨j, q, List.mem_cons_of_mem _ hq, h⟩⟩

/-- An event that a named approval brought in. -/
theorem Reached.named {rows : List (Nat × ApprovalRow)} {E : List Nat} {r row : ApprovalRow} {i : Nat}
    (h : Reached d drawerId rows (E ++ row.memoryEventId.toList) r) (hnamed : CandidateIs d drawerId row) :
    Reached d drawerId ((i, row) :: rows) E r := by
  obtain ⟨e, he, h | ⟨j, q, hq, h⟩⟩ := h
  · rcases List.mem_append.1 h with h | h
    · exact ⟨e, he, .inl h⟩
    · exact ⟨e, he, .inr ⟨i, row, List.mem_cons_self, hnamed, Option.mem_toList.1 h⟩⟩
  · exact ⟨e, he, .inr ⟨j, q, List.mem_cons_of_mem _ hq, h⟩⟩

/-- **The second loop**: what it finds by its candidate, what by its event, and what it did not have to read. -/
theorem scanApprovals_reasons {rows : List (Nat × ApprovalRow)} {E S E' : List Nat}
    (h : scanApprovals d drawerId E rows = .ok (S, E')) :
    (∀ i r, (i, r) ∈ rows → CandidateIs d drawerId r → i ∈ S) ∧
    (∀ i ∈ S, ∃ r, (i, r) ∈ rows ∧ (CandidateIs d drawerId r ∨ Reached d drawerId rows E r)) ∧
    ∀ i r, (i, r) ∈ rows → TooDeep d r.candidateJson → Reached d drawerId rows E r := by
  induction rows generalizing E S E' with
  | nil =>
    cases h
    simp
  | cons first rows ih =>
    obtain ⟨i, row⟩ := first
    rw [scanApprovals] at h
    split at h
    · next hlink =>
      -- found by its event, and not read
      obtain ⟨se, hse, h⟩ := map_ok h
      cases h
      obtain ⟨hnamed, hfound, hread⟩ := ih (show _ = Except.ok (se.1, se.2) from hse)
      obtain ⟨e, he, hmem⟩ : ∃ e, row.memoryEventId = some e ∧ e ∈ E := by simpa [Option.any_eq_true] using hlink
      refine ⟨?_, ?_, ?_⟩
      · intro j r hj hr
        rcases List.mem_cons.1 hj with hj | hj
        · cases hj
          exact List.mem_cons_self
        · exact List.mem_cons_of_mem _ (hnamed j r hj hr)
      · intro j hj
        rcases List.mem_cons.1 hj with rfl | hj
        · exact ⟨row, List.mem_cons_self, .inr ⟨e, he, .inl hmem⟩⟩
        · obtain ⟨r, hr, hwhy⟩ := hfound j hj
          exact ⟨r, List.mem_cons_of_mem _ hr, hwhy.imp_right fun hreach => hreach.cons _⟩
      · intro j r hj hdeep
        rcases List.mem_cons.1 hj with hj | hj
        · cases hj
          exact ⟨e, he, .inl hmem⟩
        · exact (hread j r hj hdeep).cons _
    split at h
    · cases h
    · next hcand =>
      obtain ⟨hnamed, hfound, hread⟩ := ih h
      refine ⟨?_, ?_, ?_⟩
      · intro j r hj hr
        rcases List.mem_cons.1 hj with hj | hj
        · cases hj
          rw [CandidateIs, hcand] at hr
          cases hr
        · exact hnamed j r hj hr
      · intro j hj
        obtain ⟨r, hr, hwhy⟩ := hfound j hj
        exact ⟨r, List.mem_cons_of_mem _ hr, hwhy.imp_right fun hreach => hreach.cons _⟩
      · intro j r hj hdeep
        rcases List.mem_cons.1 hj with hj | hj
        · cases hj
          obtain ⟨x, hx⟩ := (@candidateNames_raises_iff d drawerId _).2 hdeep
          rw [hcand] at hx
          cases hx
        · exact (hread j r hj hdeep).cons _
    · next hcand =>
      -- found by its candidate, and its event with it
      obtain ⟨se, hse, h⟩ := map_ok h
      cases h
      obtain ⟨hnamed, hfound, hread⟩ := ih (show _ = Except.ok (se.1, se.2) from hse)
      refine ⟨?_, ?_, ?_⟩
      · intro j r hj hr
        rcases List.mem_cons.1 hj with hj | hj
        · cases hj
          exact List.mem_cons_self
        · exact List.mem_cons_of_mem _ (hnamed j r hj hr)
      · intro j hj
        rcases List.mem_cons.1 hj with rfl | hj
        · exact ⟨row, List.mem_cons_self, .inl hcand⟩
        · obtain ⟨r, hr, hwhy⟩ := hfound j hj
          exact ⟨r, List.mem_cons_of_mem _ hr, hwhy.imp_right fun hreach => hreach.named hcand⟩
      · intro j r hj hdeep
        rcases List.mem_cons.1 hj with hj | hj
        · cases hj
          obtain ⟨x, hx⟩ := (@candidateNames_raises_iff d drawerId _).2 hdeep
          rw [hcand] at hx
          cases hx
        · exact (hread j r hj hdeep).named hcand

theorem scanApprovals_returns {rows : List (Nat × ApprovalRow)} {E : List Nat}
    (h : ∀ i r, (i, r) ∈ rows → TooDeep d r.candidateJson → ∃ e, r.memoryEventId = some e ∧ e ∈ E) :
    ∃ se, scanApprovals d drawerId E rows = .ok se := by
  induction rows generalizing E with
  | nil => exact ⟨_, rfl⟩
  | cons first rows ih =>
    obtain ⟨i, row⟩ := first
    have hrest := ih fun j r hj => h j r (List.mem_cons_of_mem _ hj)
    rw [scanApprovals]
    split
    · obtain ⟨se, hse⟩ := hrest
      exact ⟨_, by rw [hse]; rfl⟩
    next hlink =>
    split
    · next x hcand =>
      have hdeep := (@candidateNames_raises_iff d drawerId _).1 ⟨x, hcand⟩
      obtain ⟨e, he, hmem⟩ := h i row List.mem_cons_self hdeep
      refine absurd ?_ hlink
      simpa [he] using hmem
    · exact hrest
    · obtain ⟨se, hse⟩ := @ih (E ++ row.memoryEventId.toList) fun j r hj hdeep => by
        obtain ⟨e, he, hmem⟩ := h j r (List.mem_cons_of_mem _ hj) hdeep
        exact ⟨e, he, List.mem_append_left _ hmem⟩
      exact ⟨_, by rw [hse]; rfl⟩

end

/-! ## What the scan finds, where no two approvals share an event -/

section
variable {d : Deployment} {o : Outbox} {drawerId : String} {scan : SidecarScan}

/-- A row that was reached is about the drawer, or its event is. -/
theorem reached_iff (hj : Joined o) {about : List Nat} (habout : scanEvents d drawerId o.events.rows = .ok about)
    {i : Nat} {r : ApprovalRow} (hr : o.approvals.get i = some r) (h : Reached d drawerId o.approvals.rows about r) :
    CandidateIs d drawerId r ∨ LinkedIs d o drawerId r := by
  obtain ⟨e, he, hmem | ⟨j, q, hq, hnamed, hqe⟩⟩ := h
  · obtain ⟨ev, hev, his⟩ := ((scanEvents_ok habout).2 e).1 hmem
    exact .inr ⟨e, ev, he, Table.mem_rows.1 hev, his⟩
  · have hsame := hj.single i j r q e hr (Table.mem_rows.1 hq) he hqe
    subst hsame
    rw [Table.mem_rows, hr] at hq
    cases hq
    exact .inl hnamed

theorem mem_staleIds (hj : Joined o) (hs : scanSidecar d o drawerId = .ok scan) (i : Nat) :
    i ∈ scan.staleIds ↔ StaleApproval d o drawerId i := by
  obtain ⟨about, habout, hrows, -⟩ := scanSidecar_ok hs
  obtain ⟨hnamed, hfound, -⟩ := scanApprovals_reasons hrows
  constructor
  · intro hi
    obtain ⟨r, hr, hwhy⟩ := hfound i hi
    have hget := Table.mem_rows.1 hr
    exact ⟨r, hget, hwhy.elim .inl fun hreach => reached_iff hj habout hget hreach⟩
  · rintro ⟨r, hr, hcand | ⟨e, ev, he, hev, his⟩⟩
    · exact hnamed i r (Table.mem_rows.2 hr) hcand
    · have hmem : e ∈ about := ((scanEvents_ok habout).2 e).2 ⟨ev, Table.mem_rows.2 hev, his⟩
      exact (scanApprovals_spec hrows).2.1 i r (Table.mem_rows.2 hr) e hmem he

theorem mem_eventIds (hj : Joined o) (hs : scanSidecar d o drawerId = .ok scan) (e : Nat) :
    e ∈ scan.eventIds ↔ StaleEvent d o drawerId e := by
  obtain ⟨about, habout, hrows, -⟩ := scanSidecar_ok hs
  obtain ⟨hsub, -, htake, hfrom⟩ := scanApprovals_spec hrows
  constructor
  · intro hmem
    rcases hfrom e hmem with h | ⟨i, hi, r, hr, he⟩
    · obtain ⟨ev, hev, his⟩ := ((scanEvents_ok habout).2 e).1 h
      exact .inl ⟨ev, Table.mem_rows.1 hev, his⟩
    · exact .inr ⟨i, r, Table.mem_rows.1 hr, he, (mem_staleIds hj hs i).1 hi⟩
  · rintro (⟨ev, hev, his⟩ | ⟨i, r, hr, he, hstale⟩)
    · exact hsub (((scanEvents_ok habout).2 e).2 ⟨ev, Table.mem_rows.2 hev, his⟩)
    · exact (stale_iff_event hj hs hr he).1 ((mem_staleIds hj hs i).2 hstale)

/-- **The scan returns** exactly if it parses nothing too deep. -/
theorem scan_returns_iff (hj : Joined o) : (∃ scan, scanSidecar d o drawerId = .ok scan) ↔ Scannable d o drawerId := by
  constructor
  · rintro ⟨scan, hs⟩
    obtain ⟨about, habout, hrows, -⟩ := scanSidecar_ok hs
    refine ⟨fun e ev hev => (scanEvents_ok habout).1 e ev (Table.mem_rows.2 hev), fun i r hr hdeep => ?_⟩
    have hreach := (scanApprovals_reasons hrows).2.2 i r (Table.mem_rows.2 hr) hdeep
    rcases reached_iff hj habout hr hreach with hcand | hlinked
    · obtain ⟨x, hx⟩ := (@candidateNames_raises_iff d drawerId _).2 hdeep
      rw [hcand] at hx
      cases hx
    · exact hlinked
  · intro h
    obtain ⟨about, habout⟩ := scanEvents_returns fun e ev hev => h.events e ev (Table.mem_rows.1 hev)
    obtain ⟨se, hse⟩ : ∃ se, scanApprovals d drawerId about o.approvals.rows = .ok se := by
      apply scanApprovals_returns
      intro i r hr hdeep
      obtain ⟨e, ev, he, hev, his⟩ := h.approvals i r (Table.mem_rows.1 hr) hdeep
      exact ⟨e, he, ((scanEvents_ok habout).2 e).2 ⟨ev, Table.mem_rows.2 hev, his⟩⟩
    unfold scanSidecar
    rw [habout]
    dsimp only
    rw [hse]
    exact ⟨_, rfl⟩

/-! ## The purge -/

/-- **What a scan finds and a purge takes is exactly what was to be forgotten.** -/
theorem exact_of_scan (hj : Joined o) (hs : scanSidecar d o drawerId = .ok scan) :
    ExactPurge d o drawerId (purgeScanned o scan) := by
  have happrovals : ∀ i r, (purgeScanned o scan).approvals.get i = some r ↔
      o.approvals.get i = some r ∧ ¬ StaleApproval d o drawerId i := by
    intro i r
    rw [get_purgeScanned, mem_staleIds hj hs, and_comm]
  have hevents : ∀ e ev, (purgeScanned o scan).events.get e = some ev ↔
      o.events.get e = some ev ∧ ¬ StaleEvent d o drawerId e := by
    intro e ev
    rw [get_event_purgeScanned, mem_eventIds hj hs, and_comm]
  have hlinkedIs : ∀ r, LinkedIs d (purgeScanned o scan) drawerId r → LinkedIs d o drawerId r := by
    rintro r ⟨e, ev, he, hev, his⟩
    exact ⟨e, ev, he, ((hevents e ev).1 hev).1, his⟩
  have hgone : ∀ i, ¬ StaleApproval d (purgeScanned o scan) drawerId i := by
    rintro i ⟨r, hr, hwhy⟩
    obtain ⟨hr, hnot⟩ := (happrovals i r).1 hr
    exact hnot ⟨r, hr, hwhy.imp_right (hlinkedIs r)⟩
  have hgoneEvents : ∀ e, ¬ StaleEvent d (purgeScanned o scan) drawerId e := by
    rintro e (⟨ev, hev, his⟩ | ⟨i, -, -, -, hstale⟩)
    · obtain ⟨hev, hnot⟩ := (hevents e ev).1 hev
      exact hnot (.inl ⟨ev, hev, his⟩)
    · exact hgone i hstale
  have hj' := joined_purgeScanned hj hs
  refine ⟨happrovals, hevents, rfl, hj'.present, hgone, hgoneEvents, ?_⟩
  obtain ⟨hreadEvents, hreadApprovals⟩ := (scan_returns_iff hj).1 ⟨scan, hs⟩
  obtain ⟨scan', hs'⟩ : ∃ scan', scanSidecar d (purgeScanned o scan) drawerId = .ok scan' := by
    apply (scan_returns_iff hj').2
    constructor
    · intro e ev hev hdeep
      exact hreadEvents e ev ((hevents e ev).1 hev).1 hdeep
    · intro i r hr hdeep
      obtain ⟨hr, hnot⟩ := (happrovals i r).1 hr
      exact absurd ⟨r, hr, .inr (hreadApprovals i r hr hdeep)⟩ hnot
  have hnone : scan'.staleIds = [] := List.eq_nil_iff_forall_not_mem.2 fun i hi => hgone i ((mem_staleIds hj' hs' i).1 hi)
  have hnoneEvents : scan'.eventIds = [] :=
    List.eq_nil_iff_forall_not_mem.2 fun e he => hgoneEvents e ((mem_eventIds hj' hs' e).1 he)
  have hsame : purgeScanned (purgeScanned o scan) scan' = purgeScanned o scan := by
    unfold purgeScanned
    rw [hnone, hnoneEvents, Table.delete_nil, Table.delete_nil]
  rw [hardDeleteSidecar, hs', Except.map, hsame]

/-! ## Every reachable outbox -/

/-- A step of the system, or a row that some other program leaves in `memory_events`; an enqueue takes any text. -/
inductive SidecarAction
  | act (a : Action)
  | event (ev : MemoryEvent)

def sidecarStep (d : Deployment) (api : StoreApi) (s : System) : SidecarAction → System
  | .act a => step d api s a
  | .event ev => { s with world := s.world.withOutbox (s.world.outbox.insertEvent ev) }

theorem joined_step {api : StoreApi} {s : System} (hj : Joined s.world.outbox) (a : Action) :
    Joined (step d api s a).world.outbox := by
  rcases outbox_step d api s a with h | ⟨t, rep, f, er, scan, -, -, hs, h⟩ | h | h
  · exact joined_enqueued hj h
  · rw [h]
    exact joined_purgeScanned hj hs
  · exact joined_approval hj h
  · exact joined_edits hj h

theorem joined_sidecarStep {api : StoreApi} {s : System} (hj : Joined s.world.outbox) (a : SidecarAction) :
    Joined (sidecarStep d api s a).world.outbox := by
  cases a with
  | act a => exact joined_step hj a
  | event ev => exact joined_insertEvent hj ev

theorem joined_runs {api : StoreApi} {s : System} (hj : Joined s.world.outbox) (as : List SidecarAction) :
    Joined (run (sidecarStep d api) s as).world.outbox :=
  run_inv (I := fun s : System => Joined s.world.outbox) (fun _ a h => joined_sidecarStep h a) hj as

end

/-- **A purge of a reachable outbox is exact, and harmless to every other row,** if and only if it meets no text that is too
deep to parse. -/
theorem purge_exact_iff (d : Deployment) (api : StoreApi) (audit : AuditTable) (store : Store) (as : List SidecarAction)
    (drawerId : String) :
    let o := (run (sidecarStep d api) (.initial ⟨.empty, audit, store⟩) as).world.outbox
    (∃ o', hardDeleteSidecar d o drawerId = .ok o' ∧ ExactPurge d o drawerId o') ↔ Scannable d o drawerId := by
  intro o
  have hj : Joined o := joined_runs linked_empty.joined as
  rw [← scan_returns_iff hj]
  unfold hardDeleteSidecar
  constructor
  · rintro ⟨o', h, -⟩
    obtain ⟨scan, hs, -⟩ := map_ok h
    exact ⟨scan, hs⟩
  · rintro ⟨scan, hs⟩
    rw [hs]
    exact ⟨_, rfl, exact_of_scan hj hs⟩

/-- A row of another program. -/
def foreignEvent (payloadJson : String) : MemoryEvent where
  eventType := "memory"
  payloadJson := payloadJson
  createdAt := "t0"
  status := "pending"
  completedMemoryId := none
  processedAt := none
  tenantId := "t_default"
  principalId := "notes"

theorem stopped_by {text : String} (h : TooDeep sampleDeployment text) :
    ¬ ∃ o', hardDeleteSidecar sampleDeployment (run (sidecarStep sampleDeployment sampleStoreApi)
      (.initial ⟨.empty, .empty, .empty⟩) [.act (.op (.enqueue sampleCandidate "t0" none)), .event (foreignEvent text)]).world.outbox
      "x" = .ok o' := by
  rintro ⟨o', ho⟩
  obtain ⟨scan, hs, -⟩ := map_ok ho
  have hread := (scan_returns_iff (joined_runs linked_empty.joined _)).1 ⟨scan, hs⟩
  have hdone := hread.events 1 (foreignEvent text) rfl h
  cases hdone

theorem tooDeep_brackets (d : Deployment) : TooDeep d (String.ofList (brackets (d.limits.nesting + 1))) := by
  rw [TooDeep, Deployment.loadsMended, loadsMended_brackets]

/-- **A payload of a thousand and one brackets stops the purge of a queued candidate.** -/
theorem purge_stopped : ¬ ∀ as drawerId,
    let o := (run (sidecarStep sampleDeployment sampleStoreApi) (.initial ⟨.empty, .empty, .empty⟩) as).world.outbox
    ∃ o', hardDeleteSidecar sampleDeployment o drawerId = .ok o' ∧ ExactPurge sampleDeployment o drawerId o' := by
  intro hall
  obtain ⟨o', h, -⟩ := hall
    [.act (.op (.enqueue sampleCandidate "t0" none)),
      .event (foreignEvent (String.ofList (brackets (sampleDeployment.limits.nesting + 1))))] "x"
  exact stopped_by (tooDeep_brackets sampleDeployment) ⟨o', h⟩

end Panella
