import Mathlib.Data.List.Nodup
import Panella.Lib.HashChain
import Panella.Lib.JsonRoundTrip
import Panella.Lib.Sha256

/-!
# The hash-chained audit log (`panella/audit.py`)

| here | there |
| --- | --- |
| `AuditRow`, `AuditTable` | a row of `audit_log`; the rows `ORDER BY seq` (`seq` is the primary key) |
| `AuditRow.data`, `canonicalRow`, `rowHash` | the row without `this_hash`, `_canonical_json`, `_row_hash` (:221-227) |
| `auditWrite` | `audit_write` (:62-114), one `BEGIN IMMEDIATE` transaction |
| `checkRow`, `walk` | the loop body and the loop of both verifiers (:132-147, :182-198) |
| `auditVerifyChain`, `auditVerifyThrough`, `auditRowHash` | `audit_verify_chain`, `audit_verify_through`, `audit_row_hash` |

The two specifications the rest of the development uses are **`walk_ok`** (what a successful walk
says about the rows) and **`auditVerifyThrough_ok`** (what a verified receipt is).
-/

namespace Panella

open PyJson HashChain

/-- The columns of `audit_log` (:23-34). -/
structure AuditRow where
  seq : Int
  tsIso : String
  principalId : String
  tenantAccessed : String
  op : String
  targetId : Option String
  reasonCode : Option String
  detailsJson : Option String
  prevHash : String
  thisHash : String
deriving DecidableEq

/-- The table, in primary key order. -/
structure AuditTable where
  rows : List AuditRow
  sorted : rows.Pairwise (fun a b => a.seq < b.seq)

inductive AuditError
  | chain (message : String)
  | json (e : JsonError)
deriving DecidableEq, Repr

/-- `ZERO_HASH`. -/
def zeroHash : String := String.ofList (List.replicate 64 '0')

/-- `dict(row)` after `pop("this_hash")`; also the dict `audit_write` builds (:81-91). -/
def AuditRow.data (r : AuditRow) : Dict :=
  [("seq", .int r.seq), ("ts_iso", .str r.tsIso), ("principal_id", .str r.principalId),
   ("tenant_accessed", .str r.tenantAccessed), ("op", .str r.op), ("target_id", .ofOption r.targetId),
   ("reason_code", .ofOption r.reasonCode), ("details_json", .ofOption r.detailsJson),
   ("prev_hash", .str r.prevHash)]

/-- `_canonical_json(row_without_this_hash)`: a flat dict, so `json.dumps` cannot fail on it
(`dumps_data`). -/
def canonicalRow (r : AuditRow) : String := String.ofList (encode compact (sortKeys (.obj r.data)))

/-- The bytes `_row_hash` hashes. -/
def hashedBytes (r : AuditRow) : List UInt8 := Sha256.utf8 (r.prevHash ++ canonicalRow r)

/-- `_row_hash(prev_hash, row)`. -/
def rowHash (r : AuditRow) : String := Sha256.hexdigest (hashedBytes r)

/-! ## Writing -/

/-- The arguments of one `audit_write` call. `wf` is what a Python dict is: its keys are distinct,
all the way down. -/
structure AuditWrite where
  tsIso : String
  principalId : String
  tenantAccessed : String
  op : String
  targetId : Option String
  reasonCode : Option String
  details : Option Dict
  wf : ∀ d ∈ details, WF (.obj d)

/-- `_canonical_json(details or {}) if details else None` (:74). -/
def encodeDetails (lim : Limits) : Option Dict → Except JsonError (Option String)
  | none => .ok none
  | some [] => .ok none
  | some d => (dumps lim compact (.obj d)).map some

def AuditTable.empty : AuditTable := ⟨[], List.Pairwise.nil⟩

/-- `last["seq"] + 1 if last else 1`. -/
def AuditTable.nextSeq (t : AuditTable) : Int :=
  match t.rows.getLast? with
  | some last => last.seq + 1
  | none => 1

/-- `last["this_hash"] if last else ZERO_HASH`; also `audit_tail_hash`. -/
def AuditTable.tailHash (t : AuditTable) : String :=
  match t.rows.getLast? with
  | some last => last.thisHash
  | none => zeroHash

theorem AuditTable.lt_nextSeq (t : AuditTable) : ∀ r ∈ t.rows, r.seq < t.nextSeq := by
  intro r hr
  rcases List.eq_nil_or_concat t.rows with h | ⟨rs, last, h⟩
  · rw [h] at hr; cases hr
  · have hs := t.sorted
    simp only [List.concat_eq_append] at h
    rw [h] at hr hs
    have hlast : t.nextSeq = last.seq + 1 := by simp [nextSeq, h]
    rw [hlast]
    rcases List.mem_append.1 hr with hr | hr
    · have := (List.pairwise_append.1 hs).2.2 r hr last (by simp); omega
    · rw [List.mem_singleton] at hr; subst hr; omega

/-- `seq` is a key. -/
theorem AuditTable.eq_of_seq {t : AuditTable} {a b : AuditRow} (ha : a ∈ t.rows) (hb : b ∈ t.rows)
    (h : a.seq = b.seq) : a = b := by
  have hnd : (t.rows.map AuditRow.seq).Nodup :=
    List.pairwise_map.2 (t.sorted.imp fun h => by omega)
  exact List.inj_on_of_nodup_map hnd ha hb h

/-- The row `audit_write` inserts. -/
def AuditTable.newRow (t : AuditTable) (w : AuditWrite) (detailsJson : Option String) : AuditRow :=
  let row : AuditRow :=
    { seq := t.nextSeq, tsIso := w.tsIso, principalId := w.principalId, tenantAccessed := w.tenantAccessed,
      op := w.op, targetId := w.targetId, reasonCode := w.reasonCode, detailsJson, prevHash := t.tailHash,
      thisHash := "" }
  { row with thisHash := rowHash row }

def AuditTable.append (t : AuditTable) (w : AuditWrite) (detailsJson : Option String) : AuditTable where
  rows := t.rows ++ [t.newRow w detailsJson]
  sorted := by
    refine List.pairwise_append.2 ⟨t.sorted, List.pairwise_singleton _ _, fun a ha b hb => ?_⟩
    rw [List.mem_singleton] at hb
    subst hb
    exact t.lt_nextSeq a ha

/-- `audit_write`: the table after the commit and the seq it returns. -/
def auditWrite (lim : Limits) (t : AuditTable) (w : AuditWrite) : Except AuditError (AuditTable × Int) :=
  match encodeDetails lim w.details with
  | .error e => .error (.json e)
  | .ok detailsJson => .ok (t.append w detailsJson, t.nextSeq)

/-! ## Verifying -/

/-- The body of the verification loop. -/
def checkRow (previous : String) (expectedSeq : Int) (row : AuditRow) : Except AuditError Unit :=
  if row.seq ≠ expectedSeq then
    .error (.chain ("audit chain gap: expected seq=" ++ toString expectedSeq ++ ", found seq=" ++ toString row.seq))
  else if row.prevHash ≠ previous then
    .error (.chain ("audit chain discontinuity at seq=" ++ toString row.seq))
  else if row.thisHash ≠ rowHash row then
    .error (.chain ("audit row hash mismatch at seq=" ++ toString row.seq))
  else .ok ()

/-- The verification loop, from its two accumulators. -/
def walk : String → Int → List AuditRow → Except AuditError Unit
  | _, _, [] => .ok ()
  | previous, expectedSeq, row :: rows =>
    match checkRow previous expectedSeq row with
    | .error e => .error e
    | .ok () => walk row.thisHash (expectedSeq + 1) rows

/-- `audit_verify_chain`. -/
def auditVerifyChain (t : AuditTable) : Except AuditError Bool :=
  match walk zeroHash 1 t.rows with
  | .error e => .error e
  | .ok () => .ok true

/-- What `audit_verify_through` returns: the row, `this_hash` retained, and its parsed details. -/
structure Receipt where
  row : AuditRow
  details : Json

/-- `json.loads(details_json) if details_json else {}`. -/
def readDetails (lim : Limits) (row : AuditRow) : Except JsonError Json :=
  match row.detailsJson with
  | none => .ok (.obj [])
  | some text => if text = "" then .ok (.obj []) else loads lim text

/-- `SELECT … WHERE seq <= ? ORDER BY seq`. -/
def AuditTable.upTo (t : AuditTable) (seq : Int) : List AuditRow := t.rows.filter (fun r => r.seq ≤ seq)

/-- `audit_verify_through`. -/
def auditVerifyThrough (lim : Limits) (t : AuditTable) (seq : Int) : Except AuditError Receipt :=
  if seq < 1 then .error (.chain ("invalid audit receipt seq: " ++ toString seq))
  else
    match walk zeroHash 1 (t.upTo seq) with
    | .error e => .error e
    | .ok () =>
      match (t.upTo seq).find? (fun r => r.seq = seq) with
      | none =>
        .error (.chain ("audit receipt seq=" ++ toString seq ++
          " not found or not reachable through an intact chain"))
      | some verified =>
        match readDetails lim verified with
        | .error e => .error (.json e)
        | .ok details => .ok ⟨verified, details⟩

/-- `audit_row_hash`. -/
def auditRowHash (t : AuditTable) (seq : Int) : Except AuditError String :=
  if seq < 1 then .error (.chain ("invalid audit seq: " ++ toString seq))
  else
    match t.rows.find? (fun r => r.seq = seq) with
    | none => .error (.chain ("audit row seq=" ++ toString seq ++ " not found"))
    | some row => .ok row.thisHash

/-! ## What a walk checks -/

/-- The seqs are `e, e + 1, …`. -/
def Contiguous : Int → List AuditRow → Prop
  | _, [] => True
  | e, r :: rs => r.seq = e ∧ Contiguous (e + 1) rs

/-- The rows are linked from `g`. -/
abbrev Chained (g : String) (rows : List AuditRow) : Prop := Linked AuditRow.prevHash AuditRow.thisHash rowHash g rows

theorem checkRow_ok {previous : String} {expectedSeq : Int} {row : AuditRow} :
    checkRow previous expectedSeq row = .ok () ↔
      row.seq = expectedSeq ∧ row.prevHash = previous ∧ row.thisHash = rowHash row := by
  unfold checkRow
  split
  · simp_all
  · split
    · simp_all
    · split <;> simp_all

/-- **A walk succeeds exactly on contiguous, linked rows.** -/
theorem walk_ok {previous : String} {expectedSeq : Int} {rows : List AuditRow} :
    walk previous expectedSeq rows = .ok () ↔ Contiguous expectedSeq rows ∧ Chained previous rows := by
  induction rows generalizing previous expectedSeq with
  | nil => simp [walk, Contiguous, Linked]
  | cons row rows ih =>
    simp only [walk, Contiguous, Linked]
    split
    · rename_i e h
      have hno : ¬ (row.seq = expectedSeq ∧ row.prevHash = previous ∧ row.thisHash = rowHash row) := by
        rw [← checkRow_ok, h]; simp
      constructor
      · intro h'; cases h'
      · rintro ⟨⟨h1, -⟩, h2, h3, -⟩; exact absurd ⟨h1, h2, h3⟩ hno
    · rename_i h
      obtain ⟨h1, h2, h3⟩ := checkRow_ok.1 h
      rw [ih]
      tauto

theorem walk_error {previous : String} {expectedSeq : Int} {rows : List AuditRow} {e : AuditError}
    (h : walk previous expectedSeq rows = .error e) : ∃ m, e = .chain m := by
  induction rows generalizing previous expectedSeq with
  | nil => simp [walk] at h
  | cons row rows ih =>
    simp only [walk] at h
    split at h
    · rename_i e' hc
      cases h
      unfold checkRow at hc
      split at hc
      · cases hc; exact ⟨_, rfl⟩
      · split at hc
        · cases hc; exact ⟨_, rfl⟩
        · split at hc
          · cases hc; exact ⟨_, rfl⟩
          · cases hc
    · exact ih h

theorem auditVerifyChain_ok {t : AuditTable} :
    auditVerifyChain t = .ok true ↔ Contiguous 1 t.rows ∧ Chained zeroHash t.rows := by
  rw [← walk_ok]
  unfold auditVerifyChain
  split <;> simp_all

/-- **What a verified receipt is**: the row at `seq` of a log whose rows up to `seq` are contiguous
and linked from genesis. -/
theorem auditVerifyThrough_ok {lim : Limits} {t : AuditTable} {seq : Int} {rc : Receipt} :
    auditVerifyThrough lim t seq = .ok rc ↔
      1 ≤ seq ∧ Contiguous 1 (t.upTo seq) ∧ Chained zeroHash (t.upTo seq) ∧
        rc.row ∈ t.rows ∧ rc.row.seq = seq ∧ readDetails lim rc.row = .ok rc.details := by
  have hfind : ∀ r, (t.upTo seq).find? (fun r => r.seq = seq) = some r ↔ r ∈ t.rows ∧ r.seq = seq := by
    intro r
    constructor
    · intro h
      have hm := List.mem_of_find?_eq_some h
      have hs := List.find?_some h
      simp only [AuditTable.upTo, List.mem_filter, decide_eq_true_eq] at hm hs
      exact ⟨hm.1, hs⟩
    · rintro ⟨hr, hs⟩
      have hmem : r ∈ t.upTo seq := by simp [AuditTable.upTo, hr, hs]
      cases hf : (t.upTo seq).find? (fun r => r.seq = seq) with
      | none => simpa [hs] using List.find?_eq_none.1 hf r hmem
      | some q =>
        have hqm := List.mem_of_find?_eq_some hf
        have hqs : q.seq = seq := by simpa using List.find?_some hf
        rw [AuditTable.eq_of_seq (List.mem_filter.1 hqm).1 hr (hqs.trans hs.symm)]
  unfold auditVerifyThrough
  split
  · rename_i h
    constructor
    · intro h'; cases h'
    · rintro ⟨h1, -⟩; omega
  · rename_i h1
    split
    · rename_i e he
      have : ¬ (Contiguous 1 (t.upTo seq) ∧ Chained zeroHash (t.upTo seq)) := by rw [← walk_ok, he]; simp
      constructor
      · intro h'; cases h'
      · rintro ⟨-, h2, h3, -⟩; exact absurd ⟨h2, h3⟩ this
    · rename_i hw
      obtain ⟨hc, hl⟩ := walk_ok.1 hw
      split
      · rename_i hn
        constructor
        · intro h'; cases h'
        · rintro ⟨-, -, -, hr, hs, -⟩
          rw [(hfind rc.row).2 ⟨hr, hs⟩] at hn; cases hn
      · rename_i v hv
        obtain ⟨hvm, hvs⟩ := (hfind v).1 hv
        split
        · rename_i e he
          constructor
          · intro h'; cases h'
          · rintro ⟨-, -, -, hr, hs, hd⟩
            have := (hfind rc.row).2 ⟨hr, hs⟩
            rw [hv] at this; cases this
            rw [hd] at he; cases he
        · rename_i d hd
          constructor
          · intro h'; cases h'; exact ⟨by omega, hc, hl, hvm, hvs, hd⟩
          · rintro ⟨-, -, -, hr, hs, hd'⟩
            have := (hfind rc.row).2 ⟨hr, hs⟩
            rw [hv] at this; cases this
            rw [hd] at hd'
            cases rc
            simp_all

/-! ## Contiguous rows -/

theorem contiguous_snoc {e : Int} {rows : List AuditRow} {r : AuditRow} :
    Contiguous e (rows ++ [r]) ↔ Contiguous e rows ∧ r.seq = e + rows.length := by
  induction rows generalizing e with
  | nil => simp [Contiguous]
  | cons q rows ih =>
    simp only [List.cons_append, Contiguous, ih, List.length_cons, and_assoc]
    push_cast
    rw [show e + 1 + (rows.length : Int) = e + (rows.length + 1) by omega]

theorem contiguous_left {e : Int} {xs ys : List AuditRow} (h : Contiguous e (xs ++ ys)) : Contiguous e xs := by
  induction xs generalizing e with
  | nil => trivial
  | cons x xs ih => exact ⟨h.1, ih h.2⟩

theorem contiguous_getElem {e : Int} {rows : List AuditRow} (h : Contiguous e rows) {i : Nat} (hi : i < rows.length) :
    rows[i].seq = e + i := by
  induction rows generalizing e i with
  | nil => simp at hi
  | cons r rows ih =>
    cases i with
    | zero => simpa using h.1
    | succ i =>
      have := ih h.2 (i := i) (by simpa using hi)
      simp only [List.getElem_cons_succ, this]
      push_cast
      omega

/-- The rows up to a seq of a contiguous log are its first rows. -/
theorem contiguous_filter {e : Int} {rows : List AuditRow} (h : Contiguous e rows) (k : Nat) :
    rows.filter (fun r => r.seq < e + k) = rows.take k := by
  induction rows generalizing e k with
  | nil => simp
  | cons r rows ih =>
    cases k with
    | zero =>
      have hr := h.1
      have := ih h.2 0
      simp only [List.take_zero, List.filter_eq_nil_iff, decide_eq_true_eq] at this ⊢
      intro q hq
      rcases List.mem_cons.1 hq with rfl | hq
      · omega
      · have := this q hq; push_cast at *; omega
    | succ k =>
      have := ih h.2 k
      have hr := h.1
      rw [List.take_succ_cons, ← this, List.filter_cons_of_pos (by simp; omega)]
      push_cast
      rw [show e + 1 + (k : Int) = e + (k + 1) by omega]

theorem AuditTable.upTo_eq_take {t : AuditTable} (h : Contiguous 1 t.rows) (k : Nat) : t.upTo k = t.rows.take k := by
  rw [← contiguous_filter h k, upTo]
  congr 1
  funext r
  simp only [decide_eq_decide]
  omega

/-- A verified receipt's log has one row for each seq up to it, and its hash is the tail of the chain. -/
theorem upTo_of_receipt {lim : Limits} {t : AuditTable} {seq : Int} {rc : Receipt}
    (h : auditVerifyThrough lim t seq = .ok rc) :
    (t.upTo seq).length = seq.toNat ∧ tail AuditRow.thisHash zeroHash (t.upTo seq) = rc.row.thisHash := by
  obtain ⟨h1, hc, -, hr, hs, -⟩ := auditVerifyThrough_ok.1 h
  have hm : rc.row ∈ t.upTo seq := by simp [AuditTable.upTo, hr, hs]
  rcases List.eq_nil_or_concat (t.upTo seq) with he | ⟨rs, last, he⟩
  · rw [he] at hm; cases hm
  · simp only [List.concat_eq_append] at he
    have hsorted : (t.upTo seq).Pairwise (fun a b => a.seq < b.seq) := t.sorted.filter _
    rw [he] at hm hc hsorted ⊢
    have hle : last.seq ≤ seq := by
      have : last ∈ t.upTo seq := by simp [he]
      simpa [AuditTable.upTo] using (List.mem_filter.1 this).2
    have hlast := (contiguous_snoc.1 hc).2
    have : rc.row = last := by
      rcases List.mem_append.1 hm with hm | hm
      · have := (List.pairwise_append.1 hsorted).2.2 _ hm last (by simp); omega
      · simpa using hm
    refine ⟨?_, by rw [tail_snoc, this]⟩
    rw [List.length_append, List.length_singleton]
    rw [this] at hs
    omega

/-! ## What a write preserves -/

theorem AuditTable.nextSeq_of_contiguous {t : AuditTable} (h : Contiguous 1 t.rows) :
    t.nextSeq = 1 + t.rows.length := by
  unfold nextSeq
  rcases List.eq_nil_or_concat t.rows with hn | ⟨rs, last, hl⟩
  · simp [hn]
  · simp only [List.concat_eq_append] at hl
    rw [hl] at h
    have := (contiguous_snoc.1 h).2
    simp only [hl, List.getLast?_append, List.getLast?_singleton, Option.some_or, List.length_append,
      List.length_singleton, this]
    omega

theorem AuditTable.tailHash_eq (t : AuditTable) : t.tailHash = tail AuditRow.thisHash zeroHash t.rows := by
  unfold tailHash
  rcases List.eq_nil_or_concat t.rows with hn | ⟨rs, last, hl⟩
  · simp [hn, tail]
  · simp only [List.concat_eq_append] at hl
    simp only [hl, List.getLast?_append, List.getLast?_singleton, Option.some_or, tail_snoc]

/-- The digest does not look at the hash column. -/
theorem rowHash_thisHash (r : AuditRow) (h : String) : rowHash { r with thisHash := h } = rowHash r := by
  simp only [rowHash, hashedBytes, canonicalRow, AuditRow.data]

theorem newRow_thisHash (t : AuditTable) (w : AuditWrite) (d : Option String) :
    (t.newRow w d).thisHash = rowHash (t.newRow w d) := by
  unfold AuditTable.newRow
  rw [rowHash_thisHash]

/-- **A write keeps the log contiguous and linked.** -/
theorem append_linked {t : AuditTable} (w : AuditWrite) (d : Option String) (hc : Contiguous 1 t.rows)
    (hl : Chained zeroHash t.rows) :
    Contiguous 1 (t.append w d).rows ∧ Chained zeroHash (t.append w d).rows :=
  ⟨contiguous_snoc.2 ⟨hc, AuditTable.nextSeq_of_contiguous hc⟩,
    linked_snoc.2 ⟨hl, t.tailHash_eq, newRow_thisHash t w d⟩⟩

/-- What a receipt verifies on, it verifies on after any further write. -/
theorem upTo_append {t : AuditTable} {seq : Int} (w : AuditWrite) (d : Option String)
    (h : ∃ r ∈ t.rows, r.seq = seq) : (t.append w d).upTo seq = t.upTo seq := by
  obtain ⟨r, hr, rfl⟩ := h
  have := t.lt_nextSeq r hr
  have hn : ¬ (t.newRow w d).seq ≤ r.seq := by show ¬ t.nextSeq ≤ r.seq; omega
  simp [AuditTable.upTo, AuditTable.append, List.filter_append, hn]

end Panella
