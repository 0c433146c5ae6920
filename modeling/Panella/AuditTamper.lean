import Panella.Audit

/-!
# The hash at a seq commits to every row up to it

`canonicalRow` writes a row so that no two rows share a text (**`canonicalRow_injective`**): the
field names are fixed, a null is not the text `null`, and strings are escaped. With the hashes of
the verified prefixes told apart by SHA-256, the tail hash then determines the whole prefix
(**`auditVerifyThrough_commits`**).
-/

namespace Panella

open PyJson HashChain

/-- The hashed fields of a row. -/
def AuditRow.hashed (r : AuditRow) : AuditRow := { r with thisHash := "" }

/-- The row with its own hash filled in. -/
def AuditRow.rehash (r : AuditRow) : AuditRow := { r with thisHash := rowHash r }

theorem rowHash_hashed (r : AuditRow) : rowHash r.hashed = rowHash r := rowHash_thisHash r ""

/-- The hash of a row is not among its hashed fields, but it is their hash. -/
theorem rehash_hashed {r : AuditRow} (h : r.thisHash = rowHash r) : r.hashed.rehash = r := by
  unfold AuditRow.rehash
  rw [rowHash_hashed, ← h]
  rfl

theorem data_keys (r : AuditRow) : (r.data.map Prod.fst).Nodup := by
  simp only [AuditRow.data, List.map_cons, List.map_nil]
  decide

theorem wf_data (r : AuditRow) : WF (.obj r.data) := by
  refine wf_obj_iff.2 ⟨data_keys r, fun kv hkv => ?_⟩
  simp only [AuditRow.data, List.mem_cons, List.not_mem_nil, or_false] at hkv
  rcases hkv with rfl | rfl | rfl | rfl | rfl | rfl | rfl | rfl | rfl <;> first | exact wf_ofOption _ | trivial

theorem sortKeys_ofOption (o : Option String) : sortKeys (.ofOption o) = .ofOption o := by
  cases o <;> rfl

/-- The values of a row are scalars, so only its own keys are sorted. -/
theorem sortKeys_data (r : AuditRow) : sortKeys (.obj r.data) = .obj (sortItems r.data) := by
  simp [sortKeys, sortKeysMembers, AuditRow.data, sortKeys_ofOption]

/-- `json.dumps` of a row's dict cannot fail, for any seq the interpreter can print. -/
theorem dumps_data {lim : Limits} {r : AuditRow} (hn : 1 ≤ lim.nesting)
    (hd : (Nat.toDigits 10 r.seq.natAbs).length ≤ lim.digits) :
    dumps lim compact (.obj r.data) = .ok (canonicalRow r) := by
  have hop : ∀ o, depth (.ofOption o) = 0 ∧ intDigits (.ofOption o) = 0 := by intro o; cases o <;> exact ⟨rfl, rfl⟩
  have h1 : depth (.obj r.data) = 1 := by simp [depth, depthMembers, AuditRow.data, hop]
  have h2 : intDigits (.obj r.data) = (Nat.toDigits 10 r.seq.natAbs).length := by
    simp [intDigits, intDigitsMembers, AuditRow.data, hop]
  unfold dumps canonicalRow
  rw [h1, h2, if_neg (by omega), if_neg (by omega)]

theorem Json.ofOption_injective {o p : Option String} (h : Json.ofOption o = .ofOption p) : o = p := by
  cases o <;> cases p <;> simp_all [Json.ofOption]

theorem get_data {r : AuditRow} {k : String} {v : Json} (h : (k, v) ∈ r.data) : r.data.get k = v :=
  Dict.get_of_mem (data_keys r) h

/-- The dict of a row, read key by key, gives the hashed fields back. -/
theorem hashed_of_get {a b : AuditRow} (h : ∀ k, a.data.get k = b.data.get k) : a.hashed = b.hashed := by
  have field : ∀ k {v w : Json}, (k, v) ∈ a.data → (k, w) ∈ b.data → v = w := by
    intro k v w hv hw
    rw [← get_data hv, ← get_data hw, h]
  simp only [AuditRow.data, List.mem_cons, Prod.mk.injEq] at field
  have hseq : a.seq = b.seq := Json.int.inj (field "seq" (by simp) (by simp))
  have hts : a.tsIso = b.tsIso := Json.str.inj (field "ts_iso" (by simp) (by simp))
  have hpr : a.principalId = b.principalId := Json.str.inj (field "principal_id" (by simp) (by simp))
  have hte : a.tenantAccessed = b.tenantAccessed := Json.str.inj (field "tenant_accessed" (by simp) (by simp))
  have hop : a.op = b.op := Json.str.inj (field "op" (by simp) (by simp))
  have hta : a.targetId = b.targetId := Json.ofOption_injective (field "target_id" (by simp) (by simp))
  have hre : a.reasonCode = b.reasonCode := Json.ofOption_injective (field "reason_code" (by simp) (by simp))
  have hde : a.detailsJson = b.detailsJson := Json.ofOption_injective (field "details_json" (by simp) (by simp))
  have hpv : a.prevHash = b.prevHash := Json.str.inj (field "prev_hash" (by simp) (by simp))
  simp only [AuditRow.hashed, hseq, hts, hpr, hte, hop, hta, hre, hde, hpv]

/-- **No two rows have one canonical text.** -/
theorem canonicalRow_injective {a b : AuditRow} (h : canonicalRow a = canonicalRow b) : a.hashed = b.hashed := by
  have henc := congrArg String.toList h
  simp only [canonicalRow, String.toList_ofList] at henc
  have hsort := encode_injective compact (wf_sortKeys _ (wf_data a)) (wf_sortKeys _ (wf_data b)) henc
  rw [sortKeys_data, sortKeys_data, Json.obj.injEq] at hsort
  have hperm : a.data.Perm b.data := by
    have h := sortItems_perm a.data
    rw [hsort] at h
    exact h.symm.trans (sortItems_perm b.data)
  exact hashed_of_get fun k => Dict.get_perm hperm (data_keys a) k

theorem toList_zeroHash : zeroHash.toList = List.replicate 64 '0' := String.toList_ofList

theorem length_zeroHash : zeroHash.toList.length = 64 := by
  rw [toList_zeroHash]; exact List.length_replicate

theorem chained_prev_length {rows : List AuditRow} (h : Chained zeroHash rows) :
    ∀ r ∈ rows, r.prevHash.toList.length = 64 := by
  intro r hr
  rcases linked_prev h r hr with hp | ⟨q, -, hp⟩
  · rw [hp]; exact length_zeroHash
  · rw [hp]; exact Sha256.length_hexdigest _

/-- The hashed bytes of two rows with equally long back links tell the rows apart. -/
theorem hashedBytes_injective {a b : AuditRow} (hlen : a.prevHash.toList.length = b.prevHash.toList.length)
    (h : hashedBytes a = hashedBytes b) : a.hashed = b.hashed := by
  have hl := congrArg String.toList (Sha256.utf8_injective h)
  rw [String.toList_append, String.toList_append] at hl
  exact canonicalRow_injective (String.toList_inj.1 (List.append_inj hl hlen).2)

/-- **A verified hash commits to its prefix.** Two tables on which `audit_verify_through` accepts one
seq with one `this_hash` hold the same rows up to that seq, if SHA-256 does not collide on what the
two verifications hashed. -/
theorem auditVerifyThrough_commits {lim lim' : Limits} {t u : AuditTable} {seq : Int} {r q : Receipt}
    (ht : auditVerifyThrough lim t seq = .ok r) (hu : auditVerifyThrough lim' u seq = .ok q)
    (hash : r.row.thisHash = q.row.thisHash)
    (sha : Set.InjOn Sha256.hexdigest (hashedBytes '' {row | row ∈ t.upTo seq ∨ row ∈ u.upTo seq})) :
    t.upTo seq = u.upTo seq := by
  obtain ⟨hlt, htt⟩ := upTo_of_receipt ht
  obtain ⟨hlu, htu⟩ := upTo_of_receipt hu
  obtain ⟨-, -, hct, -⟩ := auditVerifyThrough_ok.1 ht
  obtain ⟨-, -, hcu, -⟩ := auditVerifyThrough_ok.1 hu
  have htail := htt.trans (hash.trans htu.symm)
  have hinj : ∀ a ∈ t.upTo seq, ∀ b ∈ u.upTo seq, rowHash a = rowHash b → a.hashed = b.hashed := by
    intro a ha b hb hab
    have hlen : a.prevHash.toList.length = b.prevHash.toList.length :=
      (chained_prev_length hct a ha).trans (chained_prev_length hcu b hb).symm
    exact hashedBytes_injective hlen (sha ⟨a, .inl ha, rfl⟩ ⟨b, .inr hb, rfl⟩ hab)
  have hmap : (t.upTo seq).map AuditRow.hashed = (u.upTo seq).map AuditRow.hashed :=
    linked_unique (fun a b hab => congrArg AuditRow.prevHash hab) hinj hct hcu (hlt.trans hlu.symm) htail
  have hmem : ∀ {rows : List AuditRow}, Chained zeroHash rows → (rows.map AuditRow.hashed).map AuditRow.rehash = rows := by
    intro rows hc
    have hid : ∀ r ∈ rows, (AuditRow.rehash ∘ AuditRow.hashed) r = id r := fun r hr =>
      rehash_hashed (linked_this hc r hr)
    rw [List.map_map, List.map_congr_left hid, List.map_id]
  rw [← hmem hct, hmap, hmem hcu]

/-- A decision on approval 1. -/
def sampleWrite (op : String) : AuditWrite where
  tsIso := "2026-07-10T00:00:00+00:00"
  principalId := "owner"
  tenantAccessed := "default"
  op := op
  targetId := some "1"
  reasonCode := none
  details := none
  wf := by simp

def sampleLog : AuditTable := AuditTable.empty.append (sampleWrite "approval_decision") none

theorem sampleLog_upTo : sampleLog.upTo 1 = sampleLog.rows := by
  simp [sampleLog, AuditTable.upTo, AuditTable.append, AuditTable.newRow, AuditTable.nextSeq, AuditTable.empty]

theorem sampleLog_linked : Contiguous 1 sampleLog.rows ∧ Chained zeroHash sampleLog.rows :=
  append_linked _ _ trivial trivial

/-- Two logs that share their first row and differ after it: the hash at seq 1 is one, and so are the
rows up to it. -/
theorem auditVerifyThrough_commits_sample :
    (sampleLog.append (sampleWrite "approval_reject") none).upTo 1
      = (sampleLog.append (sampleWrite "approval_defer") none).upTo 1 := by
  have hrow : ∃ r ∈ sampleLog.rows, r.seq = 1 := ⟨_, List.mem_singleton_self _, rfl⟩
  have hup : ∀ op, (sampleLog.append (sampleWrite op) none).upTo 1 = sampleLog.rows := fun op =>
    (upTo_append _ _ hrow).trans sampleLog_upTo
  obtain ⟨r, hr, hseq⟩ := hrow
  have hok : ∀ op, auditVerifyThrough ⟨100, 4300⟩ (sampleLog.append (sampleWrite op) none) 1
      = .ok ⟨r, .obj []⟩ := by
    intro op
    refine auditVerifyThrough_ok.2 ⟨by omega, ?_, ?_, List.mem_append_left _ hr, hseq, ?_⟩
    · rw [hup]; exact sampleLog_linked.1
    · rw [hup]; exact sampleLog_linked.2
    · obtain rfl := List.mem_singleton.1 hr; rfl
  refine auditVerifyThrough_commits (hok _) (hok _) rfl ?_
  rw [hup, hup]
  rintro _ ⟨a, ha, rfl⟩ _ ⟨b, hb, rfl⟩ -
  rw [Set.mem_ofPred_eq, or_self] at ha hb
  rw [List.mem_singleton.1 ha, List.mem_singleton.1 hb]

end Panella
