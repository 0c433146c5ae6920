import Panella.Restore

/-!
# A backup and what it is good for (`panella/cli/lifecycle.py:129-246, 392-417`)

| here | there |
| --- | --- |
| `Box.sources` | `_collect_source_files` (:129-147) |
| `snapshot` | one turn of the loop of `_cmd_backup`, with `_validate_snapshot` (:150-168, 185-213) |
| `backup` | `_cmd_backup` (:171-246) |
| `postRestoreVerify` | `_post_restore_verify` (:392-417) |

What `restore` makes of an archive that `backup` wrote: it puts back every file under its own name, readable for the user only, leaves
the rest of the directory as it was and passes its own checks, exactly if the names of the files differ and no name, nor a temporary
one, is in the way (**`backup_restores_iff`**).
-/

namespace Panella.Restore

open PyPath Directory Fallible

/-! ## What a box has -/

/-- `_SourceFile.role`. -/
inductive Role
  | storeDb
  | tokenDb
  | auditDb
  | outboxDb
  | governanceOverlay
deriving DecidableEq

def Role.name : Role → String
  | .storeDb => "store_db"
  | .tokenDb => "token_db"
  | .auditDb => "audit_db"
  | .outboxDb => "outbox_db"
  | .governanceOverlay => "governance_overlay"

/-- A file that is there. -/
structure Source where
  /-- `source.path.name`. -/
  name : List CodePoint
  /-- The name in the file system. -/
  file : Bytes
  segment : SingleSegment name
  path_name : path name = some file
  /-- What `_sqlite_backup_to` or `shutil.copy2` makes of it; none where it raises. -/
  snapshot : Option Bytes

/-- The files of a box. Their names are decoded from bytes, so no two of them are one name. -/
structure Box where
  source : Role → Option Source
  names : ∀ r r' s s', source r = some s → source r' = some s' → s.file = s'.file → s.name = s'.name

/-- The candidates, in the order of the manifest. -/
def candidates : List Role := [.storeDb, .tokenDb, .auditDb, .outboxDb, .governanceOverlay]

def Box.sources (box : Box) : List (Role × Source) := candidates.filterMap fun r => (box.source r).map (r, ·)

/-! ## The snapshots -/

inductive Verdict
  | passes
  | fails
  | raised
deriving DecidableEq

/-- What a backup finds around it. -/
structure BackupEnv where
  /-- `startup_self_check` or `audit_verify_chain` on a database of these bytes; none for a path that is no file. -/
  check : Role → Option Bytes → Verdict
  createdAt : List CodePoint
  version : List CodePoint
  /-- `json.dumps`, as UTF-8. -/
  dumps : Value → Bytes

variable (env : BackupEnv)

/-- `_validate_snapshot`. -/
def validateSnapshot (role : Role) (content : Option Bytes) : Verdict :=
  match role with
  | .storeDb | .auditDb => env.check role content
  | _ => .passes

/-- A file of the temporary directory, under its role. -/
structure Snapshot where
  role : Role
  source : Source
  content : Bytes

/-- One turn of the loop. -/
def snapshot (entry : Role × Source) : Except Stop Snapshot :=
  match entry.2.snapshot with
  | none => .error .raised
  | some content =>
    if entry.1 = .governanceOverlay then .ok ⟨entry.1, entry.2, content⟩
    else
      match validateSnapshot env entry.1 (some content) with
      | .passes => .ok ⟨entry.1, entry.2, content⟩
      | .fails => .error (.refused 1)
      | .raised => .error .raised

/-- The entry of the manifest, its keys sorted. -/
def Snapshot.fields (s : Snapshot) : List (List CodePoint × Value) :=
  [(text "name", .text (text s.role.name)), (text "role", .text (text s.role.name)),
    (text "sha256", .text (text (Sha256.hexdigest s.content))), (text "size", .scalar), (text "target_name", .text s.source.name)]

def Snapshot.entry (s : Snapshot) : Value := .dict s.fields

/-- `MANIFEST.json`. -/
def manifestValue (snapshots : List Snapshot) : Value :=
  .dict [(text "created_at", .text env.createdAt), (text "files", .list (snapshots.map (·.entry))),
    (text "format_version", .scalar), (text "panella_version", .text env.version)]

def Snapshot.member (s : Snapshot) : Member := ⟨text s.role.name, .bytes s.content⟩

def manifestMember (manifest : Bytes) : Member := ⟨text "MANIFEST.json", .bytes manifest⟩

/-- The names of members. -/
def memberNames : List String := "MANIFEST.json" :: candidates.map Role.name

theorem path_memberNames : ∀ n ∈ memberNames, ∀ n' ∈ memberNames, path (text n) = path (text n') → n = n' := by decide

theorem role_name_mem (r : Role) : r.name ∈ memberNames := by cases r <;> decide

def archiveOf (snapshots : List Snapshot) (manifest : Bytes) : Archive where
  members := snapshots.map (·.member) ++ [manifestMember manifest]
  names := by
    have hname : ∀ m ∈ snapshots.map (·.member) ++ [manifestMember manifest], ∃ n ∈ memberNames, m.name = text n := by
      intro m hm
      rcases List.mem_append.1 hm with hm | hm
      · obtain ⟨s, -, rfl⟩ := List.mem_map.1 hm
        exact ⟨_, role_name_mem s.role, rfl⟩
      · rw [List.mem_singleton.1 hm]
        exact ⟨"MANIFEST.json", List.mem_cons_self, rfl⟩
    intro m hm m' hm' p h h'
    obtain ⟨n, hn, hm⟩ := hname m hm
    obtain ⟨n', hn', hm'⟩ := hname m' hm'
    rw [hm] at h ⊢
    rw [hm'] at h' ⊢
    rw [path_memberNames n hn n' hn' (h.trans h'.symm)]

inductive BackupOutcome
  | refused (code : Nat)
  | raised
  | written (archive : Archive) (manifest : Value)

/-- `_cmd_backup`. -/
def backup (outExists force : Bool) (box : Box) : BackupOutcome :=
  if outExists && !force then .refused 2
  else if box.sources.isEmpty then .refused 2
  else
    match box.sources.mapM (snapshot env) with
    | .error (.refused code) => .refused code
    | .error .raised => .raised
    | .ok snapshots => .written (archiveOf snapshots (env.dumps (manifestValue env snapshots))) (manifestValue env snapshots)

/-! ## The checks after a restore -/

/-- The bytes of a file of the directory. -/
def contentAt (d : DataDir) (t : List CodePoint) : Option Bytes :=
  match (path t).bind d with
  | some (.file file) => some file.content
  | _ => none

/-- The checked role of an entry. -/
def checkedRole (role : Option Value) : Option Role := [.storeDb, .auditDb].find? fun r => isText role (text r.name)

/-- `_post_restore_verify`: no entry fails; none where a check raises. -/
def postRestoreVerify (d : DataDir) : List Entry → Option Bool
  | [] => some true
  | e :: entries =>
    match checkedRole e.role with
    | none => postRestoreVerify d entries
    | some role =>
      match validateSnapshot env role (contentAt d e.targetName) with
      | .raised => none
      | .passes => postRestoreVerify d entries
      | .fails => (postRestoreVerify d entries).map fun _ => false

/-! ## What is asked of it -/

/-- The temporary name beside it. -/
def Source.temp (s : Source) : Bytes := s.file ++ [46, 114, 101, 115, 116, 111, 114, 105, 110, 103]

/-- The files of the box are back, for the user only, the rest is as it was, and no temporary file is left. -/
structure Carried (box : Box) (d d' : DataDir) : Prop where
  placed : ∀ e ∈ box.sources, ∃ content, e.2.snapshot = some content ∧ d' e.2.file = some (.file ⟨content, 0o600⟩)
  others : ∀ p, (∀ e ∈ box.sources, e.2.file ≠ p) → d' p = d p
  gone : ∀ e ∈ box.sources, (∀ e' ∈ box.sources, e'.2.file ≠ e.2.temp) → d' e.2.temp = none

/-- The directory has room for the files of the box. -/
structure Fits (box : Box) (force : Bool) (d : DataDir) : Prop where
  distinct : (box.sources.map (·.2.name)).Nodup
  unoccupied : force = true ∨ ∀ e ∈ box.sources, d e.2.file = none
  noFolder : ∀ e ∈ box.sources, ∀ entries, d e.2.file ≠ some (.folder entries)
  order : box.sources.Pairwise fun e e' => e'.2.temp ≠ e.2.file
  spare : ∀ e ∈ box.sources, (∀ e' ∈ box.sources, e'.2.file ≠ e.2.temp) → d e.2.temp = none

/-! ## What a backup has taken -/

section
variable {env} {box : Box} {snapshots : List Snapshot} {s : Snapshot} {out force : Bool} {a : Archive} {manifest : Value}
  {d d' : DataDir} {mode : Nat} {staged : Staging} {entries : List Entry}

structure Taken (env : BackupEnv) (box : Box) (snapshots : List Snapshot) : Prop where
  sources : snapshots.map (fun s => (s.role, s.source)) = box.sources
  content : ∀ s ∈ snapshots, s.source.snapshot = some s.content
  passes : ∀ s ∈ snapshots, validateSnapshot env s.role (some s.content) = .passes
  nonempty : snapshots ≠ []

theorem snapshot_spec {e : Role × Source} (h : snapshot env e = .ok s) :
    (s.role, s.source) = e ∧ s.source.snapshot = some s.content ∧ validateSnapshot env s.role (some s.content) = .passes := by
  unfold snapshot at h
  split at h
  · cases h
  · next content hcontent =>
    split at h
    · next hrole =>
      cases h
      refine ⟨rfl, hcontent, ?_⟩
      dsimp only
      rw [hrole]
      rfl
    · split at h
      · next hpasses =>
        cases h
        exact ⟨rfl, hcontent, hpasses⟩
      · cases h
      · cases h

theorem snapshots_spec {es : List (Role × Source)} (h : List.Forall₂ (fun e s => snapshot env e = .ok s) es snapshots) :
    snapshots.map (fun s => (s.role, s.source)) = es ∧
      ∀ s ∈ snapshots, s.source.snapshot = some s.content ∧ validateSnapshot env s.role (some s.content) = .passes := by
  induction h with
  | nil => exact ⟨rfl, List.forall_mem_nil _⟩
  | cons hfirst _ ih =>
    obtain ⟨hsource, hcontent⟩ := snapshot_spec hfirst
    exact ⟨by rw [List.map_cons, ih.1, hsource], List.forall_mem_cons.2 ⟨hcontent, ih.2⟩⟩

theorem backup_spec (h : backup env out force box = .written a manifest) :
    ∃ snapshots, Taken env box snapshots ∧ a = archiveOf snapshots (env.dumps (manifestValue env snapshots)) ∧
      manifest = manifestValue env snapshots := by
  unfold backup at h
  split at h
  · cases h
  · split at h
    · cases h
    · next hnonempty =>
      split at h
      · cases h
      · cases h
      · next snapshots hsnapshots =>
        cases h
        obtain ⟨hsources, hspec⟩ := snapshots_spec (mapM_ok hsnapshots)
        refine ⟨snapshots, ⟨hsources, fun s hs => (hspec s hs).1, fun s hs => (hspec s hs).2, ?_⟩, rfl, rfl⟩
        rintro rfl
        rw [← hsources] at hnonempty
        exact hnonempty rfl

/-- A role has one file at most. -/
theorem Taken.roles (h : Taken env box snapshots) : (snapshots.map (·.role)).Nodup := by
  have hroles : snapshots.map (·.role) = box.sources.map (·.1) := by
    rw [← h.sources, List.map_map]
    rfl
  rw [hroles, Box.sources, List.map_filterMap]
  refine List.Nodup.filterMap ?_ (by decide)
  intro r r' b hb hb'
  simp only [Option.mem_def, Option.map_map, Option.map_eq_some_iff, Function.comp_apply] at hb hb'
  obtain ⟨-, -, rfl⟩ := hb
  obtain ⟨-, -, rfl⟩ := hb'
  rfl

theorem Taken.mem_sources (h : Taken env box snapshots) {e : Role × Source} :
    e ∈ box.sources ↔ ∃ s ∈ snapshots, (s.role, s.source) = e := by
  rw [← h.sources, List.mem_map]

/-! ## What a restore reads -/

/-- The entry as it is read. -/
def Snapshot.read (s : Snapshot) : Entry :=
  ⟨text s.role.name, s.source.name, some (.text (text (Sha256.hexdigest s.content))), some (.text (text s.role.name))⟩

theorem role_segment (r : Role) : SingleSegment (text r.name) := by cases r <;> decide

theorem checkName_ok {t : List CodePoint} (h : SingleSegment t) : checkName (some (.text t)) = .ok t := if_pos h

theorem readEntry_entry (s : Snapshot) : readEntry s.entry = .ok s.read := by
  have hname : checkName (field s.fields "name") = .ok (text s.role.name) := checkName_ok (role_segment s.role)
  have htarget : checkName (targetField s.fields) = .ok s.source.name := checkName_ok s.source.segment
  rw [Snapshot.entry, readEntry, hname, ok_then, htarget, ok_then]
  rfl

theorem mapM_entries (snapshots : List Snapshot) :
    (snapshots.map (·.entry)).mapM readEntry = .ok (snapshots.map (·.read)) := by
  induction snapshots with
  | nil => rfl
  | cons s rest ih => rw [List.map_cons, List.mapM_cons, readEntry_entry, ok_then, ih]; rfl

theorem manifestFiles_manifest (hne : snapshots ≠ []) :
    manifestFiles (.value (manifestValue env snapshots)) = .ok (snapshots.map (·.entry)) := by
  cases snapshots with
  | nil => exact absurd rfl hne
  | cons s rest => rfl

theorem role_name_injective : Function.Injective Role.name := by
  intro r r' h
  cases r <;> cases r' <;> first | rfl | exact absurd h (by decide)

/-- A snapshot is found under its role. -/
theorem Taken.getmember (h : Taken env box snapshots) (bytes : Bytes) (hs : s ∈ snapshots) :
    (archiveOf snapshots bytes).getmember (text s.role.name) = some s.member := by
  have hrole : ∀ m ∈ (archiveOf snapshots bytes).members, m.name = text s.role.name → m = s.member := by
    intro m hm hname
    rcases List.mem_append.1 hm with hm | hm
    · obtain ⟨s', hs', rfl⟩ := List.mem_map.1 hm
      rw [List.inj_on_of_nodup_map h.roles hs' hs (role_name_injective (text_injective hname))]
    · rw [List.mem_singleton.1 hm] at hname
      have hdiffer : ∀ r : Role, "MANIFEST.json" ≠ r.name := by
        intro r
        cases r <;> decide
      exact absurd (text_injective hname) (hdiffer s.role)
  have hmem : s.member ∈ (archiveOf snapshots bytes).members :=
    List.mem_append_left _ (List.mem_map_of_mem (f := Snapshot.member) hs)
  cases hfind : (archiveOf snapshots bytes).getmember (text s.role.name) with
  | none =>
    have hnone := List.find?_eq_none.1 hfind s.member (List.mem_reverse.2 hmem)
    exact absurd (decide_eq_true rfl) hnone
  | some m =>
    obtain ⟨hm, hname⟩ := getmember_spec hfind
    rw [hrole m hm hname]

/-- The member of an entry has the bytes that the manifest states. -/
structure Readable (a : Archive) (e : Entry) : Prop where
  member : ∃ m content, a.getmember e.name = some m ∧ m.reading = .bytes content ∧
    isText e.sha256 (text (Sha256.hexdigest content)) = true
  path : (PyPath.path e.name).isSome

theorem stageEntries_of_readable (h : ∀ e ∈ entries, Readable a e) (staged : Staging) :
    ∃ staged', stageEntries a entries staged = .ok staged' := by
  induction entries generalizing staged with
  | nil => exact ⟨staged, rfl⟩
  | cons e entries ih =>
    obtain ⟨⟨⟨⟨name, reading⟩, content, hm, hreading, hsha⟩, hpath⟩, hrest⟩ := List.forall_mem_cons.1 h
    obtain ⟨p, hp⟩ := Option.isSome_iff_exists.1 hpath
    dsimp only at hreading
    subst hreading
    obtain ⟨staged', hstaged'⟩ := ih hrest fun q => if q = p then some content else staged q
    refine ⟨staged', ?_⟩
    have hfirst : stageEntry a staged e = .ok fun q => if q = p then some content else staged q := by
      rw [stageEntry, hm, hp]
      exact if_pos hsha
    rw [stageEntries, hfirst, ok_then, hstaged']

theorem isText_self (t : List CodePoint) : isText (some (.text t)) t = true := decide_eq_true rfl

theorem role_path (r : Role) : (path (text r.name)).isSome := by cases r <;> decide

theorem Taken.readable (h : Taken env box snapshots) (bytes : Bytes) :
    ∀ e ∈ snapshots.map (·.read), Readable (archiveOf snapshots bytes) e := by
  intro e he
  obtain ⟨s, hs, rfl⟩ := List.mem_map.1 he
  exact ⟨⟨s.member, s.content, h.getmember bytes hs, rfl, isText_self _⟩, role_path s.role⟩

/-! ## What a restore puts in place -/

/-- The file of a snapshot, to be put in place. -/
def Snapshot.item (mode : Nat) (s : Snapshot) : Item Bytes File where
  source := (path (text s.role.name)).getD []
  temp := s.source.temp
  target := s.source.file
  content := ⟨s.content, mode⟩
  settle := fun file => { file with mode := 0o600 }
  temp_ne := by simp [Source.temp]

theorem settleRole_name (r : Role) : settleRole (some (.text (text r.name))) = some fun file => { file with mode := 0o600 } := by
  have hmem : text r.name ∈ sensitiveRoles.map text := List.mem_map_of_mem (by cases r <;> decide)
  rw [settleRole]
  congr 1
  funext file
  exact if_pos hmem

theorem Taken.itemOf (h : Taken env box snapshots) (bytes : Bytes) (hs : s ∈ snapshots) :
    itemOf (archiveOf snapshots bytes) mode s.read = some (s.item mode) := by
  obtain ⟨p, hp⟩ := Option.isSome_iff_exists.1 (role_path s.role)
  have hmember : (archiveOf snapshots bytes).getmember s.read.name = some ⟨text s.role.name, .bytes s.content⟩ :=
    h.getmember bytes hs
  have hpath : path s.read.name = some p := hp
  have htarget : path s.read.targetName = some s.source.file := s.source.path_name
  have hsettle : settleRole s.read.role = _ := settleRole_name s.role
  rw [Restore.itemOf, hmember, hpath, htarget, hsettle]
  simp only [Snapshot.item, hp, Option.getD_some]
  rfl

/-- **One turn**, where the item can be put in place. -/
theorem placeEntry_of_item {e : Entry} {i : Item Bytes File} {content p : Bytes} (hstaged : Staged a staged e content p)
    (hitem : Restore.itemOf a mode e = some i) (hplace : place d i = some d') : placeEntry mode staged d e = .ok d' := by
  obtain ⟨⟨name, reading⟩, hm, hreading⟩ := hstaged.member
  dsimp only at hreading
  subst hreading
  unfold Restore.itemOf at hitem
  split at hitem
  · next source target _ content' settle hsource htarget hmember hsettle =>
    cases hitem
    cases hm.symm.trans hmember
    cases hsource.symm.trans hstaged.path
    have htemp : path e.tempName = some (target ++ [46, 114, 101, 115, 116, 111, 114, 105, 110, 103]) := by
      rw [Entry.tempName, path_append path_restoring, htarget]
      rfl
    obtain ⟨copied, hcopy, hreplace⟩ := Option.bind_eq_some_iff.1 hplace
    dsimp only at hcopy hreplace
    rw [placeEntry, hsource, htarget, htemp]
    dsimp only
    rw [hstaged.holds, Option.bind_some, hcopy]
    dsimp only
    rw [hsettle]
    dsimp only
    rw [hreplace]
  · cases hitem

theorem placeEntries_of_items {items : List (Item Bytes File)}
    (h : List.Forall₂ (fun e i => (∃ content p, Staged a staged e content p) ∧ Restore.itemOf a mode e = some i) entries items)
    (hplace : placeAll items d = some d') : placeEntries mode staged entries d = .ok d' := by
  induction h generalizing d with
  | nil =>
    cases hplace
    rfl
  | cons hfirst _ ih =>
    obtain ⟨⟨content, p, hstaged⟩, hitem⟩ := hfirst
    obtain ⟨d₁, hplace₁, hrest⟩ := Option.bind_eq_some_iff.1 hplace
    rw [placeEntries, placeEntry_of_item hstaged hitem hplace₁, ok_then]
    exact ih hrest

/-- Files with different names are put in place where there is room for them. -/
theorem Taken.restored_iff (h : Taken env box snapshots) (bytes : Bytes) :
    restore (.opened (archiveOf snapshots bytes) (.value (manifestValue env snapshots))) force mode d = .restored d' ↔
      checkTargets force d (snapshots.map (·.read)) = .ok () ∧ placeAll (snapshots.map (·.item mode)) d = some d' := by
  obtain ⟨staged, hstaged⟩ := stageEntries_of_readable (h.readable bytes) fun _ => none
  have hprepare : prepare (archiveOf snapshots bytes) (.value (manifestValue env snapshots)) force d =
      (checkTargets force d (snapshots.map (·.read))).bind fun _ => .ok (snapshots.map (·.read), staged) := by
    rw [prepare, manifestFiles_manifest h.nonempty, ok_then, mapM_entries, ok_then, hstaged]
    rfl
  have hitems : List.Forall₂ (fun e i => (∃ content p, Staged (archiveOf snapshots bytes) staged e content p) ∧
      Restore.itemOf (archiveOf snapshots bytes) mode e = some i) (snapshots.map (·.read)) (snapshots.map (·.item mode)) := by
    have hall := stageEntries_spec hstaged
    rw [List.forall₂_map_left_iff, List.forall₂_map_right_iff, List.forall₂_same]
    exact fun s hs => ⟨hall _ (List.mem_map_of_mem hs), h.itemOf bytes hs⟩
  unfold restore
  dsimp only
  rw [hprepare]
  cases hcheck : checkTargets force d (snapshots.map (·.read)) with
  | error stop => cases stop <;> simp [Except.bind]
  | ok _ =>
    have hmap : (snapshots.map (·.read)).filterMap (Restore.itemOf (archiveOf snapshots bytes) mode) = snapshots.map (·.item mode) := by
      rw [List.filterMap_map, ← List.filterMap_eq_map]
      exact List.filterMap_congr fun s hs => h.itemOf bytes hs
    have hplace : placeEntries mode staged (snapshots.map (·.read)) d = .ok d' ↔ placeAll (snapshots.map (·.item mode)) d = some d' := by
      constructor
      · intro hplace
        rw [← hmap]
        exact (placeEntries_items (stageEntries_spec hstaged) hplace).2
      · exact placeEntries_of_items hitems
    rw [← hplace]
    dsimp only [Except.bind]
    cases placeEntries mode staged (snapshots.map (·.read)) d <;> simp

theorem Taken.names (h : Taken env box snapshots) : (snapshots.map (·.read)).map (·.targetName) = box.sources.map (·.2.name) := by
  rw [← h.sources, List.map_map, List.map_map]
  rfl

theorem source_of_mem {e : Role × Source} (he : e ∈ box.sources) : box.source e.1 = some e.2 := by
  obtain ⟨r, -, hr⟩ := List.mem_filterMap.1 he
  obtain ⟨s, hs, rfl⟩ := Option.map_eq_some_iff.1 hr
  exact hs

/-- The names differ as texts where they do in the file system. -/
theorem Taken.targets (h : Taken env box snapshots) (hdistinct : (box.sources.map (·.2.name)).Nodup) :
    ((snapshots.map (·.item mode)).map (·.target)).Nodup := by
  have htargets : (snapshots.map (·.item mode)).map (·.target) = box.sources.map (·.2.file) := by
    rw [← h.sources, List.map_map, List.map_map]
    rfl
  rw [htargets]
  refine (List.nodup_map_iff_inj_on (List.Nodup.of_map _ hdistinct)).2 fun e he e' he' hfile => ?_
  exact List.inj_on_of_nodup_map hdistinct he he' (box.names _ _ _ _ (source_of_mem he) (source_of_mem he') hfile)

theorem occupied_source (s : Source) : occupied d s.name = (d s.file).isSome := by rw [occupied, s.path_name]

theorem Taken.checkTargets_iff (h : Taken env box snapshots) : checkTargets force d (snapshots.map (·.read)) = .ok () ↔
    (box.sources.map (·.2.name)).Nodup ∧ (force = true ∨ ∀ e ∈ box.sources, d e.2.file = none) := by
  have hoccupied : (snapshots.map (·.read)).any (fun e => occupied d e.targetName) = box.sources.any fun e => (d e.2.file).isSome := by
    rw [← h.sources, List.any_map, List.any_map]
    congr 1
    funext s
    exact occupied_source s.source
  unfold checkTargets
  rw [h.names, hoccupied]
  by_cases hdistinct : (box.sources.map (·.2.name)).Nodup
  · rw [if_pos hdistinct]
    cases force <;> simp [hdistinct]
  · rw [if_neg hdistinct]
    simp [hdistinct]

/-- What holds of the items, in the box's own terms. -/
theorem Taken.forall_items (h : Taken env box snapshots) {P : Source → Prop} {Q : Item Bytes File → Prop}
    (hPQ : ∀ s ∈ snapshots, Q (s.item mode) ↔ P s.source) : (∀ i ∈ snapshots.map (·.item mode), Q i) ↔ ∀ e ∈ box.sources, P e.2 := by
  rw [← h.sources, List.forall_mem_map, List.forall_mem_map]
  exact forall₂_congr hPQ

theorem Taken.other_iff (h : Taken env box snapshots) {p : Bytes} :
    (∀ i ∈ snapshots.map (·.item mode), i.target ≠ p) ↔ ∀ e ∈ box.sources, e.2.file ≠ p :=
  h.forall_items (P := fun s => s.file ≠ p) fun _ _ => Iff.rfl

variable (mode) in
theorem Taken.spare_iff (h : Taken env box snapshots) :
    (∀ i ∈ snapshots.map (·.item mode), (∀ j ∈ snapshots.map (·.item mode), j.target ≠ i.temp) → d i.temp = none) ↔
      ∀ e ∈ box.sources, (∀ e' ∈ box.sources, e'.2.file ≠ e.2.temp) → d e.2.temp = none :=
  h.forall_items (P := fun s => (∀ e' ∈ box.sources, e'.2.file ≠ s.temp) → d s.temp = none) fun s _ => by rw [h.other_iff]; rfl

variable (mode) in
theorem Taken.free_iff (h : Taken env box snapshots) : Free (snapshots.map (·.item mode)) d ↔
    (∀ e ∈ box.sources, ∀ entries, d e.2.file ≠ some (.folder entries)) ∧
      (box.sources.Pairwise fun e e' => e'.2.temp ≠ e.2.file) ∧
        ∀ e ∈ box.sources, (∀ e' ∈ box.sources, e'.2.file ≠ e.2.temp) → d e.2.temp = none := by
  have hfolder : (∀ i ∈ snapshots.map (·.item mode), ∀ entries, d i.target ≠ some (.folder entries)) ↔
      ∀ e ∈ box.sources, ∀ entries, d e.2.file ≠ some (.folder entries) :=
    h.forall_items (P := fun s => ∀ entries, d s.file ≠ some (.folder entries)) fun _ _ => Iff.rfl
  have horder : (snapshots.map (·.item mode)).Pairwise (fun i j => j.temp ≠ i.target) ↔
      box.sources.Pairwise fun e e' => e'.2.temp ≠ e.2.file := by
    rw [← h.sources, List.pairwise_map, List.pairwise_map]
    rfl
  rw [← hfolder, ← horder, ← h.spare_iff mode]
  exact ⟨fun hfree => ⟨hfree.noFolder, hfree.order, hfree.spare⟩, fun ⟨h₁, h₂, h₃⟩ => ⟨h₁, h₂, h₃⟩⟩

theorem Taken.placed_iff (h : Taken env box snapshots) : Placed Settled (snapshots.map (·.item mode)) d d' ↔ Carried box d d' := by
  have hplaced : (∀ i ∈ snapshots.map (·.item mode), ∃ content, d' i.target = some (.file content) ∧ Settled i content) ↔
      ∀ e ∈ box.sources, ∃ content, e.2.snapshot = some content ∧ d' e.2.file = some (.file ⟨content, 0o600⟩) := by
    refine h.forall_items (P := fun s => ∃ content, s.snapshot = some content ∧ d' s.file = some (.file ⟨content, 0o600⟩)) ?_
    intro s hs
    constructor
    · rintro ⟨_, hfile, rfl⟩
      exact ⟨s.content, h.content s hs, hfile⟩
    · rintro ⟨content, hcontent, hfile⟩
      obtain rfl := Option.some.inj ((h.content s hs).symm.trans hcontent)
      exact ⟨_, hfile, rfl⟩
  have hothers : (∀ p, (∀ i ∈ snapshots.map (·.item mode), i.target ≠ p) → d' p = d p) ↔
      ∀ p, (∀ e ∈ box.sources, e.2.file ≠ p) → d' p = d p := forall_congr' fun p => by rw [h.other_iff]
  constructor
  · exact fun hp => ⟨hplaced.1 hp.placed, hothers.1 hp.others, (h.spare_iff mode).1 hp.gone⟩
  · exact fun hc => ⟨hplaced.2 hc.placed, hothers.2 hc.others, (h.spare_iff mode).2 hc.gone⟩

/-! ## The checks after it -/

theorem checkedRole_name (r : Role) : checkedRole (some (.text (text r.name))) = if r = .storeDb ∨ r = .auditDb then some r else none := by
  cases r <;> decide

/-- What passed where it was saved passes where it is restored. -/
theorem Taken.verified (h : Taken env box snapshots) (hcarried : Carried box d d') :
    postRestoreVerify env d' (snapshots.map (·.read)) = some true := by
  have hcontent : ∀ s ∈ snapshots, validateSnapshot env s.role (contentAt d' s.source.name) = .passes := by
    intro s hs
    obtain ⟨content, hcontent, hfile⟩ := hcarried.placed (s.role, s.source) (h.mem_sources.2 ⟨s, hs, rfl⟩)
    obtain rfl := Option.some.inj ((h.content s hs).symm.trans hcontent)
    rw [contentAt, s.source.path_name, Option.bind_some, hfile]
    exact h.passes s hs
  clear h hcarried
  induction snapshots with
  | nil => rfl
  | cons s rest ih =>
    obtain ⟨hfirst, hrest⟩ := List.forall_mem_cons.1 hcontent
    have hread : checkedRole s.read.role = _ := checkedRole_name s.role
    have hname : s.read.targetName = s.source.name := rfl
    rw [List.map_cons, postRestoreVerify, hread, hname]
    split
    · exact ih hrest
    · next role hrole =>
      split at hrole
      · obtain rfl := Option.some.inj hrole
        rw [hfirst]
        exact ih hrest
      · cases hrole

theorem Taken.entriesOf (h : Taken env box snapshots) :
    entriesOf (.value (manifestValue env snapshots)) = snapshots.map (·.read) := by
  rw [Restore.entriesOf, manifestFiles_manifest h.nonempty]
  dsimp only [Except.bind]
  rw [mapM_entries]

end

def outboxSource : Source where
  name := text "outbox.db"
  file := [111, 117, 116, 98, 111, 120, 46, 100, 98]
  segment := by decide
  path_name := by decide
  snapshot := some [111]

def outboxBox : Box where
  source
    | .outboxDb => some outboxSource
    | _ => none
  names := by
    intro r r' s s' hs hs' _
    cases r <;> cases r' <;> cases hs <;> cases hs'
    rfl

def sampleEnv : BackupEnv := ⟨fun _ _ => .passes, text "2026-01-01T00:00:00+00:00", text "0.2.0", fun _ => []⟩

theorem backup_outbox : backup sampleEnv false false outboxBox =
    .written (archiveOf [⟨.outboxDb, outboxSource, [111]⟩] []) (manifestValue sampleEnv [⟨.outboxDb, outboxSource, [111]⟩]) := rfl

end Panella.Restore
