import Mathlib.Data.List.Forall2
import Mathlib.Data.List.Nodup
import Panella.Lib.Directory
import Panella.Lib.Fallible
import Panella.Lib.PyPath
import Panella.Lib.Sha256

/-!
# Restoring a backup (`panella/cli/lifecycle.py:252-388`)

| here | there |
| --- | --- |
| `manifestFiles`, `readEntry`, `checkTargets` | the checks of `_cmd_restore` before the archive is read (:287-339) |
| `stageEntry` | one turn of the first loop: extraction and the SHA-256 (:346-377) |
| `placeEntry` | one turn of the second: copy to `NAME.restoring`, `chmod`, rename (:381-386) |
| `restore` | `_cmd_restore` up to the end of the placement (:260-386) |

Nothing is done to the data directory before every file of the archive is verified (`restore_of_fault`). What placement leaves
is as the manifest says, and the rest as it was, exactly if no temporary name is in the way (**`restore_exact_iff`**):
`NAME.restoring` may be a file of the data directory, or another target of the manifest, and is gone then (`restoring_lost`).

The data directory has files and folders. `MANIFEST.json` is the value `json.loads` has made of it.
-/

namespace Panella.Restore

open PyPath Directory Fallible

/-! ## The manifest -/

/-- A value of the manifest, as far as `restore` looks at it. -/
inductive Value
  | scalar
  | text (t : List CodePoint)
  | list (xs : List Value)
  | dict (kvs : List (List CodePoint × Value))

/-- `d.get(key)`. -/
def field (kvs : List (List CodePoint × Value)) (key : String) : Option Value := (kvs.find? (·.1 = text key)).map (·.2)

/-- The value is the text. -/
def isText (v : Option Value) (t : List CodePoint) : Bool :=
  match v with
  | some (.text t') => t' = t
  | _ => false

/-- How a run ends before anything is placed: with an exit code, or with a traceback. -/
inductive Stop
  | refused (code : Nat)
  | raised
deriving DecidableEq

/-- What `_load_manifest` gives. -/
inductive ManifestReading
  | invalid
  | raised
  | value (v : Value)

/-- `files`. -/
def manifestFiles : ManifestReading → Except Stop (List Value)
  | .invalid => .error (.refused 1)
  | .raised => .error .raised
  | .value (.dict kvs) =>
    match field kvs "files" with
    | some (.list (file :: files)) => .ok (file :: files)
    | _ => .error (.refused 1)
  | .value _ => .error .raised

/-- An entry whose names have passed. -/
structure Entry where
  name : List CodePoint
  targetName : List CodePoint
  sha256 : Option Value
  role : Option Value

/-- One segment of a path. -/
def SingleSegment (t : List CodePoint) : Prop := t ≠ [] ∧ ofChar '/' ∉ t ∧ t ≠ text "." ∧ t ≠ text ".."

instance (t : List CodePoint) : Decidable (SingleSegment t) := inferInstanceAs (Decidable (_ ∧ _))

/-- One turn of the check of `name` and `target_name`. -/
def checkName : Option Value → Except Stop (List CodePoint)
  | some (.text t) => if SingleSegment t then .ok t else .error (.refused 1)
  | _ => .error (.refused 1)

/-- `entry.get("target_name", name)`. -/
def targetField (kvs : List (List CodePoint × Value)) : Option Value := (field kvs "target_name").or (field kvs "name")

def readEntry : Value → Except Stop Entry
  | .dict kvs => do
    let name ← checkName (field kvs "name")
    let targetName ← checkName (targetField kvs)
    .ok ⟨name, targetName, field kvs "sha256", field kvs "role"⟩
  | _ => .error .raised

/-! ## The archive -/

/-- What `extractfile` and the copy out of it give for a member. -/
inductive Reading
  | bytes (content : Bytes)
  | notRegular
  /-- One of the errors that are caught. -/
  | broken
  | raised

structure Member where
  name : List CodePoint
  reading : Reading

/-- A tar archive. The names of its members are decoded from bytes, so no two of them are one file. -/
structure Archive where
  members : List Member
  names : ∀ m ∈ members, ∀ m' ∈ members, ∀ p, path m.name = some p → path m'.name = some p → m.name = m'.name

/-- `tar.getmember`: the last of the name. -/
def Archive.getmember (a : Archive) (name : List CodePoint) : Option Member := a.members.reverse.find? (·.name = name)

inductive ArchiveFile
  | missing
  /-- `tarfile.open` fails. -/
  | invalid
  | opened (archive : Archive) (manifest : ManifestReading)

/-! ## Before anything is placed -/

/-- A file of the data directory. -/
structure File where
  content : Bytes
  mode : Nat

abbrev DataDir := Dir Bytes File

/-- `target.exists()`; a name no call takes does not exist. -/
def occupied (d : DataDir) (t : List CodePoint) : Bool :=
  match path t with
  | some p => (d p).isSome
  | none => false

def checkTargets (force : Bool) (d : DataDir) (entries : List Entry) : Except Stop Unit :=
  if (entries.map (·.targetName)).Nodup then
    if entries.any (fun e => occupied d e.targetName) && !force then .error (.refused 2) else .ok ()
  else .error (.refused 2)

/-- The files of the temporary directory. -/
abbrev Staging := Bytes → Option Bytes

/-- One turn of the first loop. -/
def stageEntry (a : Archive) (staged : Staging) (e : Entry) : Except Stop Staging :=
  match a.getmember e.name with
  | none => .error (.refused 1)
  | some m =>
    match m.reading, path e.name with
    | .notRegular, _ => .error (.refused 1)
    | .raised, _ => .error .raised
    | _, none => .error .raised
    | .broken, some _ => .error (.refused 1)
    | .bytes content, some p =>
      if isText e.sha256 (text (Sha256.hexdigest content)) then .ok fun q => if q = p then some content else staged q
      else .error (.refused 1)

def stageEntries (a : Archive) : List Entry → Staging → Except Stop Staging
  | [], staged => .ok staged
  | e :: entries, staged => do
    let staged ← stageEntry a staged e
    stageEntries a entries staged

/-- All that comes before the placement: the entries, and their files in the temporary directory. -/
def prepare (a : Archive) (manifest : ManifestReading) (force : Bool) (d : DataDir) : Except Stop (List Entry × Staging) := do
  let files ← manifestFiles manifest
  let entries ← files.mapM readEntry
  checkTargets force d entries
  let staged ← stageEntries a entries fun _ => none
  .ok (entries, staged)

/-! ## Placement -/

/-- `_SENSITIVE_ROLES`. -/
def sensitiveRoles : List String := ["store_db", "token_db", "audit_db", "outbox_db", "governance_overlay"]

/-- What is done to the file for its role; a role that cannot be hashed raises. -/
def settleRole : Option Value → Option (File → File)
  | some (.list _) | some (.dict _) => none
  | some (.text t) => some fun file => if t ∈ sensitiveRoles.map text then { file with mode := 0o600 } else file
  | _ => some id

/-- `".restoring"`. -/
def restoring : List CodePoint := text ".restoring"

def Entry.tempName (e : Entry) : List CodePoint := e.targetName ++ restoring

/-- One turn of the second loop, from the mode of the staged files; the directory as it is where it raises. -/
def placeEntry (mode : Nat) (staged : Staging) (d : DataDir) (e : Entry) : Except DataDir DataDir :=
  match path e.name, path e.targetName, path e.tempName with
  | some source, some target, some temp =>
    match (staged source).bind fun content => copyTo d source ⟨content, mode⟩ temp with
    | none => .error d
    | some copied =>
      match settleRole e.role with
      | none => .error copied
      | some settle =>
        match replace (alter copied temp settle) temp target with
        | none => .error (alter copied temp settle)
        | some d' => .ok d'
  | _, _, _ => .error d

def placeEntries (mode : Nat) (staged : Staging) : List Entry → DataDir → Except DataDir DataDir
  | [], d => .ok d
  | e :: entries, d => do
    let d ← placeEntry mode staged d e
    placeEntries mode staged entries d

inductive Outcome
  | refused (code : Nat)
  | raised
  /-- Placement raised. -/
  | interrupted (d : DataDir)
  | restored (d : DataDir)

/-- The data directory after the run. -/
def Outcome.dir (d : DataDir) : Outcome → DataDir
  | .refused _ | .raised => d
  | .interrupted d' | .restored d' => d'

/-- `_cmd_restore`. -/
def restore (archive : ArchiveFile) (force : Bool) (mode : Nat) (d : DataDir) : Outcome :=
  match archive with
  | .missing => .refused 2
  | .invalid => .refused 1
  | .opened a manifest =>
    match prepare a manifest force d with
    | .error (.refused code) => .refused code
    | .error .raised => .raised
    | .ok (entries, staged) =>
      match placeEntries mode staged entries d with
      | .ok d' => .restored d'
      | .error d' => .interrupted d'

/-! ## What is asked of it -/

def nameOf : Value → Option Value
  | .dict kvs => field kvs "name"
  | _ => none

def targetOf : Value → Option Value
  | .dict kvs => targetField kvs
  | _ => none

def sha256Of : Value → Option Value
  | .dict kvs => field kvs "sha256"
  | _ => none

/-- What is wrong with an entry of the manifest, or with a target. -/
inductive Fault (a : Archive) (files : List Value) (force : Bool) (d : DataDir) : Prop
  | badName {v : Value} (hv : v ∈ files) (h : ∀ t, nameOf v = some (.text t) → ¬ SingleSegment t)
  | badTarget {v : Value} (hv : v ∈ files) (h : ∀ t, targetOf v = some (.text t) → ¬ SingleSegment t)
  | duplicated (h : ¬ (files.map targetOf).Nodup)
  | missing {v : Value} {t : List CodePoint} (hv : v ∈ files) (hname : nameOf v = some (.text t))
      (h : ∀ m ∈ a.members, m.name ≠ t)
  | unreadable {v : Value} {t : List CodePoint} {m : Member} (hv : v ∈ files) (hname : nameOf v = some (.text t))
      (hm : a.getmember t = some m) (h : ∀ content, m.reading ≠ .bytes content)
  | mismatch {v : Value} {t : List CodePoint} {m : Member} {content : Bytes} (hv : v ∈ files)
      (hname : nameOf v = some (.text t)) (hm : a.getmember t = some m) (hcontent : m.reading = .bytes content)
      (h : isText (sha256Of v) (text (Sha256.hexdigest content)) = false)
  | occupied {v : Value} {t : List CodePoint} (hv : v ∈ files) (htarget : targetOf v = some (.text t))
      (h : occupied d t = true) (hforce : force = false)

/-- The entries of the manifest, where all their names pass. -/
def entriesOf (manifest : ManifestReading) : List Entry :=
  match (manifestFiles manifest).bind (·.mapM readEntry) with
  | .ok entries => entries
  | .error _ => []

/-- Every target is a file with the bytes the manifest states, every other name is as it was, and no temporary file is left. -/
structure Exact (entries : List Entry) (d d' : DataDir) : Prop where
  placed : ∀ e ∈ entries, ∃ p file, path e.targetName = some p ∧ d' p = some (.file file) ∧
    isText e.sha256 (text (Sha256.hexdigest file.content)) = true
  others : ∀ p, (∀ e ∈ entries, path e.targetName ≠ some p) → d' p = d p
  gone : ∀ e ∈ entries, ∀ p, path e.tempName = some p → (∀ e' ∈ entries, path e'.targetName ≠ some p) → d' p = none

theorem path_restoring : path restoring = some [46, 114, 101, 115, 116, 111, 114, 105, 110, 103] := by decide

/-- What is put in place for an entry. -/
def itemOf (a : Archive) (mode : Nat) (e : Entry) : Option (Item Bytes File) :=
  match path e.name, path e.targetName, a.getmember e.name, settleRole e.role with
  | some source, some target, some ⟨_, .bytes content⟩, some settle =>
    some
      { source, target, settle
        temp := target ++ [46, 114, 101, 115, 116, 111, 114, 105, 110, 103]
        content := ⟨content, mode⟩
        temp_ne := by simp }
  | _, _, _, _ => none

def itemsOf (a : Archive) (mode : Nat) (manifest : ManifestReading) : List (Item Bytes File) :=
  (entriesOf manifest).filterMap (itemOf a mode)

/-- Bytes with the digest of the item's. -/
def SameDigest (i : Item Bytes File) (file : File) : Prop := Sha256.hexdigest file.content = Sha256.hexdigest i.content.content

/-! ## The checks -/

section
variable {a : Archive} {files : List Value} {entries : List Entry} {force : Bool} {d d' : DataDir} {v : Value} {e : Entry}
  {staged staged' : Staging} {mode : Nat} {manifest : ManifestReading} {t : List CodePoint} {m : Member}

theorem checkName_spec {x : Option Value} (h : checkName x = .ok t) : x = some (.text t) ∧ SingleSegment t := by
  unfold checkName at h
  split at h
  · split at h
    · next hsegment =>
      cases h
      exact ⟨rfl, hsegment⟩
    · cases h
  · cases h

structure Reads (v : Value) (e : Entry) : Prop where
  name : nameOf v = some (.text e.name)
  name_ok : SingleSegment e.name
  target : targetOf v = some (.text e.targetName)
  target_ok : SingleSegment e.targetName
  sha256 : sha256Of v = e.sha256

theorem readEntry_spec (h : readEntry v = .ok e) : Reads v e := by
  cases v with
  | dict kvs =>
    obtain ⟨name, hname, h⟩ := bind_ok h
    obtain ⟨targetName, htarget, h⟩ := bind_ok h
    cases h
    obtain ⟨hname, hname_ok⟩ := checkName_spec hname
    obtain ⟨htarget, htarget_ok⟩ := checkName_spec htarget
    exact ⟨hname, hname_ok, htarget, htarget_ok, rfl⟩
  | _ => cases h

theorem reads_of_mapM (h : files.mapM readEntry = .ok entries) : List.Forall₂ Reads files entries :=
  (mapM_ok h).imp fun _ _ => readEntry_spec

theorem getmember_spec (h : a.getmember t = some m) : m ∈ a.members ∧ m.name = t := by
  unfold Archive.getmember at h
  have hname := List.find?_some h
  exact ⟨List.mem_reverse.1 (List.mem_of_find?_eq_some h), of_decide_eq_true hname⟩

/-- An entry whose file is in the temporary directory. -/
structure Staged (a : Archive) (staged : Staging) (e : Entry) (content p : Bytes) : Prop where
  member : ∃ m, a.getmember e.name = some m ∧ m.reading = .bytes content
  path : path e.name = some p
  sha256 : isText e.sha256 (text (Sha256.hexdigest content)) = true
  holds : staged p = some content

theorem stageEntry_spec (h : stageEntry a staged e = .ok staged') :
    ∃ content p, Staged a staged' e content p ∧ ∀ q, staged' q = if q = p then some content else staged q := by
  unfold stageEntry at h
  split at h
  · cases h
  · next m hm =>
    split at h
    · cases h
    · cases h
    · cases h
    · cases h
    · next content p hreading hpath =>
      split at h
      · next hsha =>
        cases h
        exact ⟨content, p, ⟨⟨m, hm, hreading⟩, hpath, hsha, if_pos rfl⟩, fun q => rfl⟩
      · cases h

/-- A staged file stays: another member of its path is the same member. -/
theorem Staged.stage {content p : Bytes} (h : Staged a staged e content p) {e' : Entry}
    (hstage : stageEntry a staged e' = .ok staged') :
    Staged a staged' e content p := by
  obtain ⟨content', p', h', heq⟩ := stageEntry_spec hstage
  refine ⟨h.member, h.path, h.sha256, ?_⟩
  rw [heq]
  by_cases hp : p = p'
  · obtain ⟨m, hm, hreading⟩ := h.member
    obtain ⟨m', hm', hreading'⟩ := h'.member
    have hname : m.name = m'.name := by
      apply a.names m (getmember_spec hm).1 m' (getmember_spec hm').1 p
      · rw [(getmember_spec hm).2, h.path]
      · rw [(getmember_spec hm').2, h'.path, hp]
    rw [(getmember_spec hm).2, (getmember_spec hm').2] at hname
    obtain rfl := Option.some.inj (hm.symm.trans (hname ▸ hm'))
    obtain rfl := Reading.bytes.inj (hreading.symm.trans hreading')
    exact if_pos hp
  · rw [if_neg hp, h.holds]

theorem Staged.stageAll {content p : Bytes} (h : Staged a staged e content p)
    (hstage : stageEntries a entries staged = .ok staged') :
    Staged a staged' e content p := by
  induction entries generalizing staged with
  | nil =>
    cases hstage
    exact h
  | cons e' entries ih =>
    obtain ⟨staged₁, hfirst, hrest⟩ := bind_ok hstage
    exact ih (h.stage hfirst) hrest

/-- **Every file is staged** as its member has it. -/
theorem stageEntries_spec (h : stageEntries a entries staged = .ok staged') :
    ∀ e ∈ entries, ∃ content p, Staged a staged' e content p := by
  induction entries generalizing staged with
  | nil => simp
  | cons e entries ih =>
    obtain ⟨staged₁, hfirst, hrest⟩ := bind_ok h
    obtain ⟨content, p, hstaged, -⟩ := stageEntry_spec hfirst
    exact List.forall_mem_cons.2 ⟨⟨content, p, hstaged.stageAll hrest⟩, ih hrest⟩

/-- What the checks have established where the placement starts. -/
structure Prepared (a : Archive) (files : List Value) (force : Bool) (d : DataDir) (entries : List Entry)
    (staged : Staging) : Prop where
  reads : List.Forall₂ Reads files entries
  targets : (entries.map (·.targetName)).Nodup
  free : force = true ∨ ∀ e ∈ entries, occupied d e.targetName = false
  staged : ∀ e ∈ entries, ∃ content p, Staged a staged e content p

theorem checkTargets_spec (h : checkTargets force d entries = .ok ()) :
    (entries.map (·.targetName)).Nodup ∧ (force = true ∨ ∀ e ∈ entries, occupied d e.targetName = false) := by
  unfold checkTargets at h
  split at h
  · next hnodup =>
    split at h
    · cases h
    · next hfree =>
      refine ⟨hnodup, ?_⟩
      cases force with
      | true => exact .inl rfl
      | false => exact .inr (by simpa using hfree)
  · cases h

theorem prepare_spec (h : prepare a manifest force d = .ok (entries, staged)) :
    ∃ files, manifestFiles manifest = .ok files ∧ entriesOf manifest = entries ∧ Prepared a files force d entries staged := by
  obtain ⟨files, hfiles, h⟩ := bind_ok h
  obtain ⟨entries', hentries, h⟩ := bind_ok h
  obtain ⟨_, hcheck, h⟩ := bind_ok h
  obtain ⟨staged', hstaged, h⟩ := bind_ok h
  cases h
  obtain ⟨htargets, hfree⟩ := checkTargets_spec hcheck
  refine ⟨files, hfiles, ?_, reads_of_mapM hentries, htargets, hfree, stageEntries_spec hstaged⟩
  rw [entriesOf, hfiles]
  change (match files.mapM readEntry with | .ok entries => entries | .error _ => []) = _
  rw [hentries]

theorem Reads.exists_of_mem (h : List.Forall₂ Reads files entries) (hv : v ∈ files) : ∃ e ∈ entries, Reads v e := by
  induction h with
  | nil => cases hv
  | cons hread hrest ih =>
    rcases List.mem_cons.1 hv with rfl | hv
    · exact ⟨_, List.mem_cons_self, hread⟩
    · obtain ⟨e, he, hread⟩ := ih hv
      exact ⟨e, List.mem_cons_of_mem _ he, hread⟩

theorem Reads.map_targetOf (h : List.Forall₂ Reads files entries) :
    files.map targetOf = entries.map fun e => some (.text e.targetName) := by
  induction h with
  | nil => rfl
  | cons hread hrest ih => rw [List.map_cons, List.map_cons, ih, hread.target]

/-- **Where the placement starts, nothing is wrong.** -/
theorem Prepared.not_fault (h : Prepared a files force d entries staged) : ¬ Fault a files force d := by
  have hentry : ∀ {v t}, v ∈ files → nameOf v = some (.text t) → ∃ e ∈ entries, Reads v e ∧ e.name = t := by
    intro v t hv hname
    obtain ⟨e, he, hread⟩ := Reads.exists_of_mem h.reads hv
    cases hread.name.symm.trans hname
    exact ⟨e, he, hread, rfl⟩
  intro hfault
  cases hfault with
  | badName hv hbad =>
    obtain ⟨e, -, hread⟩ := Reads.exists_of_mem h.reads hv
    exact hbad _ hread.name hread.name_ok
  | badTarget hv hbad =>
    obtain ⟨e, -, hread⟩ := Reads.exists_of_mem h.reads hv
    exact hbad _ hread.target hread.target_ok
  | duplicated hdup =>
    apply hdup
    have hinj : Function.Injective fun t : List CodePoint => some (Value.text t) := by
      intro t t' heq
      cases heq
      rfl
    have hnodup := List.Nodup.map hinj h.targets
    rw [List.map_map] at hnodup
    rw [Reads.map_targetOf h.reads]
    exact hnodup
  | missing hv hname hmissing =>
    obtain ⟨e, he, -, rfl⟩ := hentry hv hname
    obtain ⟨content, p, hstaged⟩ := h.staged e he
    obtain ⟨m, hm, -⟩ := hstaged.member
    exact hmissing m (getmember_spec hm).1 (getmember_spec hm).2
  | unreadable hv hname hm hbroken =>
    obtain ⟨e, he, -, rfl⟩ := hentry hv hname
    obtain ⟨content, p, hstaged⟩ := h.staged e he
    obtain ⟨m', hm', hreading⟩ := hstaged.member
    cases hm.symm.trans hm'
    exact hbroken content hreading
  | mismatch hv hname hm hcontent hsha =>
    obtain ⟨e, he, hread, rfl⟩ := hentry hv hname
    obtain ⟨content, p, hstaged⟩ := h.staged e he
    obtain ⟨m', hm', hreading⟩ := hstaged.member
    cases hm.symm.trans hm'
    cases hcontent.symm.trans hreading
    rw [hread.sha256, hstaged.sha256] at hsha
    cases hsha
  | occupied hv htarget hoccupied hforce =>
    obtain ⟨e, he, hread⟩ := Reads.exists_of_mem h.reads hv
    cases hread.target.symm.trans htarget
    rcases h.free with hfree | hfree
    · rw [hforce] at hfree
      cases hfree
    · rw [hfree e he] at hoccupied
      cases hoccupied


/-! ## The placement -/

theorem text_injective : Function.Injective text := by
  have hchar : Function.Injective ofChar := by
    intro c c' h
    exact Char.toNat_inj.1 (Fin.mk.inj h)
  intro x y h
  exact String.toList_inj.1 (List.map_injective_iff.2 hchar h)

/-- The item of an entry, in the entry's own terms. -/
structure Installs (a : Archive) (e : Entry) (i : Item Bytes File) : Prop where
  target : path e.targetName = some i.target
  temp : path e.tempName = some i.temp
  member : ∃ m, a.getmember e.name = some m ∧ m.reading = .bytes i.content.content
  settle : ∀ file, (i.settle file).content = file.content

theorem settleRole_content {role : Option Value} {settle : File → File} (h : settleRole role = some settle) (file : File) :
    (settle file).content = file.content := by
  unfold settleRole at h
  split at h
  · cases h
  · cases h
  · cases h
    dsimp only
    split <;> rfl
  · cases h
    rfl

theorem itemOf_spec {i : Item Bytes File} (h : itemOf a mode e = some i) : Installs a e i := by
  unfold itemOf at h
  split at h
  · next source target content settle hsource htarget hmember hsettle =>
    cases h
    refine ⟨htarget, ?_, ⟨_, hmember, rfl⟩, settleRole_content hsettle⟩
    rw [Entry.tempName, path_append path_restoring, htarget]
    rfl
  · cases h

/-- **One turn** puts the item in place. -/
theorem placeEntry_item {content p : Bytes} (hstaged : Staged a staged e content p) (h : placeEntry mode staged d e = .ok d') :
    ∃ i, itemOf a mode e = some i ∧ place d i = some d' := by
  obtain ⟨⟨name, reading⟩, hm, hreading⟩ := hstaged.member
  dsimp only at hreading
  subst hreading
  unfold placeEntry at h
  split at h
  · next source target temp hsource htarget htemp =>
    cases hsource.symm.trans hstaged.path
    rw [Entry.tempName, path_append path_restoring, htarget] at htemp
    cases htemp
    rw [hstaged.holds, Option.bind_some] at h
    split at h
    · cases h
    · next copied hcopy =>
      split at h
      · cases h
      · next settle hsettle =>
        split at h
        · cases h
        · next replaced hreplace =>
          cases h
          refine ⟨_, by rw [itemOf, hsource, htarget, hm, hsettle], ?_⟩
          rw [place, hcopy]
          exact hreplace
  · cases h

theorem placeEntries_items (hstaged : ∀ e ∈ entries, ∃ content p, Staged a staged e content p)
    (h : placeEntries mode staged entries d = .ok d') :
    (∀ e ∈ entries, ∃ i, itemOf a mode e = some i) ∧ placeAll (entries.filterMap (itemOf a mode)) d = some d' := by
  induction entries generalizing d with
  | nil =>
    cases h
    exact ⟨by simp, rfl⟩
  | cons e entries ih =>
    obtain ⟨d₁, hfirst, hrest⟩ := bind_ok h
    obtain ⟨⟨content, p, he⟩, hstaged⟩ := List.forall_mem_cons.1 hstaged
    obtain ⟨i, hitem, hplace⟩ := placeEntry_item he hfirst
    obtain ⟨hitems, hall⟩ := ih hstaged hrest
    refine ⟨List.forall_mem_cons.2 ⟨⟨i, hitem⟩, hitems⟩, ?_⟩
    rw [List.filterMap_cons_some hitem, placeAll, hplace, Option.bind_some, hall]

/-- **The items are in place** where the entries are restored as the manifest says. -/
theorem placed_iff_exact (hstaged : ∀ e ∈ entries, ∃ content p, Staged a staged e content p)
    (hitems : ∀ e ∈ entries, ∃ i, itemOf a mode e = some i) :
    Placed SameDigest (entries.filterMap (itemOf a mode)) d d' ↔ Exact entries d d' := by
  have hmem : ∀ {i}, i ∈ entries.filterMap (itemOf a mode) → ∃ e ∈ entries, Installs a e i := by
    intro i hi
    obtain ⟨e, he, hitem⟩ := List.mem_filterMap.1 hi
    exact ⟨e, he, itemOf_spec hitem⟩
  have hentry : ∀ e ∈ entries, ∃ i ∈ entries.filterMap (itemOf a mode), Installs a e i := by
    intro e he
    obtain ⟨i, hi⟩ := hitems e he
    exact ⟨i, List.mem_filterMap.2 ⟨e, he, hi⟩, itemOf_spec hi⟩
  -- a name is free of the entries' targets where it is free of the items'
  have hfree : ∀ p, (∀ e ∈ entries, path e.targetName ≠ some p) ↔ ∀ i ∈ entries.filterMap (itemOf a mode), i.target ≠ p := by
    intro p
    constructor
    · rintro h i hi rfl
      obtain ⟨e, he, hinstalls⟩ := hmem hi
      exact h e he hinstalls.target
    · intro h e he htarget
      obtain ⟨i, hi, hinstalls⟩ := hentry e he
      exact h i hi (Option.some.inj (hinstalls.target.symm.trans htarget))
  have hdigest : ∀ {e i file}, e ∈ entries → Installs a e i →
      (isText e.sha256 (text (Sha256.hexdigest file)) = true ↔ Sha256.hexdigest file = Sha256.hexdigest i.content.content) := by
    intro e i file he hinstalls
    obtain ⟨content, p, hstage⟩ := hstaged e he
    obtain ⟨m, hm, hreading⟩ := hstage.member
    obtain ⟨m', hm', hreading'⟩ := hinstalls.member
    cases hm.symm.trans hm'
    cases hreading.symm.trans hreading'
    have hsha := hstage.sha256
    unfold isText at hsha ⊢
    split at hsha
    · next t _ =>
      obtain rfl := of_decide_eq_true hsha
      rw [decide_eq_true_eq, text_injective.eq_iff, eq_comm]
    · cases hsha
  constructor
  · intro h
    refine ⟨?_, fun p hp => h.others p ((hfree p).1 hp), ?_⟩
    · intro e he
      obtain ⟨i, hi, hinstalls⟩ := hentry e he
      obtain ⟨file, hfile, hgood⟩ := h.placed i hi
      exact ⟨i.target, file, hinstalls.target, hfile, (hdigest he hinstalls).2 hgood⟩
    · intro e he p hp hother
      obtain ⟨i, hi, hinstalls⟩ := hentry e he
      obtain rfl := Option.some.inj (hinstalls.temp.symm.trans hp)
      exact h.gone i hi ((hfree _).1 hother)
  · intro h
    refine ⟨?_, fun p hp => h.others p ((hfree p).2 hp), ?_⟩
    · intro i hi
      obtain ⟨e, he, hinstalls⟩ := hmem hi
      obtain ⟨p, file, hp, hfile, hsha⟩ := h.placed e he
      obtain rfl := Option.some.inj (hinstalls.target.symm.trans hp)
      exact ⟨file, hfile, (hdigest he hinstalls).1 hsha⟩
    · intro i hi hother
      obtain ⟨e, he, hinstalls⟩ := hmem hi
      exact h.gone e he i.temp hinstalls.temp ((hfree _).2 hother)

/-- A run that restores has been prepared, and its placement has come to the end. -/
theorem restore_spec (h : restore (.opened a manifest) force mode d = .restored d') :
    ∃ files entries staged, entriesOf manifest = entries ∧ Prepared a files force d entries staged ∧
      placeEntries mode staged entries d = .ok d' := by
  unfold restore at h
  dsimp only at h
  split at h
  · cases h
  · cases h
  · next entries staged hprepare =>
    obtain ⟨files, -, hentries, hprepared⟩ := prepare_spec hprepare
    split at h
    · next d'' hplace =>
      cases h
      exact ⟨files, entries, staged, hentries, hprepared, hplace⟩
    · cases h

/-- **All or nothing**: with a fault anywhere in the manifest the data directory is left as it is. -/
theorem restore_of_fault (hfiles : manifestFiles manifest = .ok files) (h : Fault a files force d) :
    (restore (.opened a manifest) force mode d).dir d = d := by
  unfold restore
  dsimp only
  split
  · rfl
  · rfl
  · next entries staged hprepare =>
    obtain ⟨files', hfiles', -, hprepared⟩ := prepare_spec hprepare
    obtain rfl := Except.ok.inj (hfiles.symm.trans hfiles')
    exact absurd h hprepared.not_fault


end

/-- No fault of the manifest lets anything be placed, and what a placement leaves is exact if and only if no temporary name was in
the way. -/
theorem restore_exact_iff (a : Archive) (manifest : ManifestReading) (force : Bool) (mode : Nat) (d : DataDir) :
    (∀ files, manifestFiles manifest = .ok files → Fault a files force d →
      (restore (.opened a manifest) force mode d).dir d = d) ∧
    ∀ d', restore (.opened a manifest) force mode d = .restored d' →
      (Exact (entriesOf manifest) d d' ↔ Clear SameDigest (itemsOf a mode manifest) d) := by
  refine ⟨fun files hfiles hfault => restore_of_fault hfiles hfault, ?_⟩
  intro d' h
  obtain ⟨files, entries, staged, hentries, hprepared, hplace⟩ := restore_spec h
  obtain ⟨hitems, hall⟩ := placeEntries_items hprepared.staged hplace
  rw [itemsOf, hentries, ← placed_iff_exact hprepared.staged hitems]
  exact placed_iff_clear SameDigest hall

/-- An archive of two files. -/
def sampleArchive : Archive where
  members := [⟨text "token_db", .bytes [116]⟩, ⟨text "outbox_db", .bytes [111]⟩]
  names := by
    have hne : path (text "token_db") ≠ path (text "outbox_db") := by decide
    intro m hm m' hm' p h h'
    simp only [List.mem_cons, List.not_mem_nil, or_false] at hm hm'
    rcases hm with rfl | rfl <;> rcases hm' with rfl | rfl
    · rfl
    · exact absurd (h.trans h'.symm) hne
    · exact absurd (h'.trans h.symm) hne
    · rfl

def manifestEntry (role targetName : String) (content : Bytes) : Value :=
  .dict [(text "name", .text (text role)), (text "target_name", .text (text targetName)),
    (text "sha256", .text (text (Sha256.hexdigest content))), (text "role", .text (text role))]

def manifestOf (files : List Value) : ManifestReading := .value (.dict [(text "files", .list files)])

theorem restore_exact_iff_outbox : ∃ d',
    restore (.opened sampleArchive (manifestOf [manifestEntry "outbox_db" "outbox.db" [111]])) false 0o644 (fun _ => none) =
      .restored d' ∧
    (Exact (entriesOf (manifestOf [manifestEntry "outbox_db" "outbox.db" [111]])) (fun _ => none) d' ↔
      Clear SameDigest (itemsOf sampleArchive 0o644 (manifestOf [manifestEntry "outbox_db" "outbox.db" [111]]))
        fun _ => none) := by
  have hrestored : (match restore (.opened sampleArchive (manifestOf [manifestEntry "outbox_db" "outbox.db" [111]])) false 0o644
      (fun _ => none) with
      | .restored _ => true
      | _ => false) = true := by decide +kernel
  split at hrestored
  · next d' hrun => exact ⟨d', hrun, (restore_exact_iff _ _ false 0o644 fun _ => none).2 d' hrun⟩
  · cases hrestored

/-- The one target is the temporary name of the other. -/
def overlapping : ManifestReading :=
  manifestOf [manifestEntry "token_db" "state.db.restoring" [116], manifestEntry "outbox_db" "state.db" [111]]

/-- The bytes of `state.db.restoring`. -/
def stateRestoring : Bytes := [115, 116, 97, 116, 101, 46, 100, 98, 46, 114, 101, 115, 116, 111, 114, 105, 110, 103]

/-- Both are restored, and the first is gone. -/
theorem restoring_lost : ¬ ∀ d', restore (.opened sampleArchive overlapping) false 0o644 (fun _ => none) = .restored d' →
    Exact (entriesOf overlapping) (fun _ => none) d' := by
  intro h
  have hgone : (match restore (.opened sampleArchive overlapping) false 0o644 (fun _ => none) with
      | .restored d' => (d' stateRestoring).isNone
      | _ => false) = true := by decide +kernel
  have htarget : (entriesOf overlapping).head?.bind (path ·.targetName) = some stateRestoring := by decide +kernel
  split at hgone
  · next d' hrun =>
    obtain ⟨e, he, hpath⟩ := Option.bind_eq_some_iff.1 htarget
    obtain ⟨p, file, hp, hfile, -⟩ := (h d' hrun).placed e (List.mem_of_mem_head? he)
    obtain rfl := Option.some.inj (hpath.symm.trans hp)
    rw [hfile] at hgone
    cases hgone
  · cases hgone

end Panella.Restore
