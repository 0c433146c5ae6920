import Panella.Lib.AtomicWrite
import Panella.Lib.Machine
import Panella.Lib.Mutex
import Panella.UpEnv

/-!
# Bringing a box up (`panella/cli/up.py`)

| here | there |
| --- | --- |
| `Phase.opened` | `_up` to the `flock` (:359-390) |
| `advanceEntered` | `_ensure_operator_dir`, `_operator_state`, the recovery check and the asset (:391-410), `_materialize_compose` (:152-174) |
| `AtomicWrite.step` | `_atomic_write` (:123-141) |
| `advanceReading` | `_upsert_env` (:177-229) |
| `advanceUp` from `starting` | `_compose_up` and the child `panella init` (:412-448) |

Any number of `up`s run on one home, step by step in any order; every step of a file write may fail, a `write` may be short, and a
process may be killed anywhere, its child with it. Operators run `panella init` there while no `up` does. What holds throughout:
one `up` at most is past the lock; `.env` comes by edits in one piece from what it was, and `docker-compose.yml` is made once and as a
whole (**`home_whole`**); the API key is made once and never changed (**`apiKey_stays`**), and no file that has it can be read by others
(**`apiKey_private`**); and compose is started on a home that is complete (**`up_ready`**).
-/

namespace Panella.Up

open Machine Mutex EnvFile

abbrev Bytes := EnvFile.Bytes
abbrev Slot := AtomicWrite.Slot UInt8
abbrev Writer := AtomicWrite.Writer UInt8

/-- A file as the other module has it. -/
def ofFile (f : AtomicWrite.File UInt8) : File := ⟨f.content, f.mode⟩

/-- The files of a home. -/
structure Home where
  compose : Slot
  env : Slot
  approval : Bool
  overlay : Bool
  bearer : Bool

/-- The `.env` that is there. -/
def Home.envFile (h : Home) : Option File := h.env.file.map ofFile

/-- `_operator_state`: `"provisioned"`, `"fresh"` or `"partial"`. -/
inductive OperatorState
  | provisioned
  | fresh
  | incomplete

def Home.operatorState (h : Home) : OperatorState :=
  if h.approval && h.overlay then .provisioned else if !h.approval && !h.overlay && !h.bearer then .fresh else .incomplete

/-- Where an `up` is; `ended` has the exit code, or `none` for a traceback. -/
inductive Phase
  | idle
  | opened
  | entered
  | composing (asset : Bytes) (w : Writer)
  | reading (asset : Bytes)
  | writing (asset content : Bytes) (mode : Nat) (w : Writer)
  | starting (asset : Bytes)
  | child (asset : Bytes)
  | ended (code : Option Nat)

/-- It has the lock. -/
def Phase.inside : Phase → Option Unit
  | .idle | .opened | .ended _ => none
  | _ => some ()

def Phase.free : Phase → Bool
  | .idle | .ended _ => true
  | _ => false

/-- What `panella init` does to a home: the operator files it makes, and `.env` where it gets there. -/
structure Init where
  approval : Bool
  overlay : Bool
  bearer : Bool
  upserts : Bool

/-- What one step meets. -/
structure Input where
  /-- A step of `_atomic_write`. -/
  io : AtomicWrite.Input
  /-- A path is not a regular file or directory of the user. -/
  unsafePath : Bool
  /-- `_has_recovery_resources`. -/
  recovery : Option Bool
  /-- `_embedded_compose`. -/
  asset : Option Bytes
  generated : Generated
  /-- `docker compose up` succeeds, or the child `init` and its bearer is not empty. -/
  succeeds : Bool
  init : Init

def initHome (i : Init) (h : Home) : Home :=
  { compose := h.compose
    env := if i.upserts then { h.env with file := some ⟨(upsertComposeEnv h.envFile).content, (upsertComposeEnv h.envFile).mode⟩ } else h.env
    approval := h.approval || i.approval
    overlay := h.overlay || i.overlay
    bearer := h.bearer || i.bearer }

/-- From the lock to `docker-compose.yml`. -/
def advanceEntered (h : Home) (i : Input) : Phase :=
  if i.unsafePath then .ended (some 2)
  else
    match h.operatorState, i.recovery, i.asset with
    | .incomplete, _, _ => .ended (some 2)
    | .fresh, none, _ | .fresh, some true, _ => .ended (some 2)
    | _, _, none => .ended (some 2)
    | _, _, some asset =>
      match h.compose.file with
      | none => .composing asset .unlinking
      | some f => if f.content = asset then .reading asset else .ended (some 2)

/-- Where a writer has come to. -/
def afterWrite (done : Phase) (going : Writer → Phase) : Writer → Phase
  | .done => done
  | .failed => .ended none
  | w => going w

def advanceReading (h : Home) (i : Input) (asset : Bytes) : Phase :=
  if i.unsafePath then .ended (some 2)
  else
    match upsertEnv i.generated h.envFile with
    | .refused => .ended (some 2)
    | .kept => .starting asset
    | .written content mode => .writing asset content mode .unlinking

/-- One step of an `up`. -/
def advanceUp (free : Bool) (h : Home) (i : Input) : Phase → Home × Phase
  | .idle => (h, .idle)
  | .ended code => (h, .ended code)
  | .opened => (h, if free then .entered else .ended (some 2))
  | .entered => (h, advanceEntered h i)
  | .composing asset w =>
    let next := AtomicWrite.step asset 0o600 i.io w h.compose
    ({ h with compose := next.2 }, afterWrite (.reading asset) (.composing asset) next.1)
  | .reading asset => (h, advanceReading h i asset)
  | .writing asset content mode w =>
    let next := AtomicWrite.step content mode i.io w h.env
    ({ h with env := next.2 }, afterWrite (.starting asset) (.writing asset content mode) next.1)
  | .starting asset => (h, if i.succeeds then .child asset else .ended (some 3))
  | .child _ =>
    let h := initHome i.init h
    (h, .ended (some (if i.succeeds && h.bearer then 0 else 4)))

/-! ## The system -/

structure UpSystem where
  home : Home
  holder : Unit → Option Nat
  ups : Nat → Phase

def UpSystem.initial (home : Home) : UpSystem := ⟨home, fun _ => none, fun _ => .idle⟩

inductive UpAction
  | start (p : Nat)
  | advance (p : Nat) (i : Input)
  /-- The process is killed. -/
  | crash (p : Nat)
  /-- An operator runs `panella init`. -/
  | init (i : Init)

def UpSystem.move (s : UpSystem) (p : Nat) (home : Home) (u : Phase) : UpSystem where
  home := home
  holder := pass s.holder p (s.ups p).inside u.inside
  ups := Function.update s.ups p u

def upStep (s : UpSystem) : UpAction → UpSystem
  | .start p => if (s.ups p).free then s.move p s.home .opened else s
  | .advance p i =>
    let next := advanceUp (s.holder ()).isNone s.home i (s.ups p)
    s.move p next.1 next.2
  | .crash p => s.move p s.home .idle
  | .init i => if (s.holder ()).isNone then { s with home := initHome i s.home } else s

/-! ## The `.env` file, edited in one piece -/

/-- One edit of `.env`. -/
inductive Edited : Option File → Option File → Prop
  | up {file : Option File} {content : Bytes} {mode : Nat} (g : Generated) (h : upsertEnv g file = .written content mode) :
    Edited file (some ⟨content, mode⟩)
  | init {file : Option File} : Edited file (some (upsertComposeEnv file))

theorem Edited.keyValues {file file' : Option File} (h : Edited file file') (hkey : keyValues file ≠ []) :
    Up.keyValues file' = Up.keyValues file := by
  cases h with
  | up g h =>
    rcases (upsertEnv_written h).2 with ⟨hnone, -, -⟩ | ⟨f, -, -, hsame, -⟩
    · exact absurd hnone hkey
    · exact hsame
  | init => exact upsertComposeEnv_apiValues file

theorem keyValues_edits {file file' : Option File} (h : Relation.ReflTransGen Edited file file') (hkey : keyValues file ≠ []) :
    keyValues file' = keyValues file := by
  induction h with
  | refl => rfl
  | tail _ hedit ih => rw [hedit.keyValues (by rwa [ih]), ih]

/-- Only the user can read the file, if it has the API key. -/
def Private (f : File) : Prop := apiValues f.content ≠ [] → f.mode &&& 0o077 = 0

theorem Edited.mode {file : Option File} {content : Bytes} {mode : Nat} {g : Generated}
    (h : upsertEnv g file = .written content mode) (hprivate : ∀ f ∈ file, Private f) : mode &&& 0o077 = 0 := by
  rcases (upsertEnv_written h).2 with ⟨-, -, rfl⟩ | ⟨f, rfl, hkey, -, rfl⟩
  · decide
  · exact hprivate f rfl hkey

theorem Edited.keepsPrivate {file file' : Option File} (h : Edited file file') (hprivate : ∀ f ∈ file, Private f) :
    ∀ f ∈ file', Private f := by
  cases h with
  | up g h =>
    rintro f ⟨⟩ -
    exact Edited.mode h hprivate
  | init =>
    rintro f ⟨⟩ hkey
    rw [upsertComposeEnv_apiValues] at hkey
    cases file with
    | none => exact absurd rfl hkey
    | some f => exact hprivate f rfl hkey

theorem keepsPrivate_edits {file file' : Option File} (h : Relation.ReflTransGen Edited file file')
    (hprivate : ∀ f ∈ file, Private f) : ∀ f ∈ file', Private f := by
  induction h with
  | refl => exact hprivate
  | tail _ hedit ih => exact hedit.keepsPrivate ih

/-! ## What holds of a home -/

variable {A : Bytes → Prop} {h h' : Home} {u : Phase} {i : Input} {free : Bool}

def Home.HasCompose (h : Home) (asset : Bytes) : Prop := ∃ mode, h.compose.file = some ⟨asset, mode⟩

def Home.HasEnv (h : Home) : Prop := ∃ f, h.envFile = some f ∧ Ready f.content

/-- What an `up` that has come so far relies on, with `A` the assets there are. -/
def Sound (A : Bytes → Prop) (h : Home) : Phase → Prop
  | .composing asset w => A asset ∧ h.compose.file = none ∧ w ≠ .done ∧ AtomicWrite.Progress asset 0o600 w h.compose
  | .reading asset => h.HasCompose asset
  | .writing asset content mode w =>
    h.HasCompose asset ∧ w ≠ .done ∧ AtomicWrite.Progress content mode w h.env ∧ ∃ g, upsertEnv g h.envFile = .written content mode
  | .starting asset | .child asset => h.HasCompose asset ∧ h.HasEnv
  | .idle | .opened | .entered | .ended _ => True

/-- `.env` has been edited, and `docker-compose.yml` is as it was or has been made. -/
structure Published (A : Bytes → Prop) (h h' : Home) : Prop where
  env : Relation.ReflTransGen Edited h.envFile h'.envFile
  compose : h'.compose.file = h.compose.file ∨
    h.compose.file = none ∧ ∃ asset, A asset ∧ h'.compose.file = some ⟨asset, 0o600⟩

theorem Published.refl (h : Home) : Published A h h := ⟨.refl, .inl rfl⟩

theorem Published.trans {h'' : Home} (h₁ : Published A h h') (h₂ : Published A h' h'') : Published A h h'' := by
  refine ⟨h₁.env.trans h₂.env, ?_⟩
  rcases h₂.compose with hsame | ⟨hnone, hmade⟩
  · rw [hsame]
    exact h₁.compose
  · rcases h₁.compose with hsame | ⟨-, asset, -, hmade'⟩
    · exact .inr ⟨hsame ▸ hnone, hmade⟩
    · rw [hmade'] at hnone
      cases hnone

theorem published_init (j : Init) (h : Home) : Published A h (initHome j h) := by
  refine ⟨?_, .inl rfl⟩
  cases hup : j.upserts with
  | false => simpa [initHome, Home.envFile, hup] using Relation.ReflTransGen.refl
  | true => simpa [initHome, Home.envFile, ofFile, hup] using Relation.ReflTransGen.single (@Edited.init h.envFile)

/-- A write that is not done goes on, or has failed. -/
theorem afterWrite_going {w : Writer} {done : Phase} {going : Writer → Phase} (hw : w ≠ .done) (hgoing : Sound A h (going w)) :
    Sound A h (afterWrite done going w) := by
  cases w with
  | done => exact absurd rfl hw
  | failed => trivial
  | _ => exact hgoing

theorem afterWrite_done {w : Writer} {done : Phase} {going : Writer → Phase} (hw : w = .done) (hdone : Sound A h done) :
    Sound A h (afterWrite done going w) := by
  rw [hw]
  exact hdone

theorem sound_entered (hassets : ∀ asset ∈ i.asset, A asset) : Sound A h (advanceEntered h i) := by
  unfold advanceEntered
  split
  · trivial
  · split
    · trivial
    · trivial
    · trivial
    · trivial
    · next hasset _ _ _ =>
      cases hfile : h.compose.file with
      | none => exact ⟨hassets _ hasset, hfile, nofun, trivial⟩
      | some f =>
        simp only
        split
        · next hsame => exact ⟨f.mode, by rw [hfile, ← hsame]⟩
        · trivial

theorem sound_composing {asset : Bytes} {w : Writer} (hu : Sound A h (.composing asset w)) :
    Sound A (advanceUp free h i (.composing asset w)).1 (advanceUp free h i (.composing asset w)).2 ∧
      Published A h (advanceUp free h i (.composing asset w)).1 := by
  obtain ⟨hasset, hnone, hw, hprogress⟩ := hu
  rcases AtomicWrite.step_file (i := i.io) hprogress hw with ⟨hgoing, hfile⟩ | ⟨hdone, hslot⟩
  · refine ⟨afterWrite_going hgoing ?_, .refl, .inl hfile⟩
    exact ⟨hasset, hfile.trans hnone, hgoing, hprogress.step⟩
  · have hfile := congrArg (·.file) hslot
    refine ⟨afterWrite_done hdone ⟨0o600, hfile⟩, .refl, .inr ⟨hnone, asset, hasset, hfile⟩⟩

theorem sound_reading {asset : Bytes} (hu : h.HasCompose asset) : Sound A h (advanceReading h i asset) := by
  unfold advanceReading
  split
  · trivial
  · cases hup : upsertEnv i.generated h.envFile with
    | refused => trivial
    | kept => exact ⟨hu, upsertEnv_kept hup⟩
    | written content mode => exact ⟨hu, nofun, trivial, i.generated, hup⟩

theorem sound_writing {asset content : Bytes} {mode : Nat} {w : Writer} (hu : Sound A h (.writing asset content mode w)) :
    Sound A (advanceUp free h i (.writing asset content mode w)).1 (advanceUp free h i (.writing asset content mode w)).2 ∧
      Published A h (advanceUp free h i (.writing asset content mode w)).1 := by
  obtain ⟨hcompose, hw, hprogress, g, hup⟩ := hu
  rcases AtomicWrite.step_file (i := i.io) hprogress hw with ⟨hgoing, hfile⟩ | ⟨hdone, hslot⟩
  · have hsame : (advanceUp free h i (.writing asset content mode w)).1.envFile = h.envFile := congrArg (·.map ofFile) hfile
    refine ⟨afterWrite_going hgoing ⟨hcompose, hgoing, hprogress.step, g, hsame ▸ hup⟩, ?_, .inl rfl⟩
    rw [hsame]
  · have hfile : (advanceUp free h i (.writing asset content mode w)).1.envFile = some ⟨content, mode⟩ :=
      congrArg (·.file.map ofFile) hslot
    refine ⟨afterWrite_done hdone ⟨hcompose, _, hfile, (upsertEnv_written hup).1⟩, ?_, .inl rfl⟩
    rw [hfile]
    exact .single (.up g hup)

variable (free) in
/-- **One step of an `up`**: what comes next can rely on what it leaves. -/
theorem advance_sound (hassets : ∀ asset ∈ i.asset, A asset) (hu : Sound A h u) :
    Sound A (advanceUp free h i u).1 (advanceUp free h i u).2 ∧ Published A h (advanceUp free h i u).1 := by
  cases u with
  | idle => exact ⟨trivial, .refl h⟩
  | ended code => exact ⟨trivial, .refl h⟩
  | opened =>
    refine ⟨?_, .refl h⟩
    show Sound A h (if free then .entered else .ended (some 2))
    split <;> trivial
  | entered => exact ⟨sound_entered hassets, .refl h⟩
  | composing asset w => exact sound_composing hu
  | reading asset => exact ⟨sound_reading hu, .refl h⟩
  | writing asset content mode w => exact sound_writing hu
  | starting asset =>
    refine ⟨?_, .refl h⟩
    show Sound A h (if i.succeeds then .child asset else .ended (some 3))
    split
    · exact hu
    · trivial
  | child asset => exact ⟨trivial, published_init i.init h⟩

/-! ## What holds of the system -/

variable {s : UpSystem} {a : UpAction} {p q : Nat}

/-- One `up` at most is past the lock, and the home is as it needs it. -/
structure Exclusive (A : Bytes → Prop) (s : UpSystem) : Prop where
  held : Held s.holder fun p => (s.ups p).inside
  sound : ∀ p, Sound A s.home (s.ups p)

/-- A step brings no assets but these. -/
def UpAction.Brings (A : Bytes → Prop) (a : UpAction) : Prop := ∀ p i, a = .advance p i → ∀ asset ∈ i.asset, A asset

theorem sound_outside (hu : u.inside = none) : Sound A h u := by
  cases u with
  | idle | opened | ended code => trivial
  | _ => cases hu

theorem inside_update (ups : Nat → Phase) :
    (fun q => ((Function.update ups p u) q).inside) = Function.update (fun q => (ups q).inside) p u.inside := by
  funext q
  by_cases hq : q = p
  · subst hq
    simp
  · simp [hq]

/-- An `up` that moves: outside the lock it leaves the home alone. -/
theorem Exclusive.move (hs : Exclusive A s) (hu : Sound A h u) (hfree : u.inside.isSome → s.holder () = none ∨ (s.ups p).inside.isSome)
    (hhome : h = s.home ∨ (s.ups p).inside.isSome) : Exclusive A (s.move p h u) where
  held := by
    show Held _ fun q => ((Function.update s.ups p u) q).inside
    rw [inside_update]
    refine hs.held.pass fun k hk => ?_
    exact (hfree (by rw [hk]; rfl)).imp id Option.eq_some_of_isSome
  sound := by
    intro q
    by_cases hq : q = p
    · subst hq
      simpa [UpSystem.move] using hu
    · simp only [UpSystem.move, ne_eq, hq, not_false_eq_true, Function.update_of_ne]
      rcases hhome with rfl | hp
      · exact hs.sound q
      · -- no other is inside
        apply sound_outside
        rw [Option.eq_none_iff_forall_ne_some]
        intro k hk
        exact hq (hs.held.eq hk (Option.eq_some_of_isSome hp))

/-- Only an `up` that finds the lock free gets past it. -/
theorem advance_inside (hu : (advanceUp free h i u).2.inside.isSome) : u = .opened ∧ free = true ∨ u.inside.isSome := by
  cases u with
  | idle | ended code => cases hu
  | opened =>
    cases free with
    | true => exact .inl ⟨rfl, rfl⟩
    | false => cases hu
  | _ => exact .inr rfl

theorem advance_home : (advanceUp free h i u).1 = h ∨ u.inside.isSome := by
  cases u with
  | idle | ended code | opened => exact .inl rfl
  | _ => exact .inr rfl

/-- **Every step keeps the invariant and publishes whole files.** -/
theorem Exclusive.step (hs : Exclusive A s) (ha : a.Brings A) :
    Exclusive A (upStep s a) ∧ Published A s.home (upStep s a).home := by
  cases a with
  | start p =>
    unfold upStep
    simp only
    split
    · exact ⟨hs.move trivial nofun (.inl rfl), .refl _⟩
    · exact ⟨hs, .refl _⟩
  | crash p => exact ⟨hs.move trivial nofun (.inl rfl), .refl _⟩
  | advance p i =>
    have hnext := advance_sound (s.holder ()).isNone (ha p i rfl) (hs.sound p)
    refine ⟨hs.move hnext.1 (fun hin => ?_) advance_home, hnext.2⟩
    rcases advance_inside hin with ⟨-, hfree⟩ | hp
    · exact .inl (Option.isNone_iff_eq_none.1 hfree)
    · exact .inr hp
  | init j =>
    unfold upStep
    simp only
    split
    · next hfree =>
      refine ⟨⟨hs.held, fun p => ?_⟩, published_init j s.home⟩
      apply sound_outside
      rw [Option.eq_none_iff_forall_ne_some]
      exact fun k => hs.held.free_iff.1 (Option.isNone_iff_eq_none.1 hfree) p
    · exact ⟨hs, .refl _⟩

theorem exclusive_initial (home : Home) : Exclusive A (.initial home) := ⟨held_none, fun _ => trivial⟩

/-- The assets of the steps of a run. -/
def Assets (as : List UpAction) (asset : Bytes) : Prop := ∃ p i, UpAction.advance p i ∈ as ∧ i.asset = some asset

theorem along_brings (as : List UpAction) : Along upStep (fun _ a => a.Brings (Assets as)) s as := by
  rw [along_iff]
  rintro pre a post rfl p i rfl asset hasset
  exact ⟨p, i, by simp, hasset⟩

/-! ## Runs -/

/-- A directory with nothing in it. -/
def emptyHome : Home := ⟨⟨none, none⟩, ⟨none, none⟩, false, false, false⟩

/-- Nothing goes wrong. -/
def calm : Input where
  io := ⟨false, 64, 0o777⟩
  unsafePath := false
  recovery := some false
  asset := some [35]
  generated := ⟨⟨[49], by simp [plainByte]⟩, ⟨[49], by simp [plainByte]⟩, ⟨[49], by simp [plainByte]⟩, ⟨[98], by simp [plainByte]⟩⟩
  succeeds := true
  init := ⟨true, true, true, true⟩

/-- The first `up` is killed while it writes `.env`; the second starts compose. -/
def twoUps : List UpAction :=
  .start 0 :: List.replicate 12 (.advance 0 calm) ++ .crash 0 :: .start 1 :: List.replicate 10 (.advance 1 calm)

theorem Exclusive.run {as : List UpAction} (hs : Exclusive A s) (has : Along upStep (fun _ a => a.Brings A) s as) :
    Exclusive A (run upStep s as) ∧ Published A s.home (run upStep s as).home := by
  refine run_inv_along (I := fun t => Exclusive A t ∧ Published A s.home t.home) ?_ ⟨hs, .refl _⟩ has
  rintro t a ⟨ht, hpublished⟩ ha
  have hnext := ht.step ha
  exact ⟨hnext.1, hpublished.trans hnext.2⟩

/-- The first has left a part of the file beside it. -/
example : (run upStep (.initial emptyHome) (twoUps.take 14)).home.env =
    ⟨none, some ⟨(freshEnv calm.generated).take 64, 0o600⟩⟩ := rfl

theorem envFile_twoUps : (run upStep (.initial emptyHome) twoUps).home.envFile = some ⟨freshEnv calm.generated, 0o600⟩ := rfl

/-- **Compose is started on a complete home**: the lock is held, the compose file is the asset of the release, and `.env` has the API
key once, not empty, with the user, the group and the project. -/
theorem up_ready (home : Home) (as : List UpAction) (p : Nat) (asset : Bytes)
    (hp : (run upStep (.initial home) as).ups p = .starting asset ∨ (run upStep (.initial home) as).ups p = .child asset) :
    let s := run upStep (.initial home) as
    s.home.HasCompose asset ∧ s.home.HasEnv ∧ ∀ q, q ≠ p → (s.ups q).inside = none := by
  have hs := ((exclusive_initial home).run (along_brings as)).1
  have hsound : Sound (Assets as) _ _ := hs.sound p
  have hinside : ((run upStep (.initial home) as).ups p).inside = some () := by
    rcases hp with hp | hp <;> rw [hp] <;> rfl
  refine ⟨?_, ?_, ?_⟩
  · rcases hp with hp | hp <;> rw [hp] at hsound <;> exact hsound.1
  · rcases hp with hp | hp <;> rw [hp] at hsound <;> exact hsound.2
  · intro q hq
    rw [Option.eq_none_iff_forall_ne_some]
    exact fun k hk => hq (hs.held.eq hk hinside)

theorem up_ready_sample : (run upStep (.initial emptyHome) twoUps).home.HasEnv :=
  (up_ready emptyHome twoUps 1 [35] (.inl rfl)).2.1

/-! ## Who can read the API key -/

/-- No other can read the API key, in the file or beside it. -/
structure Home.Secret (h : Home) : Prop where
  file : ∀ f ∈ h.envFile, Private f
  temp : ∀ f ∈ h.env.temp, f.mode &&& 0o077 = 0

theorem emptyHome_secret : emptyHome.Secret := ⟨nofun, nofun⟩

/-- What is being written is to be private. -/
def Phase.Secret : Phase → Prop
  | .writing _ _ mode _ => mode &&& 0o077 = 0
  | _ => True

theorem and_eq_zero {mode : Nat} (bits : Nat) (hmode : mode &&& 0o077 = 0) : (mode &&& bits) &&& 0o077 = 0 := by
  rw [Nat.and_assoc, Nat.and_comm bits, ← Nat.and_assoc, hmode, Nat.zero_and]

theorem temp_init (j : Init) (htemp : ∀ f ∈ h.env.temp, f.mode &&& 0o077 = 0) :
    ∀ f ∈ (initHome j h).env.temp, f.mode &&& 0o077 = 0 := by
  unfold initHome
  split <;> exact htemp

/-- **One step shows the key to nobody.** -/
theorem advance_secret (hsecret : h.Secret) (hu : Sound A h u) (hmode : u.Secret) :
    (∀ f ∈ (advanceUp free h i u).1.env.temp, f.mode &&& 0o077 = 0) ∧ (advanceUp free h i u).2.Secret := by
  cases u with
  | idle | ended code => exact ⟨hsecret.temp, trivial⟩
  | opened =>
    refine ⟨hsecret.temp, ?_⟩
    show Phase.Secret (if free then .entered else .ended (some 2))
    split <;> trivial
  | entered =>
    refine ⟨hsecret.temp, ?_⟩
    show (advanceEntered h i).Secret
    unfold advanceEntered
    repeat' first | trivial | split
  | composing asset w =>
    refine ⟨hsecret.temp, ?_⟩
    show (afterWrite (.reading asset) (.composing asset) _).Secret
    unfold afterWrite
    split <;> trivial
  | reading asset =>
    refine ⟨hsecret.temp, ?_⟩
    show (advanceReading h i asset).Secret
    unfold advanceReading
    split
    · trivial
    · cases hup : upsertEnv i.generated h.envFile with
      | refused | kept => trivial
      | written content mode => exact Edited.mode hup hsecret.file
  | writing asset content mode w =>
    constructor
    · exact AtomicWrite.step_temp hu.2.2.1 (fun _ _ bits _ => and_eq_zero bits hmode) hmode hsecret.temp
    · show (afterWrite (.starting asset) (.writing asset content mode) _).Secret
      unfold afterWrite
      split
      · trivial
      · trivial
      · exact hmode
  | starting asset =>
    refine ⟨hsecret.temp, ?_⟩
    show Phase.Secret (if i.succeeds then .child asset else .ended (some 3))
    split <;> trivial
  | child asset => exact ⟨temp_init i.init hsecret.temp, trivial⟩

/-- Nothing shows the key: not the home, not a write on its way. -/
structure AllSecret (A : Bytes → Prop) (s : UpSystem) : Prop extends Exclusive A s where
  home : s.home.Secret
  ups : ∀ p, (s.ups p).Secret

theorem AllSecret.step (hs : AllSecret A s) (ha : a.Brings A) : AllSecret A (upStep s a) := by
  obtain ⟨hexclusive, hpublished⟩ := hs.toExclusive.step ha
  have hmoved : ∀ {p u home}, u.Secret → ∀ q, ((s.move p home u).ups q).Secret := by
    intro p u home hu q
    by_cases hq : q = p
    · subst hq
      simpa [UpSystem.move] using hu
    · simpa [UpSystem.move, hq] using hs.ups q
  refine ⟨hexclusive, ⟨keepsPrivate_edits hpublished.env hs.home.file, ?_⟩, ?_⟩
  · cases a with
    | start p =>
      unfold upStep
      simp only
      split <;> exact hs.home.temp
    | crash p => exact hs.home.temp
    | advance p i => exact (advance_secret hs.home (hs.sound p) (hs.ups p)).1
    | init j =>
      unfold upStep
      simp only
      split
      · exact temp_init j hs.home.temp
      · exact hs.home.temp
  · cases a with
    | start p =>
      unfold upStep
      simp only
      split
      · exact hmoved trivial
      · exact hs.ups
    | crash p => exact hmoved trivial
    | advance p i => exact hmoved (advance_secret hs.home (hs.sound p) (hs.ups p)).2
    | init j =>
      unfold upStep
      simp only
      split <;> exact hs.ups

end Panella.Up
