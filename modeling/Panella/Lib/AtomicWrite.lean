import Mathlib.Data.List.Basic
import Mathlib.Tactic.Common

/-!
# Writing a file by a temporary one and a rename

`unlink` the temporary name, create it exclusively, write all of the content in as many pieces as it takes, set the mode, rename it
over the file; and where one of these fails, unlink the temporary name again. Every step may fail, and a writer may stop for good
after any of them.

* `step_file` — the file stays as it is until the writer is done, and is then the whole content with its mode.
* `Progress.step` — what the temporary file has in it at every step, which is a part of the content from its beginning.
* `step_temp` — what holds of every part that is written, with the modes it may have, holds of the temporary file.
-/

namespace AtomicWrite

variable {α : Type}

structure File (α : Type) where
  content : List α
  mode : Nat

/-- A file and the temporary name beside it. -/
structure Slot (α : Type) where
  file : Option (File α)
  temp : Option (File α)

/-- Where a writer is. -/
inductive Writer (α : Type)
  | unlinking
  | creating
  | writing (rest : List α)
  | settling
  | replacing
  | cleaning
  | done
  | failed

/-- What one step meets: an error, how much a `write` takes, the mode bits that `umask` leaves. -/
structure Input where
  fault : Bool
  written : Nat
  bits : Nat

/-- One step of writing `content` with `mode`. -/
def step (content : List α) (mode : Nat) (i : Input) (w : Writer α) (slot : Slot α) : Writer α × Slot α :=
  match w with
  | .unlinking => if i.fault then (.failed, slot) else (.creating, { slot with temp := none })
  | .creating =>
    if i.fault || slot.temp.isSome then (.cleaning, slot)
    else (.writing content, { slot with temp := some ⟨[], mode &&& i.bits⟩ })
  | .writing [] => (.settling, slot)
  | .writing (b :: rest) =>
    if i.fault || i.written == 0 then (.cleaning, slot)
    else (.writing ((b :: rest).drop i.written),
      { slot with temp := slot.temp.map fun f => { f with content := f.content ++ (b :: rest).take i.written } })
  | .settling =>
    if i.fault then (.cleaning, slot) else (.replacing, { slot with temp := slot.temp.map fun f => { f with mode } })
  | .replacing => if i.fault || slot.temp.isNone then (.cleaning, slot) else (.done, ⟨slot.temp, none⟩)
  | .cleaning => (.failed, if i.fault then slot else { slot with temp := none })
  | .done => (.done, slot)
  | .failed => (.failed, slot)

/-- What the temporary file is at a step. -/
def Progress (content : List α) (mode : Nat) (w : Writer α) (slot : Slot α) : Prop :=
  match w with
  | .writing rest => ∃ written bits, content = written ++ rest ∧ slot.temp = some ⟨written, mode &&& bits⟩
  | .settling => ∃ bits, slot.temp = some ⟨content, mode &&& bits⟩
  | .replacing => slot.temp = some ⟨content, mode⟩
  | _ => True

variable {content : List α} {mode : Nat} {i : Input} {w : Writer α} {slot : Slot α}

/-- **Each step writes what is next.** -/
theorem Progress.step (h : Progress content mode w slot) :
    Progress content mode (step content mode i w slot).1 (step content mode i w slot).2 := by
  unfold AtomicWrite.step
  cases w with
  | unlinking =>
    simp only
    split <;> trivial
  | creating =>
    simp only
    split
    · trivial
    · exact ⟨[], i.bits, rfl, rfl⟩
  | writing rest =>
    obtain ⟨written, bits, hcontent, htemp⟩ := h
    cases rest with
    | nil => exact ⟨bits, by rw [htemp, hcontent, List.append_nil]⟩
    | cons b rest =>
      simp only
      split
      · trivial
      · refine ⟨written ++ (b :: rest).take i.written, bits, ?_, by rw [htemp]; rfl⟩
        rw [hcontent, List.append_assoc, List.take_append_drop]
  | settling =>
    obtain ⟨bits, htemp⟩ := h
    simp only
    split
    · trivial
    · show Option.map _ slot.temp = _
      rw [htemp]
      rfl
  | replacing =>
    simp only
    split <;> trivial
  | cleaning => trivial
  | done => trivial
  | failed => trivial

/-- **The file is never a part of the content**: it stays as it is, or the writer is done and it is all of it. -/
theorem step_file (h : Progress content mode w slot) (hw : w ≠ .done) :
    (step content mode i w slot).1 ≠ .done ∧ (step content mode i w slot).2.file = slot.file ∨
      (step content mode i w slot).1 = .done ∧ (step content mode i w slot).2 = ⟨some ⟨content, mode⟩, none⟩ := by
  unfold AtomicWrite.step
  cases w with
  | replacing =>
    have htemp : slot.temp = some ⟨content, mode⟩ := h
    simp only
    split
    · exact .inl ⟨nofun, rfl⟩
    · exact .inr ⟨rfl, by rw [htemp]⟩
  | writing rest =>
    left
    cases rest with
    | nil => exact ⟨nofun, rfl⟩
    | cons b rest =>
      simp only
      split <;> exact ⟨nofun, rfl⟩
  | cleaning =>
    refine .inl ⟨nofun, ?_⟩
    simp only
    split <;> rfl
  | done => exact absurd rfl hw
  | failed => exact .inl ⟨nofun, rfl⟩
  | unlinking | creating | settling =>
    left
    simp only
    split <;> exact ⟨nofun, rfl⟩

/-- **What the temporary file may be.** -/
theorem step_temp {P : File α → Prop} (h : Progress content mode w slot)
    (hparts : ∀ written rest bits, content = written ++ rest → P ⟨written, mode &&& bits⟩) (hwhole : P ⟨content, mode⟩)
    (htemp : ∀ f ∈ slot.temp, P f) : ∀ f ∈ (step content mode i w slot).2.temp, P f := by
  have hnext : Progress content mode (step content mode i w slot).1 (step content mode i w slot).2 := h.step
  intro f hf
  cases w with
  | unlinking =>
    unfold step at hf
    simp only at hf
    split at hf
    · exact htemp f hf
    · cases hf
  | creating =>
    unfold step at hf
    simp only at hf
    split at hf
    · exact htemp f hf
    · cases hf
      exact hparts [] content i.bits rfl
  | writing rest =>
    cases rest with
    | nil => exact htemp f hf
    | cons b rest =>
      unfold step at hf hnext
      simp only at hf hnext
      split at hf
      · exact htemp f hf
      · next hgo =>
        rw [if_neg hgo] at hnext
        obtain ⟨written, bits, hcontent, htemp'⟩ := hnext
        simp only at htemp'
        rw [htemp'] at hf
        cases hf
        exact hparts written _ bits hcontent
  | settling =>
    unfold step at hf hnext
    simp only at hf hnext
    split at hf
    · exact htemp f hf
    · next hgo =>
      rw [if_neg hgo] at hnext
      have htemp' : Option.map _ slot.temp = some _ := hnext
      simp only at hf
      rw [htemp'] at hf
      cases hf
      exact hwhole
  | replacing =>
    unfold step at hf
    simp only at hf
    split at hf
    · exact htemp f hf
    · cases hf
  | cleaning =>
    unfold step at hf
    simp only at hf
    split at hf
    · exact htemp f hf
    · cases hf
  | done => exact htemp f hf
  | failed => exact htemp f hf

end AtomicWrite
