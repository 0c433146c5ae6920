import Mathlib.Data.List.Basic
import Mathlib.Data.List.Nodup
import Mathlib.Logic.Function.Basic
import Mathlib.Tactic.Common

/-!
# Files put in place through temporary names

A directory gives for each name a file, a folder or nothing. A file is put in place by copying it to a temporary name and
renaming that to the target. The rules of the two calls are those of POSIX: a copy to a folder goes into the folder, a rename
takes a folder along, and neither a file nor a folder with entries is replaced by a folder, nor a folder by a file.

Where one list of files is put in place, one file's temporary name may be another file's target, or the name of a file that has
nothing to do with it. **`placed_iff_clear`**: the targets hold what they should and the rest is as it was, exactly if the last
file that touches a target's name has it as its target, no other file has a temporary name, and no folder has. Where the targets
differ, **`placed_iff_free`** says when it comes to that at all.
-/

namespace Directory

variable {N C : Type} [DecidableEq N]

inductive Node (N C : Type)
  | file (content : C)
  | folder (entries : List (N × Node N C))

/-- What is in a directory. -/
abbrev Dir (N C : Type) := N → Option (Node N C)

def Dir.set (d : Dir N C) (n : N) (x : Option (Node N C)) : Dir N C := fun m => if m = n then x else d m

/-- A copy to the name `n`; into a folder, under the name the source has. None where it raises. -/
def copyTo (d : Dir N C) (source : N) (content : C) (n : N) : Option (Dir N C) :=
  match d n with
  | some (.folder entries) =>
    match entries.find? (·.1 = source) with
    | some (_, .folder _) => none
    | _ => some (d.set n (some (.folder ((source, .file content) :: entries.filter (·.1 ≠ source)))))
  | _ => some (d.set n (some (.file content)))

/-- Change a file in place. -/
def alter (d : Dir N C) (n : N) (f : C → C) : Dir N C :=
  match d n with
  | some (.file content) => d.set n (some (.file (f content)))
  | _ => d

/-- What may be renamed over what. -/
def replaceable : Node N C → Option (Node N C) → Bool
  | _, none => true
  | .file _, some (.file _) => true
  | .file _, some (.folder _) => false
  | .folder _, some (.file _) => false
  | .folder _, some (.folder entries) => entries.isEmpty

/-- A rename. None where it raises. -/
def replace (d : Dir N C) (source target : N) : Option (Dir N C) :=
  match d source with
  | none => none
  | some x => if replaceable x (d target) then some ((d.set source none).set target (some x)) else none

/-- A file to be put in place. -/
structure Item (N C : Type) where
  source : N
  temp : N
  target : N
  content : C
  /-- What is done to it under its temporary name. -/
  settle : C → C
  temp_ne : temp ≠ target

def place (d : Dir N C) (i : Item N C) : Option (Dir N C) :=
  (copyTo d i.source i.content i.temp).bind fun d => replace (alter d i.temp i.settle) i.temp i.target

/-- All of them, one after the other. -/
def placeAll : List (Item N C) → Dir N C → Option (Dir N C)
  | [], d => some d
  | i :: items, d => (place d i).bind (placeAll items)

/-! ## What is asked of it -/

/-- The last item that has the name as its target or its temporary name. -/
def lastTouch (items : List (Item N C)) (n : N) : Option (Item N C) :=
  items.reverse.find? fun i => i.target = n ∨ i.temp = n

variable (good : Item N C → C → Prop)

/-- Every target is a file as it should be, the rest is as it was, and no temporary name is left. -/
structure Placed (items : List (Item N C)) (d d' : Dir N C) : Prop where
  placed : ∀ i ∈ items, ∃ content, d' i.target = some (.file content) ∧ good i content
  others : ∀ n, (∀ i ∈ items, i.target ≠ n) → d' n = d n
  gone : ∀ i ∈ items, (∀ j ∈ items, j.target ≠ i.temp) → d' i.temp = none

/-- No temporary name is in the way of a target, or of anything else. -/
structure Clear (items : List (Item N C)) (d : Dir N C) : Prop where
  last : ∀ i ∈ items, ∃ j, lastTouch items i.target = some j ∧ j.target = i.target ∧ good i (j.settle j.content)
  spare : ∀ i ∈ items, (∀ j ∈ items, j.target ≠ i.temp) → d i.temp = none
  noFolder : ∀ i ∈ items, ∀ entries, d i.temp ≠ some (.folder entries)

/-! ## One file -/

section
variable {d d' : Dir N C} {i j : Item N C} {n : N}

@[simp] theorem set_self (d : Dir N C) (n : N) (x : Option (Node N C)) : d.set n x n = x := if_pos rfl

theorem set_other {m : N} (h : m ≠ n) (x : Option (Node N C)) : d.set n x m = d m := if_neg h

/-- **A file, where no folder is in the way.** -/
theorem place_file (hfolder : ∀ entries, d i.temp ≠ some (.folder entries)) : place d i =
    if replaceable (.file (i.settle i.content)) (d i.target) then
      some ((d.set i.temp none).set i.target (some (.file (i.settle i.content))))
    else none := by
  have hcopy : copyTo d i.source i.content i.temp = some (d.set i.temp (some (.file i.content))) := by
    unfold copyTo
    split
    · next entries h => exact absurd h (hfolder entries)
    · rfl
  have hset : ((d.set i.temp (some (.file i.content))).set i.temp (some (.file (i.settle i.content)))).set i.temp none =
      d.set i.temp none := by
    funext m
    by_cases hm : m = i.temp <;> simp [Dir.set, hm]
  rw [place, hcopy, Option.bind_some, alter, set_self]
  dsimp only
  rw [replace, set_self]
  dsimp only
  rw [set_other i.temp_ne.symm, set_other i.temp_ne.symm, hset]

/-- The directory after a file was put in place. -/
theorem place_eq (hfolder : ∀ entries, d i.temp ≠ some (.folder entries)) (h : place d i = some d') (n : N) :
    d' n = if i.target = n then some (.file (i.settle i.content)) else if i.temp = n then none else d n := by
  rw [place_file hfolder] at h
  split at h
  · cases h
    simp only [Dir.set, eq_comm]
  · cases h

/-- **A folder with entries**, where a folder is in the way: it goes to the target. -/
theorem place_folder {entries : List (N × Node N C)} (hfolder : d i.temp = some (.folder entries)) (h : place d i = some d') :
    ∃ entry rest, d' i.target = some (.folder (entry :: rest)) := by
  obtain ⟨d₁, hcopy, h⟩ := Option.bind_eq_some_iff.1 h
  have hd₁ : ∃ entry rest, d₁ i.temp = some (.folder (entry :: rest)) := by
    unfold copyTo at hcopy
    rw [hfolder] at hcopy
    dsimp only at hcopy
    split at hcopy
    · cases hcopy
    · cases hcopy
      exact ⟨_, _, set_self _ _ _⟩
  obtain ⟨entry, rest, hd₁⟩ := hd₁
  rw [alter, hd₁] at h
  dsimp only at h
  rw [replace, hd₁] at h
  dsimp only at h
  split at h
  · cases h
    exact ⟨entry, rest, set_self _ _ _⟩
  · cases h

/-- A folder with entries stays, or goes to the target. -/
theorem place_keeps_folder {entry : N × Node N C} {rest : List (N × Node N C)} (hn : d n = some (.folder (entry :: rest)))
    (h : place d i = some d') :
    d' n = some (.folder (entry :: rest)) ∨ ∃ entry rest, d' i.target = some (.folder (entry :: rest)) := by
  by_cases htemp : i.temp = n
  · exact .inr (place_folder (htemp ▸ hn) h)
  · by_cases hfolder : ∃ entries, d i.temp = some (.folder entries)
    · obtain ⟨entries, hfolder⟩ := hfolder
      exact .inr (place_folder hfolder h)
    · left
      have hno : ∀ entries, d i.temp ≠ some (.folder entries) := fun entries he => hfolder ⟨entries, he⟩
      rw [place_eq hno h, if_neg htemp]
      by_cases htarget : i.target = n
      · -- a file does not replace a folder
        rw [place_file hno, htarget, hn] at h
        cases h
      · rw [if_neg htarget, hn]

/-! ## All of them -/

variable {items : List (Item N C)}

theorem lastTouch_cons (i : Item N C) (items : List (Item N C)) (n : N) : lastTouch (i :: items) n =
    (lastTouch items n).or (if i.target = n ∨ i.temp = n then some i else none) := by
  rw [lastTouch, List.reverse_cons, List.find?_append, List.find?_singleton]
  simp [lastTouch]

theorem lastTouch_spec (h : lastTouch items n = some i) : i ∈ items ∧ (i.target = n ∨ i.temp = n) := by
  unfold lastTouch at h
  have htouch := List.find?_some h
  exact ⟨List.mem_reverse.1 (List.mem_of_find?_eq_some h), of_decide_eq_true htouch⟩

theorem exists_lastTouch (hi : i ∈ items) (h : i.target = n ∨ i.temp = n) : ∃ j, lastTouch items n = some j := by
  rw [← Option.isSome_iff_exists, lastTouch, List.find?_isSome]
  exact ⟨i, List.mem_reverse.2 hi, decide_eq_true h⟩

/-- **Where no folder is in the way**, a name has what the last item that touches it leaves there. -/
theorem placeAll_eq (hfolder : ∀ i ∈ items, ∀ entries, d i.temp ≠ some (.folder entries)) (h : placeAll items d = some d')
    (n : N) : d' n =
      match lastTouch items n with
      | none => d n
      | some i => if i.target = n then some (.file (i.settle i.content)) else none := by
  induction items generalizing d with
  | nil =>
    cases h
    rfl
  | cons i items ih =>
    obtain ⟨d₁, hplace, hrest⟩ := Option.bind_eq_some_iff.1 h
    have hi := List.forall_mem_cons.1 hfolder
    have hd₁ := place_eq hi.1 hplace
    have hfolder₁ : ∀ j ∈ items, ∀ entries, d₁ j.temp ≠ some (.folder entries) := by
      intro j hj entries
      rw [hd₁]
      split_ifs
      · simp
      · simp
      · exact hi.2 j hj entries
    rw [ih hfolder₁ hrest, lastTouch_cons]
    cases lastTouch items n with
    | some j => rfl
    | none =>
      rw [Option.none_or]
      dsimp only
      rw [hd₁]
      by_cases htarget : i.target = n
      · simp [htarget]
      · by_cases htemp : i.temp = n
        · simp [htarget, htemp]
        · simp [htarget, htemp]

/-- A folder with entries is still at some target in the end. -/
theorem placeAll_keeps_folder {T : N → Prop} (hT : ∀ i ∈ items, T i.target) (h : placeAll items d = some d')
    (hd : ∃ n entry rest, T n ∧ d n = some (.folder (entry :: rest))) :
    ∃ n entry rest, T n ∧ d' n = some (.folder (entry :: rest)) := by
  induction items generalizing d with
  | nil =>
    cases h
    exact hd
  | cons i items ih =>
    obtain ⟨d₁, hplace, hrest⟩ := Option.bind_eq_some_iff.1 h
    obtain ⟨hi, hT⟩ := List.forall_mem_cons.1 hT
    obtain ⟨n, entry, rest, hn, hfolder⟩ := hd
    apply ih hT hrest
    rcases place_keeps_folder hfolder hplace with hstays | ⟨entry', rest', hmoved⟩
    · exact ⟨n, entry, rest, hn, hstays⟩
    · exact ⟨i.target, entry', rest', hi, hmoved⟩

/-- A folder under a temporary name comes to some target. -/
theorem placeAll_moves_folder {T : N → Prop} (hT : ∀ i ∈ items, T i.target) (h : placeAll items d = some d') (hi : i ∈ items)
    {entries : List (N × Node N C)} (hd : d i.temp = some (.folder entries)) :
    ∃ n entry rest, T n ∧ d' n = some (.folder (entry :: rest)) := by
  induction items generalizing d with
  | nil => cases hi
  | cons k items ih =>
    obtain ⟨d₁, hplace, hrest⟩ := Option.bind_eq_some_iff.1 h
    obtain ⟨hk, hT⟩ := List.forall_mem_cons.1 hT
    by_cases hfolder : ∃ entries, d k.temp = some (.folder entries)
    · obtain ⟨entries', hfolder⟩ := hfolder
      obtain ⟨entry, rest, hmoved⟩ := place_folder hfolder hplace
      exact placeAll_keeps_folder hT hrest ⟨k.target, entry, rest, hk, hmoved⟩
    · have hno : ∀ entries, d k.temp ≠ some (.folder entries) := fun entries he => hfolder ⟨entries, he⟩
      rcases List.mem_cons.1 hi with rfl | hi
      · exact absurd hd (hno entries)
      · apply ih hT hrest hi
        have htemp : k.temp ≠ i.temp := fun he => hno entries (he ▸ hd)
        have htarget : k.target ≠ i.temp := by
          intro he
          rw [place_file hno, he, hd] at hplace
          cases hplace
        rw [place_eq hno hplace, if_neg htarget, if_neg htemp, hd]

/-- **Files are put in place as they should be** exactly where no temporary name is in the way. -/
theorem placed_iff_clear (good : Item N C → C → Prop) (hplace : placeAll items d = some d') :
    Placed good items d d' ↔ Clear good items d := by
  constructor
  · intro h
    have hfolder : ∀ i ∈ items, ∀ entries, d i.temp ≠ some (.folder entries) := by
      intro i hi entries hd
      obtain ⟨n, entry, rest, ⟨j, hj, rfl⟩, hn⟩ :=
        placeAll_moves_folder (T := fun n => ∃ j ∈ items, j.target = n) (fun j hj => ⟨j, hj, rfl⟩) hplace hi hd
      obtain ⟨content, hfile, -⟩ := h.placed j hj
      rw [hn] at hfile
      cases hfile
    have hd' := placeAll_eq hfolder hplace
    refine ⟨?_, ?_, hfolder⟩
    · intro i hi
      obtain ⟨content, hfile, hgood⟩ := h.placed i hi
      obtain ⟨j, hj⟩ := exists_lastTouch hi (.inl rfl)
      rw [hd', hj] at hfile
      dsimp only at hfile
      split at hfile
      · next htarget =>
        cases hfile
        exact ⟨j, hj, htarget, hgood⟩
      · cases hfile
    · intro i hi hother
      obtain ⟨j, hj⟩ := exists_lastTouch hi (.inr rfl)
      have hgone := hd' i.temp
      rw [hj] at hgone
      dsimp only at hgone
      rw [if_neg (hother j (lastTouch_spec hj).1), h.others i.temp hother] at hgone
      exact hgone
  · intro h
    have hd' := placeAll_eq h.noFolder hplace
    refine ⟨?_, ?_, ?_⟩
    · intro i hi
      obtain ⟨j, hj, htarget, hgood⟩ := h.last i hi
      refine ⟨j.settle j.content, ?_, hgood⟩
      rw [hd', hj]
      exact if_pos htarget
    · intro n hother
      rw [hd']
      cases hlast : lastTouch items n with
      | none => rfl
      | some j =>
        obtain ⟨hj, htouch⟩ := lastTouch_spec hlast
        obtain rfl := htouch.resolve_left (hother j hj)
        dsimp only
        rw [if_neg (hother j hj), h.spare j hj hother]
    · intro i hi hother
      obtain ⟨j, hj⟩ := exists_lastTouch hi (.inr rfl)
      rw [hd', hj]
      exact if_neg (hother j (lastTouch_spec hj).1)

/-! ## Targets that differ -/

/-- A file takes the place of nothing or of a file, whatever was placed before it. -/
theorem placeAll_isSome_iff (htemp : ∀ i ∈ items, ∀ entries, d i.temp ≠ some (.folder entries)) :
    (placeAll items d).isSome ↔ ∀ i ∈ items, ∀ entries, d i.target ≠ some (.folder entries) := by
  induction items generalizing d with
  | nil => simp [placeAll]
  | cons i items ih =>
    obtain ⟨hi, htemp⟩ := List.forall_mem_cons.1 htemp
    rw [placeAll, place_file hi]
    split
    · next hreplaceable =>
      have hnone : ∀ entries, d i.target ≠ some (.folder entries) := by
        intro entries he
        rw [he] at hreplaceable
        cases hreplaceable
      -- what has been placed is no folder, and nothing else has changed
      have hd₁ : ∀ n, (∀ entries, ((d.set i.temp none).set i.target (some (.file (i.settle i.content)))) n ≠ some (.folder entries)) ↔
          ∀ entries, d n ≠ some (.folder entries) := by
        intro n
        by_cases htarget : n = i.target
        · subst htarget
          simpa [Dir.set] using hnone
        · rw [set_other htarget]
          by_cases hn : n = i.temp
          · subst hn
            simpa [Dir.set] using hi
          · rw [set_other hn]
      rw [Option.bind_some, ih fun j hj => (hd₁ j.temp).2 (htemp j hj), List.forall_mem_cons]
      constructor
      · intro h
        exact ⟨hnone, fun j hj => (hd₁ j.target).1 (h j hj)⟩
      · rintro ⟨-, h⟩
        exact fun j hj => (hd₁ j.target).2 (h j hj)
    · next hreplaceable =>
      have hfolder : ∃ entries, d i.target = some (.folder entries) := by
        cases hx : d i.target with
        | none => simp [hx, replaceable] at hreplaceable
        | some x =>
          cases x with
          | file content => simp [hx, replaceable] at hreplaceable
          | folder entries => exact ⟨entries, rfl⟩
      obtain ⟨entries, hfolder⟩ := hfolder
      simp only [Option.bind_none, Option.isSome_none, Bool.false_eq_true, false_iff]
      exact fun h => h i List.mem_cons_self entries hfolder

/-- Each target is its own item's in the end where no later item has its name as the temporary one. -/
theorem lastTouch_self_iff (htargets : (items.map (·.target)).Nodup) :
    (∀ i ∈ items, lastTouch items i.target = some i) ↔ items.Pairwise fun i j => j.temp ≠ i.target := by
  induction items with
  | nil => simp
  | cons i items ih =>
    rw [List.map_cons, List.nodup_cons] at htargets
    have hdiffer : ∀ j ∈ items, j.target ≠ i.target := fun j hj he => htargets.1 (he ▸ List.mem_map_of_mem hj)
    have hhead : lastTouch (i :: items) i.target = some i ↔ ∀ j ∈ items, j.temp ≠ i.target := by
      rw [lastTouch_cons, if_pos (.inl rfl)]
      constructor
      · intro h j hj htemp
        obtain ⟨k, hk⟩ := exists_lastTouch hj (.inr htemp)
        rw [hk, Option.some_or, Option.some.injEq] at h
        exact hdiffer k (lastTouch_spec hk).1 (h ▸ rfl)
      · intro h
        cases hlast : lastTouch items i.target with
        | none => rfl
        | some k =>
          obtain ⟨hk, htouch⟩ := lastTouch_spec hlast
          exact absurd htouch (not_or.2 ⟨hdiffer k hk, h k hk⟩)
    have htail : ∀ j ∈ items, lastTouch (i :: items) j.target = lastTouch items j.target := by
      intro j hj
      obtain ⟨k, hk⟩ := exists_lastTouch hj (.inl rfl)
      rw [lastTouch_cons, hk, Option.some_or]
    rw [List.forall_mem_cons, List.pairwise_cons, hhead, ← ih htargets.2]
    exact and_congr_right fun _ => forall₂_congr fun j hj => by rw [htail j hj]

/-- What a target should have. -/
def Settled (i : Item N C) (content : C) : Prop := content = i.settle i.content

/-- No name is in the way of a file. -/
structure Free (items : List (Item N C)) (d : Dir N C) : Prop where
  noFolder : ∀ i ∈ items, ∀ entries, d i.target ≠ some (.folder entries)
  order : items.Pairwise fun i j => j.temp ≠ i.target
  spare : ∀ i ∈ items, (∀ j ∈ items, j.target ≠ i.temp) → d i.temp = none

/-- **Files with different targets are put in place** exactly where no name is in the way. -/
theorem placed_iff_free (htargets : (items.map (·.target)).Nodup) :
    (∃ d', placeAll items d = some d' ∧ Placed Settled items d d') ↔ Free items d := by
  have hinjective : ∀ i ∈ items, ∀ j ∈ items, j.target = i.target → j = i :=
    fun i hi j hj he => List.inj_on_of_nodup_map htargets hj hi he
  constructor
  · rintro ⟨d', hplace, hplaced⟩
    have hclear := (placed_iff_clear Settled hplace).1 hplaced
    refine ⟨(placeAll_isSome_iff hclear.noFolder).1 (by rw [hplace]; rfl), (lastTouch_self_iff htargets).1 ?_, hclear.spare⟩
    intro i hi
    obtain ⟨j, hj, htarget, -⟩ := hclear.last i hi
    rw [hj, hinjective i hi j (lastTouch_spec hj).1 htarget]
  · intro hfree
    have htemp : ∀ i ∈ items, ∀ entries, d i.temp ≠ some (.folder entries) := by
      intro i hi entries
      by_cases hother : ∃ j ∈ items, j.target = i.temp
      · obtain ⟨j, hj, he⟩ := hother
        rw [← he]
        exact hfree.noFolder j hj entries
      · rw [hfree.spare i hi fun j hj he => hother ⟨j, hj, he⟩]
        nofun
    obtain ⟨d', hplace⟩ := Option.isSome_iff_exists.1 ((placeAll_isSome_iff htemp).2 hfree.noFolder)
    refine ⟨d', hplace, (placed_iff_clear Settled hplace).2 ⟨?_, hfree.spare, htemp⟩⟩
    intro i hi
    exact ⟨i, (lastTouch_self_iff htargets).2 hfree.order i hi, rfl, rfl⟩

end

end Directory
