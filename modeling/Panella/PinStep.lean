import Panella.ComposeText

/-!
# One line of a compose file, read both ways

What the loop (`pin_compose.py:57-105`) and the text agree on throughout is the build block that is left out and that no service
is known outside the services (`Agrees`); which service a line is of they may differ on. `read_cases` lists what a line can be
where it is read, `line_cases` what the loop does with it, and `Agrees.next` carries the agreement on for as long as the loop does
what is wanted.
-/

namespace Panella.PinCompose

open EnvFile Utf8Cut Lines

variable {storeRef appRef : String} {c : Control} {p p' : Place} {x line e : Bytes} {rest : List Bytes}

/-! ## Keys -/

theorem rdropWhile_append_cons {p : UInt8 → Bool} {xs ys : Bytes} {b : UInt8} (hb : p b = false) :
    (xs ++ b :: ys).rdropWhile p = xs ++ b :: ys.rdropWhile p := by
  have hself : (b :: xs.reverse).dropWhile p = b :: xs.reverse := List.dropWhile_cons_of_neg (by simp [hb])
  rw [List.rdropWhile, List.rdropWhile, List.reverse_append, List.reverse_cons, List.append_assoc, List.singleton_append,
    List.dropWhile_append]
  split
  · next hempty =>
    rw [List.isEmpty_iff] at hempty
    simp [hself, hempty]
  · simp

/-- A line with a key is its indentation, the key, and the rest. -/
theorem keyOf_eq {name after : Bytes} (h : keyOf x = some (name, after)) :
    x.dropWhile (· = 32) = name ++ 58 :: after ∧ name ≠ [] ∧ (∀ b ∈ name, nameByte b = true) ∧
      after.head?.all isSpace = true := by
  unfold keyOf at h
  dsimp only at h
  split at h
  · next b ns after' htake hdrop =>
    split at h
    · next hhead =>
      cases h
      refine ⟨?_, List.cons_ne_nil _ _, ?_, hhead⟩
      · rw [← htake, ← hdrop, List.takeWhile_append_dropWhile]
      · rw [← htake]
        exact fun b hb => List.mem_takeWhile_imp hb
    · cases h
  · cases h

theorem strip_key {name after : Bytes} (h : keyOf x = some (name, after)) :
    strip x = name ++ 58 :: after.rdropWhile isSpace := by
  obtain ⟨hx, hne, hname, -⟩ := keyOf_eq h
  have hdrop : x.dropWhile isSpace = name ++ 58 :: after := by
    have hsplit : x = x.takeWhile (· = 32) ++ (name ++ 58 :: after) := by
      rw [← hx, List.takeWhile_append_dropWhile]
    have hspaces : ∀ b ∈ x.takeWhile (· = 32), isSpace b = true := by
      intro b hb
      have hb32 : b = 32 := by simpa using List.mem_takeWhile_imp hb
      rw [hb32]
      decide
    rw [hsplit, List.dropWhile_append_of_pos hspaces]
    obtain ⟨b, ns, rfl⟩ := List.exists_cons_of_ne_nil hne
    have hb := hname b List.mem_cons_self
    have hspace : ¬ isSpace b = true := by
      simp only [nameByte, Bool.and_eq_true, Bool.not_eq_true'] at hb
      simp [hb.1.1.1.1]
    rw [List.cons_append, List.dropWhile_cons_of_neg hspace]
  rw [strip, hdrop, rdropWhile_append_cons (by decide)]

/-- The names of the three are read to their `:` and no further. -/
theorem prefix_key {property : String} {name after : Bytes} (hproperty : 58 ∉ ascii property) (hname : 58 ∉ name) :
    ascii (property ++ ":") <+: name ++ 58 :: after ↔ ascii property = name := by
  have hcolon : ascii (property ++ ":") = ascii property ++ [58] := by simp [ascii]
  have hcut : ∀ xs ys : Bytes, 58 ∉ xs → (xs ++ 58 :: ys).takeWhile (· ≠ 58) = xs := by
    intro xs ys hxs
    rw [List.takeWhile_append_of_pos fun b hb => by
      have hne : b ≠ 58 := fun he => hxs (he ▸ hb)
      simpa using hne]
    simp
  rw [hcolon]
  constructor
  · rintro ⟨rest, hrest⟩
    rw [List.append_assoc, List.singleton_append] at hrest
    rw [← hcut (ascii property) rest hproperty, hrest, hcut name after hname]
  · rintro rfl
    exact ⟨after, by simp⟩

theorem entryOf_key {name after : Bytes} (h : keyOf x = some (name, after)) :
    entryOf x = if indentation x = 4 then propertyOf name else none := by
  obtain ⟨-, -, hname, -⟩ := keyOf_eq h
  have hcolon : 58 ∉ name := fun hmem => absurd (hname 58 hmem) (by decide)
  have himage := @prefix_key "image" name (after.rdropWhile isSpace) (by decide) hcolon
  have hpull := @prefix_key "pull_policy" name (after.rdropWhile isSpace) (by decide) hcolon
  have hbuild := @prefix_key "build" name (after.rdropWhile isSpace) (by decide) hcolon
  unfold entryOf propertyOf
  rw [strip_key h]
  simp only [expectedProperties, List.find?_cons, List.find?_nil, himage, hpull, hbuild]

/-- A line that starts otherwise is none of the three. -/
theorem entryOf_none {b : UInt8} (hb : b = 35 ∨ b = 45) (h : [b] <+: strip x) : entryOf x = none := by
  obtain ⟨tail, htail⟩ := h
  unfold entryOf
  split
  · rw [List.find?_eq_none]
    intro property hproperty
    rw [decide_eq_true_eq, ← htail]
    rintro ⟨rest, hrest⟩
    have hhead := congrArg List.head? hrest
    simp only [expectedProperties, List.mem_cons, List.not_mem_nil, or_false] at hproperty
    rcases hproperty with rfl | rfl | rfl <;> rcases hb with rfl | rfl <;> revert hhead <;> simp [ascii]
  · rfl

theorem entryOf_blank (h : strip x = []) : entryOf x = none := by
  unfold entryOf
  split
  · rw [List.find?_eq_none]
    intro property hproperty
    rw [decide_eq_true_eq, h]
    rintro hprefix
    have hnil := List.prefix_nil.1 hprefix
    simp [ascii] at hnil
  · rfl

/-! ## What the loop knows of the place -/

theorem headed_other (h0 : indentation x ≠ 0) (h2 : indentation x ≠ 2) : c.headed x = { c with buildBlockIndent := none } := by
  unfold Control.headed
  simp [h0, h2]

/-- A line's end and the blanks around it are nothing to the loop. -/
theorem control_body (hstrip : strip line = strip x) (hindent : indentation line = indentation x) :
    c.next line = c.next x ∧ c.action line = c.action x ∧ c.credit line = c.credit x := by
  have hentry : entryOf line = entryOf x := by rw [entryOf, entryOf, hstrip, hindent]
  have hin : c.inBlock line = c.inBlock x := by rw [Control.inBlock, Control.inBlock, hstrip, hindent]
  have hhead : c.headed line = c.headed x := by rw [Control.headed, Control.headed, hstrip, hindent]
  have hcredit : c.credit line = c.credit x := by rw [Control.credit, Control.credit, hentry, hin, hhead]
  exact ⟨by rw [Control.next, Control.next, hin, hcredit, hhead],
    by rw [Control.action, Control.action, hin, hcredit, hstrip, hindent], hcredit⟩

/-- A build block of a pinned service. -/
def Place.building : Place → Bool
  | .entry (some _) (some property) => property = "build"
  | _ => false

/-- The loop leaves out what is a build block, and looks for keys where there are services. -/
structure Agrees (c : Control) (p : Place) : Prop where
  block : c.buildBlockIndent = if p.building then some 4 else none
  inside : c.inServices = true → ∀ begun, p ≠ .top begun
  known : c.currentService.isSome = true → c.inServices = true

theorem Agrees.start : Agrees start (.top false) := ⟨rfl, nofun, nofun⟩

/-- What a line can be that is read in place `p`, and where it stands then. -/
inductive Reads (p : Place) (x : Bytes) : Place → Prop
  | comment (hcomment : isComment x = true) : Reads p x p
  | begins {after : Bytes} (hp : p.begun = false) (hreal : isComment x = false) (h0 : indentation x = 0)
      (hkey : keyOf x = some (ascii "services", after)) : Reads p x .services
  | ends (hreal : isComment x = false) (h0 : indentation x = 0) (hhead : x.head?.any isSpace = false)
      (hkey : ∀ after, keyOf x ≠ some (ascii "services", after)) : Reads p x (.top p.begun)
  | outside {begun : Bool} (hp : p = .top begun) (hreal : isComment x = false) (h0 : indentation x ≠ 0) :
      Reads p x (.top begun)
  | service {name after : Bytes} (hp : ∀ begun, p ≠ .top begun) (hreal : isComment x = false)
      (h2 : indentation x = 2) (hkey : keyOf x = some (name, after)) : Reads p x (.service (serviceOf name))
  | key {target : Option String} {name after : Bytes} (hp : p = .service target ∨ ∃ q, p = .entry target q)
      (hreal : isComment x = false) (h4 : indentation x = 4) (hkey : keyOf x = some (name, after)) :
      Reads p x (.entry target (propertyOf name))
  | item {target q : Option String} (hp : p = .entry target q) (hreal : isComment x = false) (h4 : indentation x = 4)
      (hkey : keyOf x = none) (hdash : [45] <+: strip x) : Reads p x (.entry target q)
  | deep {target q : Option String} (hp : p = .entry target q) (hreal : isComment x = false) (h4 : 4 < indentation x) :
      Reads p x (.entry target q)

theorem readService_some (h : readService x = some p') :
    ∃ name after, keyOf x = some (name, after) ∧ p' = .service (serviceOf name) := by
  unfold readService at h
  split at h
  · next name after hkey =>
    split at h
    · cases h
      exact ⟨name, after, hkey, rfl⟩
    · cases h
  · cases h

theorem read_cases (h : read p x = some p') : Reads p x p' := by
  unfold read at h
  cases hreal : isComment x with
  | true =>
    rw [hreal, if_pos rfl] at h
    cases h
    exact .comment hreal
  | false =>
    rw [hreal, if_neg Bool.false_ne_true] at h
    by_cases h0 : indentation x = 0
    · rw [if_pos h0] at h
      cases hhead : x.head?.any isSpace with
      | true =>
        rw [hhead, if_pos rfl] at h
        cases h
      | false =>
        rw [hhead, if_neg Bool.false_ne_true] at h
        cases hkey : keyOf x with
        | none =>
          rw [hkey] at h
          cases h
          exact .ends hreal h0 hhead fun after => by simp [hkey]
        | some key =>
          obtain ⟨name, after⟩ := key
          rw [hkey] at h
          dsimp only at h
          by_cases hname : name = ascii "services"
          · rw [if_pos hname] at h
            split at h
            · next hfirst =>
              cases h
              simp only [Bool.and_eq_true, Bool.not_eq_true'] at hfirst
              exact .begins hfirst.2 hreal h0 (hname ▸ hkey)
            · cases h
          · rw [if_neg hname] at h
            cases h
            exact .ends hreal h0 hhead fun after' => by simp [hkey, hname]
    · rw [if_neg h0] at h
      cases p with
      | top begun =>
        cases h
        exact .outside rfl hreal h0
      | services =>
        dsimp only at h
        split at h
        · next h2 =>
          obtain ⟨name, after, hkey, rfl⟩ := readService_some h
          exact .service (by simp) hreal h2 hkey
        · cases h
      | service target =>
        dsimp only at h
        split at h
        · next h2 =>
          obtain ⟨name, after, hkey, rfl⟩ := readService_some h
          exact .service (by simp) hreal h2 hkey
        · split at h
          · next h4 =>
            obtain ⟨⟨name, after⟩, hkey, rfl⟩ := Option.map_eq_some_iff.1 h
            exact .key (.inl rfl) hreal h4 hkey
          · cases h
      | entry target q =>
        dsimp only at h
        split at h
        · next h2 =>
          obtain ⟨name, after, hkey, rfl⟩ := readService_some h
          exact .service (by simp) hreal h2 hkey
        · split at h
          · next h4 =>
            cases hkey : keyOf x with
            | some key =>
              obtain ⟨name, after⟩ := key
              rw [hkey] at h
              cases h
              exact .key (.inr ⟨q, rfl⟩) hreal h4 hkey
            | none =>
              rw [hkey] at h
              dsimp only at h
              split at h
              · next hdash =>
                cases h
                exact .item rfl hreal h4 hkey hdash
              · cases h
          · split at h
            · next h4 =>
              cases h
              exact .deep rfl hreal h4
            · cases h

/-! ## One line, read both ways -/

/-- What the loop does to an image, and what is wanted for one, by the service it is taken to be of. -/
def imageAction : Option String → Action
  | some service => .pin service
  | none => .keep

/-- The same for the other two. -/
def otherAction : Option String → Action
  | some _ => .drop
  | none => .keep

/-- **The loop takes the line to be of the service it is of**, as far as that is for the loop to say; and no image or pull policy
of a pinned service goes on behind its line, no build at its own indent. -/
def Control.clearAt (c : Control) (p : Place) (x : Bytes) : Bool :=
  match p with
  | .entry target (some property) =>
    if isComment x then true
    else if isKey x then (if property = "image" then c.target = target else c.target.isSome = target.isSome)
    else target = none ∨ property = "build" ∧ 4 < indentation x
  | _ => true

/-- What the loop does to a line, beside what is wanted. -/
inductive LineCase (c : Control) (p : Place) (x : Bytes) : Prop
  | same (haction : c.action x = wanted p x) (hclear : c.clearAt p x = true)
  | image (t : Option String) (hp : p = .entry t (some "image")) (hentry : entryOf x = some "image")
      (haction : c.action x = imageAction c.target) (hwanted : wanted p x = imageAction t)
      (hclear : c.clearAt p x = true ↔ c.target = t)
  | other (t : Option String) (property : String) (hp : p = .entry t (some property)) (hne : property ≠ "image")
      (hfree : c.inBlock x = false) (hentry : entryOf x = some property) (haction : c.action x = otherAction c.target)
      (hwanted : wanted p x = otherAction t) (hclear : c.clearAt p x = true ↔ c.target.isSome = t.isSome)
  | tail (service property : String) (hp : p = .entry (some service) (some property)) (hreal : isComment x = false)
      (hindent : indentation x = 4 ∧ keyOf x = none ∨ 4 < indentation x) (haction : c.action x = .keep)
      (hwanted : wanted p x = .drop) (hclear : c.clearAt p x = false)

theorem Control.inBlock_eq_false (h : c.buildBlockIndent = none ∨ c.buildBlockIndent = some 4 ∧ strip x ≠ [] ∧
    isComment x = false ∧ indentation x ≤ 4) : c.inBlock x = false := by
  rcases h with h | ⟨h, hblank, hreal, hindent⟩
  · rw [Control.inBlock, h, Option.any_none]
  · have hhash : ¬ [35] <+: strip x := by simpa [isComment] using hreal
    rw [Control.inBlock, h, Option.any_some]
    simp [hblank, hhash, hindent]

theorem Agrees.block_le (h : Agrees c p) : c.buildBlockIndent = none ∨ c.buildBlockIndent = some 4 := by
  rw [h.block]
  split
  · exact .inr rfl
  · exact .inl rfl

/-- No build block goes on with a line of its own indent, or less. -/
theorem Agrees.shallow (h : Agrees c p) (hblank : strip x ≠ []) (hreal : isComment x = false) (hindent : indentation x ≤ 4) :
    c.inBlock x = false := by
  refine Control.inBlock_eq_false ?_
  rcases h.block_le with hnone | hfour
  · exact .inl hnone
  · exact .inr ⟨hfour, hblank, hreal, hindent⟩

/-- A line that none of the three keys starts is kept, outside a build block. -/
theorem Control.action_keep (hin : c.inBlock x = false) (hentry : entryOf x = none) : c.action x = .keep ∧ c.credit x = none := by
  have hcredit : c.credit x = none := by
    rw [Control.credit, hin, if_neg Bool.false_ne_true, hentry]
    cases (c.headed x).target <;> rfl
  refine ⟨?_, hcredit⟩
  rw [Control.action, hin, if_neg Bool.false_ne_true, hcredit]

theorem entryOf_indent (h : indentation x ≠ 4) : entryOf x = none := if_neg h

/-- One of the three, at indent 4. -/
theorem Control.action_entry {property : String} (hin : c.inBlock x = false) (hentry : entryOf x = some property) :
    c.credit x = c.target.map (fun service => (service, property)) ∧
      c.action x = if property = "image" then imageAction c.target else otherAction c.target := by
  have h4 := entryOf_at hentry
  have hhead : c.headed x = { c with buildBlockIndent := none } := headed_other (by omega) (by omega)
  have htarget : ({ c with buildBlockIndent := none } : Control).target = c.target := rfl
  have hcredit : c.credit x = c.target.map fun service => (service, property) := by
    rw [Control.credit, hin, if_neg Bool.false_ne_true, hhead, htarget, hentry]
    cases c.target <;> rfl
  refine ⟨hcredit, ?_⟩
  rw [Control.action, hin, if_neg Bool.false_ne_true, hcredit]
  cases c.target with
  | none => simp [imageAction, otherAction]
  | some service => rfl

theorem wanted_comment (h : isComment x = true) :
    wanted p x = if p.building = true ∧ 4 < indentation x then .drop else .keep := by
  unfold wanted Place.building
  split
  · simp [h]
  · simp

/-- Where no pinned service or none of the three is in question, all is kept. -/
theorem wanted_keep {t q : Option String} (h : t = none ∨ q = none) : wanted (.entry t q) x = .keep := by
  rcases h with rfl | rfl
  · rfl
  · cases t <;> rfl

theorem clearAt_keep {t q : Option String} (h : t = none ∨ q = none) (hkey : isKey x = false) :
    c.clearAt (.entry t q) x = true := by
  cases q with
  | none => rfl
  | some property =>
    have ht : t = none := by simpa using h
    simp [Control.clearAt, ht, hkey]

/-- Outside the services no service is known, so no key is one of a service. -/
theorem Agrees.outside {begun : Bool} (h : Agrees c (.top begun)) (h0 : indentation x ≠ 0) :
    c.inBlock x = false ∧ c.credit x = none := by
  have hout : c.inServices = false := by
    cases hin : c.inServices with
    | false => rfl
    | true => exact absurd rfl (h.inside hin begun)
  have hnone : c.currentService = none := by
    cases hcurrent : c.currentService with
    | none => rfl
    | some service =>
      have hin := h.known (by rw [hcurrent, Option.isSome_some])
      rw [hout] at hin
      cases hin
  have hfree : c.inBlock x = false := Control.inBlock_eq_false (.inl h.block)
  have htarget : (c.headed x).target = none := by simp [Control.headed, Control.target, hout, h0, hnone]
  exact ⟨hfree, by rw [Control.credit, hfree, if_neg Bool.false_ne_true, htarget, Option.bind_none]⟩

theorem line_cases (h : Agrees c p) (hblank : strip x ≠ []) (hread : read p x = some p') : LineCase c p' x := by
  cases read_cases hread with
  | comment hcomment =>
    have hhash : [35] <+: strip x := by simpa [isComment] using hcomment
    refine .same ?_ ?_
    · have hblock := h.block
      rw [wanted_comment hcomment]
      cases hbuild : p.building with
      | true =>
        rw [hbuild, if_pos rfl] at hblock
        have hin : c.inBlock x = true := by simp [Control.inBlock, hblock, hhash]
        rw [Control.action, hin, if_pos rfl, hblock]
        by_cases hdeep : 4 < indentation x <;> simp [hblank, hhash, hdeep]
      | false =>
        rw [hbuild, if_neg Bool.false_ne_true] at hblock
        rw [(Control.action_keep (Control.inBlock_eq_false (.inl hblock)) (entryOf_none (.inl rfl) hhash)).1]
        simp
    · unfold Control.clearAt
      rw [hcomment]
      split <;> rfl
  | begins _ hreal h0 _ =>
    exact .same (Control.action_keep (h.shallow hblank hreal (by omega)) (entryOf_indent (by omega))).1 rfl
  | ends hreal h0 _ _ =>
    exact .same (Control.action_keep (h.shallow hblank hreal (by omega)) (entryOf_indent (by omega))).1 rfl
  | service _ hreal h2 _ =>
    exact .same (Control.action_keep (h.shallow hblank hreal (by omega)) (entryOf_indent (by omega))).1 rfl
  | @outside begun hp hreal h0 =>
    subst hp
    obtain ⟨hfree, hcredit⟩ := h.outside h0
    exact .same (by rw [Control.action, hfree, if_neg Bool.false_ne_true, hcredit]; rfl) rfl
  | @key t name after hp hreal h4 hkey =>
    have hfree := h.shallow hblank hreal (by omega)
    have hentry : entryOf x = propertyOf name := by rw [entryOf_key hkey, if_pos h4]
    have hiskey : isKey x = true := by simp [isKey, h4, hkey]
    cases hproperty : propertyOf name with
    | none =>
      refine .same ?_ rfl
      rw [(Control.action_keep hfree (hentry.trans hproperty)).1, wanted_keep (.inr rfl)]
    | some property =>
      rw [hproperty] at hentry
      have haction := (Control.action_entry hfree hentry).2
      by_cases himage : property = "image"
      · subst himage
        refine .image t rfl hentry haction ?_ ?_
        · cases t with
          | none => rfl
          | some service => simp [wanted, imageAction, hreal, hiskey]
        · simp [Control.clearAt, hreal, hiskey]
      · rw [if_neg himage] at haction
        refine .other t property rfl himage hfree hentry haction ?_ ?_
        · cases t with
          | none => rfl
          | some service => simp [wanted, otherAction, hreal, himage]
        · simp [Control.clearAt, hreal, hiskey, himage]
  | @item t q hp hreal h4 hkey hdash =>
    have hkeep := (Control.action_keep (h.shallow hblank hreal (by omega)) (entryOf_none (.inr rfl) hdash)).1
    have hiskey : isKey x = false := by simp [isKey, hkey]
    by_cases hplain : t = none ∨ q = none
    · exact .same (by rw [hkeep, wanted_keep hplain]) (clearAt_keep hplain hiskey)
    · rw [not_or] at hplain
      obtain ⟨service, rfl⟩ := Option.ne_none_iff_exists'.1 hplain.1
      obtain ⟨property, rfl⟩ := Option.ne_none_iff_exists'.1 hplain.2
      refine .tail service property rfl hreal (.inl ⟨h4, hkey⟩) hkeep ?_ ?_
      · simp [wanted, hreal, hiskey]
      · simp [Control.clearAt, hreal, hiskey, h4]
  | @deep t q hp hreal h4 =>
    have hiskey : isKey x = false := by simp [isKey, Nat.ne_of_gt h4]
    have hhash : ¬ [35] <+: strip x := by simpa [isComment] using hreal
    have hblock := h.block
    subst hp
    cases hbuild : (Place.entry t q).building with
    | true =>
      rw [hbuild, if_pos rfl] at hblock
      unfold Place.building at hbuild
      split at hbuild
      · next service property heq =>
        cases heq
        have hproperty : property = "build" := by simpa using hbuild
        have hin : c.inBlock x = true := by simp [Control.inBlock, hblock, h4]
        refine .same ?_ ?_
        · rw [Control.action, hin, if_pos rfl]
          simp [wanted, hreal, hiskey, hhash]
        · simp [Control.clearAt, hreal, hiskey, hproperty, h4]
      · cases hbuild
    | false =>
      rw [hbuild, if_neg Bool.false_ne_true] at hblock
      have hkeep := (Control.action_keep (Control.inBlock_eq_false (.inl hblock)) (entryOf_indent (Nat.ne_of_gt h4))).1
      by_cases hplain : t = none ∨ q = none
      · exact .same (by rw [hkeep, wanted_keep hplain]) (clearAt_keep hplain hiskey)
      · rw [not_or] at hplain
        obtain ⟨service, rfl⟩ := Option.ne_none_iff_exists'.1 hplain.1
        obtain ⟨property, rfl⟩ := Option.ne_none_iff_exists'.1 hplain.2
        have hproperty : property ≠ "build" := by simpa [Place.building] using hbuild
        refine .tail service property rfl hreal (.inr h4) hkeep ?_ ?_
        · simp [wanted, hreal, hiskey]
        · simp [Control.clearAt, hreal, hiskey, hproperty]

theorem imageAction_inj {t u : Option String} : imageAction t = imageAction u ↔ t = u := by
  cases t <;> cases u <;> simp [imageAction]

theorem otherAction_inj {t u : Option String} : otherAction t = otherAction u ↔ t.isSome = u.isSome := by
  cases t <;> cases u <;> simp [otherAction]

/-- **What is asked of a line is what makes the loop do with it what is wanted.** -/
theorem LineCase.clear_iff (h : LineCase c p x) : c.clearAt p x = true ↔ c.action x = wanted p x := by
  cases h with
  | same haction hclear => simp [haction, hclear]
  | image t hp hentry haction hwanted hclear => rw [hclear, haction, hwanted, imageAction_inj]
  | other t property hp hne hfree hentry haction hwanted hclear => rw [hclear, haction, hwanted, otherAction_inj]
  | tail service property hp hreal hindent haction hwanted hclear => simp [haction, hwanted, hclear]

/-- A blank line changes nothing. -/
theorem next_blank (h : strip x = []) : c.next x = c ∧ (c.action x = .keep ∨ c.action x = .drop) := by
  have hentry := entryOf_blank h
  cases hblock : c.buildBlockIndent with
  | none =>
    have hin : c.inBlock x = false := Control.inBlock_eq_false (.inl hblock)
    obtain ⟨hkeep, hcredit⟩ := Control.action_keep hin hentry
    refine ⟨?_, .inl hkeep⟩
    have hself : { c with buildBlockIndent := none } = c := by rw [← hblock]
    have hcolon : ¬ [58] <:+ strip x := by simp [h]
    rw [Control.next, hin, if_neg Bool.false_ne_true, hcredit, Control.headed, hself]
    simp [h, ascii]
  | some block =>
    have hin : c.inBlock x = true := by simp [Control.inBlock, hblock, h]
    exact ⟨by rw [Control.next, hin, if_pos rfl], .inr (by simp [Control.action, hin, h])⟩

theorem strip_of_head {b : UInt8} {tail : Bytes} (hb : isSpace b = false) :
    strip (b :: tail) = b :: tail.rdropWhile isSpace := by
  rw [strip, List.dropWhile_cons_of_neg (by simp [hb])]
  have hcut : ([] ++ b :: tail).rdropWhile isSpace = [] ++ b :: tail.rdropWhile isSpace := rdropWhile_append_cons hb
  simpa using hcut

/-- The line that opens the services for the loop opens them. -/
theorem keyOf_services (hhead : x.head?.any isSpace = false) (h : strip x = ascii "services:") :
    ∃ after, keyOf x = some (ascii "services", after) := by
  cases x with
  | nil => simp [strip, ascii] at h
  | cons b tail =>
    have hb : isSpace b = false := by simpa using hhead
    rw [strip_of_head hb] at h
    obtain ⟨rest, hrest, hall⟩ : ∃ rest, tail = tail.rdropWhile isSpace ++ rest ∧ ∀ b ∈ rest, isSpace b = true := by
      refine ⟨tail.rtakeWhile isSpace, (List.rdropWhile_append_rtakeWhile (p := isSpace)).symm, fun b hb => ?_⟩
      exact List.mem_rtakeWhile_imp hb
    have hx : b :: tail = ascii "services:" ++ rest := by
      rw [← h, List.cons_append, ← hrest]
    refine ⟨rest, ?_⟩
    have hafter : rest.head?.all isSpace = true := by
      cases rest with
      | nil => rfl
      | cons b rest => simpa using hall b List.mem_cons_self
    rw [hx]
    simp [keyOf, ascii, nameByte, isSpace, hafter]

theorem headed_in (h : (c.headed x).inServices = true) : (c.inServices = true ∧ ¬ (strip x ≠ [] ∧ indentation x = 0)) ∨
    (indentation x = 0 ∧ strip x = ascii "services:") := by
  unfold Control.headed at h
  dsimp only at h
  split at h
  · next hout =>
    split at h
    · next hopen => exact .inr hopen
    · have hin : c.inServices = true := h
      simp [hin] at hout
  · next hin =>
    split at h
    · cases h
    · next hstay => exact .inl ⟨by simpa using hin, hstay⟩

theorem headed_known (h : c.currentService.isSome = true → c.inServices = true)
    (hcurrent : (c.headed x).currentService.isSome = true) : (c.headed x).inServices = true := by
  unfold Control.headed at hcurrent ⊢
  dsimp only at hcurrent ⊢
  split at hcurrent
  · next hout =>
    split at hcurrent <;> simp [h hcurrent] at hout
  · next hin =>
    split at hcurrent
    · cases hcurrent
    · next hstay =>
      have hinside : c.inServices = true := by simpa using hin
      simp only [hinside, Bool.not_true, Bool.false_eq_true, if_false, if_neg hstay]
      split <;> rfl

theorem headed_block : (c.headed x).buildBlockIndent = none := by
  unfold Control.headed
  dsimp only
  split
  · split <;> rfl
  · split
    · rfl
    · split <;> rfl

theorem Agrees.headed (h : Agrees c p) (hbuild : p'.building = false)
    (hinside : (c.headed x).inServices = true → ∀ begun, p' ≠ .top begun) : Agrees (c.headed x) p' where
  block := by rw [headed_block, hbuild, if_neg Bool.false_ne_true]
  inside := hinside
  known := headed_known h.known

/-- A line that is none of the three is a heading at most. -/
theorem next_headed (hin : c.inBlock x = false) (hentry : entryOf x = none) : c.next x = c.headed x := by
  rw [Control.next, hin, if_neg Bool.false_ne_true, (Control.action_keep hin hentry).2]
  rfl

theorem building_top {begun : Bool} : (Place.top begun).building = false := rfl

/-- **Where the loop does what is wanted, it goes on knowing what it knew of the place.** -/
theorem Agrees.next (h : Agrees c p) (hblank : strip x ≠ []) (hread : read p x = some p') (haction : c.action x = wanted p' x) :
    Agrees (c.next x) p' := by
  have hlow : isComment x = false → indentation x < 4 → c.next x = c.headed x := fun hreal hindent =>
    next_headed (h.shallow hblank hreal (by omega)) (entryOf_indent (by omega))
  cases read_cases hread with
  | comment hcomment =>
    have hhash : [35] <+: strip x := by simpa [isComment] using hcomment
    have hblock := h.block
    cases hbuild : p.building with
    | true =>
      rw [hbuild, if_pos rfl] at hblock
      have hin : c.inBlock x = true := by simp [Control.inBlock, hblock, hhash]
      rw [Control.next, hin, if_pos rfl]
      exact h
    | false =>
      rw [hbuild, if_neg Bool.false_ne_true] at hblock
      rw [next_headed (Control.inBlock_eq_false (.inl hblock)) (entryOf_none (.inl rfl) hhash)]
      refine h.headed hbuild fun hin => ?_
      rcases headed_in hin with ⟨hin, -⟩ | ⟨-, hopen⟩
      · exact h.inside hin
      · rw [hopen] at hhash
        exact absurd hhash (by decide)
  | begins _ hreal h0 _ =>
    rw [hlow hreal (by omega)]
    exact h.headed rfl fun _ _ => by simp
  | ends hreal h0 hhead hkey =>
    rw [hlow hreal (by omega)]
    refine h.headed rfl fun hin => ?_
    rcases headed_in hin with ⟨-, hstay⟩ | ⟨-, hopen⟩
    · exact absurd ⟨hblank, h0⟩ hstay
    · obtain ⟨after, hservices⟩ := keyOf_services hhead hopen
      exact absurd hservices (hkey after)
  | @outside begun hp hreal h0 =>
    subst hp
    obtain ⟨hfree, hcredit⟩ := h.outside h0
    have hinside : (c.headed x).inServices = true → ∀ b, Place.top begun ≠ .top b := by
      intro hin
      rcases headed_in hin with ⟨hin, -⟩ | ⟨hzero, -⟩
      · exact h.inside hin
      · exact absurd hzero h0
    have hnext : c.next x = c.headed x := by rw [Control.next, hfree, if_neg Bool.false_ne_true, hcredit]; rfl
    rw [hnext]
    exact h.headed rfl hinside
  | service _ hreal h2 _ =>
    rw [hlow hreal (by omega)]
    exact h.headed rfl fun _ _ => by simp
  | @key t name after hp hreal h4 hkey =>
    have hfree := h.shallow hblank hreal (by omega)
    have hentry : entryOf x = propertyOf name := by rw [entryOf_key hkey, if_pos h4]
    cases hproperty : propertyOf name with
    | none =>
      rw [next_headed hfree (hentry.trans hproperty)]
      exact h.headed (by cases t <;> rfl) fun _ _ => by simp
    | some property =>
      rw [hproperty] at hentry haction
      obtain ⟨hcredit, hdoes⟩ := Control.action_entry hfree hentry
      by_cases hbuild : property = "build"
      · -- the block is left out by the loop just where it is one of a pinned service
        subst hbuild
        have hiskey : isKey x = true := by simp [isKey, h4, hkey]
        have hwanted : wanted (.entry t (some "build")) x = otherAction t := by
          cases t with
          | none => rfl
          | some service => simp [wanted, otherAction, hreal]
        rw [hdoes, if_neg (by decide), hwanted, otherAction_inj] at haction
        rw [Control.next, hfree, if_neg Bool.false_ne_true, hcredit]
        cases hc : c.target with
        | none =>
          rw [hc] at haction
          have ht : t = none := by simpa using haction.symm
          subst ht
          exact h.headed rfl fun _ _ => by simp
        | some service =>
          rw [hc] at haction
          obtain ⟨service', rfl⟩ := Option.isSome_iff_exists.1 haction.symm
          exact ⟨rfl, fun _ _ => by simp, headed_known h.known⟩
      · have hnext : c.next x = c.headed x := by
          rw [Control.next, hfree, if_neg Bool.false_ne_true, hcredit]
          cases c.target <;> simp [hbuild]
        rw [hnext]
        exact h.headed (by cases t <;> simp [Place.building, hbuild]) fun _ _ => by simp
  | @item t q hp hreal h4 hkey hdash =>
    have hfree := h.shallow hblank hreal (by omega)
    have hentry : entryOf x = none := entryOf_none (.inr rfl) hdash
    rw [next_headed hfree hentry]
    refine h.headed ?_ fun _ _ => by simp
    cases hbuild : (Place.entry t q).building with
    | false => rfl
    | true =>
      unfold Place.building at hbuild
      split at hbuild
      · next service property heq =>
        cases heq
        have hiskey : isKey x = false := by simp [isKey, hkey]
        rw [(Control.action_keep hfree hentry).1] at haction
        simp [wanted, hreal, hiskey] at haction
      · cases hbuild
  | @deep t q hp hreal h4 =>
    have hblock := h.block
    subst hp
    cases hbuild : (Place.entry t q).building with
    | true =>
      rw [hbuild, if_pos rfl] at hblock
      have hin : c.inBlock x = true := by simp [Control.inBlock, hblock, h4]
      rw [Control.next, hin, if_pos rfl]
      exact h
    | false =>
      rw [hbuild, if_neg Bool.false_ne_true] at hblock
      rw [next_headed (Control.inBlock_eq_false (.inl hblock)) (entryOf_indent (Nat.ne_of_gt h4))]
      exact h.headed hbuild fun _ _ => by simp

end Panella.PinCompose
