import Panella.PinExact

/-!
# Plain compose files

Where every key that opens a section or a service stands alone on its line, no comment is taken for either, and nothing of the two
services' images and pull policies is on a line of its own, the loop follows the text (`Follows.next`): each line is taken to be
of the service it is of, and the transform does what a release asks of it (`meets_of_plain`).
-/

namespace Panella.PinCompose

open EnvFile Utf8Cut Lines

variable {c : Control} {p p' : Place} {x line e : Bytes} {rest ls : List Bytes}

/-- The pinned service a place is in. -/
def Place.target : Place → Option String
  | .service target | .entry target _ => target
  | _ => none

def Place.inside : Place → Bool
  | .top _ => false
  | _ => true

/-- Nothing stands behind the key. -/
def alone (x : Bytes) : Bool := (keyOf x).all fun key => strip key.2 = []

/-- A line read in place `p` and standing in `p'` is one the loop reads the same way. A comment must not stand where a section
starts, nor end in `:` where a service does; in a build block it may. -/
def plainLine (p p' : Place) (x : Bytes) : Bool :=
  if isComment x then p.building || !p.inside || (indentation x ≠ 0 && !(indentation x = 2 && [58] <:+ strip x))
  else
    match p' with
    | .services | .service _ => alone x
    | .entry (some _) (some property) => isKey x || (property = "build" && 4 < indentation x)
    | _ => true

def plain : Place → List Bytes → Bool
  | _, [] => true
  | p, x :: xs =>
    match read p x with
    | none => true
    | some p' => plainLine p p' x && plain p' xs

/-- The loop knows where it is. -/
structure Follows (c : Control) (p : Place) : Prop where
  agrees : Agrees c p
  inServices : c.inServices = p.inside
  target : c.target = p.target

theorem Follows.start : Follows start (.top false) := ⟨.start, rfl, rfl⟩

/-! ## Names -/

theorem strip_eq_nil : strip x = [] ↔ ∀ b ∈ x, isSpace b = true := by
  unfold strip
  rw [List.rdropWhile_eq_nil_iff]
  constructor
  · intro hall
    rw [← List.dropWhile_eq_nil_iff]
    cases hdrop : x.dropWhile isSpace with
    | nil => rfl
    | cons b bs =>
      have hhead := List.head?_dropWhile_not isSpace x
      rw [hdrop] at hall hhead
      have hb := hall b List.mem_cons_self
      simp [hb] at hhead
  · intro hall b hb
    exact hall b (List.dropWhile_suffix isSpace |>.mem hb)

/-- A key that stands alone. -/
theorem strip_alone {name after : Bytes} (hkey : keyOf x = some (name, after)) (h : alone x = true) : strip x = name ++ [58] := by
  have hblank : strip after = [] := by simpa [alone, hkey] using h
  rw [strip_key hkey, List.rdropWhile_eq_nil_iff.2 (strip_eq_nil.1 hblank)]

/-- The name that the loop decodes is the one that is read. -/
theorem target_of_name (name : Bytes) : (decode name).filter (fun s => targetServices.contains s) = serviceOf name := by
  by_cases hstore : ascii "panella" = name
  · subst hstore
    decide +kernel
  · by_cases happ : ascii "panella-http" = name
    · subst happ
      decide +kernel
    · have hother : serviceOf name = none := by simp [serviceOf, targetServices, hstore, happ]
      rw [hother, Option.filter_eq_none_iff]
      intro s hs hmem
      have hbytes := decode_eq hs
      simp only [targetServices, List.contains_cons, List.contains_nil, Bool.or_false, Bool.or_eq_true, beq_iff_eq] at hmem
      rcases hmem with rfl | rfl
      · exact hstore (Eq.trans (by decide +kernel) hbytes.symm)
      · exact happ (Eq.trans (by decide +kernel) hbytes.symm)

theorem keyOf_comment (h : isComment x = true) : keyOf x = none := by
  cases hkey : keyOf x with
  | none => rfl
  | some key =>
    obtain ⟨name, after⟩ := key
    obtain ⟨-, hne, hname, -⟩ := keyOf_eq hkey
    obtain ⟨b, ns, rfl⟩ := List.exists_cons_of_ne_nil hne
    have hhash : [35] <+: strip x := by simpa [isComment] using h
    rw [strip_key hkey, List.cons_append, List.cons_prefix_cons] at hhash
    have hb := hname b List.mem_cons_self
    rw [← hhash.1] at hb
    exact absurd hb (by decide)

/-! ## One line -/

/-- Outside a build block the heading says it all. -/
theorem next_of_free (hfree : c.inBlock x = false) :
    (c.next x).inServices = (c.headed x).inServices ∧ (c.next x).target = (c.headed x).target := by
  rw [Control.next, hfree, if_neg Bool.false_ne_true]
  split <;> exact ⟨rfl, rfl⟩

theorem headed_stays (h0 : c.inServices = true → strip x = [] ∨ indentation x ≠ 0)
    (h2 : c.inServices = true → ¬ (indentation x = 2 ∧ [58] <:+ strip x))
    (hopen : ¬ (indentation x = 0 ∧ strip x = ascii "services:")) : c.headed x = { c with buildBlockIndent := none } := by
  unfold Control.headed
  cases hin : c.inServices with
  | false => simp [hopen]
  | true =>
    have hlow : ¬ (strip x ≠ [] ∧ indentation x = 0) := by
      rcases h0 hin with h | h <;> simp [h]
    simp [hlow, h2 hin]

theorem read_target {t q : Option String} (hreal : isComment x = false) (h : read p x = some (.entry t q)) : p.target = t := by
  cases read_cases h with
  | comment hcomment =>
    rw [hcomment] at hreal
    cases hreal
  | key hp _ _ _ => rcases hp with rfl | ⟨_, rfl⟩ <;> rfl
  | item hp _ _ _ _ =>
    subst hp
    rfl
  | deep hp _ _ =>
    subst hp
    rfl

/-- Where the loop follows, a plain line is clear. -/
theorem Follows.clearAt (h : Follows c p) (hread : read p x = some p') (hplain : plainLine p p' x = true) :
    c.clearAt p' x = true := by
  unfold Control.clearAt
  split
  · next t property =>
    cases hreal : isComment x with
    | true => rfl
    | false =>
      have ht : c.target = t := h.target.trans (read_target hreal hread)
      simp only [plainLine, hreal, Bool.false_eq_true, if_false] at hplain ⊢
      cases t with
      | none => simp [ht]
      | some service =>
        cases hkey : isKey x with
        | true => simp [ht]
        | false => simpa [hkey] using hplain
  · rfl

/-- **The loop follows from one plain line to the next.** -/
theorem Follows.next (h : Follows c p) (hblank : strip x ≠ []) (hread : read p x = some p')
    (hplain : plainLine p p' x = true) : Follows (c.next x) p' := by
  have haction := (line_cases h.agrees hblank hread).clear_iff.1 (h.clearAt hread hplain)
  have hagrees := h.agrees.next hblank hread haction
  suffices hstands : (c.next x).inServices = p'.inside ∧ (c.next x).target = p'.target from ⟨hagrees, hstands.1, hstands.2⟩
  have hfree : isComment x = false → indentation x ≤ 4 → c.inBlock x = false := h.agrees.shallow hblank
  cases read_cases hread with
  | comment hcomment =>
    have hhash : [35] <+: strip x := by simpa [isComment] using hcomment
    have hblock := h.agrees.block
    cases hbuild : p.building with
    | true =>
      rw [hbuild, if_pos rfl] at hblock
      have hin : c.inBlock x = true := by simp [Control.inBlock, hblock, hhash]
      rw [Control.next, hin, if_pos rfl]
      exact ⟨h.inServices, h.target⟩
    | false =>
      rw [hbuild, if_neg Bool.false_ne_true] at hblock
      obtain ⟨hin, htarget⟩ := next_of_free (c := c) (x := x) (Control.inBlock_eq_false (.inl hblock))
      have hlow : p.inside = true → indentation x ≠ 0 ∧ ¬ (indentation x = 2 ∧ [58] <:+ strip x) := by
        intro hinside
        simpa [plainLine, hcomment, hbuild, hinside, imp_iff_not_or] using hplain
      have hhead : c.headed x = { c with buildBlockIndent := none } := by
        refine headed_stays (fun hin => .inr (hlow (h.inServices ▸ hin)).1) (fun hin => (hlow (h.inServices ▸ hin)).2) ?_
        rintro ⟨-, hopen⟩
        rw [hopen] at hhash
        exact absurd hhash (by decide)
      rw [hin, htarget, hhead]
      exact ⟨h.inServices, h.target⟩
  | begins hp hreal h0 hkey =>
    obtain ⟨hin, htarget⟩ := next_of_free (hfree hreal (by omega))
    have hopen : strip x = ascii "services:" := by
      rw [strip_alone hkey (by simpa [plainLine, hreal] using hplain)]
      rfl
    obtain ⟨begun, rfl⟩ : ∃ begun, p = .top begun := by
      cases p with
      | top begun => exact ⟨begun, rfl⟩
      | _ => cases hp
    have hhead : c.headed x = { c with buildBlockIndent := none, inServices := true } := by
      have hout : c.inServices = false := h.inServices
      simp [Control.headed, hout, h0, hopen]
    rw [hin, htarget, hhead]
    exact ⟨rfl, h.target⟩
  | ends hreal h0 hhead hkey =>
    obtain ⟨hin, htarget⟩ := next_of_free (hfree hreal (by omega))
    have hopen : strip x ≠ ascii "services:" := by
      intro hopen
      obtain ⟨after, hservices⟩ := keyOf_services hhead hopen
      exact hkey after hservices
    rw [hin, htarget]
    cases hinside : c.inServices with
    | true =>
      have hclosed : c.headed x = ⟨false, none, none⟩ := by simp [Control.headed, hinside, h0, hblank]
      rw [hclosed]
      exact ⟨rfl, rfl⟩
    | false =>
      have hstays : c.headed x = { c with buildBlockIndent := none } := by simp [Control.headed, hinside, hopen]
      have hnone : c.currentService = none := by
        cases hcurrent : c.currentService with
        | none => rfl
        | some service =>
          have hknown := h.agrees.known (by rw [hcurrent, Option.isSome_some])
          rw [hinside] at hknown
          cases hknown
      rw [hstays]
      exact ⟨hinside, by simp [Control.target, hnone, Place.target]⟩
  | outside hp hreal h0 =>
    subst hp
    obtain ⟨hin, htarget⟩ := next_of_free (h.agrees.outside h0).1
    have hout : c.inServices = false := h.inServices
    have hstays : c.headed x = { c with buildBlockIndent := none } := by simp [Control.headed, hout, h0]
    rw [hin, htarget, hstays]
    exact ⟨h.inServices, h.target⟩
  | @service name after hp hreal h2 hkey =>
    obtain ⟨hin, htarget⟩ := next_of_free (hfree hreal (by omega))
    have hinside : c.inServices = true := by
      rw [h.inServices]
      cases p with
      | top begun => exact absurd rfl (hp begun)
      | _ => rfl
    have hname : strip x = name ++ [58] := strip_alone hkey (by simpa [plainLine, hreal] using hplain)
    have hheaded : c.headed x = { c with buildBlockIndent := none, currentService := decode name } := by
      simp [Control.headed, hinside, h2, hname]
    rw [hin, htarget, hheaded]
    exact ⟨hinside, target_of_name name⟩
  | key hp hreal h4 hkey =>
    obtain ⟨hin, htarget⟩ := next_of_free (hfree hreal (by omega))
    rw [hin, htarget, headed_other (by omega) (by omega)]
    rcases hp with rfl | ⟨_, rfl⟩
    · exact ⟨h.inServices, h.target⟩
    · exact ⟨h.inServices, h.target⟩
  | item hp hreal h4 hkey hdash =>
    obtain ⟨hin, htarget⟩ := next_of_free (hfree hreal (by omega))
    subst hp
    rw [hin, htarget, headed_other (by omega) (by omega)]
    exact ⟨h.inServices, h.target⟩
  | deep hp hreal h4 =>
    subst hp
    cases hin : c.inBlock x with
    | true =>
      rw [Control.next, hin, if_pos rfl]
      exact ⟨h.inServices, h.target⟩
    | false =>
      obtain ⟨hservices, htarget⟩ := next_of_free hin
      rw [hservices, htarget, headed_other (by omega) (by omega)]
      exact ⟨h.inServices, h.target⟩

/-- A plain line is taken for the key it is, and no other is taken for one. -/
theorem Follows.credit (h : Follows c p) (hblank : strip x ≠ []) (hread : read p x = some p') :
    c.credit x = givenKey p' x := by
  have hlow : isComment x = false → indentation x ≤ 4 → entryOf x = none → c.credit x = none := fun hreal hindent hentry =>
    (Control.action_keep (h.agrees.shallow hblank hreal hindent) hentry).2
  have hnot : isKey x = false → givenKey p' x = none := by
    intro hkey
    unfold givenKey
    split
    · rw [hkey, if_neg Bool.false_ne_true]
    · rfl
  have hlowKey : indentation x ≠ 4 → isKey x = false := fun h4 => by simp [isKey, h4]
  cases read_cases hread with
  | comment hcomment =>
    have hhash : [35] <+: strip x := by simpa [isComment] using hcomment
    rw [hnot (by simp [isKey, keyOf_comment hcomment])]
    cases hin : c.inBlock x with
    | true => rw [Control.credit, hin, if_pos rfl]
    | false => exact (Control.action_keep hin (entryOf_none (.inl rfl) hhash)).2
  | begins _ hreal h0 _ => rw [hnot (hlowKey (by omega)), hlow hreal (by omega) (entryOf_indent (by omega))]
  | ends hreal h0 _ _ => rw [hnot (hlowKey (by omega)), hlow hreal (by omega) (entryOf_indent (by omega))]
  | service _ hreal h2 _ => rw [hnot (hlowKey (by omega)), hlow hreal (by omega) (entryOf_indent (by omega))]
  | outside hp hreal h0 =>
    subst hp
    exact (h.agrees.outside h0).2
  | @key t name after hp hreal h4 hkey =>
    have hfree := h.agrees.shallow hblank hreal (by omega)
    have hentry : entryOf x = propertyOf name := by rw [entryOf_key hkey, if_pos h4]
    have hiskey : isKey x = true := by simp [isKey, h4, hkey]
    have ht : c.target = t := by
      rw [h.target]
      rcases hp with rfl | ⟨_, rfl⟩ <;> rfl
    cases hproperty : propertyOf name with
    | none =>
      rw [(Control.action_keep hfree (hentry.trans hproperty)).2]
      cases t <;> rfl
    | some property =>
      rw [(Control.action_entry hfree (hentry.trans hproperty)).1, ht]
      cases t with
      | none => rfl
      | some service => simp [givenKey, hiskey]
  | item _ hreal h4 hkey hdash =>
    rw [hnot (by simp [isKey, hkey]), hlow hreal (by omega) (entryOf_none (.inr rfl) hdash)]
  | deep _ _ h4 =>
    rw [hnot (hlowKey (by omega))]
    cases hin : c.inBlock x with
    | true => rw [Control.credit, hin, if_pos rfl]
    | false => exact (Control.action_keep hin (entryOf_indent (by omega))).2

/-! ## The file -/

/-- **The keys a plain file is taken to have are those it has, and all its lines are clear.** -/
theorem Follows.run (h : Follows c p) (hshaped : Shaped ls) (hplain : plain p (bodies ls) = true)
    (hread : wellRead p (bodies ls) = true) (hreturn : ∀ line ∈ ls, line.getLast? ≠ some 13) :
    credits c ls = given p (bodies ls) ∧ clear c p ls = true := by
  induction ls generalizing c p with
  | nil => exact ⟨rfl, rfl⟩
  | cons line rest ih =>
    obtain ⟨⟨e, x, hline⟩, hrest⟩ := hshaped
    obtain ⟨hend, hreturn⟩ := List.forall_mem_cons.1 hreturn
    obtain ⟨hnext, -, hcredit⟩ := control_body (c := c) hline.strip_eq hline.indentation_eq
    rw [bodies_cons hline] at hplain hread ⊢
    rw [credits, clear, hline.body_eq, hline.strip_eq, hnext, hcredit]
    by_cases hblank : strip x = []
    · rw [if_pos hblank, List.nil_append] at hplain hread ⊢
      rw [if_pos hblank, (next_blank hblank).1]
      obtain ⟨hkeys, hclear⟩ := ih h hrest hplain hread hreturn
      have hnone : c.credit x = none := by
        cases hin : c.inBlock x with
        | true => rw [Control.credit, hin, if_pos rfl]
        | false => exact (Control.action_keep hin (entryOf_blank hblank)).2
      rw [hnone, hkeys]
      exact ⟨rfl, hclear⟩
    · rw [if_neg hblank, List.singleton_append] at hplain hread ⊢
      rw [if_neg hblank]
      rw [plain] at hplain
      rw [wellRead] at hread
      rw [given]
      cases hplace : read p x with
      | none =>
        rw [hplace] at hread
        cases hread
      | some p' =>
        rw [hplace] at hplain hread
        simp only [Bool.and_eq_true] at hplain
        obtain ⟨hkeys, hclear⟩ := ih (h.next hblank hplace hplain.1) hrest hplain.2 hread hreturn
        dsimp only
        rw [h.credit hblank hplace, hkeys, hclear, h.clearAt hplace hplain.1, Bool.true_and, Bool.and_true]
        refine ⟨rfl, ?_⟩
        unfold endsWell
        split
        · simp [hend]
        · rfl

/-- **A plain file is pinned as it should be.** -/
theorem meets_of_plain {compose : Bytes} (h : WellFormed compose) (hplain : plain (.top false) (contents compose) = true)
    (hreturn : ∀ line ∈ lines compose, line.getLast? ≠ some 13) : Meets compose := by
  have hread := h.read
  rw [contents_eq compose] at hplain hread
  obtain ⟨hkeys, hclear⟩ := Follows.start.run (shaped_lines compose) hplain hread hreturn
  have hsame : AllSix (credits start (lines compose)) ↔ Complete compose := by
    rw [hkeys, Complete, contents_eq compose]
  exact meets_of_readsRight h ⟨fun hnot hall => hnot (hsame.1 hall), hsame.2, fun _ => hclear⟩

end Panella.PinCompose
