import Panella.PinStep

/-!
# When pinning a compose file touches only what it pins (`pin_compose.py:41-107`)

A build block goes on over comments ("Blank and comment-only lines inside it carry no YAML content and must not terminate the
skip", :59-66), but the lines that name a section or a service are read as they stand, or by their last byte (:80-86). So a key
with a comment behind it names nothing, and a comment names what it likes: at column 0 it ends the services, at indent 2 with a
`:` at its end it is the service from there on. Lines then go with a service that they are not of. `transform_meets_iff` says when
that does harm, and `commented_key_takes_image` is a service that is shipped with another's image.
-/

namespace Panella.PinCompose

open EnvFile Utf8Cut Lines

variable {storeRef appRef : String} {c : Control} {p p' : Place} {x line e : Bytes} {rest ls : List Bytes}

/-! ## Pinned lines -/

theorem lineEnding_eq {last : Prop} (h : LineOf line e x last) : lineEnding line = if e = [13] then [] else e := by
  have hreturn : ∀ b ∈ x, b ≠ 13 := by
    rintro b hb rfl
    exact absurd (h.plain 13 hb) (by decide)
  have hfeed : ∀ b ∈ x, b ≠ 10 := by
    rintro b hb rfl
    exact absurd (h.plain 10 hb) (by decide)
  have hlast : ∀ {b : UInt8} {y : Bytes}, y ++ [b] = x → b ∈ x := by
    rintro b y rfl
    simp
  unfold lineEnding
  rw [h.eq]
  rcases h.ended with rfl | rfl | rfl | ⟨rfl, -⟩
  · have hboth : ¬ [13, 10] <:+ x ++ [10] := by
      rintro ⟨y, hy⟩
      have hcut : (y ++ [13]) ++ [10] = x ++ [10] := by simpa using hy
      exact hreturn 13 (hlast (List.append_cancel_right hcut)) rfl
    rw [if_neg hboth, if_pos (List.suffix_append x [10])]
    rfl
  · have hboth : ¬ [13, 10] <:+ x ++ [13] := by
      rintro ⟨y, hy⟩
      have hcut : (y ++ [13]) ++ [10] = x ++ [13] := by simpa using hy
      have hend := congrArg List.getLast? hcut
      simp at hend
    have hone : ¬ [10] <:+ x ++ [13] := by
      rintro ⟨y, hy⟩
      have hend := congrArg List.getLast? hy
      simp at hend
    rw [if_neg hboth, if_neg hone, if_pos rfl]
  · rw [if_pos (List.suffix_append x [13, 10])]
    rfl
  · have hboth : ¬ [13, 10] <:+ x ++ [] := by
      rintro ⟨y, hy⟩
      have hcut : (y ++ [13]) ++ [10] = x := by simpa using hy
      exact hfeed 10 (hlast hcut) rfl
    have hone : ¬ [10] <:+ x ++ [] := by
      rintro ⟨y, hy⟩
      exact hfeed 10 (hlast (by simpa using hy)) rfl
    rw [if_neg hboth, if_neg hone, if_neg (by simp)]

theorem entryOf_image (z : Bytes) : entryOf (List.replicate 4 32 ++ ascii "image: " ++ z) = some "image" := by
  have hindent : indentation (List.replicate 4 32 ++ ascii "image: " ++ z) = 4 := by
    simp [indentation, ascii, List.replicate]
  have hstrip : strip (List.replicate 4 32 ++ ascii "image: " ++ z) = ascii "image" ++ 58 :: (32 :: z).rdropWhile isSpace := by
    have hskip : (List.replicate 4 32 ++ ascii "image: " ++ z).dropWhile isSpace = ascii "image" ++ 58 :: 32 :: z := by
      simp [ascii, List.replicate, isSpace]
    rw [strip, hskip, rdropWhile_append_cons (by decide)]
  have himage := @prefix_key "image" (ascii "image") ((32 :: z).rdropWhile isSpace) (by decide) (by decide)
  unfold entryOf
  rw [if_pos hindent, hstrip]
  simp only [expectedProperties, List.find?_cons, himage, decide_true]

theorem pinned_plain {service : String} (hstore : OneLine storeRef) (happ : OneLine appRef) :
    ∀ b ∈ pinned storeRef appRef service, isEnd b = false := by
  have href : ∀ b ∈ (refOf storeRef appRef service).getD [], isEnd b = false := by
    unfold refOf
    split
    · exact hstore
    · split
      · exact happ
      · simp
  have hlabel : ∀ b ∈ List.replicate 4 32 ++ ascii "image: ", isEnd b = false := by decide +kernel
  intro b hb
  rcases List.mem_append.1 hb with hb | hb
  · exact hlabel b hb
  · exact href b hb

theorem pinned_not_blank {service : String} (z : Bytes) : strip (pinned storeRef appRef service ++ z) ≠ [] := by
  intro hblank
  have hentry := entryOf_image ((refOf storeRef appRef service).getD [] ++ z)
  rw [← List.append_assoc] at hentry
  have hnone := entryOf_blank hblank
  rw [pinned, hentry] at hnone
  cases hnone

/-! ## The condition -/

/-- The next line that stays is empty, or none does. -/
def nextEmpty : Control → List Bytes → Bool
  | _, [] => true
  | c, line :: rest =>
    match c.action line with
    | .keep => body line = []
    | .drop => nextEmpty (c.next line) rest
    | .pin _ => false

/-- A pinned line that ends in a bare `\r` runs into no other: the loop gives it no end. -/
def endsWell (c : Control) (p : Place) (line : Bytes) (rest : List Bytes) : Bool :=
  match wanted p (body line) with
  | .pin _ => line.getLast? ≠ some 13 ∨ nextEmpty (c.next line) rest
  | _ => true

/-- What is asked of the lines from here on. -/
def clear : Control → Place → List Bytes → Bool
  | _, _, [] => true
  | c, p, line :: rest =>
    if strip line = [] then clear (c.next line) p rest
    else
      match read p (body line) with
      | none => true
      | some p' => c.clearAt p' (body line) && endsWell c p' line rest && clear (c.next line) p' rest

/-- **The condition**, of the loop's variables as the lines above leave them. A line at indent 4 is taken for a key of the service
that is current before it. In a text that lacks one of the six keys, lines of other services do not make up for all it lacks; in
a text that has them, each has a line that is taken for it, and every line is clear. -/
structure ReadsRight (compose : Bytes) : Prop where
  lacking : ¬ Complete compose → ¬ AllSix (credits start (lines compose))
  found : Complete compose → AllSix (credits start (lines compose))
  clear : Complete compose → clear start (.top false) (lines compose) = true

theorem nextEmpty_iff (h : Shaped ls) : nextEmpty c ls = true ↔
    ∀ b ∈ (chunks storeRef appRef c ls).flatten.head?, isEnd b = true := by
  induction ls generalizing c with
  | nil => simp [nextEmpty, chunks]
  | cons line rest ih =>
    obtain ⟨⟨e, x, hline⟩, hrest⟩ := h
    rw [nextEmpty, chunks, List.flatten_append]
    cases haction : c.action line with
    | drop =>
      simp only [chunk, List.flatten_nil, List.nil_append]
      exact ih hrest
    | pin service =>
      have hhead : isEnd 32 = false := rfl
      simp [chunk, List.replicate, hhead]
    | keep =>
      dsimp only
      rw [hline.body_eq]
      simp only [chunk, List.flatten_cons, List.flatten_nil, List.append_nil, hline.eq]
      cases x with
      | cons b x =>
        have hb := hline.plain b List.mem_cons_self
        simp [hb]
      | nil =>
        cases he : e with
        | nil =>
          -- nothing at all: only at the end
          rcases hline.ended with h | h | h | ⟨-, hlast⟩
          · simp [he] at h
          · simp [he] at h
          · simp [he] at h
          · simp [hlast, chunks]
        | cons b e' =>
          have hb := hline.ends b (by simp [he])
          simp [hb]

/-- The line's own bytes, before what is written for the lines behind it. -/
theorem contents_kept {last : Prop} (h : LineOf line e x last) {tail : Bytes} (hlast : last → tail = []) :
    contents (line ++ tail) = (if strip x = [] then [] else [x]) ++ contents tail := by
  rw [h.eq]
  refine contents_line h.plain h.ends fun he => ?_
  rcases h.ended with h | h | h | ⟨-, h⟩
  · simp [he] at h
  · simp [he] at h
  · simp [he] at h
  · simp [hlast h]

/-- A pinned line is a line where it has an end, or what comes behind it starts with one. -/
theorem contents_pinned {last : Prop} {service : String} (hstore : OneLine storeRef) (happ : OneLine appRef)
    (h : LineOf line e x last) {tail : Bytes} (hlast : last → tail = [])
    (hends : line.getLast? = some 13 → ∀ b ∈ tail.head?, isEnd b = true) :
    contents (pinned storeRef appRef service ++ lineEnding line ++ tail) =
      pinned storeRef appRef service :: contents tail := by
  have hblank : strip (pinned storeRef appRef service) ≠ [] := by
    have hnot : strip (pinned storeRef appRef service ++ []) ≠ [] := pinned_not_blank []
    rwa [List.append_nil] at hnot
  have hending : ∀ b ∈ lineEnding line, isEnd b = true := by
    rw [lineEnding_eq h]
    split
    · simp
    · exact h.ends
  rw [contents_line (pinned_plain hstore happ) hending, if_neg hblank, List.singleton_append]
  · intro hnone
    rw [lineEnding_eq h] at hnone
    split at hnone
    · next he =>
      refine hends ?_
      rw [h.eq, he]
      simp
    · rcases h.ended with h | h | h | ⟨-, h⟩
      · simp [hnone] at h
      · simp [hnone] at h
      · simp [hnone] at h
      · simp [hlast h]

/-! ## Clear texts -/

theorem chunks_nil (h : rest = []) : (chunks storeRef appRef c rest).flatten = [] := by
  rw [h, chunks, List.flatten_nil]

/-- **What is written for clear lines is what is wanted of them.** -/
theorem contents_chunks (hstore : OneLine storeRef) (happ : OneLine appRef) (hagrees : Agrees c p) (hshaped : Shaped ls)
    (hread : wellRead p (bodies ls) = true) (hclear : clear c p ls = true) :
    contents (chunks storeRef appRef c ls).flatten = wantedLines storeRef appRef p (bodies ls) := by
  induction ls generalizing c p with
  | nil => rfl
  | cons line rest ih =>
    obtain ⟨⟨e, x, hline⟩, hrest⟩ := hshaped
    obtain ⟨hnext, haction, -⟩ := control_body (c := c) hline.strip_eq hline.indentation_eq
    rw [chunks, List.flatten_append]
    rw [bodies_cons hline] at hread ⊢
    by_cases hblank : strip x = []
    · obtain ⟨hsame, hdoes⟩ := next_blank (c := c) hblank
      rw [clear, if_pos (by rw [hline.strip_eq, hblank]), hnext, hsame] at hclear
      rw [if_pos hblank, List.nil_append] at hread ⊢
      rw [hnext, hsame, haction]
      have hrec := ih hagrees hrest hread hclear
      rcases hdoes with hkeep | hdrop
      · rw [hkeep, chunk, List.flatten_cons, List.flatten_nil, List.append_nil, contents_kept hline chunks_nil, if_pos hblank,
          List.nil_append, hrec]
      · rw [hdrop, chunk, List.flatten_nil, List.nil_append, hrec]
    · rw [if_neg hblank, List.singleton_append, wellRead] at hread
      rw [if_neg hblank, List.singleton_append, wantedLines]
      rw [clear, if_neg (by rw [hline.strip_eq]; exact hblank), hline.body_eq] at hclear
      cases hplace : read p x with
      | none =>
        rw [hplace] at hread
        cases hread
      | some p' =>
        rw [hplace] at hread hclear
        simp only [Bool.and_eq_true] at hclear
        obtain ⟨⟨hat, hend⟩, hclear⟩ := hclear
        have hcase := line_cases hagrees hblank hplace
        have hdoes := hcase.clear_iff.1 hat
        rw [hnext] at hclear
        have hrec := ih (hagrees.next hblank hplace hdoes) hrest hread hclear
        rw [hnext, haction, hdoes]
        dsimp only
        rw [← hrec]
        cases hwanted : wanted p' x with
        | keep =>
          rw [chunk, List.flatten_cons, List.flatten_nil, List.append_nil, contents_kept hline chunks_nil, if_neg hblank]
          rfl
        | drop => rfl
        | pin service =>
          rw [endsWell, hline.body_eq, hwanted] at hend
          have hfollow : line.getLast? = some 13 →
              ∀ b ∈ (chunks storeRef appRef (c.next x) rest).flatten.head?, isEnd b = true := by
            intro hreturn
            have hempty : nextEmpty (c.next x) rest = true := by
              rw [hnext] at hend
              simpa [hreturn] using hend
            exact (nextEmpty_iff hrest).1 hempty
          rw [chunk, List.flatten_cons, List.flatten_nil, List.append_nil]
          exact contents_pinned hstore happ hline chunks_nil hfollow

/-! ## Texts that are not clear

The references may be any; two that are longer than every line, and differ, tell apart what is pinned from what is not. -/

structure Fresh (n : Nat) (storeRef appRef : String) : Prop where
  store : Sha256.utf8 storeRef = List.replicate n 115
  app : Sha256.utf8 appRef = List.replicate n 97

theorem exists_fresh (n : Nat) : ∃ storeRef appRef, Fresh n storeRef appRef := by
  have hascii : ∀ c : Char, ∀ b : UInt8, String.utf8EncodeChar c = [b] → Sha256.utf8 (String.ofList (List.replicate n c)) =
      List.replicate n b := by
    intro c b hc
    rw [Sha256.utf8, String.toByteArray_ofList, List.utf8Encode]
    induction n with
    | zero => rfl
    | succ n ih => simp [List.replicate_succ, hc, ← ih]
  exact ⟨_, _, hascii 's' 115 (by decide), hascii 'a' 97 (by decide)⟩

theorem Fresh.oneLine {n : Nat} (h : Fresh n storeRef appRef) : OneLine storeRef ∧ OneLine appRef := by
  constructor
  · intro b hb
    rw [h.store] at hb
    rw [List.eq_of_mem_replicate hb]
    rfl
  · intro b hb
    rw [h.app] at hb
    rw [List.eq_of_mem_replicate hb]
    rfl

theorem Fresh.pinned_eq {n : Nat} (h : Fresh n storeRef appRef) {service : String} (hs : service ∈ targetServices) :
    pinned storeRef appRef service =
      List.replicate 4 32 ++ ascii "image: " ++ List.replicate n (if service = "panella" then 115 else 97) := by
  simp only [targetServices, List.mem_cons, List.not_mem_nil, or_false] at hs
  rcases hs with rfl | rfl
  · simp [pinned, refOf, h.store]
  · simp [pinned, refOf, h.app]

theorem Fresh.length_pinned {n : Nat} (h : Fresh n storeRef appRef) {service : String} (hs : service ∈ targetServices) :
    n ≤ (pinned storeRef appRef service).length := by
  rw [h.pinned_eq hs, List.length_append, List.length_replicate]
  omega

/-- The line that is pinned says which of the two it is. -/
theorem Fresh.pinned_inj {n : Nat} (h : Fresh (n + 1) storeRef appRef) {s t : String} (hs : s ∈ targetServices)
    (ht : t ∈ targetServices) {z : Bytes} (heq : pinned storeRef appRef s ++ z = pinned storeRef appRef t) : s = t ∧ z = [] := by
  have hlen : z = [] := by
    have hlength := congrArg List.length heq
    rw [h.pinned_eq hs, h.pinned_eq ht] at hlength
    simpa using hlength
  refine ⟨?_, hlen⟩
  rw [hlen, List.append_nil, h.pinned_eq hs, h.pinned_eq ht] at heq
  have hletter := List.append_cancel_left heq
  simp only [List.replicate_succ, List.cons.injEq] at hletter
  simp only [targetServices, List.mem_cons, List.not_mem_nil, or_false] at hs ht
  rcases hs with rfl | rfl <;> rcases ht with rfl | rfl <;> simp_all

/-! ### What comes first in what is left -/

/-- A line that is not blank, whatever may have run into it, is where its text begins. -/
theorem contents_run {y tail : Bytes} (hy : ∀ b ∈ y, isEnd b = false) (hblank : ∀ z, strip (y ++ z) ≠ []) :
    ∃ ws, contents (y ++ tail) = (y ++ tail.takeWhile fun b => !isEnd b) :: ws := by
  have hplain : ∀ b ∈ y ++ tail.takeWhile (fun b => !isEnd b), isEnd b = false := by
    intro b hb
    rcases List.mem_append.1 hb with hb | hb
    · exact hy b hb
    · simpa using List.mem_takeWhile_imp hb
  have hsplit : tail = tail.takeWhile (fun b => !isEnd b) ++ tail.dropWhile (fun b => !isEnd b) :=
    List.takeWhile_append_dropWhile.symm
  cases hdrop : tail.dropWhile (fun b => !isEnd b) with
  | nil =>
    have hall : y ++ tail = y ++ tail.takeWhile (fun b => !isEnd b) := by
      conv_lhs => rw [hsplit, hdrop, List.append_nil]
    exact ⟨[], by rw [hall, contents_plain hplain, if_neg (hblank _)]⟩
  | cons b rest =>
    have hb : isEnd b = true := by
      have hhead := List.head?_dropWhile_not (fun b => !isEnd b) tail
      rw [hdrop] at hhead
      simpa using hhead
    have hall : y ++ tail = (y ++ tail.takeWhile (fun b => !isEnd b)) ++ b :: rest := by
      conv_lhs => rw [hsplit, hdrop, ← List.append_assoc]
    exact ⟨contents rest, by rw [hall, contents_append hb, contents_plain hplain, if_neg (hblank _), List.singleton_append]⟩

theorem entryOf_pinned {service : String} (z : Bytes) : entryOf (pinned storeRef appRef service ++ z) = some "image" := by
  rw [pinned, List.append_assoc]
  exact entryOf_image _

theorem not_comment {property : String} (h : entryOf x = some property) : isComment x = false := by
  cases hcomment : isComment x with
  | false => rfl
  | true =>
    have hhash : [35] <+: strip x := by simpa [isComment] using hcomment
    rw [entryOf_none (.inl rfl) hhash] at h
    cases h

/-- One of the three leaves the loop where it was. -/
theorem next_entry {property : String} (hfree : c.inBlock x = false) (hentry : entryOf x = some property) :
    (c.next x).inServices = c.inServices ∧ (c.next x).target = c.target := by
  have h4 := entryOf_at hentry
  have hhead : c.headed x = { c with buildBlockIndent := none } := headed_other (by omega) (by omega)
  rw [Control.next, hfree, if_neg Bool.false_ne_true, hhead]
  split <;> exact ⟨rfl, rfl⟩

/-- **While the loop takes itself to be in a pinned service it keeps no pull policy and no build**: what it keeps first is
another line. -/
theorem scan_head (hstore : OneLine storeRef) (happ : OneLine appRef) (hshaped : Shaped ls) (hin : c.inServices = true)
    (htarget : c.target.isSome = true) : ∀ y ∈ (contents (chunks storeRef appRef c ls).flatten).head?,
      ∀ property, entryOf y = some property → property = "image" := by
  induction ls generalizing c with
  | nil => simp [chunks, contents_nil]
  | cons line rest ih =>
    obtain ⟨⟨e, x, hline⟩, hrest⟩ := hshaped
    obtain ⟨hnext, haction, -⟩ := control_body (c := c) hline.strip_eq hline.indentation_eq
    rw [chunks, List.flatten_append, hnext, haction]
    have hkeep : ∀ c' : Control, strip x ≠ [] → entryOf x = none →
        ∀ y ∈ (contents ([line].flatten ++ (chunks storeRef appRef c' rest).flatten)).head?, ∀ property,
          entryOf y = some property → property = "image" := by
      intro c' hblank hnone y hy property hproperty
      rw [List.flatten_cons, List.flatten_nil, List.append_nil, contents_kept hline chunks_nil, if_neg hblank] at hy
      have hyx : x = y := by simpa using hy
      rw [← hyx, hnone] at hproperty
      cases hproperty
    by_cases hblank : strip x = []
    · obtain ⟨hsame, hdoes⟩ := next_blank (c := c) hblank
      rw [hsame]
      rcases hdoes with hdoes | hdoes
      · rw [hdoes, chunk, List.flatten_cons, List.flatten_nil, List.append_nil, contents_kept hline chunks_nil, if_pos hblank,
          List.nil_append]
        exact ih hrest hin htarget
      · rw [hdoes, chunk, List.flatten_nil, List.nil_append]
        exact ih hrest hin htarget
    · cases hblock : c.inBlock x with
      | true =>
        rw [Control.next, Control.action, hblock, if_pos rfl, if_pos rfl]
        split
        · next hcomment => exact hkeep c hblank (entryOf_none (.inl rfl) hcomment.2.1)
        · rw [chunk, List.flatten_nil, List.nil_append]
          exact ih hrest hin htarget
      | false =>
        cases hentry : entryOf x with
        | none =>
          rw [(Control.action_keep hblock hentry).1]
          exact hkeep _ hblank hentry
        | some property =>
          obtain ⟨hservices, hservice⟩ := next_entry hblock hentry
          rw [(Control.action_entry hblock hentry).2]
          obtain ⟨service, hsome⟩ := Option.isSome_iff_exists.1 htarget
          rw [hsome]
          split
          · intro y hy property' hproperty'
            rw [imageAction, chunk, List.flatten_cons, List.flatten_nil, List.append_nil, List.append_assoc] at hy
            change y ∈ (contents (pinned storeRef appRef service ++ _)).head? at hy
            obtain ⟨ws, hws⟩ := contents_run (pinned_plain hstore happ) (@pinned_not_blank storeRef appRef service)
            rw [hws] at hy
            have hyx := Option.some.inj hy
            rw [← hyx, entryOf_pinned] at hproperty'
            exact (Option.some.inj hproperty').symm
          · rw [otherAction, chunk, List.flatten_nil, List.nil_append]
            exact ih hrest (by rw [hservices, hin]) (by rw [hservice, htarget])

/-- Neither a comment nor a key other than a pull policy or a build, at indent 4 or deeper. -/
def Inner (x : Bytes) : Prop := isComment x = false ∧
  (indentation x = 4 ∧ (keyOf x = none ∨ ∃ property, entryOf x = some property ∧ property ≠ "image") ∨ 4 < indentation x)

theorem pinned_not_inner {service : String} : ¬ Inner (pinned storeRef appRef service) := by
  have hentry : entryOf (pinned storeRef appRef service ++ []) = some "image" := entryOf_pinned []
  rw [List.append_nil] at hentry
  rintro ⟨-, ⟨-, hkey | ⟨property, hproperty, hne⟩⟩ | hdeep⟩
  · simp [pinned, keyOf, ascii, List.replicate, nameByte, isSpace] at hkey
  · exact hne (Option.some.inj (hproperty.symm.trans hentry))
  · rw [entryOf_at hentry] at hdeep
    omega

/-- **Behind one of the three, in a pinned service, no line like it is wanted first.** -/
theorem wanted_head {xs : List Bytes} {service property : String} (hp : p = .entry (some service) (some property)) :
    ∀ y ∈ (wantedLines storeRef appRef p xs).head?, ¬ Inner y := by
  induction xs generalizing p property with
  | nil => simp [wantedLines]
  | cons x xs ih =>
    rw [wantedLines]
    cases hplace : read p x with
    | none => simp
    | some p' =>
      dsimp only
      have hfirst : ∀ a : Action, a = wanted p' x → ((a = .keep → ¬ Inner x) ∧
          (a = .drop → ∃ property', p' = .entry (some service) (some property'))) →
          ∀ y ∈ (shown storeRef appRef x a ++ wantedLines storeRef appRef p' xs).head?, ¬ Inner y := by
        rintro a - ⟨hkeep, hdrop⟩ y hy
        cases a with
        | keep =>
          have hyx : x = y := by simpa [shown] using hy
          exact hyx ▸ hkeep rfl
        | drop =>
          obtain ⟨property', hp'⟩ := hdrop rfl
          exact ih hp' y (by simpa [shown] using hy)
        | pin service' =>
          have hyx : pinned storeRef appRef service' = y := by simpa [shown] using hy
          exact hyx ▸ pinned_not_inner
      refine hfirst _ rfl ?_
      cases read_cases hplace with
      | comment hcomment =>
        refine ⟨fun _ hinner => ?_, fun _ => ⟨property, hp⟩⟩
        rw [hinner.1] at hcomment
        cases hcomment
      | begins _ _ h0 _ =>
        refine ⟨fun _ hinner => ?_, nofun⟩
        rcases hinner.2 with ⟨h4, -⟩ | h4 <;> omega
      | ends _ h0 _ _ =>
        refine ⟨fun _ hinner => ?_, nofun⟩
        rcases hinner.2 with ⟨h4, -⟩ | h4 <;> omega
      | outside hp' _ _ =>
        rw [hp] at hp'
        cases hp'
      | service _ _ h2 _ =>
        refine ⟨fun _ hinner => ?_, nofun⟩
        rcases hinner.2 with ⟨h4, -⟩ | h4 <;> omega
      | @key t name after hp' hreal h4 hkey =>
        have ht : t = some service := by
          rcases hp' with hp' | ⟨q, hp'⟩
          · rw [hp] at hp'
            cases hp'
          · rw [hp] at hp'
            cases hp'
            rfl
        subst ht
        have hentry : entryOf x = propertyOf name := by rw [entryOf_key hkey, if_pos h4]
        cases hproperty : propertyOf name with
        | none =>
          refine ⟨fun _ hinner => ?_, fun h => ?_⟩
          · rcases hinner.2 with ⟨-, hnone | ⟨q, hq, -⟩⟩ | hdeep
            · rw [hnone] at hkey
              cases hkey
            · rw [hq, hproperty] at hentry
              cases hentry
            · omega
          · rw [wanted_keep (.inr rfl)] at h
            cases h
        | some q =>
          refine ⟨fun h => ?_, fun _ => ⟨q, rfl⟩⟩
          unfold wanted at h
          simp only [hreal, Bool.false_eq_true, if_false] at h
          split at h <;> cases h
      | item hp' hreal h4 hkey hdash =>
        rw [hp] at hp'
        cases hp'
        refine ⟨fun h => ?_, fun _ => ⟨property, rfl⟩⟩
        unfold wanted at h
        simp only [hreal, Bool.false_eq_true, if_false] at h
        split at h <;> cases h
      | deep hp' hreal h4 =>
        rw [hp] at hp'
        cases hp'
        refine ⟨fun h => ?_, fun _ => ⟨property, rfl⟩⟩
        unfold wanted at h
        simp only [hreal, Bool.false_eq_true, if_false] at h
        split at h <;> cases h

/-! ### Known services -/

/-- The service a place names is one of the pinned. -/
def Place.Known : Place → Prop
  | .service (some s) | .entry (some s) _ => s ∈ targetServices
  | _ => True

theorem serviceOf_known (name : Bytes) : (Place.service (serviceOf name)).Known := by
  cases h : serviceOf name with
  | none => trivial
  | some service => exact List.mem_of_find?_eq_some h

theorem Place.Known.read (h : p.Known) (hread : read p x = some p') : p'.Known := by
  cases read_cases hread with
  | comment _ => exact h
  | begins _ _ _ _ => trivial
  | ends _ _ _ _ => trivial
  | outside _ _ _ => trivial
  | service _ _ _ _ => exact serviceOf_known _
  | @key t name after hp _ _ _ =>
    cases t with
    | none => trivial
    | some service =>
      rcases hp with rfl | ⟨q, rfl⟩
      · exact h
      · exact h
  | item hp _ _ _ _ =>
    subst hp
    exact h
  | deep hp _ _ =>
    subst hp
    exact h

theorem target_known {service : String} (h : c.target = some service) : service ∈ targetServices := by
  have hmem := (Option.filter_eq_some_iff.1 h).2
  simpa using hmem

theorem head_end {tail : Bytes} (h : tail.takeWhile (fun b => !isEnd b) = []) : ∀ b ∈ tail.head?, isEnd b = true := by
  cases tail with
  | nil => simp
  | cons b tail =>
    by_cases hb : isEnd b = true
    · simpa using hb
    · rw [List.takeWhile_cons_of_pos (by simpa using hb)] at h
      cases h

/-- A bare return is lost. -/
theorem lineEnding_return {last : Prop} (h : LineOf line e x last) (hreturn : line.getLast? = some 13) :
    lineEnding line = [] := by
  rw [lineEnding_eq h]
  rcases h.ended with rfl | rfl | rfl | ⟨rfl, -⟩
  · rw [h.eq, List.getLast?_append] at hreturn
    simp at hreturn
  · rw [if_pos rfl]
  · rw [h.eq, List.getLast?_append] at hreturn
    simp at hreturn
  · simp

/-- **What is written for a line shows what was done to it**, where the references are fresh. -/
theorem action_of_contents {n : Nat} (hfresh : Fresh (n + 1) storeRef appRef) (hshort : line.length ≤ n)
    (hagrees : Agrees c p) (hknown : p'.Known) (hblank : strip x ≠ []) (hread : read p x = some p')
    (hline : LineOf line e x (rest = [])) (hshaped : Shaped rest)
    (heq : contents ((chunk storeRef appRef line (c.action x)).flatten ++ (chunks storeRef appRef (c.next x) rest).flatten) =
      shown storeRef appRef x (wanted p' x) ++ wantedLines storeRef appRef p' (bodies rest)) :
    c.action x = wanted p' x := by
  obtain ⟨hstore, happ⟩ := hfresh.oneLine
  have hlen : x.length ≤ n := by
    have hle := congrArg List.length hline.eq
    rw [List.length_append] at hle
    omega
  have hkept : ∀ {w : List Bytes}, contents ((chunk storeRef appRef line .keep).flatten ++
      (chunks storeRef appRef (c.next x) rest).flatten) = w → w.head? = some x := by
    rintro w rfl
    rw [chunk, List.flatten_cons, List.flatten_nil, List.append_nil, contents_kept hline chunks_nil, if_neg hblank]
    rfl
  have hpinned : ∀ {w : List Bytes} {service : String}, contents ((chunk storeRef appRef line (.pin service)).flatten ++
      (chunks storeRef appRef (c.next x) rest).flatten) = w → ∃ z, w.head? = some (pinned storeRef appRef service ++ z) := by
    rintro w service rfl
    rw [chunk, List.flatten_cons, List.flatten_nil, List.append_nil, List.append_assoc]
    obtain ⟨ws, hws⟩ := contents_run (pinned_plain hstore happ) (@pinned_not_blank storeRef appRef service)
    exact ⟨_, congrArg List.head? hws⟩
  cases line_cases hagrees hblank hread with
  | same haction _ => exact haction
  | image t hp hentry haction hwanted _ =>
    rw [haction, hwanted] at heq ⊢
    subst hp
    cases hc : c.target with
    | none =>
      cases t with
      | none => rfl
      | some service =>
        rw [hc] at heq
        have hhead : some (pinned storeRef appRef service) = some x := hkept heq
        have hlong := hfresh.length_pinned hknown
        rw [Option.some.inj hhead] at hlong
        omega
    | some service =>
      rw [hc] at heq
      have hlong := hfresh.length_pinned (target_known hc)
      obtain ⟨z, hhead⟩ := hpinned heq
      cases t with
      | none =>
        have hx : x = pinned storeRef appRef service ++ z := Option.some.inj hhead
        rw [hx, List.length_append] at hlen
        omega
      | some service' =>
        have hsame : pinned storeRef appRef service' = pinned storeRef appRef service ++ z := Option.some.inj hhead
        rw [(hfresh.pinned_inj (target_known hc) hknown hsame.symm).1]
  | other t property hp hne hfree hentry haction hwanted _ =>
    rw [haction, hwanted] at heq ⊢
    subst hp
    cases hc : c.target with
    | none =>
      cases t with
      | none => rfl
      | some service =>
        rw [hc] at heq
        have hinner : Inner x := ⟨not_comment hentry, .inl ⟨entryOf_at hentry, .inr ⟨property, hentry, hne⟩⟩⟩
        exact absurd hinner (wanted_head rfl x (hkept heq))
    | some service =>
      cases t with
      | some service' => rfl
      | none =>
        rw [hc] at heq
        obtain ⟨hservices, htarget⟩ := next_entry hfree hentry
        have hin : c.inServices = true := hagrees.known (by
          rw [Control.target, Option.filter_eq_some_iff] at hc
          rw [hc.1, Option.isSome_some])
        have hhead : (contents (chunks storeRef appRef (c.next x) rest).flatten).head? = some x := by
          rw [otherAction, chunk, List.flatten_nil, List.nil_append] at heq
          rw [heq]
          rfl
        exact absurd (scan_head hstore happ hshaped (hservices.trans hin) (by rw [htarget, hc, Option.isSome_some]) x hhead
          property hentry) hne
  | tail service property hp hreal hindent haction hwanted _ =>
    rw [haction, hwanted] at heq
    have hinner : Inner x := ⟨hreal, hindent.imp_left fun h => ⟨h.1, .inl h.2⟩⟩
    exact absurd hinner (wanted_head hp x (hkept heq))

/-- **Lines that come out as they are wanted are clear.** -/
theorem clear_of_contents {n : Nat} (hfresh : Fresh (n + 1) storeRef appRef) (hbound : ∀ line ∈ ls, line.length ≤ n)
    (hagrees : Agrees c p) (hknown : p.Known) (hshaped : Shaped ls) (hread : wellRead p (bodies ls) = true)
    (heq : contents (chunks storeRef appRef c ls).flatten = wantedLines storeRef appRef p (bodies ls)) :
    clear c p ls = true := by
  obtain ⟨hstore, happ⟩ := hfresh.oneLine
  induction ls generalizing c p with
  | nil => rfl
  | cons line rest ih =>
    obtain ⟨⟨e, x, hline⟩, hrest⟩ := hshaped
    obtain ⟨hshort, hbound⟩ := List.forall_mem_cons.1 hbound
    obtain ⟨hnext, haction, -⟩ := control_body (c := c) hline.strip_eq hline.indentation_eq
    rw [chunks, List.flatten_append, hnext, haction] at heq
    rw [bodies_cons hline] at hread heq
    by_cases hblank : strip x = []
    · obtain ⟨hsame, hdoes⟩ := next_blank (c := c) hblank
      rw [if_pos hblank, List.nil_append] at hread heq
      rw [clear, if_pos (by rw [hline.strip_eq, hblank]), hnext, hsame]
      rw [hsame] at heq
      refine ih hbound hagrees hknown hrest hread ?_
      rw [← heq]
      rcases hdoes with hdoes | hdoes
      · rw [hdoes, chunk, List.flatten_cons, List.flatten_nil, List.append_nil, contents_kept hline chunks_nil, if_pos hblank,
          List.nil_append]
      · rw [hdoes, chunk, List.flatten_nil, List.nil_append]
    · rw [if_neg hblank, List.singleton_append, wellRead] at hread
      rw [if_neg hblank, List.singleton_append, wantedLines] at heq
      rw [clear, if_neg (by rw [hline.strip_eq]; exact hblank), hline.body_eq]
      cases hplace : read p x with
      | none => rfl
      | some p' =>
        rw [hplace] at hread heq
        dsimp only at hread heq ⊢
        have hdoes := action_of_contents hfresh (by omega) hagrees (hknown.read hplace) hblank hplace hline hrest heq
        have hat := (line_cases hagrees hblank hplace).clear_iff.2 hdoes
        have hrec := fun h => ih hbound (hagrees.next hblank hplace hdoes) (hknown.read hplace) hrest hread h
        rw [hdoes] at heq
        rw [hat, hnext, Bool.true_and, Bool.and_eq_true, endsWell, hline.body_eq]
        cases hwanted : wanted p' x with
        | keep =>
          rw [hwanted, chunk, List.flatten_cons, List.flatten_nil, List.append_nil, contents_kept hline chunks_nil,
            if_neg hblank] at heq
          exact ⟨rfl, hrec (List.append_cancel_left heq)⟩
        | drop =>
          rw [hwanted, chunk, List.flatten_nil, List.nil_append] at heq
          exact ⟨rfl, hrec heq⟩
        | pin service =>
          rw [hwanted, chunk, List.flatten_cons, List.flatten_nil, List.append_nil] at heq
          have hfollow : line.getLast? = some 13 →
              ∀ b ∈ (chunks storeRef appRef (c.next x) rest).flatten.head?, isEnd b = true := by
            intro hreturn
            have hnone : lineEnding line = [] := lineEnding_return hline hreturn
            change contents (pinned storeRef appRef service ++ lineEnding line ++ _) = _ at heq
            rw [hnone, List.append_nil] at heq
            obtain ⟨ws, hws⟩ := contents_run (pinned_plain hstore happ) (@pinned_not_blank storeRef appRef service)
            rw [hws] at heq
            have hhead := (List.cons.inj heq).1
            exact head_end (by simpa using hhead)
          change contents (pinned storeRef appRef service ++ lineEnding line ++ _) = _ at heq
          rw [contents_pinned hstore happ hline chunks_nil hfollow] at heq
          have hempty : line.getLast? = some 13 → nextEmpty (c.next x) rest = true := fun hreturn =>
            (nextEmpty_iff hrest).2 (hfollow hreturn)
          refine ⟨?_, hrec (List.cons.inj heq).2⟩
          rw [hnext]
          by_cases hreturn : line.getLast? = some 13
          · simp [hempty hreturn]
          · simp [hreturn]

/-! ## The transform -/

theorem raises_iff (storeRef appRef : String) {compose : Bytes} (h : IsText compose) :
    (∃ e, transformCompose compose storeRef appRef = .error e) ↔ ¬ AllSix (credits start (lines compose)) := by
  rcases transformCompose_eq storeRef appRef (decodes_lines h) with ⟨hall, hok⟩ | ⟨hnot, _, herror⟩
  · simp [hok, hall]
  · simp [herror, hnot]

theorem returns_of_seen (storeRef appRef : String) {compose : Bytes} (h : IsText compose)
    (hall : AllSix (credits start (lines compose))) :
    transformCompose compose storeRef appRef = .ok (chunks storeRef appRef start (lines compose)).flatten := by
  rcases transformCompose_eq storeRef appRef (decodes_lines h) with ⟨-, hok⟩ | ⟨hnot, -⟩
  · exact hok
  · exact absurd hall hnot

theorem readsRight_of_meets {compose : Bytes} (h : WellFormed compose) (hmeets : Meets compose) : ReadsRight compose := by
  have hbound : ∀ line ∈ lines compose, line.length ≤ compose.length := by
    intro line hline
    have hsub := (List.sublist_flatten_of_mem hline).length_le
    rwa [lines_flatten] at hsub
  obtain ⟨storeRef, appRef, hfresh⟩ := exists_fresh (compose.length + 1)
  obtain ⟨hraises, hreturns⟩ := hmeets storeRef appRef hfresh.oneLine.1 hfresh.oneLine.2
  rw [raises_iff storeRef appRef h.text] at hraises
  have hfound : Complete compose → AllSix (credits start (lines compose)) := by
    intro hcomplete
    by_contra hnot
    exact hraises.1 hnot hcomplete
  refine ⟨hraises.2, hfound, fun hcomplete => ?_⟩
  have hout := hreturns _ (returns_of_seen storeRef appRef h.text (hfound hcomplete))
  have hread := h.read
  rw [contents_eq compose] at hout hread
  exact clear_of_contents hfresh hbound .start trivial (shaped_lines compose) hread hout

theorem meets_of_readsRight {compose : Bytes} (h : WellFormed compose) (hright : ReadsRight compose) : Meets compose := by
  intro storeRef appRef hstore happ
  refine ⟨(raises_iff storeRef appRef h.text).trans ⟨fun hnot hcomplete => hnot (hright.found hcomplete), hright.lacking⟩, ?_⟩
  intro out hok
  have hall : AllSix (credits start (lines compose)) := by
    by_contra hnot
    obtain ⟨e, herror⟩ := (raises_iff storeRef appRef h.text).2 hnot
    rw [hok] at herror
    cases herror
  have hcomplete : Complete compose := by
    by_contra hnot
    exact hright.lacking hnot hall
  have hread := h.read
  rw [returns_of_seen storeRef appRef h.text hall] at hok
  cases hok
  rw [contents_eq compose] at hread ⊢
  exact contents_chunks hstore happ .start (shaped_lines compose) hread (hright.clear hcomplete)

/-- **The transform does what a release asks of it on the texts that it reads right, and on no others.** -/
theorem transform_meets_iff (compose : Bytes) (h : WellFormed compose) : Meets compose ↔ ReadsRight compose :=
  ⟨readsRight_of_meets h, meets_of_readsRight h⟩

/-! ## Two texts -/

/-- A comment and a blank line in a build block, and a comment at its end. -/
def sampleCompose : Bytes :=
  ["services:\n", "  panella:\n", "    image: s\n", "    pull_policy: build\n", "    build:\n", "      # here\n", "\n",
    "      context: .\n", "  panella-http:\n", "    image: a # local\n", "    pull_policy: build\n", "    build: .\n",
    "# data\n", "volumes:\n", "  data:\n"].flatMap ascii

/-- The condition is met, so the sample is pinned as it should be. -/
theorem transform_meets_sample : Meets sampleCompose :=
  (transform_meets_iff sampleCompose ⟨isText_of_ascii (by decide +kernel), by decide +kernel⟩).2
    ⟨by decide +kernel, by decide +kernel, by decide +kernel⟩

/-- The key of the last service carries a comment. -/
def commentedKey : Bytes :=
  ["services:\n", "  panella:\n", "    image: s\n", "    pull_policy: build\n", "    build: .\n", "  panella-http:\n",
    "    image: a\n", "    pull_policy: build\n", "    build: .\n", "  redis: # cache\n", "    image: redis:7\n"].flatMap ascii

/-- What becomes of it. -/
def commentedResult : Bytes :=
  ["services:\n", "  panella:\n", "    image: s1\n", "  panella-http:\n", "    image: a1\n", "  redis: # cache\n",
    "    image: a1\n"].flatMap ascii

/-- **The comment is enough for the service to be given the image of the one above it.** -/
theorem commented_key_takes_image : WellFormed commentedKey ∧ Complete commentedKey ∧
    transformCompose commentedKey "s1" "a1" = .ok commentedResult ∧ ¬ Meets commentedKey := by
  have hresult : transformCompose commentedKey "s1" "a1" = .ok commentedResult := by decide +kernel
  refine ⟨⟨isText_of_ascii (by decide +kernel), by decide +kernel⟩, by decide +kernel, hresult, fun hmeets => ?_⟩
  have hone : ∀ ref ∈ ["s1", "a1"], ∀ b ∈ Sha256.utf8 ref, isEnd b = false := by decide +kernel
  have hwanted := (hmeets "s1" "a1" (hone "s1" (by simp)) (hone "a1" (by simp))).2 _ hresult
  revert hwanted
  decide +kernel

end Panella.PinCompose
