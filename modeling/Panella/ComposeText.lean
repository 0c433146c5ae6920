import Mathlib.Data.List.SplitOn
import Panella.PinCompose

/-!
# What a compose text says, and what a release wants of it

The non-blank lines of a text (`contents`) are read as YAML has them: a comment says nothing; services are the keys at indent 2
under a top-level `services:` key, properties the keys at indent 4, and what is deeper, or an item of a sequence, goes with the
property above it (`read`). `wanted` is what becomes of a line that stands in such a place.
-/

namespace Panella.PinCompose

open EnvFile Utf8Cut Lines

/-! ## Lines and their ends -/

def isEnd (b : UInt8) : Bool := b == 10 || b == 13

/-- A line without its end. -/
def body (line : Bytes) : Bytes := line.takeWhile fun b => !isEnd b

/-- The lines that are not blank, without their ends. -/
def contents (text : Bytes) : List Bytes := (text.splitOnP isEnd).filter fun x => strip x ≠ []

/-- The same, of a list of lines. -/
def bodies (ls : List Bytes) : List Bytes := (ls.map body).filter fun x => strip x ≠ []

/-- `line` is `x` with its end; only the last may have none. -/
structure LineOf (line e x : Bytes) (last : Prop) : Prop where
  eq : line = x ++ e
  plain : ∀ b ∈ x, isEnd b = false
  ended : e = [10] ∨ e = [13] ∨ e = [13, 10] ∨ e = [] ∧ last

/-- Lines as `splitlines` leaves them. -/
def Shaped : List Bytes → Prop
  | [] => True
  | line :: rest => (∃ e x, LineOf line e x (rest = [])) ∧ Shaped rest

theorem shaped_lines (text : Bytes) : Shaped (lines text) := by
  unfold lines
  induction text with
  | nil => trivial
  | cons b rest ih =>
    by_cases hb : b = 10 ∨ b = 13 ∧ rest.head? ≠ some 10
    · rw [splitlines_end hb]
      refine ⟨⟨[b], [], rfl, by simp, ?_⟩, ih⟩
      rcases hb with rfl | ⟨rfl, -⟩
      · exact .inl rfl
      · exact .inr (.inl rfl)
    · cases hrest : splitlines 10 13 rest with
      | nil =>
        have hnil : rest = [] := by
          by_contra hne
          exact splitlines_ne_nil hne hrest
        subst hnil
        have hplain : isEnd b = false := by simpa [isEnd, not_or] using hb
        rw [splitlines, if_neg hb, hrest]
        exact ⟨⟨[], [b], rfl, by simp [hplain], .inr (.inr (.inr ⟨rfl, rfl⟩))⟩, trivial⟩
      | cons line ls =>
        rw [splitlines_cons hb hrest]
        rw [hrest] at ih
        obtain ⟨⟨e, x, hline⟩, hls⟩ := ih
        refine ⟨?_, hls⟩
        by_cases hreturn : b = 13
        · -- a return before a line feed: the line feed alone is the line
          subst hreturn
          have hhead : rest.head? = some 10 := by
            by_contra hne
            exact hb (.inr ⟨rfl, hne⟩)
          obtain ⟨r, rfl⟩ : ∃ r, rest = 10 :: r := by
            cases rest with
            | nil => simp at hhead
            | cons c r => exact ⟨r, by simpa using hhead⟩
          rw [splitlines_end (.inl rfl)] at hrest
          obtain ⟨rfl, -⟩ := List.cons.inj hrest
          exact ⟨[13, 10], [], rfl, by simp, .inr (.inr (.inl rfl))⟩
        · have hfeed : b ≠ 10 := fun h => hb (.inl h)
          refine ⟨e, b :: x, by rw [hline.eq, List.cons_append], ?_, hline.ended⟩
          intro b' hb'
          rcases List.mem_cons.1 hb' with rfl | hb'
          · simp [isEnd, hreturn, hfeed]
          · exact hline.plain b' hb'

namespace LineOf

variable {line e x tail : Bytes} {last : Prop}

theorem ends (h : LineOf line e x last) : ∀ b ∈ e, isEnd b = true := by
  rcases h.ended with rfl | rfl | rfl | ⟨rfl, -⟩ <;> simp [isEnd]

theorem body_eq (h : LineOf line e x last) : body line = x := by
  have hhead : e.takeWhile (fun b => !isEnd b) = [] := by
    rcases h.ended with rfl | rfl | rfl | ⟨rfl, -⟩ <;> rfl
  rw [body, h.eq, List.takeWhile_append_of_pos (fun b hb => by simp [h.plain b hb]), hhead, List.append_nil]

theorem spaces (h : LineOf line e x last) : ∀ b ∈ e, isSpace b = true := by
  rcases h.ended with rfl | rfl | rfl | ⟨rfl, -⟩ <;> simp [isSpace]

end LineOf

theorem rdropWhile_append_of_all {p : UInt8 → Bool} {x e : Bytes} (h : ∀ b ∈ e, p b = true) :
    (x ++ e).rdropWhile p = x.rdropWhile p := by
  rw [List.rdropWhile, List.rdropWhile, List.reverse_append,
    List.dropWhile_append_of_pos (fun b hb => h b (List.mem_reverse.1 hb))]

theorem strip_append {x e : Bytes} (h : ∀ b ∈ e, isSpace b = true) : strip (x ++ e) = strip x := by
  unfold strip
  rw [List.dropWhile_append]
  split
  · next hempty =>
    rw [List.isEmpty_iff] at hempty
    rw [hempty, List.dropWhile_eq_nil_iff.2 h]
  · exact rdropWhile_append_of_all h

theorem LineOf.strip_eq {line e x : Bytes} {last : Prop} (h : LineOf line e x last) : strip line = strip x := by
  rw [h.eq, strip_append h.spaces]

theorem LineOf.indentation_eq {line e x : Bytes} {last : Prop} (h : LineOf line e x last) :
    indentation line = indentation x := by
  have hcut : ∀ l : Bytes, indentation l = (l.takeWhile (· = 32)).length := by
    intro l
    have hlen := congrArg List.length (List.takeWhile_append_dropWhile (p := (· = 32)) (l := l))
    rw [List.length_append] at hlen
    unfold indentation
    omega
  have hnone : e.takeWhile (· = 32) = [] := by
    rcases h.ended with rfl | rfl | rfl | ⟨rfl, -⟩ <;> rfl
  rw [hcut, hcut, h.eq, List.takeWhile_append]
  split
  · next hall => rw [hnone, List.append_nil, ← hall]
  · rfl

theorem contents_nil : contents [] = [] := rfl

theorem contents_append {x tail : Bytes} {b : UInt8} (hb : isEnd b = true) :
    contents (x ++ b :: tail) = contents x ++ contents tail := by
  unfold contents
  rw [List.splitOnP_append_cons x tail hb, List.filter_append]

theorem contents_plain {x : Bytes} (h : ∀ b ∈ x, isEnd b = false) : contents x = if strip x = [] then [] else [x] := by
  unfold contents
  rw [List.splitOnP_eq_singleton h, List.filter_singleton]
  by_cases hblank : strip x = [] <;> simp [hblank]

/-- A line that is ended, or is the last, is a line of the text. -/
theorem contents_line {x e tail : Bytes} (hx : ∀ b ∈ x, isEnd b = false) (he : ∀ b ∈ e, isEnd b = true)
    (hlast : e = [] → ∀ b ∈ tail.head?, isEnd b = true) :
    contents (x ++ e ++ tail) = (if strip x = [] then [] else [x]) ++ contents tail := by
  have hends : ∀ e tail : Bytes, (∀ b ∈ e, isEnd b = true) → contents (e ++ tail) = contents tail := by
    intro e tail
    induction e with
    | nil => exact fun _ => rfl
    | cons b e ih =>
      intro he
      obtain ⟨hb, he⟩ := List.forall_mem_cons.1 he
      have hcut : contents ([] ++ b :: (e ++ tail)) = contents [] ++ contents (e ++ tail) := contents_append hb
      rw [List.nil_append, contents_nil, List.nil_append, ih he] at hcut
      exact hcut
  rw [← contents_plain hx, List.append_assoc]
  cases e with
  | nil =>
    cases tail with
    | nil => simp [contents_nil]
    | cons b tail =>
      have hb := hlast rfl b rfl
      have hskip : contents (b :: tail) = contents tail := hends [b] tail (by simp [hb])
      rw [List.nil_append, contents_append hb, hskip]
  | cons b e =>
    obtain ⟨hb, he⟩ := List.forall_mem_cons.1 he
    rw [List.cons_append, contents_append hb, hends e tail he]

theorem bodies_cons {line e x : Bytes} {last : Prop} {rest : List Bytes} (h : LineOf line e x last) :
    bodies (line :: rest) = (if strip x = [] then [] else [x]) ++ bodies rest := by
  unfold bodies
  rw [List.map_cons, h.body_eq, List.filter_cons]
  by_cases hblank : strip x = [] <;> simp [hblank]

theorem contents_flatten {ls : List Bytes} (h : Shaped ls) : contents ls.flatten = bodies ls := by
  induction ls with
  | nil => rfl
  | cons line rest ih =>
    obtain ⟨⟨e, x, hline⟩, hrest⟩ := h
    have hlast : e = [] → ∀ b ∈ rest.flatten.head?, isEnd b = true := by
      rintro rfl
      rcases hline.ended with he | he | he | ⟨-, rfl⟩
      · cases he
      · cases he
      · cases he
      · simp
    rw [bodies_cons hline, List.flatten_cons, hline.eq, contents_line hline.plain hline.ends hlast, ih hrest]

theorem contents_eq (text : Bytes) : contents text = bodies (lines text) := by
  rw [← contents_flatten (shaped_lines text), lines_flatten]

/-! ## Names in a text -/

theorem ascii_of_isSpace {b : UInt8} (h : isSpace b = true) : b < 128 := by
  simp only [isSpace, Bool.or_eq_true, Bool.and_eq_true, beq_iff_eq, decide_eq_true_eq] at h
  rcases h with rfl | ⟨-, hle⟩
  · decide
  · exact UInt8.lt_of_le_of_lt hle (by decide)

theorem strip_decomp (x : Bytes) : ∃ before after, x = before ++ strip x ++ after ∧ ∀ b ∈ before, isSpace b = true := by
  refine ⟨x.takeWhile isSpace, (x.dropWhile isSpace).rtakeWhile isSpace, ?_, fun b hb => List.mem_takeWhile_imp hb⟩
  rw [List.append_assoc, strip, List.rdropWhile_append_rtakeWhile, List.takeWhile_append_dropWhile]

/-- A line of a text is one. -/
theorem isText_lines {ls : List Bytes} (hshaped : Shaped ls) (h : IsText ls.flatten) : ∀ line ∈ ls, IsText line := by
  induction ls with
  | nil => simp
  | cons line rest ih =>
    obtain ⟨⟨e, x, hline⟩, hrest⟩ := hshaped
    rw [List.flatten_cons] at h
    have hparts : IsText line ∧ IsText rest.flatten := by
      rw [hline.eq] at h ⊢
      rcases hline.ended with rfl | rfl | rfl | ⟨rfl, rfl⟩
      · rw [List.append_assoc] at h
        exact ⟨(h.split (by decide)).1.append (isText_ascii (by decide)), (h.split (by decide)).2⟩
      · rw [List.append_assoc] at h
        exact ⟨(h.split (by decide)).1.append (isText_ascii (by decide)), (h.split (by decide)).2⟩
      · rw [List.append_assoc] at h
        have hfeed : IsText ([13] ++ [10]) := (isText_ascii (by decide)).append (isText_ascii (by decide))
        exact ⟨(h.split (by decide)).1.append hfeed, (h.split (by decide)).2.of_append (by simp)⟩
      · rw [List.flatten_nil, List.append_nil] at h
        exact ⟨h, isText_nil⟩
    exact List.forall_mem_cons.2 ⟨hparts.1, ih hrest hparts.2⟩

/-- **In a text every name can be decoded.** -/
theorem decodes_lines {compose : Bytes} (h : IsText compose) : ∀ line ∈ lines compose, Decodes line := by
  rintro line hline ⟨name, hname⟩
  have htext : IsText line := by
    refine isText_lines (shaped_lines compose) ?_ line hline
    rwa [lines_flatten]
  obtain ⟨before, after, hparts, hbefore⟩ := strip_decomp line
  rw [← hname, List.append_assoc, List.append_assoc, ← List.append_assoc, List.singleton_append] at hparts
  rw [hparts] at htext
  rw [← hname, List.dropLast_concat]
  exact decode_text ((htext.split (by decide)).1.of_append fun b hb => ascii_of_isSpace (hbefore b hb))

/-! ## What a line says -/

def isComment (x : Bytes) : Bool := [35] <+: strip x

/-- What a key is written with: no blank, no `:`, no `#` and no quote. -/
def nameByte (b : UInt8) : Bool := !isSpace b && b != 58 && b != 35 && b != 34 && b != 39

/-- The key a line starts with, and what stands behind its `:`. -/
def keyOf (x : Bytes) : Option (Bytes × Bytes) :=
  let rest := x.dropWhile (· = 32)
  match rest.takeWhile nameByte, rest.dropWhile nameByte with
  | b :: name, 58 :: after => if after.head?.all isSpace then some (b :: name, after) else none
  | _, _ => none

/-- Nothing but blanks, or a comment, stands behind a key. -/
def bare (after : Bytes) : Bool := strip after = [] || [35] <+: strip after

/-- The pinned service of that name. -/
def serviceOf (name : Bytes) : Option String := targetServices.find? fun service => ascii service = name

/-- The key of that name, of those a pinned service has to have. -/
def propertyOf (name : Bytes) : Option String := expectedProperties.find? fun property => ascii property = name

/-- Where a line stands. Of services and properties only those the release pins are told apart. -/
inductive Place
  /-- Outside the services, before or behind them. -/
  | top (begun : Bool)
  | services
  | service (target : Option String)
  | entry (target property : Option String)
deriving DecidableEq, Repr

def Place.begun : Place → Bool
  | .top begun => begun
  | _ => true

/-- The key of a service, with nothing behind it. -/
def readService (x : Bytes) : Option Place :=
  match keyOf x with
  | some (name, after) => if bare after then some (.service (serviceOf name)) else none
  | none => none

/-- Where a line stands that follows one in place `p`; `none` where the text is not of the kind described above. -/
def read (p : Place) (x : Bytes) : Option Place :=
  if isComment x then some p
  else if indentation x = 0 then
    if x.head?.any isSpace then none
    else
      match keyOf x with
      | some (name, after) =>
        if name = ascii "services" then (if bare after && !p.begun then some .services else none) else some (.top p.begun)
      | none => some (.top p.begun)
  else
    match p with
    | .top begun => some (.top begun)
    | .services => if indentation x = 2 then readService x else none
    | .service target =>
      if indentation x = 2 then readService x
      else if indentation x = 4 then (keyOf x).map fun key => .entry target (propertyOf key.1)
      else none
    | .entry target property =>
      if indentation x = 2 then readService x
      else if indentation x = 4 then
        match keyOf x with
        | some key => some (.entry target (propertyOf key.1))
        | none => if [45] <+: strip x then some (.entry target property) else none
      else if 4 < indentation x then some (.entry target property)
      else none

def isKey (x : Bytes) : Bool := indentation x = 4 && (keyOf x).isSome

/-- What becomes of a line that stands in a place: an image is pinned, the rest of the three goes with all that belongs to it. -/
def wanted (p : Place) (x : Bytes) : Action :=
  match p with
  | .entry (some service) (some property) =>
    if isComment x then (if property = "build" ∧ 4 < indentation x then .drop else .keep)
    else if property = "image" ∧ isKey x then .pin service
    else .drop
  | _ => .keep

/-- `image: <ref>`, as it is pinned. -/
def pinned (storeRef appRef service : String) : Bytes :=
  List.replicate 4 32 ++ ascii "image: " ++ (refOf storeRef appRef service).getD []

def shown (storeRef appRef : String) (x : Bytes) : Action → List Bytes
  | .keep => [x]
  | .drop => []
  | .pin service => [pinned storeRef appRef service]

/-- The text is read to its end. -/
def wellRead : Place → List Bytes → Bool
  | _, [] => true
  | p, x :: xs =>
    match read p x with
    | none => false
    | some p' => wellRead p' xs

/-- The lines a release has of those from here on. -/
def wantedLines (storeRef appRef : String) : Place → List Bytes → List Bytes
  | _, [] => []
  | p, x :: xs =>
    match read p x with
    | none => []
    | some p' => shown storeRef appRef x (wanted p' x) ++ wantedLines storeRef appRef p' xs

/-- The key of a pinned service that a line in a place is. -/
def givenKey (p : Place) (x : Bytes) : Option (String × String) :=
  match p with
  | .entry (some service) (some property) => if isKey x then some (service, property) else none
  | _ => none

/-- The keys of the pinned services from here on. -/
def given : Place → List Bytes → List (String × String)
  | _, [] => []
  | p, x :: xs =>
    match read p x with
    | none => []
    | some p' => (givenKey p' x).toList ++ given p' xs

/-- A compose text: services are the keys at indent 2 under one `services:` key, their properties the keys at indent 4. -/
structure WellFormed (compose : Bytes) : Prop where
  text : IsText compose
  read : wellRead (.top false) (contents compose) = true

/-- Both services have an image, a pull policy and a build. -/
def Complete (compose : Bytes) : Prop := AllSix (given (.top false) (contents compose))

instance (compose : Bytes) : Decidable (Complete compose) := inferInstanceAs (Decidable (AllSix _))

/-- A reference is on one line. -/
def OneLine (ref : String) : Prop := ∀ b ∈ Sha256.utf8 ref, isEnd b = false

/-- **What a release asks of the transform**, whatever the references are: it fails where a key is missing and nowhere else, and
what it returns has the lines of the text in their order, the images pinned, the pull policies and build blocks gone. -/
def Meets (compose : Bytes) : Prop :=
  ∀ storeRef appRef : String, OneLine storeRef → OneLine appRef →
    ((∃ e, transformCompose compose storeRef appRef = .error e) ↔ ¬ Complete compose) ∧
      ∀ out, transformCompose compose storeRef appRef = .ok out →
        contents out = wantedLines storeRef appRef (.top false) (contents compose)

end Panella.PinCompose
