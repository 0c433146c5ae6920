import Mathlib.Data.String.Basic
import Mathlib.Data.List.Sort
import Mathlib.Data.List.TakeWhile

/-!
# JSON as Python's `json` module writes and reads it

| here | there |
| --- | --- |
| `Json` | the Python values `json` knows; a `dict` is its items in insertion order |
| `encode`, `dumps` | `json.dumps(v, ensure_ascii=False, sort_keys=True, separators=…)`, C encoder |
| `scanNumber`, `scanStr`, `parseValue`, `loads` | `json.loads(s)`, C scanner (`scan_once`) |

A float is kept as the literal `float.__repr__` writes: writing it and reading it back gives the
same float, which is all that is used of it. A string of the model is a sequence of Unicode scalar
values: `loads` reports a lone surrogate escape where it stands, with the `ValueError` that Python
raises when such a string is encoded.
-/

namespace PyJson

/-! ## Number literals -/

/-- `'.' digits+`, or nothing. -/
def scanFrac : List Char → List Char × List Char
  | '.' :: cs =>
    match cs.takeWhile Char.isDigit with
    | [] => ([], '.' :: cs)
    | d :: ds => ('.' :: d :: ds, cs.dropWhile Char.isDigit)
  | cs => ([], cs)

/-- An optional sign before the digits of an exponent. -/
def scanSign : List Char → List Char × List Char
  | '+' :: cs => (['+'], cs)
  | '-' :: cs => (['-'], cs)
  | cs => ([], cs)

/-- `('e'|'E') sign? digits+`, or nothing. -/
def scanExp : List Char → List Char × List Char
  | c :: cs =>
    if c = 'e' ∨ c = 'E' then
      match (scanSign cs).2.takeWhile Char.isDigit with
      | [] => ([], c :: cs)
      | d :: ds => (c :: (scanSign cs).1 ++ d :: ds, (scanSign cs).2.dropWhile Char.isDigit)
    else ([], c :: cs)
  | [] => ([], [])

/-- `'0'` or a digit run that does not start with `'0'`. -/
def scanWhole : List Char → Option (List Char × List Char)
  | '0' :: cs => some (['0'], cs)
  | c :: cs =>
    if c.isDigit then some (c :: cs.takeWhile Char.isDigit, cs.dropWhile Char.isDigit) else none
  | [] => none

/-- The unsigned part of `_match_number_unicode`: whether it is a float, its text, the rest. -/
def scanUnsigned (cs : List Char) : Option (Bool × List Char × List Char) :=
  (scanWhole cs).map fun (ds, r) =>
    let (fr, r) := scanFrac r
    let (ex, r) := scanExp r
    (!fr.isEmpty || !ex.isEmpty, ds ++ fr ++ ex, r)

/-- `_match_number_unicode`. -/
def scanNumber : List Char → Option (Bool × List Char × List Char)
  | '-' :: cs => (scanUnsigned cs).map fun (b, t, r) => (b, '-' :: t, r)
  | cs => scanUnsigned cs

/-! ### What the scanner cuts out scans as itself -/

/-- Nothing of the rest could continue a number. -/
def Stops (r : List Char) : Prop :=
  ∀ c ∈ r.head?, c.isDigit = false ∧ c ≠ '.' ∧ c ≠ 'e' ∧ c ≠ 'E'

/-- Nothing of the rest could continue a digit run. -/
def NoDigit (r : List Char) : Prop := ∀ c ∈ r.head?, c.isDigit = false

theorem Stops.noDigit {r : List Char} (h : Stops r) : NoDigit r := fun c hc => (h c hc).1

theorem takeWhile_digits {ds r : List Char} (hd : ∀ c ∈ ds, c.isDigit = true) (hr : NoDigit r) :
    (ds ++ r).takeWhile Char.isDigit = ds ∧ (ds ++ r).dropWhile Char.isDigit = r := by
  rw [List.takeWhile_append_of_pos hd, List.dropWhile_append_of_pos hd]
  cases r with
  | nil => simp
  | cons c r => have := hr c rfl; simp [this]

theorem takeWhile_isDigit (cs : List Char) : ∀ c ∈ cs.takeWhile Char.isDigit, c.isDigit = true :=
  fun _ hc => List.mem_takeWhile_imp hc

theorem scanWhole_spec {cs ds q : List Char} (h : scanWhole cs = some (ds, q)) :
    cs = ds ++ q ∧ ds ≠ [] ∧ (∀ c ∈ ds, c.isDigit = true) ∧
      ∀ r, NoDigit r → scanWhole (ds ++ r) = some (ds, r) := by
  unfold scanWhole at h
  split at h
  · cases h; exact ⟨rfl, by simp, by simp, fun r _ => rfl⟩
  · rename_i c cs hc0
    split at h
    · rename_i hc
      cases h
      refine ⟨by simp, by simp, by simpa [hc] using takeWhile_isDigit cs, fun r hr => ?_⟩
      obtain ⟨h1, h2⟩ := takeWhile_digits (takeWhile_isDigit cs) hr
      have hc0' : c ≠ '0' := fun e => hc0 e
      rw [List.cons_append, scanWhole.eq_def]
      split
      · rename_i heq; cases heq; exact absurd rfl hc0'
      · rename_i heq; cases heq; rw [if_pos hc, h1, h2]
      · rename_i heq; cases heq
    · cases h
  · cases h

theorem scanFrac_spec (cs : List Char) :
    cs = (scanFrac cs).1 ++ (scanFrac cs).2 ∧
      ((scanFrac cs).1 = [] ∨ ∃ ds, (scanFrac cs).1 = '.' :: ds) ∧
      ∀ r, NoDigit r → r.head? ≠ some '.' → scanFrac ((scanFrac cs).1 ++ r) = ((scanFrac cs).1, r) := by
  have hnil : ∀ r : List Char, r.head? ≠ some '.' → scanFrac r = ([], r) := by
    intro r hr
    unfold scanFrac
    split
    · simp at hr
    · rfl
  unfold scanFrac
  split
  · rename_i cs
    split
    · exact ⟨by simp, .inl rfl, fun r _ hr => hnil r hr⟩
    · rename_i d ds hds
      refine ⟨by simp only [List.cons_append]; rw [← List.cons_append, ← hds]; simp, .inr ⟨_, rfl⟩, fun r hr _ => ?_⟩
      obtain ⟨h1, h2⟩ := takeWhile_digits (r := r) (fun c hc => takeWhile_isDigit cs c (hds ▸ hc)) hr
      simp only [List.cons_append] at h1 h2 ⊢
      rw [h1, h2]
  · exact ⟨by simp, .inl rfl, fun r _ hr => hnil r hr⟩

theorem scanSign_spec (cs : List Char) :
    cs = (scanSign cs).1 ++ (scanSign cs).2 ∧
      ∀ d r, d.isDigit = true → scanSign ((scanSign cs).1 ++ d :: r) = ((scanSign cs).1, d :: r) := by
  have hdig : ∀ d r, d.isDigit = true → scanSign (d :: r) = ([], d :: r) := by
    intro d r hd
    unfold scanSign
    split
    · rename_i h; cases h; simp at hd
    · rename_i h; cases h; simp at hd
    · rfl
  unfold scanSign
  split
  · exact ⟨rfl, fun d r _ => rfl⟩
  · exact ⟨rfl, fun d r _ => rfl⟩
  · exact ⟨rfl, fun d r hd => hdig d r hd⟩

theorem scanExp_spec (cs : List Char) :
    cs = (scanExp cs).1 ++ (scanExp cs).2 ∧
      ((scanExp cs).1 = [] ∨ ∃ c ds, (c = 'e' ∨ c = 'E') ∧ (scanExp cs).1 = c :: ds) ∧
      ∀ r, Stops r → scanExp ((scanExp cs).1 ++ r) = ((scanExp cs).1, r) := by
  have hnil : ∀ r : List Char, Stops r → scanExp r = ([], r) := by
    intro r hr
    unfold scanExp
    split
    · rename_i c cs
      have := hr c rfl
      rw [if_neg (by simp [this])]
    · rfl
  unfold scanExp
  split
  · rename_i c cs
    split
    · rename_i hc
      obtain ⟨hs, hs'⟩ := scanSign_spec cs
      split
      · exact ⟨by simp, .inl rfl, hnil⟩
      · rename_i d ds hds
        have hdig : ∀ x ∈ d :: ds, x.isDigit = true := fun x hx => takeWhile_isDigit _ x (hds ▸ hx)
        refine ⟨?_, .inr ⟨c, _, hc, rfl⟩, fun r hr => ?_⟩
        · have := List.takeWhile_append_dropWhile (p := Char.isDigit) (l := (scanSign cs).2)
          rw [hds] at this
          simp only [List.cons_append, List.append_assoc] at this ⊢
          rw [this, ← hs]
        · obtain ⟨h1, h2⟩ := takeWhile_digits (r := r) hdig hr.noDigit
          simp only [List.cons_append, List.append_assoc] at h1 h2 ⊢
          rw [if_pos hc, hs' d _ (hdig d (by simp)), h1, h2]
    · exact ⟨by simp, .inl rfl, hnil⟩
  · exact ⟨by simp, .inl rfl, hnil⟩

theorem scanUnsigned_spec {cs t q : List Char} {b : Bool} (h : scanUnsigned cs = some (b, t, q)) :
    (∃ c ds, t = c :: ds ∧ c.isDigit = true) ∧
      ∀ r, Stops r → scanUnsigned (t ++ r) = some (b, t, r) := by
  simp only [scanUnsigned, Option.map_eq_some_iff, Prod.mk.injEq, Prod.exists] at h
  obtain ⟨ds, q1, hw, rfl, rfl, rfl⟩ := h
  obtain ⟨-, hne, hdig, hw'⟩ := scanWhole_spec hw
  obtain ⟨-, hf, hf'⟩ := scanFrac_spec q1
  obtain ⟨-, he, he'⟩ := scanExp_spec (scanFrac q1).2
  generalize (scanFrac q1).1 = fr at *
  generalize (scanExp (scanFrac q1).2).1 = ex at *
  constructor
  · cases ds with
    | nil => exact absurd rfl hne
    | cons c ds => exact ⟨c, ds ++ fr ++ ex, by simp, hdig c (by simp)⟩
  · intro r hr
    have h2 : NoDigit (ex ++ r) ∧ (ex ++ r).head? ≠ some '.' := by
      rcases he with rfl | ⟨c, es, hc, rfl⟩
      · refine ⟨hr.noDigit, fun h => ?_⟩
        exact (hr '.' h).2.1 rfl
      · rcases hc with rfl | rfl <;> simp [NoDigit]
    have h1 : NoDigit (fr ++ (ex ++ r)) := by
      rcases hf with rfl | ⟨fs, rfl⟩
      · exact h2.1
      · simp [NoDigit]
    simp only [scanUnsigned, List.append_assoc]
    rw [hw' _ h1]
    simp only [Option.map_some, hf' _ h2.1 h2.2, he' _ hr]

theorem scanNumber_spec {cs t q : List Char} {b : Bool} (h : scanNumber cs = some (b, t, q)) :
    ∀ r, Stops r → scanNumber (t ++ r) = some (b, t, r) := by
  intro r hr
  unfold scanNumber at h
  split at h
  · simp only [Option.map_eq_some_iff, Prod.mk.injEq, Prod.exists] at h
    obtain ⟨b', t', q', h', rfl, rfl, rfl⟩ := h
    simp only [List.cons_append, scanNumber, (scanUnsigned_spec h').2 r hr, Option.map_some]
  · obtain ⟨⟨c, ds, rfl, hc⟩, h'⟩ := scanUnsigned_spec h
    rw [List.cons_append, scanNumber.eq_def]
    split
    · rename_i heq; cases heq; simp at hc
    · exact h' r hr

theorem stops_nil : Stops [] := by simp [Stops]

theorem scanNumber_self {cs t q : List Char} {b : Bool} (h : scanNumber cs = some (b, t, q)) :
    scanNumber t = some (b, t, []) := by
  simpa using scanNumber_spec h [] stops_nil

/-! ### Floats -/

def nanText : List Char := ['N', 'a', 'N']
def infText : List Char := ['I', 'n', 'f', 'i', 'n', 'i', 't', 'y']

/-- The text of a float: a number literal with a fraction or an exponent, or one of the three
names `json` writes for the others. -/
def IsFloatText (t : List Char) : Prop :=
  scanNumber t = some (true, t, []) ∨ t = nanText ∨ t = infText ∨ t = '-' :: infText

/-- A float, as the literal that denotes it. -/
structure FloatLit where
  text : List Char
  isFloat : IsFloatText text

/-! ## Values -/

inductive Json where
  | null
  | bool (b : Bool)
  | int (n : Int)
  | float (x : FloatLit)
  | str (s : String)
  | arr (xs : List Json)
  | obj (kvs : List (String × Json))

/-- The items of a `dict`. -/
abbrev Dict := List (String × Json)

namespace Dict

/-- `d.get(k)`; a missing key reads as `None`. -/
def get (d : Dict) (k : String) : Json :=
  match d with
  | [] => .null
  | (k', v) :: d => if k' = k then v else get d k

/-- `k in d`. -/
def has (d : Dict) (k : String) : Bool := d.any (·.1 == k)

/-- `d[k] = v`: an existing key keeps its place. -/
def set (d : Dict) (k : String) (v : Json) : Dict :=
  match d with
  | [] => [(k, v)]
  | (k', v') :: d => if k' = k then (k', v) :: d else (k', v') :: set d k v

/-- `d.get(k, default)`. -/
def getD (d : Dict) (k : String) (v : Json) : Json := if has d k then get d k else v

/-- `d.pop(k, None)`, the dict it leaves. -/
def erase (d : Dict) (k : String) : Dict := d.filter (fun kv => kv.1 ≠ k)

/-- `{**d, **e}`. -/
def merge (d e : Dict) : Dict := e.foldl (fun acc kv => set acc kv.1 kv.2) d

end Dict

namespace Json

/-- `bool(v)`. -/
def truthy : Json → Bool
  | null => false
  | bool b => b
  | int n => n ≠ 0
  | float x => !(x.text.takeWhile (fun c => c ≠ 'e' ∧ c ≠ 'E')).all (fun c => c = '0' ∨ c = '.' ∨ c = '-')
  | str s => s ≠ ""
  | arr xs => !xs.isEmpty
  | obj kvs => !kvs.isEmpty

/-- `v or default`, for a default of any kind. -/
def orElse (v d : Json) : Json := if v.truthy then v else d

theorem orElse_str {s : String} (h : s ≠ "") (w : Json) : (str s).orElse w = str s := by
  simp [orElse, truthy, h]

def isStr (v : Json) (s : String) : Bool :=
  match v with
  | str t => t = s
  | _ => false

/-- A nullable text column as Python sees it. -/
def ofOption : Option String → Json
  | none => null
  | some s => str s

/-- `v == column`, for a nullable text column. -/
def eqOption (v : Json) (o : Option String) : Bool :=
  match v, o with
  | null, none => true
  | str t, some s => t = s
  | _, _ => false

end Json

/-- The decimal text of an integer (`int.__repr__`). -/
def intText : Int → List Char
  | .ofNat n => Nat.toDigits 10 n
  | .negSucc n => '-' :: Nat.toDigits 10 (n + 1)

/-- What the interpreter allows: containers nested in each other before the C code raises
`RecursionError`, and `sys.get_int_max_str_digits()` (4300 unless it was set). -/
structure Limits where
  nesting : Nat
  digits : Nat

mutual
/-- Containers nested in each other. -/
def depth : Json → Nat
  | .arr xs => depthElems xs + 1
  | .obj kvs => depthMembers kvs + 1
  | _ => 0
def depthElems : List Json → Nat
  | [] => 0
  | x :: xs => max (depth x) (depthElems xs)
def depthMembers : List (String × Json) → Nat
  | [] => 0
  | (_, v) :: kvs => max (depth v) (depthMembers kvs)
end

mutual
/-- The digits of the longest integer in the value. -/
def intDigits : Json → Nat
  | .int n => (Nat.toDigits 10 n.natAbs).length
  | .arr xs => intDigitsElems xs
  | .obj kvs => intDigitsMembers kvs
  | _ => 0
def intDigitsElems : List Json → Nat
  | [] => 0
  | x :: xs => max (intDigits x) (intDigitsElems xs)
def intDigitsMembers : List (String × Json) → Nat
  | [] => 0
  | (_, v) :: kvs => max (intDigits v) (intDigitsMembers kvs)
end

mutual
/-- Every `dict` in the value has distinct keys, as Python's have. -/
def WF : Json → Prop
  | .arr xs => WFElems xs
  | .obj kvs => (kvs.map Prod.fst).Nodup ∧ WFMembers kvs
  | _ => True
def WFElems : List Json → Prop
  | [] => True
  | x :: xs => WF x ∧ WFElems xs
def WFMembers : List (String × Json) → Prop
  | [] => True
  | (_, v) :: kvs => WF v ∧ WFMembers kvs
end

/-! ## Writing -/

/-- The blanks after `,` and after `:`. -/
structure Style where
  itemGap : Nat
  keyGap : Nat

/-- `separators=(",", ":")`. -/
def compact : Style := ⟨0, 0⟩
/-- The default separators. -/
def spaced : Style := ⟨1, 1⟩

def hexDigit (n : Nat) : Char := Char.ofNat (if n < 10 then n + 48 else n + 87)

/-- `py_encode_basestring` on one character. -/
def escChar (c : Char) : List Char :=
  if c = '"' then ['\\', '"']
  else if c = '\\' then ['\\', '\\']
  else if c = '\n' then ['\\', 'n']
  else if c = '\r' then ['\\', 'r']
  else if c = '\t' then ['\\', 't']
  else if c = '\x0c' then ['\\', 'f']
  else if c = '\x08' then ['\\', 'b']
  else if c.toNat < 0x20 then ['\\', 'u', '0', '0', hexDigit (c.toNat / 16), hexDigit (c.toNat % 16)]
  else [c]

def encodeStr (s : String) : List Char := '"' :: (s.toList.flatMap escChar ++ ['"'])

def itemSep (st : Style) : List Char := ',' :: List.replicate st.itemGap ' '
def keySep (st : Style) : List Char := ':' :: List.replicate st.keyGap ' '

mutual
/-- The text of a value, its dicts in the order they are in. -/
def encode (st : Style) : Json → List Char
  | .null => ['n', 'u', 'l', 'l']
  | .bool true => ['t', 'r', 'u', 'e']
  | .bool false => ['f', 'a', 'l', 's', 'e']
  | .int n => intText n
  | .float x => x.text
  | .str s => encodeStr s
  | .arr [] => ['[', ']']
  | .arr (x :: xs) => '[' :: (encode st x ++ encodeElems st xs)
  | .obj [] => ['{', '}']
  | .obj ((k, v) :: kvs) => '{' :: (encodeStr k ++ keySep st ++ encode st v ++ encodeMembers st kvs)
/-- The elements after the first, and the closing bracket. -/
def encodeElems (st : Style) : List Json → List Char
  | [] => [']']
  | x :: xs => itemSep st ++ encode st x ++ encodeElems st xs
/-- The members after the first, and the closing brace. -/
def encodeMembers (st : Style) : List (String × Json) → List Char
  | [] => ['}']
  | (k, v) :: kvs => itemSep st ++ encodeStr k ++ keySep st ++ encode st v ++ encodeMembers st kvs
end

/-- `sorted(dct.items())`: the keys are distinct, so only they are compared. -/
def sortItems (kvs : Dict) : Dict := kvs.insertionSort (fun a b => a.1 ≤ b.1)

mutual
/-- `sort_keys=True`, all the way down. -/
def sortKeys : Json → Json
  | .arr xs => .arr (sortKeysElems xs)
  | .obj kvs => .obj (sortItems (sortKeysMembers kvs))
  | v => v
def sortKeysElems : List Json → List Json
  | [] => []
  | x :: xs => sortKeys x :: sortKeysElems xs
def sortKeysMembers : List (String × Json) → List (String × Json)
  | [] => []
  | (k, v) :: kvs => (k, sortKeys v) :: sortKeysMembers kvs
end

/-- What `json` raises. -/
inductive JsonError
  /-- A `JSONDecodeError`, which is a `ValueError`. -/
  | value
  /-- The `ValueError` of `int` and `str` about an integer of too many digits. -/
  | digits
  | recursion
deriving DecidableEq, Repr

/-- `json.dumps(v, ensure_ascii=False, sort_keys=True, separators=…)`. -/
def dumps (lim : Limits) (st : Style) (v : Json) : Except JsonError String :=
  if lim.nesting < depth v then .error .recursion
  else if lim.digits < intDigits v then .error .digits
  else .ok (String.ofList (encode st (sortKeys v)))

/-! ## Reading -/

/-- `WHITESPACE`: blank, tab, newline, carriage return. -/
def isWs (c : Char) : Bool := c = ' ' || c = '\t' || c = '\n' || c = '\r'

def skipWs (cs : List Char) : List Char := cs.dropWhile isWs

def hexVal (c : Char) : Option Nat :=
  if '0' ≤ c ∧ c ≤ '9' then some (c.toNat - 48)
  else if 'a' ≤ c ∧ c ≤ 'f' then some (c.toNat - 87)
  else if 'A' ≤ c ∧ c ≤ 'F' then some (c.toNat - 55)
  else none

def hex4 (a b c d : Char) : Option Nat := do
  let a ← hexVal a
  let b ← hexVal b
  let c ← hexVal c
  let d ← hexVal d
  some (((a * 16 + b) * 16 + c) * 16 + d)

def unescape : Char → Option Char
  | '"' => some '"'
  | '\\' => some '\\'
  | '/' => some '/'
  | 'b' => some '\x08'
  | 'f' => some '\x0c'
  | 'n' => some '\n'
  | 'r' => some '\r'
  | 't' => some '\t'
  | _ => none

/-- `scanstring` up to the closing quote: the code units it reads, and the rest. -/
def scanUnits : List Char → Option (List Nat × List Char)
  | [] => none
  | '"' :: cs => some ([], cs)
  | '\\' :: 'u' :: a :: b :: c :: d :: cs => do
    let u ← hex4 a b c d
    let (us, r) ← scanUnits cs
    some (u :: us, r)
  | '\\' :: c :: cs => do
    let e ← unescape c
    let (us, r) ← scanUnits cs
    some (e.toNat :: us, r)
  | c :: cs =>
    if c.toNat < 0x20 then none
    else do
      let (us, r) ← scanUnits cs
      some (c.toNat :: us, r)

def isHigh (u : Nat) : Bool := 0xD800 ≤ u && u ≤ 0xDBFF
def isLow (u : Nat) : Bool := 0xDC00 ≤ u && u ≤ 0xDFFF

/-- Surrogate pairs are joined; a lone one has no scalar value. -/
def joinUnits : List Nat → Option (List Char)
  | [] => some []
  | [u] => if isHigh u || isLow u then none else some [Char.ofNat u]
  | u :: v :: us =>
    if isHigh u && isLow v then
      (joinUnits us).map (Char.ofNat (0x10000 + (u - 0xD800) * 0x400 + (v - 0xDC00)) :: ·)
    else if isHigh u || isLow u then none
    else (joinUnits (v :: us)).map (Char.ofNat u :: ·)

/-- `scanstring`, after the opening quote. -/
def scanStr (cs : List Char) : Except JsonError (String × List Char) :=
  match scanUnits cs with
  | none => .error .value
  | some (us, r) =>
    match joinUnits us with
    | none => .error .value
    | some s => .ok (String.ofList s, r)

/-- `int(…)` of a scanned literal. -/
def parseInt (digits : Nat) (t : List Char) : Except JsonError Int :=
  match t with
  | '-' :: ds => if ds.length ≤ digits then .ok (-(Nat.ofDigitChars 10 ds 0 : Int)) else .error .digits
  | ds => if ds.length ≤ digits then .ok (Nat.ofDigitChars 10 ds 0 : Int) else .error .digits

/-- The number at the head of the input. -/
def parseNumber (digits : Nat) (cs : List Char) : Except JsonError (Json × List Char) :=
  match h : scanNumber cs with
  | none => .error .value
  | some (true, t, r) => .ok (.float ⟨t, .inl (scanNumber_self h)⟩, r)
  | some (false, t, r) => (parseInt digits t).map fun n => (.int n, r)

mutual
/-- `scan_once`. Every call burns one unit of fuel; `limit` counts containers only. -/
def parseValue (digits : Nat) : Nat → Nat → List Char → Except JsonError (Json × List Char)
  | 0, _, _ => .error .value
  | _ + 1, _, [] => .error .value
  | fuel + 1, limit, c :: cs =>
    if c = '"' then (scanStr cs).map fun (s, r) => (.str s, r)
    else if c = '{' then
      match limit with
      | 0 => .error .recursion
      | limit + 1 =>
        match skipWs cs with
        | '}' :: r => .ok (.obj [], r)
        | cs => (parseMembers digits fuel limit cs).map fun (kvs, r) => (.obj (Dict.merge [] kvs), r)
    else if c = '[' then
      match limit with
      | 0 => .error .recursion
      | limit + 1 =>
        match skipWs cs with
        | ']' :: r => .ok (.arr [], r)
        | cs => (parseElems digits fuel limit cs).map fun (xs, r) => (.arr xs, r)
    else if c = 'n' ∧ cs.take 3 = ['u', 'l', 'l'] then .ok (.null, cs.drop 3)
    else if c = 't' ∧ cs.take 3 = ['r', 'u', 'e'] then .ok (.bool true, cs.drop 3)
    else if c = 'f' ∧ cs.take 4 = ['a', 'l', 's', 'e'] then .ok (.bool false, cs.drop 4)
    else if (c :: cs).take 3 = nanText then .ok (.float ⟨nanText, .inr (.inl rfl)⟩, cs.drop 2)
    else if (c :: cs).take 8 = infText then .ok (.float ⟨infText, .inr (.inr (.inl rfl))⟩, cs.drop 7)
    else if c = '-' ∧ cs.take 8 = infText then
      .ok (.float ⟨'-' :: infText, .inr (.inr (.inr rfl))⟩, cs.drop 8)
    else parseNumber digits (c :: cs)
/-- The loop of `_parse_array_unicode`, from the start of an element. -/
def parseElems (digits : Nat) : Nat → Nat → List Char → Except JsonError (List Json × List Char)
  | 0, _, _ => .error .value
  | fuel + 1, limit, cs => do
    let (x, r) ← parseValue digits fuel limit cs
    match skipWs r with
    | ']' :: r => .ok ([x], r)
    | ',' :: r =>
      let (xs, r) ← parseElems digits fuel limit (skipWs r)
      .ok (x :: xs, r)
    | _ => .error .value
/-- The loop of `_parse_object_unicode`, from the start of a key. -/
def parseMembers (digits : Nat) : Nat → Nat → List Char → Except JsonError (List (String × Json) × List Char)
  | 0, _, _ => .error .value
  | fuel + 1, limit, cs =>
    match cs with
    | '"' :: cs => do
      let (k, r) ← scanStr cs
      match skipWs r with
      | ':' :: r =>
        let (v, r) ← parseValue digits fuel limit (skipWs r)
        match skipWs r with
        | '}' :: r => .ok ([(k, v)], r)
        | ',' :: r =>
          let (kvs, r) ← parseMembers digits fuel limit (skipWs r)
          .ok ((k, v) :: kvs, r)
        | _ => .error .value
      | _ => .error .value
    | _ => .error .value
end

/-- `json.loads(s)`. The fuel covers every call: each one but the first consumes a character or
is the one call its caller makes on the same position. -/
def loads (lim : Limits) (s : String) : Except JsonError Json :=
  match s.toList with
  | '\uFEFF' :: _ => .error .value
  | cs =>
    match parseValue lim.digits (2 * cs.length + 2) lim.nesting (skipWs cs) with
    | .error e => .error e
    | .ok (v, r) => if skipWs r = [] then .ok v else .error .value

/-- `\ufffd` for every escape of a lone surrogate. Where the digits of an escape are none, the scanner stops. -/
def mendSurrogates : List Char → List Char
  | '\\' :: 'u' :: a :: b :: c :: d :: cs =>
    match hex4 a b c d with
    | none => '\\' :: 'u' :: a :: b :: c :: d :: cs
    | some u =>
      if isHigh u then
        match cs with
        | '\\' :: 'u' :: a' :: b' :: c' :: d' :: cs' =>
          if (hex4 a' b' c' d').any isLow then
            '\\' :: 'u' :: a :: b :: c :: d :: '\\' :: 'u' :: a' :: b' :: c' :: d' :: mendSurrogates cs'
          else '\\' :: 'u' :: 'f' :: 'f' :: 'f' :: 'd' :: mendSurrogates ('\\' :: 'u' :: a' :: b' :: c' :: d' :: cs')
        | cs => '\\' :: 'u' :: 'f' :: 'f' :: 'f' :: 'd' :: mendSurrogates cs
      else if isLow u then '\\' :: 'u' :: 'f' :: 'f' :: 'f' :: 'd' :: mendSurrogates cs
      else '\\' :: 'u' :: a :: b :: c :: d :: mendSurrogates cs
  | '\\' :: c :: cs => '\\' :: c :: mendSurrogates cs
  | c :: cs => c :: mendSurrogates cs
  | [] => []

/-- `json.loads(s)` where the strings are only looked at and printed: a lone surrogate reads as U+FFFD. -/
def loadsMended (lim : Limits) (s : String) : Except JsonError Json := loads lim (String.ofList (mendSurrogates s.toList))

/-- A text without a backslash has nothing to mend. -/
theorem mendSurrogates_eq_self {cs : List Char} (h : '\\' ∉ cs) : mendSurrogates cs = cs := by
  induction cs with
  | nil => rfl
  | cons c cs ih =>
    have hc : c ≠ '\\' := fun e => h (e ▸ List.mem_cons_self)
    rw [mendSurrogates, ih fun hm => h (List.mem_cons_of_mem c hm)]
    · intro _ _ _ _ _ hslash
      exact absurd hslash hc
    · intro _ _ hslash
      exact absurd hslash hc

end PyJson
