import Panella.Lib.JsonRoundTrip

/-!
# JSON in ASCII

`json.dumps` with its defaults writes every character outside the printable ones as `\uXXXX`, those beyond the first plane as
two surrogates. `loads` reads the text of a scalar back (`parseValue_scalarText`), and that of an object of two scalars
(**`loads_pairText`**).
-/

namespace PyJson

variable {lim : Limits} {v v' : Json} {k k' : String}

/-- `'\\u{0:04x}'.format(n)`. -/
def uEscape (n : Nat) : List Char :=
  ['\\', 'u', hexDigit (n / 4096), hexDigit (n / 256 % 16), hexDigit (n / 16 % 16), hexDigit (n % 16)]

/-- `py_encode_basestring_ascii` on one character. -/
def asciiChar (c : Char) : List Char :=
  if c.toNat ≤ 0x7E then escChar c
  else if c.toNat < 0x10000 then uEscape c.toNat
  else uEscape (0xD800 + (c.toNat - 0x10000) / 0x400) ++ uEscape (0xDC00 + (c.toNat - 0x10000) % 0x400)

/-- The text of a scalar. -/
def scalarText : Json → List Char
  | .str s => '"' :: (s.toList.flatMap asciiChar ++ ['"'])
  | v => encode spaced v

/-- `json.dumps({k: v, k': v'})`, for two keys in their order. -/
def pairText (k : String) (v : Json) (k' : String) (v' : Json) : List Char :=
  '{' :: (encodeStr k ++ (keySep spaced ++ (scalarText v ++ (itemSep spaced ++ (encodeStr k' ++ (keySep spaced ++
    (scalarText v' ++ ['}'])))))))

/-- `mendSurrogates` with another character, `\ufff?`, for a lone surrogate. -/
def mendAs (mark : Char) : List Char → List Char
  | '\\' :: 'u' :: a :: b :: c :: d :: cs =>
    match hex4 a b c d with
    | none => '\\' :: 'u' :: a :: b :: c :: d :: cs
    | some u =>
      if isHigh u then
        match cs with
        | '\\' :: 'u' :: a' :: b' :: c' :: d' :: cs' =>
          if (hex4 a' b' c' d').any isLow then
            '\\' :: 'u' :: a :: b :: c :: d :: '\\' :: 'u' :: a' :: b' :: c' :: d' :: mendAs mark cs'
          else '\\' :: 'u' :: 'f' :: 'f' :: 'f' :: mark :: mendAs mark ('\\' :: 'u' :: a' :: b' :: c' :: d' :: cs')
        | cs => '\\' :: 'u' :: 'f' :: 'f' :: 'f' :: mark :: mendAs mark cs
      else if isLow u then '\\' :: 'u' :: 'f' :: 'f' :: 'f' :: mark :: mendAs mark cs
      else '\\' :: 'u' :: a :: b :: c :: d :: mendAs mark cs
  | '\\' :: c :: cs => '\\' :: c :: mendAs mark cs
  | c :: cs => c :: mendAs mark cs
  | [] => []

/-! ## Strings -/

/-- The code units of a character. -/
def units (c : Char) : List Nat :=
  if c.toNat < 0x10000 then [c.toNat] else [0xD800 + (c.toNat - 0x10000) / 0x400, 0xDC00 + (c.toNat - 0x10000) % 0x400]

theorem hex4_hexDigit {n : Nat} (h : n < 0x10000) :
    hex4 (hexDigit (n / 4096)) (hexDigit (n / 256 % 16)) (hexDigit (n / 16 % 16)) (hexDigit (n % 16)) = some n := by
  simp only [hex4, hexVal_hexDigit (n / 4096) (by omega), hexVal_hexDigit (n / 256 % 16) (by omega),
    hexVal_hexDigit (n / 16 % 16) (by omega), hexVal_hexDigit (n % 16) (by omega), Option.bind_eq_bind, Option.bind_some]
  congr 1
  omega

theorem scanUnits_uEscape {n : Nat} (h : n < 0x10000) (cs : List Char) :
    scanUnits (uEscape n ++ cs) = (scanUnits cs).map fun (us, r) => (n :: us, r) := by
  rw [uEscape]
  simp only [List.cons_append, List.nil_append, scanUnits, hex4_hexDigit h, Option.bind_eq_bind, Option.bind_some]
  cases scanUnits cs <;> rfl

theorem toNat_lt (c : Char) : c.toNat < 0x110000 := by
  rcases char_toNat_valid c with h | h <;> omega

theorem scanUnits_asciiChar (c : Char) (cs : List Char) :
    scanUnits (asciiChar c ++ cs) = (scanUnits cs).map fun (us, r) => (units c ++ us, r) := by
  have hc := toNat_lt c
  unfold asciiChar units
  split
  · rw [if_pos (by omega), scanUnits_escChar]
    rfl
  · split
    · rename_i hbmp
      rw [scanUnits_uEscape hbmp]
      rfl
    · rw [List.append_assoc, scanUnits_uEscape (by omega), scanUnits_uEscape (by omega)]
      cases scanUnits cs <;> rfl

theorem joinUnits_units (c : Char) (us : List Nat) : joinUnits (units c ++ us) = (joinUnits us).map (c :: ·) := by
  have hc := toNat_lt c
  unfold units
  split
  · obtain ⟨hh, hl⟩ := char_not_surrogate c
    cases us with
    | nil => simp [joinUnits, hh, hl]
    | cons u us => simp [joinUnits, hh, hl]
  · have hhigh : isHigh (0xD800 + (c.toNat - 0x10000) / 0x400) = true := by
      simp only [isHigh, Bool.and_eq_true, decide_eq_true_eq]
      omega
    have hlow : isLow (0xDC00 + (c.toNat - 0x10000) % 0x400) = true := by
      simp only [isLow, Bool.and_eq_true, decide_eq_true_eq]
      omega
    have hback : 0x10000 + (0xD800 + (c.toNat - 0x10000) / 0x400 - 0xD800) * 0x400 +
        (0xDC00 + (c.toNat - 0x10000) % 0x400 - 0xDC00) = c.toNat := by
      omega
    simp only [List.cons_append, List.nil_append, joinUnits, hhigh, hlow, Bool.and_self, if_true, hback, Char.ofNat_toNat]

theorem scanUnits_ascii (s r : List Char) :
    scanUnits (s.flatMap asciiChar ++ '"' :: r) = some (s.flatMap units, r) := by
  induction s with
  | nil => simp [scanUnits]
  | cons c s ih => simp [scanUnits_asciiChar, ih]

theorem joinUnits_flatMap (s : List Char) : joinUnits (s.flatMap units) = some s := by
  induction s with
  | nil => rfl
  | cons c s ih => rw [List.flatMap_cons, joinUnits_units, ih, Option.map_some]

theorem scanStr_ascii (s : String) (r : List Char) : scanStr (s.toList.flatMap asciiChar ++ '"' :: r) = .ok (s, r) := by
  simp [scanStr, scanUnits_ascii, joinUnits_flatMap]

/-! ## Scalars -/

/-- Neither an array nor an object. -/
def IsScalar (v : Json) : Prop := depth v = 0

theorem opens_scalarText (v : Json) : Opens (scalarText v) := by
  cases v with
  | str s => exact ⟨'"', _, rfl, by decide, by decide, by decide⟩
  | _ => exact opens_encode spaced _

theorem parseValue_scalarText (digits : Nat) (hv : IsScalar v) (hn : intDigits v ≤ digits) {fuel limit : Nat} {r : List Char}
    (hf : 2 * (scalarText v).length ≤ fuel) (hr : Stops r) :
    parseValue digits fuel limit (scalarText v ++ r) = .ok (v, r) := by
  have hd : depth v ≤ limit := by
    rw [show depth v = 0 from hv]
    exact Nat.zero_le _
  cases v with
  | str s =>
    cases fuel with
    | zero => simp [scalarText] at hf
    | succ fuel => simp [scalarText, parseValue, scanStr_ascii, Except.map]
  | arr xs => simp [IsScalar, depth] at hv
  | obj kvs => simp [IsScalar, depth] at hv
  | null => exact parseValue_encode spaced digits .null trivial hn fuel limit r hf hd hr
  | bool b => exact parseValue_encode spaced digits (.bool b) trivial hn fuel limit r hf hd hr
  | int n => exact parseValue_encode spaced digits (.int n) trivial hn fuel limit r hf hd hr
  | float x => exact parseValue_encode spaced digits (.float x) trivial hn fuel limit r hf hd hr

/-! ## Two members -/

theorem parseMembers_last (digits : Nat) (hv : IsScalar v) (hn : intDigits v ≤ digits) {fuel limit : Nat} {r : List Char}
    (hf : 2 * (scalarText v).length ≤ fuel) :
    parseMembers digits (fuel + 1) limit (encodeStr k ++ (keySep spaced ++ (scalarText v ++ '}' :: r))) = .ok ([(k, v)], r) := by
  have hk := scanStr_encode k (keySep spaced ++ (scalarText v ++ '}' :: r))
  have hg := skipWs_gap spaced.keyGap ((opens_scalarText v).append ('}' :: r))
  have hstops : Stops ('}' :: r) := by simp [Stops]
  have hp : parseValue digits fuel limit (scalarText v ++ '}' :: r) = .ok (v, '}' :: r) :=
    parseValue_scalarText digits hv hn hf hstops
  simp only [encodeStr, keySep, List.cons_append, List.append_assoc, List.nil_append] at hk hg hp ⊢
  simp [parseMembers, hk, skipWs_colon, skipWs_brace, hg, hp, bind, Except.bind]

theorem parseMembers_cons (digits : Nat) (hv : IsScalar v) (hn : intDigits v ≤ digits) {fuel limit : Nat} {kvs : Dict}
    {rest r : List Char} (hf : 2 * (scalarText v).length ≤ fuel) (hopens : Opens rest)
    (hrest : parseMembers digits fuel limit rest = .ok (kvs, r)) :
    parseMembers digits (fuel + 1) limit (encodeStr k ++ (keySep spaced ++ (scalarText v ++ (itemSep spaced ++ rest)))) =
      .ok ((k, v) :: kvs, r) := by
  have hk := scanStr_encode k (keySep spaced ++ (scalarText v ++ (itemSep spaced ++ rest)))
  have hg := skipWs_gap spaced.keyGap ((opens_scalarText v).append (itemSep spaced ++ rest))
  have hg' := skipWs_gap spaced.itemGap hopens
  have hstops : Stops (itemSep spaced ++ rest) := by simp [itemSep, Stops]
  have hp : parseValue digits fuel limit (scalarText v ++ (itemSep spaced ++ rest)) = .ok (v, itemSep spaced ++ rest) :=
    parseValue_scalarText digits hv hn hf hstops
  simp only [encodeStr, keySep, itemSep, List.cons_append, List.append_assoc, List.nil_append] at hk hg hg' hp ⊢
  simp [parseMembers, hk, skipWs_colon, skipWs_comma, hg, hp, hg', hrest, bind, Except.bind]

/-- **The text of two scalars** reads back as they are. -/
theorem loads_pairText (hk : k ≠ k') (hv : IsScalar v) (hv' : IsScalar v') (hn : intDigits v ≤ lim.digits)
    (hn' : intDigits v' ≤ lim.digits) (hnest : 0 < lim.nesting) :
    loads lim (String.ofList (pairText k v k' v')) = .ok (.obj [(k, v), (k', v')]) := by
  obtain ⟨limit, hlimit⟩ := Nat.exists_eq_succ_of_ne_zero hnest.ne'
  have hparse : parseValue lim.digits (2 * (pairText k v k' v').length + 2) lim.nesting (pairText k v k' v') =
      .ok (.obj [(k, v), (k', v')], []) := by
    have hlength : 2 * (pairText k v k' v').length + 2 = (2 * (pairText k v k' v').length - 1) + 1 + 1 + 1 := by
      simp only [pairText, List.length_cons]
      omega
    have hlast : parseMembers lim.digits (2 * (pairText k v k' v').length - 1 + 1) limit
        (encodeStr k' ++ (keySep spaced ++ (scalarText v' ++ ['}']))) = .ok ([(k', v')], []) := by
      apply parseMembers_last lim.digits hv' hn'
      simp only [pairText, List.length_cons, List.length_append]
      omega
    have hmembers := parseMembers_cons (k := k) lim.digits hv hn
      (show 2 * (scalarText v).length ≤ 2 * (pairText k v k' v').length - 1 + 1 by
        simp only [pairText, List.length_cons, List.length_append]
        omega) (opens_encodeStr k' _) hlast
    have hmerge : Dict.merge [] [(k, v), (k', v')] = [(k, v), (k', v')] := Dict.merge_nil (by simpa using hk)
    rw [hlength, hlimit]
    generalize 2 * (pairText k v k' v').length - 1 + 1 + 1 = fuel at hmembers
    simp only [encodeStr, List.cons_append, List.append_assoc, List.nil_append] at hmembers
    simp only [pairText, encodeStr, List.cons_append, List.append_assoc, List.nil_append]
    simp [skipWs, isWs, parseValue, hmembers, hmerge, Except.map]
  have hskip : skipWs (pairText k v k' v') = pairText k v k' v' := by simp [pairText, skipWs, isWs]
  unfold loads
  rw [String.toList_ofList]
  split
  · rename_i h
    simp [pairText] at h
  · rw [hskip, hparse]
    rfl

end PyJson
