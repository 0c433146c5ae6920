import Panella.Lib.Json

/-!
# What `dumps` writes, `loads` reads

* **`parseValue_encode`** — the parser reads the text of a value back, whatever follows it.
* **`loads_dumps`** — the whole round trip: the value comes back with its keys sorted.
* **`encode_injective`** — two values with the same text are the same value.
-/

namespace PyJson

/-! ## Strings -/

theorem char_toNat_valid (c : Char) : c.toNat < 0xD800 ∨ (0xDFFF < c.toNat ∧ c.toNat < 0x110000) := by
  have h := c.valid
  simp only [UInt32.isValidChar, Nat.isValidChar] at h
  exact h

theorem char_not_surrogate (c : Char) : isHigh c.toNat = false ∧ isLow c.toNat = false := by
  have := char_toNat_valid c
  simp only [isHigh, isLow, Bool.and_eq_false_iff, decide_eq_false_iff_not]
  omega

theorem joinUnits_toNat (cs : List Char) : joinUnits (cs.map Char.toNat) = some cs := by
  induction cs with
  | nil => rfl
  | cons c cs ih =>
    obtain ⟨hh, hl⟩ := char_not_surrogate c
    cases cs with
    | nil => simp [joinUnits, hh, hl]
    | cons d cs =>
      rw [List.map_cons, List.map_cons] at *
      simp [joinUnits, hh, hl, ih]

theorem hexVal_hexDigit : ∀ n < 16, hexVal (hexDigit n) = some n := by decide

theorem hex4_control {n : Nat} (h : n < 0x20) :
    hex4 '0' '0' (hexDigit (n / 16)) (hexDigit (n % 16)) = some n := by
  have h0 : hexVal '0' = some 0 := by decide
  simp only [hex4, h0, hexVal_hexDigit (n / 16) (by omega), hexVal_hexDigit (n % 16) (by omega),
    Option.bind_eq_bind, Option.bind_some]
  congr 1
  omega

/-- One escaped character is read as its code unit. -/
theorem scanUnits_escChar (c : Char) (cs : List Char) :
    scanUnits (escChar c ++ cs) = (scanUnits cs).map fun (us, r) => (c.toNat :: us, r) := by
  unfold escChar
  split
  · subst c; cases h : scanUnits cs <;> simp [scanUnits, unescape, h]
  · split
    · subst c; cases h : scanUnits cs <;> simp [scanUnits, unescape, h]
    · split
      · subst c; cases h : scanUnits cs <;> simp [scanUnits, unescape, h]
      · split
        · subst c; cases h : scanUnits cs <;> simp [scanUnits, unescape, h]
        · split
          · subst c; cases h : scanUnits cs <;> simp [scanUnits, unescape, h]
          · split
            · subst c; cases h : scanUnits cs <;> simp [scanUnits, unescape, h]
            · split
              · subst c; cases h : scanUnits cs <;> simp [scanUnits, unescape, h]
              · split
                · rename_i hc
                  simp only [List.cons_append, List.nil_append, scanUnits, hex4_control hc]
                  cases h : scanUnits cs <;> simp
                · rename_i hq hb _ _ _ _ _ hc
                  rw [List.singleton_append, scanUnits.eq_def]
                  split
                  · rename_i h; cases h
                  · rename_i h; cases h; exact absurd rfl hq
                  · rename_i h; cases h; exact absurd rfl hb
                  · rename_i h; cases h; exact absurd rfl hb
                  · rename_i h; cases h; rw [if_neg hc]; cases h : scanUnits cs <;> simp

theorem scanUnits_escaped (s r : List Char) :
    scanUnits (s.flatMap escChar ++ '"' :: r) = some (s.map Char.toNat, r) := by
  induction s with
  | nil => simp [scanUnits]
  | cons c s ih => simp [scanUnits_escChar, ih]

theorem scanStr_encode (s : String) (r : List Char) :
    scanStr (s.toList.flatMap escChar ++ '"' :: r) = .ok (s, r) := by
  simp [scanStr, scanUnits_escaped, joinUnits_toNat]

/-! ## Integers -/

theorem toDigits_head_ne_zero {n : Nat} (h : 0 < n) : (Nat.toDigits 10 n).head? ≠ some '0' := by
  induction n using Nat.strongRecOn with
  | _ n ih =>
    rw [Nat.toDigits_eq_if (by omega)]
    split
    · simp; omega
    · have hne : Nat.toDigits 10 (n / 10) ≠ [] := Nat.toDigits_ne_nil
      rw [List.head?_append_of_ne_nil _ hne]
      exact ih (n / 10) (by omega) (by omega)

theorem isDigit_toDigits (n : Nat) : ∀ c ∈ Nat.toDigits 10 n, c.isDigit = true :=
  fun _ hc => Nat.isDigit_of_mem_toDigits (by omega) (by omega) hc

theorem scanWhole_toDigits (n : Nat) {r : List Char} (hr : NoDigit r) :
    scanWhole (Nat.toDigits 10 n ++ r) = some (Nat.toDigits 10 n, r) := by
  rcases Nat.eq_zero_or_pos n with rfl | hn
  · simp [Nat.toDigits_zero, scanWhole]
  · have hz := toDigits_head_ne_zero hn
    have hd := isDigit_toDigits n
    cases h : Nat.toDigits 10 n with
    | nil => exact absurd h Nat.toDigits_ne_nil
    | cons c cs =>
      rw [h] at hz hd
      obtain ⟨h1, h2⟩ := takeWhile_digits (fun x hx => hd x (List.mem_cons_of_mem c hx)) hr
      rw [List.cons_append, scanWhole.eq_def]
      split
      · rename_i heq; cases heq; simp at hz
      · rename_i heq; cases heq; rw [if_pos (hd c (by simp)), h1, h2]
      · rename_i heq; cases heq

theorem scanFrac_stops {r : List Char} (hr : Stops r) : scanFrac r = ([], r) := by
  unfold scanFrac
  split
  · exact absurd rfl (hr '.' rfl).2.1
  · rfl

theorem scanExp_stops {r : List Char} (hr : Stops r) : scanExp r = ([], r) := by
  unfold scanExp
  split
  · have := hr _ rfl; rw [if_neg (by simp [this])]
  · rfl

theorem scanUnsigned_toDigits (n : Nat) {r : List Char} (hr : Stops r) :
    scanUnsigned (Nat.toDigits 10 n ++ r) = some (false, Nat.toDigits 10 n, r) := by
  simp [scanUnsigned, scanWhole_toDigits n hr.noDigit, scanFrac_stops hr, scanExp_stops hr]

/-- An integer's text is scanned whole, as an integer. -/
theorem scanNumber_intText (n : Int) {r : List Char} (hr : Stops r) :
    scanNumber (intText n ++ r) = some (false, intText n, r) := by
  cases n with
  | ofNat n =>
    have hd := isDigit_toDigits n
    simp only [intText]
    cases h : Nat.toDigits 10 n with
    | nil => exact absurd h Nat.toDigits_ne_nil
    | cons c cs =>
      have hu := scanUnsigned_toDigits n hr
      rw [h] at hd hu
      rw [List.cons_append, scanNumber.eq_def]
      split
      · rename_i heq; cases heq; exact absurd (hd '-' (by simp)) (by decide)
      · exact hu
  | negSucc n => simp [intText, scanNumber, scanUnsigned_toDigits (n + 1) hr]

theorem parseInt_intText {n : Int} {digits : Nat} (h : intDigits (.int n) ≤ digits) : parseInt digits (intText n) = .ok n := by
  simp only [intDigits] at h
  cases n with
  | ofNat n =>
    have hd := isDigit_toDigits n
    have hn : Nat.ofDigitChars 10 (Nat.toDigits 10 n) 0 = n := Nat.ofDigitChars_ten_toDigits
    simp only [intText, parseInt]
    split
    · rename_i ds heq; exact absurd (hd '-' (by rw [heq]; simp)) (by decide)
    · rw [if_pos (by simpa using h), hn]; rfl
  | negSucc n =>
    simp only [intText, parseInt]
    rw [if_pos (by simpa using h), Nat.ofDigitChars_ten_toDigits]
    rfl

/-! ## The head of a value's text -/

/-- The first character of a value's text: not a blank, not a closing bracket, not a byte order
mark. -/
def Opens (cs : List Char) : Prop :=
  ∃ c r, cs = c :: r ∧ isWs c = false ∧ c ≠ ']' ∧ c ≠ '\uFEFF'

theorem Opens.append {cs : List Char} (h : Opens cs) (r : List Char) : Opens (cs ++ r) := by
  obtain ⟨c, q, rfl, hc⟩ := h
  exact ⟨c, q ++ r, rfl, hc⟩

theorem Opens.skipWs {cs : List Char} (h : Opens cs) : skipWs cs = cs := by
  obtain ⟨c, q, rfl, hc, -⟩ := h
  simp [PyJson.skipWs, hc]

theorem opens_of_isDigit {c : Char} (h : c.isDigit = true) (r : List Char) : Opens (c :: r) := by
  refine ⟨c, r, rfl, ?_, ?_, ?_⟩
  · simp only [isWs, Bool.or_eq_false_iff, decide_eq_false_iff_not]
    refine ⟨⟨⟨?_, ?_⟩, ?_⟩, ?_⟩ <;> (rintro rfl; exact absurd h (by decide))
  · rintro rfl; exact absurd h (by decide)
  · rintro rfl; exact absurd h (by decide)

/-- A scanned number starts with a digit, or with `-` and a digit. -/
theorem scanNumber_head {cs t r : List Char} {b : Bool} (h : scanNumber cs = some (b, t, r)) :
    (∃ c q, t = c :: q ∧ c.isDigit = true) ∨ ∃ c q, t = '-' :: c :: q ∧ c.isDigit = true := by
  unfold scanNumber at h
  split at h
  · simp only [Option.map_eq_some_iff, Prod.mk.injEq, Prod.exists] at h
    obtain ⟨b', t', q', h', rfl, rfl, rfl⟩ := h
    obtain ⟨⟨c, ds, rfl, hc⟩, -⟩ := scanUnsigned_spec h'
    exact .inr ⟨c, ds, rfl, hc⟩
  · exact .inl (scanUnsigned_spec h).1

theorem opens_number {cs t r : List Char} {b : Bool} (h : scanNumber cs = some (b, t, r)) : Opens t := by
  rcases scanNumber_head h with ⟨c, q, rfl, hc⟩ | ⟨c, q, rfl, -⟩
  · exact opens_of_isDigit hc q
  · exact ⟨'-', c :: q, rfl, by decide, by decide, by decide⟩

theorem opens_encode (st : Style) (v : Json) : Opens (encode st v) := by
  have key : ∀ {c : Char} {r : List Char}, isWs c = false → c ≠ ']' → c ≠ '\uFEFF' → Opens (c :: r) :=
    fun h1 h2 h3 => ⟨_, _, rfl, h1, h2, h3⟩
  cases v with
  | null => exact key (by decide) (by decide) (by decide)
  | bool b => cases b <;> exact key (by decide) (by decide) (by decide)
  | int n => exact opens_number (by simpa [encode] using scanNumber_intText n stops_nil)
  | float x =>
    obtain ⟨t, h | rfl | rfl | rfl⟩ := x
    · exact opens_number h
    all_goals exact key (by decide) (by decide) (by decide)
  | str s => exact key (by decide) (by decide) (by decide)
  | arr xs => cases xs <;> exact key (by decide) (by decide) (by decide)
  | obj kvs => rcases kvs with _ | ⟨⟨k, v⟩, kvs⟩ <;> exact key (by decide) (by decide) (by decide)


/-! ## Values -/

/-- What may follow a value inside a container. -/
theorem stops_encodeElems (st : Style) (xs : List Json) (r : List Char) : Stops (encodeElems st xs ++ r) := by
  cases xs <;> simp [encodeElems, itemSep, Stops]

theorem stops_encodeMembers (st : Style) (kvs : Dict) (r : List Char) : Stops (encodeMembers st kvs ++ r) := by
  rcases kvs with _ | ⟨⟨k, v⟩, kvs⟩ <;> simp [encodeMembers, itemSep, Stops]

theorem skipWs_gap (n : Nat) {cs : List Char} (h : Opens cs) : skipWs (List.replicate n ' ' ++ cs) = cs := by
  induction n with
  | zero => simpa using h.skipWs
  | succ n ih =>
    rw [List.replicate_succ, List.cons_append]
    exact ih

theorem skipWs_comma (cs : List Char) : skipWs (',' :: cs) = ',' :: cs := by simp [skipWs, isWs]
theorem skipWs_colon (cs : List Char) : skipWs (':' :: cs) = ':' :: cs := by simp [skipWs, isWs]
theorem skipWs_brace (cs : List Char) : skipWs ('}' :: cs) = '}' :: cs := by simp [skipWs, isWs]

theorem opens_encodeStr (s : String) (r : List Char) : Opens (encodeStr s ++ r) :=
  ⟨'"', _, rfl, by decide, by decide, by decide⟩

/-- A number literal is read by `parseNumber`: no other branch of `scan_once` takes it. -/
theorem parseValue_number {cs t q : List Char} {b : Bool} (h : scanNumber cs = some (b, t, q)) (digits fuel lim : Nat)
    (r : List Char) : parseValue digits (fuel + 1) lim (t ++ r) = parseNumber digits (t ++ r) := by
  have hdig : ∀ c : Char, c.isDigit = true →
      c ≠ '"' ∧ c ≠ '{' ∧ c ≠ '[' ∧ c ≠ 'n' ∧ c ≠ 't' ∧ c ≠ 'f' ∧ c ≠ 'N' ∧ c ≠ 'I' ∧ c ≠ '-' := by
    intro c hc
    refine ⟨?_, ?_, ?_, ?_, ?_, ?_, ?_, ?_, ?_⟩ <;> (rintro rfl; exact absurd hc (by decide))
  rcases scanNumber_head h with ⟨c, q, rfl, hc⟩ | ⟨c, q, rfl, hc⟩
  · obtain ⟨h1, h2, h3, h4, h5, h6, h7, h8, h9⟩ := hdig c hc
    simp [parseValue, h1, h2, h3, h4, h5, h6, h7, h8, h9, nanText, infText]
  · have := (hdig c hc).2.2.2.2.2.2.2.1
    simp [parseValue, nanText, infText, this]

theorem parseNumber_float {t : List Char} (h : scanNumber t = some (true, t, [])) (digits : Nat) {r : List Char}
    (hr : Stops r) : parseNumber digits (t ++ r) = .ok (.float ⟨t, .inl h⟩, r) := by
  have hs := scanNumber_spec h r hr
  unfold parseNumber
  split
  · rename_i h0; rw [h0] at hs; cases hs
  · rename_i h0; rw [h0] at hs; cases hs; rfl
  · rename_i h0; rw [h0] at hs; cases hs

theorem parseNumber_int {n : Int} {digits : Nat} (h : intDigits (.int n) ≤ digits) {r : List Char} (hr : Stops r) :
    parseNumber digits (intText n ++ r) = .ok (.int n, r) := by
  have hs := scanNumber_intText n hr
  unfold parseNumber
  split
  · rename_i h0; rw [h0] at hs; cases hs
  · rename_i h0; rw [h0] at hs; cases hs
  · rename_i h0; rw [h0] at hs; cases hs; rw [parseInt_intText h]; rfl

theorem Dict.set_fresh {d : Dict} {k : String} (h : k ∉ d.map Prod.fst) (v : Json) :
    Dict.set d k v = d ++ [(k, v)] := by
  induction d with
  | nil => rfl
  | cons kv d ih =>
    simp only [List.map_cons, List.mem_cons, not_or] at h
    simp [Dict.set, Ne.symm h.1, ih h.2]

/-- Building a dict from items with distinct keys keeps the items as they are. -/
theorem Dict.merge_fresh {d e : Dict} (h : ((d ++ e).map Prod.fst).Nodup) : Dict.merge d e = d ++ e := by
  induction e generalizing d with
  | nil => simp [Dict.merge]
  | cons kv e ih =>
    have hk : kv.1 ∉ d.map Prod.fst := by
      simp only [List.map_append, List.map_cons, List.nodup_append] at h
      exact fun hm => h.2.2 _ hm _ (by simp) rfl
    have := ih (d := d ++ [kv]) (by simpa using h)
    simp only [Dict.merge, List.foldl_cons, Dict.set_fresh hk] at this ⊢
    simpa using this

theorem Dict.merge_nil {e : Dict} (h : (e.map Prod.fst).Nodup) : Dict.merge [] e = e := by
  simpa using Dict.merge_fresh (d := []) (by simpa using h)

theorem length_encode_pos (st : Style) (v : Json) : 0 < (encode st v).length := by
  obtain ⟨c, r, h, -⟩ := opens_encode st v
  simp [h]

mutual
/-- **The parser reads a value's text back**, and stops where the text ends. -/
theorem parseValue_encode (st : Style) (digits : Nat) : (v : Json) → WF v → intDigits v ≤ digits → ∀ fuel lim r,
    2 * (encode st v).length ≤ fuel → depth v ≤ lim → Stops r →
    parseValue digits fuel lim (encode st v ++ r) = .ok (v, r)
  | .null, _, _, fuel + 1, _, _, _, _, _ => by simp [encode, parseValue]
  | .bool true, _, _, fuel + 1, _, _, _, _, _ => by simp [encode, parseValue]
  | .bool false, _, _, fuel + 1, _, _, _, _, _ => by simp [encode, parseValue]
  | .int n, _, hs, fuel + 1, lim, r, _, _, hr => by
    rw [encode, parseValue_number (scanNumber_intText n stops_nil), parseNumber_int hs hr]
  | .float ⟨t, h⟩, _, _, fuel + 1, lim, r, _, _, hr => by
    rcases h with h | rfl | rfl | rfl
    · rw [encode, parseValue_number h, parseNumber_float h digits hr]
    · simp [encode, parseValue, nanText]
    · simp [encode, parseValue, nanText, infText]
    · simp [encode, parseValue, nanText, infText]
  | .str s, _, _, fuel + 1, lim, r, _, _, _ => by
    simp [encode, encodeStr, parseValue, scanStr_encode, Except.map]
  | .arr [], _, _, fuel + 1, lim + 1, r, _, _, _ => by
    simp [encode, parseValue, skipWs, isWs]
  | .arr (x :: xs), hw, hs, fuel + 1, lim + 1, r, hf, hd, _ => by
    have hx : Opens (encode st x ++ (encodeElems st xs ++ r)) := (opens_encode st x).append _
    simp only [encode, List.length_cons, List.length_append] at hf
    simp only [depth, Nat.add_le_add_iff_right] at hd
    have hp := parseElems_encode st digits x xs hw hs fuel lim r (by omega) hd
    have hsk := hx.skipWs
    obtain ⟨c, q, hcq, -, hc, -⟩ := hx
    rw [hcq] at hp hsk
    simp only [encode, List.cons_append, List.append_assoc, hcq]
    simp [parseValue, hsk, hc, hp, Except.map]
  | .obj [], _, _, fuel + 1, lim + 1, r, _, _, _ => by
    simp [encode, parseValue, skipWs, isWs]
  | .obj ((k, v) :: kvs), hw, hs, fuel + 1, lim + 1, r, hf, hd, _ => by
    simp only [encode, List.length_cons, List.length_append] at hf
    simp only [depth, Nat.add_le_add_iff_right] at hd
    have hp := parseMembers_encode st digits k v kvs hw.2 hs fuel lim r (by omega) hd
    have hm := Dict.merge_nil hw.1
    simp only [encodeStr, List.cons_append, List.append_assoc, List.nil_append] at hp
    simp only [encode, encodeStr, List.cons_append, List.append_assoc, List.nil_append]
    simp [parseValue, skipWs, isWs, hp, hm, Except.map]
  | v, _, _, 0, _, _, hf, _, _ => by have := length_encode_pos st v; omega
theorem parseElems_encode (st : Style) (digits : Nat) : (x : Json) → (xs : List Json) → WFElems (x :: xs) →
    intDigitsElems (x :: xs) ≤ digits → ∀ fuel lim r,
    2 * ((encode st x).length + (encodeElems st xs).length) ≤ fuel + 1 → depthElems (x :: xs) ≤ lim →
    parseElems digits fuel lim (encode st x ++ (encodeElems st xs ++ r)) = .ok (x :: xs, r)
  | x, xs, hw, hs, fuel + 1, lim, r, hf, hd => by
    simp only [intDigitsElems, Nat.max_le] at hs
    simp only [depthElems, Nat.max_le] at hd
    have hlen : 0 < (encodeElems st xs).length := by cases xs <;> simp [encodeElems, itemSep]
    have hp := parseValue_encode st digits x hw.1 hs.1 fuel lim (encodeElems st xs ++ r) (by omega) hd.1
      (stops_encodeElems st xs r)
    cases xs with
    | nil =>
      simp only [encodeElems, List.cons_append, List.nil_append] at hp ⊢
      simp [parseElems, hp, skipWs, isWs, bind, Except.bind]
    | cons y ys =>
      simp only [encodeElems, itemSep, List.length_cons, List.length_append] at hf
      have hq := parseElems_encode st digits y ys hw.2 hs.2 fuel lim r (by omega) hd.2
      have hg := skipWs_gap st.itemGap ((opens_encode st y).append (encodeElems st ys ++ r))
      simp only [encodeElems, itemSep, List.cons_append, List.append_assoc] at hp ⊢
      simp [parseElems, hp, skipWs_comma, hg, hq, bind, Except.bind]
  | x, xs, _, _, 0, _, _, hf, _ => by have := length_encode_pos st x; omega
theorem parseMembers_encode (st : Style) (digits : Nat) : (k : String) → (v : Json) → (kvs : Dict) → WFMembers ((k, v) :: kvs) →
    intDigitsMembers ((k, v) :: kvs) ≤ digits → ∀ fuel lim r,
    2 * ((encodeStr k).length + (keySep st).length + (encode st v).length + (encodeMembers st kvs).length) ≤ fuel + 1 →
    depthMembers ((k, v) :: kvs) ≤ lim →
    parseMembers digits fuel lim (encodeStr k ++ (keySep st ++ (encode st v ++ (encodeMembers st kvs ++ r)))) =
      .ok ((k, v) :: kvs, r)
  | k, v, kvs, hw, hs, fuel + 1, lim, r, hf, hd => by
    simp only [intDigitsMembers, Nat.max_le] at hs
    simp only [depthMembers, Nat.max_le] at hd
    have hlen : 0 < (encodeMembers st kvs).length := by
      rcases kvs with _ | ⟨⟨_, _⟩, _⟩ <;> simp [encodeMembers, itemSep]
    have hp := parseValue_encode st digits v hw.1 hs.1 fuel lim (encodeMembers st kvs ++ r) (by omega) hd.1
      (stops_encodeMembers st kvs r)
    have hk := scanStr_encode k (keySep st ++ (encode st v ++ (encodeMembers st kvs ++ r)))
    have hg := skipWs_gap st.keyGap ((opens_encode st v).append (encodeMembers st kvs ++ r))
    cases kvs with
    | nil =>
      simp only [encodeStr, keySep, encodeMembers, List.cons_append, List.append_assoc, List.nil_append] at hk hg hp ⊢
      simp [parseMembers, hk, skipWs_colon, skipWs_brace, hg, hp, bind, Except.bind]
    | cons kv kvs =>
      obtain ⟨k', v'⟩ := kv
      simp only [encodeMembers, itemSep, List.length_cons, List.length_append] at hf
      have hq := parseMembers_encode st digits k' v' kvs hw.2 hs.2 fuel lim r (by omega) hd.2
      have hg' := skipWs_gap st.itemGap (opens_encodeStr k' (keySep st ++ (encode st v' ++ (encodeMembers st kvs ++ r))))
      simp only [encodeStr, keySep, encodeMembers, itemSep, List.cons_append, List.append_assoc, List.nil_append]
        at hk hg hp hq hg' ⊢
      simp [parseMembers, hk, skipWs_colon, skipWs_comma, hg, hp, hg', hq, bind, Except.bind]
  | k, v, kvs, _, _, 0, _, _, hf, _ => by have := length_encode_pos st v; omega
end

theorem Dict.get_set (d : Dict) (k k' : String) (v : Json) :
    Dict.get (Dict.set d k v) k' = if k = k' then v else Dict.get d k' := by
  induction d with
  | nil => simp [Dict.set, Dict.get]
  | cons kv d ih =>
    by_cases h1 : kv.1 = k
    · by_cases h2 : k = k'
      · simp [Dict.set, Dict.get, h1, h2]
      · simp [Dict.set, Dict.get, h1, h2]
    · by_cases h2 : kv.1 = k'
      · have h3 : ¬ k = k' := fun h => h1 (h2.trans h.symm)
        simp only [Dict.set, if_neg h1, Dict.get, if_pos h2, if_neg h3]
      · simp [Dict.set, Dict.get, h1, h2, ih]

theorem Dict.get_erase (d : Dict) (k k' : String) :
    Dict.get (Dict.erase d k) k' = if k' = k then .null else Dict.get d k' := by
  induction d with
  | nil => simp [Dict.erase, Dict.get]
  | cons kv d ih =>
    have hrest : Dict.get (d.filter fun kv => kv.1 ≠ k) k' = if k' = k then .null else Dict.get d k' := ih
    by_cases h1 : kv.1 = k
    · by_cases h2 : k' = k
      · simpa [Dict.erase, h1, h2] using hrest
      · simpa [Dict.erase, Dict.get, h1, h2, Ne.symm h2] using hrest
    · by_cases h2 : kv.1 = k'
      · have h3 : ¬ k' = k := fun h => h1 (h2.trans h)
        simp [Dict.erase, Dict.get, h2, h3]
      · simpa [Dict.erase, Dict.get, h1, h2] using hrest

theorem Dict.get_of_mem {d : Dict} (hd : (d.map Prod.fst).Nodup) {k : String} {v : Json} (h : (k, v) ∈ d) :
    Dict.get d k = v := by
  induction d with
  | nil => cases h
  | cons kv d ih =>
    simp only [List.map_cons, List.nodup_cons] at hd
    rcases List.mem_cons.1 h with rfl | h
    · simp [Dict.get]
    · have hne : kv.1 ≠ k := by
        rintro rfl
        exact hd.1 (List.mem_map.2 ⟨_, h, rfl⟩)
      simp only [Dict.get, if_neg hne]
      exact ih hd.2 h

theorem Dict.get_of_notMem {d : Dict} {k : String} (h : k ∉ d.map Prod.fst) : Dict.get d k = .null := by
  induction d with
  | nil => rfl
  | cons kv d ih =>
    simp only [List.map_cons, List.mem_cons, not_or] at h
    simp only [Dict.get, if_neg (Ne.symm h.1)]
    exact ih h.2

/-- The order of a dict's items does not matter to `get`. -/
theorem Dict.get_perm {d e : Dict} (h : d.Perm e) (hd : (d.map Prod.fst).Nodup) (k : String) :
    Dict.get d k = Dict.get e k := by
  by_cases hk : k ∈ d.map Prod.fst
  · obtain ⟨⟨k', v⟩, hm, rfl⟩ := List.mem_map.1 hk
    rw [Dict.get_of_mem hd hm, Dict.get_of_mem ((h.map Prod.fst).nodup_iff.1 hd) (h.mem_iff.1 hm)]
  · rw [Dict.get_of_notMem hk, Dict.get_of_notMem (fun hk' => hk ((h.map Prod.fst).mem_iff.2 hk'))]

/-- A key that is not in the second dict reads as before. -/
theorem Dict.get_merge_of_notMem {e : Dict} {k : String} (d : Dict) (h : k ∉ e.map Prod.fst) :
    Dict.get (Dict.merge d e) k = Dict.get d k := by
  induction e generalizing d with
  | nil => rfl
  | cons kv e ih =>
    simp only [List.map_cons, List.mem_cons, not_or] at h
    show Dict.get (Dict.merge (Dict.set d kv.1 kv.2) e) k = _
    rw [ih _ h.2, Dict.get_set, if_neg (Ne.symm h.1)]

/-- A key of the second dict wins in a merge. -/
theorem Dict.get_merge_of_mem {d e : Dict} {k : String} {v : Json} (he : (e.map Prod.fst).Nodup) (h : (k, v) ∈ e) :
    Dict.get (Dict.merge d e) k = v := by
  induction e generalizing d with
  | nil => cases h
  | cons kv e ih =>
    simp only [List.map_cons, List.nodup_cons] at he
    rcases List.mem_cons.1 h with rfl | h
    · show Dict.get (Dict.merge (Dict.set d k v) e) k = v
      rw [Dict.get_merge_of_notMem _ he.1, Dict.get_set, if_pos rfl]
    · exact ih (d := Dict.set d kv.1 kv.2) he.2 h

theorem Dict.keys_set (d : Dict) (k : String) (v : Json) :
    (Dict.set d k v).map Prod.fst = if k ∈ d.map Prod.fst then d.map Prod.fst else d.map Prod.fst ++ [k] := by
  induction d with
  | nil => simp [Dict.set]
  | cons kv d ih =>
    by_cases h : kv.1 = k
    · simp [Dict.set, h]
    · have h' : ¬ k = kv.1 := Ne.symm h
      simp only [Dict.set, if_neg h, List.map_cons, ih, List.mem_cons, h', false_or]
      split <;> simp

theorem Dict.has_iff {d : Dict} {k : String} : Dict.has d k = true ↔ k ∈ d.map Prod.fst := by
  simp [Dict.has]

theorem Dict.mem_keys_set {d : Dict} {k k' : String} {v : Json} :
    k' ∈ (Dict.set d k v).map Prod.fst ↔ k' ∈ d.map Prod.fst ∨ k' = k := by
  rw [Dict.keys_set]
  by_cases h : k ∈ d.map Prod.fst
  · rw [if_pos h]
    refine ⟨.inl, fun hk => hk.elim id fun he => he ▸ h⟩
  · simp [if_neg h]

/-- The keys of a merge are those of both. -/
theorem Dict.mem_keys_merge {d e : Dict} {k : String} :
    k ∈ (Dict.merge d e).map Prod.fst ↔ k ∈ d.map Prod.fst ∨ k ∈ e.map Prod.fst := by
  induction e generalizing d with
  | nil => simp [Dict.merge]
  | cons kv e ih =>
    have hstep : Dict.merge d (kv :: e) = Dict.merge (Dict.set d kv.1 kv.2) e := rfl
    rw [hstep, ih, Dict.mem_keys_set, List.map_cons, List.mem_cons, or_assoc]

theorem Dict.mem_set {d : Dict} {k : String} {v : Json} {kv : String × Json} (h : kv ∈ Dict.set d k v) :
    kv ∈ d ∨ kv = (k, v) := by
  induction d with
  | nil => exact .inr (by simpa [Dict.set] using h)
  | cons kv' d ih =>
    by_cases hk : kv'.1 = k
    · simp only [Dict.set, if_pos hk, List.mem_cons] at h
      rcases h with rfl | h
      · exact .inr (by rw [hk])
      · exact .inl (List.mem_cons_of_mem _ h)
    · simp only [Dict.set, if_neg hk, List.mem_cons] at h
      rcases h with rfl | h
      · exact .inl (List.mem_cons_self ..)
      · rcases ih h with h | h
        · exact .inl (List.mem_cons_of_mem _ h)
        · exact .inr h

/-! ## Sorting the keys -/

theorem sortItems_perm (kvs : Dict) : (sortItems kvs).Perm kvs := List.perm_insertionSort _ kvs

theorem wfMembers_iff {kvs : Dict} : WFMembers kvs ↔ ∀ kv ∈ kvs, WF kv.2 := by
  induction kvs with
  | nil => simp [WFMembers]
  | cons kv kvs ih => simp [WFMembers, ih]

theorem wf_obj_iff {kvs : Dict} : WF (.obj kvs) ↔ (kvs.map Prod.fst).Nodup ∧ ∀ kv ∈ kvs, WF kv.2 := by
  simp only [WF, wfMembers_iff]

theorem wf_ofOption (o : Option String) : WF (.ofOption o) := by
  cases o <;> trivial

theorem wf_get {d : Dict} (hd : WF (.obj d)) (k : String) : WF (Dict.get d k) := by
  by_cases hk : k ∈ d.map Prod.fst
  · obtain ⟨⟨k', v⟩, hm, rfl⟩ := List.mem_map.1 hk
    rw [Dict.get_of_mem (wf_obj_iff.1 hd).1 hm]
    exact (wf_obj_iff.1 hd).2 _ hm
  · rw [Dict.get_of_notMem hk]
    trivial

theorem wf_getD {d : Dict} (hd : WF (.obj d)) (k : String) {v : Json} (hv : WF v) : WF (Dict.getD d k v) := by
  unfold Dict.getD
  split
  · exact wf_get hd k
  · exact hv

theorem wf_orElse {v w : Json} (hv : WF v) (hw : WF w) : WF (v.orElse w) := by
  unfold Json.orElse
  split
  · exact hv
  · exact hw

theorem wf_filter {d : Dict} (hd : WF (.obj d)) (P : String × Json → Bool) : WF (.obj (d.filter P)) := by
  obtain ⟨hn, hw⟩ := wf_obj_iff.1 hd
  exact wf_obj_iff.2 ⟨hn.sublist (List.filter_sublist.map _), fun kv hkv => hw kv (List.mem_filter.1 hkv).1⟩

theorem wfElems_iff {xs : List Json} : WFElems xs ↔ ∀ x ∈ xs, WF x := by
  induction xs with
  | nil => simp [WFElems]
  | cons x xs ih => simp [WFElems, ih]

theorem wf_set {d : Dict} {k : String} {v : Json} (hd : WF (.obj d)) (hv : WF v) : WF (.obj (Dict.set d k v)) := by
  obtain ⟨hn, hw⟩ := wf_obj_iff.1 hd
  refine wf_obj_iff.2 ⟨?_, fun kv hkv => ?_⟩
  · rw [Dict.keys_set]
    split
    · exact hn
    · rename_i hk
      exact List.Nodup.append hn (List.nodup_singleton k) (List.disjoint_singleton.2 hk)
  · rcases Dict.mem_set hkv with h | rfl
    · exact hw kv h
    · exact hv

theorem wf_merge {d e : Dict} (hd : WF (.obj d)) (he : ∀ kv ∈ e, WF kv.2) : WF (.obj (Dict.merge d e)) := by
  induction e generalizing d with
  | nil => exact hd
  | cons kv e ih =>
    show WF (.obj (Dict.merge (Dict.set d kv.1 kv.2) e))
    exact ih (wf_set hd (he kv (List.mem_cons_self ..))) fun kv' h => he kv' (List.mem_cons_of_mem _ h)

theorem depthMembers_le_iff {kvs : Dict} {n : Nat} : depthMembers kvs ≤ n ↔ ∀ kv ∈ kvs, depth kv.2 ≤ n := by
  induction kvs with
  | nil => simp [depthMembers]
  | cons kv kvs ih => simp [depthMembers, ih]

theorem intDigitsMembers_le_iff {kvs : Dict} {n : Nat} :
    intDigitsMembers kvs ≤ n ↔ ∀ kv ∈ kvs, intDigits kv.2 ≤ n := by
  induction kvs with
  | nil => simp [intDigitsMembers]
  | cons kv kvs ih => simp [intDigitsMembers, ih]

theorem sortKeysMembers_keys (kvs : Dict) : (sortKeysMembers kvs).map Prod.fst = kvs.map Prod.fst := by
  induction kvs with
  | nil => rfl
  | cons kv kvs ih => simp [sortKeysMembers, ih]

theorem Dict.get_sortKeysMembers (kvs : Dict) (k : String) : Dict.get (sortKeysMembers kvs) k = sortKeys (Dict.get kvs k) := by
  induction kvs with
  | nil => simp [sortKeysMembers, Dict.get, sortKeys]
  | cons kv kvs ih =>
    by_cases h : kv.1 = k
    · simp [sortKeysMembers, Dict.get, h]
    · simp [sortKeysMembers, Dict.get, h, ih]

/-- Sorting the keys of a dict changes no lookup but for the order inside the value. -/
theorem Dict.get_sortItems {kvs : Dict} (h : (kvs.map Prod.fst).Nodup) (k : String) :
    Dict.get (sortItems (sortKeysMembers kvs)) k = sortKeys (Dict.get kvs k) := by
  have hn : ((sortItems (sortKeysMembers kvs)).map Prod.fst).Nodup := by
    rw [((sortItems_perm _).map Prod.fst).nodup_iff, sortKeysMembers_keys]
    exact h
  rw [Dict.get_perm (sortItems_perm _) hn, Dict.get_sortKeysMembers]

mutual
theorem wf_sortKeys : (v : Json) → WF v → WF (sortKeys v)
  | .arr xs, h => wf_sortKeysElems xs h
  | .obj kvs, h => by
    have hp := sortItems_perm (sortKeysMembers kvs)
    refine ⟨?_, wfMembers_iff.2 fun kv hkv => ?_⟩
    · rw [(hp.map Prod.fst).nodup_iff, sortKeysMembers_keys]
      exact h.1
    · exact wfMembers_iff.1 (wf_sortKeysMembers kvs h.2) kv (hp.mem_iff.1 hkv)
  | .null, h | .bool _, h | .int _, h | .float _, h | .str _, h => h
theorem wf_sortKeysElems : (xs : List Json) → WFElems xs → WFElems (sortKeysElems xs)
  | [], h => h
  | x :: xs, h => ⟨wf_sortKeys x h.1, wf_sortKeysElems xs h.2⟩
theorem wf_sortKeysMembers : (kvs : Dict) → WFMembers kvs → WFMembers (sortKeysMembers kvs)
  | [], h => h
  | (_, v) :: kvs, h => ⟨wf_sortKeys v h.1, wf_sortKeysMembers kvs h.2⟩
end

mutual
theorem depth_sortKeys : (v : Json) → depth (sortKeys v) ≤ depth v
  | .arr xs => Nat.add_le_add_right (depth_sortKeysElems xs) 1
  | .obj kvs => by
    refine Nat.add_le_add_right (depthMembers_le_iff.2 fun kv hkv => ?_) 1
    exact depthMembers_le_iff.1 (depth_sortKeysMembers kvs) kv ((sortItems_perm _).mem_iff.1 hkv)
  | .null | .bool _ | .int _ | .float _ | .str _ => Nat.le_refl _
theorem depth_sortKeysElems : (xs : List Json) → depthElems (sortKeysElems xs) ≤ depthElems xs
  | [] => Nat.le_refl _
  | x :: xs => by
    have := depth_sortKeys x; have := depth_sortKeysElems xs
    simp only [sortKeysElems, depthElems]; omega
theorem depth_sortKeysMembers : (kvs : Dict) → depthMembers (sortKeysMembers kvs) ≤ depthMembers kvs
  | [] => Nat.le_refl _
  | (_, v) :: kvs => by
    have := depth_sortKeys v; have := depth_sortKeysMembers kvs
    simp only [sortKeysMembers, depthMembers]; omega
end

mutual
theorem intDigits_sortKeys : (v : Json) → intDigits (sortKeys v) ≤ intDigits v
  | .arr xs => intDigits_sortKeysElems xs
  | .obj kvs => by
    refine intDigitsMembers_le_iff.2 fun kv hkv => ?_
    exact intDigitsMembers_le_iff.1 (intDigits_sortKeysMembers kvs) kv ((sortItems_perm _).mem_iff.1 hkv)
  | .null | .bool _ | .int _ | .float _ | .str _ => Nat.le_refl _
theorem intDigits_sortKeysElems : (xs : List Json) → intDigitsElems (sortKeysElems xs) ≤ intDigitsElems xs
  | [] => Nat.le_refl _
  | x :: xs => by
    have := intDigits_sortKeys x; have := intDigits_sortKeysElems xs
    simp only [sortKeysElems, intDigitsElems]; omega
theorem intDigits_sortKeysMembers : (kvs : Dict) → intDigitsMembers (sortKeysMembers kvs) ≤ intDigitsMembers kvs
  | [] => Nat.le_refl _
  | (_, v) :: kvs => by
    have := intDigits_sortKeys v; have := intDigits_sortKeysMembers kvs
    simp only [sortKeysMembers, intDigitsMembers]; omega
end

/-! ## Whole documents -/

theorem loads_encode (st : Style) {lim : Limits} {v : Json} (hw : WF v) (hd : depth v ≤ lim.nesting)
    (hn : intDigits v ≤ lim.digits) : loads lim (String.ofList (encode st v)) = .ok v := by
  obtain ⟨c, r, hcr, hws, -, hbom⟩ := opens_encode st v
  have hsk : skipWs (encode st v) = encode st v := (opens_encode st v).skipWs
  have hp := parseValue_encode st lim.digits v hw hn (2 * (encode st v).length + 2) lim.nesting [] (by omega) hd
    stops_nil
  rw [List.append_nil] at hp
  unfold loads
  rw [String.toList_ofList]
  split
  · rename_i h; rw [hcr] at h; cases h; exact absurd rfl hbom
  · rw [hsk, hp]; rfl

/-- **The round trip**: what `dumps` wrote, `loads` reads back, with its keys sorted. -/
theorem loads_dumps {lim : Limits} {st : Style} {v : Json} {t : String} (hw : WF v)
    (h : dumps lim st v = .ok t) : loads lim t = .ok (sortKeys v) := by
  unfold dumps at h
  split at h
  · cases h
  · split at h
    · cases h
    · cases h
      have := depth_sortKeys v; have := intDigits_sortKeys v
      exact loads_encode st (wf_sortKeys v hw) (by omega) (by omega)

/-- **Two values with the same text are the same value.** -/
theorem encode_injective (st : Style) {v w : Json} (hv : WF v) (hw : WF w) (h : encode st v = encode st w) :
    v = w := by
  let lim : Limits := ⟨max (depth v) (depth w), max (intDigits v) (intDigits w)⟩
  have h1 : loads lim (String.ofList (encode st v)) = .ok v :=
    loads_encode st hv (Nat.le_max_left _ _) (Nat.le_max_left _ _)
  have h2 : loads lim (String.ofList (encode st w)) = .ok w :=
    loads_encode st hw (Nat.le_max_right _ _) (Nat.le_max_right _ _)
  rw [h, h2] at h1
  exact (Except.ok.inj h1).symm

/-! ## Documents that are too deep -/

/-- A list in a list in a list, never closed. -/
def brackets (n : Nat) : List Char := List.replicate n '['

theorem skipWs_brackets (n : Nat) : skipWs (brackets n) = brackets n := by
  cases n with
  | zero => rfl
  | succ n => rw [brackets, List.replicate_succ, skipWs, List.dropWhile_cons_of_neg (by decide)]

theorem parseValue_brackets (digits : Nat) {n fuel : Nat} (h : 2 * n < fuel) :
    parseValue digits fuel n (brackets (n + 1)) = .error .recursion := by
  induction n generalizing fuel with
  | zero =>
    obtain ⟨fuel, rfl⟩ := Nat.exists_eq_add_of_lt h
    rfl
  | succ n ih =>
    obtain ⟨fuel, rfl⟩ : ∃ k, fuel = k + 2 := ⟨fuel - 2, by omega⟩
    have hinner := @ih fuel (by omega)
    have hws := skipWs_brackets (n + 1)
    rw [brackets, List.replicate_succ] at hws hinner
    have helems : parseElems digits (fuel + 1) n ('[' :: List.replicate n '[') = .error .recursion := by
      rw [parseElems, hinner]
      rfl
    rw [brackets, List.replicate_succ, List.replicate_succ, parseValue, if_neg (by decide), if_neg (by decide), if_pos rfl]
    rw [hws]
    split
    · next hclose => exact absurd (List.cons.inj hclose).1 (by decide)
    · rw [helems]
      rfl

/-- **A text of too many brackets is not read**, malformed as it is. -/
theorem loads_brackets (lim : Limits) : loads lim (String.ofList (brackets (lim.nesting + 1))) = .error .recursion := by
  have hfuel : 2 * lim.nesting < 2 * (brackets (lim.nesting + 1)).length + 2 := by
    rw [brackets, List.length_replicate]
    omega
  have hparse := parseValue_brackets lim.digits hfuel
  unfold loads
  rw [String.toList_ofList]
  split
  · next h =>
    rw [brackets, List.replicate_succ] at h
    cases h
  · rw [skipWs_brackets, hparse]

theorem loadsMended_eq {lim : Limits} {text : String} (h : '\\' ∉ text.toList) : loadsMended lim text = loads lim text := by
  rw [loadsMended, mendSurrogates_eq_self h, String.ofList_toList]

theorem loadsMended_brackets (lim : Limits) :
    loadsMended lim (String.ofList (brackets (lim.nesting + 1))) = .error .recursion := by
  rw [loadsMended_eq, loads_brackets]
  rw [String.toList_ofList]
  intro hmem
  exact absurd (List.eq_of_mem_replicate hmem) (by decide)

/-! ## A dict with sorted keys, read -/

theorem sortKeysElems_eq (xs : List Json) : sortKeysElems xs = xs.map sortKeys := by
  induction xs with
  | nil => rfl
  | cons x xs ih => rw [sortKeysElems, ih, List.map_cons]

/-- **Sorting the keys changes no lookup.** -/
theorem get_sortKeys {kvs : Dict} (hw : WF (.obj kvs)) (k : String) :
    Dict.get (sortItems (sortKeysMembers kvs)) k = sortKeys (Dict.get kvs k) :=
  Dict.get_sortItems (wf_obj_iff.1 hw).1 k

end PyJson
