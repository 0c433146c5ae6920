import Mathlib.Algebra.Ring.Nat
import Mathlib.Data.List.Basic

/-!
# UTF-8 cut at a byte

A cut inside the bytes of a character leaves bytes where no character starts (`decode_cut`): the first of them asks for more
than is left, and the others only continue. So what can be read of a cut text is `longestFit`, the longest of its prefixes that
the cut leaves whole.
-/

namespace Utf8Cut

open ByteArray

/-- The bytes of a text. -/
def byteCount (cs : List Char) : Nat := (cs.map Char.utf8Size).sum

@[simp] theorem byteCount_nil : byteCount [] = 0 := rfl

@[simp] theorem byteCount_cons (c : Char) (cs : List Char) : byteCount (c :: cs) = c.utf8Size + byteCount cs := rfl

theorem length_encode (cs : List Char) : (cs.flatMap String.utf8EncodeChar).length = byteCount cs := by
  induction cs with
  | nil => rfl
  | cons c cs ih => rw [List.flatMap_cons, List.length_append, String.length_utf8EncodeChar, ih, byteCount_cons]

/-! ## The cut character -/

theorem decode_encoded (c : Char) (rest : List UInt8) :
    utf8DecodeChar? ⟨(String.utf8EncodeChar c ++ rest).toArray⟩ 0 = some c := by
  have hbytes : (⟨(String.utf8EncodeChar c ++ rest).toArray⟩ : ByteArray) =
      (String.utf8EncodeChar c).toByteArray ++ rest.toByteArray := by
    rw [← List.toByteArray_append]
    ext1
    simp
  rw [hbytes, utf8DecodeChar?_utf8EncodeChar_append]

/-- **No character starts in what is left of one that is cut.** -/
theorem decode_cut {c : Char} {k : Nat} (hk : k < c.utf8Size) (i : Nat) :
    utf8DecodeChar? ⟨(((String.utf8EncodeChar c).take k).drop i).toArray⟩ 0 = none := by
  rw [Option.eq_none_iff_forall_ne_some]
  intro d hd
  have hsize := le_size_of_utf8DecodeChar?_eq_some hd
  have hlen : (String.utf8EncodeChar c).length = c.utf8Size := String.length_utf8EncodeChar c
  have hpos := d.utf8Size_pos
  simp only [ByteArray.size, List.size_toArray, List.length_drop, List.length_take, hlen] at hsize
  -- what starts in the rest starts in the whole character too
  have hwhole := utf8DecodeChar?_append_eq_some hd ((String.utf8EncodeChar c).drop k).toByteArray
  have hjoin : (⟨(((String.utf8EncodeChar c).take k).drop i).toArray⟩ : ByteArray) ++
      ((String.utf8EncodeChar c).drop k).toByteArray = ((String.utf8EncodeChar c).drop i).toByteArray := by
    have hsplit : ((String.utf8EncodeChar c).take k).drop i ++ (String.utf8EncodeChar c).drop k =
        (String.utf8EncodeChar c).drop i := by
      rw [← List.drop_append_of_le_length (by rw [List.length_take, hlen]; omega), List.take_append_drop]
    rw [← hsplit, List.toByteArray_append]
    congr 1
    ext1
    simp
  rw [hjoin] at hwhole
  by_cases hi : i = 0
  · subst hi
    have hself := utf8DecodeChar?_utf8EncodeChar_append (b := ByteArray.empty) (c := c)
    rw [ByteArray.append_empty] at hself
    rw [List.drop_zero, hself] at hwhole
    cases hwhole
    omega
  · have hfirst := isUTF8FirstByte_of_isSome_utf8DecodeChar? (Option.isSome_of_eq_some hwhole)
    rw [List.getElem_toByteArray, List.getElem_drop, UInt8.isUTF8FirstByte_getElem_utf8EncodeChar] at hfirst
    omega

/-! ## The longest prefix that fits -/

/-- The characters whose bytes end by `limit`. -/
def longestFit : Nat → List Char → List Char
  | _, [] => []
  | limit, c :: cs => if c.utf8Size ≤ limit then c :: longestFit (limit - c.utf8Size) cs else []

theorem longestFit_isPrefix (limit : Nat) (cs : List Char) : longestFit limit cs <+: cs := by
  fun_induction longestFit limit cs with
  | case1 => exact List.prefix_rfl
  | case2 limit c cs _ ih => exact List.cons_prefix_cons.2 ⟨rfl, ih⟩
  | case3 => exact List.nil_prefix

theorem byteCount_longestFit (limit : Nat) (cs : List Char) : byteCount (longestFit limit cs) ≤ limit := by
  fun_induction longestFit limit cs with
  | case1 => exact Nat.zero_le _
  | case2 limit c cs hfits ih =>
    rw [byteCount_cons]
    omega
  | case3 => exact Nat.zero_le _

/-- No prefix that fits is longer. -/
theorem prefix_longestFit {limit : Nat} {cs p : List Char} (hp : p <+: cs) (hfits : byteCount p ≤ limit) :
    p <+: longestFit limit cs := by
  induction cs generalizing limit p with
  | nil =>
    rw [List.prefix_nil.1 hp]
    exact List.nil_prefix
  | cons c cs ih =>
    cases p with
    | nil => exact List.nil_prefix
    | cons d p =>
      obtain ⟨rfl, hrest⟩ := List.cons_prefix_cons.1 hp
      rw [byteCount_cons] at hfits
      rw [longestFit, if_pos (by omega)]
      exact List.cons_prefix_cons.2 ⟨rfl, ih hrest (by omega)⟩

/-! ## Cuts at a character of ASCII -/

/-- The bytes of a text. -/
def IsText (bs : List UInt8) : Prop := ∃ cs : List Char, bs = cs.flatMap String.utf8EncodeChar

theorem isText_nil : IsText [] := ⟨[], rfl⟩

theorem IsText.append {xs ys : List UInt8} (hxs : IsText xs) (hys : IsText ys) : IsText (xs ++ ys) := by
  obtain ⟨cs, rfl⟩ := hxs
  obtain ⟨ds, rfl⟩ := hys
  exact ⟨cs ++ ds, List.flatMap_append.symm⟩

theorem encode_ascii {b : UInt8} (hb : b < 128) : String.utf8EncodeChar (Char.ofNat b.toNat) = [b] := by
  have hall : ∀ n ∈ List.range 128, String.utf8EncodeChar (Char.ofNat n) = [n.toUInt8] := by decide +kernel
  have hn := hall b.toNat (List.mem_range.2 (UInt8.lt_iff_toNat_lt.1 hb))
  rw [hn]
  simp

theorem isText_ascii {b : UInt8} (hb : b < 128) : IsText [b] := ⟨[Char.ofNat b.toNat], by simp [encode_ascii hb]⟩

theorem isText_of_ascii {bs : List UInt8} (h : ∀ b ∈ bs, b < 128) : IsText bs := by
  induction bs with
  | nil => exact isText_nil
  | cons b bs ih =>
    obtain ⟨hb, hbs⟩ := List.forall_mem_cons.1 h
    have hcut : IsText ([b] ++ bs) := (isText_ascii hb).append (ih hbs)
    exact hcut

/-- A byte of ASCII stands for itself wherever it is. -/
theorem encode_of_mem {c : Char} {xs ys : List UInt8} {b : UInt8} (hb : b < 128)
    (h : String.utf8EncodeChar c = xs ++ b :: ys) : xs = [] ∧ ys = [] := by
  have hfirst : b.IsUTF8FirstByte := by
    have hall : ∀ n ∈ List.range 128, (n.toUInt8).IsUTF8FirstByte := by decide +kernel
    have hn := hall b.toNat (List.mem_range.2 (UInt8.lt_iff_toNat_lt.1 hb))
    simpa using hn
  have hxs : xs = [] := by
    have hlen : xs.length < (String.utf8EncodeChar c).length := by
      rw [h, List.length_append, List.length_cons]
      omega
    have hat : (String.utf8EncodeChar c)[xs.length] = b := by simp [h]
    rw [← hat, UInt8.isUTF8FirstByte_getElem_utf8EncodeChar] at hfirst
    exact List.length_eq_zero_iff.1 hfirst
  subst hxs
  -- the byte alone decodes to its character, and so do the bytes of `c`
  have hself := decode_encoded c []
  have hbyte := decode_encoded (Char.ofNat b.toNat) ys
  rw [List.append_nil, h] at hself
  rw [encode_ascii hb] at hbyte
  have hc : c = Char.ofNat b.toNat := Option.some.inj (hself.symm.trans hbyte)
  rw [hc, encode_ascii hb] at h
  exact ⟨rfl, by simpa using h.symm⟩

/-- **A text cut at a byte of ASCII is two texts.** -/
theorem IsText.split {xs ys : List UInt8} {b : UInt8} (h : IsText (xs ++ b :: ys)) (hb : b < 128) :
    IsText xs ∧ IsText ys := by
  obtain ⟨cs, hcs⟩ := h
  induction cs generalizing xs with
  | nil => simp at hcs
  | cons c cs ih =>
    rw [List.flatMap_cons] at hcs
    rcases List.append_eq_append_iff.1 hcs with ⟨mid, hhead, htail⟩ | ⟨mid, hhead, htail⟩
    · cases mid with
      | nil =>
        have hrest : IsText [] ∧ IsText ys := ih htail
        rw [List.append_nil] at hhead
        exact ⟨⟨[c], by simp [hhead]⟩, hrest.2⟩
      | cons b' mid =>
        obtain ⟨rfl, htail⟩ := List.cons.inj htail
        obtain ⟨rfl, rfl⟩ := encode_of_mem hb hhead
        exact ⟨isText_nil, ⟨cs, by simpa using htail⟩⟩
    · obtain ⟨hmid, hys⟩ := ih htail.symm
      rw [hhead]
      exact ⟨(show IsText (String.utf8EncodeChar c) from ⟨[c], by simp⟩).append hmid, hys⟩

/-- A text without the ASCII it starts with. -/
theorem IsText.of_append {xs ys : List UInt8} (h : IsText (xs ++ ys)) (hxs : ∀ b ∈ xs, b < 128) : IsText ys := by
  induction xs with
  | nil => exact h
  | cons b xs ih =>
    obtain ⟨hb, hxs⟩ := List.forall_mem_cons.1 hxs
    have hcut : IsText ([] ++ b :: (xs ++ ys)) := h
    exact ih (hcut.split hb).2 hxs

/-! ## Decoding -/

/-- `fuel` bounds the number of characters. -/
def decodeFrom : Nat → List UInt8 → Option (List Char)
  | _, [] => some []
  | 0, _ :: _ => none
  | fuel + 1, b :: bs =>
    match utf8DecodeChar? ⟨(b :: bs).toArray⟩ 0 with
    | some c => (decodeFrom fuel ((b :: bs).drop c.utf8Size)).map (c :: ·)
    | none => none

/-- `bs.decode("utf-8")`; `none` where it raises. -/
def decode (bs : List UInt8) : Option String := (decodeFrom bs.length bs).map String.ofList

theorem decode_text {bs : List UInt8} (h : IsText bs) : ∃ s, decode bs = some s := by
  obtain ⟨cs, rfl⟩ := h
  suffices hgo : ∀ fuel, (cs.flatMap String.utf8EncodeChar).length ≤ fuel →
      decodeFrom fuel (cs.flatMap String.utf8EncodeChar) = some cs from
    ⟨String.ofList cs, by rw [decode, hgo _ (Nat.le_refl _), Option.map_some]⟩
  induction cs with
  | nil =>
    intro fuel _
    cases fuel <;> rfl
  | cons c cs ih =>
    intro fuel hfuel
    have hlen := String.length_utf8EncodeChar c
    have hpos := c.utf8Size_pos
    have hstart := decode_encoded c (cs.flatMap String.utf8EncodeChar)
    have hdrop : (String.utf8EncodeChar c ++ cs.flatMap String.utf8EncodeChar).drop c.utf8Size =
        cs.flatMap String.utf8EncodeChar := by rw [← hlen, List.drop_left]
    rw [List.flatMap_cons] at hfuel ⊢
    rw [List.length_append] at hfuel
    obtain ⟨fuel, rfl⟩ : ∃ n, fuel = n + 1 := ⟨fuel - 1, by omega⟩
    have hrest := ih fuel (by omega)
    cases hbytes : String.utf8EncodeChar c ++ cs.flatMap String.utf8EncodeChar with
    | nil =>
      have hempty := (List.append_eq_nil_iff.1 hbytes).1
      rw [hempty, List.length_nil] at hlen
      omega
    | cons b bs =>
      rw [hbytes] at hstart hdrop
      rw [decodeFrom, hstart]
      dsimp only
      rw [hdrop, hrest, Option.map_some]

/-- What is decoded is the text that the bytes are of. -/
theorem decode_eq {bs : List UInt8} {s : String} (h : decode bs = some s) : bs = s.toList.flatMap String.utf8EncodeChar := by
  obtain ⟨cs, hcs, rfl⟩ := Option.map_eq_some_iff.1 h
  rw [String.toList_ofList]
  suffices hgo : ∀ fuel, decodeFrom fuel bs = some cs → bs = cs.flatMap String.utf8EncodeChar from hgo _ hcs
  clear h hcs
  intro fuel
  induction fuel generalizing bs cs with
  | zero =>
    intro h
    cases bs with
    | nil =>
      cases h
      rfl
    | cons b bs => cases h
  | succ fuel ih =>
    intro h
    cases bs with
    | nil =>
      cases h
      rfl
    | cons b bs =>
      rw [decodeFrom] at h
      split at h
      · next c hchar =>
        obtain ⟨ds, hds, rfl⟩ := Option.map_eq_some_iff.1 h
        obtain ⟨l, hl⟩ := exists_of_utf8DecodeChar?_eq_some hchar
        have hbytes : b :: bs = String.utf8EncodeChar c ++ l.data.toList := by
          have hdata := congrArg (fun b : ByteArray => b.data.toList) hl
          simpa using hdata
        have hrest : (b :: bs).drop c.utf8Size = l.data.toList := by
          rw [hbytes, ← String.length_utf8EncodeChar c, List.drop_left]
        rw [List.flatMap_cons, ← ih ds hds, hrest, ← hbytes]
      · cases h

end Utf8Cut
