import Panella.Lib.Utf8Cut
import Panella.Resolver.Engine

/-!
# What truncation leaves of a text (`panella/resolver/engine.py:151-170`)

`_truncate` cuts the encoded text at a byte and decodes what is left with `errors="ignore"`. The bytes of the character that
was cut are all ignored (`decodeIgnore_cut`), and no other is (`decodeIgnore_take`).
-/

namespace Panella.Resolver

open Utf8Cut

theorem utf8_eq (s : String) : Sha256.utf8 s = s.toList.flatMap String.utf8EncodeChar := by
  have hbytes : s.toByteArray = s.toList.utf8Encode := by
    rw [← String.toByteArray_ofList, String.ofList_toList]
  rw [Sha256.utf8, hbytes, List.utf8Encode]
  simp

theorem length_utf8 (s : String) : (Sha256.utf8 s).length = byteCount s.toList := by rw [utf8_eq, length_encode]

/-- Nothing of a cut character is decoded. -/
theorem decodeIgnore_cut {c : Char} {k : Nat} (hk : k < c.utf8Size) (fuel i : Nat) :
    decodeIgnore fuel (((String.utf8EncodeChar c).take k).drop i) = [] := by
  induction fuel generalizing i with
  | zero => rfl
  | succ fuel ih =>
    have hnone := decode_cut hk i
    have hrest := ih (i + 1)
    rw [← List.tail_drop] at hrest
    cases hbytes : ((String.utf8EncodeChar c).take k).drop i with
    | nil => rfl
    | cons b bs =>
      rw [hbytes] at hnone hrest
      rw [decodeIgnore, hnone]
      exact hrest

/-- **A cut encoding is decoded to the characters it leaves whole.** -/
theorem decodeIgnore_take (cs : List Char) {limit fuel : Nat} (hfuel : limit ≤ fuel) :
    decodeIgnore fuel ((cs.flatMap String.utf8EncodeChar).take limit) = longestFit limit cs := by
  induction cs generalizing limit fuel with
  | nil =>
    rw [List.flatMap_nil, List.take_nil, longestFit]
    cases fuel <;> rfl
  | cons c cs ih =>
    have hlen := String.length_utf8EncodeChar c
    have hpos := c.utf8Size_pos
    rw [List.flatMap_cons, longestFit]
    by_cases hfits : c.utf8Size ≤ limit
    · rw [if_pos hfits, List.take_append, List.take_of_length_le (by omega), hlen]
      obtain ⟨fuel, rfl⟩ : ∃ n, fuel = n + 1 := ⟨fuel - 1, by omega⟩
      have hstart := decode_encoded c ((cs.flatMap String.utf8EncodeChar).take (limit - c.utf8Size))
      have hdrop : (String.utf8EncodeChar c ++ (cs.flatMap String.utf8EncodeChar).take (limit - c.utf8Size)).drop
          c.utf8Size = (cs.flatMap String.utf8EncodeChar).take (limit - c.utf8Size) := by
        rw [← hlen, List.drop_left]
      have hrest : decodeIgnore fuel ((cs.flatMap String.utf8EncodeChar).take (limit - c.utf8Size)) =
          longestFit (limit - c.utf8Size) cs := ih (by omega)
      cases hbytes : String.utf8EncodeChar c ++ (cs.flatMap String.utf8EncodeChar).take (limit - c.utf8Size) with
      | nil =>
        have hempty := (List.append_eq_nil_iff.1 hbytes).1
        rw [hempty, List.length_nil] at hlen
        omega
      | cons b bs =>
        rw [hbytes] at hstart hdrop
        rw [decodeIgnore, hstart]
        dsimp only
        rw [hdrop, hrest]
    · have hcut := decodeIgnore_cut (Nat.lt_of_not_le hfits) fuel 0
      rw [if_neg hfits, List.take_append_of_le_length (by omega)]
      exact hcut

/-- `used` is the longest prefix of `value`, in whole code points, of at most `limit` bytes. -/
structure LongestPrefix (limit : Nat) (value used : String) : Prop where
  isPrefix : used.toList <+: value.toList
  fits : (Sha256.utf8 used).length ≤ limit
  longest : ∀ p : String, p.toList <+: value.toList → (Sha256.utf8 p).length ≤ limit → p.toList <+: used.toList

theorem truncate_eq (value : String) (limit : Nat) :
    truncate value limit = String.ofList (longestFit limit value.toList) := by
  unfold truncate
  dsimp only
  split
  · next hfits =>
    have hwhole := prefix_longestFit (List.prefix_refl value.toList) ((length_utf8 value).symm.trans_le hfits)
    have hsame := (longestFit_isPrefix limit value.toList).eq_of_length_le hwhole.length_le
    rw [hsame, String.ofList_toList]
  · next hover =>
    rw [List.length_take, Nat.min_eq_left (by omega), utf8_eq, decodeIgnore_take _ le_rfl]

theorem truncate_longest (value : String) (limit : Nat) : LongestPrefix limit value (truncate value limit) := by
  rw [truncate_eq]
  refine ⟨?_, ?_, fun p hp hfits => ?_⟩
  · rw [String.toList_ofList]
    exact longestFit_isPrefix limit value.toList
  · rw [length_utf8, String.toList_ofList]
    exact byteCount_longestFit limit value.toList
  · rw [String.toList_ofList]
    exact prefix_longestFit hp ((length_utf8 p).symm.trans_le hfits)

/-- A text that was not left as it is lost a code point. -/
theorem LongestPrefix.ne_iff {limit : Nat} {value used : String} (h : LongestPrefix limit value used) :
    used ≠ value ↔ used.length < value.length := by
  have hle := h.isPrefix.length_le
  rw [String.length_toList, String.length_toList] at hle
  constructor
  · intro hne
    refine lt_of_le_of_ne hle fun heq => hne (String.toList_inj.1 (h.isPrefix.eq_of_length ?_))
    rw [String.length_toList, String.length_toList, heq]
  · rintro hlt rfl
    exact Nat.lt_irrefl _ hlt

/-- What a truncation receipt says of a request and of the texts that are used for it. -/
structure ReceiptExact (request : ResolveRequest) (value evidence : String) (receipt : DataTruncation) : Prop where
  valueBytesOrig : receipt.valueBytesOrig = byteCount request.value.toList
  valueBytesUsed : receipt.valueBytesUsed = byteCount value.toList
  evidenceBytesOrig : receipt.evidenceBytesOrig = byteCount request.evidenceText.toList
  evidenceBytesUsed : receipt.evidenceBytesUsed = byteCount evidence.toList
  truncated : receipt.truncated = true ↔
    value.length < request.value.length ∨ evidence.length < request.evidenceText.length

/-- **Truncation is the longest valid prefix, and the receipt is exact.** -/
theorem truncation_exact :
    (∀ value limit, LongestPrefix limit value (truncate value limit)) ∧
      ∀ request, LongestPrefix 2048 request.value (truncation request).1 ∧
        LongestPrefix 4096 request.evidenceText (truncation request).2.1 ∧
        ReceiptExact request (truncation request).1 (truncation request).2.1 (truncation request).2.2 := by
  refine ⟨truncate_longest, fun request => ?_⟩
  have hvalue := truncate_longest request.value 2048
  have hevidence := truncate_longest request.evidenceText 4096
  refine ⟨hvalue, hevidence, ⟨length_utf8 _, length_utf8 _, length_utf8 _, length_utf8 _, ?_⟩⟩
  exact decide_eq_true_iff.trans (or_congr hvalue.ne_iff hevidence.ne_iff)

end Panella.Resolver
