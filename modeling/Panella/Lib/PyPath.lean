import Mathlib.Data.List.Basic

/-!
# Names of files in Python

A text may hold lone surrogates, so it is a list of code points. `os.fsencode` writes UTF-8, and a lone surrogate U+DC80 to
U+DCFF as one byte; two texts can be one name. A call with a text that cannot be encoded, or with a NUL in it, raises.
-/

namespace PyPath

abbrev CodePoint := Fin 0x110000

abbrev Bytes := List UInt8

def ofChar (c : Char) : CodePoint := ⟨c.toNat, by
  rcases c.valid with h | h
  · exact Nat.lt_trans h (by decide)
  · exact h.2⟩

/-- A text without lone surrogates. -/
def text (s : String) : List CodePoint := s.toList.map ofChar

def encodePoint (c : CodePoint) : Option Bytes :=
  let n := c.val
  if n < 0x80 then some [.ofNat n]
  else if n < 0x800 then some [.ofNat (0xC0 + n / 64), .ofNat (0x80 + n % 64)]
  else if 0xDC80 ≤ n ∧ n < 0xDD00 then some [.ofNat (n - 0xDC00)]
  else if 0xD800 ≤ n ∧ n < 0xE000 then none
  else if n < 0x10000 then some [.ofNat (0xE0 + n / 4096), .ofNat (0x80 + n / 64 % 64), .ofNat (0x80 + n % 64)]
  else some [.ofNat (0xF0 + n / 262144), .ofNat (0x80 + n / 4096 % 64), .ofNat (0x80 + n / 64 % 64), .ofNat (0x80 + n % 64)]

/-- `os.fsencode`. -/
def fsencode : List CodePoint → Option Bytes
  | [] => some []
  | c :: cs => (encodePoint c).bind fun b => (fsencode cs).map (b ++ ·)

/-- The name of the file; none where the call raises. -/
def path (t : List CodePoint) : Option Bytes := (fsencode t).filter fun bytes => (0 : UInt8) ∉ bytes

theorem fsencode_append (s t : List CodePoint) :
    fsencode (s ++ t) = (fsencode s).bind fun a => (fsencode t).map (a ++ ·) := by
  induction s with
  | nil => simp [fsencode]
  | cons c s ih =>
    rw [List.cons_append, fsencode, fsencode, ih]
    cases encodePoint c with
    | none => rfl
    | some b =>
      cases fsencode s with
      | none => rfl
      | some a => cases fsencode t <;> simp

/-- A name with an ending that can be encoded. -/
theorem path_append {s t : List CodePoint} {b : Bytes} (ht : path t = some b) : path (s ++ t) = (path s).map (· ++ b) := by
  obtain ⟨henc, hnul⟩ := Option.filter_eq_some_iff.1 ht
  rw [path, path, fsencode_append, henc]
  cases fsencode s with
  | none => rfl
  | some a =>
    have hb : (0 : UInt8) ∉ b := by simpa using hnul
    by_cases ha : (0 : UInt8) ∈ a <;> simp [Option.filter, ha, hb]

-- `é`, and its two bytes escaped
example : path [0xE9] = path [0xDCC3, 0xDCA9] := by decide

end PyPath
