import Mathlib.Data.List.Basic

/-!
# SHA-256

The digest of FIPS 180-4 on bytes, and its lowercase hex text (`hashlib.sha256(b).hexdigest()`).
Everything is structurally recursive on the block count and the round constants, so a digest can be
evaluated. The one general fact is **`length_hexdigest`**: the text always has 64 characters.
-/

namespace Sha256

abbrev Word := BitVec 32

/-- The round constants. -/
def roundConstants : List Word := [
  0x428a2f98, 0x71374491, 0xb5c0fbcf, 0xe9b5dba5, 0x3956c25b, 0x59f111f1, 0x923f82a4, 0xab1c5ed5,
  0xd807aa98, 0x12835b01, 0x243185be, 0x550c7dc3, 0x72be5d74, 0x80deb1fe, 0x9bdc06a7, 0xc19bf174,
  0xe49b69c1, 0xefbe4786, 0x0fc19dc6, 0x240ca1cc, 0x2de92c6f, 0x4a7484aa, 0x5cb0a9dc, 0x76f988da,
  0x983e5152, 0xa831c66d, 0xb00327c8, 0xbf597fc7, 0xc6e00bf3, 0xd5a79147, 0x06ca6351, 0x14292967,
  0x27b70a85, 0x2e1b2138, 0x4d2c6dfc, 0x53380d13, 0x650a7354, 0x766a0abb, 0x81c2c92e, 0x92722c85,
  0xa2bfe8a1, 0xa81a664b, 0xc24b8b70, 0xc76c51a3, 0xd192e819, 0xd6990624, 0xf40e3585, 0x106aa070,
  0x19a4c116, 0x1e376c08, 0x2748774c, 0x34b0bcb5, 0x391c0cb3, 0x4ed8aa4a, 0x5b9cca4f, 0x682e6ff3,
  0x748f82ee, 0x78a5636f, 0x84c87814, 0x8cc70208, 0x90befffa, 0xa4506ceb, 0xbef9a3f7, 0xc67178f2]

def ch (x y z : Word) : Word := (x &&& y) ^^^ (~~~x &&& z)
def maj (x y z : Word) : Word := (x &&& y) ^^^ (x &&& z) ^^^ (y &&& z)
def bigSigma0 (x : Word) : Word := x.rotateRight 2 ^^^ x.rotateRight 13 ^^^ x.rotateRight 22
def bigSigma1 (x : Word) : Word := x.rotateRight 6 ^^^ x.rotateRight 11 ^^^ x.rotateRight 25
def smallSigma0 (x : Word) : Word := x.rotateRight 7 ^^^ x.rotateRight 18 ^^^ (x >>> 3)
def smallSigma1 (x : Word) : Word := x.rotateRight 17 ^^^ x.rotateRight 19 ^^^ (x >>> 10)

/-- The eight working variables. -/
structure Regs where
  (a b c d e f g h : Word)

def Regs.init : Regs :=
  ⟨0x6a09e667, 0xbb67ae85, 0x3c6ef372, 0xa54ff53a, 0x510e527f, 0x9b05688c, 0x1f83d9ab, 0x5be0cd19⟩

def Regs.add (s t : Regs) : Regs :=
  ⟨s.a + t.a, s.b + t.b, s.c + t.c, s.d + t.d, s.e + t.e, s.f + t.f, s.g + t.g, s.h + t.h⟩

/-- The rounds, over the sliding window of the last 16 message words. -/
def rounds : List Word → List Word → Regs → Regs
  | k :: ks, [w0, w1, w2, w3, w4, w5, w6, w7, w8, w9, w10, w11, w12, w13, w14, w15], s =>
    let t1 := s.h + bigSigma1 s.e + ch s.e s.f s.g + k + w0
    let t2 := bigSigma0 s.a + maj s.a s.b s.c
    let w16 := smallSigma1 w14 + w9 + smallSigma0 w1 + w0
    rounds ks [w1, w2, w3, w4, w5, w6, w7, w8, w9, w10, w11, w12, w13, w14, w15, w16]
      ⟨t1 + t2, s.a, s.b, s.c, s.d + t1, s.e, s.f, s.g⟩
  | _, _, s => s

/-- Big-endian bytes as a word. -/
def wordOf (bs : List UInt8) : Word := bs.foldl (fun acc b => acc * 256 + BitVec.ofNat 32 b.toNat) 0

def wordsOf : Nat → List UInt8 → List Word
  | 0, _ => []
  | n + 1, bs => wordOf (bs.take 4) :: wordsOf n (bs.drop 4)

def blocks : Nat → List UInt8 → Regs → Regs
  | 0, _, s => s
  | n + 1, bs, s => blocks n (bs.drop 64) (s.add (rounds roundConstants (wordsOf 16 (bs.take 64)) s))

def bigEndian64 (n : Nat) : List UInt8 := [56, 48, 40, 32, 24, 16, 8, 0].map fun s => UInt8.ofNat (n >>> s)

/-- A one bit, zeros up to the last eight bytes of a block, the length in bits. -/
def pad (bs : List UInt8) : List UInt8 :=
  bs ++ 0x80 :: List.replicate ((119 - bs.length % 64) % 64) 0 ++ bigEndian64 (8 * bs.length)

def digest (bs : List UInt8) : Regs := blocks ((pad bs).length / 64) (pad bs) Regs.init

def hexWord (w : Word) : List Char :=
  [28, 24, 20, 16, 12, 8, 4, 0].map fun s => Nat.digitChar ((w.toNat >>> s) % 16)

def Regs.hex (s : Regs) : List Char := [s.a, s.b, s.c, s.d, s.e, s.f, s.g, s.h].flatMap hexWord

/-- `hashlib.sha256(bs).hexdigest()`. -/
def hexdigest (bs : List UInt8) : String := String.ofList (digest bs).hex

/-- `s.encode("utf-8")`. -/
def utf8 (s : String) : List UInt8 := s.toByteArray.data.toList

theorem utf8_injective : Function.Injective utf8 := by
  intro s t h
  have : s.toByteArray = t.toByteArray := ByteArray.ext (Array.toList_inj.1 h)
  exact String.toByteArray_inj.1 this

/-- **A digest's text has 64 characters**, whatever was hashed. -/
theorem length_hexdigest (bs : List UInt8) : (hexdigest bs).toList.length = 64 := by
  simp [hexdigest, Regs.hex, hexWord]

/-- They are lower-case hexadecimal digits. -/
theorem mem_hexdigest {bs : List UInt8} {c : Char} (hc : c ∈ (hexdigest bs).toList) : c ∈ "0123456789abcdef".toList := by
  have hdigit : ∀ n < 16, Nat.digitChar n ∈ "0123456789abcdef".toList := by decide
  have hword : ∀ w : Word, ∀ c ∈ hexWord w, c ∈ "0123456789abcdef".toList := by
    intro w c hc
    obtain ⟨s, -, rfl⟩ := List.mem_map.1 hc
    exact hdigit _ (Nat.mod_lt _ (by decide))
  rw [hexdigest, String.toList_ofList] at hc
  obtain ⟨w, -, hw⟩ := List.mem_flatMap.1 hc
  exact hword w c hw

end Sha256
