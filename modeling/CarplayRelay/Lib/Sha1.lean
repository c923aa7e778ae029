import CarplayRelay.Lib.BlockHash

/-!
# SHA-1

The hash of a message: it is padded to blocks of 64 bytes, and each of them is compressed into five
words with its schedule of 80 words.
-/

namespace Sha1

open Bytes

/-- Five words. -/
structure Words where
  a : UInt32
  b : UInt32
  c : UInt32
  d : UInt32
  e : UInt32
  deriving DecidableEq, Repr

def Words.add (v w : Words) : Words := ⟨v.a + w.a, v.b + w.b, v.c + w.c, v.d + w.d, v.e + w.e⟩

def Words.bytes (v : Words) : Bytes :=
  be32 v.a ++ (be32 v.b ++ (be32 v.c ++ (be32 v.d ++ be32 v.e)))

def rotl (n : UInt32) (x : UInt32) : UInt32 := x <<< n ||| x >>> (32 - n)

/-- The function of a round. -/
def f (t : Nat) (b c d : UInt32) : UInt32 :=
  if t < 20 then b &&& c ||| ~~~b &&& d
  else if t < 40 then b ^^^ c ^^^ d
  else if t < 60 then b &&& c ||| b &&& d ||| c &&& d
  else b ^^^ c ^^^ d

/-- The constant of a round. -/
def k (t : Nat) : UInt32 :=
  if t < 20 then 0x5a827999
  else if t < 40 then 0x6ed9eba1
  else if t < 60 then 0x8f1bbcdc
  else 0xca62c1d6

/-- The words of a block, and those derived from them. -/
def schedule (block : Bytes) (t : Nat) : UInt32 :=
  if t < 16 then ofBe32 (block.drop (4 * t))
  else rotl 1 (schedule block (t - 3) ^^^ schedule block (t - 8) ^^^ schedule block (t - 14) ^^^
    schedule block (t - 16))

def round (w : Nat → UInt32) (v : Words) (t : Nat) : Words :=
  ⟨rotl 5 v.a + f t v.b v.c v.d + v.e + k t + w t, v.a, rotl 30 v.b, v.c, v.d⟩

def compress (h : Words) (block : Bytes) : Words :=
  h.add ((List.range 80).foldl (round (schedule block)) h)

def initial : Words := ⟨0x67452301, 0xefcdab89, 0x98badcfe, 0x10325476, 0xc3d2e1f0⟩

/-- The length of a message in bits, in eight bytes. -/
def lengthBytes (m : Bytes) : Bytes :=
  be32 (UInt32.ofNat (8 * m.length / 2 ^ 32)) ++ be32 (UInt32.ofNat (8 * m.length))

/-- What a message is padded with. -/
def padding (m : Bytes) : Bytes :=
  0x80 :: (List.replicate ((119 - m.length % 64) % 64) 0 ++ lengthBytes m)

def digest (m : Bytes) : Bytes := (BlockHash.run 64 compress initial (m ++ padding m)).bytes

theorem length_digest (m : Bytes) : (digest m).length = 20 := by
  simp [digest, Words.bytes]

theorem schedule_lt {block : Bytes} {t : Nat} (h : t < 16) :
    schedule block t = ofBe32 (block.drop (4 * t)) := by
  rw [schedule, if_pos h]

theorem schedule_ge {block : Bytes} {t : Nat} (h : 16 ≤ t) :
    schedule block t = rotl 1 (schedule block (t - 3) ^^^ schedule block (t - 8) ^^^
      schedule block (t - 14) ^^^ schedule block (t - 16)) := by
  rw [schedule, if_neg (Nat.not_lt.2 h)]

end Sha1
