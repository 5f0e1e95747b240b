/-! The 64-bit xxHash of a byte string, with seed zero. Four sums take eight bytes each of every
whole stripe of 32; the bytes that are left over are mixed in last. -/

namespace Countersign.Digest

def prime1 : UInt64 := 0x9E3779B185EBCA87
def prime2 : UInt64 := 0xC2B2AE3D27D4EB4F
def prime3 : UInt64 := 0x165667B19E3779F9
def prime4 : UInt64 := 0x85EBCA77C2B2AE63
def prime5 : UInt64 := 0x27D4EB2F165667C5

def rotateLeft (w : UInt64) (count : UInt64) : UInt64 := (w <<< count) ||| (w >>> (64 - count))

/-- The word with the given bytes, the lowest first. -/
def word (bs : List UInt8) : UInt64 := bs.foldr (fun b w => (w <<< 8) ||| b.toUInt64) 0

def round (sum input : UInt64) : UInt64 := rotateLeft (sum + input * prime2) 31 * prime1

def merge (hash sum : UInt64) : UInt64 := (hash ^^^ round 0 sum) * prime1 + prime4

structure Sums where
  a : UInt64
  b : UInt64
  c : UInt64
  d : UInt64

def Sums.start : Sums := ⟨prime1 + prime2, prime2, 0, 0 - prime1⟩

/-- The sums after one stripe. -/
def Sums.take (s : Sums) (stripe : List UInt8) : Sums :=
  ⟨round s.a (word (stripe.take 8)), round s.b (word ((stripe.drop 8).take 8)),
    round s.c (word ((stripe.drop 16).take 8)), round s.d (word ((stripe.drop 24).take 8))⟩

def Sums.hash (s : Sums) : UInt64 :=
  [s.a, s.b, s.c, s.d].foldl merge
    (rotateLeft s.a 1 + rotateLeft s.b 7 + rotateLeft s.c 12 + rotateLeft s.d 18)

/-- The sums after all whole stripes, and the bytes that are left over. -/
def stripes (s : Sums) (bs : List UInt8) : Sums × List UInt8 :=
  if 32 ≤ bs.length then stripes (s.take (bs.take 32)) (bs.drop 32) else (s, bs)
termination_by bs.length
decreasing_by simp; omega

/-- Mixes in bytes one at a time. -/
def takeBytes (hash : UInt64) (bs : List UInt8) : UInt64 :=
  bs.foldl (fun h b => rotateLeft (h ^^^ (b.toUInt64 * prime5)) 11 * prime1) hash

/-- Mixes in four bytes at once, if there are four. -/
def takeHalf (hash : UInt64) (bs : List UInt8) : UInt64 :=
  if 4 ≤ bs.length then
    takeBytes (rotateLeft (hash ^^^ (word (bs.take 4) * prime1)) 23 * prime2 + prime3) (bs.drop 4)
  else takeBytes hash bs

/-- Mixes in fewer than 32 bytes, eight at once as long as there are eight. -/
def takeRest (hash : UInt64) (bs : List UInt8) : UInt64 :=
  if 8 ≤ bs.length then
    takeRest (rotateLeft (hash ^^^ round 0 (word (bs.take 8))) 27 * prime1 + prime4) (bs.drop 8)
  else takeHalf hash bs
termination_by bs.length
decreasing_by simp; omega

/-- Spreads every bit over the whole word. -/
def spread (hash : UInt64) : UInt64 :=
  let h := (hash ^^^ (hash >>> 33)) * prime2
  let h := (h ^^^ (h >>> 29)) * prime3
  h ^^^ (h >>> 32)

def xxh64 (bs : List UInt8) : UInt64 :=
  let length := UInt64.ofNat bs.length
  if 32 ≤ bs.length then
    let (sums, rest) := stripes Sums.start bs
    spread (takeRest (sums.hash + length) rest)
  else spread (takeRest (prime5 + length) bs)

example : xxh64 [] = 0xEF46DB3751D8E999 := by decide +kernel
example : xxh64 [97] = 0xD24EC4F1A98C6E5B := by decide +kernel

end Countersign.Digest
