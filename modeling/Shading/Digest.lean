/-! # The 64-bit digest behind type identities

    The xxHash digest of a byte string, 64-bit variant.  The input is cut
    into stripes of 32 bytes, each stripe into four lanes of eight bytes,
    and every lane feeds one of four accumulators.  What is left over is
    folded in words of eight, four and one byte, and a final avalanche
    spreads every input bit over the result.  All arithmetic wraps at 64
    bits, and words are read least significant byte first. -/

namespace Shading.Digest

def prime1 : UInt64 := 0x9E3779B185EBCA87
def prime2 : UInt64 := 0xC2B2AE3D27D4EB4F
def prime3 : UInt64 := 0x165667B19E3779F9
def prime4 : UInt64 := 0x85EBCA77C2B2AE63
def prime5 : UInt64 := 0x27D4EB2F165667C5

/-- Rotate a word to the left by `0 < r < 64` bits. -/
def rotateLeft (w r : UInt64) : UInt64 := (w <<< r) ||| (w >>> (64 - r))

/-- The word with the given bytes, least significant first. -/
def word : List UInt8 → UInt64
  | [] => 0
  | b :: bs => b.toUInt64 ||| (word bs <<< 8)

/-- Feed one lane into an accumulator. -/
def round (acc lane : UInt64) : UInt64 :=
  rotateLeft (acc + lane * prime2) 31 * prime1

/-- The four accumulators of the striped part. -/
structure Lanes where
  a : UInt64
  b : UInt64
  c : UInt64
  d : UInt64

/-- The accumulators before the first stripe. -/
def Lanes.start (seed : UInt64) : Lanes :=
  ⟨seed + prime1 + prime2, seed + prime2, seed, seed - prime1⟩

/-- Feed one stripe of 32 bytes. -/
def Lanes.feed (l : Lanes) (stripe : List UInt8) : Lanes where
  a := round l.a (word (stripe.take 8))
  b := round l.b (word ((stripe.drop 8).take 8))
  c := round l.c (word ((stripe.drop 16).take 8))
  d := round l.d (word ((stripe.drop 24).take 8))

/-- Merge one accumulator into the digest. -/
def merge (h lane : UInt64) : UInt64 := (h ^^^ round 0 lane) * prime1 + prime4

/-- Join the four accumulators into one word. -/
def Lanes.join (l : Lanes) : UInt64 :=
  let h := rotateLeft l.a 1 + rotateLeft l.b 7 + rotateLeft l.c 12 + rotateLeft l.d 18
  merge (merge (merge (merge h l.a) l.b) l.c) l.d

/-- Feed `n` stripes and return the accumulators with the bytes left over. -/
def stripes : (n : Nat) → Lanes → List UInt8 → Lanes × List UInt8
  | 0, l, bytes => (l, bytes)
  | n + 1, l, bytes => stripes n (l.feed (bytes.take 32)) (bytes.drop 32)

/-- Fold `n` words of eight bytes. -/
def foldWords : (n : Nat) → UInt64 → List UInt8 → UInt64 × List UInt8
  | 0, h, bytes => (h, bytes)
  | n + 1, h, bytes =>
    let h := rotateLeft (h ^^^ round 0 (word (bytes.take 8))) 27 * prime1 + prime4
    foldWords n h (bytes.drop 8)

/-- Fold one word of four bytes, if there is one. -/
def foldHalf (h : UInt64) (bytes : List UInt8) : UInt64 × List UInt8 :=
  if 4 ≤ bytes.length then
    (rotateLeft (h ^^^ word (bytes.take 4) * prime1) 23 * prime2 + prime3, bytes.drop 4)
  else (h, bytes)

/-- Fold single bytes. -/
def foldBytes (h : UInt64) (bytes : List UInt8) : UInt64 :=
  bytes.foldl (fun h b => rotateLeft (h ^^^ b.toUInt64 * prime5) 11 * prime1) h

/-- Spread every bit over the whole word. -/
def avalanche (h : UInt64) : UInt64 :=
  let h := (h ^^^ (h >>> 33)) * prime2
  let h := (h ^^^ (h >>> 29)) * prime3
  h ^^^ (h >>> 32)

/-- The digest of a byte string under a seed. -/
def ofBytes (bytes : List UInt8) (seed : UInt64) : UInt64 :=
  let n := bytes.length
  let (h, rest) :=
    if 32 ≤ n then
      let (l, rest) := stripes (n / 32) (Lanes.start seed) bytes
      (l.join, rest)
    else (seed + prime5, bytes)
  let (h, rest) := foldWords (rest.length / 8) (h + n.toUInt64) rest
  let (h, rest) := foldHalf h rest
  avalanche (foldBytes h rest)

/-- The digest of a text in its UTF-8 form, with seed zero. -/
def ofText (s : String) : UInt64 := ofBytes (s.toList.flatMap String.utf8EncodeChar) 0

end Shading.Digest
