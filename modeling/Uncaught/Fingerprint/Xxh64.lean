/-!
The 64-bit hash XXH64. Input is taken in stripes of four 8-byte lanes, then in lanes, half lanes and
bytes; the last step spreads every bit over the whole word.
-/

namespace Uncaught.Xxh64

def prime1 : UInt64 := 0x9E3779B185EBCA87
def prime2 : UInt64 := 0xC2B2AE3D27D4EB4F
def prime3 : UInt64 := 0x165667B19E3779F9
def prime4 : UInt64 := 0x85EBCA77C2B2AE63
def prime5 : UInt64 := 0x27D4EB2F165667C5

def rotate (x : UInt64) (k : UInt64) : UInt64 := (x <<< k) ||| (x >>> (64 - k))

/-- The word whose bytes are given, least significant first. -/
def word (bytes : List UInt8) : UInt64 :=
  bytes.foldr (fun b n => (n <<< 8) ||| b.toUInt64) 0

def round (acc lane : UInt64) : UInt64 := rotate (acc + lane * prime2) 31 * prime1

def merge (acc lane : UInt64) : UInt64 := (acc ^^^ round 0 lane) * prime1 + prime4

/-- The state while stripes are taken in. -/
structure Lanes where
  a : UInt64
  b : UInt64
  c : UInt64
  d : UInt64

def Lanes.start (seed : UInt64) : Lanes :=
  ⟨seed + prime1 + prime2, seed + prime2, seed, seed - prime1⟩

/-- Takes in `n` stripes, and gives the bytes after them. -/
def Lanes.stripes : Nat → Lanes → List UInt8 → Lanes × List UInt8
  | 0, l, bytes => (l, bytes)
  | n + 1, l, bytes =>
    let lane := fun k => word ((bytes.drop (8 * k)).take 8)
    stripes n ⟨round l.a (lane 0), round l.b (lane 1), round l.c (lane 2), round l.d (lane 3)⟩
      (bytes.drop 32)

def Lanes.finish (l : Lanes) : UInt64 :=
  let h := rotate l.a 1 + rotate l.b 7 + rotate l.c 12 + rotate l.d 18
  merge (merge (merge (merge h l.a) l.b) l.c) l.d

/-- Takes in `n` whole lanes. -/
def tailLanes : Nat → UInt64 → List UInt8 → UInt64 × List UInt8
  | 0, h, bytes => (h, bytes)
  | n + 1, h, bytes =>
    tailLanes n (rotate (h ^^^ round 0 (word (bytes.take 8))) 27 * prime1 + prime4) (bytes.drop 8)

def tailHalf (h : UInt64) (bytes : List UInt8) : UInt64 × List UInt8 :=
  if bytes.length < 4 then (h, bytes)
  else (rotate (h ^^^ (word (bytes.take 4) * prime1)) 23 * prime2 + prime3, bytes.drop 4)

def tailByte (h : UInt64) (b : UInt8) : UInt64 :=
  rotate (h ^^^ (b.toUInt64 * prime5)) 11 * prime1

def avalanche (h : UInt64) : UInt64 :=
  let h := (h ^^^ (h >>> 33)) * prime2
  let h := (h ^^^ (h >>> 29)) * prime3
  h ^^^ (h >>> 32)

def hashList (seed : UInt64) (bytes : List UInt8) : UInt64 :=
  let n := bytes.length
  let (l, rest) := (Lanes.start seed).stripes (n / 32) bytes
  let h := if n < 32 then seed + prime5 else l.finish
  let (h, rest) := tailLanes (rest.length / 8) (h + n.toUInt64) rest
  let (h, rest) := tailHalf h rest
  avalanche (rest.foldl tailByte h)

/-- The hash of a byte string, with seed zero. -/
def hash (bytes : ByteArray) : UInt64 := hashList 0 bytes.toList

end Uncaught.Xxh64
