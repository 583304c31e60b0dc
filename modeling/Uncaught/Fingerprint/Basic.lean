import Uncaught.Fingerprint.Xxh64
import Uncaught.Text.Position

/-!
Fingerprints tell reported calls apart and stay the same from run to run. A fingerprint is the text of
the hash of the issue, the file, the callee and the range of the statement, with a zero character
between them.

A word of 64 bits is written as its base-62 digits, the most significant first, after as many zeros as
make eleven characters. Digits, capital and small letters stand for 0 to 61 in this order, which is also
their order as characters.
-/

namespace Uncaught

namespace Base62

/-- The character of a digit below 62. -/
def digitChar (d : Nat) : Char :=
  if d < 10 then Char.ofNat ('0'.toNat + d)
  else if d < 36 then Char.ofNat ('A'.toNat + (d - 10))
  else Char.ofNat ('a'.toNat + (d - 36))

/-- The base-62 digits of a number, the least significant first. Zero has none. -/
def digits (n : Nat) : List Nat :=
  if n = 0 then [] else n % 62 :: digits (n / 62)

/-- The number of characters that a text is filled up to. -/
def width : Nat := 11

def encode (v : UInt64) : String :=
  String.ofList (((digits v.toNat).map digitChar).rightpad width '0').reverse

end Base62

namespace Fingerprint

/-- What a fingerprint is the hash of. -/
def key (issue file callee : String) (range : TextRange) : String :=
  "\x00".intercalate [issue, file, callee, range.toText]

/-- The fingerprint under a hash function. -/
def ofHash (hash : ByteArray → UInt64) (issue file callee : String) (range : TextRange) : String :=
  Base62.encode (hash (key issue file callee range).toUTF8)

def compute (issue file callee : String) (range : TextRange) : String :=
  ofHash Xxh64.hash issue file callee range

end Fingerprint

end Uncaught
