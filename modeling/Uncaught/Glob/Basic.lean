/-!
Glob patterns: what they are made of and what they match. Paths are matched as bytes. A star and a
question mark never match a separator; only the directory wildcards do.
-/

namespace Uncaught.Glob

/-- An element of a pattern. -/
inductive Token where
  /-- A character that stands for itself. -/
  | literal (c : Char)
  /-- One byte that is no separator. -/
  | any
  /-- Any number of bytes that are no separators. -/
  | star
  /-- Directories at the start, or none. -/
  | leadingDirs
  /-- Everything below, at the end. -/
  | trailingAll
  /-- A separator, with directories after it or none. -/
  | innerDirs
  /-- One byte of a class, or outside of it. -/
  | oneOf (negated : Bool) (ranges : List (Char × Char))
  /-- One of several patterns. -/
  | alternates (branches : List (List Token))

def separator : UInt8 := 47

def charBytes (c : Char) : List UInt8 := (String.singleton c).toUTF8.toList

/-- The ranges of bytes that a range of characters names: a range stands between the last byte of its
first character and the first byte of its last. -/
def byteRanges (range : Char × Char) : List (UInt8 × UInt8) :=
  let (a, b) := range
  let single := fun (x : UInt8) => (x, x)
  if a = b then (charBytes a).map single
  else
    match (charBytes a).reverse, charBytes b with
    | lo :: before, hi :: after => before.reverse.map single ++ (lo, hi) :: after.map single
    | _, _ => []

def inClass (negated : Bool) (ranges : List (Char × Char)) (x : UInt8) : Bool :=
  let member := (ranges.flatMap byteRanges).any fun (lo, hi) => lo ≤ x && x ≤ hi
  member != negated

/-- What is left of a text behind a string of bytes at its start. -/
def dropBytes : List UInt8 → List UInt8 → List (List UInt8)
  | [], rest => [rest]
  | _ :: _, [] => []
  | b :: bs, x :: rest => if b = x then dropBytes bs rest else []

/-- What is left behind any number of bytes that are no separators. -/
def starRests : List UInt8 → List (List UInt8)
  | [] => [[]]
  | x :: rest => (x :: rest) :: (if x = separator then [] else starRests rest)

/-- What is left behind each separator. -/
def afterSeparators : List UInt8 → List (List UInt8)
  | [] => []
  | x :: rest => if x = separator then rest :: afterSeparators rest else afterSeparators rest

/-- A text and everything it ends with. -/
def suffixes : List UInt8 → List (List UInt8)
  | [] => [[]]
  | x :: rest => (x :: rest) :: suffixes rest

/-- What is left of a text that starts with a separator. -/
def dropSeparator : List UInt8 → List (List UInt8)
  | [] => []
  | x :: rest => if x = separator then [rest] else []

/-- Keeps one of each length. The rests of one text are equal when they are equally long. -/
def distinct (rests : List (List UInt8)) : List (List UInt8) :=
  rests.eraseDupsBy fun a b => a.length == b.length

mutual

/-- A pattern in which nothing is written. -/
def isVoid : List Token → Bool
  | [] => true
  | .alternates branches :: tokens => allVoid branches && isVoid tokens
  | _ :: _ => false

def allVoid : List (List Token) → Bool
  | [] => true
  | branch :: branches => isVoid branch && allVoid branches

end

mutual

/-- The rests of a text behind a match of one token. -/
def Token.rests : Token → List UInt8 → List (List UInt8)
  | .literal c, s => dropBytes (charBytes c) s
  | .any, [] => []
  | .any, x :: rest => if x = separator then [] else [rest]
  | .star, s => starRests s
  | .leadingDirs, s => s :: afterSeparators s
  | .trailingAll, s => (dropSeparator s).flatMap suffixes
  | .innerDirs, s => (dropSeparator s).flatMap fun rest => rest :: afterSeparators rest
  | .oneOf _ _, [] => []
  | .oneOf negated ranges, x :: rest => if inClass negated ranges x then [rest] else []
  | .alternates branches, s => if allVoid branches then [s] else branchRests branches s

/-- The rests of texts behind a match of a pattern. -/
def tokenRests : List Token → List (List UInt8) → List (List UInt8)
  | [], starts => starts
  | token :: tokens, starts => tokenRests tokens (distinct (starts.flatMap token.rests))

/-- The rests behind a match of one of several patterns; those in which nothing is written do not
count. -/
def branchRests : List (List Token) → List UInt8 → List (List UInt8)
  | [], _ => []
  | branch :: branches, s =>
    (if isVoid branch then [] else tokenRests branch [s]) ++ branchRests branches s

end

/-- A pattern matches a whole path. The lone wildcard for all directories matches everything. -/
def isMatch (tokens : List Token) (path : String) : Bool :=
  match tokens with
  | [.leadingDirs] => true
  | tokens => (tokenRests tokens [path.toUTF8.toList]).any List.isEmpty

end Uncaught.Glob
