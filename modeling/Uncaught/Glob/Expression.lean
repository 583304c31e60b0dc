import Uncaught.Glob.Basic

/-!
Patterns as regular expressions. A pattern of plain text is compared as a text and needs none. Patterns
that end in an extension are compiled one by one, all others together. An expression is refused if its
parts stand too deep in each other.
-/

namespace Uncaught.Glob

/-- A byte in an expression, escaped if it has a meaning there or is no ASCII character. -/
def byteExpression (b : UInt8) : List Char :=
  let c := Char.ofNat b.toNat
  if 128 ≤ b then '\\' :: 'x' :: Nat.toDigits 16 b.toNat
  else if "\\.+*?()|[]\x7b\x7d^$#&-~".toList.contains c then ['\\', c]
  else [c]

def charExpression (c : Char) : List Char := (charBytes c).flatMap byteExpression

def rangeExpression (range : Char × Char) : List Char :=
  let (a, b) := range
  if a = b then charExpression a else charExpression a ++ '-' :: charExpression b

mutual

/-- The expression for a token. -/
def Token.expression : Token → List Char
  | .literal c => charExpression c
  | .any => "[^/]".toList
  | .star => "[^/]*".toList
  | .leadingDirs => "(?:/?|.*/)".toList
  | .trailingAll => "/.*".toList
  | .innerDirs => "(?:/|/.*/)".toList
  | .oneOf negated ranges =>
    '[' :: (if negated then ['^'] else []) ++ ranges.flatMap rangeExpression ++ [']']
  | .alternates branches =>
    if allVoid branches then []
    else "(?:".toList ++ ['|'].intercalate (branchExpressions branches) ++ [')']

def expression : List Token → List Char
  | [] => []
  | token :: tokens => token.expression ++ expression tokens

/-- The expressions for several patterns; those in which nothing is written do not count. -/
def branchExpressions : List (List Token) → List (List Char)
  | [] => []
  | branch :: branches =>
    (if isVoid branch then [] else [expression branch]) ++ branchExpressions branches

end

/-- The number of parts in the expression for a pattern. -/
def partCount : List Token → Nat
  | [] => 0
  | .literal c :: tokens => (charBytes c).length + partCount tokens
  | .trailingAll :: tokens => 2 + partCount tokens
  | .alternates branches :: tokens => (if allVoid branches then 0 else 1) + partCount tokens
  | _ :: tokens => 1 + partCount tokens

mutual

/-- How deep the parts of a token's expression stand in each other. -/
def Token.depth : Token → Nat
  | .literal _ => 0
  | .any | .trailingAll => 1
  | .star => 2
  | .leadingDirs | .innerDirs => 4
  | .oneOf _ ranges => if (ranges.flatMap byteRanges).length ≤ 1 then 1 else 2
  | .alternates branches =>
    if allVoid branches then 0
    else
      let choice := if (branches.filter (!isVoid ·)).length ≤ 1 then 0 else 1
      1 + choice + branchDepth branches

def tokenDepth : List Token → Nat
  | [] => 0
  | token :: tokens => Nat.max token.depth (tokenDepth tokens)

/-- The depth of the deepest of several patterns. A sequence is one level more than its parts. -/
def branchDepth : List (List Token) → Nat
  | [] => 0
  | branch :: branches =>
    let sequence := if partCount branch ≤ 1 then 0 else 1
    Nat.max (sequence + tokenDepth branch) (branchDepth branches)

end

/-- How deep an expression may be. -/
def maxDepth : Nat := 250

def isTooDeep (pattern : List Token) : Bool := maxDepth < 1 + tokenDepth pattern

def Token.isLiteral : Token → Bool
  | .literal _ => true
  | _ => false

/-- A character that can stand in an extension. -/
def Token.inExtension : Token → Bool
  | .literal c => c ≠ '.' && c ≠ '/'
  | _ => false

/-- A pattern of plain text: a path, what is below one, a path below any directory, or an extension. -/
def isPlain : List Token → Bool
  | [] => false
  | .leadingDirs :: .star :: .literal '.' :: rest => rest.all Token.inExtension
  | .leadingDirs :: rest => !rest.isEmpty && rest.all Token.isLiteral
  | tokens =>
    match tokens.reverse with
    | .trailingAll :: before => before.all Token.isLiteral
    | _ => tokens.all Token.isLiteral

/-- A pattern that ends in an extension. -/
def hasExtension (pattern : List Token) : Bool :=
  match pattern.reverse.dropWhile Token.inExtension with
  | .literal '.' :: _ => true
  | _ => false

/-- A pattern that is refused: by itself, or by its place among those that are compiled together. -/
inductive CompileError where
  | alone (pattern : List Token)
  | together (place : Nat)

def CompileError.message : CompileError → String
  | .alone pattern =>
    "error parsing glob '(?-u)^" ++ String.ofList (expression pattern) ++
      "$': error parsing pattern 0"
  | .together place => "error parsing pattern " ++ toString place

/-- Compiles patterns; those that are compiled alone come first. -/
def compile (patterns : List (List Token)) : Except CompileError Unit :=
  let (alone, together) := (patterns.filter (!isPlain ·)).partition hasExtension
  match alone.find? isTooDeep, together.findIdx? isTooDeep with
  | some pattern, _ => .error (.alone pattern)
  | none, some place => .error (.together place)
  | none, none => .ok ()

end Uncaught.Glob
