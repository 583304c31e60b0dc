import Uncaught.Decimal.Shortest
import Uncaught.Json.Error

/-!
JSON numbers. A numeral is kept as its digits; `Numeral.value` says which number it is. Whole
numerals are exact as far as 64 bits carry them, all others are floating point: the digits that fit
into 64 bits are taken as a whole number, which is then scaled by a power of ten.
-/

namespace Uncaught.Json

/-- A number as it is written. An absent fraction is an empty one; an exponent is its sign (negative
or not) and its size. -/
structure Numeral where
  negative : Bool
  whole : List Nat
  fraction : List Nat
  exponent : Option (Bool × Nat)
  deriving DecidableEq, Repr

/-- What is wrong with a numeral: the text ends inside it, or goes on with something else. -/
inductive NumeralFault where
  | cut
  | bad
  deriving DecidableEq, Repr

def digitsOf (cs : List Char) : List Nat :=
  cs.map fun c => c.toNat - '0'.toNat

def numberOf (ds : List Nat) : Nat :=
  ds.foldl (fun n d => n * 10 + d) 0

/-- The digits at the start of a text, and the rest. -/
def takeDigits (cs : List Char) : List Nat × List Char :=
  (digitsOf (cs.takeWhile Char.isDigit), cs.dropWhile Char.isDigit)

/-- Digits of which there must be at least one. -/
def someDigits (cs : List Char) : Except NumeralFault (List Nat × List Char) :=
  match takeDigits cs with
  | ([], []) => .error .cut
  | ([], _ :: _) => .error .bad
  | found => .ok found

/-- The digits before the point: a zero stands alone. -/
def readWhole : List Char → Except NumeralFault (List Nat × List Char)
  | [] => .error .cut
  | '0' :: rest =>
    match rest with
    | c :: _ => if c.isDigit then .error .bad else .ok ([0], rest)
    | [] => .ok ([0], rest)
  | cs => someDigits cs

def readFraction : List Char → Except NumeralFault (List Nat × List Char)
  | '.' :: rest => someDigits rest
  | cs => .ok ([], cs)

def readExponentSize (negative : Bool) (cs : List Char) :
    Except NumeralFault (Option (Bool × Nat) × List Char) := do
  let (ds, rest) ← someDigits cs
  .ok (some (negative, numberOf ds), rest)

def readExponentSign : List Char → Except NumeralFault (Option (Bool × Nat) × List Char)
  | '+' :: rest => readExponentSize false rest
  | '-' :: rest => readExponentSize true rest
  | cs => readExponentSize false cs

def readExponent : List Char → Except NumeralFault (Option (Bool × Nat) × List Char)
  | 'e' :: rest => readExponentSign rest
  | 'E' :: rest => readExponentSign rest
  | cs => .ok (none, cs)

def readUnsigned (negative : Bool) (cs : List Char) :
    Except NumeralFault (Numeral × List Char) := do
  let (whole, cs) ← readWhole cs
  let (fraction, cs) ← readFraction cs
  let (exponent, cs) ← readExponent cs
  .ok (⟨negative, whole, fraction, exponent⟩, cs)

/-- Reads a numeral, and gives the text after it. -/
def Numeral.read : List Char → Except NumeralFault (Numeral × List Char)
  | '-' :: rest => readUnsigned true rest
  | cs => readUnsigned false cs

/-- A number: exact and nonnegative, exact and negative (given by its size), or floating point. -/
inductive Number where
  | natural (n : Nat)
  | negative (n : Nat)
  | float (x : Float)

/-- Takes digits into a whole number as long as it stays below `2 ^ 64`, and gives the digits that are
left. -/
def absorb (n : Nat) : List Nat → Nat × List Nat
  | [] => (n, [])
  | d :: ds => if n * 10 + d < UInt64.size then absorb (n * 10 + d) ds else (n, d :: ds)

def powerOfTen (k : Nat) : Float := Float.ofScientific 1 false k

/-- The largest power of ten that is a floating-point number. -/
def largestPower : Nat := 308

/-- `x / 10 ^ k`, in steps whose divisors are floating-point numbers. -/
def shrink (x : Float) (k : Nat) : Float :=
  if k ≤ largestPower then x / powerOfTen k
  else if x == 0.0 then x
  else shrink (x / powerOfTen largestPower) (k - largestPower)
termination_by k
decreasing_by simp only [largestPower] at *; omega

/-- `x * 10 ^ k`, unless that is too large. -/
def grow (x : Float) (k : Nat) : Option Float :=
  if k ≤ largestPower then
    let y := x * powerOfTen k
    if y.isInf then none else some y
  else if x == 0.0 then some x
  else none

/-- `n * 10 ^ e` for an `n` below `2 ^ 64`, unless that is too large. -/
def scaleByTen (n : Nat) (e : Int) : Option Float :=
  match e with
  | .ofNat k => grow n.toUInt64.toFloat k
  | .negSucc k => some (shrink n.toUInt64.toFloat (k + 1))

/-- The largest size of an exponent; beyond it a number is zero or too large. -/
def exponentLimit : Nat := 0x7fffffff

/-- The size of a numeral that is not a whole number of 64 bits. -/
def Numeral.magnitude (m : Numeral) : Option Float :=
  let (n, spilled) := absorb 0 m.whole
  let (n, dropped) := absorb n m.fraction
  let e : Int := spilled.length - (m.fraction.length - dropped.length : Nat)
  match m.exponent with
  | none => scaleByTen n e
  | some (down, size) =>
    if exponentLimit < size then
      if n ≠ 0 ∧ down = false then none else some 0.0
    else scaleByTen n (if down then e - size else e + size)

/-- The number that a numeral writes, unless it is too large. A negative zero and negative numbers
beyond 63 bits are floating point. -/
def Numeral.value (m : Numeral) : Option Number :=
  let (n, spilled) := absorb 0 m.whole
  if spilled = [] ∧ m.fraction = [] ∧ m.exponent = none then
    if m.negative = false then some (.natural n)
    else if 1 ≤ n ∧ n ≤ 0x8000000000000000 then some (.negative n)
    else some (.float (-n.toUInt64.toFloat))
  else m.magnitude.map fun x => .float (if m.negative then -x else x)

/-- A number as an error names it. -/
def Number.found : Number → Found
  | .natural n => .natural n
  | .negative n => .negative n
  | .float x => .float (Decimal.shortest x)

def Numeral.found (m : Numeral) : Except Fault Found :=
  match m.value with
  | some n => .ok n.found
  | none => .error .numberOutOfRange

/-- The numeral of a natural number. -/
def Numeral.ofNat (n : Nat) : Numeral :=
  ⟨false, digitsOf (Nat.toDigits 10 n), [], none⟩

end Uncaught.Json
