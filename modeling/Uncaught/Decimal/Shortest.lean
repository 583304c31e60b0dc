/-!
The shortest decimal text of a binary floating-point number. A finite number is `m * 2 ^ q`; every
real between the two halfway points to its neighbours reads back as that number (the halfway points
themselves when `m` is even). Among the decimals of that interval with the fewest digits the one
nearest to the number is written, positionally for decimal exponents from -5 to 15 and with an
exponent otherwise. All arithmetic is exact, on natural numbers.
-/

namespace Uncaught.Decimal

/-- A nonnegative rational `num / den`, with `den` positive. -/
structure Ratio where
  num : Nat
  den : Nat

namespace Ratio

/-- The rational `n * 2 ^ q`. -/
def scaled (n : Nat) (q : Int) : Ratio :=
  match q with
  | .ofNat k => ⟨n * Nat.pow 2 k, 1⟩
  | .negSucc k => ⟨n, Nat.pow 2 (k + 1)⟩

def lt (a b : Ratio) : Bool := a.num * b.den < b.num * a.den

def le (a b : Ratio) : Bool := a.num * b.den ≤ b.num * a.den

/-- The rational `d * 10 ^ e`. -/
def decimal (d : Nat) (e : Int) : Ratio :=
  match e with
  | .ofNat k => ⟨d * Nat.pow 10 k, 1⟩
  | .negSucc k => ⟨d, Nat.pow 10 (k + 1)⟩

/-- The distance between two rationals. -/
def dist (a b : Ratio) : Ratio :=
  let x := a.num * b.den
  let y := b.num * a.den
  ⟨(x - y) + (y - x), a.den * b.den⟩

/-- The integral part of `a / 10 ^ e`. -/
def floorAt (a : Ratio) (e : Int) : Nat :=
  match e with
  | .ofNat k => a.num / (a.den * Nat.pow 10 k)
  | .negSucc k => a.num * Nat.pow 10 (k + 1) / a.den

/-- How often `a < 1` has to be multiplied by ten to reach 1, looking `fuel` steps ahead. -/
def leadingZeros (fuel : Nat) (a : Ratio) : Nat :=
  match fuel with
  | 0 => 0
  | fuel + 1 => if a.num < a.den then 1 + leadingZeros fuel ⟨a.num * 10, a.den⟩ else 0

/-- The exponent `e` with `10 ^ e ≤ a < 10 ^ (e + 1)`, for a positive `a ≥ 10 ^ -400`. -/
def exponent (a : Ratio) : Int :=
  if a.num < a.den then -(leadingZeros 400 a : Int)
  else ((Nat.toDigits 10 (a.num / a.den)).length : Int) - 1

end Ratio

/-- The reals that read back as one floating-point number. -/
structure Interval where
  value : Ratio
  low : Ratio
  high : Ratio
  closed : Bool

/-- The weight of the leading bit that a normal double does not store, `2 ^ 52`. -/
def hiddenBit : Nat := 0x10000000000000

/-- The interval of a finite positive double, given by its 64 bits. The gap below a power of two is
half the gap above it, except at the smallest normal number. -/
def Interval.ofBits (bits : Nat) : Interval :=
  let fraction : Nat := bits % hiddenBit
  let biased : Nat := bits / hiddenBit % 0x800
  let m := if biased = 0 then fraction else fraction + hiddenBit
  let q : Int := ((if biased = 0 then 1 else biased : Nat) : Int) - 1075
  let below := if fraction = 0 ∧ 1 < biased then 1 else 2
  { value := .scaled (4 * m) (q - 2)
    low := .scaled (4 * m - below) (q - 2)
    high := .scaled (4 * m + 2) (q - 2)
    closed := m % 2 = 0 }

def Interval.contains (i : Interval) (x : Ratio) : Bool :=
  if i.closed then i.low.le x && x.le i.high else i.low.lt x && x.lt i.high

/-- A positive decimal `digits * 10 ^ exponent`. -/
structure Digits where
  digits : Nat
  exponent : Int

/-- The better of the two neighbours of the value on the grid of multiples of `10 ^ e`, if one of
them lies in the interval. -/
def Interval.onGrid (i : Interval) (e : Int) : Option Digits :=
  let d := i.value.floorAt e
  let lower := Ratio.decimal d e
  let upper := Ratio.decimal (d + 1) e
  match i.contains lower && d != 0, i.contains upper with
  | true, true =>
    if (i.value.dist lower).le (i.value.dist upper) then some ⟨d, e⟩ else some ⟨d + 1, e⟩
  | true, false => some ⟨d, e⟩
  | false, true => some ⟨d + 1, e⟩
  | false, false => none

/-- The decimal of the interval with the fewest digits; seventeen always suffice. -/
def Interval.shortest (i : Interval) : Digits :=
  let top := i.value.exponent
  match (List.range 17).findSome? fun k : Nat => i.onGrid (top - k) with
  | some d => d
  | none => ⟨i.value.floorAt (top - 16), top - 16⟩

/-- Drops trailing zeros, at most `fuel` of them. -/
def Digits.trim (fuel : Nat) (d : Digits) : Digits :=
  match fuel with
  | 0 => d
  | fuel + 1 =>
    if d.digits % 10 = 0 ∧ d.digits ≠ 0 then trim fuel ⟨d.digits / 10, d.exponent + 1⟩ else d

def zeros (n : Nat) : String := String.ofList (List.replicate n '0')

/-- The written exponent: a sign and at least two digits. -/
def exponentText (e : Int) : String :=
  let digits := toString e.natAbs
  (if e < 0 then "e-" else "e+") ++ (if e.natAbs < 10 then "0" else "") ++ digits

/-- Positional text for decimal exponents from -5 to 15, always with a fraction, and scientific text
otherwise. -/
def Digits.text (d : Digits) : String :=
  let ds := toString d.digits
  let n := ds.length
  let top := d.exponent + n - 1
  if -5 ≤ top ∧ top ≤ 15 then
    if 0 ≤ d.exponent then ds ++ zeros d.exponent.toNat ++ ".0"
    else if 0 ≤ top then
      let cut := (top + 1).toNat
      String.ofList (ds.toList.take cut) ++ "." ++ String.ofList (ds.toList.drop cut)
    else "0." ++ zeros (-top - 1).toNat ++ ds
  else
    let point := if n = 1 then "" else "."
    String.ofList (ds.toList.take 1) ++ point ++ String.ofList (ds.toList.drop 1) ++ exponentText top

/-- The shortest text that reads back as the given finite number. -/
def shortest (x : Float) : String :=
  let bits := x.toBits.toNat
  let magnitude := bits % 0x8000000000000000
  let sign := if bits = magnitude then "" else "-"
  if magnitude = 0 then sign ++ "0.0"
  else sign ++ ((Interval.ofBits magnitude).shortest.trim 20).text

end Uncaught.Decimal
