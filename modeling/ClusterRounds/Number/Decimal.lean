/-
  ClusterRounds.Number.Decimal

  Decimal texts of exact values. `Parts.scientific` and `Parts.fixed` print a
  given number of places, the exact value rounded half to even; `Parts.shortest`
  finds the fewest digits that read back as the same double, by trying the two
  neighbours of the value on the decimal grids of 1, 2, … 17 digits. A
  `FloatStyle` holds what a format decides beyond the digits.
-/

import ClusterRounds.Number.Binary

namespace ClusterRounds.Number

/-- The decimal digits of a natural, at least `width` of them. -/
def paddedDigits (width n : Nat) : String :=
  let digits := Nat.toDigits 10 n
  String.ofList (List.replicate (width - digits.length) '0' ++ digits)

/-- `10 ^ e` as a quotient of naturals. -/
def powerOfTen (e : Int) : Nat × Nat :=
  if 0 ≤ e then (10 ^ e.toNat, 1) else (1, 10 ^ (-e).toNat)

/-- The exponent `e` with `10 ^ e ≤ num / den < 10 ^ (e + 1)`, for positive `num` and `den`. -/
def floorLog10 (num den : Nat) : Int :=
  let guess : Int := ((Nat.toDigits 10 num).length : Int) - ((Nat.toDigits 10 den).length : Int)
  let (up, down) := powerOfTen guess
  if den * up ≤ num * down then guess else guess - 1

/-- A decimal: its digits as a natural, and the exponent of the first digit. -/
structure Decimal where
  digits : Nat
  exponent : Int
deriving DecidableEq, Repr

/-- `num / den` with `places + 1` significant digits. -/
def decimalOf (places num den : Nat) : Decimal :=
  if num = 0 then ⟨0, 0⟩
  else
    let exponent := floorLog10 num den
    let (up, down) := powerOfTen (exponent - places)
    let digits := roundDiv (num * down) (den * up)
    if digits = 10 ^ (places + 1) then ⟨10 ^ places, exponent + 1⟩ else ⟨digits, exponent⟩

/-- An exponent with its sign and at least two digits. -/
def exponentText (e : Int) : String :=
  (if e < 0 then "-" else "+") ++ paddedDigits 2 e.natAbs

def pointAfterFirst (digits : String) : String :=
  match digits.toList with
  | [] => ""
  | [d] => d.toString
  | d :: rest => d.toString ++ "." ++ String.ofList rest

/-! ## A given number of places -/

def specialText (negative : Bool) (name : String) : String :=
  if negative then "-" ++ name else name

/-- One digit, a point, `places` more digits, and the exponent. -/
def Parts.scientific (places : Nat) : Parts → String
  | .undefined => "nan"
  | .infinite negative => specialText negative "inf"
  | .finite negative m e =>
    let (num, den) := ratioOf m e
    let d := decimalOf places num den
    let body := pointAfterFirst (paddedDigits (places + 1) d.digits)
    specialText negative (body ++ "e" ++ exponentText d.exponent)

/-- All integer digits, a point, and `places` digits. -/
def Parts.fixed (places : Nat) : Parts → String
  | .undefined => "nan"
  | .infinite negative => specialText negative "inf"
  | .finite negative m e =>
    let (num, den) := ratioOf m e
    let scaled := roundDiv (num * 10 ^ places) den
    let whole := paddedDigits 1 (scaled / 10 ^ places)
    let body :=
      if places = 0 then whole
      else whole ++ "." ++ paddedDigits places (scaled % 10 ^ places)
    specialText negative body

/-- A text without the zeros at its end, and without a point that would then be last. -/
def trimZeros (digits : String) : String :=
  let kept := (digits.toList.reverse.dropWhile (· = '0')).reverse
  String.ofList (if kept.getLast? = some '.' then kept.dropLast else kept)

/-- So many significant digits: positional if the exponent of the first one is at least -4 and below
    their number. Zeros at the end of a fraction are kept or not. -/
def Parts.general (keepZeros : Bool) (significant : Nat) : Parts → String
  | .undefined => "nan"
  | .infinite negative => specialText negative "inf"
  | .finite negative m e =>
    let (num, den) := ratioOf m e
    let d := decimalOf (significant - 1) num den
    let trim (s : String) := if keepZeros || !s.toList.contains '.' then s else trimZeros s
    let body :=
      if -4 ≤ d.exponent && d.exponent < significant then
        trim ((Parts.finite false m e).fixed (significant - 1 - d.exponent).toNat)
      else
        trim (pointAfterFirst (paddedDigits significant d.digits)) ++ "e" ++ exponentText d.exponent
    specialText negative body

/-- A text of a number with a point behind its digits in any case, if that is asked for. -/
def withPoint (asked : Bool) (text : String) : String :=
  let isMantissa (c : Char) := c.isDigit || c = '-' || c = '.'
  let mantissa := text.toList.takeWhile isMantissa
  if !asked || mantissa.contains '.' || !mantissa.any Char.isDigit then text
  else String.ofList (mantissa ++ '.' :: text.toList.dropWhile isMantissa)

/-! ## The fewest digits that read back -/

/-- The reals that round to a double, as an interval with a common denominator: twice or four
    times the value's own, so that the halfway points are on the grid. -/
structure RoundingInterval where
  low : Nat
  value : Nat
  high : Nat
  den : Nat
  closed : Bool

/-- The interval around `m · 2 ^ e`. Below a power of two the doubles are twice as dense. -/
def RoundingInterval.of (m : Nat) (e : Int) : RoundingInterval :=
  let (num, den) := ratioOf 1 (e - 2)
  let below := if m = 2 ^ 52 && -1074 < e then 1 else 2
  ⟨(4 * m - below) * num, 4 * m * num, (4 * m + 2) * num, den, m % 2 = 0⟩

/-- Is `n · unit` in the interval, for a unit given as a quotient? -/
def RoundingInterval.holds (i : RoundingInterval) (n : Nat) (unit : Nat × Nat) : Bool :=
  let point := n * unit.1 * i.den
  if i.closed then i.low * unit.2 ≤ point && point ≤ i.high * unit.2
  else i.low * unit.2 < point && point < i.high * unit.2

/-- The grid point nearest to the value among its two neighbours, if one of them is in the
    interval; a tie goes to the even one. -/
def RoundingInterval.onGrid (i : RoundingInterval) (unit : Nat × Nat) : Option Nat :=
  let floor := i.value * unit.2 / (i.den * unit.1)
  let nearest := roundDiv (i.value * unit.2) (i.den * unit.1)
  if i.holds nearest unit then some nearest
  else
    let other := if nearest = floor then floor + 1 else floor
    if i.holds other unit then some other else none

/-- Drops the zeros at the end of a positive natural, at most `fuel` of them. -/
def dropZeros : Nat → Nat → Nat
  | 0, n => n
  | fuel + 1, n => if n % 10 = 0 && 0 < n then dropZeros fuel (n / 10) else n

/-- The decimal with the fewest digits that rounds to `m · 2 ^ e`, a positive double. -/
def shortestDecimal (m : Nat) (e : Int) : Decimal :=
  let interval := RoundingInterval.of m e
  let exponent := floorLog10 interval.value interval.den
  let found := (List.range 17).findSome? fun (places : Nat) =>
    (interval.onGrid (powerOfTen (exponent - places))).map fun n =>
      if n = 10 ^ (places + 1) then Decimal.mk 1 (exponent + 1)
      else Decimal.mk (dropZeros 17 n) exponent
  found.getD (decimalOf 16 interval.value interval.den)

/-- What a printed form decides: which exponents are written positionally, what ends an
    integral positional text, and the names of the values that are not finite. -/
structure FloatStyle where
  leastPositional : Int
  firstScientific : Int
  integralEnd : String
  undefinedName : String
  infiniteName : String

def Decimal.positional (integralEnd : String) (d : Decimal) : String :=
  let digits := Nat.toDigits 10 d.digits
  if d.exponent < 0 then
    "0." ++ String.ofList (List.replicate ((-d.exponent).toNat - 1) '0' ++ digits)
  else
    let whole := d.exponent.toNat + 1
    if digits.length ≤ whole then
      String.ofList (digits ++ List.replicate (whole - digits.length) '0') ++ integralEnd
    else String.ofList (digits.take whole) ++ "." ++ String.ofList (digits.drop whole)

def Parts.shortest (style : FloatStyle) : Parts → String
  | .undefined => style.undefinedName
  | .infinite negative => specialText negative style.infiniteName
  | .finite negative m e =>
    if m = 0 then specialText negative ("0" ++ style.integralEnd)
    else
      let d := shortestDecimal m e
      let body :=
        if style.leastPositional ≤ d.exponent && d.exponent < style.firstScientific then
          d.positional style.integralEnd
        else
          pointAfterFirst (paddedDigits 1 d.digits) ++ "e" ++ exponentText d.exponent
      specialText negative body

/-- Floats in messages: positional from `1e-04` below `1e+16`, integral ones ending in `.0`. -/
def FloatStyle.message : FloatStyle := ⟨-4, 16, ".0", "nan", "inf"⟩

/-- Floats in documents: as in messages, with the long names of the special values. -/
def FloatStyle.document : FloatStyle := ⟨-4, 16, ".0", "NaN", "Infinity"⟩

/-! ## Doubles -/

def scientificText (places : Nat) (x : Float) : String := (Parts.ofFloat x).scientific places
def fixedText (places : Nat) (x : Float) : String := (Parts.ofFloat x).fixed places
def generalText (alternate : Bool) (significant : Nat) (x : Float) : String :=
  withPoint alternate ((Parts.ofFloat x).general alternate significant)
def shortestText (style : FloatStyle) (x : Float) : String := (Parts.ofFloat x).shortest style

end ClusterRounds.Number
