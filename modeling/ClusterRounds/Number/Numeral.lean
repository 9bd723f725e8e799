/-
  ClusterRounds.Number.Numeral

  Reading numbers from text. An integer is a sign and decimal digits of any script,
  with single underscores between digits; a float adds a fraction, an exponent and
  the names of the special values. Free texts may be surrounded by blanks; the plain
  form for tables of numbers is ASCII and has no underscores. Values are exact until
  the one rounding to a double.
-/

import ClusterRounds.Number.Decimal
import ClusterRounds.Text.Class

namespace ClusterRounds.Number

open ClusterRounds.Text

/-! ## Scanning -/

/-- A blank around a numeral: a blank of ASCII's own, or any blank above ASCII. -/
def isPadding (c : Char) : Bool :=
  isAsciiBlank c || (0x80 ≤ c.toNat && isBlank c)

/-- Drops the padding on both sides. -/
def trimPadding (cs : List Char) : List Char :=
  ((cs.dropWhile isPadding).reverse.dropWhile isPadding).reverse

/-- The same numeral with digits of any script replaced by ASCII ones. -/
def asciiDigits (cs : List Char) : List Char :=
  cs.map fun c =>
    if c.toNat < 0x80 then c
    else (digitValue? c).elim c fun d => Char.ofNat (48 + d)

/-- Removes underscores; none if one is not between two digits. -/
def joinGroups : Bool → List Char → Option (List Char)
  | _, [] => some []
  | afterDigit, '_' :: d :: rest =>
    if afterDigit && d.isDigit then (joinGroups true rest).map (d :: ·) else none
  | _, ['_'] => none
  | _, c :: rest => (joinGroups c.isDigit rest).map (c :: ·)

def digitsValue (cs : List Char) : Nat :=
  cs.foldl (fun n c => 10 * n + (c.toNat - 48)) 0

/-- A sign, if there is one, and the rest: `true` is minus. -/
def takeSign : List Char → Bool × List Char
  | '-' :: rest => (true, rest)
  | '+' :: rest => (false, rest)
  | cs => (false, cs)

/-! ## Integers -/

/-- The most digits that an integer text may have, whether it is read or written. -/
def maxIntegerDigits : Nat := 4300

/-- Is there a text of the integer? -/
def isWritable (i : Int) : Bool := i.natAbs < 10 ^ maxIntegerDigits

/-- The integer that a whole text denotes: padding, a sign, digits. -/
def integer? (s : String) : Option Int := do
  let (negative, digits) := takeSign (asciiDigits (trimPadding s.toList))
  let digits ← joinGroups false digits
  if digits.isEmpty || !digits.all Char.isDigit || maxIntegerDigits < digits.length then none
  else
    let n := digitsValue digits
    some (if negative then -(n : Int) else n)

/-! ## Floats -/

/-- A decimal numeral read so far: `digits · 10 ^ exponent`. -/
structure Numeral where
  negative : Bool
  digits : Nat
  exponent : Int
deriving DecidableEq, Repr

/-- The double nearest to a numeral. Beyond the range of doubles the power of ten is not formed. -/
def Numeral.toFloat (n : Numeral) : Float :=
  if n.digits = 0 then floatOfRatio n.negative 0 1
  else
    let leading := ((Nat.toDigits 10 n.digits).length : Int) + n.exponent
    if 400 < leading then (Parts.infinite n.negative).toFloat
    else if leading < -400 then floatOfRatio n.negative 0 1
    else
      let (up, down) := powerOfTen n.exponent
      floatOfRatio n.negative (n.digits * up) down

/-- The exponent part of a numeral, which has to be all that is left. -/
def exponentPart? : List Char → Option Int
  | [] => some 0
  | c :: rest =>
    if c = 'e' || c = 'E' then
      let (negative, digits) := takeSign rest
      if digits.isEmpty || !digits.all Char.isDigit then none
      else
        let n := digitsValue digits
        some (if negative then -(n : Int) else n)
    else none

/-- An unsigned decimal numeral: digits on at least one side of the point, and an exponent. -/
def numeral? (negative : Bool) (cs : List Char) : Option Numeral := do
  let whole := cs.takeWhile Char.isDigit
  let rest := cs.dropWhile Char.isDigit
  let (fraction, rest) :=
    match rest with
    | '.' :: rest => (rest.takeWhile Char.isDigit, rest.dropWhile Char.isDigit)
    | _ => ([], rest)
  if whole.isEmpty && fraction.isEmpty then none
  else
    let exponent ← exponentPart? rest
    some ⟨negative, digitsValue (whole ++ fraction), exponent - fraction.length⟩

/-- A whole plain text as a double: a sign, then a numeral or the name of a special value in
    either case. No padding, no underscores, ASCII only. -/
def plainFloat? (cs : List Char) : Option Float :=
  let (negative, body) := takeSign cs
  let name := body.map Char.toLower
  if name = "nan".toList then some Parts.undefined.toFloat
  else if name = "inf".toList || name = "infinity".toList then
    some (Parts.infinite negative).toFloat
  else (numeral? negative body).map Numeral.toFloat

/-- The double that a free text denotes: padding, digits of any script and underscores between
    digits are allowed. -/
def float? (s : String) : Option Float :=
  (joinGroups false (asciiDigits (trimPadding s.toList))).bind plainFloat?

end ClusterRounds.Number
