/-
  ClusterRounds.Text.Quoted

  The quoted form of a text, as messages show it: in single quotes, or in double
  quotes if it holds a single one and no double one. Backslashes and the quote are
  escaped, and so is every character that is not shown as it is.
-/

import ClusterRounds.Text.Printable
import ClusterRounds.Text.Unpaired

namespace ClusterRounds.Text

/-- A natural in hexadecimal, with exactly `width` digits if it fits. -/
def paddedHex (width n : Nat) : String :=
  let digits := Nat.toDigits 16 n
  String.ofList (List.replicate (width - digits.length) '0' ++ digits)

def quoteFor (s : String) : Char :=
  if s.toList.contains '\'' && !s.toList.contains '"' then '"' else '\''

/-- A character by its number, which is that of the half it may stand for. -/
def numbered (c : Char) : String :=
  let n := (unpaired? c).getD c.toNat
  if n ≤ 0xFF then "\\x" ++ paddedHex 2 n
  else if n ≤ 0xFFFF then "\\u" ++ paddedHex 4 n
  else "\\U" ++ paddedHex 8 n

def escapeChar (quote c : Char) : String :=
  if c = quote || c = '\\' then String.ofList ['\\', c]
  else if c = '\n' then "\\n"
  else if c = '\r' then "\\r"
  else if c = '\t' then "\\t"
  else if isPrintable c then c.toString
  else numbered c

/-- A text with all characters beyond the first 128 by their numbers. -/
def asciiOnly (s : String) : String :=
  String.join (s.toList.map fun c => if c.toNat < 128 then c.toString else numbered c)

def quoted (s : String) : String :=
  let quote := quoteFor s
  quote.toString ++ String.join (s.toList.map (escapeChar quote)) ++ quote.toString

end ClusterRounds.Text
