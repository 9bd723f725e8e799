/-
  ClusterRounds.Value.Json

  Values as JSON text. The reader takes one whole document; besides the standard
  grammar it knows the names of the special numbers, keeps integers exact, and lets
  the last of two fields of one name win. The writers print a value on one line or
  with indentation; a double is written by its shortest text.
-/

import ClusterRounds.Value.Basic

namespace ClusterRounds.Json

open Number Text

/-- Why a text is no document. -/
inductive Fault where
  | malformed
  /-- An integer has too many digits. -/
  | longInteger
  /-- Lists and records are nested too deeply. -/
  | deepNesting
deriving DecidableEq, Repr

/-! ## Reading -/

def isSpace (c : Char) : Bool := c = ' ' || c = '\t' || c = '\n' || c = '\r'

def skipSpaces (cs : List Char) : List Char := cs.dropWhile isSpace

def hexDigit? (c : Char) : Option Nat :=
  if c.isDigit then some (c.toNat - 48)
  else if 'a' ≤ c && c ≤ 'f' then some (c.toNat - 87)
  else if 'A' ≤ c && c ≤ 'F' then some (c.toNat - 55)
  else none

/-- The value of four hexadecimal digits. -/
def hexUnit? (a b c d : Char) : Option Nat := do
  some (((← hexDigit? a) * 16 + (← hexDigit? b)) * 256 + (← hexDigit? c) * 16 + (← hexDigit? d))

/-- The character behind a backslash, where it is a single one. -/
def simpleEscape? (c : Char) : Option Nat :=
  match c with
  | '"' => some 34 | '\\' => some 92 | '/' => some 47 | 'b' => some 8
  | 'f' => some 12 | 'n' => some 10 | 'r' => some 13 | 't' => some 9
  | _ => none

/-- The body of a text up to the closing quote, as code units, and what follows. -/
def textBody : List Char → Option (List Nat × List Char)
  | [] => none
  | '"' :: rest => some ([], rest)
  | '\\' :: 'u' :: a :: b :: c :: d :: rest => do
    let unit ← hexUnit? a b c d
    let (units, rest) ← textBody rest
    some (unit :: units, rest)
  | '\\' :: c :: rest => do
    let unit ← simpleEscape? c
    let (units, rest) ← textBody rest
    some (unit :: units, rest)
  | c :: rest =>
    if c.toNat < 0x20 then none
    else (textBody rest).map fun (units, rest) => (c.toNat :: units, rest)

def ofUnit (u : Nat) : Char := if isHalf u then ofUnpaired u else Char.ofNat u

/-- Joins each high half of a pair with the low one behind it; one that stands alone is kept as
    such. -/
def joinSurrogates : List Nat → List Char
  | [] => []
  | [u] => [ofUnit u]
  | u :: v :: rest =>
    if 0xD800 ≤ u && u < 0xDC00 && 0xDC00 ≤ v && v < 0xE000 then
      Char.ofNat (0x10000 + (u - 0xD800) * 0x400 + (v - 0xDC00)) :: joinSurrogates rest
    else ofUnit u :: joinSurrogates (v :: rest)

/-- A text whose opening quote has been read. -/
def text? (cs : List Char) : Except Fault (String × List Char) :=
  match textBody cs with
  | some (units, rest) => .ok (String.ofList (joinSurrogates units), rest)
  | none => .error .malformed

/-- The fraction of a number: a point and at least one digit, or nothing. -/
def fraction : List Char → List Char × List Char
  | '.' :: rest =>
    let digits := rest.takeWhile Char.isDigit
    if digits.isEmpty then ([], '.' :: rest) else ('.' :: digits, rest.dropWhile Char.isDigit)
  | cs => ([], cs)

/-- The exponent of a number: a letter, a sign and at least one digit, or nothing. -/
def exponent : List Char → List Char × List Char
  | [] => ([], [])
  | c :: rest =>
    if c = 'e' || c = 'E' then
      let (sign, rest') :=
        match rest with
        | '-' :: rest => (['-'], rest)
        | '+' :: rest => (['+'], rest)
        | _ => ([], rest)
      let digits := rest'.takeWhile Char.isDigit
      if digits.isEmpty then ([], c :: rest)
      else (c :: sign ++ digits, rest'.dropWhile Char.isDigit)
    else ([], c :: rest)

/-- The integer part of a number: a zero, or digits that do not start with one. -/
def wholePart (cs : List Char) : List Char × List Char :=
  match cs with
  | '0' :: rest => (['0'], rest)
  | _ => (cs.takeWhile Char.isDigit, cs.dropWhile Char.isDigit)

/-- A number with at least one digit in front; without fraction and exponent it is an integer. -/
def number? (negative : Bool) (cs : List Char) : Except Fault (Value × List Char) :=
  let (whole, rest) := wholePart cs
  if whole.isEmpty then .error .malformed
  else
    let (fraction, rest) := fraction rest
    let (exponent, rest) := exponent rest
    if fraction.isEmpty && exponent.isEmpty then
      if maxIntegerDigits < whole.length then .error .longInteger
      else
        let n := digitsValue whole
        .ok (.int (if negative then -(n : Int) else n), rest)
    else
      match numeral? negative (whole ++ fraction ++ exponent) with
      | some n => .ok (.float n.toFloat, rest)
      | none => .error .malformed

def atom? (cs : List Char) : Except Fault (Value × List Char) :=
  match cs with
  | 'n' :: 'u' :: 'l' :: 'l' :: rest => .ok (.null, rest)
  | 't' :: 'r' :: 'u' :: 'e' :: rest => .ok (.bool true, rest)
  | 'f' :: 'a' :: 'l' :: 's' :: 'e' :: rest => .ok (.bool false, rest)
  | 'N' :: 'a' :: 'N' :: rest => .ok (.float Parts.undefined.toFloat, rest)
  | 'I' :: 'n' :: 'f' :: 'i' :: 'n' :: 'i' :: 't' :: 'y' :: rest =>
    .ok (.float (Parts.infinite false).toFloat, rest)
  | '-' :: 'I' :: 'n' :: 'f' :: 'i' :: 'n' :: 'i' :: 't' :: 'y' :: rest =>
    .ok (.float (Parts.infinite true).toFloat, rest)
  | '-' :: rest => number? true rest
  | _ => number? false cs

/-- Puts a field at the end, or in the place of an earlier one of its name. -/
def setField {β : Type} (fields : List (String × β)) (name : String) (v : β) :
    List (String × β) :=
  if fields.any (·.1 = name) then fields.map fun f => if f.1 = name then (name, v) else f
  else fields ++ [(name, v)]

/-- How deep lists and records may be nested. -/
def deepest : Nat := 988

mutual

/-- A value at the start of the text, and what follows it; `depth` is how deep it is nested. The fuel
    bounds the number of values and separators on one path, which the length of the text does. -/
def value? (depth : Nat) : Nat → List Char → Except Fault (Value × List Char)
  | 0, _ => .error .malformed
  | fuel + 1, cs =>
    match cs with
    | '"' :: rest => (text? rest).map fun (s, rest) => (.text s, rest)
    | '[' :: rest =>
      if deepest ≤ depth then .error .deepNesting else
      match skipSpaces rest with
      | ']' :: rest => .ok (.list [], rest)
      | rest => (items? (depth + 1) fuel rest).map fun (vs, rest) => (.list vs, rest)
    | '\x7b' :: rest =>
      if deepest ≤ depth then .error .deepNesting else
      match skipSpaces rest with
      | '\x7d' :: rest => .ok (.record [], rest)
      | rest => (fields? (depth + 1) fuel [] rest).map fun (fs, rest) => (.record fs, rest)
    | _ => atom? cs

/-- The items of a list, up to and including the closing bracket. -/
def items? (depth : Nat) : Nat → List Char → Except Fault (List Value × List Char)
  | 0, _ => .error .malformed
  | fuel + 1, cs => do
    let (v, rest) ← value? depth fuel cs
    match skipSpaces rest with
    | ',' :: rest =>
      let (vs, rest) ← items? depth fuel (skipSpaces rest)
      .ok (v :: vs, rest)
    | ']' :: rest => .ok ([v], rest)
    | _ => .error .malformed

/-- The fields of a record after those already read, up to and including the closing brace. -/
def fields? (depth : Nat) : Nat → List (String × Value) → List Char →
    Except Fault (List (String × Value) × List Char)
  | 0, _, _ => .error .malformed
  | fuel + 1, known, cs =>
    match cs with
    | '"' :: rest => do
      let (name, rest) ← text? rest
      match skipSpaces rest with
      | ':' :: rest =>
        let (v, rest) ← value? depth fuel (skipSpaces rest)
        let known := setField known name v
        match skipSpaces rest with
        | ',' :: rest => fields? depth fuel known (skipSpaces rest)
        | '\x7d' :: rest => .ok (known, rest)
        | _ => .error .malformed
      | _ => .error .malformed
    | _ => .error .malformed

end

/-- A value that begins with none of the marks of texts, lists and records is none of them. -/
theorem value?_eq_atom? {c : Char} (hc : c ∉ ['"', '[', '\x7b']) (depth fuel : Nat)
    (cs : List Char) : value? depth (fuel + 1) (c :: cs) = atom? (c :: cs) := by
  simp only [List.mem_cons, List.not_mem_nil, or_false, not_or] at hc
  obtain ⟨hquote, hbracket, hbrace⟩ := hc
  rw [value?] <;> simp [hquote, hbracket, hbrace]

def read (s : String) : Except Fault Value := do
  let cs := s.toList
  let (v, rest) ← value? 0 (cs.length + 1) (skipSpaces cs)
  if (skipSpaces rest).isEmpty then .ok v else .error .malformed

/-! ## Writing -/

def numberedUnit (u : Nat) : String := "\\u" ++ paddedHex 4 u

/-- One character of a text; above ASCII all are written as they are, except halves of pairs. -/
def escape (c : Char) : String :=
  match c with
  | '"' => "\\\""
  | '\\' => "\\\\"
  | '\n' => "\\n"
  | '\r' => "\\r"
  | '\t' => "\\t"
  | '\x0c' => "\\f"
  | '\x08' => "\\b"
  | c =>
    if c.toNat < 0x20 || (unpaired? c).isSome then numberedUnit ((unpaired? c).getD c.toNat)
    else c.toString

def textLiteral (s : String) : String :=
  "\"" ++ String.join (s.toList.map escape) ++ "\""

def literal : Value → String
  | .null => "null"
  | .bool b => if b then "true" else "false"
  | .int i => toString i
  | .float x => shortestText .document x
  | .text s => textLiteral s
  | .list _ => "[]"
  | .record _ => "\x7b\x7d"

mutual

def compact : Value → String
  | .list items => "[" ++ ", ".intercalate (compactItems items) ++ "]"
  | .record fields => "\x7b" ++ ", ".intercalate (compactFields fields) ++ "\x7d"
  | .null => literal .null
  | .bool b => literal (.bool b)
  | .int i => literal (.int i)
  | .float x => literal (.float x)
  | .text s => literal (.text s)

def compactItems : List Value → List String
  | [] => []
  | v :: rest => compact v :: compactItems rest

def compactFields : List (String × Value) → List String
  | [] => []
  | (k, v) :: rest => (textLiteral k ++ ": " ++ compact v) :: compactFields rest

end

/-- The start of a line at a depth: two spaces for each level. -/
def lineAt (depth : Nat) : String := "\n" ++ String.ofList (List.replicate (2 * depth) ' ')

/-- Parts on lines of their own between two brackets, which stand alone if there are none. -/
def block (depth : Nat) (opening closing : String) (parts : List String) : String :=
  if parts.isEmpty then opening ++ closing
  else
    opening ++ lineAt (depth + 1) ++ ("," ++ lineAt (depth + 1)).intercalate parts
      ++ lineAt depth ++ closing

mutual

/-- A value with each part on a line of its own, indented by its depth. -/
def indented (depth : Nat) : Value → String
  | .list items => block depth "[" "]" (indentedItems (depth + 1) items)
  | .record fields => block depth "\x7b" "\x7d" (indentedFields (depth + 1) fields)
  | .null => literal .null
  | .bool b => literal (.bool b)
  | .int i => literal (.int i)
  | .float x => literal (.float x)
  | .text s => literal (.text s)

def indentedItems (depth : Nat) : List Value → List String
  | [] => []
  | v :: rest => indented depth v :: indentedItems depth rest

def indentedFields (depth : Nat) : List (String × Value) → List String
  | [] => []
  | (k, v) :: rest => (textLiteral k ++ ": " ++ indented depth v) :: indentedFields depth rest

end

end ClusterRounds.Json
