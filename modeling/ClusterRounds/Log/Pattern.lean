/-
  ClusterRounds.Log.Pattern

  Messages with places for arguments: a percent sign, a key if the arguments are a
  record, flags, a width, a number of digits, and a letter that says in which form the
  argument is written. A pattern is only filled if there are arguments. Unless they
  are a record, all of them have to be used.
-/

import ClusterRounds.Value.Basic

namespace ClusterRounds.Pattern

open Number Text

/-! ## Reading a pattern -/

/-- A width or a number of digits: given in the pattern, or the next argument. -/
inductive Extent where
  | given (n : Nat)
  | next
deriving Repr

/-- A place for an argument. Without a letter the pattern has ended too early. -/
structure Place where
  key : Option String
  left : Bool
  zeros : Bool
  plus : Bool
  space : Bool
  alternate : Bool
  width : Option Extent
  digits : Option Extent
  letter : Option Char

inductive Piece where
  | char (c : Char)
  | place (p : Place)
  | openKey

/-- Reads a key up to the parenthesis that closes it, at a depth of nesting. -/
def readKey : Nat → List Char → Option (List Char × List Char)
  | _, [] => none
  | 0, ')' :: rest => some ([], rest)
  | depth, c :: rest =>
    -- only the parenthesis that matches the first one ends the key
    let inner := if c = '(' then depth + 1 else if c = ')' then depth - 1 else depth
    (readKey inner rest).map fun (key, rest) => (c :: key, rest)

/-- Reads a width or a number of digits; without digits there is none. -/
def readExtent : List Char → Option Extent × List Char
  | '*' :: rest => (some .next, rest)
  | cs =>
    match cs.takeWhile Char.isDigit with
    | [] => (none, cs)
    | digits => (some (.given (digitsValue digits)), cs.dropWhile Char.isDigit)

def readPlace (key : Option String) (cs : List Char) : Place × List Char :=
  let isFlag (c : Char) := c = '-' || c = '0' || c = '+' || c = ' ' || c = '#'
  let flags := cs.takeWhile isFlag
  let (width, rest) := readExtent (cs.dropWhile isFlag)
  let (digits, rest) :=
    match rest with
    | '.' :: rest =>
      let (digits, rest) := readExtent rest
      (some (digits.getD (.given 0)), rest)
    | rest => (none, rest)
  -- a letter for the size of the argument says nothing
  let rest :=
    match rest with
    | c :: more => if c = 'h' || c = 'l' || c = 'L' then more else rest
    | [] => []
  ({ key
     left := flags.contains '-'
     zeros := flags.contains '0'
     plus := flags.contains '+'
     space := flags.contains ' '
     alternate := flags.contains '#'
     width, digits
     letter := rest.head? }, rest.tail)

/-- The pieces of a pattern, in which two percent signs are one; the fuel bounds its length. -/
def pieces : Nat → List Char → List Piece
  | 0, _ | _, [] => []
  | fuel + 1, '%' :: '%' :: rest => .char '%' :: pieces fuel rest
  | fuel + 1, '%' :: '(' :: rest =>
    match readKey 0 rest with
    | none => [.openKey]
    | some (key, rest) =>
      let (place, rest) := readPlace (some (String.ofList key)) rest
      .place place :: pieces fuel rest
  | fuel + 1, '%' :: rest =>
    let (place, rest) := readPlace none rest
    .place place :: pieces fuel rest
  | fuel + 1, c :: rest => .char c :: pieces fuel rest

/-! ## Arguments -/

/-- The arguments to come: a row of them, or a record with the value that a place without a key
    gets. -/
inductive Supply where
  | row (values : List Value)
  | fields (record : List (String × Value)) (current : Option Value)

/-- One record that is not empty is taken by its fields. -/
def Supply.of : List Value → Supply
  | [.record all] =>
    if all.isEmpty then .row [.record all] else .fields all (some (.record all))
  | values => .row values

/-- The next argument, and those after it. -/
def Supply.take : Supply → Except OperandFault (Value × Supply)
  | row (v :: rest) => .ok (v, row rest)
  | fields all (some v) => .ok (v, fields all none)
  | _ => .error .wrongKind

def Supply.at (key : Option String) : Supply → Except OperandFault Supply
  | row values => if key.isSome then .error .wrongKind else .ok (row values)
  | fields all current =>
    match key with
    | none => .ok (fields all current)
    | some key => (all.lookup key).elim (.error .missingField) fun v => .ok (fields all (some v))

def integerOf : Value → Except OperandFault Int
  | .int i => .ok i
  | .bool b => .ok (Quantity.ofFlag b)
  | _ => .error .wrongKind

def largestExtent : Nat := 2 ^ 31 - 1

/-- The number that an extent stands for; one that is an argument has to be an integer. -/
def Supply.extent : Option Extent → Supply → Except OperandFault (Option Int × Supply)
  | none, s => .ok (none, s)
  | some (.given n), s => if largestExtent < n then .error .badPattern else .ok (some n, s)
  | some .next, s => do
    let (v, s) ← s.take
    let i ← integerOf v
    if largestExtent < i.natAbs then throw .tooLarge else return (some i, s)

/-! ## Writing an argument -/

/-- A written number: its sign, what marks its base, and the digits. -/
structure Written where
  sign : String
  mark : String
  digits : String

/-- Takes a sign off a text. -/
def unsigned (p : Place) (mark text : String) : Written :=
  match text.toList with
  | '-' :: rest => ⟨"-", mark, String.ofList rest⟩
  | _ => ⟨if p.plus then "+" else if p.space then " " else "", mark, text⟩

def blanks (n : Nat) : String := String.ofList (List.replicate n ' ')

def pad (left : Bool) (width : Nat) (text : String) : String :=
  let missing := blanks (width - text.length)
  if left then text ++ missing else missing ++ text

/-- Fills a number up to a width, with zeros behind the sign if they are asked for. -/
def padNumber (p : Place) (left : Bool) (width : Nat) (w : Written) : String :=
  let length := w.sign.length + w.mark.length + w.digits.length
  let zeros :=
    if p.zeros && !left then String.ofList (List.replicate (width - length) '0') else ""
  pad left width (w.sign ++ w.mark ++ zeros ++ w.digits)

/-- An integer in a base, with at least so many digits. -/
def integerText (base least : Nat) (n : Int) : String :=
  let digits := Nat.toDigits base n.natAbs
  (if n < 0 then "-" else "")
    ++ String.ofList (List.replicate (least - digits.length) '0' ++ digits)

def numberOf (v : Value) : Except OperandFault Quantity :=
  v.quantity?.elim (.error .wrongKind) .ok

def cut (digits : Option Nat) (text : String) : String :=
  digits.elim text fun n => String.ofList (text.toList.take n)

def characterOf : Value → Except OperandFault String
  | .text s => if s.length = 1 then .ok s else .error .wrongKind
  | v => do
    let i ← integerOf v
    if 0 ≤ i && i < 0x110000 then return (Char.ofNat i.toNat).toString else throw .tooLarge

/-- A number with so many digits, or the usual six. -/
def floatText (p : Place) (letter : Char) (digits : Nat) (x : Float) : String :=
  match letter with
  | 'f' => withPoint p.alternate (fixedText digits x)
  | 'e' => withPoint p.alternate (scientificText digits x)
  | _ => generalText p.alternate (max 1 digits) x

/-- The text of an argument in the form that a letter asks for. -/
def write (p : Place) (letter : Char) (left : Bool) (width : Nat) (digits : Option Nat) (v : Value) :
    Except OperandFault String :=
  let number (mark text : String) := padNumber p left width (unsigned p mark text)
  let upper (text : String) := text.map Char.toUpper
  match letter with
  | 's' => .ok (pad left width (cut digits v.plain))
  | 'r' => .ok (pad left width (cut digits v.shown))
  | 'a' => .ok (pad left width (cut digits (asciiOnly v.shown)))
  | 'd' | 'i' | 'u' => do
    return number "" (integerText 10 (digits.getD 1) (← (← numberOf v).truncate))
  | 'x' => do
    return number (if p.alternate then "0x" else "") (integerText 16 (digits.getD 1) (← integerOf v))
  | 'X' => do
    return upper
      (number (if p.alternate then "0x" else "") (integerText 16 (digits.getD 1) (← integerOf v)))
  | 'o' => do
    return number (if p.alternate then "0o" else "") (integerText 8 (digits.getD 1) (← integerOf v))
  | 'f' | 'e' | 'g' => do
    return number "" (floatText p letter (digits.getD 6) (← (← numberOf v).toFloat))
  | 'F' | 'E' | 'G' => do
    return upper (number "" (floatText p letter.toLower (digits.getD 6) (← (← numberOf v).toFloat)))
  | 'c' => do return pad left width (← characterOf v)
  | _ => .error .badPattern

def fillPlace (p : Place) (s : Supply) : Except OperandFault (String × Supply) := do
  let s ← s.at p.key
  let (width, s) ← s.extent p.width
  let (digits, s) ← s.extent p.digits
  match p.letter with
  | none => throw .badPattern
  | some letter => do
    let (v, s) ← s.take
    -- a negative width that comes as an argument means the left side
    let width := width.getD 0
    let left := p.left || width < 0
    return (← write p letter left width.natAbs (digits.map Int.toNat) v, s)

def fill : List Piece → Supply → Except OperandFault String
  -- arguments are left over
  | [], .row (_ :: _) => .error .wrongKind
  | [], _ => .ok ""
  | .char c :: rest, s => do return c.toString ++ (← fill rest s)
  | .openKey :: _, .row _ => .error .wrongKind
  | .openKey :: _, .fields _ _ => .error .badPattern
  | .place p :: rest, s => do
    let (text, s) ← fillPlace p s
    return text ++ (← fill rest s)

def message (pattern : String) (args : List Value) : Except OperandFault String :=
  if args.isEmpty then .ok pattern
  else fill (pieces pattern.length pattern.toList) (.of args)

end ClusterRounds.Pattern
