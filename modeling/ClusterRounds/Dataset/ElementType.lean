/-
  ClusterRounds.Dataset.ElementType

  The types that the elements of a stored array can have: what becomes of a double that
  is stored as one of them, and which double some octets stand for. The order of the
  octets is no part of a type; it goes with the name under which a type is known.
-/

import ClusterRounds.Failure.Operand
import ClusterRounds.Files.Octets
import ClusterRounds.Number.Numeral
import ClusterRounds.Tensor.Basic
import ClusterRounds.Text.Unpaired

namespace ClusterRounds

open Number

inductive ElementType where
  | flag
  | integer (signed : Bool) (bits : Nat)
  | binary (format : Format)
  /-- A binary number of 80 bits with an explicit leading one, in sixteen octets. -/
  | extended
  /-- A pair of numbers, of which the first one counts. -/
  | pair (part : ElementType)
  /-- A text of some characters, each in four octets. -/
  | characters (count : Nat)
  | octets (count : Nat)
  /-- Some elements of one type, in each place. -/
  | repeated (count : Nat) (part : ElementType)
  /-- Octets that are no number: several fields, or nothing that is known. -/
  | several (octets : Nat)
  /-- Objects of any kind, which are not stored with the array. -/
  | objects

namespace ElementType

/-! ## Names -/

def names : List (String × ElementType) :=
  [("bool", .flag), ("bool_", .flag), ("int8", .integer true 8), ("byte", .integer true 8),
    ("int16", .integer true 16), ("short", .integer true 16), ("int32", .integer true 32),
    ("intc", .integer true 32), ("int64", .integer true 64), ("int", .integer true 64),
    ("int_", .integer true 64), ("intp", .integer true 64), ("long", .integer true 64),
    ("longlong", .integer true 64), ("uint8", .integer false 8), ("ubyte", .integer false 8),
    ("uint16", .integer false 16), ("ushort", .integer false 16), ("uint32", .integer false 32),
    ("uintc", .integer false 32), ("uint64", .integer false 64), ("uint", .integer false 64),
    ("uintp", .integer false 64), ("ulong", .integer false 64), ("ulonglong", .integer false 64),
    ("float16", .binary .half), ("half", .binary .half), ("float32", .binary .single),
    ("single", .binary .single), ("float64", .binary .double), ("double", .binary .double),
    ("float", .binary .double), ("longdouble", .extended), ("float128", .extended),
    ("complex64", .pair (.binary .single)), ("csingle", .pair (.binary .single)),
    ("complex128", .pair (.binary .double)), ("cdouble", .pair (.binary .double)),
    ("complex", .pair (.binary .double)), ("clongdouble", .pair .extended),
    ("complex256", .pair .extended), ("str", .characters 0), ("str_", .characters 0),
    ("unicode", .characters 0), ("bytes", .octets 0), ("bytes_", .octets 0), ("void", .several 0),
    ("object", .objects), ("object_", .objects)]

def letters : List (Char × ElementType) :=
  [('?', .flag), ('b', .integer true 8), ('B', .integer false 8), ('h', .integer true 16),
    ('H', .integer false 16), ('i', .integer true 32), ('I', .integer false 32),
    ('l', .integer true 64), ('L', .integer false 64), ('q', .integer true 64),
    ('Q', .integer false 64), ('p', .integer true 64), ('P', .integer false 64),
    ('n', .integer true 64), ('N', .integer false 64), ('e', .binary .half),
    ('f', .binary .single), ('d', .binary .double), ('g', .extended),
    ('F', .pair (.binary .single)), ('D', .pair (.binary .double)), ('G', .pair .extended),
    ('S', .octets 0), ('a', .octets 0), ('c', .octets 1), ('U', .characters 0), ('V', .several 0),
    ('O', .objects), ('M', .integer true 64), ('m', .integer true 64)]

def ofKind? (kind : Char) (count : Nat) : Option ElementType :=
  match kind, count with
  | 'b', 1 => some .flag
  | 'i', 1 | 'i', 2 | 'i', 4 | 'i', 8 => some (.integer true (8 * count))
  | 'u', 1 | 'u', 2 | 'u', 4 | 'u', 8 => some (.integer false (8 * count))
  | 'f', 2 => some (.binary .half)
  | 'f', 4 => some (.binary .single)
  | 'f', 8 => some (.binary .double)
  | 'f', 16 => some .extended
  | 'c', 8 => some (.pair (.binary .single))
  | 'c', 16 => some (.pair (.binary .double))
  | 'c', 32 => some (.pair .extended)
  | 'O', 4 | 'O', 8 => some .objects
  | 'S', n | 'a', n => some (.octets n)
  | 'U', n => some (.characters n)
  | 'V', n => some (.several n)
  | _, _ => none

/-- The units in which moments and spans of time are counted. -/
def timeUnits : List String :=
  ["Y", "M", "W", "D", "h", "m", "s", "ms", "us", "μs", "ns", "ps", "fs", "as", "generic"]

/-- Is it a unit of time between brackets, with a factor or a divisor, or nothing? -/
def isTimeUnit (cs : List Char) : Bool :=
  match cs with
  | [] => true
  | '[' :: rest =>
    let unit := rest.dropWhile Char.isDigit
    let divisor := (unit.dropWhile (· ≠ '/')).dropLast
    timeUnits.contains (String.ofList ((unit.takeWhile (· ≠ '/')).takeWhile (· ≠ ']')))
      && cs.getLast? = some ']' && (divisor.drop 1).all Char.isDigit
  | _ => false

/-- The names of moments and spans of time; they are stored as numbers of units. -/
def timeNames : List String := ["M8", "m8", "datetime64", "timedelta64"]

/-- The type of a code without a mark for the order of its octets. -/
def ofCode? (cs : List Char) : Option ElementType :=
  if timeNames.any fun name =>
      name.toList.isPrefixOf cs && isTimeUnit (cs.drop name.length) then some (.integer true 64)
  else
    match cs with
    | [letter] => letters.lookup letter
    | kind :: digits =>
      if digits.all Char.isDigit then ofKind? kind (digitsValue digits) else none
    | [] => none

/-- The type of a code, and whether its octets come with the most significant one first. -/
def ofMarkedCode? (cs : List Char) : Option (Bool × ElementType) :=
  match cs with
  | '>' :: rest => (ofCode? rest).map (true, ·)
  | '<' :: rest | '|' :: rest | '=' :: rest => (ofCode? rest).map (false, ·)
  | _ => (ofCode? cs).map (false, ·)

def ofName? (s : String) : Option (Bool × ElementType) :=
  match names.lookup s with
  | some t => some (false, t)
  | none => ofMarkedCode? s.toList

/-! ## Storing doubles -/

/-- The bits of the word in which a double is cut to an integer of a type. -/
def wordBits (signed : Bool) (bits : Nat) : Nat :=
  if bits < 32 then 32 else if signed then bits else 64

/-- A double cut to a signed word. One that does not fit becomes the least word. -/
def toWord (bits : Nat) (x : Float) : Int :=
  match (Parts.ofFloat x).truncate? with
  | some i => if -(2 ^ (bits - 1)) ≤ i && i < 2 ^ (bits - 1) then i else -(2 ^ (bits - 1))
  | none => -(2 ^ (bits - 1))

/-- A double cut to an integer of some bits: what does not fit into them is dropped. -/
def toInteger (signed : Bool) (bits : Nat) (x : Float) : Int :=
  let word :=
    if !signed && bits = 64 && 9223372036854775808.0 ≤ x then
      toWord 64 (x - 9223372036854775808.0) + 2 ^ 63
    else toWord (wordBits signed bits) x
  if signed then word.bmod (2 ^ bits) else word % 2 ^ bits

/-- The number that a text denotes after it has been cut to some characters; none at all stands for
    as many as are needed. -/
def numberOfText (count : Nat) (s : String) : Except OperandFault Float :=
  let kept := if count = 0 then s else String.ofList (s.toList.take count)
  (float? kept).elim (.error .notANumeral) .ok

/-- The double that is read back of one that has been stored. -/
def store : ElementType → Float → Except OperandFault Float
  | flag, x => .ok (if x == 0 then 0 else 1)
  | integer signed bits, x => .ok (floatOfInt (toInteger signed bits x))
  | binary format, x => .ok (roundThrough format x)
  | extended, x => .ok x
  | pair part, x => part.store x
  | characters n, x | octets n, x => numberOfText n (shortestText .message x)
  | repeated _ _, _ => .error .shapesDiffer
  | several _, _ => .error .wrongKind
  | objects, _ => .error .notANumeral

/-! ## Reading octets -/

def width : ElementType → Nat
  | flag => 1
  | integer _ bits => bits / 8
  | binary format => if format.precision = 11 then 2 else if format.precision = 24 then 4 else 8
  | extended => 16
  | pair part => 2 * part.width
  | characters n => 4 * n
  | octets n | several n => n
  | repeated n part => n * part.width
  | objects => 8

/-- How many octets belong together, and change places if their order is the other one. -/
def unit : ElementType → Nat
  | pair part | repeated _ part => part.unit
  | characters _ => 4
  | octets _ | several _ => 1
  | type => type.width

def nearest : Parts → Float
  | .finite negative m e =>
    let (num, den) := ratioOf m e
    floatOfRatio negative num den
  | p => p.toFloat

/-- The value of an extended number, whose leading one is among its 64 digits. -/
def extendedParts (bits : Nat) : Parts :=
  let magnitude := bits % 2 ^ 64
  let code := bits / 2 ^ 64 % 2 ^ 15
  let negative := bits / 2 ^ 79 % 2 = 1
  if code = 2 ^ 15 - 1 then
    if magnitude % 2 ^ 63 = 0 then .infinite negative else .undefined
  else .finite negative magnitude ((max code 1 : Nat) - 16446)

/-- A text without the null characters at its end. -/
def trimmed (cs : List Nat) : List Nat := (cs.reverse.dropWhile (· = 0)).reverse

/-- The text of characters by their numbers, if all of them are numbers of characters. -/
def textOf? (cs : List Nat) : Option String :=
  (cs.mapM fun n =>
    if Text.isHalf n then some (Text.ofUnpaired n)
    else if n < 0x110000 then some (Char.ofNat n) else none).map String.ofList

/-- May an octet stand in the text of a number? Only ASCII does, and of it not the separators. -/
def isPlain (n : Nat) : Bool := n < 0x1C || (0x20 ≤ n && n < 0x80)

/-- The double of an element's octets, the least significant one of each unit first. -/
def ofOctets (type : ElementType) (cs : List UInt8) : Except OperandFault Float :=
  let n := Files.ofOctets cs
  match type with
  | flag => .ok (if n = 0 then 0 else 1)
  | integer signed bits => .ok (floatOfInt (if signed then (n : Int).bmod (2 ^ bits) else n))
  | binary format => .ok (nearest (.ofBits format n))
  | extended => .ok (nearest (extendedParts n))
  | pair part => part.ofOctets (cs.take part.width)
  | characters count =>
    let units := trimmed ((pieces 4 count cs).map Files.ofOctets)
    ((textOf? units).bind float?).elim (.error .notANumeral) .ok
  | octets _ =>
    let units := trimmed (cs.map UInt8.toNat)
    if units.all isPlain then
      ((textOf? units).bind float?).elim (.error .notANumeral) .ok
    else .error .notANumeral
  | repeated _ part => part.ofOctets cs
  | several _ => .error .wrongKind
  | objects => .error .notANumeral

def read (swapped : Bool) (type : ElementType) (cs : List UInt8) : Except OperandFault Float :=
  if swapped then
    type.ofOctets ((pieces type.unit (cs.length / type.unit) cs).flatMap List.reverse)
  else type.ofOctets cs

end ElementType

end ClusterRounds
