/-
  ClusterRounds.Files.Literal

  Values as the headers of stored arrays write them: quoted texts, integers, two flags,
  tuples and lists, and records between braces. A comma may stand behind the last item,
  and comments and line ends count as blanks. In older headers an integer may be marked
  as a long one.
-/

import ClusterRounds.Value.Json

namespace ClusterRounds.Files

inductive Literal where
  | text (s : String)
  | integer (i : Int)
  | flag (b : Bool)
  | tuple (items : List Literal)
  | list (items : List Literal)
  | record (fields : List (String × Literal))

namespace Literal

open Number

/-! ## Blanks -/

def afterComment : List Char → List Char
  | [] => []
  | '\n' :: rest => rest
  | _ :: rest => afterComment rest

theorem length_afterComment : ∀ cs : List Char, (afterComment cs).length ≤ cs.length
  | [] => Nat.le_refl _
  | c :: rest => by
    have := length_afterComment rest
    unfold afterComment
    split <;> simp_all
    omega

/-- What follows blanks, line ends and comments. -/
def skipBlanks (cs : List Char) : List Char :=
  match cs with
  | [] => []
  | c :: rest =>
    if c = '#' then
      have := length_afterComment rest
      skipBlanks (afterComment rest)
    else if [' ', '\t', '\n', '\r', '\x0c'].contains c then skipBlanks rest
    else c :: rest
termination_by cs.length

/-! ## Texts -/

/-- The body of a text up to the given closing quotes, and what follows them. -/
def textBody (raw : Bool) (closing : List Char) : List Char → Option (List Char × List Char)
  | [] => none
  | '\\' :: d :: rest =>
    -- of the escapes only those of quotes and of the backslash are known
    let kept := if !raw && ['\\', '\'', '"'].contains d then [d] else ['\\', d]
    (textBody raw closing rest).map fun (cs, rest) => (kept ++ cs, rest)
  | c :: rest =>
    if closing.isPrefixOf (c :: rest) then some ([], (c :: rest).drop closing.length)
    else if c = '\n' && closing.length = 1 then none
    else (textBody raw closing rest).map fun (cs, rest) => (c :: cs, rest)

/-- A text whose marks and opening quotes are in front. -/
def text? (raw : Bool) (cs : List Char) : Option (List Char × List Char) :=
  match cs with
  | '\'' :: '\'' :: '\'' :: rest => textBody raw ['\'', '\'', '\''] rest
  | '"' :: '"' :: '"' :: rest => textBody raw ['"', '"', '"'] rest
  | '\'' :: rest => textBody raw ['\''] rest
  | '"' :: rest => textBody raw ['"'] rest
  | _ => none

/-- A text with the letter that may stand in front of it. -/
def markedText? : List Char → Option (List Char × List Char)
  | 'r' :: rest | 'R' :: rest => text? true rest
  | 'u' :: rest | 'U' :: rest => text? false rest
  | cs => text? false cs

/-- Texts that stand behind one another are one text. -/
def texts? : Nat → List Char → Option (List Char × List Char)
  | 0, _ => none
  | fuel + 1, cs => do
    let (first, rest) ← markedText? cs
    match texts? fuel (skipBlanks rest) with
    | some (more, rest) => some (first ++ more, rest)
    | none => some (first, rest)

/-! ## Values -/

/-- The integer of a run of digits; only zero may start with a zero. -/
def digits? (cs : List Char) : Option Nat := do
  let digits ← joinGroups false cs
  if digits.isEmpty || !digits.all Char.isDigit || maxIntegerDigits < digits.length then none
  else if digits.head? = some '0' && digits.any (· ≠ '0') then none
  else some (digitsValue digits)

/-- The integer of a run of digits to a base, where one line may stand in front of each digit. -/
def basedDigits? (base : Nat) : Nat → List Char → Option Nat
  | n, [] => some n
  | n, '_' :: c :: rest => do
    let digit ← Json.hexDigit? c
    if base ≤ digit then none else basedDigits? base (base * n + digit) rest
  | n, c :: rest => do
    let digit ← Json.hexDigit? c
    if base ≤ digit then none else basedDigits? base (base * n + digit) rest

/-- The integer of a run of digits, with a mark of its base in front if it is not ten. -/
def run? : List Char → Option Nat
  | '0' :: mark :: c :: rest =>
    let base := [('x', 16), ('X', 16), ('o', 8), ('O', 8), ('b', 2), ('B', 2)].lookup mark
    match base with
    | some base => basedDigits? base 0 (c :: rest)
    | none => digits? ('0' :: mark :: c :: rest)
  | cs => digits? cs

/-- An integer without sign, and the mark of a long one. -/
def integer? (marked : Bool) (cs : List Char) : Option (Nat × List Char) := do
  let isPart (c : Char) := c.isAlphanum || c = '_' || c = '.'
  let run := cs.takeWhile isPart
  let rest := cs.dropWhile isPart
  match run.getLast? with
  | some 'L' => if marked then some (← run? run.dropLast, rest) else none
  | _ => some (← run? run, rest)

def flag? (cs : List Char) : Option (Bool × List Char) :=
  let word := cs.takeWhile fun c => c.isAlphanum || c = '_'
  let rest := cs.drop word.length
  if word = "True".toList then some (true, rest)
  else if word = "False".toList then some (false, rest)
  else none

/-- What stands between parentheses: one item without a comma is itself. -/
def enclosed (items : List Literal) (comma : Bool) : Literal :=
  match items, comma with
  | [v], false => v
  | _, _ => .tuple items

mutual

/-- A value at the start of the text, and what follows it. The fuel bounds the values and separators
    on one path, which the length of the text does. -/
def value? (marked : Bool) : Nat → List Char → Option (Literal × List Char)
  | 0, _ => none
  | fuel + 1, cs =>
    match cs with
    | '(' :: rest => do
      let (items, comma, rest) ← items? marked fuel ')' (skipBlanks rest)
      some (enclosed items comma, rest)
    | '[' :: rest => do
      let (items, _, rest) ← items? marked fuel ']' (skipBlanks rest)
      some (.list items, rest)
    | '\x7b' :: rest => do
      let (fields, rest) ← fields? marked fuel [] (skipBlanks rest)
      some (.record fields, rest)
    | '-' :: rest => do
      let (n, rest) ← integer? marked (skipBlanks rest)
      some (.integer (-n), rest)
    | '+' :: rest => do
      let (n, rest) ← integer? marked (skipBlanks rest)
      some (.integer n, rest)
    | cs =>
      match integer? marked cs with
      | some (n, rest) => some (.integer n, rest)
      | none =>
        match flag? cs with
        | some (b, rest) => some (.flag b, rest)
        | none => do
          let (s, rest) ← texts? fuel cs
          some (.text (String.ofList s), rest)

/-- The items up to a closing bracket, and whether there was a comma. -/
def items? (marked : Bool) : Nat → Char → List Char → Option (List Literal × Bool × List Char)
  | 0, _, _ => none
  | fuel + 1, closing, cs =>
    match cs with
    | [] => none
    | c :: rest =>
      if c = closing then some ([], false, rest)
      else do
        let (v, rest) ← value? marked fuel (c :: rest)
        match skipBlanks rest with
        | ',' :: rest => do
          let (items, _, rest) ← items? marked fuel closing (skipBlanks rest)
          some (v :: items, true, rest)
        | d :: rest => if d = closing then some ([v], false, rest) else none
        | [] => none

/-- The fields after those already read, up to the closing brace. -/
def fields? (marked : Bool) : Nat → List (String × Literal) → List Char →
    Option (List (String × Literal) × List Char)
  | 0, _, _ => none
  | fuel + 1, known, cs =>
    match cs with
    | '\x7d' :: rest => some (known, rest)
    | cs => do
      let (.text name, rest) ← value? marked fuel cs | none
      let ':' :: rest := skipBlanks rest | none
      let (v, rest) ← value? marked fuel (skipBlanks rest)
      let known := Json.setField known name v
      match skipBlanks rest with
      | ',' :: rest => fields? marked fuel known (skipBlanks rest)
      | '\x7d' :: rest => some (known, rest)
      | _ => none

end

/-- The value of a whole text. -/
def read? (marked : Bool) (cs : List Char) : Option Literal := do
  let (v, rest) ← value? marked (cs.length + 1) (skipBlanks cs)
  if (skipBlanks rest).isEmpty then some v else none

/-! ## Texts that end too early -/

/-- Does it start with three quotes of one kind? -/
def isLongQuote (cs : List Char) : Bool :=
  cs.take 3 = ['\'', '\'', '\''] || cs.take 3 = ['"', '"', '"']

/-- How many brackets are open at the end of a text. Brackets inside texts and comments do not
    count; a quote that nothing closes is no text, but three of them are still open there. -/
def openBrackets : Nat → Int → List Char → Int
  | 0, depth, _ => depth
  | _, depth, [] => depth
  | fuel + 1, depth, c :: rest =>
    if c = '#' then openBrackets fuel depth (afterComment rest)
    else if c = '\'' || c = '"' then
      match text? false (c :: rest) with
      | some (_, rest) => openBrackets fuel depth rest
      | none => if isLongQuote (c :: rest) then 1 else openBrackets fuel depth rest
    else if "([\x7b".toList.contains c then openBrackets fuel (depth + 1) rest
    else if ")]\x7d".toList.contains c then openBrackets fuel (depth - 1) rest
    else openBrackets fuel depth rest

/-- Does a text close other brackets than it opens? -/
def isOpen (cs : List Char) : Bool := openBrackets (cs.length + 1) 0 cs ≠ 0

end Literal

end ClusterRounds.Files
