/-
  ClusterRounds.Packing.Code

  Codes of symbols by bits, in which no code starts another one. Such a code is given by
  the lengths alone: shorter codes come before longer ones, and codes of one length are
  in the order of their symbols. A symbol may also stand for how recent something is.
-/

import ClusterRounds.Packing.Input

namespace ClusterRounds.Packing

def toFront {β : Type} (xs : List β) (place : Nat) : List β :=
  match xs[place]? with
  | some x => x :: xs.eraseIdx place
  | none => xs

/-- The symbols of each length, from one bit on. -/
abbrev Code := List (List Nat)

namespace Code

/-- The code of the lengths of all symbols; a symbol of length zero has none. -/
def ofLengths (longest : Nat) (lengths : List Nat) : Code :=
  let symbols := lengths.zipIdx
  (List.range longest).map fun l =>
    symbols.filterMap fun (length, symbol) => if length = l + 1 then some symbol else none

/-- How many codes of the length behind the last one could still be given, or none if there are too
    many already. The first number is that of the codes that are free at the first length. -/
def spare? : Nat → Code → Option Nat
  | free, [] => some free
  | free, symbols :: longer =>
    if free < symbols.length then none else spare? (2 * (free - symbols.length)) longer

/-- Does every sequence of bits start with a code? -/
def isComplete (code : Code) : Bool := spare? 2 code = some 0

/-- Are there not more codes than there can be? -/
def isPossible (code : Code) : Bool := (spare? 2 code).isSome

/-- The symbol of the next bits, from a length on: `first` is the number of the first code of the
    length before, and `read` the number that has been read. -/
def symbolFrom (order : Order) (fault : ContentFault) : Code → Nat → Nat → Reading Nat
  | [], _, _ => throw fault
  | symbols :: longer, first, read => do
    let read := 2 * read + (← bit order).toNat
    match symbols[read - first]? with
    | some s => return s
    | none => symbolFrom order fault longer (2 * (first + symbols.length)) read

def symbol (code : Code) (order : Order) (fault : ContentFault) : Reading Nat :=
  symbolFrom order fault code 0 0

/-- The number of the first code of each length. -/
def firsts : Nat → Code → List Nat
  | _, [] => []
  | first, symbols :: longer => first :: firsts (2 * (first + symbols.length)) longer

def ofSymbol? (code : Code) (s : Nat) : Option (Nat × Nat) :=
  ((code.zip (firsts 0 code)).zipIdx.findSome? fun ((symbols, first), l) =>
    (symbols.idxOf? s).map fun i => (l + 1, first + i))

end Code

end ClusterRounds.Packing
