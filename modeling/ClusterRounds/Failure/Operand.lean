/-
  ClusterRounds.Failure.Operand

  Why an operation on values or arrays has no result. These causes carry no text:
  the operands are at fault, not a rule of the clustering.
-/

namespace ClusterRounds

inductive OperandFault where
  /-- The operation is not defined on a value of this kind. -/
  | wrongKind
  | notANumeral
  /-- Neither an integer nor a rounded one: the undefined number. -/
  | undefinedNumber
  /-- The result is beyond the range of the numbers it has to be in. -/
  | tooLarge
  /-- Two shapes cannot be brought together. -/
  | shapesDiffer
  | noElements
  /-- An array has fewer axes than were asked for. -/
  | missingAxis
  | rowOutOfRange
  /-- A single number is needed, and an array was given. -/
  | notASingleNumber
  /-- Rows of different lengths, or nested too deeply, do not make an array. -/
  | ragged
  /-- A text names nothing that is known. -/
  | unknownName
  /-- A record does not have the field that is asked for. -/
  | missingField
  /-- A thing cannot do what is asked of it. -/
  | missingPart
  /-- A number is not among those that are allowed. -/
  | outOfRange
  /-- A pattern for messages is not well formed. -/
  | badPattern
  /-- A text has half a surrogate pair and cannot be written. -/
  | notEncodable
  /-- A list or a text would not find room. -/
  | noRoom
  | noRoomForArray
deriving DecidableEq, Repr

end ClusterRounds
