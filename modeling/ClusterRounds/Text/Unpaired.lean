/-
  ClusterRounds.Text.Unpaired

  Halves of surrogate pairs that stand alone. A text has no character for them, so each
  is kept as a character for private use, all of them in the order of their numbers.
-/

namespace ClusterRounds.Text

/-- How far the characters lie above the halves that they stand for. -/
def unpairedOffset : Nat := 0xF0000

def isHalf (unit : Nat) : Bool := 0xD800 ≤ unit && unit < 0xE000

def ofUnpaired (unit : Nat) : Char := Char.ofNat (unit + unpairedOffset)

def unpaired? (c : Char) : Option Nat :=
  if isHalf (c.toNat - unpairedOffset) then some (c.toNat - unpairedOffset) else none

theorem unpaired?_ofUnpaired (unit : Nat) (h : isHalf unit) :
    unpaired? (ofUnpaired unit) = some unit := by
  have hu : 0xD800 ≤ unit ∧ unit < 0xE000 := by simpa [isHalf] using h
  have hv : (unit + unpairedOffset).isValidChar := by
    right; unfold unpairedOffset; omega
  have hc : (ofUnpaired unit).toNat = unit + unpairedOffset := by
    rw [ofUnpaired, Char.ofNat, dif_pos hv]
    rfl
  simp [unpaired?, hc, h]

end ClusterRounds.Text
