/-
  MARGINS — runs of blanks that set a text off to the right.

  A margin is as wide as a caller says, and the caller may say any integer.  So there are two kinds
  of answer:

  1. **At or below zero** there is no margin, and the text stands where it stood.
  2. **A width that cannot be had** is refused: one beyond the signed 64-bit range is no width at
     all, and for any other one there may be too little memory.  How much there is depends on the
     machine, so the widest margin that it has ROOM for is a parameter.
-/
import Routing.Text.Basic

namespace Routing

/-- Why a margin cannot be set. -/
inductive MarginFault where
  /-- The width is beyond the signed 64-bit range, on either side. -/
  | noWidth
  /-- The machine has no room for the margin. -/
  | noRoom
  deriving DecidableEq

namespace Text

/-- The bound of the signed 64-bit range: the least integer above it. -/
def widthBound : Int := Nat.pow 2 63

/-- The blanks of a margin. -/
def margin (width : Int) : Text := List.replicate width.toNat ' '

/-- What is wrong with a width, if anything is, on a machine with room for `room` blanks. -/
def marginFault? (room : Nat) (width : Int) : Option MarginFault :=
  if width < -widthBound ∨ widthBound ≤ width then some .noWidth
  else if room < width then some .noRoom
  else none

/-- The **margin of a width**, if it can be had. -/
def tryMargin (room : Nat) (width : Int) : Except MarginFault Text :=
  match marginFault? room width with
  | some f => .error f
  | none => .ok (margin width)

end Text

/-! ## Examples -/

example : Text.margin 2 = "  ".toList ∧ Text.margin (-1) = [] := by decide
example : Text.marginFault? 80 (-9223372036854775808) = none
    ∧ Text.marginFault? 80 (-9223372036854775809) = some .noWidth
    ∧ Text.marginFault? 80 9223372036854775807 = some .noRoom
    ∧ Text.marginFault? 80 9223372036854775808 = some .noWidth := by decide

end Routing
