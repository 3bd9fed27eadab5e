/-
  SETTING VALUES.

  What a caller may set — a capacity, a time to live, a switch — comes from files, from the
  environment and from other programs, and no one has checked it: where a number is expected there
  may be a text.  So a setting is a DYNAMIC value, and each use says what it needs of it:

  * a comparison needs a number (`number?`); the truth values count as 0 and 1;
  * a switch needs only to be on or off (`isOn`), and every value is one of the two;
  * a message shows a number as a text (`shown`), unless it is an integer of too many digits.
-/
import Routing.Number.Shortest

namespace Routing

/-- A value that a caller has set. -/
inductive Setting where
  | null
  | bool (b : Bool)
  | int (n : Int)
  | float (x : Float)
  | text (t : Text)
  | list (items : List Setting)

namespace Setting

/-- The exact value of a number or truth value; other settings cannot be compared. -/
def number? : Setting → Option Exact
  | .bool b => some (.ofInt b.toNat)
  | .int n => some (.ofInt n)
  | .float x => some (.ofFloat x)
  | _ => none

/-- Whether a switch set to this value is on: all is on but null, false, zero and what is empty. -/
def isOn : Setting → Bool
  | .null => false
  | .bool b => b
  | .int n => n ≠ 0
  | .float x => x != 0.0
  | .text t => !t.isEmpty
  | .list items => !items.isEmpty

/-- Numbers are written with a plain point from `0.0001` up to sixteen digits before it, and else
    with an exponent of at least two digits. -/
def numberStyle : DecimalStyle := ⟨-4, 15, 2⟩

/-- The text of a number or truth value, as a message shows it; other settings are never shown. -/
def shown : Setting → Text
  | .bool b => if b then "True".toList else "False".toList
  | .int n => Text.ofInt n
  | .float x => floatText numberStyle x
  | _ => []

/-- Whether a message can show the value. -/
def isTellable : Setting → Bool
  | .int n => Text.isTellable n
  | _ => true

end Setting

/-! ## Examples -/

example : (Setting.float (-1e16)).shown = "-1e+16".toList := by decide +kernel
example : (Setting.float (-0.0)).shown = "-0.0".toList
    ∧ (Setting.int (-3)).shown = "-3".toList := by decide +kernel
example : (Setting.float (0.0 / 0.0)).isOn = true ∧ (Setting.text []).isOn = false := by
  decide +kernel

end Routing
