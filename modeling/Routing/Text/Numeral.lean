/-
  NUMERALS — texts that stand for an integer or for a floating-point number.

  1. **Digits** are those of any script.  A single `_` may stand between two digits.  So a run of
     digits is what `List.splitOn '_'` cuts into non-empty pieces of digits only.
  2. **Integers** are a run of digits after an optional sign.  A run of more than `maxDigits` digits
     is refused, zeros in front included.
  3. **Floating-point numbers** are a run of digits with at most one point, before, within or after
     it, and optionally `e` and a signed run of digits; or one of the words `inf`, `infinity` and
     `nan`.  The value is the nearest floating-point number, a tie going to the even one; beyond the
     largest it is infinite.

  Spaces around a numeral are no part of it and are stripped by the caller.
-/
import Routing.Text.Basic
import Routing.Text.Digit

namespace Routing

namespace Text

/-! ## Signs and runs of digits -/

/-- The sign of a numeral, `true` for `-`, and what follows it. -/
def signed : Text → Bool × Text
  | '-' :: rest => (true, rest)
  | '+' :: rest => (false, rest)
  | t => (false, t)

/-- The digits of a run, without the `_` between them. -/
def digitRun? (t : Text) : Option Text :=
  let pieces := t.splitOn '_'
  if pieces.all fun piece => !piece.isEmpty && piece.all isDecimal then some pieces.flatten
  else none

/-- The digits of a run that may be empty. -/
def optionalRun? (t : Text) : Option Text := if t.isEmpty then some [] else digitRun? t

/-! ## Integers -/

/-- The **integer that a text stands for**. -/
def toInt? (t : Text) : Option Int :=
  let (negative, body) := signed t
  (digitRun? body).bind fun digits =>
    if digits.length ≤ maxDigits then
      let n : Int := decimalValue digits
      some (if negative then -n else n)
    else none

/-! ## Floating-point numbers -/

/-- The nearest floating-point number to `n · 10 ^ e`.  An exponent that is out of range for the
    digits of `n` decides the answer alone, so that no huge power is ever computed. -/
def nearestFloat (n : Nat) (e : Int) : Float :=
  let top := e + (ofNat n).length
  if n = 0 ∨ top < -400 then 0.0
  else if 400 < top then 1.0 / 0.0
  else Float.ofScientific n (e < 0) e.natAbs

/-- The digits and the exponent of an unsigned decimal: digits around a point, then an exponent. -/
def decimalParts? (t : Text) : Option (Text × Int) :=
  let isMark := fun c => c = 'e' || c = 'E'
  let mantissa := t.takeWhile (!isMark ·)
  let whole := mantissa.takeWhile (· ≠ '.')
  let exponent? : Option Int :=
    match t.dropWhile (!isMark ·) with
    | [] => some 0
    | _ :: rest =>
      let (negative, body) := signed rest
      (digitRun? body).map fun digits =>
        let n : Int := decimalValue digits
        if negative then -n else n
  match optionalRun? whole, optionalRun? ((mantissa.dropWhile (· ≠ '.')).drop 1), exponent? with
  | some front, some back, some e =>
    if (front ++ back).isEmpty then none else some (front ++ back, e - back.length)
  | _, _, _ => none

/-- The unsigned floating-point number that a text stands for. -/
def toUnsignedFloat? (t : Text) : Option Float :=
  let word := t.lowered
  if word = "inf".toList ∨ word = "infinity".toList then some (1.0 / 0.0)
  else if word = "nan".toList then some (0.0 / 0.0)
  else (decimalParts? t).map fun (digits, e) => nearestFloat (decimalValue digits) e

/-- The **floating-point number that a text stands for**. -/
def toFloat? (t : Text) : Option Float :=
  let (negative, body) := signed t
  (toUnsignedFloat? body).map fun x => if negative then -x else x

end Text

/-! ## Examples -/

example : Text.toInt? "-1_000".toList = some (-1000) ∧ Text.toInt? "1__0".toList = none
    ∧ Text.toInt? "+٣".toList = some 3 ∧ Text.toInt? "_1".toList = none := by decide +kernel
example : Text.decimalParts? "1_0.5e-3".toList = some ("105".toList, -4)
    ∧ Text.decimalParts? ".".toList = none ∧ Text.decimalParts? "1e".toList = none
    ∧ Text.decimalParts? "5.".toList = some ("5".toList, 0) := by decide +kernel

end Routing
