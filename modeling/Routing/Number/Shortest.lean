/-
  THE SHORTEST DECIMAL OF A FLOATING-POINT NUMBER.

  Of all decimals that read back as a given number, the one to write has the FEWEST DIGITS, and of
  those it is the NEAREST.  Both are found by exact arithmetic:

  1. **The interval.**  The reals that round to `m · 2 ^ q` reach half a step to either side, or a
     quarter of one below a number at which the step changes.  The ends belong to the interval
     exactly if `m` is even.  Everything is counted in quarters of a step, so the interval runs from
     `4m - 2` (or `4m - 1`) to `4m + 2`.
  2. **The grids.**  The decimals with at most `n` digits lie on a grid of step `10 ^ k`.  If a
     point of the grid is inside the interval, so is one of the two that enclose the number; hence
     only those two are tried, on finer and finer grids.
  3. **Ties** between the two go to the even digit.
-/
import Routing.Text.Basic
import Routing.Number.Exact

namespace Routing

/-- The number `digits · 10 ^ exponent`. -/
structure Decimal where
  digits : Nat
  exponent : Int
  deriving DecidableEq

namespace Shortest

/-- The quarters of a step from the lower end of the interval to the number: one where the step
    below is half as long, else two. -/
def below (m : Nat) (q : Int) : Nat := if m = hiddenBit ∧ leastExponent < q then 1 else 2

/-- The numerator of `x` quarters of the step `2 ^ q`, over `10 ^ k`; see `denominator q k`. -/
def numerator (q k : Int) (x : Nat) : Nat := x * Nat.pow 2 (q - 2).toNat * Nat.pow 10 (-k).toNat

/-- The denominator that goes with `numerator`. -/
def denominator (q k : Int) : Nat := Nat.pow 2 (2 - q).toNat * Nat.pow 10 k.toNat

/-- Whether the grid point `d · 10 ^ k` rounds to `m · 2 ^ q`. -/
def inside (m : Nat) (q k : Int) (d : Nat) : Bool :=
  let low := numerator q k (4 * m - below m q)
  let high := numerator q k (4 * m + 2)
  let x := d * denominator q k
  if m % 2 = 0 then low ≤ x && x ≤ high else low < x && x < high

/-- The nearer of the grid points `d` and `d + 1` that enclose the number; of two as near, the even
    one. -/
def nearer (m : Nat) (q k : Int) (d : Nat) : Nat :=
  let value := 2 * numerator q k (4 * m)
  let middle := (2 * d + 1) * denominator q k
  if value < middle then d
  else if middle < value then d + 1
  else if d % 2 = 0 then d else d + 1

/-- The best point of the grid `10 ^ k`, if one rounds to the number. -/
def onGrid? (m : Nat) (q k : Int) : Option Nat :=
  let d := numerator q k (4 * m) / denominator q k
  match inside m q k d, inside m q k (d + 1) with
  | true, true => some (nearer m q k d)
  | true, false => some d
  | false, true => some (d + 1)
  | false, false => none

/-- The exponent of the leading decimal digit of `m · 2 ^ q`.  No number needs more than 400 places
    after the point to show it. -/
def leading (m : Nat) (q : Int) : Int :=
  let scaled := m * Nat.pow 2 q.toNat * Nat.pow 10 400 / Nat.pow 2 (-q).toNat
  (Text.ofNat scaled).length - 401

/-- The number without zeros at the end of its digits; `fuel` bounds how many are taken off. -/
def stripZeros : Nat → Decimal → Decimal
  | 0, d => d
  | fuel + 1, d =>
    if d.digits ≠ 0 ∧ d.digits % 10 = 0 then stripZeros fuel ⟨d.digits / 10, d.exponent + 1⟩ else d

/-- The **shortest decimal** of `m · 2 ^ q`: the best point of the first grid that has one.
    Seventeen digits always suffice. -/
def decimal (m : Nat) (q : Int) : Decimal :=
  let top := leading m q
  let found := (List.range 17).findSome? fun (n : Nat) =>
    (onGrid? m q (top - n)).map fun d => Decimal.mk d (top - n)
  stripZeros 17 (found.getD ⟨0, 0⟩)

end Shortest

/-! ## Laying a decimal out -/

/-- How decimals are written: which exponents of the leading digit are written with a plain decimal
    point, and how many digits an exponent has at least. -/
structure DecimalStyle where
  lowest : Int
  highest : Int
  exponentWidth : Nat
  deriving DecidableEq

namespace Decimal

/-- The exponent of the leading digit. -/
def leading (d : Decimal) : Int := d.exponent + (Text.ofNat d.digits).length - 1

/-- The digits around a decimal point; a whole number ends in `.0`. -/
def positional (d : Decimal) : Text :=
  let digits := Text.ofNat d.digits
  match d.exponent with
  | .ofNat e => digits ++ List.replicate e '0' ++ ".0".toList
  | .negSucc e =>
    let padded := List.replicate (e + 2 - digits.length) '0' ++ digits
    padded.take (padded.length - (e + 1)) ++ '.' :: padded.drop (padded.length - (e + 1))

/-- The leading digit, the others after a point if there are any, and the exponent. -/
def scientific (d : Decimal) (width : Nat) : Text :=
  let exponent := Text.ofNat d.leading.natAbs
  let mantissa :=
    match Text.ofNat d.digits with
    | c :: c' :: rest => c :: '.' :: c' :: rest
    | digits => digits
  mantissa ++ 'e' :: (if d.leading < 0 then '-' else '+')
    :: List.replicate (width - exponent.length) '0' ++ exponent

/-- The text of a decimal in a style. -/
def text (style : DecimalStyle) (d : Decimal) : Text :=
  if style.lowest ≤ d.leading ∧ d.leading ≤ style.highest then d.positional
  else d.scientific style.exponentWidth

end Decimal

/-- The **text of a floating-point number**: its sign and its shortest decimal. -/
def floatText (style : DecimalStyle) (x : Float) : Text :=
  match FloatParts.ofFloat x with
  | .nan => "nan".toList
  | .infinite negative => (if negative then ['-'] else []) ++ "inf".toList
  | .finite negative m q =>
    (if negative then ['-'] else [])
      ++ if m = 0 then "0.0".toList else (Shortest.decimal m q).text style

/-! ## Examples -/

example : Shortest.decimal 0x1999999999999a (-56) = ⟨1, -1⟩ := by decide +kernel
example : Shortest.decimal 1 (-1074) = ⟨5, -324⟩ := by decide +kernel
example : (Decimal.mk 15 (-4)).positional = "0.0015".toList
    ∧ (Decimal.mk 15 15).scientific 2 = "1.5e+16".toList := by decide

end Routing
