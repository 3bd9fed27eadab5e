/-
  EXACT VALUES OF NUMBERS.

  Settings mix integers of any size with binary floating-point numbers, and comparing the two must
  not round either.  So every number has an EXACT VALUE: a rational number, one of the two
  infinities, or no value at all (NaN), and numbers are compared by it.

  1. **Parts.**  The 64 bits of a floating-point number are a sign, an exponent and a fraction;
     `FloatParts` reads them as `± mantissa · 2 ^ exponent`.
  2. **Order.**  `Exact.lt` and `Exact.le` are the order of the rationals with an infinity at each
     end.  NaN is neither below nor above anything, itself included.
-/

namespace Routing

/-! ## The parts of a floating-point number -/

/-- What the bits of a floating-point number stand for. -/
inductive FloatParts where
  | nan
  | infinite (negative : Bool)
  | finite (negative : Bool) (mantissa : Nat) (exponent : Int)
  deriving DecidableEq

/-- The exponent of the smallest numbers. -/
def leastExponent : Int := -1074

/-- The leading bit of a full mantissa.  It is not stored: the bit of this weight is the last of the
    exponent. -/
def hiddenBit : Nat := Nat.pow 2 52

/-- The parts of a floating-point number: one sign bit, eleven bits of exponent, 52 of fraction. -/
def FloatParts.ofFloat (x : Float) : FloatParts :=
  let bits := x.toBits.toNat
  let negative := bits / Nat.pow 2 63 == 1
  let exponent := bits / hiddenBit % Nat.pow 2 11
  let fraction := bits % hiddenBit
  if exponent = 2047 then if fraction = 0 then .infinite negative else .nan
  else if exponent = 0 then .finite negative fraction leastExponent
  else .finite negative (fraction + hiddenBit) (leastExponent + (exponent - 1 : Nat))

/-! ## Exact values -/

/-- The value of a number. -/
inductive Exact where
  | nan
  | negInfinity
  | rational (q : Rat)
  | infinity
  deriving DecidableEq

namespace Exact

/-- The rational number `m · 2 ^ e`. -/
def scale (m : Int) : Int → Rat
  | .ofNat e => (m * Nat.pow 2 e : Int)
  | .negSucc e => mkRat m (Nat.pow 2 (e + 1))

/-- The value of an integer. -/
def ofInt (n : Int) : Exact := .rational n

/-- The value of a floating-point number. -/
def ofFloat (x : Float) : Exact :=
  match FloatParts.ofFloat x with
  | .nan => .nan
  | .infinite true => .negInfinity
  | .infinite false => .infinity
  | .finite true m e => .rational (scale (-m) e)
  | .finite false m e => .rational (scale m e)

/-- Whether the first value is below the second. -/
def lt : Exact → Exact → Bool
  | .nan, _ => false
  | _, .nan => false
  | .rational p, .rational q => decide (p < q)
  | .negInfinity, .negInfinity => false
  | .negInfinity, _ => true
  | .rational _, .infinity => true
  | _, _ => false

/-- Whether the first value is below the second or equal to it. -/
def le : Exact → Exact → Bool
  | .nan, _ => false
  | _, .nan => false
  | x, y => !lt y x

end Exact

/-! ## Examples -/

example : Exact.ofFloat 0.5 = .rational (mkRat 1 2) := by decide
example : Exact.lt (.ofInt 1) (.ofFloat 1.5) = true := by decide +kernel
example : Exact.le (.ofFloat (0.0 / 0.0)) (.ofInt 0) = false := by decide +kernel
example : Exact.lt (.ofFloat (1.0 / 0.0)) (.ofInt (10 ^ 400)) = false := by decide +kernel

end Routing
