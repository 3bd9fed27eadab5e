/-
  CLOCKS.

  A cache reads two clocks: one that says what time it is now, and a stopwatch that times a
  compilation.  Both are moved from outside: time passes only when it is advanced, and each reading
  of the stopwatch moves it on by a tick.

  1. **Times are floating-point numbers**, but they are given as settings.  So a clock is STARTED
     and MOVED by values that may be no time at all: an integer is rounded to the nearest
     floating-point number, and what is neither a number nor a truth value is refused.  Only where
     a clock is SET — at the start, and when the tick is replaced — may the time be a numeral.  What
     is ADDED to the time must be a number.
  2. **Too large.**  An integer whose nearest floating-point number would be infinite is no time.
     An infinity that is given as one is.
-/
import Routing.Setting
import Routing.Text.Blank
import Routing.Text.Numeral

namespace Routing

/-! ## Times -/

/-- Why a setting is no time. -/
inductive ClockFault where
  /-- It is no number, nor a text where a numeral may stand. -/
  | notNumeric
  /-- It is a text that stands for no number. -/
  | notNumeral
  /-- It is an integer beyond the largest floating-point number. -/
  | tooLarge
  deriving DecidableEq

/-- The floating-point number nearest to an integer; a tie goes to the even one. -/
def nearestTime (n : Int) : Float :=
  let x := Float.ofScientific n.natAbs false 0
  if n < 0 then -x else x

/-- The **number that a setting is**; the truth values are 0 and 1. -/
def Setting.toAmount : Setting → Except ClockFault Float
  | .bool b => .ok (if b then 1.0 else 0.0)
  | .int n => if (nearestTime n).isInf then .error .tooLarge else .ok (nearestTime n)
  | .float x => .ok x
  | .null | .text _ | .list _ => .error .notNumeric

/-- The **time that a setting gives**: the number that it is, or that its text stands for. -/
def Setting.toTime : Setting → Except ClockFault Float
  | .text t =>
    match Text.toFloat? (Text.stripSpaces t) with
    | some x => .ok x
    | none => .error .notNumeral
  | v => v.toAmount

/-! ## The two clocks -/

/-- The time now, and a stopwatch with the tick of each reading. -/
structure Clock where
  now : Float
  counter : Float
  tick : Float
  deriving DecidableEq

/-- A change of the clock from outside. -/
inductive ClockMove where
  | advance (time : Setting)
  | setTick (tick : Setting)

namespace Clock

/-- A clock at a time, with a stopwatch at zero. -/
def startAt (now tick : Float) : Clock := ⟨now, 0.0, tick⟩

/-- The **clock that settings start**: the time is looked at before the tick. -/
def start (now tick : Setting) : Except ClockFault Clock :=
  match now.toTime with
  | .error f => .error f
  | .ok now => tick.toTime.map (startAt now)

/-- The clock after some time has passed. -/
def advance (c : Clock) (time : Float) : Clock := { c with now := c.now + time }

/-- The clock with another tick. -/
def setTick (c : Clock) (tick : Float) : Clock := { c with tick }

/-- The **clock after a move**. -/
def move (c : Clock) : ClockMove → Except ClockFault Clock
  | .advance time => time.toAmount.map c.advance
  | .setTick tick => tick.toTime.map c.setTick

/-- The reading of the stopwatch, and the clock after it. -/
def lap (c : Clock) : Float × Clock := (c.counter, { c with counter := c.counter + c.tick })

end Clock

/-! ## Examples -/

-- Half a step above the largest time is a tie, and the even one is infinity.
example : (Setting.int (Nat.pow 2 1024 - Nat.pow 2 970 : Nat)).toTime.toOption = none := by
  decide +kernel
-- One less is rounded to the largest time, here on the other side of zero.
example : (Setting.int (1 - (Nat.pow 2 1024 - Nat.pow 2 970 : Nat))).toTime.toOption =
    some (Float.ofBits 0xffefffffffffffff) := by decide +kernel
example : (Clock.start (.int 1) (.int (Nat.pow 10 309))).toOption = none := by decide +kernel
-- A numeral sets the tick, and is nothing that can be added to the time.
example : ((Clock.startAt 0.0 1.0).move (.setTick (.text " 1_0.5\n".toList))).toOption =
    some ⟨0.0, 0.0, 10.5⟩ := by decide +kernel
example : ((Clock.startAt 0.0 1.0).move (.advance (.text "5".toList))).toOption = none := by
  decide +kernel

end Routing
