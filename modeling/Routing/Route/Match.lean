/-
  MATCHING — which paths a route answers, and what its variables take.

  A segment holds at most one variable, so nothing is ever tried twice: the fixed ends of a segment
  are taken off a field of the path, and what is left in the middle is the value.

  1. **Fields.**  A path is `/` and fields joined by `/`; each segment is held against its field.
  2. **Values are non-empty**: a field must be LONGER than the two fixed ends together, which also
     keeps the ends from overlapping.
  3. **A final catch-all** takes all remaining fields, joined again by `/`, after its fixed head.
  4. **Names may repeat**; a later value replaces an earlier one.
-/
import Routing.Route.Basic
import Routing.Assoc

namespace Routing

/-- The values of variables by name. -/
abbrev Bindings := Assoc Text Text

/-- The middle of `text` between a segment's fixed ends, if they are there and leave a middle. -/
def Segment.capture? (s : Segment) (text : Text) : Option Text :=
  if s.head.length + s.tail.length < text.length
      ∧ s.head.isPrefixOf text ∧ s.tail.isSuffixOf text then
    some ((text.drop s.head.length).take (text.length - s.head.length - s.tail.length))
  else none

/-- The rest of `text` after a catch-all's fixed head, if the head is there and leaves a rest. -/
def Segment.captureRest? (s : Segment) (text : Text) : Option Text :=
  if s.head.length < text.length ∧ s.head.isPrefixOf text then some (text.drop s.head.length)
  else none

/-- The bindings after one field has been held against its segment. -/
def Segment.accept (s : Segment) (field : Text) (b : Bindings) : Option Bindings :=
  match s.var? with
  | none => if field = s.literal then some b else none
  | some v => (s.capture? field).map fun value => b.put v.name value

/-- The bindings after fields have been held against segments, pair by pair. -/
def acceptAll : List Segment → List Text → Bindings → Option Bindings
  | s :: segments, f :: fields, b => (s.accept f b).bind (acceptAll segments fields)
  | _, _, b => some b

/-- The last of some segments and its variable, if it is a catch-all. -/
def finalCatchAll? (segments : List Segment) : Option (Segment × Variable) :=
  segments.getLast?.bind fun s => s.var?.bind fun v => if v.reserved then some (s, v) else none

/-- The bindings that make segments fit the fields of a path, a final catch-all included. -/
def matchFields (segments : List Segment) (fields : List Text) : Option Bindings :=
  match finalCatchAll? segments with
  | some (last, v) =>
    let leading := segments.dropLast
    if fields.length ≤ leading.length then none
    else
      (acceptAll leading (fields.take leading.length) []).bind fun b =>
        (last.captureRest? (List.intercalate [separator] (fields.drop leading.length))).map
          fun value => b.put v.name value
  | none => if fields.length = segments.length then acceptAll segments fields [] else none

namespace Route

/-- The **match of a path**: the values that the route's variables take, or none if it does not
    fit. -/
def match? (r : Route) (path : Text) : Option Bindings :=
  match path with
  | [] => none
  | c :: body =>
    if c = separator ∧ r.staticHead.isPrefixOf path then
      matchFields r.matchSegments (body.splitOn separator)
    else none

/-- Whether a path fits. -/
def accepts (r : Route) (path : Text) : Bool := (r.match? path).isSome

end Route

/-! ## Examples -/

example : ((Route.compile "/a/\x7bx\x7d/c/de\x7b+y\x7d".toList).toOption.bind
      (·.match? "/a/1/c/de/f/g".toList))
    = some [("x".toList, "1".toList), ("y".toList, "/f/g".toList)] := by decide
example : ((Route.compile "/\x7bx\x7daa".toList).toOption.bind (·.match? "/aa".toList)) = none := by
  decide
example : ((Route.compile "/docs/index".toList).toOption.bind (·.match? "/docs".toList))
    = some [] := by decide
example : ((Route.compile "/\x7bx\x7d/\x7bx\x7d".toList).toOption.bind (·.match? "/1/2".toList))
    = some [("x".toList, "2".toList)] := by decide

end Routing
