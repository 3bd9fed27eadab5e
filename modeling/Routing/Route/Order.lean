/-
  ORDER AND DISPATCH — the most specific route first.

  Two routes are compared by the ranks of their segments, from left to right: the first position at
  which the ranks differ decides, and the lower rank comes first.  If all shared positions tie, the
  route with fewer segments comes first.  Routes with the same ranks are equal in order, and sorting
  keeps them as they were given.
-/
import Routing.Route.Match

namespace Routing

/-- The comparison of two lists of ranks: the first difference decides, then the length. -/
def compareRanks (xs ys : List Nat) : Ordering :=
  (xs.zip ys).foldr (fun p rest => (compare p.1 p.2).then rest) (compare xs.length ys.length)

namespace Route

/-- The **comparison of two routes**: `lt` means that the first is the more specific one. -/
def compare (a b : Route) : Ordering := compareRanks a.ranks b.ranks

/-- Things that carry routes, the most specific route first; ties keep their order. -/
def sortOn {α : Type} (route : α → Route) (xs : List α) : List α :=
  xs.mergeSort fun x y => (route x).compare (route y) ≠ .gt

/-- Routes, the most specific first. -/
def sort (routes : List Route) : List Route := sortOn id routes

/-- The first route of a list that a path fits, with the values of its variables. -/
def firstMatch? (routes : List Route) (path : Text) : Option (Route × Bindings) :=
  routes.findSome? fun r => (r.match? path).map (r, ·)

/-- The **dispatch of a path**: the most specific route that it fits, with its values. -/
def dispatch? (routes : List Route) (path : Text) : Option (Route × Bindings) :=
  firstMatch? (sort routes) path

end Route

/-! ## The number and the word of a comparison -/

/-- All comparisons, from the one that puts the first route first. -/
def comparisons : List Ordering := [.lt, .eq, .gt]

/-- A comparison as a sign: `-1`, `0` or `1`. -/
def comparisonSign : Ordering → Int
  | .lt => -1
  | .eq => 0
  | .gt => 1

/-- The word for a comparison. -/
def comparisonName : Ordering → Text
  | .lt => "LESS".toList
  | .eq => "EQUAL".toList
  | .gt => "GREATER".toList

/-! ## Examples -/

example : compareRanks [0, 2] [0, 1, 0] = .gt := by decide
example : compareRanks [0] [0, 3] = .lt ∧ compareRanks [1, 2] [1, 2] = .eq := by decide

end Routing
