/-
  RANKS — the comparison of two lists of ranks, from the left.

  1. **One position at a time** (`compareRanks_cons`): the first ranks decide unless they tie.  So
     the comparison is the usual one of lists, a proper beginning before what it begins.
  2. **A difference** (`Below`): at the first position at which the two lists differ, both go on and
     the left one has the lower rank.  Whatever follows on either side, the left list comes first.
-/
import Routing.Route.Order

namespace Routing

/-! ## One position at a time -/

theorem compareRanks_cons (x y : Nat) (xs ys : List Nat) :
    compareRanks (x :: xs) (y :: ys) = (compare x y).then (compareRanks xs ys) := by
  have hlen : compare (xs.length + 1) (ys.length + 1) = compare xs.length ys.length := by
    rw [Nat.compare_eq_ite_lt, Nat.compare_eq_ite_lt]
    simp only [Nat.add_lt_add_iff_right]
  rw [compareRanks, List.zip_cons_cons, List.foldr_cons, List.length_cons, List.length_cons, hlen,
    compareRanks]

/-- **The comparison is that of lists**, first difference first. -/
theorem compareRanks_eq_compare (xs ys : List Nat) : compareRanks xs ys = compare xs ys := by
  induction xs generalizing ys with
  | nil =>
    cases ys with
    | nil => rfl
    | cons y ys => exact Nat.compare_eq_lt.mpr (Nat.succ_pos ys.length)
  | cons x xs ih =>
    cases ys with
    | nil => exact Nat.compare_eq_gt.mpr (Nat.succ_pos xs.length)
    | cons y ys => rw [compareRanks_cons, List.compare_cons_cons, ih]

theorem compareRanks_swap (xs ys : List Nat) : (compareRanks xs ys).swap = compareRanks ys xs := by
  rw [compareRanks_eq_compare, compareRanks_eq_compare]
  exact Std.OrientedCmp.eq_swap.symm

/-- What two lists begin with alike does not matter. -/
theorem compareRanks_append_left (common xs ys : List Nat) :
    compareRanks (common ++ xs) (common ++ ys) = compareRanks xs ys := by
  induction common with
  | nil => rfl
  | cons x common ih =>
    rw [List.cons_append, List.cons_append, compareRanks_cons, ih, Nat.compare_eq_eq.mpr rfl]
    rfl

/-- What goes on from a list comes after it. -/
theorem compareRanks_append_cons (xs : List Nat) (y : Nat) (more : List Nat) :
    compareRanks xs (xs ++ y :: more) = .lt := by
  have hlt : compareRanks [] (y :: more) = .lt := Nat.compare_eq_lt.mpr (Nat.succ_pos more.length)
  have happend := compareRanks_append_left xs [] (y :: more)
  rwa [List.append_nil, hlt] at happend

/-! ## A difference that decides -/

/-- At the first difference both lists go on, and the left one has the lower rank. -/
inductive Below : List Nat → List Nat → Prop
  | head {x y : Nat} {xs ys : List Nat} (h : x < y) : Below (x :: xs) (y :: ys)
  | tail {x : Nat} {xs ys : List Nat} (h : Below xs ys) : Below (x :: xs) (x :: ys)

/-- **A difference decides whatever follows.** -/
theorem Below.compareRanks_append {xs ys : List Nat} (h : Below xs ys) (more more' : List Nat) :
    compareRanks (xs ++ more) (ys ++ more') = .lt := by
  induction h with
  | head hlt =>
    rw [List.cons_append, List.cons_append, compareRanks_cons, Nat.compare_eq_lt.mpr hlt,
      Ordering.lt_then]
  | tail _ ih =>
    rw [List.cons_append, List.cons_append, compareRanks_cons, Nat.compare_eq_eq.mpr rfl, ih,
      Ordering.eq_then]

end Routing
