/-
  THE ORDER OF TIMES.

  Times are floating-point numbers, and `≤` compares what their bits stand for.  It is no order on
  all of them: what is no number is neither below nor above anything, itself included.  What the
  entries of a cache need is that `≤` composes (`time_le_trans`), and that a time which is below
  another is a number (`time_le_self`).

  The crux is that `≤` compares PLACES on the line (`timePlace?`): classes of numbers, from the
  negative infinity to the positive one, and inside a class exponents before mantissas.
-/
import Mathlib.Data.Prod.Lex

namespace Routing

open Float.Model

/-- The **place of a number** on the line: zero and the classes around it, then the exponent and the
    mantissa, both turned around below zero.  What is no number has no place. -/
def timePlace? : UnpackedFloat → Option (Int ×ₗ Int ×ₗ Int)
  | .notANumber => none
  | .infinity .negative => some (toLex (-2, toLex (0, 0)))
  | .finite .negative m e _ => some (toLex (-1, toLex (-e, -m)))
  | .zero _ => some (toLex (0, toLex (0, 0)))
  | .finite .positive m e _ => some (toLex (1, toLex (e, m)))
  | .infinity .positive => some (toLex (2, toLex (0, 0)))

theorem compare_then_isLE (e e' : Int) (m m' : Nat) :
    ((compare e e').then (compare m m')).isLE = true ↔ e < e' ∨ e = e' ∧ m ≤ m' := by
  rcases Int.lt_trichotomy e e' with hlt | heq | hgt
  · have hcompare : compare e e' = .lt := compare_lt_iff_lt.mpr hlt
    simp [hcompare, hlt]
  · subst heq
    simp [Nat.isLE_compare]
  · have hcompare : compare e e' = .gt := compare_gt_iff_gt.mpr hgt
    simp [hcompare]
    omega

theorem compare_then_isGE (e e' : Int) (m m' : Nat) :
    ((compare e e').then (compare m m')).isGE = true ↔ e' < e ∨ e' = e ∧ m' ≤ m := by
  rw [← compare_then_isLE, ← Ordering.isLE_swap, Ordering.swap_then]
  simp [Int.compare_swap, Nat.compare_swap]

/-- **Numbers are compared by their places.** -/
theorem unpacked_le_iff (a b : UnpackedFloat) :
    a.le b = true ↔ ∃ x y, timePlace? a = some x ∧ timePlace? b = some y ∧ x ≤ y := by
  unfold UnpackedFloat.le
  -- One case for each pair of classes; only two numbers of one class look at their parts.
  rcases a with (_ | _) | _ | (_ | _) | ⟨_ | _, ma, ea, ha⟩ <;>
  rcases b with (_ | _) | _ | (_ | _) | ⟨_ | _, mb, eb, hb⟩ <;>
  dsimp only [UnpackedFloat.compare, timePlace?] <;>
  simp [Prod.Lex.toLex_le_toLex]
  case infinity.negative.infinity.negative => rfl
  case infinity.negative.infinity.positive => rfl
  case infinity.positive.infinity.negative => rfl
  case infinity.positive.infinity.positive => rfl
  case finite.negative.finite.negative =>
    rw [compare_then_isGE]
    omega
  case finite.positive.finite.positive => rw [compare_then_isLE]

theorem time_le_iff (a b : Float) :
    a ≤ b ↔ ∃ x y, timePlace? a.toModel.unpack = some x ∧ timePlace? b.toModel.unpack = some y ∧
      x ≤ y := by
  have hunpacked : a ≤ b ↔ a.toModel.unpack.le b.toModel.unpack = true := by
    show decide (a.toModel ≤ b.toModel) = true ↔ _
    rw [decide_eq_true_iff]
    rfl
  rw [hunpacked, unpacked_le_iff]

theorem time_le_trans {a b c : Float} (h : a ≤ b) (h' : b ≤ c) : a ≤ c := by
  rw [time_le_iff] at h h' ⊢
  obtain ⟨x, y, hx, hy, hxy⟩ := h
  obtain ⟨y', z, hy', hz, hyz⟩ := h'
  have heq : y = y' := Option.some.inj (hy.symm.trans hy')
  subst heq
  exact ⟨x, z, hx, hz, le_trans hxy hyz⟩

theorem time_le_self {a b : Float} (h : a ≤ b) : a ≤ a := by
  rw [time_le_iff] at h ⊢
  obtain ⟨x, -, hx, -, -⟩ := h
  exact ⟨x, x, hx, hx, le_refl x⟩

end Routing
