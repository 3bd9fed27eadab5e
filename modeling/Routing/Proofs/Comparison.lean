/-
  COMPARISON — routes are in one line, with ties.

  1. **Which list of ranks comes first** (`compareRanks_eq_lt_iff_below`): one that is lower at the
     first difference, or one that the other goes on from.
  2. **A total preorder**: comparing is comparing the lists of ranks, whose order is linear.  So it
     is transitive, turns round with its arguments, and cannot tell routes that tie.
  3. **Catch-alls do not go on** (`ranks_eq_of_catchAll`): in segments that a source can spell a
     catch-all is the last one.  If all shared ranks tie and the shorter list has a catch-all, the
     longer one has it at the same place, and is not longer.
-/
import Routing.Proofs.Dispatch
import Routing.Proofs.Inclusion

namespace Routing

/-! ## Which list of ranks comes first -/

theorem Below.compareRanks_eq {xs ys : List Nat} (h : Below xs ys) : compareRanks xs ys = .lt := by
  have happend := h.compareRanks_append [] []
  rwa [List.append_nil, List.append_nil] at happend

/-- **The first difference decides, and then the length.** -/
theorem compareRanks_eq_lt_iff_below (xs ys : List Nat) :
    compareRanks xs ys = .lt ↔ Below xs ys ∨ xs <+: ys ∧ xs ≠ ys := by
  constructor
  · intro h
    induction xs generalizing ys with
    | nil =>
      right
      refine ⟨List.nil_prefix, ?_⟩
      rintro rfl
      nomatch h
    | cons x xs ih =>
      cases ys with
      | nil => nomatch h
      | cons y ys =>
        rw [compareRanks_cons, Ordering.then_eq_lt, Nat.compare_eq_lt, Nat.compare_eq_eq] at h
        rcases h with hlt | ⟨rfl, hrest⟩
        · exact .inl (.head hlt)
        · rcases ih ys hrest with hbelow | ⟨hbegins, hne⟩
          · exact .inl (.tail hbelow)
          · right
            refine ⟨(List.prefix_cons_inj x).mpr hbegins, ?_⟩
            intro heq
            exact hne (List.cons.inj heq).2
  · rintro (hbelow | ⟨⟨more, rfl⟩, hne⟩)
    · exact hbelow.compareRanks_eq
    · cases more with
      | nil => exact absurd (List.append_nil xs).symm hne
      | cons y more => exact compareRanks_append_cons xs y more

/-- If all shared ranks tie, the shorter list is the beginning of the longer one. -/
theorem isPrefix_of_ties {xs ys : List Nat} (hlen : xs.length ≤ ys.length)
    (h : ∀ p ∈ xs.zip ys, p.1 = p.2) : xs <+: ys := by
  induction xs generalizing ys with
  | nil => exact List.nil_prefix
  | cons x xs ih =>
    cases ys with
    | nil => nomatch hlen
    | cons y ys =>
      rw [List.zip_cons_cons, List.forall_mem_cons] at h
      obtain ⟨hxy, hrest⟩ := h
      obtain rfl : x = y := hxy
      apply (List.prefix_cons_inj x).mpr
      exact ih (Nat.le_of_succ_le_succ hlen) hrest

/-! ## A total preorder -/

theorem comparisonSign_swap (o : Ordering) : comparisonSign o.swap = -comparisonSign o := by
  cases o <;> rfl

namespace Route

theorem compare_eq_lt_iff (a b : Route) : a.compare b = .lt ↔ a.ranks < b.ranks :=
  compareRanks_eq_lt_iff a.ranks b.ranks

/-- Routes in order stay in order, strictly if one of the two steps is strict. -/
theorem compare_trans {a b c : Route} (hab : a.compare b ≠ .gt) (hbc : b.compare c ≠ .gt) :
    a.compare c ≠ .gt ∧ (a.compare b = .lt ∨ b.compare c = .lt → a.compare c = .lt) := by
  rw [compare_ne_gt_iff] at hab hbc
  refine ⟨(compare_ne_gt_iff a c).mpr (le_trans hab hbc), ?_⟩
  rw [compare_eq_lt_iff, compare_eq_lt_iff, compare_eq_lt_iff]
  rintro (hlt | hlt)
  · exact lt_of_lt_of_le hlt hbc
  · exact lt_of_le_of_lt hab hlt

/-- Routes that tie compare alike with every other one. -/
theorem compare_congr {a b : Route} (h : a.compare b = .eq) (c : Route) :
    a.compare c = b.compare c := by
  rw [compare, (compare_eq_iff a b).mp h, compare]

end Route

/-! ## Catch-alls do not go on -/

theorem Segment.rank_eq_catchAll_iff (s : Segment) :
    s.rank = Kind.catchAll.rank ↔ s.kind = .catchAll := by
  rw [rank]
  cases s.kind <;> decide

/-- **Ranks that go on from a catch-all end with it.** -/
theorem ranks_eq_of_catchAll {segments : List Segment} (h : WellFormed segments) :
    ∀ segments', WellFormed segments' →
      segments.map Segment.rank <+: segments'.map Segment.rank →
      (∃ s ∈ segments, s.kind = .catchAll) →
      segments.map Segment.rank = segments'.map Segment.rank := by
  refine WellFormed.induct ?last ?cons segments h
  case last =>
    intro s hs hr segments' h' hbegins hsome
    obtain ⟨s', hs', hk⟩ := hsome
    obtain rfl := List.mem_singleton.mp hs'
    obtain ⟨t, rest', rfl⟩ := List.exists_cons_of_ne_nil h'.nonempty
    obtain ⟨hrank, -⟩ := List.cons_prefix_cons.mp hbegins
    have hkt : t.kind = .catchAll := by
      rw [← t.rank_eq_catchAll_iff, ← hrank]
      exact s'.rank_eq_catchAll_iff.mpr hk
    obtain rfl := h'.eq_nil_of_catchAll hkt
    exact congrArg ([·]) hrank
  case cons =>
    intro s rest hs hr hrest ih segments' h' hbegins hsome
    obtain ⟨t, rest', rfl⟩ := List.exists_cons_of_ne_nil h'.nonempty
    obtain ⟨hrank, hmore⟩ := List.cons_prefix_cons.mp hbegins
    have hne : rest' ≠ [] := by
      rintro rfl
      exact hrest.nonempty (List.map_eq_nil_iff.mp (List.prefix_nil.mp hmore))
    have hrest' := ((wellFormed_cons hne).mp h').2.2
    have hsome' : ∃ g ∈ rest, g.kind = .catchAll := by
      obtain ⟨g, hg, hk⟩ := hsome
      rcases List.mem_cons.mp hg with rfl | hg
      · exact absurd hk (hs.noReserved_iff.mp hr)
      · exact ⟨g, hg, hk⟩
    rw [List.map_cons, List.map_cons, hrank, ih rest' hrest' hmore hsome']

namespace Template

/-- **The comparison of routes is a total preorder, and the lexicographic order of their ranks.**
    The routes are those of any templates, read from sources or made by hand.  Of two sources whose
    shared ranks all tie, the shorter one has no catch-all unless they tie altogether. -/
theorem compare_lexicographic (x y z : Template) :
    let a := x.compile
    let b := y.compile
    let c := z.compile
    a.compare b = compare (x.segments.map Segment.rank) (y.segments.map Segment.rank) ∧
    (a.compare b = .lt ↔ Below a.ranks b.ranks ∨ a.ranks <+: b.ranks ∧ a.ranks ≠ b.ranks) ∧
    comparisonSign (a.compare b) = -comparisonSign (b.compare a) ∧
    (a.compare b ≠ .gt → b.compare c ≠ .gt →
      a.compare c ≠ .gt ∧ (a.compare b = .lt ∨ b.compare c = .lt → a.compare c = .lt)) ∧
    (a.compare b = .eq ↔ a.ranks = b.ranks) ∧
    (a.compare b = .eq → a.compare c = b.compare c) ∧
    ∀ source source', parse source = .ok x → parse source' = .ok y →
      a.ranks.length ≤ b.ranks.length → (∀ p ∈ a.ranks.zip b.ranks, p.1 = p.2) →
      a.ranks = b.ranks ∨ ∀ s ∈ x.segments, s.kind ≠ .catchAll := by
  intro a b c
  refine ⟨compareRanks_eq_compare _ _, compareRanks_eq_lt_iff_below _ _, ?_, Route.compare_trans,
    Route.compare_eq_iff a b, fun h => Route.compare_congr h c, ?_⟩
  · rw [← comparisonSign_swap]
    exact congrArg comparisonSign (compareRanks_swap b.ranks a.ranks).symm
  · intro source source' hx hy hlen hties
    by_cases hsome : ∃ s ∈ x.segments, s.kind = .catchAll
    · left
      obtain ⟨-, hwell, -⟩ := parse_eq_ok hx
      obtain ⟨-, hwell', -⟩ := parse_eq_ok hy
      exact ranks_eq_of_catchAll hwell y.segments hwell' (isPrefix_of_ties hlen hties) hsome
    · right
      intro s hs hk
      exact hsome ⟨s, hs, hk⟩

/-- The routes `/a`, `/a/{b}` and `/a/{+c}` are in order, and `/a/{d}` ties with the second. -/
theorem compare_lexicographic_ties :
    ∃ x y y' z, parse "/a".toList = .ok x ∧ parse "/a/\x7bb\x7d".toList = .ok y ∧
      parse "/a/\x7bd\x7d".toList = .ok y' ∧ parse "/a/\x7b+c\x7d".toList = .ok z ∧
      x.compile.compare y.compile = .lt ∧ y.compile.compare z.compile = .lt ∧
      x.compile.compare z.compile = .lt ∧
      y.compile.compare y'.compile = .eq ∧
      y.compile.compare z.compile = y'.compile.compare z.compile ∧
      (x.compile.ranks = y.compile.ranks ∨ ∀ s ∈ x.segments, s.kind ≠ .catchAll) := by
  obtain ⟨x, hx, hrx⟩ : ∃ x, parse "/a".toList = .ok x ∧ x.compile.ranks = [0] :=
    ⟨_, @eq_ok_get _ _ (parse "/a".toList) (by decide), by decide⟩
  obtain ⟨y, hy, hry⟩ : ∃ y, parse "/a/\x7bb\x7d".toList = .ok y ∧ y.compile.ranks = [0, 2] :=
    ⟨_, @eq_ok_get _ _ (parse "/a/\x7bb\x7d".toList) (by decide), by decide⟩
  obtain ⟨y', hy', hry'⟩ : ∃ y', parse "/a/\x7bd\x7d".toList = .ok y' ∧ y'.compile.ranks = [0, 2] :=
    ⟨_, @eq_ok_get _ _ (parse "/a/\x7bd\x7d".toList) (by decide), by decide⟩
  obtain ⟨z, hz, hrz⟩ : ∃ z, parse "/a/\x7b+c\x7d".toList = .ok z ∧ z.compile.ranks = [0, 3] :=
    ⟨_, @eq_ok_get _ _ (parse "/a/\x7b+c\x7d".toList) (by decide), by decide⟩
  have hxy : x.compile.compare y.compile = .lt := by
    rw [Route.compare, hrx, hry]
    rfl
  have hyz : y.compile.compare z.compile = .lt := by
    rw [Route.compare, hry, hrz]
    rfl
  have hyy' : y.compile.compare y'.compile = .eq := by
    rw [Route.compare, hry, hry']
    rfl
  have hne : x.compile.compare y.compile ≠ .gt ∧ y.compile.compare z.compile ≠ .gt := by
    rw [hxy, hyz]
    decide
  obtain ⟨-, -, -, htrans, -, -, hcatchAll⟩ := compare_lexicographic x y z
  obtain ⟨-, -, -, -, -, hcongr, -⟩ := compare_lexicographic y y' z
  refine ⟨x, y, y', z, hx, hy, hy', hz, hxy, hyz, ?_, hyy', hcongr hyy', ?_⟩
  · exact (htrans hne.1 hne.2).2 (.inl hxy)
  · apply hcatchAll _ _ hx hy
    · rw [hrx, hry]
      decide
    · rw [hrx, hry]
      decide

end Template

end Routing
