/-
  DISPATCH — the first match in sorted order is the least route that matches.

  1. **Sorted, and how** (`Route.Sorts`): a rearrangement in which no route comes after a less
     specific one, and routes that tie stand as they were given.  This says nothing of how it is
     found, and there is just one such list: if two of them differ, look at the first place where
     they do; what stands there ties, and ties stand alike in both.
  2. **Sorting goes with selecting** (`sortOn_filter`): the matching routes can be picked out before
     sorting or after.  So a dispatch sees only the routes that match, and takes the first of them
     in sorted order.
  3. **The crux** (`least_of_dispatch?`): that first one has the least ranks, and of the routes with
     these ranks it is the one that was given first.
-/
import Mathlib.Data.List.Lex
import Mathlib.Data.Prod.Lex
import Routing.Proofs.Compiled
import Routing.Proofs.Ranks

namespace Routing

/-! ## The order of routes is that of their ranks -/

theorem compareRanks_eq_lt_iff (xs ys : List Nat) : compareRanks xs ys = .lt ↔ xs < ys := by
  induction xs generalizing ys with
  | nil => cases ys <;> simp [compareRanks, Nat.compare_eq_lt]
  | cons x xs ih =>
    cases ys with
    | nil => simp [compareRanks, Nat.compare_eq_lt]
    | cons y ys =>
      rw [compareRanks_cons, Ordering.then_eq_lt, Nat.compare_eq_lt, Nat.compare_eq_eq, ih,
        List.cons_lt_cons_iff]

namespace Route

theorem compare_ne_gt_iff (a b : Route) : a.compare b ≠ .gt ↔ a.ranks ≤ b.ranks := by
  rw [← not_lt, ← compareRanks_eq_lt_iff, ← compareRanks_swap, Ordering.swap_eq_lt, compare]

theorem compare_eq_iff (a b : Route) : a.compare b = .eq ↔ a.ranks = b.ranks := by
  rw [compare, compareRanks_eq_compare]
  exact Std.LawfulEqCmp.compare_eq_iff_eq

/-! ## Sorted lists -/

section
variable {α : Type} (route : α → Route)

/-- The list `ys` is `xs` sorted: the same things, the more specific ones first, and ties in the
    order in which they were given. -/
structure Sorts (xs ys : List α) : Prop where
  perm : ys.Perm xs
  ordered : ys.Pairwise fun x y => (route x).compare (route y) ≠ .gt
  stable : ∀ r : Route, ys.filter (fun x => (route x).compare r = .eq)
    = xs.filter fun x => (route x).compare r = .eq

variable {route} {xs ys zs : List α}

/-- A thing in one of two lists with the same ties is in the other one. -/
theorem mem_of_ties (h : ∀ r : Route, ys.filter (fun x => (route x).compare r = .eq)
    = zs.filter fun x => (route x).compare r = .eq) {x : α} (hx : x ∈ ys) : x ∈ zs := by
  have htie : (route x).compare (route x) = .eq := (compare_eq_iff _ _).mpr rfl
  have hmem : x ∈ ys.filter fun z => (route z).compare (route x) = .eq :=
    List.mem_filter.mpr ⟨hx, decide_eq_true htie⟩
  rw [h] at hmem
  exact (List.mem_filter.mp hmem).1

/-- In an ordered list nothing ranks lower than the first thing. -/
theorem ranks_head_le {y : α}
    (h : (y :: ys).Pairwise fun x y => (route x).compare (route y) ≠ .gt) :
    ∀ x ∈ y :: ys, (route y).ranks ≤ (route x).ranks := by
  rw [List.pairwise_cons] at h
  exact List.forall_mem_cons.mpr ⟨le_refl _, fun x hx => (compare_ne_gt_iff _ _).mp (h.1 x hx)⟩

/-- **Order and ties determine a list.** -/
theorem eq_of_ties (hy : ys.Pairwise fun x y => (route x).compare (route y) ≠ .gt)
    (hz : zs.Pairwise fun x y => (route x).compare (route y) ≠ .gt)
    (h : ∀ r : Route, ys.filter (fun x => (route x).compare r = .eq)
      = zs.filter fun x => (route x).compare r = .eq) : ys = zs := by
  induction ys generalizing zs with
  | nil =>
    cases zs with
    | nil => rfl
    | cons z zs =>
      exact absurd (mem_of_ties (fun r => (h r).symm) List.mem_cons_self) List.not_mem_nil
  | cons y ys ih =>
    cases zs with
    | nil => exact absurd (mem_of_ties h List.mem_cons_self) List.not_mem_nil
    | cons z zs =>
      -- Each of the two first things is in the other list, so the two tie.
      have hle := ranks_head_le hy z (mem_of_ties (fun r => (h r).symm) List.mem_cons_self)
      have hge := ranks_head_le hz y (mem_of_ties h List.mem_cons_self)
      have htie : (route z).compare (route y) = .eq :=
        (compare_eq_iff _ _).mpr (le_antisymm hge hle)
      have hself : (route y).compare (route y) = .eq := (compare_eq_iff _ _).mpr rfl
      obtain rfl : y = z := by
        have hfirst := h (route y)
        rw [List.filter_cons_of_pos (by simpa using hself),
          List.filter_cons_of_pos (by simpa using htie)] at hfirst
        exact (List.cons.inj hfirst).1
      refine congrArg (y :: ·) (ih (List.pairwise_cons.mp hy).2 (List.pairwise_cons.mp hz).2 ?_)
      intro r
      have hr := h r
      by_cases hyr : (route y).compare r = .eq
      · rw [List.filter_cons_of_pos (by simpa using hyr),
          List.filter_cons_of_pos (by simpa using hyr)] at hr
        exact (List.cons.inj hr).2
      · rwa [List.filter_cons_of_neg (by simpa using hyr),
          List.filter_cons_of_neg (by simpa using hyr)] at hr

theorem Sorts.unique (hy : Sorts route xs ys) (hz : Sorts route xs zs) : ys = zs :=
  eq_of_ties hy.ordered hz.ordered fun r => (hy.stable r).trans (hz.stable r).symm

variable (route xs)

/-- **Sorting sorts.** -/
theorem sorts_sortOn : Sorts route xs (sortOn route xs) := by
  have htrans : ∀ x y z : α, decide ((route x).compare (route y) ≠ .gt) = true →
      decide ((route y).compare (route z) ≠ .gt) = true →
      decide ((route x).compare (route z) ≠ .gt) = true := by
    simp only [decide_eq_true_iff, compare_ne_gt_iff]
    exact fun x y z => le_trans
  have htotal : ∀ x y : α, (decide ((route x).compare (route y) ≠ .gt)
      || decide ((route y).compare (route x) ≠ .gt)) = true := by
    simp only [Bool.or_eq_true, decide_eq_true_iff, compare_ne_gt_iff]
    exact fun x y => le_total _ _
  have hperm : (sortOn route xs).Perm xs := List.mergeSort_perm _ _
  refine ⟨hperm, ?_, fun r => ?_⟩
  · exact (List.pairwise_mergeSort htrans htotal xs).imp of_decide_eq_true
  · -- Things that tie with `r` are in order already, so sorting keeps them as they stand.
    have hties : (xs.filter fun x => (route x).compare r = .eq).Pairwise
        fun x y => decide ((route x).compare (route y) ≠ .gt) = true := by
      refine List.Pairwise.imp_of_mem ?_ (List.pairwise_of_forall fun _ _ => trivial)
      intro x y hx hy _
      have hxr := (compare_eq_iff _ _).mp (of_decide_eq_true (List.mem_filter.mp hx).2)
      have hyr := (compare_eq_iff _ _).mp (of_decide_eq_true (List.mem_filter.mp hy).2)
      exact decide_eq_true ((compare_ne_gt_iff _ _).mpr (hxr.trans hyr.symm).le)
    have hsub := (List.sublist_mergeSort htrans htotal hties List.filter_sublist).filter
      fun x => (route x).compare r = .eq
    rw [List.filter_filter] at hsub
    simp only [Bool.and_self] at hsub
    exact (hsub.eq_of_length (hperm.filter _).length_eq.symm).symm

theorem sorts_iff : Sorts route xs ys ↔ ys = sortOn route xs :=
  ⟨fun h => h.unique (sorts_sortOn route xs), fun h => h ▸ sorts_sortOn route xs⟩

/-- **Sorting goes with selecting.** -/
theorem sortOn_filter (p : α → Bool) :
    sortOn route (xs.filter p) = (sortOn route xs).filter p := by
  have h := sorts_sortOn route xs
  refine ((sorts_iff route _).mp ⟨h.perm.filter p, h.ordered.filter p, fun r => ?_⟩).symm
  rw [List.filter_comm, h.stable, List.filter_comm]

end

/-! ## The first match -/

theorem match?_isSome_iff (r : Route) (path : Text) :
    r.accepts path ↔ ∃ b, r.match? path = some b :=
  Option.isSome_iff_exists

theorem firstMatch?_cons_of_none {r : Route} {path : Text} (h : r.match? path = none)
    (rest : List Route) : firstMatch? (r :: rest) path = firstMatch? rest path := by
  rw [firstMatch?, List.findSome?_cons, h]
  rfl

theorem firstMatch?_cons_of_some {r : Route} {path : Text} {b : Bindings}
    (h : r.match? path = some b) (rest : List Route) :
    firstMatch? (r :: rest) path = some (r, b) := by
  rw [firstMatch?, List.findSome?_cons, h]
  rfl

/-- Routes that do not match do not matter. -/
theorem firstMatch?_filter (routes : List Route) (path : Text) :
    firstMatch? (routes.filter (·.accepts path)) path = firstMatch? routes path := by
  induction routes with
  | nil => rfl
  | cons r rest ih =>
    rw [List.filter_cons]
    by_cases hr : r.accepts path
    · obtain ⟨b, hb⟩ := (match?_isSome_iff r path).mp hr
      rw [if_pos hr, firstMatch?_cons_of_some hb, firstMatch?_cons_of_some hb]
    · have hnone : r.match? path = none := by simpa [accepts] using hr
      rw [if_neg hr, ih, firstMatch?_cons_of_none hnone]

/-- **A dispatch sees only the routes that match.** -/
theorem dispatch?_filter (routes : List Route) (path : Text) :
    dispatch? (routes.filter (·.accepts path)) path = dispatch? routes path := by
  rw [dispatch?, sort, sortOn_filter]
  exact firstMatch?_filter (sort routes) path

theorem dispatch?_eq_none_iff (routes : List Route) (path : Text) :
    dispatch? routes path = none ↔ ∀ r ∈ routes, r.match? path = none := by
  have hperm := (sorts_sortOn id routes).perm
  rw [dispatch?, firstMatch?, List.findSome?_eq_none_iff]
  constructor
  · intro h r hr
    simpa using h r (hperm.mem_iff.mpr hr)
  · intro h r hr
    rw [h r (hperm.mem_iff.mp hr), Option.map_none]

/-! ## The least route that matches -/

/-- The route `r` at position `i` matches the path, and of all that do it has the least ranks and,
    with these ranks, the first position. -/
structure Least (routes : List Route) (path : Text) (i : Nat) (r : Route) : Prop where
  get : routes[i]? = some r
  accepts : r.accepts path
  least : ∀ j r', routes[j]? = some r' → r'.accepts path →
    toLex (r.ranks, i) ≤ toLex (r'.ranks, j)

/-- There is only one least route. -/
theorem Least.unique {routes : List Route} {path : Text} {i j : Nat} {r r' : Route}
    (h : Least routes path i r) (h' : Least routes path j r') : i = j ∧ r = r' := by
  have heq := le_antisymm (h.least j r' h'.get h'.accepts) (h'.least i r h.get h.accepts)
  obtain rfl : i = j := (Prod.mk.inj (toLex.injective heq)).2
  exact ⟨rfl, Option.some.inj (h.get.symm.trans h'.get)⟩

/-- **A dispatch finds the least route.** -/
theorem least_of_dispatch? {routes : List Route} {path : Text} {r : Route} {b : Bindings}
    (h : dispatch? routes path = some (r, b)) :
    r.match? path = some b ∧ ∃ i, Least routes path i r := by
  rw [← dispatch?_filter, dispatch?] at h
  have hsorts := sorts_sortOn id (routes.filter (·.accepts path))
  rw [← sort] at hsorts
  cases hsort : sort (routes.filter (·.accepts path)) with
  | nil =>
    rw [hsort] at h
    nomatch h
  | cons first rest =>
    rw [hsort] at h hsorts
    have haccepts : ∀ x ∈ routes.filter (·.accepts path), x.accepts path :=
      fun x hx => (List.mem_filter.mp hx).2
    have hfirst := haccepts first (hsorts.perm.mem_iff.mp List.mem_cons_self)
    obtain ⟨b', hb'⟩ := (match?_isSome_iff first path).mp hfirst
    rw [firstMatch?_cons_of_some hb'] at h
    obtain ⟨rfl, rfl⟩ := Prod.mk.inj (Option.some.inj h)
    refine ⟨hb', ?_⟩
    -- Of the matching routes that tie with it, it is the first one that was given.
    have htie := hsorts.stable first
    rw [List.filter_cons_of_pos (by simp [compare_eq_iff])] at htie
    have hfind : (routes.filter (·.accepts path)).find?
        (fun x => (id x).compare first = .eq) = some first := by
      rw [← List.head?_filter, ← htie, List.head?_cons]
    rw [List.find?_filter, List.find?_eq_some_iff_getElem] at hfind
    obtain ⟨-, i, hi, hget, hbefore⟩ := hfind
    refine ⟨i, List.getElem?_eq_some_iff.mpr ⟨hi, hget⟩, hfirst, fun j r' hj hr' => ?_⟩
    have hmem : r' ∈ first :: rest :=
      hsorts.perm.mem_iff.mpr (List.mem_filter.mpr ⟨List.mem_of_getElem? hj, hr'⟩)
    rw [Prod.Lex.toLex_le_toLex]
    rcases lt_or_eq_of_le (ranks_head_le hsorts.ordered r' hmem) with hlt | heq
    · exact .inl hlt
    · refine .inr ⟨heq, Nat.le_of_not_lt fun hji => ?_⟩
      obtain ⟨hj', hget'⟩ := List.getElem?_eq_some_iff.mp hj
      have hno := hbefore j hji
      rw [hget'] at hno
      simp only [hr', id, compare_eq_iff, Bool.not_eq_true', decide_eq_false_iff_not,
        decide_eq_true_iff, true_and] at hno
      exact hno heq.symm

/-- No route that matches ranks below the one that is found. -/
theorem ranks_le_of_dispatch? {routes : List Route} {path : Text} {r : Route} {b : Bindings}
    (h : dispatch? routes path = some (r, b)) :
    r ∈ routes ∧ r.match? path = some b ∧
      ∀ r' ∈ routes, r'.accepts path → r.ranks ≤ r'.ranks := by
  obtain ⟨hb, i, hleast⟩ := least_of_dispatch? h
  refine ⟨List.mem_of_getElem? hleast.get, hb, fun r' hr' haccepts => ?_⟩
  obtain ⟨j, hj⟩ := List.getElem?_of_mem hr'
  rcases Prod.Lex.toLex_le_toLex.mp (hleast.least j r' hj haccepts) with hlt | ⟨heq, -⟩
  · exact le_of_lt hlt
  · exact le_of_eq heq

theorem dispatch?_eq_some_iff (routes : List Route) (path : Text) (r : Route) (b : Bindings) :
    dispatch? routes path = some (r, b) ↔
      r.match? path = some b ∧ ∃ i, Least routes path i r := by
  refine ⟨least_of_dispatch?, ?_⟩
  rintro ⟨hb, i, hleast⟩
  cases hd : dispatch? routes path with
  | none =>
    have hnone := (dispatch?_eq_none_iff routes path).mp hd r (List.mem_of_getElem? hleast.get)
    nomatch hnone.symm.trans hb
  | some found =>
    obtain ⟨r', b'⟩ := found
    obtain ⟨hb', j, hleast'⟩ := least_of_dispatch? hd
    obtain ⟨-, rfl⟩ := hleast.unique hleast'
    obtain rfl := Option.some.inj (hb.symm.trans hb')
    rfl

theorem sort_congr {routes routes' : List Route}
    (h : ∀ r : Route, routes'.filter (fun x => x.compare r = .eq)
      = routes.filter fun x => x.compare r = .eq) : sort routes' = sort routes :=
  have hs := sorts_sortOn id routes
  have hs' := sorts_sortOn id routes'
  eq_of_ties hs'.ordered hs.ordered fun r => (hs'.stable r).trans ((h r).trans (hs.stable r).symm)

/-- Two routes that do not tie can change places. -/
theorem ties_swap {a b : Route} (h : a.ranks ≠ b.ranks) (r : Route) :
    [b, a].filter (fun x => x.compare r = .eq) = [a, b].filter fun x => x.compare r = .eq := by
  simp only [compare_eq_iff]
  by_cases ha : a.ranks = r.ranks
  · have hb : b.ranks ≠ r.ranks := fun hb => h (ha.trans hb.symm)
    simp [ha, hb]
  · simp [List.filter_cons, ha]

theorem sort_sort (routes : List Route) : sort (sort routes) = sort routes :=
  sort_congr (sorts_sortOn id routes).stable

theorem map_fst_sortOn_zipIdx (routes : List Route) :
    (sortOn Prod.fst routes.zipIdx).map Prod.fst = sort routes := by
  have h : (sortOn Prod.fst routes.zipIdx).map Prod.fst = sort (routes.zipIdx.map Prod.fst) :=
    List.map_mergeSort fun _ _ _ _ => rfl
  rw [h, List.zipIdx_map_fst]

/-- **Sorting and dispatch take the least route first.**  The sorted routes, and also the sorted
    pairs of a route and its position, are the only list that sorts the given ones.  A dispatch
    finds the least route that matches, and none only if no route matches.  So sorting twice is
    sorting once; routes in another order are sorted alike if those that tie keep theirs; and a
    route that does not match can be added anywhere, or taken away. -/
theorem sorted_dispatch (routes : List Route) :
    (∀ sorted, Sorts id routes sorted ↔ sorted = sort routes) ∧
    (∀ sorted, Sorts Prod.fst routes.zipIdx sorted ↔ sorted = sortOn Prod.fst routes.zipIdx) ∧
    (sortOn Prod.fst routes.zipIdx).map Prod.fst = sort routes ∧
    (∀ path r b, dispatch? routes path = some (r, b) ↔
      r.match? path = some b ∧ ∃ i, Least routes path i r) ∧
    (∀ path, dispatch? routes path = none ↔ ∀ r ∈ routes, r.match? path = none) ∧
    sort (sort routes) = sort routes ∧
    (∀ routes', (∀ r : Route, routes'.filter (fun x => x.compare r = .eq)
        = routes.filter fun x => x.compare r = .eq) →
      sort routes' = sort routes ∧ ∀ path, dispatch? routes' path = dispatch? routes path) ∧
    ∀ path r front back, routes = front ++ back → r.match? path = none →
      dispatch? (front ++ r :: back) path = dispatch? routes path := by
  refine ⟨fun sorted => sorts_iff id routes, fun sorted => sorts_iff Prod.fst routes.zipIdx,
    map_fst_sortOn_zipIdx routes, dispatch?_eq_some_iff routes, dispatch?_eq_none_iff routes,
    sort_sort routes, fun routes' h => ⟨sort_congr h, fun path => ?_⟩, ?_⟩
  · rw [dispatch?, sort_congr h, dispatch?]
  · rintro path r front back rfl hr
    have hno : ¬ r.accepts path := by simp [accepts, hr]
    rw [← dispatch?_filter, List.filter_append, List.filter_cons, if_neg hno,
      ← List.filter_append, dispatch?_filter]

/-- The routes `/a` and `/{x}` are sorted alike in either order, `/b` does not matter to the path
    `/a`, and its route is the least one. -/
theorem sorted_dispatch_swapped :
    ∃ a b c, compile "/a".toList = .ok a ∧ compile "/\x7bx\x7d".toList = .ok b ∧
      compile "/b".toList = .ok c ∧ sort [b, a] = sort [a, b] ∧
      dispatch? [a, c, b] "/a".toList = dispatch? [a, b] "/a".toList ∧
      dispatch? [b, a] "/a".toList = some (a, []) := by
  have ha := @eq_ok_get _ _ (compile "/a".toList) (by decide)
  have hb := @eq_ok_get _ _ (compile "/\x7bx\x7d".toList) (by decide)
  have hc := @eq_ok_get _ _ (compile "/b".toList) (by decide)
  refine ⟨_, _, _, ha, hb, hc, ?_, ?_, ?_⟩
  · exact ((sorted_dispatch _).2.2.2.2.2.2.1 _ (ties_swap (by decide))).1
  · exact (sorted_dispatch _).2.2.2.2.2.2.2 _ _ [_] [_] rfl (by decide)
  · refine ((sorted_dispatch _).2.2.2.1 _ _ _).mpr ⟨by decide, 1, rfl, by decide, ?_⟩
    intro j r' hj _
    match j, hj with
    | 0, hj => exact Option.some.inj hj ▸ (by decide)
    | 1, hj => exact Option.some.inj hj ▸ le_refl _

end Route

end Routing
