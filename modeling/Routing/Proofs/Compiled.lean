/-
  COMPILED ROUTES — what is known of a route that comes from a source.

  Its segments are well-formed, and so are those that are left for matching: dropping a final
  `index` leaves well-formed segments, or the one empty segment of `/`.  Head and names are those of
  the segments left for matching, since an `index` has no variable.

  The static head holds also for a route of segments given by hand, whatever their tokens are.  So
  the quick refusal of a match never changes its answer.
-/
import Routing.Proofs.Parsing
import Routing.Proofs.Capture

namespace Routing

/-! ## Names -/

theorem variableNames_eq {segments : List Segment} (h : ∀ s ∈ segments, s.WellFormed) :
    variableNames segments = occurrenceNames segments := by
  induction segments with
  | nil => rfl
  | cons s rest ih =>
    rw [List.forall_mem_cons] at h
    rw [occurrenceNames_cons, ← ih h.2, occurrenceNames, h.1.occurrences_eq, variableNames,
      List.filterMap_cons]
    cases s.var? <;> rfl

/-! ## Routes of templates and of sources -/

theorem Template.segments_eq_concat (t : Template) :
    t.segments = t.segments.dropLast ++ [t.last] :=
  (List.dropLast_concat_getLast t.segments_ne_nil).symm

theorem Template.compile_staticHead (t : Template) :
    t.compile.staticHead = staticHead t.compile.matchSegments := rfl

/-! ## The quick refusal -/

/-- The **match of a path by its fields alone**: the fields of every path that begins with `/` are
    held against the segments, whatever the static head is. -/
def Route.matchByFields? (r : Route) (path : Text) : Option Bindings :=
  match path with
  | [] => none
  | c :: body =>
    if c = separator then matchFields r.matchSegments (body.splitOn separator) else none

/-- **The quick refusal changes no answer.**  The route of any template, read from a source or made
    by hand of any tokens, answers every path as it does without the test of its static head. -/
theorem Template.match?_eq_matchByFields? (t : Template) (path : Text) :
    t.compile.match? path = t.compile.matchByFields? path := by
  cases path with
  | nil => rfl
  | cons c body =>
    rw [Route.match?_cons t.compile_staticHead, Route.matchByFields?, matchFields_eq_matchFrom]

-- A literal with a `/` passes the test of the head, and is then no field of the path.
example : ((Template.ofSegments? [] [⟨[.literal "a/b".toList none]⟩]).map fun t =>
    (t.compile.staticHead, t.compile.matchByFields? "/a/b".toList))
      = some ("/a/b".toList, none) := by decide

/-! ## Segments for matching -/

theorem wellFormed_withoutIndex {segments : List Segment} (h : WellFormed segments) :
    WellFormed (withoutIndex segments) := by
  unfold withoutIndex
  split
  · decide
  · next hne => exact h.dropLast hne

theorem Template.wellFormed_matchSegments {t : Template} (h : WellFormed t.segments) :
    WellFormed t.compile.matchSegments := by
  show WellFormed (if t.last.isIndexName then withoutIndex t.segments else t.segments)
  split
  · exact wellFormed_withoutIndex h
  · exact h

theorem Template.names_compile {t : Template} (h : WellFormed t.segments) :
    t.compile.names = occurrenceNames t.compile.matchSegments := by
  show variableNames t.segments = occurrenceNames
    (if t.last.isIndexName then withoutIndex t.segments else t.segments)
  split
  · next hindex =>
    have hlast : t.last.var? = none := by
      rw [← t.last.kind_eq_literal_iff]
      simpa using (Bool.and_eq_true_iff.mp hindex).1
    have hfront : variableNames t.segments = variableNames t.segments.dropLast :=
      calc variableNames t.segments
        _ = variableNames (t.segments.dropLast ++ [t.last]) :=
          congrArg variableNames t.segments_eq_concat
        _ = variableNames t.segments.dropLast := by
          rw [variableNames, List.filterMap_append, List.filterMap_cons, hlast]
          exact List.append_nil _
    have hempty : variableNames t.segments.dropLast = variableNames (withoutIndex t.segments) := by
      unfold withoutIndex
      split
      · next hnil => rw [hnil]; rfl
      · rfl
    rw [hfront, hempty, variableNames_eq (wellFormed_withoutIndex h).segment]
  · exact variableNames_eq h.segment

theorem Route.compile_eq_ok {source : Text} {r : Route} (h : Route.compile source = .ok r) :
    ∃ t, Template.parse source = .ok t ∧ r = t.compile := by
  unfold Route.compile at h
  cases ht : Template.parse source with
  | error e =>
    rw [ht] at h
    nomatch h
  | ok t =>
    rw [ht] at h
    exact ⟨t, rfl, (Except.ok.inj h).symm⟩

end Routing
