/-
  ROUTES — templates made ready for matching and ordering.

  A route keeps what every match and every comparison needs:

  * `matchSegments` — the segments that a path must fit.  A template whose last segment is the text
    `index` is an INDEX template and answers for its parent path, so that segment is dropped; if it
    was the only one, what is left is the empty literal, the one segment of `/`.
  * `staticHead` — the beginning shared by all paths that fit, for a quick refusal.
  * `ranks` — the rank of each segment, the dropped one included.

  A route comes from a source or from segments given by hand (`Pattern`); the second is refused only
  if it has no segment.  A caller who wants to look at a rejection before it fails ATTEMPTS to
  compile a source: the attempt holds a route or a rejection, and gives out either when asked.
-/
import Routing.Pattern.Scan

namespace Routing

/-- A template with what matching and ordering need of it. -/
structure Route where
  raw : Text
  segments : List Segment
  matchSegments : List Segment
  staticHead : Text
  ranks : List Nat
  isIndex : Bool
  deriving DecidableEq

/-- Whether a segment is the fixed text `index`. -/
def Segment.isIndexName (s : Segment) : Bool := s.kind = .literal && s.literal = indexName

/-- The segments without a final `index`; the empty literal if nothing else is left. -/
def withoutIndex (segments : List Segment) : List Segment :=
  match segments.dropLast with
  | [] => [⟨[]⟩]
  | rest => rest

/-- The **route of a template**. -/
def Template.compile (t : Template) : Route :=
  let isIndex := t.last.isIndexName
  let matchSegments := if isIndex then withoutIndex t.segments else t.segments
  { raw := t.raw
    segments := t.segments
    matchSegments
    staticHead := Routing.staticHead matchSegments
    ranks := t.segments.map Segment.rank
    isIndex }

namespace Route

/-- The route of a source, or why there is none. -/
def compile (source : Text) : Except Rejection Route := (Template.parse source).map Template.compile

/-- Whether the last segment is a catch-all. -/
def hasCatchAll (r : Route) : Bool := r.segments.getLast?.any (·.kind = .catchAll)

/-- The name of each segment's variable, from left to right. -/
def names (r : Route) : List Text := variableNames r.segments

/-- How many of the routes differ by source: two routes of one source count once. -/
def distinct (routes : List Route) : Nat := (routes.map Route.raw).eraseDups.length

end Route

/-! ## Attempts -/

/-- An attempt to compile a source: a route or a rejection, and never both. -/
structure Attempt where
  source : Text
  route : Option Route
  error : Option Rejection
  exclusive : route.isSome = error.isNone

namespace Attempt

/-- Whether there is a route. -/
def ok (a : Attempt) : Bool := a.error.isNone

/-- The route of an attempt, or the rejection that it has met. -/
def unwrap (a : Attempt) : Except Rejection Route :=
  match herror : a.error with
  | some e => .error e
  | none => .ok (a.route.get (by rw [a.exclusive, herror]; rfl))

end Attempt

/-- The **attempt to compile a source**, which never fails. -/
def Route.attempt (source : Text) : Attempt :=
  match Template.parse source with
  | .error e => ⟨source, none, some e, rfl⟩
  | .ok t => ⟨source, some t.compile, none, rfl⟩

/-- **An attempt gives out what compiling gives.** -/
theorem Route.unwrap_attempt (source : Text) : (attempt source).unwrap = compile source := by
  unfold attempt compile
  cases Template.parse source <;> rfl

/-! ## Patterns: sources, and segments given by hand -/

/-- What a route can be made of. -/
inductive Pattern where
  | source (text : Text)
  | built (raw : Text) (segments : List Segment)

/-- Why a pattern has no route. -/
inductive PatternFault where
  | rejected (r : Rejection)
  | noSegments
  deriving DecidableEq

/-- The route of a pattern, or why there is none. -/
def Pattern.compile : Pattern → Except PatternFault Route
  | .source text =>
    match Route.compile text with
    | .ok r => .ok r
    | .error e => .error (.rejected e)
  | .built raw segments =>
    match Template.ofSegments? raw segments with
    | some t => .ok t.compile
    | none => .error .noSegments

/-! ## Examples -/

example : (Route.compile "/docs/index".toList).toOption.map (·.matchSegments.map Segment.literal)
    = some ["docs".toList] := by decide
example : (Route.compile "/index".toList).toOption.map Route.matchSegments = some [⟨[]⟩] := by
  decide
example : (Route.compile "/index/".toList).toOption.map Route.isIndex = some false := by decide

end Routing
