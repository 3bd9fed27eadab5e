/-
  ROUTES AS DOCUMENTS.

  A route is told to other programs as a document: its source, its segments with their kinds and
  tokens, and what compiling found out.  Spans are left out, for they say where a token stood and
  not what it is.
-/
import Routing.Route.Basic
import Routing.Json

namespace Routing

/-- The document of a token. -/
def Token.toJson : Token → Json
  | .literal value _ =>
    .fields [("type".toList, .text "literal".toList), ("value".toList, .text value)]
  | .var v =>
    .fields
      [("type".toList, .text "variable".toList), ("name".toList, .text v.name),
        ("reserved".toList, .bool v.reserved)]

/-- The document of a segment. -/
def Segment.toJson (s : Segment) : Json :=
  .fields
    [("kind".toList, .text s.kind.name), ("tokens".toList, .list (s.tokens.map Token.toJson))]

/-- The **document of a route**. -/
def Route.toJson (r : Route) : Json :=
  .fields
    [("raw".toList, .text r.raw),
      ("segments".toList, .list (r.segments.map Segment.toJson)),
      ("static_prefix".toList, .text r.staticHead),
      ("specificity".toList, .list (r.ranks.map Json.number)),
      ("is_index".toList, .bool r.isIndex),
      ("variables".toList, .list (r.names.map Json.text))]

/-- The text of a route's document. -/
def Route.render (r : Route) (layout : Json.Layout) : Text := r.toJson.render layout

end Routing
