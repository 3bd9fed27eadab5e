/-
  TEMPLATES — a source together with the segments it spells.

  A template always has a segment: `/` alone spells one empty literal.  The invariant is a field of
  the type, so that every question about the last segment has an answer.  Segments given by hand
  become a template only if there is one (`Template.ofSegments?`); nothing else about them is
  checked.
-/
import Routing.Pattern.Segment

namespace Routing

/-- The character that begins a path and separates its segments. -/
def separator : Char := '/'

/-- The character that opens a variable. -/
def openBrace : Char := '{'

/-- The character that closes a variable. -/
def closeBrace : Char := '}'

/-- The character after `openBrace` that makes a variable reserved. -/
def reservedMarker : Char := '+'

/-- Characters that addresses reserve for other uses and that are plain text in a template. -/
def literalSymbols : Text := "-._~?#[]@!$&'()+,;=".toList

/-- The text of a final segment that makes a template answer for its parent path. -/
def indexName : Text := "index".toList

/-- A source and its segments, of which there is at least one. -/
structure Template where
  raw : Text
  segments : List Segment
  segments_ne_nil : segments ≠ []

namespace Template

/-- The template of segments given by hand, if there are any. -/
def ofSegments? (raw : Text) (segments : List Segment) : Option Template :=
  if h : segments = [] then none else some ⟨raw, segments, h⟩

/-- The last segment. -/
def last (t : Template) : Segment := t.segments.getLast t.segments_ne_nil

end Template

/-! ## What a run of segments fixes in advance -/

/-- The beginning that a run of segments gives to every path it admits: a `/` and the texts of its
    leading literal segments, joined by `/`. -/
def staticHead (segments : List Segment) : Text :=
  separator :: List.intercalate [separator]
    ((segments.takeWhile (·.kind = .literal)).map Segment.literal)

/-- The name of each segment's variable, from left to right. -/
def variableNames (segments : List Segment) : List Text :=
  segments.filterMap fun s => s.var?.map Variable.name

/-! ## Examples -/

example : staticHead [⟨[.literal "a".toList none]⟩, ⟨[]⟩, ⟨[.var ⟨"y".toList, true, none⟩]⟩]
    = "/a/".toList := by decide
example : variableNames [⟨[]⟩, ⟨[.var ⟨"y".toList, true, none⟩]⟩] = ["y".toList] := by decide

end Routing
