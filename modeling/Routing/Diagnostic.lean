/-
  DIAGNOSTICS — what is said about a faulty text, and how it is laid out.

  A diagnostic is a message with, where they are known, the text it is about, the index of the
  character to blame, and advice.  Laid out, it is a list of lines: a heading with the summary; the
  text and a caret under the blamed character, both indented by two; the advice, numbered from 1.
  The caret stands `index` columns into the text; an index before the text leaves it at the start.

  An index that points into the text can be written and has a caret.  An index that comes from
  elsewhere may be any integer: it can have too many digits for the summary, and if not, there may
  still be no margin for the caret.
-/
import Routing.Text.Margin

namespace Routing

/-- A message about a text. -/
structure Diagnostic where
  message : Text
  source : Text
  index : Option Int
  suggestions : List Text
  deriving DecidableEq

namespace Diagnostic

/-- The word that heads a diagnostic of no further kind. -/
def heading : Text := "PatternDiagnostic".toList

/-- The message and, where it is known, the index. -/
def summary (d : Diagnostic) : Text :=
  match d.index with
  | none => d.message
  | some i => d.message ++ " at index ".toList ++ Text.ofInt i

/-- The text and the line with the caret; none without a text or without an index. -/
def pointer (d : Diagnostic) : List Text :=
  match d.source, d.index with
  | [], _ => []
  | _, none => []
  | source, some i => ["  ".toList ++ source, "  ".toList ++ Text.margin i ++ ['^']]

/-- The advice as numbered lines under a heading of their own. -/
def advice (d : Diagnostic) : List Text :=
  match d.suggestions with
  | [] => []
  | suggestions =>
    "Suggestions:".toList ::
      (suggestions.zipIdx 1).map fun (s, i) => "  ".toList ++ Text.ofNat i ++ ") ".toList ++ s

/-- The lines of a diagnostic under a heading. -/
def lines (d : Diagnostic) (heading : Text) : List Text :=
  (heading ++ ": ".toList ++ d.summary) :: d.pointer ++ d.advice

/-- The **layout of a diagnostic**: its lines, joined by line feeds. -/
def layout (d : Diagnostic) (heading : Text) : Text :=
  List.intercalate ['\n'] (d.lines heading)

/-- Why the caret of a diagnostic cannot be drawn; without a caret there is nothing to draw. -/
def caretFault? (d : Diagnostic) (room : Nat) : Option MarginFault :=
  match d.source, d.index with
  | [], _ => none
  | _, none => none
  | _, some i => Text.marginFault? room i

end Diagnostic

/-- Why a diagnostic cannot be drawn. -/
inductive DrawFault where
  /-- The index has too many digits to be told. -/
  | index
  /-- There is no margin for the caret. -/
  | caret (f : MarginFault)
  deriving DecidableEq

namespace Diagnostic

/-- The **layout of a diagnostic whose index may be anything**, on a machine with room for `room`
    blanks; the summary comes before the caret. -/
def draw (d : Diagnostic) (heading : Text) (room : Nat) : Except DrawFault Text :=
  if d.index.all Text.isTellable then
    match d.caretFault? room with
    | some f => .error (.caret f)
    | none => .ok (d.layout heading)
  else .error .index

end Diagnostic

/-! ## Examples -/

example : (Diagnostic.mk "m".toList "/ab".toList (some 2) ["x".toList]).layout "D".toList
    = "D: m at index 2\n  /ab\n    ^\nSuggestions:\n  1) x".toList := by decide
example : (Diagnostic.mk "m".toList "/".toList (some (-1)) []).pointer
    = ["  /".toList, "  ^".toList] := by decide
example : (Diagnostic.mk [] [] (some (-9223372036854775809)) []).caretFault? 80 = none
    ∧ (Diagnostic.mk [] ['/'] (some (-9223372036854775809)) []).caretFault? 80 = some .noWidth := by
  decide

end Routing
