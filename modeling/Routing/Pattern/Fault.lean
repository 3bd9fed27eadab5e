/-
  FAULTS — why a source is no template.

  1. **Categories** name the eight reasons and carry the advice for each.
  2. **Faults** are what the scanner finds: a category, with the offending character where the
     wording needs it.  The wording lives here and nowhere else.
  3. **Rejections** are faults told to a caller: a diagnostic about the source, with the category.
-/
import Routing.Diagnostic

namespace Routing

/-! ## Categories -/

/-- Why a source is rejected. -/
inductive Category where
  | emptyPattern
  | missingLeadingSlash
  | unmatchedCloseBrace
  | nestedOpenBrace
  | unterminatedVariable
  | emptyVariableName
  | multipleVariables
  | contentAfterCatchAll
  deriving DecidableEq

namespace Category

/-- All categories. -/
def all : List Category :=
  [.emptyPattern, .missingLeadingSlash, .unmatchedCloseBrace, .nestedOpenBrace,
    .unterminatedVariable, .emptyVariableName, .multipleVariables, .contentAfterCatchAll]

/-- The word for a category. -/
def name : Category → Text
  | .emptyPattern => "empty_pattern".toList
  | .missingLeadingSlash => "missing_leading_slash".toList
  | .unmatchedCloseBrace => "unmatched_close_brace".toList
  | .nestedOpenBrace => "nested_open_brace".toList
  | .unterminatedVariable => "unterminated_variable".toList
  | .emptyVariableName => "empty_variable_name".toList
  | .multipleVariables => "multiple_variables".toList
  | .contentAfterCatchAll => "content_after_catch_all".toList

/-- The category that a word names. -/
def ofName? (word : Text) : Option Category := all.find? (·.name = word)

/-- What to do about a source of this category. -/
def suggestions : Category → List Text
  | .emptyPattern => ["Use '/' for the root path".toList]
  | .missingLeadingSlash => ["Prefix the pattern with '/'".toList]
  | .unmatchedCloseBrace => ["Remove the stray '\x7d' or add a matching '\x7b'".toList]
  | .nestedOpenBrace =>
    ["Close the open variable with '\x7d' before starting another".toList]
  | .unterminatedVariable => ["Close the variable with '\x7d'".toList]
  | .emptyVariableName => ["Name the variable, e.g. '\x7bid\x7d'".toList]
  | .multipleVariables => ["Split the variables into separate segments".toList]
  | .contentAfterCatchAll =>
    ["A catch-all variable '\x7b+name\x7d' must end the pattern".toList,
      "Remove everything after the closing '\x7d'".toList]

end Category

/-! ## Rejections -/

/-- A diagnostic about a source, with its category. -/
structure Rejection extends Diagnostic where
  category : Category
  deriving DecidableEq

namespace Rejection

/-- The word that heads a rejection. -/
def heading : Text := "PatternSyntaxError".toList

/-- The rejection of `source` for a reason found at `index`, with the advice of its category. -/
def ofCategory (category : Category) (message source : Text) (index : Option Int) : Rejection :=
  { message, source, index, suggestions := category.suggestions, category }

/-- The layout of a rejection that blames a character of its source. -/
def format (r : Rejection) : Text := r.toDiagnostic.layout heading

/-- The layout of a rejection that may blame any index, on a machine with room for `room` blanks. -/
def draw (r : Rejection) (room : Nat) : Except DrawFault Text := r.toDiagnostic.draw heading room

end Rejection

/-! ## Faults -/

/-- What can be wrong with a source. -/
inductive Fault where
  | emptyPattern
  | missingLeadingSlash
  | unmatchedCloseBrace
  | nestedOpenBrace
  | unterminatedVariable
  | emptyVariableName
  | multipleVariables
  | contentAfterCatchAll (found : Char)
  deriving DecidableEq

namespace Fault

/-- The category of a fault. -/
def category : Fault → Category
  | .emptyPattern => .emptyPattern
  | .missingLeadingSlash => .missingLeadingSlash
  | .unmatchedCloseBrace => .unmatchedCloseBrace
  | .nestedOpenBrace => .nestedOpenBrace
  | .unterminatedVariable => .unterminatedVariable
  | .emptyVariableName => .emptyVariableName
  | .multipleVariables => .multipleVariables
  | .contentAfterCatchAll _ => .contentAfterCatchAll

/-- The wording of a fault. -/
def message : Fault → Text
  | .emptyPattern => "URI pattern cannot be empty".toList
  | .missingLeadingSlash => "URI pattern must start with a '/'".toList
  | .unmatchedCloseBrace => "unmatched '\x7d'".toList
  | .nestedOpenBrace => "unexpected '\x7b' inside a variable".toList
  | .unterminatedVariable => "unterminated '\x7b'".toList
  | .emptyVariableName => "variable name cannot be empty".toList
  | .multipleVariables => "a segment can hold only one variable, unexpected '\x7b'".toList
  | .contentAfterCatchAll c =>
    "unexpected '".toList ++ c :: "' after catch-all variable".toList

/-- The rejection of `source` for a fault found at `index`. -/
def reject (f : Fault) (source : Text) (index : Nat) : Rejection :=
  .ofCategory f.category f.message source (some index)

end Fault

/-! ## Examples -/

example : (Fault.unmatchedCloseBrace.reject "/index\x7d".toList 6).format
    = "PatternSyntaxError: unmatched '\x7d' at index 6\n  /index\x7d\n        ^\n".toList
      ++ "Suggestions:\n  1) Remove the stray '\x7d' or add a matching '\x7b'".toList := by decide

end Routing
