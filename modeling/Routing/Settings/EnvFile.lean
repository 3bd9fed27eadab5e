/-
  ENVIRONMENT FILES — lines `KEY=VALUE`.

  1. **Lines** end at a line feed, a carriage return, or the two together; at nothing else.
  2. **Blank lines and comments** say nothing; a comment begins with `#`.  So do lines without `=`.
  3. **An entry** is cut at its first `=`.  Blanks around the key and around the value are dropped,
     and then the quotes of either kind that stand around the value.
  4. **A key that returns** gets its last value and keeps its first place.
-/
import Routing.Assoc
import Routing.Text.Blank

namespace Routing

namespace EnvFile

/-- The text with every line end written as a line feed. -/
def unifyLineEnds : Text → Text
  | [] => []
  | '\r' :: '\n' :: rest => '\n' :: unifyLineEnds rest
  | '\r' :: rest => '\n' :: unifyLineEnds rest
  | c :: rest => c :: unifyLineEnds rest

/-- The lines of a text, without their ends. -/
def lines (t : Text) : List Text := (unifyLineEnds t).splitOn '\n'

/-- Whether a character is a quote of either kind. -/
def isQuote (c : Char) : Bool := c = '"' || c = '\''

/-- The key and the value of a line, if it is an entry. -/
def entry? (line : Text) : Option (Text × Text) :=
  match Text.strip line with
  | [] => none
  | '#' :: _ => none
  | body =>
    match body.dropWhile (· ≠ '=') with
    | [] => none
    | _ :: value => some (Text.strip (body.takeWhile (· ≠ '=')), (Text.strip value).trim isQuote)

/-- The **entries of a file's text**. -/
def entries (t : Text) : Assoc Text Text := Assoc.ofPairs ((lines t).filterMap entry?)

/-- The text of a file's bytes, if they are UTF-8. -/
def decode? (bytes : ByteArray) : Option Text := (String.fromUTF8? bytes).map String.toList

end EnvFile

/-! ## Examples -/

example : EnvFile.entries "A = 1\r\n# x\r\rB='b=c'\nA=2".toList
    = [("A".toList, "2".toList), ("B".toList, "b=c".toList)] := by decide

end Routing
