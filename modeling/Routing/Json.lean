/-
  DOCUMENTS OF NAMES AND VALUES, AND THEIR ASCII TEXT.

  A document is a text, a natural number, a truth value, a list of documents, or fields with names.
  Written out, it is pure ASCII:

  1. **Texts** stand between quotes.  The quote, the backslash and five controls have escapes of
     their own; every other character outside the printable ASCII range is written as one or two
     UTF-16 units, four small hexadecimal digits each.
  2. **Layouts** are two: all on one line, or each item on a line of its own, indented by a unit for
     each level.  The unit may be empty.
  3. **Empty lists and fields** are the two brackets, in either layout.
-/
import Routing.Text.Margin

namespace Routing

/-- A document. -/
inductive Json where
  | text (t : Text)
  | number (n : Nat)
  | bool (b : Bool)
  | list (items : List Json)
  | fields (items : List (Text × Json))

namespace Json

/-! ## Texts -/

/-- The four small hexadecimal digits of a 16-bit unit. -/
def hex4 (n : Nat) : Text :=
  [n / 4096 % 16, n / 256 % 16, n / 16 % 16, n % 16].map Nat.digitChar

/-- A UTF-16 unit as an escape. -/
def unitEscape (n : Nat) : Text := '\\' :: 'u' :: hex4 n

/-- The UTF-16 units of a code point: itself, or a high and a low half beyond U+FFFF. -/
def units (n : Nat) : List Nat :=
  if n < 0x10000 then [n] else [0xD800 + (n - 0x10000) / 0x400, 0xDC00 + (n - 0x10000) % 0x400]

/-- A character inside a quoted text. -/
def escapeChar (c : Char) : Text :=
  if c = '"' then ['\\', '"']
  else if c = '\\' then ['\\', '\\']
  else if c = '\n' then ['\\', 'n']
  else if c = '\r' then ['\\', 'r']
  else if c = '\t' then ['\\', 't']
  else if c = '\x08' then ['\\', 'b']
  else if c = '\x0c' then ['\\', 'f']
  else if 0x20 ≤ c.toNat ∧ c.toNat < 0x7F then [c]
  else (units c.toNat).flatMap unitEscape

/-- A text between quotes. -/
def quote (t : Text) : Text := '"' :: t.flatMap escapeChar ++ ['"']

/-! ## Layouts -/

/-- How a document is laid out. -/
inductive Layout where
  /-- Everything on one line. -/
  | line
  /-- Each item on its own line, indented by `unit` for each level. -/
  | block (unit : Text)
  deriving DecidableEq

namespace Layout

/-- The block layout that indents by a margin, if the margin can be had on a machine with room for
    `room` blanks. -/
def ofWidth (room : Nat) (width : Int) : Except MarginFault Layout :=
  (Text.tryMargin room width).map .block

/-- The block layout that indents by two blanks. -/
def standard : Layout := .block (Text.margin 2)

/-- The line break before what stands at a level; none on one line. -/
def newline (l : Layout) (depth : Nat) : Text :=
  match l with
  | .line => []
  | .block unit => '\n' :: (List.replicate depth unit).flatten

/-- What stands between two items of a level. -/
def between (l : Layout) (depth : Nat) : Text :=
  match l with
  | .line => ", ".toList
  | .block _ => ',' :: l.newline depth

end Layout

/-! ## Writing -/

mutual

/-- The **text of a document** that stands at a level. -/
def write (l : Layout) (depth : Nat) : Json → Text
  | .text t => quote t
  | .number n => Text.ofNat n
  | .bool true => "true".toList
  | .bool false => "false".toList
  | .list [] => "[]".toList
  | .list (x :: xs) =>
    '[' :: l.newline (depth + 1) ++ write l (depth + 1) x ++ writeItems l (depth + 1) xs
      ++ l.newline depth ++ [']']
  | .fields [] => ['\x7b', '\x7d']
  | .fields ((k, x) :: xs) =>
    '\x7b' :: l.newline (depth + 1) ++ quote k ++ ": ".toList ++ write l (depth + 1) x
      ++ writeFields l (depth + 1) xs ++ l.newline depth ++ ['\x7d']

/-- The text of the items after the first. -/
def writeItems (l : Layout) (depth : Nat) : List Json → Text
  | [] => []
  | x :: xs => l.between depth ++ write l depth x ++ writeItems l depth xs

/-- The text of the fields after the first. -/
def writeFields (l : Layout) (depth : Nat) : List (Text × Json) → Text
  | [] => []
  | (k, x) :: xs =>
    l.between depth ++ quote k ++ ": ".toList ++ write l depth x ++ writeFields l depth xs

end

/-- The text of a document. -/
def render (l : Layout) (x : Json) : Text := write l 0 x

end Json

/-! ## Examples -/

example : Json.quote "a\"é😀\x7f".toList
    = "\"a\\\"\\u00e9\\ud83d\\ude00\\u007f\"".toList := by decide
example : Json.render .line (.list [.number 1, .list [], .bool true]) = "[1, [], true]".toList := by
  decide
example : Json.render (.block [' ']) (.fields [("k".toList, .list [.number 1, .number 2])])
    = "\x7b\n \"k\": [\n  1,\n  2\n ]\n\x7d".toList := by decide

end Routing
