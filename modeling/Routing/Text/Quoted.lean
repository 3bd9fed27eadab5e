/-
  QUOTED TEXT — a text shown between quotes, so that a reader sees every character of it.

  1. **The quotes** are single, or double if the text holds a single quote and no double one.
  2. **Escapes.**  The backslash and the quote in use are preceded by a backslash; line feed,
     carriage return and tab have a letter; any other unprintable character is its code point in
     two, four or eight small hexadecimal digits after `\x`, `\u` or `\U`.
-/
import Routing.Text.Printable

namespace Routing

namespace Text

/-- The quote that a text is shown between. -/
def quoteFor (t : Text) : Char := if '\'' ∈ t ∧ '"' ∉ t then '"' else '\''

/-- The small hexadecimal digits of `n`, at least `width` of them. -/
def hex (width n : Nat) : Text :=
  let digits := Nat.toDigits 16 n
  List.replicate (width - digits.length) '0' ++ digits

/-- The escape of an unprintable character. -/
def codeEscape (n : Nat) : Text :=
  if n < 0x100 then '\\' :: 'x' :: hex 2 n
  else if n < 0x10000 then '\\' :: 'u' :: hex 4 n
  else '\\' :: 'U' :: hex 8 n

/-- A character of a text shown between the quotes `q`. -/
def shownChar (q c : Char) : Text :=
  if c = q ∨ c = '\\' then ['\\', c]
  else if c = '\n' then ['\\', 'n']
  else if c = '\r' then ['\\', 'r']
  else if c = '\t' then ['\\', 't']
  else if isPrintable c then [c]
  else codeEscape c.toNat

/-- Shows **a text between quotes**. -/
def quoted (t : Text) : Text :=
  let q := quoteFor t
  q :: t.flatMap (shownChar q) ++ [q]

end Text

/-! ## Examples -/

example : Text.quoted "it's".toList = "\"it's\"".toList := by decide +kernel
example : Text.quoted "'\"".toList = "'\\'\"'".toList := by decide +kernel
example : Text.quoted "é\x00\u200b".toList = "'é\\x00\\u200b'".toList := by decide +kernel

end Routing
