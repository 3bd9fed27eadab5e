/-
  TEXT AS A LIST OF CHARACTERS.

  Patterns, paths, messages and settings are all read and written one character at a time, and
  every index, length and span of this library counts characters.  So a text is the list itself:
  `List.splitOn` cuts a path into fields, `List.intercalate` joins them again, and a scanner is a
  recursion on the list.  This file adds the three operations on it that have no library name:

  * `Text.trim p` drops the characters of a class `p` at both ends;
  * `Text.lowered` folds capitals, as far as a comparison with an ASCII word can tell;
  * `Text.ofNat`, `Text.ofInt` write a number in decimal; a number of more than 4300 digits is never
    put into a message (`Text.isTellable`), and never read from a text either.
-/

namespace Routing

/-- A text is its list of characters. -/
abbrev Text := List Char

namespace Text

/-! ## Trimming -/

/-- The text `t` without the characters of the class `p` that stand at its two ends. -/
def trim (p : Char → Bool) (t : Text) : Text :=
  ((t.dropWhile p).reverse.dropWhile p).reverse

/-! ## Folding capitals -/

/-- The small form of a character whose small form is an ASCII letter: the capitals `A` to `Z` and
    the Kelvin sign.  No other character has one, so a folded text equals an ASCII word exactly when
    the text written in small letters throughout does. -/
def lowerChar (c : Char) : Char :=
  if c = '\u212a' then 'k' else c.toLower

/-- The text `t` with its capitals folded. -/
def lowered (t : Text) : Text := t.map lowerChar

/-! ## Numbers in decimal -/

/-- The decimal digits of `n`, without leading zeros. -/
def ofNat (n : Nat) : Text := Nat.toDigits 10 n

theorem isDigit_of_mem_ofNat {n : Nat} {c : Char} (h : c ∈ ofNat n) : c.isDigit = true :=
  Nat.isDigit_of_mem_toDigits (by decide) (by decide) h

/-- The decimal digits of `n`, after a `-` if it is negative. -/
def ofInt : Int → Text
  | .ofNat n => ofNat n
  | .negSucc n => '-' :: ofNat (n + 1)

/-- The most digits that a number may have to be read from a text, or to be put into one. -/
def maxDigits : Nat := 4300

/-- Whether a number has few enough digits to be put into a message; a sign does not count. -/
def isTellable (n : Int) : Bool := (ofNat n.natAbs).length ≤ maxDigits

end Text

/-! ## Examples -/

example : Text.trim (· == ' ') "  a b ".toList = "a b".toList := by decide
example : Text.lowered "CACHE_Size".toList = "cache_size".toList := by decide
example : Text.ofInt (-305) = "-305".toList ∧ Text.isTellable (-305) = true := by decide

end Routing
