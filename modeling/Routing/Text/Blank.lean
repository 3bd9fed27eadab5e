/-
  BLANKS — the characters that are trimmed from the ends of texts.

  There are two classes, and neither holds the zero-width space or the byte order mark:

  1. **Spaces** are what Unicode calls white space: the ASCII controls from tab to carriage return,
     the space and its relatives of other widths, and the line and paragraph separators.  They may
     stand around a numeral.
  2. **Blanks** are the spaces and the four ASCII information separators.  They are trimmed from
     settings and from lines of a file.
-/
import Routing.Text.Basic

namespace Routing

namespace Text

/-- The spaces, as ranges of code points with both ends included. -/
def spaceRanges : List (Nat × Nat) :=
  [(0x09, 0x0D), (0x20, 0x20), (0x85, 0x85), (0xA0, 0xA0), (0x1680, 0x1680), (0x2000, 0x200A),
    (0x2028, 0x2029), (0x202F, 0x202F), (0x205F, 0x205F), (0x3000, 0x3000)]

/-- Whether a character is a space. -/
def isSpace (c : Char) : Bool := spaceRanges.any fun r => r.1 ≤ c.toNat && c.toNat ≤ r.2

/-- Whether a character is a blank: a space or an information separator. -/
def isBlank (c : Char) : Bool := isSpace c || (0x1C ≤ c.toNat && c.toNat ≤ 0x1F)

/-- The text `t` without the spaces at its two ends. -/
def stripSpaces (t : Text) : Text := t.trim isSpace

/-- The text `t` without the blanks at its two ends. -/
def strip (t : Text) : Text := t.trim isBlank

end Text

/-! ## The blanks hold all ASCII white space, and the spaces are 25 characters in all -/

theorem Text.isBlank_of_isWhitespace {c : Char} (h : c.isWhitespace = true) :
    Text.isBlank c = true := by
  simp only [Char.isWhitespace, Bool.or_eq_true, decide_eq_true_eq] at h
  rcases h with ((h | h) | h) | h <;> subst h <;> decide

example : (Text.spaceRanges.map fun r => r.2 + 1 - r.1).sum = 25 := by decide
example : Text.strip "\u3000\x1f a\u0085".toList = ['a']
    ∧ Text.stripSpaces "\u3000\x1f a\u0085".toList = "\x1f a".toList := by decide

end Routing
