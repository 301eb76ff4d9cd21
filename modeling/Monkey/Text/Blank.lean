/-!
# Blank lines

A line is blank when it holds nothing but white space, in the sense of the Unicode property
`White_Space`. The property is wider than what separates tokens: a no-break space makes a blank line
but separates nothing.

## Main definitions

* `isWhiteSpace` — the Unicode property.
* `isBlankLine` — a line without any other character.
* `isSeparator` — the characters that may stand between two tokens of a line.
-/

namespace Monkey.Text

/-- The characters with the Unicode property `White_Space`. -/
def isWhiteSpace (c : Char) : Bool :=
  let n := c.toNat
  (0x09 ≤ n && n ≤ 0x0D) || n = 0x20 || n = 0x85 || n = 0xA0 || n = 0x1680 ||
    (0x2000 ≤ n && n ≤ 0x200A) || n = 0x2028 || n = 0x2029 || n = 0x202F || n = 0x205F || n = 0x3000

/-- A line of white space, the empty line included. -/
def isBlankLine (line : String) : Bool := line.toList.all isWhiteSpace

/-- A space, tab, carriage return or form feed. -/
def isSeparator (c : Char) : Bool := c = ' ' || c = '\t' || c = '\r' || c = '\x0c'

/-- What separates tokens is white space. -/
theorem isWhiteSpace_of_isSeparator {c : Char} (h : isSeparator c = true) :
    isWhiteSpace c = true := by
  simp only [isSeparator, Bool.or_eq_true, decide_eq_true_eq] at h
  rcases h with ((rfl | rfl) | rfl) | rfl <;> decide

end Monkey.Text
