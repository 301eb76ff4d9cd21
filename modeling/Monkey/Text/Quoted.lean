import Monkey.Text.Printable

/-!
# Quoted texts

How a text is shown inside double quotes: the quote and the backslash are escaped, and so is what
cannot be shown by itself, the common control characters by a letter and the rest by the code point
in hexadecimal.

## Main definitions

* `Quoted.escape` — what stands for one character.
* `Quoted.quote` — a text in quotes.
-/

namespace Monkey.Text.Quoted

/-- What stands for a character between the quotes. -/
def escape (c : Char) : List Char :=
  match c with
  | '"' => ['\\', '"']
  | '\\' => ['\\', '\\']
  | '\n' => ['\\', 'n']
  | '\r' => ['\\', 'r']
  | '\t' => ['\\', 't']
  | '\x00' => ['\\', '0']
  | c => if isPrintable c then [c] else ['\\', 'u', '{'] ++ Nat.toDigits 16 c.toNat ++ ['}']

/-- A text between double quotes. -/
def quote (text : String) : String :=
  String.ofList ('"' :: text.toList.flatMap escape ++ ['"'])

end Monkey.Text.Quoted
