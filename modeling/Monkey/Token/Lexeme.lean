import Monkey.Text.WordCharacter
import Monkey.Token

/-!
# The token at the front of a line

Outside string literals a token is the longest one that the characters allow: a word is a whole run
of letters, digits and underscores, an integer a whole run of digits, and `==` and `!=` are one token
each. A character that begins none of these is an illegal token by itself.

## Main definitions

* `Lexeme.kindOfWord` — keyword or identifier.
* `Lexeme.first` — the kind and the characters of the first token, and the characters after it.
-/

namespace Monkey.Lexeme

open Text

/-- The kind of a word, given the character after it. A keyword that a further word character
touches, which can only be one outside ASCII, is an identifier. -/
def kindOfWord (word : List Char) (next : Option Char) : Token.Kind :=
  if next.any isWordCharacter then .identifier
  else match Keyword.ofSpelling? (String.ofList word) with
    | some k => .keyword k
    | none => .identifier

/-- The token that `c :: cs` begins with: its kind, its characters, and what follows it. -/
def first (c : Char) (cs : List Char) : Token.Kind × List Char × List Char :=
  if isWordStart c then
    let word := c :: cs.takeWhile isWordPart
    let rest := cs.dropWhile isWordPart
    (kindOfWord word rest.head?, word, rest)
  else if c.isDigit then
    (.integer, c :: cs.takeWhile Char.isDigit, cs.dropWhile Char.isDigit)
  else match c, cs with
    | '=', '=' :: rest => (.symbol .equal, ['=', '='], rest)
    | '!', '=' :: rest => (.symbol .notEqual, ['!', '='], rest)
    | c, rest =>
      match Symbol.ofChar? c with
      | some s => (.symbol s, [c], rest)
      | none => (.illegal, [c], rest)

/-- The token and what follows it are the whole text: nothing is lost and nothing is added. -/
theorem first_append (c : Char) (cs : List Char) :
    (first c cs).2.1 ++ (first c cs).2.2 = c :: cs := by
  unfold first
  split
  · simp
  · split
    · simp
    · split
      · simp
      · simp
      · split <;> simp

/-- What follows the first token is shorter than the text. -/
theorem length_first_lt (c : Char) (cs : List Char) :
    (first c cs).2.2.length < (c :: cs).length := by
  have hne : 0 < (first c cs).2.1.length := by
    unfold first
    split
    · simp
    · split
      · simp
      · split
        · simp
        · simp
        · split <;> simp
  have h := congrArg List.length (first_append c cs)
  rw [List.length_append] at h
  omega

end Monkey.Lexeme
