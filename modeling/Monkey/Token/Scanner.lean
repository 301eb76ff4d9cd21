import Monkey.Text.Blank
import Monkey.Text.Lines
import Monkey.Token.Lexeme

/-!
# Scanning a text for tokens

A text is scanned line by line. A string literal may run over any number of lines, with a newline in
its text for each line that ends inside it, so between two lines the scanner is either in code or in
a literal that is still open. Nothing else of one line is needed to scan the next.

## Main definitions

* `Scanner.scan` — the tokens of the rest of one line, and where the line leaves the scanner.
* `Scanner.feed`, `Scanner.finish` — adding lines, and closing the text.
* `Token.ofLines`, `Token.ofString`, `Token.ofBytes?` — the tokens of a whole text.
-/

namespace Monkey

/-- Where a scanner is: in code, or in a string literal that was opened at `start` and whose text so
far is `text`. -/
inductive Scanner.Mode where
  | code
  | literal (start : Location) (text : String)
deriving DecidableEq, Repr, Inhabited

/-- A scanner between two lines. -/
structure Scanner where
  /-- How many lines have been read. -/
  lines : Nat := 0
  /-- The end of the last line that was read. -/
  stop : Location := {}
  mode : Scanner.Mode := .code
  tokens : Array Token := #[]
deriving Repr, Inhabited

namespace Scanner

open Text

/-- The tokens of the characters `cs`, which stand in line `line` from column `column` on, and the
mode in which they leave the scanner. A line that ends inside a literal adds a newline to it. -/
def scan (line column : Nat) (mode : Mode) (cs : List Char) : List Token × Mode :=
  match mode with
  | .code =>
    match cs with
    | [] => ([], .code)
    | c :: cs =>
      if isSeparator c then scan line (column + 1) .code cs
      else if c = '"' then scan line (column + 1) (.literal ⟨line, column⟩ "") cs
      else
        let token := Lexeme.first c cs
        let width := token.2.1.length
        let after := scan line (column + width) .code token.2.2
        (⟨token.1, String.ofList token.2.1, Span.ofWidth ⟨line, column⟩ width⟩ :: after.1, after.2)
  | .literal start text =>
    let body := cs.takeWhile (· ≠ '"')
    match _h : cs.dropWhile (· ≠ '"') with
    | [] => ([], .literal start (text ++ String.ofList body ++ "\n"))
    | _ :: rest =>
      let column := column + body.length + 1
      let after := scan line column .code rest
      (⟨.string, text ++ String.ofList body, ⟨start, ⟨line, column⟩⟩⟩ :: after.1, after.2)
termination_by cs.length
decreasing_by
  · simp
  · simp
  · exact Lexeme.length_first_lt c cs
  · have := (List.dropWhile_sublist (l := cs) (· ≠ '"')).length_le
    simp only [ne_eq, _h, List.length_cons] at this
    omega

/-- A scanner that has read one more line. -/
def feedLine (s : Scanner) (line : String) : Scanner :=
  let after := scan s.lines 0 s.mode line.toList
  { lines := s.lines + 1
    stop := ⟨s.lines, line.length⟩
    mode := after.2
    tokens := s.tokens ++ after.1 }

/-- A scanner that has read more lines. -/
def feed (s : Scanner) (lines : List String) : Scanner := lines.foldl feedLine s

/-- Adding lines in two portions is adding them all at once. -/
theorem feed_append (s : Scanner) (xs ys : List String) :
    s.feed (xs ++ ys) = (s.feed xs).feed ys := List.foldl_append

/-- The tokens of the text that has been read. A literal that is still open is an illegal token up
to the end of the text, and the mark of the end comes last. -/
def finish (s : Scanner) : List Token :=
  let unfinished : List Token :=
    match s.mode with
    | .code => []
    | .literal start text => [⟨.illegal, "\"" ++ text, ⟨start, s.stop⟩⟩]
  s.tokens.toList ++ unfinished ++ [Token.endAt s.stop]

end Scanner

namespace Token

open Text

/-- The tokens of a text that is given as lines. -/
def ofLines (lines : List String) : List Token := (({} : Scanner).feed lines).finish

/-- The tokens of a text. -/
def ofString (text : String) : List Token := ofLines (Lines.ofString text)

/-- The tokens of a file, unless a line of it is not valid UTF-8. -/
def ofBytes? (bytes : List UInt8) : Option (List Token) := (Lines.ofBytes? bytes).map ofLines

end Token

end Monkey
