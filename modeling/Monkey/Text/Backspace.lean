import Monkey.Text.Grapheme

/-!
# Backspaces

A line may hold backspaces, each of which takes back the grapheme cluster before it that is still
there. A cluster is measured in bytes of UTF-8, and its length is kept in one byte, so of a cluster of
256 bytes or more only the remainder is taken back. When that would leave a part of a character, the
line has no reading.

## Main definitions

* `Backspace.dropBytes?` — a text without its last bytes.
* `Backspace.resolve?` — a line after its backspaces.
-/

namespace Monkey.Text.Backspace

/-- The character that takes back what is before it. -/
def backspace : Char := '\x08'

/-- A text without its last `n` bytes, unless they begin inside a character. The text is held last
character first. -/
def dropBytes? (n : Nat) (text : List Char) : Option (List Char) :=
  if n = 0 then some text
  else match text with
    | [] => none
    | c :: cs => if c.utf8Size ≤ n then dropBytes? (n - c.utf8Size) cs else none

/-- A line while it is read: the characters that are still there, last one first, and the lengths of
their clusters, as far as they are kept, last one first. -/
structure Draft where
  text : List Char := []
  lengths : List Nat := []
deriving DecidableEq, Repr, Inhabited

/-- The length of a cluster in bytes, as far as it is kept. -/
def keptLength (cluster : List Char) : Nat := (String.ofList cluster).utf8ByteSize % 256

/-- The draft after one more cluster. -/
def Draft.add? (d : Draft) (cluster : List Char) : Option Draft :=
  if cluster = [backspace] then
    match d.lengths with
    | [] => some d
    | n :: lengths => (dropBytes? n d.text).map fun text => ⟨text, lengths⟩
  else some ⟨cluster.reverse ++ d.text, keptLength cluster :: d.lengths⟩

/-- A line after its backspaces. A backspace with nothing before it does nothing. -/
def resolve? (line : String) : Option String :=
  ((Grapheme.clusters line.toList).foldlM Draft.add? {}).map fun d => String.ofList d.text.reverse

end Monkey.Text.Backspace
