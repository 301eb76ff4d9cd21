/-!
# Cutting a text into lines

A line ends at a newline, which is dropped together with one carriage return just before it. What
follows the last newline is a line of its own unless it is empty, and it keeps a carriage return at
its end. The same cut serves characters and bytes.

## Main definitions

* `Lines.cut` — the cut, for any alphabet with a newline and a carriage return.
* `Lines.ofString` — the lines of a text.
* `Lines.ofBytes?` — the lines of a file, each of which must be valid UTF-8 on its own.
-/

namespace Monkey.Text.Lines

variable {α : Type} [DecidableEq α]

/-- A line that is held last symbol first, without the carriage return that may stand at its end. -/
def dropReturn (cr : α) : List α → List α
  | [] => []
  | c :: cs => if c = cr then cs else c :: cs

/-- The lines of `text`, where `line` has been read of the first one already and is held last
symbol first. Only a line that a newline ends loses a carriage return. -/
def cutFrom (nl cr : α) (line text : List α) : List (List α) :=
  match text with
  | [] => if line.isEmpty then [] else [line.reverse]
  | c :: cs =>
    if c = nl then (dropReturn cr line).reverse :: cutFrom nl cr [] cs
    else cutFrom nl cr (c :: line) cs

/-- The lines of `text`, for an alphabet with newline `nl` and carriage return `cr`. -/
def cut (nl cr : α) (text : List α) : List (List α) :=
  cutFrom nl cr [] text

@[simp] theorem cut_nil (nl cr : α) : cut nl cr [] = [] := rfl

/-- The lines of a text. -/
def ofString (text : String) : List String :=
  (cut '\n' '\r' text.toList).map String.ofList

/-- The text that a stretch of bytes encodes, if it is valid UTF-8. -/
def decode? (bytes : List UInt8) : Option String :=
  String.fromUTF8? ⟨bytes.toArray⟩

/-- The lines of a file: its bytes are cut first, and each piece is decoded on its own. One piece
that is not valid UTF-8 spoils the whole file. -/
def ofBytes? (bytes : List UInt8) : Option (List String) :=
  (cut 0x0A 0x0D bytes).mapM decode?

end Monkey.Text.Lines
