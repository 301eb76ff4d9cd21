/-!
# Places in a source text

Lines and columns are counted from zero, and a column counts characters, so a place does not depend
on how the text is encoded.

## Main definitions

* `Location` — a line and a column.
* `Span` — the stretch from one location up to, but not including, another.
-/

namespace Monkey

/-- A line and a column, both counted from zero. -/
structure Location where
  line : Nat := 0
  column : Nat := 0
deriving DecidableEq, Repr, Inhabited

/-- A stretch of text: the location of its first character, and the location just after its last. -/
structure Span where
  start : Location := {}
  stop : Location := {}
deriving DecidableEq, Repr, Inhabited

namespace Location

/-- How a reader is told of a location: lines and columns counted from one. -/
def describe (l : Location) : String :=
  "line " ++ Nat.repr (l.line + 1) ++ ", column " ++ Nat.repr (l.column + 1)

end Location

namespace Span

/-- The stretch of `width` characters that begins at `start` and stays on its line. -/
def ofWidth (start : Location) (width : Nat) : Span :=
  ⟨start, { start with column := start.column + width }⟩

/-- The empty stretch at a location. -/
def point (l : Location) : Span := ⟨l, l⟩

@[simp] theorem start_ofWidth (l : Location) (n : Nat) : (ofWidth l n).start = l := rfl
@[simp] theorem line_stop_ofWidth (l : Location) (n : Nat) : (ofWidth l n).stop.line = l.line := rfl
@[simp] theorem column_stop_ofWidth (l : Location) (n : Nat) :
    (ofWidth l n).stop.column = l.column + n := rfl

end Span

end Monkey
