/-!
# Output

What a run prints, line by line. An output may be limited, and then it refuses every line after the
last one that fits.

## Main definitions

* `Sink` — the lines that were accepted, and the limit.
* `Sink.print?` — one more line, unless there is no room.
* `Sink.text` — the output as one text.
-/

namespace Monkey

/-- An output. Without a limit it accepts every line. -/
structure Sink where
  limit : Option Nat := none
  lines : Array String := #[]
deriving Repr, Inhabited

namespace Sink

/-- Whether there is no room for a further line. -/
def isFull (s : Sink) : Bool :=
  match s.limit with
  | none => false
  | some n => n ≤ s.lines.size

/-- The output with one more line, unless it is full. -/
def print? (s : Sink) (line : String) : Option Sink :=
  if s.isFull then none else some { s with lines := s.lines.push line }

/-- The output as one text, with a newline after each line. -/
def text (s : Sink) : String := String.join (s.lines.toList.map (· ++ "\n"))

@[simp] theorem isFull_unlimited (lines : Array String) :
    ({ limit := none, lines } : Sink).isFull = false := rfl

end Sink

end Monkey
