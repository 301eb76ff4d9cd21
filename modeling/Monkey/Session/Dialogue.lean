import Monkey.Session
import Monkey.Text.Backspace
import Monkey.Text.Blank

/-!
# Running lines as they are entered

Each line is a program by itself, and all lines are run in one frame. Backspaces in a line take
effect before anything else. Blank lines are passed over, and every value is told but null. A line
that its backspaces leave without a reading ends the dialogue.

## Main definitions

* `Dialogue.respond` — what comes of one line.
* `Dialogue.line` — what is printed for one line, and the session after it unless the dialogue ends.
* `Dialogue.run` — all lines, and the farewell at their end.
-/

namespace Monkey.Dialogue

/-- Run one line within `n` steps, its backspaces having taken effect. A blank line has no reply. -/
def respond (n : Nat) (s : Session) (text : String) : Option (Option Reply × Session) :=
  if Text.isBlankLine text then some (none, s)
  else do
    let (reply, s) ← s.run n Session.global (Token.ofString text) none
    pure (some reply, s)

/-- Whether a value is told to whoever entered the line. -/
def isTold : Value → Bool
  | .null => false
  | _ => true

/-- Run one line as it was entered. The outcome is what is printed, and the session afterwards unless
the line has no reading. -/
def line (n : Nat) (s : Session) (entered : String) : Option (List String × Option Session) :=
  match Text.Backspace.resolve? entered with
  | none => some ([], none)
  | some text => do
    let (reply, s) ← respond n s text
    pure (reply.elim [] (Reply.lines isTold), some s)

/-- What is printed when there are no more lines. -/
def farewell : String := "CTRL-D"

/-- Run lines to their end, or up to the first that has no reading. The outcome is what is printed,
and whether there is no such line. -/
def run (n : Nat) (s : Session) : List String → Option (List String × Bool)
  | [] => some ([farewell], true)
  | entered :: rest => do
    match ← line n s entered with
    | (printed, none) => pure (printed, false)
    | (printed, some s) =>
      let (others, complete) ← run n s rest
      pure (printed ++ others, complete)

end Monkey.Dialogue
