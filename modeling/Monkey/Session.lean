import Monkey.Eval.Program
import Monkey.Syntax.OfTokens

/-!
# Sessions

A session keeps the frames between one source text and the next. A text is first read as a whole;
only if nothing of it was dropped is it run, with an output of its own.

## Main definitions

* `Session` — what is kept, with `Session.start` and its frame `Session.global`.
* `Session.perform` — an evaluation with an output of its own.
* `Reply`, `Session.run` — what comes of a source text.
-/

namespace Monkey

/-- What is kept between one source text and the next. -/
structure Session where
  store : Store := {}
  /-- How many identities have been given out. -/
  made : Nat := 0

instance : Inhabited Session := ⟨{}⟩

/-- What comes of a source text. -/
inductive Reply where
  /-- The text does not follow the grammar, and nothing was run. -/
  | rejected (diagnostics : List Diagnostic)
  /-- The program was run: its value, and the lines it printed. -/
  | answered (value : Value) (output : List String)

namespace Session

/-- A session with one frame, which nothing encloses. -/
def start : Session := { store := (({} : Store).add none).2 }

/-- The frame with which a session starts. -/
def global : FrameId := 0

/-- Evaluate with an output of its own. The outcome comes with the lines that were printed. -/
def perform {α : Type} (s : Session) (limit : Option Nat) (e : Eval α) :
    Option (α × List String × Session) := do
  let (a, m) ← e.run { store := s.store, sink := { limit := limit }, made := s.made }
  pure (a, m.sink.lines.toList, { store := m.store, made := m.made })

/-- The machine on which an evaluation begins in a session. -/
def machine (s : Session) (limit : Option Nat) : Machine :=
  { store := s.store, sink := { limit := limit }, made := s.made }

/-- What is kept of a machine. -/
def ofMachine (m : Machine) : Session := { store := m.store, made := m.made }

theorem perform_eq_map {α : Type} (s : Session) (limit : Option Nat) (e : Eval α) :
    s.perform limit e =
      (e (s.machine limit)).map fun p => (p.1, p.2.sink.lines.toList, ofMachine p.2) := by
  change (e (s.machine limit)).bind _ = _
  cases e (s.machine limit) <;> rfl

/-- Read the tokens of a source text as a program and run it in a frame, within `n` steps. -/
def run (n : Nat) (s : Session) (frame : FrameId) (tokens : List Token) (limit : Option Nat) :
    Option (Reply × Session) :=
  let (program, diagnostics) := Program.ofTokens tokens
  if diagnostics.isEmpty then do
    let (v, output, s) ← s.perform limit (evalProgram n frame program)
    pure (.answered v output, s)
  else some (.rejected diagnostics, s)

end Session

namespace Reply

/-- The lines that tell of diagnostics: a heading, and then each with a tab before it. -/
def complaint (diagnostics : List Diagnostic) : List String :=
  "parser errors:" :: diagnostics.map ("\t" ++ ·.describe)

/-- The lines that a reply amounts to, where `shown` says which values are told. -/
def lines (shown : Value → Bool) : Reply → List String
  | rejected diagnostics => complaint diagnostics
  | answered v output => output ++ if shown v then [v.render] else []

end Reply

end Monkey
