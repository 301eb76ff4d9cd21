import Monkey.Session.Batch
import Monkey.Session.Dialogue

/-!
# The command line

With arguments the program runs the files that they name; without, it runs the lines of the standard
input as they come.
-/

namespace Monkey

/-- More steps than any run can take. -/
def ampleSteps : Nat := 1 <<< 62

/-- The bytes of a file, unless it cannot be read. -/
def readFile? (name : String) : IO (Option (List UInt8)) := do
  try
    let bytes ← IO.FS.readBinFile name
    pure (some bytes.toList)
  catch _ => pure none

/-- Run the files that are named, and print what each amounts to as soon as it is done. -/
def runFiles : Session → List String → IO UInt32
  | _, [] => pure 0
  | s, name :: rest => do
    match Batch.file ampleSteps s name (← readFile? name) with
    | none => pure 1
    | some (printed, next) =>
      printed.forM IO.println
      match next with
      | none =>
        IO.eprintln ("could not read " ++ name)
        pure 1
      | some s => runFiles s rest

/-- Run the lines of a stream, and print what each amounts to as soon as it is done. -/
partial def runLines (input : IO.FS.Stream) (s : Session) : IO UInt32 := do
  let text ← input.getLine
  match Text.Lines.ofString text with
  | [] =>
    IO.println Dialogue.farewell
    pure 0
  | line :: _ =>
    match Dialogue.line ampleSteps s line with
    | none => pure 1
    | some (printed, next) =>
      printed.forM IO.println
      match next with
      | none =>
        IO.eprintln "could not read the line"
        pure 101
      | some s => runLines input s

end Monkey

/-- The entry point. -/
def main (arguments : List String) : IO UInt32 := do
  if arguments.isEmpty then Monkey.runLines (← IO.getStdin) Monkey.Session.start
  else Monkey.runFiles Monkey.Session.start arguments
