import Monkey.Session

/-!
# Running files

Files are run one after the other in one frame, so a later file sees what an earlier one bound. Each
is announced. A file with diagnostics is passed over, a value is told only if it is an error, and a
file that cannot be read ends the run.

## Main definitions

* `Batch.respond` — what comes of one file.
* `Batch.file` — what is printed for one file, and the session after it unless the run ends.
* `Batch.run` — all files.
-/

namespace Monkey.Batch

/-- Run one file within `n` steps; `contents` are its bytes, if they could be read. A file without
contents, or whose contents are not valid UTF-8, has no reply. -/
def respond (n : Nat) (s : Session) (contents : Option (List UInt8)) :
    Option (Option (Reply × Session)) :=
  match contents.bind Token.ofBytes? with
  | none => some none
  | some tokens => some <$> s.run n Session.global tokens none

/-- What is printed before a file is run. -/
def announcement (name : String) : String := "Evaluating file " ++ name

/-- Run one file. The outcome is what is printed, and the session afterwards unless the file could
not be read. -/
def file (n : Nat) (s : Session) (name : String) (contents : Option (List UInt8)) :
    Option (List String × Option Session) := do
  match ← respond n s contents with
  | none => pure ([announcement name], none)
  | some (reply, s) => pure (announcement name :: reply.lines Value.isError, some s)

/-- Run files up to the first that cannot be read. The outcome is what is printed, and whether there
is no such file. -/
def run (n : Nat) (s : Session) :
    List (String × Option (List UInt8)) → Option (List String × Bool)
  | [] => some ([], true)
  | (name, contents) :: rest => do
    match ← file n s name contents with
    | (printed, none) => pure (printed, false)
    | (printed, some s) =>
      let (others, complete) ← run n s rest
      pure (printed ++ others, complete)

end Monkey.Batch
