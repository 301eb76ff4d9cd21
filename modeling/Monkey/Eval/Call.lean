import Monkey.Eval.Basic
import Monkey.Value.Render

/-!
# Calls

A function runs its body in a new frame, enclosed by the one in which it was made, with its
parameters bound to the arguments. Builtins check how many arguments they are given before they look
at them, and none of them changes an argument: `rest` and `push` make new arrays.

## Main definitions

* `Builtin.call` — a call of a builtin.
* `applyWith` — a call of any value, given how blocks are run.
-/

namespace Monkey

open Eval

/-- The length of a string in bytes of UTF-8, and of an array in elements. -/
def Value.length : Value → Value
  | .string s => .integer (Int64.ofNat s.utf8ByteSize)
  | .array _ elements => .integer (Int64.ofNat elements.length)
  | v => .error (.noLength v.kind)

/-- Print each value on a line of its own, until one is not accepted. -/
def Eval.printAll : List Value → Eval Value
  | [] => pure .null
  | v :: rest => do
    if ← print v.render then printAll rest else fault .outputFull

/-- Go on with the elements of an array, which a builtin wants as its first argument. -/
def Builtin.onArray (b : Builtin) (v : Value) (k : List Value → Eval Value) : Eval Value :=
  match v with
  | .array _ elements => k elements
  | _ => fault (.notAnArray b)

/-- All elements but the first as a new array, or null if there is none. -/
def Eval.tail : List Value → Eval Value
  | [] => pure .null
  | _ :: others => newArray others

/-- Call a builtin. A wrong number of arguments is found before a wrong kind of argument. -/
def Builtin.call (b : Builtin) (arguments : List Value) : Eval Value :=
  match b, arguments with
  | .len, [v] => pure v.length
  | .first, [v] => b.onArray v fun elements => pure (elements.head?.getD .null)
  | .last, [v] => b.onArray v fun elements => pure (elements.getLast?.getD .null)
  | .rest, [v] => b.onArray v tail
  | .push, [v, w] => b.onArray v fun elements => newArray (elements ++ [w])
  | .puts, values => printAll values
  | .push, values => fault (.builtinArity .push 2 values.length)
  | b, values => fault (.builtinArity b 1 values.length)

/-- Call `f`. The body of a function is run in a new frame with the parameters bound in it, and
`run` runs blocks. -/
def applyWith (run : FrameId → Block → Eval Value) (f : Value) (arguments : List Value) :
    Eval Value :=
  match f with
  | .function _ parameters body frame =>
    if parameters.length = arguments.length then do
      let inner ← enter frame ((parameters.map (·.text)).zip arguments)
      let v ← run inner body
      pure v.arrive
    else fault (.wrongArity parameters.length arguments.length)
  | .builtin b => b.call arguments
  | f => fault (.notCallable f.kind)

end Monkey
