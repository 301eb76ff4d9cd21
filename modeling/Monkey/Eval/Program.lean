import Monkey.Eval.Call
import Monkey.Eval.Operator

/-!
# Running programs

The value of every expression, statement, block and program. Parts are evaluated from left to right,
and the first error among them is the value of the whole. A return is a value that ends every block
on its way out, up to the call or the program that it leaves, which takes one layer of it off.

An evaluation is given a number of steps, which bounds how deeply evaluations are nested; each round
of a loop counts as nested in the one before.

## Main definitions

* `evalExpr`, `evalStmt` — the value of an expression and of a statement in a frame.
* `evalBlock`, `evalProgram`, `apply` — the value of a block, of a program and of a call.
-/

namespace Monkey

open Eval

mutual

/-- The value of an expression in a frame. -/
def evalExpr : Nat → FrameId → Expr → Eval Value
  | 0, _, _ => outOfSteps
  | n + 1, frame, e =>
    match e with
    | .name x => lookUp frame x.text
    | .integer v => pure (.integer v)
    | .string s => pure (.string s)
    | .boolean b => pure (.boolean b)
    | .unary op e => andThen (evalExpr n frame e) fun v => pure (op.apply v)
    | .binary op l r =>
      andThen (evalExpr n frame l) fun a =>
        andThen (evalExpr n frame r) fun b => pure (op.apply a b)
    | .conditional c yes no =>
      andThen (evalExpr n frame c) fun test =>
        if test.isTruthy then sequence (evalStmt n frame) .null yes
        else match no with
          | some no => sequence (evalStmt n frame) .null no
          | none => pure .null
    | .function parameters body => do
      let id ← freshIdentity
      pure (.function id parameters body frame)
    | .call f arguments =>
      andThen (evalExpr n frame f) fun f =>
        if f.isCallable then
          withValues (evalExpr n frame) arguments
            (applyWith (fun frame body => sequence (evalStmt n frame) .null body) f)
        else fault (.notCallable f.kind)
    | .array elements => withValues (evalExpr n frame) elements newArray
    | .index l i =>
      andThen (evalExpr n frame l) fun a =>
        andThen (evalExpr n frame i) fun b => pure (a.index b)
    | .hash pairs =>
      withEntries (evalExpr n frame) [] pairs fun entries => do
        let id ← freshIdentity
        pure (.hash id entries)

/-- The value of a statement in a frame. -/
def evalStmt : Nat → FrameId → Stmt → Eval Value
  | 0, _, _ => outOfSteps
  | n + 1, frame, s =>
    match s with
    | .binding x e =>
      andThen (evalExpr n frame e) fun v => do
        assign frame x.text v
        pure .null
    | .ret e => andThen (evalExpr n frame e) fun v => pure (.returned v)
    | .expression e => evalExpr n frame e
    | .loop c body =>
      andThen (evalExpr n frame c) fun test =>
        if test.isTruthy then do
          let v ← sequence (evalStmt n frame) .null body
          if v.stops then pure v else evalStmt n frame (.loop c body)
        else pure .null

end

/-- The value of a block in a frame: that of its last statement, or null if it is empty. -/
def evalBlock (n : Nat) (frame : FrameId) (body : Block) : Eval Value :=
  sequence (evalStmt n frame) .null body

/-- The value of a program in a frame. -/
def evalProgram (n : Nat) (frame : FrameId) (program : Program) : Eval Value := do
  let v ← evalBlock n frame program
  pure v.arrive

/-- The value of a call. -/
def apply (n : Nat) (f : Value) (arguments : List Value) : Eval Value :=
  applyWith (evalBlock n) f arguments

end Monkey
