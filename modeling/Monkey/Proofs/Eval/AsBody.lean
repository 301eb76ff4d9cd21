import Monkey.Proofs.Eval.Parallel
import Monkey.Proofs.Eval.Steps

/-!
# Programs as bodies

A program that is run in a fresh frame goes the same way as a call of a function without parameters
that has the program as its body and was made in a fresh frame. In the call the names are bound one
frame further in, and the frame around that is never seen.

## Main definitions

* `Machine.EndsAlike` — that a program and a call of it have ended alike.
-/

namespace Monkey

open Eval

section Runs

variable {n : Nat} {here : FrameId} {p : Program} {m : Machine}

end Runs

namespace Machine

variable {m : Machine}

/-- The machine in which the function is called, after `k` further identities were given out. -/
def entered (m : Machine) (k : Nat) : Machine :=
  { m.withRoot with
    store := (m.withRoot.store.add (some m.store.frames.size)).2
    made := m.made + k }

/-- The program `let x = 5; return fn() { x }`. -/
def closing : Program :=
  [.binding ⟨"x", {}⟩ (.integer 5), .ret (.function [] [.expression (.name ⟨"x", {}⟩)])]

end Machine

end Monkey
