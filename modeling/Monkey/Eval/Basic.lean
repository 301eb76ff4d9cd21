import Monkey.Sink
import Monkey.Store

/-!
# Evaluations

An evaluation works on a machine: the frames, the output, and a count of the identities that were
given out. It may also come to no end within the number of steps it is allowed, and then it has no
outcome at all. Errors are outcomes like any other; whoever evaluates a part passes its error on.

## Main definitions

* `Machine` — what an evaluation works on.
* `Eval` — evaluations, with `Eval.outOfSteps`.
* `Eval.andThen` — going on with a value, but not with an error.
* `Eval.freshIdentity`, `lookUp`, `assign`, `enter`, `print` — the steps that touch the machine.
* `Eval.withValues`, `withEntries`, `sequence` — lists of expressions, pairs and statements.
-/

namespace Monkey

/-- What an evaluation works on. -/
structure Machine where
  store : Store := {}
  sink : Sink := {}
  /-- How many identities have been given out. -/
  made : Nat := 0

instance : Inhabited Machine := ⟨{}⟩

/-- An evaluation: from a machine to an outcome and a machine, or to nothing if it is cut off. -/
abbrev Eval (α : Type) : Type := StateT Machine Option α

namespace Eval

/-- The evaluation that is cut off. -/
def outOfSteps {α : Type} : Eval α := fun _ => none

/-- Go on with the value of `m`, unless it is an error, which is the outcome then. -/
def andThen (m : Eval Value) (k : Value → Eval Value) : Eval Value := do
  let v ← m
  if v.isError then pure v else k v

/-- An error as the outcome. -/
def fault (f : Fault) : Eval Value := pure (.error f)

/-- An identity that nothing has yet. -/
def freshIdentity : Eval Identity := fun m => some (m.made, { m with made := m.made + 1 })

/-- A new array. -/
def newArray (elements : List Value) : Eval Value := do
  let id ← freshIdentity
  pure (.array id elements)

/-- The value of a name: what a frame or one that encloses it binds to the name, or else the builtin
of that name. -/
def lookUp (frame : FrameId) (name : String) : Eval Value := do
  let m ← get
  match m.store.get? frame name with
  | some v => pure v
  | none =>
    match Builtin.ofName? name with
    | some b => pure (.builtin b)
    | none => fault (.unboundName name)

/-- Bind a name in a frame. -/
def assign (frame : FrameId) (name : String) (v : Value) : Eval Unit :=
  modify fun m => { m with store := m.store.set frame name v }

/-- A new frame that `outer` encloses, with some names bound in it one after the other. -/
def enter (outer : FrameId) (bindings : List (String × Value)) : Eval FrameId :=
  modifyGet fun m =>
    let added := m.store.add (some outer)
    (added.1, { m with store := added.2.setAll added.1 bindings })

/-- Print one line, if the output accepts it. -/
def print (line : String) : Eval Bool :=
  modifyGet fun m =>
    match m.sink.print? line with
    | some sink => (true, { m with sink := sink })
    | none => (false, m)

/-- Evaluate expressions from left to right and go on with their values. The first error is the
outcome. -/
def withValues (run : Expr → Eval Value) : List Expr → (List Value → Eval Value) → Eval Value
  | [], k => k []
  | e :: rest, k => andThen (run e) fun v => withValues run rest fun vs => k (v :: vs)

/-- Evaluate pairs from left to right and go on with the entries that they make, beginning with
`entries`. Of a pair the key comes first, then whether it can be a key, then the value. -/
def withEntries (run : Expr → Eval Value) (entries : Entries Value) :
    List (Expr × Expr) → (Entries Value → Eval Value) → Eval Value
  | [], k => k entries
  | (key, value) :: rest, k =>
    andThen (run key) fun v =>
      match v.key? with
      | none => fault (.notAKey v.kind)
      | some key => andThen (run value) fun w => withEntries run (entries.insert key w) rest k

/-- Run statements one after the other, up to the first whose value stops them. The outcome is the
value of the last one that ran, or `last` if there is none. -/
def sequence (run : Stmt → Eval Value) : Value → List Stmt → Eval Value
  | last, [] => pure last
  | _, s :: rest => do
    let v ← run s
    if v.stops then pure v else sequence run v rest

end Eval

end Monkey
