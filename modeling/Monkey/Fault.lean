import Monkey.Syntax
import Monkey.Value.Kind

/-!
# Faults

What can go wrong while a program runs. A fault is the cause; its wording is `Fault.message`.
-/

namespace Monkey

open Value (Kind)

/-- Why an evaluation came to no value. -/
inductive Fault where
  /-- A name that is bound nowhere and is no builtin. -/
  | unboundName (name : String)
  /-- A call of what is no function. -/
  | notCallable (kind : Kind)
  /-- A call of a function with too few or too many arguments. -/
  | wrongArity (want got : Nat)
  /-- A minus sign before what is no integer. -/
  | notNegatable (kind : Kind)
  /-- An operator between operands of different kinds. -/
  | mismatch (left : Kind) (op : BinaryOp) (right : Kind)
  /-- An operator that is not defined for the kind of both its operands. -/
  | undefinedOperator (kind : Kind) (op : BinaryOp)
  | divisionByZero
  /-- A key that no hash can have. -/
  | notAKey (kind : Kind)
  /-- An index into what has no elements, or not by such an index. -/
  | notIndexable (kind : Kind)
  /-- A call of a builtin with too few or too many arguments. -/
  | builtinArity (builtin : Builtin) (want got : Nat)
  /-- The length of what has none. -/
  | noLength (kind : Kind)
  /-- A builtin on arrays whose argument is none. -/
  | notAnArray (builtin : Builtin)
  /-- A line that the output did not accept. -/
  | outputFull
  /-- A fault that was handed in from outside, in its own words. -/
  | told (message : String)
deriving DecidableEq, Repr, Inhabited

namespace Fault

/-- The wording of a fault. -/
def message : Fault → String
  | unboundName name => "identifier not found: " ++ name
  | notCallable kind => "not a function: " ++ kind.name
  | wrongArity want got =>
    "wrong number of arguments: want=" ++ Nat.repr want ++ ", got=" ++ Nat.repr got
  | notNegatable kind => "unknown operator: -" ++ kind.name
  | mismatch left op right =>
    "type mismatch: " ++ left.name ++ " " ++ op.symbol.spelling ++ " " ++ right.name
  | undefinedOperator kind op =>
    "unknown operator: " ++ kind.name ++ " " ++ op.symbol.spelling ++ " " ++ kind.name
  | divisionByZero => "division by zero"
  | notAKey kind => "unusable as hash key: " ++ kind.name
  | notIndexable kind => "index operator not supported: " ++ kind.name
  | builtinArity .len want got =>
    "wrong number of arguments. got=" ++ Nat.repr got ++ ", want=" ++ Nat.repr want
  | builtinArity _ want got =>
    "wrong number of arguments. wanted " ++ Nat.repr want ++ " got " ++ Nat.repr got
  | noLength kind => "argument to `len` not supported, got " ++ kind.name
  | notAnArray .push => "first argument to `push` must be ARRAY"
  | notAnArray builtin => "arguments to `" ++ builtin.name ++ "` must be ARRAY"
  | outputFull => "could not write output: sink is full"
  | told message => message

end Fault

end Monkey
