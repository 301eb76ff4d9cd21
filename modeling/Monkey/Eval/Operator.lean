import Monkey.Value

/-!
# Operators on values

Arithmetic is on words of 64 bits and wraps around; division truncates toward zero. Two strings can
only be joined. Between all other operands `==` and `!=` ask whether they are one value, and the
remaining operators are errors.

## Main definitions

* `UnaryOp.apply`, `BinaryOp.apply` — the value of an operator.
* `Value.index` — what an array or a hash holds at an index.
-/

namespace Monkey

/-- The value of an operator before its operand. -/
def UnaryOp.apply : UnaryOp → Value → Value
  | .not, v => .boolean (!v.isTruthy)
  | .negate, .integer a => .integer (-a)
  | .negate, v => .error (.notNegatable v.kind)

/-- The value of an operator between integers. -/
def BinaryOp.onIntegers (op : BinaryOp) (a b : Int64) : Value :=
  match op with
  | .add => .integer (a + b)
  | .subtract => .integer (a - b)
  | .multiply => .integer (a * b)
  | .divide => if b = 0 then .error .divisionByZero else .integer (a / b)
  | .less => .boolean (a < b)
  | .greater => .boolean (b < a)
  | .equal => .boolean (a = b)
  | .notEqual => .boolean (a ≠ b)

/-- The value of an operator between strings. -/
def BinaryOp.onStrings (op : BinaryOp) (a b : String) : Value :=
  match op with
  | .add => .string (a ++ b)
  | op => .error (.undefinedOperator .string op)

/-- The value of an operator between operands that are neither two integers nor two strings. -/
def BinaryOp.onOthers (op : BinaryOp) (a b : Value) : Value :=
  match op with
  | .equal => .boolean (a.identical b)
  | .notEqual => .boolean (!a.identical b)
  | op =>
    if a.kind = b.kind then .error (.undefinedOperator a.kind op)
    else .error (.mismatch a.kind op b.kind)

/-- The value of an operator between its operands. -/
def BinaryOp.apply (op : BinaryOp) : Value → Value → Value
  | .integer a, .integer b => op.onIntegers a b
  | .string a, .string b => op.onStrings a b
  | a, b => op.onOthers a b

/-- The element of an array at a position, or null outside it. -/
def Value.elementAt (elements : List Value) (position : Int64) : Value :=
  if position < 0 then .null else (elements[position.toInt.toNat]?).getD .null

/-- What an array or a hash holds at an index. -/
def Value.index : Value → Value → Value
  | .array _ elements, .integer i => elementAt elements i
  | .hash _ entries, v =>
    match v.key? with
    | some k => (Entries.find? entries k.digest).getD .null
    | none => .error (.notAKey v.kind)
  | v, _ => .error (.notIndexable v.kind)

end Monkey
