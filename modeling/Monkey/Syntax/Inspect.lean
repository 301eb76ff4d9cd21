import Monkey.Syntax
import Monkey.Text.Decimal
import Monkey.Text.Joined
import Monkey.Text.Quoted

/-!
# Showing the structure of programs

A tree written out constructor by constructor, for those who want to see how a text was understood.
Each part is a constructor with its arguments in parentheses, a record with its fields in braces, or
a list in brackets; texts are quoted.

## Main definitions

* `Inspect.call`, `Inspect.record`, `Inspect.list`, `Inspect.pair` — the four shapes.
* `Expr.inspect`, `Stmt.inspect`, `Block.inspect`, `Program.inspect` — the structure of a tree.
-/

namespace Monkey

open Text

namespace Inspect

/-- A constructor and its arguments. -/
def call (head : String) (parts : List String) : String := head ++ "(" ++ commaJoin parts ++ ")"

/-- A record and its fields. -/
def record (head : String) (fields : List (String × String)) : String :=
  head ++ " \x7b " ++ commaJoin (fields.map fun f => f.1 ++ ": " ++ f.2) ++ " \x7d"

/-- A list. -/
def list (parts : List String) : String := "[" ++ commaJoin parts ++ "]"

/-- A pair. -/
def pair (left right : String) : String := "(" ++ left ++ ", " ++ right ++ ")"

end Inspect

/-- A name, as it stands in a structure. -/
def Name.inspect (n : Name) : String := "Name(\"" ++ n.text ++ "\")"

/-- An operator, as it stands in a structure. -/
def UnaryOp.inspect : UnaryOp → String
  | not => "Bang"
  | negate => "Minus"

/-- An operator, as it stands in a structure. -/
def BinaryOp.inspect : BinaryOp → String
  | add => "Plus"
  | subtract => "Minus"
  | multiply => "Times"
  | divide => "Divide"
  | less => "LessThan"
  | greater => "GreaterThan"
  | equal => "Equal"
  | notEqual => "NotEqual"

/-- A block whose statements are shown as `statements`. -/
def Inspect.block (statements : List String) : String :=
  record "Block" [("statements", list statements)]

/-- A function literal whose body is shown as `body`. -/
def Inspect.functionLiteral (parameters : List Name) (body : String) : String :=
  record "FunctionLiteral" [("parameters", list (parameters.map Name.inspect)), ("body", body)]

mutual

/-- The structure of an expression. -/
def Expr.inspect : Expr → String
  | .name n => Inspect.call "Identifier" [n.inspect]
  | .integer v => Inspect.call "Integer" [Decimal.ofInt64 v]
  | .string s => Inspect.call "Str" [Quoted.quote s]
  | .boolean b => Inspect.call "Boolean" [cond b "true" "false"]
  | .unary op e => Inspect.call "Prefix" [op.inspect, e.inspect]
  | .binary op l r => Inspect.call "Infix" [op.inspect, Inspect.pair l.inspect r.inspect]
  | .conditional c yes no =>
    Inspect.call "If" [c.inspect, Inspect.block (inspectStatements yes), inspectAlternative no]
  | .function params body =>
    Inspect.call "Function"
      [Inspect.functionLiteral params (Inspect.block (inspectStatements body))]
  | .call f args => Inspect.call "Call" [f.inspect, Inspect.list (inspectAll args)]
  | .array items => Inspect.call "Array" [Inspect.list (inspectAll items)]
  | .index l i => Inspect.call "Index" [Inspect.pair l.inspect i.inspect]
  | .hash pairs => Inspect.call "Hash" [Inspect.list (inspectPairs pairs)]

/-- The structure of a statement. -/
def Stmt.inspect : Stmt → String
  | .binding n e => Inspect.call "Let" [n.inspect, e.inspect]
  | .ret e => Inspect.call "Return" [e.inspect]
  | .expression e => Inspect.call "Expression" [e.inspect]
  | .loop c body =>
    Inspect.call "While" [c.inspect, Inspect.block (inspectStatements body)]

/-- The structure of each statement. -/
def inspectStatements : List Stmt → List String
  | [] => []
  | s :: rest => s.inspect :: inspectStatements rest

/-- The structure of the second branch of a conditional. -/
def inspectAlternative : Option (List Stmt) → String
  | none => "None"
  | some block => Inspect.call "Some" [Inspect.block (inspectStatements block)]

/-- The structure of each expression. -/
def inspectAll : List Expr → List String
  | [] => []
  | e :: rest => e.inspect :: inspectAll rest

/-- The structure of each pair. -/
def inspectPairs : List (Expr × Expr) → List String
  | [] => []
  | (k, v) :: rest => Inspect.pair k.inspect v.inspect :: inspectPairs rest

end

/-- The structure of a block. -/
def Block.inspect (block : Block) : String := Inspect.block (inspectStatements block)

/-- The structure of a program. -/
def Program.inspect (program : Program) : String :=
  Inspect.record "Program" [("statements", Inspect.list (inspectStatements program))]

end Monkey
