import Monkey.Token

/-!
# The syntax of programs

A program is a list of statements, and so is a block. Names keep the span of the identifier they
were read from; nothing else in a tree remembers where it stood.

## Main definitions

* `Name` — an identifier in a program.
* `UnaryOp`, `BinaryOp` — the operators, and how they are written.
* `Expr`, `Stmt` — expressions and statements.
* `Block`, `Program` — lists of statements.
-/

namespace Monkey

/-- An identifier and where it stands. -/
structure Name where
  text : String
  span : Span := {}
deriving DecidableEq, Repr, Inhabited

/-- The name that an identifier token stands for. -/
def Name.ofToken (t : Token) : Name := ⟨t.lexeme, t.span⟩

/-- The operators that stand before their operand. -/
inductive UnaryOp where
  | not | negate
deriving DecidableEq, Repr, Inhabited

/-- The operators that stand between their operands. -/
inductive BinaryOp where
  | add | subtract | multiply | divide | less | greater | equal | notEqual
deriving DecidableEq, Repr, Inhabited

/-- The sign of an operator. -/
def UnaryOp.symbol : UnaryOp → Symbol
  | not => .bang
  | negate => .minus

/-- The sign of an operator. -/
def BinaryOp.symbol : BinaryOp → Symbol
  | add => .plus
  | subtract => .minus
  | multiply => .asterisk
  | divide => .slash
  | less => .less
  | greater => .greater
  | equal => .equal
  | notEqual => .notEqual

/-- The operator that a sign stands for between two operands, if any. -/
def BinaryOp.ofSymbol? : Symbol → Option BinaryOp
  | .plus => some add
  | .minus => some subtract
  | .asterisk => some multiply
  | .slash => some divide
  | .less => some less
  | .greater => some greater
  | .equal => some equal
  | .notEqual => some notEqual
  | _ => none

/-- Looking a sign up inverts writing it. -/
theorem BinaryOp.ofSymbol?_eq_some_iff {s : Symbol} {op : BinaryOp} :
    ofSymbol? s = some op ↔ op.symbol = s := by
  cases s <;> cases op <;> decide

mutual

/-- Expressions. -/
inductive Expr where
  | name (n : Name)
  | integer (v : Int64)
  | string (s : String)
  | boolean (b : Bool)
  | unary (op : UnaryOp) (operand : Expr)
  | binary (op : BinaryOp) (left right : Expr)
  | conditional (condition : Expr) (consequence : List Stmt) (alternative : Option (List Stmt))
  | function (parameters : List Name) (body : List Stmt)
  | call (callee : Expr) (arguments : List Expr)
  | array (elements : List Expr)
  | index (collection position : Expr)
  | hash (pairs : List (Expr × Expr))

/-- Statements. -/
inductive Stmt where
  | binding (n : Name) (value : Expr)
  | ret (value : Expr)
  | expression (value : Expr)
  | loop (condition : Expr) (body : List Stmt)

end

instance : Inhabited Expr := ⟨.boolean false⟩
instance : Inhabited Stmt := ⟨.expression default⟩

/-- The statements between two braces. A block opens no scope of its own. -/
abbrev Block := List Stmt

/-- A whole program. -/
abbrev Program := List Stmt

end Monkey
