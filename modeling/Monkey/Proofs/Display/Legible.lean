import Monkey.Proofs.Display.Pieces
import Monkey.Syntax

/-!
# Trees whose text can be read back

The text of a tree leaves some things out: a string is written without quotes, a condition without
the parentheses that the grammar asks for, and an expression that is a statement without a semicolon
after it. A tree is legible if it has none of these, and no name that is no name and no integer that
is written with a minus sign. Where the names of a tree stood is not written either.

## Main definitions

* `Expr.isLegible`, `Stmt.isLegible`, `Block.isLegible` — trees whose text says all there is to say.
* `Expr.unplaced`, `Stmt.unplaced`, `Block.unplaced` — trees without the places of their names.
-/

namespace Monkey

/-! ## Legible trees -/

/-- Whether a name is one in ASCII and no keyword. -/
def Name.isLegible (n : Name) : Bool :=
  Scanner.isWord n.text.toList && (Keyword.ofSpelling? n.text).isNone

/-- Whether an expression is written in parentheses of its own. -/
def Expr.hasParens : Expr → Bool
  | .unary .. | .binary .. | .index .. => true
  | _ => false

/-- Whether a statement is an expression. -/
def Stmt.isExpression : Stmt → Bool
  | .expression _ => true
  | _ => false

mutual

/-- Whether the text of the expression can be read back. -/
@[simp] def Expr.isLegible : Expr → Bool
  | .name n => n.isLegible
  | .integer v => 0 ≤ v
  | .string _ => false
  | .boolean _ => true
  | .unary _ e => e.isLegible
  | .binary _ l r => l.isLegible && r.isLegible
  | .conditional c yes no =>
    c.hasParens && c.isLegible && statementsAreLegible yes && alternativeIsLegible no
  | .function parameters body => parameters.all Name.isLegible && statementsAreLegible body
  | .call f arguments => f.isLegible && expressionsAreLegible arguments
  | .array elements => expressionsAreLegible elements
  | .index l i => l.isLegible && i.isLegible
  | .hash pairs => pairsAreLegible pairs

/-- Whether the text of the statement can be read back. -/
@[simp] def Stmt.isLegible : Stmt → Bool
  | .binding n e => n.isLegible && e.isLegible
  | .ret e => e.isLegible
  | .expression e => e.isLegible
  | .loop c body => c.hasParens && c.isLegible && statementsAreLegible body

/-- Whether the text of the statements can be read back. Only the last may be an expression. -/
@[simp] def statementsAreLegible : List Stmt → Bool
  | [] => true
  | s :: rest => s.isLegible && (rest.isEmpty || !s.isExpression) && statementsAreLegible rest

/-- Whether the text of the second branch can be read back, if there is one. -/
@[simp] def alternativeIsLegible : Option (List Stmt) → Bool
  | none => true
  | some body => statementsAreLegible body

/-- Whether the text of each expression can be read back. -/
@[simp] def expressionsAreLegible : List Expr → Bool
  | [] => true
  | e :: rest => e.isLegible && expressionsAreLegible rest

/-- Whether the text of each key and of each value can be read back. -/
@[simp] def pairsAreLegible : List (Expr × Expr) → Bool
  | [] => true
  | (k, v) :: rest => k.isLegible && v.isLegible && pairsAreLegible rest

end

/-- Whether the text of a block or a program can be read back. -/
def Block.isLegible (body : Block) : Bool := statementsAreLegible body

/-! ## Trees without places -/

/-- The name without its place. -/
def Name.unplaced (n : Name) : Name := ⟨n.text, {}⟩

mutual

/-- The expression without the places of its names. -/
@[simp] def Expr.unplaced : Expr → Expr
  | .name n => .name n.unplaced
  | .integer v => .integer v
  | .string s => .string s
  | .boolean b => .boolean b
  | .unary op e => .unary op e.unplaced
  | .binary op l r => .binary op l.unplaced r.unplaced
  | .conditional c yes no =>
    .conditional c.unplaced (unplacedStatements yes) (unplacedAlternative no)
  | .function parameters body => .function (parameters.map Name.unplaced) (unplacedStatements body)
  | .call f arguments => .call f.unplaced (unplacedExpressions arguments)
  | .array elements => .array (unplacedExpressions elements)
  | .index l i => .index l.unplaced i.unplaced
  | .hash pairs => .hash (unplacedPairs pairs)

/-- The statement without the places of its names. -/
@[simp] def Stmt.unplaced : Stmt → Stmt
  | .binding n e => .binding n.unplaced e.unplaced
  | .ret e => .ret e.unplaced
  | .expression e => .expression e.unplaced
  | .loop c body => .loop c.unplaced (unplacedStatements body)

/-- Each statement without the places of its names. -/
@[simp] def unplacedStatements : List Stmt → List Stmt
  | [] => []
  | s :: rest => s.unplaced :: unplacedStatements rest

/-- The second branch without the places of its names, if there is one. -/
@[simp] def unplacedAlternative : Option (List Stmt) → Option (List Stmt)
  | none => none
  | some body => some (unplacedStatements body)

/-- Each expression without the places of its names. -/
@[simp] def unplacedExpressions : List Expr → List Expr
  | [] => []
  | e :: rest => e.unplaced :: unplacedExpressions rest

/-- Each pair without the places of its names. -/
@[simp] def unplacedPairs : List (Expr × Expr) → List (Expr × Expr)
  | [] => []
  | (k, v) :: rest => (k.unplaced, v.unplaced) :: unplacedPairs rest

end

/-- A block or a program without the places of its names. -/
def Block.unplaced (body : Block) : Block := unplacedStatements body

theorem unplacedExpressions_eq_map (es : List Expr) :
    unplacedExpressions es = es.map Expr.unplaced := by
  induction es with
  | nil => rfl
  | cons e es ih => simp [unplacedExpressions, ih]

theorem unplacedPairs_eq_map (pairs : List (Expr × Expr)) :
    unplacedPairs pairs = pairs.map fun p => (p.1.unplaced, p.2.unplaced) := by
  induction pairs with
  | nil => rfl
  | cons p pairs ih => simp [unplacedPairs, ih]

end Monkey
