import Monkey.Syntax
import Monkey.Text.Decimal
import Monkey.Text.Joined

/-!
# Writing programs

The text of a tree. Every operator and every index is put in parentheses, so the text says how the
tree is nested; a string literal is written without its quotes; statements follow each other with
nothing between them.

## Main definitions

* `Expr.render`, `Stmt.render`, `Block.render` — the text of a tree.
-/

namespace Monkey

open Text

mutual

/-- The text of an expression. -/
def Expr.render : Expr → String
  | .name n => n.text
  | .integer v => Decimal.ofInt64 v
  | .string s => s
  | .boolean b => cond b "true" "false"
  | .unary op e => "(" ++ op.symbol.spelling ++ e.render ++ ")"
  | .binary op l r => "(" ++ l.render ++ " " ++ op.symbol.spelling ++ " " ++ r.render ++ ")"
  | .conditional c yes no =>
    "if " ++ c.render ++ " \x7b " ++ renderBlock yes ++ " \x7d" ++ renderAlternative no
  | .function params body =>
    "fn(" ++ commaJoin (params.map (·.text)) ++ ") \x7b " ++ renderBlock body ++ " \x7d"
  | .call f args => f.render ++ "(" ++ commaJoin (renderAll args) ++ ")"
  | .array items => "[" ++ commaJoin (renderAll items) ++ "]"
  | .index l i => "(" ++ l.render ++ "[" ++ i.render ++ "])"
  | .hash pairs => "\x7b" ++ commaJoin (renderPairs pairs) ++ "\x7d"

/-- The text of a statement. -/
def Stmt.render : Stmt → String
  | .binding n e => "let " ++ n.text ++ " = " ++ e.render ++ ";"
  | .ret e => "return " ++ e.render ++ ";"
  | .expression e => e.render
  | .loop c body => "while " ++ c.render ++ " \x7b " ++ renderBlock body ++ " \x7d"

/-- The texts of statements, one after the other. -/
def renderBlock : List Stmt → String
  | [] => ""
  | s :: rest => s.render ++ renderBlock rest

/-- The text of the second branch of a conditional, if it has one. -/
def renderAlternative : Option (List Stmt) → String
  | none => ""
  | some block => " else \x7b " ++ renderBlock block ++ " \x7d"

/-- The text of each expression. -/
def renderAll : List Expr → List String
  | [] => []
  | e :: rest => e.render :: renderAll rest

/-- The text of each pair. -/
def renderPairs : List (Expr × Expr) → List String
  | [] => []
  | (k, v) :: rest => (k.render ++ ":" ++ v.render) :: renderPairs rest

end

/-- The text of a block or a program. -/
def Block.render (block : Block) : String := renderBlock block

theorem renderAll_eq_map (es : List Expr) : renderAll es = es.map Expr.render := by
  induction es with
  | nil => rfl
  | cons e es ih => simp [renderAll, ih]

theorem renderPairs_eq_map (ps : List (Expr × Expr)) :
    renderPairs ps = ps.map fun p => p.1.render ++ ":" ++ p.2.render := by
  induction ps with
  | nil => rfl
  | cons p ps ih => simp [renderPairs, ih]

end Monkey
