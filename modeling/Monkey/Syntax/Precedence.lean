import Monkey.Syntax

/-!
# Precedence

How tightly the parts of an expression hold together. After an operand may come an operator, an
opening parenthesis (a call) or an opening bracket (an index); each has a level, and it is taken up
only by an operand whose surroundings bind less tightly.

## Main definitions

* `Level` — the levels, from loosest to tightest.
* `Suffix` — what may follow an operand, with `Suffix.level`.
-/

namespace Monkey

/-- How tightly something binds. -/
inductive Level where
  | lowest | equality | comparison | sum | product | unary | call | index
deriving DecidableEq, Repr, Inhabited

namespace Level

/-- The levels are numbered from the loosest to the tightest. -/
def rank : Level → Nat
  | lowest => 0
  | equality => 1
  | comparison => 2
  | sum => 3
  | product => 4
  | unary => 5
  | call => 6
  | index => 7

instance : LT Level := ⟨fun a b => a.rank < b.rank⟩

instance : LE Level := ⟨fun a b => a.rank ≤ b.rank⟩

instance (a b : Level) : Decidable (a < b) := inferInstanceAs (Decidable (a.rank < b.rank))

instance (a b : Level) : Decidable (a ≤ b) := inferInstanceAs (Decidable (a.rank ≤ b.rank))

theorem lt_iff {a b : Level} : a < b ↔ a.rank < b.rank := Iff.rfl

theorem le_iff {a b : Level} : a ≤ b ↔ a.rank ≤ b.rank := Iff.rfl

end Level

/-- The level of an operator between two operands. -/
def BinaryOp.level : BinaryOp → Level
  | equal | notEqual => .equality
  | less | greater => .comparison
  | add | subtract => .sum
  | multiply | divide => .product

/-- What may follow an operand. -/
inductive Suffix where
  | operator (op : BinaryOp)
  | call
  | index
deriving DecidableEq, Repr, Inhabited

namespace Suffix

/-- The level of what follows an operand. -/
def level : Suffix → Level
  | operator op => op.level
  | call => .call
  | index => .index

/-- What a token of this kind begins after an operand, if anything. -/
def ofKind? : Token.Kind → Option Suffix
  | .symbol .leftParen => some call
  | .symbol .leftBracket => some index
  | .symbol s => (BinaryOp.ofSymbol? s).map operator
  | _ => none

/-- Everything that may follow an operand binds more tightly than the loosest level. -/
theorem lowest_lt_level (s : Suffix) : Level.lowest < s.level := by
  cases s with
  | operator op => cases op <;> decide
  | call => decide
  | index => decide

end Suffix

end Monkey
