import Monkey.Reader
import Monkey.Syntax.Precedence
import Monkey.Text.Decimal
import Monkey.Token.Scanner

/-!
# Reading programs

The grammar of the language, one reader for each rule. A rule that mentions expressions or blocks
takes readers for them, so that each rule stands by itself; `expression` and `statement` tie the
knot at the end.

    statement  := 'let' name '=' expression [';'] | 'return' expression [';']
                | 'while' '(' expression ')' block [';'] | expression [';']
    block      := '{' statement* '}'
    operand    := name | integer | string | 'true' | 'false' | '!' tight | '-' tight
                | '(' expression ')' | 'if' '(' expression ')' block ['else' block]
                | 'fn' '(' [name (',' name)*] ')' block
                | '[' [expression (',' expression)*] ']' | '{' [pair (',' pair)* [',']] '}'
    pair       := expression ':' expression
    tight      := operand, then calls and indexes
    expression := operand, then operators, calls and indexes by precedence

A statement that fails is dropped with one diagnostic, and reading goes on after the last token that
it took.

## Main definitions

* `expression`, `statement` — the readers of the two syntactic classes.
* `Program.read` — the program from a cursor to the end of the text, and where that leaves it.
* `Program.ofTokens`, `Program.ofString` — the program of a token stream or a text.
-/

namespace Monkey

open Reader Text

/-! ## Expressions -/

/-- The integer that a token denotes. -/
def integerOf (t : Token) : Reader Expr :=
  match Decimal.toInt64? t.lexeme with
  | some v => pure (.integer v)
  | none => fail (.notAnInteger t.lexeme) t

/-- A condition in parentheses. -/
def condition (expr : Level → Reader Expr) : Reader Expr := do
  let _ ← expect (.symbol .leftParen)
  let test ← expr .lowest
  let _ ← expect (.symbol .rightParen)
  pure test

/-- A block with its braces; `statements` reads up to the closing one. -/
def braced (statements : Reader Block) : Reader Block := do
  let _ ← expect (.symbol .leftBrace)
  statements

/-- The rest of a conditional, after its first word. -/
def conditionalRest (expr : Level → Reader Expr) (statements : Reader Block) : Reader Expr := do
  let test ← condition expr
  let yes ← braced statements
  if (← peek).kind = .keyword .elseWord then
    let _ ← take
    let no ← braced statements
    pure (.conditional test yes (some no))
  else pure (.conditional test yes none)

/-- The rest of a function literal, after its first word. -/
def functionRest (statements : Reader Block) (budget : Nat) : Reader Expr := do
  let _ ← expect (.symbol .leftParen)
  let parameters ← commaList .rightParen (expect .identifier) budget
  let body ← braced statements
  pure (.function (parameters.map Name.ofToken) body)

/-- A key and its value. -/
def keyAndValue (expr : Level → Reader Expr) : Reader (Expr × Expr) := do
  let key ← expr .lowest
  let _ ← expect (.symbol .colon)
  let value ← expr .lowest
  pure (key, value)

/-- An operand: the part of an expression that can stand by itself. Its first token is taken in any
case; if no expression begins with it, it is to blame. -/
def operand (expr : Level → Reader Expr) (statements : Reader Block) (budget : Nat) :
    Reader Expr := do
  let t ← take
  match t.kind with
  | .identifier => pure (.name (Name.ofToken t))
  | .integer => integerOf t
  | .string => pure (.string t.lexeme)
  | .keyword .trueWord => pure (.boolean true)
  | .keyword .falseWord => pure (.boolean false)
  | .symbol .bang => .unary .not <$> expr .unary
  | .symbol .minus => .unary .negate <$> expr .unary
  | .symbol .leftParen =>
    let inner ← expr .lowest
    let _ ← expect (.symbol .rightParen)
    pure inner
  | .keyword .ifWord => conditionalRest expr statements
  | .keyword .fnWord => functionRest statements budget
  | .symbol .leftBracket => .array <$> commaList .rightBracket (expr .lowest) budget
  | .symbol .leftBrace => .hash <$> commaEnded .rightBrace (keyAndValue expr) budget
  | k => fail (.noExpression k) t

/-- The expression that `left` is part of, after the first token of what follows it. The right
operand of an operator is read at the operator's own level, so equal levels group to the left. -/
def extend (expr : Level → Reader Expr) (budget : Nat) (left : Expr) : Suffix → Reader Expr
  | .operator op => .binary op left <$> expr op.level
  | .call => .call left <$> commaList .rightParen (expr .lowest) budget
  | .index => do
    let position ← expr .lowest
    let _ ← expect (.symbol .rightBracket)
    pure (.index left position)

/-- Extend `left` for as long as what follows binds more tightly than `level`. -/
def suffixes (expr : Level → Reader Expr) (budget : Nat) (level : Level) :
    Nat → Expr → Reader Expr
  | 0, _ => outOfBudget
  | n + 1, left => do
    match Suffix.ofKind? (← peek).kind with
    | none => pure left
    | some s =>
      if level < s.level then
        let _ ← take
        let longer ← extend expr budget left s
        suffixes expr budget level n longer
      else pure left

/-! ## Statements -/

/-- The statement at hand, without the semicolon that may follow it. -/
def statementBody (expr : Level → Reader Expr) (statements : Reader Block) : Reader Stmt := do
  match (← peek).kind with
  | .keyword .letWord =>
    let _ ← take
    let name ← expect .identifier
    let _ ← expect (.symbol .assign)
    let value ← expr .lowest
    pure (.binding (Name.ofToken name) value)
  | .keyword .returnWord =>
    let _ ← take
    let value ← expr .lowest
    pure (.ret value)
  | .keyword .whileWord =>
    let _ ← take
    let test ← condition expr
    let body ← braced statements
    pure (.loop test body)
  | _ => .expression <$> expr .lowest

/-! ## The knot -/

mutual

/-- An expression, up to what binds no more tightly than `level`. -/
def expression : Nat → Level → Reader Expr
  | 0, _ => outOfBudget
  | n + 1, level => do
    let left ← operand (expression n) (itemsUntil .rightBrace (recover (statement n)) n) n
    suffixes (expression n) n level n left

/-- A statement with the semicolon that may follow it. -/
def statement : Nat → Reader Stmt
  | 0 => outOfBudget
  | n + 1 => do
    let s ← statementBody (expression n) (itemsUntil .rightBrace (recover (statement n)) n)
    let _ ← skip .semicolon
    pure s

end

namespace Program

/-- A budget that no reading from this cursor can spend: between two nested readers of expressions
or statements at least every other one has taken a token. -/
def budget (c : Cursor) : Nat := 4 * (c.unread.length + 1)

/-- The program from a cursor to the end of the text, where the text ended, and what was dropped. -/
def read (c : Cursor) : Program × Cursor × List Diagnostic :=
  match itemsUntilEnd (recover (statement (budget c))) (budget c) c with
  | .done program rest reports => (program, rest, reports)
  | .failed cause rest reports => ([], rest, reports ++ [cause])
  | .exhausted => ([], c, [])

/-- The program of a token stream, and what was dropped from it. Only a program from which nothing
was dropped is meant to be run. -/
def ofTokens (tokens : List Token) : Program × List Diagnostic :=
  let result := read (Cursor.ofTokens tokens)
  (result.1, result.2.2)

/-- The program of a text, and what was dropped from it. -/
def ofString (text : String) : Program × List Diagnostic := ofTokens (Token.ofString text)

end Program

end Monkey
