import Monkey.Token

/-!
# Diagnostics

What is reported of a text that does not follow the grammar: the cause, and the token to blame.

## Main definitions

* `Diagnostic.Cause` — the three ways in which a token can be wrong.
* `Diagnostic` — a cause and the span of the token.
* `Diagnostic.message`, `Diagnostic.describe` — the wording, without and with the place.
-/

namespace Monkey

/-- Why a token is wrong where it stands. -/
inductive Diagnostic.Cause where
  /-- The grammar leaves one kind of token here, and this is another. -/
  | expected (want got : Token.Kind)
  /-- No expression begins with such a token. -/
  | noExpression (got : Token.Kind)
  /-- An integer that is no numeral of 64 bits. -/
  | notAnInteger (lexeme : String)
deriving DecidableEq, Repr, Inhabited

/-- A wrong token. -/
structure Diagnostic where
  cause : Diagnostic.Cause
  span : Span
deriving DecidableEq, Repr, Inhabited

namespace Diagnostic

/-- The wording of a cause. -/
def Cause.message : Cause → String
  | .expected want got =>
    "expected next token to be " ++ want.name ++ ", got " ++ got.name ++ " instead"
  | .noExpression got => "no prefix parse function for " ++ got.name ++ " found"
  | .notAnInteger lexeme => "could not parse " ++ lexeme ++ " as integer"

/-- What is wrong. -/
def message (d : Diagnostic) : String := d.cause.message

/-- What is wrong and where. -/
def describe (d : Diagnostic) : String :=
  d.message ++ " (" ++ d.span.start.describe ++ ")"

/-- The complaint that a token stands where another kind is due. -/
def unexpected (want : Token.Kind) (t : Token) : Diagnostic := ⟨.expected want t.kind, t.span⟩

end Diagnostic

end Monkey
