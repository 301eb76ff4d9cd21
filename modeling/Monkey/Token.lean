import Monkey.Span

/-!
# Tokens

A token is a word of the language together with the place where it stands. Keywords and symbols have
one spelling each; the other kinds are open classes, whose tokens differ in their lexemes.

## Main definitions

* `Keyword`, `Symbol` — the words and signs with a fixed spelling.
* `Token.Kind` — what a token is, and `Token.Kind.name`, how diagnostics call it.
* `Token` — a kind, a lexeme and a span.
-/

namespace Monkey

/-- The reserved words. -/
inductive Keyword where
  | fnWord | letWord | trueWord | falseWord | ifWord | elseWord | returnWord | whileWord
deriving DecidableEq, Repr, Inhabited

namespace Keyword

/-- Every keyword. -/
def all : List Keyword :=
  [fnWord, letWord, trueWord, falseWord, ifWord, elseWord, returnWord, whileWord]

/-- How a keyword is written. -/
def spelling : Keyword → String
  | fnWord => "fn"
  | letWord => "let"
  | trueWord => "true"
  | falseWord => "false"
  | ifWord => "if"
  | elseWord => "else"
  | returnWord => "return"
  | whileWord => "while"

/-- How diagnostics call a keyword. -/
def name : Keyword → String
  | fnWord => "FUNCTION"
  | letWord => "LET"
  | trueWord => "TRUE"
  | falseWord => "FALSE"
  | ifWord => "IF"
  | elseWord => "ELSE"
  | returnWord => "RETURN"
  | whileWord => "WHILE"

/-- The keyword that is written `word`, if there is one. -/
def ofSpelling? (word : String) : Option Keyword := all.find? (·.spelling = word)

theorem mem_all (k : Keyword) : k ∈ all := by cases k <;> decide

/-- No two keywords are spelt alike. -/
theorem spelling_inj {k l : Keyword} (h : k.spelling = l.spelling) : k = l := by
  revert h
  cases k <;> cases l <;> decide

/-- Looking a word up inverts writing it. -/
theorem ofSpelling?_eq_some_iff {word : String} {k : Keyword} :
    ofSpelling? word = some k ↔ k.spelling = word := by
  constructor
  · intro h
    simpa using List.find?_some h
  · rintro rfl
    cases k <;> decide

end Keyword

/-- The signs: operators, separators and brackets. -/
inductive Symbol where
  | assign | plus | minus | bang | asterisk | slash | less | greater | equal | notEqual
  | comma | semicolon | colon
  | leftParen | rightParen | leftBrace | rightBrace | leftBracket | rightBracket
deriving DecidableEq, Repr, Inhabited

namespace Symbol

/-- How a symbol is written. -/
def spelling : Symbol → String
  | assign => "="
  | plus => "+"
  | minus => "-"
  | bang => "!"
  | asterisk => "*"
  | slash => "/"
  | less => "<"
  | greater => ">"
  | equal => "=="
  | notEqual => "!="
  | comma => ","
  | semicolon => ";"
  | colon => ":"
  | leftParen => "("
  | rightParen => ")"
  | leftBrace => "\x7b"
  | rightBrace => "\x7d"
  | leftBracket => "["
  | rightBracket => "]"

/-- How diagnostics call a symbol. -/
def name : Symbol → String
  | assign => "ASSIGN"
  | plus => "PLUS"
  | minus => "MINUS"
  | bang => "BANG"
  | asterisk => "ASTERISK"
  | slash => "SLASH"
  | less => "LT"
  | greater => "GT"
  | equal => "EQ"
  | notEqual => "NOT_EQ"
  | comma => "COMMA"
  | semicolon => "SEMICOLON"
  | colon => "COLON"
  | leftParen => "LPAREN"
  | rightParen => "RPAREN"
  | leftBrace => "LBRACE"
  | rightBrace => "RBRACE"
  | leftBracket => "LBRACKET"
  | rightBracket => "RBRACKET"

/-- The symbol that is written with this one character, if there is one. -/
def ofChar? (c : Char) : Option Symbol :=
  match c with
  | '=' => some assign
  | '+' => some plus
  | '-' => some minus
  | '!' => some bang
  | '*' => some asterisk
  | '/' => some slash
  | '<' => some less
  | '>' => some greater
  | ',' => some comma
  | ';' => some semicolon
  | ':' => some colon
  | '(' => some leftParen
  | ')' => some rightParen
  | '{' => some leftBrace
  | '}' => some rightBrace
  | '[' => some leftBracket
  | ']' => some rightBracket
  | _ => none

/-- Looking a character up inverts writing it. -/
theorem ofChar?_eq_some_iff {c : Char} {s : Symbol} :
    ofChar? c = some s ↔ s.spelling.toList = [c] := by
  constructor
  · intro h
    unfold ofChar? at h
    split at h <;> cases h <;> rfl
  · intro h
    cases s <;> cases h <;> rfl

/-- A character that is no symbol occurs in none. -/
theorem ofChar?_eq_none_iff {c : Char} : ofChar? c = none ↔ ∀ s : Symbol, c ∉ s.spelling.toList := by
  constructor
  · intro h s hmem
    have hall : s.spelling.toList.all (fun d => (ofChar? d).isSome) = true := by
      cases s <;> decide
    have hsome := List.all_eq_true.mp hall c hmem
    rw [h] at hsome
    cases hsome
  · intro h
    rw [Option.eq_none_iff_forall_ne_some]
    intro s hs
    exact h s (by rw [ofChar?_eq_some_iff.mp hs]; exact List.mem_singleton_self c)

end Symbol

/-- What a token is. A token of an open class is told apart from its like by its lexeme. -/
inductive Token.Kind where
  /-- A character, or an unfinished string literal, that is no token of the language. -/
  | illegal
  /-- The mark after the last token of a text. -/
  | endOfInput
  | identifier
  | integer
  | string
  | symbol (s : Symbol)
  | keyword (k : Keyword)
deriving DecidableEq, Repr, Inhabited

/-- How diagnostics call a kind of token. -/
def Token.Kind.name : Token.Kind → String
  | .illegal => "ILLEGAL"
  | .endOfInput => "EOF"
  | .identifier => "IDENT"
  | .integer => "INT"
  | .string => "STRING"
  | .symbol s => s.name
  | .keyword k => k.name

/-- A word of the language and where it stands. The lexeme of a string literal is its text without
the quotes; every other lexeme is what is written. -/
structure Token where
  kind : Token.Kind
  lexeme : String
  span : Span := {}
deriving DecidableEq, Repr, Inhabited

namespace Token

/-- The mark after the last token, at a location. -/
def endAt (l : Location) : Token := ⟨.endOfInput, "", Span.point l⟩

end Token

end Monkey
