import Monkey.Syntax.Render
import Monkey.Value

/-!
# Writing values

The text of a value, as a program prints it. A string is written without quotes, also inside an
array or a hash; what is being returned is written like the value that is returned.

## Main definitions

* `Key.render`, `Value.render` — the text of a key and of a value.
-/

namespace Monkey

open Text

/-- The text of a key. -/
def Key.render : Key → String
  | .integer v => Decimal.ofInt64 v
  | .boolean b => cond b "true" "false"
  | .string s => s

mutual

/-- The text of a value. -/
def Value.render : Value → String
  | .integer v => Decimal.ofInt64 v
  | .boolean b => cond b "true" "false"
  | .string s => s
  | .null => "null"
  | .returned v => v.render
  | .error f => "ERROR: " ++ f.message
  | .function _ params body _ =>
    "fn(" ++ commaJoin (params.map (·.text)) ++ ") \x7b\n" ++ Block.render body ++ "\n\x7d"
  | .builtin _ => "builtin function"
  | .array _ elements => "[" ++ commaJoin (renderElements elements) ++ "]"
  | .hash _ entries => "\x7b" ++ commaJoin (renderEntries entries) ++ "\x7d"

/-- The text of each element. -/
def renderElements : List Value → List String
  | [] => []
  | v :: rest => v.render :: renderElements rest

/-- The text of each entry. -/
def renderEntries : List (Key × Value) → List String
  | [] => []
  | (k, v) :: rest => (k.render ++ ": " ++ v.render) :: renderEntries rest

end

/-- A key is written like the value that it is. -/
theorem Value.render_ofKey (k : Key) : (Value.ofKey k).render = k.render := by
  cases k <;> rfl

end Monkey
