import Monkey.Syntax.Inspect
import Monkey.Diagnostic
import Monkey.Value

/-!
# Showing the structure of values and diagnostics

Values and diagnostics written out constructor by constructor, in the same four shapes as programs.
Of a function the frame is left out, because a frame may hold the function itself.

## Main definitions

* `Value.inspect` — the structure of a value.
* `Diagnostic.inspect` — the structure of a diagnostic.
-/

namespace Monkey

open Text

/-- A key, as it stands in a structure. -/
def Key.inspect : Key → String
  | .integer v => Inspect.call "Integer" [Decimal.ofInt64 v]
  | .boolean b => Inspect.call "Boolean" [cond b "true" "false"]
  | .string s => Inspect.call "Str" [Quoted.quote s]

/-- The digest of a key, as it stands in a structure. -/
def Key.inspectDigest (k : Key) : String :=
  let kind := match k with
    | .integer _ => "Integer"
    | .boolean _ => "Boolean"
    | .string _ => "Str"
  Inspect.record "HashKey" [("typ", kind), ("value", Nat.repr k.digest.word.toNat)]

mutual

/-- The structure of a value. -/
def Value.inspect : Value → String
  | .integer v => Inspect.call "Integer" [Decimal.ofInt64 v]
  | .boolean b => Inspect.call "Boolean" [cond b "true" "false"]
  | .string s => Inspect.call "Str" [Quoted.quote s]
  | .null => "Null"
  | .returned v => Inspect.call "ReturnValue" [v.inspect]
  | .error f => Inspect.call "Error" [Quoted.quote f.message]
  | .function _ params body _ =>
    Inspect.call "Function"
      [Inspect.record "Function" [("literal", Inspect.functionLiteral params (Block.inspect body))]]
  | .builtin b => Inspect.call "Builtin" [Inspect.record "Builtin" [("name", Quoted.quote b.name)]]
  | .array _ elements => Inspect.call "Array" [Inspect.list (inspectElements elements)]
  | .hash _ entries =>
    Inspect.call "Hash"
      [Inspect.record "Hash"
        [("pairs", "\x7b" ++ commaJoin (inspectEntries entries) ++ "\x7d")]]

/-- The structure of each element. -/
def inspectElements : List Value → List String
  | [] => []
  | v :: rest => v.inspect :: inspectElements rest

/-- The structure of each entry. -/
def inspectEntries : List (Key × Value) → List String
  | [] => []
  | (k, v) :: rest =>
    (k.inspectDigest ++ ": " ++
      Inspect.record "HashPair" [("key", k.inspect), ("value", v.inspect)]) :: inspectEntries rest

end

/-- The structure of a location. -/
def Location.inspect (l : Location) : String :=
  Inspect.record "Location" [("line", Nat.repr l.line), ("column", Nat.repr l.column)]

/-- The structure of a span. -/
def Span.inspect (s : Span) : String :=
  Inspect.record "Span" [("start", s.start.inspect), ("end", s.stop.inspect)]

/-- The structure of a diagnostic. -/
def Diagnostic.inspect (d : Diagnostic) : String :=
  Inspect.call "Error" [d.span.inspect, Quoted.quote d.message]

end Monkey
