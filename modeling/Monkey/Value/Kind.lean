/-!
# Kinds of values

Every value has a kind, by which operators choose what to do and messages name what they were given.

## Main definitions

* `Value.Kind` — the kinds, and `Value.Kind.name`, how messages call them.
* `Builtin` — the functions that every program can call by name.
-/

namespace Monkey

/-- What a value is. -/
inductive Value.Kind where
  | integer | boolean | string | null | returned | error | function | builtin | array | hash
deriving DecidableEq, Repr, Inhabited

/-- How messages call a kind of value. -/
def Value.Kind.name : Value.Kind → String
  | integer => "INTEGER"
  | boolean => "BOOLEAN"
  | string => "STRING"
  | null => "NULL"
  | returned => "RETURN_VALUE"
  | error => "ERROR"
  | function => "FUNCTION"
  | builtin => "BUILTIN"
  | array => "ARRAY"
  | hash => "HASH"

/-- The functions that every program can call by name. -/
inductive Builtin where
  | len | first | last | rest | push | puts
deriving DecidableEq, Repr, Inhabited

namespace Builtin

/-- Every builtin. -/
def all : List Builtin := [len, first, last, rest, push, puts]

/-- The name under which a builtin is called. -/
def name : Builtin → String
  | len => "len"
  | first => "first"
  | last => "last"
  | rest => "rest"
  | push => "push"
  | puts => "puts"

/-- The builtin of a name, if there is one. -/
def ofName? (name : String) : Option Builtin := all.find? (·.name = name)

/-- Looking a name up inverts naming. -/
theorem ofName?_eq_some_iff {n : String} {b : Builtin} : ofName? n = some b ↔ b.name = n := by
  constructor
  · intro h
    simpa using List.find?_some h
  · rintro rfl
    cases b <;> decide

end Builtin

end Monkey
