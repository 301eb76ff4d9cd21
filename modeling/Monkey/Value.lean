import Monkey.Fault
import Monkey.Value.Key

/-!
# Values

What expressions evaluate to. Arrays, hashes and functions have an identity, which they are given
when they are made and which tells them apart from every other one with the same contents. Errors
and returns are values as well, so that whoever evaluates a part can pass them on.

## Main definitions

* `Value` — the values.
* `Value.kind`, `Value.isTruthy`, `Value.isError`, `Value.stops` — what a value is good for.
* `Value.key?`, `Value.ofKey` — values and keys of hashes.
* `Value.identical` — whether two values are one.
-/

namespace Monkey

/-- Where a frame of bindings is kept. -/
abbrev FrameId := Nat

/-- What tells an array, hash or function apart from all others. -/
abbrev Identity := Nat

/-- The values of the language. -/
inductive Value where
  | integer (v : Int64)
  | boolean (b : Bool)
  | string (s : String)
  | null
  /-- A value on its way out of the function that returns it. -/
  | returned (v : Value)
  | error (f : Fault)
  /-- A function and the frame in which its body looks up what it does not bind itself. -/
  | function (id : Identity) (parameters : List Name) (body : Block) (frame : FrameId)
  | builtin (b : Builtin)
  | array (id : Identity) (elements : List Value)
  | hash (id : Identity) (entries : List (Key × Value))

namespace Value

instance : Inhabited Value := ⟨null⟩

/-- The kind of a value. -/
def kind : Value → Kind
  | integer _ => .integer
  | boolean _ => .boolean
  | string _ => .string
  | null => .null
  | returned _ => .returned
  | error _ => .error
  | function .. => .function
  | builtin _ => .builtin
  | array .. => .array
  | hash .. => .hash

/-- Whether a value is an error. -/
def isError : Value → Bool
  | error _ => true
  | _ => false

/-- Whether no further statement of a block is run after one with this value. -/
def stops : Value → Bool
  | returned _ | error _ => true
  | _ => false

/-- Whether a condition with this value holds: all do but null and false. -/
def isTruthy : Value → Bool
  | null | boolean false => false
  | _ => true

/-- Whether a value can be called. -/
def isCallable : Value → Bool
  | function .. | builtin _ => true
  | _ => false

/-- The value without one layer of returning. -/
def arrive : Value → Value
  | returned v => v
  | v => v

/-- The key that a value is, if it can be one. -/
def key? : Value → Option Key
  | integer v => some (.integer v)
  | boolean b => some (.boolean b)
  | string s => some (.string s)
  | _ => none

/-- The value that a key is. -/
def ofKey : Key → Value
  | .integer v => integer v
  | .boolean b => boolean b
  | .string s => string s

@[simp] theorem key?_ofKey (k : Key) : (ofKey k).key? = some k := by cases k <;> rfl

theorem key?_eq_some_iff {v : Value} {k : Key} : v.key? = some k ↔ v = ofKey k := by
  constructor
  · intro h
    cases v <;> simp only [key?, Option.some.injEq, reduceCtorEq] at h <;> subst h <;> rfl
  · rintro rfl
    simp

/-- Whether two values are one. Booleans and null are one when they are alike; functions, arrays and
hashes have to have been made together; integers, strings, returns and errors are never one. -/
def identical : Value → Value → Bool
  | boolean a, boolean b => a = b
  | null, null => true
  | function i .., function j .. => i = j
  | builtin a, builtin b => a = b
  | array i _, array j _ => i = j
  | hash i _, hash j _ => i = j
  | _, _ => false

end Value

end Monkey
