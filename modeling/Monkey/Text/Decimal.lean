/-!
# Integers in decimal

The language has signed integers of 64 bits. They are written with a minus sign if need be and
without leading zeros, and read with an optional sign of either kind.

## Main definitions

* `Decimal.ofInt64` — the decimal numeral of an integer.
* `Decimal.toInt64?` — the integer that a numeral denotes, if it fits.
-/

namespace Monkey.Text.Decimal

/-- The decimal numeral of an integer. -/
def ofInt64 (v : Int64) : String := v.toInt.repr

/-- The number that a run of decimal digits denotes. The empty run denotes none. -/
def toNat? (digits : List Char) : Option Nat :=
  if !digits.isEmpty && digits.all Char.isDigit then some (Nat.ofDigitChars 10 digits 0) else none

/-- An integer as a word of 64 bits, if it fits. -/
def inRange? (v : Int) : Option Int64 :=
  if Int64.minValue.toInt ≤ v ∧ v ≤ Int64.maxValue.toInt then some (Int64.ofInt v) else none

/-- The integer that a numeral denotes: an optional sign, then at least one digit, and a value that
fits in 64 bits. -/
def toInt64? (numeral : String) : Option Int64 :=
  match numeral.toList with
  | '-' :: digits => toNat? digits >>= fun n => inRange? (-n)
  | '+' :: digits => toNat? digits >>= fun n => inRange? n
  | digits => toNat? digits >>= fun n => inRange? n

end Monkey.Text.Decimal
