import Monkey.Eval.Operator

/-!
# Equality of values

The operator `==` compares integers, booleans, null and builtins by what they are, and arrays,
hashes and functions by their identity. Either way a value is compared by a mark that it bears, and
two values are equal if they bear one mark. A value without a mark equals nothing, not even itself.
That makes equality a partial equivalence: it is symmetric and transitive, and holds of a value and
itself just if the value bears a mark.

## Main definitions

* `Value.Mark`, `Value.mark?` — by what a value is compared.
* `Value.Equals` — that `==` says of two values that they are equal.
-/

namespace Monkey

namespace Value

/-- By what a value is compared with others. -/
inductive Mark where
  | integer (v : Int64)
  | boolean (b : Bool)
  | null
  | function (id : Identity)
  | builtin (b : Builtin)
  | array (id : Identity)
  | hash (id : Identity)
deriving DecidableEq, Repr

/-- The kind of the values that bear a mark. -/
def Mark.kind : Mark → Kind
  | integer _ => .integer
  | boolean _ => .boolean
  | null => .null
  | function _ => .function
  | builtin _ => .builtin
  | array _ => .array
  | hash _ => .hash

/-- The mark that a value bears. Strings, returns and errors bear none. -/
def mark? : Value → Option Mark
  | integer v => some (.integer v)
  | boolean b => some (.boolean b)
  | null => some .null
  | function id _ _ _ => some (.function id)
  | builtin b => some (.builtin b)
  | array id _ => some (.array id)
  | hash id _ => some (.hash id)
  | string _ | returned _ | error _ => none

/-- The operator `==` says of the two values that they are equal. -/
def Equals (a b : Value) : Prop := BinaryOp.equal.apply a b = .boolean true

variable {a b : Value} {k : Mark}

theorem kind_eq_of_mark? (h : a.mark? = some k) : a.kind = k.kind := by
  cases a <;> simp only [mark?, Option.some.injEq, reduceCtorEq] at h <;> subst h <;> rfl

theorem isSome_mark? (herror : a.isError = false) (hstring : a.kind ≠ .string)
    (hreturned : a.kind ≠ .returned) : a.mark?.isSome := by
  cases a <;> simp_all [mark?, isError, kind]

/-- Two values are equal if they bear one mark. -/
theorem equals_iff : a.Equals b ↔ ∃ k, a.mark? = some k ∧ b.mark? = some k := by
  unfold Equals
  cases a <;> cases b <;>
    simp [BinaryOp.apply, BinaryOp.onIntegers, BinaryOp.onStrings, BinaryOp.onOthers, identical,
      mark?, eq_comm]

theorem Equals.symm (h : a.Equals b) : b.Equals a := by
  obtain ⟨k, ha, hb⟩ := equals_iff.mp h
  exact equals_iff.mpr ⟨k, hb, ha⟩

theorem Equals.trans {c : Value} (hab : a.Equals b) (hbc : b.Equals c) : a.Equals c := by
  obtain ⟨k, ha, hb⟩ := equals_iff.mp hab
  obtain ⟨l, hb', hc⟩ := equals_iff.mp hbc
  obtain rfl : k = l := Option.some.inj (hb.symm.trans hb')
  exact equals_iff.mpr ⟨k, ha, hc⟩

theorem Equals.kind_eq (h : a.Equals b) : a.kind = b.kind := by
  obtain ⟨k, ha, hb⟩ := equals_iff.mp h
  exact (kind_eq_of_mark? ha).trans (kind_eq_of_mark? hb).symm

/-- Two strings cannot be compared, and they alone cannot. -/
theorem isError_apply_iff {op : BinaryOp} (hop : op = .equal ∨ op = .notEqual) :
    (op.apply a b).isError = true ↔ a.kind = .string ∧ b.kind = .string := by
  rcases hop with rfl | rfl <;> cases a <;> cases b <;>
    simp [BinaryOp.apply, BinaryOp.onIntegers, BinaryOp.onStrings, BinaryOp.onOthers, isError, kind]

/-- Where values can be compared, `==` and `!=` come to booleans, each the negation of the other. -/
theorem exists_boolean_of_not_isError (h : (BinaryOp.equal.apply a b).isError = false) :
    ∃ p : Bool, BinaryOp.equal.apply a b = .boolean p ∧
      BinaryOp.notEqual.apply a b = .boolean !p := by
  unfold BinaryOp.apply at h ⊢
  split at h
  case h_1 i j => exact ⟨decide (i = j), rfl, by simp [BinaryOp.onIntegers]⟩
  case h_2 s t => cases h
  case h_3 => exact ⟨a.identical b, rfl, rfl⟩

theorem equal_apply_comm (a b : Value) : BinaryOp.equal.apply a b = BinaryOp.equal.apply b a := by
  by_cases hstrings : a.kind = .string ∧ b.kind = .string
  · obtain ⟨ha, hb⟩ := hstrings
    cases a <;> cases ha
    cases b <;> cases hb
    rfl
  · have hab := mt (isError_apply_iff (.inl rfl)).mp hstrings
    have hba := mt (isError_apply_iff (.inl rfl)).mp (mt And.symm hstrings)
    obtain ⟨p, hp, -⟩ := exists_boolean_of_not_isError (Bool.eq_false_iff.mpr hab)
    obtain ⟨q, hq, -⟩ := exists_boolean_of_not_isError (Bool.eq_false_iff.mpr hba)
    have hiff : p = true ↔ q = true := by
      simpa [Equals, hp, hq] using (⟨Equals.symm, Equals.symm⟩ : a.Equals b ↔ b.Equals a)
    rw [hp, hq, Bool.eq_iff_iff.mpr hiff]

/-- The operator `==` is an error just between two strings, and so is `!=`, which otherwise is its
negation. Equality is symmetric and transitive, it holds only within a kind, and it holds of every
value and itself but strings, returns and errors. -/
theorem equals_partialEquivalence :
    (∀ a b : Value,
      ((BinaryOp.equal.apply a b).isError = true ↔ a.kind = .string ∧ b.kind = .string) ∧
      ((BinaryOp.notEqual.apply a b).isError = true ↔
        (BinaryOp.equal.apply a b).isError = true) ∧
      ((BinaryOp.equal.apply a b).isError = false → ∃ p : Bool,
        BinaryOp.equal.apply a b = .boolean p ∧ BinaryOp.notEqual.apply a b = .boolean !p)) ∧
    (∀ a b : Value, BinaryOp.equal.apply a b = BinaryOp.equal.apply b a) ∧
    (∀ a b c : Value, a.Equals b → b.Equals c → a.Equals c) ∧
    (∀ a b : Value, a.Equals b → a.kind = b.kind) ∧
    ∀ a : Value, a.isError = false → a.kind ≠ .string → a.kind ≠ .returned → a.Equals a := by
  refine ⟨fun a b => ?_, equal_apply_comm, fun a b c => Equals.trans, fun a b => Equals.kind_eq,
    fun a herror hstring hreturned => ?_⟩
  · have hequal : (BinaryOp.equal.apply a b).isError = true ↔ _ := isError_apply_iff (.inl rfl)
    have hnotEqual : (BinaryOp.notEqual.apply a b).isError = true ↔ _ :=
      isError_apply_iff (.inr rfl)
    exact ⟨hequal, hnotEqual.trans hequal.symm, exists_boolean_of_not_isError⟩
  · obtain ⟨k, hk⟩ := Option.isSome_iff_exists.mp (isSome_mark? herror hstring hreturned)
    exact equals_iff.mpr ⟨k, hk, hk⟩

end Value

end Monkey
