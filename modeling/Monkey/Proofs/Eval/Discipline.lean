import Monkey.Proofs.Eval.Holds

/-!
# Disciplined returns

A return that stands in a conditional leaves the whole call only if the conditional is a statement;
where the conditional is an operand, the value that is being returned becomes an operand. A program
is disciplined if it has no return of the second sort. This is a property of the text: every
conditional with a return in its blocks, at whatever depth of conditionals and loops but outside
function literals, is the whole of an expression statement.

Values are settled if there is nothing undisciplined about them: they are neither being returned nor
errors, and the bodies of functions are disciplined.

## Main definitions

* `Expr.isDisciplined`, `Stmt.isDisciplined`, `Block.isDisciplined` — discipline of a text.
* `Value.Settled` — discipline of a value.
-/

namespace Monkey

/-! ## Texts -/

mutual

/-- Whether the returns in the expression are disciplined. `may` says whether a return may leave it,
which is so of an expression that is a whole statement. -/
def Expr.isDisciplined : Bool → Expr → Bool
  | _, .name _ | _, .integer _ | _, .string _ | _, .boolean _ => true
  | _, .unary _ e => e.isDisciplined false
  | _, .binary _ l r => l.isDisciplined false && r.isDisciplined false
  | may, .conditional c yes no =>
    c.isDisciplined false && statementsAreDisciplined may yes && alternativeIsDisciplined may no
  | _, .function _ body => statementsAreDisciplined true body
  | _, .call f arguments => f.isDisciplined false && operandsAreDisciplined arguments
  | _, .array elements => operandsAreDisciplined elements
  | _, .index l i => l.isDisciplined false && i.isDisciplined false
  | _, .hash pairs => pairsAreDisciplined pairs

/-- Whether the returns in the statement are disciplined, where `may` says whether a return may
leave it. -/
def Stmt.isDisciplined : Bool → Stmt → Bool
  | _, .binding _ e => e.isDisciplined false
  | may, .ret e => may && e.isDisciplined false
  | may, .expression e => e.isDisciplined may
  | may, .loop c body => c.isDisciplined false && statementsAreDisciplined may body

/-- Whether each statement is disciplined. -/
def statementsAreDisciplined : Bool → List Stmt → Bool
  | _, [] => true
  | may, s :: rest => s.isDisciplined may && statementsAreDisciplined may rest

/-- Whether the second branch of a conditional is disciplined, if there is one. -/
def alternativeIsDisciplined : Bool → Option (List Stmt) → Bool
  | _, none => true
  | may, some body => statementsAreDisciplined may body

/-- Whether each operand is disciplined. -/
def operandsAreDisciplined : List Expr → Bool
  | [] => true
  | e :: rest => e.isDisciplined false && operandsAreDisciplined rest

/-- Whether each key and each value is disciplined. -/
def pairsAreDisciplined : List (Expr × Expr) → Bool
  | [] => true
  | (k, v) :: rest => k.isDisciplined false && v.isDisciplined false && pairsAreDisciplined rest

end

/-- Whether the body of a function, or a program, is disciplined. -/
def Block.isDisciplined (body : Block) : Bool := statementsAreDisciplined true body

theorem statementsAreDisciplined_iff {may : Bool} {ss : List Stmt} :
    statementsAreDisciplined may ss = true ↔ ∀ s ∈ ss, s.isDisciplined may = true := by
  induction ss with
  | nil => simp [statementsAreDisciplined]
  | cons s ss ih => simp [statementsAreDisciplined, ih]

theorem operandsAreDisciplined_iff {es : List Expr} :
    operandsAreDisciplined es = true ↔ ∀ e ∈ es, e.isDisciplined false = true := by
  induction es with
  | nil => simp [operandsAreDisciplined]
  | cons e es ih => simp [operandsAreDisciplined, ih]

theorem pairsAreDisciplined_iff {pairs : List (Expr × Expr)} :
    pairsAreDisciplined pairs = true ↔
      ∀ p ∈ pairs, p.1.isDisciplined false = true ∧ p.2.isDisciplined false = true := by
  induction pairs with
  | nil => simp [pairsAreDisciplined]
  | cons p pairs ih => simp [pairsAreDisciplined, ih]

/-! ## Values -/

namespace Value

/-- The value is neither being returned nor an error, and if it is a function, then its body is
disciplined. -/
def Settled (v : Value) : Prop :=
  v.stops = false ∧ ∀ id parameters body frame,
    v = .function id parameters body frame → Block.isDisciplined body = true

theorem settled_of_isPlain (v : Value) (h : v.isPlain = true) : v.Settled := by
  cases v <;> simp_all [Settled, isPlain, stops]

theorem settled_array (id : Identity) (vs : List Value) : Settled (.array id vs) := by
  simp [Settled, stops]

theorem settled_hash (id : Identity) (entries : Entries Value) : Settled (.hash id entries) := by
  simp [Settled, stops]

theorem settled_function {id : Identity} {parameters : List Name} {body : Block} {frame : FrameId}
    (h : Block.isDisciplined body = true) : Settled (.function id parameters body frame) := by
  refine ⟨rfl, ?_⟩
  intro id' parameters' body' frame' heq
  injection heq with _ _ hbody _
  exact hbody ▸ h

theorem Settled.isError {v : Value} (h : v.Settled) : v.isError = false := by
  obtain ⟨h, -⟩ := h
  cases v <;> simp_all [stops, Value.isError]

theorem Settled.ne_returned {v w : Value} (h : v.Settled) : v ≠ .returned w := by
  rintro rfl
  simp [Settled, stops] at h

/-- A value that a block may end with: a settled one or, where a return may leave the block, one
that is being returned. -/
def Settles (may : Bool) (v : Value) : Prop :=
  v.All Settled ∨ may = true ∧ ∃ w, v = .returned w ∧ w.All Settled

theorem settles_false_iff {v : Value} : v.Settles false ↔ v.All Settled := by
  simp [Settles]

theorem Settles.arrive {may : Bool} {v : Value} (h : v.Settles may) : v.arrive.All Settled := by
  rcases h with h | ⟨-, w, rfl, h⟩
  · cases v with
    | returned w => exact absurd rfl h.self.ne_returned
    | _ => exact h
  · exact h

end Value

end Monkey
