import Monkey.Proofs.Eval.Parts

/-!
# Returns unwind

A return is meant to unwind to the call or the program around it, from whatever depth. It does so
through every part that is run in place of the whole: through the statements of blocks, the blocks
of loops and the blocks of conditionals that are statements themselves. Where a conditional is an
operand, the value that is being returned is handed on as if it were the value of the operand, and
what stands after it is still evaluated.

## Main results

* `Part.run_eq_returned` — a part that is run in place of the whole lets the whole return.
* `Task.run_eq_returned` — a return lets all the code around it return at once.
-/

namespace Monkey

open Eval

/-! ## One part -/

/-- A part that is run in place of the whole and returns lets the whole return. -/
theorem Part.run_eq_returned {a b : Task} {v : Value} {m' : Machine} (h : Part .inner a b)
    (hb : b.run = some (.returned v, m')) : a.run = some (.returned v, m') := by
  cases h with
  | statement hbefore => exact hbefore.sequence_eq hb rfl
  | expression => exact hb
  | @round n here c body test m m₁ hc herror htest =>
    change evalStmt (n + 1) here (.loop c body) m = _
    rw [evalStmt.eq_def]
    dsimp only
    rw [andThen_eq hc herror, if_pos htest]
    exact bind_eq_some_iff.mpr ⟨_, m', hb, rfl⟩
  | @nextRound n here c body test w m m₁ m₂ hc herror htest hbody hw =>
    change evalStmt (n + 1) here (.loop c body) m = _
    rw [evalStmt.eq_def]
    dsimp only
    rw [andThen_eq hc herror, if_pos htest]
    refine bind_eq_some_iff.mpr ⟨w, m₂, hbody, ?_⟩
    rw [if_neg (Bool.eq_false_iff.mp hw)]
    exact hb
  | @consequence n here c yes no test m m₁ hc herror htest =>
    change evalExpr (n + 1) here (.conditional c yes no) m = _
    rw [evalExpr.eq_def]
    dsimp only
    rw [andThen_eq hc herror, if_pos htest]
    exact hb
  | @alternative n here c yes no test m m₁ hc herror htest =>
    change evalExpr (n + 1) here (.conditional c yes (some no)) m = _
    rw [evalExpr.eq_def]
    dsimp only
    rw [andThen_eq hc herror, if_neg (Bool.eq_false_iff.mp htest)]
    exact hb

/-! ## Many parts -/

theorem Task.run_ret {n : Nat} {here : FrameId} {e : Expr} {m m' : Machine} {v : Value}
    (he : evalExpr n here e m = some (v, m')) (hv : v.isError = false) :
    Task.run ⟨n + 1, here, .stmt (.ret e), m⟩ = some (.returned v, m') := by
  change evalStmt (n + 1) here (.ret e) m = _
  rw [evalStmt.eq_def]
  dsimp only
  rw [andThen_eq he hv]
  rfl

/-- Code that comes to a return through parts that are run in its place returns at once: nothing is
evaluated after the value of the return. The induction is on the parts between the two. -/
theorem Task.run_eq_returned {a : Task} {v : Value} {m' : Machine}
    (h : a.Returns (· = .inner) v m') : a.run = some (.returned v, m') := by
  obtain ⟨n, here, e, m, hreach, he, hv⟩ := h
  induction hreach using Relation.ReflTransGen.head_induction_on with
  | refl => exact Task.run_ret he hv
  | head hpart _ ih =>
    obtain ⟨r, rfl, hpart⟩ := hpart
    exact hpart.run_eq_returned ih

/-- A return that is executed in the frame of a call or of a program, in a block of a loop or of a
conditional that is itself a statement, at whatever depth: its value is that of the call or of the
program, and nothing is evaluated after it. -/
theorem apply_evalProgram_eq_of_returns {n : Nat} {v : Value} {m' : Machine} :
    (∀ {id : Identity} {parameters : List Name} {body : Block} {frame inner : FrameId}
      {arguments : List Value} {m m₁ : Machine}, parameters.length = arguments.length →
      enter frame ((parameters.map (·.text)).zip arguments) m = some (inner, m₁) →
      Task.Returns (· = .inner) ⟨n, inner, .block body, m₁⟩ v m' →
      apply n (.function id parameters body frame) arguments m = some (v, m')) ∧
    ∀ {frame : FrameId} {p : Program} {m : Machine},
      Task.Returns (· = .inner) ⟨n, frame, .block p, m⟩ v m' →
      evalProgram n frame p m = some (v, m') := by
  constructor
  · intro id parameters body frame inner arguments m m₁ hlength henter h
    rw [apply, applyWith, if_pos hlength]
    refine bind_eq_some_iff.mpr ⟨inner, m₁, henter, ?_⟩
    exact bind_eq_some_iff.mpr ⟨.returned v, m', Task.run_eq_returned h, rfl⟩
  · intro frame p m h
    exact bind_eq_some_iff.mpr ⟨.returned v, m', Task.run_eq_returned h, rfl⟩

/-- The machine of a call without arguments, in a frame of its own that the first frame encloses. -/
def Machine.called : Machine := { store := ⟨#[{}, { outer := some 0 }]⟩ }

/-- A call of `fn() { while (true) { if (true) { return 5 } }; 7 }`: the return leaves the loop and
the function. -/
theorem apply_eq_of_return_in_loop :
    apply 5 (.function 0 [] [.loop (.boolean true) [.expression (.conditional (.boolean true)
      [.ret (.integer 5)] none)], .expression (.integer 7)] 0) [] { store := ⟨#[{}]⟩ } =
      some (.integer 5, Machine.called) := by
  have henter : enter 0 [] { store := ⟨#[{}]⟩ } = some (1, .called) := rfl
  have htest (n : Nat) : evalExpr (n + 1) 1 (.boolean true) .called =
      some (.boolean true, .called) := rfl
  refine apply_evalProgram_eq_of_returns.1 rfl henter ?_
  refine ⟨1, 1, .integer 5, .called, ?_, rfl, rfl⟩
  have hloop : Part .inner ⟨5, 1, .block [.loop (.boolean true) [.expression (.conditional
      (.boolean true) [.ret (.integer 5)] none)], .expression (.integer 7)], .called⟩
      ⟨5, 1, .stmt (.loop (.boolean true) [.expression (.conditional (.boolean true)
        [.ret (.integer 5)] none)]), .called⟩ := .first
  refine .head ⟨_, rfl, hloop⟩ (.head ⟨_, rfl, .round (htest 3) rfl rfl⟩ ?_)
  refine .head ⟨_, rfl, .first⟩ (.head ⟨_, rfl, .expression⟩ ?_)
  refine .head ⟨_, rfl, .consequence (htest _) rfl rfl⟩ ?_
  exact .single ⟨_, rfl, .first⟩

/-- A call of `fn() { let x = if (true) { return 5 }; 7 }` has the value 7, although it executes a
return whose value is 5: the conditional is an operand there. -/
theorem not_apply_eq_of_returns_in_operand :
    ¬ ∀ {n : Nat} {v : Value} {m' : Machine} {id : Identity} {parameters : List Name} {body : Block}
      {frame inner : FrameId} {arguments : List Value} {m m₁ : Machine},
      parameters.length = arguments.length →
      enter frame ((parameters.map (·.text)).zip arguments) m = some (inner, m₁) →
      Task.Returns (· ≠ .body) ⟨n, inner, .block body, m₁⟩ v m' →
      apply n (.function id parameters body frame) arguments m = some (v, m') := by
  intro h
  have henter : enter 0 [] { store := ⟨#[{}]⟩ } = some (1, .called) := rfl
  have htest (n : Nat) : evalExpr (n + 1) 1 (.boolean true) .called =
      some (.boolean true, .called) := rfl
  have hreturns : Task.Returns (· ≠ .body) ⟨4, 1, .block [.binding ⟨"x", {}⟩ (.conditional
      (.boolean true) [.ret (.integer 5)] none), .expression (.integer 7)], .called⟩
      (.integer 5) .called := by
    refine ⟨1, 1, .integer 5, .called, ?_, rfl, rfl⟩
    refine .head ⟨_, by decide, .first⟩ ?_
    refine .head ⟨_, by decide, .bound⟩ ?_
    refine .head ⟨_, by decide, .consequence (htest _) rfl rfl⟩ ?_
    exact .single ⟨_, by decide, .first⟩
  have hseven : (apply 4 (.function 0 [] [.binding ⟨"x", {}⟩ (.conditional (.boolean true)
      [.ret (.integer 5)] none), .expression (.integer 7)] 0) [] { store := ⟨#[{}]⟩ }).map
        Prod.fst = some (.integer 7) := rfl
  rw [h rfl henter hreturns] at hseven
  simp at hseven

end Monkey
