import Monkey.Eval.Program

/-!
# Errors as exceptions

The evaluator passes errors on as values: whoever evaluates a part looks whether its value is an
error. Here is a second evaluator of the same language that never looks. It throws an error in the
moment a name, an operator, an index, a key, a builtin or a call yields one, and nothing in it
catches what is thrown; what was bound and printed until then is kept. The two evaluators agree on
every program and every machine.

## Main definitions

* `Raising` — evaluations that may throw an error.
* `Raising.raise` — a value, thrown if it is an error.
* `Raising.evalExpr`, `evalStmt`, `evalProgram` — the evaluator that throws.
* `Raising.outcome` — an evaluation whose outcome is what was thrown, if anything was.
-/

namespace Monkey

open Eval

/-- Evaluations that may throw an error. The machine is kept as it was when the error was thrown. -/
abbrev Raising (α : Type) : Type := ExceptT Fault Eval α

namespace Raising

/-! ## The evaluator that throws -/

/-- The value, unless it is an error, which is thrown. -/
def raise : Value → Raising Value
  | .error f => throw f
  | v => pure v

/-- Evaluate, and throw the value if it is an error. -/
def raised (m : Eval Value) : Raising Value := do
  let v ← m
  raise v

/-- Go on with the value, unless it is on its way out of a function. -/
def unlessReturned (k : Value → Raising Value) : Value → Raising Value
  | .returned v => pure (.returned v)
  | v => k v

/-- Run statements one after the other, up to the first that returns. -/
def steps (run : Stmt → Raising Value) : Value → List Stmt → Raising Value
  | last, [] => pure last
  | _, s :: rest => do
    let v ← run s
    unlessReturned (fun v => steps run v rest) v

/-- Put one more pair into the entries of a hash. Whether the key can be one is found out before its
value is evaluated. -/
def entry (run : Expr → Raising Value) (entries : Entries Value) (pair : Expr × Expr) :
    Raising (Entries Value) := do
  let k ← run pair.1
  match k.key? with
  | none => throw (.notAKey k.kind)
  | some key =>
    let v ← run pair.2
    pure (entries.insert key v)

/-- Call `f`. -/
def callWith (run : FrameId → Block → Raising Value) (f : Value) (arguments : List Value) :
    Raising Value :=
  match f with
  | .function _ parameters body frame =>
    if parameters.length = arguments.length then do
      let inner ← enter frame ((parameters.map (·.text)).zip arguments)
      let v ← run inner body
      raise v.arrive
    else throw (.wrongArity parameters.length arguments.length)
  | .builtin b => raised (b.call arguments)
  | f => throw (.notCallable f.kind)

mutual

/-- The value of an expression in a frame. -/
def evalExpr : Nat → FrameId → Expr → Raising Value
  | 0, _, _ => liftM (outOfSteps : Eval Value)
  | n + 1, frame, e =>
    match e with
    | .name x => raised (lookUp frame x.text)
    | .integer v => pure (.integer v)
    | .string s => pure (.string s)
    | .boolean b => pure (.boolean b)
    | .unary op e => do
      let v ← evalExpr n frame e
      raise (op.apply v)
    | .binary op l r => do
      let a ← evalExpr n frame l
      let b ← evalExpr n frame r
      raise (op.apply a b)
    | .conditional c yes no => do
      let test ← evalExpr n frame c
      if test.isTruthy then steps (evalStmt n frame) .null yes
      else match no with
        | some no => steps (evalStmt n frame) .null no
        | none => pure .null
    | .function parameters body => do
      let id ← freshIdentity
      pure (.function id parameters body frame)
    | .call f arguments => do
      let f ← evalExpr n frame f
      if f.isCallable then
        let vs ← arguments.mapM (evalExpr n frame)
        callWith (fun frame body => steps (evalStmt n frame) .null body) f vs
      else throw (.notCallable f.kind)
    | .array elements => do
      let vs ← elements.mapM (evalExpr n frame)
      let id ← freshIdentity
      pure (.array id vs)
    | .index l i => do
      let a ← evalExpr n frame l
      let b ← evalExpr n frame i
      raise (a.index b)
    | .hash pairs => do
      let entries ← pairs.foldlM (entry (evalExpr n frame)) []
      let id ← freshIdentity
      pure (.hash id entries)

/-- The value of a statement in a frame. -/
def evalStmt : Nat → FrameId → Stmt → Raising Value
  | 0, _, _ => liftM (outOfSteps : Eval Value)
  | n + 1, frame, s =>
    match s with
    | .binding x e => do
      let v ← evalExpr n frame e
      assign frame x.text v
      pure .null
    | .ret e => do
      let v ← evalExpr n frame e
      pure (.returned v)
    | .expression e => evalExpr n frame e
    | .loop c body => do
      let test ← evalExpr n frame c
      if test.isTruthy then
        let v ← steps (evalStmt n frame) .null body
        unlessReturned (fun _ => evalStmt n frame (.loop c body)) v
      else pure .null

end

/-- The value of a program in a frame. -/
def evalProgram (n : Nat) (frame : FrameId) (program : Program) : Raising Value := do
  let v ← steps (evalStmt n frame) .null program
  raise v.arrive

/-- The evaluation whose outcome is what was thrown, if anything was. -/
def outcome (m : Raising Value) : Eval Value := do
  match ← m.run with
  | .ok v => pure v
  | .error f => fault f

/-! ## What is raised -/

section Raised

variable {α : Type} {m : Eval Value} {v : Value}

@[simp] theorem raise_error (f : Fault) : raise (.error f) = throw f := rfl

theorem eq_error_of_isError (h : v.isError = true) : ∃ f, v = .error f := by
  cases v with
  | error f => exact ⟨f, rfl⟩
  | _ => simp [Value.isError] at h

theorem raise_of_not_isError (h : v.isError = false) : raise v = pure v := by
  cases v with
  | error => simp [Value.isError] at h
  | _ => rfl

@[simp] theorem raised_pure : raised (pure v) = raise v := by simp [raised]

@[simp] theorem raised_fault (f : Fault) : raised (fault f) = throw f := raised_pure

theorem raised_bind (m : Eval α) (k : α → Eval Value) :
    raised (m >>= k) = (liftM m : Raising α) >>= fun a => raised (k a) := by
  simp [raised]

theorem raised_outOfSteps : raised outOfSteps = liftM (outOfSteps : Eval Value) := rfl

/-- To go on with a value but not with an error is what throwing does by itself. -/
theorem raised_andThen (m : Eval Value) (k : Value → Eval Value) :
    raised (andThen m k) = raised m >>= fun v => raised (k v) := by
  rw [andThen, raised_bind, raised, bind_assoc]
  congr 1
  funext v
  cases h : v.isError with
  | true =>
    obtain ⟨f, rfl⟩ := eq_error_of_isError h
    simp
  | false => simp [raise_of_not_isError h]

/-- What was passed on as a value and then thrown is the outcome again. -/
theorem outcome_raised (m : Eval Value) : outcome (raised m) = m := by
  have hrun (v : Value) : outcome (raise v) = pure v := by cases v <;> rfl
  calc outcome (raised m) = m >>= fun v => outcome (raise v) := by
        change outcome (ExceptT.lift m >>= raise) = _
        simp only [outcome, ExceptT.run_bind_lift, bind_assoc]
    _ = m >>= pure := by simp only [hrun]
    _ = m := bind_pure m

theorem raised_withValues (run : Expr → Eval Value) (es : List Expr)
    (k : List Value → Eval Value) :
    raised (withValues run es k) =
      es.mapM (fun e => raised (run e)) >>= fun vs => raised (k vs) := by
  induction es generalizing k with
  | nil => simp [withValues]
  | cons e es ih => simp [withValues, raised_andThen, ih]

theorem raised_withEntries (run : Expr → Eval Value) (entries : Entries Value)
    (pairs : List (Expr × Expr)) (k : Entries Value → Eval Value) :
    raised (withEntries run entries pairs k) =
      pairs.foldlM (entry fun e => raised (run e)) entries >>= fun es => raised (k es) := by
  induction pairs generalizing entries with
  | nil => simp [withEntries]
  | cons pair pairs ih =>
    obtain ⟨key, value⟩ := pair
    simp only [withEntries, raised_andThen, List.foldlM_cons, entry, bind_assoc]
    congr 1
    funext v
    cases v.key? with
    | none => simp
    | some key => simp [raised_andThen, ih]

/-- What goes on after a value that was raised never meets an error. -/
theorem raised_bind_congr {k k' : Value → Raising Value}
    (h : ∀ v, v.isError = false → k v = k' v) : raised m >>= k = raised m >>= k' := by
  simp only [raised, bind_assoc]
  congr 1
  funext v
  cases hv : v.isError with
  | true =>
    obtain ⟨f, rfl⟩ := eq_error_of_isError hv
    simp
  | false => simp [raise_of_not_isError hv, h v hv]

/-- Where errors are thrown, only a return is left to stop a block. -/
theorem raised_unless_stops (m : Eval Value) (k : Value → Eval Value) :
    raised (do let v ← m; if v.stops then pure v else k v) =
      raised m >>= unlessReturned fun v => raised (k v) := by
  rw [raised_bind, raised, bind_assoc]
  congr 1
  funext v
  cases v <;> simp [Value.stops, raise, unlessReturned]

theorem raised_sequence (run : Stmt → Eval Value) {last : Value} (hlast : last.isError = false)
    (ss : List Stmt) :
    raised (Eval.sequence run last ss) = steps (fun s => raised (run s)) last ss := by
  induction ss generalizing last with
  | nil => simp [Eval.sequence, steps, raise_of_not_isError hlast]
  | cons s ss ih =>
    rw [Eval.sequence, steps, raised_unless_stops]
    refine raised_bind_congr fun v hv => ?_
    cases v with
    | returned v => rfl
    | _ => exact ih hv

/-- Whether an error is thrown before or after a layer of returning is taken off is all one. -/
theorem raised_arrive (m : Eval Value) :
    raised (do let v ← m; pure v.arrive) = raised m >>= fun v => raise v.arrive := by
  rw [raised_bind, raised, bind_assoc]
  congr 1
  funext v
  cases v <;> simp [Value.arrive, raise]

theorem raised_applyWith (run : FrameId → Block → Eval Value) (f : Value)
    (arguments : List Value) :
    raised (applyWith run f arguments) =
      callWith (fun frame body => raised (run frame body)) f arguments := by
  cases f with
  | function id parameters body frame =>
    simp only [applyWith, callWith]
    split
    · rw [raised_bind]
      simp only [raised_arrive]
    · simp
  | _ => simp [applyWith, callWith]

/-! ## The two evaluators -/

/-- To evaluate an expression or a statement with exceptions is to evaluate it and then throw its
value if that is an error. -/
theorem evalExpr_evalStmt_eq_raised (n : Nat) :
    (∀ frame e, evalExpr n frame e = raised (Monkey.evalExpr n frame e)) ∧
      ∀ frame s, evalStmt n frame s = raised (Monkey.evalStmt n frame s) := by
  induction n with
  | zero =>
    constructor
    · intro frame e
      rw [evalExpr, Monkey.evalExpr, raised_outOfSteps]
    · intro frame s
      rw [evalStmt, Monkey.evalStmt, raised_outOfSteps]
  | succ n ih =>
    obtain ⟨hexpr, hstmt⟩ := ih
    have hexpr' (frame : FrameId) :
        evalExpr n frame = fun e => raised (Monkey.evalExpr n frame e) := funext (hexpr frame)
    have hblock (frame : FrameId) (body : Block) : steps (evalStmt n frame) .null body =
        raised (Eval.sequence (Monkey.evalStmt n frame) .null body) := by
      rw [raised_sequence _ rfl, ← funext (hstmt frame)]
    constructor
    · intro frame e
      rw [evalExpr.eq_def, Monkey.evalExpr.eq_def]
      cases e with
      | name x => rfl
      | integer v => simp [raise]
      | string s => simp [raise]
      | boolean b => simp [raise]
      | unary op e => simp only [raised_andThen, raised_pure, hexpr]
      | binary op l r => simp only [raised_andThen, raised_pure, hexpr]
      | conditional c yes no =>
        simp only [raised_andThen, hexpr, hblock]
        congr 1
        funext test
        split
        · rfl
        · cases no with
          | none => simp [raise]
          | some no => rfl
      | function parameters body => simp only [raised_bind, raised_pure, raise]
      | call f arguments =>
        simp only [raised_andThen, hexpr]
        congr 1
        funext f
        split
        · simp only [raised_withValues, raised_applyWith, hexpr', hblock]
        · simp
      | array elements =>
        simp only [raised_withValues, newArray, raised_bind, raised_pure, raise, hexpr']
      | index l i => simp only [raised_andThen, raised_pure, hexpr]
      | hash pairs =>
        simp only [raised_withEntries, raised_bind, raised_pure, raise, hexpr']
    · intro frame s
      rw [evalStmt.eq_def, Monkey.evalStmt.eq_def]
      cases s with
      | binding x e => simp only [raised_andThen, raised_bind, raised_pure, raise, hexpr]
      | ret e => simp only [raised_andThen, raised_pure, raise, hexpr]
      | expression e => exact hexpr frame e
      | loop c body =>
        simp only [raised_andThen, hexpr, hblock]
        congr 1
        funext test
        split
        · rw [raised_unless_stops]
          simp only [hstmt]
        · simp [raise]

/-- For every program, frame and machine, and within every number of steps, the evaluator that
passes errors on has the outcome, the frames and the output of the one that throws them. -/
theorem evalProgram_eq_outcome (n : Nat) (frame : FrameId) (program : Program) :
    Monkey.evalProgram n frame program = outcome (evalProgram n frame program) := by
  obtain ⟨-, hstmt⟩ := evalExpr_evalStmt_eq_raised n
  rw [evalProgram, funext (hstmt frame), ← raised_sequence _ rfl, ← raised_arrive, outcome_raised]
  rfl

end Raised

end Raising

end Monkey
