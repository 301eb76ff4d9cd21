import Mathlib.Logic.Relation
import Monkey.Proofs.Eval.Keeps
import Monkey.Proofs.Eval.Scope

/-!
# The parts of a run

Running a piece of code runs its parts, each from the machine that the parts before it have left. A
part has one of three roles. An inner part is run in place of the whole: its value, if it stops, is
that of the whole. An operand has a value that the whole goes on with. A body is what a call or a
program runs, and what a return leaves.

## Main definitions

* `Task` — a piece of code with the frame, the machine and the number of steps that it is run with.
* `Completes`, `Yields`, `YieldsPairs` — that the first of several parts have been run.
* `Part` — that running one task runs another.
-/

namespace Monkey

open Eval

/-- A piece of code that is to be run. -/
structure Task where
  steps : Nat
  frame : FrameId
  code : Code
  machine : Machine

/-- The value of the code, and the machine that it is found in. -/
def Task.run (t : Task) : Option (Value × Machine) := t.code.eval t.steps t.frame t.machine

/-- How a part stands in the whole. -/
inductive Role where
  | inner | operand | body
deriving DecidableEq

/-! ## Parts that have been run -/

section Lists

variable {run : Expr → Eval Value} {exec : Stmt → Eval Value}

/-- The statements are run one after the other, and none of them stops the block. -/
inductive Completes (exec : Stmt → Eval Value) : List Stmt → Machine → Machine → Prop
  | nil (m : Machine) : Completes exec [] m m
  | cons {s : Stmt} {ss : List Stmt} {v : Value} {m m₁ m₂ : Machine}
      (hs : exec s m = some (v, m₁)) (hv : v.stops = false) (hss : Completes exec ss m₁ m₂) :
      Completes exec (s :: ss) m m₂

/-- The expressions have these values one after the other, and none of them is an error. -/
inductive Yields (run : Expr → Eval Value) : List Expr → Machine → List Value → Machine → Prop
  | nil (m : Machine) : Yields run [] m [] m
  | cons {e : Expr} {es : List Expr} {v : Value} {vs : List Value} {m m₁ m₂ : Machine}
      (he : run e m = some (v, m₁)) (hv : v.isError = false) (hes : Yields run es m₁ vs m₂) :
      Yields run (e :: es) m (v :: vs) m₂

/-- The pairs are evaluated one after the other, each to a key and a value that is no error. -/
inductive YieldsPairs (run : Expr → Eval Value) : List (Expr × Expr) → Machine → Machine → Prop
  | nil (m : Machine) : YieldsPairs run [] m m
  | cons {e e' : Expr} {pairs : List (Expr × Expr)} {v w : Value} {m m₁ m₂ m₃ : Machine}
      (he : run e m = some (v, m₁)) (hv : v.key?.isSome) (he' : run e' m₁ = some (w, m₂))
      (hw : w.isError = false) (hpairs : YieldsPairs run pairs m₂ m₃) :
      YieldsPairs run ((e, e') :: pairs) m m₃

/-- If a statement stops a block, then its value is that of the block. -/
theorem Completes.sequence_eq {before after : List Stmt} {s : Stmt} {last v : Value}
    {m m₁ m' : Machine} (h : Completes exec before m m₁) (hs : exec s m₁ = some (v, m'))
    (hv : v.stops = true) : Eval.sequence exec last (before ++ s :: after) m = some (v, m') := by
  induction h generalizing last with
  | nil m => exact bind_eq_some_iff.mpr ⟨v, m', hs, by rw [if_pos hv]; rfl⟩
  | @cons s' ss w m mid m₁ hs' hw _ ih =>
    refine bind_eq_some_iff.mpr ⟨w, mid, hs', ?_⟩
    rw [if_neg (Bool.eq_false_iff.mp hw)]
    exact ih hs

theorem andThen_apply (x : Eval Value) (k : Value → Eval Value) (m : Machine) :
    andThen x k m = (x m).bind fun p =>
      (if p.1.isError then (pure p.1 : Eval Value) else k p.1) p.2 := rfl

/-- What goes on with a value that is no error is run from the machine in which it was found. -/
theorem andThen_eq {x : Eval Value} {k : Value → Eval Value} {v : Value} {m m₁ : Machine}
    (hx : x m = some (v, m₁)) (hv : v.isError = false) : andThen x k m = k v m₁ := by
  simp [andThen_apply, hx, hv]

/-- An error is not gone on with. -/
theorem andThen_eq_of_isError {x : Eval Value} {k : Value → Eval Value} {v : Value}
    {m m₁ : Machine} (hx : x m = some (v, m₁)) (hv : v.isError = true) :
    andThen x k m = some (v, m₁) := by
  rw [andThen_apply, hx, Option.bind_some, if_pos hv]
  rfl

/-- Expressions none of whose values is an error are gone on with. -/
theorem Yields.withValues_eq {es : List Expr} {vs : List Value} {m m' : Machine}
    (h : Yields run es m vs m') (k : List Value → Eval Value) :
    withValues run es k m = k vs m' := by
  induction h generalizing k with
  | nil m => rfl
  | cons he hv _ ih => exact (andThen_eq he hv).trans (ih _)

/-- Expressions of which one has no value, or an error, are not gone on with. -/
theorem exists_yields_or_withValues_eq (run : Expr → Eval Value) (es : List Expr) (m : Machine) :
    (∃ vs m', Yields run es m vs m') ∨
      ∀ k k', withValues run es k m = withValues run es k' m := by
  induction es generalizing m with
  | nil => exact .inl ⟨[], m, .nil m⟩
  | cons e es ih =>
    cases he : run e m with
    | none => exact .inr fun k k' => by simp [withValues, andThen_apply, he]
    | some p =>
      obtain ⟨v, m₁⟩ := p
      cases hv : v.isError with
      | true => exact .inr fun k k' => by simp [withValues, andThen_apply, he, hv]
      | false =>
        rcases ih m₁ with ⟨vs, m', hes⟩ | hsame
        · exact .inl ⟨v :: vs, m', .cons he hv hes⟩
        · exact .inr fun k k' => ((andThen_eq he hv).trans (hsame _ _)).trans
            (andThen_eq he hv).symm

/-- If expressions are gone on with, whatever comes then, then none of their values is an error. -/
theorem yields_of_withValues_eq {es : List Expr} {vs : List Value} {m m' : Machine}
    (h : ∀ k, withValues run es k m = k vs m') : Yields run es m vs m' := by
  rcases exists_yields_or_withValues_eq run es m with ⟨vs', m'', hes⟩ | hsame
  · have hpair : (pure (.array 0 vs') : Eval Value) m'' = (pure (.array 0 vs) : Eval Value) m' :=
      (hes.withValues_eq fun vs => pure (.array 0 vs)).symm.trans (h fun vs => pure (.array 0 vs))
    obtain ⟨hvs, rfl⟩ := Prod.mk.inj (Option.some.inj hpair)
    injection hvs with _ hvs
    exact hvs ▸ hes
  · have hnone : (pure .null : Eval Value) m' = none :=
      (h fun _ => pure .null).symm.trans ((hsame _ _).trans (h fun _ => outOfSteps))
    exact absurd hnone (Option.some_ne_none (Value.null, m'))

end Lists

/-! ## Parts -/

/-- Running the first task runs the second. -/
inductive Part : Role → Task → Task → Prop
  | program {n : Nat} {here : FrameId} {p : Program} {m : Machine} :
      Part .body ⟨n, here, .program p, m⟩ ⟨n, here, .block p, m⟩
  | statement {n : Nat} {here : FrameId} {before after : List Stmt} {s : Stmt} {m m₁ : Machine}
      (hbefore : Completes (evalStmt n here) before m m₁) :
      Part .inner ⟨n, here, .block (before ++ s :: after), m⟩ ⟨n, here, .stmt s, m₁⟩
  | bound {n : Nat} {here : FrameId} {x : Name} {e : Expr} {m : Machine} :
      Part .operand ⟨n + 1, here, .stmt (.binding x e), m⟩ ⟨n, here, .expr e, m⟩
  | returned {n : Nat} {here : FrameId} {e : Expr} {m : Machine} :
      Part .operand ⟨n + 1, here, .stmt (.ret e), m⟩ ⟨n, here, .expr e, m⟩
  | expression {n : Nat} {here : FrameId} {e : Expr} {m : Machine} :
      Part .inner ⟨n + 1, here, .stmt (.expression e), m⟩ ⟨n, here, .expr e, m⟩
  | test {n : Nat} {here : FrameId} {c : Expr} {body : Block} {m : Machine} :
      Part .operand ⟨n + 1, here, .stmt (.loop c body), m⟩ ⟨n, here, .expr c, m⟩
  | round {n : Nat} {here : FrameId} {c : Expr} {body : Block} {test : Value} {m m₁ : Machine}
      (hc : evalExpr n here c m = some (test, m₁)) (herror : test.isError = false)
      (htest : test.isTruthy = true) :
      Part .inner ⟨n + 1, here, .stmt (.loop c body), m⟩ ⟨n, here, .block body, m₁⟩
  | nextRound {n : Nat} {here : FrameId} {c : Expr} {body : Block} {test v : Value}
      {m m₁ m₂ : Machine}
      (hc : evalExpr n here c m = some (test, m₁)) (herror : test.isError = false)
      (htest : test.isTruthy = true) (hbody : evalBlock n here body m₁ = some (v, m₂))
      (hv : v.stops = false) :
      Part .inner ⟨n + 1, here, .stmt (.loop c body), m⟩ ⟨n, here, .stmt (.loop c body), m₂⟩
  | unary {n : Nat} {here : FrameId} {op : UnaryOp} {e : Expr} {m : Machine} :
      Part .operand ⟨n + 1, here, .expr (.unary op e), m⟩ ⟨n, here, .expr e, m⟩
  | left {n : Nat} {here : FrameId} {op : BinaryOp} {l r : Expr} {m : Machine} :
      Part .operand ⟨n + 1, here, .expr (.binary op l r), m⟩ ⟨n, here, .expr l, m⟩
  | right {n : Nat} {here : FrameId} {op : BinaryOp} {l r : Expr} {a : Value} {m m₁ : Machine}
      (hl : evalExpr n here l m = some (a, m₁)) (ha : a.isError = false) :
      Part .operand ⟨n + 1, here, .expr (.binary op l r), m⟩ ⟨n, here, .expr r, m₁⟩
  | condition {n : Nat} {here : FrameId} {c : Expr} {yes : Block} {no : Option Block}
      {m : Machine} :
      Part .operand ⟨n + 1, here, .expr (.conditional c yes no), m⟩ ⟨n, here, .expr c, m⟩
  | consequence {n : Nat} {here : FrameId} {c : Expr} {yes : Block} {no : Option Block}
      {test : Value} {m m₁ : Machine}
      (hc : evalExpr n here c m = some (test, m₁)) (herror : test.isError = false)
      (htest : test.isTruthy = true) :
      Part .inner ⟨n + 1, here, .expr (.conditional c yes no), m⟩ ⟨n, here, .block yes, m₁⟩
  | alternative {n : Nat} {here : FrameId} {c : Expr} {yes no : Block} {test : Value}
      {m m₁ : Machine}
      (hc : evalExpr n here c m = some (test, m₁)) (herror : test.isError = false)
      (htest : test.isTruthy = false) :
      Part .inner ⟨n + 1, here, .expr (.conditional c yes (some no)), m⟩ ⟨n, here, .block no, m₁⟩
  | callee {n : Nat} {here : FrameId} {f : Expr} {arguments : List Expr} {m : Machine} :
      Part .operand ⟨n + 1, here, .expr (.call f arguments), m⟩ ⟨n, here, .expr f, m⟩
  | argument {n : Nat} {here : FrameId} {f e : Expr} {before after : List Expr} {g : Value}
      {vs : List Value} {m m₁ m₂ : Machine}
      (hf : evalExpr n here f m = some (g, m₁)) (hg : g.isCallable = true)
      (hbefore : Yields (evalExpr n here) before m₁ vs m₂) :
      Part .operand ⟨n + 1, here, .expr (.call f (before ++ e :: after)), m⟩ ⟨n, here, .expr e, m₂⟩
  | call {n : Nat} {here outer inner : FrameId} {f : Expr} {arguments : List Expr} {id : Identity}
      {parameters : List Name} {body : Block} {vs : List Value} {m m₁ m₂ m₃ : Machine}
      (hf : evalExpr n here f m = some (.function id parameters body outer, m₁))
      (hvs : Yields (evalExpr n here) arguments m₁ vs m₂) (hlength : parameters.length = vs.length)
      (henter : enter outer ((parameters.map (·.text)).zip vs) m₂ = some (inner, m₃)) :
      Part .body ⟨n + 1, here, .expr (.call f arguments), m⟩ ⟨n, inner, .block body, m₃⟩
  | element {n : Nat} {here : FrameId} {e : Expr} {before after : List Expr} {vs : List Value}
      {m m₁ : Machine} (hbefore : Yields (evalExpr n here) before m vs m₁) :
      Part .operand ⟨n + 1, here, .expr (.array (before ++ e :: after)), m⟩ ⟨n, here, .expr e, m₁⟩
  | collection {n : Nat} {here : FrameId} {l i : Expr} {m : Machine} :
      Part .operand ⟨n + 1, here, .expr (.index l i), m⟩ ⟨n, here, .expr l, m⟩
  | position {n : Nat} {here : FrameId} {l i : Expr} {a : Value} {m m₁ : Machine}
      (hl : evalExpr n here l m = some (a, m₁)) (ha : a.isError = false) :
      Part .operand ⟨n + 1, here, .expr (.index l i), m⟩ ⟨n, here, .expr i, m₁⟩
  | key {n : Nat} {here : FrameId} {e e' : Expr} {before after : List (Expr × Expr)}
      {m m₁ : Machine} (hbefore : YieldsPairs (evalExpr n here) before m m₁) :
      Part .operand ⟨n + 1, here, .expr (.hash (before ++ (e, e') :: after)), m⟩
        ⟨n, here, .expr e, m₁⟩
  | value {n : Nat} {here : FrameId} {e e' : Expr} {before after : List (Expr × Expr)} {v : Value}
      {m m₁ m₂ : Machine} (hbefore : YieldsPairs (evalExpr n here) before m m₁)
      (he : evalExpr n here e m₁ = some (v, m₂)) (hv : v.key?.isSome) :
      Part .operand ⟨n + 1, here, .expr (.hash (before ++ (e, e') :: after)), m⟩
        ⟨n, here, .expr e', m₂⟩

/-- The first statement of a block is run from the machine of the block. -/
theorem Part.first {n : Nat} {here : FrameId} {s : Stmt} {after : List Stmt} {m : Machine} :
    Part .inner ⟨n, here, .block (s :: after), m⟩ ⟨n, here, .stmt s, m⟩ :=
  @Part.statement n here [] after s m m (.nil m)

/-! ## What is run before a part -/

/-- Running pieces of code in a frame one after the other leads from one machine to another. -/
def Machine.Runs (here : FrameId) : Machine → Machine → Prop :=
  Relation.ReflTransGen fun m m' => ∃ n code v, Code.eval n here code m = some (v, m')

section Before

variable {n : Nat} {here : FrameId} {m m' : Machine}

theorem Machine.runs_of_eval (code : Code) {v : Value}
    (h : code.eval n here m = some (v, m')) : m.Runs here m' := .single ⟨n, code, v, h⟩

theorem Machine.runs_of_evalExpr {e : Expr} {v : Value} (h : evalExpr n here e m = some (v, m')) :
    m.Runs here m' := runs_of_eval (.expr e) h

theorem Completes.runs {ss : List Stmt} (h : Completes (evalStmt n here) ss m m') :
    m.Runs here m' := by
  induction h with
  | nil m => exact .refl
  | @cons s ss v m m₁ m₂ hs _ _ ih => exact (Machine.runs_of_eval (.stmt s) hs).trans ih

theorem Yields.runs {es : List Expr} {vs : List Value} (h : Yields (evalExpr n here) es m vs m') :
    m.Runs here m' := by
  induction h with
  | nil m => exact .refl
  | cons he _ _ ih => exact (Machine.runs_of_evalExpr he).trans ih

theorem YieldsPairs.runs {pairs : List (Expr × Expr)}
    (h : YieldsPairs (evalExpr n here) pairs m m') : m.Runs here m' := by
  induction h with
  | nil m => exact .refl
  | cons he _ he' _ _ ih =>
    exact ((Machine.runs_of_evalExpr he).trans (Machine.runs_of_evalExpr he')).trans ih

end Before

/-- The task is a call, and it comes to calling `g` with the arguments `vs` in the machine `m'`:
whatever a call does, it is that call that the evaluator goes on with. -/
inductive Task.Calls : Task → Value → List Value → Machine → Prop
  | intro {n : Nat} {here : FrameId} {f : Expr} {arguments : List Expr} {g : Value}
      {vs : List Value} {m m₁ m' : Machine}
      (hf : evalExpr n here f m = some (g, m₁)) (hg : g.isCallable = true)
      (hvs : ∀ k, withValues (evalExpr n here) arguments k m₁ = k vs m') :
      Task.Calls ⟨n + 1, here, .expr (.call f arguments), m⟩ g vs m'

/-- What comes of a task that is a call is what comes of the call that it makes. -/
theorem Task.Calls.run_eq {t : Task} {g : Value} {vs : List Value} {m' : Machine}
    (h : t.Calls g vs m') : ∃ n, t.run = apply n g vs m' := by
  cases h with
  | @intro n here f arguments _ _ m _ _ hf hg hvs =>
    have hcallable : g.isError = false := by
      cases g <;> first | rfl | simp [Value.isCallable] at hg
    refine ⟨n, ?_⟩
    change evalExpr (n + 1) here (.call f arguments) m = _
    rw [evalExpr, andThen_eq hf hcallable, if_pos hg, hvs]
    rfl

theorem Task.Calls.runs {t : Task} {g : Value} {vs : List Value} {m' : Machine}
    (h : t.Calls g vs m') : t.machine.Runs t.frame m' := by
  cases h with
  | intro hf _ hvs =>
    exact (Machine.runs_of_evalExpr hf).trans (yields_of_withValues_eq hvs).runs

/-- A part is run in the frame of the whole after other parts, or it is the body of a function that
the whole calls. -/
theorem Part.runs_or_calls {r : Role} {t u : Task} (h : Part r t u) :
    (u.frame = t.frame ∧ t.machine.Runs t.frame u.machine) ∨
      ∃ id parameters body outer vs m', t.Calls (.function id parameters body outer) vs m' ∧
        enter outer ((parameters.map (·.text)).zip vs) m' = some (u.frame, u.machine) := by
  cases h with
  | statement hbefore => exact .inl ⟨rfl, hbefore.runs⟩
  | round hc => exact .inl ⟨rfl, Machine.runs_of_evalExpr hc⟩
  | @nextRound n here c body _ _ _ _ _ hc _ _ hbody =>
    have hround := Machine.runs_of_eval (.block body) hbody
    exact .inl ⟨rfl, (Machine.runs_of_evalExpr hc).trans hround⟩
  | right hl => exact .inl ⟨rfl, Machine.runs_of_evalExpr hl⟩
  | consequence hc => exact .inl ⟨rfl, Machine.runs_of_evalExpr hc⟩
  | alternative hc => exact .inl ⟨rfl, Machine.runs_of_evalExpr hc⟩
  | argument hf _ hbefore =>
    exact .inl ⟨rfl, (Machine.runs_of_evalExpr hf).trans hbefore.runs⟩
  | call hf hvs _ henter =>
    exact .inr ⟨_, _, _, _, _, _, .intro hf rfl fun k => hvs.withValues_eq k, henter⟩
  | element hbefore => exact .inl ⟨rfl, hbefore.runs⟩
  | position hl => exact .inl ⟨rfl, Machine.runs_of_evalExpr hl⟩
  | key hbefore => exact .inl ⟨rfl, hbefore.runs⟩
  | value hbefore he => exact .inl ⟨rfl, hbefore.runs.trans (Machine.runs_of_evalExpr he)⟩
  | _ => exact .inl ⟨rfl, .refl⟩

/-- Running the first task comes to the second, through parts of these roles. -/
def Task.Reaches (Via : Role → Prop) : Task → Task → Prop :=
  Relation.ReflTransGen fun a b => ∃ r, Via r ∧ Part r a b

/-- Running the task comes to a return whose value is `v`, which is found in the machine `m'`. -/
def Task.Returns (Via : Role → Prop) (a : Task) (v : Value) (m' : Machine) : Prop :=
  ∃ n here e m, a.Reaches Via ⟨n + 1, here, .stmt (.ret e), m⟩ ∧
    evalExpr n here e m = some (v, m') ∧ v.isError = false

end Monkey
