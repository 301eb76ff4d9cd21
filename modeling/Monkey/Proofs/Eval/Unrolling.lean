import Monkey.Proofs.Eval.LastAct
import Monkey.Proofs.Eval.Steps

/-!
# Loops unroll

A loop does what a conditional does with the same test, whose block is the body of the loop with the
loop itself after it. With a number of steps that allows for the two layers of the conditional, the
two are one evaluation, so they agree wherever a loop ends and also where none does.

A loop ends in its last round: its test fails or is an error, or its body stops. Before that come
rounds in which the test holds and the body is run to its end.

## Main definitions

* `Stmt.unrolled` — the conditional that a loop unrolls to.
* `Machine.Rounds` — rounds of a loop that are followed by another one.
* `LastRound` — how a loop ends.
-/

namespace Monkey

open Eval

/-! ## One step of unrolling -/

/-- The conditional that a loop unrolls to: the loop stands after its own body. -/
def Stmt.unrolled (c : Expr) (body : Block) : Stmt :=
  .expression (.conditional c (body ++ [.loop c body]) none)

/-- A statement after others is run if none of them stops, and its value is that of them all. -/
theorem Eval.sequence_concat (exec : Stmt → Eval Value) (ss : List Stmt) (s : Stmt) {last : Value}
    (hlast : last.stops = false) :
    sequence exec last (ss ++ [s]) =
      (sequence exec last ss >>= fun v => if v.stops then pure v else exec s) := by
  induction ss generalizing last with
  | nil => simp [sequence, hlast]
  | cons t ss ih =>
    simp only [List.cons_append, sequence, bind_assoc]
    congr 1
    funext v
    by_cases hv : v.stops = true
    · simp [hv]
    · simp only [hv, Bool.false_eq_true, if_false]
      exact ih (Bool.eq_false_iff.mpr hv)

/-- The conditional takes one step more than the loop, and is the same evaluation. -/
theorem evalStmt_unrolled (n : Nat) (here : FrameId) (c : Expr) (body : Block) :
    evalStmt (n + 2) here (.unrolled c body) = evalStmt (n + 1) here (.loop c body) := by
  rw [Stmt.unrolled, evalStmt, evalExpr, evalStmt]
  have hnull : Value.null.stops = false := rfl
  simp only [sequence_concat (evalStmt n here) body (.loop c body) hnull]

/-- Both come to the same, or neither comes to anything. -/
theorem Code.loop_comesTo_iff {c : Expr} {body : Block} {here : FrameId} {m m' : Machine}
    {v : Value} :
    (Code.stmt (.loop c body)).ComesTo here m v m' ↔
      (Code.stmt (.unrolled c body)).ComesTo here m v m' := by
  constructor
  · rintro ⟨n, hn⟩
    cases n with
    | zero => cases hn
    | succ n => exact ⟨n + 2, by rw [eval, evalStmt_unrolled]; exact hn⟩
  · rintro ⟨n, hn⟩
    match n with
    | 0 | 1 => cases hn
    | n + 2 => exact ⟨n + 1, by rw [eval, ← evalStmt_unrolled]; exact hn⟩

/-! ## The rounds of a loop -/

section Rounds

variable {n : Nat} {here : FrameId} {c : Expr} {body : Block} {m m' m₁ m₂ : Machine} {v : Value}

/-- The test of a loop comes to a value that is no error, and it holds or fails. -/
def Machine.Tests (here : FrameId) (c : Expr) (holds : Bool) (m m₁ : Machine) : Prop :=
  ∃ test, (Code.expr c).ComesTo here m test m₁ ∧ test.isError = false ∧ test.isTruthy = holds

/-- Rounds of a loop lead from one machine to another: in each the test holds, and the body is run
to its end. -/
inductive Machine.Rounds (here : FrameId) (c : Expr) (body : Block) : Machine → Machine → Prop
  | none (m : Machine) : Rounds here c body m m
  | round {m m₁ m₂ m' : Machine} {v : Value} (htest : m.Tests here c true m₁)
      (hbody : (Code.block body).ComesTo here m₁ v m₂) (hv : v.stops = false)
      (h : Rounds here c body m₂ m') : Rounds here c body m m'

/-- What the last round of a loop comes to. -/
inductive LastRound (here : FrameId) (c : Expr) (body : Block) (m : Machine) :
    Value → Machine → Prop
  | error {v : Value} {m' : Machine} (htest : (Code.expr c).ComesTo here m v m')
      (hv : v.isError = true) : LastRound here c body m v m'
  | failed {m' : Machine} (htest : m.Tests here c false m') : LastRound here c body m .null m'
  | stopped {v : Value} {m₁ m' : Machine} (htest : m.Tests here c true m₁)
      (hbody : (Code.block body).ComesTo here m₁ v m') (hv : v.stops = true) :
      LastRound here c body m v m'

/-- A loop that ends does so in a last round, after some rounds. The induction is on the steps, of
which each round takes one from the next. -/
theorem exists_rounds_of_loop (h : evalStmt n here (.loop c body) m = some (v, m')) :
    ∃ m₀, Machine.Rounds here c body m m₀ ∧ LastRound here c body m₀ v m' := by
  induction n generalizing m with
  | zero => cases h
  | succ n ih =>
    rw [evalStmt] at h
    rcases exists_of_andThen h with ⟨hc, herror⟩ | ⟨test, m₁, hc, herror, h⟩
    · exact ⟨m, .none m, .error ⟨n, hc⟩ herror⟩
    by_cases htest : test.isTruthy = true
    · have hholds : m.Tests here c true m₁ := ⟨test, ⟨n, hc⟩, herror, htest⟩
      rw [if_pos htest] at h
      obtain ⟨a, m₂, hbody, h⟩ := bind_eq_some_iff.mp h
      have hcomes : (Code.block body).ComesTo here m₁ a m₂ := ⟨n, hbody⟩
      by_cases ha : a.stops = true
      · rw [if_pos ha] at h
        obtain ⟨rfl, rfl⟩ := Prod.mk.inj (Option.some.inj h)
        exact ⟨m, .none m, .stopped hholds hcomes ha⟩
      · rw [if_neg ha] at h
        obtain ⟨m₀, hrounds, hlast⟩ := ih h
        exact ⟨m₀, .round hholds hcomes (Bool.eq_false_iff.mpr ha) hrounds, hlast⟩
    · rw [if_neg htest] at h
      obtain ⟨rfl, rfl⟩ := Prod.mk.inj (Option.some.inj h)
      exact ⟨m, .none m, .failed ⟨test, ⟨n, hc⟩, herror, Bool.eq_false_iff.mpr htest⟩⟩

theorem Value.stops_iff : v.stops = true ↔ v.isError = true ∨ ∃ w, v = .returned w := by
  cases v <;> simp [stops, isError]

/-- The last round comes to null or to an error, or to a return that its body comes to. -/
theorem LastRound.cases_value (h : LastRound here c body m v m') :
    v = .null ∨ v.isError = true ∨ (∃ w, v = .returned w) ∧
      ∃ m₁, m.Tests here c true m₁ ∧ (Code.block body).ComesTo here m₁ v m' := by
  cases h with
  | error _ hv => exact .inr (.inl hv)
  | failed => exact .inl rfl
  | stopped htest hbody hv =>
    rcases Value.stops_iff.mp hv with herror | hreturned
    · exact .inr (.inl herror)
    · exact .inr (.inr ⟨hreturned, _, htest, hbody⟩)

end Rounds

/-- A loop and the conditional that it unrolls to come to the same value, the same output and the
same frames, or neither comes to an end. What a loop comes to is null, an error, or a return that
its body comes to in the last round. -/
theorem Stmt.loop_comesTo_iff_unrolled (c : Expr) (body : Block) (here : FrameId) (m : Machine) :
    (∀ v m', (Code.stmt (.loop c body)).ComesTo here m v m' ↔
      (Code.stmt (.unrolled c body)).ComesTo here m v m') ∧
    (∀ v w m₁ m₂, (Code.stmt (.loop c body)).ComesTo here m v m₁ →
      (Code.stmt (.unrolled c body)).ComesTo here m w m₂ → v = w ∧ m₁ = m₂) ∧
    ∀ v m', (Code.stmt (.loop c body)).ComesTo here m v m' →
      v = .null ∨ v.isError = true ∨ (∃ w, v = .returned w) ∧
        ∃ m₀ m₁, Machine.Rounds here c body m m₀ ∧ m₀.Tests here c true m₁ ∧
          (Code.block body).ComesTo here m₁ v m' := by
  refine ⟨fun v m' => Code.loop_comesTo_iff, ?_, ?_⟩
  · intro v w m₁ m₂ hloop hunrolled
    exact hloop.unique (Code.loop_comesTo_iff.mpr hunrolled)
  · rintro v m' ⟨n, hn⟩
    obtain ⟨m₀, hrounds, hlast⟩ := exists_rounds_of_loop hn
    rcases hlast.cases_value with hnull | herror | ⟨hreturned, m₁, htest, hbody⟩
    · exact .inl hnull
    · exact .inr (.inl herror)
    · exact .inr (.inr ⟨hreturned, m₀, m₁, hrounds, htest, hbody⟩)

end Monkey
