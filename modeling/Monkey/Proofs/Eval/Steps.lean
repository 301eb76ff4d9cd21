import Monkey.Proofs.Eval.Scope

/-!
# The number of steps

The number of steps bounds an evaluation and has no other influence: one that comes to an end comes
to the same end with any larger number. So whether a program ends, and how, can be said without a
number of steps.

## Main definitions

* `Eval.Outlasts` — that an evaluation ends wherever another one does, and alike.
* `Code.ComesTo` — what a piece of code comes to, whatever number of steps it takes.
-/

namespace Monkey

open Eval

namespace Eval

variable {α β : Type}

/-- Wherever the second evaluation ends, the first ends as well, and alike. -/
def Outlasts (y x : Eval α) : Prop := ∀ ⦃m p⦄, x m = some p → y m = some p

theorem Outlasts.refl (x : Eval α) : x.Outlasts x := fun _ _ h => h

theorem outlasts_outOfSteps (y : Eval α) : y.Outlasts outOfSteps := by
  intro m p h
  simp [outOfSteps] at h

theorem Outlasts.bind {x y : Eval α} {k l : α → Eval β} (hx : y.Outlasts x)
    (hk : ∀ a, (l a).Outlasts (k a)) : (y >>= l).Outlasts (x >>= k) := by
  rintro m ⟨b, m'⟩ h
  obtain ⟨a, mid, hfirst, hsecond⟩ := bind_eq_some_iff.mp h
  exact bind_eq_some_iff.mpr ⟨a, mid, hx hfirst, hk a hsecond⟩

theorem Outlasts.andThen {x y : Eval Value} {k l : Value → Eval Value} (hx : y.Outlasts x)
    (hk : ∀ v, (l v).Outlasts (k v)) : (andThen y l).Outlasts (andThen x k) := by
  refine hx.bind fun v => ?_
  split
  · exact .refl _
  · exact hk v

theorem outlasts_withValues {run run' : Expr → Eval Value} {es : List Expr}
    {k l : List Value → Eval Value} (hrun : ∀ e, (run' e).Outlasts (run e))
    (hk : ∀ vs, (l vs).Outlasts (k vs)) :
    (withValues run' es l).Outlasts (withValues run es k) := by
  induction es generalizing k l with
  | nil => exact hk []
  | cons e es ih => exact (hrun e).andThen fun v => ih fun vs => hk (v :: vs)

theorem outlasts_withEntries {run run' : Expr → Eval Value} {pairs : List (Expr × Expr)}
    {entries : Entries Value} {k : Entries Value → Eval Value}
    (hrun : ∀ e, (run' e).Outlasts (run e)) :
    (withEntries run' entries pairs k).Outlasts (withEntries run entries pairs k) := by
  induction pairs generalizing entries with
  | nil => exact .refl _
  | cons p pairs ih =>
    refine (hrun p.1).andThen fun v => ?_
    split
    · exact .refl _
    · exact (hrun p.2).andThen fun w => ih

theorem outlasts_sequence {run run' : Stmt → Eval Value} {ss : List Stmt} {last : Value}
    (hrun : ∀ s, (run' s).Outlasts (run s)) :
    (sequence run' last ss).Outlasts (sequence run last ss) := by
  induction ss generalizing last with
  | nil => exact .refl _
  | cons s ss ih =>
    refine (hrun s).bind fun v => ?_
    split
    · exact .refl _
    · exact ih

theorem outlasts_applyWith {run run' : FrameId → Block → Eval Value}
    (hrun : ∀ here body, (run' here body).Outlasts (run here body)) (f : Value)
    (arguments : List Value) :
    (applyWith run' f arguments).Outlasts (applyWith run f arguments) := by
  cases f with
  | function id parameters body frame =>
    rw [applyWith, applyWith]
    split
    · exact (Outlasts.refl _).bind fun inner => (hrun inner body).bind fun v => .refl _
    · exact .refl _
  | _ => exact .refl _

/-- With a larger number of steps every text is evaluated alike. The induction is on the smaller
number. -/
theorem outlasts_evalExpr_evalStmt (n : Nat) :
    (∀ k, n ≤ k → ∀ here e, (evalExpr k here e).Outlasts (evalExpr n here e)) ∧
      ∀ k, n ≤ k → ∀ here s, (evalStmt k here s).Outlasts (evalStmt n here s) := by
  induction n with
  | zero =>
    exact ⟨fun _ _ _ _ => outlasts_outOfSteps _, fun _ _ _ _ => outlasts_outOfSteps _⟩
  | succ n ih =>
    constructor
    · intro k hle here e
      obtain ⟨k, rfl⟩ := Nat.exists_eq_succ_of_ne_zero (Nat.ne_zero_of_lt hle)
      have hle' := Nat.le_of_succ_le_succ hle
      have hexpr := ih.1 k hle'
      have block (here : FrameId) (body : Block) :
          (sequence (evalStmt k here) .null body).Outlasts
            (sequence (evalStmt n here) .null body) :=
        outlasts_sequence (ih.2 k hle' here)
      rw [evalExpr.eq_def, evalExpr.eq_def]
      cases e with
      | unary op e => exact (hexpr here e).andThen fun v => .refl _
      | binary op l r =>
        exact (hexpr here l).andThen fun a => (hexpr here r).andThen fun b => .refl _
      | conditional c yes no =>
        refine (hexpr here c).andThen fun test => ?_
        split
        · exact block here yes
        · cases no with
          | none => exact .refl _
          | some no => exact block here no
      | call f arguments =>
        refine (hexpr here f).andThen fun f => ?_
        split
        · exact outlasts_withValues (hexpr here) (outlasts_applyWith block f)
        · exact .refl _
      | array elements => exact outlasts_withValues (hexpr here) fun vs => .refl _
      | index l i => exact (hexpr here l).andThen fun a => (hexpr here i).andThen fun b => .refl _
      | hash pairs => exact outlasts_withEntries (hexpr here)
      | _ => exact .refl _
    · intro k hle here s
      obtain ⟨k, rfl⟩ := Nat.exists_eq_succ_of_ne_zero (Nat.ne_zero_of_lt hle)
      have hle' := Nat.le_of_succ_le_succ hle
      have hexpr := ih.1 k hle' here
      rw [evalStmt.eq_def, evalStmt.eq_def]
      cases s with
      | binding x e => exact (hexpr e).andThen fun v => .refl _
      | ret e => exact (hexpr e).andThen fun v => .refl _
      | expression e => exact hexpr e
      | loop c body =>
        refine (hexpr c).andThen fun test => ?_
        split
        · refine (outlasts_sequence (ih.2 k hle' here)).bind fun v => ?_
          split
          · exact .refl _
          · exact ih.2 k hle' here (.loop c body)
        · exact .refl _

theorem outlasts_evalBlock {n k : Nat} (hle : n ≤ k) (here : FrameId) (body : Block) :
    (evalBlock k here body).Outlasts (evalBlock n here body) :=
  outlasts_sequence ((outlasts_evalExpr_evalStmt n).2 k hle here)

theorem outlasts_apply {n k : Nat} (hle : n ≤ k) (f : Value) (arguments : List Value) :
    (apply k f arguments).Outlasts (apply n f arguments) :=
  outlasts_applyWith (outlasts_evalBlock hle) f arguments

end Eval

/-! ## Without a number of steps -/

namespace Code

/-- With enough steps the code comes to the value `v` and leaves the machine `m'`. -/
def ComesTo (code : Code) (here : FrameId) (m : Machine) (v : Value) (m' : Machine) : Prop :=
  ∃ n, code.eval n here m = some (v, m')

theorem outlasts_eval {n k : Nat} (hle : n ≤ k) (here : FrameId) (code : Code) :
    (code.eval k here).Outlasts (code.eval n here) := by
  cases code with
  | expr e => exact (outlasts_evalExpr_evalStmt n).1 k hle here e
  | stmt s => exact (outlasts_evalExpr_evalStmt n).2 k hle here s
  | block body => exact outlasts_evalBlock hle here body
  | program p => exact (outlasts_evalBlock hle here p).bind fun v => .refl _

variable {code : Code} {here : FrameId} {m m₁ m₂ : Machine} {v w : Value}

/-- What code comes to with some number of steps it comes to with all larger ones. -/
theorem ComesTo.exists_forall_le (h : code.ComesTo here m v m₁) :
    ∃ n, ∀ k, n ≤ k → code.eval k here m = some (v, m₁) := by
  obtain ⟨n, hn⟩ := h
  exact ⟨n, fun k hle => outlasts_eval hle here code hn⟩

/-- Code comes to one value in one machine, if it comes to any. -/
theorem ComesTo.unique (h : code.ComesTo here m v m₁) (h' : code.ComesTo here m w m₂) :
    v = w ∧ m₁ = m₂ := by
  obtain ⟨n, hn⟩ := h.exists_forall_le
  obtain ⟨n', hn'⟩ := h'.exists_forall_le
  have heq := (hn _ (Nat.le_max_left n n')).symm.trans (hn' _ (Nat.le_max_right n n'))
  exact Prod.mk.inj (Option.some.inj heq)

end Code

end Monkey
