import Monkey.Proofs.Grammar.Completeness
import Monkey.Proofs.Reader.Resumption

/-!
# Where reading gives up

A reader gives up at the first cause, and so does what it is a part of, if what was read before it
was read without a report. A program goes on after a statement that was given up, but the cause is
then the first thing that is reported of it.

## Main definitions

* `Reader.GivesUp` — to fail for a cause with nothing reported before it.
-/

namespace Monkey

open Reader

namespace Reader

variable {α β : Type} {c mid : Cursor} {d : Diagnostic} {p : Reader α} {f : α → Reader β}

/-- The reader fails for the cause `d`, and nothing was dropped before. -/
def GivesUp (p : Reader α) (c : Cursor) (d : Diagnostic) : Prop :=
  ∃ rest, p c = .failed d rest []

theorem givesUp_fail (cause : Diagnostic.Cause) (t : Token) :
    GivesUp (fail cause t : Reader α) c ⟨cause, t.span⟩ := ⟨c, rfl⟩

theorem GivesUp.bind (h : GivesUp p c d) (f : α → Reader β) : GivesUp (p >>= f) c d := by
  obtain ⟨rest, h⟩ := h
  exact ⟨rest, by rw [bind_apply, h]⟩

/-- What is done after a part that is read gives up if the other part does. -/
theorem Reads.bind_givesUp {a : α} (h : Reads p c a mid) (hf : GivesUp (f a) mid d) :
    GivesUp (p >>= f) c d := by
  obtain ⟨rest, hf⟩ := hf
  unfold Reads at h
  refine ⟨rest, ?_⟩
  rw [bind_apply, h]
  change (f a mid).after [] = _
  rw [hf]
  rfl

theorem GivesUp.map (h : GivesUp p c d) (g : α → β) : GivesUp (g <$> p) c d := by
  rw [← bind_pure_comp]
  exact h.bind _

theorem GivesUp.recover (h : GivesUp p c d) : ∃ rest, recover p c = .done none rest [d] := by
  obtain ⟨rest, h⟩ := h
  exact ⟨rest, by rw [Reader.recover, h]; rfl⟩

end Reader

/-! ## Expressions -/

variable {n k : Nat} {l : Level} {c mid : Cursor} {d : Diagnostic} {t : Token} {left : Expr}

/-- No operand is read where an integer is no numeral of 64 bits. -/
theorem givesUp_operand_integer (hkind : c.head.kind = .integer)
    (hvalue : Text.Decimal.toInt64? c.head.lexeme = none) :
    GivesUp (operand (expression n) (block n) n) c
      ⟨.notAnInteger c.head.lexeme, c.head.span⟩ := by
  refine Reads.bind_givesUp (reads_take.mpr ⟨rfl, rfl⟩) ?_
  rw [hkind]
  change GivesUp (integerOf c.head) _ _
  rw [integerOf, hvalue]
  exact givesUp_fail _ _

theorem givesUp_operand_unary {op : UnaryOp} (hkind : c.head.kind = .symbol op.symbol)
    (h : GivesUp (expression n .unary) c.next d) :
    GivesUp (operand (expression n) (block n) n) c d := by
  refine Reads.bind_givesUp (reads_take.mpr ⟨rfl, rfl⟩) ?_
  rw [hkind]
  cases op <;> exact h.map _

theorem givesUp_expression (h : GivesUp (operand (expression n) (block n) n) c d) :
    GivesUp (expression (n + 1) l) c d := by
  rw [expression]
  exact h.bind _

/-- An operator takes up an operand, and then its other operand is given up. -/
theorem givesUp_expression_of_right {op : BinaryOp}
    (hleft : Reads (operand (expression n) (block n) n) c left mid)
    (hop : mid.kind = .symbol op.symbol) (hlevel : l < op.level) (hn : n ≠ 0)
    (h : GivesUp (expression n op.level) mid.next d) : GivesUp (expression (n + 1) l) c d := by
  obtain ⟨k, rfl⟩ := Nat.exists_eq_succ_of_ne_zero hn
  have hsuffix : Suffix.ofKind? mid.head.kind = some (.operator op) :=
    Suffix.ofKind?_eq_some_operator.mpr hop
  rw [expression]
  refine hleft.bind_givesUp ?_
  rw [suffixes]
  refine Reads.bind_givesUp (reads_peek.mpr ⟨rfl, rfl⟩) ?_
  rw [hsuffix]
  change GivesUp (if l < op.level then _ else _) _ _
  rw [if_pos hlevel]
  exact Reads.bind_givesUp (reads_take.mpr ⟨rfl, rfl⟩) ((h.map _).bind _)

/-! ## Programs -/

theorem givesUp_statement (hopens : c.head.kind.opensExpr)
    (h : GivesUp (expression n .lowest) c d) : GivesUp (statement (n + 1)) c d := by
  rw [statement]
  refine GivesUp.bind (Reads.bind_givesUp (reads_peek.mpr ⟨rfl, rfl⟩) ?_) _
  split
  · next hkind => simp [hkind, Token.Kind.opensExpr] at hopens
  · next hkind => simp [hkind, Token.Kind.opensExpr] at hopens
  · next hkind => simp [hkind, Token.Kind.opensExpr] at hopens
  · exact h.map _

/-- If the first statement of a text is given up, then its cause is reported first. -/
theorem Program.ofTokens_of_givesUp {tokens : List Token}
    (hkind : (Cursor.ofTokens tokens).kind ≠ .endOfInput)
    (h : GivesUp (statement (budget (Cursor.ofTokens tokens))) (Cursor.ofTokens tokens) d) :
    ∃ p ds, ofTokens tokens = (p, d :: ds) := by
  have hne := read_ne_exhausted (Cursor.ofTokens tokens)
  obtain ⟨n, hn⟩ : ∃ n, budget (Cursor.ofTokens tokens) = n + 1 := ⟨_, by rw [budget]; rfl⟩
  unfold ofTokens read
  split
  · next p rest reports hdone =>
    rw [hn, itemsUntilEnd_eq_done_iff hkind, ← hn] at hdone
    obtain ⟨first, mid, us, vs, later, hfirst, -, -, rfl⟩ := hdone
    obtain ⟨rest', hrecover⟩ := h.recover
    rw [hrecover] at hfirst
    cases hfirst
    exact ⟨p, vs, rfl⟩
  · next hfailed => exact absurd hfailed itemsUntilEnd_ne_failed
  · next hexhausted => exact absurd hexhausted hne

end Monkey
