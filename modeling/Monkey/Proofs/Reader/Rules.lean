import Monkey.Proofs.Grammar
import Monkey.Proofs.Reader.Reads

/-!
# What the rules of the grammar read

Each rule of the grammar is a reader, and here is what each reads without a report, in terms of the
readers of expressions and blocks that it is given.

## Main definitions

* `Level.Rests` — that the next token does not go on with an operand at a level.
* `Level.Admits` — that an expression with some grip is read at a level.
-/

namespace Monkey

open Reader

namespace Level

/-- Nothing that a token of this kind begins binds more tightly than the level. -/
def Rests (l : Level) (k : Token.Kind) : Prop := ∀ s, Suffix.ofKind? k = some s → ¬ l < s.level

/-- An expression that is read at level `l` may have the grip `p`: it is no operator between two
operands, or one that binds more tightly. -/
def Admits (l p : Level) : Prop := l < p ∨ .unary ≤ p

variable {l p q : Level} {k : Token.Kind}

theorem Rests.mono (h : l.Rests k) (hle : l ≤ p) : p.Rests k := by
  intro s hs hlt
  refine h s hs (lt_iff.mpr ?_)
  rw [le_iff] at hle
  rw [lt_iff] at hlt
  omega

@[simp] theorem rests_index : Level.index.Rests k := by
  intro s _
  cases s with
  | operator op => cases op <;> decide
  | call => decide
  | index => decide

theorem rests_lowest : Level.lowest.Rests k ↔ Suffix.ofKind? k = none := by
  constructor
  · intro h
    cases hs : Suffix.ofKind? k with
    | none => rfl
    | some s => exact absurd s.lowest_lt_level (h s hs)
  · intro h s hs
    simp [h] at hs

@[simp] theorem admits_index : l.Admits .index := .inr (by decide)

/-- At the level of an operator between two operands no looser or equal one is read. -/
theorem admits_operator {op : BinaryOp} : op.level.Admits p ↔ op.level < p := by
  have hop : op.level < .unary := by cases op <;> decide
  simp only [Admits, lt_iff, le_iff] at hop ⊢
  omega

@[simp] theorem admits_unary_left : Level.unary.Admits p ↔ .unary ≤ p := by
  simp only [Admits, lt_iff, le_iff]
  omega

end Level

/-! ## Signs after an operand -/

namespace Suffix

variable {k : Token.Kind} {op : BinaryOp}

theorem ofKind?_eq_some_operator : ofKind? k = some (.operator op) ↔ k = .symbol op.symbol := by
  cases k with
  | symbol s => cases s <;> cases op <;> decide
  | _ => simp [ofKind?]

theorem ofKind?_eq_some_call : ofKind? k = some .call ↔ k = .symbol .leftParen := by
  cases k with
  | symbol s => cases s <;> decide
  | _ => simp [ofKind?]

theorem ofKind?_eq_some_index : ofKind? k = some .index ↔ k = .symbol .leftBracket := by
  cases k with
  | symbol s => cases s <;> decide
  | _ => simp [ofKind?]

end Suffix

variable {expr : Level → Reader Expr} {statements : Reader Block} {c rest : Cursor} {e : Expr}

/-! ## Parts of expressions -/

theorem reads_integerOf {t : Token} :
    Reads (integerOf t) c e rest ↔
      ∃ v, Text.Decimal.toInt64? t.lexeme = some v ∧ e = .integer v ∧ rest = c := by
  unfold integerOf
  cases Text.Decimal.toInt64? t.lexeme <;> simp

/-- An item is read between two symbols. -/
def ReadsEnclosed {α : Type} (opening closing : Symbol) (p : Reader α) (c : Cursor) (a : α)
    (rest : Cursor) : Prop :=
  ∃ (t u : Token) (first last : Cursor), t.kind = .symbol opening ∧ c.Passes [t] first ∧
    Reads p first a last ∧ u.kind = .symbol closing ∧ last.Passes [u] rest

theorem reads_condition :
    Reads (condition expr) c e rest ↔
      ReadsEnclosed .leftParen .rightParen (expr .lowest) c e rest := by
  simp only [condition, reads_bind, reads_expect_symbol, reads_pure, ReadsEnclosed]
  constructor
  · rintro ⟨t, first, ⟨ht, hpass⟩, _, last, he, u, _, ⟨hu, hpass'⟩, rfl, rfl⟩
    exact ⟨t, u, first, last, ht, hpass, he, hu, hpass'⟩
  · rintro ⟨t, u, first, last, ht, hpass, he, hu, hpass'⟩
    exact ⟨t, first, ⟨ht, hpass⟩, e, last, he, u, rest, ⟨hu, hpass'⟩, rfl, rfl⟩

theorem reads_braced {b : Block} :
    Reads (braced statements) c b rest ↔
      ∃ (t : Token) (first : Cursor),
        t.kind = .symbol .leftBrace ∧ c.Passes [t] first ∧ Reads statements first b rest := by
  simp only [braced, reads_bind, reads_expect_symbol, and_assoc]

theorem reads_conditionalRest :
    Reads (conditionalRest expr statements) c e rest ↔
      ∃ (test : Expr) (yes : Block) (c₁ c₂ : Cursor), Reads (condition expr) c test c₁ ∧
        Reads (braced statements) c₁ yes c₂ ∧
        ((c₂.kind ≠ .keyword .elseWord ∧ e = .conditional test yes none ∧ rest = c₂) ∨
          ∃ no, c₂.kind = .keyword .elseWord ∧ e = .conditional test yes (some no) ∧
            Reads (braced statements) c₂.next no rest) := by
  simp only [conditionalRest, reads_bind, reads_peek]
  constructor
  · rintro ⟨test, c₁, htest, yes, _, hyes, _, c₂, ⟨rfl, rfl⟩, h⟩
    refine ⟨test, yes, c₁, c₂, htest, hyes, ?_⟩
    split at h
    · next helse =>
      simp only [reads_bind, reads_take, reads_pure] at h
      obtain ⟨_, _, ⟨rfl, rfl⟩, no, _, hno, rfl, rfl⟩ := h
      exact .inr ⟨no, helse, rfl, hno⟩
    · next helse =>
      obtain ⟨rfl, rfl⟩ := reads_pure.mp h
      exact .inl ⟨helse, rfl, rfl⟩
  · rintro ⟨test, yes, c₁, c₂, htest, hyes, h⟩
    refine ⟨test, c₁, htest, yes, c₂, hyes, c₂.head, c₂, ⟨rfl, rfl⟩, ?_⟩
    rcases h with ⟨helse, rfl, rfl⟩ | ⟨no, helse, rfl, hno⟩
    · rw [if_neg (show ¬ rest.head.kind = .keyword .elseWord from helse)]
      exact reads_pure.mpr ⟨rfl, rfl⟩
    · rw [if_pos (show c₂.head.kind = .keyword .elseWord from helse)]
      simp only [reads_bind, reads_take, reads_pure]
      exact ⟨_, _, ⟨rfl, rfl⟩, no, rest, hno, rfl, rfl⟩

theorem reads_functionRest {n : Nat} :
    Reads (functionRest statements n) c e rest ↔
      ∃ (t : Token) (parameters : List Token) (body : Block) (c₁ c₂ : Cursor),
        t.kind = .symbol .leftParen ∧ c.Passes [t] c₁ ∧
        Reads (commaList .rightParen (expect .identifier) n) c₁ parameters c₂ ∧
        Reads (braced statements) c₂ body rest ∧
        e = .function (parameters.map Name.ofToken) body := by
  simp only [functionRest, reads_bind, reads_expect_symbol, reads_pure]
  constructor
  · rintro ⟨t, c₁, ⟨ht, hpass⟩, parameters, c₂, hps, body, _, hbody, rfl, rfl⟩
    exact ⟨t, parameters, body, c₁, c₂, ht, hpass, hps, hbody, rfl⟩
  · rintro ⟨t, parameters, body, c₁, c₂, ht, hpass, hps, hbody, rfl⟩
    exact ⟨t, c₁, ⟨ht, hpass⟩, parameters, c₂, hps, body, rest, hbody, rfl, rfl⟩

theorem reads_keyAndValue {kv : Expr × Expr} :
    Reads (keyAndValue expr) c kv rest ↔
      ∃ (t : Token) (c₁ c₂ : Cursor), Reads (expr .lowest) c kv.1 c₁ ∧
        t.kind = .symbol .colon ∧ c₁.Passes [t] c₂ ∧ Reads (expr .lowest) c₂ kv.2 rest := by
  simp only [keyAndValue, reads_bind, reads_expect_symbol, reads_pure]
  constructor
  · rintro ⟨k, c₁, hk, t, c₂, ⟨ht, hpass⟩, v, _, hv, rfl, rfl⟩
    exact ⟨t, c₁, c₂, hk, ht, hpass, hv⟩
  · rintro ⟨t, c₁, c₂, hk, ht, hpass, hv⟩
    exact ⟨kv.1, c₁, hk, t, c₂, ⟨ht, hpass⟩, kv.2, rest, hv, rfl, rfl⟩

/-! ## Operands and what follows them -/

theorem reads_suffixes_succ {n k : Nat} {level : Level} {left : Expr} :
    Reads (suffixes expr n level (k + 1) left) c e rest ↔
      (level.Rests c.kind ∧ e = left ∧ rest = c) ∨
      ∃ (s : Suffix) (longer : Expr) (mid : Cursor), Suffix.ofKind? c.kind = some s ∧
        level < s.level ∧ Reads (extend expr n left s) c.next longer mid ∧
        Reads (suffixes expr n level k longer) mid e rest := by
  simp only [suffixes, reads_bind, reads_peek]
  constructor
  · rintro ⟨_, _, ⟨rfl, rfl⟩, h⟩
    split at h
    · next hs =>
      obtain ⟨rfl, rfl⟩ := reads_pure.mp h
      exact .inl ⟨fun s hs' => by simp [Cursor.kind, hs] at hs', rfl, rfl⟩
    · next s hs =>
      split at h
      · next hlt =>
        simp only [reads_bind, reads_take] at h
        obtain ⟨_, _, ⟨rfl, rfl⟩, longer, mid, hlonger, hrest⟩ := h
        exact .inr ⟨s, longer, mid, hs, hlt, hlonger, hrest⟩
      · next hlt =>
        obtain ⟨rfl, rfl⟩ := reads_pure.mp h
        refine .inl ⟨fun s' hs' => ?_, rfl, rfl⟩
        obtain rfl : s = s' := Option.some.inj (hs.symm.trans hs')
        exact hlt
  · rintro (⟨hrests, rfl, rfl⟩ | ⟨s, longer, mid, hs, hlt, hlonger, hrest⟩)
    · refine ⟨rest.head, rest, ⟨rfl, rfl⟩, ?_⟩
      split
      · exact reads_pure.mpr ⟨rfl, rfl⟩
      · next s hs =>
        rw [if_neg (hrests s hs)]
        exact reads_pure.mpr ⟨rfl, rfl⟩
    · refine ⟨c.head, c, ⟨rfl, rfl⟩, ?_⟩
      split
      · next hs' => exact absurd (hs'.symm.trans hs) (by simp)
      · next s' hs' =>
        obtain rfl : s' = s := Option.some.inj (hs'.symm.trans hs)
        rw [if_pos hlt]
        simp only [reads_bind, reads_take]
        exact ⟨_, _, ⟨rfl, rfl⟩, longer, mid, hlonger, hrest⟩

theorem reads_expression_succ {n : Nat} {level : Level} :
    Reads (expression (n + 1) level) c e rest ↔
      ∃ left mid, Reads (operand (expression n)
          (itemsUntil .rightBrace (recover (statement n)) n) n) c left mid ∧
        Reads (suffixes (expression n) n level n left) mid e rest := by
  simp only [expression, reads_bind]

/-! ## Statements -/

theorem reads_statement_succ {n : Nat} {s : Stmt} :
    Reads (statement (n + 1)) c s rest ↔
      ∃ mid, Reads (statementBody (expression n)
          (itemsUntil .rightBrace (recover (statement n)) n)) c s mid ∧
        ((∃ t : Token, t.kind = .symbol .semicolon ∧ mid.Passes [t] rest) ∨
          (mid.kind ≠ .symbol .semicolon ∧ rest = mid)) := by
  simp only [statement, reads_bind, reads_pure]
  constructor
  · rintro ⟨_, mid, hs, ended, _, hskip, rfl, rfl⟩
    refine ⟨mid, hs, ?_⟩
    cases ended with
    | true => exact .inl (reads_skip_true.mp hskip)
    | false => exact .inr (reads_skip_false.mp hskip)
  · rintro ⟨mid, hs, hskip | hskip⟩
    · exact ⟨s, mid, hs, true, rest, reads_skip_true.mpr hskip, rfl, rfl⟩
    · exact ⟨s, mid, hs, false, rest, reads_skip_false.mpr hskip, rfl, rfl⟩

end Monkey
