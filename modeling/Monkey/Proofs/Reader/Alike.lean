import Monkey.Syntax.OfTokens

/-!
# Readers that do alike

What a reader does from a cursor depends only on the tokens that the cursor shows from there on, and
a larger budget changes nothing but an answer that was not given. Both are said by one relation: one
reader follows another if from cursors that show the same it comes to the same outcome, or has spent
its budget.

## Main definitions

* `Cursor.Shows` — a relation of cursors that show the same tokens.
* `Outcome.Alike`, `Reader.Follows` — that outcomes are alike, and readers from related cursors on.
-/

namespace Monkey

/-- Related cursors show the same token, and so they do one token further on. -/
structure Cursor.Shows (R : Cursor → Cursor → Prop) : Prop where
  head : ∀ ⦃c d⦄, R c d → c.head = d.head
  next : ∀ ⦃c d⦄, R c d → R c.next d.next

theorem Cursor.shows_eq : Shows Eq where
  head := by
    rintro c _ rfl
    rfl
  next := by
    rintro c _ rfl
    rfl

/-- The first outcome is that of a spent budget, or the outcomes are the same and the cursors that
they leave are related. -/
inductive Outcome.Alike {α : Type} (R : Cursor → Cursor → Prop) : Outcome α → Outcome α → Prop
  | done {a : α} {c d : Cursor} {reports : List Diagnostic} (h : R c d) :
      Alike R (.done a c reports) (.done a d reports)
  | failed {cause : Diagnostic} {c d : Cursor} {reports : List Diagnostic} (h : R c d) :
      Alike R (.failed cause c reports) (.failed cause d reports)
  | exhausted {o : Outcome α} : Alike R .exhausted o

theorem Outcome.Alike.after {α : Type} {R : Cursor → Cursor → Prop} {o o' : Outcome α}
    (h : o.Alike R o') (reports : List Diagnostic) :
    (o.after reports).Alike R (o'.after reports) := by
  cases h with
  | done h => exact .done h
  | failed h => exact .failed h
  | exhausted => exact .exhausted

namespace Reader

variable {α β : Type} {R : Cursor → Cursor → Prop}

/-- From related cursors on, the first reader does as the second, or spends its budget. -/
def Follows (R : Cursor → Cursor → Prop) (p q : Reader α) : Prop :=
  ∀ ⦃c d⦄, R c d → (p c).Alike R (q d)

/-! ## Steps -/

theorem follows_pure (a : α) : Follows R (pure a : Reader α) (pure a) := fun _ _ h => .done h

theorem follows_outOfBudget {q : Reader α} : Follows R outOfBudget q := fun _ _ _ => .exhausted

theorem follows_fail (cause : Diagnostic.Cause) (t : Token) :
    Follows R (fail cause t : Reader α) (fail cause t) := fun _ _ h => .failed h

theorem Follows.bind {p q : Reader α} {f g : α → Reader β} (h : Follows R p q)
    (hf : ∀ a, Follows R (f a) (g a)) : Follows R (p >>= f) (q >>= g) := by
  intro c d hcd
  have houtcome := h hcd
  rw [bind_apply, bind_apply]
  generalize p c = o, q d = o' at houtcome ⊢
  cases houtcome with
  | done hrest => exact (hf _ hrest).after _
  | failed hrest => exact .failed hrest
  | exhausted => exact .exhausted

theorem Follows.map {p q : Reader α} (h : Follows R p q) (g : α → β) :
    Follows R (g <$> p) (g <$> q) := by
  rw [← bind_pure_comp, ← bind_pure_comp]
  exact h.bind fun a => follows_pure (g a)

theorem Follows.recover {p q : Reader α} (h : Follows R p q) :
    Follows R (recover p) (recover q) := by
  intro c d hcd
  have houtcome := h hcd
  unfold Reader.recover
  generalize p c = o, q d = o' at houtcome ⊢
  cases houtcome with
  | done hrest => exact .done hrest
  | failed hrest => exact .done hrest
  | exhausted => exact .exhausted

section Shows

variable (hR : Cursor.Shows R)

include hR

theorem follows_peek : Follows R peek peek := by
  intro c d h
  rw [peek, peek, hR.head h]
  exact .done h

theorem follows_take : Follows R take take := by
  intro c d h
  rw [take, take, hR.head h]
  exact .done (hR.next h)

theorem follows_skip (s : Symbol) : Follows R (skip s) (skip s) := by
  intro c d h
  have hkind : c.kind = d.kind := congrArg Token.kind (hR.head h)
  unfold skip
  rw [hkind]
  split
  · exact .done (hR.next h)
  · exact .done h

theorem follows_expect (want : Token.Kind) : Follows R (expect want) (expect want) := by
  intro c d h
  have hhead := hR.head h
  have hkind : c.kind = d.kind := congrArg Token.kind hhead
  unfold expect
  rw [hkind, hhead]
  split
  · exact .done (hR.next h)
  · exact .failed h

/-! ## Repetition -/

variable {item item' : Reader α} {close : Symbol} {n m : Nat}

theorem follows_commaItems (hitem : Follows R item item') (hle : n ≤ m) :
    Follows R (commaItems item n) (commaItems item' m) := by
  induction n generalizing m with
  | zero => exact follows_outOfBudget
  | succ n ih =>
    obtain ⟨m, rfl⟩ := Nat.exists_eq_succ_of_ne_zero (Nat.ne_zero_of_lt hle)
    refine hitem.bind fun first => (follows_skip hR .comma).bind fun more => ?_
    split
    · exact (ih (Nat.le_of_succ_le_succ hle)).bind fun others => follows_pure _
    · exact follows_pure _

theorem follows_commaList (hitem : Follows R item item') (hle : n ≤ m) :
    Follows R (commaList close item n) (commaList close item' m) := by
  refine (follows_skip hR close).bind fun closed => ?_
  split
  · exact follows_pure _
  · refine (follows_commaItems hR hitem hle).bind fun items => ?_
    exact (follows_expect hR _).bind fun _ => follows_pure _

theorem follows_commaEnded (hitem : Follows R item item') (hle : n ≤ m) :
    Follows R (commaEnded close item n) (commaEnded close item' m) := by
  induction n generalizing m with
  | zero => exact follows_outOfBudget
  | succ n ih =>
    obtain ⟨m, rfl⟩ := Nat.exists_eq_succ_of_ne_zero (Nat.ne_zero_of_lt hle)
    refine (follows_skip hR close).bind fun closed => ?_
    split
    · exact follows_pure _
    · have hothers (first : α) : Follows R
          (commaEnded close item n >>= fun others => pure (first :: others))
          (commaEnded close item' m >>= fun others => pure (first :: others)) :=
        (ih (Nat.le_of_succ_le_succ hle)).bind fun others => follows_pure _
      refine hitem.bind fun first => (follows_peek hR).bind fun t => ?_
      split
      · exact (follows_expect hR _).bind fun _ => hothers first
      · exact hothers first

theorem follows_itemsUntil {item item' : Reader (Option α)} (hitem : Follows R item item')
    (hle : n ≤ m) : Follows R (itemsUntil close item n) (itemsUntil close item' m) := by
  induction n generalizing m with
  | zero => exact follows_outOfBudget
  | succ n ih =>
    obtain ⟨m, rfl⟩ := Nat.exists_eq_succ_of_ne_zero (Nat.ne_zero_of_lt hle)
    refine (follows_skip hR close).bind fun closed => ?_
    split
    · exact follows_pure _
    · refine (follows_peek hR).bind fun t => ?_
      split
      · exact (follows_take hR).bind fun mark => follows_fail _ mark
      · refine hitem.bind fun first => ?_
        exact (ih (Nat.le_of_succ_le_succ hle)).bind fun others => follows_pure _

theorem follows_itemsUntilEnd {item item' : Reader (Option α)} (hitem : Follows R item item')
    (hle : n ≤ m) : Follows R (itemsUntilEnd item n) (itemsUntilEnd item' m) := by
  induction n generalizing m with
  | zero => exact follows_outOfBudget
  | succ n ih =>
    obtain ⟨m, rfl⟩ := Nat.exists_eq_succ_of_ne_zero (Nat.ne_zero_of_lt hle)
    refine (follows_peek hR).bind fun t => ?_
    split
    · exact follows_pure _
    · refine hitem.bind fun first => ?_
      exact (ih (Nat.le_of_succ_le_succ hle)).bind fun others => follows_pure _

end Shows

end Reader

open Reader

/-! ## The rules of the grammar -/

section Rules

variable {R : Cursor → Cursor → Prop} (hR : Cursor.Shows R) {expr expr' : Level → Reader Expr}
  {statements statements' : Reader Block} {n m : Nat}

include hR

theorem follows_condition (hexpr : ∀ l, Follows R (expr l) (expr' l)) :
    Follows R (condition expr) (condition expr') := by
  refine (follows_expect hR _).bind fun _ => (hexpr _).bind fun test => ?_
  exact (follows_expect hR _).bind fun _ => follows_pure test

theorem follows_braced (hblock : Follows R statements statements') :
    Follows R (braced statements) (braced statements') :=
  (follows_expect hR _).bind fun _ => hblock

theorem follows_conditionalRest (hexpr : ∀ l, Follows R (expr l) (expr' l))
    (hblock : Follows R statements statements') :
    Follows R (conditionalRest expr statements) (conditionalRest expr' statements') := by
  refine (follows_condition hR hexpr).bind fun test => (follows_braced hR hblock).bind fun yes => ?_
  refine (follows_peek hR).bind fun t => ?_
  split
  · exact (follows_take hR).bind fun _ => (follows_braced hR hblock).bind fun no => follows_pure _
  · exact follows_pure _

theorem follows_functionRest (hblock : Follows R statements statements') (hle : n ≤ m) :
    Follows R (functionRest statements n) (functionRest statements' m) := by
  refine (follows_expect hR _).bind fun _ => ?_
  refine (follows_commaList hR (follows_expect hR _) hle).bind fun parameters => ?_
  exact (follows_braced hR hblock).bind fun body => follows_pure _

theorem follows_keyAndValue (hexpr : ∀ l, Follows R (expr l) (expr' l)) :
    Follows R (keyAndValue expr) (keyAndValue expr') := by
  refine (hexpr _).bind fun key => (follows_expect hR _).bind fun _ => ?_
  exact (hexpr _).bind fun value => follows_pure _

omit hR in
theorem follows_integerOf (t : Token) : Follows R (integerOf t) (integerOf t) := by
  unfold integerOf
  split
  · exact follows_pure _
  · exact follows_fail _ t

theorem follows_operand (hexpr : ∀ l, Follows R (expr l) (expr' l))
    (hblock : Follows R statements statements') (hle : n ≤ m) :
    Follows R (operand expr statements n) (operand expr' statements' m) := by
  refine (follows_take hR).bind fun t => ?_
  split
  · exact follows_pure _
  · exact follows_integerOf t
  · exact follows_pure _
  · exact follows_pure _
  · exact follows_pure _
  · exact (hexpr _).map _
  · exact (hexpr _).map _
  · exact (hexpr _).bind fun inner => (follows_expect hR _).bind fun _ => follows_pure inner
  · exact follows_conditionalRest hR hexpr hblock
  · exact follows_functionRest hR hblock hle
  · exact (follows_commaList hR (hexpr _) hle).map _
  · exact (follows_commaEnded hR (follows_keyAndValue hR hexpr) hle).map _
  · exact follows_fail _ t

theorem follows_extend (hexpr : ∀ l, Follows R (expr l) (expr' l)) (hle : n ≤ m) (left : Expr)
    (s : Suffix) : Follows R (extend expr n left s) (extend expr' m left s) := by
  cases s with
  | operator op => exact (hexpr _).map _
  | call => exact (follows_commaList hR (hexpr _) hle).map _
  | index =>
    exact (hexpr _).bind fun position => (follows_expect hR _).bind fun _ => follows_pure _

theorem follows_suffixes {level : Level} {i j : Nat} (hexpr : ∀ l, Follows R (expr l) (expr' l))
    (hle : n ≤ m) (hij : i ≤ j) (left : Expr) :
    Follows R (suffixes expr n level i left) (suffixes expr' m level j left) := by
  induction i generalizing j left with
  | zero => exact follows_outOfBudget
  | succ i ih =>
    obtain ⟨j, rfl⟩ := Nat.exists_eq_succ_of_ne_zero (Nat.ne_zero_of_lt hij)
    refine (follows_peek hR).bind fun t => ?_
    split
    · exact follows_pure _
    · next s _ =>
      split
      · refine (follows_take hR).bind fun _ => ?_
        refine (follows_extend hR hexpr hle left s).bind fun longer => ?_
        exact ih (Nat.le_of_succ_le_succ hij) longer
      · exact follows_pure _

theorem follows_statementBody (hexpr : ∀ l, Follows R (expr l) (expr' l))
    (hblock : Follows R statements statements') :
    Follows R (statementBody expr statements) (statementBody expr' statements') := by
  refine (follows_peek hR).bind fun t => ?_
  split
  · refine (follows_take hR).bind fun _ => (follows_expect hR _).bind fun name => ?_
    exact (follows_expect hR _).bind fun _ => (hexpr _).bind fun value => follows_pure _
  · exact (follows_take hR).bind fun _ => (hexpr _).bind fun value => follows_pure _
  · refine (follows_take hR).bind fun _ => (follows_condition hR hexpr).bind fun test => ?_
    exact (follows_braced hR hblock).bind fun body => follows_pure _
  · exact (hexpr _).map _

/-- Expressions and statements are read alike with any two budgets, up to the smaller one being
spent. The induction is on that one. -/
theorem follows_expression_statement (n : Nat) :
    (∀ m, n ≤ m → ∀ l, Follows R (expression n l) (expression m l)) ∧
      ∀ m, n ≤ m → Follows R (statement n) (statement m) := by
  induction n with
  | zero => exact ⟨fun _ _ _ => follows_outOfBudget, fun _ _ => follows_outOfBudget⟩
  | succ n ih =>
    have parts {m : Nat} (hle : n ≤ m) : (∀ l, Follows R (expression n l) (expression m l)) ∧
        Follows R (itemsUntil .rightBrace (recover (statement n)) n)
          (itemsUntil .rightBrace (recover (statement m)) m) :=
      ⟨ih.1 m hle, follows_itemsUntil hR (ih.2 m hle).recover hle⟩
    constructor
    · intro m hle l
      obtain ⟨m, rfl⟩ := Nat.exists_eq_succ_of_ne_zero (Nat.ne_zero_of_lt hle)
      have hle' := Nat.le_of_succ_le_succ hle
      obtain ⟨hexpr, hblock⟩ := parts hle'
      rw [expression, expression]
      refine (follows_operand hR hexpr hblock hle').bind fun left => ?_
      exact follows_suffixes hR hexpr hle' hle' left
    · intro m hle
      obtain ⟨m, rfl⟩ := Nat.exists_eq_succ_of_ne_zero (Nat.ne_zero_of_lt hle)
      obtain ⟨hexpr, hblock⟩ := parts (Nat.le_of_succ_le_succ hle)
      rw [statement, statement]
      refine (follows_statementBody hR hexpr hblock).bind fun s => ?_
      exact (follows_skip hR _).bind fun _ => follows_pure s

/-- Programs are read alike with any two budgets, up to the smaller one being spent. -/
theorem follows_program {i j : Nat} (hle : n ≤ m) (hij : i ≤ j) :
    Follows R (itemsUntilEnd (recover (statement n)) i)
      (itemsUntilEnd (recover (statement m)) j) :=
  follows_itemsUntilEnd hR ((follows_expression_statement hR n).2 m hle).recover hij

end Rules

end Monkey
