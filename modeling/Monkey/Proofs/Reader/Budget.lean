import Monkey.Syntax.OfTokens

/-!
# Budgets

The readers of programs stop with an answer before their budget is spent. Between two nested readers
of expressions or statements at least every other one takes a token, and each round of a loop takes
one as well, so a budget that is twice the number of unread tokens and a little more is enough,
whatever the tokens are.

## Main definitions

* `Reader.Leaves` — that a reader comes to an answer, and how much it leaves unread.
* `Reader.Settles` — that a reader comes to an answer on all short enough streams.
-/

namespace Monkey

namespace Cursor

variable {c : Cursor}

theorem length_unread_next : c.next.unread.length = c.unread.length - 1 := by simp

/-- A token that is no mark of the end is still unread. -/
theorem length_unread_pos (h : c.kind ≠ .endOfInput) : 0 < c.unread.length := by
  cases hc : c.unread with
  | nil => simp [Cursor.kind, Cursor.head, hc] at h
  | cons t ts => simp

end Cursor

/-- The outcome is an answer, and at most `m` tokens are still to be read. -/
def Outcome.Leaves {α : Type} (m : Nat) : Outcome α → Prop
  | done _ rest _ => rest.unread.length ≤ m
  | failed _ rest _ => rest.unread.length ≤ m
  | exhausted => False

@[simp] theorem Outcome.leaves_after {α : Type} {m : Nat} {o : Outcome α}
    {reports : List Diagnostic} : (o.after reports).Leaves m ↔ o.Leaves m := by
  cases o <;> rfl

namespace Reader

variable {α β : Type} {c : Cursor} {k m m' n : Nat}

/-! ## Steps -/

/-- The reader comes to an answer from `c` on, and leaves at most `m` tokens. -/
def Leaves (p : Reader α) (c : Cursor) (m : Nat) : Prop := (p c).Leaves m

/-- On every stream of at most `k` tokens the reader comes to an answer that leaves at most `m`. -/
def Settles (p : Reader α) (k m : Nat) : Prop := ∀ c, c.unread.length ≤ k → Leaves p c m

theorem Leaves.mono {p : Reader α} (h : Leaves p c m) (hm : m ≤ m') : Leaves p c m' := by
  unfold Leaves at h ⊢
  cases hp : p c with
  | done a rest reports => exact Nat.le_trans (by rwa [hp] at h) hm
  | failed d rest reports => exact Nat.le_trans (by rwa [hp] at h) hm
  | exhausted => rwa [hp] at h

@[simp] theorem leaves_pure {a : α} : Leaves (pure a) c m ↔ c.unread.length ≤ m := Iff.rfl

@[simp] theorem leaves_fail {cause : Diagnostic.Cause} {t : Token} :
    Leaves (fail cause t : Reader α) c m ↔ c.unread.length ≤ m := Iff.rfl

theorem leaves_bind {p : Reader α} {f : α → Reader β} (hp : Leaves p c m)
    (hf : ∀ a mid, mid.unread.length ≤ m → Leaves (f a) mid m) : Leaves (p >>= f) c m := by
  unfold Leaves at hp ⊢
  rw [bind_apply]
  cases h : p c with
  | done a mid reports =>
    rw [h] at hp
    exact Outcome.leaves_after.mpr (hf a mid hp)
  | failed d mid reports =>
    rw [h] at hp
    exact hp
  | exhausted =>
    rw [h] at hp
    exact hp

theorem leaves_map {p : Reader α} {g : α → β} (hp : Leaves p c m) : Leaves (g <$> p) c m := by
  rw [← bind_pure_comp]
  exact leaves_bind hp fun a mid hmid => hmid

theorem leaves_recover {p : Reader α} (hp : Leaves p c m) : Leaves (recover p) c m := by
  unfold Leaves recover at *
  cases h : p c <;> rw [h] at hp <;> exact hp

theorem leaves_peek_bind {f : Token → Reader β} :
    Leaves (peek >>= f) c m ↔ Leaves (f c.head) c m := by
  simp [Leaves, bind_apply, peek]

theorem leaves_take_bind {f : Token → Reader β} :
    Leaves (take >>= f) c m ↔ Leaves (f c.head) c.next m := by
  simp [Leaves, bind_apply, take]

theorem leaves_skip_bind {s : Symbol} {f : Bool → Reader β} :
    Leaves (skip s >>= f) c m ↔
      if c.kind = .symbol s then Leaves (f true) c.next m else Leaves (f false) c m := by
  simp only [Leaves, bind_apply, skip]
  by_cases h : c.kind = .symbol s <;> simp [h]

theorem leaves_expect_bind_iff {want : Token.Kind} {f : Token → Reader β} :
    Leaves (expect want >>= f) c m ↔
      if c.kind = want then Leaves (f c.head) c.next m else c.unread.length ≤ m := by
  simp only [Leaves, bind_apply, expect]
  by_cases h : c.kind = want <;> simp [h, Outcome.Leaves]

theorem leaves_expect_bind {want : Token.Kind} {f : Token → Reader β} (hc : c.unread.length ≤ m)
    (hf : ∀ t mid, mid.unread.length ≤ m → Leaves (f t) mid m) :
    Leaves (expect want >>= f) c m := by
  rw [leaves_expect_bind_iff]
  split
  · exact hf _ _ (by rw [Cursor.length_unread_next]; omega)
  · exact hc

/-! ## Repetition -/

section Repetition

variable {item : Reader α} {close : Symbol}

theorem settles_commaItems (hitem : ∀ j ≤ k, Settles item j j) (hn : k < n) :
    Settles (commaItems item n) k k := by
  induction n generalizing k with
  | zero => omega
  | succ n ih =>
    intro c hc
    rw [commaItems]
    refine leaves_bind (hitem k (Nat.le_refl k) c hc) fun a mid hmid => ?_
    rw [leaves_skip_bind]
    split
    · next hcomma =>
      -- the comma was a token of the stream, so fewer are left for the other items
      have hpos : 0 < mid.unread.length := Cursor.length_unread_pos (by rw [hcomma]; simp)
      have hnext : mid.next.unread.length ≤ k - 1 := by rw [Cursor.length_unread_next]; omega
      have hothers := ih (k := k - 1) (fun j hj => hitem j (by omega)) (by omega)
      simp only [if_true]
      refine (leaves_bind (hothers _ hnext) fun as rest hrest => ?_).mono (Nat.sub_le k 1)
      exact hrest
    · exact hmid

theorem settles_commaList (hitem : ∀ j ≤ k, Settles item j j) (hn : k < n) :
    Settles (commaList close item n) k k := by
  intro c hc
  rw [commaList, leaves_skip_bind]
  split
  · simp only [if_true, leaves_pure, Cursor.length_unread_next]
    omega
  · simp only [Bool.false_eq_true, if_false]
    refine leaves_bind (settles_commaItems hitem hn c hc) fun as mid hmid => ?_
    exact leaves_expect_bind hmid fun t rest hrest => hrest

/-- Where the closing symbol stands there are no items to settle. -/
theorem leaves_commaEnded_close (hclose : c.kind = .symbol close) (hc : c.unread.length ≤ k) :
    Leaves (commaEnded close item (n + 1)) c k := by
  rw [commaEnded, leaves_skip_bind, if_pos hclose]
  simp only [if_true, leaves_pure, Cursor.length_unread_next]
  omega

theorem settles_commaEnded (hitem : ∀ j ≤ k, Settles item j j) (hn : k + 1 < n) :
    Settles (commaEnded close item n) k k := by
  induction n generalizing k with
  | zero => omega
  | succ n ih =>
    intro c hc
    by_cases hclose : c.kind = .symbol close
    · exact leaves_commaEnded_close hclose hc
    · rw [commaEnded, leaves_skip_bind, if_neg hclose]
      simp only [Bool.false_eq_true, if_false]
      refine leaves_bind (hitem k (Nat.le_refl k) c hc) fun a mid hmid => ?_
      rw [leaves_peek_bind]
      by_cases hmid' : mid.kind = .symbol close
      · rw [if_neg (not_not_intro (show mid.head.kind = .symbol close from hmid'))]
        obtain ⟨n, rfl⟩ : ∃ n', n = n' + 1 := ⟨n - 1, by omega⟩
        exact leaves_bind (leaves_commaEnded_close hmid' hmid) fun as rest hrest => hrest
      · rw [if_pos (show mid.head.kind ≠ .symbol close from hmid'), leaves_expect_bind_iff]
        split
        · next hcomma =>
          have hpos : 0 < mid.unread.length := Cursor.length_unread_pos (by rw [hcomma]; simp)
          have hnext : mid.next.unread.length ≤ k - 1 := by rw [Cursor.length_unread_next]; omega
          have hothers := ih (k := k - 1) (fun j hj => hitem j (by omega)) (by omega)
          refine (leaves_bind (hothers _ hnext) fun as rest hrest => ?_).mono (Nat.sub_le k 1)
          exact hrest
        · exact hmid

/-- Statements up to the end of a block, where each takes at least one token. -/
theorem settles_itemsUntil {item : Reader (Option α)} (hitem : ∀ j ≤ k, Settles item j (j - 1))
    (hn : k < n) : Settles (itemsUntil close item n) k k := by
  induction n generalizing k with
  | zero => omega
  | succ n ih =>
    intro c hc
    rw [itemsUntil, leaves_skip_bind]
    split
    · simp only [if_true, leaves_pure, Cursor.length_unread_next]
      omega
    · simp only [Bool.false_eq_true, if_false]
      rw [leaves_peek_bind]
      split
      · rw [leaves_take_bind]
        simp only [leaves_fail, Cursor.length_unread_next]
        omega
      · next hend =>
        have hpos : 0 < c.unread.length := Cursor.length_unread_pos hend
        have hothers := ih (k := k - 1) (fun j hj => hitem j (by omega)) (by omega)
        refine (leaves_bind (hitem k (Nat.le_refl k) c hc) fun a mid hmid => ?_).mono
          (Nat.sub_le k 1)
        exact leaves_bind (hothers mid hmid) fun as rest hrest => hrest

theorem settles_itemsUntilEnd {item : Reader (Option α)}
    (hitem : ∀ j ≤ k, Settles item j (j - 1)) (hn : k < n) :
    Settles (itemsUntilEnd item n) k k := by
  induction n generalizing k with
  | zero => omega
  | succ n ih =>
    intro c hc
    rw [itemsUntilEnd, leaves_peek_bind]
    split
    · exact hc
    · next hend =>
      have hpos : 0 < c.unread.length := Cursor.length_unread_pos hend
      have hothers := ih (k := k - 1) (fun j hj => hitem j (by omega)) (by omega)
      refine (leaves_bind (hitem k (Nat.le_refl k) c hc) fun a mid hmid => ?_).mono
        (Nat.sub_le k 1)
      exact leaves_bind (hothers mid hmid) fun as rest hrest => hrest

end Repetition

end Reader

open Reader

/-! ## The rules of the grammar -/

section Rules

variable {expr : Level → Reader Expr} {statements : Reader Block} {k n : Nat}

theorem settles_condition (hexpr : ∀ l, Settles (expr l) k k) : Settles (condition expr) k k := by
  intro c hc
  refine leaves_expect_bind hc fun t mid hmid => ?_
  refine leaves_bind (hexpr _ mid hmid) fun test last hlast => ?_
  exact leaves_expect_bind hlast fun u rest hrest => hrest

theorem settles_braced (hblock : Settles statements k k) : Settles (braced statements) k k := by
  intro c hc
  exact leaves_expect_bind hc fun t mid hmid => hblock mid hmid

theorem settles_keyAndValue (hexpr : ∀ l, Settles (expr l) k k) :
    Settles (keyAndValue expr) k k := by
  intro c hc
  refine leaves_bind (hexpr _ c hc) fun key mid hmid => ?_
  refine leaves_expect_bind hmid fun t first hfirst => ?_
  exact leaves_bind (hexpr _ first hfirst) fun value rest hrest => hrest

theorem settles_conditionalRest (hexpr : ∀ l, Settles (expr l) k k)
    (hblock : Settles statements k k) : Settles (conditionalRest expr statements) k k := by
  intro c hc
  refine leaves_bind (settles_condition hexpr c hc) fun test c₁ hc₁ => ?_
  refine leaves_bind (settles_braced hblock c₁ hc₁) fun yes c₂ hc₂ => ?_
  rw [leaves_peek_bind]
  split
  · rw [leaves_take_bind]
    have hnext : c₂.next.unread.length ≤ k := by rw [Cursor.length_unread_next]; omega
    exact leaves_bind (settles_braced hblock _ hnext) fun no rest hrest => hrest
  · exact hc₂

theorem settles_functionRest (hblock : Settles statements k k) (hn : k < n) :
    Settles (functionRest statements n) k k := by
  have hname : ∀ j ≤ k, Settles (expect .identifier) j j := by
    intro j _ c hc
    rw [← bind_pure (expect .identifier)]
    exact leaves_expect_bind hc fun t rest hrest => hrest
  intro c hc
  refine leaves_expect_bind hc fun t c₁ hc₁ => ?_
  refine leaves_bind (settles_commaList hname hn c₁ hc₁) fun parameters c₂ hc₂ => ?_
  exact leaves_bind (settles_braced hblock c₂ hc₂) fun body rest hrest => hrest

/-- An operand takes its first token, so what is nested in it reads a shorter stream. -/
theorem settles_operand (hexpr : ∀ j < k, ∀ l, Settles (expr l) j j)
    (hblock : ∀ j < k, Settles statements j j) (hn : k < n) :
    Settles (operand expr statements n) k (k - 1) := by
  intro c hc
  rw [operand, leaves_take_bind]
  have hnext : c.next.unread.length ≤ k - 1 := by rw [Cursor.length_unread_next]; omega
  cases k with
  | zero =>
    have hhead : c.head = ⟨.endOfInput, "", c.stop⟩ := by
      have : c.unread = [] := List.length_eq_zero_iff.mp (Nat.le_zero.mp hc)
      simp [Cursor.head, this]
    rw [hhead]
    exact hnext
  | succ k =>
    have hexpr' := hexpr k (by omega)
    have hlist : ∀ j ≤ k, Settles (expr .lowest) j j := fun j hj => hexpr j (by omega) .lowest
    have hpair : ∀ j ≤ k, Settles (keyAndValue expr) j j := fun j hj =>
      settles_keyAndValue (hexpr j (by omega))
    split
    · exact hnext
    · unfold integerOf
      split <;> exact hnext
    · exact hnext
    · exact hnext
    · exact hnext
    · exact leaves_map (hexpr' _ _ hnext)
    · exact leaves_map (hexpr' _ _ hnext)
    · refine leaves_bind (hexpr' _ _ hnext) fun inner mid hmid => ?_
      exact leaves_expect_bind hmid fun t rest hrest => hrest
    · exact settles_conditionalRest hexpr' (hblock k (by omega)) _ hnext
    · exact settles_functionRest (hblock k (by omega)) (by omega) _ hnext
    · exact leaves_map (settles_commaList hlist (by omega) _ hnext)
    · exact leaves_map (settles_commaEnded hpair (by omega) _ hnext)
    · exact hnext

theorem settles_extend (hexpr : ∀ j ≤ k, ∀ l, Settles (expr l) j j) (hn : k < n) (left : Expr)
    (s : Suffix) : Settles (extend expr n left s) k k := by
  intro c hc
  cases s with
  | operator op => exact leaves_map (hexpr k (Nat.le_refl k) _ c hc)
  | call => exact leaves_map (settles_commaList (fun j hj => hexpr j hj _) hn c hc)
  | index =>
    refine leaves_bind (hexpr k (Nat.le_refl k) _ c hc) fun position mid hmid => ?_
    exact leaves_expect_bind hmid fun t rest hrest => hrest

theorem settles_suffixes {level : Level} {m : Nat} (hexpr : ∀ j < k, ∀ l, Settles (expr l) j j)
    (hn : k < n) (hm : k < m) (left : Expr) : Settles (suffixes expr n level m left) k k := by
  induction m generalizing k left with
  | zero => omega
  | succ m ih =>
    intro c hc
    rw [suffixes, leaves_peek_bind]
    split
    · exact hc
    · next s hs =>
      split
      · rw [leaves_take_bind]
        -- the sign of the suffix is a token of the stream
        have hpos : 0 < c.unread.length := Cursor.length_unread_pos (by
          intro hend
          rw [Cursor.kind] at hend
          simp [hend, Suffix.ofKind?] at hs)
        have hnext : c.next.unread.length ≤ k - 1 := by rw [Cursor.length_unread_next]; omega
        have hextend := settles_extend (n := n) (k := k - 1)
          (fun j hj => hexpr j (by omega)) (by omega) left s
        refine (leaves_bind (hextend _ hnext) fun longer mid hmid => ?_).mono (Nat.sub_le k 1)
        exact ih (k := k - 1) (fun j hj => hexpr j (by omega)) (by omega) (by omega) longer mid hmid
      · exact hc

theorem settles_statementBody (hexpr : ∀ j ≤ k, ∀ l, Settles (expr l) j (j - 1))
    (hblock : ∀ j < k, Settles statements j j) :
    Settles (statementBody expr statements) k (k - 1) := by
  intro c hc
  rw [statementBody, leaves_peek_bind]
  have hnext : c.next.unread.length ≤ k - 1 := by rw [Cursor.length_unread_next]; omega
  have hexpr' : ∀ l, Settles (expr l) (k - 1) (k - 1) := fun l c hc =>
    (hexpr (k - 1) (by omega) l c hc).mono (by omega)
  split
  · rw [leaves_take_bind]
    refine leaves_expect_bind hnext fun name c₁ hc₁ => ?_
    refine leaves_expect_bind hc₁ fun assign c₂ hc₂ => ?_
    exact leaves_bind (hexpr' _ c₂ hc₂) fun value rest hrest => hrest
  · rw [leaves_take_bind]
    exact leaves_bind (hexpr' _ _ hnext) fun value rest hrest => hrest
  · next hk =>
    have hpos : 0 < c.unread.length := Cursor.length_unread_pos (by
      rw [Cursor.kind, hk]
      simp)
    rw [leaves_take_bind]
    refine leaves_bind (settles_condition hexpr' _ hnext) fun test c₁ hc₁ => ?_
    exact leaves_bind (settles_braced (hblock (k - 1) (by omega)) c₁ hc₁) fun body rest hrest =>
      hrest
  · exact leaves_map (hexpr k (Nat.le_refl k) _ c hc)

/-- With `k` unread tokens, an expression takes a budget of at most `2 * k + 2` and a statement one
more, and both take at least one token if there is one. -/
theorem settles_expression_statement (n : Nat) :
    (∀ k, 2 * k + 2 ≤ n → ∀ l, Settles (expression n l) k (k - 1)) ∧
      ∀ k, 2 * k + 3 ≤ n → Settles (statement n) k (k - 1) := by
  induction n with
  | zero => exact ⟨fun k hk => by omega, fun k hk => by omega⟩
  | succ n ih =>
    obtain ⟨hexpr, hstmt⟩ := ih
    have hblock : ∀ k, 2 * k + 3 ≤ n →
        Settles (itemsUntil .rightBrace (recover (statement n)) n) k k := fun k hk =>
      settles_itemsUntil
        (fun j hj c hc => leaves_recover (hstmt j (by omega) c hc)) (by omega)
    constructor
    · intro k hk l c hc
      have hexpr' : ∀ j < k, ∀ l, Settles (expression n l) j j := fun j hj l c hc =>
        (hexpr j (by omega) l c hc).mono (by omega)
      rw [expression]
      refine leaves_bind (settles_operand hexpr' (fun j hj => hblock j (by omega)) (by omega) c hc)
        fun left mid hmid => ?_
      exact settles_suffixes (fun j hj => hexpr' j (by omega)) (by omega) (by omega) left mid hmid
    · intro k hk c hc
      rw [statement]
      refine leaves_bind (settles_statementBody (fun j hj => hexpr j (by omega))
        (fun j hj => hblock j (by omega)) c hc) fun s mid hmid => ?_
      rw [leaves_skip_bind]
      split
      · simp only [leaves_pure, Cursor.length_unread_next]
        omega
      · exact hmid

end Rules

namespace Program

/-- The budget of a cursor is never spent by reading a program from there. -/
theorem read_ne_exhausted (c : Cursor) :
    itemsUntilEnd (recover (statement (budget c))) (budget c) c ≠ .exhausted := by
  have hitem : ∀ j ≤ c.unread.length, Settles (recover (statement (budget c))) j (j - 1) :=
    fun j hj c' hc' => leaves_recover
      ((settles_expression_statement (budget c)).2 j (by unfold budget; omega) c' hc')
  have h := settles_itemsUntilEnd (n := budget c) hitem (by unfold budget; omega) c (Nat.le_refl _)
  intro hexhausted
  rw [Leaves, hexhausted] at h
  exact h

/-- What is read of a stream without a diagnostic was read without a report, up to the end. -/
theorem ofTokens_eq_iff {tokens : List Token} {p : Program} :
    ofTokens tokens = (p, []) ↔
      ∃ rest, itemsUntilEnd (recover (statement (budget (Cursor.ofTokens tokens))))
        (budget (Cursor.ofTokens tokens)) (Cursor.ofTokens tokens) = .done p rest [] := by
  have hne := read_ne_exhausted (Cursor.ofTokens tokens)
  unfold ofTokens read
  split
  · next program rest reports h =>
    rw [h]
    constructor
    · intro heq
      obtain ⟨rfl, rfl⟩ := Prod.mk.inj heq
      exact ⟨rest, rfl⟩
    · rintro ⟨_, heq⟩
      injection heq with hp _ hreports
      rw [hp, hreports]
  · next cause rest reports h =>
    rw [h]
    simp
  · next h => exact absurd h hne

end Program

end Monkey
