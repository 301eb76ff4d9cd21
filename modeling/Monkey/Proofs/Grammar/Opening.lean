import Monkey.Proofs.Reader.Rules

/-!
# First tokens and lists

To read on, a reader has to see from one token whether an item begins and whether it has come to its
end. Here is what every written form begins with, which tokens end an expression, and that lists
with commas are read if their items are.

## Main definitions

* `Token.Kind.opensExpr`, `opensStmt` — the kinds of token that a phrase can begin with.
* `Begins`, `Derives.opening` — what written forms begin with.
* `Level.Ends` — that the next token does not go on with an expression.
* `ReadsOver` — that an item is read where its tokens stand.
-/

namespace Monkey

open Reader

/-! ## First tokens -/

namespace Token.Kind

/-- The kinds of token that an expression can begin with. -/
def opensExpr : Token.Kind → Bool
  | .identifier | .integer | .string => true
  | .keyword .trueWord | .keyword .falseWord | .keyword .ifWord | .keyword .fnWord => true
  | .symbol .bang | .symbol .minus | .symbol .leftParen | .symbol .leftBracket
  | .symbol .leftBrace => true
  | _ => false

/-- The kinds of token that a statement can begin with. -/
def opensStmt : Token.Kind → Bool
  | .keyword .letWord | .keyword .returnWord | .keyword .whileWord => true
  | k => opensExpr k

theorem opensStmt_of_opensExpr {k : Token.Kind} (h : k.opensExpr) : k.opensStmt := by
  unfold opensStmt
  split <;> first | rfl | exact h

/-- No statement begins with a token that ends one or goes on with a conditional. -/
theorem ne_of_opensStmt {k : Token.Kind} (h : k.opensStmt) :
    k ≠ .keyword .elseWord ∧ k ≠ .symbol .semicolon ∧ k ≠ .symbol .rightBrace ∧
      k ≠ .endOfInput := by
  refine ⟨?_, ?_, ?_, ?_⟩ <;> (rintro rfl; revert h; decide)

/-- Three signs that a statement may begin with also stand after an operand. -/
theorem ofKind?_of_opensStmt {k : Token.Kind} (h : k.opensStmt) :
    (k = .symbol .minus ∨ k = .symbol .leftParen ∨ k = .symbol .leftBracket) ∨
      Suffix.ofKind? k = none := by
  cases k with
  | symbol s =>
    revert h
    cases s <;> decide
  | _ => exact .inr rfl

end Token.Kind

/-- The tokens begin with one of a kind that `Opens`. -/
def Begins (Opens : Token.Kind → Bool) (ts : List Token) : Prop :=
  ∃ (t : Token) (us : List Token), ts = t :: us ∧ Opens t.kind

theorem Begins.append {Opens : Token.Kind → Bool} {ts : List Token} (h : Begins Opens ts)
    (us : List Token) : Begins Opens (ts ++ us) := by
  obtain ⟨t, vs, rfl, ht⟩ := h
  exact ⟨t, vs ++ us, rfl, ht⟩

theorem Begins.length_pos {Opens : Token.Kind → Bool} {ts : List Token} (h : Begins Opens ts) :
    0 < ts.length := by
  obtain ⟨t, us, rfl, -⟩ := h
  simp

theorem Enclosed.begins {opening closing : Symbol} {inner ts : List Token}
    {Opens : Token.Kind → Bool} (h : Enclosed opening closing inner ts)
    (hopening : Opens (.symbol opening)) : Begins Opens ts := by
  obtain ⟨t, u, ht, -, rfl⟩ := h
  exact ⟨t, _, rfl, ht ▸ hopening⟩

/-- What the written form of a phrase begins with. -/
def Phrase.Opening : Phrase → List Token → Prop
  | .held _ _, ts | .expr _, ts | .pair _, ts => Begins Token.Kind.opensExpr ts
  | .stmt _, ts => Begins Token.Kind.opensStmt ts
  | .stmts _, ts => ts = [] ∨ Begins Token.Kind.opensStmt ts

theorem Derives.opening {clear : Prop} {φ : Phrase} {ts : List Token} (h : Derives clear φ ts) :
    φ.Opening ts := by
  have head {t : Token} {us : List Token} {k : Token.Kind} {Opens : Token.Kind → Bool}
      (ht : t.kind = k) (hk : Opens k) : Begins Opens (t :: us) := ⟨t, us, rfl, ht ▸ hk⟩
  induction h with
  | name ht => exact head ht rfl
  | integer ht => exact head ht rfl
  | string ht => exact head ht rfl
  | @boolean t b ht => exact head ht (by cases b <;> rfl)
  | parens _ hts => exact hts.begins rfl
  | @unary op _ _ _ _ ht => exact head ht (by cases op <;> rfl)
  | binary _ _ _ _ _ ihl => exact Begins.append ihl _
  | conditional ht => exact head ht rfl
  | conditionalElse ht => exact head ht rfl
  | function ht => exact head ht rfl
  | call _ _ _ _ _ _ ihf => exact Begins.append ihf _
  | array _ _ _ hencl => exact hencl.begins rfl
  | index _ _ _ _ ihl => exact Begins.append ihl _
  | hash _ _ _ hencl => exact hencl.begins rfl
  | expr _ ih => exact ih
  | pair _ _ _ ihk => exact Begins.append ihk _
  | binding ht => exact head ht rfl
  | ret ht => exact head ht rfl
  | expression _ ih =>
    obtain ⟨t, us, rfl, ht⟩ := ih
    exact ⟨t, us, rfl, Token.Kind.opensStmt_of_opensExpr ht⟩
  | loop ht => exact head ht rfl
  | nil => exact .inl rfl
  | ended _ _ _ ihs => exact .inr (Begins.append ihs _)
  | unended _ _ _ ihs => exact .inr (Begins.append ihs _)

/-- Only operators hold an expression less tightly than a call or an index does. -/
theorem Derives.grip_eq_index {clear : Prop} {p : Level} {e : Expr} {ts : List Token}
    (h : Derives clear (.held p e) ts) (hp : .unary < p) : p = .index := by
  cases h with
  | unary => exact absurd hp (by decide)
  | @binary op => cases op <;> exact absurd hp (by decide)
  | _ => rfl

/-- Every grip will do where nothing is around the expression. -/
theorem Derives.admits_lowest {clear : Prop} {p : Level} {e : Expr} {ts : List Token}
    (h : Derives clear (.held p e) ts) : Level.lowest.Admits p := by
  cases h with
  | @binary op => cases op <;> exact .inl (by decide)
  | _ => exact .inr (by decide)

/-! ## What follows an expression -/

namespace Level

/-- A token of this kind does not go on with an expression that is read at the level. -/
def Ends (l : Level) (k : Token.Kind) : Prop := k ≠ .keyword .elseWord ∧ l.Rests k

variable {l p : Level}

theorem Ends.mono {k : Token.Kind} (h : l.Ends k) (hle : l ≤ p) : p.Ends k :=
  ⟨h.1, h.2.mono hle⟩

/-- A symbol that is no operator and opens no call or index ends every expression. -/
theorem ends_symbol {s : Symbol} (h : Suffix.ofKind? (.symbol s) = none) : l.Ends (.symbol s) :=
  ⟨by simp, fun s' hs' => by simp [h] at hs'⟩

theorem ends_endOfInput : l.Ends .endOfInput :=
  ⟨by simp, fun s hs => by simp [Suffix.ofKind?] at hs⟩

theorem ends_operator {op : BinaryOp} (h : op.level ≤ p) : p.Ends (.symbol op.symbol) := by
  refine ⟨by simp, fun s hs => ?_⟩
  obtain rfl : Suffix.operator op = s :=
    Option.some.inj ((Suffix.ofKind?_eq_some_operator.mpr rfl).symm.trans hs)
  rw [le_iff] at h
  simp only [Suffix.level, lt_iff]
  omega

theorem ends_index {s : Symbol} : Level.index.Ends (.symbol s) := ⟨by simp, rests_index⟩

theorem lt_operator {op : BinaryOp} (h : l.Admits op.level) : l < op.level := by
  have hop : op.level < .unary := by cases op <;> decide
  simp only [Admits, lt_iff, le_iff] at h hop ⊢
  omega

end Level

/-! ## Brackets and commas -/

theorem Enclosed.passes {opening closing : Symbol} {inner ts : List Token} {c rest : Cursor}
    (h : Enclosed opening closing inner ts) (hpass : c.Passes ts rest) :
    ∃ (t u : Token) (first last : Cursor), t.kind = .symbol opening ∧ c.Passes [t] first ∧
      first.Passes inner last ∧ u.kind = .symbol closing ∧ last.Passes [u] rest := by
  obtain ⟨t, u, ht, hu, rfl⟩ := h
  obtain ⟨hfirst, hpass⟩ := Cursor.passes_cons.mp hpass
  obtain ⟨last, hinner, hlast⟩ := Cursor.passes_append.mp hpass
  exact ⟨t, u, c.next, last, ht, hfirst, hinner, hu, hlast⟩

theorem Enclosed.length_eq {opening closing : Symbol} {inner ts : List Token}
    (h : Enclosed opening closing inner ts) : ts.length = inner.length + 2 := by
  obtain ⟨t, u, -, -, rfl⟩ := h
  simp

/-- There is a comma between each item and the next, so there are hardly more items than tokens. -/
theorem Separated.length_le {tss : List (List Token)} {ts : List Token} (h : Separated tss ts) :
    tss.length ≤ ts.length + 1 := by
  induction h with
  | nil => simp
  | single => simp
  | cons =>
    simp only [List.length_cons, List.length_append]
    omega

theorem Separated.length_le_of_mem {tss : List (List Token)} {ts us : List Token}
    (h : Separated tss ts) (hus : us ∈ tss) : us.length ≤ ts.length := by
  induction h with
  | nil => simp at hus
  | single => simp_all
  | cons ht hne h ih =>
    simp only [List.length_cons, List.length_append]
    rcases List.mem_cons.mp hus with rfl | hus
    · omega
    · have := ih hus
      omega

theorem Terminated.length_le {tss : List (List Token)} {ts : List Token} (h : Terminated tss ts) :
    tss.length ≤ ts.length + 1 := by
  rcases h with h | ⟨t, us, -, -, h, rfl⟩
  · exact h.length_le
  · have := h.length_le
    simp only [List.length_append]
    omega

theorem Terminated.length_le_of_mem {tss : List (List Token)} {ts us : List Token}
    (h : Terminated tss ts) (hus : us ∈ tss) : us.length ≤ ts.length := by
  rcases h with h | ⟨t, vs, -, -, h, rfl⟩
  · exact h.length_le_of_mem hus
  · have := h.length_le_of_mem hus
    simp only [List.length_append]
    omega

theorem Separated.begins {Opens : Token.Kind → Bool} {tss : List (List Token)} {ts : List Token}
    (h : Separated tss ts) (hne : tss ≠ []) (hall : ∀ us ∈ tss, Begins Opens us) :
    Begins Opens ts := by
  cases h with
  | nil => exact absurd rfl hne
  | single => exact hall _ (by simp)
  | cons => exact (hall _ (by simp)).append _

/-- The item is read wherever these tokens stand and what comes next ends every expression. -/
def ReadsOver {α : Type} (item : Reader α) (a : α) (ts : List Token) : Prop :=
  ∀ ⦃c rest : Cursor⦄, c.Passes ts rest → Level.lowest.Ends rest.kind → Reads item c a rest

section Lists

variable {α : Type} {item : Reader α} {close : Symbol} {c rest : Cursor} {as : List α}
  {tss : List (List Token)} {ts : List Token} {t : Token} {n : Nat}

theorem reads_commaItems_of_separated (hsep : Separated tss ts) (hlength : as.length = tss.length)
    (hne : tss ≠ []) (hitem : ∀ a us, (a, us) ∈ as.zip tss → ReadsOver item a us)
    (hpass : c.Passes ts rest) (hends : Level.lowest.Ends rest.kind)
    (hcomma : rest.kind ≠ .symbol .comma) (hn : as.length ≤ n) :
    Reads (commaItems item n) c as rest := by
  induction hsep generalizing as c n with
  | nil => exact absurd rfl hne
  | single ts =>
    obtain ⟨a, rfl⟩ := List.length_eq_one_iff.mp hlength
    cases n with
    | zero => simp at hn
    | succ n =>
      have ha := hitem a ts (by simp) hpass hends
      exact reads_commaItems_succ.mpr ⟨a, rest, ha, .inl ⟨rfl, rfl, hcomma⟩⟩
  | @cons ts us t tss ht hne' _ ih =>
    cases as with
    | nil => simp at hlength
    | cons a others =>
      cases n with
      | zero => simp at hn
      | succ n =>
        obtain ⟨mid, hts, hpass⟩ := Cursor.passes_append.mp hpass
        obtain ⟨hcomma', hus⟩ := Cursor.passes_cons.mp hpass
        have hmid : Level.lowest.Ends mid.kind := by
          rw [hpass.kind, ht]
          exact Level.ends_symbol rfl
        have ha := hitem a ts (by simp) hts hmid
        have hothers := ih (by simpa using hlength) hne'
          (fun b vs hmem => hitem b vs (by simp [hmem])) hus (n := n) (by simpa using hn)
        exact reads_commaItems_succ.mpr
          ⟨a, mid, ha, .inr ⟨t, mid.next, others, rfl, ht, hcomma', hothers⟩⟩

theorem reads_commaList_of_separated (hsep : Separated tss ts) (hlength : as.length = tss.length)
    (hitem : ∀ a us, (a, us) ∈ as.zip tss → ReadsOver item a us)
    (hopens : ∀ us ∈ tss, Begins Token.Kind.opensExpr us)
    (hclose : Token.Kind.opensExpr (.symbol close) = false)
    (hsuffix : Suffix.ofKind? (.symbol close) = none) (hcomma : close ≠ .comma)
    (hpass : c.Passes ts rest) {last : Cursor} (ht : t.kind = .symbol close)
    (hlast : rest.Passes [t] last) (hn : as.length ≤ n) :
    Reads (commaList close item n) c as last := by
  by_cases hne : tss = []
  · subst hne
    obtain rfl := List.length_eq_zero_iff.mp hlength
    obtain rfl := separated_nil_iff.mp hsep
    obtain rfl := Cursor.passes_nil.mp hpass
    exact reads_commaList.mpr (.inl ⟨rfl, t, ht, hlast⟩)
  · have hkind : rest.kind = .symbol close := hlast.kind.trans ht
    obtain ⟨first, us, rfl, hfirst⟩ := hsep.begins hne hopens
    refine reads_commaList.mpr (.inr ⟨fun h => ?_, t, rest, ?_, ht, hlast⟩)
    · rw [← hpass.kind, h, hclose] at hfirst
      exact Bool.false_ne_true hfirst
    · exact reads_commaItems_of_separated hsep hlength hne hitem hpass
        (by rw [hkind]; exact Level.ends_symbol hsuffix) (by simpa [hkind] using hcomma) hn

theorem reads_commaEnded_of_terminated (hend : Terminated tss ts) (hlength : as.length = tss.length)
    (hitem : ∀ a us, (a, us) ∈ as.zip tss → ReadsOver item a us)
    (hopens : ∀ us ∈ tss, Begins Token.Kind.opensExpr us)
    (hclose : Token.Kind.opensExpr (.symbol close) = false)
    (hsuffix : Suffix.ofKind? (.symbol close) = none) (hcomma : close ≠ .comma)
    (hpass : c.Passes ts rest) {last : Cursor} (ht : t.kind = .symbol close)
    (hlast : rest.Passes [t] last) (hn : as.length < n) :
    Reads (commaEnded close item n) c as last := by
  have hkind : rest.kind = .symbol close := hlast.kind.trans ht
  induction tss generalizing as c n ts with
  | nil =>
    obtain rfl := List.length_eq_zero_iff.mp hlength
    obtain rfl := terminated_nil_iff.mp hend
    obtain rfl := Cursor.passes_nil.mp hpass
    cases n with
    | zero => omega
    | succ n => exact reads_commaEnded_succ.mpr (.inl ⟨rfl, t, ht, hlast⟩)
  | cons us tss ih =>
    cases as with
    | nil => simp at hlength
    | cons a others =>
      cases n with
      | zero => omega
      | succ n =>
        have hitem' : ∀ b vs, (b, vs) ∈ others.zip tss → ReadsOver item b vs :=
          fun b vs hmem => hitem b vs (by simp [hmem])
        have hopens' : ∀ vs ∈ tss, Begins Token.Kind.opensExpr vs :=
          fun vs hmem => hopens vs (by simp [hmem])
        have hfirst : ∀ {mid}, c.Passes us mid → c.kind ≠ .symbol close := fun hus h => by
          obtain ⟨first, vs, rfl, hfirst⟩ := hopens us (by simp)
          rw [← hus.kind, h, hclose] at hfirst
          exact Bool.false_ne_true hfirst
        rcases terminated_cons_iff.mp hend with ⟨rfl, rfl⟩ | ⟨u, vs, hu, rfl, hvs⟩
        · have ha := hitem a ts (by simp) hpass (by rw [hkind]; exact Level.ends_symbol hsuffix)
          have hothers := ih (terminated_nil_iff.mpr rfl) (by simpa using hlength) hitem' hopens'
            (Cursor.passes_nil.mpr rfl) (n := n) (by simpa using hn)
          exact reads_commaEnded_succ.mpr (.inr ⟨hfirst hpass, a, others, rest, rest, rfl, ha,
            .inl ⟨hkind, rfl⟩, hothers⟩)
        · obtain ⟨mid, hus, hpass⟩ := Cursor.passes_append.mp hpass
          obtain ⟨hu', hvs'⟩ := Cursor.passes_cons.mp hpass
          have hmid : mid.kind = .symbol .comma := hpass.kind.trans hu
          have ha := hitem a us (by simp) hus (by rw [hmid]; exact Level.ends_symbol rfl)
          have hothers := ih hvs (by simpa using hlength) hitem' hopens' hvs' (n := n)
            (by simpa using hn)
          exact reads_commaEnded_succ.mpr (.inr ⟨hfirst hus, a, others, mid, mid.next, rfl, ha,
            .inr ⟨by simpa [hmid] using hcomma.symm, u, hu, hu'⟩, hothers⟩)

end Lists

end Monkey
