import Monkey.Syntax.OfTokens

/-!
# The grammar as derivations

Which token lists are written forms of a program is said here without a reader. An expression that
stands without parentheses of its own has a grip, the level of its outermost operator; everything
that is held together by something else than an operator has the tightest grip. An operator takes an
operand only if the operand's grip is tight enough for its side, and parentheses make any grip the
tightest.

A statement may be written without a semicolon after it. If the next statement begins with a minus
sign, a parenthesis or a bracket, such a text could also be read as one longer expression. The
parameter `clear` says whether the grammar asks that this does not happen.

## Main definitions

* `Enclosed`, `Separated`, `Terminated` — tokens between two symbols, and lists with commas.
* `Phrase` — what can be derived: expressions, pairs, statements and lists of statements.
* `Derives` — the rules of the grammar.
-/

namespace Monkey

open Text

/-! ## Brackets and commas -/

/-- The tokens `inner` with one symbol before them and one after them. -/
def Enclosed (opening closing : Symbol) (inner ts : List Token) : Prop :=
  ∃ t u : Token, t.kind = .symbol opening ∧ u.kind = .symbol closing ∧ ts = t :: (inner ++ [u])

/-- Token lists one after the other, with a comma between each and the next. -/
inductive Separated : List (List Token) → List Token → Prop
  | nil : Separated [] []
  | single (ts : List Token) : Separated [ts] ts
  | cons {ts us : List Token} {t : Token} {tss : List (List Token)}
      (ht : t.kind = .symbol .comma) (hne : tss ≠ []) (h : Separated tss us) :
      Separated (ts :: tss) (ts ++ t :: us)

/-- Token lists with commas between them, and perhaps a comma after the last. -/
def Terminated (tss : List (List Token)) (ts : List Token) : Prop :=
  Separated tss ts ∨
    ∃ (t : Token) (us : List Token),
      t.kind = .symbol .comma ∧ tss ≠ [] ∧ Separated tss us ∧ ts = us ++ [t]

@[simp] theorem separated_nil_iff {ts : List Token} : Separated [] ts ↔ ts = [] := by
  constructor
  · rintro ⟨⟩
    rfl
  · rintro rfl
    exact .nil

@[simp] theorem terminated_nil_iff {ts : List Token} : Terminated [] ts ↔ ts = [] := by
  simp [Terminated]

/-- The first of several lists stands alone, or it is followed by a comma and the others. -/
theorem terminated_cons_iff {ts us : List Token} {tss : List (List Token)} :
    Terminated (ts :: tss) us ↔
      (tss = [] ∧ us = ts) ∨
        ∃ (t : Token) (vs : List Token),
          t.kind = .symbol .comma ∧ us = ts ++ t :: vs ∧ Terminated tss vs := by
  constructor
  · rintro (h | ⟨u, vs, hu, -, h, rfl⟩)
    · cases h with
      | single => exact .inl ⟨rfl, rfl⟩
      | cons ht _ h => exact .inr ⟨_, _, ht, rfl, .inl h⟩
    · cases h with
      | single => exact .inr ⟨u, [], hu, rfl, terminated_nil_iff.mpr rfl⟩
      | cons ht hne h => exact .inr ⟨_, _, ht, by simp, .inr ⟨u, _, hu, hne, h, rfl⟩⟩
  · rintro (⟨rfl, rfl⟩ | ⟨t, vs, ht, rfl, h | ⟨u, ws, hu, hne, h, rfl⟩⟩)
    · exact .inl (.single us)
    · by_cases hne : tss = []
      · subst hne
        rw [separated_nil_iff.mp h]
        exact .inr ⟨t, ts, ht, by simp, .single ts, rfl⟩
      · exact .inl (.cons ht hne h)
    · exact .inr ⟨u, ts ++ t :: ws, hu, by simp, .cons ht hne h, by simp⟩

/-- What is so of each item and its tokens is so of all the tokens. -/
theorem forall_mem_of_zip {α β : Type} {P : β → Prop} {as : List α} {bs : List β}
    (hlength : as.length = bs.length) (h : ∀ a b, (a, b) ∈ as.zip bs → P b) : ∀ b ∈ bs, P b := by
  intro b hb
  have hsnd : (as.zip bs).map Prod.snd = bs := List.map_snd_zip (Nat.le_of_eq hlength.symm)
  rw [← hsnd, List.mem_map] at hb
  obtain ⟨⟨a, b⟩, hmem, rfl⟩ := hb
  exact h a b hmem

/-! ## Derivations -/

/-- The tokens begin with a sign that could also go on with an expression before them. -/
def Resumes (ts : List Token) : Prop :=
  ∃ (t : Token) (us : List Token), ts = t :: us ∧
    (t.kind = .symbol .minus ∨ t.kind = .symbol .leftParen ∨ t.kind = .symbol .leftBracket)

/-- Whether a statement is a loop, which ends with a brace and so cannot be gone on with. -/
def Stmt.isLoop : Stmt → Bool
  | .loop .. => true
  | _ => false

/-- What has a written form. -/
inductive Phrase where
  /-- An expression whose written form has this grip. -/
  | held (grip : Level) (e : Expr)
  /-- An expression in a place where every grip will do. -/
  | expr (e : Expr)
  /-- A key and its value. -/
  | pair (kv : Expr × Expr)
  /-- A statement without the semicolon that may follow it. -/
  | stmt (s : Stmt)
  | stmts (ss : List Stmt)

/-- The tokens are a written form of the phrase. A name is written as the identifier token whose
text and span it has. -/
inductive Derives (clear : Prop) : Phrase → List Token → Prop
  | name {t : Token} (ht : t.kind = .identifier) :
      Derives clear (.held .index (.name (Name.ofToken t))) [t]
  | integer {t : Token} {v : Int64} (ht : t.kind = .integer)
      (hv : Decimal.toInt64? t.lexeme = some v) :
      Derives clear (.held .index (.integer v)) [t]
  | string {t : Token} (ht : t.kind = .string) :
      Derives clear (.held .index (.string t.lexeme)) [t]
  | boolean {t : Token} {b : Bool} (ht : t.kind = .keyword (cond b .trueWord .falseWord)) :
      Derives clear (.held .index (.boolean b)) [t]
  | parens {e : Expr} {inner ts : List Token} (he : Derives clear (.expr e) inner)
      (hts : Enclosed .leftParen .rightParen inner ts) :
      Derives clear (.held .index e) ts
  | unary {op : UnaryOp} {t : Token} {grip : Level} {e : Expr} {ts : List Token}
      (ht : t.kind = .symbol op.symbol) (hgrip : .unary ≤ grip)
      (he : Derives clear (.held grip e) ts) :
      Derives clear (.held .unary (.unary op e)) (t :: ts)
  | binary {op : BinaryOp} {t : Token} {p q : Level} {l r : Expr} {ts us : List Token}
      (ht : t.kind = .symbol op.symbol) (hp : op.level ≤ p) (hq : op.level < q)
      (hl : Derives clear (.held p l) ts) (hr : Derives clear (.held q r) us) :
      Derives clear (.held op.level (.binary op l r)) (ts ++ t :: us)
  | conditional {t : Token} {c : Expr} {yes : Block} {cs cs' ys ys' : List Token}
      (ht : t.kind = .keyword .ifWord)
      (hc : Derives clear (.expr c) cs) (hcs : Enclosed .leftParen .rightParen cs cs')
      (hy : Derives clear (.stmts yes) ys) (hys : Enclosed .leftBrace .rightBrace ys ys') :
      Derives clear (.held .index (.conditional c yes none)) (t :: (cs' ++ ys'))
  | conditionalElse {t u : Token} {c : Expr} {yes no : Block} {cs cs' ys ys' ns ns' : List Token}
      (ht : t.kind = .keyword .ifWord)
      (hc : Derives clear (.expr c) cs) (hcs : Enclosed .leftParen .rightParen cs cs')
      (hy : Derives clear (.stmts yes) ys) (hys : Enclosed .leftBrace .rightBrace ys ys')
      (hu : u.kind = .keyword .elseWord)
      (hn : Derives clear (.stmts no) ns) (hns : Enclosed .leftBrace .rightBrace ns ns') :
      Derives clear (.held .index (.conditional c yes (some no))) (t :: (cs' ++ (ys' ++ u :: ns')))
  | function {t : Token} {parameters ps ps' bs bs' : List Token} {body : Block}
      (ht : t.kind = .keyword .fnWord) (hnames : ∀ u ∈ parameters, u.kind = .identifier)
      (hps : Separated (parameters.map fun u => [u]) ps)
      (hps' : Enclosed .leftParen .rightParen ps ps')
      (hb : Derives clear (.stmts body) bs) (hbs : Enclosed .leftBrace .rightBrace bs bs') :
      Derives clear (.held .index (.function (parameters.map Name.ofToken) body))
        (t :: (ps' ++ bs'))
  | call {grip : Level} {f : Expr} {arguments : List Expr} {tss : List (List Token)}
      {ts us us' : List Token} (hgrip : .unary < grip) (hf : Derives clear (.held grip f) ts)
      (hlength : arguments.length = tss.length)
      (harguments : ∀ e vs, (e, vs) ∈ arguments.zip tss → Derives clear (.expr e) vs)
      (hus : Separated tss us) (hus' : Enclosed .leftParen .rightParen us us') :
      Derives clear (.held .index (.call f arguments)) (ts ++ us')
  | array {elements : List Expr} {tss : List (List Token)} {us us' : List Token}
      (hlength : elements.length = tss.length)
      (helements : ∀ e vs, (e, vs) ∈ elements.zip tss → Derives clear (.expr e) vs)
      (hus : Separated tss us) (hus' : Enclosed .leftBracket .rightBracket us us') :
      Derives clear (.held .index (.array elements)) us'
  | index {grip : Level} {l i : Expr} {ts us us' : List Token} (hgrip : .unary < grip)
      (hl : Derives clear (.held grip l) ts) (hi : Derives clear (.expr i) us)
      (hus : Enclosed .leftBracket .rightBracket us us') :
      Derives clear (.held .index (.index l i)) (ts ++ us')
  | hash {pairs : List (Expr × Expr)} {tss : List (List Token)} {us us' : List Token}
      (hlength : pairs.length = tss.length)
      (hpairs : ∀ kv vs, (kv, vs) ∈ pairs.zip tss → Derives clear (.pair kv) vs)
      (hus : Terminated tss us) (hus' : Enclosed .leftBrace .rightBrace us us') :
      Derives clear (.held .index (.hash pairs)) us'
  | expr {grip : Level} {e : Expr} {ts : List Token} (he : Derives clear (.held grip e) ts) :
      Derives clear (.expr e) ts
  | pair {t : Token} {k v : Expr} {ks vs : List Token} (ht : t.kind = .symbol .colon)
      (hk : Derives clear (.expr k) ks) (hv : Derives clear (.expr v) vs) :
      Derives clear (.pair (k, v)) (ks ++ t :: vs)
  | binding {t u w : Token} {e : Expr} {ts : List Token} (ht : t.kind = .keyword .letWord)
      (hu : u.kind = .identifier) (hw : w.kind = .symbol .assign)
      (he : Derives clear (.expr e) ts) :
      Derives clear (.stmt (.binding (Name.ofToken u) e)) (t :: u :: w :: ts)
  | ret {t : Token} {e : Expr} {ts : List Token} (ht : t.kind = .keyword .returnWord)
      (he : Derives clear (.expr e) ts) :
      Derives clear (.stmt (.ret e)) (t :: ts)
  | expression {e : Expr} {ts : List Token} (he : Derives clear (.expr e) ts) :
      Derives clear (.stmt (.expression e)) ts
  | loop {t : Token} {c : Expr} {body : Block} {cs cs' bs bs' : List Token}
      (ht : t.kind = .keyword .whileWord)
      (hc : Derives clear (.expr c) cs) (hcs : Enclosed .leftParen .rightParen cs cs')
      (hb : Derives clear (.stmts body) bs) (hbs : Enclosed .leftBrace .rightBrace bs bs') :
      Derives clear (.stmt (.loop c body)) (t :: (cs' ++ bs'))
  | nil : Derives clear (.stmts []) []
  | ended {t : Token} {s : Stmt} {ss : List Stmt} {ts us : List Token}
      (hs : Derives clear (.stmt s) ts) (ht : t.kind = .symbol .semicolon)
      (hss : Derives clear (.stmts ss) us) :
      Derives clear (.stmts (s :: ss)) (ts ++ t :: us)
  | unended {s : Stmt} {ss : List Stmt} {ts us : List Token}
      (hs : Derives clear (.stmt s) ts) (hclear : clear → s.isLoop = false → ¬ Resumes us)
      (hss : Derives clear (.stmts ss) us) :
      Derives clear (.stmts (s :: ss)) (ts ++ us)

end Monkey
