import Mathlib.Data.List.Forall2
import Monkey.Proofs.Display.Legible
import Monkey.Proofs.Grammar.Completeness
import Monkey.Syntax.Render

/-!
# Reading what was written

The text of a legible program is scanned as tokens that are a written form of the program, whatever
the places of its names are; so reading the text gives the program back, up to those places. Every
operator and every index has parentheses of its own in the text, and whatever else is written holds
together by itself, so each part of the text is a written form with the tightest grip.

## Main definitions

* `Expr.Writes`, `Expr.WritesInParens`, `Stmt.Writes`, `WritesStatements` — written forms of a tree
  whose names have any places.
* `Expr.Shows` — that the text of an expression is scanned as a written form of it.
-/

namespace Monkey

open Text Scanner

-- Every text below is taken apart by these equations.
attribute [local simp] Expr.render Stmt.render renderBlock renderAlternative

/-! ## Written forms up to places -/

/-- The tokens are a written form of the expression, up to the places of names, and it holds
together by itself. -/
def Expr.Writes (e : Expr) (ts : List Token) : Prop :=
  ∃ e' : Expr, e'.unplaced = e.unplaced ∧ Derives True (.held .index e') ts

/-- The tokens are a written form of the expression in parentheses, up to the places of names. -/
def Expr.WritesInParens (e : Expr) (ts : List Token) : Prop :=
  ∃ (e' : Expr) (inner : List Token), e'.unplaced = e.unplaced ∧
    Derives True (.expr e') inner ∧ Enclosed .leftParen .rightParen inner ts

/-- The tokens are a written form of the key and the value, up to the places of names. -/
def WritesPair (kv : Expr × Expr) (ts : List Token) : Prop :=
  ∃ kv' : Expr × Expr, (kv'.1.unplaced, kv'.2.unplaced) = (kv.1.unplaced, kv.2.unplaced) ∧
    Derives True (.pair kv') ts

/-- With the tokens before it, a written form of some statements is one of these statements and, up
to the places of names, of the one statement before them. -/
def Stmt.Writes (s : Stmt) (ts : List Token) : Prop :=
  ∃ s' : Stmt, s'.unplaced = s.unplaced ∧ ∀ ss us, Derives True (.stmts ss) us →
    Derives True (.stmts (s' :: ss)) (ts ++ us)

/-- The tokens are a written form of the statements, up to the places of names. -/
def WritesStatements (ss : List Stmt) (ts : List Token) : Prop :=
  ∃ ss' : List Stmt, unplacedStatements ss' = unplacedStatements ss ∧ Derives True (.stmts ss') ts

theorem Expr.WritesInParens.writes {e : Expr} {ts : List Token} (h : e.WritesInParens ts) :
    e.Writes ts := by
  obtain ⟨e', inner, heq, hinner, hts⟩ := h
  exact ⟨e', heq, .parens hinner hts⟩

/-- The text of the expression is scanned as a written form of it, and does not begin with `=`. -/
structure Expr.Shows (e : Expr) : Prop where
  scans : Scans Apart e.Writes e.render.toList
  opens : ∀ rest, (e.render.toList ++ rest).head? ≠ some '='

/-! ## Brackets and commas -/

section Pieces

variable {P : List Char → Prop} {R : List Token → Prop} {cs : List Char}

theorem scans_enclosed {o c : Symbol} (ho : o ≠ .assign ∧ o ≠ .bang)
    (hc : c ≠ .assign ∧ c ≠ .bang) (h : Scans Apart R cs) :
    Scans P (fun ts => ∃ inner, R inner ∧ Enclosed o c inner ts)
      (o.spelling.toList ++ (cs ++ c.spelling.toList)) := by
  have hinner : Scans P _ (cs ++ c.spelling.toList) :=
    h.append (scans_sign hc) fun rest _ => apart_symbol c rest
  refine ((scans_sign ho).andThen hinner).mono (fun ts hts => ?_) fun _ => id
  obtain ⟨_, _, ⟨t, ht, rfl⟩, ⟨inner, _, hinner, ⟨u, hu, rfl⟩, rfl⟩, rfl⟩ := hts
  exact ⟨inner, hinner, t, u, ht, hu, rfl⟩

/-- The text of a block in braces, with a space on either side of it. -/
def inBraces (cs : List Char) : List Char :=
  Symbol.leftBrace.spelling.toList ++ (' ' :: (cs ++ [' ']) ++ Symbol.rightBrace.spelling.toList)

theorem scans_inBraces (h : Scans Apart R cs) :
    Scans P (fun ts => ∃ inner, R inner ∧ Enclosed .leftBrace .rightBrace inner ts)
      (inBraces cs) :=
  scans_enclosed (by decide) (by decide) h.beforeSpace.afterSpace

/-- Texts with a comma and a space between them are scanned as tokens with commas between them. -/
theorem scans_separated {α : Type} {W : α → List Token → Prop} {text : α → List Char} {as : List α}
    (h : ∀ a ∈ as, Scans Apart (W a) (text a)) :
    Scans Apart (fun ts => ∃ tss, List.Forall₂ W as tss ∧ Separated tss ts)
      ([',', ' '].intercalate (as.map text)) := by
  induction as with
  | nil => exact scans_nil.mono (fun ts hts => ⟨[], .nil, hts ▸ .nil⟩) fun _ => id
  | cons a as ih =>
    have ha := h a List.mem_cons_self
    have has := ih fun b hb => h b (List.mem_cons_of_mem a hb)
    cases as with
    | nil =>
      rw [List.map_singleton, List.intercalate_singleton]
      exact ha.mono (fun ts hts => ⟨[ts], .cons hts .nil, .single ts⟩) fun _ => id
    | cons b as =>
      rw [List.map_cons, List.map_cons, List.intercalate_cons_cons, List.append_assoc]
      have hcomma : Scans Apart _ (Symbol.comma.spelling.toList ++ ' ' :: _) :=
        (scans_sign (s := .comma) (by decide)).andThen has.afterSpace
      refine (ha.append hcomma fun rest _ => apart_symbol .comma _).mono (fun ts hts => ?_)
        fun _ => id
      obtain ⟨us, _, hus, ⟨_, vs, ⟨t, ht, rfl⟩, ⟨tss, hall, hvs⟩, rfl⟩, rfl⟩ := hts
      refine ⟨us :: tss, .cons hus hall, .cons ht ?_ hvs⟩
      rintro rfl
      cases hall

end Pieces

/-! ## Lists of written forms -/

/-- Written forms up to places are written forms of things that differ in nothing but places. -/
theorem exists_derives_of_forall₂ {α β : Type} {f : α → β} {φ : α → Phrase} {as : List α}
    {tss : List (List Token)}
    (h : List.Forall₂ (fun a ts => ∃ a', f a' = f a ∧ Derives True (φ a') ts) as tss) :
    ∃ as' : List α, as'.map f = as.map f ∧ as'.length = tss.length ∧
      ∀ a ts, (a, ts) ∈ as'.zip tss → Derives True (φ a) ts := by
  induction h with
  | nil => exact ⟨[], rfl, rfl, by simp⟩
  | cons ha _ ih =>
    obtain ⟨a', hf, hderives⟩ := ha
    obtain ⟨as', hmap, hlength, hall⟩ := ih
    refine ⟨a' :: as', by simp [hf, hmap], by simp [hlength], fun a ts hmem => ?_⟩
    rcases List.mem_cons.mp hmem with heq | hmem
    · obtain ⟨rfl, rfl⟩ := Prod.mk.inj heq
      exact hderives
    · exact hall a ts hmem

/-- Identifiers with these texts are parameters, up to the places of names. -/
theorem exists_parameters_of_forall₂ {names : List Name} {tss : List (List Token)}
    (h : List.Forall₂ (fun n => One fun t => t.kind = .identifier ∧ t.lexeme = n.text) names tss) :
    ∃ ps : List Token, tss = ps.map (fun u => [u]) ∧ (∀ u ∈ ps, u.kind = .identifier) ∧
      (ps.map Name.ofToken).map Name.unplaced = names.map Name.unplaced := by
  induction h with
  | nil => exact ⟨[], rfl, by simp, rfl⟩
  | cons hn _ ih =>
    obtain ⟨t, ⟨hkind, hlexeme⟩, rfl⟩ := hn
    obtain ⟨ps, rfl, hall, hmap⟩ := ih
    refine ⟨t :: ps, rfl, List.forall_mem_cons.mpr ⟨hkind, hall⟩, ?_⟩
    simp [hmap, Name.ofToken, Name.unplaced, hlexeme]

/-- A legible name is scanned as one identifier. -/
theorem Name.scans {n : Name} (h : n.isLegible = true) :
    Scans Apart (One fun t => t.kind = .identifier ∧ t.lexeme = n.text) n.text.toList := by
  simp only [isLegible, Bool.and_eq_true, Option.isNone_iff_eq_none] at h
  exact scans_identifier h.1 h.2

theorem scans_names {names : List Name} (h : names.all Name.isLegible = true) :
    Scans Apart (fun ts => ∃ ps : List Token, (∀ u ∈ ps, u.kind = .identifier) ∧
        (ps.map Name.ofToken).map Name.unplaced = names.map Name.unplaced ∧
        Separated (ps.map fun u => [u]) ts)
      (commaJoin (names.map (·.text))).toList := by
  have hnames (n : Name) (hn : n ∈ names) := Name.scans (List.all_eq_true.mp h n hn)
  have htext : (commaJoin (names.map (·.text))).toList =
      [',', ' '].intercalate (names.map (·.text.toList)) := by
    rw [commaJoin, String.toList_intercalate, List.map_map]
    rfl
  rw [htext]
  refine (scans_separated hnames).mono (fun ts hts => ?_) fun _ => id
  obtain ⟨tss, hall, hseparated⟩ := hts
  obtain ⟨ps, rfl, hkinds, hmap⟩ := exists_parameters_of_forall₂ hall
  exact ⟨ps, hkinds, hmap, hseparated⟩

theorem scans_expressions {es : List Expr} (h : ∀ e ∈ es, e.Shows) :
    Scans Apart (fun ts => ∃ es' tss, unplacedExpressions es' = unplacedExpressions es ∧
        es'.length = tss.length ∧
        (∀ e vs, (e, vs) ∈ es'.zip tss → Derives True (.expr e) vs) ∧ Separated tss ts)
      (commaJoin (renderAll es)).toList := by
  have htext : (commaJoin (renderAll es)).toList =
      [',', ' '].intercalate (es.map (·.render.toList)) := by
    rw [commaJoin, String.toList_intercalate, renderAll_eq_map, List.map_map]
    rfl
  rw [htext]
  refine (scans_separated fun e he => (h e he).scans).mono (fun ts hts => ?_) fun _ => id
  obtain ⟨tss, hall, hseparated⟩ := hts
  obtain ⟨es', hmap, hlength, hderives⟩ := exists_derives_of_forall₂ hall
  refine ⟨es', tss, ?_, hlength, fun e vs hmem => .expr (hderives e vs hmem), hseparated⟩
  rw [unplacedExpressions_eq_map, unplacedExpressions_eq_map, hmap]

theorem scans_pair {k v : Expr} (hk : k.Shows) (hv : v.Shows) :
    Scans Apart (WritesPair (k, v)) (k.render ++ ":" ++ v.render).toList := by
  have htext : (k.render ++ ":" ++ v.render).toList =
      k.render.toList ++ (Symbol.colon.spelling.toList ++ v.render.toList) := by
    simp only [String.toList_append, List.append_assoc]
    rfl
  rw [htext]
  have hcolon : Scans Apart _ (Symbol.colon.spelling.toList ++ v.render.toList) :=
    (scans_sign (by decide)).andThen hv.scans
  have hboth := hk.scans.append hcolon fun rest _ => apart_symbol_append _ _ rest
  refine hboth.mono (fun ts hts => ?_) fun _ => id
  obtain ⟨ks, _, ⟨k', hk', hks⟩, ⟨_, vs, ⟨t, ht, rfl⟩, ⟨v', hv', hvs⟩, rfl⟩, rfl⟩ := hts
  exact ⟨(k', v'), by rw [hk', hv'], .pair ht (.expr hks) (.expr hvs)⟩

theorem scans_pairs {pairs : List (Expr × Expr)} (h : ∀ p ∈ pairs, p.1.Shows ∧ p.2.Shows) :
    Scans Apart (fun ts => ∃ pairs' tss, unplacedPairs pairs' = unplacedPairs pairs ∧
        pairs'.length = tss.length ∧
        (∀ kv vs, (kv, vs) ∈ pairs'.zip tss → Derives True (.pair kv) vs) ∧ Separated tss ts)
      (commaJoin (renderPairs pairs)).toList := by
  have htext : (commaJoin (renderPairs pairs)).toList =
      [',', ' '].intercalate (pairs.map fun p => (p.1.render ++ ":" ++ p.2.render).toList) := by
    rw [commaJoin, String.toList_intercalate, renderPairs_eq_map, List.map_map]
    rfl
  rw [htext]
  have hpairs (p : Expr × Expr) (hp : p ∈ pairs) := scans_pair (h p hp).1 (h p hp).2
  refine (scans_separated hpairs).mono (fun ts hts => ?_) fun _ => id
  obtain ⟨tss, hall, hseparated⟩ := hts
  obtain ⟨pairs', hmap, hlength, hderives⟩ := exists_derives_of_forall₂ hall
  refine ⟨pairs', tss, ?_, hlength, hderives, hseparated⟩
  rw [unplacedPairs_eq_map, unplacedPairs_eq_map, hmap]

/-! ## Expressions -/

section Expressions

theorem head?_symbol_append {s : Symbol} (hs : s ≠ .assign ∧ s ≠ .equal) (rest : List Char) :
    (s.spelling.toList ++ rest).head? ≠ some '=' := by
  cases s <;> simp_all [Symbol.spelling]

theorem shows_name {n : Name} (h : n.isLegible = true) : (Expr.name n).Shows := by
  constructor
  · refine (Name.scans h).mono (fun ts hts => ?_) fun _ => id
    obtain ⟨t, ⟨hkind, hlexeme⟩, rfl⟩ := hts
    exact ⟨.name (Name.ofToken t), by simp [Expr.unplaced, Name.unplaced, Name.ofToken, hlexeme],
      .name hkind⟩
  · intro rest
    have hword : isWord n.text.toList = true := (Bool.and_eq_true_iff.mp h).1
    rw [Expr.render]
    cases hn : n.text.toList with
    | nil => simp [hn, isWord] at hword
    | cons c cs =>
      rw [hn] at hword
      have hc := isWordPart_of_isWordStart (Bool.and_eq_true_iff.mp hword).1
      simpa using ne_of_isWordPart hc rfl

theorem shows_integer {v : Int64} (h : 0 ≤ v) : (Expr.integer v).Shows := by
  obtain ⟨n, htext, hvalue⟩ := ofInt64_eq_repr h
  have hrender : (Expr.integer v).render = n.repr := htext
  constructor
  · rw [hrender]
    refine (scans_numeral n).mono (fun ts hts => ?_) fun _ => id
    obtain ⟨t, ⟨hkind, hlexeme⟩, rfl⟩ := hts
    exact ⟨.integer v, rfl, .integer hkind (hlexeme ▸ hvalue)⟩
  · intro rest
    rw [hrender, Nat.repr_eq_ofList_toDigits, String.toList_ofList]
    have hdigits := all_isDigit_toDigits n
    cases hn : Nat.toDigits 10 n with
    | nil => exact absurd hn Nat.toDigits_ne_nil
    | cons c cs =>
      rw [hn] at hdigits
      have hc := isWordPart_of_isDigit (Bool.and_eq_true_iff.mp hdigits).1
      simpa using ne_of_isWordPart hc rfl

theorem shows_boolean (b : Bool) : (Expr.boolean b).Shows := by
  have hrender : (Expr.boolean b).render = (cond b Keyword.trueWord .falseWord).spelling := by
    cases b <;> rfl
  constructor
  · rw [hrender]
    refine (scans_keyword _).mono (fun ts hts => ?_) fun _ => id
    obtain ⟨t, hkind, rfl⟩ := hts
    exact ⟨.boolean b, rfl, .boolean hkind⟩
  · intro rest
    cases b <;> simp [Expr.render]

variable {P : List Char → Prop} {e l r f i : Expr}

theorem scans_unary (op : UnaryOp) (he : e.Shows) :
    Scans P (Expr.unary op e).WritesInParens (Expr.unary op e).render.toList := by
  have htext : (Expr.unary op e).render.toList = Symbol.leftParen.spelling.toList ++
      ((op.symbol.spelling.toList ++ e.render.toList) ++ Symbol.rightParen.spelling.toList) := by
    simp only [Expr.render, String.toList_append, List.append_assoc]
    rfl
  rw [htext]
  have hinner : Scans Apart _ (op.symbol.spelling.toList ++ e.render.toList) :=
    (scans_symbol op.symbol).append he.scans fun rest _ _ => he.opens rest
  refine (scans_enclosed (by decide) (by decide) hinner).mono (fun ts hts => ?_) fun _ => id
  obtain ⟨_, ⟨_, us, ⟨t, ht, rfl⟩, ⟨e', heq, hus⟩, rfl⟩, hts⟩ := hts
  exact ⟨.unary op e', _, by rw [Expr.unplaced, Expr.unplaced, heq],
    .expr (.unary ht (by decide) hus), hts⟩

theorem scans_binary (op : BinaryOp) (hl : l.Shows) (hr : r.Shows) :
    Scans P (Expr.binary op l r).WritesInParens (Expr.binary op l r).render.toList := by
  have htext : (Expr.binary op l r).render.toList = Symbol.leftParen.spelling.toList ++
      ((l.render.toList ++ (' ' :: (op.symbol.spelling.toList ++ ' ' :: r.render.toList))) ++
        Symbol.rightParen.spelling.toList) := by
    simp only [Expr.render, String.toList_append, List.append_assoc, List.cons_append]
    rfl
  rw [htext]
  have hop : op.symbol ≠ .assign ∧ op.symbol ≠ .bang := by cases op <;> decide
  have hright : Scans Apart _ (' ' :: (op.symbol.spelling.toList ++ ' ' :: r.render.toList)) :=
    ((scans_sign hop).andThen hr.scans.afterSpace).afterSpace
  have hinner := hl.scans.append hright fun rest _ => apart_space _
  refine (scans_enclosed (by decide) (by decide) hinner).mono (fun ts hts => ?_) fun _ => id
  obtain ⟨_, ⟨us, _, ⟨l', hl', hus⟩, ⟨_, vs, ⟨t, ht, rfl⟩, ⟨r', hr', hvs⟩, rfl⟩, rfl⟩, hts⟩ := hts
  have hlevel : op.level ≤ .index ∧ op.level < .index := by cases op <;> decide
  exact ⟨.binary op l' r', _, by rw [Expr.unplaced, Expr.unplaced, hl', hr'],
    .expr (.binary ht hlevel.1 hlevel.2 hus hvs), hts⟩

theorem scans_index (hl : l.Shows) (hi : i.Shows) :
    Scans P (Expr.index l i).WritesInParens (Expr.index l i).render.toList := by
  have htext : (Expr.index l i).render.toList = Symbol.leftParen.spelling.toList ++
      ((l.render.toList ++ (Symbol.leftBracket.spelling.toList ++
        (i.render.toList ++ Symbol.rightBracket.spelling.toList))) ++
        Symbol.rightParen.spelling.toList) := by
    simp only [Expr.render, String.toList_append, List.append_assoc]
    rfl
  rw [htext]
  have hposition : Scans Apart _ (Symbol.leftBracket.spelling.toList ++
      (i.render.toList ++ Symbol.rightBracket.spelling.toList)) :=
    scans_enclosed (by decide) (by decide) hi.scans
  have hinner := hl.scans.append hposition fun rest _ => apart_symbol_append _ _ rest
  refine (scans_enclosed (by decide) (by decide) hinner).mono (fun ts hts => ?_) fun _ => id
  obtain ⟨_, ⟨us, _, ⟨l', hl', hus⟩, ⟨vs, ⟨i', hi', hvs⟩, hvs'⟩, rfl⟩, hts⟩ := hts
  exact ⟨.index l' i', _, by rw [Expr.unplaced, Expr.unplaced, hl', hi'],
    .expr (.index (by decide) hus (.expr hvs) hvs'), hts⟩

/-- What is written in parentheses of its own shows what it is. -/
theorem shows_of_hasParens (h : e.hasParens = true)
    (hscans : Scans Apart e.WritesInParens e.render.toList) : e.Shows := by
  refine ⟨hscans.mono (fun _ hts => hts.writes) fun _ => id, fun rest => ?_⟩
  cases e with
  | unary op e => simp [Expr.render]
  | binary op l r => simp [Expr.render]
  | index l i => simp [Expr.render]
  | _ => simp [Expr.hasParens] at h

variable {c : Expr} {yes no body : Block} {elements arguments : List Expr}
  {parameters : List Name} {pairs : List (Expr × Expr)}

theorem head?_keyword_append (k : Keyword) (rest : List Char) :
    (k.spelling.toList ++ rest).head? ≠ some '=' := by
  cases k <;> simp [Keyword.spelling]

/-- What is left of a conditional or a loop after its keyword. -/
theorem scans_conditionAndBlock (hc : Scans Apart c.WritesInParens c.render.toList)
    (hbody : Scans Apart (WritesStatements body) (renderBlock body).toList) :
    Scans P (Joined c.WritesInParens fun ts => ∃ inner, WritesStatements body inner ∧
        Enclosed .leftBrace .rightBrace inner ts)
      (' ' :: (c.render.toList ++ ' ' :: inBraces (renderBlock body).toList)) :=
  (hc.append (scans_inBraces hbody).afterSpace fun _ _ => apart_space _).afterSpace

theorem shows_conditional (hc : Scans Apart c.WritesInParens c.render.toList)
    (hyes : Scans Apart (WritesStatements yes) (renderBlock yes).toList) :
    (Expr.conditional c yes none).Shows := by
  have htext : (Expr.conditional c yes none).render.toList = Keyword.ifWord.spelling.toList ++
      ' ' :: (c.render.toList ++ ' ' :: inBraces (renderBlock yes).toList) := by
    simp only [Expr.render, renderAlternative, String.toList_append, List.append_assoc,
      List.cons_append, inBraces]
    rfl
  have hall : Scans Apart _ _ := (scans_keyword .ifWord).append (scans_conditionAndBlock hc hyes)
    fun _ _ => apart_space _
  constructor
  · rw [htext]
    refine hall.mono (fun ts hts => ?_) fun _ => id
    obtain ⟨_, _, ⟨t, ht, rfl⟩, ⟨cs', ys', ⟨c', cs, hc', hcs, hcs'⟩, ⟨ys, ⟨yes', hyes', hys⟩, hys'⟩,
      rfl⟩, rfl⟩ := hts
    rw [List.singleton_append]
    exact ⟨.conditional c' yes' none, by simp only [Expr.unplaced, hc', hyes', unplacedAlternative],
      .conditional ht hcs hcs' hys hys'⟩
  · intro rest
    rw [htext, List.append_assoc]
    exact head?_keyword_append _ _

theorem shows_conditionalElse (hc : Scans Apart c.WritesInParens c.render.toList)
    (hyes : Scans Apart (WritesStatements yes) (renderBlock yes).toList)
    (hno : Scans Apart (WritesStatements no) (renderBlock no).toList) :
    (Expr.conditional c yes (some no)).Shows := by
  have htext : (Expr.conditional c yes (some no)).render.toList =
      Keyword.ifWord.spelling.toList ++ ' ' :: (c.render.toList ++
        ' ' :: (inBraces (renderBlock yes).toList ++
          ' ' :: (Keyword.elseWord.spelling.toList ++ ' ' :: inBraces (renderBlock no).toList))) := by
    simp only [Expr.render, renderAlternative, String.toList_append, List.append_assoc,
      List.cons_append, inBraces]
    rfl
  have helse : Scans Apart _ (Keyword.elseWord.spelling.toList ++ ' ' :: inBraces _) :=
    (scans_keyword .elseWord).append (scans_inBraces hno).afterSpace fun _ _ => apart_space _
  have hblocks : Scans Apart _ (inBraces _ ++ ' ' :: _) :=
    (scans_inBraces hyes).andThen helse.afterSpace
  have hrest := hc.append hblocks.afterSpace fun _ _ => apart_space _
  have hall := (scans_keyword .ifWord).append hrest.afterSpace fun _ _ => apart_space _
  constructor
  · rw [htext]
    refine hall.mono (fun ts hts => ?_) fun _ => id
    obtain ⟨_, _, ⟨t, ht, rfl⟩, ⟨cs', _, ⟨c', cs, hc', hcs, hcs'⟩,
      ⟨ys', _, ⟨ys, ⟨yes', hyes', hys⟩, hys'⟩, ⟨_, ns', ⟨u, hu, rfl⟩, ⟨ns, ⟨no', hno', hns⟩, hns'⟩,
      rfl⟩, rfl⟩, rfl⟩, rfl⟩ := hts
    rw [List.singleton_append]
    exact ⟨.conditional c' yes' (some no'),
      by simp only [Expr.unplaced, hc', hyes', unplacedAlternative, hno'],
      .conditionalElse ht hcs hcs' hys hys' hu hns hns'⟩
  · intro rest
    rw [htext, List.append_assoc]
    exact head?_keyword_append _ _

theorem shows_function (hparameters : parameters.all Name.isLegible = true)
    (hbody : Scans Apart (WritesStatements body) (renderBlock body).toList) :
    (Expr.function parameters body).Shows := by
  have htext : (Expr.function parameters body).render.toList = Keyword.fnWord.spelling.toList ++
      ((Symbol.leftParen.spelling.toList ++ ((commaJoin (parameters.map (·.text))).toList ++
        Symbol.rightParen.spelling.toList)) ++ ' ' :: inBraces (renderBlock body).toList) := by
    simp only [Expr.render, String.toList_append, List.append_assoc, List.cons_append, inBraces]
    rfl
  have hrest : Scans Apart _ ((Symbol.leftParen.spelling.toList ++ (_ ++
      Symbol.rightParen.spelling.toList)) ++ ' ' :: inBraces _) :=
    (scans_enclosed (by decide) (by decide) (scans_names hparameters)).andThen
      (scans_inBraces hbody).afterSpace
  have hall := (scans_keyword .fnWord).append hrest fun rest _ => by
    rw [List.append_assoc]
    exact apart_symbol_append _ _ _
  constructor
  · rw [htext]
    refine hall.mono (fun ts hts => ?_) fun _ => id
    obtain ⟨_, _, ⟨t, ht, rfl⟩, ⟨us, bs', ⟨ps', ⟨ps, hkinds, hps, hps'⟩, hus⟩,
      ⟨bs, ⟨body', hbody', hbs⟩, hbs'⟩, rfl⟩, rfl⟩ := hts
    rw [List.singleton_append]
    exact ⟨.function (ps.map Name.ofToken) body', by simp only [Expr.unplaced, hps, hbody'],
      .function ht hkinds hps' hus hbs hbs'⟩
  · intro rest
    rw [htext, List.append_assoc]
    exact head?_keyword_append _ _

theorem shows_call (hf : f.Shows) (harguments : ∀ e ∈ arguments, e.Shows) :
    (Expr.call f arguments).Shows := by
  have htext : (Expr.call f arguments).render.toList = f.render.toList ++
      (Symbol.leftParen.spelling.toList ++ ((commaJoin (renderAll arguments)).toList ++
        Symbol.rightParen.spelling.toList)) := by
    simp only [Expr.render, String.toList_append, List.append_assoc]
    rfl
  have hlist : Scans Apart _ (Symbol.leftParen.spelling.toList ++ (_ ++
      Symbol.rightParen.spelling.toList)) :=
    scans_enclosed (by decide) (by decide) (scans_expressions harguments)
  have hall := hf.scans.append hlist fun rest _ => apart_symbol_append _ _ rest
  constructor
  · rw [htext]
    refine hall.mono (fun ts hts => ?_) fun _ => id
    obtain ⟨us, vs', ⟨f', hf', hus⟩, ⟨vs, ⟨es, tss, hes, hlength, hderives, hvs⟩, hvs'⟩, rfl⟩ := hts
    exact ⟨.call f' es, by simp only [Expr.unplaced, hf', hes],
      .call (by decide) hus hlength hderives hvs hvs'⟩
  · intro rest
    rw [htext, List.append_assoc]
    exact hf.opens _

theorem shows_array (helements : ∀ e ∈ elements, e.Shows) : (Expr.array elements).Shows := by
  have htext : (Expr.array elements).render.toList = Symbol.leftBracket.spelling.toList ++
      ((commaJoin (renderAll elements)).toList ++ Symbol.rightBracket.spelling.toList) := by
    simp only [Expr.render, String.toList_append, List.append_assoc]
    rfl
  have hall : Scans Apart _ (Symbol.leftBracket.spelling.toList ++ (_ ++
      Symbol.rightBracket.spelling.toList)) :=
    scans_enclosed (by decide) (by decide) (scans_expressions helements)
  constructor
  · rw [htext]
    refine hall.mono (fun ts hts => ?_) fun _ => id
    obtain ⟨us, ⟨es, tss, hes, hlength, hderives, hus⟩, hus'⟩ := hts
    exact ⟨.array es, by simp only [Expr.unplaced, hes], .array hlength hderives hus hus'⟩
  · intro rest
    rw [htext, List.append_assoc]
    exact head?_symbol_append (by decide) _

theorem shows_hash (hpairs : ∀ p ∈ pairs, p.1.Shows ∧ p.2.Shows) : (Expr.hash pairs).Shows := by
  have htext : (Expr.hash pairs).render.toList = Symbol.leftBrace.spelling.toList ++
      ((commaJoin (renderPairs pairs)).toList ++ Symbol.rightBrace.spelling.toList) := by
    simp only [Expr.render, String.toList_append, List.append_assoc]
    rfl
  have hall : Scans Apart _ (Symbol.leftBrace.spelling.toList ++ (_ ++
      Symbol.rightBrace.spelling.toList)) :=
    scans_enclosed (by decide) (by decide) (scans_pairs hpairs)
  constructor
  · rw [htext]
    refine hall.mono (fun ts hts => ?_) fun _ => id
    obtain ⟨us, ⟨pairs', tss, heq, hlength, hderives, hus⟩, hus'⟩ := hts
    exact ⟨.hash pairs', by simp only [Expr.unplaced, heq],
      .hash hlength hderives (.inl hus) hus'⟩
  · intro rest
    rw [htext, List.append_assoc]
    exact head?_symbol_append (by decide) _

end Expressions

/-! ## Statements -/

section Statements

variable {P : List Char → Prop} {n : Name} {e c : Expr} {s : Stmt} {ss body : List Stmt}

/-- What is left of a binding or a return after the space before its value. -/
theorem scans_ended (he : e.Shows) :
    Scans P (Joined e.Writes (One fun t => t.kind = .symbol .semicolon))
      (e.render.toList ++ Symbol.semicolon.spelling.toList) :=
  he.scans.append (scans_sign (by decide)) fun rest _ => apart_symbol .semicolon rest

theorem scans_binding (hn : n.isLegible = true) (he : e.Shows) :
    Scans P (Stmt.binding n e).Writes (Stmt.binding n e).render.toList := by
  have htext : (Stmt.binding n e).render.toList = Keyword.letWord.spelling.toList ++
      ' ' :: (n.text.toList ++ ' ' :: (Symbol.assign.spelling.toList ++
        ' ' :: (e.render.toList ++ Symbol.semicolon.spelling.toList))) := by
    simp only [Stmt.render, String.toList_append, List.append_assoc]
    rfl
  rw [htext]
  have hassign : Scans P _ _ := (scans_symbol .assign).append (scans_ended he).afterSpace
    fun _ _ _ => by simp
  have hname := (Name.scans hn).append hassign.afterSpace fun _ _ => apart_space _
  have hall := (scans_keyword .letWord).append hname.afterSpace fun _ _ => apart_space _
  refine hall.mono (fun ts hts => ?_) fun _ => id
  obtain ⟨_, _, ⟨t, ht, rfl⟩, ⟨_, _, ⟨u, ⟨hu, htext⟩, rfl⟩, ⟨_, _, ⟨w, hw, rfl⟩,
    ⟨us, _, ⟨e', heq, hus⟩, ⟨x, hx, rfl⟩, rfl⟩, rfl⟩, rfl⟩, rfl⟩ := hts
  refine ⟨.binding (Name.ofToken u) e', ?_, fun ss vs hvs => ?_⟩
  · simp only [Stmt.unplaced, Name.unplaced, Name.ofToken, htext, heq]
  · have hended := Derives.ended (.binding ht hu hw (.expr hus)) hx hvs
    simpa using hended

theorem scans_ret (he : e.Shows) : Scans P (Stmt.ret e).Writes (Stmt.ret e).render.toList := by
  have htext : (Stmt.ret e).render.toList = Keyword.returnWord.spelling.toList ++
      ' ' :: (e.render.toList ++ Symbol.semicolon.spelling.toList) := by
    simp only [Stmt.render, String.toList_append, List.append_assoc]
    rfl
  rw [htext]
  have hall : Scans P _ _ := (scans_keyword .returnWord).append (scans_ended he).afterSpace
    fun _ _ => apart_space _
  refine hall.mono (fun ts hts => ?_) fun _ => id
  obtain ⟨_, _, ⟨t, ht, rfl⟩, ⟨us, _, ⟨e', heq, hus⟩, ⟨u, hu, rfl⟩, rfl⟩, rfl⟩ := hts
  refine ⟨.ret e', by rw [Stmt.unplaced, Stmt.unplaced, heq], fun ss vs hvs => ?_⟩
  have hended := Derives.ended (.ret ht (.expr hus)) hu hvs
  simpa using hended

theorem scans_loop (hc : Scans Apart c.WritesInParens c.render.toList)
    (hbody : Scans Apart (WritesStatements body) (renderBlock body).toList) :
    Scans P (Stmt.loop c body).Writes (Stmt.loop c body).render.toList := by
  have htext : (Stmt.loop c body).render.toList = Keyword.whileWord.spelling.toList ++
      ' ' :: (c.render.toList ++ ' ' :: inBraces (renderBlock body).toList) := by
    simp only [Stmt.render, String.toList_append, List.append_assoc, List.cons_append, inBraces]
    rfl
  rw [htext]
  have hall : Scans P _ _ := (scans_keyword .whileWord).append (scans_conditionAndBlock hc hbody)
    fun _ _ => apart_space _
  refine hall.mono (fun ts hts => ?_) fun _ => id
  obtain ⟨_, _, ⟨t, ht, rfl⟩, ⟨cs', bs', ⟨c', cs, hc', hcs, hcs'⟩, ⟨bs, ⟨body', hbody', hbs⟩, hbs'⟩,
    rfl⟩, rfl⟩ := hts
  rw [List.singleton_append]
  refine ⟨.loop c' body', by rw [Stmt.unplaced, Stmt.unplaced, hc', hbody'], fun ss us hus => ?_⟩
  exact .unended (.loop ht hcs hcs' hbs hbs') (fun _ hloop => by simp [Stmt.isLoop] at hloop) hus

/-- An expression is a statement if nothing comes after it. -/
theorem scans_expression (he : e.Shows) :
    Scans Apart (WritesStatements [.expression e]) (Stmt.expression e).render.toList := by
  refine he.scans.mono (fun ts hts => ?_) fun _ => id
  obtain ⟨e', heq, hts⟩ := hts
  refine ⟨[.expression e'], by simp only [unplacedStatements, Stmt.unplaced, heq], ?_⟩
  have hlast := Derives.unended (.expression (.expr hts)) (fun _ _ => by simp [Resumes]) .nil
  rwa [List.append_nil] at hlast

theorem scans_statements (hs : Scans (fun _ => True) s.Writes s.render.toList)
    (hss : Scans Apart (WritesStatements ss) (renderBlock ss).toList) :
    Scans Apart (WritesStatements (s :: ss)) (renderBlock (s :: ss)).toList := by
  rw [renderBlock, String.toList_append]
  refine (hs.andThen hss).mono (fun ts hts => ?_) fun _ => id
  obtain ⟨us, vs, ⟨s', hs', hderives⟩, ⟨ss', hss', hvs⟩, rfl⟩ := hts
  exact ⟨s' :: ss', by simp only [unplacedStatements, hs', hss'], hderives ss' vs hvs⟩

end Statements

/-! ## Programs -/

mutual

/-- Every legible expression shows what it is. The recursion is on the tree, with a theorem for each
sort of list in it. -/
theorem Expr.shows : ∀ e : Expr, e.isLegible = true → e.Shows
  | .name n, h => shows_name h
  | .integer v, h => shows_integer (by simpa [Expr.isLegible] using h)
  | .string s, h => by simp [Expr.isLegible] at h
  | .boolean b, _ => shows_boolean b
  | .unary op e, h => shows_of_hasParens rfl (scans_unary op (e.shows h))
  | .binary op l r, h => by
    simp only [Expr.isLegible, Bool.and_eq_true] at h
    exact shows_of_hasParens rfl (scans_binary op (l.shows h.1) (r.shows h.2))
  | .conditional c yes no, h => by
    simp only [Expr.isLegible, Bool.and_eq_true] at h
    have hc := c.scans_of_hasParens h.1.1.1 h.1.1.2
    have hyes := scans_renderBlock yes h.1.2
    cases no with
    | none => exact shows_conditional hc hyes
    | some no => exact shows_conditionalElse hc hyes (scans_renderBlock no h.2)
  | .function parameters body, h => by
    simp only [Expr.isLegible, Bool.and_eq_true] at h
    exact shows_function h.1 (scans_renderBlock body h.2)
  | .call f arguments, h => by
    simp only [Expr.isLegible, Bool.and_eq_true] at h
    exact shows_call (f.shows h.1) (shows_expressions arguments h.2)
  | .array elements, h => shows_array (shows_expressions elements h)
  | .index l i, h => by
    simp only [Expr.isLegible, Bool.and_eq_true] at h
    exact shows_of_hasParens rfl (scans_index (l.shows h.1) (i.shows h.2))
  | .hash pairs, h => shows_hash (shows_pairs pairs h)

/-- An expression with parentheses of its own can be a condition. -/
theorem Expr.scans_of_hasParens : ∀ e : Expr, e.hasParens = true → e.isLegible = true →
    Scans Apart e.WritesInParens e.render.toList
  | .unary op e, _, h => scans_unary op (e.shows h)
  | .binary op l r, _, h => by
    simp only [Expr.isLegible, Bool.and_eq_true] at h
    exact scans_binary op (l.shows h.1) (r.shows h.2)
  | .index l i, _, h => by
    simp only [Expr.isLegible, Bool.and_eq_true] at h
    exact scans_index (l.shows h.1) (i.shows h.2)

/-- An expression is the last statement, so what could go on with it never comes after it. -/
theorem scans_renderBlock : ∀ ss : List Stmt, statementsAreLegible ss = true →
    Scans Apart (WritesStatements ss) (renderBlock ss).toList
  | [], _ => scans_nil.mono (fun _ hts => ⟨[], rfl, hts ▸ .nil⟩) fun _ => id
  | .binding n e :: rest, h => by
    simp only [statementsAreLegible, Stmt.isLegible, Bool.and_eq_true] at h
    exact scans_statements (scans_binding h.1.1.1 (e.shows h.1.1.2)) (scans_renderBlock rest h.2)
  | .ret e :: rest, h => by
    simp only [statementsAreLegible, Stmt.isLegible, Bool.and_eq_true] at h
    exact scans_statements (scans_ret (e.shows h.1.1)) (scans_renderBlock rest h.2)
  | .loop c body :: rest, h => by
    simp only [statementsAreLegible, Stmt.isLegible, Bool.and_eq_true] at h
    obtain ⟨⟨⟨⟨hparens, hc⟩, hbody⟩, -⟩, hrest⟩ := h
    exact scans_statements (scans_loop (c.scans_of_hasParens hparens hc)
      (scans_renderBlock body hbody)) (scans_renderBlock rest hrest)
  | [.expression e], h => by
    simp only [statementsAreLegible, Stmt.isLegible, Bool.and_eq_true] at h
    rw [renderBlock, renderBlock, String.append_empty]
    exact scans_expression (e.shows h.1.1)
  | .expression e :: s :: rest, h => by
    simp [statementsAreLegible, Stmt.isExpression] at h

theorem shows_expressions : ∀ es : List Expr, expressionsAreLegible es = true →
    ∀ e ∈ es, e.Shows
  | [], _ => by simp
  | e :: rest, h => by
    simp only [expressionsAreLegible, Bool.and_eq_true] at h
    exact List.forall_mem_cons.mpr ⟨e.shows h.1, shows_expressions rest h.2⟩

theorem shows_pairs : ∀ pairs : List (Expr × Expr), pairsAreLegible pairs = true →
    ∀ p ∈ pairs, p.1.Shows ∧ p.2.Shows
  | [], _ => by simp
  | (k, v) :: rest, h => by
    simp only [pairsAreLegible, Bool.and_eq_true] at h
    exact List.forall_mem_cons.mpr ⟨⟨k.shows h.1.1, v.shows h.1.2⟩, shows_pairs rest h.2⟩

end

/-- The text of a legible program is read as the program, up to the places of its names, and
nothing of it is dropped. -/
theorem ofString_render {p : Program} (h : Block.isLegible p = true) :
    ∃ p', Program.ofTokens (Token.ofString (Block.render p)) = (p', []) ∧
      Block.unplaced p' = Block.unplaced p := by
  have hscans : Scans Apart (WritesStatements p) (Block.render p).toList := scans_renderBlock p h
  obtain ⟨ts, mark, ⟨p', heq, hderives⟩, hmark, htokens⟩ := hscans.ofString
  refine ⟨p', ?_, heq⟩
  rw [htokens]
  exact hderives.completed.ofTokens hmark

/-- A function that leaves a loop, and a call of it. -/
def loopProgram : Program :=
  [.binding ⟨"f", {}⟩ (.function [⟨"x", {}⟩]
      [.loop (.binary .less (.name ⟨"x", {}⟩) (.integer 3))
        [.ret (.unary .negate (.name ⟨"x", {}⟩))], .expression (.array [.name ⟨"x", {}⟩])]),
    .expression (.call (.name ⟨"f", {}⟩) [.integer 2])]

theorem ofString_render_loopProgram :
    Block.render loopProgram =
      "let f = fn(x) \x7b while (x < 3) \x7b return (-x); \x7d[x] \x7d;f(2)" ∧
    ∃ p', Program.ofTokens (Token.ofString (Block.render loopProgram)) = (p', []) ∧
      Block.unplaced p' = Block.unplaced loopProgram :=
  ⟨by decide, ofString_render (by decide)⟩

end Monkey
