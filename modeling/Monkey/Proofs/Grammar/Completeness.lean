import Monkey.Proofs.Grammar.Opening
import Monkey.Proofs.Reader.Budget

/-!
# What follows the grammar is read

A written form of a program is read as that program, and nothing of it is dropped. The induction is
over the derivation and says of each phrase that it is read wherever its written form stands, as
long as the token after it does not go on with the phrase and the budget is twice the number of its
tokens.

An expression with operators is no single reader's work: its left operand is read first, and a loop
takes up what follows. So of an expression with a grip it is said that the loop gets to it, whatever
the loop is to read after it.

## Main definitions

* `Reaches` — that an operand is made longer until it is an expression.
* `Phrase.Completed` — that a phrase is read where its written form stands.
-/

namespace Monkey

open Reader

/-! ## Expressions -/

/-- The reader of the statements of a block, up to and including its closing brace. -/
abbrev block (n : Nat) : Reader Block := itemsUntil .rightBrace (recover (statement n)) n

/-- A larger number of rounds takes up the same. -/
theorem suffixes_mono {expr : Level → Reader Expr} {n k k' : Nat} {l : Level} {left e : Expr}
    {c rest : Cursor} (h : Reads (suffixes expr n l k left) c e rest) (hk : k ≤ k') :
    Reads (suffixes expr n l k' left) c e rest := by
  induction k generalizing k' left c with
  | zero => simp [suffixes] at h
  | succ k ih =>
    cases k' with
    | zero => omega
    | succ k' =>
      rcases reads_suffixes_succ.mp h with
        hstop | ⟨s, longer, mid, hs, hlt, hlonger, hrest⟩
      · exact reads_suffixes_succ.mpr (.inl hstop)
      · exact reads_suffixes_succ.mpr
          (.inr ⟨s, longer, mid, hs, hlt, hlonger, ih hrest (by omega)⟩)

/-- The operand that `e` begins with is read from `c` on and then made longer, for at most `m`
rounds, until it is `e`. What the loop reads after `e` is left open. -/
def Reaches (n m : Nat) (l : Level) (c : Cursor) (e : Expr) (rest : Cursor) : Prop :=
  ∀ (k : Nat) (e' : Expr) (rest' : Cursor),
    Reads (suffixes (expression n) n l k e) rest e' rest' →
      ∃ left mid, Reads (operand (expression n) (block n) n) c left mid ∧
        Reads (suffixes (expression n) n l (k + m) left) mid e' rest'

/-- That a phrase is read where its tokens stand, if the budget is at least twice their number and
what comes next does not go on with it. -/
def Phrase.Completed : Phrase → List Token → Prop
  | .held p e, ts => ∀ ⦃n : Nat⦄ ⦃l : Level⦄ ⦃c rest : Cursor⦄, 2 * ts.length ≤ n → l ≤ .unary →
      l.Admits p → c.Passes ts rest → p.Ends rest.kind → Reaches n ts.length l c e rest
  | .expr e, ts => ∀ ⦃n : Nat⦄, 2 * ts.length + 1 ≤ n → ReadsOver (expression n .lowest) e ts
  | .pair kv, ts => ∀ ⦃n : Nat⦄, 2 * ts.length + 1 ≤ n →
      ReadsOver (keyAndValue (expression n)) kv ts
  | .stmt s, ts => ∀ ⦃n : Nat⦄ ⦃c rest : Cursor⦄, 2 * ts.length + 1 ≤ n → c.Passes ts rest →
      rest.kind ≠ .keyword .elseWord → (s.isLoop = false → Level.lowest.Rests rest.kind) →
      Reads (statementBody (expression n) (block n)) c s rest
  | .stmts ss, ts => ∀ ⦃n : Nat⦄ ⦃c rest : Cursor⦄, 2 * ts.length + 2 ≤ n → c.Passes ts rest →
      EndsBlock .rightBrace rest.kind →
      ss.length ≤ ts.length ∧ ReadsAll (EndsBlock .rightBrace) (statement n) c ss rest

section Completed

variable {n m : Nat} {l p : Level} {c rest : Cursor} {e : Expr} {ts : List Token}

/-- An operand is reached without any round. -/
theorem Reaches.of_operand (h : Reads (operand (expression n) (block n) n) c e rest) (m : Nat) :
    Reaches n m l c e rest :=
  fun k _ _ hrest => ⟨e, rest, h, suffixes_mono hrest (Nat.le_add_right k m)⟩

/-- From what is reached one more round reaches what is longer by one suffix. -/
theorem Reaches.extend {left : Expr} {mid : Cursor} {s : Suffix} (h : Reaches n m l c left mid)
    (hs : Suffix.ofKind? mid.kind = some s) (hlt : l < s.level)
    (hextend : Reads (extend (expression n) n left s) mid.next e rest) {m' : Nat} (hm : m < m') :
    Reaches n m' l c e rest := by
  intro k e' rest' hrest
  have hround := reads_suffixes_succ.mpr (.inr ⟨s, e, rest, hs, hlt, hextend, hrest⟩)
  obtain ⟨first, mid', hfirst, hrounds⟩ := h (k + 1) e' rest' hround
  exact ⟨first, mid', hfirst, suffixes_mono hrounds (by omega)⟩

/-- What comes next ends the expression, so the loop stops when it has reached it. -/
theorem Reaches.reads (h : Reaches n m l c e rest) (hrests : l.Rests rest.kind) (hm : m < n) :
    Reads (expression (n + 1) l) c e rest := by
  have hstop : Reads (suffixes (expression n) n l 1 e) rest e rest :=
    reads_suffixes_succ.mpr (.inl ⟨hrests, rfl, rfl⟩)
  obtain ⟨left, mid, hleft, hrounds⟩ := h 1 e rest hstop
  exact reads_expression_succ.mpr ⟨left, mid, hleft, suffixes_mono hrounds (by omega)⟩

theorem Phrase.Completed.reads (h : (Phrase.held p e).Completed ts) (hn : 2 * ts.length + 1 ≤ n)
    (hpos : 0 < ts.length) (hl : l ≤ .unary) (hadmits : l.Admits p) (hpass : c.Passes ts rest)
    (hends : p.Ends rest.kind) (hrests : l.Rests rest.kind) : Reads (expression n l) c e rest := by
  cases n with
  | zero => omega
  | succ n =>
    exact Reaches.reads (h (by omega) hl hadmits hpass hends) hrests (by omega)

theorem Phrase.Completed.enclosed {opening closing : Symbol} {inner : List Token}
    (h : (Phrase.expr e).Completed inner) (hencl : Enclosed opening closing inner ts)
    (hclosing : Suffix.ofKind? (.symbol closing) = none) (hn : 2 * ts.length ≤ n)
    (hpass : c.Passes ts rest) :
    ReadsEnclosed opening closing (expression n .lowest) c e rest := by
  obtain ⟨t, u, first, last, ht, hfirst, hinner, hu, hlast⟩ := hencl.passes hpass
  have hlength := hencl.length_eq
  refine ⟨t, u, first, last, ht, hfirst, h (by omega) hinner ?_, hu, hlast⟩
  rw [hlast.kind, hu]
  exact Level.ends_symbol hclosing

theorem Phrase.Completed.braced {b : Block} {inner : List Token}
    (h : (Phrase.stmts b).Completed inner) (hencl : Enclosed .leftBrace .rightBrace inner ts)
    (hn : 2 * ts.length ≤ n) (hpass : c.Passes ts rest) : Reads (braced (block n)) c b rest := by
  obtain ⟨t, u, first, last, ht, hfirst, hinner, hu, hlast⟩ := hencl.passes hpass
  have hlength := hencl.length_eq
  obtain ⟨hle, hall⟩ := h (n := n) (by omega) hinner (.inl (hlast.kind.trans hu))
  exact reads_braced.mpr
    ⟨t, first, ht, hfirst, reads_itemsUntil_of_readsAll hall hu hlast n (by omega)⟩

/-! ## Operands -/

/-- What is read as an operand is reached at every level. -/
theorem completed_of_operand
    (h : ∀ {n : Nat} {c rest : Cursor}, 2 * ts.length ≤ n → c.Passes ts rest →
      rest.kind ≠ .keyword .elseWord → Reads (operand (expression n) (block n) n) c e rest) :
    (Phrase.held p e).Completed ts :=
  fun _ _ _ _ hn _ _ hpass hends => .of_operand (h hn hpass hends.1) _

theorem completed_token {t : Token}
    (h : ∀ {n : Nat} {c : Cursor}, c.head = t →
      Reads (operand (expression n) (block n) n) c e c.next) : (Phrase.held p e).Completed [t] := by
  refine completed_of_operand fun {n c rest} _ hpass _ => ?_
  obtain rfl := (Cursor.passes_singleton.mp hpass).2
  exact h hpass.head

theorem completed_parens {inner : List Token} (h : (Phrase.expr e).Completed inner)
    (hencl : Enclosed .leftParen .rightParen inner ts) : (Phrase.held p e).Completed ts := by
  refine completed_of_operand fun {n c rest} hn hpass _ => ?_
  obtain ⟨t, u, first, last, ht, hfirst, hinner, hu, hlast⟩ := h.enclosed hencl rfl hn hpass
  refine reads_bind.mpr ⟨t, c.next, reads_take.mpr ⟨hfirst.head.symm, rfl⟩, ?_⟩
  rw [ht]
  obtain rfl := (Cursor.passes_singleton.mp hfirst).2
  simp only [reads_bind, reads_expect_symbol, reads_pure]
  exact ⟨e, last, hinner, u, rest, ⟨hu, hlast⟩, rfl, rfl⟩

theorem completed_unary {op : UnaryOp} {t : Token} {grip : Level}
    (ht : t.kind = .symbol op.symbol) (hgrip : .unary ≤ grip) (hpos : 0 < ts.length)
    (h : (Phrase.held grip e).Completed ts) :
    (Phrase.held .unary (.unary op e)).Completed (t :: ts) := by
  intro n l c rest hn _ _ hpass hends
  refine Reaches.of_operand ?_ _
  refine reads_bind.mpr ⟨t, c.next, reads_take.mpr ⟨hpass.head.symm, rfl⟩, ?_⟩
  have he : Reads (expression n .unary) c.next e rest :=
    h.reads (by simp at hn; omega) hpos (by decide) (.inr hgrip) (Cursor.passes_cons.mp hpass).2
      (hends.mono hgrip) hends.2
  rw [ht]
  cases op <;> exact reads_map.mpr ⟨e, he, rfl⟩

theorem completed_conditional {t : Token} {test : Expr} {yes : Block}
    {cs cs' ys ys' : List Token} (ht : t.kind = .keyword .ifWord)
    (hc : (Phrase.expr test).Completed cs) (hcs : Enclosed .leftParen .rightParen cs cs')
    (hy : (Phrase.stmts yes).Completed ys) (hys : Enclosed .leftBrace .rightBrace ys ys') :
    (Phrase.held p (.conditional test yes none)).Completed (t :: (cs' ++ ys')) := by
  refine completed_of_operand fun {n c rest} hn hpass helse => ?_
  simp only [List.length_cons, List.length_append] at hn
  refine reads_bind.mpr ⟨t, c.next, reads_take.mpr ⟨hpass.head.symm, rfl⟩, ?_⟩
  obtain ⟨mid, hcond, hbody⟩ := Cursor.passes_append.mp (Cursor.passes_cons.mp hpass).2
  rw [ht]
  exact reads_conditionalRest.mpr ⟨test, yes, mid, rest,
    reads_condition.mpr (hc.enclosed hcs rfl (by omega) hcond),
    hy.braced hys (by omega) hbody, .inl ⟨helse, rfl, rfl⟩⟩

theorem completed_conditionalElse {t u : Token} {test : Expr} {yes no : Block}
    {cs cs' ys ys' ns ns' : List Token} (ht : t.kind = .keyword .ifWord)
    (hc : (Phrase.expr test).Completed cs) (hcs : Enclosed .leftParen .rightParen cs cs')
    (hy : (Phrase.stmts yes).Completed ys) (hys : Enclosed .leftBrace .rightBrace ys ys')
    (hu : u.kind = .keyword .elseWord)
    (hn : (Phrase.stmts no).Completed ns) (hns : Enclosed .leftBrace .rightBrace ns ns') :
    (Phrase.held p (.conditional test yes (some no))).Completed
      (t :: (cs' ++ (ys' ++ u :: ns'))) := by
  refine completed_of_operand fun {n c rest} hlength hpass _ => ?_
  simp only [List.length_cons, List.length_append] at hlength
  refine reads_bind.mpr ⟨t, c.next, reads_take.mpr ⟨hpass.head.symm, rfl⟩, ?_⟩
  obtain ⟨c₁, hcond, hpass⟩ := Cursor.passes_append.mp (Cursor.passes_cons.mp hpass).2
  obtain ⟨c₂, hyes, hpass⟩ := Cursor.passes_append.mp hpass
  rw [ht]
  exact reads_conditionalRest.mpr ⟨test, yes, c₁, c₂,
    reads_condition.mpr (hc.enclosed hcs rfl (by omega) hcond),
    hy.braced hys (by omega) hyes,
    .inr ⟨no, hpass.kind.trans hu, rfl,
      hn.braced hns (by omega) (Cursor.passes_cons.mp hpass).2⟩⟩

theorem completed_function {t : Token} {parameters ps ps' bs bs' : List Token} {body : Block}
    (ht : t.kind = .keyword .fnWord) (hnames : ∀ u ∈ parameters, u.kind = .identifier)
    (hps : Separated (parameters.map fun u => [u]) ps)
    (hps' : Enclosed .leftParen .rightParen ps ps')
    (hb : (Phrase.stmts body).Completed bs) (hbs : Enclosed .leftBrace .rightBrace bs bs') :
    (Phrase.held p (.function (parameters.map Name.ofToken) body)).Completed
      (t :: (ps' ++ bs')) := by
  refine completed_of_operand fun {n c rest} hn hpass _ => ?_
  simp only [List.length_cons, List.length_append] at hn
  refine reads_bind.mpr ⟨t, c.next, reads_take.mpr ⟨hpass.head.symm, rfl⟩, ?_⟩
  obtain ⟨mid, hparameters, hbody⟩ := Cursor.passes_append.mp (Cursor.passes_cons.mp hpass).2
  obtain ⟨u, v, first, last, hu, hfirst, hinner, hv, hlast⟩ := hps'.passes hparameters
  have hlength := hps'.length_eq
  have hcount := hps.length_le
  rw [List.length_map] at hcount
  have hlist : Reads (commaList .rightParen (expect .identifier) n) first parameters mid := by
    refine reads_commaList_of_separated hps (by simp) (fun a us hmem => ?_) (fun us hmem => ?_)
      rfl rfl (by decide) hinner hv hlast (by omega)
    · rw [← List.map_prod_left_eq_zip, List.mem_map] at hmem
      obtain ⟨w, hw, heq⟩ := hmem
      obtain ⟨rfl, rfl⟩ := Prod.mk.inj heq
      exact fun _ _ hpass _ => reads_expect_identifier.mpr ⟨hnames w hw, hpass⟩
    · obtain ⟨w, hw, rfl⟩ := List.mem_map.mp hmem
      exact ⟨w, [], rfl, by rw [hnames w hw]; rfl⟩
  rw [ht]
  exact reads_functionRest.mpr ⟨u, parameters, body, first, mid, hu, hfirst, hlist,
    hb.braced hbs (by omega) hbody, rfl⟩

/-- The arguments of a call and the elements of an array are read up to the closing symbol. -/
theorem reads_exprList {es : List Expr} {tss : List (List Token)} {us us' : List Token}
    {opening close : Symbol} (hlength : es.length = tss.length)
    (hopens : ∀ e vs, (e, vs) ∈ es.zip tss → Begins Token.Kind.opensExpr vs)
    (hes : ∀ e vs, (e, vs) ∈ es.zip tss → (Phrase.expr e).Completed vs)
    (hus : Separated tss us) (hus' : Enclosed opening close us us')
    (hclose : Token.Kind.opensExpr (.symbol close) = false)
    (hsuffix : Suffix.ofKind? (.symbol close) = none) (hcomma : close ≠ .comma)
    (hn : 2 * us'.length ≤ n) (hpass : c.Passes us' rest) :
    c.kind = .symbol opening ∧
      Reads (commaList close (expression n .lowest) n) c.next es rest := by
  obtain ⟨t, u, first, last, ht, hfirst, hinner, hu, hlast⟩ := hus'.passes hpass
  have hsize := hus'.length_eq
  have hcount := hus.length_le
  obtain rfl := (Cursor.passes_singleton.mp hfirst).2
  refine ⟨hfirst.kind.trans ht, ?_⟩
  refine reads_commaList_of_separated hus hlength (fun e vs hmem => hes e vs hmem ?_)
    (forall_mem_of_zip hlength hopens) hclose hsuffix hcomma hinner hu hlast (by omega)
  have := hus.length_le_of_mem (List.of_mem_zip hmem).2
  omega

theorem completed_array {es : List Expr} {tss : List (List Token)} {us us' : List Token}
    (hlength : es.length = tss.length)
    (hopens : ∀ e vs, (e, vs) ∈ es.zip tss → Begins Token.Kind.opensExpr vs)
    (hes : ∀ e vs, (e, vs) ∈ es.zip tss → (Phrase.expr e).Completed vs)
    (hus : Separated tss us) (hus' : Enclosed .leftBracket .rightBracket us us') :
    (Phrase.held p (.array es)).Completed us' := by
  refine completed_of_operand fun {n c rest} hn hpass _ => ?_
  obtain ⟨hkind, hlist⟩ := reads_exprList hlength hopens hes hus hus' rfl rfl (by decide) hn hpass
  refine reads_bind.mpr ⟨c.head, c.next, reads_take.mpr ⟨rfl, rfl⟩, ?_⟩
  rw [show c.head.kind = .symbol .leftBracket from hkind]
  exact reads_map.mpr ⟨es, hlist, rfl⟩

theorem completed_hash {pairs : List (Expr × Expr)} {tss : List (List Token)}
    {us us' : List Token} (hlength : pairs.length = tss.length)
    (hopens : ∀ kv vs, (kv, vs) ∈ pairs.zip tss → Begins Token.Kind.opensExpr vs)
    (hpairs : ∀ kv vs, (kv, vs) ∈ pairs.zip tss → (Phrase.pair kv).Completed vs)
    (hus : Terminated tss us) (hus' : Enclosed .leftBrace .rightBrace us us') :
    (Phrase.held p (.hash pairs)).Completed us' := by
  refine completed_of_operand fun {n c rest} hn hpass _ => ?_
  obtain ⟨t, u, first, last, ht, hfirst, hinner, hu, hlast⟩ := hus'.passes hpass
  have hsize := hus'.length_eq
  have hcount := hus.length_le
  obtain rfl := (Cursor.passes_singleton.mp hfirst).2
  refine reads_bind.mpr ⟨t, c.next, reads_take.mpr ⟨hfirst.head.symm, rfl⟩, ?_⟩
  rw [ht]
  refine reads_map.mpr ⟨pairs, ?_, rfl⟩
  refine reads_commaEnded_of_terminated hus hlength (fun kv vs hmem => hpairs kv vs hmem ?_)
    (forall_mem_of_zip hlength hopens) rfl rfl (by decide) hinner hu hlast (by omega)
  have := hus.length_le_of_mem (List.of_mem_zip hmem).2
  omega

/-! ## Operators, calls and indexes -/

theorem completed_binary {op : BinaryOp} {t : Token} {q : Level} {left right : Expr}
    {us : List Token} (ht : t.kind = .symbol op.symbol) (hp : op.level ≤ p) (hq : op.level < q)
    (hpos : 0 < us.length) (hleft : (Phrase.held p left).Completed ts)
    (hright : (Phrase.held q right).Completed us) :
    (Phrase.held op.level (.binary op left right)).Completed (ts ++ t :: us) := by
  intro n l c rest hn hl hadmits hpass hends
  simp only [List.length_append, List.length_cons] at hn ⊢
  obtain ⟨mid, hts, hpass⟩ := Cursor.passes_append.mp hpass
  have hmid : mid.kind = .symbol op.symbol := hpass.kind.trans ht
  have hlt : l < op.level := Level.lt_operator hadmits
  have hle : op.level ≤ q := Nat.le_of_lt hq
  have hreach := hleft (n := n) (by omega) hl (.inl (Nat.lt_of_lt_of_le hlt hp)) hts
    (by rw [hmid]; exact Level.ends_operator hp)
  refine hreach.extend (Suffix.ofKind?_eq_some_operator.mpr hmid) hlt ?_ (by omega)
  have hr : Reads (expression n op.level) mid.next right rest :=
    hright.reads (by omega) hpos (by cases op <;> decide) (.inl hq) (Cursor.passes_cons.mp hpass).2
      (hends.mono hle) hends.2
  exact reads_map.mpr ⟨right, hr, rfl⟩

theorem completed_call {f : Expr} {arguments : List Expr} {tss : List (List Token)}
    {us us' : List Token} (hf : (Phrase.held .index f).Completed ts)
    (hlength : arguments.length = tss.length)
    (hopens : ∀ e vs, (e, vs) ∈ arguments.zip tss → Begins Token.Kind.opensExpr vs)
    (harguments : ∀ e vs, (e, vs) ∈ arguments.zip tss → (Phrase.expr e).Completed vs)
    (hus : Separated tss us) (hus' : Enclosed .leftParen .rightParen us us') :
    (Phrase.held p (.call f arguments)).Completed (ts ++ us') := by
  intro n l c rest hn hl _ hpass _
  have hsize := hus'.length_eq
  simp only [List.length_append] at hn ⊢
  obtain ⟨mid, hts, hpass⟩ := Cursor.passes_append.mp hpass
  obtain ⟨hkind, hlist⟩ :=
    reads_exprList (n := n) hlength hopens harguments hus hus' rfl rfl (by decide) (by omega)
      hpass
  have hreach := hf (n := n) (by omega) hl Level.admits_index hts
    (by rw [hkind]; exact Level.ends_index)
  refine hreach.extend (Suffix.ofKind?_eq_some_call.mpr hkind)
    (Nat.lt_of_le_of_lt hl (by decide)) ?_ (by omega)
  exact reads_map.mpr ⟨arguments, hlist, rfl⟩

theorem completed_index {left position : Expr} {us us' : List Token}
    (hleft : (Phrase.held .index left).Completed ts)
    (hposition : (Phrase.expr position).Completed us)
    (hus : Enclosed .leftBracket .rightBracket us us') :
    (Phrase.held p (.index left position)).Completed (ts ++ us') := by
  intro n l c rest hn hl _ hpass _
  have hsize := hus.length_eq
  simp only [List.length_append] at hn ⊢
  obtain ⟨mid, hts, hpass⟩ := Cursor.passes_append.mp hpass
  obtain ⟨t, u, first, last, ht, hfirst, hinner, hu, hlast⟩ :=
    hposition.enclosed (n := n) hus rfl (by omega) hpass
  have hkind : mid.kind = .symbol .leftBracket := hfirst.kind.trans ht
  obtain rfl := (Cursor.passes_singleton.mp hfirst).2
  have hreach := hleft (n := n) (by omega) hl Level.admits_index hts
    (by rw [hkind]; exact Level.ends_index)
  refine hreach.extend (Suffix.ofKind?_eq_some_index.mpr hkind)
    (Nat.lt_of_le_of_lt hl (by decide)) ?_ (by omega)
  simp only [extend, reads_bind, reads_expect_symbol, reads_pure]
  exact ⟨position, last, hinner, u, rest, ⟨hu, hlast⟩, rfl, rfl⟩

/-! ## Statements -/

theorem completed_binding {t u w : Token} (ht : t.kind = .keyword .letWord)
    (hu : u.kind = .identifier) (hw : w.kind = .symbol .assign)
    (he : (Phrase.expr e).Completed ts) :
    (Phrase.stmt (.binding (Name.ofToken u) e)).Completed (t :: u :: w :: ts) := by
  intro n c rest hn hpass helse hrests
  simp only [List.length_cons] at hn
  obtain ⟨-, hpass'⟩ := Cursor.passes_cons.mp hpass
  obtain ⟨hname, hpass'⟩ := Cursor.passes_cons.mp hpass'
  obtain ⟨hassign, hvalue⟩ := Cursor.passes_cons.mp hpass'
  refine reads_bind.mpr ⟨c.head, c, reads_peek.mpr ⟨rfl, rfl⟩, ?_⟩
  rw [hpass.head, ht]
  simp only [reads_bind, reads_take, reads_expect_identifier, reads_expect_symbol, reads_pure]
  exact ⟨_, _, ⟨rfl, rfl⟩, u, _, ⟨hu, hname⟩, w, _, ⟨hw, hassign⟩, e, rest,
    he (by omega) hvalue ⟨helse, hrests rfl⟩, rfl, rfl⟩

theorem completed_ret {t : Token} (ht : t.kind = .keyword .returnWord)
    (he : (Phrase.expr e).Completed ts) : (Phrase.stmt (.ret e)).Completed (t :: ts) := by
  intro n c rest hn hpass helse hrests
  simp only [List.length_cons] at hn
  refine reads_bind.mpr ⟨c.head, c, reads_peek.mpr ⟨rfl, rfl⟩, ?_⟩
  rw [hpass.head, ht]
  simp only [reads_bind, reads_take, reads_pure]
  exact ⟨_, _, ⟨rfl, rfl⟩, e, rest,
    he (by omega) (Cursor.passes_cons.mp hpass).2 ⟨helse, hrests rfl⟩, rfl, rfl⟩

theorem completed_loop {t : Token} {test : Expr} {body : Block} {cs cs' bs bs' : List Token}
    (ht : t.kind = .keyword .whileWord)
    (hc : (Phrase.expr test).Completed cs) (hcs : Enclosed .leftParen .rightParen cs cs')
    (hb : (Phrase.stmts body).Completed bs) (hbs : Enclosed .leftBrace .rightBrace bs bs') :
    (Phrase.stmt (.loop test body)).Completed (t :: (cs' ++ bs')) := by
  intro n c rest hn hpass _ _
  simp only [List.length_cons, List.length_append] at hn
  obtain ⟨mid, hcond, hbody⟩ := Cursor.passes_append.mp (Cursor.passes_cons.mp hpass).2
  refine reads_bind.mpr ⟨c.head, c, reads_peek.mpr ⟨rfl, rfl⟩, ?_⟩
  rw [hpass.head, ht]
  simp only [reads_bind, reads_take, reads_pure]
  exact ⟨_, _, ⟨rfl, rfl⟩, test, mid, reads_condition.mpr (hc.enclosed hcs rfl (by omega) hcond),
    body, rest, hb.braced hbs (by omega) hbody, rfl, rfl⟩

/-- A statement that begins with an expression is that expression. -/
theorem completed_expression (hopens : Begins Token.Kind.opensExpr ts)
    (he : (Phrase.expr e).Completed ts) : (Phrase.stmt (.expression e)).Completed ts := by
  intro n c rest hn hpass helse hrests
  have hvalue : Reads (expression n .lowest) c e rest := he hn hpass ⟨helse, hrests rfl⟩
  refine reads_bind.mpr ⟨c.head, c, reads_peek.mpr ⟨rfl, rfl⟩, ?_⟩
  obtain ⟨t, us, rfl, ht⟩ := hopens
  rw [hpass.head]
  split
  · next h => simp [h, Token.Kind.opensExpr] at ht
  · next h => simp [h, Token.Kind.opensExpr] at ht
  · next h => simp [h, Token.Kind.opensExpr] at ht
  · exact reads_map.mpr ⟨e, hvalue, rfl⟩

/-- Where a statement begins a block has not come to its end. -/
theorem not_endsBlock (hopens : Begins Token.Kind.opensStmt ts) (hpass : c.Passes ts rest) :
    ¬ EndsBlock .rightBrace c.kind := by
  obtain ⟨t, us, rfl, ht⟩ := hopens
  obtain ⟨-, -, hbrace, hmark⟩ := Token.Kind.ne_of_opensStmt ht
  rw [hpass.kind]
  exact not_or.mpr ⟨hbrace, hmark⟩

/-- What comes after a statement without its semicolon ends the statement, unless it is one of the
signs that could also go on with it. -/
theorem kind_after_statement {us : List Token} {mid : Cursor}
    (hopens : us = [] ∨ Begins Token.Kind.opensStmt us) (hpass : mid.Passes us rest)
    (hend : EndsBlock .rightBrace rest.kind) :
    mid.kind ≠ .keyword .elseWord ∧ mid.kind ≠ .symbol .semicolon ∧
      (¬ Resumes us → Level.lowest.Rests mid.kind) := by
  rcases hopens with rfl | ⟨t, vs, rfl, ht⟩
  · obtain rfl := Cursor.passes_nil.mp hpass
    rcases hend with hend | hend <;> rw [hend]
    · exact ⟨by simp, by simp, fun _ => (Level.ends_symbol rfl).2⟩
    · exact ⟨by simp, by simp, fun _ => Level.ends_endOfInput.2⟩
  · obtain ⟨helse, hsemi, -, -⟩ := Token.Kind.ne_of_opensStmt ht
    rw [hpass.kind]
    refine ⟨helse, hsemi, fun hresumes => ?_⟩
    rcases Token.Kind.ofKind?_of_opensStmt ht with hsign | hnone
    · exact absurd ⟨t, vs, rfl, hsign⟩ hresumes
    · exact Level.rests_lowest.mpr hnone

theorem completed_ended {t : Token} {s : Stmt} {ss : List Stmt} {us : List Token}
    (hopens : Begins Token.Kind.opensStmt ts) (hs : (Phrase.stmt s).Completed ts)
    (ht : t.kind = .symbol .semicolon) (hss : (Phrase.stmts ss).Completed us) :
    (Phrase.stmts (s :: ss)).Completed (ts ++ t :: us) := by
  intro n c rest hn hpass hend
  simp only [List.length_append, List.length_cons] at hn ⊢
  cases n with
  | zero => omega
  | succ n =>
    obtain ⟨mid, hts, hpass⟩ := Cursor.passes_append.mp hpass
    obtain ⟨hsemi, hus⟩ := Cursor.passes_cons.mp hpass
    have hends : Level.lowest.Ends mid.kind := by
      rw [hpass.kind, ht]
      exact Level.ends_symbol rfl
    have hbody : Reads (statementBody (expression n) (block n)) c s mid :=
      hs (by omega) hts hends.1 fun _ => hends.2
    obtain ⟨hle, hall⟩ := hss (n := n + 1) (by omega) hus hend
    refine ⟨by omega, .cons (not_endsBlock hopens hts) ?_ hall⟩
    exact reads_statement_succ.mpr ⟨mid, hbody, .inl ⟨t, ht, hsemi⟩⟩

theorem completed_unended {s : Stmt} {ss : List Stmt} {us : List Token}
    (hopens : Begins Token.Kind.opensStmt ts) (hs : (Phrase.stmt s).Completed ts)
    (hopens' : us = [] ∨ Begins Token.Kind.opensStmt us)
    (hclear : s.isLoop = false → ¬ Resumes us) (hss : (Phrase.stmts ss).Completed us) :
    (Phrase.stmts (s :: ss)).Completed (ts ++ us) := by
  intro n c rest hn hpass hend
  simp only [List.length_append, List.length_cons] at hn ⊢
  cases n with
  | zero => omega
  | succ n =>
    obtain ⟨mid, hts, hus⟩ := Cursor.passes_append.mp hpass
    obtain ⟨helse, hsemi, hrests⟩ := kind_after_statement hopens' hus hend
    have hbody : Reads (statementBody (expression n) (block n)) c s mid :=
      hs (by omega) hts helse fun hloop => hrests (hclear hloop)
    obtain ⟨hle, hall⟩ := hss (n := n + 1) (by omega) hus hend
    have hpos := hopens.length_pos
    refine ⟨by omega, .cons (not_endsBlock hopens hts) ?_ hall⟩
    exact reads_statement_succ.mpr ⟨mid, hbody, .inr ⟨hsemi, rfl⟩⟩

end Completed

/-! ## The grammar -/

/-- What follows the grammar is read, phrase by phrase. -/
theorem Derives.completed {φ : Phrase} {ts : List Token} (h : Derives True φ ts) :
    φ.Completed ts := by
  induction h with
  | name ht =>
    refine completed_token fun {n c} hhead => ?_
    refine reads_bind.mpr ⟨c.head, c.next, reads_take.mpr ⟨rfl, rfl⟩, ?_⟩
    rw [hhead, ht]
    exact reads_pure.mpr ⟨rfl, rfl⟩
  | integer ht hv =>
    refine completed_token fun {n c} hhead => ?_
    refine reads_bind.mpr ⟨c.head, c.next, reads_take.mpr ⟨rfl, rfl⟩, ?_⟩
    rw [hhead, ht]
    exact reads_integerOf.mpr ⟨_, hv, rfl, rfl⟩
  | string ht =>
    refine completed_token fun {n c} hhead => ?_
    refine reads_bind.mpr ⟨c.head, c.next, reads_take.mpr ⟨rfl, rfl⟩, ?_⟩
    rw [hhead, ht]
    exact reads_pure.mpr ⟨rfl, rfl⟩
  | @boolean t b ht =>
    refine completed_token fun {n c} hhead => ?_
    refine reads_bind.mpr ⟨c.head, c.next, reads_take.mpr ⟨rfl, rfl⟩, ?_⟩
    rw [hhead, ht]
    cases b <;> exact reads_pure.mpr ⟨rfl, rfl⟩
  | parens _ hts ih => exact completed_parens ih hts
  | unary ht hgrip he ih => exact completed_unary ht hgrip he.opening.length_pos ih
  | binary ht hp hq _ hr ihl ihr => exact completed_binary ht hp hq hr.opening.length_pos ihl ihr
  | conditional ht _ hcs _ hys ihc ihy => exact completed_conditional ht ihc hcs ihy hys
  | conditionalElse ht _ hcs _ hys hu _ hns ihc ihy ihn =>
    exact completed_conditionalElse ht ihc hcs ihy hys hu ihn hns
  | function ht hnames hps hps' _ hbs ih => exact completed_function ht hnames hps hps' ih hbs
  | call hgrip hf hlength harguments hus hus' ihf ih =>
    obtain rfl := hf.grip_eq_index hgrip
    exact completed_call (p := .index) ihf hlength (fun e vs hmem => (harguments e vs hmem).opening)
      ih hus hus'
  | array hlength helements hus hus' ih =>
    exact completed_array hlength (fun e vs hmem => (helements e vs hmem).opening) ih hus hus'
  | index hgrip hl _ hus ihl ihi =>
    obtain rfl := hl.grip_eq_index hgrip
    exact completed_index (p := .index) ihl ihi hus
  | hash hlength hpairs hus hus' ih =>
    exact completed_hash hlength (fun kv vs hmem => (hpairs kv vs hmem).opening) ih hus hus'
  | expr he ih =>
    intro n hn c rest hpass hends
    exact ih.reads hn he.opening.length_pos (by decide) (he.admits_lowest) hpass
      (hends.mono (by simp [Level.le_iff, Level.rank])) hends.2
  | pair ht _ _ ihk ihv =>
    intro n hn c rest hpass hends
    simp only [List.length_append, List.length_cons] at hn
    obtain ⟨mid, hk, hpass⟩ := Cursor.passes_append.mp hpass
    obtain ⟨hcolon, hv⟩ := Cursor.passes_cons.mp hpass
    have hmid : Level.lowest.Ends mid.kind := by
      rw [hpass.kind, ht]
      exact Level.ends_symbol rfl
    exact reads_keyAndValue.mpr
      ⟨_, mid, mid.next, ihk (by omega) hk hmid, ht, hcolon, ihv (by omega) hv hends⟩
  | binding ht hu hw _ ih => exact completed_binding ht hu hw ih
  | ret ht _ ih => exact completed_ret ht ih
  | expression he ih => exact completed_expression he.opening ih
  | loop ht _ hcs _ hbs ihc ihb => exact completed_loop ht ihc hcs ihb hbs
  | nil =>
    intro n c rest _ hpass _
    obtain rfl := Cursor.passes_nil.mp hpass
    exact ⟨Nat.le_refl _, .nil _⟩
  | ended hs ht _ ihs ih => exact completed_ended hs.opening ihs ht ih
  | unended hs hclear hss ihs ih =>
    exact completed_unended hs.opening ihs hss.opening (hclear trivial) ih

/-- What reads statements reads a program, if the mark of the end comes after it. -/
theorem Phrase.Completed.ofTokens {p : Program} {tokens : List Token} {mark : Token}
    (h : (Phrase.stmts p).Completed tokens) (hmark : mark.kind = .endOfInput) :
    Program.ofTokens (tokens ++ [mark]) = (p, []) := by
  let start := Cursor.ofTokens (tokens ++ [mark])
  let stop : Cursor := { start with unread := [mark], taken := tokens.length }
  have hpass : start.Passes tokens stop := ⟨rfl, rfl, by simp [start, stop, Cursor.ofTokens]⟩
  have hstop : stop.kind = .endOfInput := hmark
  have hbudget : Program.budget start = 4 * (tokens.length + 2) := by
    simp [Program.budget, start, Cursor.ofTokens]
  obtain ⟨hle, hall⟩ := h (n := Program.budget start) (by omega) hpass (.inr hstop)
  have hcount : p.length < Program.budget start := by omega
  exact Program.ofTokens_eq_iff.mpr
    ⟨stop, reads_itemsUntilEnd_of_readsAll (hall.mono fun _ hk => .inr hk) hstop _ hcount⟩

/-- A written form of a program, with the mark of the end after it, is read as the program, and
nothing of it is dropped. -/
theorem ofTokens_of_derives {p : Program} {tokens : List Token} {mark : Token}
    (hmark : mark.kind = .endOfInput) (h : Derives True (.stmts p) tokens) :
    Program.ofTokens (tokens ++ [mark]) = (p, []) := h.completed.ofTokens hmark

/-- The text `(1 + x) * y; -z`: the semicolon keeps the two statements apart. -/
theorem ofTokens_product_negation : Program.ofTokens
    ([⟨.symbol .leftParen, "(", {}⟩, ⟨.integer, "1", {}⟩, ⟨.symbol .plus, "+", {}⟩,
      ⟨.identifier, "x", {}⟩, ⟨.symbol .rightParen, ")", {}⟩, ⟨.symbol .asterisk, "*", {}⟩,
      ⟨.identifier, "y", {}⟩, ⟨.symbol .semicolon, ";", {}⟩, ⟨.symbol .minus, "-", {}⟩,
      ⟨.identifier, "z", {}⟩] ++ [⟨.endOfInput, "", {}⟩]) =
    ([.expression (.binary .multiply (.binary .add (.integer 1) (.name ⟨"x", {}⟩))
      (.name ⟨"y", {}⟩)), .expression (.unary .negate (.name ⟨"z", {}⟩))], []) := by
  have one : Derives True (.held .index (.integer 1)) [⟨.integer, "1", {}⟩] :=
    .integer rfl (by decide)
  have hname (s : String) : Derives True (.held .index (.name ⟨s, {}⟩)) [⟨.identifier, s, {}⟩] :=
    .name (t := ⟨.identifier, s, {}⟩) rfl
  have hsum : Derives True (.held .index (.binary .add (.integer 1) (.name ⟨"x", {}⟩)))
      [⟨.symbol .leftParen, "(", {}⟩, ⟨.integer, "1", {}⟩, ⟨.symbol .plus, "+", {}⟩,
        ⟨.identifier, "x", {}⟩, ⟨.symbol .rightParen, ")", {}⟩] :=
    .parens (.expr (.binary rfl (by decide) (by decide) one (hname "x"))) ⟨_, _, rfl, rfl, rfl⟩
  have htimes : (⟨.symbol .asterisk, "*", {}⟩ : Token).kind =
    .symbol BinaryOp.multiply.symbol := rfl
  have hminus : (⟨.symbol .minus, "-", {}⟩ : Token).kind = .symbol UnaryOp.negate.symbol := rfl
  have hproduct := Derives.binary htimes (by decide) (by decide) hsum (hname "y")
  have hnegation := Derives.unary hminus (by decide) (hname "z")
  exact ofTokens_of_derives rfl (.ended (.expression (.expr hproduct)) rfl
    (.unended (.expression (.expr hnegation)) (fun _ _ => by simp [Resumes]) .nil))

end Monkey
