import Monkey.Proofs.Reader.Rules
import Monkey.Proofs.Reader.Budget

/-!
# What is read follows the grammar

If a program is read and nothing of the text is dropped, the tokens of the text are a written form
of the program. The proof goes along the readers: each takes exactly the tokens of what it yields,
and an expression that is read at a level has a grip which that level admits.

## Main definitions

* `ExprSound`, `StmtSound`, `BlockSound` — that what a reader reads follows the grammar.
-/

namespace Monkey

open Reader

/-! ## Lists -/

section Lists

variable {α : Type} {R : α → List Token → Prop} {item : Reader α} {close : Symbol}
  {c rest : Cursor} {as : List α}

/-- Items that are read one by one are read with commas between them. -/
theorem separated_of_reads_commaItems
    (hitem : ∀ {c a rest}, Reads item c a rest → ∃ ts, R a ts ∧ c.Passes ts rest) {n : Nat}
    (h : Reads (commaItems item n) c as rest) :
    ∃ tss ts, List.Forall₂ R as tss ∧ tss ≠ [] ∧ Separated tss ts ∧ c.Passes ts rest := by
  induction n generalizing c as with
  | zero => simp [commaItems] at h
  | succ n ih =>
    obtain ⟨a, mid, ha, h⟩ := reads_commaItems_succ.mp h
    obtain ⟨ts, hR, hts⟩ := hitem ha
    rcases h with ⟨rfl, rfl, -⟩ | ⟨t, mid', others, rfl, ht, hpass, hothers⟩
    · exact ⟨[ts], ts, .cons hR .nil, by simp, .single ts, hts⟩
    · obtain ⟨tss, us, hall, hne, hsep, hus⟩ := ih hothers
      exact ⟨ts :: tss, ts ++ t :: us, .cons hR hall, by simp, .cons ht hne hsep,
        hts.trans (hpass.trans hus)⟩

theorem enclosed_of_reads_commaList
    (hitem : ∀ {c a rest}, Reads item c a rest → ∃ ts, R a ts ∧ c.Passes ts rest) {n : Nat}
    (h : Reads (commaList close item n) c as rest) :
    ∃ (tss : List (List Token)) (ts : List Token) (t : Token), List.Forall₂ R as tss ∧
      Separated tss ts ∧ t.kind = .symbol close ∧ c.Passes (ts ++ [t]) rest := by
  rcases reads_commaList.mp h with ⟨rfl, t, ht, hpass⟩ | ⟨-, t, mid, hitems, ht, hpass⟩
  · exact ⟨[], [], t, .nil, .nil, ht, hpass⟩
  · obtain ⟨tss, ts, hall, -, hsep, hts⟩ := separated_of_reads_commaItems hitem hitems
    exact ⟨tss, ts, t, hall, hsep, ht, hts.trans hpass⟩

/-- Where the closing symbol stands there are no items. -/
theorem nil_of_reads_commaEnded {n : Nat} (hc : c.kind = .symbol close)
    (h : Reads (commaEnded close item n) c as rest) :
    as = [] ∧ ∃ t : Token, t.kind = .symbol close ∧ c.Passes [t] rest := by
  cases n with
  | zero => simp [commaEnded] at h
  | succ n =>
    rcases reads_commaEnded_succ.mp h with h | ⟨hne, -⟩
    · exact h
    · exact absurd hc hne

theorem terminated_of_reads_commaEnded
    (hitem : ∀ {c a rest}, Reads item c a rest → ∃ ts, R a ts ∧ c.Passes ts rest) {n : Nat}
    (h : Reads (commaEnded close item n) c as rest) :
    ∃ (tss : List (List Token)) (ts : List Token) (t : Token), List.Forall₂ R as tss ∧
      Terminated tss ts ∧ t.kind = .symbol close ∧ c.Passes (ts ++ [t]) rest := by
  induction n generalizing c as with
  | zero => simp [commaEnded] at h
  | succ n ih =>
    rcases reads_commaEnded_succ.mp h with
      ⟨rfl, t, ht, hpass⟩ | ⟨-, a, others, mid, mid', rfl, ha, hcomma, hothers⟩
    · exact ⟨[], [], t, .nil, .inl .nil, ht, hpass⟩
    · obtain ⟨ts, hR, hts⟩ := hitem ha
      obtain ⟨tss, us, t, hall, hend, ht, hus⟩ := ih hothers
      rcases hcomma with ⟨hmid, rfl⟩ | ⟨-, u, hu, hpass⟩
      · -- the closing symbol stands here, so there are no further items
        obtain ⟨rfl, v, hv, hpass⟩ := nil_of_reads_commaEnded hmid hothers
        exact ⟨[ts], ts, v, .cons hR .nil, terminated_cons_iff.mpr (.inl ⟨rfl, rfl⟩), hv,
          hts.trans hpass⟩
      · have hterminated : Terminated (ts :: tss) (ts ++ u :: us) :=
          terminated_cons_iff.mpr (.inr ⟨u, us, hu, rfl, hend⟩)
        refine ⟨ts :: tss, ts ++ u :: us, t, .cons hR hall, hterminated, ht, ?_⟩
        rw [List.append_assoc]
        exact hts.trans (hpass.trans hus)

end Lists

/-! ## Expressions -/

/-- What the readers of expressions read follows the grammar: the level they read at admits the
grip, and nothing that comes next binds more tightly than the level. -/
def ExprSound (clear : Prop) (expr : Level → Reader Expr) : Prop :=
  ∀ {l : Level} {c rest : Cursor} {e : Expr}, Reads (expr l) c e rest →
    ∃ p ts, Derives clear (.held p e) ts ∧ c.Passes ts rest ∧ l.Admits p ∧ l.Rests rest.kind

/-- What a reader of statements up to the closing brace reads follows the grammar. -/
def BlockSound (clear : Prop) (statements : Reader Block) : Prop :=
  ∀ {c rest : Cursor} {b : Block}, Reads statements c b rest →
    ∃ (ts : List Token) (t : Token),
      Derives clear (.stmts b) ts ∧ t.kind = .symbol .rightBrace ∧ c.Passes (ts ++ [t]) rest

section Expressions

variable {clear : Prop} {expr : Level → Reader Expr} {statements : Reader Block}
  {c rest : Cursor} {e : Expr} {n : Nat}

theorem ExprSound.derives (hexpr : ExprSound clear expr) {l : Level}
    (h : Reads (expr l) c e rest) : ∃ ts, Derives clear (.expr e) ts ∧ c.Passes ts rest := by
  obtain ⟨p, ts, he, hts, -, -⟩ := hexpr h
  exact ⟨ts, .expr he, hts⟩

theorem ExprSound.enclosed (hexpr : ExprSound clear expr) {opening closing : Symbol}
    (h : ReadsEnclosed opening closing (expr .lowest) c e rest) :
    ∃ ts ts', Derives clear (.expr e) ts ∧ Enclosed opening closing ts ts' ∧
      c.Passes ts' rest := by
  obtain ⟨t, u, first, last, ht, hpass, he, hu, hpass'⟩ := h
  obtain ⟨ts, hts, hpasses⟩ := hexpr.derives he
  exact ⟨ts, _, hts, ⟨t, u, ht, hu, rfl⟩, hpass.trans (hpasses.trans hpass')⟩

theorem BlockSound.braced (hblock : BlockSound clear statements) {b : Block}
    (h : Reads (braced statements) c b rest) :
    ∃ ts ts', Derives clear (.stmts b) ts ∧ Enclosed .leftBrace .rightBrace ts ts' ∧
      c.Passes ts' rest := by
  obtain ⟨t, first, ht, hpass, hb⟩ := reads_braced.mp h
  obtain ⟨ts, u, hts, hu, hpasses⟩ := hblock hb
  exact ⟨ts, _, hts, ⟨t, u, ht, hu, rfl⟩, hpass.trans hpasses⟩

theorem ExprSound.commaList (hexpr : ExprSound clear expr) {opening close : Symbol} {t : Token}
    {es : List Expr} {mid : Cursor} (ht : t.kind = .symbol opening) (hpass : c.Passes [t] mid)
    (h : Reads (commaList close (expr .lowest) n) mid es rest) :
    ∃ tss ts ts', es.length = tss.length ∧
      (∀ e us, (e, us) ∈ es.zip tss → Derives clear (.expr e) us) ∧ Separated tss ts ∧
      Enclosed opening close ts ts' ∧ c.Passes ts' rest := by
  obtain ⟨tss, ts, u, hall, hsep, hu, hts⟩ := enclosed_of_reads_commaList hexpr.derives h
  obtain ⟨hlength, hzip⟩ := List.forall₂_iff_zip.mp hall
  exact ⟨tss, ts, _, hlength, fun e us => hzip, hsep, ⟨t, u, ht, hu, rfl⟩, hpass.trans hts⟩

theorem ExprSound.keyAndValue (hexpr : ExprSound clear expr) {kv : Expr × Expr}
    (h : Reads (keyAndValue expr) c kv rest) :
    ∃ ts, Derives clear (.pair kv) ts ∧ c.Passes ts rest := by
  obtain ⟨t, c₁, c₂, hk, ht, hpass, hv⟩ := reads_keyAndValue.mp h
  obtain ⟨ks, hks, hpasses⟩ := hexpr.derives hk
  obtain ⟨vs, hvs, hpasses'⟩ := hexpr.derives hv
  exact ⟨_, .pair ht hks hvs, hpasses.trans (hpass.trans hpasses')⟩

/-- The parameters of a function are identifiers, each by itself between two commas. -/
theorem parameters_of_forall₂ {parameters : List Token} {tss : List (List Token)}
    (h : List.Forall₂ (fun (t : Token) ts => t.kind = .identifier ∧ ts = [t]) parameters tss) :
    (∀ t ∈ parameters, t.kind = .identifier) ∧ tss = parameters.map fun t => [t] := by
  induction h with
  | nil => simp
  | cons hR _ ih =>
    obtain ⟨ht, rfl⟩ := hR
    refine ⟨?_, by rw [ih.2]; rfl⟩
    intro t hmem
    rcases List.mem_cons.mp hmem with rfl | hmem
    · exact ht
    · exact ih.1 t hmem

theorem function_of_reads (hblock : BlockSound clear statements) {t : Token} {mid : Cursor}
    (ht : t.kind = .keyword .fnWord) (hpass : c.Passes [t] mid)
    (h : Reads (functionRest statements n) mid e rest) :
    ∃ ts, Derives clear (.held .index e) ts ∧ c.Passes ts rest := by
  obtain ⟨u, parameters, body, c₁, c₂, hu, hpass₁, hps, hbody, rfl⟩ := reads_functionRest.mp h
  obtain ⟨tss, ps, w, hall, hsep, hw, hpass₂⟩ := enclosed_of_reads_commaList
    (R := fun t ts => t.kind = .identifier ∧ ts = [t])
    (fun h => by
      obtain ⟨ht, hpass⟩ := reads_expect_identifier.mp h
      exact ⟨_, ⟨ht, rfl⟩, hpass⟩) hps
  obtain ⟨hnames, rfl⟩ := parameters_of_forall₂ hall
  obtain ⟨bs, bs', hbs, hencl, hpass₃⟩ := hblock.braced hbody
  exact ⟨_, .function ht hnames hsep ⟨u, w, hu, hw, rfl⟩ hbs hencl,
    hpass.trans ((hpass₁.trans hpass₂).trans hpass₃)⟩

theorem conditional_of_reads (hexpr : ExprSound clear expr) (hblock : BlockSound clear statements)
    {t : Token} {mid : Cursor} (ht : t.kind = .keyword .ifWord) (hpass : c.Passes [t] mid)
    (h : Reads (conditionalRest expr statements) mid e rest) :
    ∃ ts, Derives clear (.held .index e) ts ∧ c.Passes ts rest := by
  obtain ⟨test, yes, c₁, c₂, htest, hyes, h⟩ := reads_conditionalRest.mp h
  obtain ⟨cs, cs', hcs, hcs', hpass₁⟩ := hexpr.enclosed (reads_condition.mp htest)
  obtain ⟨ys, ys', hys, hys', hpass₂⟩ := hblock.braced hyes
  rcases h with ⟨-, rfl, rfl⟩ | ⟨no, helse, rfl, hno⟩
  · exact ⟨_, .conditional ht hcs hcs' hys hys', hpass.trans (hpass₁.trans hpass₂)⟩
  · obtain ⟨ns, ns', hns, hns', hpass₃⟩ := hblock.braced hno
    have hpass₄ : c₂.Passes [c₂.head] c₂.next := Cursor.passes_head (by rw [helse]; simp)
    exact ⟨_, .conditionalElse ht hcs hcs' hys hys' helse hns hns',
      hpass.trans (hpass₁.trans (hpass₂.trans (hpass₄.trans hpass₃)))⟩

/-- An operand has no looser grip than a sign before an operand gives it. -/
theorem operand_of_reads (hexpr : ExprSound clear expr) (hblock : BlockSound clear statements)
    (h : Reads (operand expr statements n) c e rest) :
    ∃ p ts, Derives clear (.held p e) ts ∧ c.Passes ts rest ∧ .unary ≤ p ∧ p.Rests rest.kind := by
  simp only [operand, reads_bind, reads_take] at h
  obtain ⟨_, _, ⟨rfl, rfl⟩, h⟩ := h
  have closed : ∀ {ts}, Derives clear (.held .index e) ts → c.Passes ts rest →
      ∃ p ts, Derives clear (.held p e) ts ∧ c.Passes ts rest ∧ .unary ≤ p ∧ p.Rests rest.kind :=
    fun he hts => ⟨.index, _, he, hts, by decide, Level.rests_index⟩
  have signed (op : UnaryOp) (hk : c.head.kind = .symbol op.symbol)
      (h : Reads (.unary op <$> expr .unary) c.next e rest) :
      ∃ p ts, Derives clear (.held p e) ts ∧ c.Passes ts rest ∧ .unary ≤ p ∧
        p.Rests rest.kind := by
    obtain ⟨inner, hinner, rfl⟩ := reads_map.mp h
    obtain ⟨p, ts, he, hts, hadmits, hrests⟩ := hexpr hinner
    exact ⟨.unary, _, .unary hk (Level.admits_unary_left.mp hadmits) he,
      (Cursor.passes_of_kind hk (by simp)).trans hts, by decide, hrests⟩
  split at h
  · next hk =>
    obtain ⟨rfl, rfl⟩ := reads_pure.mp h
    exact closed (.name hk) (Cursor.passes_of_kind hk (by simp))
  · next hk =>
    obtain ⟨v, hv, rfl, rfl⟩ := reads_integerOf.mp h
    exact closed (.integer hk hv) (Cursor.passes_of_kind hk (by simp))
  · next hk =>
    obtain ⟨rfl, rfl⟩ := reads_pure.mp h
    exact closed (.string hk) (Cursor.passes_of_kind hk (by simp))
  · next hk =>
    obtain ⟨rfl, rfl⟩ := reads_pure.mp h
    exact closed (.boolean hk) (Cursor.passes_of_kind hk (by simp))
  · next hk =>
    obtain ⟨rfl, rfl⟩ := reads_pure.mp h
    exact closed (.boolean hk) (Cursor.passes_of_kind hk (by simp))
  · next hk => exact signed .not hk h
  · next hk => exact signed .negate hk h
  · next hk =>
    simp only [reads_bind, reads_expect_symbol, reads_pure] at h
    obtain ⟨inner, mid, hinner, u, _, ⟨hu, hpass⟩, rfl, rfl⟩ := h
    obtain ⟨ts, hts, hpasses⟩ := hexpr.derives hinner
    exact closed (.parens hts ⟨_, u, hk, hu, rfl⟩)
      ((Cursor.passes_of_kind hk (by simp)).trans (hpasses.trans hpass))
  · next hk =>
    have first := Cursor.passes_of_kind hk (by simp)
    obtain ⟨ts, he, hts⟩ := conditional_of_reads hexpr hblock hk first h
    exact closed he hts
  · next hk =>
    have first := Cursor.passes_of_kind hk (by simp)
    obtain ⟨ts, he, hts⟩ := function_of_reads hblock hk first h
    exact closed he hts
  · next hk =>
    obtain ⟨elements, helements, rfl⟩ := reads_map.mp h
    obtain ⟨tss, us, us', hlength, hall, hsep, hencl, hpass⟩ :=
      hexpr.commaList hk (Cursor.passes_of_kind hk (by simp)) helements
    exact closed (.array hlength hall hsep hencl) hpass
  · next hk =>
    obtain ⟨pairs, hpairs, rfl⟩ := reads_map.mp h
    obtain ⟨tss, us, u, hall, hend, hu, hpass⟩ :=
      terminated_of_reads_commaEnded hexpr.keyAndValue hpairs
    obtain ⟨hlength, hzip⟩ := List.forall₂_iff_zip.mp hall
    exact closed (.hash hlength (fun kv vs => hzip) hend ⟨_, u, hk, hu, rfl⟩)
      ((Cursor.passes_of_kind hk (by simp)).trans hpass)
  · simp at h

/-- What follows an operand makes a longer expression of it, with the grip of what was taken up. -/
theorem extend_of_reads (hexpr : ExprSound clear expr) {start : Cursor} {left : Expr} {p : Level}
    {ts : List Token} {s : Suffix} (hleft : Derives clear (.held p left) ts)
    (hts : start.Passes ts c) (hp : p.Rests c.kind) (hs : Suffix.ofKind? c.kind = some s)
    (h : Reads (extend expr n left s) c.next e rest) :
    ∃ q us, Derives clear (.held q e) us ∧ start.Passes us rest ∧ s.level ≤ q ∧
      q.Rests rest.kind := by
  have hlevel : ¬ p < s.level := hp s hs
  rw [Level.lt_iff] at hlevel
  have hne : c.kind ≠ .endOfInput := by
    intro hc
    simp [hc, Suffix.ofKind?] at hs
  have first : c.Passes [c.head] c.next := Cursor.passes_head hne
  cases s with
  | operator op =>
    obtain ⟨right, hright, rfl⟩ := reads_map.mp h
    obtain ⟨q, us, hr, hus, hadmits, hrests⟩ := hexpr hright
    have hop := Suffix.ofKind?_eq_some_operator.mp hs
    exact ⟨op.level, _, .binary hop (Level.le_iff.mpr (Nat.le_of_not_lt hlevel))
      (Level.admits_operator.mp hadmits) hleft hr, hts.trans (first.trans hus), Nat.le_refl _,
      hrests⟩
  | call =>
    obtain ⟨arguments, harguments, rfl⟩ := reads_map.mp h
    obtain ⟨tss, us, us', hlength, hall, hsep, hencl, hpass⟩ :=
      hexpr.commaList (Suffix.ofKind?_eq_some_call.mp hs) first harguments
    have hgrip : Level.unary < p := Level.lt_iff.mpr (Nat.not_lt.mp hlevel)
    exact ⟨.index, _, .call hgrip hleft hlength hall hsep hencl, hts.trans hpass,
      by decide, Level.rests_index⟩
  | index =>
    simp only [extend, reads_bind, reads_expect_symbol, reads_pure] at h
    obtain ⟨position, mid, hposition, u, _, ⟨hu, hpass⟩, rfl, rfl⟩ := h
    obtain ⟨us, hus, hpasses⟩ := hexpr.derives hposition
    have hgrip : Level.unary < p := Nat.lt_of_lt_of_le (by decide) (Nat.not_lt.mp hlevel)
    exact ⟨.index, _,
      .index hgrip hleft hus ⟨_, u, Suffix.ofKind?_eq_some_index.mp hs, hu, rfl⟩,
      hts.trans (first.trans (hpasses.trans hpass)), by decide, Level.rests_index⟩

/-- The loop over what follows an operand. The invariant is that the grip of the expression so far
is admitted, and that it is at least as tight as what comes next. -/
theorem suffixes_of_reads (hexpr : ExprSound clear expr) {start : Cursor} {level : Level}
    {k : Nat} {left : Expr} {p : Level} {ts : List Token}
    (h : Reads (suffixes expr n level k left) c e rest)
    (hleft : Derives clear (.held p left) ts) (hts : start.Passes ts c) (hadmits : level.Admits p)
    (hp : p.Rests c.kind) :
    ∃ q us, Derives clear (.held q e) us ∧ start.Passes us rest ∧ level.Admits q ∧
      level.Rests rest.kind := by
  induction k generalizing c left p ts with
  | zero => simp [suffixes] at h
  | succ k ih =>
    rcases reads_suffixes_succ.mp h with
      ⟨hrests, rfl, rfl⟩ | ⟨s, longer, mid, hs, hlt, hlonger, hrest⟩
    · exact ⟨p, ts, hleft, hts, hadmits, hrests⟩
    · obtain ⟨q, us, hq, hus, hle, hrests⟩ := extend_of_reads hexpr hleft hts hp hs hlonger
      exact ih hrest hq hus (.inl (Nat.lt_of_lt_of_le hlt hle)) hrests

end Expressions

/-! ## Statements -/

/-- What a reader of statements reads follows the grammar: it is a statement with its semicolon, or
one that the next token does not go on with. -/
def StmtSound (clear : Prop) (p : Reader Stmt) : Prop :=
  ∀ {c rest : Cursor} {s : Stmt}, Reads p c s rest →
    ∃ ts mid, Derives clear (.stmt s) ts ∧ c.Passes ts mid ∧
      ((∃ t : Token, t.kind = .symbol .semicolon ∧ mid.Passes [t] rest) ∨
        (rest = mid ∧ (s.isLoop = false → Level.lowest.Rests rest.kind)))

section Statements

variable {clear : Prop} {expr : Level → Reader Expr} {statements : Reader Block}
  {c rest : Cursor} {n : Nat}

theorem statementBody_of_reads (hexpr : ExprSound clear expr) (hblock : BlockSound clear statements)
    {s : Stmt} (h : Reads (statementBody expr statements) c s rest) :
    ∃ ts, Derives clear (.stmt s) ts ∧ c.Passes ts rest ∧
      (s.isLoop = false → Level.lowest.Rests rest.kind) := by
  simp only [statementBody, reads_bind, reads_peek] at h
  obtain ⟨_, c, ⟨rfl, rfl⟩, h⟩ := h
  split at h
  · next hk =>
    simp only [reads_bind, reads_take, reads_expect_identifier, reads_expect_symbol,
      reads_pure] at h
    obtain ⟨_, _, ⟨rfl, rfl⟩, u, c₁, ⟨hu, hpass₁⟩, w, c₂, ⟨hw, hpass₂⟩, e, _, he, rfl, rfl⟩ := h
    obtain ⟨p, ts, hts, hpasses, -, hrests⟩ := hexpr he
    have first := Cursor.passes_of_kind hk (by simp)
    exact ⟨_, .binding hk hu hw (.expr hts),
      first.trans (hpass₁.trans (hpass₂.trans hpasses)), fun _ => hrests⟩
  · next hk =>
    simp only [reads_bind, reads_take, reads_pure] at h
    obtain ⟨_, _, ⟨rfl, rfl⟩, e, _, he, rfl, rfl⟩ := h
    obtain ⟨p, ts, hts, hpasses, -, hrests⟩ := hexpr he
    have first := Cursor.passes_of_kind hk (by simp)
    exact ⟨_, .ret hk (.expr hts), first.trans hpasses, fun _ => hrests⟩
  · next hk =>
    simp only [reads_bind, reads_take, reads_pure] at h
    obtain ⟨_, _, ⟨rfl, rfl⟩, test, c₁, htest, body, _, hbody, rfl, rfl⟩ := h
    obtain ⟨cs, cs', hcs, hcs', hpass₁⟩ := hexpr.enclosed (reads_condition.mp htest)
    obtain ⟨bs, bs', hbs, hbs', hpass₂⟩ := hblock.braced hbody
    have first := Cursor.passes_of_kind hk (by simp)
    exact ⟨_, .loop hk hcs hcs' hbs hbs', first.trans (hpass₁.trans hpass₂),
      by simp [Stmt.isLoop]⟩
  · obtain ⟨e, he, rfl⟩ := reads_map.mp h
    obtain ⟨p, ts, hts, hpasses, -, hrests⟩ := hexpr he
    exact ⟨ts, .expression (.expr hts), hpasses, fun _ => hrests⟩

/-- Where an expression has come to its end, no statement begins that could go on with it. -/
theorem not_resumes {mid : Cursor} {us : List Token} (h : Level.lowest.Rests mid.kind)
    (hus : mid.Passes us rest) : ¬ Resumes us := by
  rintro ⟨t, us, rfl, ht⟩
  rw [Level.rests_lowest, hus.kind] at h
  rcases ht with ht | ht | ht <;> simp [ht, Suffix.ofKind?, BinaryOp.ofSymbol?] at h

theorem StmtSound.all {Stops : Token.Kind → Prop} {item : Reader Stmt}
    (hitem : StmtSound clear item) {b : Block} (h : ReadsAll Stops item c b rest) :
    ∃ ts, Derives clear (.stmts b) ts ∧ c.Passes ts rest := by
  induction h with
  | nil c => exact ⟨[], .nil, Cursor.passes_nil.mpr rfl⟩
  | cons _ hs _ ih =>
    obtain ⟨us, hus, hpasses⟩ := ih
    obtain ⟨ts, mid, hts, hpass, ⟨t, ht, hsemi⟩ | ⟨rfl, hrests⟩⟩ := hitem hs
    · exact ⟨_, .ended hts ht hus, hpass.trans (hsemi.trans hpasses)⟩
    · exact ⟨_, .unended hts (fun _ hloop => not_resumes (hrests hloop) hpasses) hus,
        hpass.trans hpasses⟩

theorem StmtSound.block {item : Reader Stmt} (hitem : StmtSound clear item) :
    BlockSound clear (itemsUntil .rightBrace (recover item) n) := by
  intro c rest b h
  obtain ⟨mid, t, hall, ht, hpass⟩ := readsAll_of_reads_itemsUntil h
  obtain ⟨ts, hts, hpasses⟩ := hitem.all hall
  exact ⟨ts, t, hts, ht, hpasses.trans hpass⟩

/-- Reading follows the grammar within every budget. -/
theorem expression_statement_sound (clear : Prop) (n : Nat) :
    ExprSound clear (expression n) ∧ StmtSound clear (statement n) := by
  induction n with
  | zero =>
    constructor
    · intro l c rest e h
      simp [expression] at h
    · intro c rest s h
      simp [statement] at h
  | succ n ih =>
    obtain ⟨hexpr, hstmt⟩ := ih
    have hblock : BlockSound clear (itemsUntil .rightBrace (recover (statement n)) n) :=
      hstmt.block
    constructor
    · intro l c rest e h
      obtain ⟨left, mid, hleft, hrest⟩ := reads_expression_succ.mp h
      obtain ⟨p, ts, hp, hts, hunary, hrests⟩ := operand_of_reads hexpr hblock hleft
      exact suffixes_of_reads hexpr hrest hp hts (.inr hunary) hrests
    · intro c rest s h
      obtain ⟨mid, hbody, hend⟩ := reads_statement_succ.mp h
      obtain ⟨ts, hts, hpasses, hrests⟩ := statementBody_of_reads hexpr hblock hbody
      refine ⟨ts, mid, hts, hpasses, ?_⟩
      rcases hend with hsemi | ⟨-, rfl⟩
      · exact .inl hsemi
      · exact .inr ⟨rfl, hrests⟩

end Statements

/-! ## Programs -/

/-- None of the tokens is a mark of the end. -/
def Unmarked (ts : List Token) : Prop := ∀ t ∈ ts, t.kind ≠ .endOfInput

@[simp] theorem unmarked_nil : Unmarked [] := by simp [Unmarked]

@[simp] theorem unmarked_cons {t : Token} {ts : List Token} :
    Unmarked (t :: ts) ↔ t.kind ≠ .endOfInput ∧ Unmarked ts := by simp [Unmarked]

@[simp] theorem unmarked_append {ts us : List Token} :
    Unmarked (ts ++ us) ↔ Unmarked ts ∧ Unmarked us := by simp [Unmarked, or_imp, forall_and]

theorem Enclosed.unmarked {opening closing : Symbol} {inner ts : List Token}
    (h : Enclosed opening closing inner ts) (hinner : Unmarked inner) : Unmarked ts := by
  obtain ⟨t, u, ht, hu, rfl⟩ := h
  simp [ht, hu, hinner]

theorem Separated.unmarked {tss : List (List Token)} {ts : List Token} (h : Separated tss ts)
    (hall : ∀ us ∈ tss, Unmarked us) : Unmarked ts := by
  induction h with
  | nil => exact unmarked_nil
  | single => exact hall _ (by simp)
  | cons ht _ _ ih =>
    have hothers := ih fun us hus => hall us (by simp [hus])
    simp [ht, hothers, hall _ List.mem_cons_self]

theorem Terminated.unmarked {tss : List (List Token)} {ts : List Token} (h : Terminated tss ts)
    (hall : ∀ us ∈ tss, Unmarked us) : Unmarked ts := by
  rcases h with h | ⟨t, us, ht, -, h, rfl⟩
  · exact h.unmarked hall
  · simp [ht, h.unmarked hall]

/-- No written form contains a mark of the end. -/
theorem Derives.unmarked {clear : Prop} {φ : Phrase} {ts : List Token} (h : Derives clear φ ts) :
    Unmarked ts := by
  induction h with
  | parens _ hts ih => exact hts.unmarked ih
  | conditional ht _ hcs _ hys ihc ihy => simp [ht, hcs.unmarked ihc, hys.unmarked ihy]
  | conditionalElse ht _ hcs _ hys hu _ hns ihc ihy ihn =>
    simp [ht, hu, hcs.unmarked ihc, hys.unmarked ihy, hns.unmarked ihn]
  | function ht hnames hps hps' _ hbs ih =>
    have hparameters := hps'.unmarked (hps.unmarked fun us hus => by
      obtain ⟨u, hu, rfl⟩ := List.mem_map.mp hus
      simp [hnames u hu])
    simp [ht, hparameters, hbs.unmarked ih]
  | call _ _ hlength _ hus hus' ihf ih =>
    simp [ihf, hus'.unmarked (hus.unmarked (forall_mem_of_zip hlength ih))]
  | array hlength _ hus hus' ih =>
    exact hus'.unmarked (hus.unmarked (forall_mem_of_zip hlength ih))
  | index _ _ _ hus ihl ihi => simp [ihl, hus.unmarked ihi]
  | hash hlength _ hus hus' ih =>
    exact hus'.unmarked (hus.unmarked (forall_mem_of_zip hlength ih))
  | loop ht _ hcs _ hbs ihc ihb => simp [ht, hcs.unmarked ihc, hbs.unmarked ihb]
  | _ => simp_all

/-- If a program is read from a stream that has no mark of the end but its last token, and nothing
is dropped, then the tokens before the mark are a written form of the program. -/
theorem derives_of_ofTokens (clear : Prop) {tokens : List Token} {mark : Token} {p : Program}
    (htokens : ∀ t ∈ tokens, t.kind ≠ .endOfInput) (hmark : mark.kind = .endOfInput)
    (h : Program.ofTokens (tokens ++ [mark]) = (p, [])) : Derives clear (.stmts p) tokens := by
  obtain ⟨rest, hreads⟩ := Program.ofTokens_eq_iff.mp h
  obtain ⟨hall, hrest⟩ := readsAll_of_reads_itemsUntilEnd hreads
  obtain ⟨-, hstmt⟩ := expression_statement_sound clear
    (Program.budget (Cursor.ofTokens (tokens ++ [mark])))
  obtain ⟨ts, hts, hpass⟩ := hstmt.all hall
  have hsplit : tokens ++ [mark] = ts ++ rest.unread := hpass.unread
  rcases List.eq_nil_or_concat rest.unread with hunread | ⟨us, u, hunread⟩
  · -- the mark itself cannot have been taken
    have hmem : mark ∈ ts := by simp [← show tokens ++ [mark] = ts by simpa [hunread] using hsplit]
    exact absurd hmark (hts.unmarked mark hmem)
  · rw [hunread, List.concat_eq_append, ← List.append_assoc] at hsplit
    obtain ⟨rfl, -⟩ := List.append_inj' hsplit rfl
    cases us with
    | nil => simpa using hts
    | cons v us =>
      have hv : rest.kind = v.kind := by simp [Cursor.kind, Cursor.head, hunread]
      exact absurd (hv.symm.trans hrest) (htokens v (by simp))

/-- The text `(1 + x) * -y[0]` is read as what it is a written form of, each name at its place. -/
theorem derives_product : Derives True
    (.stmts [.expression (.binary .multiply
      (.binary .add (.integer 1) (.name ⟨"x", ⟨⟨0, 5⟩, ⟨0, 6⟩⟩⟩))
      (.unary .negate (.index (.name ⟨"y", ⟨⟨0, 11⟩, ⟨0, 12⟩⟩⟩) (.integer 0))))])
    [⟨.symbol .leftParen, "(", {}⟩, ⟨.integer, "1", {}⟩, ⟨.symbol .plus, "+", {}⟩,
      ⟨.identifier, "x", ⟨⟨0, 5⟩, ⟨0, 6⟩⟩⟩, ⟨.symbol .rightParen, ")", {}⟩,
      ⟨.symbol .asterisk, "*", {}⟩, ⟨.symbol .minus, "-", {}⟩,
      ⟨.identifier, "y", ⟨⟨0, 11⟩, ⟨0, 12⟩⟩⟩, ⟨.symbol .leftBracket, "[", {}⟩,
      ⟨.integer, "0", {}⟩, ⟨.symbol .rightBracket, "]", {}⟩] := by
  have hmark : (⟨.endOfInput, "", {}⟩ : Token).kind = .endOfInput := rfl
  exact derives_of_ofTokens True (by decide) hmark (by rfl)

end Monkey
