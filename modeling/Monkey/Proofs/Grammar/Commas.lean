import Monkey.Proofs.Grammar.Opening
import Monkey.Proofs.Grammar.Soundness

/-!
# Where commas stand

Lists of parameters, arguments, elements and pairs stand between brackets, and commas stand between
their items. To see this in the tokens alone, brackets are counted: what stands between a bracket
and the one that closes it opens as many brackets as it closes, and the commas in there that stand
outside all further brackets are the commas of that list. In a text that is read without a
diagnostic, every two brackets that belong together have items between them with a comma between
each and the next. Only a hash literal may have one more comma, after its last pair.

## Main definitions

* `depth`, `Balanced`, `outerCommas` — brackets that are open, and commas outside all brackets.
* `Listed`, `ListedEnded` — items between brackets, without and with a comma after the last.
* `Punctuated` — that this is so between any two brackets that belong together.
-/

namespace Monkey

open Reader

/-! ## Brackets -/

/-- By how much a token leads deeper into brackets. -/
def Token.Kind.nesting : Token.Kind → Int
  | .symbol .leftParen | .symbol .leftBrace | .symbol .leftBracket => 1
  | .symbol .rightParen | .symbol .rightBrace | .symbol .rightBracket => -1
  | _ => 0

/-- How many brackets the tokens leave open. -/
def depth : List Token → Int
  | [] => 0
  | t :: ts => t.kind.nesting + depth ts

@[simp] theorem depth_nil : depth [] = 0 := rfl

@[simp] theorem depth_cons (t : Token) (ts : List Token) :
    depth (t :: ts) = t.kind.nesting + depth ts := rfl

@[simp] theorem depth_append (ts us : List Token) : depth (ts ++ us) = depth ts + depth us := by
  induction ts with
  | nil => simp
  | cons t ts ih => simp [ih, Int.add_assoc]

/-- The tokens close the brackets that they open, and no others. -/
structure Balanced (ts : List Token) : Prop where
  depth_eq : depth ts = 0
  nonneg : ∀ us vs, ts = us ++ vs → 0 ≤ depth us

theorem balanced_nil : Balanced [] := by
  refine ⟨rfl, fun us vs h => ?_⟩
  obtain ⟨rfl, -⟩ := List.append_eq_nil_iff.mp h.symm
  exact Int.le_refl 0

theorem balanced_singleton {t : Token} (ht : t.kind.nesting = 0) : Balanced [t] := by
  refine ⟨by simp [ht], fun us vs h => ?_⟩
  rcases List.singleton_eq_append_iff.mp h with ⟨rfl, -⟩ | ⟨rfl, -⟩ <;> simp [ht]

theorem Balanced.append {ts us : List Token} (hts : Balanced ts) (hus : Balanced us) :
    Balanced (ts ++ us) := by
  refine ⟨by simp [hts.depth_eq, hus.depth_eq], fun vs ws h => ?_⟩
  rcases List.append_eq_append_iff.mp h with ⟨xs, rfl, hxs⟩ | ⟨xs, hxs, -⟩
  · rw [depth_append, hts.depth_eq, Int.zero_add]
    exact hus.nonneg xs ws hxs
  · exact hts.nonneg vs xs hxs

theorem Balanced.enclosed {inner : List Token} {t u : Token} (h : Balanced inner)
    (ht : t.kind.nesting = 1) (hu : u.kind.nesting = -1) : Balanced (t :: (inner ++ [u])) := by
  refine ⟨by simp [ht, hu, h.depth_eq], fun us vs heq => ?_⟩
  cases us with
  | nil => simp
  | cons t' us =>
    rw [List.cons_append, List.cons.injEq] at heq
    obtain ⟨rfl, heq⟩ := heq
    -- up to the closing bracket the opening one is still open
    rcases List.append_eq_append_iff.mp heq with ⟨xs, rfl, hxs⟩ | ⟨xs, hxs, -⟩
    · rcases List.singleton_eq_append_iff.mp hxs with ⟨rfl, -⟩ | ⟨rfl, -⟩ <;>
        simp [ht, hu, h.depth_eq]
    · have := h.nonneg us xs hxs
      rw [depth_cons, ht]
      omega

/-! ## Commas outside brackets -/

/-- How many commas stand outside all brackets, where `d` brackets are open before the tokens. -/
def commasAt (d : Int) : List Token → Nat
  | [] => 0
  | t :: ts =>
    (if d = 0 ∧ t.kind = .symbol .comma then 1 else 0) + commasAt (d + t.kind.nesting) ts

/-- How many commas stand outside all brackets. -/
def outerCommas (ts : List Token) : Nat := commasAt 0 ts

theorem commasAt_append (d : Int) (ts us : List Token) :
    commasAt d (ts ++ us) = commasAt d ts + commasAt (d + depth ts) us := by
  induction ts generalizing d with
  | nil => simp [commasAt]
  | cons t ts ih =>
    simp only [List.cons_append, commasAt, ih, depth_cons]
    rw [Nat.add_assoc, Int.add_assoc]

theorem commasAt_eq_zero {d : Int} {ts : List Token}
    (h : ∀ us vs, ts = us ++ vs → 0 < d + depth us) : commasAt d ts = 0 := by
  induction ts generalizing d with
  | nil => rfl
  | cons t ts ih =>
    have hd : 0 < d := by simpa using h [] (t :: ts) rfl
    have hne : ¬ (d = 0 ∧ t.kind = .symbol .comma) := by omega
    rw [commasAt, if_neg hne, Nat.zero_add]
    refine ih fun us vs hts => ?_
    have := h (t :: us) vs (congrArg (t :: ·) hts)
    rw [depth_cons] at this
    omega

theorem Balanced.outerCommas_append {ts : List Token} (h : Balanced ts) (us : List Token) :
    outerCommas (ts ++ us) = outerCommas ts + outerCommas us := by
  rw [outerCommas, commasAt_append, h.depth_eq]
  rfl

theorem outerCommas_comma {t : Token} (ht : t.kind = .symbol .comma) : outerCommas [t] = 1 := by
  simp [outerCommas, commasAt, ht]

theorem outerCommas_singleton {t : Token} (ht : t.kind ≠ .symbol .comma) : outerCommas [t] = 0 := by
  simp [outerCommas, commasAt, ht]

/-- No comma between two brackets stands outside them. -/
theorem Balanced.outerCommas_enclosed {inner : List Token} {t u : Token} (h : Balanced inner)
    (ht : t.kind.nesting = 1) (hu : u.kind.nesting = -1) :
    outerCommas (t :: (inner ++ [u])) = 0 := by
  have hne {v : Token} (hv : v.kind.nesting ≠ 0) : v.kind ≠ .symbol .comma := by
    intro hcomma
    rw [hcomma] at hv
    exact hv rfl
  have hinner : commasAt 1 inner = 0 := by
    refine commasAt_eq_zero fun us vs heq => ?_
    have := h.nonneg us vs heq
    omega
  have ht' : t.kind ≠ .symbol .comma := hne (by omega)
  have hu' : u.kind ≠ .symbol .comma := hne (by omega)
  simp [outerCommas, commasAt, commasAt_append, ht, ht', hu', hinner]

/-! ## Items between brackets -/

/-- The phrases that are items after an opening bracket of this kind: pairs and blocks of statements
between braces, and expressions elsewhere. -/
def Phrase.standsAfter (k : Token.Kind) : Phrase → Bool
  | .pair _ | .stmts _ => k = .symbol .leftBrace
  | .expr _ => k = .symbol .leftParen || k = .symbol .leftBracket
  | _ => false

/-- The tokens are an item after an opening bracket of this kind: a written form, of which no comma
stands outside its own brackets. -/
structure IsItem (k : Token.Kind) (ts : List Token) : Prop where
  derives : ∃ φ : Phrase, φ.standsAfter k ∧ Derives False φ ts
  ne_nil : ts ≠ []
  balanced : Balanced ts
  outerCommas_eq : outerCommas ts = 0

/-- What stands between two brackets, of which the first is of this kind, are these items with a
comma between each and the next. There is one comma less than items, and none before the closing
bracket. -/
structure Listed (k : Token.Kind) (items : List (List Token)) (inner : List Token) : Prop where
  isItem : ∀ ts ∈ items, IsItem k ts
  separated : Separated items inner
  outerCommas_eq : outerCommas inner = items.length - 1
  getLast?_ne : ∀ t ∈ inner.getLast?, t.kind ≠ .symbol .comma

/-- What stands between two braces are these pairs with a comma after each. -/
def ListedEnded (k : Token.Kind) (items : List (List Token)) (inner : List Token) : Prop :=
  ∃ us t, inner = us ++ [t] ∧ t.kind = .symbol .comma ∧ k = .symbol .leftBrace ∧ items ≠ [] ∧
    Listed k items us ∧ ∀ ts ∈ items, ∃ kv, Derives False (.pair kv) ts

/-- Items with commas stand between two brackets, of which the first is of this kind. The parameter
`ended` says whether a hash literal may have a comma after its last pair. -/
def Between (ended : Prop) (k : Token.Kind) (inner : List Token) : Prop :=
  ∃ items, Listed k items inner ∨ ended ∧ ListedEnded k items inner

/-- Wherever two brackets in the tokens belong together, items with commas stand between them. -/
def Punctuated (ended : Prop) (ts : List Token) : Prop :=
  ∀ before t inner u after, ts = before ++ t :: (inner ++ u :: after) → t.kind.nesting = 1 →
    u.kind.nesting = -1 → Balanced inner → Between ended t.kind inner

section Punctuated

variable {ended : Prop} {k : Token.Kind} {ts us inner : List Token} {t u : Token}

theorem punctuated_nil : Punctuated ended [] := by
  intro before t inner u after h
  simp at h

theorem punctuated_singleton (t : Token) : Punctuated ended [t] := by
  intro before t' inner u after h
  have := congrArg List.length h
  simp at this
  omega

/-- Brackets that belong together stand in one part, if the first part closes what it opens. -/
theorem Punctuated.append (h : Punctuated ended ts) (hts : Balanced ts)
    (h' : Punctuated ended us) : Punctuated ended (ts ++ us) := by
  intro before t inner u after heq ht hu hinner
  rcases List.append_eq_append_iff.mp heq with ⟨xs, rfl, hus⟩ | ⟨xs, hxs, hrest⟩
  · exact h' xs t inner u after hus ht hu hinner
  cases xs with
  | nil => exact h' [] t inner u after hrest.symm ht hu hinner
  | cons t' xs =>
    rw [List.cons_append, List.cons.injEq] at hrest
    obtain ⟨rfl, hrest⟩ := hrest
    -- otherwise the first part would leave the bracket open
    have hopen (hnonneg : 0 ≤ depth xs) : False := by
      have hbefore := hts.nonneg before _ hxs
      have hdepth := hts.depth_eq
      rw [hxs, depth_append, depth_cons, ht] at hdepth
      omega
    rcases List.append_eq_append_iff.mp hrest with ⟨ys, hys, hafter⟩ | ⟨ys, hys, -⟩
    · cases ys with
      | nil =>
        rw [List.append_nil] at hys
        exact absurd (Int.le_of_eq (hys ▸ hinner.depth_eq.symm)) hopen
      | cons u' ys =>
        obtain ⟨rfl, -⟩ := List.cons.inj hafter
        exact h before t inner u ys (by rw [hxs, hys]) ht hu hinner
    · exact absurd (hinner.nonneg xs ys hys) hopen

theorem Punctuated.enclosed (h : Punctuated ended inner) (hinner : Balanced inner)
    (hbetween : Between ended t.kind inner) :
    Punctuated ended (t :: (inner ++ [u])) := by
  intro before t' inner' u' after heq ht' hu' hinner'
  cases before with
  | nil =>
    rw [List.nil_append, List.cons.injEq] at heq
    obtain ⟨rfl, heq⟩ := heq
    -- the first bracket is closed by the last token and not before
    rcases List.append_eq_append_iff.mp heq with ⟨xs, rfl, hxs⟩ | ⟨xs, rfl, hxs⟩
    · cases xs with
      | nil => rwa [List.append_nil]
      | cons => simp at hxs
    · cases xs with
      | nil => rwa [List.append_nil] at hbetween
      | cons u'' xs =>
        obtain ⟨rfl, -⟩ := List.cons.inj hxs
        have := hinner.nonneg (inner' ++ [u']) xs (by simp)
        rw [depth_append, hinner'.depth_eq, depth_cons, hu'] at this
        simp at this
  | cons t'' before =>
    rw [List.cons_append, List.cons.injEq] at heq
    exact h.append hinner (punctuated_singleton u) before t' inner' u' after heq.2 ht' hu' hinner'

end Punctuated

/-! ## Written forms -/

/-- Tokens whose brackets belong together and have items with commas between them, and of which no
comma stands outside all brackets. -/
structure Orderly (ended : Prop) (ts : List Token) : Prop where
  balanced : Balanced ts
  punctuated : Punctuated ended ts
  outerCommas_eq : outerCommas ts = 0

section Orderly

variable {ended : Prop} {k : Token.Kind} {ts us inner : List Token} {tss : List (List Token)}
  {t u : Token}

theorem orderly_nil : Orderly ended [] := ⟨balanced_nil, punctuated_nil, rfl⟩

theorem Orderly.append (hts : Orderly ended ts) (hus : Orderly ended us) :
    Orderly ended (ts ++ us) := by
  refine ⟨hts.balanced.append hus.balanced, hts.punctuated.append hts.balanced hus.punctuated, ?_⟩
  rw [hts.balanced.outerCommas_append, hts.outerCommas_eq, hus.outerCommas_eq]

theorem orderly_singleton (hnesting : t.kind.nesting = 0) (hcomma : t.kind ≠ .symbol .comma) :
    Orderly ended [t] :=
  ⟨balanced_singleton hnesting, punctuated_singleton t, outerCommas_singleton hcomma⟩

theorem Orderly.cons (h : Orderly ended ts) (hnesting : t.kind.nesting = 0)
    (hcomma : t.kind ≠ .symbol .comma) : Orderly ended (t :: ts) :=
  (orderly_singleton hnesting hcomma).append h

/-- Written forms are separated by commas. -/
theorem Separated.balanced_punctuated (h : Separated tss us) (hall : ∀ ts ∈ tss, Orderly ended ts) :
    Balanced us ∧ Punctuated ended us := by
  induction h with
  | nil => exact ⟨balanced_nil, punctuated_nil⟩
  | single ts => exact ⟨(hall ts (by simp)).balanced, (hall ts (by simp)).punctuated⟩
  | @cons ts us t tss ht _ _ ih =>
    obtain ⟨hbalanced, hpunctuated⟩ := ih fun vs hvs => hall vs (by simp [hvs])
    have hts := hall ts (by simp)
    have hcomma : Balanced [t] := balanced_singleton (by rw [ht]; rfl)
    refine ⟨hts.balanced.append (hcomma.append hbalanced), ?_⟩
    exact hts.punctuated.append hts.balanced
      ((punctuated_singleton t).append hcomma hpunctuated)

theorem Separated.ne_nil (h : Separated tss us) (hne : tss ≠ []) (hall : ∀ ts ∈ tss, ts ≠ []) :
    us ≠ [] := by
  cases h with
  | nil => exact absurd rfl hne
  | single => exact hall us (by simp)
  | cons => simp

theorem IsItem.getLast?_ne (h : IsItem k ts) : ∀ t ∈ ts.getLast?, t.kind ≠ .symbol .comma := by
  intro t ht hcomma
  obtain ⟨us, rfl⟩ := List.getLast?_eq_some_iff.mp ht
  have hcommas := h.outerCommas_eq
  have hdepth := h.balanced.depth_eq
  rw [depth_append, depth_cons, depth_nil, hcomma] at hdepth
  have hus : depth us = 0 := by simpa [Token.Kind.nesting] using hdepth
  simp [outerCommas, commasAt_append, hus, commasAt, hcomma] at hcommas

/-- Items that are separated by commas are listed. -/
theorem Separated.listed (h : Separated tss us) (hall : ∀ ts ∈ tss, IsItem k ts) :
    Listed k tss us := by
  induction h with
  | nil => exact ⟨hall, .nil, rfl, by simp⟩
  | single ts =>
    have hts := hall ts (by simp)
    exact ⟨hall, .single ts, hts.outerCommas_eq, hts.getLast?_ne⟩
  | @cons ts us t tss ht hne h ih =>
    have hts := hall ts (by simp)
    have hothers : ∀ vs ∈ tss, IsItem k vs := fun vs hvs => hall vs (by simp [hvs])
    have hlisted := ih hothers
    have hcomma : Balanced [t] := balanced_singleton (by rw [ht]; rfl)
    refine ⟨hall, .cons ht hne h, ?_, ?_⟩
    · have hlength : 0 < tss.length := List.length_pos_iff.mpr hne
      have hcons : outerCommas (t :: us) = 1 + outerCommas us := by
        rw [← outerCommas_comma ht]
        exact hcomma.outerCommas_append us
      rw [hts.balanced.outerCommas_append, hts.outerCommas_eq, hcons, hlisted.outerCommas_eq,
        List.length_cons]
      omega
    · obtain ⟨v, vs, rfl⟩ := List.exists_cons_of_ne_nil
        (h.ne_nil hne fun vs hvs => (hothers vs hvs).ne_nil)
      simpa [List.getLast?_append, List.getLast?_cons] using hlisted.getLast?_ne

theorem Enclosed.orderly {opening closing : Symbol} (h : Enclosed opening closing inner ts)
    (hopening : (Token.Kind.symbol opening).nesting = 1)
    (hclosing : (Token.Kind.symbol closing).nesting = -1) (hbalanced : Balanced inner)
    (hpunctuated : Punctuated ended inner) (hbetween : Between ended (.symbol opening) inner) :
    Orderly ended ts := by
  obtain ⟨t, u, ht, hu, rfl⟩ := h
  rw [← ht] at hopening hbetween
  rw [← hu] at hclosing
  exact ⟨hbalanced.enclosed hopening hclosing, hpunctuated.enclosed hbalanced hbetween,
    hbalanced.outerCommas_enclosed hopening hclosing⟩

theorem Orderly.isItem {φ : Phrase} (h : Orderly ended ts) (hφ : φ.standsAfter k = true)
    (hts : Derives False φ ts) (hne : ts ≠ []) : IsItem k ts :=
  ⟨⟨φ, hφ, hts⟩, hne, h.balanced, h.outerCommas_eq⟩

theorem Orderly.isItem_expr {e : Expr} (h : Orderly ended ts)
    (hstands : (Phrase.expr e).standsAfter k = true) (he : Derives False (.expr e) ts) :
    IsItem k ts :=
  h.isItem hstands he (List.ne_nil_of_length_pos he.opening.length_pos)

/-- One item between two brackets is orderly. -/
theorem IsItem.orderly_enclosed {opening closing : Symbol} (h : IsItem (.symbol opening) inner)
    (hinner : Orderly ended inner) (hts : Enclosed opening closing inner ts)
    (hopening : (Token.Kind.symbol opening).nesting = 1)
    (hclosing : (Token.Kind.symbol closing).nesting = -1) : Orderly ended ts := by
  refine hts.orderly hopening hclosing hinner.balanced hinner.punctuated ⟨[inner], .inl ?_⟩
  exact (Separated.single inner).listed (by simpa using h)

/-- An expression is one item, in parentheses and between the brackets of an index. -/
theorem Orderly.expr_enclosed {opening closing : Symbol} {e : Expr} (h : Orderly ended inner)
    (he : Derives False (.expr e) inner) (hts : Enclosed opening closing inner ts)
    (hstands : (Phrase.expr e).standsAfter (.symbol opening) = true)
    (hopening : (Token.Kind.symbol opening).nesting = 1)
    (hclosing : (Token.Kind.symbol closing).nesting = -1) : Orderly ended ts :=
  (h.isItem_expr hstands he).orderly_enclosed h hts hopening hclosing

/-- A block is one item, if there are any statements in it. -/
theorem Orderly.stmts_enclosed {b : Block} (h : Orderly ended inner)
    (hb : Derives False (.stmts b) inner) (hts : Enclosed .leftBrace .rightBrace inner ts) :
    Orderly ended ts := by
  by_cases hne : inner = []
  · subst hne
    refine hts.orderly rfl rfl h.balanced h.punctuated ⟨[], .inl ?_⟩
    exact Separated.nil.listed (by simp)
  · exact (h.isItem rfl hb hne).orderly_enclosed h hts rfl rfl

/-- Items that are separated by commas are orderly between brackets. -/
theorem Separated.orderly_enclosed {opening closing : Symbol} (h : Separated tss us)
    (hitems : ∀ vs ∈ tss, IsItem (.symbol opening) vs) (hall : ∀ vs ∈ tss, Orderly ended vs)
    (hts : Enclosed opening closing us ts) (hopening : (Token.Kind.symbol opening).nesting = 1)
    (hclosing : (Token.Kind.symbol closing).nesting = -1) : Orderly ended ts := by
  obtain ⟨hbalanced, hpunctuated⟩ := h.balanced_punctuated hall
  exact hts.orderly hopening hclosing hbalanced hpunctuated ⟨tss, .inl (h.listed hitems)⟩

theorem Separated.orderly_parameters {parameters : List Token}
    (h : Separated (parameters.map fun u => [u]) us)
    (hnames : ∀ u ∈ parameters, u.kind = .identifier)
    (hts : Enclosed .leftParen .rightParen us ts) : Orderly ended ts := by
  have hname : ∀ vs ∈ parameters.map fun u => [u],
      Orderly ended vs ∧ IsItem (.symbol .leftParen) vs := by
    intro vs hvs
    obtain ⟨u, hu, rfl⟩ := List.mem_map.mp hvs
    have hkind := hnames u hu
    have horderly : Orderly ended [u] :=
      orderly_singleton (by rw [hkind]; rfl) (by rw [hkind]; nofun)
    exact ⟨horderly, horderly.isItem_expr rfl (.expr (.name hkind))⟩
  exact h.orderly_enclosed (fun vs hvs => (hname vs hvs).2) (fun vs hvs => (hname vs hvs).1) hts
    rfl rfl

theorem Separated.orderly_exprs {opening closing : Symbol} {es : List Expr} (h : Separated tss us)
    (hlength : es.length = tss.length)
    (hes : ∀ e vs, (e, vs) ∈ es.zip tss → Derives False (.expr e) vs)
    (hall : ∀ e vs, (e, vs) ∈ es.zip tss → Orderly ended vs) (hts : Enclosed opening closing us ts)
    (hstands : ∀ e, (Phrase.expr e).standsAfter (.symbol opening) = true)
    (hopening : (Token.Kind.symbol opening).nesting = 1)
    (hclosing : (Token.Kind.symbol closing).nesting = -1) : Orderly ended ts := by
  have hitem : ∀ vs ∈ tss, IsItem (.symbol opening) vs :=
    forall_mem_of_zip hlength fun e vs hmem =>
      (hall e vs hmem).isItem_expr (hstands e) (hes e vs hmem)
  exact h.orderly_enclosed hitem (forall_mem_of_zip hlength hall) hts hopening hclosing

/-- So are pairs in a hash literal, with or without a comma after the last. -/
theorem Terminated.orderly_enclosed (h : Terminated tss us)
    (hpairs : ∀ vs ∈ tss, ∃ kv, Derives False (.pair kv) vs) (hall : ∀ vs ∈ tss, Orderly True vs)
    (hts : Enclosed .leftBrace .rightBrace us ts) : Orderly True ts := by
  have hitems : ∀ vs ∈ tss, IsItem (.symbol .leftBrace) vs := by
    intro vs hvs
    obtain ⟨kv, hkv⟩ := hpairs vs hvs
    exact (hall vs hvs).isItem rfl hkv (List.ne_nil_of_length_pos hkv.opening.length_pos)
  rcases h with h | ⟨t, vs, ht, hne, h, rfl⟩
  · exact h.orderly_enclosed hitems hall hts rfl rfl
  · obtain ⟨hbalanced, hpunctuated⟩ := h.balanced_punctuated hall
    have hcomma : Balanced [t] := balanced_singleton (by rw [ht]; rfl)
    refine hts.orderly rfl rfl (hbalanced.append hcomma)
      (hpunctuated.append hbalanced (punctuated_singleton t)) ⟨tss, .inr ⟨trivial, ?_⟩⟩
    exact ⟨vs, t, rfl, ht, rfl, hne, h.listed hitems, hpairs⟩

/-- Every written form is orderly. -/
theorem Derives.orderly {φ : Phrase} (h : Derives False φ ts) : Orderly True ts := by
  have head {t : Token} {us : List Token} {k : Token.Kind} (ht : t.kind = k) (hk : k.nesting = 0)
      (hcomma : k ≠ .symbol .comma) (hus : Orderly True us) : Orderly True (t :: us) :=
    hus.cons (ht ▸ hk) (ht ▸ hcomma)
  induction h with
  | name ht | integer ht | string ht => exact head ht rfl nofun orderly_nil
  | @boolean t b ht => exact head ht (by cases b <;> rfl) nofun orderly_nil
  | parens he hts ih => exact ih.expr_enclosed he hts rfl rfl rfl
  | @unary op _ _ _ _ ht _ _ ih =>
    exact head ht (by cases op <;> rfl) (by cases op <;> nofun) ih
  | @binary op _ _ _ _ _ _ _ ht _ _ _ _ ihl ihr =>
    exact ihl.append (head ht (by cases op <;> rfl) (by cases op <;> nofun) ihr)
  | conditional ht hc hcs hy hys ihc ihy =>
    have htest := ihc.expr_enclosed hc hcs rfl rfl rfl
    exact head ht rfl nofun (htest.append (ihy.stmts_enclosed hy hys))
  | conditionalElse ht hc hcs hy hys hu hn hns ihc ihy ihn =>
    have htest := ihc.expr_enclosed hc hcs rfl rfl rfl
    have hno := head hu rfl nofun (ihn.stmts_enclosed hn hns)
    exact head ht rfl nofun (htest.append ((ihy.stmts_enclosed hy hys).append hno))
  | function ht hnames hps hps' hb hbs ih =>
    have hbody := ih.stmts_enclosed hb hbs
    exact head ht rfl nofun ((hps.orderly_parameters hnames hps').append hbody)
  | call _ _ hlength harguments hus hus' ihf ih =>
    exact ihf.append (hus.orderly_exprs hlength harguments ih hus' (fun _ => rfl) rfl rfl)
  | array hlength helements hus hus' ih =>
    exact hus.orderly_exprs hlength helements ih hus' (fun _ => rfl) rfl rfl
  | index _ _ hi hus ihl ihi => exact ihl.append (ihi.expr_enclosed hi hus rfl rfl rfl)
  | hash hlength hpairs hus hus' ih =>
    have hall := forall_mem_of_zip hlength ih
    exact hus.orderly_enclosed
      (forall_mem_of_zip hlength fun kv vs hmem => ⟨kv, hpairs kv vs hmem⟩) hall hus'
  | expr _ ih => exact ih
  | pair ht _ _ ihk ihv => exact ihk.append (head ht rfl nofun ihv)
  | binding ht hu hw _ ih =>
    exact head ht rfl nofun (head hu rfl nofun (head hw rfl nofun ih))
  | ret ht _ ih => exact head ht rfl nofun ih
  | expression _ ih => exact ih
  | loop ht hc hcs hb hbs ihc ihb =>
    have htest := ihc.expr_enclosed hc hcs rfl rfl rfl
    exact head ht rfl nofun (htest.append (ihb.stmts_enclosed hb hbs))
  | nil => exact orderly_nil
  | ended _ ht _ ihs ihss => exact ihs.append (head ht rfl nofun ihss)
  | unended _ _ _ ihs ihss => exact ihs.append ihss

end Orderly

/-! ## Programs -/

/-- What is read without a diagnostic is a written form, and it reaches up to the first mark of the
end. -/
theorem Program.derives_takeWhile_of_ofTokens (clear : Prop) {tokens : List Token} {p : Program}
    (h : Program.ofTokens tokens = (p, [])) :
    Derives clear (.stmts p) (tokens.takeWhile fun t => t.kind ≠ .endOfInput) := by
  obtain ⟨rest, hreads⟩ := Program.ofTokens_eq_iff.mp h
  obtain ⟨hall, hrest⟩ := readsAll_of_reads_itemsUntilEnd hreads
  obtain ⟨-, hstmt⟩ := expression_statement_sound clear (Program.budget (Cursor.ofTokens tokens))
  obtain ⟨ts, hts, hpass⟩ := hstmt.all hall
  have hunread : tokens = ts ++ rest.unread := hpass.unread
  have hunmarked : ∀ t ∈ ts, decide (t.kind ≠ .endOfInput) = true := by
    intro t ht
    simpa using hts.unmarked t ht
  have hmark : rest.unread.takeWhile (fun t => t.kind ≠ .endOfInput) = [] := by
    cases hcase : rest.unread with
    | nil => rfl
    | cons u us =>
      have hu : u.kind = .endOfInput := by simpa [Cursor.kind, Cursor.head, hcase] using hrest
      simp [hu]
  rw [hunread, List.takeWhile_append_of_pos hunmarked, hmark, List.append_nil]
  exact hts

/-- In a stream with one mark of the end, its last token, that is read without a diagnostic, items
with a comma between each and the next stand between any two brackets that belong together, and only
a hash literal may have a comma after its last pair. -/
theorem punctuated_of_ofTokens {tokens : List Token} {mark : Token} {p : Program}
    (htokens : ∀ t ∈ tokens, t.kind ≠ .endOfInput) (hmark : mark.kind = .endOfInput)
    (h : Program.ofTokens (tokens ++ [mark]) = (p, [])) : Punctuated True tokens := by
  have hderives := Program.derives_takeWhile_of_ofTokens False h
  have htake : (tokens ++ [mark]).takeWhile (fun t => t.kind ≠ .endOfInput) = tokens := by
    rw [List.takeWhile_append_of_pos (fun t ht => by simpa using htokens t ht)]
    simp [hmark]
  rw [htake] at hderives
  exact hderives.orderly.punctuated

/-- The text `{1: [x, 2], 3: f(4),}` has items between any two of its six brackets that belong
together, and a comma after the last pair. -/
theorem punctuated_pairs : Punctuated True
    [⟨.symbol .leftBrace, "\x7b", {}⟩, ⟨.integer, "1", {}⟩, ⟨.symbol .colon, ":", {}⟩,
      ⟨.symbol .leftBracket, "[", {}⟩, ⟨.identifier, "x", {}⟩, ⟨.symbol .comma, ",", {}⟩,
      ⟨.integer, "2", {}⟩, ⟨.symbol .rightBracket, "]", {}⟩, ⟨.symbol .comma, ",", {}⟩,
      ⟨.integer, "3", {}⟩, ⟨.symbol .colon, ":", {}⟩, ⟨.identifier, "f", {}⟩,
      ⟨.symbol .leftParen, "(", {}⟩, ⟨.integer, "4", {}⟩, ⟨.symbol .rightParen, ")", {}⟩,
      ⟨.symbol .comma, ",", {}⟩, ⟨.symbol .rightBrace, "\x7d", {}⟩] := by
  have hmark : (⟨.endOfInput, "", {}⟩ : Token).kind = .endOfInput := rfl
  exact punctuated_of_ofTokens (by decide) hmark (by rfl)

/-- Commas after the last pair do occur: the text `{1: 2,}` is read without a diagnostic. -/
theorem not_punctuated_without_ended : ¬ ∀ (tokens : List Token) (mark : Token) (p : Program),
    (∀ t ∈ tokens, t.kind ≠ .endOfInput) → mark.kind = .endOfInput →
      Program.ofTokens (tokens ++ [mark]) = (p, []) → Punctuated False tokens := by
  intro hall
  have hpunctuated : Punctuated False
      [⟨.symbol .leftBrace, "\x7b", {}⟩, ⟨.integer, "1", {}⟩, ⟨.symbol .colon, ":", {}⟩,
        ⟨.integer, "2", {}⟩, ⟨.symbol .comma, ",", {}⟩, ⟨.symbol .rightBrace, "\x7d", {}⟩] :=
    hall _ ⟨.endOfInput, "", {}⟩ [.expression (.hash [(.integer 1, .integer 2)])] (by decide) rfl
      (by rfl)
  have hinner : Balanced [⟨.integer, "1", {}⟩, ⟨.symbol .colon, ":", {}⟩, ⟨.integer, "2", {}⟩,
      ⟨.symbol .comma, ",", {}⟩] :=
    (balanced_singleton rfl).append ((balanced_singleton rfl).append
      ((balanced_singleton rfl).append (balanced_singleton rfl)))
  obtain ⟨items, hlisted | ⟨hfalse, -⟩⟩ := hpunctuated [] _ _ _ [] rfl rfl rfl hinner
  · exact hlisted.getLast?_ne _ rfl rfl
  · exact hfalse

end Monkey
