import Monkey.Proofs.Reader.Alike
import Monkey.Proofs.Reader.Budget

/-!
# Reading on after a semicolon

No expression ends with a semicolon, so a reader that has not failed has left one that is to come.
It has seen nothing of what follows the semicolon then, and a reader that has failed has seen
nothing of it either, unless it was in a block that was not closed. So tokens up to a semicolon and
tokens after it can be read by themselves.

## Main definitions

* `Cursor.Ended`, `Cursor.Continues` — a cursor whose tokens end with a semicolon, and the same
  cursor where more tokens follow.
* `Outcome.Sealed`, `Reader.Seals` — that what follows the semicolon has no influence.
-/

namespace Monkey

namespace Cursor

variable {tail c d rest : Cursor}

/-- The cursors show the same tokens, and the same marks of the end after them. -/
def Shares (c d : Cursor) : Prop := c.unread = d.unread ∧ c.stop = d.stop

theorem shows_shares : Shows Shares where
  head c d h := by rw [head, head, h.1, h.2]
  next c d h := ⟨congrArg List.tail h.1, h.2⟩

/-- Some tokens are unread, the last of them is a semicolon, and none is a mark of the end. -/
structure Ended (c : Cursor) : Prop where
  last : c.unread.getLast?.map (·.kind) = some (.symbol .semicolon)
  unmarked : ∀ t ∈ c.unread, t.kind ≠ .endOfInput

/-- The second cursor shows what the first does, and then what is unread at `tail`. -/
def Continues (tail c d : Cursor) : Prop :=
  d.unread = c.unread ++ tail.unread ∧ d.stop = tail.stop

/-- An opening brace is unread. -/
def HasBrace (c : Cursor) : Prop := ∃ t ∈ c.unread, t.kind = .symbol .leftBrace

theorem HasBrace.mono (h : rest.HasBrace) (hsuffix : rest.unread <:+ c.unread) : c.HasBrace := by
  obtain ⟨t, ht, hkind⟩ := h
  exact ⟨t, hsuffix.mem ht, hkind⟩

theorem Continues.shares (h : Continues tail c d) (hc : c.unread = []) : Shares tail d :=
  ⟨by rw [h.1, hc, List.nil_append], h.2.symm⟩

theorem Continues.next (h : Continues tail c d) (hc : c.unread ≠ []) :
    Continues tail c.next d.next := by
  refine ⟨?_, h.2⟩
  rw [unread_next, unread_next, h.1, List.tail_append_of_ne_nil hc]

theorem Continues.head_eq (h : Continues tail c d) (hc : c.unread ≠ []) : c.head = d.head := by
  rw [head, head, h.1]
  cases hunread : c.unread with
  | nil => exact absurd hunread hc
  | cons t ts => rfl

theorem suffix_next (c : Cursor) : c.next.unread <:+ c.unread := List.tail_suffix _

namespace Ended

theorem ne_nil (h : c.Ended) : c.unread ≠ [] := by
  intro hnil
  have := h.last
  simp [hnil] at this

theorem of_suffix (h : c.Ended) (hsuffix : rest.unread <:+ c.unread) (hne : rest.unread ≠ []) :
    rest.Ended := by
  refine ⟨?_, fun t ht => h.unmarked t (hsuffix.mem ht)⟩
  obtain ⟨front, hfront⟩ := hsuffix
  rw [← h.last, ← hfront, List.getLast?_append, List.getLast?_eq_some_getLast hne]
  rfl

theorem head_mem (h : c.Ended) : c.head ∈ c.unread := by
  cases hunread : c.unread with
  | nil => exact absurd hunread h.ne_nil
  | cons t ts => simp [head, hunread]

theorem kind_ne (h : c.Ended) : c.kind ≠ .endOfInput := h.unmarked _ h.head_mem

/-- A token that is no semicolon is not the last one. -/
theorem next_ne_nil (h : c.Ended) (hkind : c.kind ≠ .symbol .semicolon) : c.next.unread ≠ [] := by
  cases hunread : c.unread with
  | nil => exact absurd hunread h.ne_nil
  | cons t ts =>
    intro hnil
    have hlast := h.last
    rw [unread_next, hunread, List.tail_cons] at hnil
    rw [hunread, hnil] at hlast
    refine hkind ?_
    simpa [Cursor.kind, head, hunread] using hlast

end Ended

end Cursor

open Cursor

/-- How an outcome from `c` compares with that of the same reading where what is unread at `tail`
follows. Either the two are the same, and the first leaves some tokens if it is to leave `more`. Or
the first has failed at the end of its tokens, which is excused by `dry`. -/
inductive Outcome.Sealed {α : Type} (tail : Cursor) (more dry : Prop) (c : Cursor) :
    Outcome α → Outcome α → Prop
  | done {a : α} {rest rest' : Cursor} {reports : List Diagnostic}
      (hsuffix : rest.unread <:+ c.unread) (hmore : more → rest.unread ≠ [])
      (h : Continues tail rest rest') :
      Sealed tail more dry c (.done a rest reports) (.done a rest' reports)
  | failed {cause : Diagnostic} {rest rest' : Cursor} {reports : List Diagnostic}
      (hsuffix : rest.unread <:+ c.unread) (h : Continues tail rest rest') :
      Sealed tail more dry c (.failed cause rest reports) (.failed cause rest' reports)
  | dry {cause : Diagnostic} {rest : Cursor} {reports : List Diagnostic} {o : Outcome α}
      (hrest : rest.unread = []) (hdry : dry) :
      Sealed tail more dry c (.failed cause rest reports) o
  | exhausted {o : Outcome α} : Sealed tail more dry c .exhausted o

namespace Outcome.Sealed

variable {α : Type} {tail c c' : Cursor} {more dry dry' : Prop} {o o' : Outcome α}

theorem mono (h : o.Sealed tail more dry c o') (hsuffix : c.unread <:+ c'.unread)
    (hdry : dry → dry') : o.Sealed tail more dry' c' o' := by
  cases h with
  | done hrest hmore h => exact .done (hrest.trans hsuffix) hmore h
  | failed hrest h => exact .failed (hrest.trans hsuffix) h
  | dry hrest h => exact .dry hrest (hdry h)
  | exhausted => exact .exhausted

theorem after (h : o.Sealed tail more dry c o') (reports : List Diagnostic) :
    (o.after reports).Sealed tail more dry c (o'.after reports) := by
  cases h with
  | done hrest hmore h => exact .done hrest hmore h
  | failed hrest h => exact .failed hrest h
  | dry hrest h => exact .dry hrest h
  | exhausted => exact .exhausted

end Outcome.Sealed

namespace Reader

variable {α β : Type} {tail c d : Cursor}

/-- From a cursor whose tokens end with a semicolon on, the reader does the same whatever follows,
and if it does not fail, then it leaves the semicolon. It may fail at the end of the tokens, but not
unless there is a brace. -/
def Seals (tail : Cursor) (p : Reader α) : Prop :=
  ∀ ⦃c d⦄, c.Ended → Continues tail c d → (p c).Sealed tail True c.HasBrace c (p d)

/-- The same of a cursor where a certain token is next. -/
def SealsAt (tail : Cursor) (t : Token) (p : Reader α) : Prop :=
  ∀ ⦃c d⦄, c.Ended → Continues tail c d → c.head = t → (p c).Sealed tail True c.HasBrace c (p d)

/-- The same of a reader that may fail at the end of the tokens. -/
def SealsBlock (tail : Cursor) (p : Reader α) : Prop :=
  ∀ ⦃c d⦄, c.Ended → Continues tail c d → (p c).Sealed tail True True c (p d)

/-- The same of a reader that may take the semicolon. -/
def SealsEnd (tail : Cursor) (p : Reader α) : Prop :=
  ∀ ⦃c d⦄, c.Ended → Continues tail c d → (p c).Sealed tail False c.HasBrace c (p d)

theorem Seals.at {p : Reader α} (h : Seals tail p) (t : Token) : SealsAt tail t p :=
  fun _ _ hc hcd _ => h hc hcd

/-! ## Steps -/

theorem seals_pure (a : α) : Seals tail (pure a : Reader α) := fun _ _ hc hcd =>
  .done List.suffix_rfl (fun _ => hc.ne_nil) hcd

theorem seals_outOfBudget : Seals tail (outOfBudget : Reader α) := fun _ _ _ _ => .exhausted

theorem seals_fail (cause : Diagnostic.Cause) (t : Token) :
    Seals tail (fail cause t : Reader α) := fun _ _ _ hcd => .failed List.suffix_rfl hcd

theorem Seals.bind {p : Reader α} {f : α → Reader β} (h : Seals tail p)
    (hf : ∀ a, Seals tail (f a)) : Seals tail (p >>= f) := by
  intro c d hc hcd
  have houtcome := h hc hcd
  rw [bind_apply, bind_apply]
  generalize p c = o, p d = o' at houtcome ⊢
  cases houtcome with
  | @done a rest rest' reports hsuffix hmore hrest =>
    have hnext := hf a (hc.of_suffix hsuffix (hmore trivial)) hrest
    exact (hnext.mono hsuffix fun hbrace => hbrace.mono hsuffix).after _
  | failed hsuffix hrest => exact .failed hsuffix hrest
  | dry hrest hbrace => exact .dry hrest hbrace
  | exhausted => exact .exhausted

theorem Seals.map {p : Reader α} (h : Seals tail p) (g : α → β) : Seals tail (g <$> p) := by
  rw [← bind_pure_comp]
  exact h.bind fun a => seals_pure (g a)

theorem seals_of_at {p : Reader α} (h : ∀ t, SealsAt tail t p) : Seals tail p :=
  fun _ _ hc hcd => h _ hc hcd rfl

theorem seals_peek_bind {f : Token → Reader β} (hf : ∀ t, SealsAt tail t (f t)) :
    Seals tail (peek >>= f) := by
  intro c d hc hcd
  simp only [bind_apply, peek, Outcome.after_nil, ← hcd.head_eq hc.ne_nil]
  exact hf _ hc hcd rfl

/-- A token that is no semicolon can be taken. -/
theorem sealsAt_take_bind {t : Token} {f : Token → Reader β} (ht : t.kind ≠ .symbol .semicolon)
    (hf : Seals tail (f t)) : SealsAt tail t (take >>= f) := by
  rintro c d hc hcd rfl
  simp only [bind_apply, take, Outcome.after_nil, ← hcd.head_eq hc.ne_nil]
  have hnext := hf (hc.of_suffix c.suffix_next (hc.next_ne_nil ht)) (hcd.next hc.ne_nil)
  exact hnext.mono c.suffix_next fun hbrace => hbrace.mono c.suffix_next

/-- If the last semicolon is taken, then the reader has to fail. -/
theorem sealsAt_take_bind_fail {t : Token} {f : Token → Reader β} (cause : Diagnostic.Cause)
    (hf : f t = fail cause t) : SealsAt tail t (take >>= f) := by
  rintro c d hc hcd rfl
  simp only [bind_apply, take, Outcome.after_nil, ← hcd.head_eq hc.ne_nil, hf]
  exact .failed c.suffix_next (hcd.next hc.ne_nil)

theorem seals_skip {s : Symbol} (hs : s ≠ .semicolon) : Seals tail (skip s) := by
  intro c d hc hcd
  have hkind : c.kind = d.kind := congrArg Token.kind (hcd.head_eq hc.ne_nil)
  unfold skip
  rw [← hkind]
  split
  · next hsymbol =>
    have hne := hc.next_ne_nil (by simpa [hsymbol] using hs)
    exact .done c.suffix_next (fun _ => hne) (hcd.next hc.ne_nil)
  · exact .done List.suffix_rfl (fun _ => hc.ne_nil) hcd

theorem seals_expect {want : Token.Kind} (hwant : want ≠ .symbol .semicolon) :
    Seals tail (expect want) := by
  intro c d hc hcd
  have hhead := hcd.head_eq hc.ne_nil
  have hkind : c.kind = d.kind := congrArg Token.kind hhead
  unfold expect
  rw [← hkind, ← hhead]
  split
  · next hsymbol =>
    have hne := hc.next_ne_nil (by simpa [hsymbol] using hwant)
    exact .done c.suffix_next (fun _ => hne) (hcd.next hc.ne_nil)
  · exact .failed List.suffix_rfl hcd

/-! ## Repetition -/

section Repetition

variable {item : Reader α} {close : Symbol} {n : Nat}

theorem seals_commaItems (hitem : Seals tail item) : Seals tail (commaItems item n) := by
  induction n with
  | zero => exact seals_outOfBudget
  | succ n ih =>
    refine hitem.bind fun first => (seals_skip (by decide)).bind fun more => ?_
    split
    · exact ih.bind fun others => seals_pure _
    · exact seals_pure _

theorem seals_commaList (hclose : close ≠ .semicolon) (hitem : Seals tail item) :
    Seals tail (commaList close item n) := by
  refine (seals_skip hclose).bind fun closed => ?_
  split
  · exact seals_pure _
  · refine (seals_commaItems hitem).bind fun items => ?_
    exact (seals_expect (by simpa using hclose)).bind fun _ => seals_pure _

theorem seals_commaEnded (hclose : close ≠ .semicolon) (hitem : Seals tail item) :
    Seals tail (commaEnded close item n) := by
  induction n with
  | zero => exact seals_outOfBudget
  | succ n ih =>
    have hothers (first : α) : Seals tail
        (commaEnded close item n >>= fun others => pure (first :: others)) :=
      ih.bind fun others => seals_pure _
    refine (seals_skip hclose).bind fun closed => ?_
    split
    · exact seals_pure _
    · refine hitem.bind fun first => seals_peek_bind fun t => Seals.at ?_ t
      split
      · exact (seals_expect (by decide)).bind fun _ => hothers first
      · exact hothers first

/-- A block has no end where nothing is unread. -/
theorem itemsUntil_of_unread_nil (item : Reader (Option α)) (n : Nat) (hc : c.unread = []) :
    itemsUntil .rightBrace item n c = .exhausted ∨
      ∃ cause, itemsUntil .rightBrace item n c = .failed cause c.next [] := by
  cases n with
  | zero => exact .inl rfl
  | succ n =>
    refine .inr ⟨⟨.expected (.symbol .rightBrace) .endOfInput, c.stop⟩, ?_⟩
    simp [itemsUntil, bind_apply, skip, peek, take, fail, Cursor.kind, Cursor.head, hc]

/-- What an item of a block and the items after it make. -/
def withOthers (item : Reader (Option α)) (n : Nat) (first : Option α) : Reader (List α) :=
  itemsUntil .rightBrace item n >>= fun others => pure (first.toList ++ others)

/-- After the last token no further item can be read. -/
theorem sealed_withOthers_of_unread_nil (item : Reader (Option α)) (n : Nat) (first : Option α)
    {rest : Cursor} (hrest : rest.unread = []) (reports : List Diagnostic)
    (o : Outcome (List α)) :
    ((withOthers item n first rest).after reports).Sealed tail True True c o := by
  rw [withOthers, bind_apply]
  obtain h | ⟨cause, h⟩ := itemsUntil_of_unread_nil item n hrest
  · rw [h]
    exact .exhausted
  · rw [h]
    exact .dry (by rw [unread_next, hrest, List.tail_nil]) trivial

/-- The first item of a block may have been the last one up to the semicolon. -/
theorem sealed_withOthers {item : Reader (Option α)}
    (hblock : SealsBlock tail (itemsUntil .rightBrace item n)) (first : Option α)
    {rest rest' : Cursor} (hc : c.Ended) (hsuffix : rest.unread <:+ c.unread)
    (hrest : Continues tail rest rest') (reports : List Diagnostic) :
    ((withOthers item n first rest).after reports).Sealed tail True True c
      ((withOthers item n first rest').after reports) := by
  by_cases hnil : rest.unread = []
  · exact sealed_withOthers_of_unread_nil item n first hnil reports _
  · refine Outcome.Sealed.after ?_ reports
    rw [withOthers, bind_apply, bind_apply]
    have hothers := hblock (hc.of_suffix hsuffix hnil) hrest
    generalize itemsUntil .rightBrace item n rest = o, itemsUntil .rightBrace item n rest' = o'
      at hothers ⊢
    cases hothers with
    | done h hmore hlast => exact .done (h.trans hsuffix) hmore hlast
    | failed h hlast => exact .failed (h.trans hsuffix) hlast
    | dry h hdry => exact .dry h hdry
    | exhausted => exact .exhausted

/-- A block whose items are dropped when they fail. Once its tokens are used up, it is to fail. -/
theorem sealsBlock_itemsUntil (hitem : SealsEnd tail item) :
    SealsBlock tail (itemsUntil .rightBrace (recover item) n) := by
  induction n with
  | zero => exact fun _ _ _ _ => .exhausted
  | succ n ih =>
    intro c d hc hcd
    have hhead := hcd.head_eq hc.ne_nil
    have hkind : c.kind = d.kind := congrArg Token.kind hhead
    rw [itemsUntil]
    simp only [bind_apply, skip, ← hkind]
    by_cases hclose : c.kind = .symbol .rightBrace
    · rw [if_pos hclose, if_pos hclose]
      have hne := hc.next_ne_nil (by simp [hclose])
      exact .done c.suffix_next (fun _ => hne) (hcd.next hc.ne_nil)
    · have hend : c.head.kind ≠ .endOfInput := hc.kind_ne
      rw [if_neg hclose, if_neg hclose]
      simp only [Bool.false_eq_true, if_false, Outcome.after_nil, bind_apply, peek, ← hhead,
        if_neg hend]
      have houtcome := hitem hc hcd
      unfold recover
      generalize item c = o, item d = o' at houtcome ⊢
      cases houtcome with
      | done hsuffix _ hrest => exact sealed_withOthers ih _ hc hsuffix hrest _
      | failed hsuffix hrest => exact sealed_withOthers ih none hc hsuffix hrest _
      | dry hrest _ => exact sealed_withOthers_of_unread_nil _ n none hrest _ _
      | exhausted => exact .exhausted

end Repetition

end Reader

open Reader

/-! ## The rules of the grammar -/

section Rules

variable {tail : Cursor} {expr : Level → Reader Expr} {statements : Reader Block} {n : Nat}

theorem seals_condition (hexpr : ∀ l, Seals tail (expr l)) : Seals tail (condition expr) := by
  refine (seals_expect (by decide)).bind fun _ => (hexpr _).bind fun test => ?_
  exact (seals_expect (by decide)).bind fun _ => seals_pure test

/-- A block that begins has a brace, so it is excused. -/
theorem seals_braced (hblock : SealsBlock tail statements) : Seals tail (braced statements) := by
  intro c d hc hcd
  have hhead := hcd.head_eq hc.ne_nil
  have hkind : c.kind = d.kind := congrArg Token.kind hhead
  simp only [braced, bind_apply, expect, ← hkind, ← hhead]
  by_cases hbrace : c.kind = .symbol .leftBrace
  · simp only [if_pos hbrace, Outcome.after_nil]
    have hne := hc.next_ne_nil (by simp [hbrace])
    exact (hblock (hc.of_suffix c.suffix_next hne) (hcd.next hc.ne_nil)).mono c.suffix_next
      fun _ => ⟨c.head, hc.head_mem, hbrace⟩
  · simp only [if_neg hbrace]
    exact .failed List.suffix_rfl hcd

theorem seals_conditionalRest (hexpr : ∀ l, Seals tail (expr l))
    (hblock : SealsBlock tail statements) : Seals tail (conditionalRest expr statements) := by
  refine (seals_condition hexpr).bind fun test => (seals_braced hblock).bind fun yes => ?_
  refine seals_peek_bind fun t => ?_
  split
  · next helse =>
    refine sealsAt_take_bind (by simp [helse]) ?_
    exact (seals_braced hblock).bind fun no => seals_pure _
  · exact (seals_pure _).at t

theorem seals_functionRest (hblock : SealsBlock tail statements) :
    Seals tail (functionRest statements n) := by
  refine (seals_expect (by decide)).bind fun _ => ?_
  refine (seals_commaList (by decide) (seals_expect (by decide))).bind fun parameters => ?_
  exact (seals_braced hblock).bind fun body => seals_pure _

theorem seals_keyAndValue (hexpr : ∀ l, Seals tail (expr l)) : Seals tail (keyAndValue expr) := by
  refine (hexpr _).bind fun key => (seals_expect (by decide)).bind fun _ => ?_
  exact (hexpr _).bind fun value => seals_pure _

theorem seals_integerOf (t : Token) : Seals tail (integerOf t) := by
  unfold integerOf
  split
  · exact seals_pure _
  · exact seals_fail _ t

/-- No operand begins with a semicolon, which is taken all the same. -/
theorem seals_operand (hexpr : ∀ l, Seals tail (expr l)) (hblock : SealsBlock tail statements) :
    Seals tail (operand expr statements n) := by
  refine seals_of_at fun t => ?_
  by_cases ht : t.kind = .symbol .semicolon
  · exact sealsAt_take_bind_fail (.noExpression (.symbol .semicolon)) (by simp [ht])
  · refine sealsAt_take_bind ht ?_
    split
    · exact seals_pure _
    · exact seals_integerOf t
    · exact seals_pure _
    · exact seals_pure _
    · exact seals_pure _
    · exact (hexpr _).map _
    · exact (hexpr _).map _
    · exact (hexpr _).bind fun inner => (seals_expect (by decide)).bind fun _ => seals_pure inner
    · exact seals_conditionalRest hexpr hblock
    · exact seals_functionRest hblock
    · exact (seals_commaList (by decide) (hexpr _)).map _
    · exact (seals_commaEnded (by decide) (seals_keyAndValue hexpr)).map _
    · exact seals_fail _ t

theorem seals_extend (hexpr : ∀ l, Seals tail (expr l)) (left : Expr) (s : Suffix) :
    Seals tail (extend expr n left s) := by
  cases s with
  | operator op => exact (hexpr _).map _
  | call => exact (seals_commaList (by decide) (hexpr _)).map _
  | index =>
    exact (hexpr _).bind fun position => (seals_expect (by decide)).bind fun _ => seals_pure _

theorem seals_suffixes {level : Level} {i : Nat} (hexpr : ∀ l, Seals tail (expr l)) (left : Expr) :
    Seals tail (suffixes expr n level i left) := by
  induction i generalizing left with
  | zero => exact seals_outOfBudget
  | succ i ih =>
    refine seals_peek_bind fun t => ?_
    split
    · exact (seals_pure _).at t
    · next s hs =>
      split
      · have ht : t.kind ≠ .symbol .semicolon := fun ht => by
          simp [ht, Suffix.ofKind?, BinaryOp.ofSymbol?] at hs
        exact sealsAt_take_bind ht ((seals_extend hexpr left s).bind fun longer => ih longer)
      · exact (seals_pure _).at t

theorem seals_statementBody (hexpr : ∀ l, Seals tail (expr l))
    (hblock : SealsBlock tail statements) : Seals tail (statementBody expr statements) := by
  refine seals_peek_bind fun t => ?_
  split
  · next ht =>
    refine sealsAt_take_bind (by simp [ht]) ((seals_expect (by decide)).bind fun name => ?_)
    exact (seals_expect (by decide)).bind fun _ => (hexpr _).bind fun value => seals_pure _
  · next ht =>
    exact sealsAt_take_bind (by simp [ht]) ((hexpr _).bind fun value => seals_pure _)
  · next ht =>
    refine sealsAt_take_bind (by simp [ht]) ((seals_condition hexpr).bind fun test => ?_)
    exact (seals_braced hblock).bind fun body => seals_pure _
  · exact ((hexpr _).map _).at t

/-- The semicolon belongs to the statement before it. -/
theorem Reader.Seals.skip_semicolon {p : Reader Stmt} (h : Seals tail p) :
    SealsEnd tail (p >>= fun s => skip .semicolon >>= fun _ => pure s) := by
  intro c d hc hcd
  have houtcome := h hc hcd
  rw [bind_apply, bind_apply]
  generalize p c = o, p d = o' at houtcome ⊢
  cases houtcome with
  | @done s rest rest' reports hsuffix hmore hrest =>
    refine Outcome.Sealed.after ?_ reports
    have hne := hmore trivial
    have hkind : rest.kind = rest'.kind := congrArg Token.kind (hrest.head_eq hne)
    simp only [bind_apply, skip, ← hkind]
    by_cases hsymbol : rest.kind = .symbol .semicolon
    · rw [if_pos hsymbol, if_pos hsymbol]
      exact .done (rest.suffix_next.trans hsuffix) False.elim (hrest.next hne)
    · rw [if_neg hsymbol, if_neg hsymbol]
      exact .done hsuffix False.elim hrest
  | failed hsuffix hrest => exact .failed hsuffix hrest
  | dry hrest hbrace => exact .dry hrest hbrace
  | exhausted => exact .exhausted

theorem seals_expression_statement (n : Nat) :
    (∀ l, Seals tail (expression n l)) ∧ SealsEnd tail (statement n) := by
  induction n with
  | zero => exact ⟨fun _ => seals_outOfBudget, fun _ _ _ _ => .exhausted⟩
  | succ n ih =>
    obtain ⟨hexpr, hstmt⟩ := ih
    have hblock : SealsBlock tail (itemsUntil .rightBrace (recover (statement n)) n) :=
      sealsBlock_itemsUntil hstmt
    constructor
    · intro l
      rw [expression]
      exact (seals_operand hexpr hblock).bind fun left => seals_suffixes hexpr left
    · rw [statement]
      exact (seals_statementBody hexpr hblock).skip_semicolon

end Rules

/-! ## Programs -/

section Programs

variable {α : Type} {tail last rest c d : Cursor} {p : Reader α} {first : Option α}
  {item : Reader (Option α)} {items later : List α} {reports rs qs : List Diagnostic} {n m : Nat}

/-- At the end of the text there are no items. -/
theorem Reader.itemsUntilEnd_of_unread_nil (hc : c.unread = []) :
    itemsUntilEnd item (n + 1) c = .done [] c [] := by
  simp [itemsUntilEnd, bind_apply, peek, Cursor.head, hc]

/-- What is done in two steps is done by each of them. -/
theorem Reader.bind_eq_done_iff {β : Type} {q : Reader α} {f : α → Reader β} {b : β} :
    (q >>= f) c = .done b rest rs ↔
      ∃ a mid reports qs, q c = .done a mid reports ∧ f a mid = .done b rest qs ∧
        rs = reports ++ qs := by
  rw [bind_apply]
  cases q c with
  | done a mid reports =>
    constructor
    · intro h
      change (f a mid).after reports = _ at h
      cases hf : f a mid with
      | done b' last qs =>
        rw [hf] at h
        cases h
        exact ⟨a, mid, reports, qs, rfl, hf, rfl⟩
      | failed => simp [hf] at h
      | exhausted => simp [hf] at h
    · rintro ⟨_, _, _, qs, ⟨⟩, hf, rfl⟩
      exact congrArg (Outcome.after reports) hf
  | failed => simp
  | exhausted => simp

/-- Before the end of the text there is an item, and then others. -/
theorem Reader.itemsUntilEnd_eq_done_iff (hc : c.kind ≠ .endOfInput) :
    itemsUntilEnd item (n + 1) c = .done items rest rs ↔
      ∃ first mid reports qs later, item c = .done first mid reports ∧
        itemsUntilEnd item n mid = .done later rest qs ∧
        items = first.toList ++ later ∧ rs = reports ++ qs := by
  have hhead : c.head.kind ≠ .endOfInput := hc
  have hpeek (f : Token → Reader (List α)) : (peek >>= f) c = f c.head c := by
    simp [bind_apply, peek]
  rw [itemsUntilEnd, hpeek, if_neg hhead, bind_eq_done_iff]
  simp only [bind_eq_done_iff, pure_apply, Outcome.done.injEq]
  constructor
  · rintro ⟨first, mid, reports, qs, hfirst, hrest, rfl⟩
    obtain ⟨later, last, os, _, hlater, ⟨rfl, rfl, rfl⟩, rfl⟩ := hrest
    exact ⟨first, mid, reports, os, later, hfirst, hlater, rfl, by rw [List.append_nil]⟩
  · rintro ⟨first, mid, reports, os, later, hfirst, hlater, rfl, rfl⟩
    exact ⟨first, mid, reports, os, hfirst,
      ⟨later, rest, os, [], hlater, ⟨rfl, rfl, rfl⟩, (List.append_nil os).symm⟩, rfl⟩

/-- The loop over the statements of a program recovers from all failures. -/
theorem Reader.itemsUntilEnd_ne_failed {cause : Diagnostic} :
    itemsUntilEnd (recover p) n c ≠ .failed cause rest reports := by
  induction n generalizing c cause rest reports with
  | zero => simp [itemsUntilEnd, outOfBudget]
  | succ n ih =>
    rw [itemsUntilEnd]
    simp only [bind_apply, peek, Outcome.after_nil]
    split
    · simp
    · have hothers (first : Option α) (mid : Cursor) (rs : List Diagnostic) :
          ((itemsUntilEnd (recover p) n >>= fun others => pure (first.toList ++ others)) mid).after
            rs ≠ .failed cause rest reports := by
        rw [bind_apply]
        cases h : itemsUntilEnd (recover p) n mid with
        | done others last qs => simp
        | failed => exact absurd h ih
        | exhausted => simp
      simp only [bind_apply, recover]
      cases p c with
      | done a mid rs => exact hothers (some a) mid rs
      | failed d mid rs => exact hothers none mid _
      | exhausted => simp

/-- A recovered failure has a report, so it is not one that is excused if there is none. -/
theorem Outcome.Sealed.recover (h : (p c).Sealed tail False c.HasBrace c (p d))
    (hread : Reader.recover p c = .done first rest reports) (hreports : c.HasBrace → reports = []) :
    ∃ rest', Reader.recover p d = .done first rest' reports ∧ rest.unread <:+ c.unread ∧
      Continues tail rest rest' := by
  unfold Reader.recover at hread ⊢
  generalize p c = o, p d = o' at h hread ⊢
  cases h with
  | done hsuffix _ hrest =>
    cases hread
    exact ⟨_, rfl, hsuffix, hrest⟩
  | failed hsuffix hrest =>
    cases hread
    exact ⟨_, rfl, hsuffix, hrest⟩
  | dry _ hbrace =>
    cases hread
    simp at hreports
    exact absurd hbrace hreports
  | exhausted => cases hread

/-- What is read up to a semicolon, and what is read after it, is what is read of both together. -/
theorem Reader.itemsUntilEnd_append (hp : SealsEnd tail p) (hfollows : Follows Shares p p)
    (htail : itemsUntilEnd (recover p) m tail = .done later last qs)
    (hread : itemsUntilEnd (recover p) n c = .done items rest rs) (hc : c.unread ≠ [] → c.Ended)
    (hcd : Continues tail c d) (hrs : c.HasBrace → rs = []) :
    ∃ rest', itemsUntilEnd (recover p) (n + m) d = .done (items ++ later) rest' (rs ++ qs) := by
  induction n generalizing c d items rs with
  | zero => cases hread
  | succ n ih =>
    by_cases hnil : c.unread = []
    · rw [itemsUntilEnd_of_unread_nil hnil] at hread
      cases hread
      have halike := follows_itemsUntilEnd shows_shares hfollows.recover
        (Nat.le_add_left m (n + 1)) (hcd.shares hnil)
      rw [htail] at halike
      generalize itemsUntilEnd (recover p) (n + 1 + m) d = o at halike ⊢
      cases halike
      exact ⟨_, rfl⟩
    · have hended := hc hnil
      obtain ⟨first, mid, reports, others, os, hfirst, hothers, rfl, rfl⟩ :=
        (itemsUntilEnd_eq_done_iff hended.kind_ne).mp hread
      obtain ⟨mid', hfirst', hsuffix, hmid⟩ := (hp hended hcd).recover hfirst fun hbrace =>
        (List.append_eq_nil_iff.mp (hrs hbrace)).1
      obtain ⟨last', hothers'⟩ := ih hothers (hended.of_suffix hsuffix) hmid fun hbrace =>
        (List.append_eq_nil_iff.mp (hrs (hbrace.mono hsuffix))).2
      have hkind : d.kind ≠ .endOfInput := by
        rw [Cursor.kind, ← hcd.head_eq hnil]
        exact hended.kind_ne
      refine ⟨last', ?_⟩
      rw [Nat.add_right_comm, itemsUntilEnd_eq_done_iff hkind]
      exact ⟨_, _, _, _, _, hfirst', hothers', List.append_assoc .., List.append_assoc ..⟩

end Programs

namespace Program

variable {as bs : List Token} {n m : Nat}

/-- A program is what the loop over its statements does with any budget that is large enough. -/
theorem itemsUntilEnd_eq_done (c : Cursor) (hn : budget c ≤ n) (hm : budget c ≤ m) :
    itemsUntilEnd (recover (statement n)) m c = .done (read c).1 (read c).2.1 (read c).2.2 := by
  have hfollows := follows_program shows_eq hn hm (Eq.refl c)
  unfold read
  cases h : itemsUntilEnd (recover (statement (budget c))) (budget c) c with
  | done program rest reports =>
    rw [h] at hfollows
    generalize itemsUntilEnd (recover (statement n)) m c = o at hfollows ⊢
    cases hfollows with
    | done hrest => rw [← hrest]
  | failed => exact absurd h itemsUntilEnd_ne_failed
  | exhausted => exact absurd h (read_ne_exhausted c)

/-- Reading goes on after a semicolon as from a start: what is read and what is reported is what is
read and reported of the tokens up to the semicolon, and then of the tokens after it. -/
theorem ofTokens_append_of_semicolon
    (hlast : as.getLast?.map (·.kind) = some (.symbol .semicolon))
    (hend : ∀ t ∈ as, t.kind ≠ .endOfInput)
    (hbrace : (∀ t ∈ as, t.kind ≠ .symbol .leftBrace) ∨ (ofTokens as).2 = []) :
    ofTokens (as ++ bs) =
      ((ofTokens as).1 ++ (ofTokens bs).1, (ofTokens as).2 ++ (ofTokens bs).2) := by
  cases bs with
  | nil =>
    have hnil : ofTokens [] = ([], []) := rfl
    rw [List.append_nil, hnil, List.append_nil, List.append_nil]
  | cons t ts =>
    have hcd : Continues (.ofTokens (t :: ts)) (.ofTokens as) (.ofTokens (as ++ t :: ts)) :=
      ⟨rfl, by simp [Cursor.ofTokens, List.getLast?_append, List.getLast?_cons]⟩
    have hreports : (Cursor.ofTokens as).HasBrace → (ofTokens as).2 = [] := by
      rintro ⟨u, hu, hkind⟩
      exact hbrace.resolve_left fun hnone => hnone u hu hkind
    have hlength : budget (.ofTokens (as ++ t :: ts)) ≤
        budget (.ofTokens as) + budget (.ofTokens (t :: ts)) := by
      simp only [budget, Cursor.ofTokens, List.length_append]
      omega
    have hbudget : budget (.ofTokens as) ≤ budget (.ofTokens (as ++ t :: ts)) := by
      simp only [budget, Cursor.ofTokens, List.length_append]
      omega
    have hbudget' : budget (.ofTokens (t :: ts)) ≤ budget (.ofTokens (as ++ t :: ts)) := by
      simp only [budget, Cursor.ofTokens, List.length_append]
      omega
    obtain ⟨rest, hread⟩ := itemsUntilEnd_append (seals_expression_statement _).2
      ((follows_expression_statement shows_shares _).2 _ (Nat.le_refl _))
      (itemsUntilEnd_eq_done _ hbudget' (Nat.le_refl _))
      (itemsUntilEnd_eq_done _ hbudget (Nat.le_refl _))
      (fun _ => ⟨hlast, hend⟩) hcd hreports
    rw [itemsUntilEnd_eq_done _ (Nat.le_refl _) hlength] at hread
    injection hread with hprogram _ hdropped
    exact Prod.ext hprogram hdropped

/-- A parenthesis that is not closed, a sum that is not complete, and a semicolon after each. -/
def brokenTokens : List Token :=
  [⟨.symbol .leftParen, "(", .ofWidth ⟨0, 0⟩ 1⟩, ⟨.symbol .semicolon, ";", .ofWidth ⟨0, 1⟩ 1⟩,
    ⟨.integer, "1", .ofWidth ⟨0, 2⟩ 1⟩, ⟨.symbol .plus, "+", .ofWidth ⟨0, 3⟩ 1⟩,
    ⟨.symbol .semicolon, ";", .ofWidth ⟨0, 4⟩ 1⟩]

theorem ofTokens_append_brokenTokens :
    (ofTokens brokenTokens).2.length = 2 ∧
    ofTokens (brokenTokens ++ [⟨.integer, "5", .ofWidth ⟨1, 0⟩ 1⟩]) =
      ((ofTokens brokenTokens).1 ++ [.expression (.integer 5)], (ofTokens brokenTokens).2 ++ []) :=
  ⟨by decide, ofTokens_append_of_semicolon (by decide) (by decide) (.inl (by decide))⟩

end Program

end Monkey
