import Mathlib.Data.List.Forall2
import Monkey.Syntax.OfTokens

/-!
# Reading without a report

A reader reads an item from one cursor to another if it yields the item and drops nothing on its
way. What a compound reader reads is said here in terms of its parts, always as an equivalence, so
that the same laws take a reading apart and put one together. Between the two cursors lie the tokens
that were taken, and the laws speak of these tokens and not of positions.

## Main definitions

* `Cursor.Passes` — the tokens between two cursors.
* `Reader.Reads` — to read an item and drop nothing.
* `Reader.ReadsAll` — to read items one after the other.
-/

namespace Monkey

namespace Cursor

variable {c mid rest : Cursor} {t : Token} {ts us : List Token}

/-- From `c` to `rest` exactly the tokens `ts` are taken, all of them from the stream itself. -/
structure Passes (c : Cursor) (ts : List Token) (rest : Cursor) : Prop where
  unread : c.unread = ts ++ rest.unread
  stop : rest.stop = c.stop
  taken : rest.taken = c.taken + ts.length

@[simp] theorem passes_nil : c.Passes [] rest ↔ rest = c := by
  constructor
  · rintro ⟨hunread, hstop, htaken⟩
    cases c; cases rest
    simp_all
  · rintro rfl
    exact ⟨rfl, rfl, rfl⟩

theorem passes_cons : c.Passes (t :: ts) rest ↔ c.Passes [t] c.next ∧ c.next.Passes ts rest := by
  constructor
  · rintro ⟨hunread, hstop, htaken⟩
    refine ⟨⟨by simp [hunread], rfl, rfl⟩, by simp [hunread], hstop, ?_⟩
    simp only [htaken, taken_next, List.length_cons]
    omega
  · rintro ⟨⟨hunread, -, -⟩, hrest, hstop, htaken⟩
    refine ⟨by rw [hunread, hrest]; rfl, hstop, ?_⟩
    simp only [htaken, taken_next, List.length_cons]
    omega

/-- To pass one token is to step over it. -/
theorem passes_singleton : c.Passes [t] rest ↔ c.Passes [t] c.next ∧ rest = c.next := by
  rw [passes_cons, passes_nil]

theorem passes_append :
    c.Passes (ts ++ us) rest ↔ ∃ mid, c.Passes ts mid ∧ mid.Passes us rest := by
  induction ts generalizing c with
  | nil => simp
  | cons t ts ih =>
    rw [List.cons_append, passes_cons, ih]
    constructor
    · rintro ⟨ht, mid, hts, hus⟩
      exact ⟨mid, passes_cons.mpr ⟨ht, hts⟩, hus⟩
    · rintro ⟨mid, hts, hus⟩
      obtain ⟨ht, hts⟩ := passes_cons.mp hts
      exact ⟨ht, mid, hts, hus⟩

theorem Passes.trans (h : c.Passes ts mid) (h' : mid.Passes us rest) :
    c.Passes (ts ++ us) rest := passes_append.mpr ⟨mid, h, h'⟩

/-- The first token that is passed is the one that stands at the cursor. -/
theorem Passes.head (h : c.Passes (t :: ts) rest) : c.head = t := by
  simp [Cursor.head, h.unread]

theorem Passes.kind (h : c.Passes (t :: ts) rest) : c.kind = t.kind := congrArg _ h.head

/-- A token that is no mark of the end is a token of the stream. -/
theorem passes_head (h : c.kind ≠ .endOfInput) : c.Passes [c.head] c.next := by
  refine ⟨?_, rfl, rfl⟩
  cases hc : c.unread with
  | nil => simp [Cursor.kind, Cursor.head, hc] at h
  | cons t ts => simp [Cursor.head, hc]

theorem passes_of_kind {k : Token.Kind} (hk : c.head.kind = k) (hne : k ≠ .endOfInput) :
    c.Passes [c.head] c.next := passes_head (by rw [← hk] at hne; exact hne)

end Cursor

/-- An outcome without reports comes after nothing that was reported. -/
theorem Outcome.after_eq_done_nil {α : Type} {reports : List Diagnostic} {o : Outcome α} {a : α}
    {rest : Cursor} : o.after reports = .done a rest [] ↔ reports = [] ∧ o = .done a rest [] := by
  cases o <;> simp only [Outcome.after, Outcome.done.injEq, List.append_eq_nil_iff, reduceCtorEq]
  <;> tauto

namespace Reader

variable {α β : Type} {c mid rest : Cursor} {t : Token} {a : α} {b : β}

/-- The reader `p` reads `a` from `c` to `rest`, and nothing in between is dropped. -/
def Reads (p : Reader α) (c : Cursor) (a : α) (rest : Cursor) : Prop := p c = .done a rest []

/-! ## Steps -/

@[simp] theorem reads_pure {x : α} : Reads (pure x) c a rest ↔ a = x ∧ rest = c := by
  simp [Reads, eq_comm]

@[simp] theorem reads_bind {p : Reader α} {f : α → Reader β} :
    Reads (p >>= f) c b rest ↔ ∃ a mid, Reads p c a mid ∧ Reads (f a) mid b rest := by
  unfold Reads
  rw [bind_apply]
  cases hp : p c with
  | done a mid reports =>
    simp only [Outcome.after_eq_done_nil, Outcome.done.injEq]
    constructor
    · rintro ⟨rfl, hf⟩
      exact ⟨a, mid, ⟨rfl, rfl, rfl⟩, hf⟩
    · rintro ⟨_, _, ⟨rfl, rfl, rfl⟩, hf⟩
      exact ⟨rfl, hf⟩
  | failed => simp
  | exhausted => simp

@[simp] theorem reads_map {p : Reader α} {g : α → β} :
    Reads (g <$> p) c b rest ↔ ∃ a, Reads p c a rest ∧ b = g a := by
  rw [← bind_pure_comp, reads_bind]
  constructor
  · rintro ⟨a, mid, hp, hb⟩
    obtain ⟨rfl, rfl⟩ := reads_pure.mp hb
    exact ⟨a, hp, rfl⟩
  · rintro ⟨a, hp, rfl⟩
    exact ⟨a, rest, hp, reads_pure.mpr ⟨rfl, rfl⟩⟩

@[simp] theorem reads_peek : Reads peek c t rest ↔ t = c.head ∧ rest = c := by
  simp [Reads, peek, eq_comm]

@[simp] theorem reads_take : Reads take c t rest ↔ t = c.head ∧ rest = c.next := by
  simp [Reads, take, eq_comm]

@[simp] theorem not_reads_fail {cause : Diagnostic.Cause} {blamed : Token} :
    ¬ Reads (fail cause blamed) c a rest := by simp [Reads, fail]

@[simp] theorem not_reads_outOfBudget : ¬ Reads outOfBudget c a rest := by
  simp [Reads, outOfBudget]

/-- Expecting a token is passing one of the right kind. -/
theorem reads_expect {want : Token.Kind} (hwant : want ≠ .endOfInput) :
    Reads (expect want) c t rest ↔ t.kind = want ∧ c.Passes [t] rest := by
  unfold Reads expect
  split
  · next hkind =>
    simp only [Outcome.done.injEq, and_true]
    constructor
    · rintro ⟨rfl, rfl⟩
      exact ⟨hkind, Cursor.passes_head (hkind ▸ hwant)⟩
    · rintro ⟨-, h⟩
      exact ⟨h.head, (Cursor.passes_singleton.mp h).2.symm⟩
  · next hkind =>
    simp only [reduceCtorEq, false_iff, not_and]
    intro ht h
    exact hkind (h.kind.trans ht)

@[simp] theorem reads_expect_symbol {s : Symbol} :
    Reads (expect (.symbol s)) c t rest ↔ t.kind = .symbol s ∧ c.Passes [t] rest :=
  reads_expect (by simp)

@[simp] theorem reads_expect_identifier :
    Reads (expect .identifier) c t rest ↔ t.kind = .identifier ∧ c.Passes [t] rest :=
  reads_expect (by simp)

theorem reads_skip_true {s : Symbol} :
    Reads (skip s) c true rest ↔ ∃ t : Token, t.kind = .symbol s ∧ c.Passes [t] rest := by
  unfold Reads skip
  split
  · next hkind =>
    simp only [Outcome.done.injEq, true_and, and_true]
    constructor
    · rintro rfl
      exact ⟨c.head, hkind, Cursor.passes_head (by rw [hkind]; simp)⟩
    · rintro ⟨t, -, h⟩
      exact (Cursor.passes_singleton.mp h).2.symm
  · next hkind =>
    simp only [Outcome.done.injEq, Bool.false_eq_true, false_and, false_iff, not_exists, not_and]
    intro t ht h
    exact hkind (h.kind.trans ht)

theorem reads_skip_false {s : Symbol} :
    Reads (skip s) c false rest ↔ c.kind ≠ .symbol s ∧ rest = c := by
  unfold Reads skip
  split <;> simp_all [eq_comm]

/-- What is recovered without a report was never lost. -/
theorem reads_recover {p : Reader α} {o : Option α} :
    Reads (recover p) c o rest ↔ ∃ a, o = some a ∧ Reads p c a rest := by
  unfold Reads recover
  cases p c with
  | done a mid reports =>
    simp only [Outcome.done.injEq]
    constructor
    · rintro ⟨rfl, rfl, rfl⟩
      exact ⟨a, rfl, rfl, rfl, rfl⟩
    · rintro ⟨_, rfl, rfl, rfl, rfl⟩
      exact ⟨rfl, rfl, rfl⟩
  | failed => simp
  | exhausted => simp

/-! ## Items with commas between them -/

theorem reads_commaItems_succ {item : Reader α} {n : Nat} {as : List α} :
    Reads (commaItems item (n + 1)) c as rest ↔
      ∃ a mid, Reads item c a mid ∧
        ((as = [a] ∧ rest = mid ∧ mid.kind ≠ .symbol .comma) ∨
          ∃ (t : Token) (mid' : Cursor) (others : List α), as = a :: others ∧
            t.kind = .symbol .comma ∧ mid.Passes [t] mid' ∧
            Reads (commaItems item n) mid' others rest) := by
  simp only [commaItems, reads_bind]
  constructor
  · rintro ⟨a, mid, ha, more, mid', hskip, h⟩
    refine ⟨a, mid, ha, ?_⟩
    cases more with
    | true =>
      obtain ⟨t, ht, hpass⟩ := reads_skip_true.mp hskip
      simp only [if_true, reads_bind, reads_pure] at h
      obtain ⟨others, _, hothers, rfl, rfl⟩ := h
      exact .inr ⟨t, mid', others, rfl, ht, hpass, hothers⟩
    | false =>
      obtain ⟨hcomma, rfl⟩ := reads_skip_false.mp hskip
      simp only [Bool.false_eq_true, if_false, reads_pure] at h
      exact .inl ⟨h.1, h.2, hcomma⟩
  · rintro ⟨a, mid, ha, ⟨rfl, rfl, hcomma⟩ | ⟨t, mid', others, rfl, ht, hpass, hothers⟩⟩
    · refine ⟨a, rest, ha, false, rest, reads_skip_false.mpr ⟨hcomma, rfl⟩, ?_⟩
      simp
    · refine ⟨a, mid, ha, true, mid', reads_skip_true.mpr ⟨t, ht, hpass⟩, ?_⟩
      simp only [if_true, reads_bind, reads_pure]
      exact ⟨others, rest, hothers, rfl, rfl⟩

theorem reads_commaList {close : Symbol} {item : Reader α} {n : Nat} {as : List α} :
    Reads (commaList close item n) c as rest ↔
      (as = [] ∧ ∃ t : Token, t.kind = .symbol close ∧ c.Passes [t] rest) ∨
      (c.kind ≠ .symbol close ∧ ∃ (t : Token) (mid : Cursor), Reads (commaItems item n) c as mid ∧
        t.kind = .symbol close ∧ mid.Passes [t] rest) := by
  simp only [commaList, reads_bind]
  constructor
  · rintro ⟨closed, mid, hskip, h⟩
    cases closed with
    | true =>
      obtain ⟨rfl, rfl⟩ := reads_pure.mp h
      exact .inl ⟨rfl, reads_skip_true.mp hskip⟩
    | false =>
      obtain ⟨hclose, rfl⟩ := reads_skip_false.mp hskip
      simp only [Bool.false_eq_true, if_false, reads_bind, reads_expect_symbol, reads_pure] at h
      obtain ⟨items, mid, hitems, t, _, ⟨ht, hpass⟩, rfl, rfl⟩ := h
      exact .inr ⟨hclose, t, mid, hitems, ht, hpass⟩
  · rintro (⟨rfl, hclose⟩ | ⟨hclose, t, mid, hitems, ht, hpass⟩)
    · exact ⟨true, rest, reads_skip_true.mpr hclose, reads_pure.mpr ⟨rfl, rfl⟩⟩
    · refine ⟨false, c, reads_skip_false.mpr ⟨hclose, rfl⟩, ?_⟩
      simp only [Bool.false_eq_true, if_false, reads_bind, reads_expect_symbol, reads_pure]
      exact ⟨as, mid, hitems, t, rest, ⟨ht, hpass⟩, rfl, rfl⟩

theorem reads_commaEnded_succ {close : Symbol} {item : Reader α} {n : Nat} {as : List α} :
    Reads (commaEnded close item (n + 1)) c as rest ↔
      (as = [] ∧ ∃ t : Token, t.kind = .symbol close ∧ c.Passes [t] rest) ∨
      (c.kind ≠ .symbol close ∧ ∃ (a : α) (others : List α) (mid mid' : Cursor),
        as = a :: others ∧ Reads item c a mid ∧
        ((mid.kind = .symbol close ∧ mid' = mid) ∨
          (mid.kind ≠ .symbol close ∧ ∃ t : Token, t.kind = .symbol .comma ∧ mid.Passes [t] mid')) ∧
        Reads (commaEnded close item n) mid' others rest) := by
  simp only [commaEnded, reads_bind]
  constructor
  · rintro ⟨closed, mid, hskip, h⟩
    cases closed with
    | true =>
      obtain ⟨rfl, rfl⟩ := reads_pure.mp h
      exact .inl ⟨rfl, reads_skip_true.mp hskip⟩
    | false =>
      obtain ⟨hclose, rfl⟩ := reads_skip_false.mp hskip
      simp only [Bool.false_eq_true, if_false, reads_bind, reads_peek] at h
      obtain ⟨a, _, ha, _, mid, ⟨rfl, rfl⟩, h⟩ := h
      refine .inr ⟨hclose, a, ?_⟩
      split at h
      · next hmid =>
        simp only [reads_bind, reads_expect_symbol, reads_pure] at h
        obtain ⟨t, mid', ⟨ht, hpass⟩, others, _, hothers, rfl, rfl⟩ := h
        exact ⟨others, mid, mid', rfl, ha, .inr ⟨hmid, t, ht, hpass⟩, hothers⟩
      · next hmid =>
        simp only [reads_bind, reads_pure] at h
        obtain ⟨others, _, hothers, rfl, rfl⟩ := h
        exact ⟨others, mid, mid, rfl, ha, .inl ⟨not_not.mp hmid, rfl⟩, hothers⟩
  · rintro (⟨rfl, hclose⟩ | ⟨hclose, a, others, mid, mid', rfl, ha, hcomma, hothers⟩)
    · exact ⟨true, rest, reads_skip_true.mpr hclose, reads_pure.mpr ⟨rfl, rfl⟩⟩
    · refine ⟨false, c, reads_skip_false.mpr ⟨hclose, rfl⟩, ?_⟩
      simp only [Bool.false_eq_true, if_false, reads_bind, reads_peek]
      refine ⟨a, mid, ha, mid.head, mid, ⟨rfl, rfl⟩, ?_⟩
      rcases hcomma with ⟨hmid, rfl⟩ | ⟨hmid, t, ht, hpass⟩
      · rw [if_neg (not_not.mpr (show mid'.head.kind = .symbol close from hmid))]
        simp only [reads_bind, reads_pure]
        exact ⟨others, rest, hothers, rfl, rfl⟩
      · rw [if_pos (show mid.head.kind ≠ .symbol close from hmid)]
        simp only [reads_bind, reads_expect_symbol, reads_pure]
        exact ⟨t, mid', ⟨ht, hpass⟩, others, rest, hothers, rfl, rfl⟩

/-! ## Items up to a mark -/

/-- Items are read one after the other, none of them where a token stands that stops the row. -/
inductive ReadsAll (Stops : Token.Kind → Prop) (item : Reader α) :
    Cursor → List α → Cursor → Prop
  | nil (c : Cursor) : ReadsAll Stops item c [] c
  | cons {c mid rest : Cursor} {a : α} {as : List α} (hc : ¬ Stops c.kind)
      (ha : Reads item c a mid) (has : ReadsAll Stops item mid as rest) :
      ReadsAll Stops item c (a :: as) rest

theorem ReadsAll.mono {item : Reader α} {Stops Stops' : Token.Kind → Prop} {as : List α}
    (h : ReadsAll Stops item c as rest) (hstops : ∀ k, Stops' k → Stops k) :
    ReadsAll Stops' item c as rest := by
  induction h with
  | nil c => exact .nil c
  | cons hc ha _ ih => exact .cons (fun hc' => hc (hstops _ hc')) ha ih

/-- The kinds of token before which no further item of a block is read. -/
def EndsBlock (close : Symbol) (k : Token.Kind) : Prop := k = .symbol close ∨ k = .endOfInput

theorem reads_itemsUntil_succ {close : Symbol} {item : Reader α} {n : Nat} {as : List α} :
    Reads (itemsUntil close (recover item) (n + 1)) c as rest ↔
      (as = [] ∧ ∃ t : Token, t.kind = .symbol close ∧ c.Passes [t] rest) ∨
      (¬ EndsBlock close c.kind ∧ ∃ a others mid, as = a :: others ∧ Reads item c a mid ∧
        Reads (itemsUntil close (recover item) n) mid others rest) := by
  simp only [itemsUntil, reads_bind]
  constructor
  · rintro ⟨closed, mid, hskip, h⟩
    cases closed with
    | true =>
      obtain ⟨rfl, rfl⟩ := reads_pure.mp h
      exact .inl ⟨rfl, reads_skip_true.mp hskip⟩
    | false =>
      obtain ⟨hclose, rfl⟩ := reads_skip_false.mp hskip
      simp only [Bool.false_eq_true, if_false, reads_bind, reads_peek] at h
      obtain ⟨_, _, ⟨rfl, rfl⟩, h⟩ := h
      split at h
      · simp at h
      · next hend =>
        simp only [reads_bind, reads_pure] at h
        obtain ⟨o, mid, hitem, others, rest', hothers, rfl, rfl⟩ := h
        obtain ⟨a, rfl, ha⟩ := reads_recover.mp hitem
        exact .inr ⟨not_or.mpr ⟨hclose, hend⟩, a, others, mid, rfl, ha, hothers⟩
  · rintro (⟨rfl, hclose⟩ | ⟨hstops, a, others, mid, rfl, ha, hothers⟩)
    · exact ⟨true, rest, reads_skip_true.mpr hclose, reads_pure.mpr ⟨rfl, rfl⟩⟩
    · obtain ⟨hclose, hend⟩ := not_or.mp hstops
      refine ⟨false, c, reads_skip_false.mpr ⟨hclose, rfl⟩, ?_⟩
      simp only [Bool.false_eq_true, if_false, reads_bind, reads_peek]
      refine ⟨c.head, c, ⟨rfl, rfl⟩, ?_⟩
      rw [if_neg (show ¬ c.head.kind = .endOfInput from hend)]
      simp only [reads_bind, reads_pure]
      exact ⟨some a, mid, reads_recover.mpr ⟨a, rfl, ha⟩, others, rest, hothers, rfl, rfl⟩

/-- A block is read statement by statement, up to its closing symbol. -/
theorem readsAll_of_reads_itemsUntil {close : Symbol} {item : Reader α} {n : Nat}
    {as : List α} (h : Reads (itemsUntil close (recover item) n) c as rest) :
    ∃ mid t, ReadsAll (EndsBlock close) item c as mid ∧ t.kind = .symbol close ∧
      mid.Passes [t] rest := by
  induction n generalizing c as with
  | zero => simp [itemsUntil] at h
  | succ n ih =>
    rcases reads_itemsUntil_succ.mp h with
      ⟨rfl, t, ht, hpass⟩ | ⟨hstops, a, others, mid, rfl, ha, hothers⟩
    · exact ⟨c, t, .nil c, ht, hpass⟩
    · obtain ⟨last, t, hall, ht, hpass⟩ := ih hothers
      exact ⟨last, t, .cons hstops ha hall, ht, hpass⟩

theorem reads_itemsUntil_of_readsAll {close : Symbol} {item : Reader α} {as : List α}
    (h : ReadsAll (EndsBlock close) item c as mid) (ht : t.kind = .symbol close)
    (hpass : mid.Passes [t] rest) (n : Nat) (hn : as.length < n) :
    Reads (itemsUntil close (recover item) n) c as rest := by
  induction h generalizing n with
  | nil c =>
    cases n with
    | zero => omega
    | succ n => exact reads_itemsUntil_succ.mpr (.inl ⟨rfl, t, ht, hpass⟩)
  | cons hc ha _ ih =>
    cases n with
    | zero => omega
    | succ n =>
      have hothers := ih hpass n (by simpa using hn)
      exact reads_itemsUntil_succ.mpr (.inr ⟨hc, _, _, _, rfl, ha, hothers⟩)

theorem reads_itemsUntilEnd_succ {item : Reader α} {n : Nat} {as : List α} :
    Reads (itemsUntilEnd (recover item) (n + 1)) c as rest ↔
      (as = [] ∧ rest = c ∧ c.kind = .endOfInput) ∨
      (c.kind ≠ .endOfInput ∧ ∃ a others mid, as = a :: others ∧ Reads item c a mid ∧
        Reads (itemsUntilEnd (recover item) n) mid others rest) := by
  simp only [itemsUntilEnd, reads_bind, reads_peek]
  constructor
  · rintro ⟨_, _, ⟨rfl, rfl⟩, h⟩
    split at h
    · next hend =>
      obtain ⟨rfl, rfl⟩ := reads_pure.mp h
      exact .inl ⟨rfl, rfl, hend⟩
    · next hend =>
      simp only [reads_bind, reads_pure] at h
      obtain ⟨o, mid, hitem, others, rest', hothers, rfl, rfl⟩ := h
      obtain ⟨a, rfl, ha⟩ := reads_recover.mp hitem
      exact .inr ⟨hend, a, others, mid, rfl, ha, hothers⟩
  · rintro (⟨rfl, rfl, hend⟩ | ⟨hend, a, others, mid, rfl, ha, hothers⟩)
    · refine ⟨rest.head, rest, ⟨rfl, rfl⟩, ?_⟩
      rw [if_pos (show rest.head.kind = .endOfInput from hend)]
      exact reads_pure.mpr ⟨rfl, rfl⟩
    · refine ⟨c.head, c, ⟨rfl, rfl⟩, ?_⟩
      rw [if_neg (show ¬ c.head.kind = .endOfInput from hend)]
      simp only [reads_bind, reads_pure]
      exact ⟨some a, mid, reads_recover.mpr ⟨a, rfl, ha⟩, others, rest, hothers, rfl, rfl⟩

/-- A program is read statement by statement, up to the end of the text. -/
theorem readsAll_of_reads_itemsUntilEnd {item : Reader α} {n : Nat} {as : List α}
    (h : Reads (itemsUntilEnd (recover item) n) c as rest) :
    ReadsAll (· = .endOfInput) item c as rest ∧ rest.kind = .endOfInput := by
  induction n generalizing c as with
  | zero => simp [itemsUntilEnd] at h
  | succ n ih =>
    rcases reads_itemsUntilEnd_succ.mp h with
      ⟨rfl, rfl, hend⟩ | ⟨hend, a, others, mid, rfl, ha, hothers⟩
    · exact ⟨.nil _, hend⟩
    · obtain ⟨hall, hrest⟩ := ih hothers
      exact ⟨.cons hend ha hall, hrest⟩

theorem reads_itemsUntilEnd_of_readsAll {item : Reader α} {as : List α}
    (h : ReadsAll (· = .endOfInput) item c as rest) (hrest : rest.kind = .endOfInput)
    (n : Nat) (hn : as.length < n) :
    Reads (itemsUntilEnd (recover item) n) c as rest := by
  induction h generalizing n with
  | nil c =>
    cases n with
    | zero => omega
    | succ n => exact reads_itemsUntilEnd_succ.mpr (.inl ⟨rfl, rfl, hrest⟩)
  | cons hc ha _ ih =>
    cases n with
    | zero => omega
    | succ n =>
      have hothers := ih hrest n (by simpa using hn)
      exact reads_itemsUntilEnd_succ.mpr (.inr ⟨hc, _, _, _, rfl, ha, hothers⟩)

end Reader

end Monkey
