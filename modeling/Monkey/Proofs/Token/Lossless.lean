import Mathlib.Algebra.Ring.Parity
import Monkey.Proofs.Token.Place

/-!
# Scanning loses nothing

The tokens of a text tell where each of its characters went. A token stands where its lexeme is
written, two tokens do not overlap, and what stands in no token separates tokens. What a scanner
knows between two steps is an account of the text up to there; each step carries it on, and at the
end of the last line it is an account of the whole text.

## Main definitions

* `Token.Written`, `Token.Quoted`, `Token.Unfinished` — how the lexeme of a token is written.
* `Scanner.EndsInLiteral` — that a string literal is still open at the end of the text.
* `Scanner.Accounts` — that tokens and mode account for the text up to a location.
* `Scanner.Lossless` — that tokens account for the whole text.
-/

namespace Monkey

open Location Text

/-! ## How a token is written -/

namespace Token

variable {lines : List String} {t : Token}

/-- The token stands on one line, and its lexeme is what is written there from its start to its
end. -/
def Written (lines : List String) (t : Token) : Prop :=
  t.span.stop.line = t.span.start.line ∧ ∃ line, lines[t.span.start.line]? = some line ∧
    t.lexeme.toList = (line.toList.drop t.span.start.column).take
      (t.span.stop.column - t.span.start.column)

/-- The lexeme has no quote in it, and it is written between two quotes. -/
def Quoted (lines : List String) (t : Token) : Prop :=
  t.span.text lines = '"' :: t.lexeme.toList ++ ['"'] ∧ '"' ∉ t.lexeme.toList

/-- The token is illegal, begins with the only quote in it and goes up to the end of the text, and
its lexeme is all this and a newline. -/
def Unfinished (lines : List String) (t : Token) : Prop :=
  t.kind = .illegal ∧ t.span.stop = endOf lines ∧ t.lexeme.toList = t.span.text lines ++ ['\n'] ∧
    ∃ text, t.lexeme.toList = '"' :: text ∧ '"' ∉ text

/-- The token is no mark of the end, it takes up some of the text, and it is written there. -/
structure Faithful (lines : List String) (t : Token) : Prop where
  kind : t.kind ≠ .endOfInput
  start : t.span.start.IsIn lines
  stop : t.span.stop.IsIn lines
  nonempty : t.span.start < t.span.stop
  written : t.kind ≠ .string → t.Written lines
  quoted : t.kind = .string → t.Quoted lines

end Token

namespace Scanner

/-- A literal is still open at the end of the text: every quote opens or closes one, so their number
is odd. -/
def EndsInLiteral (lines : List String) : Prop := Odd (((endOf lines).before lines).count '"')

/-! ## Accounts of a part of the text -/

namespace Mode

/-- How far the tokens reach: to where the scanner is, or to the literal that it is in. -/
def frontier (here : Location) : Mode → Location
  | code => here
  | literal start _ => start

/-- What the mode says of the text up to a location: whether a literal is open there, where it was
opened, and what has been written in it. -/
def Accounts (lines : List String) (here : Location) : Mode → Prop
  | code => Even ((here.before lines).count '"')
  | literal start text => Odd ((here.before lines).count '"') ∧ start < here ∧
      (∃ cs, Faces lines start ('"' :: cs)) ∧
      Span.text lines ⟨start, here⟩ = '"' :: text.toList ∧ '"' ∉ text.toList

end Mode

/-- The tokens are faithful and stand in order before the frontier. A character before the frontier
that no token covers is a separator, and the mode tells what lies behind the frontier. -/
structure Accounts (lines : List String) (here : Location) (mode : Mode) (ts : List Token) :
    Prop where
  faithful : ∀ t ∈ ts, t.Faithful lines
  stop_le : ∀ t ∈ ts, t.span.stop ≤ mode.frontier here
  ordered : ts.Pairwise fun t u => t.span.stop ≤ u.span.start
  gaps : ∀ l c, l.charAt? lines = some c → l < mode.frontier here →
    (∀ t ∈ ts, ¬ t.span.Covers l) → isSeparator c = true
  mode : mode.Accounts lines here

namespace Accounts

variable {lines : List String} {here next start : Location} {mode : Mode} {ts : List Token}
  {t : Token} {i j : Nat} {c : Char} {w cs : List Char} {text : String}

/-- A token that begins at the frontier moves the frontier to its end. -/
theorem push (h : Accounts lines here mode ts) (ht : t.Faithful lines)
    (hstart : t.span.start = mode.frontier here)
    (heven : Even ((t.span.stop.before lines).count '"')) :
    Accounts lines t.span.stop .code (ts ++ [t]) where
  faithful u hu := by
    rcases List.mem_append.mp hu with hu | hu
    · exact h.faithful u hu
    · rw [List.mem_singleton.mp hu]
      exact ht
  stop_le u hu := by
    rcases List.mem_append.mp hu with hu | hu
    · have hle := h.stop_le u hu
      rw [← hstart] at hle
      exact le_trans hle (le_of_lt ht.nonempty)
    · rw [List.mem_singleton.mp hu]
      exact le_refl _
  ordered := by
    refine List.pairwise_append.mpr ⟨h.ordered, List.pairwise_singleton _ _, fun u hu v hv => ?_⟩
    rw [List.mem_singleton.mp hv, hstart]
    exact h.stop_le u hu
  gaps l c hc hl huncovered := by
    have hlt : l < mode.frontier here := by
      rcases lt_or_ge l (mode.frontier here) with hlt | hle
      · exact hlt
      · rw [← hstart] at hle
        exact absurd ⟨hle, hl⟩ (huncovered t (by simp))
    exact h.gaps l c hc hlt fun u hu => huncovered u (List.mem_append_left _ hu)
  mode := heven

/-- A separator belongs to no token. -/
theorem skip (h : Accounts lines ⟨i, j⟩ .code ts) (hc : Faces lines ⟨i, j⟩ (c :: cs))
    (hsep : isSeparator c = true) : Accounts lines ⟨i, j + 1⟩ .code ts where
  faithful := h.faithful
  stop_le t ht := le_trans (h.stop_le t ht) (.inr ⟨rfl, Nat.le_succ j⟩)
  ordered := h.ordered
  gaps l d hd hl huncovered := by
    rcases lt_add_iff.mp hl with hl | ⟨m, hm, rfl⟩
    · exact h.gaps l d hd hl huncovered
    · obtain rfl : m = 0 := by omega
      rw [hc.charAt? 0] at hd
      cases hd
      exact hsep
  mode := by
    have hquote : c ≠ '"' := by
      rintro rfl
      simp [isSeparator] at hsep
    have hbefore := (hc.advance (w := [c])).2
    have heven := h.mode
    simp only [Mode.Accounts, List.length_singleton] at hbefore heven ⊢
    rw [hbefore, List.count_append, List.count_singleton]
    simpa [hquote] using heven

/-- A quote in code opens a literal. -/
theorem openLiteral (h : Accounts lines ⟨i, j⟩ .code ts) (hc : Faces lines ⟨i, j⟩ ('"' :: cs)) :
    Accounts lines ⟨i, j + 1⟩ (.literal ⟨i, j⟩ "") ts where
  faithful := h.faithful
  stop_le := h.stop_le
  ordered := h.ordered
  gaps := h.gaps
  mode := by
    have hbefore := (hc.advance (w := ['"'])).2
    have heven := h.mode
    simp only [Mode.Accounts, List.length_singleton] at hbefore heven ⊢
    refine ⟨?_, .inr ⟨rfl, Nat.lt_succ_self j⟩, ⟨cs, hc⟩, Span.text_eq hbefore, by simp⟩
    rw [hbefore, List.count_append, List.count_singleton_self]
    exact heven.add_one

/-- What has no quote in it goes on with the literal that is open. -/
theorem extend (h : Accounts lines here (.literal start text) ts)
    (hbefore : next.before lines = here.before lines ++ w) (hle : here ≤ next) (hw : '"' ∉ w) :
    Accounts lines next (.literal start (text ++ String.ofList w)) ts where
  faithful := h.faithful
  stop_le := h.stop_le
  ordered := h.ordered
  gaps := h.gaps
  mode := by
    obtain ⟨hodd, hlt, hstart, htext, hquote⟩ := h.mode
    refine ⟨?_, lt_of_lt_of_le hlt hle, hstart, ?_, ?_⟩
    · rwa [hbefore, List.count_append, List.count_eq_zero.mpr hw, Nat.add_zero]
    · rw [Span.text_append (by simp [htext]) hbefore, htext]
      simp
    · simp only [String.toList_append, String.toList_ofList, List.mem_append, not_or]
      exact ⟨hquote, hw⟩

/-- A quote in a literal closes it. -/
theorem closeLiteral (h : Accounts lines ⟨i, j⟩ (.literal start text) ts)
    (hc : Faces lines ⟨i, j⟩ ('"' :: cs)) :
    Accounts lines ⟨i, j + 1⟩ .code (ts ++ [⟨.string, text, ⟨start, ⟨i, j + 1⟩⟩⟩]) := by
  obtain ⟨hodd, hlt, ⟨ds, hstart⟩, htext, hquote⟩ := h.mode
  obtain ⟨hfaces, hbefore⟩ := hc.advance (w := ['"'])
  rw [List.length_singleton] at hfaces hbefore
  refine h.push (t := ⟨.string, text, ⟨start, ⟨i, j + 1⟩⟩⟩) ?_ rfl ?_
  · refine ⟨by simp, hstart.isIn, hfaces.isIn, ?_, by simp, fun _ => ⟨?_, hquote⟩⟩
    · exact lt_of_lt_of_le hlt (.inr ⟨rfl, Nat.le_succ j⟩)
    · rw [Span.text_append (by simp [htext]) hbefore, htext]
  · rw [hbefore, List.count_append, List.count_singleton_self]
    exact hodd.add_one

/-- What is left of a line in code is a token and what follows it. -/
theorem pushWritten {k : Token.Kind} (h : Accounts lines ⟨i, j⟩ .code ts)
    (hc : Faces lines ⟨i, j⟩ (w ++ cs)) (hne : w ≠ []) (hw : '"' ∉ w) (hend : k ≠ .endOfInput)
    (hstring : k ≠ .string) :
    Accounts lines ⟨i, j + w.length⟩ .code
      (ts ++ [⟨k, String.ofList w, Span.ofWidth ⟨i, j⟩ w.length⟩]) := by
  obtain ⟨hfaces, hbefore⟩ := hc.advance
  have hlength : 0 < w.length := List.length_pos_iff.mpr hne
  refine h.push (t := ⟨k, String.ofList w, Span.ofWidth ⟨i, j⟩ w.length⟩) ?_ rfl ?_
  · refine ⟨hend, hc.isIn, hfaces.isIn, .inr ⟨rfl, ?_⟩, fun _ => ⟨rfl, ?_⟩, fun h => ?_⟩
    · simp only [Span.start_ofWidth, Span.column_stop_ofWidth]
      omega
    · obtain ⟨line, hline, -, hdrop⟩ := hc
      refine ⟨line, hline, ?_⟩
      simp only [Span.start_ofWidth, Span.column_stop_ofWidth] at hdrop ⊢
      rw [hdrop, Nat.add_sub_cancel_left, List.take_left, String.toList_ofList]
    · exact absurd h hstring
  · change Even ((Location.before lines ⟨i, j + w.length⟩).count '"')
    rw [hbefore, List.count_append, List.count_eq_zero.mpr hw, Nat.add_zero]
    exact h.mode

/-- The end of a line in code. -/
theorem endLine (h : Accounts lines ⟨i, j⟩ .code ts) (hc : Faces lines ⟨i, j⟩ []) :
    Accounts lines ⟨i + 1, 0⟩ .code ts where
  faithful := h.faithful
  stop_le t ht := le_trans (h.stop_le t ht) (.inl (Nat.lt_succ_self i))
  ordered := h.ordered
  gaps l d hd hl huncovered := by
    have hlt : l < ⟨i, j⟩ := hc.lt_of_charAt? hl hd
    exact h.gaps l d hd hlt huncovered
  mode := by
    have heven := h.mode
    simp only [Mode.Accounts] at heven ⊢
    rw [hc.newline, List.count_append]
    simpa using heven

end Accounts

end Scanner

/-! ## The token at the front -/

namespace Lexeme

variable {c : Char} {cs : List Char}

theorem notMem_takeWhile {p : Char → Bool} {d : Char} (h : p d = false) :
    d ∉ cs.takeWhile p := by
  intro hmem
  have := List.all_takeWhile (p := p) (l := cs)
  simp [List.all_eq_true.mp this d hmem] at h

/-- A word, a numeral, a sign and an illegal character have no quote in them. -/
theorem quote_notMem_first (hc : c ≠ '"') : '"' ∉ (first c cs).2.1 := by
  have hcons {p : Char → Bool} (hp : p '"' = false) : '"' ∉ c :: cs.takeWhile p :=
    List.not_mem_cons_of_ne_of_not_mem (Ne.symm hc) (notMem_takeWhile hp)
  unfold first
  split
  · exact hcons (by decide)
  · split
    · exact hcons (by decide)
    · split
      · simp
      · simp
      · split <;> simpa using Ne.symm hc

/-- No token of this kind is a string literal or a mark of the end. -/
theorem kind_first (c : Char) (cs : List Char) :
    (first c cs).1 ≠ .endOfInput ∧ (first c cs).1 ≠ .string := by
  have hword (word : List Char) (next : Option Char) :
      kindOfWord word next ≠ .endOfInput ∧ kindOfWord word next ≠ .string := by
    unfold kindOfWord
    split
    · simp
    · split <;> simp
  unfold first
  split
  · exact hword _ _
  · split
    · simp
    · split
      · simp
      · simp
      · split <;> simp

end Lexeme

/-! ## The whole text -/

namespace Scanner

variable {lines : List String} {ts : List Token}

/-- What is read of an open literal has no quote in it, up to the quote that closes it. -/
theorem literalPart_of_dropWhile {cs rest : List Char} (h : cs.dropWhile (· ≠ '"') = rest) :
    cs.takeWhile (· ≠ '"') ++ rest = cs ∧ '"' ∉ cs.takeWhile (· ≠ '"') := by
  refine ⟨?_, Lexeme.notMem_takeWhile (by simp)⟩
  rw [← h]
  exact List.takeWhile_append_dropWhile

/-- Only a quote ends what is read of an open literal. -/
theorem head_of_dropWhile {cs rest : List Char} {c : Char}
    (h : cs.dropWhile (· ≠ '"') = c :: rest) : c = '"' := by
  have hhead := List.head?_dropWhile_not (· ≠ '"') cs
  rw [h] at hhead
  simpa using hhead

/-- Scanning what is left of a line carries the account on to the next line. -/
theorem Accounts.scan {i j : Nat} {mode : Mode} {cs : List Char}
    (h : Accounts lines ⟨i, j⟩ mode ts) (hc : Faces lines ⟨i, j⟩ cs) :
    Accounts lines ⟨i + 1, 0⟩ (scan i j mode cs).2 (ts ++ (scan i j mode cs).1) := by
  fun_induction Scanner.scan i j mode cs generalizing ts with
  | case1 j =>
    rw [List.append_nil]
    exact h.endLine hc
  | case2 j c cs hsep ih => exact ih (h.skip hc hsep) (hc.advance (w := [c])).1
  | case3 j cs hsep ih => exact ih (h.openLiteral hc) (hc.advance (w := ['"'])).1
  | case4 j c cs hsep hquote token width after =>
    rename_i ih
    have happend : token.2.1 ++ token.2.2 = c :: cs := Lexeme.first_append c cs
    have hne : token.2.1 ≠ [] := by
      intro hnil
      have hlt : token.2.2.length < (c :: cs).length := Lexeme.length_first_lt c cs
      rw [hnil, List.nil_append] at happend
      rw [happend] at hlt
      exact Nat.lt_irrefl _ hlt
    rw [← happend] at hc
    obtain ⟨hend, hstring⟩ := Lexeme.kind_first c cs
    have hpush := h.pushWritten hc hne (Lexeme.quote_notMem_first hquote) hend hstring
    have hrest := ih hpush hc.advance.1
    rwa [List.append_assoc] at hrest
  | case5 j cs start text body =>
    rename_i hnil
    obtain ⟨hbody, hquote⟩ := literalPart_of_dropWhile hnil
    rw [← hbody] at hc
    obtain ⟨hfaces, hbefore⟩ := hc.advance
    have hextend := h.extend hbefore (.inr ⟨rfl, Nat.le_add_right j _⟩) hquote
    have hnewline := hextend.extend hfaces.newline (.inl (Nat.lt_succ_self i)) (by decide)
    rw [List.append_nil]
    exact hnewline
  | case6 j cs start text body head rest hdrop column after =>
    rename_i ih
    obtain ⟨hbody, hquote⟩ := literalPart_of_dropWhile hdrop
    obtain rfl := head_of_dropWhile hdrop
    rw [← hbody] at hc
    obtain ⟨hfaces, hbefore⟩ := hc.advance
    have hextend := h.extend hbefore (.inr ⟨rfl, Nat.le_add_right j _⟩) hquote
    have hclose := hextend.closeLiteral hfaces
    have hrest := ih hclose (hfaces.advance (w := ['"'])).1
    rwa [List.append_assoc] at hrest

/-- What is known of a scanner that has read the first of some lines. -/
structure Tracks (lines : List String) (read : Nat) (s : Scanner) : Prop where
  count : s.lines = read
  stop : s.stop = endOf (lines.take read)
  accounts : Accounts lines ⟨read, 0⟩ s.mode s.tokens.toList

theorem tracks_start (lines : List String) : Tracks lines 0 {} where
  count := rfl
  stop := rfl
  accounts :=
    { faithful := by simp
      stop_le := by simp
      ordered := by simp
      gaps := fun l c _ hl => by simp [Mode.frontier, lt_def] at hl
      mode := by simp [Mode.Accounts, before_origin] }

/-- Reading one more line. -/
theorem Tracks.feedLine {read : Nat} {s : Scanner} {line : String} (h : Tracks lines read s)
    (hline : lines[read]? = some line) : Tracks lines (read + 1) (s.feedLine line) where
  count := congrArg (· + 1) h.count
  stop := by
    obtain ⟨hlt, hget⟩ := List.getElem?_eq_some_iff.mp hline
    rw [List.take_succ_eq_append_getElem hlt, hget, endOf_concat,
      List.length_take_of_le (Nat.le_of_lt hlt)]
    simp only [Scanner.feedLine, h.count]
  accounts := by
    have haccounts := h.accounts.scan (faces_start hline)
    simp only [Scanner.feedLine, h.count, Array.toList_appendList]
    exact haccounts

/-- What one more line keeps is kept by all the lines that are left, by induction on them. -/
theorem feed_induction {P : Nat → Scanner → Prop} {s : Scanner} {done todo : List String}
    (hstep : ∀ read s line, (done ++ todo)[read]? = some line → P read s →
      P (read + 1) (s.feedLine line)) (h : P done.length s) :
    P (done ++ todo).length (s.feed todo) := by
  induction todo generalizing done s with
  | nil =>
    rw [List.append_nil]
    exact h
  | cons line todo ih =>
    have hget : (done ++ line :: todo)[done.length]? = some line := by simp
    have hline := hstep _ s line hget h
    rw [List.append_cons] at hstep ⊢
    exact ih hstep (by simpa using hline)

theorem Tracks.feed {s : Scanner} {done todo : List String}
    (h : Tracks (done ++ todo) done.length s) :
    Tracks (done ++ todo) (done ++ todo).length (s.feed todo) :=
  feed_induction (fun _ _ _ hline h => h.feedLine hline) h

/-- It does not matter in what portions lines are read. -/
theorem foldl_feed (s : Scanner) (portions : List (List String)) :
    portions.foldl feed s = s.feed portions.flatten := by
  rw [feed, List.foldl_flatten]
  rfl

/-- The tokens before the mark of the end account for the whole text. Each takes up some of it, and
they stand in order and apart. A string literal is written between quotes, and every other token on
one line, except for one at the end that begins a literal which nothing closes. What stands in no
token is a separator. -/
structure Lossless (lines : List String) (ts : List Token) : Prop where
  unmarked : ∀ t ∈ ts, t.kind ≠ .endOfInput
  within : ∀ t ∈ ts, t.span.start.IsIn lines ∧ t.span.stop.IsIn lines
  nonempty : ∀ t ∈ ts, t.span.start < t.span.stop
  ordered : ts.Pairwise fun t u => t.span.stop ≤ u.span.start
  quoted : ∀ t ∈ ts, t.kind = .string → t.Quoted lines
  written : ¬ EndsInLiteral lines → ∀ t ∈ ts, t.kind ≠ .string → t.Written lines
  unfinished : EndsInLiteral lines → ∃ us t, ts = us ++ [t] ∧ t.Unfinished lines ∧
    ∀ u ∈ us, u.kind ≠ .string → u.Written lines
  gaps : ∀ l c, l.charAt? lines = some c → (∀ t ∈ ts, ¬ t.span.Covers l) → isSeparator c = true

/-- After the last line there are as many quotes as at its end. -/
theorem count_before_length (lines : List String) :
    (before lines ⟨lines.length, 0⟩).count '"' = ((endOf lines).before lines).count '"' := by
  by_cases h : lines = []
  · rw [h]
    rfl
  · rw [before_length h, List.count_append]
    rfl

theorem lt_endOf_of_charAt? {l : Location} {c : Char} (h : l.charAt? lines = some c) :
    l < endOf lines := by
  obtain ⟨line, hline, hc⟩ := Option.bind_eq_some_iff.mp h
  obtain ⟨hcolumn, -⟩ := List.getElem?_eq_some_iff.mp hc
  have hnext : (⟨l.line, l.column + 1⟩ : Location).IsIn lines :=
    ⟨line, hline, by rwa [← String.length_toList]⟩
  have hlt : l < ⟨l.line, l.column + 1⟩ := .inr ⟨rfl, Nat.lt_succ_self _⟩
  exact lt_of_lt_of_le hlt hnext.le_endOf

/-- A text that ends in code is accounted for by its tokens. -/
theorem Accounts.lossless (h : Accounts lines ⟨lines.length, 0⟩ .code ts) : Lossless lines ts where
  unmarked t ht := (h.faithful t ht).kind
  within t ht := ⟨(h.faithful t ht).start, (h.faithful t ht).stop⟩
  nonempty t ht := (h.faithful t ht).nonempty
  ordered := h.ordered
  quoted t ht := (h.faithful t ht).quoted
  written _ t ht := (h.faithful t ht).written
  unfinished hends := by
    have heven := h.mode
    rw [Mode.Accounts, count_before_length] at heven
    exact absurd hends (Nat.not_odd_iff_even.mpr heven)
  gaps l c hc := by
    obtain ⟨line, hline, -⟩ := Option.bind_eq_some_iff.mp hc
    exact h.gaps l c hc (.inl (List.getElem?_eq_some_iff.mp hline).1)

/-- What has been read of a literal that is still open, as a token. -/
theorem Accounts.unfinished {start : Location} {text : String}
    (h : Accounts lines ⟨lines.length, 0⟩ (.literal start text) ts) :
    Token.Unfinished lines ⟨.illegal, "\"" ++ text, ⟨start, endOf lines⟩⟩ ∧
      start.IsIn lines ∧ (endOf lines).IsIn lines ∧ start < endOf lines := by
  obtain ⟨-, -, ⟨cs, hstart⟩, htext, hquote⟩ := h.mode
  have hne : lines ≠ [] := by
    rintro rfl
    obtain ⟨line, hline, -⟩ := hstart
    simp at hline
  have hlt : start < endOf lines := by
    obtain ⟨i, j⟩ := start
    have hnext := (hstart.advance (w := ['"'])).1.isIn.le_endOf
    have hlt : (⟨i, j⟩ : Location) < ⟨i, j + 1⟩ := .inr ⟨rfl, Nat.lt_succ_self j⟩
    exact lt_of_lt_of_le hlt hnext
  -- the newline after the last line is no quote, so the literal begins before it
  have htextne : Span.text lines ⟨start, endOf lines⟩ ≠ [] := by
    intro hnil
    have hmem : '"' ∈ Span.text lines ⟨start, ⟨lines.length, 0⟩⟩ := by
      rw [htext]
      exact List.mem_cons_self
    simp only [Span.text, before_length hne, List.drop_append] at hmem hnil
    rw [hnil, List.nil_append] at hmem
    exact absurd (List.mem_of_mem_drop hmem) (by decide)
  have hwhole := Span.text_append htextne (before_length hne)
  refine ⟨⟨rfl, rfl, ?_, text.toList, by simp, hquote⟩, hstart.isIn, isIn_endOf hne, hlt⟩
  rw [← hwhole, htext]
  simp

/-- A text that ends in a literal is accounted for by its tokens and one for what has been read of
the literal. -/
theorem Accounts.lossless_of_literal {start : Location} {text : String}
    (h : Accounts lines ⟨lines.length, 0⟩ (.literal start text) ts) :
    Lossless lines (ts ++ [⟨.illegal, "\"" ++ text, ⟨start, endOf lines⟩⟩]) := by
  have hodd := h.mode.1
  rw [count_before_length] at hodd
  obtain ⟨hunfinished, hstart, hstop, hlt⟩ := h.unfinished
  constructor
  case unmarked =>
    refine List.forall_mem_append.mpr ⟨fun t ht => (h.faithful t ht).kind, ?_⟩
    exact List.forall_mem_singleton.mpr (by simp)
  case within =>
    refine List.forall_mem_append.mpr
      ⟨fun t ht => ⟨(h.faithful t ht).start, (h.faithful t ht).stop⟩, ?_⟩
    exact List.forall_mem_singleton.mpr ⟨hstart, hstop⟩
  case nonempty =>
    refine List.forall_mem_append.mpr ⟨fun t ht => (h.faithful t ht).nonempty, ?_⟩
    exact List.forall_mem_singleton.mpr hlt
  case ordered =>
    refine List.pairwise_append.mpr ⟨h.ordered, List.pairwise_singleton _ _, fun t ht => ?_⟩
    exact List.forall_mem_singleton.mpr (h.stop_le t ht)
  case quoted =>
    refine List.forall_mem_append.mpr ⟨fun t ht => (h.faithful t ht).quoted, ?_⟩
    exact List.forall_mem_singleton.mpr (by simp)
  case written => exact fun hends => absurd hodd hends
  case unfinished =>
    exact fun _ => ⟨ts, _, rfl, hunfinished, fun t ht => (h.faithful t ht).written⟩
  case gaps =>
    intro l c hc huncovered
    obtain ⟨huncovered, hliteral⟩ := List.forall_mem_append.mp huncovered
    rcases lt_or_ge l start with hbefore | hle
    · exact h.gaps l c hc hbefore huncovered
    · refine absurd ?_ (hliteral _ List.mem_cons_self)
      exact ⟨hle, lt_endOf_of_charAt? hc⟩

/-- Whatever lines a scanner is given, and in whatever portions: it is in a literal if the text ends
in one, the mark of the end comes last and stands, empty, at the end of the last line, and the other
tokens account for the whole text. -/
theorem exists_lossless (portions : List (List String)) :
    ((portions.foldl feed {}).mode ≠ .code ↔ EndsInLiteral portions.flatten) ∧
      ∃ ts, (portions.foldl feed {}).finish = ts ++ [Token.endAt (endOf portions.flatten)] ∧
        Lossless portions.flatten ts := by
  have hfeed : portions.foldl feed {} = ({} : Scanner).feed portions.flatten := by
    rw [feed, List.foldl_flatten]
    rfl
  have htracks := @Tracks.feed _ [] portions.flatten (tracks_start _)
  rw [List.nil_append, ← hfeed] at htracks
  have hstop := htracks.stop
  have haccounts := htracks.accounts
  rw [List.take_length] at hstop
  rw [finish, hstop, EndsInLiteral, ← count_before_length]
  cases hmode : (portions.foldl feed {}).mode with
  | code =>
    rw [hmode] at haccounts
    refine ⟨?_, _, by simp, haccounts.lossless⟩
    simpa using Nat.not_odd_iff_even.mpr haccounts.mode
  | literal start text =>
    rw [hmode] at haccounts
    refine ⟨?_, _, rfl, haccounts.lossless_of_literal⟩
    simpa using haccounts.mode.1

end Scanner

end Monkey
