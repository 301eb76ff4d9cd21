import Monkey.Proofs.Token.Reads

/-!
# Tokens that are written out

Tokens can be written out with a space between each and the next, and what is scanned of the text
are the same tokens. A space keeps words, numerals and signs apart, whatever they are. A string
literal stands between quotes and may run over any number of lines, and what is in it is its own.

## Main definitions

* `Token.IsSpelt` — that a token is spelt as its kind is.
* `Token.written`, `Token.writtenAll` — a token, and tokens, in a text.
-/

namespace Monkey

open Text

namespace Scanner

/-! ## What reads as a token -/

theorem Leads.reads {P : List Char → Prop} {k : Token.Kind} {w rest : List Char}
    {ts : List (Token.Kind × String)} (h : Leads P k w) (hrest : P rest)
    (hts : Reads none rest ts) : Reads none (w ++ rest) ((k, String.ofList w) :: ts) := by
  obtain ⟨c, cs, rfl, hsep, hquote, hfirst⟩ := h.first
  have hline : c ≠ '\n' := fun hc => h.oneLine.1 (hc ▸ List.mem_cons_self)
  exact .token hsep hline hquote (hfirst rest hrest) hts

theorem reads_literal {body rest : List Char} {ts : List (Token.Kind × String)}
    (hbody : '"' ∉ body) (hts : Reads none rest ts) (text : String) :
    Reads (some text) (body ++ '"' :: rest) ((.string, text ++ String.ofList body) :: ts) := by
  induction body generalizing text with
  | nil => simpa using Reads.closeLiteral hts
  | cons c body ih =>
    obtain ⟨hc, hbody⟩ := not_or.mp (mt List.mem_cons.mpr hbody)
    have hreads := ih hbody (text.push c)
    rw [push_append_ofList] at hreads
    exact .extend (Ne.symm hc) hreads

end Scanner

open Scanner

/-! ## Tokens that are written out -/

namespace Token

/-- The token is spelt as its kind is. A name is a word and no keyword, a numeral is a run of digits,
and a string literal has no quote in it and no carriage return directly before a newline. -/
def IsSpelt (t : Token) : Prop :=
  match t.kind with
  | .illegal | .endOfInput => False
  | .identifier => isWord t.lexeme.toList = true ∧ Keyword.ofSpelling? t.lexeme = none
  | .integer => t.lexeme.toList ≠ [] ∧ t.lexeme.toList.all Char.isDigit = true
  | .string => '"' ∉ t.lexeme.toList ∧ NewlinesOnly t.lexeme.toList
  | .symbol s => t.lexeme = s.spelling
  | .keyword k => t.lexeme = k.spelling

instance : (t : Token) → Decidable t.IsSpelt
  | ⟨.illegal, _, _⟩ | ⟨.endOfInput, _, _⟩ => inferInstanceAs (Decidable False)
  | ⟨.identifier, lexeme, _⟩ => inferInstanceAs
      (Decidable (isWord lexeme.toList = true ∧ Keyword.ofSpelling? lexeme = none))
  | ⟨.integer, lexeme, _⟩ => inferInstanceAs
      (Decidable (lexeme.toList ≠ [] ∧ lexeme.toList.all Char.isDigit = true))
  | ⟨.string, lexeme, _⟩ => inferInstanceAs
      (Decidable ('"' ∉ lexeme.toList ∧ NewlinesOnly lexeme.toList))
  | ⟨.symbol s, lexeme, _⟩ => inferInstanceAs (Decidable (lexeme = s.spelling))
  | ⟨.keyword k, lexeme, _⟩ => inferInstanceAs (Decidable (lexeme = k.spelling))

/-- A token in a text. -/
def written (t : Token) : String :=
  match t.kind with
  | .string => "\"" ++ t.lexeme ++ "\""
  | _ => t.lexeme

/-- Tokens in a text, with a space between them. -/
def writtenAll (ts : List Token) : String := " ".intercalate (ts.map written)

variable {t : Token} {rest : List Char} {us : List (Token.Kind × String)}

/-- What follows a token in a text. -/
def Detached (rest : List Char) : Prop := rest = [] ∨ ∃ cs, rest = ' ' :: cs

theorem Detached.apart (h : Detached rest) : Apart rest := by
  rcases h with rfl | ⟨cs, rfl⟩
  · exact apart_nil
  · exact apart_space cs

theorem Detached.unjoined (h : Detached rest) (s : Symbol) : Unjoined s rest := by
  rcases h with rfl | ⟨cs, rfl⟩
  · simp [Unjoined]
  · simp [Unjoined]

/-- Where it is written out, a token that is no string literal is one token again. -/
theorem IsSpelt.leads (h : t.IsSpelt) (hstring : t.kind ≠ .string) :
    Leads Detached t.kind t.lexeme.toList := by
  have hapart {k : Kind} {w : List Char} (h : Leads Apart k w) : Leads Detached k w :=
    h.mono fun _ hrest => hrest.apart
  obtain ⟨kind, lexeme, span⟩ := t
  cases kind with
  | illegal => exact h.elim
  | endOfInput => exact h.elim
  | identifier => exact hapart (leads_identifier h.1 h.2)
  | integer => exact hapart (leads_digits h.1 h.2)
  | string => exact absurd rfl hstring
  | symbol s =>
    obtain rfl : lexeme = s.spelling := h
    exact (leads_symbol s).mono fun _ hrest => hrest.unjoined s
  | keyword k =>
    obtain rfl : lexeme = k.spelling := h
    exact hapart (leads_keyword k)

theorem written_of_ne (hstring : t.kind ≠ .string) : t.written = t.lexeme := by
  unfold written
  split
  · next hkind => exact absurd hkind hstring
  · rfl

theorem toList_written_of_eq (hstring : t.kind = .string) :
    t.written.toList = '"' :: (t.lexeme.toList ++ ['"']) := by
  simp [written, hstring]

theorem IsSpelt.of_string (h : t.IsSpelt) (hstring : t.kind = .string) :
    '"' ∉ t.lexeme.toList ∧ NewlinesOnly t.lexeme.toList := by
  simpa [IsSpelt, hstring] using h

theorem IsSpelt.reads (h : t.IsSpelt) (hrest : Detached rest) (hus : Reads none rest us) :
    Reads none (t.written.toList ++ rest) (t.unplaced :: us) := by
  by_cases hstring : t.kind = .string
  · have hreads := reads_literal (h.of_string hstring).1 hus ""
    rw [String.ofList_toList, String.empty_append, ← hstring] at hreads
    rw [toList_written_of_eq hstring, List.cons_append, List.append_assoc]
    exact .openLiteral hreads
  · have hreads := (h.leads hstring).reads hrest hus
    rw [String.ofList_toList] at hreads
    rw [written_of_ne hstring]
    exact hreads

theorem newlinesOnly_of_notMem {cs : List Char} (h : '\r' ∉ cs) : NewlinesOnly cs := by
  induction cs with
  | nil => exact .nil
  | cons c cs ih =>
    obtain ⟨hc, hcs⟩ := not_or.mp (mt List.mem_cons.mpr h)
    exact List.isChain_cons.mpr ⟨fun _ _ hpair => hc hpair.1.symm, ih hcs⟩

theorem IsSpelt.newlinesOnly (h : t.IsSpelt) : NewlinesOnly t.written.toList := by
  by_cases hstring : t.kind = .string
  · have hlast : NewlinesOnly (t.lexeme.toList ++ ['"']) :=
      List.isChain_append.mpr ⟨(h.of_string hstring).2, .singleton _, by simp⟩
    rw [toList_written_of_eq hstring]
    exact List.isChain_cons.mpr ⟨by simp, hlast⟩
  · rw [written_of_ne hstring]
    exact newlinesOnly_of_notMem (h.leads hstring).oneLine.2

/-- After the first of several tokens come a space and the others. -/
theorem exists_toList_writtenAll_cons (t : Token) (ts : List Token) :
    ∃ rest, (writtenAll (t :: ts)).toList = t.written.toList ++ rest ∧
      (ts = [] ∧ rest = [] ∨ rest = ' ' :: (writtenAll ts).toList) := by
  simp only [writtenAll, String.toList_intercalate]
  cases ts with
  | nil => exact ⟨[], by simp, .inl ⟨rfl, rfl⟩⟩
  | cons u ts =>
    refine ⟨_, ?_, .inr rfl⟩
    simp [List.intercalate_cons_cons]

theorem reads_writtenAll {ts : List Token} (h : ∀ t ∈ ts, t.IsSpelt) :
    Reads none (writtenAll ts).toList (ts.map unplaced) := by
  induction ts with
  | nil => exact .finish
  | cons t ts ih =>
    obtain ⟨ht, hts⟩ := List.forall_mem_cons.mp h
    obtain ⟨rest, heq, hrest⟩ := exists_toList_writtenAll_cons t ts
    rw [heq]
    rcases hrest with ⟨rfl, rfl⟩ | rfl
    · exact ht.reads (.inl rfl) .finish
    · exact ht.reads (.inr ⟨_, rfl⟩) (.skip (.inl rfl) (ih hts))

theorem newlinesOnly_writtenAll {ts : List Token} (h : ∀ t ∈ ts, t.IsSpelt) :
    NewlinesOnly (writtenAll ts).toList := by
  induction ts with
  | nil => exact .nil
  | cons t ts ih =>
    obtain ⟨ht, hts⟩ := List.forall_mem_cons.mp h
    obtain ⟨rest, heq, hrest⟩ := exists_toList_writtenAll_cons t ts
    rw [heq]
    rcases hrest with ⟨rfl, rfl⟩ | rfl
    · rw [List.append_nil]
      exact ht.newlinesOnly
    · have hrest : NewlinesOnly (' ' :: (writtenAll ts).toList) :=
        List.isChain_cons.mpr ⟨by simp, ih hts⟩
      exact List.isChain_append.mpr ⟨ht.newlinesOnly, hrest, by simp⟩

/-- Tokens that are spelt as their kinds are can be written out with a space between them: what is
scanned of that text are the same tokens, and then the mark of the end. -/
theorem ofString_writtenAll {ts : List Token} (h : ∀ t ∈ ts, t.IsSpelt) :
    (Token.ofString (writtenAll ts)).map unplaced = ts.map unplaced ++ [(.endOfInput, "")] :=
  (reads_writtenAll h).ofString (newlinesOnly_writtenAll h)

/-- A name that begins like a keyword is bound, to what the comparison of an integer with a literal
over two lines comes to. -/
def twoLines : List Token :=
  [⟨.keyword .letWord, "let", {}⟩, ⟨.identifier, "letter", {}⟩, ⟨.symbol .assign, "=", {}⟩,
    ⟨.integer, "7", {}⟩, ⟨.symbol .equal, "==", {}⟩, ⟨.string, "\nlet", {}⟩]

theorem ofString_writtenAll_twoLines : (∀ t ∈ twoLines, t.IsSpelt) ∧
    writtenAll twoLines = "let letter = 7 == \"\nlet\"" ∧
    (Token.ofString (writtenAll twoLines)).map unplaced =
      twoLines.map unplaced ++ [(.endOfInput, "")] := by
  have hspelt : ∀ t ∈ twoLines, t.IsSpelt := by decide
  exact ⟨hspelt, by decide, ofString_writtenAll hspelt⟩

end Token

end Monkey
