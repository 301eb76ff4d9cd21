import Mathlib.Data.List.Chain
import Monkey.Proofs.Display.Pieces

/-!
# Reading a text as it stands

The scanner takes a text line by line, but kinds and lexemes do not depend on the lines: a newline
is one more separator in code, and stands for itself in a string literal. So a text has the tokens
that it is read as from its first character to its last, without regard to lines. Only a carriage
return before a newline is lost.

## Main definitions

* `Token.unplaced` — a token without its place.
* `Scanner.Reads` — the tokens of a text, read without regard to lines.
* `Scanner.NewlinesOnly` — that no line of a text ends in a carriage return.
-/

namespace Monkey

open Text

/-- A token without the place where it stands. -/
def Token.unplaced (t : Token) : Token.Kind × String := (t.kind, t.lexeme)

namespace Scanner

/-! ## Reading a text as it stands -/

/-- The text of a literal that is open. -/
def Mode.open? : Mode → Option String
  | .code => none
  | .literal _ text => some text

theorem Mode.open?_code : Mode.code.open? = none := rfl

theorem Mode.eq_code {mode : Mode} (h : mode.open? = none) : mode = .code := by
  cases mode with
  | code => rfl
  | literal start text => simp [open?] at h

theorem Mode.eq_literal {mode : Mode} {text : String} (h : mode.open? = some text) :
    ∃ start, mode = .literal start text := by
  cases mode with
  | code => simp [open?] at h
  | literal start text' => exact ⟨start, by rw [← Option.some.inj h]⟩

/-- The tokens of a text, given the text of the literal that is open at its front if one is. At the
end of the text none is open any more. -/
inductive Reads : Option String → List Char → List (Token.Kind × String) → Prop
  | finish : Reads none [] []
  | skip {c : Char} {cs : List Char} {ts : List (Token.Kind × String)}
      (hc : isSeparator c = true ∨ c = '\n') (h : Reads none cs ts) : Reads none (c :: cs) ts
  | token {c : Char} {cs w rest : List Char} {k : Token.Kind} {ts : List (Token.Kind × String)}
      (hsep : isSeparator c = false) (hline : c ≠ '\n') (hquote : c ≠ '"')
      (hfirst : Lexeme.first c cs = (k, w, rest)) (h : Reads none rest ts) :
      Reads none (c :: cs) ((k, String.ofList w) :: ts)
  | openLiteral {cs : List Char} {ts : List (Token.Kind × String)} (h : Reads (some "") cs ts) :
      Reads none ('"' :: cs) ts
  | extend {text : String} {c : Char} {cs : List Char} {ts : List (Token.Kind × String)}
      (hc : c ≠ '"') (h : Reads (some (text.push c)) cs ts) : Reads (some text) (c :: cs) ts
  | closeLiteral {text : String} {cs : List Char} {ts : List (Token.Kind × String)}
      (h : Reads none cs ts) : Reads (some text) ('"' :: cs) ((.string, text) :: ts)

/-! ## Inside a literal -/

section Literal

variable {line column : Nat} {start : Location} {text : String} {c : Char} {cs : List Char}

theorem scan_literal (line column : Nat) (start : Location) (text : String) (cs : List Char) :
    scan line column (.literal start text) cs =
      match cs.dropWhile (· ≠ '"') with
      | [] => ([], .literal start (text ++ String.ofList (cs.takeWhile (· ≠ '"')) ++ "\n"))
      | _ :: rest =>
        let column := column + (cs.takeWhile (· ≠ '"')).length + 1
        (⟨.string, text ++ String.ofList (cs.takeWhile (· ≠ '"')), ⟨start, ⟨line, column⟩⟩⟩ ::
          (scan line column .code rest).1, (scan line column .code rest).2) := by
  rw [scan]
  split
  · next h => rw [h]
  · next h => rw [h]

theorem push_append_ofList (text : String) (c : Char) (cs : List Char) :
    text.push c ++ String.ofList cs = text ++ String.ofList (c :: cs) := by
  apply String.toList_inj.mp
  simp

theorem scan_quote :
    scan line column .code ('"' :: cs) =
      scan line (column + 1) (.literal ⟨line, column⟩ "") cs := by
  rw [scan, if_neg (by decide), if_pos rfl]

theorem scan_literal_nil :
    scan line column (.literal start text) [] = ([], .literal start (text.push '\n')) := by
  have hpush : text ++ "\n" = text.push '\n' := String.toList_inj.mp (by simp)
  rw [scan_literal]
  simp [hpush]

theorem scan_literal_quote :
    scan line column (.literal start text) ('"' :: cs) =
      (⟨.string, text, ⟨start, ⟨line, column + 1⟩⟩⟩ :: (scan line (column + 1) .code cs).1,
        (scan line (column + 1) .code cs).2) := by
  rw [scan_literal]
  simp

theorem scan_literal_cons (hc : c ≠ '"') :
    scan line column (.literal start text) (c :: cs) =
      scan line (column + 1) (.literal start (text.push c)) cs := by
  have hlength (n : Nat) : column + (n + 1) + 1 = column + 1 + n + 1 := by omega
  rw [scan_literal, scan_literal]
  simp [hc, hlength, push_append_ofList]

end Literal

/-! ## One line -/

section NextLine

variable {p : Char → Bool} {d : Char}

theorem takeWhile_append_cons (hd : p d = false) (l cs : List Char) :
    (l ++ d :: cs).takeWhile p = l.takeWhile p := by
  induction l with
  | nil => simp [hd]
  | cons a l ih => simp [List.takeWhile_cons, ih]

theorem dropWhile_append_cons (hd : p d = false) (l cs : List Char) :
    (l ++ d :: cs).dropWhile p = l.dropWhile p ++ d :: cs := by
  induction l with
  | nil => simp [hd]
  | cons a l ih =>
    simp only [List.cons_append, List.dropWhile_cons, ih]
    split <;> rfl

theorem kindOfWord_head?_append (w l cs : List Char) :
    Lexeme.kindOfWord w (l ++ '\n' :: cs).head? = Lexeme.kindOfWord w l.head? := by
  cases l with
  | nil => exact kindOfWord_of_apart (apart_cons (by decide))
  | cons a l => rfl

/-- What stands in the next line is no part of the first token of this one. -/
theorem first_append_newline (c : Char) (l cs : List Char) :
    Lexeme.first c (l ++ '\n' :: cs) =
      ((Lexeme.first c l).1, (Lexeme.first c l).2.1, (Lexeme.first c l).2.2 ++ '\n' :: cs) := by
  by_cases hstart : isWordStart c = true
  · rw [first_of_isWordStart hstart, first_of_isWordStart hstart, takeWhile_append_cons rfl,
      dropWhile_append_cons rfl, kindOfWord_head?_append]
  by_cases hdigit : c.isDigit = true
  · rw [first_of_isDigit hdigit, first_of_isDigit hdigit, takeWhile_append_cons rfl,
      dropWhile_append_cons rfl]
  rw [Bool.not_eq_true] at hstart hdigit
  by_cases hjoined : (c = '=' ∨ c = '!') ∧ l.head? = some '='
  · obtain ⟨hc, hl⟩ := hjoined
    obtain ⟨l, rfl⟩ := List.head?_eq_some_iff.mp hl
    rcases hc with rfl | rfl <;> rfl
  · have hl : c = '=' ∨ c = '!' → l.head? ≠ some '=' := fun hc hl => hjoined ⟨hc, hl⟩
    have hlcs : c = '=' ∨ c = '!' → (l ++ '\n' :: cs).head? ≠ some '=' := by
      cases l with
      | nil => simp
      | cons a l => exact hl
    rw [first_of_unjoined hstart hdigit hl, first_of_unjoined hstart hdigit hlcs]

end NextLine

/-- What is left of a text after one of its lines. -/
def AfterLine (rest : List Char) : Prop := rest = [] ∨ ∃ cs, rest = '\n' :: cs

theorem AfterLine.head? {c : Char} {rest : List Char} (h : AfterLine (c :: rest)) : c = '\n' := by
  rcases h with h | ⟨cs, h⟩
  · simp at h
  · simpa using congrArg List.head? h

/-- What is no newline at the front of a text is in the line that is there. -/
theorem AfterLine.exists_cons {c : Char} {cs l rest : List Char} (h : AfterLine rest)
    (hc : c ≠ '\n') (hcs : c :: cs = l ++ rest) : ∃ l', l = c :: l' ∧ cs = l' ++ rest := by
  cases l with
  | nil =>
    subst hcs
    exact absurd h.head? hc
  | cons d l =>
    obtain ⟨rfl, rfl⟩ := List.cons.inj hcs
    exact ⟨l, rfl, rfl⟩

theorem AfterLine.first {rest : List Char} (h : AfterLine rest) (c : Char) (l : List Char) :
    Lexeme.first c (l ++ rest) =
      ((Lexeme.first c l).1, (Lexeme.first c l).2.1, (Lexeme.first c l).2.2 ++ rest) := by
  rcases h with rfl | ⟨cs, rfl⟩
  · simp only [List.append_nil]
  · exact first_append_newline c l cs

/-- Scanning a line comes to the tokens that the text has there, and leaves the scanner where the
rest of the text goes on. -/
theorem Reads.line {text? : Option String} {cs : List Char} {ts : List (Token.Kind × String)}
    (h : Reads text? cs ts) (line column : Nat) {mode : Mode} {l rest : List Char}
    (hmode : mode.open? = text?) (hcs : cs = l ++ rest) (hl : '\n' ∉ l) (hrest : AfterLine rest) :
    ∃ us, ts = (scan line column mode l).1.map Token.unplaced ++ us ∧
      Reads (scan line column mode l).2.open? rest.tail us := by
  induction h generalizing line column mode l with
  | finish =>
    obtain rfl := Mode.eq_code hmode
    obtain ⟨rfl, rfl⟩ := List.append_eq_nil_iff.mp hcs.symm
    rw [scan_code_nil]
    exact ⟨[], rfl, .finish⟩
  | skip hc h ih =>
    obtain rfl := Mode.eq_code hmode
    cases l with
    | nil =>
      subst hcs
      rw [scan_code_nil]
      exact ⟨_, rfl, h⟩
    | cons d l =>
      obtain ⟨rfl, rfl⟩ := List.cons.inj hcs
      have hsep := hc.resolve_right fun hd => hl (hd ▸ List.mem_cons_self)
      rw [scan_separator hsep]
      exact ih _ _ rfl rfl fun hmem => hl (List.mem_cons_of_mem _ hmem)
  | token hsep hline hquote hfirst h ih =>
    obtain rfl := Mode.eq_code hmode
    obtain ⟨l, rfl, rfl⟩ := hrest.exists_cons hline hcs
    rw [hrest.first] at hfirst
    cases hfirst
    have hafter : '\n' ∉ (Lexeme.first _ l).2.2 := fun hmem =>
      hl (Lexeme.first_append _ l ▸ List.mem_append_right _ hmem)
    rw [scan_first hsep hquote rfl]
    exact (ih _ _ Mode.open?_code rfl hafter).imp fun us ⟨hts, hreads⟩ =>
      ⟨congrArg (List.cons _) hts, hreads⟩
  | openLiteral h ih =>
    obtain rfl := Mode.eq_code hmode
    obtain ⟨l, rfl, rfl⟩ := hrest.exists_cons (by decide) hcs
    rw [scan_quote]
    exact ih _ _ rfl rfl fun hmem => hl (List.mem_cons_of_mem _ hmem)
  | extend hc h ih =>
    obtain ⟨start, rfl⟩ := Mode.eq_literal hmode
    cases l with
    | nil =>
      subst hcs
      obtain rfl := hrest.head?
      rw [scan_literal_nil]
      exact ⟨_, rfl, h⟩
    | cons d l =>
      obtain ⟨rfl, rfl⟩ := List.cons.inj hcs
      rw [scan_literal_cons hc]
      exact ih _ _ rfl rfl fun hmem => hl (List.mem_cons_of_mem _ hmem)
  | closeLiteral h ih =>
    obtain ⟨start, rfl⟩ := Mode.eq_literal hmode
    obtain ⟨l, rfl, rfl⟩ := hrest.exists_cons (by decide) hcs
    have hmem : '\n' ∉ l := fun hmem => hl (List.mem_cons_of_mem _ hmem)
    rw [scan_literal_quote]
    exact (ih _ _ Mode.open?_code rfl hmem).imp fun us ⟨hts, hreads⟩ =>
      ⟨congrArg (List.cons _) hts, hreads⟩

/-! ## All lines -/

/-- No carriage return is directly followed by a newline. -/
def NewlinesOnly (cs : List Char) : Prop := cs.IsChain fun c d => ¬ (c = '\r' ∧ d = '\n')

instance (cs : List Char) : Decidable (NewlinesOnly cs) :=
  inferInstanceAs (Decidable (cs.IsChain _))

theorem cutFrom_append_newline {l : List Char} (hl : '\n' ∉ l) (line cs : List Char) :
    Lines.cutFrom '\n' '\r' line (l ++ '\n' :: cs) =
      (Lines.dropReturn '\r' (l.reverse ++ line)).reverse :: Lines.cut '\n' '\r' cs := by
  induction l generalizing line with
  | nil =>
    rw [List.nil_append, Lines.cutFrom, if_pos rfl]
    rfl
  | cons c l ih =>
    have hc : c ≠ '\n' := fun hc => hl (hc ▸ List.mem_cons_self)
    rw [List.cons_append, Lines.cutFrom, if_neg hc, ih fun hmem => hl (List.mem_cons_of_mem _ hmem)]
    simp

theorem cut_append_newline {l cs : List Char} (hl : '\n' ∉ l)
    (h : NewlinesOnly (l ++ '\n' :: cs)) :
    Lines.cut '\n' '\r' (l ++ '\n' :: cs) = l :: Lines.cut '\n' '\r' cs := by
  obtain ⟨-, -, hlast⟩ := List.isChain_append.mp h
  rw [Lines.cut, cutFrom_append_newline hl, List.append_nil]
  congr 1
  cases hreverse : l.reverse with
  | nil => rw [List.reverse_eq_nil_iff.mp hreverse, Lines.dropReturn, List.reverse_nil]
  | cons c cs =>
    obtain rfl := List.reverse_eq_cons_iff.mp hreverse
    have hc : c ≠ '\r' := fun hc => hlast c (by simp) '\n' (by simp) ⟨hc, rfl⟩
    simp [Lines.dropReturn, hc]

theorem mode_feedLine (s : Scanner) (l : List Char) :
    (s.feedLine (String.ofList l)).mode = (scan s.lines 0 s.mode l).2 := by
  rw [feedLine, String.toList_ofList]

theorem tokens_feedLine (s : Scanner) (l : List Char) :
    (s.feedLine (String.ofList l)).tokens.toList =
      s.tokens.toList ++ (scan s.lines 0 s.mode l).1 := by
  rw [feedLine, String.toList_ofList, Array.toList_appendList]

theorem Reads.eq_of_nil {text? : Option String} {ts : List (Token.Kind × String)}
    (h : Reads text? [] ts) : text? = none ∧ ts = [] := by
  cases h
  exact ⟨rfl, rfl⟩

/-- Feeding a scanner a text comes to the tokens that the text is read as. The induction is on the
lines of the text. -/
theorem Reads.feed {s : Scanner} {cs : List Char} {ts : List (Token.Kind × String)}
    (h : Reads s.mode.open? cs ts) (hcs : NewlinesOnly cs) :
    (s.feed ((Lines.cut '\n' '\r' cs).map String.ofList)).mode = .code ∧
      (s.feed ((Lines.cut '\n' '\r' cs).map String.ofList)).tokens.toList.map Token.unplaced =
        s.tokens.toList.map Token.unplaced ++ ts := by
  induction hlength : cs.length using Nat.strongRecOn generalizing s cs ts with
  | _ length ih =>
    by_cases hmem : '\n' ∈ cs
    · obtain ⟨l, rest, rfl, hl⟩ := List.eq_append_cons_of_mem hmem
      obtain ⟨us, rfl, hus⟩ := h.line s.lines 0 rfl rfl hl (.inr ⟨rest, rfl⟩)
      have hrest : NewlinesOnly rest := (List.isChain_append.mp hcs).2.1.tail
      have hafter : Reads (s.feedLine (String.ofList l)).mode.open? rest us := by
        rwa [mode_feedLine]
      have hlt : rest.length < length := by
        simp only [← hlength, List.length_append, List.length_cons]
        omega
      obtain ⟨hmode, htokens⟩ := ih _ hlt hafter hrest rfl
      rw [cut_append_newline hl hcs, List.map_cons]
      refine ⟨hmode, htokens.trans ?_⟩
      rw [tokens_feedLine, List.map_append, List.append_assoc]
    · obtain ⟨us, rfl, hus⟩ := h.line s.lines 0 rfl
        (List.append_nil cs).symm hmem (.inl rfl)
      obtain ⟨hopen, rfl⟩ := hus.eq_of_nil
      have hmode := Mode.eq_code hopen
      rw [Lines.cut, cutFrom_of_notMem hmem]
      cases cs with
      | nil =>
        obtain ⟨hs, hts⟩ := h.eq_of_nil
        refine ⟨Mode.eq_code hs, ?_⟩
        rw [hts]
        exact (List.append_nil _).symm
      | cons c cs =>
        change (s.feedLine (String.ofList (c :: cs))).mode = .code ∧
          (s.feedLine (String.ofList (c :: cs))).tokens.toList.map Token.unplaced = _
        rw [mode_feedLine, tokens_feedLine, hmode, List.map_append, List.append_nil]
        exact ⟨rfl, rfl⟩

/-- A text whose lines end in newlines only has the tokens that it is read as, and then the mark of
the end. -/
theorem Reads.ofString {text : String} {ts : List (Token.Kind × String)}
    (h : Reads none text.toList ts) (htext : NewlinesOnly text.toList) :
    (Token.ofString text).map Token.unplaced = ts ++ [(.endOfInput, "")] := by
  obtain ⟨hmode, htokens⟩ := Reads.feed (s := {}) h htext
  rw [Token.ofString, Token.ofLines, Lines.ofString, Scanner.finish, hmode]
  simp [htokens, Token.endAt, Token.unplaced]

end Scanner

end Monkey
